import Sentinel.Api.Values

/-!
# Api — PublicStatus

The query of `PublicStatusService` (`src/status/public-status.service.ts`): what anyone can read.
`onModuleInit` reads how far back the query looks, and for how long its answer is kept.
-/

namespace Sentinel.Api

open Database

/-- What `onModuleInit` sets. -/
structure StatusSettings where
  uptimeWindowHours : Rat
  cacheTtlMilliseconds : Rat
deriving DecidableEq, Repr

/-- `readPositiveConfig`. -/
def readPositiveConfig (rt : Runtime) (key : String) (fallback : Rat) : Except ApiError Rat :=
  match rt.config key fallback with
  | .finite value =>
      if value ≤ 0 then .error (.thrown (key ++ " must be a positive finite number"))
      else .ok value
  | _ => .error (.thrown (key ++ " must be a positive finite number"))

/-- `onModuleInit`. A product of finite numbers is finite here. -/
def onModuleInit (rt : Runtime) : Except ApiError StatusSettings := do
  let uptimeWindowHours ← readPositiveConfig rt "STATUS_UPTIME_WINDOW_HOURS" 24
  let cacheTtlSeconds ← readPositiveConfig rt "STATUS_CACHE_TTL_SECONDS" 30
  return ⟨uptimeWindowHours, cacheTtlSeconds * 1000⟩

theorem readPositiveConfig_ok {rt : Runtime} {key : String} {fallback value : Rat}
    (h : readPositiveConfig rt key fallback = .ok value) :
    rt.config key fallback = .finite value ∧ 0 < value := by
  unfold readPositiveConfig at h
  split at h
  · split at h
    · cases h
    · rename_i hconfig hpos
      cases h
      exact ⟨hconfig, not_le.mp hpos⟩
  · cases h

/-- The settings are those of the environment, and positive. -/
theorem onModuleInit_ok {rt : Runtime} {settings : StatusSettings}
    (h : onModuleInit rt = .ok settings) :
    rt.config "STATUS_UPTIME_WINDOW_HOURS" 24 = .finite settings.uptimeWindowHours ∧
      0 < settings.cacheTtlMilliseconds := by
  unfold onModuleInit at h
  cases hhours : readPositiveConfig rt "STATUS_UPTIME_WINDOW_HOURS" 24 with
  | error e =>
      rw [hhours] at h
      cases h
  | ok hours =>
      rw [hhours] at h
      cases httl : readPositiveConfig rt "STATUS_CACHE_TTL_SECONDS" 30 with
      | error e =>
          rw [httl] at h
          cases h
      | ok ttl =>
          rw [httl] at h
          cases h
          refine ⟨(readPositiveConfig_ok hhours).1, ?_⟩
          exact mul_pos (readPositiveConfig_ok httl).2 (by norm_num)

/-- A row of the answer. Its `check_summary` is flat here. -/
structure PublicStatusRow where
  name : String
  lastState : Option String
  uptimePercentage : Option Rat
  lastCheckedAt : Option Time
  windowHours : Rat
  totalChecks : Nat
  healthyChecks : Nat
  windowStart : Time
  windowEnd : Time
  firstCheckAt : Option Time
  lastCheckAt : Option Time
deriving DecidableEq, Repr

/-- One hour. -/
def hour : Rat := 3600000000

/-- The row of one monitor. -/
def publicStatusRow (db : Db) (uptimeWindowHours : Rat) (now : Time) (m : Monitor) :
    PublicStatusRow :=
  let windowStart := now - (uptimeWindowHours * hour).floor
  let checks := db.checkResults.filter fun r =>
    r.monitorId = m.id && windowStart ≤ r.createdAt && r.createdAt ≤ now
  let healthy := checks.filter (·.state = "healthy")
  { name := m.name
    lastState := m.lastState
    uptimePercentage :=
      if checks.length = 0 then none else some ((healthy.length : Rat) * 100 / checks.length)
    lastCheckedAt := m.lastCheckedAt
    windowHours := uptimeWindowHours
    totalChecks := checks.length
    healthyChecks := healthy.length
    windowStart := windowStart
    windowEnd := now
    firstCheckAt := (checks.map (·.createdAt)).min?
    lastCheckAt := (checks.map (·.createdAt)).max? }

/-- The monitors the query selects, each with its account, in the order of the names (which the
database's collation compares) and ids. -/
def publicMonitors (collation : String → String → Bool) (db : Db) : List Monitor :=
  let rows := db.monitors.flatMap fun m =>
    (db.users.filter fun u => u.id = m.userId && m.state = "Active" && m.isPublic &&
      !u.isDemo).map fun _ => m
  rows.mergeSort fun a b =>
    collation a.name b.name && (!collation b.name a.name || a.id ≤ b.id)

/-- `queryPublicStatus`. -/
def queryPublicStatus (collation : String → String → Bool) (uptimeWindowHours : Rat) (now : Time)
    (db : Db) : List PublicStatusRow :=
  (publicMonitors collation db).map (publicStatusRow db uptimeWindowHours now)

/-- Only public monitors are selected, and none of a demo account. -/
theorem mem_publicMonitors {collation : String → String → Bool} {db : Db} {m : Monitor} :
    m ∈ publicMonitors collation db ↔ m ∈ db.monitors ∧ m.state = "Active" ∧
      m.isPublic = true ∧ ∃ u ∈ db.users, u.id = m.userId ∧ u.isDemo = false := by
  unfold publicMonitors
  rw [List.mem_mergeSort, List.mem_flatMap]
  constructor
  · rintro ⟨m', hm', hrow⟩
    obtain ⟨u, hfilter, rfl⟩ := List.mem_map.mp hrow
    obtain ⟨hu, hcond⟩ := List.mem_filter.mp hfilter
    simp only [Bool.and_eq_true, decide_eq_true_eq, Bool.not_eq_true'] at hcond
    exact ⟨hm', hcond.1.1.2, hcond.1.2, u, hu, hcond.1.1.1, hcond.2⟩
  · rintro ⟨hm, hstate, hpublic, u, hu, hid, hdemo⟩
    refine ⟨m, hm, List.mem_map.mpr ⟨u, List.mem_filter.mpr ⟨hu, ?_⟩, rfl⟩⟩
    simp only [Bool.and_eq_true, decide_eq_true_eq, Bool.not_eq_true']
    exact ⟨⟨⟨hid, hstate⟩, hpublic⟩, hdemo⟩

end Sentinel.Api
