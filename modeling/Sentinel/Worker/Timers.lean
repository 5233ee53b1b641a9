import Sentinel.Worker.Config

/-!
# Worker — Timers

The durations that `main` and `runWithHealth` make of the configuration. A duration is a 64-bit
number of nanoseconds, so a product may wrap.

* `Measures`: a duration is positive, and a number of units.
* `TimersRight`: the durations of the tickers, of the deadlines and of the retention measure what
  `Load` has accepted.
* `timers_iff`: they all do so but for the interval of the demo reset, which has no upper bound.
-/

namespace Sentinel.Worker

open FixedWidth

/-- `time.Minute`. -/
def minute : Int := 60 * second

/-- `24 * time.Hour`. -/
def day : Int := 24 * 3600 * second

def defaultDBOperationTimeout : Int := 10 * second

/-! ### What the code makes of the configuration -/

/-- A ticker, if it is made: `time.NewTicker` panics unless its interval is positive. -/
inductive Ticker where
  | off
  | panics
  | ticks (interval : Int)
deriving DecidableEq, Repr

/-- `time.NewTicker`. -/
def newTicker (interval : Int) : Ticker := if interval ≤ 0 then .panics else .ticks interval

/-- `resetInterval`. -/
def resetInterval (minutes : Int) : Int :=
  toInt64 ((if minutes ≤ 0 then 60 else minutes) * minute)

/-- The ticker of `runDemoResetLoop`. -/
def demoResetTicker (email : String) (interval : Int) : Ticker :=
  if email = "" then .off else newTicker interval

/-- `time.Duration(cfg.RetentionIntervalMinutes)*time.Minute`. -/
def retentionInterval (minutes : Int) : Int := toInt64 (minutes * minute)

/-- The ticker of `runRetentionLoop`. -/
def retentionTicker (interval : Int) : Ticker := if interval ≤ 0 then .off else newTicker interval

/-- `-time.Duration(table.days) * 24 * time.Hour`. -/
def retentionPeriod (days : Int) : Int := toInt64 (-days * day)

/-- The deadline of `runWithHealth`. -/
def operationTimeout (dbTimeout : Int) : Int :=
  if dbTimeout ≤ 0 then defaultDBOperationTimeout else dbTimeout

/-! ### What it should be -/

/-- The number that a bounded variable stands for, or its default. -/
def accepted (env : Env) (key : String) (fallback : Int) : Int :=
  match env key with
  | none => fallback
  | some value => (Checker.atoi value.toList).getD fallback

/-- A duration is positive, and so many units. -/
def Measures (duration number unit : Int) : Prop := 0 < duration ∧ duration = number * unit

/-- A ticker that is made has such an interval. -/
def Ticker.Measures (number unit : Int) : Ticker → Prop
  | .off => True
  | .panics => False
  | .ticks interval => Worker.Measures interval number unit

/-- All durations are what `Load` has accepted, or its defaults, in their units. -/
structure TimersRight (env : Env) (cfg : Config) : Prop where
  demoReset : (demoResetTicker cfg.demoUserEmail (resetInterval cfg.demoResetInterval)).Measures
    (demoResetInterval env) minute
  retention : retentionTicker (retentionInterval cfg.retentionIntervalMinutes) ≠ .off ∧
    (retentionTicker (retentionInterval cfg.retentionIntervalMinutes)).Measures
      (accepted env "RETENTION_INTERVAL_MINUTES" 60) minute
  checkDays : Measures (-retentionPeriod cfg.checkResultRetentionDays)
    (accepted env "CHECK_RESULT_RETENTION_DAYS" 30) day
  alertDays : Measures (-retentionPeriod cfg.alertRetentionDays)
    (accepted env "ALERT_RETENTION_DAYS" 90) day
  retentionTimeout : Measures cfg.retentionDBTimeout
    (accepted env "RETENTION_DB_TIMEOUT_SECONDS" 5) second
  operationTimeout : 0 < operationTimeout cfg.dbOperationTimeout ∧
    operationTimeout cfg.dbOperationTimeout =
      min (durationSeconds env "WORKER_DB_TIMEOUT_SECONDS" 10 * second) maxDBTimeout
  healthTimeout : Measures cfg.healthDBTimeout
    (durationSeconds env "WORKER_HEALTH_DB_TIMEOUT_SECONDS" 5) second

/-! ### Products that fit -/

theorem measures_of_fits {number unit : Int} (hpos : 0 < number * unit)
    (h : IsInt64 (number * unit)) : Measures (toInt64 (number * unit)) number unit := by
  rw [toInt64_eq h]
  exact ⟨hpos, rfl⟩

theorem boundedPositiveEnv_accepted {env : Env} {key : String} {fallback maximum n : Int}
    (h : (boundedPositiveEnv env key fallback maximum).value = .ok n) :
    n = accepted env key fallback := by
  unfold accepted
  rcases boundedPositiveEnv_cases h with ⟨hnone, hn⟩ | ⟨value, hsome, hatoi, -⟩
  · rw [hnone]
    exact hn
  · rw [hsome]
    simp only [hatoi, Option.getD_some]

theorem durationEnv_measures {env : Env} {key : String} {fallbackSeconds d : Int}
    (hfallback : 0 < fallbackSeconds ∧ fallbackSeconds ≤ maxDurationSeconds)
    (h : (durationEnv env key fallbackSeconds).value = .ok d) :
    Measures d (durationSeconds env key fallbackSeconds) second := by
  have hseconds := durationSeconds_bounds env key hfallback
  obtain rfl := (Calc.arith_eq_ok (isInt64_seconds hseconds)).mp h
  exact ⟨Int.mul_pos hseconds.1 (by decide), rfl⟩

theorem newTicker_measures {interval number unit : Int} (h : Measures interval number unit) :
    newTicker interval = .ticks interval :=
  if_neg (Int.not_le.mpr h.1)

theorem retentionTicker_eq {interval number unit : Int} (h : Measures interval number unit) :
    retentionTicker interval = .ticks interval :=
  (if_neg (Int.not_le.mpr h.1)).trans (newTicker_measures h)

theorem retentionPeriod_measures {days : Int} (h : 0 < days ∧ days ≤ maxRetentionDays) :
    Measures (-retentionPeriod days) days day := by
  unfold maxRetentionDays at h
  have hfits : IsInt64 (-days * day) := by
    unfold IsInt64 day second
    omega
  unfold retentionPeriod Measures
  rw [toInt64_eq hfits]
  unfold day second
  omega

/-- The deadline of a database operation, after the cap. -/
theorem heartbeatBudget_timeout {env : Env} {dbTimeout heartbeatMaxAge : Int}
    (h : (heartbeatBudget env).value = .ok (dbTimeout, heartbeatMaxAge)) :
    dbTimeout = min (durationSeconds env "WORKER_DB_TIMEOUT_SECONDS" 10 * second) maxDBTimeout := by
  obtain ⟨d, hd, h⟩ := Calc.bind_eq_ok.mp h
  obtain ⟨deadlines, -, h⟩ := Calc.bind_eq_ok.mp h
  obtain ⟨withProbe, -, h⟩ := Calc.bind_eq_ok.mp h
  obtain ⟨withInterval, -, h⟩ := Calc.bind_eq_ok.mp h
  obtain ⟨minimumHeartbeatAge, -, h⟩ := Calc.bind_eq_ok.mp h
  obtain ⟨minimumSeconds, -, h⟩ := Calc.bind_eq_ok.mp h
  obtain ⟨age, -, h⟩ := Calc.bind_eq_ok.mp h
  obtain ⟨rfl, -⟩ := Prod.mk.inj (Calc.pure_eq_ok.mp h)
  rw [(durationEnv_measures (by decide) hd).2]
  split <;> omega

theorem demoResetInterval_pos (env : Env) : 0 < demoResetInterval env := by
  unfold demoResetInterval
  split
  · split
    · split
      · assumption
      · decide
    · decide
  · decide

/-- **The interval of the demo reset**, which `Load` only checks to be positive. -/
theorem resetInterval_measures {minutes : Int} (h : 0 < minutes) :
    (newTicker (resetInterval minutes)).Measures minutes minute ↔ minutes ≤ 153722867 := by
  have hproduct : resetInterval minutes = toInt64 (minutes * minute) := by
    rw [resetInterval, if_neg (Int.not_le.mpr h)]
  have hpos : 0 < minutes * minute := Int.mul_pos h (by decide)
  have hfits : IsInt64 (minutes * minute) ↔ minutes ≤ 153722867 := by
    unfold IsInt64 minute second
    omega
  rw [hproduct, ← hfits]
  constructor
  · intro hticker
    refine toInt64_eq_iff.mp ?_
    unfold newTicker at hticker
    split at hticker
    · exact hticker.elim
    · exact hticker.2
  · intro hfits
    have hmeasures := measures_of_fits hpos hfits
    rw [newTicker_measures hmeasures]
    exact hmeasures

/-- **Every timer is positive and exact if and only if** the demo is not reset at all or the minutes
of its interval are 64-bit nanoseconds. The ticker panics otherwise, or has another interval. -/
theorem timers_iff (env : Env) (cfg : Config) (hload : (load env).value = .ok cfg) :
    TimersRight env cfg ↔
      getenv env "DEMO_USER_EMAIL" = "" ∨ demoResetInterval env ≤ 153722867 := by
  have hloaded := load_loaded hload
  have hvalid := load_ok hload
  have hdemo : (demoResetTicker cfg.demoUserEmail (resetInterval cfg.demoResetInterval)).Measures
      (demoResetInterval env) minute ↔
        getenv env "DEMO_USER_EMAIL" = "" ∨ demoResetInterval env ≤ 153722867 := by
    rw [hloaded.demoEmail, hloaded.demoReset, ← resetInterval_measures (demoResetInterval_pos env),
      demoResetTicker]
    by_cases hemail : getenv env "DEMO_USER_EMAIL" = ""
    · rw [if_pos hemail]
      exact iff_of_true trivial (.inl hemail)
    · rw [if_neg hemail]
      exact (or_iff_right hemail).symm
  refine ⟨fun h => hdemo.mp h.demoReset, fun h => ?_⟩
  have hinterval : Measures (retentionInterval cfg.retentionIntervalMinutes)
      (accepted env "RETENTION_INTERVAL_MINUTES" 60) minute := by
    rw [← boundedPositiveEnv_accepted hloaded.interval]
    obtain ⟨hpos, hmax⟩ := boundedPositiveEnv_ok (by decide) hloaded.interval
    refine measures_of_fits (Int.mul_pos hpos (by decide)) ?_
    unfold maxRetentionIntervalMinutes at hmax
    unfold IsInt64 minute second
    omega
  refine ⟨hdemo.mpr h, ?_, ?_, ?_, ?_, ?_, ?_⟩
  · rw [retentionTicker_eq hinterval]
    exact ⟨by simp, hinterval⟩
  · rw [← boundedPositiveEnv_accepted hloaded.checkDays]
    exact retentionPeriod_measures hvalid.checkDays
  · rw [← boundedPositiveEnv_accepted hloaded.alertDays]
    exact retentionPeriod_measures hvalid.alertDays
  · obtain ⟨seconds, hseconds, htimeout⟩ := hloaded.retentionTimeout
    rw [htimeout, ← boundedPositiveEnv_accepted hseconds]
    exact ⟨Int.mul_pos (boundedPositiveEnv_ok (by decide) hseconds).1 (by decide), rfl⟩
  · have hpos := hvalid.dbOperationTimeout
    rw [operationTimeout, if_neg (Int.not_le.mpr hpos)]
    exact ⟨hpos, heartbeatBudget_timeout hloaded.budget⟩
  · exact durationEnv_measures (by decide) hloaded.healthTimeout

/-- A demo that is reset after so many minutes. -/
def resetAfter (minutes : String) : Env := fun key =>
  if key = "DEMO_USER_EMAIL" then some "demo@example.com"
  else if key = "DEMO_RESET_INTERVAL_MINUTES" then some minutes
  else none

/-- Of the longest interval all is right. -/
theorem timers_longest : ∃ cfg, (load (resetAfter "153722867")).value = .ok cfg ∧
    TimersRight (resetAfter "153722867") cfg :=
  ⟨_, rfl, (timers_iff (resetAfter "153722867") _ rfl).mpr (.inr (by decide))⟩

/-- One minute more, and the worker panics. -/
theorem timers_panic : ∃ cfg, (load (resetAfter "153722868")).value = .ok cfg ∧
    demoResetTicker cfg.demoUserEmail (resetInterval cfg.demoResetInterval) = .panics ∧
    ¬ TimersRight (resetAfter "153722868") cfg := by
  obtain ⟨cfg, hload⟩ : ∃ cfg, (load (resetAfter "153722868")).value = .ok cfg := ⟨_, rfl⟩
  have hloaded := load_loaded hload
  have hpanics : demoResetTicker cfg.demoUserEmail (resetInterval cfg.demoResetInterval) =
      .panics := by
    rw [hloaded.demoEmail, hloaded.demoReset]
    decide
  refine ⟨cfg, hload, hpanics, fun h => ?_⟩
  have hticker := h.demoReset
  rw [hpanics] at hticker
  exact hticker

end Sentinel.Worker
