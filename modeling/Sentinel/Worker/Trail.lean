import Sentinel.Database.Shared
import Sentinel.Worker.Persist

/-!
# Worker — Trail

What the tables say of a monitor, and what the changes ever committed say of it.

* `probeStates`, `alertTypes` and `patches` are the states of the checks, the alerts and the updates
  ever committed of a monitor, in order.
* `Trail`: in every row there are `evaluateFSM` folded over the states of its checks, and the fields
  of its last update. `Quiet` changes keep this, and so does a check of a snapshot that `Matches`.
* `checkAndPersist_beside`: beside whatever others, a check commits at most once, all of its own
  changes.
-/

namespace Sentinel.Database

/-- The state of a check of a monitor. -/
def Write.probeState (id : Int) : Write → Option String
  | .insertCheckResult r => if r.monitorId = id then some r.state else none
  | _ => none

/-- The type of an alert of a monitor. -/
def Write.alertType (id : Int) : Write → Option String
  | .insertAlert a => if a.monitorId = id then some a.alertType else none
  | _ => none

/-- The fields of an update of a monitor. -/
def Write.patch (id : Int) : Write → Option MonitorPatch
  | .setFields id' patch => if id' = id then some patch else none
  | _ => none

/-- The monitor that a check result, an alert or an update is of. -/
def Write.about : Write → Option Int
  | .insertCheckResult r => some r.monitorId
  | .insertAlert a => some a.monitorId
  | .setFields id _ => some id
  | _ => none

def probeStates (id : Int) (log : List Write) : List String := log.filterMap (Write.probeState id)

def alertTypes (id : Int) (log : List Write) : List String := log.filterMap (Write.alertType id)

def patches (id : Int) (log : List Write) : List MonitorPatch := log.filterMap (Write.patch id)

/-- The monitors ever inserted. -/
def inserted (log : List Write) : List Int := log.filterMap Write.newMonitor

theorem Write.not_about {w : Write} {id : Int} (h : w.about ≠ some id) :
    w.probeState id = none ∧ w.alertType id = none ∧ w.patch id = none := by
  cases w with
  | insertCheckResult r => exact ⟨if_neg fun hid => h (congrArg some hid), rfl, rfl⟩
  | insertAlert a => exact ⟨rfl, if_neg fun hid => h (congrArg some hid), rfl⟩
  | setFields id' patch => exact ⟨rfl, rfl, if_neg fun hid => h (congrArg some hid)⟩
  | insertUser | setDemoUser | insertMonitor | setChecked | setSeeded | hide | deleteMonitor
  | deleteCheckResult | deleteAlert => exact ⟨rfl, rfl, rfl⟩

/-- Nothing is committed of a monitor by changes that are not about it. -/
theorem trail_nil {id : Int} {ws : List Write} (h : ∀ w ∈ ws, w.about ≠ some id) :
    probeStates id ws = [] ∧ alertTypes id ws = [] ∧ patches id ws = [] :=
  ⟨List.filterMap_eq_nil_iff.mpr fun w hw => (Write.not_about (h w hw)).1,
    List.filterMap_eq_nil_iff.mpr fun w hw => (Write.not_about (h w hw)).2.1,
    List.filterMap_eq_nil_iff.mpr fun w hw => (Write.not_about (h w hw)).2.2⟩

/-- The fields of an update are in the row. -/
structure MonitorPatch.Holds (patch : MonitorPatch) (m : Monitor) : Prop where
  name : ∀ v, patch.name = some v → m.name = v
  target : ∀ v, patch.target = some v → m.target = v
  checkType : ∀ v, patch.checkType = some v → m.checkType = v
  checkConfig : ∀ v, patch.checkConfig = some v → m.checkConfig = some v
  frequency : ∀ v, patch.frequency = some v → m.frequency = v

theorem MonitorPatch.holds_patched (patch : MonitorPatch) (m : Monitor) :
    patch.Holds (m.patched patch) := by
  constructor
  all_goals
    intro v hv
    simp [Monitor.patched, hv]

theorem inserted_append (log ws : List Write) :
    inserted (log ++ ws) = inserted log ++ inserted ws :=
  List.filterMap_append

theorem mem_base_inserted {base : List Int} {log : List Write} {id : Int}
    (h : id ∈ base ++ inserted log) (ws : List Write) : id ∈ base ++ inserted (log ++ ws) := by
  rw [inserted_append, ← List.append_assoc]
  exact List.mem_append_left _ h

/-- A change is of a monitor that is there. -/
theorem Write.about_violates {db : Db} {w : Write} {id : Int} (hw : w.about = some id)
    (hadmits : w.violates db = none) : id ∈ db.monitors.map (·.id) := by
  have hthere : db.hasMonitor id = true := by
    cases w with
    | insertCheckResult r =>
        cases hw
        exact firstViolation_eq_none.mp hadmits _
          (List.mem_cons_of_mem _ (List.mem_cons_of_mem _ List.mem_cons_self))
    | insertAlert a =>
        cases hw
        exact firstViolation_eq_none.mp hadmits _ (List.mem_cons_of_mem _ List.mem_cons_self)
    | setFields id' patch =>
        cases hw
        exact firstViolation_eq_none.mp hadmits _
          (List.mem_cons_of_mem _ (List.mem_cons_of_mem _ List.mem_cons_self))
    | insertUser | setDemoUser | insertMonitor | setChecked | setSeeded | hide | deleteMonitor
    | deleteCheckResult | deleteAlert => cases hw
  obtain ⟨m, hm, hid⟩ := List.any_eq_true.mp hthere
  exact List.mem_map.mpr ⟨m, hm, of_decide_eq_true hid⟩

/-- Changes that are admitted are of monitors that were inserted before. -/
theorem about_replay {base : List Int} : ∀ {ws log : List Write} {db db' : Db},
    (db.monitors.map (·.id)).Sublist (base ++ inserted log) → replay db ws = .ok db' →
    ∀ w ∈ ws, ∀ id, w.about = some id → id ∈ base ++ inserted (log ++ ws)
  | [], _, _, _, _, _, w, hw => (nomatch hw)
  | v :: ws, log, db, db', hids, hreplay, w, hw => by
      intro id hid
      obtain ⟨hadmits, hrest⟩ := replay_cons.mp hreplay
      rcases List.mem_cons.mp hw with rfl | hw
      · exact mem_base_inserted (hids.subset (Write.about_violates hid hadmits)) _
      · have hone : replay db [v] = .ok (v.apply db) := replay_cons.mpr ⟨hadmits, rfl⟩
        have hids' : ((v.apply db).monitors.map (·.id)).Sublist
            (base ++ inserted (log ++ [v])) := by
          rw [inserted_append, ← List.append_assoc]
          exact (replay_ids hone).trans (hids.append_right _)
        have ih := about_replay hids' hrest w hw id hid
        rwa [List.append_assoc] at ih

/-- **What each change keeps, a list of admitted changes keeps**, if the monitors that they insert
are new. -/
theorem replay_fresh {P : Db → List Write → Prop} {K : Write → Prop} {base : List Int} {db' : Db}
    (hone : ∀ {db : Db} {log : List Write} {w : Write}, P db log → K w → w.violates db = none →
      (∀ id, w.newMonitor = some id → id ∉ base ++ inserted log) → P (w.apply db) (log ++ [w])) :
    ∀ {ws log : List Write} {db : Db}, P db log → (∀ w ∈ ws, K w) → replay db ws = .ok db' →
      (base ++ inserted (log ++ ws)).Nodup → P db' (log ++ ws)
  | [], log, db, h, _, hreplay, _ => by
      cases hreplay
      rwa [List.append_nil]
  | w :: ws, log, db, h, hws, hreplay, hnodup => by
      obtain ⟨hadmits, hrest⟩ := replay_cons.mp hreplay
      rw [show log ++ w :: ws = log ++ [w] ++ ws from List.append_cons ..] at hnodup ⊢
      refine replay_fresh hone (hone h (hws w List.mem_cons_self) hadmits fun id hid hmem => ?_)
        (fun v hv => hws v (List.mem_cons_of_mem _ hv)) hrest hnodup
      -- the new number is not among those before it
      rw [inserted_append, inserted_append, ← List.append_assoc, ← List.append_assoc] at hnodup
      have hpair := (List.nodup_append.mp (List.nodup_append.mp hnodup).1).2.2
      refine hpair id hmem id ?_ rfl
      simp [inserted, hid]

end Sentinel.Database

namespace Sentinel.Worker

open Program Database

/-! ### Rows -/

/-- A row holds what is committed of its monitor. -/
structure Agrees (t : Int) (log : List Write) (m : Monitor) : Prop where
  state : m.lastState = (history t (probeStates m.id log)).state
  failures : m.consecutiveFailures = (history t (probeStates m.id log)).failures
  alerts : alertTypes m.id log = (history t (probeStates m.id log)).alerts
  patched : ∀ patch, (patches m.id log).getLast? = some patch → patch.Holds m

/-- The columns of a snapshot that a check uses are what is committed of its monitor. -/
structure Matches (t : Int) (log : List Write) (m : Checker.Monitor) : Prop where
  state : m.lastState = (history t (probeStates m.id log)).state
  failures : m.consecutiveFailures = (history t (probeStates m.id log)).failures

theorem Agrees.append {t : Int} {log ws : List Write} {m : Monitor} (h : Agrees t log m)
    (hws : ∀ w ∈ ws, w.about ≠ some m.id) : Agrees t (log ++ ws) m := by
  obtain ⟨hstates, halerts, hpatches⟩ := trail_nil hws
  have hprobe : probeStates m.id (log ++ ws) = probeStates m.id log := by
    rw [probeStates, List.filterMap_append]
    exact (congrArg _ hstates).trans (List.append_nil _)
  have halert : alertTypes m.id (log ++ ws) = alertTypes m.id log := by
    rw [alertTypes, List.filterMap_append]
    exact (congrArg _ halerts).trans (List.append_nil _)
  have hpatch : patches m.id (log ++ ws) = patches m.id log := by
    rw [patches, List.filterMap_append]
    exact (congrArg _ hpatches).trans (List.append_nil _)
  constructor
  · rw [hprobe]
    exact h.state
  · rw [hprobe]
    exact h.failures
  · rw [hprobe, halert]
    exact h.alerts
  · rw [hpatch]
    exact h.patched

theorem Matches.append {t : Int} {log ws : List Write} {m : Checker.Monitor}
    (h : Matches t log m) (hws : ∀ w ∈ ws, w.probeState m.id = none) :
    Matches t (log ++ ws) m := by
  have hprobe : probeStates m.id (log ++ ws) = probeStates m.id log := by
    rw [probeStates, List.filterMap_append, List.filterMap_eq_nil_iff.mpr hws, List.append_nil]
    rfl
  constructor
  · rw [hprobe]
    exact h.state
  · rw [hprobe]
    exact h.failures

theorem Agrees.snapshot {t : Int} {log : List Write} {m : Monitor} (h : Agrees t log m) :
    Matches t log m.snapshot :=
  ⟨h.state, h.failures⟩

/-- The rows of the tables, by the changes ever committed. The monitors of `base` were there
before. -/
structure Trail (t : Int) (base : List Int) (db : Db) (log : List Write) : Prop where
  ids : (db.monitors.map (·.id)).Sublist (base ++ inserted log)
  about : ∀ w ∈ log, ∀ id, w.about = some id → id ∈ base ++ inserted log
  rows : ∀ m ∈ db.monitors, Agrees t log m

section Trail

variable {t : Int} {base : List Int} {db db' : Db} {log : List Write}

/-- Of what a list of admitted changes keeps, the rows alone are left to be shown. -/
theorem Trail.of_rows (h : Trail t base db log) {ws : List Write}
    (hreplay : replay db ws = .ok db') (hrows : ∀ m ∈ db'.monitors, Agrees t (log ++ ws) m) :
    Trail t base db' (log ++ ws) where
  ids := by
    rw [inserted_append, ← List.append_assoc]
    exact (replay_ids hreplay).trans (h.ids.append_right _)
  about w hw id hid := by
    rcases List.mem_append.mp hw with hw | hw
    · exact mem_base_inserted (h.about w hw id hid) ws
    · exact about_replay h.ids hreplay w hw id hid
  rows := hrows

/-! ### Quiet changes -/

/-- A change that tells nothing of a check: monitors that it inserts are unchecked, and it sets none
of the columns of a check. -/
def Quiet : Write → Prop
  | .insertMonitor m => m.lastState = none ∧ m.consecutiveFailures = 0
  | .setChecked _ _ _ _ | .setSeeded _ _ | .insertCheckResult _ | .insertAlert _ => False
  | _ => True

theorem Quiet.probeState {w : Write} (hw : Quiet w) (id : Int) : w.probeState id = none := by
  cases w with
  | insertCheckResult => cases hw
  | insertUser | setDemoUser | insertMonitor | setChecked | setFields | setSeeded | hide
  | deleteMonitor | deleteCheckResult | insertAlert | deleteAlert => rfl

/-- The row of an update has its fields, and what was committed of checks before. -/
theorem Agrees.setFields {m : Monitor} (h : Agrees t log m) (patch : MonitorPatch) :
    Agrees t (log ++ [.setFields m.id patch]) (m.patched patch) := by
  have hprobe : probeStates m.id (log ++ [.setFields m.id patch]) = probeStates m.id log := by
    simp [probeStates, Write.probeState]
  have halert : alertTypes m.id (log ++ [.setFields m.id patch]) = alertTypes m.id log := by
    simp [alertTypes, Write.alertType]
  have hpatch : patches m.id (log ++ [.setFields m.id patch]) = patches m.id log ++ [patch] := by
    simp [patches, Write.patch]
  constructor
  · show m.lastState = (history t (probeStates m.id _)).state
    rw [hprobe]
    exact h.state
  · show m.consecutiveFailures = (history t (probeStates m.id _)).failures
    rw [hprobe]
    exact h.failures
  · show alertTypes m.id _ = (history t (probeStates m.id _)).alerts
    rw [hprobe, halert]
    exact h.alerts
  · intro last hlast
    rw [show (m.patched patch).id = m.id from rfl, hpatch, List.getLast?_concat] at hlast
    cases hlast
    exact patch.holds_patched m

/-- A monitor of which nothing is committed yet. -/
theorem agrees_unchecked {m : Monitor} (hm : m.lastState = none ∧ m.consecutiveFailures = 0)
    (hlog : ∀ w ∈ log, w.about ≠ some m.id) : Agrees t log m := by
  obtain ⟨hstates, halerts, hpatches⟩ := trail_nil hlog
  constructor
  · rw [hstates]
    exact hm.1
  · rw [hstates]
    exact hm.2
  · rw [hstates, halerts]
    rfl
  · rw [hpatches]
    exact fun patch h => (nomatch h)

theorem Trail.quiet_one (h : Trail t base db log) {w : Write} (hw : Quiet w)
    (hadmits : w.violates db = none)
    (hfresh : ∀ id, w.newMonitor = some id → id ∉ base ++ inserted log) :
    Trail t base (w.apply db) (log ++ [w]) := by
  refine h.of_rows (replay_cons.mpr ⟨hadmits, rfl⟩) fun m hm => ?_
  have hother : ∀ m ∈ db.monitors, w.about ≠ some m.id → Agrees t (log ++ [w]) m := by
    intro m hm habout
    refine (h.rows m hm).append fun v hv => ?_
    rwa [List.mem_singleton.mp hv]
  cases w with
  | insertMonitor row =>
      rcases List.mem_append.mp hm with hm | hm
      · exact hother m hm fun h => (nomatch h)
      · obtain rfl := List.mem_singleton.mp hm
        -- its number is new, so no change before was about it
        refine (agrees_unchecked hw fun w hw habout => ?_).append fun w hw => ?_
        · exact hfresh m.id rfl (h.about w hw m.id habout)
        · rw [List.mem_singleton.mp hw]
          exact fun h => (nomatch h)
  | setFields id patch =>
      rcases Db.mem_onMonitor hm with ⟨hm, hid⟩ | ⟨old, hold, rfl, rfl⟩
      · exact hother m hm fun h => hid (Option.some.inj h).symm
      · exact (h.rows old hold).setFields patch
  | hide id =>
      rcases Db.mem_onMonitor hm with ⟨hm, -⟩ | ⟨old, hold, -, rfl⟩
      · exact hother m hm fun h => (nomatch h)
      · have hrow := hother old hold fun h => (nomatch h)
        refine ⟨hrow.state, hrow.failures, hrow.alerts, fun patch hpatch => ?_⟩
        exact { hrow.patched patch hpatch with }
  | deleteMonitor id => exact hother m (List.mem_filter.mp hm).1 fun h => (nomatch h)
  | insertUser | setDemoUser | deleteCheckResult | deleteAlert =>
      exact hother m hm fun h => (nomatch h)
  | setChecked | setSeeded | insertCheckResult | insertAlert => cases hw

/-- **Quiet changes keep the trail**, if the monitors that they insert are new. -/
theorem Trail.quiet {ws : List Write} (h : Trail t base db log) (hws : ∀ w ∈ ws, Quiet w)
    (hreplay : replay db ws = .ok db') (hnodup : (base ++ inserted (log ++ ws)).Nodup) :
    Trail t base db' (log ++ ws) :=
  replay_fresh (fun h hw hadmits hfresh => h.quiet_one hw hadmits hfresh) h hws hreplay hnodup

/-! ### Checks -/

/-- The changes of a check of a snapshot, with some result. -/
def Checks (t : Int) (m : Checker.Monitor) (ws : List Write) : Prop :=
  ∃ result now resultId alertId, ws = checkWrites m result
    (evaluateFSM m.lastState m.consecutiveFailures result.state t) now resultId alertId

theorem Checks.about {m : Checker.Monitor} {ws : List Write} (h : Checks t m ws) {id : Int}
    (hid : id ≠ m.id) : ∀ w ∈ ws, w.about ≠ some id := by
  obtain ⟨result, now, resultId, alertId, rfl⟩ := h
  intro w hw habout
  rcases List.mem_append.mp hw with hw | hw
  · simp only [List.mem_cons, List.not_mem_nil, or_false] at hw
    rcases hw with rfl | rfl
    · exact hid (Option.some.inj habout).symm
    · cases habout
  · split at hw
    · cases hw
    · rw [List.mem_singleton.mp hw] at habout
      exact hid (Option.some.inj habout).symm

/-- What a check commits of its monitor. -/
theorem trail_checkWrites (m : Checker.Monitor) (result : Checker.Result)
    (evaluation : FsmEvaluation) (now : Time) (resultId alertId : Int) :
    let ws := checkWrites m result evaluation now resultId alertId
    probeStates m.id ws = [result.state] ∧
      alertTypes m.id ws = (if evaluation.alertType = "" then [] else [evaluation.alertType]) ∧
        patches m.id ws = [] := by
  by_cases halert : evaluation.alertType = ""
  · simp [checkWrites, halert, probeStates, alertTypes, patches, List.filterMap_cons,
      Write.probeState, Write.alertType, Write.patch]
  · simp [checkWrites, halert, probeStates, alertTypes, patches, List.filterMap_cons,
      Write.probeState, Write.alertType, Write.patch]

theorem Agrees.checked {m : Checker.Monitor} {row : Monitor} (h : Agrees t log row)
    (hid : row.id = m.id) (hm : Matches t log m) (result : Checker.Result)
    (now checkedAt : Time) (resultId alertId : Int) :
    let evaluation := evaluateFSM m.lastState m.consecutiveFailures result.state t
    Agrees t (log ++ checkWrites m result evaluation now resultId alertId)
      (row.checked evaluation.state checkedAt evaluation.consecutiveFailures) := by
  intro evaluation
  obtain ⟨hprobe, halert, hpatch⟩ := trail_checkWrites m result evaluation now resultId alertId
  have hfold : history t (probeStates row.id
      (log ++ checkWrites m result evaluation now resultId alertId)) =
        (history t (probeStates m.id log)).observe t result.state := by
    rw [probeStates, List.filterMap_append, ← probeStates, ← probeStates, hid, hprobe,
      history_snoc]
  -- the snapshot is the fold so far, so the evaluation of it is the next step of the fold
  have hobserve : (history t (probeStates m.id log)).observe t result.state =
      ⟨evaluation.state, evaluation.consecutiveFailures,
        (history t (probeStates m.id log)).alerts ++
          if evaluation.alertType = "" then [] else [evaluation.alertType]⟩ := by
    rw [Fold.observe, Fold.record, ← hm.state, ← hm.failures]
  constructor
  · show evaluation.state = (history t (probeStates row.id _)).state
    rw [hfold, hobserve]
  · show evaluation.consecutiveFailures = (history t (probeStates row.id _)).failures
    rw [hfold, hobserve]
  · show alertTypes row.id _ = (history t (probeStates row.id _)).alerts
    rw [hfold, hobserve, alertTypes, List.filterMap_append, ← alertTypes, ← alertTypes, hid,
      halert, ← hid, h.alerts]
  · intro patch hlast
    rw [show (row.checked evaluation.state checkedAt evaluation.consecutiveFailures).id = row.id
      from rfl, patches, List.filterMap_append, ← patches, ← patches, hid, hpatch, List.append_nil,
      ← hid] at hlast
    exact { h.patched patch hlast with }

/-- **A check of a snapshot that matches keeps the trail.** -/
theorem Trail.check (h : Trail t base db log) {m : Checker.Monitor} (hm : Matches t log m)
    {ws : List Write} (hws : Checks t m ws) (hreplay : replay db ws = .ok db') :
    Trail t base db' (log ++ ws) := by
  refine h.of_rows hreplay fun row hrow => ?_
  have hother : ∀ row ∈ db.monitors, row.id ≠ m.id → Agrees t (log ++ ws) row :=
    fun row hrow hid => (h.rows row hrow).append (hws.about hid)
  obtain ⟨result, now, resultId, alertId, rfl⟩ := hws
  obtain ⟨-, checkedAt, _, _, -, hdb⟩ := recorded_of_replay hreplay
  rw [hdb] at hrow
  obtain ⟨old, hold, rfl⟩ := List.mem_map.mp hrow
  by_cases hid : old.id = m.id
  · rw [if_pos hid]
    exact (h.rows old hold).checked hid hm result now checkedAt resultId alertId
  · rw [if_neg hid]
    exact hother old hold hid

end Trail

/-! ### A check among others -/

section Beside

variable {P : List Write → Prop} {writes : List Write} {m : Checker.Monitor}
  {result : Checker.Result} {evaluation : FsmEvaluation} {now : Time}

theorem commitCheck_beside (hP : P writes) :
    Beside P (fun _ _ _ => True) commitCheck (.open_ writes) false := by
  refine beside_commit hP (fun e => trivial) fun r => ?_
  cases r <;> trivial

theorem persistAlert_beside (hP : ∀ alertId, P (writes ++
      if evaluation.alertType = "" then []
      else [.insertAlert ⟨alertId, m.id, evaluation.alertType,
        alertMessage m.name evaluation.alertType, now⟩])) :
    Beside P (fun _ _ _ => True) (persistAlert m evaluation now) (.open_ writes) false := by
  unfold persistAlert
  by_cases halert : evaluation.alertType = ""
  · rw [if_neg (by simpa using halert)]
    have hwrites := hP 0
    rw [if_pos halert, List.append_nil] at hwrites
    exact commitCheck_beside hwrites
  · rw [if_pos halert]
    refine beside_sql (fun e => trivial) (fun out hq => (nomatch hq))
      fun moment a db b out more hplan => ?_
    cases hplan
    have hwrites := hP a.alerts
    rw [if_neg halert] at hwrites
    exact commitCheck_beside hwrites

theorem persist_beside
    (hP : ∀ resultId alertId, P (checkWrites m result evaluation now resultId alertId)) :
    Beside P (fun _ _ _ => True) (persist m result evaluation now) (.open_ []) false := by
  unfold persist
  refine beside_sql (fun e => trivial) (fun out hq => (nomatch hq))
    fun moment a db b out more hplan => ?_
  cases hplan
  refine beside_sql (fun e => trivial) (fun out hq => ?_) fun moment c db b out more hplan => ?_
  · cases hq
    trivial
  · simp only [Sql.plan] at hplan
    split at hplan
    · cases hplan
      exact persistAlert_beside fun alertId => hP a.checkResults alertId
    · cases hplan
      trivial

/-- **A check commits all of its changes at once, or nothing**, whatever others commit meanwhile. -/
theorem checkAndPersist_beside (registered : List String) (m : Checker.Monitor)
    (thresholds : List Int) :
    Beside (Checks (threshold thresholds) m) (fun _ _ _ => True)
      (checkAndPersist registered m thresholds) .idle false := by
  unfold checkAndPersist
  split
  · trivial
  · refine beside_probe fun probe => ?_
    cases probe with
    | error err => trivial
    | ok result =>
        refine beside_now fun now => beside_begin (fun e => trivial) ?_
        refine Prog.safe_bind.mpr (Prog.Safe.mono (fun s committed r _ => ?_)
          (persist_beside fun resultId alertId => ⟨result, now, resultId, alertId, rfl⟩))
        exact beside_rollback fun _ => trivial

end Beside

end Sentinel.Worker
