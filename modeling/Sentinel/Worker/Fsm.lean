import Mathlib.Data.List.Basic
import Mathlib.Data.List.Chain
import Mathlib.Data.List.GetD
import Mathlib.Tactic.Common
import Sentinel.Library.FixedWidth

/-!
# Worker — Fsm

The alerting state machine of `internal/worker/loop.go`.  `evaluateFSM` maps the stored
`last_state`, the stored failure counter and one probe state to the new pair and at most one alert.

Two specifications are proved of it, and each needs its own invariant.

* **History** (`evaluateFSM_history`).  Folded over the probes of one monitor under a fixed
  threshold, the stored pair is a function of the *trailing streak* of failed probes, and an
  alert is emitted exactly where the streak reaches the threshold or ends at or above it.  The
  invariant ties the state to the counter.
* **Alternation** (`evaluateFSM_alternates`).  When the threshold changes between steps and the
  counter is overwritten from outside, the alerts still alternate.  The counter says nothing
  here, and the invariant is over the stored state alone.

`last_state` is a free `VARCHAR` column and `state` a Go string, so both are strings here.

The counter is a Go `int`, and its increment wraps at 64 bits: that is `evaluateFSM64`, of which
alternation is proved.  The counters of the database come from a 32-bit `INTEGER` column, where the
increment is the one of `Int`: that is `evaluateFSM`, which everything that reads the column uses
(`evaluateFSM64_eq`).  Both are `evaluateFSMBy` of their increment.
-/

namespace Sentinel.Worker

open FixedWidth

/-- `fsmEvaluation`. -/
structure FsmEvaluation where
  state : Option String
  consecutiveFailures : Int
  /-- `"down"`, `"recovery"`, or `""` for no alert. -/
  alertType : String
deriving DecidableEq, Repr

/-- `evaluateFSM`, by the increment of its counter. -/
def evaluateFSMBy (increment : Int → Int) (oldState : Option String) (prevFailures : Int)
    (probe : String) (failureThreshold : Int) : FsmEvaluation :=
  let failureThreshold := if failureThreshold ≤ 0 then 3 else failureThreshold
  if probe = "healthy" then
    { state := some "healthy"
      consecutiveFailures := 0
      alertType := if oldState = some "unhealthy" then "recovery" else "" }
  else
    let prevFailures := if prevFailures < 0 then 0 else prevFailures
    let next := increment prevFailures
    if oldState = some "unhealthy" then
      { state := some "unhealthy", consecutiveFailures := next, alertType := "" }
    else if next ≥ failureThreshold then
      { state := some "unhealthy", consecutiveFailures := next, alertType := "down" }
    else
      { state := oldState, consecutiveFailures := next, alertType := "" }

/-- `evaluateFSM`, on any `int`. -/
def evaluateFSM64 : Option String → Int → String → Int → FsmEvaluation :=
  evaluateFSMBy fun n => toInt64 (n + 1)

/-- `evaluateFSM`, on the counters of the column. -/
def evaluateFSM : Option String → Int → String → Int → FsmEvaluation :=
  evaluateFSMBy (· + 1)

/-! ### What one step does -/

/-- Only the largest counter of 64 bits tells the two apart. -/
theorem evaluateFSM64_eq {k : Int} (hk : k < 9223372036854775807) (old : Option String)
    (p : String) (t : Int) : evaluateFSM64 old k p t = evaluateFSM old k p t := by
  have hnext : toInt64 ((if k < 0 then 0 else k) + 1) = (if k < 0 then 0 else k) + 1 :=
    toInt64_eq (by rw [IsInt64]; split <;> omega)
  simp only [evaluateFSM64, evaluateFSM, evaluateFSMBy, hnext]

/-- The largest one wraps, and the monitor stays up. -/
example : evaluateFSM64 none 9223372036854775807 "unhealthy" 3 =
    ⟨none, -9223372036854775808, ""⟩ := by
  decide

theorem evaluateFSM_healthy (old : Option String) (k t : Int) :
    evaluateFSM old k "healthy" t =
      ⟨some "healthy", 0, if old = some "unhealthy" then "recovery" else ""⟩ := by
  simp [evaluateFSM, evaluateFSMBy]

/-- A failed probe of a monitor that is down counts, and says nothing. -/
theorem evaluateFSM_still_down {p : String} (hp : p ≠ "healthy") (k t : Int) :
    evaluateFSM (some "unhealthy") k p t = ⟨some "unhealthy", max k 0 + 1, ""⟩ := by
  have hk : (if k < 0 then 0 else k) = max k 0 := by split <;> omega
  simp [evaluateFSM, evaluateFSMBy, hp, hk]

/-- A failed probe of a monitor that is not down: the threshold decides. -/
theorem evaluateFSM_failed {old : Option String} {p : String} (hp : p ≠ "healthy")
    (ho : old ≠ some "unhealthy") (k : Int) {t : Int} (ht : 1 ≤ t) :
    evaluateFSM old k p t =
      if t ≤ max k 0 + 1 then ⟨some "unhealthy", max k 0 + 1, "down"⟩
      else ⟨old, max k 0 + 1, ""⟩ := by
  have hk : (if k < 0 then 0 else k) = max k 0 := by split <;> omega
  have ht' : ¬ t ≤ 0 := by omega
  simp [evaluateFSM, evaluateFSMBy, hp, ho, hk, ht']

/-- The alert of a step, from the stored states around it.  The counter and the threshold do
not appear: they decide the new state, and the states decide the alert. -/
theorem evaluateFSMBy_alert (increment : Int → Int) (old : Option String) (k : Int) (p : String)
    (t : Int) :
    (evaluateFSMBy increment old k p t).alertType =
      if old = some "unhealthy" then
        if (evaluateFSMBy increment old k p t).state = some "unhealthy" then "" else "recovery"
      else
        if (evaluateFSMBy increment old k p t).state = some "unhealthy" then "down" else "" := by
  by_cases hp : p = "healthy"
  · subst hp
    simp [evaluateFSMBy]
  · by_cases ho : old = some "unhealthy"
    · subst ho
      simp [evaluateFSMBy, hp]
    · by_cases hn : increment (if k < 0 then 0 else k) ≥ (if t ≤ 0 then 3 else t)
      · simp [evaluateFSMBy, hp, ho, hn]
      · simp [evaluateFSMBy, hp, ho, hn]

/-! ### Folding over a history -/

/-- A monitor's stored pair, with the alerts emitted so far. -/
structure Fold where
  state : Option String
  failures : Int
  alerts : List String
deriving DecidableEq, Repr

/-- What a check leaves of its evaluation. -/
def Fold.record (f : Fold) (e : FsmEvaluation) : Fold :=
  { state := e.state
    failures := e.consecutiveFailures
    alerts := f.alerts ++ if e.alertType = "" then [] else [e.alertType] }

/-- One committed check. -/
def Fold.observe (t : Int) (f : Fold) (probe : String) : Fold :=
  f.record (evaluateFSM f.state f.failures probe t)

/-- `evaluateFSM` folded from `(nil, 0)` over the probe states `ps`. -/
def history (t : Int) (ps : List String) : Fold :=
  ps.foldl (Fold.observe t) ⟨none, 0, []⟩

@[simp] theorem history_nil (t : Int) : history t [] = ⟨none, 0, []⟩ := rfl

theorem history_snoc (t : Int) (ps : List String) (p : String) :
    history t (ps ++ [p]) = (history t ps).observe t p := by
  simp [history]

/-- The alert emitted at position `i`, `""` for none. -/
def alertAt (t : Int) (ps : List String) (i : Nat) : String :=
  let f := history t (ps.take i)
  (evaluateFSM f.state f.failures (ps.getD i "") t).alertType

/-- The alerts of the fold are the alerts of its positions, in order. -/
theorem history_alerts (t : Int) (ps : List String) :
    (history t ps).alerts =
      ((List.range ps.length).map (alertAt t ps)).filter (fun a => a ≠ "") := by
  induction ps using List.reverseRecOn with
  | nil => rfl
  | append_singleton ps p ih =>
      have hlast : alertAt t (ps ++ [p]) ps.length =
          (evaluateFSM (history t ps).state (history t ps).failures p t).alertType := by
        simp [alertAt]
      have hinit : (List.range ps.length).map (alertAt t (ps ++ [p])) =
          (List.range ps.length).map (alertAt t ps) := by
        refine List.map_congr_left fun i hi => ?_
        have hi' : i < ps.length := List.mem_range.mp hi
        rw [alertAt, alertAt, List.take_append_of_le_length hi'.le,
          List.getD_append _ _ _ _ hi']
      rw [history_snoc, Fold.observe, Fold.record, List.length_append, List.length_singleton,
        List.range_succ, List.map_append, List.filter_append, hinit, ← ih]
      by_cases ha : (evaluateFSM (history t ps).state (history t ps).failures p t).alertType = ""
      · simp [hlast, ha]
      · simp [hlast, ha]

/-! ### The trailing streak -/

/-- The number of consecutive non-healthy probes that end the list. -/
def streak (ps : List String) : Nat :=
  (ps.reverse.takeWhile (fun p => p ≠ "healthy")).length

@[simp] theorem streak_nil : streak [] = 0 := rfl

@[simp] theorem streak_healthy (ps : List String) : streak (ps ++ ["healthy"]) = 0 := by
  simp [streak]

theorem streak_failed (ps : List String) {p : String} (hp : p ≠ "healthy") :
    streak (ps ++ [p]) = streak ps + 1 := by
  simp [streak, hp]

/-- The state the history calls for: down from the threshold on, otherwise healthy once some
probe was. -/
def specState (t : Int) (ps : List String) : Option String :=
  if t ≤ streak ps then some "unhealthy"
  else if "healthy" ∈ ps then some "healthy" else none

theorem specState_eq_unhealthy {t : Int} {ps : List String} :
    specState t ps = some "unhealthy" ↔ t ≤ streak ps := by
  unfold specState
  by_cases hk : t ≤ streak ps
  · simp [hk]
  · by_cases hm : "healthy" ∈ ps <;> simp [hk, hm]

/-- **The invariant of the fold.**  The counter is the streak, and the state is the one the
history calls for. -/
theorem history_eq_spec {t : Int} (ht : 1 ≤ t) (ps : List String) :
    (history t ps).state = specState t ps ∧ (history t ps).failures = streak ps := by
  induction ps using List.reverseRecOn with
  | nil =>
      have h0 : ¬ t ≤ 0 := by omega
      simp [specState, h0]
  | append_singleton ps p ih =>
      obtain ⟨hs, hf⟩ := ih
      rw [history_snoc, Fold.observe, Fold.record, hs, hf]
      by_cases hp : p = "healthy"
      · subst hp
        have h0 : ¬ t ≤ 0 := by omega
        simp [evaluateFSM_healthy, specState, h0]
      · have hk : max (streak ps : Int) 0 = streak ps := by omega
        by_cases hdown : t ≤ streak ps
        · -- already down: the streak only grows
          have hgrow : t ≤ (streak ps : Int) + 1 := by omega
          simp [specState, hdown, evaluateFSM_still_down hp, streak_failed ps hp, hgrow]
        · have ho : specState t ps ≠ some "unhealthy" := mt specState_eq_unhealthy.mp hdown
          rw [evaluateFSM_failed hp ho _ ht, hk]
          by_cases hnext : t ≤ (streak ps : Int) + 1
          · simp [hnext, specState, streak_failed ps hp]
          · simp [hnext, specState, streak_failed ps hp, hdown, Ne.symm hp]

/-- The alert at a position, from the streaks on its two sides. -/
theorem alertAt_eq_spec {t : Int} (ht : 1 ≤ t) (ps : List String) {i : Nat} (hi : i < ps.length) :
    alertAt t ps i =
      if t ≤ streak (ps.take i) then (if ps[i] = "healthy" then "recovery" else "")
      else if t = streak (ps.take (i + 1)) then "down" else "" := by
  obtain ⟨hs, hf⟩ := history_eq_spec ht (ps.take i)
  have hnext : ps.take (i + 1) = ps.take i ++ [ps[i]] := List.take_succ_eq_append_getElem hi
  have hp : ps.getD i "" = ps[i] := List.getD_eq_getElem _ _ hi
  rw [alertAt, hs, hf, hp, hnext]
  by_cases hh : ps[i] = "healthy"
  · have h0 : ¬ t = 0 := by omega
    simp [hh, evaluateFSM_healthy, specState_eq_unhealthy, h0]
  · have hk : max (streak (ps.take i) : Int) 0 = streak (ps.take i) := by omega
    by_cases hdown : t ≤ streak (ps.take i)
    · rw [specState_eq_unhealthy.mpr hdown, evaluateFSM_still_down hh]
      simp [hdown, hh]
    · rw [evaluateFSM_failed hh (mt specState_eq_unhealthy.mp hdown) _ ht, hk,
        streak_failed _ hh]
      by_cases hnext : t ≤ (streak (ps.take i) : Int) + 1
      · have heq : t = ((streak (ps.take i) + 1 : Nat) : Int) := by push_cast; omega
        simp only [if_pos hnext, if_neg hdown, if_pos heq]
      · have hne : ¬ t = ((streak (ps.take i) + 1 : Nat) : Int) := by push_cast; omega
        simp only [if_neg hnext, if_neg hdown, if_neg hne]

/-- **The alerting FSM equals its history specification.**  Folded from `(nil, 0)` over any
probes under any threshold `t ≥ 1`, with `k` the trailing streak of failed probes: the counter
is `k`; the state is `unhealthy` from `k = t` on, else `healthy` once some probe was, else
unset; `down` is emitted exactly where the streak equals `t`, `recovery` exactly at a healthy
probe after a streak of at least `t`; and the alerts of the fold are those, in order. -/
theorem evaluateFSM_history {t : Int} (ht : 1 ≤ t) (ps : List String) :
    (history t ps).failures = streak ps ∧
    ((history t ps).state = some "unhealthy" ↔ t ≤ streak ps) ∧
    ((history t ps).state = some "healthy" ↔ streak ps < t ∧ "healthy" ∈ ps) ∧
    ((history t ps).state = none ↔ streak ps < t ∧ "healthy" ∉ ps) ∧
    (∀ i, ∀ hi : i < ps.length,
      (alertAt t ps i = "down" ↔ (streak (ps.take (i + 1)) : Int) = t) ∧
      (alertAt t ps i = "recovery" ↔ ps[i] = "healthy" ∧ t ≤ streak (ps.take i)) ∧
      (alertAt t ps i = "" ∨ alertAt t ps i = "down" ∨ alertAt t ps i = "recovery")) ∧
    (history t ps).alerts =
      ((List.range ps.length).map (alertAt t ps)).filter (fun a => a ≠ "") := by
  obtain ⟨hs, hf⟩ := history_eq_spec ht ps
  refine ⟨hf, ?_, ?_, ?_, fun i hi => ?_, history_alerts t ps⟩
  · rw [hs, specState_eq_unhealthy]
  · rw [hs, specState]
    by_cases hk : t ≤ streak ps
    · simp [hk]
    · have hk' : (streak ps : Int) < t := by omega
      by_cases hm : "healthy" ∈ ps
      · simp [hk, hk', hm]
      · simp [hk, hm]
  · rw [hs, specState]
    by_cases hk : t ≤ streak ps
    · simp [hk]
    · have hk' : (streak ps : Int) < t := by omega
      by_cases hm : "healthy" ∈ ps
      · simp [hk, hm]
      · simp [hk, hk', hm]
  · rw [alertAt_eq_spec ht ps hi]
    have hnext : ps.take (i + 1) = ps.take i ++ [ps[i]] := List.take_succ_eq_append_getElem hi
    by_cases hdown : t ≤ streak (ps.take i)
    · -- the streak cannot reach `t` a second time: it is past it, or it starts over
      have hne : ¬ (streak (ps.take (i + 1)) : Int) = t := by
        rw [hnext]
        by_cases hh : ps[i] = "healthy"
        · rw [hh, streak_healthy]; push_cast; omega
        · rw [streak_failed _ hh]; push_cast; omega
      by_cases hh : ps[i] = "healthy"
      · simp [hdown, hh, hne]
      · simp [hdown, hh, hne]
    · -- below the threshold there is nothing to recover from
      by_cases heq : t = streak (ps.take (i + 1))
      · simp [hdown, ← heq]
      · simp [hdown, heq, Ne.symm heq]

theorem evaluateFSM_history_outage :
    (1 : Int) ≤ 2 ∧ (history 2 ["unhealthy", "unhealthy", "healthy"]).failures =
      streak ["unhealthy", "unhealthy", "healthy"] :=
  ⟨by decide, (evaluateFSM_history (by decide) _).1⟩

/-! ### Alternation -/

/-- One step of a disturbed run: what the counter is overwritten with before it, if anything,
the probe, and the threshold the worker then runs with. -/
structure Disturbed where
  overwrite : Option Int
  probe : String
  threshold : Int
deriving DecidableEq, Repr

/-- A step of a disturbed run.  `last_state` is carried over from the step before. -/
def Fold.disturb (f : Fold) (d : Disturbed) : Fold :=
  f.record (evaluateFSM64 f.state (d.overwrite.getD f.failures) d.probe d.threshold)

/-- A disturbed run from a stored state and a counter. -/
def disturbedRun (start : Option String) (counter : Int) (ds : List Disturbed) : Fold :=
  ds.foldl Fold.disturb ⟨start, counter, []⟩

/-- The invariant of a disturbed run: over the stored state and the alerts, not the counter. -/
structure Alternating (start : Option String) (f : Fold) : Prop where
  kinds : ∀ a ∈ f.alerts, a = "down" ∨ a = "recovery"
  distinct : f.alerts.IsChain (· ≠ ·)
  first : ∀ a ∈ f.alerts.head?, (a = "recovery" ↔ start = some "unhealthy")
  last : f.state = some "unhealthy" ↔
    f.alerts.getLast? = some "down" ∨ (f.alerts = [] ∧ start = some "unhealthy")

theorem alternating_start (start : Option String) (k : Int) :
    Alternating start ⟨start, k, []⟩ := by
  constructor <;> simp

/-- An alert emitted next after an alternating run keeps it alternating: it differs from the
last alert, and is the first one only if it agrees with the start. -/
theorem Alternating.emit {start : Option String} {f : Fold} (h : Alternating start f)
    {a : String} (ha : a = "down" ∨ a = "recovery")
    (hf : a = "recovery" ↔ f.state = some "unhealthy") {state : Option String}
    (hs : state = some "unhealthy" ↔ a = "down") (k : Int) :
    Alternating start ⟨state, k, f.alerts ++ [a]⟩ := by
  have hlast := h.last
  refine ⟨fun b hb => ?_, ?_, fun b hb => ?_, ?_⟩
  · rcases List.mem_append.mp hb with hb | hb
    · exact h.kinds b hb
    · exact List.mem_singleton.mp hb ▸ ha
  · refine List.isChain_append.mpr ⟨h.distinct, by simp, fun b hb c hc => ?_⟩
    obtain rfl : a = c := by simpa using hc
    have hb' : f.alerts.getLast? = some b := hb
    rintro rfl
    rcases ha with rfl | rfl
    · -- a second `down`: the monitor is down, so the alert due is `recovery`
      simpa using hf.mpr (hlast.mpr (Or.inl hb'))
    · rcases hlast.mp (hf.mp rfl) with hd | ⟨hnil, -⟩
      · rw [hb'] at hd; simp at hd
      · rw [hnil] at hb'; simp at hb'
  · cases hal : f.alerts with
    | nil =>
        obtain rfl : a = b := by simpa [hal] using hb
        have hstart : f.state = some "unhealthy" ↔ start = some "unhealthy" := by
          rw [hlast, hal]; simp
        exact hf.trans hstart
    | cons c cs =>
        refine h.first b ?_
        rw [hal] at hb ⊢
        simpa using hb
  · show state = some "unhealthy" ↔ _
    rw [hs]
    simp

theorem Alternating.silent {start : Option String} {f : Fold} (h : Alternating start f)
    {state : Option String} (hs : state = some "unhealthy" ↔ f.state = some "unhealthy")
    (k : Int) : Alternating start ⟨state, k, f.alerts⟩ :=
  ⟨h.kinds, h.distinct, h.first, hs.trans h.last⟩

/-- The invariant is kept by every step, whatever its threshold, its counter and its increment. -/
theorem Alternating.record {start : Option String} {f : Fold} (h : Alternating start f)
    (increment : Int → Int) (k : Int) (p : String) (t : Int) :
    Alternating start (f.record (evaluateFSMBy increment f.state k p t)) := by
  have halert := evaluateFSMBy_alert increment f.state k p t
  unfold Fold.record
  set e := evaluateFSMBy increment f.state k p t
  by_cases ho : f.state = some "unhealthy"
  · by_cases hn : e.state = some "unhealthy"
    · simp only [ho, hn, if_true] at halert
      simpa [halert] using h.silent (by simp [ho, hn]) e.consecutiveFailures
    · simp only [ho, hn, if_true, if_false] at halert
      simpa [halert] using
        h.emit (Or.inr rfl) (by simp [ho]) (by simp [hn]) e.consecutiveFailures
  · by_cases hn : e.state = some "unhealthy"
    · simp only [ho, hn, if_true, if_false] at halert
      simpa [halert] using
        h.emit (Or.inl rfl) (by simp [ho]) (by simp [hn]) e.consecutiveFailures
    · simp only [ho, hn, if_false] at halert
      simpa [halert] using h.silent (by simp [ho, hn]) e.consecutiveFailures

theorem disturbedRun_alternating (start : Option String) (k : Int) (ds : List Disturbed) :
    Alternating start (disturbedRun start k ds) := by
  induction ds using List.reverseRecOn with
  | nil => exact alternating_start start k
  | append_singleton ds d ih =>
      have hstep : disturbedRun start k (ds ++ [d]) = (disturbedRun start k ds).disturb d := by
        simp [disturbedRun]
      exact hstep ▸ ih.record _ _ _ _

/-- **Alerts strictly alternate.**  From any stored state and counter, over any steps with any
probes and thresholds, with the counter overwritten at will between them and its increment wrapping
at 64 bits: every alert is
`down` or `recovery`, no two in a row are equal, the first is `recovery` iff the run started
down, and the run ends down iff the last alert is `down`, or there was none and it started
down. -/
theorem evaluateFSM_alternates (start : Option String) (counter : Int) (ds : List Disturbed) :
    (∀ a ∈ (disturbedRun start counter ds).alerts, a = "down" ∨ a = "recovery") ∧
    (disturbedRun start counter ds).alerts.IsChain (· ≠ ·) ∧
    (∀ a ∈ (disturbedRun start counter ds).alerts.head?,
      (a = "recovery" ↔ start = some "unhealthy")) ∧
    ((disturbedRun start counter ds).state = some "unhealthy" ↔
      (disturbedRun start counter ds).alerts.getLast? = some "down" ∨
        ((disturbedRun start counter ds).alerts = [] ∧ start = some "unhealthy")) := by
  have h := disturbedRun_alternating start counter ds
  exact ⟨h.kinds, h.distinct, h.first, h.last⟩

end Sentinel.Worker
