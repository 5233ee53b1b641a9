import Mathlib.Data.List.Chain
import Mathlib.Logic.Function.Basic
import Sentinel.Health.Heartbeat
import Sentinel.Worker.Config
import Sentinel.Worker.PollCycle

/-!
# System — Budget

The poll loop against a clock, while everything it waits for ends within its deadline: how far
apart its heartbeats are.

* The function's own statements take no time. Time passes while it waits for a tick, for its fetch,
  or for a work item, and never beyond a deadline (`TimedLoop.step`).
* `TimedLoop.Inv`: at each statement, how long ago the last heartbeat can be, and until when the
  items that run have to end.
* `heartbeats_within_budget`: no heartbeat is later than `gap` after the one before it, which is
  less than the age at which `Load` lets a heartbeat be stale.
-/

namespace Sentinel.System

open Transition FixedWidth Health Worker

/-- What an item is doing, and since when. -/
inductive Stage where
  | probe (since : Int)
  /-- From `BEGIN` to `COMMIT`. -/
  | persist (since : Int)
  | rollback (since : Int)

/-- When it has to be done with it. -/
def Stage.deadline (dbTimeout : Int) : Stage → Int
  | probe since => since + 15 * second
  | persist since | rollback since => since + dbTimeout

/-- When the item has ended at the latest. -/
def Stage.latestEnd (dbTimeout : Int) : Stage → Int
  | probe since => since + 15 * second + 2 * dbTimeout
  | persist since => since + 2 * dbTimeout
  | rollback since => since + dbTimeout

/-- The poll loop. A cycle that has ended waits for a tick. -/
structure TimedLoop (T E : Type) where
  clock : Int
  cycle : Cycle T E
  /-- When the wait for the tick, or for the fetch, began. -/
  since : Int
  /-- The stages of the items that run, by index. -/
  stage : Nat → Stage
  /-- When heartbeats were written. -/
  beats : List Int

/-- The loop before its first tick. -/
def TimedLoop.start (T E : Type) (now : Int) : TimedLoop T E where
  clock := now
  cycle := { Cycle.start T E with pc := .returned none }
  since := now
  stage _ := .probe now
  beats := []

inductive TimedAction (T E : Type) where
  | wait (now : Int)
  | tick
  | fetched (items : List T)
  /-- A statement of the function. -/
  | tau
  | receive
  /-- A check ends with a `monitorCheckError`, with no result or before it is made. -/
  | checkFailed (item : Nat) (err : E)
  | probed (item : Nat)
  | persisted (item : Nat)
  /-- The end of an item that was persisted, or whose monitor is gone. -/
  | rolledBack (item : Nat)

section Loop

variable {T E : Type} (isMonitorCheckError : E → Bool) (concurrency dbTimeout : Int)

/-- What the loop waits for is not overdue at an instant. -/
def TimedLoop.InTime (s : TimedLoop T E) (now : Int) : Bool :=
  (match s.cycle.pc with
    | .returned _ => now ≤ s.since + 2 * second
    | .fetch => now ≤ s.since + dbTimeout
    | _ => true) &&
    s.cycle.running.all fun i => now ≤ (s.stage i).deadline dbTimeout

/-- The function has no statement to execute. -/
def TimedLoop.Waits (s : TimedLoop T E) : Bool :=
  (s.cycle.tau concurrency).isNone &&
    (s.cycle.step isMonitorCheckError concurrency .receive).isNone

/-- After a statement: a started item begins its probe, and `heartbeat` writes one. -/
def TimedLoop.after (s : TimedLoop T E) (cycle : Cycle T E) : TimedLoop T E :=
  { s with
    cycle := cycle
    since := s.clock
    stage := if cycle.next = s.cycle.next then s.stage
      else Function.update s.stage s.cycle.next (.probe s.clock)
    beats := if cycle.heartbeats = s.cycle.heartbeats then s.beats else s.beats ++ [s.clock] }

/-- The end of an item. -/
def TimedLoop.ends (s : TimedLoop T E) (item : Nat) (err : Option E) : Option (TimedLoop T E) :=
  (s.cycle.step isMonitorCheckError concurrency (.workReturns item err)).map fun cycle =>
    { s with cycle := cycle }

def TimedLoop.step (s : TimedLoop T E) : TimedAction T E → Option (TimedLoop T E)
  | .wait now =>
      if s.clock ≤ now && s.Waits isMonitorCheckError concurrency && s.InTime dbTimeout now then
        some { s with clock := now }
      else none
  | .tick =>
      match s.cycle.pc with
      | .returned _ => some { s with cycle := s.cycle.again, since := s.clock }
      | _ => none
  | .fetched items =>
      (s.cycle.step isMonitorCheckError concurrency (.fetch (.ok items))).map s.after
  | .tau => (s.cycle.step isMonitorCheckError concurrency .tau).map s.after
  | .receive => (s.cycle.step isMonitorCheckError concurrency .receive).map s.after
  | .checkFailed item err =>
      match s.stage item with
      | .probe _ =>
          if isMonitorCheckError err then
            s.ends isMonitorCheckError concurrency item (some err)
          else none
      | _ => none
  | .probed item =>
      match s.stage item with
      | .probe _ =>
          if item ∈ s.cycle.running then
            some { s with stage := Function.update s.stage item (.persist s.clock) }
          else none
      | _ => none
  | .persisted item =>
      match s.stage item with
      | .persist _ =>
          if item ∈ s.cycle.running then
            some { s with stage := Function.update s.stage item (.rollback s.clock) }
          else none
      | _ => none
  | .rolledBack item =>
      match s.stage item with
      | .rollback _ => s.ends isMonitorCheckError concurrency item none
      | _ => none

end Loop

/-! ### The invariant -/

/-- How far apart heartbeats are at most. -/
def gap (dbTimeout : Int) : Int := 3 * dbTimeout + 17 * second

section Inv

variable {T E : Type} {isMonitorCheckError : E → Bool} {concurrency dbTimeout : Int}
  {s s' : TimedLoop T E}

/-- No cycle is in progress. -/
def Cycle.Idle (c : Cycle T E) : Prop :=
  (∃ err, c.pc = .returned err) ∧ c.running = [] ∧ c.results = []

/-- At each statement, where the clock is, `last` being when the last heartbeat was written. -/
def TimedLoop.Here (dbTimeout last : Int) (s : TimedLoop T E) : Prop :=
  match s.cycle.pc with
  | .returned _ => s.since ≤ last ∧ s.clock ≤ s.since + 2 * second
  | .fetch => s.since ≤ last + 2 * second ∧ s.clock ≤ s.since + dbTimeout
  | .fetched | .dispatch | .fill => s.clock ≤ last + 2 * second + dbTimeout
  | .loop => s.cycle.active = 0 → s.clock = last
  | .select => True
  | .received | .refill | .join => s.clock = last
  | .drain => False

/-- The loop keeps its deadlines. -/
structure TimedLoop.Inv (isMonitorCheckError : E → Bool) (concurrency dbTimeout : Int)
    (s : TimedLoop T E) : Prop where
  cycle : Cycle.Idle s.cycle ∨ s.cycle.Inv isMonitorCheckError concurrency
  notDone : s.cycle.ctxDone = false
  progressed : ∀ err ∈ s.cycle.results, Cycle.progressed isMonitorCheckError err = true
  /-- No result has been received before the first items are started. -/
  filling : s.cycle.pc = .fill → s.cycle.active = s.cycle.next
  inTime : ∀ i ∈ s.cycle.running, s.clock ≤ (s.stage i).deadline dbTimeout
  started : ∀ i ∈ s.cycle.running, (s.stage i).latestEnd dbTimeout ≤
    s.clock + 15 * second + 2 * dbTimeout
  chain : s.beats.IsChain fun a b => b - a ≤ gap dbTimeout
  /-- Since a heartbeat was written. -/
  beaten : ∀ last ∈ s.beats.getLast?, last ≤ s.clock ∧ s.clock ≤ last + gap dbTimeout ∧
    (∀ i ∈ s.cycle.running, (s.stage i).latestEnd dbTimeout ≤ last + gap dbTimeout) ∧
    s.Here dbTimeout last

theorem Stage.deadline_le (hdb : 0 ≤ dbTimeout) (st : Stage) :
    st.deadline dbTimeout ≤ st.latestEnd dbTimeout := by
  cases st <;> simp only [Stage.deadline, Stage.latestEnd] <;> omega

theorem TimedLoop.inv_start (isMonitorCheckError : E → Bool) (concurrency dbTimeout now : Int) :
    (TimedLoop.start T E now).Inv isMonitorCheckError concurrency dbTimeout where
  cycle := .inl ⟨⟨none, rfl⟩, rfl, rfl⟩
  notDone := rfl
  progressed _ herr := nomatch herr
  filling h := nomatch h
  inTime _ hi := nomatch hi
  started _ hi := nomatch hi
  chain := .nil
  beaten _ hlast := nomatch hlast

/-- A cycle that makes a step is in progress. -/
theorem TimedLoop.Inv.inProgress (h : s.Inv isMonitorCheckError concurrency dbTimeout)
    {a : Worker.Action T E} {cycle : Cycle T E}
    (hs : s.cycle.step isMonitorCheckError concurrency a = some cycle) (ha : a ≠ .cancel) :
    s.cycle.Inv isMonitorCheckError concurrency := by
  refine h.cycle.resolve_left ?_
  rintro ⟨⟨err, hpc⟩, hrunning, -⟩
  cases Cycle.step_cases hs with
  | workReturns hi =>
      rw [hrunning] at hi
      cases hi
  | cancel => exact ha rfl
  | fetchError h | fetchOk h | fetchedDone h | fetchedGo h | empty h | nonempty h | fill h
  | filled h | loopDone h | loopSelect h | loopEnd h | receivedDone h | receivedMore h
  | receivedLast h | refill h | drained h | joinDone h | joinNil h | joinErrors h | selectDone h
  | receive h | drainReceive h =>
      rw [hpc] at h
      cases h

/-- Time passes while the function waits, up to the deadlines. -/
theorem TimedLoop.Inv.wait (hdb : 0 ≤ dbTimeout)
    (h : s.Inv isMonitorCheckError concurrency dbTimeout) {now : Int} (hle : s.clock ≤ now)
    (hwaits : s.Waits isMonitorCheckError concurrency = true)
    (hinTime : s.InTime dbTimeout now = true) :
    TimedLoop.Inv isMonitorCheckError concurrency dbTimeout { s with clock := now } := by
  obtain ⟨htau, hreceive⟩ := Bool.and_eq_true_iff.mp hwaits
  obtain ⟨hpc, hrunning⟩ := Bool.and_eq_true_iff.mp hinTime
  have hrunning : ∀ i ∈ s.cycle.running, now ≤ (s.stage i).deadline dbTimeout := by
    intro i hi
    exact of_decide_eq_true (List.all_eq_true.mp hrunning i hi)
  refine { h with
    inTime := hrunning
    started := fun i hi => ?_
    beaten := fun last hlast => ?_ }
  · exact Int.le_trans (h.started i hi) (by
      show s.clock + _ + _ ≤ now + _ + _
      omega)
  · obtain ⟨hpast, hgap, hends, hhere⟩ := h.beaten last hlast
    suffices hnow : now ≤ last + gap dbTimeout ∧
        TimedLoop.Here dbTimeout last { s with clock := now } from
      ⟨Int.le_trans hpast hle, hnow.1, hends, hnow.2⟩
    unfold TimedLoop.Here at hhere ⊢
    unfold gap second at *
    cases hat : s.cycle.pc with
    | returned err =>
        simp only [hat, decide_eq_true_eq] at hpc hhere ⊢
        omega
    | fetch =>
        simp only [hat, decide_eq_true_eq] at hpc hhere ⊢
        omega
    | select =>
        -- some item runs, and it is not overdue
        have hcycle := h.cycle.resolve_left fun ⟨⟨err, hidle⟩, _⟩ => by
          rw [hat] at hidle
          cases hidle
        have hactive := hcycle.here
        have hcount := hcycle.count
        simp only [Cycle.Here, hat] at hactive
        have hresults : s.cycle.results = [] := by
          cases hresults : s.cycle.results with
          | nil => rfl
          | cons err rest => simp [Cycle.step, hat, hresults] at hreceive
        rw [hresults, List.length_nil, Nat.add_zero] at hcount
        obtain ⟨i, hi⟩ := List.exists_mem_of_length_pos (hcount ▸ hactive.2.1)
        have hnow := Int.le_trans (hrunning i hi) (Stage.deadline_le hdb _)
        exact ⟨Int.le_trans hnow (hends i hi), trivial⟩
    | drain => simp only [hat] at hhere
    | fetched | dispatch | fill | loop | received | refill | join =>
        -- the function has a statement to execute
        rw [Option.isNone_iff_eq_none, Cycle.tau, hat] at htau
        simp only at htau
        repeat' split at htau
        all_goals cases htau

theorem TimedLoop.Inv.tick (hdb : 0 ≤ dbTimeout)
    (h : s.Inv isMonitorCheckError concurrency dbTimeout) {err : Option (CycleError E)}
    (hpc : s.cycle.pc = .returned err) :
    TimedLoop.Inv isMonitorCheckError concurrency dbTimeout
      { s with cycle := s.cycle.again, since := s.clock } where
  cycle := .inr (Cycle.inv_again _ _ _)
  notDone := h.notDone
  progressed _ herr := nomatch herr
  filling hfill := nomatch hfill
  inTime _ hi := nomatch hi
  started _ hi := nomatch hi
  chain := h.chain
  beaten last hlast := by
    obtain ⟨hpast, hgap, -, hhere⟩ := h.beaten last hlast
    refine ⟨hpast, hgap, fun _ hi => (nomatch hi), ?_⟩
    simp only [TimedLoop.Here, hpc] at hhere
    show s.clock ≤ last + 2 * second ∧ s.clock ≤ s.clock + dbTimeout
    omega

/-- A statement that neither starts an item nor calls `heartbeat`. -/
theorem TimedLoop.Inv.moves (h : s.Inv isMonitorCheckError concurrency dbTimeout)
    {cycle : Cycle T E} (hcycle : cycle.Inv isMonitorCheckError concurrency)
    (hdone : cycle.ctxDone = s.cycle.ctxDone) (hnext : cycle.next = s.cycle.next)
    (hbeats : cycle.heartbeats = s.cycle.heartbeats) (hrunning : cycle.running = s.cycle.running)
    (hresults : cycle.results = s.cycle.results)
    (hfilling : cycle.pc = .fill → cycle.active = cycle.next)
    (hhere : ∀ last, last ≤ s.clock → s.Here dbTimeout last →
      TimedLoop.Here dbTimeout last { s with cycle := cycle, since := s.clock }) :
    (s.after cycle).Inv isMonitorCheckError concurrency dbTimeout := by
  unfold TimedLoop.after
  rw [if_pos hnext, if_pos hbeats]
  exact {
    cycle := .inr hcycle
    notDone := hdone.trans h.notDone
    progressed := hresults ▸ h.progressed
    filling := hfilling
    inTime := hrunning ▸ h.inTime
    started := hrunning ▸ h.started
    chain := h.chain
    beaten := fun last hlast => by
      obtain ⟨hpast, hgap, hends, hat⟩ := h.beaten last hlast
      exact ⟨hpast, hgap, hrunning ▸ hends, hhere last hpast hat⟩ }

/-- A statement that starts an item. -/
theorem TimedLoop.Inv.starts (h : s.Inv isMonitorCheckError concurrency dbTimeout)
    {cycle : Cycle T E} (hcycle : cycle.Inv isMonitorCheckError concurrency)
    (hdone : cycle.ctxDone = s.cycle.ctxDone) (hnext : cycle.next = s.cycle.next + 1)
    (hbeats : cycle.heartbeats = s.cycle.heartbeats)
    (hrunning : cycle.running = s.cycle.next :: s.cycle.running)
    (hresults : cycle.results = s.cycle.results)
    (hfilling : cycle.pc = .fill → cycle.active = cycle.next)
    (hhere : ∀ last, last ≤ s.clock → s.Here dbTimeout last →
      s.clock ≤ last + 2 * second + dbTimeout ∧
        TimedLoop.Here dbTimeout last { s with cycle := cycle, since := s.clock }) :
    (s.after cycle).Inv isMonitorCheckError concurrency dbTimeout := by
  unfold TimedLoop.after
  rw [if_neg (by omega), if_pos hbeats]
  -- the new item begins its probe now, and the others are where they were
  have hall : ∀ {P : Stage → Prop}, P (.probe s.clock) → (∀ i ∈ s.cycle.running, P (s.stage i)) →
      ∀ i ∈ cycle.running, P (Function.update s.stage s.cycle.next (.probe s.clock) i) := by
    intro P hnew hold i hi
    rw [Function.update_apply]
    split
    · exact hnew
    · rename_i hne
      rw [hrunning] at hi
      exact hold i ((List.mem_cons.mp hi).resolve_left hne)
  refine {
    cycle := .inr hcycle
    notDone := hdone.trans h.notDone
    progressed := hresults ▸ h.progressed
    filling := hfilling
    inTime := hall (P := fun st => s.clock ≤ st.deadline dbTimeout) ?_ h.inTime
    started := hall (P := fun st => st.latestEnd dbTimeout ≤ s.clock + 15 * second + 2 * dbTimeout)
      ?_ h.started
    chain := h.chain
    beaten := fun last hlast => ?_ }
  · simp only [Stage.deadline, second]
    omega
  · simp only [Stage.latestEnd, second]
    omega
  · obtain ⟨hpast, hgap, hends, hat⟩ := h.beaten last hlast
    obtain ⟨hclock, hat'⟩ := hhere last hpast hat
    refine ⟨hpast, hgap,
      hall (P := fun st => st.latestEnd dbTimeout ≤ last + gap dbTimeout) ?_ hends, hat'⟩
    simp only [Stage.latestEnd, gap, second] at hclock ⊢
    omega

/-- A statement that calls `heartbeat`. -/
theorem TimedLoop.Inv.beats (hdb : 0 ≤ dbTimeout)
    (h : s.Inv isMonitorCheckError concurrency dbTimeout)
    {cycle : Cycle T E} (hcycle : cycle.Inv isMonitorCheckError concurrency)
    (hdone : cycle.ctxDone = s.cycle.ctxDone) (hnext : cycle.next = s.cycle.next)
    (hbeats : cycle.heartbeats = s.cycle.heartbeats + 1)
    (hrunning : cycle.running = s.cycle.running)
    (hresults : ∀ err ∈ cycle.results, err ∈ s.cycle.results)
    (hpc : cycle.pc = .received ∨ cycle.pc = .returned none) :
    (s.after cycle).Inv isMonitorCheckError concurrency dbTimeout := by
  unfold TimedLoop.after
  rw [if_pos hnext, if_neg (by omega)]
  refine {
    cycle := .inr hcycle
    notDone := hdone.trans h.notDone
    progressed := fun err herr => h.progressed err (hresults err herr)
    filling := fun hfill => by rcases hpc with hpc | hpc <;> rw [hpc] at hfill <;> cases hfill
    inTime := hrunning ▸ h.inTime
    started := hrunning ▸ h.started
    chain := ?_
    beaten := fun last hlast => ?_ }
  · refine List.isChain_append.mpr ⟨h.chain, .singleton _, fun last hlast now hnow => ?_⟩
    obtain rfl := Option.some.inj hnow
    obtain ⟨-, hgap, -⟩ := h.beaten last hlast
    omega
  · rw [List.getLast?_concat] at hlast
    obtain rfl := Option.some.inj hlast
    refine ⟨Int.le_refl _, by simp only [gap, second]; omega, fun i hi => ?_, ?_⟩
    · refine Int.le_trans (h.started i (hrunning ▸ hi)) ?_
      simp only [gap, second]
      omega
    · rcases hpc with hpc | hpc
      · simp only [TimedLoop.Here, hpc]
      · simp only [TimedLoop.Here, hpc, second]
        omega

/-- The end of an item. -/
theorem TimedLoop.Inv.ends (h : s.Inv isMonitorCheckError concurrency dbTimeout) {item : Nat}
    {err : Option E} (herr : Cycle.progressed isMonitorCheckError err = true)
    (hs : s.ends isMonitorCheckError concurrency item err = some s') :
    s'.Inv isMonitorCheckError concurrency dbTimeout := by
  obtain ⟨cycle, hstep, rfl⟩ := Option.map_eq_some_iff.mp hs
  have hcycle := (h.inProgress hstep fun ha => (nomatch ha)).step hstep
  cases Cycle.step_cases hstep with
  | workReturns hi =>
      have hrunning : ∀ i ∈ s.cycle.running.erase item, i ∈ s.cycle.running :=
        fun i hi => List.mem_of_mem_erase hi
      exact {
        cycle := .inr hcycle
        notDone := h.notDone
        progressed := fun e he => by
          rcases List.mem_append.mp he with he | he
          · exact h.progressed e he
          · rwa [List.mem_singleton.mp he]
        filling := h.filling
        inTime := fun i hi => h.inTime i (hrunning i hi)
        started := fun i hi => h.started i (hrunning i hi)
        chain := h.chain
        beaten := fun last hlast => by
          obtain ⟨hpast, hgap, hends, hhere⟩ := h.beaten last hlast
          exact ⟨hpast, hgap, fun i hi => hends i (hrunning i hi), hhere⟩ }

/-- An item that runs goes on to a stage that leaves it no more time. -/
theorem TimedLoop.Inv.stages (h : s.Inv isMonitorCheckError concurrency dbTimeout) {item : Nat}
    (hitem : item ∈ s.cycle.running) {st : Stage} (hdeadline : s.clock ≤ st.deadline dbTimeout)
    (hend : st.latestEnd dbTimeout ≤ (s.stage item).latestEnd dbTimeout) :
    TimedLoop.Inv isMonitorCheckError concurrency dbTimeout
      { s with stage := Function.update s.stage item st } := by
  have hall : ∀ {P : Stage → Prop}, P st → (∀ i ∈ s.cycle.running, P (s.stage i)) →
      ∀ i ∈ s.cycle.running, P (Function.update s.stage item st i) := by
    intro P hnew hold i hi
    rw [Function.update_apply]
    split
    · exact hnew
    · exact hold i hi
  exact { h with
    inTime := hall (P := fun st => s.clock ≤ st.deadline dbTimeout) hdeadline h.inTime
    started := hall (P := fun st => st.latestEnd dbTimeout ≤ s.clock + 15 * second + 2 * dbTimeout)
      (Int.le_trans hend (h.started item hitem)) h.started
    beaten := fun last hlast => by
      obtain ⟨hpast, hgap, hends, hhere⟩ := h.beaten last hlast
      exact ⟨hpast, hgap, hall (P := fun st => st.latestEnd dbTimeout ≤ last + gap dbTimeout)
        (Int.le_trans hend (hends item hitem)) hends, hhere⟩ }

theorem TimedLoop.Inv.tau (hdb : 0 ≤ dbTimeout)
    (h : s.Inv isMonitorCheckError concurrency dbTimeout) {cycle : Cycle T E}
    (hs : s.cycle.step isMonitorCheckError concurrency .tau = some cycle) :
    (s.after cycle).Inv isMonitorCheckError concurrency dbTimeout := by
  have hold := h.inProgress hs fun ha => by cases ha
  have hcycle := hold.step hs
  have hhere := hold.here
  have hdone : ∀ {P : Prop}, s.cycle.ctxDone = true → P := by
    intro P hdone
    rw [h.notDone] at hdone
    cases hdone
  cases Cycle.step_cases hs with
  | fetchedDone hpc hd | loopDone hpc ha hd | receivedDone hpc hd | joinDone hpc hd =>
      exact hdone hd
  | drained hpc ha =>
      simp only [Cycle.Here, hpc] at hhere
      exact hdone hhere.2
  | fetchedGo hpc hd =>
      refine h.moves hcycle rfl rfl rfl rfl rfl (fun hfill => by cases hfill) fun last _ hat => ?_
      simp only [TimedLoop.Here, hpc] at hat ⊢
      exact hat
  | nonempty hpc hitems =>
      simp only [Cycle.Here, hpc] at hhere
      refine h.moves hcycle rfl rfl rfl rfl rfl (fun _ => hhere.2.1.trans hhere.1.symm)
        fun last _ hat => ?_
      simp only [TimedLoop.Here, hpc] at hat ⊢
      exact hat
  | empty hpc hitems =>
      exact h.beats hdb hcycle rfl rfl rfl rfl (fun _ herr => herr) (.inr rfl)
  | fill hpc hnext hactive =>
      have hfilling := h.filling hpc
      refine h.starts hcycle rfl rfl rfl rfl rfl (fun _ => congrArg (· + 1) hfilling)
        fun last _ hat => ?_
      simp only [TimedLoop.Here, hpc] at hat
      simp only [TimedLoop.Here, Cycle.startWork, hpc]
      exact ⟨hat, hat⟩
  | filled hpc hfull =>
      have hfilling := h.filling hpc
      simp only [Cycle.Here, hpc] at hhere
      have hlength : 0 < s.cycle.items.length := List.length_pos_iff.mpr hhere.1
      refine h.moves hcycle rfl rfl rfl rfl rfl (fun hfill => by cases hfill) fun last _ hat => ?_
      -- no result has been received, so some item is active
      intro (hzero : s.cycle.active = 0)
      rw [limit_eq_max] at hfull
      exact absurd hzero (by omega)
  | loopSelect hpc ha hd =>
      exact h.moves hcycle rfl rfl rfl rfl rfl (fun hfill => by cases hfill) fun _ _ _ => trivial
  | loopEnd hpc ha =>
      refine h.moves hcycle rfl rfl rfl rfl rfl (fun hfill => by cases hfill) fun last _ hat => ?_
      simp only [TimedLoop.Here, hpc] at hat
      exact hat ha
  | receivedMore hpc hd hn =>
      refine h.moves hcycle rfl rfl rfl rfl rfl (fun hfill => by cases hfill) fun last _ hat => ?_
      simp only [TimedLoop.Here, hpc] at hat
      exact hat
  | receivedLast hpc hn =>
      refine h.moves hcycle rfl rfl rfl rfl rfl (fun hfill => by cases hfill) fun last _ hat => ?_
      simp only [TimedLoop.Here, hpc] at hat
      exact fun _ => hat
  | refill hpc =>
      refine h.starts hcycle rfl rfl rfl rfl rfl (fun hfill => by cases hfill) fun last _ hat => ?_
      simp only [TimedLoop.Here, hpc] at hat
      refine ⟨?_, fun hzero => ?_⟩
      · simp only [second]
        omega
      · exact absurd hzero (Nat.succ_ne_zero _)
  | joinNil hpc | joinErrors hpc =>
      refine h.moves hcycle rfl rfl rfl rfl rfl (fun hfill => by cases hfill) fun last _ hat => ?_
      simp only [TimedLoop.Here, hpc] at hat
      simp only [TimedLoop.Here, second]
      omega

theorem TimedLoop.Inv.receive (hdb : 0 ≤ dbTimeout)
    (h : s.Inv isMonitorCheckError concurrency dbTimeout) {cycle : Cycle T E}
    (hs : s.cycle.step isMonitorCheckError concurrency .receive = some cycle) :
    (s.after cycle).Inv isMonitorCheckError concurrency dbTimeout := by
  have hold := h.inProgress hs fun ha => (nomatch ha)
  have hcycle := hold.step hs
  cases Cycle.step_cases hs with
  | @receive err rest hpc hresults =>
      have hprogressed := h.progressed err (by rw [hresults]; exact List.mem_cons_self)
      refine h.beats hdb hcycle rfl rfl ?_ rfl (fun e he => ?_) (.inl rfl)
      · simp only [List.countP_singleton, hprogressed, ↓reduceIte]
      · rw [hresults]
        exact List.mem_cons_of_mem _ he
  | drainReceive hpc =>
      have hhere := hold.here
      simp only [Cycle.Here, hpc] at hhere
      rw [h.notDone] at hhere
      exact absurd hhere.2 (by simp)

theorem TimedLoop.Inv.fetched (h : s.Inv isMonitorCheckError concurrency dbTimeout)
    {items : List T} {cycle : Cycle T E}
    (hs : s.cycle.step isMonitorCheckError concurrency (.fetch (.ok items)) = some cycle) :
    (s.after cycle).Inv isMonitorCheckError concurrency dbTimeout := by
  have hcycle := (h.inProgress hs fun ha => (nomatch ha)).step hs
  cases Cycle.step_cases hs with
  | fetchOk hpc =>
      refine h.moves hcycle rfl rfl rfl rfl rfl (fun hfill => (nomatch hfill)) fun last _ hat => ?_
      simp only [TimedLoop.Here, hpc] at hat ⊢
      omega

/-- **Every step keeps the deadlines.** -/
theorem TimedLoop.Inv.step (hdb : 0 ≤ dbTimeout)
    (h : s.Inv isMonitorCheckError concurrency dbTimeout) {a : TimedAction T E}
    (hs : s.step isMonitorCheckError concurrency dbTimeout a = some s') :
    s'.Inv isMonitorCheckError concurrency dbTimeout := by
  cases a with
  | wait now =>
      obtain ⟨hguard, hs⟩ := Option.ite_none_right_eq_some.mp hs
      cases hs
      simp only [Bool.and_eq_true, decide_eq_true_eq] at hguard
      exact h.wait hdb hguard.1.1 hguard.1.2 hguard.2
  | tick =>
      simp only [TimedLoop.step] at hs
      split at hs
      · rename_i hpc
        cases hs
        exact h.tick hdb hpc
      · cases hs
  | fetched items =>
      obtain ⟨cycle, hstep, rfl⟩ := Option.map_eq_some_iff.mp hs
      exact h.fetched hstep
  | tau =>
      obtain ⟨cycle, hstep, rfl⟩ := Option.map_eq_some_iff.mp hs
      exact h.tau hdb hstep
  | receive =>
      obtain ⟨cycle, hstep, rfl⟩ := Option.map_eq_some_iff.mp hs
      exact h.receive hdb hstep
  | checkFailed item err =>
      simp only [TimedLoop.step] at hs
      split at hs
      · obtain ⟨herr, hs⟩ := Option.ite_none_right_eq_some.mp hs
        have hprogressed : Cycle.progressed isMonitorCheckError (some err) = true := herr
        exact h.ends hprogressed hs
      · cases hs
  | probed item | persisted item =>
      simp only [TimedLoop.step] at hs
      split at hs
      · rename_i since hstage
        obtain ⟨hitem, hs⟩ := Option.ite_none_right_eq_some.mp hs
        cases hs
        have hnow := h.inTime item hitem
        rw [hstage] at hnow
        refine h.stages hitem ?_ ?_
        · simp only [Stage.deadline]
          omega
        · rw [hstage]
          simp only [Stage.deadline, Stage.latestEnd] at hnow ⊢
          omega
      · cases hs
  | rolledBack item =>
      simp only [TimedLoop.step] at hs
      split at hs
      · exact h.ends rfl hs
      · cases hs

end Inv

/-- **The heartbeat budget covers every run that meets its deadlines.** `Load` computes it without
overflow, and in every run of the loop no heartbeat is more than `gap` after the one before, which
is less than the budget: whoever checks the last heartbeat finds it fresh. -/
theorem heartbeats_within_budget {env : Env} {cfg : Config}
    (hload : (load env).value = .ok cfg) :
    (load env).Exact ∧ 0 < cfg.dbOperationTimeout ∧
      4 * cfg.dbOperationTimeout + 27 * second ≤ cfg.heartbeatMaxAge ∧
      gap cfg.dbOperationTimeout < cfg.heartbeatMaxAge ∧
      ∀ {T E : Type} (isMonitorCheckError : E → Bool) (concurrency now : Int)
        (as : List (TimedAction T E)) (s : TimedLoop T E),
        Run (TimedLoop.step isMonitorCheckError concurrency cfg.dbOperationTimeout)
          (TimedLoop.start T E now) as s →
        (s.beats.IsChain fun a b => b - a ≤ gap cfg.dbOperationTimeout) ∧
          ∀ last ∈ s.beats.getLast?, ∀ text : Rfc3339, text.ReadsBack last →
            checkHeartbeat text (.ok (text.format last)) s.clock cfg.heartbeatMaxAge = .ok () := by
  have hvalid := load_ok hload
  have hdb := hvalid.dbOperationTimeout
  have hage := hvalid.heartbeatMaxAge
  have hgap : gap cfg.dbOperationTimeout < cfg.heartbeatMaxAge := by
    unfold gap second
    unfold second at hage
    omega
  refine ⟨load_exact env, hdb, hage, hgap, ?_⟩
  intro T E isMonitorCheckError concurrency now as s hrun
  have hinv : s.Inv isMonitorCheckError concurrency cfg.dbOperationTimeout :=
    hrun.invariant (fun _ _ _ h hs => h.step (Int.le_of_lt hdb) hs)
      (TimedLoop.inv_start isMonitorCheckError concurrency cfg.dbOperationTimeout now)
  refine ⟨hinv.chain, fun last hlast text hreads => ?_⟩
  obtain ⟨hpast, hclock, -⟩ := hinv.beaten last hlast
  refine checkHeartbeat_ok.mpr ⟨_, last, rfl, hreads, hpast, sub_le ?_ ?_⟩
  · unfold second at hage
    omega
  · omega

def testEnv : Env
  | "WORKER_DB_TIMEOUT_SECONDS" => some "7"
  | "WORKER_HEARTBEAT_MAX_AGE_SECONDS" => some "21"
  | _ => none

/-- A cycle without monitors, and one with a monitor whose check takes all its time. -/
def slowCheck : List (TimedAction Nat Bool) :=
  [.tick, .fetched [], .tau, .tau, .wait (2 * second), .tick, .wait (9 * second), .fetched [1],
    .tau, .tau, .tau, .tau, .tau, .wait (24 * second), .probed 0, .wait (31 * second),
    .persisted 0, .wait (38 * second), .rolledBack 0, .receive]

theorem heartbeats_within_budget_slow : ∃ cfg s, (load testEnv).value = .ok cfg ∧
    cfg.heartbeatMaxAge = 55 * second ∧
    Run (TimedLoop.step id 100 cfg.dbOperationTimeout) (TimedLoop.start Nat Bool 0) slowCheck s ∧
    s.beats = [0, 38 * second] ∧
    (s.beats.IsChain fun a b => b - a ≤ gap cfg.dbOperationTimeout) := by
  have hload : (load testEnv).value = .ok _ := rfl
  have hrun : Run (TimedLoop.step id 100 (7 * second)) (TimedLoop.start Nat Bool 0) slowCheck _ :=
    run_of_exec rfl
  obtain ⟨-, -, -, -, hruns⟩ := heartbeats_within_budget hload
  exact ⟨_, _, hload, rfl, hrun, rfl, (hruns id 100 0 _ _ hrun).1⟩

end Sentinel.System
