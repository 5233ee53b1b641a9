import Mathlib.Data.List.Forall2
import Sentinel.Health.Heartbeat
import Sentinel.Worker.PollCycle

/-!
# System — Liveness

The worker's processes, one after the other, the poll loop of each, and the heartbeat file between
them and the health check.

* A milestone is a fetch that returns no monitor, or a work item that ends with nil or a
  `monitorCheckError`. The loop handles it later: a fetch with its next statements, the end of an
  item when it takes it off the channel, and meanwhile it may be writing a heartbeat.
* `World.Inv`: the file is empty or holds an instant at which the loop of the current process
  handled a milestone of its own.
* `healthy_progress`: so such an instant is what a successful check is about.
* `healthy_late`: how long ago the milestone itself was is not.
-/

namespace Sentinel.System

open Transition Health Worker

/-- A process of the worker that has reset the heartbeat. The fields after the second are ghosts. -/
structure Process (T E : Type) where
  /-- The poll cycle, ended while the loop waits for a tick. -/
  cycle : Cycle T E
  /-- The instant of the heartbeat that is being written. -/
  writing : Option Int
  startedAt : Int
  /-- When the fetch of the cycle returned. -/
  fetchedAt : Int
  /-- When the results on the channel were sent. -/
  sent : List Int
  milestones : List Int
  /-- The milestones the loop has handled, each with the instant at which it did. -/
  handled : List (Int × Int)

/-- The loop before its first tick. -/
def Process.start (T E : Type) (now : Int) : Process T E where
  cycle := { Cycle.start T E with pc := .returned none }
  writing := none
  startedAt := now
  fetchedAt := now
  sent := []
  milestones := []
  handled := []

structure World (T E : Type) where
  clock : Int
  file : Content
  process : Option (Process T E)

inductive WorldAction (T E : Type) where
  | wait (now : Int)
  /-- A process starts, after any other has ended, and resets the heartbeat or exits. -/
  | start (failure : Option WriteError)
  | stop
  | tick
  | cycle (a : Action T E)
  /-- The write of a heartbeat ends. -/
  | written (failure : Option WriteError)

/-- The function's own statements, which wait for its heartbeat to be written. -/
def ownStatement {T E : Type} : Action T E → Bool
  | .workReturns _ _ | .cancel => false
  | .fetch _ | .tau | .selectDone | .receive => true

section Worker

variable {T E : Type} (text : Rfc3339) (isMonitorCheckError : E → Bool) (concurrency : Int)

/-- What a step of the cycle is for the ghosts. -/
def Process.note (p : Process T E) (now : Int) (a : Action T E) : Process T E :=
  match a, p.cycle.pc, p.cycle.results with
  | .fetch (.ok []), _, _ => { p with fetchedAt := now, milestones := p.milestones ++ [now] }
  | .workReturns _ err, _, _ =>
      { p with
        sent := p.sent ++ [now]
        milestones := if Cycle.progressed isMonitorCheckError err then p.milestones ++ [now]
          else p.milestones }
  | .tau, .dispatch, _ =>
      if p.cycle.items.length = 0 then { p with handled := p.handled ++ [(p.fetchedAt, now)] }
      else p
  | .receive, .select, err :: _ =>
      { p with
        sent := p.sent.tail
        handled := if Cycle.progressed isMonitorCheckError err then
            p.handled ++ [(p.sent.headD now, now)]
          else p.handled }
  | .receive, .drain, _ => { p with sent := p.sent.tail }
  | _, _, _ => p

/-- A step of the cycle. What calls `heartbeat` starts the write of one. -/
def Process.step (p : Process T E) (now : Int) (a : Action T E) : Option (Process T E) :=
  if p.writing.isSome && ownStatement a then none
  else
    (p.cycle.step isMonitorCheckError concurrency a).map fun cycle =>
      { p.note isMonitorCheckError now a with
        cycle := cycle
        writing := if cycle.heartbeats = p.cycle.heartbeats then p.writing else some now }

/-- The ticker starts the next cycle. -/
def Process.tick (p : Process T E) : Option (Process T E) :=
  match p.cycle.pc, p.writing with
  | .returned _, none => some { p with cycle := p.cycle.again, sent := [] }
  | _, _ => none

def World.step (w : World T E) : WorldAction T E → Option (World T E)
  | .wait now => if w.clock ≤ now then some { w with clock := now } else none
  | .start failure =>
      match resetHeartbeat failure w.file with
      | (file, .error _) => some { w with file := file, process := none }
      | (file, .ok _) => some { w with file := file, process := some (.start T E w.clock) }
  | .stop => w.process.map fun _ => { w with process := none }
  | .tick => do
      let p ← w.process
      let p ← p.tick
      return { w with process := some p }
  | .cycle a => do
      let p ← w.process
      let p ← p.step isMonitorCheckError concurrency w.clock a
      return { w with process := some p }
  | .written failure => do
      let p ← w.process
      let now ← p.writing
      return { w with
        file := (publishHeartbeat text failure w.file now).1
        process := some { p with writing := none } }

end Worker

/-! ### What a step of a process does -/

section Steps

variable {T E : Type} {text : Rfc3339} {isMonitorCheckError : E → Bool} {concurrency : Int}
  {p p' : Process T E} {now : Int} {a : Action T E}

/-- A fetch has returned no monitor and the loop has not handled it. -/
def Process.FoundNone (p : Process T E) : Prop :=
  (p.cycle.pc = .fetched ∨ p.cycle.pc = .dispatch) ∧ p.cycle.items = []

/-- The steps of a process. Only two of them start the write of a heartbeat. -/
inductive Process.Stepped (isMonitorCheckError : E → Bool) (p : Process T E) (now : Int) :
    Process T E → Prop where
  | silent {cycle : Cycle T E} (hresults : cycle.results = p.cycle.results)
      (hnone : Process.FoundNone { p with cycle := cycle } → p.FoundNone) :
      Stepped _ p now { p with cycle := cycle }
  | fetchesNone {cycle : Cycle T E} (hresults : cycle.results = p.cycle.results) :
      Stepped _ p now
        { p with cycle := cycle, fetchedAt := now, milestones := p.milestones ++ [now] }
  | returns {cycle : Cycle T E} {err : Option E}
      (hresults : cycle.results = p.cycle.results ++ [err])
      (hnone : Process.FoundNone { p with cycle := cycle } → p.FoundNone) :
      Stepped _ p now { p with
        cycle := cycle
        sent := p.sent ++ [now]
        milestones := if Cycle.progressed isMonitorCheckError err then p.milestones ++ [now]
          else p.milestones }
  | handlesNone {cycle : Cycle T E} (hfound : p.FoundNone)
      (hresults : cycle.results = p.cycle.results) (hpc : cycle.pc = .returned none) :
      Stepped _ p now { p with
        cycle := cycle
        handled := p.handled ++ [(p.fetchedAt, now)]
        writing := some now }
  | takes {cycle : Cycle T E} {err : Option E} (hresults : p.cycle.results = err :: cycle.results)
      (hpc : cycle.pc = .received) :
      Stepped _ p now { p with
        cycle := cycle
        sent := p.sent.tail
        handled := if Cycle.progressed isMonitorCheckError err then
            p.handled ++ [(p.sent.headD now, now)]
          else p.handled
        writing := if Cycle.progressed isMonitorCheckError err then some now else p.writing }
  | drains {cycle : Cycle T E} {err : Option E}
      (hresults : p.cycle.results = err :: cycle.results) (hpc : cycle.pc = .drain) :
      Stepped _ p now { p with cycle := cycle, sent := p.sent.tail }

theorem Process.step_cases (h : p.step isMonitorCheckError concurrency now a = some p') :
    Process.Stepped isMonitorCheckError p now p' := by
  obtain ⟨-, h⟩ := Option.ite_none_left_eq_some.mp h
  obtain ⟨cycle, hcycle, rfl⟩ := Option.map_eq_some_iff.mp h
  have hstep := Cycle.step_cases hcycle
  -- a step whose note changes nothing, and that calls no heartbeat
  have hsilent : ∀ {cycle : Cycle T E}, p.note isMonitorCheckError now a = p →
      cycle.heartbeats = p.cycle.heartbeats → cycle.results = p.cycle.results →
      (Process.FoundNone { p with cycle := cycle } → p.FoundNone) →
      Process.Stepped isMonitorCheckError p now { p.note isMonitorCheckError now a with
        cycle := cycle
        writing := if cycle.heartbeats = p.cycle.heartbeats then p.writing else some now } := by
    intro cycle hnote hbeats hresults hnone
    rw [hnote, if_pos hbeats]
    exact .silent hresults hnone
  cases hstep with
  | fetchError hpc =>
      refine hsilent rfl rfl rfl fun ⟨hpc', _⟩ => ?_
      rcases hpc' with h | h <;> cases h
  | @fetchOk items hpc =>
      cases items with
      | nil =>
          rw [if_pos rfl]
          exact .fetchesNone rfl
      | cons item items => exact hsilent rfl rfl rfl fun ⟨_, hitems⟩ => (nomatch hitems)
  | fetchedDone hpc hd =>
      refine hsilent (by simp only [Process.note, hpc]) rfl rfl fun ⟨hpc', _⟩ => ?_
      rcases hpc' with h | h <;> cases h
  | fetchedGo hpc hd =>
      exact hsilent (by simp only [Process.note, hpc]) rfl rfl fun ⟨_, hitems⟩ => ⟨.inl hpc, hitems⟩
  | empty hpc hitems =>
      simp only [Process.note, hpc, hitems, List.length_nil, ↓reduceIte, Nat.add_eq_left,
        Nat.succ_ne_zero]
      exact .handlesNone ⟨.inr hpc, hitems⟩ rfl rfl
  | nonempty hpc hitems =>
      have hlength : ¬ p.cycle.items.length = 0 := fun h => hitems (List.length_eq_zero_iff.mp h)
      refine hsilent (by simp only [Process.note, hpc, if_neg hlength]) rfl rfl fun ⟨hpc', _⟩ => ?_
      rcases hpc' with h | h <;> cases h
  | fill hpc =>
      refine hsilent (by simp only [Process.note, hpc]) rfl rfl fun ⟨hpc', _⟩ => ?_
      rcases hpc' with h | h <;> exact absurd (hpc.symm.trans h) (by simp)
  | filled hpc | loopDone hpc | loopSelect hpc | loopEnd hpc | receivedDone hpc
  | receivedMore hpc | receivedLast hpc | refill hpc | drained hpc | joinDone hpc | joinNil hpc
  | joinErrors hpc | selectDone hpc =>
      refine hsilent (by simp only [Process.note, hpc]) rfl rfl fun ⟨hpc', _⟩ => ?_
      rcases hpc' with h | h <;> cases h
  | @receive err rest hpc hresults =>
      have htakes := @Process.Stepped.takes T E isMonitorCheckError p now { p.cycle with
        results := rest
        active := p.cycle.active - 1
        heartbeats := p.cycle.heartbeats + [err].countP (Cycle.progressed isMonitorCheckError)
        workErrors := p.cycle.workErrors ++ Cycle.otherErrors isMonitorCheckError [err]
        pc := .received } err hresults rfl
      cases hprogressed : Cycle.progressed isMonitorCheckError err with
      | true =>
          simpa [Process.note, hpc, hresults, hprogressed] using htakes
      | false =>
          simpa [Process.note, hpc, hresults, hprogressed] using htakes
  | drainReceive hpc hresults =>
      simp only [Process.note, hpc, ↓reduceIte]
      exact .drains hresults rfl
  | workReturns hi =>
      simp only [Process.note, ↓reduceIte]
      exact .returns rfl id
  | cancel hd => exact hsilent rfl rfl rfl id

/-! ### The invariant -/

/-- A result on the channel is a milestone at the instant it was sent, or none. -/
def SentAt (isMonitorCheckError : E → Bool) (milestones : List Int) (at_ : Int)
    (err : Option E) : Prop :=
  Cycle.progressed isMonitorCheckError err = true → at_ ∈ milestones

/-- What the loop has handled and what waits for it are milestones of the process. -/
structure Process.Inv (isMonitorCheckError : E → Bool) (now : Int) (p : Process T E) : Prop where
  started : p.startedAt ≤ now
  milestones : ∀ m ∈ p.milestones, p.startedAt ≤ m ∧ m ≤ now
  foundNone : p.FoundNone → p.fetchedAt ∈ p.milestones
  sent : List.Forall₂ (SentAt isMonitorCheckError p.milestones) p.sent p.cycle.results
  handled : ∀ x ∈ p.handled, x.1 ∈ p.milestones ∧ x.1 ≤ x.2 ∧ x.2 ≤ now
  writing : ∀ t, p.writing = some t → ∃ x ∈ p.handled, x.2 = t

theorem SentAt.append {milestones : List Int} {at_ : Int} {err : Option E} (m : Int)
    (h : SentAt isMonitorCheckError milestones at_ err) :
    SentAt isMonitorCheckError (milestones ++ [m]) at_ err :=
  fun hp => List.mem_append_left _ (h hp)

theorem Process.inv_start (isMonitorCheckError : E → Bool) (now : Int) :
    (Process.start T E now).Inv isMonitorCheckError now where
  started := Int.le_refl _
  milestones m hm := nomatch hm
  foundNone := by rintro ⟨h | h, -⟩ <;> cases h
  sent := .nil
  handled x hx := nomatch hx
  writing t ht := nomatch ht

theorem Process.Inv.later {now' : Int} (h : p.Inv isMonitorCheckError now) (hle : now ≤ now') :
    p.Inv isMonitorCheckError now' :=
  { h with
    started := Int.le_trans h.started hle
    milestones := fun m hm => ⟨(h.milestones m hm).1, Int.le_trans (h.milestones m hm).2 hle⟩
    handled := fun x hx =>
      ⟨(h.handled x hx).1, (h.handled x hx).2.1, Int.le_trans (h.handled x hx).2.2 hle⟩ }

/-- One more milestone, now. -/
theorem Process.Inv.milestone (h : p.Inv isMonitorCheckError now) :
    (∀ m ∈ p.milestones ++ [now], p.startedAt ≤ m ∧ m ≤ now) ∧
      ∀ x ∈ p.handled, x.1 ∈ p.milestones ++ [now] ∧ x.1 ≤ x.2 ∧ x.2 ≤ now := by
  refine ⟨fun m hm => ?_, fun x hx => ?_⟩
  · rcases List.mem_append.mp hm with hm | hm
    · exact h.milestones m hm
    · rw [List.mem_singleton.mp hm]
      exact ⟨h.started, Int.le_refl _⟩
  · exact ⟨List.mem_append_left _ (h.handled x hx).1, (h.handled x hx).2⟩

/-- A milestone is handled, now. -/
theorem Process.Inv.handles (h : p.Inv isMonitorCheckError now) {m : Int} (hm : m ∈ p.milestones) :
    (∀ x ∈ p.handled ++ [(m, now)], x.1 ∈ p.milestones ∧ x.1 ≤ x.2 ∧ x.2 ≤ now) ∧
      ∀ t, some now = some t → ∃ x ∈ p.handled ++ [(m, now)], x.2 = t := by
  refine ⟨fun x hx => ?_, fun t ht => ?_⟩
  · rcases List.mem_append.mp hx with hx | hx
    · exact h.handled x hx
    · rw [List.mem_singleton.mp hx]
      exact ⟨hm, (h.milestones m hm).2, Int.le_refl _⟩
  · exact ⟨(m, now), List.mem_append_right _ (List.mem_singleton.mpr rfl), Option.some.inj ht⟩

theorem Process.Inv.step (h : p.Inv isMonitorCheckError now)
    (hs : p.step isMonitorCheckError concurrency now a = some p') :
    p'.Inv isMonitorCheckError now := by
  cases Process.step_cases hs with
  | silent hresults hnone =>
      exact { h with
        foundNone := fun hfound => h.foundNone (hnone hfound)
        sent := hresults ▸ h.sent }
  | fetchesNone hresults =>
      obtain ⟨hmilestones, hhandled⟩ := h.milestone
      exact { h with
        milestones := hmilestones
        foundNone := fun _ => List.mem_append_right _ (List.mem_singleton.mpr rfl)
        sent := hresults ▸ h.sent.imp fun _ _ hsent => hsent.append now
        handled := hhandled }
  | @returns cycle err hresults hnone =>
      have hsent : ∀ milestones, SentAt isMonitorCheckError milestones now err →
          List.Forall₂ (SentAt isMonitorCheckError milestones) p.sent p.cycle.results →
          List.Forall₂ (SentAt isMonitorCheckError milestones) (p.sent ++ [now])
            cycle.results := by
        intro milestones hnow hsent
        rw [hresults]
        exact List.rel_append hsent (.cons hnow .nil)
      split
      · obtain ⟨hmilestones, hhandled⟩ := h.milestone
        exact { h with
          milestones := hmilestones
          foundNone := fun hfound => List.mem_append_left _ (h.foundNone (hnone hfound))
          sent := hsent _ (fun _ => List.mem_append_right _ (List.mem_singleton.mpr rfl))
            (h.sent.imp fun _ _ hsent => hsent.append now)
          handled := hhandled }
      · rename_i hprogressed
        exact { h with
          foundNone := fun hfound => h.foundNone (hnone hfound)
          sent := hsent _ (fun hp => absurd hp hprogressed) h.sent }
  | handlesNone hfound hresults hpc =>
      obtain ⟨hhandled, hwriting⟩ := h.handles (h.foundNone hfound)
      exact { h with
        foundNone := by
          rintro ⟨hpc' | hpc', -⟩ <;> exact absurd (hpc.symm.trans hpc') (by simp)
        sent := hresults ▸ h.sent
        handled := hhandled
        writing := hwriting }
  | @takes cycle err hresults hpc =>
      have hsent := h.sent
      rw [hresults] at hsent
      have hnone : ¬ Process.FoundNone { p with cycle := cycle } := by
        rintro ⟨hpc' | hpc', -⟩ <;> exact absurd (hpc.symm.trans hpc') (by simp)
      obtain ⟨sentAt, rest, hsentAt, hrest, heq⟩ := List.forall₂_cons_right_iff.mp hsent
      rw [heq]
      split
      · rename_i hprogressed
        obtain ⟨hhandled, hwriting⟩ := h.handles (hsentAt hprogressed)
        exact { h with
          foundNone := fun hfound => absurd hfound hnone
          sent := hrest
          handled := hhandled
          writing := hwriting }
      · exact { h with
          foundNone := fun hfound => absurd hfound hnone
          sent := hrest }
  | @drains cycle err hresults hpc =>
      have hsent := h.sent
      rw [hresults] at hsent
      obtain ⟨sentAt, rest, -, hrest, heq⟩ := List.forall₂_cons_right_iff.mp hsent
      exact { h with
        foundNone := by
          rintro ⟨hpc' | hpc', -⟩ <;> exact absurd (hpc.symm.trans hpc') (by simp)
        sent := by
          show List.Forall₂ _ p.sent.tail cycle.results
          rw [heq]
          exact hrest }

/-- What was handled stays so, and what is handled now is handled now. -/
theorem Process.step_handled (hs : p.step isMonitorCheckError concurrency now a = some p') :
    (∀ x ∈ p.handled, x ∈ p'.handled) ∧ ∀ x ∈ p'.handled, x ∈ p.handled ∨ x.2 = now := by
  have hone : ∀ m : Int, (∀ x ∈ p.handled, x ∈ p.handled ++ [(m, now)]) ∧
      ∀ x ∈ p.handled ++ [(m, now)], x ∈ p.handled ∨ x.2 = now := by
    refine fun m => ⟨fun x hx => List.mem_append_left _ hx, fun x hx => ?_⟩
    rcases List.mem_append.mp hx with hx | hx
    · exact .inl hx
    · rw [List.mem_singleton.mp hx]
      exact .inr rfl
  cases Process.step_cases hs with
  | silent | fetchesNone | returns | drains => exact ⟨fun _ hx => hx, fun _ hx => .inl hx⟩
  | handlesNone => exact hone _
  | takes =>
      simp only
      split
      · exact hone _
      · exact ⟨fun _ hx => hx, fun _ hx => .inl hx⟩

/-- The file is empty or an instant at which the loop handled a milestone. -/
structure World.Inv (text : Rfc3339) (isMonitorCheckError : E → Bool) (w : World T E) : Prop where
  clock : text.ReadsBack w.clock
  process : ∀ p, w.process = some p → p.Inv isMonitorCheckError w.clock ∧
    (∀ x ∈ p.handled, text.ReadsBack x.2) ∧
    (w.file = .ok "" ∨ ∃ x ∈ p.handled, w.file = .ok (text.format x.2))

theorem World.inv_none {w : World T E} (hclock : text.ReadsBack w.clock)
    (hnone : w.process = none) : w.Inv text isMonitorCheckError :=
  ⟨hclock, fun p hp => by rw [hnone] at hp; cases hp⟩

theorem World.Inv.step {w w' : World T E} {e : WorldAction T E}
    (h : w.Inv text isMonitorCheckError) (hclock : ∀ now, e = .wait now → text.ReadsBack now)
    (hs : w.step text isMonitorCheckError concurrency e = some w') :
    w'.Inv text isMonitorCheckError := by
  cases e with
  | wait now =>
      obtain ⟨hle, hs⟩ := Option.ite_none_right_eq_some.mp hs
      cases hs
      refine ⟨hclock now rfl, fun p hp => ?_⟩
      obtain ⟨hp, hrest⟩ := h.process p hp
      exact ⟨hp.later hle, hrest⟩
  | start failure =>
      cases failure with
      | some err =>
          cases hs
          exact World.inv_none h.clock rfl
      | none =>
          cases hs
          refine ⟨h.clock, fun p hp => ?_⟩
          cases hp
          exact ⟨Process.inv_start _ _, fun x hx => (nomatch hx), .inl rfl⟩
  | stop =>
      obtain ⟨p, -, rfl⟩ := Option.map_eq_some_iff.mp hs
      exact World.inv_none h.clock rfl
  | tick =>
      obtain ⟨p, hp, hs⟩ := Option.bind_eq_some_iff.mp hs
      obtain ⟨p', htick, hs⟩ := Option.bind_eq_some_iff.mp hs
      cases hs
      refine ⟨h.clock, fun q hq => ?_⟩
      cases hq
      obtain ⟨hinv, hrest⟩ := h.process p hp
      unfold Process.tick at htick
      split at htick
      · cases htick
        refine ⟨{ hinv with foundNone := ?_, sent := .nil }, hrest⟩
        rintro ⟨h | h, -⟩ <;> cases h
      · cases htick
  | cycle a =>
      obtain ⟨p, hp, hs⟩ := Option.bind_eq_some_iff.mp hs
      obtain ⟨p', hstep, hs⟩ := Option.bind_eq_some_iff.mp hs
      cases hs
      refine ⟨h.clock, fun q hq => ?_⟩
      cases hq
      obtain ⟨hinv, hreads, hfile⟩ := h.process p hp
      obtain ⟨hkept, hnew⟩ := Process.step_handled hstep
      refine ⟨hinv.step hstep, fun x hx => ?_,
        hfile.imp_right fun ⟨x, hx, heq⟩ => ⟨x, hkept x hx, heq⟩⟩
      rcases hnew x hx with hx | hx
      · exact hreads x hx
      · rw [hx]
        exact h.clock
  | written failure =>
      obtain ⟨p, hp, hs⟩ := Option.bind_eq_some_iff.mp hs
      obtain ⟨now, hwriting, hs⟩ := Option.bind_eq_some_iff.mp hs
      cases hs
      refine ⟨h.clock, fun q hq => ?_⟩
      cases hq
      obtain ⟨hinv, hreads, hfile⟩ := h.process p hp
      refine ⟨{ hinv with writing := fun t ht => (nomatch ht) }, hreads, ?_⟩
      cases failure with
      | some err => exact hfile
      | none =>
          obtain ⟨x, hx, rfl⟩ := hinv.writing now hwriting
          exact .inr ⟨x, hx, rfl⟩

theorem World.inv_run {w w' : World T E} {as : List (WorldAction T E)}
    (hrun : Run (World.step text isMonitorCheckError concurrency) w as w')
    (hclock : ∀ now, .wait now ∈ as → text.ReadsBack now) (h : w.Inv text isMonitorCheckError) :
    w'.Inv text isMonitorCheckError := by
  induction hrun with
  | refl => exact h
  | more hs _ ih =>
      refine ih (fun now hnow => hclock now (List.mem_cons_of_mem _ hnow)) (h.step ?_ hs)
      rintro now rfl
      exact hclock now List.mem_cons_self

/-- **A successful check is about a milestone of the current process**: not longer than `maxAge` ago
its loop handled one, which was reached since the process started. -/
theorem healthy_progress {w w' : World T E} {as : List (WorldAction T E)} {t maxAge : Int}
    {err : String} (hempty : text.parse "" = .error err) (hclock : text.ReadsBack w.clock)
    (hclocks : ∀ now, .wait now ∈ as → text.ReadsBack now) (hnone : w.process = none)
    (hrun : Run (World.step text isMonitorCheckError concurrency) w as w')
    (hp : w'.process = some p) (hok : checkHeartbeat text w'.file t maxAge = .ok ()) :
    ∃ m s, (m, s) ∈ p.handled ∧ m ∈ p.milestones ∧ p.startedAt ≤ m ∧ m ≤ s ∧ s ≤ w'.clock ∧
      s ≤ t ∧ sub t s ≤ maxAge := by
  have hinv : w'.Inv text isMonitorCheckError :=
    World.inv_run hrun hclocks (World.inv_none hclock hnone)
  obtain ⟨hprocess, hreads, hfile⟩ := hinv.process p hp
  rcases hfile with hfile | ⟨⟨m, s⟩, hx, hfile⟩
  · rw [hfile, checkHeartbeat_reset hempty] at hok
    cases hok
  · obtain ⟨data, stamp, hdata, hparse, hle, hage⟩ := checkHeartbeat_ok.mp hok
    rw [hfile] at hdata
    cases hdata
    have hstamp : Except.ok s = Except.ok stamp := (hreads _ hx).symm.trans hparse
    cases hstamp
    obtain ⟨hm, hms, hs⟩ := hprocess.handled _ hx
    exact ⟨m, s, hx, hm, (hprocess.milestones m hm).1, hms, hs, hle, hage⟩

end Steps

/-! ### A late heartbeat -/

/-- `time` on the instants below. -/
def someInstants : Rfc3339 where
  format t :=
    if t = 0 then "1970-01-01T00:00:00Z"
    else if t = 1000000000000 then "1970-01-01T00:16:40Z" else "1970-01-01T00:16:41Z"
  parse s :=
    if s = "1970-01-01T00:00:00Z" then .ok 0
    else if s = "1970-01-01T00:16:40Z" then .ok 1000000000000
    else if s = "1970-01-01T00:16:41Z" then .ok 1001000000000 else .error "cannot parse"

/-- Two monitors are checked at once and both checks end. The loop handles the first, whose
heartbeat takes 1000 seconds to write, and then the second. -/
def slowWrite : List (WorldAction Nat Bool) :=
  [.start none, .tick, .cycle (.fetch (.ok [1, 2])), .cycle .tau, .cycle .tau, .cycle .tau,
    .cycle .tau, .cycle .tau, .cycle .tau, .cycle (.workReturns 0 none),
    .cycle (.workReturns 1 none), .cycle .receive, .wait 1000000000000, .written none, .cycle .tau,
    .cycle .tau, .cycle .receive, .written none]

/-- A second later the check passes. -/
theorem slowWrite_run : ∃ w p,
    Run (World.step someInstants id 2) ⟨0, .error "no such file", none⟩ slowWrite w ∧
      w.process = some p ∧
      checkHeartbeat someInstants w.file 1001000000000 67000000000 = .ok () ∧
      p.milestones = [0, 0] :=
  ⟨_, _, run_of_exec rfl, rfl, rfl, rfl⟩

/-- The loop has handled a milestone within the last 67 seconds. -/
theorem healthy_progress_slow : ∃ w p,
    Run (World.step someInstants id 2) ⟨0, .error "no such file", none⟩ slowWrite w ∧
      w.process = some p ∧
      ∃ m s, (m, s) ∈ p.handled ∧ m ∈ p.milestones ∧ p.startedAt ≤ m ∧ m ≤ s ∧ s ≤ w.clock ∧
        s ≤ 1001000000000 ∧ sub 1001000000000 s ≤ 67000000000 := by
  obtain ⟨w, p, hrun, hp, hok, -⟩ := slowWrite_run
  have hempty : someInstants.parse "" = .error "cannot parse" := rfl
  have hclock : someInstants.ReadsBack 0 := rfl
  have hclocks : ∀ now, .wait now ∈ slowWrite → someInstants.ReadsBack now := by
    intro now hnow
    have hwait : now = 1000000000000 := by simpa [slowWrite] using hnow
    rw [hwait]
    rfl
  exact ⟨w, p, hrun, hp, healthy_progress (w := ⟨0, .error "no such file", none⟩) hempty hclock
    hclocks rfl hrun hp hok⟩

/-- No milestone was reached within the last 67 seconds. -/
theorem healthy_late : ∃ w p,
    Run (World.step someInstants id 2) ⟨0, .error "no such file", none⟩ slowWrite w ∧
      w.process = some p ∧
      checkHeartbeat someInstants w.file 1001000000000 67000000000 = .ok () ∧
      ¬ ∃ s ∈ p.milestones, s ≤ 1001000000000 ∧ sub 1001000000000 s ≤ 67000000000 := by
  obtain ⟨w, p, hrun, hp, hok, hmilestones⟩ := slowWrite_run
  refine ⟨w, p, hrun, hp, hok, ?_⟩
  rw [hmilestones]
  decide

end Sentinel.System
