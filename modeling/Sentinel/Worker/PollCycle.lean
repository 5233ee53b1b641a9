import Sentinel.Library.Transition

/-!
# Worker — PollCycle

`runPollCycle` of `internal/worker/loop.go`, generic in the item type `T` as the source is, with
the errors of a work function in `E`.  The function, the goroutines it starts and the context it
polls make one transition system:

* `Pc` is the statement the function is at;
* `Action.tau` is the function's own next statement, `receive` and `selectDone` are the two ready
  branches of its `select`, of which either may be taken;
* `Action.workReturns` is a goroutine whose `work` returns and sends on the buffered channel, in
  any order; `cancel` is the context being cancelled, at any moment.

Two kinds of fields are ghosts: `started` and `ended` record what the goroutines did, in order,
and `observed` says that the function has found the context done.
-/

namespace Sentinel.Worker

open Transition

/-- The error `runPollCycle` returns. -/
inductive CycleError (E : Type) where
  /-- `fmt.Errorf("fetch due monitors: %w", err)`. -/
  | fetchDueMonitors (err : E)
  /-- `ctx.Err()`. -/
  | context
  /-- `fmt.Errorf("dispatch monitor checks: %w", errors.Join(workErrors...))`. -/
  | dispatch (workErrors : List E)
deriving DecidableEq, Repr

/-- Where `runPollCycle` is. -/
inductive Pc (E : Type) where
  /-- `items, err := fetch(ctx)`. -/
  | fetch
  /-- `if err := ctx.Err(); err != nil`, after the fetch. -/
  | fetched
  /-- `if len(items) == 0`. -/
  | dispatch
  /-- The loop that starts the first items. -/
  | fill
  /-- The head of `for active > 0`, with its context check. -/
  | loop
  | select
  /-- After a result: `if ctx.Err() == nil && next < len(items)`. -/
  | received
  /-- `startWork(items[next])`, after that check. -/
  | refill
  /-- The loop that waits for the started items once the context is done. -/
  | drain
  /-- The context check after the loop, and `errors.Join`. -/
  | join
  | returned (err : Option (CycleError E))
deriving DecidableEq, Repr

/-- A poll cycle in progress. -/
structure Cycle (T E : Type) where
  pc : Pc E
  ctxDone : Bool
  items : List T
  next : Nat
  active : Nat
  /-- Goroutines whose `work` has not returned, by the index of their item. -/
  running : List Nat
  /-- The channel's buffer. -/
  results : List (Option E)
  workErrors : List E
  heartbeats : Nat
  started : List Nat
  ended : List (Nat × Option E)
  observed : Bool
deriving DecidableEq, Repr

/-- The call of `runPollCycle`. -/
def Cycle.start (T E : Type) : Cycle T E where
  pc := .fetch
  ctxDone := false
  items := []
  next := 0
  active := 0
  running := []
  results := []
  workErrors := []
  heartbeats := 0
  started := []
  ended := []
  observed := false

inductive Action (T E : Type) where
  | fetch (result : Except E (List T))
  | tau
  | selectDone
  | receive
  | workReturns (item : Nat) (err : Option E)
  | cancel
deriving DecidableEq

/-- `if concurrency < 1 { concurrency = 1 }`. -/
def limit (concurrency : Int) : Int := if concurrency < 1 then 1 else concurrency

theorem limit_eq_max (concurrency : Int) : limit concurrency = max concurrency 1 := by
  unfold limit
  split <;> omega

namespace Cycle

variable {T E : Type}

/-- `startWork(items[next]); next++`. -/
def startWork (c : Cycle T E) : Cycle T E :=
  { c with
    active := c.active + 1
    next := c.next + 1
    running := c.next :: c.running
    started := c.started ++ [c.next] }

/-- A result was received: `active--`, then the heartbeat or `workErrors`. -/
def settle (isMonitorCheckError : E → Bool) (c : Cycle T E) (err : Option E) : Cycle T E :=
  match err with
  | none => { c with active := c.active - 1, heartbeats := c.heartbeats + 1 }
  | some e =>
      if isMonitorCheckError e then
        { c with active := c.active - 1, heartbeats := c.heartbeats + 1 }
      else { c with active := c.active - 1, workErrors := c.workErrors ++ [e] }

/-- The function's next statement, where it neither waits nor chooses. -/
def tau (concurrency : Int) (c : Cycle T E) : Option (Cycle T E) :=
  match c.pc with
  | .fetched =>
      if c.ctxDone then some { c with pc := .returned (some .context), observed := true }
      else some { c with pc := .dispatch }
  | .dispatch =>
      if c.items.length = 0 then
        some { c with heartbeats := c.heartbeats + 1, pc := .returned none }
      else some { c with pc := .fill }
  | .fill =>
      if c.next < c.items.length ∧ (c.active : Int) < limit concurrency then some c.startWork
      else some { c with pc := .loop }
  | .loop =>
      if c.active > 0 then
        if c.ctxDone then some { c with pc := .drain, observed := true }
        else some { c with pc := .select }
      else some { c with pc := .join }
  | .received =>
      if c.ctxDone then some { c with pc := .loop, observed := true }
      else if c.next < c.items.length then some { c with pc := .refill }
      else some { c with pc := .loop }
  | .refill => some { c.startWork with pc := .loop }
  | .drain => if c.active > 0 then none else some { c with pc := .returned (some .context) }
  | .join =>
      if c.ctxDone then some { c with pc := .returned (some .context), observed := true }
      else match c.workErrors with
        | [] => some { c with pc := .returned none }
        | errs => some { c with pc := .returned (some (.dispatch errs)) }
  | _ => none

/-- One step of the function, of a goroutine or of the context. -/
def step (isMonitorCheckError : E → Bool) (concurrency : Int) (c : Cycle T E) (a : Action T E) :
    Option (Cycle T E) :=
  match a, c.pc with
  | .fetch (.error e), .fetch => some { c with pc := .returned (some (.fetchDueMonitors e)) }
  | .fetch (.ok items), .fetch => some { c with items := items, pc := .fetched }
  | .tau, _ => c.tau concurrency
  | .selectDone, .select =>
      if c.ctxDone then some { c with pc := .loop, observed := true } else none
  | .receive, .select =>
      match c.results with
      | [] => none
      | err :: rest =>
          some { ({ c with results := rest }).settle isMonitorCheckError err with pc := .received }
  | .receive, .drain =>
      match c.results with
      | [] => none
      | _ :: rest =>
          if c.active > 0 then some { c with results := rest, active := c.active - 1 } else none
  | .workReturns i err, _ =>
      if i ∈ c.running then
        some { c with
          running := c.running.erase i
          results := c.results ++ [err]
          ended := c.ended ++ [(i, err)] }
      else none
  | .cancel, _ => if c.ctxDone then none else some { c with ctxDone := true }
  | _, _ => none

/-! ### What one step does -/

/-- The result is one that advances the heartbeat. -/
def progressed (isMonitorCheckError : E → Bool) : Option E → Bool
  | none => true
  | some e => isMonitorCheckError e

/-- The errors among some results that are not `monitorCheckError`s. -/
def otherErrors (isMonitorCheckError : E → Bool) (rs : List (Option E)) : List E :=
  rs.filterMap fun r => r.filter fun e => !isMonitorCheckError e

theorem settle_eq (isMonitorCheckError : E → Bool) (c : Cycle T E) (err : Option E) :
    c.settle isMonitorCheckError err =
      { c with
        active := c.active - 1
        heartbeats := c.heartbeats + [err].countP (progressed isMonitorCheckError)
        workErrors := c.workErrors ++ otherErrors isMonitorCheckError [err] } := by
  cases err with
  | none => simp [settle, progressed, otherErrors]
  | some e =>
      cases he : isMonitorCheckError e <;>
        simp [settle, progressed, otherErrors, Option.filter, he]

/-- The steps of a cycle, one constructor for each. -/
inductive Stepped (isMonitorCheckError : E → Bool) (concurrency : Int) (c : Cycle T E) :
    Action T E → Cycle T E → Prop where
  | fetchError {e : E} (h : c.pc = .fetch) : Stepped _ _ c (.fetch (.error e))
      { c with pc := .returned (some (.fetchDueMonitors e)) }
  | fetchOk {items : List T} (h : c.pc = .fetch) : Stepped _ _ c (.fetch (.ok items))
      { c with items := items, pc := .fetched }
  | fetchedDone (h : c.pc = .fetched) (hd : c.ctxDone = true) : Stepped _ _ c .tau
      { c with pc := .returned (some .context), observed := true }
  | fetchedGo (h : c.pc = .fetched) (hd : c.ctxDone = false) : Stepped _ _ c .tau
      { c with pc := .dispatch }
  | empty (h : c.pc = .dispatch) (hi : c.items = []) : Stepped _ _ c .tau
      { c with heartbeats := c.heartbeats + 1, pc := .returned none }
  | nonempty (h : c.pc = .dispatch) (hi : c.items ≠ []) : Stepped _ _ c .tau
      { c with pc := .fill }
  | fill (h : c.pc = .fill) (hn : c.next < c.items.length)
      (ha : (c.active : Int) < limit concurrency) : Stepped _ _ c .tau c.startWork
  | filled (h : c.pc = .fill)
      (hf : c.items.length ≤ c.next ∨ limit concurrency ≤ c.active) : Stepped _ _ c .tau
      { c with pc := .loop }
  | loopDone (h : c.pc = .loop) (ha : 0 < c.active) (hd : c.ctxDone = true) : Stepped _ _ c .tau
      { c with pc := .drain, observed := true }
  | loopSelect (h : c.pc = .loop) (ha : 0 < c.active) (hd : c.ctxDone = false) :
      Stepped _ _ c .tau { c with pc := .select }
  | loopEnd (h : c.pc = .loop) (ha : c.active = 0) : Stepped _ _ c .tau { c with pc := .join }
  | receivedDone (h : c.pc = .received) (hd : c.ctxDone = true) : Stepped _ _ c .tau
      { c with pc := .loop, observed := true }
  | receivedMore (h : c.pc = .received) (hd : c.ctxDone = false)
      (hn : c.next < c.items.length) : Stepped _ _ c .tau { c with pc := .refill }
  | receivedLast (h : c.pc = .received) (hn : c.items.length ≤ c.next) : Stepped _ _ c .tau
      { c with pc := .loop }
  | refill (h : c.pc = .refill) : Stepped _ _ c .tau { c.startWork with pc := .loop }
  | drained (h : c.pc = .drain) (ha : c.active = 0) : Stepped _ _ c .tau
      { c with pc := .returned (some .context) }
  | joinDone (h : c.pc = .join) (hd : c.ctxDone = true) : Stepped _ _ c .tau
      { c with pc := .returned (some .context), observed := true }
  | joinNil (h : c.pc = .join) (hd : c.ctxDone = false) (he : c.workErrors = []) :
      Stepped _ _ c .tau { c with pc := .returned none }
  | joinErrors (h : c.pc = .join) (hd : c.ctxDone = false) (he : c.workErrors ≠ []) :
      Stepped _ _ c .tau { c with pc := .returned (some (.dispatch c.workErrors)) }
  | selectDone (h : c.pc = .select) (hd : c.ctxDone = true) : Stepped _ _ c .selectDone
      { c with pc := .loop, observed := true }
  | receive {err : Option E} {rest : List (Option E)} (h : c.pc = .select)
      (hr : c.results = err :: rest) : Stepped _ _ c .receive
      { c with
        results := rest
        active := c.active - 1
        heartbeats := c.heartbeats + [err].countP (progressed isMonitorCheckError)
        workErrors := c.workErrors ++ otherErrors isMonitorCheckError [err]
        pc := .received }
  | drainReceive {err : Option E} {rest : List (Option E)} (h : c.pc = .drain)
      (hr : c.results = err :: rest) : Stepped _ _ c .receive
      { c with results := rest, active := c.active - 1 }
  | workReturns {i : Nat} {err : Option E} (hi : i ∈ c.running) :
      Stepped _ _ c (.workReturns i err)
      { c with
        running := c.running.erase i
        results := c.results ++ [err]
        ended := c.ended ++ [(i, err)] }
  | cancel (hd : c.ctxDone = false) : Stepped _ _ c .cancel { c with ctxDone := true }

theorem tau_cases {isMonitorCheckError : E → Bool} {concurrency : Int} {c c' : Cycle T E}
    (h : c.tau concurrency = some c') : Stepped isMonitorCheckError concurrency c .tau c' := by
  unfold tau at h
  split at h
  case h_1 hpc =>
    split at h <;> cases h
    · exact .fetchedDone hpc ‹_›
    · exact .fetchedGo hpc (by simpa using ‹¬ c.ctxDone = true›)
  case h_2 hpc =>
    split at h <;> cases h
    · exact .empty hpc (List.length_eq_zero_iff.mp ‹_›)
    · exact .nonempty hpc (fun e => ‹¬ _› (by simp [e]))
  case h_3 hpc =>
    split at h <;> cases h
    · rename_i hf
      exact .fill hpc hf.1 hf.2
    · exact .filled hpc (by omega)
  case h_4 hpc =>
    split at h
    · split at h <;> cases h
      · exact .loopDone hpc ‹_› ‹_›
      · exact .loopSelect hpc ‹_› (by simpa using ‹¬ c.ctxDone = true›)
    · cases h
      exact .loopEnd hpc (by omega)
  case h_5 hpc =>
    split at h
    · cases h
      exact .receivedDone hpc ‹_›
    · split at h <;> cases h
      · exact .receivedMore hpc (by simpa using ‹¬ c.ctxDone = true›) ‹_›
      · exact .receivedLast hpc (by omega)
  case h_6 hpc =>
    cases h
    exact .refill hpc
  case h_7 hpc =>
    split at h <;> cases h
    exact .drained hpc (by omega)
  case h_8 hpc =>
    split at h
    · cases h
      exact .joinDone hpc ‹_›
    · have hd : c.ctxDone = false := by simpa using ‹¬ c.ctxDone = true›
      split at h <;> cases h
      · exact .joinNil hpc hd ‹_›
      · exact .joinErrors hpc hd ‹_›
  case h_9 => cases h

theorem step_cases {isMonitorCheckError : E → Bool} {concurrency : Int} {c c' : Cycle T E}
    {a : Action T E} (h : c.step isMonitorCheckError concurrency a = some c') :
    Stepped isMonitorCheckError concurrency c a c' := by
  unfold step at h
  split at h
  case h_1 hpc => cases h; exact .fetchError hpc
  case h_2 hpc => cases h; exact .fetchOk hpc
  case h_3 => exact tau_cases h
  case h_4 hpc =>
    split at h <;> cases h
    exact .selectDone hpc ‹_›
  case h_5 hpc =>
    split at h <;> cases h
    rw [settle_eq]
    exact .receive hpc ‹_›
  case h_6 hpc =>
    split at h
    · cases h
    · split at h <;> cases h
      exact .drainReceive hpc ‹_›
  case h_7 =>
    split at h <;> cases h
    exact .workReturns ‹_›
  case h_8 =>
    split at h <;> cases h
    exact .cancel (by simpa using ‹¬ c.ctxDone = true›)
  case h_9 => cases h

/-! ### The invariant -/

/-- No further item can be started before a result is received. -/
def Saturated (concurrency : Int) (c : Cycle T E) (free : Nat) : Prop :=
  c.next = c.items.length ∨ (c.active : Int) + free = limit concurrency

/-- What holds at each statement. -/
def Here (concurrency : Int) (c : Cycle T E) : Prop :=
  match c.pc with
  | .fetch =>
      c.items = [] ∧ c.next = 0 ∧ c.active = 0 ∧ c.heartbeats = 0 ∧ c.workErrors = [] ∧
        c.observed = false
  | .fetched | .dispatch =>
      c.next = 0 ∧ c.active = 0 ∧ c.heartbeats = 0 ∧ c.workErrors = [] ∧ c.observed = false
  | .fill => c.items ≠ [] ∧ c.observed = false
  | .loop =>
      c.items ≠ [] ∧ (c.observed = true → c.ctxDone = true) ∧
        (c.observed = false → Saturated concurrency c 0)
  | .select => c.items ≠ [] ∧ 0 < c.active ∧ c.observed = false ∧ Saturated concurrency c 0
  | .received => c.items ≠ [] ∧ c.observed = false ∧ Saturated concurrency c 1
  | .refill =>
      c.next < c.items.length ∧ c.observed = false ∧ (c.active : Int) + 1 = limit concurrency
  | .drain => c.observed = true ∧ c.ctxDone = true
  | .join =>
      c.items ≠ [] ∧ c.active = 0 ∧ (c.observed = true → c.ctxDone = true) ∧
        (c.observed = false → c.next = c.items.length)
  | .returned err =>
      c.active = 0 ∧ (c.observed = true ↔ err = some .context) ∧
        ((∃ e, err = some (.fetchDueMonitors e)) → c.next = 0 ∧ c.heartbeats = 0) ∧
        ((∀ e, err ≠ some (.fetchDueMonitors e)) → c.observed = false →
          c.next = c.items.length ∧ (c.items = [] → c.heartbeats = 1 ∧ err = none) ∧
            (c.items ≠ [] → (err = none ↔ c.workErrors = []) ∧
              (err ≠ none → err = some (.dispatch c.workErrors))))

/-- The invariant of a cycle. -/
structure Inv (isMonitorCheckError : E → Bool) (concurrency : Int) (c : Cycle T E) : Prop where
  /-- `active` counts the goroutines whose result has not been received. -/
  count : c.active = c.running.length + c.results.length
  bound : (c.active : Int) ≤ limit concurrency
  order : c.started = List.range c.next
  inItems : c.next ≤ c.items.length
  /-- Every started item runs or has ended, and not both. -/
  accounted : (c.running ++ c.ended.map Prod.fst).Perm (List.range c.next)
  /-- The results received so far, and what was done with them. -/
  settled : ∃ received, c.ended.map Prod.snd = received ++ c.results ∧
    (c.observed = false → c.items ≠ [] →
      c.heartbeats = received.countP (progressed isMonitorCheckError) ∧
      c.workErrors = otherErrors isMonitorCheckError received)
  here : Here concurrency c

/-- The call of the next cycle, under the same context. -/
def again (c : Cycle T E) : Cycle T E := { Cycle.start T E with ctxDone := c.ctxDone }

theorem inv_again (isMonitorCheckError : E → Bool) (concurrency : Int) (c : Cycle T E) :
    Inv isMonitorCheckError concurrency c.again where
  count := rfl
  bound := by
    rw [limit_eq_max]
    simp only [again, Cycle.start]
    omega
  order := rfl
  inItems := Nat.le_refl _
  accounted := .nil
  settled := ⟨[], by simp [again, Cycle.start, otherErrors]⟩
  here := by simp [Here, again, Cycle.start]

theorem inv_start (isMonitorCheckError : E → Bool) (concurrency : Int) :
    Inv isMonitorCheckError concurrency (Cycle.start T E) :=
  inv_again isMonitorCheckError concurrency (Cycle.start T E)

theorem accounted_startWork {c : Cycle T E}
    (h : (c.running ++ c.ended.map Prod.fst).Perm (List.range c.next)) :
    (c.startWork.running ++ c.startWork.ended.map Prod.fst).Perm
      (List.range c.startWork.next) := by
  simp only [startWork, List.cons_append, List.range_succ]
  exact (h.cons _).trans (List.perm_append_singleton _ _).symm

theorem accounted_workReturns {c : Cycle T E} {i : Nat} (err : Option E) (hi : i ∈ c.running)
    (h : (c.running ++ c.ended.map Prod.fst).Perm (List.range c.next)) :
    (c.running.erase i ++ (c.ended ++ [(i, err)]).map Prod.fst).Perm (List.range c.next) := by
  refine List.Perm.trans ?_ h
  rw [List.map_append, List.map_singleton, ← List.append_assoc]
  refine (List.perm_append_singleton _ _).trans ?_
  exact ((List.perm_cons_erase hi).append_right _).symm

/-- A step that only moves the function on. -/
theorem Inv.move {isMonitorCheckError : E → Bool} {concurrency : Int} {c : Cycle T E}
    (h : Inv isMonitorCheckError concurrency c) (pc : Pc E) {observed : Bool}
    (ho : observed = false → c.observed = false)
    (hh : Here concurrency { c with pc := pc, observed := observed }) :
    Inv isMonitorCheckError concurrency { c with pc := pc, observed := observed } where
  count := h.count
  bound := h.bound
  order := h.order
  inItems := h.inItems
  accounted := h.accounted
  settled := by
    obtain ⟨received, hr, hs⟩ := h.settled
    exact ⟨received, hr, fun hof => hs (ho hof)⟩
  here := hh

/-- A step that starts the next item. -/
theorem Inv.start {isMonitorCheckError : E → Bool} {concurrency : Int} {c : Cycle T E}
    (h : Inv isMonitorCheckError concurrency c) (pc : Pc E) (hn : c.next < c.items.length)
    (ha : (c.active : Int) < limit concurrency)
    (hh : Here concurrency { c.startWork with pc := pc }) :
    Inv isMonitorCheckError concurrency { c.startWork with pc := pc } where
  count := by
    have := h.count
    simp only [startWork, List.length_cons]
    omega
  bound := by
    simp only [startWork]
    push_cast
    omega
  order := by simp [startWork, h.order, List.range_succ]
  inItems := hn
  accounted := accounted_startWork h.accounted
  settled := h.settled
  here := hh

theorem ended_eq_nil {isMonitorCheckError : E → Bool} {concurrency : Int} {c : Cycle T E}
    (h : Inv isMonitorCheckError concurrency c) (hn : c.next = 0) : c.ended = [] := by
  have hp := h.accounted
  rw [hn, List.range_zero] at hp
  simpa using (List.append_eq_nil_iff.mp hp.eq_nil).2

theorem not_observed {c : Cycle T E} (ho : c.observed = true → c.ctxDone = true)
    (hd : c.ctxDone = false) : c.observed = false := by
  cases hob : c.observed with
  | false => rfl
  | true => simp [ho hob] at hd

/-- The step that gets the due monitors. -/
theorem Inv.fetched {isMonitorCheckError : E → Bool} {concurrency : Int} {c : Cycle T E}
    (h : Inv isMonitorCheckError concurrency c) (hpc : c.pc = .fetch) (items : List T) :
    Inv isMonitorCheckError concurrency { c with items := items, pc := .fetched } := by
  have hh := h.here
  simp only [Here, hpc] at hh
  obtain ⟨-, hn, ha, hb, he, ho⟩ := hh
  have hend := ended_eq_nil h hn
  have hres : c.results = [] := by
    have := h.count
    exact List.eq_nil_of_length_eq_zero (by omega)
  exact {
    count := h.count
    bound := h.bound
    order := h.order
    inItems := by simp [hn]
    accounted := h.accounted
    settled := ⟨[], by simp [hend, hres, hb, he, otherErrors]⟩
    here := by simp [Here, hn, ha, hb, he, ho] }

/-- A step that takes a result off the channel. What it does with the result matters while the
cancellation has not been observed. -/
theorem Inv.takes {isMonitorCheckError : E → Bool} {concurrency : Int} {c : Cycle T E}
    (h : Inv isMonitorCheckError concurrency c) {err : Option E} {rest : List (Option E)}
    (hr : c.results = err :: rest) (pc : Pc E) {heartbeats : Nat} {workErrors : List E}
    (hset : c.observed = false →
      heartbeats = c.heartbeats + [err].countP (progressed isMonitorCheckError) ∧
        workErrors = c.workErrors ++ otherErrors isMonitorCheckError [err])
    (hh : Here concurrency { c with
      results := rest
      active := c.active - 1
      heartbeats := heartbeats
      workErrors := workErrors
      pc := pc }) :
    Inv isMonitorCheckError concurrency { c with
      results := rest
      active := c.active - 1
      heartbeats := heartbeats
      workErrors := workErrors
      pc := pc } := by
  obtain ⟨received, hrec, hsettled⟩ := h.settled
  have hcount := h.count
  have hbound := h.bound
  rw [hr] at hcount hrec
  simp only [List.length_cons] at hcount
  exact {
    count := by
      show c.active - 1 = c.running.length + rest.length
      omega
    bound := by
      show ((c.active - 1 : Nat) : Int) ≤ _
      omega
    order := h.order
    inItems := h.inItems
    accounted := h.accounted
    settled := by
      refine ⟨received ++ [err], by simp [hrec], fun ho hi => ?_⟩
      obtain ⟨hb, he⟩ := hsettled ho hi
      obtain ⟨hb', he'⟩ := hset ho
      refine ⟨?_, ?_⟩
      · show heartbeats = _
        rw [hb', hb, List.countP_append]
      · show workErrors = _
        rw [he', he]
        simp only [otherErrors, List.filterMap_append]
    here := hh }

theorem Inv.workReturns {isMonitorCheckError : E → Bool} {concurrency : Int} {c : Cycle T E}
    (h : Inv isMonitorCheckError concurrency c) {i : Nat} (err : Option E)
    (hi : i ∈ c.running) :
    Inv isMonitorCheckError concurrency { c with
      running := c.running.erase i
      results := c.results ++ [err]
      ended := c.ended ++ [(i, err)] } where
  count := by
    have hlen := List.length_erase_of_mem hi
    have hpos : 0 < c.running.length := List.length_pos_of_mem hi
    have := h.count
    simp only [List.length_append, List.length_singleton]
    omega
  bound := h.bound
  order := h.order
  inItems := h.inItems
  accounted := accounted_workReturns err hi h.accounted
  settled := by
    obtain ⟨received, hrec, hset⟩ := h.settled
    exact ⟨received, by simp [hrec], hset⟩
  here := h.here

/-- No statement relies on the context not being cancelled. -/
theorem Inv.cancel {isMonitorCheckError : E → Bool} {concurrency : Int} {c : Cycle T E}
    (h : Inv isMonitorCheckError concurrency c) :
    Inv isMonitorCheckError concurrency { c with ctxDone := true } where
  count := h.count
  bound := h.bound
  order := h.order
  inItems := h.inItems
  accounted := h.accounted
  settled := h.settled
  here := by
    have hh := h.here
    unfold Here at hh ⊢
    dsimp only
    split at hh <;> simp_all [Saturated]

/-- **The invariant is kept by every step.** -/
theorem Inv.step {isMonitorCheckError : E → Bool} {concurrency : Int} {c c' : Cycle T E}
    {a : Action T E} (h : Inv isMonitorCheckError concurrency c)
    (hs : c.step isMonitorCheckError concurrency a = some c') :
    Inv isMonitorCheckError concurrency c' := by
  have hh := h.here
  cases step_cases hs with
  | fetchError hpc =>
      simp only [Here, hpc] at hh
      exact h.move _ id (by simp [Here, hh])
  | fetchOk hpc => exact h.fetched hpc _
  | fetchedDone hpc hd | joinDone hpc hd =>
      simp only [Here, hpc] at hh
      exact h.move _ (by simp) (by simp [Here, hh])
  | fetchedGo hpc hd =>
      simp only [Here, hpc] at hh
      exact h.move _ id (by simp [Here, hh])
  | empty hpc hi =>
      simp only [Here, hpc] at hh
      obtain ⟨hn, ha, hb, he, ho⟩ := hh
      obtain ⟨received, hr, -⟩ := h.settled
      -- the one heartbeat of an empty batch comes from no result
      exact {
        count := h.count
        bound := h.bound
        order := h.order
        inItems := h.inItems
        accounted := h.accounted
        settled := ⟨received, hr, fun _ hne => absurd hi hne⟩
        here := by simp [Here, hn, ha, hb, ho, hi] }
  | nonempty hpc hi =>
      simp only [Here, hpc] at hh
      exact h.move _ id (by simp [Here, hh, hi])
  | fill hpc hn ha =>
      simp only [Here, hpc] at hh
      have hkeep : { c.startWork with pc := .fill } = c.startWork := by
        rw [← hpc]
        rfl
      exact hkeep ▸ h.start .fill hn ha (by simp [Here, startWork, hh])
  | filled hpc hf =>
      simp only [Here, hpc] at hh
      refine h.move _ id ?_
      have hin := h.inItems
      have hb := h.bound
      have hsat : Saturated concurrency { c with pc := .loop } 0 := by
        simp only [Saturated]
        omega
      exact ⟨hh.1, by simp [hh.2], fun _ => hsat⟩
  | loopDone hpc ha hd =>
      simp only [Here, hpc] at hh
      exact h.move _ (by simp) (by simp [Here, hd])
  | loopSelect hpc ha hd =>
      simp only [Here, hpc] at hh
      obtain ⟨hi, ho, hsat⟩ := hh
      have hof := not_observed ho hd
      exact h.move _ id ⟨hi, ha, hof, hsat hof⟩
  | loopEnd hpc ha =>
      simp only [Here, hpc] at hh
      obtain ⟨hi, ho, hsat⟩ := hh
      refine h.move _ id ⟨hi, ha, ho, fun hof => (hsat hof).resolve_right fun hl => ?_⟩
      -- nothing active and no free slot: the limit would be zero
      have := limit_eq_max concurrency
      rw [ha] at hl
      omega
  | receivedDone hpc hd | selectDone hpc hd =>
      simp only [Here, hpc] at hh
      exact h.move _ (by simp) (by simp [Here, hd, hh])
  | receivedMore hpc hd hn =>
      simp only [Here, hpc] at hh
      obtain ⟨hi, ho, hsat⟩ := hh
      refine h.move _ id ⟨hn, ho, ?_⟩
      have := hsat.resolve_left (by omega)
      simpa using this
  | receivedLast hpc hn =>
      simp only [Here, hpc] at hh
      obtain ⟨hi, ho, hsat⟩ := hh
      have hin := h.inItems
      exact h.move _ id ⟨hi, by simp [ho], fun _ => Or.inl (by show c.next = c.items.length; omega)⟩
  | refill hpc =>
      simp only [Here, hpc] at hh
      obtain ⟨hn, ho, ha⟩ := hh
      -- the received result freed the one slot that the next item takes
      refine h.start .loop hn (by omega) ⟨?_, ?_, fun _ => Or.inr ?_⟩
      · exact List.ne_nil_of_length_pos (Nat.zero_lt_of_lt hn)
      · simp [startWork, ho]
      · simp only [startWork]
        push_cast
        omega
  | drained hpc ha =>
      simp only [Here, hpc] at hh
      exact h.move _ id (by simp [Here, ha, hh])
  | joinNil hpc hd he | joinErrors hpc hd he =>
      simp only [Here, hpc] at hh
      obtain ⟨hi, ha, ho, hn⟩ := hh
      have hof := not_observed ho hd
      exact h.move _ id (by simp [Here, ha, hof, hn hof, hi, he])
  | receive hpc hr =>
      simp only [Here, hpc] at hh
      obtain ⟨hi, ha, ho, hsat⟩ := hh
      refine h.takes hr .received (fun _ => ⟨rfl, rfl⟩) ⟨hi, ho, hsat.imp id fun hl => ?_⟩
      show ((c.active - 1 : Nat) : Int) + (1 : Nat) = _
      omega
  | @drainReceive err rest hpc hr =>
      simp only [Here, hpc] at hh
      have hkeep : { c with results := rest, active := c.active - 1, pc := .drain } =
          { c with results := rest, active := c.active - 1 } := by
        rw [← hpc]
      -- drained results count for nothing: the cancellation has been observed
      exact hkeep ▸ h.takes hr .drain (by simp [hh]) (by simp [Here, hh])
  | workReturns hi => exact h.workReturns _ hi
  | cancel hd => exact h.cancel

/-- What a step does to the items: they are fetched, the next one is started, one has ended, or
nothing. -/
inductive ItemStep (c : Cycle T E) : Action T E → Cycle T E → Prop where
  | fetched {items : List T} {c' : Cycle T E} (hn : c.next = 0) (hitems : c'.items = items)
      (hnext : c'.next = 0) (hrunning : c'.running = c.running) :
      ItemStep c (.fetch (.ok items)) c'
  | started {a : Action T E} {c' : Cycle T E} (hn : c.next < c.items.length)
      (hitems : c'.items = c.items) (hnext : c'.next = c.next + 1)
      (hrunning : c'.running = c.next :: c.running) : ItemStep c a c'
  | ended {i : Nat} {err : Option E} {c' : Cycle T E} (hitems : c'.items = c.items)
      (hnext : c'.next = c.next) (hrunning : c'.running = c.running.erase i) :
      ItemStep c (.workReturns i err) c'
  | nothing {a : Action T E} {c' : Cycle T E} (hitems : c'.items = c.items)
      (hnext : c'.next = c.next) (hrunning : c'.running = c.running) : ItemStep c a c'

theorem Inv.itemStep {isMonitorCheckError : E → Bool} {concurrency : Int} {c c' : Cycle T E}
    {a : Action T E} (h : Inv isMonitorCheckError concurrency c)
    (hs : c.step isMonitorCheckError concurrency a = some c') : ItemStep c a c' := by
  have hhere := h.here
  cases step_cases hs with
  | fetchOk hpc =>
      simp only [Here, hpc] at hhere
      exact .fetched hhere.2.1 rfl hhere.2.1 rfl
  | fill hpc hn => exact .started hn rfl rfl rfl
  | refill hpc =>
      simp only [Here, hpc] at hhere
      exact .started hhere.1 rfl rfl rfl
  | workReturns => exact .ended rfl rfl rfl
  | fetchError | fetchedDone | fetchedGo | empty | nonempty | filled | loopDone | loopSelect
  | loopEnd | receivedDone | receivedMore | receivedLast | drained | joinDone | joinNil
  | joinErrors | selectDone | receive | drainReceive | cancel => exact .nothing rfl rfl rfl


theorem inv_of_run {isMonitorCheckError : E → Bool} {concurrency : Int}
    {as : List (Action T E)} {c : Cycle T E}
    (h : Run (step isMonitorCheckError concurrency) (Cycle.start T E) as c) :
    Inv isMonitorCheckError concurrency c :=
  h.invariant (fun _ _ _ hi hs => hi.step hs) (inv_start _ _)

/-! ### Cancellation -/

/-- The function finds the context done only when it is, and starts nothing afterwards. -/
theorem observed_step {isMonitorCheckError : E → Bool} {concurrency : Int} {c c' : Cycle T E}
    {a : Action T E} (h : Inv isMonitorCheckError concurrency c)
    (hs : c.step isMonitorCheckError concurrency a = some c') (ho : c.observed = true) :
    c'.observed = true ∧ c'.started = c.started := by
  have hh := h.here
  cases step_cases hs with
  | fill hpc => simp [Here, hpc, ho] at hh
  | refill hpc => simp [Here, hpc, ho] at hh
  | _ => exact ⟨by simp [ho], rfl⟩

theorem ctxDone_of_observed {isMonitorCheckError : E → Bool} {concurrency : Int}
    {as : List (Action T E)} {c : Cycle T E}
    (h : Run (step isMonitorCheckError concurrency) (Cycle.start T E) as c) :
    c.observed = true → c.ctxDone = true := by
  refine h.invariant (I := fun c => c.observed = true → c.ctxDone = true)
    (fun c a c' hi hs => ?_) (by simp [Cycle.start])
  cases step_cases hs with
  | fetchedDone _ hd => exact fun _ => hd
  | loopDone _ _ hd => exact fun _ => hd
  | receivedDone _ hd => exact fun _ => hd
  | joinDone _ hd => exact fun _ => hd
  | selectDone _ hd => exact fun _ => hd
  | cancel => exact fun _ => rfl
  | _ => exact hi

theorem ctxDone_of_cancel {isMonitorCheckError : E → Bool} {concurrency : Int}
    {as : List (Action T E)} {c : Cycle T E}
    (h : Run (step isMonitorCheckError concurrency) (Cycle.start T E) as c) :
    c.ctxDone = true ↔ Action.cancel ∈ as := by
  refine h.induct_last (P := fun as c => c.ctxDone = true ↔ Action.cancel ∈ as)
    (by simp [Cycle.start]) fun as c a c' _ ih hs => ?_
  have hmem : Action.cancel ∈ as ++ [a] ↔ Action.cancel ∈ as ∨ Action.cancel = a := by simp
  rw [hmem, ← ih]
  cases step_cases hs with
  | cancel => simp
  | _ => simp [startWork]

/-- The context is done and the function will look at it again before it returns, or has. -/
def Doomed (c : Cycle T E) : Prop :=
  c.ctxDone = true ∧
    match c.pc with
    | .fetch => False
    | .dispatch => c.items ≠ []
    | .returned err => err = some .context
    | _ => True

theorem Doomed.step {isMonitorCheckError : E → Bool} {concurrency : Int} {c c' : Cycle T E}
    {a : Action T E} (h : Doomed c)
    (hs : c.step isMonitorCheckError concurrency a = some c') : Doomed c' := by
  obtain ⟨hd, hp⟩ := h
  cases step_cases hs with
  | fetchError hpc => simp [hpc] at hp
  | fetchOk hpc => simp [hpc] at hp
  | fetchedGo _ hf => simp [hd] at hf
  | empty hpc hi => simp [hpc, hi] at hp
  | joinNil _ hf => simp [hd] at hf
  | joinErrors _ hf => simp [hd] at hf
  | fill hpc => simp [Doomed, startWork, hd, hpc]
  | drainReceive => exact ⟨hd, hp⟩
  | workReturns => exact ⟨hd, hp⟩
  | cancel hf => simp [hd] at hf
  | _ => simp [Doomed, startWork, hd]

/-! ### Termination -/

/-- A weight for the statement the function is at. -/
def rank (pc : Pc E) (observed : Bool) : Nat :=
  match pc with
  | .fetch => 11
  | .fetched => 10
  | .dispatch => 8
  | .fill => 7
  | .loop => if observed then 2 else 5
  | .select => 4
  | .received => 8
  | .refill => 6
  | .drain => 1
  | .join => 1
  | .returned _ => 0

/-- What is left to do: items not started, goroutines, results, the function's own way. -/
def remaining (c : Cycle T E) : Nat :=
  8 * (c.items.length - c.next) + 6 * c.running.length + 5 * c.results.length +
    rank c.pc c.observed + if c.ctxDone then 0 else 1

/-- Every step but the fetch leaves less to do. -/
theorem remaining_step {isMonitorCheckError : E → Bool} {concurrency : Int} {c c' : Cycle T E}
    {a : Action T E} (h : Inv isMonitorCheckError concurrency c)
    (hs : c.step isMonitorCheckError concurrency a = some c') (hf : c.pc ≠ .fetch ∨ a = .cancel) :
    c'.items = c.items ∧ c'.remaining < c.remaining := by
  have hh := h.here
  cases step_cases hs with
  | fetchError hpc => simp [hpc] at hf
  | fetchOk hpc => simp [hpc] at hf
  | fill hpc hn ha =>
      refine ⟨rfl, ?_⟩
      simp only [remaining, rank, startWork, hpc, List.length_cons]
      omega
  | refill hpc =>
      simp only [Here, hpc] at hh
      refine ⟨rfl, ?_⟩
      simp only [remaining, rank, startWork, hpc, List.length_cons, hh.2.1]
      simp only [Bool.false_eq_true, if_false]
      omega
  | receive hpc hr =>
      refine ⟨rfl, ?_⟩
      simp only [remaining, rank, hpc, hr, List.length_cons]
      omega
  | drainReceive hpc hr =>
      refine ⟨rfl, ?_⟩
      simp only [remaining, rank, hpc, hr, List.length_cons]
      omega
  | workReturns hi =>
      refine ⟨rfl, ?_⟩
      have hlen := List.length_erase_of_mem hi
      have hpos := List.length_pos_of_mem hi
      simp only [remaining, List.length_append, List.length_singleton, hlen]
      omega
  | cancel hd =>
      refine ⟨rfl, ?_⟩
      simp [remaining, hd]
  | loopSelect hpc ha hd =>
      simp only [Here, hpc] at hh
      have hof := not_observed hh.2.1 hd
      refine ⟨rfl, ?_⟩
      simp only [remaining, rank, hpc, hof]
      simp
  | filled hpc =>
      simp only [Here, hpc] at hh
      refine ⟨rfl, ?_⟩
      simp only [remaining, rank, hpc, hh.2]
      simp
  | receivedLast hpc =>
      simp only [Here, hpc] at hh
      refine ⟨rfl, ?_⟩
      simp only [remaining, rank, hpc, hh.2.1]
      simp
  | loopDone hpc | loopEnd hpc =>
      refine ⟨rfl, ?_⟩
      simp only [remaining, rank, hpc]
      split <;> split <;> omega
  | fetchedDone hpc | fetchedGo hpc | empty hpc | nonempty hpc | receivedDone hpc
  | receivedMore hpc | drained hpc | joinDone hpc | joinNil hpc | joinErrors hpc
  | selectDone hpc =>
      refine ⟨rfl, ?_⟩
      simp [remaining, rank, hpc]

/-- A run of a cycle is at most this long: no schedule of the goroutines keeps it going. -/
theorem length_run {isMonitorCheckError : E → Bool} {concurrency : Int}
    {as : List (Action T E)} {c : Cycle T E}
    (h : Run (step isMonitorCheckError concurrency) (Cycle.start T E) as c) :
    as.length + c.remaining ≤ 8 * c.items.length + 12 := by
  refine h.induct_last (P := fun as c => as.length + c.remaining ≤ 8 * c.items.length + 12)
    (by simp [remaining, rank, Cycle.start]) fun as c a c' hr ih hs => ?_
  have hinv := inv_of_run hr
  rw [List.length_append, List.length_singleton]
  by_cases hf : c.pc ≠ .fetch ∨ a = .cancel
  · obtain ⟨hi, hlt⟩ := remaining_step hinv hs hf
    rw [hi]
    omega
  · -- the fetch brings the items that the rest of the run is bounded by
    push Not at hf
    obtain ⟨hpc, hna⟩ := hf
    have hh := hinv.here
    simp only [Here, hpc] at hh
    have hcount := hinv.count
    cases step_cases hs with
    | fetchError =>
        simp only [remaining, rank, hpc] at ih ⊢
        omega
    | fetchOk =>
        simp only [remaining, rank, hpc, hh.1] at ih ⊢
        simp only [List.length_nil] at ih
        omega
    | workReturns hi =>
        have := List.length_pos_of_mem hi
        omega
    | cancel => exact absurd rfl hna
    | _ => simp_all

/-- A cycle that has not returned can go on without the context being cancelled: the function
or a goroutine has a step. -/
theorem progress {isMonitorCheckError : E → Bool} {concurrency : Int} {c : Cycle T E}
    (h : Inv isMonitorCheckError concurrency c) (hr : ∀ err, c.pc ≠ .returned err) :
    ∃ a, a ≠ Action.cancel ∧ (c.step isMonitorCheckError concurrency a).isSome := by
  -- where the function waits for a result that is not there, a goroutine still runs
  have hwork : 0 < c.running.length → ∃ a, a ≠ Action.cancel ∧
      (c.step isMonitorCheckError concurrency a).isSome := fun hpos => by
    obtain ⟨i, hi⟩ := List.exists_mem_of_length_pos hpos
    exact ⟨.workReturns i none, by simp, by simp [step, hi]⟩
  have hh := h.here
  have hcount := h.count
  cases hpc : c.pc with
  | fetch => exact ⟨.fetch (.ok []), by simp, by simp [step, hpc]⟩
  | returned err => exact absurd hpc (hr err)
  | select =>
      simp only [Here, hpc] at hh
      cases hres : c.results with
      | nil =>
          rw [hres, List.length_nil] at hcount
          exact hwork (by omega)
      | cons r rest => exact ⟨.receive, by simp, by simp [step, hpc, hres]⟩
  | drain =>
      by_cases ha : 0 < c.active
      · cases hres : c.results with
        | nil =>
            rw [hres, List.length_nil] at hcount
            exact hwork (by omega)
        | cons r rest => exact ⟨.receive, by simp, by simp [step, hpc, hres, ha]⟩
      · exact ⟨.tau, by simp, by simp [step, tau, hpc, ha]⟩
  | join =>
      refine ⟨.tau, by simp, ?_⟩
      simp only [step, tau, hpc]
      split
      · rfl
      · split <;> rfl
  | _ =>
      refine ⟨.tau, by simp, ?_⟩
      simp only [step, tau, hpc]
      repeat' split
      all_goals rfl

/-! ### The schedule -/

/-- After the fetch the items stay, and the error of a failed one is what the call returns. -/
theorem fetched_step {isMonitorCheckError : E → Bool} {concurrency : Int} {c c' : Cycle T E}
    {a : Action T E} (ha : ∀ result, a ≠ .fetch result)
    (hs : c.step isMonitorCheckError concurrency a = some c') :
    c'.items = c.items ∧ (c.pc ≠ .fetch → c'.pc ≠ .fetch) ∧
      ∀ e, c'.pc = .returned (some (.fetchDueMonitors e)) ↔
        c.pc = .returned (some (.fetchDueMonitors e)) := by
  cases step_cases hs with
  | fetchError | fetchOk => exact absurd rfl (ha _)
  | fill | drainReceive | workReturns | cancel => exact ⟨rfl, id, fun _ => Iff.rfl⟩
  | fetchedDone hpc | fetchedGo hpc | empty hpc | nonempty hpc | filled hpc | loopDone hpc
  | loopSelect hpc | loopEnd hpc | receivedDone hpc | receivedMore hpc | receivedLast hpc
  | refill hpc | drained hpc | joinDone hpc | joinNil hpc | joinErrors hpc | selectDone hpc
  | receive hpc =>
      refine ⟨rfl, fun _ h => ?_, fun e => ⟨fun h => ?_, fun h => ?_⟩⟩
      · cases h
      · cases h
      · rw [hpc] at h
        cases h

/-- How the fetch of a run went is what the state says of it. -/
theorem fetch_of_run {isMonitorCheckError : E → Bool} {concurrency : Int}
    {as : List (Action T E)} {c : Cycle T E}
    (h : Run (step isMonitorCheckError concurrency) (Cycle.start T E) as c) :
    (∀ items, Action.fetch (.ok items) ∈ as →
      c.items = items ∧ c.pc ≠ .fetch ∧ ∀ e, c.pc ≠ .returned (some (.fetchDueMonitors e))) ∧
    (∀ e, Action.fetch (.error e) ∈ as → c.pc = .returned (some (.fetchDueMonitors e))) := by
  refine h.induct_last (P := fun as c =>
    (∀ items, Action.fetch (.ok items) ∈ as →
      c.items = items ∧ c.pc ≠ .fetch ∧ ∀ e, c.pc ≠ .returned (some (.fetchDueMonitors e))) ∧
    (∀ e, Action.fetch (.error e) ∈ as → c.pc = .returned (some (.fetchDueMonitors e))))
    (by simp) fun as c a c' hr ⟨hok, herr⟩ hs => ?_
  by_cases ha : ∃ result, a = .fetch result
  · obtain ⟨result, rfl⟩ := ha
    cases step_cases hs with
    | fetchError hpc =>
        refine ⟨fun items hm => ?_, fun e hm => ?_⟩
        · exact absurd hpc (hok items (by simpa using hm)).2.1
        · rcases List.mem_append.mp hm with hm | hm
          · have hreturned := herr e hm
            rw [hpc] at hreturned
            cases hreturned
          · cases List.mem_singleton.mp hm
            rfl
    | fetchOk hpc =>
        refine ⟨fun items hm => ?_, fun e hm => ?_⟩
        · rcases List.mem_append.mp hm with hm | hm
          · exact absurd hpc (hok items hm).2.1
          · cases List.mem_singleton.mp hm
            exact ⟨rfl, by simp, by simp⟩
        · have hreturned := herr e (by simpa using hm)
          rw [hpc] at hreturned
          cases hreturned
  · have ha : ∀ result, a ≠ .fetch result := fun result heq => ha ⟨result, heq⟩
    obtain ⟨hitems, hfetch, hreturned⟩ := fetched_step ha hs
    have hbefore : ∀ result, .fetch result ∈ as ++ [a] → .fetch result ∈ as := by
      intro result hm
      refine (List.mem_append.mp hm).resolve_right fun hm => ?_
      exact ha result (List.mem_singleton.mp hm).symm
    refine ⟨fun items hm => ?_, fun e hm => (hreturned e).mpr (herr e (hbefore _ hm))⟩
    obtain ⟨hi, hpc, hne⟩ := hok items (hbefore _ hm)
    exact ⟨hitems.trans hi, hfetch hpc, fun e he => hne e ((hreturned e).mp he)⟩

/-- What `runPollCycle` guarantees of the state `c` reached by the actions `as`. -/
structure Schedule (isMonitorCheckError : E → Bool) (concurrency : Int)
    (as : List (Action T E)) (c : Cycle T E) : Prop where
  /-- At most `max(concurrency, 1)` items are active. -/
  bounded : (c.running.length : Int) ≤ max concurrency 1
  /-- Items are started in list order, and each started item runs or has ended, once. -/
  inOrder : c.started = List.range c.next
  once : (c.running ++ c.ended.map Prod.fst).Perm c.started
  fetched : ∀ items, Action.fetch (.ok items) ∈ as → c.items = items ∧ c.next ≤ items.length
  /-- A failing fetch starts nothing and writes no heartbeat. -/
  fetchFails : ∀ e, Action.fetch (.error e) ∈ as →
    c.pc = .returned (some (.fetchDueMonitors e)) ∧ c.started = [] ∧ c.heartbeats = 0
  /-- Without cancellation every item has ended on return; the heartbeats are the items that
  ended in nil or a `monitorCheckError`, or one for no items; and the result is nil iff no item
  ended in another error, and joins those errors otherwise. -/
  completes : Action.cancel ∉ as → ∀ items, Action.fetch (.ok items) ∈ as →
    ∀ err, c.pc = .returned err →
      (c.ended.map Prod.fst).Perm (List.range items.length) ∧
      (items = [] → c.heartbeats = 1) ∧
      (items ≠ [] →
        c.heartbeats = (c.ended.map Prod.snd).countP (progressed isMonitorCheckError)) ∧
      (err = none ↔ otherErrors isMonitorCheckError (c.ended.map Prod.snd) = []) ∧
      (err ≠ none →
        err = some (.dispatch (otherErrors isMonitorCheckError (c.ended.map Prod.snd))))
  /-- Once the function has found the context done it starts nothing more, and returns the
  context's error. -/
  observes : c.observed = true →
    Action.cancel ∈ as ∧
    (∀ bs c', Run (step isMonitorCheckError concurrency) c bs c' → c'.started = c.started) ∧
    ∀ err, c.pc = .returned err → err = some .context
  /-- A cancellation that a context check is still to come after is found. -/
  cancelled : c.Doomed → ∀ bs c', Run (step isMonitorCheckError concurrency) c bs c' →
    ∀ err, c'.pc = .returned err → err = some .context
  /-- The call returns only after every started item has ended. -/
  waits : ∀ err, c.pc = .returned err → c.running = [] ∧ c.results = []
  /-- The call does return: a run is bounded, and short of the return it can go on. -/
  ends : as.length ≤ 8 * c.items.length + 12
  goesOn : (∀ err, c.pc ≠ .returned err) →
    ∃ a, a ≠ Action.cancel ∧ (c.step isMonitorCheckError concurrency a).isSome

theorem idle_of_returned {isMonitorCheckError : E → Bool} {concurrency : Int} {c : Cycle T E}
    (h : Inv isMonitorCheckError concurrency c) {err : Option (CycleError E)}
    (hpc : c.pc = .returned err) : c.running = [] ∧ c.results = [] := by
  have hh := h.here
  have hcount := h.count
  simp only [Here, hpc] at hh
  exact ⟨List.eq_nil_of_length_eq_zero (by omega), List.eq_nil_of_length_eq_zero (by omega)⟩

/-- The part of the schedule for a run that is not cancelled. -/
theorem completes_of_inv {isMonitorCheckError : E → Bool} {concurrency : Int} {c : Cycle T E}
    (h : Inv isMonitorCheckError concurrency c) {err : Option (CycleError E)}
    (hpc : c.pc = .returned err) (hf : ∀ e, err ≠ some (.fetchDueMonitors e))
    (ho : c.observed = false) :
    (c.ended.map Prod.fst).Perm (List.range c.items.length) ∧
    (c.items = [] → c.heartbeats = 1) ∧
    (c.items ≠ [] →
      c.heartbeats = (c.ended.map Prod.snd).countP (progressed isMonitorCheckError)) ∧
    (err = none ↔ otherErrors isMonitorCheckError (c.ended.map Prod.snd) = []) ∧
    (err ≠ none →
      err = some (.dispatch (otherErrors isMonitorCheckError (c.ended.map Prod.snd)))) := by
  have hh := h.here
  simp only [Here, hpc] at hh
  obtain ⟨-, -, -, hret⟩ := hh
  obtain ⟨hn, hempty, hfull⟩ := hret hf ho
  obtain ⟨hrun, hres⟩ := idle_of_returned h hpc
  have hperm : (c.ended.map Prod.fst).Perm (List.range c.items.length) := by
    simpa [hrun, hn] using h.accounted
  obtain ⟨received, hrec, hset⟩ := h.settled
  rw [hres, List.append_nil] at hrec
  by_cases hi : c.items = []
  · have hend : c.ended = [] := by simpa [hi] using hperm.length_eq
    obtain ⟨hb, rfl⟩ := hempty hi
    simp [hi, hb, hend, otherErrors]
  · obtain ⟨hb, he⟩ := hset ho hi
    obtain ⟨hnil, hjoin⟩ := hfull hi
    rw [hrec, ← he]
    exact ⟨hperm, fun hi' => absurd hi' hi, fun _ => hb, hnil, hjoin⟩

/-- **The poll cycle runs every due item exactly once under its concurrency bound.**  For every
item list, concurrency value, outcome of each item, order of completion and moment of
cancellation: every state a run of `runPollCycle` reaches meets `Schedule`. -/
theorem runPollCycle_schedule {isMonitorCheckError : E → Bool} {concurrency : Int}
    {as : List (Action T E)} {c : Cycle T E}
    (h : Run (step isMonitorCheckError concurrency) (Cycle.start T E) as c) :
    Schedule isMonitorCheckError concurrency as c := by
  have hinv := inv_of_run h
  have hh := hinv.here
  obtain ⟨hok, herr⟩ := fetch_of_run h
  exact {
    bounded := by
      have hcount := hinv.count
      have hbound := hinv.bound
      rw [← limit_eq_max]
      omega
    inOrder := hinv.order
    once := hinv.order ▸ hinv.accounted
    fetched := fun items hm => ⟨(hok items hm).1, (hok items hm).1 ▸ hinv.inItems⟩
    fetchFails := fun e hm => by
      have hpc := herr e hm
      simp only [Here, hpc] at hh
      obtain ⟨hn, hb⟩ := hh.2.2.1 ⟨e, rfl⟩
      exact ⟨hpc, by rw [hinv.order, hn, List.range_zero], hb⟩
    completes := fun hc items hm err hpc => by
      obtain ⟨rfl, -, hf⟩ := hok items hm
      have ho : c.observed = false := by
        by_contra hob
        exact hc ((ctxDone_of_cancel h).mp (ctxDone_of_observed h (by simpa using hob)))
      exact completes_of_inv hinv hpc (fun e he => hf e (he ▸ hpc)) ho
    observes := fun ho => by
      refine ⟨(ctxDone_of_cancel h).mp (ctxDone_of_observed h ho), fun bs c' hrun => ?_,
        fun err hpc => ?_⟩
      · have hkeep := hrun.invariant
          (I := fun d => Inv isMonitorCheckError concurrency d ∧ d.observed = true ∧
            d.started = c.started)
          (fun d a d' ⟨hd, hdo, hds⟩ hs => by
            obtain ⟨ho', hst⟩ := observed_step hd hs hdo
            exact ⟨hd.step hs, ho', hst.trans hds⟩) ⟨hinv, ho, rfl⟩
        exact hkeep.2.2
      · simp only [Here, hpc] at hh
        exact hh.2.1.mp ho
    cancelled := fun hd bs c' hrun err hpc => by
      have hd' : c'.Doomed := hrun.invariant (fun _ _ _ hi hs => hi.step hs) hd
      simpa [Doomed, hpc] using hd'.2
    waits := fun err hpc => idle_of_returned hinv hpc
    ends := by
      have := length_run h
      omega
    goesOn := progress hinv }

/-- Two items under a limit of one: the first ends in a `monitorCheckError`, the second in nil. -/
def twoItems : List (Action Nat Bool) :=
  [.fetch (.ok [7, 8]), .tau, .tau, .tau, .tau, .tau, .workReturns 0 (some true), .receive,
    .tau, .tau, .tau, .workReturns 1 none, .receive, .tau, .tau, .tau]

theorem runPollCycle_schedule_two :
    ∃ c, Run (step id 1) (Cycle.start Nat Bool) twoItems c ∧ c.pc = .returned none ∧
      c.heartbeats = 2 ∧ c.running = [] := by
  have hrun : (exec (step id 1) (Cycle.start Nat Bool) twoItems).isSome = true := rfl
  have h := run_of_exec (Option.some_get hrun).symm
  exact ⟨_, h, rfl, rfl, ((runPollCycle_schedule h).waits none rfl).1⟩

end Cycle

end Sentinel.Worker
