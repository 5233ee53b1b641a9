import Sentinel.Library.Descent
import Sentinel.System.Polling
import Sentinel.Worker.Timers

/-!
# System — Shutdown

`runWithHealth` with the goroutines it starts, the context they share, and the pool that `main`
closes when it has returned.

* `Daemon.step`: the poll loop and its checks, the two background loops (`runDemoResetLoop`,
  `runRetentionLoop`), each with the operations of its programs, and the deferred waits. Where a
  `select` has both its branches ready, either is taken.
* `Daemon.Inv`: what `runWithHealth` has waited for, and that a program that has ended holds no
  connection.
* `shutdown`: the pool is closed after everything that uses it, and once the context is done and
  no further tick is taken, it is closed whatever happens.
-/

namespace Sentinel.System

open Program Database Worker Transition

/-- What `runWithHealth` is called with. -/
structure DaemonConfig where
  registered : List String
  concurrency : Int
  failureThreshold : Int
  demoEmail : String
  manifestPath : String
  resetMinutes : Int
  /-- With its interval. -/
  retention : Option (RetentionConfig × Int)
  unmarshal : String → Except String (List DemoMonitor)

/-- The poll loop's arguments, with the defaults of `runWithHealth`. -/
def DaemonConfig.worker (cfg : DaemonConfig) : WorkerConfig where
  registered := cfg.registered
  thresholds := [if cfg.failureThreshold ≤ 0 then 3 else cfg.failureThreshold]
  concurrency := if cfg.concurrency ≤ 0 then 100 else cfg.concurrency

/-- The loops beside the poll loop. -/
inductive Loop where
  | reset
  | retention
deriving DecidableEq

/-- What a loop does at each tick. Its errors are only logged. -/
def DaemonConfig.pass (cfg : DaemonConfig) : Loop → Client Unit
  | .reset => do
      let _ ← resetDemoAccount cfg.unmarshal cfg.demoEmail cfg.manifestPath
      return ()
  | .retention =>
      match cfg.retention with
      | none => return ()
      | some (retention, _) => do
          let _ ← runRetentionPass retention
          return ()

/-- A pass in progress. -/
abbrev PassThread := Thread Op Op.Res Session Unit

/-- The goroutine of a loop. -/
inductive Background where
  | select
  | pass (t : PassThread)
  | done

/-- A loop that begins, unless its ticker panics. -/
def Background.launch : Ticker → Option Background
  | .off => some .done
  | .panics => none
  | .ticks _ => some .select

/-- A loop that is not wanted has nobody to wait for. -/
def DaemonConfig.launch (cfg : DaemonConfig) : Loop → Option Background
  | .reset => Background.launch (demoResetTicker cfg.demoEmail (resetInterval cfg.resetMinutes))
  | .retention =>
      match cfg.retention with
      | none => some .done
      | some (_, interval) => Background.launch (retentionTicker interval)

/-- The goroutine holds no connection. -/
def Background.idle : Background → Bool
  | .pass t => t.own = .idle
  | _ => true

/-- Where `runWithHealth` is, and `main` after it. -/
inductive MainStage where
  /-- At the poll loop's `select`. -/
  | select
  /-- In `runPollCycle`. -/
  | cycle
  /-- `<-resetDone`. -/
  | awaitReset
  /-- `<-retentionDone`. -/
  | awaitRetention
  | returned
  /-- `pool.Close()` has returned. -/
  | closed
deriving DecidableEq

/-- The worker's process. The context is the one of its cycle. -/
structure Daemon where
  store : Store
  main : MainStage
  /-- The poll cycle, the last one at the `select`. -/
  cycle : Cycle Checker.Monitor WorkError
  /-- The checks of the cycle, in the order in which they were started. -/
  checks : List (Thread Op Op.Res Session (Option WorkError))
  loops : Loop → Background

inductive Daemon.Action where
  /-- `SIGTERM`. -/
  | cancel
  /-- A tick of the poll loop. -/
  | tick
  | fetch (choice : Choice)
  | tau
  | selectDone
  | receive
  | workReturns (i : Nat)
  /-- The next operation of a check. -/
  | check (i : Nat) (choice : Choice)
  | cycleReturns
  /-- `case <-ctx.Done()` of the poll loop. -/
  | leave
  /-- What `runWithHealth` waits for at its end. -/
  | join
  | close
  /-- A tick of a loop. -/
  | begin (l : Loop)
  /-- The next operation of its pass. -/
  | advance (l : Loop) (choice : Choice)
  | passReturns (l : Loop)
  /-- `case <-ctx.Done()` of a loop. -/
  | done (l : Loop)

/-- An action that is no tick. -/
def Daemon.Action.Ending : Daemon.Action → Prop
  | .tick | .begin _ => False
  | _ => True

namespace Daemon

/-- The goroutines are started. -/
def start (cfg : DaemonConfig) (st : Store) : Option Daemon := do
  let reset ← cfg.launch .reset
  let retention ← cfg.launch .retention
  return {
    store := st
    main := .select
    cycle := Cycle.start _ _
    checks := []
    loops := fun | .reset => reset | .retention => retention }

/-- The checks after a step of the cycle, with a new one for an item that it has started. -/
def started (cfg : DaemonConfig) (s : Daemon) (c : Cycle Checker.Monitor WorkError) :
    List (Thread Op Op.Res Session (Option WorkError)) :=
  s.checks ++ ((c.items.take c.next).drop s.cycle.next).map (Polling.checkThread cfg.worker)

/-- A step of the poll cycle. -/
def cycleStep (cfg : DaemonConfig) (s : Daemon)
    (a : Worker.Action Checker.Monitor WorkError) : Option Daemon :=
  (s.cycle.step isMonitorCheckError cfg.worker.concurrency a).map fun c =>
    { s with cycle := c, checks := s.started cfg c }

/-- A statement of `runPollCycle`. -/
def statement (cfg : DaemonConfig) (s : Daemon)
    (a : Worker.Action Checker.Monitor WorkError) : Option Daemon :=
  if s.main = .cycle then s.cycleStep cfg a else none

/-- The loop goes on elsewhere. -/
def goto (s : Daemon) (l : Loop) (b : Background) : Daemon :=
  { s with loops := Function.update s.loops l b }

/-- No connection is in use. -/
def unused (s : Daemon) : Bool :=
  s.checks.all (fun t => t.own = .idle) && (s.loops .reset).idle && (s.loops .retention).idle

/-- What the environment decides about an operation agrees with the context. -/
def Agrees (s : Daemon) (choice : Choice) : Prop := choice.ctxErr.isSome = s.cycle.ctxDone

instance (s : Daemon) (choice : Choice) : Decidable (s.Agrees choice) :=
  inferInstanceAs (Decidable (_ = _))

/-- One step of the worker. -/
def step (cfg : DaemonConfig) (s : Daemon) : Action → Option Daemon
  | .cancel => s.cycleStep cfg .cancel
  | .tick =>
      if s.main = .select then
        some { s with main := .cycle, cycle := s.cycle.again, checks := [] }
      else none
  | .fetch choice =>
      let r := fetchDueMonitors.run handle (fun _ => choice) s.store .idle
      statement cfg { s with store := r.1 } (.fetch (r.2.2.mapError .database))
  | .tau => s.statement cfg .tau
  | .selectDone => s.statement cfg .selectDone
  | .receive => s.statement cfg .receive
  | .workReturns i =>
      match s.checks[i]? with
      | some ⟨.ret err, _⟩ => s.cycleStep cfg (.workReturns i err)
      | _ => none
  | .check i choice =>
      (Pool.advance handle ⟨s.store, s.checks⟩ i choice).map fun p =>
        { s with store := p.shared, checks := p.threads }
  | .cycleReturns =>
      match s.main, s.cycle.pc with
      | .cycle, .returned _ => some { s with main := .select }
      | _, _ => none
  | .leave =>
      if s.main = .select ∧ s.cycle.ctxDone then some { s with main := .awaitReset } else none
  | .join =>
      match s.main, s.loops .reset, s.loops .retention with
      | .awaitReset, .done, _ => some { s with main := .awaitRetention }
      | .awaitRetention, _, .done => some { s with main := .returned }
      | _, _, _ => none
  | .close =>
      -- it waits for the connections that are in use
      if s.main = .returned ∧ s.unused then some { s with main := .closed } else none
  | .begin l =>
      match s.loops l with
      | .select => some (s.goto l (.pass ⟨cfg.pass l, .idle⟩))
      | _ => none
  | .advance l choice =>
      match s.loops l with
      | .pass t =>
          if s.Agrees choice then
            (t.step handle choice s.store).map fun r =>
              { s.goto l (.pass r.2) with store := r.1 }
          else none
      | _ => none
  | .passReturns l =>
      match s.loops l with
      | .pass ⟨.ret _, _⟩ => some (s.goto l .select)
      | _ => none
  | .done l =>
      match s.loops l with
      | .select => if s.cycle.ctxDone then some (s.goto l .done) else none
      | _ => none

end Daemon

/-! ### Programs that hold no connection at their end -/

section Settles

variable {α β : Type}

/-- Begun outside of transactions, the program ends outside of them. -/
abbrev Settles (p : Client α) : Prop :=
  p.Under handle (fun _ _ => True) (fun _ => True) (fun _ _ => True) (fun s _ => s = .idle) .idle

theorem settles_bind {f : α → Client β} {p : Client α} (hp : Settles p)
    (hf : ∀ a, Settles (f a)) : Settles (p >>= f) := by
  refine Prog.under_bind.mpr (hp.mono fun s a hs => ?_)
  subst hs
  exact hf a

theorem settles_op {o : Op} (ho : ∀ choice st, (handle choice st .idle o).2.1 = .idle) :
    Settles (Prog.op o : Client o.Res) :=
  fun choice st _ _ => ⟨trivial, trivial, ho choice st⟩

/-- Whatever is done in a transaction, the rollback after it ends it. -/
theorem rolls_back {p : Client α} {f : α → β} {s : Session} :
    (do let a ← p; let _ ← Client.rollback; return f a : Client β).Under handle (fun _ _ => True)
      (fun _ => True) (fun _ _ => True) (fun s _ => s = .idle) s := by
  induction p generalizing s with
  | ret a =>
      intro choice st _ _
      refine ⟨trivial, trivial, ?_⟩
      show (s.rollback choice).1 = .idle
      unfold Session.rollback
      split <;> rfl
  | call o k ih => exact fun choice st _ _ => ⟨trivial, trivial, ih _⟩

theorem settles_begin {k : Except DbError Unit → Client β} (herr : ∀ e, Settles (k (.error e)))
    (hok : (k (.ok ())).Under handle (fun _ _ => True) (fun _ => True) (fun _ _ => True)
      (fun s _ => s = .idle) (.open_ [])) : Settles (Client.begin >>= k) := by
  intro choice st _ _
  refine ⟨trivial, trivial, ?_⟩
  show Prog.Under _ _ _ _ _ (k (Session.begin choice .idle).2) (Session.begin choice .idle).1
  unfold Session.begin
  cases choice.fault with
  | fails e => exact herr e
  | none | noRows | lostReply => exact hok

theorem checkAndPersist_settles (registered : List String) (m : Checker.Monitor)
    (thresholds : List Int) : Settles (checkAndPersist registered m thresholds) := by
  unfold checkAndPersist
  split
  · rfl
  · refine settles_bind (settles_op fun _ _ => rfl) fun result => ?_
    cases result with
    | error err => rfl
    | ok result =>
        refine settles_bind (settles_op fun _ _ => rfl) fun now => ?_
        exact settles_begin (fun _ => rfl) rolls_back

theorem resetDemoAccount_settles (unmarshal : String → Except String (List DemoMonitor))
    (email manifestPath : String) : Settles (resetDemoAccount unmarshal email manifestPath) := by
  unfold resetDemoAccount
  split
  · rfl
  · refine settles_bind (settles_op fun _ _ => rfl) fun data => ?_
    cases data with
    | error err => rfl
    | ok data =>
        simp only
        split
        · rfl
        · refine settles_bind (settles_op fun choice st => send_idle choice st _) fun userId => ?_
          match userId with
          | .error _ | .ok none => rfl
          | .ok (some _) => exact settles_begin (fun _ => rfl) rolls_back

theorem cleanBatches_settles (table : RetentionTable) (days batchSize : Int) :
    ∀ batches, Settles (cleanBatches table days batchSize batches)
  | 0 => rfl
  | batches + 1 => by
      refine settles_bind (settles_op fun _ _ => rfl) fun err => ?_
      cases err with
      | some err => rfl
      | none =>
          refine settles_bind (settles_op fun _ _ => rfl) fun now => ?_
          refine settles_bind (settles_op fun choice st => send_idle choice st _) fun r => ?_
          cases r with
          | error err => rfl
          | ok rowsAffected =>
              simp only
              split
              · rfl
              · split
                · rfl
                · refine settles_bind (settles_op fun _ _ => rfl) fun err => ?_
                  cases err with
                  | some err => rfl
                  | none => exact cleanBatches_settles table days batchSize batches

theorem runRetentionPass_settles (cfg : RetentionConfig) : Settles (runRetentionPass cfg) := by
  refine settles_bind (settles_op fun _ _ => rfl) fun err => ?_
  cases err with
  | some err => rfl
  | none =>
      simp only
      split
      · rfl
      · refine settles_bind (cleanBatches_settles ..) fun err => ?_
        cases err with
        | some err => rfl
        | none => exact cleanBatches_settles ..

theorem pass_settles (cfg : DaemonConfig) (l : Loop) : Settles (cfg.pass l) := by
  cases l with
  | reset => exact settles_bind (resetDemoAccount_settles ..) fun _ => rfl
  | retention =>
      simp only [DaemonConfig.pass]
      split
      · rfl
      · exact settles_bind (runRetentionPass_settles _) fun _ => rfl

end Settles

/-! ### What a step does -/

namespace Daemon

variable {cfg : DaemonConfig} {s s' : Daemon}

/-- The steps of the worker. -/
inductive Stepped (cfg : DaemonConfig) (s : Daemon) : Action → Daemon → Prop where
  | cycle {action : Action} {store : Store} {a : Worker.Action Checker.Monitor WorkError}
      {c : Cycle Checker.Monitor WorkError}
      (hc : s.cycle.step isMonitorCheckError cfg.worker.concurrency a = some c)
      (hmain : s.main = .cycle ∨ a = .cancel ∨ ∃ i err, a = .workReturns i err)
      (hcancel : a = .cancel ↔ action = .cancel) (hending : action.Ending)
      (hreturns : ∀ i err, a = .workReturns i err → ∃ own, s.checks[i]? = some ⟨.ret err, own⟩) :
      Stepped cfg s action { s with store := store, cycle := c, checks := s.started cfg c }
  | tick (hmain : s.main = .select) :
      Stepped cfg s .tick { s with main := .cycle, cycle := s.cycle.again, checks := [] }
  | check {i : Nat} {choice : Choice} {p : Pool Op Op.Res Store Session (Option WorkError)}
      (hp : Pool.advance handle ⟨s.store, s.checks⟩ i choice = some p) :
      Stepped cfg s (.check i choice) { s with store := p.shared, checks := p.threads }
  | cycleReturns {err : Option (CycleError WorkError)} (hmain : s.main = .cycle)
      (hpc : s.cycle.pc = .returned err) : Stepped cfg s .cycleReturns { s with main := .select }
  | leave (hmain : s.main = .select) (hd : s.cycle.ctxDone = true) :
      Stepped cfg s .leave { s with main := .awaitReset }
  | joinReset (hmain : s.main = .awaitReset) (hdone : s.loops .reset = .done) :
      Stepped cfg s .join { s with main := .awaitRetention }
  | joinRetention (hmain : s.main = .awaitRetention) (hdone : s.loops .retention = .done) :
      Stepped cfg s .join { s with main := .returned }
  | close (hmain : s.main = .returned) : Stepped cfg s .close { s with main := .closed }
  | begin {l : Loop} (hselect : s.loops l = .select) :
      Stepped cfg s (.begin l) (s.goto l (.pass ⟨cfg.pass l, .idle⟩))
  | advance {l : Loop} {choice : Choice} {t t' : PassThread} {store : Store}
      (hpass : s.loops l = .pass t) (ht : t.step handle choice s.store = some (store, t')) :
      Stepped cfg s (.advance l choice) { s.goto l (.pass t') with store := store }
  | passReturns {l : Loop} {own : Session} (hpass : s.loops l = .pass ⟨.ret (), own⟩) :
      Stepped cfg s (.passReturns l) (s.goto l .select)
  | done {l : Loop} (hselect : s.loops l = .select) (hd : s.cycle.ctxDone = true) :
      Stepped cfg s (.done l) (s.goto l .done)

theorem cycleStep_cases {action : Action} {store : Store}
    {a : Worker.Action Checker.Monitor WorkError}
    (hs : cycleStep cfg { s with store := store } a = some s')
    (hmain : s.main = .cycle ∨ a = .cancel ∨ ∃ i err, a = .workReturns i err)
    (hcancel : a = .cancel ↔ action = .cancel) (hending : action.Ending)
    (hreturns : ∀ i err, a = .workReturns i err → ∃ own, s.checks[i]? = some ⟨.ret err, own⟩) :
    Stepped cfg s action s' := by
  obtain ⟨c, hc, rfl⟩ := Option.map_eq_some_iff.mp hs
  exact .cycle hc hmain hcancel hending hreturns

theorem statement_cases {action : Action} {store : Store}
    {a : Worker.Action Checker.Monitor WorkError}
    (hs : statement cfg { s with store := store } a = some s') (ha : a ≠ .cancel)
    (haction : action ≠ .cancel) (hending : action.Ending)
    (hreturns : ∀ i err, a ≠ .workReturns i err) : Stepped cfg s action s' := by
  obtain ⟨hmain, hs⟩ := Option.ite_none_right_eq_some.mp hs
  exact cycleStep_cases hs (.inl hmain) (by simp [ha, haction]) hending
    fun i err h => absurd h (hreturns i err)

theorem step_cases {a : Action} (hs : step cfg s a = some s') : Stepped cfg s a s' := by
  cases a with
  | cancel => exact cycleStep_cases hs (.inr (.inl rfl)) (by simp) trivial (by simp)
  | tick =>
      obtain ⟨hmain, hs⟩ := Option.ite_none_right_eq_some.mp hs
      cases hs
      exact .tick hmain
  | fetch choice => exact statement_cases hs (by simp) (by simp) trivial (by simp)
  | tau => exact statement_cases hs (by simp) (by simp) trivial (by simp)
  | selectDone => exact statement_cases hs (by simp) (by simp) trivial (by simp)
  | receive => exact statement_cases hs (by simp) (by simp) trivial (by simp)
  | workReturns i =>
      simp only [step] at hs
      split at hs
      · refine cycleStep_cases hs (.inr (.inr ⟨_, _, rfl⟩)) (by simp) trivial fun j err h => ?_
        cases h
        exact ⟨_, ‹_›⟩
      · cases hs
  | check i choice =>
      obtain ⟨p, hp, rfl⟩ := Option.map_eq_some_iff.mp hs
      exact .check hp
  | cycleReturns =>
      simp only [step] at hs
      split at hs <;> cases hs
      exact .cycleReturns ‹_› ‹_›
  | leave =>
      obtain ⟨h, hs⟩ := Option.ite_none_right_eq_some.mp hs
      cases hs
      exact .leave h.1 h.2
  | join =>
      simp only [step] at hs
      split at hs <;> cases hs
      · exact .joinReset ‹_› ‹_›
      · exact .joinRetention ‹_› ‹_›
  | close =>
      obtain ⟨h, hs⟩ := Option.ite_none_right_eq_some.mp hs
      cases hs
      exact .close h.1
  | begin l =>
      simp only [step] at hs
      split at hs <;> cases hs
      exact .begin ‹_›
  | advance l choice =>
      simp only [step] at hs
      split at hs
      · obtain ⟨-, hs⟩ := Option.ite_none_right_eq_some.mp hs
        obtain ⟨r, ht, rfl⟩ := Option.map_eq_some_iff.mp hs
        exact .advance ‹_› ht
      · cases hs
  | passReturns l =>
      simp only [step] at hs
      split at hs <;> cases hs
      exact .passReturns ‹_›
  | done l =>
      simp only [step] at hs
      split at hs
      · split at hs <;> cases hs
        exact .done ‹_› ‹_›
      · cases hs

/-! ### The invariant -/

/-- How much `main` has still to wait for. -/
def waits : MainStage → Nat
  | .cycle => 5
  | .select => 4
  | .awaitReset => 3
  | .awaitRetention => 2
  | .returned => 1
  | .closed => 0

/-- The program holds no connection at its end. -/
def Held {α : Type} (t : Thread Op Op.Res Session α) : Prop :=
  t.Under handle (fun _ _ => True) (fun _ => True) (fun _ _ => True) (fun s _ => s = .idle)

structure Inv (cfg : DaemonConfig) (s : Daemon) : Prop where
  cycle : s.cycle.Inv isMonitorCheckError cfg.worker.concurrency
  length : s.checks.length = s.cycle.next
  ended : ∀ (i : Nat) t, s.checks[i]? = some t → i ∉ s.cycle.running → ∃ err, t.prog = .ret err
  checks : ∀ t ∈ s.checks, Held t
  passes : ∀ l t, s.loops l = .pass t → Held t
  quiet : s.main ≠ .cycle → s.cycle.running = []
  left : waits s.main ≤ 3 → s.cycle.ctxDone = true
  reset : waits s.main ≤ 2 → s.loops .reset = .done
  retention : waits s.main ≤ 1 → s.loops .retention = .done

theorem held_step {α : Type} {t t' : Thread Op Op.Res Session α} {choice : Choice}
    {st st' : Store} (h : Held t) (hs : t.step handle choice st = some (st', t')) : Held t' :=
  (Thread.Under.step h trivial trivial hs).2.2

theorem inv_start {st : Store} (h : start cfg st = some s) : s.Inv cfg := by
  obtain ⟨reset, hreset, h⟩ := Option.bind_eq_some_iff.mp h
  obtain ⟨retention, hretention, h⟩ := Option.bind_eq_some_iff.mp h
  have hpass : ∀ l b t, cfg.launch l = some b → b ≠ .pass t := by
    intro l b t h
    unfold DaemonConfig.launch Background.launch at h
    repeat' split at h
    all_goals cases h
    all_goals exact Background.noConfusion
  cases h
  refine ⟨Cycle.inv_start _ _, rfl, fun i t ht => (nomatch ht), fun t ht => (nomatch ht),
    fun l t ht => ?_, fun _ => rfl, fun h => ?_, fun h => ?_, fun h => ?_⟩
  rotate_left
  · exact absurd h (by simp [waits])
  · exact absurd h (by simp [waits])
  · exact absurd h (by simp [waits])
  cases l with
  | reset => exact absurd ht (hpass _ _ t hreset)
  | retention => exact absurd ht (hpass _ _ t hretention)

/-- The cycle goes on, with the items that it has started. -/
theorem Inv.onCycle (h : s.Inv cfg) {store : Store}
    {a : Worker.Action Checker.Monitor WorkError} {c : Cycle Checker.Monitor WorkError}
    (hc : s.cycle.step isMonitorCheckError cfg.worker.concurrency a = some c)
    (hmain : s.main = .cycle ∨ a = .cancel ∨ ∃ i err, a = .workReturns i err)
    (hreturns : ∀ i err, a = .workReturns i err → ∃ own, s.checks[i]? = some ⟨.ret err, own⟩) :
    Inv cfg { s with store := store, cycle := c, checks := s.started cfg c } := by
  have hcycle := h.cycle.step hc
  have hleft : waits s.main ≤ 3 → c.ctxDone = true := by
    intro hwaits
    have hd := h.left hwaits
    cases Cycle.step_cases hc with
    | cancel => rfl
    | _ => exact hd
  have hquiet : s.main ≠ .cycle → c.running = [] := by
    intro hne
    have hrunning := h.quiet hne
    rcases hmain with hmain | rfl | ⟨i, err, rfl⟩
    · exact absurd hmain hne
    · cases Cycle.step_cases hc
      exact hrunning
    · cases Cycle.step_cases hc with
      | workReturns hi => exact absurd (hrunning ▸ hi) List.not_mem_nil
  have hsame : c.items = s.cycle.items → c.next = s.cycle.next → s.started cfg c = s.checks := by
    intro hitems hnext
    rw [started, hitems, hnext, Polling.spawned_none, List.append_nil]
  cases h.cycle.itemStep hc with
  | fetched hn hitems hnext hrunning =>
      have hnone : s.checks = [] := List.eq_nil_of_length_eq_zero (h.length.trans hn)
      have hchecks : s.started cfg c = [] := by
        rw [started, hnext, hnone, List.take_zero, List.drop_nil, List.map_nil, List.append_nil]
      refine ⟨hcycle, ?_, fun i t ht => ?_, fun t ht => ?_, h.passes, hquiet, hleft, h.reset,
        h.retention⟩
      · exact (congrArg List.length hchecks).trans hnext.symm
      · rw [hchecks] at ht
        cases ht
      · rw [hchecks] at ht
        cases ht
  | started hn hitems hnext hrunning =>
      have hchecks : s.started cfg c =
          s.checks ++ [Polling.checkThread cfg.worker s.cycle.items[s.cycle.next]] := by
        rw [started, hitems, hnext, Polling.spawned_one hn]
      refine ⟨hcycle, ?_, fun i t ht hi => ?_, fun t ht => ?_, h.passes, hquiet, hleft, h.reset,
        h.retention⟩
      · rw [hchecks, hnext, List.length_append, h.length]
        rfl
      · rw [hrunning, List.mem_cons, not_or] at hi
        rw [hchecks] at ht
        rcases Indexed.concat_cases ht with ht | ⟨rfl, rfl⟩
        · exact h.ended i t ht hi.2
        · exact absurd h.length hi.1
      · rw [hchecks] at ht
        rcases List.mem_append.mp ht with ht | ht
        · exact h.checks t ht
        · rw [List.mem_singleton.mp ht]
          exact checkAndPersist_settles ..
  | @ended i err _ hitems hnext hrunning =>
      rw [hsame hitems hnext]
      refine ⟨hcycle, h.length.trans hnext.symm, fun j t ht hj => ?_, h.checks, h.passes, hquiet,
        hleft, h.reset, h.retention⟩
      by_cases hij : j = i
      · subst hij
        obtain ⟨own, hown⟩ := hreturns j err rfl
        obtain rfl := Option.some.inj (hown.symm.trans ht)
        exact ⟨err, rfl⟩
      · rw [hrunning, List.mem_erase_of_ne hij] at hj
        exact h.ended j t ht hj
  | nothing hitems hnext hrunning =>
      rw [hsame hitems hnext]
      exact ⟨hcycle, h.length.trans hnext.symm, hrunning ▸ h.ended, h.checks, h.passes, hquiet,
        hleft, h.reset, h.retention⟩

/-- A loop that is not done goes on elsewhere. -/
theorem Inv.goto (h : s.Inv cfg) {l : Loop} {b : Background} {store : Store}
    (hl : s.loops l ≠ .done) (hb : ∀ t, b = .pass t → Held t) :
    Inv cfg { s.goto l b with store := store } := by
  have hother : ∀ l', s.loops l' = .done → (s.goto l b).loops l' = .done := by
    intro l' hdone
    have hne : l' ≠ l := fun heq => hl (heq ▸ hdone)
    exact (Function.update_of_ne hne _ _).trans hdone
  refine { h with
    passes := fun l' t ht => ?_
    reset := fun hw => hother _ (h.reset hw)
    retention := fun hw => hother _ (h.retention hw) }
  by_cases heq : l' = l
  · subst heq
    exact hb t ((Function.update_self ..).symm.trans ht)
  · exact h.passes l' t ((Function.update_of_ne heq _ _).symm.trans ht)

/-- `main` goes on elsewhere than into a cycle. -/
theorem Inv.toMain (h : s.Inv cfg) {m : MainStage} (hquiet : s.cycle.running = [])
    (hleft : waits m ≤ 3 → s.cycle.ctxDone = true) (hreset : waits m ≤ 2 → s.loops .reset = .done)
    (hretention : waits m ≤ 1 → s.loops .retention = .done) : Inv cfg { s with main := m } :=
  { h with quiet := fun _ => hquiet, left := hleft, reset := hreset, retention := hretention }

/-- A check with an operation left has not ended. -/
theorem Inv.runs (h : s.Inv cfg) {i : Nat} {choice : Choice}
    {p : Pool Op Op.Res Store Session (Option WorkError)}
    (hp : Pool.advance handle ⟨s.store, s.checks⟩ i choice = some p) : i ∈ s.cycle.running := by
  by_contra hi
  obtain ⟨before, t, t', after, hget, -, -, -, hstep⟩ := Pool.advance_cases hp
  obtain ⟨err, hret⟩ := h.ended i t hget hi
  obtain ⟨o, k, hcall, -⟩ := Thread.step_cases hstep
  rw [hret] at hcall
  cases hcall

theorem Inv.step {a : Action} (h : s.Inv cfg) (hs : Daemon.step cfg s a = some s') :
    s'.Inv cfg := by
  cases step_cases hs with
  | cycle hc hmain _ _ hreturns => exact h.onCycle hc hmain hreturns
  | tick hmain =>
      refine ⟨Cycle.inv_again .., rfl, fun i t ht => (nomatch ht), fun t ht => (nomatch ht),
        h.passes, fun hne => absurd rfl hne, fun hw => ?_, fun hw => ?_, fun hw => ?_⟩
      all_goals exact absurd hw (by simp [waits])
  | check hp =>
      obtain ⟨-, t, t', -, hget, -, -, hset, hstep⟩ := Pool.advance_cases hp
      refine { h with
        length := (congrArg List.length hset).trans (List.length_set.trans h.length)
        ended := fun j u hu hj => ?_
        checks := fun u hu => ?_ }
      · rcases Indexed.set_cases (hset ▸ hu) with ⟨rfl, rfl⟩ | ⟨-, hu⟩
        · exact absurd (h.runs hp) hj
        · exact h.ended j u hu hj
      · obtain ⟨j, hj⟩ := List.mem_iff_getElem?.mp hu
        rcases Indexed.set_cases (hset ▸ hj) with ⟨rfl, rfl⟩ | ⟨-, hj⟩
        · exact held_step (h.checks t (List.mem_of_getElem? hget)) hstep
        · exact h.checks u (List.mem_of_getElem? hj)
  | cycleReturns hmain hpc =>
      refine h.toMain (Cycle.idle_of_returned h.cycle hpc).1 ?_ ?_ ?_ <;> simp [waits]
  | leave hmain hd =>
      refine h.toMain (h.quiet (by simp [hmain])) (fun _ => hd) ?_ ?_ <;> simp [waits]
  | joinReset hmain hdone =>
      refine h.toMain (h.quiet (by simp [hmain])) (fun _ => h.left (by simp [hmain, waits]))
        (fun _ => hdone) ?_
      simp [waits]
  | joinRetention hmain hdone =>
      exact h.toMain (h.quiet (by simp [hmain])) (fun _ => h.left (by simp [hmain, waits]))
        (fun _ => h.reset (by simp [hmain, waits])) fun _ => hdone
  | close hmain =>
      exact h.toMain (h.quiet (by simp [hmain])) (fun _ => h.left (by simp [hmain, waits]))
        (fun _ => h.reset (by simp [hmain, waits])) fun _ => h.retention (by simp [hmain, waits])
  | begin hselect =>
      refine h.goto (by simp [hselect]) fun t ht => ?_
      cases ht
      exact pass_settles cfg _
  | advance hpass ht =>
      refine h.goto (by simp [hpass]) fun t ht' => ?_
      cases ht'
      exact held_step (h.passes _ _ hpass) ht
  | passReturns hpass => exact h.goto (by simp [hpass]) fun t ht => (nomatch ht)
  | done hselect hd => exact h.goto (by simp [hselect]) fun t ht => (nomatch ht)

/-! ### What is left to do -/

/-- The rounds a loop has left, unless it takes a tick. -/
def rounds : Background → Nat
  | .pass _ => 2
  | .select => 1
  | .done => 0

/-- What the pass of a loop has left to do. -/
noncomputable def passRanks : Background → Multiset Ordinal.{0}
  | .pass t => ranks [t]
  | _ => 0

/-- What the process has left to do, without further ticks: the stages of its goroutines, the
statements of the cycle, and the operations of all programs. -/
noncomputable def measure (s : Daemon) : ℕ × ℕ × Multiset Ordinal.{0} :=
  ((if s.cycle.pc = .fetch then 1 else 0) + waits s.main + rounds (s.loops .reset) +
      rounds (s.loops .retention),
    s.cycle.remaining,
    ranks s.checks + (passRanks (s.loops .reset) + passRanks (s.loops .retention)))

/-- The measure falls. -/
def Less : ℕ × ℕ × Multiset Ordinal.{0} → ℕ × ℕ × Multiset Ordinal.{0} → Prop :=
  Prod.Lex (· < ·) (Prod.Lex (· < ·) Falls)

theorem less_wellFounded : WellFounded Less :=
  Nat.lt_wfRel.wf.prod_lex (Nat.lt_wfRel.wf.prod_lex falls_wellFounded)

theorem less_of_lt {x y : ℕ} {a b : ℕ × Multiset Ordinal.{0}} (h : x < y) : Less (x, a) (y, b) :=
  .left _ _ h

theorem less_of_remaining {x y n m : ℕ} {a b : Multiset Ordinal.{0}} (hx : x ≤ y) (h : n < m) :
    Less (x, n, a) (y, m, b) := by
  rcases Nat.lt_or_eq_of_le hx with hlt | rfl
  · exact .left _ _ hlt
  · exact .right _ (.left _ _ h)

theorem less_of_falls {x n : ℕ} {a b : Multiset Ordinal.{0}} (h : Falls a b) :
    Less (x, n, a) (x, n, b) :=
  .right _ (.right _ h)

/-- A step of the cycle leaves less of it, and does not go back to the fetch. -/
theorem cycle_less (h : s.cycle.Inv isMonitorCheckError cfg.worker.concurrency)
    {a : Worker.Action Checker.Monitor WorkError} {c : Cycle Checker.Monitor WorkError}
    (hc : s.cycle.step isMonitorCheckError cfg.worker.concurrency a = some c) :
    s.cycle.pc = .fetch ∧ c.pc ≠ .fetch ∨
      (c.pc = .fetch → s.cycle.pc = .fetch) ∧ c.remaining < s.cycle.remaining := by
  by_cases hpc : s.cycle.pc = .fetch
  · have hhere := h.here
    have hcount := h.count
    simp only [Cycle.Here, hpc] at hhere
    cases Cycle.step_cases hc with
    | fetchError | fetchOk => exact .inl ⟨hpc, by simp⟩
    | cancel => exact .inr ⟨fun _ => hpc, (Cycle.remaining_step h hc (.inr rfl)).2⟩
    | workReturns hi =>
        have hpos := List.length_pos_of_mem hi
        omega
    | _ => simp_all
  · have hfetch : ∀ result, a ≠ .fetch result := by
      rintro result rfl
      cases Cycle.step_cases hc with
      | fetchError h | fetchOk h => exact hpc h
    exact .inr ⟨fun hpc' => absurd hpc' ((Cycle.fetched_step hfetch hc).2.1 hpc),
      (Cycle.remaining_step h hc (.inl hpc)).2⟩

/-- A loop that goes on elsewhere leaves the other as it is. -/
theorem goto_less {l : Loop} {b : Background} (h : rounds b < rounds (s.loops l)) :
    Less (s.goto l b).measure s.measure := by
  refine less_of_lt ?_
  cases l with
  | reset => exact Nat.add_lt_add_right (Nat.add_lt_add_left h _) _
  | retention => exact Nat.add_lt_add_left h _

/-- **Every step but a tick leaves less to do.** -/
theorem step_less {a : Action} (h : s.Inv cfg) (hs : Daemon.step cfg s a = some s')
    (ha : a.Ending) : Less s'.measure s.measure := by
  cases step_cases hs with
  | cycle hc =>
      rcases cycle_less h.cycle hc with ⟨hpc, hpc'⟩ | ⟨hpc, hlt⟩
      · refine less_of_lt ?_
        simp only [hpc, hpc', if_true, if_false]
        omega
      · refine less_of_remaining ?_ hlt
        refine Nat.add_le_add_right (Nat.add_le_add_right (Nat.add_le_add_right ?_ _) _) _
        split
        · rw [if_pos (hpc ‹_›)]
        · exact Nat.zero_le _
  | tick | begin => exact absurd ha id
  | check hp => exact less_of_falls ((Pool.advance_falls hp).add_right _)
  | cycleReturns hmain | leave hmain | joinReset hmain | joinRetention hmain | close hmain =>
      refine less_of_lt ?_
      simp only [hmain, waits]
      omega
  | @advance l choice t t' store hpass ht =>
      have hfalls : Falls (ranks [t']) (ranks [t]) := Thread.step_falls ht
      cases l with
      | reset =>
          simp only [measure, hpass]
          exact less_of_falls ((hfalls.add_right _).add_left _)
      | retention =>
          simp only [measure, hpass]
          exact less_of_falls ((hfalls.add_left _).add_left _)
  | passReturns hpass => exact goto_less (by simp [hpass, rounds])
  | done hselect => exact goto_less (by simp [hselect, rounds])

/-! ### No deadlock -/

/-- A choice that agrees with the context. -/
def agreeing (s : Daemon) : Choice :=
  { Choice.calm 0 (.error "") with
    ctxErr := if s.cycle.ctxDone then some "context canceled" else none }

theorem agrees_agreeing (s : Daemon) : s.Agrees s.agreeing := by
  unfold Agrees agreeing
  cases s.cycle.ctxDone <;> rfl

/-- Under a context that is done, a loop that is not done goes on. -/
theorem loop_goes_on (hd : s.cycle.ctxDone = true) {l : Loop} (hl : s.loops l ≠ .done) :
    ∃ a, a.Ending ∧ (Daemon.step cfg s a).isSome := by
  cases hloop : s.loops l with
  | done => exact absurd hloop hl
  | select => exact ⟨.done l, trivial, by simp [step, hloop, hd]⟩
  | pass t =>
      obtain ⟨prog, own⟩ := t
      cases prog with
      | ret u => exact ⟨.passReturns l, trivial, by simp [step, hloop]⟩
      | call o k =>
          refine ⟨.advance l s.agreeing, trivial, ?_⟩
          simp [step, hloop, agrees_agreeing, Thread.step]

/-- A cycle that has not returned goes on. -/
theorem Inv.cycle_goes_on (h : s.Inv cfg) (hmain : s.main = .cycle)
    (hpc : ∀ err, s.cycle.pc ≠ .returned err) :
    ∃ a, a.Ending ∧ (Daemon.step cfg s a).isSome := by
  obtain ⟨a, hcancel, hsome⟩ := Cycle.progress h.cycle hpc
  have hstatement : (statement cfg s a).isSome := by
    rw [statement, if_pos hmain, cycleStep, Option.isSome_map]
    exact hsome
  cases a with
  | cancel => exact absurd rfl hcancel
  | tau => exact ⟨.tau, trivial, hstatement⟩
  | selectDone => exact ⟨.selectDone, trivial, hstatement⟩
  | receive => exact ⟨.receive, trivial, hstatement⟩
  | fetch result =>
      have hfetch : s.cycle.pc = .fetch := by
        obtain ⟨c, hc⟩ := Option.isSome_iff_exists.mp hsome
        cases Cycle.step_cases hc with
        | fetchError h | fetchOk h => exact h
      refine ⟨.fetch s.agreeing, trivial, ?_⟩
      simp only [Daemon.step, statement, hmain, if_true, cycleStep, Option.isSome_map]
      generalize Except.mapError WorkError.database _ = result
      cases result <;> simp [Cycle.step, hfetch]
  | workReturns i err =>
      have hi : i ∈ s.cycle.running := by
        obtain ⟨c, hc⟩ := Option.isSome_iff_exists.mp hsome
        cases Cycle.step_cases hc with
        | workReturns hi => exact hi
      have hlt : i < s.checks.length := by
        rw [h.length, ← List.mem_range]
        exact h.cycle.accounted.subset (List.mem_append_left _ hi)
      have hget : s.checks[i]? = some s.checks[i] := List.getElem?_eq_getElem hlt
      generalize s.checks[i] = t at hget
      obtain ⟨prog, own⟩ := t
      cases prog with
      | ret err' =>
          refine ⟨.workReturns i, trivial, ?_⟩
          simp only [Daemon.step, hget, cycleStep, Option.isSome_map]
          simp [Cycle.step, hi]
      | call o k =>
          refine ⟨.check i s.agreeing, trivial, ?_⟩
          simp [Daemon.step, Pool.advance, hget, Thread.step]

/-- When nothing of the process runs any more, no connection is in use. -/
theorem Inv.unused (h : s.Inv cfg) (hwaits : waits s.main ≤ 1) : s.unused = true := by
  have hmain : s.main ≠ .cycle := fun heq => absurd (heq ▸ hwaits) (by decide)
  have hchecks : ∀ t ∈ s.checks, t.own = .idle := by
    intro t ht
    obtain ⟨i, hi⟩ := List.mem_iff_getElem?.mp ht
    obtain ⟨err, hret⟩ := h.ended i t hi (by rw [h.quiet hmain]; exact List.not_mem_nil)
    have hheld := h.checks t ht
    rw [Held, Thread.Under, hret] at hheld
    exact hheld
  have hreset := h.reset (Nat.le_succ_of_le hwaits)
  have hretention := h.retention hwaits
  simp only [Daemon.unused, hreset, hretention, Background.idle, Bool.and_true, List.all_eq_true,
    decide_eq_true_iff]
  exact hchecks

/-- **Under a context that is done the process is not stuck**, nor does it wait for a tick. -/
theorem Inv.goes_on (h : s.Inv cfg) (hd : s.cycle.ctxDone = true) (hclosed : s.main ≠ .closed) :
    ∃ a, a.Ending ∧ (Daemon.step cfg s a).isSome := by
  cases hmain : s.main with
  | closed => exact absurd hmain hclosed
  | select => exact ⟨.leave, trivial, by simp [Daemon.step, hmain, hd]⟩
  | cycle =>
      by_cases hpc : ∃ err, s.cycle.pc = .returned err
      · obtain ⟨err, hpc⟩ := hpc
        exact ⟨.cycleReturns, trivial, by simp [Daemon.step, hmain, hpc]⟩
      · exact h.cycle_goes_on hmain (not_exists.mp hpc)
  | awaitReset =>
      cases hreset : s.loops .reset with
      | done => exact ⟨.join, trivial, by simp [Daemon.step, hmain, hreset]⟩
      | select | pass => exact loop_goes_on hd (by rw [hreset]; exact Background.noConfusion)
  | awaitRetention =>
      cases hretention : s.loops .retention with
      | done => exact ⟨.join, trivial, by simp [Daemon.step, hmain, hretention]⟩
      | select | pass => exact loop_goes_on hd (by rw [hretention]; exact Background.noConfusion)
  | returned =>
      refine ⟨.close, trivial, ?_⟩
      simp [Daemon.step, hmain, h.unused (by simp [hmain, waits])]

/-! ### The context -/

/-- The context stays done, and is done from `SIGTERM` on. -/
theorem step_done {a : Action} (hs : Daemon.step cfg s a = some s') :
    (s.cycle.ctxDone = true → s'.cycle.ctxDone = true) ∧
      (a = .cancel → s'.cycle.ctxDone = true) := by
  cases step_cases hs with
  | cycle hc _ hcancel =>
      refine ⟨fun hd => ?_, fun ha => ?_⟩
      · cases Cycle.step_cases hc with
        | cancel => rfl
        | _ => exact hd
      · obtain rfl := hcancel.mpr ha
        cases Cycle.step_cases hc
        rfl
  | tick | check | cycleReturns | leave | joinReset | joinRetention | close | begin | advance
  | passReturns | done => exact ⟨id, fun ha => (nomatch ha)⟩

theorem done_of_cancel {as : List Action} (hrun : Run (Daemon.step cfg) s as s')
    (hcancel : .cancel ∈ as) : s'.cycle.ctxDone = true := by
  induction hrun with
  | refl => exact absurd hcancel List.not_mem_nil
  | more hs hrest ih =>
      rcases List.mem_cons.mp hcancel with rfl | hcancel
      · exact hrest.invariant (fun _ _ _ hd hs => (step_done hs).1 hd) ((step_done hs).2 rfl)
      · exact ih hcancel

/-- A cycle that began when the context was done, which starts nothing. -/
def Futile (s : Daemon) : Prop :=
  s.cycle.ctxDone = true ∧ s.checks = [] ∧ s.cycle.next = 0 ∧ s.cycle.running = [] ∧
    (s.cycle.pc = .fetch ∨ s.cycle.pc = .fetched ∨ ∃ err, s.cycle.pc = .returned err)

theorem Futile.step {a : Action} (h : s.Futile) (hs : Daemon.step cfg s a = some s') :
    s'.Futile := by
  obtain ⟨hd, hchecks, hnext, hrunning, hpc⟩ := h
  cases step_cases hs with
  | @cycle _ _ _ c hc =>
      have hnone : c.next = 0 → s.started cfg c = [] := by
        intro h
        rw [started, hchecks, h, List.take_zero, List.drop_nil, List.map_nil, List.append_nil]
      cases Cycle.step_cases hc with
      | fetchError => exact ⟨hd, hnone hnext, hnext, hrunning, .inr (.inr ⟨_, rfl⟩)⟩
      | fetchOk => exact ⟨hd, hnone hnext, hnext, hrunning, .inr (.inl rfl)⟩
      | fetchedDone => exact ⟨hd, hnone hnext, hnext, hrunning, .inr (.inr ⟨_, rfl⟩)⟩
      | workReturns hi =>
          rw [hrunning] at hi
          cases hi
      | _ => simp_all
  | tick => exact ⟨hd, rfl, rfl, rfl, .inl rfl⟩
  | check hp =>
      obtain ⟨-, t, -, -, hget, -⟩ := Pool.advance_cases hp
      simp [hchecks] at hget
  | cycleReturns | leave | joinReset | joinRetention | close | begin | advance | passReturns
  | done => exact ⟨hd, hchecks, hnext, hrunning, hpc⟩

/-- **The worker shuts down in order.** The pool is closed when nothing runs that uses it, and
nothing runs from the return of `runWithHealth` on. From `SIGTERM` on a cycle that begins starts no
check, and without further ticks the pool is closed whatever the goroutines do. -/
theorem shutdown {st : Store} {s₀ : Daemon} {as : List Action} (hstart : start cfg st = some s₀)
    (hrun : Run (Daemon.step cfg) s₀ as s) :
    (s.main = .returned ∨ s.main = .closed → s.unused = true ∧ ∀ a s',
      Daemon.step cfg s a = some s' → s.main = .returned ∧ s' = { s with main := .closed }) ∧
    (.cancel ∈ as →
      (∀ bs s', Run (Daemon.step cfg) s (.tick :: bs) s' → s'.checks = []) ∧
      Eventually (Daemon.step cfg) Action.Ending (fun s => s.main = .closed) s) := by
  have h := hrun.invariant (fun _ _ _ h hs => Inv.step h hs) (inv_start hstart)
  refine ⟨fun hmain => ?_, fun hcancel => ⟨fun bs s' hrun' => ?_, ?_⟩⟩
  · have hwaits : waits s.main ≤ 1 := by rcases hmain with h | h <;> simp [h, waits]
    refine ⟨h.unused hwaits, fun a s' hs => ?_⟩
    have hd := h.left (by omega)
    have hquiet := h.quiet (by rcases hmain with h | h <;> simp [h])
    have hdone : ∀ l, s.loops l = .done := by
      rintro (_ | _)
      · exact h.reset (by omega)
      · exact h.retention hwaits
    cases step_cases hs with
    | cycle hc hcycle =>
        cases Cycle.step_cases hc with
        | cancel hd' => simp [hd] at hd'
        | workReturns hi => simp [hquiet] at hi
        | _ => simp_all
    | check hp =>
        have hi := h.runs hp
        simp [hquiet] at hi
    | close hmain => exact ⟨hmain, rfl⟩
    | begin hselect | done hselect => simp [hdone] at hselect
    | advance hpass | passReturns hpass => simp [hdone] at hpass
    | _ => simp_all
  · have hfutile : Futile s' := by
      cases hrun' with
      | more hs hrest =>
          refine hrest.invariant (fun _ _ _ h hs => Futile.step h hs) ?_
          cases step_cases hs with
          | tick =>
              have hd : s.cycle.ctxDone = true := done_of_cancel hrun hcancel
              exact ⟨hd, rfl, rfl, rfl, .inl rfl⟩
          | cycle _ _ _ hending => exact absurd hending id
    exact hfutile.2.1
  · refine Eventually.of_descent less_wellFounded measure
      (I := fun s => s.Inv cfg ∧ s.cycle.ctxDone = true) (fun s hI hclosed => ?_)
      (fun s a s' hI _ ha hs => ?_) ⟨h, done_of_cancel hrun hcancel⟩
    · exact hI.1.goes_on hI.2 hclosed
    · exact ⟨⟨hI.1.step hs, (step_done hs).1 hI.2⟩, step_less hI.1 hs ha⟩

/-- A worker with both of its loops. -/
def plainDaemon : DaemonConfig where
  registered := ["http"]
  concurrency := 0
  failureThreshold := 3
  demoEmail := "demo@example.com"
  manifestPath := ""
  resetMinutes := 60
  retention := some (⟨30, 90, 1000, 10, 5⟩, retentionInterval 60)
  unmarshal _ := .ok []

def oneSite : Store where
  db := { Db.empty with monitors := [
    { id := 1, name := "Site", target := "https://example.com", frequency := 60, state := "Active",
      createdAt := 0, checkType := "http", checkConfig := none, lastState := none,
      lastCheckedAt := none, consecutiveFailures := 0, userId := 1, seedKey := none,
      isPublic := false }] }
  seq := ⟨2, 2, 1, 1⟩
  log := []

/-- `SIGTERM` during a check, a retention pass and a reset. -/
theorem shutdown_midway : ∃ s₀ s as s',
    start plainDaemon oneSite = some s₀ ∧
    Run (Daemon.step plainDaemon) s₀ [.begin .retention, .advance .retention s₀.agreeing, .tick,
      .fetch s₀.agreeing, .tau, .tau, .tau, .begin .reset, .check 0 s₀.agreeing, .cancel] s ∧
    s.checks.length = 1 ∧ (∀ a ∈ as, a.Ending) ∧ Run (Daemon.step plainDaemon) s as s' ∧
    s'.main = .closed := by
  have hrun : ∀ s₀, start plainDaemon oneSite = some s₀ → ∃ s,
      Run (Daemon.step plainDaemon) s₀ [.begin .retention, .advance .retention s₀.agreeing, .tick,
        .fetch s₀.agreeing, .tau, .tau, .tau, .begin .reset, .check 0 s₀.agreeing, .cancel] s ∧
      s.checks.length = 1 := by
    intro s₀ h
    cases h
    exact ⟨_, run_of_exec rfl, rfl⟩
  obtain ⟨s, hs, hlength⟩ := hrun _ rfl
  obtain ⟨-, hcancel⟩ := shutdown rfl hs
  obtain ⟨as, s', has, hrun', hclosed⟩ := (hcancel (by simp)).2.exists_run
  exact ⟨_, s, as, s', rfl, hs, hlength, has, hrun', hclosed⟩

end Daemon

end Sentinel.System
