import Mathlib.Data.List.Nodup
import Sentinel.Library.Indexed
import Sentinel.Library.Transition
import Sentinel.System.Operations
import Sentinel.Worker.PollCycle

/-!
# System — Polling

One worker process beside the requests, the resets of the demo account and the retention passes.
The poll cycles follow one another. In each, one check runs for every row that was fetched. Every
program performs one operation at a time, and any other may go on in between.

* `Polling`: the store, the poll cycle, and the threads of its checks and of the `Writer`s.
* `Polling.Scheme`: what an invariant says of the tables, of the items that wait and of the checks.
  A scheme that each operation keeps (`Scheme.Kept`) holds in every state (`Scheme.Holds.step`).
* `Polling.Inv`: the `Trail` of the committed changes, what keeps new ids apart from it, and that
  the snapshot of every check that has committed nothing still matches.
* `no_lost_update`: every row has the fold of all checks ever committed of its monitor and the
  fields of its last update.
-/

namespace Sentinel.System

open Program Database Api Worker Transition

/-- What the worker is started with. -/
structure WorkerConfig where
  registered : List String
  thresholds : List Int
  concurrency : Int

structure Polling where
  store : Store
  cycle : Cycle Checker.Monitor WorkError
  /-- The checks of the cycle, in the order in which they were started. -/
  checks : List (Thread Op Op.Res Session (Option WorkError))
  writers : List (Thread Op Op.Res Session Bool)

inductive Polling.Action where
  | fetch (choice : Choice)
  | tau
  | selectDone
  | receive
  | cancel
  | workReturns (i : Nat)
  /-- The next operation of a check. -/
  | check (i : Nat) (choice : Choice)
  /-- The next poll cycle. -/
  | again
  | call (w : Writer)
  /-- The next operation of a writer. -/
  | write (i : Nat) (choice : Choice)

/-- What the environment decides about an operation of the worker. -/
def Polling.Action.choice : Polling.Action → Option Choice
  | .fetch choice | .check _ choice => some choice
  | _ => none

namespace Polling

/-- Nothing has happened. -/
def start (st : Store) : Polling := ⟨st, Cycle.start _ _, [], []⟩

/-- A check that begins. -/
def checkThread (cfg : WorkerConfig) (m : Checker.Monitor) :
    Thread Op Op.Res Session (Option WorkError) :=
  ⟨checkAndPersist cfg.registered m cfg.thresholds, .idle⟩

/-- A step of the poll cycle, with a new check for an item that it starts. -/
def cycleStep (cfg : WorkerConfig) (s : Polling)
    (a : Worker.Action Checker.Monitor WorkError) : Option Polling :=
  (s.cycle.step isMonitorCheckError cfg.concurrency a).map fun c =>
    { s with
      cycle := c
      checks := s.checks ++ ((c.items.take c.next).drop s.cycle.next).map (checkThread cfg) }

/-- One step of the worker or of another program. -/
def step (cfg : WorkerConfig) (s : Polling) : Action → Option Polling
  | .fetch choice =>
      let r := fetchDueMonitors.run handle (fun _ => choice) s.store .idle
      cycleStep cfg { s with store := r.1 } (.fetch (r.2.2.mapError .database))
  | .tau => s.cycleStep cfg .tau
  | .selectDone => s.cycleStep cfg .selectDone
  | .receive => s.cycleStep cfg .receive
  | .cancel => s.cycleStep cfg .cancel
  | .workReturns i =>
      match s.checks[i]? with
      | some ⟨.ret err, _⟩ => s.cycleStep cfg (.workReturns i err)
      | _ => none
  | .check i choice =>
      (Pool.advance handle ⟨s.store, s.checks⟩ i choice).map fun p =>
        { s with store := p.shared, checks := p.threads }
  | .again =>
      match s.cycle.pc with
      | .returned _ => some { s with cycle := s.cycle.again, checks := [] }
      | _ => none
  | .call w => some { s with writers := s.writers ++ [⟨w.program, .idle⟩] }
  | .write i choice =>
      (Pool.advance handle ⟨s.store, s.writers⟩ i choice).map fun p =>
        { s with store := p.shared, writers := p.threads }

/-! ### The invariant -/

/-- The ids of monitors inserted by some threads and not yet committed. -/
def numbers {α : Type} (threads : List (Thread Op Op.Res Session α)) : List Int :=
  threads.flatMap fun thread => thread.own.numbers

/-- A check of a snapshot, which matches until its changes are committed. -/
def Checking (t : Int) (log : List Write) (m : Checker.Monitor)
    (thread : Thread Op Op.Res Session (Option WorkError)) : Prop :=
  ∃ committed, thread.Safe handle (Once (Checks t m)) (fun _ _ _ => True) committed ∧
    (committed = false → Matches t log m)

/-- A writer makes quiet changes. -/
structure Writing (thread : Thread Op Op.Res Session Bool) : Prop where
  sends : thread.prog.Only WriterSends
  quiet : ∀ w ∈ thread.own.writes, Quiet w

/-- The invariant, from the tables `first` on. -/
structure Inv (cfg : WorkerConfig) (first : Db) (s : Polling) : Prop where
  cycle : s.cycle.Inv isMonitorCheckError cfg.concurrency
  replayed : replay first s.store.log = .ok s.store.db
  trail : Trail (threshold cfg.thresholds) (first.monitors.map (·.id)) s.store.db s.store.log
  numbered : s.store.Numbered
    (numbers s.checks ++ (numbers s.writers ++ first.monitors.map (·.id)))
  distinct : (s.cycle.items.map (·.id)).Nodup
  started : s.checks.length = s.cycle.next
  waiting : ∀ (i : Nat) m, s.cycle.next ≤ i → s.cycle.items[i]? = some m →
    Matches (threshold cfg.thresholds) s.store.log m
  checking : ∀ (i : Nat) thread, s.checks[i]? = some thread → ∃ m, s.cycle.items[i]? = some m ∧
    Checking (threshold cfg.thresholds) s.store.log m thread
  ended : ∀ (i : Nat) thread, s.checks[i]? = some thread → i ∉ s.cycle.running →
    ∃ err, thread.prog = .ret err
  writing : ∀ thread ∈ s.writers, Writing thread

/-! ### Schemes -/

/-- What an invariant says of the tables, of an item that waits and of a check, by the changes
committed so far, and which changes it leaves to writers. -/
structure Scheme where
  rows : Db → List Write → Prop
  item : List Write → Checker.Monitor → Prop
  check : List Write → Checker.Monitor → Thread Op Op.Res Session (Option WorkError) → Prop
  writer : Write → Prop

/-- What is said of an item, waiting or checked, stands when `ws` are committed. -/
structure Scheme.Stands (S : Scheme) (log ws : List Write) (m : Checker.Monitor) : Prop where
  item : S.item log m → S.item (log ++ ws) m
  check : ∀ thread, S.check log m thread → S.check (log ++ ws) m thread

/-- The worker and the writers keep the scheme, under choices for the worker that `A` admits. -/
structure Scheme.Kept (S : Scheme) (cfg : WorkerConfig) (first : Db) (A : Db → Choice → Prop) :
    Prop where
  sends : ∀ o, WriterSends o → o.Writes S.writer
  due {db : Db} {log : List Write} {choice : Choice} {m : Monitor} : A db choice →
    S.rows db log → m ∈ db.monitors → m.due choice.moment.now = true → S.item log m.snapshot
  starts {log : List Write} {m : Checker.Monitor} : S.item log m →
    S.check log m (checkThread cfg m)
  check {st st' : Store} {choice : Choice} {m : Checker.Monitor}
    {thread thread' : Thread Op Op.Res Session (Option WorkError)} : A st.db choice →
    S.rows st.db st.log → S.check st.log m thread →
    thread.step handle choice st = some (st', thread') →
    ∃ ws, st.Extends ws st' ∧ S.rows st'.db st'.log ∧ S.check st'.log m thread' ∧
      ∀ m', m'.id ≠ m.id → S.Stands st.log ws m'
  write {db db' : Db} {log ws : List Write} : replay first log = .ok db → S.rows db log →
    (∀ w ∈ ws, S.writer w) → replay db ws = .ok db' →
    (first.monitors.map (·.id) ++ inserted (log ++ ws)).Nodup → S.rows db' (log ++ ws)
  stands {log ws : List Write} : (∀ w ∈ ws, S.writer w) → ∀ m, S.Stands log ws m

/-- The invariant of a scheme, from the tables `first` on. -/
structure Scheme.Holds (S : Scheme) (cfg : WorkerConfig) (first : Db) (s : Polling) : Prop where
  cycle : s.cycle.Inv isMonitorCheckError cfg.concurrency
  replayed : replay first s.store.log = .ok s.store.db
  rows : S.rows s.store.db s.store.log
  numbered : s.store.Numbered
    (numbers s.checks ++ (numbers s.writers ++ first.monitors.map (·.id)))
  distinct : (s.cycle.items.map (·.id)).Nodup
  started : s.checks.length = s.cycle.next
  waiting : ∀ (i : Nat) m, s.cycle.next ≤ i → s.cycle.items[i]? = some m →
    S.item s.store.log m
  checking : ∀ (i : Nat) thread, s.checks[i]? = some thread → ∃ m, s.cycle.items[i]? = some m ∧
    S.check s.store.log m thread
  ended : ∀ (i : Nat) thread, s.checks[i]? = some thread → i ∉ s.cycle.running →
    ∃ err, thread.prog = .ret err
  writing : ∀ thread ∈ s.writers, thread.prog.Only WriterSends ∧
    ∀ w ∈ thread.own.writes, S.writer w

section Lemmas

variable {cfg : WorkerConfig} {first : Db} {base : List Int} {s s' : Polling} {t : Int}
  {log : List Write}

theorem numbers_append {α : Type} (threads more : List (Thread Op Op.Res Session α)) :
    numbers (threads ++ more) = numbers threads ++ numbers more :=
  List.flatMap_append

/-- What is committed, new monitors among it, is not of the monitors there were. -/
theorem nodup_inserted {st : Store} {pending : List Int}
    (h : st.Numbered (pending ++ base)) : (base ++ inserted st.log).Nodup := by
  have hsub : (inserted st.log ++ base).Sublist (inserted st.log ++ (pending ++ base)) :=
    (List.sublist_append_right _ _).append_left _
  exact List.perm_append_comm.nodup_iff.mp (hsub.nodup h.nodup)

/-- Numbers stay apart when one of the threads performs an operation. -/
theorem numbered_advance {α : Type} {st st' : Store}
    {before after : List (Thread Op Op.Res Session α)} {thread thread' : Thread Op Op.Res Session α}
    {others : List Int} {choice : Choice}
    (h : st.Numbered (numbers (before ++ thread :: after) ++ others))
    (hs : thread.step handle choice st = some (st', thread')) :
    st'.Numbered (numbers (before ++ thread' :: after) ++ others) := by
  have hperm : ∀ thread : Thread Op Op.Res Session α,
      (numbers (before ++ thread :: after) ++ others).Perm
        (thread.own.numbers ++ (numbers before ++ numbers after ++ others)) := by
    intro thread
    rw [numbers_append, show numbers (thread :: after) = thread.own.numbers ++ numbers after from
      rfl, ← List.append_assoc thread.own.numbers]
    exact (List.perm_append_comm_assoc _ _ _).append_right others
  obtain ⟨o, k, -, rfl, rfl⟩ := Thread.step_cases hs
  exact (handle_numbered (h.perm (hperm thread)) choice o).perm
    (hperm ⟨_, (handle choice st thread.own o).2.1⟩).symm

/-- The tables are what the committed changes make of them. -/
theorem replay_extends {st st' : Store} {ws : List Write} (h : replay first st.log = .ok st.db)
    (hext : st.Extends ws st') : replay first st'.log = .ok st'.db := by
  rw [hext.log, replay_append, h]
  exact hext.replayed

/-- The checks that a step of the cycle begins: none, or that of the next item. -/
theorem spawned_none {items : List Checker.Monitor} (n : Nat) :
    ((items.take n).drop n).map (checkThread cfg) = [] := by
  rw [List.drop_take, Nat.sub_self, List.take_zero, List.map_nil]

theorem spawned_one {items : List Checker.Monitor} {n : Nat} (hn : n < items.length) :
    ((items.take (n + 1)).drop n).map (checkThread cfg) = [checkThread cfg items[n]] := by
  rw [List.drop_take, Nat.add_sub_cancel_left, List.drop_eq_getElem_cons hn, List.take_succ_cons,
    List.take_zero, List.map_singleton]

namespace Scheme

variable {S : Scheme} {A : Db → Choice → Prop}

/-- What a writer commits is of the scheme's kind. -/
theorem Kept.writes (hS : S.Kept cfg first A) {thread thread' : Thread Op Op.Res Session Bool}
    {st st' : Store} {choice : Choice}
    (h : thread.prog.Only WriterSends ∧ ∀ w ∈ thread.own.writes, S.writer w)
    (hs : thread.step handle choice st = some (st', thread')) :
    (thread'.prog.Only WriterSends ∧ ∀ w ∈ thread'.own.writes, S.writer w) ∧
      ∃ ws, st.Extends ws st' ∧ ∀ w ∈ ws, S.writer w := by
  obtain ⟨p, own⟩ := thread
  obtain ⟨o, k, rfl, rfl, rfl⟩ := Thread.step_cases hs
  obtain ⟨⟨hsends, hrest⟩, hown⟩ := h
  obtain ⟨hws, hown'⟩ := handle_writes (hS.sends o hsends) choice st hown
  exact ⟨⟨hrest _, hown'⟩, hws⟩

/-- A step of the cycle that begins no item. -/
theorem Holds.onward (h : S.Holds cfg first s) {c : Cycle Checker.Monitor WorkError}
    (hcycle : c.Inv isMonitorCheckError cfg.concurrency) (hitems : c.items = s.cycle.items)
    (hnext : c.next = s.cycle.next)
    (hended : ∀ i thread, s.checks[i]? = some thread → i ∉ c.running →
      ∃ err, thread.prog = .ret err) : S.Holds cfg first { s with cycle := c } := by
  refine ⟨hcycle, h.replayed, h.rows, h.numbered, ?_, h.started.trans hnext.symm, ?_, ?_,
    hended, h.writing⟩
  · rw [hitems]
    exact h.distinct
  · rw [hitems, hnext]
    exact h.waiting
  · rw [hitems]
    exact h.checking

/-- A step of the cycle keeps the invariant, if it is right about the items that are fetched, and if
a check that has returned has ended. -/
theorem Holds.onCycle (hS : S.Kept cfg first A) (h : S.Holds cfg first s)
    {a : Worker.Action Checker.Monitor WorkError} (hs : s.cycleStep cfg a = some s')
    (hfetch : ∀ items, a = .fetch (.ok items) → (items.map (·.id)).Nodup ∧
      ∀ m ∈ items, S.item s.store.log m)
    (hreturns : ∀ i err, a = .workReturns i err → ∀ thread, s.checks[i]? = some thread →
      ∃ err, thread.prog = .ret err) : S.Holds cfg first s' := by
  obtain ⟨c, hc, rfl⟩ := Option.map_eq_some_iff.mp hs
  have hcycle : c.Inv isMonitorCheckError cfg.concurrency := h.cycle.step hc
  cases h.cycle.itemStep hc with
  | @fetched items _ hn hitems hnext hrunning =>
      -- no check of this cycle has begun
      have hnone : s.checks = [] := List.eq_nil_of_length_eq_zero (h.started.trans hn)
      obtain ⟨hdistinct, hitem⟩ := hfetch items rfl
      rw [hnext, List.take_zero, List.drop_nil, List.map_nil, List.append_nil]
      refine ⟨hcycle, h.replayed, h.rows, h.numbered, hitems ▸ hdistinct,
        by rw [hnext, hnone]; rfl, ?_, ?_, ?_, h.writing⟩
      · intro i m _ hm
        rw [hitems] at hm
        exact hitem m (List.mem_of_getElem? hm)
      · intro i thread hthread
        rw [hnone] at hthread
        cases hthread
      · intro i thread hthread
        rw [hnone] at hthread
        cases hthread
  | started hn hitems hnext hrunning =>
      -- the item that waited first is checked from here on
      rw [hitems, hnext, spawned_one hn]
      refine ⟨hcycle, h.replayed, h.rows, ?_, ?_, ?_, ?_, ?_, ?_, h.writing⟩
      · rw [numbers_append, show numbers [checkThread cfg _] = [] from rfl, List.append_nil]
        exact h.numbered
      · rw [hitems]
        exact h.distinct
      · rw [hnext, List.length_append, h.started]
        rfl
      · intro i m hi hm
        rw [hitems] at hm
        rw [hnext] at hi
        exact h.waiting i m (Nat.le_of_succ_le hi) hm
      · intro i thread hthread
        rw [hitems]
        rcases Indexed.concat_cases hthread with hthread | ⟨rfl, rfl⟩
        · exact h.checking i thread hthread
        · rw [h.started]
          have hitem : s.cycle.items[s.cycle.next]? = some s.cycle.items[s.cycle.next] :=
            List.getElem?_eq_getElem hn
          exact ⟨_, hitem, hS.starts (h.waiting _ _ (Nat.le_refl _) hitem)⟩
      · intro i thread hthread hi
        rw [hrunning, List.mem_cons, not_or] at hi
        rcases Indexed.concat_cases hthread with hthread | ⟨rfl, rfl⟩
        · exact h.ended i thread hthread hi.2
        · exact absurd h.started hi.1
  | @ended i err _ hitems hnext hrunning =>
      rw [hitems, hnext, spawned_none, List.append_nil]
      refine h.onward hcycle hitems hnext fun j thread hthread hj => ?_
      by_cases hij : j = i
      · subst hij
        exact hreturns j err rfl thread hthread
      · rw [hrunning, List.mem_erase_of_ne hij] at hj
        exact h.ended j thread hthread hj
  | nothing hitems hnext hrunning =>
      rw [hitems, hnext, spawned_none, List.append_nil]
      exact h.onward hcycle hitems hnext (hrunning ▸ h.ended)

/-- A store on which nothing more is committed. -/
theorem Holds.nothing (h : S.Holds cfg first s) {st : Store} (hext : s.store.Extends [] st)
    (hnumbered : st.Numbered
      (numbers s.checks ++ (numbers s.writers ++ first.monitors.map (·.id)))) :
    S.Holds cfg first { s with store := st } := by
  have hlog : st.log = s.store.log := by rw [hext.log, List.append_nil]
  have hdb : st.db = s.store.db := (Except.ok.inj hext.replayed).symm
  refine ⟨h.cycle, replay_extends h.replayed hext, ?_, hnumbered, h.distinct, h.started, ?_, ?_,
    h.ended, h.writing⟩
  · show S.rows st.db st.log
    rw [hdb, hlog]
    exact h.rows
  · show ∀ i m, _ → _ → S.item st.log m
    rw [hlog]
    exact h.waiting
  · show ∀ i thread, _ → ∃ m, _ ∧ S.check st.log m thread
    rw [hlog]
    exact h.checking

theorem Holds.fetch (hS : S.Kept cfg first A) (h : S.Holds cfg first s) {choice : Choice}
    (hA : A s.store.db choice) (hs : s.step cfg (.fetch choice) = some s') :
    S.Holds cfg first s' := by
  have hselect : (Op.sql .selectDue).Writes fun _ => False := by
    refine Op.writes_of_makes fun q hq w hw => ?_
    cases hq
    cases hw
  obtain ⟨⟨ws, hext, hws⟩, hown⟩ := handle_writes hselect choice s.store (s := .idle)
    fun w hw => absurd hw List.not_mem_nil
  have hnumbered := handle_numbered (s := .idle) h.numbered choice (.sql .selectDue)
  rw [List.eq_nil_iff_forall_not_mem.mpr hws] at hext
  rw [Session.numbers, List.eq_nil_iff_forall_not_mem.mpr hown] at hnumbered
  have hstep : cycleStep cfg { s with store := (handle choice s.store .idle (.sql .selectDue)).1 }
      (.fetch ((fetchDueMonitors.run handle (fun _ => choice) s.store .idle).2.2.mapError
        .database)) = some s' := hs
  refine Holds.onCycle hS (h.nothing hext hnumbered) hstep (fun items hitems => ?_)
    (fun i err hreturns => by cases hreturns)
  cases hr : (fetchDueMonitors.run handle (fun _ => choice) s.store .idle).2.2 with
  | error e =>
      rw [hr] at hitems
      cases hitems
  | ok ms =>
      rw [hr] at hitems
      cases hitems
      obtain rfl := fetchDueMonitors_due choice hr
      constructor
      · have hids : (((s.store.db.monitors.filter (·.due choice.moment.now)).map
            (·.snapshot)).map (·.id)) =
              (s.store.db.monitors.filter (·.due choice.moment.now)).map (·.id) := by
          rw [List.map_map]
          rfl
        have hthere : (s.store.db.monitors.map (·.id)).Sublist
            (first.monitors.map (·.id) ++ inserted s.store.log) := replay_ids h.replayed
        rw [hids]
        exact ((List.filter_sublist.map _).trans hthere).nodup
          (nodup_inserted (by rw [List.append_assoc]; exact h.numbered))
      · intro m hm
        obtain ⟨row, hrow, rfl⟩ := List.mem_map.mp hm
        obtain ⟨hrow, hdue⟩ := List.mem_filter.mp hrow
        show S.item (handle choice s.store .idle (.sql .selectDue)).1.log _
        rw [hext.log, List.append_nil]
        exact hS.due hA h.rows hrow hdue

/-- The ids of the items are distinct. -/
theorem Holds.id_ne (h : S.Holds cfg first s) {i j : Nat} {m m' : Checker.Monitor}
    (hm : s.cycle.items[i]? = some m) (hj : j ≠ i) (hm' : s.cycle.items[j]? = some m') :
    m'.id ≠ m.id := by
  intro hid
  have hjth : (s.cycle.items.map (·.id))[j]? = (s.cycle.items.map (·.id))[i]? := by
    rw [List.getElem?_map, List.getElem?_map, hm', hm, Option.map_some, Option.map_some, hid]
  have hlt : j < (s.cycle.items.map (·.id)).length := by
    rw [List.length_map]
    exact (List.getElem?_eq_some_iff.mp hm').1
  exact hj ((List.getElem?_inj hlt h.distinct).mp hjth)

theorem Holds.check (hS : S.Kept cfg first A) (h : S.Holds cfg first s) {i : Nat}
    {choice : Choice} (hA : A s.store.db choice) (hs : s.step cfg (.check i choice) = some s') :
    S.Holds cfg first s' := by
  obtain ⟨pool, hpool, rfl⟩ := Option.map_eq_some_iff.mp hs
  obtain ⟨before, thread, thread', after, hi, hthreads, hthreads', hset, hstep⟩ :=
    Pool.advance_cases hpool
  obtain ⟨m, hm, hcheck⟩ := h.checking i thread hi
  obtain ⟨ws, hext, hrows, hcheck', hothers⟩ := hS.check hA h.rows hcheck hstep
  have hlength : i < s.checks.length := (List.getElem?_eq_some_iff.mp hi).1
  refine ⟨h.cycle, replay_extends h.replayed hext, hrows, ?_, h.distinct, ?_, ?_, ?_, ?_,
    h.writing⟩
  · show pool.shared.Numbered (numbers pool.threads ++ _)
    rw [hthreads']
    have hnumbered := h.numbered
    rw [show s.checks = before ++ thread :: after from hthreads] at hnumbered
    exact numbered_advance hnumbered hstep
  · show pool.threads.length = s.cycle.next
    rw [hset, List.length_set]
    exact h.started
  · intro j m' hj hm'
    show S.item pool.shared.log m'
    rw [hext.log]
    have hji : j ≠ i := Nat.ne_of_gt (Nat.lt_of_lt_of_le (h.started ▸ hlength) hj)
    exact (hothers m' (h.id_ne hm hji hm')).item (h.waiting j m' hj hm')
  · intro j thread₁ hthread₁
    show ∃ m', _ ∧ S.check pool.shared.log m' thread₁
    have hthread₂ : (s.checks.set i thread')[j]? = some thread₁ := hset ▸ hthread₁
    rw [List.getElem?_set] at hthread₂
    split at hthread₂
    · rename_i hij
      subst hij
      cases hthread₂
      exact ⟨m, hm, hcheck'⟩
    · rename_i hij
      rw [hext.log]
      obtain ⟨m', hm', hcheck₁⟩ := h.checking j thread₁ hthread₂
      exact ⟨m', hm', (hothers m' (h.id_ne hm (Ne.symm hij) hm')).check thread₁ hcheck₁⟩
  · intro j thread₁ hthread₁ hj
    have hthread₂ : (s.checks.set i thread')[j]? = some thread₁ := hset ▸ hthread₁
    rw [List.getElem?_set] at hthread₂
    split at hthread₂
    · -- a check that goes on had not ended
      rename_i hij
      subst hij
      obtain ⟨err, herr⟩ := h.ended i thread hi hj
      obtain ⟨o, k, hcall, -, -⟩ := Thread.step_cases hstep
      rw [hcall] at herr
      cases herr
    · exact h.ended j thread₁ hthread₂ hj

theorem Holds.write (hS : S.Kept cfg first A) (h : S.Holds cfg first s) {i : Nat}
    {choice : Choice} (hs : s.step cfg (.write i choice) = some s') : S.Holds cfg first s' := by
  obtain ⟨pool, hpool, rfl⟩ := Option.map_eq_some_iff.mp hs
  obtain ⟨before, thread, thread', after, hi, hthreads, hthreads', hset, hstep⟩ :=
    Pool.advance_cases hpool
  obtain ⟨hwriting', ws, hext, hws⟩ := hS.writes (h.writing thread (List.mem_of_getElem? hi)) hstep
  have hnumbered : pool.shared.Numbered (numbers s.checks ++
      (numbers pool.threads ++ first.monitors.map (·.id))) := by
    have hbefore := h.numbered.perm (List.perm_append_comm_assoc _ _ _)
    rw [show s.writers = before ++ thread :: after from hthreads] at hbefore
    rw [hthreads']
    exact (numbered_advance hbefore hstep).perm (List.perm_append_comm_assoc _ _ _)
  refine ⟨h.cycle, replay_extends h.replayed hext, ?_, hnumbered, h.distinct, h.started, ?_, ?_,
    h.ended, ?_⟩
  · show S.rows pool.shared.db pool.shared.log
    have hnodup := nodup_inserted (by rw [List.append_assoc]; exact hnumbered)
    rw [hext.log] at hnodup ⊢
    exact hS.write h.replayed h.rows hws hext.replayed hnodup
  · intro j m hj hm
    show S.item pool.shared.log m
    rw [hext.log]
    exact (hS.stands hws m).item (h.waiting j m hj hm)
  · intro j thread₁ hthread₁
    obtain ⟨m, hm, hcheck⟩ := h.checking j thread₁ hthread₁
    show ∃ m', _ ∧ S.check pool.shared.log m' thread₁
    rw [hext.log]
    exact ⟨m, hm, (hS.stands hws m).check thread₁ hcheck⟩
  · intro thread₁ hthread₁
    rw [show pool.threads = before ++ thread' :: after from hthreads'] at hthread₁
    have hold := h.writing
    rw [show s.writers = before ++ thread :: after from hthreads] at hold
    rcases List.mem_append.mp hthread₁ with hmem | hmem
    · exact hold _ (List.mem_append_left _ hmem)
    · rcases List.mem_cons.mp hmem with rfl | hmem
      · exact hwriting'
      · exact hold _ (List.mem_append_right _ (List.mem_cons_of_mem _ hmem))

/-- **What every operation keeps of a scheme, every step of the system keeps.** -/
theorem Holds.step (hS : S.Kept cfg first A) (h : S.Holds cfg first s) {a : Action}
    (hA : ∀ choice, a.choice = some choice → A s.store.db choice)
    (hs : s.step cfg a = some s') : S.Holds cfg first s' := by
  cases a with
  | fetch choice => exact h.fetch hS (hA choice rfl) hs
  | tau | selectDone | receive | cancel =>
      exact h.onCycle hS hs (fun items hitems => (nomatch hitems)) (fun i err hi => (nomatch hi))
  | workReturns i =>
      simp only [Polling.step] at hs
      split at hs
      · rename_i err own hi
        refine h.onCycle hS hs (fun items hitems => (nomatch hitems)) (fun j err' hj => ?_)
        cases hj
        intro thread hthread
        rw [hi] at hthread
        cases hthread
        exact ⟨err, rfl⟩
      · cases hs
  | check i choice => exact h.check hS (hA choice rfl) hs
  | again =>
      simp only [Polling.step] at hs
      split at hs
      · cases hs
        exact ⟨Cycle.inv_again _ _ _, h.replayed, h.rows,
          h.numbered.sublist (List.sublist_append_right _ _), List.nodup_nil, rfl,
          fun i m _ hm => (nomatch hm), fun i thread hi => (nomatch hi),
          fun i thread hi => (nomatch hi), h.writing⟩
      · cases hs
  | call w =>
      cases hs
      refine ⟨h.cycle, h.replayed, h.rows, ?_, h.distinct, h.started, h.waiting, h.checking,
        h.ended, ?_⟩
      · rw [numbers_append, show numbers [⟨w.program, .idle⟩] = [] from rfl, List.append_nil]
        exact h.numbered
      · intro thread hthread
        rcases List.mem_append.mp hthread with hthread | hthread
        · exact h.writing thread hthread
        · rw [List.mem_singleton.mp hthread]
          exact ⟨w.program_sends, fun w hw => (nomatch hw)⟩
  | write i choice => exact h.write hS hs

/-- Before the first fetch, a scheme says what it says of the tables. -/
theorem holds_start {st : Store} (hkeyed : Keyed st.seq st.db) (hlog : st.log = [])
    (hrows : S.rows st.db []) : S.Holds cfg st.db (Polling.start st) where
  cycle := Cycle.inv_start _ _
  replayed := by
    show replay st.db st.log = _
    rw [hlog]
    rfl
  rows := by
    show S.rows st.db st.log
    rwa [hlog]
  numbered := by
    constructor
    · show (st.log.filterMap Write.newMonitor ++ st.db.monitors.map (·.id)).Nodup
      rw [hlog]
      exact hkeyed.monitors
    · show ∀ id ∈ st.log.filterMap Write.newMonitor ++ st.db.monitors.map (·.id), _
      rw [hlog]
      intro id hid
      obtain ⟨m, hm, rfl⟩ := List.mem_map.mp hid
      exact hkeyed.monitorsBelow m hm
  distinct := List.nodup_nil
  started := rfl
  waiting i m _ hm := nomatch hm
  checking i thread hi := nomatch hi
  ended i thread hi := nomatch hi
  writing thread hthread := nomatch hthread

end Scheme

/-! ### The trail -/

/-- Items that have other ids still match after a check. -/
theorem Checking.append {m : Checker.Monitor}
    {thread : Thread Op Op.Res Session (Option WorkError)} (h : Checking t log m thread)
    {ws : List Write} (hws : ∀ w ∈ ws, w.probeState m.id = none) :
    Checking t (log ++ ws) m thread := by
  obtain ⟨committed, hsafe, hmatches⟩ := h
  exact ⟨committed, hsafe, fun h => (hmatches h).append hws⟩

/-- A step of a check commits nothing, or a check of a snapshot that matches. -/
theorem Checking.step {m : Checker.Monitor}
    {thread thread' : Thread Op Op.Res Session (Option WorkError)} {st st' : Store}
    {choice : Choice} (h : Checking t st.log m thread)
    (hs : thread.step handle choice st = some (st', thread')) :
    Checking t st'.log m thread' ∧ ∃ ws, st.Extends ws st' ∧
      (ws = [] ∨ Checks t m ws ∧ Matches t st.log m) := by
  obtain ⟨committed, hsafe, hmatches⟩ := h
  obtain ⟨committed', ⟨ws, hext, hws⟩, hsafe'⟩ := Thread.Safe.step hsafe hs
  rcases hws with ⟨rfl, rfl⟩ | ⟨hbefore, hchecks, hafter⟩
  · refine ⟨⟨committed', hsafe', ?_⟩, [], hext, .inl rfl⟩
    rw [hext.log, List.append_nil]
    exact hmatches
  · refine ⟨⟨committed', hsafe', fun h => ?_⟩, ws, hext, .inr ⟨hchecks, hmatches hbefore⟩⟩
    rw [hafter] at h
    cases h

/-- The rows follow the trail, and a check that has committed nothing has a snapshot that matches
it. -/
def trailed (t : Int) (base : List Int) : Scheme where
  rows := Trail t base
  item := Matches t
  check := Checking t
  writer := Quiet

/-- Nothing else is told of a monitor by changes that are not of its checks. -/
theorem trailed_stands {ws : List Write} {m : Checker.Monitor}
    (hws : ∀ w ∈ ws, w.probeState m.id = none) : (trailed t base).Stands log ws m :=
  ⟨fun h => Matches.append h hws, fun _ h => Checking.append h hws⟩

theorem trailed_kept (cfg : WorkerConfig) (first : Db) :
    (trailed (threshold cfg.thresholds) (first.monitors.map (·.id))).Kept cfg first
      fun _ _ => True where
  sends _ ho := ho.quiet
  due _ hrows hm _ := (hrows.rows _ hm).snapshot
  starts h := ⟨false, checkAndPersist_beside _ _ _, fun _ => h⟩
  check _ hrows hcheck hs := by
    obtain ⟨hcheck', ws, hext, hws⟩ := Checking.step hcheck hs
    refine ⟨ws, hext, ?_, hcheck', fun m' hid => trailed_stands ?_⟩
    · show Trail _ _ _ _
      rw [hext.log]
      -- a check commits once, and its snapshot matches the trail until then
      rcases hws with rfl | ⟨hchecks, hmatches⟩
      · rw [List.append_nil, ← Except.ok.inj hext.replayed]
        exact hrows
      · exact hrows.check hmatches hchecks hext.replayed
    · rcases hws with rfl | ⟨hchecks, -⟩
      · exact fun w hw => (nomatch hw)
      · exact fun w hw => (Write.not_about (hchecks.about hid w hw)).1
  write _ hrows hws hreplay hnodup := hrows.quiet hws hreplay hnodup
  stands hws m := trailed_stands fun w hw => (hws w hw).probeState m.id

/-! ### The invariant as a scheme -/

theorem Inv.holds (h : s.Inv cfg first) :
    (trailed (threshold cfg.thresholds) (first.monitors.map (·.id))).Holds cfg first s where
  cycle := h.cycle
  replayed := h.replayed
  rows := h.trail
  numbered := h.numbered
  distinct := h.distinct
  started := h.started
  waiting := h.waiting
  checking := h.checking
  ended := h.ended
  writing thread hthread := ⟨(h.writing thread hthread).sends, (h.writing thread hthread).quiet⟩

theorem Inv.of_holds
    (h : (trailed (threshold cfg.thresholds) (first.monitors.map (·.id))).Holds cfg first s) :
    s.Inv cfg first where
  cycle := h.cycle
  replayed := h.replayed
  trail := h.rows
  numbered := h.numbered
  distinct := h.distinct
  started := h.started
  waiting := h.waiting
  checking := h.checking
  ended := h.ended
  writing thread hthread := ⟨(h.writing thread hthread).1, (h.writing thread hthread).2⟩

/-- **Every step keeps the invariant.** -/
theorem Inv.step (h : s.Inv cfg first) {a : Action} (hs : s.step cfg a = some s') :
    s'.Inv cfg first :=
  .of_holds (h.holds.step (trailed_kept cfg first) (fun _ _ => trivial) hs)

end Lemmas

end Polling

/-! ### Runs -/

/-- Nothing is committed yet, and no monitor that is there was ever checked. -/
structure Unchecked (st : Store) : Prop where
  keyed : Keyed st.seq st.db
  log : st.log = []
  rows : ∀ m ∈ st.db.monitors, m.lastState = none ∧ m.consecutiveFailures = 0

theorem Unchecked.inv {cfg : WorkerConfig} {st : Store} (h : Unchecked st) :
    (Polling.start st).Inv cfg st.db := by
  refine .of_holds (Polling.Scheme.holds_start h.keyed h.log ?_)
  exact ⟨by rw [inserted, List.filterMap_nil, List.append_nil], fun w hw => (nomatch hw),
    fun m hm => agrees_unchecked (h.rows m hm) fun w hw => (nomatch hw)⟩

/-- When a poll cycle returns, all of its checks have ended, so no check of the next one runs beside
them. -/
theorem checks_ended {cfg : WorkerConfig} {st : Store} (hst : Unchecked st)
    {actions : List Polling.Action} {s : Polling}
    (hrun : Run (Polling.step cfg) (Polling.start st) actions s)
    {err : Option (CycleError WorkError)} (hpc : s.cycle.pc = .returned err) :
    ∀ thread ∈ s.checks, ∃ r, thread.prog = .ret r := by
  have hinv : s.Inv cfg st.db := hrun.invariant (fun _ _ _ h hs => h.step hs) hst.inv
  intro thread hthread
  obtain ⟨i, hi⟩ := List.mem_iff_getElem?.mp hthread
  refine hinv.ended i thread hi ?_
  rw [(Cycle.idle_of_returned hinv.cycle hpc).1]
  exact List.not_mem_nil

/-- **No update is lost.** In every state of every run of the worker beside any requests, resets and
retention passes, in any order and whatever fails, every row has `last_state` and
`consecutive_failures` from the fold of `evaluateFSM` over all checks ever committed of its monitor;
the alerts ever inserted of it are those of the fold; and it has the fields of its last update. -/
theorem no_lost_update (cfg : WorkerConfig) (st : Store) (hst : Unchecked st)
    (actions : List Polling.Action) (s : Polling)
    (hrun : Run (Polling.step cfg) (Polling.start st) actions s) :
    replay st.db s.store.log = .ok s.store.db ∧ ∀ m ∈ s.store.db.monitors,
      let fold := history (threshold cfg.thresholds) (probeStates m.id s.store.log)
      (m.lastState = fold.state ∧ m.consecutiveFailures = fold.failures) ∧
        alertTypes m.id s.store.log = fold.alerts ∧
          ∀ patch, (patches m.id s.store.log).getLast? = some patch → patch.Holds m := by
  have hinv : s.Inv cfg st.db := hrun.invariant (fun _ _ _ h hs => h.step hs) hst.inv
  refine ⟨hinv.replayed, fun m hm => ?_⟩
  have hrow := hinv.trail.rows m hm
  exact ⟨⟨hrow.state, hrow.failures⟩, hrow.alerts, hrow.patched⟩

/-- A store with a monitor that was never checked. -/
def newSite : Store where
  db :=
    { users := [⟨1, "", "", "owner", "owner@example.com", "", 0, 0, none, true, false⟩]
      monitors := [⟨1, "api", "https://example.com", 60, "Active", 0, "http", some "{}", none, none,
        0, 1, none, false⟩]
      checkResults := []
      alerts := [] }
  seq := ⟨2, 2, 1, 1⟩
  log := []

theorem newSite_unchecked : Unchecked newSite :=
  ⟨⟨by decide, by decide, by decide, by decide, by decide⟩, rfl, by decide⟩

/-- A failed check, and an update that is committed between its statements. -/
def renamedDuringCheck : List Polling.Action :=
  let calm := Choice.calm 0 (.ok ⟨"unhealthy", 0, none, none, none⟩)
  [.fetch calm, .tau, .tau, .tau, .tau, .tau,
    .call (.update statusRuntime 1 ⟨1, false⟩
      ⟨.value "renamed", .undefined, .undefined, .undefined, .undefined⟩),
    .check 0 calm, .check 0 calm, .write 0 calm, .check 0 calm, .check 0 calm, .check 0 calm,
    .write 0 calm, .check 0 calm, .check 0 calm, .check 0 calm, .workReturns 0, .receive]

theorem no_lost_update_renamed : ∃ s,
    Run (Polling.step ⟨["http"], [1], 1⟩) (Polling.start newSite) renamedDuringCheck s ∧
      s.store.db.monitors.map (fun m => (m.name, m.lastState, m.consecutiveFailures)) =
        [("renamed", some "unhealthy", 1)] ∧
      alertTypes 1 s.store.log = ["down"] ∧
      replay newSite.db s.store.log = .ok s.store.db ∧ ∀ m ∈ s.store.db.monitors,
        let fold := history 1 (probeStates m.id s.store.log)
        (m.lastState = fold.state ∧ m.consecutiveFailures = fold.failures) ∧
          alertTypes m.id s.store.log = fold.alerts ∧
            ∀ patch, (patches m.id s.store.log).getLast? = some patch → patch.Holds m := by
  have hexec : (exec (Polling.step ⟨["http"], [1], 1⟩) (Polling.start newSite)
      renamedDuringCheck).map (fun s =>
        (s.store.db.monitors.map fun m => (m.name, m.lastState, m.consecutiveFailures),
          alertTypes 1 s.store.log)) =
        some ([("renamed", some "unhealthy", 1)], ["down"]) := by
    decide +kernel
  obtain ⟨s, hs, heq⟩ := Option.map_eq_some_iff.mp hexec
  simp only [Prod.mk.injEq] at heq
  have hrun := run_of_exec hs
  have hkept := no_lost_update ⟨["http"], [1], 1⟩ newSite newSite_unchecked _ s hrun
  have hthreshold : threshold [1] = 1 := rfl
  simp only [hthreshold] at hkept
  exact ⟨s, hrun, heq.1, heq.2, hkept⟩

end Sentinel.System
