import Sentinel.Database.Session
import Sentinel.Worker.Fsm

/-!
# Worker — Persist

`fetchDueMonitors` and `checkAndPersist` of `internal/worker/loop.go`: the monitors that are due,
and one check of one of them, recorded in one transaction.
-/

namespace Sentinel.Worker

open Program Database

/-- The errors of a work item. -/
inductive WorkError where
  | monitorCheck (err : String)
  | database (err : DbError)
deriving DecidableEq, Repr

def isMonitorCheckError : WorkError → Bool
  | .monitorCheck _ => true
  | .database _ => false

/-- `fetchDueMonitors`. What was read before an error is not used. -/
def fetchDueMonitors : Client (Except DbError (List Checker.Monitor)) := Client.sql .selectDue

def isConcurrentDeleteForeignKey (err : DbError) : Bool := err = foreignKeyViolation

/-- The text of an alert. -/
def alertMessage (name alertType : String) : String :=
  if alertType = "recovery" then name ++ " se recuperó" else name ++ " esta caído"

/-- The result of a statement on a monitor that may have been deleted since it was fetched. -/
def ignoreConcurrentDelete (err : DbError) : Option WorkError :=
  if isConcurrentDeleteForeignKey err then none else some (.database err)

/-- The commit of the transaction. -/
def commitCheck : Client (Option WorkError) := do
  match ← Client.commit with
  | .error err => return some (.database err)
  | .ok _ => return none

/-- The alert of the transaction, if there is one, and its commit. -/
def persistAlert (m : Checker.Monitor) (evaluation : FsmEvaluation) (now : Time) :
    Client (Option WorkError) :=
  if evaluation.alertType ≠ "" then do
    match ← Client.sql (.insertAlert m.id evaluation.alertType
        (alertMessage m.name evaluation.alertType) now) with
    | .error err => return ignoreConcurrentDelete err
    | .ok _ => commitCheck
  else commitCheck

/-- The statements of the transaction. -/
def persist (m : Checker.Monitor) (result : Checker.Result) (evaluation : FsmEvaluation)
    (now : Time) : Client (Option WorkError) := do
  match ← Client.sql (.insertCheckResult m.id result.state result.statusCode result.latencyMs
      result.responseSample result.errorMessage now) with
  | .error err => return ignoreConcurrentDelete err
  | .ok _ =>
      match ← Client.sql (.updateChecked evaluation.state evaluation.consecutiveFailures m.id
          now) with
      | .error err => return some (.database err)
      | .ok rowsAffected =>
          if rowsAffected = 0 then return none else persistAlert m evaluation now

/-- The threshold of the variadic argument. -/
def threshold (thresholds : List Int) : Int :=
  match thresholds with
  | t :: _ => if t > 0 then t else 3
  | [] => 3

/-- `checkAndPersist`. The rollback is deferred, so it also runs after the commit. -/
def checkAndPersist (registered : List String) (m : Checker.Monitor) (thresholds : List Int) :
    Client (Option WorkError) :=
  match Checker.get registered m.checkType with
  | .error err => return some (.monitorCheck err)
  | .ok _ => do
      match ← Client.probe m with
      | .error err => return some (.monitorCheck err)
      | .ok result =>
          let evaluation := evaluateFSM m.lastState m.consecutiveFailures result.state
            (threshold thresholds)
          let now ← Client.now
          match ← Client.begin with
          | .error err => return some (.database err)
          | .ok _ =>
              let r ← persist m result evaluation now
              let _ ← Client.rollback
              return r

/-! ### What a check sends -/

/-- The operations of a check. -/
inductive CheckSends (m : Checker.Monitor) (thresholds : List Int) : Op → Prop where
  | probe : CheckSends m thresholds (.probe m)
  | now : CheckSends m thresholds .now
  | begin : CheckSends m thresholds .begin
  | insertCheckResult (result : Checker.Result) (now : Time) :
      CheckSends m thresholds (.sql (.insertCheckResult m.id result.state result.statusCode
        result.latencyMs result.responseSample result.errorMessage now))
  | update (state : String) (now : Time) :
      CheckSends m thresholds (.sql (.updateChecked
        (evaluateFSM m.lastState m.consecutiveFailures state (threshold thresholds)).state
        (evaluateFSM m.lastState m.consecutiveFailures state
          (threshold thresholds)).consecutiveFailures m.id now))
  | insertAlert (alertType message : String) (now : Time) :
      CheckSends m thresholds (.sql (.insertAlert m.id alertType message now))
  | commit : CheckSends m thresholds .commit
  | rollback : CheckSends m thresholds .rollback

theorem persist_sends (m : Checker.Monitor) (thresholds : List Int) (result : Checker.Result)
    (now : Time) :
    (persist m result (evaluateFSM m.lastState m.consecutiveFailures result.state
      (threshold thresholds)) now).Only (CheckSends m thresholds) := by
  have hcommit : commitCheck.Only (CheckSends m thresholds) := by
    refine Prog.only_bind (fun r => ?_) (Prog.only_op .commit)
    cases r <;> trivial
  refine Prog.only_bind (fun r => ?_) (Prog.only_op (.insertCheckResult result now))
  cases r with
  | error err => trivial
  | ok _ =>
      refine Prog.only_bind (fun r => ?_) (Prog.only_op (.update result.state now))
      cases r with
      | error err => trivial
      | ok rowsAffected =>
          simp only
          split
          · trivial
          · unfold persistAlert
            split
            · refine Prog.only_bind (fun r => ?_) (Prog.only_op (.insertAlert ..))
              cases r with
              | error err => trivial
              | ok _ => exact hcommit
            · exact hcommit

theorem checkAndPersist_sends (registered : List String) (m : Checker.Monitor)
    (thresholds : List Int) :
    (checkAndPersist registered m thresholds).Only (CheckSends m thresholds) := by
  unfold checkAndPersist
  split
  · trivial
  · refine Prog.only_bind (fun probe => ?_) (Prog.only_op .probe)
    cases probe with
    | error err => trivial
    | ok result =>
        refine Prog.only_bind (fun now => ?_) (Prog.only_op .now)
        refine Prog.only_bind (fun r => ?_) (Prog.only_op .begin)
        cases r with
        | error err => trivial
        | ok _ =>
            refine Prog.only_bind (fun r => ?_) (persist_sends m thresholds result now)
            exact Prog.only_bind (fun _ => Prog.only_ret) (Prog.only_op .rollback)

/-! ### All or nothing -/

namespace Trace

def commitSucceeded : Event → Bool
  | ⟨.commit, .ok _⟩ => true
  | _ => false

def beginCalled : Event → Bool
  | ⟨.begin, _⟩ => true
  | _ => false

def begun : Event → Bool
  | ⟨.begin, .ok _⟩ => true
  | _ => false

/-- The transaction is ended by its own function's call. -/
def closes : Event → Bool
  | ⟨.rollback, _⟩ => true
  | ⟨.commit, .ok _⟩ => true
  | _ => false

def probeFailed : Event → Bool
  | ⟨.probe _, .error _⟩ => true
  | _ => false

/-- A statement shows that the monitor was deleted: an insert refused for the foreign key, or no
row to update. -/
def concurrentDelete : Event → Bool
  | ⟨.sql (.insertCheckResult ..), .error err⟩ => isConcurrentDeleteForeignKey err
  | ⟨.sql (.insertAlert ..), .error err⟩ => isConcurrentDeleteForeignKey err
  | ⟨.sql (.updateChecked ..), .ok rowsAffected⟩ => decide (rowsAffected = 0)
  | _ => false

/-- The probe's result. -/
def probed : Event → Option Checker.Result
  | ⟨.probe _, .ok result⟩ => some result
  | _ => none

end Trace

/-- The changes of a check. -/
def checkWrites (m : Checker.Monitor) (result : Checker.Result) (evaluation : FsmEvaluation)
    (now : Time) (resultId alertId : Int) : List Write :=
  [.insertCheckResult ⟨resultId, m.id, result.state, result.statusCode, result.latencyMs,
    result.responseSample, result.errorMessage, now⟩,
    .setChecked m.id evaluation.state now evaluation.consecutiveFailures] ++
    if evaluation.alertType = "" then []
    else [.insertAlert ⟨alertId, m.id, evaluation.alertType,
      alertMessage m.name evaluation.alertType, now⟩]

/-- What a committed check leaves, its changes being admitted by the schema: one new check result
with the probe's own state, the monitor's pair set to the evaluation, and one new alert if the
evaluation has one. -/
def Recorded (db db' : Db) (m : Checker.Monitor) (result : Checker.Result)
    (evaluation : FsmEvaluation) : Prop :=
  db.hasMonitor m.id = true ∧ ∃ now resultId alertId,
    replay db (checkWrites m result evaluation now resultId alertId) = .ok db' ∧ db' =
      { db with
        monitors := db.monitors.map fun row =>
          if row.id = m.id then row.checked evaluation.state now evaluation.consecutiveFailures
          else row
        checkResults := db.checkResults ++ [⟨resultId, m.id, result.state, result.statusCode,
          result.latencyMs, result.responseSample, result.errorMessage, now⟩]
        alerts := db.alerts ++
          if evaluation.alertType = "" then []
          else [⟨alertId, m.id, evaluation.alertType,
            alertMessage m.name evaluation.alertType, now⟩] }

/-- What the changes of a check make of the tables. -/
theorem foldl_checkWrites (db : Db) (m : Checker.Monitor) (result : Checker.Result)
    (evaluation : FsmEvaluation) (now : Time) (resultId alertId : Int) :
    (checkWrites m result evaluation now resultId alertId).foldl Write.apply db =
      { db with
        monitors := db.monitors.map fun row =>
          if row.id = m.id then row.checked evaluation.state now evaluation.consecutiveFailures
          else row
        checkResults := db.checkResults ++ [⟨resultId, m.id, result.state, result.statusCode,
          result.latencyMs, result.responseSample, result.errorMessage, now⟩]
        alerts := db.alerts ++
          if evaluation.alertType = "" then []
          else [⟨alertId, m.id, evaluation.alertType,
            alertMessage m.name evaluation.alertType, now⟩] } := by
  by_cases halert : evaluation.alertType = ""
  · simp [checkWrites, halert, Write.apply, Db.onMonitor]
  · simp [checkWrites, halert, Write.apply, Db.onMonitor]

/-- The changes of a check, made and admitted, record it. -/
theorem recorded_of_replay {db db' : Db} {m : Checker.Monitor} {result : Checker.Result}
    {evaluation : FsmEvaluation} {now : Time} {resultId alertId : Int}
    (h : replay db (checkWrites m result evaluation now resultId alertId) = .ok db') :
    Recorded db db' m result evaluation := by
  have hviol := (replay_cons.mp h).1
  have hmonitor : db.hasMonitor m.id = true :=
    firstViolation_eq_none.mp hviol (db.hasMonitor m.id, foreignKeyViolation)
      (List.mem_cons_of_mem _ (List.mem_cons_of_mem _ List.mem_cons_self))
  refine ⟨hmonitor, now, resultId, alertId, h, ?_⟩
  rw [replay_eq_foldl h, foldl_checkWrites]

theorem Recorded.ne {db db' : Db} {m : Checker.Monitor} {result : Checker.Result}
    {evaluation : FsmEvaluation} (h : Recorded db db' m result evaluation) : db' ≠ db := by
  obtain ⟨-, now, resultId, alertId, -, rfl⟩ := h
  intro heq
  have hlen := congrArg (fun db => db.checkResults.length) heq
  simp at hlen

theorem ignoreConcurrentDelete_eq_none {err : DbError} :
    ignoreConcurrentDelete err = none ↔ isConcurrentDeleteForeignKey err = true := by
  unfold ignoreConcurrentDelete
  split <;> simp_all

theorem ignoreConcurrentDelete_ne {err : DbError} (msg : String) :
    ignoreConcurrentDelete err ≠ some (.monitorCheck msg) := by
  unfold ignoreConcurrentDelete
  split <;> simp

/-- How the statements of a transaction end on `db`, by the events since `tr`. -/
structure PersistEnd (db : Db) (tr : List Event) (m : Checker.Monitor) (result : Checker.Result)
    (evaluation : FsmEvaluation) (x : Store × List Event) (r : Option WorkError) : Prop where
  events : ∃ more, x.2 = tr ++ more ∧ more.any Trace.beginCalled = false ∧
    more.any Trace.begun = false ∧ more.any Trace.probeFailed = false ∧
      more.filterMap Trace.probed = [] ∧
        (more.any Trace.commitSucceeded = true ∧ more.any Trace.concurrentDelete = false ∧
            Recorded db x.1.db m result evaluation ∧ r = none ∨
          more.any Trace.commitSucceeded = false ∧ x.1.db = db ∧
            (r = none ↔ more.any Trace.concurrentDelete = true))
  ne : ∀ err, r ≠ some (.monitorCheck err)

/-- An event that tells nothing about the end. -/
structure Trace.Plain (e : Event) : Prop where
  beginCalled : beginCalled e = false
  begun : begun e = false
  probeFailed : probeFailed e = false
  probed : probed e = none
  commitSucceeded : commitSucceeded e = false
  concurrentDelete : concurrentDelete e = false

theorem PersistEnd.after {db : Db} {tr : List Event} {m : Checker.Monitor}
    {result : Checker.Result} {evaluation : FsmEvaluation} {x : Store × List Event}
    {r : Option WorkError} {e : Event} (he : Trace.Plain e)
    (h : PersistEnd db (tr ++ [e]) m result evaluation x r) :
    PersistEnd db tr m result evaluation x r := by
  obtain ⟨⟨more, hx, h₁, h₂, h₃, h₄, hend⟩, hne⟩ := h
  refine ⟨⟨e :: more, by simpa using hx, ?_, ?_, ?_, ?_, ?_⟩, hne⟩
  · simp only [List.any_cons, he.beginCalled, h₁, Bool.or_false]
  · simp only [List.any_cons, he.begun, h₂, Bool.or_false]
  · simp only [List.any_cons, he.probeFailed, h₃, Bool.or_false]
  · rw [List.filterMap_cons_none he.probed, h₄]
  · simpa only [List.any_cons, he.commitSucceeded, he.concurrentDelete, Bool.false_or] using hend

theorem alone_after {db : Db} {st : Store} {tr : List Event} {s : Session} {m : Checker.Monitor}
    {result : Checker.Result} {evaluation : FsmEvaluation} {p : Client (Option WorkError)}
    {e : Event} (he : Trace.Plain e)
    (h : Alone Choice.Replies (fun x _ r => PersistEnd db (tr ++ [e]) m result evaluation x r) p st
      (tr ++ [e]) s) :
    Alone Choice.Replies (fun x _ r => PersistEnd db tr m result evaluation x r) p st (tr ++ [e])
      s :=
  Prog.Post.mono (fun _ _ _ => PersistEnd.after he) h

section Statements

variable {db : Db} {st : Store} {tr : List Event} {m : Checker.Monitor}
  {result : Checker.Result} {evaluation : FsmEvaluation} {writes : List Write} {now : Time}

theorem commitCheck_alone (hst : st.db = db)
    (h : ∀ db', replay db writes = .ok db' → Recorded db db' m result evaluation) :
    Alone Choice.Replies (fun x _ r => PersistEnd db tr m result evaluation x r) commitCheck st tr
      (.open_ writes) := by
  subst hst
  refine alone_commit (fun err => ?_) (fun db hreplay => ?_)
    fun hloses => absurd hloses not_loses_replies
  · exact ⟨⟨_, rfl, rfl, rfl, rfl, rfl, .inr ⟨rfl, rfl, by simp [Trace.concurrentDelete]⟩⟩,
      fun msg => by simp⟩
  · exact ⟨⟨_, rfl, rfl, rfl, rfl, rfl, .inl ⟨rfl, rfl, h db hreplay, rfl⟩⟩, fun msg => by simp⟩

/-- The alert, if there is one, and the commit. -/
theorem persistAlert_alone (hst : st.db = db)
    (h : ∀ db' alertId, replay db (writes ++
        if evaluation.alertType = "" then []
        else [.insertAlert ⟨alertId, m.id, evaluation.alertType,
          alertMessage m.name evaluation.alertType, now⟩]) = .ok db' →
      Recorded db db' m result evaluation) :
    Alone Choice.Replies (fun x _ r => PersistEnd db tr m result evaluation x r)
      (persistAlert m evaluation now) st tr (.open_ writes) := by
  unfold persistAlert
  by_cases halert : evaluation.alertType = ""
  · rw [if_neg (by simpa using halert)]
    refine commitCheck_alone hst fun db hreplay => h db 0 ?_
    rwa [if_pos halert, List.append_nil]
  · rw [if_pos halert]
    refine alone_sql (fun seq err => ?_) (fun out hq => ?_)
      fun moment seq out more db hplan hr => ?_
    · exact ⟨⟨_, rfl, rfl, rfl, rfl, rfl, .inr ⟨rfl, hst,
        by simp [ignoreConcurrentDelete_eq_none, Trace.concurrentDelete]⟩⟩,
        ignoreConcurrentDelete_ne⟩
    · cases hq
    · cases hplan
      refine alone_after ⟨rfl, rfl, rfl, rfl, rfl, rfl⟩
        (commitCheck_alone hst fun db hreplay => h db st.seq.alerts ?_)
      rwa [if_neg halert]

theorem persist_alone (hst : st.db = db) :
    Alone Choice.Replies (fun x _ r => PersistEnd db tr m result evaluation x r)
      (persist m result evaluation now) st tr (.open_ []) := by
  unfold persist
  -- the insert of the result
  refine alone_sql (fun seq err => ?_) (fun out hq => ?_) fun moment seq out more db hplan hr => ?_
  · exact ⟨⟨_, rfl, rfl, rfl, rfl, rfl, .inr ⟨rfl, hst,
      by simp [ignoreConcurrentDelete_eq_none, Trace.concurrentDelete]⟩⟩,
      ignoreConcurrentDelete_ne⟩
  · cases hq
  · cases hplan
    refine alone_after ⟨rfl, rfl, rfl, rfl, rfl, rfl⟩ ?_
    -- the update of the monitor
    refine alone_sql (fun seq err => ?_) (fun out hq => ?_)
      fun moment seq out more db hplan hr => ?_
    · exact ⟨⟨_, rfl, rfl, rfl, rfl, rfl, .inr ⟨rfl, hst, by simp [Trace.concurrentDelete]⟩⟩,
        fun msg => by simp⟩
    · -- no row comes back: the monitor is taken to be deleted
      cases hq
      exact ⟨⟨_, rfl, rfl, rfl, rfl, rfl, .inr ⟨rfl, hst, by simp [Trace.concurrentDelete]⟩⟩,
        fun msg => by simp⟩
    · unfold Sql.plan at hplan
      simp only at hplan
      split at hplan
      · cases hplan
        refine alone_after ⟨rfl, rfl, rfl, rfl, rfl, rfl⟩ (persistAlert_alone hst ?_)
        exact fun db' alertId => recorded_of_replay
      · -- the monitor is not there any more
        cases hplan
        exact ⟨⟨_, rfl, rfl, rfl, rfl, rfl, .inr ⟨rfl, hst, by simp [Trace.concurrentDelete]⟩⟩,
          fun msg => by simp⟩

end Statements

/-- What checking a monitor comes to, by the events of the call. -/
structure Outcome (registered : List String) (m : Checker.Monitor) (thresholds : List Int)
    (db : Db) (x : Store × List Event) (s : Session) (r : Option WorkError) : Prop where
  /-- Without a successful commit nothing is changed. -/
  unchanged : x.2.any Trace.commitSucceeded = false → x.1.db = db
  /-- With one, the check is recorded, with the result of the call's own probe. -/
  recorded : x.2.any Trace.commitSucceeded = true → ∃ result ∈ x.2.filterMap Trace.probed,
    Recorded db x.1.db m result
      (evaluateFSM m.lastState m.consecutiveFailures result.state (threshold thresholds))
  changed_iff : x.1.db ≠ db ↔ x.2.any Trace.commitSucceeded = true
  nil_iff : r = none ↔ x.2.any Trace.commitSucceeded = true ∨
    x.2.any Trace.concurrentDelete = true
  checkError_iff : (∃ err, r = some (.monitorCheck err)) ↔
    (∃ err, Checker.get registered m.checkType = .error err) ∨
      x.2.any Trace.probeFailed = true
  checkError_noBegin : (∃ err, r = some (.monitorCheck err)) →
    x.2.any Trace.beginCalled = false
  /-- A transaction that was begun is over. -/
  closed : s = .idle ∧ (x.2.any Trace.begun = true → x.2.any Trace.closes = true)

/-- The events up to the transaction's first statement. -/
def opening (m : Checker.Monitor) (result : Checker.Result) (now : Time) : List Event :=
  [⟨.probe m, .ok result⟩, ⟨.now, now⟩, ⟨.begin, .ok ()⟩]

theorem PersistEnd.outcome {registered : List String} {m : Checker.Monitor}
    {thresholds : List Int} {result : Checker.Result} {db : Db} {now : Time}
    {x : Store × List Event} {r : Option WorkError}
    (hget : Checker.get registered m.checkType = .ok ())
    (h : PersistEnd db (opening m result now) m result
      (evaluateFSM m.lastState m.consecutiveFailures result.state (threshold thresholds)) x r)
    (r' : Except DbError Unit) :
    Outcome registered m thresholds db (x.1, x.2 ++ [⟨.rollback, r'⟩]) .idle r := by
  obtain ⟨⟨more, htr, h₁, h₂, h₃, h₄, hend⟩, hne⟩ := h
  -- the last rollback adds nothing to what the events say
  have hcommit : (x.2 ++ [(⟨.rollback, r'⟩ : Event)]).any Trace.commitSucceeded =
      more.any Trace.commitSucceeded := by
    simp [htr, opening, Trace.commitSucceeded]
  have hdelete : (x.2 ++ [(⟨.rollback, r'⟩ : Event)]).any Trace.concurrentDelete =
      more.any Trace.concurrentDelete := by
    simp [htr, opening, Trace.concurrentDelete]
  have hprobe : (x.2 ++ [(⟨.rollback, r'⟩ : Event)]).any Trace.probeFailed = false := by
    rw [htr, List.any_append, List.any_append, h₃]
    rfl
  have hprobed : (x.2 ++ [(⟨.rollback, r'⟩ : Event)]).filterMap Trace.probed = [result] := by
    rw [htr, List.filterMap_append, List.filterMap_append, h₄]
    rfl
  have hcloses : (x.2 ++ [(⟨.rollback, r'⟩ : Event)]).any Trace.closes = true := by
    rw [List.any_append]
    simp [Trace.closes]
  have hchecked : ¬ ∃ err, r = some (.monitorCheck err) := fun ⟨err, herr⟩ => hne err herr
  generalize x.2 ++ [(⟨.rollback, r'⟩ : Event)] = events at *
  refine ⟨fun hno => ?_, fun hyes => ?_, ?_, ?_, ?_, fun he => absurd he hchecked, rfl,
    fun _ => hcloses⟩
  · rcases hend with ⟨hc, -⟩ | ⟨-, hdb, -⟩
    · rw [hcommit, hc] at hno
      cases hno
    · exact hdb
  · rcases hend with ⟨-, -, hrec, -⟩ | ⟨hc, -⟩
    · exact ⟨result, by rw [hprobed]; exact List.mem_singleton_self _, hrec⟩
    · rw [hcommit, hc] at hyes
      cases hyes
  · rw [hcommit]
    rcases hend with ⟨hc, -, hrec, -⟩ | ⟨hc, hdb, -⟩
    · simp only [hc, iff_true]
      exact hrec.ne
    · simp only [hc, hdb, ne_eq, not_true, Bool.false_eq_true]
  · rw [hcommit, hdelete]
    rcases hend with ⟨hc, -, -, hr⟩ | ⟨hc, -, hr⟩
    · simp only [hr, hc, true_or]
    · rw [hr, hc]
      simp only [Bool.false_eq_true, false_or]
  · simp only [hchecked, hget, hprobe, reduceCtorEq, exists_false, Bool.false_eq_true, or_false]

theorem checkAndPersist_alone (registered : List String) (m : Checker.Monitor)
    (thresholds : List Int) (st : Store) :
    Alone Choice.Replies (Outcome registered m thresholds st.db)
      (checkAndPersist registered m thresholds) st [] .idle := by
  unfold checkAndPersist
  cases hget : Checker.get registered m.checkType with
  | error err =>
      exact ⟨fun _ => rfl, fun h => (nomatch h), by simp, by simp, by simp [hget], fun _ => rfl,
        rfl, fun h => (nomatch h)⟩
  | ok _ =>
      refine alone_probe fun probe => ?_
      cases probe with
      | error err =>
          exact ⟨fun _ => rfl, fun h => (nomatch h), by simp [Trace.commitSucceeded],
            by simp [Trace.commitSucceeded, Trace.concurrentDelete],
            by simp [Trace.probeFailed], fun _ => rfl, rfl, fun h => (nomatch h)⟩
      | ok result =>
          refine alone_now fun now => alone_begin (fun err => ?_) ?_
          · exact ⟨fun _ => rfl, fun h => (nomatch h), by simp [Trace.commitSucceeded],
              by simp [Trace.commitSucceeded, Trace.concurrentDelete],
              by simp [Trace.probeFailed, hget], fun h => by simp at h, rfl,
              fun h => (nomatch h)⟩
          · refine Prog.post_bind.mpr (Prog.Post.mono (fun x s r hend => ?_) (persist_alone rfl))
            exact alone_rollback fun r' => hend.outcome hget r'

/-- **`checkAndPersist` is all or nothing.** For every monitor, whatever the probe gives and
whatever fails, as long as a commit that is applied is also reported: the database is as before,
or has the check recorded in full; it is changed iff the commit succeeded; the call returns nil
iff it was, or the monitor turned out to be deleted; it returns a `monitorCheckError`, without a
transaction, iff the checker is unknown or the probe failed; and a transaction is never left
open. -/
theorem checkAndPersist_outcome (registered : List String) (m : Checker.Monitor)
    (thresholds : List Int) (st : Store) (choices : Nat → Choice)
    (hreplies : ∀ n, (choices n).Replies) :
    let x := (checkAndPersist registered m thresholds).run (Prog.logged handle) choices (st, [])
      .idle
    Outcome registered m thresholds st.db x.1 x.2.1 x.2.2 :=
  (checkAndPersist_alone registered m thresholds st).run hreplies

/-- A store with one monitor, which has failed twice. -/
def failingStore : Store where
  db :=
    { users := []
      monitors := [⟨7, "api", "https://example.com", 60, "Active", 0, "http", some "{}", none,
        some 0, 2, 1, none, false⟩]
      checkResults := []
      alerts := [] }
  seq := ⟨2, 8, 1, 1⟩
  log := []

/-- The third failure: the check is committed with its alert. -/
theorem checkAndPersist_outcome_third_failure :
    let m : Checker.Monitor := ⟨7, "api", "https://example.com", "http", some "{}", 60, none,
      some 0, 2⟩
    let choices := fun _ : Nat => Choice.calm 60000000 (.ok ⟨"unhealthy", 0, none, none, none⟩)
    let x := (checkAndPersist ["http"] m [3]).run (Prog.logged handle) choices (failingStore, [])
      .idle
    Outcome ["http"] m [3] failingStore.db x.1 x.2.1 x.2.2 ∧
      x.1.2.any Trace.commitSucceeded = true ∧
        x.1.1.db.alerts = [⟨1, 7, "down", "api esta caído", 60000000⟩] :=
  ⟨checkAndPersist_outcome _ _ _ _ _ fun _ => Choice.calm_replies _ _, rfl, rfl⟩

end Sentinel.Worker
