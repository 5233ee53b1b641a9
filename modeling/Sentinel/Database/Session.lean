import Sentinel.Checker.Http
import Sentinel.Database.Schema
import Sentinel.Library.Program

/-!
# Database — Session

What the worker and the API see of the database: statements, transactions and failures.

* `Sql` has one constructor for each statement the sources send. `Sql.plan` computes its result
  and the row changes it makes on the tables it sees.
* A `Session` is a connection, with the changes its open transaction has made so far. Its
  statements see the committed tables with these changes on top, and nobody else does. `COMMIT`
  makes the changes on the tables as they are then, all of them or, if one is refused, none.
  PostgreSQL's row locks would make some statements wait for another transaction to end; here they
  need not wait, so the runs here include all of its runs.
* `Op` is an operation of a program: a statement, a transaction command, or a call of the world
  outside (a probe, the clock, a file). `handle` performs it, as the `Choice` of the environment
  says: any call may fail, a clock shows any time, a probe ends in any way.

Sequences are outside of transactions: a number drawn is never drawn again. The store also keeps
the changes ever committed, in order, which no statement reads.
-/

namespace Sentinel.Database

open Program

/-! ### Statements -/

/-- The columns a create request gives. -/
structure NewMonitor where
  name : String
  target : String
  frequency : Int
  state : String
  checkType : String
  checkConfig : String
  consecutiveFailures : Int
  createdAt : Time
  userId : Int
deriving DecidableEq, Repr

/-- The columns of a new account. -/
structure NewUser where
  email : String
  username : String
  name : String
  lastName : String
  password : String
  status : Option String
  isActive : Bool
  isDemo : Bool
  createdAt : Time
  updatedAt : Time
deriving DecidableEq, Repr

/-- Which public monitors a seed hides. -/
inductive Hide where
  | all
  /-- All but the owner's with one of the keys. -/
  | except (ownerId : Int) (keys : List String)
deriving DecidableEq, Repr

inductive RetentionTable where
  | checkResult
  | alert
deriving DecidableEq, Repr

/-- The statements of the sources. -/
inductive Sql where
  | selectDue
  | insertCheckResult (monitorId : Int) (state : String) (statusCode : Option Int)
      (latencyMs : Int) (responseSample errorMessage : Option ByteArray) (createdAt : Time)
  | updateChecked (state : Option String) (failures : Int) (id : Int) (checkedAt : Time)
  | insertAlert (monitorId : Int) (alertType message : String) (createdAt : Time)
  | selectDemoUser (email : String)
  | deleteOwnedCheckResults (userId : Int)
  | deleteOwnedAlerts (userId : Int)
  | deleteOwnedMonitors (userId : Int)
  | insertDemoMonitor (userId : Int) (name target checkType : String)
      (checkConfig : Option String) (frequency : Int) (seedKey : String)
  | deleteExpired (table : RetentionTable) (cutoff : Time) (limit : Nat)
  | countMonitors (userId : Int)
  | findManyMonitors (userId : Int)
  | findUniqueMonitor (id : Int)
  | findManyCheckResults (monitorId take : Int)
  | findManyAlerts (monitorId take : Int)
  | createMonitor (data : NewMonitor)
  | findFirstMonitor (id userId : Int)
  | updateMonitor (id : Int) (data : MonitorPatch)
  | deleteCheckResults (monitorId : Int)
  | deleteAlerts (monitorId : Int)
  | deleteMonitor (id : Int)
  | findUniqueUser (email : String)
  | createUser (data : NewUser)
  | upsertDemoUser (data : NewUser)
  | upsertMonitor (userId : Int) (seedKey : String) (values : SeedValues) (createdAt : Time)
  | updateManyHide (rows : Hide)

/-- What a statement returns. -/
abbrev Sql.Out : Sql → Type
  | selectDue => List Checker.Monitor
  | selectDemoUser _ => Option Int
  | createMonitor _ | updateMonitor _ _ | deleteMonitor _ => Monitor
  | findFirstMonitor _ _ | findUniqueMonitor _ => Option Monitor
  | findManyMonitors _ => List Monitor
  | findManyCheckResults _ _ => List CheckResult
  | findManyAlerts _ _ => List Alert
  | findUniqueUser _ => Option User
  | createUser _ | upsertDemoUser _ => Int
  | upsertMonitor _ _ _ _ => Unit
  | _ => Nat

/-- The next number of each sequence. -/
structure Seq where
  users : Int
  monitors : Int
  checkResults : Int
  alerts : Int
deriving DecidableEq, Repr

def Seq.first : Seq := ⟨1, 1, 1, 1⟩

/-- `last_checked_at IS NULL OR last_checked_at + frequency <= NOW()`, for an active monitor. -/
def Monitor.due (now : Time) (m : Monitor) : Bool :=
  m.state = "Active" && m.lastCheckedAt.all fun t => t + m.frequency * 1000000 ≤ now

/-- The columns the worker reads of a row. -/
def Monitor.snapshot (m : Monitor) : Checker.Monitor :=
  { id := m.id, name := m.name, target := m.target, checkType := m.checkType,
    checkConfig := m.checkConfig, frequency := m.frequency, lastState := m.lastState,
    lastCheckedAt := m.lastCheckedAt, consecutiveFailures := m.consecutiveFailures }

/-- The row of a create request. -/
def NewMonitor.row (d : NewMonitor) (id : Int) : Monitor :=
  { id := id, name := d.name, target := d.target, frequency := d.frequency, state := d.state,
    createdAt := d.createdAt, checkType := d.checkType, checkConfig := some d.checkConfig,
    lastState := none, lastCheckedAt := none, consecutiveFailures := d.consecutiveFailures,
    userId := d.userId, seedKey := none, isPublic := false }

/-- The row a seed creates. -/
def SeedValues.row (v : SeedValues) (id userId : Int) (seedKey : String) (createdAt : Time) :
    Monitor :=
  { id := id, name := v.name, target := v.target, frequency := v.frequency, state := v.state,
    createdAt := createdAt, checkType := v.checkType, checkConfig := v.checkConfig,
    lastState := none, lastCheckedAt := none, consecutiveFailures := v.consecutiveFailures,
    userId := userId, seedKey := some seedKey, isPublic := v.isPublic }

def NewUser.row (d : NewUser) (id : Int) : User :=
  { id := id, name := d.name, lastName := d.lastName, username := d.username, email := d.email,
    password := d.password, createdAt := d.createdAt, updatedAt := d.updatedAt,
    status := d.status, isActive := d.isActive, isDemo := d.isDemo }

/-- The `WHERE` of the seeds' last statement. A key that is null is neither in a list nor not in
it, so the clause names it apart. -/
def Hide.matches (rows : Hide) (m : Monitor) : Bool :=
  m.isPublic &&
    match rows with
    | .all => true
    | .except ownerId keys =>
        m.userId ≠ ownerId || (m.userId = ownerId && m.seedKey = none) ||
          (m.userId = ownerId && m.seedKey.any fun k => k ∉ keys)

/-- The rows of a table in the order `created_at, id`. -/
def byAge (rows : List (Time × Int)) : List (Time × Int) :=
  rows.mergeSort fun a b => a.1 < b.1 || (a.1 = b.1 && a.2 ≤ b.2)

/-- The ids a retention batch deletes: the oldest expired rows that nobody has locked. -/
def expired (rows : List (Time × Int)) (cutoff : Time) (limit : Nat) (locked : List Int) :
    List Int :=
  (((byAge rows).filter fun r => r.1 < cutoff && !locked.contains r.2).take limit).map Prod.snd

/-- `orderBy: { created_at: 'desc' }` and `take`, which counts from the end if it is negative. -/
def latest {α : Type} (createdAt : α → Time) (take : Int) (rows : List α) : List α :=
  let ordered := rows.mergeSort fun a b => createdAt b ≤ createdAt a
  if 0 ≤ take then ordered.take take.toNat else ordered.drop (ordered.length - take.natAbs)

/-- The ids of the monitors of one user. -/
def Db.ownedBy (db : Db) (userId : Int) : List Int :=
  (db.monitors.filter fun m => m.userId = userId).map (·.id)

/-- What a statement needs of the moment it is executed. -/
structure Moment where
  now : Time
  /-- Rows that other transactions hold locks on. -/
  locked : List Int

/-- A plan: the sequences afterwards, and the result with the row changes to make. -/
abbrev Plan (q : Sql) := Seq × Except DbError (q.Out × List Write)

/-- The result of a statement and the changes it makes, on the tables it sees. -/
def Sql.plan (moment : Moment) (seq : Seq) (db : Db) : (q : Sql) → Plan q
  | selectDue => (seq, .ok ((db.monitors.filter (·.due moment.now)).map (·.snapshot), []))
  | insertCheckResult monitorId state statusCode latencyMs responseSample errorMessage createdAt =>
      ({ seq with checkResults := seq.checkResults + 1 },
        .ok (1, [.insertCheckResult ⟨seq.checkResults, monitorId, state, statusCode, latencyMs,
          responseSample, errorMessage, createdAt⟩]))
  | updateChecked state failures id checkedAt =>
      if db.hasMonitor id then (seq, .ok (1, [.setChecked id state checkedAt failures]))
      else (seq, .ok (0, []))
  | insertAlert monitorId alertType message createdAt =>
      ({ seq with alerts := seq.alerts + 1 },
        .ok (1, [.insertAlert ⟨seq.alerts, monitorId, alertType, message, createdAt⟩]))
  | selectDemoUser email =>
      (seq, .ok ((db.users.find? fun u => u.email = email && u.isDemo).map (·.id), []))
  | deleteOwnedCheckResults userId =>
      let ids := (db.checkResults.filter fun r => (db.ownedBy userId).contains r.monitorId).map
        (·.id)
      (seq, .ok (ids.length, ids.map .deleteCheckResult))
  | deleteOwnedAlerts userId =>
      let ids := (db.alerts.filter fun a => (db.ownedBy userId).contains a.monitorId).map (·.id)
      (seq, .ok (ids.length, ids.map .deleteAlert))
  | deleteOwnedMonitors userId =>
      (seq, .ok ((db.ownedBy userId).length, (db.ownedBy userId).map .deleteMonitor))
  | insertDemoMonitor userId name target checkType checkConfig frequency seedKey =>
      ({ seq with monitors := seq.monitors + 1 },
        .ok (1, [.insertMonitor
          { id := seq.monitors, name := name, target := target, frequency := frequency,
            state := "Active", createdAt := moment.now, checkType := checkType,
            checkConfig := checkConfig, lastState := none, lastCheckedAt := none,
            consecutiveFailures := 0, userId := userId, seedKey := some seedKey,
            isPublic := false }]))
  | deleteExpired table cutoff limit =>
      match table with
      | .checkResult =>
          let ids := expired (db.checkResults.map fun r => (r.createdAt, r.id)) cutoff limit
            moment.locked
          (seq, .ok (ids.length, ids.map .deleteCheckResult))
      | .alert =>
          let ids := expired (db.alerts.map fun a => (a.createdAt, a.id)) cutoff limit moment.locked
          (seq, .ok (ids.length, ids.map .deleteAlert))
  | countMonitors userId => (seq, .ok ((db.ownedBy userId).length, []))
  | findManyMonitors userId => (seq, .ok (db.monitors.filter (·.userId = userId), []))
  | findUniqueMonitor id => (seq, .ok (db.monitors.find? (·.id = id), []))
  | findManyCheckResults monitorId take =>
      (seq, .ok (latest (·.createdAt) take (db.checkResults.filter (·.monitorId = monitorId)), []))
  | findManyAlerts monitorId take =>
      (seq, .ok (latest (·.createdAt) take (db.alerts.filter (·.monitorId = monitorId)), []))
  | createMonitor data =>
      ({ seq with monitors := seq.monitors + 1 },
        .ok (data.row seq.monitors, [.insertMonitor (data.row seq.monitors)]))
  | findFirstMonitor id userId =>
      (seq, .ok (db.monitors.find? fun m => m.id = id && m.userId = userId, []))
  | updateMonitor id data =>
      match db.monitors.find? (·.id = id) with
      | none => (seq, .error .notFound)
      | some m => (seq, .ok (m.patched data, [.setFields id data]))
  | deleteCheckResults monitorId =>
      let ids := (db.checkResults.filter (·.monitorId = monitorId)).map (·.id)
      (seq, .ok (ids.length, ids.map .deleteCheckResult))
  | deleteAlerts monitorId =>
      let ids := (db.alerts.filter (·.monitorId = monitorId)).map (·.id)
      (seq, .ok (ids.length, ids.map .deleteAlert))
  | deleteMonitor id =>
      match db.monitors.find? (·.id = id) with
      | none => (seq, .error .notFound)
      | some m => (seq, .ok (m, [.deleteMonitor id]))
  | findUniqueUser email => (seq, .ok (db.users.find? (·.email = email), []))
  | createUser data =>
      ({ seq with users := seq.users + 1 },
        .ok (seq.users, [.insertUser (data.row seq.users)]))
  | upsertDemoUser data =>
      match db.users.find? (·.email = data.email) with
      | some u => (seq, .ok (u.id, [.setDemoUser u.id data.password]))
      | none =>
          ({ seq with users := seq.users + 1 },
            .ok (seq.users, [.insertUser (data.row seq.users)]))
  | upsertMonitor userId seedKey values createdAt =>
      match db.monitors.find? fun m => m.userId = userId && m.seedKey = some seedKey with
      | some m => (seq, .ok ((), [.setSeeded m.id values]))
      | none =>
          ({ seq with monitors := seq.monitors + 1 },
            .ok ((), [.insertMonitor (values.row seq.monitors userId seedKey createdAt)]))
  | updateManyHide rows =>
      let ids := (db.monitors.filter rows.matches).map (·.id)
      (seq, .ok (ids.length, ids.map .hide))

/-! ### Transactions -/

/-- The committed tables, the sequences, and the changes ever committed. -/
structure Store where
  db : Db
  seq : Seq
  log : List Write
deriving DecidableEq

/-- A connection. -/
inductive Session where
  | idle
  /-- In a transaction, with the changes it has made. -/
  | open_ (writes : List Write)
  /-- In a transaction one of whose statements failed. -/
  | aborted
deriving DecidableEq

/-- The store with some changes made and committed. -/
def Store.commit (st : Store) (db : Db) (writes : List Write) : Store :=
  { st with db := db, log := st.log ++ writes }

/-- What the environment decides about a call of the database. -/
inductive Fault where
  | none
  | fails (e : DbError)
  /-- An update finds no row. -/
  | noRows
  /-- The change is committed and the reply is lost. -/
  | lostReply (e : DbError)
deriving DecidableEq, Repr

/-- What the environment decides about one operation. -/
structure Choice where
  fault : Fault
  moment : Moment
  probe : Except String Checker.Result
  ctxErr : Option String
  file : Except String String
  hashed : Except String String

/-- An operation of a program. -/
inductive Op where
  | begin
  | commit
  | rollback
  | sql (q : Sql)
  | probe (m : Checker.Monitor)
  | now
  | ctxErr
  | readFile (path : String)
  | hash (password : String)

abbrev Op.Res : Op → Type
  | begin | commit | rollback => Except DbError Unit
  | sql q => Except DbError q.Out
  | probe _ => Except String Checker.Result
  | now => Time
  | ctxErr => Option String
  | readFile _ | hash _ => Except String String

/-- The result of a statement that finds no row, for the one that counts the rows it changed. -/
def Sql.noRows : (q : Sql) → Option q.Out
  | updateChecked _ _ _ _ => some (0 : Nat)
  | _ => none

/-- The result of a statement on the tables it sees, the changes it makes and the tables with
them, unless a constraint refuses one. -/
def Sql.execute (moment : Moment) (seq : Seq) (db : Db) (q : Sql) :
    Seq × Except DbError (q.Out × List Write × Db) :=
  match q.plan moment seq db with
  | (seq', .error e) => (seq', .error e)
  | (seq', .ok (out, writes)) =>
      match replay db writes with
      | .error e => (seq', .error e)
      | .ok db' => (seq', .ok (out, writes, db'))

/-- The reply to a statement that was executed. -/
def Fault.reply {α : Type} (fault : Fault) (out : α) : Except DbError α :=
  match fault with
  | lostReply e => .error e
  | _ => .ok out

/-- A statement fails. -/
def Session.fail : Session → Session
  | idle => .idle
  | _ => .aborted

/-- Executes a statement. Outside of a transaction its changes are committed at once. -/
def Session.perform (choice : Choice) (st : Store) (s : Session) (q : Sql) :
    Store × Session × Except DbError q.Out :=
  match s with
  | .aborted => (st, .aborted, .error inFailedTransaction)
  | .idle =>
      match q.execute choice.moment st.seq st.db with
      | (seq, .error e) => ({ st with seq := seq }, .idle, .error e)
      | (seq, .ok (out, writes, db)) =>
          (({ st with seq := seq } : Store).commit db writes, .idle, choice.fault.reply out)
  | .open_ writes =>
      match q.execute choice.moment st.seq (writes.foldl Write.apply st.db) with
      | (seq, .error e) => ({ st with seq := seq }, .aborted, .error e)
      | (seq, .ok (out, more, _)) => ({ st with seq := seq }, .open_ (writes ++ more), .ok out)

/-- Sends a statement. -/
def Session.send (choice : Choice) (st : Store) (s : Session) (q : Sql) :
    Store × Session × Except DbError q.Out :=
  match choice.fault with
  | .fails e => (st, s.fail, .error e)
  | .noRows =>
      match q.noRows with
      | some out => if s = .aborted then s.perform choice st q else (st, s, .ok out)
      | none => s.perform choice st q
  | _ => s.perform choice st q

/-- `BEGIN`. -/
def Session.begin (choice : Choice) (s : Session) : Session × Except DbError Unit :=
  match choice.fault, s with
  | .fails e, s => (s, .error e)
  | _, .idle => (.open_ [], .ok ())
  | _, s => (s, .error .txClosed)

/-- `COMMIT`, which ends the transaction whatever comes of it. -/
def Session.commit (choice : Choice) (st : Store) (s : Session) :
    Store × Session × Except DbError Unit :=
  match s with
  | .idle => (st, .idle, .error .txClosed)
  | .aborted => (st, .idle, .error inFailedTransaction)
  | .open_ writes =>
      match choice.fault, replay st.db writes with
      | .fails e, _ => (st, .idle, .error e)
      | _, .error e => (st, .idle, .error e)
      | .lostReply e, .ok db => (st.commit db writes, .idle, .error e)
      | _, .ok db => (st.commit db writes, .idle, .ok ())

/-- `ROLLBACK`. -/
def Session.rollback (choice : Choice) (s : Session) : Session × Except DbError Unit :=
  match choice.fault, s with
  | _, .idle => (.idle, .error .txClosed)
  | .fails e, _ => (.idle, .error e)
  | _, _ => (.idle, .ok ())

/-- Performs an operation. -/
def handle : Handler Op Op.Res Choice Store Session := fun choice st s o =>
  match o with
  | .begin => let r := s.begin choice; (st, r.1, r.2)
  | .commit => s.commit choice st
  | .rollback => let r := s.rollback choice; (st, r.1, r.2)
  | .sql q => s.send choice st q
  | .probe _ => (st, s, choice.probe)
  | .now => (st, s, choice.moment.now)
  | .ctxErr => (st, s, choice.ctxErr)
  | .readFile _ => (st, s, choice.file)
  | .hash _ => (st, s, choice.hashed)

/-! ### What an operation does -/

/-- Every number of one list of sequences is at most the other's. -/
structure Seq.Le (a b : Seq) : Prop where
  users : a.users ≤ b.users
  monitors : a.monitors ≤ b.monitors
  checkResults : a.checkResults ≤ b.checkResults
  alerts : a.alerts ≤ b.alerts

theorem Seq.Le.refl (a : Seq) : a.Le a :=
  ⟨Int.le_refl _, Int.le_refl _, Int.le_refl _, Int.le_refl _⟩

theorem Seq.Le.trans {a b c : Seq} (h₁ : a.Le b) (h₂ : b.Le c) : a.Le c :=
  ⟨Int.le_trans h₁.users h₂.users, Int.le_trans h₁.monitors h₂.monitors,
    Int.le_trans h₁.checkResults h₂.checkResults, Int.le_trans h₁.alerts h₂.alerts⟩

/-- A plan only advances the sequences. -/
theorem Sql.plan_seq (moment : Moment) (seq : Seq) (db : Db) (q : Sql) :
    seq.Le (q.plan moment seq db).1 := by
  have hstep : ∀ n : Int, n ≤ n + 1 := fun n => by omega
  cases q <;> simp only [Sql.plan] <;> (try split) <;> first
    | exact Seq.Le.refl _
    | exact ⟨hstep _, Int.le_refl _, Int.le_refl _, Int.le_refl _⟩
    | exact ⟨Int.le_refl _, hstep _, Int.le_refl _, Int.le_refl _⟩
    | exact ⟨Int.le_refl _, Int.le_refl _, hstep _, Int.le_refl _⟩
    | exact ⟨Int.le_refl _, Int.le_refl _, Int.le_refl _, hstep _⟩

/-- What sending a statement comes to. -/
inductive Sent (choice : Choice) (st : Store) (s : Session) (q : Sql) :
    Store × Session × Except DbError q.Out → Prop where
  /-- An error outside of a transaction. -/
  | failed {seq : Seq} {e : DbError} (hs : s = .idle) (hseq : st.seq.Le seq) :
      Sent choice st s q ({ st with seq := seq }, .idle, .error e)
  /-- An error in a transaction. -/
  | aborted {seq : Seq} {e : DbError} (hs : s ≠ .idle) (hseq : st.seq.Le seq) :
      Sent choice st s q ({ st with seq := seq }, .aborted, .error e)
  | noRows {out : q.Out} (hq : q.noRows = some out) : Sent choice st s q (st, s, .ok out)
  /-- Executed and committed. -/
  | committed {seq : Seq} {out : q.Out} {writes : List Write} {db : Db}
      {r : Except DbError q.Out} (hs : s = .idle)
      (hplan : q.plan choice.moment st.seq st.db = (seq, .ok (out, writes)))
      (hreplay : replay st.db writes = .ok db)
      (hr : r = .ok out ∨ ∃ e, choice.fault = .lostReply e ∧ r = .error e) :
      Sent choice st s q (({ st with seq := seq } : Store).commit db writes, .idle, r)
  /-- Executed in a transaction. -/
  | buffered {seq : Seq} {out : q.Out} {writes more : List Write} {db : Db}
      (hs : s = .open_ writes)
      (hplan : q.plan choice.moment st.seq (writes.foldl Write.apply st.db) =
        (seq, .ok (out, more)))
      (hreplay : replay (writes.foldl Write.apply st.db) more = .ok db) :
      Sent choice st s q ({ st with seq := seq }, .open_ (writes ++ more), .ok out)

theorem Sql.execute_error {moment : Moment} {seq seq' : Seq} {db : Db} {q : Sql} {e : DbError}
    (h : q.execute moment seq db = (seq', .error e)) : seq.Le seq' := by
  have hseq := q.plan_seq moment seq db
  unfold Sql.execute at h
  split at h
  · rename_i hplan
    cases h
    rwa [hplan] at hseq
  · rename_i hplan
    split at h <;> cases h
    rwa [hplan] at hseq

theorem Sql.execute_ok {moment : Moment} {seq seq' : Seq} {db db' : Db} {q : Sql} {out : q.Out}
    {writes : List Write} (h : q.execute moment seq db = (seq', .ok (out, writes, db'))) :
    q.plan moment seq db = (seq', .ok (out, writes)) ∧ replay db writes = .ok db' := by
  unfold Sql.execute at h
  split at h
  · cases h
  · rename_i hplan
    split at h
    · cases h
    · rename_i hreplay
      cases h
      exact ⟨hplan, hreplay⟩

theorem Fault.reply_cases {α : Type} (fault : Fault) (out : α) :
    fault.reply out = .ok out ∨ ∃ e, fault = .lostReply e ∧ fault.reply out = .error e := by
  cases fault with
  | lostReply e => exact .inr ⟨e, rfl, rfl⟩
  | none | fails e | noRows => exact .inl rfl

theorem Session.perform_cases (choice : Choice) (st : Store) (s : Session) (q : Sql) :
    Sent choice st s q (s.perform choice st q) := by
  cases s with
  | aborted => exact .aborted (by simp) (Seq.Le.refl st.seq)
  | idle =>
      rw [Session.perform]
      split
      · rename_i hex
        exact .failed rfl (Sql.execute_error hex)
      · rename_i hex
        obtain ⟨hplan, hreplay⟩ := Sql.execute_ok hex
        exact .committed rfl hplan hreplay (choice.fault.reply_cases _)
  | open_ writes =>
      rw [Session.perform]
      split
      · rename_i hex
        exact .aborted (by simp) (Sql.execute_error hex)
      · rename_i hex
        obtain ⟨hplan, hreplay⟩ := Sql.execute_ok hex
        exact .buffered rfl hplan hreplay

theorem Session.send_cases (choice : Choice) (st : Store) (s : Session) (q : Sql) :
    Sent choice st s q (s.send choice st q) := by
  unfold Session.send
  split
  · cases s with
    | idle => exact .failed rfl (Seq.Le.refl st.seq)
    | aborted | open_ writes => exact .aborted (by simp) (Seq.Le.refl st.seq)
  · split
    · rename_i out hq
      split
      · exact Session.perform_cases choice st s q
      · exact .noRows hq
    · exact Session.perform_cases choice st s q
  · exact Session.perform_cases choice st s q

/-- A statement outside of a transaction leaves the connection outside. -/
theorem send_idle (choice : Choice) (st : Store) (q : Sql) :
    (Session.idle.send choice st q).2.1 = .idle := by
  have hcases := Session.send_cases choice st .idle q
  generalize Session.idle.send choice st q = r at hcases
  cases hcases with
  | failed | noRows | committed => rfl
  | aborted hs => exact absurd rfl hs
  | buffered hs => cases hs

/-- In a transaction, when nothing fails, a statement has the result and the changes of its plan. -/
theorem Session.send_planned {choice : Choice} {st : Store} {q : Sql} {writes more : List Write}
    {seq : Seq} {out : q.Out} {db : Db} (hfault : choice.fault = .none)
    (hplan : q.plan choice.moment st.seq (writes.foldl Write.apply st.db) =
      (seq, .ok (out, more)))
    (hreplay : replay (writes.foldl Write.apply st.db) more = .ok db) :
    (Session.open_ writes).send choice st q =
      ({ st with seq := seq }, .open_ (writes ++ more), .ok out) := by
  simp only [Session.send, hfault, Session.perform, Sql.execute, hplan, hreplay]

theorem Session.commit_replayed {choice : Choice} {st : Store} {writes : List Write} {db : Db}
    (hfault : choice.fault = .none) (hreplay : replay st.db writes = .ok db) :
    (Session.open_ writes).commit choice st = (st.commit db writes, .idle, .ok ()) := by
  simp only [Session.commit, hfault, hreplay]

/-- What a commit comes to. -/
inductive Ended (choice : Choice) (st : Store) (s : Session) :
    Store × Session × Except DbError Unit → Prop where
  | refused {e : DbError} (h : ∀ writes, s = .open_ writes →
      choice.fault = .fails e ∨ replay st.db writes = .error e) :
      Ended choice st s (st, .idle, .error e)
  | committed {writes : List Write} {db : Db} {r : Except DbError Unit} (hs : s = .open_ writes)
      (hreplay : replay st.db writes = .ok db)
      (hr : r = .ok () ∨ ∃ e, choice.fault = .lostReply e ∧ r = .error e) :
      Ended choice st s (st.commit db writes, .idle, r)

theorem Session.commit_cases (choice : Choice) (st : Store) (s : Session) :
    Ended choice st s (s.commit choice st) := by
  cases s with
  | idle | aborted => exact .refused fun writes h => (nomatch h)
  | open_ writes =>
      unfold Session.commit
      simp only
      split
      · refine .refused fun writes h => .inl ?_
        assumption
      · refine .refused fun writes h => .inr ?_
        cases h
        assumption
      · rename_i hf hr
        exact .committed rfl hr (.inr ⟨_, hf, rfl⟩)
      · exact .committed rfl ‹replay st.db writes = _› (.inl rfl)

theorem Session.begin_cases (choice : Choice) (s : Session) :
    (∃ e, s.begin choice = (s, .error e)) ∨ s = .idle ∧ s.begin choice = (.open_ [], .ok ()) := by
  unfold Session.begin
  split
  · exact .inl ⟨_, rfl⟩
  · exact .inr ⟨rfl, rfl⟩
  · exact .inl ⟨_, rfl⟩

@[simp] theorem Session.rollback_fst (choice : Choice) (s : Session) :
    (s.rollback choice).1 = .idle := by
  unfold Session.rollback
  split <;> rfl

/-- A program of the worker or the API. -/
abbrev Client (α : Type) := Prog Op Op.Res α

namespace Client

def begin : Client (Except DbError Unit) := Prog.op Op.begin

def commit : Client (Except DbError Unit) := Prog.op Op.commit

def rollback : Client (Except DbError Unit) := Prog.op Op.rollback

def sql (q : Sql) : Client (Except DbError q.Out) := Prog.op (Op.sql q)

def probe (m : Checker.Monitor) : Client (Except String Checker.Result) := Prog.op (Op.probe m)

def now : Client Time := Prog.op Op.now

def ctxErr : Client (Option String) := Prog.op Op.ctxErr

def readFile (path : String) : Client (Except String String) := Prog.op (Op.readFile path)

def hash (password : String) : Client (Except String String) := Prog.op (Op.hash password)

end Client

/-- An operation performed, with its result. -/
abbrev Event := Σ o, Op.Res o

/-- Replies of the database arrive. -/
def Choice.Replies (choice : Choice) : Prop := ∀ e, choice.fault ≠ .lostReply e

/-- A choice under which nothing fails. -/
def Choice.calm (now : Time) (probe : Except String Checker.Result) : Choice :=
  { fault := .none, moment := ⟨now, []⟩, probe := probe, ctxErr := none, file := .error "",
    hashed := .error "" }

theorem Choice.calm_replies (now : Time) (probe : Except String Checker.Result) :
    (Choice.calm now probe).Replies := fun _ => Fault.noConfusion

/-! ### Rules for a program on its own

The operations performed are kept, and the environment's choices are in `A`. -/

section Rules

variable {α : Type} {A : Choice → Prop} {Q : Store × List Event → Session → α → Prop}
  {st : Store} {tr : List Event}

/-- The precondition of a program on its own. -/
abbrev Alone (A : Choice → Prop) (Q : Store × List Event → Session → α → Prop) (p : Client α)
    (st : Store) (tr : List Event) (s : Session) : Prop :=
  p.Post (Prog.logged handle) A Q (st, tr) s

/-- Some reply may be lost. -/
def Loses (A : Choice → Prop) : Prop := ∃ choice, A choice ∧ ¬ choice.Replies

theorem not_loses_replies : ¬ Loses Choice.Replies := fun ⟨_, h, hlost⟩ => hlost h

theorem loses_of_lostReply {choice : Choice} (h : A choice) {e : DbError}
    (hlost : choice.fault = .lostReply e) : Loses A :=
  ⟨choice, h, fun hreply => hreply e hlost⟩

theorem alone_probe {m : Checker.Monitor} {k : Except String Checker.Result → Client α}
    {s : Session} (h : ∀ r, Alone A Q (k r) st (tr ++ [⟨.probe m, r⟩]) s) :
    Alone A Q (Client.probe m >>= k) st tr s :=
  fun choice _ => h choice.probe

theorem alone_now {k : Time → Client α} {s : Session}
    (h : ∀ r, Alone A Q (k r) st (tr ++ [⟨.now, r⟩]) s) : Alone A Q (Client.now >>= k) st tr s :=
  fun choice _ => h choice.moment.now

theorem alone_readFile {path : String} {k : Except String String → Client α} {s : Session}
    (h : ∀ choice, A choice →
      Alone A Q (k choice.file) st (tr ++ [⟨.readFile path, choice.file⟩]) s) :
    Alone A Q (Client.readFile path >>= k) st tr s :=
  fun choice hchoice => h choice hchoice

theorem alone_begin {k : Except DbError Unit → Client α}
    (herr : ∀ e, Alone A Q (k (.error e)) st (tr ++ [⟨.begin, .error e⟩]) .idle)
    (hok : Alone A Q (k (.ok ())) st (tr ++ [⟨.begin, .ok ()⟩]) (.open_ [])) :
    Alone A Q (Client.begin >>= k) st tr .idle := by
  intro choice _
  show Alone A Q (k (Session.begin choice .idle).2) st
    (tr ++ [⟨.begin, (Session.begin choice .idle).2⟩]) (Session.begin choice .idle).1
  rcases Session.begin_cases choice .idle with ⟨e, he⟩ | ⟨-, he⟩
  · rw [he]; exact herr e
  · rw [he]; exact hok

/-- A statement in a transaction fails, finds no row, or is executed on what the transaction
sees. -/
theorem alone_sql {q : Sql} {k : Except DbError q.Out → Client α} {writes : List Write}
    (herr : ∀ seq e, Alone A Q (k (.error e)) { st with seq := seq }
      (tr ++ [⟨.sql q, .error e⟩]) .aborted)
    (hnone : ∀ out, q.noRows = some out →
      Alone A Q (k (.ok out)) st (tr ++ [⟨.sql q, .ok out⟩]) (.open_ writes))
    (hok : ∀ moment seq out more db,
      q.plan moment st.seq (writes.foldl Write.apply st.db) = (seq, .ok (out, more)) →
      replay (writes.foldl Write.apply st.db) more = .ok db →
      Alone A Q (k (.ok out)) { st with seq := seq } (tr ++ [⟨.sql q, .ok out⟩])
        (.open_ (writes ++ more))) :
    Alone A Q (Client.sql q >>= k) st tr (.open_ writes) := by
  intro choice _
  show Alone A Q (k ((Session.open_ writes).send choice st q).2.2)
    ((Session.open_ writes).send choice st q).1
    (tr ++ [⟨.sql q, ((Session.open_ writes).send choice st q).2.2⟩])
    ((Session.open_ writes).send choice st q).2.1
  have hcases := Session.send_cases choice st (.open_ writes) q
  generalize (Session.open_ writes).send choice st q = r at hcases ⊢
  cases hcases with
  | failed hs => cases hs
  | aborted => exact herr _ _
  | noRows hq => exact hnone _ hq
  | committed hs => cases hs
  | buffered hs hplan hreplay => cases hs; exact hok _ _ _ _ _ hplan hreplay

/-- In a transaction that has failed, every statement fails. -/
theorem alone_sql_aborted {q : Sql} {k : Except DbError q.Out → Client α}
    (hq : q.noRows = none)
    (herr : ∀ seq e, Alone A Q (k (.error e)) { st with seq := seq }
      (tr ++ [⟨.sql q, .error e⟩]) .aborted) :
    Alone A Q (Client.sql q >>= k) st tr .aborted := by
  intro choice _
  show Alone A Q (k (Session.aborted.send choice st q).2.2) (Session.aborted.send choice st q).1
    (tr ++ [⟨.sql q, (Session.aborted.send choice st q).2.2⟩])
    (Session.aborted.send choice st q).2.1
  have hcases := Session.send_cases choice st .aborted q
  generalize Session.aborted.send choice st q = r at hcases ⊢
  cases hcases with
  | failed hs => cases hs
  | aborted => exact herr _ _
  | noRows hq' => rw [hq] at hq'; cases hq'
  | committed hs => cases hs
  | buffered hs => cases hs

/-- Outside of a transaction the changes of a statement are committed at once, even if the reply is
lost. -/
theorem alone_sql_idle {q : Sql} {k : Except DbError q.Out → Client α}
    (herr : ∀ seq e, Alone A Q (k (.error e)) { st with seq := seq }
      (tr ++ [⟨.sql q, .error e⟩]) .idle)
    (hnone : ∀ out, q.noRows = some out →
      Alone A Q (k (.ok out)) st (tr ++ [⟨.sql q, .ok out⟩]) .idle)
    (hok : ∀ moment seq out writes db, q.plan moment st.seq st.db = (seq, .ok (out, writes)) →
      replay st.db writes = .ok db →
      Alone A Q (k (.ok out)) (({ st with seq := seq } : Store).commit db writes)
        (tr ++ [⟨.sql q, .ok out⟩]) .idle)
    (hlost : Loses A → ∀ moment seq out writes db e,
      q.plan moment st.seq st.db = (seq, .ok (out, writes)) → replay st.db writes = .ok db →
      Alone A Q (k (.error e)) (({ st with seq := seq } : Store).commit db writes)
        (tr ++ [⟨.sql q, .error e⟩]) .idle) :
    Alone A Q (Client.sql q >>= k) st tr .idle := by
  intro choice hchoice
  show Alone A Q (k (Session.idle.send choice st q).2.2) (Session.idle.send choice st q).1
    (tr ++ [⟨.sql q, (Session.idle.send choice st q).2.2⟩]) (Session.idle.send choice st q).2.1
  have hcases := Session.send_cases choice st .idle q
  generalize Session.idle.send choice st q = r at hcases ⊢
  cases hcases with
  | failed => exact herr _ _
  | aborted hs => exact absurd rfl hs
  | noRows hq => exact hnone _ hq
  | committed hs hplan hreplay hr =>
      rcases hr with rfl | ⟨e, hfault, rfl⟩
      · exact hok _ _ _ _ _ hplan hreplay
      · exact hlost (loses_of_lostReply hchoice hfault) _ _ _ _ _ _ hplan hreplay
  | buffered hs => cases hs

/-- A transaction is committed, even if the reply is lost, or nothing of it is. -/
theorem alone_commit {k : Except DbError Unit → Client α} {writes : List Write}
    (herr : ∀ e, Alone A Q (k (.error e)) st (tr ++ [⟨.commit, .error e⟩]) .idle)
    (hok : ∀ db, replay st.db writes = .ok db →
      Alone A Q (k (.ok ())) (st.commit db writes) (tr ++ [⟨.commit, .ok ()⟩]) .idle)
    (hlost : Loses A → ∀ e db, replay st.db writes = .ok db →
      Alone A Q (k (.error e)) (st.commit db writes) (tr ++ [⟨.commit, .error e⟩]) .idle) :
    Alone A Q (Client.commit >>= k) st tr (.open_ writes) := by
  intro choice hchoice
  show Alone A Q (k ((Session.open_ writes).commit choice st).2.2)
    ((Session.open_ writes).commit choice st).1
    (tr ++ [⟨.commit, ((Session.open_ writes).commit choice st).2.2⟩])
    ((Session.open_ writes).commit choice st).2.1
  have hcases := Session.commit_cases choice st (.open_ writes)
  generalize (Session.open_ writes).commit choice st = r at hcases ⊢
  cases hcases with
  | refused => exact herr _
  | committed hs hreplay hr =>
      cases hs
      rcases hr with rfl | ⟨e, hfault, rfl⟩
      · exact hok _ hreplay
      · exact hlost (loses_of_lostReply hchoice hfault) _ _ hreplay

theorem alone_rollback {k : Except DbError Unit → Client α} {s : Session}
    (h : ∀ r, Alone A Q (k r) st (tr ++ [⟨.rollback, r⟩]) .idle) :
    Alone A Q (Client.rollback >>= k) st tr s := by
  intro choice _
  show Alone A Q (k (s.rollback choice).2) st (tr ++ [⟨.rollback, (s.rollback choice).2⟩])
    (s.rollback choice).1
  rw [Session.rollback_fst]
  exact h _

end Rules

end Sentinel.Database
