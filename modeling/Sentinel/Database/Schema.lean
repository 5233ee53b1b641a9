import Mathlib.Data.List.Basic
import Mathlib.Tactic.Common
import Sentinel.Library.Utf8

/-!
# Database — Schema

The tables of `prisma/schema.prisma` and its migrations, and what one row-level change does to
them.

* A statement changes rows one at a time, and `Write` is one such change with the values already
  computed. `Write.apply` is total; `Write.violates` is the constraint of the schema that refuses
  the change, if any: a foreign key, a unique index, the range of an `INTEGER`, or the text a
  `VARCHAR` accepts. An update by key is refused without its record. Ids are drawn from sequences,
  so no primary key is in the way.
* `replay` makes a list of changes in order and stops at the first refusal.

Times are microseconds since the epoch, in UTC. Columns of `VARCHAR` type hold a `String`, except
the two that are filled with the bytes of a probe.
-/

namespace Sentinel.Database

abbrev Time := Int

/-- What a database call fails with. -/
inductive DbError where
  /-- An error of PostgreSQL, by its SQLSTATE. -/
  | pg (code : String)
  /-- A record that an update or a delete by key needs is not there. -/
  | notFound
  /-- The transaction is over. -/
  | txClosed
  | other (message : String)
deriving DecidableEq, Repr

def foreignKeyViolation : DbError := .pg "23503"

def uniqueViolation : DbError := .pg "23505"

def outOfRange : DbError := .pg "22003"

def invalidText : DbError := .pg "22021"

def inFailedTransaction : DbError := .pg "25P02"

/-! ### Rows -/

/-- A row of `users`. -/
structure User where
  id : Int
  name : String
  lastName : String
  username : String
  email : String
  password : String
  createdAt : Time
  updatedAt : Time
  status : Option String
  isActive : Bool
  isDemo : Bool
deriving DecidableEq, Repr

/-- A row of `monitor`. `checkConfig` is the JSON text. -/
structure Monitor where
  id : Int
  name : String
  target : String
  frequency : Int
  state : String
  createdAt : Time
  checkType : String
  checkConfig : Option String
  lastState : Option String
  lastCheckedAt : Option Time
  consecutiveFailures : Int
  userId : Int
  seedKey : Option String
  isPublic : Bool
deriving DecidableEq, Repr

/-- A row of `check_result`. -/
structure CheckResult where
  id : Int
  monitorId : Int
  state : String
  statusCode : Option Int
  /-- In thousandths of a millisecond. -/
  latencyMs : Int
  responseSample : Option ByteArray
  errorMessage : Option ByteArray
  createdAt : Time
deriving DecidableEq

/-- A row of `alert`. -/
structure Alert where
  id : Int
  monitorId : Int
  alertType : String
  message : String
  createdAt : Time
deriving DecidableEq, Repr

/-- The committed tables, in insertion order. -/
structure Db where
  users : List User
  monitors : List Monitor
  checkResults : List CheckResult
  alerts : List Alert
deriving DecidableEq

def Db.empty : Db := ⟨[], [], [], []⟩

/-! ### Changes of one row -/

/-- The columns an update request may change, each only if it is given. -/
structure MonitorPatch where
  name : Option String
  target : Option String
  checkType : Option String
  checkConfig : Option String
  frequency : Option Int
deriving DecidableEq, Repr

/-- The columns a seed sets on a monitor, new or not. A configuration that is not given leaves the
column as it is. -/
structure SeedValues where
  name : String
  target : String
  frequency : Int
  state : String
  checkType : String
  checkConfig : Option String
  consecutiveFailures : Int
  isPublic : Bool
deriving DecidableEq, Repr

/-- A change of one row. -/
inductive Write where
  | insertUser (u : User)
  | setDemoUser (id : Int) (password : String)
  | insertMonitor (m : Monitor)
  | setChecked (id : Int) (state : Option String) (checkedAt : Time) (failures : Int)
  | setFields (id : Int) (patch : MonitorPatch)
  | setSeeded (id : Int) (values : SeedValues)
  | hide (id : Int)
  | deleteMonitor (id : Int)
  | insertCheckResult (r : CheckResult)
  | deleteCheckResult (id : Int)
  | insertAlert (a : Alert)
  | deleteAlert (id : Int)
deriving DecidableEq

def Monitor.checked (m : Monitor) (state : Option String) (checkedAt : Time) (failures : Int) :
    Monitor :=
  { m with lastState := state, lastCheckedAt := some checkedAt, consecutiveFailures := failures }

def Monitor.patched (m : Monitor) (patch : MonitorPatch) : Monitor :=
  { m with
    name := patch.name.getD m.name
    target := patch.target.getD m.target
    checkType := patch.checkType.getD m.checkType
    checkConfig := patch.checkConfig.or m.checkConfig
    frequency := patch.frequency.getD m.frequency }

def Monitor.seeded (m : Monitor) (values : SeedValues) : Monitor :=
  { m with
    name := values.name
    target := values.target
    frequency := values.frequency
    state := values.state
    checkType := values.checkType
    checkConfig := values.checkConfig.or m.checkConfig
    consecutiveFailures := values.consecutiveFailures
    isPublic := values.isPublic }

/-- Changes the monitors with one id. -/
def Db.onMonitor (db : Db) (id : Int) (f : Monitor → Monitor) : Db :=
  { db with monitors := db.monitors.map fun m => if m.id = id then f m else m }

/-- A monitor afterwards was there before, or is a changed one. -/
theorem Db.mem_onMonitor {db : Db} {id : Int} {f : Monitor → Monitor} {m : Monitor}
    (hm : m ∈ (db.onMonitor id f).monitors) :
    m ∈ db.monitors ∧ m.id ≠ id ∨ ∃ old ∈ db.monitors, old.id = id ∧ m = f old := by
  obtain ⟨old, hold, rfl⟩ := List.mem_map.mp hm
  by_cases hid : old.id = id
  · exact .inr ⟨old, hold, hid, if_pos hid⟩
  · rw [if_neg hid]
    exact .inl ⟨hold, hid⟩

/-- The effect of a change. Deleting a monitor deletes its check results and alerts. -/
def Write.apply (db : Db) : Write → Db
  | insertUser u => { db with users := db.users ++ [u] }
  | setDemoUser id password =>
      { db with users := db.users.map fun u =>
          if u.id = id then { u with password := password, isDemo := true } else u }
  | insertMonitor m => { db with monitors := db.monitors ++ [m] }
  | setChecked id state checkedAt failures => db.onMonitor id (·.checked state checkedAt failures)
  | setFields id patch => db.onMonitor id (·.patched patch)
  | setSeeded id values => db.onMonitor id (·.seeded values)
  | hide id => db.onMonitor id ({ · with isPublic := false })
  | deleteMonitor id =>
      { db with
        monitors := db.monitors.filter (·.id ≠ id)
        checkResults := db.checkResults.filter (·.monitorId ≠ id)
        alerts := db.alerts.filter (·.monitorId ≠ id) }
  | insertCheckResult r => { db with checkResults := db.checkResults ++ [r] }
  | deleteCheckResult id => { db with checkResults := db.checkResults.filter (·.id ≠ id) }
  | insertAlert a => { db with alerts := db.alerts ++ [a] }
  | deleteAlert id => { db with alerts := db.alerts.filter (·.id ≠ id) }

/-! ### Constraints -/

/-- The text a `VARCHAR` of a UTF8 database accepts: valid UTF-8 without a NUL byte. -/
def acceptsBytes (b : ByteArray) : Bool := decide b.IsValidUTF8 && !(b.data.toList.contains 0)

/-- The same of a string, whose encoding is valid already. -/
def acceptsText (s : String) : Bool := !(s.toList.contains '\x00')

/-- The range of an `INTEGER`. -/
def isInteger (n : Int) : Bool := -2147483648 ≤ n && n ≤ 2147483647

def Db.hasMonitor (db : Db) (id : Int) : Bool := db.monitors.any (·.id = id)

/-- The first of some checks that fails. -/
def firstViolation (checks : List (Bool × DbError)) : Option DbError :=
  (checks.find? fun c => !c.1).map Prod.snd

theorem firstViolation_eq_none {checks : List (Bool × DbError)} :
    firstViolation checks = none ↔ ∀ c ∈ checks, c.1 = true := by
  simp [firstViolation, List.find?_eq_none]

/-- The constraint that refuses a change, if any. -/
def Write.violates (db : Db) : Write → Option DbError
  | insertUser u => firstViolation
      [(acceptsText u.email && acceptsText u.username && acceptsText u.password, invalidText),
        (!db.users.any fun v => v.email = u.email || v.username = u.username, uniqueViolation)]
  | insertMonitor m => firstViolation
      [(acceptsText m.name && acceptsText m.target && acceptsText m.checkType, invalidText),
        (isInteger m.frequency && isInteger m.consecutiveFailures, outOfRange),
        (m.seedKey = none ||
          !db.monitors.any fun n => n.userId = m.userId && n.seedKey = m.seedKey, uniqueViolation),
        (db.users.any (·.id = m.userId), foreignKeyViolation)]
  | setChecked _ _ _ failures => firstViolation [(isInteger failures, outOfRange)]
  | setFields id patch => firstViolation
      [([patch.name, patch.target, patch.checkType].all fun s => s.all acceptsText, invalidText),
        (patch.frequency.all isInteger, outOfRange), (db.hasMonitor id, .notFound)]
  | setSeeded _ values => firstViolation
      [(acceptsText values.name && acceptsText values.target && acceptsText values.checkType,
          invalidText),
        (isInteger values.frequency && isInteger values.consecutiveFailures, outOfRange)]
  | insertCheckResult r => firstViolation
      [(r.responseSample.all acceptsBytes && r.errorMessage.all acceptsBytes, invalidText),
        (r.statusCode.all isInteger, outOfRange),
        (db.hasMonitor r.monitorId, foreignKeyViolation)]
  | insertAlert a => firstViolation [(acceptsText a.message, invalidText),
      (db.hasMonitor a.monitorId, foreignKeyViolation)]
  | _ => none

/-- Makes the changes in order, up to the first that is refused. -/
def replay : Db → List Write → Except DbError Db
  | db, [] => .ok db
  | db, w :: ws =>
      match w.violates db with
      | some e => .error e
      | none => replay (w.apply db) ws

theorem replay_cons {db db' : Db} {w : Write} {ws : List Write} :
    replay db (w :: ws) = .ok db' ↔ w.violates db = none ∧ replay (w.apply db) ws = .ok db' := by
  rw [replay]
  cases w.violates db <;> simp

theorem replay_append {db : Db} {ws vs : List Write} :
    replay db (ws ++ vs) = (replay db ws).bind fun db' => replay db' vs := by
  induction ws generalizing db with
  | nil => rfl
  | cons w ws ih =>
      rw [List.cons_append, replay, replay]
      cases w.violates db with
      | some e => rfl
      | none => exact ih

/-- **What every admitted change keeps, a list of changes keeps.** -/
theorem replay_invariant {P : Db → Prop} : ∀ {ws : List Write} {db db' : Db},
    (∀ w ∈ ws, ∀ db, w.violates db = none → P db → P (w.apply db)) → P db →
      replay db ws = .ok db' → P db'
  | [], _, _, _, h, hr => by cases hr; exact h
  | w :: ws, db, db', hstep, h, hr => by
      obtain ⟨hv, hr⟩ := replay_cons.mp hr
      exact replay_invariant (fun v hv => hstep v (List.mem_cons_of_mem _ hv))
        (hstep w List.mem_cons_self db hv h) hr

/-- Made without a refusal, the changes have their effects one after the other. -/
theorem replay_eq_foldl : ∀ {ws : List Write} {db db' : Db}, replay db ws = .ok db' →
    db' = ws.foldl Write.apply db
  | [], _, _, h => by cases h; rfl
  | _ :: _, _, _, h => by
      have ih := replay_eq_foldl (replay_cons.mp h).2
      exact ih

/-- Changes that no tables refuse. -/
theorem replay_unrefused {ws : List Write} (h : ∀ w ∈ ws, ∀ db, w.violates db = none) (db : Db) :
    replay db ws = .ok (ws.foldl Write.apply db) := by
  induction ws generalizing db with
  | nil => rfl
  | cons w ws ih =>
      obtain ⟨hw, hws⟩ := List.forall_mem_cons.mp h
      rw [replay, hw]
      exact ih hws _

end Sentinel.Database
