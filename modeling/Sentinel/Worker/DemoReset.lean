import Sentinel.Database.Ledger

/-!
# Worker — DemoReset

`resetDemoAccount` of `internal/worker/demo_reset.go`: the monitors of the demo account are
replaced by those of a manifest, in one transaction. The decoder of the manifest is a parameter.
-/

namespace Sentinel.Worker

open Program Database

structure DemoMonitor where
  seedKey : String
  name : String
  target : String
  frequency : Int
  checkType : String
  /-- The JSON text, if there is one. -/
  checkConfig : Option String
deriving DecidableEq, Repr

inductive ResetError where
  | readManifest (err : String)
  | parseManifest (err : String)
  | findUser (err : DbError)
  | begin (err : DbError)
  | delete (err : DbError)
  | restore (seedKey : String) (err : DbError)
  | commit (err : DbError)
deriving DecidableEq, Repr

/-- An entry that stands on its own, with a key that is not among `keys`. -/
def DemoMonitor.valid (keys : List String) (m : DemoMonitor) : Bool :=
  m.seedKey ≠ "" && m.seedKey ∉ keys && m.name ≠ "" && 0 < m.frequency && m.checkType ≠ "" &&
    m.target ≠ ""

/-- The entries are valid one after the other. -/
def validDemoMonitors (keys : List String) : List DemoMonitor → Bool
  | [] => true
  | m :: monitors => m.valid keys && validDemoMonitors (m.seedKey :: keys) monitors

def parseDemoManifest (unmarshal : String → Except String (List DemoMonitor)) (data : String) :
    Except String (List DemoMonitor) :=
  match unmarshal data with
  | .error err => .error err
  | .ok monitors =>
      if monitors = [] then .error "demo manifest must contain at least one monitor"
      else if validDemoMonitors [] monitors then .ok monitors
      else .error "demo manifest contains invalid monitor entry"

/-- The inserts of the transaction and its commit. -/
def restore (userId : Int) : List DemoMonitor → Client (Option ResetError)
  | [] => do
      match ← Client.commit with
      | .error err => return some (.commit err)
      | .ok _ => return none
  | m :: monitors => do
      match ← Client.sql (.insertDemoMonitor userId m.name m.target m.checkType m.checkConfig
          m.frequency m.seedKey) with
      | .error err => return some (.restore m.seedKey err)
      | .ok _ => restore userId monitors

/-- The deletes of the transaction, and what follows them. -/
def replaceOwned (userId : Int) (monitors : List DemoMonitor) : Client (Option ResetError) := do
  match ← Client.sql (.deleteOwnedCheckResults userId) with
  | .error err => return some (.delete err)
  | .ok _ =>
      match ← Client.sql (.deleteOwnedAlerts userId) with
      | .error err => return some (.delete err)
      | .ok _ =>
          match ← Client.sql (.deleteOwnedMonitors userId) with
          | .error err => return some (.delete err)
          | .ok _ => restore userId monitors

def resetTransaction (userId : Int) (monitors : List DemoMonitor) :
    Client (Option ResetError) := do
  match ← Client.begin with
  | .error err => return some (.begin err)
  | .ok _ =>
      let r ← replaceOwned userId monitors
      let _ ← Client.rollback
      return r

/-- `resetDemoAccount`. The rollback is deferred, so it also runs after the commit. -/
def resetDemoAccount (unmarshal : String → Except String (List DemoMonitor))
    (email manifestPath : String) : Client (Option ResetError) :=
  if email = "" then return none
  else do
    match ← Client.readFile (if manifestPath = "" then "../demo-monitors.json" else manifestPath)
      with
    | .error err => return some (.readManifest err)
    | .ok data =>
        match parseDemoManifest unmarshal data with
        | .error err => return some (.parseManifest err)
        | .ok monitors =>
            match ← Client.sql (.selectDemoUser email) with
            | .error err => return some (.findUser err)
            | .ok none => return none
            | .ok (some userId) => resetTransaction userId monitors

/-! ### What a reset sends -/

/-- The operations of a reset. -/
inductive ResetSends : Op → Prop where
  | readFile (path : String) : ResetSends (.readFile path)
  | select (email : String) : ResetSends (.sql (.selectDemoUser email))
  | begin : ResetSends .begin
  | deleteCheckResults (userId : Int) : ResetSends (.sql (.deleteOwnedCheckResults userId))
  | deleteAlerts (userId : Int) : ResetSends (.sql (.deleteOwnedAlerts userId))
  | deleteMonitors (userId : Int) : ResetSends (.sql (.deleteOwnedMonitors userId))
  | insert (userId : Int) (name target checkType : String) (checkConfig : Option String)
      (frequency : Int) (seedKey : String) :
      ResetSends (.sql (.insertDemoMonitor userId name target checkType checkConfig frequency
        seedKey))
  | commit : ResetSends .commit
  | rollback : ResetSends .rollback

theorem restore_sends (userId : Int) :
    ∀ monitors : List DemoMonitor, (restore userId monitors).Only ResetSends
  | [] => by
      refine Prog.only_bind (fun r => ?_) (Prog.only_op .commit)
      cases r <;> trivial
  | m :: monitors => by
      refine Prog.only_bind (fun r => ?_) (Prog.only_op (.insert ..))
      cases r with
      | error err => trivial
      | ok _ => exact restore_sends userId monitors

theorem replaceOwned_sends (userId : Int) (monitors : List DemoMonitor) :
    (replaceOwned userId monitors).Only ResetSends := by
  refine Prog.only_bind (fun r => ?_) (Prog.only_op (.deleteCheckResults _))
  cases r with
  | error err => trivial
  | ok _ =>
      refine Prog.only_bind (fun r => ?_) (Prog.only_op (.deleteAlerts _))
      cases r with
      | error err => trivial
      | ok _ =>
          refine Prog.only_bind (fun r => ?_) (Prog.only_op (.deleteMonitors _))
          cases r with
          | error err => trivial
          | ok _ => exact restore_sends userId monitors

theorem resetDemoAccount_sends (unmarshal : String → Except String (List DemoMonitor))
    (email manifestPath : String) :
    (resetDemoAccount unmarshal email manifestPath).Only ResetSends := by
  unfold resetDemoAccount
  split
  · trivial
  · refine Prog.only_bind (fun r => ?_) (Prog.only_op (.readFile _))
    cases r with
    | error err => trivial
    | ok data =>
        simp only
        split
        · trivial
        · refine Prog.only_bind (fun r => ?_) (Prog.only_op (.select _))
          match r with
          | .error err => trivial
          | .ok none => trivial
          | .ok (some userId) =>
              refine Prog.only_bind (fun r => ?_) (Prog.only_op .begin)
              cases r with
              | error err => trivial
              | ok _ =>
                  refine Prog.only_bind (fun r => ?_) (replaceOwned_sends userId _)
                  exact Prog.only_bind (fun _ => Prog.only_ret) (Prog.only_op .rollback)

end Sentinel.Worker
