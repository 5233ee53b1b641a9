import Sentinel.Api.Values

/-!
# Api — Monitors

The writing requests of `MonitorsService` (`src/monitors/monitors.service.ts`). Every statement
outside of `$transaction` is committed by itself.
-/

namespace Sentinel.Api

open Program Database

/-- The user of a request: a number, or an object whose `is_demo` is `true`. -/
structure Requester where
  id : Int
  isDemo : Bool
deriving DecidableEq, Repr

/-- `CreateMonitorDto`. A configuration is a JSON text. -/
structure CreateMonitorDto where
  name : String
  target : String
  checkType : Field String
  checkConfig : Field String
  frequency : Field Int
deriving DecidableEq, Repr

/-- `UpdateMonitorDto`. -/
structure UpdateMonitorDto where
  name : Field String
  target : Field String
  checkType : Field String
  checkConfig : Field String
  frequency : Field Int
deriving DecidableEq, Repr

structure MonitorResponseDto where
  id : Int
  name : String
  target : String
  checkType : String
  checkConfig : String
  frequency : Int
  state : String
  lastState : Option String
  lastCheckedAt : Option Time
  consecutiveFailures : Int
  createdAt : Time
  userId : Int
deriving DecidableEq, Repr

def MonitorResponseDto.fromEntity (entity : Monitor) : MonitorResponseDto :=
  { id := entity.id, name := entity.name, target := entity.target, checkType := entity.checkType,
    checkConfig := entity.checkConfig.getD "{}", frequency := entity.frequency,
    state := entity.state, lastState := entity.lastState, lastCheckedAt := entity.lastCheckedAt,
    consecutiveFailures := entity.consecutiveFailures, createdAt := entity.createdAt,
    userId := entity.userId }

def validCheckTypes : List String := ["http"]

def minFrequency (rt : Runtime) (user : Requester) : Number :=
  rt.config (if user.isDemo then "DEMO_MIN_FREQUENCY_SECONDS" else "MIN_MONITOR_FREQUENCY_SECONDS")
    60

def maxMonitors (rt : Runtime) (user : Requester) : Number :=
  rt.config (if user.isDemo then "DEMO_MAX_MONITORS" else "MAX_MONITORS_PER_USER")
    (if user.isDemo then 3 else 10)

/-- The columns of a new monitor. -/
def CreateMonitorDto.data (dto : CreateMonitorDto) (userId : Int) (now : Time) : NewMonitor :=
  { name := dto.name, target := dto.target, frequency := dto.frequency.getD 60,
    state := "Active", checkType := dto.checkType.orDefault "http",
    checkConfig := dto.checkConfig.getD "{}", consecutiveFailures := 0, createdAt := now,
    userId := userId }

/-- The insert of a new monitor. -/
def insertMonitor (dto : CreateMonitorDto) (userId : Int) :
    Client (Except ApiError MonitorResponseDto) := do
  let now ← Client.now
  query (.createMonitor (dto.data userId now)) fun monitor =>
    return .ok (MonitorResponseDto.fromEntity monitor)

/-- What `createMonitor` does with the count. -/
def insertWithinLimit (rt : Runtime) (dto : CreateMonitorDto) (user : Requester)
    (currentCount : Nat) : Client (Except ApiError MonitorResponseDto) :=
  if (Number.finite currentCount).ge (maxMonitors rt user) then
    return .error (.monitorLimit (maxMonitors rt user))
  else insertMonitor dto user.id

/-- `createMonitor`. -/
def createMonitor (rt : Runtime) (dto : CreateMonitorDto) (user : Requester) :
    Client (Except ApiError MonitorResponseDto) :=
  if dto.checkType.orDefault "http" ∉ validCheckTypes then
    return .error (.unknownCheckerType (dto.checkType.orDefault "http"))
  else if (Number.finite (dto.frequency.getD 60)).lt (minFrequency rt user) then
    return .error (.frequencyTooLow (minFrequency rt user))
  else
    query (.countMonitors user.id) (insertWithinLimit rt dto user)

/-- `dataToUpdate`, unless it has a `null`. -/
def UpdateMonitorDto.dataToUpdate (dto : UpdateMonitorDto) : Option MonitorPatch := do
  let name ← dto.name.toUpdate
  let target ← dto.target.toUpdate
  let checkType ← dto.checkType.toUpdate
  let checkConfig ← dto.checkConfig.toUpdate
  let frequency ← dto.frequency.toUpdate
  return { name, target, checkType, checkConfig, frequency }

/-- The frequency an update asks for, as it is compared: `null` is 0. -/
def UpdateMonitorDto.frequencyBelow (dto : UpdateMonitorDto) (limit : Number) : Bool :=
  match dto.frequency with
  | .undefined => false
  | .null => (Number.finite 0).lt limit
  | .value frequency => (Number.finite frequency).lt limit

/-- `updateMonitor`. -/
def updateMonitor (rt : Runtime) (monitorId : Int) (user : Requester) (dto : UpdateMonitorDto) :
    Client (Except ApiError MonitorResponseDto) :=
  query (.findFirstMonitor monitorId user.id) fun (monitor : Option Monitor) =>
    if monitor = none then return .error (.notFound "do not have permission to modify it.")
    else if dto.checkType.orDefault "http" ∉ validCheckTypes then
      return .error (.unknownCheckerType (dto.checkType.orDefault "http"))
    else if dto.frequencyBelow (minFrequency rt user) then
      return .error (.frequencyTooLow (minFrequency rt user))
    else
      match dto.dataToUpdate with
      | none => return .error .invalidArgument
      | some dataToUpdate =>
          query (.updateMonitor monitorId dataToUpdate) fun updated =>
            return .ok (MonitorResponseDto.fromEntity updated)

/-- `deleteMonitor`. -/
def deleteMonitor (monitorId userId : Int) : Client (Except ApiError String) :=
  query (.findFirstMonitor monitorId userId) fun (monitor : Option Monitor) =>
    if monitor = none then return .error (.notFound "don't have permission to delete it")
    else
      transaction <|
        query (.deleteCheckResults monitorId) fun _ =>
          query (.deleteAlerts monitorId) fun _ =>
            query (.deleteMonitor monitorId) fun _ => return .ok "Monitor deleted successfully"

/-! ### What the requests send -/

/-- The operations of the requests of a user. -/
inductive Sends (userId : Int) : Op → Prop where
  | count : Sends userId (.sql (.countMonitors userId))
  | now : Sends userId .now
  | create {data : NewMonitor} (hfailures : data.consecutiveFailures = 0)
      (huser : data.userId = userId) : Sends userId (.sql (.createMonitor data))
  | find (id : Int) : Sends userId (.sql (.findFirstMonitor id userId))
  | update (id : Int) (patch : MonitorPatch) : Sends userId (.sql (.updateMonitor id patch))
  | deleteCheckResults (id : Int) : Sends userId (.sql (.deleteCheckResults id))
  | deleteAlerts (id : Int) : Sends userId (.sql (.deleteAlerts id))
  | deleteMonitor (id : Int) : Sends userId (.sql (.deleteMonitor id))
  | begin : Sends userId .begin
  | commit : Sends userId .commit
  | rollback : Sends userId .rollback

theorem createMonitor_sends (rt : Runtime) (dto : CreateMonitorDto) (user : Requester) :
    (createMonitor rt dto user).Only (Sends user.id) := by
  unfold createMonitor
  split
  · trivial
  · split
    · trivial
    · refine only_query .count fun n => ?_
      unfold insertWithinLimit
      split
      · trivial
      · refine Prog.only_bind (fun now => ?_) (Prog.only_op .now)
        exact only_query (.create rfl rfl) fun _ => trivial

theorem updateMonitor_sends (rt : Runtime) (monitorId : Int) (user : Requester)
    (dto : UpdateMonitorDto) : (updateMonitor rt monitorId user dto).Only (Sends user.id) := by
  refine only_query (.find monitorId) fun monitor => ?_
  split
  · trivial
  · split
    · trivial
    · split
      · trivial
      · split
        · trivial
        · exact only_query (.update monitorId _) fun _ => trivial

theorem deleteMonitor_only {P : Op → Prop} {monitorId userId : Int}
    (hfind : P (.sql (.findFirstMonitor monitorId userId)))
    (hresults : P (.sql (.deleteCheckResults monitorId)))
    (halerts : P (.sql (.deleteAlerts monitorId))) (hmonitor : P (.sql (.deleteMonitor monitorId)))
    (hbegin : P .begin) (hcommit : P .commit) (hrollback : P .rollback) :
    (deleteMonitor monitorId userId).Only P := by
  refine only_query hfind fun monitor => ?_
  split
  · trivial
  · refine only_transaction hbegin hcommit hrollback ?_
    refine only_query hresults fun _ => only_query halerts fun _ => ?_
    exact only_query hmonitor fun _ => trivial

theorem deleteMonitor_sends (monitorId userId : Int) :
    (deleteMonitor monitorId userId).Only (Sends userId) :=
  deleteMonitor_only (.find _) (.deleteCheckResults _) (.deleteAlerts _) (.deleteMonitor _) .begin
    .commit .rollback

end Sentinel.Api
