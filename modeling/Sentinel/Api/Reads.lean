import Sentinel.Api.Monitors

/-!
# Api — Reads

The reading requests of `MonitorsService` (`src/monitors/monitors.service.ts`).
-/

namespace Sentinel.Api

open Program Database

structure CheckResultResponseDto where
  id : Int
  monitorId : Int
  state : String
  statusCode : Option Int
  latencyMs : Int
  errorMessage : Option ByteArray
  createdAt : Time
deriving DecidableEq

def CheckResultResponseDto.fromEntity (entity : CheckResult) : CheckResultResponseDto :=
  { id := entity.id, monitorId := entity.monitorId, state := entity.state,
    statusCode := entity.statusCode, latencyMs := entity.latencyMs,
    errorMessage := entity.errorMessage, createdAt := entity.createdAt }

structure AlertResponseDto where
  id : Int
  monitorId : Int
  alertType : String
  message : String
  createdAt : Time
deriving DecidableEq, Repr

def AlertResponseDto.fromEntity (entity : Alert) : AlertResponseDto :=
  { id := entity.id, monitorId := entity.monitorId, alertType := entity.alertType,
    message := entity.message, createdAt := entity.createdAt }

/-- `getMonitorsByUser`. -/
def getMonitorsByUser (userId : Int) : Client (Except ApiError (List MonitorResponseDto)) :=
  query (.findManyMonitors userId) fun (monitors : List Monitor) =>
    return .ok (monitors.map MonitorResponseDto.fromEntity)

/-- What is read of a monitor by its id, for its owner. -/
def readOwned {α : Type} (monitorId userId : Int) (read : Client (Except ApiError α)) :
    Client (Except ApiError α) :=
  query (.findUniqueMonitor monitorId) fun (monitor : Option Monitor) =>
    match monitor with
    | none => return .error (.missingMonitor "Monitor no encontrado")
    | some monitor =>
        if monitor.userId ≠ userId then
          return .error (.forbidden "No tienes permiso para ver el historial de este monitor")
        else read

/-- `getHistory`, with its limit if it is given. -/
def getHistory (monitorId userId : Int) (limit : Option Int) :
    Client (Except ApiError (List CheckResultResponseDto)) :=
  readOwned monitorId userId <|
    query (.findManyCheckResults monitorId (limit.getD 50)) fun (results : List CheckResult) =>
      return .ok (results.map CheckResultResponseDto.fromEntity)

/-- `getAlerts`, with its limit if it is given. -/
def getAlerts (monitorId userId : Int) (limit : Option Int) :
    Client (Except ApiError (List AlertResponseDto)) :=
  readOwned monitorId userId <|
    query (.findManyAlerts monitorId (limit.getD 20)) fun (alerts : List Alert) =>
      return .ok (alerts.map AlertResponseDto.fromEntity)

end Sentinel.Api
