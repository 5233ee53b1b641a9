import Sentinel.Checker.Ssrf
import Sentinel.Library.Utf8

/-!
# Checker — Http

The checkers of the worker (`internal/checker/checker.go`, `registry.go`, `http.go`): the registry
by type name, and `HTTPChecker.check`.

The request itself is made by the HTTP library, so the parser of URLs, the decoder of the
monitor's JSON configuration, the constructor of requests and the exchange are the fields of an
`HttpEnv`. What the checker makes of them is here: which target it refuses, the method, the
expected status and the time limit it takes from the configuration, and the `Result` it reports.
The body is cut at `maxResponseBodyRead` bytes and reported as it is.
-/

namespace Sentinel.Checker

/-- A monitor as the worker reads it. `checkConfig` is the JSON text of the column. -/
structure Monitor where
  id : Int
  name : String
  target : String
  checkType : String
  checkConfig : Option String
  frequency : Int
  lastState : Option String
  lastCheckedAt : Option Int
  consecutiveFailures : Int
deriving DecidableEq, Repr

/-- The outcome of a check. Samples and messages are Go strings, which hold any bytes. -/
structure Result where
  state : String
  /-- In thousandths of a millisecond. -/
  latencyMs : Int
  statusCode : Option Int
  responseSample : Option ByteArray
  errorMessage : Option ByteArray
deriving DecidableEq

/-- `Get`, over the names registered. -/
def get (registered : List String) (checkType : String) : Except String Unit :=
  if checkType ∈ registered then .ok () else .error ("unknown checker type: " ++ checkType)

/-- One second, in nanoseconds. -/
def second : Int := 1000000000

def defaultCheckTimeout : Int := 10 * second

def maxCheckTimeout : Int := 15 * second

def maxResponseBodyRead : Nat := 500

/-- What the checker reads of a configuration: each entry if it is there with the right type. -/
structure CheckConfig where
  method : Option String
  expectedStatus : Option Rat
  timeout : Option Rat
deriving DecidableEq, Repr

structure Response where
  statusCode : Int
  /-- What can be read of the body before it ends or fails. -/
  body : ByteArray

/-- The HTTP library, as the checker uses it. -/
structure HttpEnv where
  urlParse : String → Except String Url
  unmarshal : String → CheckConfig
  /-- The error of a request that cannot be made, from its method and its target. -/
  newRequest : String → String → Option String
  /-- The exchange under a time limit, with what it took. -/
  exchange : String → String → Int → Int × Except String Response

/-- The conversion of a number to an integer. -/
def toInt (q : Rat) : Int := q.num.tdiv q.den

/-- The time limit a configuration asks for. The product is one of 64-bit integers. -/
def checkTimeout (timeout : Option Rat) : Int :=
  match timeout with
  | some t =>
      if 0 < t then
        let reqTimeout := (toInt t * second).bmod (2 ^ 64)
        if reqTimeout > maxCheckTimeout then maxCheckTimeout else reqTimeout
      else defaultCheckTimeout
  | none => defaultCheckTimeout

/-- A result that says why nothing was received. -/
def failed (latencyMs : Int) (message : String) : Result :=
  { state := "unhealthy", latencyMs := latencyMs, statusCode := none, responseSample := none,
    errorMessage := some message.toUTF8 }

/-- `io.ReadAll(io.LimitReader(resp.Body, maxResponseBodyRead))`. -/
def sample (body : ByteArray) : ByteArray := body.extract 0 maxResponseBodyRead

/-- The configuration of a monitor; without one, no entry is there. -/
def Monitor.config (env : HttpEnv) (m : Monitor) : CheckConfig :=
  (m.checkConfig.map env.unmarshal).getD ⟨none, none, none⟩

def CheckConfig.requestMethod (cfg : CheckConfig) : String :=
  (cfg.method.filter (· ≠ "")).getD "GET"

def CheckConfig.expected (cfg : CheckConfig) : Int := (cfg.expectedStatus.map toInt).getD 200

/-- The result of a response, for the status that is expected. -/
def received (expectedStatus latencyMs : Int) (resp : Response) : Result :=
  { state := if resp.statusCode = expectedStatus then "healthy" else "unhealthy"
    latencyMs := latencyMs
    statusCode := some resp.statusCode
    responseSample := some (sample resp.body)
    errorMessage := none }

/-- `HTTPChecker.Check`. It never returns an error. -/
def HTTPChecker.check (env : HttpEnv) (allowedPorts : Option (Int → Bool)) (m : Monitor) :
    Except String Result :=
  match validateTargetURL env.urlParse m.target (some (SafeTransportConfig.mk allowedPorts).ports)
      with
  | .error e => .ok (failed 0 ("invalid monitor target: " ++ e.message))
  | .ok _ =>
      let cfg := m.config env
      match env.newRequest cfg.requestMethod m.target with
      | some e => .ok (failed 0 ("invalid request: " ++ e))
      | none =>
          match env.exchange cfg.requestMethod m.target (checkTimeout cfg.timeout) with
          | (latencyMs, .error e) => .ok (failed latencyMs e)
          | (latencyMs, .ok resp) => .ok (received cfg.expected latencyMs resp)

/-- A check receives a response: its target is let through, a request can be made of it, and the
exchange brings the response. -/
structure HTTPChecker.Receives (env : HttpEnv) (allowedPorts : Option (Int → Bool)) (m : Monitor)
    (latencyMs : Int) (resp : Response) : Prop where
  target : ∃ u, validateTargetURL env.urlParse m.target
    (some (SafeTransportConfig.mk allowedPorts).ports) = .ok u
  request : env.newRequest (m.config env).requestMethod m.target = none
  exchange : env.exchange (m.config env).requestMethod m.target
    (checkTimeout (m.config env).timeout) = (latencyMs, .ok resp)

/-- A response that is received is reported with the start of its body. -/
theorem HTTPChecker.check_receives {env : HttpEnv} {allowedPorts : Option (Int → Bool)}
    {m : Monitor} {latencyMs : Int} {resp : Response}
    (h : HTTPChecker.Receives env allowedPorts m latencyMs resp) :
    HTTPChecker.check env allowedPorts m =
      .ok (received (m.config env).expected latencyMs resp) := by
  obtain ⟨u, hu⟩ := h.target
  rw [HTTPChecker.check, hu]
  simp only [h.request, h.exchange]

end Sentinel.Checker
