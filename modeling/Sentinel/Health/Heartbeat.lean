import Mathlib.Tactic.Common
import Sentinel.Checker.Ssrf

/-!
# Health — Heartbeat

The heartbeat file of `internal/health/health.go`: what writes it and what reads it.

Instants are nanoseconds since the epoch, and a `time.Int` is a number of nanoseconds. How an
instant is written as a text, and which texts are read as one, is `time`'s own (`Rfc3339`).
-/

namespace Sentinel.Health

def maxDuration : Int := 9223372036854775807

def minDuration : Int := -9223372036854775808

/-- `t.Sub(u)`, which saturates. -/
def sub (t u : Int) : Int := max minDuration (min maxDuration (t - u))

theorem sub_le {t u : Int} {d : Int} (hd : 0 ≤ d) (h : t - u ≤ d) : sub t u ≤ d := by
  unfold sub minDuration maxDuration
  omega

theorem sub_nonneg_iff {t u : Int} : 0 ≤ sub t u ↔ u ≤ t := by
  unfold sub minDuration maxDuration
  omega

/-- `age.Round(time.Millisecond)`, for an age that is not negative. -/
def roundMillisecond (age : Int) : Int :=
  if 2 * (age % 1000000) < 1000000 then age - age % 1000000
  else min maxDuration (age + 1000000 - age % 1000000)

/-- How `time` writes an instant in UTC with the layout `RFC3339Nano`, and what it reads with it. -/
structure Rfc3339 where
  format : Int → String
  parse : String → Except String Int

/-- `strings.TrimSpace`. -/
def trimSpace (s : String) : String := String.ofList (Checker.trimSpace s.toList)

/-- What is written of an instant is read as the same instant. -/
def Rfc3339.ReadsBack (text : Rfc3339) (t : Int) : Prop :=
  text.parse (trimSpace (text.format t)) = .ok t

/-! ### Writing -/

/-- The step at which a write fails, with what the operating system says. -/
inductive WriteError where
  | directory (err : String)
  | tempFile (err : String)
  | permissions (err : String)
  | write (err : String)
  | sync (err : String)
  | close (err : String)
  | publish (err : String)
deriving DecidableEq, Repr

def WriteError.message : WriteError → String
  | directory err => "create heartbeat directory: " ++ err
  | tempFile err => "create heartbeat temp file: " ++ err
  | permissions err => "set heartbeat permissions: " ++ err
  | write err => "write heartbeat: " ++ err
  | sync err => "sync heartbeat: " ++ err
  | close err => "close heartbeat: " ++ err
  | publish err => "publish heartbeat: " ++ err

/-- What reading the file gives. -/
abbrev Content := Except String String

/-- `writeHeartbeat`: the value is written to another file, which takes the place of the heartbeat
file in one step at the end. -/
def writeHeartbeat (failure : Option WriteError) (file : Content) (value : String) :
    Content × Except WriteError Unit :=
  match failure with
  | some err => (file, .error err)
  | none => (.ok value, .ok ())

/-- `WriteHeartbeat`. -/
def publishHeartbeat (text : Rfc3339) (failure : Option WriteError) (file : Content)
    (now : Int) : Content × Except WriteError Unit :=
  writeHeartbeat failure file (text.format now)

/-- `ResetHeartbeat`. -/
def resetHeartbeat (failure : Option WriteError) (file : Content) :
    Content × Except WriteError Unit :=
  writeHeartbeat failure file ""

/-! ### Reading -/

inductive HeartbeatError where
  | read (err : String)
  | malformed (err : String)
  | future
  | stale (age maxAge : Int)
deriving DecidableEq, Repr

/-- The message of an error, given how durations are written. -/
def HeartbeatError.message (duration : Int → String) : HeartbeatError → String
  | read err => "read worker heartbeat: " ++ err
  | malformed err => "worker heartbeat is missing or malformed: " ++ err
  | future => "worker heartbeat is in the future"
  | stale age maxAge =>
      "worker heartbeat is stale: age " ++ duration (roundMillisecond age) ++ " exceeds " ++
        duration maxAge

/-- `CheckHeartbeat`. -/
def checkHeartbeat (text : Rfc3339) (file : Content) (now : Int) (maxAge : Int) :
    Except HeartbeatError Unit :=
  match file with
  | .error err => .error (.read err)
  | .ok data =>
      match text.parse (trimSpace data) with
      | .error err => .error (.malformed err)
      | .ok stamp =>
          if sub now stamp < 0 then .error .future
          else if maxAge < sub now stamp then .error (.stale (sub now stamp) maxAge)
          else .ok ()

/-- The check passes on an instant that is not too old. -/
theorem checkHeartbeat_ok {text : Rfc3339} {file : Content} {now : Int} {maxAge : Int} :
    checkHeartbeat text file now maxAge = .ok () ↔
      ∃ data stamp, file = .ok data ∧ text.parse (trimSpace data) = .ok stamp ∧ stamp ≤ now ∧
        sub now stamp ≤ maxAge := by
  cases file with
  | error err => simp [checkHeartbeat]
  | ok data =>
      cases hparse : text.parse (trimSpace data) with
      | error err => simp [checkHeartbeat, hparse]
      | ok stamp =>
          simp only [checkHeartbeat, hparse, Except.ok.injEq, exists_and_left, exists_eq_left',
            ← sub_nonneg_iff (t := now)]
          split
          · rename_i hfuture
            simp [Int.not_le.mpr hfuture]
          · rename_i hpast
            split
            · rename_i hstale
              simp [Int.not_le.mpr hstale]
            · rename_i hfresh
              simp [Int.not_lt.mp hpast, Int.not_lt.mp hfresh]

/-- An empty file is no heartbeat. -/
theorem checkHeartbeat_reset {text : Rfc3339} {err : String} (hempty : text.parse "" = .error err)
    (now : Int) (maxAge : Int) :
    checkHeartbeat text (.ok "") now maxAge = .error (.malformed err) := by
  have htrim : trimSpace "" = "" := by decide
  rw [checkHeartbeat, htrim, hempty]

end Sentinel.Health
