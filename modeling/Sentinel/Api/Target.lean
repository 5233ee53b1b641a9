import Sentinel.Api.Values

/-!
# Api — Target

`IsValidTargetConstraint.validate` of `src/monitors/validators/is-valid-target.validator.ts`: which
targets the API takes for a monitor, by the host of the parsed URL.
-/

namespace Sentinel.Api

/-- `s.replace(/^\[|\]$/g, '')`. -/
def stripBrackets (s : List Char) : List Char :=
  let s := if s.head? = some '[' then s.tail else s
  if s.getLast? = some ']' then s.dropLast else s

def blockedExact : List String :=
  ["localhost", "127.0.0.1", "0.0.0.0", "::1", "::", "db", "postgres", "redis", "api", "worker",
    "frontend", "sentinel_db"]

def blockedPrefixes : List String := ["127.", "10.", "192.168.", "169.254.", "0."]

/-- The number of `/^172\.(\d{1,3})\./`, if it matches. -/
def match172 (hostname : List Char) : Option Nat :=
  if "172.".toList.isPrefixOf hostname then
    let octet := (hostname.drop 4).takeWhile Char.isDigit
    if 1 ≤ octet.length ∧ octet.length ≤ 3 ∧ (hostname.drop 4)[octet.length]? = some '.' then
      some (Nat.ofDigitChars 10 octet 0)
    else none
  else none

/-- `IsValidTargetConstraint.validate`. The protocol and the host of a parsed URL are ASCII. -/
def validateTarget (rt : Runtime) (value : Option Json) : Bool :=
  match value with
  | some (.str value) =>
      if isBlank value then false
      else
        match rt.parseURL value with
        | none => false
        | some parsed =>
            let protocol := parsed.protocol.toList.map Char.toLower
            if protocol ≠ "http:".toList ∧ protocol ≠ "https:".toList then false
            else
              let hostname := stripBrackets (parsed.hostname.toList.map Char.toLower)
              if hostname = [] then false
              else if String.ofList hostname ∈ blockedExact then false
              else if blockedPrefixes.any fun p => p.toList.isPrefixOf hostname then false
              else
                match match172 hostname with
                | some secondOctet => !(16 ≤ secondOctet && secondOctet ≤ 31)
                | none => true
  | _ => false

end Sentinel.Api
