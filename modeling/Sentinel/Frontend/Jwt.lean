import Sentinel.Library.Base64
import Sentinel.Library.JsText

/-!
# Frontend — Jwt

How the browser reads the payload of a token (`src/app/auth/jwt.ts`). The payload segment is
base64url of the UTF-8 encoding of a JSON text; `atob` gives its bytes as a string, which is
escaped unit by unit and decoded with `decodeURIComponent`.

The calls that may throw are in `Except`, with the two `try` blocks of the source as `tryCatch`.
`JSON.parse` is a parameter, and its numbers are of a type that nothing depends on.

`decodeJwtPayload_exact`: every payload the server can encode is decoded, and on every string
the answer is null or an object whose `exp` is a number.
-/

namespace Sentinel.Frontend

open JsText

/-- What the calls of `decodeJwtPayload` throw. -/
inductive JsError where
  | invalidCharacter
  | uriError
  | syntaxError
  | typeError
deriving DecidableEq, Repr

/-! ### Values -/

/-- A value as `JSON.parse` builds it. An object has its members by name. -/
inductive Json (ν : Type) where
  | null
  | boolean (b : Bool)
  | number (x : ν)
  | string (s : Str)
  | array (items : List (Json ν))
  | object (members : List (Str × Json ν))

namespace Json

variable {ν : Type}

def typeof : Json ν → String
  | boolean _ => "boolean"
  | number _ => "number"
  | string _ => "string"
  | null | array _ | object _ => "object"

def isNull : Json ν → Bool
  | null => true
  | _ => false

/-- A property, or `none` where it is undefined. -/
def get (key : Str) : Json ν → Except JsError (Option (Json ν))
  | null => .error .typeError
  | object members => .ok (members.lookup key)
  | _ => .ok none

/-- An object whose `exp` is a number. -/
def IsPayload (v : Json ν) : Prop :=
  ∃ members x, v = object members ∧ members.lookup (lit "exp") = some (number x)

end Json

/-! ### `jwt.ts` -/

/-- `replace` of a code unit, everywhere. -/
def replaceAll (u v : UInt16) (s : Str) : Str := s.map fun w => if w = u then v else w

/-- `atob`: the bytes of a base64 text, each as a code unit. -/
def atob (s : Str) : Except JsError Str :=
  match Base64.forgivingDecode (s.map UInt16.toNat) with
  | some bs => .ok (bs.map fun b => UInt16.ofNat b.toNat)
  | none => .error .invalidCharacter

def decodeURIComponent (s : Str) : Except JsError Str :=
  match JsText.decodeURIComponent s with
  | some json => .ok json
  | none => .error .uriError

def normalized (segment : Str) : Str :=
  replaceAll (unit '_') (unit '/') (replaceAll (unit '-') (unit '+') segment)

def padded (s : Str) : Str := s ++ List.replicate ((4 - s.length % 4) % 4) (unit '=')

def base64UrlDecode (segment : Str) : Except JsError (Option Str) :=
  tryCatch (some <$> atob (padded (normalized segment))) fun _ => pure none

section

variable {ν : Type} (parse : Str → Except JsError (Json ν))

/-- The condition on what was parsed. -/
def hasNumericExp (parsed : Json ν) : Except JsError Bool :=
  if parsed.isNull = false ∧ parsed.typeof = "object" then do
    let exp ← parsed.get (lit "exp")
    return exp.any (·.typeof = "number")
  else return false

/-- The second `try` block. -/
def parsePayload (binary : Str) : Except JsError (Option (Json ν)) :=
  tryCatch
    (do
      let json ← decodeURIComponent (binary.flatMap escape)
      let parsed ← parse json
      if ← hasNumericExp parsed then return some parsed else return none)
    fun _ => pure none

def decodeJwtPayload (token : Str) : Except JsError (Option (Json ν)) :=
  match token.splitOn (unit '.') with
  | _ :: segment :: _ =>
      if segment = [] then pure none
      else do
        match ← base64UrlDecode segment with
        | none => pure none
        | some binary => parsePayload parse binary
  | _ => pure none

end

/-! ### The server's encoding -/

/-- The code units of a text of ASCII codes. -/
def units (codes : List Nat) : Str := codes.map UInt16.ofNat

def b64url (bs : List UInt8) : Str := units (Base64.encodeUrl bs)

/-- With its padding. -/
def b64urlPadded (bs : List UInt8) : Str := units (Base64.pad (Base64.encodeUrl bs))

section Encoding

open Base64

theorem normalized_append (s t : Str) : normalized (s ++ t) = normalized s ++ normalized t := by
  simp only [normalized, replaceAll, List.map_append]

/-- Normalising brings the alphabet for URLs to the standard one. -/
theorem normalized_digit {s : Nat} (h : s < 64) :
    normalized [UInt16.ofNat (urlSafe s)] = [UInt16.ofNat (standard s)] := by
  unfold urlSafe standard digit
  interval_cases s <;> rfl

theorem normalized_digits {ss : List Nat} (h : ∀ s ∈ ss, s < 64) :
    normalized (units (ss.map urlSafe)) = units (ss.map standard) := by
  induction ss with
  | nil => rfl
  | cons s ss ih =>
      obtain ⟨hs, hss⟩ := List.forall_mem_cons.mp h
      have hcons (f : Nat → Nat) :
          units ((s :: ss).map f) = [UInt16.ofNat (f s)] ++ units (ss.map f) := rfl
      rw [hcons, hcons, normalized_append, normalized_digit hs, ih hss]

theorem normalized_pad (k : Nat) :
    normalized (units (List.replicate k 61)) = units (List.replicate k 61) := by
  simp only [normalized, replaceAll, units, List.map_replicate]
  rfl

theorem padded_units (codes : List Nat) : padded (units codes) = units (pad codes) := by
  simp only [padded, units, pad, List.length_map, List.map_append, List.map_replicate]
  rfl

/-- With or without its padding, a segment is brought to one text. -/
theorem padded_normalized {bs : List UInt8} {segment : Str}
    (h : segment ∈ [b64url bs, b64urlPadded bs]) :
    padded (normalized segment) = units (pad ((sextets bs).map standard)) := by
  have hdigits : normalized (b64url bs) = units ((sextets bs).map standard) :=
    normalized_digits sextets_lt
  simp only [List.mem_cons, List.not_mem_nil, or_false] at h
  rcases h with rfl | rfl
  · rw [hdigits, padded_units]
  · have hpadded : normalized (b64urlPadded bs) = units (pad ((sextets bs).map standard)) := by
      have hlen : (encodeUrl bs).length = ((sextets bs).map standard).length := by
        simp only [encodeUrl, List.length_map]
      have hsplit (codes : List Nat) : units (pad codes) =
          units codes ++ units (List.replicate ((4 - codes.length % 4) % 4) 61) := List.map_append
      rw [b64urlPadded, hsplit, hsplit, normalized_append, normalized_pad, ← b64url, hdigits, hlen]
    rw [hpadded, padded_units, pad_pad]

theorem map_toNat_units {codes : List Nat} (h : ∀ c ∈ codes, c < 65536) :
    (units codes).map UInt16.toNat = codes := by
  rw [units, List.map_map]
  refine (List.map_congr_left fun c hc => ?_).trans (List.map_id codes)
  exact UInt16.toNat_ofNat_of_lt' (h c hc)

/-- The bytes come back, each as a code unit. -/
theorem base64UrlDecode_b64url {bs : List UInt8} {segment : Str}
    (h : segment ∈ [b64url bs, b64urlPadded bs]) :
    base64UrlDecode segment = .ok (some (bs.map fun b => UInt16.ofNat b.toNat)) := by
  have hcodes : ∀ c ∈ pad ((sextets bs).map standard), c < 65536 := fun c hc =>
    (pad_lt sextets_lt c hc).trans (by decide)
  have hatob : atob (padded (normalized segment)) = .ok (bs.map fun b => UInt16.ofNat b.toNat) := by
    rw [padded_normalized h, atob, map_toNat_units hcodes, forgivingDecode_pad]
  rw [base64UrlDecode, hatob]
  rfl

end Encoding

/-! ### Payloads -/

section Payloads

variable {ν : Type} {parse : Str → Except JsError (Json ν)}

theorem hasNumericExp_iff (v : Json ν) : hasNumericExp v = .ok true ↔ v.IsPayload := by
  cases v with
  | object members =>
      have hexp : hasNumericExp (Json.object members) =
          .ok ((members.lookup (lit "exp")).any (·.typeof = "number")) := rfl
      rw [hexp, Json.IsPayload]
      cases hlookup : members.lookup (lit "exp") with
      | none => simp [hlookup]
      | some exp => cases exp <;> simp [Json.typeof, hlookup]
  | null | boolean _ | number _ | string _ | array _ =>
      refine iff_of_false (fun h => ?_) (by simp [Json.IsPayload])
      cases Except.ok.inj h

/-- What the second `try` block returns: nothing is thrown out of it. -/
theorem parsePayload_ok (parse : Str → Except JsError (Json ν)) (binary : Str) :
    ∃ payload, parsePayload parse binary = .ok payload ∧ ∀ v ∈ payload, v.IsPayload := by
  unfold parsePayload
  cases decodeURIComponent (binary.flatMap escape) with
  | error e => exact ⟨none, rfl, by simp⟩
  | ok json =>
      simp only [bind, Except.bind]
      cases parse json with
      | error e => exact ⟨none, rfl, by simp⟩
      | ok parsed =>
          simp only
          cases hexp : hasNumericExp parsed with
          | error e => exact ⟨none, rfl, by simp⟩
          | ok b =>
              cases b with
              | false => exact ⟨none, rfl, by simp⟩
              | true =>
                  refine ⟨some parsed, rfl, ?_⟩
                  simpa using (hasNumericExp_iff parsed).mp hexp

theorem parsePayload_escape {s : List Char} {v : Json ν} (hparse : parse (utf16 s) = .ok v)
    (hv : v.IsPayload) :
    parsePayload parse ((utf8 s).map fun b => UInt16.ofNat b.toNat) = .ok (some v) := by
  have hescape : ((utf8 s).map fun b => UInt16.ofNat b.toNat).flatMap escape =
      escapeBytes (utf8 s) := List.flatMap_map ..
  have hjson : decodeURIComponent (escapeBytes (utf8 s)) = .ok (utf16 s) := by
    rw [decodeURIComponent, decodeURIComponent_escapeBytes]
  have hexp := (hasNumericExp_iff v).mpr hv
  rw [parsePayload, hescape, hjson]
  simp only [bind, Except.bind, hparse, hexp]
  rfl

end Payloads

theorem base64UrlDecode_ok (segment : Str) : ∃ binary, base64UrlDecode segment = .ok binary := by
  unfold base64UrlDecode
  cases atob (padded (normalized segment)) with
  | error e => exact ⟨none, rfl⟩
  | ok binary => exact ⟨some binary, rfl⟩

/-- A segment of the server has no dot. -/
theorem dot_not_mem {bs : List UInt8} {segment : Str}
    (h : segment ∈ [b64url bs, b64urlPadded bs]) : unit '.' ∉ segment := by
  have hurl : ∀ s < 64, UInt16.ofNat (Base64.urlSafe s) ≠ unit '.' := by
    intro s hs
    unfold Base64.urlSafe Base64.digit
    interval_cases s <;> decide
  have hpadded : unit '.' ∉ b64urlPadded bs := by
    intro hmem
    obtain ⟨code, hcode, hdot⟩ := List.mem_map.mp hmem
    rcases List.mem_append.mp hcode with hdigit | hpad
    · obtain ⟨s, hs, rfl⟩ := List.mem_map.mp hdigit
      exact hurl s (Base64.sextets_lt s hs) hdot
    · rw [List.eq_of_mem_replicate hpad] at hdot
      revert hdot
      decide
  have hsub : b64url bs ⊆ b64urlPadded bs :=
    List.map_subset _ (List.subset_append_left _ _)
  simp only [List.mem_cons, List.not_mem_nil, or_false] at h
  rcases h with rfl | rfl
  · exact fun hmem => hpadded (hsub hmem)
  · exact hpadded

/-- Only the empty text has an empty segment. -/
theorem segment_ne_nil {s : List Char} (hs : s ≠ []) {segment : Str}
    (h : segment ∈ [b64url (utf8 s), b64urlPadded (utf8 s)]) : segment ≠ [] := by
  obtain ⟨c, s, rfl⟩ := List.exists_cons_of_ne_nil hs
  have hutf8 : utf8 (c :: s) ≠ [] := by
    simp [utf8, String.utf8EncodeChar_ne_nil]
  have hcodes : Base64.encodeUrl (utf8 (c :: s)) ≠ [] := by
    simpa [Base64.encodeUrl, Base64.sextets_eq_nil] using hutf8
  simp only [List.mem_cons, List.not_mem_nil, or_false] at h
  rcases h with rfl | rfl
  · simpa [b64url, units] using hcodes
  · simp [b64urlPadded, units, Base64.pad, hcodes]

/-- **Decoding undoes the server's encoding**: for every JSON text whose value is an object with
a numeric `exp`, the payload of a token with this text, padded or not, is the value. Whatever the
string, nothing is thrown, and the answer is null or such an object. -/
theorem decodeJwtPayload_exact {ν : Type} (parse : Str → Except JsError (Json ν))
    (hempty : ∀ v, parse [] ≠ .ok v) :
    (∀ (s : List Char) (v : Json ν), parse (utf16 s) = .ok v → v.IsPayload →
      ∀ h g : Str, unit '.' ∉ h →
        ∀ segment ∈ [b64url (utf8 s), b64urlPadded (utf8 s)],
          decodeJwtPayload parse (h ++ unit '.' :: (segment ++ unit '.' :: g)) = .ok (some v)) ∧
    ∀ token, ∃ payload, decodeJwtPayload parse token = .ok payload ∧
      ∀ v ∈ payload, v.IsPayload := by
  refine ⟨fun s v hparse hv h g hh segment hsegment => ?_, fun token => ?_⟩
  · have hs : s ≠ [] := by
      rintro rfl
      exact hempty v hparse
    have hne : segment ≠ [] := segment_ne_nil hs hsegment
    rw [decodeJwtPayload, List.splitOn_append_cons_self_of_not_mem hh,
      List.splitOn_append_cons_self_of_not_mem (dot_not_mem hsegment)]
    simp only [if_neg hne, base64UrlDecode_b64url hsegment, bind, Except.bind]
    exact parsePayload_escape hparse hv
  · unfold decodeJwtPayload
    split
    · rename_i segment _ _
      split
      · exact ⟨none, rfl, by simp⟩
      · obtain ⟨binary, hbinary⟩ := base64UrlDecode_ok segment
        simp only [hbinary, bind, Except.bind]
        cases binary with
        | none => exact ⟨none, rfl, by simp⟩
        | some binary => exact parsePayload_ok parse binary
    · exact ⟨none, rfl, by simp⟩

/-- A JSON text with characters of two bytes, and what it is parsed to. -/
def sampleText : List Char := "\x7b\"sub\":\"¿ÿ\",\"exp\":3600\x7d".toList

def samplePayload : Json Nat := .object [(lit "sub", .string (lit "¿ÿ")), (lit "exp", .number 3600)]

def sampleParse (text : Str) : Except JsError (Json Nat) :=
  if text = utf16 sampleText then .ok samplePayload else .error .syntaxError

theorem decodeJwtPayload_exact_sample :
    decodeJwtPayload sampleParse (lit "e30.eyJzdWIiOiLCv8O_IiwiZXhwIjozNjAwfQ.a") =
      .ok (some samplePayload) := by
  have htoken : lit "e30.eyJzdWIiOiLCv8O_IiwiZXhwIjozNjAwfQ.a" =
      lit "e30" ++ unit '.' :: (b64url (utf8 sampleText) ++ unit '.' :: lit "a") := by decide
  have hempty : sampleParse [] = .error .syntaxError := if_neg (by decide)
  rw [htoken]
  exact (decodeJwtPayload_exact sampleParse fun v h => by cases hempty.symm.trans h).1 sampleText
    samplePayload (if_pos rfl) ⟨_, _, rfl, rfl⟩ (lit "e30") (lit "a") (by decide) _
    List.mem_cons_self

end Sentinel.Frontend
