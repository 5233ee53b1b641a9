import Mathlib.Data.List.Forall2
import Sentinel.Api.Values
import Sentinel.Checker.Ssrf
import Sentinel.Worker.DemoReset

/-!
# Worker — Manifest

`json.Unmarshal` of a parsed document into `[]demoMonitor` (`internal/worker/demo_reset.go`), which
`parseDemoManifest` starts with.

The document keeps the literals of its numbers (`Scanned`), since an `int` is read from the literal:
`60.0` and `6e1` are none. `Scanned.value` is the document as `JSON.parse` gives it.

A key is the field with that name, or else the field with that name up to case. The entries of an
object are taken in order, each over the ones before it; a `null` leaves a field as it is. A value
of another type is an error, also where a later entry has the right one.
-/

namespace Sentinel.Worker

open Api

/-- A parsed document, with the literals of its numbers. -/
inductive Scanned where
  | null
  | bool (b : Bool)
  | num (literal : String)
  | str (s : String)
  | arr (items : List Scanned)
  | obj (fields : List (String × Scanned))

namespace Scanned

section Value

-- what `JSON.parse` makes of a literal
variable (number : String → Rat)

mutual

/-- The document as `JSON.parse` gives it. -/
def value : Scanned → Json
  | .null => .null
  | .bool b => .bool b
  | .num literal => .num (number literal)
  | .str s => .str s
  | .arr items => .arr (values items)
  | .obj fields => .obj (fieldValues fields)

def values : List Scanned → List Json
  | [] => []
  | item :: items => value item :: values items

def fieldValues : List (String × Scanned) → List (String × Json)
  | [] => []
  | (key, item) :: fields => (key, value item) :: fieldValues fields

end

theorem values_eq_map : ∀ items : List Scanned, values number items = items.map (value number)
  | [] => rfl
  | item :: items => by rw [values, values_eq_map items, List.map_cons]

theorem fieldValues_eq_map : ∀ fields : List (String × Scanned),
    fieldValues number fields = fields.map fun f => (f.1, value number f.2)
  | [] => rfl
  | (key, item) :: fields => by rw [fieldValues, fieldValues_eq_map fields, List.map_cons]

end Value

/-- What `encoding/json` makes of a value, for a field that takes it. -/
def decoded : Scanned → Json
  | .num literal => .num ((Checker.atoi literal.toList).getD 0)
  | .str s => .str s
  | _ => .null

def isNull : Scanned → Bool
  | .null => true
  | _ => false

/-- The name of a kind of values in an error. -/
def kind : Scanned → String
  | .null => "null"
  | .bool _ => "bool"
  | .num _ => "number"
  | .str _ => "string"
  | .arr _ => "array"
  | .obj _ => "object"

end Scanned

/-- The fields of `demoMonitor`. -/
inductive ManifestField where
  | seedKey
  | name
  | target
  | frequency
  | checkType
  | checkConfig
deriving DecidableEq, Repr

namespace ManifestField

/-- The name in the struct tag. -/
def tag : ManifestField → String
  | seedKey => "seed_key"
  | name => "name"
  | target => "target"
  | frequency => "frequency"
  | checkType => "check_type"
  | checkConfig => "check_config"

def all : List ManifestField := [seedKey, name, target, frequency, checkType, checkConfig]

/-- What a rune of a key is compared as. Besides the letters of ASCII, the long s and the Kelvin
sign fold to letters. -/
def foldRune (c : Char) : Char :=
  if c = '\u017f' then 'S' else if c = '\u212a' then 'K' else c.toUpper

def foldName (key : String) : List Char := key.toList.map foldRune

/-- The field of a key. -/
def ofKey (key : String) : Option ManifestField :=
  (all.find? fun f => f.tag = key).or (all.find? fun f => foldName f.tag = foldName key)

theorem mem_all (f : ManifestField) : f ∈ all := by
  cases f <;> decide

theorem foldName_injective {f g : ManifestField} (h : foldName f.tag = foldName g.tag) : f = g := by
  revert h
  cases f <;> cases g <;> decide

/-- The keys of a field are the spellings of its name up to case. -/
theorem ofKey_eq_some {key : String} {f : ManifestField} :
    ofKey key = some f ↔ foldName key = foldName f.tag := by
  unfold ofKey
  cases hexact : all.find? fun f => f.tag = key with
  | some g =>
      have hg : g.tag = key := by simpa using List.find?_some hexact
      subst hg
      constructor
      · intro h
        cases h
        rfl
      · intro h
        rw [foldName_injective h]
        rfl
  | none =>
      rw [Option.none_or]
      constructor
      · intro h
        have hfold := List.find?_some h
        exact (of_decide_eq_true hfold).symm
      · intro h
        cases hfold : all.find? fun g => foldName g.tag = foldName key with
        | none =>
            have hnot := List.find?_eq_none.mp hfold f f.mem_all
            exact absurd (decide_eq_true h.symm) hnot
        | some g =>
            have hg : foldName g.tag = foldName key := by simpa using List.find?_some hfold
            rw [foldName_injective (hg.trans h)]

end ManifestField

/-- The error of a value that does not go into a field. -/
def fieldError (f : ManifestField) (type : String) (kind : String) : String :=
  "json: cannot unmarshal " ++ kind ++ " into Go struct field demoMonitor." ++ f.tag ++
    " of type " ++ type

def decodeString (f : ManifestField) (old : String) : Scanned → Except String String
  | .null => .ok old
  | .str s => .ok s
  | value => .error (fieldError f "string" value.kind)

/-- The literal of a number is read with `strconv.ParseInt`. -/
def decodeInt (f : ManifestField) (old : Int) : Scanned → Except String Int
  | .null => .ok old
  | .num literal =>
      match Checker.atoi literal.toList with
      | some n => .ok n
      | none => .error (fieldError f "int" ("number " ++ literal))
  | value => .error (fieldError f "int" value.kind)

section Decode

-- the text of a value, which a `json.RawMessage` keeps
variable (raw : Scanned → String)

/-- Takes a value for a field. -/
def DemoMonitor.set (m : DemoMonitor) (f : ManifestField) (value : Scanned) :
    Except String DemoMonitor :=
  match f with
  | .seedKey => (decodeString f m.seedKey value).map fun s => { m with seedKey := s }
  | .name => (decodeString f m.name value).map fun s => { m with name := s }
  | .target => (decodeString f m.target value).map fun s => { m with target := s }
  | .frequency => (decodeInt f m.frequency value).map fun n => { m with frequency := n }
  | .checkType => (decodeString f m.checkType value).map fun s => { m with checkType := s }
  | .checkConfig => .ok { m with checkConfig := some (raw value) }

/-- The zero value. -/
def DemoMonitor.zero : DemoMonitor := ⟨"", "", "", 0, "", none⟩

/-- Takes the entries of an object. -/
def decodeFields (m : DemoMonitor) : List (String × Scanned) → Except String DemoMonitor
  | [] => .ok m
  | (key, value) :: fields =>
      match ManifestField.ofKey key with
      | none => decodeFields m fields
      | some f =>
          match m.set raw f value with
          | .error e => .error e
          | .ok m => decodeFields m fields

def decodeMonitor : Scanned → Except String DemoMonitor
  | .null => .ok .zero
  | .obj fields => decodeFields raw .zero fields
  | value => .error ("json: cannot unmarshal " ++ value.kind ++
      " into Go value of type worker.demoMonitor")

def decodeMonitors : List Scanned → Except String (List DemoMonitor)
  | [] => .ok []
  | value :: values =>
      match decodeMonitor raw value with
      | .error e => .error e
      | .ok m => (decodeMonitors values).map (m :: ·)

/-- `json.Unmarshal`, of a document by what it is parsed to. -/
def unmarshalMonitors (parsed : Except String Scanned) : Except String (List DemoMonitor) :=
  match parsed with
  | .error e => .error e
  | .ok .null => .ok []
  | .ok (.arr values) => decodeMonitors raw values
  | .ok value => .error ("json: cannot unmarshal " ++ value.kind ++
      " into Go value of type []worker.demoMonitor")

end Decode

/-! ### What is decoded -/

/-- A value that goes into a field: a frequency is a plain decimal integer of 64 bits. -/
def ManifestField.accepts (f : ManifestField) (value : Scanned) : Bool :=
  match f, value with
  | _, .null | .checkConfig, _ => true
  | .frequency, .num literal => (Checker.atoi literal.toList).isSome
  | .frequency, _ => false
  | _, .str _ => true
  | _, _ => false

/-- A field as a value, but for the configuration. -/
def DemoMonitor.get (m : DemoMonitor) : ManifestField → Json
  | .seedKey => .str m.seedKey
  | .name => .str m.name
  | .target => .str m.target
  | .frequency => .num m.frequency
  | .checkType => .str m.checkType
  | .checkConfig => .null

/-- The values an object has for a field, whose name is spelled in any case. -/
def given (f : ManifestField) (fields : List (String × Scanned)) : List Scanned :=
  (fields.filter fun e => ManifestField.foldName e.1 = ManifestField.foldName f.tag).map Prod.snd

/-- The last of them that is not `null`. -/
def lastGiven (f : ManifestField) (fields : List (String × Scanned)) : Option Scanned :=
  ((given f fields).filter (!·.isNull)).getLast?

theorem given_cons_of_key {f : ManifestField} {key : String} (h : ManifestField.ofKey key = some f)
    (value : Scanned) (fields : List (String × Scanned)) :
    given f ((key, value) :: fields) = value :: given f fields := by
  have hspelled := ManifestField.ofKey_eq_some.mp h
  simp [given, hspelled]

theorem given_cons_of_ne {f : ManifestField} {key : String} (h : ManifestField.ofKey key ≠ some f)
    (value : Scanned) (fields : List (String × Scanned)) :
    given f ((key, value) :: fields) = given f fields := by
  have hspelled : ¬ ManifestField.foldName key = ManifestField.foldName f.tag :=
    fun hkey => h (ManifestField.ofKey_eq_some.mpr hkey)
  simp [given, hspelled]

section Decode

variable {raw : Scanned → String} {m m' : DemoMonitor} {f : ManifestField}

theorem exists_map_ok {ε α β : Type} {g : α → β} {x : Except ε α} :
    (∃ b, x.map g = .ok b) ↔ ∃ a, x = .ok a := by
  cases x <;> simp [Except.map]

/-- A value is taken if its type is right. -/
theorem DemoMonitor.set_ok {value : Scanned} :
    (∃ m', m.set raw f value = .ok m') ↔ f.accepts value = true := by
  cases f with
  | seedKey | name | target | checkType =>
      rw [DemoMonitor.set, exists_map_ok]
      cases value <;> simp [decodeString, ManifestField.accepts]
  | frequency =>
      rw [DemoMonitor.set, exists_map_ok]
      cases value with
      | num literal =>
          simp only [decodeInt, ManifestField.accepts]
          cases Checker.atoi literal.toList with
          | none => simp
          | some n => simp
      | null | bool b | str s | arr items | obj fields =>
          simp [decodeInt, ManifestField.accepts]
  | checkConfig =>
      refine ⟨fun _ => ?_, fun _ => ⟨_, rfl⟩⟩
      cases value <;> rfl

theorem decodeString_get {old s : String} {value : Scanned}
    (h : decodeString f old value = .ok s) :
    Json.str s = if value.isNull then .str old else value.decoded := by
  cases value <;> cases h <;> rfl

theorem decodeInt_get {old n : Int} {value : Scanned} (h : decodeInt f old value = .ok n) :
    Json.num n = if value.isNull then .num old else value.decoded := by
  cases value with
  | null =>
      cases h
      rfl
  | num literal =>
      simp only [decodeInt] at h
      split at h
      · rename_i hliteral
        cases h
        simp [Scanned.isNull, Scanned.decoded, hliteral]
      · cases h
  | bool b | str s | arr items | obj fields => cases h

/-- It is then the value of its field, unless it is `null`; the other fields are as they were. -/
theorem DemoMonitor.set_get {value : Scanned} (h : m.set raw f value = .ok m') {g : ManifestField}
    (hg : g ≠ .checkConfig) :
    m'.get g = if f = g then (if value.isNull then m.get g else value.decoded) else m.get g := by
  cases f with
  | seedKey | name | target | checkType =>
      obtain ⟨s, hs, rfl⟩ := map_eq_ok h
      have hget := decodeString_get hs
      cases g <;> first | exact hget | rfl
  | frequency =>
      obtain ⟨n, hn, rfl⟩ := map_eq_ok h
      have hget := decodeInt_get hn
      cases g <;> first | exact hget | rfl
  | checkConfig =>
      cases h
      rw [if_neg hg.symm]
      cases g <;> rfl

/-- An object is decoded if its values for each field are taken. -/
theorem decodeFields_ok : ∀ {fields : List (String × Scanned)} {m : DemoMonitor},
    (∃ m', decodeFields raw m fields = .ok m') ↔
      ∀ f, ∀ value ∈ given f fields, f.accepts value = true
  | [], m => ⟨fun _ f value h => (nomatch h), fun _ => ⟨m, rfl⟩⟩
  | (key, value) :: fields, m => by
      rw [decodeFields]
      cases hkey : ManifestField.ofKey key with
      | none =>
          simp only
          rw [decodeFields_ok]
          refine forall_congr' fun f => ?_
          rw [given_cons_of_ne (by rw [hkey]; exact (nomatch ·))]
      | some f =>
          simp only
          cases hset : m.set raw f value with
          | error e =>
              refine ⟨fun h => (nomatch h.choose_spec), fun h => ?_⟩
              have hvalue := h f value (by rw [given_cons_of_key hkey]; exact List.mem_cons_self)
              obtain ⟨m', hm'⟩ := DemoMonitor.set_ok.mpr hvalue
              cases hset.symm.trans hm'
          | ok m₁ =>
              simp only
              rw [decodeFields_ok]
              refine forall_congr' fun g => ?_
              by_cases hfg : f = g
              · subst hfg
                rw [given_cons_of_key hkey, List.forall_mem_cons]
                exact ⟨fun h => ⟨DemoMonitor.set_ok.mp ⟨m₁, hset⟩, h⟩, And.right⟩
              · rw [given_cons_of_ne (by rw [hkey]; exact fun h => hfg (Option.some.inj h))]

/-- A field is then the last value given for it. -/
theorem decodeFields_get {g : ManifestField} (hg : g ≠ .checkConfig) :
    ∀ {fields : List (String × Scanned)} {m m' : DemoMonitor},
      decodeFields raw m fields = .ok m' →
        m'.get g = ((lastGiven g fields).map Scanned.decoded).getD (m.get g)
  | [], m, m', h => by
      cases h
      rfl
  | (key, value) :: fields, m, m', h => by
      rw [decodeFields] at h
      cases hkey : ManifestField.ofKey key with
      | none =>
          rw [hkey] at h
          rw [decodeFields_get hg h, lastGiven, lastGiven,
            given_cons_of_ne (by rw [hkey]; exact (nomatch ·))]
      | some f =>
          rw [hkey] at h
          simp only at h
          split at h
          · cases h
          · rename_i m₁ hset
            rw [decodeFields_get hg h, DemoMonitor.set_get hset hg]
            by_cases hfg : f = g
            · subst hfg
              rw [lastGiven, lastGiven, given_cons_of_key hkey]
              cases hnull : value.isNull with
              | true => simp [hnull]
              | false =>
                  cases hlast : ((given f fields).filter (!·.isNull)).getLast? with
                  | none => simp [hnull, List.getLast?_cons, hlast]
                  | some last => simp [hnull, List.getLast?_cons, hlast]
            · rw [if_neg hfg, lastGiven, lastGiven,
                given_cons_of_ne (by rw [hkey]; exact fun h => hfg (Option.some.inj h))]

/-- The entries of an array are decoded one by one. -/
theorem decodeMonitors_ok : ∀ {values : List Scanned} {ms : List DemoMonitor},
    decodeMonitors raw values = .ok ms ↔
      List.Forall₂ (fun value m => decodeMonitor raw value = .ok m) values ms
  | [], ms => by
      rw [List.forall₂_nil_left_iff]
      exact ⟨fun h => (Except.ok.inj h).symm, fun h => h ▸ rfl⟩
  | value :: values, ms => by
      rw [decodeMonitors, List.forall₂_cons_left_iff]
      constructor
      · intro h
        split at h
        · cases h
        · obtain ⟨rest, hrest, rfl⟩ := map_eq_ok h
          exact ⟨_, rest, ‹_›, decodeMonitors_ok.mp hrest, rfl⟩
      · rintro ⟨m, rest, hm, hrest, rfl⟩
        rw [hm, decodeMonitors_ok.mpr hrest]
        rfl

end Decode

/-! ### What is accepted -/

/-- The entries are valid if each is complete and no two have one key. -/
theorem validDemoMonitors_iff : ∀ {monitors : List DemoMonitor} {keys : List String},
    validDemoMonitors keys monitors = true ↔
      (∀ m ∈ monitors, m.valid keys = true) ∧ (monitors.map (·.seedKey)).Nodup
  | [], keys => by simp [validDemoMonitors]
  | m :: monitors, keys => by
      rw [validDemoMonitors, Bool.and_eq_true, validDemoMonitors_iff, List.forall_mem_cons,
        List.map_cons, List.nodup_cons]
      have hvalid : ∀ n : DemoMonitor, n.valid (m.seedKey :: keys) = true ↔
          n.valid keys = true ∧ n.seedKey ≠ m.seedKey := by
        intro n
        simp only [DemoMonitor.valid, Bool.and_eq_true, decide_eq_true_eq, List.mem_cons, not_or]
        tauto
      constructor
      · rintro ⟨hm, hall, hnodup⟩
        refine ⟨⟨hm, fun n hn => ((hvalid n).mp (hall n hn)).1⟩, fun hmem => ?_, hnodup⟩
        obtain ⟨n, hn, heq⟩ := List.mem_map.mp hmem
        exact ((hvalid n).mp (hall n hn)).2 heq
      · rintro ⟨⟨hm, hall⟩, hnot, hnodup⟩
        refine ⟨hm, fun n hn => (hvalid n).mpr ⟨hall n hn, fun heq => ?_⟩, hnodup⟩
        exact hnot (heq ▸ List.mem_map_of_mem hn)

theorem parseDemoManifest_ok {unmarshal : String → Except String (List DemoMonitor)}
    {data : String} {ms : List DemoMonitor} : parseDemoManifest unmarshal data = .ok ms ↔
      unmarshal data = .ok ms ∧ ms ≠ [] ∧ validDemoMonitors [] ms = true := by
  unfold parseDemoManifest
  cases unmarshal data with
  | error err => exact ⟨(nomatch ·), fun h => (nomatch h.1)⟩
  | ok monitors =>
      simp only [Except.ok.injEq]
      by_cases hnil : monitors = []
      · rw [if_pos hnil]
        exact ⟨(nomatch ·), fun h => absurd (h.1 ▸ hnil) h.2.1⟩
      · rw [if_neg hnil]
        by_cases hvalid : validDemoMonitors [] monitors = true
        · rw [if_pos hvalid, Except.ok.injEq]
          refine ⟨?_, And.left⟩
          rintro rfl
          exact ⟨rfl, hnil, hvalid⟩
        · rw [if_neg hvalid]
          exact ⟨(nomatch ·), fun h => absurd (h.1 ▸ h.2.2) hvalid⟩

end Sentinel.Worker
