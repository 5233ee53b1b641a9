import Mathlib.Data.List.Nodup
import Sentinel.Api.ProductionEnv
import Sentinel.System.Operations
import Sentinel.Worker.Manifest

/-!
# System — SharedManifest

The demo manifest is read twice: the API validates and seeds it, and the worker restores it in
every reset.

* `SameEntry`: the worker reads of an entry what the API reads.
* `Shared`: a manifest that means the same to both. It has entries, with keys of their own and types
  that are not empty; no entry has a key twice, or in another case, in a way that only one of the
  two sees; and a frequency is written as a plain decimal integer.
* `demoManifest_shared`: of the manifests the API accepts, these are the ones the worker accepts and
  reads as the API does.
-/

namespace Sentinel.System

open Api Worker

/-- What the worker has of an entry is what the API reads of it. -/
structure SameEntry (entry : Json) (m : DemoMonitor) : Prop where
  seedKey : entry.prop "seed_key" = some (.str m.seedKey)
  name : entry.prop "name" = some (.str m.name)
  target : entry.prop "target" = some (.str m.target)
  frequency : entry.prop "frequency" = some (.num m.frequency)
  checkType : entry.prop "check_type" = some (.str m.checkType)

theorem sameEntry_iff {entry : Json} {m : DemoMonitor} :
    SameEntry entry m ↔ ∀ f ≠ ManifestField.checkConfig, entry.prop f.tag = some (m.get f) := by
  constructor
  · intro h f hf
    cases f with
    | seedKey => exact h.seedKey
    | name => exact h.name
    | target => exact h.target
    | frequency => exact h.frequency
    | checkType => exact h.checkType
    | checkConfig => exact absurd rfl hf
  · intro h
    exact ⟨h .seedKey (nomatch ·), h .name (nomatch ·), h .target (nomatch ·),
      h .frequency (nomatch ·), h .checkType (nomatch ·)⟩

def itemsOf : Scanned → List Scanned
  | .arr items => items
  | _ => []

def fieldsOf : Scanned → List (String × Scanned)
  | .obj fields => fields
  | _ => []

section Shared

-- what `JSON.parse` makes of the literal of a number
variable (number : String → Rat)

/-- Of the keys that spell a field in any case, each has a value that goes into the field, and the
last that is not `null` has the value of the key with the exact name. -/
def Unambiguous (entry : Scanned) : Prop :=
  (∀ f, ∀ value ∈ given f (fieldsOf entry), f.accepts value = true) ∧
    ∀ f ≠ ManifestField.checkConfig,
      (lastGiven f (fieldsOf entry)).map Scanned.decoded = (entry.value number).prop f.tag

structure Shared (doc : Scanned) : Prop where
  nonempty : itemsOf doc ≠ []
  seedKeys : ((itemsOf doc).map fun entry => (entry.value number).prop "seed_key").Nodup
  checkType : ∀ entry ∈ itemsOf doc, (entry.value number).prop "check_type" ≠ some (.str "")
  unambiguous : ∀ entry ∈ itemsOf doc, Unambiguous number entry

end Shared

/-! ### One entry -/

/-- What is known of an entry that the API accepts. -/
structure Accepted (entry : Json) : Prop where
  isObject : ∃ fields, entry = .obj fields
  seedKey : ∃ s, entry.prop "seed_key" = some (.str s) ∧ s ≠ ""
  name : ∃ s, entry.prop "name" = some (.str s) ∧ s ≠ ""
  target : ∃ s, entry.prop "target" = some (.str s) ∧ s ≠ ""
  frequency : ∃ q : Rat, entry.prop "frequency" = some (.num q) ∧ 0 < q
  checkType : ∃ s, entry.prop "check_type" = some (.str s)

theorem isText_ne {value : Option Json} (h : isText value = true) :
    ∃ s, value = some (.str s) ∧ s ≠ "" := by
  unfold isText at h
  split at h
  · rename_i s
    refine ⟨s, rfl, ?_⟩
    rintro rfl
    exact absurd h (by decide)
  · cases h

theorem accepted_of_valid {entry : Json} (hseed : isSeedEntry entry = true)
    (hdemo : isDemoSeedEntry entry = true) : Accepted entry := by
  simp only [isSeedEntry, Bool.and_eq_true] at hseed
  simp only [isDemoSeedEntry, Bool.and_eq_true] at hdemo
  obtain ⟨⟨⟨-, hkey⟩, hname⟩, htarget⟩ := hseed
  obtain ⟨⟨htype, -⟩, hfrequency⟩ := hdemo
  refine ⟨?_, isText_ne hkey, isText_ne hname, isText_ne htarget, ?_, ?_⟩
  · obtain ⟨s, hs, -⟩ := isText_ne hkey
    unfold Json.prop at hs
    split at hs
    · exact ⟨_, rfl⟩
    · cases hs
  · unfold isPositiveInteger at hfrequency
    split at hfrequency
    · rename_i q hq
      exact ⟨q, hq, by simpa using (Bool.and_eq_true_iff.mp hfrequency).2⟩
    · cases hfrequency
  · split at htype
    · exact ⟨_, ‹_›⟩
    · cases htype

/-- The fields of an accepted entry that are compared are there, and not `null`. -/
theorem Accepted.prop {entry : Json} (h : Accepted entry) {f : ManifestField}
    (hf : f ≠ .checkConfig) :
    ∃ value, entry.prop f.tag = some value ∧ value ≠ .null := by
  cases f with
  | seedKey => exact ⟨_, h.seedKey.choose_spec.1, (nomatch ·)⟩
  | name => exact ⟨_, h.name.choose_spec.1, (nomatch ·)⟩
  | target => exact ⟨_, h.target.choose_spec.1, (nomatch ·)⟩
  | frequency => exact ⟨_, h.frequency.choose_spec.1, (nomatch ·)⟩
  | checkType => exact ⟨_, h.checkType.choose_spec, (nomatch ·)⟩
  | checkConfig => exact absurd rfl hf

variable {number : String → Rat}

theorem prop_obj {fields : List (String × Scanned)} {key : String} :
    ((Scanned.obj fields).value number).prop key =
      (fields.reverse.find? fun f => f.1 = key).map fun f => f.2.value number := by
  show ((Scanned.fieldValues number fields).reverse.find? fun f => f.1 = key).map Prod.snd = _
  rw [Scanned.fieldValues_eq_map, ← List.map_reverse, List.find?_map, Option.map_map]
  rfl

/-- A key with the exact name is a spelling of the field. -/
theorem exists_lastGiven {f : ManifestField} {fields : List (String × Scanned)} {value : Json}
    (h : ((Scanned.obj fields).value number).prop f.tag = some value) (hnull : value ≠ .null) :
    ∃ last, lastGiven f fields = some last := by
  rw [prop_obj] at h
  obtain ⟨⟨key, item⟩, hfind, rfl⟩ := Option.map_eq_some_iff.mp h
  have hkey : key = f.tag := by simpa using List.find?_some hfind
  have hmem : (key, item) ∈ fields := List.mem_reverse.mp (List.mem_of_find?_eq_some hfind)
  have hitem : item.isNull = false := by
    cases item with
    | null => exact absurd rfl hnull
    | bool b | num literal | str s | arr items | obj fields => rfl
  have hgiven : item ∈ (given f fields).filter (!·.isNull) := by
    refine List.mem_filter.mpr ⟨List.mem_map.mpr ⟨(key, item), ?_, rfl⟩, by simpa using hitem⟩
    exact List.mem_filter.mpr ⟨hmem, decide_eq_true (congrArg _ hkey)⟩
  exact ⟨_, List.getLast?_eq_some_getLast (List.ne_nil_of_mem hgiven)⟩

/-- **The worker reads of an entry what the API reads**, if and only if it is unambiguous. -/
theorem decodeMonitor_same {raw : Scanned → String} {entry : Scanned}
    (h : Accepted (entry.value number)) :
    (∃ m, decodeMonitor raw entry = .ok m ∧ SameEntry (entry.value number) m) ↔
      Unambiguous number entry := by
  obtain ⟨fields, rfl⟩ : ∃ fields, entry = .obj fields := by
    obtain ⟨_, hobject⟩ := h.isObject
    cases entry with
    | obj fields => exact ⟨fields, rfl⟩
    | null | bool b | num literal | str s | arr items => cases hobject
  constructor
  · rintro ⟨m, hm, hsame⟩
    refine ⟨decodeFields_ok.mp ⟨m, hm⟩, fun f hf => ?_⟩
    obtain ⟨value, hvalue, hnull⟩ := h.prop hf
    obtain ⟨last, hlast⟩ := exists_lastGiven hvalue hnull
    have hget := decodeFields_get hf hm
    rw [hlast] at hget
    rw [sameEntry_iff.mp hsame f hf, hget]
    exact congrArg _ hlast
  · rintro ⟨haccepts, hlast⟩
    obtain ⟨m, hm⟩ := decodeFields_ok.mpr haccepts
    refine ⟨m, hm, sameEntry_iff.mpr fun f hf => ?_⟩
    obtain ⟨value, hvalue, -⟩ := h.prop hf
    rw [decodeFields_get hf hm, hlast f hf, hvalue]
    rfl

/-! ### The list -/

section Lists

variable {α β γ : Type} {R : α → β → Prop}

theorem exists_forall₂ : ∀ {as : List α},
    (∃ bs, List.Forall₂ R as bs) ↔ ∀ a ∈ as, ∃ b, R a b
  | [] => ⟨fun _ a ha => (nomatch ha), fun _ => ⟨[], .nil⟩⟩
  | a :: as => by
      rw [List.forall_mem_cons, ← exists_forall₂]
      constructor
      · rintro ⟨bs, h⟩
        cases h with
        | cons hb hbs => exact ⟨⟨_, hb⟩, _, hbs⟩
      · rintro ⟨⟨b, hb⟩, bs, hbs⟩
        exact ⟨b :: bs, .cons hb hbs⟩

theorem map_eq_of_forall₂ {f : α → γ} {g : β → γ} (h : ∀ a b, R a b → f a = g b) {as : List α}
    {bs : List β} (hs : List.Forall₂ R as bs) : as.map f = bs.map g := by
  induction hs with
  | nil => rfl
  | cons hb _ ih => rw [List.map_cons, List.map_cons, h _ _ hb, ih]

theorem exists_of_forall₂ {as : List α} {bs : List β} (hs : List.Forall₂ R as bs) :
    ∀ b ∈ bs, ∃ a ∈ as, R a b := by
  induction hs with
  | nil => exact fun b hb => (nomatch hb)
  | cons hb _ ih =>
      intro c hc
      rcases List.mem_cons.mp hc with rfl | hc
      · exact ⟨_, List.mem_cons_self, hb⟩
      · obtain ⟨a, ha, hac⟩ := ih c hc
        exact ⟨a, List.mem_cons_of_mem _ ha, hac⟩

end Lists

/-- Read as the API reads it, an accepted entry is complete but for its type. -/
theorem SameEntry.valid {entry : Json} {m : DemoMonitor} (h : SameEntry entry m)
    (haccepted : Accepted entry) :
    m.valid [] = true ↔ entry.prop "check_type" ≠ some (.str "") := by
  obtain ⟨key, hkey, hkeyne⟩ := haccepted.seedKey
  obtain ⟨name, hname, hnamene⟩ := haccepted.name
  obtain ⟨target, htarget, htargetne⟩ := haccepted.target
  obtain ⟨q, hfrequency, hpos⟩ := haccepted.frequency
  rw [h.seedKey] at hkey
  rw [h.name] at hname
  rw [h.target] at htarget
  rw [h.frequency] at hfrequency
  cases hkey
  cases hname
  cases htarget
  cases hfrequency
  rw [h.checkType]
  have hfrequency : 0 < m.frequency := by exact_mod_cast hpos
  simp [DemoMonitor.valid, hkeyne, hnamene, htargetne, hfrequency]

/-- Read as the API reads them, accepted entries are valid if there are any, each has a key of its
own, and no type is empty. -/
theorem valid_of_same {entries : List Json} {ms : List DemoMonitor}
    (hsame : List.Forall₂ SameEntry entries ms) (haccepted : ∀ entry ∈ entries, Accepted entry) :
    (ms ≠ [] ∧ validDemoMonitors [] ms = true) ↔
      entries ≠ [] ∧ (entries.map (·.prop "seed_key")).Nodup ∧
        ∀ entry ∈ entries, entry.prop "check_type" ≠ some (.str "") := by
  have hkeys : entries.map (·.prop "seed_key") =
      (ms.map (·.seedKey)).map fun s => some (.str s) := by
    rw [List.map_map]
    exact map_eq_of_forall₂ (fun _ _ h => h.seedKey) hsame
  have hinj : Function.Injective fun s : String => some (Json.str s) := fun s t h => by
    cases h
    rfl
  have hnil : ms ≠ [] ↔ entries ≠ [] := by
    rw [← List.length_pos_iff, ← List.length_pos_iff, hsame.length_eq]
  rw [validDemoMonitors_iff, hkeys, List.nodup_map_iff hinj, hnil]
  refine and_congr_right fun _ => ?_
  rw [and_comm]
  refine and_congr_right fun _ => ?_
  constructor
  · intro h entry hentry
    obtain ⟨m, hm, hentry'⟩ := exists_of_forall₂ (R := flip SameEntry) hsame.flip entry hentry
    exact (SameEntry.valid hentry' (haccepted entry hentry)).mp (h m hm)
  · intro h m hm
    obtain ⟨entry, hentry, hm⟩ := exists_of_forall₂ hsame m hm
    exact (hm.valid (haccepted entry hentry)).mpr (h entry hentry)

/-! ### The manifest -/

/-- **The demo manifest means the same to both languages if and only if it is `Shared`**, for every
document that the API accepts. -/
theorem demoManifest_shared (rt : Runtime) (number : String → Rat)
    (parse : String → Except String Scanned) (raw : Scanned → String)
    (email password data : String) (doc : Scanned) (entries : List Json)
    (hparse : parse data = .ok doc)
    (hvalid : validateManifest demoManifestPath
      ((parse data).toOption.map (Scanned.value number)) = .ok ())
    (hseed : DemoSeed.accept rt ⟨email, password, doc.value number⟩ = .ok entries) :
    (∃ ms, parseDemoManifest (fun data => unmarshalMonitors raw (parse data)) data = .ok ms ∧
      List.Forall₂ SameEntry entries ms) ↔ Shared number doc := by
  rw [hparse] at hvalid
  -- the document is an array of accepted entries
  obtain ⟨items, rfl⟩ : ∃ items, doc = .arr items := by
    cases doc with
    | arr items => exact ⟨items, rfl⟩
    | null | bool b | num literal | str s | obj fields => cases hvalid
  have hentries : entries = items.map (Scanned.value number) := by
    rw [← Scanned.values_eq_map]
    exact DemoSeed.accept_arr hseed
  subst hentries
  have hvalid : validateEntries demoManifestPath (items.map (Scanned.value number)) = .ok () := by
    rw [← Scanned.values_eq_map]
    exact hvalid
  have haccepted : ∀ entry ∈ items.map (Scanned.value number), Accepted entry :=
    fun entry hentry => accepted_of_valid (validateEntries_demo hvalid entry hentry).1
      (validateEntries_demo hvalid entry hentry).2
  have hdecode : ∀ ms, unmarshalMonitors raw (parse data) = .ok ms ↔
      List.Forall₂ (fun entry m => decodeMonitor raw entry = .ok m) items ms := by
    intro ms
    rw [hparse]
    exact decodeMonitors_ok
  have hread : (∃ ms, List.Forall₂ (fun entry m => decodeMonitor raw entry = .ok m ∧
      SameEntry (entry.value number) m) items ms) ↔
        ∀ entry ∈ items, Unambiguous number entry := by
    rw [exists_forall₂]
    exact forall₂_congr fun entry hentry =>
      decodeMonitor_same (haccepted _ (List.mem_map_of_mem hentry))
  have hshared : Shared number (.arr items) ↔ (items.map (Scanned.value number) ≠ [] ∧
      ((items.map (Scanned.value number)).map (·.prop "seed_key")).Nodup ∧
      ∀ entry ∈ items.map (Scanned.value number), entry.prop "check_type" ≠ some (.str "")) ∧
        ∀ entry ∈ items, Unambiguous number entry := by
    rw [List.map_map, List.forall_mem_map, Ne, List.map_eq_nil_iff]
    exact ⟨fun h => ⟨⟨h.nonempty, h.seedKeys, h.checkType⟩, h.unambiguous⟩,
      fun h => ⟨h.1.1, h.1.2.1, h.1.2.2, h.2⟩⟩
  rw [hshared]
  constructor
  · rintro ⟨ms, hms, hsame⟩
    obtain ⟨hms, hcomplete⟩ := parseDemoManifest_ok.mp hms
    refine ⟨(valid_of_same hsame haccepted).mp hcomplete, hread.mp ⟨ms, ?_⟩⟩
    have hsame := List.forall₂_map_left_iff.mp hsame
    exact List.Forall₂.mp (fun _ _ hm h => ⟨hm, h⟩) ((hdecode ms).mp hms) hsame
  · rintro ⟨hvalid, hunambiguous⟩
    obtain ⟨ms, hms⟩ := hread.mpr hunambiguous
    have hsame : List.Forall₂ SameEntry (items.map (Scanned.value number)) ms :=
      List.forall₂_map_left_iff.mpr (hms.imp fun _ _ h => h.2)
    refine ⟨ms, parseDemoManifest_ok.mpr ⟨(hdecode ms).mpr (hms.imp fun _ _ h => h.1), ?_⟩, hsame⟩
    exact (valid_of_same hsame haccepted).mpr hvalid

def siteEntry (checkType : String) : Scanned :=
  .obj [("seed_key", .str "site"), ("name", .str "Site"), ("target", .str "https://example.com"),
    ("frequency", .num "60"), ("check_type", .str checkType), ("check_config", .obj [])]

def siteText (checkType : String) : String :=
  "\x7b\"seed_key\":\"site\",\"name\":\"Site\",\"target\":\"https://example.com\"," ++
    "\"frequency\":60,\"check_type\":\"" ++ checkType ++ "\",\"check_config\":\x7b\x7d\x7d"

def listText (entries : List String) : String := "[" ++ String.intercalate "," entries ++ "]"

/-- The value of a plain decimal integer. -/
def plainNumber (literal : String) : Rat := ((Checker.atoi literal.toList).getD 0 : Int)

/-- A parser of one document. -/
def parseAs (text : String) (doc : Scanned) (data : String) : Except String Scanned :=
  if data = text then .ok doc else .error "unexpected end of JSON input"

theorem parseAs_self (text : String) (doc : Scanned) : parseAs text doc text = .ok doc := if_pos rfl

/-- The text of an empty configuration. -/
def rawConfig (_ : Scanned) : String := "\x7b\x7d"

/-- A manifest of some entries with the types `checkTypes`, and one key for all. -/
def siteManifest (checkTypes : List String) : Scanned := .arr (checkTypes.map siteEntry)

def siteManifestText (checkTypes : List String) : String := listText (checkTypes.map siteText)

def parseSites (checkTypes : List String) : String → Except String Scanned :=
  parseAs (siteManifestText checkTypes) (siteManifest checkTypes)

theorem demoManifest_shared_one :
    (∃ ms, parseDemoManifest (fun data => unmarshalMonitors rawConfig (parseSites ["http"] data))
      (siteManifestText ["http"]) = .ok ms ∧
        List.Forall₂ SameEntry [(siteEntry "http").value plainNumber] ms) ↔
          Shared plainNumber (siteManifest ["http"]) :=
  demoManifest_shared statusRuntime plainNumber (parseSites ["http"]) rawConfig "demo@example.com"
    "" (siteManifestText ["http"]) (siteManifest ["http"]) _ (parseAs_self _ _)
    (congrArg (fun parsed =>
        validateManifest demoManifestPath (parsed.toOption.map (Scanned.value plainNumber)))
      (parseAs_self _ _)) rfl

/-- The API accepts the manifest, and the worker does not have its entries. -/
def Refused (checkTypes : List String) : Prop :=
  parseSites checkTypes (siteManifestText checkTypes) = .ok (siteManifest checkTypes) ∧
    validateManifest demoManifestPath ((parseSites checkTypes
      (siteManifestText checkTypes)).toOption.map (Scanned.value plainNumber)) = .ok () ∧
    DemoSeed.accept statusRuntime
      ⟨"demo@example.com", "", (siteManifest checkTypes).value plainNumber⟩ =
        .ok (checkTypes.map fun checkType => (siteEntry checkType).value plainNumber) ∧
    ¬ ∃ ms, parseDemoManifest
      (fun data => unmarshalMonitors rawConfig (parseSites checkTypes data))
      (siteManifestText checkTypes) = .ok ms ∧
        List.Forall₂ SameEntry
          (checkTypes.map fun checkType => (siteEntry checkType).value plainNumber) ms

/-- Manifests without an entry, with one key twice, and with an empty type. -/
theorem refused_manifests : Refused [] ∧ Refused ["http", "http"] ∧ Refused [""] := by
  have hparse : ∀ checkTypes, parseSites checkTypes (siteManifestText checkTypes) =
      .ok (siteManifest checkTypes) := fun checkTypes => parseAs_self _ _
  refine ⟨⟨hparse _, ?_⟩, ⟨hparse _, ?_⟩, ⟨hparse _, ?_⟩⟩
  all_goals
    rw [hparse]
    simp only [parseDemoManifest, hparse]
    exact ⟨rfl, rfl, fun h => (nomatch h.choose_spec.1)⟩

end Sentinel.System
