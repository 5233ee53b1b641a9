import Sentinel.Api.Monitors
import Sentinel.Api.Target

/-!
# Api — Body

The bodies of the writing requests: what the `ValidationPipe` of `src/main.ts` (`transform`,
`whitelist` and `forbidNonWhitelisted`) makes of a JSON body by the decorators of
`CreateMonitorDto` and `UpdateMonitorDto` (`src/monitors/dto`).

* A DTO is its properties with their decorators. An instance of it has the defaults of the class,
  with the fields of the body over them.
* `validateBody`: an instance is refused for each property that is not the DTO's and for each
  decorator that does not hold. `@IsOptional()` skips a property that is `undefined` or `null`. An
  array is refused for each of its items, so the empty one passes: it updates nothing, and nothing
  is created of it.
* `CreateMonitorDto.Valid` and `UpdateMonitorDto.Valid`: what is known of the DTO of a body that is
  accepted.
-/

namespace Sentinel.Api

open Database

/-! ### Decorators -/

/-- A decorator of `class-validator`, or the API's own `IsValidTarget`. -/
inductive Decorator where
  | isString
  | isNotEmpty
  | minLength (min : Nat)
  | maxLength (max : Nat)
  | isObject
  | isInt
  | min (limit : Int) (message : String)
  | isValidTarget
deriving DecidableEq, Repr

/-- Whether a value, which is `none` if it is `undefined`, is what the decorator asks for. -/
def Decorator.holds (rt : Runtime) (value : Option Json) : Decorator → Bool
  | isString =>
      match value with
      | some (.str _) => true
      | _ => false
  | isNotEmpty =>
      match value with
      | none | some .null => false
      | some (.str s) => s ≠ ""
      | some _ => true
  | minLength n =>
      match value with
      | some (.str s) => n ≤ rt.textLength s
      | _ => false
  | maxLength n =>
      match value with
      | some (.str s) => rt.textLength s ≤ n
      | _ => false
  | isObject =>
      match value with
      | some (.obj _) => true
      | _ => false
  | isInt =>
      match value with
      | some (.num q) => q.den = 1
      | _ => false
  | min limit _ =>
      match value with
      | some (.num q) => (limit : Rat) ≤ q
      | _ => false
  | isValidTarget => validateTarget rt value

/-- A property of a DTO. -/
structure Property where
  name : String
  isOptional : Bool
  decorators : List Decorator

/-- What a body is refused for. -/
inductive BodyError where
  | notAnObject
  /-- Prisma asks for the name of a monitor that is created. -/
  | missingName
  | notWhitelisted (property : String)
  | violated (property : String) (decorator : Decorator)
deriving DecidableEq, Repr

/-- The decorators of a property that do not hold. -/
def Property.errors (rt : Runtime) (entity : Json) (p : Property) : List BodyError :=
  match p.isOptional, entity.prop p.name with
  | true, none | true, some .null => []
  | _, value => (p.decorators.filter fun d => !d.holds rt value).map (.violated p.name)

/-- The errors of an instance made of some fields. -/
def bodyErrors (rt : Runtime) (properties : List Property) (fields : List (String × Json))
    (entity : Json) : List BodyError :=
  (fields.filter fun f => !properties.any (·.name = f.1)).map (.notWhitelisted ·.1) ++
    properties.flatMap (·.errors rt entity)

/-- Validates a body as a DTO with some defaults. -/
def validateBody (rt : Runtime) (properties : List Property) (defaults : List (String × Json)) :
    Json → Except (List BodyError) Json
  | .obj fields =>
      match bodyErrors rt properties fields (.obj (defaults ++ fields)) with
      | [] => .ok (.obj (defaults ++ fields))
      | errors => .error errors
  | .arr items =>
      match (List.range items.length).map fun index => BodyError.notWhitelisted (toString index) with
      | [] => .ok (.arr items)
      | errors => .error errors
  | _ => .error [.notAnObject]

/-- What is accepted has no error, unless it is an array, which has no properties. -/
theorem validateBody_ok {rt : Runtime} {properties : List Property}
    {defaults : List (String × Json)} {body entity : Json}
    (h : validateBody rt properties defaults body = .ok entity) :
    (∀ p ∈ properties, p.errors rt entity = []) ∨ ∃ items, entity = .arr items := by
  unfold validateBody at h
  split at h
  · split at h
    · rename_i herrors
      cases h
      exact .inl (List.flatMap_eq_nil_iff.mp (List.append_eq_nil_iff.mp herrors).2)
    · cases h
  · split at h
    · cases h
      exact .inr ⟨_, rfl⟩
    · cases h
  · cases h

/-- A property of an accepted instance has what every decorator asks for, unless it is skipped. -/
theorem Property.holds {rt : Runtime} {entity : Json} {p : Property} (h : p.errors rt entity = [])
    (hvalue : p.isOptional = false ∨ ∃ value, entity.prop p.name = some value ∧ value ≠ .null) :
    ∀ d ∈ p.decorators, d.holds rt (entity.prop p.name) = true := by
  intro d hd
  unfold Property.errors at h
  split at h
  · rename_i hopt hnone
    rcases hvalue with hreq | ⟨value, hsome, -⟩
    · rw [hopt] at hreq
      cases hreq
    · rw [hnone] at hsome
      cases hsome
  · rename_i hopt hnull
    rcases hvalue with hreq | ⟨value, hsome, hne⟩
    · rw [hopt] at hreq
      cases hreq
    · rw [hnull] at hsome
      exact absurd (Option.some.inj hsome).symm hne
  · have hnot := List.filter_eq_nil_iff.mp (List.map_eq_nil_iff.mp h) d hd
    simpa using hnot

/-! ### The DTOs -/

def minFrequencyMessage : String := "frequency must be greater than or equal to 10"

/-- The properties of both DTOs that may be left out. -/
def optionalProperties : List Property :=
  [⟨"check_type", true, [.isString]⟩, ⟨"check_config", true, [.isObject]⟩,
    ⟨"frequency", true, [.isInt, .min 10 minFrequencyMessage]⟩]

def CreateMonitorDto.properties : List Property :=
  [⟨"name", false, [.isString, .isNotEmpty, .minLength 1, .maxLength 100]⟩,
    ⟨"target", false, [.isString, .isNotEmpty, .isValidTarget]⟩] ++ optionalProperties

def CreateMonitorDto.defaults : List (String × Json) :=
  [("check_type", .str "http"), ("check_config", .obj []), ("frequency", .num 60)]

def UpdateMonitorDto.properties : List Property :=
  [⟨"name", true, [.isString, .minLength 1, .maxLength 100]⟩,
    ⟨"target", true, [.isString, .isValidTarget]⟩] ++ optionalProperties

/-- A property as a field of a request. A value of another type is taken as a `null`, which no
accepted instance has in its place. -/
def field {α : Type} (read : Json → Option α) (value : Option Json) : Field α :=
  match value with
  | none => .undefined
  | some value => ((read value).map .value).getD .null

def Json.text : Json → Option String
  | .str s => some s
  | _ => none

def Json.integer : Json → Option Int
  | .num q => if q.den = 1 then some q.num else none
  | _ => none

/-- The text of an object. -/
def Json.config (rt : Runtime) : Json → Option String
  | .obj fields => some (rt.stringify (.obj fields))
  | _ => none

/-- The DTO of an instance. -/
def CreateMonitorDto.ofEntity (rt : Runtime) (entity : Json) : CreateMonitorDto :=
  { name := ((entity.prop "name").bind Json.text).getD ""
    target := ((entity.prop "target").bind Json.text).getD ""
    checkType := field Json.text (entity.prop "check_type")
    checkConfig := field (Json.config rt) (entity.prop "check_config")
    frequency := field Json.integer (entity.prop "frequency") }

def UpdateMonitorDto.ofEntity (rt : Runtime) (entity : Json) : UpdateMonitorDto :=
  { name := field Json.text (entity.prop "name")
    target := field Json.text (entity.prop "target")
    checkType := field Json.text (entity.prop "check_type")
    checkConfig := field (Json.config rt) (entity.prop "check_config")
    frequency := field Json.integer (entity.prop "frequency") }

/-- The DTO that `createMonitor` is called with for a body. -/
def CreateMonitorDto.ofBody (rt : Runtime) (body : Json) :
    Except (List BodyError) CreateMonitorDto :=
  match validateBody rt CreateMonitorDto.properties CreateMonitorDto.defaults body with
  | .error errors => .error errors
  | .ok (.arr _) => .error [.missingName]
  | .ok entity => .ok (CreateMonitorDto.ofEntity rt entity)

/-- The DTO that `updateMonitor` is called with for a body. -/
def UpdateMonitorDto.ofBody (rt : Runtime) (body : Json) :
    Except (List BodyError) UpdateMonitorDto :=
  (validateBody rt UpdateMonitorDto.properties [] body).map (UpdateMonitorDto.ofEntity rt)

/-! ### What is accepted -/

/-- A field of a request as a property. -/
def Field.json {α : Type} (write : α → Json) : Field α → Option Json
  | .undefined => none
  | .null => some .null
  | .value a => some (write a)

theorem field_json {α : Type} {read : Json → Option α} {write : α → Json} {value : Option Json}
    (hnull : read .null = none)
    (h : ∀ v, value = some v → v ≠ .null → ∃ a, read v = some a ∧ write a = v) :
    (field read value).json write = value := by
  cases value with
  | none => rfl
  | some v =>
      by_cases hv : v = .null
      · rw [hv, field, hnull]
        rfl
      · obtain ⟨a, hread, hwrite⟩ := h v rfl hv
        rw [field, hread]
        exact congrArg some hwrite

theorem holds_isString {rt : Runtime} {value : Option Json}
    (h : Decorator.isString.holds rt value = true) : ∃ s, value = some (.str s) := by
  simp only [Decorator.holds] at h
  split at h
  · exact ⟨_, rfl⟩
  · cases h

theorem holds_isInt {rt : Runtime} {value : Option Json}
    (h : Decorator.isInt.holds rt value = true) : ∃ n : Int, value = some (.num n) := by
  simp only [Decorator.holds] at h
  split at h
  · rename_i q
    exact ⟨q.num, by rw [Rat.coe_int_num_of_den_eq_one (of_decide_eq_true h)]⟩
  · cases h

/-- A property that is there is decorated with `@IsString()`, so it is a text. -/
theorem field_text {rt : Runtime} {entity : Json} {p : Property} (h : p.errors rt entity = [])
    (hstring : .isString ∈ p.decorators) :
    (field Json.text (entity.prop p.name)).json .str = entity.prop p.name := by
  refine field_json rfl fun v hv hne => ?_
  obtain ⟨s, hs⟩ := holds_isString (Property.holds h (.inr ⟨v, hv, hne⟩) _ hstring)
  rw [hv] at hs
  cases hs
  exact ⟨s, rfl, rfl⟩

theorem field_integer {rt : Runtime} {entity : Json} {p : Property} (h : p.errors rt entity = [])
    (hint : .isInt ∈ p.decorators) :
    (field Json.integer (entity.prop p.name)).json (fun n : Int => .num n) =
      entity.prop p.name := by
  refine field_json rfl fun v hv hne => ?_
  obtain ⟨n, hn⟩ := holds_isInt (Property.holds h (.inr ⟨v, hv, hne⟩) _ hint)
  rw [hv] at hn
  cases hn
  exact ⟨n, by simp [Json.integer], rfl⟩

theorem Field.json_value {α : Type} {write : α → Json} {f : Field α} {value : Option Json}
    (h : f.json write = value) {a : α} (ha : f = .value a) : value = some (write a) := by
  rw [← h, ha]
  rfl

/-- The columns of an update are the fields of the request. -/
theorem UpdateMonitorDto.dataToUpdate_fields {dto : UpdateMonitorDto} {patch : MonitorPatch}
    (h : dto.dataToUpdate = some patch) : dto.target.toUpdate = some patch.target ∧
      dto.checkType.toUpdate = some patch.checkType ∧
      dto.frequency.toUpdate = some patch.frequency := by
  simp only [UpdateMonitorDto.dataToUpdate, Option.bind_eq_bind, Option.bind_eq_some_iff] at h
  obtain ⟨name, -, target, htarget, checkType, hcheckType, checkConfig, -, frequency, hfrequency,
    heq⟩ := h
  cases heq
  exact ⟨htarget, hcheckType, hfrequency⟩

theorem Field.eq_value {α : Type} {f : Field α} {a : α} (h : f.toUpdate = some (some a)) :
    f = .value a := by
  cases f with
  | undefined | null => cases h
  | value b =>
      cases h
      rfl

/-- What is known of the DTO of a create request. -/
structure CreateMonitorDto.Valid (rt : Runtime) (dto : CreateMonitorDto) : Prop where
  name : 1 ≤ rt.textLength dto.name ∧ rt.textLength dto.name ≤ 100
  target : validateTarget rt (some (.str dto.target)) = true
  frequency : ∀ n, dto.frequency = .value n → 10 ≤ n

/-- What is known of the DTO of an update request. -/
structure UpdateMonitorDto.Valid (rt : Runtime) (dto : UpdateMonitorDto) : Prop where
  name : ∀ s, dto.name = .value s → 1 ≤ rt.textLength s ∧ rt.textLength s ≤ 100
  target : ∀ s, dto.target = .value s → validateTarget rt (some (.str s)) = true
  frequency : ∀ n, dto.frequency = .value n → 10 ≤ n

/-- The frequency of both DTOs. -/
theorem frequency_valid {rt : Runtime} {entity : Json}
    (h : ∀ p ∈ optionalProperties, p.errors rt entity = []) {n : Int}
    (hn : field Json.integer (entity.prop "frequency") = .value n) : 10 ≤ n := by
  have herrors := h ⟨"frequency", true, [.isInt, .min 10 minFrequencyMessage]⟩ (by
    simp [optionalProperties])
  have hprop := Field.json_value (field_integer herrors List.mem_cons_self) hn
  have hmin := Property.holds herrors (.inr ⟨_, hprop, fun h => (nomatch h)⟩)
    (.min 10 minFrequencyMessage) (by simp)
  rw [hprop] at hmin
  exact_mod_cast of_decide_eq_true hmin

theorem CreateMonitorDto.ofBody_ok {rt : Runtime} {body : Json} {dto : CreateMonitorDto}
    (h : CreateMonitorDto.ofBody rt body = .ok dto) : ∃ entity,
      (∀ p ∈ CreateMonitorDto.properties, p.errors rt entity = []) ∧
        CreateMonitorDto.ofEntity rt entity = dto := by
  unfold CreateMonitorDto.ofBody at h
  split at h
  · cases h
  · cases h
  · rename_i entity hne hbody
    refine ⟨entity, (validateBody_ok hbody).resolve_right ?_, Except.ok.inj h⟩
    rintro ⟨items, rfl⟩
    exact hne items rfl

theorem CreateMonitorDto.ofBody_valid {rt : Runtime} {body : Json} {dto : CreateMonitorDto}
    (h : CreateMonitorDto.ofBody rt body = .ok dto) : dto.Valid rt := by
  obtain ⟨entity, herrors, rfl⟩ := CreateMonitorDto.ofBody_ok h
  have hname := Property.holds (herrors _ List.mem_cons_self) (.inl rfl)
  have htarget := Property.holds (herrors _ (List.mem_cons_of_mem _ List.mem_cons_self))
    (.inl rfl)
  obtain ⟨name, hn⟩ := holds_isString (hname _ List.mem_cons_self)
  obtain ⟨target, ht⟩ := holds_isString (htarget _ List.mem_cons_self)
  dsimp only at hn ht hname htarget
  rw [hn] at hname
  rw [ht] at htarget
  constructor
  · have hmin := hname (.minLength 1) (by simp)
    have hmax := hname (.maxLength 100) (by simp)
    simp only [CreateMonitorDto.ofEntity, hn]
    exact ⟨of_decide_eq_true hmin, of_decide_eq_true hmax⟩
  · simp only [CreateMonitorDto.ofEntity, ht]
    exact htarget .isValidTarget (by simp)
  · intro n hfrequency
    exact frequency_valid (fun p hp => herrors p (List.mem_append_right _ hp)) hfrequency

theorem UpdateMonitorDto.ofBody_valid {rt : Runtime} {body : Json} {dto : UpdateMonitorDto}
    (h : UpdateMonitorDto.ofBody rt body = .ok dto) : dto.Valid rt := by
  obtain ⟨entity, hbody, rfl⟩ := map_eq_ok h
  obtain herrors | ⟨items, rfl⟩ := validateBody_ok hbody
  case inr => exact ⟨fun _ h => (nomatch h), fun _ h => (nomatch h), fun _ h => (nomatch h)⟩
  have hname := herrors _ List.mem_cons_self
  have htarget := herrors _ (List.mem_cons_of_mem _ List.mem_cons_self)
  constructor
  · intro s hs
    have hprop := Field.json_value (field_text hname List.mem_cons_self) hs
    have hall := Property.holds hname (.inr ⟨_, hprop, fun h => (nomatch h)⟩)
    rw [hprop] at hall
    have hmin := hall (.minLength 1) (by simp)
    have hmax := hall (.maxLength 100) (by simp)
    exact ⟨of_decide_eq_true hmin, of_decide_eq_true hmax⟩
  · intro s hs
    have hprop := Field.json_value (field_text htarget List.mem_cons_self) hs
    have hall := Property.holds htarget (.inr ⟨_, hprop, fun h => (nomatch h)⟩)
    rw [hprop] at hall
    exact hall .isValidTarget (by simp)
  · intro n hfrequency
    exact frequency_valid (fun p hp => herrors p (List.mem_append_right _ hp)) hfrequency

end Sentinel.Api
