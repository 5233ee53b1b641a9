import Mathlib.Algebra.Order.Field.Rat
import Sentinel.Api.Values

/-!
# Frontend — Status

The classifier of the public status page (`src/features/status/status.ts`): what a monitor's row
is called at a time.

* `positiveSetting`: the two settings of the build; a value out of bounds is the fallback.
* `classifyStatus`: the label of one monitor.
* `classifyStatus_ne_noData`: a monitor whose state is known has data from its check on, for the
  time after which a check is stale.
-/

namespace Sentinel.Frontend

open Api (Number isSpace)

/-- What the classifier takes from the build and from the platform. -/
structure Platform where
  /-- `import.meta.env`. -/
  env : String → Option String
  /-- `Number`, of a string. -/
  toNumber : String → Number
  /-- `Date.parse`; `none` is `NaN`. -/
  parseDate : String → Option Int

structure PublicStatusMonitor where
  name : String
  last_state : Option String
  uptime_percentage : Option Number
  last_checked_at : Option String
deriving DecidableEq

inductive StatusLabel where
  | operational
  | degraded
  | down
  | noData
deriving DecidableEq, Repr

/-- The text of a label. -/
def StatusLabel.text : StatusLabel → String
  | .operational => "Operational"
  | .degraded => "Degraded"
  | .down => "Down"
  | .noData => "No data"

structure StatusOptions where
  /-- `now.getTime()`. -/
  now : Option Int := none
  staleAfterMinutes : Option Number := none
  degradedThresholdPercent : Option Number := none

variable (p : Platform)

/-- A text without text in it is no number, and anything out of the bounds is the fallback. -/
def positiveSetting (value : Option String) (fallback : Rat) (min : Rat := 0)
    (max : Number := .infinity false) : Rat :=
  match (value.filter fun v => !v.toList.all isSpace).map p.toNumber with
  | some (.finite parsed) =>
      if min < parsed ∧ max.ge (.finite parsed) = true then parsed else fallback
  | _ => fallback

def STATUS_STALE_AFTER_MINUTES : Rat :=
  positiveSetting p (p.env "VITE_STATUS_STALE_AFTER_MINUTES") 5

def STATUS_DEGRADED_THRESHOLD_PERCENT : Rat :=
  positiveSetting p (p.env "VITE_STATUS_DEGRADED_THRESHOLD_PERCENT") 99 0 (.finite 100)

/-- `minutes * 60_000`. -/
def milliseconds : Number → Number
  | .finite minutes => .finite (minutes * 60000)
  | n => n

/-- `Date.parse` of the time of the last check, if there is one. -/
def PublicStatusMonitor.checkedAt (m : PublicStatusMonitor) : Option Int :=
  m.last_checked_at.bind p.parseDate

/-- `dateNow` is what `Date.now()` would give. -/
def classifyStatus (dateNow : Int) (m : PublicStatusMonitor) (options : StatusOptions := {}) :
    StatusLabel :=
  let staleAfterMinutes := options.staleAfterMinutes.getD (.finite (STATUS_STALE_AFTER_MINUTES p))
  let threshold :=
    options.degradedThresholdPercent.getD (.finite (STATUS_DEGRADED_THRESHOLD_PERCENT p))
  let now := options.now.getD dateNow
  match m.checkedAt p with
  | none => .noData
  | some checkedAt =>
      if now < checkedAt ∨ (milliseconds staleAfterMinutes).lt (.finite (now - checkedAt : Int)) ∨
          (m.last_state ≠ some "healthy" ∧ m.last_state ≠ some "unhealthy") then .noData
      else if m.last_state = some "unhealthy" then .down
      else
        match m.uptime_percentage with
        | some (.finite ratio) =>
            if (Number.finite ratio).lt threshold then .degraded else .operational
        | _ => .noData

/-! ### Settings -/

theorem positiveSetting_bounds {value : Option String} {fallback min : Rat} {max : Number}
    (hmin : min < fallback) (hmax : max.ge (.finite fallback) = true) :
    min < positiveSetting p value fallback min max ∧
      max.ge (.finite (positiveSetting p value fallback min max)) = true := by
  unfold positiveSetting
  split
  · split
    · assumption
    · exact ⟨hmin, hmax⟩
  · exact ⟨hmin, hmax⟩

theorem staleAfterMinutes_pos : 0 < STATUS_STALE_AFTER_MINUTES p :=
  (positiveSetting_bounds p (by decide +kernel) (by decide)).1

/-! ### The label of a monitor whose state is known -/

/-- The state of the row says whether the service is up, with a ratio if it is. -/
def PublicStatusMonitor.Known (m : PublicStatusMonitor) : Prop :=
  m.last_state = some "unhealthy" ∨
    m.last_state = some "healthy" ∧ ∃ ratio, m.uptime_percentage = some (.finite ratio)

instance : ∀ ratio : Option Number, Decidable (∃ q, ratio = some (.finite q))
  | some (.finite q) => isTrue ⟨q, rfl⟩
  | some .nan | some (.infinity _) | none => isFalse (by rintro ⟨_, h⟩; cases h)

instance (m : PublicStatusMonitor) : Decidable m.Known :=
  inferInstanceAs (Decidable (_ ∨ _ ∧ _))

/-- A check at a time is no later than `now`, and not too old for it. -/
def Timely (staleAfterMinutes : Number) (now checkedAt : Int) : Prop :=
  checkedAt ≤ now ∧ (milliseconds staleAfterMinutes).lt (.finite (now - checkedAt : Int)) = false

instance (staleAfterMinutes : Number) (now checkedAt : Int) :
    Decidable (Timely staleAfterMinutes now checkedAt) :=
  inferInstanceAs (Decidable (_ ∧ _))

variable {p}

/-- A row whose state is known has data if its check is timely, and only then. -/
theorem classifyStatus_ne_noData {m : PublicStatusMonitor} {dateNow : Int}
    {options : StatusOptions} (h : m.Known) :
    classifyStatus p dateNow m options ≠ .noData ↔ ∃ checkedAt ∈ m.checkedAt p,
      Timely (options.staleAfterMinutes.getD (.finite (STATUS_STALE_AFTER_MINUTES p)))
        (options.now.getD dateNow) checkedAt := by
  have hstate : ¬ (m.last_state ≠ some "healthy" ∧ m.last_state ≠ some "unhealthy") := by
    rintro ⟨hhealthy, hunhealthy⟩
    rcases h with h | ⟨h, -⟩
    · exact hunhealthy h
    · exact hhealthy h
  unfold classifyStatus
  cases hchecked : m.checkedAt p with
  | none => exact iff_of_false (fun h => h rfl) fun ⟨_, h, _⟩ => Option.not_mem_none _ h
  | some checkedAt =>
      by_cases htimely : Timely
          (options.staleAfterMinutes.getD (.finite (STATUS_STALE_AFTER_MINUTES p)))
          (options.now.getD dateNow) checkedAt
      · refine iff_of_true ?_ ⟨checkedAt, rfl, htimely⟩
        have hpass := not_or.mpr ⟨not_lt.mpr htimely.1,
          not_or.mpr ⟨Bool.eq_false_iff.mp htimely.2, hstate⟩⟩
        simp only [if_neg hpass]
        split
        · decide
        · rename_i hup
          obtain ⟨-, ratio, hratio⟩ := h.resolve_left hup
          rw [hratio]
          dsimp only
          split
          · decide
          · decide
      · refine iff_of_false (fun hlabel => hlabel (if_pos ?_)) ?_
        · by_contra hpass
          obtain ⟨hfuture, hpass⟩ := not_or.mp hpass
          obtain ⟨hstale, -⟩ := not_or.mp hpass
          exact htimely ⟨not_lt.mp hfuture, Bool.eq_false_iff.mpr hstale⟩
        · rintro ⟨c, hc, htimely'⟩
          obtain rfl := Option.some.inj hc
          exact htimely htimely'

end Sentinel.Frontend
