import Sentinel.Api.Values

/-!
# Api — ProductionEnv

`validateManifest` of `src/common/config/production-env.ts`: what the API asks of a manifest before
it starts in production.
-/

namespace Sentinel.Api

/-- A text that is not blank. -/
def isText : Option Json → Bool
  | some (.str s) => !isBlank s
  | _ => false

/-- `typeof value === 'object'`, of a value that is not falsy. -/
def isObjectLike : Option Json → Bool
  | some (.obj _) | some (.arr _) => true
  | _ => false

/-- `Number.isInteger(value) && value > 0`. -/
def isPositiveInteger : Option Json → Bool
  | some (.num q) => q.den = 1 && 0 < q
  | _ => false

def isSeedEntry (entry : Json) : Bool :=
  isObjectLike (some entry) && isText (entry.prop "seed_key") && isText (entry.prop "name") &&
    isText (entry.prop "target")

def isDemoSeedEntry (entry : Json) : Bool :=
  (match entry.prop "check_type" with
    | some (.str _) => true
    | _ => false) &&
    isObjectLike (entry.prop "check_config") && isPositiveInteger (entry.prop "frequency")

def demoManifestPath : String := "DEMO_MONITORS_MANIFEST_PATH"

/-- The checks of the entries of a manifest. -/
def validateEntries (name : String) : List Json → Except String Unit
  | [] => .ok ()
  | entry :: entries =>
      if !isSeedEntry entry then .error (name ++ " contains an invalid seed entry")
      else if name = demoManifestPath && !isDemoSeedEntry entry then
        .error (name ++ " contains an invalid demo seed entry")
      else if (entry.prop "frequency").isSome && !isPositiveInteger (entry.prop "frequency") then
        .error (name ++ " contains an invalid monitor frequency")
      else validateEntries name entries

/-- `validateManifest`, of the file at the path if it can be read and parsed. -/
def validateManifest (name : String) (parsed : Option Json) : Except String Unit :=
  match parsed with
  | none => .error (name ++ " must point to an available valid JSON manifest")
  | some (.arr entries) => validateEntries name entries
  | some _ => .error (name ++ " must point to a JSON array manifest")

/-- An entry of a demo manifest that passes. -/
theorem validateEntries_demo : ∀ {entries : List Json},
    validateEntries demoManifestPath entries = .ok () →
      ∀ entry ∈ entries, isSeedEntry entry = true ∧ isDemoSeedEntry entry = true
  | [], _, entry, hentry => (nomatch hentry)
  | first :: entries, h, entry, hentry => by
      rw [validateEntries] at h
      split at h
      · cases h
      · rename_i hseed
        split at h
        · cases h
        · rename_i hdemo
          split at h
          · cases h
          · rcases List.mem_cons.mp hentry with rfl | hentry
            · exact ⟨by simpa using hseed, by simpa using hdemo⟩
            · exact validateEntries_demo h entry hentry

/-- Every refusal names the setting whose manifest is refused. -/
theorem validateManifest_error {name e : String} {parsed : Option Json}
    (h : validateManifest name parsed = .error e) : ∃ reason, e = name ++ reason := by
  have hentries : ∀ entries, validateEntries name entries = .error e →
      ∃ reason, e = name ++ reason := by
    intro entries
    induction entries with
    | nil => exact fun h => (nomatch h)
    | cons entry entries ih =>
        intro h
        rw [validateEntries] at h
        split at h
        · exact ⟨_, (Except.error.inj h).symm⟩
        · split at h
          · exact ⟨_, (Except.error.inj h).symm⟩
          · split at h
            · exact ⟨_, (Except.error.inj h).symm⟩
            · exact ih h
  unfold validateManifest at h
  split at h
  · exact ⟨_, (Except.error.inj h).symm⟩
  · exact hentries _ h
  · exact ⟨_, (Except.error.inj h).symm⟩

end Sentinel.Api
