import Mathlib.Data.List.Basic

/-!
# Library — Indexed

Lists whose entries are known by their index, which grow at the end and of which entries are
replaced.

* `concat_cases`, `set_cases`: where an entry of such a list is from.
* `Grows R`: every entry is still there, as `R` lets it change.
-/

namespace Indexed

variable {α : Type*} {R : α → α → Prop} {l l' l'' : List α} {x y : α} {i j : Nat}

theorem concat_cases (h : (l ++ [x])[j]? = some y) : l[j]? = some y ∨ j = l.length ∧ y = x := by
  by_cases hj : j < l.length
  · rw [List.getElem?_append_left hj] at h
    exact .inl h
  · rw [List.getElem?_append_right (Nat.le_of_not_lt hj), List.getElem?_singleton] at h
    split at h
    · cases h
      exact .inr ⟨by omega, rfl⟩
    · cases h

theorem concat_of_some (h : l[i]? = some y) : (l ++ [x])[i]? = some y := by
  rw [List.getElem?_append_left (List.getElem?_eq_some_iff.mp h).1]
  exact h

theorem concat_last (l : List α) (x : α) : (l ++ [x])[l.length]? = some x := by
  rw [List.getElem?_append_right (Nat.le_refl _), Nat.sub_self, List.getElem?_cons_zero]

theorem set_cases (h : (l.set i x)[j]? = some y) : i = j ∧ y = x ∨ i ≠ j ∧ l[j]? = some y := by
  by_cases hij : i = j
  · subst hij
    rw [List.getElem?_set_self' ] at h
    obtain ⟨a, -, rfl⟩ := Option.map_eq_some_iff.mp h
    exact .inl ⟨rfl, rfl⟩
  · rw [List.getElem?_set_ne hij] at h
    exact .inr ⟨hij, h⟩

theorem set_of_some (h : l[i]? = some y) : (l.set i x)[i]? = some x := by
  rw [List.getElem?_set_self (List.getElem?_eq_some_iff.mp h).1]

/-- Every entry of `l` is in `l'`, at the same index and related to it. -/
def Grows (R : α → α → Prop) (l l' : List α) : Prop :=
  ∀ (i : Nat) a, l[i]? = some a → ∃ b, l'[i]? = some b ∧ R a b

theorem Grows.refl (hR : ∀ a, R a a) (l : List α) : Grows R l l := fun _ a ha => ⟨a, ha, hR a⟩

theorem Grows.trans (hR : ∀ a b c, R a b → R b c → R a c) (h : Grows R l l')
    (h' : Grows R l' l'') : Grows R l l'' := by
  intro i a ha
  obtain ⟨b, hb, hab⟩ := h i a ha
  obtain ⟨c, hc, hbc⟩ := h' i b hb
  exact ⟨c, hc, hR a b c hab hbc⟩

theorem grows_concat (hR : ∀ a, R a a) (l : List α) (x : α) : Grows R l (l ++ [x]) :=
  fun _ a ha => ⟨a, concat_of_some ha, hR a⟩

theorem grows_set (hR : ∀ a, R a a) (hi : l[i]? = some x) (hxy : R x y) :
    Grows R l (l.set i y) := by
  intro j a ha
  by_cases hij : i = j
  · subst hij
    obtain rfl := Option.some.inj (hi.symm.trans ha)
    exact ⟨y, set_of_some ha, hxy⟩
  · exact ⟨a, by rw [List.getElem?_set_ne hij]; exact ha, hR a⟩

end Indexed
