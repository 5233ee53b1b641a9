import Mathlib.Data.List.Nodup
import Mathlib.Order.Bounds.Basic
import Mathlib.Order.MinMax

/-!
# Library — Rank

Order statistics of a list: how many of its elements lie below the one at an index of the sorted
list.

* `sorted`, `sorted_eq`: the list in order, which is the same for every arrangement of it.
* `get_iff_lt_countP`: what holds of all smaller elements too holds at the indices below a count.
* `isLeast_get`: the element at an index is the least one with so many elements up to it.
* `isGreatest_foldl_max`: the greatest element, as a fold finds it.
-/

namespace Rank

variable {α : Type} [LinearOrder α] {l m : List α} {P : α → Bool} {i j : Nat}

/-- The list in order. -/
def sorted (l : List α) : List α := l.mergeSort (· ≤ ·)

theorem sorted_perm : (sorted l).Perm l := List.mergeSort_perm l _

theorem length_sorted : (sorted l).length = l.length := sorted_perm.length_eq

theorem pairwise_sorted : (sorted l).Pairwise (· ≤ ·) := by
  have h : (sorted l).Pairwise fun a b => decide (a ≤ b) = true :=
    List.pairwise_mergeSort
      (fun a b c hab hbc => decide_eq_true ((of_decide_eq_true hab).trans (of_decide_eq_true hbc)))
      (fun a b => by simpa using le_total a b) l
  exact h.imp of_decide_eq_true

/-- A list in order is the sorted list of each of its arrangements. -/
theorem sorted_eq (hm : m.Pairwise (· ≤ ·)) (hperm : m.Perm l) : sorted l = m :=
  (sorted_perm.trans hperm.symm).eq_of_pairwise (fun _ _ _ _ => le_antisymm) pairwise_sorted hm

theorem sorted_congr (hperm : m.Perm l) : sorted m = sorted l :=
  sorted_eq pairwise_sorted (sorted_perm.trans hperm.symm)

/-! ### Counting in a list in order -/

/-- `P` holds of all that is less than what it holds of. -/
def Downward (P : α → Bool) : Prop := ∀ a b, a ≤ b → P b = true → P a = true

theorem downward_le (a : α) : Downward fun x => decide (x ≤ a) := fun _ _ hle h =>
  decide_eq_true (hle.trans (of_decide_eq_true h))

theorem downward_lt (a : α) : Downward fun x => decide (x < a) := fun _ _ hle h =>
  decide_eq_true (lt_of_le_of_lt hle (of_decide_eq_true h))

/-- **Counting in a list in order**: the elements of which `P` holds are the first ones. -/
theorem get_iff_lt_countP (hP : Downward P) :
    ∀ {l : List α}, l.Pairwise (· ≤ ·) → ∀ {i : Nat} (hi : i < l.length),
      P l[i] = true ↔ i < l.countP P
  | [], _, _, hi => absurd hi (Nat.not_lt_zero _)
  | a :: l, hl, i, hi => by
      obtain ⟨hhead, htail⟩ := List.pairwise_cons.mp hl
      by_cases ha : P a = true
      · rw [List.countP_cons_of_pos ha]
        cases i with
        | zero => simp [ha]
        | succ i =>
            rw [Nat.succ_lt_succ_iff]
            exact get_iff_lt_countP hP htail (Nat.lt_of_succ_lt_succ hi)
      · have hnone : ∀ b ∈ a :: l, P b ≠ true := by
          intro b hb hPb
          rcases List.mem_cons.mp hb with rfl | hb
          · exact ha hPb
          · exact ha (hP a b (hhead b hb) hPb)
        rw [List.countP_eq_zero.mpr hnone]
        exact iff_of_false (hnone _ (List.getElem_mem hi)) (Nat.not_lt_zero i)

/-- So many elements lie up to the one at an index. -/
theorem lt_countP_le (hl : l.Pairwise (· ≤ ·)) (hi : i < l.length) :
    i < l.countP (· ≤ l[i]) :=
  (get_iff_lt_countP (downward_le _) hl hi).mp (decide_eq_true le_rfl)

/-- No more elements than these lie below the one at an index. -/
theorem countP_lt_le (hl : l.Pairwise (· ≤ ·)) (hi : i < l.length) :
    l.countP (· < l[i]) ≤ i := by
  by_contra h
  have hlt := (get_iff_lt_countP (downward_lt l[i]) hl hi).mpr (Nat.lt_of_not_le h)
  exact lt_irrefl _ (of_decide_eq_true hlt)

/-- So many elements lie from the one at an index on. -/
theorem length_le_add_countP (hl : l.Pairwise (· ≤ ·)) (hi : i < l.length) :
    l.length ≤ i + l.countP (l[i] ≤ ·) := by
  have hbelow := countP_lt_le hl hi
  have hsplit := List.length_eq_countP_add_countP (l := l) (· < l[i])
  have habove : l.countP (fun x => ¬ (decide (x < l[i]) = true)) = l.countP (l[i] ≤ ·) :=
    List.countP_congr fun x _ => by simp
  omega

theorem get_le_get (hl : l.Pairwise (· ≤ ·)) (hij : i ≤ j) (hj : j < l.length) :
    l[i] ≤ l[j] := by
  rcases Nat.eq_or_lt_of_le hij with rfl | hlt
  · exact le_rfl
  · exact List.pairwise_iff_getElem.mp hl i j _ hj hlt

/-- Some elements lie between two of them. -/
theorem exists_bounds (hne : l ≠ []) : ∃ lo ∈ l, ∃ hi ∈ l, ∀ x ∈ l, lo ≤ x ∧ x ≤ hi := by
  have hlength : 0 < (sorted l).length := by
    rw [length_sorted]
    exact List.length_pos_of_ne_nil hne
  have hlast : (sorted l).length - 1 < (sorted l).length := by omega
  refine ⟨(sorted l)[0], sorted_perm.mem_iff.mp (List.getElem_mem hlength),
    (sorted l)[(sorted l).length - 1], sorted_perm.mem_iff.mp (List.getElem_mem hlast),
    fun x hx => ?_⟩
  obtain ⟨i, hi, rfl⟩ := List.getElem_of_mem (sorted_perm.mem_iff.mpr hx)
  exact ⟨get_le_get pairwise_sorted (Nat.zero_le i) hi,
    get_le_get pairwise_sorted (Nat.le_sub_one_of_lt hi) hlast⟩

/-- **The element at an index** is the least one with more elements up to it than the index. -/
theorem isLeast_get (hl : l.Pairwise (· ≤ ·)) (hi : i < l.length) :
    IsLeast {v | v ∈ l ∧ i < l.countP (· ≤ v)} l[i] := by
  refine ⟨⟨List.getElem_mem hi, lt_countP_le hl hi⟩, fun v hv => ?_⟩
  exact of_decide_eq_true ((get_iff_lt_countP (downward_le v) hl hi).mpr hv.2)

/-! ### The greatest element -/

/-- Folding with the greater of two finds the greatest of all. -/
theorem isGreatest_foldl_max : ∀ (l : List α) (a : α),
    IsGreatest {v | v ∈ a :: l} (l.foldl max a)
  | [], a => ⟨List.mem_cons_self, fun v hv => by
      rcases List.mem_cons.mp hv with rfl | hv
      · exact le_rfl
      · cases hv⟩
  | b :: l, a => by
      obtain ⟨hmem, hbound⟩ := isGreatest_foldl_max l (max a b)
      rw [List.foldl_cons]
      refine ⟨?_, fun v hv => ?_⟩
      · rcases List.mem_cons.mp hmem with h | h
        · rcases max_choice a b with hmax | hmax
          · exact List.mem_cons.mpr (.inl (h.trans hmax))
          · exact List.mem_cons.mpr (.inr (List.mem_cons.mpr (.inl (h.trans hmax))))
        · exact List.mem_cons_of_mem _ (List.mem_cons_of_mem _ h)
      · have hfirst := hbound List.mem_cons_self
        rcases List.mem_cons.mp hv with rfl | hv
        · exact (le_max_left _ _).trans hfirst
        · rcases List.mem_cons.mp hv with rfl | hv
          · exact (le_max_right _ _).trans hfirst
          · exact hbound (List.mem_cons_of_mem _ hv)

end Rank
