import Mathlib.Data.List.Nodup
import Mathlib.Tactic.Common

/-!
# Library — Sweep

Rows that are removed in batches. Of the rows that meet a condition, a batch removes the first ones
of an order, up to a number.

* `due`: the rows that meet the condition, in order. `sweep` removes the first `n` of them.
* `due_sweep`, `sweep_sweep`: what is due after a batch, so that two batches are one.
* `sweep_all`: a batch that is large enough removes all that is due.
* `sweeps`: batches whose conditions differ, of which each removes only what it may.
* `mem_take_due`: with a row, a batch removes what comes before it. `filter_suffix` is for what is
  left then.
-/

namespace Sweep

variable {α : Type} {le : α → α → Bool} {p : α → Bool} {n m : Nat} {rows : List α}

/-- A linear order. -/
structure Linear (le : α → α → Bool) : Prop where
  trans : ∀ a b c, le a b = true → le b c = true → le a c = true
  total : ∀ a b, (le a b || le b a) = true
  antisymm : ∀ a b, le a b = true → le b a = true → a = b

/-- The rows that meet the condition, in order. -/
def due (le : α → α → Bool) (p : α → Bool) (rows : List α) : List α := (rows.mergeSort le).filter p

theorem mem_due {a : α} : a ∈ due le p rows ↔ a ∈ rows ∧ p a = true := by
  rw [due, List.mem_filter, List.mem_mergeSort]

theorem length_due : (due le p rows).length = (rows.filter p).length :=
  ((List.mergeSort_perm rows le).filter p).length_eq

theorem nodup_due (hrows : rows.Nodup) : (due le p rows).Nodup :=
  ((List.mergeSort_perm rows le).nodup_iff.mpr hrows).filter p

/-- With a row, a batch removes the rows before it that meet the condition. -/
theorem mem_take_due (hle : Linear le) {a b : α} (hb : b ∈ (due le p rows).take n)
    (ha : a ∈ rows) (hp : p a = true) (hab : le a b = true) : a ∈ (due le p rows).take n := by
  have hsorted : (due le p rows).Pairwise fun a b => le a b = true :=
    (List.pairwise_mergeSort hle.trans hle.total rows).filter p
  have hmem : a ∈ due le p rows := mem_due.mpr ⟨ha, hp⟩
  rw [← List.take_append_drop n (due le p rows)] at hsorted hmem
  rcases List.mem_append.mp hmem with hmem | hmem
  · exact hmem
  · -- it comes after the other as well, so it is the other
    have hba := (List.pairwise_append.mp hsorted).2.2 b hb a hmem
    exact hle.antisymm a b hab hba ▸ hb

/-- Of rows that are kept if one before them is, the last are kept. -/
theorem filter_suffix : ∀ {rows : List α}, (rows.Pairwise fun a b => p a = true → p b = true) →
    rows.filter p <:+ rows
  | [], _ => List.suffix_refl _
  | a :: rows, h => by
      obtain ⟨hhead, htail⟩ := List.pairwise_cons.mp h
      by_cases ha : p a = true
      · have hall : ∀ b ∈ a :: rows, p b = true := by
          intro b hb
          rcases List.mem_cons.mp hb with rfl | hb
          · exact ha
          · exact hhead b hb ha
        exact ⟨[], List.filter_eq_self.mpr hall⟩
      · rw [List.filter_cons_of_neg ha]
        exact (filter_suffix htail).trans (List.suffix_cons a rows)

/-- What is left of some rows in order is what is left of them, in order. -/
theorem mergeSort_filter (hle : Linear le) (q : α → Bool) (rows : List α) :
    (rows.filter q).mergeSort le = (rows.mergeSort le).filter q := by
  have hsorted : ∀ rows : List α, (rows.mergeSort le).Pairwise fun a b => le a b = true :=
    List.pairwise_mergeSort hle.trans hle.total
  have hperm : ((rows.filter q).mergeSort le).Perm ((rows.mergeSort le).filter q) :=
    (List.mergeSort_perm _ _).trans ((List.mergeSort_perm _ _).symm.filter q)
  exact hperm.eq_of_pairwise (fun a b _ _ => hle.antisymm a b) (hsorted _) ((hsorted _).filter q)

variable [DecidableEq α]

/-- The first `n` rows that meet the condition are removed. -/
def sweep (le : α → α → Bool) (p : α → Bool) (n : Nat) (rows : List α) : List α :=
  rows.filter (· ∉ (due le p rows).take n)

theorem sweep_zero : sweep le p 0 rows = rows :=
  List.filter_eq_self.mpr fun _ _ => decide_eq_true List.not_mem_nil

theorem sweep_sublist : (sweep le p n rows).Sublist rows := List.filter_sublist

/-- A row that is removed met the condition. -/
theorem of_not_mem_sweep {a : α} (ha : a ∈ rows) (hgone : a ∉ sweep le p n rows) : p a = true := by
  have hmem : a ∈ (due le p rows).take n := by
    by_contra hnot
    exact hgone (List.mem_filter.mpr ⟨ha, decide_eq_true hnot⟩)
  exact (mem_due.mp (List.mem_of_mem_take hmem)).2

/-- No more than `n` rows are removed. -/
theorem length_sweep (hrows : rows.Nodup) : rows.length ≤ (sweep le p n rows).length + n := by
  have hsplit := List.length_eq_length_filter_add (l := rows) (· ∉ (due le p rows).take n)
  have hremoved : (rows.filter fun a => !decide (a ∉ (due le p rows).take n)).length ≤ n := by
    refine Nat.le_trans (List.Nodup.length_le_of_subset (hrows.filter _) fun a ha => ?_)
      (List.length_take_le n (due le p rows))
    simpa using (List.mem_filter.mp ha).2
  rw [sweep]
  omega

/-- What is left of distinct rows after the first ones. -/
theorem filter_not_mem_take : ∀ {rows : List α}, rows.Nodup → ∀ n,
    rows.filter (· ∉ rows.take n) = rows.drop n := by
  intro rows hrows n
  conv_lhs => rw [← List.take_append_drop n rows]
  rw [List.filter_append, List.filter_eq_nil_iff.mpr, List.nil_append, List.filter_eq_self.mpr]
  · intro a ha
    rw [List.take_append_drop]
    exact decide_eq_true fun hmem => (List.disjoint_take_drop hrows (Nat.le_refl n)) hmem ha
  · intro a ha
    rw [List.take_append_drop]
    simpa using ha

theorem due_sweep (hle : Linear le) (hrows : rows.Nodup) :
    due le p (sweep le p n rows) = (due le p rows).drop n := by
  rw [due, sweep, mergeSort_filter hle, List.filter_comm]
  exact filter_not_mem_take (nodup_due hrows) n

/-- **Two batches are one.** -/
theorem sweep_sweep (hle : Linear le) (hrows : rows.Nodup) :
    sweep le p m (sweep le p n rows) = sweep le p (n + m) rows := by
  rw [sweep, due_sweep hle hrows, sweep, sweep, List.filter_filter]
  refine List.filter_congr fun a _ => ?_
  simp only [List.take_add, List.mem_append, not_or, Bool.decide_and, Bool.and_comm]

/-- **A batch that is large enough** removes all that is due. -/
theorem sweep_all (hn : (due le p rows).length ≤ n) : sweep le p n rows = rows.filter (!p ·) := by
  refine List.filter_congr fun a ha => ?_
  simp only [List.take_of_length_le hn, mem_due, ha, true_and, Bool.not_eq_true]
  cases p a <;> rfl

/-- Batches with a condition each. -/
def sweeps (le : α → α → Bool) (n : Nat) (ps : List (α → Bool)) (rows : List α) : List α :=
  ps.foldl (fun rows p => sweep le p n rows) rows

/-- A row that the batches remove met the condition of one of them. -/
theorem of_not_mem_sweeps {a : α} : ∀ {ps : List (α → Bool)} {rows : List α}, a ∈ rows →
    a ∉ sweeps le n ps rows → ∃ p ∈ ps, p a = true
  | [], _, ha, hgone => absurd ha hgone
  | p :: ps, rows, ha, hgone => by
      by_cases hfirst : a ∈ sweep le p n rows
      · obtain ⟨q, hq, ha⟩ := of_not_mem_sweeps hfirst hgone
        exact ⟨q, List.mem_cons_of_mem _ hq, ha⟩
      · exact ⟨p, List.mem_cons_self, of_not_mem_sweep ha hfirst⟩

theorem length_sweeps : ∀ {ps : List (α → Bool)} {rows : List α}, rows.Nodup →
    rows.length ≤ (sweeps le n ps rows).length + ps.length * n
  | [], _, _ => by simp [sweeps]
  | p :: ps, rows, hrows => by
      have hfirst : rows.length ≤ (sweep le p n rows).length + n := length_sweep hrows
      have hrest : (sweep le p n rows).length ≤
          (sweeps le n ps (sweep le p n rows)).length + ps.length * n :=
        length_sweeps (sweep_sublist.nodup hrows)
      rw [List.length_cons, Nat.add_mul, Nat.one_mul]
      show _ ≤ (sweeps le n ps (sweep le p n rows)).length + _
      omega

end Sweep
