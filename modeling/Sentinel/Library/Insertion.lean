import Mathlib.Data.List.DropRight
import Mathlib.Order.Lattice
import Mathlib.Tactic.Common

/-!
# Library — Insertion

Insertion into an array that is sorted by descending keys, with the keys in an array of their own.
`insert` is the loop as it is written over two arrays: from the end, every item with a smaller
key moves one place up, and the new item goes where the loop stops.

On the columns of a list of pairs it is `place`, which puts a pair behind the last one whose
key is not smaller (`insert_columns`); this keeps a sorted list sorted, and adds nothing else.
-/

namespace Insertion

variable {α κ : Type} [LinearOrder κ]

/-- The assignment `xs[i] = x`, of an array that grows when `i` is its length. -/
def assign (xs : List α) (i : Nat) (x : α) : List α :=
  if i < xs.length then xs.set i x else xs ++ [x]

/-- Moves the items below index `i` up while their keys are smaller: the index where this
stops, and the arrays. -/
def shift (key : κ) : Nat → List α → List κ → Nat × List α × List κ
  | 0, xs, ks => (0, xs, ks)
  | i + 1, xs, ks =>
      match xs[i]?, ks[i]? with
      | some x, some k =>
          if k < key then shift key i (assign xs (i + 1) x) (assign ks (i + 1) k)
          else (i + 1, xs, ks)
      | _, _ => (i + 1, xs, ks)

def insert (x : α) (key : κ) (arrays : List α × List κ) : List α × List κ :=
  let (i, xs, ks) := shift key arrays.2.length arrays.1 arrays.2
  (assign xs i x, assign ks i key)

/-- The pair behind the last one whose key is not smaller. -/
def place (item : α × κ) (l : List (α × κ)) : List (α × κ) :=
  l.rdropWhile (·.2 < item.2) ++ item :: l.rtakeWhile (·.2 < item.2)

/-- The two columns of a list of pairs. -/
def columns (l : List (α × κ)) : List α × List κ := (l.map Prod.fst, l.map Prod.snd)

/-! ### The loop -/

/-- The array is `a` and `b`, with a place between them that is free for an item. When `b` is
empty the place may be the one past the end. -/
def Gapped (a b xs : List α) : Prop := (b = [] ∧ xs = a) ∨ ∃ x, xs = a ++ x :: b

theorem assign_gapped {a b xs : List α} (h : Gapped a b xs) (x : α) :
    assign xs a.length x = a ++ x :: b := by
  unfold assign
  rcases h with ⟨rfl, rfl⟩ | ⟨y, rfl⟩
  · rw [if_neg (Nat.lt_irrefl _)]
  · rw [if_pos (by simp)]
    simp

theorem Gapped.get {a b xs : List α} {y : α} (h : Gapped (a ++ [y]) b xs) :
    xs[a.length]? = some y := by
  rcases h with ⟨-, rfl⟩ | ⟨x, rfl⟩ <;> simp

/-- Moving the last item before the place leaves the place before it. -/
theorem Gapped.assign {a b xs : List α} {y : α} (h : Gapped (a ++ [y]) b xs) :
    Gapped a (y :: b) (assign xs (a.length + 1) y) := by
  have hassign := assign_gapped h y
  rw [List.length_append, List.length_singleton] at hassign
  exact .inr ⟨y, by rw [hassign, List.append_assoc, List.singleton_append]⟩

theorem shift_columns (key : κ) (l : List (α × κ)) : ∀ (t : List (α × κ)) (xs : List α)
    (ks : List κ), Gapped (l.map Prod.fst) (t.map Prod.fst) xs →
      Gapped (l.map Prod.snd) (t.map Prod.snd) ks →
      ∃ xs' ks', shift key l.length xs ks = ((l.rdropWhile (·.2 < key)).length, xs', ks') ∧
        Gapped ((l.rdropWhile (·.2 < key)).map Prod.fst)
          ((l.rtakeWhile (·.2 < key) ++ t).map Prod.fst) xs' ∧
        Gapped ((l.rdropWhile (·.2 < key)).map Prod.snd)
          ((l.rtakeWhile (·.2 < key) ++ t).map Prod.snd) ks' := by
  induction l using List.reverseRecOn with
  | nil => exact fun t xs ks hxs hks => ⟨xs, ks, rfl, hxs, hks⟩
  | append_singleton l p ih =>
      intro t xs ks hxs hks
      rw [List.map_append] at hxs hks
      have hx : xs[l.length]? = some p.1 := by simpa using hxs.get
      have hk : ks[l.length]? = some p.2 := by simpa using hks.get
      rw [List.rdropWhile_concat, List.rtakeWhile_concat, List.length_append,
        List.length_singleton, shift, hx, hk]
      by_cases hlt : p.2 < key
      · -- the item moves up, and the loop goes on below it
        have hxs' := hxs.assign
        have hks' := hks.assign
        rw [List.length_map] at hxs' hks'
        simp only [hlt, if_true, decide_true]
        simpa using ih (p :: t) _ _ hxs' hks'
      · simp only [hlt, if_false, decide_false, Bool.false_eq_true, List.nil_append]
        rw [List.map_append, List.map_append]
        exact ⟨xs, ks, by simp, hxs, hks⟩

/-- The loop over two arrays puts a pair in its place. -/
theorem insert_columns (x : α) (key : κ) (l : List (α × κ)) :
    insert x key (columns l) = columns (place (x, key) l) := by
  obtain ⟨xs, ks, hshift, hxs, hks⟩ :=
    shift_columns key l [] (l.map Prod.fst) (l.map Prod.snd) (.inl ⟨rfl, rfl⟩) (.inl ⟨rfl, rfl⟩)
  have hx := assign_gapped hxs x
  have hk := assign_gapped hks key
  rw [List.length_map] at hx hk
  simp only [insert, columns, List.length_map, hshift, hx, hk, place, List.append_nil,
    List.map_append, List.map_cons]

/-! ### Sorted lists -/

/-- The keys do not ascend. -/
def Sorted (l : List (α × κ)) : Prop := l.Pairwise fun p q => q.2 ≤ p.2

theorem place_perm (item : α × κ) (l : List (α × κ)) : (place item l).Perm (item :: l) := by
  have hsplit : l.rdropWhile (·.2 < item.2) ++ l.rtakeWhile (·.2 < item.2) = l :=
    List.rdropWhile_append_rtakeWhile
  rw [place]
  exact List.perm_middle.trans (List.Perm.of_eq (congrArg (item :: ·) hsplit))

/-- In a sorted list, every key before the place is as great as the new one. -/
theorem le_of_mem_rdropWhile {key : κ} {l : List (α × κ)} (h : Sorted l) :
    ∀ p ∈ l.rdropWhile (·.2 < key), key ≤ p.2 := by
  induction l using List.reverseRecOn with
  | nil => simp
  | append_singleton l q ih =>
      obtain ⟨hl, -, hlast⟩ := List.pairwise_append.mp h
      rw [List.rdropWhile_concat]
      by_cases hlt : q.2 < key
      · simpa only [hlt, decide_true, if_true] using ih hl
      · have hq : key ≤ q.2 := not_lt.mp hlt
        simp only [hlt, decide_false, Bool.false_eq_true, if_false]
        intro p hp
        rcases List.mem_append.mp hp with hp | hp
        · exact hq.trans (hlast p hp q List.mem_cons_self)
        · rw [List.mem_singleton.mp hp]
          exact hq

theorem Sorted.place {item : α × κ} {l : List (α × κ)} (h : Sorted l) :
    Sorted (place item l) := by
  have hsplit : l.rdropWhile (·.2 < item.2) ++ l.rtakeWhile (·.2 < item.2) = l :=
    List.rdropWhile_append_rtakeWhile
  obtain ⟨hbefore, hbehind, hacross⟩ := List.pairwise_append.mp (hsplit ▸ h)
  refine List.pairwise_append.mpr ⟨hbefore, List.pairwise_cons.mpr ⟨?_, hbehind⟩, ?_⟩
  · intro q hq
    have hlt : q.2 < item.2 := by simpa using List.mem_rtakeWhile_imp hq
    exact hlt.le
  · intro p hp q hq
    rcases List.mem_cons.mp hq with rfl | hq
    · exact le_of_mem_rdropWhile h p hp
    · exact hacross p hp q hq

end Insertion
