import Mathlib.Data.List.SplitBy
import Mathlib.Data.List.Nodup

/-!
# Library — Runs

A list cut into runs. A run ends before each element that the one before it is not joined to, and
of each run only some elements are kept.

* `runs`: the runs of a list, without those of which nothing is kept.
* `flatten_runs`: together they are what is kept of the list, in its order.
* `isChain_of_together`, `together_of_isChain`: two elements are in one run when all between them
  are joined.
* `runs_of_isChain`, `runs_append_cons`: the runs as they are found from left to right.
-/

namespace Runs

variable {α : Type} {joined : α → α → Bool} {keep : α → Bool} {l m run : List α} {a x y : α}

/-- The runs of a list, of each what is kept. -/
def runs (joined : α → α → Bool) (keep : α → Bool) (l : List α) : List (List α) :=
  ((l.splitBy joined).map (List.filter keep)).filter (· ≠ [])

theorem mem_runs : run ∈ runs joined keep l ↔
    ∃ block ∈ l.splitBy joined, block.filter keep = run ∧ run ≠ [] := by
  simp only [runs, List.mem_filter, List.mem_map, decide_eq_true_eq]
  constructor
  · rintro ⟨⟨block, hblock, hrun⟩, hne⟩
    exact ⟨block, hblock, hrun, hne⟩
  · rintro ⟨block, hblock, hrun, hne⟩
    exact ⟨⟨block, hblock, hrun⟩, hne⟩

theorem nil_not_mem_runs : [] ∉ runs joined keep l := fun h => by
  obtain ⟨-, -, -, hne⟩ := mem_runs.mp h
  exact hne rfl

theorem flatten_runs : (runs joined keep l).flatten = l.filter keep := by
  rw [runs, List.flatten_filter_ne_nil, ← List.filter_flatten, List.flatten_splitBy]

/-! ### Two elements in one run -/

/-- The blocks of a list before, at and after one of them. -/
theorem splitBy_eq_append {block : List α} (h : block ∈ l.splitBy joined) :
    ∃ before after, l = before ++ block ++ after ∧
      ∀ y ∈ after.head?, ∀ z ∈ block.getLast?, joined z y = false := by
  obtain ⟨bs, cs, hsplit⟩ := List.append_of_mem h
  have hchain := List.isChain_getLast_head_splitBy joined l
  have hl := List.flatten_splitBy joined l
  rw [hsplit] at hchain hl
  refine ⟨bs.flatten, cs.flatten, by simpa using hl.symm, fun y hy z hz => ?_⟩
  cases cs with
  | nil => cases hy
  | cons c cs =>
      obtain ⟨hb, hc, hjoin⟩ := (List.isChain_append_cons_cons.mp hchain).2.1
      rw [List.flatten_cons, List.head?_append_of_ne_nil _ hc, List.head?_eq_some_head hc] at hy
      rw [List.getLast?_eq_some_getLast hb] at hz
      obtain rfl := Option.some.inj hy
      obtain rfl := Option.some.inj hz
      exact hjoin

/-- Where the first element of a list's end stands, if the list is cut in two elsewhere. -/
theorem append_cons_cases {b₂ after mid post : List α} (h : mid ++ y :: post = b₂ ++ after) :
    (∃ d, b₂ = mid ++ y :: d) ∨ ∃ c, mid = b₂ ++ c ∧ after = c ++ y :: post := by
  rcases List.append_eq_append_iff.mp h with ⟨as, hb, hy⟩ | ⟨bs, hmid, hafter⟩
  · cases as with
    | nil => exact .inr ⟨[], by simpa using hb.symm, by simpa using hy.symm⟩
    | cons z as =>
        obtain ⟨rfl, -⟩ := List.cons.inj hy
        exact .inl ⟨as, hb⟩
  · exact .inr ⟨bs, hmid, hafter⟩

/-- From one element of a block to a later one of the list: that one is in the block if all
between them are joined. -/
theorem mem_block_iff {pre mid post block : List α}
    (hl : (pre ++ x :: (mid ++ y :: post)).Nodup)
    (hblock : block ∈ (pre ++ x :: (mid ++ y :: post)).splitBy joined) (hx : x ∈ block) :
    y ∈ block ↔ (x :: (mid ++ [y])).IsChain fun a b => joined a b = true := by
  obtain ⟨before, after, hcut, hend⟩ := splitBy_eq_append hblock
  have hchain := List.isChain_of_mem_splitBy hblock
  obtain ⟨b₁, b₂, rfl⟩ := List.append_of_mem hx
  have hcut' : pre ++ x :: (mid ++ y :: post) = (before ++ b₁) ++ x :: (b₂ ++ after) := by
    rw [hcut]
    simp
  -- `x` stands in one place only, so what follows it in its block is what follows it in the list
  obtain ⟨hx₁, hx₂⟩ := not_or.mp (List.mem_append.not.mp (List.nodup_middle.mp hl).notMem)
  obtain ⟨rfl, -, hrest⟩ := (List.append_cons_inj_of_notMem hx₁ hx₂).mp hcut'
  rcases append_cons_cases hrest with ⟨d, rfl⟩ | ⟨c, rfl, rfl⟩
  · have hparts : b₁ ++ x :: (mid ++ y :: d) = b₁ ++ (x :: (mid ++ [y]) ++ d) := by simp
    rw [hparts] at hchain
    exact iff_of_true (by simp) hchain.right_of_append.left_of_append
  · have hyafter : y ∈ c ++ y :: post := by simp
    have hnot : y ∉ b₁ ++ x :: b₂ := fun hy => by
      rw [hcut, List.nodup_append'] at hl
      exact hl.2.2 (List.mem_append_right _ hy) hyafter
    refine iff_of_false hnot fun hall => ?_
    -- the last of the block is not joined to the element after it
    obtain ⟨z, hz⟩ : ∃ z, z ∈ (c ++ [y]).head? := ⟨_, List.head?_eq_some_head (by simp)⟩
    obtain ⟨w, hw⟩ : ∃ w, w ∈ (x :: b₂).getLast? := ⟨_, List.getLast?_eq_some_getLast (by simp)⟩
    have hunjoined : joined w z = false := by
      refine hend z ?_ w ?_
      · cases c <;> exact hz
      · rw [List.getLast?_append, hw]
        rfl
    rw [List.append_assoc, ← List.cons_append] at hall
    have hjoined : joined w z = true := (List.isChain_append.mp hall).2.2 w hw z hz
    exact Bool.false_ne_true (hunjoined.symm.trans hjoined)

/-- **Two elements of one run**: each element from the one to the other is joined to the next. -/
theorem isChain_of_together {pre mid post : List α}
    (hl : (pre ++ x :: (mid ++ y :: post)).Nodup)
    (h : ∃ run ∈ runs joined keep (pre ++ x :: (mid ++ y :: post)), x ∈ run ∧ y ∈ run) :
    (x :: (mid ++ [y])).IsChain fun a b => joined a b = true := by
  obtain ⟨run, hrun, hxrun, hyrun⟩ := h
  obtain ⟨block, hblock, rfl, -⟩ := mem_runs.mp hrun
  exact (mem_block_iff hl hblock (List.mem_of_mem_filter hxrun)).mp (List.mem_of_mem_filter hyrun)

/-- **Elements that are joined** from one that is kept to another are of one run. -/
theorem together_of_isChain {pre mid post : List α}
    (hl : (pre ++ x :: (mid ++ y :: post)).Nodup) (hx : keep x = true) (hy : keep y = true)
    (hchain : (x :: (mid ++ [y])).IsChain fun a b => joined a b = true) :
    ∃ run ∈ runs joined keep (pre ++ x :: (mid ++ y :: post)), x ∈ run ∧ y ∈ run := by
  have hxmem : x ∈ ((pre ++ x :: (mid ++ y :: post)).splitBy joined).flatten := by
    rw [List.flatten_splitBy]
    exact List.mem_append_right _ List.mem_cons_self
  obtain ⟨block, hblock, hxblock⟩ := List.mem_flatten.mp hxmem
  have hyblock := (mem_block_iff hl hblock hxblock).mpr hchain
  have hxkept : x ∈ block.filter keep := List.mem_filter.mpr ⟨hxblock, hx⟩
  exact ⟨block.filter keep, mem_runs.mpr ⟨block, hblock, rfl, List.ne_nil_of_mem hxkept⟩, hxkept,
    List.mem_filter.mpr ⟨hyblock, hy⟩⟩

/-- In joined elements there is one before each but the first. -/
theorem exists_joined : ∀ {l : List α} {x : α}, (x :: l).IsChain (fun a b => joined a b = true) →
    ∀ u ∈ l, ∃ a, joined a u = true
  | b :: l, x, hchain, u, hu => by
      obtain ⟨hxb, hrest⟩ := List.isChain_cons_cons.mp hchain
      rcases List.mem_cons.mp hu with rfl | hu
      · exact ⟨x, hxb⟩
      · exact exists_joined hrest u hu

/-! ### The runs as they are found from left to right -/

/-- A list that is all joined is one run. -/
theorem runs_of_isChain (hl : l ≠ []) (h : l.IsChain fun a b => joined a b = true) :
    runs joined keep l = [l.filter keep].filter (· ≠ []) := by
  rw [runs, List.splitBy_of_isChain hl h, List.map_singleton]

/-- A run ends before an element that the last one is not joined to. -/
theorem runs_append_cons (h : ∀ b ∈ l.getLast?, joined b a = false) :
    runs joined keep (l ++ a :: m) = runs joined keep l ++ runs joined keep (a :: m) := by
  rw [runs, List.splitBy_append_cons m h, List.map_append, List.filter_append]
  rfl

end Runs
