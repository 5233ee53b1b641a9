import Mathlib.Data.Rat.Floor
import Sentinel.Api.Values
import Sentinel.Library.Rank

/-!
# Frontend — History

The rows of a monitor's history and what the page says of them
(`src/features/monitors/history/summary.ts`).

* `MonitorHistoryRow`: a row as the API sends it, as far as the page reads it.
* `summarizeMonitorHistory`: how many checks were healthy, the median and the 95th percentile of
  the latencies that are finite.
* `summary_exact`: both are the order statistics they are called, whatever the rows.
-/

namespace Sentinel.Frontend

open Api (Number)
open Rank

structure MonitorHistoryRow where
  id : Int
  state : String
  latency_ms : Option Number
  created_at : String
deriving DecidableEq

/-- The latency of a row, unless it is null or not finite. -/
def MonitorHistoryRow.finiteLatency (row : MonitorHistoryRow) : Option Rat :=
  match row.latency_ms with
  | some (.finite value) => some value
  | _ => none

/-- The latencies that are measured, in the order of the rows. -/
def samples (rows : List MonitorHistoryRow) : List Rat :=
  rows.filterMap MonitorHistoryRow.finiteLatency

structure MonitorHistorySummary where
  loadedCount : Nat
  healthyPercentage : Option Rat
  medianLatencyMs : Option Number
  p95LatencyMs : Option Number
deriving DecidableEq

/-- `values[index]`. What is read outside the array is `undefined`, which is not a number. -/
def read (values : List Rat) (index : Int) : Number :=
  if 0 ≤ index then (values[index.toNat]?).elim .nan .finite else .nan

/-- `(a + b) / 2`. -/
def mean : Number → Number → Number
  | .finite a, .finite b => .finite ((a + b) / 2)
  | _, _ => .nan

/-- `Math.floor(length / 2)`. -/
def middle (length : Nat) : Int := ⌊(length : Rat) / 2⌋

/-- `Math.ceil(0.95 * length) - 1`. -/
def rank95 (length : Nat) : Int := ⌈(19 / 20 : Rat) * length⌉ - 1

def medianOf (latencies : List Rat) : Option Number :=
  if latencies.length = 0 then none
  else if latencies.length % 2 = 0 then
    some (mean (read latencies (middle latencies.length - 1))
      (read latencies (middle latencies.length)))
  else some (read latencies (middle latencies.length))

def p95Of (latencies : List Rat) : Option Number :=
  if latencies.length = 0 then none else some (read latencies (rank95 latencies.length))

def summarizeMonitorHistory (rows : List MonitorHistoryRow) : MonitorHistorySummary :=
  let healthyCount := (rows.filter fun row => row.state = "healthy").length
  let latencies := sorted (samples rows)
  { loadedCount := rows.length
    healthyPercentage :=
      if rows.length = 0 then none else some ((healthyCount : Rat) / rows.length * 100)
    medianLatencyMs := medianOf latencies
    p95LatencyMs := p95Of latencies }

/-! ### Indices -/

theorem middle_eq (n : Nat) : middle n = (n / 2 : Nat) := by
  have h := Rat.floor_natCast_div_natCast n 2
  rw [middle]
  exact_mod_cast h

theorem rank95_add_one (n : Nat) : rank95 n + 1 = -(-(19 * n) / 20 : Int) := by
  have h := Rat.ceil_natCast_div_natCast (19 * n) 20
  have hcast : (19 / 20 : Rat) * n = ((19 * n : Nat) : Rat) / (20 : Nat) := by
    push_cast
    ring
  rw [rank95, hcast, h]
  push_cast
  ring

/-- The indices at which the sorted latencies are read, if there are any. -/
def indicesRead (n : Nat) : List Int :=
  (if n % 2 = 0 then [middle n - 1, middle n] else [middle n]) ++ [rank95 n]

theorem indicesRead_inside {n : Nat} (hn : 0 < n) :
    ∀ index ∈ indicesRead n, 0 ≤ index ∧ index < n := by
  have hmiddle := middle_eq n
  have hrank := rank95_add_one n
  intro index hindex
  rw [indicesRead, List.mem_append, List.mem_singleton] at hindex
  rcases hindex with hindex | rfl
  · split at hindex
    · simp only [List.mem_cons, List.not_mem_nil, or_false] at hindex
      omega
    · rw [List.mem_singleton] at hindex
      omega
  · omega

theorem read_natCast {values : List Rat} {i : Nat} (hi : i < values.length) :
    read values i = .finite values[i] := by
  rw [read, if_pos (Int.natCast_nonneg i), Int.toNat_natCast, List.getElem?_eq_getElem hi]
  rfl

/-! ### Order statistics -/

/-- `m` lies in the middle of `l`: half of the elements or more are no greater, and half or more
no less. For an even number of elements it is the mean of the two in the middle. -/
structure IsMedian (l : List Rat) (m : Rat) : Prop where
  below : l.length ≤ 2 * l.countP (· ≤ m)
  above : l.length ≤ 2 * l.countP (m ≤ ·)
  mean : l.length % 2 = 0 → ∀ s : List Rat, s.Perm l → s.Pairwise (· ≤ ·) →
    ∃ a b, s[l.length / 2 - 1]? = some a ∧ s[l.length / 2]? = some b ∧ m = (a + b) / 2

/-- `v` is the least element of `l` that 95 of 100 elements do not exceed. -/
def IsP95 (l : List Rat) (v : Rat) : Prop :=
  IsLeast {v | v ∈ l ∧ 95 * l.length ≤ 100 * l.countP (· ≤ v)} v

theorem IsMedian.perm {l s : List Rat} {m : Rat} (h : IsMedian s m) (hperm : s.Perm l) :
    IsMedian l m := by
  obtain ⟨hbelow, habove, hmean⟩ := h
  rw [hperm.length_eq, hperm.countP_eq] at hbelow habove
  rw [hperm.length_eq] at hmean
  exact ⟨hbelow, habove, fun heven t ht => hmean heven t (ht.trans hperm.symm)⟩

theorem IsP95.perm {l s : List Rat} {v : Rat} (h : IsP95 s v) (hperm : s.Perm l) : IsP95 l v := by
  simpa only [IsP95, hperm.mem_iff, hperm.length_eq, hperm.countP_eq] using h

variable {latencies : List Rat}

/-- No fewer elements are up to a greater bound. -/
theorem countP_le_mono {a b : Rat} (hab : a ≤ b) :
    latencies.countP (· ≤ a) ≤ latencies.countP (· ≤ b) :=
  List.countP_mono_left fun _ _ h => decide_eq_true ((of_decide_eq_true h).trans hab)

theorem countP_ge_mono {a b : Rat} (hab : a ≤ b) :
    latencies.countP (b ≤ ·) ≤ latencies.countP (a ≤ ·) :=
  List.countP_mono_left fun _ _ h => decide_eq_true (hab.trans (of_decide_eq_true h))

theorem medianOf_spec (hl : latencies.Pairwise (· ≤ ·)) (hne : latencies ≠ []) :
    ∃ m, medianOf latencies = some (.finite m) ∧ IsMedian latencies m := by
  have hn : 0 < latencies.length := List.length_pos_of_ne_nil hne
  have hj : latencies.length / 2 < latencies.length := by omega
  by_cases heven : latencies.length % 2 = 0
  · have hi : latencies.length / 2 - 1 < latencies.length := by omega
    have hindex : middle latencies.length - 1 = (latencies.length / 2 - 1 : Nat) := by
      rw [middle_eq]
      omega
    have hle := get_le_get hl (Nat.sub_le (latencies.length / 2) 1) hj
    have hbelow := (lt_countP_le hl hi).trans_le
      (countP_le_mono (b := (latencies[latencies.length / 2 - 1] +
        latencies[latencies.length / 2]) / 2) (by linarith))
    have habove := (length_le_add_countP hl hj).trans (Nat.add_le_add_left
      (countP_ge_mono (a := (latencies[latencies.length / 2 - 1] +
        latencies[latencies.length / 2]) / 2) (by linarith)) _)
    refine ⟨(latencies[latencies.length / 2 - 1] + latencies[latencies.length / 2]) / 2, ?_, ?_⟩
    · rw [medianOf, if_neg (by omega), if_pos heven, hindex, middle_eq, read_natCast hi,
        read_natCast hj]
      rfl
    · refine ⟨by omega, by omega, fun _ s hperm hs => ?_⟩
      obtain rfl := hperm.eq_of_pairwise (fun _ _ _ _ => le_antisymm) hs hl
      exact ⟨_, _, List.getElem?_eq_getElem hi, List.getElem?_eq_getElem hj, rfl⟩
  · have hbelow := lt_countP_le hl hj
    have habove := length_le_add_countP hl hj
    refine ⟨latencies[latencies.length / 2], ?_, ?_⟩
    · rw [medianOf, if_neg (by omega), if_neg heven, middle_eq, read_natCast hj]
    · exact ⟨by omega, by omega, fun h => absurd h heven⟩

theorem p95Of_spec (hl : latencies.Pairwise (· ≤ ·)) (hne : latencies ≠ []) :
    ∃ v, p95Of latencies = some (.finite v) ∧ IsP95 latencies v := by
  have hn : 0 < latencies.length := List.length_pos_of_ne_nil hne
  have hrank := rank95_add_one latencies.length
  obtain ⟨i, hi⟩ : ∃ i : Nat, rank95 latencies.length = i := Int.eq_ofNat_of_zero_le (by omega)
  rw [hi] at hrank
  have hinside : i < latencies.length := by omega
  refine ⟨latencies[i], ?_, ?_⟩
  · rw [p95Of, if_neg (by omega), hi, read_natCast hinside]
  · -- so many elements are up to `v` if and only if there are more than the index
    have hcount : ∀ c : Nat, 95 * latencies.length ≤ 100 * c ↔ i < c := by omega
    simpa only [IsP95, hcount] using isLeast_get hl hinside

/-- The median is no greater than the 95th percentile. -/
theorem IsMedian.le_p95 {l : List Rat} {m v : Rat} (hne : l ≠ []) (hm : IsMedian l m)
    (hv : IsP95 l v) : m ≤ v := by
  by_contra hlt
  have hn : 0 < l.length := List.length_pos_of_ne_nil hne
  have habove := hm.above
  have hrank : 95 * l.length ≤ 100 * l.countP (· ≤ v) := hv.1.2
  have hsplit := List.length_eq_countP_add_countP (l := l) (· ≤ v)
  have hrest : l.countP (m ≤ ·) ≤ l.countP fun x => ¬ (decide (x ≤ v) = true) := by
    refine List.countP_mono_left fun x _ hx => ?_
    simpa using lt_of_lt_of_le (not_le.mp hlt) (of_decide_eq_true hx)
  omega

/-- The samples lie between two of them, and the median and the percentile as well. -/
theorem IsMedian.ordered {l : List Rat} {m v : Rat} (hne : l ≠ []) (hm : IsMedian l m)
    (hv : IsP95 l v) : ∃ lo ∈ l, ∃ hi ∈ l, (∀ x ∈ l, lo ≤ x ∧ x ≤ hi) ∧
      lo ≤ m ∧ m ≤ v ∧ v ≤ hi := by
  have hn : 0 < l.length := List.length_pos_of_ne_nil hne
  have hbelow := hm.below
  obtain ⟨lo, hlo, hi, hhi, hbounds⟩ := exists_bounds hne
  obtain ⟨x, hx, hxm⟩ := List.countP_pos_iff.mp (show 0 < l.countP (· ≤ m) by omega)
  exact ⟨lo, hlo, hi, hhi, hbounds, (hbounds x hx).1.trans (of_decide_eq_true hxm),
    hm.le_p95 hne hv, (hbounds v hv.1.1).2⟩

/-! ### The summary -/

/-- What the summary of some rows is to say. -/
structure IsSummary (rows : List MonitorHistoryRow) (summary : MonitorHistorySummary) : Prop where
  loaded : summary.loadedCount = rows.length
  healthy_null : summary.healthyPercentage = none ↔ rows = []
  healthy_bounds : ∀ q ∈ summary.healthyPercentage, 0 ≤ q ∧ q ≤ 100
  median_null : summary.medianLatencyMs = none ↔ samples rows = []
  p95_null : summary.p95LatencyMs = none ↔ samples rows = []
  measured : samples rows ≠ [] → ∃ m v, summary.medianLatencyMs = some (.finite m) ∧
    summary.p95LatencyMs = some (.finite v) ∧ IsMedian (samples rows) m ∧ IsP95 (samples rows) v ∧
      ∃ lo ∈ samples rows, ∃ hi ∈ samples rows, (∀ x ∈ samples rows, lo ≤ x ∧ x ≤ hi) ∧
        lo ≤ m ∧ m ≤ v ∧ v ≤ hi

theorem healthy_bounds {count total : Nat} (hle : count ≤ total) (htotal : 0 < total) :
    0 ≤ (count : Rat) / total * 100 ∧ (count : Rat) / total * 100 ≤ 100 := by
  have hpos : (0 : Rat) < total := by exact_mod_cast htotal
  have hratio : (count : Rat) / total ≤ 1 := (div_le_one hpos).mpr (by exact_mod_cast hle)
  have hnonneg : 0 ≤ (count : Rat) / total := by positivity
  constructor <;> linarith

theorem sorted_ne_nil {l : List Rat} : sorted l ≠ [] ↔ l ≠ [] := by
  rw [ne_eq, ← List.length_eq_zero_iff, length_sorted, List.length_eq_zero_iff]

theorem medianOf_null : medianOf latencies = none ↔ latencies = [] := by
  rw [medianOf, ← List.length_eq_zero_iff]
  split
  · simp [*]
  · split <;> simp [*]

theorem p95Of_null : p95Of latencies = none ↔ latencies = [] := by
  rw [p95Of, ← List.length_eq_zero_iff]
  split <;> simp [*]

theorem summarize_isSummary (rows : List MonitorHistoryRow) :
    IsSummary rows (summarizeMonitorHistory rows) where
  loaded := rfl
  healthy_null := by
    simp only [summarizeMonitorHistory, List.length_eq_zero_iff]
    split <;> simp [*]
  healthy_bounds := fun q hq => by
    simp only [summarizeMonitorHistory] at hq
    split at hq
    · cases hq
    · obtain rfl := Option.some.inj hq
      exact healthy_bounds (List.length_filter_le _ _) (by omega)
  median_null := medianOf_null.trans (not_iff_not.mp sorted_ne_nil)
  p95_null := p95Of_null.trans (not_iff_not.mp sorted_ne_nil)
  measured := fun hne => by
    have hsorted := sorted_ne_nil.mpr hne
    obtain ⟨m, hmedian, hm⟩ := medianOf_spec pairwise_sorted hsorted
    obtain ⟨v, hp95, hv⟩ := p95Of_spec pairwise_sorted hsorted
    have hm' := hm.perm sorted_perm
    have hv' := hv.perm sorted_perm
    exact ⟨m, v, hmedian, hp95, hm', hv', hm'.ordered hne hv'⟩

/-- **The statistics of the history** are the order statistics they are called: of the latencies
that are measured, the median and the 95th percentile by nearest rank; nothing is read outside the
array; and the order of the rows does not matter. -/
theorem summary_exact (rows : List MonitorHistoryRow) :
    IsSummary rows (summarizeMonitorHistory rows) ∧
      (samples rows ≠ [] → ∀ index ∈ indicesRead (samples rows).length,
        0 ≤ index ∧ index < (samples rows).length) ∧
      ∀ rows', rows'.Perm rows → summarizeMonitorHistory rows' = summarizeMonitorHistory rows := by
  refine ⟨summarize_isSummary rows, fun hne => ?_, fun rows' hperm => ?_⟩
  · exact indicesRead_inside (List.length_pos_of_ne_nil hne)
  · have hsamples : sorted (samples rows') = sorted (samples rows) :=
      sorted_congr (hperm.filterMap _)
    simp only [summarizeMonitorHistory, hsamples, hperm.length_eq, (hperm.filter _).length_eq]

end Sentinel.Frontend
