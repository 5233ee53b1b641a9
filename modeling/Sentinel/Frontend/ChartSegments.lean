import Sentinel.Frontend.Chart
import Sentinel.Library.Runs

/-!
# Frontend — ChartSegments

What the pass over the points of the latency chart makes of them.

* `ordered_perm`, `ordered_pairwise`, `ordered_invalid`: the rows by time, and the rows without a
  valid time as they came.
* `walk_flush`: the segments are the runs of the points, each point joined to the next that can be
  drawn and comes in time.
* `walk_gaps`: the gaps are those between successive points.
* `segmentation_exact`: both together, for all rows, frequencies and widths.
-/

namespace Sentinel.Frontend

open Api (Number)
open Runs

variable {parseDate : String → Option Int} {rows : List MonitorHistoryRow}

/-! ### The rows in order -/

theorem Item.compare_trans {a b c : Item} (hab : a.compare b ≤ 0) (hbc : b.compare c ≤ 0) :
    a.compare c ≤ 0 := by
  unfold Item.compare at *
  cases ha : a.timestamp <;> cases hb : b.timestamp <;> cases hc : c.timestamp <;>
    simp only [ha, hb, hc] at * <;> grind

theorem Item.compare_total (a b : Item) : a.compare b ≤ 0 ∨ b.compare a ≤ 0 := by
  unfold Item.compare
  cases ha : a.timestamp <;> cases hb : b.timestamp <;> simp only <;> grind

theorem ordered_perm : (ordered parseDate rows).Perm (items parseDate rows) :=
  List.mergeSort_perm _ _

theorem compare_le_trans (a b c : Item) (hab : decide (a.compare b ≤ 0) = true)
    (hbc : decide (b.compare c ≤ 0) = true) : decide (a.compare c ≤ 0) = true :=
  decide_eq_true (Item.compare_trans (of_decide_eq_true hab) (of_decide_eq_true hbc))

theorem compare_le_total (a b : Item) :
    (decide (a.compare b ≤ 0) || decide (b.compare a ≤ 0)) = true := by
  simpa using Item.compare_total a b

theorem ordered_pairwise :
    (ordered parseDate rows).Pairwise fun a b => a.compare b ≤ 0 :=
  (List.pairwise_mergeSort compare_le_trans compare_le_total _).imp of_decide_eq_true

theorem items_rows : (items parseDate rows).map Item.row = rows := by
  rw [items, List.map_map]
  exact List.zipIdx_map_fst 0 rows

theorem ordered_rows : ((ordered parseDate rows).map Item.row).Perm rows := by
  have h : ((ordered parseDate rows).map Item.row).Perm ((items parseDate rows).map Item.row) :=
    ordered_perm.map Item.row
  rwa [items_rows] at h

theorem timestamp_ordered {item : Item} (h : item ∈ ordered parseDate rows) :
    item.timestamp = parseDate item.row.created_at := by
  obtain ⟨r, -, rfl⟩ := List.mem_map.mp (ordered_perm.mem_iff.mp h)
  rfl

/-- What holds of no element after one it does not hold of holds of the first elements. -/
theorem eq_filter_append {α : Type} {q : α → Bool} :
    ∀ {l : List α}, l.Pairwise (fun a b => q b = true → q a = true) →
      l = l.filter q ++ l.filter fun a => !q a
  | [], _ => rfl
  | a :: l, h => by
      obtain ⟨hhead, htail⟩ := List.pairwise_cons.mp h
      have ih := eq_filter_append htail
      by_cases ha : q a = true
      · rw [List.filter_cons_of_pos ha, List.filter_cons_of_neg (by simp [ha]), List.cons_append,
          ← ih]
      · have hnone : l.filter q = [] :=
          List.filter_eq_nil_iff.mpr fun b hb hq => ha (hhead b hb hq)
        have hall : (l.filter fun a => !q a) = l :=
          List.filter_eq_self.mpr fun b hb => by simpa using fun hq => ha (hhead b hb hq)
        rw [List.filter_cons_of_neg ha, List.filter_cons_of_pos (by simp [ha]), hnone, hall,
          List.nil_append]

/-- The rows without a valid time come last. -/
theorem ordered_valid_first : ordered parseDate rows =
    (ordered parseDate rows).filter (fun item => item.timestamp.isSome) ++
      (ordered parseDate rows).filter fun item => !item.timestamp.isSome := by
  refine eq_filter_append (ordered_pairwise.imp fun {a b} hab hb => ?_)
  obtain ⟨t, ht⟩ := Option.isSome_iff_exists.mp hb
  cases ha : a.timestamp with
  | none => simp [Item.compare, ha, ht] at hab
  | some s => rfl

theorem pairwise_index : (items parseDate rows).Pairwise fun a b => a.index < b.index := by
  have hindex : (items parseDate rows).map Item.index = List.range rows.length := by
    rw [items, List.map_map, List.range_eq_range']
    exact List.zipIdx_map_snd 0 rows
  have hrange := hindex ▸ List.pairwise_lt_range (n := rows.length)
  exact List.pairwise_map.mp hrange

/-- The rows without a valid time keep the order in which they came. -/
theorem ordered_invalid :
    ((ordered parseDate rows).filter fun item => !item.timestamp.isSome).map Item.row =
      rows.filter fun row => !(parseDate row.created_at).isSome := by
  have hsorted : ((items parseDate rows).filter fun item => !item.timestamp.isSome).Pairwise
      fun a b => decide (a.compare b ≤ 0) = true := by
    refine (pairwise_index.filter _).imp_of_mem fun {a b} ha hb hlt => ?_
    have ha : a.timestamp = none := by simpa using (List.mem_filter.mp ha).2
    have hb : b.timestamp = none := by simpa using (List.mem_filter.mp hb).2
    simp only [Item.compare, ha, hb, decide_eq_true_eq]
    omega
  -- the sort is stable, so what is in order already comes out as it is
  have hsub : ((items parseDate rows).filter fun item => !item.timestamp.isSome).Sublist
      ((ordered parseDate rows).filter fun item => !item.timestamp.isSome) := by
    have h := (List.sublist_mergeSort compare_le_trans compare_le_total hsorted
      List.filter_sublist).filter fun item => !item.timestamp.isSome
    rwa [List.filter_filter, List.filter_congr fun item _ => Bool.and_self _] at h
  have hitems : (items parseDate rows).filter (fun item => !item.timestamp.isSome) =
      (items parseDate rows).filter
        ((fun row => !(parseDate row.created_at).isSome) ∘ Item.row) := by
    refine List.filter_congr fun item hitem => ?_
    rw [Function.comp_apply, timestamp_ordered (ordered_perm.mem_iff.mpr hitem)]
  rw [← hsub.eq_of_length (ordered_perm.filter _).length_eq.symm, hitems, ← List.filter_map,
    items_rows]

theorem ordered_ids (hids : (rows.map MonitorHistoryRow.id).Nodup) :
    ((ordered parseDate rows).map fun item => item.row.id).Nodup := by
  have h : ((ordered parseDate rows).map fun item => item.row.id).Perm
      (rows.map MonitorHistoryRow.id) := by
    simpa only [List.map_map, Function.comp_def] using ordered_rows.map MonitorHistoryRow.id
  exact h.nodup_iff.mpr hids

/-- Valid times ascend, and rows of one time go by their ids. -/
theorem ordered_ascending (hids : (rows.map MonitorHistoryRow.id).Nodup) :
    (ordered parseDate rows).Pairwise fun a b => ∀ s ∈ a.timestamp, ∀ t ∈ b.timestamp,
      s < t ∨ s = t ∧ a.row.id < b.row.id := by
  have hdistinct : (ordered parseDate rows).Pairwise fun a b => a.row.id ≠ b.row.id :=
    List.pairwise_map.mp (ordered_ids hids)
  refine (ordered_pairwise.and hdistinct).imp fun {a b} hab s hs t ht => ?_
  obtain ⟨hle, hne⟩ := hab
  simp only [Item.compare, Option.mem_def.mp hs, Option.mem_def.mp ht] at hle
  split at hle <;> omega

/-! ### The pass over the points -/

variable {threshold : Option Rat}

/-- A point goes on with the segment of the one before it. -/
def joined (threshold : Option Rat) (previous point : ChartPoint) : Bool :=
  point.drawable && (gapBefore threshold (some previous) point).isNone

theorem visit_joined {previous point : ChartPoint} {w : Walk}
    (h : joined threshold previous point = true) :
    w.visit threshold (some previous) point =
      { w with segment := w.segment ++ [point] } := by
  obtain ⟨hdrawable, hgap⟩ := Bool.and_eq_true_iff.mp h
  simp [Walk.visit, hdrawable, Option.isNone_iff_eq_none.mp hgap]

theorem visit_not_joined {previous point : ChartPoint} {w : Walk}
    (h : joined threshold previous point = false) :
    w.visit threshold (some previous) point =
      { segments := w.flush
        gaps := w.gaps ++ (gapBefore threshold (some previous) point).toList
        segment := [point].filter ChartPoint.drawable } := by
  have hflush : (!point.drawable || (gapBefore threshold (some previous) point).isSome) = true := by
    cases hd : point.drawable
    · rfl
    · simpa [joined, hd] using h
  rw [Walk.visit, if_pos hflush]
  cases hd : point.drawable <;> simp [hd]

/-- The first point of all. -/
theorem visit_first (point : ChartPoint) : ({} : Walk).visit threshold none point =
    { segment := [point].filter ChartPoint.drawable } := by
  have hgap : gapBefore threshold none point = none := by cases threshold <;> rfl
  cases hd : point.drawable <;> simp [Walk.visit, hgap, hd, Walk.flush]

theorem flush_eq (w : Walk) : w.flush = w.segments ++ [w.segment].filter (· ≠ []) := by
  unfold Walk.flush
  cases w.segment <;> simp

/-- The segments from a point on: those so far, and the runs of the points of the open segment
and of what is left. -/
theorem walk_flush : ∀ (points block : List ChartPoint) {previous : ChartPoint} {w : Walk},
    previous ∈ block.getLast? → block.IsChain (fun a b => joined threshold a b = true) →
      w.segment = block.filter ChartPoint.drawable →
        (walk threshold (some previous) w points).flush =
          w.segments ++ runs (joined threshold) ChartPoint.drawable (block ++ points)
  | [], block, previous, w, hlast, hchain, hsegment => by
      rw [walk, flush_eq, hsegment, List.append_nil,
        runs_of_isChain (List.ne_nil_of_mem (List.mem_of_getLast? hlast)) hchain]
  | point :: points, block, previous, w, hlast, hchain, hsegment => by
      rw [walk]
      cases hj : joined threshold previous point with
      | true =>
          have hdrawable : point.drawable = true := (Bool.and_eq_true_iff.mp hj).1
          have hchain' : (block ++ [point]).IsChain fun a b => joined threshold a b = true := by
            refine hchain.append (List.isChain_singleton point) fun a ha b hb => ?_
            obtain rfl := Option.some.inj (ha.symm.trans hlast)
            obtain rfl := Option.some.inj hb
            exact hj
          rw [visit_joined hj, walk_flush points (block ++ [point]) (by simp) hchain'
            (by simp [hsegment, hdrawable]), List.append_assoc, List.singleton_append]
      | false =>
          have hlast' : ∀ b ∈ block.getLast?, joined threshold b point = false := fun b hb => by
            obtain rfl := Option.some.inj (hb.symm.trans hlast)
            exact hj
          rw [visit_not_joined hj, walk_flush points [point] (Option.mem_some_self point)
            (List.isChain_singleton point) rfl, flush_eq, hsegment, runs_append_cons hlast',
            runs_of_isChain (List.ne_nil_of_mem (List.mem_of_getLast? hlast)) hchain]
          simp

/-- The segments are the runs of the points. -/
theorem walk_segments (points : List ChartPoint) : (walk threshold none {} points).flush =
    runs (joined threshold) ChartPoint.drawable points := by
  cases points with
  | nil => rfl
  | cons point points =>
      rw [walk, visit_first, walk_flush points [point] (Option.mem_some_self point)
        (List.isChain_singleton point) rfl]
      rfl

/-- The gaps from a point on. -/
theorem walk_gaps : ∀ {points : List ChartPoint} {previous : ChartPoint} {w : Walk},
    (walk threshold (some previous) w points).gaps = w.gaps ++
      ((previous :: points).zip points).filterMap fun pair =>
        gapBefore threshold (some pair.1) pair.2
  | [], _, _ => by simp [walk]
  | point :: points, previous, w => by
      have hvisit : (w.visit threshold (some previous) point).gaps =
          w.gaps ++ (gapBefore threshold (some previous) point).toList := by
        cases hj : joined threshold previous point with
        | true =>
            rw [visit_joined hj]
            have hgap := (Bool.and_eq_true_iff.mp hj).2
            simp [Option.isNone_iff_eq_none.mp hgap]
        | false => rw [visit_not_joined hj]
      rw [walk, walk_gaps, hvisit, List.zip_cons_cons, List.filterMap_cons]
      cases gapBefore threshold (some previous) point <;> simp

/-- A list beside itself, one element on. -/
def neighbours {α : Type} (l : List α) : List (α × α) := l.zip l.tail

/-- The gaps are those between successive points. -/
theorem walk_gaps_eq (points : List ChartPoint) : (walk threshold none {} points).gaps =
    (neighbours points).filterMap fun pair => gapBefore threshold (some pair.1) pair.2 := by
  cases points with
  | nil => rfl
  | cons point points =>
      rw [walk, visit_first, walk_gaps]
      rfl

/-- Before a point without a valid time there is no gap. -/
theorem gapBefore_invalid {previous : Option ChartPoint} {point : ChartPoint}
    (h : point.timestamp.isSome = false) : gapBefore threshold previous point = none := by
  have hnone : elapsed previous point = none := by
    simp only [elapsed, Option.not_isSome_iff_eq_none.mp (by simpa using h)]
    cases previous.bind ChartPoint.timestamp <;> rfl
  unfold gapBefore
  rw [hnone]
  cases threshold <;> cases previous <;> rfl

/-- What follows the points with a valid time has no part in the gaps. -/
theorem neighbours_gaps : ∀ (valid : List ChartPoint) {invalid : List ChartPoint},
    (∀ point ∈ invalid, point.timestamp.isSome = false) →
      (neighbours (valid ++ invalid)).filterMap
          (fun pair => gapBefore threshold (some pair.1) pair.2) =
        (neighbours valid).filterMap fun pair => gapBefore threshold (some pair.1) pair.2
  | [], _, h => by
      refine List.filterMap_eq_nil_iff.mpr fun pair hpair => ?_
      exact gapBefore_invalid (h _ (List.mem_of_mem_tail (List.of_mem_zip hpair).2))
  | [a], _, h => by
      refine List.filterMap_eq_nil_iff.mpr fun pair hpair => ?_
      exact gapBefore_invalid (h _ (List.of_mem_zip hpair).2)
  | a :: b :: valid, _, h => by
      have ih := neighbours_gaps (b :: valid) h
      simp only [neighbours, List.cons_append, List.tail_cons, List.zip_cons_cons,
        List.filterMap_cons] at ih ⊢
      rw [ih]

/-! ### What the segmentation is to be -/

/-- Two points are more than three periods of the monitor apart. Without a frequency, or with one
that is not finite and positive, none are. -/
def tooFar : Option Number → ChartPoint → ChartPoint → Bool
  | some (.finite frequency), p, q =>
      match p.timestamp, q.timestamp with
      | some s, some t => 0 < frequency && 3 * frequency * 1000 < (t - s : Int)
      | _, _ => false
  | _, _, _ => false

/-- `gap` marks the time between two points. -/
structure IsGap (frequencySeconds : Option Number) (pair : ChartPoint × ChartPoint)
    (gap : ChartGap) : Prop where
  halfway : gap.x = (pair.1.x + pair.2.x) / 2
  duration : ∀ s ∈ pair.1.timestamp, ∀ t ∈ pair.2.timestamp, gap.durationMs = t - s
  threshold : ∀ f, frequencySeconds = some (.finite f) → gap.thresholdMs = 3 * f * 1000
  label : gap.label = "No samples"

/-- Two points are in one of the segments. -/
def Together (segments : List (List ChartPoint)) (p q : ChartPoint) : Prop :=
  ∃ segment ∈ segments, p ∈ segment ∧ q ∈ segment

/-- The points, segments and gaps of a chart are those of its rows. -/
structure IsSegmentation (parseDate : String → Option Int) (rows : List MonitorHistoryRow)
    (frequencySeconds : Option Number) (g : LatencyChartGeometry) : Prop where
  permuted : (g.points.map ChartPoint.row).Perm rows
  timestamp : ∀ p ∈ g.points, p.timestamp = parseDate p.row.created_at
  drawable : ∀ p ∈ g.points, p.drawable = (p.timestamp.isSome && p.row.finiteLatency.isSome)
  valid_first : g.points = g.points.filter (fun p => p.timestamp.isSome) ++
    g.points.filter fun p => !p.timestamp.isSome
  ascending : g.points.Pairwise fun p q => ∀ s ∈ p.timestamp, ∀ t ∈ q.timestamp,
    s < t ∨ s = t ∧ p.row.id < q.row.id
  input_order : (g.points.filter fun p => !p.timestamp.isSome).map ChartPoint.row =
    rows.filter fun row => !(parseDate row.created_at).isSome
  segments : g.segments.flatten = g.points.filter ChartPoint.drawable
  once : g.segments.flatten.Nodup
  nonempty : [] ∉ g.segments
  successive : ∀ pre p q post, g.points = pre ++ p :: q :: post → p.drawable = true →
    q.drawable = true → (Together g.segments p q ↔ tooFar frequencySeconds p q = false)
  apart : ∀ pre p mid q post, g.points = pre ++ p :: (mid ++ q :: post) →
    (∃ u ∈ mid, u.drawable = false) → ¬ Together g.segments p q
  gaps : List.Forall₂ (IsGap frequencySeconds)
    ((neighbours (g.points.filter fun p => p.timestamp.isSome)).filter fun pair =>
      tooFar frequencySeconds pair.1 pair.2) g.gaps

theorem gapBefore_untimed {p q : ChartPoint}
    (h : p.timestamp = none ∨ q.timestamp = none) : gapBefore threshold (some p) q = none := by
  have hnone : elapsed (some p) q = none := by
    unfold elapsed
    rw [Option.bind_some]
    rcases h with h | h
    · simp [h]
    · cases p.timestamp <;> simp [h]
  unfold gapBefore
  rw [hnone]
  cases threshold <;> rfl

theorem gapBefore_timed {p q : ChartPoint} {s t : Int} {limit : Rat}
    (hs : p.timestamp = some s) (ht : q.timestamp = some t) :
    gapBefore (some limit) (some p) q = if limit < (t - s : Int) then
      some { x := (p.x + q.x) / 2, durationMs := t - s, thresholdMs := limit } else none := by
  have helapsed : elapsed (some p) q = some (t - s) := by simp [elapsed, hs, ht]
  unfold gapBefore
  rw [helapsed]

/-- A gap is marked between two points that are too far apart, and only there. -/
theorem gapBefore_spec (frequencySeconds : Option Number) (p q : ChartPoint) :
    (tooFar frequencySeconds p q = false ∧
      gapBefore (gapThreshold frequencySeconds) (some p) q = none) ∨
    (tooFar frequencySeconds p q = true ∧ ∃ gap,
      gapBefore (gapThreshold frequencySeconds) (some p) q = some gap ∧
        IsGap frequencySeconds (p, q) gap) := by
  match frequencySeconds with
  | none | some .nan | some (.infinity _) => exact .inl ⟨rfl, rfl⟩
  | some (.finite f) =>
      by_cases hf : 0 < f
      · cases hs : p.timestamp with
        | none => exact .inl ⟨by simp [tooFar, hs], gapBefore_untimed (.inl hs)⟩
        | some s =>
            cases ht : q.timestamp with
            | none => exact .inl ⟨by simp [tooFar, hs, ht], gapBefore_untimed (.inr ht)⟩
            | some t =>
                have hlimit : 3 * f * 1000 = f * 3000 := by ring
                simp only [tooFar, gapThreshold, hs, ht, if_pos hf, gapBefore_timed hs ht, hlimit]
                by_cases hlate : f * 3000 < (t - s : Int)
                · have hfar := Bool.and_eq_true_iff.mpr
                    ⟨decide_eq_true hf, decide_eq_true hlate⟩
                  refine .inr ⟨hfar, _, if_pos hlate, rfl, ?_, ?_, rfl⟩
                  · intro s' hs' t' ht'
                    obtain rfl := Option.some.inj (hs.symm.trans hs')
                    obtain rfl := Option.some.inj (ht.symm.trans ht')
                    rfl
                  · intro f' hf'
                    obtain rfl := Number.finite.inj (Option.some.inj hf')
                    exact hlimit.symm
                · exact .inl ⟨by rw [decide_eq_false hlate, Bool.and_false], if_neg hlate⟩
      · have hthreshold : gapThreshold (some (.finite f)) = none := if_neg hf
        refine .inl ⟨?_, ?_⟩
        · simp only [tooFar]
          split
          · simp [hf]
          · rfl
        · rw [hthreshold]
          rfl

/-- Each gap marks one pair, in order. -/
theorem forall₂_gaps (frequencySeconds : Option Number) : ∀ pairs : List (ChartPoint × ChartPoint),
    List.Forall₂ (IsGap frequencySeconds)
      (pairs.filter fun pair => tooFar frequencySeconds pair.1 pair.2)
      (pairs.filterMap fun pair =>
        gapBefore (gapThreshold frequencySeconds) (some pair.1) pair.2)
  | [] => .nil
  | pair :: pairs => by
      have ih := forall₂_gaps frequencySeconds pairs
      rcases gapBefore_spec frequencySeconds pair.1 pair.2 with ⟨hfar, hgap⟩ | ⟨hfar, gap, hgap, h⟩
      · simpa only [List.filter_cons, List.filterMap_cons, hfar, hgap, Bool.false_eq_true,
          if_false] using ih
      · simp only [List.filter_cons, List.filterMap_cons, hfar, hgap, if_true]
        exact .cons h ih

theorem joined_eq (frequencySeconds : Option Number) (p q : ChartPoint) :
    joined (gapThreshold frequencySeconds) p q =
      (q.drawable && !tooFar frequencySeconds p q) := by
  rw [joined]
  rcases gapBefore_spec frequencySeconds p q with ⟨hfar, hgap⟩ | ⟨hfar, gap, hgap, -⟩ <;>
    simp [hfar, hgap]

/-! ### The segmentation -/

variable (p : ChartPlatform) (frequencySeconds : Option Number) (availableWidth : Rat)

/-- The points that have what the filter asks of their time are those rows in order. -/
theorem filter_points (f : Frame) (items : List Item) (q : Option Int → Bool) :
    (items.map f.point).filter (fun point => q point.timestamp) =
      (items.filter fun item => q item.timestamp).map f.point :=
  List.filter_map

/-- The points of the rows in order are distinct. -/
theorem nodup_points (f : Frame) (hids : (rows.map MonitorHistoryRow.id).Nodup) :
    ((ordered parseDate rows).map f.point).Nodup := by
  refine List.Nodup.of_map (fun point => point.row.id) ?_
  rw [List.map_map]
  exact ordered_ids hids

/-- Successive points that can be drawn are in one segment unless they are too far apart. -/
theorem together_successive {pre post : List ChartPoint} {a b : ChartPoint}
    (hnodup : (pre ++ a :: b :: post).Nodup) (ha : a.drawable = true) (hb : b.drawable = true) :
    Together (runs (joined (gapThreshold frequencySeconds)) ChartPoint.drawable
      (pre ++ a :: b :: post)) a b ↔ tooFar frequencySeconds a b = false := by
  have hjoined : joined (gapThreshold frequencySeconds) a b = !tooFar frequencySeconds a b := by
    rw [joined_eq, hb, Bool.true_and]
  have hnodup' : (pre ++ a :: ([] ++ b :: post)).Nodup := hnodup
  constructor
  · intro h
    have hchain := isChain_of_together hnodup' h
    rw [List.nil_append, List.isChain_pair, hjoined] at hchain
    simpa using hchain
  · intro hnear
    refine together_of_isChain hnodup' ha hb ?_
    rw [List.nil_append, List.isChain_pair, hjoined, hnear]
    rfl

/-- Points with one between them that cannot be drawn are in different segments. -/
theorem not_together {pre mid post : List ChartPoint} {a b u : ChartPoint}
    (hnodup : (pre ++ a :: (mid ++ b :: post)).Nodup) (hu : u ∈ mid)
    (hundrawable : u.drawable = false) :
    ¬ Together (runs (joined (gapThreshold frequencySeconds)) ChartPoint.drawable
      (pre ++ a :: (mid ++ b :: post))) a b := by
  intro h
  obtain ⟨c, hc⟩ := exists_joined (isChain_of_together hnodup h) u (List.mem_append_left _ hu)
  rw [joined_eq, hundrawable] at hc
  cases hc

/-- **The segmentation of the chart is exact.** For all rows with distinct ids, every frequency and
every width, the points are the rows by time; the segments are what can be drawn of them, cut where
a point cannot be drawn and where the time between two points is more than three periods; and there
is one gap for each such time, halfway between the two points. -/
theorem segmentation_exact (hids : (rows.map MonitorHistoryRow.id).Nodup) :
    IsSegmentation p.parseDate rows frequencySeconds
      (buildLatencyChartGeometry p rows frequencySeconds availableWidth) := by
  unfold buildLatencyChartGeometry
  extract_lets items times measured f points walked
  have hnodup : points.Nodup := nodup_points f hids
  have hsegments : walked.flush = runs (joined (gapThreshold frequencySeconds))
      ChartPoint.drawable points := walk_segments points
  have hvalid : points = points.filter (fun p => p.timestamp.isSome) ++
      points.filter fun p => !p.timestamp.isSome := by
    rw [filter_points f items (·.isSome), filter_points f items (!·.isSome), ← List.map_append]
    exact congrArg (List.map f.point) ordered_valid_first
  refine ⟨?_, ?_, ?_, hvalid, ?_, ?_, ?_, ?_, ?_, ?_, ?_, ?_⟩
  · rw [List.map_map]
    exact ordered_rows
  · intro point hpoint
    obtain ⟨item, hitem, rfl⟩ := List.mem_map.mp hpoint
    exact timestamp_ordered hitem
  · intro point hpoint
    obtain ⟨item, -, rfl⟩ := List.mem_map.mp hpoint
    simp only [ChartPoint.drawable, Frame.point, Option.isSome_map, Bool.and_comm]
  · exact List.pairwise_map.mpr (ordered_ascending hids)
  · rw [filter_points f items (!·.isSome), List.map_map]
    exact ordered_invalid
  · rw [hsegments, flatten_runs]
  · rw [hsegments, flatten_runs]
    exact hnodup.filter _
  · rw [hsegments]
    exact nil_not_mem_runs
  · intro pre a b post hcut ha hb
    show Together walked.flush a b ↔ _
    rw [hsegments, show points = _ from hcut]
    exact together_successive frequencySeconds (hcut ▸ hnodup) ha hb
  · rintro pre a mid b post hcut ⟨u, hu, hundrawable⟩
    show ¬ Together walked.flush a b
    rw [hsegments, show points = _ from hcut]
    exact not_together frequencySeconds (hcut ▸ hnodup) hu hundrawable
  · have hgaps : walked.gaps = (neighbours (points.filter fun p => p.timestamp.isSome)).filterMap
        fun pair => gapBefore (gapThreshold frequencySeconds) (some pair.1) pair.2 := by
      rw [show walked.gaps = _ from walk_gaps_eq points]
      conv_lhs => rw [hvalid]
      exact neighbours_gaps _ fun point hpoint => by simpa using (List.mem_filter.mp hpoint).2
    show List.Forall₂ _ _ walked.gaps
    rw [hgaps]
    exact forall₂_gaps frequencySeconds _

/-- A browser that shows times of 1970 in UTC. -/
def utcPlatform : ChartPlatform where
  parseDate := fun text =>
    if text = "1970-01-01T00:00:00.000Z" then some 0
    else if text = "1970-01-01T00:03:01.000Z" then some 181000
    else none
  localeDate := fun timestamp => "Jan " ++ toString (⌊timestamp / 86400000⌋ + 1)
  localeTime := fun timestamp => "12:0" ++ toString ⌊timestamp / 60000⌋ ++ " AM"
  fourDigits := fun value => toString value.num

/-- Two checks with more than three minutes between them, one that failed and one whose time cannot
be read. -/
def outageRows : List MonitorHistoryRow :=
  [⟨3, "healthy", some (.finite 40), "1970-01-01T00:03:01.000Z"⟩,
    ⟨1, "healthy", some (.finite 10), "1970-01-01T00:00:00.000Z"⟩,
    ⟨2, "healthy", some (.finite 7), "unknown"⟩,
    ⟨4, "unhealthy", none, "1970-01-01T00:03:01.000Z"⟩]

theorem segmentation_exact_outage :
    IsSegmentation utcPlatform.parseDate outageRows (some (.finite 60))
      (buildLatencyChartGeometry utcPlatform outageRows (some (.finite 60)) 640) :=
  segmentation_exact utcPlatform _ _ (by decide)

end Sentinel.Frontend
