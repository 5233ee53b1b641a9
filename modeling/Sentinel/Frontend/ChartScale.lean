import Sentinel.Frontend.ChartSegments

/-!
# Frontend — ChartScale

The scales of the latency chart: where its points and its ticks stand.

* `niceStep_bounds`: the step of the axis lies between a third of the range and the range.
* `Frame.Fits`: what a frame has that is made for the rows, from which every point lies inside.
* `valuesFrom_eq`, `xTicks_spec`: the ticks.
* `scales_exact`: the scales and the ticks of every chart of non-negative latencies.
-/

namespace Sentinel.Frontend

open Api (Number)

/-! ### The step of the axis -/

theorem powerOfTen_le {rough : Rat} (h : 0 < rough) : powerOfTen rough ≤ rough := by
  have hlog := Int.zpow_log_le_self (b := 10) (by norm_num) h
  exact_mod_cast hlog

theorem lt_powerOfTen (rough : Rat) : rough < 10 * powerOfTen rough := by
  have hlog := Int.lt_zpow_succ_log_self (b := 10) (by norm_num) rough
  rw [zpow_add_one₀ (by norm_num)] at hlog
  rw [powerOfTen]
  push_cast at hlog
  linarith

theorem niceFactor_bounds {fraction : Rat} (hone : 1 ≤ fraction) (hten : fraction < 10) :
    fraction ≤ niceFactor fraction ∧ niceFactor fraction < 3 * fraction := by
  unfold niceFactor
  split_ifs <;> constructor <;> linarith

/-- The step for four ticks is no less than a third of the range, and less than the range. -/
theorem niceStep_bounds {range : Rat} (h : 0 < range) :
    range ≤ 3 * niceStep range 4 ∧ niceStep range 4 < range := by
  have hrough : 0 < range / 3 := by positivity
  have hpower := powerOfTen_pos (range / 3)
  have hone : 1 ≤ range / 3 / powerOfTen (range / 3) :=
    (one_le_div hpower).mpr (powerOfTen_le hrough)
  have hten : range / 3 / powerOfTen (range / 3) < 10 :=
    (div_lt_iff₀ hpower).mpr (lt_powerOfTen _)
  have hstep : niceStep range 4 =
      niceFactor (range / 3 / powerOfTen (range / 3)) * powerOfTen (range / 3) := by
    have hthree : ((max 1 (4 - 1 : Int) : Int) : Rat) = 3 := by norm_num
    rw [niceStep, if_neg (not_not.mpr h), hthree]
  have hback : range / 3 / powerOfTen (range / 3) * powerOfTen (range / 3) = range / 3 :=
    div_mul_cancel₀ _ hpower.ne'
  obtain ⟨hle, hlt⟩ := niceFactor_bounds hone hten
  have hle' := mul_le_mul_of_nonneg_right hle hpower.le
  have hlt' := mul_lt_mul_of_pos_right hlt hpower
  rw [hstep]
  constructor <;> linarith

/-! ### The greatest latency and the axis -/

variable {measured : List Rat}

theorem maxLatency_isGreatest : IsGreatest {v | v ∈ 0 :: measured} (maxLatency measured) :=
  Rank.isGreatest_foldl_max measured 0

theorem maxLatency_nonneg : 0 ≤ maxLatency measured := maxLatency_isGreatest.2 List.mem_cons_self

theorem le_maxLatency {v : Rat} (hv : v ∈ measured) : v ≤ maxLatency measured :=
  maxLatency_isGreatest.2 (List.mem_cons_of_mem _ hv)

theorem maxLatency_eq {m : Rat} (hm : IsGreatest {v | v ∈ measured} m) (hnonneg : 0 ≤ m) :
    maxLatency measured = m := by
  refine le_antisymm ?_ (le_maxLatency hm.1)
  rcases List.mem_cons.mp maxLatency_isGreatest.1 with h | h
  · exact h.trans_le hnonneg
  · exact hm.2 h

variable {times : List Int} {availableWidth : Rat}

theorem yMax_ge : maxLatency measured ≤ (frame times measured availableWidth).yMax := by
  have hstep : 0 < yStep (maxLatency measured) := niceStep_pos _ _
  refine le_max_of_le_right ?_
  rw [← div_le_iff₀ hstep]
  exact Int.le_ceil _

theorem yMax_pos : 0 < (frame times measured availableWidth).yMax :=
  lt_max_of_lt_left (frame times measured availableWidth).step_pos

/-- Without a latency above zero the axis is one step long. -/
theorem yMax_of_zero (h : maxLatency measured = 0) :
    (frame times measured availableWidth).yMax = (frame times measured availableWidth).step := by
  refine max_eq_left ?_
  rw [h, zero_div, Int.ceil_zero, Int.cast_zero, zero_mul]
  exact (niceStep_pos _ _).le

/-- With one it is two or three steps long, the last of which the greatest latency lies in. -/
theorem yMax_of_pos (h : 0 < maxLatency measured) : ∃ n : Nat, (n = 2 ∨ n = 3) ∧
    n * (frame times measured availableWidth).step = (frame times measured availableWidth).yMax ∧
      (frame times measured availableWidth).yMax <
        maxLatency measured + (frame times measured availableWidth).step := by
  have hyStep : yStep (maxLatency measured) = niceStep (maxLatency measured) 4 := by
    rw [yStep, if_neg h.ne']
  obtain ⟨hle, hlt⟩ := niceStep_bounds h
  rw [← hyStep] at hle hlt
  have hstep : 0 < yStep (maxLatency measured) := niceStep_pos _ _
  have hceil : 1 < ⌈maxLatency measured / yStep (maxLatency measured)⌉ := by
    rw [Int.lt_ceil, Int.cast_one, one_lt_div hstep]
    exact hlt
  have hceil' : ⌈maxLatency measured / yStep (maxLatency measured)⌉ ≤ 3 := by
    rw [Int.ceil_le, div_le_iff₀ hstep]
    exact_mod_cast hle
  have hbelow := (mul_lt_mul_iff_left₀ hstep).mpr
    (Int.ceil_lt_add_one (maxLatency measured / yStep (maxLatency measured)))
  rw [add_mul, one_mul, div_mul_cancel₀ _ hstep.ne'] at hbelow
  obtain ⟨n, hn⟩ := Int.eq_ofNat_of_zero_le (zero_le_one.trans hceil.le)
  have hmax : (frame times measured availableWidth).yMax = n * yStep (maxLatency measured) := by
    show max _ (_ * _) = _
    rw [hn, Int.cast_natCast]
    refine max_eq_right (le_mul_of_one_le_left hstep.le ?_)
    exact_mod_cast (by omega : 1 ≤ n)
  refine ⟨n, by omega, hmax.symm, ?_⟩
  rw [hmax, ← Int.cast_natCast (n := n), ← hn]
  exact hbelow

/-- The axis is a number of steps long. -/
theorem yMax_steps : ∃ n : Nat,
    n * (frame times measured availableWidth).step = (frame times measured availableWidth).yMax ∧
      (0 < maxLatency measured → n + 1 = 3 ∨ n + 1 = 4) ∧
        (maxLatency measured = 0 → n + 1 = 2) := by
  have hnonneg : 0 ≤ maxLatency measured := maxLatency_nonneg
  rcases hnonneg.lt_or_eq with hpos | hzero
  · obtain ⟨n, hcount, hn, -⟩ := yMax_of_pos hpos
    exact ⟨n, hn, fun _ => by omega, fun h => absurd h hpos.ne'⟩
  · refine ⟨1, ?_, fun h => absurd hzero.symm h.ne', fun _ => rfl⟩
    rw [Nat.cast_one, one_mul]
    exact (yMax_of_zero hzero.symm).symm

/-! ### The times -/

/-- The frame begins at the first time and spans up to the last. -/
theorem frame_ends (hsorted : times.Pairwise (· ≤ ·)) (hne : times ≠ []) :
    IsLeast {t | t ∈ times} (frame times measured availableWidth).first ∧
      IsGreatest {t | t ∈ times} ((frame times measured availableWidth).first +
        (frame times measured availableWidth).span) := by
  have hlength : 0 < times.length := List.length_pos_of_ne_nil hne
  have hlast : times.length - 1 < times.length := by omega
  have hfirst : (frame times measured availableWidth).first = times[0] := by
    show times.head?.getD 0 = _
    rw [List.head?_eq_getElem?, List.getElem?_eq_getElem hlength]
    rfl
  have hspan : (frame times measured availableWidth).first +
      (frame times measured availableWidth).span = times[times.length - 1] := by
    rw [hfirst]
    show _ + (times.getLast?.getD (times.head?.getD 0) - times.head?.getD 0) = _
    rw [List.head?_eq_getElem?, List.getElem?_eq_getElem hlength, List.getLast?_eq_getElem?,
      List.getElem?_eq_getElem hlast]
    exact add_sub_cancel _ _
  rw [hspan, hfirst]
  refine ⟨⟨List.getElem_mem hlength, fun t ht => ?_⟩, List.getElem_mem hlast, fun t ht => ?_⟩
  · obtain ⟨i, hi, rfl⟩ := List.getElem_of_mem ht
    exact Rank.get_le_get hsorted (Nat.zero_le i) hi
  · obtain ⟨i, hi, rfl⟩ := List.getElem_of_mem ht
    exact Rank.get_le_get hsorted (Nat.le_sub_one_of_lt hi) hlast

theorem frame_times (hsorted : times.Pairwise (· ≤ ·)) {t : Int} (ht : t ∈ times) :
    (frame times measured availableWidth).first ≤ t ∧
      t ≤ (frame times measured availableWidth).first +
        (frame times measured availableWidth).span := by
  obtain ⟨hfirst, hlast⟩ := frame_ends hsorted (List.ne_nil_of_mem ht)
  exact ⟨hfirst.2 ht, hlast.2 ht⟩

theorem times_sorted {parseDate : String → Option Int} {rows : List MonitorHistoryRow} :
    (Frontend.times (ordered parseDate rows)).Pairwise (· ≤ ·) := by
  refine List.pairwise_filterMap.mpr (ordered_pairwise.imp fun {a b} hab s hs t ht => ?_)
  simp only [Item.compare, hs, ht] at hab
  split at hab <;> omega

/-! ### Points -/

theorem left_lt_right : LEFT < (frame times measured availableWidth).right :=
  lt_max_of_lt_left (by norm_num [LEFT])

variable (f : Frame)

theorem atRatio_bounds (hright : f.left ≤ f.right) {ratio : Rat} (hnonneg : 0 ≤ ratio)
    (hone : ratio ≤ 1) : f.left ≤ f.atRatio ratio ∧ f.atRatio ratio ≤ f.right := by
  have hwidth : 0 ≤ f.right - f.left := sub_nonneg.mpr hright
  have hle := mul_le_of_le_one_left hwidth hone
  have hge := mul_nonneg hnonneg hwidth
  rw [Frame.atRatio]
  constructor <;> linarith

theorem atRatio_mono (hright : f.left ≤ f.right) {a b : Rat} (hab : a ≤ b) :
    f.atRatio a ≤ f.atRatio b := by
  have hle := mul_le_mul_of_nonneg_right hab (sub_nonneg.mpr hright)
  rw [Frame.atRatio, Frame.atRatio]
  linarith

theorem x_bounds (hright : f.left ≤ f.right) {timestamp : Option Int}
    (h : ∀ t ∈ timestamp, f.first ≤ t ∧ t ≤ f.first + f.span) :
    f.left ≤ f.x timestamp ∧ f.x timestamp ≤ f.right := by
  cases timestamp with
  | none => exact ⟨le_rfl, hright⟩
  | some t =>
      obtain ⟨hfirst, hlast⟩ := h t rfl
      rw [Frame.x]
      split
      · rename_i hspan
        have hspan' : (0 : Rat) < f.span := by exact_mod_cast hspan
        refine atRatio_bounds f hright (div_nonneg ?_ hspan'.le) ((div_le_one hspan').mpr ?_)
        · exact_mod_cast (by omega : 0 ≤ t - f.first)
        · exact_mod_cast (by omega : t - f.first ≤ f.span)
      · constructor <;> linarith

theorem x_mono (hright : f.left ≤ f.right) {s t : Int} (hst : s ≤ t) :
    f.x (some s) ≤ f.x (some t) := by
  rw [Frame.x, Frame.x]
  split
  · rename_i hspan
    have hspan' : (0 : Rat) < f.span := by exact_mod_cast hspan
    refine atRatio_mono f hright (div_le_div_of_nonneg_right ?_ hspan'.le)
    exact_mod_cast Int.sub_le_sub_right hst f.first
  · exact le_rfl

theorem top_le_bottom : f.top ≤ f.bottom := by
  norm_num [Frame.top, Frame.bottom, TOP, HEIGHT, BOTTOM_PAD]

theorem y_bounds (hyMax : 0 < f.yMax) {value : Rat} (hnonneg : 0 ≤ value) (hle : value ≤ f.yMax) :
    f.top ≤ f.y value ∧ f.y value ≤ f.bottom := by
  have hheight : 0 ≤ f.bottom - f.top := sub_nonneg.mpr (top_le_bottom f)
  have hshare := mul_le_of_le_one_left hheight ((div_le_one hyMax).mpr hle)
  have hshare' := mul_nonneg (div_nonneg hnonneg hyMax.le) hheight
  rw [Frame.y]
  constructor <;> linarith

theorem y_anti (hyMax : 0 < f.yMax) {u v : Rat} (huv : u ≤ v) : f.y v ≤ f.y u := by
  have hheight : 0 ≤ f.bottom - f.top := sub_nonneg.mpr (top_le_bottom f)
  have hle := mul_le_mul_of_nonneg_right (div_le_div_of_nonneg_right huv hyMax.le) hheight
  rw [Frame.y, Frame.y]
  linarith

theorem y_zero : f.y 0 = f.bottom := by rw [Frame.y, zero_div, zero_mul, sub_zero]

/-! ### Ticks -/

/-- From one multiple of the step to the last, the loop takes each. -/
theorem valuesFrom_eq {step : Rat} (hstep : 0 < step) (last : Nat) : ∀ (count first : Nat),
    first + count = last + 1 → valuesFrom step (last * step) hstep (first * step) =
      (List.range' first count).map fun k : Nat => (k : Rat) * step
  | 0, first, hcount => by
      have hover : ¬ ((first : Rat) * step ≤ last * step) := by
        rw [not_le, mul_lt_mul_iff_left₀ hstep]
        exact_mod_cast (by omega : last < first)
      rw [valuesFrom, if_neg hover]
      rfl
  | count + 1, first, hcount => by
      have hle : (first : Rat) * step ≤ last * step := by
        rw [mul_le_mul_iff_left₀ hstep]
        exact_mod_cast (by omega : first ≤ last)
      have hnext : (first : Rat) * step + step = (first + 1 : Nat) * step := by
        push_cast
        ring
      rw [valuesFrom, if_pos hle, hnext, valuesFrom_eq hstep last count (first + 1) (by omega),
        List.range'_succ, List.map_cons]

/-- The ticks of an axis that is so many steps long. -/
theorem yTicks_values (p : ChartPlatform) {n : Nat} (hn : n * f.step = f.yMax)
    (hmeasured : measured ≠ []) : (yTicks p f measured).map ChartTick.value =
      (List.range (n + 1)).map fun k : Nat => (k : Rat) * f.step := by
  have hvalues := valuesFrom_eq f.step_pos n (n + 1) 0 (by omega)
  rw [Nat.cast_zero, zero_mul, hn, ← List.range_eq_range'] at hvalues
  rw [yTicks, if_neg (by simpa using hmeasured), List.map_map, hvalues]
  exact List.map_id' _

theorem yTicks_position (p : ChartPlatform) {tick : ChartTick} (h : tick ∈ yTicks p f measured) :
    tick.position = f.y tick.value := by
  rw [yTicks] at h
  split at h
  · cases h
  · obtain ⟨value, -, rfl⟩ := List.mem_map.mp h
    rfl

/-- Where a time stands between the first and the last. -/
def timePosition (left right : Rat) (first last : Int) (time : Rat) : Rat :=
  left + (time - first) / (last - first : Int) * (right - left)

/-- An axis of times from the left edge to the right. -/
structure IsTimeAxis (left right : Rat) (first last : Int) (ticks : List ChartTick) : Prop where
  count : 2 ≤ ticks.length
  starts : ticks.head?.map (fun tick => (tick.value, tick.position)) = some ((first : Rat), left)
  ends : ticks.getLast?.map (fun tick => (tick.value, tick.position)) = some ((last : Rat), right)
  values : ticks.Pairwise fun a b => a.value < b.value
  positions : ticks.Pairwise fun a b => a.position < b.position
  related : ∀ tick ∈ ticks, tick.position = timePosition left right first last tick.value

/-- A point stands where its time does. -/
theorem x_eq_timePosition (hspan : 0 < f.span) (t : Int) :
    f.x (some t) = timePosition f.left f.right f.first (f.first + f.span) t := by
  rw [Frame.x, if_pos hspan, Frame.atRatio, timePosition, add_sub_cancel_left, Int.cast_sub]

/-- The tick at a share of the width. -/
def tickAt (p : ChartPlatform) (f : Frame) (ratio : Rat) : ChartTick :=
  ⟨f.first + f.span * ratio, f.left + (f.right - f.left) * ratio,
    timeLabel p (f.first + f.span * ratio) f.span⟩

/-- There are two ticks or more, at equal distances. -/
theorem xTicks_eq (p : ChartPlatform) (hspan : 0 < f.span) (hne : times ≠ []) :
    ∃ n : Nat, xTicks p f times =
      (List.range (n + 2)).map fun index : Nat => tickAt p f ((index : Rat) / (n + 1)) := by
  obtain ⟨n, hn⟩ : ∃ n : Nat, max 2 ⌊(f.right - f.left) / 110⌋ = (n + 2 : Nat) :=
    ⟨(max 2 ⌊(f.right - f.left) / 110⌋).toNat - 2, by omega⟩
  refine ⟨n, ?_⟩
  have hlast : ((((n + 2 : Nat) : Int) - 1 : Int) : Rat) = n + 1 := by
    push_cast
    ring
  rw [xTicks, if_neg (by simpa using hne), if_neg hspan.ne', hn]
  simp only [Int.toNat_natCast, hlast, tickAt]

theorem xTicks_isTimeAxis (p : ChartPlatform) (hright : f.left < f.right) (hspan : 0 < f.span)
    (hne : times ≠ []) :
    IsTimeAxis f.left f.right f.first (f.first + f.span) (xTicks p f times) := by
  obtain ⟨n, hticks⟩ := xTicks_eq f p hspan hne
  have hcount : (0 : Rat) < n + 1 := by positivity
  have hspan' : (0 : Rat) < f.span := by exact_mod_cast hspan
  have hwidth : 0 < f.right - f.left := sub_pos.mpr hright
  have hratio : (List.range (n + 2)).Pairwise fun i j : Nat =>
      (i : Rat) / (n + 1) < (j : Rat) / (n + 1) :=
    List.pairwise_lt_range.imp fun {i j} hij =>
      div_lt_div_of_pos_right (by exact_mod_cast hij) hcount
  rw [hticks]
  refine ⟨by simp, ?_, ?_, ?_, ?_, ?_⟩
  · rw [List.range_succ_eq_map]
    simp [tickAt]
  · rw [List.range_succ, List.map_append]
    have hone : ((n : Rat) + 1) / (n + 1) = 1 := div_self hcount.ne'
    simp [tickAt, hone]
  · exact List.pairwise_map.mpr (hratio.imp fun {i j} hij =>
      add_lt_add_right (mul_lt_mul_of_pos_left hij hspan') _)
  · exact List.pairwise_map.mpr (hratio.imp fun {i j} hij =>
      add_lt_add_right (mul_lt_mul_of_pos_left hij hwidth) _)
  · intro tick htick
    obtain ⟨index, -, rfl⟩ := List.mem_map.mp htick
    have hback : (f.first + f.span * ((index : Rat) / (n + 1)) - f.first) /
        (f.first + f.span - f.first : Int) = (index : Rat) / (n + 1) := by
      rw [add_sub_cancel_left, add_sub_cancel_left, mul_div_cancel_left₀ _ hspan'.ne']
    simp only [tickAt, timePosition, hback, mul_comm]

/-! ### The chart -/

/-- The frame that a chart is drawn in. -/
def chartFrame (p : ChartPlatform) (rows : List MonitorHistoryRow) (availableWidth : Rat) : Frame :=
  frame (Frontend.times (ordered p.parseDate rows))
    (samples ((ordered p.parseDate rows).map Item.row)) availableWidth

/-- The valid times of some rows. -/
def validTimes (parseDate : String → Option Int) (rows : List MonitorHistoryRow) : Set Int :=
  {t | ∃ row ∈ rows, parseDate row.created_at = some t}

/-- The scales and the ticks of a chart are right for its rows, each of which has its point. -/
structure HasScales (parseDate : String → Option Int) (rows : List MonitorHistoryRow) (f : Frame)
    (g : LatencyChartGeometry) : Prop where
  points : (g.points.map ChartPoint.row).Perm rows
  timestamps : ∀ a ∈ g.points, a.timestamp = parseDate a.row.created_at
  latencies : ∀ a ∈ g.points, a.y = a.row.finiteLatency.map f.y
  x_inside : ∀ a ∈ g.points, g.left ≤ a.x ∧ a.x ≤ g.right
  x_monotone : ∀ a ∈ g.points, ∀ b ∈ g.points, ∀ s ∈ a.timestamp, ∀ t ∈ b.timestamp,
    s ≤ t → a.x ≤ b.x
  y_inside : ∀ a ∈ g.points, ∀ y ∈ a.y, g.top ≤ y ∧ y ≤ g.bottom
  y_antitone : ∀ a ∈ g.points, ∀ b ∈ g.points, ∀ u ∈ a.row.finiteLatency,
    ∀ v ∈ b.row.finiteLatency, ∀ ya ∈ a.y, ∀ yb ∈ b.y, u ≤ v → yb ≤ ya
  y_zero : ∀ a ∈ g.points, a.row.finiteLatency = some 0 → a.y = some g.bottom
  y_axis : ∀ m, IsGreatest {v | v ∈ samples rows} m → 0 < m →
    m ≤ f.yMax ∧ f.yMax < m + f.step ∧ ∃ n : Nat, f.yMax = n * f.step
  y_ticks : ∀ m, IsGreatest {v | v ∈ samples rows} m → ∃ n : Nat, n * f.step = f.yMax ∧
    g.yTicks.map ChartTick.value = (List.range (n + 1)).map (fun k : Nat => (k : Rat) * f.step) ∧
      (0 < m → n + 1 = 3 ∨ n + 1 = 4) ∧ (m = 0 → n + 1 = 2)
  y_related : ∀ tick ∈ g.yTicks, tick.position = f.y tick.value
  x_ticks : ∀ first last, IsLeast (validTimes parseDate rows) first →
    IsGreatest (validTimes parseDate rows) last → first < last →
      IsTimeAxis g.left g.right first last g.xTicks ∧
        ∀ a ∈ g.points, ∀ t ∈ a.timestamp, a.x = timePosition g.left g.right first last t

variable (p : ChartPlatform) (rows : List MonitorHistoryRow)

theorem mem_samples {rows : List MonitorHistoryRow} {v : Rat} :
    v ∈ samples rows ↔ ∃ row ∈ rows, row.finiteLatency = some v := by
  rw [samples, List.mem_filterMap]

/-- The latencies of the rows in order are those of the rows. -/
theorem mem_measured {v : Rat} :
    v ∈ samples ((ordered p.parseDate rows).map Item.row) ↔ v ∈ samples rows :=
  (ordered_rows.filterMap _).mem_iff

theorem sample_nonneg {rows : List MonitorHistoryRow}
    (hlatency : ∀ row ∈ rows, ∀ q, row.latency_ms = some (.finite q) → 0 ≤ q) {v : Rat}
    (hv : v ∈ samples rows) : 0 ≤ v := by
  obtain ⟨row, hrow, hfinite⟩ := mem_samples.mp hv
  unfold MonitorHistoryRow.finiteLatency at hfinite
  split at hfinite
  · rename_i q hq
    obtain rfl := Option.some.inj hfinite
    exact hlatency row hrow q hq
  · cases hfinite

theorem item_times {parseDate : String → Option Int} {rows : List MonitorHistoryRow} {item : Item}
    {t : Int} (hitem : item ∈ ordered parseDate rows) (ht : item.timestamp = some t) :
    t ∈ Frontend.times (ordered parseDate rows) := List.mem_filterMap.mpr ⟨item, hitem, ht⟩

theorem item_sample {parseDate : String → Option Int} {rows : List MonitorHistoryRow} {item : Item}
    {v : Rat} (hitem : item ∈ ordered parseDate rows) (hv : item.row.finiteLatency = some v) :
    v ∈ samples ((ordered parseDate rows).map Item.row) :=
  mem_samples.mpr ⟨item.row, List.mem_map_of_mem hitem, hv⟩

/-- The valid times of the rows are those of the rows in order. -/
theorem validTimes_eq : validTimes p.parseDate rows =
    {t | t ∈ Frontend.times (ordered p.parseDate rows)} := by
  ext t
  constructor
  · rintro ⟨row, hrow, ht⟩
    obtain ⟨item, hitem, rfl⟩ := List.mem_map.mp (ordered_rows.mem_iff.mpr hrow)
    exact item_times hitem ((timestamp_ordered hitem).trans ht)
  · intro ht
    obtain ⟨item, hitem, ht⟩ := List.mem_filterMap.mp ht
    exact ⟨item.row, ordered_rows.mem_iff.mp (List.mem_map_of_mem hitem),
      (timestamp_ordered hitem).symm.trans ht⟩

/-- **The scales of the chart are exact.** For all rows of latencies that are not below zero, and
every width, each row has its point, which lies inside the frame, later ones no further left and
slower ones no lower; the axis of latencies holds the greatest one in its last step and has three or
four ticks, or two if nothing takes time; and the axis of times goes from the first of the rows at
the left edge to the last at the right, on the scale of the points. -/
theorem scales_exact (frequencySeconds : Option Number) (availableWidth : Rat)
    (hlatency : ∀ row ∈ rows, ∀ q, row.latency_ms = some (.finite q) → 0 ≤ q) :
    HasScales p.parseDate rows (chartFrame p rows availableWidth)
      (buildLatencyChartGeometry p rows frequencySeconds availableWidth) := by
  have hright : (chartFrame p rows availableWidth).left <
      (chartFrame p rows availableWidth).right := left_lt_right
  have hyMax : 0 < (chartFrame p rows availableWidth).yMax := yMax_pos
  have hmem : ∀ a ∈ (buildLatencyChartGeometry p rows frequencySeconds availableWidth).points,
      ∃ item ∈ ordered p.parseDate rows, a = (chartFrame p rows availableWidth).point item := by
    intro a ha
    obtain ⟨item, hitem, rfl⟩ := List.mem_map.mp ha
    exact ⟨item, hitem, rfl⟩
  have hgreatest : ∀ m, IsGreatest {v | v ∈ samples rows} m →
      maxLatency (samples ((ordered p.parseDate rows).map Item.row)) = m := by
    intro m hm
    refine maxLatency_eq ?_ (sample_nonneg hlatency hm.1)
    simpa only [mem_measured] using hm
  constructor
  case points =>
    show ((List.map _ _).map ChartPoint.row).Perm rows
    rw [List.map_map]
    exact ordered_rows
  case timestamps =>
    intro a ha
    obtain ⟨item, hitem, rfl⟩ := hmem a ha
    exact timestamp_ordered hitem
  case latencies =>
    intro a ha
    obtain ⟨item, -, rfl⟩ := hmem a ha
    rfl
  case x_inside =>
    intro a ha
    obtain ⟨item, hitem, rfl⟩ := hmem a ha
    exact x_bounds _ hright.le fun t ht => frame_times times_sorted (item_times hitem ht)
  case x_monotone =>
    intro a ha b hb s hs t ht hst
    obtain ⟨itemA, -, rfl⟩ := hmem a ha
    obtain ⟨itemB, -, rfl⟩ := hmem b hb
    show Frame.x _ itemA.timestamp ≤ Frame.x _ itemB.timestamp
    rw [show itemA.timestamp = some s from hs, show itemB.timestamp = some t from ht]
    exact x_mono _ hright.le hst
  case y_inside =>
    intro a ha y hy
    obtain ⟨item, hitem, rfl⟩ := hmem a ha
    obtain ⟨v, hv, rfl⟩ := Option.map_eq_some_iff.mp hy
    have hv' := item_sample hitem hv
    exact y_bounds _ hyMax (sample_nonneg hlatency ((mem_measured p rows).mp hv'))
      ((le_maxLatency hv').trans yMax_ge)
  case y_antitone =>
    intro a ha b hb u hu v hv ya hya yb hyb huv
    obtain ⟨itemA, -, rfl⟩ := hmem a ha
    obtain ⟨itemB, -, rfl⟩ := hmem b hb
    obtain ⟨u', hu', rfl⟩ := Option.map_eq_some_iff.mp hya
    obtain ⟨v', hv', rfl⟩ := Option.map_eq_some_iff.mp hyb
    obtain rfl := Option.some.inj (hu.symm.trans hu')
    obtain rfl := Option.some.inj (hv.symm.trans hv')
    exact y_anti _ hyMax huv
  case y_zero =>
    intro a ha hzero
    obtain ⟨item, -, rfl⟩ := hmem a ha
    exact Option.map_eq_some_iff.mpr ⟨0, hzero, y_zero _⟩
  case y_axis =>
    intro m hm hpos
    rw [← hgreatest m hm] at hpos ⊢
    obtain ⟨n, -, hn, hlast⟩ := yMax_of_pos hpos
    exact ⟨yMax_ge, hlast, n, hn.symm⟩
  case y_ticks =>
    intro m hm
    obtain ⟨n, hn, hpos, hzero⟩ := yMax_steps
    rw [← hgreatest m hm]
    exact ⟨n, hn, yTicks_values _ p hn (List.ne_nil_of_mem ((mem_measured p rows).mpr hm.1)), hpos,
      hzero⟩
  case y_related =>
    exact fun tick htick => yTicks_position _ p htick
  case x_ticks =>
    intro first last hfirst hlast hlt
    rw [validTimes_eq] at hfirst hlast
    have hne := List.ne_nil_of_mem hfirst.1
    have hends : IsLeast _ (chartFrame p rows availableWidth).first ∧ IsGreatest _
        ((chartFrame p rows availableWidth).first + (chartFrame p rows availableWidth).span) :=
      frame_ends times_sorted hne
    obtain rfl := hends.1.unique hfirst
    obtain rfl := hends.2.unique hlast
    have hspan : 0 < (chartFrame p rows availableWidth).span := by omega
    refine ⟨xTicks_isTimeAxis _ p hright hspan hne, fun a ha t ht => ?_⟩
    obtain ⟨item, -, rfl⟩ := hmem a ha
    show Frame.x _ item.timestamp = _
    rw [show item.timestamp = some t from ht]
    exact x_eq_timePosition _ hspan t

theorem scales_exact_outage :
    HasScales utcPlatform.parseDate outageRows (chartFrame utcPlatform outageRows 640)
      (buildLatencyChartGeometry utcPlatform outageRows (some (.finite 60)) 640) := by
  refine scales_exact utcPlatform outageRows _ _ fun row hrow q hq => ?_
  simp only [outageRows, List.mem_cons, List.not_mem_nil, or_false] at hrow
  rcases hrow with rfl | rfl | rfl | rfl
  · obtain rfl := Number.finite.inj (Option.some.inj hq)
    norm_num
  · obtain rfl := Number.finite.inj (Option.some.inj hq)
    norm_num
  · obtain rfl := Number.finite.inj (Option.some.inj hq)
    norm_num
  · cases hq

end Sentinel.Frontend
