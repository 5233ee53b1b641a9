import Mathlib.Data.Int.Log
import Mathlib.Data.Rat.Floor
import Sentinel.Frontend.History

/-!
# Frontend — Chart

The geometry of the latency chart (`src/features/monitors/history/chart-geometry.ts`), over exact
numbers. A width is finite, as `LatencyChart` passes no other.

* `order`: the rows by time, those without a valid time last.
* `Frame`: the edges of the drawing and the two scales, from which every point has its place.
* `walk`: the pass over the points that cuts them into segments and finds the gaps.
* `buildLatencyChartGeometry`: the frame, the points, the segments, the gaps and the ticks.
-/

namespace Sentinel.Frontend

open Api (Number)

/-- What the chart takes from the platform. -/
structure ChartPlatform where
  /-- `Date.parse`; `none` is `NaN`. -/
  parseDate : String → Option Int
  /-- `toLocaleDateString` of a time, with the month and the day. -/
  localeDate : Rat → String
  /-- `toLocaleTimeString` of a time, with the hour and the minute. -/
  localeTime : Rat → String
  /-- `Number(value.toPrecision(4))`, as text. -/
  fourDigits : Rat → String

structure ChartPoint where
  row : MonitorHistoryRow
  x : Rat
  y : Option Rat
  timestamp : Option Int
deriving DecidableEq

structure ChartTick where
  value : Rat
  position : Rat
  label : String
deriving DecidableEq

structure ChartGap where
  x : Rat
  durationMs : Int
  thresholdMs : Rat
  label : String := "No samples"
deriving DecidableEq

structure LatencyChartGeometry where
  left : Rat
  right : Rat
  top : Rat
  bottom : Rat
  points : List ChartPoint
  segments : List (List ChartPoint)
  gaps : List ChartGap
  xTicks : List ChartTick
  yTicks : List ChartTick

def HEIGHT : Rat := 220
def LEFT : Rat := 54
def RIGHT_PAD : Rat := 12
def TOP : Rat := 14
def BOTTOM_PAD : Rat := 40

/-! ### The rows in order -/

/-- A row with its place in the input and its time. -/
structure Item where
  row : MonitorHistoryRow
  index : Nat
  timestamp : Option Int
deriving DecidableEq

/-- The comparator of the sort. -/
def Item.compare (a b : Item) : Int :=
  match a.timestamp, b.timestamp with
  | some s, some t => if s - t ≠ 0 then s - t else a.row.id - b.row.id
  | some _, none => -1
  | none, some _ => 1
  | none, none => a.index - b.index

def items (parseDate : String → Option Int) (rows : List MonitorHistoryRow) : List Item :=
  rows.zipIdx.map fun r => ⟨r.1, r.2, parseDate r.1.created_at⟩

/-- The rows in order. `Array.prototype.sort` is stable. -/
def ordered (parseDate : String → Option Int) (rows : List MonitorHistoryRow) : List Item :=
  (items parseDate rows).mergeSort fun a b => a.compare b ≤ 0

/-- The valid times, in order. -/
def times (ordered : List Item) : List Int := ordered.filterMap Item.timestamp

/-! ### Scales -/

/-- `10 ** Math.floor(Math.log10(rough))`: the greatest power of ten that is not above it. -/
def powerOfTen (rough : Rat) : Rat := 10 ^ Int.log 10 rough

/-- The digit that a step begins with. -/
def niceFactor (fraction : Rat) : Rat :=
  if fraction ≤ 1 then 1 else if fraction ≤ 2 then 2 else if fraction ≤ 5 then 5 else 10

def niceStep (range : Rat) (targetCount : Int) : Rat :=
  if ¬ 0 < range then 1
  else
    let rough := range / max 1 (targetCount - 1 : Int)
    let power := powerOfTen rough
    let fraction := rough / power
    niceFactor fraction * power

theorem powerOfTen_pos (rough : Rat) : 0 < powerOfTen rough := zpow_pos (by norm_num) _

theorem niceFactor_pos (fraction : Rat) : 0 < niceFactor fraction := by
  unfold niceFactor
  split_ifs <;> norm_num

theorem niceStep_pos (range : Rat) (targetCount : Int) : 0 < niceStep range targetCount := by
  unfold niceStep
  split
  · norm_num
  · exact mul_pos (niceFactor_pos _) (powerOfTen_pos _)

/-- The edges of the drawing and its scales. -/
structure Frame where
  right : Rat
  first : Int
  span : Int
  step : Rat
  yMax : Rat
  step_pos : 0 < step

def Frame.left (_ : Frame) : Rat := LEFT
def Frame.top (_ : Frame) : Rat := TOP
def Frame.bottom (_ : Frame) : Rat := HEIGHT - BOTTOM_PAD

/-- `Math.max(0, ...measured)`. -/
def maxLatency (measured : List Rat) : Rat := measured.foldl max 0

/-- The step of the axis of latencies, `niceStep(max || 1, 4)`. -/
def yStep (greatest : Rat) : Rat := niceStep (if greatest = 0 then 1 else greatest) 4

def frame (times : List Int) (measured : List Rat) (availableWidth : Rat) : Frame :=
  let first := times.head?.getD 0
  let step := yStep (maxLatency measured)
  { right := max (LEFT + 1) (availableWidth - RIGHT_PAD)
    first := first
    span := times.getLast?.getD first - first
    step := step
    yMax := max step (⌈maxLatency measured / step⌉ * step)
    step_pos := niceStep_pos _ _ }

namespace Frame

variable (f : Frame)

/-- Where a time is drawn, as a share of the width. -/
def atRatio (ratio : Rat) : Rat := f.left + ratio * (f.right - f.left)

def x : Option Int → Rat
  | none => f.left
  | some timestamp =>
      if 0 < f.span then f.atRatio ((timestamp - f.first : Int) / f.span)
      else (f.left + f.right) / 2

def y (value : Rat) : Rat := f.bottom - value / f.yMax * (f.bottom - f.top)

def point (item : Item) : ChartPoint :=
  { row := item.row
    x := f.x item.timestamp
    y := item.row.finiteLatency.map f.y
    timestamp := item.timestamp }

end Frame

/-! ### Segments and gaps -/

/-- The time without a check that is a gap: three periods of the monitor. -/
def gapThreshold : Option Number → Option Rat
  | some (.finite frequencySeconds) =>
      if 0 < frequencySeconds then some (frequencySeconds * 3000) else none
  | _ => none

/-- The time from one point to the next, if both have one. -/
def elapsed (previous : Option ChartPoint) (point : ChartPoint) : Option Int :=
  match previous.bind ChartPoint.timestamp, point.timestamp with
  | some s, some t => some (t - s)
  | _, _ => none

/-- The gap that is marked before a point. -/
def gapBefore (threshold : Option Rat) (previous : Option ChartPoint) (point : ChartPoint) :
    Option ChartGap :=
  match threshold, previous, elapsed previous point with
  | some threshold, some previous, some elapsed =>
      if threshold < elapsed then
        some { x := (previous.x + point.x) / 2, durationMs := elapsed, thresholdMs := threshold }
      else none
  | _, _, _ => none

/-- A point has a time and a latency. -/
def ChartPoint.drawable (point : ChartPoint) : Bool := point.y.isSome && point.timestamp.isSome

/-- What the pass over the points has gathered. -/
structure Walk where
  segments : List (List ChartPoint) := []
  gaps : List ChartGap := []
  segment : List ChartPoint := []

/-- `if (segment.length) segments.push(segment)`. -/
def Walk.flush (w : Walk) : List (List ChartPoint) :=
  if w.segment.length ≠ 0 then w.segments ++ [w.segment] else w.segments

/-- One step of the pass. -/
def Walk.visit (threshold : Option Rat) (previous : Option ChartPoint) (w : Walk)
    (point : ChartPoint) : Walk :=
  let gap := gapBefore threshold previous point
  let w :=
    if !point.drawable || gap.isSome then { w with segments := w.flush, segment := [] } else w
  let w := { w with gaps := w.gaps ++ gap.toList }
  if point.drawable then { w with segment := w.segment ++ [point] } else w

/-- `points.forEach`, from a point on. -/
def walk (threshold : Option Rat) : Option ChartPoint → Walk → List ChartPoint → Walk
  | _, w, [] => w
  | previous, w, point :: points =>
      walk threshold (some point) (w.visit threshold previous point) points

/-! ### Ticks -/

def timeLabel (p : ChartPlatform) (timestamp span : Rat) : String :=
  if 86400000 ≤ span then p.localeDate timestamp else p.localeTime timestamp

/-- One tick for one time, and for more as many as fit into the width. -/
def xTicks (p : ChartPlatform) (f : Frame) (times : List Int) : List ChartTick :=
  if times.length = 0 then []
  else if f.span = 0 then
    [⟨f.first, (f.left + f.right) / 2, timeLabel p f.first f.span⟩]
  else
    let tickCount := max 2 ⌊(f.right - f.left) / 110⌋
    (List.range tickCount.toNat).map fun index : Nat =>
      let ratio : Rat := (index : Rat) / (tickCount - 1 : Int)
      let timestamp := f.first + f.span * ratio
      ⟨timestamp, f.left + (f.right - f.left) * ratio, timeLabel p timestamp f.span⟩

/-- `for (let value = from; value <= yMax; value += step)`: the values. -/
def valuesFrom (step yMax : Rat) (hstep : 0 < step) (value : Rat) : List Rat :=
  if value ≤ yMax then value :: valuesFrom step yMax hstep (value + step) else []
termination_by (⌊(yMax - value) / step⌋ + 1).toNat
decreasing_by
  rename_i hle
  have hnonneg : 0 ≤ ⌊(yMax - value) / step⌋ :=
    Int.floor_nonneg.mpr (div_nonneg (sub_nonneg.mpr hle) hstep.le)
  have hnext : (yMax - (value + step)) / step = (yMax - value) / step - 1 := by
    field_simp
    ring
  rw [hnext, Int.floor_sub_one]
  omega

def yTicks (p : ChartPlatform) (f : Frame) (measured : List Rat) : List ChartTick :=
  if measured.length = 0 then []
  else (valuesFrom f.step f.yMax f.step_pos 0).map fun value =>
    ⟨value, f.y value, p.fourDigits value⟩

/-! ### The chart -/

def buildLatencyChartGeometry (p : ChartPlatform) (rows : List MonitorHistoryRow)
    (frequencySeconds : Option Number) (availableWidth : Rat) : LatencyChartGeometry :=
  let ordered := ordered p.parseDate rows
  let times := times ordered
  let measured := samples (ordered.map Item.row)
  let f := frame times measured availableWidth
  let points := ordered.map f.point
  let walked := walk (gapThreshold frequencySeconds) none {} points
  { left := f.left
    right := f.right
    top := f.top
    bottom := f.bottom
    points := points
    segments := walked.flush
    gaps := walked.gaps
    xTicks := xTicks p f times
    yTicks := yTicks p f measured }

end Sentinel.Frontend
