import Sentinel.Frontend.Status
import Sentinel.Library.Rank

/-!
# Frontend — Headline

The headline of the public status page (`summarizeStatus` in `src/features/status/status.ts`).

* `severity`: the order of the labels, from the best to the worst.
* `summarizeStatus`: the headline of some monitors.
* `freshTimes`: the times at which a check counts.
* `headline_worst`: the headline is the worst label of a member, and a label stands for exactly
  as long as its check counts.
-/

namespace Sentinel.Frontend

open Api (Number)

structure StatusSummary where
  label : String
  allOperational : Bool
deriving DecidableEq, Repr

def StatusLabel.severity : StatusLabel → Nat
  | .operational => 0
  | .noData => 1
  | .degraded => 2
  | .down => 3

variable (p : Platform)

/-- The labels are folded without an initial value, so the first of them is where it begins. -/
def summarizeStatus (dateNow : Int) (monitors : List PublicStatusMonitor)
    (options : StatusOptions := {}) : StatusSummary :=
  match monitors.map fun m => classifyStatus p dateNow m options with
  | [] => ⟨"No data", false⟩
  | label :: labels =>
      if (label :: labels).all (· = .operational) then ⟨"All systems operational", true⟩
      else
        let worst := labels.foldl
          (fun worst label => if label.severity > worst.severity then label else worst) label
        ⟨worst.text, false⟩

/-! ### The order of the labels -/

theorem severity_injective : Function.Injective StatusLabel.severity := by
  intro a b h
  cases a <;> cases b <;> first | rfl | cases h

instance : LinearOrder StatusLabel := LinearOrder.lift' StatusLabel.severity severity_injective

theorem le_iff_severity {a b : StatusLabel} : a ≤ b ↔ a.severity ≤ b.severity := Iff.rfl

/-- The order is Operational < No data < Degraded < Down. -/
example : StatusLabel.operational < .noData ∧ StatusLabel.noData < .degraded ∧
    StatusLabel.degraded < .down := by decide

/-- The reducer of the fold takes the worse label. -/
theorem worse_eq_max (worst label : StatusLabel) :
    (if label.severity > worst.severity then label else worst) = max worst label := by
  split
  · rename_i h
    exact (max_eq_right (le_iff_severity.mpr h.le)).symm
  · rename_i h
    exact (max_eq_left (le_iff_severity.mpr (not_lt.mp h))).symm

/-- How the page announces the worst label. -/
def StatusLabel.headline : StatusLabel → String
  | .operational => "All systems operational"
  | label => label.text

/-! ### The headline -/

variable {p} {dateNow : Int} {options : StatusOptions}

/-- The labels of some monitors. -/
def labels (p : Platform) (dateNow : Int) (monitors : List PublicStatusMonitor)
    (options : StatusOptions) : Set StatusLabel :=
  {l | ∃ m ∈ monitors, classifyStatus p dateNow m options = l}

theorem operational_le (l : StatusLabel) : .operational ≤ l := le_iff_severity.mpr (Nat.zero_le _)

theorem headline_eq_text {l : StatusLabel} (h : l ≠ .operational) : l.headline = l.text := by
  cases l with
  | operational => exact absurd rfl h
  | degraded | down | noData => rfl

theorem setOf_label_mem (m : PublicStatusMonitor) (ms : List PublicStatusMonitor) :
    {l | l ∈ classifyStatus p dateNow m options ::
      ms.map fun m => classifyStatus p dateNow m options} = labels p dateNow (m :: ms) options := by
  ext l
  rw [labels, ← List.map_cons (f := fun m => classifyStatus p dateNow m options)]
  exact List.mem_map

theorem isGreatest_labels_cons (m : PublicStatusMonitor) (ms : List PublicStatusMonitor) :
    IsGreatest (labels p dateNow (m :: ms) options)
      ((ms.map fun m => classifyStatus p dateNow m options).foldl max
        (classifyStatus p dateNow m options)) := by
  rw [← setOf_label_mem]
  exact Rank.isGreatest_foldl_max _ _

/-- The headline is the worst label of the monitors. -/
theorem summarizeStatus_eq {monitors : List PublicStatusMonitor} {worst : StatusLabel}
    (h : IsGreatest (labels p dateNow monitors options) worst) :
    summarizeStatus p dateNow monitors options = ⟨worst.headline, worst = .operational⟩ := by
  cases monitors with
  | nil =>
      obtain ⟨_, hm, -⟩ := h.1
      cases hm
  | cons m ms =>
      have hworst := (isGreatest_labels_cons m ms).unique h
      have hall : (classifyStatus p dateNow m options ::
          ms.map fun m => classifyStatus p dateNow m options).all (· = .operational) =
            decide (worst = .operational) := by
        rw [Bool.eq_iff_iff, List.all_eq_true, decide_eq_true_eq]
        constructor
        · intro hevery
          exact of_decide_eq_true (hevery worst (hworst ▸ (Rank.isGreatest_foldl_max _ _).1))
        · intro hbest l hl
          have hle : l ≤ worst := hworst ▸ (Rank.isGreatest_foldl_max _ _).2 hl
          exact decide_eq_true (le_antisymm (hle.trans_eq hbest) (operational_le l))
      rw [summarizeStatus, List.map_cons]
      simp only [worse_eq_max, hworst, hall]
      by_cases hbest : worst = .operational
      · rw [if_pos (decide_eq_true hbest), decide_eq_true hbest, hbest]
        rfl
      · rw [if_neg (by simpa using hbest), decide_eq_false hbest, headline_eq_text hbest]

theorem exists_worst {monitors : List PublicStatusMonitor} (hne : monitors ≠ []) :
    ∃ worst, IsGreatest (labels p dateNow monitors options) worst := by
  cases monitors with
  | nil => exact absurd rfl hne
  | cons m ms =>
      exact ⟨_, isGreatest_labels_cons m ms⟩

/-- The headline depends on which monitors there are, not on their order or number. -/
theorem summarizeStatus_congr {monitors others : List PublicStatusMonitor}
    (h : ∀ m, m ∈ others ↔ m ∈ monitors) :
    summarizeStatus p dateNow others options = summarizeStatus p dateNow monitors options := by
  by_cases hne : monitors = []
  · have hothers : others = [] :=
      List.eq_nil_iff_forall_not_mem.mpr fun m hm => by simpa [hne] using (h m).mp hm
    rw [hne, hothers]
  · obtain ⟨worst, hworst⟩ : ∃ worst, IsGreatest (labels p dateNow monitors options) worst :=
      exists_worst hne
    have hlabels : labels p dateNow others options = labels p dateNow monitors options := by
      simp only [labels, h]
    rw [summarizeStatus_eq hworst, summarizeStatus_eq (hlabels ▸ hworst)]

theorem labels_append (a b : List PublicStatusMonitor) :
    labels p dateNow (a ++ b) options =
      labels p dateNow a options ∪ labels p dateNow b options := by
  ext l
  simp only [labels, List.mem_append, or_and_right, exists_or, Set.mem_ofPred_eq, Set.mem_union]

/-! ### How long a label stands -/

/-- The times at which a check counts: from the check on, for the staleness limit. A limit that is
not a number is none. -/
def freshTimes (checkedAt : Int) : Number → Set Int
  | .finite limit => {now | checkedAt ≤ now ∧ (now : Rat) ≤ checkedAt + limit}
  | .infinity true => ∅
  | .infinity false | .nan => {now | checkedAt ≤ now}

theorem timely_iff (staleAfterMinutes : Number) (now checkedAt : Int) :
    Timely staleAfterMinutes now checkedAt ↔
      now ∈ freshTimes checkedAt (milliseconds staleAfterMinutes) := by
  unfold Timely
  cases milliseconds staleAfterMinutes with
  | nan => exact and_iff_left rfl
  | infinity negative => cases negative <;> simp [Number.lt, freshTimes]
  | finite limit =>
      simp only [Number.lt, freshTimes, Set.mem_ofPred_eq, decide_eq_false_iff_not, not_lt]
      refine and_congr_right fun _ => ?_
      rw [Int.cast_sub, sub_le_iff_le_add, add_comm]

/-- The label of a monitor whose state is known, as long as its check counts. -/
def knownLabel (threshold : Number) (m : PublicStatusMonitor) : StatusLabel :=
  if m.last_state = some "unhealthy" then .down
  else
    match m.uptime_percentage with
    | some (.finite ratio) => if (Number.finite ratio).lt threshold then .degraded else .operational
    | _ => .noData

theorem classifyStatus_timely {m : PublicStatusMonitor} {checkedAt : Int} (hknown : m.Known)
    (hchecked : checkedAt ∈ m.checkedAt p)
    (htimely : Timely (options.staleAfterMinutes.getD (.finite (STATUS_STALE_AFTER_MINUTES p)))
      (options.now.getD dateNow) checkedAt) :
    classifyStatus p dateNow m options =
      knownLabel (options.degradedThresholdPercent.getD
        (.finite (STATUS_DEGRADED_THRESHOLD_PERCENT p))) m := by
  have hstate : ¬ (m.last_state ≠ some "healthy" ∧ m.last_state ≠ some "unhealthy") := by
    rintro ⟨hhealthy, hunhealthy⟩
    rcases hknown with h | ⟨h, -⟩
    · exact hunhealthy h
    · exact hhealthy h
  have hpass := not_or.mpr ⟨not_lt.mpr htimely.1,
    not_or.mpr ⟨Bool.eq_false_iff.mp htimely.2, hstate⟩⟩
  unfold classifyStatus
  rw [Option.mem_def.mp hchecked]
  exact if_neg hpass

/-! ### The summary at a time -/

/-- The options with the time of rendering. -/
def StatusOptions.withNow (options : StatusOptions) (now : Int) : StatusOptions :=
  { options with now := some now }

/-- The staleness limit in force, in milliseconds. -/
def StatusOptions.staleLimit (options : StatusOptions) (p : Platform) : Number :=
  milliseconds (options.staleAfterMinutes.getD (.finite (STATUS_STALE_AFTER_MINUTES p)))

/-- `summary` announces the worst of the labels of its monitors. -/
structure Announces (label : PublicStatusMonitor → StatusLabel)
    (summary : List PublicStatusMonitor → StatusSummary) : Prop where
  empty : (summary []).label = "No data"
  worst : ∀ monitors worst, IsGreatest {l | ∃ m ∈ monitors, label m = l} worst →
    (summary monitors).label = worst.headline
  exists_worst : ∀ monitors, monitors ≠ [] → ∃ worst,
    IsGreatest {l | ∃ m ∈ monitors, label m = l} worst
  allOperational : ∀ monitors, (summary monitors).allOperational = true ↔
    monitors ≠ [] ∧ ∀ m ∈ monitors, label m = .operational
  same_members : ∀ monitors others, (∀ m, m ∈ others ↔ m ∈ monitors) →
    summary others = summary monitors
  append : ∀ a b worstA worstB, IsGreatest {l | ∃ m ∈ a, label m = l} worstA →
    IsGreatest {l | ∃ m ∈ b, label m = l} worstB →
      (summary (a ++ b)).label = (max worstA worstB).headline
  add : ∀ m monitors worst worst', IsGreatest {l | ∃ m ∈ monitors, label m = l} worst →
    IsGreatest {l | ∃ m' ∈ m :: monitors, label m' = l} worst' → worst ≤ worst'

theorem announces (p : Platform) (dateNow : Int) (options : StatusOptions) :
    Announces (fun m => classifyStatus p dateNow m options)
      fun monitors => summarizeStatus p dateNow monitors options := by
  refine ⟨rfl, fun _ _ h => ?_, fun _ => exists_worst, fun monitors => ?_,
    fun _ _ => summarizeStatus_congr, fun a b worstA worstB ha hb => ?_,
    fun m monitors _ _ h h' => ?_⟩
  · rw [summarizeStatus_eq h]
  · by_cases hne : monitors = []
    · subst hne
      exact iff_of_false Bool.false_ne_true fun h => h.1 rfl
    · obtain ⟨worst, hworst⟩ : ∃ worst, IsGreatest (labels p dateNow monitors options) worst :=
        exists_worst hne
      rw [summarizeStatus_eq hworst]
      simp only [decide_eq_true_eq, hne, ne_eq, not_false_eq_true, true_and]
      constructor
      · intro hbest m hm
        exact le_antisymm ((hworst.2 ⟨m, hm, rfl⟩).trans_eq hbest) (operational_le _)
      · intro hall
        obtain ⟨m, hm, hlabel⟩ := hworst.1
        exact hlabel.symm.trans (hall m hm)
  · have hboth : IsGreatest (labels p dateNow (a ++ b) options) (max worstA worstB) := by
      rw [labels_append]
      exact ha.union hb
    rw [summarizeStatus_eq hboth]
  · refine h'.2 ?_
    obtain ⟨m', hm', hlabel⟩ := h.1
    exact ⟨m', List.mem_cons_of_mem m hm', hlabel⟩

/-- A known state is labelled for as long as its check counts, always the same. -/
theorem label_fresh (p : Platform) (dateNow : Int) (options : StatusOptions)
    {m : PublicStatusMonitor} (hknown : m.Known) {checkedAt : Int}
    (hchecked : checkedAt ∈ m.checkedAt p) :
    {now | classifyStatus p dateNow m (options.withNow now) ≠ .noData} =
        freshTimes checkedAt (options.staleLimit p) ∧
      ∀ s ∈ freshTimes checkedAt (options.staleLimit p),
        ∀ t ∈ freshTimes checkedAt (options.staleLimit p),
          classifyStatus p dateNow m (options.withNow s) =
            classifyStatus p dateNow m (options.withNow t) := by
  refine ⟨?_, fun s hs t ht => ?_⟩
  · ext now
    refine (classifyStatus_ne_noData hknown).trans ?_
    constructor
    · rintro ⟨c, hc, htimely⟩
      obtain rfl := Option.mem_unique hchecked hc
      exact (timely_iff _ _ _).mp htimely
    · intro hfresh
      exact ⟨checkedAt, hchecked, (timely_iff _ _ _).mpr hfresh⟩
  · have hs' : classifyStatus p dateNow m (options.withNow s) = knownLabel _ m :=
      classifyStatus_timely hknown hchecked ((timely_iff _ s _).mpr hs)
    have ht' : classifyStatus p dateNow m (options.withNow t) = knownLabel _ m :=
      classifyStatus_timely hknown hchecked ((timely_iff _ t _).mpr ht)
    exact hs'.trans ht'.symm

/-- **The headline never flatters.** At every time, under all options, the summary of some monitors
announces the worst of their labels, whatever their order and however often they occur. And a
monitor whose state is known is labelled from its check to the end of the staleness limit, and at no
other time, with one label. -/
theorem headline_worst (p : Platform) (dateNow : Int) (options : StatusOptions) :
    (∀ now, Announces (fun m => classifyStatus p dateNow m (options.withNow now))
      fun monitors => summarizeStatus p dateNow monitors (options.withNow now)) ∧
    ∀ m : PublicStatusMonitor, m.Known → ∀ checkedAt ∈ m.checkedAt p,
      {now | classifyStatus p dateNow m (options.withNow now) ≠ .noData} =
          freshTimes checkedAt (options.staleLimit p) ∧
        ∀ s ∈ freshTimes checkedAt (options.staleLimit p),
          ∀ t ∈ freshTimes checkedAt (options.staleLimit p),
            classifyStatus p dateNow m (options.withNow s) =
              classifyStatus p dateNow m (options.withNow t) :=
  ⟨fun now => announces p dateNow (options.withNow now),
    fun _ hknown _ hchecked => label_fresh p dateNow options hknown hchecked⟩

/-- A build with the default settings, which reads the one time it is shown. -/
def defaultBuild : Platform where
  env _ := none
  toNumber _ := .nan
  parseDate value := if value = "1970-01-01T00:00:05.000Z" then some 5000 else none

/-- Checked five seconds after the epoch, a service that is down counts for five minutes. -/
theorem headline_worst_down :
    {now | classifyStatus defaultBuild 0
      ⟨"Site", some "unhealthy", none, some "1970-01-01T00:00:05.000Z"⟩
      (StatusOptions.withNow { staleAfterMinutes := some (.finite 5) } now) ≠ .noData} =
        freshTimes 5000 (.finite (5 * 60000)) :=
  ((headline_worst defaultBuild 0 { staleAfterMinutes := some (.finite 5) }).2
    ⟨"Site", some "unhealthy", none, some "1970-01-01T00:00:05.000Z"⟩ (.inl rfl) 5000 rfl).1

end Sentinel.Frontend
