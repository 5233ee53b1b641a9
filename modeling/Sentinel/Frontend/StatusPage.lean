import Sentinel.Frontend.Status
import Sentinel.Library.Transition

/-!
# Frontend — StatusPage

The public status page (`src/features/status/StatusPage.tsx`): its own clock, which an interval
sets, and the data of its query, which other timers, the window's focus and the reader refresh.
One clock of the platform drives both.

* `StatusPage.step`: the interval fires, a fetch completes or fails, and time passes, in any order.
* `Truthful`: no monitor that was checked in time is shown as one without data.
* `truthful_run`: which data the page shows so.
-/

namespace Sentinel.Frontend

open Transition
open Api (Number)

def REFRESH_INTERVAL_MS : Int := 30000

/-- The data of the query that succeeded last. -/
structure StatusData where
  monitors : List PublicStatusMonitor
  fetchedAt : Int
deriving DecidableEq

structure StatusPage where
  /-- The state `now` of the component. -/
  clock : Int
  /-- When the interval fires next. -/
  due : Int
  data : Option StatusData
  /-- `Date.now()`. -/
  now : Int
  clock_le : clock ≤ now
  fetched : ∀ d ∈ data, d.fetchedAt ≤ now

namespace StatusPage

inductive Action where
  | elapse (now : Int)
  /-- The interval fires, at its time or later. -/
  | tick
  /-- A fetch completes with its rows, or with an error. -/
  | complete (result : Option (List PublicStatusMonitor))

/-- The page is opened, with the data that the client has kept. -/
def mount (now : Int) (data : Option StatusData) (h : ∀ d ∈ data, d.fetchedAt ≤ now) :
    StatusPage where
  clock := now
  due := now + REFRESH_INTERVAL_MS
  data := data
  now := now
  clock_le := le_rfl
  fetched := h

def elapse (s : StatusPage) (now : Int) (h : s.now ≤ now) : StatusPage :=
  { s with
    now := now
    clock_le := s.clock_le.trans h
    fetched := fun d hd => (s.fetched d hd).trans h }

/-- `setNow(Date.now())`. -/
def tick (s : StatusPage) : StatusPage :=
  { s with clock := s.now, due := s.due + REFRESH_INTERVAL_MS, clock_le := le_rfl }

/-- New rows take the place of the data; an error leaves it. -/
def complete (s : StatusPage) : Option (List PublicStatusMonitor) → StatusPage
  | some monitors =>
      { s with
        data := some ⟨monitors, s.now⟩
        fetched := fun d hd => by
          obtain rfl := Option.some.inj hd
          exact le_rfl }
  | none => s

def step (s : StatusPage) : Action → Option StatusPage
  | .elapse now => if h : s.now ≤ now then some (s.elapse now h) else none
  | .tick => if s.due ≤ s.now then some s.tick else none
  | .complete result => some (s.complete result)

/-- `query.data ?? []`. -/
def monitors (s : StatusPage) : List PublicStatusMonitor := s.data.elim [] (·.monitors)

variable (p : Platform)

/-- The label that the page renders for a monitor. -/
def label (s : StatusPage) (m : PublicStatusMonitor) : StatusLabel :=
  classifyStatus p s.now m { now := some s.clock }

/-- A check that is timely for the classifier, when the settings are those of the build. -/
def Fresh (now checkedAt : Int) : Prop :=
  Timely (.finite (STATUS_STALE_AFTER_MINUTES p)) now checkedAt

instance (now checkedAt : Int) : Decidable (Fresh p now checkedAt) :=
  inferInstanceAs (Decidable (Timely _ _ _))

/-- A monitor whose state is known, checked before the data was fetched, and not too long ago. -/
def Checked (s : StatusPage) (m : PublicStatusMonitor) : Prop :=
  m.Known ∧ ∃ checkedAt ∈ m.checkedAt p,
    (∀ d ∈ s.data, checkedAt ≤ d.fetchedAt) ∧ Fresh p s.now checkedAt

/-- No such monitor is shown as one without data. -/
def Truthful (s : StatusPage) : Prop :=
  ∀ m ∈ s.monitors, s.Checked p m → s.label p m ≠ .noData

/-- The rows that a fetch brings have no fresh check of a known state after the page's clock. -/
def Keeps (s : StatusPage) : Action → Prop
  | .complete (some monitors) => ∀ m ∈ monitors, m.Known → ∀ checkedAt ∈ m.checkedAt p,
      Fresh p s.now checkedAt → checkedAt ≤ s.clock
  | _ => True

instance (s : StatusPage) : ∀ a, Decidable (s.Keeps p a)
  | .complete (some monitors) =>
      inferInstanceAs (Decidable (∀ m ∈ monitors, m.Known → ∀ checkedAt ∈ m.checkedAt p,
        Fresh p s.now checkedAt → checkedAt ≤ s.clock))
  | .complete none | .elapse _ | .tick => isTrue trivial

variable {p} {s s' : StatusPage} {a : Action}

/-! ### One state -/

/-- An earlier clock finds a check younger. -/
theorem timely_earlier {staleAfterMinutes : Rat} {now earlier checkedAt : Int}
    (h : Timely (.finite staleAfterMinutes) now checkedAt) (hle : earlier ≤ now)
    (hchecked : checkedAt ≤ earlier) : Timely (.finite staleAfterMinutes) earlier checkedAt := by
  have hage : ((now - checkedAt : Int) : Rat) ≤ staleAfterMinutes * 60000 :=
    not_lt.mp (decide_eq_false_iff_not.mp h.2)
  have hyounger : ((earlier - checkedAt : Int) : Rat) ≤ (now - checkedAt : Int) :=
    Int.cast_le.mpr (sub_le_sub_right hle _)
  exact ⟨hchecked, decide_eq_false (not_lt.mpr (hyounger.trans hage))⟩

/-- A monitor that was checked in time has a label if its check is not after the page's clock. -/
theorem label_ne_noData {m : PublicStatusMonitor} (hm : s.Checked p m) :
    s.label p m ≠ .noData ↔ ∀ checkedAt ∈ m.checkedAt p, checkedAt ≤ s.clock := by
  obtain ⟨hknown, checkedAt, hchecked, -, hfresh⟩ := hm
  rw [label, classifyStatus_ne_noData hknown]
  constructor
  · rintro ⟨c, hc, htimely⟩ c' hc'
    obtain rfl := Option.mem_unique hc hc'
    exact htimely.1
  · intro h
    exact ⟨checkedAt, hchecked, timely_earlier hfresh s.clock_le (h checkedAt hchecked)⟩

/-! ### Steps and runs -/

/-- Rows fetched with a fresh check after the page's clock are shown without data. -/
theorem truthful_complete {monitors : List PublicStatusMonitor} :
    (s.complete (some monitors)).Truthful p ↔ s.Keeps p (.complete (some monitors)) := by
  constructor
  · intro h m hm hknown checkedAt hchecked hfresh
    have hm' : (s.complete (some monitors)).Checked p m := by
      refine ⟨hknown, checkedAt, hchecked, fun d hd => ?_, hfresh⟩
      obtain rfl := Option.some.inj hd
      exact hfresh.1
    exact (label_ne_noData hm').mp (h m hm hm') checkedAt hchecked
  · intro h m hm hchecked
    refine (label_ne_noData hchecked).mpr fun c hc => ?_
    obtain ⟨hknown, checkedAt, hmem, -, hfresh⟩ := hchecked
    obtain rfl := Option.mem_unique hmem hc
    exact h m hm hknown checkedAt hc hfresh

/-- What is shown and fresh was fresh before. -/
theorem Checked.of_elapse {m : PublicStatusMonitor} {now : Int} {hle : s.now ≤ now}
    (hm : m ∈ s.monitors) (h : (s.elapse now hle).Checked p m) : s.Checked p m := by
  obtain ⟨hknown, checkedAt, hchecked, hfetched, hfresh⟩ := h
  refine ⟨hknown, checkedAt, hchecked, hfetched, ?_⟩
  cases hdata : s.data with
  | none =>
      rw [monitors, hdata] at hm
      exact absurd hm List.not_mem_nil
  | some d => exact timely_earlier hfresh hle ((hfetched d hdata).trans (s.fetched d hdata))

/-- A page whose clock shows the time shows no fresh check as missing. -/
theorem truthful_of_clock (hclock : s.clock = s.now) : s.Truthful p := by
  intro m _ hchecked
  refine (label_ne_noData hchecked).mpr fun c hc => ?_
  obtain ⟨-, checkedAt, hmem, -, hfresh⟩ := hchecked
  obtain rfl := Option.mem_unique hmem hc
  rw [hclock]
  exact hfresh.1

theorem truthful_tick (s : StatusPage) : s.tick.Truthful p := truthful_of_clock rfl

theorem truthful_mount {now : Int} {data : Option StatusData}
    {h : ∀ d ∈ data, d.fetchedAt ≤ now} : (mount now data h).Truthful p := truthful_of_clock rfl

/-- A step from a page that shows no fresh check as missing leads to such a page, unless it is a
fetch that brings a check after the page's clock. -/
theorem step_truthful (h : s.Truthful p) (hs : s.step a = some s') :
    s'.Truthful p ↔ s.Keeps p a := by
  cases a with
  | elapse now =>
      simp only [step] at hs
      split at hs
      · obtain rfl := Option.some.inj hs
        exact iff_of_true (fun m hm hchecked => h m hm (hchecked.of_elapse hm)) trivial
      · cases hs
  | tick =>
      simp only [step] at hs
      split at hs
      · obtain rfl := Option.some.inj hs
        exact iff_of_true (truthful_tick s) trivial
      · cases hs
  | complete result =>
      obtain rfl := Option.some.inj hs
      cases result with
      | none => exact iff_of_true h trivial
      | some monitors => exact truthful_complete

/-- **A fresh check is shown.** In every run of the page in which no fetch brings, for a monitor
whose state is known, a fresh check after the page's clock, no such monitor is ever shown as one
without data; from a page of that kind, a step leads to another one if and only if it is no such
fetch; and in every state such a monitor has a label if and only if its check is not after the
page's clock. -/
theorem truthful_run (p : Platform) :
    (∀ now data h actions s,
      Guarded step (Keeps p) (mount now data h) actions s → s.Truthful p) ∧
    (∀ (s s' : StatusPage) a, s.Truthful p → s.step a = some s' → (s'.Truthful p ↔ s.Keeps p a)) ∧
    ∀ (s : StatusPage) (m : PublicStatusMonitor), s.Checked p m →
      (s.label p m ≠ .noData ↔ ∀ checkedAt ∈ m.checkedAt p, checkedAt ≤ s.clock) := by
  refine ⟨fun now data h actions s hrun => ?_, fun _ _ _ h hs => step_truthful h hs,
    fun _ _ hm => label_ne_noData hm⟩
  exact hrun.invariant (fun _ _ _ h hkeeps hs => (step_truthful h hs).mpr hkeeps) truthful_mount

/-- A build with the default settings. -/
def build : Platform where
  env _ := none
  toNumber _ := .nan
  parseDate value := if value = "1970-01-01T00:00:05.000Z" then some 5000 else none

def checkedAfter5s : PublicStatusMonitor :=
  ⟨"Site", some "healthy", some (.finite 100), some "1970-01-01T00:00:05.000Z"⟩

def opened : StatusPage := mount 0 none fun _ h => (nomatch h)

/-- The first fetch fails, and a second one brings a check of a second ago. -/
def retried : List Action :=
  [.elapse 100, .complete none, .elapse 6000, .complete (some [checkedAfter5s])]

/-- The check is after the page's clock, which still has the time when the page was opened. -/
theorem truthful_run_retried : ¬ ∀ p now data h actions s,
    Run step (mount now data h) actions s → s.Truthful p := by
  intro hclaim
  have hexec : (exec step opened retried).map (fun s => (s.monitors, s.data, s.now, s.clock)) =
      some ([checkedAfter5s], some ⟨[checkedAfter5s], 6000⟩, 6000, 0) := by decide +kernel
  obtain ⟨s, hs, heq⟩ := Option.map_eq_some_iff.mp hexec
  simp only [Prod.mk.injEq] at heq
  obtain ⟨hmonitors, hdata, hnow, hclock⟩ := heq
  have hchecked : s.Checked build checkedAfter5s := by
    refine ⟨.inr ⟨rfl, 100, rfl⟩, 5000, rfl, fun d hd => ?_, ?_⟩
    · rw [hdata] at hd
      obtain rfl := Option.some.inj hd
      decide
    · rw [hnow]
      decide +kernel
  have htruthful := hclaim build 0 none (fun _ h => (nomatch h)) _ s (run_of_exec hs)
  have hlabel := htruthful checkedAfter5s (hmonitors ▸ List.mem_cons_self) hchecked
  have hbefore := (label_ne_noData hchecked).mp hlabel 5000 rfl
  rw [hclock] at hbefore
  exact absurd hbefore (by decide)

/-- The same check, in the data of the next refresh, after the interval has fired. -/
def refreshed : List Action :=
  [.elapse 30000, .tick, .elapse 30200, .complete (some [checkedAfter5s])]

theorem truthful_run_refreshed : ∃ s : StatusPage,
    Guarded step (Keeps build) opened refreshed s ∧ checkedAfter5s ∈ s.monitors ∧
      s.label build checkedAfter5s = .operational ∧ s.Truthful build := by
  have hexec : (execWithin step (Keeps build) opened refreshed).map
      (fun s => (s.monitors, s.label build checkedAfter5s)) =
        some ([checkedAfter5s], .operational) := by decide +kernel
  obtain ⟨s, hs, heq⟩ := Option.map_eq_some_iff.mp hexec
  simp only [Prod.mk.injEq] at heq
  have hrun := guarded_of_exec hs
  exact ⟨s, hrun, heq.1 ▸ List.mem_cons_self, heq.2,
    (truthful_run build).1 0 none (fun _ h => (nomatch h)) _ s hrun⟩

end StatusPage

end Sentinel.Frontend
