import Mathlib.Data.Rat.Floor
import Sentinel.Frontend.Status
import Sentinel.Library.Transition

/-!
# Frontend — RetryAfter

When the queries of the detail page may be fetched again
(`src/features/monitors/history/useMonitorHistory.ts`): the deadline of a `Retry-After`, the period
of the polling, what the window's focus, a mount and the network's return ask, and the Retry button.

* `PolledQuery.step`: what the library of queries does with one query, in any order, and the answers
  of the page's functions that it asks for.
* `Documented`: what is relied on of the library.
* `patient`: no fetch that the page decides on starts before the deadline or after a terminal
  failure.
-/

namespace Sentinel.Frontend

open Transition
open Api (Number)

/-- What a request may throw: an `ApiError`, or another error. -/
inductive Failure where
  | apiError (status : Nat) (retryAfter : Option String)
  | other
deriving DecidableEq

def REFRESH_MS : Int := 30000

/-- `trim`. -/
def trim (s : String) : String :=
  String.ofList ((s.toList.dropWhile Api.isSpace).reverse.dropWhile Api.isSpace).reverse

variable (p : Platform)

def retryAfterDeadline (error : Option Failure) (updatedAt : Int) : Option Rat :=
  match error with
  | some (.apiError _ (some retryAfter)) =>
      -- the empty text is falsy
      if retryAfter = "" then none
      else
        match p.toNumber (trim retryAfter) with
        | .finite seconds => some (updatedAt + max 0 seconds * 1000)
        | _ => (p.parseDate (trim retryAfter)).map (↑)
  | _ => none

def isTerminalFailure : Option Failure → Bool
  | some (.apiError status _) => status = 401 || status = 403 || status = 404
  | _ => false

def isInRetryCooldown (error : Option Failure) (errorUpdatedAt now : Int) : Bool :=
  match retryAfterDeadline p error errorUpdatedAt with
  | some deadline => (now : Rat) < deadline
  | none => false

/-- `none` is `false`. -/
def pollingPolicy (error : Option Failure) (errorUpdatedAt now : Int) : Option Rat :=
  if isTerminalFailure error then none
  else if error = none then some REFRESH_MS
  else
    match retryAfterDeadline p error errorUpdatedAt with
    | none => some REFRESH_MS
    | some deadline => some (max REFRESH_MS (deadline - now))

def permitsAutomaticRefetch (error : Option Failure) (errorUpdatedAt now : Int) : Bool :=
  !isTerminalFailure error && !isInRetryCooldown p error errorUpdatedAt now

/-- The delay of a timer of the browser, which reads it as a 32-bit integer. -/
def timerDelay (delay : Rat) : Int :=
  max 0 (Int.bmod (if 0 ≤ delay then ⌊delay⌋ else ⌈delay⌉) (2 ^ 32))

/-- A browser that reads two minutes. -/
def twoMinutes : Platform where
  env _ := none
  toNumber value := if value = "120" then .finite 120 else .nan
  parseDate _ := none

/-- What a fetch starts from. -/
inductive Cause where
  /-- `refetchInterval`. -/
  | interval
  /-- `refetchOnWindowFocus`, `refetchOnMount` or `refetchOnReconnect`. -/
  | event
  /-- `refetchHistory` or `refetchAlerts`. -/
  | retry
  /-- None of the page's functions is asked: the key is another one, or there are no data yet. -/
  | library
deriving DecidableEq

/-- A fetch, and the failure that is known to whom it starts from. -/
structure Fetch where
  cause : Cause
  error : Option Failure
  errorUpdatedAt : Int
  time : Int
deriving DecidableEq

/-- A query of the page, whose state is the library's. -/
structure PolledQuery where
  error : Option Failure
  errorUpdatedAt : Int
  /-- `error` and `errorUpdatedAt` of the last render, which the Retry button sees. -/
  rendered : Option Failure × Int
  /-- When `refetchInterval` was called for this state, and what it returned. -/
  polled : List (Int × Option Rat)
  fetches : List Fetch
  /-- `Date.now()`. -/
  now : Int
deriving DecidableEq

namespace PolledQuery

inductive Action where
  | elapse (now : Int)
  /-- The state of the query changes: a request has ended, or the library resets it. -/
  | change (error : Option Failure) (errorUpdatedAt : Int)
  /-- The library calls `refetchInterval`. -/
  | poll
  /-- The library starts a fetch. -/
  | fetch (cause : Cause)
  /-- The component renders. -/
  | render
  /-- The Retry button. -/
  | retry
deriving DecidableEq

/-- A query that is observed from now on, as the library has kept it. -/
def mount (error : Option Failure) (errorUpdatedAt now : Int) : PolledQuery :=
  ⟨error, errorUpdatedAt, (error, errorUpdatedAt), [], [], now⟩

/-- `refetchHistory` and `refetchAlerts`, of the last render. -/
def refetch (s : PolledQuery) : PolledQuery :=
  if isTerminalFailure s.rendered.1 || isInRetryCooldown p s.rendered.1 s.rendered.2 s.now then s
  else { s with fetches := s.fetches ++ [⟨.retry, s.rendered.1, s.rendered.2, s.now⟩] }

def step (s : PolledQuery) : Action → Option PolledQuery
  | .elapse now => if s.now ≤ now then some { s with now := now } else none
  | .change error errorUpdatedAt =>
      some { s with error := error, errorUpdatedAt := errorUpdatedAt, polled := [] }
  | .poll =>
      some { s with
        polled := s.polled ++ [(s.now, pollingPolicy p s.error s.errorUpdatedAt s.now)] }
  | .fetch cause =>
      some { s with fetches := s.fetches ++ [⟨cause, s.error, s.errorUpdatedAt, s.now⟩] }
  | .render => some { s with rendered := (s.error, s.errorUpdatedAt) }
  | .retry => some (s.refetch p)

/-- A period that was returned for this state is over. -/
def due (s : PolledQuery) : Bool :=
  s.polled.any fun call => call.2.any fun period => call.1 + timerDelay period ≤ s.now

/-- What is relied on of the library of queries: it polls when a period that `refetchInterval`
returned for the state of the query is over, an event starts a fetch only if the function of the
event allows it, and nothing but the page calls the page's callbacks. -/
def Documented (s : PolledQuery) : Action → Prop
  | .fetch .interval => s.due
  | .fetch .event => permitsAutomaticRefetch p s.error s.errorUpdatedAt s.now
  | .fetch .retry => False
  | _ => True

instance (s : PolledQuery) : ∀ a, Decidable (s.Documented p a)
  | .fetch .interval => inferInstanceAs (Decidable (s.due = true))
  | .fetch .event =>
      inferInstanceAs (Decidable (permitsAutomaticRefetch p s.error s.errorUpdatedAt s.now = true))
  | .fetch .retry => isFalse id
  | .fetch .library | .elapse _ | .change _ _ | .poll | .render | .retry => isTrue trivial

/-- A deadline in whole milliseconds that a timer set at `now` can reach. -/
def Near (error : Option Failure) (updatedAt now : Int) : Prop :=
  ∀ deadline ∈ retryAfterDeadline p error updatedAt,
    deadline.den = 1 ∧ deadline.num < now + 2 ^ 31

instance (error : Option Failure) (updatedAt now : Int) : Decidable (Near p error updatedAt now) :=
  inferInstanceAs (Decidable (∀ deadline ∈ retryAfterDeadline p error updatedAt, _))

/-- A failure comes with no deadline, or with one that is near. -/
def Prompt (s : PolledQuery) : Action → Prop
  | .change error errorUpdatedAt => Near p error errorUpdatedAt s.now
  | _ => True

instance (s : PolledQuery) : ∀ a, Decidable (s.Prompt p a)
  | .change error errorUpdatedAt => inferInstanceAs (Decidable (Near p error errorUpdatedAt s.now))
  | .elapse _ | .poll | .fetch _ | .render | .retry => isTrue trivial

/-- The library does what it documents, and the deadlines are near. -/
def Allows (s : PolledQuery) (a : Action) : Prop := s.Documented p a ∧ s.Prompt p a

instance (s : PolledQuery) (a : Action) : Decidable (s.Allows p a) :=
  inferInstanceAs (Decidable (_ ∧ _))

/-- A fetch that starts neither before the deadline nor after a terminal failure, unless none of the
page's functions is asked. -/
def Patient (f : Fetch) : Prop :=
  f.cause ≠ .library → isTerminalFailure f.error = false ∧
    ∀ deadline ∈ retryAfterDeadline p f.error f.errorUpdatedAt, deadline ≤ f.time

/-- What `refetchInterval` returned is the policy for the state, at a time from which the deadline
could be reached. -/
structure Inv (s : PolledQuery) : Prop where
  near : Near p s.error s.errorUpdatedAt s.now
  polled : ∀ call ∈ s.polled, call.2 = pollingPolicy p s.error s.errorUpdatedAt call.1 ∧
    Near p s.error s.errorUpdatedAt call.1
  patient : ∀ f ∈ s.fetches, Patient p f

variable {p} {s s' : PolledQuery} {a : Action}

/-! ### The policy -/

theorem permitsAutomaticRefetch_iff {error : Option Failure} {updatedAt now : Int} :
    permitsAutomaticRefetch p error updatedAt now ↔ isTerminalFailure error = false ∧
      ∀ deadline ∈ retryAfterDeadline p error updatedAt, deadline ≤ now := by
  rw [permitsAutomaticRefetch, isInRetryCooldown, Bool.and_eq_true, Bool.not_eq_true']
  refine and_congr_right fun _ => ?_
  cases retryAfterDeadline p error updatedAt with
  | none => simp
  | some deadline => simp

theorem pollingPolicy_eq_none {error : Option Failure} {updatedAt now : Int} :
    pollingPolicy p error updatedAt now = none ↔ isTerminalFailure error := by
  rw [pollingPolicy]
  split
  · simpa
  · rename_i hterminal
    refine iff_of_false ?_ hterminal
    split
    · exact Option.some_ne_none _
    · split <;> exact Option.some_ne_none _

theorem near_none (updatedAt now : Int) : Near p none updatedAt now :=
  fun deadline h => absurd h (Option.not_mem_none deadline)

theorem Near.later {error : Option Failure} {updatedAt now now' : Int}
    (h : Near p error updatedAt now) (hle : now ≤ now') : Near p error updatedAt now' := by
  intro deadline hdeadline
  obtain ⟨hwhole, hlt⟩ := h deadline hdeadline
  exact ⟨hwhole, hlt.trans_le (Int.add_le_add_right hle _)⟩

/-- A delay of whole milliseconds that fits in 32 bits is kept. -/
theorem timerDelay_intCast {delay : Int} (h₀ : 0 ≤ delay) (h : delay < 2 ^ 31) :
    timerDelay delay = delay := by
  have hcast : (0 : Rat) ≤ delay := by exact_mod_cast h₀
  rw [timerDelay, if_pos hcast, Int.floor_intCast, Int.bmod_eq_of_le (by omega) (by omega)]
  exact max_eq_right h₀

/-- A delay of 25 to 49 days is none: a timer that follows such a deadline fires at once. -/
theorem timerDelay_far {delay : Int} (h : 2 ^ 31 ≤ delay) (h' : delay < 2 ^ 32) :
    timerDelay delay = 0 := by
  have hcast : (0 : Rat) ≤ delay := by exact_mod_cast (by omega : 0 ≤ delay)
  have hwrapped : Int.bmod delay (2 ^ 32) = delay - 2 ^ 32 := by
    rw [← Int.sub_bmod_right, Int.bmod_eq_of_le (by omega) (by omega)]
    norm_num
  rw [timerDelay, if_pos hcast, Int.floor_intCast, hwrapped]
  exact max_eq_left (by omega)

/-- A timer that follows the policy ends after a deadline that is near. -/
theorem timerDelay_pollingPolicy {error : Option Failure} {updatedAt now : Int}
    {period deadline : Rat} (hnear : Near p error updatedAt now)
    (hperiod : pollingPolicy p error updatedAt now = some period)
    (hdeadline : deadline ∈ retryAfterDeadline p error updatedAt) :
    deadline ≤ (now + timerDelay period : Int) := by
  obtain ⟨hwhole, hlt⟩ := hnear deadline hdeadline
  obtain ⟨t, rfl⟩ : ∃ t : Int, deadline = t := ⟨_, ((Rat.den_eq_one_iff _).mp hwhole).symm⟩
  rw [Rat.num_intCast] at hlt
  have hperiod' : period = (max REFRESH_MS (t - now) : Int) := by
    rw [pollingPolicy] at hperiod
    split at hperiod
    · cases hperiod
    · split at hperiod
      · rename_i herror
        rw [herror] at hdeadline
        cases hdeadline
      · rw [Option.mem_def.mp hdeadline] at hperiod
        obtain rfl := Option.some.inj hperiod
        push_cast
        rfl
  have hrefresh : REFRESH_MS = 30000 := rfl
  rw [hperiod', timerDelay_intCast (by omega) (by omega)]
  exact_mod_cast (by omega : t ≤ now + max REFRESH_MS (t - now))

/-! ### Steps -/

/-- The Retry button asks on the terms of the policy, for the failure that is shown. -/
theorem refetch_eq (s : PolledQuery) : s.refetch p =
    if permitsAutomaticRefetch p s.rendered.1 s.rendered.2 s.now then
      { s with fetches := s.fetches ++ [⟨.retry, s.rendered.1, s.rendered.2, s.now⟩] }
    else s := by
  rw [refetch, permitsAutomaticRefetch]
  cases isTerminalFailure s.rendered.1 <;>
    cases isInRetryCooldown p s.rendered.1 s.rendered.2 s.now <;> rfl

/-- A period that was returned for the state does not end before the deadline, and was returned
after no terminal failure. -/
theorem Inv.due (h : Inv p s) (hdue : s.due) :
    isTerminalFailure s.error = false ∧
      ∀ deadline ∈ retryAfterDeadline p s.error s.errorUpdatedAt, deadline ≤ s.now := by
  obtain ⟨⟨since, returned⟩, hcall, hover⟩ := List.any_eq_true.mp hdue
  obtain ⟨period, rfl, hends⟩ := (Option.any_eq_true _ _).mp hover
  obtain ⟨hperiod, hnear⟩ := h.polled _ hcall
  refine ⟨?_, fun deadline hdeadline => ?_⟩
  · have hpolls : pollingPolicy p s.error s.errorUpdatedAt since ≠ none :=
      hperiod ▸ Option.some_ne_none _
    exact eq_false_of_ne_true (mt pollingPolicy_eq_none.mpr hpolls)
  · have hends : since + timerDelay period ≤ s.now := of_decide_eq_true hends
    refine (timerDelay_pollingPolicy hnear hperiod.symm hdeadline).trans ?_
    exact_mod_cast hends

/-- The fetches that the step starts are patient. -/
theorem Inv.fetches (h : Inv p s) (hallows : s.Allows p a) (hs : s.step p a = some s') :
    ∀ f ∈ s'.fetches, f ∈ s.fetches ∨ Patient p f := by
  cases a with
  | elapse now =>
      simp only [step, Option.ite_none_right_eq_some] at hs
      obtain ⟨-, heq⟩ := hs
      obtain rfl := Option.some.inj heq
      exact fun f hf => .inl hf
  | change | poll | render =>
      obtain rfl := Option.some.inj hs
      exact fun f hf => .inl hf
  | fetch cause =>
      obtain rfl := Option.some.inj hs
      intro f hf
      refine (List.mem_append.mp hf).imp id fun hf => ?_
      obtain rfl := List.mem_singleton.mp hf
      intro hcause
      cases cause with
      | interval => exact h.due hallows.1
      | event => exact permitsAutomaticRefetch_iff.mp hallows.1
      | retry => exact hallows.1.elim
      | library => exact absurd rfl hcause
  | retry =>
      obtain rfl := Option.some.inj hs
      intro f hf
      rw [refetch_eq] at hf
      split at hf
      · rename_i hpermits
        refine (List.mem_append.mp hf).imp id fun hf => ?_
        obtain rfl := List.mem_singleton.mp hf
        exact fun _ => permitsAutomaticRefetch_iff.mp hpermits
      · exact .inl hf

theorem Inv.step (h : Inv p s) (hallows : s.Allows p a) (hs : s.step p a = some s') :
    Inv p s' := by
  have hpatient : ∀ f ∈ s'.fetches, Patient p f := fun f hf =>
    (h.fetches hallows hs f hf).elim (h.patient f) id
  cases a with
  | elapse now =>
      simp only [PolledQuery.step, Option.ite_none_right_eq_some] at hs
      obtain ⟨hle, heq⟩ := hs
      obtain rfl := Option.some.inj heq
      exact ⟨h.near.later hle, h.polled, hpatient⟩
  | change error errorUpdatedAt =>
      obtain rfl := Option.some.inj hs
      exact ⟨hallows.2, fun _ hcall => absurd hcall List.not_mem_nil, hpatient⟩
  | poll =>
      obtain rfl := Option.some.inj hs
      refine ⟨h.near, fun call hcall => ?_, hpatient⟩
      rcases List.mem_append.mp hcall with hcall | hcall
      · exact h.polled call hcall
      · obtain rfl := List.mem_singleton.mp hcall
        exact ⟨rfl, h.near⟩
  | fetch | render =>
      obtain rfl := Option.some.inj hs
      exact ⟨h.near, h.polled, hpatient⟩
  | retry =>
      obtain rfl := Option.some.inj hs
      rw [refetch_eq] at hpatient ⊢
      split at hpatient
      · rw [if_pos ‹_›]
        exact ⟨h.near, h.polled, hpatient⟩
      · rw [if_neg ‹_›]
        exact h

/-! ### Runs -/

/-- A terminal failure that is shown, until the library changes the state of the query. -/
structure Ended (fetches : List Fetch) (s : PolledQuery) : Prop where
  inv : Inv p s
  terminal : isTerminalFailure s.error
  shown : isTerminalFailure s.rendered.1
  fetches : s.fetches.filter (·.cause ≠ .library) = fetches

theorem Ended.step {fetches : List Fetch} (h : Ended (p := p) fetches s) (hallows : s.Allows p a)
    (ha : ∀ error updatedAt, a ≠ .change error updatedAt) (hs : s.step p a = some s') :
    Ended (p := p) fetches s' := by
  have hinv := h.inv.step hallows hs
  cases a with
  | elapse now =>
      simp only [PolledQuery.step, Option.ite_none_right_eq_some] at hs
      obtain ⟨-, heq⟩ := hs
      obtain rfl := Option.some.inj heq
      exact ⟨hinv, h.terminal, h.shown, h.fetches⟩
  | change error updatedAt => exact absurd rfl (ha error updatedAt)
  | poll =>
      obtain rfl := Option.some.inj hs
      exact ⟨hinv, h.terminal, h.shown, h.fetches⟩
  | render =>
      obtain rfl := Option.some.inj hs
      exact ⟨hinv, h.terminal, h.terminal, h.fetches⟩
  | retry =>
      obtain rfl := Option.some.inj hs
      have hrefused : s.refetch p = s := by simp [refetch_eq, permitsAutomaticRefetch, h.shown]
      rw [hrefused] at hinv ⊢
      exact ⟨hinv, h.terminal, h.shown, h.fetches⟩
  | fetch cause =>
      obtain rfl := Option.some.inj hs
      refine ⟨hinv, h.terminal, h.shown, ?_⟩
      have hcause : cause = .library := by
        by_contra hcause
        have hpatient := hinv.patient _ (List.mem_append_right _ List.mem_cons_self) hcause
        rw [h.terminal] at hpatient
        cases hpatient.1
      rw [List.filter_append, h.fetches, hcause]
      exact List.append_nil _

/-- **The page waits.** In every run in which the library does what it documents, and the failures
name deadlines that the timers can reach: a fetch that starts from the polling, the focus, a mount
or the network's return starts neither before the deadline of the failure that the query has nor
after a terminal one, and one that the Retry button starts so after the failure that is shown.
`refetchInterval` is `false` if and only if the failure is terminal; and after a terminal failure
that is shown, the page starts no fetch again until the library changes the state of the query. -/
theorem patient {error : Option Failure} {updatedAt now : Int} {actions : List Action}
    (hnear : Near p error updatedAt now)
    (h : Guarded (step p) (Allows p) (mount error updatedAt now) actions s) :
    (∀ f ∈ s.fetches, f.cause ≠ .library → isTerminalFailure f.error = false ∧
      ∀ deadline ∈ retryAfterDeadline p f.error f.errorUpdatedAt, deadline ≤ f.time) ∧
    (∀ call ∈ s.polled, call.2 = none ↔ isTerminalFailure s.error) ∧
    (isTerminalFailure s.error → isTerminalFailure s.rendered.1 → ∀ later s',
      Guarded (step p) (Allows p) s later s' →
      (∀ a ∈ later, ∀ error updatedAt, a ≠ .change error updatedAt) →
        s'.fetches.filter (·.cause ≠ .library) = s.fetches.filter (·.cause ≠ .library)) := by
  have hinv : Inv p s := h.invariant (fun _ _ _ hi hg hs => hi.step hg hs)
    ⟨hnear, fun _ hcall => absurd hcall List.not_mem_nil, fun _ hf => absurd hf List.not_mem_nil⟩
  refine ⟨hinv.patient, fun call hcall => ?_, ?_⟩
  · rw [(hinv.polled call hcall).1]
    exact pollingPolicy_eq_none
  · intro hterminal hshown later s' hrun hlater
    have hended : Ended (p := p) (s.fetches.filter (·.cause ≠ .library)) s' :=
      hrun.mem.invariant (fun _ a _ hi hg hs => hi.step hg.1 (hlater a hg.2) hs)
        ⟨hinv, hterminal, hshown, rfl⟩
    exact hended.fetches

/-- The first request is refused for two minutes, which pass. -/
def refusedOnce : List Action :=
  [.fetch .library, .change (some (.apiError 429 (some " 120"))) 0, .render, .poll, .elapse 30000,
    .retry, .poll, .elapse 120000, .fetch .interval, .retry]

theorem patient_refused : ∃ s : PolledQuery,
    Guarded (step twoMinutes) (Allows twoMinutes) (mount none 0 0) refusedOnce s ∧
    s.fetches.map (fun f => (f.cause, f.time)) =
      [(.library, 0), (.interval, 120000), (.retry, 120000)] ∧
    ∀ f ∈ s.fetches, f.cause ≠ .library → isTerminalFailure f.error = false ∧
      ∀ deadline ∈ retryAfterDeadline twoMinutes f.error f.errorUpdatedAt, deadline ≤ f.time := by
  have hexec : (execWithin (step twoMinutes) (Allows twoMinutes) (mount none 0 0)
      refusedOnce).map (fun s => s.fetches.map fun f => (f.cause, f.time)) =
        some [(.library, 0), (.interval, 120000), (.retry, 120000)] := by decide +kernel
  obtain ⟨s, hs, hfetches⟩ := Option.map_eq_some_iff.mp hexec
  have hrun := guarded_of_exec hs
  exact ⟨s, hrun, hfetches, (patient (near_none 0 0) hrun).1⟩

end PolledQuery

end Sentinel.Frontend
