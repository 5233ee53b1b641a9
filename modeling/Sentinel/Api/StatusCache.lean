import Mathlib.Data.Rat.Defs
import Sentinel.Library.Indexed
import Sentinel.Library.Transition

/-!
# Api — StatusCache

`getPublicStatus` of `PublicStatusService` (`src/status/public-status.service.ts`), for any type of
rows and of errors: calls, queries and a clock as one transition system.

A call runs without a pause up to its `await`, and once more when the promise that it awaits is
settled. A query is in flight until the call that started it has gone on: before that nothing can
be read of its result. Other calls may come in between, and the calls that wait for the same promise
go on in any order.

* `Stepped`: the steps of the system, one constructor for each.
* `Inv`: `inFlight` is the one query that is in flight, and what the entry and the calls have is
  from queries that succeeded.
* `Later`: what stays of a state from then on.
* `getPublicStatus_singleFlight`: one query at a time, rows no older than the entry may be, and a
  failure is for the calls that wait for it only.
-/

namespace Sentinel.Api

open Transition

/-- The entry that is kept. -/
structure CacheEntry (α : Type) where
  rows : α
  expiresAt : Rat
deriving DecidableEq

/-- A call of `queryPublicStatus`. -/
structure StatusQuery (α ε : Type) where
  /-- How its promise is settled. -/
  result : Option (Except ε α)
  /-- When the call that started it has gone on. -/
  completedAt : Option Int

/-- What a call returns: the entry, the query that it starts, or the one there is. -/
inductive Via where
  | cached
  | request (q : Nat)
  | inFlight (q : Nat)
deriving DecidableEq, Repr

/-- A call waits for a query. -/
def Via.Waits (q : Nat) : Via → Prop
  | .cached => False
  | .request p | .inFlight p => p = q

/-- A call of `getPublicStatus`. -/
structure StatusCall (α ε : Type) where
  arrivedAt : Int
  via : Via
  outcome : Option (Except ε α)

/-- The service, with all queries and calls there have been. -/
structure StatusCache (α ε : Type) where
  cached : Option (CacheEntry α)
  inFlight : Option Nat
  queries : List (StatusQuery α ε)
  calls : List (StatusCall α ε)
  /-- `Date.now()`. -/
  now : Int

namespace StatusCache

variable {α ε : Type}

inductive Action (α ε : Type) where
  | tick (now : Int)
  | call
  /-- The database has answered a query, or it fails. -/
  | settle (q : Nat) (result : Except ε α)
  /-- A call whose promise is settled goes on. -/
  | resume (i : Nat)

def start (now : Int) : StatusCache α ε := ⟨none, none, [], [], now⟩

/-- `this.cached && Date.now() < this.cached.expiresAt`. -/
def fresh (s : StatusCache α ε) : Option (CacheEntry α) :=
  s.cached.filter fun c => (s.now : Rat) < c.expiresAt

/-- `getPublicStatus`, up to its `await`. -/
def getPublicStatus (s : StatusCache α ε) : StatusCache α ε :=
  match s.fresh with
  | some c => { s with calls := s.calls ++ [⟨s.now, .cached, some (.ok c.rows)⟩] }
  | none =>
      match s.inFlight with
      | some q => { s with calls := s.calls ++ [⟨s.now, .inFlight q, none⟩] }
      | none =>
          { s with
            inFlight := some s.queries.length
            queries := s.queries ++ [⟨none, none⟩]
            calls := s.calls ++ [⟨s.now, .request s.queries.length, none⟩] }

/-- `getPublicStatus`, after its `await`, in the call that started the query. -/
def afterRequest (ttl : Rat) (s : StatusCache α ε) (q : Nat) (result : Except ε α) :
    StatusCache α ε :=
  { s with
    cached :=
      match result with
      | .ok rows => some ⟨rows, s.now + ttl⟩
      | .error _ => s.cached
    inFlight := none
    queries := s.queries.set q ⟨some result, some s.now⟩ }

/-- The outcome of a call. -/
def answer (s : StatusCache α ε) (i : Nat) (call : StatusCall α ε) (result : Except ε α) :
    StatusCache α ε :=
  { s with calls := s.calls.set i { call with outcome := some result } }

/-- A call goes on, if it waits for a promise that is settled. -/
def resume (ttl : Rat) (s : StatusCache α ε) (i : Nat) : Option (StatusCache α ε) :=
  match s.calls[i]? with
  | some ⟨arrivedAt, .request q, none⟩ =>
      ((s.queries[q]?).bind (·.result)).map fun result =>
        (s.afterRequest ttl q result).answer i ⟨arrivedAt, .request q, none⟩ result
  | some ⟨arrivedAt, .inFlight q, none⟩ =>
      ((s.queries[q]?).bind (·.result)).map fun result =>
        s.answer i ⟨arrivedAt, .inFlight q, none⟩ result
  | _ => none

def step (ttl : Rat) (s : StatusCache α ε) : Action α ε → Option (StatusCache α ε)
  | .tick now => if s.now ≤ now then some { s with now := now } else none
  | .call => some s.getPublicStatus
  | .settle q result =>
      match s.queries[q]? with
      | some ⟨none, completedAt⟩ =>
          some { s with queries := s.queries.set q ⟨some result, completedAt⟩ }
      | _ => none
  | .resume i => s.resume ttl i

/-! ### Steps -/

/-- The steps, one constructor for each. -/
inductive Stepped (ttl : Rat) (s : StatusCache α ε) : Action α ε → StatusCache α ε → Prop where
  | tick {now : Int} (h : s.now ≤ now) : Stepped ttl s (.tick now) { s with now := now }
  | served {c : CacheEntry α} (hc : s.fresh = some c) : Stepped ttl s .call
      { s with calls := s.calls ++ [⟨s.now, .cached, some (.ok c.rows)⟩] }
  | joined {q : Nat} (hc : s.fresh = none) (hq : s.inFlight = some q) : Stepped ttl s .call
      { s with calls := s.calls ++ [⟨s.now, .inFlight q, none⟩] }
  | started (hc : s.fresh = none) (hq : s.inFlight = none) : Stepped ttl s .call
      { s with
        inFlight := some s.queries.length
        queries := s.queries ++ [⟨none, none⟩]
        calls := s.calls ++ [⟨s.now, .request s.queries.length, none⟩] }
  | settled {q : Nat} {result : Except ε α} {completedAt : Option Int}
      (hq : s.queries[q]? = some ⟨none, completedAt⟩) : Stepped ttl s (.settle q result)
      { s with queries := s.queries.set q ⟨some result, completedAt⟩ }
  | completed {i q : Nat} {arrivedAt : Int} {result : Except ε α} {completedAt : Option Int}
      (hi : s.calls[i]? = some ⟨arrivedAt, .request q, none⟩)
      (hq : s.queries[q]? = some ⟨some result, completedAt⟩) : Stepped ttl s (.resume i)
      ((s.afterRequest ttl q result).answer i ⟨arrivedAt, .request q, none⟩ result)
  | delivered {i q : Nat} {arrivedAt : Int} {result : Except ε α} {completedAt : Option Int}
      (hi : s.calls[i]? = some ⟨arrivedAt, .inFlight q, none⟩)
      (hq : s.queries[q]? = some ⟨some result, completedAt⟩) : Stepped ttl s (.resume i)
      (s.answer i ⟨arrivedAt, .inFlight q, none⟩ result)

/-- The result of a query that is settled. -/
theorem bind_result {queries : List (StatusQuery α ε)} {q : Nat} {result : Except ε α}
    (h : (queries[q]?).bind (·.result) = some result) :
    ∃ completedAt, queries[q]? = some ⟨some result, completedAt⟩ := by
  obtain ⟨⟨r, completedAt⟩, hq, rfl⟩ := Option.bind_eq_some_iff.mp h
  exact ⟨completedAt, hq⟩

theorem call_cases (ttl : Rat) (s : StatusCache α ε) : Stepped ttl s .call s.getPublicStatus := by
  unfold getPublicStatus
  split
  · exact .served ‹_›
  · split
    · exact .joined ‹_› ‹_›
    · exact .started ‹_› ‹_›

theorem step_cases {ttl : Rat} {s s' : StatusCache α ε} {a : Action α ε}
    (h : s.step ttl a = some s') : Stepped ttl s a s' := by
  cases a with
  | tick now =>
      simp only [step] at h
      split at h
      · cases h
        exact .tick ‹_›
      · cases h
  | call =>
      cases h
      exact s.call_cases ttl
  | settle q result =>
      simp only [step] at h
      split at h
      · cases h
        exact .settled ‹_›
      · cases h
  | resume i =>
      simp only [step, resume] at h
      split at h
      · obtain ⟨result, hresult, rfl⟩ := Option.map_eq_some_iff.mp h
        obtain ⟨completedAt, hq⟩ := bind_result hresult
        exact .completed ‹_› hq
      · obtain ⟨result, hresult, rfl⟩ := Option.map_eq_some_iff.mp h
        obtain ⟨completedAt, hq⟩ := bind_result hresult
        exact .delivered ‹_› hq
      · cases h

/-! ### What stays -/

/-- What is known of a query is known later. -/
structure QueryLater (a b : StatusQuery α ε) : Prop where
  result : ∀ r, a.result = some r → b.result = some r
  completedAt : ∀ t, a.completedAt = some t → b.completedAt = some t

/-- What is known of a call is known later. -/
structure CallLater (a b : StatusCall α ε) : Prop where
  arrivedAt : b.arrivedAt = a.arrivedAt
  via : b.via = a.via
  outcome : ∀ r, a.outcome = some r → b.outcome = some r

/-- What is known in a state is known later. -/
structure Later (s s' : StatusCache α ε) : Prop where
  queries : Indexed.Grows QueryLater s.queries s'.queries
  calls : Indexed.Grows CallLater s.calls s'.calls

theorem QueryLater.refl (a : StatusQuery α ε) : QueryLater a a := ⟨fun _ h => h, fun _ h => h⟩

theorem CallLater.refl (a : StatusCall α ε) : CallLater a a := ⟨rfl, rfl, fun _ h => h⟩

theorem Later.refl (s : StatusCache α ε) : Later s s := ⟨.refl .refl _, .refl .refl _⟩

theorem Later.trans {s s' s'' : StatusCache α ε} (h : Later s s') (h' : Later s' s'') :
    Later s s'' where
  queries := h.queries.trans (fun _ _ _ hab hbc => ⟨fun r hr => hbc.result r (hab.result r hr),
    fun t ht => hbc.completedAt t (hab.completedAt t ht)⟩) h'.queries
  calls := h.calls.trans (fun _ _ _ hab hbc => ⟨hbc.arrivedAt.trans hab.arrivedAt,
    hbc.via.trans hab.via, fun r hr => hbc.outcome r (hab.outcome r hr)⟩) h'.calls

section Invariant

variable {ttl : Rat} {s s' : StatusCache α ε} {a : Action α ε}

/-- A query is in flight. -/
def InFlight (s : StatusCache α ε) (q : Nat) : Prop := ∃ result, s.queries[q]? = some ⟨result, none⟩

/-- `inFlight` is the one query that is in flight, and the call that started it has yet to go on. -/
structure Flight (s : StatusCache α ε) : Prop where
  inFlight : ∀ q, s.inFlight = some q ↔ s.InFlight q
  awaited : ∀ q, s.InFlight q → ∃ (i : Nat) (arrivedAt : Int),
    s.calls[i]? = some ⟨arrivedAt, .request q, none⟩
  awaits : ∀ (i q : Nat) arrivedAt, s.calls[i]? = some ⟨arrivedAt, .request q, none⟩ →
    s.InFlight q
  one : ∀ (i j q : Nat) call call', s.calls[i]? = some call → s.calls[j]? = some call' →
    call.via = .request q → call'.via = .request q → i = j
  there : ∀ (i q : Nat) call, s.calls[i]? = some call → call.via = .request q →
    q < s.queries.length
  last : ∀ q, s.InFlight q → q + 1 = s.queries.length

/-- A call that waits for nothing that it started itself. -/
theorem Flight.arrived (h : s.Flight) {call : StatusCall α ε} (hvia : ∀ q, call.via ≠ .request q) :
    Flight { s with calls := s.calls ++ [call] } where
  inFlight := h.inFlight
  awaited q hq := by
    obtain ⟨i, arrivedAt, hi⟩ := h.awaited q hq
    exact ⟨i, arrivedAt, Indexed.concat_of_some hi⟩
  awaits i q arrivedAt hi := by
    rcases Indexed.concat_cases hi with hi | ⟨-, rfl⟩
    · exact h.awaits i q arrivedAt hi
    · exact absurd rfl (hvia q)
  one i j q call₁ call₂ hi hj hcall₁ hcall₂ := by
    rcases Indexed.concat_cases hi with hi | ⟨-, rfl⟩
    · rcases Indexed.concat_cases hj with hj | ⟨-, rfl⟩
      · exact h.one i j q _ _ hi hj hcall₁ hcall₂
      · exact absurd hcall₂ (hvia q)
    · exact absurd hcall₁ (hvia q)
  there i q call₁ hi hcall := by
    rcases Indexed.concat_cases hi with hi | ⟨-, rfl⟩
    · exact h.there i q call₁ hi hcall
    · exact absurd hcall (hvia q)
  last := h.last

/-- A call that starts a query. -/
theorem Flight.started (h : s.Flight) (hnone : s.inFlight = none) (arrivedAt : Int) :
    Flight { s with
      inFlight := some s.queries.length
      queries := s.queries ++ [⟨none, none⟩]
      calls := s.calls ++ [⟨arrivedAt, .request s.queries.length, none⟩] } where
  inFlight q := by
    constructor
    · intro hq
      cases hq
      exact ⟨none, List.getElem?_concat_length⟩
    · rintro ⟨result, hq⟩
      rcases Indexed.concat_cases hq with hq | ⟨rfl, -⟩
      · rw [(h.inFlight q).mpr ⟨result, hq⟩] at hnone
        cases hnone
      · rfl
  awaited q hq := by
    obtain ⟨result, hq⟩ := hq
    rcases Indexed.concat_cases hq with hq | ⟨rfl, -⟩
    · rw [(h.inFlight q).mpr ⟨result, hq⟩] at hnone
      cases hnone
    · exact ⟨s.calls.length, arrivedAt, List.getElem?_concat_length⟩
  awaits i q at_ hi := by
    rcases Indexed.concat_cases hi with hi | ⟨-, hcall⟩
    · obtain ⟨result, hq⟩ := h.awaits i q at_ hi
      exact ⟨result, Indexed.concat_of_some hq⟩
    · cases hcall
      exact ⟨none, List.getElem?_concat_length⟩
  one i j q call₁ call₂ hi hj hcall₁ hcall₂ := by
    rcases Indexed.concat_cases hi with hi | ⟨rfl, rfl⟩
    · rcases Indexed.concat_cases hj with hj | ⟨rfl, rfl⟩
      · exact h.one i j q _ _ hi hj hcall₁ hcall₂
      · cases hcall₂
        exact absurd (h.there i _ _ hi hcall₁) (Nat.lt_irrefl _)
    · cases hcall₁
      rcases Indexed.concat_cases hj with hj | ⟨rfl, rfl⟩
      · exact absurd (h.there j _ _ hj hcall₂) (Nat.lt_irrefl _)
      · rfl
  there i q call hi hcall := by
    rw [List.length_append]
    rcases Indexed.concat_cases hi with hi | ⟨rfl, rfl⟩
    · exact Nat.lt_add_right 1 (h.there i q call hi hcall)
    · cases hcall
      exact Nat.lt_succ_self _
  last q hq := by
    obtain ⟨result, hq⟩ := hq
    rcases Indexed.concat_cases hq with hq | ⟨rfl, -⟩
    · rw [(h.inFlight q).mpr ⟨result, hq⟩] at hnone
      cases hnone
    · rw [List.length_append]
      rfl

/-- A query in flight is the only one. -/
theorem Flight.eq (h : s.Flight) {p q : Nat} (hp : s.InFlight p) (hq : s.InFlight q) : p = q :=
  Option.some.inj (((h.inFlight p).mpr hp).symm.trans ((h.inFlight q).mpr hq))

/-- A query that is settled is as much in flight as before. -/
theorem inFlight_settled {q p : Nat} {r r' : Option (Except ε α)} {completedAt : Option Int}
    (hq : s.queries[q]? = some ⟨r, completedAt⟩) :
    InFlight { s with queries := s.queries.set q ⟨r', completedAt⟩ } p ↔ s.InFlight p := by
  constructor
  · rintro ⟨result, hp⟩
    rcases Indexed.set_cases hp with ⟨rfl, heq⟩ | ⟨-, hp⟩
    · cases heq
      exact ⟨r, hq⟩
    · exact ⟨result, hp⟩
  · rintro ⟨result, hp⟩
    by_cases hqp : q = p
    · subst hqp
      cases hq.symm.trans hp
      exact ⟨r', Indexed.set_of_some hq⟩
    · exact ⟨result, (List.getElem?_set_ne hqp).trans hp⟩

theorem Flight.settled (h : s.Flight) {q : Nat} {r r' : Option (Except ε α)}
    {completedAt : Option Int} (hq : s.queries[q]? = some ⟨r, completedAt⟩) :
    Flight { s with queries := s.queries.set q ⟨r', completedAt⟩ } where
  inFlight p := (h.inFlight p).trans (inFlight_settled hq).symm
  awaited p hp := h.awaited p ((inFlight_settled hq).mp hp)
  awaits i p arrivedAt hi := (inFlight_settled hq).mpr (h.awaits i p arrivedAt hi)
  one := h.one
  there i p call hi hcall := by
    rw [List.length_set]
    exact h.there i p call hi hcall
  last p hp := by
    rw [List.length_set]
    exact h.last p ((inFlight_settled hq).mp hp)

/-- A call has its outcome: it is the same call, and has not to go on any more. -/
theorem one_answered (h : s.Flight) {i : Nat} {call : StatusCall α ε} {result : Except ε α}
    (hi : s.calls[i]? = some call) : ∀ (j k q : Nat) call₁ call₂,
    (s.answer i call result).calls[j]? = some call₁ →
    (s.answer i call result).calls[k]? = some call₂ →
    call₁.via = .request q → call₂.via = .request q → j = k := by
  intro j k q call₁ call₂ hj hk hcall₁ hcall₂
  rcases Indexed.set_cases hj with ⟨rfl, rfl⟩ | ⟨-, hj⟩
  · rcases Indexed.set_cases hk with ⟨rfl, rfl⟩ | ⟨-, hk⟩
    · rfl
    · exact h.one i k q _ _ hi hk hcall₁ hcall₂
  · rcases Indexed.set_cases hk with ⟨rfl, rfl⟩ | ⟨-, hk⟩
    · exact h.one j i q _ _ hj hi hcall₁ hcall₂
    · exact h.one j k q _ _ hj hk hcall₁ hcall₂

theorem there_answered (h : s.Flight) {i : Nat} {call : StatusCall α ε} {result : Except ε α}
    (hi : s.calls[i]? = some call) : ∀ (j q : Nat) call₁,
    (s.answer i call result).calls[j]? = some call₁ → call₁.via = .request q →
    q < s.queries.length := by
  intro j q call₁ hj hcall₁
  rcases Indexed.set_cases hj with ⟨rfl, rfl⟩ | ⟨-, hj⟩
  · exact h.there i q call hi hcall₁
  · exact h.there j q call₁ hj hcall₁

/-- A call that has waited for another call's query. -/
theorem Flight.delivered (h : s.Flight) {i q : Nat} {arrivedAt : Int} {result : Except ε α}
    (hi : s.calls[i]? = some ⟨arrivedAt, .inFlight q, none⟩) :
    Flight (s.answer i ⟨arrivedAt, .inFlight q, none⟩ result) where
  inFlight := h.inFlight
  awaited p hp := by
    obtain ⟨j, arrivedAt', hj⟩ := h.awaited p hp
    have hij : i ≠ j := by
      rintro rfl
      cases hi.symm.trans hj
    exact ⟨j, arrivedAt', (List.getElem?_set_ne hij).trans hj⟩
  awaits j p arrivedAt' hj := by
    rcases Indexed.set_cases hj with ⟨-, heq⟩ | ⟨-, hj⟩
    · cases heq
    · exact h.awaits j p arrivedAt' hj
  one := one_answered h hi
  there := there_answered h hi
  last := h.last

/-- After the query in flight is completed, none is in flight. -/
theorem Flight.not_inFlight (h : s.Flight) {i q : Nat} {arrivedAt : Int} {result : Except ε α}
    (hi : s.calls[i]? = some ⟨arrivedAt, .request q, none⟩) (p : Nat) :
    ¬ InFlight ((s.afterRequest ttl q result).answer i ⟨arrivedAt, .request q, none⟩ result) p := by
  rintro ⟨result', hp⟩
  rcases Indexed.set_cases hp with ⟨-, heq⟩ | ⟨hqp, hp⟩
  · cases heq
  · exact hqp (h.eq (h.awaits i q arrivedAt hi) ⟨result', hp⟩)

/-- The call that started the query goes on. -/
theorem Flight.completed (h : s.Flight) {i q : Nat} {arrivedAt : Int} {result : Except ε α}
    (hi : s.calls[i]? = some ⟨arrivedAt, .request q, none⟩) :
    Flight ((s.afterRequest ttl q result).answer i ⟨arrivedAt, .request q, none⟩ result) where
  inFlight p := ⟨fun hp => (nomatch hp), fun hp => absurd hp (h.not_inFlight hi p)⟩
  awaited p hp := absurd hp (h.not_inFlight hi p)
  awaits j p arrivedAt' hj := by
    rcases Indexed.set_cases hj with ⟨-, heq⟩ | ⟨hij, hj⟩
    · cases heq
    · -- one query is in flight, and one call has started it
      obtain rfl := h.eq (h.awaits i q arrivedAt hi) (h.awaits j p arrivedAt' hj)
      exact absurd (h.one i j q _ _ hi hj rfl rfl) hij
  one := one_answered h hi
  there j p call hj hcall := by
    show p < (s.queries.set q _).length
    rw [List.length_set]
    exact there_answered h hi j p call hj hcall
  last p hp := absurd hp (h.not_inFlight hi p)

theorem Flight.step (h : s.Flight) (hs : s.step ttl a = some s') : s'.Flight := by
  cases step_cases hs with
  | tick hle => exact ⟨h.inFlight, h.awaited, h.awaits, h.one, h.there, h.last⟩
  | served hc => exact h.arrived fun q hq => (nomatch hq)
  | joined hc hq => exact h.arrived fun q hq => (nomatch hq)
  | started hc hq => exact h.started hq s.now
  | settled hq => exact h.settled hq
  | completed hi hq => exact h.completed hi
  | delivered hi hq => exact h.delivered hi

theorem flight_start (now : Int) : (start now : StatusCache α ε).Flight where
  inFlight q := ⟨fun h => (nomatch h), fun ⟨_, h⟩ => (nomatch h)⟩
  awaited q h := by
    obtain ⟨result, hq⟩ := h
    cases hq
  awaits i q arrivedAt hi := nomatch hi
  one i j q call call' hi := nomatch hi
  there i q call hi := nomatch hi
  last q h := by
    obtain ⟨result, hq⟩ := h
    cases hq

/-! ### Where rows are from -/

/-- The rows of a query that has succeeded and was completed at `t`. -/
def Fetched (s : StatusCache α ε) (q : Nat) (rows : α) (t : Int) : Prop :=
  s.queries[q]? = some ⟨some (.ok rows), some t⟩

/-- A call has the rows of a query that were young enough when it arrived, or the result of the one
that it waits for. -/
def Answered (ttl : Rat) (s : StatusCache α ε) (call : StatusCall α ε) : Prop :=
  match call.via with
  | .cached => ∃ q rows t, s.Fetched q rows t ∧ t ≤ call.arrivedAt ∧
      (call.arrivedAt : Rat) < t + ttl ∧ call.outcome = some (.ok rows)
  | .request q | .inFlight q => ∃ query, s.queries[q]? = some query ∧
      ∀ r, call.outcome = some r → query.result = some r

/-- The entry is from a query, and so is what every call has. -/
structure Sourced (ttl : Rat) (s : StatusCache α ε) : Prop where
  cached : ∀ c, s.cached = some c → ∃ q t, s.Fetched q c.rows t ∧ t ≤ s.now ∧
    c.expiresAt = t + ttl
  calls : ∀ (i : Nat) call, s.calls[i]? = some call → s.Answered ttl call

theorem Fetched.later (hl : Indexed.Grows QueryLater s.queries s'.queries) {q : Nat} {rows : α}
    {t : Int} (h : s.Fetched q rows t) : s'.Fetched q rows t := by
  obtain ⟨⟨result, completedAt⟩, hq, hlater⟩ := hl q _ h
  obtain rfl := hlater.result _ rfl
  obtain rfl := hlater.completedAt _ rfl
  exact hq

theorem Answered.later (hl : Indexed.Grows QueryLater s.queries s'.queries)
    {call : StatusCall α ε} (h : s.Answered ttl call) : s'.Answered ttl call := by
  obtain ⟨arrivedAt, via, outcome⟩ := call
  cases via with
  | cached =>
      obtain ⟨q, rows, t, hq, hrest⟩ := h
      exact ⟨q, rows, t, hq.later hl, hrest⟩
  | request q | inFlight q =>
      obtain ⟨query, hq, hresult⟩ := h
      obtain ⟨query', hq', hlater⟩ := hl q query hq
      exact ⟨query', hq', fun r hr => hlater.result r (hresult r hr)⟩

theorem Flight.later (h : s.Flight) (hs : s.step ttl a = some s') : Later s s' := by
  cases step_cases hs with
  | tick hle => exact ⟨.refl .refl _, .refl .refl _⟩
  | served hc | joined hc hq => exact ⟨.refl .refl _, Indexed.grows_concat .refl _ _⟩
  | started hc hq => exact ⟨Indexed.grows_concat .refl _ _, Indexed.grows_concat .refl _ _⟩
  | settled hq =>
      exact ⟨Indexed.grows_set .refl hq ⟨fun _ h => (nomatch h), fun _ h => h⟩, .refl .refl _⟩
  | completed hi hq =>
      -- the query has not been completed before
      obtain ⟨_, hnone⟩ := h.awaits _ _ _ hi
      cases hq.symm.trans hnone
      exact ⟨Indexed.grows_set .refl hq ⟨fun _ h => h, fun _ h => (nomatch h)⟩,
        Indexed.grows_set .refl hi ⟨rfl, rfl, fun _ h => (nomatch h)⟩⟩
  | delivered hi hq =>
      exact ⟨.refl .refl _, Indexed.grows_set .refl hi ⟨rfl, rfl, fun _ h => (nomatch h)⟩⟩

/-- What a call that has arrived gets. -/
theorem Sourced.arrived (h : s.Sourced ttl) {call : StatusCall α ε} (hcall : s.Answered ttl call) :
    Sourced ttl { s with calls := s.calls ++ [call] } where
  cached := h.cached
  calls i call' hi := by
    rcases Indexed.concat_cases hi with hi | ⟨-, rfl⟩
    · exact h.calls i call' hi
    · exact hcall

/-- A call gets the result of the query that it waits for. -/
theorem Sourced.answered (h : s.Sourced ttl) {i : Nat} {call : StatusCall α ε}
    {result : Except ε α} (hcall : s.Answered ttl { call with outcome := some result }) :
    Sourced ttl (s.answer i call result) where
  cached := h.cached
  calls j call' hj := by
    rcases Indexed.set_cases hj with ⟨-, rfl⟩ | ⟨-, hj⟩
    · exact hcall
    · exact h.calls j call' hj

/-- With more queries, the entry and the calls have what they had. -/
theorem Sourced.later (h : s.Sourced ttl) {queries : List (StatusQuery α ε)} {inFlight : Option Nat}
    (hl : Indexed.Grows QueryLater s.queries queries) :
    Sourced ttl { s with queries := queries, inFlight := inFlight } where
  cached c hc := by
    obtain ⟨q, t, hq, hrest⟩ := h.cached c hc
    exact ⟨q, t, hq.later hl, hrest⟩
  calls i call hi := Answered.later (s := s) hl (h.calls i call hi)

theorem Sourced.step (h : s.Sourced ttl) (hflight : s.Flight) (hs : s.step ttl a = some s') :
    s'.Sourced ttl := by
  have hlater := (hflight.later hs).queries
  cases step_cases hs with
  | tick hle =>
      refine ⟨fun c hc => ?_, h.calls⟩
      obtain ⟨q, t, hq, ht, hexpires⟩ := h.cached c hc
      exact ⟨q, t, hq, Int.le_trans ht hle, hexpires⟩
  | @served c hc =>
      obtain ⟨hcached, hfresh⟩ := Option.filter_eq_some_iff.mp hc
      obtain ⟨q, t, hq, ht, hexpires⟩ := h.cached c hcached
      exact h.arrived ⟨q, c.rows, t, hq, ht, hexpires ▸ of_decide_eq_true hfresh, rfl⟩
  | joined hc hq =>
      obtain ⟨result, hquery⟩ := (hflight.inFlight _).mp hq
      exact h.arrived ⟨_, hquery, fun r hr => (nomatch hr)⟩
  | started hc hq =>
      exact (h.later hlater).arrived ⟨_, List.getElem?_concat_length, fun r hr => (nomatch hr)⟩
  | settled hq => exact h.later hlater
  | @completed i q arrivedAt result completedAt hi hq =>
      have hdone : (s.queries.set q ⟨some result, some s.now⟩)[q]? =
          some ⟨some result, some s.now⟩ := Indexed.set_of_some hq
      have hkept : Sourced ttl
          { s with queries := s.queries.set q ⟨some result, some s.now⟩, inFlight := none } :=
        h.later hlater
      have hsourced : Sourced ttl (s.afterRequest ttl q result) := by
        refine ⟨fun c hc => ?_, hkept.calls⟩
        cases result with
        | ok rows =>
            cases hc
            exact ⟨q, s.now, hdone, Int.le_refl _, rfl⟩
        | error e => exact hkept.cached c hc
      refine hsourced.answered ⟨_, hdone, fun r hr => ?_⟩
      cases hr
      rfl
  | delivered hi hq =>
      refine h.answered ⟨_, hq, fun r hr => ?_⟩
      cases hr
      rfl

theorem sourced_start (ttl : Rat) (now : Int) : (start now : StatusCache α ε).Sourced ttl :=
  ⟨fun _ hc => (nomatch hc), fun _ _ hi => (nomatch hi)⟩

end Invariant

/-! ### Runs -/

section Runs

variable {ttl : Rat} {now : Int} {s s₀ : StatusCache α ε} {actions : List (Action α ε)}

theorem run_flight (hrun : Run (step ttl) (start now) actions s) : s.Flight ∧ s.Sourced ttl :=
  hrun.invariant (I := fun s : StatusCache α ε => s.Flight ∧ s.Sourced ttl)
    (fun _ _ _ h hs => ⟨h.1.step hs, h.2.step h.1 hs⟩) ⟨flight_start now, sourced_start ttl now⟩

theorem run_later (h : s₀.Flight) (hrun : Run (step ttl) s₀ actions s) : Later s₀ s :=
  (hrun.invariant (I := fun s : StatusCache α ε => s.Flight ∧ Later s₀ s)
    (fun _ _ _ h hs => ⟨h.1.step hs, h.2.trans (h.1.later hs)⟩) ⟨h, .refl s₀⟩).2

/-- The query whose rows a call that arrives in `s₀` may return: one in flight, the one that it
starts, or one that was completed less than `ttl` before. -/
def MayServe (ttl : Rat) (s₀ : StatusCache α ε) (q : Nat) : Prop :=
  s₀.InFlight q ∨ s₀.queries.length ≤ q ∧ q < s₀.getPublicStatus.queries.length ∨
    ∃ rows t, s₀.Fetched q rows t ∧ t ≤ s₀.now ∧ (s₀.now : Rat) < t + ttl

/-- The rows that a call returns are all the rows of one query that may serve it. -/
theorem call_served (h₀ : s₀.Flight) (hsourced₀ : s₀.Sourced ttl)
    (hrun : Run (step ttl) s₀ (.call :: actions) s) (hsourced : s.Sourced ttl)
    {call : StatusCall α ε} {rows : α} (hcall : s.calls[s₀.calls.length]? = some call)
    (hrows : call.outcome = some (.ok rows)) :
    ∃ q query, s.queries[q]? = some query ∧ query.result = some (.ok rows) ∧
      s₀.MayServe ttl q := by
  obtain _ | ⟨hstep, hrest⟩ := hrun
  have hafter := run_later (h₀.step hstep) hrest
  have hlater := (h₀.later hstep).trans hafter
  have hanswered := hsourced.calls _ _ hcall
  obtain ⟨arrivedAt, via, outcome⟩ := call
  obtain rfl : outcome = some (.ok rows) := hrows
  cases step_cases hstep with
  | @served c hc =>
      -- the entry was not changed since, nor what the call has of it
      obtain ⟨call', hcall', hl⟩ := hafter.calls _ _ List.getElem?_concat_length
      cases hcall.symm.trans hcall'
      cases hl.outcome _ rfl
      obtain ⟨hcached, hfresh⟩ := Option.filter_eq_some_iff.mp hc
      obtain ⟨q, t, hq, ht, hexpires⟩ := hsourced₀.cached c hcached
      exact ⟨q, _, hq.later hlater.queries, rfl,
        .inr (.inr ⟨c.rows, t, hq, ht, hexpires ▸ of_decide_eq_true hfresh⟩)⟩
  | @joined q hc hq =>
      obtain ⟨call', hcall', hl⟩ := hafter.calls _ _ List.getElem?_concat_length
      cases hcall.symm.trans hcall'
      obtain rfl : via = .inFlight q := hl.via
      obtain ⟨query, hquery, hresult⟩ := hanswered
      exact ⟨q, query, hquery, hresult _ rfl, .inl ((h₀.inFlight q).mp hq)⟩
  | started hc hq =>
      obtain ⟨call', hcall', hl⟩ := hafter.calls _ _ List.getElem?_concat_length
      cases hcall.symm.trans hcall'
      obtain rfl : via = .request s₀.queries.length := hl.via
      obtain ⟨query, hquery, hresult⟩ := hanswered
      refine ⟨_, query, hquery, hresult _ rfl, .inr (.inl ⟨Nat.le_refl _, ?_⟩)⟩
      simp [getPublicStatus, hc, hq]

/-- A call that waits for a query that has failed is rejected, at the latest when it goes on. -/
theorem call_rejected (hsourced : s.Sourced ttl) {i q : Nat} {call : StatusCall α ε}
    {query : StatusQuery α ε} {e : ε} (hcall : s.calls[i]? = some call) (hwaits : call.via.Waits q)
    (hq : s.queries[q]? = some query) (he : query.result = some (.error e)) :
    call.outcome = some (.error e) ∨ call.outcome = none ∧ ∃ s', s.step ttl (.resume i) = some s' ∧
      s'.calls[i]? = some { call with outcome := some (.error e) } := by
  have hanswered := hsourced.calls i call hcall
  obtain ⟨arrivedAt, via, outcome⟩ := call
  obtain ⟨result, completedAt⟩ := query
  obtain rfl : result = some (.error e) := he
  cases outcome with
  | some r =>
      cases via with
      | cached => cases hwaits
      | request p | inFlight p =>
          obtain rfl : p = q := hwaits
          obtain ⟨query, hquery, hresult⟩ := hanswered
          obtain rfl := Option.some.inj (hq.symm.trans hquery)
          exact .inl (hresult r rfl).symm
  | none =>
      refine .inr ⟨rfl, ?_⟩
      cases via with
      | cached => cases hwaits
      | request p =>
          obtain rfl : p = q := hwaits
          refine ⟨(s.afterRequest ttl p (.error e)).answer i ⟨arrivedAt, .request p, none⟩
            (.error e), ?_, Indexed.set_of_some hcall⟩
          simp only [step, resume, hcall, hq, Option.bind_some, Option.map_some]
      | inFlight p =>
          obtain rfl : p = q := hwaits
          refine ⟨s.answer i ⟨arrivedAt, .inFlight p, none⟩ (.error e), ?_,
            Indexed.set_of_some hcall⟩
          simp only [step, resume, hcall, hq, Option.bind_some, Option.map_some]

/-- A call that is rejected has waited for a query that has failed. -/
theorem rejected_waits (hsourced : s.Sourced ttl) {i : Nat} {call : StatusCall α ε} {e : ε}
    (hcall : s.calls[i]? = some call) (he : call.outcome = some (.error e)) :
    ∃ q query, call.via.Waits q ∧ s.queries[q]? = some query ∧
      query.result = some (.error e) := by
  have hanswered := hsourced.calls i call hcall
  obtain ⟨arrivedAt, via, outcome⟩ := call
  obtain rfl : outcome = some (.error e) := he
  cases via with
  | cached =>
      obtain ⟨q, rows, t, -, -, -, hrows⟩ := hanswered
      cases hrows
  | request q | inFlight q =>
      obtain ⟨query, hq, hresult⟩ := hanswered
      exact ⟨q, query, rfl, hq, hresult _ rfl⟩

/-- Only the call that has started a query changes the entry, to the rows of the query. -/
theorem cached_step {s' : StatusCache α ε} {a : Action α ε} (hs : s.step ttl a = some s') :
    s'.cached = s.cached ∨ ∃ (i q : Nat) (call : StatusCall α ε) (query : StatusQuery α ε)
      (rows : α), a = .resume i ∧ s.calls[i]? = some call ∧ call.via = .request q ∧
        s.queries[q]? = some query ∧ query.result = some (.ok rows) ∧
          s'.cached = some ⟨rows, s.now + ttl⟩ := by
  cases step_cases hs with
  | @completed i q arrivedAt result completedAt hi hq =>
      cases result with
      | ok rows => exact .inr ⟨i, q, _, _, rows, rfl, hi, rfl, hq, rfl, rfl⟩
      | error e => exact .inl rfl
  | tick | served | joined | started | settled | delivered => exact .inl rfl

/-- After a failure, a call that finds no fresh entry starts a query. -/
theorem call_restarts (hflight : s.Flight) {i q : Nat} {call : StatusCall α ε} {e : ε}
    (hcall : s.calls[i]? = some call) (hvia : call.via = .request q)
    (he : call.outcome = some (.error e)) (hlast : q + 1 = s.queries.length)
    (hstale : s.fresh = none) :
    s.getPublicStatus.queries = s.queries ++ [⟨none, none⟩] ∧
      s.getPublicStatus.calls = s.calls ++ [⟨s.now, .request s.queries.length, none⟩] := by
  have hnone : s.inFlight = none := by
    refine Option.eq_none_iff_forall_ne_some.mpr fun p hp => ?_
    have hp := (hflight.inFlight p).mp hp
    obtain rfl : p = q := Nat.succ.inj ((hflight.last p hp).trans hlast.symm)
    obtain ⟨j, arrivedAt, hj⟩ := hflight.awaited p hp
    obtain rfl := hflight.one i j p _ _ hcall hj hvia rfl
    cases hcall.symm.trans hj
    cases he
  simp [getPublicStatus, hstale, hnone]

/-- **The public status is fetched by one query at a time, and is never older than its time to
live.** In every run of calls, answers and failures of the database and of the clock: at most one
query is in flight; the rows of a call are all the rows of one query that may serve it; a call is
rejected iff the query that it waits for has failed; only a call that goes on with the rows of the
query that it started changes the entry, to these; and after one that has failed, the next call that
finds no fresh entry starts another. -/
theorem getPublicStatus_singleFlight (ttl : Rat) (now : Int) (actions : List (Action α ε))
    (s : StatusCache α ε) (hrun : Run (step ttl) (start now) actions s) :
    (∀ p q, s.InFlight p → s.InFlight q → p = q) ∧
    (∀ before after s₀, actions = before ++ .call :: after →
      Run (step ttl) (start now) before s₀ → ∀ call rows, s.calls[s₀.calls.length]? = some call →
        call.outcome = some (.ok rows) → ∃ q query, s.queries[q]? = some query ∧
          query.result = some (.ok rows) ∧ s₀.MayServe ttl q) ∧
    (∀ (i : Nat) call e, s.calls[i]? = some call →
      (call.outcome = some (.error e) → ∃ q query, call.via.Waits q ∧
        s.queries[q]? = some query ∧ query.result = some (.error e)) ∧
      ∀ q query, call.via.Waits q → s.queries[q]? = some query →
        query.result = some (.error e) → call.outcome = some (.error e) ∨
          call.outcome = none ∧ ∃ s', s.step ttl (.resume i) = some s' ∧
            s'.calls[i]? = some { call with outcome := some (.error e) }) ∧
    (∀ a s', s.step ttl a = some s' → s'.cached = s.cached ∨
      ∃ (i q : Nat) (call : StatusCall α ε) (query : StatusQuery α ε) (rows : α),
        a = .resume i ∧ s.calls[i]? = some call ∧ call.via = .request q ∧
          s.queries[q]? = some query ∧ query.result = some (.ok rows) ∧
            s'.cached = some ⟨rows, s.now + ttl⟩) ∧
    ∀ (i q : Nat) call e, s.calls[i]? = some call → call.via = .request q →
      call.outcome = some (.error e) → q + 1 = s.queries.length → s.fresh = none →
        s.getPublicStatus.queries = s.queries ++ [⟨none, none⟩] ∧
          s.getPublicStatus.calls = s.calls ++ [⟨s.now, .request s.queries.length, none⟩] := by
  obtain ⟨hflight, hsourced⟩ := run_flight hrun
  refine ⟨fun p q hp hq => hflight.eq hp hq, ?_, ?_, fun a s' hs => cached_step hs, ?_⟩
  · rintro before after s₀ rfl hbefore call rows hcall hrows
    obtain ⟨hflight₀, hsourced₀⟩ := run_flight hbefore
    obtain ⟨s₁, h₁, h₂⟩ := hrun.split
    obtain rfl := h₁.unique hbefore
    exact call_served hflight₀ hsourced₀ h₂ hsourced hcall hrows
  · exact fun i call e hcall => ⟨rejected_waits hsourced hcall,
      fun q query hwaits hq he => call_rejected hsourced hcall hwaits hq he⟩
  · exact fun i q call e hcall hvia he hlast hstale =>
      call_restarts hflight hcall hvia he hlast hstale

/-- A query that fails for two calls, one that succeeds, and a call that finds the entry fresh. -/
def retried : List (Action String String) :=
  [.call, .call, .settle 0 (.error "unavailable"), .resume 1, .resume 0, .call,
    .settle 1 (.ok "rows"), .tick 10, .call, .resume 2, .tick 39, .call, .resume 3]

theorem getPublicStatus_singleFlight_retried : ∃ s,
    Run (step 30) (start 0) retried s ∧
      s.calls.map (fun call => (call.via, call.outcome.map Except.toOption)) =
        [(.request 0, some none), (.inFlight 0, some none), (.request 1, some (some "rows")),
          (.inFlight 1, some (some "rows")), (.cached, some (some "rows"))] ∧
      ∀ p q, s.InFlight p → s.InFlight q → p = q := by
  have hexec : (exec (step 30) (start 0) retried).map (fun s =>
      s.calls.map fun call => (call.via, call.outcome.map Except.toOption)) =
        some [(.request 0, some none), (.inFlight 0, some none), (.request 1, some (some "rows")),
          (.inFlight 1, some (some "rows")), (.cached, some (some "rows"))] := by
    decide +kernel
  obtain ⟨s, hs, hcalls⟩ := Option.map_eq_some_iff.mp hexec
  have hrun : Run (step 30) (start 0) retried s := run_of_exec hs
  exact ⟨s, hrun, hcalls, (getPublicStatus_singleFlight 30 0 retried s hrun).1⟩

end Runs

end StatusCache

end Sentinel.Api
