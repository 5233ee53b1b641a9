import Mathlib.Logic.Function.Basic
import Sentinel.Library.Indexed
import Sentinel.Library.Program

/-!
# Library — Tickets

Threads that each draw at most one ticket which nobody had before.

* `Draws T g s g' s'`: what one operation may do, where `T s x` says that the ticket `x` is drawn in
  the state `s`, and `g` is the ticket of the thread, if it has one. Tickets are never returned.
* `Drawn`: the threads of a pool, with the ticket of each. No two of them have the same ticket, and
  none has a ticket that was drawn before the pool began (`Drawn.spawn`, `Drawn.advance`).

The guarantee is one of `Prog.Safe`, so it holds of each thread whatever the others do.
-/

namespace Program

variable {Op : Type} {Res : Op → Type} {C S L α β τ : Type}

/-- The drawn tickets stay drawn, and the thread may draw its own if it has none. -/
def Draws (T : S → τ → Prop) (g : Option τ) (s : S) (g' : Option τ) (s' : S) : Prop :=
  (∀ x, T s x → T s' x) ∧ (g' = g ∨ g = none ∧ ∃ x, g' = some x ∧ ¬ T s x ∧ T s' x)

variable {T : S → τ → Prop} {h : Handler Op Res C S L}

/-- A program draws nothing, if no operation takes a drawn ticket back. -/
theorem Prog.safe_draws (hmono : ∀ c s l o x, T s x → T (h c s l o).1 x) (p : Prog Op Res α) (l : L)
    (g : Option τ) : p.Safe h (Draws T) (fun _ g' _ => g' = g) l g := by
  induction p generalizing l with
  | ret a => rfl
  | call o k ih => exact fun c s => ⟨g, ⟨hmono c s l o, .inl rfl⟩, ih _ _⟩

/-- The tickets of the threads of a pool, beside those that were drawn before, which are `T₀`. -/
structure Drawn (T : S → τ → Prop) (h : Handler Op Res C S L) (Q : L → Option τ → α → Prop)
    (T₀ : τ → Prop) (pool : Pool Op Res S L α) (tickets : Nat → Option τ) : Prop where
  safe : ∀ (i : Nat) (t : Thread Op Res L α), pool.threads[i]? = some t →
    t.Safe h (Draws T) Q (tickets i)
  vacant : ∀ i, pool.threads.length ≤ i → tickets i = none
  drawn : ∀ i x, tickets i = some x → T pool.shared x ∧ ¬ T₀ x
  apart : ∀ i j x, tickets i = some x → tickets j = some x → i = j
  before : ∀ x, T₀ x → T pool.shared x

namespace Drawn

variable {Q : L → Option τ → α → Prop} {T₀ : τ → Prop} {pool pool' : Pool Op Res S L α}
  {tickets : Nat → Option τ}

theorem start (s : S) : Drawn T h Q (T s) (⟨s, []⟩ : Pool Op Res S L α) fun _ => none where
  safe i t ht := by simp at ht
  vacant i _ := rfl
  drawn i x hx := by cases hx
  apart i j x hx := by cases hx
  before x hx := hx

/-- A new thread has no ticket. -/
theorem spawn (hpool : Drawn T h Q T₀ pool tickets) {t : Thread Op Res L α}
    (ht : t.Safe h (Draws T) Q none) : Drawn T h Q T₀ (pool.spawn t) tickets := by
  refine ⟨fun i t' ht' => ?_, fun i hi => hpool.vacant i ?_, hpool.drawn, hpool.apart, hpool.before⟩
  · rcases Indexed.concat_cases ht' with hold | ⟨rfl, rfl⟩
    · exact hpool.safe i t' hold
    · rw [hpool.vacant _ (Nat.le_refl _)]
      exact ht
  · rw [Pool.spawn, List.length_append] at hi
    exact Nat.le_trans (Nat.le_add_right _ _) hi

/-- **A thread that advances keeps the tickets apart**, whichever it is. -/
theorem advance (hpool : Drawn T h Q T₀ pool tickets) {i : Nat} {c : C}
    (hs : pool.advance h i c = some pool') : ∃ tickets', Drawn T h Q T₀ pool' tickets' := by
  obtain ⟨-, t, t', -, ht, -, -, hset, hstep⟩ := Pool.advance_cases hs
  obtain ⟨g', ⟨hmono, hg⟩, hsafe⟩ := (hpool.safe i t ht).step hstep
  -- a ticket afterwards was there before, or was drawn by this operation
  have hcases : ∀ j x, Function.update tickets i g' j = some x → tickets j = some x ∨
      j = i ∧ tickets i = none ∧ ¬ T pool.shared x ∧ T pool'.shared x := by
    intro j x hx
    by_cases hji : j = i
    · subst hji
      rw [Function.update_self] at hx
      rcases hg with rfl | ⟨hnone, y, rfl, hfresh, hdrawn⟩
      · exact .inl hx
      · cases hx
        exact .inr ⟨rfl, hnone, hfresh, hdrawn⟩
    · rw [Function.update_of_ne hji] at hx
      exact .inl hx
  refine ⟨Function.update tickets i g', ?_, ?_, ?_, ?_, fun x hx => hmono x (hpool.before x hx)⟩
  · intro j u hu
    rw [hset] at hu
    rcases Indexed.set_cases hu with ⟨rfl, rfl⟩ | ⟨hij, hu⟩
    · rw [Function.update_self]
      exact hsafe
    · rw [Function.update_of_ne (Ne.symm hij)]
      exact hpool.safe j u hu
  · intro j hj
    rw [hset, List.length_set] at hj
    have hi := (List.getElem?_eq_some_iff.mp ht).1
    rw [Function.update_of_ne (Nat.ne_of_gt (Nat.lt_of_lt_of_le hi hj))]
    exact hpool.vacant j hj
  · intro j x hx
    rcases hcases j x hx with hold | ⟨-, -, hfresh, hdrawn⟩
    · exact ⟨hmono x (hpool.drawn j x hold).1, (hpool.drawn j x hold).2⟩
    · exact ⟨hdrawn, fun hx₀ => hfresh (hpool.before x hx₀)⟩
  · intro j k x hj hk
    rcases hcases j x hj with hj' | ⟨rfl, -, hfresh, -⟩ <;>
      rcases hcases k x hk with hk' | ⟨rfl, -, hfresh', -⟩
    · exact hpool.apart j k x hj' hk'
    · exact absurd (hpool.drawn j x hj').1 hfresh'
    · exact absurd (hpool.drawn k x hk').1 hfresh
    · rfl

/-- What a thread ended with. -/
theorem ended (hpool : Drawn T h Q T₀ pool tickets) {i : Nat} {t : Thread Op Res L α} {a : α}
    (ht : pool.threads[i]? = some t) (ha : t.result = some a) : Q t.own (tickets i) a := by
  have hsafe := hpool.safe i t ht
  rw [Thread.Safe, Thread.prog_of_result ha] at hsafe
  exact hsafe

end Drawn

end Program
