import Mathlib.Data.List.Induction
import Mathlib.Tactic.Common

/-!
# Library — Transition

Runs of a labelled transition system given by a partial step function
`step : σ → α → Option σ`, where `none` says the action is not enabled.

* `Run step s as s'`: the actions `as`, in order, lead from `s` to `s'`.
* `Run.invariant`: what every step preserves holds at the end of every run.
* `Run.invariant_of_guard`: the same when the actions of the run meet a guard, which may look at
  the state before the step.
-/

namespace Transition

variable {σ α : Type*}

/-- The actions of the list, in order, lead from the first state to the second. -/
inductive Run (step : σ → α → Option σ) : σ → List α → σ → Prop where
  | refl (s : σ) : Run step s [] s
  | more {s s₁ s' : σ} {a : α} {as : List α}
      (h : step s a = some s₁) (t : Run step s₁ as s') : Run step s (a :: as) s'

/-- The run the actions determine, if all of them are enabled in turn. -/
def exec (step : σ → α → Option σ) : σ → List α → Option σ
  | s, [] => some s
  | s, a :: as => (step s a).bind fun s₁ => exec step s₁ as

variable {step : σ → α → Option σ}

theorem run_of_exec : ∀ {as : List α} {s s' : σ}, exec step s as = some s' → Run step s as s'
  | [], s, s', h => by
      obtain rfl : s = s' := Option.some.inj h
      exact .refl s
  | a :: as, s, s', h => by
      obtain ⟨s₁, h₁, h₂⟩ := Option.bind_eq_some_iff.mp h
      exact .more h₁ (run_of_exec h₂)

namespace Run

theorem one {s s' : σ} {a : α} (h : step s a = some s') : Run step s [a] s' :=
  .more h (.refl _)

theorem trans {s s₁ s' : σ} {as bs : List α} (h₁ : Run step s as s₁) (h₂ : Run step s₁ bs s') :
    Run step s (as ++ bs) s' := by
  induction h₁ with
  | refl => exact h₂
  | more h _ ih => exact .more h (ih h₂)

/-- A run splits where its actions do. -/
theorem split {s s' : σ} : ∀ {as bs : List α}, Run step s (as ++ bs) s' →
    ∃ s₁, Run step s as s₁ ∧ Run step s₁ bs s'
  | [], _, h => ⟨s, .refl s, h⟩
  | _ :: _, _, .more h t => by
      obtain ⟨s₁, h₁, h₂⟩ := split t
      exact ⟨s₁, .more h h₁, h₂⟩

/-- The actions determine where a run ends. -/
theorem unique {s s₁ s₂ : σ} {as : List α} (h₁ : Run step s as s₁) (h₂ : Run step s as s₂) :
    s₁ = s₂ := by
  induction h₁ with
  | refl =>
      cases h₂
      rfl
  | more h _ ih =>
      cases h₂ with
      | more h' t' =>
          obtain rfl := Option.some.inj (h.symm.trans h')
          exact ih t'

/-- Induction on a run from its last step. -/
theorem induct_last {s : σ} {P : List α → σ → Prop} (h₀ : P [] s)
    (hstep : ∀ as s₁ a s₂, Run step s as s₁ → P as s₁ → step s₁ a = some s₂ → P (as ++ [a]) s₂)
    {as : List α} {s' : σ} (h : Run step s as s') : P as s' := by
  induction as using List.reverseRecOn generalizing s' with
  | nil =>
      cases h
      exact h₀
  | append_singleton as a ih =>
      obtain ⟨s₁, h₁, h₂⟩ := split h
      cases h₂ with
      | more hs t =>
          cases t
          exact hstep as s₁ a _ h₁ (ih h₁) hs

/-- What every step preserves holds at the end of every run. -/
theorem invariant {I : σ → Prop} (hstep : ∀ s a s', I s → step s a = some s' → I s')
    {s s' : σ} {as : List α} (h : Run step s as s') (h₀ : I s) : I s' := by
  induction h with
  | refl => exact h₀
  | more h _ ih => exact ih (hstep _ _ _ h₀ h)

end Run

/-- The run of the actions takes one of them from a state. -/
def Takes (step : σ → α → Option σ) (s : σ) (as : List α) (s₁ : σ) (a : α) : Prop :=
  ∃ before after, as = before ++ a :: after ∧ Run step s before s₁

/-- Every action of the run meets the guard in the state it is taken from. -/
inductive Guarded (step : σ → α → Option σ) (G : σ → α → Prop) : σ → List α → σ → Prop where
  | refl (s : σ) : Guarded step G s [] s
  | more {s s₁ s' : σ} {a : α} {as : List α} (hG : G s a)
      (h : step s a = some s₁) (t : Guarded step G s₁ as s') : Guarded step G s (a :: as) s'

namespace Guarded

variable {G : σ → α → Prop}

/-- A run of actions that meet the guard in every state. -/
theorem of_run {s s' : σ} {as : List α} (hG : ∀ a ∈ as, ∀ s, G s a) (h : Run step s as s') :
    Guarded step G s as s' := by
  induction h with
  | refl => exact .refl _
  | more h _ ih =>
      exact .more (hG _ List.mem_cons_self _) h
        (ih fun a ha => hG a (List.mem_cons_of_mem _ ha))

theorem mono {G' : σ → α → Prop} (hG : ∀ s a, G s a → G' s a) {s s' : σ} {as : List α}
    (h : Guarded step G s as s') : Guarded step G' s as s' := by
  induction h with
  | refl => exact .refl _
  | more hg h _ ih => exact .more (hG _ _ hg) h ih

/-- The actions that meet the guard are those of the run. -/
theorem mem {s s' : σ} {as : List α} (h : Guarded step G s as s') :
    Guarded step (fun s a => G s a ∧ a ∈ as) s as s' := by
  induction h with
  | refl => exact .refl _
  | more hG h _ ih =>
      exact .more ⟨hG, List.mem_cons_self⟩ h
        (ih.mono fun _ _ ha => ⟨ha.1, List.mem_cons_of_mem _ ha.2⟩)

/-- The actions are taken in the course of the run. -/
theorem takes {s s' : σ} {as : List α} (h : Guarded step G s as s') :
    Guarded step (fun s₁ a => G s₁ a ∧ Takes step s as s₁ a) s as s' := by
  induction h with
  | refl => exact .refl _
  | more hG h _ ih =>
      refine .more ⟨hG, [], _, rfl, .refl _⟩ h (ih.mono fun s₁ a ha => ⟨ha.1, ?_⟩)
      obtain ⟨before, after, rfl, hrun⟩ := ha.2
      exact ⟨_ :: before, after, rfl, .more h hrun⟩

/-- What every guarded step preserves holds at the end of every guarded run. -/
theorem invariant {I : σ → Prop} (hstep : ∀ s a s', I s → G s a → step s a = some s' → I s')
    {s s' : σ} {as : List α} (h : Guarded step G s as s') (h₀ : I s) : I s' := by
  induction h with
  | refl => exact h₀
  | more hG h _ ih => exact ih (hstep _ _ _ h₀ hG h)

theorem append {s s₁ s' : σ} {as bs : List α} (h : Guarded step G s as s₁)
    (h' : Guarded step G s₁ bs s') : Guarded step G s (as ++ bs) s' := by
  induction h with
  | refl => exact h'
  | more hG hs _ ih => exact .more hG hs (ih h')

end Guarded

/-- The guarded run the actions determine, if all of them are enabled and meet the guard in turn. -/
def execWithin (step : σ → α → Option σ) (G : σ → α → Prop) [∀ s a, Decidable (G s a)] :
    σ → List α → Option σ
  | s, [] => some s
  | s, a :: as => if G s a then (step s a).bind fun s₁ => execWithin step G s₁ as else none

theorem guarded_of_exec {G : σ → α → Prop} [∀ s a, Decidable (G s a)] :
    ∀ {as : List α} {s s' : σ}, execWithin step G s as = some s' → Guarded step G s as s'
  | [], s, s', h => by
      obtain rfl : s = s' := Option.some.inj h
      exact .refl s
  | a :: as, s, s', h => by
      rw [execWithin] at h
      split at h
      · rename_i hG
        obtain ⟨s₁, h₁, h₂⟩ := Option.bind_eq_some_iff.mp h
        exact .more hG h₁ (guarded_of_exec h₂)
      · cases h

end Transition
