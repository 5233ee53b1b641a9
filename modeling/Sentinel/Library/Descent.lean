import Mathlib.Logic.Hydra
import Mathlib.SetTheory.Ordinal.Family
import Sentinel.Library.Program
import Sentinel.Library.Transition

/-!
# Library — Descent

Systems that come to an end.

* `Eventually`: whatever actions of a kind are taken, a state with `Q` is reached, and until then
  one can be taken. `Eventually.of_descent` is the rule: an invariant, and a measure that falls.
* `Prog.rank`: how much a program has left to do, which is an ordinal, as its results may be
  infinitely many. The ranks of some threads fall, as a multiset, when one of them advances
  (`Pool.advance_falls`).
-/

namespace Transition

variable {σ α : Type} {μ : Type*}

/-- Every run of actions with `P` reaches a state with `Q`, and does not get stuck before. -/
inductive Eventually (step : σ → α → Option σ) (P : α → Prop) (Q : σ → Prop) : σ → Prop where
  | now {s : σ} (h : Q s) : Eventually step P Q s
  | later {s : σ} (hgo : ∃ a, P a ∧ (step s a).isSome)
      (hall : ∀ a s', P a → step s a = some s' → Eventually step P Q s') : Eventually step P Q s

namespace Eventually

variable {step : σ → α → Option σ} {P : α → Prop} {Q : σ → Prop}

/-- **What is reached by a measure that falls.** -/
theorem of_descent {r : μ → μ → Prop} (hwf : WellFounded r) (m : σ → μ) {I : σ → Prop}
    (hgo : ∀ s, I s → ¬ Q s → ∃ a, P a ∧ (step s a).isSome)
    (hfalls : ∀ s a s', I s → ¬ Q s → P a → step s a = some s' → I s' ∧ r (m s') (m s))
    {s : σ} (hs : I s) : Eventually step P Q s := by
  induction h : m s using hwf.induction generalizing s with
  | h x ih =>
      subst h
      by_cases hQ : Q s
      · exact .now hQ
      · refine .later (hgo s hs hQ) fun a s' ha hstep => ?_
        obtain ⟨hs', hlt⟩ := hfalls s a s' hs hQ ha hstep
        exact ih (m s') hlt hs' rfl

/-- There is such a run. -/
theorem exists_run {s : σ} (h : Eventually step P Q s) :
    ∃ as s', (∀ a ∈ as, P a) ∧ Run step s as s' ∧ Q s' := by
  induction h with
  | now h => exact ⟨[], _, fun a ha => absurd ha List.not_mem_nil, .refl _, h⟩
  | @later s hgo _ ih =>
      obtain ⟨a, ha, hsome⟩ := hgo
      obtain ⟨s₁, hs₁⟩ := Option.isSome_iff_exists.mp hsome
      obtain ⟨as, s', has, hrun, hQ⟩ := ih a s₁ ha hs₁
      refine ⟨a :: as, s', fun b hb => ?_, .more hs₁ hrun, hQ⟩
      rcases List.mem_cons.mp hb with rfl | hb
      · exact ha
      · exact has b hb

end Eventually

end Transition

namespace Program

open Relation

variable {Op : Type} {Res : Op → Type} {C S L α : Type}

/-- How much a program has left to do. -/
noncomputable def Prog.rank : Prog Op Res α → Ordinal.{0}
  | ret _ => 0
  | call _ k => ⨆ r, (k r).rank + 1

theorem Prog.rank_lt (o : Op) (k : Res o → Prog Op Res α) (r : Res o) :
    (k r).rank < (call o k).rank :=
  Ordinal.lt_iSup_add_one (fun r => (k r).rank) r

/-- What some threads have left to do. -/
noncomputable def ranks (threads : List (Thread Op Res L α)) : Multiset Ordinal.{0} :=
  threads.map fun t => t.prog.rank

/-- Some threads have less left to do, one of them having advanced. -/
def Falls : Multiset Ordinal.{0} → Multiset Ordinal.{0} → Prop := CutExpand (· < ·)

theorem falls_wellFounded : WellFounded Falls := Ordinal.lt_wf.cutExpand

theorem ranks_append (threads more : List (Thread Op Res L α)) :
    ranks (threads ++ more) = ranks threads + ranks more := by
  rw [ranks, List.map_append, ← Multiset.coe_add]
  rfl

theorem Falls.add_left {s s' : Multiset Ordinal.{0}} (h : Falls s' s) (t : Multiset Ordinal.{0}) :
    Falls (t + s') (t + s) :=
  (cutExpand_add_left t).mpr h

theorem Falls.add_right {s s' : Multiset Ordinal.{0}} (h : Falls s' s)
    (t : Multiset Ordinal.{0}) : Falls (s' + t) (s + t) :=
  (cutExpand_add_right t).mpr h

theorem Thread.step_falls {h : Handler Op Res C S L} {t t' : Thread Op Res L α} {c : C} {s s' : S}
    (hs : t.step h c s = some (s', t')) : Falls {t'.prog.rank} {t.prog.rank} := by
  obtain ⟨o, k, hprog, -, ht'⟩ := Thread.step_cases hs
  rw [hprog, ht']
  exact cutExpand_singleton_singleton (Prog.rank_lt o k _)

/-- **The ranks of a pool fall when one of its threads advances.** -/
theorem Pool.advance_falls {h : Handler Op Res C S L} {pool pool' : Pool Op Res S L α} {i : Nat}
    {c : C} (hs : pool.advance h i c = some pool') :
    Falls (ranks pool'.threads) (ranks pool.threads) := by
  obtain ⟨before, t, t', after, -, hpool, hpool', -, hstep⟩ := Pool.advance_cases hs
  have hsplit : ∀ t : Thread Op Res L α,
      ranks (before ++ t :: after) = ranks before + ({t.prog.rank} + ranks after) := by
    intro t
    rw [ranks_append]
    rfl
  rw [hpool, hpool', hsplit, hsplit]
  exact (Falls.add_right (Thread.step_falls hstep) _).add_left _

end Program
