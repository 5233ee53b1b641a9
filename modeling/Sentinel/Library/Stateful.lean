import Mathlib.Tactic.Common

/-!
# Library — Stateful

What a computation over a state ensures when it may stop with an error: a condition on its
result and the state it returns in, and one on the error and the state it stops in. The state is
not rolled back by an error.
-/

namespace Stateful

variable {ε σ α β : Type} {s : σ} {Q : α → σ → Prop} {E : ε → σ → Prop}

/-- From `s`, the computation returns with `Q` or stops with `E`. -/
def Ensures (x : EStateM ε σ α) (s : σ) (Q : α → σ → Prop) (E : ε → σ → Prop) : Prop :=
  match x s with
  | .ok a s' => Q a s'
  | .error e s' => E e s'

theorem Ensures.mono {x : EStateM ε σ α} {Q' : α → σ → Prop} {E' : ε → σ → Prop}
    (h : Ensures x s Q E) (hQ : ∀ a s', Q a s' → Q' a s') (hE : ∀ e s', E e s' → E' e s') :
    Ensures x s Q' E' := by
  unfold Ensures at *
  cases hx : x s with
  | ok a s' => exact hQ a s' (by simpa only [hx] using h)
  | error e s' => exact hE e s' (by simpa only [hx] using h)

@[simp] theorem ensures_pure {a : α} : Ensures (pure a) s Q E ↔ Q a s := Iff.rfl

@[simp] theorem ensures_throw {e : ε} : Ensures (throw e) s Q E ↔ E e s := Iff.rfl

@[simp] theorem ensures_bind {x : EStateM ε σ β} {f : β → EStateM ε σ α} :
    Ensures (x >>= f) s Q E ↔ Ensures x s (fun b s' => Ensures (f b) s' Q E) E := by
  unfold Ensures
  simp only [bind, EStateM.bind]
  cases x s <;> rfl

@[simp] theorem ensures_get {Q : σ → σ → Prop} :
    Ensures (get : EStateM ε σ σ) s Q E ↔ Q s s := Iff.rfl

@[simp] theorem ensures_modify {f : σ → σ} {Q : PUnit → σ → Prop} :
    Ensures (modify f : EStateM ε σ PUnit) s Q E ↔ Q ⟨⟩ (f s) := Iff.rfl

end Stateful
