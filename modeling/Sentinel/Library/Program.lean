import Mathlib.Tactic.Common

/-!
# Library — Program

Programs that perform operations one at a time, over any set of operations, and ways of reasoning
about them.

A handler says what an operation does: given a choice of the environment (which call fails, what
time it is), a shared state and the program's own local state, it returns the new states and the
operation's result.

* `run` is the program on its own. `Post A Q p` is its precondition for `Q`: whatever choices that
  `A` admits are made, `p` ends in `Q` (`Post.run`). It goes through `bind` (`post_bind`). With
  `logged`, `Q` is also about the operations performed.
* `Only P p` says that all operations of `p` are in `P`. What each of them keeps, `p` keeps
  (`Only.run`). `Yields P R Q p` says so as long as the results of the operations are in `R`.
* A `Thread` is a program between two operations. Other threads may change the shared state there,
  so `Safe G Q p` says that every operation of `p`, done in any shared state, keeps the guarantee
  `G`, with a ghost state that the guarantee may read and change (`Safe.step`).
* `Amid R G Q p` knows what the others do: they change the shared state by `R` (`Amid.rely`). So an
  assertion about it that `R` keeps stands between two operations of `p` (`step_amid`).
* `Under I G Q p` says so of shared states with `I`, which it also keeps: threads that are all under
  one invariant keep it together (`Pool.advance_under`).
* A `Pool` is some threads over one state, of which one at a time advances.
-/

namespace Program

/-- A program: it ends with a value, or performs an operation and goes on with its result. -/
inductive Prog (Op : Type) (Res : Op → Type) (α : Type) where
  | ret (a : α)
  | call (o : Op) (k : Res o → Prog Op Res α)

/-- What an operation does, by choice of the environment, to a shared and a local state. -/
abbrev Handler (Op : Type) (Res : Op → Type) (C S L : Type) :=
  C → S → L → (o : Op) → S × L × Res o

variable {Op : Type} {Res : Op → Type} {C S L γ α β : Type}

namespace Prog

def bind : Prog Op Res α → (α → Prog Op Res β) → Prog Op Res β
  | ret a, f => f a
  | call o k, f => call o fun r => (k r).bind f

instance : Monad (Prog Op Res) where
  pure := ret
  bind := bind

/-- One operation, ending with its result. -/
def op (o : Op) : Prog Op Res (Res o) := call o ret

/-! ### Alone -/

/-- The program on its own, under the choices `cs`. -/
def run (h : Handler Op Res C S L) : Prog Op Res α → (Nat → C) → S → L → S × L × α
  | ret a, _, s, l => (s, l, a)
  | call o k, cs, s, l =>
      let r := h (cs 0) s l o
      run h (k r.2.2) (fun n => cs (n + 1)) r.1 r.2.1

/-- Whatever choices that `A` admits are made, the program ends in `Q`. -/
def Post (h : Handler Op Res C S L) (A : C → Prop) (Q : S → L → α → Prop) :
    Prog Op Res α → S → L → Prop
  | ret a, s, l => Q s l a
  | call o k, s, l =>
      ∀ c, A c → Post h A Q (k (h c s l o).2.2) (h c s l o).1 (h c s l o).2.1

variable {h : Handler Op Res C S L} {A : C → Prop}

theorem post_bind {Q : S → L → β → Prop} {f : α → Prog Op Res β} {p : Prog Op Res α} {s : S}
    {l : L} : Post h A Q (p >>= f) s l ↔ Post h A (fun s l a => Post h A Q (f a) s l) p s l := by
  induction p generalizing s l with
  | ret a => exact Iff.rfl
  | call o k ih => exact forall₂_congr fun c hc => ih _

theorem Post.mono {Q Q' : S → L → α → Prop} (hQ : ∀ s l a, Q s l a → Q' s l a)
    {p : Prog Op Res α} {s : S} {l : L} (hp : Post h A Q p s l) : Post h A Q' p s l := by
  induction p generalizing s l with
  | ret a => exact hQ s l a hp
  | call o k ih =>
      intro c hc
      exact ih _ (hp c hc)

/-- A run under admitted choices ends in what the program's precondition promises. -/
theorem Post.run {Q : S → L → α → Prop} {p : Prog Op Res α} {s : S} {l : L} {cs : Nat → C}
    (hp : Post h A Q p s l) (hA : ∀ n, A (cs n)) :
    Q (p.run h cs s l).1 (p.run h cs s l).2.1 (p.run h cs s l).2.2 := by
  induction p generalizing s l cs with
  | ret a => exact hp
  | call o k ih => exact ih _ (hp (cs 0) (hA 0)) fun n => hA (n + 1)

/-- A handler that also keeps the operations performed, with their results. -/
def logged (h : Handler Op Res C S L) : Handler Op Res C (S × List (Σ o, Res o)) L :=
  fun c s l o =>
    let r := h c s.1 l o
    ((r.1, s.2 ++ [⟨o, r.2.2⟩]), r.2.1, r.2.2)

/-! ### Operations -/

/-- Every operation the program can come to, whatever the results of the others, is in `P`. -/
def Only (P : Op → Prop) : Prog Op Res α → Prop
  | ret _ => True
  | call o k => P o ∧ ∀ r, Only P (k r)

variable {P : Op → Prop}

theorem only_ret {a : α} : Only P (ret a : Prog Op Res α) := trivial

theorem only_op {o : Op} (ho : P o) : Only P (op o : Prog Op Res (Res o)) :=
  ⟨ho, fun _ => trivial⟩

theorem only_bind {f : α → Prog Op Res β} (hf : ∀ a, Only P (f a)) {p : Prog Op Res α}
    (hp : Only P p) : Only P (p >>= f) := by
  induction p with
  | ret a => exact hf a
  | call o k ih => exact ⟨hp.1, fun r => ih r (hp.2 r)⟩

theorem only_of_forall (hP : ∀ o, P o) (p : Prog Op Res α) : Only P p := by
  induction p with
  | ret a => trivial
  | call o k ih => exact ⟨hP o, ih⟩

theorem Only.mono {P' : Op → Prop} (hP : ∀ o, P o → P' o) {p : Prog Op Res α} (hp : Only P p) :
    Only P' p := by
  induction p with
  | ret a => trivial
  | call o k ih => exact ⟨hP o hp.1, fun r => ih r (hp.2 r)⟩

/-- **What each of its operations keeps, a program keeps.** -/
theorem Only.run {I : S → L → Prop}
    (hI : ∀ c s l o, P o → I s l → I (h c s l o).1 (h c s l o).2.1) {p : Prog Op Res α} {s : S}
    {l : L} {cs : Nat → C} (hp : Only P p) (hs : I s l) :
    I (p.run h cs s l).1 (p.run h cs s l).2.1 := by
  induction p generalizing s l cs with
  | ret a => exact hs
  | call o k ih => exact ih _ (hp.2 _) (hI (cs 0) s l o hp.1 hs)

/-- Every operation the program can come to is in `P`, and it ends with a value in `Q`, if the
results of its operations are in `R`. -/
def Yields (P : Op → Prop) (R : (o : Op) → Res o → Prop) (Q : α → Prop) : Prog Op Res α → Prop
  | ret a => Q a
  | call o k => P o ∧ ∀ r, R o r → Yields P R Q (k r)

variable {R : (o : Op) → Res o → Prop}

theorem Yields.mono {Q Q' : α → Prop} (hQ : ∀ a, Q a → Q' a) {p : Prog Op Res α}
    (hp : Yields P R Q p) : Yields P R Q' p := by
  induction p with
  | ret a => exact hQ a hp
  | call o k ih => exact ⟨hp.1, fun r hr => ih r (hp.2 r hr)⟩

theorem yields_op {o : Op} {Q : Res o → Prop} (ho : P o) (hQ : ∀ r, R o r → Q r) :
    Yields P R Q (op o : Prog Op Res (Res o)) :=
  ⟨ho, hQ⟩

theorem yields_bind {Q : β → Prop} {f : α → Prog Op Res β} {p : Prog Op Res α}
    (hp : Yields P R (fun a => Yields P R Q (f a)) p) : Yields P R Q (p >>= f) := by
  induction p with
  | ret a => exact hp
  | call o k ih => exact ⟨hp.1, fun r hr => ih r (hp.2 r hr)⟩

theorem Only.yields {p : Prog Op Res α} (hp : Only P p) : Yields P R (fun _ => True) p := by
  induction p with
  | ret a => trivial
  | call o k ih => exact ⟨hp.1, fun r _ => ih r (hp.2 r)⟩

/-- What each of its operations keeps, a program keeps, if it makes the results be in `R`. -/
theorem Yields.run {I : S → L → Prop} {Q : α → Prop}
    (hI : ∀ c s l o, P o → I s l → I (h c s l o).1 (h c s l o).2.1 ∧ R o (h c s l o).2.2)
    {p : Prog Op Res α} {s : S} {l : L} {cs : Nat → C} (hp : Yields P R Q p) (hs : I s l) :
    I (p.run h cs s l).1 (p.run h cs s l).2.1 := by
  induction p generalizing s l cs with
  | ret a => exact hs
  | call o k ih =>
      obtain ⟨hs', hr⟩ := hI (cs 0) s l o hp.1 hs
      exact ih _ (hp.2 _ hr) hs'

/-- The same of a precondition. -/
theorem Only.post {I : S → L → Prop}
    (hI : ∀ c s l o, A c → P o → I s l → I (h c s l o).1 (h c s l o).2.1) {p : Prog Op Res α}
    {s : S} {l : L} (hp : Only P p) (hs : I s l) : Post h A (fun s l _ => I s l) p s l := by
  induction p generalizing s l with
  | ret a => exact hs
  | call o k ih =>
      intro c hc
      exact ih _ (hp.2 _) (hI c s l o hc hp.1 hs)

/-! ### Among others -/

/-- Every operation, done in any shared state, keeps the guarantee `G`, and the program ends in
`Q`. The ghost state is the guarantee's own. -/
def Safe (h : Handler Op Res C S L) (G : γ → S → γ → S → Prop) (Q : L → γ → α → Prop) :
    Prog Op Res α → L → γ → Prop
  | ret a, l, g => Q l g a
  | call o k, l, g => ∀ c s, ∃ g', G g s g' (h c s l o).1 ∧
      Safe h G Q (k (h c s l o).2.2) (h c s l o).2.1 g'

variable {G : γ → S → γ → S → Prop}

theorem safe_bind {Q : L → γ → β → Prop} {f : α → Prog Op Res β} {p : Prog Op Res α} {l : L}
    {g : γ} : Safe h G Q (p >>= f) l g ↔
      Safe h G (fun l g a => Safe h G Q (f a) l g) p l g := by
  induction p generalizing l g with
  | ret a => exact Iff.rfl
  | call o k ih =>
      exact forall₂_congr fun c s => exists_congr fun g' => and_congr_right fun _ => ih _

theorem Safe.mono {Q Q' : L → γ → α → Prop} (hQ : ∀ l g a, Q l g a → Q' l g a)
    {p : Prog Op Res α} {l : L} {g : γ} (hp : Safe h G Q p l g) : Safe h G Q' p l g := by
  induction p generalizing l g with
  | ret a => exact hQ l g a hp
  | call o k ih =>
      intro c s
      obtain ⟨g', hG, hk⟩ := hp c s
      exact ⟨g', hG, ih _ hk⟩

/-- Others change the shared state by `R` before each operation. Every operation, done under a
choice that `A` admits for it, keeps the guarantee `G`, and the program ends in `Q`. The ghost state
is the guarantee's own. -/
def Amid (h : Handler Op Res C S L) (A : Op → C → Prop) (R : S → S → Prop)
    (G : γ → S → γ → S → Prop) (Q : S → L → γ → α → Prop) : Prog Op Res α → S → L → γ → Prop
  | ret a, s, l, g => Q s l g a
  | call o k, s, l, g => ∀ c s', A o c → R s s' → ∃ g', G g s' g' (h c s' l o).1 ∧
      Amid h A R G Q (k (h c s' l o).2.2) (h c s' l o).1 (h c s' l o).2.1 g'

variable {A₀ : Op → C → Prop} {R₀ : S → S → Prop}

theorem amid_bind {Q : S → L → γ → β → Prop} {f : α → Prog Op Res β} {p : Prog Op Res α} {s : S}
    {l : L} {g : γ} : Amid h A₀ R₀ G Q (p >>= f) s l g ↔
      Amid h A₀ R₀ G (fun s l g a => Amid h A₀ R₀ G Q (f a) s l g) p s l g := by
  induction p generalizing s l g with
  | ret a => exact Iff.rfl
  | call o k ih =>
      refine forall₂_congr fun c s' => imp_congr_right fun _ => imp_congr_right fun _ => ?_
      exact exists_congr fun g' => and_congr_right fun _ => ih _

theorem Amid.mono {Q Q' : S → L → γ → α → Prop} (hQ : ∀ s l g a, Q s l g a → Q' s l g a)
    {p : Prog Op Res α} {s : S} {l : L} {g : γ} (hp : Amid h A₀ R₀ G Q p s l g) :
    Amid h A₀ R₀ G Q' p s l g := by
  induction p generalizing s l g with
  | ret a => exact hQ s l g a hp
  | call o k ih =>
      intro c s' hc hR
      obtain ⟨g', hG, hk⟩ := hp c s' hc hR
      exact ⟨g', hG, ih _ hk⟩

/-- What the others do leaves the program where it is. -/
theorem Amid.rely {Q : S → L → γ → α → Prop} (htrans : ∀ s₁ s₂ s₃, R₀ s₁ s₂ → R₀ s₂ s₃ → R₀ s₁ s₃)
    (hQ : ∀ s s' l g a, Q s l g a → R₀ s s' → Q s' l g a) {p : Prog Op Res α} {s s' : S} {l : L}
    {g : γ} (hp : Amid h A₀ R₀ G Q p s l g) (hs : R₀ s s') : Amid h A₀ R₀ G Q p s' l g := by
  cases p with
  | ret a => exact hQ s s' l g a hp hs
  | call o k => exact fun c s'' hc hR => hp c s'' hc (htrans _ _ _ hs hR)

/-- Every operation, done under a choice that `A` admits in a shared state with `I`, keeps `I` and
the guarantee `G`, and the program ends in `Q`. -/
def Under (h : Handler Op Res C S L) (A : S → C → Prop) (I : S → Prop) (G : S → S → Prop)
    (Q : L → α → Prop) : Prog Op Res α → L → Prop
  | ret a, l => Q l a
  | call o k, l => ∀ c s, A s c → I s → I (h c s l o).1 ∧ G s (h c s l o).1 ∧
      Under h A I G Q (k (h c s l o).2.2) (h c s l o).2.1

variable {B : S → C → Prop} {I : S → Prop} {R' : S → S → Prop}

theorem under_bind {Q : L → β → Prop} {f : α → Prog Op Res β} {p : Prog Op Res α} {l : L} :
    Under h B I R' Q (p >>= f) l ↔
      Under h B I R' (fun l a => Under h B I R' Q (f a) l) p l := by
  induction p generalizing l with
  | ret a => exact Iff.rfl
  | call o k ih =>
      refine forall₂_congr fun c s => imp_congr_right fun _ => imp_congr_right fun _ => ?_
      exact and_congr_right fun _ => and_congr_right fun _ => ih _

theorem Under.mono {Q Q' : L → α → Prop} (hQ : ∀ l a, Q l a → Q' l a) {p : Prog Op Res α} {l : L}
    (hp : Under h B I R' Q p l) : Under h B I R' Q' p l := by
  induction p generalizing l with
  | ret a => exact hQ l a hp
  | call o k ih =>
      intro c s hB hI
      obtain ⟨hI', hG, hk⟩ := hp c s hB hI
      exact ⟨hI', hG, ih _ hk⟩

end Prog

/-- A program between two operations, with its local state. -/
structure Thread (Op : Type) (Res : Op → Type) (L α : Type) where
  prog : Prog Op Res α
  own : L

namespace Thread

/-- The next operation, if the program has not ended. -/
def step (h : Handler Op Res C S L) (c : C) (s : S) (t : Thread Op Res L α) :
    Option (S × Thread Op Res L α) :=
  match t.prog with
  | .ret _ => none
  | .call o k => some ((h c s t.own o).1, ⟨k (h c s t.own o).2.2, (h c s t.own o).2.1⟩)

/-- What the program ended with, if it has. -/
def result (t : Thread Op Res L α) : Option α :=
  match t.prog with
  | .ret a => some a
  | .call _ _ => none

theorem prog_of_result {t : Thread Op Res L α} {a : α} (h : t.result = some a) :
    t.prog = .ret a := by
  unfold result at h
  split at h
  · rename_i hprog
    rw [hprog, Option.some.inj h]
  · cases h

/-- A thread's step is one of its operations. -/
theorem step_cases {h : Handler Op Res C S L} {t t' : Thread Op Res L α} {c : C} {s s' : S}
    (hs : t.step h c s = some (s', t')) : ∃ o k, t.prog = .call o k ∧ s' = (h c s t.own o).1 ∧
      t' = ⟨k (h c s t.own o).2.2, (h c s t.own o).2.1⟩ := by
  obtain ⟨p, l⟩ := t
  cases p with
  | ret a => cases hs
  | call o k =>
      cases hs
      exact ⟨o, k, rfl, rfl, rfl⟩

/-- A step of a thread is of its operations, and leaves a thread of them. -/
theorem step_yields {P : Op → Prop} {R : (o : Op) → Res o → Prop} {Q : α → Prop}
    {I : S → L → Prop} {h : Handler Op Res C S L} {t t' : Thread Op Res L α} {c : C} {s s' : S}
    (hI : ∀ o, P o → I s t.own → I (h c s t.own o).1 (h c s t.own o).2.1 ∧
      R o (h c s t.own o).2.2)
    (ht : t.prog.Yields P R Q) (hs : I s t.own) (hstep : t.step h c s = some (s', t')) :
    t'.prog.Yields P R Q ∧ I s' t'.own := by
  obtain ⟨p, l⟩ := t
  obtain ⟨o, k, rfl, rfl, rfl⟩ := step_cases hstep
  obtain ⟨hs', hr⟩ := hI o ht.1 hs
  exact ⟨ht.2 _ hr, hs'⟩

/-- A thread keeps its guarantee from here on. -/
def Safe (h : Handler Op Res C S L) (G : γ → S → γ → S → Prop) (Q : L → γ → α → Prop)
    (t : Thread Op Res L α) (g : γ) : Prop :=
  t.prog.Safe h G Q t.own g

/-- A step of a safe thread keeps the guarantee and leaves a safe thread. -/
theorem Safe.step {h : Handler Op Res C S L} {G : γ → S → γ → S → Prop} {Q : L → γ → α → Prop}
    {t t' : Thread Op Res L α} {g : γ} {c : C} {s s' : S} (ht : t.Safe h G Q g)
    (hs : t.step h c s = some (s', t')) : ∃ g', G g s g' s' ∧ t'.Safe h G Q g' := by
  obtain ⟨p, l⟩ := t
  cases p with
  | ret a => cases hs
  | call o k =>
      obtain ⟨g', hG, hk⟩ := ht c s
      cases hs
      exact ⟨g', hG, hk⟩

/-- A step of a program that others leave where it is keeps its guarantee. -/
theorem step_amid {h : Handler Op Res C S L} {A : Op → C → Prop} {R : S → S → Prop}
    {G : γ → S → γ → S → Prop} {Q : S → L → γ → α → Prop} {t t' : Thread Op Res L α} {g : γ} {c : C}
    {s s' : S} (hrefl : R s s) (ht : t.prog.Amid h A R G Q s t.own g)
    (hc : ∀ o k, t.prog = .call o k → A o c) (hs : t.step h c s = some (s', t')) :
    ∃ g', G g s g' s' ∧ t'.prog.Amid h A R G Q s' t'.own g' := by
  obtain ⟨o, k, hp, rfl, rfl⟩ := step_cases hs
  rw [hp] at ht
  exact ht c s (hc o k hp) hrefl

/-- A thread keeps an invariant and its guarantee from here on. -/
def Under (h : Handler Op Res C S L) (A : S → C → Prop) (I : S → Prop) (G : S → S → Prop)
    (Q : L → α → Prop) (t : Thread Op Res L α) : Prop :=
  t.prog.Under h A I G Q t.own

theorem Under.step {h : Handler Op Res C S L} {A : S → C → Prop} {I : S → Prop}
    {G : S → S → Prop} {Q : L → α → Prop} {t t' : Thread Op Res L α} {c : C} {s s' : S}
    (ht : t.Under h A I G Q) (hA : A s c) (hI : I s) (hs : t.step h c s = some (s', t')) :
    I s' ∧ G s s' ∧ t'.Under h A I G Q := by
  obtain ⟨o, k, hp, rfl, rfl⟩ := step_cases hs
  unfold Under at ht
  rw [hp] at ht
  exact ht c s hA hI

end Thread

/-! ### Pools -/

/-- Some threads over one shared state. -/
structure Pool (Op : Type) (Res : Op → Type) (S L α : Type) where
  shared : S
  threads : List (Thread Op Res L α)

namespace Pool

/-- One more thread. -/
def spawn (pool : Pool Op Res S L α) (t : Thread Op Res L α) : Pool Op Res S L α :=
  { pool with threads := pool.threads ++ [t] }

/-- The next operation of one of the threads. -/
def advance (h : Handler Op Res C S L) (pool : Pool Op Res S L α) (i : Nat) (c : C) :
    Option (Pool Op Res S L α) :=
  (pool.threads[i]?).bind fun t =>
    (t.step h c pool.shared).map fun r => ⟨r.1, pool.threads.set i r.2⟩

/-- One thread advances, and the others are as they were. -/
theorem advance_cases {h : Handler Op Res C S L} {pool pool' : Pool Op Res S L α} {i : Nat}
    {c : C} (hs : pool.advance h i c = some pool') : ∃ before t t' after,
      pool.threads[i]? = some t ∧ pool.threads = before ++ t :: after ∧
        pool'.threads = before ++ t' :: after ∧ pool'.threads = pool.threads.set i t' ∧
          t.step h c pool.shared = some (pool'.shared, t') := by
  obtain ⟨t, ht, hr⟩ := Option.bind_eq_some_iff.mp hs
  obtain ⟨⟨s', t'⟩, hstep, rfl⟩ := Option.map_eq_some_iff.mp hr
  obtain ⟨hi, rfl⟩ := List.getElem?_eq_some_iff.mp ht
  refine ⟨pool.threads.take i, _, t', pool.threads.drop (i + 1), ht, ?_, ?_, rfl, hstep⟩
  · rw [← List.drop_eq_getElem_cons hi, List.take_append_drop]
  · exact List.set_eq_take_append_cons_drop.trans (if_pos hi)

/-- **Threads that are all under one invariant keep it together**, whichever of them advances. -/
theorem advance_under {h : Handler Op Res C S L} {A : S → C → Prop} {I : S → Prop}
    {G : S → S → Prop} {Q : L → α → Prop} {pool pool' : Pool Op Res S L α} {i : Nat} {c : C}
    (hI : I pool.shared) (hthreads : ∀ t ∈ pool.threads, t.Under h A I G Q)
    (hA : A pool.shared c) (hs : pool.advance h i c = some pool') :
    I pool'.shared ∧ G pool.shared pool'.shared ∧ ∀ t ∈ pool'.threads, t.Under h A I G Q := by
  obtain ⟨before, t, t', after, -, hpool, hpool', -, hstep⟩ := advance_cases hs
  rw [hpool] at hthreads
  obtain ⟨hI', hG, ht'⟩ := Thread.Under.step
    (hthreads t (List.mem_append_right _ List.mem_cons_self)) hA hI hstep
  refine ⟨hI', hG, fun x hx => ?_⟩
  rw [hpool'] at hx
  rcases List.mem_append.mp hx with hx | hx
  · exact hthreads x (List.mem_append_left _ hx)
  · rcases List.mem_cons.mp hx with rfl | hx
    · exact ht'
    · exact hthreads x (List.mem_append_right _ (List.mem_cons_of_mem _ hx))

end Pool

end Program
