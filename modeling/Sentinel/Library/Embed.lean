import Sentinel.Library.Program

/-!
# Library — Embed

Programs over some operations as programs over more of them.

* `Prog.embed f g p` performs `f o` wherever `p` performs `o`, and goes on with what `g` reads of
  the result.
* `Extends h f g h'`: on the embedded operations the larger handler does what the smaller one does,
  and leaves the rest of its state alone. So what a program keeps of its own state, its embedding
  keeps (`Under.embed`).
* `Under.with_only`: what every operation of a program keeps, whatever it knows, is kept beside what
  the program keeps.
-/

namespace Program

variable {Op Op' : Type} {Res : Op → Type} {Res' : Op' → Type} {C S E L α β : Type}

namespace Prog

/-- The program with its operations among others. -/
def embed (f : Op → Op') (g : ∀ o, Res' (f o) → Res o) : Prog Op Res α → Prog Op' Res' α
  | ret a => ret a
  | call o k => call (f o) fun r => embed f g (k (g o r))

variable {f : Op → Op'} {g : ∀ o, Res' (f o) → Res o}

theorem embed_bind (p : Prog Op Res α) (k : α → Prog Op Res β) :
    (p >>= k).embed f g = p.embed f g >>= fun a => (k a).embed f g := by
  induction p with
  | ret a => rfl
  | call o k' ih =>
      show call (f o) (fun r => embed f g ((k' (g o r)).bind k)) = call (f o) _
      congr 1
      funext r
      exact ih (g o r)

theorem Only.embed {P : Op → Prop} {P' : Op' → Prop} (hP : ∀ o, P o → P' (f o))
    {p : Prog Op Res α} (hp : p.Only P) : (p.embed f g).Only P' := by
  induction p with
  | ret a => trivial
  | call o k ih => exact ⟨hP o hp.1, fun r => ih (g o r) (hp.2 (g o r))⟩

/-- On the embedded operations the second handler does what the first does to one part of its
state, and nothing to the other. -/
def Extends (h : Handler Op Res C S L) (f : Op → Op') (g : ∀ o, Res' (f o) → Res o)
    (h' : Handler Op' Res' C (S × E) L) : Prop :=
  ∀ c s l o, (h' c s l (f o)).1 = ((h c s.1 l o).1, s.2) ∧
    (h' c s l (f o)).2.1 = (h c s.1 l o).2.1 ∧ g o (h' c s l (f o)).2.2 = (h c s.1 l o).2.2

variable {h : Handler Op Res C S L} {h' : Handler Op' Res' C (S × E) L} {A : S → C → Prop}
  {I : S → Prop} {G : S → S → Prop} {Q : L → α → Prop}

/-- **An embedded program keeps what the program keeps**, and whatever holds of the rest. -/
theorem Under.embed (hext : Extends h f g h') {X : E → Prop} {p : Prog Op Res α} {l : L}
    (hp : p.Under h A I G Q l) : (p.embed f g).Under h' (fun s c => A s.1 c)
      (fun s => I s.1 ∧ X s.2) (fun s s' => G s.1 s'.1 ∧ s'.2 = s.2) Q l := by
  induction p generalizing l with
  | ret a => exact hp
  | call o k ih =>
      intro c s hA hI
      obtain ⟨hstate, hown, hres⟩ := hext c s l o
      obtain ⟨hI', hG, hk⟩ := hp c s.1 hA hI.1
      rw [hstate, hown]
      refine ⟨⟨hI', hI.2⟩, ⟨hG, rfl⟩, ?_⟩
      show Under h' _ _ _ Q (Prog.embed f g (k (g o (h' c s l (f o)).2.2))) _
      rw [hres]
      exact ih _ hk

theorem Under.guarantees {G' : S → S → Prop} (hG : ∀ s s', G s s' → G' s s')
    {p : Prog Op Res α} {l : L} (hp : p.Under h A I G Q l) : p.Under h A I G' Q l := by
  induction p generalizing l with
  | ret a => exact hp
  | call o k ih =>
      intro c s hA hI
      obtain ⟨hI', hstep, hk⟩ := hp c s hA hI
      exact ⟨hI', hG _ _ hstep, ih _ hk⟩

/-- What every operation keeps is kept as well, if the local state is `M` all along. -/
theorem Under.with_only {P : Op → Prop} {J : S → Prop} {M : L → Prop}
    (hJ : ∀ c s l o, P o → M l → J s → J (h c s l o).1 ∧ M (h c s l o).2.1)
    {p : Prog Op Res α} {l : L} (honly : p.Only P) (hl : M l) (hp : p.Under h A I G Q l) :
    p.Under h A (fun s => I s ∧ J s) G (fun l a => M l ∧ Q l a) l := by
  induction p generalizing l with
  | ret a => exact ⟨hl, hp⟩
  | call o k ih =>
      intro c s hA hI
      obtain ⟨hI', hG, hk⟩ := hp c s hA hI.1
      obtain ⟨hJ', hl'⟩ := hJ c s l o honly.1 hl hI.2
      exact ⟨⟨hI', hJ'⟩, hG, ih _ (honly.2 _) hl' hk⟩

end Prog

end Program
