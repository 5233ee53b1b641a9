import Sentinel.Database.Ledger

/-!
# Database — Shared

Programs that run beside others on the same tables, of which each changes the tables by what it
commits.

* `Once P`: a program commits at most once, and then all of some changes in `P`. The ghost state
  says whether it has.
* `Beside`: a program keeps this from here on, in whatever tables it finds at each operation. The
  section has its rules.
* `Within`: what the others do to the tables between two operations is known. The section has the
  rules for a program that reads outside of its transaction and writes in it.
-/

namespace Sentinel.Database

open Program

/-- Nothing is committed, or changes in `P` are, by a program that has committed nothing before. -/
def Once (P : List Write → Prop) (committed : Bool) (st : Store) (committed' : Bool) (st' : Store) :
    Prop :=
  ∃ ws, st.Extends ws st' ∧
    (ws = [] ∧ committed' = committed ∨ committed = false ∧ P ws ∧ committed' = true)

theorem once_nothing {P : List Write → Prop} {committed : Bool} {st : Store} {seq : Seq}
    (h : st.seq.Le seq) : Once P committed st committed { st with seq := seq } :=
  ⟨[], .nothing h, .inl ⟨rfl, rfl⟩⟩

theorem once_refl {P : List Write → Prop} {committed : Bool} (st : Store) :
    Once P committed st committed st :=
  ⟨[], .refl st, .inl ⟨rfl, rfl⟩⟩

section Rules

variable {P : List Write → Prop} {α : Type} {Q : Session → Bool → α → Prop} {committed : Bool}

/-- From here on the program commits at most once, all of some changes in `P`, and ends in `Q`. -/
abbrev Beside (P : List Write → Prop) (Q : Session → Bool → α → Prop) (p : Client α) (s : Session)
    (committed : Bool) : Prop :=
  p.Safe handle (Once P) Q s committed

theorem beside_probe {m : Checker.Monitor} {k : Except String Checker.Result → Client α}
    {s : Session} (h : ∀ r, Beside P Q (k r) s committed) :
    Beside P Q (Client.probe m >>= k) s committed :=
  fun choice st => ⟨committed, once_refl st, h choice.probe⟩

theorem beside_now {k : Time → Client α} {s : Session} (h : ∀ r, Beside P Q (k r) s committed) :
    Beside P Q (Client.now >>= k) s committed :=
  fun choice st => ⟨committed, once_refl st, h choice.moment.now⟩

theorem beside_begin {k : Except DbError Unit → Client α}
    (herr : ∀ e, Beside P Q (k (.error e)) .idle committed)
    (hok : Beside P Q (k (.ok ())) (.open_ []) committed) :
    Beside P Q (Client.begin >>= k) .idle committed := by
  intro choice st
  refine ⟨committed, once_refl st, ?_⟩
  show Beside P Q (k (Session.begin choice .idle).2) (Session.begin choice .idle).1 committed
  rcases Session.begin_cases choice .idle with ⟨e, he⟩ | ⟨-, he⟩
  · rw [he]
    exact herr e
  · rw [he]
    exact hok

/-- A statement in a transaction commits nothing. It fails, finds no row, or is executed on what the
transaction sees of the tables there are. -/
theorem beside_sql {q : Sql} {k : Except DbError q.Out → Client α} {writes : List Write}
    (herr : ∀ e, Beside P Q (k (.error e)) .aborted committed)
    (hnone : ∀ out, q.noRows = some out → Beside P Q (k (.ok out)) (.open_ writes) committed)
    (hok : ∀ moment a db b out more, q.plan moment a db = (b, .ok (out, more)) →
      Beside P Q (k (.ok out)) (.open_ (writes ++ more)) committed) :
    Beside P Q (Client.sql q >>= k) (.open_ writes) committed := by
  intro choice st
  show ∃ committed', Once P committed st committed' ((Session.open_ writes).send choice st q).1 ∧
    Beside P Q (k ((Session.open_ writes).send choice st q).2.2)
      ((Session.open_ writes).send choice st q).2.1 committed'
  have hcases := Session.send_cases choice st (.open_ writes) q
  generalize (Session.open_ writes).send choice st q = r at hcases ⊢
  cases hcases with
  | failed hs => cases hs
  | aborted hs hseq => exact ⟨committed, once_nothing hseq, herr _⟩
  | noRows hq => exact ⟨committed, once_refl st, hnone _ hq⟩
  | committed hs => cases hs
  | buffered hs hplan hreplay =>
      cases hs
      have hseq := q.plan_seq choice.moment st.seq (writes.foldl Write.apply st.db)
      rw [hplan] at hseq
      exact ⟨committed, once_nothing hseq, hok _ _ _ _ _ _ hplan⟩

/-- The one commit. Its reply may be lost. -/
theorem beside_commit {k : Except DbError Unit → Client α} {writes : List Write} (hP : P writes)
    (hrefused : ∀ e, Beside P Q (k (.error e)) .idle false)
    (hdone : ∀ r, Beside P Q (k r) .idle true) :
    Beside P Q (Client.commit >>= k) (.open_ writes) false := by
  intro choice st
  show ∃ committed', Once P false st committed' ((Session.open_ writes).commit choice st).1 ∧
    Beside P Q (k ((Session.open_ writes).commit choice st).2.2)
      ((Session.open_ writes).commit choice st).2.1 committed'
  have hcases := Session.commit_cases choice st (.open_ writes)
  generalize (Session.open_ writes).commit choice st = r at hcases ⊢
  cases hcases with
  | refused => exact ⟨false, once_refl st, hrefused _⟩
  | committed hs hreplay =>
      cases hs
      exact ⟨true, ⟨writes, ⟨rfl, hreplay, Seq.Le.refl _⟩, .inr ⟨rfl, hP, rfl⟩⟩, hdone _⟩

theorem beside_rollback {k : Except DbError Unit → Client α} {s : Session}
    (h : ∀ r, Beside P Q (k r) .idle committed) :
    Beside P Q (Client.rollback >>= k) s committed := by
  intro choice st
  refine ⟨committed, once_refl st, ?_⟩
  show Beside P Q (k (s.rollback choice).2) (s.rollback choice).1 committed
  rw [Session.rollback_fst]
  exact h _

end Rules

/-! ### Among others that are known -/

/-- Why a statement or a commit was refused: the environment made the call fail, or the tables did
not admit it. -/
def Cause (A : Choice → Prop) (e : DbError) (refused : Prop) : Prop :=
  (∃ choice, A choice ∧ choice.fault = .fails e) ∨ refused

/-- A statement with a plan is refused for its changes. -/
theorem Sql.execute_refused {q : Sql} {moment : Moment} {a b c : Seq} {db : Db} {out : q.Out}
    {ws : List Write} {e : DbError} (hplan : q.plan moment a db = (b, .ok (out, ws)))
    (h : q.execute moment a db = (c, .error e)) : replay db ws = .error e := by
  simp only [Sql.execute, hplan] at h
  split at h
  · rename_i hreplay
    cases h
    exact hreplay
  · cases h

theorem Session.perform_open_error {choice : Choice} {st : Store} {q : Sql} {ws : List Write}
    {e : DbError} (h : ((Session.open_ ws).perform choice st q).2.2 = .error e) :
    ∃ seq, q.execute choice.moment st.seq (ws.foldl Write.apply st.db) = (seq, .error e) := by
  rw [Session.perform] at h
  split at h
  · cases h
    exact ⟨_, ‹_›⟩
  · cases h

theorem Session.send_open_error {choice : Choice} {st : Store} {q : Sql} {ws : List Write}
    {e : DbError} (hq : q.noRows = none)
    (h : ((Session.open_ ws).send choice st q).2.2 = .error e) : choice.fault = .fails e ∨
      ∃ seq, q.execute choice.moment st.seq (ws.foldl Write.apply st.db) = (seq, .error e) := by
  unfold Session.send at h
  split at h
  · rename_i e' hfault
    cases h
    exact .inl hfault
  · rw [hq] at h
    exact .inr (Session.perform_open_error h)
  · exact .inr (Session.perform_open_error h)

section Within

variable {A : Op → Choice → Prop} {R : Store → Store → Prop} {γ α : Type}
  {G : γ → Store → γ → Store → Prop} {Q : Store → Session → γ → α → Prop} {st : Store} {g : γ}

/-- Others change the store by `R` between the operations. The program keeps `G` and ends in `Q`. -/
abbrev Within (A : Op → Choice → Prop) (R : Store → Store → Prop)
    (G : γ → Store → γ → Store → Prop) (Q : Store → Session → γ → α → Prop) (p : Client α)
    (st : Store) (s : Session) (g : γ) : Prop :=
  p.Amid handle A R G Q st s g

/-- Only the numbers move on. -/
def Idles (G : γ → Store → γ → Store → Prop) : Prop :=
  ∀ (g : γ) (st : Store) (seq : Seq), G g st g { st with seq := seq }

theorem within_readFile {path : String} {k : Except String String → Client α} {s : Session}
    (hG : Idles G)
    (h : ∀ choice st', A (.readFile path) choice → R st st' →
      Within A R G Q (k choice.file) st' s g) :
    Within A R G Q (Client.readFile path >>= k) st s g :=
  fun choice st' hchoice hR => ⟨g, hG g st' st'.seq, h choice st' hchoice hR⟩

theorem within_begin {k : Except DbError Unit → Client α} (hG : Idles G)
    (herr : ∀ st' e, R st st' → Within A R G Q (k (.error e)) st' .idle g)
    (hok : ∀ st', R st st' → Within A R G Q (k (.ok ())) st' (.open_ []) g) :
    Within A R G Q (Client.begin >>= k) st .idle g := by
  intro choice st' _ hR
  refine ⟨g, hG g st' st'.seq, ?_⟩
  show Within A R G Q (k (Session.begin choice .idle).2) st' (Session.begin choice .idle).1 g
  rcases Session.begin_cases choice .idle with ⟨e, he⟩ | ⟨-, he⟩
  · rw [he]
    exact herr st' e hR
  · rw [he]
    exact hok st' hR

theorem within_rollback {k : Except DbError Unit → Client α} {s : Session} (hG : Idles G)
    (h : ∀ st' r, R st st' → Within A R G Q (k r) st' .idle g) :
    Within A R G Q (Client.rollback >>= k) st s g := by
  intro choice st' _ hR
  refine ⟨g, hG g st' st'.seq, ?_⟩
  show Within A R G Q (k (s.rollback choice).2) st' (s.rollback choice).1 g
  rw [Session.rollback_fst]
  exact h st' _ hR

/-- A statement that only reads, outside of a transaction. -/
theorem within_read {q : Sql} {k : Except DbError q.Out → Client α} (hG : Idles G)
    (hq : q.noRows = none) (hreads : ∀ moment a db b out ws,
      q.plan moment a db = (b, .ok (out, ws)) → ws = [])
    (herr : ∀ st' seq e, R st st' →
      Within A R G Q (k (.error e)) { st' with seq := seq } .idle g)
    (hok : ∀ st' moment seq out, R st st' → q.plan moment st'.seq st'.db = (seq, .ok (out, [])) →
      Within A R G Q (k (.ok out)) { st' with seq := seq } .idle g) :
    Within A R G Q (Client.sql q >>= k) st .idle g := by
  intro choice st' _ hR
  show ∃ g', G g st' g' (Session.idle.send choice st' q).1 ∧
    Within A R G Q (k (Session.idle.send choice st' q).2.2) (Session.idle.send choice st' q).1
      (Session.idle.send choice st' q).2.1 g'
  have hcases := Session.send_cases choice st' .idle q
  generalize Session.idle.send choice st' q = r at hcases ⊢
  cases hcases with
  | failed => exact ⟨g, hG _ _ _, herr st' _ _ hR⟩
  | aborted hs => exact absurd rfl hs
  | noRows hq' => exact absurd (hq.symm.trans hq') (Option.some_ne_none _).symm
  | committed hs hplan hreplay hr =>
      obtain rfl := hreads _ _ _ _ _ _ hplan
      cases hreplay
      rw [Store.commit, List.append_nil]
      refine ⟨g, hG _ _ _, ?_⟩
      rcases hr with rfl | ⟨e, -, rfl⟩
      · exact hok st' _ _ _ hR hplan
      · exact herr st' _ e hR
  | buffered hs => cases hs

/-- A statement in a transaction, on what it sees of the tables there are. -/
theorem within_sql {q : Sql} {k : Except DbError q.Out → Client α} {ws : List Write} (hG : Idles G)
    (hq : q.noRows = none)
    (herr : ∀ st' moment seq e, R st st' →
      Cause (A (.sql q)) e
        (∃ seq, q.execute moment st'.seq (ws.foldl Write.apply st'.db) = (seq, .error e)) →
      Within A R G Q (k (.error e)) { st' with seq := seq } .aborted g)
    (hok : ∀ st' moment seq out more db, R st st' →
      q.plan moment st'.seq (ws.foldl Write.apply st'.db) = (seq, .ok (out, more)) →
      replay (ws.foldl Write.apply st'.db) more = .ok db →
      Within A R G Q (k (.ok out)) { st' with seq := seq } (.open_ (ws ++ more)) g) :
    Within A R G Q (Client.sql q >>= k) st (.open_ ws) g := by
  intro choice st' hchoice hR
  have herror := fun e =>
    @Session.send_open_error choice st' q ws e hq
  show ∃ g', G g st' g' ((Session.open_ ws).send choice st' q).1 ∧
    Within A R G Q (k ((Session.open_ ws).send choice st' q).2.2)
      ((Session.open_ ws).send choice st' q).1 ((Session.open_ ws).send choice st' q).2.1 g'
  have hcases := Session.send_cases choice st' (.open_ ws) q
  generalize (Session.open_ ws).send choice st' q = r at hcases herror ⊢
  cases hcases with
  | failed hs => cases hs
  | aborted =>
      refine ⟨g, hG _ _ _, herr st' choice.moment _ _ hR ?_⟩
      exact (herror _ rfl).imp (fun h => ⟨choice, hchoice, h⟩) id
  | noRows hq' => exact absurd (hq.symm.trans hq') (Option.some_ne_none _).symm
  | committed hs => cases hs
  | buffered hs hplan hreplay =>
      cases hs
      exact ⟨g, hG _ _ _, hok st' _ _ _ _ _ hR hplan hreplay⟩

/-- The commit. Where it is done, its reply may be lost. -/
theorem within_commit {k : Except DbError Unit → Client α} {ws : List Write} (hG : Idles G)
    (herr : ∀ st' e, R st st' → Cause (A .commit) e (replay st'.db ws = .error e) →
      Within A R G Q (k (.error e)) st' .idle g)
    (hdone : ∀ st' db r, R st st' → replay st'.db ws = .ok db →
      (r = .ok () ∨ ∃ e choice, A .commit choice ∧ choice.fault = .lostReply e ∧ r = .error e) →
      ∃ g', G g st' g' (st'.commit db ws) ∧ Within A R G Q (k r) (st'.commit db ws) .idle g') :
    Within A R G Q (Client.commit >>= k) st (.open_ ws) g := by
  intro choice st' hchoice hR
  show ∃ g', G g st' g' ((Session.open_ ws).commit choice st').1 ∧
    Within A R G Q (k ((Session.open_ ws).commit choice st').2.2)
      ((Session.open_ ws).commit choice st').1 ((Session.open_ ws).commit choice st').2.1 g'
  have hcases := Session.commit_cases choice st' (.open_ ws)
  generalize (Session.open_ ws).commit choice st' = r at hcases ⊢
  cases hcases with
  | refused hcause =>
      refine ⟨g, hG g st' st'.seq, herr st' _ hR ?_⟩
      exact (hcause ws rfl).imp (fun h => ⟨choice, hchoice, h⟩) id
  | committed hs hreplay hr =>
      cases hs
      refine hdone st' _ _ hR hreplay (hr.imp id fun h => ?_)
      obtain ⟨e, hfault, he⟩ := h
      exact ⟨e, choice, hchoice, hfault, he⟩

end Within

end Sentinel.Database
