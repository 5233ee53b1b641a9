import Mathlib.Data.List.Infix
import Sentinel.Database.Ledger

/-!
# Database — Identity

What identifies an account: its id, its email, its username, and whether it is active.

* No change takes an account away or changes what identifies it, so the identities of the tables
  are only ever appended to, by whichever connection (`Store.Enrols`).
* The unique indexes keep the emails apart, and the usernames (`Distinct`).
* An account that is found by its email or by its username is found from then on
  (`find_of_identity`).
-/

namespace Sentinel.Database

structure Identity where
  id : Int
  email : String
  username : String
  isActive : Bool
deriving DecidableEq, Repr

def User.identity (u : User) : Identity := ⟨u.id, u.email, u.username, u.isActive⟩

def Db.identities (db : Db) : List Identity := db.users.map User.identity

/-- The identity of an account that a change inserts. -/
def Write.identity : Write → Option Identity
  | .insertUser u => some u.identity
  | _ => none

/-- **A change leaves the accounts that are there**, and may append one. -/
theorem Write.identities_apply (w : Write) (db : Db) :
    (w.apply db).identities = db.identities ++ w.identity.toList := by
  cases w with
  | insertUser u => simp [Write.apply, Db.identities, Write.identity]
  | setDemoUser id password =>
      simp only [Write.apply, Db.identities, Write.identity, List.map_map, Option.toList_none,
        List.append_nil]
      refine List.map_congr_left fun u _ => ?_
      show User.identity (if u.id = id then _ else u) = u.identity
      split <;> rfl
  | insertMonitor | setChecked | setFields | setSeeded | hide | deleteMonitor | insertCheckResult
  | deleteCheckResult | insertAlert | deleteAlert =>
      exact (List.append_nil _).symm

theorem identities_foldl (ws : List Write) (db : Db) :
    (ws.foldl Write.apply db).identities = db.identities ++ ws.filterMap Write.identity := by
  induction ws generalizing db with
  | nil => simp
  | cons w ws ih =>
      rw [List.foldl_cons, ih, w.identities_apply, List.append_assoc]
      cases hw : w.identity <;> simp [hw]

/-! ### Unique indexes -/

/-- The unique indexes on the accounts. -/
structure Distinct (identities : List Identity) : Prop where
  emails : (identities.map (·.email)).Nodup
  usernames : (identities.map (·.username)).Nodup

theorem Distinct.eq_of_email {identities : List Identity} (h : Distinct identities)
    {a b : Identity} (ha : a ∈ identities) (hb : b ∈ identities) (hab : a.email = b.email) :
    a = b :=
  List.inj_on_of_nodup_map h.emails ha hb hab

theorem Distinct.eq_of_username {identities : List Identity} (h : Distinct identities)
    {a b : Identity} (ha : a ∈ identities) (hb : b ∈ identities)
    (hab : a.username = b.username) : a = b :=
  List.inj_on_of_nodup_map h.usernames ha hb hab

/-- The new account of an admitted change shares neither with one that is there. -/
theorem insertUser_admitted {db : Db} {u : User}
    (hadmits : (Write.insertUser u).violates db = none) :
    ∀ a ∈ db.identities, a.email ≠ u.email ∧ a.username ≠ u.username := by
  have hunique := firstViolation_eq_none.mp hadmits
    (!db.users.any fun v => v.email = u.email || v.username = u.username, uniqueViolation)
    (by simp)
  rw [Bool.not_eq_true', List.any_eq_false] at hunique
  intro a ha
  obtain ⟨v, hv, rfl⟩ := List.mem_map.mp ha
  show v.email ≠ u.email ∧ v.username ≠ u.username
  simpa using hunique v hv

/-- **Every admitted change keeps the indexes.** -/
theorem Distinct.apply {db : Db} {w : Write} (h : Distinct db.identities)
    (hadmits : w.violates db = none) : Distinct (w.apply db).identities := by
  rw [w.identities_apply]
  cases w with
  | insertUser u =>
      have hnew := insertUser_admitted hadmits
      have hone : ∀ {κ : Type} (key : Identity → κ), (db.identities.map key).Nodup →
          (∀ a ∈ db.identities, key a ≠ key u.identity) →
            ((db.identities ++ [u.identity]).map key).Nodup := by
        intro κ key hnodup hne
        rw [List.map_append, List.nodup_append]
        refine ⟨hnodup, List.pairwise_singleton _ _, fun x hx y hy => ?_⟩
        obtain ⟨a, ha, rfl⟩ := List.mem_map.mp hx
        rw [List.mem_singleton.mp hy]
        exact hne a ha
      exact ⟨hone _ h.emails fun a ha => (hnew a ha).1,
        hone _ h.usernames fun a ha => (hnew a ha).2⟩
  | _ => simpa [Write.identity] using h

theorem Distinct.replay {ws : List Write} {db db' : Db} (h : Distinct db.identities)
    (hreplay : replay db ws = .ok db') : Distinct db'.identities :=
  replay_invariant (P := fun db => Distinct db.identities) (fun _ _ _ hadmits h => h.apply hadmits)
    h hreplay

/-! ### Stores -/

/-- Accounts are appended, and the sequences advance. -/
structure Store.Enrols (st st' : Store) : Prop where
  identities : st.db.identities <+: st'.db.identities
  seq : st.seq.Le st'.seq

theorem Store.Enrols.refl (st : Store) : st.Enrols st := ⟨List.prefix_refl _, Seq.Le.refl _⟩

theorem Store.Enrols.trans {st st' st'' : Store} (h : st.Enrols st') (h' : st'.Enrols st'') :
    st.Enrols st'' :=
  ⟨h.identities.trans h'.identities, h.seq.trans h'.seq⟩

theorem Store.Extends.enrols {st st' : Store} {ws : List Write} (h : st.Extends ws st') :
    st.Enrols st' := by
  refine ⟨?_, h.seq⟩
  rw [replay_eq_foldl h.replayed, identities_foldl]
  exact List.prefix_append _ _

/-- **Whatever a connection does, accounts are only appended.** -/
theorem handle_enrols (choice : Choice) (st : Store) (s : Session) (o : Op) :
    st.Enrols (handle choice st s o).1 := by
  obtain ⟨ws, more, hext, -, -⟩ := handle_moves choice st s o
  exact hext.enrols

/-- Whatever a connection does, the indexes hold. -/
theorem handle_distinct (choice : Choice) (st : Store) (s : Session) (o : Op)
    (h : Distinct st.db.identities) : Distinct (handle choice st s o).1.db.identities := by
  obtain ⟨ws, more, hext, -, -⟩ := handle_moves choice st s o
  exact h.replay hext.replayed

/-! ### Looking for an account -/

/-- The account that is found by a key which no two accounts share. -/
theorem find_of_identity {κ : Type} [DecidableEq κ] {key : Identity → κ} {db : Db} {a : Identity}
    (hnodup : (db.identities.map key).Nodup) (ha : a ∈ db.identities) :
    ∃ u ∈ db.users, db.users.find? (fun u => key u.identity = key a) = some u ∧
      u.identity = a := by
  obtain ⟨v, hv, rfl⟩ := List.mem_map.mp ha
  cases hfind : db.users.find? (fun u => key u.identity = key v.identity) with
  | none => exact absurd (decide_eq_true rfl) (List.find?_eq_none.mp hfind v hv)
  | some u =>
      have hu := List.mem_of_find?_eq_some hfind
      have hkey : key u.identity = key v.identity := by simpa using List.find?_some hfind
      exact ⟨u, hu, rfl, List.inj_on_of_nodup_map hnodup (List.mem_map_of_mem hu) ha hkey⟩

theorem Distinct.find_email {db : Db} (h : Distinct db.identities) {a : Identity}
    (ha : a ∈ db.identities) :
    ∃ u ∈ db.users, db.users.find? (·.email = a.email) = some u ∧ u.identity = a :=
  find_of_identity h.emails ha

end Sentinel.Database
