import Mathlib.Data.List.Nodup
import Sentinel.Api.PublicStatus
import Sentinel.Library.Transition
import Sentinel.System.Operations

/-!
# System — Publication

Which monitors are public over a whole run of the system. `is_public` is set by the status seed
alone; every other operation leaves it or clears it, or creates monitors that are not public.

* `Attempt`: an operation with what the environment does during it. Any of its calls may fail, and
  any reply may be lost.
* `publication_run`: after a status seed that took effect, the public monitors belong to the account
  of the last one and have a key of its manifest.
-/

namespace Sentinel.System

open Program Database Api Worker Transition

/-! ### Changes -/

/-- A change that makes no monitor public. -/
def Private : Write → Prop
  | .insertMonitor m => m.isPublic = false
  | .setSeeded _ values => values.isPublic = false
  | _ => True

/-- After such a change, a public monitor was public, of the same owner and with the same key. -/
theorem Private.mem_public {w : Write} (hw : Private w) {db : Db} {m : Monitor}
    (hm : m ∈ (w.apply db).monitors) (hpublic : m.isPublic = true) :
    ∃ old ∈ db.monitors, old.isPublic = true ∧ old.userId = m.userId ∧
      old.seedKey = m.seedKey := by
  cases w with
  | insertMonitor row =>
      rcases List.mem_append.mp hm with hm | hm
      · exact ⟨m, hm, hpublic, rfl, rfl⟩
      · rw [List.mem_singleton.mp hm, hw] at hpublic
        cases hpublic
  | setSeeded id values =>
      rcases Db.mem_onMonitor hm with ⟨hm, -⟩ | ⟨old, hold, -, rfl⟩
      · exact ⟨m, hm, hpublic, rfl, rfl⟩
      · exact absurd (hw.symm.trans hpublic) Bool.false_ne_true
  | hide id =>
      rcases Db.mem_onMonitor hm with ⟨hm, -⟩ | ⟨old, hold, -, rfl⟩
      · exact ⟨m, hm, hpublic, rfl, rfl⟩
      · cases hpublic
  | setChecked | setFields =>
      rcases Db.mem_onMonitor hm with ⟨hm, -⟩ | ⟨old, hold, -, rfl⟩
      · exact ⟨m, hm, hpublic, rfl, rfl⟩
      · exact ⟨old, hold, hpublic, rfl, rfl⟩
  | deleteMonitor id => exact ⟨m, (List.mem_filter.mp hm).1, hpublic, rfl, rfl⟩
  | insertUser | setDemoUser | insertCheckResult | deleteCheckResult | insertAlert
  | deleteAlert => exact ⟨m, hm, hpublic, rfl, rfl⟩

theorem Private.published {w : Write} (hw : Private w) {owner : Option Int}
    {keys : List String} {db : Db} (h : Published owner keys db) :
    Published owner keys (w.apply db) := by
  intro m hm hpublic
  obtain ⟨old, hold, hpublic, huser, hkey⟩ := hw.mem_public hm hpublic
  rw [← huser, ← hkey]
  exact h old hold hpublic

/-- An operation that publishes nothing: it is no upsert of a public monitor. -/
def Unpublishing (o : Op) : Prop :=
  ∀ userId seedKey values createdAt,
    o = .sql (.upsertMonitor userId seedKey values createdAt) → values.isPublic = false

theorem Unpublishing.writes {o : Op} (ho : Unpublishing o) : o.Writes Private := by
  refine Op.writes_of_makes fun q hq w hw => ?_
  subst hq
  cases hw with
  | updateSeeded => exact ho _ _ _ _ rfl
  | createSeeded => exact ho _ _ _ _ rfl
  | insertDemoMonitor _ hpublic => exact hpublic
  | createMonitor => rfl
  | insertCheckResult | updateChecked | insertAlert | deleteOwnedCheckResults | deleteOwnedAlerts
  | deleteOwnedMonitors | deleteExpiredCheckResult | deleteExpiredAlert | updateMonitor
  | deleteCheckResults | deleteAlerts | deleteMonitor | createUser | updateDemoUser
  | createDemoUser | hide => trivial

/-! ### Runs -/

/-- Whether an operation is the status seed. -/
def Operation.isStatusSeed : Operation → Bool
  | .statusSeed _ _ => true
  | _ => false

/-- An operation, with what the environment does during it. -/
structure Attempt where
  operation : Operation
  choices : Nat → Choice

/-- What a status seed was told to publish. -/
structure Publication where
  owner : Option Int
  keys : List String
deriving DecidableEq, Repr

/-- The store, and what the last status seed that took effect was told. -/
structure Site where
  store : Store
  publication : Option Publication

/-- What an operation was told to publish, if it is a status seed that took effect: it succeeded, or
it was committed and threw as the reply was lost, so the tables have changed. -/
def Operation.published (o : Operation) (st : Store) (r : Store × Bool) : Option Publication :=
  match o with
  | .statusSeed rt manifest =>
      if r.2 = true ∨ r.1.db ≠ st.db then
        some ⟨statusAccount rt r.1.db, statusKeys manifest⟩
      else none
  | _ => none

/-- One operation after the other. -/
def Site.step (s : Site) (a : Attempt) : Option Site :=
  some ⟨(a.operation.run a.choices s.store).1,
    (a.operation.published s.store (a.operation.run a.choices s.store)).or s.publication⟩

theorem Operation.unpublishing {o : Operation} (ho : o.isStatusSeed = false) :
    o.program.Only Unpublishing := by
  cases o with
  | writer w =>
      refine w.program_sends.mono ?_
      rintro o ho userId seedKey values createdAt rfl
      rcases ho with h | h | h <;> cases h
  | check registered m thresholds =>
      rw [Operation.program]
      refine Prog.only_bind (fun _ => Prog.only_ret)
        ((checkAndPersist_sends registered m thresholds).mono ?_)
      rintro o ho userId seedKey values createdAt rfl
      cases ho
  | statusSeed rt manifest => cases ho
  | demoSeed rt manifest =>
      rw [Operation.program]
      refine Prog.only_bind (fun _ => Prog.only_ret) (DemoSeed.seed_only ?_ ?_ ?_ ?_)
      · rintro userId seedKey values createdAt heq
        cases heq
      · rintro password userId seedKey values createdAt heq
        cases heq
      · rintro data userId seedKey values createdAt heq
        cases heq
      · rintro userId seedKey values now - hpublic userId' seedKey' values' createdAt heq
        cases heq
        exact hpublic

/-- **The status seed alone publishes.** -/
theorem Operation.run_published {o : Operation} {owner : Option Int} {keys : List String}
    (ho : o.isStatusSeed = false) (choices : Nat → Choice) {st : Store}
    (h : Published owner keys st.db) : Published owner keys (o.run choices st).1.db := by
  refine Operation.run_keeps (I := fun _ db => Published owner keys db) (fun _ _ _ h _ => h)
    ((Operation.unpublishing ho).mono fun o ho => ?_) choices h
  exact ho.writes.keeps fun w hw db _ => hw.published

/-- A status seed that succeeds, or changes the tables, publishes what it was told. -/
theorem Operation.run_statusSeed (rt : Runtime) (manifest : Json) (choices : Nat → Choice)
    (st : Store) :
    let r := (Operation.statusSeed rt manifest).run choices st
    r.2 = true ∨ r.1.db ≠ st.db →
      Published (statusAccount rt r.1.db) (statusKeys manifest) r.1.db := by
  have hend : Alone (fun _ => True) (fun x _ b => b = true ∨ x.1.db ≠ st.db →
      Published (statusAccount rt x.1.db) (statusKeys manifest) x.1.db)
      (Operation.statusSeed rt manifest).program st [] .idle := by
    rw [Operation.program]
    refine Prog.post_bind.mpr (Prog.Post.mono ?_ (StatusSeed.seed_alone rt manifest st []))
    intro x s r h
    cases r with
    | error e =>
        rintro (hok | hchanged)
        · cases hok
        · exact ((h.thrown e rfl).resolve_left hchanged).2
    | ok n => exact fun _ => h.published n rfl
  exact hend.run fun _ => trivial

/-- The keys of the tables are in order, and what is public is what was to be published last. -/
structure Site.Inv (s : Site) : Prop where
  keyed : Keyed s.store.seq s.store.db
  published : ∀ p, s.publication = some p → Published p.owner p.keys s.store.db

theorem Site.Inv.step {s s' : Site} {a : Attempt} (h : s.Inv) (hs : s.step a = some s') :
    s'.Inv := by
  cases hs
  refine ⟨a.operation.run_keyed a.choices h.keyed, ?_⟩
  intro p hp
  obtain ⟨o, choices⟩ := a
  cases hseed : o.isStatusSeed with
  | false =>
      have hnone : o.published s.store (o.run choices s.store) = none := by
        cases o <;> first | rfl | cases hseed
      rw [hnone] at hp
      exact Operation.run_published hseed choices (h.published p hp)
  | true =>
      cases o with
      | statusSeed rt manifest =>
          have hdone := Operation.run_statusSeed rt manifest choices s.store
          simp only [Operation.published] at hp
          split at hp
          · -- the seed replaces the publication
            cases hp
            exact hdone ‹_›
          · -- it has left the tables and the publication as they were
            have hunchanged :
                ((Operation.statusSeed rt manifest).run choices s.store).1.db = s.store.db := by
              by_contra hchanged
              exact ‹¬ _› (Or.inr hchanged)
            show Published p.owner p.keys
              ((Operation.statusSeed rt manifest).run choices s.store).1.db
            rw [hunchanged]
            exact h.published p hp
      | writer | check | demoSeed => cases hseed

/-- **Publication follows the last seed.** In every run from every state with its keys in order,
whatever fails in it, after a status seed that took effect: a public monitor belongs to the account
of the last one, and its key is in the manifest of that seed; and the public status query lists only
such monitors, and none of a demo account. -/
theorem publication_run (st : Store) (attempts : List Attempt) (s : Site) (p : Publication)
    (hst : Keyed st.seq st.db) (hrun : Run Site.step ⟨st, none⟩ attempts s)
    (hp : s.publication = some p) :
    (∀ m ∈ s.store.db.monitors, m.isPublic = true →
      p.owner = some m.userId ∧ ∃ key ∈ p.keys, m.seedKey = some key) ∧
    ∀ collation hours now, ∀ row ∈ queryPublicStatus collation hours now s.store.db,
      ∃ m ∈ s.store.db.monitors, row = publicStatusRow s.store.db hours now m ∧
        m.isPublic = true ∧ (p.owner = some m.userId ∧ ∃ key ∈ p.keys, m.seedKey = some key) ∧
        ∀ u ∈ s.store.db.users, u.id = m.userId → u.isDemo = false := by
  have hinv : s.Inv := hrun.invariant (fun _ _ _ => Site.Inv.step)
    ⟨hst, fun p hp => (nomatch hp)⟩
  refine ⟨hinv.published p hp, fun collation hours now row hrow => ?_⟩
  obtain ⟨m, hm, rfl⟩ := List.mem_map.mp hrow
  obtain ⟨hm, -, hpublic, u, hu, hid, hdemo⟩ := mem_publicMonitors.mp hm
  refine ⟨m, hm, rfl, hpublic, hinv.published p hp m hm hpublic, fun v hv hvid => ?_⟩
  have huv : v = u := List.inj_on_of_nodup_map hinv.keyed.users hv hu (hvid.trans hid.symm)
  rw [huv]
  exact hdemo

/-- A seed, and then a seed of the demo account that fails at once. -/
def seeding : List Attempt :=
  [⟨.statusSeed statusRuntime statusManifest, fun _ => Choice.calm 0 (.error "")⟩,
    ⟨.demoSeed statusRuntime ⟨"demo@example.com", "", .null⟩, fun _ => Choice.calm 0 (.error "")⟩]

theorem publication_run_seeding : ∃ s, Run Site.step ⟨⟨.empty, .first, []⟩, none⟩ seeding s ∧
    s.publication = some ⟨some 1, ["site"]⟩ ∧ s.store.db.monitors.map (·.isPublic) = [true] ∧
      ∀ m ∈ s.store.db.monitors, m.isPublic = true →
        some 1 = some m.userId ∧ ∃ key ∈ ["site"], m.seedKey = some key := by
  have hrun : Run Site.step ⟨⟨.empty, .first, []⟩, none⟩ seeding _ := run_of_exec rfl
  refine ⟨_, hrun, rfl, rfl, ?_⟩
  exact (publication_run ⟨.empty, .first, []⟩ seeding _ ⟨some 1, ["site"]⟩
    ⟨List.nodup_nil, fun u hu => (nomatch hu), List.nodup_nil, fun m hm => (nomatch hm),
      fun m hm => (nomatch hm)⟩ hrun rfl).1

end Sentinel.System
