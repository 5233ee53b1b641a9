import Mathlib.Data.List.Nodup
import Sentinel.Library.Transition
import Sentinel.System.Operations

/-!
# System — Streak

Whether `last_state` and `consecutive_failures` of a monitor agree, over all that writes to it:
a monitor is down iff it has failed as often in a row as the threshold says.

The worker sets both columns, and the requests and the reset of the demo account only create
monitors that have neither. The seeds clear `consecutive_failures` of a monitor that is there and
leave its `last_state`, so it no longer agrees if it was down.

* `Steady`: a change that leaves every monitor in agreement.
* `Seeding`: what holds while a seed runs that is to change no monitor that is down.
* `streak_run`: the two columns agree in every run without a seed of a monitor that is down;
  `seeded_outage` is a run with one.
-/

namespace Sentinel.System

open Program Database Api Worker Transition

/-! ### State and counter -/

/-- The state and the counter agree on whether a monitor is down. -/
def Streak (t : Int) (state : Option String) (failures : Int) : Prop :=
  state = some "unhealthy" ↔ t ≤ failures

theorem streak_unchecked {t : Int} (ht : 1 ≤ t) : Streak t none 0 :=
  ⟨fun h => (nomatch h), fun h => absurd (Int.le_trans ht h) (by decide)⟩

/-- From columns that agree, a check computes columns that agree. -/
theorem evaluateFSM_streak {t : Int} (ht : 1 ≤ t) {state : Option String} {failures : Int}
    (h : Streak t state failures) (probe : String) :
    Streak t (evaluateFSM state failures probe t).state
      (evaluateFSM state failures probe t).consecutiveFailures := by
  by_cases hp : probe = "healthy"
  · subst hp
    rw [evaluateFSM_healthy]
    exact ⟨fun h => absurd (Option.some.inj h) (by decide),
      fun h => absurd (Int.le_trans ht h : (1 : Int) ≤ 0) (by decide)⟩
  · by_cases hdown : state = some "unhealthy"
    · have hfailed : t ≤ max failures 0 + 1 := by
        have := h.mp hdown
        omega
      subst hdown
      rw [evaluateFSM_still_down hp]
      exact ⟨fun _ => hfailed, fun _ => rfl⟩
    · rw [evaluateFSM_failed hp hdown _ ht]
      split
      · exact ⟨fun _ => ‹_›, fun _ => rfl⟩
      · exact ⟨fun h => absurd h hdown, fun h => absurd h ‹_›⟩

/-- A change that leaves every monitor in agreement, whatever it was. -/
def Steady (t : Int) : Write → Prop
  | .insertMonitor m => Streak t m.lastState m.consecutiveFailures
  | .setChecked _ state _ failures => Streak t state failures
  | .setSeeded _ _ => False
  | _ => True

theorem Steady.streak {t : Int} {w : Write} (hw : Steady t w) {db : Db}
    (h : ∀ m ∈ db.monitors, Streak t m.lastState m.consecutiveFailures) :
    ∀ m ∈ (w.apply db).monitors, Streak t m.lastState m.consecutiveFailures := by
  intro m hm
  cases w with
  | insertMonitor row =>
      rcases List.mem_append.mp hm with hm | hm
      · exact h m hm
      · rw [List.mem_singleton.mp hm]
        exact hw
  | setChecked id state checkedAt failures =>
      rcases Db.mem_onMonitor hm with ⟨hm, -⟩ | ⟨old, hold, -, rfl⟩
      · exact h m hm
      · exact hw
  | setFields | hide =>
      rcases Db.mem_onMonitor hm with ⟨hm, -⟩ | ⟨old, hold, -, rfl⟩
      · exact h m hm
      · exact h old hold
  | setSeeded => cases hw
  | deleteMonitor id => exact h m (List.mem_filter.mp hm).1
  | insertUser | setDemoUser | insertCheckResult | deleteCheckResult | insertAlert
  | deleteAlert => exact h m hm

/-- The keys are in order, and the columns of every monitor agree. -/
structure Sound (t : Int) (seq : Seq) (db : Db) : Prop where
  keyed : Keyed seq db
  streak : ∀ m ∈ db.monitors, Streak t m.lastState m.consecutiveFailures

theorem Sound.mono {t : Int} {a b : Seq} {db : Db} (h : Sound t a db) (hle : a.Le b) :
    Sound t b db :=
  ⟨h.keyed.mono hle, h.streak⟩

theorem keeps_sound {t : Int} {o : Op} (ho : o.Writes (Steady t)) : o.Keeps (Sound t) := by
  intro q hq moment a db b out ws db' hplan hreplay h
  refine ⟨keeps_keyed o q hq moment a db b out ws db' hplan hreplay h.keyed, ?_⟩
  subst hq
  exact replay_invariant (P := fun db => ∀ m ∈ db.monitors, Streak t m.lastState
    m.consecutiveFailures) (fun w hw db _ => (ho _ _ _ (.sql hplan) w hw).streak) h.streak hreplay

/-! ### Checks, requests, resets and retention -/

/-- Quiet changes are steady: a monitor that was never checked has no state and no failures. -/
theorem steady_of_quiet {t : Int} (ht : 1 ≤ t) {w : Write} (hw : Quiet w) : Steady t w := by
  cases w with
  | insertMonitor m =>
      show Streak t m.lastState m.consecutiveFailures
      rw [hw.1, hw.2]
      exact streak_unchecked ht
  | setChecked | setSeeded => cases hw
  | insertUser | setDemoUser | setFields | hide | deleteMonitor | insertCheckResult
  | deleteCheckResult | insertAlert | deleteAlert => trivial

theorem steady_of_checkSends {t : Int} (ht : 1 ≤ t) {m : Checker.Monitor} {thresholds : List Int}
    (hthreshold : threshold thresholds = t) (hm : Streak t m.lastState m.consecutiveFailures)
    {o : Op} (ho : CheckSends m thresholds o) : o.Writes (Steady t) := by
  refine Op.writes_of_makes fun q hq w hw => ?_
  subst hq
  cases ho with
  | update state now =>
      cases hw
      rw [hthreshold]
      exact evaluateFSM_streak ht hm state
  | insertCheckResult | insertAlert =>
      cases hw
      trivial

/-! ### Seeds -/

/-- No monitor of the accounts `A` with one of the keys is down. -/
def NoneDown (A : Int → Prop) (keys : List String) (db : Db) : Prop :=
  ∀ m ∈ db.monitors, A m.userId → (∃ key ∈ keys, m.seedKey = some key) →
    m.lastState ≠ some "unhealthy"

/-- While a seed upserts monitors of the accounts `A`, those it may find or create. -/
structure Seeding (t : Int) (A : Int → Prop) (usable : User → Prop) (keys : List String)
    (seq : Seq) (db : Db) : Prop extends Sound t seq db where
  noneDown : NoneDown A keys db
  accounts : ∀ u ∈ db.users, usable u → A u.id
  fresh : ∀ id, seq.users ≤ id → A id

section Seeding

variable {t : Int} {A : Int → Prop} {usable : User → Prop} {keys : List String}

theorem Seeding.mono {a b : Seq} {db : Db} (h : Seeding t A usable keys a db) (hle : a.Le b) :
    Seeding t A usable keys b db :=
  { h.toSound.mono hle with
    noneDown := h.noneDown
    accounts := h.accounts
    fresh := fun id hid => h.fresh id (Int.le_trans hle.users hid) }

theorem seeding_findUniqueUser {email : String} :
    (Op.sql (.findUniqueUser email)).Keeps (Seeding t A usable keys) := by
  refine Op.keeps_sql fun moment a db b out ws db' hplan hreplay h => ?_
  cases hplan
  cases hreplay
  exact h

/-- A new account may be the seed's. -/
theorem Seeding.insertUser {a b : Seq} {db : Db} {row : User}
    (h : Seeding t A usable keys a db) (hid : row.id = a.users) (hnext : b.users = a.users + 1)
    (hle : a.Le b) : Seeding t A usable keys b ((Write.insertUser row).apply db) where
  keyed := h.keyed.insertUser hid hnext hle
  streak := h.streak
  noneDown := h.noneDown
  accounts u hu husable := by
    rcases List.mem_append.mp hu with hu | hu
    · exact h.accounts u hu husable
    · rw [List.mem_singleton.mp hu, hid]
      exact h.fresh _ (Int.le_refl _)
  fresh id hid := h.fresh id (Int.le_trans hle.users hid)

theorem seeding_createUser {data : NewUser} :
    (Op.sql (.createUser data)).Keeps (Seeding t A usable keys) := by
  refine Op.keeps_sql fun moment a db b out ws db' hplan hreplay h => ?_
  have hle := (Sql.createUser data).plan_seq moment a db
  rw [hplan] at hle
  cases hplan
  cases (replay_cons.mp hreplay).2
  exact h.insertUser rfl rfl hle

theorem seeding_upsertDemoUser {data : NewUser}
    (husable : ∀ u : User, ∀ password,
      usable { u with password := password, isDemo := true } → usable u) :
    (Op.sql (.upsertDemoUser data)).Keeps (Seeding t A usable keys) := by
  refine Op.keeps_sql fun moment a db b out ws db' hplan hreplay h => ?_
  have hle := (Sql.upsertDemoUser data).plan_seq moment a db
  rw [hplan] at hle
  simp only [Sql.plan] at hplan
  split at hplan
  · cases hplan
    cases (replay_cons.mp hreplay).2
    refine ⟨⟨h.keyed.apply rfl rfl, h.streak⟩, h.noneDown, fun u hu hu' => ?_, h.fresh⟩
    obtain ⟨old, hold, rfl⟩ := List.mem_map.mp hu
    split at hu'
    · rw [if_pos ‹_›]
      exact h.accounts old hold (husable old _ hu')
    · rw [if_neg ‹_›]
      exact h.accounts old hold hu'
  · cases hplan
    cases (replay_cons.mp hreplay).2
    exact h.insertUser rfl rfl hle

/-- An upsert with the counter at zero, of a monitor that is not down. -/
theorem seeding_upsertMonitor (ht : 1 ≤ t) {userId : Int} {seedKey : String} {values : SeedValues}
    {createdAt : Time} (huser : A userId) (hkey : seedKey ∈ keys)
    (hvalues : values.consecutiveFailures = 0) :
    (Op.sql (.upsertMonitor userId seedKey values createdAt)).Keeps
      (Seeding t A usable keys) := by
  refine Op.keeps_sql_keyed (·.keyed) fun moment a db b out ws db' hplan hreplay h hkeyed => ?_
  have hle := (Sql.upsertMonitor userId seedKey values createdAt).plan_seq moment a db
  rw [hplan] at hle
  simp only [Sql.plan] at hplan
  split at hplan
  · rename_i found hfind
    cases hplan
    cases (replay_cons.mp hreplay).2
    have hmem := List.mem_of_find?_eq_some hfind
    have hfound := List.find?_some hfind
    simp only [Bool.and_eq_true, decide_eq_true_eq] at hfound
    refine ⟨⟨hkeyed, fun m hm => ?_⟩, fun m hm => ?_, h.accounts, h.fresh⟩
    · rcases Db.mem_onMonitor hm with ⟨hm, -⟩ | ⟨old, hold, hid, rfl⟩
      · exact h.streak m hm
      · -- by its key, the monitor that changes is the one that was found
        obtain rfl := List.inj_on_of_nodup_map h.keyed.monitors hold hmem hid
        have hup := h.noneDown old hold (hfound.1 ▸ huser) ⟨seedKey, hkey, hfound.2⟩
        show Streak t old.lastState values.consecutiveFailures
        rw [hvalues]
        exact ⟨fun h => absurd h hup, fun h => absurd (Int.le_trans ht h) (by decide)⟩
    · rcases Db.mem_onMonitor hm with ⟨hm, -⟩ | ⟨old, hold, hid, rfl⟩
      · exact h.noneDown m hm
      · exact h.noneDown old hold
  · cases hplan
    cases (replay_cons.mp hreplay).2
    refine ⟨⟨hkeyed, fun m hm => ?_⟩, fun m hm => ?_, h.accounts, h.fresh⟩
    · rcases List.mem_append.mp hm with hm | hm
      · exact h.streak m hm
      · rw [List.mem_singleton.mp hm]
        show Streak t none values.consecutiveFailures
        rw [hvalues]
        exact streak_unchecked ht
    · rcases List.mem_append.mp hm with hm | hm
      · exact h.noneDown m hm
      · rw [List.mem_singleton.mp hm]
        exact fun _ _ h => by cases h

theorem seeding_updateManyHide {rows : Hide} :
    (Op.sql (.updateManyHide rows)).Keeps (Seeding t A usable keys) := by
  refine Op.keeps_sql fun moment a db b out ws db' hplan hreplay h => ?_
  cases hplan
  refine replay_invariant (P := Seeding t A usable keys a) (fun w hw db _ h => ?_) h hreplay
  obtain ⟨id, -, rfl⟩ := List.mem_map.mp hw
  refine ⟨⟨h.keyed.apply rfl rfl, Steady.streak (w := .hide id) trivial h.streak⟩,
    fun m hm => ?_, h.accounts, h.fresh⟩
  rcases Db.mem_onMonitor hm with ⟨hm, -⟩ | ⟨old, hold, -, rfl⟩
  · exact h.noneDown m hm
  · exact h.noneDown old hold

/-! ### The accounts of a seed -/

/-- The account that was found is one of the seed's. -/
theorem Seeding.found {email : String} {out : Option User}
    (h : (Op.sql (.findUniqueUser email)).Answers (Seeding t A usable keys) (.ok out)) {u : User}
    (hu : out = some u) : u.email = email ∧ (usable u → A u.id) := by
  rcases h out rfl with hq | ⟨moment, db, a, b, ws, hdb, hplan⟩
  · cases hq
  · cases hplan
    have hemail := List.find?_some hu
    exact ⟨of_decide_eq_true hemail, hdb.accounts u (List.mem_of_find?_eq_some hu)⟩

theorem Seeding.created {data : NewUser} {id : Int}
    (h : (Op.sql (.createUser data)).Answers (Seeding t A usable keys) (.ok id)) : A id := by
  rcases h id rfl with hq | ⟨moment, db, a, b, ws, hdb, hplan⟩
  · cases hq
  · cases hplan
    exact hdb.fresh _ (Int.le_refl _)

theorem Seeding.upserted {data : NewUser} {id : Int}
    (husable : ∀ u : User, u.email = data.email → usable u)
    (h : (Op.sql (.upsertDemoUser data)).Answers (Seeding t A usable keys) (.ok id)) : A id := by
  rcases h id rfl with hq | ⟨moment, db, a, b, ws, hdb, hplan⟩
  · cases hq
  · simp only [Sql.plan] at hplan
    split at hplan
    · rename_i u hfind
      cases hplan
      have hemail := List.find?_some hfind
      exact hdb.accounts u (List.mem_of_find?_eq_some hfind)
        (husable u (of_decide_eq_true hemail))
    · cases hplan
      exact hdb.fresh _ (Int.le_refl _)

theorem seeding_outside {o : Op} (ho : ∀ q, o ≠ .sql q) : o.Keeps (Seeding t A usable keys) :=
  Op.keeps_of_not_sql ho

/-! ### The programs of the seeds -/

/-- A call of a seed keeps `Seeding`, and gives what it may, as long as the replies are such. -/
abbrev Seeds (t : Int) (A : Int → Prop) (usable : User → Prop) (keys : List String) {α : Type}
    (Q : α → Prop) (p : Client α) : Prop :=
  p.Yields (·.Keeps (Seeding t A usable keys)) (Op.Answers (Seeding t A usable keys)) Q

theorem statusOwner_seeds {email : String} {existing : Option User}
    (h : ∀ u, existing = some u → A u.id) :
    Seeds t A usable keys (fun r => ∀ id, r = .ok id → A id) (statusOwner email existing) := by
  cases existing with
  | some u =>
      intro id hid
      cases hid
      exact h u rfl
  | none =>
      refine ⟨seeding_outside fun q h => (nomatch h), fun createdAt _ => ?_⟩
      refine ⟨seeding_outside fun q h => (nomatch h), fun updatedAt _ => ?_⟩
      refine yields_query seeding_createUser (fun e id hid => (nomatch hid))
        fun out hout id hid => ?_
      cases hid
      exact Seeding.created hout

theorem publish_seeds (ht : 1 ≤ t) {email : String} {existing : Option User}
    {manifest : List StatusMonitor} (h : ∀ u, existing = some u → A u.id) :
    Seeds t A usable (manifest.map (·.seedKey)) (fun _ => True)
      (publish email existing manifest) := by
  refine yields_await (statusOwner_seeds h) (fun _ => trivial) fun ownerId howner => ?_
  refine yields_await (B := fun _ => True) ?_ (fun _ => trivial) fun _ _ => ?_
  · refine (upsertStatusMonitors_only (seeding_outside fun q h => (nomatch h))
      fun m hm now => ?_).yields.mono fun r _ b _ => trivial
    exact seeding_upsertMonitor ht howner (List.mem_map_of_mem hm) rfl
  · exact yields_query seeding_updateManyHide (fun _ => trivial) fun _ _ => trivial

theorem seedOwner_seeds (ht : 1 ≤ t) {email : String} {manifest : List StatusMonitor} :
    Seeds t A (fun u => u.email = email ∧ ownsStatus u = true) (manifest.map (·.seedKey))
      (fun _ => True) (seedOwner email manifest) := by
  refine yields_query seeding_findUniqueUser (fun _ => trivial) fun existing hexisting => ?_
  split
  · trivial
  · rename_i hany
    refine Prog.yields_bind (Prog.Yields.mono (fun _ _ => ?_) (yields_transaction
      (seeding_outside fun q h => (nomatch h)) (seeding_outside fun q h => (nomatch h))
      (seeding_outside fun q h => (nomatch h)) (publish_seeds ht fun u hu => ?_)))
    · trivial
    · obtain ⟨hemail, hA⟩ := Seeding.found hexisting hu
      refine hA ⟨hemail, ?_⟩
      subst hu
      simpa using hany

theorem upsertDemoUser_seeds {email hashedPassword : String} :
    Seeds t A (fun u => u.email = email) keys (fun r => ∀ id, r = .ok id → A id)
      (upsertDemoUser email hashedPassword) := by
  refine ⟨seeding_outside fun q h => (nomatch h), fun createdAt _ => ?_⟩
  refine ⟨seeding_outside fun q h => (nomatch h), fun updatedAt _ => ?_⟩
  refine yields_query (seeding_upsertDemoUser fun u password h => h)
    (fun e id hid => (nomatch hid)) fun out hout id hid => ?_
  cases hid
  exact Seeding.upserted (fun u hu => hu) hout

theorem demoSeed_seeds (ht : 1 ≤ t) {rt : Runtime} {manifest : DemoManifest}
    {monitors : List Json} (h : DemoSeed.accept rt manifest = .ok monitors) :
    Seeds t A (fun u => u.email = demoEmail rt manifest) ((demoUpserts rt monitors).map (·.1))
      (fun _ => True) (DemoSeed.seed rt manifest) := by
  unfold DemoSeed.seed
  rw [h]
  refine yields_await (B := fun _ => True) ?_ (fun _ => trivial) fun hashedPassword _ => ?_
  · exact (hashPassword_only (seeding_outside fun q h => (nomatch h))).yields.mono
      fun r _ b _ => trivial
  · refine yields_await upsertDemoUser_seeds (fun _ => trivial) fun userId huser => ?_
    refine (upsertDemoMonitors_only (seeding_outside fun q h => (nomatch h))
      fun upsert hupsert now => ?_).yields
    exact seeding_upsertMonitor ht huser (List.mem_map_of_mem hupsert)
      (demoUpserts_values upsert hupsert).1

end Seeding

/-! ### Operations -/

/-- No monitor of an account the seed may use, with a key of its manifest, is down. -/
def SparesDown (usable : User → Prop) (keys : List String) (db : Db) : Prop :=
  ∀ u ∈ db.users, usable u → ∀ m ∈ db.monitors, m.userId = u.id →
    (∃ key ∈ keys, m.seedKey = some key) → m.lastState ≠ some "unhealthy"

/-- An operation is no seed that is to upsert a monitor that is there and is down. -/
def Operation.Spares (db : Db) : Operation → Prop
  | .statusSeed rt manifest => ∀ email ms, StatusSeed.accept rt manifest = .ok (some email, ms) →
      SparesDown (fun u => u.email = email ∧ ownsStatus u = true) (ms.map (·.seedKey)) db
  | .demoSeed rt manifest => ∀ monitors, DemoSeed.accept rt manifest = .ok monitors →
      SparesDown (fun u => u.email = demoEmail rt manifest)
        ((demoUpserts rt monitors).map (·.1)) db
  | .writer _ | .check _ _ _ => True

/-- The accounts that a seed may find or create. -/
def Accounts (st : Store) (usable : User → Prop) (id : Int) : Prop :=
  (∃ u ∈ st.db.users, usable u ∧ u.id = id) ∨ st.seq.users ≤ id

theorem Sound.seeding {t : Int} {st : Store} {usable : User → Prop} {keys : List String}
    (h : Sound t st.seq st.db) (hspares : SparesDown usable keys st.db) :
    Seeding t (Accounts st usable) usable keys st.seq st.db where
  toSound := h
  noneDown m hm huser hkey := by
    rcases huser with ⟨u, hu, husable, hid⟩ | hnew
    · exact hspares u hu husable m hm hid.symm hkey
    · -- a monitor that is there belongs to an account that is there
      obtain ⟨u, hu, hid⟩ := h.keyed.owners m hm
      exact absurd (h.keyed.usersBelow u hu) (by rw [hid]; exact Int.not_lt.mpr hnew)
  accounts u hu husable := .inl ⟨u, hu, husable, rfl⟩
  fresh id hid := .inr hid

/-- **Every operation but a seed of a monitor that is down keeps the columns in agreement.** A check
is of a snapshot with columns that agree. -/
theorem Operation.run_sound {t : Int} (ht : 1 ≤ t) {o : Operation} {st : Store}
    (hspares : o.Spares st.db)
    (hcheck : ∀ registered m thresholds, o = .check registered m thresholds →
      threshold thresholds = t ∧ Streak t m.lastState m.consecutiveFailures)
    (choices : Nat → Choice) (h : Sound t st.seq st.db) :
    Sound t (o.run choices st).1.seq (o.run choices st).1.db := by
  have hmono : ∀ a b db, Sound t a db → a.Le b → Sound t b db := fun _ _ _ => Sound.mono
  have hend : ∀ {α : Type} {p : Client α} {usable : User → Prop} {keys : List String}
      (f : α → Bool), SparesDown usable keys st.db →
      Seeds t (Accounts st usable) usable keys (fun _ => True) p →
      o.program = p >>= (fun r => pure (f r)) →
      Sound t (o.run choices st).1.seq (o.run choices st).1.db := by
    intro α p usable keys f hdown hp hprogram
    have hseeds : Seeds t (Accounts st usable) usable keys (fun _ => True) o.program := by
      rw [hprogram]
      exact Prog.yields_bind (hp.mono fun _ _ => trivial)
    exact (Operation.run_yields (I := Seeding t (Accounts st usable) usable keys)
      (fun _ _ _ => Seeding.mono) hseeds choices (h.seeding hdown)).toSound
  cases o with
  | writer w =>
      exact Operation.run_keeps (o := .writer w) hmono
        (w.program_sends.mono fun o ho =>
          keeps_sound (ho.quiet.mono fun w => steady_of_quiet ht)) choices h
  | check registered m thresholds =>
      obtain ⟨hthreshold, hm⟩ := hcheck registered m thresholds rfl
      refine Operation.run_keeps hmono ?_ choices h
      rw [Operation.program]
      refine Prog.only_bind (fun _ => Prog.only_ret)
        ((checkAndPersist_sends registered m thresholds).mono fun o ho => ?_)
      exact keeps_sound (steady_of_checkSends ht hthreshold hm ho)
  | statusSeed rt manifest =>
      cases haccept : StatusSeed.accept rt manifest with
      | error e =>
          refine Operation.run_keeps hmono ?_ choices h
          rw [Operation.program, StatusSeed.seed, haccept]
          trivial
      | ok accepted =>
          obtain ⟨email, ms⟩ := accepted
          cases email with
          | none =>
              refine Operation.run_keeps hmono ?_ choices h
              rw [Operation.program, StatusSeed.seed, haccept]
              refine Prog.only_bind (fun _ => Prog.only_ret) (only_transaction
                (Op.keeps_of_not_sql fun q h => (nomatch h))
                (Op.keeps_of_not_sql fun q h => (nomatch h))
                (Op.keeps_of_not_sql fun q h => (nomatch h))
                (only_query (keeps_sound ?_) fun _ => trivial))
              refine Op.writes_of_makes fun q hq w hw => ?_
              cases hq
              cases hw
              trivial
          | some email =>
              refine hend (p := seedOwner email ms) (fun r => r.isOk) (hspares email ms haccept)
                (seedOwner_seeds ht) ?_
              rw [Operation.program, StatusSeed.seed, haccept]
  | demoSeed rt manifest =>
      cases haccept : DemoSeed.accept rt manifest with
      | error e =>
          refine Operation.run_keeps hmono ?_ choices h
          rw [Operation.program, DemoSeed.seed, haccept]
          trivial
      | ok monitors =>
          exact hend (fun r => r.isOk) (hspares monitors haccept) (demoSeed_seeds ht haccept) rfl

/-! ### Runs -/

/-- The store, and the rows that were fetched to be checked. -/
structure Watch where
  store : Store
  fetched : List Checker.Monitor

inductive Watch.Action where
  | fetch (choice : Choice)
  | perform (o : Operation) (choices : Nat → Choice)

/-- A check is of a row that was fetched, at any time before, and with the threshold. -/
def Operation.watched (t : Int) (fetched : List Checker.Monitor) : Operation → Bool
  | .check _ m thresholds => decide (m ∈ fetched) && decide (threshold thresholds = t)
  | _ => true

/-- One operation after the other. -/
def Watch.step (t : Int) (s : Watch) : Watch.Action → Option Watch
  | .fetch choice =>
      let r := fetchDueMonitors.run handle (fun _ => choice) s.store .idle
      some ⟨r.1, s.fetched ++ r.2.2.toOption.getD []⟩
  | .perform o choices =>
      if o.watched t s.fetched then some { s with store := (o.run choices s.store).1 } else none

/-- The operation is no seed of a monitor that is down. -/
def Watch.Spares (s : Watch) : Watch.Action → Prop
  | .fetch _ => True
  | .perform o _ => o.Spares s.store.db

/-- The columns agree, of every monitor and of every row that was fetched. -/
structure Watch.Inv (t : Int) (s : Watch) : Prop where
  sound : Sound t s.store.seq s.store.db
  fetched : ∀ m ∈ s.fetched, Streak t m.lastState m.consecutiveFailures

theorem Watch.Inv.step {t : Int} (ht : 1 ≤ t) {s s' : Watch} {a : Watch.Action} (h : s.Inv t)
    (hspares : s.Spares a) (hs : s.step t a = some s') : s'.Inv t := by
  cases a with
  | fetch choice =>
      cases hs
      obtain ⟨hsound, hrows⟩ := fetchDueMonitors_run choice (I := Sound t)
        (fun _ _ _ => Sound.mono) h.sound
      refine ⟨hsound, fun m hm => ?_⟩
      rcases List.mem_append.mp hm with hm | hm
      · exact h.fetched m hm
      · cases hr : (fetchDueMonitors.run handle (fun _ => choice) s.store .idle).2.2 with
        | error e =>
            rw [hr] at hm
            cases hm
        | ok ms =>
            rw [hr] at hm
            obtain ⟨a, db, now, hdb, rfl⟩ := hrows ms hr
            obtain ⟨row, hrow, rfl⟩ := List.mem_map.mp hm
            exact hdb.streak row (List.mem_filter.mp hrow).1
  | perform o choices =>
      rw [Watch.step] at hs
      split at hs
      · rename_i hwatched
        cases hs
        refine ⟨Operation.run_sound ht hspares ?_ choices h.sound, h.fetched⟩
        rintro registered m thresholds rfl
        obtain ⟨hm, hthreshold⟩ := Bool.and_eq_true_iff.mp hwatched
        exact ⟨of_decide_eq_true hthreshold, h.fetched m (of_decide_eq_true hm)⟩
      · cases hs

/-- **A monitor is down iff its streak of failures has reached the threshold**, in every state of
every run of checks, requests, resets, retention passes and seeds from an empty database, whatever
fails in it, if no seed upserts a monitor that is down. -/
theorem streak_run {t : Int} (ht : 1 ≤ t) (actions : List Watch.Action) (s : Watch)
    (hrun : Guarded (Watch.step t) Watch.Spares ⟨⟨.empty, .first, []⟩, []⟩ actions s) :
    ∀ m ∈ s.store.db.monitors, m.lastState = some "unhealthy" ↔ t ≤ m.consecutiveFailures := by
  have hinv : s.Inv t := hrun.invariant (fun _ _ _ h hspares hs => h.step ht hspares hs)
    ⟨⟨⟨List.nodup_nil, fun u hu => (nomatch hu), List.nodup_nil, fun m hm => (nomatch hm),
      fun m hm => (nomatch hm)⟩, fun m hm => (nomatch hm)⟩, fun m hm => (nomatch hm)⟩
  exact hinv.sound.streak

def seedSite : Watch.Action :=
  .perform (.statusSeed statusRuntime statusManifest) fun _ => Choice.calm 0 (.error "")

/-- The seeded monitor is fetched and fails. -/
def siteFails (now : Time) (lastCheckedAt : Option Time) (failures : Int) : List Watch.Action :=
  [.fetch (Choice.calm now (.error "")),
    .perform (.check ["http"] ⟨1, "Site", "https://example.com", "http", some "{}", 60, none,
      lastCheckedAt, failures⟩ [3])
      fun _ => Choice.calm now (.ok ⟨"unhealthy", 0, none, none, none⟩)]

def siteOutage : List Watch.Action :=
  siteFails 0 none 0 ++ siteFails 60000000 (some 0) 1 ++ siteFails 120000000 (some 60000000) 2

theorem streak_run_outage : ∃ s,
    Guarded (Watch.step 3) Watch.Spares ⟨⟨.empty, .first, []⟩, []⟩ (seedSite :: siteOutage) s ∧
      s.store.db.monitors.map (fun m => (m.lastState, m.consecutiveFailures)) =
        [(some "unhealthy", 3)] ∧
      ∀ m ∈ s.store.db.monitors, m.lastState = some "unhealthy" ↔ 3 ≤ m.consecutiveFailures := by
  have hseed : Watch.Spares ⟨⟨.empty, .first, []⟩, []⟩ seedSite :=
    fun email ms _ u hu => (nomatch hu)
  have hsteps : ∀ a ∈ siteOutage, ∀ s : Watch, s.Spares a := by
    intro a ha s
    simp only [siteOutage, siteFails, List.cons_append, List.nil_append, List.mem_cons,
      List.not_mem_nil, or_false] at ha
    rcases ha with rfl | rfl | rfl | rfl | rfl | rfl <;> trivial
  have hrun : Guarded (Watch.step 3) Watch.Spares ⟨⟨.empty, .first, []⟩, []⟩
      (seedSite :: siteOutage) _ := .more hseed rfl (.of_run hsteps (run_of_exec rfl))
  exact ⟨_, hrun, rfl, streak_run (by decide) _ _ hrun⟩

/-- A seed of the monitor while it is down clears its counter, and leaves it down. -/
theorem seeded_outage : ∃ s,
    Run (Watch.step 3) ⟨⟨.empty, .first, []⟩, []⟩ (seedSite :: siteOutage ++ [seedSite]) s ∧
      ∃ m ∈ s.store.db.monitors, m.lastState = some "unhealthy" ∧ m.consecutiveFailures = 0 ∧
        ¬ (m.lastState = some "unhealthy" ↔ 3 ≤ m.consecutiveFailures) := by
  have hrun : Run (Watch.step 3) ⟨⟨.empty, .first, []⟩, []⟩
      (seedSite :: siteOutage ++ [seedSite]) _ := run_of_exec rfl
  exact ⟨_, hrun, _, List.mem_cons_self, rfl, rfl, fun h => absurd (h.mp rfl) (by decide)⟩

end Sentinel.System
