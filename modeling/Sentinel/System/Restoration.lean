import Sentinel.Database.Shared
import Sentinel.System.Checks
import Sentinel.Worker.Manifest
import Sentinel.Worker.Retention

/-!
# System — Restoration

A reset of the demo account, with checks that are committed between its statements.

* `Restored`: the monitors of an account are replaced by the entries of a manifest, with their check
  results and alerts.
* `Meanwhile`: what the checks do between two operations of the reset.
* `resetDemoAccount_within`: the reset replaces, in its commit, or leaves the tables.
* `Resetting`: the reset beside any number of checks, with what each of its operations did.
* `reset_replaces`: a reset that succeeds replaces, one that fails changes nothing unless its commit
  is done and the reply to it is lost, and no key is ever in the way.
-/

namespace Sentinel.System

open Program Database Worker Transition

/-! ### What a reset comes to -/

/-- The row of an entry of the manifest. -/
structure Restores (userId : Int) (m : DemoMonitor) (row : Monitor) : Prop where
  userId : row.userId = userId
  seedKey : row.seedKey = some m.seedKey
  name : row.name = m.name
  target : row.target = m.target
  checkType : row.checkType = m.checkType
  checkConfig : row.checkConfig = m.checkConfig
  frequency : row.frequency = m.frequency
  state : row.state = "Active"
  lastState : row.lastState = none
  lastCheckedAt : row.lastCheckedAt = none
  consecutiveFailures : row.consecutiveFailures = 0
  isPublic : row.isPublic = false

/-- The row that a reset inserts. -/
def demoRow (userId id : Int) (createdAt : Time) (m : DemoMonitor) : Monitor :=
  { id := id, name := m.name, target := m.target, frequency := m.frequency, state := "Active",
    createdAt := createdAt, checkType := m.checkType, checkConfig := m.checkConfig,
    lastState := none, lastCheckedAt := none, consecutiveFailures := 0, userId := userId,
    seedKey := some m.seedKey, isPublic := false }

theorem restores_demoRow (userId id : Int) (createdAt : Time) (m : DemoMonitor) :
    Restores userId m (demoRow userId id createdAt m) :=
  ⟨rfl, rfl, rfl, rfl, rfl, rfl, rfl, rfl, rfl, rfl, rfl, rfl⟩

/-- The monitors of an account are those of a manifest, all of them new, and their check results and
alerts are gone. What belongs to others is as it was. -/
structure Restored (userId : Int) (monitors : List DemoMonitor) (before after : Db) : Prop where
  users : after.users = before.users
  own : List.Forall₂ (Restores userId) monitors (after.monitors.filter (·.userId = userId))
  fresh : ∀ id ∈ before.ownedBy userId, id ∉ Db.monitorIds after
  others : after.monitors.filter (·.userId ≠ userId) =
    before.monitors.filter (·.userId ≠ userId)
  checkResults : after.checkResults =
    before.checkResults.filter (·.monitorId ∉ before.ownedBy userId)
  alerts : after.alerts = before.alerts.filter (·.monitorId ∉ before.ownedBy userId)

/-- The account that a reset is for. -/
def demoUser (email : String) (users : List User) : Option Int :=
  (users.find? fun u => u.email = email && u.isDemo).map (·.id)

/-! ### The changes of a reset -/

theorem foldl_deleteMonitor (ids : List Int) (db : Db) :
    (ids.map Write.deleteMonitor).foldl Write.apply db =
      { db with
        monitors := db.monitors.filter (·.id ∉ ids)
        checkResults := db.checkResults.filter (·.monitorId ∉ ids)
        alerts := db.alerts.filter (·.monitorId ∉ ids) } := by
  induction ids generalizing db with
  | nil => simp
  | cons id ids ih =>
      rw [List.map_cons, List.foldl_cons, ih]
      simp only [Write.apply, List.filter_filter, List.mem_cons, not_or, Bool.decide_and,
        Bool.and_comm]

theorem foldl_insertMonitor (rows : List Monitor) (db : Db) :
    (rows.map Write.insertMonitor).foldl Write.apply db =
      { db with monitors := db.monitors ++ rows } := by
  induction rows generalizing db with
  | nil => simp
  | cons row rows ih =>
      rw [List.map_cons, List.foldl_cons, ih]
      simp [Write.apply]

/-- The changes of a reset so far. -/
def resetWrites (results alerts monitors : List Int) (rows : List Monitor) : List Write :=
  results.map .deleteCheckResult ++ alerts.map .deleteAlert ++ monitors.map .deleteMonitor ++
    rows.map .insertMonitor

theorem foldl_resetWrites (results alerts monitors : List Int) (rows : List Monitor) (db : Db) :
    (resetWrites results alerts monitors rows).foldl Write.apply db =
      { users := db.users
        monitors := db.monitors.filter (·.id ∉ monitors) ++ rows
        checkResults := (db.checkResults.filter (·.id ∉ results)).filter (·.monitorId ∉ monitors)
        alerts := (db.alerts.filter (·.id ∉ alerts)).filter (·.monitorId ∉ monitors) } := by
  rw [resetWrites, List.foldl_append, List.foldl_append, List.foldl_append,
    foldl_deleteCheckResult, foldl_deleteAlert, foldl_deleteMonitor, foldl_insertMonitor]

theorem resetWrites_append (results alerts monitors : List Int) (rows more : List Monitor) :
    resetWrites results alerts monitors (rows ++ more) =
      resetWrites results alerts monitors rows ++ more.map .insertMonitor := by
  simp only [resetWrites, List.map_append, List.append_assoc]

/-- The ids of some of the rows of some monitors. -/
structure Picks {α : Type} (id monitorId : α → Int) (monitors : List Int) (rows : List α)
    (ids : List Int) : Prop where
  there : ∀ i ∈ ids, i ∈ rows.map id
  owned : ∀ r ∈ rows, id r ∈ ids → monitorId r ∈ monitors

section Picks

variable {α : Type} {id monitorId : α → Int} {monitors ids : List Int} {rows rows' : List α}

theorem picks_nil : Picks id monitorId monitors rows [] :=
  ⟨fun _ h => absurd h List.not_mem_nil, fun _ _ h => absurd h List.not_mem_nil⟩

/-- The ids of the rows of some monitors. -/
def idsOf (id monitorId : α → Int) (monitors : List Int) (rows : List α) : List Int :=
  (rows.filter fun r => monitors.contains (monitorId r)).map id

theorem picks_idsOf (hnodup : (rows.map id).Nodup) :
    Picks id monitorId monitors rows (idsOf id monitorId monitors rows) where
  there i hi := (List.filter_sublist.map id).subset hi
  owned r hr hid := by
    obtain ⟨r', hr', heq⟩ := List.mem_map.mp hid
    obtain ⟨hmem, hmonitor⟩ := List.mem_filter.mp hr'
    obtain rfl := List.inj_on_of_nodup_map hnodup hmem hr heq
    exact List.contains_iff_mem.mp hmonitor

/-- Rows that are added have other ids. -/
theorem Picks.appended (h : Picks id monitorId monitors rows ids) {added : List Int}
    (happend : Appended monitorId added rows rows') (hnodup : (rows'.map id).Nodup) :
    Picks id monitorId monitors rows' ids := by
  obtain ⟨new, rfl, -⟩ := happend
  rw [List.map_append, List.nodup_append] at hnodup
  refine ⟨fun i hi => ?_, fun r hr hid => ?_⟩
  · rw [List.map_append]
    exact List.mem_append_left _ (h.there i hi)
  · rcases List.mem_append.mp hr with hr | hr
    · exact h.owned r hr hid
    · exact absurd rfl (hnodup.2.2 _ (h.there _ hid) _ (List.mem_map_of_mem hr))

/-- To delete the picked rows and then all of the monitors is to delete all of the monitors. -/
theorem Picks.filter (h : Picks id monitorId monitors rows ids) :
    (rows.filter (id · ∉ ids)).filter (monitorId · ∉ monitors) =
      rows.filter (monitorId · ∉ monitors) := by
  rw [List.filter_filter]
  refine List.filter_congr fun r hr => ?_
  by_cases hmonitor : monitorId r ∈ monitors
  · simp [hmonitor]
  · have hid : id r ∉ ids := fun hid => hmonitor (h.owned r hr hid)
    simp [hmonitor, hid]

end Picks

/-! ### What refuses a change -/

theorem firstViolation_eq_some {checks : List (Bool × DbError)} {e : DbError}
    (h : firstViolation checks = some e) : ∃ c ∈ checks, c.1 = false ∧ c.2 = e := by
  obtain ⟨c, hfind, rfl⟩ := Option.map_eq_some_iff.mp h
  exact ⟨c, List.mem_of_find?_eq_some hfind, by simpa using List.find?_some hfind, rfl⟩

/-- A monitor is refused for its key if its account has a monitor with the key. -/
theorem seedKey_taken {db : Db} {row : Monitor}
    (h : (Write.insertMonitor row).violates db = some uniqueViolation) :
    ∃ m ∈ db.monitors, m.userId = row.userId ∧ m.seedKey = row.seedKey := by
  have hother : ∀ e ∈ [invalidText, outOfRange, foreignKeyViolation], e ≠ uniqueViolation := by
    decide
  obtain ⟨c, hc, hfalse, he⟩ := firstViolation_eq_some h
  simp only [List.mem_cons, List.not_mem_nil, or_false] at hc
  rcases hc with rfl | rfl | rfl | rfl
  · exact absurd he (hother _ (by simp))
  · exact absurd he (hother _ (by simp))
  · simpa using (Bool.or_eq_false_iff.mp hfalse).2
  · exact absurd he (hother _ (by simp))

/-- The keys of some rows of one account are new and distinct. -/
structure Unkeyed (userId : Int) (db : Db) (rows : List Monitor) : Prop where
  distinct : rows.Pairwise fun row row' => row.seedKey ≠ row'.seedKey
  account : ∀ row ∈ rows, row.userId = userId
  unused : ∀ row ∈ rows, ∀ m ∈ db.monitors, m.userId = userId → m.seedKey ≠ row.seedKey

/-- No key is in the way of such rows. -/
theorem Unkeyed.admitted {userId : Int} : ∀ {rows : List Monitor} {db : Db},
    Unkeyed userId db rows → replay db (rows.map .insertMonitor) ≠ .error uniqueViolation
  | [], _, _ => fun h => by cases h
  | row :: rows, db, ⟨hdistinct, haccount, hunused⟩ => by
      obtain ⟨hhead, hdistinct⟩ := List.pairwise_cons.mp hdistinct
      rw [List.map_cons, replay]
      cases hviolates : (Write.insertMonitor row).violates db with
      | some e =>
          rintro he
          cases he
          obtain ⟨m, hm, huser, hkey⟩ := seedKey_taken hviolates
          exact hunused row List.mem_cons_self m hm
            (huser.trans (haccount row List.mem_cons_self)) hkey
      | none =>
          have hrest : Unkeyed userId ((Write.insertMonitor row).apply db) rows := by
            refine ⟨hdistinct, fun r hr => haccount r (List.mem_cons_of_mem _ hr),
              fun r hr m hm huser => ?_⟩
            rcases List.mem_append.mp hm with hm | hm
            · exact hunused r (List.mem_cons_of_mem _ hr) m hm huser
            · rw [List.mem_singleton.mp hm]
              exact hhead r hr
          exact hrest.admitted

theorem execute_unrefused {q : Sql} {moment : Moment} {a b : Seq} {db : Db} {out : q.Out}
    {ws : List Write} (hplan : q.plan moment a db = (b, .ok (out, ws)))
    (h : ∀ w ∈ ws, ∀ db, w.violates db = none) :
    ∀ c e, q.execute moment a db ≠ (c, .error e) := by
  intro c e he
  have hrefused := Sql.execute_refused hplan he
  rw [replay_unrefused h] at hrefused
  cases hrefused

/-- Nothing refuses a delete. -/
theorem deletes_unrefused (results alerts monitors : List Int) :
    ∀ w ∈ resetWrites results alerts monitors [], ∀ db, w.violates db = none := by
  intro w hw db
  simp only [resetWrites, List.map_nil, List.append_nil, List.mem_append, List.mem_map] at hw
  rcases hw with (⟨id, -, rfl⟩ | ⟨id, -, rfl⟩) | ⟨id, -, rfl⟩
  · rfl
  · rfl
  · rfl

/-! ### Between two operations -/

/-- What checks do between two operations of a reset. -/
structure Meanwhile (st st' : Store) : Prop where
  tables : Grown st.db st'.db
  seq : st.seq.Le st'.seq
  results : (st'.db.checkResults.map (·.id)).Nodup
  alerts : (st'.db.alerts.map (·.id)).Nodup

theorem Meanwhile.trans {st st₁ st₂ : Store} (h₁ : Meanwhile st st₁) (h₂ : Meanwhile st₁ st₂) :
    Meanwhile st st₂ :=
  ⟨h₁.tables.trans h₂.tables, h₁.seq.trans h₂.seq, h₂.results, h₂.alerts⟩

/-- The accounts are `users`, and the numbers of the monitors are below the next one. -/
structure Standing (users : List User) (st : Store) : Prop where
  users : st.db.users = users
  monitors : Apart (Db.monitorIds st.db) [] st.seq.monitors

theorem Standing.meanwhile {users : List User} {st st' : Store} (h : Standing users st)
    (hst : Meanwhile st st') : Standing users st' where
  users := hst.tables.users.trans h.users
  monitors := hst.tables.monitorIds ▸ h.monitors.mono (List.Sublist.refl _) hst.seq.monitors

/-- The rows that a reset has picked to be deleted, in whatever tables there are, and the rows that
it has made. -/
structure Replacing (userId : Int) (results alerts monitors : List Int) (rows : List Monitor)
    (st : Store) : Prop where
  ids : Apart (Db.monitorIds st.db) [] st.seq.monitors
  owned : st.db.ownedBy userId = monitors
  results : Picks (·.id) (·.monitorId) monitors st.db.checkResults results
  alerts : Picks (·.id) (·.monitorId) monitors st.db.alerts alerts
  fresh : ∀ row ∈ rows, ∀ id ∈ Db.monitorIds st.db, id < row.id

section Replacing

variable {userId : Int} {results alerts monitors : List Int} {rows : List Monitor}
  {entries : List DemoMonitor} {st st' : Store}

theorem Replacing.meanwhile (h : Replacing userId results alerts monitors rows st)
    (hst : Meanwhile st st') : Replacing userId results alerts monitors rows st' where
  ids := hst.tables.monitorIds ▸ h.ids.mono (List.Sublist.refl _) hst.seq.monitors
  owned := (hst.tables.ownedBy userId).trans h.owned
  results := h.results.appended hst.tables.checkResults hst.results
  alerts := h.alerts.appended hst.tables.alerts hst.alerts
  fresh := hst.tables.monitorIds ▸ h.fresh

theorem Replacing.mem_monitors (h : Replacing userId results alerts monitors rows st) {m : Monitor}
    (hm : m ∈ st.db.monitors) : m.id ∈ monitors ↔ m.userId = userId := by
  rw [← h.owned, Db.ownedBy]
  constructor
  · intro hid
    obtain ⟨m', hm', heq⟩ := List.mem_map.mp hid
    obtain ⟨hmem, huser⟩ := List.mem_filter.mp hm'
    have hnodup := (List.nodup_append.mp h.ids.nodup).1
    obtain rfl := List.inj_on_of_nodup_map hnodup hmem hm heq
    exact of_decide_eq_true huser
  · intro huser
    exact List.mem_map_of_mem (List.mem_filter.mpr ⟨hm, decide_eq_true huser⟩)

/-- One more row, with the next number. -/
theorem Replacing.insert (h : Replacing userId results alerts monitors rows st) {row : Monitor}
    (hid : row.id = st.seq.monitors) : Replacing userId results alerts monitors (rows ++ [row])
      { st with seq := { st.seq with monitors := st.seq.monitors + 1 } } where
  ids := h.ids.mono (List.Sublist.refl _) (Int.le_of_lt (Int.lt_succ _))
  owned := h.owned
  results := h.results
  alerts := h.alerts
  fresh r hr id hmem := by
    rcases List.mem_append.mp hr with hr | hr
    · exact h.fresh r hr id hmem
    · rw [List.mem_singleton.mp hr, hid]
      exact h.ids.below id (List.mem_append_left _ hmem)

theorem restores_keys : ∀ {entries : List DemoMonitor} {rows : List Monitor},
    List.Forall₂ (Restores userId) entries rows →
      rows.map (·.seedKey) = entries.map fun e => some e.seedKey
  | [], _, .nil => rfl
  | _ :: _, _, .cons h hs => congrArg₂ _ h.seedKey (restores_keys hs)

theorem restores_account {entries : List DemoMonitor} {rows : List Monitor}
    (h : List.Forall₂ (Restores userId) entries rows) : ∀ row ∈ rows, row.userId = userId := by
  induction h with
  | nil => exact fun _ h => absurd h List.not_mem_nil
  | cons hrow _ ih => exact List.forall_mem_cons.mpr ⟨hrow.userId, ih⟩

/-- **The keys of the manifest are free** once the monitors of the account are deleted, and the ones
that follow are free after those that are inserted. -/
theorem Replacing.unkeyed (h : Replacing userId results alerts monitors rows st)
    (hkeys : (entries.map (·.seedKey)).Nodup) {more : List Monitor}
    (hrows : List.Forall₂ (Restores userId) entries (rows ++ more)) :
    Unkeyed userId ((resetWrites results alerts monitors rows).foldl Write.apply st.db) more := by
  have hpairs : (rows ++ more).Pairwise fun row row' => row.seedKey ≠ row'.seedKey := by
    have hnodup : ((rows ++ more).map (·.seedKey)).Nodup := by
      rw [restores_keys hrows, show (fun e : DemoMonitor => some e.seedKey) =
        some ∘ DemoMonitor.seedKey from rfl, ← List.map_map]
      exact hkeys.map (Option.some_injective _)
    exact List.pairwise_map.mp hnodup
  obtain ⟨-, hmore, hcross⟩ := List.pairwise_append.mp hpairs
  refine ⟨hmore, fun row hrow => restores_account hrows row (List.mem_append_right _ hrow), ?_⟩
  intro row hrow m hm huser
  rw [foldl_resetWrites] at hm
  rcases List.mem_append.mp hm with hm | hm
  · obtain ⟨hm, hid⟩ := List.mem_filter.mp hm
    exact absurd ((h.mem_monitors hm).mpr huser) (of_decide_eq_true hid)
  · exact hcross m hm row hrow

/-- The changes of a reset, made on the tables there are, replace what the account has. -/
theorem Replacing.restored (h : Replacing userId results alerts monitors rows st)
    (hrows : List.Forall₂ (Restores userId) entries rows) : Restored userId entries st.db
      ((resetWrites results alerts monitors rows).foldl Write.apply st.db) := by
  have haccount := restores_account hrows
  rw [foldl_resetWrites]
  refine ⟨rfl, ?_, ?_, ?_, ?_, ?_⟩
  · have hold : (st.db.monitors.filter (·.id ∉ monitors)).filter (·.userId = userId) = [] := by
      refine List.filter_eq_nil_iff.mpr fun m hm huser => ?_
      obtain ⟨hm, hid⟩ := List.mem_filter.mp hm
      exact of_decide_eq_true hid ((h.mem_monitors hm).mpr (of_decide_eq_true huser))
    have hnew : rows.filter (·.userId = userId) = rows :=
      List.filter_eq_self.mpr fun row hrow => decide_eq_true (haccount row hrow)
    rw [List.filter_append, hold, hnew]
    exact hrows
  · intro id hid hafter
    obtain ⟨m, hm, rfl⟩ := List.mem_map.mp hafter
    rcases List.mem_append.mp hm with hm | hm
    · exact of_decide_eq_true (List.mem_filter.mp hm).2 (h.owned ▸ hid)
    · obtain ⟨m', hm', heq⟩ := List.mem_map.mp hid
      have hmem : m.id ∈ Db.monitorIds st.db :=
        List.mem_map.mpr ⟨m', (List.mem_filter.mp hm').1, heq⟩
      exact Int.lt_irrefl _ (h.fresh m hm _ hmem)
  · have hnew : rows.filter (·.userId ≠ userId) = [] :=
      List.filter_eq_nil_iff.mpr fun row hrow huser =>
        of_decide_eq_true huser (haccount row hrow)
    rw [List.filter_append, hnew, List.append_nil, List.filter_filter]
    refine List.filter_congr fun m hm => ?_
    rw [← Bool.decide_and, decide_eq_decide]
    exact and_iff_left_of_imp fun huser hid => huser ((h.mem_monitors hm).mp hid)
  · rw [h.owned]
    exact h.results.filter
  · rw [h.owned]
    exact h.alerts.filter

end Replacing

/-! ### The reset -/

/-- A reset, with what is in its file. -/
structure ResetCall where
  unmarshal : String → Except String (List DemoMonitor)
  email : String
  path : String
  content : Except String String

def ResetCall.program (call : ResetCall) : Client (Option ResetError) :=
  resetDemoAccount call.unmarshal call.email call.path

/-- The file is read and parsed, and these are its entries. -/
def ResetCall.Manifest (call : ResetCall) (monitors : List DemoMonitor) : Prop :=
  ∃ data, call.content = .ok data ∧ parseDemoManifest call.unmarshal data = .ok monitors

/-- The keys of a manifest are distinct. -/
theorem ResetCall.Manifest.keys {call : ResetCall} {monitors : List DemoMonitor}
    (h : call.Manifest monitors) : (monitors.map (·.seedKey)).Nodup := by
  obtain ⟨data, -, hparse⟩ := h
  exact (validDemoMonitors_iff.mp (parseDemoManifest_ok.mp hparse).2.2).2

/-- What a reset has to do: the account there is for its email, and the entries of its manifest. -/
structure ResetCall.Serves (call : ResetCall) (users : List User) (userId : Int)
    (monitors : List DemoMonitor) : Prop where
  email : call.email ≠ ""
  user : demoUser call.email users = some userId
  manifest : call.Manifest monitors

/-- The error of a change or of the commit. -/
def refusal : ResetError → Option DbError
  | .delete err | .restore _ err | .commit err => some err
  | .readManifest _ | .parseManifest _ | .findUser _ | .begin _ => none

/-- What a reset ends with: nothing, or the error with which the reply to its commit was lost. -/
def Committed (A : Op → Choice → Prop) (r : Option ResetError) : Prop :=
  r = none ∨ ∃ e choice, A .commit choice ∧ choice.fault = .lostReply e ∧ r = some (.commit e)

/-- What a reset ends with, and what it has replaced then. No key is in the way, except that the
environment may make a call fail with that error. -/
inductive Ends (A : Op → Choice → Prop) (users : List User) (call : ResetCall) :
    Option (Db × Db) → Option ResetError → Prop where
  | failed {err : ResetError}
      (h : refusal err = some uniqueViolation →
        ∃ o choice, A o choice ∧ choice.fault = .fails uniqueViolation) :
      Ends A users call none (some err)
  | nobody (h : call.email = "" ∨ demoUser call.email users = none) : Ends A users call none none
  | replaced {userId : Int} {monitors : List DemoMonitor} {before after : Db}
      {r : Option ResetError} (hserves : call.Serves users userId monitors)
      (h : Restored userId monitors before after) (hr : Committed A r) :
      Ends A users call (some (before, after)) r

/-- The tables are left, or the monitors of an account are replaced, once. -/
def Replaces (g : Option (Db × Db)) (st : Store) (g' : Option (Db × Db)) (st' : Store) : Prop :=
  g' = g ∧ st'.db = st.db ∨
    g = none ∧ g' = some (st.db, st'.db) ∧ ∃ userId monitors, Restored userId monitors st.db st'.db

/-- Check results and alerts are removed at most. -/
theorem Replaces.sublist {g g' : Option (Db × Db)} {st st' : Store} (h : Replaces g st g' st') :
    st'.db.checkResults.Sublist st.db.checkResults ∧ st'.db.alerts.Sublist st.db.alerts := by
  rcases h with ⟨-, hdb⟩ | ⟨-, -, userId, monitors, hrestored⟩
  · rw [hdb]
    exact ⟨List.Sublist.refl _, List.Sublist.refl _⟩
  · rw [hrestored.checkResults, hrestored.alerts]
    exact ⟨List.filter_sublist, List.filter_sublist⟩

theorem replaces_idles : Idles Replaces := fun _ _ _ => .inl ⟨rfl, rfl⟩

section Reset

variable {A : Op → Choice → Prop} {users : List User} {call : ResetCall} {userId : Int}
  {monitors : List DemoMonitor} {results alerts owned : List Int}

/-- What a reset keeps among checks. -/
abbrev ResetWithin (A : Op → Choice → Prop) (users : List User) (call : ResetCall)
    (p : Client (Option ResetError)) (st : Store) (s : Session) (g : Option (Db × Db)) : Prop :=
  Within A Meanwhile Replaces (fun _ _ g r => Ends A users call g r) p st s g

/-- A call that fails with the error that the environment says. -/
theorem Ends.injected {err : ResetError} {e : DbError} {refused : Prop} {o : Op}
    (herr : refusal err = some e) (hcause : Cause (A o) e refused)
    (hrefused : e = uniqueViolation → ¬ refused) : Ends A users call none (some err) := by
  refine .failed fun hunique => ?_
  obtain rfl := Option.some.inj (herr.symm.trans hunique)
  exact ⟨o, hcause.resolve_right (hrefused rfl)⟩

theorem restore_within (hserves : call.Serves users userId monitors) :
    ∀ {todo done : List DemoMonitor} {rows : List Monitor} {st : Store}, done ++ todo = monitors →
      List.Forall₂ (Restores userId) done rows → Replacing userId results alerts owned rows st →
        ResetWithin A users call (restore userId todo) st
          (.open_ (resetWrites results alerts owned rows)) none
  | [], done, rows, st, hdone, hrows, h => by
      rw [List.append_nil] at hdone
      subst hdone
      refine within_commit replaces_idles (fun st' e hst hcause => ?_)
        fun st' db r hst hreplay hr => ?_
      · refine Ends.injected rfl hcause fun he hrefused => ?_
        have hdeleted : Replacing userId results alerts owned [] st' :=
          { h.meanwhile hst with fresh := fun _ h => absurd h List.not_mem_nil }
        rw [← List.nil_append rows, resetWrites_append, replay_append,
          replay_unrefused (deletes_unrefused _ _ _), he] at hrefused
        exact (hdeleted.unkeyed hserves.manifest.keys hrows).admitted hrefused
      · have hrestored := (h.meanwhile hst).restored hrows
        rw [← replay_eq_foldl hreplay] at hrestored
        refine ⟨some (st'.db, db), .inr ⟨rfl, rfl, _, _, hrestored⟩, ?_⟩
        rcases hr with rfl | ⟨e, choice, hchoice, hfault, rfl⟩
        · exact .replaced hserves hrestored (.inl rfl)
        · exact .replaced hserves hrestored (.inr ⟨e, choice, hchoice, hfault, rfl⟩)
  | m :: todo, done, rows, st, hdone, hrows, h => by
      have hone : ∀ id createdAt, List.Forall₂ (Restores userId) (done ++ [m])
          (rows ++ [demoRow userId id createdAt m]) := fun id createdAt =>
        List.rel_append hrows (.cons (restores_demoRow userId id createdAt m) .nil)
      have hkeys : ((done ++ [m]).map (·.seedKey)).Nodup := by
        have hkeys := hserves.manifest.keys
        rw [← hdone, List.append_cons, List.map_append] at hkeys
        exact (List.nodup_append.mp hkeys).1
      refine within_sql replaces_idles rfl (fun st' moment seq e hst hcause => ?_) ?_
      · refine Ends.injected rfl hcause fun he hexecute => ?_
        obtain ⟨seq, hexecute⟩ := hexecute
        subst he
        exact ((h.meanwhile hst).unkeyed hkeys (hone st'.seq.monitors moment.now)).admitted
          (Sql.execute_refused rfl hexecute)
      · intro st' moment seq out more db hst hplan hreplay
        cases hplan
        have hrest := restore_within hserves ((List.append_cons _ _ _).symm.trans hdone)
          (hone st'.seq.monitors moment.now) ((h.meanwhile hst).insert rfl)
        rw [resetWrites_append] at hrest
        exact hrest

/-- A delete that fails. -/
theorem Ends.deleting {q : Sql} {moment : Moment} {a b : Seq} {db : Db} {out : q.Out}
    {ids : List Int} {f : Int → Write} {e : DbError}
    (hplan : q.plan moment a db = (b, .ok (out, ids.map f)))
    (hf : ∀ id db, (f id).violates db = none)
    (hcause : Cause (A (.sql q)) e (∃ seq, q.execute moment a db = (seq, .error e))) :
    Ends A users call none (some (.delete e)) := by
  refine Ends.injected rfl hcause fun _ hrefused => ?_
  obtain ⟨seq, hexecute⟩ := hrefused
  refine execute_unrefused hplan (fun w hw db => ?_) seq e hexecute
  obtain ⟨id, -, rfl⟩ := List.mem_map.mp hw
  exact hf id db

theorem replaceOwned_within (hserves : call.Serves users userId monitors) {st : Store}
    (h : Standing users st) :
    ResetWithin A users call (replaceOwned userId monitors) st (.open_ []) none := by
  refine within_sql replaces_idles rfl (fun st' moment seq e hst hcause =>
    Ends.deleting rfl (fun _ _ => rfl) hcause) fun st₁ moment seq out more db hst hplan _ => ?_
  cases hplan
  let results := idsOf (·.id) (·.monitorId) (st₁.db.ownedBy userId) st₁.db.checkResults
  have h₁ : Replacing userId results [] (st₁.db.ownedBy userId) [] st₁ :=
    ⟨(h.meanwhile hst).monitors, rfl, picks_idsOf hst.results, picks_nil,
      fun _ h => absurd h List.not_mem_nil⟩
  refine within_sql replaces_idles rfl (fun st' moment seq e hst hcause =>
    Ends.deleting rfl (fun _ _ => rfl) hcause) fun st₂ moment seq out more db hst hplan _ => ?_
  rw [List.nil_append, foldl_deleteCheckResult] at hplan
  cases hplan
  let alerts := idsOf (·.id) (·.monitorId) (st₂.db.ownedBy userId) st₂.db.alerts
  have h₂ : Replacing userId results alerts (st₁.db.ownedBy userId) [] st₂ :=
    { h₁.meanwhile hst with alerts := (h₁.meanwhile hst).owned.symm ▸ picks_idsOf hst.alerts }
  refine within_sql replaces_idles rfl (fun st' moment seq e hst hcause =>
    Ends.deleting rfl (fun _ _ => rfl) hcause) fun st₃ moment seq out more db hst hplan _ => ?_
  rw [List.nil_append, List.foldl_append, foldl_deleteCheckResult, foldl_deleteAlert] at hplan
  cases hplan
  have hrest := restore_within (A := A) hserves rfl .nil (h₂.meanwhile hst)
  rw [resetWrites, List.map_nil, List.append_nil, ← (h₂.meanwhile hst).owned] at hrest
  exact hrest

theorem resetTransaction_within (hserves : call.Serves users userId monitors) {st : Store}
    (h : Standing users st) :
    ResetWithin A users call (resetTransaction userId monitors) st .idle none := by
  refine within_begin replaces_idles (fun st' e hst => .failed fun he => (nomatch he))
    fun st' hst => ?_
  refine Prog.amid_bind.mpr (Prog.Amid.mono (fun st s g r hends => ?_)
    (replaceOwned_within hserves (h.meanwhile hst)))
  exact within_rollback replaces_idles fun _ _ _ => hends

/-- **A reset among checks** replaces what the demo account has, or leaves the tables. -/
theorem resetDemoAccount_within (hA : ∀ o choice, A o choice → choice.file = call.content)
    {st : Store} (h : Standing users st) : ResetWithin A users call call.program st .idle none := by
  unfold ResetCall.program resetDemoAccount
  split
  · exact .nobody (.inl ‹_›)
  · rename_i hemail
    refine within_readFile replaces_idles fun choice st' hchoice hst => ?_
    have h₁ := h.meanwhile hst
    cases hfile : choice.file with
    | error err => exact .failed fun he => (nomatch he)
    | ok data =>
        simp only
        cases hparse : parseDemoManifest call.unmarshal data with
        | error err => exact .failed fun he => (nomatch he)
        | ok monitors =>
            have hmanifest : call.Manifest monitors :=
              ⟨data, (hA _ choice hchoice).symm.trans hfile, hparse⟩
            refine within_read replaces_idles rfl (fun moment a db b out ws hplan => ?_)
              (fun st' seq e hst => .failed fun he => (nomatch he))
              fun st' moment seq out hst hplan => ?_
            · cases hplan
              rfl
            · cases hplan
              have h₂ := h₁.meanwhile hst
              have hout : demoUser call.email users =
                  (st'.db.users.find? fun u => u.email = call.email && u.isDemo).map (·.id) := by
                rw [h₂.users, demoUser]
              rw [← hout]
              cases huser : demoUser call.email users with
              | none => exact .nobody (.inr huser)
              | some userId =>
                  exact resetTransaction_within ⟨hemail, huser, hmanifest⟩ h₂

end Reset

/-! ### A reset among checks -/

/-- Checks on the tables, a reset beside them, and the tables before and after each of its
operations. -/
structure Resetting where
  pool : Pool Op Op.Res Store Session (Option WorkError)
  reset : Thread Op Op.Res Session (Option ResetError)
  steps : List (Db × Db)

inductive ResetAct where
  /-- A check begins. -/
  | check (registered : List String) (m : Checker.Monitor) (thresholds : List Int)
  /-- The next operation of one of the checks. -/
  | advance (i : Nat) (choice : Choice)
  /-- The next operation of the reset. -/
  | reset (choice : Choice)

namespace Resetting

def start (call : ResetCall) (st : Store) : Resetting :=
  { pool := ⟨st, []⟩, reset := ⟨call.program, .idle⟩, steps := [] }

def step (s : Resetting) : ResetAct → Option Resetting
  | .check registered m thresholds =>
      some { s with pool := s.pool.spawn ⟨checkAndPersist registered m thresholds, .idle⟩ }
  | .advance i choice => (s.pool.advance handle i choice).map fun pool => { s with pool := pool }
  | .reset choice => (s.reset.step handle choice s.pool.shared).map fun r =>
      { pool := { s.pool with shared := r.1 }, reset := r.2,
        steps := s.steps ++ [(s.pool.shared.db, r.1.db)] }

/-- The reset reads the file as it is. -/
def Delivers (call : ResetCall) (_ : Resetting) : ResetAct → Prop
  | .reset choice => choice.file = call.content
  | .check _ _ _ | .advance _ _ => True

end Resetting

/-- None of the operations changes the tables. -/
def Unchanged (steps : List (Db × Db)) : Prop := ∀ p ∈ steps, p.2 = p.1

/-- One of the operations, from the tables `before` to the tables `after`, is the only one that
changes them. -/
def ChangedOnce (steps : List (Db × Db)) (before after : Db) : Prop :=
  ∃ pre post, steps = pre ++ (before, after) :: post ∧ Unchanged pre ∧ Unchanged post

theorem Unchanged.concat {steps : List (Db × Db)} (h : Unchanged steps) {db db' : Db}
    (heq : db' = db) : Unchanged (steps ++ [(db, db')]) := by
  intro p hp
  rcases List.mem_append.mp hp with hp | hp
  · exact h p hp
  · rw [List.mem_singleton.mp hp]
    exact heq

/-- What the operations of the reset did, if only checks have changed the tables besides. -/
def Accounted : Option (Db × Db) → List (Db × Db) → Db → Prop
  | none, steps, _ => Unchanged steps
  | some (before, after), steps, db => ChangedOnce steps before after ∧ Grown after db

theorem Accounted.grown {g : Option (Db × Db)} {steps : List (Db × Db)} {db db' : Db}
    (h : Accounted g steps db) (hdb : Grown db db') : Accounted g steps db' := by
  cases g with
  | none => exact h
  | some p => exact ⟨h.1, h.2.trans hdb⟩

theorem Accounted.replaces {g g' : Option (Db × Db)} {steps : List (Db × Db)} {st st' : Store}
    (h : Accounted g steps st.db) (hg : Replaces g st g' st') :
    Accounted g' (steps ++ [(st.db, st'.db)]) st'.db := by
  rcases hg with ⟨rfl, hdb⟩ | ⟨rfl, rfl, -⟩
  · cases g' with
    | none => exact Unchanged.concat h hdb
    | some p =>
        obtain ⟨⟨pre, post, hsteps, hpre, hpost⟩, hgrown⟩ := h
        refine ⟨⟨pre, post ++ [(st.db, st'.db)], ?_, hpre, hpost.concat hdb⟩, hdb ▸ hgrown⟩
        rw [hsteps, List.append_assoc, List.cons_append]
  · exact ⟨⟨steps, [], rfl, h, fun _ hp => absurd hp List.not_mem_nil⟩, grown_refl _⟩

namespace Resetting

/-- The checks keep the numbers apart, and the reset keeps what it guarantees among them. -/
structure Inv (A : Op → Choice → Prop) (users : List User) (call : ResetCall) (s : Resetting) :
    Prop where
  checking : Checking s.pool
  reset : ∃ g, ResetWithin A users call s.reset.prog s.pool.shared s.reset.own g ∧
    Accounted g s.steps s.pool.shared.db

variable {A : Op → Choice → Prop} {users : List User} {call : ResetCall} {s s' : Resetting}

theorem Inv.meanwhile (h : Inv A users call s) : Meanwhile s.pool.shared s.pool.shared :=
  ⟨grown_refl _, Seq.Le.refl _, h.checking.nodup.1, h.checking.nodup.2⟩

theorem Inv.check (h : Inv A users call s) (registered : List String) (m : Checker.Monitor)
    (thresholds : List Int) : Inv A users call
      { s with pool := s.pool.spawn ⟨checkAndPersist registered m thresholds, .idle⟩ } where
  checking := h.checking.spawn
    ((checkAndPersist_sends registered m thresholds).mono fun _ => recorded_of_checkSends)
  reset := h.reset

theorem Inv.advance (h : Inv A users call s) {i : Nat} {choice : Choice}
    {pool : Pool Op Op.Res Store Session (Option WorkError)}
    (hs : s.pool.advance handle i choice = some pool) :
    Inv A users call { s with pool := pool } := by
  obtain ⟨hchecking, hgrown, hseq⟩ := h.checking.advance hs
  obtain ⟨g, hreset, hsteps⟩ := h.reset
  refine ⟨hchecking, g, hreset.rely (fun _ _ _ h₁ h₂ => h₁.trans h₂) (fun _ _ _ _ _ h _ => h) ?_,
    hsteps.grown hgrown⟩
  exact ⟨hgrown, hseq, hchecking.nodup.1, hchecking.nodup.2⟩

theorem Inv.operation (h : Inv A users call s) {choice : Choice}
    (hchoice : ∀ o k, s.reset.prog = .call o k → A o choice)
    {r : Store × Thread Op Op.Res Session (Option ResetError)}
    (hs : s.reset.step handle choice s.pool.shared = some r) :
    Inv A users call
      { pool := { s.pool with shared := r.1 }, reset := r.2,
        steps := s.steps ++ [(s.pool.shared.db, r.1.db)] } := by
  obtain ⟨g, hreset, hsteps⟩ := h.reset
  obtain ⟨g', hg, hreset'⟩ := Thread.step_amid h.meanwhile hreset hchoice hs
  obtain ⟨o, k, -, hstore, -⟩ := Thread.step_cases hs
  obtain ⟨ws, more, hext, -⟩ := handle_moves choice s.pool.shared s.reset.own o
  rw [← hstore] at hext
  exact ⟨h.checking.beside hg.sublist.1 hg.sublist.2 hext.seq, g', hreset', hsteps.replaces hg⟩

theorem Inv.step (h : Inv A users call s) {a : ResetAct}
    (ha : ∀ choice o k, a = .reset choice → s.reset.prog = .call o k → A o choice)
    (hs : s.step a = some s') : Inv A users call s' := by
  cases a with
  | check registered m thresholds =>
      cases hs
      exact h.check registered m thresholds
  | advance i choice =>
      obtain ⟨pool, hpool, rfl⟩ := Option.map_eq_some_iff.mp hs
      exact h.advance hpool
  | reset choice =>
      obtain ⟨r, hr, rfl⟩ := Option.map_eq_some_iff.mp hs
      exact h.operation (fun o k hprog => ha choice o k rfl hprog) hr

end Resetting

/-- The ids of the rows are distinct, and below the next ones. -/
structure Ordered (st : Store) : Prop where
  monitors : Apart (Db.monitorIds st.db) [] st.seq.monitors
  checkResults : Apart (st.db.checkResults.map (·.id)) [] st.seq.checkResults
  alerts : Apart (st.db.alerts.map (·.id)) [] st.seq.alerts

/-- The check results and alerts of some monitors are gone. -/
def Gone (monitors : List Int) (db : Db) : Prop :=
  (∀ r ∈ db.checkResults, r.monitorId ∉ monitors) ∧ ∀ a ∈ db.alerts, a.monitorId ∉ monitors

/-- Nor do checks record any: the monitors are gone as well. -/
theorem Restored.gone {userId : Int} {monitors : List DemoMonitor} {before after db : Db}
    (h : Restored userId monitors before after) (hdb : Grown after db) :
    Gone (before.ownedBy userId) db := by
  have hrows : ∀ {α : Type} {monitorId : α → Int} {rows rows' : List α},
      Appended monitorId (Db.monitorIds after) (rows.filter (monitorId · ∉ before.ownedBy userId))
        rows' → ∀ r ∈ rows', monitorId r ∉ before.ownedBy userId := by
    rintro α monitorId rows rows' ⟨new, rfl, hnew⟩ r hr
    rcases List.mem_append.mp hr with hr | hr
    · exact of_decide_eq_true (List.mem_filter.mp hr).2
    · exact fun hmem => h.fresh _ hmem (hnew r hr)
  exact ⟨hrows (h.checkResults ▸ hdb.checkResults), hrows (h.alerts ▸ hdb.alerts)⟩

/-- One operation of the reset replaces the monitors of the account by those of the manifest, what
the old ones had recorded is gone, and the other operations change nothing. -/
def Resetting.Replaced (s : Resetting) (call : ResetCall) (userId : Int) : Prop :=
  ∃ monitors before after, call.Manifest monitors ∧ ChangedOnce s.steps before after ∧
    Restored userId monitors before after ∧ Grown after s.pool.shared.db ∧
    Gone (before.ownedBy userId) s.pool.shared.db

/-- In the run, the next operation of the reset is done under a choice. -/
def ResetCall.Sends (call : ResetCall) (st : Store) (acts : List ResetAct) (o : Op)
    (choice : Choice) : Prop :=
  ∃ s k, Takes Resetting.step (.start call st) acts s (.reset choice) ∧ s.reset.prog = .call o k

/-- **A reset replaces exactly what the demo account has**, whatever fails in it and whatever checks
are committed between its statements. If it succeeds and there is an account, the account is
replaced. If there is no account for it, none of its operations changes the tables. If it fails,
none does, or the reply to its commit was lost: then the account is replaced all the same. No key is
in the way, unless the environment says that one is. -/
theorem reset_replaces (call : ResetCall) (st : Store) (hst : Ordered st) (acts : List ResetAct)
    (s : Resetting)
    (hrun : Guarded Resetting.step (Resetting.Delivers call) (.start call st) acts s)
    (r : Option ResetError) (hend : s.reset.result = some r) :
    (r = none → call.email ≠ "" → ∀ userId, demoUser call.email st.db.users = some userId →
      s.Replaced call userId) ∧
    (call.email = "" ∨ demoUser call.email st.db.users = none → Unchanged s.steps) ∧
    (∀ err, r = some err → Unchanged s.steps ∨
      ∃ e choice userId, err = .commit e ∧ call.Sends st acts .commit choice ∧
        choice.fault = .lostReply e ∧ demoUser call.email st.db.users = some userId ∧
          s.Replaced call userId) ∧
    ∀ err, r = some err → refusal err = some uniqueViolation →
      ∃ o choice, call.Sends st acts o choice ∧
        (choice.fault = .fails uniqueViolation ∨ choice.fault = .lostReply uniqueViolation) := by
  let A : Op → Choice → Prop := fun o choice =>
    choice.file = call.content ∧ call.Sends st acts o choice
  have hstart : Resetting.Inv A st.db.users call (.start call st) := by
    refine ⟨⟨hst.checkResults, hst.alerts, fun t ht => absurd ht List.not_mem_nil⟩, none, ?_, ?_⟩
    · exact resetDemoAccount_within (fun _ _ h => h.1) ⟨rfl, hst.monitors⟩
    · exact fun p hp => absurd hp List.not_mem_nil
  obtain ⟨g, hreset, hsteps⟩ := (hrun.takes.invariant (I := Resetting.Inv A st.db.users call)
    (fun s a s' h ha hs => h.step (fun choice o k hchoice hprog => by
      subst hchoice
      exact ⟨ha.1, s, k, ha.2, hprog⟩) hs) hstart).reset
  rw [Thread.prog_of_result hend] at hreset
  have hends : Ends A st.db.users call g r := hreset
  cases hends with
  | failed h =>
      refine ⟨fun hr => (nomatch hr), fun _ => hsteps, fun _ _ => .inl hsteps,
        fun err herr hunique => ?_⟩
      cases herr
      obtain ⟨o, choice, hchoice, hfault⟩ := h hunique
      exact ⟨o, choice, hchoice.2, .inl hfault⟩
  | nobody h =>
      refine ⟨fun _ hemail userId huser => ?_, fun _ => hsteps, fun err herr => (nomatch herr),
        fun err herr => (nomatch herr)⟩
      rcases h with h | h
      · exact absurd h hemail
      · exact absurd (h.symm.trans huser) (by simp)
  | @replaced userId _ _ _ _ hserves h hr =>
      have hreplaced : s.Replaced call userId :=
        ⟨_, _, _, hserves.manifest, hsteps.1, h, hsteps.2, h.gone hsteps.2⟩
      refine ⟨fun _ _ userId' huser => ?_, fun hno => ?_, fun err herr => ?_,
        fun err herr hunique => ?_⟩
      · obtain rfl := Option.some.inj (hserves.user.symm.trans huser)
        exact hreplaced
      · rcases hno with hno | hno
        · exact absurd hno hserves.email
        · exact absurd (hno.symm.trans hserves.user) (by simp)
      · rcases hr with rfl | ⟨e, choice, hchoice, hfault, rfl⟩
        · cases herr
        · cases herr
          exact .inr ⟨e, choice, userId, rfl, hchoice.2, hfault, hserves.user, hreplaced⟩
      · rcases hr with rfl | ⟨e, choice, hchoice, hfault, rfl⟩
        · cases herr
        · cases herr
          obtain rfl := Option.some.inj hunique
          exact ⟨.commit, choice, hchoice.2, .inr hfault⟩

def demoAccount (id : Int) (email : String) (isDemo : Bool) : User :=
  { id := id, name := "", lastName := "", username := email, email := email, password := "",
    createdAt := 0, updatedAt := 0, status := none, isActive := true, isDemo := isDemo }

/-- The demo account and another one, with a monitor each that has been checked once. -/
def demoStore : Store where
  db :=
    { users := [demoAccount 1 "demo@example.com" true, demoAccount 2 "owner@example.com" false]
      monitors := [demoRow 1 5 0 ⟨"old", "old", "https://example.com", 60, "http", none⟩,
        demoRow 2 6 0 ⟨"own", "own", "https://example.com", 60, "http", none⟩]
      checkResults := [⟨1, 5, "healthy", none, 0, none, none, 0⟩,
        ⟨2, 6, "healthy", none, 0, none, none, 0⟩]
      alerts := [] }
  seq := ⟨3, 7, 3, 1⟩
  log := []

def twoEntries : String := "[\x7b\"seed_key\":\"a\",...\x7d,\x7b\"seed_key\":\"b\",...\x7d]"

def demoCall : ResetCall where
  unmarshal data :=
    if data = twoEntries then
      .ok [⟨"a", "A", "https://a.example.com", 60, "http", none⟩,
        ⟨"b", "B", "https://b.example.com", 120, "http", none⟩]
    else .error "unexpected end of JSON input"
  email := "demo@example.com"
  path := "demo-monitors.json"
  content := .ok twoEntries

def delivered : Choice :=
  { Choice.calm 60 (.ok ⟨"healthy", 0, none, none, none⟩) with file := .ok twoEntries }

/-- A check of the demo account's monitor is committed after its check results are deleted. -/
def demoActs : List ResetAct :=
  [.check ["http"] ⟨5, "old", "https://example.com", "http", none, 60, none, none, 0⟩ [3]] ++
    List.replicate 4 (.reset delivered) ++ List.replicate 6 (.advance 0 delivered) ++
      List.replicate 6 (.reset delivered)

theorem demoStore_ordered : Ordered demoStore := by
  refine ⟨⟨?_, ?_⟩, ⟨?_, ?_⟩, ⟨?_, ?_⟩⟩ <;> decide

theorem reset_replaces_beside_check : ∃ s,
    Guarded Resetting.step (Resetting.Delivers demoCall) (.start demoCall demoStore) demoActs s ∧
      s.reset.result = some none ∧ s.pool.shared.log.length = 6 ∧ s.Replaced demoCall 1 := by
  have hexec : (exec Resetting.step (.start demoCall demoStore) demoActs).map
      (fun s => (s.reset.result, s.pool.shared.log.length)) = some (some none, 6) := by
    decide +kernel
  obtain ⟨s, hs, heq⟩ := Option.map_eq_some_iff.mp hexec
  obtain ⟨hend, hlog⟩ := Prod.mk.inj heq
  have hrun : Guarded Resetting.step (Resetting.Delivers demoCall) (.start demoCall demoStore)
      demoActs s := by
    refine Guarded.of_run (fun a ha s => ?_) (run_of_exec hs)
    cases a with
    | check | advance => trivial
    | reset choice =>
        obtain rfl : choice = delivered := by simpa [demoActs] using ha
        rfl
  exact ⟨s, hrun, hend, hlog, (reset_replaces demoCall demoStore demoStore_ordered demoActs s hrun
    none hend).1 rfl (by decide) 1 (by decide)⟩

/-- The reply to the commit does not arrive in time. -/
def undelivered : Choice :=
  { delivered with fault := .lostReply (.other "context deadline exceeded") }

def lostActs : List ResetAct :=
  List.replicate 8 (.reset delivered) ++ [.reset undelivered, .reset delivered]

/-- A reset that fails, although the account is replaced. -/
theorem reset_fails_replaced : ∃ s,
    Guarded Resetting.step (Resetting.Delivers demoCall) (.start demoCall demoStore) lostActs s ∧
      s.reset.result = some (some (.commit (.other "context deadline exceeded"))) ∧
      ¬ Unchanged s.steps := by
  have hexec : (exec Resetting.step (.start demoCall demoStore) lostActs).map
      (fun s => (s.reset.result, s.steps.all fun p => p.2.monitors = p.1.monitors)) =
        some (some (some (.commit (.other "context deadline exceeded"))), false) := by
    decide +kernel
  obtain ⟨s, hs, heq⟩ := Option.map_eq_some_iff.mp hexec
  obtain ⟨hend, hchanged⟩ := Prod.mk.inj heq
  refine ⟨s, Guarded.of_run (fun a ha s => ?_) (run_of_exec hs), hend, fun hunchanged => ?_⟩
  · cases a with
    | check | advance => trivial
    | reset choice =>
        rcases List.mem_append.mp ha with ha | ha
        · obtain rfl : choice = delivered := by simpa using ha
          rfl
        · obtain rfl | rfl : choice = undelivered ∨ choice = delivered := by simpa using ha
          · rfl
          · rfl
  · have hall : (s.steps.all fun p => p.2.monitors = p.1.monitors) = true :=
      List.all_eq_true.mpr fun p hp => decide_eq_true (congrArg Db.monitors (hunchanged p hp))
    rw [hchanged] at hall
    cases hall

end Sentinel.System
