import Sentinel.Database.Shared
import Sentinel.System.Operations
import Sentinel.Worker.Batches

/-!
# System — Pruning

What takes alerts away beside the checks that insert them: requests, resets of the demo account and
retention passes.

* `raised` are the alerts ever inserted, in order, and `ofMonitor` those of one monitor.
* `Whole`: changes that delete no alert of a monitor that they leave. Once a transaction has come
  to such changes, it has them when it commits, whatever others commit before (`Whole.rely`).
* `LeavesLast`: of the alerts of every monitor the last ones are left.
* `Prunes`: a writer that leaves the last from here on, one operation after another
  (`Prunes.step`).
-/

namespace Sentinel.Database

open Program

/-- The alert that a change inserts. -/
def Write.alert : Write → Option Alert
  | .insertAlert a => some a
  | _ => none

/-- The alerts ever inserted. -/
def raised (log : List Write) : List Alert := log.filterMap Write.alert

/-- The alerts of a monitor. -/
def ofMonitor (id : Int) (alerts : List Alert) : List Alert := alerts.filter (·.monitorId = id)

theorem raised_append (log ws : List Write) : raised (log ++ ws) = raised log ++ raised ws :=
  List.filterMap_append

theorem mem_ofMonitor {id : Int} {alerts : List Alert} {a : Alert} :
    a ∈ ofMonitor id alerts ↔ a ∈ alerts ∧ a.monitorId = id := by
  rw [ofMonitor, List.mem_filter, decide_eq_true_iff]

theorem raised_nil {ws : List Write} (h : ∀ w ∈ ws, w.alert = none) : raised ws = [] :=
  List.filterMap_eq_nil_iff.mpr h

/-! ### What changes make of the alerts -/

/-- Rows afterwards were there before, or are inserted, in this order. -/
theorem sublist_foldl {ρ : Type} (rows : Db → List ρ) (new : Write → Option ρ)
    (hone : ∀ w db, (rows (Write.apply db w)).Sublist (rows db ++ (new w).toList)) :
    ∀ {ws : List Write} {db : Db}, (rows (ws.foldl Write.apply db)).Sublist
      (rows db ++ ws.filterMap new)
  | [], db => List.sublist_append_left _ _
  | w :: ws, db => by
      have hnew : (w :: ws).filterMap new = (new w).toList ++ ws.filterMap new := by
        cases hw : new w <;> simp [hw]
      have ih : (rows (ws.foldl Write.apply (Write.apply db w))).Sublist
          (rows (Write.apply db w) ++ ws.filterMap new) := sublist_foldl rows new hone
      rw [hnew, ← List.append_assoc]
      exact ih.trans ((hone w db).append_right _)

theorem alerts_sublist (ws : List Write) (db : Db) :
    (ws.foldl Write.apply db).alerts.Sublist (db.alerts ++ raised ws) := by
  refine sublist_foldl (·.alerts) Write.alert fun w db => ?_
  cases w with
  | insertAlert a => exact List.Sublist.refl _
  | deleteMonitor | deleteAlert =>
      exact List.filter_sublist.trans (List.sublist_append_left _ _)
  | insertUser | setDemoUser | insertMonitor | setChecked | setFields | setSeeded | hide
  | insertCheckResult | deleteCheckResult => exact List.sublist_append_left _ _

/-- A monitor and the account it is of. -/
def Monitor.owner (m : Monitor) : Int × Int := (m.id, m.userId)

/-- The monitor that a change inserts, with its account. -/
def Write.owner : Write → Option (Int × Int)
  | .insertMonitor m => some m.owner
  | _ => none

/-- The monitors that were ever there, with their accounts. -/
def owners (first : Db) (log : List Write) : List (Int × Int) :=
  first.monitors.map Monitor.owner ++ log.filterMap Write.owner

theorem owners_fst (first : Db) (log : List Write) :
    (owners first log).map Prod.fst = first.monitors.map (·.id) ++ inserted log := by
  have hone : ∀ w : Write, w.owner.map Prod.fst = w.newMonitor := by
    intro w
    cases w <;> rfl
  simp only [owners, List.map_append, List.map_map, List.map_filterMap, hone]
  rfl

theorem owners_append (first : Db) (log ws : List Write) :
    owners first (log ++ ws) = owners first log ++ ws.filterMap Write.owner := by
  rw [owners, owners, List.filterMap_append, List.append_assoc]

/-- No change moves a monitor to another account. -/
theorem owners_sublist (ws : List Write) (db : Db) :
    ((ws.foldl Write.apply db).monitors.map Monitor.owner).Sublist (owners db ws) := by
  refine sublist_foldl (fun db => db.monitors.map Monitor.owner) Write.owner fun w db => ?_
  have hsame : ∀ (id : Int) (f : Monitor → Monitor), (∀ m, (f m).owner = m.owner) →
      ((db.onMonitor id f).monitors.map Monitor.owner).Sublist
        (db.monitors.map Monitor.owner ++ []) := by
    intro id f hf
    have heq : (db.onMonitor id f).monitors.map Monitor.owner =
        db.monitors.map Monitor.owner := by
      rw [Db.onMonitor, List.map_map]
      refine List.map_congr_left fun m _ => ?_
      rw [Function.comp_apply]
      split
      · exact hf m
      · rfl
    rw [heq, List.append_nil]
  cases w with
  | insertMonitor m =>
      rw [Write.apply, List.map_append]
      exact List.Sublist.refl _
  | setChecked | setFields | setSeeded | hide => exact hsame _ _ fun _ => rfl
  | deleteMonitor =>
      exact (List.filter_sublist.map _).trans (List.sublist_append_left _ _)
  | insertUser | setDemoUser | deleteCheckResult | insertCheckResult | insertAlert | deleteAlert =>
      exact List.sublist_append_left _ _

/-- Changes that insert no alert leave the alerts that are not deleted, on their own or with their
monitors. -/
theorem alerts_foldl : ∀ {ws : List Write} {db : Db}, (∀ w ∈ ws, w.alert = none) →
    (ws.foldl Write.apply db).alerts = db.alerts.filter fun a =>
      .deleteAlert a.id ∉ ws ∧ .deleteMonitor a.monitorId ∉ ws
  | [], db, _ => by simp
  | w :: ws, db, h => by
      obtain ⟨hw, hws⟩ := List.forall_mem_cons.mp h
      rw [List.foldl_cons, alerts_foldl hws]
      cases w with
      | insertAlert => cases hw
      | deleteMonitor id | deleteAlert id =>
          simp only [Write.apply, List.filter_filter]
          refine List.filter_congr fun a _ => ?_
          simp only [List.mem_cons, not_or, Bool.decide_and, decide_not, reduceCtorEq, decide_false,
            Bool.not_false, Bool.true_and, Write.deleteMonitor.injEq, Write.deleteAlert.injEq]
          cases decide (_ = id) <;> simp
      | _ => simp [Write.apply, Db.onMonitor]

/-- Every alert is of a monitor that is there. -/
def Referenced (db : Db) : Prop := ∀ a ∈ db.alerts, a.monitorId ∈ db.monitors.map (·.id)

theorem Referenced.apply {db : Db} {w : Write} (h : Referenced db)
    (hadmits : w.violates db = none) : Referenced (w.apply db) := by
  intro a ha
  cases w with
  | insertAlert b =>
      rcases List.mem_append.mp ha with ha | ha
      · exact h a ha
      · rw [List.mem_singleton.mp ha]
        exact Write.about_violates (w := .insertAlert b) rfl hadmits
  | insertMonitor m =>
      rw [Write.apply, List.map_append]
      exact List.mem_append_left _ (h a ha)
  | deleteMonitor id =>
      obtain ⟨ha, hid⟩ := List.mem_filter.mp ha
      obtain ⟨m, hm, heq⟩ := List.mem_map.mp (h a ha)
      exact List.mem_map.mpr ⟨m, List.mem_filter.mpr ⟨hm, heq ▸ hid⟩, heq⟩
  | setChecked | setFields | setSeeded | hide =>
      rw [Write.apply, Db.map_id_onMonitor]
      · exact h a ha
      · exact fun _ => rfl
  | deleteAlert => exact h a (List.mem_filter.mp ha).1
  | insertUser | setDemoUser | insertCheckResult | deleteCheckResult => exact h a ha

/-! ### Stores -/

/-- The tables are what the committed changes make of `first`, in which there is no alert, and no
number is drawn twice. -/
structure Traced (first : Db) (st : Store) : Prop where
  noAlerts : first.alerts = []
  replayed : replay first st.log = .ok st.db
  alerts : ((raised st.log).map (·.id)).Nodup
  monitors : (first.monitors.map (·.id) ++ inserted st.log).Nodup

/-- Others have committed changes. -/
def Rely (first : Db) (st st' : Store) : Prop :=
  (∃ ws, st'.log = st.log ++ ws ∧ replay st.db ws = .ok st'.db) ∧ Traced first st'

section Traced

variable {first : Db} {st st' : Store} {a b : Alert} {m : Monitor}

theorem Traced.alerts_sublist (h : Traced first st) : st.db.alerts.Sublist (raised st.log) := by
  have hsub := Database.alerts_sublist st.log first
  rwa [h.noAlerts, List.nil_append, ← replay_eq_foldl h.replayed] at hsub

theorem Traced.mem_raised (h : Traced first st) (ha : a ∈ st.db.alerts) : a ∈ raised st.log :=
  h.alerts_sublist.subset ha

theorem Traced.eq_of_id (h : Traced first st) (ha : a ∈ raised st.log) (hb : b ∈ raised st.log)
    (hid : a.id = b.id) : a = b :=
  List.inj_on_of_nodup_map h.alerts ha hb hid

theorem Traced.mem_owners (h : Traced first st) (hm : m ∈ st.db.monitors) :
    m.owner ∈ owners first st.log := by
  rw [replay_eq_foldl h.replayed] at hm
  exact (owners_sublist st.log first).subset (List.mem_map_of_mem hm)

/-- A monitor is of one account for all time. -/
theorem Traced.owner_unique (h : Traced first st) {id u v : Int} (hu : (id, u) ∈ owners first st.log)
    (hv : (id, v) ∈ owners first st.log) : u = v := by
  have hnodup := h.monitors
  rw [← owners_fst] at hnodup
  exact congrArg Prod.snd (List.inj_on_of_nodup_map hnodup hu hv rfl)

theorem Traced.referenced (h : Traced first st) : Referenced st.db := by
  refine replay_invariant (fun w _ db hadmits hdb => hdb.apply hadmits) (fun a ha => ?_)
    h.replayed
  rw [h.noAlerts] at ha
  cases ha

theorem Rely.trans {st'' : Store} (h : Rely first st st') (h' : Rely first st' st'') :
    Rely first st st'' := by
  obtain ⟨⟨ws, hlog, hreplay⟩, -⟩ := h
  obtain ⟨⟨vs, hlog', hreplay'⟩, htraced⟩ := h'
  refine ⟨⟨ws ++ vs, by rw [hlog', hlog, List.append_assoc], ?_⟩, htraced⟩
  rw [replay_append, hreplay]
  exact hreplay'

theorem Traced.rely_refl (h : Traced first st) : Rely first st st :=
  ⟨⟨[], (List.append_nil _).symm, rfl⟩, h⟩

theorem Traced.rely (h : Traced first st') {ws : List Write} (hext : st.Extends ws st') :
    Rely first st st' :=
  ⟨⟨ws, hext.log, hext.replayed⟩, h⟩

/-- What was raised stays raised. -/
theorem Rely.raised (h : Rely first st st') : raised st.log <+: raised st'.log := by
  obtain ⟨⟨ws, hlog, -⟩, -⟩ := h
  rw [hlog, raised_append]
  exact List.prefix_append _ _

theorem Rely.owners (h : Rely first st st') : owners first st.log <+: owners first st'.log := by
  obtain ⟨⟨ws, hlog, -⟩, -⟩ := h
  rw [hlog, owners_append]
  exact List.prefix_append _ _

/-- An alert that is there, and whose number was drawn before, was there before. -/
theorem Rely.mem_alerts (h : Rely first st st') (ha : a ∈ st'.db.alerts)
    (hid : a.id ∈ (Database.raised st.log).map (·.id)) : a ∈ st.db.alerts := by
  obtain ⟨⟨ws, hlog, hreplay⟩, htraced⟩ := h
  rw [replay_eq_foldl hreplay] at ha
  rcases List.mem_append.mp ((alerts_sublist ws st.db).subset ha) with ha | ha
  · exact ha
  · have hnodup := htraced.alerts
    rw [hlog, raised_append, List.map_append] at hnodup
    exact absurd rfl ((List.nodup_append.mp hnodup).2.2 _ hid _ (List.mem_map_of_mem ha))

end Traced

/-! ### Changes that take a monitor whole -/

/-- Of the alerts of every monitor the last ones are left. -/
def LeavesLast (db db' : Db) : Prop :=
  ∀ id, ofMonitor id db'.alerts <:+ ofMonitor id db.alerts

theorem leavesLast_refl (db : Db) : LeavesLast db db := fun _ => List.suffix_refl _

/-- A change that inserts no alert and deletes none on its own. -/
def Write.Sparing : Write → Prop
  | .insertAlert _ | .deleteAlert _ => False
  | _ => True

theorem Write.Sparing.alert {w : Write} (hw : w.Sparing) : w.alert = none := by
  cases w with
  | insertAlert => cases hw
  | _ => rfl

/-- Changes that insert no alert, and delete such alerts on their own as meet `P`. -/
structure Culls (P : Alert → Prop) (ws : List Write) (log : List Write) : Prop where
  quiet : ∀ w ∈ ws, w.alert = none
  culled : ∀ id, .deleteAlert id ∈ ws → ∃ a ∈ raised log, a.id = id ∧ P a

/-- Changes that insert no alert, and delete none of a monitor that they leave. -/
structure Whole (ws : List Write) (st : Store) : Prop where
  quiet : ∀ w ∈ ws, w.alert = none
  known : ∀ id, .deleteAlert id ∈ ws → id ∈ (raised st.log).map (·.id)
  spared : ∀ a ∈ st.db.alerts, .deleteAlert a.id ∈ ws → .deleteMonitor a.monitorId ∈ ws

section Whole

variable {first : Db} {P P' : Alert → Prop} {ws more : List Write} {st st' : Store}

theorem Culls.rely (h : Culls P ws st.log) (hst : Rely first st st') (hP : ∀ a, P a → P' a) :
    Culls P' ws st'.log where
  quiet := h.quiet
  culled id hid := by
    obtain ⟨a, ha, heq, hPa⟩ := h.culled id hid
    exact ⟨a, hst.raised.subset ha, heq, hP a hPa⟩

theorem Culls.append (h : Culls P ws st.log) (hmore : ∀ w ∈ more, w.Sparing) :
    Culls P (ws ++ more) st.log where
  quiet w hw := by
    rcases List.mem_append.mp hw with hw | hw
    · exact h.quiet w hw
    · exact (hmore w hw).alert
  culled id hid := by
    rcases List.mem_append.mp hid with hid | hid
    · exact h.culled id hid
    · exact (hmore _ hid).elim

/-- Changes that delete the monitors of the alerts they delete. -/
theorem Culls.whole (h : Culls P ws st.log) (htraced : Traced first st)
    (hP : ∀ a ∈ st.db.alerts, P a → .deleteMonitor a.monitorId ∈ ws) : Whole ws st where
  quiet := h.quiet
  known id hid := by
    obtain ⟨a, ha, rfl, -⟩ := h.culled id hid
    exact List.mem_map_of_mem ha
  spared a ha hid := by
    obtain ⟨b, hb, heq, hPb⟩ := h.culled _ hid
    obtain rfl := htraced.eq_of_id hb (htraced.mem_raised ha) heq
    exact hP b ha hPb

theorem whole_sparing (hws : ∀ w ∈ ws, w.Sparing) (st : Store) : Whole ws st where
  quiet w hw := (hws w hw).alert
  known _ hid := (hws _ hid).elim
  spared _ _ hid := (hws _ hid).elim

theorem Whole.append (h : Whole ws st) (hmore : ∀ w ∈ more, w.Sparing) :
    Whole (ws ++ more) st where
  quiet w hw := by
    rcases List.mem_append.mp hw with hw | hw
    · exact h.quiet w hw
    · exact (hmore w hw).alert
  known id hid := by
    rcases List.mem_append.mp hid with hid | hid
    · exact h.known id hid
    · exact (hmore _ hid).elim
  spared a ha hid := by
    rcases List.mem_append.mp hid with hid | hid
    · exact List.mem_append_left _ (h.spared a ha hid)
    · exact (hmore _ hid).elim

/-- **Whatever others commit, the changes still leave no monitor without some of its alerts.** -/
theorem Whole.rely (h : Whole ws st) (hst : Rely first st st') : Whole ws st' where
  quiet := h.quiet
  known id hid := (hst.raised.map _).subset (h.known id hid)
  spared a ha hid := h.spared a (hst.mem_alerts ha (h.known _ hid)) hid

/-- Numbers that are drawn change nothing of it. -/
theorem Whole.numbers (h : Whole ws st) (seq : Seq) : Whole ws { st with seq := seq } :=
  ⟨h.quiet, h.known, h.spared⟩

/-- Such changes leave the last of the alerts: all of a monitor, or none. -/
theorem Whole.leavesLast (h : Whole ws st) {db : Db} (hreplay : replay st.db ws = .ok db) :
    LeavesLast st.db db := by
  intro id
  rw [replay_eq_foldl hreplay, alerts_foldl h.quiet]
  by_cases hmonitor : .deleteMonitor id ∈ ws
  · have hnone : ofMonitor id (st.db.alerts.filter fun a =>
        .deleteAlert a.id ∉ ws ∧ .deleteMonitor a.monitorId ∉ ws) = [] := by
      refine List.eq_nil_iff_forall_not_mem.mpr fun a ha => ?_
      obtain ⟨hleft, rfl⟩ := mem_ofMonitor.mp ha
      exact (of_decide_eq_true (List.mem_filter.mp hleft).2).2 hmonitor
    rw [hnone]
    exact List.nil_suffix
  · have hall : ofMonitor id (st.db.alerts.filter fun a =>
        .deleteAlert a.id ∉ ws ∧ .deleteMonitor a.monitorId ∉ ws) = ofMonitor id st.db.alerts := by
      rw [ofMonitor, ofMonitor, List.filter_filter]
      refine List.filter_congr fun a ha => ?_
      by_cases hid : a.monitorId = id
      · have hmonitor' : .deleteMonitor a.monitorId ∉ ws := hid ▸ hmonitor
        have halert : .deleteAlert a.id ∉ ws := fun h' => hmonitor' (h.spared a ha h')
        simp [hid, hmonitor, halert]
      · simp [hid]
    rw [hall]

end Whole

end Sentinel.Database

namespace Sentinel.System

open Program Database Api Worker Sweep

/-! ### Programs -/

/-- Beside others the program leaves the last of the alerts with every operation. It ends in `Q`. -/
abbrev Leaving {α : Type} (first : Db) (Q : Store → Session → α → Prop) (p : Client α) (st : Store)
    (s : Session) : Prop :=
  Within (fun _ _ => True) (Rely first) (fun _ st _ st' => LeavesLast st.db st'.db)
    (fun st s (_ : Unit) r => Q st s r) p st s ()

section Leaving

variable {α : Type} {first : Db} {Q : Store → Session → α → Prop} {st : Store} {s : Session}
  {ws : List Write}

theorem leavesLast_idles : Idles fun (_ : Unit) st (_ : Unit) st' => LeavesLast st.db st'.db :=
  fun _ st _ => leavesLast_refl st.db

/-- A program that deletes no alert on its own. -/
theorem leaving_sparing {p : Client α} (hp : p.Only (·.Writes Write.Sparing)) :
    ∀ {st : Store} {s : Session}, (∀ w ∈ s.writes, w.Sparing) →
      Leaving first (fun _ _ _ => True) p st s := by
  induction p with
  | ret a => exact fun _ => trivial
  | call o k ih =>
      intro st s hs choice st' _ _
      obtain ⟨ho, hk⟩ := hp
      obtain ⟨⟨ws, hext, hws⟩, hown⟩ := handle_writes ho choice st' hs
      exact ⟨(), (whole_sparing hws st').leavesLast hext.replayed, ih _ (hk _) hown⟩

/-- The commit of such changes, whether or not its reply arrives. -/
theorem leaving_commit {k : Except DbError Unit → Client α} (h : Whole ws st)
    (hk : ∀ st r, Leaving first Q (k r) st .idle) :
    Leaving first Q (Client.commit >>= k) st (.open_ ws) := by
  intro choice st' _ hst
  refine ⟨(), ?_⟩
  show LeavesLast st'.db ((Session.open_ ws).commit choice st').1.db ∧
    Leaving first Q (k ((Session.open_ ws).commit choice st').2.2)
      ((Session.open_ ws).commit choice st').1 ((Session.open_ ws).commit choice st').2.1
  have hcases := Session.commit_cases choice st' (.open_ ws)
  generalize (Session.open_ ws).commit choice st' = r at hcases ⊢
  cases hcases with
  | refused => exact ⟨leavesLast_refl _, hk _ _⟩
  | committed hs hreplay =>
      cases hs
      exact ⟨(h.rely hst).leavesLast hreplay, hk _ _⟩

theorem sparing_rollback : Op.rollback.Writes Write.Sparing :=
  Op.writes_of_makes fun _ hq => (nomatch hq)

/-- What is thrown rolls back. -/
theorem leaving_rollback {a : α} (hs : s.writes = []) :
    Leaving first (fun _ _ _ => True) (Client.rollback >>= fun _ => pure a) st s := by
  refine leaving_sparing (Prog.only_bind (fun _ => Prog.only_ret) (Prog.only_op sparing_rollback)) ?_
  rw [hs]
  exact fun w hw => absurd hw List.not_mem_nil

/-- A statement of a request, in a transaction. -/
theorem leaving_query {q : Sql} {k : q.Out → Client (Except ApiError α)}
    {Q : Store → Session → Except ApiError α → Prop} (hq : q.noRows = none)
    (herr : ∀ st e, Q st .aborted (.error e))
    (hok : ∀ st' moment seq out more, Rely first st st' →
      q.plan moment st'.seq (ws.foldl Write.apply st'.db) = (seq, .ok (out, more)) →
      Leaving first Q (k out) { st' with seq := seq } (.open_ (ws ++ more))) :
    Leaving first Q (query q k) st (.open_ ws) :=
  within_sql leavesLast_idles hq (fun _ _ _ _ _ _ => herr _ _)
    fun st' moment seq out more _ hst hplan _ => hok st' moment seq out more hst hplan

end Leaving

/-! ### The deletion of a monitor -/

/-- A transaction ends with changes that can be committed, or with none. -/
def Concluded {α : Type} (st : Store) (s : Session) : Except ApiError α → Prop
  | .ok _ => ∃ ws, s = .open_ ws ∧ Whole ws st
  | .error _ => s.writes = []

theorem transaction_leaving {α : Type} {first : Db} {body : Client (Except ApiError α)} {st : Store}
    (hbody : ∀ st, Leaving first Concluded body st (.open_ [])) :
    Leaving first (fun _ _ _ => True) (transaction body) st .idle := by
  refine within_begin leavesLast_idles (fun _ _ _ => trivial) fun st' _ => ?_
  refine Prog.amid_bind.mpr (Prog.Amid.mono ?_ (hbody st'))
  rintro st s ⟨⟩ r hr
  cases r with
  | error e => exact leaving_rollback hr
  | ok a =>
      obtain ⟨ws, rfl, hwhole⟩ := hr
      refine leaving_commit hwhole fun st r => ?_
      cases r <;> trivial

section Delete

variable {first : Db} {st : Store} {monitorId : Int}

theorem foldl_deletes (results alerts : List Int) (db : Db) :
    (results.map Write.deleteCheckResult ++ alerts.map Write.deleteAlert).foldl Write.apply db =
      { db with
        checkResults := db.checkResults.filter (·.id ∉ results)
        alerts := db.alerts.filter (·.id ∉ alerts) } := by
  rw [List.foldl_append, foldl_deleteCheckResult, foldl_deleteAlert]

/-- Deletes of rows by their ids, of alerts that meet `P`. -/
theorem culls_deletes {P : Alert → Prop} {results alerts : List Int} (htraced : Traced first st)
    (halerts : ∀ id ∈ alerts, ∃ a ∈ st.db.alerts, a.id = id ∧ P a) :
    Culls P (results.map .deleteCheckResult ++ alerts.map .deleteAlert) st.log where
  quiet w hw := by
    rcases List.mem_append.mp hw with hw | hw
    · obtain ⟨id, -, rfl⟩ := List.mem_map.mp hw
      rfl
    · obtain ⟨id, -, rfl⟩ := List.mem_map.mp hw
      rfl
  culled id hid := by
    rcases List.mem_append.mp hid with hid | hid
    · obtain ⟨_, -, heq⟩ := List.mem_map.mp hid
      cases heq
    · obtain ⟨_, hmem, heq⟩ := List.mem_map.mp hid
      cases heq
      obtain ⟨a, ha, heq, hPa⟩ := halerts id hmem
      exact ⟨a, htraced.mem_raised ha, heq, hPa⟩

/-- The deletion of a monitor deletes its alerts and no others. An alert that is raised after they
are looked for goes with the monitor. -/
theorem deleteMonitor_leaving (userId : Int) :
    Leaving first (fun _ _ _ => True) (deleteMonitor monitorId userId) st .idle := by
  refine within_read leavesLast_idles rfl (fun moment a db b out ws hplan => ?_)
    (fun _ _ _ _ => trivial) fun st₁ _ _ monitor hst₁ _ => ?_
  · cases hplan
    rfl
  · show Leaving first _ (if monitor = none then _ else _) _ _
    split
    · trivial
    · refine transaction_leaving fun st => ?_
      refine leaving_query rfl (fun _ _ => rfl) fun st₂ moment seq out more hst₂ hplan => ?_
      obtain ⟨results, rfl⟩ : ∃ ids : List Int, more = ids.map Write.deleteCheckResult := by
        cases hplan
        exact ⟨_, rfl⟩
      refine leaving_query rfl (fun _ _ => rfl) fun st₃ moment seq out more hst₃ hplan => ?_
      rw [List.nil_append, foldl_deleteCheckResult] at hplan
      cases hplan
      have hculls : Culls (·.monitorId = monitorId) ([] ++ results.map .deleteCheckResult ++
          ((st₃.db.alerts.filter (·.monitorId = monitorId)).map (·.id)).map .deleteAlert)
            st₃.log := by
        refine culls_deletes hst₃.2 fun id hid => ?_
        obtain ⟨a, ha, rfl⟩ := List.mem_map.mp hid
        obtain ⟨ha, hmonitor⟩ := mem_ofMonitor.mp ha
        exact ⟨a, ha, rfl, hmonitor⟩
      refine leaving_query rfl (fun _ _ => rfl) fun st₄ moment seq out more hst₄ hplan => ?_
      obtain rfl : more = [.deleteMonitor monitorId] := by
        simp only [Sql.plan] at hplan
        split at hplan <;> cases hplan
        rfl
      -- the alerts that are culled are of the monitor that goes
      have hwhole : Whole ([] ++ results.map .deleteCheckResult ++
          ((st₃.db.alerts.filter (·.monitorId = monitorId)).map (·.id)).map .deleteAlert ++
            [.deleteMonitor monitorId]) st₄ := by
        refine Culls.whole (Culls.append (hculls.rely hst₄ fun _ h => h) fun w hw => ?_) hst₄.2
          fun a _ ha => ?_
        · rw [List.mem_singleton.mp hw]
          trivial
        · rw [ha]
          exact List.mem_append_right _ List.mem_cons_self
      exact ⟨_, rfl, hwhole.numbers seq⟩

end Delete

/-! ### A reset -/

section Reset

variable {first : Db} {st : Store} {userId : Int} {ws : List Write}

/-- The inserts of a reset, and its commit. -/
theorem restore_leaving : ∀ {monitors : List DemoMonitor} {st : Store} {ws : List Write},
    Whole ws st → Leaving first (fun _ s _ => s.writes = []) (restore userId monitors) st
      (.open_ ws)
  | [], st, ws, h => by
      refine leaving_commit h fun st r => ?_
      cases r <;> rfl
  | m :: monitors, st, ws, h => by
      refine within_sql leavesLast_idles rfl (fun _ _ _ _ _ _ => rfl)
        fun st' moment seq out more db hst hplan _ => ?_
      refine restore_leaving ((Whole.append (h.rely hst) fun w hw => ?_).numbers seq)
      cases hplan
      rw [List.mem_singleton.mp hw]
      trivial

/-- The monitors of an account, among the alerts of which those are that a reset picks. -/
def Owned (first : Db) (userId : Int) (log : List Write) (a : Alert) : Prop :=
  (a.monitorId, userId) ∈ owners first log

/-- **A reset deletes no alert of a monitor that it leaves**: what it picks is of the account, and
all monitors of the account that are still there go. -/
theorem replaceOwned_leaving (monitors : List DemoMonitor) :
    Leaving first (fun _ s _ => s.writes = []) (replaceOwned userId monitors) st (.open_ []) := by
  refine within_sql leavesLast_idles rfl (fun _ _ _ _ _ _ => rfl)
    fun st₁ moment seq out more db hst₁ hplan _ => ?_
  obtain ⟨results, rfl⟩ : ∃ ids : List Int, more = ids.map Write.deleteCheckResult := by
    cases hplan
    exact ⟨_, rfl⟩
  refine within_sql leavesLast_idles rfl (fun _ _ _ _ _ _ => rfl)
    fun st₂ moment seq out more db hst₂ hplan _ => ?_
  rw [List.nil_append, foldl_deleteCheckResult] at hplan
  obtain ⟨alerts, rfl, halerts⟩ : ∃ ids : List Int, more = ids.map Write.deleteAlert ∧
      ∀ id ∈ ids, ∃ a ∈ st₂.db.alerts, a.id = id ∧ Owned first userId st₂.log a := by
    cases hplan
    refine ⟨_, rfl, fun id hid => ?_⟩
    obtain ⟨a, ha, rfl⟩ := List.mem_map.mp hid
    obtain ⟨ha, howned⟩ := List.mem_filter.mp ha
    obtain ⟨m, hm, heq⟩ := List.mem_map.mp (List.contains_iff_mem.mp howned)
    obtain ⟨hm, huser⟩ := List.mem_filter.mp hm
    have howner := hst₂.2.mem_owners hm
    rw [Monitor.owner, heq, of_decide_eq_true huser] at howner
    exact ⟨a, ha, rfl, howner⟩
  have hculls : Culls (Owned first userId st₂.log)
      ([] ++ results.map .deleteCheckResult ++ alerts.map .deleteAlert) st₂.log :=
    culls_deletes hst₂.2 halerts
  refine within_sql leavesLast_idles rfl (fun _ _ _ _ _ _ => rfl)
    fun st₃ moment seq out more db hst₃ hplan _ => ?_
  rw [List.nil_append, foldl_deletes] at hplan
  obtain rfl : more = (st₃.db.ownedBy userId).map .deleteMonitor := by
    cases hplan
    rfl
  refine restore_leaving (Whole.numbers ?_ seq)
  refine Culls.whole (Culls.append (hculls.rely hst₃ fun a h => hst₃.owners.subset h)
    fun w hw => ?_) hst₃.2 fun a ha howned => ?_
  · obtain ⟨id, -, rfl⟩ := List.mem_map.mp hw
    trivial
  · -- the monitor of the alert is there, and it is still of the account
    obtain ⟨m, hm, heq⟩ := List.mem_map.mp (hst₃.2.referenced a ha)
    have howner := hst₃.2.mem_owners hm
    rw [Monitor.owner, heq] at howner
    have huser : m.userId = userId := hst₃.2.owner_unique howner howned
    refine List.mem_append_right _ (List.mem_map_of_mem ?_)
    exact List.mem_map.mpr ⟨m, List.mem_filter.mpr ⟨hm, decide_eq_true huser⟩, heq⟩

theorem resetDemoAccount_leaving (unmarshal : String → Except String (List DemoMonitor))
    (email manifestPath : String) :
    Leaving first (fun _ _ _ => True) (resetDemoAccount unmarshal email manifestPath) st .idle := by
  unfold resetDemoAccount
  split
  · trivial
  · refine within_readFile leavesLast_idles fun choice st₁ _ _ => ?_
    cases choice.file with
    | error err => trivial
    | ok data =>
        simp only
        split
        · trivial
        · rename_i monitors _
          refine within_read leavesLast_idles rfl (fun moment a db b out ws hplan => ?_)
            (fun _ _ _ _ => trivial) fun st₂ moment seq account _ hplan => ?_
          · cases hplan
            rfl
          · cases account with
            | none => trivial
            | some userId =>
                refine within_begin leavesLast_idles (fun _ _ _ => trivial) fun st₃ _ => ?_
                refine Prog.amid_bind.mpr (Prog.Amid.mono ?_ (replaceOwned_leaving monitors))
                rintro st s ⟨⟩ r hr
                exact leaving_rollback hr

end Reset

/-! ### Retention -/

/-- The alerts of every monitor are in the order of their times, and no two are of the same time. -/
def InOrder (db : Db) : Prop :=
  ∀ id, (ofMonitor id db.alerts).Pairwise fun a b => a.createdAt < b.createdAt

/-- If other transactions hold a lock on an alert, they hold one on the later alerts of its
monitor. -/
def LockedFrom (db : Db) (locked : List Int) : Prop :=
  ∀ a ∈ db.alerts, ∀ b ∈ db.alerts, a.monitorId = b.monitorId → a.createdAt < b.createdAt →
    a.id ∈ locked → b.id ∈ locked

instance (db : Db) (locked : List Int) : Decidable (LockedFrom db locked) :=
  inferInstanceAs (Decidable (∀ a ∈ db.alerts, ∀ b ∈ db.alerts, _))

section Retention

variable {db : Db} {locked : List Int} {cutoff : Time} {limit : Nat}

/-- **A batch deletes the first alerts of every monitor**, as long as no lock is in its way. -/
theorem deleteRows_leavesLast {table : RetentionTable} (hids : (db.alerts.map (·.id)).Nodup)
    (hordered : InOrder db) (hlocked : LockedFrom db locked) :
    LeavesLast db (deleteRows table (expired (retained table db) cutoff limit locked) db) := by
  cases table with
  | checkResult => exact fun _ => List.suffix_refl _
  | alert =>
      intro id
      set ids := expired (retained .alert db) cutoff limit locked with hdef
      have hcomm : ofMonitor id (deleteRows .alert ids db).alerts =
          (ofMonitor id db.alerts).filter (·.id ∉ ids) := by
        rw [ofMonitor, ofMonitor, deleteRows, List.filter_filter, List.filter_filter]
        exact List.filter_congr fun a _ => Bool.and_comm _ _
      have hpicked : ∀ a ∈ db.alerts, a.id ∈ ids ↔ (a.createdAt, a.id) ∈
          (due older (expiredAt cutoff locked) (retained .alert db)).take limit := by
        intro a ha
        rw [hdef, expired_eq]
        constructor
        · intro hid
          obtain ⟨r, hr, heq⟩ := List.mem_map.mp hid
          obtain ⟨b, hb, rfl⟩ := List.mem_map.mp (mem_due.mp (List.mem_of_mem_take hr)).1
          rwa [List.inj_on_of_nodup_map hids hb ha heq] at hr
        · exact fun hmem => List.mem_map.mpr ⟨_, hmem, rfl⟩
      rw [hcomm]
      refine filter_suffix ((hordered id).imp_of_mem fun {a b} ha hb hlt => ?_)
      obtain ⟨ha, hida⟩ := mem_ofMonitor.mp ha
      obtain ⟨hb, hidb⟩ := mem_ofMonitor.mp hb
      simp only [decide_eq_true_eq]
      refine mt fun hgone => (hpicked a ha).mpr ?_
      have hdue := (hpicked b hb).mp hgone
      -- the earlier alert is expired as well, and nobody has locked it
      have hexpired := (mem_due.mp (List.mem_of_mem_take hdue)).2
      rw [expiredAt, Bool.and_eq_true, decide_eq_true_iff, Bool.not_eq_true'] at hexpired
      obtain ⟨hcutoff, hunlocked⟩ := hexpired
      have hnotlocked : a.id ∉ locked := fun h => by
        have hmem := hlocked a ha b hb (hida.trans hidb.symm) hlt h
        rw [List.contains_iff_mem.mpr hmem] at hunlocked
        cases hunlocked
      refine mem_take_due older_linear hdue (List.mem_map.mpr ⟨a, ha, rfl⟩) ?_ ?_
      · rw [expiredAt, Bool.and_eq_true, decide_eq_true_iff]
        exact ⟨Int.lt_trans hlt hcutoff, by simpa using hnotlocked⟩
      · exact older_iff.mpr (.inl hlt)

end Retention

/-! ### Writers -/

/-- A writer leaves the last of the alerts from here on. -/
inductive Prunes (first : Db) (st : Store) (t : Thread Op Op.Res Session Bool) : Prop where
  | leaves (h : Leaving first (fun _ _ _ => True) t.prog st t.own)
  | retains (hsends : t.prog.Only RetentionSends) (hidle : t.own = .idle)

section Writers

variable {first : Db} {st st' : Store} {t t' : Thread Op Op.Res Session Bool}

/-- A statement that deletes no alert on its own. -/
theorem sparing_sql {q : Sql} (h : ∀ w, q.Makes w → w.Sparing) :
    (Op.sql q).Writes Write.Sparing := by
  refine Op.writes_of_makes fun q' hq' => ?_
  cases hq'
  exact h

theorem createMonitor_sparing (rt : Runtime) (dto : CreateMonitorDto) (user : Requester) :
    (createMonitor rt dto user).Only (·.Writes Write.Sparing) := by
  have hnow : Op.now.Writes Write.Sparing := Op.writes_of_makes fun _ hq => (nomatch hq)
  unfold createMonitor
  split
  · trivial
  · split
    · trivial
    · refine only_query (sparing_sql fun w hw => (nomatch hw)) fun n => ?_
      unfold insertWithinLimit
      split
      · trivial
      · refine Prog.only_bind (fun now => ?_) (Prog.only_op hnow)
        refine only_query (sparing_sql fun w hw => ?_) fun _ => trivial
        cases hw
        trivial

theorem updateMonitor_sparing (rt : Runtime) (monitorId : Int) (user : Requester)
    (dto : UpdateMonitorDto) :
    (updateMonitor rt monitorId user dto).Only (·.Writes Write.Sparing) := by
  refine only_query (sparing_sql fun w hw => (nomatch hw)) fun monitor => ?_
  split
  · trivial
  · split
    · trivial
    · split
      · trivial
      · split
        · trivial
        · refine only_query (sparing_sql fun w hw => ?_) fun _ => trivial
          cases hw
          trivial

theorem prunes_program (w : Writer) : Prunes first st ⟨w.program, .idle⟩ := by
  have hret : ∀ {α : Type} {p : Client α} (f : α → Bool),
      Leaving first (fun _ _ _ => True) p st .idle →
        Leaving first (fun _ _ _ => True) (p >>= fun r => pure (f r)) st .idle :=
    fun f hp => Prog.amid_bind.mpr (Prog.Amid.mono (fun _ _ _ _ _ => trivial) hp)
  have hnone : ∀ w ∈ Session.idle.writes, w.Sparing := fun w hw => absurd hw List.not_mem_nil
  cases w with
  | create rt dto user =>
      exact .leaves (hret _ (leaving_sparing (createMonitor_sparing rt dto user) hnone))
  | update rt monitorId user dto =>
      exact .leaves (hret _ (leaving_sparing (updateMonitor_sparing rt monitorId user dto) hnone))
  | delete monitorId userId => exact .leaves (hret _ (deleteMonitor_leaving userId))
  | reset unmarshal email manifestPath =>
      exact .leaves (hret _ (resetDemoAccount_leaving unmarshal email manifestPath))
  | retain cfg =>
      exact .retains (Prog.only_bind (fun _ => Prog.only_ret) (runRetentionPass_sends cfg)) rfl

theorem Prunes.rely (h : Prunes first st t) (hst : Rely first st st') : Prunes first st' t := by
  cases h with
  | leaves h =>
      refine .leaves (Prog.Amid.rely (fun _ _ _ h h' => h.trans h') (fun _ _ _ _ _ _ _ => ?_) h hst)
      trivial
  | retains hsends hidle => exact .retains hsends hidle

/-- **Whatever a writer does next, it leaves the last of the alerts of every monitor.** -/
theorem Prunes.step (h : Prunes first st t) (htraced : Traced first st) (hordered : InOrder st.db)
    {choice : Choice} (hlocked : LockedFrom st.db choice.moment.locked)
    (hs : t.step handle choice st = some (st', t')) :
    LeavesLast st.db st'.db ∧ Prunes first st' t' := by
  cases h with
  | leaves h =>
      obtain ⟨⟨⟩, hleaves, h'⟩ := Thread.step_amid htraced.rely_refl h (fun _ _ _ => trivial) hs
      exact ⟨hleaves, .leaves h'⟩
  | retains hsends hidle =>
      obtain ⟨p, own⟩ := t
      obtain ⟨o, k, rfl, rfl, rfl⟩ := Thread.step_cases hs
      obtain rfl : own = .idle := hidle
      obtain ⟨ho, hk⟩ := hsends
      cases ho with
      | ctxErr | now => exact ⟨leavesLast_refl _, .retains (hk _) rfl⟩
      | delete table cutoff limit =>
          refine ⟨?_, .retains (hk _) (send_idle choice st _)⟩
          rcases deleteExpired_send choice st table cutoff limit with ⟨e, -, hsent⟩ | ⟨hdb, -, -⟩
          · show LeavesLast st.db (Session.idle.send choice st _).1.db
            rw [hsent]
            exact leavesLast_refl _
          · show LeavesLast st.db (Session.idle.send choice st _).1.db
            rw [hdb]
            exact deleteRows_leavesLast ((htraced.alerts_sublist.map _).nodup htraced.alerts) hordered
              hlocked

end Writers

end Sentinel.System
