import Mathlib.Data.List.Nodup
import Sentinel.Api.Reads
import Sentinel.Database.Ledger
import Sentinel.Library.Transition

/-!
# System — Isolation

The requests of other users beside what belongs to one user. Each of them looks for the owner of a
monitor in one statement and acts on the id in a later one, with other requests in between.

* `Tenant.of`: what belongs to a user.
* `Isolated`: it is as it was. `Spares` are the changes that leave it so.
* `Descends`: the monitors that are there were there before, with the same owner, or are new.
* `Isolates`: a request keeps the one and guarantees the other with every operation, whatever
  tables it finds.
* `tenant_isolation`: so do any number of requests, in any order of their operations.
-/

namespace Sentinel.System

open Program Database Api Transition

/-- The monitors of a user, and the check results and alerts of these monitors. -/
structure Tenant where
  monitors : List Monitor
  checkResults : List CheckResult
  alerts : List Alert
deriving DecidableEq

def Tenant.of (userId : Int) (db : Db) : Tenant :=
  { monitors := db.monitors.filter fun m => m.userId = userId
    checkResults := db.checkResults.filter fun r => (db.ownedBy userId).contains r.monitorId
    alerts := db.alerts.filter fun a => (db.ownedBy userId).contains a.monitorId }

def Tenant.ids (mine : Tenant) : List Int := mine.monitors.map (·.id)

/-! ### Changes -/

section Changes

variable {u : Int} {mine : Tenant} {db : Db}

/-- A change of what belongs to others. -/
def Spares (u : Int) (mine : Tenant) : Write → Prop
  | .insertMonitor m => m.userId ≠ u
  | .setFields id _ | .deleteMonitor id => id ∉ mine.ids
  | .deleteCheckResult id => id ∉ mine.checkResults.map (·.id)
  | .deleteAlert id => id ∉ mine.alerts.map (·.id)
  | _ => False

/-- What is filtered out beforehand would be filtered out anyway. -/
theorem filter_spared {α : Type} {p q : α → Bool} {rows : List α}
    (h : ∀ a ∈ rows, p a = true → q a = true) : (rows.filter q).filter p = rows.filter p := by
  rw [List.filter_filter]
  refine List.filter_congr fun a ha => ?_
  by_cases hp : p a = true
  · rw [hp, h a ha hp, Bool.and_self]
  · rw [Bool.eq_false_of_not_eq_true hp, Bool.false_and]

/-- Such a change leaves the monitors of the user. -/
theorem Spares.monitors {w : Write} (hw : Spares u mine w) (h : Tenant.of u db = mine) :
    (w.apply db).monitors.filter (fun m => m.userId = u) =
      db.monitors.filter fun m => m.userId = u := by
  have hids : ∀ {id : Int}, id ∉ mine.ids → ∀ m ∈ db.monitors, m.userId = u → m.id ≠ id := by
    rintro id hid m hm huser rfl
    rw [← h] at hid
    exact hid (List.mem_map_of_mem (List.mem_filter.mpr ⟨hm, decide_eq_true huser⟩))
  cases w with
  | insertMonitor m =>
      have hne : ¬ m.userId = u := hw
      simp [Write.apply, hne]
  | setFields id patch =>
      have huser : ∀ m : Monitor, (if m.id = id then m.patched patch else m).userId = m.userId := by
        intro m
        split <;> rfl
      rw [Write.apply, Db.onMonitor, List.filter_map]
      simp only [Function.comp_def, huser]
      refine (List.map_congr_left fun m hm => ?_).trans (List.map_id _)
      obtain ⟨hm, hmine⟩ := List.mem_filter.mp hm
      exact if_neg (hids hw m hm (of_decide_eq_true hmine))
  | deleteMonitor id =>
      refine filter_spared fun m hm huser => ?_
      exact decide_eq_true (hids hw m hm (of_decide_eq_true huser))
  | deleteCheckResult id | deleteAlert id => rfl
  | insertUser | setDemoUser | setChecked | setSeeded | hide | insertCheckResult | insertAlert =>
      cases hw

/-- **A change of what belongs to others leaves what belongs to the user.** -/
theorem Spares.tenant {w : Write} (hw : Spares u mine w) (h : Tenant.of u db = mine) :
    Tenant.of u (w.apply db) = mine := by
  have hmonitors := hw.monitors h
  have howned : (w.apply db).ownedBy u = db.ownedBy u :=
    congrArg (List.map fun m : Monitor => m.id) hmonitors
  have hresults : (w.apply db).checkResults.filter
      (fun r => (db.ownedBy u).contains r.monitorId) = mine.checkResults := by
    rw [← h] at hw ⊢
    cases w with
    | deleteMonitor id =>
        refine filter_spared fun r _ hr => decide_eq_true ?_
        rintro rfl
        exact hw (List.contains_iff_mem.mp hr)
    | deleteCheckResult id =>
        refine filter_spared fun r hmem hr => decide_eq_true ?_
        rintro rfl
        exact hw (List.mem_map_of_mem (List.mem_filter.mpr ⟨hmem, hr⟩))
    | insertMonitor | setFields | deleteAlert => rfl
    | insertUser | setDemoUser | setChecked | setSeeded | hide | insertCheckResult
    | insertAlert => cases hw
  have halerts : (w.apply db).alerts.filter
      (fun a => (db.ownedBy u).contains a.monitorId) = mine.alerts := by
    rw [← h] at hw ⊢
    cases w with
    | deleteMonitor id =>
        refine filter_spared fun a _ ha => decide_eq_true ?_
        rintro rfl
        exact hw (List.contains_iff_mem.mp ha)
    | deleteAlert id =>
        refine filter_spared fun a hmem ha => decide_eq_true ?_
        rintro rfl
        exact hw (List.mem_map_of_mem (List.mem_filter.mpr ⟨hmem, ha⟩))
    | insertMonitor | setFields | deleteCheckResult => rfl
    | insertUser | setDemoUser | setChecked | setSeeded | hide | insertCheckResult
    | insertAlert => cases hw
  rw [Tenant.of, howned, hmonitors, hresults, halerts, ← h]
  rfl

theorem Spares.newUser {w : Write} (hw : Spares u mine w) : w.newUser = none := by
  cases w with
  | insertUser => cases hw
  | _ => rfl

/-- What belongs to the user is as it was, among rows that keep their keys. -/
structure Intact (u : Int) (mine : Tenant) (db : Db) : Prop where
  tenant : Tenant.of u db = mine
  checkResults : (db.checkResults.map (·.id)).Nodup
  alerts : (db.alerts.map (·.id)).Nodup

theorem Intact.apply {w : Write} (h : Intact u mine db) (hw : Spares u mine w) :
    Intact u mine (w.apply db) := by
  refine ⟨hw.tenant h.tenant, ?_, ?_⟩
  · cases w with
    | deleteMonitor id | deleteCheckResult id =>
        exact (List.filter_sublist.map _).nodup h.checkResults
    | insertCheckResult => cases hw
    | insertUser | setDemoUser | insertMonitor | setChecked | setFields | setSeeded | hide
    | insertAlert | deleteAlert => exact h.checkResults
  · cases w with
    | deleteMonitor id | deleteAlert id => exact (List.filter_sublist.map _).nodup h.alerts
    | insertAlert => cases hw
    | insertUser | setDemoUser | insertMonitor | setChecked | setFields | setSeeded | hide
    | insertCheckResult | deleteCheckResult => exact h.alerts

structure Isolated (u : Int) (mine : Tenant) (seq : Seq) (db : Db) : Prop
    extends Intact u mine db where
  keyed : Keyed seq db

theorem Isolated.mono {a b : Seq} (h : Isolated u mine a db) (hle : a.Le b) :
    Isolated u mine b db :=
  { h with keyed := h.keyed.mono hle }

theorem Isolated.foldl {seq : Seq} : ∀ {ws : List Write} {db : Db}, Isolated u mine seq db →
    (∀ w ∈ ws, Spares u mine w ∧ w.newMonitor = none) →
      Isolated u mine seq (ws.foldl Write.apply db)
  | [], _, h, _ => h
  | w :: ws, db, h, hws => by
      obtain ⟨hspares, hnew⟩ := hws w List.mem_cons_self
      have hrest : Isolated u mine seq (ws.foldl Write.apply (w.apply db)) :=
        Isolated.foldl ⟨h.apply hspares, h.keyed.apply hnew hspares.newUser⟩
          fun v hv => hws v (List.mem_cons_of_mem _ hv)
      exact hrest

/-- The monitors of others have other ids. -/
theorem Isolated.not_mem_ids {seq : Seq} (h : Isolated u mine seq db) {m : Monitor}
    (hm : m ∈ db.monitors) (huser : m.userId ≠ u) : m.id ∉ mine.ids := by
  rw [← h.tenant]
  intro hid
  obtain ⟨m', hm', heq⟩ := List.mem_map.mp hid
  obtain ⟨hm', huser'⟩ := List.mem_filter.mp hm'
  rw [List.inj_on_of_nodup_map h.keyed.monitors hm' hm heq] at huser'
  exact huser (of_decide_eq_true huser')

/-- A monitor with another id belongs to another. -/
theorem Isolated.not_mine {seq : Seq} (h : Isolated u mine seq db) {m : Monitor}
    (hm : m ∈ db.monitors) (hid : m.id ∉ mine.ids) : m.userId ≠ u := by
  rintro rfl
  rw [← h.tenant] at hid
  exact hid (List.mem_map_of_mem (List.mem_filter.mpr ⟨hm, decide_eq_true rfl⟩))

theorem Isolated.fresh {seq : Seq} (h : Isolated u mine seq db) : seq.monitors ∉ mine.ids := by
  rw [← h.tenant]
  intro hid
  obtain ⟨m, hm, heq⟩ := List.mem_map.mp hid
  exact Int.ne_of_lt (h.keyed.monitorsBelow m (List.mem_filter.mp hm).1) heq

theorem Isolated.checkResult_not_mem {seq : Seq} (h : Isolated u mine seq db) {r : CheckResult}
    (hr : r ∈ db.checkResults) (hmonitor : r.monitorId ∉ mine.ids) :
    r.id ∉ mine.checkResults.map (·.id) := by
  rw [← h.tenant] at hmonitor ⊢
  intro hid
  obtain ⟨r', hr', heq⟩ := List.mem_map.mp hid
  obtain ⟨hr', howned⟩ := List.mem_filter.mp hr'
  rw [List.inj_on_of_nodup_map h.checkResults hr' hr heq] at howned
  exact hmonitor (List.contains_iff_mem.mp howned)

theorem Isolated.alert_not_mem {seq : Seq} (h : Isolated u mine seq db) {a : Alert}
    (ha : a ∈ db.alerts) (hmonitor : a.monitorId ∉ mine.ids) :
    a.id ∉ mine.alerts.map (·.id) := by
  rw [← h.tenant] at hmonitor ⊢
  intro hid
  obtain ⟨a', ha', heq⟩ := List.mem_map.mp hid
  obtain ⟨ha', howned⟩ := List.mem_filter.mp ha'
  rw [List.inj_on_of_nodup_map h.alerts ha' ha heq] at howned
  exact hmonitor (List.contains_iff_mem.mp howned)

/-! ### Operations -/

/-- The monitors that are there were there before, with the same owner, or are new. -/
structure Descends (st st' : Store) : Prop where
  seq : st.seq.monitors ≤ st'.seq.monitors
  owner : ∀ m' ∈ st'.db.monitors, m'.id < st.seq.monitors →
    ∃ m ∈ st.db.monitors, m.id = m'.id ∧ m.userId = m'.userId

theorem Descends.refl (st : Store) : Descends st st :=
  ⟨Int.le_refl _, fun m' hm' _ => ⟨m', hm', rfl, rfl⟩⟩

theorem Descends.trans {st st' st'' : Store} (h : Descends st st') (h' : Descends st' st'') :
    Descends st st'' := by
  refine ⟨Int.le_trans h.seq h'.seq, fun m'' hm'' hold => ?_⟩
  obtain ⟨m', hm', hid', huser'⟩ := h'.owner m'' hm'' (Int.lt_of_lt_of_le hold h.seq)
  obtain ⟨m, hm, hid, huser⟩ := h.owner m' hm' (hid'.symm ▸ hold)
  exact ⟨m, hm, hid.trans hid', huser.trans huser'⟩

theorem Descends.sequences {st : Store} {seq : Seq} (h : st.seq.Le seq) :
    Descends st { st with seq := seq } :=
  ⟨h.monitors, fun m' hm' _ => ⟨m', hm', rfl, rfl⟩⟩

/-- A monitor is an old one with its owner, or the one that was inserted. -/
theorem mem_apply {w : Write} {m : Monitor} (hm : m ∈ (w.apply db).monitors) :
    w.newMonitor = some m.id ∨ ∃ old ∈ db.monitors, old.id = m.id ∧ old.userId = m.userId := by
  by_cases hw : w.newMonitor = none
  · obtain ⟨old, hold, hid, huser, -⟩ := Write.mem_monitors hw hm
    exact .inr ⟨old, hold, hid, huser⟩
  · cases w with
    | insertMonitor row =>
        rcases List.mem_append.mp hm with hm | hm
        · exact .inr ⟨m, hm, rfl, rfl⟩
        · rw [List.mem_singleton.mp hm]
          exact .inl rfl
    | _ => exact absurd rfl hw

theorem mem_foldl_apply : ∀ {ws : List Write} {db : Db} {m : Monitor},
    m ∈ (ws.foldl Write.apply db).monitors →
      m.id ∈ ws.filterMap Write.newMonitor ∨
        ∃ old ∈ db.monitors, old.id = m.id ∧ old.userId = m.userId
  | [], _, m, hm => .inr ⟨m, hm, rfl, rfl⟩
  | w :: ws, db, m, hm => by
      have hlater : m ∈ (ws.foldl Write.apply (w.apply db)).monitors := hm
      rcases mem_foldl_apply hlater with hnew | ⟨m', hm', hid', huser'⟩
      · exact .inl (List.mem_filterMap.mpr (by
          obtain ⟨v, hv, heq⟩ := List.mem_filterMap.mp hnew
          exact ⟨v, List.mem_cons_of_mem _ hv, heq⟩))
      · rcases mem_apply hm' with hnew | ⟨old, hold, hid, huser⟩
        · exact .inl (List.mem_filterMap.mpr ⟨w, List.mem_cons_self, hid' ▸ hnew⟩)
        · exact .inr ⟨old, hold, hid.trans hid', huser.trans huser'⟩

/-- Changes whose new monitors have new numbers. -/
theorem Descends.commit {st : Store} {seq : Seq} {ws : List Write} {db : Db}
    (hle : st.seq.Le seq) (hnew : ∀ id ∈ ws.filterMap Write.newMonitor, st.seq.monitors ≤ id)
    (hreplay : replay st.db ws = .ok db) :
    Descends st (({ st with seq := seq } : Store).commit db ws) := by
  refine ⟨hle.monitors, fun m' hm' hold => ?_⟩
  rw [show (Store.commit _ db ws).db = db from rfl, replay_eq_foldl hreplay] at hm'
  rcases mem_foldl_apply hm' with hid | h
  · exact absurd hold (Int.not_lt.mpr (hnew _ hid))
  · exact h

/-- The changes of an open transaction are of what belongs to others, and insert no monitor. -/
def Buffers (u : Int) (mine : Tenant) (s : Session) : Prop :=
  ∀ w ∈ s.writes, Spares u mine w ∧ w.newMonitor = none

/-- **A statement about what belongs to others.** Only outside of a transaction it may insert a
monitor. -/
theorem send_isolated {q : Sql} {s : Session} {R : q.Out → Prop} (hrows : q.noRows = none)
    (hs : Buffers u mine s)
    (hq : ∀ moment a db b out ws, Isolated u mine a db → q.plan moment a db = (b, .ok (out, ws)) →
      (∀ w ∈ ws, Spares u mine w) ∧ (s = .idle ∨ ∀ w ∈ ws, w.newMonitor = none) ∧ R out)
    (choice : Choice) {st : Store} (h : Isolated u mine st.seq st.db) :
    Isolated u mine (s.send choice st q).1.seq (s.send choice st q).1.db ∧
      Descends st (s.send choice st q).1 ∧ Buffers u mine (s.send choice st q).2.1 ∧
      (s = .idle → (s.send choice st q).2.1 = .idle) ∧
      ∀ out, (s.send choice st q).2.2 = .ok out → R out := by
  have hcases := Session.send_cases choice st s q
  generalize s.send choice st q = r at hcases ⊢
  cases hcases with
  | failed hs' hseq =>
      exact ⟨h.mono hseq, .sequences hseq, fun w hw => (nomatch hw), fun _ => rfl,
        fun out hout => (nomatch hout)⟩
  | aborted hs' hseq =>
      exact ⟨h.mono hseq, .sequences hseq, fun w hw => (nomatch hw), fun hidle => absurd hidle hs',
        fun out hout => (nomatch hout)⟩
  | noRows hout =>
      rw [hrows] at hout
      cases hout
  | @committed seq out ws db r hs' hplan hreplay hr =>
      obtain ⟨hspares, -, hR⟩ := hq _ _ _ _ _ _ h hplan
      have hseq := q.plan_seq choice.moment st.seq st.db
      rw [hplan] at hseq
      have hkeyed := keeps_keyed _ _ rfl _ _ _ _ _ _ _ hplan hreplay h.keyed
      refine ⟨?_, .commit hseq ?_ hreplay, fun w hw => (nomatch hw), fun _ => rfl, ?_⟩
      · exact ⟨replay_invariant (fun w hw _ _ h => h.apply (hspares w hw)) h.toIntact hreplay,
          hkeyed⟩
      · intro id hid
        rcases Sql.plan_newMonitor hplan with hnone | ⟨hone, -⟩
        · rw [hnone] at hid
          cases hid
        · rw [hone] at hid
          exact Int.le_of_eq (List.mem_singleton.mp hid).symm
      · rintro out' hout
        rcases hr with rfl | ⟨e, -, rfl⟩
        · cases hout
          exact hR
        · cases hout
  | @buffered seq out ws more db hs' hplan hreplay =>
      subst hs'
      obtain ⟨hspares, hnew, hR⟩ := hq _ _ _ _ _ _ (h.foldl hs) hplan
      have hseq := q.plan_seq choice.moment st.seq (ws.foldl Write.apply st.db)
      rw [hplan] at hseq
      refine ⟨h.mono hseq, .sequences hseq, fun w hw => ?_, fun hidle => (nomatch hidle), ?_⟩
      · rcases List.mem_append.mp hw with hw | hw
        · exact hs w hw
        · exact ⟨hspares w hw, hnew.resolve_left (fun hidle => (nomatch hidle)) w hw⟩
      · rintro out' hout
        cases hout
        exact hR

end Changes

/-! ### Programs -/

section Programs

variable {u : Int} {mine : Tenant} {α : Type} {Q : α → Prop} {s : Session}

/-- Whatever tables a program finds, every operation of it keeps what belongs to the user, and what
it ends with is in `Q`. -/
abbrev Isolates (u : Int) (mine : Tenant) (Q : α → Prop) (p : Client (Except ApiError α))
    (s : Session) : Prop :=
  p.Under handle (fun _ _ => True) (fun st => Isolated u mine st.seq st.db) Descends
    (fun s r => Buffers u mine s ∧ ∀ a, r = .ok a → Q a) s

theorem buffers_idle : Buffers u mine .idle := fun _ hw => (nomatch hw)

theorem isolates_ok {a : α} (hs : Buffers u mine s) (ha : Q a) :
    Isolates u mine Q (pure (.ok a)) s :=
  ⟨hs, fun b hb => by cases hb; exact ha⟩

theorem isolates_error {e : ApiError} (hs : Buffers u mine s) :
    Isolates u mine Q (pure (.error e)) s :=
  ⟨hs, fun _ hb => (nomatch hb)⟩

theorem isolates_query {q : Sql} {k : q.Out → Client (Except ApiError α)} {R : q.Out → Prop}
    (hrows : q.noRows = none) (hs : Buffers u mine s)
    (hq : ∀ moment a db b out ws, Isolated u mine a db → q.plan moment a db = (b, .ok (out, ws)) →
      (∀ w ∈ ws, Spares u mine w) ∧ (s = .idle ∨ ∀ w ∈ ws, w.newMonitor = none) ∧ R out)
    (hk : ∀ out s', R out → Buffers u mine s' → (s = .idle → s' = .idle) →
      Isolates u mine Q (k out) s') : Isolates u mine Q (query q k) s := by
  intro choice st _ h
  obtain ⟨hI, hdescends, hbuffers, hidle, hR⟩ := send_isolated hrows hs hq choice h
  refine ⟨hI, hdescends, ?_⟩
  show Isolates u mine Q (Prog.bind (.ret (s.send choice st q).2.2) _) _
  generalize (s.send choice st q).2.2 = r at hR ⊢
  cases r with
  | error e => exact isolates_error hbuffers
  | ok out => exact hk out _ (hR out rfl) hbuffers hidle

/-- A statement that changes nothing. -/
theorem isolates_read {q : Sql} {k : q.Out → Client (Except ApiError α)} {R : q.Out → Prop}
    (hrows : q.noRows = none)
    (hq : ∀ moment a db, Isolated u mine a db → ∃ out, q.plan moment a db = (a, .ok (out, [])) ∧
      R out)
    (hk : ∀ out, R out → Isolates u mine Q (k out) .idle) :
    Isolates u mine Q (query q k) .idle := by
  refine isolates_query hrows buffers_idle (fun moment a db b out ws h hplan => ?_)
    fun out s' hR _ hidle => hidle rfl ▸ hk out hR
  obtain ⟨out', hplan', hR⟩ := hq moment a db h
  rw [hplan] at hplan'
  cases hplan'
  exact ⟨fun w hw => (nomatch hw), .inl rfl, hR⟩

theorem commit_isolated (hs : Buffers u mine s) (choice : Choice) {st : Store}
    (h : Isolated u mine st.seq st.db) :
    Isolated u mine (s.commit choice st).1.seq (s.commit choice st).1.db ∧
      Descends st (s.commit choice st).1 ∧ (s.commit choice st).2.1 = .idle := by
  have hcases := Session.commit_cases choice st s
  generalize s.commit choice st = r at hcases ⊢
  cases hcases with
  | refused => exact ⟨h, .refl st, rfl⟩
  | @committed ws db r hs' hreplay =>
      subst hs'
      refine ⟨?_, .commit (Seq.Le.refl _) (fun id hid => ?_) hreplay, rfl⟩
      · show Isolated u mine st.seq db
        rw [replay_eq_foldl hreplay]
        exact h.foldl hs
      · obtain ⟨w, hw, hid⟩ := List.mem_filterMap.mp hid
        rw [(hs w hw).2] at hid
        cases hid

theorem isolates_transaction {body : Client (Except ApiError α)}
    (hbody : Isolates u mine Q body (.open_ [])) :
    Isolates u mine Q (transaction body) .idle := by
  intro choice st _ h
  refine ⟨h, .refl st, ?_⟩
  show Isolates u mine Q (Prog.bind (.ret (Session.begin choice .idle).2) _)
    (Session.begin choice .idle).1
  rcases Session.begin_cases choice .idle with ⟨e, he⟩ | ⟨-, he⟩
  · rw [he]
    exact isolates_error buffers_idle
  · rw [he]
    show Isolates u mine Q (body >>= _) (.open_ [])
    refine Prog.under_bind.mpr (Prog.Under.mono ?_ hbody)
    rintro s (e | a) ⟨hs, hQ⟩
    · intro choice st _ h
      refine ⟨h, .refl st, ?_, fun b hb => (nomatch hb)⟩
      show Buffers u mine (s.rollback choice).1
      rw [Session.rollback_fst]
      exact buffers_idle
    · intro choice st _ h
      obtain ⟨hI, hdescends, hidle⟩ := commit_isolated hs choice h
      refine ⟨hI, hdescends, ?_⟩
      show Isolates u mine Q (Prog.bind (.ret (s.commit choice st).2.2) _) (s.commit choice st).2.1
      rw [hidle]
      cases (s.commit choice st).2.2 with
      | error e => exact isolates_error buffers_idle
      | ok _ => exact isolates_ok buffers_idle (hQ a rfl)

/-! ### Requests -/

/-- What belongs to others. -/
def Foreign (u : Int) (mine : Tenant) (dto : MonitorResponseDto) : Prop :=
  dto.id ∉ mine.ids ∧ dto.userId ≠ u

theorem insertMonitor_isolates {dto : CreateMonitorDto} {userId : Int} (huser : userId ≠ u) :
    Isolates u mine (Foreign u mine) (insertMonitor dto userId) .idle := by
  intro choice st _ h
  refine ⟨h, .refl st, ?_⟩
  refine isolates_query (R := fun m : Monitor => m.id ∉ mine.ids ∧ m.userId ≠ u) rfl buffers_idle
    (fun moment a db b out ws h hplan => ?_) fun out s' hR hs _ => isolates_ok hs hR
  cases hplan
  refine ⟨fun w hw => ?_, .inl rfl, h.fresh, huser⟩
  rw [List.mem_singleton.mp hw]
  exact huser

theorem createMonitor_isolates (rt : Runtime) (dto : CreateMonitorDto) {user : Requester}
    (huser : user.id ≠ u) :
    Isolates u mine (Foreign u mine) (createMonitor rt dto user) .idle := by
  unfold createMonitor
  split
  · exact isolates_error buffers_idle
  · split
    · exact isolates_error buffers_idle
    · refine isolates_read (R := fun _ => True) rfl (fun _ _ _ _ => ⟨_, rfl, trivial⟩) fun n _ => ?_
      unfold insertWithinLimit
      split
      · exact isolates_error buffers_idle
      · exact insertMonitor_isolates huser

theorem getMonitorsByUser_isolates {userId : Int} (huser : userId ≠ u) :
    Isolates u mine (fun dtos => ∀ dto ∈ dtos, Foreign u mine dto) (getMonitorsByUser userId)
      .idle := by
  refine isolates_read (R := fun rows : List Monitor => ∀ m ∈ rows, m.id ∉ mine.ids ∧ m.userId ≠ u)
    rfl (fun moment a db h => ⟨_, rfl, fun m hm => ?_⟩) fun rows hrows => ?_
  · obtain ⟨hm, heq⟩ := List.mem_filter.mp hm
    have hne : m.userId ≠ u := of_decide_eq_true heq ▸ huser
    exact ⟨h.not_mem_ids hm hne, hne⟩
  · refine isolates_ok buffers_idle fun dto hdto => ?_
    obtain ⟨m, hm, rfl⟩ := List.mem_map.mp hdto
    exact hrows m hm

/-- The owner is looked for: the id is not that of a monitor of the user. -/
theorem isolates_findFirst {α : Type} {Q : α → Prop} {id userId : Int} (huser : userId ≠ u)
    {k : Option Monitor → Client (Except ApiError α)}
    (hk : ∀ m, (m ≠ none → id ∉ mine.ids) → Isolates u mine Q (k m) .idle) :
    Isolates u mine Q (query (.findFirstMonitor id userId) k) .idle := by
  refine isolates_read (R := fun m : Option Monitor => m ≠ none → id ∉ mine.ids) rfl
    (fun moment a db h => ⟨_, rfl, fun hsome => ?_⟩) hk
  obtain ⟨m, hfound⟩ := Option.ne_none_iff_exists'.mp hsome
  have hmatch := List.find?_some hfound
  simp only [Bool.and_eq_true, decide_eq_true_eq] at hmatch
  rw [← hmatch.1]
  exact h.not_mem_ids (List.mem_of_find?_eq_some hfound) (hmatch.2 ▸ huser)

theorem updateMonitor_isolates (rt : Runtime) (monitorId : Int) {user : Requester}
    (dto : UpdateMonitorDto) (huser : user.id ≠ u) :
    Isolates u mine (Foreign u mine) (updateMonitor rt monitorId user dto) .idle := by
  refine isolates_findFirst huser fun m hm => ?_
  split
  · exact isolates_error buffers_idle
  · rename_i hsome
    have hid := hm hsome
    split
    · exact isolates_error buffers_idle
    · split
      · exact isolates_error buffers_idle
      · split
        · exact isolates_error buffers_idle
        · refine isolates_query (R := fun m : Monitor => m.id ∉ mine.ids ∧ m.userId ≠ u) rfl
            buffers_idle (fun moment a db b out ws h hplan => ?_)
            fun out s' hR hs _ => isolates_ok hs hR
          simp only [Sql.plan] at hplan
          split at hplan
          · cases hplan
          · rename_i row hfound
            cases hplan
            have hrow : row.id = monitorId := by simpa using List.find?_some hfound
            have hids : row.id ∉ mine.ids := hrow ▸ hid
            have huser := h.not_mine (List.mem_of_find?_eq_some hfound) hids
            refine ⟨fun w hw => ?_, .inl rfl, hids, huser⟩
            rw [List.mem_singleton.mp hw]
            exact hid

/-- The rows of a monitor of another are deleted. -/
theorem Isolated.deletes {seq : Seq} {db : Db} (h : Isolated u mine seq db) {monitorId : Int}
    (hid : monitorId ∉ mine.ids) :
    (∀ w ∈ ((db.checkResults.filter (·.monitorId = monitorId)).map (·.id)).map
      Write.deleteCheckResult, Spares u mine w) ∧
    ∀ w ∈ ((db.alerts.filter (·.monitorId = monitorId)).map (·.id)).map Write.deleteAlert,
      Spares u mine w := by
  constructor
  · intro w hw
    obtain ⟨id, hmem, rfl⟩ := List.mem_map.mp hw
    obtain ⟨r, hr, rfl⟩ := List.mem_map.mp hmem
    obtain ⟨hr, heq⟩ := List.mem_filter.mp hr
    exact h.checkResult_not_mem hr (of_decide_eq_true heq ▸ hid)
  · intro w hw
    obtain ⟨id, hmem, rfl⟩ := List.mem_map.mp hw
    obtain ⟨a, ha, rfl⟩ := List.mem_map.mp hmem
    obtain ⟨ha, heq⟩ := List.mem_filter.mp ha
    exact h.alert_not_mem ha (of_decide_eq_true heq ▸ hid)

theorem deleteMonitor_isolates {monitorId userId : Int} (huser : userId ≠ u) :
    Isolates u mine (fun _ => True) (deleteMonitor monitorId userId) .idle := by
  refine isolates_findFirst huser fun m hm => ?_
  split
  · exact isolates_error buffers_idle
  · rename_i hsome
    have hid := hm hsome
    refine isolates_transaction ?_
    refine isolates_query (R := fun _ => True) rfl (fun w hw => (nomatch hw))
      (fun moment a db b out ws h hplan => ?_) fun _ s _ hs _ => ?_
    · cases hplan
      refine ⟨(h.deletes hid).1, .inr fun w hw => ?_, trivial⟩
      obtain ⟨_, -, rfl⟩ := List.mem_map.mp hw
      rfl
    · refine isolates_query (R := fun _ => True) rfl hs
        (fun moment a db b out ws h hplan => ?_) fun _ s _ hs _ => ?_
      · cases hplan
        refine ⟨(h.deletes hid).2, .inr fun w hw => ?_, trivial⟩
        obtain ⟨_, -, rfl⟩ := List.mem_map.mp hw
        rfl
      · refine isolates_query (R := fun _ => True) rfl hs
          (fun moment a db b out ws h hplan => ?_) fun _ s _ hs _ => isolates_ok hs trivial
        simp only [Sql.plan] at hplan
        split at hplan
        · cases hplan
        · cases hplan
          refine ⟨fun w hw => ?_, .inr fun w hw => ?_, trivial⟩
          · rw [List.mem_singleton.mp hw]
            exact hid
          · rw [List.mem_singleton.mp hw]
            rfl

/-- What is read of a monitor is read with an id that is not the user's, for good. -/
theorem readOwned_isolates {α : Type} {Q : α → Prop} {monitorId userId : Int} (huser : userId ≠ u)
    {read : Client (Except ApiError α)}
    (hread : monitorId ∉ mine.ids → Isolates u mine Q read .idle) :
    Isolates u mine Q (readOwned monitorId userId read) .idle := by
  refine isolates_read (R := fun m : Option Monitor =>
    ∀ row, m = some row → row.userId ≠ u → monitorId ∉ mine.ids) rfl
    (fun moment a db h => ⟨_, rfl, fun row hfound hne => ?_⟩) fun m hm => ?_
  · have hid : row.id = monitorId := by simpa using List.find?_some hfound
    exact hid ▸ h.not_mem_ids (List.mem_of_find?_eq_some hfound) hne
  · cases m with
    | none => exact isolates_error buffers_idle
    | some row =>
        show Isolates u mine Q (if row.userId ≠ userId then _ else read) .idle
        split
        · exact isolates_error buffers_idle
        · rename_i howner
          exact hread (hm row rfl (not_not.mp howner ▸ huser))

theorem mem_latest {α : Type} {createdAt : α → Time} {take : Int} {rows : List α} {a : α}
    (ha : a ∈ latest createdAt take rows) : a ∈ rows := by
  unfold latest at ha
  split at ha
  · exact (List.mergeSort_perm rows _).mem_iff.mp (List.mem_of_mem_take ha)
  · exact (List.mergeSort_perm rows _).mem_iff.mp (List.mem_of_mem_drop ha)

theorem getHistory_isolates {monitorId userId : Int} (limit : Option Int) (huser : userId ≠ u) :
    Isolates u mine (fun dtos => ∀ dto ∈ dtos,
      dto.id ∉ mine.checkResults.map (·.id) ∧ dto.monitorId ∉ mine.ids)
      (getHistory monitorId userId limit) .idle := by
  refine readOwned_isolates huser fun hid => ?_
  refine isolates_read (R := fun rows : List CheckResult => ∀ r ∈ rows,
    r.id ∉ mine.checkResults.map (·.id) ∧ r.monitorId ∉ mine.ids) rfl
    (fun moment a db h => ⟨_, rfl, fun r hr => ?_⟩) fun rows hrows => ?_
  · obtain ⟨hr, heq⟩ := List.mem_filter.mp (mem_latest hr)
    have hmonitor : r.monitorId ∉ mine.ids := of_decide_eq_true heq ▸ hid
    exact ⟨h.checkResult_not_mem hr hmonitor, hmonitor⟩
  · refine isolates_ok buffers_idle fun dto hdto => ?_
    obtain ⟨r, hr, rfl⟩ := List.mem_map.mp hdto
    exact hrows r hr

theorem getAlerts_isolates {monitorId userId : Int} (limit : Option Int) (huser : userId ≠ u) :
    Isolates u mine (fun dtos => ∀ dto ∈ dtos,
      dto.id ∉ mine.alerts.map (·.id) ∧ dto.monitorId ∉ mine.ids)
      (getAlerts monitorId userId limit) .idle := by
  refine readOwned_isolates huser fun hid => ?_
  refine isolates_read (R := fun rows : List Alert => ∀ a ∈ rows,
    a.id ∉ mine.alerts.map (·.id) ∧ a.monitorId ∉ mine.ids) rfl
    (fun moment a db h => ⟨_, rfl, fun r hr => ?_⟩) fun rows hrows => ?_
  · obtain ⟨hr, heq⟩ := List.mem_filter.mp (mem_latest hr)
    have hmonitor : r.monitorId ∉ mine.ids := of_decide_eq_true heq ▸ hid
    exact ⟨h.alert_not_mem hr hmonitor, hmonitor⟩
  · refine isolates_ok buffers_idle fun dto hdto => ?_
    obtain ⟨r, hr, rfl⟩ := List.mem_map.mp hdto
    exact hrows r hr

end Programs

/-! ### Any number of requests -/

/-- A request of a user. -/
inductive Call where
  | createMonitor (rt : Runtime) (dto : CreateMonitorDto) (user : Requester)
  | getMonitorsByUser (userId : Int)
  | updateMonitor (rt : Runtime) (monitorId : Int) (user : Requester) (dto : UpdateMonitorDto)
  | deleteMonitor (monitorId userId : Int)
  | getHistory (monitorId userId : Int) (limit : Option Int)
  | getAlerts (monitorId userId : Int) (limit : Option Int)

/-- What a request ends with. -/
inductive Reply where
  | monitor (dto : MonitorResponseDto)
  | monitors (dtos : List MonitorResponseDto)
  | message (text : String)
  | history (dtos : List CheckResultResponseDto)
  | alerts (dtos : List AlertResponseDto)

def Call.userId : Call → Int
  | createMonitor _ _ user | updateMonitor _ _ user _ => user.id
  | getMonitorsByUser userId | deleteMonitor _ userId | getHistory _ userId _
  | getAlerts _ userId _ => userId

def Call.program : Call → Client (Except ApiError Reply)
  | createMonitor rt dto user => do return (← Api.createMonitor rt dto user).map .monitor
  | getMonitorsByUser userId => do return (← Api.getMonitorsByUser userId).map .monitors
  | updateMonitor rt monitorId user dto => do
      return (← Api.updateMonitor rt monitorId user dto).map .monitor
  | deleteMonitor monitorId userId => do
      return (← Api.deleteMonitor monitorId userId).map .message
  | getHistory monitorId userId limit => do
      return (← Api.getHistory monitorId userId limit).map .history
  | getAlerts monitorId userId limit => do
      return (← Api.getAlerts monitorId userId limit).map .alerts

/-- Nothing that belongs to the user is returned. -/
def Reply.Spares (u : Int) (mine : Tenant) : Reply → Prop
  | monitor dto => Foreign u mine dto
  | monitors dtos => ∀ dto ∈ dtos, Foreign u mine dto
  | message _ => True
  | history dtos => ∀ dto ∈ dtos,
      dto.id ∉ mine.checkResults.map (·.id) ∧ dto.monitorId ∉ mine.ids
  | alerts dtos => ∀ dto ∈ dtos, dto.id ∉ mine.alerts.map (·.id) ∧ dto.monitorId ∉ mine.ids

/-- The requests that have arrived, over the tables. -/
abbrev Requests := Pool Op Op.Res Store Session (Except ApiError Reply)

inductive Requests.Action where
  | arrive (call : Call)
  /-- The next operation of a request. -/
  | advance (i : Nat) (choice : Choice)

/-- The requests of all users but one. -/
def Requests.step (u : Int) (s : Requests) : Requests.Action → Option Requests
  | .arrive call => if call.userId = u then none else some (s.spawn ⟨call.program, .idle⟩)
  | .advance i choice => s.advance handle i choice

section Requests

variable {u : Int} {mine : Tenant}

theorem isolates_map {α : Type} {Q : α → Prop} {p : Client (Except ApiError α)} {f : α → Reply}
    (hQ : ∀ a, Q a → (f a).Spares u mine) (hp : Isolates u mine Q p .idle) :
    Isolates u mine (Reply.Spares u mine) (p >>= fun r => pure (r.map f)) .idle := by
  refine Prog.under_bind.mpr (Prog.Under.mono ?_ hp)
  rintro s (e | a) ⟨hs, ha⟩
  · exact isolates_error hs
  · exact isolates_ok hs (hQ a (ha a rfl))

theorem Call.isolates {call : Call} (huser : call.userId ≠ u) :
    Isolates u mine (Reply.Spares u mine) call.program .idle := by
  cases call with
  | createMonitor rt dto user =>
      exact isolates_map (fun _ h => h) (createMonitor_isolates rt dto huser)
  | getMonitorsByUser userId => exact isolates_map (fun _ h => h) (getMonitorsByUser_isolates huser)
  | updateMonitor rt monitorId user dto =>
      exact isolates_map (fun _ h => h) (updateMonitor_isolates rt monitorId dto huser)
  | deleteMonitor monitorId userId =>
      exact isolates_map (fun _ h => h) (deleteMonitor_isolates huser)
  | getHistory monitorId userId limit =>
      exact isolates_map (fun _ h => h) (getHistory_isolates limit huser)
  | getAlerts monitorId userId limit =>
      exact isolates_map (fun _ h => h) (getAlerts_isolates limit huser)

/-- Every request under way keeps what belongs to the user. -/
structure Requests.Isolate (u : Int) (mine : Tenant) (s : Requests) : Prop where
  shared : Isolated u mine s.shared.seq s.shared.db
  threads : ∀ t ∈ s.threads, Isolates u mine (Reply.Spares u mine) t.prog t.own

theorem Requests.isolate_step {s s' : Requests} {a : Requests.Action} (h : s.Isolate u mine)
    (hs : Requests.step u s a = some s') : s'.Isolate u mine ∧ Descends s.shared s'.shared := by
  cases a with
  | arrive call =>
      obtain ⟨huser, hs⟩ := Option.ite_none_left_eq_some.mp hs
      cases hs
      refine ⟨⟨h.shared, fun t ht => ?_⟩, .refl _⟩
      rcases List.mem_append.mp ht with ht | ht
      · exact h.threads t ht
      · rw [List.mem_singleton.mp ht]
        exact Call.isolates huser
  | advance i choice =>
      obtain ⟨hshared, hdescends, hthreads⟩ := Pool.advance_under h.shared h.threads trivial hs
      exact ⟨⟨hshared, hthreads⟩, hdescends⟩

theorem Requests.isolate_run {s s' : Requests} {as : List Requests.Action}
    (hrun : Run (Requests.step u) s as s') (h : s.Isolate u mine) :
    s'.Isolate u mine ∧ Descends s.shared s'.shared := by
  induction hrun with
  | refl s => exact ⟨h, .refl _⟩
  | more hs _ ih =>
      obtain ⟨h₁, hdescends⟩ := Requests.isolate_step h hs
      obtain ⟨h', hdescends'⟩ := ih h₁
      exact ⟨h', hdescends.trans hdescends'⟩

/-- **Whatever others request**, in any order of the operations and whatever fails: what belongs to
a user stays as it is, no monitor ever changes its owner, and no request is answered with what
belongs to the user. -/
theorem tenant_isolation {st : Store} {s s' : Requests} {as bs : List Requests.Action}
    (hkeyed : Keyed st.seq st.db) (hresults : (st.db.checkResults.map (·.id)).Nodup)
    (halerts : (st.db.alerts.map (·.id)).Nodup) (hrun : Run (Requests.step u) ⟨st, []⟩ as s)
    (hrun' : Run (Requests.step u) s bs s') :
    Tenant.of u s'.shared.db = Tenant.of u st.db ∧
      (∀ m ∈ s.shared.db.monitors, ∀ m' ∈ s'.shared.db.monitors, m'.id = m.id →
        m'.userId = m.userId) ∧
      ∀ t ∈ s'.threads, ∀ reply, t.prog = .ret (.ok reply) →
        reply.Spares u (Tenant.of u st.db) := by
  have hinit : Requests.Isolate u (Tenant.of u st.db) ⟨st, []⟩ :=
    ⟨⟨⟨rfl, hresults, halerts⟩, hkeyed⟩, fun t ht => (nomatch ht)⟩
  obtain ⟨h, -⟩ := Requests.isolate_run hrun hinit
  obtain ⟨h', hdescends⟩ := Requests.isolate_run hrun' h
  refine ⟨h'.shared.tenant, fun m hm m' hm' hid => ?_, fun t ht reply hret => ?_⟩
  · obtain ⟨old, hold, hid', huser⟩ :=
      hdescends.owner m' hm' (hid ▸ h.shared.keyed.monitorsBelow m hm)
    rw [← huser, List.inj_on_of_nodup_map h.shared.keyed.monitors hold hm (hid'.trans hid)]
  · have hthread := h'.threads t ht
    rw [hret] at hthread
    exact hthread.2 reply rfl

end Requests

def account (id : Int) (name : String) : User :=
  { id := id, name := name, lastName := "", username := name, email := name, password := "",
    createdAt := 0, updatedAt := 0, status := none, isActive := true, isDemo := false }

def site (id userId : Int) : Monitor :=
  { id := id, name := "Site", target := "https://example.com", frequency := 60, state := "Active",
    createdAt := 0, checkType := "http", checkConfig := none, lastState := none,
    lastCheckedAt := none, consecutiveFailures := 0, userId := userId, seedKey := none,
    isPublic := false }

/-- Two accounts with a monitor each, which was checked once. -/
def twoTenants : Store where
  db := { users := [account 1 "ana", account 2 "luis"], monitors := [site 1 1, site 2 2],
          checkResults := [⟨1, 1, "up", some 200, 0, none, none, 0⟩,
            ⟨2, 2, "up", some 200, 0, none, none, 0⟩],
          alerts := [] }
  seq := ⟨3, 3, 3, 1⟩
  log := []

def proceed (i : Nat) : Requests.Action := .advance i (Choice.calm 0 (.error ""))

/-- Two requests for the one monitor and two for the other, of its owner, with their operations
mixed. -/
theorem tenant_isolation_mixed : ∃ s s',
    Run (Requests.step 1) ⟨twoTenants, []⟩ [.arrive (.deleteMonitor 2 2),
      .arrive (.getHistory 1 2 none), .arrive (.getHistory 2 2 none), proceed 0, proceed 2] s ∧
    Run (Requests.step 1) s [.arrive (.deleteMonitor 1 2), proceed 3, proceed 1, proceed 2,
      proceed 0, proceed 0, proceed 0, proceed 0, proceed 0] s' ∧
    s'.shared.db.monitors = [site 1 1] ∧
    Tenant.of 1 s'.shared.db = Tenant.of 1 twoTenants.db := by
  have hkeyed : Keyed twoTenants.seq twoTenants.db :=
    ⟨by decide, by decide, by decide, by decide, by decide⟩
  have hrun : Run (Requests.step 1) ⟨twoTenants, []⟩ ([.arrive (.deleteMonitor 2 2),
      .arrive (.getHistory 1 2 none), .arrive (.getHistory 2 2 none), proceed 0, proceed 2] ++
    [.arrive (.deleteMonitor 1 2), proceed 3, proceed 1, proceed 2, proceed 0, proceed 0, proceed 0,
      proceed 0, proceed 0]) _ := run_of_exec rfl
  obtain ⟨s, hfirst, hthen⟩ := hrun.split
  exact ⟨s, _, hfirst, hthen, rfl,
    (tenant_isolation hkeyed (by decide) (by decide) hfirst hthen).1⟩

end Sentinel.System
