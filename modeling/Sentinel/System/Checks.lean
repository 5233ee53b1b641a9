import Sentinel.Library.Transition
import Sentinel.Database.Ledger
import Sentinel.Worker.Persist

/-!
# System — Checks

Any number of checks at once, each with a transaction of its own, and what they do to tables that
something else changes as well.

* `Recorded`: the changes that a check commits.
* `Grown`: what such changes make of the tables. Results and alerts are added to monitors that are
  there, and only what the last check left is overwritten.
* `Checking`: the numbers of the rows and of those to be committed are apart.
* `Checking.advance`: so they stay, and the tables grow, whichever check advances.
-/

namespace Sentinel.System

open Program Database Worker

/-! ### What a check changes -/

/-- The changes that a check commits. -/
def Recorded : Write → Prop
  | .insertCheckResult _ | .setChecked _ _ _ _ | .insertAlert _ => True
  | _ => False

theorem recorded_of_checkSends {m : Checker.Monitor} {thresholds : List Int} {o : Op}
    (ho : CheckSends m thresholds o) : o.Writes Recorded := by
  refine Op.writes_of_makes fun q hq w hw => ?_
  subst hq
  cases ho with
  | insertCheckResult | update | insertAlert =>
      cases hw
      trivial

/-- A monitor without the columns that a check writes. -/
def unchecked (m : Monitor) : Monitor :=
  { m with lastState := none, lastCheckedAt := none, consecutiveFailures := 0 }

/-- Rows are added, each of one of the monitors. -/
def Appended {α : Type} (monitorId : α → Int) (monitors : List Int) (rows rows' : List α) : Prop :=
  ∃ new, rows' = rows ++ new ∧ ∀ r ∈ new, monitorId r ∈ monitors

theorem appended_refl {α : Type} (monitorId : α → Int) (monitors : List Int) (rows : List α) :
    Appended monitorId monitors rows rows :=
  ⟨[], (List.append_nil _).symm, fun _ h => absurd h List.not_mem_nil⟩

theorem Appended.trans {α : Type} {monitorId : α → Int} {monitors : List Int}
    {rows rows₁ rows₂ : List α} (h₁ : Appended monitorId monitors rows rows₁)
    (h₂ : Appended monitorId monitors rows₁ rows₂) : Appended monitorId monitors rows rows₂ := by
  obtain ⟨new₁, rfl, hnew₁⟩ := h₁
  obtain ⟨new₂, rfl, hnew₂⟩ := h₂
  refine ⟨new₁ ++ new₂, List.append_assoc _ _ _, fun r hr => ?_⟩
  rcases List.mem_append.mp hr with hr | hr
  · exact hnew₁ r hr
  · exact hnew₂ r hr

def Db.monitorIds (db : Db) : List Int := db.monitors.map (·.id)

/-- What checks make of the tables. -/
structure Grown (before after : Db) : Prop where
  users : after.users = before.users
  monitors : after.monitors.map unchecked = before.monitors.map unchecked
  checkResults : Appended (·.monitorId) (Db.monitorIds before) before.checkResults
    after.checkResults
  alerts : Appended (·.monitorId) (Db.monitorIds before) before.alerts after.alerts

theorem grown_refl (db : Db) : Grown db db :=
  ⟨rfl, rfl, appended_refl _ _ _, appended_refl _ _ _⟩

theorem Grown.monitorIds {before after : Db} (h : Grown before after) :
    Db.monitorIds after = Db.monitorIds before := by
  have hids := congrArg (List.map fun m : Monitor => m.id) h.monitors
  simp only [List.map_map] at hids
  exact hids

theorem Grown.ownedBy {before after : Db} (h : Grown before after) (userId : Int) :
    after.ownedBy userId = before.ownedBy userId := by
  have howned := congrArg
    (fun ms : List Monitor => (ms.filter fun m => m.userId = userId).map (·.id)) h.monitors
  simp only [List.filter_map, List.map_map] at howned
  exact howned

theorem Grown.trans {db db₁ db₂ : Db} (h₁ : Grown db db₁) (h₂ : Grown db₁ db₂) : Grown db db₂ where
  users := h₂.users.trans h₁.users
  monitors := h₂.monitors.trans h₁.monitors
  checkResults := h₁.checkResults.trans (h₁.monitorIds ▸ h₂.checkResults)
  alerts := h₁.alerts.trans (h₁.monitorIds ▸ h₂.alerts)

theorem mem_monitorIds {db : Db} {id : Int} (h : db.hasMonitor id = true) :
    id ∈ Db.monitorIds db := by
  obtain ⟨m, hm, hid⟩ := List.any_eq_true.mp h
  exact List.mem_map.mpr ⟨m, hm, of_decide_eq_true hid⟩

/-- A change of a check that is admitted. -/
theorem Recorded.grown {w : Write} (hw : Recorded w) {db : Db} (hadmits : w.violates db = none) :
    Grown db (w.apply db) := by
  cases w with
  | insertCheckResult r =>
      have hmonitor := firstViolation_eq_none.mp hadmits (db.hasMonitor r.monitorId,
        foreignKeyViolation) (by simp)
      refine ⟨rfl, rfl, ⟨[r], rfl, fun r' hr => ?_⟩, appended_refl _ _ _⟩
      rw [List.mem_singleton.mp hr]
      exact mem_monitorIds hmonitor
  | insertAlert a =>
      have hmonitor := firstViolation_eq_none.mp hadmits (db.hasMonitor a.monitorId,
        foreignKeyViolation) (by simp)
      refine ⟨rfl, rfl, appended_refl _ _ _, ⟨[a], rfl, fun a' ha => ?_⟩⟩
      rw [List.mem_singleton.mp ha]
      exact mem_monitorIds hmonitor
  | setChecked id state checkedAt failures =>
      refine ⟨rfl, ?_, appended_refl _ _ _, appended_refl _ _ _⟩
      rw [Write.apply, Db.onMonitor, List.map_map]
      refine List.map_congr_left fun m _ => ?_
      rw [Function.comp_apply]
      split
      · rfl
      · rfl
  | _ => cases hw

theorem grown_of_replay {ws : List Write} (hws : ∀ w ∈ ws, Recorded w) {db db' : Db}
    (h : replay db ws = .ok db') : Grown db db' :=
  replay_invariant (P := Grown db) (fun w hw _ hadmits hdb => hdb.trans ((hws w hw).grown hadmits))
    (grown_refl db) h

/-! ### Numbers -/

/-- The id of a check result that a change inserts. -/
def newResult : Write → Option Int
  | .insertCheckResult r => some r.id
  | _ => none

/-- The id of an alert that a change inserts. -/
def newAlert : Write → Option Int
  | .insertAlert a => some a.id
  | _ => none

/-- A statement inserts a check result or an alert with the next number, or neither. -/
theorem plan_rows {q : Sql} {moment : Moment} {a b : Seq} {db : Db} {out : q.Out}
    {ws : List Write} (h : q.plan moment a db = (b, .ok (out, ws))) :
    (∀ w ∈ ws, newResult w = none ∧ newAlert w = none) ∨
      (∃ row, ws = [.insertCheckResult row] ∧ row.id = a.checkResults ∧
        b.checkResults = a.checkResults + 1) ∨
      ∃ row, ws = [.insertAlert row] ∧ row.id = a.alerts ∧ b.alerts = a.alerts + 1 := by
  cases q with
  | insertCheckResult =>
      cases h
      exact .inr (.inl ⟨_, rfl, rfl, rfl⟩)
  | insertAlert =>
      cases h
      exact .inr (.inr ⟨_, rfl, rfl, rfl⟩)
  | _ =>
      refine .inl fun w hw => ?_
      cases Sql.plan_makes h w hw <;> exact ⟨rfl, rfl⟩

theorem adds_newResult {o : Op} {a b : Seq} {ws : List Write} (h : o.Adds a ws b) :
    ws.filterMap newResult = [] ∧ a.checkResults ≤ b.checkResults ∨
      ws.filterMap newResult = [a.checkResults] ∧ b.checkResults = a.checkResults + 1 := by
  cases h with
  | nothing hle => exact .inl ⟨rfl, hle.checkResults⟩
  | @sql q moment db _ _ out _ hplan =>
      have hle := q.plan_seq moment a db
      rw [hplan] at hle
      rcases plan_rows hplan with hnone | ⟨row, rfl, hid, hnext⟩ | ⟨row, rfl, -, -⟩
      · exact .inl ⟨List.filterMap_eq_nil_iff.mpr fun w hw => (hnone w hw).1, hle.checkResults⟩
      · exact .inr ⟨congrArg (fun id => [id]) hid, hnext⟩
      · exact .inl ⟨rfl, hle.checkResults⟩

theorem adds_newAlert {o : Op} {a b : Seq} {ws : List Write} (h : o.Adds a ws b) :
    ws.filterMap newAlert = [] ∧ a.alerts ≤ b.alerts ∨
      ws.filterMap newAlert = [a.alerts] ∧ b.alerts = a.alerts + 1 := by
  cases h with
  | nothing hle => exact .inl ⟨rfl, hle.alerts⟩
  | @sql q moment db _ _ out _ hplan =>
      have hle := q.plan_seq moment a db
      rw [hplan] at hle
      rcases plan_rows hplan with hnone | ⟨row, rfl, -, -⟩ | ⟨row, rfl, hid, hnext⟩
      · exact .inl ⟨List.filterMap_eq_nil_iff.mpr fun w hw => (hnone w hw).2, hle.alerts⟩
      · exact .inl ⟨rfl, hle.alerts⟩
      · exact .inr ⟨congrArg (fun id => [id]) hid, hnext⟩

/-- The rows afterwards are those before and those inserted. -/
theorem recorded_ids : ∀ {ws : List Write} {db db' : Db}, (∀ w ∈ ws, Recorded w) →
    replay db ws = .ok db' →
      db'.checkResults.map (·.id) = db.checkResults.map (·.id) ++ ws.filterMap newResult ∧
        db'.alerts.map (·.id) = db.alerts.map (·.id) ++ ws.filterMap newAlert
  | [], _, _, _, h => by
      cases h
      simp
  | w :: ws, db, db', hws, h => by
      obtain ⟨hw, hws⟩ := List.forall_mem_cons.mp hws
      obtain ⟨hresults, halerts⟩ := recorded_ids hws (replay_cons.mp h).2
      rw [hresults, halerts]
      cases w with
      | insertCheckResult r => exact ⟨by simp [Write.apply, newResult], rfl⟩
      | insertAlert a => exact ⟨rfl, by simp [Write.apply, newAlert]⟩
      | setChecked => exact ⟨rfl, rfl⟩
      | _ => cases hw

/-! ### Any number of checks -/

section Pools

variable {α : Type}

/-- The numbers of the rows that transactions have made and not committed. -/
def pending (f : Write → Option Int) (threads : List (Thread Op Op.Res Session α)) : List Int :=
  threads.flatMap fun t => t.own.writes.filterMap f

/-- A thread that makes no other changes than a check. -/
structure Records (t : Thread Op Op.Res Session α) : Prop where
  sends : t.prog.Only (·.Writes Recorded)
  own : ∀ w ∈ t.own.writes, Recorded w

/-- The numbers of the rows and of those to be committed are apart. -/
structure Checking (pool : Pool Op Op.Res Store Session α) : Prop where
  results : Apart (pool.shared.db.checkResults.map (·.id)) (pending newResult pool.threads)
    pool.shared.seq.checkResults
  alerts : Apart (pool.shared.db.alerts.map (·.id)) (pending newAlert pool.threads)
    pool.shared.seq.alerts
  records : ∀ t ∈ pool.threads, Records t

variable {pool pool' : Pool Op Op.Res Store Session α}

theorem Checking.nodup (h : Checking pool) : (pool.shared.db.checkResults.map (·.id)).Nodup ∧
    (pool.shared.db.alerts.map (·.id)).Nodup :=
  ⟨(List.nodup_append.mp h.results.nodup).1, (List.nodup_append.mp h.alerts.nodup).1⟩

/-- One more check, which has not begun. -/
theorem Checking.spawn (h : Checking pool) {p : Client α} (hp : p.Only (·.Writes Recorded)) :
    Checking (pool.spawn ⟨p, .idle⟩) := by
  have hpending : ∀ f, pending f (pool.spawn ⟨p, .idle⟩).threads = pending f pool.threads := by
    intro f
    simp [pending, Pool.spawn, Session.writes]
  refine ⟨(hpending newResult).symm ▸ h.results, (hpending newAlert).symm ▸ h.alerts, ?_⟩
  intro t ht
  rcases List.mem_append.mp ht with ht | ht
  · exact h.records t ht
  · rw [List.mem_singleton.mp ht]
    exact ⟨hp, fun w hw => absurd hw List.not_mem_nil⟩

/-- Something else removes rows, and draws numbers. -/
theorem Checking.beside (h : Checking pool) {st : Store}
    (hresults : st.db.checkResults.Sublist pool.shared.db.checkResults)
    (halerts : st.db.alerts.Sublist pool.shared.db.alerts) (hle : pool.shared.seq.Le st.seq) :
    Checking { pool with shared := st } where
  results := h.results.mono (hresults.map _) hle.checkResults
  alerts := h.alerts.mono (halerts.map _) hle.alerts
  records := h.records

theorem pending_middle (f : Write → Option Int) (before after : List (Thread Op Op.Res Session α))
    (t : Thread Op Op.Res Session α) : (pending f (before ++ t :: after)).Perm
      (t.own.writes.filterMap f ++ (pending f before ++ pending f after)) := by
  simp only [pending, List.flatMap_append, List.flatMap_cons]
  exact List.perm_append_comm_assoc _ _ _

/-- **A check advances**: the numbers stay apart, and the tables grow. -/
theorem Checking.advance (h : Checking pool) {i : Nat} {choice : Choice}
    (hs : pool.advance handle i choice = some pool') :
    Checking pool' ∧ Grown pool.shared.db pool'.shared.db ∧
      pool.shared.seq.Le pool'.shared.seq := by
  obtain ⟨before, t, t', after, -, hpool, hpool', -, hstep⟩ := Pool.advance_cases hs
  obtain ⟨hresults, halerts, hrecords⟩ := h
  rw [hpool] at hresults halerts hrecords
  obtain ⟨hsends, hown⟩ := hrecords t (List.mem_append_right _ List.mem_cons_self)
  obtain ⟨o, k, hprog, hstore, ht'⟩ := Thread.step_cases hstep
  rw [hprog] at hsends
  obtain ⟨ws, more, hext, hadds, hsub⟩ := handle_moves choice pool.shared t.own o
  have hwrites : ∀ w ∈ ws ++ t'.own.writes, Recorded w := by
    intro w hw
    rw [ht'] at hw
    rcases List.mem_append.mp (hsub.subset hw) with hw | hw
    · exact hown w hw
    · exact hsends.1 _ _ _ hadds w hw
  have hws : ∀ w ∈ ws, Recorded w := fun w hw => hwrites w (List.mem_append_left _ hw)
  obtain ⟨hresultIds, halertIds⟩ := recorded_ids hws hext.replayed
  rw [← hstore] at hext hadds hresultIds halertIds
  have hmoves : ∀ f : Write → Option Int, (ws.filterMap f ++ t'.own.writes.filterMap f).Sublist
      (t.own.writes.filterMap f ++ more.filterMap f) := by
    intro f
    rw [ht', ← List.filterMap_append, ← List.filterMap_append]
    exact hsub.filterMap f
  refine ⟨⟨?_, ?_, fun x hx => ?_⟩, grown_of_replay hws hext.replayed, hext.seq⟩
  · rw [hresultIds, hpool']
    exact ((hresults.perm (pending_middle _ _ _ _)).moves (hmoves _) (adds_newResult hadds)).perm
      (pending_middle _ _ _ _).symm
  · rw [halertIds, hpool']
    exact ((halerts.perm (pending_middle _ _ _ _)).moves (hmoves _) (adds_newAlert hadds)).perm
      (pending_middle _ _ _ _).symm
  · rw [hpool'] at hx
    rcases List.mem_append.mp hx with hx | hx
    · exact hrecords x (List.mem_append_left _ hx)
    · rcases List.mem_cons.mp hx with rfl | hx
      · refine ⟨?_, fun w hw => hwrites w (List.mem_append_right _ hw)⟩
        rw [ht']
        exact hsends.2 _
      · exact hrecords x (List.mem_append_right _ (List.mem_cons_of_mem _ hx))

end Pools

end Sentinel.System
