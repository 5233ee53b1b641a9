import Sentinel.Api.Reads
import Sentinel.System.Checks
import Sentinel.System.Pace
import Sentinel.System.Pruning

/-!
# System — Timeline

What the alerts of a monitor tell, while the worker checks it beside requests, resets of the demo
account and retention passes.

* `Chronicle`: the alerts that are there are the last ones that were raised, each at the time of a
  check of its own.
* `Chronicle.check`, `Chronicle.write`: what an operation of a check and of a writer keeps of it.
* `Timeline`: the invariant of the system.
* `alerts_tell`: the alerts that are there alternate, in the order of their times, the last says
  whether the monitor is down, and `getAlerts` shows the newest of them.
-/

namespace Sentinel.System

open Program Database Api Worker Transition

/-! ### What changes raise -/

theorem alertTypes_eq (id : Int) (log : List Write) :
    alertTypes id log = (ofMonitor id (raised log)).map (·.alertType) := by
  rw [alertTypes, ofMonitor, raised, List.filter_filterMap, List.map_filterMap]
  refine List.filterMap_congr fun w _ => ?_
  cases w with
  | insertAlert a =>
      by_cases hid : a.monitorId = id
      · simp [Write.alertType, Write.alert, hid]
      · simp [Write.alertType, Write.alert, hid]
  | _ => rfl

theorem newAlerts_eq (log : List Write) :
    log.filterMap newAlert = (raised log).map (·.id) := by
  rw [raised, List.map_filterMap]
  refine List.filterMap_congr fun w _ => ?_
  cases w <;> rfl

section Checks

variable {t : Int} {m : Checker.Monitor} {ws : List Write}

/-- A check raises its alert at the time that it records. -/
theorem checks_times (h : Checks t m ws) (id : Int) :
    ((ofMonitor id (raised ws)).map (·.createdAt)).Sublist
      (ws.filterMap (Write.checkTime id)) := by
  obtain ⟨result, now, resultId, alertId, rfl⟩ := h
  set evaluation := evaluateFSM m.lastState m.consecutiveFailures result.state t
  by_cases halert : evaluation.alertType = ""
  · simp [checkWrites, halert, raised, Write.alert, ofMonitor, List.filterMap_cons]
  · by_cases hid : m.id = id
    · simp [checkWrites, halert, raised, Write.alert, ofMonitor, hid, Write.checkTime,
        List.filterMap_cons]
    · simp [checkWrites, halert, raised, Write.alert, ofMonitor, hid, List.filterMap_cons]

/-- A check appends the alert that it raises. -/
theorem checks_alerts (h : Checks t m ws) (db : Db) :
    (ws.foldl Write.apply db).alerts = db.alerts ++ raised ws := by
  obtain ⟨result, now, resultId, alertId, rfl⟩ := h
  set evaluation := evaluateFSM m.lastState m.consecutiveFailures result.state t
  by_cases halert : evaluation.alertType = ""
  · simp [checkWrites, halert, raised, Write.alert, Write.apply, Db.onMonitor, List.filterMap_cons]
  · simp [checkWrites, halert, raised, Write.alert, Write.apply, Db.onMonitor, List.filterMap_cons]

end Checks

/-- The alerts of a fold alternate, and the last says whether its state is `unhealthy`. -/
theorem history_alternating (t : Int) (ps : List String) : Alternating none (history t ps) := by
  induction ps using List.reverseRecOn with
  | nil => exact alternating_start none 0
  | append_singleton ps p ih =>
      rw [history_snoc]
      exact ih.record (· + 1) _ p t

/-! ### Stores -/

/-- The alerts that are there are the last ones that were raised, each at the time of a check of its
own. Their numbers, and those of alerts that are not committed, are apart. -/
structure Chronicle (st : Store) (drawn : List Int) : Prop where
  numbers : Apart (st.log.filterMap newAlert) drawn st.seq.alerts
  times : ∀ id, ((ofMonitor id (raised st.log)).map (·.createdAt)).Sublist
    (st.log.filterMap (Write.checkTime id))
  last : ∀ id, ofMonitor id st.db.alerts <:+ ofMonitor id (raised st.log)

section Chronicle

variable {cfg : WorkerConfig} {first : Db} {st st' : Store} {drawn drawn' : List Int}
  {t : Int} {ws : List Write}

theorem Chronicle.traced (h : Chronicle st drawn) (hfirst : first.alerts = [])
    (hreplayed : replay first st.log = .ok st.db)
    (hmonitors : (first.monitors.map (·.id) ++ inserted st.log).Nodup) : Traced first st where
  noAlerts := hfirst
  replayed := hreplayed
  alerts := by
    rw [← newAlerts_eq]
    exact (List.nodup_append.mp h.numbers.nodup).1
  monitors := hmonitors

/-- Checks that are apart raise alerts in the order of their times. -/
theorem Chronicle.ordered (h : Chronicle st drawn)
    (hspaced : ∀ id, OnTime id 1 first st.db st.log) : InOrder st.db := by
  intro id
  have hchain : (checkTimes id first st.log).IsChain fun a b => a < b :=
    (hspaced id).spaced.imp fun (a b : Int) hab => (by omega : a < b)
  have hpairs : ((ofMonitor id (raised st.log)).map (·.createdAt)).Pairwise fun a b => a < b :=
    (List.isChain_iff_pairwise.mp hchain).sublist
      ((h.times id).trans (List.sublist_append_right _ _))
  exact (List.pairwise_map.mp hpairs).sublist (h.last id).sublist

/-- Nothing is committed. -/
theorem Chronicle.nothing (h : Chronicle st drawn) (hext : st.Extends [] st')
    (hdrawn : drawn'.Sublist drawn) : Chronicle st' drawn' := by
  have hlog : st'.log = st.log := by rw [hext.log, List.append_nil]
  have hdb : st'.db = st.db := (Except.ok.inj hext.replayed).symm
  refine ⟨?_, ?_, ?_⟩
  · rw [hlog]
    have hapart := h.numbers.mono (List.Sublist.refl _) hext.seq.alerts
    have hsub := hdrawn.append_left (st.log.filterMap newAlert)
    exact ⟨hsub.nodup hapart.nodup, fun id hid => hapart.below id (hsub.subset hid)⟩
  · rw [hlog]
    exact h.times
  · rw [hlog, hdb]
    exact h.last

/-- The numbers of alerts stay apart when a check performs an operation. -/
theorem alerts_advance {α : Type} {before after : List (Thread Op Op.Res Session α)}
    {thread thread' : Thread Op Op.Res Session α} {choice : Choice}
    (h : Apart (st.log.filterMap newAlert) (pending newAlert (before ++ thread :: after))
      st.seq.alerts) (hs : thread.step handle choice st = some (st', thread')) :
    Apart (st'.log.filterMap newAlert) (pending newAlert (before ++ thread' :: after))
      st'.seq.alerts := by
  obtain ⟨o, k, -, rfl, rfl⟩ := Thread.step_cases hs
  obtain ⟨ws, more, hext, hadds, hsub⟩ := handle_moves choice st thread.own o
  have hmoves := hsub.filterMap newAlert
  rw [List.filterMap_append, List.filterMap_append] at hmoves
  rw [hext.log, List.filterMap_append]
  exact ((h.perm (pending_middle _ _ _ _)).moves hmoves (adds_newAlert hadds)).perm
    (pending_middle _ _ _ ⟨_, (handle choice st thread.own o).2.1⟩).symm

/-- **A check appends**: nothing, or its alert with its time. -/
theorem Chronicle.check {before after : List (Thread Op Op.Res Session (Option WorkError))}
    {thread thread' : Thread Op Op.Res Session (Option WorkError)} {choice : Choice}
    {m : Checker.Monitor} (h : Chronicle st (pending newAlert (before ++ thread :: after)))
    (hs : thread.step handle choice st = some (st', thread')) (hext : st.Extends ws st')
    (hws : ws = [] ∨ Checks t m ws) :
    Chronicle st' (pending newAlert (before ++ thread' :: after)) := by
  have htimes : ∀ id, ((ofMonitor id (raised ws)).map (·.createdAt)).Sublist
      (ws.filterMap (Write.checkTime id)) := by
    rcases hws with rfl | hws
    · exact fun _ => List.nil_sublist _
    · exact checks_times hws
  have halerts : st'.db.alerts = st.db.alerts ++ raised ws := by
    rw [replay_eq_foldl hext.replayed]
    rcases hws with rfl | hws
    · exact (List.append_nil _).symm
    · exact checks_alerts hws st.db
  have hraised : ∀ id, ofMonitor id (raised st'.log) =
      ofMonitor id (raised st.log) ++ ofMonitor id (raised ws) := by
    intro id
    rw [hext.log, raised_append]
    exact List.filter_append _ _
  refine ⟨alerts_advance h.numbers hs, fun id => ?_, fun id => ?_⟩
  · rw [hraised, hext.log, List.map_append, List.filterMap_append]
    exact (h.times id).append (htimes id)
  · obtain ⟨gone, hgone⟩ := h.last id
    rw [hraised, halerts, ← hgone]
    exact ⟨gone, by simp only [ofMonitor, List.filter_append, List.append_assoc]⟩

/-- **A writer raises no alert**, and leaves the last. -/
theorem Chronicle.write (h : Chronicle st drawn) (hext : st.Extends ws st')
    (hws : ∀ w ∈ ws, Quiet w) (hleaves : LeavesLast st.db st'.db) : Chronicle st' drawn := by
  have hquiet : ∀ w ∈ ws, w.alert = none := by
    intro w hw
    have hw := hws w hw
    cases w with
    | insertAlert => cases hw
    | _ => rfl
  have hraised : raised st'.log = raised st.log := by
    rw [hext.log, raised_append, raised_nil hquiet, List.append_nil]
  refine ⟨?_, fun id => ?_, fun id => ?_⟩
  · rw [newAlerts_eq, hraised, ← newAlerts_eq]
    exact h.numbers.mono (List.Sublist.refl _) hext.seq.alerts
  · rw [hraised, hext.log, List.filterMap_append]
    exact (h.times id).trans (List.sublist_append_left _ _)
  · rw [hraised]
    exact (hleaves id).trans (h.last id)

end Chronicle

/-! ### Steps -/

/-- A step that is no operation of a check or of a writer commits nothing. New checks and writers
have not begun. -/
theorem Polling.step_onward {cfg : WorkerConfig} {s s' : Polling} {a : Polling.Action}
    (hcheck : ∀ i choice, a ≠ .check i choice) (hwrite : ∀ i choice, a ≠ .write i choice)
    (hs : s.step cfg a = some s') : s.store.Extends [] s'.store ∧
      (pending newAlert s'.checks).Sublist (pending newAlert s.checks) ∧
        ∀ t ∈ s'.writers, t ∈ s.writers ∨ ∃ w : Writer, t = ⟨w.program, .idle⟩ := by
  have hcycle : ∀ {s s' : Polling} {a : Worker.Action Checker.Monitor WorkError},
      s.cycleStep cfg a = some s' → s'.store = s.store ∧
        pending newAlert s'.checks = pending newAlert s.checks ∧ s'.writers = s.writers := by
    intro s s' a hs
    obtain ⟨c, -, rfl⟩ := Option.map_eq_some_iff.mp hs
    refine ⟨rfl, ?_, rfl⟩
    have hnone : ∀ items : List Checker.Monitor,
        pending newAlert (items.map (Polling.checkThread cfg)) = [] := by
      intro items
      refine List.flatMap_eq_nil_iff.mpr fun t ht => ?_
      obtain ⟨m, -, rfl⟩ := List.mem_map.mp ht
      rfl
    show pending newAlert (s.checks ++ _) = _
    rw [pending, List.flatMap_append, ← pending, ← pending, hnone, List.append_nil]
  have hsame : ∀ {a : Worker.Action Checker.Monitor WorkError}, s.cycleStep cfg a = some s' →
      s.store.Extends [] s'.store ∧
        (pending newAlert s'.checks).Sublist (pending newAlert s.checks) ∧
          ∀ t ∈ s'.writers, t ∈ s.writers ∨ ∃ w : Writer, t = ⟨w.program, .idle⟩ := by
    intro a hs
    obtain ⟨hstore, hchecks, hwriters⟩ := hcycle hs
    rw [hstore, hchecks, hwriters]
    exact ⟨.refl _, List.Sublist.refl _, fun t ht => .inl ht⟩
  cases a with
  | fetch choice =>
      obtain ⟨hstore, hchecks, hwriters⟩ := hcycle hs
      rw [hstore, hchecks, hwriters]
      refine ⟨?_, List.Sublist.refl _, fun t ht => .inl ht⟩
      have hselect : (Op.sql .selectDue).Writes fun _ => False := by
        refine Op.writes_of_makes fun q hq w hw => ?_
        cases hq
        cases hw
      obtain ⟨⟨ws, hext, hws⟩, -⟩ := handle_writes hselect choice s.store (s := .idle)
        fun w hw => absurd hw List.not_mem_nil
      rw [List.eq_nil_iff_forall_not_mem.mpr hws] at hext
      exact hext
  | tau | selectDone | receive | cancel => exact hsame hs
  | workReturns i =>
      simp only [Polling.step] at hs
      split at hs
      · exact hsame hs
      · cases hs
  | check i choice => exact absurd rfl (hcheck i choice)
  | again =>
      simp only [Polling.step] at hs
      split at hs
      · cases hs
        exact ⟨.refl _, List.nil_sublist _, fun t ht => .inl ht⟩
      · cases hs
  | call w =>
      cases hs
      refine ⟨.refl _, List.Sublist.refl _, fun t ht => ?_⟩
      rcases List.mem_append.mp ht with ht | ht
      · exact .inl ht
      · exact .inr ⟨w, List.mem_singleton.mp ht⟩
  | write i choice => exact absurd rfl (hwrite i choice)

/-! ### The invariant -/

/-- What the environment decides about an operation of a writer. -/
def Polling.Action.written : Polling.Action → Option Choice
  | .write _ choice => some choice
  | _ => none

/-- What the runs are restricted to: every frequency is a second or more, and a retention batch does
not skip an alert that is locked to delete a later one of the same monitor. -/
structure Regular (s : Paced) (a : Polling.Action) : Prop where
  frequency : ∀ m ∈ s.polling.store.db.monitors, 1 ≤ m.frequency
  locked : ∀ choice ∈ a.written, LockedFrom s.polling.store.db choice.moment.locked

instance (s : Paced) (a : Polling.Action) : Decidable (Regular s a) :=
  decidable_of_iff ((∀ m ∈ s.polling.store.db.monitors, 1 ≤ m.frequency) ∧
      ∀ choice ∈ a.written, LockedFrom s.polling.store.db choice.moment.locked)
    ⟨fun h => ⟨h.1, h.2⟩, fun h => ⟨h.1, h.2⟩⟩

structure Timeline (cfg : WorkerConfig) (first : Db) (s : Paced) : Prop where
  noAlerts : first.alerts = []
  trail : s.polling.Inv cfg first
  paced : ∀ id, (paced id 1 first (threshold cfg.thresholds) s.clock).Holds cfg first s.polling
  chronicle : Chronicle s.polling.store (pending newAlert s.polling.checks)
  writers : ∀ t ∈ s.polling.writers, Prunes first s.polling.store t

section Timeline

variable {cfg : WorkerConfig} {first : Db} {s s' : Paced} {a : Polling.Action}

/-- No monitor is inserted twice. -/
theorem inserted_nodup {s : Polling} (h : s.Inv cfg first) :
    (first.monitors.map (·.id) ++ inserted s.store.log).Nodup := by
  have hnumbered := h.numbered
  rw [← List.append_assoc] at hnumbered
  exact Polling.nodup_inserted hnumbered

theorem Timeline.traced (h : Timeline cfg first s) : Traced first s.polling.store :=
  h.chronicle.traced h.noAlerts h.trail.replayed (inserted_nodup h.trail)

/-- A step of the system with its clock is a step of the system. -/
theorem Paced.step_polling (hs : s.step cfg a = some s') :
    s.polling.step cfg a = some s'.polling := by
  unfold Paced.step at hs
  split at hs
  · split at hs
    · obtain ⟨polling, hstep, rfl⟩ := Option.map_eq_some_iff.mp hs
      exact hstep
    · cases hs
  · obtain ⟨polling, hstep, rfl⟩ := Option.map_eq_some_iff.mp hs
    exact hstep

/-- What a step leaves to be shown. -/
theorem Timeline.of_chronicle (h : Timeline cfg first s) (hregular : Regular s a)
    (hs : s.step cfg a = some s')
    (hchronicle : Chronicle s'.polling.store (pending newAlert s'.polling.checks))
    (hwriters : Traced first s'.polling.store →
      ∀ t ∈ s'.polling.writers, Prunes first s'.polling.store t) : Timeline cfg first s' := by
  have htrail := h.trail.step (Paced.step_polling hs)
  have htraced := hchronicle.traced h.noAlerts htrail.replayed (inserted_nodup htrail)
  refine ⟨h.noAlerts, htrail, fun id => ?_, hchronicle, hwriters htraced⟩
  exact paced_advance (F := fun db => ∀ m ∈ db.monitors, 1 ≤ m.frequency)
    (fun _ hf m hm _ => hf m hm) (h.paced id) hregular.frequency hs

/-- **Every step keeps the invariant.** -/
theorem Timeline.step (h : Timeline cfg first s) (hregular : Regular s a)
    (hs : s.step cfg a = some s') : Timeline cfg first s' := by
  have hstep := Paced.step_polling hs
  by_cases hcheck : ∃ i choice, a = .check i choice
  · obtain ⟨i, choice, rfl⟩ := hcheck
    obtain ⟨pool, hpool, heq⟩ := Option.map_eq_some_iff.mp hstep
    obtain ⟨before, thread, thread', after, hi, hthreads, hthreads', -, hthread⟩ :=
      Pool.advance_cases hpool
    obtain ⟨m, -, hchecking⟩ := h.trail.checking i thread hi
    obtain ⟨-, ws, hext, hws⟩ := Polling.Checking.step hchecking hthread
    refine h.of_chronicle hregular hs ?_ fun htraced t ht => ?_
    · rw [← heq]
      show Chronicle pool.shared (pending newAlert pool.threads)
      have hchronicle := h.chronicle
      rw [show s.polling.checks = _ from hthreads] at hchronicle
      rw [hthreads']
      exact hchronicle.check hthread hext (hws.imp_right And.left)
    · rw [← heq] at ht htraced ⊢
      exact (h.writers t ht).rely (htraced.rely hext)
  · by_cases hwrite : ∃ i choice, a = .write i choice
    · obtain ⟨i, choice, rfl⟩ := hwrite
      obtain ⟨pool, hpool, heq⟩ := Option.map_eq_some_iff.mp hstep
      obtain ⟨before, thread, thread', after, hi, hthreads, hthreads', -, hthread⟩ :=
        Pool.advance_cases hpool
      have hmem : thread ∈ s.polling.writers := List.mem_of_getElem? hi
      obtain ⟨-, ws, hext, hws⟩ := (Polling.trailed_kept cfg first).writes
        ⟨(h.trail.writing thread hmem).sends, (h.trail.writing thread hmem).quiet⟩ hthread
      obtain ⟨hleaves, hprunes⟩ := (h.writers thread hmem).step h.traced
        (h.chronicle.ordered fun id => (h.paced id).rows) (hregular.locked choice rfl) hthread
      refine h.of_chronicle hregular hs ?_ fun htraced t ht => ?_
      · rw [← heq]
        exact h.chronicle.write hext hws hleaves
      · rw [← heq] at ht htraced ⊢
        have hold : ∀ t ∈ before ++ thread :: after, Prunes first pool.shared t := by
          intro t ht
          rw [← show s.polling.writers = _ from hthreads] at ht
          exact (h.writers t ht).rely (htraced.rely hext)
        rw [show pool.threads = _ from hthreads'] at ht
        rcases List.mem_append.mp ht with ht | ht
        · exact hold t (List.mem_append_left _ ht)
        · rcases List.mem_cons.mp ht with rfl | ht
          · exact hprunes
          · exact hold t (List.mem_append_right _ (List.mem_cons_of_mem _ ht))
    · obtain ⟨hext, hpending, hwriters⟩ := Polling.step_onward
        (fun i choice ha => hcheck ⟨i, choice, ha⟩) (fun i choice ha => hwrite ⟨i, choice, ha⟩) hstep
      refine h.of_chronicle hregular hs (h.chronicle.nothing hext hpending) fun htraced t ht => ?_
      rcases hwriters t ht with ht | ⟨w, rfl⟩
      · exact (h.writers t ht).rely (htraced.rely hext)
      · exact prunes_program w

end Timeline

/-! ### What is read -/

/-- Of rows in the order of their times: the last ones from the last on, or for a negative number the
first ones. -/
theorem latest_reverse {α : Type} {createdAt : α → Time} {rows : List α}
    (h : rows.Pairwise fun a b => createdAt a < createdAt b) (take : Int) :
    latest createdAt take rows =
      if 0 ≤ take then rows.reverse.take take.toNat else (rows.take take.natAbs).reverse := by
  let le : α → α → Bool := fun a b => createdAt b ≤ createdAt a
  have hnodup : (rows.map createdAt).Nodup :=
    List.pairwise_map.mpr (h.imp fun hlt => Int.ne_of_lt hlt)
  have hsorted : (rows.mergeSort le).Pairwise fun a b => le a b = true := by
    refine List.pairwise_mergeSort (fun a b c hab hbc => ?_) (fun a b => ?_) rows
    · exact decide_eq_true (Int.le_trans (of_decide_eq_true hbc) (of_decide_eq_true hab))
    · rw [Bool.or_eq_true, decide_eq_true_iff, decide_eq_true_iff]
      exact Int.le_total _ _
  have hreverse : rows.reverse.Pairwise fun a b => le a b = true :=
    List.pairwise_reverse.mpr (h.imp fun hlt => decide_eq_true (Int.le_of_lt hlt))
  have hsort : rows.mergeSort le = rows.reverse := by
    refine List.Perm.eq_of_pairwise (fun a b ha hb hab hba => ?_) hsorted hreverse
      ((List.mergeSort_perm rows le).trans (List.reverse_perm rows).symm)
    refine List.inj_on_of_nodup_map hnodup (List.mem_mergeSort.mp ha) (List.mem_reverse.mp hb) ?_
    exact Int.le_antisymm (of_decide_eq_true hba) (of_decide_eq_true hab)
  show (if 0 ≤ take then (rows.mergeSort le).take take.toNat
    else (rows.mergeSort le).drop ((rows.mergeSort le).length - take.natAbs)) = _
  rw [hsort, List.length_reverse, List.reverse_take]

/-- A statement that reads, when nothing fails. -/
theorem run_query {α : Type} {q : Sql} {k : q.Out → Client (Except ApiError α)} {st : Store}
    {choices : Nat → Choice} {out : q.Out} (hcalm : ∀ i, (choices i).fault = .none)
    (hplan : q.plan (choices 0).moment st.seq st.db = (st.seq, .ok (out, []))) :
    (query q k).run handle choices st .idle =
      (k out).run handle (fun i => choices (i + 1)) st .idle := by
  have hsend : Session.idle.send (choices 0) st q = (st, .idle, .ok out) := by
    simp only [Session.send, hcalm, Session.perform, Sql.execute, hplan, replay, Store.commit,
      List.append_nil, Fault.reply]
  show Prog.run handle (Prog.bind (.ret (Session.idle.send (choices 0) st q).2.2) _)
    (fun i => choices (i + 1)) (Session.idle.send (choices 0) st q).1
    (Session.idle.send (choices 0) st q).2.1 = _
  rw [hsend]
  rfl

/-- The alerts that a request for some number of them is answered with. -/
def shown (take : Int) (alerts : List Alert) : List Alert :=
  if 0 ≤ take then alerts.reverse.take take.toNat else (alerts.take take.natAbs).reverse

/-- What `getAlerts` answers the owner of a monitor when nothing fails. -/
theorem getAlerts_answers {st : Store} (hids : (st.db.monitors.map (·.id)).Nodup) {m : Monitor}
    (hm : m ∈ st.db.monitors) (limit : Option Int) {choices : Nat → Choice}
    (hcalm : ∀ i, (choices i).fault = .none) :
    ((getAlerts m.id m.userId limit).run handle choices st .idle).2.2 =
      .ok ((latest (·.createdAt) (limit.getD 20) (ofMonitor m.id st.db.alerts)).map
        AlertResponseDto.fromEntity) := by
  have hfind : st.db.monitors.find? (·.id = m.id) = some m := by
    cases hrow : st.db.monitors.find? (·.id = m.id) with
    | none => simpa using List.find?_eq_none.mp hrow m hm
    | some row =>
        have hid : row.id = m.id := by simpa using List.find?_some hrow
        rw [List.inj_on_of_nodup_map hids (List.mem_of_find?_eq_some hrow) hm hid]
  have hplan : (Sql.findUniqueMonitor m.id).plan (choices 0).moment st.seq st.db =
      (st.seq, .ok (some m, [])) := by
    rw [Sql.plan, hfind]
  rw [getAlerts, readOwned, run_query hcalm hplan]
  simp only [ne_eq, not_true_eq_false, if_false]
  rw [run_query (fun i => hcalm (i + 1)) rfl]
  rfl

/-! ### Runs -/

/-- Before the first fetch. -/
theorem Unchecked.timeline {cfg : WorkerConfig} {st : Store} (h : Unchecked st)
    (halerts : st.db.alerts = []) (now : Time) :
    Timeline cfg st.db ⟨Polling.start st, now⟩ where
  noAlerts := halerts
  trail := h.inv
  paced id := by
    refine Polling.Scheme.holds_start h.keyed h.log ⟨?_, fun m hm hid => ?_⟩
    · rw [checkTimes, List.filterMap_nil, List.append_nil]
      cases (st.db.monitors.find? (·.id = id)).bind (·.lastCheckedAt) with
      | none => exact .nil
      | some t => exact List.isChain_singleton _
    · rw [checkTimes, ← hid, h.keyed.find?_monitor hm, List.filterMap_nil, List.append_nil,
        Option.bind_some]
      cases m.lastCheckedAt <;> rfl
  chronicle := by
    constructor
    · show Apart (st.log.filterMap newAlert) [] st.seq.alerts
      rw [h.log]
      exact ⟨List.nodup_nil, fun _ hid => absurd hid List.not_mem_nil⟩
    · show ∀ id, ((ofMonitor id (raised st.log)).map (·.createdAt)).Sublist _
      rw [h.log]
      exact fun _ => List.nil_sublist _
    · show ∀ id, ofMonitor id st.db.alerts <:+ _
      rw [halerts]
      exact fun _ => List.nil_suffix
  writers t ht := absurd ht List.not_mem_nil

/-- **The alerts tell the truth.** In every state of every run of the worker beside any requests,
resets and retention passes, whatever fails: of every monitor the alerts that are there are the last
ones that were ever raised. They alternate, they are in the order of their times, no two at the
same, and the last one says whether the monitor is down. `getAlerts` shows its owner the newest of
these, as many as are asked for. -/
theorem alerts_tell (cfg : WorkerConfig) (st : Store) (hst : Unchecked st)
    (halerts : st.db.alerts = []) (now : Time) (actions : List Polling.Action) (s : Paced)
    (hrun : Guarded (Paced.step cfg) Regular ⟨Polling.start st, now⟩ actions s) :
    ∀ m ∈ s.polling.store.db.monitors,
      let alerts := ofMonitor m.id s.polling.store.db.alerts
      alerts <:+ ofMonitor m.id (raised s.polling.store.log) ∧
        (∀ a ∈ alerts, a.alertType = "down" ∨ a.alertType = "recovery") ∧
        (alerts.map (·.alertType)).IsChain (· ≠ ·) ∧
        alerts.Pairwise (fun a b => a.createdAt < b.createdAt) ∧
        (∀ a ∈ alerts.getLast?, a.alertType = "down" ↔ m.lastState = some "unhealthy") ∧
        ∀ (limit : Option Int) (choices : Nat → Choice), (∀ i, (choices i).fault = .none) →
          ((getAlerts m.id m.userId limit).run handle choices s.polling.store .idle).2.2 =
            .ok ((shown (limit.getD 20) alerts).map AlertResponseDto.fromEntity) := by
  have h : Timeline cfg st.db s := hrun.invariant (I := Timeline cfg st.db)
    (fun s a s' h hregular hs => h.step hregular hs) (hst.timeline halerts now)
  intro m hm alerts
  have hlast : alerts <:+ ofMonitor m.id (raised s.polling.store.log) := h.chronicle.last m.id
  have hrow := h.trail.trail.rows m hm
  have htold := history_alternating (threshold cfg.thresholds) (probeStates m.id s.polling.store.log)
  -- what is left are the last alerts of the fold
  have htypes : alerts.map (·.alertType) <:+ (history (threshold cfg.thresholds)
      (probeStates m.id s.polling.store.log)).alerts := by
    rw [← hrow.alerts, alertTypes_eq]
    exact hlast.map _
  have hordered : alerts.Pairwise fun a b => a.createdAt < b.createdAt :=
    h.chronicle.ordered (fun id => (h.paced id).rows) m.id
  refine ⟨hlast, fun a ha => ?_, htold.distinct.suffix htypes, hordered, fun a ha => ?_,
    fun limit choices hcalm => ?_⟩
  · exact htold.kinds _ (htypes.subset (List.mem_map_of_mem ha))
  · have hfold : (history (threshold cfg.thresholds)
        (probeStates m.id s.polling.store.log)).alerts.getLast? = some a.alertType := by
      obtain ⟨gone, hgone⟩ := htypes
      rw [← hgone, List.getLast?_append, List.getLast?_map, Option.mem_def.mp ha]
      rfl
    have hdown := htold.last
    rw [← hrow.state, hfold] at hdown
    simp [hdown]
  · have hids : (s.polling.store.db.monitors.map (·.id)).Nodup :=
      h.trail.trail.ids.nodup (inserted_nodup h.trail)
    rw [getAlerts_answers hids hm limit hcalm, latest_reverse hordered, shown]

/-- A poll cycle with a check that raises an alert. -/
def alarmed (choice : Choice) : List Polling.Action :=
  [.fetch choice, .tau, .tau, .tau, .tau, .tau] ++ List.replicate 8 (.check 0 choice) ++
    [.workReturns 0, .receive, .tau, .tau, .tau, .again]

/-- A failed check, a retention pass which deletes its alert, and a check that succeeds. -/
def recovered : List Polling.Action :=
  let probe := fun state => (.ok ⟨state, 0, none, none, none⟩ : Except String Checker.Result)
  alarmed (.calm 0 (probe "unhealthy")) ++
    .call (.retain ⟨1, 1, 10, 10, 1⟩) ::
      List.replicate 7 (.write 0 (.calm 86430000000 (probe "healthy"))) ++
    alarmed (.calm 60000000 (probe "healthy"))

theorem alerts_tell_recovered : ∃ s,
    Guarded (Paced.step ⟨["http"], [1], 1⟩) Regular ⟨Polling.start newSite, 0⟩ recovered s ∧
      (raised s.polling.store.log).map (·.alertType) = ["down", "recovery"] ∧
      s.polling.store.db.alerts.map (·.alertType) = ["recovery"] ∧
      ∀ m ∈ s.polling.store.db.monitors,
        let alerts := ofMonitor m.id s.polling.store.db.alerts
        alerts <:+ ofMonitor m.id (raised s.polling.store.log) ∧
          (∀ a ∈ alerts, a.alertType = "down" ∨ a.alertType = "recovery") ∧
          (alerts.map (·.alertType)).IsChain (· ≠ ·) ∧
          alerts.Pairwise (fun a b => a.createdAt < b.createdAt) ∧
          (∀ a ∈ alerts.getLast?, a.alertType = "down" ↔ m.lastState = some "unhealthy") ∧
          ∀ (limit : Option Int) (choices : Nat → Choice), (∀ i, (choices i).fault = .none) →
            ((getAlerts m.id m.userId limit).run handle choices s.polling.store .idle).2.2 =
              .ok ((shown (limit.getD 20) alerts).map AlertResponseDto.fromEntity) := by
  have hexec : (execWithin (Paced.step ⟨["http"], [1], 1⟩) Regular ⟨Polling.start newSite, 0⟩
      recovered).map (fun s => ((raised s.polling.store.log).map (·.alertType),
        s.polling.store.db.alerts.map (·.alertType))) =
        some (["down", "recovery"], ["recovery"]) := by
    decide +kernel
  obtain ⟨s, hs, heq⟩ := Option.map_eq_some_iff.mp hexec
  simp only [Prod.mk.injEq] at heq
  have hrun := guarded_of_exec hs
  exact ⟨s, hrun, heq.1, heq.2, alerts_tell _ _ newSite_unchecked rfl 0 _ _ hrun⟩

end Sentinel.System
