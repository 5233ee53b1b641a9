import Sentinel.System.Polling

/-!
# System — Pace

When checks are committed, for a worker and a database that read one clock, which does not go back.

* `checkTimes` are the times of the checks ever committed of a monitor, in order.
* `Paced`: the system of `Polling` with its clock.
* `paced`: the scheme. A row has the time of the last check of its monitor, an item that waits may
  be checked again by now, and a check that has committed nothing by the time at which it began.
* `checks_spaced`: the checks of a monitor are as far apart as its frequency says.
-/

namespace Sentinel.Database

/-- The time of a check of a monitor. -/
def Write.checkTime (id : Int) : Write → Option Time
  | .insertCheckResult r => if r.monitorId = id then some r.createdAt else none
  | _ => none

/-- When a monitor was checked: last in the tables `first`, and then by the changes of `log`. -/
def checkTimes (id : Int) (first : Db) (log : List Write) : List Time :=
  ((first.monitors.find? (·.id = id)).bind (·.lastCheckedAt)).toList ++
    log.filterMap (Write.checkTime id)

/-- What a check writes that has read the clock at `floor` or later. -/
def Write.Since (floor : Time) : Write → Prop
  | .insertCheckResult r => floor ≤ r.createdAt
  | .setChecked _ _ checkedAt _ => floor ≤ checkedAt
  | _ => True

/-- A change that tells nothing of when a monitor was checked. -/
def Write.Unpaced : Write → Prop
  | .insertMonitor m => m.lastCheckedAt = none
  | .setChecked _ _ _ _ | .insertCheckResult _ => False
  | _ => True

theorem Write.checkTime_of_about {w : Write} {id : Int} (h : w.about ≠ some id) :
    w.checkTime id = none := by
  cases w with
  | insertCheckResult r => exact if_neg fun hid => h (congrArg some hid)
  | insertUser | setDemoUser | insertMonitor | setChecked | setFields | setSeeded | hide
  | deleteMonitor | deleteCheckResult | insertAlert | deleteAlert => rfl

theorem Write.Unpaced.checkTime {w : Write} (hw : w.Unpaced) (id : Int) :
    w.checkTime id = none := by
  cases w with
  | insertCheckResult => cases hw
  | insertUser | setDemoUser | insertMonitor | setChecked | setFields | setSeeded | hide
  | deleteMonitor | deleteCheckResult | insertAlert | deleteAlert => rfl

theorem checkTimes_append {id : Int} {first : Db} {log ws : List Write}
    (hws : ∀ w ∈ ws, w.checkTime id = none) :
    checkTimes id first (log ++ ws) = checkTimes id first log := by
  rw [checkTimes, List.filterMap_append, List.filterMap_eq_nil_iff.mpr hws, List.append_nil]
  rfl

/-- A monitor that is new was never checked. -/
theorem checkTimes_fresh {id : Int} {first : Db} {log : List Write}
    (hfirst : id ∉ first.monitors.map (·.id)) (hlog : ∀ w ∈ log, w.about ≠ some id) :
    checkTimes id first log = [] := by
  have hnone : first.monitors.find? (·.id = id) = none := by
    refine List.find?_eq_none.mpr fun m hm hid => hfirst ?_
    exact List.mem_map.mpr ⟨m, hm, of_decide_eq_true hid⟩
  rw [checkTimes, hnone, List.filterMap_eq_nil_iff.mpr fun w hw =>
    Write.checkTime_of_about (hlog w hw)]
  rfl

end Sentinel.Database

namespace Sentinel.System

open Program Database Api Worker Transition

/-- Polling, with the clock that the worker and the database read. -/
structure Paced where
  polling : Polling
  clock : Time

/-- A step in which what the worker or the database reads of the clock is not before the clock. The
clocks of the writers do not matter. -/
def Paced.step (cfg : WorkerConfig) (s : Paced) (a : Polling.Action) : Option Paced :=
  match a.choice with
  | some choice =>
      if s.clock ≤ choice.moment.now then
        (s.polling.step cfg a).map fun polling => ⟨polling, choice.moment.now⟩
      else none
  | none => (s.polling.step cfg a).map fun polling => ⟨polling, s.clock⟩

/-- The frequency of a monitor, in seconds, is `f`. -/
def KeepsFrequency (id f : Int) (db : Db) : Prop := ∀ m ∈ db.monitors, m.id = id → m.frequency = f

instance (id f : Int) (db : Db) : Decidable (KeepsFrequency id f db) :=
  inferInstanceAs (Decidable (∀ m ∈ db.monitors, _))

/-! ### Rows -/

/-- The checks of a monitor are at least `f` seconds apart, and its row has the time of the last. -/
structure OnTime (id f : Int) (first db : Db) (log : List Write) : Prop where
  spaced : (checkTimes id first log).IsChain fun a b => a + f * 1000000 ≤ b
  row : ∀ m ∈ db.monitors, m.id = id → m.lastCheckedAt = (checkTimes id first log).getLast?

/-- A monitor, if it is the one with the id, may be checked again. -/
def Rested (id f : Int) (first : Db) (log : List Write) (now : Time) (m : Checker.Monitor) : Prop :=
  m.id = id → ∀ last ∈ (checkTimes id first log).getLast?, last + f * 1000000 ≤ now

section Rows

variable {id f : Int} {first db db' : Db} {log ws : List Write} {m : Checker.Monitor}
  {now floor : Time} {t : Int}

theorem Rested.mono (h : Rested id f first log now m) {later : Time} (hle : now ≤ later) :
    Rested id f first log later m :=
  fun hid last hlast => Int.le_trans (h hid last hlast) hle

theorem Rested.append (h : Rested id f first log now m)
    (hws : m.id = id → ∀ w ∈ ws, w.checkTime id = none) :
    Rested id f first (log ++ ws) now m := by
  intro hid
  rw [checkTimes_append (hws hid)]
  exact h hid

/-- A monitor that is due may be checked. -/
theorem OnTime.due (h : OnTime id f first db log) {m : Monitor} (hm : m ∈ db.monitors)
    (hf : m.id = id → f ≤ m.frequency) (hdue : m.due now = true) :
    Rested id f first log now m.snapshot := by
  intro hid last hlast
  rw [← h.row m hm hid] at hlast
  have hsince := (Bool.and_eq_true_iff.mp hdue).2
  rw [Option.mem_def.mp hlast, Option.all_some, decide_eq_true_iff] at hsince
  have hle : f * 1000000 ≤ m.frequency * 1000000 :=
    Int.mul_le_mul_of_nonneg_right (hf hid) (by decide)
  exact Int.le_trans (Int.add_le_add_left hle last) hsince

theorem OnTime.unpaced_one (hreplay : replay first log = .ok db) (h : OnTime id f first db log)
    {w : Write} (hw : w.Unpaced)
    (hfresh : ∀ id, w.newMonitor = some id → id ∉ first.monitors.map (·.id) ++ inserted log) :
    OnTime id f first (w.apply db) (log ++ [w]) := by
  have htimes : checkTimes id first (log ++ [w]) = checkTimes id first log := by
    refine checkTimes_append fun v hv => ?_
    rw [List.mem_singleton.mp hv]
    exact hw.checkTime id
  constructor
  · rw [htimes]
    exact h.spaced
  · rw [htimes]
    intro m hm hid
    cases w with
    | insertMonitor row =>
        rcases List.mem_append.mp hm with hm | hm
        · exact h.row m hm hid
        · -- its number is new, so it was never checked
          obtain rfl := List.mem_singleton.mp hm
          have hnew := hfresh m.id rfl
          have habout : ∀ w ∈ log, w.about ≠ some m.id := fun w hw hid =>
            hnew (about_replay (List.sublist_append_left _ (inserted [])) hreplay w hw m.id hid)
          rw [← hid, checkTimes_fresh (fun h => hnew (List.mem_append_left _ h)) habout]
          exact hw
    | setFields | setSeeded | hide =>
        rcases Db.mem_onMonitor hm with ⟨hm, -⟩ | ⟨old, hold, -, rfl⟩
        · exact h.row m hm hid
        · exact h.row old hold hid
    | deleteMonitor => exact h.row m (List.mem_filter.mp hm).1 hid
    | insertUser | setDemoUser | deleteCheckResult | insertAlert | deleteAlert =>
        exact h.row m hm hid
    | setChecked | insertCheckResult => cases hw

/-- **Changes that are not of checks keep the rows on time.** -/
theorem OnTime.unpaced (hfirst : replay first log = .ok db) (h : OnTime id f first db log)
    (hws : ∀ w ∈ ws, w.Unpaced) (hreplay : replay db ws = .ok db')
    (hnodup : (first.monitors.map (·.id) ++ inserted (log ++ ws)).Nodup) :
    OnTime id f first db' (log ++ ws) := by
  refine (replay_fresh (P := fun db log => replay first log = .ok db ∧ OnTime id f first db log)
    (fun h hw hadmits hfresh => ⟨?_, h.2.unpaced_one h.1 hw hfresh⟩) ⟨hfirst, h⟩ hws hreplay
      hnodup).2
  rw [replay_append, h.1]
  exact replay_cons.mpr ⟨hadmits, rfl⟩

theorem checkTimes_checkWrites (m : Checker.Monitor) (result : Checker.Result)
    (evaluation : FsmEvaluation) (now : Time) (resultId alertId : Int) :
    checkTimes id first (log ++ checkWrites m result evaluation now resultId alertId) =
      checkTimes id first log ++ if m.id = id then [now] else [] := by
  rw [checkTimes, List.filterMap_append, ← List.append_assoc]
  by_cases hid : m.id = id
  · by_cases halert : evaluation.alertType = ""
    · simp [checkWrites, halert, Write.checkTime, hid, checkTimes]
    · simp [checkWrites, halert, Write.checkTime, hid, checkTimes]
  · by_cases halert : evaluation.alertType = ""
    · simp [checkWrites, halert, Write.checkTime, hid, checkTimes]
    · simp [checkWrites, halert, Write.checkTime, hid, checkTimes]

theorem monitors_checkWrites (db : Db) (m : Checker.Monitor) (result : Checker.Result)
    (evaluation : FsmEvaluation) (now : Time) (resultId alertId : Int) :
    ((checkWrites m result evaluation now resultId alertId).foldl Write.apply db).monitors =
      (db.onMonitor m.id (·.checked evaluation.state now
        evaluation.consecutiveFailures)).monitors := by
  by_cases halert : evaluation.alertType = ""
  · simp [checkWrites, halert, Write.apply, Db.onMonitor]
  · simp [checkWrites, halert, Write.apply, Db.onMonitor]

/-- **A check of a monitor that may be checked keeps the rows on time.** -/
theorem OnTime.check (h : OnTime id f first db log) (hws : Checks t m ws)
    (hsince : ∀ w ∈ ws, w.Since floor) (hrested : Rested id f first log floor m)
    (hreplay : replay db ws = .ok db') : OnTime id f first db' (log ++ ws) := by
  obtain ⟨result, now, resultId, alertId, rfl⟩ := hws
  have hnow : floor ≤ now := hsince _ (List.mem_append_left _ List.mem_cons_self)
  constructor
  · rw [checkTimes_checkWrites, List.isChain_append]
    refine ⟨h.spaced, ?_, fun last hlast next hnext => ?_⟩
    · split
      · exact List.isChain_singleton _
      · exact .nil
    · split at hnext
      · rename_i hid
        cases hnext
        exact Int.le_trans (hrested hid last hlast) hnow
      · cases hnext
  · rw [checkTimes_checkWrites]
    intro row hrow hid
    rw [replay_eq_foldl hreplay, monitors_checkWrites] at hrow
    rcases Db.mem_onMonitor hrow with ⟨hrow, hne⟩ | ⟨old, hold, heq, rfl⟩
    · rw [if_neg (fun heq => hne (hid.trans heq.symm)), List.append_nil]
      exact h.row row hrow hid
    · rw [if_pos (heq.symm.trans hid), List.getLast?_concat]
      rfl

end Rows

/-! ### Checks and writers -/

/-- What the worker reads of the clock is not before `floor`. -/
def ReadsSince (floor : Time) : (o : Op) → o.Res → Prop
  | .now, now => floor ≤ now
  | _, _ => True

theorem handle_readsSince {floor : Time} {choice : Choice} (h : floor ≤ choice.moment.now)
    (st : Store) (s : Session) (o : Op) : ReadsSince floor o (handle choice st s o).2.2 := by
  cases o with
  | now => exact h
  | begin | commit | rollback | sql | probe | ctxErr | readFile | hash => trivial

theorem persist_since {floor now : Time} (hnow : floor ≤ now) (m : Checker.Monitor)
    (result : Checker.Result) (evaluation : FsmEvaluation) :
    (persist m result evaluation now).Only (·.Writes (Write.Since floor)) := by
  have hother : ∀ {o : Op}, (∀ q, o ≠ .sql q) → o.Writes (Write.Since floor) :=
    fun ho => Op.writes_of_makes fun q hq => absurd hq (ho q)
  have hsql : ∀ {q : Sql}, (∀ w, q.Makes w → w.Since floor) →
      (Op.sql q).Writes (Write.Since floor) := by
    intro q hmakes
    refine Op.writes_of_makes fun q' hq' => ?_
    cases hq'
    exact hmakes
  have hcommit : commitCheck.Only (·.Writes (Write.Since floor)) := by
    refine Prog.only_bind (fun r => ?_) (Prog.only_op (hother fun q hq => (nomatch hq)))
    cases r <;> trivial
  refine Prog.only_bind (fun r => ?_) (Prog.only_op (hsql fun w hw => ?_))
  · cases r with
    | error err => trivial
    | ok _ =>
        refine Prog.only_bind (fun r => ?_) (Prog.only_op (hsql fun w hw => ?_))
        · cases r with
          | error err => trivial
          | ok rowsAffected =>
              simp only
              split
              · trivial
              · unfold persistAlert
                split
                · refine Prog.only_bind (fun r => ?_) (Prog.only_op (hsql fun w hw => ?_))
                  · cases r with
                    | error err => trivial
                    | ok _ => exact hcommit
                  · cases hw
                    trivial
                · exact hcommit
        · cases hw
          exact hnow
  · cases hw
    exact hnow

/-- A check writes the time that it has read. -/
theorem checkAndPersist_since (registered : List String) (m : Checker.Monitor)
    (thresholds : List Int) (floor : Time) :
    (checkAndPersist registered m thresholds).Yields (·.Writes (Write.Since floor))
      (ReadsSince floor) fun _ => True := by
  have hother : ∀ {o : Op}, (∀ q, o ≠ .sql q) → o.Writes (Write.Since floor) :=
    fun ho => Op.writes_of_makes fun q hq => absurd hq (ho q)
  unfold checkAndPersist
  split
  · trivial
  · refine Prog.yields_bind (Prog.yields_op (hother fun q hq => (nomatch hq))
      fun probe _ => ?_)
    cases probe with
    | error err => trivial
    | ok result =>
        refine Prog.yields_bind (Prog.yields_op (hother fun q hq => (nomatch hq))
          fun now hnow => ?_)
        refine Prog.Only.yields (Prog.only_bind (fun r => ?_)
          (Prog.only_op (hother fun q hq => (nomatch hq))))
        cases r with
        | error err => trivial
        | ok _ =>
            refine Prog.only_bind (fun r => ?_) (persist_since hnow m result _)
            exact Prog.only_bind (fun _ => Prog.only_ret)
              (Prog.only_op (hother fun q hq => (nomatch hq)))

/-- Writers tell nothing of when a monitor was checked. -/
theorem WriterSends.unpaced {o : Op} (ho : WriterSends o) : o.Writes Write.Unpaced := by
  rintro a ws b hadds w hw
  cases hadds with
  | nothing => cases hw
  | sql hplan =>
      cases Sql.plan_makes hplan w hw with
      | insertCheckResult | updateChecked => rcases ho with h | h | h <;> cases h
      | insertDemoMonitor =>
          cases hplan
          cases List.mem_singleton.mp hw
          exact rfl
      | createMonitor | createSeeded => exact rfl
      | insertAlert | deleteOwnedCheckResults | deleteOwnedAlerts | deleteOwnedMonitors
      | deleteExpiredCheckResult | deleteExpiredAlert | updateMonitor | deleteCheckResults
      | deleteAlerts | deleteMonitor | createUser | updateDemoUser | createDemoUser | updateSeeded
      | hide => trivial

/-! ### The scheme -/

/-- A check that began at `floor` or later, when its monitor could be checked, unless it has
committed already. -/
structure OnPace (id f : Int) (first : Db) (t : Int) (log : List Write) (m : Checker.Monitor)
    (thread : Thread Op Op.Res Session (Option WorkError)) (committed : Bool) (floor : Time) :
    Prop where
  once : thread.Safe handle (Once (Checks t m)) (fun _ _ _ => True) committed
  sends : thread.prog.Yields (·.Writes (Write.Since floor)) (ReadsSince floor) fun _ => True
  since : ∀ w ∈ thread.own.writes, w.Since floor
  rested : committed = false → Rested id f first log floor m

/-- What is known when the clock shows `now`. -/
def paced (id f : Int) (first : Db) (t : Int) (now : Time) : Polling.Scheme where
  rows := OnTime id f first
  item log := Rested id f first log now
  check log m thread := ∃ committed floor, floor ≤ now ∧
    OnPace id f first t log m thread committed floor
  writer := Write.Unpaced

section Scheme

variable {id f : Int} {first : Db} {t : Int} {log ws : List Write} {m : Checker.Monitor}
  {thread thread' : Thread Op Op.Res Session (Option WorkError)} {committed : Bool}
  {now floor : Time}

theorem OnPace.append (h : OnPace id f first t log m thread committed floor)
    (hws : m.id = id → ∀ w ∈ ws, w.checkTime id = none) :
    OnPace id f first t (log ++ ws) m thread committed floor :=
  ⟨h.once, h.sends, h.since, fun hcommitted => (h.rested hcommitted).append hws⟩

/-- Nothing else is told of a monitor by changes that are not of its checks. -/
theorem paced_stands (hws : m.id = id → ∀ w ∈ ws, w.checkTime id = none) :
    (paced id f first t now).Stands log ws m where
  item h := Rested.append h hws
  check := by
    rintro thread ⟨committed, floor, hfloor, h⟩
    exact ⟨committed, floor, hfloor, h.append hws⟩

/-- A step of a check commits nothing, or a check of a monitor that could be checked, with a time
from then on. -/
theorem OnPace.step {st st' : Store} {choice : Choice}
    (h : OnPace id f first t st.log m thread committed floor) (hnow : floor ≤ choice.moment.now)
    (hs : thread.step handle choice st = some (st', thread')) :
    ∃ ws committed', st.Extends ws st' ∧ OnPace id f first t st'.log m thread' committed' floor ∧
      (ws = [] ∨ Checks t m ws ∧ (∀ w ∈ ws, w.Since floor) ∧
        Rested id f first st.log floor m) := by
  obtain ⟨committed', ⟨ws, hext, hws⟩, honce⟩ := Thread.Safe.step h.once hs
  have hsends := h.sends
  have hown := h.since
  obtain ⟨p, own⟩ := thread
  obtain ⟨o, k, rfl, rfl, rfl⟩ := Thread.step_cases hs
  obtain ⟨⟨ws', hext', hsince⟩, hown'⟩ := handle_writes hsends.1 choice st hown
  -- both are what the operation has added to the log
  obtain rfl : ws = ws' := List.append_cancel_left (hext.log.symm.trans hext'.log)
  have hsends' := hsends.2 _ (handle_readsSince hnow st own o)
  rcases hws with ⟨rfl, rfl⟩ | ⟨hbefore, hchecks, rfl⟩
  · refine ⟨[], committed', hext, ⟨honce, hsends', hown', ?_⟩, .inl rfl⟩
    rw [hext.log, List.append_nil]
    exact h.rested
  · exact ⟨ws, true, hext, ⟨honce, hsends', hown', fun h => by cases h⟩,
      .inr ⟨hchecks, hsince, h.rested hbefore⟩⟩

/-- The scheme is kept as long as `F` holds of the tables, under which the frequency of the monitor
is `f` or more. -/
theorem paced_kept {F : Db → Prop}
    (hF : ∀ db, F db → ∀ m ∈ db.monitors, m.id = id → f ≤ m.frequency) (cfg : WorkerConfig)
    (now : Time) :
    (paced id f first (threshold cfg.thresholds) now).Kept cfg first fun db choice =>
      choice.moment.now = now ∧ F db where
  sends _ ho := ho.unpaced
  due := by
    rintro db log choice m ⟨rfl, hf⟩ hrows hm hdue
    exact hrows.due hm (hF db hf m hm) hdue
  starts h := ⟨false, now, Int.le_refl _, checkAndPersist_beside _ _ _,
    checkAndPersist_since _ _ _ _, fun w hw => (nomatch hw), fun _ => h⟩
  check := by
    rintro st st' choice m thread thread' ⟨rfl, -⟩ hrows ⟨committed, floor, hfloor, h⟩ hs
    obtain ⟨ws, committed', hext, h', hws⟩ := h.step hfloor hs
    refine ⟨ws, hext, ?_, ⟨committed', floor, hfloor, h'⟩, fun m' hid => paced_stands ?_⟩
    · show OnTime id f first st'.db st'.log
      rw [hext.log]
      rcases hws with rfl | ⟨hchecks, hsince, hrested⟩
      · rw [List.append_nil, ← Except.ok.inj hext.replayed]
        exact hrows
      · exact hrows.check hchecks hsince hrested hext.replayed
    · rintro rfl w hw
      rcases hws with rfl | ⟨hchecks, -⟩
      · cases hw
      · exact Write.checkTime_of_about (hchecks.about hid w hw)
  write hfirst hrows hws hreplay hnodup := OnTime.unpaced hfirst hrows hws hreplay hnodup
  stands hws m := paced_stands fun _ w hw => (hws w hw).checkTime id

/-- What is known now is known later. -/
theorem paced_mono {cfg : WorkerConfig} {s : Polling} {later : Time} (hle : now ≤ later)
    (h : (paced id f first t now).Holds cfg first s) :
    (paced id f first t later).Holds cfg first s where
  cycle := h.cycle
  replayed := h.replayed
  rows := h.rows
  numbered := h.numbered
  distinct := h.distinct
  started := h.started
  waiting i m hi hm := Rested.mono (h.waiting i m hi hm) hle
  checking i thread hi := by
    obtain ⟨m, hm, committed, floor, hfloor, hpace⟩ := h.checking i thread hi
    exact ⟨m, hm, committed, floor, Int.le_trans hfloor hle, hpace⟩
  ended := h.ended
  writing := h.writing

/-- A step keeps what is known, as long as the frequency is `f` or more. -/
theorem paced_advance {F : Db → Prop}
    (hF : ∀ db, F db → ∀ m ∈ db.monitors, m.id = id → f ≤ m.frequency) {cfg : WorkerConfig}
    {s s' : Paced} {a : Polling.Action}
    (h : (paced id f first (threshold cfg.thresholds) s.clock).Holds cfg first s.polling)
    (hf : F s.polling.store.db) (hs : s.step cfg a = some s') :
    (paced id f first (threshold cfg.thresholds) s'.clock).Holds cfg first s'.polling := by
  unfold Paced.step at hs
  split at hs
  · rename_i choice hchoice
    split at hs
    · rename_i hle
      obtain ⟨polling, hstep, rfl⟩ := Option.map_eq_some_iff.mp hs
      refine (paced_mono hle h).step (paced_kept hF cfg _)
        (fun choice' hchoice' => ?_) hstep
      rw [hchoice] at hchoice'
      cases hchoice'
      exact ⟨rfl, hf⟩
    · cases hs
  · rename_i hnone
    obtain ⟨polling, hstep, rfl⟩ := Option.map_eq_some_iff.mp hs
    refine h.step (paced_kept hF cfg _) (fun choice hchoice => ?_) hstep
    rw [hnone] at hchoice
    cases hchoice

/-- A step keeps what is known. -/
theorem paced_step {cfg : WorkerConfig} {s s' : Paced} {a : Polling.Action}
    (h : (paced id f first (threshold cfg.thresholds) s.clock).Holds cfg first s.polling)
    (hf : KeepsFrequency id f s.polling.store.db) (hs : s.step cfg a = some s') :
    (paced id f first (threshold cfg.thresholds) s'.clock).Holds cfg first s'.polling :=
  paced_advance (fun _ h m hm hid => (h m hm hid).ge) h hf hs

end Scheme

/-! ### Runs -/

/-- **Recorded checks honour the frequency.** In every run of the worker beside any requests, resets
and retention passes, whatever the probes take, whichever of them end first and whatever fails: as
long as the frequency of a monitor is `f`, two consecutive checks that are committed of it are at
least `f` seconds apart, and its `last_checked_at` is the time of the last. -/
theorem checks_spaced (cfg : WorkerConfig) (st : Store) (hkeyed : Keyed st.seq st.db)
    (hlog : st.log = []) (now : Time) (id f : Int) (actions : List Polling.Action) (s : Paced)
    (hrun : Guarded (Paced.step cfg) (fun s _ => KeepsFrequency id f s.polling.store.db)
      ⟨Polling.start st, now⟩ actions s) :
    let times := checkTimes id st.db s.polling.store.log
    times.IsChain (fun a b => a + f * 1000000 ≤ b) ∧
      ∀ m ∈ s.polling.store.db.monitors, m.id = id → m.lastCheckedAt = times.getLast? := by
  have hstart : OnTime id f st.db st.db [] := by
    constructor
    · rw [checkTimes, List.filterMap_nil, List.append_nil]
      cases (st.db.monitors.find? (·.id = id)).bind (·.lastCheckedAt) with
      | none => exact .nil
      | some t => exact List.isChain_singleton _
    · intro m hm hid
      rw [checkTimes, ← hid, hkeyed.find?_monitor hm, List.filterMap_nil, List.append_nil,
        Option.bind_some]
      cases m.lastCheckedAt <;> rfl
  have hholds : (paced id f st.db (threshold cfg.thresholds) s.clock).Holds cfg st.db s.polling :=
    hrun.invariant (I := fun s =>
        (paced id f st.db (threshold cfg.thresholds) s.clock).Holds cfg st.db s.polling)
      (fun s a s' h hf hs => paced_step h hf hs)
      (Polling.Scheme.holds_start hkeyed hlog hstart)
  exact ⟨hholds.rows.spaced, hholds.rows.row⟩

/-- A check that takes half a minute, a poll that finds nothing due, and the next check. -/
def twoChecks : List Polling.Action :=
  let at_ := fun now : Time => Choice.calm now (.ok ⟨"healthy", 0, none, none, none⟩)
  let check := fun now : Time => List.replicate 7 (Polling.Action.check 0 (at_ now)) ++
    [.workReturns 0, .receive, .tau, .tau, .tau, .again]
  [.fetch (at_ 0), .tau, .tau, .tau, .tau, .tau] ++ check 30000000 ++
    [.fetch (at_ 60000000), .tau, .tau, .again, .fetch (at_ 90000000), .tau, .tau, .tau, .tau,
      .tau] ++ check 91000000

theorem checks_spaced_two : ∃ s,
    Guarded (Paced.step ⟨["http"], [3], 1⟩) (fun s _ => KeepsFrequency 1 60 s.polling.store.db)
      ⟨Polling.start newSite, 0⟩ twoChecks s ∧
      checkTimes 1 newSite.db s.polling.store.log = [30000000, 91000000] ∧
      (checkTimes 1 newSite.db s.polling.store.log).IsChain (fun a b => a + 60 * 1000000 ≤ b) ∧
        ∀ m ∈ s.polling.store.db.monitors, m.id = 1 →
          m.lastCheckedAt = (checkTimes 1 newSite.db s.polling.store.log).getLast? := by
  have hrun : Guarded (Paced.step ⟨["http"], [3], 1⟩)
      (fun s _ => KeepsFrequency 1 60 s.polling.store.db) ⟨Polling.start newSite, 0⟩ twoChecks _ :=
    guarded_of_exec rfl
  exact ⟨_, hrun, rfl, checks_spaced _ _ newSite_unchecked.keyed rfl _ _ _ _ _ hrun⟩

end Sentinel.System
