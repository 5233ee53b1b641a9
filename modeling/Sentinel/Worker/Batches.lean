import Mathlib.Algebra.Order.Floor.Div
import Sentinel.Library.Sweep
import Sentinel.Worker.Retention

/-!
# Worker — Batches

What a retention pass makes of its two tables.

* `retained`: the times and ids of the rows of a table. A batch is a `sweep` of them.
* `handleIn`: the database for a host whose clock need not show UTC.
* `cleanBatches_whole`: whatever fails, the batches of a table are whole, and at most so many.
* `cleanBatches_still`: when nothing fails and nothing is locked, they are one large batch.
* `retention_exact`: both, of a pass and of passes one after another.
-/

namespace Sentinel.Worker

open Program Database Sweep

/-! ### The rows of a table -/

/-- The times and ids of the rows of a table. -/
def retained (table : RetentionTable) (db : Db) : List (Time × Int) :=
  match table with
  | .checkResult => db.checkResults.map fun r => (r.createdAt, r.id)
  | .alert => db.alerts.map fun a => (a.createdAt, a.id)

/-- The primary key. -/
def Distinct (table : RetentionTable) (db : Db) : Prop := ((retained table db).map Prod.snd).Nodup

/-- Deletes rows by their ids. -/
def deleteRows (table : RetentionTable) (ids : List Int) (db : Db) : Db :=
  match table with
  | .checkResult => { db with checkResults := db.checkResults.filter (·.id ∉ ids) }
  | .alert => { db with alerts := db.alerts.filter (·.id ∉ ids) }

/-- The order of a batch, `created_at, id`. -/
def older (a b : Time × Int) : Bool := a.1 < b.1 || (a.1 = b.1 && a.2 ≤ b.2)

theorem older_iff {a b : Int × Int} :
    older a b = true ↔ a.1 < b.1 ∨ a.1 = b.1 ∧ a.2 ≤ b.2 := by
  simp only [older, Bool.or_eq_true, Bool.and_eq_true, decide_eq_true_eq]

theorem older_linear : Linear older where
  trans := fun (a b c : Int × Int) hab hbc => by
    rw [older_iff] at *
    omega
  total := fun (a b : Int × Int) => by
    rw [Bool.or_eq_true, older_iff, older_iff]
    omega
  antisymm := fun (a b : Int × Int) hab hba => by
    rw [older_iff] at hab hba
    exact Prod.ext (by omega) (by omega)

/-- A row that is expired and that nobody has locked. -/
def expiredAt (cutoff : Time) (locked : List Int) (r : Time × Int) : Bool :=
  r.1 < cutoff && !locked.contains r.2

theorem expired_eq (rows : List (Time × Int)) (cutoff : Time) (limit : Nat) (locked : List Int) :
    expired rows cutoff limit locked =
      ((due older (expiredAt cutoff locked) rows).take limit).map Prod.snd := rfl

section Rows

variable {table : RetentionTable} {ids : List Int} {db : Db}

theorem retained_deleteRows :
    retained table (deleteRows table ids db) = (retained table db).filter (·.2 ∉ ids) := by
  cases table <;>
    simp only [retained, deleteRows, List.filter_map, Function.comp_def]

theorem retained_deleteRows_other {other : RetentionTable} (h : other ≠ table) :
    retained other (deleteRows table ids db) = retained other db := by
  cases table <;> cases other <;> first | rfl | exact absurd rfl h

theorem deleteRows_nil : deleteRows table [] db = db := by
  cases table <;> simp [deleteRows]

theorem deleteRows_deleteRows {more : List Int} :
    deleteRows table more (deleteRows table ids db) = deleteRows table (ids ++ more) db := by
  cases table <;>
    simp only [deleteRows, List.filter_filter, List.mem_append, not_or, Bool.decide_and,
      Bool.and_comm]

theorem Distinct.rows (h : Distinct table db) : (retained table db).Nodup := h.of_map

theorem Distinct.deleteRows {other : RetentionTable} (h : Distinct other db) :
    Distinct other (deleteRows table ids db) := by
  by_cases htable : other = table
  · subst htable
    rw [Distinct, retained_deleteRows]
    exact (List.filter_sublist.map _).nodup h
  · rwa [Distinct, retained_deleteRows_other htable]

/-- **A batch is a sweep** of the rows of its table. -/
theorem retained_batch (h : Distinct table db) (cutoff : Time) (limit : Nat) (locked : List Int) :
    retained table (deleteRows table (expired (retained table db) cutoff limit locked) db) =
      sweep older (expiredAt cutoff locked) limit (retained table db) := by
  rw [retained_deleteRows, sweep, expired_eq]
  refine List.filter_congr fun r hr => ?_
  rw [decide_eq_decide, not_iff_not]
  constructor
  · intro hid
    obtain ⟨r', hr', heq⟩ := List.mem_map.mp hid
    have hmem := (mem_due.mp (List.mem_of_mem_take hr')).1
    exact List.inj_on_of_nodup_map h hmem hr heq ▸ hr'
  · exact fun hmem => List.mem_map_of_mem hmem

end Rows

/-- What a batch deletes. Nothing refuses it. -/
theorem deleteExpired_execute (table : RetentionTable) (cutoff : Time) (limit : Nat)
    (moment : Moment) (seq : Seq) (db : Db) :
    ∃ ws, (Sql.deleteExpired table cutoff limit).execute moment seq db =
      (seq, .ok ((expired (retained table db) cutoff limit moment.locked).length, ws,
        deleteRows table (expired (retained table db) cutoff limit moment.locked) db)) := by
  have hdeletes : ∀ (f : Int → Write) (ids : List Int), (∀ id db, (f id).violates db = none) →
      replay db (ids.map f) = .ok ((ids.map f).foldl Write.apply db) := by
    intro f ids hf
    refine replay_unrefused (fun w hw db => ?_) db
    obtain ⟨id, -, rfl⟩ := List.mem_map.mp hw
    exact hf id db
  cases table with
  | checkResult =>
      simp only [Sql.execute, Sql.plan]
      rw [hdeletes _ _ fun _ _ => rfl, foldl_deleteCheckResult]
      exact ⟨_, rfl⟩
  | alert =>
      simp only [Sql.execute, Sql.plan]
      rw [hdeletes _ _ fun _ _ => rfl, foldl_deleteAlert]
      exact ⟨_, rfl⟩

/-- Outside of a transaction a batch fails and leaves the tables, or is committed. -/
theorem deleteExpired_send (choice : Choice) (st : Store) (table : RetentionTable) (cutoff : Time)
    (limit : Nat) :
    let ids := expired (retained table st.db) cutoff limit choice.moment.locked
    let sent := Session.idle.send choice st (.deleteExpired table cutoff limit)
    (∃ e, choice.fault = .fails e ∧ sent = (st, .idle, .error e)) ∨
      sent.1.db = deleteRows table ids st.db ∧ sent.2.1 = .idle ∧
        sent.2.2 = choice.fault.reply ids.length := by
  obtain ⟨ws, hexecute⟩ :=
    deleteExpired_execute table cutoff limit choice.moment st.seq st.db
  cases hfault : choice.fault with
  | fails e =>
      refine .inl ⟨e, rfl, ?_⟩
      simp only [Session.send, hfault]
      rfl
  | none | noRows | lostReply =>
      refine .inr ?_
      simp only [Session.send, hfault, Sql.noRows, Session.perform, hexecute, Store.commit,
        and_self]

/-! ### Clocks -/

/-- The database for a host whose clock shows `wall t` at the instant `t`. A parameter for a column
without a zone is what the clock shows. The times of a check have been converted to UTC. -/
def handleIn (wall : Time → Time) : Handler Op Op.Res Choice Store Session :=
  fun choice st s o =>
    match o with
    | .sql (.deleteExpired table cutoff limit) =>
        handle choice st s (.sql (.deleteExpired table (wall cutoff) limit))
    | o => handle choice st s o

/-- A host whose clock shows UTC. -/
theorem handleIn_id : handleIn id = handle := by
  funext choice st s o
  unfold handleIn
  split <;> rfl

namespace Trace

/-- The readings of the clock. -/
def readings (tr : List Event) : List Time :=
  tr.filterMap fun
    | ⟨.now, t⟩ => some t
    | _ => none

/-- The cutoffs of the batches of one table that are sent. -/
def cutoffs (table : RetentionTable) (tr : List Event) : List Time :=
  tr.filterMap fun
    | ⟨.sql (.deleteExpired t cutoff _), _⟩ => if t = table then some cutoff else none
    | _ => none

/-- What the batches of a table add to a trace. The clock is read before each of them. -/
structure Timed (A : Choice → Prop) (table : RetentionTable) (days : Int) (ts : List Time)
    (tr tr' : List Event) : Prop where
  clock : ∀ t ∈ ts, ∃ choice, A choice ∧ choice.moment.now = t
  readings : readings tr' = readings tr ++ ts
  cutoffs : cutoffs table tr' = cutoffs table tr ++ ts.map (retentionCutoff · days)
  others : ∀ other, other ≠ table → Trace.cutoffs other tr' = Trace.cutoffs other tr

variable {A : Choice → Prop} {table : RetentionTable} {days : Int} {ts : List Time}
  {tr tr' : List Event}

theorem timed_refl : Timed A table days [] tr tr :=
  ⟨fun _ h => absurd h List.not_mem_nil, (List.append_nil _).symm, (List.append_nil _).symm,
    fun _ _ => rfl⟩

theorem Timed.ctxErr {r : Option String} (h : Timed A table days ts (tr ++ [⟨.ctxErr, r⟩]) tr') :
    Timed A table days ts tr tr' := by
  obtain ⟨hclock, hreadings, hcutoffs, hothers⟩ := h
  simp only [Trace.readings, Trace.cutoffs, List.filterMap_append, List.filterMap_cons,
    List.filterMap_nil, List.append_nil] at hreadings hcutoffs hothers
  exact ⟨hclock, hreadings, hcutoffs, hothers⟩

theorem Timed.batch {choice : Choice} {limit : Nat} {r : Except DbError Nat} (hchoice : A choice)
    (h : Timed A table days ts (tr ++ [⟨.now, choice.moment.now⟩] ++
      [⟨.sql (.deleteExpired table (retentionCutoff choice.moment.now days) limit), r⟩]) tr') :
    Timed A table days (choice.moment.now :: ts) tr tr' := by
  obtain ⟨hclock, hreadings, hcutoffs, hothers⟩ := h
  simp only [Trace.readings, Trace.cutoffs, List.filterMap_append, List.filterMap_cons,
    List.filterMap_nil, List.append_assoc, List.singleton_append, if_true]
    at hreadings hcutoffs hothers
  refine ⟨fun t ht => ?_, hreadings, hcutoffs, fun other hother => (hothers other hother).trans ?_⟩
  · rcases List.mem_cons.mp ht with rfl | ht
    · exact ⟨choice, hchoice, rfl⟩
    · exact hclock t ht
  · rw [if_neg (Ne.symm hother)]
    exact List.append_nil _

end Trace

section Batches

variable {wall : Time → Time} {A : Choice → Prop} {α : Type}
  {Q : Store × List Event → Session → α → Prop} {st : Store} {tr : List Event}

/-- What a pass on its own comes to. -/
abbrev Cleans (wall : Time → Time) (A : Choice → Prop)
    (Q : Store × List Event → Session → α → Prop) (p : Client α) (st : Store)
    (tr : List Event) : Prop :=
  p.Post (Prog.logged (handleIn wall)) A Q (st, tr) .idle

theorem cleans_ctxErr {k : Option String → Client α}
    (h : ∀ choice, A choice → Cleans wall A Q (k choice.ctxErr) st
      (tr ++ [⟨.ctxErr, choice.ctxErr⟩])) : Cleans wall A Q (Client.ctxErr >>= k) st tr :=
  fun choice hchoice => h choice hchoice

theorem cleans_now {k : Time → Client α}
    (h : ∀ choice, A choice → Cleans wall A Q (k choice.moment.now) st
      (tr ++ [⟨.now, choice.moment.now⟩])) : Cleans wall A Q (Client.now >>= k) st tr :=
  fun choice hchoice => h choice hchoice

/-- A batch fails and leaves the tables, or is committed. Its reply may be lost then. -/
theorem cleans_delete {table : RetentionTable} {cutoff : Time} {limit : Nat}
    {k : Except DbError Nat → Client α}
    (herr : ∀ choice e, A choice → choice.fault = .fails e → Cleans wall A Q (k (.error e)) st
      (tr ++ [⟨.sql (.deleteExpired table cutoff limit), .error e⟩]))
    (hdone : ∀ choice st', A choice →
      let ids := expired (retained table st.db) (wall cutoff) limit choice.moment.locked
      st'.db = deleteRows table ids st.db →
      Cleans wall A Q (k (choice.fault.reply ids.length)) st'
        (tr ++ [⟨.sql (.deleteExpired table cutoff limit), choice.fault.reply ids.length⟩])) :
    Cleans wall A Q (Client.sql (.deleteExpired table cutoff limit) >>= k) st tr := by
  intro choice hchoice
  show Prog.Post (Prog.logged (handleIn wall)) A Q
    (k (Session.idle.send choice st (.deleteExpired table (wall cutoff) limit)).2.2)
    ((Session.idle.send choice st (.deleteExpired table (wall cutoff) limit)).1,
      tr ++ [⟨.sql (.deleteExpired table cutoff limit),
        (Session.idle.send choice st (.deleteExpired table (wall cutoff) limit)).2.2⟩])
    (Session.idle.send choice st (.deleteExpired table (wall cutoff) limit)).2.1
  have hsend := deleteExpired_send choice st table (wall cutoff) limit
  generalize Session.idle.send choice st (.deleteExpired table (wall cutoff) limit) = r at hsend ⊢
  obtain ⟨st', s, reply⟩ := r
  rcases hsend with ⟨e, hfault, hr⟩ | ⟨hdb, hs, hr⟩
  · cases hr
    exact herr choice e hchoice hfault
  · cases hs
    cases hr
    exact hdone choice st' hchoice hdb

/-- Batches of a table, each of the rows that were expired by a reading of the clock and that were
not locked. The last reading may be that of a batch that failed. -/
structure Cleaned (wall : Time → Time) (table : RetentionTable) (days : Int) (size batches : Nat)
    (ts : List Time) (before after : Db) : Prop where
  few : ts.length ≤ batches
  frame : ∃ ids, after = deleteRows table ids before
  whole : ∃ locks : List (List Int), locks.length ≤ ts.length ∧ retained table after =
    sweeps older size
      (List.zipWith (fun t locked => expiredAt (wall (retentionCutoff t days)) locked) ts locks)
      (retained table before)

section Cleaned

variable {table : RetentionTable} {days : Int} {size batches : Nat} {ts : List Time}
  {before after : Db}

theorem cleaned_refl (h : ts.length ≤ batches) :
    Cleaned wall table days size batches ts before before :=
  ⟨h, ⟨[], deleteRows_nil.symm⟩, [], Nat.zero_le _, by rw [List.zipWith_nil_right]; rfl⟩

/-- One more batch before the others. -/
theorem Cleaned.batch (hbefore : Distinct table before) {t : Time} {locked : List Int}
    (h : Cleaned wall table days size batches ts (deleteRows table (expired (retained table before)
      (wall (retentionCutoff t days)) size locked) before) after) :
    Cleaned wall table days size (batches + 1) (t :: ts) before after := by
  obtain ⟨hfew, ⟨ids, hframe⟩, locks, hlocks, hrows⟩ := h
  refine ⟨Nat.succ_le_succ hfew, ⟨_, hframe.trans deleteRows_deleteRows⟩, locked :: locks,
    Nat.succ_le_succ hlocks, hrows.trans ?_⟩
  rw [retained_batch hbefore]
  rfl

/-- A row that is deleted was expired by one of the readings. -/
theorem Cleaned.expired (h : Cleaned wall table days size batches ts before after)
    {r : Time × Int} (hr : r ∈ retained table before) (hgone : r ∉ retained table after) :
    ∃ t ∈ ts, r.1 < wall (retentionCutoff t days) := by
  obtain ⟨locks, -, hrows⟩ := h.whole
  rw [hrows] at hgone
  obtain ⟨p, hp, hexpired⟩ := of_not_mem_sweeps hr hgone
  rw [← List.map_uncurry_zip_eq_zipWith] at hp
  obtain ⟨⟨t, locked⟩, hmem, rfl⟩ := List.mem_map.mp hp
  exact ⟨t, (List.of_mem_zip hmem).1,
    of_decide_eq_true (Bool.and_eq_true_iff.mp hexpired).1⟩

theorem Cleaned.most (h : Cleaned wall table days size batches ts before after)
    (hbefore : Distinct table before) :
    (retained table before).length ≤ (retained table after).length + batches * size := by
  obtain ⟨locks, -, hrows⟩ := h.whole
  rw [hrows]
  refine (length_sweeps hbefore.rows).trans (Nat.add_le_add_left (Nat.mul_le_mul_right _ ?_) _)
  rw [List.length_zipWith]
  exact (Nat.min_le_left _ _).trans h.few

end Cleaned

/-- **The batches of a table are whole**, whatever fails, and no more than there may be. -/
theorem cleanBatches_whole {table : RetentionTable} {days batchSize : Int} :
    ∀ {batches : Nat} {st : Store} {tr : List Event}, Distinct table st.db →
      Cleans wall A (fun x s _ => s = .idle ∧ ∃ ts, Trace.Timed A table days ts tr x.2 ∧
        Cleaned wall table days batchSize.toNat batches ts st.db x.1.db)
        (cleanBatches table days batchSize batches) st tr
  | 0, _, _, _ => ⟨rfl, [], Trace.timed_refl, cleaned_refl (Nat.le_refl 0)⟩
  | batches + 1, st, tr, hdb => by
      refine cleans_ctxErr fun choice _ => ?_
      cases choice.ctxErr with
      | some err => exact ⟨rfl, [], Trace.timed_refl.ctxErr, cleaned_refl (Nat.zero_le _)⟩
      | none =>
          refine cleans_now fun clock hclock => cleans_delete (fun choice e _ _ => ?_) ?_
          · exact ⟨rfl, [_], (Trace.timed_refl.batch hclock).ctxErr,
              cleaned_refl (Nat.le_add_left 1 _)⟩
          · intro choice st' _ ids hst'
            generalize choice.fault.reply ids.length = r
            have hone : ∀ {ts after},
                Cleaned wall table days batchSize.toNat batches ts st'.db after →
                Cleaned wall table days batchSize.toNat (batches + 1) (clock.moment.now :: ts) st.db
                  after := fun h => Cleaned.batch hdb (hst' ▸ h)
            have hlast : Cleaned wall table days batchSize.toNat (batches + 1) [clock.moment.now]
                st.db st'.db := hone (cleaned_refl (Nat.zero_le batches))
            cases r with
            | error e => exact ⟨rfl, _, (Trace.timed_refl.batch hclock).ctxErr, hlast⟩
            | ok rowsAffected =>
                simp only
                split
                · exact ⟨rfl, _, (Trace.timed_refl.batch hclock).ctxErr, hlast⟩
                · split
                  · exact ⟨rfl, _, (Trace.timed_refl.batch hclock).ctxErr, hlast⟩
                  · refine cleans_ctxErr fun choice _ => ?_
                    cases choice.ctxErr with
                    | some err =>
                        exact ⟨rfl, _, (Trace.timed_refl.ctxErr.batch hclock).ctxErr, hlast⟩
                    | none =>
                        have hdb' : Distinct table st'.db := hst' ▸ hdb.deleteRows
                        refine Prog.Post.mono ?_ (cleanBatches_whole hdb')
                        rintro x s r ⟨hs, ts, htimed, hcleaned⟩
                        exact ⟨hs, _, (htimed.ctxErr.batch hclock).ctxErr, hone hcleaned⟩

/-- Nothing fails, the clock stands still and the same rows are locked all the time. -/
structure Still (now : Time) (locked : List Int) (choice : Choice) : Prop where
  fault : choice.fault = .none
  moment : choice.moment = ⟨now, locked⟩
  ctxErr : choice.ctxErr = none

theorem still_calm (now : Time) (probe : Except String Checker.Result) :
    Still now [] (Choice.calm now probe) := ⟨rfl, rfl, rfl⟩

/-- A batch that nothing disturbs is a sweep, and its reply says how many rows it was. -/
theorem cleans_sweep {table : RetentionTable} {cutoff : Time} {limit : Nat} {now : Time}
    {locked : List Int} {k : Except DbError Nat → Client α} (hdb : Distinct table st.db)
    (h : ∀ st' ids, st'.db = deleteRows table ids st.db →
      retained table st'.db =
        sweep older (expiredAt (wall cutoff) locked) limit (retained table st.db) →
      ∀ n,
        n = min limit (due older (expiredAt (wall cutoff) locked) (retained table st.db)).length →
      Cleans wall (Still now locked) Q (k (.ok n)) st'
        (tr ++ [⟨.sql (.deleteExpired table cutoff limit), .ok n⟩])) :
    Cleans wall (Still now locked) Q (Client.sql (.deleteExpired table cutoff limit) >>= k) st
      tr := by
  refine cleans_delete (fun choice e hchoice hfails => ?_) ?_
  · rw [hchoice.fault] at hfails
    cases hfails
  · intro choice st' hchoice ids hst'
    have hlocked : choice.moment.locked = locked := by rw [hchoice.moment]
    rw [hchoice.fault]
    have hids : ids = expired (retained table st.db) (wall cutoff) limit locked := by
      show expired _ _ _ _ = _
      rw [hlocked]
    rw [hids] at hst'
    refine h st' _ hst' (hst' ▸ retained_batch hdb _ _ _) _ ?_
    rw [hids, expired_eq, List.length_map, List.length_take]

/-- **Batches one after another are one large batch**, also when they stop at a short one. -/
theorem cleanBatches_still {table : RetentionTable} {days batchSize : Int} {now : Time}
    {locked : List Int} :
    ∀ {batches : Nat} {st : Store} {tr : List Event}, Distinct table st.db →
      Cleans wall (Still now locked) (fun x s r => s = .idle ∧ r = none ∧
        (∃ ids, x.1.db = deleteRows table ids st.db) ∧
        retained table x.1.db = sweep older (expiredAt (wall (retentionCutoff now days)) locked)
          (batches * batchSize.toNat) (retained table st.db))
        (cleanBatches table days batchSize batches) st tr
  | 0, _, _, _ => ⟨rfl, rfl, ⟨[], deleteRows_nil.symm⟩, by rw [Nat.zero_mul, sweep_zero]⟩
  | batches + 1, st, tr, hdb => by
      refine cleans_ctxErr fun choice hchoice => ?_
      rw [hchoice.ctxErr]
      refine cleans_now fun clock hclock => ?_
      have hnow : clock.moment.now = now := by rw [hclock.moment]
      rw [hnow]
      refine cleans_sweep hdb fun st' ids hst' hrows n hn => ?_
      have hframe : ∃ ids, st'.db = deleteRows table ids st.db := ⟨_, hst'⟩
      show Cleans wall _ _ (if (n : Int) < batchSize then _ else _) st' _
      split
      next hshort =>
        -- there is no more to delete
        have hall : (due older (expiredAt (wall (retentionCutoff now days)) locked)
            (retained table st.db)).length ≤ batchSize.toNat := by omega
        have hmore := hall.trans (Nat.le_mul_of_pos_left batchSize.toNat (Nat.succ_pos batches))
        exact ⟨rfl, rfl, hframe, by rw [hrows, sweep_all hall, sweep_all hmore]⟩
      next =>
        split
        next hzero =>
          subst hzero
          exact ⟨rfl, rfl, hframe, by rw [hrows, Nat.zero_add, Nat.one_mul]⟩
        next =>
          refine cleans_ctxErr fun choice hchoice => ?_
          rw [hchoice.ctxErr]
          have hdb' : Distinct table st'.db := hst' ▸ hdb.deleteRows
          refine Prog.Post.mono ?_ (cleanBatches_still hdb')
          rintro x s r ⟨hs, hr, ⟨more, hmore⟩, hrest⟩
          refine ⟨hs, hr, ⟨_, hmore.trans (hst' ▸ deleteRows_deleteRows)⟩, hrest.trans ?_⟩
          rw [hrows, sweep_sweep older_linear hdb.rows, Nat.add_mul, Nat.one_mul, Nat.add_comm]

end Batches

/-! ### Passes -/

namespace RetentionConfig

variable (cfg : RetentionConfig)

/-- What a pass checks before it starts. -/
structure Positive : Prop where
  checkResultDays : 0 < cfg.checkResultDays
  alertDays : 0 < cfg.alertDays
  batchSize : 0 < cfg.batchSize
  maxBatchesPerPass : 0 < cfg.maxBatchesPerPass
  dbTimeout : 0 < cfg.dbTimeout

def days : RetentionTable → Int
  | .checkResult => cfg.checkResultDays
  | .alert => cfg.alertDays

/-- The batches of a table, at most. -/
def batches : Nat := min cfg.maxBatchesPerPass.toNat retentionMaxBatchesPerPass

/-- The rows of a table that a pass deletes, at most. -/
def limit : Nat := cfg.batches * cfg.batchSize.toNat

variable {cfg}

theorem Positive.days (h : cfg.Positive) (table : RetentionTable) : 0 < cfg.days table := by
  cases table with
  | checkResult => exact h.checkResultDays
  | alert => exact h.alertDays

theorem Positive.valid (h : cfg.Positive) :
    ¬ (cfg.checkResultDays ≤ 0 ∨ cfg.alertDays ≤ 0 ∨ cfg.batchSize ≤ 0 ∨
      cfg.maxBatchesPerPass ≤ 0 ∨ cfg.dbTimeout ≤ 0) := by
  obtain ⟨hchecks, halerts, hsize, hbatches, htimeout⟩ := h
  omega

theorem Positive.limit (h : cfg.Positive) : 0 < cfg.limit := by
  obtain ⟨-, -, hsize, hbatches, -⟩ := h
  refine Nat.mul_pos ?_ (by omega)
  rw [batches, retentionMaxBatchesPerPass]
  omega

end RetentionConfig

/-- A pass on its own. -/
def pass (h : Handler Op Op.Res Choice Store Session) (cfg : RetentionConfig)
    (choices : Nat → Choice) (st : Store) :
    (Store × List Event) × Session × Option RetentionError :=
  (runRetentionPass cfg).run (Prog.logged h) choices (st, []) .idle

/-- Passes one after another. -/
def passes (h : Handler Op Op.Res Choice Store Session) (cfg : RetentionConfig)
    (runs : List (Nat → Choice)) (st : Store) : Store :=
  runs.foldl (fun st choices => (pass h cfg choices st).1.1) st

section Passes

variable {wall : Time → Time} {A : Choice → Prop} {cfg : RetentionConfig} {st : Store}

/-- Both tables have a primary key. -/
abbrev Keyed (db : Db) : Prop := ∀ table, Distinct table db

/-- What a pass leaves of `before`: whole batches of the check results are deleted, and then of the
alerts. -/
def Leaves (wall : Time → Time) (A : Choice → Prop) (cfg : RetentionConfig) (before : Db)
    (x : Store × List Event) : Prop :=
  ∃ mid ts ts',
    (∀ t ∈ ts ++ ts', ∃ choice, A choice ∧ choice.moment.now = t) ∧
    Cleaned wall .checkResult cfg.checkResultDays cfg.batchSize.toNat cfg.batches ts before mid ∧
    Cleaned wall .alert cfg.alertDays cfg.batchSize.toNat cfg.batches ts' mid x.1.db ∧
    Trace.readings x.2 = ts ++ ts' ∧
    Trace.cutoffs .checkResult x.2 = ts.map (retentionCutoff · cfg.checkResultDays) ∧
    Trace.cutoffs .alert x.2 = ts'.map (retentionCutoff · cfg.alertDays)

/-- **A pass leaves whole batches**, whatever fails. -/
theorem pass_leaves (wall : Time → Time) (cfg : RetentionConfig) (hdb : Keyed st.db)
    (choices : Nat → Choice) (hchoices : ∀ n, A (choices n)) :
    Leaves wall A cfg st.db (pass (handleIn wall) cfg choices st).1 := by
  suffices h : Cleans wall A (fun x _ _ => Leaves wall A cfg st.db x) (runRetentionPass cfg) st []
    from Prog.Post.run h hchoices
  refine cleans_ctxErr fun choice _ => ?_
  have hunchanged : ∀ {table days}, Cleaned wall table days cfg.batchSize.toNat cfg.batches []
      st.db st.db := cleaned_refl (Nat.zero_le _)
  have hnone : ∀ t ∈ ([] ++ [] : List Time), ∃ choice, A choice ∧ choice.moment.now = t :=
    fun _ h => absurd h List.not_mem_nil
  cases choice.ctxErr with
  | some err => exact ⟨st.db, [], [], hnone, hunchanged, hunchanged, rfl, rfl, rfl⟩
  | none =>
      show Cleans wall _ _ (if _ then _ else _) _ _
      split
      · exact ⟨st.db, [], [], hnone, hunchanged, hunchanged, rfl, rfl, rfl⟩
      · refine Prog.post_bind.mpr (Prog.Post.mono ?_ (cleanBatches_whole (hdb .checkResult)))
        rintro ⟨st', tr⟩ s r ⟨rfl, ts, htimed, hcleaned⟩
        have halerts : Trace.cutoffs .alert tr = [] := htimed.others .alert (by decide)
        cases r with
        | some err =>
            exact ⟨_, ts, [], by rw [List.append_nil]; exact htimed.clock, hcleaned,
              cleaned_refl (Nat.zero_le _),
              htimed.readings.trans (List.append_nil _).symm, htimed.cutoffs, halerts⟩
        | none =>
            have hdb' : Distinct .alert st'.db := by
              obtain ⟨ids, hids⟩ := hcleaned.frame
              exact hids ▸ (hdb .alert).deleteRows
            refine Prog.Post.mono ?_ (cleanBatches_whole hdb')
            rintro ⟨st'', tr'⟩ s r ⟨-, ts', htimed', hcleaned'⟩
            refine ⟨_, ts, ts', fun t ht => ?_, hcleaned, hcleaned', ?_, ?_, ?_⟩
            · exact (List.mem_append.mp ht).elim (htimed.clock t) (htimed'.clock t)
            · rw [htimed'.readings, htimed.readings]
              rfl
            · rw [htimed'.others .checkResult (by decide), htimed.cutoffs]
              rfl
            · rw [htimed'.cutoffs, halerts]
              rfl

/-- The expired rows of a table by one clock, as long as the same rows are locked. -/
def expiredBy (wall : Time → Time) (cfg : RetentionConfig) (table : RetentionTable) (now : Time)
    (locked : List Int) : Time × Int → Bool :=
  expiredAt (wall (retentionCutoff now (cfg.days table))) locked

/-- **A pass that nothing disturbs** deletes the oldest of the expired rows, up to its limit. -/
theorem pass_still (wall : Time → Time) (hcfg : cfg.Positive) (hdb : Keyed st.db) {now : Time}
    {locked : List Int} {choices : Nat → Choice} (hstill : ∀ n, Still now locked (choices n))
    (table : RetentionTable) :
    retained table (pass (handleIn wall) cfg choices st).1.1.db =
      sweep older (expiredBy wall cfg table now locked) cfg.limit (retained table st.db) := by
  suffices h : Cleans wall (Still now locked) (fun x _ _ => ∀ table, retained table x.1.db =
      sweep older (expiredBy wall cfg table now locked) cfg.limit (retained table st.db))
      (runRetentionPass cfg) st [] from Prog.Post.run h hstill table
  refine cleans_ctxErr fun choice hchoice => ?_
  rw [hchoice.ctxErr]
  show Cleans wall _ _ (if _ then _ else _) _ _
  rw [if_neg hcfg.valid]
  refine Prog.post_bind.mpr (Prog.Post.mono ?_ (cleanBatches_still (hdb .checkResult)))
  rintro ⟨st', tr⟩ s r ⟨rfl, rfl, ⟨ids, hids⟩, hresults⟩
  have hdb' : Distinct .alert st'.db := hids ▸ (hdb .alert).deleteRows
  refine Prog.Post.mono ?_ (cleanBatches_still hdb')
  rintro ⟨st'', tr'⟩ s r ⟨-, -, ⟨ids', hids'⟩, halerts⟩ table
  cases table with
  | checkResult =>
      rw [hids', retained_deleteRows_other (by decide)]
      exact hresults
  | alert =>
      refine halerts.trans ?_
      rw [hids, retained_deleteRows_other (by decide)]
      rfl

theorem Leaves.frame {before : Db} {x : Store × List Event} (h : Leaves wall A cfg before x) :
    ∃ ids ids', x.1.db = deleteRows .alert ids' (deleteRows .checkResult ids before) := by
  obtain ⟨mid, ts, ts', -, hresults, halerts, -⟩ := h
  obtain ⟨ids, rfl⟩ := hresults.frame
  obtain ⟨ids', hids'⟩ := halerts.frame
  exact ⟨ids, ids', hids'⟩

/-- A row that a pass deletes was expired by the clock. -/
theorem Leaves.expired {before : Db} {x : Store × List Event} (h : Leaves wall A cfg before x)
    {table : RetentionTable} {r : Time × Int} (hr : r ∈ retained table before)
    (hgone : r ∉ retained table x.1.db) :
    ∃ choice, A choice ∧ r.1 < wall (retentionCutoff choice.moment.now (cfg.days table)) := by
  obtain ⟨mid, ts, ts', hclock, hresults, halerts, -⟩ := h
  obtain ⟨ids, rfl⟩ := hresults.frame
  obtain ⟨ids', hids'⟩ := halerts.frame
  cases table with
  | checkResult =>
      rw [hids', retained_deleteRows_other (by decide)] at hgone
      obtain ⟨t, ht, hlt⟩ := hresults.expired hr hgone
      obtain ⟨choice, hchoice, rfl⟩ := hclock t (List.mem_append_left _ ht)
      exact ⟨choice, hchoice, hlt⟩
  | alert =>
      have hsame : retained .alert (deleteRows .checkResult ids before) = retained .alert before :=
        retained_deleteRows_other (by decide)
      rw [← hsame] at hr
      obtain ⟨t, ht, hlt⟩ := halerts.expired hr hgone
      obtain ⟨choice, hchoice, rfl⟩ := hclock t (List.mem_append_right _ ht)
      exact ⟨choice, hchoice, hlt⟩

theorem pass_keyed (wall : Time → Time) (cfg : RetentionConfig) (hdb : Keyed st.db)
    (choices : Nat → Choice) : Keyed (pass (handleIn wall) cfg choices st).1.1.db := by
  have hleaves := pass_leaves (A := fun _ => True) wall cfg hdb choices fun _ => trivial
  obtain ⟨ids, ids', hafter⟩ := hleaves.frame
  exact fun table => hafter ▸ (hdb table).deleteRows.deleteRows

/-- So do passes one after another. -/
theorem passes_still (wall : Time → Time) (hcfg : cfg.Positive) {now : Time}
    {locked : List Int} (table : RetentionTable) :
    ∀ {runs : List (Nat → Choice)} {st : Store}, Keyed st.db →
      (∀ choices ∈ runs, ∀ n, Still now locked (choices n)) →
      retained table (passes (handleIn wall) cfg runs st).db =
        sweep older (expiredBy wall cfg table now locked) (runs.length * cfg.limit)
          (retained table st.db)
  | [], _, _, _ => by rw [List.length_nil, Nat.zero_mul, sweep_zero]; rfl
  | choices :: runs, st, hdb, hstill => by
      have hfirst := pass_still wall hcfg hdb (hstill _ List.mem_cons_self) table
      have hrest := passes_still wall hcfg table (pass_keyed wall cfg hdb choices)
        fun more hmore => hstill more (List.mem_cons_of_mem _ hmore)
      refine hrest.trans ?_
      rw [hfirst, sweep_sweep older_linear (hdb table).rows, List.length_cons, Nat.add_mul,
        Nat.one_mul, Nat.add_comm]

end Passes

/-- What a pass makes of the rows of a table, by the readings of the clock before its batches. -/
structure Exact (cfg : RetentionConfig) (table : RetentionTable) (ts : List Time)
    (before after : List (Time × Int)) : Prop where
  few : ts.length ≤ cfg.batches
  whole : ∃ locks : List (List Int), locks.length ≤ ts.length ∧ after =
    sweeps older cfg.batchSize.toNat
      (List.zipWith (fun t locked => expiredAt (t - cfg.days table * 86400000000) locked) ts locks)
      before
  expired : ∀ r ∈ before, r ∉ after → ∃ t ∈ ts, r.1 < t - cfg.days table * 86400000000
  unexpired : ∀ last, (∀ t ∈ ts, t ≤ last) → ∀ r ∈ before,
    last - cfg.days table * 86400000000 ≤ r.1 → r ∈ after
  most : before.length ≤ after.length + cfg.limit

theorem Cleaned.exact {cfg : RetentionConfig} {table : RetentionTable} {ts : List Time}
    {before after : Db} (hdays : 0 < cfg.days table ∧ cfg.days table ≤ 106751)
    (hbefore : Distinct table before)
    (h : Cleaned id table (cfg.days table) cfg.batchSize.toNat cfg.batches ts before after) :
    Exact cfg table ts (retained table before) (retained table after) := by
  have hcutoff : ∀ t, retentionCutoff t (cfg.days table) = t - cfg.days table * 86400000000 :=
    retentionCutoff_exact hdays
  have hexpired : ∀ r ∈ retained table before, r ∉ retained table after →
      ∃ t ∈ ts, r.1 < t - cfg.days table * 86400000000 := by
    intro r hr hgone
    obtain ⟨t, ht, hlt⟩ := h.expired hr hgone
    exact ⟨t, ht, hcutoff t ▸ hlt⟩
  refine ⟨h.few, ?_, hexpired, fun last hlast r hr hlate => ?_, h.most hbefore⟩
  · obtain ⟨locks, hlocks, hrows⟩ := h.whole
    simp only [id, hcutoff] at hrows
    exact ⟨locks, hlocks, hrows⟩
  · by_contra hgone
    obtain ⟨t, ht, hlt⟩ := hexpired r hr hgone
    have hle : t - cfg.days table * 86400000000 ≤ last - cfg.days table * 86400000000 :=
      Int.sub_le_sub_right (hlast t ht) _
    exact absurd (Int.lt_of_lt_of_le hlt (Int.le_trans hle hlate)) (Int.lt_irrefl _)

theorem Leaves.exact {A : Choice → Prop} {cfg : RetentionConfig} {before : Db}
    {x : Store × List Event} (h : Leaves id A cfg before x)
    (hdays : ∀ table, 0 < cfg.days table ∧ cfg.days table ≤ 106751) (hbefore : Keyed before) :
    ∃ ts : RetentionTable → List Time, Trace.readings x.2 = ts .checkResult ++ ts .alert ∧
      ∀ table, Trace.cutoffs table x.2 = (ts table).map (· - cfg.days table * 86400000000) ∧
        Exact cfg table (ts table) (retained table before) (retained table x.1.db) := by
  obtain ⟨mid, ts, ts', -, hresults, halerts, hreadings, hcutoffs, hcutoffs'⟩ := h
  obtain ⟨ids, rfl⟩ := hresults.frame
  obtain ⟨ids', hids'⟩ := halerts.frame
  have hexact := hresults.exact (hdays .checkResult) (hbefore .checkResult)
  have hexact' := halerts.exact (hdays .alert) (hbefore .alert).deleteRows
  rw [retained_deleteRows_other (by decide)] at hexact'
  refine ⟨fun | .checkResult => ts | .alert => ts', hreadings, fun table => ?_⟩
  cases table with
  | checkResult =>
      refine ⟨hcutoffs.trans (List.map_congr_left fun t _ =>
        retentionCutoff_exact (hdays .checkResult) t), ?_⟩
      rw [hids', retained_deleteRows_other (by decide)]
      exact hexact
  | alert =>
      exact ⟨hcutoffs'.trans (List.map_congr_left fun t _ =>
        retentionCutoff_exact (hdays .alert) t), hexact'⟩

/-- **Bounded retention is exact and makes progress**, as long as the days are 64-bit nanoseconds.
Whatever fails, whatever is locked and whatever the clock shows, a pass deletes whole batches of
expired rows. When nothing disturbs it, it deletes the oldest of them up to its limit, and enough
passes delete them all, which leaves nothing to any further one. -/
theorem retention_exact (cfg : RetentionConfig) (hcfg : cfg.Positive)
    (hdays : ∀ table, cfg.days table ≤ 106751) (st : Store) (hdb : Keyed st.db) :
    (∀ choices, let x := (pass handle cfg choices st).1
      (∃ ids ids', x.1.db = deleteRows .alert ids' (deleteRows .checkResult ids st.db)) ∧
      ∃ ts : RetentionTable → List Time, Trace.readings x.2 = ts .checkResult ++ ts .alert ∧
        ∀ table, Trace.cutoffs table x.2 = (ts table).map (· - cfg.days table * 86400000000) ∧
          Exact cfg table (ts table) (retained table st.db) (retained table x.1.db)) ∧
    ∀ now table,
      let expired := expiredAt (now - cfg.days table * 86400000000) []
      let rows := retained table st.db
      (∀ choices, (∀ n, Still now [] (choices n)) →
        retained table (pass handle cfg choices st).1.1.db = sweep older expired cfg.limit rows) ∧
      ∀ runs : List (Nat → Choice), (∀ choices ∈ runs, ∀ n, Still now [] (choices n)) →
        (due older expired rows).length ⌈/⌉ cfg.limit ≤ runs.length →
        retained table (passes handle cfg runs st).db = rows.filter (!expired ·) := by
  have hfits : ∀ table, 0 < cfg.days table ∧ cfg.days table ≤ 106751 :=
    fun table => ⟨hcfg.days table, hdays table⟩
  have hby : ∀ now table, expiredBy id cfg table now [] =
      expiredAt (now - cfg.days table * 86400000000) [] := fun now table =>
    congrArg (expiredAt · []) (retentionCutoff_exact (hfits table) now)
  rw [← handleIn_id]
  refine ⟨fun choices => ?_, fun now table =>
    ⟨fun choices hstill => ?_, fun runs hstill hruns => ?_⟩⟩
  · have hleaves := pass_leaves (A := fun _ => True) id cfg hdb choices fun _ => trivial
    exact ⟨hleaves.frame, hleaves.exact hfits hdb⟩
  · rw [← hby]
    exact pass_still id hcfg hdb hstill table
  · rw [← hby] at hruns ⊢
    rw [passes_still id hcfg table hdb hstill]
    refine sweep_all ?_
    rw [Nat.mul_comm]
    exact (ceilDiv_le_iff_le_mul hcfg.limit).mp hruns

/-- Two checks that are older than a day at `dayAfter`, and one that is not. -/
def overdue : Store where
  db :=
    { users := [⟨1, "", "", "owner", "owner@example.com", "", 0, 0, none, false, false⟩]
      monitors := [⟨1, "api", "https://example.com", 60, "Active", 0, "http", some "\x7b\x7d", some
        "healthy", some 1, 0, 1, none, false⟩]
      checkResults := [⟨1, 1, "healthy", none, 0, none, none, 0⟩,
        ⟨2, 1, "healthy", none, 0, none, none, 0⟩, ⟨3, 1, "healthy", none, 0, none, none, 1⟩]
      alerts := [] }
  seq := ⟨2, 2, 4, 1⟩
  log := []

def dayAfter : Time := 86400000001

theorem overdue_keyed : Keyed overdue.db := by
  intro table
  unfold Distinct
  cases table <;> decide

/-- Of one row a pass, two passes are enough for two rows. -/
theorem retention_exact_passes :
    retained .checkResult (passes handle ⟨1, 1, 1, 1, 1⟩
      (List.replicate 2 fun _ => Choice.calm dayAfter (.error "")) overdue).db = [(1, 3)] := by
  have hexact := retention_exact ⟨1, 1, 1, 1, 1⟩ (by constructor <;> decide)
    (fun table => by cases table <;> decide) overdue overdue_keyed
  refine ((hexact.2 dayAfter .checkResult).2 _ (fun choices hchoices n => ?_) ?_).trans (by decide)
  · rw [List.eq_of_mem_replicate hchoices]
    exact still_calm dayAfter _
  · rw [length_due]
    decide

/-- A product that wraps puts the cutoff into the future: a row of this instant is deleted. -/
theorem retention_exact_wraps :
    let cfg : RetentionConfig := ⟨106752, 1, 500, 10, 1⟩
    cfg.Positive ∧ Keyed overdue.db ∧ (1, 3) ∈ retained .checkResult overdue.db ∧
      (1, 3) ∉ retained .checkResult
        (pass handle cfg (fun _ => Choice.calm 1 (.error "")) overdue).1.1.db := by
  have hcfg : RetentionConfig.Positive ⟨106752, 1, 500, 10, 1⟩ := by constructor <;> decide
  refine ⟨hcfg, overdue_keyed, by decide, ?_⟩
  rw [← handleIn_id, pass_still id hcfg overdue_keyed (fun _ => still_calm 1 _) .checkResult,
    sweep_all (by rw [length_due]; decide)]
  decide

end Sentinel.Worker
