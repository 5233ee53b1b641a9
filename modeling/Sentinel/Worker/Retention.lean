import Sentinel.Database.Ledger

/-!
# Worker — Retention

`RunRetentionPass` of `internal/worker/retention.go`: expired check results and alerts are deleted
in bounded batches, each committed by itself.
-/

namespace Sentinel.Worker

open Program Database

def retentionMaxBatchesPerPass : Nat := 10

structure RetentionConfig where
  checkResultDays : Int
  alertDays : Int
  batchSize : Int
  maxBatchesPerPass : Int
  dbTimeout : Int
deriving DecidableEq, Repr

inductive RetentionError where
  | cancelled (err : String)
  | invalidConfiguration
  | retain (table : RetentionTable) (err : DbError)
  | retainCancelled (table : RetentionTable) (err : String)
deriving DecidableEq, Repr

/-- `now().Add(-time.Duration(days) * 24 * time.Hour)`. Durations are 64-bit nanoseconds. -/
def retentionCutoff (now : Time) (days : Int) : Time :=
  now + (-days * (24 * 3600000000000)).bmod (2 ^ 64) / 1000

/-- The cutoff is that many days ago, as long as they are 64-bit nanoseconds. -/
theorem retentionCutoff_exact {days : Int} (h : 0 < days ∧ days ≤ 106751) (now : Time) :
    retentionCutoff now days = now - days * 86400000000 := by
  have hexact : -days * (24 * 3600000000000) / 1000 = -(days * 86400000000) := by omega
  unfold retentionCutoff
  rw [Int.bmod_eq_of_le (by omega) (by omega), hexact]
  exact Int.sub_eq_add_neg.symm

/-- The batches that are left. Between two of them the pass waits, unless it is cancelled. -/
def cleanBatches (table : RetentionTable) (days batchSize : Int) :
    Nat → Client (Option RetentionError)
  | 0 => return none
  | batches + 1 => do
      match ← Client.ctxErr with
      | some err => return some (.retainCancelled table err)
      | none =>
          let now ← Client.now
          match ← Client.sql (.deleteExpired table (retentionCutoff now days) batchSize.toNat)
            with
          | .error err => return some (.retain table err)
          | .ok (rowsAffected : Nat) =>
              if (rowsAffected : Int) < batchSize then return none
              else if batches = 0 then return none
              else
                match ← Client.ctxErr with
                | some err => return some (.retainCancelled table err)
                | none => cleanBatches table days batchSize batches

/-- `RunRetentionPass`. -/
def runRetentionPass (cfg : RetentionConfig) : Client (Option RetentionError) := do
  match ← Client.ctxErr with
  | some err => return some (.cancelled err)
  | none =>
      if cfg.checkResultDays ≤ 0 ∨ cfg.alertDays ≤ 0 ∨ cfg.batchSize ≤ 0 ∨
          cfg.maxBatchesPerPass ≤ 0 ∨ cfg.dbTimeout ≤ 0 then
        return some .invalidConfiguration
      else
        let batches := min cfg.maxBatchesPerPass.toNat retentionMaxBatchesPerPass
        match ← cleanBatches .checkResult cfg.checkResultDays cfg.batchSize batches with
        | some err => return some err
        | none => cleanBatches .alert cfg.alertDays cfg.batchSize batches

/-! ### What a pass sends -/

/-- The operations of a pass. -/
inductive RetentionSends : Op → Prop where
  | ctxErr : RetentionSends .ctxErr
  | now : RetentionSends .now
  | delete (table : RetentionTable) (cutoff : Time) (limit : Nat) :
      RetentionSends (.sql (.deleteExpired table cutoff limit))

theorem cleanBatches_sends (table : RetentionTable) (days batchSize : Int) :
    ∀ batches, (cleanBatches table days batchSize batches).Only RetentionSends
  | 0 => trivial
  | batches + 1 => by
      refine Prog.only_bind (fun r => ?_) (Prog.only_op .ctxErr)
      cases r with
      | some err => trivial
      | none =>
          refine Prog.only_bind (fun now => ?_) (Prog.only_op .now)
          refine Prog.only_bind (fun r => ?_) (Prog.only_op (.delete ..))
          cases r with
          | error err => trivial
          | ok rowsAffected =>
              simp only
              split
              · trivial
              · split
                · trivial
                · refine Prog.only_bind (fun r => ?_) (Prog.only_op .ctxErr)
                  cases r with
                  | some err => trivial
                  | none => exact cleanBatches_sends table days batchSize batches

theorem runRetentionPass_sends (cfg : RetentionConfig) :
    (runRetentionPass cfg).Only RetentionSends := by
  refine Prog.only_bind (fun r => ?_) (Prog.only_op .ctxErr)
  cases r with
  | some err => trivial
  | none =>
      simp only
      split
      · trivial
      · refine Prog.only_bind (fun r => ?_) (cleanBatches_sends ..)
        cases r with
        | some err => trivial
        | none => exact cleanBatches_sends ..

/-! ### What a pass deletes -/

/-- Rows that a batch deletes are expired. -/
theorem mem_expired {rows : List (Time × Int)} {cutoff : Time} {limit : Nat} {locked : List Int}
    {id : Int} (h : id ∈ expired rows cutoff limit locked) : ∃ t, (t, id) ∈ rows ∧ t < cutoff := by
  obtain ⟨⟨t, id'⟩, hrow, rfl⟩ := List.mem_map.mp h
  obtain ⟨hrow, hcond⟩ := List.mem_filter.mp (List.mem_of_mem_take hrow)
  exact ⟨t, List.mem_mergeSort.mp hrow, of_decide_eq_true (Bool.and_eq_true_iff.mp hcond).1⟩

/-- Without one id and then without others. -/
theorem filter_not_mem_cons {α : Type} (key : α → Int) (id : Int) (ids : List Int)
    (rows : List α) :
    (rows.filter fun r => key r ≠ id).filter (fun r => key r ∉ ids) =
      rows.filter fun r => key r ∉ id :: ids := by
  rw [List.filter_filter]
  refine List.filter_congr fun r _ => ?_
  simp only [List.mem_cons, not_or, Bool.decide_and]
  exact Bool.and_comm _ _

theorem foldl_deleteCheckResult (ids : List Int) (db : Db) :
    (ids.map Write.deleteCheckResult).foldl Write.apply db =
      { db with checkResults := db.checkResults.filter fun r => r.id ∉ ids } := by
  induction ids generalizing db with
  | nil => simp
  | cons id ids ih =>
      rw [List.map_cons, List.foldl_cons, ih]
      exact congrArg ({ db with checkResults := · }) (filter_not_mem_cons (·.id) id ids _)

theorem foldl_deleteAlert (ids : List Int) (db : Db) :
    (ids.map Write.deleteAlert).foldl Write.apply db =
      { db with alerts := db.alerts.filter fun a => a.id ∉ ids } := by
  induction ids generalizing db with
  | nil => simp
  | cons id ids ih =>
      rw [List.map_cons, List.foldl_cons, ih]
      exact congrArg ({ db with alerts := · }) (filter_not_mem_cons (·.id) id ids _)

end Sentinel.Worker
