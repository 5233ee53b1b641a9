import Sentinel.System.Uptime
import Sentinel.Worker.Persist
import Sentinel.Worker.Batches

/-!
# System — Zone

A retention pass on a host that is in some time zone. The time of a check is converted to UTC before
it is bound to a parameter. The cutoff of a batch is not: it is bound as the clock of the host shows
it, and the columns have no zone.

* `hostClock`: what the clock of the host shows.
* `CutsRight`: a pass deletes what is expired, by the instants at which rows were recorded.
* `retention_zone_iff`: it does so unless a row was recorded between the cutoff and the cutoff as
  the clock shows it.
-/

namespace Sentinel.Worker

open Database

theorem Config.retention_days {env : Env} {config : Config} (hload : (load env).value = .ok config)
    (table : RetentionTable) :
    0 < config.retention.days table ∧ config.retention.days table ≤ maxRetentionDays := by
  have hvalid := load_ok hload
  cases table with
  | checkResult => exact hvalid.checkDays
  | alert => exact hvalid.alertDays

/-- A pass that `main` starts passes its own check. -/
theorem Config.retention_positive {env : Env} {config : Config}
    (hload : (load env).value = .ok config) : config.retention.Positive := by
  have hloaded := load_loaded hload
  obtain ⟨seconds, hseconds, htimeout⟩ := hloaded.retentionTimeout
  refine ⟨(config.retention_days hload .checkResult).1, (config.retention_days hload .alert).1,
    (boundedPositiveEnv_ok (by decide) hloaded.batchSize).1, by show (0 : Int) < 10; decide, ?_⟩
  show 0 < config.retentionDBTimeout
  rw [htimeout]
  exact Int.mul_pos (boundedPositiveEnv_ok (by decide) hseconds).1 (by decide)

end Sentinel.Worker

namespace Sentinel.System

open Program Database Worker Sweep

/-- What the clock of a host shows at an instant: `offset` more than UTC. -/
def hostClock (offset : Time → Int) (instant : Time) : Time := instant + offset instant

/-- The zone of the host makes no difference to a check, which records UTC. -/
theorem handleIn_of_checkSends {m : Checker.Monitor} {thresholds : List Int} {o : Op}
    (ho : CheckSends m thresholds o) (wall : Time → Time) (choice : Choice) (st : Store)
    (s : Session) : handleIn wall choice st s o = handle choice st s o := by
  cases ho <;> rfl

/-- At the instant `now` a pass deletes no row that is not expired, whatever happens to it, and all
rows that are, as long as nothing happens to it and they are within its limit. -/
structure CutsRight (offset : Time → Int) (cfg : RetentionConfig) (st : Store) (now : Time)
    (table : RetentionTable) : Prop where
  expired : ∀ choices : Nat → Choice, (∀ n, (choices n).moment.now = now) →
    ∀ r ∈ retained table st.db,
      r ∉ retained table (pass (handleIn (hostClock offset)) cfg choices st).1.1.db →
      r.1 < now - cfg.days table * 86400000000
  all : ∀ choices : Nat → Choice, (∀ n, Still now [] (choices n)) →
    ((retained table st.db).filter (·.1 < now - cfg.days table * 86400000000)).length ≤ cfg.limit →
    ∀ r ∈ retained table st.db, r.1 < now - cfg.days table * 86400000000 →
      r ∉ retained table (pass (handleIn (hostClock offset)) cfg choices st).1.1.db

section Zone

variable {wall : Time → Time} {cfg : RetentionConfig} {st : Store} {now : Time}
  {table : RetentionTable}

/-- **A row that the clock shows to be expired** is deleted by a pass that finds all others
locked. -/
theorem deletes_alone (hcfg : cfg.Positive) (hdb : Keyed st.db) {r : Time × Int}
    (hr : r ∈ retained table st.db) (hexpired : r.1 < wall (retentionCutoff now (cfg.days table))) :
    ∃ choices : Nat → Choice, (∀ n, (choices n).moment.now = now) ∧
      r ∉ retained table (pass (handleIn wall) cfg choices st).1.1.db := by
  let others := ((retained table st.db).filter (· ≠ r)).map Prod.snd
  let choice : Choice := { Choice.calm now (.error "") with moment := ⟨now, others⟩ }
  have hstill : ∀ n : Nat, Still now others ((fun _ => choice) n) := fun _ => ⟨rfl, rfl, rfl⟩
  have hlocked : ∀ r' ∈ retained table st.db, r' ≠ r → r'.2 ∈ others := fun r' hr' hne =>
    List.mem_map_of_mem (List.mem_filter.mpr ⟨hr', decide_eq_true hne⟩)
  have hfree : r.2 ∉ others := by
    intro hmem
    obtain ⟨r', hr', heq⟩ := List.mem_map.mp hmem
    obtain ⟨hr', hne⟩ := List.mem_filter.mp hr'
    exact of_decide_eq_true hne (List.inj_on_of_nodup_map (hdb table) hr' hr heq)
  have hdue : expiredBy wall cfg table now others r = true := by
    simp [expiredBy, expiredAt, hexpired, hfree]
  refine ⟨fun _ => choice, fun _ => rfl, ?_⟩
  rw [pass_still wall hcfg hdb hstill table, sweep_all]
  · intro hmem
    simp [hdue] at hmem
  · -- there is no other row to delete
    have hone : ∀ r' ∈ due older (expiredBy wall cfg table now others) (retained table st.db),
        r' ∈ [r] := by
      intro r' hr'
      obtain ⟨hr', hexpired'⟩ := mem_due.mp hr'
      by_contra hne
      have hmem := hlocked r' hr' fun heq => hne (heq ▸ List.mem_singleton_self r')
      simp [expiredBy, expiredAt, hmem] at hexpired'
    exact (List.Nodup.length_le_of_subset (nodup_due (hdb table).rows) hone).trans hcfg.limit

variable {offset : Time → Int} {cutoff : Time}

/-- The cutoff is exact, and that many days before `now`. -/
structure IsCutoff (cfg : RetentionConfig) (now : Time) (table : RetentionTable) (cutoff : Time) :
    Prop where
  exact : retentionCutoff now (cfg.days table) = cutoff
  days : now - cfg.days table * 86400000000 = cutoff

theorem IsCutoff.shown (h : IsCutoff cfg now table cutoff) (offset : Time → Int) :
    hostClock offset (retentionCutoff now (cfg.days table)) = cutoff + offset cutoff := by
  rw [h.exact]
  rfl

/-- The rows that are expired as the clock of the host shows the cutoff. -/
theorem IsCutoff.expired_eq (h : IsCutoff cfg now table cutoff) (r : Time × Int) :
    expiredBy (hostClock offset) cfg table now [] r = decide (r.1 < cutoff + offset cutoff) := by
  simp [expiredBy, expiredAt, h.shown]

/-- A row that is expired by the clock of the host only is deleted too early. -/
theorem CutsRight.early (h : CutsRight offset cfg st now table) (hcfg : cfg.Positive)
    (hdb : Keyed st.db) (hcutoff : IsCutoff cfg now table cutoff) :
    ∀ r ∈ retained table st.db, r.1 < cutoff + offset cutoff → r.1 < cutoff := by
  intro r hr hlt
  rw [← hcutoff.shown] at hlt
  obtain ⟨choices, hnow, hgone⟩ := deletes_alone hcfg hdb hr hlt
  have hexpired := h.expired choices hnow r hr hgone
  rwa [hcutoff.days] at hexpired

/-- A row that is not yet expired by the clock of the host is deleted too late. -/
theorem CutsRight.late (h : CutsRight offset cfg st now table) (hcfg : cfg.Positive)
    (hdb : Keyed st.db) (hcutoff : IsCutoff cfg now table cutoff)
    (hlimit : ((retained table st.db).filter (·.1 < cutoff)).length ≤ cfg.limit) :
    ∀ r ∈ retained table st.db, r.1 < cutoff → r.1 < cutoff + offset cutoff := by
  intro r hr hlt
  have hstill : ∀ n : Nat, Still now [] ((fun _ => Choice.calm now (.error "")) n) :=
    fun _ => still_calm now _
  have hgone := h.all _ hstill (hcutoff.days ▸ hlimit) r hr (hcutoff.days ▸ hlt)
  rw [pass_still (hostClock offset) hcfg hdb hstill table] at hgone
  have hdue := of_not_mem_sweep hr hgone
  rw [hcutoff.expired_eq] at hdue
  exact of_decide_eq_true hdue

/-- Where no row is between the two cutoffs, it makes no difference which one is taken. -/
theorem cutsRight (hcfg : cfg.Positive) (hdb : Keyed st.db)
    (hcutoff : IsCutoff cfg now table cutoff)
    (hearly : ∀ r ∈ retained table st.db, r.1 < cutoff + offset cutoff → r.1 < cutoff)
    (hlate : ((retained table st.db).filter (·.1 < cutoff)).length ≤ cfg.limit →
      ∀ r ∈ retained table st.db, r.1 < cutoff → r.1 < cutoff + offset cutoff) :
    CutsRight offset cfg st now table := by
  refine ⟨fun choices hnow r hr hgone => ?_, fun choices hstill hlimit r hr hlt => ?_⟩
  · have hleaves := pass_leaves (A := fun choice => choice.moment.now = now) (hostClock offset)
      cfg hdb choices hnow
    obtain ⟨choice, hchoice, hlt⟩ := hleaves.expired hr hgone
    rw [hchoice, hcutoff.shown] at hlt
    rw [hcutoff.days]
    exact hearly r hr hlt
  · rw [hcutoff.days] at hlimit hlt
    have hdue : (due older (expiredBy (hostClock offset) cfg table now [])
        (retained table st.db)).length ≤ cfg.limit := by
      rw [length_due]
      refine Nat.le_trans (List.Nodup.length_le_of_subset ((hdb table).rows.filter _)
        fun r' hr' => ?_) hlimit
      obtain ⟨hr', hexpired⟩ := List.mem_filter.mp hr'
      rw [hcutoff.expired_eq] at hexpired
      exact List.mem_filter.mpr ⟨hr', decide_eq_true (hearly r' hr' (of_decide_eq_true hexpired))⟩
    rw [pass_still (hostClock offset) hcfg hdb hstill table, sweep_all hdue]
    intro hmem
    have hkept := (List.mem_filter.mp hmem).2
    rw [hcutoff.expired_eq, decide_eq_true (hlate hlimit r hr hlt)] at hkept
    cases hkept

end Zone

/-- **When retention cuts at the right instant.** Of every configuration that `Load` accepts, on a
host whose clock is `offset` ahead of UTC: no row was recorded from the cutoff up to `offset` later,
and none from `offset` later up to the cutoff either, unless more rows are expired than a pass
deletes. -/
theorem retention_zone_iff (env : Env) (config : Config) (hload : (load env).value = .ok config)
    (offset : Time → Int) (st : Store) (hdb : Keyed st.db) (now : Time) (table : RetentionTable) :
    CutsRight offset config.retention st now table ↔
      let cutoff := now - config.retention.days table * 86400000000
      let rows := retained table st.db
      (∀ r ∈ rows, r.1 < cutoff + offset cutoff → r.1 < cutoff) ∧
        ((rows.filter (·.1 < cutoff)).length ≤ config.retention.limit →
          ∀ r ∈ rows, r.1 < cutoff → r.1 < cutoff + offset cutoff) := by
  have hcfg := config.retention_positive hload
  have hcutoff : IsCutoff config.retention now table _ :=
    ⟨retentionCutoff_eq (config.retention_days hload table) now, rfl⟩
  constructor
  · intro h
    exact ⟨h.early hcfg hdb hcutoff, h.late hcfg hdb hcutoff⟩
  · rintro ⟨hearly, hlate⟩
    exact cutsRight hcfg hdb hcutoff hearly hlate

/-- On a host in UTC. -/
theorem retention_zone_utc :
    CutsRight (fun _ => 0) oneDayConfig.retention overdue dayAfter .checkResult := by
  refine (retention_zone_iff oneDay oneDayConfig rfl (fun _ => 0) overdue overdue_keyed dayAfter
    .checkResult).mpr ⟨fun r _ h => ?_, fun _ r _ h => ?_⟩
  · rwa [Int.add_zero] at h
  · rwa [Int.add_zero]

/-- Two hours ahead of UTC, a check that is 23 hours old is deleted after one day. -/
theorem retention_zone_ahead :
    (load oneDay).value = .ok oneDayConfig ∧ Keyed overdue.db ∧
      ¬ CutsRight (fun _ => 7200000000) oneDayConfig.retention overdue 82800000000
        .checkResult := by
  refine ⟨rfl, overdue_keyed, fun h => ?_⟩
  have hcfg : oneDayConfig.retention.Positive :=
    Config.retention_positive (show (load oneDay).value = .ok oneDayConfig from rfl)
  have hr : ((0, 1) : Time × Int) ∈ retained .checkResult overdue.db := by decide
  have hclock : (0, 1).1 < hostClock (fun _ => 7200000000)
      (retentionCutoff 82800000000 (oneDayConfig.retention.days .checkResult)) := by decide
  obtain ⟨choices, hnow, hgone⟩ := deletes_alone hcfg overdue_keyed hr hclock
  exact absurd (h.expired choices hnow _ hr hgone) (by decide)

end Sentinel.System
