import Sentinel.Scripts.Rotation

/-!
# Scripts — BackupRun

Whole runs of the backup script, with the `EXIT` trap. `backupMain_spec` puts the steps together,
`run_cases` says what a run may come to, and `backup_rotation` is what this means for the entries
of the directory.
-/

namespace Sentinel.Scripts

open Stateful

/-! ### Runs -/

def Config.project (config : Config) : Text := orDefault config.BACKUP_PROJECT "sentinel-prod"

/-- The number of archives to keep, when the check accepts it. -/
def Config.keep (config : Config) : Option Nat :=
  backupPositiveBounded (orDefault config.BACKUP_KEEP_COUNT "7") 1 1000

theorem keep_pos {config : Config} {keep : Nat} (h : config.keep = some keep) : 1 ≤ keep := by
  simp only [Config.keep, backupPositiveBounded] at h
  split at h
  · rename_i hbounds
    cases h
    exact hbounds.2.2.2.1
  · cases h

section Run

variable {env : Env} {config : Config} {s : State}

theorem checkConfig_spec : Ensures (checkConfig config) s
    (fun accepted s' => s' = s ∧ isProject config.project = true ∧
      accepted.1 = config.project ∧ config.keep = some accepted.2) (fun _ s' => s' = s) := by
  simp only [checkConfig, ensures_bind, ensures_require, ensures_orFail, ensures_pure]
  refine ⟨fun hproject => ⟨fun keep hkeep => ⟨fun _ _ => ?_, fun _ => trivial⟩,
    fun _ => trivial⟩, fun _ => trivial⟩
  exact ⟨trivial, hproject, rfl, hkeep⟩

theorem findContainer_spec {project : Text} :
    Ensures (findContainer env project) s (fun _ s' => s' = s) (fun _ s' => s' = s) := by
  simp only [findContainer, ensures_bind, ensures_orFail]
  refine ⟨fun ids _ => ?_, fun _ => trivial⟩
  split
  · simp only [ensures_bind, ensures_require, ensures_orFail, ensures_pure, implies_true, and_self]
  · rw [ensures_throw]

/-- Making sure of the directory leaves its entries alone. -/
theorem openDirectory_spec : Ensures (openDirectory env) s
    (fun _ s' => s'.place.entries = s.place.entries ∧ s'.backupPartial = s.backupPartial ∧
      s'.published = s.published)
    (fun _ s' => s'.place.entries = s.place.entries ∧ s'.backupPartial = s.backupPartial ∧
      s'.published = s.published) := by
  simp only [openDirectory, ensures_bind, ensures_get]
  cases hplace : s.place with
  | symlink | notDirectory => simp [hplace]
  | missing => simp [hplace, Place.entries]
  | directory d => simp [hplace]

/-- A run that stopped behind the publication: it has removed some prior archives at most, and
none of them when a time could not be had. -/
structure Halted (env : Env) (project : Text) (d : Directory) (e : BackupError) (archive : Name)
    (s : State) : Prop where
  published : s.published = some archive
  finished : s.backupPartial = none
  stopped : e = .ordering archive ∨ e = .rotation archive
  fresh : d.lookup archive = none
  regular : Regular s.place.entries archive
  untouched : ∀ name, name ≠ archive → name ∉ owned project d →
    s.place.entries.lookup name = d.lookup name
  ordering : (∃ name ∈ owned project d, env.stat name = false) → e = .ordering archive
  skipped : e = .ordering archive → ∀ name, name ≠ archive →
    s.place.entries.lookup name = d.lookup name

/-- A run that returned. -/
structure Returned (env : Env) (config : Config) (d : Directory) (report : Report) (s : State) :
    Prop where
  accepted : isProject config.project = true
  published : s.published = some report.archive
  finished : s.backupPartial = none
  dated : ∀ name ∈ owned config.project d, env.stat name = true
  rotation : ∃ keep kept removed, config.keep = some keep ∧
    report.kept = min ((owned config.project d).length + 1) keep ∧
    Rotation config.project keep d s.place.entries report.archive kept removed

theorem Published.dated {project : Text} {d : Directory} {archive : Name}
    (h : Published project d archive s)
    (hdated : Dated env project archive s.place.entries (glob project s.place.entries)) :
    ∀ name ∈ owned project d, env.stat name = true := by
  intro name hname
  have hmem := h.owned_iff.mpr (.inr hname)
  exact hdated name (mem_glob_of_owned hmem) (fun heq => h.archive_not_owned (heq ▸ hname))
    (mem_owned.mp hmem)

/-- Rotation, from the publication on. -/
theorem rotate_published {d : Directory} {archive : Name} {keep : Nat}
    (haccepted : isProject config.project = true) (hkeep : config.keep = some keep)
    (hs : Published config.project d archive s) :
    Ensures (rotate env config.project keep archive) s
      (fun report s' => Returned env config d report s')
      (fun e s' => Halted env config.project d e archive s') := by
  refine (rotate_spec env config.project (keep_pos hkeep) archive hs.regular).mono
    (fun report s' h => ?_) fun e s' h => ?_
  · obtain ⟨hdated, l, hl, rfl, hremoves, hnone⟩ := h
    refine ⟨haccepted, hremoves.published.trans hs.published, hremoves.finished.trans hs.finished,
      hs.dated hdated, keep, _, _, hkeep, ?_, hl.rotation (keep_pos hkeep) hs hremoves hnone⟩
    rw [← (hl.perm_owned hs).length_eq, List.length_map]
  · rcases h with ⟨rfl, rfl⟩ | ⟨rfl, hdated, l, hl, hremoves⟩
    · exact ⟨hs.published, hs.finished, .inl rfl, hs.fresh, hs.regular,
        fun name hne _ => hs.others name hne, fun _ => rfl, fun _ name hne => hs.others name hne⟩
    · have hperm := hl.perm_owned hs
      have hothers (name : Name) (hname : name ∉ owned config.project d) :
          s'.place.entries.lookup name = s.place.entries.lookup name :=
        hremoves.others name fun hmem => hname (hperm.mem_iff.mp (List.mem_of_mem_drop hmem))
      obtain ⟨mtime, content, hlookup⟩ := hs.regular
      refine ⟨hremoves.published.trans hs.published, hremoves.finished.trans hs.finished,
        .inr rfl, hs.fresh, ⟨mtime, content, (hothers archive hs.archive_not_owned).trans hlookup⟩,
        fun name hne hname => (hothers name hname).trans (hs.others name hne), ?_, nofun⟩
      rintro ⟨name, hname, hstat⟩
      exact absurd (hs.dated hdated name hname) (by rw [hstat]; exact Bool.false_ne_true)

/-- **What a run of `backup_main` does**, wherever it stops. -/
theorem backupMain_spec (env : Env) (config : Config) (place : Place) :
    Ensures (backupMain env config) ⟨place, none, none⟩
      (fun report s' => Returned env config place.entries report s')
      (fun e s' => Unpublished place.entries s' ∨
        ∃ archive, Halted env config.project place.entries e archive s') := by
  have hstart (s : State) (hentries : s.place.entries = place.entries)
      (htemp : s.backupPartial = none) (hpublished : s.published = none) :
      Unpublished place.entries s :=
    ⟨hpublished, fun name _ => by rw [hentries], fun name h => by cases htemp.symm.trans h⟩
  rw [backupMain]
  simp only [ensures_bind]
  refine checkConfig_spec.mono (fun accepted s₁ h => ?_) fun e s₁ h => ?_
  · obtain ⟨rfl, haccepted, hproject, hkeep⟩ := h
    refine openDirectory_spec.mono (fun _ s₂ h => ?_) fun e s₂ h =>
      .inl (hstart s₂ h.1 h.2.1 h.2.2)
    obtain ⟨hentries, htemp, hpublished⟩ := h
    refine findContainer_spec.mono (fun _ s₃ h => ?_) fun e s₃ h => ?_
    · rw [h, hproject, ← hentries]
      refine (publish_spec env config.project htemp hpublished).mono (fun archive s₄ hs => ?_)
        fun e s₄ hs => .inl hs
      exact (rotate_published haccepted hkeep hs).mono (fun _ _ h => h)
        fun e s₅ h => .inr ⟨archive, h⟩
    · rw [h]
      exact .inl (hstart s₂ hentries htemp hpublished)
  · rw [h]
    exact .inl (hstart _ rfl rfl rfl)

end Run

/-! ### The `EXIT` trap -/

theorem exitTrap_finished {s : State} (env : Env) (h : s.backupPartial = none) :
    exitTrap env s = (s, false) := by
  rw [exitTrap, h]

/-- Before the publication, the trap leaves the prior entries, and nothing else unless it
reports that it could not remove the partial archive. -/
theorem exitTrap_unpublished {d : Directory} {s : State} (env : Env) (h : Unpublished d s) :
    (exitTrap env s).1.published = none ∧
      (∀ name, (d.lookup name).isSome →
        (exitTrap env s).1.place.entries.lookup name = d.lookup name) ∧
      ((exitTrap env s).2 = false →
        ∀ name, (exitTrap env s).1.place.entries.lookup name = d.lookup name) := by
  cases htemp : s.backupPartial with
  | none =>
      have hothers (name : Name) := h.others name (by rw [htemp]; exact nofun)
      rw [exitTrap_finished env htemp]
      exact ⟨h.published, fun name _ => hothers name, fun _ => hothers⟩
  | some unfinished =>
      obtain ⟨hfresh, hregular⟩ := h.unfinished unfinished htemp
      obtain ⟨hothers, -, hremoved⟩ := rm_lookup env unfinished s.place.entries
      have htrap : exitTrap env s =
          ({ s with place := .directory (rm env unfinished s.place.entries).2 },
            !(rm env unfinished s.place.entries).1) := by
        rw [exitTrap, htemp]
        simp only [if_pos (regular_iff.mpr hregular)]
      have hsame (name : Name) (hne : name ≠ unfinished) :
          (rm env unfinished s.place.entries).2.lookup name = d.lookup name :=
        (hothers name hne).trans (h.others name (by rw [htemp]; simpa using hne.symm))
      rw [htrap]
      refine ⟨h.published, fun name hname => hsame name ?_, fun hreports name => ?_⟩
      · rintro rfl
        rw [hfresh] at hname
        cases hname
      · by_cases hne : name = unfinished
        · rw [hne, hfresh]
          exact hremoved (by simpa using hreports)
        · exact hsame name hne

/-- What a run may come to: it returns, or it stops before the publication or behind it, and only
before it has the trap something to remove. -/
theorem run_cases (env : Env) (config : Config) (place : Place) :
    (∃ report s, Returned env config place.entries report s ∧
      run env config place = ⟨.ok report, s.place, s.published, false⟩) ∨
    (∃ e s, Unpublished place.entries s ∧ run env config place =
      ⟨.error e, (exitTrap env s).1.place, (exitTrap env s).1.published, (exitTrap env s).2⟩) ∨
    ∃ e archive s, Halted env config.project place.entries e archive s ∧
      run env config place = ⟨.error e, s.place, s.published, false⟩ := by
  have hspec := backupMain_spec env config place
  unfold Ensures at hspec
  cases hmain : backupMain env config ⟨place, none, none⟩ with
  | ok report s =>
      rw [hmain] at hspec
      exact .inl ⟨report, s, hspec, by simp only [run, hmain, exitTrap_finished env hspec.finished]⟩
  | error e s =>
      rw [hmain] at hspec
      rcases hspec with hspec | ⟨archive, hspec⟩
      · exact .inr (.inl ⟨e, s, hspec, by simp only [run, hmain]⟩)
      · exact .inr (.inr ⟨e, archive, s, hspec,
          by simp only [run, hmain, exitTrap_finished env hspec.finished]⟩)

/-- Behind the publication, what the script says when it fails names the new archive. -/
theorem message_names_archive (env : Env) (config : Config) (place : Place) (directory : Text)
    {archive : Name} {e : BackupError}
    (hpublished : (run env config place).published = some archive)
    (he : (run env config place).result = .error e) : ∃ before behind, e.message directory =
      before ++ BackupError.message.path directory archive ++ behind := by
  rcases run_cases env config place with ⟨report, s, -, hr⟩ | ⟨e', s, hs, hr⟩ |
    ⟨e', archive', s, hs, hr⟩
  · rw [hr] at he
    cases he
  · rw [hr] at hpublished
    cases (exitTrap_unpublished env hs).1.symm.trans hpublished
  · rw [hr] at hpublished he
    cases he
    obtain rfl : archive' = archive := Option.some.inj (hs.published.symm.trans hpublished)
    rcases hs.stopped with rfl | rfl
    · exact ⟨_, _, rfl⟩
    · exact ⟨_, _, rfl⟩

/-- An entry is as it was, or still absent. -/
def Same (d d' : Directory) (name : Name) : Prop := d'.lookup name = d.lookup name

/-- An archive of another project is none of this one's. -/
theorem not_owned_of_other {project other : Text} {d : Directory} {name : Name}
    (hne : other ≠ project) (h : (parseArchive other name).isSome) : name ∉ owned project d := by
  have hnone : parseArchive project name = none := by
    by_contra hsome
    exact hne (parseArchive_unique h (Option.ne_none_iff_isSome.mp hsome))
  rw [mem_owned, rank_none (.inr hnone)]
  exact Bool.false_ne_true

/-- **Backup rotation**: a run that succeeds leaves the new archive and, of the prior archives of
the project, the `keep - 1` greatest in the order of time, modification time and nonce, with
every other entry as it was. One that fails before its archive is published leaves all entries,
and no partial archive unless the trap reports that it could not remove it. Behind the
publication the new archive stays, and nothing is removed when a modification time cannot be
had. Archives of other projects always stay. -/
theorem backup_rotation (env : Env) (config : Config) (place : Place) :
    let r := run env config place
    (∀ report, r.result = .ok report → r.published = some report.archive ∧
      isProject config.project = true ∧ ∃ keep kept removed, config.keep = some keep ∧
        report.kept = min ((owned config.project place.entries).length + 1) keep ∧
        Rotation config.project keep place.entries r.place.entries report.archive kept removed) ∧
    (r.published = none → (∃ e, r.result = .error e) ∧
      (∀ name, (place.entries.lookup name).isSome → Same place.entries r.place.entries name) ∧
      (r.trapReports = false → ∀ name, Same place.entries r.place.entries name)) ∧
    (∀ archive, r.published = some archive → Regular r.place.entries archive ∧
      (∀ name, name ≠ archive → name ∉ owned config.project place.entries →
        Same place.entries r.place.entries name) ∧
      ((∃ name ∈ owned config.project place.entries, env.stat name = false) →
        r.result = .error (.ordering archive) ∧
          ∀ name, name ≠ archive → Same place.entries r.place.entries name)) ∧
    ∀ other name, other ≠ config.project → (parseArchive other name).isSome →
      (place.entries.lookup name).isSome → Same place.entries r.place.entries name := by
  intro r
  rcases run_cases env config place with ⟨report, s, hs, hr⟩ | ⟨e, s, hs, hr⟩ |
    ⟨e, archive, s, hs, hr⟩
  · obtain ⟨keep, kept, removed, hkeep, hreport, hrotation⟩ := hs.rotation
    have huntouched (name : Name) (hne : name ≠ report.archive)
        (hname : name ∉ owned config.project place.entries) :
        Same place.entries s.place.entries name :=
      hrotation.untouched name hne fun hmem =>
        hname (hrotation.parts.mem_iff.mpr (List.mem_append_right _ hmem))
    simp only [r, hr]
    refine ⟨fun report' h => ?_, fun h => ?_, fun archive h => ?_, fun other name hne h hname =>
      huntouched name ?_ (not_owned_of_other hne h)⟩
    · cases h
      exact ⟨hs.published, hs.accepted, keep, kept, removed, hkeep, hreport, hrotation⟩
    · cases hs.published.symm.trans h
    · obtain rfl : report.archive = archive := Option.some.inj (hs.published.symm.trans h)
      refine ⟨hrotation.regular, huntouched, ?_⟩
      rintro ⟨name, hname, hstat⟩
      cases (hs.dated name hname).symm.trans hstat
    · rintro rfl
      rw [hrotation.fresh] at hname
      cases hname
  · obtain ⟨hnone, hretained, hclean⟩ := exitTrap_unpublished env hs
    simp only [r, hr]
    refine ⟨nofun, fun _ => ⟨⟨e, rfl⟩, hretained, hclean⟩, fun archive h => ?_,
      fun other name _ _ hname => hretained name hname⟩
    cases hnone.symm.trans h
  · simp only [r, hr]
    refine ⟨nofun, fun h => ?_, fun archive' h => ?_, fun other name hne h hname =>
      hs.untouched name ?_ (not_owned_of_other hne h)⟩
    · cases hs.published.symm.trans h
    · obtain rfl : archive = archive' := Option.some.inj (hs.published.symm.trans h)
      refine ⟨hs.regular, hs.untouched, fun hstat => ?_⟩
      have he := hs.ordering hstat
      exact ⟨by rw [he], hs.skipped he⟩
    · rintro rfl
      rw [hs.fresh] at hname
      cases hname

/-! ### Sample runs -/

def noon (day : Fin 32) : UtcTime := ⟨2026, 7, day, 12, 0, 0, 0⟩

/-- A run in which every command does what it should, up to `rm` and the dump. -/
def sampleEnv (dumpStatus : Nat) (rm : Name → Outcome) : Env where
  mkdir := true
  chmodDirectory := true
  dockerPs := some ["0123456789abcdef01234567".toList]
  dockerInspect := some ("sentinel-prod".toList, "db".toList, "running".toList)
  date := some "20260703T120000.000000000Z".toList
  nonce := some "000000000003".toList
  mktemp := some "aB3dE5gH".toList
  chmodPartial := true
  dumpStatus := dumpStatus
  dump := [0x1f]
  gzipTest := true
  now := noon 3
  mv := true
  stat _ := true
  rm := rm

/-- Two archives, of which the older one has a name without a fraction, beside one of another
project. -/
def sampleDirectory : Directory :=
  (((∅ : Directory).insert "backup-sentinel-prod-20260701T120000Z-ffffffffffff.sql.gz".toList
    (.file (noon 2) [])).insert
      "backup-sentinel-prod-20260702T120000.000000000Z-000000000002.sql.gz".toList
        (.file (noon 1) [])).insert
          "backup-sentinel-prod-staging-20260701T120000Z-ffffffffffff.sql.gz".toList
            (.file (noon 1) [])

def sampleConfig : Config := ⟨none, some "02".toList, none⟩

def sampleArchive : Name :=
  "backup-sentinel-prod-20260703T120000.000000000Z-000000000003.sql.gz".toList

theorem backup_rotation_sample : ∃ kept removed,
    Rotation "sentinel-prod".toList 2 sampleDirectory
      (run (sampleEnv 0 fun _ => .done) sampleConfig (.directory sampleDirectory)).place.entries
      sampleArchive kept removed := by
  have hresult : (run (sampleEnv 0 fun _ => .done) sampleConfig
      (.directory sampleDirectory)).result = .ok ⟨sampleArchive, 2⟩ := by decide
  obtain ⟨-, -, keep, kept, removed, hkeep, -, hrotation⟩ :=
    (backup_rotation (sampleEnv 0 fun _ => .done) sampleConfig (.directory sampleDirectory)).1
      ⟨sampleArchive, 2⟩ hresult
  have hkeep2 : sampleConfig.keep = some 2 := by decide
  obtain rfl : 2 = keep := Option.some.inj (hkeep2.symm.trans hkeep)
  exact ⟨kept, removed, hrotation⟩

/-- When the dump fails and so does the `rm` of the trap, the partial archive is left. -/
theorem partial_archive_left : ¬ ∀ (env : Env) (config : Config) (place : Place),
    (run env config place).published = none → ∀ name,
      Same place.entries (run env config place).place.entries name := by
  intro h
  have hleft := h (sampleEnv 1 fun _ => .failed) sampleConfig (.directory ∅) (by decide)
    (partialName "sentinel-prod".toList "20260703T120000.000000000Z".toList
      "000000000003".toList "aB3dE5gH".toList)
  revert hleft
  unfold Same
  decide

end Sentinel.Scripts
