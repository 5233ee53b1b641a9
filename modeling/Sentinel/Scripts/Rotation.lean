import Sentinel.Library.Stateful
import Sentinel.Scripts.Archives

/-!
# Scripts — Rotation

What the steps of the backup script do to the directory, wherever they stop.

* `publish_spec`: until an archive is published, only the partial archive comes and goes.
* `order_spec`: the loop over two arrays sorts the prior archives by descending keys, or stops
  with nothing changed.
* `removeAll_spec`, `rotate_spec`: what is removed is among the archives behind the first
  `keep - 1`.
* `Ordered.rotation`: of the archives that leaves, in terms of ranks.
-/

namespace Sentinel.Scripts

open Insertion Stateful

/-! ### Steps -/

section Steps

variable {α : Type} {s : State} {E : BackupError → State → Prop}

@[simp] theorem ensures_require {b : Bool} {e : BackupError} {Q : Unit → State → Prop} :
    Ensures (require b e) s Q E ↔ (b = true → Q () s) ∧ (b = false → E e s) := by
  cases b <;> simp [require]

@[simp] theorem ensures_orFail {value : Option α} {e : BackupError} {Q : α → State → Prop} :
    Ensures (orFail value e) s Q E ↔ (∀ a, value = some a → Q a s) ∧ (value = none → E e s) := by
  cases value <;> simp [orFail]

/-- A check that may stop the script, where it may be stopped. -/
theorem ensures_require_of {b : Bool} {e : BackupError} {Q : Unit → State → Prop} (hE : E e s)
    (hQ : b = true → Q () s) : Ensures (require b e) s Q E :=
  ensures_require.mpr ⟨hQ, fun _ => hE⟩

theorem ensures_orFail_of {value : Option α} {e : BackupError} {Q : α → State → Prop} (hE : E e s)
    (hQ : ∀ a, value = some a → Q a s) : Ensures (orFail value e) s Q E :=
  ensures_orFail.mpr ⟨hQ, fun _ => hE⟩

@[simp] theorem ensures_entries {Q : Directory → State → Prop} :
    Ensures entries s Q E ↔ Q s.place.entries s :=
  Iff.rfl

@[simp] theorem ensures_setEntries {d : Directory} {Q : Unit → State → Prop} :
    Ensures (setEntries d) s Q E ↔ Q () { s with place := .directory d } := by
  simp [setEntries]

end Steps

@[simp] theorem Place.entries_directory (d : Directory) : (Place.directory d).entries = d := rfl

/-- `name` is a regular file, and no link to one. -/
def Regular (d : Directory) (name : Name) : Prop :=
  ∃ mtime content, d.lookup name = some (.file mtime content)

theorem regular_iff {d : Directory} {name : Name} :
    testFile d name = true ∧ testLink d name = false ↔ Regular d name := by
  unfold testFile testLink Regular
  cases d.lookup name with
  | none => simp
  | some node =>
      cases node with
      | file mtime content => simp
      | symlink target => cases target <;> simp
      | other => simp

/-! ### Publication -/

/-- Nothing is published. All of the directory is as it was but for the partial archive. -/
structure Unpublished (d : Directory) (s : State) : Prop where
  published : s.published = none
  others : ∀ name, s.backupPartial ≠ some name → s.place.entries.lookup name = d.lookup name
  unfinished : ∀ name, s.backupPartial = some name →
    d.lookup name = none ∧ Regular s.place.entries name

/-- The archive is published, and that is all that has changed. -/
structure Published (project : Text) (d : Directory) (archive : Name) (s : State) : Prop where
  published : s.published = some archive
  finished : s.backupPartial = none
  named : (parseArchive project archive).isSome
  fresh : d.lookup archive = none
  regular : Regular s.place.entries archive
  others : ∀ name, name ≠ archive → s.place.entries.lookup name = d.lookup name

/-- The partial archive is there, and the rest is as it was. -/
theorem unpublished_of_partial {d e : Directory} {unfinished : Name} {published : Option Name}
    (hpublished : published = none) (hfresh : d.lookup unfinished = none)
    (hregular : Regular e unfinished)
    (hothers : ∀ name, name ≠ unfinished → e.lookup name = d.lookup name) :
    Unpublished d ⟨.directory e, some unfinished, published⟩ where
  published := hpublished
  others name hname := hothers name fun h => hname (h ▸ rfl)
  unfinished name hname := by
    cases hname
    exact ⟨hfresh, hregular⟩

theorem lookup_none_of_tests {d : Directory} {name : Name} (hexists : testExists d name = false)
    (hlink : testLink d name = false) : d.lookup name = none := by
  unfold testExists at hexists
  unfold testLink at hlink
  cases h : d.lookup name with
  | none => rfl
  | some node =>
      cases node with
      | symlink target => simp [h] at hlink
      | file mtime content => simp [h] at hexists
      | other => simp [h] at hexists

theorem partialName_ne (project time nonce random : Text) :
    partialName project time nonce random ≠ archiveName project time nonce := by
  have hliteral : "backup-".toList = 'b' :: "ackup-".toList := by decide
  unfold partialName archiveName backupPrefix
  simp only [hliteral, List.cons_append, ne_eq, List.cons.injEq, Char.reduceEq, false_and,
    not_false_eq_true]

/-- Moving a file to a name that is free. -/
theorem mvNoClobber_lookup {d : Directory} {source target : Name} {node : Node}
    (hsource : d.lookup source = some node) (htarget : d.lookup target = none)
    (hne : source ≠ target) :
    (mvNoClobber source target d).lookup source = none ∧
      (mvNoClobber source target d).lookup target = some node ∧
        ∀ name, name ≠ source → name ≠ target →
          (mvNoClobber source target d).lookup name = d.lookup name := by
  have hmoved : mvNoClobber source target d = (d.erase source).insert target node := by
    simp [mvNoClobber, hsource, htarget]
  rw [hmoved]
  refine ⟨?_, AList.lookup_insert _, fun name hs ht => ?_⟩
  · rw [AList.lookup_insert_ne hne, AList.lookup_erase]
  · rw [AList.lookup_insert_ne ht, AList.lookup_erase_ne hs]

/-- Publishing leaves the prior entries alone, wherever it stops. -/
theorem publish_spec (env : Env) (project : Text) {s : State} (htemp : s.backupPartial = none)
    (hpublished : s.published = none) :
    Ensures (publish env project) s (fun archive s' => Published project s.place.entries archive s')
      (fun _ s' => Unpublished s.place.entries s') := by
  have hstart : Unpublished s.place.entries s :=
    ⟨hpublished, fun _ _ => rfl, fun name h => by cases htemp.symm.trans h⟩
  simp only [publish, ensures_bind, ensures_entries, ensures_setEntries, ensures_modify,
    ensures_pure]
  refine ensures_orFail_of hstart fun time _ => ensures_orFail_of hstart fun nonce _ => ?_
  refine ensures_require_of hstart fun hname => ensures_require_of hstart fun hfree => ?_
  refine ensures_orFail_of hstart fun random _ => ensures_require_of hstart fun hfresh => ?_
  have hne := partialName_ne project time nonce random
  have hnamed : (parseArchive project (archiveName project time nonce)).isSome := by
    obtain ⟨htime, hnonce⟩ := Bool.and_eq_true_iff.mp hname
    rw [parseArchive_archiveName htime hnonce]
    rfl
  have hfree : s.place.entries.lookup (archiveName project time nonce) = none :=
    lookup_none_of_tests (by simpa using (Bool.and_eq_true_iff.mp hfree).1)
      (by simpa using (Bool.and_eq_true_iff.mp hfree).2)
  have hfresh : s.place.entries.lookup (partialName project time nonce random) = none := by
    simpa using hfresh
  generalize partialName project time nonce random = unfinished at *
  generalize archiveName project time nonce = archive at *
  -- from here on the partial archive is there, until it is moved
  have hunfinished (content : List UInt8) : Unpublished s.place.entries
      ⟨.directory (s.place.entries.insert unfinished (.file env.now content)), some unfinished,
        s.published⟩ :=
    unpublished_of_partial hpublished hfresh ⟨_, _, AList.lookup_insert _⟩
      fun name hname => AList.lookup_insert_ne hname
  refine ensures_require_of (hunfinished _) fun _ => ?_
  simp only [Place.entries_directory, AList.insert_insert]
  refine ensures_require_of (hunfinished _) fun _ => ensures_require_of (hunfinished _) fun _ => ?_
  refine ensures_require_of (hunfinished _) fun _ => ensures_require_of (hunfinished _) fun _ => ?_
  obtain ⟨hsource, htarget, hothers⟩ := mvNoClobber_lookup
    (AList.lookup_insert (a := unfinished) (b := Node.file env.now env.dump) s.place.entries)
    ((AList.lookup_insert_ne hne.symm).trans hfree) hne
  have hregular : Regular (mvNoClobber unfinished archive
      (s.place.entries.insert unfinished (.file env.now env.dump))) archive := ⟨_, _, htarget⟩
  refine ensures_require.mpr ⟨fun _ => ?_, fun htests => ?_⟩
  · refine ⟨rfl, rfl, hnamed, hfree, hregular, fun name hname => ?_⟩
    by_cases hsame : name = unfinished
    · rw [hsame]
      exact hsource.trans hfresh.symm
    · exact (hothers name hsame hname).trans (AList.lookup_insert_ne hsame)
  · -- what the tests after the move look for is there
    obtain ⟨hfile, hlink⟩ := regular_iff.mpr hregular
    simp [hfile, hlink, testExists, hsource] at htests

/-! ### Ordering -/

section Order

variable (project : Text) (archive : Name) (d : Directory)

/-- The archives among the names, but for the new one, with their keys. -/
def keyed (ids : List Name) : List (Name × Text) :=
  ids.filterMap fun id =>
    if id = archive then none else (rank project d id).map fun r => (id, r.key)

variable {project archive d}

theorem rank_none {id : Name} (h : ¬ Regular d id ∨ parseArchive project id = none) :
    rank project d id = none := by
  rw [Option.eq_none_iff_forall_not_mem]
  intro r hr
  obtain ⟨mtime, content, time, nonce, hlookup, hparse, -⟩ := rank_eq_some.mp hr
  rcases h with h | h
  · exact h ⟨mtime, content, hlookup⟩
  · cases h.symm.trans hparse

theorem keyed_skip {id : Name} {ids : List Name}
    (h : id = archive ∨ rank project d id = none) :
    keyed project archive d (id :: ids) = keyed project archive d ids := by
  have hnone : (if id = archive then none
      else (rank project d id).map fun r => (id, r.key)) = none := by
    rcases h with h | h
    · rw [if_pos h]
    · rw [h, Option.map_none, ite_self]
  exact List.filterMap_cons_none hnone

theorem keyed_take {id : Name} {ids : List Name} {r : Rank} (hne : id ≠ archive)
    (hr : rank project d id = some r) :
    keyed project archive d (id :: ids) = (id, r.key) :: keyed project archive d ids := by
  have hsome : (if id = archive then none
      else (rank project d id).map fun r => (id, r.key)) = some (id, r.key) := by
    rw [if_neg hne, hr, Option.map_some]
  exact List.filterMap_cons_some hsome

/-- `stat` has printed the time of every archive among the names, but for the new one. -/
def Dated (env : Env) (project : Text) (archive : Name) (d : Directory) (ids : List Name) : Prop :=
  ∀ id ∈ ids, id ≠ archive → (rank project d id).isSome → env.stat id = true

theorem dated_cons {env : Env} {id : Name} {ids : List Name} :
    Dated env project archive d (id :: ids) ↔
      (id ≠ archive → (rank project d id).isSome → env.stat id = true) ∧
        Dated env project archive d ids :=
  List.forall_mem_cons

/-- The loop sorts the archives among the names, or stops without having changed anything. -/
theorem order_spec (env : Env) (s : State) : ∀ (ids : List Name) (l : List (Name × Text)),
    Sorted l → Ensures (order env project archive d ids (columns l)) s
      (fun arrays s' => s' = s ∧ Dated env project archive d ids ∧
        ∃ l', arrays = columns l' ∧ Sorted l' ∧ l'.Perm (keyed project archive d ids ++ l))
      (fun e s' => s' = s ∧ e = .ordering archive)
  | [], l, hl => ⟨rfl, by simp [Dated], l, rfl, hl, .refl _⟩
  | id :: ids, l, hl => by
      have ih := order_spec env s ids
      -- an entry that is passed over adds nothing
      have hskip (h : id = archive ∨ rank project d id = none) :
          Ensures (order env project archive d ids (columns l)) s
            (fun arrays s' => s' = s ∧ Dated env project archive d (id :: ids) ∧
              ∃ l', arrays = columns l' ∧ Sorted l' ∧
                l'.Perm (keyed project archive d (id :: ids) ++ l))
            (fun e s' => s' = s ∧ e = .ordering archive) := by
        rw [keyed_skip h]
        refine (ih l hl).mono (fun arrays s' hs => ?_) fun e s' h => h
        obtain ⟨hs, hdated, hl'⟩ := hs
        refine ⟨hs, dated_cons.mpr ⟨fun hne hrank => ?_, hdated⟩, hl'⟩
        rcases h with h | h
        · exact absurd h hne
        · simp [h] at hrank
      rw [order]
      split
      · rename_i hregular
        obtain ⟨mtime, content, hlookup⟩ := regular_iff.mp hregular
        split
        · rename_i hparse
          exact hskip (.inr (rank_none (.inr hparse)))
        · rename_i time nonce hparse
          split
          · rename_i harchive
            exact hskip (.inl harchive)
          · rename_i hne
            have hr : rank project d id = some (toLex (time, toLex (mtime, nonce))) :=
              rank_eq_some.mpr ⟨mtime, content, time, nonce, hlookup, hparse, rfl⟩
            rw [ensures_bind, ensures_orFail]
            refine ⟨fun file_mtime hmtime => ?_, fun _ => ⟨rfl, rfl⟩⟩
            obtain ⟨hstat, rfl⟩ : env.stat id = true ∧ mtime.text = file_mtime := by
              simpa [statMtime, hlookup] using hmtime
            rw [keyed_take hne hr, insert_columns]
            refine (ih _ hl.place).mono (fun arrays s' h => ?_) fun e s' h => h
            obtain ⟨hs, hdated, l', harrays, hl', hperm⟩ := h
            refine ⟨hs, dated_cons.mpr ⟨fun _ _ => hstat, hdated⟩, l', harrays, hl',
              hperm.trans ?_⟩
            exact ((place_perm _ l).append_left _).trans List.perm_middle
      · rename_i hregular
        exact hskip (.inr (rank_none (.inl fun h => hregular (regular_iff.mpr h))))

end Order

/-! ### Removal -/

/-- Between two states, nothing has changed but that some of the names may be removed. -/
structure Removes (names : List Name) (s s' : State) : Prop where
  published : s'.published = s.published
  finished : s'.backupPartial = s.backupPartial
  others : ∀ name, name ∉ names → s'.place.entries.lookup name = s.place.entries.lookup name
  removed : ∀ name, s.place.entries.lookup name = none → s'.place.entries.lookup name = none

theorem Removes.refl (names : List Name) (s : State) : Removes names s s :=
  ⟨rfl, rfl, fun _ _ => rfl, fun _ h => h⟩

theorem Removes.trans {names : List Name} {s₁ s₂ s₃ : State} (h₁ : Removes names s₁ s₂)
    (h₂ : Removes names s₂ s₃) : Removes names s₁ s₃ where
  published := h₂.published.trans h₁.published
  finished := h₂.finished.trans h₁.finished
  others name hname := (h₂.others name hname).trans (h₁.others name hname)
  removed name hname := h₂.removed name (h₁.removed name hname)

theorem Removes.cons {name : Name} {names : List Name} {s s' : State} (h : Removes names s s') :
    Removes (name :: names) s s' where
  published := h.published
  finished := h.finished
  others name' hname := h.others name' fun hmem => hname (List.mem_cons_of_mem _ hmem)
  removed := h.removed

/-- What `rm` leaves: the other entries, and nothing of the entry when it succeeds. -/
theorem rm_lookup (env : Env) (name : Name) (d : Directory) :
    (∀ name', name' ≠ name → (rm env name d).2.lookup name' = d.lookup name') ∧
      ((rm env name d).2.lookup name = none ∨ (rm env name d).2.lookup name = d.lookup name) ∧
        ((rm env name d).1 = true → (rm env name d).2.lookup name = none) := by
  have herase : (d.erase name).lookup name = none := AList.lookup_erase _ _
  have hothers (name' : Name) (h : name' ≠ name) : (d.erase name).lookup name' = d.lookup name' :=
    AList.lookup_erase_ne h
  unfold rm
  cases env.rm name with
  | done => exact ⟨hothers, .inl herase, fun _ => herase⟩
  | failed => exact ⟨fun _ _ => rfl, .inr rfl, fun h => by cases h⟩
  | failedLate => exact ⟨hothers, .inl herase, fun h => by cases h⟩

theorem removes_rm (env : Env) (name : Name) (names : List Name) (s : State) :
    Removes (name :: names) s
      { s with place := .directory (rm env name s.place.entries).2 } := by
  obtain ⟨hothers, hname, -⟩ := rm_lookup env name s.place.entries
  refine ⟨rfl, rfl, fun name' h => hothers name' (List.ne_of_not_mem_cons h), fun name' h => ?_⟩
  by_cases hsame : name' = name
  · rw [hsame] at h ⊢
    exact hname.elim id fun h' => h'.trans h
  · exact (hothers name' hsame).trans h

theorem removeAll_spec (env : Env) (archive : Name) : ∀ (names : List Name) (s : State),
    Ensures (removeAll env archive names) s
      (fun _ s' => Removes names s s' ∧ ∀ name ∈ names, s'.place.entries.lookup name = none)
      (fun e s' => e = .rotation archive ∧ Removes names s s')
  | [], s => ⟨.refl _ _, by simp⟩
  | name :: names, s => by
      have hstep := removes_rm env name names s
      rw [removeAll]
      simp only [ensures_bind, ensures_entries, ensures_setEntries, ensures_require]
      refine ⟨fun hsuccess => ?_, fun _ => ⟨trivial, hstep⟩⟩
      refine (removeAll_spec env archive names _).mono (fun _ s' h => ?_)
        fun e s' h => ⟨h.1, hstep.trans h.2.cons⟩
      obtain ⟨hrest, hnone⟩ := h
      refine ⟨hstep.trans hrest.cons, fun name' hmem => ?_⟩
      rcases List.mem_cons.mp hmem with rfl | hmem
      · exact hrest.removed _ ((rm_lookup env _ s.place.entries).2.2 hsuccess)
      · exact hnone name' hmem

/-! ### Rotation -/

/-- The prior archives, sorted by descending rank. -/
structure Ordered (project : Text) (archive : Name) (d : Directory) (l : List (Name × Text)) :
    Prop where
  sorted : Sorted l
  perm : l.Perm (keyed project archive d (glob project d))

theorem mem_keyed {project : Text} {archive : Name} {d : Directory} {ids : List Name}
    {p : Name × Text} : p ∈ keyed project archive d ids ↔
      p.1 ∈ ids ∧ p.1 ≠ archive ∧ ∃ r, rank project d p.1 = some r ∧ p.2 = r.key := by
  simp only [keyed, List.mem_filterMap]
  constructor
  · rintro ⟨id, hid, h⟩
    split at h
    · cases h
    · rename_i hne
      obtain ⟨r, hr, rfl⟩ := Option.map_eq_some_iff.mp h
      exact ⟨hid, hne, r, hr, rfl⟩
  · rintro ⟨hid, hne, r, hr, hkey⟩
    exact ⟨p.1, hid, by rw [if_neg hne, hr, Option.map_some, ← hkey]⟩

theorem Ordered.mem {project : Text} {archive : Name} {d : Directory} {l : List (Name × Text)}
    (h : Ordered project archive d l) {name : Name} : name ∈ l.map Prod.fst ↔
      name ∈ glob project d ∧ name ≠ archive ∧ (rank project d name).isSome := by
  simp only [List.mem_map, h.perm.mem_iff, mem_keyed, Option.isSome_iff_exists]
  constructor
  · rintro ⟨p, ⟨hid, hne, r, hr, -⟩, rfl⟩
    exact ⟨hid, hne, r, hr⟩
  · rintro ⟨hid, hne, r, hr⟩
    exact ⟨(name, r.key), ⟨hid, hne, r, hr, rfl⟩, rfl⟩

/-- What rotation does once it has sorted the prior archives: it removes those behind the first
`keep - 1`, or stops on the way. -/
theorem rotate_spec (env : Env) (project : Text) {keep : Nat} (hkeep : 1 ≤ keep) (archive : Name)
    {s : State} (hregular : Regular s.place.entries archive) :
    Ensures (rotate env project keep archive) s
      (fun report s' => Dated env project archive s.place.entries (glob project s.place.entries) ∧
        ∃ l, Ordered project archive s.place.entries l ∧
          report = ⟨archive, min (l.length + 1) keep⟩ ∧
          Removes ((l.map Prod.fst).drop (keep - 1)) s s' ∧
          ∀ name ∈ (l.map Prod.fst).drop (keep - 1), s'.place.entries.lookup name = none)
      (fun e s' => (e = .ordering archive ∧ s' = s) ∨ (e = .rotation archive ∧
        Dated env project archive s.place.entries (glob project s.place.entries) ∧
        ∃ l, Ordered project archive s.place.entries l ∧
          Removes ((l.map Prod.fst).drop (keep - 1)) s s')) := by
  rw [rotate]
  simp only [ensures_bind, ensures_entries, ensures_require, ensures_pure]
  have hsorted : Sorted ([] : List (Name × Text)) := List.Pairwise.nil
  refine (order_spec env s (glob project s.place.entries) [] hsorted).mono
    (fun arrays s₁ h => ?_) fun e s' h => .inl h.symm
  obtain ⟨rfl, hdated, l, rfl, hl, hperm⟩ := h
  rw [List.append_nil] at hperm
  have hdrop : (archive :: (columns l).1).drop keep = (l.map Prod.fst).drop (keep - 1) := by
    obtain ⟨k, rfl⟩ := Nat.exists_eq_add_of_le' hkeep
    rfl
  rw [hdrop]
  refine (removeAll_spec env archive _ s₁).mono (fun _ s' h => ?_)
    fun e s' h => .inr ⟨h.1, hdated, l, ⟨hl, hperm⟩, h.2⟩
  obtain ⟨hremoves, hnone⟩ := h
  have hthere : Regular s'.place.entries archive := by
    obtain ⟨mtime, content, hlookup⟩ := hregular
    refine ⟨mtime, content, (hremoves.others archive fun hmem => ?_).trans hlookup⟩
    have hordered : Ordered project archive s₁.place.entries l := ⟨hl, hperm⟩
    exact (hordered.mem.mp (List.mem_of_mem_drop hmem)).2.1 rfl
  obtain ⟨hfile, hlink⟩ := regular_iff.mpr hthere
  refine ⟨fun _ => ⟨hdated, l, ⟨hl, hperm⟩, ?_, hremoves, hnone⟩, fun htests => ?_⟩
  · rw [List.length_cons, columns, List.length_map]
  · simp [hfile, hlink] at htests

/-! ### The archives that remain -/

theorem mem_owned {project : Text} {d : Directory} {name : Name} :
    name ∈ owned project d ↔ (rank project d name).isSome := by
  rw [owned, List.mem_filter, and_iff_right_of_imp]
  intro h
  obtain ⟨r, hr⟩ := Option.isSome_iff_exists.mp h
  obtain ⟨mtime, content, -, -, hlookup, -, -⟩ := rank_eq_some.mp hr
  exact AList.mem_keys.mp (AList.lookup_isSome.mp (by rw [hlookup]; rfl))

theorem nodup_owned (project : Text) (d : Directory) : (owned project d).Nodup :=
  d.keys_nodup.filter _

/-- The loop comes to every archive of the project. -/
theorem mem_glob_of_owned {project : Text} {d : Directory} {name : Name}
    (h : name ∈ owned project d) : name ∈ glob project d := by
  obtain ⟨r, hr⟩ := Option.isSome_iff_exists.mp (mem_owned.mp h)
  obtain ⟨-, -, time, nonce, -, hparse, -⟩ := rank_eq_some.mp hr
  rw [glob, List.mem_insertionSort, List.mem_filter]
  exact ⟨(List.mem_filter.mp h).1, globMatches_of_parse (by rw [hparse]; rfl)⟩

theorem rank_congr {project : Text} {d d' : Directory} {name : Name}
    (h : d'.lookup name = d.lookup name) : rank project d' name = rank project d name := by
  unfold rank
  rw [h]

theorem rank_absent {project : Text} {d : Directory} {name : Name} (h : d.lookup name = none) :
    rank project d name = none :=
  rank_none (.inl fun ⟨_, _, hlookup⟩ => by cases h.symm.trans hlookup)

section Remain

variable {project : Text} {d : Directory} {archive : Name} {s : State} {l : List (Name × Text)}

/-- Beside the new archive, the archives are the prior ones. -/
theorem Published.owned_iff (h : Published project d archive s) {name : Name} :
    name ∈ owned project s.place.entries ↔ name = archive ∨ name ∈ owned project d := by
  rw [mem_owned, mem_owned]
  by_cases hname : name = archive
  · obtain ⟨mtime, content, hlookup⟩ := h.regular
    obtain ⟨⟨time, nonce⟩, hparse⟩ := Option.isSome_iff_exists.mp h.named
    have hr : rank project s.place.entries archive = some (toLex (time, toLex (mtime, nonce))) :=
      rank_eq_some.mpr ⟨mtime, content, time, nonce, hlookup, hparse, rfl⟩
    simp [hname, hr]
  · rw [rank_congr (h.others name hname), or_iff_right hname]

theorem Published.archive_not_owned (h : Published project d archive s) :
    archive ∉ owned project d := by
  rw [mem_owned, rank_absent h.fresh]
  exact Bool.false_ne_true

theorem keyed_sublist (ids : List Name) :
    ((keyed project archive d ids).map Prod.fst).Sublist ids := by
  induction ids with
  | nil => exact .slnil
  | cons id ids ih =>
      by_cases hskip : id = archive ∨ rank project d id = none
      · rw [keyed_skip hskip]
        exact ih.cons id
      · obtain ⟨hne, hr⟩ := not_or.mp hskip
        obtain ⟨r, hr⟩ := Option.ne_none_iff_exists'.mp hr
        rw [keyed_take hne hr]
        exact ih.cons_cons id

theorem nodup_glob (project : Text) (d : Directory) : (glob project d).Nodup :=
  (List.perm_insertionSort _ _).nodup_iff.mpr (d.keys_nodup.filter _)

theorem Ordered.nodup (h : Ordered project archive d l) : (l.map Prod.fst).Nodup :=
  (h.perm.map Prod.fst).nodup_iff.mpr ((keyed_sublist _).nodup (nodup_glob project d))

/-- The keys are those of the ranks. -/
theorem Ordered.key_eq (h : Ordered project archive s.place.entries l)
    (hs : Published project d archive s) {p : Name × Text} (hp : p ∈ l) {r : Rank}
    (hr : rank project d p.1 = some r) : p.2 = r.key := by
  obtain ⟨-, hne, r', hr', hkey⟩ := mem_keyed.mp (h.perm.mem_iff.mp hp)
  rw [rank_congr (hs.others p.1 hne), hr] at hr'
  rw [hkey, Option.some.inj hr']

/-- The names that are sorted are those of the prior archives. -/
theorem Ordered.perm_owned (h : Ordered project archive s.place.entries l)
    (hs : Published project d archive s) : (l.map Prod.fst).Perm (owned project d) := by
  refine (List.perm_ext_iff_of_nodup h.nodup (nodup_owned project d)).mpr fun name => ?_
  rw [h.mem, ← mem_owned, hs.owned_iff]
  constructor
  · rintro ⟨-, hne, heq | hmem⟩
    · exact absurd heq hne
    · exact hmem
  · intro hmem
    have hne : name ≠ archive := fun heq => hs.archive_not_owned (heq ▸ hmem)
    exact ⟨mem_glob_of_owned (hs.owned_iff.mpr (.inr hmem)), hne, .inr hmem⟩

/-- An archive before another one has no lower rank. -/
theorem Ordered.rank_le (h : Ordered project archive s.place.entries l)
    (hs : Published project d archive s) {n : Nat} {k x : Name}
    (hk : k ∈ (l.map Prod.fst).take n) (hx : x ∈ (l.map Prod.fst).drop n) {rk rx : Rank}
    (hrk : rank project d k = some rk) (hrx : rank project d x = some rx) : rx ≤ rk := by
  rw [← List.map_take] at hk
  rw [← List.map_drop] at hx
  obtain ⟨p, hp, rfl⟩ := List.mem_map.mp hk
  obtain ⟨q, hq, rfl⟩ := List.mem_map.mp hx
  have hsorted : Sorted (l.take n ++ l.drop n) := by
    rw [List.take_append_drop]
    exact h.sorted
  have hle : q.2 ≤ p.2 := (List.pairwise_append.mp hsorted).2.2 p hp q hq
  rw [h.key_eq hs (List.mem_of_mem_take hp) hrk, h.key_eq hs (List.mem_of_mem_drop hq) hrx] at hle
  exact not_lt.mp fun hlt => not_lt.mpr hle ((key_lt_iff hrk hrx).mpr hlt)

end Remain

/-- What a successful run makes of a directory: the new archive is there, the prior archives are
parted into those kept and those removed, by rank, and nothing else has changed. -/
structure Rotation (project : Text) (keep : Nat) (d d' : Directory) (archive : Name)
    (kept removed : List Name) : Prop where
  fresh : d.lookup archive = none
  regular : Regular d' archive
  parts : (owned project d).Perm (kept ++ removed)
  count : kept.length + 1 = min keep ((owned project d).length + 1)
  greatest : ∀ k ∈ kept, ∀ x ∈ removed, ∀ rk rx, rank project d k = some rk →
    rank project d x = some rx → rx ≤ rk
  remaining : (owned project d').Perm (archive :: kept)
  untouched : ∀ name, name ≠ archive → name ∉ removed → d'.lookup name = d.lookup name

theorem Ordered.rotation {project : Text} {keep : Nat} {d : Directory} {archive : Name}
    {s s' : State} {l : List (Name × Text)} (hkeep : 1 ≤ keep)
    (h : Ordered project archive s.place.entries l) (hs : Published project d archive s)
    (hremoves : Removes ((l.map Prod.fst).drop (keep - 1)) s s')
    (hnone : ∀ name ∈ (l.map Prod.fst).drop (keep - 1), s'.place.entries.lookup name = none) :
    Rotation project keep d s'.place.entries archive ((l.map Prod.fst).take (keep - 1))
      ((l.map Prod.fst).drop (keep - 1)) := by
  have hperm := h.perm_owned hs
  have hnotin : archive ∉ l.map Prod.fst := fun hmem => (h.mem.mp hmem).2.1 rfl
  have hkept : archive ∉ (l.map Prod.fst).take (keep - 1) :=
    fun hmem => hnotin (List.mem_of_mem_take hmem)
  have hremoved : archive ∉ (l.map Prod.fst).drop (keep - 1) :=
    fun hmem => hnotin (List.mem_of_mem_drop hmem)
  refine ⟨hs.fresh, ?_, ?_, ?_, fun k hk x hx rk rx hrk hrx => h.rank_le hs hk hx hrk hrx, ?_,
    fun name hne hname => (hremoves.others name hname).trans (hs.others name hne)⟩
  · obtain ⟨mtime, content, hlookup⟩ := hs.regular
    exact ⟨mtime, content, (hremoves.others archive hremoved).trans hlookup⟩
  · rw [List.take_append_drop]
    exact hperm.symm
  · rw [List.length_take, hperm.length_eq]
    omega
  · -- a removed archive is gone, and every other one is as it was
    have hnodup := h.nodup
    rw [← List.take_append_drop (keep - 1) (l.map Prod.fst)] at hnodup
    refine (List.perm_ext_iff_of_nodup (nodup_owned _ _) (List.nodup_cons.mpr
      ⟨hkept, hnodup.of_append_left⟩)).mpr fun name => ?_
    rw [List.mem_cons, mem_owned]
    by_cases hname : name ∈ (l.map Prod.fst).drop (keep - 1)
    · rw [rank_absent (hnone name hname)]
      refine iff_of_false Bool.false_ne_true ?_
      rintro (rfl | hmem)
      · exact hremoved hname
      · exact (List.disjoint_of_nodup_append hnodup) hmem hname
    · rw [rank_congr (hremoves.others name hname), ← mem_owned, hs.owned_iff, ← hperm.mem_iff,
        ← List.take_append_drop (keep - 1) (l.map Prod.fst), List.mem_append, or_iff_left hname,
        List.take_append_drop]

end Sentinel.Scripts
