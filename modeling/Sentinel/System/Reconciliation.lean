import Sentinel.System.Operations

/-!
# System — Reconciliation

What the status seed makes of the tables, from any state of them.

The seed opens the owner's account, upserts one monitor for each entry of the manifest, and hides
what is public beyond them. Each of the three is a relation of the tables before and after it.

* `Opened`, `Upserted`, `hidden`: the three parts.
* `Reconciled`: the public monitors are the owner's with a key of the manifest, each entry has its
  one row, and nothing else has changed.
* `Settled`: tables on which the seed has nothing to do.
* `statusSeed_reconciles`: a seed that succeeds reconciles, and a second one changes nothing.
-/

namespace Sentinel.System

open Program Database Api

/-! ### The upserts -/

/-- A monitor of an account with the key of an entry. -/
def Listed (owner : Int) (es : List StatusMonitor) (m : Monitor) : Prop :=
  m.userId = owner ∧ ∃ e ∈ es, m.seedKey = some e.seedKey

/-- The row of an entry, with the columns that the seed sets. -/
structure Carries (owner : Int) (e : StatusMonitor) (m : Monitor) : Prop where
  userId : m.userId = owner
  seedKey : m.seedKey = some e.seedKey
  seeded : m.seeded e.values = m

/-- The entries have their rows, and no other row is touched. -/
structure Upserted (owner : Int) (es : List StatusMonitor) (db db' : Db) : Prop where
  users : db'.users = db.users
  checkResults : db'.checkResults = db.checkResults
  alerts : db'.alerts = db.alerts
  rows : ∀ e ∈ es, ∃ m ∈ db'.monitors, Carries owner e m
  kept : ∀ m ∈ db.monitors, ¬ Listed owner es m → m ∈ db'.monitors
  ids : ∀ m ∈ db.monitors, ∃ m' ∈ db'.monitors, m'.id = m.id
  old : ∀ m ∈ db'.monitors, m ∈ db.monitors ∨ Listed owner es m

section Upsert

variable {owner : Int} {e : StatusMonitor} {es fs : List StatusMonitor} {db db₁ db₂ : Db}

theorem upserted_refl (owner : Int) (db : Db) : Upserted owner [] db db where
  users := rfl
  checkResults := rfl
  alerts := rfl
  rows _ h := absurd h List.not_mem_nil
  kept _ h _ := h
  ids m h := ⟨m, h, rfl⟩
  old _ h := .inl h

/-- Entries with other keys leave the rows as they are. -/
theorem Upserted.trans (h₁ : Upserted owner es db db₁) (h₂ : Upserted owner fs db₁ db₂)
    (hkeys : ∀ e ∈ es, ∀ f ∈ fs, e.seedKey ≠ f.seedKey) : Upserted owner (es ++ fs) db db₂ where
  users := h₂.users.trans h₁.users
  checkResults := h₂.checkResults.trans h₁.checkResults
  alerts := h₂.alerts.trans h₁.alerts
  rows e he := by
    rcases List.mem_append.mp he with he | he
    · obtain ⟨m, hm, hcarries⟩ := h₁.rows e he
      refine ⟨m, h₂.kept m hm ?_, hcarries⟩
      rintro ⟨-, f, hf, hkey⟩
      exact hkeys e he f hf (Option.some.inj (hcarries.seedKey.symm.trans hkey))
    · exact h₂.rows e he
  kept m hm hout := by
    refine h₂.kept m (h₁.kept m hm ?_) ?_
    · rintro ⟨huser, e, he, hkey⟩
      exact hout ⟨huser, e, List.mem_append_left _ he, hkey⟩
    · rintro ⟨huser, e, he, hkey⟩
      exact hout ⟨huser, e, List.mem_append_right _ he, hkey⟩
  ids m hm := by
    obtain ⟨m₁, hm₁, hid₁⟩ := h₁.ids m hm
    obtain ⟨m₂, hm₂, hid₂⟩ := h₂.ids m₁ hm₁
    exact ⟨m₂, hm₂, hid₂.trans hid₁⟩
  old m hm := by
    rcases h₂.old m hm with hm | ⟨huser, e, he, hkey⟩
    · rcases h₁.old m hm with hm | ⟨huser, e, he, hkey⟩
      · exact .inl hm
      · exact .inr ⟨huser, e, List.mem_append_left _ he, hkey⟩
    · exact .inr ⟨huser, e, List.mem_append_right _ he, hkey⟩

/-- One upsert, of a row that is there or of a new one. -/
theorem upserted_one {moment : Moment} {a b : Seq} {now : Time} {out : Unit} {ws : List Write}
    (hids : (db.monitors.map (·.id)).Nodup)
    (hplan : (Sql.upsertMonitor owner e.seedKey e.values now).plan moment a db =
      (b, .ok (out, ws))) (hreplay : replay db ws = .ok db₁) : Upserted owner [e] db db₁ := by
  have hlisted : ∀ m : Monitor, m.userId = owner → m.seedKey = some e.seedKey →
      Listed owner [e] m := fun m huser hkey => ⟨huser, e, List.mem_singleton_self e, hkey⟩
  simp only [Sql.plan] at hplan
  split at hplan
  · rename_i m hfind
    cases hplan
    cases (replay_cons.mp hreplay).2
    have hm := List.mem_of_find?_eq_some hfind
    have hown : m.userId = owner ∧ m.seedKey = some e.seedKey := by
      simpa using List.find?_some hfind
    refine ⟨rfl, rfl, rfl, fun e' he' => ?_, fun n hn hout => ?_, fun n hn => ?_, fun n hn => ?_⟩
    · obtain rfl := List.mem_singleton.mp he'
      exact ⟨m.seeded e'.values, List.mem_map.mpr ⟨m, hm, if_pos rfl⟩, hown.1, hown.2, rfl⟩
    · refine List.mem_map.mpr ⟨n, hn, if_neg fun hid => hout ?_⟩
      obtain rfl := List.inj_on_of_nodup_map hids hn hm hid
      exact hlisted n hown.1 hown.2
    · refine ⟨_, List.mem_map_of_mem hn, ?_⟩
      split
      · rfl
      · rfl
    · rcases Db.mem_onMonitor hn with ⟨hn, -⟩ | ⟨old, hold, hid, rfl⟩
      · exact .inl hn
      · obtain rfl := List.inj_on_of_nodup_map hids hold hm hid
        exact .inr (hlisted _ hown.1 hown.2)
  · cases hplan
    cases (replay_cons.mp hreplay).2
    refine ⟨rfl, rfl, rfl, fun e' he' => ?_, fun n hn _ => List.mem_append_left _ hn,
      fun n hn => ⟨n, List.mem_append_left _ hn, rfl⟩, fun n hn => ?_⟩
    · obtain rfl := List.mem_singleton.mp he'
      exact ⟨_, List.mem_append_right _ (List.mem_singleton_self _), rfl, rfl, rfl⟩
    · rcases List.mem_append.mp hn with hn | hn
      · exact .inl hn
      · rw [List.mem_singleton.mp hn]
        exact .inr (hlisted _ rfl rfl)

end Upsert

section Parts

variable {A : Choice → Prop} {st : Store} {tr : List Event}

/-- The upserts of a manifest, whose keys are distinct. -/
theorem upserts_alone {owner : Int} : ∀ {es : List StatusMonitor} {st : Store} {tr : List Event}
    {ws : List Write}, (es.map (·.seedKey)).Nodup →
      Constrained st.seq (ws.foldl Write.apply st.db) →
      Alone A (fun x s r => x.1.db = st.db ∧ ∀ u, r = .ok u → ∃ ws', s = .open_ ws' ∧
        Constrained x.1.seq (ws'.foldl Write.apply st.db) ∧
        Upserted owner es (ws.foldl Write.apply st.db) (ws'.foldl Write.apply st.db))
        (upsertStatusMonitors owner es) st tr (.open_ ws)
  | [], _, _, ws, _, h => ⟨rfl, fun _ _ => ⟨ws, rfl, h, upserted_refl _ _⟩⟩
  | e :: es, st, tr, ws, hnodup, h => by
      obtain ⟨hfresh, hnodup⟩ := List.nodup_cons.mp hnodup
      refine alone_now fun now => alone_sql (fun seq err => ⟨rfl, fun u hu => (nomatch hu)⟩)
        (fun out hq => (nomatch hq)) fun moment seq out more db hplan hreplay => ?_
      have hconstrained := keeps_constrained _ _ rfl _ _ _ _ _ _ _ hplan hreplay h
      have hone := upserted_one h.keyed.monitors hplan hreplay
      rw [replay_eq_foldl hreplay, ← List.foldl_append] at hconstrained hone
      refine Prog.Post.mono ?_
        (@upserts_alone owner es { st with seq := seq } _ _ hnodup hconstrained)
      rintro x s r ⟨hdb, hok⟩
      refine ⟨hdb, fun u hu => ?_⟩
      obtain ⟨ws', hs, hconstrained', hrest⟩ := hok u hu
      refine ⟨ws', hs, hconstrained', hone.trans hrest fun e' he' f hf hkey => hfresh ?_⟩
      rw [List.mem_singleton.mp he'] at hkey
      exact List.mem_map.mpr ⟨f, hf, hkey.symm⟩

/-! ### The account -/

/-- The account of an email is one that the seed may use, and the tables are as before apart from
it. -/
structure Opened (email : String) (owner : Int) (db db' : Db) : Prop where
  users : ∀ u ∈ db.users, u ∈ db'.users
  account : ∃ u, db'.users.find? (fun u => u.email = email) = some u ∧ u.id = owner ∧
    ownsStatus u = true
  monitors : db'.monitors = db.monitors
  checkResults : db'.checkResults = db.checkResults
  alerts : db'.alerts = db.alerts

theorem opened_alone {ownerEmail : String} {existing : Option User}
    (hexisting : st.db.users.find? (fun u => u.email = ownerEmail) = existing)
    (howns : ∀ u, existing = some u → ownsStatus u = true) (h : Constrained st.seq st.db) :
    Alone A (fun x s r => x.1.db = st.db ∧ ∀ owner, r = .ok owner → ∃ ws, s = .open_ ws ∧
      Constrained x.1.seq (ws.foldl Write.apply st.db) ∧
      Opened ownerEmail owner st.db (ws.foldl Write.apply st.db))
      (statusOwner ownerEmail existing) st tr (.open_ []) := by
  cases existing with
  | some user =>
      refine ⟨rfl, fun owner howner => ⟨[], rfl, h, ?_⟩⟩
      cases howner
      exact ⟨fun u hu => hu, ⟨user, hexisting, rfl, howns user rfl⟩, rfl, rfl, rfl⟩
  | none =>
      refine alone_now fun createdAt => alone_now fun updatedAt => ?_
      refine alone_sql (fun seq e => ⟨rfl, fun id hid => (nomatch hid)⟩)
        (fun out hq => (nomatch hq)) fun moment seq out more db hplan hreplay => ?_
      have hconstrained := keeps_constrained _ _ rfl _ _ _ _ _ _ _ hplan hreplay h
      rw [replay_eq_foldl hreplay] at hconstrained
      refine ⟨rfl, fun owner howner => ⟨more, rfl, hconstrained, ?_⟩⟩
      cases hplan
      cases howner
      have haccount : ∀ u : User, u.email = ownerEmail →
          (st.db.users ++ [u]).find? (fun u => u.email = ownerEmail) = some u := by
        intro u hu
        rw [List.find?_append, hexisting, Option.none_or, List.find?_cons_of_pos]
        exact decide_eq_true hu
      refine ⟨fun u hu => List.mem_append_left _ hu, ⟨_, haccount _ rfl, rfl, ?_⟩, rfl, rfl, rfl⟩
      simp only [ownsStatus, NewUser.row, Bool.not_false, Bool.and_true, decide_true]

end Parts

/-! ### The rows that are hidden -/

/-- The tables after the last statement. -/
def hidden (owner : Int) (es : List StatusMonitor) (db : Db) : Db :=
  { db with monitors := db.monitors.map fun m =>
      if (hiddenRows owner es).matches m then { m with isPublic := false } else m }

/-- The rows are hidden by their ids, which tell them apart. -/
theorem hide_eq {seq : Seq} {owner : Int} {es : List StatusMonitor} {db : Db}
    (h : Constrained seq db) :
    (((db.monitors.filter (hiddenRows owner es).matches).map (·.id)).map Write.hide).foldl
      Write.apply db = hidden owner es db := by
  rw [foldl_hide, hidden]
  congr 1
  refine List.map_congr_left fun m hm => ?_
  have hmem : m.id ∈ (db.monitors.filter (hiddenRows owner es).matches).map (·.id) ↔
      (hiddenRows owner es).matches m = true := by
    constructor
    · intro hid
      obtain ⟨n, hn, heq⟩ := List.mem_map.mp hid
      obtain ⟨hn, hmatches⟩ := List.mem_filter.mp hn
      exact h.eq_of_id hn hm heq ▸ hmatches
    · exact fun hmatches => List.mem_map_of_mem (List.mem_filter.mpr ⟨hm, hmatches⟩)
  exact if_congr hmem rfl rfl

/-- A listed monitor is not hidden, and every other public one is. -/
theorem hiddenRows_matches_iff {owner : Int} {es : List StatusMonitor} {m : Monitor} :
    (hiddenRows owner es).matches m = true ↔ m.isPublic = true ∧ ¬ Listed owner es m := by
  constructor
  · intro h
    have hpublic : m.isPublic = true := (Bool.and_eq_true_iff.mp h).1
    refine ⟨hpublic, ?_⟩
    rintro ⟨huser, e, he, hkey⟩
    rw [hiddenRows, if_neg (List.ne_nil_of_mem he), Hide.matches, hpublic] at h
    simp only [huser, hkey, ne_eq, not_true_eq_false, decide_false, reduceCtorEq, decide_true,
      Bool.and_false, Bool.or_false, Bool.false_or, Bool.true_and, Option.any_some,
      decide_eq_true_eq] at h
    exact h (List.mem_map_of_mem he)
  · rintro ⟨hpublic, hout⟩
    by_contra hmatches
    obtain ⟨huser, key, hkey, hseed⟩ :=
      hiddenRows_matches (Bool.eq_false_iff.mpr hmatches) hpublic
    obtain ⟨e, he, rfl⟩ := List.mem_map.mp hkey
    exact hout ⟨huser, e, he, hseed⟩

/-! ### The seed -/

/-- What the transaction of the seed makes of the tables. -/
structure Seeded (email : String) (es : List StatusMonitor) (db db' : Db) : Prop where
  parts : ∃ owner db₁ db₂ seq, Opened email owner db db₁ ∧ Upserted owner es db₁ db₂ ∧
    Constrained seq db₂ ∧ db' = hidden owner es db₂

theorem publish_seeded {A : Choice → Prop} {st : Store} {tr : List Event} {ownerEmail : String}
    {existing : Option User} {es : List StatusMonitor}
    (hexisting : st.db.users.find? (fun u => u.email = ownerEmail) = existing)
    (howns : ∀ u, existing = some u → ownsStatus u = true) (hnodup : (es.map (·.seedKey)).Nodup)
    (h : Constrained st.seq st.db) :
    Alone A (fun x s r => x.1.db = st.db ∧ ∀ (n : Nat) ws, r = .ok n → s = .open_ ws →
      ∀ db, replay st.db ws = .ok db → Seeded ownerEmail es st.db db)
      (publish ownerEmail existing es) st tr (.open_ []) := by
  unfold publish await
  refine Prog.post_bind.mpr (Prog.Post.mono ?_ (opened_alone hexisting howns h))
  rintro ⟨st₁, tr₁⟩ s r ⟨hdb, hopened⟩
  cases r with
  | error e => exact ⟨hdb, fun n ws hn => (nomatch hn)⟩
  | ok owner =>
      obtain ⟨ws, rfl, hconstrained, hopened⟩ := hopened owner rfl
      rw [← hdb] at hconstrained hopened
      refine Prog.post_bind.mpr (Prog.Post.mono ?_ (upserts_alone hnodup hconstrained))
      rintro ⟨st₂, tr₂⟩ s r ⟨hdb₂, hupserted⟩
      cases r with
      | error e => exact ⟨hdb₂.trans hdb, fun n ws hn => (nomatch hn)⟩
      | ok u =>
          obtain ⟨ws', rfl, hconstrained₂, hupserted⟩ := hupserted u rfl
          refine alone_sql (fun seq e => ⟨hdb₂.trans hdb, fun n ws hn => (nomatch hn)⟩)
            (fun out hq => (nomatch hq)) fun moment seq out more db hplan hreplay => ?_
          cases hplan
          refine ⟨hdb₂.trans hdb, fun n ws'' hn hws db' hdb' => ?_⟩
          cases hws
          rw [replay_eq_foldl hdb', List.foldl_append, ← hdb]
          show Seeded ownerEmail es st₁.db (List.foldl _ _ ((List.map _ (List.filter _
            (List.foldl Write.apply st₂.db ws').monitors)).map Write.hide))
          rw [show st₂.db = st₁.db from hdb₂, hide_eq hconstrained₂]
          exact ⟨owner, _, _, _, hopened, hupserted, hconstrained₂, rfl⟩

/-- A monitor of the account, if there is one, with the key of an entry. -/
def Selected (owner : Option Int) (es : List StatusMonitor) (m : Monitor) : Prop :=
  ∃ id, owner = some id ∧ Listed id es m

/-- The row shows an entry of the manifest. -/
def Shows (owner : Int) (e : StatusMonitor) (m : Monitor) : Prop :=
  m.userId = owner ∧ m.seedKey = some e.seedKey ∧ m.name = e.name ∧ m.target = e.target ∧
    m.frequency = e.frequency.getD 60

/-- The public monitors are those that are selected, each entry has its one row, and nothing is lost
or changed beyond. -/
structure Reconciled (owner : Option Int) (es : List StatusMonitor) (db db' : Db) : Prop where
  isPublic : ∀ m ∈ db'.monitors, m.isPublic = true ↔ Selected owner es m
  rows : ∀ id, owner = some id → ∀ e ∈ es, ∃ m ∈ db'.monitors, Shows id e m ∧
    ∀ n ∈ db'.monitors, n.userId = id → n.seedKey = some e.seedKey → n = m
  users : ∀ u ∈ db.users, u ∈ db'.users
  monitors : ∀ m ∈ db.monitors, ∃ m' ∈ db'.monitors, m'.id = m.id
  checkResults : db'.checkResults = db.checkResults
  alerts : db'.alerts = db.alerts
  kept : ∀ m ∈ db.monitors, ¬ Selected owner es m →
    ({ m with isPublic := false } : Monitor) ∈ db'.monitors
  old : ∀ m ∈ db'.monitors, ¬ Selected owner es m →
    ∃ m₀ ∈ db.monitors, m = { m₀ with isPublic := false }

theorem Carries.shows {owner : Int} {e : StatusMonitor} {m : Monitor} (h : Carries owner e m) :
    Shows owner e m :=
  ⟨h.userId, h.seedKey, (congrArg Monitor.name h.seeded).symm,
    (congrArg Monitor.target h.seeded).symm, (congrArg Monitor.frequency h.seeded).symm⟩

theorem Carries.isPublic {owner : Int} {e : StatusMonitor} {m : Monitor} (h : Carries owner e m) :
    m.isPublic = true :=
  (congrArg Monitor.isPublic h.seeded).symm

theorem private_eq {m : Monitor} (h : m.isPublic = false) :
    ({ m with isPublic := false } : Monitor) = m := by
  rw [← h]

/-- A row that is hidden, or public without being listed, is as it was but for that. -/
theorem mem_hidden {owner : Int} {es : List StatusMonitor} {db : Db} {m : Monitor}
    (hm : m ∈ db.monitors) (hout : ¬ Listed owner es m) :
    ({ m with isPublic := false } : Monitor) ∈ (hidden owner es db).monitors := by
  refine List.mem_map.mpr ⟨m, hm, ?_⟩
  cases hpublic : m.isPublic with
  | true => exact if_pos (hiddenRows_matches_iff.mpr ⟨hpublic, hout⟩)
  | false =>
      rw [private_eq hpublic]
      exact if_neg fun h =>
        Bool.false_ne_true (hpublic.symm.trans (hiddenRows_matches_iff.mp h).1)

/-- A listed row is not hidden. -/
theorem mem_hidden_listed {owner : Int} {es : List StatusMonitor} {db : Db} {m : Monitor}
    (hm : m ∈ db.monitors) (hlisted : Listed owner es m) : m ∈ (hidden owner es db).monitors :=
  List.mem_map.mpr ⟨m, hm, if_neg fun h => (hiddenRows_matches_iff.mp h).2 hlisted⟩

theorem of_mem_hidden {owner : Int} {es : List StatusMonitor} {db : Db} {m : Monitor}
    (hm : m ∈ (hidden owner es db).monitors) : (Listed owner es m ∧ m ∈ db.monitors) ∨
      ¬ Listed owner es m ∧ ∃ m₀ ∈ db.monitors, m = { m₀ with isPublic := false } := by
  obtain ⟨m₀, hm₀, rfl⟩ := List.mem_map.mp hm
  by_cases hlisted : Listed owner es m₀
  · rw [if_neg fun h => (hiddenRows_matches_iff.mp h).2 hlisted]
    exact .inl ⟨hlisted, hm₀⟩
  · cases hpublic : m₀.isPublic with
    | true =>
        rw [if_pos (hiddenRows_matches_iff.mpr ⟨hpublic, hlisted⟩)]
        exact .inr ⟨hlisted, m₀, hm₀, rfl⟩
    | false =>
        rw [if_neg fun h =>
          Bool.false_ne_true (hpublic.symm.trans (hiddenRows_matches_iff.mp h).1)]
        exact .inr ⟨hlisted, m₀, hm₀, (private_eq hpublic).symm⟩

/-- What is hidden in the end keeps accounts and numbers. -/
theorem constrained_hidden {seq : Seq} {owner : Int} {es : List StatusMonitor} {db : Db}
    (h : Constrained seq db) : Constrained seq (hidden owner es db) := by
  have hreplay : ∀ (ids : List Int) (db : Db), replay db (ids.map Write.hide) =
      .ok ((ids.map Write.hide).foldl Write.apply db) := by
    intro ids
    induction ids with
    | nil => exact fun db => rfl
    | cons id ids ih => exact fun db => ih _
  rw [← hide_eq h]
  exact keeps_constrained (.sql (.updateManyHide (hiddenRows owner es))) _ rfl ⟨0, []⟩ _ _ _ _ _ _
    rfl (hreplay _ _) h

/-- A row that is listed is the one that the upsert left. -/
theorem Upserted.carries {seq : Seq} {owner : Int} {es : List StatusMonitor} {db db' : Db}
    (h : Upserted owner es db db') (hconstrained : Constrained seq db') {m : Monitor}
    (hm : m ∈ db'.monitors) {e : StatusMonitor} (he : e ∈ es) (huser : m.userId = owner)
    (hkey : m.seedKey = some e.seedKey) : Carries owner e m := by
  obtain ⟨n, hn, hcarries⟩ := h.rows e he
  obtain rfl := hconstrained.eq_of_seedKey hm hn (huser.trans hcarries.userId.symm) hkey
    hcarries.seedKey
  exact hcarries

theorem selected_some {owner : Int} {es : List StatusMonitor} {m : Monitor} :
    Selected (some owner) es m ↔ Listed owner es m :=
  ⟨fun ⟨_, hid, h⟩ => Option.some.inj hid ▸ h, fun h => ⟨owner, rfl, h⟩⟩

/-- The three parts of the seed together. -/
theorem reconciled_of_parts {seq : Seq} {email : String} {owner : Int} {es : List StatusMonitor}
    {db db₁ db₂ : Db} (hopened : Opened email owner db db₁) (hupserted : Upserted owner es db₁ db₂)
    (hconstrained : Constrained seq db₂) :
    Reconciled (some owner) es db (hidden owner es db₂) where
  isPublic m hm := by
    rw [selected_some]
    rcases of_mem_hidden hm with ⟨hlisted, hm⟩ | ⟨hout, m₀, -, rfl⟩
    · obtain ⟨huser, e, he, hkey⟩ := hlisted
      exact iff_of_true (hupserted.carries hconstrained hm he huser hkey).isPublic
        ⟨huser, e, he, hkey⟩
    · exact iff_of_false Bool.false_ne_true hout
  rows id hid e he := by
    obtain rfl := Option.some.inj hid
    obtain ⟨m, hm, hcarries⟩ := hupserted.rows e he
    have hmem := mem_hidden_listed hm ⟨hcarries.userId, e, he, hcarries.seedKey⟩
    refine ⟨m, hmem, hcarries.shows, fun n hn huser hkey => ?_⟩
    exact (constrained_hidden hconstrained).eq_of_seedKey hn hmem
      (huser.trans hcarries.userId.symm) hkey hcarries.seedKey
  users u hu := by
    show u ∈ db₂.users
    rw [hupserted.users]
    exact hopened.users u hu
  monitors m hm := by
    obtain ⟨m₂, hm₂, hid⟩ := hupserted.ids m (hopened.monitors ▸ hm)
    by_cases hlisted : Listed owner es m₂
    · exact ⟨m₂, mem_hidden_listed hm₂ hlisted, hid⟩
    · exact ⟨_, mem_hidden hm₂ hlisted, hid⟩
  checkResults := hupserted.checkResults.trans hopened.checkResults
  alerts := hupserted.alerts.trans hopened.alerts
  kept m hm hout := by
    rw [selected_some] at hout
    exact mem_hidden (hupserted.kept m (hopened.monitors ▸ hm) hout) hout
  old m hm hout := by
    rw [selected_some] at hout
    rcases of_mem_hidden hm with ⟨hlisted, -⟩ | ⟨-, m₀, hm₀, rfl⟩
    · exact absurd hlisted hout
    · rcases hupserted.old m₀ hm₀ with hm₀ | hlisted
      · exact ⟨m₀, hopened.monitors ▸ hm₀, rfl⟩
      · exact absurd hlisted hout

/-- With no owner every public row is hidden. -/
theorem reconciled_none {seq : Seq} {db : Db} {es : List StatusMonitor} (h : Constrained seq db) :
    Reconciled none es db ((((db.monitors.filter Hide.all.matches).map (·.id)).map Write.hide).foldl
      Write.apply db) := by
  have hnone : ∀ m, ¬ Selected none es m := fun m ⟨_, hid, _⟩ => (nomatch hid)
  -- what is hidden does not depend on the owner when no entry is listed
  have heq : ((db.monitors.filter Hide.all.matches).map (·.id)).map Write.hide =
      ((db.monitors.filter (hiddenRows 0 []).matches).map (·.id)).map Write.hide := rfl
  have hout : ∀ m, ¬ Listed 0 [] m := fun m ⟨_, _, he, _⟩ => List.not_mem_nil he
  rw [heq, hide_eq h]
  have hall : ∀ m ∈ (hidden 0 [] db).monitors,
      ∃ m₀ ∈ db.monitors, m = ({ m₀ with isPublic := false } : Monitor) := fun m hm =>
    (of_mem_hidden hm).elim (fun h => absurd h.1 (hout m)) (·.2)
  refine ⟨fun m hm => ?_, fun id hid => (nomatch hid), fun u hu => hu, fun m hm => ?_, rfl, rfl,
    fun m hm _ => mem_hidden hm (hout m), fun m hm _ => hall m hm⟩
  · obtain ⟨m₀, -, rfl⟩ := hall m hm
    exact iff_of_false Bool.false_ne_true (hnone _)
  · exact ⟨_, mem_hidden hm (hout m), rfl⟩

/-! ### A seed with nothing to do -/

theorem onMonitor_same {db : Db} {id : Int} {f : Monitor → Monitor}
    (h : ∀ m ∈ db.monitors, m.id = id → f m = m) : db.onMonitor id f = db := by
  have hsame : db.monitors.map (fun m => if m.id = id then f m else m) = db.monitors := by
    refine (List.map_congr_left fun m hm => ?_).trans (List.map_id _)
    split
    · exact h m hm ‹_›
    · rfl
  rw [Db.onMonitor, hsame]

/-- The account may be used, every entry has its row, and nothing is left to hide. -/
structure Settled (email : String) (es : List StatusMonitor) (db : Db) : Prop where
  constrained : ∃ seq, Constrained seq db
  account : ∃ u, db.users.find? (fun u => u.email = email) = some u ∧ ownsStatus u = true ∧
    (∀ e ∈ es, ∃ m ∈ db.monitors, Carries u.id e m) ∧
      ∀ m ∈ db.monitors, (hiddenRows u.id es).matches m = false

theorem keeps_hide {db : Db} {rows : Hide} (h : ∀ m ∈ db.monitors, rows.matches m = false) :
    (Op.sql (.updateManyHide rows)).Keeps fun _ d => d = db := by
  refine Op.keeps_sql fun moment a d b out ws d' hplan hreplay hd => ?_
  subst hd
  cases hplan
  have hnone : d.monitors.filter rows.matches = [] :=
    List.filter_eq_nil_iff.mpr fun m hm hmatches => absurd hmatches (by rw [h m hm]; decide)
  rw [hnone] at hreplay
  cases hreplay
  rfl

/-- A row that has the columns of its entry is left as it is. -/
theorem keeps_upsert {seq : Seq} {db : Db} {owner : Int} {e : StatusMonitor} {now : Time}
    (h : Constrained seq db) (hrow : ∃ m ∈ db.monitors, Carries owner e m) :
    (Op.sql (.upsertMonitor owner e.seedKey e.values now)).Keeps fun _ d => d = db := by
  refine Op.keeps_sql fun moment a d b out ws d' hplan hreplay hd => ?_
  subst hd
  obtain ⟨m, hm, hcarries⟩ := hrow
  simp only [Sql.plan] at hplan
  split at hplan
  · rename_i n hfind
    cases hplan
    cases (replay_cons.mp hreplay).2
    have hn := List.mem_of_find?_eq_some hfind
    have hown : n.userId = owner ∧ n.seedKey = some e.seedKey := by
      simpa using List.find?_some hfind
    obtain rfl := h.eq_of_seedKey hm hn (hcarries.userId.trans hown.1.symm) hcarries.seedKey hown.2
    refine onMonitor_same fun n hn hid => ?_
    obtain rfl := h.eq_of_id hn hm hid
    exact hcarries.seeded
  · rename_i hfind
    exact absurd (by simp [hcarries.userId, hcarries.seedKey]) (List.find?_eq_none.mp hfind m hm)

/-- What keeps the tables as they are, alone. -/
theorem alone_unchanged {α : Type} {A : Choice → Prop} {p : Client α} {st : Store} {tr : List Event}
    (hp : p.Only fun o => o.Keeps fun _ d => d = st.db) :
    Alone A (fun x _ _ => x.1.db = st.db) p st tr .idle := by
  refine Prog.Post.mono (fun x s r htracks => htracks.committed) (Prog.Only.post
    (I := fun x s => Tracks (fun _ d => d = st.db) x.1 s) ?_ hp ⟨rfl, fun ws hws => (nomatch hws)⟩)
  exact fun choice x s o _ ho htracks =>
    handle_tracks (fun _ _ _ h _ => h) choice x.1 s o ho htracks

theorem keeps_outside {o : Op} {db : Db} (ho : ∀ q, o ≠ .sql q) : o.Keeps fun _ d => d = db :=
  Op.keeps_of_not_sql ho

theorem only_unchanged_transaction {body : Client (Except ApiError Nat)} {db : Db}
    (hbody : body.Only fun o => o.Keeps fun _ d => d = db) :
    (transaction body).Only fun o => o.Keeps fun _ d => d = db :=
  only_transaction (keeps_outside fun _ h => (nomatch h)) (keeps_outside fun _ h => (nomatch h))
    (keeps_outside fun _ h => (nomatch h)) hbody

theorem seedOwner_settled {A : Choice → Prop} {email : String} {es : List StatusMonitor}
    {st : Store} (tr : List Event) (h : Settled email es st.db) :
    Alone A (fun x _ _ => x.1.db = st.db) (seedOwner email es) st tr .idle := by
  obtain ⟨⟨seq₀, hconstrained⟩, u, hfind, howns, hrows, hhidden⟩ := h
  refine alone_sql_idle (fun seq e => rfl) (fun out hq => (nomatch hq))
    (fun moment seq existing writes db hplan hreplay => ?_)
    fun hloses moment seq existing writes db e hplan hreplay => ?_
  · cases hplan
    cases hreplay
    show Alone A _ (if (st.db.users.find? fun u => u.email = email).any _ then _ else _) _ _ _
    rw [hfind, if_neg (by simp [howns])]
    refine Prog.post_bind.mpr (Prog.Post.mono (Q := fun (x : Store × _) _ _ => x.1.db = st.db)
      (fun x s r hdb => hdb) ?_)
    have hpublish : publish email (some u) es = await (upsertStatusMonitors u.id es) fun _ =>
        query (.updateManyHide (hiddenRows u.id es)) fun count => return .ok count := rfl
    rw [hpublish]
    refine @alone_unchanged _ _ _ (({ st with seq := st.seq } : Store).commit st.db []) _
      (only_unchanged_transaction (only_await ?_ fun _ => ?_))
    · exact upsertStatusMonitors_only (keeps_outside fun _ h => (nomatch h)) fun e he now =>
        keeps_upsert hconstrained (hrows e he)
    · exact only_query (keeps_hide hhidden) fun _ => Prog.only_ret
  · cases hplan
    cases hreplay
    rfl

/-! ### From any state -/

/-- What the transaction leaves is reconciled, and settled. -/
theorem Seeded.reconciled {email : String} {es : List StatusMonitor} {db db' : Db}
    (h : Seeded email es db db') : ∃ u, db'.users.find? (fun u => u.email = email) = some u ∧
      Reconciled (some u.id) es db db' ∧ Settled email es db' := by
  obtain ⟨owner, db₁, db₂, seq, hopened, hupserted, hconstrained, rfl⟩ := h.parts
  obtain ⟨u, hfind, rfl, howns⟩ := hopened.account
  have hfind' : (hidden u.id es db₂).users.find? (fun u => u.email = email) = some u := by
    show db₂.users.find? _ = _
    rw [hupserted.users, hfind]
  have hreconciled := reconciled_of_parts hopened hupserted hconstrained
  refine ⟨u, hfind', hreconciled, ⟨seq, constrained_hidden hconstrained⟩, u, hfind', howns,
    fun e he => ?_, fun m hm => ?_⟩
  · obtain ⟨m, hm, hcarries⟩ := hupserted.rows e he
    exact ⟨m, mem_hidden_listed hm ⟨hcarries.userId, e, he, hcarries.seedKey⟩, hcarries⟩
  · refine Bool.eq_false_iff.mpr fun hmatches => ?_
    obtain ⟨hpublic, hout⟩ := hiddenRows_matches_iff.mp hmatches
    exact hout (selected_some.mp ((hreconciled.isPublic m hm).mp hpublic))

/-- The entries that are read are the items of the manifest, and no two have the same key. -/
theorem readStatusManifest_spec {rt : Runtime} : ∀ {manifest : List Json}
    {seedKeys : List String} {ms : List StatusMonitor},
    readStatusManifest rt seedKeys manifest = .ok ms →
      manifest.map (StatusMonitor.ofJson rt) = ms.map some ∧ (ms.map (·.seedKey)).Nodup ∧
        ∀ m ∈ ms, m.seedKey ∉ seedKeys
  | [], _, _, h => by
      cases h
      exact ⟨rfl, List.nodup_nil, fun m hm => absurd hm List.not_mem_nil⟩
  | monitor :: manifest, seedKeys, ms, h => by
      unfold readStatusManifest at h
      split at h
      · cases h
      · rename_i m hm
        split at h
        · cases h
        · rename_i hfresh
          obtain ⟨rest, hrest, rfl⟩ := map_eq_ok h
          obtain ⟨hread, hnodup, hkeys⟩ := readStatusManifest_spec hrest
          refine ⟨by rw [List.map_cons, List.map_cons, hm, hread],
            List.nodup_cons.mpr ⟨fun hmem => ?_, hnodup⟩, fun n hn => ?_⟩
          · obtain ⟨n, hn, hkey⟩ := List.mem_map.mp hmem
            exact hkeys n hn (hkey ▸ List.mem_cons_self)
          · rcases List.mem_cons.mp hn with rfl | hn
            · exact hfresh
            · exact fun hkey => hkeys n hn (List.mem_cons_of_mem _ hkey)

/-- What is accepted is read off the manifest. -/
theorem accept_entries {rt : Runtime} {manifest : Json} {ownerEmail : Option String}
    {es : List StatusMonitor} (h : StatusSeed.accept rt manifest = .ok (ownerEmail, es)) :
    ∃ items, manifest = .arr items ∧ items.map (StatusMonitor.ofJson rt) = es.map some ∧
      (es.map (·.seedKey)).Nodup := by
  unfold StatusSeed.accept at h
  split at h
  · rename_i items
    split at h
    · cases h
    · rename_i ms hms
      obtain ⟨hread, hnodup, -⟩ := readStatusManifest_spec hms
      have hes : ms = es := by
        split at h
        · cases h
          rfl
        · split at h
          · cases h
          · split at h
            · cases h
            · cases h
              rfl
      subst hes
      exact ⟨items, rfl, hread, hnodup⟩
  · cases h

/-- The seed leaves tables that show the manifest, and that it would leave as they are. -/
structure SeedDone (rt : Runtime) (manifest : Json) (db db' : Db) : Prop where
  account : (statusAccount rt db').isSome = (statusOwnerEmail rt).isSome
  entries : ∃ items es, manifest = .arr items ∧
    items.map (StatusMonitor.ofJson rt) = es.map some ∧
      Reconciled (statusAccount rt db') es db db'
  rests : ∀ A st tr, st.db = db' →
    Alone A (fun x _ _ => x.1.db = db') (StatusSeed.seed rt manifest) st tr .idle

/-- What a seed of any kind comes to, from some tables. -/
def Finishes (A : Choice → Prop) (rt : Runtime) (manifest : Json) (db : Db)
    (x : Store × List Event) (_ : Session) (r : Except ApiError Nat) : Prop :=
  (∀ e, r = .error e → x.1.db = db ∨ Loses A) ∧
    ∀ n, r = .ok n → SeedDone rt manifest db x.1.db

section Seed

variable {A : Choice → Prop} {rt : Runtime} {manifest : Json} {es : List StatusMonitor}
  {st : Store}

/-- With no owner configured, the seed hides every public row. -/
theorem seed_hides (haccept : StatusSeed.accept rt manifest = .ok (none, es)) (tr : List Event)
    (h : Constrained st.seq st.db) :
    Alone A (Finishes A rt manifest st.db) (StatusSeed.seed rt manifest) st tr .idle := by
  have hseed : StatusSeed.seed rt manifest =
      transaction (query (.updateManyHide .all) fun count => return .ok count) := by
    rw [StatusSeed.seed, haccept]
  have haccount : ∀ db, statusAccount rt db = none := fun db => by
    rw [statusAccount, (StatusSeed.accept_ok haccept).1]
    rfl
  obtain ⟨items, rfl, hread, -⟩ := accept_entries haccept
  rw [hseed]
  refine Prog.Post.mono ?_ (alone_transaction (R := fun db _ =>
    Reconciled none es st.db db) fun tr => ?_)
  · rintro ⟨st', tr'⟩ s r ⟨-, herr, hok⟩
    refine ⟨fun e he => (herr e he).imp_right And.left, fun n hn => ?_⟩
    have hreconciled := hok n hn
    refine ⟨by rw [haccount, (StatusSeed.accept_ok haccept).1, Option.isSome_none,
      Option.isSome_none],
      ⟨items, es, rfl, hread, (haccount _).symm ▸ hreconciled⟩, fun A' st₂ tr₂ hdb => ?_⟩
    rw [hseed, ← hdb]
    refine alone_unchanged (only_unchanged_transaction (only_query (keeps_hide fun m hm => ?_)
      fun _ => Prog.only_ret))
    have hprivate : m.isPublic = false := Bool.eq_false_iff.mpr fun hpublic => by
      obtain ⟨_, hid, -⟩ := (hreconciled.isPublic m (hdb ▸ hm)).mp hpublic
      cases hid
    rw [Hide.matches, hprivate, Bool.false_and]
  · refine alone_sql (fun seq e => ⟨rfl, fun n ws hn => by cases hn⟩)
      (fun out hq => by cases hq) fun moment seq out more db hplan hreplay => ?_
    cases hplan
    refine ⟨rfl, fun n ws hn hws db' hdb' => ?_⟩
    cases hws
    rw [replay_eq_foldl hdb']
    exact reconciled_none h

/-- With an owner configured, the seed publishes the manifest. -/
theorem seed_publishes {email : String}
    (haccept : StatusSeed.accept rt manifest = .ok (some email, es)) (tr : List Event)
    (h : Constrained st.seq st.db) :
    Alone A (Finishes A rt manifest st.db) (StatusSeed.seed rt manifest) st tr .idle := by
  have hseed : StatusSeed.seed rt manifest = seedOwner email es := by
    rw [StatusSeed.seed, haccept]
  have howner := (StatusSeed.accept_ok haccept).1
  obtain ⟨items, rfl, hread, hnodup⟩ := accept_entries haccept
  have hdone : ∀ db', Seeded email es st.db db' → SeedDone rt (.arr items) st.db db' := by
    intro db' hseeded
    obtain ⟨u, hfind, hreconciled, hsettled⟩ := hseeded.reconciled
    have haccount : statusAccount rt db' = some u.id := by
      rw [statusAccount, howner, Option.bind_some, hfind, Option.map_some]
    refine ⟨by rw [haccount, howner, Option.isSome_some, Option.isSome_some],
      ⟨items, es, rfl, hread, haccount.symm ▸ hreconciled⟩, fun A' st₂ tr₂ hdb => ?_⟩
    rw [hseed, ← hdb]
    exact seedOwner_settled tr₂ (hdb.symm ▸ hsettled)
  rw [hseed]
  refine alone_sql_idle (fun seq e => ⟨fun _ _ => .inl rfl, fun n hn => by cases hn⟩)
    (fun out hq => by cases hq) (fun moment seq existing writes db hplan hreplay => ?_)
    fun hloses moment seq existing writes db e hplan hreplay =>
      ⟨fun _ _ => .inr hloses, fun n hn => by cases hn⟩
  cases hplan
  cases hreplay
  show Alone A _ (if _ then _ else _) _ _ _
  split
  · exact ⟨fun _ _ => .inl rfl, fun n hn => by cases hn⟩
  · rename_i howns
    have howns : ∀ u, st.db.users.find? (fun u => u.email = email) = some u →
        ownsStatus u = true := by
      intro u hu
      rw [hu] at howns
      simpa using howns
    refine Prog.post_bind.mpr (Prog.Post.mono ?_ (alone_transaction fun tr =>
      publish_seeded rfl howns hnodup h))
    rintro ⟨st', tr'⟩ s r ⟨-, herr, hok⟩
    refine ⟨fun e he => ?_, fun n hn => ?_⟩
    · cases r with
      | error e' => exact (herr e' rfl).imp_right And.left
      | ok n => cases he
    · cases r with
      | error e' => cases hn
      | ok n' => exact hdone _ (hok n' rfl)

theorem seed_finishes (tr : List Event) (h : Constrained st.seq st.db) :
    Alone A (Finishes A rt manifest st.db) (StatusSeed.seed rt manifest) st tr .idle := by
  cases haccept : StatusSeed.accept rt manifest with
  | error e =>
      rw [StatusSeed.seed, haccept]
      exact ⟨fun _ _ => .inl rfl, fun n hn => (nomatch hn)⟩
  | ok accepted =>
      obtain ⟨ownerEmail, es⟩ := accepted
      cases ownerEmail with
      | none => exact seed_hides haccept tr h
      | some email => exact seed_publishes haccept tr h

end Seed

/-- **The status seed reconciles exactly, and as a whole.** From every state of the tables whose
keys are in order, whatever fails, if replies are not lost: a seed that throws leaves the tables as
they were. After one that succeeds, the owner's account is there if one is configured, a monitor is
public if and only if it belongs to that account and has a key of the manifest, each entry has one
row there with what the manifest says, no row is lost, every other monitor is as it was but private,
and any later run of the same seed leaves the tables as they are. -/
theorem statusSeed_reconciles (rt : Runtime) (manifest : Json) (st : Store)
    (choices : Nat → Choice) (hst : Constrained st.seq st.db)
    (hreplies : ∀ n, (choices n).Replies) :
    let seed := Operation.statusSeed rt manifest
    let r := seed.run choices st
    (r.2 = false → r.1.db = st.db) ∧
    (r.2 = true →
      (statusAccount rt r.1.db).isSome = (statusOwnerEmail rt).isSome ∧
      (∃ items es, manifest = .arr items ∧ items.map (StatusMonitor.ofJson rt) = es.map some ∧
        Reconciled (statusAccount rt r.1.db) es st.db r.1.db) ∧
      ∀ choices', (seed.run choices' r.1).1.db = r.1.db) := by
  have hprogram : ∀ {A : Choice → Prop} {Q : Db → Bool → Prop} {st : Store} {tr : List Event},
      Alone A (fun x _ r => Q x.1.db r.isOk) (StatusSeed.seed rt manifest) st tr .idle →
        Alone A (fun x _ b => Q x.1.db b) (Operation.statusSeed rt manifest).program st tr .idle :=
    fun h => Prog.post_bind.mpr h
  have hfirst : Alone Choice.Replies (fun x _ b => (b = false → x.1.db = st.db) ∧
      (b = true → SeedDone rt manifest st.db x.1.db))
      (Operation.statusSeed rt manifest).program st [] .idle := by
    refine hprogram (Q := fun db b => (b = false → db = st.db) ∧
      (b = true → SeedDone rt manifest st.db db))
      (Prog.Post.mono ?_ (seed_finishes [] hst))
    rintro x s r ⟨herr, hok⟩
    cases r with
    | error e =>
        exact ⟨fun _ => (herr e rfl).resolve_right not_loses_replies, fun h => (nomatch h)⟩
    | ok n => exact ⟨fun h => (nomatch h), fun _ => hok n rfl⟩
  obtain ⟨hthrown, hdone⟩ := hfirst.run hreplies
  refine ⟨hthrown, fun hok => ?_⟩
  obtain ⟨haccount, hentries, hrests⟩ := hdone hok
  refine ⟨haccount, hentries, fun choices' => ?_⟩
  have hagain := hprogram (Q := fun db _ => db = _) (hrests (fun _ => True) _ [] rfl)
  exact hagain.run fun _ => trivial

/-- A monitor that an account of before has published. -/
def formerStore : Store :=
  ⟨⟨[⟨1, "Old", "Owner", "old", "old@example.com", "", 0, 0, none, false, false⟩],
    [⟨1, "Old", "https://example.org", 60, "Active", 0, "http", some "{}", none, none, 0, 1,
      some "site", true⟩], [], []⟩, ⟨2, 2, 1, 1⟩, []⟩

/-- The seed of one entry for another account. -/
theorem statusSeed_reconciles_former :
    let r := (Operation.statusSeed statusRuntime statusManifest).run
      (fun _ => Choice.calm 0 (.error "")) formerStore
    r.2 = true ∧ r.1.db.monitors.map (fun m => (m.userId, m.isPublic)) = [(1, false), (2, true)] ∧
      ∃ items es, statusManifest = .arr items ∧
        items.map (StatusMonitor.ofJson statusRuntime) = es.map some ∧
          Reconciled (statusAccount statusRuntime r.1.db) es formerStore.db r.1.db := by
  have hkeyed : Constrained formerStore.seq formerStore.db := by
    refine ⟨⟨by decide, by decide, by decide, by decide, by decide⟩, ?_⟩
    intro m hm n hn _ _ _
    rw [List.mem_singleton.mp hm, List.mem_singleton.mp hn]
  have hok : ((Operation.statusSeed statusRuntime statusManifest).run
      (fun _ => Choice.calm 0 (.error "")) formerStore).2 = true := by decide +kernel
  refine ⟨hok, by decide +kernel, ?_⟩
  exact ((statusSeed_reconciles statusRuntime statusManifest formerStore
    (fun _ => Choice.calm 0 (.error "")) hkeyed fun _ => Choice.calm_replies 0 _).2 hok).2.1

end Sentinel.System
