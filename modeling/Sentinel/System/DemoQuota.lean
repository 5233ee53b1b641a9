import Mathlib.Data.List.Dedup
import Sentinel.Api.Quota
import Sentinel.System.Operations
import Sentinel.Worker.Manifest

/-!
# System — DemoQuota

The demo account over requests, seeds and resets that do not overlap. Only `createMonitor` counts
the monitors of the account against `DEMO_MAX_MONITORS`: a seed adds what is missing of the
manifest and leaves the rest, and a reset replaces everything by the manifest.

* `missing`: the keys of the manifest that no monitor of the account has.
* `Fits`: a seed finds room for what is missing.
* `demo_quota_run`: the limit holds in every run whose seeds fit.
-/

namespace Sentinel.System

open Program Database Api Worker Transition

/-! ### One request -/

/-- A create request on its own: nothing is inserted, or one monitor under the limit. -/
theorem createMonitor_alone (A : Choice → Prop) (rt : Runtime) (dto : CreateMonitorDto)
    (user : Requester) (st : Store) (tr : List Event) :
    Alone A (fun x _ _ => x.1.db = st.db ∨
      (Number.finite (owned user.id st.db)).ge (maxMonitors rt user) = false ∧
        ∃ row : Monitor, row.userId = user.id ∧
          x.1.db = (Write.insertMonitor row).apply st.db)
      (createMonitor rt dto user) st tr .idle := by
  unfold createMonitor
  split
  · exact .inl rfl
  · split
    · exact .inl rfl
    · refine alone_sql_idle (fun seq e => .inl rfl) (fun out hq => (nomatch hq)) ?_ ?_
      · intro moment seq out ws db hplan hreplay
        cases hplan
        cases hreplay
        show Alone A _ (insertWithinLimit rt dto user (owned user.id st.db)) _ _ _
        unfold insertWithinLimit
        split
        · exact .inl rfl
        · rename_i hlimit
          refine alone_now fun now => ?_
          refine alone_sql_idle (fun seq e => .inl rfl) (fun out hq => (nomatch hq)) ?_ ?_
          · intro moment seq out ws db hplan hreplay
            cases hplan
            cases (replay_cons.mp hreplay).2
            exact .inr ⟨eq_false_of_ne_true hlimit, _, rfl, rfl⟩
          · intro _ moment seq out ws db e hplan hreplay
            cases hplan
            cases (replay_cons.mp hreplay).2
            exact .inr ⟨eq_false_of_ne_true hlimit, _, rfl, rfl⟩
      · intro _ moment seq out ws db e hplan hreplay
        cases hplan
        cases hreplay
        exact .inl rfl

theorem owned_insertMonitor_other {row : Monitor} {id : Int} (h : row.userId ≠ id) (db : Db) :
    owned id ((Write.insertMonitor row).apply db) = owned id db := by
  simp [owned, Db.ownedBy, Write.apply, h]

/-! ### A reset -/

/-- The monitors of one account are replaced by `n` at most, and those of the others left. -/
structure Replaced (userId : Int) (n : Nat) (before after : Db) : Prop where
  users : after.users = before.users
  own : owned userId after ≤ n
  others : ∀ id, id ≠ userId → owned id after ≤ owned id before

theorem mem_deleted {m : Monitor} : ∀ {ids : List Int} {db : Db},
    m ∈ ((ids.map Write.deleteMonitor).foldl Write.apply db).monitors → m ∈ db.monitors ∧ m.id ∉ ids
  | [], db, h => ⟨h, fun h => (nomatch h)⟩
  | id :: ids, db, h => by
      have hrest : m ∈ ((ids.map Write.deleteMonitor).foldl Write.apply
          ((Write.deleteMonitor id).apply db)).monitors := h
      obtain ⟨hm, hids⟩ := mem_deleted hrest
      obtain ⟨hm, hid⟩ := List.mem_filter.mp hm
      exact ⟨hm, List.not_mem_cons_of_ne_of_not_mem (of_decide_eq_true hid) hids⟩

/-- After all of an account's monitors are deleted it has none. -/
theorem owned_deleted (userId : Int) (db : Db) :
    owned userId (((db.ownedBy userId).map Write.deleteMonitor).foldl Write.apply db) = 0 := by
  simp only [owned, Db.ownedBy, List.length_map, List.length_eq_zero_iff, List.filter_eq_nil_iff,
    decide_eq_true_eq]
  intro m hm huser
  obtain ⟨hm, hid⟩ := mem_deleted hm
  exact hid (List.mem_map_of_mem (List.mem_filter.mpr ⟨hm, decide_eq_true huser⟩))

section Reset

variable {A : Choice → Prop} {userId : Int} {before : Db}

/-- What the transaction of a reset comes to. -/
abbrev Resets (A : Choice → Prop) (userId : Int) (n : Nat) (before : Db) {α : Type} (p : Client α)
    (st : Store) (tr : List Event) (s : Session) : Prop :=
  Alone A (fun x _ _ => x.1.db = before ∨ Replaced userId n before x.1.db) p st tr s

theorem restore_alone : ∀ {monitors : List DemoMonitor} {n : Nat} {st : Store} {tr : List Event}
    {ws : List Write}, st.db = before → Replaced userId n before (ws.foldl Write.apply st.db) →
      Resets A userId (n + monitors.length) before (restore userId monitors) st tr (.open_ ws)
  | [], n, st, tr, ws, hdb, h => by
      have hdone : ∀ db, replay st.db ws = .ok db → Replaced userId n before db := by
        intro db hreplay
        rw [replay_eq_foldl hreplay]
        exact h
      refine alone_commit (fun e => .inl hdb) (fun db hreplay => ?_) fun _ e db hreplay => ?_
      · exact .inr (hdone db hreplay)
      · exact .inr (hdone db hreplay)
  | m :: monitors, n, st, tr, ws, hdb, h => by
      refine alone_sql (fun seq e => .inl hdb) (fun out hq => (nomatch hq)) ?_
      intro moment seq out more db hplan hreplay
      cases hplan
      rw [List.length_cons, Nat.add_comm monitors.length 1, ← Nat.add_assoc]
      refine restore_alone (show Store.db { st with seq := _ } = before from hdb) ?_
      rw [List.foldl_append]
      constructor
      · exact h.users
      · exact Nat.le_trans (Quota.owned_insertMonitor userId _ _) (Nat.succ_le_succ h.own)
      · intro id hid
        refine Nat.le_trans (Nat.le_of_eq ?_) (h.others id hid)
        exact owned_insertMonitor_other (Ne.symm hid) _

/-- Changes that leave the accounts and add no monitor. -/
def Shrinks (w : Write) : Prop :=
  (∀ db, (w.apply db).users = db.users) ∧ ∀ id, Quota.Keeps id w

/-- Nothing but such changes has been made. -/
structure Shrunk (before after : Db) : Prop where
  users : after.users = before.users
  owned : ∀ id, owned id after ≤ owned id before

theorem Shrunk.append {q : Sql} {moment : Moment} {a b : Seq} {st : Store} {out : q.Out}
    {ws more : List Write} (h : Shrunk before (ws.foldl Write.apply st.db))
    (hplan : q.plan moment a (ws.foldl Write.apply st.db) = (b, .ok (out, more)))
    (hq : ∀ w, q.Makes w → Shrinks w) : Shrunk before ((ws ++ more).foldl Write.apply st.db) := by
  have hmore := Sql.plan_makes hplan
  rw [List.foldl_append]
  clear hplan
  generalize ws.foldl Write.apply st.db = db at h
  induction more generalizing db with
  | nil => exact h
  | cons w more ih =>
      obtain ⟨hw, hmore⟩ := List.forall_mem_cons.mp hmore
      obtain ⟨husers, howned⟩ := hq w hw
      exact ih hmore _ ⟨(husers db).trans h.users,
        fun id => Nat.le_trans (howned id db) (h.owned id)⟩

theorem replaceOwned_alone {monitors : List DemoMonitor} {st : Store} {tr : List Event} :
    Resets A userId monitors.length st.db (replaceOwned userId monitors) st tr (.open_ []) := by
  refine alone_sql (fun seq e => .inl rfl) (fun out hq => (nomatch hq)) ?_
  intro moment seq out results db hplan hreplay
  have h₁ : Shrunk st.db (([] ++ results).foldl Write.apply st.db) :=
    Shrunk.append ⟨rfl, fun _ => Nat.le_refl _⟩ hplan fun w hw => by
      cases hw
      exact ⟨fun _ => rfl, fun _ _ => Nat.le_refl _⟩
  refine alone_sql (fun seq e => .inl rfl) (fun out hq => (nomatch hq)) ?_
  intro moment seq out alerts db hplan hreplay
  have h₂ : Shrunk st.db (([] ++ results ++ alerts).foldl Write.apply st.db) :=
    h₁.append hplan fun w hw => by
      cases hw
      exact ⟨fun _ => rfl, fun _ _ => Nat.le_refl _⟩
  refine alone_sql (fun seq e => .inl rfl) (fun out hq => (nomatch hq)) ?_
  intro moment seq out deletes db hplan hreplay
  have h₃ : Shrunk st.db (([] ++ results ++ alerts ++ deletes).foldl Write.apply st.db) :=
    h₂.append hplan fun w hw => by
      cases hw
      exact ⟨fun _ => rfl, fun id => Quota.keeps_deleteMonitor id _⟩
  rw [← Nat.zero_add monitors.length]
  refine restore_alone rfl ⟨h₃.users, ?_, fun id _ => h₃.owned id⟩
  -- the deletes are of all that the account has
  cases hplan
  rw [List.foldl_append]
  exact Nat.le_of_eq (owned_deleted userId _)

theorem resetTransaction_alone {monitors : List DemoMonitor} {st : Store} {tr : List Event} :
    Resets A userId monitors.length st.db (resetTransaction userId monitors) st tr .idle := by
  refine alone_begin (fun e => .inl rfl) ?_
  refine Prog.post_bind.mpr (Prog.Post.mono ?_ replaceOwned_alone)
  rintro ⟨st', tr'⟩ s r h
  exact alone_rollback fun _ => h

end Reset

/-- A reset on its own, of a manifest with `n` entries at most. -/
theorem resetDemoAccount_alone {A : Choice → Prop}
    {unmarshal : String → Except String (List DemoMonitor)} {email manifestPath : String} {n : Nat}
    (hfile : ∀ choice, A choice → ∀ data, choice.file = .ok data → ∀ monitors,
      parseDemoManifest unmarshal data = .ok monitors → monitors.length ≤ n)
    (st : Store) (tr : List Event) :
    Alone A (fun x _ _ => x.1.db = st.db ∨ ∃ userId, Replaced userId n st.db x.1.db)
      (resetDemoAccount unmarshal email manifestPath) st tr .idle := by
  unfold resetDemoAccount
  split
  · exact .inl rfl
  · refine alone_readFile fun choice hchoice => ?_
    cases hdata : choice.file with
    | error err => exact .inl rfl
    | ok data =>
        simp only
        cases hparse : parseDemoManifest unmarshal data with
        | error err => exact .inl rfl
        | ok monitors =>
            have hle := hfile choice hchoice data hdata monitors hparse
            simp only
            refine alone_sql_idle (fun seq e => .inl rfl) (fun out hq => (nomatch hq)) ?_ ?_
            · intro moment seq out ws db hplan hreplay
              cases hplan
              cases hreplay
              cases hfound : st.db.users.find? fun u => u.email = email && u.isDemo with
              | none => exact .inl rfl
              | some u =>
                  refine Prog.Post.mono (fun x s r h => h.imp_right fun h => ⟨u.id, ?_⟩)
                    resetTransaction_alone
                  exact ⟨h.users, Nat.le_trans h.own hle, h.others⟩
            · intro _ moment seq out ws db e hplan hreplay
              cases hplan
              cases hreplay
              exact .inl rfl

/-! ### A seed -/

/-- The keys of a manifest that no monitor of an account has. -/
def missing (keys : List String) (userId : Int) (db : Db) : List String :=
  keys.dedup.filter fun key =>
    !db.monitors.any fun m => m.userId = userId && m.seedKey = some key

/-- What the accounts of an email have, with what is missing of a manifest, is within the limit. -/
structure Fitting (email : String) (keys : List String) (limit : Int) (seq : Seq) (db : Db) :
    Prop where
  keyed : Keyed seq db
  fits : ∀ u ∈ db.users, u.email = email →
    (owned u.id db + (missing keys u.id db).length : Int) ≤ limit

section Seed

variable {email : String} {keys : List String} {limit : Int}

theorem Fitting.mono {a b : Seq} {db : Db} (h : Fitting email keys limit a db) (hle : a.Le b) :
    Fitting email keys limit b db :=
  ⟨h.keyed.mono hle, h.fits⟩

theorem fitting_outside {o : Op} (ho : ∀ q, o ≠ .sql q) : o.Keeps (Fitting email keys limit) :=
  Op.keeps_of_not_sql ho

/-- A new account has nothing, and misses all of the manifest. -/
theorem fitting_upsertDemoUser {data : NewUser} (hkeys : (keys.dedup.length : Int) ≤ limit) :
    (Op.sql (.upsertDemoUser data)).Keeps (Fitting email keys limit) := by
  refine Op.keeps_sql_keyed (·.keyed) fun moment a db b out ws db' hplan hreplay h hkeyed => ?_
  simp only [Sql.plan] at hplan
  split at hplan
  · cases hplan
    cases (replay_cons.mp hreplay).2
    refine ⟨hkeyed, fun u hu hemail => ?_⟩
    obtain ⟨old, hold, rfl⟩ := List.mem_map.mp hu
    split at hemail
    · rw [if_pos ‹_›]
      exact h.fits old hold hemail
    · rw [if_neg ‹_›]
      exact h.fits old hold hemail
  · cases hplan
    cases (replay_cons.mp hreplay).2
    refine ⟨hkeyed, fun u hu hemail => ?_⟩
    rcases List.mem_append.mp hu with hu | hu
    · exact h.fits u hu hemail
    · rw [List.mem_singleton.mp hu]
      show (owned a.users db + (missing keys a.users db).length : Int) ≤ limit
      -- a monitor that is there belongs to an account that is there
      have hnone : owned a.users db = 0 := by
        simp only [owned, Db.ownedBy, List.length_map, List.length_eq_zero_iff,
          List.filter_eq_nil_iff, decide_eq_true_eq]
        intro m hm huser
        obtain ⟨v, hv, hid⟩ := h.keyed.owners m hm
        exact absurd (h.keyed.usersBelow v hv) (by rw [hid, huser]; exact Int.lt_irrefl _)
      have hmissing : (missing keys a.users db).length ≤ keys.dedup.length :=
        List.length_filter_le _ _
      omega

theorem owned_onMonitor {id userId : Int} {f : Monitor → Monitor}
    (hf : ∀ m, (f m).userId = m.userId) (db : Db) :
    owned userId (db.onMonitor id f) = owned userId db := by
  have hsame : ∀ m : Monitor, (if m.id = id then f m else m).userId = m.userId := by
    intro m
    split
    · exact hf m
    · rfl
  simp [owned, Db.ownedBy, Db.onMonitor, List.filter_map, Function.comp_def, hsame]

theorem missing_onMonitor {id userId : Int} {f : Monitor → Monitor}
    (hf : ∀ m, (f m).userId = m.userId ∧ (f m).seedKey = m.seedKey) (db : Db) :
    missing keys userId (db.onMonitor id f) = missing keys userId db := by
  have hsame : ∀ m : Monitor, (if m.id = id then f m else m).userId = m.userId ∧
      (if m.id = id then f m else m).seedKey = m.seedKey := by
    intro m
    split
    · exact hf m
    · exact ⟨rfl, rfl⟩
  simp [missing, Db.onMonitor, List.any_map, Function.comp_def, hsame]

theorem missing_insertMonitor (userId : Int) (db : Db) (row : Monitor) :
    missing keys userId ((Write.insertMonitor row).apply db) =
      (missing keys userId db).filter fun key =>
        !(row.userId = userId && row.seedKey = some key) := by
  rw [missing, missing, List.filter_filter]
  refine List.filter_congr fun key _ => ?_
  simp [Write.apply, List.any_append, Bool.and_comm]

/-- An upsert adds a monitor with a key that was missing. -/
theorem fitting_upsertMonitor {userId : Int} {seedKey : String} {values : SeedValues}
    {createdAt : Time} (hkey : seedKey ∈ keys) :
    (Op.sql (.upsertMonitor userId seedKey values createdAt)).Keeps
      (Fitting email keys limit) := by
  refine Op.keeps_sql_keyed (·.keyed) fun moment a db b out ws db' hplan hreplay h hkeyed => ?_
  simp only [Sql.plan] at hplan
  split at hplan
  · cases hplan
    cases (replay_cons.mp hreplay).2
    refine ⟨hkeyed, fun u hu hemail => ?_⟩
    rw [Write.apply, owned_onMonitor (f := (·.seeded values)) fun _ => rfl,
      missing_onMonitor (f := (·.seeded values)) fun _ => ⟨rfl, rfl⟩]
    exact h.fits u hu hemail
  · rename_i hfind
    cases hplan
    cases (replay_cons.mp hreplay).2
    refine ⟨hkeyed, fun u hu hemail => ?_⟩
    have hfits := h.fits u hu hemail
    set row := values.row a.monitors userId seedKey createdAt
    by_cases huser : userId = u.id
    · have howned := Quota.owned_insertMonitor u.id db row
      have hmissing : seedKey ∈ missing keys u.id db := by
        refine List.mem_filter.mpr ⟨List.mem_dedup.mpr hkey, ?_⟩
        rw [Bool.not_eq_true', List.any_eq_false, ← huser]
        exact List.find?_eq_none.mp hfind
      have hrow : row.userId = u.id ∧ row.seedKey = some seedKey := ⟨huser, rfl⟩
      have hlt : (missing keys u.id ((Write.insertMonitor row).apply db)).length <
          (missing keys u.id db).length := by
        rw [missing_insertMonitor]
        exact List.length_filter_lt_length_iff_exists.mpr ⟨seedKey, hmissing, by simp [hrow]⟩
      omega
    · have howned : owned u.id ((Write.insertMonitor row).apply db) = owned u.id db :=
        owned_insertMonitor_other huser db
      have hle : (missing keys u.id ((Write.insertMonitor row).apply db)).length ≤
          (missing keys u.id db).length := by
        rw [missing_insertMonitor]
        exact List.length_filter_le _ _
      omega

end Seed

/-! ### Runs -/

/-- The demo account as the API and the worker are configured: its manifest, which is one file. -/
structure DemoSite where
  rt : Runtime
  manifest : DemoManifest
  text : String
  parse : String → Except String Scanned
  raw : Scanned → String
  /-- What `JSON.parse` makes of the literal of a number. -/
  number : String → Rat
  path : String

inductive DemoOperation where
  | create (userId : Int) (dto : CreateMonitorDto)
  | delete (userId monitorId : Int)
  | seed
  | reset

/-- An operation, with what the environment does during it. -/
structure DemoAttempt where
  operation : DemoOperation
  choices : Nat → Choice

namespace DemoSite

def email (site : DemoSite) : String := demoEmail site.rt site.manifest

def unmarshal (site : DemoSite) (data : String) : Except String (List DemoMonitor) :=
  unmarshalMonitors site.raw (site.parse data)

def operation (site : DemoSite) : DemoOperation → Operation
  | .create userId dto => .writer (.create site.rt dto ⟨userId, true⟩)
  | .delete userId monitorId => .writer (.delete monitorId userId)
  | .seed => .demoSeed site.rt site.manifest
  | .reset => .writer (.reset site.unmarshal site.email site.path)

/-- Requests are made by the demo user. -/
def allows (site : DemoSite) (db : Db) : DemoOperation → Bool
  | .create userId _ | .delete userId _ =>
      db.users.any fun u => u.id = userId && u.email = site.email && u.isDemo
  | .seed | .reset => true

/-- The file that is read, if it can be, is the manifest. -/
def provides (site : DemoSite) (choice : Choice) : Choice :=
  { choice with file := choice.file.map fun _ => site.text }

/-- One operation after the other. -/
def step (site : DemoSite) (st : Store) (a : DemoAttempt) : Option Store :=
  if site.allows st.db a.operation then
    some ((site.operation a.operation).run (fun n => site.provides (a.choices n)) st).1
  else none

/-- The manifest and `DEMO_MAX_MONITORS` are accepted, and the file is the manifest. -/
structure Accepts (site : DemoSite) (entries : List Json) (limit : Int) : Prop where
  entries : DemoSeed.accept site.rt site.manifest = .ok entries
  limit : site.rt.config "DEMO_MAX_MONITORS" 3 = .finite limit
  parsed : (site.parse site.text).map (Scanned.value site.number) = .ok site.manifest.monitors

def keys (site : DemoSite) (entries : List Json) : List String :=
  (demoUpserts site.rt entries).map (·.1)

/-- A seed finds room for what is missing of the manifest. -/
def Fits (site : DemoSite) (entries : List Json) (limit : Int) (st : Store) (a : DemoAttempt) :
    Prop :=
  match a.operation with
  | .seed => ∀ u ∈ st.db.users, u.email = site.email →
      (owned u.id st.db + (missing (site.keys entries) u.id st.db).length : Int) ≤ limit
  | .create _ _ | .delete _ _ | .reset => True

/-- The keys are in order, and the account is within the limit. -/
structure Inv (site : DemoSite) (limit : Int) (st : Store) : Prop where
  keyed : Keyed st.seq st.db
  bound : ∀ u ∈ st.db.users, u.email = site.email → (owned u.id st.db : Int) ≤ limit

variable {site : DemoSite} {entries : List Json} {limit : Int}

theorem length_demoUpserts (rt : Runtime) : ∀ entries : List Json,
    (demoUpserts rt entries).length ≤ entries.length
  | [] => Nat.le_refl _
  | entry :: entries => by
      rw [demoUpserts]
      split
      · exact Nat.zero_le _
      · exact Nat.succ_le_succ (length_demoUpserts rt entries)

theorem lt_of_not_ge {n : Nat} {limit : Int}
    (h : (Number.finite n).ge (.finite limit) = false) : (n : Int) < limit := by
  have hlt : ((n : Rat) < limit) := by simpa [Number.ge, Number.lt] using h
  exact_mod_cast hlt

/-- The manifest leaves a monitor free. -/
theorem Accepts.lt (h : site.Accepts entries limit) : (entries.length : Int) < limit := by
  have hentries := h.entries
  unfold DemoSeed.accept at hentries
  rw [h.limit] at hentries
  simp only at hentries
  split at hentries
  · cases hentries
  · rename_i hroom
    have hroom : ∀ n, site.manifest.monitors.length = some n → (n : Int) < limit := by
      intro n hn
      rw [hn, Bool.or_eq_true, not_or] at hroom
      exact lt_of_not_ge (eq_false_of_ne_true hroom.2)
    cases hmonitors : site.manifest.monitors with
    | arr items =>
        rw [hmonitors] at hentries hroom
        obtain ⟨-, -, rfl⟩ := map_eq_ok hentries
        exact hroom _ rfl
    | str s =>
        rw [hmonitors] at hentries hroom
        obtain ⟨_, hcheck, rfl⟩ := map_eq_ok hentries
        -- an entry that is a letter has no key
        cases hs : s.toList with
        | nil =>
            refine Int.lt_of_le_of_lt ?_ (hroom _ rfl)
            rw [List.length_map, hs]
            exact Int.natCast_nonneg _
        | cons c cs =>
            rw [hs] at hcheck
            cases hcheck
    | null | bool b | num q | obj fields =>
        rw [hmonitors] at hentries
        cases hentries

/-- The worker reads one monitor of each entry. -/
theorem Accepts.length_le (h : site.Accepts entries limit) {monitors : List DemoMonitor}
    (hparse : parseDemoManifest site.unmarshal site.text = .ok monitors) :
    monitors.length ≤ entries.length := by
  have hread := (parseDemoManifest_ok.mp hparse).1
  unfold DemoSite.unmarshal at hread
  obtain ⟨doc, hdoc, hmonitors⟩ := map_eq_ok h.parsed
  rw [hdoc] at hread
  cases doc with
  | arr items =>
      have haccept : DemoSeed.accept site.rt ⟨site.manifest.email, site.manifest.password,
          .arr (Scanned.values site.number items)⟩ = .ok entries := by
        rw [show Json.arr (Scanned.values site.number items) = _ from hmonitors]
        exact h.entries
      rw [DemoSeed.accept_arr haccept, Scanned.values_eq_map, List.length_map,
        (decodeMonitors_ok.mp hread).length_eq]
  | null =>
      cases hread
      exact Nat.zero_le _
  | bool b | num literal | str s | obj fields => cases hread

/-- What the call of a writer comes to on its own is what the writer comes to. -/
theorem Writer.run_alone {w : Writer} {α : Type} {A : Choice → Prop}
    {Q : Store × List Event → Session → α → Prop} {p : Client α} {f : α → Bool}
    (hw : w.program = p >>= fun r => pure (f r)) {st : Store} (choices : Nat → Choice)
    (h : Alone A Q p st [] .idle) (hA : ∀ n, A (choices n)) :
    ∃ tr s a, Q (((Operation.writer w).run choices st).1, tr) s a := by
  have hend : Alone A (fun x s _ => ∃ tr s a, Q (x.1, tr) s a) (Operation.writer w).program st []
      .idle := by
    rw [Operation.program, hw]
    exact Prog.post_bind.mpr (Prog.Post.mono (fun x s a hQ => ⟨x.2, s, a, hQ⟩) h)
  exact hend.run hA

/-- The accounts are the same, and none of the email's has more than the limit. -/
theorem Inv.of_bound {st st' : Store} (hkeyed : Keyed st'.seq st'.db)
    (husers : st'.db.users = st.db.users)
    (hbound : ∀ u ∈ st.db.users, u.email = site.email → (owned u.id st'.db : Int) ≤ limit) :
    site.Inv limit st' :=
  ⟨hkeyed, husers ▸ hbound⟩

theorem Inv.create {st : Store} (h : site.Inv limit st) (haccepts : site.Accepts entries limit)
    (userId : Int) (dto : CreateMonitorDto) (choices : Nat → Choice) :
    site.Inv limit ((site.operation (.create userId dto)).run choices st).1 := by
  have hkeyed := (site.operation (.create userId dto)).run_keyed choices h.keyed
  obtain ⟨_, _, _, hend⟩ := Writer.run_alone (w := .create site.rt dto ⟨userId, true⟩) rfl
    choices (createMonitor_alone (fun _ => True) site.rt dto ⟨userId, true⟩ st [])
    fun _ => trivial
  dsimp only at hend
  rcases hend with hdb | ⟨hroom, row, hrow, hdb⟩
  · exact Inv.of_bound hkeyed (congrArg Db.users hdb) fun u hu hemail =>
      (congrArg (owned u.id) hdb).symm ▸ h.bound u hu hemail
  · refine Inv.of_bound hkeyed ((congrArg Db.users hdb).trans rfl) fun u hu hemail => ?_
    have hbound := h.bound u hu hemail
    rw [DemoSite.operation, hdb]
    by_cases huser : userId = u.id
    · have hroom : (owned userId st.db : Int) < limit := by
        refine lt_of_not_ge ?_
        rw [← haccepts.limit]
        exact hroom
      have howned := Quota.owned_insertMonitor u.id st.db row
      rw [huser] at hroom
      omega
    · rw [owned_insertMonitor_other (hrow.symm ▸ huser)]
      exact hbound

theorem Inv.delete {st : Store} (h : site.Inv limit st) (userId monitorId : Int)
    (choices : Nat → Choice) :
    site.Inv limit ((site.operation (.delete userId monitorId)).run choices st).1 := by
  have hkeyed := (site.operation (.delete userId monitorId)).run_keyed choices h.keyed
  have hshrinks : (site.operation (.delete userId monitorId)).program.Only (·.Writes Shrinks) := by
    refine Prog.only_bind (fun _ => Prog.only_ret) ?_
    have hsql : ∀ q : Sql, (∀ w, q.Makes w → Shrinks w) → (Op.sql q).Writes Shrinks :=
      fun q hq => Op.writes_of_makes fun q' hq' => Op.sql.inj hq' ▸ hq
    have hop : ∀ o : Op, (∀ q, o ≠ .sql q) → o.Writes Shrinks :=
      fun o ho => Op.writes_of_makes fun q hq => absurd hq (ho q)
    refine deleteMonitor_only (hsql _ ?_) (hsql _ ?_) (hsql _ ?_) (hsql _ ?_)
      (hop _ fun q h => (nomatch h)) (hop _ fun q h => (nomatch h)) (hop _ fun q h => (nomatch h))
    · rintro w ⟨⟩
    · rintro w ⟨⟩
      exact ⟨fun _ => rfl, fun _ _ => Nat.le_refl _⟩
    · rintro w ⟨⟩
      exact ⟨fun _ => rfl, fun _ _ => Nat.le_refl _⟩
    · rintro w ⟨⟩
      exact ⟨fun _ => rfl, fun id => Quota.keeps_deleteMonitor id _⟩
  have hend : Shrunk st.db ((site.operation (.delete userId monitorId)).run choices st).1.db :=
    Operation.run_keeps (I := fun _ db => Shrunk st.db db) (fun _ _ _ h _ => h)
      (hshrinks.mono fun o ho => ho.keeps fun w hw db _ hdb =>
        ⟨(hw.1 db).trans hdb.users, fun id => Nat.le_trans (hw.2 id db) (hdb.owned id)⟩)
      choices ⟨rfl, fun _ => Nat.le_refl _⟩
  refine Inv.of_bound hkeyed hend.users fun u hu hemail => ?_
  have hbound := h.bound u hu hemail
  have howned := hend.owned u.id
  omega

theorem Inv.seed {st : Store} (h : site.Inv limit st) (haccepts : site.Accepts entries limit)
    (hfits : ∀ u ∈ st.db.users, u.email = site.email →
      (owned u.id st.db + (missing (site.keys entries) u.id st.db).length : Int) ≤ limit)
    (choices : Nat → Choice) :
    site.Inv limit ((site.operation .seed).run choices st).1 := by
  have hkeys : ((site.keys entries).dedup.length : Int) ≤ limit := by
    have hdedup : (site.keys entries).dedup.length ≤ (site.keys entries).length :=
      (List.dedup_sublist _).length_le
    have hle := length_demoUpserts site.rt entries
    have hlt := haccepts.lt
    rw [DemoSite.keys, List.length_map] at hdedup
    rw [DemoSite.keys]
    omega
  have hend := Operation.run_keeps (I := Fitting site.email (site.keys entries) limit)
    (o := site.operation .seed) (fun _ _ _ => Fitting.mono) ?_ choices ⟨h.keyed, hfits⟩
  · refine ⟨hend.keyed, fun u hu hemail => ?_⟩
    have hu := hend.fits u hu hemail
    omega
  · refine Prog.only_bind (fun _ => Prog.only_ret) ?_
    unfold DemoSeed.seed
    rw [haccepts.entries]
    have houtside : ∀ {o : Op}, (∀ q, o ≠ .sql q) →
        o.Keeps (Fitting site.email (site.keys entries) limit) := fitting_outside
    refine only_await (hashPassword_only (houtside fun q h => (nomatch h))) fun password => ?_
    refine only_await (upsertDemoUser_only (houtside fun q h => (nomatch h))
      fun data _ => fitting_upsertDemoUser hkeys) fun userId => ?_
    refine upsertDemoMonitors_only (houtside fun q h => (nomatch h)) fun upsert hupsert now => ?_
    exact fitting_upsertMonitor (List.mem_map_of_mem hupsert)

theorem Inv.reset {st : Store} (h : site.Inv limit st) (haccepts : site.Accepts entries limit)
    (choices : Nat → Choice) :
    site.Inv limit ((site.operation .reset).run (fun n => site.provides (choices n)) st).1 := by
  have hkeyed := (site.operation .reset).run_keyed (fun n => site.provides (choices n)) h.keyed
  have hfile : ∀ c : Choice, (∀ data, c.file = .ok data → data = site.text) → ∀ data,
      c.file = .ok data → ∀ monitors, parseDemoManifest site.unmarshal data = .ok monitors →
        monitors.length ≤ entries.length := by
    intro c hc data hdata monitors hparse
    rw [hc data hdata] at hparse
    exact haccepts.length_le hparse
  obtain ⟨_, _, _, hend⟩ := Writer.run_alone (w := .reset site.unmarshal site.email site.path) rfl
    (fun n => site.provides (choices n)) (resetDemoAccount_alone hfile st []) (by
      intro n data hdata
      obtain ⟨_, -, rfl⟩ := map_eq_ok hdata
      rfl)
  dsimp only at hend
  rcases hend with hdb | ⟨userId, hreplaced⟩
  · exact Inv.of_bound hkeyed (congrArg Db.users hdb) fun u hu hemail =>
      (congrArg (owned u.id) hdb).symm ▸ h.bound u hu hemail
  · refine Inv.of_bound hkeyed hreplaced.users fun u hu hemail => ?_
    have hbound := h.bound u hu hemail
    have hlt := haccepts.lt
    by_cases huser : u.id = userId
    · have hown := hreplaced.own
      rw [DemoSite.operation, huser]
      omega
    · have hothers := hreplaced.others u.id huser
      rw [DemoSite.operation]
      omega

theorem Inv.step {st st' : Store} (h : site.Inv limit st) (haccepts : site.Accepts entries limit)
    {a : DemoAttempt} (hfits : site.Fits entries limit st a) (hs : site.step st a = some st') :
    site.Inv limit st' := by
  obtain ⟨operation, choices⟩ := a
  unfold DemoSite.step at hs
  split at hs
  · cases hs
    cases operation with
    | create userId dto => exact h.create haccepts userId dto _
    | delete userId monitorId => exact h.delete userId monitorId _
    | seed => exact h.seed haccepts hfits _
    | reset => exact h.reset haccepts choices
  · cases hs

end DemoSite

/-- **The demo account stays within its limit**, in every run of create and delete requests, seeds
and resets, whatever fails in it, from an account without monitors, if every seed fits. -/
theorem demo_quota_run (site : DemoSite) (entries : List Json) (limit : Int)
    (haccepts : site.Accepts entries limit) (st : Store) (hst : Keyed st.seq st.db)
    (hempty : ∀ u ∈ st.db.users, u.email = site.email → owned u.id st.db = 0)
    (attempts : List DemoAttempt) (s : Store)
    (hrun : Guarded site.step (site.Fits entries limit) st attempts s) :
    ∀ u ∈ s.db.users, u.email = site.email → (owned u.id s.db : Int) ≤ limit := by
  have hlimit := haccepts.lt
  have hinv : site.Inv limit s := hrun.invariant
    (fun _ _ _ h hfits hs => h.step haccepts hfits hs)
    ⟨hst, fun u hu hemail => by rw [hempty u hu hemail]; omega⟩
  exact hinv.bound

def demoEntry (key : String) : Json :=
  .obj [("seed_key", .str key), ("name", .str key), ("target", .str "https://example.com"),
    ("frequency", .num 60), ("check_type", .str "http"), ("check_config", .obj [])]

def scannedEntry (key : String) : Scanned :=
  .obj [("seed_key", .str key), ("name", .str key), ("target", .str "https://example.com"),
    ("frequency", .num "60"), ("check_type", .str "http"), ("check_config", .obj [])]

def demoText : String :=
  "[\x7b\"seed_key\":\"a\",\"name\":\"a\",\"target\":\"https://example.com\",\"frequency\":60," ++
  "\"check_type\":\"http\",\"check_config\":\x7b\x7d\x7d," ++
  "\x7b\"seed_key\":\"b\",\"name\":\"b\",\"target\":\"https://example.com\",\"frequency\":60," ++
  "\"check_type\":\"http\",\"check_config\":\x7b\x7d\x7d]"

/-- Two monitors, and a limit of three. -/
def demoSite : DemoSite where
  rt := statusRuntime
  manifest := ⟨"demo@example.com", "", .arr [demoEntry "a", demoEntry "b"]⟩
  text := demoText
  parse data :=
    if data = demoText then .ok (.arr [scannedEntry "a", scannedEntry "b"])
    else .error "unexpected end of JSON input"
  raw _ := "\x7b\x7d"
  number literal := ((Checker.atoi literal.toList).getD 0 : Int)
  path := "demo-monitors.json"

def calmly (operation : DemoOperation) : DemoAttempt :=
  ⟨operation, fun _ => { Choice.calm 0 (.error "") with file := .ok "", hashed := .ok "" }⟩

def demoCreate : DemoOperation :=
  .create 1 ⟨"Site", "https://example.com", .undefined, .undefined, .undefined⟩

theorem demoSite_accepts : demoSite.Accepts [demoEntry "a", demoEntry "b"] 3 :=
  ⟨rfl, rfl, by simp only [demoSite, ↓reduceIte]; rfl⟩

set_option maxRecDepth 10000 in
theorem demo_quota_run_calm : ∃ s,
    Guarded demoSite.step (demoSite.Fits [demoEntry "a", demoEntry "b"] 3) ⟨.empty, .first, []⟩
      [calmly .seed, calmly (.delete 1 1), calmly demoCreate, calmly .seed, calmly .reset] s ∧
      s.db.monitors.map (fun m => (m.userId, m.seedKey)) = [(1, some "a"), (1, some "b")] ∧
      ∀ u ∈ s.db.users, u.email = demoSite.email → (owned u.id s.db : Int) ≤ 3 := by
  have hrun : Guarded demoSite.step (demoSite.Fits [demoEntry "a", demoEntry "b"] 3)
      ⟨.empty, .first, []⟩
      [calmly .seed, calmly (.delete 1 1), calmly demoCreate, calmly .seed, calmly .reset] _ :=
    .more (fun u hu => (nomatch hu)) rfl (.more trivial rfl (.more trivial rfl
      (.more (by show ∀ u ∈ _, _; decide) rfl (.more trivial rfl (.refl _)))))
  refine ⟨_, hrun, rfl, ?_⟩
  exact demo_quota_run demoSite _ 3 demoSite_accepts ⟨.empty, .first, []⟩
    ⟨List.nodup_nil, fun u hu => (nomatch hu), List.nodup_nil, fun m hm => (nomatch hm),
      fun m hm => (nomatch hm)⟩ (fun u hu => (nomatch hu)) _ _ hrun

/-- The demo user deletes a monitor of the manifest and creates two: the next seed goes beyond the
limit. -/
theorem demo_quota_exceeded : ∃ s,
    Run demoSite.step ⟨.empty, .first, []⟩
      [calmly .seed, calmly (.delete 1 1), calmly demoCreate, calmly demoCreate, calmly .seed] s ∧
      ∃ u ∈ s.db.users, u.email = demoSite.email ∧ ¬ (owned u.id s.db : Int) ≤ 3 := by
  have hrun : Run demoSite.step ⟨.empty, .first, []⟩
      [calmly .seed, calmly (.delete 1 1), calmly demoCreate, calmly demoCreate, calmly .seed] _ :=
    run_of_exec rfl
  exact ⟨_, hrun, _, List.mem_cons_self, rfl, by decide⟩

end Sentinel.System
