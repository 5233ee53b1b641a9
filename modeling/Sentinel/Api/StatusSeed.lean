import Sentinel.Api.Target

/-!
# Api — StatusSeed

`StatusSeed.seed` of `src/status/status-seed.ts`: it makes the monitors of a manifest, and no
others, the public ones.
-/

namespace Sentinel.Api

open Program Database

/-- An entry of the manifest. -/
structure StatusMonitor where
  seedKey : String
  name : String
  target : String
  frequency : Option Int
deriving DecidableEq, Repr

def disabledOwnerPassword : String := "STATUS_SEED_DISABLED_PASSWORD_SENTINEL"

/-- The frequency of an entry: not given, or a positive integer. -/
def statusFrequency : Option Json → Option (Option Int)
  | none => some none
  | some (.num q) => if q.den = 1 ∧ 0 < q then some (some q.num) else none
  | some _ => none

/-- A valid entry. -/
def StatusMonitor.ofJson (rt : Runtime) (monitor : Json) : Option StatusMonitor :=
  match monitor.prop "seed_key", monitor.prop "name", monitor.prop "target",
      statusFrequency (monitor.prop "frequency") with
  | some (.str seedKey), some (.str name), some (.str target), some frequency =>
      if isBlank seedKey || isBlank name || !validateTarget rt (some (.str target)) then none
      else some ⟨seedKey, name, target, frequency⟩
  | _, _, _, _ => none

/-- `monitor?.seed_key`, with `null` as if it were not there. -/
def seedKeyOf (monitor : Json) : Option Json :=
  match monitor.prop "seed_key" with
  | some .null => none
  | key => key

/-- The entries of the manifest, none of them with a key that is among `seedKeys` by then. -/
def readStatusManifest (rt : Runtime) (seedKeys : List String) :
    List Json → Except ApiError (List StatusMonitor)
  | [] => .ok []
  | monitor :: manifest =>
      match StatusMonitor.ofJson rt monitor with
      | none => .error (.invalidEntry "status" "unknown" (seedKeyOf monitor))
      | some m =>
          if m.seedKey ∈ seedKeys then
            .error (.invalidEntry "status" "unknown" (seedKeyOf monitor))
          else (readStatusManifest rt (m.seedKey :: seedKeys) manifest).map (m :: ·)

/-- `/^[^\s@]+@[^\s@]+\.[^\s@]+$/`. -/
def isEmail (email : String) : Bool :=
  !email.toList.any isSpace &&
    match email.toList.splitOn '@' with
    | [name, domain] => name ≠ [] && domain.tail.dropLast.contains '.'
    | _ => false

/-- The columns of a published monitor. -/
def StatusMonitor.values (m : StatusMonitor) : SeedValues :=
  { name := m.name, target := m.target, frequency := m.frequency.getD 60, state := "Active",
    checkType := "http", checkConfig := some "{}", consecutiveFailures := 0, isPublic := true }

/-- The upserts of the manifest. -/
def upsertStatusMonitors (ownerId : Int) : List StatusMonitor → Client (Except ApiError Unit)
  | [] => return .ok ()
  | monitor :: manifest => do
      let now ← Client.now
      query (.upsertMonitor ownerId monitor.seedKey monitor.values now) fun _ =>
        upsertStatusMonitors ownerId manifest

/-- The account that owns the public monitors, created if it is not there. -/
def statusOwner (ownerEmail : String) (existing : Option User) : Client (Except ApiError Int) :=
  match existing with
  | some user => return .ok user.id
  | none => do
      let createdAt ← Client.now
      let updatedAt ← Client.now
      query (.createUser
        { email := ownerEmail, username := ownerEmail, name := "Public Status",
          lastName := "Owner", password := disabledOwnerPassword, status := some "Active",
          isActive := false, isDemo := false, createdAt := createdAt, updatedAt := updatedAt })
        fun id => return .ok id

/-- The rows that are hidden in the end. -/
def hiddenRows (ownerId : Int) (manifest : List StatusMonitor) : Hide :=
  if manifest = [] then .all else .except ownerId (manifest.map (·.seedKey))

/-- What the transaction does. -/
def publish (ownerEmail : String) (existing : Option User) (manifest : List StatusMonitor) :
    Client (Except ApiError Nat) :=
  await (statusOwner ownerEmail existing) fun ownerId =>
    await (upsertStatusMonitors ownerId manifest) fun _ =>
      query (.updateManyHide (hiddenRows ownerId manifest)) fun count => return .ok count

/-- The account of the email may be used: it is the seed's own. -/
def ownsStatus (user : User) : Bool :=
  !user.isDemo && !user.isActive && user.password = disabledOwnerPassword

/-- What an error of the transaction is reported as. -/
def collision (ownerEmail : String) (existing : Option User) (e : ApiError) : ApiError :=
  match e with
  | .database err =>
      if err = uniqueViolation ∧ existing = none then
        .badRequest ("STATUS_OWNER_EMAIL " ++ ownerEmail ++
          " collided with an existing account; refusing to take it over")
      else .database err
  | e => e

/-- The seed for an account. -/
def seedOwner (ownerEmail : String) (manifest : List StatusMonitor) :
    Client (Except ApiError Nat) :=
  query (.findUniqueUser ownerEmail) fun (existing : Option User) =>
    if existing.any (!ownsStatus ·) then
      return .error (.badRequest ("STATUS_OWNER_EMAIL " ++ ownerEmail ++
        " already belongs to an account; refusing to take it over"))
    else do
      let r ← transaction (publish ownerEmail existing manifest)
      return r.mapError (collision ownerEmail existing)

/-- `STATUS_OWNER_EMAIL`, unless it is empty. -/
def statusOwnerEmail (rt : Runtime) : Option String :=
  (rt.env "STATUS_OWNER_EMAIL").filter (· ≠ "")

/-- What `StatusSeed.seed` accepts: the email of the owner, if it is configured, and the entries. -/
def StatusSeed.accept (rt : Runtime) (manifest : Json) :
    Except ApiError (Option String × List StatusMonitor) :=
  match manifest with
  | .arr monitors =>
      match readStatusManifest rt [] monitors with
      | .error e => .error e
      | .ok manifest =>
          match statusOwnerEmail rt with
          | none => .ok (none, manifest)
          | some ownerEmail =>
              if !isEmail ownerEmail then
                .error (.badRequest "STATUS_OWNER_EMAIL must be a valid email address")
              else if some (rt.toLowerCase ownerEmail) =
                  (rt.env "DEMO_USER_EMAIL").map rt.toLowerCase then
                .error (.badRequest "STATUS_OWNER_EMAIL must be different from DEMO_USER_EMAIL")
              else .ok (some ownerEmail, manifest)
  | _ => .error (.badRequest "Status monitor manifest must be an array")

/-- `StatusSeed.seed`, ending with the number of monitors it hid. -/
def StatusSeed.seed (rt : Runtime) (manifest : Json) : Client (Except ApiError Nat) :=
  match StatusSeed.accept rt manifest with
  | .error e => return .error e
  | .ok (none, _) => transaction <| query (.updateManyHide .all) fun count => return .ok count
  | .ok (some ownerEmail, manifest) => seedOwner ownerEmail manifest

/-! ### What is published -/

/-- The keys of a manifest. -/
def statusKeys (manifest : Json) : List String :=
  match manifest with
  | .arr monitors => monitors.filterMap fun monitor =>
      match monitor.prop "seed_key" with
      | some (.str seedKey) => some seedKey
      | _ => none
  | _ => []

/-- The account of the email that is configured. -/
def statusAccount (rt : Runtime) (db : Db) : Option Int :=
  (statusOwnerEmail rt).bind fun ownerEmail =>
    (db.users.find? fun u => u.email = ownerEmail).map (·.id)

/-- Every public monitor belongs to one account and has one of some keys. -/
def Published (owner : Option Int) (keys : List String) (db : Db) : Prop :=
  ∀ m ∈ db.monitors, m.isPublic = true →
    owner = some m.userId ∧ ∃ key ∈ keys, m.seedKey = some key

theorem StatusMonitor.ofJson_seedKey {rt : Runtime} {monitor : Json} {m : StatusMonitor}
    (h : StatusMonitor.ofJson rt monitor = some m) :
    monitor.prop "seed_key" = some (.str m.seedKey) := by
  unfold StatusMonitor.ofJson at h
  split at h
  · rename_i seedKey name target frequency hkey hname htarget hfrequency
    split at h
    · cases h
    · cases h
      exact hkey
  · cases h

/-- The entries that are read have the keys of the manifest. -/
theorem readStatusManifest_keys {rt : Runtime} : ∀ {manifest : List Json}
    {seedKeys : List String} {ms : List StatusMonitor},
    readStatusManifest rt seedKeys manifest = .ok ms →
      ms.map (·.seedKey) = statusKeys (.arr manifest)
  | [], _, _, h => by
      cases h
      rfl
  | monitor :: manifest, seedKeys, ms, h => by
      unfold readStatusManifest at h
      split at h
      · cases h
      · rename_i m hm
        split at h
        · cases h
        · cases hrest : readStatusManifest rt (m.seedKey :: seedKeys) manifest with
          | error e =>
              rw [hrest] at h
              cases h
          | ok rest =>
              rw [hrest] at h
              cases h
              have ih := readStatusManifest_keys hrest
              rw [List.map_cons, ih, statusKeys, statusKeys,
                List.filterMap_cons_some (by rw [StatusMonitor.ofJson_seedKey hm])]

/-- What hiding rows makes of the tables. -/
theorem foldl_hide : ∀ (ids : List Int) (db : Db),
    (ids.map Write.hide).foldl Write.apply db =
      { db with monitors := db.monitors.map fun m =>
          if m.id ∈ ids then { m with isPublic := false } else m }
  | [], db => by simp
  | id :: ids, db => by
      rw [List.map_cons, List.foldl_cons, foldl_hide ids]
      simp only [Write.apply, Db.onMonitor, List.map_map, List.mem_cons]
      congr 1
      refine List.map_congr_left fun m _ => ?_
      by_cases hid : m.id = id
      · simp [Function.comp, hid]
      · simp [Function.comp, hid]

/-- After the hiding, a monitor that is public was public before, and is not among the rows. -/
theorem public_of_hide {rows : Hide} {db : Db} {m : Monitor}
    (hm : m ∈ ((((db.monitors.filter rows.matches).map (·.id)).map Write.hide).foldl Write.apply
      db).monitors) (hpublic : m.isPublic = true) :
    m ∈ db.monitors ∧ rows.matches m = false := by
  rw [foldl_hide, List.mem_map] at hm
  obtain ⟨m', hm', rfl⟩ := hm
  by_cases hid : m'.id ∈ (db.monitors.filter rows.matches).map (·.id)
  · rw [if_pos hid] at hpublic
    cases hpublic
  · rw [if_neg hid] at hpublic ⊢
    refine ⟨hm', Bool.eq_false_iff.mpr fun hmatches => hid ?_⟩
    exact List.mem_map_of_mem (List.mem_filter.mpr ⟨hm', hmatches⟩)

/-- What is left public belongs to the owner and has a key of the manifest. -/
theorem hiddenRows_matches {ownerId : Int} {manifest : List StatusMonitor} {m : Monitor}
    (h : (hiddenRows ownerId manifest).matches m = false) (hpublic : m.isPublic = true) :
    m.userId = ownerId ∧ ∃ key ∈ manifest.map (·.seedKey), m.seedKey = some key := by
  unfold hiddenRows at h
  split at h
  · rw [Hide.matches, hpublic] at h
    cases h
  · rw [Hide.matches, hpublic, Bool.true_and] at h
    simp only [Bool.or_eq_false_iff, decide_eq_false_iff_not, not_not,
      Bool.and_eq_false_iff] at h
    obtain ⟨⟨huser, hnull⟩, hkeys⟩ := h
    refine ⟨huser, ?_⟩
    cases hkey : m.seedKey with
    | none => simp [hkey, huser] at hnull
    | some key => exact ⟨key, by simpa [hkey, huser] using hkeys, rfl⟩

/-- The account with an email is the one with an id. -/
def Account (email : String) (id : Int) (db : Db) : Prop :=
  (db.users.find? fun u => u.email = email).map (·.id) = some id

/-- A change that leaves the accounts alone. -/
def KeepsUsers (w : Write) : Prop := ∀ db, (w.apply db).users = db.users

theorem upsertMonitor_keepsUsers (userId : Int) (seedKey : String) (values : SeedValues)
    (createdAt : Time) : (Op.sql (.upsertMonitor userId seedKey values createdAt)).Writes
      KeepsUsers := by
  refine Op.writes_of_makes fun q hq w hw => ?_
  cases hq
  cases hw <;> exact fun db => rfl

theorem upsertStatusMonitors_only {P : Op → Prop} {ownerId : Int} (hnow : P .now) :
    ∀ {manifest : List StatusMonitor},
      (∀ m ∈ manifest, ∀ now, P (.sql (.upsertMonitor ownerId m.seedKey m.values now))) →
      (upsertStatusMonitors ownerId manifest).Only P
  | [], _ => trivial
  | m :: manifest, h => by
      refine Prog.only_bind (fun now => ?_) (Prog.only_op hnow)
      refine only_query (h m List.mem_cons_self now) fun _ => ?_
      exact upsertStatusMonitors_only hnow fun m hm => h m (List.mem_cons_of_mem _ hm)

section Publish

variable {A : Choice → Prop} {st : Store} {tr : List Event} {ownerEmail : String}
  {existing : Option User} {manifest : List StatusMonitor}

theorem statusOwner_alone
    (hexisting : st.db.users.find? (fun u => u.email = ownerEmail) = existing) :
    Alone A (fun x s r => x.1.db = st.db ∧ ∀ id, r = .ok id →
      ∃ ws, s = .open_ ws ∧ Account ownerEmail id (ws.foldl Write.apply st.db))
      (statusOwner ownerEmail existing) st tr (.open_ []) := by
  cases existing with
  | some user =>
      refine ⟨rfl, fun id hid => ⟨[], rfl, ?_⟩⟩
      cases hid
      show (st.db.users.find? _).map _ = _
      rw [hexisting]
      rfl
  | none =>
      refine alone_now fun createdAt => alone_now fun updatedAt => ?_
      refine alone_sql (fun seq e => ⟨rfl, fun id hid => (nomatch hid)⟩)
        (fun out hq => (nomatch hq)) fun moment seq out more db hplan hreplay => ?_
      cases hplan
      refine ⟨rfl, fun id hid => ⟨_, rfl, ?_⟩⟩
      cases hid
      show ((st.db.users ++ [_]).find? _).map _ = _
      rw [List.find?_append, hexisting]
      simp [NewUser.row]

theorem publish_alone
    (hexisting : st.db.users.find? (fun u => u.email = ownerEmail) = existing) :
    Alone A (fun x s r => x.1.db = st.db ∧ ∀ (a : Nat) ws, r = .ok a → s = .open_ ws →
      ∀ db, replay st.db ws = .ok db →
        Published ((db.users.find? fun u => u.email = ownerEmail).map (·.id))
          (manifest.map (·.seedKey)) db) (publish ownerEmail existing manifest) st tr
      (.open_ []) := by
  unfold publish await
  refine Prog.post_bind.mpr (Prog.Post.mono ?_ (statusOwner_alone hexisting))
  rintro ⟨st₁, tr₁⟩ s r ⟨hdb, howner⟩
  cases r with
  | error e => exact ⟨hdb, fun a ws ha => (nomatch ha)⟩
  | ok ownerId =>
      obtain ⟨ws, rfl, haccount⟩ := howner ownerId rfl
      -- the upserts leave the account as it is
      refine Prog.post_bind.mpr (Prog.Post.mono ?_ (Prog.Only.post
        (I := fun x s => InTransaction st.db (Account ownerEmail ownerId) x.1 s)
        (P := fun o => o.Within ∧ o.Keeps fun _ db => Account ownerEmail ownerId db)
        (fun choice x s o _ ho hin => handle_inTransaction choice x.1 s o ho.1 ho.2 hin)
        (upsertStatusMonitors_only ?_ ?_) ⟨hdb, .inr ⟨ws, rfl, haccount⟩⟩))
      · rintro ⟨st₂, tr₂⟩ s r ⟨hdb, hs⟩
        cases r with
        | error e => exact ⟨hdb, fun a ws ha => (nomatch ha)⟩
        | ok _ =>
            rcases hs with rfl | ⟨ws, rfl, haccount⟩
            · exact alone_sql_aborted rfl fun seq e => ⟨hdb, fun a ws ha => (nomatch ha)⟩
            · refine alone_sql (fun seq e => ⟨hdb, fun a ws ha => (nomatch ha)⟩)
                (fun out hq => (nomatch hq)) fun moment seq out more db hplan hreplay => ?_
              cases hplan
              -- the last statement hides what the manifest does not list, so the rest is listed
              refine ⟨hdb, fun a ws' ha hws db' hdb' => ?_⟩
              cases hws
              have hfinal := replay_eq_foldl hdb'
              rw [List.foldl_append, hdb] at hfinal
              have husers : db'.users = (ws.foldl Write.apply st.db).users := by
                rw [hfinal, foldl_hide]
              rintro m hm hpublic
              rw [hfinal] at hm
              obtain ⟨-, hmatches⟩ := public_of_hide hm hpublic
              obtain ⟨rfl, hkey⟩ := hiddenRows_matches hmatches hpublic
              exact ⟨by rw [husers]; exact haccount, hkey⟩
      · exact ⟨Op.within_now, Op.keeps_of_not_sql fun _ h => (nomatch h)⟩
      · rintro m - now
        refine ⟨Op.within_sql _, (upsertMonitor_keepsUsers _ _ _ _).keeps ?_⟩
        intro w hw db _ haccount
        rw [Account, hw]
        exact haccount

end Publish

/-- How the seed ends: only monitors of the configured account with a key of the manifest are
public, or it has thrown and changed nothing. Thrown, it may have published if a reply was lost. -/
structure SeedEnd (A : Choice → Prop) (rt : Runtime) (manifest : Json) (db : Db)
    (x : Store × List Event) (s : Session) (r : Except ApiError Nat) : Prop where
  idle : s = .idle
  thrown : ∀ e, r = .error e → x.1.db = db ∨
    Loses A ∧ Published (statusAccount rt x.1.db) (statusKeys manifest) x.1.db
  published : ∀ n, r = .ok n → Published (statusAccount rt x.1.db) (statusKeys manifest) x.1.db

theorem SeedEnd.unchanged {A : Choice → Prop} {rt : Runtime} {manifest : Json} {db : Db}
    {st : Store} {tr : List Event} {e : ApiError} (h : st.db = db) :
    SeedEnd A rt manifest db (st, tr) .idle (.error e) :=
  ⟨rfl, fun _ _ => .inl h, fun _ hn => (nomatch hn)⟩

theorem seedOwner_alone {A : Choice → Prop} {rt : Runtime} {ms : List StatusMonitor}
    {manifest : Json} {ownerEmail : String} (hkeys : ms.map (·.seedKey) = statusKeys manifest)
    (howner : statusOwnerEmail rt = some ownerEmail) (st : Store) (tr : List Event) :
    Alone A (SeedEnd A rt manifest st.db) (seedOwner ownerEmail ms) st tr .idle := by
  refine alone_sql_idle (fun seq e => .unchanged rfl) (fun out hq => (nomatch hq))
    (fun moment seq existing writes db hplan hreplay => ?_)
    fun hloses moment seq existing writes db e hplan hreplay => ?_
  · cases hplan
    cases hreplay
    show Alone A (SeedEnd A rt manifest st.db) (if _ then _ else _) _ _ _
    split
    · exact .unchanged rfl
    · refine Prog.post_bind.mpr (Prog.Post.mono ?_ (alone_transaction fun tr =>
        publish_alone (rfl : st.db.users.find? (fun u => u.email = ownerEmail) = _)))
      rintro ⟨st', tr'⟩ s r ⟨rfl, herr, hok⟩
      have haccount : ∀ db : Db, (db.users.find? fun u => u.email = ownerEmail).map (·.id) =
          statusAccount rt db := by
        intro db
        rw [statusAccount, howner]
        rfl
      refine ⟨rfl, fun e he => ?_, fun n hn => ?_⟩
      · cases r with
        | error e' =>
            rcases herr e' rfl with hdb | ⟨hloses, -, hpublished⟩
            · exact .inl hdb
            · rw [haccount, hkeys] at hpublished
              exact .inr ⟨hloses, hpublished⟩
        | ok _ => cases he
      · cases r with
        | error e' => cases hn
        | ok n' =>
            rw [← hkeys, ← haccount]
            exact hok n' rfl
  · -- the reply that is lost is to a query
    cases hplan
    cases hreplay
    exact .unchanged rfl

/-- What is accepted is what is configured. -/
theorem StatusSeed.accept_ok {rt : Runtime} {manifest : Json} {ownerEmail : Option String}
    {ms : List StatusMonitor} (h : StatusSeed.accept rt manifest = .ok (ownerEmail, ms)) :
    statusOwnerEmail rt = ownerEmail ∧ ms.map (·.seedKey) = statusKeys manifest := by
  unfold StatusSeed.accept at h
  split at h
  · split at h
    · cases h
    · rename_i hms
      split at h
      · rename_i howner
        cases h
        exact ⟨howner, readStatusManifest_keys hms⟩
      · rename_i howner
        split at h
        · cases h
        · split at h
          · cases h
          · cases h
            exact ⟨howner, readStatusManifest_keys hms⟩
  · cases h

/-- **The seed publishes what it is told, or changes nothing**, and throws only if it changes
nothing or a reply is lost. -/
theorem StatusSeed.seed_alone {A : Choice → Prop} (rt : Runtime) (manifest : Json) (st : Store)
    (tr : List Event) :
    Alone A (SeedEnd A rt manifest st.db) (StatusSeed.seed rt manifest) st tr .idle := by
  unfold StatusSeed.seed
  split
  · exact .unchanged rfl
  · refine Prog.Post.mono ?_ (alone_transaction (R := fun db _ =>
      Published (statusAccount rt db) (statusKeys manifest) db) fun tr => ?_)
    · rintro ⟨st', tr'⟩ s r ⟨hs, herr, hok⟩
      exact ⟨hs, fun e he => (herr e he).imp id fun ⟨hloses, _, h⟩ => ⟨hloses, h⟩, hok⟩
    · refine alone_sql (fun seq e => ⟨rfl, fun a ws ha => (nomatch ha)⟩)
        (fun out hq => (nomatch hq)) fun moment seq out more db hplan hreplay => ?_
      cases hplan
      refine ⟨rfl, fun a ws ha hws db' hdb' m hm hpublic => ?_⟩
      cases hws
      rw [replay_eq_foldl hdb'] at hm
      obtain ⟨-, hmatches⟩ := public_of_hide hm hpublic
      rw [Hide.matches, hpublic] at hmatches
      cases hmatches
  · rename_i ownerEmail ms haccept
    obtain ⟨howner, hkeys⟩ := StatusSeed.accept_ok haccept
    exact seedOwner_alone hkeys howner st tr

end Sentinel.Api
