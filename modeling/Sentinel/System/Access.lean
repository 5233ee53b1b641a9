import Sentinel.System.Login

/-!
# System — Access

An account, not the demo account, whose password nobody has, beside any number of registrations,
logins and requests of others.

* `Sheltered`: what belongs to the account is as it was, and its row as well.
* `Stranger`: a job is not a login with the password, and brings no token but one that was signed
  here or is not genuine.
* `account_sheltered`: then nobody reads or changes what belongs to the account, and nobody gets a
  token of it.
-/

namespace Sentinel.System

open Program Database Api Transition

variable {Token : Type} {lib : AuthLibrary Token} {u : User} {mine : Tenant}

/-- The row of an account is there, and what belongs to it is as it was. -/
structure Sheltered (u : User) (mine : Tenant) (st : Store) : Prop where
  isolated : Isolated u.id mine st.seq st.db
  distinct : Distinct st.db.identities
  row : u ∈ st.db.users

/-- The token is not of the account. -/
def Strange (lib : AuthLibrary Token) (u : User) (token : Token) : Prop :=
  ∀ now claims, lib.verify lib.secret now token = some claims → claims.sub ≠ u.email

/-- The account is sheltered, and no token was signed for it. -/
def Shelters (lib : AuthLibrary Token) (u : User) (mine : Tenant) (realm : Realm Token) : Prop :=
  Sheltered u mine realm.1 ∧ ∀ token ∈ realm.2, Strange lib u token

/-- Nothing that a job ends with is of the account. -/
def Outcome.Spares (lib : AuthLibrary Token) (u : User) (mine : Tenant) : Outcome Token → Prop
  | .registered dto | .me dto => dto.id ≠ u.id
  | .signedIn token => Strange lib u token
  | .reply r => r.Spares u.id mine
  | .done _ => True

/-! ### The row -/

theorem Sheltered.eq_of_email {st : Store} (h : Sheltered u mine st) {v : User}
    (hv : v ∈ st.db.users) (hemail : v.email = u.email) : v = u := by
  have hidentity : v.identity = u.identity :=
    h.distinct.eq_of_email (List.mem_map_of_mem hv) (List.mem_map_of_mem h.row) hemail
  exact List.inj_on_of_nodup_map h.isolated.keyed.users hv h.row
    (congrArg Identity.id hidentity)

/-- Another email is of another account. -/
theorem Sheltered.id_ne {st : Store} (h : Sheltered u mine st) {v : User} (hv : v ∈ st.db.users)
    (hemail : v.email ≠ u.email) : v.id ≠ u.id := by
  intro hid
  exact hemail (congrArg User.email
    (List.inj_on_of_nodup_map h.isolated.keyed.users hv h.row hid))

theorem Sheltered.mono {st : Store} (h : Sheltered u mine st) {seq : Seq} (hle : st.seq.Le seq) :
    Sheltered u mine { st with seq := seq } :=
  ⟨h.isolated.mono hle, h.distinct, h.row⟩

/-- **A new account is another one**, with a new number. -/
theorem Sheltered.createUser {st : Store} (h : Sheltered u mine st) (choice : Choice)
    (data : NewUser) :
    Sheltered u mine (Session.idle.send choice st (.createUser data)).1 ∧
      Descends st (Session.idle.send choice st (.createUser data)).1 ∧
      (Session.idle.send choice st (.createUser data)).2.1 = .idle ∧
      ∀ id, (Session.idle.send choice st (.createUser data)).2.2 = .ok id → id ≠ u.id := by
  have hidle := send_idle choice st (.createUser data)
  have hcases := Session.send_cases choice st .idle (.createUser data)
  generalize Session.idle.send choice st (.createUser data) = r at hidle hcases ⊢
  cases hcases with
  | failed hs hseq =>
      exact ⟨h.mono hseq, .sequences hseq, hidle, fun id hid => (nomatch hid)⟩
  | aborted hs => exact absurd rfl hs
  | noRows hout => cases hout
  | @committed seq out ws db r hs hplan hreplay hr =>
      have hkeyed := keeps_keyed _ _ rfl _ _ _ _ _ _ _ hplan hreplay h.isolated.keyed
      have hseq := Sql.plan_seq choice.moment st.seq st.db (.createUser data)
      rw [hplan] at hseq
      have hdistinct := h.distinct.replay hreplay
      cases hplan
      cases (replay_cons.mp hreplay).2
      refine ⟨⟨⟨⟨h.isolated.tenant, h.isolated.checkResults, h.isolated.alerts⟩, hkeyed⟩,
        hdistinct, List.mem_append_left _ h.row⟩, ⟨hseq.monitors, fun m hm _ => ⟨m, hm, rfl, rfl⟩⟩,
        rfl, fun id hid => ?_⟩
      rcases hr with rfl | ⟨e, -, rfl⟩
      · cases hid
        exact Int.ne_of_gt (h.isolated.keyed.usersBelow u h.row)
      · cases hid
  | buffered hs => cases hs

/-! ### The jobs -/

section Jobs

variable {α β : Type}

/-- A program that keeps the account sheltered, and ends in `Q`. -/
abbrev Shields (lib : AuthLibrary Token) (u : User) (mine : Tenant) (Q : Session → α → Prop)
    (p : AuthClient Token α) : Prop :=
  Assures lib (fun _ => True) (Shelters lib u mine) (fun r r' => Descends r.1 r'.1) Q p

/-- What a program ends with, unless it throws, is in `R`. -/
def EndsWith (R : α → Prop) (s : Session) (r : Except AuthError α) : Prop :=
  s = .idle ∧ ∀ a, r = .ok a → R a

theorem endsWith_error {R : α → Prop} (e : AuthError) : EndsWith R .idle (.error e) :=
  ⟨rfl, fun _ h => (nomatch h)⟩

theorem endsWith_ok {R : α → Prop} {a : α} (h : R a) : EndsWith R .idle (.ok a) :=
  ⟨rfl, fun _ hb => Except.ok.inj hb ▸ h⟩

theorem throws_endsWith {R : α → Prop} : Throws (fun _ => True) (EndsWith R) :=
  fun _ e _ _ => endsWith_error (.database e)

theorem descends_refl (realm : Realm Token) : Descends realm.1 realm.1 := .refl realm.1

theorem shields_awaitAuth {p : AuthClient Token (Except AuthError α)}
    {k : α → AuthClient Token (Except AuthError β)} {R : α → Prop} {R' : β → Prop}
    (hp : Shields lib u mine (EndsWith R) p)
    (hk : ∀ a, R a → Shields lib u mine (EndsWith R') (k a)) :
    Shields lib u mine (EndsWith R') (awaitAuth p k) :=
  assures_awaitAuth (hp.mono fun _ _ h => ⟨h.1, h.2, fun e _ => endsWith_error e⟩) hk

/-- Nobody is registered as the account. -/
theorem insertUser_shields (dto : CreateUserDto) (hashedPassword : String) :
    Shields lib u mine (EndsWith fun dto' => dto'.id ≠ u.id) (insertUser dto hashedPassword) := by
  intro choice realm _ h
  refine ⟨h, descends_refl realm, fun choice' realm' _ h' => ?_⟩
  obtain ⟨hsheltered, hdescends, hidle, hid⟩ := h'.1.createUser choice'
    (dto.data hashedPassword choice.moment.now)
  refine ⟨⟨hsheltered, h'.2⟩, hdescends, ?_⟩
  show Prog.Under _ _ _ _ _ (Prog.bind (.ret (Session.idle.send choice' realm'.1
      (.createUser (dto.data hashedPassword choice.moment.now))).2.2) _)
    (Session.idle.send choice' realm'.1
      (.createUser (dto.data hashedPassword choice.moment.now))).2.1
  rw [hidle]
  generalize (Session.idle.send choice' realm'.1
    (.createUser (dto.data hashedPassword choice.moment.now))).2.2 = r at hid ⊢
  cases r with
  | error e => exact endsWith_error _
  | ok id => exact endsWith_ok (hid id rfl)

theorem register_shields (rt : Runtime) (body : Json) :
    Shields lib u mine (EndsWith fun dto => dto.id ≠ u.id) (Api.register lib rt body) := by
  unfold Api.register
  split
  · exact endsWith_error _
  · refine assures_lookup descends_refl throws_endsWith (looks_findByEmail _) fun _ _ => ?_
    split
    · exact endsWith_error _
    · refine assures_lookup descends_refl throws_endsWith (looks_findByUsername _) fun _ _ => ?_
      split
      · exact endsWith_error _
      · intro choice realm _ h
        refine ⟨h, descends_refl realm, ?_⟩
        show Prog.Under _ _ _ _ _ (Prog.bind (.ret choice.hashed) _) _
        cases choice.hashed with
        | error e => exact endsWith_error _
        | ok hashedPassword => exact insertUser_shields _ hashedPassword

/-- A token for another email is not of the account. -/
theorem signToken_shields {sub expiresIn : String} {isDemo : Bool} (hsub : sub ≠ u.email) :
    Shields lib u mine (EndsWith (Strange lib u)) (signToken sub isDemo expiresIn) := by
  refine assures_signToken descends_refl (fun realm iat exp h => ?_) fun e => endsWith_error _
  have hstrange : Strange lib u (lib.sign lib.secret ⟨sub, isDemo, iat, exp⟩) := by
    intro now claims hclaims
    rw [lib.verify_sign] at hclaims
    split at hclaims
    · cases hclaims
      exact hsub
    · cases hclaims
  refine ⟨⟨h.1, fun token htoken => ?_⟩, descends_refl realm, endsWith_ok hstrange⟩
  rcases List.mem_append.mp htoken with hold | hnew
  · exact h.2 token hold
  · rw [List.mem_singleton.mp hnew]
    exact hstrange

/-- A login without the password is not one of the account. -/
theorem login_shields (rt : Runtime) {x pass : String}
    (hpass : lib.verifyPassword u.password pass ≠ .ok true) :
    Shields lib u mine (EndsWith (Strange lib u)) (login rt x pass) := by
  refine shields_awaitAuth (R := fun user => ∀ v, user = some v → v.email ≠ u.email)
    (assures_authenticateUser descends_refl throws_endsWith (fun realm v h hv _ hverify => ?_) ?_)
    fun user huser => ?_
  · refine endsWith_ok fun w hw => ?_
    cases hw
    intro hemail
    rw [h.1.eq_of_email hv hemail] at hverify
    exact hpass hverify
  · exact endsWith_ok fun v hv => (nomatch hv)
  · cases user with
    | none => exact endsWith_error _
    | some v => exact signToken_shields (huser v rfl)

theorem demoLogin_shields (rt : Runtime) (hdemo : u.isDemo = false) :
    Shields lib u mine (EndsWith (Strange lib u)) (Api.demoLogin rt) := by
  unfold Api.demoLogin
  split
  · exact endsWith_error _
  · refine assures_lookup descends_refl throws_endsWith (looks_findByEmail _) fun realm h => ?_
    split
    · exact endsWith_error _
    · rename_i email hemail v hv
      obtain ⟨hfind, hflags⟩ := Option.filter_eq_some_iff.mp hv
      refine signToken_shields fun hsame => ?_
      rw [h.1.eq_of_email (List.mem_of_find?_eq_some hfind) hsame, hdemo, Bool.and_false] at hflags
      cases hflags

/-- The guard lets a stranger pass as another account. -/
theorem jwtAuthGuard_shields {token : Option Token}
    (htoken : ∀ t, token = some t → Strange lib u t) :
    Shields lib u mine (EndsWith fun user => user.id ≠ u.id) (jwtAuthGuard token) := by
  cases token with
  | none => exact endsWith_error _
  | some token =>
      refine assures_jwtAuthGuard descends_refl (fun _ _ _ => endsWith_error _)
        fun choice claims _ hverify => ?_
      have hsub := htoken token rfl _ claims hverify
      refine assures_validate descends_refl throws_endsWith (fun _ => endsWith_error _)
        (fun _ _ _ => endsWith_error _) fun realm v h hfind => ?_
      split
      · have hemail : v.email = claims.sub := by simpa using List.find?_some hfind
        exact endsWith_ok (h.1.id_ne (List.mem_of_find?_eq_some hfind) (hemail ▸ hsub))
      · exact endsWith_error _

theorem guarded_shields {token : Option Token} {R : β → Prop}
    {k : User → AuthClient Token (Except AuthError β)}
    (htoken : ∀ t, token = some t → Strange lib u t)
    (hk : ∀ user, user.id ≠ u.id → Shields lib u mine (EndsWith R) (k user)) :
    Shields lib u mine (EndsWith R) (guarded token k) :=
  shields_awaitAuth (jwtAuthGuard_shields htoken) fun _ _ =>
    shields_awaitAuth (jwtAuthGuard_shields htoken) hk

/-- An operation that creates no account leaves the accounts as they are. -/
theorem keepsUsers_of_enrols {o : Op} (h : Enrols (fun _ _ => False) o) : o.Writes KeepsUsers := by
  refine Op.writes_of_makes fun q hq w hw db => ?_
  subst hq
  cases hw with
  | createUser | createDemoUser | updateDemoUser => cases h
  | _ => rfl

/-- **A request of another account** keeps the account sheltered, and shows nothing of it. -/
theorem call_shields {call : Call} (huser : call.userId ≠ u.id) :
    Shields lib u mine (fun _ r => ∀ reply, r = .ok reply → reply.Spares u.id mine)
      (embed call.program) := by
  have hkeeps : ∀ (choice : Choice) (st : Store) (s : Session) (o : Op), o.Writes KeepsUsers →
      (∀ w ∈ s.writes, KeepsUsers w) → Distinct st.db.identities ∧ u ∈ st.db.users →
        (Distinct (handle choice st s o).1.db.identities ∧
          u ∈ (handle choice st s o).1.db.users) ∧
          ∀ w ∈ (handle choice st s o).2.1.writes, KeepsUsers w := by
    intro choice st s o ho hs h
    obtain ⟨⟨ws, hext, hws⟩, hs'⟩ := handle_writes ho choice st hs
    refine ⟨⟨h.1.replay hext.replayed, ?_⟩, hs'⟩
    refine replay_invariant (P := fun db => u ∈ db.users) (fun w hw db _ hdb => ?_) h.2
      hext.replayed
    rw [hws w hw db]
    exact hdb
  have hidle : ∀ w ∈ Session.idle.writes, KeepsUsers w :=
    fun w hw => absurd hw List.not_mem_nil
  have hbase : Prog.Extends handle AuthOp.base (fun _ r => r) (authHandle lib) :=
    fun _ _ _ _ => ⟨rfl, rfl, rfl⟩
  have hisolates : Isolates u.id mine (Reply.Spares u.id mine) call.program .idle :=
    Call.isolates huser
  have hshields := (hisolates.with_only hkeeps
    ((call_enrols call).mono fun _ => keepsUsers_of_enrols) hidle).embed hbase
    (X := fun issued => ∀ token ∈ issued, Strange lib u token)
  have hinv : (fun realm : Realm Token => (Isolated u.id mine realm.1.seq realm.1.db ∧
      Distinct realm.1.db.identities ∧ u ∈ realm.1.db.users) ∧
        ∀ token ∈ realm.2, Strange lib u token) = Shelters lib u mine := by
    ext realm
    exact ⟨fun h => ⟨⟨h.1.1, h.1.2.1, h.1.2.2⟩, h.2⟩,
      fun h => ⟨⟨h.1.isolated, h.1.distinct, h.1.row⟩, h.2⟩⟩
  rw [hinv] at hshields
  exact (hshields.guarantees fun _ _ h => h.1).mono fun _ _ h => h.2.2

/-- A token that is not forged: it was signed here, or it is not genuine. -/
def Unforged (lib : AuthLibrary Token) (issued : List Token) (token : Option Token) : Prop :=
  ∀ t, token = some t → t ∈ issued ∨ ∀ now, lib.verify lib.secret now t = none

/-- A job of somebody who does not have the password of the account. -/
def Job.Stranger (lib : AuthLibrary Token) (u : User) (issued : List Token) : Job Token → Prop
  | .login rt body => ∀ dto, LoginDto.ofBody lib rt body = .ok dto →
      lib.verifyPassword u.password dto.password ≠ .ok true
  | .getMe token | .request token _ => Unforged lib issued token
  | .register _ _ | .demoLogin _ => True
  | .operation _ => False

theorem strange_of_unforged {issued : List Token} {token : Option Token}
    (hissued : ∀ t ∈ issued, Strange lib u t) (h : Unforged lib issued token) :
    ∀ t, token = some t → Strange lib u t := by
  intro t ht
  rcases h t ht with hmem | hnone
  · exact hissued t hmem
  · intro now claims hclaims
    rw [hnone now] at hclaims
    cases hclaims

/-- What a job ends with is not of the account. -/
def Spared (lib : AuthLibrary Token) (u : User) (mine : Tenant) (_ : Session)
    (r : Except AuthError (Outcome Token)) : Prop :=
  ∀ o, r = .ok o → o.Spares lib u mine

theorem shields_finish {p : AuthClient Token (Except AuthError α)} {R : α → Prop}
    {f : α → Outcome Token} (hf : ∀ a, R a → (f a).Spares lib u mine)
    (hp : Shields lib u mine (EndsWith R) p) :
    Shields lib u mine (Spared lib u mine) (finish f p) := by
  refine Prog.under_bind.mpr (hp.mono ?_)
  rintro s (e | a) ⟨rfl, ha⟩ o ho
  · cases ho
  · cases ho
    exact hf a (ha a rfl)

/-- **A job of a stranger keeps the account sheltered.** -/
theorem job_shields (hdemo : u.isDemo = false) {issued : List Token}
    (hissued : ∀ t ∈ issued, Strange lib u t) {job : Job Token}
    (hjob : job.Stranger lib u issued) :
    Shields lib u mine (Spared lib u mine) (job.program lib) := by
  cases job with
  | register rt body => exact shields_finish (fun _ h => h) (register_shields rt body)
  | login rt body =>
      refine shields_finish (R := Strange lib u) (fun _ h => h) ?_
      unfold loginWith
      split
      · exact endsWith_error _
      · exact login_shields rt (hjob _ ‹_›)
  | demoLogin rt => exact shields_finish (fun _ h => h) (demoLogin_shields rt hdemo)
  | getMe token =>
      refine shields_finish (R := fun dto : UserResponseDto => dto.id ≠ u.id) (fun _ h => h) ?_
      exact guarded_shields (strange_of_unforged hissued hjob) fun user hid => endsWith_ok hid
  | request token route =>
      have hguard : Shields lib u mine (EndsWith fun user => user.id ≠ u.id) (jwtAuthGuard token) :=
        jwtAuthGuard_shields (strange_of_unforged hissued hjob)
      refine Prog.under_bind.mpr (assures_awaitAuth (R := fun _ => True)
        (hguard.mono fun _ _ h => ⟨h.1, fun _ _ => trivial, fun e _ o h => (nomatch h)⟩)
        fun _ _ => assures_awaitAuth (R := fun user => user.id ≠ u.id)
          (hguard.mono fun _ _ h => ⟨h.1, h.2, fun e _ o h => (nomatch h)⟩) fun user hid => ?_)
      have huser : (route.call (requester user)).userId ≠ u.id := by
        rw [Route.call_userId]
        exact hid
      refine Prog.under_bind.mpr ((call_shields huser).mono ?_)
      rintro s (e | reply) h o ho
      · cases ho
      · cases ho
        exact h reply rfl
  | operation o => cases hjob

end Jobs

/-! ### Any number of jobs -/

/-- An action that starts no job of somebody with the password. -/
def Service.Stranger (lib : AuthLibrary Token) (u : User) (s : Service Token) :
    Service.Action Token → Prop
  | .arrive job => job.Stranger lib u s.shared.2
  | .advance _ _ => True

/-- The account is sheltered, and every job that runs keeps it so. -/
structure Service.Sheltering (lib : AuthLibrary Token) (u : User) (mine : Tenant)
    (s : Service Token) : Prop where
  shared : Shelters lib u mine s.shared
  threads : ∀ t ∈ s.threads, t.Under (authHandle lib) (fun _ _ => True) (Shelters lib u mine)
    (fun r r' => Descends r.1 r'.1) (Spared lib u mine)

theorem Service.Sheltering.step {s s' : Service Token} {a : Service.Action Token}
    (hdemo : u.isDemo = false) (h : s.Sheltering lib u mine) (ha : Service.Stranger lib u s a)
    (hs : Service.step lib s a = some s') : s'.Sheltering lib u mine := by
  cases a with
  | arrive job =>
      cases hs
      refine ⟨h.shared, fun t ht => ?_⟩
      rcases List.mem_append.mp ht with hold | hnew
      · exact h.threads t hold
      · rw [List.mem_singleton.mp hnew]
        exact job_shields hdemo h.shared.2 ha
  | advance i choice =>
      obtain ⟨hshared, -, hthreads⟩ := Pool.advance_under h.shared h.threads trivial hs
      exact ⟨hshared, hthreads⟩

/-- **An account nobody has the password of**, unless it is the demo account, beside any
registrations, logins and requests of others, in any order of their operations and whatever fails:
the row of the account and what belongs to it stay as they are, and no job succeeds with a token of
the account or with anything of it. -/
theorem account_sheltered {st : Store} {issued : List Token} {s : Service Token}
    {as : List (Service.Action Token)} (hkeyed : Keyed st.seq st.db)
    (hresults : (st.db.checkResults.map (·.id)).Nodup) (halerts : (st.db.alerts.map (·.id)).Nodup)
    (hdistinct : Distinct st.db.identities) (hu : u ∈ st.db.users) (hdemo : u.isDemo = false)
    (hissued : ∀ token ∈ issued, Strange lib u token)
    (hrun : Guarded (Service.step lib) (Service.Stranger lib u) ⟨(st, issued), []⟩ as s) :
    u ∈ s.shared.1.db.users ∧ Tenant.of u.id s.shared.1.db = Tenant.of u.id st.db ∧
      ∀ i o, s.ended i = some (.ok o) → o.Spares lib u (Tenant.of u.id st.db) := by
  have hinit : Service.Sheltering lib u (Tenant.of u.id st.db) ⟨(st, issued), []⟩ :=
    ⟨⟨⟨⟨⟨rfl, hresults, halerts⟩, hkeyed⟩, hdistinct, hu⟩, hissued⟩, fun t ht => (nomatch ht)⟩
  have h := hrun.invariant (fun _ _ _ h ha hs => h.step hdemo ha hs) hinit
  refine ⟨h.shared.1.row, h.shared.1.isolated.tenant, fun i o hended => ?_⟩
  obtain ⟨t, ht, hresult⟩ := Service.thread_of_ended hended
  have hthread := h.threads t (List.mem_of_getElem? ht)
  rw [Thread.Under, Thread.prog_of_result hresult] at hthread
  exact hthread o rfl

/-- Somebody guesses a password, registers, and signs in. -/
def trespass : List (Service.Action (String × Claims)) :=
  [.arrive (.login statusRuntime (signInAs "ana")), proceedAt 0 0, proceedAt 0 0,
    .arrive (.register statusRuntime (registrationOf "eva" "eva@example.com")), proceedAt 1 0,
    proceedAt 1 0, proceedAt 1 0, proceedAt 1 0, proceedAt 1 0,
    .arrive (.login statusRuntime (signInAs "eva")), proceedAt 2 0, proceedAt 2 0, proceedAt 2 0,
    proceedAt 2 0]

/-- The state after it. -/
def trespassed : Service (String × Claims) :=
  (exec (Service.step plainLibrary) ⟨(twoTenants, []), []⟩ trespass).getD emptyService

/-- The new account asks for the monitor of another. -/
def intrusion : List (Service.Action (String × Claims)) :=
  [.arrive (.request (some ("secret", ⟨"eva@example.com", false, 0, 1800⟩)) (.deleteMonitor 1)),
    proceedAt 3 0, proceedAt 3 0, proceedAt 3 0, proceedAt 3 0, proceedAt 3 0]

/-- Its token gets it nowhere. -/
theorem account_sheltered_trespass : ∃ s,
    Run (Service.step plainLibrary) trespassed intrusion s ∧ (s.ended 3).isSome ∧
      account 1 "ana" ∈ s.shared.1.db.users ∧
      Tenant.of 1 s.shared.1.db = Tenant.of 1 twoTenants.db := by
  have hbefore : Run (Service.step plainLibrary) ⟨(twoTenants, []), []⟩ trespass trespassed :=
    run_of_exec rfl
  have hana : ∀ s, Service.Stranger plainLibrary (account 1 "ana") s
      (.arrive (.login statusRuntime (signInAs "ana"))) := by
    intro s dto hdto
    obtain rfl : (⟨"ana", "secret123"⟩ : LoginDto) = dto := Except.ok.inj hdto
    exact fun h => (nomatch h)
  have heva : ∀ s, Service.Stranger plainLibrary (account 1 "ana") s
      (.arrive (.login statusRuntime (signInAs "eva"))) := by
    intro s dto hdto
    obtain rfl : (⟨"eva", "secret123"⟩ : LoginDto) = dto := Except.ok.inj hdto
    exact fun h => (nomatch h)
  have hregister : ∀ s body, Service.Stranger plainLibrary (account 1 "ana") s
      (.arrive (.register statusRuntime body)) := fun _ _ => trivial
  have hproceed : ∀ s i, Service.Stranger plainLibrary (account 1 "ana") s (proceedAt i 0) :=
    fun _ _ => trivial
  have hall : ∀ a ∈ trespass, ∀ s, Service.Stranger plainLibrary (account 1 "ana") s a := by
    simp [trespass, hana, heva, hregister, hproceed]
  have htoken : Service.Stranger plainLibrary (account 1 "ana") trespassed
      (.arrive (.request (some ("secret", ⟨"eva@example.com", false, 0, 1800⟩))
        (.deleteMonitor 1))) := by
    intro token h
    cases h
    exact .inl (List.mem_singleton_self _)
  have hafter : Guarded (Service.step plainLibrary)
      (Service.Stranger plainLibrary (account 1 "ana")) trespassed intrusion _ :=
    .more htoken rfl (Guarded.of_run (fun a ha s => by simp_all) (run_of_exec rfl))
  obtain ⟨hrow, hmine, -⟩ := account_sheltered
    ⟨by decide, by decide, by decide, by decide, by decide⟩ (by decide) (by decide)
    ⟨by decide, by decide⟩ List.mem_cons_self rfl (fun token h => absurd h List.not_mem_nil)
    ((Guarded.of_run hall hbefore).append hafter)
  exact ⟨_, run_of_exec rfl, rfl, hrow, hmine⟩

end Sentinel.System
