import Sentinel.Library.Indexed
import Sentinel.System.Service

/-!
# System — Login

Logins and requests with a token, with any other jobs between their operations.

* `under_login`, `under_guarded`: what a login and the guard come to, whatever invariant holds of
  the tables all along. Each is from the rules of their operations.
* `Service.run_under`: so it holds of a job in any run that keeps the invariant.
* `token_names_account`: a token stands for the account it was signed for, until it expires.
* `WellNamed`: the username of an account is its own email, or has no `@` where its email has one.
  So no account is found by the email or by the username of another (`login_identifies`).
-/

namespace Sentinel.System

open Program Database Api Transition

variable {Token : Type} {lib : AuthLibrary Token}

section Rules

variable {A : Choice → Prop} {I : Realm Token → Prop} {G : Realm Token → Realm Token → Prop}
  {α β : Type} {Q : Session → Except AuthError β → Prop}

/-- A program that keeps `I` and `G` outside of transactions, and ends in `Q`. -/
abbrev Assures (lib : AuthLibrary Token) (A : Choice → Prop) (I : Realm Token → Prop)
    (G : Realm Token → Realm Token → Prop) (Q : Session → α → Prop) (p : AuthClient Token α) :
    Prop :=
  p.Under (authHandle lib) (fun _ choice => A choice) I G Q .idle

/-- An error of the database may be thrown. -/
def Throws (A : Choice → Prop) (Q : Session → Except AuthError β → Prop) : Prop :=
  ∀ choice e, A choice → choice.fault ≠ .none → Q .idle (.error (.database e))

/-- A look for an account goes on with what it has found, or throws. -/
theorem assures_lookup (hrefl : ∀ realm, G realm realm) (herr : Throws A Q) {key : User → Bool}
    {find : AuthClient Token (Except DbError (Option User))} (hfind : Looks lib key find)
    {k : Option User → AuthClient Token (Except AuthError β)}
    (hk : ∀ realm, I realm → Assures lib A I G Q (k (realm.1.db.users.find? key))) :
    Assures lib A I G Q (lookup find k) := by
  obtain ⟨o, reply, rfl, hcases⟩ := hfind
  intro choice realm hchoice hI
  obtain ⟨hrealm, hidle, hreply⟩ := hcases choice realm
  rw [hrealm, hidle]
  refine ⟨hI, hrefl realm, ?_⟩
  show Prog.Under _ _ _ _ _ (Prog.bind (.ret (reply (authHandle lib choice realm .idle o).2.2)) _) _
  rcases hreply with hok | ⟨hfault, e, he⟩
  · rw [hok]
    exact hk realm hI
  · rw [he]
    exact herr choice e hchoice hfault

theorem assures_awaitAuth {p : AuthClient Token (Except AuthError α)}
    {k : α → AuthClient Token (Except AuthError β)} {R : α → Prop}
    (hp : Assures lib A I G (fun s r => s = .idle ∧ (∀ a, r = .ok a → R a) ∧
      ∀ e, r = .error e → Q .idle (.error e)) p)
    (hk : ∀ a, R a → Assures lib A I G Q (k a)) : Assures lib A I G Q (awaitAuth p k) := by
  refine Prog.under_bind.mpr (Prog.Under.mono ?_ hp)
  rintro s (e | a) ⟨rfl, hok, herr⟩
  · exact herr e rfl
  · exact hk a (hok a rfl)

/-- The account of an identifier. -/
def Answers (x : String) (u : User) : Prop := u.email = x ∨ u.username = x

theorem assures_findIdentified (hrefl : ∀ realm, G realm realm) (herr : Throws A Q) {x : String}
    {k : Option User → AuthClient Token (Except AuthError β)}
    (hsome : ∀ realm u, I realm → u ∈ realm.1.db.users → Answers x u →
      Assures lib A I G Q (k (some u)))
    (hnone : Assures lib A I G Q (k none)) : Assures lib A I G Q (findIdentified x k) := by
  refine assures_lookup hrefl herr (looks_findByEmail _) fun realm hI => ?_
  cases hfind : realm.1.db.users.find? (·.email = x) with
  | some u =>
      exact hsome realm u hI (List.mem_of_find?_eq_some hfind)
        (.inl (by simpa using List.find?_some hfind))
  | none =>
      refine assures_lookup hrefl herr (looks_findByUsername _) fun realm hI => ?_
      cases hfind : realm.1.db.users.find? (·.username = x) with
      | some u =>
          exact hsome realm u hI (List.mem_of_find?_eq_some hfind)
            (.inr (by simpa using List.find?_some hfind))
      | none => exact hnone

/-- Who is authenticated answers to the identifier and has the password. -/
theorem assures_authenticateUser (hrefl : ∀ realm, G realm realm) {x pass : String}
    {Q : Session → Except AuthError (Option User) → Prop} (herr : Throws A Q)
    (hsome : ∀ realm u, I realm → u ∈ realm.1.db.users → Answers x u →
      lib.verifyPassword u.password pass = .ok true → Q .idle (.ok (some u)))
    (hnone : Q .idle (.ok none)) : Assures lib A I G Q (authenticateUser x pass) := by
  refine assures_findIdentified hrefl herr (fun realm u hI hu hx => ?_) hnone
  intro choice realm' _ hI'
  refine ⟨hI', hrefl realm', ?_⟩
  show Prog.Under _ _ _ _ _ (Prog.bind (.ret (lib.verifyPassword u.password pass)) _) _
  cases hverify : lib.verifyPassword u.password pass with
  | error e => exact hnone
  | ok valid =>
      cases valid with
      | false => exact hnone
      | true => exact hsome realm u hI hu hx hverify

/-- A token is signed with the secret, for the account and the flag that are given. -/
theorem assures_signToken {sub expiresIn : String} {isDemo : Bool}
    {Q : Session → Except AuthError Token → Prop} (hrefl : ∀ realm, G realm realm)
    (hsign : ∀ realm iat exp, I realm →
      I (realm.1, realm.2 ++ [lib.sign lib.secret ⟨sub, isDemo, iat, exp⟩]) ∧
        G realm (realm.1, realm.2 ++ [lib.sign lib.secret ⟨sub, isDemo, iat, exp⟩]) ∧
        Q .idle (.ok (lib.sign lib.secret ⟨sub, isDemo, iat, exp⟩)))
    (herr : ∀ e, Q .idle (.error (.thrown e))) :
    Assures lib A I G Q (signToken sub isDemo expiresIn) := by
  intro choice realm _ hI
  simp only [authHandle]
  split
  · exact ⟨hI, hrefl realm, herr _⟩
  · exact hsign realm _ _ hI

/-- Who gets past the strategy is the account of the claims, and active. -/
theorem assures_validate (hrefl : ∀ realm, G realm realm) {claims : Claims}
    {Q : Session → Except AuthError User → Prop} (herr : Throws A Q)
    (hempty : claims.sub = "" → Q .idle (.error (.unauthorized "Could not validate credentials")))
    (hmissing : ∀ realm, I realm → realm.1.db.users.find? (·.email = claims.sub) = none →
      Q .idle (.error (.unauthorized "Could not validate credentials")))
    (hfound : ∀ realm u, I realm → realm.1.db.users.find? (·.email = claims.sub) = some u →
      Q .idle (if u.isActive then .ok u else .error (.badRequest "Inactive user"))) :
    Assures lib A I G Q (validate claims) := by
  unfold validate
  split
  · exact hempty ‹_›
  · refine assures_lookup hrefl herr (looks_findByEmail _) fun realm hI => ?_
    cases hfind : realm.1.db.users.find? (·.email = claims.sub) with
    | none => exact hmissing realm hI hfind
    | some u =>
        have hend := hfound realm u hI hfind
        show Prog.Under _ _ _ _ _ (if u.isActive = true then _ else _) _
        split at hend
        · rw [if_pos ‹_›]
          exact hend
        · rw [if_neg ‹_›]
          exact hend

theorem assures_jwtAuthGuard (hrefl : ∀ realm, G realm realm) {token : Token}
    {Q : Session → Except AuthError User → Prop}
    (hnone : ∀ choice, A choice → lib.verify lib.secret (Choice.seconds choice) token = none →
      Q .idle (.error (.unauthorized "Not authenticated")))
    (hclaims : ∀ choice claims, A choice →
      lib.verify lib.secret (Choice.seconds choice) token = some claims →
        Assures lib A I G Q (validate claims)) :
    Assures lib A I G Q (jwtAuthGuard (some token)) := by
  intro choice realm hchoice hI
  refine ⟨hI, hrefl realm, ?_⟩
  show Prog.Under _ _ _ _ _
    (Prog.bind (.ret (lib.verify lib.secret (Choice.seconds choice) token)) _) _
  cases hverify : lib.verify lib.secret (Choice.seconds choice) token with
  | none => exact hnone choice hchoice hverify
  | some claims => exact hclaims choice claims hchoice hverify

end Rules

/-! ### One job among others -/

/-- **What a job keeps among others holds of it in every run** that keeps the invariant. -/
theorem Service.run_under {A : Choice → Prop} {I : Realm Token → Prop}
    {G : Realm Token → Realm Token → Prop}
    {Q : Session → Except AuthError (Outcome Token) → Prop} {Inv : Service Token → Prop}
    (hinv : ∀ s a s', Inv s → Service.step lib s a = some s' → Inv s')
    (hI : ∀ s, Inv s → I s.shared) {i : Nat} {s s' : Service Token}
    {as : List (Service.Action Token)}
    (hrun : Guarded (Service.step lib) (fun _ a => ∀ choice, a = .advance i choice → A choice) s as
      s')
    (h : Inv s) {t : Thread (AuthOp Token) AuthOp.Res Session (Except AuthError (Outcome Token))}
    (ht : s.threads[i]? = some t)
    (hunder : t.Under (authHandle lib) (fun _ choice => A choice) I G Q) :
    Inv s' ∧ ∃ t', s'.threads[i]? = some t' ∧
      t'.Under (authHandle lib) (fun _ choice => A choice) I G Q := by
  induction hrun generalizing t with
  | refl s => exact ⟨h, t, ht, hunder⟩
  | @more s s₁ s' a as hA hs _ ih =>
      have h₁ := hinv s a s₁ h hs
      cases a with
      | arrive job =>
          cases hs
          exact ih h₁ (Indexed.concat_of_some ht) hunder
      | advance j choice =>
          obtain ⟨-, u, u', -, hu, -, -, hset, hstep⟩ := Pool.advance_cases hs
          by_cases hij : j = i
          · subst hij
            obtain rfl := Option.some.inj (ht.symm.trans hu)
            obtain ⟨-, -, hunder'⟩ := hunder.step (hA choice rfl) (hI s h) hstep
            exact ih h₁ (by rw [hset]; exact Indexed.set_of_some ht) hunder'
          · exact ih h₁ (by rw [hset, List.getElem?_set_ne hij]; exact ht) hunder

theorem Service.under_ended {A : Choice → Prop} {I : Realm Token → Prop}
    {G : Realm Token → Realm Token → Prop}
    {Q : Session → Except AuthError (Outcome Token) → Prop} {i : Nat} {s : Service Token}
    (h : ∃ t, s.threads[i]? = some t ∧
      t.Under (authHandle lib) (fun _ choice => A choice) I G Q)
    {r : Except AuthError (Outcome Token)} (hr : s.ended i = some r) : ∃ own, Q own r := by
  obtain ⟨t, ht, hunder⟩ := h
  obtain ⟨t', ht', hresult⟩ := Service.thread_of_ended hr
  obtain rfl := Option.some.inj (ht.symm.trans ht')
  rw [Thread.Under, Thread.prog_of_result hresult] at hunder
  exact ⟨_, hunder⟩

/-! ### The account of a token -/

/-- No two accounts share an email or a username, and this one is there. -/
structure Known (a : Identity) (realm : Realm Token) : Prop where
  distinct : Distinct realm.1.db.identities
  there : a ∈ realm.1.db.identities

theorem Known.step {a : Identity} {s s' : Service Token} {action : Service.Action Token}
    (h : Known a s.shared) (hs : Service.step lib s action = some s') : Known a s'.shared := by
  obtain ⟨henrols, hdistinct⟩ := Service.run_enrols (Run.one hs)
  exact ⟨hdistinct h.distinct, henrols.identities.subset h.there⟩

/-- An account is found by its email. -/
theorem Known.find {a : Identity} {realm : Realm Token} (h : Known a realm) :
    ∃ u ∈ realm.1.db.users, realm.1.db.users.find? (·.email = a.email) = some u ∧ u.identity = a :=
  h.distinct.find_email h.there

/-- Why the token of an account is refused, by what the environment may have decided. -/
def TokenRefused (A : Choice → Prop) (a : Identity) (exp : Int) (e : AuthError) : Prop :=
  (e = .badRequest "Inactive user" ∧ a.isActive = false) ∨
    (e = .unauthorized "Not authenticated" ∧ ∃ choice, A choice ∧ exp ≤ Choice.seconds choice) ∨
    ∃ d choice, e = .database d ∧ A choice ∧ choice.fault ≠ .none

section Token

variable {a : Identity}

/-- The guard lets the account of a token pass, if it is active, or refuses the token. -/
theorem guard_names (lib : AuthLibrary Token) (A : Choice → Prop) (isDemo : Bool) (iat exp : Int)
    (hsub : a.email ≠ "") :
    Assures lib A (Known a) (fun _ _ => True)
      (fun s r => s = .idle ∧ (∀ u, r = .ok u → u.identity = a ∧ a.isActive = true ∧
          ∃ choice, A choice ∧ Choice.seconds choice < exp) ∧
        ∀ e, r = .error e → TokenRefused A a exp e)
      (jwtAuthGuard (some (lib.sign lib.secret ⟨a.email, isDemo, iat, exp⟩))) := by
  have hrefused : ∀ e, TokenRefused A a exp e →
      (Session.idle = .idle ∧ (∀ u, (Except.error e : Except AuthError User) = .ok u →
          u.identity = a ∧ a.isActive = true ∧ ∃ choice, A choice ∧ Choice.seconds choice < exp) ∧
        ∀ e', (Except.error e : Except AuthError User) = .error e' → TokenRefused A a exp e') := by
    intro e he
    refine ⟨rfl, fun u hu => (nomatch hu), fun e' he' => ?_⟩
    cases he'
    exact he
  refine assures_jwtAuthGuard (fun _ => trivial) (fun choice hchoice hverify => ?_)
    fun choice claims hchoice hverify => ?_
  · rw [lib.verify_sign] at hverify
    split at hverify
    · cases hverify
    · exact hrefused _ (.inr (.inl ⟨rfl, choice, hchoice, Int.not_lt.mp ‹_›⟩))
  · rw [lib.verify_sign] at hverify
    split at hverify
    · rename_i hbefore
      cases hverify
      refine assures_validate (fun _ => trivial)
        (fun choice e hchoice hfault => hrefused _ (.inr (.inr ⟨e, choice, rfl, hchoice, hfault⟩)))
        (fun h => absurd h hsub) (fun realm hI hmissing => ?_) fun realm u hI hfound => ?_
      · obtain ⟨u, -, hfind, -⟩ := hI.find
        rw [hmissing] at hfind
        cases hfind
      · obtain ⟨v, -, hfind, hv⟩ := hI.find
        rw [hfound] at hfind
        cases hfind
        have hactive : u.isActive = a.isActive := congrArg Identity.isActive hv
        split
        · rename_i hu
          refine ⟨rfl, fun w hw => ?_, fun e he => (nomatch he)⟩
          cases hw
          exact ⟨hv, hactive ▸ hu, choice, hchoice, hbefore⟩
        · rename_i hu
          exact hrefused _ (.inl ⟨rfl, hactive ▸ eq_false_of_ne_true hu⟩)
    · cases hverify

/-- `GET /users/me` with a token of an account. -/
theorem getMe_names (lib : AuthLibrary Token) (A : Choice → Prop) (isDemo : Bool) (iat exp : Int)
    (hsub : a.email ≠ "") :
    Assures lib A (Known a) (fun _ _ => True)
      (fun _ r => (∃ dto, r = .ok (.me dto) ∧ identityOf dto = a ∧ a.isActive = true ∧
          ∃ choice, A choice ∧ Choice.seconds choice < exp) ∨
        ∃ e, r = .error e ∧ TokenRefused A a exp e)
      (Job.program lib (.getMe (some (lib.sign lib.secret ⟨a.email, isDemo, iat, exp⟩)))) := by
  have hguard := guard_names lib A isDemo iat exp hsub
  refine Prog.under_bind.mpr (assures_awaitAuth (R := fun _ => True) (hguard.mono ?_) fun _ _ =>
    assures_awaitAuth (R := fun u => u.identity = a ∧ a.isActive = true ∧
      ∃ choice, A choice ∧ Choice.seconds choice < exp) (hguard.mono ?_) fun u hu => ?_)
  · exact fun s r h => ⟨h.1, fun _ _ => trivial, fun e he => .inr ⟨e, rfl, h.2.2 e he⟩⟩
  · exact fun s r h => ⟨h.1, h.2.1, fun e he => .inr ⟨e, rfl, h.2.2 e he⟩⟩
  · exact .inl ⟨_, rfl, hu.1, hu.2⟩

end Token

/-- **A token stands for the account it was signed for until it expires**, whatever other jobs do
meanwhile. It is refused for nothing but what the answer says, by an operation of the request
itself. -/
theorem token_names_account {s s' : Service Token} {as : List (Service.Action Token)}
    {a : Identity} {isDemo : Bool} {iat exp : Int}
    (hdistinct : Distinct s.shared.1.db.identities) (ha : a ∈ s.shared.1.db.identities)
    (hsub : a.email ≠ "")
    (hrun : Run (Service.step lib) s
      (.arrive (.getMe (some (lib.sign lib.secret ⟨a.email, isDemo, iat, exp⟩))) :: as) s')
    {r : Except AuthError (Outcome Token)} (hr : s'.ended s.threads.length = some r) :
    (∃ dto, r = .ok (.me dto) ∧ identityOf dto = a ∧ a.isActive = true ∧
        ∃ choice, .advance s.threads.length choice ∈ as ∧ Choice.seconds choice < exp) ∨
      ∃ e, r = .error e ∧
        TokenRefused (fun choice => .advance s.threads.length choice ∈ as) a exp e := by
  cases hrun with
  | more hs hrest =>
      cases hs
      have hguarded : Guarded (Service.step lib) (fun _ action => ∀ choice,
          action = .advance s.threads.length choice → .advance s.threads.length choice ∈ as) _ as
          s' :=
        Guarded.of_run (fun action haction _ choice heq => heq ▸ haction) hrest
      have hjob := getMe_names lib (fun choice => .advance s.threads.length choice ∈ as) isDemo iat
        exp hsub
      obtain ⟨-, hthread⟩ := Service.run_under (fun _ _ _ h hs => Known.step h hs)
        (fun _ h => h) hguarded ⟨hdistinct, ha⟩ (Indexed.concat_last _ _) hjob
      obtain ⟨-, hend⟩ := Service.under_ended hthread hr
      exact hend

/-- A request of the one account of two, with a registration beside it. The token says that the
account is the demo, and the tables say that it is not. -/
theorem token_names_account_beside : ∃ s' dto,
    Run (Service.step plainLibrary) ⟨(twoTenants, []), []⟩
      [.arrive (.getMe (some ("secret", ⟨"ana", true, 0, 1800⟩))),
        .arrive (.register statusRuntime (registrationOf "eva" "eva@example.com")),
        proceedAt 0 60, proceedAt 1 60, proceedAt 0 60, proceedAt 1 60, proceedAt 1 61,
        proceedAt 0 1799, proceedAt 1 1900, proceedAt 1 1900, proceedAt 0 1900] s' ∧
      s'.ended 0 = some (.ok (.me dto)) ∧ dto.isDemo = false ∧
      identityOf dto = ⟨1, "ana", "ana", true⟩ := by
  have hrun : Run (Service.step plainLibrary) ⟨(twoTenants, []), []⟩
      [.arrive (.getMe (some ("secret", ⟨"ana", true, 0, 1800⟩))),
        .arrive (.register statusRuntime (registrationOf "eva" "eva@example.com")),
        proceedAt 0 60, proceedAt 1 60, proceedAt 0 60, proceedAt 1 60, proceedAt 1 61,
        proceedAt 0 1799, proceedAt 1 1900, proceedAt 1 1900, proceedAt 0 1900] _ := run_of_exec rfl
  have hdistinct : Distinct twoTenants.db.identities := ⟨by decide, by decide⟩
  refine ⟨_, _, hrun, rfl, rfl, ?_⟩
  rcases token_names_account (a := ⟨1, "ana", "ana", true⟩) hdistinct (by decide) (by decide) hrun
    rfl with ⟨dto, hdto, hid, -⟩ | ⟨e, he, -⟩
  · cases hdto
    exact hid
  · cases he

/-! ### The account of an identifier -/

/-- The username is the email, or the two cannot be taken for one another. -/
def WellNamed (email username : String) : Prop :=
  username = email ∨ '@' ∉ username.toList ∧ '@' ∈ email.toList

/-- The account that an identifier names. -/
def Names (x : String) (a : Identity) : Prop := a.email = x ∨ a.username = x

/-- **An identifier names one account.** -/
theorem names_unique {identities : List Identity} (h : Distinct identities)
    (hnamed : ∀ a ∈ identities, WellNamed a.email a.username) {a b : Identity} {x : String}
    (ha : a ∈ identities) (hb : b ∈ identities) (hax : Names x a) (hbx : Names x b) : a = b := by
  -- an email that is another's username is the other's email as well
  have hcross : ∀ {a b : Identity}, a ∈ identities → b ∈ identities → a.email = b.username →
      a = b := by
    intro a b ha hb hab
    rcases hnamed b hb with hsame | ⟨hno, -⟩
    · exact h.eq_of_email ha hb (hab.trans hsame)
    · rcases hnamed a ha with hsame | ⟨-, hat⟩
      · exact h.eq_of_username ha hb (hsame.trans hab)
      · rw [hab] at hat
        exact absurd hat hno
  rcases hax with rfl | rfl <;> rcases hbx with hb' | hb'
  · exact h.eq_of_email ha hb hb'.symm
  · exact hcross ha hb hb'.symm
  · exact (hcross hb ha hb').symm
  · exact h.eq_of_username ha hb hb'.symm

/-- What is registered is well named. -/
theorem wellNamed_of_valid {dto : CreateUserDto} (h : dto.Valid lib) :
    WellNamed dto.email dto.username := by
  refine .inr ⟨fun hat => ?_, lib.isEmail_at _ h.email⟩
  have hall := (Bool.and_eq_true_iff.mp h.username).2
  exact absurd (List.all_eq_true.mp hall '@' hat) (by decide)

/-- The operation inserts only accounts that are well named. -/
def NamesWell : AuthOp Token → Prop
  | .base o => Enrols WellNamed o
  | _ => True

theorem namesWell_of_reads (o : AuthOp Token) (ho : Reads o) : NamesWell o := by
  cases o with
  | base o =>
      cases o with
      | sql q => cases q <;> trivial
      | _ => trivial
  | _ => trivial

theorem embed_namesWell {α : Type} {p : Client α} (hp : p.Only (Enrols WellNamed)) :
    (embed p : AuthClient Token α).Only NamesWell :=
  Prog.Only.embed (f := AuthOp.base) (P := Enrols WellNamed) (fun _ h => h) hp

/-- A registration inserts only an account that is well named. -/
theorem register_namesWell (rt : Runtime) (body : Json) :
    (Api.register lib rt body).Only NamesWell := by
  unfold Api.register
  cases hbody : CreateUserDto.ofBody lib rt body with
  | error faults => trivial
  | ok dto =>
      have hnamed := wellNamed_of_valid (CreateUserDto.ofBody_valid hbody)
      refine only_lookup ((findByEmail_reads _).mono namesWell_of_reads) fun existingEmail => ?_
      split
      · trivial
      · refine only_lookup ((findByUsername_reads _).mono namesWell_of_reads)
          fun existingUsername => ?_
        split
        · trivial
        · refine Prog.only_bind (fun hashed => ?_) (embed_namesWell (Prog.only_op trivial))
          cases hashed with
          | error e => trivial
          | ok hashedPassword =>
              refine Prog.only_bind (fun now => ?_) (embed_namesWell (Prog.only_op trivial))
              refine Prog.only_bind (fun r => ?_) (embed_namesWell (Prog.only_op hnamed))
              cases r <;> trivial

/-- **Every job inserts only accounts that are well named.** -/
theorem job_namesWell (job : Job Token) : (job.program lib).Only NamesWell := by
  have hfinish : ∀ {β : Type} {p : AuthClient Token (Except AuthError β)}
      (f : β → Outcome Token), p.Only NamesWell → (finish f p).Only NamesWell :=
    fun f hp => Prog.only_bind (fun _ => Prog.only_ret) hp
  cases job with
  | register rt body => exact hfinish _ (register_namesWell rt body)
  | login rt body => exact hfinish _ ((loginWith_reads lib rt body).mono namesWell_of_reads)
  | demoLogin rt => exact hfinish _ ((demoLogin_reads rt).mono namesWell_of_reads)
  | getMe token =>
      exact hfinish _ (guarded_only namesWell_of_reads fun _ => trivial)
  | request token route =>
      refine hfinish _ (guarded_only namesWell_of_reads fun user => ?_)
      exact Prog.only_bind (fun _ => Prog.only_ret) (embed_namesWell (call_enrols _))
  | operation o =>
      refine hfinish _ (Prog.only_bind (fun _ => Prog.only_ret) (embed_namesWell ?_))
      exact operation_enrols (fun _ => .inl rfl) o

/-- The accounts are well named, and so are those that are still to come. -/
structure Named (s : Service Token) : Prop where
  distinct : Distinct s.shared.1.db.identities
  named : ∀ a ∈ s.shared.1.db.identities, WellNamed a.email a.username
  jobs : ∀ t ∈ s.threads, t.prog.Only NamesWell
  buffers : ∀ t ∈ s.threads, ∀ w ∈ t.own.writes, Write.Enrols WellNamed w

/-- An operation of a job appends only accounts that are well named. -/
theorem authHandle_named (lib : AuthLibrary Token) (choice : Choice) (realm : Realm Token)
    (own : Session) (o : AuthOp Token) (ho : NamesWell o)
    (hown : ∀ w ∈ own.writes, Write.Enrols WellNamed w)
    (h : ∀ a ∈ realm.1.db.identities, WellNamed a.email a.username) :
    (∀ a ∈ (authHandle lib choice realm own o).1.1.db.identities,
        WellNamed a.email a.username) ∧
      ∀ w ∈ (authHandle lib choice realm own o).2.1.writes, Write.Enrols WellNamed w := by
  cases o with
  | base o =>
      obtain ⟨⟨ws, hext, hws⟩, hown'⟩ := handle_writes (Enrols.writes ho) choice realm.1 hown
      refine ⟨fun a ha => ?_, hown'⟩
      rw [show (authHandle lib choice realm own (.base o)).1.1 = (handle choice realm.1 own o).1
        from rfl, replay_eq_foldl hext.replayed, identities_foldl] at ha
      rcases List.mem_append.mp ha with hold | hnew
      · exact h a hold
      · obtain ⟨w, hw, hwa⟩ := List.mem_filterMap.mp hnew
        exact hws w hw a hwa
  | findUniqueUsername username =>
      refine ⟨h, fun w hw => hown w ?_⟩
      revert hw
      show w ∈ (lookUp choice realm.1 own username).1.writes → w ∈ own.writes
      unfold lookUp
      cases choice.fault <;> cases own <;> simp [Session.writes, Session.fail]
  | sign sub isDemo expiresIn =>
      simp only [authHandle]
      split <;> exact ⟨h, hown⟩
  | verifyHash | verify => exact ⟨h, hown⟩

theorem Named.step {s s' : Service Token} {action : Service.Action Token} (h : Named s)
    (hs : Service.step lib s action = some s') : Named s' := by
  have hdistinct := (Service.run_enrols (Run.one hs)).2 h.distinct
  cases action with
  | arrive job =>
      cases hs
      refine ⟨hdistinct, h.named, fun t ht => ?_, fun t ht => ?_⟩ <;>
        rcases List.mem_append.mp ht with ht | ht
      · exact h.jobs t ht
      · rw [List.mem_singleton.mp ht]
        exact job_namesWell job
      · exact h.buffers t ht
      · rw [List.mem_singleton.mp ht]
        exact fun w hw => (nomatch hw)
  | advance i choice =>
      obtain ⟨before, t, t', after, -, hthreads, hthreads', -, hstep⟩ := Pool.advance_cases hs
      have hmem : t ∈ s.threads := by
        rw [hthreads]
        exact List.mem_append_right _ List.mem_cons_self
      have honly := h.jobs t hmem
      obtain ⟨o, k, hprog, hshared, ht'⟩ := Thread.step_cases hstep
      rw [hprog] at honly
      obtain ⟨hnamed, hown⟩ := authHandle_named lib choice s.shared t.own o honly.1
        (h.buffers t hmem) h.named
      have hothers : ∀ u ∈ s'.threads, u ∈ s.threads ∨ u = t' := by
        intro u hu
        rw [hthreads'] at hu
        rw [hthreads]
        simp only [List.mem_append, List.mem_cons] at hu ⊢
        tauto
      refine ⟨hdistinct, hshared ▸ hnamed, fun u hu => ?_, fun u hu => ?_⟩ <;>
        rcases hothers u hu with hu | rfl
      · exact h.jobs u hu
      · rw [ht']
        exact honly.2 _
      · exact h.buffers u hu
      · rw [ht']
        exact hown

/-- An account with a name of its own. -/
structure NamedApart (a : Identity) (realm : Realm Token) : Prop extends Known a realm where
  named : ∀ b ∈ realm.1.db.identities, WellNamed b.email b.username

/-- A login with an identifier of an account ends with a token of that account, if it ends with a
token. -/
theorem login_names (rt : Runtime) {body : Json} {dto : LoginDto} {a : Identity}
    (hbody : LoginDto.ofBody lib rt body = .ok dto) (hname : Names dto.username a) :
    Assures lib (fun _ => True) (NamedApart a) (fun _ _ => True)
      (fun _ r => ∀ token, r = .ok (.signedIn token) →
        ∃ isDemo iat exp, token = lib.sign lib.secret ⟨a.email, isDemo, iat, exp⟩)
      (Job.program lib (.login rt body)) := by
  refine Prog.under_bind.mpr ?_
  rw [loginWith, hbody]
  refine assures_awaitAuth (R := fun user => ∀ u, user = some u → u.identity = a)
    (assures_authenticateUser (fun _ => trivial) (fun _ e _ _ => ?_) (fun realm u hI hu hx _ => ?_)
      ?_) fun user huser => ?_
  · exact ⟨rfl, fun _ h => (nomatch h), fun _ _ _ h => (nomatch h)⟩
  · refine ⟨rfl, fun user h => ?_, fun _ h => (nomatch h)⟩
    cases h
    rintro v hv
    cases hv
    exact names_unique hI.distinct hI.named (List.mem_map_of_mem hu) hI.there hx hname
  · refine ⟨rfl, fun user h => ?_, fun _ h => (nomatch h)⟩
    cases h
    exact fun u hu => (nomatch hu)
  · cases user with
    | none => exact fun _ h => (nomatch h)
    | some u =>
        have hemail : u.email = a.email := congrArg Identity.email (huser u rfl)
        refine assures_signToken (fun _ => trivial) (fun realm iat exp hI => ⟨⟨⟨hI.distinct,
          hI.there⟩, hI.named⟩, trivial, fun token h => ?_⟩) fun e token h => (nomatch h)
        cases h
        exact ⟨_, iat, exp, by rw [hemail]⟩

/-- **An identifier names one account for good**, and a login with it only ever ends with a token of
that account, whatever others register, before, meanwhile or after. -/
theorem login_identifies {realm : Realm Token} {s s' : Service Token}
    {as bs : List (Service.Action Token)} {rt : Runtime} {body : Json} {dto : LoginDto}
    {a : Identity} (hdistinct : Distinct realm.1.db.identities)
    (hnamed : ∀ b ∈ realm.1.db.identities, WellNamed b.email b.username)
    (hrun : Run (Service.step lib) ⟨realm, []⟩ as s) (ha : a ∈ s.shared.1.db.identities)
    (hbody : LoginDto.ofBody lib rt body = .ok dto) (hname : Names dto.username a)
    (hrun' : Run (Service.step lib) s (.arrive (.login rt body) :: bs) s') :
    (∀ b ∈ s'.shared.1.db.identities, Names dto.username b → b = a) ∧
      ∀ token, s'.ended s.threads.length = some (.ok (.signedIn token)) →
        ∃ isDemo iat exp, token = lib.sign lib.secret ⟨a.email, isDemo, iat, exp⟩ := by
  have hinit : Named (⟨realm, []⟩ : Service Token) :=
    ⟨hdistinct, hnamed, fun t ht => (nomatch ht), fun t ht => (nomatch ht)⟩
  have hs := hrun.invariant (fun _ _ _ h hs => Named.step h hs) hinit
  have hs' := hrun'.invariant (fun _ _ _ h hs => Named.step h hs) hs
  have ha' := (Service.run_enrols hrun').1.identities.subset ha
  refine ⟨fun b hb hbx => names_unique hs'.distinct hs'.named hb ha' hbx hname, ?_⟩
  intro token htoken
  cases hrun' with
  | more harrive hrest =>
      have harrived := hs.step harrive
      cases harrive
      have hstep : ∀ (s : Service Token) action s₁, Named s ∧ a ∈ s.shared.1.db.identities →
          Service.step lib s action = some s₁ → Named s₁ ∧ a ∈ s₁.shared.1.db.identities :=
        fun s action s₁ h hs => ⟨h.1.step hs,
          (Service.run_enrols (Run.one hs)).1.identities.subset h.2⟩
      obtain ⟨-, hthread⟩ := Service.run_under hstep
        (fun s h => ⟨⟨h.1.distinct, h.2⟩, h.1.named⟩)
        (Guarded.of_run (fun _ _ _ _ _ => trivial) hrest) ⟨harrived, ha⟩
        (Indexed.concat_last _ _) (login_names rt hbody hname)
      obtain ⟨-, hend⟩ := Service.under_ended hthread htoken
      exact hend token rfl

def signInAs (username : String) : Json :=
  .obj [("username", .str username), ("password", .str "secret123")]

def emptyService : Service (String × Claims) := ⟨(⟨.empty, .first, []⟩, []), []⟩

/-- A registration. -/
def registerAna : List (Service.Action (String × Claims)) :=
  [.arrive (.register statusRuntime (registrationOf "ana" "ana@example.com")), proceedAt 0 0,
    proceedAt 0 0, proceedAt 0 0, proceedAt 0 0, proceedAt 0 0]

/-- The state after it. -/
def registeredAna : Service (String × Claims) :=
  (exec (Service.step plainLibrary) emptyService registerAna).getD emptyService

/-- A login by the username of an account, which was registered before. -/
theorem login_identifies_registered : ∃ s' token,
    Run (Service.step plainLibrary) emptyService registerAna registeredAna ∧
    Run (Service.step plainLibrary) registeredAna
      [.arrive (.login statusRuntime (signInAs "ana")), proceedAt 1 5, proceedAt 1 5,
        proceedAt 1 5, proceedAt 1 5] s' ∧
      s'.ended 1 = some (.ok (.signedIn token)) ∧
      ∃ isDemo iat exp, token = ("secret", ⟨"ana@example.com", isDemo, iat, exp⟩) := by
  have hrun : Run (Service.step plainLibrary) emptyService registerAna registeredAna :=
    run_of_exec rfl
  have hrun' : Run (Service.step plainLibrary) registeredAna
      [.arrive (.login statusRuntime (signInAs "ana")), proceedAt 1 5, proceedAt 1 5,
        proceedAt 1 5, proceedAt 1 5] _ := run_of_exec rfl
  have hdistinct : Distinct Db.empty.identities := ⟨List.nodup_nil, List.nodup_nil⟩
  refine ⟨_, _, hrun, hrun', rfl, ?_⟩
  exact (login_identifies (a := ⟨1, "ana@example.com", "ana", true⟩) hdistinct
    (fun b hb => absurd hb List.not_mem_nil) hrun (List.mem_singleton_self _) rfl (.inr rfl)
    hrun').2 _ rfl

end Sentinel.System
