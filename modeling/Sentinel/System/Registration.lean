import Sentinel.Library.Tickets
import Sentinel.System.Service

/-!
# System — Registration

Registrations look for the email, look for the username, and insert, in three statements, with any
other jobs in between.

* A registration that succeeds draws its account, which was not there (`register_draws`). So two of
  them have different accounts, and the unique indexes make these differ in both keys.
-/

namespace Sentinel.System

open Program Database Api Transition

variable {Token : Type} {lib : AuthLibrary Token}

/-- The accounts that are there. -/
def Enrolled (realm : Realm Token) (a : Identity) : Prop := a ∈ realm.1.db.identities

/-- What is known of an account that is registered. -/
structure Registered (lib : AuthLibrary Token) (dto : UserResponseDto) : Prop where
  isActive : dto.isActive = true
  isDemo : dto.isDemo = false
  username : usernamePattern dto.username = true
  email : lib.isEmail dto.email = true

/-- A job that ends with a registration has drawn its account. -/
def Receipt (lib : AuthLibrary Token) (_ : Session) (ticket : Option Identity)
    (r : Except AuthError (Outcome Token)) : Prop :=
  ∀ dto, r = .ok (.registered dto) → ticket = some (identityOf dto) ∧ Registered lib dto

theorem enrolled_mono (choice : Choice) (realm : Realm Token) (s : Session) (o : AuthOp Token)
    (a : Identity) (h : Enrolled realm a) : Enrolled (authHandle lib choice realm s o).1 a :=
  (authHandle_enrols lib choice realm s o).identities.subset h

/-! ### One job -/

section Job

variable {α β : Type} {Q : Session → Option Identity → α → Prop}

/-- Whatever a job does draws nothing. -/
theorem draws_nothing (p : AuthClient Token α) (s : Session) (ticket : Option Identity) :
    p.Safe (authHandle lib) (Draws Enrolled) (fun _ ticket' _ => ticket' = ticket) s ticket :=
  p.safe_draws enrolled_mono s ticket

/-- An operation that leaves the connection outside of a transaction and draws nothing. -/
theorem draws_idle {o : AuthOp Token} {k : o.Res → AuthClient Token α}
    (hidle : ∀ choice realm, (authHandle lib choice realm .idle o).2.1 = .idle)
    (hk : ∀ r, (k r).Safe (authHandle lib) (Draws Enrolled) Q .idle none) :
    (Prog.call o k).Safe (authHandle lib) (Draws Enrolled) Q .idle none := by
  intro choice realm
  refine ⟨none, ⟨enrolled_mono choice realm .idle o, .inl rfl⟩, ?_⟩
  rw [hidle]
  exact hk _

/-- A look for an account draws nothing. -/
theorem draws_lookup {key : User → Bool} {find : AuthClient Token (Except DbError (Option User))}
    (hfind : Looks lib key find) {k : Option User → AuthClient Token (Except AuthError β)}
    {Q : Session → Option Identity → Except AuthError β → Prop}
    (herr : ∀ e, Q .idle none (.error e))
    (hk : ∀ user, (k user).Safe (authHandle lib) (Draws Enrolled) Q .idle none) :
    (lookup find k).Safe (authHandle lib) (Draws Enrolled) Q .idle none := by
  obtain ⟨o, reply, rfl, hcases⟩ := hfind
  refine draws_idle (fun choice realm => (hcases choice realm).2.1) fun r => ?_
  show Prog.Safe _ _ _ (Prog.bind (.ret (reply r)) _) _ _
  cases reply r with
  | error e => exact herr _
  | ok user => exact hk user

/-- **An insert that succeeds draws the account**, which was not there. -/
theorem insertUser_draws {dto : CreateUserDto} (hdto : dto.Valid lib) (hashedPassword : String) :
    (insertUser dto hashedPassword).Safe (authHandle lib) (Draws Enrolled)
      (fun s ticket r => Receipt lib s ticket (r.map .registered)) .idle none := by
  refine draws_idle (fun _ _ => rfl) fun now choice realm => ?_
  show ∃ ticket, Draws Enrolled none realm ticket
      ((Session.idle.send choice realm.1 _).1, realm.2) ∧
    Prog.Safe (authHandle lib) (Draws Enrolled) _
      (Prog.bind (.ret (Session.idle.send choice realm.1 _).2.2) _)
      (Session.idle.send choice realm.1 _).2.1 ticket
  have hcases := Session.send_cases choice realm.1 .idle
    (.createUser (dto.data hashedPassword now))
  generalize Session.idle.send choice realm.1 _ = r at hcases ⊢
  have hsame : ∀ seq, Draws Enrolled none realm none ({ realm.1 with seq := seq }, realm.2) :=
    fun seq => ⟨fun _ h => h, .inl rfl⟩
  cases hcases with
  | failed => exact ⟨none, hsame _, fun dto h => (nomatch h)⟩
  | aborted hs => exact absurd rfl hs
  | noRows hout => cases hout
  | committed hs hplan hreplay hr =>
      cases hplan
      obtain ⟨hadmits, hdone⟩ := replay_cons.mp hreplay
      cases hdone
      have hnew := insertUser_admitted hadmits
      refine ⟨some ⟨realm.1.seq.users, dto.email, dto.username, true⟩,
        ⟨fun a ha => ?_, .inr ⟨rfl, _, rfl, fun hold => (hnew _ hold).1 rfl, ?_⟩⟩, ?_⟩
      · show a ∈ (Write.apply realm.1.db _).identities
        rw [Write.identities_apply]
        exact List.mem_append_left _ ha
      · show _ ∈ (Write.apply realm.1.db _).identities
        rw [Write.identities_apply]
        exact List.mem_append_right _ (List.mem_singleton_self _)
      · rcases hr with rfl | ⟨e, -, rfl⟩
        · rintro dto' h
          cases h
          exact ⟨rfl, rfl, rfl, hdto.username, hdto.email⟩
        · exact fun dto' h => (nomatch h)
  | buffered hs => cases hs

/-- A registration draws its account, if it succeeds. -/
theorem register_draws (rt : Runtime) (body : Json) :
    (Api.register lib rt body).Safe (authHandle lib) (Draws Enrolled)
      (fun s ticket r => Receipt lib s ticket (r.map .registered)) .idle none := by
  have herr : ∀ e : AuthError, Receipt lib .idle none
      ((Except.error e : Except AuthError UserResponseDto).map .registered) :=
    fun e dto h => (nomatch h)
  unfold Api.register
  cases hbody : CreateUserDto.ofBody lib rt body with
  | error faults => exact herr _
  | ok dto =>
      have hdto := CreateUserDto.ofBody_valid hbody
      refine draws_lookup (looks_findByEmail _) (fun _ => herr _) fun existingEmail => ?_
      split
      · exact herr _
      · refine draws_lookup (looks_findByUsername _) (fun _ => herr _) fun existingUsername => ?_
        split
        · exact herr _
        · refine draws_idle (fun _ _ => rfl) fun hashed => ?_
          cases hashed with
          | error e => exact herr _
          | ok hashedPassword => exact insertUser_draws hdto hashedPassword

/-- Every job draws the account it registers, if any. -/
theorem job_draws (job : Job Token) :
    Thread.Safe (authHandle lib) (Draws Enrolled) (Receipt lib) ⟨job.program lib, .idle⟩ none := by
  have hother : ∀ {β : Type} (f : β → Outcome Token) (p : AuthClient Token (Except AuthError β)),
      (∀ b dto, f b ≠ .registered dto) →
        (finish f p).Safe (authHandle lib) (Draws Enrolled) (Receipt lib) .idle none := by
    intro β f p hf
    refine Prog.safe_bind.mpr (Prog.Safe.mono ?_ (draws_nothing p .idle none))
    rintro s ticket (e | b) - dto h
    · cases h
    · exact absurd (Except.ok.inj h) (hf b dto)
  cases job with
  | register rt body => exact Prog.safe_bind.mpr (register_draws rt body)
  | login rt body => exact hother _ _ fun _ _ h => (nomatch h)
  | demoLogin rt => exact hother _ _ fun _ _ h => (nomatch h)
  | getMe token => exact hother _ _ fun _ _ h => (nomatch h)
  | request token route => exact hother _ _ fun _ _ h => (nomatch h)
  | operation o => exact hother _ _ fun _ _ h => (nomatch h)

end Job

/-! ### Any number of jobs -/

/-- In every run each registration that succeeds has an account of its own. -/
theorem drawn_run {realm : Realm Token} {s : Service Token} {as : List (Service.Action Token)}
    (hrun : Run (Service.step lib) ⟨realm, []⟩ as s) :
    ∃ tickets, Drawn Enrolled (authHandle lib) (Receipt lib) (Enrolled realm) s tickets := by
  refine hrun.invariant (I := fun s => ∃ tickets,
    Drawn Enrolled (authHandle lib) (Receipt lib) (Enrolled realm) s tickets) ?_
    ⟨_, Drawn.start realm⟩
  rintro s a s' ⟨tickets, h⟩ hs
  cases a with
  | arrive job =>
      cases hs
      exact ⟨tickets, h.spawn (job_draws job)⟩
  | advance i choice => exact h.advance hs

/-- **Registrations that run into one another** end with different accounts, in whichever order
their statements are performed and whatever fails: nobody gets an account that was there, or the
email or the username of another. -/
theorem registrations_distinct {st : Store} {issued : List Token} {s : Service Token}
    {as : List (Service.Action Token)} (hdistinct : Distinct st.db.identities)
    (hrun : Run (Service.step lib) ⟨(st, issued), []⟩ as s) :
    (st.db.identities <+: s.shared.1.db.identities ∧ Distinct s.shared.1.db.identities) ∧
      (∀ i dto, s.ended i = some (.ok (.registered dto)) →
        identityOf dto ∈ s.shared.1.db.identities ∧ identityOf dto ∉ st.db.identities ∧
          Registered lib dto) ∧
      ∀ i j a b, i ≠ j → s.ended i = some (.ok (.registered a)) →
        s.ended j = some (.ok (.registered b)) → a.email ≠ b.email ∧ a.username ≠ b.username := by
  obtain ⟨henrols, hkeeps⟩ := Service.run_enrols hrun
  have hdistinct' := hkeeps hdistinct
  obtain ⟨tickets, hdrawn⟩ := drawn_run hrun
  have hticket : ∀ i dto, s.ended i = some (.ok (.registered dto)) →
      tickets i = some (identityOf dto) ∧ Registered lib dto := by
    intro i dto hended
    obtain ⟨t, ht, hresult⟩ := Service.thread_of_ended hended
    exact hdrawn.ended ht hresult dto rfl
  refine ⟨⟨henrols.identities, hdistinct'⟩, fun i dto hended => ?_, fun i j a b hij ha hb => ?_⟩
  · obtain ⟨hdto, hregistered⟩ := hticket i dto hended
    obtain ⟨hthere, hnew⟩ := hdrawn.drawn i _ hdto
    exact ⟨hthere, hnew, hregistered⟩
  · have hida := (hticket i a ha).1
    have hidb := (hticket j b hb).1
    have hne : identityOf a ≠ identityOf b := fun heq =>
      hij (hdrawn.apart i j _ hida (heq ▸ hidb))
    have hina := (hdrawn.drawn i _ hida).1
    have hinb := (hdrawn.drawn j _ hidb).1
    exact ⟨fun h => hne (hdistinct'.eq_of_email hina hinb h),
      fun h => hne (hdistinct'.eq_of_username hina hinb h)⟩

/-- Two registrations of one email at the same time, and one of another. -/
theorem registrations_distinct_race : ∃ s a b,
    Run (Service.step plainLibrary) ⟨(⟨.empty, .first, []⟩, []), []⟩
      [.arrive (.register statusRuntime (registrationOf "ana" "ana@example.com")),
        .arrive (.register statusRuntime (registrationOf "ana2" "ana@example.com")),
        .arrive (.register statusRuntime (registrationOf "luis" "luis@example.com")),
        proceedAt 0 0, proceedAt 1 0, proceedAt 2 0, proceedAt 1 0, proceedAt 0 0, proceedAt 2 0,
        proceedAt 0 0, proceedAt 1 0, proceedAt 2 0, proceedAt 0 0, proceedAt 1 0, proceedAt 2 0,
        proceedAt 1 0, proceedAt 0 0, proceedAt 2 0] s ∧
      s.ended 0 = some (.error (.database uniqueViolation)) ∧
      s.ended 1 = some (.ok (.registered a)) ∧ s.ended 2 = some (.ok (.registered b)) ∧
      a.email ≠ b.email ∧ a.username ≠ b.username := by
  have hrun : Run (Service.step plainLibrary) ⟨(⟨.empty, .first, []⟩, []), []⟩
      [.arrive (.register statusRuntime (registrationOf "ana" "ana@example.com")),
        .arrive (.register statusRuntime (registrationOf "ana2" "ana@example.com")),
        .arrive (.register statusRuntime (registrationOf "luis" "luis@example.com")),
        proceedAt 0 0, proceedAt 1 0, proceedAt 2 0, proceedAt 1 0, proceedAt 0 0, proceedAt 2 0,
        proceedAt 0 0, proceedAt 1 0, proceedAt 2 0, proceedAt 0 0, proceedAt 1 0, proceedAt 2 0,
        proceedAt 1 0, proceedAt 0 0, proceedAt 2 0] _ := run_of_exec rfl
  have hdistinct : Distinct Db.empty.identities := ⟨List.nodup_nil, List.nodup_nil⟩
  exact ⟨_, _, _, hrun, rfl, rfl, rfl,
    (registrations_distinct hdistinct hrun).2.2 1 2 _ _ (by decide) rfl rfl⟩

end Sentinel.System
