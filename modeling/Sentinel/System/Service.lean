import Sentinel.Api.Accounts
import Sentinel.Database.Identity
import Sentinel.System.Isolation
import Sentinel.System.Operations

/-!
# System — Service

The API as it is reached from outside, beside everything else that writes to the tables: any number
of registrations, logins and requests with a bearer token, which perform their operations in any
order.

* `Job`: what arrives, with the program it runs. `Service` is the pool of them.
* `authHandle_enrols`: whatever any of them does, accounts are only appended.
* `Enrols P`: an operation that inserts only accounts whose email and username are in `P`.
-/

namespace Sentinel.System

open Program Database Api Worker Transition

/-- A route of the monitors. -/
inductive Route where
  | createMonitor (rt : Runtime) (dto : CreateMonitorDto)
  | getMonitorsByUser
  | updateMonitor (rt : Runtime) (monitorId : Int) (dto : UpdateMonitorDto)
  | deleteMonitor (monitorId : Int)
  | getHistory (monitorId : Int) (limit : Option Int)
  | getAlerts (monitorId : Int) (limit : Option Int)

/-- The request of a user on a route. -/
def Route.call (user : Requester) : Route → Call
  | .createMonitor rt dto => .createMonitor rt dto user
  | .getMonitorsByUser => .getMonitorsByUser user.id
  | .updateMonitor rt monitorId dto => .updateMonitor rt monitorId user dto
  | .deleteMonitor monitorId => .deleteMonitor monitorId user.id
  | .getHistory monitorId limit => .getHistory monitorId user.id limit
  | .getAlerts monitorId limit => .getAlerts monitorId user.id limit

theorem Route.call_userId (route : Route) (user : Requester) :
    (route.call user).userId = user.id := by
  cases route <;> rfl

variable {Token : Type}

inductive Job (Token : Type) where
  | register (rt : Runtime) (body : Json)
  | login (rt : Runtime) (body : Json)
  | demoLogin (rt : Runtime)
  | getMe (token : Option Token)
  | request (token : Option Token) (route : Route)
  /-- A seed, or a program of the worker. -/
  | operation (o : Operation)

/-- What a job ends with. -/
inductive Outcome (Token : Type) where
  | registered (user : UserResponseDto)
  | signedIn (token : Token)
  | me (user : UserResponseDto)
  | reply (r : Reply)
  | done (ok : Bool)

/-- What identifies the account of a response. -/
def identityOf (dto : UserResponseDto) : Identity :=
  ⟨dto.id, dto.email, dto.username, dto.isActive⟩

/-- The requester that the guard gives to the handlers. -/
def requester (user : User) : Requester := ⟨user.id, user.isDemo⟩

/-- A request on a route, for the account of its token. -/
def serve (token : Option Token) (route : Route) : AuthClient Token (Except AuthError Reply) :=
  guarded token fun user => do
    let r ← embed (route.call (requester user)).program
    return r.mapError .service

/-- `UsersController.getMe`. -/
def getMe (token : Option Token) : AuthClient Token (Except AuthError UserResponseDto) :=
  guarded token fun user => return .ok (UserResponseDto.fromEntity user)

/-- An operation, which nothing is thrown out of. -/
def perform (o : Operation) : AuthClient Token (Except AuthError Bool) := do
  let ok ← embed o.program
  return .ok ok

/-- A program with what it ends with as an outcome. -/
def finish {β : Type} (f : β → Outcome Token) (p : AuthClient Token (Except AuthError β)) :
    AuthClient Token (Except AuthError (Outcome Token)) := do
  let r ← p
  return r.map f

def Job.program (lib : AuthLibrary Token) : Job Token →
    AuthClient Token (Except AuthError (Outcome Token))
  | .register rt body => finish .registered (Api.register lib rt body)
  | .login rt body => finish .signedIn (loginWith lib rt body)
  | .demoLogin rt => finish .signedIn (Api.demoLogin rt)
  | .getMe token => finish .me (System.getMe token)
  | .request token route => finish .reply (serve token route)
  | .operation o => finish .done (perform o)

/-- The jobs that have arrived, over the tables and the tokens. -/
abbrev Service (Token : Type) :=
  Pool (AuthOp Token) AuthOp.Res (Realm Token) Session (Except AuthError (Outcome Token))

inductive Service.Action (Token : Type) where
  | arrive (job : Job Token)
  /-- The next operation of a job. -/
  | advance (i : Nat) (choice : Choice)

def Service.step (lib : AuthLibrary Token) (s : Service Token) :
    Service.Action Token → Option (Service Token)
  | .arrive job => some (s.spawn ⟨job.program lib, .idle⟩)
  | .advance i choice => s.advance (authHandle lib) i choice

/-- What the job that arrived at this place has ended with, if it has ended. -/
def Service.ended (s : Service Token) (i : Nat) : Option (Except AuthError (Outcome Token)) :=
  (s.threads[i]?).bind Thread.result

theorem Service.thread_of_ended {s : Service Token} {i : Nat}
    {r : Except AuthError (Outcome Token)} (h : s.ended i = some r) :
    ∃ t, s.threads[i]? = some t ∧ t.result = some r :=
  Option.bind_eq_some_iff.mp h

/-! ### Looking for an account -/

/-- A look for an account by its email leaves everything as it is. -/
theorem send_findUniqueUser (choice : Choice) (st : Store) (email : String) :
    (Session.idle.send choice st (.findUniqueUser email)).1 = st ∧
      (Session.idle.send choice st (.findUniqueUser email)).2.1 = .idle ∧
      ((Session.idle.send choice st (.findUniqueUser email)).2.2 =
          .ok (st.db.users.find? (·.email = email)) ∨
        choice.fault ≠ .none ∧
          ∃ e, (Session.idle.send choice st (.findUniqueUser email)).2.2 = .error e) := by
  have hcommit : (({ st with seq := st.seq } : Store).commit st.db []) = st := by
    rw [Store.commit, List.append_nil]
  cases hfault : choice.fault with
  | fails e =>
      simp only [Session.send, hfault]
      exact ⟨trivial, rfl, .inr ⟨Fault.noConfusion, e, rfl⟩⟩
  | none =>
      simp only [Session.send, hfault, Session.perform, Sql.execute, Sql.plan, replay, hcommit]
      exact ⟨trivial, trivial, .inl rfl⟩
  | noRows =>
      simp only [Session.send, hfault, Sql.noRows, Session.perform, Sql.execute, Sql.plan, replay,
        hcommit]
      exact ⟨trivial, trivial, .inl rfl⟩
  | lostReply e =>
      simp only [Session.send, hfault, Session.perform, Sql.execute, Sql.plan, replay, hcommit]
      exact ⟨trivial, trivial, .inr ⟨Fault.noConfusion, e, rfl⟩⟩

theorem lookUp_cases (choice : Choice) (st : Store) (username : String) :
    (lookUp choice st .idle username).1 = .idle ∧
      ((lookUp choice st .idle username).2 =
          .ok (st.db.users.find? (·.username = username)) ∨
        choice.fault ≠ .none ∧ ∃ e, (lookUp choice st .idle username).2 = .error e) := by
  unfold lookUp
  cases hfault : choice.fault with
  | fails e => exact ⟨rfl, .inr ⟨Fault.noConfusion, e, rfl⟩⟩
  | lostReply e => exact ⟨rfl, .inr ⟨Fault.noConfusion, e, rfl⟩⟩
  | none | noRows => exact ⟨rfl, .inl rfl⟩

/-- A program that looks, outside of transactions, for the first account with a key, and leaves
everything as it is. -/
def Looks (lib : AuthLibrary Token) (key : User → Bool)
    (find : AuthClient Token (Except DbError (Option User))) : Prop :=
  ∃ o, ∃ reply : AuthOp.Res o → Except DbError (Option User),
    find = .call o (fun r => .ret (reply r)) ∧ ∀ choice realm,
      (authHandle lib choice realm .idle o).1 = realm ∧
        (authHandle lib choice realm .idle o).2.1 = .idle ∧
        (reply (authHandle lib choice realm .idle o).2.2 = .ok (realm.1.db.users.find? key) ∨
          choice.fault ≠ .none ∧
            ∃ e, reply (authHandle lib choice realm .idle o).2.2 = .error e)

theorem looks_findByEmail {lib : AuthLibrary Token} (email : String) :
    Looks lib (·.email = email) (findByEmail email) := by
  refine ⟨.base (.sql (.findUniqueUser email)), id, rfl, fun choice realm => ?_⟩
  obtain ⟨hst, hidle, hreply⟩ := send_findUniqueUser choice realm.1 email
  exact ⟨Prod.ext hst rfl, hidle, hreply⟩

theorem looks_findByUsername {lib : AuthLibrary Token} (username : String) :
    Looks lib (·.username = username) (findByUsername username) := by
  refine ⟨.findUniqueUsername username, id, rfl, fun choice realm => ?_⟩
  obtain ⟨hidle, hreply⟩ := lookUp_cases choice realm.1 username
  exact ⟨rfl, hidle, hreply⟩

/-! ### What an operation does to the accounts -/

section Handler

variable (lib : AuthLibrary Token) (choice : Choice) (realm : Realm Token) (s : Session)

/-- An operation is one of the other programs, or leaves the store. -/
theorem authHandle_store (o : AuthOp Token) :
    (authHandle lib choice realm s o).1.1 = realm.1 ∨
      ∃ o', o = .base o' ∧
        (authHandle lib choice realm s o).1.1 = (handle choice realm.1 s o').1 := by
  cases o with
  | base o => exact .inr ⟨o, rfl, rfl⟩
  | sign sub isDemo expiresIn =>
      left
      simp only [authHandle]
      split <;> rfl
  | findUniqueUsername | verifyHash | verify => exact .inl rfl

/-- **Whatever a job does, accounts are only appended.** -/
theorem authHandle_enrols (o : AuthOp Token) :
    realm.1.Enrols (authHandle lib choice realm s o).1.1 := by
  rcases authHandle_store lib choice realm s o with h | ⟨o', rfl, h⟩
  · rw [h]
    exact .refl _
  · exact handle_enrols choice realm.1 s o'

theorem authHandle_distinct (o : AuthOp Token) (h : Distinct realm.1.db.identities) :
    Distinct (authHandle lib choice realm s o).1.1.db.identities := by
  rcases authHandle_store lib choice realm s o with hsame | ⟨o', rfl, hsame⟩
  · rwa [hsame]
  · exact handle_distinct choice realm.1 s o' h

end Handler

/-- **What every operation keeps holds after every run**, whatever the jobs are. -/
theorem Service.run_keeps {lib : AuthLibrary Token} {I : Realm Token → Prop}
    (hI : ∀ choice realm s o, I realm → I (authHandle lib choice realm s o).1)
    {s s' : Service Token} {as : List (Service.Action Token)}
    (hrun : Run (Service.step lib) s as s') (h : I s.shared) : I s'.shared := by
  refine hrun.invariant (I := fun s => I s.shared) (fun s a s' h hs => ?_) h
  cases a with
  | arrive job =>
      cases hs
      exact h
  | advance i choice =>
      obtain ⟨-, t, t', -, -, -, -, -, hstep⟩ := Pool.advance_cases hs
      obtain ⟨o, k, -, hshared, -⟩ := Thread.step_cases hstep
      rw [hshared]
      exact hI choice s.shared t.own o h

/-- In every run accounts are only appended, and the unique indexes hold. -/
theorem Service.run_enrols {lib : AuthLibrary Token} {s s' : Service Token}
    {as : List (Service.Action Token)} (hrun : Run (Service.step lib) s as s') :
    s.shared.1.Enrols s'.shared.1 ∧
      (Distinct s.shared.1.db.identities → Distinct s'.shared.1.db.identities) :=
  ⟨Service.run_keeps (I := fun realm => s.shared.1.Enrols realm.1)
      (fun choice realm t o h => h.trans (authHandle_enrols lib choice realm t o)) hrun (.refl _),
    Service.run_keeps (I := fun realm => Distinct realm.1.db.identities)
      (authHandle_distinct lib) hrun⟩

/-! ### The accounts an operation inserts -/

/-- The change inserts only an account whose email and username are in `P`. -/
def Write.Enrols (P : String → String → Prop) (w : Write) : Prop :=
  ∀ a, w.identity = some a → P a.email a.username

/-- The operation inserts only such accounts. -/
def Enrols (P : String → String → Prop) : Op → Prop
  | .sql (.createUser data) | .sql (.upsertDemoUser data) => P data.email data.username
  | _ => True

variable {P : String → String → Prop}

theorem Enrols.writes {o : Op} (h : Enrols P o) : o.Writes (Write.Enrols P) := by
  refine Op.writes_of_makes fun q hq w hw a ha => ?_
  subst hq
  cases hw with
  | createUser | createDemoUser =>
      cases ha
      exact h
  | _ => cases ha

/-- A program of the worker creates no account. -/
theorem writerSends_enrols {o : Op} (h : WriterSends o) : Enrols P o := by
  rcases h with h | h | h <;> cases h <;> trivial

theorem checkSends_enrols {m : Checker.Monitor} {thresholds : List Int} {o : Op}
    (h : CheckSends m thresholds o) : Enrols P o := by
  cases h <;> trivial

/-- A request on a route creates no account. -/
theorem call_enrols (call : Call) : call.program.Only (Enrols P) := by
  have hret : ∀ {α : Type} {p : Client (Except ApiError α)} (f : α → Reply),
      p.Only (Enrols P) → (p >>= fun r => pure (r.map f)).Only (Enrols P) :=
    fun f hp => Prog.only_bind (fun _ => Prog.only_ret) hp
  have hsends : ∀ {userId : Int} {o : Op}, Sends userId o → Enrols P o :=
    fun h => writerSends_enrols (.request h)
  have hread : ∀ {α : Type} {monitorId userId : Int} {read : Client (Except ApiError α)},
      read.Only (Enrols P) → (readOwned monitorId userId read).Only (Enrols P) := by
    intro α monitorId userId read hp
    refine only_query trivial fun monitor => ?_
    split
    · trivial
    · split
      · trivial
      · exact hp
  cases call with
  | createMonitor rt dto user =>
      exact hret _ ((createMonitor_sends rt dto user).mono fun _ => hsends)
  | getMonitorsByUser userId => exact hret _ (only_query trivial fun _ => trivial)
  | updateMonitor rt monitorId user dto =>
      exact hret _ ((updateMonitor_sends rt monitorId user dto).mono fun _ => hsends)
  | deleteMonitor monitorId userId =>
      exact hret _ ((deleteMonitor_sends monitorId userId).mono fun _ => hsends)
  | getHistory monitorId userId limit =>
      exact hret _ (hread (only_query trivial fun _ => trivial))
  | getAlerts monitorId userId limit =>
      exact hret _ (hread (only_query trivial fun _ => trivial))

/-- The accounts of the seeds have their email for a username. -/
theorem operation_enrols (hseed : ∀ email, P email email) (o : Operation) :
    o.program.Only (Enrols P) := by
  have hret : ∀ {α : Type} {p : Client α} (f : α → Bool), p.Only (Enrols P) →
      (p >>= fun r => pure (f r)).Only (Enrols P) :=
    fun f hp => Prog.only_bind (fun _ => Prog.only_ret) hp
  cases o with
  | writer w => exact w.program_sends.mono fun _ => writerSends_enrols
  | check registered m thresholds =>
      exact hret _ ((checkAndPersist_sends registered m thresholds).mono fun _ => checkSends_enrols)
  | statusSeed rt manifest =>
      refine hret _ ?_
      unfold StatusSeed.seed
      split
      · trivial
      · exact only_transaction trivial trivial trivial (only_query trivial fun _ => trivial)
      · refine only_query trivial fun existing => ?_
        split
        · trivial
        · refine Prog.only_bind (fun _ => Prog.only_ret) ?_
          refine only_transaction trivial trivial trivial (only_await ?_ fun ownerId => ?_)
          · unfold statusOwner
            split
            · trivial
            · refine Prog.only_bind (fun _ => ?_) (Prog.only_op trivial)
              refine Prog.only_bind (fun _ => ?_) (Prog.only_op trivial)
              exact only_query (hseed _) fun _ => trivial
          · refine only_await (upsertStatusMonitors_only trivial fun _ _ _ => trivial) fun _ => ?_
            exact only_query trivial fun _ => trivial
  | demoSeed rt manifest =>
      refine hret _ ?_
      unfold DemoSeed.seed
      split
      · trivial
      · refine only_await (hashPassword_only trivial) fun hashed => ?_
        refine only_await ?_ fun userId => ?_
        · refine Prog.only_bind (fun _ => ?_) (Prog.only_op trivial)
          refine Prog.only_bind (fun _ => ?_) (Prog.only_op trivial)
          exact only_query (hseed _) fun _ => trivial
        · exact upsertDemoMonitors_only trivial fun _ _ _ => trivial

/-- A library whose tokens are the secret and the claims, and whose digests are the passwords. -/
def plainLibrary : AuthLibrary (String × Claims) where
  secret := "secret"
  sign key claims := (key, claims)
  verify key now token := if token.1 = key ∧ now < token.2.exp then some token.2 else none
  seconds s := if s = "30m" then some 1800 else if s = "15m" then some 900 else none
  verifyPassword digest password := .ok (digest = password)
  isEmail s := decide ('@' ∈ s.toList)
  verify_sign now claims := by simp
  isEmail_at s h := of_decide_eq_true h

/-- The body of a registration. -/
def registrationOf (username email : String) : Json :=
  .obj [("name", .str "Ana"), ("last_name", .str "Diaz"), ("username", .str username),
    ("email", .str email), ("password", .str "secret123")]

/-- An operation under which nothing fails, at a time in seconds. -/
def proceedAt {Token : Type} (i : Nat) (seconds : Int) : Service.Action Token :=
  .advance i { Choice.calm (seconds * 1000000) (.error "") with hashed := .ok "secret123" }

end Sentinel.System
