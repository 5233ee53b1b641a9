import Sentinel.Api.Body
import Sentinel.Library.Embed

/-!
# Api — Accounts

`UsersService` and `AuthService` (`src/users/users.service.ts`, `src/auth/auth.service.ts`), the
strategy and the guard that tell whose a request is (`src/auth/strategies/jwt.strategy.ts`,
`src/auth/guards/jwt-auth.guard.ts`), and the bodies of the requests.

* The services look for an account by its username, compare a password with a digest, sign tokens
  and verify them. `AuthOp` adds this to the operations of the other programs.
* What the libraries compute is an `AuthLibrary`: a token that was signed is verified with the same
  secret until it expires, and gives the claims that were signed.
* The tokens ever signed are kept beside the store. Nothing reads them.
-/

namespace Sentinel.Api

open Program Database

/-- The claims of a token, with the times in seconds. -/
structure Claims where
  sub : String
  /-- Whether `is_demo` is there. -/
  isDemo : Bool
  iat : Int
  exp : Int
deriving DecidableEq, Repr

/-- What the services take from `@nestjs/jwt`, `argon2` and `class-validator`. -/
structure AuthLibrary (Token : Type) where
  secret : String
  sign : String → Claims → Token
  /-- The claims of a token that is genuine and has not expired at a time. -/
  verify : String → Int → Token → Option Claims
  /-- The seconds of an `expiresIn`, rounded down. -/
  seconds : String → Option Int
  /-- Whether a password has a digest. -/
  verifyPassword : String → String → Except String Bool
  isEmail : String → Bool
  verify_sign : ∀ now claims,
    verify secret now (sign secret claims) = if now < claims.exp then some claims else none
  isEmail_at : ∀ s, isEmail s = true → '@' ∈ s.toList

/-- An operation of the account services. -/
inductive AuthOp (Token : Type) where
  | base (o : Op)
  | findUniqueUsername (username : String)
  | verifyHash (digest password : String)
  | sign (sub : String) (isDemo : Bool) (expiresIn : String)
  | verify (token : Token)

abbrev AuthOp.Res {Token : Type} : AuthOp Token → Type
  | base o => o.Res
  | findUniqueUsername _ => Except DbError (Option User)
  | verifyHash _ _ => Except String Bool
  | sign _ _ _ => Except String Token
  | verify _ => Option Claims

/-- The store, with the tokens ever signed. -/
abbrev Realm (Token : Type) := Store × List Token

/-- The tables a connection sees. -/
def Session.sees (s : Session) (db : Db) : Db := s.writes.foldl Write.apply db

/-- The clock of the environment in seconds. -/
def Choice.seconds (choice : Choice) : Int := choice.moment.now / 1000000

section Handler

variable {Token : Type} (lib : AuthLibrary Token)

/-- `prisma.users.findUnique({ where: { username } })`. -/
def lookUp (choice : Choice) (st : Store) (s : Session) (username : String) :
    Session × Except DbError (Option User) :=
  match choice.fault, s with
  | .fails e, s => (s.fail, .error e)
  | _, .aborted => (.aborted, .error inFailedTransaction)
  | fault, s => (s, fault.reply ((Session.sees s st.db).users.find? (·.username = username)))

/-- Performs an operation. -/
def authHandle : Handler (AuthOp Token) AuthOp.Res Choice (Realm Token) Session :=
  fun choice realm s o =>
    match o with
    | .base o =>
        let r := handle choice realm.1 s o
        ((r.1, realm.2), r.2.1, r.2.2)
    | .findUniqueUsername username =>
        let r := lookUp choice realm.1 s username
        (realm, r.1, r.2)
    | .verifyHash digest password => (realm, s, lib.verifyPassword digest password)
    | .sign sub isDemo expiresIn =>
        match lib.seconds expiresIn with
        | none => (realm, s, .error "expiresIn should be a number of seconds or a timespan")
        | some seconds =>
            let token := lib.sign lib.secret
              ⟨sub, isDemo, Choice.seconds choice, Choice.seconds choice + seconds⟩
            ((realm.1, realm.2 ++ [token]), s, .ok token)
    | .verify token => (realm, s, lib.verify lib.secret (Choice.seconds choice) token)

end Handler

/-! ### The bodies -/

/-- A decorator of the account requests. -/
inductive AccountDecorator where
  | common (d : Decorator)
  | isEmail
  /-- `@Matches`. -/
  | pattern (p : String → Bool) (message : String)

/-- `/^[a-zA-Z0-9]+$/`. -/
def usernamePattern (s : String) : Bool := s ≠ "" && s.toList.all Char.isAlphanum

/-- What `.` does not match. -/
def isLineTerminator (c : Char) : Bool :=
  c = '\n' || c = '\r' || c = '\u2028' || c = '\u2029'

/-- `/^(?=.*[A-Za-z])(?=.*\d).+$/`. -/
def passwordPattern (s : String) : Bool :=
  s ≠ "" && s.toList.all (!isLineTerminator ·) && s.toList.any Char.isAlpha &&
    s.toList.any Char.isDigit

structure AccountProperty where
  name : String
  isOptional : Bool
  decorators : List AccountDecorator

/-- What a body is refused for. -/
inductive AccountFault where
  /-- The empty array passes the pipe, and Prisma refuses a look-up without a key. -/
  | notAnObject
  | notWhitelisted (property : String)
  | violated (property : String) (decorator : AccountDecorator)

/-- `CreateUserDto`, without the telephone number, which nothing reads. -/
structure CreateUserDto where
  name : String
  lastName : String
  username : String
  email : String
  password : String
deriving DecidableEq, Repr

def usernameProperty : AccountProperty :=
  ⟨"username", false, [.common .isString, .common (.minLength 3), .common (.maxLength 20),
    .pattern usernamePattern "Username must be alphanumeric"]⟩

def emailProperty : AccountProperty := ⟨"email", false, [.isEmail]⟩

def passwordProperty : AccountProperty :=
  ⟨"password", false, [.common .isString, .common (.minLength 8),
    .pattern passwordPattern "Password must contain both letters and numbers"]⟩

def CreateUserDto.properties : List AccountProperty :=
  [⟨"name", false, [.common .isString, .common .isNotEmpty]⟩,
    ⟨"last_name", false, [.common .isString, .common .isNotEmpty]⟩, usernameProperty, emailProperty,
    passwordProperty, ⟨"phonenumber", true, [.common .isString]⟩]

def LoginDto.properties : List AccountProperty :=
  [⟨"username", false, [.common .isString, .common .isNotEmpty]⟩,
    ⟨"password", false, [.common .isString, .common .isNotEmpty]⟩]

/-- The text of a property. -/
def textOf (entity : Json) (name : String) : String :=
  ((entity.prop name).bind Json.text).getD ""

structure LoginDto where
  username : String
  password : String
deriving DecidableEq, Repr

section Bodies

variable {Token : Type} (lib : AuthLibrary Token) (rt : Runtime)

/-- Whether a value is what the decorator asks for. -/
def AccountDecorator.holds (value : Option Json) : AccountDecorator → Bool
  | common d => d.holds rt value
  | isEmail => (value.bind Json.text).any lib.isEmail
  | pattern p _ => (value.bind Json.text).any p

/-- The decorators of a property that do not hold. -/
def AccountProperty.faults (entity : Json) (p : AccountProperty) : List AccountFault :=
  match p.isOptional, entity.prop p.name with
  | true, none | true, some .null => []
  | _, value => (p.decorators.filter fun d => !d.holds lib rt value).map (.violated p.name)

/-- Validates a body. -/
def accountBody (properties : List AccountProperty) : Json → Except (List AccountFault) Json
  | .obj fields =>
      match (fields.filter fun f => !properties.any (·.name = f.1)).map (.notWhitelisted ·.1) ++
          properties.flatMap (·.faults lib rt (.obj fields)) with
      | [] => .ok (.obj fields)
      | faults => .error faults
  | _ => .error [.notAnObject]

/-- The DTO that `create` is called with for a body. -/
def CreateUserDto.ofBody (body : Json) : Except (List AccountFault) CreateUserDto :=
  (accountBody lib rt CreateUserDto.properties body).map fun entity =>
    { name := textOf entity "name", lastName := textOf entity "last_name",
      username := textOf entity "username", email := textOf entity "email",
      password := textOf entity "password" }

/-- The DTO that `login` is called with for a body. -/
def LoginDto.ofBody (body : Json) : Except (List AccountFault) LoginDto :=
  (accountBody lib rt LoginDto.properties body).map fun entity =>
    { username := textOf entity "username", password := textOf entity "password" }

variable {lib rt}

/-- A property of an accepted body has what every decorator asks for. -/
theorem accountBody_holds {properties : List AccountProperty} {body entity : Json}
    (h : accountBody lib rt properties body = .ok entity) {p : AccountProperty}
    (hp : p ∈ properties) (hreq : p.isOptional = false) :
    ∀ d ∈ p.decorators, d.holds lib rt (entity.prop p.name) = true := by
  unfold accountBody at h
  split at h
  · split at h
    · rename_i fields hnone
      cases h
      have hfaults := List.flatMap_eq_nil_iff.mp (List.append_eq_nil_iff.mp hnone).2 p hp
      simp only [AccountProperty.faults, hreq, List.map_eq_nil_iff,
        List.filter_eq_nil_iff] at hfaults
      intro d hd
      simpa using hfaults d hd
    · cases h
  · cases h

theorem textOf_any {entity : Json} {name : String} {p : String → Bool}
    (h : ((entity.prop name).bind Json.text).any p = true) : p (textOf entity name) = true := by
  unfold textOf
  cases hvalue : (entity.prop name).bind Json.text with
  | none =>
      rw [hvalue] at h
      cases h
  | some s =>
      rw [hvalue] at h
      exact h

/-- What is known of the texts of an accepted registration. -/
structure CreateUserDto.Valid (lib : AuthLibrary Token) (dto : CreateUserDto) : Prop where
  username : usernamePattern dto.username = true
  email : lib.isEmail dto.email = true
  password : passwordPattern dto.password = true

theorem CreateUserDto.ofBody_valid {body : Json} {dto : CreateUserDto}
    (h : CreateUserDto.ofBody lib rt body = .ok dto) : dto.Valid lib := by
  obtain ⟨entity, hentity, rfl⟩ := map_eq_ok h
  refine ⟨textOf_any ?_, textOf_any ?_, textOf_any ?_⟩
  · exact accountBody_holds hentity (p := usernameProperty) (by simp [CreateUserDto.properties])
      rfl (.pattern usernamePattern "Username must be alphanumeric") (by simp [usernameProperty])
  · exact accountBody_holds hentity (p := emailProperty) (by simp [CreateUserDto.properties]) rfl
      .isEmail (by simp [emailProperty])
  · exact accountBody_holds hentity (p := passwordProperty) (by simp [CreateUserDto.properties])
      rfl (.pattern passwordPattern "Password must contain both letters and numbers")
      (by simp [passwordProperty])

end Bodies

/-! ### The programs -/

/-- A program of the account services. -/
abbrev AuthClient (Token α : Type) := Prog (AuthOp Token) AuthOp.Res α

/-- What the account services throw. -/
inductive AuthError where
  /-- The body is refused. -/
  | body (faults : List AccountFault)
  | badRequest (message : String)
  | unauthorized (message : String)
  | unavailable (message : String)
  | thrown (message : String)
  | database (e : DbError)
  /-- Thrown by another service. -/
  | service (e : ApiError)

section Programs

variable {Token α : Type}

/-- A program of another service. -/
def embed (p : Client α) : AuthClient Token α := Prog.embed AuthOp.base (fun _ r => r) p

def findByEmail (email : String) : AuthClient Token (Except DbError (Option User)) :=
  embed (Client.sql (.findUniqueUser email))

def findByUsername (username : String) : AuthClient Token (Except DbError (Option User)) :=
  Prog.op (AuthOp.findUniqueUsername username)

/-- `argon2.verify`. -/
def verifyHash (digest password : String) : AuthClient Token (Except String Bool) :=
  Prog.op (AuthOp.verifyHash digest password)

/-- `jwtService.signAsync`. -/
def signAsync (sub : String) (isDemo : Bool) (expiresIn : String) :
    AuthClient Token (Except String Token) :=
  Prog.op (AuthOp.sign sub isDemo expiresIn)

/-- The verification of a bearer token by `passport-jwt`. -/
def verifyToken (token : Token) : AuthClient Token (Option Claims) :=
  Prog.op (AuthOp.verify token)

/-- Awaits a look for an account: its failure is thrown. -/
def lookup (p : AuthClient Token (Except DbError (Option User)))
    (k : Option User → AuthClient Token (Except AuthError α)) :
    AuthClient Token (Except AuthError α) := do
  match ← p with
  | .error e => return .error (.database e)
  | .ok user => k user

/-- Awaits a call: what it throws is thrown. -/
def awaitAuth {β : Type} (p : AuthClient Token (Except AuthError β))
    (k : β → AuthClient Token (Except AuthError α)) : AuthClient Token (Except AuthError α) := do
  match ← p with
  | .error e => return .error e
  | .ok b => k b

/-! ### UsersService -/

structure UserResponseDto where
  id : Int
  name : String
  lastName : String
  username : String
  email : String
  status : String
  isActive : Bool
  isDemo : Bool
  createdAt : Time
  updatedAt : Time
deriving DecidableEq, Repr

def UserResponseDto.fromEntity (user : User) : UserResponseDto :=
  { id := user.id, name := user.name, lastName := user.lastName, username := user.username,
    email := user.email, status := user.status.getD "Active", isActive := user.isActive,
    isDemo := user.isDemo, createdAt := user.createdAt, updatedAt := user.updatedAt }

/-- The columns of a new account. -/
def CreateUserDto.data (dto : CreateUserDto) (hashedPassword : String) (now : Time) : NewUser :=
  { email := dto.email, username := dto.username, name := dto.name, lastName := dto.lastName,
    password := hashedPassword, status := some "Active", isActive := true, isDemo := false,
    createdAt := now, updatedAt := now }

/-- The insert of a new account. -/
def insertUser (dto : CreateUserDto) (hashedPassword : String) :
    AuthClient Token (Except AuthError UserResponseDto) := do
  let now ← embed Client.now
  match ← embed (Client.sql (.createUser (dto.data hashedPassword now))) with
  | .error e => return .error (.database e)
  | .ok id => return .ok (UserResponseDto.fromEntity ((dto.data hashedPassword now).row id))

/-- `UsersService.create`. -/
def UsersService.create (dto : CreateUserDto) :
    AuthClient Token (Except AuthError UserResponseDto) :=
  lookup (findByEmail dto.email) fun existingEmail =>
    if existingEmail.isSome then return .error (.badRequest "Email already registered")
    else
      lookup (findByUsername dto.username) fun existingUsername =>
        if existingUsername.isSome then return .error (.badRequest "Username already taken")
        else do
          match ← embed (Client.hash dto.password) with
          | .error e => return .error (.thrown e)
          | .ok hashedPassword => insertUser dto hashedPassword

/-! ### AuthService -/

/-- The account of an identifier: by its email, or else by its username. -/
def findIdentified (loginIdentifier : String)
    (k : Option User → AuthClient Token (Except AuthError α)) :
    AuthClient Token (Except AuthError α) :=
  lookup (findByEmail loginIdentifier) fun user =>
    match user with
    | some user => k (some user)
    | none => lookup (findByUsername loginIdentifier) k

/-- `authenticateUser`: the account, if the password is its own. -/
def authenticateUser (loginIdentifier pass : String) :
    AuthClient Token (Except AuthError (Option User)) :=
  findIdentified loginIdentifier fun user =>
    match user with
    | none => return .ok none
    | some user => do
        match ← verifyHash user.password pass with
        | .ok true => return .ok (some user)
        | .ok false | .error _ => return .ok none

/-- The `expiresIn` of a setting. -/
def expiresIn (rt : Runtime) (key fallback : String) : String :=
  (rt.env key).getD fallback ++ "m"

/-- The `expiresIn` of the tokens of an account. -/
def expiry (rt : Runtime) (isDemo : Bool) : String :=
  if isDemo then expiresIn rt "DEMO_ACCESS_TOKEN_EXPIRE_MINUTES" "15"
  else expiresIn rt "ACCESS_TOKEN_EXPIRE_MINUTES" "30"

/-- A token for an account. -/
def signToken (sub : String) (isDemo : Bool) (expiresIn : String) :
    AuthClient Token (Except AuthError Token) := do
  match ← signAsync sub isDemo expiresIn with
  | .error e => return .error (.thrown e)
  | .ok token => return .ok token

/-- `AuthService.login`, ending with the token. -/
def login (rt : Runtime) (loginIdentifier pass : String) :
    AuthClient Token (Except AuthError Token) :=
  awaitAuth (authenticateUser loginIdentifier pass) fun user =>
    match user with
    | none => return .error (.unauthorized "Incorrect username or password")
    | some user => signToken user.email user.isDemo (expiry rt user.isDemo)

/-- `AuthService.demoLogin`, ending with the token. -/
def demoLogin (rt : Runtime) : AuthClient Token (Except AuthError Token) :=
  match (rt.env "DEMO_USER_EMAIL").filter (· ≠ "") with
  | none => return .error (.unavailable "Demo account is not configured")
  | some email =>
      lookup (findByEmail email) fun user =>
        match user.filter (fun user => user.isActive && user.isDemo) with
        | none => return .error (.unavailable "Configured demo account is unavailable")
        | some user => signToken user.email true (expiry rt true)

/-! ### The guard -/

/-- `JwtStrategy.validate`. -/
def validate (claims : Claims) : AuthClient Token (Except AuthError User) :=
  if claims.sub = "" then return .error (.unauthorized "Could not validate credentials")
  else
    lookup (findByEmail claims.sub) fun user =>
      match user with
      | none => return .error (.unauthorized "Could not validate credentials")
      | some user =>
          if user.isActive then return .ok user else return .error (.badRequest "Inactive user")

/-- `JwtAuthGuard` of a route that is not public, with the bearer token of the request if it has
one. -/
def jwtAuthGuard (token : Option Token) : AuthClient Token (Except AuthError User) :=
  match token with
  | none => return .error (.unauthorized "Not authenticated")
  | some token => do
      match ← verifyToken token with
      | none => return .error (.unauthorized "Not authenticated")
      | some claims => validate claims

/-! ### The controllers -/

/-- `UsersController.register`, of the body of the request. -/
def register (lib : AuthLibrary Token) (rt : Runtime) (body : Json) :
    AuthClient Token (Except AuthError UserResponseDto) :=
  match CreateUserDto.ofBody lib rt body with
  | .error faults => return .error (.body faults)
  | .ok dto => UsersService.create dto

/-- `AuthController.login`, of the body of the request. -/
def loginWith (lib : AuthLibrary Token) (rt : Runtime) (body : Json) :
    AuthClient Token (Except AuthError Token) :=
  match LoginDto.ofBody lib rt body with
  | .error faults => return .error (.body faults)
  | .ok dto => login rt dto.username dto.password

/-- A route that is not public: the guard of the application, that of the controller, and the
handler for the account the latter gives. -/
def guarded (token : Option Token) (k : User → AuthClient Token (Except AuthError α)) :
    AuthClient Token (Except AuthError α) :=
  awaitAuth (jwtAuthGuard token) fun _ => awaitAuth (jwtAuthGuard token) k

/-! ### What the programs send -/

/-- The operations of the account programs that change no table. -/
def Reads : AuthOp Token → Prop
  | .base (.sql (.findUniqueUser _)) | .base .now | .base (.hash _) => True
  | .base _ => False
  | .findUniqueUsername _ | .verifyHash _ _ | .sign _ _ _ | .verify _ => True

variable {β : Type} {P : AuthOp Token → Prop}

theorem only_lookup {p : AuthClient Token (Except DbError (Option User))}
    {k : Option User → AuthClient Token (Except AuthError β)} (hp : p.Only P)
    (hk : ∀ user, (k user).Only P) : (lookup p k).Only P := by
  refine Prog.only_bind (fun r => ?_) hp
  cases r with
  | error e => trivial
  | ok user => exact hk user

theorem only_awaitAuth {p : AuthClient Token (Except AuthError α)}
    {k : α → AuthClient Token (Except AuthError β)} (hp : p.Only P) (hk : ∀ a, (k a).Only P) :
    (awaitAuth p k).Only P := by
  refine Prog.only_bind (fun r => ?_) hp
  cases r with
  | error e => trivial
  | ok a => exact hk a

theorem findByEmail_reads (email : String) :
    (findByEmail email : AuthClient Token _).Only Reads :=
  ⟨trivial, fun _ => trivial⟩

theorem findByUsername_reads (username : String) :
    (findByUsername username : AuthClient Token _).Only Reads :=
  ⟨trivial, fun _ => trivial⟩

theorem signToken_reads (sub : String) (isDemo : Bool) (expiresIn : String) :
    (signToken sub isDemo expiresIn : AuthClient Token _).Only Reads := by
  refine Prog.only_bind (fun r => ?_) (Prog.only_op trivial)
  cases r <;> trivial

theorem authenticateUser_reads (loginIdentifier pass : String) :
    (authenticateUser loginIdentifier pass : AuthClient Token _).Only Reads := by
  have hverify : ∀ user : User, (do
      match ← (verifyHash user.password pass : AuthClient Token _) with
      | .ok true => return (.ok (some user) : Except AuthError (Option User))
      | .ok false | .error _ => return .ok none).Only Reads := by
    intro user
    refine Prog.only_bind (fun r => ?_) (Prog.only_op trivial)
    rcases r with e | (_ | _) <;> trivial
  refine only_lookup (findByEmail_reads _) fun user => ?_
  cases user with
  | some user => exact hverify user
  | none =>
      refine only_lookup (findByUsername_reads _) fun user => ?_
      cases user with
      | some user => exact hverify user
      | none => trivial

theorem login_reads (rt : Runtime) (loginIdentifier pass : String) :
    (login rt loginIdentifier pass : AuthClient Token _).Only Reads := by
  refine only_awaitAuth (authenticateUser_reads _ _) fun user => ?_
  cases user with
  | none => trivial
  | some user => exact signToken_reads _ _ _

theorem loginWith_reads (lib : AuthLibrary Token) (rt : Runtime) (body : Json) :
    (loginWith lib rt body).Only Reads := by
  unfold loginWith
  split
  · trivial
  · exact login_reads _ _ _

theorem demoLogin_reads (rt : Runtime) : (demoLogin rt : AuthClient Token _).Only Reads := by
  unfold demoLogin
  split
  · trivial
  · refine only_lookup (findByEmail_reads _) fun user => ?_
    split
    · trivial
    · exact signToken_reads _ _ _

theorem jwtAuthGuard_reads (token : Option Token) : (jwtAuthGuard token).Only Reads := by
  cases token with
  | none => trivial
  | some token =>
      refine Prog.only_bind (fun r => ?_) (Prog.only_op trivial)
      cases r with
      | none => trivial
      | some claims =>
          show (validate claims).Only Reads
          unfold validate
          split
          · trivial
          · refine only_lookup (findByEmail_reads _) fun user => ?_
            cases user with
            | none => trivial
            | some user =>
                show Prog.Only Reads (if user.isActive = true then _ else _)
                split <;> trivial

theorem guarded_only {token : Option Token} {k : User → AuthClient Token (Except AuthError β)}
    (hreads : ∀ o, Reads o → P o) (hk : ∀ user, (k user).Only P) : (guarded token k).Only P := by
  have hguard := (jwtAuthGuard_reads token).mono hreads
  exact only_awaitAuth hguard fun _ => only_awaitAuth hguard hk

end Programs

end Sentinel.Api
