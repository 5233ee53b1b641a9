import Mathlib.Data.Rat.Defs
import Sentinel.Library.Transition

/-!
# Frontend — Session

The token of the browser's session (`src/app/api/token.ts`), the requests that carry it
(`apiFetch` in `src/app/api/client.ts`) and what the page shows of it
(`src/app/auth/AuthProvider.tsx`), as one transition system.

A request reads the token when it is sent; what its response does to the session it does when the
response has come, and any steps may come in between. The updates of one handler are rendered
before the next step.

* `TokenStore`: the token in memory, written through to `sessionStorage`.
* `Page.step`: requests, responses, logins, logout, the watch for tokens that expire, navigation
  and reloads, in any order.
* `Stepped`: what a step may do, one constructor for each.
-/

namespace Sentinel.Frontend

/-! ### `token.ts` -/

/-- The token, with its copy in `sessionStorage`. -/
structure TokenStore where
  token : Option String
  restored : Bool
  /-- The item of `sessionStorage`, or `none` where that is unavailable. -/
  storage : Option (Option String)
  unread : restored = false → token = none
  written : restored = true → ∀ item, storage = some item → item = token

namespace TokenStore

/-- The module of a page that is loaded. -/
def load (storage : Option (Option String)) : TokenStore where
  token := none
  restored := false
  storage := storage
  unread _ := rfl
  written h := (nomatch h)

def readThrough (s : TokenStore) : TokenStore :=
  if h : s.restored then s
  else
    { token := s.token <|> s.storage.join
      restored := true
      storage := s.storage
      unread := fun h => (nomatch h)
      written := fun _ item hitem => by
        rw [s.unread (eq_false_of_ne_true h), hitem]
        rfl }

def get (s : TokenStore) : Option String := s.readThrough.token

def set (s : TokenStore) (value : String) : TokenStore where
  token := some value
  restored := true
  storage := s.storage.map fun _ => some value
  unread h := (nomatch h)
  written _ item h := by
    obtain ⟨_, -, rfl⟩ := Option.map_eq_some_iff.mp h
    rfl

def clear (s : TokenStore) : TokenStore where
  token := none
  restored := true
  storage := s.storage.map fun _ => none
  unread _ := rfl
  written _ item h := by
    obtain ⟨_, -, rfl⟩ := Option.map_eq_some_iff.mp h
    rfl

variable (s : TokenStore)

@[simp] theorem get_set (value : String) : (s.set value).get = some value := rfl

@[simp] theorem get_clear : s.clear.get = none := rfl

@[simp] theorem readThrough_readThrough : s.readThrough.readThrough = s.readThrough := by
  by_cases h : s.restored
  · simp only [readThrough, h, dite_true]
  · simp only [readThrough, h, Bool.false_eq_true, dite_false, dite_true]

@[simp] theorem get_readThrough : s.readThrough.get = s.get := by
  rw [get, readThrough_readThrough, get]

/-- A reload restores the token, where there is a `sessionStorage`. -/
theorem get_load {item : Option String} (h : s.storage = some item) :
    (load s.storage).get = s.get := by
  have hload : (load s.storage).get = s.storage.join := rfl
  rw [hload, get]
  unfold readThrough
  split
  · rw [h, Option.join_some]
    exact s.written ‹_› item h
  · have hunread : (s.token <|> s.storage.join) = s.storage.join := by
      rw [s.unread (eq_false_of_ne_true ‹_›)]
      rfl
    exact hunread.symm

end TokenStore

/-! ### `client.ts`, `endpoints.ts` -/

inductive OnUnauthorized where
  | handler
  | ignore
deriving DecidableEq, Repr

structure ApiFetchOptions where
  onUnauthorized : OnUnauthorized := .handler
  anonymous : Bool := false
deriving DecidableEq, Repr

/-- `!anonymous && options?.onUnauthorized !== "ignore"`: a 401 clears the token. -/
def ApiFetchOptions.Handled (options : ApiFetchOptions) : Prop :=
  options.anonymous = false ∧ options.onUnauthorized ≠ .ignore

instance (options : ApiFetchOptions) : Decidable options.Handled :=
  inferInstanceAs (Decidable (_ ∧ _))

/-- The functions that call `apiFetch`. -/
inductive Endpoint where
  | registerUser
  | login
  | demoLogin
  | fetchMonitors
  | createMonitor
  | deleteMonitor
  | fetchMonitorHistory
  | fetchMonitorAlerts
  | fetchPublicStatus
deriving DecidableEq, Repr

def Endpoint.options : Endpoint → ApiFetchOptions
  | .registerUser => { anonymous := true }
  | .login | .demoLogin => { onUnauthorized := .ignore }
  | .fetchPublicStatus => { anonymous := true, onUnauthorized := .ignore }
  | .fetchMonitors | .createMonitor | .deleteMonitor => {}
  | .fetchMonitorHistory | .fetchMonitorAlerts => {}

/-- The requests about monitors are the ones whose 401 clears the token. -/
theorem Endpoint.handled_iff (e : Endpoint) : e.options.Handled ↔
    e ≠ .registerUser ∧ e ≠ .login ∧ e ≠ .demoLogin ∧ e ≠ .fetchPublicStatus := by
  cases e <;> decide

/-- A call of `apiFetch` that awaits its response. -/
structure Request where
  /-- What `tokenStore` had when it was sent, and `null` for an anonymous one. -/
  token : Option String
  /-- The `Authorization` header. -/
  authorization : Option String
  options : ApiFetchOptions
  /-- `login` or `demoLogin` of `AuthProvider` awaits it. -/
  login : Bool
deriving DecidableEq

/-- The `Authorization` header, where `init` is the caller's. -/
def authorization (init : Option String) (options : ApiFetchOptions) (token : Option String) :
    Option String :=
  if options.anonymous then none
  else init <|> (token.filter (· ≠ "")).map ("Bearer " ++ ·)

inductive Outcome where
  /-- `fetch` or the reading of the body rejects. -/
  | failed
  /-- The status, and the `access_token` that the body has. -/
  | answered (status : Nat) (access_token : Option String)
deriving DecidableEq

/-- `response.ok`. -/
def Ok (status : Nat) : Prop := 200 ≤ status ∧ status ≤ 299

instance (status : Nat) : Decidable (Ok status) := inferInstanceAs (Decidable (_ ∧ _))

/-- The token that `login` or `demoLogin` reads off a response. -/
def Request.accessToken (r : Request) : Outcome → Option String
  | .failed => none
  | .answered status access_token =>
      if r.login ∧ Ok status ∧ status ≠ 204 then access_token else none

/-! ### `AuthProvider.tsx` -/

structure JwtPayload where
  exp : Rat
  sub : Option String
  is_demo : Option Bool

def isExpiringSoon (payload : JwtPayload) (now : Int) (skewSeconds : Rat := 60) : Bool :=
  payload.exp * 1000 - now < skewSeconds * 1000

/-- `matchPath` of the router, for a whole path, and the reading of a token's payload. -/
structure Host where
  matchPath : String → String → Bool
  decodeJwtPayload : String → Option JwtPayload

structure AuthSnapshot where
  isAuthenticated : Bool
  user : Option String
  isDemo : Bool
  expiringSoon : Bool
deriving DecidableEq

structure Location where
  pathname : String
  search : String
deriving DecidableEq

/-- The characters that `encodeURIComponent` keeps. -/
def unescaped (c : Char) : Bool := c.isAlphanum || "-_.!~*'()".toList.contains c

def percentEncode (byte : UInt8) : List Char :=
  ['%', (Nat.digitChar (byte.toNat / 16)).toUpper, (Nat.digitChar (byte.toNat % 16)).toUpper]

def encodeURIComponent (s : String) : String :=
  String.ofList (s.toList.flatMap fun c =>
    if unescaped c then [c] else (String.utf8EncodeChar c).flatMap percentEncode)

/-- The page, and the requests that await their responses. -/
structure Page where
  tokenStore : TokenStore
  auth : AuthSnapshot
  location : Location
  inFlight : List Request
  /-- `Date.now()`. -/
  now : Int

inductive Action where
  | tick (now : Int)
  /-- A link, or a redirect of the router. -/
  | navigate (location : Location)
  | apiFetch (init : Option String) (options : ApiFetchOptions)
  | login
  | demoLogin
  /-- The response to a request has come, or will not come. -/
  | settle (i : Nat) (outcome : Outcome)
  | logout
  /-- The interval of the watch for tokens that expire has passed. -/
  | watch
  | reload

namespace Page

variable (host : Host)

def isPublicRoute (pathname : String) : Bool :=
  host.matchPath "/status" pathname || host.matchPath "/register" pathname

def snapshot (now : Int) : Option String → AuthSnapshot
  | none => ⟨false, none, false, false⟩
  | some token =>
      let payload := host.decodeJwtPayload token
      { isAuthenticated := true
        user := payload.bind (·.sub)
        isDemo := payload.bind (·.is_demo) == some true
        expiringSoon := payload.elim false (isExpiringSoon · now) }

/-- `setAuth(snapshot())`. -/
def setAuth (s : Page) : Page :=
  { s with
    tokenStore := s.tokenStore.readThrough
    auth := snapshot host s.now s.tokenStore.get }

def load (storage : Option (Option String)) (location : Location) (now : Int) : Page :=
  setAuth host ⟨.load storage, snapshot host now none, location, [], now⟩

/-- `apiFetch`, up to its `await`. -/
def apiFetch (s : Page) (init : Option String) (options : ApiFetchOptions) (login : Bool) : Page :=
  let token := if options.anonymous then none else s.tokenStore.get
  { s with
    tokenStore := if options.anonymous then s.tokenStore else s.tokenStore.readThrough
    inFlight := s.inFlight ++ [⟨token, authorization init options token, options, login⟩] }

/-- `tokenStore.clear(); setAuth(snapshot()); navigate(…)`. -/
def signOut (s : Page) (location : Location) : Page :=
  { setAuth host { s with tokenStore := s.tokenStore.clear } with location := location }

/-- `/login?next=…`. -/
def loginNext (pathname : String) : Location :=
  ⟨"/login", "?next=" ++ encodeURIComponent pathname⟩

/-- The handler that `AuthProvider` registers. -/
def unauthorizedHandler (s : Page) : Page :=
  if isPublicRoute host s.location.pathname then s
  else s.signOut host (loginNext s.location.pathname)

/-- `tokenStore.clear(); unauthorizedHandler?.()`. -/
def unauthorized (s : Page) : Page :=
  unauthorizedHandler host { s with tokenStore := s.tokenStore.clear }

/-- `tokenStore.set(access_token); setAuth(snapshot())`. -/
def signIn (s : Page) (access_token : String) : Page :=
  setAuth host { s with tokenStore := s.tokenStore.set access_token }

def logout (s : Page) : Page := s.signOut host ⟨"/login", ""⟩

def watch (s : Page) : Page :=
  let snap := snapshot host s.now s.tokenStore.get
  let s := { s with tokenStore := s.tokenStore.readThrough }
  if isPublicRoute host s.location.pathname then { s with auth := snap }
  else if snap.isAuthenticated && snap.expiringSoon then s.signOut host ⟨"/login", ""⟩
  else { s with auth := snap }

/-- The request has its response. -/
def done (s : Page) (i : Nat) : Page := { s with inFlight := s.inFlight.eraseIdx i }

/-- `apiFetch` after its `await`, and the `login` that awaits it. A login that succeeds has its
token, as the type of its response says. -/
def settle (s : Page) (r : Request) : Outcome → Option Page
  | .failed => some s
  | .answered status access_token =>
      if Ok status then
        if r.login ∧ status ≠ 204 then access_token.map (s.signIn host) else some s
      else if status = 401 ∧ r.options.Handled then some (s.unauthorized host)
      else some s

def step (s : Page) : Action → Option Page
  | .tick now => if s.now ≤ now then some { s with now := now } else none
  | .navigate location => some { s with location := location }
  | .apiFetch init options => some (s.apiFetch init options false)
  | .login => some (s.apiFetch none Endpoint.login.options true)
  | .demoLogin => some (s.apiFetch none Endpoint.demoLogin.options true)
  | .settle i outcome => s.inFlight[i]?.bind fun r => (s.done i).settle host r outcome
  | .logout => some (s.logout host)
  | .watch => some (s.watch host)
  | .reload => some (load host s.tokenStore.storage s.location s.now)

/-! ### Steps -/

section Steps

variable {host}

/-- The steps, one constructor for each. -/
inductive Stepped (host : Host) (s : Page) : Action → Page → Prop where
  | ticked {now : Int} (h : s.now ≤ now) : Stepped host s (.tick now) { s with now := now }
  | navigated {location : Location} :
      Stepped host s (.navigate location) { s with location := location }
  | fetched {init : Option String} {options : ApiFetchOptions} :
      Stepped host s (.apiFetch init options) (s.apiFetch init options false)
  | login : Stepped host s .login (s.apiFetch none Endpoint.login.options true)
  | demoLogin : Stepped host s .demoLogin (s.apiFetch none Endpoint.demoLogin.options true)
  | spared {i : Nat} {outcome : Outcome} {r : Request} (hi : s.inFlight[i]? = some r)
      (htoken : r.accessToken outcome = none)
      (hunhandled : ∀ access_token, outcome = .answered 401 access_token → ¬ r.options.Handled) :
      Stepped host s (.settle i outcome) (s.done i)
  | signedIn {i : Nat} {outcome : Outcome} {r : Request} {access_token : String}
      (hi : s.inFlight[i]? = some r) (htoken : r.accessToken outcome = some access_token) :
      Stepped host s (.settle i outcome) ((s.done i).signIn host access_token)
  | unauthorized {i : Nat} {access_token : Option String} {r : Request}
      (hi : s.inFlight[i]? = some r) (hhandled : r.options.Handled) :
      Stepped host s (.settle i (.answered 401 access_token)) ((s.done i).unauthorized host)
  | loggedOut : Stepped host s .logout (s.logout host)
  | watched : Stepped host s .watch (s.watch host)
  | reloaded : Stepped host s .reload (load host s.tokenStore.storage s.location s.now)

theorem not_ok_unauthorized : ¬ Ok 401 := by decide

theorem settle_cases {s s' : Page} {i : Nat} {outcome : Outcome} {r : Request}
    (hi : s.inFlight[i]? = some r) (h : (s.done i).settle host r outcome = some s') :
    Stepped host s (.settle i outcome) s' := by
  cases outcome with
  | failed =>
      cases h
      exact .spared hi rfl fun _ h => (nomatch h)
  | answered status access_token =>
      simp only [settle] at h
      split at h
      · rename_i hok
        have hunhandled : ∀ token, Outcome.answered status access_token = .answered 401 token →
            ¬ r.options.Handled := by
          rintro token heq
          cases heq
          exact absurd hok not_ok_unauthorized
        split at h
        · rename_i hlogin
          obtain ⟨token, rfl, rfl⟩ := Option.map_eq_some_iff.mp h
          exact .signedIn hi (if_pos ⟨hlogin.1, hok, hlogin.2⟩)
        · rename_i hlogin
          cases h
          exact .spared hi (if_neg fun h => hlogin ⟨h.1, h.2.2⟩) hunhandled
      · rename_i hok
        have htoken : r.accessToken (.answered status access_token) = none :=
          if_neg fun h => hok h.2.1
        split at h
        · rename_i hrefused
          obtain ⟨rfl, hhandled⟩ := hrefused
          cases h
          exact .unauthorized hi hhandled
        · rename_i hrefused
          cases h
          refine .spared hi htoken fun token heq hhandled => hrefused ⟨?_, hhandled⟩
          cases heq
          rfl

theorem step_cases {s s' : Page} {a : Action} (h : s.step host a = some s') :
    Stepped host s a s' := by
  cases a with
  | tick now =>
      simp only [step] at h
      split at h
      · cases h
        exact .ticked ‹_›
      · cases h
  | settle i outcome =>
      obtain ⟨r, hi, hr⟩ := Option.bind_eq_some_iff.mp h
      exact settle_cases hi hr
  | navigate location =>
      cases h
      exact .navigated
  | apiFetch init options =>
      cases h
      exact .fetched
  | login =>
      cases h
      exact .login
  | demoLogin =>
      cases h
      exact .demoLogin
  | logout =>
      cases h
      exact .loggedOut
  | watch =>
      cases h
      exact .watched
  | reload =>
      cases h
      exact .reloaded

end Steps

/-! ### The token after a step -/

@[simp] theorem get_setAuth (s : Page) : (s.setAuth host).tokenStore.get = s.tokenStore.get :=
  s.tokenStore.get_readThrough

@[simp] theorem get_signOut (s : Page) (location : Location) :
    (s.signOut host location).tokenStore.get = none := rfl

@[simp] theorem get_signIn (s : Page) (access_token : String) :
    (s.signIn host access_token).tokenStore.get = some access_token := rfl

@[simp] theorem get_apiFetch (s : Page) (init : Option String) (options : ApiFetchOptions)
    (login : Bool) : (s.apiFetch init options login).tokenStore.get = s.tokenStore.get := by
  unfold apiFetch
  split
  · rfl
  · exact s.tokenStore.get_readThrough

@[simp] theorem get_unauthorized (s : Page) : (s.unauthorized host).tokenStore.get = none := by
  unfold unauthorized unauthorizedHandler
  split
  · rfl
  · rfl

theorem location_unauthorized (s : Page) : (s.unauthorized host).location =
    if isPublicRoute host s.location.pathname then s.location
    else loginNext s.location.pathname := by
  unfold unauthorized unauthorizedHandler
  split
  · rfl
  · rfl

/-- The watch for tokens that expire keeps the token or clears it. -/
theorem get_watch (s : Page) :
    (s.watch host).tokenStore.get = s.tokenStore.get ∨ (s.watch host).tokenStore.get = none := by
  simp only [watch]
  split
  · exact .inl s.tokenStore.get_readThrough
  · split
    · exact .inr rfl
    · exact .inl s.tokenStore.get_readThrough

end Page

end Sentinel.Frontend
