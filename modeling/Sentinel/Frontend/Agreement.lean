import Sentinel.Frontend.Unauthorized

/-!
# Frontend — Agreement

What the page shows of its session, against the token that is stored.

The token lives in a module and its snapshot in the state of `AuthProvider`, and a handler may
change one of them. Every handler renders the snapshot of the token it leaves, but one: `apiFetch`
clears the token of a refused request, and on a public route the handler of `AuthProvider` returns
before `setAuth`.

* `Agrees`: the page shows the session of the stored token.
* `Strands`: the steps that clear a token behind the page's back.
* `session_agrees`: the page shows the stored session until such a step.
-/

namespace Sentinel.Frontend

open Transition

namespace Page

variable (host : Host)

/-- The payload of the token that is stored. -/
def payload (s : Page) : Option JwtPayload := s.tokenStore.get.bind host.decodeJwtPayload

/-- The page shows the session of the token that is stored. -/
structure Agrees (s : Page) : Prop where
  isAuthenticated : s.auth.isAuthenticated = true ↔ ∃ token, s.tokenStore.get = some token
  user : s.auth.user = (s.payload host).bind (·.sub)
  isDemo : s.auth.isDemo = true ↔ ∃ p, s.payload host = some p ∧ p.is_demo = some true

/-- A 401 that clears the token, on a route whose page the handler leaves alone. -/
def Strands (s : Page) : Action → Prop
  | .settle i (.answered status _) => status = 401 ∧ s.tokenStore.get ≠ none ∧
      isPublicRoute host s.location.pathname = true ∧
        ∃ r ∈ s.inFlight[i]?, r.options.Handled
  | _ => False

instance (s : Page) : ∀ a, Decidable (s.Strands host a)
  | .settle _ (.answered _ _) => inferInstanceAs (Decidable (_ ∧ _ ∧ _ ∧ _))
  | .settle _ .failed => isFalse id
  | .tick _ | .navigate _ | .apiFetch _ _ | .login | .demoLogin => isFalse id
  | .logout | .watch | .reload => isFalse id

variable {host} {s s' : Page} {a : Action}

/-! ### One handler -/

/-- What a page shows after `setAuth(snapshot())`. -/
theorem agrees_of_snapshot (now : Int)
    (h : s.auth = snapshot host now s.tokenStore.get) : s.Agrees host := by
  cases htoken : s.tokenStore.get with
  | none =>
      rw [htoken] at h
      have hpayload : s.payload host = none := by
        rw [payload, htoken]
        rfl
      constructor
      · rw [h, htoken]
        exact ⟨fun h => (nomatch h), fun ⟨_, h⟩ => (nomatch h)⟩
      · rw [h, hpayload]
        rfl
      · rw [h, hpayload]
        exact ⟨fun h => (nomatch h), fun ⟨_, h, _⟩ => (nomatch h)⟩
  | some token =>
      rw [htoken] at h
      have hpayload : s.payload host = host.decodeJwtPayload token := by
        rw [payload, htoken]
        rfl
      constructor
      · rw [h, htoken]
        exact ⟨fun _ => ⟨token, rfl⟩, fun _ => rfl⟩
      · rw [h, hpayload]
        rfl
      · rw [h, hpayload]
        exact beq_iff_eq.trans Option.bind_eq_some_iff

/-- A handler that keeps the token and what is shown. -/
theorem Agrees.of_kept (h : s.Agrees host) (hauth : s'.auth = s.auth)
    (hget : s'.tokenStore.get = s.tokenStore.get) : s'.Agrees host := by
  have hpayload : s'.payload host = s.payload host := by rw [payload, hget, payload]
  constructor
  · rw [hauth, hget]
    exact h.isAuthenticated
  · rw [hauth, hpayload]
    exact h.user
  · rw [hauth, hpayload]
    exact h.isDemo

theorem agrees_setAuth (s : Page) : (s.setAuth host).Agrees host :=
  agrees_of_snapshot s.now (by rw [get_setAuth, setAuth])

theorem agrees_signOut (s : Page) (location : Location) : (s.signOut host location).Agrees host :=
  (agrees_setAuth _).of_kept rfl rfl

theorem agrees_watch (s : Page) : (s.watch host).Agrees host := by
  have hshown : ∀ t : Page, t.auth = snapshot host s.now s.tokenStore.get →
      t.tokenStore = s.tokenStore.readThrough → t.Agrees host := by
    intro t hauth hstore
    refine agrees_of_snapshot s.now ?_
    rw [hauth, hstore, TokenStore.get_readThrough]
  simp only [watch]
  split
  · exact hshown _ rfl rfl
  · split
    · exact agrees_signOut _ _
    · exact hshown _ rfl rfl

/-- On a public route the handler keeps what is shown. -/
theorem agrees_unauthorized (h : s.Agrees host) : (s.unauthorized host).Agrees host ↔
    ¬ (s.tokenStore.get ≠ none ∧ isPublicRoute host s.location.pathname = true) := by
  by_cases hpublic : isPublicRoute host s.location.pathname = true
  · have hkept : s.unauthorized host = { s with tokenStore := s.tokenStore.clear } := if_pos hpublic
    have hauth : (s.unauthorized host).auth = s.auth := by rw [hkept]
    cases htoken : s.tokenStore.get with
    | none =>
        refine iff_of_true (h.of_kept hauth ?_) fun h => h.1 rfl
        rw [get_unauthorized, htoken]
    | some token =>
        refine iff_of_false (fun hagrees => ?_) fun h => h ⟨Option.some_ne_none _, hpublic⟩
        have hshown : (s.unauthorized host).auth.isAuthenticated = true := by
          rw [hauth]
          exact h.isAuthenticated.mpr ⟨token, htoken⟩
        obtain ⟨_, hstored⟩ := hagrees.isAuthenticated.mp hshown
        cases hstored.symm.trans (get_unauthorized host s)
  · have hout : s.unauthorized host =
        ({ s with tokenStore := s.tokenStore.clear } : Page).signOut host
          (loginNext s.location.pathname) := if_neg hpublic
    rw [hout]
    exact iff_of_true (agrees_signOut _ _) fun h => hpublic h.2

/-! ### Steps and runs -/

/-- A step from a page that shows the stored session leaves such a page, unless it strands it. -/
theorem step_agrees (h : s.Agrees host) (hs : s.step host a = some s') :
    s'.Agrees host ↔ ¬ s.Strands host a := by
  cases step_cases hs with
  | ticked | navigated => exact iff_of_true (h.of_kept rfl rfl) id
  | fetched | login | demoLogin => exact iff_of_true (h.of_kept rfl (get_apiFetch _ _ _ _)) id
  | @spared i outcome r hi htoken hunhandled =>
      refine iff_of_true (h.of_kept rfl rfl) fun hstrands => ?_
      cases outcome with
      | failed => exact hstrands
      | answered status access_token =>
          obtain ⟨rfl, -, -, r', hr', hhandled⟩ := hstrands
          obtain rfl := Option.some.inj (hi.symm.trans hr')
          exact hunhandled _ rfl hhandled
  | @signedIn i outcome r access_token hi htoken =>
      refine iff_of_true (agrees_setAuth _) fun hstrands => ?_
      cases outcome with
      | failed => exact hstrands
      | answered status body =>
          obtain ⟨rfl, -⟩ := hstrands
          rw [Request.accessToken, if_neg fun h => not_ok_unauthorized h.2.1] at htoken
          cases htoken
  | @unauthorized i access_token r hi hhandled =>
      have hdone : (s.done i).Agrees host := h.of_kept rfl rfl
      rw [agrees_unauthorized hdone]
      refine not_congr ⟨fun h => ⟨rfl, h.1, h.2, r, hi, hhandled⟩, fun h => ⟨h.2.1, h.2.2.1⟩⟩
  | loggedOut => exact iff_of_true (agrees_signOut _ _) id
  | watched => exact iff_of_true (agrees_watch _) id
  | reloaded => exact iff_of_true (agrees_setAuth _) id

theorem run_agrees {storage : Option (Option String)} {location : Location} {now : Int}
    {actions : List Action}
    (hrun : Guarded (step host) (fun s a => ¬ s.Strands host a) (load host storage location now)
      actions s) : s.Agrees host :=
  hrun.invariant (fun _ _ _ h hspares hs => (step_agrees h hs).mpr hspares) (agrees_setAuth _)

/-- **The page shows the stored session.** In every run in which no 401 clears a token on a public
route, after each step the page shows a session if and only if a token is stored, and shows the
user and the kind of account that the token's payload has; and a step from a page that shows the
stored session leaves such a page if and only if it is not a 401 of that kind. -/
theorem session_agrees (host : Host) :
    (∀ storage location now actions s,
      Guarded (step host) (fun s a => ¬ s.Strands host a) (load host storage location now)
        actions s → s.Agrees host) ∧
    ∀ (s s' : Page) (a : Action), s.Agrees host → s.step host a = some s' →
      (s'.Agrees host ↔ ¬ s.Strands host a) :=
  ⟨fun _ _ _ _ _ hrun => run_agrees hrun, fun _ _ _ h hs => step_agrees h hs⟩

/-- The monitors of a session are refused when the page has gone to another route. -/
def refusedOn (pathname : String) : List Action :=
  signInWith 0 sessionA ++ [.apiFetch none Endpoint.fetchMonitors.options,
    .navigate ⟨pathname, ""⟩, .settle 0 (.answered 401 none)]

/-- On the public status page, a session is shown with no token stored. -/
theorem session_agrees_stranded : ¬ ∀ host storage location now actions s,
    Run (step host) (load host storage location now) actions s → s.Agrees host := by
  intro hclaim
  have hexec : (exec (step sample) loginPage (refusedOn "/status")).map
      (fun s => (s.tokenStore.get, s.auth.isAuthenticated)) = some (none, true) := by
    decide +kernel
  obtain ⟨s, hs, heq⟩ := Option.map_eq_some_iff.mp hexec
  simp only [Prod.mk.injEq] at heq
  have hagrees := hclaim sample (some none) ⟨"/login", ""⟩ 0 _ s (run_of_exec hs)
  obtain ⟨_, hstored⟩ := hagrees.isAuthenticated.mp heq.2
  cases hstored.symm.trans heq.1

/-- On another route the same refusal ends the session that is shown. -/
theorem session_agrees_protected : ∃ s,
    Guarded (step sample) (fun s a => ¬ s.Strands sample a) loginPage (refusedOn "/settings") s ∧
      s.Agrees sample ∧ s.auth.isAuthenticated = false := by
  have hexec : (execWithin (step sample) (fun s a => ¬ s.Strands sample a) loginPage
      (refusedOn "/settings")).map (fun s => s.auth.isAuthenticated) = some false := by
    decide +kernel
  obtain ⟨s, hs, heq⟩ := Option.map_eq_some_iff.mp hexec
  have hrun := guarded_of_exec hs
  exact ⟨s, hrun, (session_agrees sample).1 (some none) ⟨"/login", ""⟩ 0 _ s hrun, heq⟩

end Page

end Sentinel.Frontend
