import Sentinel.Frontend.Session

/-!
# Frontend — Unauthorized

What a 401 does to a session that is newer than the request it answers.

`apiFetch` does not compare the token that is stored when the response has come with the one that
the request was sent with. So what is kept of a newer session depends on the request's options, and
on whether such a request is still in flight when a login succeeds.

* `Ends`: the steps after which the session may be another one or none; `session_kept`.
* `Current`: a request whose 401 clears the token was sent with the token that is stored.
* `late_unauthorized`: which 401 a newer session survives.
-/

namespace Sentinel.Frontend

open Transition

namespace Page

/-- The token that a login stores with the step. -/
def signsIn (s : Page) : Action → Option String
  | .settle i outcome => s.inFlight[i]?.bind (·.accessToken outcome)
  | _ => none

/-- The session may be another one after the step, or none. -/
def Ends (s : Page) : Action → Prop
  | .logout | .watch => True
  | .reload => s.tokenStore.storage = none
  | .settle i outcome => s.signsIn (.settle i outcome) ≠ none ∨
      ∃ r access_token, s.inFlight[i]? = some r ∧ outcome = .answered 401 access_token ∧
        r.options.Handled
  | _ => False

/-- No request whose 401 clears the token is in flight when a login succeeds, unless it was sent
with the same token. -/
def Quiet (s : Page) (a : Action) : Prop :=
  ∀ B, s.signsIn a = some B → ∀ r ∈ s.inFlight, r.options.Handled → r.token = some B

/-- A request whose 401 clears the token was sent with the token that is stored. -/
def Current (s : Page) : Prop :=
  ∀ r ∈ s.inFlight, r.options.Handled → ∀ B, s.tokenStore.get = some B → r.token = some B

/-- The token and the location are as before. -/
def Spares (s s' : Page) : Prop :=
  s'.tokenStore.get = s.tokenStore.get ∧ s'.location = s.location

variable {host : Host} {s s' : Page} {a : Action}

/-! ### One step -/

theorem get_step (h : ¬ s.Ends a) (hs : s.step host a = some s') :
    s'.tokenStore.get = s.tokenStore.get := by
  cases step_cases hs with
  | ticked | navigated | spared => rfl
  | fetched | login | demoLogin => simp
  | @signedIn i outcome r access_token hi htoken =>
      refine absurd (.inl ?_) h
      simp only [signsIn, hi, Option.bind_some, htoken]
      exact Option.some_ne_none _
  | unauthorized hi hhandled => exact absurd (.inr ⟨_, _, hi, rfl, hhandled⟩) h
  | loggedOut | watched => exact absurd trivial h
  | reloaded =>
      obtain ⟨item, hitem⟩ := Option.ne_none_iff_exists'.mp h
      exact (get_setAuth host _).trans (s.tokenStore.get_load hitem)

/-- What a 401 does. -/
theorem step_unauthorized {i : Nat} {r : Request} {access_token : Option String}
    (hi : s.inFlight[i]? = some r)
    (hs : s.step host (.settle i (.answered 401 access_token)) = some s') :
    (¬ r.options.Handled → Spares s s') ∧
      (r.options.Handled → s'.tokenStore.get = none ∧ s'.location =
        if isPublicRoute host s.location.pathname then s.location
        else loginNext s.location.pathname) := by
  cases step_cases hs with
  | @spared _ _ r' hi' htoken hunhandled =>
      obtain rfl := Option.some.inj (hi.symm.trans hi')
      exact ⟨fun _ => ⟨rfl, rfl⟩, fun h => absurd h (hunhandled _ rfl)⟩
  | @signedIn _ _ r' token hi' htoken =>
      rw [Request.accessToken, if_neg fun h => not_ok_unauthorized h.2.1] at htoken
      cases htoken
  | @unauthorized _ _ r' hi' hhandled =>
      obtain rfl := Option.some.inj (hi.symm.trans hi')
      exact ⟨fun h => absurd hhandled h,
        fun _ => ⟨get_unauthorized host _, location_unauthorized host _⟩⟩

theorem mem_done {i : Nat} {r : Request} (h : r ∈ (s.done i).inFlight) : r ∈ s.inFlight :=
  List.mem_of_mem_eraseIdx h

/-- A request is sent with the token that is stored. -/
theorem Current.apiFetch (h : s.Current) (init : Option String) (options : ApiFetchOptions)
    (login : Bool) : (s.apiFetch init options login).Current := by
  intro r hr hhandled B hB
  rw [get_apiFetch] at hB
  rcases List.mem_append.mp hr with hr | hr
  · exact h r hr hhandled B hB
  · obtain rfl := List.mem_singleton.mp hr
    exact (if_neg (Bool.eq_false_iff.mp hhandled.1)).trans hB

theorem Current.of_get (h : s.Current) (hmem : ∀ r ∈ s'.inFlight, r ∈ s.inFlight)
    (hget : s'.tokenStore.get = s.tokenStore.get ∨ s'.tokenStore.get = none) : s'.Current := by
  intro r hr hhandled B hB
  rcases hget with hget | hget
  · exact h r (hmem r hr) hhandled B (hget.symm.trans hB)
  · cases hget.symm.trans hB

theorem inFlight_unauthorized (s : Page) : (s.unauthorized host).inFlight = s.inFlight := by
  unfold unauthorized unauthorizedHandler
  split
  · rfl
  · rfl

theorem inFlight_watch (s : Page) : (s.watch host).inFlight = s.inFlight := by
  simp only [watch]
  split
  · rfl
  · split
    · rfl
    · rfl

theorem Current.step (h : s.Current) (hquiet : s.Quiet a) (hs : s.step host a = some s') :
    s'.Current := by
  cases step_cases hs with
  | ticked | navigated => exact h
  | fetched | login | demoLogin => exact h.apiFetch _ _ _
  | spared => exact h.of_get (fun _ => mem_done) (.inl rfl)
  | @signedIn i outcome r access_token hi htoken =>
      intro r' hr' hhandled B hB
      cases hB
      refine hquiet access_token ?_ r' (mem_done hr') hhandled
      simp only [signsIn, hi, Option.bind_some, htoken]
  | unauthorized =>
      refine h.of_get (fun r hr => ?_) (.inr (get_unauthorized host _))
      rw [inFlight_unauthorized] at hr
      exact mem_done hr
  | loggedOut => exact h.of_get (fun _ hr => hr) (.inr rfl)
  | watched =>
      refine h.of_get (fun r hr => ?_) (get_watch host s)
      rwa [inFlight_watch] at hr
  | reloaded => exact fun r hr => (nomatch hr)

/-! ### Runs -/

/-- A session lasts until a step ends it. -/
theorem session_kept {actions : List Action}
    (hrun : Guarded (step host) (fun s a => ¬ s.Ends a) s actions s') :
    s'.tokenStore.get = s.tokenStore.get :=
  hrun.invariant (I := fun t : Page => t.tokenStore.get = s.tokenStore.get)
    (fun _ _ _ h hends hs => (get_step hends hs).trans h) rfl

theorem current_load (storage : Option (Option String)) (location : Location) (now : Int) :
    (load host storage location now).Current :=
  fun _ hr => (nomatch hr)

theorem run_current {storage : Option (Option String)} {location : Location} {now : Int}
    {actions : List Action}
    (hrun : Guarded (step host) Quiet (load host storage location now) actions s) : s.Current :=
  hrun.invariant (fun _ _ _ h hquiet hs => h.step hquiet hs) (current_load storage location now)

/-- **Which 401 a newer session survives.** A 401 to a request that is anonymous or whose 401 is
ignored keeps the token and the location, in every state; a 401 to any other request clears the
token that is stored, and leads to the login page unless the route is public. A session lasts until
a step ends it. In every run in which no request of the second kind that was sent with another
token is in flight when a login succeeds, a 401 to a request that was sent with another token than
the stored one keeps the token and the location. -/
theorem late_unauthorized (host : Host) :
    (∀ (s s' : Page) (i : Nat) r access_token, s.inFlight[i]? = some r →
      s.step host (.settle i (.answered 401 access_token)) = some s' →
        (¬ r.options.Handled → Spares s s') ∧
        (r.options.Handled → s'.tokenStore.get = none ∧ s'.location =
          if isPublicRoute host s.location.pathname then s.location
          else loginNext s.location.pathname)) ∧
    (∀ s actions s', Guarded (step host) (fun s a => ¬ s.Ends a) s actions s' →
      s'.tokenStore.get = s.tokenStore.get) ∧
    ∀ storage location now actions s,
      Guarded (step host) Quiet (load host storage location now) actions s →
        ∀ (s' : Page) (i : Nat) r A B access_token, s.inFlight[i]? = some r → r.token = some A →
          s.tokenStore.get = some B → A ≠ B →
            s.step host (.settle i (.answered 401 access_token)) = some s' → Spares s s' := by
  refine ⟨fun s s' i r access_token hi hs => step_unauthorized hi hs,
    fun s actions s' hrun => session_kept hrun, ?_⟩
  intro storage location now actions s hrun s' i r A B access_token hi hA hB hne hs
  refine (step_unauthorized hi hs).1 fun hhandled => hne ?_
  have htoken := run_current hrun r (List.mem_of_getElem? hi) hhandled B hB
  exact Option.some.inj (hA.symm.trans htoken)

/-- Two sessions, of an hour each. -/
def sessionA : String := "e30.eyJzdWIiOiJhIiwiZXhwIjozNjAwfQ.a"

def sessionB : String := "e30.eyJzdWIiOiJiIiwiZXhwIjozNjAwfQ.b"

def sample : Host where
  matchPath path pathname := path == pathname
  decodeJwtPayload token :=
    if token = sessionA then some ⟨3600, some "a", none⟩
    else if token = sessionB then some ⟨3600, some "b", none⟩
    else none

def signInWith (i : Nat) (access_token : String) : List Action :=
  [.login, .settle i (.answered 200 (some access_token)), .navigate ⟨"/", ""⟩]

/-- A request of one session that is in flight when the next one starts. -/
def lateRun (request : Action) : List Action :=
  signInWith 0 sessionA ++ [request, .logout] ++ signInWith 1 sessionB

def lateRequest (options : ApiFetchOptions) (login : Bool) : Request :=
  ⟨some sessionA, some ("Bearer " ++ sessionA), options, login⟩

def loginPage : Page := load sample (some none) ⟨"/login", ""⟩ 0

/-- A list of monitors of the first session, answered in the second one: nothing is left of it. -/
theorem late_unauthorized_clears : ∃ s s' r,
    Run (step sample) loginPage (lateRun (.apiFetch none Endpoint.fetchMonitors.options)) s ∧
      s.inFlight[0]? = some r ∧ r.token = some sessionA ∧ s.tokenStore.get = some sessionB ∧
      sessionA ≠ sessionB ∧ s.location = ⟨"/", ""⟩ ∧
      s.step sample (.settle 0 (.answered 401 none)) = some s' ∧
      s'.tokenStore.get = none ∧ s'.location = ⟨"/login", "?next=%2F"⟩ := by
  have hexec : (exec (step sample) loginPage
      (lateRun (.apiFetch none Endpoint.fetchMonitors.options))).map
      (fun s => (s.inFlight[0]?, s.tokenStore.get, s.location,
        (s.step sample (.settle 0 (.answered 401 none))).map fun s' =>
          (s'.tokenStore.get, s'.location))) =
        some (some (lateRequest {} false), some sessionB, ⟨"/", ""⟩,
          some (none, ⟨"/login", "?next=%2F"⟩)) := by
    decide +kernel
  obtain ⟨s, hs, heq⟩ := Option.map_eq_some_iff.mp hexec
  simp only [Prod.mk.injEq] at heq
  obtain ⟨hi, hB, hlocation, hlast⟩ := heq
  obtain ⟨s', hs', heq'⟩ := Option.map_eq_some_iff.mp hlast
  simp only [Prod.mk.injEq] at heq'
  exact ⟨s, s', _, run_of_exec hs, hi, rfl, hB, by decide +kernel, hlocation, hs', heq'⟩

instance (s : Page) (a : Action) : Decidable (s.Quiet a) :=
  inferInstanceAs (Decidable (∀ B ∈ s.signsIn a, ∀ r ∈ s.inFlight, r.options.Handled →
    r.token = some B))

/-- A demo login that is sent with the first session and refused in the second one. -/
theorem late_unauthorized_ignored : ∃ s s',
    Guarded (step sample) Quiet loginPage (lateRun .demoLogin) s ∧
      s.tokenStore.get = some sessionB ∧
      s.step sample (.settle 0 (.answered 401 none)) = some s' ∧ Spares s s' := by
  have hexec : (execWithin (step sample) Quiet loginPage (lateRun .demoLogin)).map
      (fun s => (s.inFlight[0]?, s.tokenStore.get,
        (s.step sample (.settle 0 (.answered 401 none))).isSome)) =
        some (some (lateRequest Endpoint.demoLogin.options true), some sessionB, true) := by
    decide +kernel
  obtain ⟨s, hs, heq⟩ := Option.map_eq_some_iff.mp hexec
  simp only [Prod.mk.injEq] at heq
  obtain ⟨hi, hB, hlast⟩ := heq
  obtain ⟨s', hs'⟩ := Option.isSome_iff_exists.mp hlast
  have hrun := guarded_of_exec hs
  exact ⟨s, s', hrun, hB, hs', (late_unauthorized sample).2.2 (some none) ⟨"/login", ""⟩ 0 _ s hrun
    s' 0 _ sessionA sessionB none hi rfl hB (by decide +kernel) hs'⟩

end Page

end Sentinel.Frontend
