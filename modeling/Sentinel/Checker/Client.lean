import Mathlib.Data.Rat.Floor
import Sentinel.Checker.Http

/-!
# Checker — Client

The client that `NewSafeHTTPClient` returns (`internal/checker/ssrf.go`), as the HTTP library uses
it: the time it leaves an exchange, and the redirects it follows.

* `exchangeLimit`: a check's exchange is under the limit of its request and under the client's own.
* `deadline_iff`: for which timeouts that is what a configuration asks for.
* `clientDo`: a request and the redirects that follow, of which each is put to `checkRedirect`.
* `redirects_iff`: for which chains three redirects are followed.
-/

namespace Sentinel.Checker

/-! ### The time limit -/

/-- The `Timeout` of the client. -/
def clientTimeout : Int := 10 * second

/-- The library with this client: an exchange ends when its request's time is up, or the
client's. -/
def HttpEnv.safeClient (env : HttpEnv) : HttpEnv :=
  { env with exchange := fun method target limit =>
      env.exchange method target (min limit clientTimeout) }

/-- The limit of the exchange of a check, by the timeout of its configuration. -/
def exchangeLimit (timeout : Option Rat) : Int := min (checkTimeout timeout) clientTimeout

/-- A check that comes to its exchange leaves it that time. -/
theorem HTTPChecker.check_limited {env : HttpEnv} {allowedPorts : Option (Int → Bool)}
    {m : Monitor} {u : Url}
    (htarget : validateTargetURL env.urlParse m.target
      (some (SafeTransportConfig.mk allowedPorts).ports) = .ok u)
    (hrequest : env.newRequest (m.config env).requestMethod m.target = none) :
    HTTPChecker.check env.safeClient allowedPorts m =
      match env.exchange (m.config env).requestMethod m.target
          (exchangeLimit (m.config env).timeout) with
      | (latencyMs, .error e) => .ok (failed latencyMs e)
      | (latencyMs, .ok resp) => .ok (received (m.config env).expected latencyMs resp) := by
  have hconfig : m.config env.safeClient = m.config env := rfl
  rw [HTTPChecker.check, hconfig]
  simp only [HttpEnv.safeClient, htarget, hrequest]
  rfl

theorem toInt_eq_floor {t : Rat} (ht : 0 < t) : toInt t = ⌊t⌋ := by
  rw [toInt, Int.tdiv_eq_ediv_of_nonneg (Rat.num_nonneg.mpr ht.le), Rat.floor_def']

/-- The cap of the request is above the client's limit. -/
theorem exchangeLimit_eq {t : Rat} (ht : 0 < t) :
    exchangeLimit (some t) = min ((⌊t⌋ * second).bmod (2 ^ 64)) clientTimeout := by
  simp only [exchangeLimit, checkTimeout, if_pos ht, toInt_eq_floor ht]
  generalize (⌊t⌋ * second).bmod (2 ^ 64) = reqTimeout
  have hcap : clientTimeout ≤ maxCheckTimeout := by decide
  split
  · rename_i hover
    rw [min_eq_right hcap, min_eq_right (hcap.trans hover.le)]
  · rfl

/-- The limit that a timeout should give: positive, capped, not less than for a smaller timeout, and
the timeout itself up to 15 seconds. -/
structure Deadline (t : Rat) : Prop where
  positive : 0 < exchangeLimit (some t)
  capped : exchangeLimit (some t) ≤ maxCheckTimeout
  monotone : ∀ t', 0 < t' → t' ≤ t → exchangeLimit (some t') ≤ exchangeLimit (some t)
  exact : ∀ n : Int, 1 ≤ n → t = n → exchangeLimit (some t) = min n 15 * second

/-- A timeout within the client's limit, or a fraction beyond it whose seconds come to at least that
limit in 64 bits. -/
def Timely (t : Rat) : Prop :=
  1 ≤ t ∧ t ≤ 10 ∨
    10 < t ∧ (∀ n : Int, t ≠ n) ∧ 10 * second ≤ (⌊t⌋ * second) % 2 ^ 64 ∧
      (⌊t⌋ * second) % 2 ^ 64 < 2 ^ 63

/-- The product is the exact one as long as it is small. -/
theorem product_exact {n : Int} (h₀ : 0 ≤ n) (h₁ : n ≤ 10) :
    (n * second).bmod (2 ^ 64) = n * second := by
  simp only [second]
  refine Int.bmod_eq_of_le_mul_two ?_ ?_
  · omega
  · omega

theorem exchangeLimit_small {t : Rat} (ht : 0 < t) (hmax : t ≤ 10) :
    exchangeLimit (some t) = ⌊t⌋ * second := by
  have h₀ : 0 ≤ ⌊t⌋ := Int.floor_nonneg.mpr ht.le
  have h₁ : ⌊t⌋ ≤ 10 := by
    have hfloor : (⌊t⌋ : Rat) ≤ (10 : Int) := (Int.floor_le t).trans (by exact_mod_cast hmax)
    exact_mod_cast hfloor
  rw [exchangeLimit_eq ht, product_exact h₀ h₁, min_eq_left]
  simp only [clientTimeout, second]
  omega

theorem exchangeLimit_le (timeout : Option Rat) : exchangeLimit timeout ≤ clientTimeout :=
  min_le_right _ _

theorem deadline_small {t : Rat} (h₁ : 1 ≤ t) (h₁₀ : t ≤ 10) : Deadline t where
  positive := by
    have hfloor : 1 ≤ ⌊t⌋ := Int.le_floor.mpr (by exact_mod_cast h₁)
    rw [exchangeLimit_small (lt_of_lt_of_le one_pos h₁) h₁₀, second]
    omega
  capped := (exchangeLimit_le _).trans (by decide)
  monotone t' h₀ hle := by
    have hfloor : ⌊t'⌋ ≤ ⌊t⌋ := Int.floor_le_floor hle
    rw [exchangeLimit_small (lt_of_lt_of_le one_pos h₁) h₁₀,
      exchangeLimit_small h₀ (hle.trans h₁₀), second]
    omega
  exact n hn hint := by
    subst hint
    have hle : n ≤ 10 := by exact_mod_cast h₁₀
    rw [exchangeLimit_small (lt_of_lt_of_le one_pos h₁) h₁₀, Int.floor_intCast, min_eq_left]
    omega

/-- **When a timeout has its deadline**: from 1 to 10 seconds, and beyond that for no whole number,
and for a fraction only if the 64-bit product does not come out below the client's limit. -/
theorem deadline_iff (t : Rat) (ht : 0 < t) : Deadline t ↔ Timely t := by
  constructor
  · intro h
    have hone : 1 ≤ t := by
      by_contra hlt
      have hfloor : ⌊t⌋ = 0 := Int.floor_eq_zero_iff.mpr ⟨ht.le, not_le.mp hlt⟩
      have hpositive := h.positive
      rw [exchangeLimit_eq ht, hfloor] at hpositive
      exact absurd hpositive (by decide)
    by_cases hten : t ≤ 10
    · exact .inl ⟨hone, hten⟩
    · refine .inr ⟨not_le.mp hten, fun n hn => ?_, ?_⟩
      · -- a whole number beyond the client's limit
        have hn₁₀ : 10 < n := by
          rw [hn] at hten
          exact_mod_cast not_le.mp hten
        have hlimit := h.exact n (by omega) hn
        have hle := exchangeLimit_le (some t)
        rw [hlimit, clientTimeout, second] at hle
        omega
      · have hmono := h.monotone 10 (by norm_num) (not_le.mp hten).le
        rw [exchangeLimit_small (by norm_num) le_rfl, exchangeLimit_eq ht,
          show ⌊(10 : Rat)⌋ = 10 from Int.floor_intCast 10] at hmono
        have hproduct := hmono.trans (min_le_left _ _)
        rw [Int.bmod_eq_emod] at hproduct
        generalize ⌊t⌋ * second = p at hproduct
        simp only [second] at hproduct ⊢
        split at hproduct <;> omega
  · rintro (⟨hone, hten⟩ | ⟨hten, hfraction, hlow, hhigh⟩)
    · exact deadline_small hone hten
    · have hlimit : exchangeLimit (some t) = clientTimeout := by
        rw [exchangeLimit_eq ht, Int.bmod_eq_emod_of_lt]
        · exact min_eq_right hlow
        · exact hhigh
      exact ⟨hlimit ▸ by decide, hlimit ▸ by decide, fun t' _ _ => hlimit ▸ exchangeLimit_le _,
        fun n _ hn => absurd hn (hfraction n)⟩

theorem deadline_ten : Deadline 10 ∧ exchangeLimit (some 10) = 10 * second :=
  have h : Deadline 10 := (deadline_iff 10 (by norm_num)).mpr (.inl ⟨by norm_num, le_rfl⟩)
  ⟨h, h.exact 10 (by decide) rfl⟩

/-- Half a second is none, a quarter of a minute is cut to ten seconds, and three hundred years have
passed before the request is sent. -/
theorem deadline_lost :
    (exchangeLimit (some (1 / 2)) = 0 ∧ ¬ Deadline (1 / 2)) ∧
      (exchangeLimit (some 15) = 10 * second ∧ ¬ Deadline 15) ∧
        (exchangeLimit (some 9223372037) < 0 ∧ ¬ Deadline 9223372037) := by
  have hhalf : exchangeLimit (some (1 / 2)) = 0 := by decide +kernel
  have hquarter : exchangeLimit (some 15) = 10 * second := by decide +kernel
  have hcentury : exchangeLimit (some 9223372037) < 0 := by decide +kernel
  refine ⟨⟨hhalf, fun h => ?_⟩, ⟨hquarter, fun h => ?_⟩, hcentury, fun h => ?_⟩
  · exact absurd (hhalf ▸ h.positive) (by decide)
  · have hexact := h.exact 15 (by decide) rfl
    rw [hquarter] at hexact
    exact absurd hexact (by decide)
  · exact absurd h.positive (by omega)

/-! ### Redirects -/

/-- What `CheckRedirect` refuses a redirect with. -/
inductive RedirectError where
  | tooManyRedirects
  | blocked (e : SsrfError)
deriving DecidableEq, Repr

def RedirectError.message : RedirectError → String
  | tooManyRedirects => "ssrf: too many redirects (max 3)"
  | blocked e => "redirect blocked: " ++ e.message

/-- The `CheckRedirect` of the client: whether a URL is requested after the requests `via`. -/
def checkRedirect (urlParse : String → Except String Url) (cfg : SafeTransportConfig)
    (url : String) (via : List String) : Except RedirectError Unit :=
  if via.length ≥ 3 then .error .tooManyRedirects
  else
    match validateTargetURL urlParse url (some cfg.ports) with
    | .error e => .error (.blocked e)
    | .ok _ => .ok ()

inductive ProbeError where
  | invalidURL (e : String)
  | dial (e : SsrfError)
  | redirect (e : RedirectError)
deriving DecidableEq, Repr

/-- The library and the network, as a client uses them. -/
structure Network where
  urlParse : String → Except String Url
  /-- The address of a URL, with the port of its scheme if it has none. -/
  canonicalAddr : Url → Text
  /-- The resolver at each of the requests. -/
  lookupIP : Nat → Resolver

/-- Connects for the `n`-th request. -/
def Network.connect (net : Network) (cfg : SafeTransportConfig) (n : Nat) (url : String) :
    Except ProbeError (String × Text) :=
  match net.urlParse url with
  | .error e => .error (.invalidURL e)
  | .ok u => (dialContext cfg (net.lookupIP n) "tcp" (net.canonicalAddr u)).mapError .dial

/-- `Client.Do`, from the request of `url` on: the requests sent before are `via`, and the answers
are redirects to `hops`, one after the other, and then `final`. It returns the requests sent and the
outcome. -/
def clientDo (net : Network) (cfg : SafeTransportConfig) (final : Response) (via : List String)
    (url : String) (hops : List String) : List String × Except ProbeError Response :=
  match net.connect cfg via.length url with
  | .error e => (via, .error e)
  | .ok _ =>
      match hops with
      | [] => (via ++ [url], .ok final)
      | hop :: hops =>
          match checkRedirect net.urlParse cfg hop (via ++ [url]) with
          | .error e => (via ++ [url], .error (.redirect e))
          | .ok _ => clientDo net cfg final (via ++ [url]) hop hops

section Redirects

variable {net : Network} {cfg : SafeTransportConfig} {final : Response} {url : String}
  {via hops : List String}

/-- The URL is one that `validateTargetURL` lets through. -/
def Valid (net : Network) (cfg : SafeTransportConfig) (url : String) : Prop :=
  ∃ u, validateTargetURL net.urlParse url (some cfg.ports) = .ok u

/-- The addresses of the URLs are dialed, from the `n`-th request on. -/
def Allowed (net : Network) (cfg : SafeTransportConfig) : Nat → List String → Prop
  | _, [] => True
  | n, url :: urls => (∃ call, net.connect cfg n url = .ok call) ∧ Allowed net cfg (n + 1) urls

theorem checkRedirect_ok (h : checkRedirect net.urlParse cfg url via = .ok ()) :
    via.length < 3 ∧ Valid net cfg url := by
  unfold checkRedirect at h
  split at h
  · cases h
  · rename_i hlength
    split at h
    · cases h
    · rename_i u hu
      exact ⟨Nat.lt_of_not_le hlength, u, hu⟩

theorem checkRedirect_valid (hlength : via.length < 3) (h : Valid net cfg url) :
    checkRedirect net.urlParse cfg url via = .ok () := by
  obtain ⟨u, hu⟩ := h
  rw [checkRedirect, if_neg (Nat.not_le.mpr hlength), hu]

/-- **Every request that is sent is of a URL that was let through.** -/
theorem clientDo_sent (hvia : ∀ u ∈ via, Valid net cfg u) (hurl : Valid net cfg url) :
    ∀ u ∈ (clientDo net cfg final via url hops).1, Valid net cfg u := by
  have hnext : ∀ u ∈ via ++ [url], Valid net cfg u := by
    intro u hu
    rcases List.mem_append.mp hu with hu | hu
    · exact hvia u hu
    · exact List.mem_singleton.mp hu ▸ hurl
  induction hops generalizing via url with
  | nil =>
      unfold clientDo
      split
      · exact hvia
      · exact hnext
  | cons hop hops ih =>
      unfold clientDo
      split
      · exact hvia
      · simp only
        split
        · exact hnext
        · rename_i hcheck
          have hhop := (checkRedirect_ok hcheck).2
          refine ih hnext hhop fun u hu => ?_
          rcases List.mem_append.mp hu with hu | hu
          · exact hnext u hu
          · exact List.mem_singleton.mp hu ▸ hhop

/-- A redirect that is not let through ends the probe, if the probe comes to it. -/
theorem clientDo_blocked {hop : String} (hmem : hop ∈ hops) (hhop : ¬ Valid net cfg hop) :
    ∃ e, (clientDo net cfg final via url hops).2 = .error e := by
  induction hops generalizing via url with
  | nil => cases hmem
  | cons next hops ih =>
      unfold clientDo
      split
      · exact ⟨_, rfl⟩
      · simp only
        split
        · exact ⟨_, rfl⟩
        · rename_i hcheck
          rcases List.mem_cons.mp hmem with rfl | hmem
          · exact absurd (checkRedirect_ok hcheck).2 hhop
          · exact ih hmem

/-- Nothing is in the way of the redirects but their number: two are followed. -/
theorem clientDo_allowed (hvia : via.length ≤ 2) (hhops : ∀ hop ∈ hops, Valid net cfg hop)
    (hallowed : Allowed net cfg via.length (url :: hops)) :
    (clientDo net cfg final via url hops).2 =
      if via.length + hops.length ≤ 2 then .ok final
      else .error (.redirect .tooManyRedirects) := by
  induction hops generalizing via url with
  | nil =>
      obtain ⟨⟨call, hcall⟩, -⟩ := hallowed
      rw [clientDo, hcall]
      exact (if_pos hvia).symm
  | cons hop hops ih =>
      obtain ⟨⟨call, hcall⟩, hallowed⟩ := hallowed
      have hlength : (via ++ [url]).length = via.length + 1 := by simp
      rw [clientDo, hcall]
      simp only
      by_cases hthird : via.length = 2
      · rw [checkRedirect, if_pos (by rw [hlength]; omega), if_neg (by simp; omega)]
      · rw [checkRedirect_valid (by rw [hlength]; omega) (hhops hop List.mem_cons_self)]
        simp only
        rw [ih (by rw [hlength]; omega) (fun h hh => hhops h (List.mem_cons_of_mem _ hh))
          (hlength ▸ hallowed), hlength, List.length_cons, Nat.add_right_comm, Nat.add_assoc]

/-- What the redirects of a probe should come to: one that is not let through is never requested and
ends the probe, up to three are followed to the response, and more are too many. -/
structure FollowsRedirects (net : Network) (cfg : SafeTransportConfig) (target : String)
    (hops : List String) (final : Response) : Prop where
  revalidated : ∀ hop ∈ hops, ¬ Valid net cfg hop →
    hop ∉ (clientDo net cfg final [] target hops).1 ∧
      ∃ e, (clientDo net cfg final [] target hops).2 = .error e
  followed : (∀ hop ∈ hops, Valid net cfg hop) → Allowed net cfg 0 (target :: hops) →
    hops.length ≤ 3 → (clientDo net cfg final [] target hops).2 = .ok final
  stopped : (∀ hop ∈ hops, Valid net cfg hop) → Allowed net cfg 0 (target :: hops) →
    3 < hops.length →
      (clientDo net cfg final [] target hops).2 = .error (.redirect .tooManyRedirects)

/-- **The third redirect is refused**, and nothing else is wrong: for any number of redirects but
three, and for three of which one is not let through or not dialed, the probe does what it
should. -/
theorem redirects_iff (net : Network) (cfg : SafeTransportConfig) (target : String)
    (hops : List String) (final : Response) (htarget : Valid net cfg target) :
    FollowsRedirects net cfg target hops final ↔
      ¬ (hops.length = 3 ∧ (∀ hop ∈ hops, Valid net cfg hop) ∧
        Allowed net cfg 0 (target :: hops)) := by
  have hlimit : (∀ hop ∈ hops, Valid net cfg hop) → Allowed net cfg 0 (target :: hops) →
      (clientDo net cfg final [] target hops).2 =
        if hops.length ≤ 2 then .ok final else .error (.redirect .tooManyRedirects) := by
    intro hhops hallowed
    have hdo : (clientDo net cfg final [] target hops).2 = if [].length + hops.length ≤ 2 then _
        else _ := clientDo_allowed (Nat.zero_le 2) hhops hallowed
    rwa [List.length_nil, Nat.zero_add] at hdo
  constructor
  · rintro h ⟨hthree, hhops, hallowed⟩
    have hfinal := h.followed hhops hallowed hthree.le
    rw [hlimit hhops hallowed, if_neg (by omega)] at hfinal
    cases hfinal
  · intro hnot
    refine ⟨fun hop hmem hhop => ⟨fun hsent => hhop ?_, clientDo_blocked hmem hhop⟩,
      fun hhops hallowed hle => ?_, fun hhops hallowed hlt => ?_⟩
    · exact clientDo_sent (fun u hu => absurd hu List.not_mem_nil) htarget hop hsent
    · rw [hlimit hhops hallowed, if_pos]
      have hne : hops.length ≠ 3 := fun hthree => hnot ⟨hthree, hhops, hallowed⟩
      omega
    · rw [hlimit hhops hallowed, if_neg (by omega)]

end Redirects

/-- One public host, at every request. -/
def publicNetwork : Network where
  urlParse _ := .ok ⟨"https".toList, "example.com".toList⟩
  canonicalAddr u := u.host ++ ":443".toList
  lookupIP _ := fun _ _ => .ok [some (IpText.IP.of4 [93, 184, 216, 34] rfl)]

def defaultTransport : SafeTransportConfig := ⟨none⟩

theorem publicNetwork_valid (url : String) : Valid publicNetwork defaultTransport url := ⟨_, rfl⟩

theorem publicNetwork_allowed (n : Nat) (urls : List String) :
    Allowed publicNetwork defaultTransport n urls := by
  induction urls generalizing n with
  | nil => trivial
  | cons url urls ih => exact ⟨⟨_, rfl⟩, ih (n + 1)⟩

theorem redirects_two : (clientDo publicNetwork defaultTransport ⟨200, .empty⟩ []
    "https://example.com" ["https://example.com/a", "https://example.com/b"]).2 =
      .ok ⟨200, .empty⟩ :=
  ((redirects_iff publicNetwork defaultTransport "https://example.com"
    ["https://example.com/a", "https://example.com/b"] ⟨200, .empty⟩ (publicNetwork_valid _)).mpr
      fun h => absurd h.1 (by decide)).followed (fun _ _ => publicNetwork_valid _)
        (publicNetwork_allowed _ _) (by decide)

/-- Three redirects to a public host are one too many. -/
theorem redirects_three :
    let hops := ["https://example.com/a", "https://example.com/b", "https://example.com/c"]
    (clientDo publicNetwork defaultTransport ⟨200, .empty⟩ [] "https://example.com" hops).2 =
        .error (.redirect .tooManyRedirects) ∧
      ¬ FollowsRedirects publicNetwork defaultTransport "https://example.com" hops
        ⟨200, .empty⟩ := by
  intro hops
  have hrefused : (clientDo publicNetwork defaultTransport ⟨200, .empty⟩ []
      "https://example.com" hops).2 = .error (.redirect .tooManyRedirects) := rfl
  refine ⟨hrefused, fun h => ?_⟩
  have hfinal := h.followed (fun _ _ => publicNetwork_valid _) (publicNetwork_allowed _ _) le_rfl
  rw [hrefused] at hfinal
  cases hfinal

end Sentinel.Checker
