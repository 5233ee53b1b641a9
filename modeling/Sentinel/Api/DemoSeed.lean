import Sentinel.Api.Target

/-!
# Api — DemoSeed

`DemoSeed.seed` of `src/demo/demo-seed.ts`: the demo account and its monitors. Its statements are
committed one by one, so a failure leaves what was done before it.
-/

namespace Sentinel.Api

open Program Database

/-- `DemoManifest`, with the monitors as they were parsed. -/
structure DemoManifest where
  email : String
  password : String
  monitors : Json

/-- The checks of the entries before anything is written. -/
def checkDemoMonitors (rt : Runtime) : List Json → Except ApiError Unit
  | [] => .ok ()
  | .null :: _ => .error .typeError
  | monitor :: monitors =>
      if !(monitor.prop "seed_key").any Json.truthy ||
          !validateTarget rt (monitor.prop "target") then
        .error (.invalidEntry "demo" "undefined" (monitor.prop "seed_key"))
      else checkDemoMonitors rt monitors

/-- The key and the columns of an entry, unless they have the wrong types. -/
def demoValues (rt : Runtime) (monitor : Json) : Option (String × SeedValues) :=
  match monitor.prop "seed_key", monitor.prop "name", monitor.prop "target",
      monitor.prop "frequency", monitor.prop "check_type", monitor.prop "check_config" with
  | _, _, _, _, _, some .null => none
  | some (.str seedKey), some (.str name), some (.str target), some (.num frequency),
      some (.str checkType), checkConfig =>
      if frequency.den = 1 ∧ isInteger frequency.num then
        some (seedKey,
          { name := name, target := target, frequency := frequency.num, state := "Active",
            checkType := checkType, checkConfig := checkConfig.map rt.stringify,
            consecutiveFailures := 0, isPublic := false })
      else none
  | _, _, _, _, _, _ => none

/-- The upserts of the manifest. -/
def upsertDemoMonitors (rt : Runtime) (userId : Int) : List Json → Client (Except ApiError Unit)
  | [] => return .ok ()
  | monitor :: monitors => do
      let now ← Client.now
      match demoValues rt monitor with
      | none => return .error .invalidArgument
      | some (seedKey, values) =>
          query (.upsertMonitor userId seedKey values now) fun _ =>
            upsertDemoMonitors rt userId monitors

/-- The demo account, created if it is not there. -/
def upsertDemoUser (email hashedPassword : String) : Client (Except ApiError Int) := do
  let createdAt ← Client.now
  let updatedAt ← Client.now
  query (.upsertDemoUser
    { email := email, username := email, name := "Demo", lastName := "User",
      password := hashedPassword, status := some "Active", isActive := true, isDemo := true,
      createdAt := createdAt, updatedAt := updatedAt }) fun id => return .ok id

/-- The email of the demo account. -/
def demoEmail (rt : Runtime) (manifest : DemoManifest) : String :=
  (rt.env "DEMO_USER_EMAIL").getD manifest.email

/-- Hashing the password. -/
def hashPassword (password : String) : Client (Except ApiError String) := do
  match ← Client.hash password with
  | .error e => return .error (.thrown e)
  | .ok hashed => return .ok hashed

/-- What `DemoSeed.seed` accepts: the entries. -/
def DemoSeed.accept (rt : Runtime) (manifest : DemoManifest) : Except ApiError (List Json) :=
  let maxMonitors := rt.config "DEMO_MAX_MONITORS" 3
  if !maxMonitors.isInteger ||
      manifest.monitors.length.any fun (n : Nat) => (Number.finite n).ge maxMonitors then
    .error (.badRequest "DEMO_MAX_MONITORS must leave at least one free monitor slot")
  else
    match manifest.monitors.items with
    | none => .error .typeError
    | some monitors => (checkDemoMonitors rt monitors).map fun _ => monitors

/-- What is accepted of an array are its entries. -/
theorem DemoSeed.accept_arr {rt : Runtime} {email password : String} {values entries : List Json}
    (h : DemoSeed.accept rt ⟨email, password, .arr values⟩ = .ok entries) : entries = values := by
  unfold DemoSeed.accept at h
  simp only [Json.items] at h
  split at h
  · cases h
  · obtain ⟨_, -, rfl⟩ := map_eq_ok h
    rfl

/-- `DemoSeed.seed`. -/
def DemoSeed.seed (rt : Runtime) (manifest : DemoManifest) : Client (Except ApiError Unit) :=
  match DemoSeed.accept rt manifest with
  | .error e => return .error e
  | .ok monitors =>
      await (hashPassword ((rt.env "DEMO_USER_PASSWORD").getD manifest.password))
        fun hashedPassword =>
          await (upsertDemoUser (demoEmail rt manifest) hashedPassword) fun userId =>
            upsertDemoMonitors rt userId monitors

/-! ### What the seed sends -/

/-- What is upserted: the entries up to the first with the wrong types. -/
def demoUpserts (rt : Runtime) : List Json → List (String × SeedValues)
  | [] => []
  | monitor :: monitors =>
      match demoValues rt monitor with
      | none => []
      | some upsert => upsert :: demoUpserts rt monitors

theorem demoUpserts_values {rt : Runtime} :
    ∀ {monitors : List Json}, ∀ upsert ∈ demoUpserts rt monitors,
      upsert.2.consecutiveFailures = 0 ∧ upsert.2.isPublic = false
  | [], upsert, h => (nomatch h)
  | monitor :: monitors, upsert, h => by
      rw [demoUpserts] at h
      cases hvalues : demoValues rt monitor with
      | none =>
          rw [hvalues] at h
          cases h
      | some first =>
          rw [hvalues] at h
          rcases List.mem_cons.mp h with rfl | h
          · unfold demoValues at hvalues
            split at hvalues
            · cases hvalues
            · split at hvalues
              · cases hvalues
                exact ⟨rfl, rfl⟩
              · cases hvalues
            · cases hvalues
          · exact demoUpserts_values upsert h

section Only

variable {P : Op → Prop}

theorem upsertDemoMonitors_only {rt : Runtime} {userId : Int} (hnow : P .now) :
    ∀ {monitors : List Json},
      (∀ upsert ∈ demoUpserts rt monitors, ∀ now,
        P (.sql (.upsertMonitor userId upsert.1 upsert.2 now))) →
      (upsertDemoMonitors rt userId monitors).Only P
  | [], _ => trivial
  | monitor :: monitors, h => by
      refine Prog.only_bind (fun now => ?_) (Prog.only_op hnow)
      cases hvalues : demoValues rt monitor with
      | none => trivial
      | some upsert =>
          rw [demoUpserts, hvalues] at h
          refine only_query (h upsert List.mem_cons_self now) fun _ => ?_
          exact upsertDemoMonitors_only hnow fun u hu => h u (List.mem_cons_of_mem _ hu)

theorem upsertDemoUser_only {email hashedPassword : String} (hnow : P .now)
    (huser : ∀ data : NewUser, data.email = email → P (.sql (.upsertDemoUser data))) :
    (upsertDemoUser email hashedPassword).Only P := by
  refine Prog.only_bind (fun createdAt => ?_) (Prog.only_op hnow)
  refine Prog.only_bind (fun updatedAt => ?_) (Prog.only_op hnow)
  exact only_query (huser _ rfl) fun _ => trivial

theorem hashPassword_only {password : String} (hhash : P (.hash password)) :
    (hashPassword password).Only P := by
  refine Prog.only_bind (fun r => ?_) (Prog.only_op hhash)
  cases r <;> trivial

theorem DemoSeed.seed_only {rt : Runtime} {manifest : DemoManifest} (hnow : P .now)
    (hhash : ∀ password, P (.hash password))
    (huser : ∀ data : NewUser, P (.sql (.upsertDemoUser data)))
    (hmonitor : ∀ userId seedKey values now, values.consecutiveFailures = 0 →
      values.isPublic = false → P (.sql (.upsertMonitor userId seedKey values now))) :
    (DemoSeed.seed rt manifest).Only P := by
  unfold DemoSeed.seed
  split
  · trivial
  · refine only_await (hashPassword_only (hhash _)) fun hashedPassword => ?_
    refine only_await (upsertDemoUser_only hnow fun data _ => huser data) fun userId => ?_
    refine upsertDemoMonitors_only hnow fun upsert hupsert now => ?_
    obtain ⟨hfailures, hpublic⟩ := demoUpserts_values upsert hupsert
    exact hmonitor userId upsert.1 upsert.2 now hfailures hpublic

end Only

end Sentinel.Api
