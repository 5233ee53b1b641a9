import Sentinel.Api.DemoSeed
import Sentinel.Api.Monitors
import Sentinel.Api.StatusSeed
import Sentinel.Worker.DemoReset
import Sentinel.Worker.Retention
import Sentinel.Worker.Trail

/-!
# System — Operations

Everything that writes to the tables, as one type of operations, each with the program it runs.

* A `Writer` is what runs beside the checks of the worker: a request, a reset of the demo account,
  a retention pass.
* An `Operation` is a writer, a check of a monitor, or a seed.
-/

namespace Sentinel.System

open Program Database Api Worker

inductive Writer where
  | create (rt : Runtime) (dto : CreateMonitorDto) (user : Requester)
  | update (rt : Runtime) (monitorId : Int) (user : Requester) (dto : UpdateMonitorDto)
  | delete (monitorId userId : Int)
  | reset (unmarshal : String → Except String (List DemoMonitor)) (email manifestPath : String)
  | retain (cfg : RetentionConfig)

/-- The program of a writer, ending with whether it succeeded. -/
def Writer.program : Writer → Client Bool
  | .create rt dto user => do
      let r ← createMonitor rt dto user
      return r.isOk
  | .update rt monitorId user dto => do
      let r ← updateMonitor rt monitorId user dto
      return r.isOk
  | .delete monitorId userId => do
      let r ← deleteMonitor monitorId userId
      return r.isOk
  | .reset unmarshal email manifestPath => do
      let r ← resetDemoAccount unmarshal email manifestPath
      return r.isNone
  | .retain cfg => do
      let r ← runRetentionPass cfg
      return r.isNone

/-- The operations of writers. -/
inductive WriterSends : Op → Prop where
  | request {userId : Int} {o : Op} (h : Sends userId o) : WriterSends o
  | reset {o : Op} (h : ResetSends o) : WriterSends o
  | retain {o : Op} (h : RetentionSends o) : WriterSends o

theorem Writer.program_sends (w : Writer) : w.program.Only WriterSends := by
  have hret : ∀ {α : Type} {p : Client α} (f : α → Bool), p.Only WriterSends →
      (p >>= fun r => pure (f r)).Only WriterSends :=
    fun f hp => Prog.only_bind (fun _ => Prog.only_ret) hp
  cases w with
  | create rt dto user =>
      exact hret _ ((createMonitor_sends rt dto user).mono fun _ => .request)
  | update rt monitorId user dto =>
      exact hret _ ((updateMonitor_sends rt monitorId user dto).mono fun _ => .request)
  | delete monitorId userId =>
      exact hret _ ((deleteMonitor_sends monitorId userId).mono fun _ => .request)
  | reset unmarshal email manifestPath =>
      exact hret _ ((resetDemoAccount_sends unmarshal email manifestPath).mono fun _ => .reset)
  | retain cfg => exact hret _ ((runRetentionPass_sends cfg).mono fun _ => .retain)

/-- Writers make quiet changes. -/
theorem WriterSends.quiet {o : Op} (ho : WriterSends o) : o.Writes Quiet := by
  refine Op.writes_of_makes fun q hq w hw => ?_
  subst hq
  rcases ho with h | h | h
  · cases h with
    | create hfailures _ =>
        cases hw
        exact ⟨rfl, hfailures⟩
    | update | deleteCheckResults | deleteAlerts | deleteMonitor =>
        cases hw
        trivial
    | count | find => cases hw
  · cases h with
    | insert =>
        obtain ⟨⟩ := hw
        assumption
    | deleteCheckResults | deleteAlerts | deleteMonitors =>
        cases hw
        trivial
    | select => cases hw
  · cases h with
    | delete table cutoff limit => cases hw <;> trivial

inductive Operation where
  | writer (w : Writer)
  | check (registered : List String) (m : Checker.Monitor) (thresholds : List Int)
  | statusSeed (rt : Runtime) (manifest : Json)
  | demoSeed (rt : Runtime) (manifest : DemoManifest)

/-- The program of an operation, ending with whether it succeeded. -/
def Operation.program : Operation → Client Bool
  | .writer w => w.program
  | .check registered m thresholds => do
      let r ← checkAndPersist registered m thresholds
      return r.isNone
  | .statusSeed rt manifest => do
      let r ← StatusSeed.seed rt manifest
      return r.isOk
  | .demoSeed rt manifest => do
      let r ← DemoSeed.seed rt manifest
      return r.isOk

/-- An operation on its own, from a store to the store afterwards and whether it succeeded. -/
def Operation.run (o : Operation) (choices : Nat → Choice) (st : Store) : Store × Bool :=
  let x := o.program.run (Prog.logged handle) choices (st, []) .idle
  (x.1.1, x.2.2)

/-- **What its statements keep, an operation keeps**, whatever fails. Which statements it comes to
may depend on the replies to the ones before. -/
theorem Operation.run_yields {I : Seq → Db → Prop} {Q : Bool → Prop}
    (hmono : ∀ a b db, I a db → a.Le b → I b db) {o : Operation}
    (ho : o.program.Yields (·.Keeps I) (Op.Answers I) Q) (choices : Nat → Choice) {st : Store}
    (h : I st.seq st.db) : I (o.run choices st).1.seq (o.run choices st).1.db := by
  have htracks : Tracks I (o.run choices st).1 _ :=
    Prog.Yields.run (h := Prog.logged handle) (I := fun x s => Tracks I x.1 s)
      (fun choice x s o ho hx => ⟨handle_tracks hmono choice x.1 s o ho hx,
        handle_answers choice hx o⟩) ho ⟨h, fun ws hws => (nomatch hws)⟩
  exact htracks.committed

theorem Operation.run_keeps {I : Seq → Db → Prop}
    (hmono : ∀ a b db, I a db → a.Le b → I b db) {o : Operation}
    (ho : o.program.Only (·.Keeps I)) (choices : Nat → Choice) {st : Store}
    (h : I st.seq st.db) : I (o.run choices st).1.seq (o.run choices st).1.db :=
  Operation.run_yields hmono ho.yields choices h

theorem Operation.run_keyed (o : Operation) (choices : Nat → Choice) {st : Store}
    (h : Keyed st.seq st.db) : Keyed (o.run choices st).1.seq (o.run choices st).1.db :=
  Operation.run_keeps (fun _ _ _ h hle => h.mono hle)
    (Prog.only_of_forall keeps_keyed o.program) choices h

/-- A fetch changes no table, and gives the rows that are due. -/
theorem fetchDueMonitors_run (choice : Choice) {st : Store} {I : Seq → Db → Prop}
    (hmono : ∀ a b db, I a db → a.Le b → I b db) (h : I st.seq st.db) :
    let r := fetchDueMonitors.run handle (fun _ => choice) st .idle
    I r.1.seq r.1.db ∧ ∀ ms, r.2.2 = .ok ms →
      ∃ a db now, I a db ∧ ms = (db.monitors.filter (·.due now)).map (·.snapshot) := by
  have htracks : Tracks I st .idle := ⟨h, fun ws hws => (nomatch hws)⟩
  have hselect : (Op.sql .selectDue).Keeps I := by
    refine Op.keeps_sql fun moment a db b out ws db' hplan hreplay h => ?_
    cases hplan
    cases hreplay
    exact h
  refine ⟨(handle_tracks hmono choice st .idle _ hselect htracks).committed, ?_⟩
  intro ms hms
  rcases handle_answers choice htracks (.sql .selectDue) ms hms with
    hq | ⟨moment, db, a, b, ws, hdb, hplan⟩
  · cases hq
  · cases hplan
    exact ⟨a, db, moment.now, hdb, rfl⟩

/-- What a fetch gives is due at the time the database has then. -/
theorem fetchDueMonitors_due (choice : Choice) {st : Store} {ms : List Checker.Monitor}
    (h : (fetchDueMonitors.run handle (fun _ => choice) st .idle).2.2 = .ok ms) :
    ms = (st.db.monitors.filter (·.due choice.moment.now)).map (·.snapshot) := by
  have hcases := Session.send_cases choice st .idle .selectDue
  rw [show (fetchDueMonitors.run handle (fun _ => choice) st .idle).2.2 =
    (Session.idle.send choice st .selectDue).2.2 from rfl] at h
  generalize Session.idle.send choice st .selectDue = r at hcases h
  cases hcases with
  | failed => cases h
  | aborted => cases h
  | noRows hq => cases hq
  | committed hs hplan hreplay hr =>
      cases hplan
      rcases hr with rfl | ⟨e, -, rfl⟩
      · cases h
        rfl
      · cases h
  | buffered hs => cases hs

/-- A platform on which the public monitors are an account's own. -/
def statusRuntime : Runtime where
  env key := if key = "STATUS_OWNER_EMAIL" then some "status@example.com" else none
  toNumber _ := .nan
  stringify _ := ""
  toLowerCase s := s
  textLength := String.length
  parseURL _ := some ⟨"https:", "example.com"⟩

def statusManifest : Json :=
  .arr [.obj [("seed_key", .str "site"), ("name", .str "Site"),
    ("target", .str "https://example.com")]]

end Sentinel.System
