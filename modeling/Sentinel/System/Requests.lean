import Mathlib.Data.List.Nodup
import Sentinel.Api.Body
import Sentinel.Library.Transition
import Sentinel.System.Operations

/-!
# System — Requests

Create and update requests with their bodies, one after the other, and what they store.

* `Checkable`: the worker has a checker for the monitor, its frequency is not below the minimum of
  its owner, and its target is one the API takes.
* `Request.clearsType`: an update gives the empty text for the type. It is not among the types, and
  the update does not look.
* `checkable_run`: in a run without such an update, what is stored is checkable.
-/

namespace Sentinel.System

open Program Database Api Transition

inductive Request where
  | create (body : Json) (user : Requester)
  | update (monitorId : Int) (body : Json) (user : Requester)

def Request.user : Request → Requester
  | create _ user | update _ _ user => user

/-- The operation of a request, unless its body is refused. -/
def Request.operation (rt : Runtime) : Request → Except (List BodyError) Operation
  | create body user =>
      (CreateMonitorDto.ofBody rt body).map fun dto => .writer (.create rt dto user)
  | update monitorId body user =>
      (UpdateMonitorDto.ofBody rt body).map fun dto => .writer (.update rt monitorId user dto)

/-- A request, with what the environment does during it. -/
structure Submission where
  request : Request
  choices : Nat → Choice

/-- The user of a request is an account, with its flag. -/
def SignedIn (db : Db) (user : Requester) : Bool :=
  db.users.any fun u => u.id = user.id && u.isDemo = user.isDemo

/-- One request after the other. -/
def Submission.step (rt : Runtime) (st : Store) (a : Submission) : Option Store :=
  if SignedIn st.db a.request.user then
    match a.request.operation rt with
    | .error _ => some st
    | .ok o => some (o.run a.choices st).1
  else none

/-- The types the worker registers. -/
def registeredTypes : List String := ["http"]

/-- The frequency is not below the minimum for the owner's kind. -/
def FrequencyAllowed (rt : Runtime) (users : List User) (userId frequency : Int) : Prop :=
  ∀ u ∈ users, u.id = userId →
    (Number.finite frequency).lt (minFrequency rt ⟨u.id, u.isDemo⟩) = false

structure Checkable (rt : Runtime) (users : List User) (m : Monitor) : Prop where
  checkType : m.checkType ∈ validCheckTypes
  registered : Checker.get registeredTypes m.checkType = .ok ()
  frequency : FrequencyAllowed rt users m.userId m.frequency
  target : validateTarget rt (some (.str m.target)) = true

/-- An update that passes its checks, of a monitor of its user, with the empty text for a type. -/
def Request.clearsType (rt : Runtime) (db : Db) : Request → Bool
  | create _ _ => false
  | update monitorId body user =>
      match UpdateMonitorDto.ofBody rt body with
      | .error _ => false
      | .ok dto =>
          dto.checkType = .value "" && !dto.frequencyBelow (minFrequency rt user) &&
            dto.dataToUpdate.isSome &&
            db.monitors.any fun m => m.id = monitorId && m.userId = user.id

/-! ### What the statements keep -/

/-- The ids of the monitors with those of their owners. -/
def Db.owners (db : Db) : List (Int × Int) := db.monitors.map fun m => (m.id, m.userId)

/-- The accounts are `users`, and the monitors that are not in `base` are checkable. -/
structure Checkables (rt : Runtime) (base : List Int) (users : List User) (seq : Seq) (db : Db) :
    Prop where
  keyed : Keyed seq db
  accounts : db.users = users
  checkable : ∀ m ∈ db.monitors, m.id ∉ base → Checkable rt users m

section Keeps

variable {rt : Runtime} {base : List Int} {users : List User}

theorem Checkables.mono {a b : Seq} {db : Db} (h : Checkables rt base users a db) (hle : a.Le b) :
    Checkables rt base users b db :=
  { h with keyed := h.keyed.mono hle }

theorem checkables_outside {o : Op} (ho : ∀ q, o ≠ .sql q) : o.Keeps (Checkables rt base users) :=
  Op.keeps_of_not_sql ho

theorem checkables_countMonitors {userId : Int} :
    (Op.sql (.countMonitors userId)).Keeps (Checkables rt base users) := by
  refine Op.keeps_sql fun moment a db b out ws db' hplan hreplay h => ?_
  cases hplan
  cases hreplay
  exact h

/-- The row of a create request is checkable, whatever its id is. -/
theorem checkables_createMonitor {data : NewMonitor}
    (hdata : ∀ id, Checkable rt users (data.row id)) :
    (Op.sql (.createMonitor data)).Keeps (Checkables rt base users) := by
  refine Op.keeps_sql_keyed (·.keyed) fun moment a db b out ws db' hplan hreplay h hkeyed => ?_
  cases hplan
  cases (replay_cons.mp hreplay).2
  refine ⟨hkeyed, h.accounts, fun m hm hbase => ?_⟩
  rcases List.mem_append.mp hm with hm | hm
  · exact h.checkable m hm hbase
  · rw [List.mem_singleton.mp hm]
    exact hdata _

/-- Checkable monitors, and nobody's monitor becomes another's. -/
structure Updating (rt : Runtime) (base : List Int) (users : List User)
    (owners : List (Int × Int)) (seq : Seq) (db : Db) : Prop
    extends Checkables rt base users seq db where
  owners : Db.owners db = owners

variable {owners : List (Int × Int)}

theorem Updating.mono {a b : Seq} {db : Db} (h : Updating rt base users owners a db)
    (hle : a.Le b) : Updating rt base users owners b db :=
  { h.toCheckables.mono hle with owners := h.owners }

/-- The owner of a monitor, by the ids. -/
theorem Updating.owner {seq : Seq} {db : Db} (h : Updating rt base users owners seq db)
    {id userId : Int} (hmem : (id, userId) ∈ owners) {m : Monitor} (hm : m ∈ db.monitors)
    (hid : m.id = id) : m.userId = userId := by
  rw [← h.owners] at hmem
  obtain ⟨m', hm', heq⟩ := List.mem_map.mp hmem
  obtain ⟨rfl, rfl⟩ := Prod.mk.inj heq
  rw [List.inj_on_of_nodup_map h.keyed.monitors hm hm' hid]

theorem updating_findFirstMonitor {id userId : Int} :
    (Op.sql (.findFirstMonitor id userId)).Keeps (Updating rt base users owners) := by
  refine Op.keeps_sql fun moment a db b out ws db' hplan hreplay h => ?_
  cases hplan
  cases hreplay
  exact h

/-- What an update writes is checkable, for the owner of the monitor. -/
structure PatchAllowed (rt : Runtime) (users : List User) (userId : Int) (patch : MonitorPatch) :
    Prop where
  checkType : ∀ s, patch.checkType = some s → s ∈ validCheckTypes
  frequency : ∀ n, patch.frequency = some n → FrequencyAllowed rt users userId n
  target : ∀ s, patch.target = some s → validateTarget rt (some (.str s)) = true

theorem get_of_valid {checkType : String} (h : checkType ∈ validCheckTypes) :
    Checker.get registeredTypes checkType = .ok () := if_pos h

theorem Checkable.patched {m : Monitor} {patch : MonitorPatch} (h : Checkable rt users m)
    (hpatch : PatchAllowed rt users m.userId patch) : Checkable rt users (m.patched patch) := by
  have htype : (m.patched patch).checkType ∈ validCheckTypes := by
    show patch.checkType.getD m.checkType ∈ validCheckTypes
    cases hp : patch.checkType with
    | none => exact h.checkType
    | some s => exact hpatch.checkType s hp
  refine ⟨htype, get_of_valid htype, ?_, ?_⟩
  · show FrequencyAllowed rt users m.userId (patch.frequency.getD m.frequency)
    cases hp : patch.frequency with
    | none => exact h.frequency
    | some n => exact hpatch.frequency n hp
  · show validateTarget rt (some (.str (patch.target.getD m.target))) = true
    cases hp : patch.target with
    | none => exact h.target
    | some s => exact hpatch.target s hp

theorem updating_updateMonitor {id userId : Int} {patch : MonitorPatch}
    (hmem : (id, userId) ∈ owners) (hpatch : PatchAllowed rt users userId patch) :
    (Op.sql (.updateMonitor id patch)).Keeps (Updating rt base users owners) := by
  refine Op.keeps_sql_keyed (·.keyed) fun moment a db b out ws db' hplan hreplay h hkeyed => ?_
  simp only [Sql.plan] at hplan
  split at hplan
  · cases hplan
  · cases hplan
    cases (replay_cons.mp hreplay).2
    refine ⟨⟨hkeyed, h.accounts, fun m hm hbase => ?_⟩, ?_⟩
    · rcases Db.mem_onMonitor hm with ⟨hm, -⟩ | ⟨old, hold, hid, rfl⟩
      · exact h.checkable m hm hbase
      · refine (h.checkable old hold hbase).patched ?_
        rw [h.owner hmem hold hid]
        exact hpatch
    · rw [← h.owners]
      show (List.map _ db.monitors).map _ = db.monitors.map _
      rw [List.map_map]
      refine List.map_congr_left fun m _ => ?_
      show ((if m.id = id then m.patched patch else m).id,
        (if m.id = id then m.patched patch else m).userId) = (m.id, m.userId)
      split <;> rfl

/-! ### The requests -/

/-- The limit of a user who is signed in is that of the account. -/
theorem frequencyAllowed_of_signedIn {seq : Seq} {db : Db} (h : Keyed seq db) {user : Requester}
    (huser : SignedIn db user = true) {frequency : Int}
    (hfrequency : (Number.finite frequency).lt (minFrequency rt user) = false) :
    FrequencyAllowed rt db.users user.id frequency := by
  obtain ⟨v, hv, heq⟩ := List.any_eq_true.mp huser
  simp only [Bool.and_eq_true, decide_eq_true_eq] at heq
  intro u hu hid
  obtain rfl := List.inj_on_of_nodup_map h.users hu hv (hid.trans heq.1.symm)
  rwa [hid, heq.2]

theorem createMonitor_checkables {dto : CreateMonitorDto} {user : Requester}
    (hdto : dto.Valid rt)
    (huser : ∀ frequency : Int, (Number.finite frequency).lt (minFrequency rt user) = false →
      FrequencyAllowed rt users user.id frequency) :
    (createMonitor rt dto user).Only (·.Keeps (Checkables rt base users)) := by
  unfold createMonitor
  split
  · trivial
  · rename_i htype
    have htype := not_not.mp htype
    split
    · trivial
    · rename_i hfrequency
      refine only_query checkables_countMonitors fun n => ?_
      unfold insertWithinLimit
      split
      · trivial
      · refine Prog.only_bind (fun now => ?_)
          (Prog.only_op (checkables_outside fun q h => (nomatch h)))
        refine only_query (checkables_createMonitor fun id => ?_) fun _ => trivial
        exact ⟨htype, get_of_valid htype, huser _ (eq_false_of_ne_true hfrequency), hdto.target⟩

/-- What passes the checks of an update is allowed, if it is not the empty text for a type. -/
theorem patchAllowed_of_checks {dto : UpdateMonitorDto} {user : Requester} {patch : MonitorPatch}
    (hdto : dto.Valid rt) (htype : dto.checkType.orDefault "http" ∈ validCheckTypes)
    (hclears : dto.checkType ≠ .value "")
    (hfrequency : dto.frequencyBelow (minFrequency rt user) = false)
    (huser : ∀ frequency : Int, (Number.finite frequency).lt (minFrequency rt user) = false →
      FrequencyAllowed rt users user.id frequency)
    (hpatch : dto.dataToUpdate = some patch) : PatchAllowed rt users user.id patch := by
  obtain ⟨htargets, htypes, hfrequencies⟩ := UpdateMonitorDto.dataToUpdate_fields hpatch
  constructor
  · intro s hs
    have hfield := Field.eq_value (hs ▸ htypes)
    rw [hfield, Field.orDefault] at htype
    have hne : s ≠ "" := fun h => hclears (h ▸ hfield)
    rwa [if_neg hne] at htype
  · intro n hn
    have hfield := Field.eq_value (hn ▸ hfrequencies)
    rw [UpdateMonitorDto.frequencyBelow, hfield] at hfrequency
    exact huser n hfrequency
  · intro s hs
    exact hdto.target s (Field.eq_value (hs ▸ htargets))

theorem updateMonitor_updating {monitorId : Int} {dto : UpdateMonitorDto} {user : Requester}
    (hdto : dto.Valid rt)
    (huser : ∀ frequency : Int, (Number.finite frequency).lt (minFrequency rt user) = false →
      FrequencyAllowed rt users user.id frequency)
    (hclears : (monitorId, user.id) ∈ owners →
      dto.frequencyBelow (minFrequency rt user) = false → dto.dataToUpdate ≠ none →
        dto.checkType ≠ .value "") :
    (updateMonitor rt monitorId user dto).Yields (·.Keeps (Updating rt base users owners))
      (Op.Answers (Updating rt base users owners)) fun _ => True := by
  refine yields_query updating_findFirstMonitor (fun _ => trivial) fun monitor hmonitor => ?_
  split
  · trivial
  · rename_i hfound
    -- the monitor that was found is its requester's, and stays so
    have hmem : (monitorId, user.id) ∈ owners := by
      rcases hmonitor monitor rfl with hq | ⟨moment, db, a, b, ws, hdb, hplan⟩
      · cases hq
      · cases hplan
        obtain ⟨m, hm⟩ := Option.ne_none_iff_exists'.mp hfound
        have hfind := List.find?_some hm
        simp only [Bool.and_eq_true, decide_eq_true_eq] at hfind
        rw [← hdb.owners, ← hfind.1, ← hfind.2]
        exact List.mem_map_of_mem (List.mem_of_find?_eq_some hm)
    split
    · trivial
    · rename_i htype
      split
      · trivial
      · rename_i hfrequency
        have hfrequency := eq_false_of_ne_true hfrequency
        split
        · trivial
        · rename_i patch hpatch
          refine yields_query (updating_updateMonitor hmem ?_) (fun _ => trivial)
            fun _ _ => trivial
          refine patchAllowed_of_checks hdto (not_not.mp htype) ?_ hfrequency huser hpatch
          exact hclears hmem hfrequency (by rw [hpatch]; exact Option.some_ne_none _)

end Keeps

/-! ### Runs -/

/-- **A request that does not clear a type stores what is checkable.** -/
theorem Submission.step_checkables {rt : Runtime} {base : List Int} {users : List User}
    {st st' : Store} {a : Submission} (h : Checkables rt base users st.seq st.db)
    (hclears : a.request.clearsType rt st.db = false) (hs : a.step rt st = some st') :
    Checkables rt base users st'.seq st'.db := by
  unfold Submission.step at hs
  split at hs
  · rename_i huser
    have hfrequency : ∀ frequency : Int,
        (Number.finite frequency).lt (minFrequency rt a.request.user) = false →
          FrequencyAllowed rt users a.request.user.id frequency := by
      rw [← h.accounts]
      exact fun frequency => frequencyAllowed_of_signedIn h.keyed huser
    split at hs
    · cases hs
      exact h
    · rename_i o hoperation
      cases hs
      obtain ⟨request, choices⟩ := a
      cases request with
      | create body user =>
          obtain ⟨dto, hdto, rfl⟩ := map_eq_ok hoperation
          refine Operation.run_keeps (I := Checkables rt base users)
            (fun _ _ _ => Checkables.mono) ?_ choices h
          refine Prog.only_bind (fun _ => Prog.only_ret) ?_
          exact createMonitor_checkables (CreateMonitorDto.ofBody_valid hdto) hfrequency
      | update monitorId body user =>
          obtain ⟨dto, hdto, rfl⟩ := map_eq_ok hoperation
          refine (Operation.run_yields (I := Updating rt base users (Db.owners st.db))
            (Q := fun _ => True) (fun _ _ _ => Updating.mono) ?_ choices ⟨h, rfl⟩).toCheckables
          refine Prog.yields_bind (Prog.Yields.mono (fun _ _ => trivial)
            (updateMonitor_updating (UpdateMonitorDto.ofBody_valid hdto) hfrequency ?_))
          intro hmem hbelow hpatch htype
          obtain ⟨m, hm, heq⟩ := List.mem_map.mp hmem
          obtain ⟨hid, huserId⟩ := Prod.mk.inj heq
          have hreaches : (Request.update monitorId body user).clearsType rt st.db = true := by
            simp only [Request.clearsType, hdto, htype, hbelow, Bool.and_eq_true,
              Option.isSome_iff_ne_none]
            exact ⟨⟨⟨by decide, rfl⟩, hpatch⟩,
              List.any_eq_true.mpr ⟨m, hm, by simp [hid, huserId]⟩⟩
          exact Bool.false_ne_true (hclears.symm.trans hreaches)
  · cases hs

/-- The request does not clear a type. -/
def Submission.Keeps (rt : Runtime) (st : Store) (a : Submission) : Prop :=
  a.request.clearsType rt st.db = false

/-- **What the requests store is checkable**, in every run of create and update requests of any
users, from every state with its keys in order and whatever fails, if no update clears a type. -/
theorem checkable_run (rt : Runtime) (st : Store) (submissions : List Submission) (s : Store)
    (hst : Keyed st.seq st.db)
    (hrun : Guarded (Submission.step rt) (Submission.Keeps rt) st submissions s) :
    ∀ m ∈ s.db.monitors, m.id ∉ st.db.monitors.map (·.id) → Checkable rt s.db.users m := by
  have hinv : Checkables rt (st.db.monitors.map (·.id)) st.db.users s.seq s.db :=
    hrun.invariant (I := fun s => Checkables rt (st.db.monitors.map (·.id)) st.db.users s.seq s.db)
      (fun _ _ _ h hclears hs => Submission.step_checkables h hclears hs)
      ⟨hst, rfl, fun m hm hbase => absurd (List.mem_map_of_mem hm) hbase⟩
  rw [hinv.accounts]
  exact hinv.checkable

/-- An account and no monitor. -/
def oneAccount : Store where
  db := ⟨[⟨1, "Ana", "Diaz", "ana", "ana@example.com", "", 0, 0, some "Active", true, false⟩],
    [], [], []⟩
  seq := ⟨2, 1, 1, 1⟩
  log := []

def ana : Requester := ⟨1, false⟩

def createSite : Submission :=
  ⟨.create (.obj [("name", .str "Site"), ("target", .str "https://example.com")]) ana,
    fun _ => Choice.calm 0 (.error "")⟩

def updateSite (key value : String) : Submission :=
  ⟨.update 1 (.obj [(key, .str value)]) ana, fun _ => Choice.calm 0 (.error "")⟩

theorem oneAccount_keyed : Keyed oneAccount.seq oneAccount.db :=
  ⟨List.nodup_singleton _, by decide, List.nodup_nil, fun m hm => (nomatch hm),
    fun m hm => (nomatch hm)⟩

theorem checkable_run_renamed : ∃ s,
    Guarded (Submission.step statusRuntime) (Submission.Keeps statusRuntime) oneAccount
      [createSite, updateSite "name" "Home"] s ∧
      s.db.monitors.map (fun m => (m.id, m.name, m.checkType)) = [(1, "Home", "http")] ∧
      ∀ m ∈ s.db.monitors, m.id ∉ oneAccount.db.monitors.map (·.id) →
        Checkable statusRuntime s.db.users m := by
  have hrun : Guarded (Submission.step statusRuntime) (Submission.Keeps statusRuntime) oneAccount
      [createSite, updateSite "name" "Home"] _ := .more rfl rfl (.more rfl rfl (.refl _))
  exact ⟨_, hrun, rfl, checkable_run statusRuntime oneAccount _ _ oneAccount_keyed hrun⟩

/-- An update with the empty text for a type stores it, and the worker has no checker for it. -/
theorem cleared_type : ∃ s,
    Run (Submission.step statusRuntime) oneAccount [createSite, updateSite "check_type" ""] s ∧
      ∃ m ∈ s.db.monitors, m.id ∉ oneAccount.db.monitors.map (·.id) ∧
        Checker.get registeredTypes m.checkType = .error "unknown checker type: " ∧
        ¬ Checkable statusRuntime s.db.users m := by
  have hrun : Run (Submission.step statusRuntime) oneAccount
      [createSite, updateSite "check_type" ""] _ := run_of_exec rfl
  refine ⟨_, hrun, _, List.mem_cons_self, (nomatch ·), rfl, fun h => ?_⟩
  exact absurd h.checkType (by decide)

end Sentinel.System
