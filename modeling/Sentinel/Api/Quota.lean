import Sentinel.Api.Monitors
import Sentinel.Library.Transition

/-!
# Api — Quota

Concurrent requests of one user against the limit of its monitors. `createMonitor` counts the
monitors and inserts a new one in two statements, each committed by itself, so between the two the
requests of the same user may do the same.

* `Quota.step` is the system: create and delete requests arrive at any time, and one operation of
  one of them is done after the other, in any order.
* `quota_run`: the limit holds over every run in which no count is taken while the creations that
  are underway leave no monitor free.
* `quota_race`: two requests that both count before either inserts go beyond the limit.
-/

namespace Sentinel.Api

open Program Database Transition

/-- The number of monitors of a user. -/
def owned (userId : Int) (db : Db) : Nat := (db.ownedBy userId).length

/-- A writing request of a user. -/
inductive Request where
  | create (rt : Runtime) (dto : CreateMonitorDto) (user : Requester)
  | delete (monitorId userId : Int)

/-- The request, ending with whether it succeeded. -/
def Request.program : Request → Client Bool
  | .create rt dto user => do
      let r ← createMonitor rt dto user
      return r.isOk
  | .delete monitorId userId => do
      let r ← deleteMonitor monitorId userId
      return r.isOk

namespace Quota

/-- The requests underway, over the store. -/
abbrev State := Pool Op Op.Res Store Session Bool

inductive Action where
  | arrive (request : Request)
  | advance (i : Nat) (choice : Choice)

/-- A request of the user, under the limit `m`. -/
def admits (userId : Int) (m : Nat) : Request → Bool
  | .create rt _ user => user.id = userId && maxMonitors rt user = .finite m
  | .delete _ id => id = userId

def step (userId : Int) (m : Nat) (s : State) : Action → Option State
  | .arrive request =>
      if admits userId m request then some (s.spawn ⟨request.program, .idle⟩) else none
  | .advance i choice => s.advance handle i choice

/-- A thread whose next operation is the count. -/
def counts (t : Thread Op Op.Res Session Bool) : Bool :=
  match t.prog with
  | .call (.sql (.countMonitors _)) _ => true
  | _ => false

/-- A thread that has counted and not yet inserted: its next operation takes the time of the
creation or inserts the monitor. -/
def underway (t : Thread Op Op.Res Session Bool) : Bool :=
  match t.prog with
  | .call .now _ => true
  | .call (.sql (.createMonitor _)) _ => true
  | _ => false

/-- When a thread counts and finds a monitor free, one is free besides those underway. -/
def Spaced (userId : Int) (m : Nat) (s : State) : Action → Prop
  | .arrive _ => True
  | .advance i _ => ∀ t, s.threads[i]? = some t → counts t = true →
      owned userId s.shared.db < m →
        owned userId s.shared.db + s.threads.countP underway < m

/-! ### Changes -/

/-- A change that adds no monitor to the user's. -/
def Keeps (userId : Int) (w : Write) : Prop := ∀ db, owned userId (w.apply db) ≤ owned userId db

theorem owned_replay {userId : Int} : ∀ {ws : List Write} {db db' : Db},
    (∀ w ∈ ws, Keeps userId w) → replay db ws = .ok db' → owned userId db' ≤ owned userId db
  | [], _, _, _, h => by
      cases h
      exact Nat.le_refl _
  | w :: ws, db, db', hws, h =>
      Nat.le_trans
        (owned_replay (fun v hv => hws v (List.mem_cons_of_mem _ hv)) (replay_cons.mp h).2)
        (hws w List.mem_cons_self db)

theorem keeps_deleteMonitor (userId id : Int) : Keeps userId (.deleteMonitor id) := by
  intro db
  simp only [owned, Db.ownedBy, Write.apply, List.length_map]
  exact (List.filter_sublist.filter _).length_le

theorem owned_insertMonitor (userId : Int) (db : Db) (row : Monitor) :
    owned userId ((Write.insertMonitor row).apply db) ≤ owned userId db + 1 := by
  simp only [owned, Db.ownedBy, Write.apply, List.length_map, List.filter_append,
    List.length_append]
  exact Nat.add_le_add_left (List.length_filter_le _ _) _

/-- An operation of a delete request. -/
structure Deletes (userId : Int) (o : Op) : Prop where
  keeps : o.Writes (Keeps userId)
  ne_now : o ≠ .now
  ne_create : ∀ data, o ≠ .sql (.createMonitor data)

theorem deleteMonitor_deletes (userId monitorId id : Int) :
    (deleteMonitor monitorId id).Only (Deletes userId) := by
  have hop : ∀ o : Op, (∀ q, o ≠ .sql q) → o ≠ .now → Deletes userId o := fun o ho hnow =>
    ⟨Op.writes_of_makes fun q hq => absurd hq (ho q), hnow, fun _ => ho _⟩
  have hsql : ∀ q : Sql, (∀ w, q.Makes w → Keeps userId w) → (∀ data, q ≠ .createMonitor data) →
      Deletes userId (.sql q) := fun q hq hcreate =>
    ⟨Op.writes_of_makes fun q' hq' => Op.sql.inj hq' ▸ hq, fun h => (nomatch h),
      fun data h => hcreate data (Op.sql.inj h)⟩
  refine deleteMonitor_only (hsql _ ?_ fun _ h => (nomatch h)) (hsql _ ?_ fun _ h => (nomatch h))
    (hsql _ ?_ fun _ h => (nomatch h)) (hsql _ ?_ fun _ h => (nomatch h))
    (hop _ (fun _ h => (nomatch h)) fun h => (nomatch h))
    (hop _ (fun _ h => (nomatch h)) fun h => (nomatch h))
    (hop _ (fun _ h => (nomatch h)) fun h => (nomatch h))
  · rintro w ⟨⟩
  · rintro w ⟨⟩ db
    exact Nat.le_refl _
  · rintro w ⟨⟩ db
    exact Nat.le_refl _
  · rintro w ⟨⟩
    exact keeps_deleteMonitor userId monitorId

/-! ### Stages of a request -/

/-- The insert is next, and then the end. -/
def Inserts (p : Client Bool) : Prop :=
  ∃ data k, p = .call (.sql (.createMonitor data)) k ∧ ∀ r, ∃ b, k r = .ret b

/-- The time is taken next, and then the monitor is inserted. -/
def Stamps (p : Client Bool) : Prop := ∃ k, p = .call .now k ∧ ∀ now, Inserts (k now)

/-- Where a request is. -/
inductive Stage (userId : Int) (m : Nat) : Thread Op Op.Res Session Bool → Prop where
  | ended (b : Bool) (s : Session) : Stage userId m ⟨.ret b, s⟩
  | deleting {p : Client Bool} {s : Session} (hp : p.Only (Deletes userId))
      (hs : ∀ w ∈ s.writes, Keeps userId w) : Stage userId m ⟨p, s⟩
  | counting {k : Except DbError Nat → Client Bool} (herr : ∀ e, ∃ b, k (.error e) = .ret b)
      (hok : ∀ n, (∃ b, k (.ok n) = .ret b) ∨ n < m ∧ Stamps (k (.ok n))) :
      Stage userId m ⟨.call (.sql (.countMonitors userId)) k, .idle⟩
  | stamping {p : Client Bool} (hp : Stamps p) : Stage userId m ⟨p, .idle⟩
  | inserting {p : Client Bool} (hp : Inserts p) : Stage userId m ⟨p, .idle⟩

theorem underway_deletes {userId : Int} {p : Client Bool} {s : Session}
    (h : p.Only (Deletes userId)) : underway ⟨p, s⟩ = false := by
  cases p with
  | ret b => rfl
  | call o k =>
      cases o with
      | now => exact absurd rfl h.1.ne_now
      | sql q =>
          cases q with
          | createMonitor data => exact absurd rfl (h.1.ne_create data)
          | _ => rfl
      | begin | commit | rollback | probe | ctxErr | readFile | hash => rfl

theorem stage_request {userId : Int} {m : Nat} {request : Request}
    (h : admits userId m request = true) : Stage userId m ⟨request.program, .idle⟩ ∧
      underway ⟨request.program, .idle⟩ = false := by
  cases request with
  | delete monitorId id =>
      have hp : (Request.delete monitorId id).program.Only (Deletes userId) :=
        Prog.only_bind (fun _ => Prog.only_ret) (deleteMonitor_deletes userId monitorId id)
      exact ⟨.deleting hp fun w hw => (nomatch hw), underway_deletes hp⟩
  | create rt dto user =>
      obtain ⟨rfl, hm⟩ : user.id = userId ∧ maxMonitors rt user = .finite m := by
        simpa [admits] using h
      rw [Request.program, createMonitor]
      split
      · exact ⟨.ended _ _, rfl⟩
      · split
        · exact ⟨.ended _ _, rfl⟩
        · refine ⟨.counting (fun e => ⟨_, rfl⟩) fun n => ?_, rfl⟩
          show (∃ b, (insertWithinLimit rt dto user n >>= fun r => pure r.isOk) = .ret b) ∨
            n < m ∧ Stamps (insertWithinLimit rt dto user n >>= fun r => pure r.isOk)
          rw [insertWithinLimit, hm, Number.ge_natCast]
          by_cases hn : m ≤ n
          · rw [if_pos (decide_eq_true hn)]
            exact .inl ⟨false, rfl⟩
          · rw [if_neg (by simpa using hn)]
            refine .inr ⟨Nat.lt_of_not_le hn, _, rfl, fun now => ⟨_, _, rfl, fun r => ?_⟩⟩
            cases r with
            | error e => exact ⟨false, rfl⟩
            | ok row => exact ⟨true, rfl⟩

theorem underway_stamps {p : Client Bool} {s : Session} (h : Stamps p) :
    underway ⟨p, s⟩ = true := by
  obtain ⟨k, rfl, -⟩ := h
  rfl

theorem underway_inserts {p : Client Bool} {s : Session} (h : Inserts p) :
    underway ⟨p, s⟩ = true := by
  obtain ⟨data, k, rfl, -⟩ := h
  rfl

/-- The count ends the request, or finds a monitor free and lets the request go on. -/
theorem Stage.counted {userId : Int} {m : Nat} {k : Except DbError Nat → Client Bool}
    (herr : ∀ e, ∃ b, k (.error e) = .ret b)
    (hok : ∀ n, (∃ b, k (.ok n) = .ret b) ∨ n < m ∧ Stamps (k (.ok n))) {choice : Choice}
    {st st' : Store} {s' : Session} {r : Except DbError Nat}
    (hcases : Sent choice st .idle (.countMonitors userId) (st', s', r)) :
    Stage userId m ⟨k r, s'⟩ ∧
      (owned userId st'.db + (underway ⟨k r, s'⟩).toNat ≤ owned userId st.db ∨
        owned userId st.db < m ∧ st'.db = st.db) := by
  have herror : ∀ (e : DbError) (s : Session), Stage userId m ⟨k (.error e), s⟩ ∧
      underway ⟨k (.error e), s⟩ = false := by
    intro e s
    obtain ⟨b, hb⟩ := herr e
    rw [hb]
    exact ⟨.ended b s, rfl⟩
  cases hcases with
  | @failed _ e => exact ⟨(herror e _).1, .inl (by rw [(herror e _).2]; exact Nat.le_refl _)⟩
  | aborted hs => exact absurd rfl hs
  | noRows hq => cases hq
  | buffered hs => cases hs
  | committed hs hplan hreplay hr =>
      cases hplan
      cases hreplay
      rcases hr with rfl | ⟨e, -, rfl⟩
      · rcases hok (st.db.ownedBy userId).length with ⟨b, hb⟩ | ⟨hlt, hstamps⟩
        · rw [hb]
          exact ⟨.ended b _, .inl (Nat.le_refl _)⟩
        · exact ⟨.stamping hstamps, .inr ⟨hlt, rfl⟩⟩
      · -- the reply is lost, so the request ends as after a failure
        exact ⟨(herror e _).1, .inl (by rw [(herror e _).2]; exact Nat.le_refl _)⟩

/-- The insert adds one monitor at most. -/
theorem owned_inserted (userId : Int) {data : NewMonitor} {choice : Choice} {st st' : Store}
    {s' : Session} {r : Except DbError Monitor}
    (hcases : Sent choice st .idle (.createMonitor data) (st', s', r)) :
    owned userId st'.db ≤ owned userId st.db + 1 := by
  cases hcases with
  | failed | aborted | noRows => exact Nat.le_succ _
  | buffered hs => cases hs
  | committed hs hplan hreplay =>
      cases hplan
      obtain ⟨-, hdb⟩ := replay_cons.mp hreplay
      cases hdb
      exact owned_insertMonitor userId st.db _

/-- **What a thread's step does to the user's monitors and to those underway**: they do not grow
together, unless the thread counts and finds a monitor free. -/
theorem Stage.step {userId : Int} {m : Nat} {t t' : Thread Op Op.Res Session Bool}
    (h : Stage userId m t) {choice : Choice} {st st' : Store}
    (hs : t.step handle choice st = some (st', t')) : Stage userId m t' ∧
      (owned userId st'.db + (underway t').toNat ≤ owned userId st.db + (underway t).toNat ∨
        counts t = true ∧ owned userId st.db < m ∧ st'.db = st.db) := by
  cases h with
  | ended b s => cases hs
  | @deleting p s hp hw =>
      obtain ⟨o, k, rfl, rfl, rfl⟩ := Thread.step_cases hs
      obtain ⟨⟨ws, hext, hws⟩, hw'⟩ := handle_writes hp.1.keeps choice st hw
      have hp' := hp.2 (handle choice st s o).2.2
      refine ⟨.deleting hp' hw', .inl ?_⟩
      rw [underway_deletes hp', underway_deletes hp]
      exact owned_replay hws hext.replayed
  | counting herr hok =>
      cases hs
      obtain ⟨hstage, hgrow⟩ :=
        Stage.counted herr hok (Session.send_cases choice st .idle (.countMonitors userId))
      exact ⟨hstage, hgrow.imp id fun hfree => ⟨rfl, hfree⟩⟩
  | stamping hp =>
      have hp' := hp
      obtain ⟨k, rfl, hk⟩ := hp
      cases hs
      refine ⟨.inserting (hk _), .inl ?_⟩
      rw [underway_stamps hp', underway_inserts (hk _)]
      rfl
  | inserting hp =>
      have hp' := hp
      obtain ⟨data, k, rfl, hk⟩ := hp
      cases hs
      have hle := owned_inserted userId (Session.send_cases choice st .idle (.createMonitor data))
      obtain ⟨b, hb⟩ := hk (handle choice st .idle (.sql (.createMonitor data))).2.2
      rw [underway_inserts hp', hb]
      -- the monitor that was underway is there now
      exact ⟨.ended b _, .inl hle⟩

/-! ### Runs -/

/-- Every request is at a stage, and no more monitors are there or underway than the limit. -/
structure Inv (userId : Int) (m : Nat) (s : State) : Prop where
  stages : ∀ t ∈ s.threads, Stage userId m t
  bound : owned userId s.shared.db + s.threads.countP underway ≤ m

theorem Inv.step {userId : Int} {m : Nat} {s s' : State} {a : Action} (h : Inv userId m s)
    (hspaced : Spaced userId m s a) (hs : step userId m s a = some s') : Inv userId m s' := by
  cases a with
  | arrive request =>
      simp only [Quota.step] at hs
      split at hs
      · rename_i hadmits
        cases hs
        obtain ⟨hstage, hnot⟩ := stage_request hadmits
        constructor
        · intro t ht
          rcases List.mem_append.mp ht with ht | ht
          · exact h.stages t ht
          · rw [List.mem_singleton.mp ht]
            exact hstage
        · simp only [Pool.spawn, List.countP_append, List.countP_singleton, hnot]
          exact h.bound
      · cases hs
  | advance i choice =>
      obtain ⟨before, t, t', after, hi, hthreads, hthreads', -, hstep⟩ := Pool.advance_cases hs
      have hmem : ∀ u, u ∈ before ∨ u ∈ after → u ∈ s.threads := by
        intro u hu
        rw [hthreads]
        rcases hu with hu | hu
        · exact List.mem_append_left _ hu
        · exact List.mem_append_right _ (List.mem_cons_of_mem _ hu)
      obtain ⟨hstage, hgrow⟩ := (h.stages t (List.mem_of_getElem? hi)).step hstep
      have hbound := h.bound
      constructor
      · intro u hu
        rw [hthreads'] at hu
        rcases List.mem_append.mp hu with hu | hu
        · exact h.stages u (hmem u (.inl hu))
        · rcases List.mem_cons.mp hu with rfl | hu
          · exact hstage
          · exact h.stages u (hmem u (.inr hu))
      · have hcount : ∀ v : Thread Op Op.Res Session Bool,
            (before ++ v :: after).countP underway =
              before.countP underway + after.countP underway + (underway v).toNat := by
          intro v
          rw [List.countP_append, List.countP_cons, Nat.add_assoc]
          cases underway v <;> rfl
        rw [hthreads', hcount]
        rw [hthreads, hcount] at hbound
        rcases hgrow with hle | ⟨hcounts, hfree, hdb⟩
        · omega
        · -- the count makes one more underway, and finds room for it
          have hroom := hspaced t hi hcounts hfree
          rw [hthreads, hcount] at hroom
          have hone : (underway t').toNat ≤ 1 := Bool.toNat_le _
          rw [hdb]
          omega

/-- **The limit holds over every run whose counts are spaced.** Any number of create and delete
requests of the user may run at once, in any order of their steps, and any of their statements may
fail or lose its reply. -/
theorem quota_run (userId : Int) (m : Nat) (st : Store) (actions : List Action) (s : State)
    (hst : owned userId st.db ≤ m)
    (hrun : Guarded (step userId m) (Spaced userId m) ⟨st, []⟩ actions s) :
    owned userId s.shared.db ≤ m :=
  Nat.le_trans (Nat.le_add_right _ _)
    (hrun.invariant (fun _ _ _ => Inv.step) ⟨fun _ ht => (nomatch ht), hst⟩ : Inv userId m s).bound

/-- A platform without any variable set. -/
def bareRuntime : Runtime where
  env _ := none
  toNumber _ := .nan
  stringify _ := ""
  toLowerCase s := s
  textLength := String.length
  parseURL _ := none

/-- The demo account, which owns two monitors. -/
def demoStore : Store where
  db :=
    { users := [⟨1, "Demo", "User", "demo", "demo@example.com", "", 0, 0, none, true, true⟩]
      monitors :=
        [⟨1, "a", "https://example.com", 60, "Active", 0, "http", none, none, none, 0, 1, none,
            false⟩,
          ⟨2, "b", "https://example.com", 60, "Active", 0, "http", none, none, none, 0, 1, none,
            false⟩]
      checkResults := []
      alerts := [] }
  seq := ⟨2, 3, 1, 1⟩
  log := []

def demoRequest : Request :=
  .create bareRuntime ⟨"c", "https://example.com", .undefined, .undefined, .undefined⟩ ⟨1, true⟩

/-- One operation of a request, which succeeds. -/
def calmly (i : Nat) : Action := .advance i (Choice.calm 0 (.error ""))

/-- A create request, and then a delete request that has begun. -/
def inTurn : List Action :=
  [.arrive demoRequest, calmly 0, calmly 0, calmly 0, .arrive (.delete 1 1), calmly 1]

theorem quota_run_inTurn :
    ∃ s, exec (step 1 3) ⟨demoStore, []⟩ inTurn = some s ∧ owned 1 s.shared.db ≤ 3 := by
  have hspaced : ∀ {s : State} {i : Nat} {t : Thread Op Op.Res Session Bool},
      s.threads[i]? = some t → (counts t = true → owned 1 s.shared.db < 3 →
        owned 1 s.shared.db + s.threads.countP underway < 3) → Spaced 1 3 s (calmly i) := by
    intro s i t ht h u hu
    rw [ht] at hu
    cases hu
    exact h
  refine ⟨_, rfl, quota_run 1 3 demoStore inTurn _ (by decide) ?_⟩
  refine .more trivial rfl (.more (hspaced rfl fun _ _ => by decide) rfl ?_)
  refine .more (hspaced rfl nofun) rfl (.more (hspaced rfl nofun) rfl ?_)
  exact .more trivial rfl (.more (hspaced rfl nofun) rfl (.refl _))

/-- **Two requests race.** The demo account has two of its three monitors; two create requests both
count two, and both insert. -/
theorem quota_race : ∃ s, Run (step 1 3) ⟨demoStore, []⟩
    [.arrive demoRequest, .arrive demoRequest, calmly 0, calmly 1, calmly 0, calmly 1, calmly 0,
      calmly 1] s ∧
    owned 1 demoStore.db = 2 ∧ owned 1 s.shared.db = 4 :=
  ⟨_, run_of_exec rfl, rfl, rfl⟩

end Quota

end Sentinel.Api
