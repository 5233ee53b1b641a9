import Mathlib.Data.List.Nodup
import Sentinel.Database.Session

/-!
# Database — Ledger

What any operation of any program does to the log of committed changes.

* `Store.Extends st ws st'`: between `st` and `st'` the changes `ws` are committed, each admitted by
  the schema on the tables it is made on.
* `handle_moves`: an operation commits changes of its own transaction or of its own statement and
  no others, and leaves only such changes in the transaction.
* `handle_writes`: so a program whose statements only make changes of one kind only commits changes
  of that kind.
* `handle_tracks`: what the statements of a program keep of the tables they see, the program keeps
  of the committed tables.
* `Numbered`: ids of monitors are drawn from a sequence, so no two inserts have the same, committed
  or not, by whichever connection.
* `Keyed`: the keys of the tables, which every statement keeps.
-/

namespace Sentinel.Database

open Program

/-! ### Commits -/

/-- The changes `ws` are committed. -/
structure Store.Extends (st : Store) (ws : List Write) (st' : Store) : Prop where
  log : st'.log = st.log ++ ws
  replayed : replay st.db ws = .ok st'.db
  seq : st.seq.Le st'.seq

theorem Store.Extends.nothing {st : Store} {seq : Seq} (h : st.seq.Le seq) :
    st.Extends [] { st with seq := seq } :=
  ⟨(List.append_nil _).symm, rfl, h⟩

theorem Store.Extends.refl (st : Store) : st.Extends [] st := .nothing (Seq.Le.refl _)

theorem Store.Extends.trans {st st' st'' : Store} {ws vs : List Write} (h : st.Extends ws st')
    (h' : st'.Extends vs st'') : st.Extends (ws ++ vs) st'' where
  log := by rw [h'.log, h.log, List.append_assoc]
  replayed := by rw [replay_append, h.replayed]; exact h'.replayed
  seq := h.seq.trans h'.seq

theorem Store.extends_commit {st : Store} {seq : Seq} {ws : List Write} {db : Db}
    (hseq : st.seq.Le seq) (h : replay st.db ws = .ok db) :
    st.Extends ws (({ st with seq := seq } : Store).commit db ws) :=
  ⟨rfl, h, hseq⟩

/-! ### Operations -/

/-- The changes a connection has made and not yet committed. -/
def Session.writes : Session → List Write
  | .open_ ws => ws
  | .idle | .aborted => []

/-- The changes an operation makes, and the sequences before and after. -/
inductive Op.Adds : Op → Seq → List Write → Seq → Prop where
  | nothing {o : Op} {a b : Seq} (h : a.Le b) : Adds o a [] b
  | sql {q : Sql} {moment : Moment} {db : Db} {a b : Seq} {out : q.Out} {ws : List Write}
      (h : q.plan moment a db = (b, .ok (out, ws))) : Adds (.sql q) a ws b

/-- **What an operation commits, and what it leaves in the transaction**, was in the transaction
or is its own. -/
theorem handle_moves (choice : Choice) (st : Store) (s : Session) (o : Op) :
    ∃ ws more, st.Extends ws (handle choice st s o).1 ∧
      o.Adds st.seq more (handle choice st s o).1.seq ∧
      (ws ++ (handle choice st s o).2.1.writes).Sublist (s.writes ++ more) := by
  have hle := Seq.Le.refl st.seq
  cases o with
  | begin =>
      refine ⟨[], [], Store.Extends.refl st, .nothing hle, ?_⟩
      rcases Session.begin_cases choice s with ⟨e, he⟩ | ⟨rfl, he⟩
      · simp [handle, he]
      · simp [handle, he, Session.writes]
  | rollback =>
      refine ⟨[], [], Store.Extends.refl st, .nothing hle, ?_⟩
      simp [handle, Session.writes]
  | commit =>
      have hcases := Session.commit_cases choice st s
      rw [show handle choice st s .commit = s.commit choice st from rfl]
      generalize s.commit choice st = r at hcases ⊢
      cases hcases with
      | refused => exact ⟨[], [], Store.Extends.refl st, .nothing hle, by simp [Session.writes]⟩
      | committed hs hreplay =>
          subst hs
          exact ⟨_, [], Store.extends_commit hle hreplay, .nothing hle, by simp [Session.writes]⟩
  | sql q =>
      have hcases := Session.send_cases choice st s q
      rw [show handle choice st s (.sql q) = s.send choice st q from rfl]
      generalize s.send choice st q = r at hcases ⊢
      cases hcases with
      | failed hs hseq =>
          exact ⟨[], [], .nothing hseq, .nothing hseq, by simp [Session.writes]⟩
      | aborted hs hseq =>
          exact ⟨[], [], .nothing hseq, .nothing hseq, by simp [Session.writes]⟩
      | noRows => exact ⟨[], [], Store.Extends.refl st, .nothing hle, by simp⟩
      | committed hs hplan hreplay =>
          have hseq := q.plan_seq choice.moment st.seq st.db
          rw [hplan] at hseq
          exact ⟨_, _, Store.extends_commit hseq hreplay, .sql hplan, by simp [Session.writes]⟩
      | @buffered seq out writes more db hs hplan hreplay =>
          have hseq := q.plan_seq choice.moment st.seq (writes.foldl Write.apply st.db)
          rw [hplan] at hseq
          subst hs
          exact ⟨[], _, .nothing hseq, .sql hplan, by simp [Session.writes]⟩
  | probe | now | ctxErr | readFile | hash =>
      exact ⟨[], [], Store.Extends.refl st, .nothing hle, by simp [handle]⟩

/-! ### Kinds of changes -/

/-- All changes an operation makes are of one kind. -/
def Op.Writes (K : Write → Prop) (o : Op) : Prop :=
  ∀ a ws b, o.Adds a ws b → ∀ w ∈ ws, K w

/-- The changes that a statement can make, whatever the tables. -/
inductive Sql.Makes : Sql → Write → Prop where
  | insertCheckResult {id monitorId : Int} {state : String} {statusCode : Option Int}
      {latencyMs : Int} {responseSample errorMessage : Option ByteArray} {createdAt : Time} :
      Makes (.insertCheckResult monitorId state statusCode latencyMs responseSample errorMessage
        createdAt) (.insertCheckResult ⟨id, monitorId, state, statusCode, latencyMs,
          responseSample, errorMessage, createdAt⟩)
  | updateChecked {state : Option String} {failures id : Int} {checkedAt : Time} :
      Makes (.updateChecked state failures id checkedAt) (.setChecked id state checkedAt failures)
  | insertAlert {id monitorId : Int} {alertType message : String} {createdAt : Time} :
      Makes (.insertAlert monitorId alertType message createdAt)
        (.insertAlert ⟨id, monitorId, alertType, message, createdAt⟩)
  | deleteOwnedCheckResults {userId id : Int} :
      Makes (.deleteOwnedCheckResults userId) (.deleteCheckResult id)
  | deleteOwnedAlerts {userId id : Int} : Makes (.deleteOwnedAlerts userId) (.deleteAlert id)
  | deleteOwnedMonitors {userId id : Int} : Makes (.deleteOwnedMonitors userId) (.deleteMonitor id)
  | insertDemoMonitor {userId : Int} {name target checkType : String}
      {checkConfig : Option String} {frequency : Int} {seedKey : String} {m : Monitor}
      (hchecked : m.lastState = none ∧ m.consecutiveFailures = 0) (hpublic : m.isPublic = false) :
      Makes (.insertDemoMonitor userId name target checkType checkConfig frequency seedKey)
        (.insertMonitor m)
  | deleteExpiredCheckResult {cutoff : Time} {limit : Nat} {id : Int} :
      Makes (.deleteExpired .checkResult cutoff limit) (.deleteCheckResult id)
  | deleteExpiredAlert {cutoff : Time} {limit : Nat} {id : Int} :
      Makes (.deleteExpired .alert cutoff limit) (.deleteAlert id)
  | createMonitor {data : NewMonitor} {id : Int} :
      Makes (.createMonitor data) (.insertMonitor (data.row id))
  | updateMonitor {id : Int} {data : MonitorPatch} :
      Makes (.updateMonitor id data) (.setFields id data)
  | deleteCheckResults {monitorId id : Int} :
      Makes (.deleteCheckResults monitorId) (.deleteCheckResult id)
  | deleteAlerts {monitorId id : Int} : Makes (.deleteAlerts monitorId) (.deleteAlert id)
  | deleteMonitor {id : Int} : Makes (.deleteMonitor id) (.deleteMonitor id)
  | createUser {data : NewUser} {id : Int} : Makes (.createUser data) (.insertUser (data.row id))
  | updateDemoUser {data : NewUser} {id : Int} :
      Makes (.upsertDemoUser data) (.setDemoUser id data.password)
  | createDemoUser {data : NewUser} {id : Int} :
      Makes (.upsertDemoUser data) (.insertUser (data.row id))
  | updateSeeded {userId : Int} {seedKey : String} {values : SeedValues} {createdAt : Time}
      {id : Int} : Makes (.upsertMonitor userId seedKey values createdAt) (.setSeeded id values)
  | createSeeded {userId : Int} {seedKey : String} {values : SeedValues} {createdAt : Time}
      {id : Int} : Makes (.upsertMonitor userId seedKey values createdAt)
        (.insertMonitor (values.row id userId seedKey createdAt))
  | hide {rows : Hide} {id : Int} : Makes (.updateManyHide rows) (.hide id)

/-- A plan makes no other changes. -/
theorem Sql.plan_makes {q : Sql} {moment : Moment} {a b : Seq} {db : Db} {out : q.Out}
    {ws : List Write} (h : q.plan moment a db = (b, .ok (out, ws))) : ∀ w ∈ ws, q.Makes w := by
  have hmap : ∀ {q : Sql} (ids : List Int) (f : Int → Write), (∀ id, q.Makes (f id)) →
      ∀ w ∈ ids.map f, q.Makes w := by
    intro q ids f hf w hw
    obtain ⟨id, -, rfl⟩ := List.mem_map.mp hw
    exact hf id
  have hone : ∀ {q : Sql} {w : Write}, q.Makes w → ∀ v ∈ [w], q.Makes v := by
    intro q w hw v hv
    rwa [List.mem_singleton.mp hv]
  cases q with
  | insertCheckResult =>
      cases h
      exact hone .insertCheckResult
  | insertAlert =>
      cases h
      exact hone .insertAlert
  | insertDemoMonitor =>
      cases h
      exact hone (.insertDemoMonitor ⟨rfl, rfl⟩ rfl)
  | createMonitor =>
      cases h
      exact hone .createMonitor
  | createUser =>
      cases h
      exact hone .createUser
  | upsertMonitor =>
      simp only [Sql.plan] at h
      split at h
      · cases h
        exact hone .updateSeeded
      · cases h
        exact hone .createSeeded
  | upsertDemoUser =>
      simp only [Sql.plan] at h
      split at h
      · cases h
        exact hone .updateDemoUser
      · cases h
        exact hone .createDemoUser
  | selectDue | selectDemoUser | countMonitors | findFirstMonitor | findUniqueUser
  | findManyMonitors | findUniqueMonitor | findManyCheckResults | findManyAlerts =>
      cases h
      exact fun w hw => absurd hw List.not_mem_nil
  | deleteOwnedCheckResults =>
      cases h
      exact hmap _ _ fun _ => .deleteOwnedCheckResults
  | deleteOwnedAlerts =>
      cases h
      exact hmap _ _ fun _ => .deleteOwnedAlerts
  | deleteOwnedMonitors =>
      cases h
      exact hmap _ _ fun _ => .deleteOwnedMonitors
  | deleteCheckResults =>
      cases h
      exact hmap _ _ fun _ => .deleteCheckResults
  | deleteAlerts =>
      cases h
      exact hmap _ _ fun _ => .deleteAlerts
  | updateManyHide =>
      cases h
      exact hmap _ _ fun _ => .hide
  | deleteExpired table =>
      cases table with
      | checkResult =>
          cases h
          exact hmap _ _ fun _ => .deleteExpiredCheckResult
      | alert =>
          cases h
          exact hmap _ _ fun _ => .deleteExpiredAlert
  | updateChecked =>
      simp only [Sql.plan] at h
      split at h
      · cases h
        exact hone .updateChecked
      · cases h
        exact fun w hw => absurd hw List.not_mem_nil
  | updateMonitor =>
      simp only [Sql.plan] at h
      split at h
      · cases h
      · cases h
        exact hone .updateMonitor
  | deleteMonitor =>
      simp only [Sql.plan] at h
      split at h
      · cases h
      · cases h
        exact hone .deleteMonitor

/-- All changes an operation makes are of one kind, if all that its statement can make are. -/
theorem Op.writes_of_makes {K : Write → Prop} {o : Op}
    (h : ∀ q, o = .sql q → ∀ w, q.Makes w → K w) : o.Writes K := by
  rintro a ws b (hle | hplan) w hw
  · cases hw
  · exact h _ rfl w (Sql.plan_makes hplan w hw)

theorem Op.Writes.mono {K K' : Write → Prop} {o : Op} (ho : o.Writes K) (h : ∀ w, K w → K' w) :
    o.Writes K' :=
  fun a ws b hadds w hw => h w (ho a ws b hadds w hw)

/-- **A connection on which only changes of one kind are made only commits such.** -/
theorem handle_writes {K : Write → Prop} {o : Op} (ho : o.Writes K) (choice : Choice)
    (st : Store) {s : Session} (hs : ∀ w ∈ s.writes, K w) :
    (∃ ws, st.Extends ws (handle choice st s o).1 ∧ ∀ w ∈ ws, K w) ∧
      ∀ w ∈ (handle choice st s o).2.1.writes, K w := by
  obtain ⟨ws, more, hext, hadds, hsub⟩ := handle_moves choice st s o
  have hall : ∀ w ∈ ws ++ (handle choice st s o).2.1.writes, K w := by
    intro w hw
    rcases List.mem_append.mp (hsub.subset hw) with h | h
    · exact hs w h
    · exact ho _ _ _ hadds w h
  exact ⟨⟨ws, hext, fun w hw => hall w (List.mem_append_left _ hw)⟩,
    fun w hw => hall w (List.mem_append_right _ hw)⟩

/-! ### What the tables keep -/

/-- An operation keeps `I`, which is about the sequences and the tables it sees. -/
def Op.Keeps (I : Seq → Db → Prop) (o : Op) : Prop :=
  ∀ q, o = .sql q → ∀ moment seq db seq' out ws db',
    q.plan moment seq db = (seq', .ok (out, ws)) → replay db ws = .ok db' → I seq db → I seq' db'

theorem Op.keeps_sql {I : Seq → Db → Prop} {q : Sql}
    (h : ∀ moment a db b out ws db', q.plan moment a db = (b, .ok (out, ws)) →
      replay db ws = .ok db' → I a db → I b db') : (Op.sql q).Keeps I := by
  intro q' hq'
  cases hq'
  exact h

/-- An operation that is no statement sees no tables. -/
theorem Op.keeps_of_not_sql {I : Seq → Db → Prop} {o : Op} (h : ∀ q, o ≠ .sql q) : o.Keeps I :=
  fun q hq => absurd hq (h q)

/-- A statement whose changes are of a kind that keeps `I`. -/
theorem Op.Writes.keeps {K : Write → Prop} {J : Db → Prop} {o : Op} (ho : o.Writes K)
    (hK : ∀ w, K w → ∀ db, w.violates db = none → J db → J (w.apply db)) :
    o.Keeps fun _ db => J db := by
  rintro q rfl moment seq db seq' out ws db' hplan hreplay hdb
  exact replay_invariant (fun w hw => hK w (ho _ _ _ (.sql hplan) w hw)) hdb hreplay

/-- `I` holds of the committed tables and of what an open transaction sees. -/
structure Tracks (I : Seq → Db → Prop) (st : Store) (s : Session) : Prop where
  committed : I st.seq st.db
  seen : ∀ ws, s = .open_ ws → I st.seq (ws.foldl Write.apply st.db)

/-- **What its statements keep, a program keeps**, in its transactions and out of them. -/
theorem handle_tracks {I : Seq → Db → Prop} (hmono : ∀ a b db, I a db → a.Le b → I b db)
    (choice : Choice) (st : Store) (s : Session) (o : Op) (ho : o.Keeps I)
    (h : Tracks I st s) : Tracks I (handle choice st s o).1 (handle choice st s o).2.1 := by
  have hidle : ∀ {st : Store}, I st.seq st.db → Tracks I st .idle :=
    fun h => ⟨h, fun ws hws => (nomatch hws)⟩
  cases o with
  | begin =>
      show Tracks I st (s.begin choice).1
      rcases Session.begin_cases choice s with ⟨e, he⟩ | ⟨rfl, he⟩
      · rw [he]
        exact h
      · rw [he]
        refine ⟨h.committed, fun ws hws => ?_⟩
        cases hws
        exact h.committed
  | rollback =>
      show Tracks I st (s.rollback choice).1
      rw [Session.rollback_fst]
      exact hidle h.committed
  | commit =>
      show Tracks I (s.commit choice st).1 (s.commit choice st).2.1
      have hcases := Session.commit_cases choice st s
      generalize s.commit choice st = r at hcases ⊢
      cases hcases with
      | refused => exact hidle h.committed
      | committed hs hreplay =>
          -- what is committed is what the transaction saw last
          refine hidle ?_
          show I st.seq _
          rw [replay_eq_foldl hreplay]
          exact h.seen _ hs
  | sql q =>
      show Tracks I (s.send choice st q).1 (s.send choice st q).2.1
      have hcases := Session.send_cases choice st s q
      generalize s.send choice st q = r at hcases ⊢
      cases hcases with
      | failed hs hseq => exact hidle (hmono _ _ _ h.committed hseq)
      | aborted hs hseq =>
          exact ⟨hmono _ _ _ h.committed hseq, fun ws hws => (nomatch hws)⟩
      | noRows => exact h
      | committed hs hplan hreplay =>
          exact hidle (ho q rfl _ _ _ _ _ _ _ hplan hreplay h.committed)
      | @buffered seq out writes more db hs hplan hreplay =>
          have hseq := q.plan_seq choice.moment st.seq (writes.foldl Write.apply st.db)
          rw [hplan] at hseq
          refine ⟨hmono _ _ _ h.committed hseq, fun ws hws => ?_⟩
          cases hws
          have hseen := ho q rfl _ _ _ _ _ _ _ hplan hreplay (h.seen _ hs)
          rw [replay_eq_foldl hreplay, ← List.foldl_append] at hseen
          exact hseen
  | probe | now | ctxErr | readFile | hash => exact h

/-- A reply that an operation may have on tables with `I`: of a statement, what its plan gives. -/
def Op.Answers (I : Seq → Db → Prop) : (o : Op) → o.Res → Prop
  | .sql q, r => ∀ out, r = .ok out → q.noRows = some out ∨
      ∃ moment db a b ws, I a db ∧ q.plan moment a db = (b, .ok (out, ws))
  | _, _ => True

theorem handle_answers {I : Seq → Db → Prop} (choice : Choice) {st : Store} {s : Session}
    (h : Tracks I st s) (o : Op) : o.Answers I (handle choice st s o).2.2 := by
  cases o with
  | sql q =>
      intro out hr
      rw [show handle choice st s (.sql q) = s.send choice st q from rfl] at hr
      have hcases := Session.send_cases choice st s q
      generalize s.send choice st q = r at hcases hr
      cases hcases with
      | failed => cases hr
      | aborted => cases hr
      | noRows hq =>
          cases hr
          exact .inl hq
      | committed hs hplan hreplay hreply =>
          rcases hreply with rfl | ⟨e, -, rfl⟩
          · cases hr
            exact .inr ⟨_, _, _, _, _, h.committed, hplan⟩
          · cases hr
      | buffered hs hplan hreplay =>
          cases hr
          exact .inr ⟨_, _, _, _, _, h.seen _ hs, hplan⟩
  | begin | commit | rollback | probe | now | ctxErr | readFile | hash => trivial

/-- In a transaction, which has failed or sees tables with `J`; nothing is committed. -/
def InTransaction (db : Db) (J : Db → Prop) (st : Store) (s : Session) : Prop :=
  st.db = db ∧ (s = .aborted ∨ ∃ ws, s = .open_ ws ∧ J (ws.foldl Write.apply db))

/-- A statement of a transaction, or an operation outside of the database. -/
def Op.Within (o : Op) : Prop := o ≠ .begin ∧ o ≠ .commit ∧ o ≠ .rollback

theorem Op.within_sql (q : Sql) : (Op.sql q).Within :=
  ⟨fun h => (nomatch h), fun h => (nomatch h), fun h => (nomatch h)⟩

theorem Op.within_now : Op.now.Within :=
  ⟨fun h => (nomatch h), fun h => (nomatch h), fun h => (nomatch h)⟩

theorem handle_inTransaction {db : Db} {J : Db → Prop} (choice : Choice) (st : Store)
    (s : Session) (o : Op) (hwithin : o.Within) (ho : o.Keeps fun _ db => J db)
    (h : InTransaction db J st s) :
    InTransaction db J (handle choice st s o).1 (handle choice st s o).2.1 := by
  obtain ⟨rfl, hs⟩ := h
  have hidle : s ≠ .idle := by
    rintro rfl
    rcases hs with hs | ⟨ws, hs, -⟩ <;> cases hs
  cases o with
  | begin => exact absurd rfl hwithin.1
  | commit => exact absurd rfl hwithin.2.1
  | rollback => exact absurd rfl hwithin.2.2
  | sql q =>
      show InTransaction st.db J (s.send choice st q).1 (s.send choice st q).2.1
      have hcases := Session.send_cases choice st s q
      generalize s.send choice st q = r at hcases ⊢
      cases hcases with
      | failed hs' => exact absurd hs' hidle
      | aborted => exact ⟨rfl, .inl rfl⟩
      | noRows => exact ⟨rfl, hs⟩
      | committed hs' => exact absurd hs' hidle
      | @buffered seq out writes more db hs' hplan hreplay =>
          rcases hs with hs | ⟨ws, hs, hJ⟩
          · rw [hs] at hs'
            cases hs'
          · rw [hs] at hs'
            cases hs'
            have hseen := ho q rfl _ _ _ _ _ _ _ hplan hreplay hJ
            rw [replay_eq_foldl hreplay, ← List.foldl_append] at hseen
            exact ⟨rfl, .inr ⟨_, rfl, hseen⟩⟩
  | probe | now | ctxErr | readFile | hash => exact ⟨rfl, hs⟩

/-! ### Numbers -/

/-- The id of a monitor that a change inserts. -/
def Write.newMonitor : Write → Option Int
  | .insertMonitor m => some m.id
  | _ => none

/-- The id of an account that a change inserts. -/
def Write.newUser : Write → Option Int
  | .insertUser u => some u.id
  | _ => none

/-- A statement inserts a monitor or an account with the next number, or neither. -/
theorem Sql.plan_keys {q : Sql} {moment : Moment} {a b : Seq} {db : Db} {out : q.Out}
    {ws : List Write} (h : q.plan moment a db = (b, .ok (out, ws))) :
    (∀ w ∈ ws, w.newMonitor = none ∧ w.newUser = none) ∨
      (∃ row, ws = [.insertMonitor row] ∧ row.id = a.monitors ∧
        b.monitors = a.monitors + 1) ∨
      ∃ row, ws = [.insertUser row] ∧ row.id = a.users ∧ b.users = a.users + 1 := by
  cases q with
  | insertDemoMonitor | createMonitor =>
      cases h
      exact .inr (.inl ⟨_, rfl, rfl, rfl⟩)
  | createUser =>
      cases h
      exact .inr (.inr ⟨_, rfl, rfl, rfl⟩)
  | upsertMonitor userId seedKey values createdAt =>
      simp only [Sql.plan] at h
      split at h
      · cases h
        refine .inl fun w hw => ?_
        rw [List.mem_singleton.mp hw]
        exact ⟨rfl, rfl⟩
      · cases h
        exact .inr (.inl ⟨_, rfl, rfl, rfl⟩)
  | upsertDemoUser data =>
      simp only [Sql.plan] at h
      split at h
      · cases h
        refine .inl fun w hw => ?_
        rw [List.mem_singleton.mp hw]
        exact ⟨rfl, rfl⟩
      · cases h
        exact .inr (.inr ⟨_, rfl, rfl, rfl⟩)
  | insertCheckResult | insertAlert | selectDue | selectDemoUser | countMonitors
  | findFirstMonitor | findUniqueUser | findManyMonitors | findUniqueMonitor
  | findManyCheckResults | findManyAlerts | deleteOwnedCheckResults | deleteOwnedAlerts
  | deleteOwnedMonitors | deleteCheckResults | deleteAlerts | updateManyHide | deleteExpired
  | updateChecked | updateMonitor | deleteMonitor =>
      -- none of the changes these make has a key
      refine .inl fun w hw => ?_
      cases Sql.plan_makes h w hw <;> exact ⟨rfl, rfl⟩

/-- A statement inserts at most one monitor, with the next number. -/
theorem Sql.plan_newMonitor {q : Sql} {moment : Moment} {a b : Seq} {db : Db} {out : q.Out}
    {ws : List Write} (h : q.plan moment a db = (b, .ok (out, ws))) :
    ws.filterMap Write.newMonitor = [] ∨
      ws.filterMap Write.newMonitor = [a.monitors] ∧ b.monitors = a.monitors + 1 := by
  rcases Sql.plan_keys h with hnone | ⟨row, rfl, hid, hnext⟩ | ⟨row, rfl, -, -⟩
  · exact .inl (List.filterMap_eq_nil_iff.mpr fun w hw => (hnone w hw).1)
  · exact .inr ⟨congrArg (fun id => [id]) hid, hnext⟩
  · exact .inl rfl

theorem Op.Adds.newMonitor {o : Op} {a b : Seq} {ws : List Write} (h : o.Adds a ws b) :
    ws.filterMap Write.newMonitor = [] ∧ a.monitors ≤ b.monitors ∨
      ws.filterMap Write.newMonitor = [a.monitors] ∧ b.monitors = a.monitors + 1 := by
  cases h with
  | nothing hle => exact .inl ⟨rfl, hle.monitors⟩
  | @sql q moment db _ _ out _ hplan =>
      have hle := q.plan_seq moment a db
      rw [hplan] at hle
      rcases Sql.plan_newMonitor hplan with h | h
      · exact .inl ⟨h, hle.monitors⟩
      · exact .inr h

/-- The ids of the monitors inserted on a connection and not yet committed. -/
def Session.numbers (s : Session) : List Int := s.writes.filterMap Write.newMonitor

/-- The ids of all monitors ever inserted, with those that are `pending`, are different and below
the next number. -/
structure Store.Numbered (st : Store) (pending : List Int) : Prop where
  nodup : (st.log.filterMap Write.newMonitor ++ pending).Nodup
  below : ∀ id ∈ st.log.filterMap Write.newMonitor ++ pending, id < st.seq.monitors

theorem Store.Numbered.perm {st : Store} {pending pending' : List Int} (h : st.Numbered pending)
    (hp : pending.Perm pending') : st.Numbered pending' :=
  ⟨(List.Perm.nodup_iff (hp.append_left _)).mp h.nodup,
    fun id hid => h.below id ((hp.append_left _).mem_iff.mpr hid)⟩

theorem Store.Numbered.sublist {st : Store} {pending pending' : List Int}
    (h : st.Numbered pending) (hsub : pending'.Sublist pending) : st.Numbered pending' :=
  ⟨(hsub.append_left _).nodup h.nodup,
    fun id hid => h.below id ((hsub.append_left _).subset hid)⟩

/-- The numbers of some rows, with those that are `pending`, are different and below the next
number. -/
structure Apart (rows pending : List Int) (next : Int) : Prop where
  nodup : (rows ++ pending).Nodup
  below : ∀ id ∈ rows ++ pending, id < next

theorem Apart.perm {rows pending pending' : List Int} {next : Int} (h : Apart rows pending next)
    (hp : pending.Perm pending') : Apart rows pending' next :=
  ⟨(List.Perm.nodup_iff (hp.append_left _)).mp h.nodup,
    fun id hid => h.below id ((hp.append_left _).mem_iff.mpr hid)⟩

/-- Rows may go, and numbers may be drawn for others. -/
theorem Apart.mono {rows rows' pending : List Int} {next next' : Int} (h : Apart rows pending next)
    (hsub : rows'.Sublist rows) (hle : next ≤ next') : Apart rows' pending next' :=
  ⟨(hsub.append_right _).nodup h.nodup,
    fun id hid => Int.lt_of_lt_of_le (h.below id ((hsub.append_right _).subset hid)) hle⟩

/-- Numbers that were pending become rows, and at most one new number is drawn. -/
theorem Apart.moves {rows ws own own' more others : List Int} {next next' : Int}
    (h : Apart rows (own ++ others) next) (hsub : (ws ++ own').Sublist (own ++ more))
    (hmore : more = [] ∧ next ≤ next' ∨ more = [next] ∧ next' = next + 1) :
    Apart (rows ++ ws) (own' ++ others) next' := by
  have hsub' : (rows ++ ws ++ (own' ++ others)).Sublist (rows ++ (own ++ more ++ others)) := by
    rw [List.append_assoc rows, ← List.append_assoc ws]
    exact (hsub.append_right _).append_left _
  -- all but the new number was there before
  have hperm : (more ++ (rows ++ (own ++ others))).Perm (rows ++ (own ++ more ++ others)) := by
    grind
  have hall : (more ++ (rows ++ (own ++ others))).Nodup ∧
      ∀ id ∈ more ++ (rows ++ (own ++ others)), id < next' := by
    rcases hmore with ⟨rfl, hle⟩ | ⟨rfl, hnext⟩
    · exact ⟨h.nodup, fun id hid => Int.lt_of_lt_of_le (h.below id hid) hle⟩
    · refine ⟨List.nodup_cons.mpr ⟨fun hid => Int.lt_irrefl _ (h.below _ hid), h.nodup⟩, ?_⟩
      intro id hid
      have hle : id ≤ next := by
        rcases List.mem_cons.mp hid with rfl | hid
        · exact Int.le_refl _
        · exact Int.le_of_lt (h.below id hid)
      rw [hnext]
      exact Int.lt_add_one_of_le hle
  exact ⟨hsub'.nodup (hperm.nodup_iff.mp hall.1),
    fun id hid => hall.2 id (hperm.mem_iff.mpr (hsub'.subset hid))⟩

/-- **Numbers stay apart**, whatever a connection does, beside any others. -/
theorem handle_numbered {st : Store} {s : Session} {others : List Int}
    (h : st.Numbered (s.numbers ++ others)) (choice : Choice) (o : Op) :
    (handle choice st s o).1.Numbered ((handle choice st s o).2.1.numbers ++ others) := by
  obtain ⟨ws, more, hext, hadds, hsub⟩ := handle_moves choice st s o
  generalize handle choice st s o = r at hext hadds hsub ⊢
  have hnumbers : (ws.filterMap Write.newMonitor ++ r.2.1.numbers).Sublist
      (s.numbers ++ more.filterMap Write.newMonitor) := by
    rw [Session.numbers, Session.numbers, ← List.filterMap_append, ← List.filterMap_append]
    exact hsub.filterMap _
  have happart := Apart.moves ⟨h.nodup, h.below⟩ hnumbers hadds.newMonitor
  rw [← List.filterMap_append, ← hext.log] at happart
  exact ⟨happart.nodup, happart.below⟩

theorem Db.map_id_onMonitor {db : Db} {id : Int} {f : Monitor → Monitor}
    (hf : ∀ m, (f m).id = m.id) :
    (db.onMonitor id f).monitors.map (·.id) = db.monitors.map (·.id) := by
  rw [Db.onMonitor, List.map_map]
  refine List.map_congr_left fun m _ => ?_
  show (if m.id = id then f m else m).id = m.id
  split
  · exact hf m
  · rfl

/-- The monitors in the tables are of those that were there or were inserted. -/
theorem replay_ids : ∀ {ws : List Write} {db db' : Db}, replay db ws = .ok db' →
    (db'.monitors.map (·.id)).Sublist (db.monitors.map (·.id) ++ ws.filterMap Write.newMonitor)
  | [], _, _, h => by
      cases h
      simp
  | w :: ws, db, db', h => by
      refine (replay_ids (replay_cons.mp h).2).trans ?_
      have hw : ((w.apply db).monitors.map (·.id)).Sublist
          (db.monitors.map (·.id) ++ [w].filterMap Write.newMonitor) := by
        cases w with
        | insertMonitor m => simp [Write.apply, Write.newMonitor]
        | deleteMonitor id =>
            exact (List.filter_sublist.map _).trans (List.sublist_append_left _ _)
        | setChecked id state at_ failures | setFields id patch | setSeeded id values | hide id =>
            refine List.Sublist.trans ?_ (List.sublist_append_left _ _)
            rw [Write.apply, Db.map_id_onMonitor]
            intro m
            rfl
        | insertUser | setDemoUser | insertCheckResult | deleteCheckResult | insertAlert
        | deleteAlert =>
            simp [Write.apply, Write.newMonitor]
      rw [show w :: ws = [w] ++ ws from rfl, List.filterMap_append, ← List.append_assoc]
      exact hw.append_right _

/-! ### Keys -/

/-- The primary keys, which are drawn from sequences, and the accounts that monitors refer to. -/
structure Keyed (seq : Seq) (db : Db) : Prop where
  users : (db.users.map (·.id)).Nodup
  usersBelow : ∀ u ∈ db.users, u.id < seq.users
  monitors : (db.monitors.map (·.id)).Nodup
  monitorsBelow : ∀ m ∈ db.monitors, m.id < seq.monitors
  owners : ∀ m ∈ db.monitors, ∃ u ∈ db.users, u.id = m.userId

theorem Keyed.mono {a b : Seq} {db : Db} (h : Keyed a db) (hle : a.Le b) : Keyed b db :=
  { h with
    usersBelow := fun u hu => Int.lt_of_lt_of_le (h.usersBelow u hu) hle.users
    monitorsBelow := fun m hm => Int.lt_of_lt_of_le (h.monitorsBelow m hm) hle.monitors }

/-- A monitor is found by its id. -/
theorem Keyed.find?_monitor {seq : Seq} {db : Db} (h : Keyed seq db) {m : Monitor}
    (hm : m ∈ db.monitors) : db.monitors.find? (·.id = m.id) = some m := by
  cases hfind : db.monitors.find? (·.id = m.id) with
  | none => exact absurd (decide_eq_true rfl) (List.find?_eq_none.mp hfind m hm)
  | some m' =>
      have hid : m'.id = m.id := by simpa using List.find?_some hfind
      exact congrArg some
        (List.inj_on_of_nodup_map h.monitors (List.mem_of_find?_eq_some hfind) hm hid)

/-- A change that inserts no monitor leaves ids, owners and seed keys as they are. -/
theorem Write.mem_monitors {w : Write} (hw : w.newMonitor = none) {db : Db} {m : Monitor}
    (hm : m ∈ (w.apply db).monitors) : ∃ old ∈ db.monitors, old.id = m.id ∧
      old.userId = m.userId ∧ old.seedKey = m.seedKey := by
  cases w with
  | insertMonitor row => cases hw
  | deleteMonitor id => exact ⟨m, (List.mem_filter.mp hm).1, rfl, rfl, rfl⟩
  | setChecked | setFields | setSeeded | hide =>
      rcases Db.mem_onMonitor hm with ⟨hm, -⟩ | ⟨old, hold, -, rfl⟩
      · exact ⟨m, hm, rfl, rfl, rfl⟩
      · exact ⟨old, hold, rfl, rfl, rfl⟩
  | insertUser | setDemoUser | insertCheckResult | deleteCheckResult | insertAlert
  | deleteAlert => exact ⟨m, hm, rfl, rfl, rfl⟩

/-- A change that inserts no account leaves the ids of the accounts as they are. -/
theorem Write.map_users {w : Write} (hw : w.newUser = none) (db : Db) :
    (w.apply db).users.map (·.id) = db.users.map (·.id) := by
  cases w with
  | insertUser u => cases hw
  | setDemoUser id password =>
      rw [Write.apply, List.map_map]
      refine List.map_congr_left fun u _ => ?_
      show (if u.id = id then { u with password := password, isDemo := true } else u).id = u.id
      split <;> rfl
  | insertMonitor | deleteMonitor | setChecked | setFields | setSeeded | hide
  | insertCheckResult | deleteCheckResult | insertAlert | deleteAlert => rfl

theorem Write.sublist_monitors {w : Write} (hw : w.newMonitor = none) (db : Db) :
    ((w.apply db).monitors.map (·.id)).Sublist (db.monitors.map (·.id)) := by
  cases w with
  | insertMonitor row => cases hw
  | deleteMonitor id => exact List.filter_sublist.map _
  | setChecked id state at_ failures | setFields id patch | setSeeded id values | hide id =>
      rw [Write.apply, Db.map_id_onMonitor]
      intro m
      rfl
  | insertUser | setDemoUser | insertCheckResult | deleteCheckResult | insertAlert
  | deleteAlert => exact List.Sublist.refl _

theorem Keyed.apply {seq : Seq} {db : Db} {w : Write} (h : Keyed seq db)
    (hmonitor : w.newMonitor = none) (huser : w.newUser = none) : Keyed seq (w.apply db) where
  users := by
    rw [w.map_users huser]
    exact h.users
  usersBelow u hu := by
    have hid : u.id ∈ db.users.map (·.id) := w.map_users huser db ▸ List.mem_map_of_mem hu
    obtain ⟨old, hold, heq⟩ := List.mem_map.mp hid
    exact heq ▸ h.usersBelow old hold
  monitors := (w.sublist_monitors hmonitor db).nodup h.monitors
  monitorsBelow m hm := by
    obtain ⟨old, hold, hid, -⟩ := Write.mem_monitors hmonitor hm
    exact hid ▸ h.monitorsBelow old hold
  owners m hm := by
    obtain ⟨old, hold, -, huserId, -⟩ := Write.mem_monitors hmonitor hm
    obtain ⟨u, hu, hid⟩ := h.owners old hold
    have hmem : u.id ∈ (w.apply db).users.map (·.id) :=
      (w.map_users huser db).symm ▸ List.mem_map_of_mem hu
    obtain ⟨u', hu', heq⟩ := List.mem_map.mp hmem
    exact ⟨u', hu', by rw [heq, hid, huserId]⟩

theorem Keyed.insertMonitor {a b : Seq} {db : Db} {row : Monitor} (h : Keyed a db)
    (hid : row.id = a.monitors) (hnext : b.monitors = a.monitors + 1) (hle : a.Le b)
    (hadmits : (Write.insertMonitor row).violates db = none) :
    Keyed b ((Write.insertMonitor row).apply db) := by
  have howner : db.users.any (·.id = row.userId) = true :=
    firstViolation_eq_none.mp hadmits _ (List.mem_cons_of_mem _ (List.mem_cons_of_mem _
      (List.mem_cons_of_mem _ List.mem_cons_self)))
  have h' := h.mono hle
  refine ⟨h'.users, h'.usersBelow, ?_, ?_, ?_⟩
  · show ((db.monitors ++ [row]).map (·.id)).Nodup
    rw [List.map_append, List.nodup_append]
    refine ⟨h.monitors, List.pairwise_singleton _ _, fun x hx y hy heq => ?_⟩
    obtain ⟨m, hm, rfl⟩ := List.mem_map.mp hx
    obtain rfl := List.mem_singleton.mp hy
    exact Int.ne_of_lt (h.monitorsBelow m hm) (heq.trans hid)
  · intro m hm
    rcases List.mem_append.mp hm with hm | hm
    · exact h'.monitorsBelow m hm
    · rw [List.mem_singleton.mp hm, hid, hnext]
      exact Int.lt_succ _
  · intro m hm
    rcases List.mem_append.mp hm with hm | hm
    · exact h'.owners m hm
    · obtain ⟨u, hu, heq⟩ := List.any_eq_true.mp howner
      exact ⟨u, hu, by rw [List.mem_singleton.mp hm]; exact of_decide_eq_true heq⟩

theorem Keyed.insertUser {a b : Seq} {db : Db} {row : User} (h : Keyed a db)
    (hid : row.id = a.users) (hnext : b.users = a.users + 1) (hle : a.Le b) :
    Keyed b ((Write.insertUser row).apply db) := by
  have h' := h.mono hle
  refine ⟨?_, ?_, h'.monitors, h'.monitorsBelow, ?_⟩
  · show ((db.users ++ [row]).map (·.id)).Nodup
    rw [List.map_append, List.nodup_append]
    refine ⟨h.users, List.pairwise_singleton _ _, fun x hx y hy heq => ?_⟩
    obtain ⟨u, hu, rfl⟩ := List.mem_map.mp hx
    obtain rfl := List.mem_singleton.mp hy
    exact Int.ne_of_lt (h.usersBelow u hu) (heq.trans hid)
  · intro u hu
    rcases List.mem_append.mp hu with hu | hu
    · exact h'.usersBelow u hu
    · rw [List.mem_singleton.mp hu, hid, hnext]
      exact Int.lt_succ _
  · intro m hm
    obtain ⟨u, hu, heq⟩ := h.owners m hm
    exact ⟨u, List.mem_append_left _ hu, heq⟩

/-- **Every statement keeps the keys.** -/
theorem keeps_keyed (o : Op) : o.Keeps Keyed := by
  rintro q rfl moment a db b out ws db' hplan hreplay hdb
  have hle : a.Le b := by
    have hle := q.plan_seq moment a db
    rwa [hplan] at hle
  rcases Sql.plan_keys hplan with hws | ⟨row, rfl, hid, hnext⟩ | ⟨row, rfl, hid, hnext⟩
  · exact Keyed.mono (replay_invariant (P := Keyed a)
      (fun w hw db _ hdb => hdb.apply (hws w hw).1 (hws w hw).2) hdb hreplay) hle
  · obtain ⟨hadmits, hdone⟩ := replay_cons.mp hreplay
    cases hdone
    exact hdb.insertMonitor hid hnext hle hadmits
  · cases (replay_cons.mp hreplay).2
    exact hdb.insertUser hid hnext hle

/-- What implies the keys and is kept by a statement that keeps the keys is kept. -/
theorem Op.keeps_sql_keyed {I : Seq → Db → Prop} {q : Sql}
    (hI : ∀ {seq db}, I seq db → Keyed seq db)
    (h : ∀ moment a db b out ws db', q.plan moment a db = (b, .ok (out, ws)) →
      replay db ws = .ok db' → I a db → Keyed b db' → I b db') : (Op.sql q).Keeps I := by
  refine Op.keeps_sql fun moment a db b out ws db' hplan hreplay ha => ?_
  have hkeyed := keeps_keyed _ _ rfl _ _ _ _ _ _ _ hplan hreplay (hI ha)
  exact h moment a db b out ws db' hplan hreplay ha hkeyed

/-! ### Seed keys -/

/-- The unique index on the seed keys of an account's monitors. -/
def SeedKeyed (db : Db) : Prop :=
  ∀ m ∈ db.monitors, ∀ n ∈ db.monitors, m.userId = n.userId → m.seedKey = n.seedKey →
    m.seedKey ≠ none → m.id = n.id

/-- A monitor that is admitted has no key of another one of its account. -/
theorem seedKey_new {db : Db} {row m : Monitor}
    (hadmits : (Write.insertMonitor row).violates db = none) (hm : m ∈ db.monitors)
    (huser : m.userId = row.userId) (hkey : m.seedKey = row.seedKey) : row.seedKey = none := by
  have hunique := firstViolation_eq_none.mp hadmits
    (row.seedKey = none || !db.monitors.any fun n => n.userId = row.userId &&
      n.seedKey = row.seedKey, uniqueViolation) (by simp)
  rcases Bool.or_eq_true_iff.mp hunique with hnull | hnone
  · exact of_decide_eq_true hnull
  · rw [Bool.not_eq_true', List.any_eq_false] at hnone
    exact absurd (by simp [huser, hkey]) (hnone m hm)

/-- **Every change that is admitted keeps the index.** -/
theorem SeedKeyed.apply {db : Db} {w : Write} (h : SeedKeyed db) (hadmits : w.violates db = none) :
    SeedKeyed (w.apply db) := by
  cases hnew : w.newMonitor with
  | none =>
      intro m hm n hn huser hkey hne
      obtain ⟨m', hm', hmid, hmuser, hmkey⟩ := Write.mem_monitors hnew hm
      obtain ⟨n', hn', hnid, hnuser, hnkey⟩ := Write.mem_monitors hnew hn
      have hid := h m' hm' n' hn' (by rw [hmuser, hnuser, huser]) (by rw [hmkey, hnkey, hkey])
        (hmkey ▸ hne)
      rw [← hmid, ← hnid, hid]
  | some id =>
      cases w with
      | insertMonitor row =>
          intro m hm n hn huser hkey hne
          rcases List.mem_append.mp hm with hm' | hm' <;>
            rcases List.mem_append.mp hn with hn' | hn'
          · exact h m hm' n hn' huser hkey hne
          · obtain rfl := List.mem_singleton.mp hn'
            exact absurd (hkey.trans (seedKey_new hadmits hm' huser hkey)) hne
          · obtain rfl := List.mem_singleton.mp hm'
            exact absurd (seedKey_new hadmits hn' huser.symm hkey.symm) hne
          · rw [List.mem_singleton.mp hm', List.mem_singleton.mp hn']
      | _ => cases hnew

/-- The primary keys and the index. -/
structure Constrained (seq : Seq) (db : Db) : Prop where
  keyed : Keyed seq db
  seedKeyed : SeedKeyed db

theorem Constrained.mono {a b : Seq} {db : Db} (h : Constrained a db) (hle : a.Le b) :
    Constrained b db :=
  ⟨h.keyed.mono hle, h.seedKeyed⟩

theorem constrained_empty : Constrained Seq.first Db.empty where
  keyed := ⟨List.nodup_nil, fun _ h => absurd h List.not_mem_nil, List.nodup_nil,
    fun _ h => absurd h List.not_mem_nil, fun _ h => absurd h List.not_mem_nil⟩
  seedKeyed _ h := absurd h List.not_mem_nil

theorem keeps_constrained (o : Op) : o.Keeps Constrained := by
  rintro q hq moment a db b out ws db' hplan hreplay hdb
  refine ⟨keeps_keyed o q hq _ _ _ _ _ _ _ hplan hreplay hdb.keyed, ?_⟩
  exact replay_invariant (fun w _ db hadmits h => h.apply hadmits) hdb.seedKeyed hreplay

theorem Constrained.eq_of_id {seq : Seq} {db : Db} (h : Constrained seq db) {m n : Monitor}
    (hm : m ∈ db.monitors) (hn : n ∈ db.monitors) (hid : m.id = n.id) : m = n :=
  List.inj_on_of_nodup_map h.keyed.monitors hm hn hid

/-- An account has one monitor with a key. -/
theorem Constrained.eq_of_seedKey {seq : Seq} {db : Db} (h : Constrained seq db) {m n : Monitor}
    {key : String} (hm : m ∈ db.monitors) (hn : n ∈ db.monitors) (huser : m.userId = n.userId)
    (hmkey : m.seedKey = some key) (hnkey : n.seedKey = some key) : m = n :=
  h.eq_of_id hm hn (h.seedKeyed m hm n hn huser (hmkey.trans hnkey.symm)
    (hmkey ▸ Option.some_ne_none key))

end Sentinel.Database
