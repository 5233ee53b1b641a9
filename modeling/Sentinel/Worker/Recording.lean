import Sentinel.Worker.Persist

/-!
# Worker — Recording

Which responses can be recorded. `HTTPChecker.check` cuts a body at a fixed number of bytes and
hands the bytes on, and the column of the sample takes valid UTF-8 without a NUL byte, so the
content of a body decides whether the check of a monitor can be committed at all.

* `WholeCharacters`: the body is whole characters, none of them NUL, up to its end or exactly up
  to the byte where it is cut.
* `sample_recorded`: with nothing else in the way, the check is committed exactly for these.
-/

namespace Sentinel.Worker

open Program Database Checker Utf8

theorem acceptsBytes_iff {b : ByteArray} :
    acceptsBytes b = true ↔ ∃ cs : List Char, b = cs.utf8Encode ∧ '\x00' ∉ cs := by
  simp only [acceptsBytes, Bool.and_eq_true, decide_eq_true_eq, Bool.not_eq_true',
    List.contains_eq_mem, decide_eq_false_iff_not]
  constructor
  · rintro ⟨⟨cs, rfl⟩, h0⟩
    exact ⟨cs, rfl, mt zero_mem_utf8Encode.mpr h0⟩
  · rintro ⟨cs, rfl, h0⟩
    exact ⟨⟨cs, rfl⟩, mt zero_mem_utf8Encode.mp h0⟩

/-! ### Bodies -/

/-- The body begins with whole characters, none of them NUL, that end with it or exactly where it
is cut. -/
def WholeCharacters (body : ByteArray) : Prop :=
  ∃ (cs : List Char) (rest : ByteArray), body = cs.utf8Encode ++ rest ∧ '\x00' ∉ cs ∧
    (cs.utf8Encode.size = maxResponseBodyRead ∨
      cs.utf8Encode.size < maxResponseBodyRead ∧ rest = ByteArray.empty)

/-- The column accepts the sample of a body exactly if it is whole characters up to the cut. -/
theorem acceptsBytes_sample {body : ByteArray} :
    acceptsBytes (sample body) = true ↔ WholeCharacters body := by
  rw [acceptsBytes_iff]
  constructor
  · rintro ⟨cs, hcs, h0⟩
    by_cases hle : maxResponseBodyRead ≤ body.size
    · refine ⟨cs, body.extract maxResponseBodyRead body.size, ?_, h0, .inl ?_⟩
      · rw [← hcs, sample, ← ByteArray.extract_eq_extract_append_extract _ (Nat.zero_le _) hle,
          ByteArray.extract_zero_size]
      · rw [← hcs, sample, ByteArray.size_extract, Nat.min_eq_left hle]
        rfl
    · have hlt : body.size < maxResponseBodyRead := Nat.lt_of_not_le hle
      rw [sample, extract_of_size_le hlt.le] at hcs
      exact ⟨cs, .empty, by rw [← hcs, ByteArray.append_empty], h0, .inr ⟨hcs ▸ hlt, rfl⟩⟩
  · rintro ⟨cs, rest, rfl, h0, hsize | ⟨hsize, rfl⟩⟩
    · exact ⟨cs, ByteArray.extract_append_eq_left hsize.symm, h0⟩
    · refine ⟨cs, ?_, h0⟩
      rw [sample, ByteArray.append_empty, extract_of_size_le hsize.le]

/-- A body that is text as a whole is recorded unless it has a NUL before the cut, or the cut
falls inside a character. -/
theorem wholeCharacters_text (s : String) :
    WholeCharacters s.toByteArray ↔ 0 ∉ (sample s.toByteArray).data.toList ∧
      (s.toByteArray.size ≤ maxResponseBodyRead ∨
        ∃ h : maxResponseBodyRead < s.toByteArray.size,
          (s.toByteArray[maxResponseBodyRead]).IsUTF8FirstByte) := by
  have hvalid : (s.toByteArray.extract 0 maxResponseBodyRead).IsValidUTF8 ↔
      s.toByteArray.size ≤ maxResponseBodyRead ∨
        ∃ h : maxResponseBodyRead < s.toByteArray.size,
          (s.toByteArray[maxResponseBodyRead]).IsUTF8FirstByte := by
    by_cases hle : s.toByteArray.size ≤ maxResponseBodyRead
    · rw [extract_of_size_le hle]
      exact ⟨fun _ => .inl hle, fun _ => s.isValidUTF8⟩
    · have hlt : maxResponseBodyRead < s.toByteArray.size := Nat.lt_of_not_le hle
      have hcut : (⟨maxResponseBodyRead⟩ : String.Pos.Raw) < s.rawEndPos := by
        simpa [String.Pos.Raw.lt_iff] using hlt
      have hvalid := String.Pos.Raw.isValid_iff_isValidUTF8_extract_zero (s := s)
        (p := ⟨maxResponseBodyRead⟩)
      rw [String.Pos.Raw.isValid_iff_isUTF8FirstByte] at hvalid
      constructor
      · intro h
        rcases hvalid.mpr ⟨Nat.le_of_lt hcut, h⟩ with he | ⟨h', hb⟩
        · exact absurd (he ▸ hcut) (Nat.lt_irrefl _)
        · exact .inr ⟨hlt, hb⟩
      · rintro (h | ⟨h', hb⟩)
        · exact absurd h hle
        · exact (hvalid.mp (.inr ⟨hcut, hb⟩)).2
  rw [← acceptsBytes_sample, acceptsBytes]
  simp only [Bool.and_eq_true, decide_eq_true_eq, Bool.not_eq_true', List.contains_eq_mem,
    decide_eq_false_iff_not, sample, hvalid]
  exact and_comm

/-! ### Committing a check -/

section Calm

variable {Q : Store × List Event → Session → Option WorkError → Prop} {st : Store}
  {tr : List Event} {now : Time} {probe : Except String Checker.Result} {writes more : List Write}

/-- The precondition of a program when nothing fails. -/
abbrev Calm (now : Time) (probe : Except String Checker.Result)
    (Q : Store × List Event → Session → Option WorkError → Prop) (p : Client (Option WorkError))
    (st : Store) (tr : List Event) (s : Session) : Prop :=
  p.Post (Prog.logged handle) (· = Choice.calm now probe) Q (st, tr) s

theorem calm_sql {q : Sql} {k : Except DbError q.Out → Client (Option WorkError)} {seq : Seq}
    {out : q.Out} {db : Db}
    (hplan : q.plan ⟨now, []⟩ st.seq (writes.foldl Write.apply st.db) = (seq, .ok (out, more)))
    (hreplay : replay (writes.foldl Write.apply st.db) more = .ok db)
    (h : Calm now probe Q (k (.ok out)) { st with seq := seq } (tr ++ [⟨.sql q, .ok out⟩])
      (.open_ (writes ++ more))) :
    Calm now probe Q (Client.sql q >>= k) st tr (.open_ writes) := by
  rintro choice rfl
  have hsend : (Session.open_ writes).send (Choice.calm now probe) st q =
      ({ st with seq := seq }, .open_ (writes ++ more), .ok out) :=
    Session.send_planned rfl hplan hreplay
  show Calm now probe Q (k ((Session.open_ writes).send (Choice.calm now probe) st q).2.2)
    ((Session.open_ writes).send (Choice.calm now probe) st q).1
    (tr ++ [⟨.sql q, ((Session.open_ writes).send (Choice.calm now probe) st q).2.2⟩])
    ((Session.open_ writes).send (Choice.calm now probe) st q).2.1
  rw [hsend]
  exact h

theorem calm_commit {k : Except DbError Unit → Client (Option WorkError)} {db : Db}
    (hreplay : replay st.db writes = .ok db)
    (h : Calm now probe Q (k (.ok ())) (st.commit db writes) (tr ++ [⟨.commit, .ok ()⟩]) .idle) :
    Calm now probe Q (Client.commit >>= k) st tr (.open_ writes) := by
  rintro choice rfl
  have hcommit : (Session.open_ writes).commit (Choice.calm now probe) st =
      (st.commit db writes, .idle, .ok ()) := Session.commit_replayed rfl hreplay
  show Calm now probe Q (k ((Session.open_ writes).commit (Choice.calm now probe) st).2.2)
    ((Session.open_ writes).commit (Choice.calm now probe) st).1
    (tr ++ [⟨.commit, ((Session.open_ writes).commit (Choice.calm now probe) st).2.2⟩])
    ((Session.open_ writes).commit (Choice.calm now probe) st).2.1
  rw [hcommit]
  exact h

/-- A check whose changes the schema admits is committed. -/
theorem persist_calm {m : Checker.Monitor} {result : Checker.Result}
    {evaluation : FsmEvaluation} {db : Db}
    (h : replay st.db (checkWrites m result evaluation now st.seq.checkResults st.seq.alerts) =
      .ok db) :
    Calm now probe (fun x _ r => x.1.db = db ∧ x.2.any Trace.commitSucceeded = true ∧ r = none)
      (persist m result evaluation now) st tr (.open_ []) := by
  obtain ⟨hinsert, hrest⟩ := replay_cons.mp h
  obtain ⟨hset, halerts⟩ := replay_cons.mp hrest
  have hmonitor : st.db.hasMonitor m.id = true :=
    firstViolation_eq_none.mp hinsert (st.db.hasMonitor m.id, foreignKeyViolation)
      (List.mem_cons_of_mem _ (List.mem_cons_of_mem _ List.mem_cons_self))
  unfold persist
  -- the foreign key of the result admits it only with its monitor, which the update then finds
  refine calm_sql rfl (replay_cons.mpr ⟨hinsert, rfl⟩) ?_
  refine calm_sql (by
    show (if st.db.hasMonitor m.id = true then _ else _) = _
    rw [if_pos hmonitor]) (replay_cons.mpr ⟨hset, rfl⟩) ?_
  show Calm now probe _ (persistAlert m evaluation now) _ _ _
  unfold persistAlert
  have hcommitted : ∀ {st' : Store} {tr : List Event} {writes : List Write},
      replay st'.db writes = .ok db →
      Calm now probe (fun x _ r => x.1.db = db ∧ x.2.any Trace.commitSucceeded = true ∧ r = none)
        commitCheck st' tr (.open_ writes) := by
    intro st' tr writes hw
    refine calm_commit hw ⟨rfl, ?_, rfl⟩
    rw [List.any_append]
    simp [Trace.commitSucceeded]
  by_cases halert : evaluation.alertType = ""
  · rw [if_neg (by simpa using halert)]
    refine hcommitted ?_
    rw [checkWrites, if_pos halert, List.append_nil] at h
    exact h
  · rw [if_pos halert]
    rw [if_neg halert] at halerts
    refine calm_sql rfl (replay_cons.mpr ⟨(replay_cons.mp halerts).1, rfl⟩) (hcommitted ?_)
    rw [checkWrites, if_neg halert] at h
    exact h

theorem checkAndPersist_calm {registered : List String} {m : Checker.Monitor}
    {thresholds : List Int} {result : Checker.Result} {db : Db}
    (hget : Checker.get registered m.checkType = .ok ())
    (h : replay st.db (checkWrites m result
      (evaluateFSM m.lastState m.consecutiveFailures result.state (threshold thresholds)) now
      st.seq.checkResults st.seq.alerts) = .ok db) :
    Calm now (.ok result) (fun x _ _ => x.1.db = db ∧ x.2.any Trace.commitSucceeded = true)
      (checkAndPersist registered m thresholds) st [] .idle := by
  unfold checkAndPersist
  rw [hget]
  rintro choice rfl choice rfl choice rfl
  show Calm now (.ok result) _ (persist m result _ now >>= fun r =>
    Client.rollback >>= fun _ => pure r) st (opening m result now) (.open_ [])
  refine Prog.post_bind.mpr (Prog.Post.mono ?_ (persist_calm h))
  rintro x s r ⟨hdb, hcommit, -⟩ choice rfl
  refine ⟨hdb, ?_⟩
  show (x.2 ++ _).any Trace.commitSucceeded = true
  rw [List.any_append, hcommit, Bool.true_or]

end Calm

/-- Every probe of a calm run has the one result. -/
theorem probed_calm (now : Time) {result : Checker.Result} :
    ∀ (p : Client (Option WorkError)) (x : Store × List Event) (s : Session),
      (∀ r ∈ x.2.filterMap Trace.probed, r = result) →
      p.Post (Prog.logged handle) (· = Choice.calm now (.ok result))
        (fun x _ _ => ∀ r ∈ x.2.filterMap Trace.probed, r = result) x s
  | .ret _, _, _, h => h
  | .call o k, x, s, h => by
      rintro choice rfl
      refine probed_calm now _ _ _ fun r hr => ?_
      rw [show (Prog.logged handle (Choice.calm now (.ok result)) x s o).1.2 =
        x.2 ++ [⟨o, (handle (Choice.calm now (.ok result)) x.1 s o).2.2⟩] from rfl,
        List.filterMap_append, List.mem_append] at hr
      rcases hr with hr | hr
      · exact h r hr
      · cases o with
        | probe m => simpa [Trace.probed, handle, Choice.calm] using hr
        | begin | commit | rollback | sql | now | ctxErr | readFile | hash =>
            simp [Trace.probed] at hr

/-- Nothing but the sample stands in the way of recording a result: the monitor is there, and the
status, the counter and the name fit their columns. -/
structure Admits (db : Db) (m : Checker.Monitor) (thresholds : List Int)
    (result : Checker.Result) : Prop where
  monitor : db.hasMonitor m.id = true
  status : result.statusCode.all isInteger = true
  message : result.errorMessage.all acceptsBytes = true
  counter : isInteger (evaluateFSM m.lastState m.consecutiveFailures result.state
    (threshold thresholds)).consecutiveFailures = true
  name : acceptsText m.name = true

theorem acceptsText_alertMessage {name : String} (h : acceptsText name = true)
    (alertType : String) : acceptsText (alertMessage name alertType) = true := by
  have hname : '\x00' ∉ name.toList := by simpa [acceptsText] using h
  unfold alertMessage
  split
  · simp [acceptsText, hname]
  · simp [acceptsText, hname]

theorem exists_replay_cons {db : Db} {w : Write} {ws : List Write} :
    (∃ db', replay db (w :: ws) = .ok db') ↔
      w.violates db = none ∧ ∃ db', replay (w.apply db) ws = .ok db' := by
  simp only [replay_cons, exists_and_left]

theorem hasMonitor_onMonitor {db : Db} {id : Int} {f : Database.Monitor → Database.Monitor}
    (hf : ∀ row, (f row).id = row.id) (n : Int) :
    (db.onMonitor id f).hasMonitor n = db.hasMonitor n := by
  rw [Db.hasMonitor, Db.onMonitor, List.any_map, Db.hasMonitor]
  congr 1
  funext row
  show decide ((if row.id = id then f row else row).id = n) = _
  split
  · rw [hf]
  · rfl

theorem replay_checkWrites {db : Db} {m : Checker.Monitor} {thresholds : List Int}
    {result : Checker.Result} (h : Admits db m thresholds result)
    (hsample : result.responseSample.all acceptsBytes = true) (now : Time)
    (resultId alertId : Int) :
    ∃ db', replay db (checkWrites m result (evaluateFSM m.lastState m.consecutiveFailures
      result.state (threshold thresholds)) now resultId alertId) = .ok db' := by
  have hmonitor : ∀ state failures rows, (({ db with checkResults := rows } : Db).onMonitor m.id
      (·.checked state now failures)).hasMonitor m.id = true := by
    intro state failures rows
    rw [hasMonitor_onMonitor (f := (·.checked state now failures)) fun _ => rfl]
    exact h.monitor
  refine exists_replay_cons.mpr ⟨?_, exists_replay_cons.mpr ⟨?_, ?_⟩⟩
  · refine firstViolation_eq_none.mpr ?_
    simp only [List.mem_cons, List.not_mem_nil, or_false, forall_eq_or_imp, forall_eq,
      Bool.and_eq_true]
    exact ⟨⟨hsample, h.message⟩, h.status, h.monitor⟩
  · refine firstViolation_eq_none.mpr ?_
    simp only [List.mem_singleton, forall_eq]
    exact h.counter
  · by_cases halert : (evaluateFSM m.lastState m.consecutiveFailures result.state
        (threshold thresholds)).alertType = ""
    · rw [if_pos halert]
      exact ⟨_, rfl⟩
    · rw [if_neg halert]
      refine exists_replay_cons.mpr ⟨firstViolation_eq_none.mpr ?_, _, rfl⟩
      simp only [List.mem_cons, List.not_mem_nil, or_false, forall_eq_or_imp, forall_eq]
      exact ⟨acceptsText_alertMessage h.name _, hmonitor _ _ _⟩

/-! ### The checks of one monitor -/

/-- `checkAndPersist` with the HTTP checker, at a time when nothing fails. -/
def checkOver (env : HttpEnv) (ports : Option (Int → Bool)) (m : Checker.Monitor)
    (thresholds : List Int) (now : Time) (st : Store) :
    (Store × List Event) × Session × Option WorkError :=
  (checkAndPersist ["http"] m thresholds).run (Prog.logged handle)
    (fun _ => Choice.calm now (HTTPChecker.check env ports m)) (st, []) .idle

/-- The changes of a check stamp its monitor. -/
theorem checkedAt_of_replay {db db' : Db} {m : Checker.Monitor} {result : Checker.Result}
    {evaluation : FsmEvaluation} {now : Time} {resultId alertId : Int}
    (h : replay db (checkWrites m result evaluation now resultId alertId) = .ok db')
    (row : Database.Monitor) (hrow : row ∈ db'.monitors) (hid : row.id = m.id) :
    row.lastCheckedAt = some now := by
  have hmonitors : db'.monitors = (db.onMonitor m.id
      (·.checked evaluation.state now evaluation.consecutiveFailures)).monitors := by
    rw [replay_eq_foldl h, foldl_checkWrites]
    rfl
  rw [hmonitors, Db.onMonitor, List.mem_map] at hrow
  obtain ⟨old, -, rfl⟩ := hrow
  by_cases hold : old.id = m.id
  · simp [hold, Database.Monitor.checked]
  · rw [if_neg hold] at hid
    exact absurd hid hold

/-- **A response is recorded iff its body begins with whole characters.** When nothing else is in
the way, the sample of the response fits its column, the check is committed and the monitor is
stamped, exactly if the body has no NUL and no broken character before the cut; otherwise the
check changes nothing at all, and the monitor stays due. -/
theorem sample_recorded (env : HttpEnv) (ports : Option (Int → Bool)) (m : Checker.Monitor)
    (thresholds : List Int) (now : Time) (st : Store) (latencyMs : Int) (resp : Response)
    (hchecker : m.checkType = "http") (hresp : HTTPChecker.Receives env ports m latencyMs resp)
    (hadmits : Admits st.db m thresholds (received (m.config env).expected latencyMs resp)) :
    let x := checkOver env ports m thresholds now st
    ((acceptsBytes (sample resp.body) = true ∧ x.1.2.any Trace.commitSucceeded = true ∧
        ∀ row ∈ x.1.1.db.monitors, row.id = m.id → row.lastCheckedAt = some now) ↔
      WholeCharacters resp.body) ∧
    (¬ WholeCharacters resp.body → x.1.2.any Trace.commitSucceeded = false ∧
      x.1.1.db = st.db) := by
  intro x
  have hget : Checker.get ["http"] m.checkType = .ok () := by
    rw [hchecker]
    rfl
  have hcheck := HTTPChecker.check_receives hresp
  have hout : Outcome ["http"] m thresholds st.db x.1 x.2.1 x.2.2 :=
    (checkAndPersist_alone ["http"] m thresholds st).run fun _ => Choice.calm_replies _ _
  constructor
  · constructor
    · rintro ⟨haccepts, -⟩
      exact acceptsBytes_sample.mp haccepts
    · intro hbody
      have haccepts := acceptsBytes_sample.mpr hbody
      obtain ⟨db, hdb⟩ := replay_checkWrites hadmits (by exact haccepts) now st.seq.checkResults
        st.seq.alerts
      have hcalm : x.1.1.db = db ∧ x.1.2.any Trace.commitSucceeded = true :=
        (checkAndPersist_calm hget hdb).run fun _ => by rw [hcheck]
      refine ⟨haccepts, hcalm.2, ?_⟩
      rw [hcalm.1]
      exact checkedAt_of_replay hdb
  · intro hbody
    have hno : x.1.2.any Trace.commitSucceeded = false := by
      by_contra hyes
      obtain ⟨result, hresult, -, at_, resultId, alertId, hreplay, -⟩ :=
        hout.recorded (by simpa using hyes)
      have hprobed : ∀ r ∈ x.1.2.filterMap Trace.probed,
          r = received (m.config env).expected latencyMs resp :=
        (probed_calm now (checkAndPersist ["http"] m thresholds) (st, []) .idle
          fun r hr => (nomatch hr)).run fun _ => by rw [hcheck]
      rw [hprobed result hresult] at hreplay
      -- the insert of the check result was admitted, and with it the sample
      have hinsert := firstViolation_eq_none.mp (replay_cons.mp hreplay).1 _ List.mem_cons_self
      simp only [received, Option.all_some, Option.all_none, Bool.and_true] at hinsert
      exact hbody (acceptsBytes_sample.mp hinsert)
    exact ⟨hno, hout.unchanged hno⟩

/-- A server that answers every request with one body. -/
def answering (body : ByteArray) : HttpEnv where
  urlParse _ := .ok ⟨"https".toList, "example.com".toList⟩
  unmarshal _ := ⟨none, none, none⟩
  newRequest _ _ := none
  exchange _ _ _ := (1500, .ok ⟨200, body⟩)

/-- The monitor of `failingStore` as it is fetched. -/
def failingMonitor : Checker.Monitor :=
  ⟨7, "api", "https://example.com", "http", some "{}", 60, none, some 0, 2⟩

theorem sample_recorded_ok :
    let x := checkOver (answering "ok".toByteArray) none failingMonitor [3] 60000000 failingStore
    x.1.2.any Trace.commitSucceeded = true ∧
      ∀ row ∈ x.1.1.db.monitors, row.id = 7 → row.lastCheckedAt = some 60000000 :=
  have hbody : WholeCharacters "ok".toByteArray :=
    (wholeCharacters_text "ok").mpr (by decide)
  ((sample_recorded (answering "ok".toByteArray) none failingMonitor [3] 60000000 failingStore
    1500 ⟨200, "ok".toByteArray⟩ rfl ⟨⟨_, rfl⟩, rfl, rfl⟩
    ⟨by decide, by decide, by decide, by decide, by decide⟩).1.mpr hbody).2

/-- A page in ISO 8859-1, `é`: its status is the expected one, and yet the check cannot be
committed, and the monitor has not been checked since time 0. -/
theorem sample_latin1_lost :
    let body : ByteArray := ⟨#[0xE9]⟩
    let x := checkOver (answering body) none failingMonitor [3] 60000000 failingStore
    HTTPChecker.check (answering body) none failingMonitor = .ok (received 200 1500 ⟨200, body⟩) ∧
      acceptsBytes (sample body) = false ∧ x.1.2.any Trace.commitSucceeded = false ∧
        x.1.1.db.monitors.map (·.lastCheckedAt) = [some 0] := by
  refine ⟨rfl, by decide, by decide, by decide⟩

end Sentinel.Worker
