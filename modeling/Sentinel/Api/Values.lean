import Sentinel.Database.Ledger

/-!
# Api — Values

What the services of `sentinel-api` compute with: JSON values as `JSON.parse` gives them, fields of
a request that may be `undefined` or `null`, numbers, and the errors the services throw.

What the services take from the platform is a `Runtime`: the environment variables, and the
library functions they use on strings.
-/

namespace Sentinel.Api

open Program Database

theorem map_eq_ok {ε α β : Type} {f : α → β} {x : Except ε α} {b : β} (h : x.map f = .ok b) :
    ∃ a, x = .ok a ∧ f a = b := by
  cases x with
  | error e => cases h
  | ok a => exact ⟨a, rfl, Except.ok.inj h⟩

/-- A JSON value. -/
inductive Json where
  | null
  | bool (b : Bool)
  | num (q : Rat)
  | str (s : String)
  | arr (items : List Json)
  | obj (fields : List (String × Json))

/-- A property of a value; `none` is `undefined`. Of the entries with one key the last counts. -/
def Json.prop (j : Json) (key : String) : Option Json :=
  match j with
  | .obj fields => (fields.reverse.find? fun f => f.1 = key).map Prod.snd
  | _ => none

/-- Whether a value is not falsy. -/
def Json.truthy : Json → Bool
  | .null => false
  | .bool b => b
  | .num q => q ≠ 0
  | .str s => s ≠ ""
  | .arr _ | .obj _ => true

/-- `length`, of an array or a string. -/
def Json.length : Json → Option Nat
  | .arr items => some items.length
  | .str s => some (s.toList.map fun c => if c.toNat < 65536 then 1 else 2).sum
  | _ => none

/-- The items of a `for … of`, over an array or a string. -/
def Json.items : Json → Option (List Json)
  | .arr items => some items
  | .str s => some (s.toList.map fun c => .str (String.singleton c))
  | _ => none

/-- A field of a request. -/
inductive Field (α : Type) where
  | undefined
  | null
  | value (a : α)
deriving DecidableEq, Repr

/-- `field ?? default`. -/
def Field.getD {α : Type} (field : Field α) (default : α) : α :=
  match field with
  | .value a => a
  | _ => default

/-- `field || default`. -/
def Field.orDefault (field : Field String) (default : String) : String :=
  match field with
  | .value s => if s = "" then default else s
  | _ => default

/-- What is written if the field is not `undefined`; a `null` is refused. -/
def Field.toUpdate {α : Type} : Field α → Option (Option α)
  | .undefined => some none
  | .null => none
  | .value a => some (some a)

/-- A number of JavaScript. -/
inductive Number where
  | nan
  | finite (q : Rat)
  | infinity (negative : Bool)
deriving DecidableEq, Repr

/-- `a < b`, which is false if one is not a number. -/
def Number.lt : Number → Number → Bool
  | .finite p, .finite q => p < q
  | .finite _, .infinity negative => !negative
  | .infinity negative, .finite _ => negative
  | .infinity a, .infinity b => a && !b
  | _, _ => false

/-- `a >= b`, which is false if one is not a number. -/
def Number.ge (a b : Number) : Bool := a ≠ .nan && b ≠ .nan && !a.lt b

/-- `Number.isInteger`. -/
def Number.isInteger : Number → Bool
  | .finite q => q.den = 1
  | _ => false

theorem Number.ge_natCast {n m : Nat} :
    (Number.finite n).ge (.finite m) = decide (m ≤ n) := by
  have hlt : decide ((n : Rat) < m) = decide (n < m) := by rw [decide_eq_decide, Nat.cast_lt]
  simp only [Number.ge, Number.lt, ne_eq, reduceCtorEq, not_false_eq_true, decide_true,
    Bool.true_and, hlt, ← Nat.not_lt, decide_not]

/-- The parts of a URL that the services look at. -/
structure WebUrl where
  protocol : String
  hostname : String
deriving DecidableEq, Repr

structure Runtime where
  /-- `process.env`, and what `ConfigService` reads. -/
  env : String → Option String
  /-- `Number`, of a string. -/
  toNumber : String → Number
  /-- `JSON.stringify`. -/
  stringify : Json → String
  toLowerCase : String → String
  /-- The length of a text as `class-validator` counts it. -/
  textLength : String → Nat
  /-- `new URL`; `none` if it throws. -/
  parseURL : String → Option WebUrl

/-- `Number(configService.get(key, fallback))`. -/
def Runtime.config (rt : Runtime) (key : String) (fallback : Rat) : Number :=
  match rt.env key with
  | some s => rt.toNumber s
  | none => .finite fallback

/-- `\s` of a regular expression, which is also what `trim` trims. -/
def isSpace (c : Char) : Bool :=
  c = ' ' || ('\t' ≤ c && c ≤ '\r') || c = '\u00a0' || c = '\u1680' ||
    ('\u2000' ≤ c && c ≤ '\u200a') || c = '\u2028' || c = '\u2029' || c = '\u202f' ||
    c = '\u205f' || c = '\u3000' || c = '\ufeff'

/-- `!s.trim()`. -/
def isBlank (s : String) : Bool := s.toList.all isSpace

/-- The errors of the services. -/
inductive ApiError where
  | unknownCheckerType (checkType : String)
  | frequencyTooLow (minFrequency : Number)
  | monitorLimit (maxMonitors : Number)
  | notFound (action : String)
  | missingMonitor (message : String)
  | forbidden (message : String)
  /-- An entry of a manifest is refused. -/
  | invalidEntry (manifest noKey : String) (seedKey : Option Json)
  | badRequest (message : String)
  | typeError
  /-- The arguments of a statement are refused before it is sent. -/
  | invalidArgument
  /-- Thrown by a library. -/
  | thrown (message : String)
  | database (e : DbError)

/-- The message of an error, given how numbers and seed keys are written in a text. -/
def ApiError.message (number : Number → String) (key : Json → String) : ApiError → String
  | unknownCheckerType checkType => "Unknown checker type: " ++ checkType
  | frequencyTooLow minFrequency =>
      "Monitor frequency cannot be less than " ++ number minFrequency ++ " seconds"
  | monitorLimit maxMonitors =>
      "Monitor limit reached. Maximum allowed: " ++ number maxMonitors ++ " monitors"
  | notFound action => "Monitor not found or you " ++ action
  | invalidEntry manifest noKey seedKey =>
      "Invalid " ++ manifest ++ " monitor manifest entry: " ++ (seedKey.map key).getD noKey
  | missingMonitor message | forbidden message => message
  | badRequest message => message
  | typeError => "TypeError"
  | thrown message => message
  | invalidArgument => "PrismaClientValidationError"
  | database (.pg code) => code
  | database .notFound => "Record to update not found."
  | database .txClosed => "Transaction already closed"
  | database (.other message) => message

/-! ### Statements and transactions -/

section Calls

variable {α β : Type}

/-- Awaits a statement: its failure is thrown. -/
def query (q : Sql) (k : q.Out → Client (Except ApiError α)) : Client (Except ApiError α) := do
  match ← Client.sql q with
  | .error e => return .error (.database e)
  | .ok out => k out

/-- Awaits a call: what it throws is thrown. -/
def await (p : Client (Except ApiError β)) (k : β → Client (Except ApiError α)) :
    Client (Except ApiError α) := do
  match ← p with
  | .error e => return .error e
  | .ok b => k b

/-- `$transaction`: what is thrown inside rolls it back. -/
def transaction (body : Client (Except ApiError α)) : Client (Except ApiError α) := do
  match ← Client.begin with
  | .error e => return .error (.database e)
  | .ok _ =>
      match ← body with
      | .error e =>
          let _ ← Client.rollback
          return .error e
      | .ok a =>
          match ← Client.commit with
          | .error e => return .error (.database e)
          | .ok _ => return .ok a

variable {P : Op → Prop}

theorem only_query {q : Sql} {k : q.Out → Client (Except ApiError α)} (hq : P (.sql q))
    (hk : ∀ out, (k out).Only P) : (query q k).Only P := by
  refine Prog.only_bind (fun r => ?_) (Prog.only_op hq)
  cases r with
  | error e => trivial
  | ok out => exact hk out

theorem only_await {p : Client (Except ApiError β)} {k : β → Client (Except ApiError α)}
    (hp : p.Only P) (hk : ∀ b, (k b).Only P) : (await p k).Only P := by
  refine Prog.only_bind (fun r => ?_) hp
  cases r with
  | error e => trivial
  | ok b => exact hk b

theorem only_transaction {body : Client (Except ApiError α)} (hbegin : P .begin)
    (hcommit : P .commit) (hrollback : P .rollback) (hbody : body.Only P) :
    (transaction body).Only P := by
  refine Prog.only_bind (fun r => ?_) (Prog.only_op hbegin)
  cases r with
  | error e => trivial
  | ok _ =>
      refine Prog.only_bind (fun r => ?_) hbody
      cases r with
      | error e =>
          refine Prog.only_bind (fun r => ?_) (Prog.only_op hrollback)
          trivial
      | ok a =>
          refine Prog.only_bind (fun r => ?_) (Prog.only_op hcommit)
          cases r <;> trivial

variable {R : (o : Op) → o.Res → Prop} {Q : Except ApiError α → Prop}

theorem yields_query {q : Sql} {k : q.Out → Client (Except ApiError α)} (hq : P (.sql q))
    (herr : ∀ e, Q (.error e)) (hk : ∀ out, R (.sql q) (.ok out) → (k out).Yields P R Q) :
    (query q k).Yields P R Q := by
  refine ⟨hq, fun r hr => ?_⟩
  cases r with
  | error e => exact herr _
  | ok out => exact hk out hr

theorem yields_await {p : Client (Except ApiError β)} {k : β → Client (Except ApiError α)}
    {B : β → Prop} (hp : p.Yields P R fun r => ∀ b, r = .ok b → B b) (herr : ∀ e, Q (.error e))
    (hk : ∀ b, B b → (k b).Yields P R Q) : (await p k).Yields P R Q := by
  refine Prog.yields_bind (hp.mono fun r hr => ?_)
  cases r with
  | error e => exact herr _
  | ok b => exact hk b (hr b rfl)

theorem yields_transaction {body : Client (Except ApiError α)} (hbegin : P .begin)
    (hcommit : P .commit) (hrollback : P .rollback) (hbody : body.Yields P R fun _ => True) :
    (transaction body).Yields P R fun _ => True := by
  refine ⟨hbegin, fun r _ => ?_⟩
  cases r with
  | error e => trivial
  | ok _ =>
      show Prog.Yields P R _ (body >>= _)
      refine Prog.yields_bind (hbody.mono fun r _ => ?_)
      cases r with
      | error e => exact ⟨hrollback, fun r _ => trivial⟩
      | ok a =>
          refine ⟨hcommit, fun r _ => ?_⟩
          cases r <;> trivial

/-- A transaction on its own: the changes of its body are made on the tables, or nothing is. Thrown,
they may have been made if a reply was lost. -/
theorem alone_transaction {A : Choice → Prop} {body : Client (Except ApiError α)} {st : Store}
    {tr : List Event} {R : Db → α → Prop}
    (hbody : ∀ tr, Alone A (fun x s r => x.1.db = st.db ∧ ∀ a ws, r = .ok a → s = .open_ ws →
      ∀ db, replay st.db ws = .ok db → R db a) body st tr (.open_ [])) :
    Alone A (fun x s r => s = .idle ∧
      (∀ e, r = .error e → x.1.db = st.db ∨ Loses A ∧ ∃ a, R x.1.db a) ∧
        ∀ a, r = .ok a → R x.1.db a) (transaction body) st tr .idle := by
  refine alone_begin (fun e => ⟨rfl, fun _ _ => .inl rfl, fun a ha => (nomatch ha)⟩) ?_
  refine Prog.post_bind.mpr (Prog.Post.mono ?_ (hbody _))
  rintro ⟨st', tr'⟩ s r ⟨hdb, hok⟩
  cases r with
  | error e =>
      exact alone_rollback fun _ => ⟨rfl, fun _ _ => .inl hdb, fun a ha => (nomatch ha)⟩
  | ok a =>
      cases s with
      | open_ ws =>
          have hmade : ∀ db, replay st'.db ws = .ok db → R db a :=
            fun db hreplay => hok a ws rfl rfl db (hdb ▸ hreplay)
          refine alone_commit (fun e => ⟨rfl, fun _ _ => .inl hdb, fun a ha => (nomatch ha)⟩)
            (fun db hreplay => ?_) fun hloses e db hreplay => ?_
          · refine ⟨rfl, fun e he => (nomatch he), fun b hb => ?_⟩
            cases hb
            exact hmade db hreplay
          · exact ⟨rfl, fun _ _ => .inr ⟨hloses, a, hmade db hreplay⟩,
              fun a ha => (nomatch ha)⟩
      | idle | aborted =>
          -- the body has ended the transaction, so there is nothing to commit
          exact fun choice _ => ⟨rfl, fun _ _ => .inl hdb, fun a ha => (nomatch ha)⟩

end Calls

end Sentinel.Api
