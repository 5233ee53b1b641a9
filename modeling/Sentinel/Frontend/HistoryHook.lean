import Sentinel.Frontend.History
import Sentinel.Frontend.RetryAfter

/-!
# Frontend — HistoryHook

The history of the detail page (`useMonitorHistory` in
`src/features/monitors/history/useMonitorHistory.ts`): how many rows it asks for, which rows it
shows, and the button that asks for more.

* `Hook.render`: one render, from what the query of its key shows; `Render.loadMoreHistory`: the
  button, as that render made it.
* `View.step`: renders of any monitor, their effects, clicks, requests and answers, in any order.
* `Faithful`: what is relied on of the library of queries.
* `View.Inv`: every request follows full answers to the smaller ones, and what is shown is an
  answer.
-/

namespace Sentinel.Frontend

open Transition

def DEFAULT_HISTORY_LIMIT : Nat := 50

def HISTORY_LIMIT_STEP : Nat := 50

def MAX_MONITOR_HISTORY_LIMIT : Nat := 200

def HISTORY_LIMITS : List Nat := [50, 100, 150, 200]

/-- What the rows of a monitor are asked for by: the key of their query. -/
structure Scope where
  monitorId : Int
  limit : Nat
deriving DecidableEq

inductive RangeError where
  | monitorId
  | limit
  | historyLimit
deriving DecidableEq

def RangeError.message : RangeError → String
  | .monitorId => "Monitor id must be a positive integer"
  | .limit => s!"Limit must be an integer between 1 and {MAX_MONITOR_HISTORY_LIMIT}"
  | .historyLimit => "History limit must be 50, 100, 150, or 200"

def assertMonitorLimit (monitorId : Int) (limit : Nat) : Except RangeError Unit :=
  if monitorId ≤ 0 then .error .monitorId
  else if limit < 1 ∨ MAX_MONITOR_HISTORY_LIMIT < limit then .error .limit
  else .ok ()

/-- `fetchMonitorHistory`, up to the request that it sends. -/
def fetchMonitorHistory (monitorId : Int) (limit : Nat) : Except RangeError Scope := do
  assertMonitorLimit monitorId limit
  if limit ∈ HISTORY_LIMITS then .ok ⟨monitorId, limit⟩ else .error .historyLimit

abbrev Rows := List MonitorHistoryRow

/-- What `useQuery` returns for the key of a render. -/
structure HistoryQuery where
  data : Option Rows
  error : Option Failure
  errorUpdatedAt : Int
  dataUpdatedAt : Int
  isFetching : Bool
  isSuccess : Bool
  isPlaceholderData : Bool
deriving DecidableEq

/-- `previousSuccessfulHistory`. -/
structure SuccessfulHistory where
  monitorId : Int
  limit : Nat
  rows : Option Rows
deriving DecidableEq

def SuccessfulHistory.scope (h : SuccessfulHistory) : Scope := ⟨h.monitorId, h.limit⟩

/-- The state and the references of the hook. -/
structure Hook where
  historyLimitState : Scope
  previousSuccessfulHistory : SuccessfulHistory
  expansionInFlight : Option Scope
deriving DecidableEq

/-- A render: what its closures and its bundle are made of. -/
structure Render where
  monitorId : Int
  historyLimit : Nat
  historyQuery : HistoryQuery
  successfulScope : Option SuccessfulHistory
  /-- `history` of the bundle. -/
  visibleHistory : Option Rows
  historyExpansionPending : Bool
deriving DecidableEq

namespace Hook

def mount (monitorId : Int) : Hook where
  historyLimitState := ⟨monitorId, DEFAULT_HISTORY_LIMIT⟩
  previousSuccessfulHistory := ⟨monitorId, DEFAULT_HISTORY_LIMIT, none⟩
  expansionInFlight := none

def historyLimit (h : Hook) (monitorId : Int) : Nat :=
  if h.historyLimitState.monitorId = monitorId then h.historyLimitState.limit
  else DEFAULT_HISTORY_LIMIT

/-- Another monitor than the last one: the references are reset. -/
def enter (h : Hook) (monitorId : Int) : Hook :=
  if h.previousSuccessfulHistory.monitorId ≠ monitorId then
    { h with
      previousSuccessfulHistory := ⟨monitorId, DEFAULT_HISTORY_LIMIT, none⟩
      expansionInFlight := none }
  else h

/-- `placeholderData`: `previous` is the key and the data of the query observed before. -/
def placeholderData (h : Hook) (monitorId : Int) (previous : Option (Scope × Option Rows)) :
    Option Rows :=
  match previous with
  | some (key, data) =>
      if key.monitorId = monitorId then data <|> h.previousSuccessfulHistory.rows else none
  | none => none

/-- Rows that answer the query of the key are kept. -/
def keep (h : Hook) (monitorId : Int) (query : HistoryQuery) : Hook :=
  if query.isSuccess ∧ query.data.isSome ∧ ¬ query.isPlaceholderData then
    { h with previousSuccessfulHistory := ⟨monitorId, h.historyLimit monitorId, query.data⟩ }
  else h

/-- The references after a render. -/
def rendered (h : Hook) (monitorId : Int) (query : HistoryQuery) : Hook :=
  (h.enter monitorId).keep monitorId query

def render (h : Hook) (monitorId : Int) (query : HistoryQuery) : Render :=
  let after := h.rendered monitorId query
  let historyLimit := h.historyLimit monitorId
  let previous := after.previousSuccessfulHistory
  { monitorId := monitorId
    historyLimit := historyLimit
    historyQuery := query
    successfulScope :=
      if previous.monitorId = monitorId ∧ previous.limit = historyLimit then some previous else none
    visibleHistory := query.data <|> previous.rows
    historyExpansionPending :=
      after.expansionInFlight = some ⟨monitorId, historyLimit⟩ && query.isFetching }

end Hook

namespace Render

def scope (r : Render) : Scope := ⟨r.monitorId, r.historyLimit⟩

/-- `successfulScope && successfulScope.rows && successfulScope.rows.length`. -/
def loaded (r : Render) : Option Nat := (r.successfulScope.bind (·.rows)).map (·.length)

def historyExhausted (r : Render) : Bool := r.loaded.any (· < r.historyLimit)

def historyAtLimit (r : Render) : Bool :=
  r.historyLimit = MAX_MONITOR_HISTORY_LIMIT && r.loaded.any (r.historyLimit ≤ ·)

def isInRetryCooldown (p : Platform) (r : Render) (now : Int) : Bool :=
  Frontend.isInRetryCooldown p r.historyQuery.error r.historyQuery.errorUpdatedAt now

/-- `canLoadMore`, for a render at `now`. -/
def canLoadMore (p : Platform) (r : Render) (now : Int) : Bool :=
  r.loaded.any (r.historyLimit ≤ ·) && r.historyLimit < MAX_MONITOR_HISTORY_LIMIT &&
    r.historyQuery.error = none && !isTerminalFailure r.historyQuery.error &&
    !r.isInRetryCooldown p now

/-- `expansionInFlight.current?.monitorId === monitorId`. -/
def expanding (r : Render) (h : Hook) : Bool :=
  h.expansionInFlight.any (·.monitorId = r.monitorId)

/-- The test of `loadMoreHistory`, for a click at `now`. -/
def refuses (p : Platform) (r : Render) (h : Hook) (now : Int) : Bool :=
  !r.loaded.any (r.historyLimit ≤ ·) || MAX_MONITOR_HISTORY_LIMIT ≤ r.historyLimit ||
    r.historyQuery.isFetching || r.historyQuery.error ≠ none ||
    isTerminalFailure r.historyQuery.error || r.isInRetryCooldown p now || r.expanding h

def loadMoreHistory (p : Platform) (r : Render) (h : Hook) (now : Int) : Hook :=
  if r.refuses p h now then h
  else
    let nextLimit := min MAX_MONITOR_HISTORY_LIMIT (r.historyLimit + HISTORY_LIMIT_STEP)
    { h with
      expansionInFlight := some ⟨r.monitorId, nextLimit⟩
      historyLimitState := ⟨r.monitorId, nextLimit⟩ }

/-- The effect of the render: an expansion whose request has ended is over. -/
def settleExpansion (r : Render) (h : Hook) : Hook :=
  if r.expanding h && !r.historyQuery.isFetching then { h with expansionInFlight := none } else h

/-- The dependencies of that effect. -/
def dependencies (r : Render) : Nat × Int × Int × Bool × Int :=
  (r.historyLimit, r.historyQuery.dataUpdatedAt, r.historyQuery.errorUpdatedAt,
    r.historyQuery.isFetching, r.monitorId)

end Render

/-- The page of the hook, with what was asked of the API and what it answered. -/
structure View where
  hook : Hook
  /-- The last render. -/
  shown : Option Render
  /-- Its effect has not run yet. -/
  effectDue : Bool
  asked : List Scope
  rangeErrors : List RangeError
  answered : List (Scope × Rows)
deriving DecidableEq

namespace View

inductive Action where
  | render (monitorId : Int) (query : HistoryQuery)
  | effect
  /-- The button is clicked. -/
  | loadMore (now : Int)
  /-- The query of the last render is fetched. -/
  | ask
  /-- A request is answered. -/
  | answer (scope : Scope) (rows : Rows)

/-- The page is opened. The library may have kept answers to earlier requests. -/
def mount (monitorId : Int) (cached : List (Scope × Rows)) : View :=
  ⟨Hook.mount monitorId, none, false, [], [], cached⟩

/-- The effect runs, if it is due. -/
def flush (s : View) : View :=
  match s.shown with
  | some r =>
      if s.effectDue then { s with hook := r.settleExpansion s.hook, effectDue := false } else s
  | none => s

/-- A render runs the effect of the last one first; its own is due if a dependency changed. -/
def rerender (s : View) (monitorId : Int) (query : HistoryQuery) : View :=
  let r := s.flush.hook.render monitorId query
  { s.flush with
    hook := s.flush.hook.rendered monitorId query
    shown := some r
    effectDue := s.shown.map Render.dependencies ≠ some r.dependencies }

def ask (s : View) (r : Render) : View :=
  match fetchMonitorHistory r.monitorId r.historyLimit with
  | .ok scope => { s with asked := s.asked ++ [scope] }
  | .error e => { s with rangeErrors := s.rangeErrors ++ [e] }

def step (p : Platform) (s : View) : Action → Option View
  | .render monitorId query => some (s.rerender monitorId query)
  | .effect => some s.flush
  | .loadMore now => s.shown.map fun r => { s with hook := r.loadMoreHistory p s.hook now }
  -- `enabled`
  | .ask => s.shown.bind fun r => if 0 < r.monitorId then some (s.ask r) else none
  | .answer scope rows =>
      if scope ∈ s.asked then some { s with answered := s.answered ++ [(scope, rows)] } else none

/-- What is relied on of the library of queries: data that is not a placeholder answered a request
of the key, and a placeholder is what `placeholderData` made of the query observed before. -/
def Faithful (s : View) : Action → Prop
  | .render monitorId query =>
      (¬ query.isPlaceholderData → ∀ rows ∈ query.data,
        (⟨monitorId, s.hook.historyLimit monitorId⟩, rows) ∈ s.answered) ∧
      (query.isPlaceholderData → ∃ previous : Option (Scope × Option Rows),
        query.data = (s.hook.enter monitorId).placeholderData monitorId previous ∧
        ∀ key rows, previous = some (key, some rows) → (key, rows) ∈ s.answered)
  | _ => True

/-! ### What is asked and shown -/

/-- The smaller requests were answered in full. -/
def Climbed (s : View) (scope : Scope) : Prop :=
  ∀ limit ∈ HISTORY_LIMITS, limit < scope.limit →
    ∃ rows, (⟨scope.monitorId, limit⟩, rows) ∈ s.answered ∧ limit ≤ rows.length

/-- A limit of the API, after full answers to the smaller ones. -/
structure Allowed (s : View) (scope : Scope) : Prop where
  mem : scope.limit ∈ HISTORY_LIMITS
  climbed : s.Climbed scope

/-- The rows that are kept answered a request of their key. -/
def Kept (s : View) (h : SuccessfulHistory) : Prop :=
  ∀ rows ∈ h.rows, (h.scope, rows) ∈ s.answered

structure Sound (s : View) (r : Render) : Prop where
  allowed : s.Allowed r.scope
  kept : ∀ h ∈ r.successfulScope, h.scope = r.scope ∧ s.Kept h
  visible : ∀ rows ∈ r.visibleHistory, ∃ limit, (⟨r.monitorId, limit⟩, rows) ∈ s.answered

structure Inv (s : View) : Prop where
  allowed : s.Allowed s.hook.historyLimitState
  kept : s.Kept s.hook.previousSuccessfulHistory
  sound : ∀ r ∈ s.shown, s.Sound r
  asked : ∀ scope ∈ s.asked, 0 < scope.monitorId ∧ s.Allowed scope
  rangeErrors : s.rangeErrors = []

theorem fetchMonitorHistory_eq {scope : Scope} (hid : 0 < scope.monitorId)
    (hlimit : scope.limit ∈ HISTORY_LIMITS) :
    fetchMonitorHistory scope.monitorId scope.limit = .ok scope := by
  have hrange : ∀ limit ∈ HISTORY_LIMITS, ¬ (limit < 1 ∨ MAX_MONITOR_HISTORY_LIMIT < limit) := by
    decide
  rw [fetchMonitorHistory, assertMonitorLimit, if_neg (not_le.mpr hid), if_neg (hrange _ hlimit)]
  exact if_pos hlimit

/-- The limits below the highest one are those that a step leads up from. -/
theorem limit_step {limit : Nat} (h : limit ∈ HISTORY_LIMITS)
    (hlt : limit < MAX_MONITOR_HISTORY_LIMIT) :
    min MAX_MONITOR_HISTORY_LIMIT (limit + HISTORY_LIMIT_STEP) = limit + HISTORY_LIMIT_STEP ∧
      limit + HISTORY_LIMIT_STEP ∈ HISTORY_LIMITS := by
  have hall : ∀ limit ∈ HISTORY_LIMITS, limit < MAX_MONITOR_HISTORY_LIMIT →
      min MAX_MONITOR_HISTORY_LIMIT (limit + HISTORY_LIMIT_STEP) = limit + HISTORY_LIMIT_STEP ∧
        limit + HISTORY_LIMIT_STEP ∈ HISTORY_LIMITS := by decide
  exact hall limit h hlt

variable {p : Platform} {s s' : View} {a : Action} {r : Render}

theorem allowed_default (s : View) (monitorId : Int) :
    s.Allowed ⟨monitorId, DEFAULT_HISTORY_LIMIT⟩ := by
  have hmem : DEFAULT_HISTORY_LIMIT ∈ HISTORY_LIMITS := by decide
  refine ⟨hmem, fun limit hlimit hlt => ?_⟩
  have hleast : ∀ limit ∈ HISTORY_LIMITS, ¬ limit < DEFAULT_HISTORY_LIMIT := by decide
  exact absurd hlt (hleast limit hlimit)

theorem Allowed.mono {scope : Scope} (h : s.Allowed scope) (hsub : s.answered ⊆ s'.answered) :
    s'.Allowed scope := by
  refine ⟨h.mem, fun limit hlimit hlt => ?_⟩
  obtain ⟨rows, hmem, hlen⟩ := h.climbed limit hlimit hlt
  exact ⟨rows, hsub hmem, hlen⟩

theorem Kept.mono {h : SuccessfulHistory} (hkept : s.Kept h) (hsub : s.answered ⊆ s'.answered) :
    s'.Kept h := fun rows hrows => hsub (hkept rows hrows)

theorem Sound.mono (h : s.Sound r) (hsub : s.answered ⊆ s'.answered) : s'.Sound r where
  allowed := h.allowed.mono hsub
  kept := fun previous hprevious =>
    ⟨(h.kept previous hprevious).1, (h.kept previous hprevious).2.mono hsub⟩
  visible := fun rows hrows => by
    obtain ⟨limit, hmem⟩ := h.visible rows hrows
    exact ⟨limit, hsub hmem⟩

/-- The next step's rows after those of a full answer. -/
theorem Sound.next (h : s.Sound r) {rows : Rows} {previous : SuccessfulHistory}
    (hprevious : previous ∈ r.successfulScope) (hrows : rows ∈ previous.rows)
    (hfull : r.historyLimit ≤ rows.length) (hlt : r.historyLimit < MAX_MONITOR_HISTORY_LIMIT) :
    s.Allowed ⟨r.monitorId, r.historyLimit + HISTORY_LIMIT_STEP⟩ := by
  refine ⟨(limit_step h.allowed.mem hlt).2, fun limit hlimit hbelow => ?_⟩
  have hsteps : ∀ limit ∈ HISTORY_LIMITS, ∀ limit' ∈ HISTORY_LIMITS,
      limit' < limit + HISTORY_LIMIT_STEP → limit' = limit ∨ limit' < limit := by decide
  rcases hsteps r.historyLimit h.allowed.mem limit hlimit hbelow with rfl | hless
  · obtain ⟨hscope, hkept⟩ := h.kept previous hprevious
    have hanswered := hkept rows hrows
    rw [hscope] at hanswered
    exact ⟨rows, hanswered, hfull⟩
  · exact h.allowed.climbed limit hlimit hless

/-! ### The parts of a render -/

theorem historyLimit_enter (h : Hook) (m m' : Int) :
    (h.enter m).historyLimit m' = h.historyLimit m' := by
  rw [Hook.enter]
  split <;> rfl

theorem monitorId_enter (h : Hook) (m : Int) :
    (h.enter m).previousSuccessfulHistory.monitorId = m := by
  rw [Hook.enter]
  split
  · rfl
  · rename_i hsame
    exact not_not.mp hsame

theorem historyLimitState_rendered (h : Hook) (m : Int) (query : HistoryQuery) :
    (h.rendered m query).historyLimitState = h.historyLimitState := by
  rw [Hook.rendered, Hook.keep, Hook.enter]
  split <;> split <;> rfl

theorem monitorId_rendered (h : Hook) (m : Int) (query : HistoryQuery) :
    (h.rendered m query).previousSuccessfulHistory.monitorId = m := by
  rw [Hook.rendered, Hook.keep]
  split
  · rfl
  · exact monitorId_enter h m

theorem Kept.enter {h : Hook} (hkept : s.Kept h.previousSuccessfulHistory) (m : Int) :
    s.Kept (h.enter m).previousSuccessfulHistory := by
  rw [Hook.enter]
  split
  · exact fun rows hrows => absurd hrows (Option.not_mem_none rows)
  · exact hkept

theorem Kept.rendered {m : Int} {query : HistoryQuery}
    (hkept : s.Kept s.hook.previousSuccessfulHistory) (hfaithful : s.Faithful (.render m query)) :
    s.Kept (s.hook.rendered m query).previousSuccessfulHistory := by
  rw [Hook.rendered, Hook.keep]
  split
  · rename_i hown
    intro rows hrows
    rw [historyLimit_enter]
    exact hfaithful.1 hown.2.2 rows hrows
  · exact hkept.enter m

/-- What a faithful placeholder shows was answered for the monitor. -/
theorem placeholder_answered {m : Int} {previous : Option (Scope × Option Rows)} {rows : Rows}
    (hkept : s.Kept s.hook.previousSuccessfulHistory)
    (hprevious : ∀ key rows, previous = some (key, some rows) → (key, rows) ∈ s.answered)
    (hrows : (s.hook.enter m).placeholderData m previous = some rows) :
    ∃ limit, (⟨m, limit⟩, rows) ∈ s.answered := by
  cases previous with
  | none => cases hrows
  | some previous =>
      obtain ⟨key, data⟩ := previous
      simp only [Hook.placeholderData, Option.ite_none_right_eq_some] at hrows
      obtain ⟨rfl, hrows⟩ := hrows
      cases data with
      | some data =>
          obtain rfl := Option.some.inj hrows
          exact ⟨key.limit, hprevious key data rfl⟩
      | none =>
          have hanswered := hkept.enter key.monitorId rows hrows
          rw [SuccessfulHistory.scope, monitorId_enter] at hanswered
          exact ⟨_, hanswered⟩

/-! ### Steps -/

theorem allowed_historyLimit (h : s.Allowed s.hook.historyLimitState) (m : Int) :
    s.Allowed ⟨m, s.hook.historyLimit m⟩ := by
  rw [Hook.historyLimit]
  split
  · rename_i hsame
    rwa [← hsame]
  · exact allowed_default s m

theorem sound_render {m : Int} {query : HistoryQuery}
    (hallowed : s.Allowed s.hook.historyLimitState)
    (hkept : s.Kept s.hook.previousSuccessfulHistory) (hfaithful : s.Faithful (.render m query)) :
    s.Sound (s.hook.render m query) where
  allowed := allowed_historyLimit hallowed m
  kept := by
    intro previous hprevious
    simp only [Hook.render, Option.mem_def, Option.ite_none_right_eq_some, Option.some.injEq]
      at hprevious
    obtain ⟨⟨hm, hlimit⟩, rfl⟩ := hprevious
    exact ⟨by rw [SuccessfulHistory.scope, hm, hlimit]; rfl, hkept.rendered hfaithful⟩
  visible := by
    intro rows hrows
    cases hdata : query.data with
    | some data =>
        obtain rfl : data = rows := by simpa [Hook.render, hdata] using hrows
        by_cases hplaceholder : query.isPlaceholderData = true
        · obtain ⟨previous, heq, hprevious⟩ := hfaithful.2 hplaceholder
          exact placeholder_answered hkept hprevious (heq ▸ hdata)
        · exact ⟨_, hfaithful.1 hplaceholder data hdata⟩
    | none =>
        have hrows' : rows ∈ (s.hook.rendered m query).previousSuccessfulHistory.rows := by
          simpa [Hook.render, hdata] using hrows
        have hanswered := hkept.rendered hfaithful rows hrows'
        rw [SuccessfulHistory.scope, monitorId_rendered] at hanswered
        exact ⟨_, hanswered⟩

theorem settleExpansion_historyLimitState (r : Render) (h : Hook) :
    (r.settleExpansion h).historyLimitState = h.historyLimitState := by
  rw [Render.settleExpansion]
  split <;> rfl

theorem settleExpansion_previous (r : Render) (h : Hook) :
    (r.settleExpansion h).previousSuccessfulHistory = h.previousSuccessfulHistory := by
  rw [Render.settleExpansion]
  split <;> rfl

/-- The effect changes the lock of the expansion only. -/
theorem flush_same (s : View) : s.flush.hook.historyLimitState = s.hook.historyLimitState ∧
    s.flush.hook.previousSuccessfulHistory = s.hook.previousSuccessfulHistory ∧
    s.flush.shown = s.shown ∧ s.flush.asked = s.asked ∧ s.flush.rangeErrors = s.rangeErrors ∧
    s.flush.answered = s.answered := by
  rw [flush]
  split
  · split
    · exact ⟨settleExpansion_historyLimitState _ _, settleExpansion_previous _ _, rfl, rfl, rfl,
        rfl⟩
    · exact ⟨rfl, rfl, rfl, rfl, rfl, rfl⟩
  · exact ⟨rfl, rfl, rfl, rfl, rfl, rfl⟩

/-- The invariant looks at everything but the lock, and grows with the answers. -/
theorem Inv.of_same (h : s.Inv) (hlimit : s'.hook.historyLimitState = s.hook.historyLimitState)
    (hprevious : s'.hook.previousSuccessfulHistory = s.hook.previousSuccessfulHistory)
    (hshown : s'.shown = s.shown) (hasked : s'.asked = s.asked)
    (herrors : s'.rangeErrors = s.rangeErrors) (hsub : s.answered ⊆ s'.answered) : s'.Inv where
  allowed := hlimit ▸ h.allowed.mono hsub
  kept := hprevious ▸ h.kept.mono hsub
  sound := fun r hr => (h.sound r (hshown ▸ hr)).mono hsub
  asked := fun scope hscope => by
    rw [hasked] at hscope
    exact ⟨(h.asked scope hscope).1, (h.asked scope hscope).2.mono hsub⟩
  rangeErrors := herrors.trans h.rangeErrors

theorem Inv.flush (h : s.Inv) : s.flush.Inv := by
  obtain ⟨hlimit, hprevious, hshown, hasked, herrors, hanswered⟩ := flush_same s
  exact h.of_same hlimit hprevious hshown hasked herrors (hanswered ▸ List.Subset.refl _)

theorem faithful_flush {m : Int} {query : HistoryQuery} (h : s.Faithful (.render m query)) :
    s.flush.Faithful (.render m query) := by
  obtain ⟨hlimit, hprevious, -, -, -, hanswered⟩ := flush_same s
  have henter : (s.flush.hook.enter m).previousSuccessfulHistory =
      (s.hook.enter m).previousSuccessfulHistory := by
    rw [Hook.enter, Hook.enter, hprevious]
    split
    · rfl
    · exact hprevious
  refine ⟨fun hown rows hrows => ?_, fun hplaceholder => ?_⟩
  · rw [hanswered, Hook.historyLimit, hlimit]
    exact h.1 hown rows hrows
  · obtain ⟨previous, heq, hmem⟩ := h.2 hplaceholder
    refine ⟨previous, heq.trans ?_, fun key rows hrows => hanswered ▸ hmem key rows hrows⟩
    simp only [Hook.placeholderData, henter]

theorem Inv.rerender (h : s.Inv) {m : Int} {query : HistoryQuery}
    (hfaithful : s.Faithful (.render m query)) : (s.rerender m query).Inv where
  allowed := by
    have hallowed := h.flush.allowed
    rw [← historyLimitState_rendered s.flush.hook m query] at hallowed
    exact hallowed.mono (List.Subset.refl _)
  kept := (h.flush.kept.rendered (faithful_flush hfaithful)).mono (List.Subset.refl _)
  sound := by
    intro r hr
    obtain rfl := Option.some.inj hr
    exact (sound_render h.flush.allowed h.flush.kept (faithful_flush hfaithful)).mono
      (List.Subset.refl _)
  asked := fun scope hscope =>
    ⟨(h.flush.asked scope hscope).1, (h.flush.asked scope hscope).2.mono (List.Subset.refl _)⟩
  rangeErrors := h.flush.rangeErrors

theorem any_loaded {P : Nat → Bool} : r.loaded.any P = true ↔
    ∃ previous ∈ r.successfulScope, ∃ rows ∈ previous.rows, P rows.length = true := by
  rw [Render.loaded]
  cases r.successfulScope with
  | none => simp
  | some previous => cases hrows : previous.rows <;> simp [hrows]

/-- A click is refused unless the render offers more, nothing is being fetched and no expansion is
under way. -/
theorem refuses_eq_false {h : Hook} {now : Int} : r.refuses p h now = false ↔
    r.canLoadMore p now = true ∧ r.historyQuery.isFetching = false ∧ r.expanding h = false := by
  simp only [Render.refuses, Render.canLoadMore, Bool.or_eq_false_iff, Bool.and_eq_true,
    Bool.not_eq_false', Bool.not_eq_true', decide_eq_false_iff_not, decide_eq_true_eq, not_le,
    ne_eq, not_not]
  tauto

/-- A click that is not refused asks for the next step, after a full answer. -/
theorem Sound.loadMoreHistory (h : s.Sound r) {now : Int}
    (haccepted : r.refuses p s.hook now = false) :
    (r.loadMoreHistory p s.hook now).historyLimitState =
        ⟨r.monitorId, r.historyLimit + HISTORY_LIMIT_STEP⟩ ∧
      s.Allowed ⟨r.monitorId, r.historyLimit + HISTORY_LIMIT_STEP⟩ := by
  have hmore := (refuses_eq_false.mp haccepted).1
  simp only [Render.canLoadMore, Bool.and_eq_true, decide_eq_true_eq] at hmore
  obtain ⟨⟨⟨⟨hfull, hlt⟩, -⟩, -⟩, -⟩ := hmore
  obtain ⟨previous, hprevious, rows, hrows, hlen⟩ := any_loaded.mp hfull
  refine ⟨?_, h.next hprevious hrows (of_decide_eq_true hlen) hlt⟩
  have hstep := (limit_step h.allowed.mem hlt).1
  simp only [Render.scope] at hstep
  rw [Render.loadMoreHistory, haccepted, if_neg Bool.false_ne_true]
  exact congrArg (Scope.mk r.monitorId) hstep

theorem loadMoreHistory_previous (r : Render) (h : Hook) (now : Int) :
    (r.loadMoreHistory p h now).previousSuccessfulHistory = h.previousSuccessfulHistory := by
  rw [Render.loadMoreHistory]
  split <;> rfl

theorem Inv.loadMore (h : s.Inv) (hr : r ∈ s.shown) (now : Int) :
    Inv { s with hook := r.loadMoreHistory p s.hook now } := by
  have hsub : s.answered ⊆ s.answered := List.Subset.refl _
  refine ⟨?_, ?_, fun r hr => (h.sound r hr).mono hsub, fun scope hscope =>
    ⟨(h.asked scope hscope).1, (h.asked scope hscope).2.mono hsub⟩, h.rangeErrors⟩
  · cases hrefuses : r.refuses p s.hook now with
    | true =>
        rw [Render.loadMoreHistory, if_pos hrefuses]
        exact h.allowed.mono hsub
    | false =>
        obtain ⟨heq, hallowed⟩ := (h.sound r hr).loadMoreHistory hrefuses
        rw [heq]
        exact hallowed.mono hsub
  · rw [loadMoreHistory_previous]
    exact h.kept.mono hsub

theorem Inv.ask (h : s.Inv) (hr : r ∈ s.shown) (hid : 0 < r.monitorId) : (s.ask r).Inv := by
  have hallowed := (h.sound r hr).allowed
  have hsent : fetchMonitorHistory r.scope.monitorId r.scope.limit = .ok r.scope :=
    fetchMonitorHistory_eq hid hallowed.mem
  have hsub : s.answered ⊆ s.answered := List.Subset.refl _
  simp only [Render.scope] at hsent
  rw [View.ask, hsent]
  refine ⟨h.allowed.mono hsub, h.kept.mono hsub, fun r hr => (h.sound r hr).mono hsub, ?_,
    h.rangeErrors⟩
  intro scope hscope
  rcases List.mem_append.mp hscope with hscope | hscope
  · exact ⟨(h.asked scope hscope).1, (h.asked scope hscope).2.mono hsub⟩
  · obtain rfl := List.mem_singleton.mp hscope
    exact ⟨hid, hallowed.mono hsub⟩

theorem Inv.step (h : s.Inv) (hfaithful : s.Faithful a) (hs : s.step p a = some s') : s'.Inv := by
  cases a with
  | render m query =>
      obtain rfl := Option.some.inj hs
      exact h.rerender hfaithful
  | effect =>
      obtain rfl := Option.some.inj hs
      exact h.flush
  | loadMore now =>
      obtain ⟨r, hr, rfl⟩ := Option.map_eq_some_iff.mp hs
      exact h.loadMore hr now
  | ask =>
      obtain ⟨r, hr, hs⟩ := Option.bind_eq_some_iff.mp hs
      simp only [Option.ite_none_right_eq_some] at hs
      obtain ⟨hid, heq⟩ := hs
      obtain rfl := Option.some.inj heq
      exact h.ask hr hid
  | answer scope rows =>
      simp only [View.step, Option.ite_none_right_eq_some] at hs
      obtain ⟨-, heq⟩ := hs
      obtain rfl := Option.some.inj heq
      exact h.of_same rfl rfl rfl rfl rfl (List.subset_append_left _ _)

theorem inv_mount (m : Int) (cached : List (Scope × Rows)) : (mount m cached).Inv where
  allowed := allowed_default _ m
  kept := fun rows hrows => absurd hrows (Option.not_mem_none rows)
  sound := fun r hr => absurd hr (Option.not_mem_none r)
  asked := fun _ hscope => absurd hscope List.not_mem_nil
  rangeErrors := rfl

/-! ### The lock of the expansion -/

/-- The button of the render was clicked: the next render asks for the next step. -/
def Clicked (s : View) (r : Render) : Prop :=
  s.hook.historyLimitState = ⟨r.monitorId, r.historyLimit + HISTORY_LIMIT_STEP⟩

/-- The lock is held only until the request of the next step has ended. -/
structure Locked (s : View) : Prop where
  unmounted : s.shown = none → s.hook.expansionInFlight = none
  monitor : ∀ r ∈ s.shown, s.hook.previousSuccessfulHistory.monitorId = r.monitorId
  lock : ∀ r ∈ s.shown, r.expanding s.hook = true →
    s.effectDue = true ∨ r.historyQuery.isFetching = true ∨ s.Clicked r

theorem Clicked.historyLimit (h : s.Clicked r) :
    s.hook.historyLimit r.monitorId = r.historyLimit + HISTORY_LIMIT_STEP := by
  rw [Hook.historyLimit, h, if_pos rfl]

theorem not_clicked_self {m : Int} {query : HistoryQuery} :
    ¬ (s.rerender m query).Clicked (s.flush.hook.render m query) := by
  intro h
  have hlimit := h.historyLimit
  have hsame : (s.rerender m query).hook.historyLimit m = s.flush.hook.historyLimit m := by
    rw [Hook.historyLimit, rerender, historyLimitState_rendered]
    rfl
  rw [show (s.flush.hook.render m query).monitorId = m from rfl, hsame] at hlimit
  have hpos : 0 < HISTORY_LIMIT_STEP := by decide
  exact absurd hlimit (Nat.lt_add_of_pos_right hpos).ne

theorem isFetching_of_settled {h : Hook} (hlock : r.expanding (r.settleExpansion h) = true) :
    r.historyQuery.isFetching = true := by
  rw [Render.settleExpansion] at hlock
  split at hlock
  · cases hlock
  · rename_i hkept
    rw [hlock, Bool.true_and, Bool.not_eq_true', Bool.not_eq_false] at hkept
    exact hkept

/-- After the effect the lock is held by a request or by a click. -/
theorem Locked.flush (h : s.Locked) : s.flush.Locked ∧
    ∀ r ∈ s.shown, s.flush.effectDue = false := by
  obtain ⟨hlimit, hprevious, hshown, -⟩ := flush_same s
  cases hr : s.shown with
  | none =>
      have hsame : s.flush = s := by rw [View.flush, hr]
      exact ⟨by rwa [hsame], fun r hr => absurd hr (Option.not_mem_none r)⟩
  | some r =>
      cases hdue : s.effectDue with
      | false =>
          have hsame : s.flush = s := by simp [View.flush, hr, hdue]
          exact ⟨by rwa [hsame], fun _ _ => by rw [hsame, hdue]⟩
      | true =>
          have hflush : s.flush =
              { s with hook := r.settleExpansion s.hook, effectDue := false } := by
            simp [View.flush, hr, hdue]
          refine ⟨⟨?_, ?_, ?_⟩, fun _ _ => by rw [hflush]⟩
          · intro hnone
            rw [hshown, hr] at hnone
            cases hnone
          · rw [hshown, hprevious]
            exact h.monitor
          · intro r' hr' hlock
            rw [hshown, hr] at hr'
            obtain rfl := Option.some.inj hr'
            rw [hflush] at hlock
            exact .inr (.inl (isFetching_of_settled hlock))

theorem expansionInFlight_rendered (h : Hook) (m : Int) (query : HistoryQuery) :
    (h.rendered m query).expansionInFlight =
      if h.previousSuccessfulHistory.monitorId ≠ m then none else h.expansionInFlight := by
  rw [Hook.rendered, Hook.keep, Hook.enter]
  split <;> split <;> rfl

theorem Locked.rerender (h : s.Locked) (m : Int) (query : HistoryQuery) :
    (s.rerender m query).Locked := by
  obtain ⟨hlocked, hdue⟩ := h.flush
  have hshown : s.flush.shown = s.shown := (flush_same s).2.2.1
  refine ⟨fun hnone => absurd hnone (Option.some_ne_none _), fun r hr => ?_, fun r hr hlock => ?_⟩
  · obtain rfl := Option.some.inj hr
    exact monitorId_rendered _ _ _
  · obtain rfl := Option.some.inj hr
    have hlock' : ((s.flush.hook.rendered m query).expansionInFlight).any (·.monitorId = m) := hlock
    rw [expansionInFlight_rendered] at hlock'
    split at hlock'
    · cases hlock'
    · rename_i hsame
      rw [ne_eq, not_not] at hsame
      cases hr₀ : s.shown with
      | none =>
          rw [hlocked.unmounted (hshown.trans hr₀)] at hlock'
          cases hlock'
      | some r₀ =>
          by_cases hdependencies :
              r₀.dependencies = (s.flush.hook.render m query).dependencies
          · -- nothing changed, so the lock is that of the last render
            simp only [Render.dependencies, Prod.mk.injEq] at hdependencies
            obtain ⟨hlimit, -, -, hfetching, hm⟩ := hdependencies
            have hm' : r₀.monitorId = m := hm
            have hr₁ : r₀ ∈ s.flush.shown := hshown.trans hr₀
            rcases hlocked.lock r₀ hr₁ (by rw [Render.expanding, hm']; exact hlock') with
              hold | hold | hold
            · exact absurd (hold.symm.trans (hdue r₀ hr₀)) Bool.noConfusion
            · exact .inr (.inl (hfetching ▸ hold))
            · have hnext := hold.historyLimit
              rw [hm'] at hnext
              have hpos : 0 < HISTORY_LIMIT_STEP := by decide
              have hsame' : r₀.historyLimit = s.flush.hook.historyLimit m := hlimit
              rw [← hsame'] at hnext
              exact absurd hnext (Nat.lt_add_of_pos_right hpos).ne
          · refine .inl (decide_eq_true ?_)
            rw [hr₀]
            exact fun heq => hdependencies (Option.some.inj heq)

theorem Locked.step (h : s.Locked) (hinv : s.Inv) (hs : s.step p a = some s') : s'.Locked := by
  cases a with
  | render m query =>
      obtain rfl := Option.some.inj hs
      exact h.rerender m query
  | effect =>
      obtain rfl := Option.some.inj hs
      exact h.flush.1
  | loadMore now =>
      obtain ⟨r, hr, rfl⟩ := Option.map_eq_some_iff.mp hs
      cases hrefuses : r.refuses p s.hook now with
      | true =>
          rw [Render.loadMoreHistory, if_pos hrefuses]
          exact h
      | false =>
          have hclicked := ((hinv.sound r hr).loadMoreHistory hrefuses).1
          refine ⟨fun hnone => ?_, fun r' hr' => ?_, fun r' hr' _ => ?_⟩
          · exact absurd (hnone.symm.trans hr) (Option.some_ne_none r).symm
          · rw [loadMoreHistory_previous]
            exact h.monitor r' hr'
          · obtain rfl := Option.mem_unique hr' hr
            exact .inr (.inr hclicked)
  | ask =>
      obtain ⟨r, hr, hs⟩ := Option.bind_eq_some_iff.mp hs
      simp only [Option.ite_none_right_eq_some] at hs
      obtain ⟨-, heq⟩ := hs
      obtain rfl := Option.some.inj heq
      rw [View.ask]
      split <;> exact ⟨h.unmounted, h.monitor, h.lock⟩
  | answer scope rows =>
      simp only [View.step, Option.ite_none_right_eq_some] at hs
      obtain ⟨-, heq⟩ := hs
      obtain rfl := Option.some.inj heq
      exact ⟨h.unmounted, h.monitor, h.lock⟩

theorem locked_mount (m : Int) (cached : List (Scope × Rows)) : (mount m cached).Locked where
  unmounted := fun _ => rfl
  monitor := fun r hr => absurd hr (Option.not_mem_none r)
  lock := fun r hr => absurd hr (Option.not_mem_none r)

/-- After a render and its effect, only a request still holds the lock. -/
theorem Locked.released (h : s.Locked) (m : Int) (query : HistoryQuery)
    (hlock : (s.flush.hook.render m query).expanding (s.rerender m query).flush.hook = true) :
    query.isFetching = true := by
  obtain ⟨hlocked, hdue⟩ := (h.rerender m query).flush
  have hr : s.flush.hook.render m query ∈ (s.rerender m query).shown := rfl
  have hr' : s.flush.hook.render m query ∈ (s.rerender m query).flush.shown :=
    (flush_same _).2.2.1.trans hr
  rcases hlocked.lock _ hr' hlock with hold | hold | hold
  · exact absurd (hold.symm.trans (hdue _ hr)) Bool.noConfusion
  · exact hold
  · rw [Clicked, (flush_same _).1] at hold
    exact absurd hold not_clicked_self

/-- Only the render of one monitor whose request is under way. -/
def Waiting (monitorId : Int) (_ : View) : Action → Prop
  | .render m query => m = monitorId ∧ query.isFetching = true
  | _ => True

/-- The next step is asked for, and its request is under way once it is rendered. -/
def Expanding (scope : Scope) (s : View) : Prop :=
  s.hook.historyLimitState = scope ∧ ∃ r ∈ s.shown, r.monitorId = scope.monitorId ∧
    (r.historyLimit + HISTORY_LIMIT_STEP = scope.limit ∨ r.historyQuery.isFetching = true)

theorem Expanding.step {scope : Scope} (h : s.Expanding scope)
    (hlimit : scope.limit ≤ MAX_MONITOR_HISTORY_LIMIT) (hwaiting : Waiting scope.monitorId s a)
    (hs : s.step p a = some s') : s'.Expanding scope := by
  obtain ⟨hstate, r, hr, hm, hstep⟩ := h
  cases a with
  | render m query =>
      obtain rfl := Option.some.inj hs
      obtain ⟨rfl, hfetching⟩ := hwaiting
      refine ⟨?_, _, rfl, rfl, .inr hfetching⟩
      rw [rerender, historyLimitState_rendered, (flush_same s).1, hstate]
  | effect =>
      obtain rfl := Option.some.inj hs
      exact ⟨(flush_same s).1.trans hstate, r, (flush_same s).2.2.1.trans hr, hm, hstep⟩
  | loadMore now =>
      obtain ⟨r', hr', rfl⟩ := Option.map_eq_some_iff.mp hs
      obtain rfl := Option.mem_unique hr hr'
      refine ⟨?_, r, hr, hm, hstep⟩
      cases hrefuses : r.refuses p s.hook now with
      | true => rwa [Render.loadMoreHistory, if_pos hrefuses]
      | false =>
          -- the closure of the last render goes to the same step again
          have hidle := (refuses_eq_false.mp hrefuses).2.1
          have hagain := hstep.resolve_right (by rw [hidle]; exact Bool.false_ne_true)
          rw [Render.loadMoreHistory, hrefuses, if_neg Bool.false_ne_true, hagain, hm,
            min_eq_right hlimit]
  | ask =>
      obtain ⟨r', hr', hs⟩ := Option.bind_eq_some_iff.mp hs
      simp only [Option.ite_none_right_eq_some] at hs
      obtain ⟨-, heq⟩ := hs
      obtain rfl := Option.some.inj heq
      rw [View.ask]
      split <;> exact ⟨hstate, r, hr, hm, hstep⟩
  | answer scope rows =>
      simp only [View.step, Option.ite_none_right_eq_some] at hs
      obtain ⟨-, heq⟩ := hs
      obtain rfl := Option.some.inj heq
      exact ⟨hstate, r, hr, hm, hstep⟩

/-- Of the end, the bound and the button at most one is shown. -/
theorem exclusive (r : Render) (now : Int) : ¬ (r.historyExhausted ∧ r.historyAtLimit) ∧
    ¬ (r.historyExhausted ∧ r.canLoadMore p now) ∧ ¬ (r.historyAtLimit ∧ r.canLoadMore p now) := by
  have hexhausted : r.historyExhausted → ¬ r.loaded.any (r.historyLimit ≤ ·) := by
    intro h
    rw [Render.historyExhausted] at h
    cases hloaded : r.loaded with
    | none => simp
    | some n => simpa [hloaded] using h
  have hfull : r.canLoadMore p now →
      r.loaded.any (r.historyLimit ≤ ·) ∧ r.historyLimit < MAX_MONITOR_HISTORY_LIMIT := by
    intro h
    simp only [Render.canLoadMore, Bool.and_eq_true, decide_eq_true_eq] at h
    exact h.1.1.1
  simp only [Render.historyAtLimit, Bool.and_eq_true, decide_eq_true_eq]
  refine ⟨fun h => hexhausted h.1 h.2.2, fun h => hexhausted h.1 (hfull h.2).1, fun h => ?_⟩
  exact absurd h.1.1 (hfull h.2).2.ne

/-! ### Runs -/

variable {start : Int} {cached : List (Scope × Rows)} {actions : List Action}

theorem reachable (h : Guarded (step p) Faithful (mount start cached) actions s) :
    s.Inv ∧ s.Locked := by
  have hstep : ∀ (s : View) a s', s.Inv ∧ s.Locked → s.Faithful a → s.step p a = some s' →
      s'.Inv ∧ s'.Locked := fun _ _ _ hi hg hs => ⟨hi.1.step hg hs, hi.2.step hi.1 hs⟩
  exact h.invariant hstep ⟨inv_mount start cached, locked_mount start cached⟩

/-- **The page asks for what it may and shows what was answered.** In every run of the page, through
any monitors and with any earlier answers that the library has kept, no request is refused by its
own checks, and a request for more rows follows answers of full length to all the smaller ones; the
rows that are shown answered a request for the monitor that is shown; the end of the history is
announced after an answer that was not full, its bound after one that was; and of these two and the
button at most one is shown. -/
theorem asks_and_shows (h : Guarded (step p) Faithful (mount start cached) actions s) :
    s.rangeErrors = [] ∧ (∀ scope ∈ s.asked, 0 < scope.monitorId ∧ s.Allowed scope) ∧
    ∀ r ∈ s.shown,
      (∀ rows ∈ r.visibleHistory, ∃ limit, (⟨r.monitorId, limit⟩, rows) ∈ s.answered) ∧
      (r.historyExhausted → ∃ rows, (r.scope, rows) ∈ s.answered ∧ rows.length < r.historyLimit) ∧
      (r.historyAtLimit → ∃ rows, (r.scope, rows) ∈ s.answered ∧
        MAX_MONITOR_HISTORY_LIMIT ≤ rows.length) ∧
      ∀ now, ¬ (r.historyExhausted ∧ r.historyAtLimit) ∧
        ¬ (r.historyExhausted ∧ r.canLoadMore p now) ∧
        ¬ (r.historyAtLimit ∧ r.canLoadMore p now) := by
  have hinv := (reachable h).1
  refine ⟨hinv.rangeErrors, hinv.asked, fun r hr => ?_⟩
  have hsound := hinv.sound r hr
  refine ⟨hsound.visible, fun hexhausted => ?_, fun hatLimit => ?_, fun now => exclusive r now⟩
  · obtain ⟨previous, hprevious, rows, hrows, hlen⟩ := any_loaded.mp hexhausted
    obtain ⟨hscope, hkept⟩ := hsound.kept previous hprevious
    exact ⟨rows, hscope ▸ hkept rows hrows, of_decide_eq_true hlen⟩
  · rw [Render.historyAtLimit, Bool.and_eq_true] at hatLimit
    obtain ⟨previous, hprevious, rows, hrows, hlen⟩ := any_loaded.mp hatLimit.2
    obtain ⟨hscope, hkept⟩ := hsound.kept previous hprevious
    refine ⟨rows, hscope ▸ hkept rows hrows, ?_⟩
    rw [← of_decide_eq_true hatLimit.1]
    exact of_decide_eq_true hlen

/-- **The button.** In every run of the page, through any monitors: once a render and its effect are
done, a click asks for the next step if and only if the render offers more and nothing is being
fetched, so the lock of an earlier expansion never stays behind; and after a click that asked for
it, no click, however many there are, and nothing else asks for another one until the page
is rendered with the request at its end, or for another monitor. -/
theorem load_more_once (h : Guarded (step p) Faithful (mount start cached) actions s) :
    (∀ m query now, s.Faithful (.render m query) →
      let r := s.flush.hook.render m query
      let rest := (s.rerender m query).flush.hook
      (r.loadMoreHistory p rest now).historyLimit m =
        if r.canLoadMore p now && !query.isFetching then r.historyLimit + HISTORY_LIMIT_STEP
        else r.historyLimit) ∧
    ∀ r ∈ s.shown, ∀ now t, s.step p (.loadMore now) = some t → t.hook ≠ s.hook →
      t.hook.historyLimitState = ⟨r.monitorId, r.historyLimit + HISTORY_LIMIT_STEP⟩ ∧
      ∀ later u, Guarded (step p) (Waiting r.monitorId) t later u →
        u.hook.historyLimitState = t.hook.historyLimitState := by
  obtain ⟨hinv, hlocked⟩ := reachable h
  refine ⟨fun m query now hfaithful => ?_, fun r hr now t ht hchanged => ?_⟩
  · have hflushed := (hinv.rerender hfaithful).flush
    obtain ⟨hlimit, -, hshown, -⟩ := flush_same (s.rerender m query)
    have hr : s.flush.hook.render m query ∈ (s.rerender m query).flush.shown := hshown.trans rfl
    have hrest : (s.rerender m query).flush.hook.historyLimit m =
        (s.flush.hook.render m query).historyLimit := by
      rw [Hook.historyLimit, hlimit, rerender, historyLimitState_rendered]
      rfl
    intro r rest
    cases hrefuses : r.refuses p rest now with
    | false =>
        obtain ⟨hmore, hidle, -⟩ := refuses_eq_false.mp hrefuses
        have hidle' : query.isFetching = false := hidle
        have hclicked := ((hflushed.sound _ hr).loadMoreHistory hrefuses).1
        rw [Hook.historyLimit, hclicked, hmore, hidle']
        exact if_pos rfl
    | true =>
        have hblocked : ¬ (r.canLoadMore p now && !query.isFetching) = true := by
          intro hfree
          rw [Bool.and_eq_true, Bool.not_eq_true'] at hfree
          have hunlocked : r.expanding rest = false := by
            by_contra hlock
            rw [Bool.not_eq_false] at hlock
            have hfetching := hlocked.released m query hlock
            rw [hfree.2] at hfetching
            cases hfetching
          exact absurd hrefuses (by
            rw [refuses_eq_false.mpr ⟨hfree.1, hfree.2, hunlocked⟩]
            exact Bool.false_ne_true)
        rw [Render.loadMoreHistory, if_pos hrefuses, if_neg hblocked]
        exact hrest
  · obtain ⟨r', hr', rfl⟩ := Option.map_eq_some_iff.mp ht
    obtain rfl := Option.mem_unique hr hr'
    cases hrefuses : r.refuses p s.hook now with
    | true => exact absurd (by rw [Render.loadMoreHistory, if_pos hrefuses]) hchanged
    | false =>
        obtain ⟨hclicked, hallowed⟩ := (hinv.sound r hr).loadMoreHistory hrefuses
        refine ⟨hclicked, fun later u hrun => ?_⟩
        have hbound : ∀ limit ∈ HISTORY_LIMITS, limit ≤ MAX_MONITOR_HISTORY_LIMIT := by decide
        have hexpanding : Expanding ⟨r.monitorId, r.historyLimit + HISTORY_LIMIT_STEP⟩ u :=
          hrun.invariant
            (fun _ _ _ hi hwaiting hs => hi.step (hbound _ hallowed.mem) hwaiting hs)
            ⟨hclicked, r, hr, rfl, .inl rfl⟩
        exact hexpanding.1.trans hclicked.symm

/-- The first page of a history. -/
def firstPage : Rows := (List.range 50).map fun id => ⟨id, "healthy", none, ""⟩

def loading : HistoryQuery := ⟨none, none, 0, 0, true, false, false⟩

def loaded : HistoryQuery := ⟨some firstPage, none, 0, 1, false, true, false⟩

/-- The rows of the first page stand in for those that are asked for. -/
def expanding : HistoryQuery := ⟨some firstPage, none, 0, 0, true, true, true⟩

/-- The page of a monitor is opened, and its first page comes. -/
def opening : List Action :=
  [.render 3 loading, .effect, .ask, .answer ⟨3, 50⟩ firstPage, .render 3 loaded]

def opened : View where
  hook := ⟨⟨3, 50⟩, ⟨3, 50, some firstPage⟩, none⟩
  shown := some ⟨3, 50, loaded, some ⟨3, 50, some firstPage⟩, some firstPage, false⟩
  effectDue := true
  asked := [⟨3, 50⟩]
  rangeErrors := []
  answered := [(⟨3, 50⟩, firstPage)]

theorem opening_guarded (p : Platform) : Guarded (step p) Faithful (mount 3 []) opening opened := by
  have hloading : ∀ s : View, s.Faithful (.render 3 loading) := fun s =>
    ⟨fun _ rows hrows => absurd hrows (Option.not_mem_none rows),
      fun h => absurd h Bool.noConfusion⟩
  refine .more (hloading _) rfl (.more trivial rfl (.more trivial rfl (.more trivial rfl ?_)))
  refine .more ⟨fun _ rows hrows => ?_, fun h => absurd h Bool.noConfusion⟩ rfl (.refl _)
  obtain rfl := Option.some.inj hrows
  exact List.mem_cons_self

theorem asks_and_shows_opened : ∃ limit, (⟨3, limit⟩, firstPage) ∈ opened.answered :=
  ((asks_and_shows (opening_guarded twoMinutes)).2.2 _ rfl).1 firstPage rfl

/-- Two clicks, the render of the next step, and one more. -/
def impatient : List Action := [.loadMore 1, .effect, .loadMore 2, .render 3 expanding, .loadMore 3]

theorem load_more_once_impatient : ∃ t u,
    opened.step twoMinutes (.loadMore 0) = some t ∧
      Guarded (step twoMinutes) (Waiting 3) t impatient u ∧
      u.hook.historyLimitState = ⟨3, 100⟩ := by
  have hclick : opened.step twoMinutes (.loadMore 0) = some
      { opened with hook := ⟨⟨3, 100⟩, ⟨3, 50, some firstPage⟩, some ⟨3, 100⟩⟩ } := rfl
  have hrun : ∃ u, Guarded (step twoMinutes) (Waiting 3)
      { opened with hook := ⟨⟨3, 100⟩, ⟨3, 50, some firstPage⟩, some ⟨3, 100⟩⟩ } impatient u := by
    refine ⟨_, .more trivial rfl (.more trivial rfl (.more trivial rfl (.more ?_ rfl
      (.more trivial rfl (.refl _)))))⟩
    exact ⟨rfl, rfl⟩
  obtain ⟨u, hu⟩ := hrun
  obtain ⟨hstate, hrest⟩ :=
    (load_more_once (opening_guarded twoMinutes)).2 _ rfl 0 _ hclick (by decide +kernel)
  exact ⟨_, u, hclick, hu, (hrest impatient u hu).trans hstate⟩

end View

end Sentinel.Frontend
