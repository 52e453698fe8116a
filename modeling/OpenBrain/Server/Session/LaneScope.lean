import OpenBrain.Core.Json

/-!
# The exact scope of a session lane

A lane (`ob_session_lanes`) carries five nullable coordinates: `agent`,
`source`, `channel_id` and `thread_id` are text columns, `server_id` is a
member of the jsonb column `metadata`. `session_start` and `session_wrap` fill
the unset ones once, each with a conditional `UPDATE`
(`db/session-repository.ts`), and `session_wrap` first compares the lane it
read with the request in TypeScript (`tools/session-wrap-scope.ts`). The rule is
written three times; this module puts the three side by side on one row that
nobody changes in between.

`Wire` is what lies outside the source: how the driver and the server take a
text parameter, and the text of a jsonb value that is no string. Nothing is
assumed about either.

## Results

`one_scope_rule_iff`: the start's fill and the wrap accept the same rows and
leave the same row, except in the cases `Diverges` lists.
-/
namespace OpenBrain.Server.Session

open OpenBrain.Core

/-- Between the handlers and the rows. `text` is a string parameter as the
server receives it, `none` when the statement is refused for it; `jsonString` is
the same for a string inside a jsonb parameter; `jsonText` is `->>` on a value
that is neither a string nor null. -/
structure Wire (ν : Type) where
  text : Str → Option Str
  jsonString : Str → Option Str
  jsonText : Json ν → Str

/-- The coordinate columns of a lane; `metadata` is `NOT NULL`.
mirrors server/db/migrations/012_session_lanes.sql:5-30 -/
structure LaneRow (ν : Type) where
  agent : Option Str
  source : Option Str
  channel_id : Option Str
  thread_id : Option Str
  metadata : Json ν

/-- The coordinates of a request. -/
structure WrapScope where
  agent : Option Str
  platform : Option Str
  server_id : Option Str
  channel_id : Option Str
  thread_id : Option Str
  deriving DecidableEq, Repr

/-- A request that carries every coordinate the exact-scope predicate needs. -/
structure ExactScope where
  agent : Str
  platform : Str
  server_id : Str
  channel_id : Str
  thread_id : Option Str
  deriving DecidableEq, Repr

def ExactScope.args (scope : ExactScope) : WrapScope where
  agent := some scope.agent
  platform := some scope.platform
  server_id := some scope.server_id
  channel_id := some scope.channel_id
  thread_id := scope.thread_id

/-- `hasCompleteExactScope`, with what it narrows the request to.
mirrors server/tools/session-wrap-scope.ts:35-44 -/
def exactScope (args : WrapScope) : Option ExactScope := do
  let agent ← args.agent
  let platform ← args.platform
  let server_id ← args.server_id
  let channel_id ← args.channel_id
  some ⟨agent, platform, server_id, channel_id, args.thread_id⟩

/-! ## The two statements -/

section Sql

variable {ν : Type} (W : Wire ν)

def scopeParams (scope : ExactScope) : Option ExactScope := do
  let agent ← W.text scope.agent
  let platform ← W.text scope.platform
  let server_id ← W.text scope.server_id
  let channel_id ← W.text scope.channel_id
  match scope.thread_id with
  | none => some ⟨agent, platform, server_id, channel_id, none⟩
  | some thread => (W.text thread).map fun t => ⟨agent, platform, server_id, channel_id, some t⟩

/-- `metadata->>'server_id'`. -/
def serverIdText : Json ν → Option Str
  | .obj ms =>
    match Members.get? ms (units "server_id") with
    | none => none
    | some .null => none
    | some (.str s) => some s
    | some v => some (W.jsonText v)
  | _ => none

/-- `column IS NULL OR column = $n`. -/
def openTo (column : Option Str) (value : Str) : Bool := column.all fun v => decide (v = value)

/-- The four clauses the two statements share. -/
def coordinatesOpen (row : LaneRow ν) (p : ExactScope) : Bool :=
  openTo row.agent p.agent && openTo row.source p.platform &&
    openTo (serverIdText W row.metadata) p.server_id && openTo row.channel_id p.channel_id

/-- `agent IS NOT NULL AND source IS NOT NULL AND ...`. -/
def rowIsComplete (row : LaneRow ν) : Bool :=
  row.agent.isSome && row.source.isSome && (serverIdText W row.metadata).isSome &&
    row.channel_id.isSome

/-- mirrors server/db/session-repository.ts:461 -/
def startThreadMatches (row : LaneRow ν) (p : ExactScope) : Bool :=
  match p.thread_id with
  | none => true
  | some thread => openTo row.thread_id thread

/-- mirrors server/db/session-repository.ts:417-433 -/
def wrapThreadMatches (row : LaneRow ν) (p : ExactScope) : Bool :=
  match p.thread_id with
  | none => row.thread_id.isNone
  | some thread =>
    decide (row.thread_id = some thread) || (row.thread_id.isNone && !rowIsComplete W row)

/-- `jsonb_set(metadata, '{server_id}', ..., true)`, which raises on a scalar
and on an array. -/
def jsonbSetServerId (metadata : Json ν) (server_id : Str) : Option (Json ν) :=
  match metadata with
  | .obj ms => some (.obj (Members.set ms (units "server_id") (.str server_id)))
  | _ => none

/-- What an `UPDATE ... RETURNING` of one row answers. -/
inductive Updated (ν : Type) where
  | raised
  | unmatched
  | matched (row : LaneRow ν)

def Updated.isMatched : Updated ν → Bool
  | .matched _ => true
  | _ => false

/-- The `SET` clause the two statements share: each column is filled if unset.
mirrors server/db/session-repository.ts:398-408,443-453 -/
def fillScope (row : LaneRow ν) (p : ExactScope) : Updated ν :=
  let metadata :=
    if (serverIdText W row.metadata).isSome then some row.metadata
    else jsonbSetServerId row.metadata p.server_id
  match metadata with
  | none => .raised
  | some metadata => .matched {
      agent := row.agent.or p.agent
      source := row.source.or p.platform
      channel_id := row.channel_id.or p.channel_id
      thread_id := row.thread_id.or p.thread_id
      metadata := metadata }

/-- An update of the row under the clause `where'`. -/
def updateScope (row : LaneRow ν) (scope : ExactScope)
    (where' : LaneRow ν → ExactScope → Bool) : Updated ν :=
  match scopeParams W scope with
  | none => .raised
  | some p => if coordinatesOpen W row p && where' row p then fillScope W row p else .unmatched

/-- mirrors server/db/session-repository.ts:439-464 -/
def establishStartScope (row : LaneRow ν) (scope : ExactScope) : Updated ν :=
  updateScope W row scope startThreadMatches

/-- mirrors server/db/session-repository.ts:394-437 -/
def establishWrapScope (row : LaneRow ν) (scope : ExactScope) : Updated ν :=
  updateScope W row scope (wrapThreadMatches W)

end Sql

/-! ## The comparison in TypeScript -/

section Compare

variable {ν : Type}

/-- An array has no member `server_id` either.
mirrors server/tools/session-wrap-scope.ts:54-58 -/
def laneMetadata (row : LaneRow ν) : Members ν :=
  match row.metadata with
  | .obj ms => ms
  | _ => []

/-- `metadata.server_id`, with null and undefined taken together (`!= null`). -/
def storedServerId (row : LaneRow ν) : Option (Json ν) :=
  match Members.get? (laneMetadata row) (units "server_id") with
  | some .null => none
  | stored => stored

/-- mirrors server/tools/session-wrap-scope.ts:61-68 -/
def storedScopeIsComplete (row : LaneRow ν) : Bool :=
  row.agent.isSome && row.source.isSome && (storedServerId row).isSome && row.channel_id.isSome

/-- `stored === requested` for a string or null on the right. -/
def strictEquals : Json ν → Option Str → Bool
  | .str s, some r => decide (s = r)
  | .null, none => true
  | _, _ => false

/-- `requested` is `none` for undefined and `some none` for null.
mirrors server/tools/session-wrap-scope.ts:71-79 -/
def coordinateConflicts (stored : Option (Json ν)) (requested : Option (Option Str))
    (unsetIsAConflict : Bool) : Bool :=
  match requested with
  | none => false
  | some requested =>
    match stored with
    | none => unsetIsAConflict && requested.isSome
    | some stored => !strictEquals stored requested

/-- mirrors server/tools/session-wrap-scope.ts:81-103 -/
def scopeConflicts (row : LaneRow ν) (args : WrapScope) : List Str :=
  let requestedThreadId :=
    if args.channel_id.isSome then some args.thread_id else args.thread_id.map some
  let checks : List (Str × Option (Json ν) × Option (Option Str) × Bool) := [
    (units "agent", row.agent.map .str, args.agent.map some, false),
    (units "platform", row.source.map .str, args.platform.map some, false),
    (units "server_id", storedServerId row, args.server_id.map some, false),
    (units "channel_id", row.channel_id.map .str, args.channel_id.map some, false),
    (units "thread_id", row.thread_id.map .str, requestedThreadId, storedScopeIsComplete row)]
  (checks.filter fun c => coordinateConflicts c.2.1 c.2.2.1 c.2.2.2).map Prod.fst

end Compare

/-! ## The clauses, read off -/

section Clauses

variable {ν : Type} {W : Wire ν} {row : LaneRow ν} {scope p : ExactScope}

theorem openTo_iff (column : Option Str) (value : Str) :
    openTo column value = true ↔ column = none ∨ column = some value := by
  cases column <;> simp [openTo]

theorem coordinatesOpen_iff : coordinatesOpen W row p = true ↔
    (row.agent = none ∨ row.agent = some p.agent) ∧
      (row.source = none ∨ row.source = some p.platform) ∧
      (serverIdText W row.metadata = none ∨ serverIdText W row.metadata = some p.server_id) ∧
      (row.channel_id = none ∨ row.channel_id = some p.channel_id) := by
  simp only [coordinatesOpen, Bool.and_eq_true, openTo_iff, and_assoc]

theorem startThreadMatches_iff : startThreadMatches row p = true ↔
    p.thread_id = none ∨ row.thread_id = none ∨ row.thread_id = p.thread_id := by
  unfold startThreadMatches
  cases hp : p.thread_id with
  | none => simp
  | some thread => simp [openTo_iff]

theorem wrapThreadMatches_iff : wrapThreadMatches W row p = true ↔
    row.thread_id = p.thread_id ∨
      (p.thread_id ≠ none ∧ row.thread_id = none ∧ rowIsComplete W row = false) := by
  unfold wrapThreadMatches
  cases hp : p.thread_id with
  | none => cases row.thread_id <;> simp
  | some thread => cases row.thread_id <;> simp

/-- The two languages agree on whether the member is set. -/
theorem storedServerId_isSome (W : Wire ν) (row : LaneRow ν) :
    (storedServerId row).isSome = (serverIdText W row.metadata).isSome := by
  unfold storedServerId laneMetadata serverIdText
  cases row.metadata with
  | obj ms =>
    dsimp only
    cases Members.get? ms (units "server_id") with
    | none => rfl
    | some v => cases v <;> rfl
  | _ => rfl

theorem storedScopeIsComplete_eq (W : Wire ν) (row : LaneRow ν) :
    storedScopeIsComplete row = rowIsComplete W row := by
  unfold storedScopeIsComplete rowIsComplete
  rw [storedServerId_isSome W]

theorem text_agrees (column : Option Str) (r : Str) :
    coordinateConflicts (column.map (Json.str : Str → Json ν)) (some (some r)) false = false ↔
      column = none ∨ column = some r := by
  cases column <;> simp [coordinateConflicts, strictEquals]

theorem server_id_agrees (row : LaneRow ν) (r : Str) :
    coordinateConflicts (storedServerId row) (some (some r)) false = false ↔
      storedServerId row = none ∨ storedServerId row = some (.str r) := by
  cases hs : storedServerId row with
  | none => simp [coordinateConflicts]
  | some v => cases v <;> simp [coordinateConflicts, strictEquals]

theorem thread_agrees (column requested : Option Str) (complete : Bool) :
    coordinateConflicts (column.map (Json.str : Str → Json ν)) (some requested) complete = false ↔
      column = requested ∨ (requested ≠ none ∧ column = none ∧ complete = false) := by
  cases column <;> cases requested <;> cases complete <;>
    simp [coordinateConflicts, strictEquals]

/-- Each set coordinate is, as a JavaScript value, what the request names. -/
def Literal (row : LaneRow ν) (scope : ExactScope) : Prop :=
  (row.agent = none ∨ row.agent = some scope.agent) ∧
    (row.source = none ∨ row.source = some scope.platform) ∧
    (storedServerId row = none ∨ storedServerId row = some (.str scope.server_id)) ∧
    (row.channel_id = none ∨ row.channel_id = some scope.channel_id)

theorem scopeConflicts_nil_iff : scopeConflicts row scope.args = [] ↔
    Literal row scope ∧ (row.thread_id = scope.thread_id ∨
      (scope.thread_id ≠ none ∧ row.thread_id = none ∧ storedScopeIsComplete row = false)) := by
  have hthread := @thread_agrees ν row.thread_id scope.thread_id (storedScopeIsComplete row)
  have hagent := @text_agrees ν row.agent scope.agent
  have hsource := @text_agrees ν row.source scope.platform
  have hserver := server_id_agrees row scope.server_id
  have hchannel := @text_agrees ν row.channel_id scope.channel_id
  simp only [scopeConflicts, ExactScope.args, Option.isSome_some, if_true, Option.map_some,
    List.map_eq_nil_iff, List.filter_eq_nil_iff, List.mem_cons, List.not_mem_nil, or_false,
    forall_eq_or_imp, forall_eq, Bool.not_eq_true]
  rw [hagent, hsource, hserver, hchannel, hthread, Literal]
  simp only [and_assoc]

theorem scopeParams_thread (h : scopeParams W scope = some p) :
    p.thread_id = none ↔ scope.thread_id = none := by
  simp only [scopeParams, Option.bind_eq_bind, Option.bind_eq_some_iff] at h
  obtain ⟨agent, -, platform, -, server_id, -, channel_id, -, h⟩ := h
  split at h
  · rename_i ht
    cases h
    simp [ht]
  · rename_i thread ht
    obtain ⟨t, -, rfl⟩ := Option.map_eq_some_iff.mp h
    simp [ht]

theorem fillScope_isMatched : (fillScope W row p).isMatched = true ↔ ∃ ms, row.metadata = .obj ms := by
  unfold fillScope jsonbSetServerId
  cases row.metadata with
  | obj ms => cases (serverIdText W (.obj ms)).isSome <;> simp [Updated.isMatched]
  | _ => simp [serverIdText, Updated.isMatched]

/-- What an update that takes the row has checked, and what it leaves. -/
theorem updateScope_matched {where' : LaneRow ν → ExactScope → Bool} {r : LaneRow ν} :
    updateScope W row scope where' = .matched r ↔
      ∃ p, scopeParams W scope = some p ∧ coordinatesOpen W row p = true ∧ where' row p = true ∧
        fillScope W row p = .matched r := by
  unfold updateScope
  cases scopeParams W scope with
  | none => simp
  | some p =>
    dsimp only
    split
    · rename_i hclauses
      obtain ⟨hopen, hwhere⟩ := (Bool.and_eq_true _ _).mp hclauses
      simp [hopen, hwhere]
    · rename_i hclauses
      refine iff_of_false nofun ?_
      rintro ⟨q, hq, hopen, hwhere, -⟩
      cases hq
      exact hclauses ((Bool.and_eq_true _ _).mpr ⟨hopen, hwhere⟩)

theorem isMatched_iff {u : Updated ν} : u.isMatched = true ↔ ∃ r, u = .matched r := by
  cases u <;> simp [Updated.isMatched]

/-- Which rows an update takes: the parameters are accepted, the clauses hold
and the metadata can take the member. -/
theorem updateScope_isMatched (where' : LaneRow ν → ExactScope → Bool) :
    (updateScope W row scope where').isMatched = true ↔
      ∃ p ms, scopeParams W scope = some p ∧ row.metadata = .obj ms ∧
        coordinatesOpen W row p = true ∧ where' row p = true := by
  rw [isMatched_iff]
  constructor
  · rintro ⟨r, hr⟩
    obtain ⟨p, hp, hopen, hwhere, hfill⟩ := updateScope_matched.mp hr
    obtain ⟨ms, hms⟩ := fillScope_isMatched.mp (isMatched_iff.mpr ⟨r, hfill⟩)
    exact ⟨p, ms, hp, hms, hopen, hwhere⟩
  · rintro ⟨p, ms, hp, hms, hopen, hwhere⟩
    obtain ⟨r, hr⟩ := isMatched_iff.mp (fillScope_isMatched.mpr ⟨ms, hms⟩)
    exact ⟨r, updateScope_matched.mpr ⟨p, hp, hopen, hwhere, hr⟩⟩

theorem updateScope_row {where₁ where₂ : LaneRow ν → ExactScope → Bool} {r₁ r₂ : LaneRow ν}
    (h₁ : updateScope W row scope where₁ = .matched r₁)
    (h₂ : updateScope W row scope where₂ = .matched r₂) : r₁ = r₂ := by
  obtain ⟨p, hp, -, -, hfill⟩ := updateScope_matched.mp h₁
  obtain ⟨q, hq, -, -, hfill'⟩ := updateScope_matched.mp h₂
  rw [hp] at hq
  cases hq
  exact Updated.matched.inj (hfill.symm.trans hfill')

theorem startThread_of_wrapThread (h : wrapThreadMatches W row p = true) :
    startThreadMatches row p = true := by
  rw [startThreadMatches_iff]
  rcases wrapThreadMatches_iff.mp h with h | ⟨-, h, -⟩
  · exact .inr (.inr h)
  · exact .inr (.inl h)

end Clauses

/-! ## One rule -/

section Rule

variable {ν : Type} (W : Wire ν) (row : LaneRow ν) (scope : ExactScope)

/-- The start's fill takes the row exactly when the wrap reports no conflict
and its fill takes it, and then both leave the same row. -/
def OneRule : Prop :=
  ((establishStartScope W row scope).isMatched = true ↔
    scopeConflicts row scope.args = [] ∧ (establishWrapScope W row scope).isMatched = true) ∧
  ∀ r r', establishStartScope W row scope = .matched r →
    establishWrapScope W row scope = .matched r' → r = r'

/-- The rows on which the two part. The start takes the row, and: the request
names no thread and the row has one; or the request names a thread, and the row
has none but every other coordinate; or a coordinate that the database finds
equal is not the requested string in JavaScript (a `server_id` stored as a
number, a text the driver rewrites). -/
def Diverges : Prop :=
  ∃ p ms, scopeParams W scope = some p ∧ row.metadata = .obj ms ∧
    coordinatesOpen W row p = true ∧ startThreadMatches row p = true ∧
    ((scope.thread_id = none ∧ row.thread_id ≠ none) ∨
      (scope.thread_id ≠ none ∧ row.thread_id = none ∧ rowIsComplete W row = true) ∨
      (scope.thread_id ≠ none ∧ row.thread_id ≠ none ∧ row.thread_id ≠ scope.thread_id) ∨
      ¬ Literal row scope)

variable {W row scope}

theorem wrap_accepts_iff {p : ExactScope} (hp : scopeParams W scope = some p)
    (hstart : startThreadMatches row p = true) :
    (scopeConflicts row scope.args = [] ∧ wrapThreadMatches W row p = true) ↔
      ¬ ((scope.thread_id = none ∧ row.thread_id ≠ none) ∨
        (scope.thread_id ≠ none ∧ row.thread_id = none ∧ rowIsComplete W row = true) ∨
        (scope.thread_id ≠ none ∧ row.thread_id ≠ none ∧ row.thread_id ≠ scope.thread_id) ∨
        ¬ Literal row scope) := by
  have hnone := scopeParams_thread hp
  have hthread := startThreadMatches_iff.mp hstart
  rw [scopeConflicts_nil_iff, wrapThreadMatches_iff, storedScopeIsComplete_eq W]
  by_cases hlit : Literal row scope
  · cases hs : scope.thread_id with
    | none =>
      have hpn : p.thread_id = none := hnone.mpr hs
      cases hr : row.thread_id <;> simp [hpn, hlit]
    | some t =>
      have hpn : p.thread_id ≠ none := fun h => by
        rw [hnone.mp h] at hs
        cases hs
      cases hr : row.thread_id with
      | none => cases hc : rowIsComplete W row <;> simp [hpn, hlit, Ne.symm hpn]
      | some u =>
        -- the start has compared the two threads
        have hu : some u = p.thread_id := by
          rcases hthread with h | h | h
          · exact absurd h hpn
          · rw [hr] at h
            cases h
          · rw [← hr]
            exact h
        simp [hlit, ← hu]
  · simp [hlit]

/-- **Exactly when the two apply one rule.** For every row and every complete
request, whatever the driver and the server make of the texts. -/
theorem one_scope_rule_iff (W : Wire ν) (row : LaneRow ν) (scope : ExactScope) :
    OneRule W row scope ↔ ¬ Diverges W row scope := by
  have hsame : ∀ r r', establishStartScope W row scope = .matched r →
      establishWrapScope W row scope = .matched r' → r = r' := fun _ _ => updateScope_row
  have hstart := @updateScope_isMatched _ W row scope startThreadMatches
  have hwrap := @updateScope_isMatched _ W row scope (wrapThreadMatches W)
  unfold OneRule establishStartScope establishWrapScope at *
  rw [and_iff_left hsame, hstart, hwrap]
  constructor
  · rintro h ⟨p, ms, hp, hms, hopen, hthread, hparts⟩
    obtain ⟨hnil, q, _, hq, -, -, hwrapThread⟩ := h.mp ⟨p, ms, hp, hms, hopen, hthread⟩
    cases hp.symm.trans hq
    exact (wrap_accepts_iff hp hthread).mp ⟨hnil, hwrapThread⟩ hparts
  · intro h
    constructor
    · rintro ⟨p, ms, hp, hms, hopen, hthread⟩
      obtain ⟨hnil, hwrapThread⟩ := (wrap_accepts_iff hp hthread).mpr fun hparts =>
        h ⟨p, ms, hp, hms, hopen, hthread, hparts⟩
      exact ⟨hnil, p, ms, hp, hms, hopen, hwrapThread⟩
    · rintro ⟨-, p, ms, hp, hms, hopen, hwrapThread⟩
      exact ⟨p, ms, hp, hms, hopen, startThread_of_wrapThread hwrapThread⟩

/-- Texts that arrive as they were sent; numbers are not looked at. -/
def plainWire : Wire Nat := ⟨some, some, fun _ => []⟩

def threadedLane : LaneRow Nat :=
  ⟨some (units "agent"), some (units "cli"), some (units "c1"), some (units "t1"),
    .obj [(units "server_id", .str (units "s1"))]⟩

/-- The same four coordinates, and no thread. -/
def unthreadedScope : ExactScope := ⟨units "agent", units "cli", units "s1", units "c1", none⟩

/-- The start answers with the threaded lane, the wrap rejects it for its thread. -/
theorem start_takes_threaded_lane :
    ¬ OneRule plainWire threadedLane unthreadedScope ∧
      (establishStartScope plainWire threadedLane unthreadedScope).isMatched = true ∧
      scopeConflicts threadedLane unthreadedScope.args = [units "thread_id"] := by
  have hboth : (establishStartScope plainWire threadedLane unthreadedScope).isMatched = true ∧
      scopeConflicts threadedLane unthreadedScope.args = [units "thread_id"] := by decide +kernel
  refine ⟨fun h => ?_, hboth⟩
  have hnil := (h.1.mp hboth.1).1
  rw [hboth.2] at hnil
  cases hnil

end Rule

end OpenBrain.Server.Session
