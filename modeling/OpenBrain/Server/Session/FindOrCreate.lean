import Mathlib.Data.List.Nodup
import OpenBrain.Server.Session.WrapRace

/-!
# Finding or creating a lane (`tools/session-lifecycle.ts`, `tools/session-events.ts`)

`session_start` and `append_session_event` look a lane up under its namespace and session key, and
insert it when they find none. Any number of calls on one key interleave, one statement a step; the
unique constraint of the table is the option `St.lane`. The start's insert meets a lane made since
its look-up with a unique violation, the append's with `DO NOTHING` and no row.

`Outside` is what lies outside the source: the database's text and json values (`Wire`), what else
it takes of an event's values beyond the CHECK constraints, and the content hash.
-/
namespace OpenBrain.Server.Session.FindOrCreate
open OpenBrain.Core List

/-! ## Requests -/

/-- The other texts of the row to insert are the project, the topic and the client's id. -/
structure StartArgs where
  scope : WrapScope
  others : List Str

/-- The rest of an event's values are those only the row's other columns read. -/
structure EventArgs (ε : Type) where
  scope : WrapScope
  others : List Str
  content : Str
  transcript_ref : Option Str
  transcript : Option Str
  occurred_at : Option Str
  rest : ε
  create_if_missing : Bool

inductive Request (ε : Type) where
  | start (args : StartArgs)
  | append (args : EventArgs ε)

structure Outside (ν ε : Type) where
  wire : Wire ν
  contentHash : Str → Str
  takes : EventArgs ε → Bool

/-- A row of `ob_session_events`. -/
structure Event (ε : Type) where
  lane_id : Nat
  content_hash : Str
  args : EventArgs ε

/-! ## The constraints of the events -/

def isAlnum (u : UInt16) : Bool :=
  (unit '0' ≤ u && u ≤ unit '9') || (unit 'A' ≤ u && u ≤ unit 'Z') || (unit 'a' ≤ u && u ≤ unit 'z')

/-- `[A-Za-z0-9][A-Za-z0-9._-]*` -/
def isSegment : Str → Bool
  | [] => false
  | u :: s => isAlnum u && s.all fun v => isAlnum v || v == unit '.' || v == unit '_' || v == unit '-'

/-- mirrors server/db/migrations/023_session_event_transcript_citations.sql -/
def isHostNeutral (ref : Str) : Bool :=
  match ref.splitOn (unit '/') with
  | first :: segments => first == units "collab" && !segments.isEmpty && segments.all isSegment
  | [] => false

/-- The CHECK constraints of the table.
mirrors server/db/migrations/013_session_events.sql and
023_session_event_transcript_citations.sql -/
def checks {ε : Type} (args : EventArgs ε) : Bool :=
  args.content.any (· != unit ' ') && args.transcript_ref.all isHostNeutral &&
    ((args.transcript.isNone && args.occurred_at.isNone) || args.transcript_ref.isSome)

/-! ## Calls -/

inductive Failure where
  | refused
  | uniqueViolation
  | laneNotFound
  | scopeMismatch
  deriving DecidableEq

inductive Answer where
  | started (lane : Nat) (is_new : Bool)
  | appended (lane_id : Nat) (lane_created : Bool)
  | duplicate
  | failed (f : Failure)
  deriving DecidableEq

def Answer.lane? : Answer → Option Nat
  | .started id _ | .appended id _ => some id
  | .duplicate | .failed _ => none

def Answer.isFailed : Answer → Bool
  | .failed _ => true
  | _ => false

/-- The next statement of a call, or its answer. -/
inductive Progress (ε : Type) where
  | idle
  | startSelect (args : StartArgs)
  | startFill (args : StartArgs) (scope : ExactScope)
  | startInsert (args : StartArgs)
  | eventSelect (args : EventArgs ε)
  | eventInsert (args : EventArgs ε)
  | insertEvent (args : EventArgs ε) (lane_id : Nat) (lane_created : Bool)
  | answered (r : Request ε) (a : Answer)

structure St (ν ε : Type) where
  lane : Option (Lane ν)
  events : List (Event ε)
  call : Nat → Progress ε
  next : Nat

inductive Lbl (ε : Type) where
  | begin (c : Nat) (r : Request ε)
  | act (c : Nat)

section Model
variable {ν ε : Type} (O : Outside ν ε) (key : LaneKey)

def St.goto (s : St ν ε) (c : Nat) (x : Progress ε) : St ν ε :=
  { s with call := Function.update s.call c x }

def takesKey : Bool := (O.wire.text key.1).isSome && (O.wire.text key.2).isSome

/-- The row of an insert, where the database takes its values.
mirrors session-lifecycle.ts:159-181, session-events.ts:72-85 -/
def rowToInsert (scope : WrapScope) (others : List Str) : Option (LaneRow ν) :=
  if others.all fun text => (O.wire.text text).isSome then insertedRow O.wire scope else none

def St.create (s : St ν ε) (row : LaneRow ν) : St ν ε :=
  { s with lane := some ⟨s.next, row⟩, next := s.next + 1 }

def isStored (s : St ν ε) (lane_id : Nat) (content : Str) : Bool :=
  s.events.any fun e => decide (e.lane_id = lane_id) && decide (e.content_hash = O.contentHash content)

/-- The start's insert.
mirrors server/db/session-repository.ts:221-231 -/
def insertStartLane (s : St ν ε) (c : Nat) (args : StartArgs) : St ν ε :=
  match rowToInsert O args.scope args.others, s.lane with
  | none, _ => s.goto c (.answered (.start args) (.failed .refused))
  | some _, some _ => s.goto c (.answered (.start args) (.failed .uniqueViolation))
  | some row, none => (s.create row).goto c (.answered (.start args) (.started s.next true))

/-- The append's insert, whose row is `undefined` when a lane is there.
mirrors server/db/session-repository.ts:302-313, session-events.ts:72-87, 145-153 -/
def insertEventLane (s : St ν ε) (c : Nat) (args : EventArgs ε) : St ν ε :=
  match rowToInsert O args.scope args.others, s.lane with
  | none, _ => s.goto c (.answered (.append args) (.failed .refused))
  | some _, some _ => s.goto c (.answered (.append args) (.failed .laneNotFound))
  | some row, none => (s.create row).goto c (.insertEvent args s.next true)

/-- mirrors server/db/session-repository.ts:315-326, session-events.ts:93-122, 155-182 -/
def insertSessionEvent (s : St ν ε) (c : Nat) (args : EventArgs ε) (lane_id : Nat)
    (lane_created : Bool) : St ν ε :=
  if checks args && O.takes args then
    if isStored O s lane_id args.content then s.goto c (.answered (.append args) .duplicate)
    else
      ({ s with events := s.events ++ [⟨lane_id, O.contentHash args.content, args⟩] } : St ν ε).goto c
        (.answered (.append args) (.appended lane_id lane_created))
  else s.goto c (.answered (.append args) (.failed .refused))

/-- The fill of a lane that is there.
mirrors session-lifecycle.ts:132-157 -/
def fillLane (s : St ν ε) (c : Nat) (args : StartArgs) (scope : ExactScope) : St ν ε :=
  match s.lane with
  | none => s.goto c (.answered (.start args) (.failed .scopeMismatch))
  | some lane =>
    match establishStartScope O.wire lane.row scope with
    | .matched row =>
      ({ s with lane := some { lane with row := row } } : St ν ε).goto c
        (.answered (.start args) (.started lane.id false))
    | .unmatched => s.goto c (.answered (.start args) (.failed .scopeMismatch))
    | .raised => s.goto c (.answered (.start args) (.failed .refused))

/-- The start's look-up.
mirrors session-lifecycle.ts:195-224 -/
def startSelect (s : St ν ε) (c : Nat) (args : StartArgs) : St ν ε :=
  if takesKey O key then
    match s.lane, exactScope args.scope with
    | none, _ => s.goto c (.startInsert args)
    | some lane, none => s.goto c (.answered (.start args) (.started lane.id false))
    | some _, some scope => s.goto c (.startFill args scope)
  else s.goto c (.answered (.start args) (.failed .refused))

/-- The append's look-up.
mirrors session-events.ts:66-70, 137-153 -/
def eventSelect (s : St ν ε) (c : Nat) (args : EventArgs ε) : St ν ε :=
  if takesKey O key then
    match s.lane with
    | some lane => s.goto c (.insertEvent args lane.id false)
    | none =>
      if args.create_if_missing then s.goto c (.eventInsert args)
      else s.goto c (.answered (.append args) (.failed .laneNotFound))
  else s.goto c (.answered (.append args) (.failed .refused))

/-- One statement of call `c`.
mirrors session-lifecycle.ts:183-233, session-events.ts:59-90, 125-182 -/
def act (s : St ν ε) (c : Nat) : Option (St ν ε) :=
  match s.call c with
  | .idle | .answered _ _ => none
  | .startSelect args => some (startSelect O key s c args)
  | .startFill args scope => some (fillLane O s c args scope)
  | .startInsert args => some (insertStartLane O s c args)
  | .eventSelect args => some (eventSelect O key s c args)
  | .eventInsert args => some (insertEventLane O s c args)
  | .insertEvent args lane_id lane_created => some (insertSessionEvent O s c args lane_id lane_created)

def Request.first : Request ε → Progress ε
  | .start args => .startSelect args
  | .append args => .eventSelect args

def step (s : St ν ε) : Lbl ε → Option (St ν ε)
  | .begin c r =>
    match s.call c with
    | .idle => some (s.goto c r.first)
    | _ => none
  | .act c => act O key s c

/-! ## Compatible scopes -/

/-- Each coordinate that the request names is the common one. -/
structure Within (common : ExactScope) (scope : WrapScope) : Prop where
  agent : scope.agent = none ∨ scope.agent = some common.agent
  platform : scope.platform = none ∨ scope.platform = some common.platform
  server_id : scope.server_id = none ∨ scope.server_id = some common.server_id
  channel_id : scope.channel_id = none ∨ scope.channel_id = some common.channel_id
  thread_id : scope.thread_id = none ∨ scope.thread_id = common.thread_id

/-- Each coordinate that the lane has is the common one. -/
structure RowWithin (W : Wire ν) (common : ExactScope) (row : LaneRow ν) : Prop where
  agent : row.agent = none ∨ row.agent = W.text common.agent
  source : row.source = none ∨ row.source = W.text common.platform
  server_id : serverIdText W row.metadata = none ∨ serverIdText W row.metadata = W.text common.server_id
  channel_id : row.channel_id = none ∨ row.channel_id = W.text common.channel_id
  thread_id : row.thread_id = none ∨ row.thread_id = common.thread_id.bind W.text
  metadata : ∃ ms, row.metadata = .obj ms

/-- A request of these runs: its scope is within the common one, and an append creates its lane. -/
def Request.Compatible (common : ExactScope) : Request ε → Prop
  | .start args => Within common args.scope
  | .append args => Within common args.scope ∧ args.create_if_missing = true

def CompatibleStep (common : ExactScope) (_ : St ν ε) : Lbl ε → Prop
  | .begin _ r => r.Compatible common
  | .act _ => True

/-- No call is running; a lane that is there is within the common scope, and the table of events is
any table with its unique index. -/
structure Init (W : Wire ν) (common : ExactScope) (s : St ν ε) : Prop where
  idle : ∀ c, s.call c = .idle
  row : ∀ lane, s.lane = some lane → RowWithin W common lane.row
  unique : (s.events.map fun e => (e.lane_id, e.content_hash)).Nodup

def laneSys (common : ExactScope) : LTS (St ν ε) (Lbl ε) := LTS.ofFn (Init O.wire common) (step O key)

/-! ## What the calls are to do -/

def storedAs (s : St ν ε) (lane_id : Nat) (content : Str) : Nat :=
  s.events.countP fun e =>
    decide (e.lane_id = lane_id) && decide (e.content_hash = O.contentHash content)

/-- No call has failed, every answer that names a lane names the one there is, and what a call has
appended is stored there once. -/
structure Holds (s : St ν ε) : Prop where
  succeeds : ∀ c r a, s.call c = .answered r a → a.isFailed = false
  names : ∀ c r a id, s.call c = .answered r a → a.lane? = some id →
    ∃ lane, s.lane = some lane ∧ lane.id = id
  stored : ∀ c args a, s.call c = .answered (.append args) a → a.isFailed = false →
    ∃ lane, s.lane = some lane ∧ storedAs O s lane.id args.content = 1

/-- The condition on a step: an insert of a lane finds none, and the database takes the values of
the statement. -/
def Clear (s : St ν ε) : Lbl ε → Prop
  | .begin _ _ => True
  | .act c =>
    match s.call c with
    | .startSelect _ | .eventSelect _ => takesKey O key = true
    | .startFill _ scope => (scopeParams O.wire scope).isSome = true
    | .startInsert args => s.lane = none ∧ (rowToInsert O args.scope args.others).isSome = true
    | .eventInsert args => s.lane = none ∧ (rowToInsert O args.scope args.others).isSome = true
    | .insertEvent args _ _ => checks args = true ∧ O.takes args = true
    | .idle | .answered _ _ => True

end Model

/-! ## Rows within a scope -/

section Rows
variable {ν : Type} {W : Wire ν} {common : ExactScope} {scope : WrapScope} {row r : LaneRow ν}

theorem optionalText_within {value : Option Str} {v : Str} {column : Option Str}
    (hvalue : value = none ∨ value = some v) (h : optionalText W value = some column) :
    column = none ∨ column = W.text v := by
  rcases hvalue with rfl | rfl
  · cases h
    exact .inl rfl
  · obtain ⟨t, ht, rfl⟩ := Option.map_eq_some_iff.mp h
    exact .inr ht.symm

theorem insertedRow_within (hwire : ∀ s t, W.jsonString s = some t → W.text s = some t)
    (hscope : Within common scope) (h : insertedRow W scope = some row) :
    RowWithin W common row := by
  unfold insertedRow at h
  simp only [Option.bind_eq_bind, Option.bind_eq_some_iff] at h
  obtain ⟨agent, hagent, source, hsource, channel_id, hchannel, thread_id, hthread, h⟩ := h
  have hmetadata : ∃ metadata, row = ⟨agent, source, channel_id, thread_id, metadata⟩ ∧
      (serverIdText W metadata = none ∨ serverIdText W metadata = W.text common.server_id) ∧
      ∃ ms, metadata = .obj ms := by
    split at h
    · cases h
      exact ⟨_, rfl, .inl rfl, _, rfl⟩
    · rename_i hnonempty
      obtain ⟨metadata, hmetadata, h⟩ := Option.bind_eq_some_iff.mp h
      cases h
      obtain ⟨v, hv, rfl⟩ := Option.map_eq_some_iff.mp hmetadata
      refine ⟨_, rfl, .inr ?_, _, rfl⟩
      rcases hscope.server_id with hs | hs
      · rw [hs] at hnonempty
        exact absurd rfl hnonempty
      · rw [hs, Option.getD_some] at hv
        rw [hwire _ _ hv]
        simp [serverIdText, Members.get?]
  obtain ⟨metadata, rfl, hserver⟩ := hmetadata
  refine ⟨optionalText_within hscope.agent hagent, optionalText_within hscope.platform hsource,
    hserver.1, optionalText_within hscope.channel_id hchannel, ?_, hserver.2⟩
  rcases hscope.thread_id with ht | ht
  · rw [ht] at hthread
    cases hthread
    exact .inl rfl
  · rw [ht] at hthread
    cases hc : common.thread_id with
    | none =>
      rw [hc] at hthread
      cases hthread
      exact .inl rfl
    | some t =>
      rw [hc] at hthread
      exact optionalText_within (.inr rfl) hthread

theorem exactScope_within {exact : ExactScope} (hscope : Within common scope)
    (h : exactScope scope = some exact) :
    exact.agent = common.agent ∧ exact.platform = common.platform ∧
      exact.server_id = common.server_id ∧ exact.channel_id = common.channel_id ∧
      (exact.thread_id = none ∨ exact.thread_id = common.thread_id) := by
  simp only [exactScope, Option.bind_eq_bind, Option.bind_eq_some_iff] at h
  obtain ⟨agent, hagent, platform, hplatform, server_id, hserver, channel_id, hchannel, h⟩ := h
  cases h
  have heq : ∀ {o : Option Str} {v w : Str}, o = none ∨ o = some w → o = some v → v = w := by
    rintro o v w (rfl | rfl) h
    · cases h
    · exact (Option.some.inj h).symm
  exact ⟨heq hscope.agent hagent, heq hscope.platform hplatform, heq hscope.server_id hserver,
    heq hscope.channel_id hchannel, hscope.thread_id⟩

theorem scopeParams_columns {exact p : ExactScope} (h : scopeParams W exact = some p) :
    W.text exact.agent = some p.agent ∧ W.text exact.platform = some p.platform ∧
      W.text exact.server_id = some p.server_id ∧ W.text exact.channel_id = some p.channel_id ∧
      p.thread_id = exact.thread_id.bind W.text := by
  simp only [scopeParams, Option.bind_eq_bind, Option.bind_eq_some_iff] at h
  obtain ⟨agent, hagent, platform, hplatform, server_id, hserver, channel_id, hchannel, h⟩ := h
  split at h
  · rename_i ht
    cases h
    exact ⟨hagent, hplatform, hserver, hchannel, by rw [ht]; rfl⟩
  · rename_i thread ht
    obtain ⟨t, hthread, rfl⟩ := Option.map_eq_some_iff.mp h
    exact ⟨hagent, hplatform, hserver, hchannel, by rw [ht]; exact hthread.symm⟩

theorem fillScope_metadata {p : ExactScope} {ms : Members ν} (hms : row.metadata = .obj ms)
    (h : fillScope W row p = .matched r) : ∃ ms', r.metadata = .obj ms' := by
  unfold fillScope jsonbSetServerId at h
  rw [hms] at h
  dsimp only at h
  split at h
  · cases h
  · rename_i metadata hm
    cases h
    split at hm <;> cases hm <;> exact ⟨_, rfl⟩

/-- A fill takes a lane within the scope that its request is within, and leaves one. -/
theorem establishStartScope_within {exact p : ExactScope} (hrow : RowWithin W common row)
    (hscope : Within common scope) (hexact : exactScope scope = some exact)
    (hp : scopeParams W exact = some p) :
    ∃ r, establishStartScope W row exact = .matched r ∧ RowWithin W common r := by
  obtain ⟨eagent, esource, eserver, echannel, ethread⟩ := exactScope_within hscope hexact
  obtain ⟨hagent, hsource, hserver, hchannel, hthread⟩ := scopeParams_columns hp
  rw [eagent] at hagent
  rw [esource] at hsource
  rw [eserver] at hserver
  rw [echannel] at hchannel
  obtain ⟨ms, hms⟩ := hrow.metadata
  have hopen : coordinatesOpen W row p = true := coordinatesOpen_iff.mpr
    ⟨hagent ▸ hrow.agent, hsource ▸ hrow.source, hserver ▸ hrow.server_id, hchannel ▸ hrow.channel_id⟩
  have hthreads : startThreadMatches row p = true := by
    rw [startThreadMatches_iff]
    rcases ethread with ht | ht
    · exact .inl (by rw [hthread, ht]; rfl)
    · exact .inr (hthread ▸ ht ▸ hrow.thread_id)
  obtain ⟨r, hr⟩ := isMatched_iff.mp
    ((updateScope_isMatched startThreadMatches).mpr ⟨p, ms, hp, hms, hopen, hthreads⟩)
  refine ⟨r, hr, ?_⟩
  obtain ⟨q, hq, -, -, hfill⟩ := updateScope_matched.mp hr
  obtain rfl : p = q := Option.some.inj (hp.symm.trans hq)
  obtain ⟨ragent, rsource, rchannel, rthread, rserver⟩ := fillScope_columns hfill
  refine ⟨.inr ?_, .inr ?_, .inr ?_, .inr ?_, ?_, fillScope_metadata hms hfill⟩
  · rw [ragent, hagent, or_of_open (hagent ▸ hrow.agent)]
  · rw [rsource, hsource, or_of_open (hsource ▸ hrow.source)]
  · rw [rserver, hserver, or_of_open (hserver ▸ hrow.server_id)]
  · rw [rchannel, hchannel, or_of_open (hchannel ▸ hrow.channel_id)]
  · rw [rthread, hthread]
    rcases hrow.thread_id with h | h
    · rw [h, Option.none_or]
      rcases ethread with ht | ht
      · exact .inl (by rw [ht]; rfl)
      · exact .inr (by rw [ht])
    · rcases ethread with ht | ht
      · rw [ht, Option.bind_none, Option.or_none]
        exact .inr h
      · rw [ht, h, Option.or_self]
        exact .inr rfl

end Rows

/-! ## What the calls rely on -/

section Invariant
variable {ν ε : Type} (O : Outside ν ε) (key : LaneKey) (common : ExactScope)

def St.laneId (s : St ν ε) : Option Nat := s.lane.map Lane.id

/-- What holds of a call at its next statement. -/
def Relies (s : St ν ε) : Progress ε → Prop
  | .idle => True
  | .startSelect args | .startInsert args => Within common args.scope
  | .startFill args scope =>
    Within common args.scope ∧ exactScope args.scope = some scope ∧ s.laneId ≠ none
  | .eventSelect args | .eventInsert args => Within common args.scope ∧ args.create_if_missing = true
  | .insertEvent _ lane_id _ => s.laneId = some lane_id
  | .answered (.start _) a => ∀ id, a.lane? = some id → s.laneId = some id
  | .answered (.append args) a => (∀ id, a.lane? = some id → s.laneId = some id) ∧
      (a.isFailed = false → ∃ id, s.laneId = some id ∧ isStored O s id args.content = true)

structure Inv (s : St ν ε) : Prop where
  row : ∀ lane, s.lane = some lane → RowWithin O.wire common lane.row
  unique : (s.events.map fun e => (e.lane_id, e.content_hash)).Nodup
  relies : ∀ c, Relies O common s (s.call c)

/-- The lane stays the one it is, and no event goes. -/
structure Grows (s t : St ν ε) : Prop where
  lane : ∀ id, s.laneId = some id → t.laneId = some id
  events : ∀ e ∈ s.events, e ∈ t.events

variable {O key common} {s t : St ν ε} {c : Nat}

theorem Grows.refl (s : St ν ε) : Grows s s := ⟨fun _ h => h, fun _ h => h⟩

theorem isStored_iff {id : Nat} {content : Str} : isStored O s id content = true ↔
    ∃ e ∈ s.events, e.lane_id = id ∧ e.content_hash = O.contentHash content := by
  simp [isStored]

theorem Grows.isStored (h : Grows s t) {id : Nat} {content : Str}
    (hs : isStored O s id content = true) : isStored O t id content = true := by
  obtain ⟨e, he, hkey⟩ := isStored_iff.mp hs
  exact isStored_iff.mpr ⟨e, h.events e he, hkey⟩

theorem Relies.grow (h : Grows s t) {x : Progress ε} (hx : Relies O common s x) :
    Relies O common t x := by
  cases x with
  | startFill args scope =>
    obtain ⟨hwithin, hexact, hlane⟩ := hx
    obtain ⟨id, hid⟩ := Option.ne_none_iff_exists'.mp hlane
    exact ⟨hwithin, hexact, by rw [h.lane id hid]; exact Option.some_ne_none id⟩
  | insertEvent args lane_id lane_created => exact h.lane _ hx
  | answered r a =>
    cases r with
    | start args => exact fun id hid => h.lane id (hx id hid)
    | append args =>
      refine ⟨fun id hid => h.lane id (hx.1 id hid), fun ha => ?_⟩
      obtain ⟨id, hid, hstored⟩ := hx.2 ha
      exact ⟨id, h.lane id hid, h.isStored hstored⟩
  | idle | startSelect | startInsert | eventSelect | eventInsert => exact hx

/-- Call `c` goes on to `x` in a state that has grown. -/
theorem Inv.goto (I : Inv O common s) (hgrows : Grows s t) (hcall : t.call = s.call)
    (hrow : ∀ lane, t.lane = some lane → RowWithin O.wire common lane.row)
    (hunique : (t.events.map fun e => (e.lane_id, e.content_hash)).Nodup) {x : Progress ε}
    (hx : Relies O common t x) : Inv O common (t.goto c x) where
  row := hrow
  unique := hunique
  relies d := by
    show Relies O common t (Function.update t.call c x d)
    rw [Function.update_apply]
    split
    · exact hx
    · rw [hcall]
      exact (I.relies d).grow hgrows

theorem Inv.move (I : Inv O common s) {x : Progress ε} (hx : Relies O common s x) :
    Inv O common (s.goto c x) :=
  I.goto (Grows.refl s) rfl I.row I.unique hx

@[simp] theorem goto_self (t : St ν ε) (c : Nat) (x : Progress ε) : (t.goto c x).call c = x := by
  unfold St.goto
  exact Function.update_self _ _ _

theorem goto_other (t : St ν ε) (x : Progress ε) {d : Nat} (h : d ≠ c) :
    (t.goto c x).call d = t.call d := by
  unfold St.goto
  exact Function.update_of_ne h _ _

/-- What a statement of call `c` does, when it succeeds under `clear`. -/
structure Does (O : Outside ν ε) (common : ExactScope) (s : St ν ε) (c : Nat) (clear : Prop)
    (s' : St ν ε) : Prop where
  inv : Inv O common s'
  others : ∀ d, d ≠ c → s'.call d = s.call d
  good : clear → ∀ r a, s'.call c = .answered r a → a.isFailed = false
  bad : ¬clear → ∃ r a, s'.call c = .answered r a ∧ a.isFailed = true

theorem Does.fail (I : Inv O common s) {clear : Prop} (hclear : ¬clear) {r : Request ε} {f : Failure} :
    Does O common s c clear (s.goto c (.answered r (.failed f))) where
  inv := I.move <| match r with
    | .start _ => nofun
    | .append _ => ⟨nofun, nofun⟩
  others d hd := goto_other s _ hd
  good h := absurd h hclear
  bad _ := ⟨r, .failed f, goto_self s c _, rfl⟩

theorem Does.pass (t : St ν ε) (x : Progress ε) {clear : Prop} (hclear : clear)
    (hcall : t.call = s.call) (hinv : Inv O common (t.goto c x))
    (hx : ∀ r a, x = .answered r a → a.isFailed = false) : Does O common s c clear (t.goto c x) where
  inv := hinv
  others d hd := (goto_other t x hd).trans (congrFun hcall d)
  good _ r a h := hx r a ((goto_self t c x).symm.trans h)
  bad h := absurd hclear h

theorem insertedRow_of_rowToInsert {scope : WrapScope} {others : List Str} {row : LaneRow ν}
    (h : rowToInsert O scope others = some row) : insertedRow O.wire scope = some row := by
  unfold rowToInsert at h
  split at h
  · exact h
  · cases h

theorem grows_create (hlane : s.lane = none) (row : LaneRow ν) : Grows s (s.create row) where
  lane id h := by
    rw [St.laneId, hlane] at h
    cases h
  events _ h := h

section Statements
variable (hwire : ∀ s t, O.wire.jsonString s = some t → O.wire.text s = some t)
include hwire

theorem inv_create (I : Inv O common s) {scope : WrapScope} {others : List Str} {row : LaneRow ν}
    (hscope : Within common scope) (hlane : s.lane = none)
    (hrow : rowToInsert O scope others = some row) {x : Progress ε}
    (hx : Relies O common (s.create row) x) : Inv O common ((s.create row).goto c x) := by
  refine I.goto (grows_create hlane row) rfl ?_ I.unique hx
  rintro lane ⟨⟩
  exact insertedRow_within hwire hscope (insertedRow_of_rowToInsert hrow)

theorem insertStartLane_does (I : Inv O common s) {args : StartArgs} (hscope : Within common args.scope) :
    Does O common s c (s.lane = none ∧ (rowToInsert O args.scope args.others).isSome = true)
      (insertStartLane O s c args) := by
  unfold insertStartLane
  split
  · rename_i hrow
    exact .fail I fun h => by rw [hrow] at h; cases h.2
  · rename_i hlane
    exact .fail I fun h => by rw [hlane] at h; cases h.1
  · rename_i row hrow hlane
    refine .pass (s.create row) (.answered (.start args) (.started s.next true))
      ⟨hlane, by rw [hrow]; rfl⟩ rfl (inv_create hwire I hscope hlane hrow ?_) ?_
    · rintro id ⟨⟩
      rfl
    · rintro r a ⟨⟩
      rfl

theorem insertEventLane_does (I : Inv O common s) {args : EventArgs ε}
    (hscope : Within common args.scope) :
    Does O common s c (s.lane = none ∧ (rowToInsert O args.scope args.others).isSome = true)
      (insertEventLane O s c args) := by
  unfold insertEventLane
  split
  · rename_i hrow
    exact .fail I fun h => by rw [hrow] at h; cases h.2
  · rename_i hlane
    exact .fail I fun h => by rw [hlane] at h; cases h.1
  · rename_i row hrow hlane
    exact .pass (s.create row) (.insertEvent args s.next true) ⟨hlane, by rw [hrow]; rfl⟩ rfl
      (inv_create hwire I hscope hlane hrow rfl) fun _ _ h => by cases h

omit hwire in
theorem fillLane_does (I : Inv O common s) {args : StartArgs} {scope : ExactScope}
    (hscope : Within common args.scope) (hexact : exactScope args.scope = some scope)
    (hlane : s.laneId ≠ none) :
    Does O common s c ((scopeParams O.wire scope).isSome = true) (fillLane O s c args scope) := by
  unfold fillLane
  cases hl : s.lane with
  | none => exact absurd (by rw [St.laneId, hl]; rfl) hlane
  | some lane =>
    dsimp only
    cases hp : scopeParams O.wire scope with
    | none =>
      have hraised : establishStartScope O.wire lane.row scope = .raised := by
        rw [establishStartScope, updateScope, hp]
      rw [hraised]
      exact .fail I nofun
    | some p =>
      obtain ⟨r, hr, hwithin⟩ := establishStartScope_within (I.row lane hl) hscope hexact hp
      rw [hr]
      have hgrows : Grows s { s with lane := some { lane with row := r } } :=
        ⟨fun id h => by rw [St.laneId, hl] at h; exact h, fun _ h => h⟩
      refine .pass { s with lane := some { lane with row := r } }
        (.answered (.start args) (.started lane.id false)) rfl rfl (I.goto hgrows rfl ?_ I.unique ?_) ?_
      · rintro _ ⟨⟩
        exact hwithin
      · rintro id ⟨⟩
        rfl
      · rintro _ a ⟨⟩
        rfl

omit hwire in
theorem insertSessionEvent_does (I : Inv O common s) {args : EventArgs ε} {lane_id : Nat}
    {lane_created : Bool} (hlane : s.laneId = some lane_id) :
    Does O common s c (checks args = true ∧ O.takes args = true)
      (insertSessionEvent O s c args lane_id lane_created) := by
  unfold insertSessionEvent
  split
  · rename_i htakes
    have htakes := (Bool.and_eq_true _ _).mp htakes
    split
    · rename_i hstored
      refine .pass s (.answered (.append args) .duplicate) htakes rfl
        (I.move ⟨nofun, fun _ => ⟨lane_id, hlane, hstored⟩⟩) ?_
      rintro r a ⟨⟩
      rfl
    · rename_i hnew
      have hgrows : Grows s { s with
          events := s.events ++ [⟨lane_id, O.contentHash args.content, args⟩] } :=
        ⟨fun _ h => h, fun _ h => mem_append_left _ h⟩
      refine .pass { s with events := s.events ++ [⟨lane_id, O.contentHash args.content, args⟩] }
        (.answered (.append args) (.appended lane_id lane_created)) htakes rfl
        (I.goto hgrows rfl I.row ?_ ⟨?_, fun _ => ⟨lane_id, hlane, ?_⟩⟩) ?_
      · rw [map_append]
        refine nodup_append.mpr ⟨I.unique, nodup_singleton _, ?_⟩
        rintro k hk _ hk' rfl
        obtain ⟨e, he, rfl⟩ := mem_map.mp hk
        obtain ⟨hid, hhash⟩ := Prod.mk.inj (mem_singleton.mp hk')
        exact hnew (isStored_iff.mpr ⟨e, he, hid, hhash⟩)
      · rintro id ⟨⟩
        exact hlane
      · exact isStored_iff.mpr ⟨_, mem_append_right _ (mem_singleton_self _), rfl, rfl⟩
      · rintro r a ⟨⟩
        rfl
  · rename_i htakes
    exact .fail I fun h => htakes ((Bool.and_eq_true _ _).mpr h)

omit hwire in
theorem startSelect_does (I : Inv O common s) {args : StartArgs} (hscope : Within common args.scope) :
    Does O common s c (takesKey O key = true) (startSelect O key s c args) := by
  unfold startSelect
  split
  · rename_i hkey
    split
    · exact .pass s (.startInsert args) hkey rfl (I.move hscope) fun _ _ h => by cases h
    · rename_i lane hl hexact
      refine .pass s (.answered (.start args) (.started lane.id false)) hkey rfl (I.move ?_) ?_
      · rintro id ⟨⟩
        rw [St.laneId, hl]
        rfl
      · rintro r a ⟨⟩
        rfl
    · rename_i lane scope hl hexact
      refine .pass s (.startFill args scope) hkey rfl (I.move ⟨hscope, hexact, ?_⟩)
        fun _ _ h => by cases h
      rw [St.laneId, hl]
      exact Option.some_ne_none _
  · rename_i hkey
    exact .fail I hkey

omit hwire in
theorem eventSelect_does (I : Inv O common s) {args : EventArgs ε} (hscope : Within common args.scope)
    (hcreate : args.create_if_missing = true) :
    Does O common s c (takesKey O key = true) (eventSelect O key s c args) := by
  unfold eventSelect
  split
  · rename_i hkey
    split
    · rename_i lane hl
      refine .pass s (.insertEvent args lane.id false) hkey rfl (I.move ?_) fun _ _ h => by cases h
      show s.laneId = _
      rw [St.laneId, hl]
      rfl
    · exact .pass s (.eventInsert args) hkey rfl (I.move ⟨hscope, hcreate⟩) fun _ _ h => by cases h
  · rename_i hkey
    exact .fail I hkey

/-- One statement of a call fails unless the step is clear. -/
theorem act_does (I : Inv O common s) {s' : St ν ε} (h : act O key s c = some s') :
    Does O common s c (Clear O key s (.act c)) s' := by
  have hrelies := I.relies c
  unfold act at h
  unfold Clear
  dsimp only
  cases hcall : s.call c with
  | idle | answered =>
    rw [hcall] at h
    cases h
  | startSelect args =>
    rw [hcall] at h hrelies
    cases h
    exact startSelect_does I hrelies
  | startFill args scope =>
    rw [hcall] at h hrelies
    cases h
    exact fillLane_does I hrelies.1 hrelies.2.1 hrelies.2.2
  | startInsert args =>
    rw [hcall] at h hrelies
    cases h
    exact insertStartLane_does hwire I hrelies
  | eventSelect args =>
    rw [hcall] at h hrelies
    cases h
    exact eventSelect_does I hrelies.1 hrelies.2
  | eventInsert args =>
    rw [hcall] at h hrelies
    cases h
    exact insertEventLane_does hwire I hrelies.1
  | insertEvent args lane_id lane_created =>
    rw [hcall] at h hrelies
    cases h
    exact insertSessionEvent_does I hrelies

/-! ## Runs -/

def NoneFailed (s : St ν ε) : Prop := ∀ c r a, s.call c = .answered r a → a.isFailed = false

theorem inv_step (I : Inv O common s) {l : Lbl ε} (hl : CompatibleStep common s l) {s' : St ν ε}
    (h : step O key s l = some s') : Inv O common s' := by
  cases l with
  | begin c r =>
    unfold step at h
    dsimp only at h
    split at h
    · cases h
      refine I.move ?_
      cases r with
      | start args => exact hl
      | append args => exact hl
    · cases h
  | act c => exact (act_does hwire I h).inv

theorem answered_step (I : Inv O common s) {l : Lbl ε} {s' : St ν ε} (h : step O key s l = some s')
    {r : Request ε} {a : Answer} (hc : s.call c = .answered r a) : s'.call c = .answered r a := by
  cases l with
  | begin d r' =>
    unfold step at h
    dsimp only at h
    split at h
    · rename_i hd
      cases h
      have hne : c ≠ d := fun heq => by rw [← heq, hc] at hd; cases hd
      rw [goto_other s _ hne, hc]
    · cases h
  | act d =>
    have hne : c ≠ d := fun heq => by
      have hact : act O key s d = some s' := h
      rw [← heq, act, hc] at hact
      cases hact
    rw [(act_does hwire I h).others c hne, hc]

/-- A failure stays. -/
theorem failed_run (I : Inv O common s) {ls : List (Lbl ε)} {s' : St ν ε}
    (hrun : (laneSys O key common).RunOn (CompatibleStep common) s ls s') {r : Request ε} {a : Answer}
    (hc : s.call c = .answered r a) : s'.call c = .answered r a := by
  induction hrun with
  | nil s => exact hc
  | cons hl hstep _ ih => exact ih (inv_step hwire I hl hstep) (answered_step hwire I hstep hc)

theorem inv_run (I : Inv O common s) {ls : List (Lbl ε)} {s' : St ν ε}
    (hrun : (laneSys O key common).RunOn (CompatibleStep common) s ls s') : Inv O common s' :=
  hrun.keeps (fun _ _ _ I hl hstep => inv_step hwire I hl hstep) I

theorem noneFailed_step (I : Inv O common s) {l : Lbl ε} {s' : St ν ε}
    (h : step O key s l = some s') (hnone : NoneFailed s) : NoneFailed s' ↔ Clear O key s l := by
  cases l with
  | begin c r =>
    refine iff_of_true (fun d r' a hd => ?_) trivial
    unfold step at h
    dsimp only at h
    split at h
    · cases h
      by_cases hdc : d = c
      · subst hdc
        rw [goto_self] at hd
        cases r <;> cases hd
      · rw [goto_other s _ hdc] at hd
        exact hnone d r' a hd
    · cases h
  | act c =>
    have hdoes := act_does hwire I h
    constructor
    · intro hall
      by_contra hclear
      obtain ⟨r, a, hc, ha⟩ := hdoes.bad hclear
      rw [hall c r a hc] at ha
      cases ha
    · intro hclear d r a hd
      by_cases hdc : d = c
      · subst hdc
        exact hdoes.good hclear r a hd
      · rw [hdoes.others d hdc] at hd
        exact hnone d r a hd

theorem noneFailed_run (I : Inv O common s) {ls : List (Lbl ε)} {s' : St ν ε}
    (hrun : (laneSys O key common).RunOn (CompatibleStep common) s ls s') (hnone : NoneFailed s) :
    NoneFailed s' ↔ (laneSys O key common).RunOn (Clear O key) s ls s' := by
  induction hrun with
  | nil s => exact iff_of_true hnone (.nil s)
  | @cons s t u l ls hl hstep hrest ih =>
    have hfirst := noneFailed_step hwire I hstep hnone
    have I' := inv_step hwire I hl hstep
    by_cases hclear : Clear O key s l
    · refine (ih I' (hfirst.mpr hclear)).trans ⟨fun h => .cons hclear hstep h, ?_⟩
      rintro (_ | ⟨-, hstep', h⟩)
      rwa [Option.some.inj ((show step O key s l = some t from hstep).symm.trans hstep')]
    · refine iff_of_false (fun hu => ?_) ?_
      · cases l with
        | begin c r => exact hclear trivial
        | act c =>
          obtain ⟨r, a, hc, ha⟩ := (act_does hwire I hstep).bad hclear
          rw [hu c r a (failed_run hwire I' hrest hc)] at ha
          cases ha
      · rintro (_ | ⟨hclear', -, -⟩)
        exact hclear hclear'

omit hwire in
theorem storedAs_eq_one (I : Inv O common s) {id : Nat} {content : Str}
    (h : isStored O s id content = true) : storedAs O s id content = 1 := by
  obtain ⟨e, he, hid, hhash⟩ := isStored_iff.mp h
  have hcount : (s.events.map fun e => (e.lane_id, e.content_hash)).count (id, O.contentHash content) = 1 :=
    count_eq_one_of_mem I.unique (mem_map.mpr ⟨e, he, Prod.ext hid hhash⟩)
  rw [List.count, countP_map] at hcount
  refine Eq.trans (countP_congr fun e' _ => ?_) hcount
  simp

omit hwire in
theorem holds_iff (I : Inv O common s) : Holds O s ↔ NoneFailed s := by
  refine ⟨fun h => h.succeeds, fun hnone => ⟨hnone, fun c r a id hc hid => ?_, fun c args a hc ha => ?_⟩⟩
  · have hrelies := I.relies c
    rw [hc] at hrelies
    have hlane : s.laneId = some id := by
      cases r with
      | start args => exact hrelies id hid
      | append args => exact hrelies.1 id hid
    exact Option.map_eq_some_iff.mp hlane
  · have hrelies := I.relies c
    rw [hc] at hrelies
    obtain ⟨id, hid, hstored⟩ := hrelies.2 ha
    obtain ⟨lane, hlane, rfl⟩ := Option.map_eq_some_iff.mp hid
    exact ⟨lane, hlane, storedAs_eq_one I hstored⟩

end Statements

end Invariant

/-! ## The law -/

/-- In every run of calls with compatible scopes on one key, all calls succeed, name the one lane
and have stored what they appended there once, exactly when no insert of a lane finds one and the
database takes the values of each statement. -/
theorem find_or_create_iff {ν ε : Type} (O : Outside ν ε)
    (hwire : ∀ s t, O.wire.jsonString s = some t → O.wire.text s = some t) (key : LaneKey)
    (common : ExactScope) {s₀ s : St ν ε} {ls : List (Lbl ε)} (hinit : Init O.wire common s₀)
    (hrun : (laneSys O key common).RunOn (CompatibleStep common) s₀ ls s) :
    Holds O s ↔ (laneSys O key common).RunOn (Clear O key) s₀ ls s := by
  have I : Inv O common s₀ :=
    ⟨hinit.row, hinit.unique, fun c => by rw [hinit.idle c]; trivial⟩
  have hnone : NoneFailed s₀ := fun c r a hc => by
    rw [hinit.idle c] at hc
    cases hc
  exact (holds_iff (inv_run hwire I hrun)).trans (noneFailed_run hwire I hrun hnone)

/-! ## Two runs -/

/-- A database that stores every text as it is. -/
def sampleOutside : Outside Unit Unit where
  wire := ⟨some, some, fun _ => []⟩
  contentHash := id
  takes _ := true

def sampleKey : LaneKey := (units "ns", units "k")

def sampleScope : ExactScope := ⟨units "a", units "p", units "s", units "c", none⟩

/-- A request that names no coordinate. -/
def noScope : WrapScope := ⟨none, none, none, none, none⟩

theorem noScope_within : Within sampleScope noScope := ⟨.inl rfl, .inl rfl, .inl rfl, .inl rfl, .inl rfl⟩

def sampleAppend : Request Unit := .append ⟨noScope, [], units "x", none, none, none, (), true⟩

def sampleStart : Request Unit := .start ⟨noScope, []⟩

/-- No lane, no event. -/
def sampleInit : St Unit Unit := ⟨none, [], fun _ => .idle, 0⟩

theorem init_sample : Init sampleOutside.wire sampleScope sampleInit :=
  ⟨fun _ => rfl, fun _ h => (nomatch h), nodup_nil⟩

theorem run_step {G : St Unit Unit → Lbl Unit → Prop} {s t : St Unit Unit} {ls : List (Lbl Unit)}
    (h : (laneSys sampleOutside sampleKey sampleScope).RunOn G sampleInit ls s) (l : Lbl Unit)
    (hl : G s l) (hstep : step sampleOutside sampleKey s l = some t) :
    (laneSys sampleOutside sampleKey sampleScope).RunOn G sampleInit (ls ++ [l]) t :=
  h.append (.cons hl hstep (.nil t))

theorem run_nil {G : St Unit Unit → Lbl Unit → Prop} :
    (laneSys sampleOutside sampleKey sampleScope).RunOn G sampleInit [] sampleInit := .nil _

/-- An append by itself makes its lane and stores its event. -/
theorem find_or_create_alone : ∃ s, (laneSys sampleOutside sampleKey sampleScope).RunOn
      (CompatibleStep sampleScope) sampleInit [.begin 0 sampleAppend, .act 0, .act 0, .act 0] s ∧
    Holds sampleOutside s := by
  have r₁ := run_step (G := CompatibleStep sampleScope) run_nil (.begin 0 sampleAppend)
    ⟨noScope_within, rfl⟩ rfl
  have r₂ := run_step r₁ (.act 0) trivial rfl
  have r₃ := run_step r₂ (.act 0) trivial rfl
  have r₄ := run_step r₃ (.act 0) trivial rfl
  refine ⟨_, r₄, ?_⟩
  refine (find_or_create_iff sampleOutside (fun _ _ h => h) sampleKey sampleScope init_sample r₄).mpr ?_
  have c₁ := run_step (G := Clear sampleOutside sampleKey) run_nil (.begin 0 sampleAppend) trivial rfl
  have c₂ := run_step c₁ (.act 0) rfl rfl
  have c₃ := run_step c₂ (.act 0) ⟨rfl, rfl⟩ rfl
  exact run_step c₃ (.act 0) ⟨rfl, rfl⟩ rfl

/-- Three calls look for the lane before any has made it. The first makes it, the second, a start,
meets the unique constraint, and the third, an append, is told that there is no lane. -/
theorem find_or_create_race :
    ¬∀ (O : Outside Unit Unit) (key : LaneKey) (common : ExactScope) (s₀ s : St Unit Unit)
      (ls : List (Lbl Unit)), Init O.wire common s₀ →
      (laneSys O key common).RunOn (CompatibleStep common) s₀ ls s → Holds O s := by
  intro hall
  have r₁ := run_step (G := CompatibleStep sampleScope) run_nil (.begin 0 sampleAppend)
    ⟨noScope_within, rfl⟩ rfl
  have r₂ := run_step r₁ (.begin 1 sampleStart) noScope_within rfl
  have r₃ := run_step r₂ (.begin 2 sampleAppend) ⟨noScope_within, rfl⟩ rfl
  have r₄ := run_step r₃ (.act 0) trivial rfl
  have r₅ := run_step r₄ (.act 1) trivial rfl
  have r₆ := run_step r₅ (.act 2) trivial rfl
  have r₇ := run_step r₆ (.act 0) trivial rfl
  have r₈ := run_step r₇ (.act 1) trivial rfl
  have r₉ := run_step r₈ (.act 2) trivial rfl
  have hholds := hall _ _ _ _ _ _ init_sample r₉
  have happend := hholds.succeeds 2 sampleAppend (.failed .laneNotFound) rfl
  cases happend

end OpenBrain.Server.Session.FindOrCreate
