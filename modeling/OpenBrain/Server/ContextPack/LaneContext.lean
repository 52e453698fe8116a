import OpenBrain.Server.ContextPack.DurableMemory

/-!
# `durable_lane_context`: the exact-scope lane and its events

`server/tools/context-pack-durable-lane.ts` over the two tables its statements
read (`server/db/context-pack-repository.ts`). Both event reads of a pack order
by `created_at DESC, id DESC`; `ContextTables` keeps the events in that order,
so a read of it is a filter.

Columns that are only passed through are JSON values.
-/
namespace OpenBrain.Server.ContextPack

open OpenBrain.Core

variable {ν : Type} (N : Ecma.Numbers ν)

/-! ## The tables -/

/-- A row of `ob_session_lanes`; `serverId` is `metadata->>'server_id'`. -/
structure LaneRow (ν : Type) where
  id : Str
  «namespace» : Str
  sessionKey : Str
  agent : Option Str
  source : Option Str
  serverId : Option Str
  channelId : Option Str
  threadId : Option Str
  currentContextMd : Option Str
  status : Json ν
  project : Json ν
  topic : Json ν
  updatedAt : Json ν

/-- A row of `ob_session_events`; the last five are read from its metadata. -/
structure EventRow (ν : Type) where
  id : Str
  laneId : Str
  content : Option Str
  eventType : Json ν
  source : Json ν
  importance : Json ν
  artifactPath : Json ν
  transcriptRef : Json ν
  occurredAt : Json ν
  createdAt : Json ν
  memoryLifecycleAction : Option Str
  candidateType : Option Str
  candidateReason : Option Str
  candidateConfidence : Option ν
  candidateScope : Json ν

/-- A row of `ob_entities` of type `repo_fact` that is not archived. -/
structure EntityRow (ν : Type) where
  id : Str
  «namespace» : Str
  metadata : Members ν

/-- The tables under a pack: the events newest first, the entities as last
updated, each id once. -/
structure ContextTables (ν : Type) where
  lanes : List (LaneRow ν)
  events : List (EventRow ν)
  entities : List (EntityRow ν)
  lanes_nodup : (lanes.map LaneRow.id).Nodup
  events_nodup : (events.map EventRow.id).Nodup
  entities_nodup : (entities.map EntityRow.id).Nodup

/-- The seven coordinates of a lane. -/
structure LaneScope where
  «namespace» : Str
  sessionKey : Str
  agent : Str
  platform : Str
  serverId : Str
  channelId : Str
  threadId : Option Str
  deriving DecidableEq, Repr

/-- mirrors server/db/context-pack-repository.ts:198-207 -/
def LaneScope.covers (s : LaneScope) (lane : LaneRow ν) : Bool :=
  decide (lane.«namespace» = s.«namespace» ∧ lane.sessionKey = s.sessionKey ∧
    lane.agent = some s.agent ∧ lane.source = some s.platform ∧
    lane.serverId = some s.serverId ∧ lane.channelId = some s.channelId ∧
    lane.threadId = s.threadId)

namespace ContextTables

variable (t : ContextTables ν)

def laneOfEvent (e : EventRow ν) : Option (LaneRow ν) :=
  t.lanes.find? fun lane => decide (lane.id = e.laneId)

def selectContextPackLane (s : LaneScope) : Option (LaneRow ν) := t.lanes.find? s.covers

/-- mirrors server/db/context-pack-repository.ts:213-226 -/
def selectContextPackLaneEvents (laneId : Str) (s : LaneScope) : List (EventRow ν) :=
  t.events.filter fun e => decide (e.laneId = laneId) && (t.laneOfEvent e).any s.covers

/-- mirrors server/db/context-pack-repository.ts:144-157 -/
def selectGuidanceRows («namespace» candidateType : Str) : List (EventRow ν) :=
  t.events.filter fun e =>
    (t.laneOfEvent e).any (fun lane => decide (lane.«namespace» = «namespace»)) &&
    decide (e.candidateType = some candidateType) &&
    e.memoryLifecycleAction.any
      [units "promote", units "relegate", units "discard"].contains

end ContextTables

/-! ## Events of the lane -/

def eventCitationId (id : Str) : Str := units "session_event:" ++ id

def laneCitationId (id : Str) : Str := units "session_lane:" ++ id

structure LaneEvents (ν : Type) where
  events : List (Json ν)
  citations : List (Members ν)
  remainingChars : Option Nat
  eventsTruncated : Bool

def laneEvent (row : EventRow ν) (text : Str) : Json ν :=
  .obj [(units "id", .str row.id), (units "event_type", row.eventType),
    (units "content", .str text), (units "source", row.source),
    (units "importance", row.importance), (units "artifact_path", row.artifactPath),
    (units "transcript_ref", row.transcriptRef), (units "occurred_at", row.occurredAt),
    (units "created_at", row.createdAt), (units "citation_id", .str (eventCitationId row.id))]

def laneEventCitation (row : EventRow ν) : Members ν :=
  [(units "id", .str (eventCitationId row.id)), (units "kind", .str (units "session_event")),
    (units "source_ref", .str (units "ob_session_events/" ++ row.id)),
    (units "transcript_ref", row.transcriptRef), (units "artifact_path", row.artifactPath)]

def laneCitation (laneId : Str) : Members ν :=
  [(units "id", .str (laneCitationId laneId)), (units "kind", .str (units "session_lane")),
    (units "source_ref", .str (units "ob_session_lanes/" ++ laneId))]

/-- The loop over the rows, newest first; it breaks off at a row it can show
nothing of.
mirrors server/tools/context-pack-durable-lane.ts:167-195 -/
def collectLaneEvents : Option Nat → List (EventRow ν) → LaneEvents ν
  | remaining, [] => ⟨[], [], remaining, false⟩
  | remaining, row :: rows =>
    let bounded := boundedText row.content remaining
    match bounded.text with
    | none => ⟨[], [], remaining, hasText row.content⟩
    | some text =>
      let rest := collectLaneEvents (remaining.map (· - text.length)) rows
      { events := laneEvent row text :: rest.events
        citations := laneEventCitation row :: rest.citations
        remainingChars := rest.remainingChars
        eventsTruncated := bounded.truncated || rest.eventsTruncated }

/-- mirrors server/tools/context-pack-durable-lane.ts:202-225 -/
def laneTruncationEntries (contextTruncated eventsTruncated : Bool)
    (maxContentChars : Option Nat) : List (Members ν) :=
  (if contextTruncated then
    [[(units "source", .str (units "durable_lane_context.current_context_md")),
      (units "max_chars", .num (N.ofNat (maxContentChars.getD unbounded)))]]
   else []) ++
  (if eventsTruncated then
    [[(units "source", .str (units "durable_lane_context.events")),
      (units "max_events", .num (N.ofNat unbounded)),
      (units "max_event_chars", .num (N.ofNat unbounded)),
      (units "content_char_limit", .num (N.ofNat (maxContentChars.getD unbounded)))]]
   else [])

/-! ## The loader -/

def laneMember (s : LaneScope) (lane : LaneRow ν) (contextMd : Option Str) : Members ν :=
  [(units "id", .str lane.id), (units "session_key", .str lane.sessionKey),
    (units "status", lane.status), (units "agent", orNull lane.agent),
    (units "platform", orNull lane.source), (units "server_id", .str s.serverId),
    (units "channel_id", orNull lane.channelId), (units "thread_id", orNull lane.threadId),
    (units "project", lane.project), (units "topic", lane.topic),
    (units "current_context_md", orNull contextMd), (units "updated_at", lane.updatedAt),
    (units "citation_id", .str (laneCitationId lane.id))]

/-- The section of a lane, its events oldest first.
mirrors server/tools/context-pack-durable-lane.ts:278-301 -/
def laneBody (s : LaneScope) (lane : LaneRow ν) (contextMd : Option Str)
    (collected : LaneEvents ν) (truncation : List (Members ν)) : Members ν :=
  [(units "label", .str (units "durable_lane_context")),
    (units "exact_scope_required", .bool true),
    (units "lane", .obj (laneMember s lane contextMd)),
    (units "events", .arr collected.events.reverse),
    (units "event_count", .num (N.ofNat collected.events.length)),
    (units "truncated", .bool (!truncation.isEmpty))]

/-- `none` from the tables is a failed read. The checkpoint takes at most half
of a limit.
mirrors server/tools/context-pack-durable-lane.ts:236-356,100-112 -/
def loadDurableLaneContext (tables : Option (ContextTables ν)) (s : LaneScope)
    (maxTokens contentCharLimit : Option Nat) : LaneContext ν :=
  let maxContentChars := resolveContentChars maxTokens contentCharLimit
  match tables with
  | none => ⟨none, [], [], [[(units "source", .str (units "durable_lane_context")),
      (units "reason", .str (units "database_unavailable"))]], []⟩
  | some t =>
    match t.selectContextPackLane s with
    | none => ⟨none, [[(units "source", .str (units "durable_lane_context")),
        (units "reasons", .arr [.str (units "exact_scope")])]], [], [], []⟩
    | some lane =>
      let context := boundedText lane.currentContextMd (maxContentChars.map (· / 2))
      let collected := collectLaneEvents
        (maxContentChars.map (· - (context.text.getD []).length))
        (t.selectContextPackLaneEvents lane.id s)
      let truncation :=
        laneTruncationEntries N context.truncated collected.eventsTruncated maxContentChars
      ⟨some (laneBody N s lane context.text collected truncation), [], truncation, [],
        laneCitation lane.id :: collected.citations⟩

/-! ## Which events are shown -/

variable {N}

@[simp] theorem strField_laneEvent (row : EventRow ν) (text : Str) :
    strField (units "citation_id") (laneEvent row text) = some (eventCitationId row.id) := rfl

@[simp] theorem strField_laneEventCitation (row : EventRow ν) :
    strField (units "id") (.obj (laneEventCitation row)) = some (eventCitationId row.id) := rfl

@[simp] theorem strField_laneCitation (laneId : Str) :
    strField (units "id") (.obj (laneCitation laneId) : Json ν) = some (laneCitationId laneId) := rfl

/-- The newest events up to the first without a body. -/
def leadingRun (rows : List (EventRow ν)) : List (EventRow ν) :=
  rows.takeWhile fun row => hasText row.content

/-- The events shown are a first part of the leading run, each with its
citation. -/
theorem collectLaneEvents_prefix (remaining : Option Nat) (rows : List (EventRow ν)) :
    ∃ shown, shown <+: leadingRun rows ∧
      citationIds (collectLaneEvents remaining rows).events =
        shown.map (fun row => eventCitationId row.id) ∧
      (collectLaneEvents remaining rows).citations = shown.map laneEventCitation ∧
      (remaining = none → shown = leadingRun rows) := by
  induction rows generalizing remaining with
  | nil => exact ⟨[], List.nil_prefix, rfl, rfl, fun _ => rfl⟩
  | cons row rows ih =>
    cases htext : hasText row.content with
    | false =>
      have hnone : (boundedText row.content remaining).text = none := by
        cases hc : row.content with
        | none => rfl
        | some v =>
          have : v = [] := by simpa [hasText, hc] using htext
          simp [boundedText, this]
      refine ⟨[], List.nil_prefix, by simp [collectLaneEvents, hnone, citationIds],
        by simp [collectLaneEvents, hnone], fun _ => by simp [leadingRun, htext]⟩
    | true =>
      obtain ⟨v, hv, hne⟩ := exists_of_hasText htext
      rcases boundedText_spec hne remaining with ⟨h0, hbt⟩ | ⟨h0, text, truncated, hbt, -⟩
      · refine ⟨[], List.nil_prefix, by simp [collectLaneEvents, hv, hbt, citationIds],
          by simp [collectLaneEvents, hv, hbt], fun h => by simp [h] at h0⟩
      · obtain ⟨shown, hpre, hids, hcits, hall⟩ := ih (remaining.map (· - text.length))
        have hrun : leadingRun (row :: rows) = row :: leadingRun rows := by
          simp [leadingRun, htext]
        refine ⟨row :: shown, ?_, ?_, ?_, fun h => ?_⟩
        · rw [hrun]
          exact List.cons_prefix_cons.mpr ⟨rfl, hpre⟩
        · simpa [collectLaneEvents, hv, hbt, citationIds] using hids
        · simpa [collectLaneEvents, hv, hbt] using hcits
        · rw [hrun, hall (by simp [h])]

end OpenBrain.Server.ContextPack
