import OpenBrain.Core.Ranking
import OpenBrain.Core.Utf16
import Mathlib.Data.Prod.Lex
import Mathlib.Order.Synonym

/-!
# Citation windows (`tools/citation-recall.ts`, `db/session-repository.ts`)

A citation comes with the exchanges on both sides of it. Two queries in opposite orders read one
row more than they return; `window_exact` says that what they return is one slice of the
transcript around the cited event, and when more of it is held back.
-/
namespace OpenBrain.Server.Session
open OpenBrain.Core List

/-! ## The tables -/

/-- A row of `ob_session_lanes`. -/
structure CitedLane where
  id : Nat
  laneNamespace : Str
  session_key : Str

/-- A row of `ob_session_events`. -/
structure CitationEventRow where
  id : Nat
  lane_id : Nat
  event_type : Str
  content : Str
  source : Option Str
  transcript_ref : Option Str
  transcript : Option Str
  occurred_at : Option Nat
  created_at : Nat
  created_by : Str
  deriving DecidableEq

structure CitationTables where
  lanes : List CitedLane
  events : List CitationEventRow
  lanes_pkey : (lanes.map CitedLane.id).Nodup
  events_pkey : (events.map CitationEventRow.id).Nodup

/-- What events are ordered by. mirrors session-repository.ts:484-489 -/
abbrev CitationKey := Nat ×ₗ Nat ×ₗ Nat

def citationKey (event : CitationEventRow) : CitationKey :=
  toLex (event.occurred_at.getD event.created_at, toLex (event.created_at, event.id))

def InNamespace (t : CitationTables) (space : Str) (event : CitationEventRow) : Prop :=
  ∃ lane ∈ t.lanes, lane.id = event.lane_id ∧ lane.laneNamespace = space

/-! ## The queries -/

/-- mirrors session-repository.ts:505-515 -/
def selectCitedEvent (t : CitationTables) (space : Str) (eventId : Nat) :
    Option CitationEventRow :=
  t.events.find? fun event =>
    event.id = eventId &&
      t.lanes.any fun lane => lane.id = event.lane_id && lane.laneNamespace = space

/-- mirrors session-repository.ts:493-498 (`CITATION_CONTEXT_SOURCE`) -/
def contextSource (t : CitationTables) (laneId : Nat) (transcriptRef : Str) :
    List CitationEventRow :=
  t.events.filter fun candidate =>
    candidate.lane_id = laneId && candidate.transcript_ref = some transcriptRef &&
      candidate.transcript.isSome

inductive Side where
  | before
  | after
  deriving DecidableEq

/-- The row that is the target, joined by its id. mirrors session-repository.ts:517-537 -/
def selectCitationNeighbors (t : CitationTables) (laneId : Nat) (transcriptRef : Str)
    (eventId limitPlusOne : Nat) (side : Side) : List CitationEventRow :=
  match t.events.find? fun target => target.id = eventId with
  | none => []
  | some target =>
    match side with
    | .before =>
      (orderBy (fun row => OrderDual.toDual (citationKey row))
        ((contextSource t laneId transcriptRef).filter fun candidate =>
          citationKey candidate < citationKey target)).take limitPlusOne
    | .after =>
      (orderBy citationKey
        ((contextSource t laneId transcriptRef).filter fun candidate =>
          citationKey target < citationKey candidate)).take limitPlusOne

/-! ## The answer -/

/-- One exchange as it is returned. -/
structure Exchange where
  event_id : Nat
  event_type : Str
  speaker : Str
  date : Nat
  transcript : Option Str
  transcript_length : Nat
  transcript_truncated : Bool

/-- mirrors citation-recall.ts:81-92 -/
def transcriptProjection (row : CitationEventRow) (maxChars : Nat) : Exchange :=
  let length := (row.transcript.map List.length).getD 0
  { event_id := row.id
    event_type := row.event_type
    speaker := row.source.getD row.created_by
    date := row.occurred_at.getD row.created_at
    transcript := row.transcript.map (List.take maxChars)
    transcript_length := length
    transcript_truncated := decide (maxChars < length) }

structure CitationRequest where
  requestNamespace : Str
  eventId : Nat
  contextLimit : Nat
  maxChars : Nat

structure StoredCitation where
  fact : Str
  conversation_ref : Option Str
  /-- The cited event itself. -/
  cited : Exchange
  before : List Exchange
  after : List Exchange
  expandable : Bool

inductive Recall where
  | notFound
  | sourceNotStored (event_id : Nat) (fact : Str)
  | stored (citation : StoredCitation)

/-- mirrors citation-recall.ts:226-245 -/
def isExpandable (transcriptTruncated : Bool) (projected : List Exchange)
    (before after : List CitationEventRow) (contextLimit : Nat) : Bool :=
  transcriptTruncated || projected.any Exchange.transcript_truncated ||
    decide (contextLimit < before.length) || decide (contextLimit < after.length)

/-- mirrors citation-recall.ts:248-293 -/
def storedCitationResult (event : CitationEventRow) (before after : List CitationEventRow)
    (request : CitationRequest) : StoredCitation :=
  let before' := (before.take request.contextLimit).reverse.map
    (transcriptProjection · request.maxChars)
  let after' := (after.take request.contextLimit).map (transcriptProjection · request.maxChars)
  let cited := transcriptProjection event request.maxChars
  { fact := event.content
    conversation_ref := event.transcript_ref
    cited := cited
    before := before'
    after := after'
    expandable :=
      isExpandable cited.transcript_truncated (before' ++ after') before after
        request.contextLimit }

/-- mirrors citation-recall.ts:296-322 (`recallCitation`, with `fetchNeighbors`) -/
def recallCitation (t : CitationTables) (request : CitationRequest) : Recall :=
  match selectCitedEvent t request.requestNamespace request.eventId with
  | none => .notFound
  | some event =>
    let transcriptRef := event.transcript_ref.getD []
    if transcriptRef = [] then .sourceNotStored event.id event.content
    else
      let neighbors := selectCitationNeighbors t event.lane_id transcriptRef event.id
        (request.contextLimit + 1)
      .stored (storedCitationResult event (neighbors .before) (neighbors .after) request)

/-! ## The transcript around an event -/

/-- The exchanges of an event's transcript in order: the lane's events with its reference that have
a transcript, and the event. -/
def exchanges (t : CitationTables) (cited : CitationEventRow) : List CitationEventRow :=
  orderBy citationKey (t.events.filter fun event =>
    event.lane_id = cited.lane_id && event.transcript_ref = cited.transcript_ref &&
      (event.transcript.isSome || event.id = cited.id))

/-- A citation returns a slice of its transcript, as many exchanges on each side as are asked for
while there are any; it is expandable when an exchange or a part of one is held back. -/
structure WindowOf (t : CitationTables) (request : CitationRequest) (citation : StoredCitation) :
    Prop where
  slice : ∃ cited ∈ t.events, cited.id = request.eventId ∧
    InNamespace t request.requestNamespace cited ∧
    citation.cited = transcriptProjection cited request.maxChars ∧
    ∃ earlier before after later : List CitationEventRow,
      exchanges t cited = earlier ++ before ++ cited :: after ++ later ∧
      (exchanges t cited).Pairwise (fun a b => citationKey a < citationKey b) ∧
      citation.before = before.map (transcriptProjection · request.maxChars) ∧
      citation.after = after.map (transcriptProjection · request.maxChars) ∧
      before.length ≤ request.contextLimit ∧ after.length ≤ request.contextLimit ∧
      (earlier ≠ [] → before.length = request.contextLimit) ∧
      (later ≠ [] → after.length = request.contextLimit) ∧
      (citation.expandable = true ↔ earlier ≠ [] ∨ later ≠ [] ∨
        ∃ event ∈ before ++ cited :: after,
          request.maxChars < (event.transcript.map List.length).getD 0)

section Exchanges
variable {t : CitationTables} {request : CitationRequest} {cited : CitationEventRow}

theorem eq_of_event_id {event event' : CitationEventRow} (h : event ∈ t.events)
    (h' : event' ∈ t.events) (hid : event.id = event'.id) : event = event' :=
  inj_on_of_nodup_map t.events_pkey h h' hid

theorem citationKey_inj {event event' : CitationEventRow} (h : event ∈ t.events)
    (h' : event' ∈ t.events) (hkey : citationKey event = citationKey event') : event = event' := by
  unfold citationKey at hkey
  rw [toLex_inj, Prod.mk.injEq, toLex_inj, Prod.mk.injEq] at hkey
  exact eq_of_event_id h h' hkey.2.2

theorem find?_target (hcited : cited ∈ t.events) :
    (t.events.find? fun target => target.id = cited.id) = some cited := by
  cases hfind : t.events.find? fun target => target.id = cited.id with
  | none => simpa using find?_eq_none.mp hfind cited hcited
  | some target =>
    have hid : target.id = cited.id := by simpa using find?_some hfind
    rw [eq_of_event_id (mem_of_find?_eq_some hfind) hcited hid]

theorem mem_exchanges {event : CitationEventRow} : event ∈ exchanges t cited ↔
    event ∈ t.events ∧ event.lane_id = cited.lane_id ∧
      event.transcript_ref = cited.transcript_ref ∧
        (event.transcript.isSome = true ∨ event.id = cited.id) := by
  unfold exchanges
  rw [mem_orderBy, mem_filter]
  simp [and_assoc]

theorem pairwise_exchanges (t : CitationTables) (cited : CitationEventRow) :
    (exchanges t cited).Pairwise fun a b => citationKey a < citationKey b := by
  apply pairwise_orderBy
  refine List.Nodup.map_on ?_ ((List.Nodup.of_map _ t.events_pkey).filter _)
  intro event hevent event' hevent' hkey
  exact citationKey_inj (mem_of_mem_filter hevent) (mem_of_mem_filter hevent') hkey

/-- The exchanges in front of the cited one, or behind it, are the rows its query ranges over. -/
theorem perm_side (hcited : cited ∈ t.events) {ref : Str} (href : cited.transcript_ref = some ref)
    {p : CitationKey → Bool} (hp : p (citationKey cited) = false) :
    ((exchanges t cited).filter fun event => p (citationKey event)).Perm
      ((contextSource t cited.lane_id ref).filter fun event => p (citationKey event)) := by
  unfold exchanges contextSource
  refine ((perm_orderBy citationKey _).filter _).trans (List.Perm.of_eq ?_)
  rw [filter_filter, filter_filter]
  apply filter_congr
  intro event hevent
  cases hkey : p (citationKey event) with
  | false => rfl
  | true =>
    -- the cited event is not on this side
    have hid : event.id ≠ cited.id := by
      intro hid
      rw [eq_of_event_id hevent hcited hid, hp] at hkey
      cases hkey
    simp [href, hid]

theorem selectCitationNeighbors_eq (hcited : cited ∈ t.events) {ref : Str}
    (href : cited.transcript_ref = some ref) {pre post : List CitationEventRow}
    (hsplit : exchanges t cited = pre ++ cited :: post) (n : Nat) :
    selectCitationNeighbors t cited.lane_id ref cited.id n .before = pre.reverse.take n ∧
      selectCitationNeighbors t cited.lane_id ref cited.id n .after = post.take n := by
  have hsorted := pairwise_exchanges t cited
  rw [hsplit] at hsorted
  obtain ⟨hpre, hrest, hacross⟩ := pairwise_append.mp hsorted
  obtain ⟨hcitedlt, hpost⟩ := pairwise_cons.mp hrest
  have hbefore : (pre.reverse).Perm ((contextSource t cited.lane_id ref).filter fun event =>
      citationKey event < citationKey cited) := by
    have h := perm_side hcited href (p := fun key => decide (key < citationKey cited)) (by simp)
    rw [hsplit, filter_append, filter_cons_of_neg (by simp), filter_eq_self.mpr,
      filter_eq_nil_iff.mpr, append_nil] at h
    · exact pre.reverse_perm.trans h
    · intro event hevent
      rw [decide_eq_true_eq]
      exact (hcitedlt event hevent).asymm
    · intro event hevent
      exact decide_eq_true (hacross event hevent cited mem_cons_self)
  have hafter : post.Perm ((contextSource t cited.lane_id ref).filter fun event =>
      citationKey cited < citationKey event) := by
    have h := perm_side hcited href (p := fun key => decide (citationKey cited < key)) (by simp)
    rw [hsplit, filter_append, filter_cons_of_neg (by simp), filter_eq_nil_iff.mpr,
      filter_eq_self.mpr, nil_append] at h
    · exact h
    · intro event hevent
      exact decide_eq_true (hcitedlt event hevent)
    · intro event hevent
      rw [decide_eq_true_eq]
      exact (hacross event hevent cited mem_cons_self).asymm
  unfold selectCitationNeighbors
  rw [find?_target hcited]
  constructor
  · dsimp only
    rw [orderBy_eq hbefore]
    rw [pairwise_reverse]
    exact hpre
  · dsimp only
    rw [orderBy_eq hafter hpost]

theorem selectCitedEvent_spec {space : Str} {eventId : Nat} {event : CitationEventRow}
    (h : selectCitedEvent t space eventId = some event) :
    event ∈ t.events ∧ event.id = eventId ∧ InNamespace t space event := by
  have hp := find?_some h
  rw [Bool.and_eq_true, decide_eq_true_eq, any_eq_true] at hp
  obtain ⟨hid, lane, hlane, hspace⟩ := hp
  rw [Bool.and_eq_true, decide_eq_true_eq, decide_eq_true_eq] at hspace
  exact ⟨mem_of_find?_eq_some h, hid, lane, hlane, hspace⟩

/-- One row more than is returned tells whether anything is left. -/
theorem probe_iff (l : List CitationEventRow) (n : Nat) :
    n < (l.take (n + 1)).length ↔ n < l.length := by
  rw [length_take]
  omega

theorem truncated_iff {event : CitationEventRow} {maxChars : Nat} :
    (transcriptProjection event maxChars).transcript_truncated = true ↔
      maxChars < (event.transcript.map List.length).getD 0 := by
  unfold transcriptProjection
  rw [decide_eq_true_eq]

theorem windowOf_split (hcited : cited ∈ t.events) (hid : cited.id = request.eventId)
    (hspace : InNamespace t request.requestNamespace cited) {pre post : List CitationEventRow}
    (hsplit : exchanges t cited = pre ++ cited :: post) :
    WindowOf t request (storedCitationResult cited (pre.reverse.take (request.contextLimit + 1))
      (post.take (request.contextLimit + 1)) request) := by
  have hbefore : ((pre.reverse.take (request.contextLimit + 1)).take request.contextLimit).reverse =
      pre.drop (pre.length - request.contextLimit) := by
    rw [take_take, Nat.min_eq_left (Nat.le_succ _), take_reverse, reverse_reverse]
  have hafter : (post.take (request.contextLimit + 1)).take request.contextLimit =
      post.take request.contextLimit := by
    rw [take_take, Nat.min_eq_left (Nat.le_succ _)]
  have hearlier : pre.take (pre.length - request.contextLimit) ≠ [] ↔
      request.contextLimit < pre.length := by
    rw [← length_pos_iff, length_take]
    omega
  have hlater : post.drop request.contextLimit ≠ [] ↔ request.contextLimit < post.length := by
    rw [← length_pos_iff, List.length_drop]
    omega
  refine ⟨cited, hcited, hid, hspace, rfl, pre.take (pre.length - request.contextLimit),
    pre.drop (pre.length - request.contextLimit), post.take request.contextLimit,
    post.drop request.contextLimit, ?_, pairwise_exchanges t cited, ?_, ?_, ?_, ?_, ?_, ?_, ?_⟩
  · rw [take_append_drop, append_assoc, cons_append, take_append_drop, hsplit]
  · show List.map _ _ = _
    rw [hbefore]
  · show List.map _ _ = _
    rw [hafter]
  · rw [List.length_drop]
    omega
  · rw [length_take]
    omega
  · rw [hearlier, List.length_drop]
    omega
  · rw [hlater, length_take]
    omega
  · unfold storedCitationResult isExpandable
    dsimp only
    rw [hbefore, hafter, hearlier, hlater]
    simp only [Bool.or_eq_true, decide_eq_true_eq, probe_iff, length_reverse, any_eq_true,
      mem_append, mem_map, mem_cons, truncated_iff]
    constructor
    · rintro (((hcut | ⟨exchange, ⟨event, hevent, rfl⟩ | ⟨event, hevent, rfl⟩, hcut⟩) | hpre) | hpost)
      · exact Or.inr (Or.inr ⟨cited, Or.inr (Or.inl rfl), hcut⟩)
      · exact Or.inr (Or.inr ⟨event, Or.inl hevent, truncated_iff.mp hcut⟩)
      · exact Or.inr (Or.inr ⟨event, Or.inr (Or.inr hevent), truncated_iff.mp hcut⟩)
      · exact Or.inl hpre
      · exact Or.inr (Or.inl hpost)
    · rintro (hpre | hpost | ⟨event, hevent | rfl | hevent, hcut⟩)
      · exact Or.inl (Or.inr hpre)
      · exact Or.inr hpost
      · exact Or.inl (Or.inl (Or.inr ⟨_, Or.inl ⟨event, hevent, rfl⟩, truncated_iff.mpr hcut⟩))
      · exact Or.inl (Or.inl (Or.inl hcut))
      · exact Or.inl (Or.inl (Or.inr ⟨_, Or.inr ⟨event, hevent, rfl⟩, truncated_iff.mpr hcut⟩))

/-- A stored citation is a window of its transcript. -/
theorem window_exact (t : CitationTables) (request : CitationRequest) (citation : StoredCitation)
    (h : recallCitation t request = .stored citation) : WindowOf t request citation := by
  unfold recallCitation at h
  split at h
  · cases h
  · rename_i cited hfound
    obtain ⟨hcited, hid, hspace⟩ := selectCitedEvent_spec hfound
    dsimp only at h
    split at h
    · cases h
    · rename_i href
      obtain ⟨ref, href⟩ : ∃ ref, cited.transcript_ref = some ref := by
        cases hopt : cited.transcript_ref with
        | none => rw [hopt] at href; exact absurd rfl href
        | some ref => exact ⟨ref, rfl⟩
      cases h
      have hmem : cited ∈ exchanges t cited :=
        mem_exchanges.mpr ⟨hcited, rfl, rfl, Or.inr rfl⟩
      obtain ⟨pre, post, hsplit⟩ := append_of_mem hmem
      have hget : cited.transcript_ref.getD [] = ref := by rw [href]; rfl
      rw [hget]
      obtain ⟨hbefore, hafter⟩ :=
        selectCitationNeighbors_eq hcited href hsplit (request.contextLimit + 1)
      rw [hbefore, hafter]
      exact windowOf_split hcited hid hspace hsplit

end Exchanges

/-! ## A long transcript -/

section Example

def longExchange : CitationEventRow where
  id := 1
  lane_id := 1
  event_type := units "fact"
  content := units "x"
  source := none
  transcript_ref := some (units "collab/a")
  transcript := some (List.replicate 101 (unit 'x'))
  occurred_at := none
  created_at := 0
  created_by := units "agent"

def longTables : CitationTables where
  lanes := [⟨1, units "collab", units "key"⟩]
  events := [longExchange]
  lanes_pkey := nodup_singleton _
  events_pkey := nodup_singleton _

def longRequest : CitationRequest := ⟨units "collab", 1, 2, 100⟩

def longCitation : StoredCitation := storedCitationResult longExchange [] [] longRequest

theorem recall_long : recallCitation longTables longRequest = .stored longCitation := by rfl

theorem window_long : recallCitation longTables longRequest = .stored longCitation ∧
    WindowOf longTables longRequest longCitation :=
  ⟨recall_long, window_exact longTables longRequest longCitation recall_long⟩

/-- It is expandable although no exchange is held back. -/
theorem expandable_fails : ¬∀ (t : CitationTables) (request : CitationRequest)
    (citation : StoredCitation), recallCitation t request = .stored citation →
      ∀ cited ∈ t.events, cited.id = request.eventId →
        (citation.expandable = true ↔
          citation.before.length + 1 + citation.after.length < (exchanges t cited).length) := by
  intro h
  have hlong := h longTables longRequest longCitation recall_long longExchange
    (mem_singleton_self _) rfl
  revert hlong
  decide +kernel

end Example

end OpenBrain.Server.Session
