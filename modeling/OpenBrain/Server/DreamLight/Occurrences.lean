import OpenBrain.Core.BoundedDistinct
import OpenBrain.Server.Distill.Exchange

/-!
# Occurrences (`server/db/dream-light-repository.ts`, `server/maintenance/dream-light-occurrences.ts`)

One upsert keeps a content's row: how often it was said, in how many sessions, and the first twenty
of these. `counts_rowAfter` says what the row holds after any turns. The upsert answers from the row
it has written, in which a session that was new is there already: `corroborates_eq_iff`.
-/
namespace OpenBrain.Server.DreamLight
open OpenBrain.Core

/-! ## Countable turns -/

/-- mirrors domain/raw-turn-roles.ts:44 -/
def NON_SPEECH_ROLES : List Str := [units "tool", units "system"]

/-- A letter without its case. -/
def lower (u : UInt16) : UInt16 := if 0x41 ≤ u ∧ u ≤ 0x5A then u + 0x20 else u

/-- A literal in lower case, matched with the flag `i`. -/
def litI (w : Str) : Matcher UInt16 := Matcher.all (w.map fun c => Matcher.one fun u => lower u == c)

/-- Patterns that have to reach the end. mirrors dream-light.ts:65-71 -/
def UNCOUNTABLE : List (Matcher UInt16) := [
  Matcher.all [litI (units "[tool_use:"), Matcher.many Ecma.isSpace,
    Matcher.many (fun u => u ≠ unit ']'), Matcher.lit (units "]")],
  Matcher.all [litI (units "[tool_result"), Matcher.many (fun u => u ≠ unit ']'),
    Matcher.lit (units "]")],
  Matcher.all [fun s => [units "[image", units "[attachment", units "[file"].flatMap (litI · s),
    Matcher.many (fun u => u ≠ unit ']'), Matcher.lit (units "]")]]

/-- mirrors dream-light.ts:79-119 -/
def isCountable (content : Str) (role : Option Str) : Bool :=
  if role.any NON_SPEECH_ROLES.contains then false
  else
    let trimmed := Ecma.trim content
    if trimmed = [] then false
    else !UNCOUNTABLE.any fun p => (p trimmed).any fun rest => rest = []

/-! ## The upsert -/

/-- mirrors dream-light-occurrences.ts:7-15 -/
structure SweepRow where
  id : Nat
  «namespace» : Str
  content : Str
  content_hash : Str
  session_ref : Option Str
  role : Option Str
  occurred_at : Int
  deriving DecidableEq

/-- A row of `content_occurrences`. mirrors db/migrations/034_content_occurrences.sql:44-98 -/
structure Occurrence where
  occurrence_count : Nat
  session_count : Nat
  session_refs : List Str
  sample_content : Str
  first_seen_at : Int
  last_seen_at : Int

def Occurrence.checked (o : Occurrence) : Bool :=
  decide (0 < o.occurrence_count ∧ 0 < o.session_count ∧ o.session_count ≤ o.occurrence_count ∧
    o.first_seen_at ≤ o.last_seen_at) && o.sample_content.any (· != unit ' ')

/-- mirrors dream-light.ts:52 -/
def MAX_SESSION_REFS : Nat := 20

/-- mirrors dream-light-repository.ts:38-44 -/
structure UpsertInput where
  sessionRef : Str
  sampleContent : Str
  occurredAt : Int

/-- mirrors dream-light-repository.ts:27-30 -/
structure OccurrenceUpsertRow where
  existed : Bool
  session_bumped : Bool

def proposed (input : UpsertInput) : Occurrence where
  occurrence_count := 1
  session_count := 1
  session_refs := if input.sessionRef = [] then [] else [input.sessionRef]
  sample_content := input.sampleContent
  first_seen_at := input.occurredAt
  last_seen_at := input.occurredAt

/-- `DO UPDATE SET` -/
def updated (row : Occurrence) (input : UpsertInput) : Occurrence :=
  let bump := input.sessionRef ≠ [] ∧ input.sessionRef ∉ row.session_refs
  { occurrence_count := row.occurrence_count + 1
    session_count := row.session_count + if bump then 1 else 0
    session_refs :=
      if bump then (row.session_refs ++ [input.sessionRef]).take MAX_SESSION_REFS
      else row.session_refs
    sample_content := row.sample_content
    first_seen_at := min row.first_seen_at input.occurredAt
    last_seen_at := max row.last_seen_at input.occurredAt }

def writtenRow (row : Option Occurrence) (input : UpsertInput) : Occurrence :=
  match row with
  | none => proposed input
  | some row => updated row input

/-- `RETURNING`, which reads the row as it was written. -/
def returning (row : Option Occurrence) (input : UpsertInput) : OccurrenceUpsertRow where
  existed := row.isSome
  session_bumped := row.isSome && decide (input.sessionRef ≠ [] ∧
    input.sessionRef ∉ (writtenRow row input).session_refs)

/-- `none` where a check of the table fails. mirrors dream-light-repository.ts:105-148 -/
def upsertOccurrence (row : Option Occurrence) (input : UpsertInput) :
    Option (Occurrence × OccurrenceUpsertRow) :=
  if (proposed input).checked && (writtenRow row input).checked then
    some (writtenRow row input, returning row input)
  else none

/-! ## Recording a turn -/

/-- mirrors dream-light-occurrences.ts:18-19 -/
inductive OccurrenceOutcome where
  | skipped_noise | created | updated | corroborated
  deriving DecidableEq

def countable (row : SweepRow) : Bool :=
  !(Distill.isHarnessNoise row.content || !isCountable row.content row.role)

def refOf (row : SweepRow) : Str := row.session_ref.getD []

def inputOf (row : SweepRow) : UpsertInput where
  sessionRef := refOf row
  sampleContent := row.content.take 500
  occurredAt := row.occurred_at

def outcomeOf (first : OccurrenceUpsertRow) : OccurrenceOutcome :=
  if first.existed ≠ true then .created
  else if first.session_bumped = true then .corroborated
  else .updated

/-- What a turn does to the row of its content, as the sweep sees it.
mirrors dream-light-occurrences.ts:28-55 -/
def recordTurnOccurrence (stored : Option Occurrence) (row : SweepRow) :
    Option (Option Occurrence × OccurrenceOutcome) :=
  if countable row = false then some (stored, .skipped_noise)
  else (upsertOccurrence stored (inputOf row)).map fun (written, first) =>
    (some written, outcomeOf first)

/-! ## What a row holds -/

/-- One countable turn. -/
def apply (stored : Option Occurrence) (row : SweepRow) : Option Occurrence :=
  some (writtenRow stored (inputOf row))

/-- The sessions that are named, in the order of the turns. -/
def named (rows : List SweepRow) : List Str := (rows.map refOf).filter (· ≠ [])

/-- The row of some turns on one content. -/
structure Counts (rows : List SweepRow) (o : Occurrence) : Prop where
  occurrences : o.occurrence_count = rows.length
  sessions : o.session_count =
    (if rows.head?.map refOf = some [] then 1 else 0) + (tally MAX_SESSION_REFS (named rows)).1
  refs : o.session_refs = (tally MAX_SESSION_REFS (named rows)).2

theorem named_append (rows : List SweepRow) (row : SweepRow) :
    named (rows ++ [row]) = named rows ++ if refOf row = [] then [] else [refOf row] := by
  unfold named
  rw [List.map_append, List.filter_append]
  by_cases h : refOf row = [] <;> simp [h]

theorem tally_named (rows : List SweepRow) (row : SweepRow) :
    tally MAX_SESSION_REFS (named (rows ++ [row])) =
      if refOf row = [] then tally MAX_SESSION_REFS (named rows)
      else tallyStep MAX_SESSION_REFS (tally MAX_SESSION_REFS (named rows)) (refOf row) := by
  rw [named_append]
  split
  · rw [List.append_nil]
  · exact tally_append_singleton _ _

theorem counts_proposed (row : SweepRow) : Counts [row] (proposed (inputOf row)) where
  occurrences := rfl
  sessions := by
    have hone := tally_named [] row
    rw [List.nil_append] at hone
    rw [hone]
    by_cases h : refOf row = [] <;> simp [proposed, h, named, tally, tallyStep]
  refs := by
    have hone := tally_named [] row
    rw [List.nil_append] at hone
    rw [hone]
    by_cases h : refOf row = [] <;>
      simp [proposed, inputOf, h, named, tally, tallyStep, MAX_SESSION_REFS]

theorem counts_updated {rows : List SweepRow} {o : Occurrence} (hne : rows ≠ [])
    (h : Counts rows o) (row : SweepRow) :
    Counts (rows ++ [row]) (updated o (inputOf row)) where
  occurrences := by
    rw [List.length_append, ← h.occurrences]
    rfl
  sessions := by
    have hhead : (rows ++ [row]).head? = rows.head? := List.head?_append_of_ne_nil _ hne
    rw [hhead, tally_named, updated, h.sessions, h.refs]
    unfold inputOf
    by_cases href : refOf row = []
    · simp [href]
    · by_cases hmem : refOf row ∈ (tally MAX_SESSION_REFS (named rows)).2 <;>
        simp [href, hmem, tallyStep, Nat.add_assoc]
  refs := by
    rw [tally_named, updated, h.refs]
    unfold inputOf
    by_cases href : refOf row = []
    · simp [href]
    · by_cases hmem : refOf row ∈ (tally MAX_SESSION_REFS (named rows)).2 <;>
        simp [href, hmem, tallyStep]

theorem counts_foldl (rows : List SweepRow) (hne : rows ≠ []) :
    ∃ o, rows.foldl apply none = some o ∧ Counts rows o := by
  induction rows using List.reverseRecOn with
  | nil => exact absurd rfl hne
  | append_singleton rows row ih =>
    rw [List.foldl_append, List.foldl_cons, List.foldl_nil]
    by_cases hrows : rows = []
    · rw [hrows]
      exact ⟨_, rfl, counts_proposed row⟩
    · obtain ⟨o, ho, hcounts⟩ := ih hrows
      rw [ho]
      exact ⟨_, rfl, counts_updated hrows hcounts row⟩

/-! ## Distinct sessions -/

def distinctSessions (rows : List SweepRow) : Nat := max 1 (named rows).toFinset.card

/-- No session is named, or the first turn names one and no session behind the first twenty
speaks twice. -/
def Plain (rows : List SweepRow) : Prop :=
  named rows = [] ∨ rows.head?.map refOf ≠ some [] ∧
    (overflow MAX_SESSION_REFS (named rows)).Nodup

theorem session_count_eq_iff {rows : List SweepRow} {o : Occurrence} (hne : rows ≠ [])
    (h : Counts rows o) : o.session_count = distinctSessions rows ↔ Plain rows := by
  unfold distinctSessions Plain
  rw [h.sessions, ← tally_eq_card_iff]
  have hle := card_le_tally (n := MAX_SESSION_REFS) (named rows)
  by_cases hnone : named rows = []
  · obtain ⟨row, more, rfl⟩ := List.exists_cons_of_ne_nil hne
    have hrow : refOf row = [] := by
      by_contra hrow
      simp [named, hrow] at hnone
    simp [hnone, hrow, tally]
  · have hpos : 1 ≤ (named rows).toFinset.card := by
      obtain ⟨s, more, hs⟩ := List.exists_cons_of_ne_nil hnone
      exact Finset.card_pos.mpr ⟨s, by simp [hs]⟩
    rw [Nat.max_eq_right hpos]
    by_cases hhead : rows.head?.map refOf = some []
    · simp only [hhead, hnone, if_true, false_or, ne_eq, not_true_eq_false, false_and, iff_false]
      omega
    · simp [hhead, hnone]

/-! ## What a sweep reports -/

def corroborates (stored : Option Occurrence) (row : SweepRow) : Nat :=
  if outcomeOf (returning stored (inputOf row)) = .corroborated then 1 else 0

def raises (stored : Option Occurrence) (row : SweepRow) : Nat :=
  match stored with
  | none => 0
  | some o => (updated o (inputOf row)).session_count - o.session_count

/-- The turn brings a session to a content that was said before in fewer than twenty. -/
def Unseen (rows : List SweepRow) (row : SweepRow) : Prop :=
  rows ≠ [] ∧ refOf row ≠ [] ∧ refOf row ∉ named rows ∧
    (named rows).toFinset.card < MAX_SESSION_REFS

theorem corroborates_some (o : Occurrence) (row : SweepRow) :
    corroborates (some o) row =
      if refOf row ≠ [] ∧ refOf row ∉ (updated o (inputOf row)).session_refs then 1 else 0 := by
  unfold corroborates outcomeOf returning writtenRow
  simp only [Option.isSome_some, ne_eq, not_true_eq_false, ↓reduceIte, Bool.true_and,
    decide_eq_true_eq]
  by_cases h : refOf row ≠ [] ∧ refOf row ∉ (updated o (inputOf row)).session_refs
  · have h' : (inputOf row).sessionRef ≠ [] ∧
        (inputOf row).sessionRef ∉ (updated o (inputOf row)).session_refs := h
    rw [if_pos h, if_pos h', if_pos rfl]
  · have h' : ¬((inputOf row).sessionRef ≠ [] ∧
        (inputOf row).sessionRef ∉ (updated o (inputOf row)).session_refs) := h
    rw [if_neg h, if_neg h', if_neg (by decide)]

theorem raises_some (o : Occurrence) (row : SweepRow) :
    raises (some o) row = if refOf row ≠ [] ∧ refOf row ∉ o.session_refs then 1 else 0 := by
  unfold raises updated
  by_cases h : refOf row ≠ [] ∧ refOf row ∉ o.session_refs
  · have h' : (inputOf row).sessionRef ≠ [] ∧ (inputOf row).sessionRef ∉ o.session_refs := h
    simp [h']
    exact h
  · have h' : ¬((inputOf row).sessionRef ≠ [] ∧ (inputOf row).sessionRef ∉ o.session_refs) := h
    simp only [h']
    simpa using h

/-- A turn is reported for what it raises, but for a session that is new to the content: that one
is in the row by the time the row is asked. -/
theorem corroborates_le {rows : List SweepRow} (row : SweepRow) :
    corroborates (rows.foldl apply none) row ≤ raises (rows.foldl apply none) row ∧
      (corroborates (rows.foldl apply none) row = raises (rows.foldl apply none) row ↔
        ¬Unseen rows row) := by
  by_cases hne : rows = []
  · subst hne
    simp [corroborates, raises, returning, outcomeOf, Unseen]
  obtain ⟨o, ho, hcounts⟩ := counts_foldl rows hne
  rw [ho, corroborates_some, raises_some]
  have hrefs : o.session_refs = firsts MAX_SESSION_REFS (named rows) := by
    rw [hcounts.refs, tally_eq]
  by_cases href : refOf row = []
  · simp [href, Unseen]
  by_cases hmem : refOf row ∈ firsts MAX_SESSION_REFS (named rows)
  · have hin := mem_of_mem_firsts hmem
    simp [updated, inputOf, href, hrefs, hmem, Unseen, hin]
  · have hwritten : (updated o (inputOf row)).session_refs =
        (firsts MAX_SESSION_REFS (named rows) ++ [refOf row]).take MAX_SESSION_REFS := by
      simp [updated, inputOf, href, hrefs, hmem]
    have hlen := length_firsts (n := MAX_SESSION_REFS) (named rows)
    rw [hwritten, hrefs]
    by_cases hroom : (named rows).toFinset.card < MAX_SESSION_REFS
    · have hnew : refOf row ∉ named rows :=
        fun hin => hmem ((mem_firsts_of_room hroom _).mpr hin)
      rw [List.take_of_length_le (by simp; omega)]
      simp [href, hmem, Unseen, hne, hnew, hroom]
    · rw [List.take_append_of_le_length (by omega), List.take_of_length_le (by omega)]
      simp [Unseen, hroom]

end OpenBrain.Server.DreamLight
