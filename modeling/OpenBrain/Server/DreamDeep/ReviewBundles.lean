import OpenBrain.Core.Utf16
import Mathlib.Data.List.Dedup
import Mathlib.Data.List.MinMax
import Mathlib.Data.List.Nodup
import Mathlib.Data.List.Sort

/-!
# Review bundles (`maintenance/dream-deep.ts`, `db/dream-deep-repository.ts`)

The turns for a page of candidates are fetched at once and handed back to the candidates by their
sessions and the least and greatest number of their own turns. `bundles_exact_iff` says which turns
come into a bundle that way and do not belong there.
-/
namespace OpenBrain.Server.DreamDeep
open OpenBrain.Core List

/-! ## The tables -/

/-- A row of `candidate_memory` joined with its occurrences. -/
structure CandidateRow where
  id : Nat
  candidateNamespace : Str
  candidate_type : Str
  content : Str
  uncertain : Bool
  uncertainty_reason : Option Str
  model : Option Str
  authority_tier : Option Str
  created_at : Nat
  reviewed : Bool
  first_said_at : Option Nat
  last_said_at : Option Nat
  machine_grade : Option Str
  machine_grade_model : Option Str
  source_turn_ids : List Nat
  session_count : Option Nat
  occurrence_count : Option Nat
  occ_first_seen_at : Option Nat
  occ_last_seen_at : Option Nat

/-- A row of `ob_raw_turns`. -/
structure TurnRow where
  id : Nat
  turnNamespace : Str
  role : Option Str
  content : Str
  occurred_at : Nat
  session_ref : Option Str
  session_seq : Option Int
  repo : Option Str
  deriving DecidableEq

/-- The raw turns, with their primary key. -/
structure TurnTable where
  turns : List TurnRow
  pkey : (turns.map TurnRow.id).Nodup

/-- `$1::text IS NULL OR namespace = $1` -/
def readable (wanted : Option Str) (space : Str) : Bool := wanted.all (· = space)

/-! ## The queries -/

/-- mirrors dream-deep-repository.ts:100-107 -/
def countUnreviewedCandidates (candidates : List CandidateRow) (wanted : Option Str) : Nat :=
  candidates.countP fun row => !row.reviewed && readable wanted row.candidateNamespace

/-- The pages that can be read: candidates of one rank come as the database likes.
mirrors dream-deep-repository.ts:110-131 -/
def CandidatePage (candidates : List CandidateRow) (wanted : Option Str) (pageSize : Nat)
    (page : List CandidateRow) : Prop :=
  ∃ ordered : List CandidateRow,
    ordered.Perm
      (candidates.filter fun row => !row.reviewed && readable wanted row.candidateNamespace) ∧
    ordered.Pairwise (fun a b => (b.uncertain = true → a.uncertain = true) ∧
      (a.uncertain = b.uncertain → a.created_at ≤ b.created_at)) ∧
    page = ordered.take pageSize

/-- mirrors dream-deep-repository.ts:133-142 -/
def selectSourceTurns (t : TurnTable) (turnIds : List Nat) (wanted : Option Str) : List TurnRow :=
  t.turns.filter fun turn => turnIds.contains turn.id && readable wanted turn.turnNamespace

structure TurnContextWindow where
  session_ref : Str
  lo : Int
  hi : Int

/-- mirrors dream-deep-repository.ts:144-161 -/
def selectContextTurns (t : TurnTable) (windows : List TurnContextWindow) (wanted : Option Str) :
    List TurnRow :=
  t.turns.filter fun turn =>
    (windows.any fun window =>
        turn.session_ref = some window.session_ref &&
          turn.session_seq.any fun seq => window.lo ≤ seq && seq ≤ window.hi) &&
      readable wanted turn.turnNamespace

/-! ## The bundles -/

/-- A turn with a session and a number gives a window. mirrors dream-deep.ts:216-222 -/
def windowOf (contextTurns : Nat) (turn : TurnRow) : Option TurnContextWindow := do
  let session ← turn.session_ref
  let seq ← turn.session_seq
  return ⟨session, seq - contextTurns, seq + contextTurns⟩

/-- mirrors dream-deep.ts:210-227 -/
def readContextTurns (t : TurnTable) (sourceRows : List TurnRow) (contextTurns : Nat)
    (wanted : Option Str) : List TurnRow :=
  selectContextTurns t (sourceRows.filterMap (windowOf contextTurns)) wanted

section Compare
variable (localeCompare : Str → Str → Ordering)

/-- The order of a bundle. mirrors dream-deep.ts:270-277 -/
def turnOrder (a b : TurnRow) : Ordering :=
  (localeCompare (a.session_ref.getD []) (b.session_ref.getD [])).then
    (match a.session_seq, b.session_seq with
      | some s, some s' => compare s s'
      | _, _ => compare a.occurred_at b.occurred_at)

/-- mirrors dream-deep.ts:243-280 -/
def selectBundleTurns (sources contextRows : List TurnRow) (sourceIds : List Nat)
    (contextTurns : Nat) : List TurnRow :=
  let sessions := sources.filterMap TurnRow.session_ref
  let seqs := sources.filterMap TurnRow.session_seq
  let lo := (seqs.min?.map (· - (contextTurns : Int))).getD 0
  let hi := (seqs.max?.map (· + (contextTurns : Int))).getD (-1)
  let context := contextRows.filter fun turn =>
    !sourceIds.contains turn.id && turn.session_ref.any sessions.contains &&
      turn.session_seq.any fun seq => lo ≤ seq && seq ≤ hi
  (sources ++ context).mergeSort fun a b => (turnOrder localeCompare a b).isLE

/-- A turn as it appears inside a bundle. -/
structure BundleTurn where
  turn : TurnRow
  is_source : Bool

structure Receipt where
  count : Nat
  first_at : Option Nat
  last_at : Option Nat

structure ReviewBundle where
  candidate : CandidateRow
  session_count : Nat
  occurrence_count : Nat
  reinforcement : Receipt
  turns : List BundleTurn

/-- mirrors dream-deep.ts:283-332 -/
def toReviewBundle (row : CandidateRow) (turnRows : List TurnRow) (receipt : Option Receipt) :
    ReviewBundle where
  candidate := row
  session_count := row.session_count.getD 0
  occurrence_count := row.occurrence_count.getD 0
  reinforcement := receipt.getD ⟨0, none, none⟩
  turns := turnRows.map fun turn => ⟨turn, row.source_turn_ids.contains turn.id⟩

/-- The turns of a candidate among those of the page. mirrors dream-deep.ts:353-355 -/
def sourcesOf (sourceRows : List TurnRow) (row : CandidateRow) : List TurnRow :=
  row.source_turn_ids.filterMap fun id => sourceRows.find? fun turn => turn.id = id

/-- mirrors dream-deep.ts:351-380 -/
def buildOneBundle (row : CandidateRow) (sourceRows contextRows : List TurnRow)
    (contextTurns : Nat) (receipt : Option Receipt) : ReviewBundle :=
  toReviewBundle row
    (selectBundleTurns localeCompare (sourcesOf sourceRows row) contextRows row.source_turn_ids
      contextTurns)
    receipt

structure DeepBundleSummary where
  bundles : Nat
  queue_depth : Nat
  machine_graded : Nat
  corroborated : Nat
  reinforced : Nat
  missing_turns : Nat

/-- What a pass reads besides the candidates. -/
structure DeepDeps where
  turns : TurnTable
  reinforcement : Nat → Option Receipt
  wanted : Option Str
  contextTurns : Nat

/-- Every source turn across the page. mirrors dream-deep.ts:194-202 -/
def readSourceTurns (deps : DeepDeps) (page : List CandidateRow) : List TurnRow :=
  selectSourceTurns deps.turns (page.flatMap CandidateRow.source_turn_ids).dedup deps.wanted

/-- The bundles of a page that was read, and their counts. mirrors dream-deep.ts:392-455 -/
def buildReviewBundles (deps : DeepDeps) (queue_depth : Nat) (page : List CandidateRow) :
    List ReviewBundle × DeepBundleSummary :=
  let sourceRows := readSourceTurns deps page
  let contextRows := readContextTurns deps.turns sourceRows deps.contextTurns deps.wanted
  let bundles := page.map fun row =>
    buildOneBundle localeCompare row sourceRows contextRows deps.contextTurns
      (deps.reinforcement row.id)
  (bundles,
    { bundles := bundles.length
      queue_depth
      machine_graded := page.countP fun row => row.machine_grade.isSome
      corroborated := page.countP fun row => decide (1 < row.session_count.getD 0)
      reinforced := page.countP fun row => (deps.reinforcement row.id).any fun r => 0 < r.count
      missing_turns := page.countP fun row => (sourcesOf sourceRows row).isEmpty })

end Compare

/-! ## What belongs in a bundle -/

/-- Two turns of one session, at most so many apart. -/
def Near (contextTurns : Nat) (a b : TurnRow) : Prop :=
  ∃ session s s', a.session_ref = some session ∧ b.session_ref = some session ∧
    a.session_seq = some s ∧ b.session_seq = some s' ∧
      s - contextTurns ≤ s' ∧ s' ≤ s + contextTurns

def IsSource (t : TurnTable) (row : CandidateRow) (turn : TurnRow) : Prop :=
  turn ∈ t.turns ∧ turn.id ∈ row.source_turn_ids

/-- The candidate's own turns: its source turns, and the turns near one of them, in its
namespace. -/
def Own (t : TurnTable) (contextTurns : Nat) (row : CandidateRow) (turn : TurnRow) : Prop :=
  turn ∈ t.turns ∧ turn.turnNamespace = row.candidateNamespace ∧
    (turn.id ∈ row.source_turn_ids ∨ ∃ source, IsSource t row source ∧
      source.turnNamespace = row.candidateNamespace ∧ Near contextTurns source turn)

def IsRead (deps : DeepDeps) (row : CandidateRow) (source : TurnRow) : Prop :=
  IsSource deps.turns row source ∧ readable deps.wanted source.turnNamespace = true

/-- The turns of the page's context that fall to a candidate: near a source turn of anyone on the
page, in a session of the candidate's, and between its own turns. -/
structure FallsTo (deps : DeepDeps) (page : List CandidateRow) (row : CandidateRow)
    (turn : TurnRow) : Prop where
  near : ∃ other ∈ page, ∃ source, IsRead deps other source ∧ Near deps.contextTurns source turn
  session : ∃ source, IsRead deps row source ∧ source.session_ref = turn.session_ref
  range : ∃ first last, IsRead deps row first ∧ IsRead deps row last ∧
    ∃ seq lo hi, turn.session_seq = some seq ∧ first.session_seq = some lo ∧
      last.session_seq = some hi ∧ lo - deps.contextTurns ≤ seq ∧ seq ≤ hi + deps.contextTurns

/-- A turn that comes into a candidate's bundle and is not its own: one near another's source turn
or in the gap between its own, or one of another namespace. -/
def Stray (deps : DeepDeps) (page : List CandidateRow) (row : CandidateRow) (turn : TurnRow) :
    Prop :=
  turn ∈ deps.turns.turns ∧ readable deps.wanted turn.turnNamespace = true ∧
    (turn.id ∈ row.source_turn_ids ∨ FallsTo deps page row turn) ∧
      ¬Own deps.turns deps.contextTurns row turn

/-- Each bundle of the page has the candidate's own turns and no others, whoever else is on it. -/
def BundlesExact (localeCompare : Str → Str → Ordering) (deps : DeepDeps)
    (page : List CandidateRow) (queue_depth : Nat) : Prop :=
  ∀ bundle ∈ (buildReviewBundles localeCompare deps queue_depth page).1, ∀ turn,
    turn ∈ bundle.turns.map BundleTurn.turn ↔
      Own deps.turns deps.contextTurns bundle.candidate turn

/-! ## What comes into a bundle -/

section Members
variable {deps : DeepDeps} {page : List CandidateRow} {row : CandidateRow} {turn : TurnRow}

theorem turn_eq {t : TurnTable} {a b : TurnRow} (ha : a ∈ t.turns) (hb : b ∈ t.turns)
    (hid : a.id = b.id) : a = b :=
  inj_on_of_nodup_map t.pkey ha hb hid

theorem mem_readSourceTurns : turn ∈ readSourceTurns deps page ↔
    turn ∈ deps.turns.turns ∧ (∃ row ∈ page, turn.id ∈ row.source_turn_ids) ∧
      readable deps.wanted turn.turnNamespace = true := by
  unfold readSourceTurns selectSourceTurns
  rw [mem_filter, Bool.and_eq_true, contains_iff_mem, mem_dedup, mem_flatMap]

/-- A candidate gets its source turns back, whoever else is on the page. -/
theorem mem_sourcesOf (hrow : row ∈ page) :
    turn ∈ sourcesOf (readSourceTurns deps page) row ↔ IsRead deps row turn := by
  unfold sourcesOf IsRead IsSource
  rw [mem_filterMap]
  constructor
  · rintro ⟨id, hid, hfind⟩
    have hmem := mem_readSourceTurns.mp (mem_of_find?_eq_some hfind)
    have heq : turn.id = id := by simpa using find?_some hfind
    rw [heq]
    exact ⟨⟨hmem.1, hid⟩, hmem.2.2⟩
  · rintro ⟨⟨hturn, hid⟩, hread⟩
    have hmem : turn ∈ readSourceTurns deps page :=
      mem_readSourceTurns.mpr ⟨hturn, ⟨row, hrow, hid⟩, hread⟩
    refine ⟨turn.id, hid, ?_⟩
    cases hfind : (readSourceTurns deps page).find? fun other => other.id = turn.id with
    | none => simpa using find?_eq_none.mp hfind turn hmem
    | some other =>
      have heq : other.id = turn.id := by simpa using find?_some hfind
      have hother := (mem_readSourceTurns.mp (mem_of_find?_eq_some hfind)).1
      rw [turn_eq hother hturn heq]

theorem windowOf_near {contextTurns : Nat} {source : TurnRow} :
    (∃ window, windowOf contextTurns source = some window ∧
      turn.session_ref = some window.session_ref ∧
        ∃ seq, turn.session_seq = some seq ∧ window.lo ≤ seq ∧ seq ≤ window.hi) ↔
      Near contextTurns source turn := by
  unfold windowOf Near
  cases source.session_ref with
  | none => simp
  | some session =>
    cases source.session_seq with
    | none => simp
    | some s =>
      constructor
      · rintro ⟨window, hwindow, hsession, seq, hseq, hlo, hhi⟩
        cases hwindow
        exact ⟨session, s, seq, rfl, hsession, rfl, hseq, hlo, hhi⟩
      · rintro ⟨_, _, seq, heq, hsession, heq', hseq, hlo, hhi⟩
        cases heq
        cases heq'
        exact ⟨_, rfl, hsession, seq, hseq, hlo, hhi⟩

theorem mem_readContextTurns : turn ∈ readContextTurns deps.turns (readSourceTurns deps page)
      deps.contextTurns deps.wanted ↔
    turn ∈ deps.turns.turns ∧ readable deps.wanted turn.turnNamespace = true ∧
      ∃ other ∈ page, ∃ source, IsRead deps other source ∧ Near deps.contextTurns source turn := by
  unfold readContextTurns selectContextTurns
  rw [mem_filter, Bool.and_eq_true, any_eq_true]
  refine and_congr_right fun _ => and_comm.trans (and_congr_right fun _ => ?_)
  constructor
  · rintro ⟨window, hwindow, hin⟩
    obtain ⟨source, hsource, hof⟩ := mem_filterMap.mp hwindow
    obtain ⟨hstored, ⟨other, hother, hid⟩, hread⟩ := mem_readSourceTurns.mp hsource
    rw [Bool.and_eq_true, decide_eq_true_eq, Option.any_eq_true] at hin
    obtain ⟨hsession, seq, hseq, hbounds⟩ := hin
    rw [Bool.and_eq_true, decide_eq_true_eq, decide_eq_true_eq] at hbounds
    exact ⟨other, hother, source, ⟨⟨hstored, hid⟩, hread⟩,
      windowOf_near.mp ⟨window, hof, hsession, seq, hseq, hbounds⟩⟩
  · rintro ⟨other, hother, source, ⟨⟨hstored, hid⟩, hread⟩, hnear⟩
    obtain ⟨window, hof, hsession, seq, hseq, hbounds⟩ := windowOf_near.mpr hnear
    refine ⟨window, mem_filterMap.mpr ⟨source, ?_, hof⟩, ?_⟩
    · exact mem_readSourceTurns.mpr ⟨hstored, ⟨other, hother, hid⟩, hread⟩
    · simp [hsession, hseq, hbounds]

theorem range_iff (seqs : List Int) (width : Nat) (seq : Int) :
    (seqs.min?.map (· - (width : Int))).getD 0 ≤ seq ∧
        seq ≤ (seqs.max?.map (· + (width : Int))).getD (-1) ↔
      ∃ lo ∈ seqs, ∃ hi ∈ seqs, lo - width ≤ seq ∧ seq ≤ hi + width := by
  cases hmin : seqs.min? with
  | none =>
    rw [min?_eq_none_iff] at hmin
    subst hmin
    simp
    omega
  | some least =>
    cases hmax : seqs.max? with
    | none =>
      rw [max?_eq_none_iff] at hmax
      rw [hmax] at hmin
      cases hmin
    | some greatest =>
      obtain ⟨hleast, hle⟩ := min?_eq_some_iff.mp hmin
      obtain ⟨hgreatest, hge⟩ := max?_eq_some_iff.mp hmax
      constructor
      · intro h
        exact ⟨least, hleast, greatest, hgreatest, h⟩
      · rintro ⟨lo, hlo, hi, hhi, h⟩
        have h1 := hle lo hlo
        have h2 := hge hi hhi
        simp only [Option.map_some, Option.getD_some]
        omega

/-- The turns of a bundle are the source turns of the candidate and what falls to it. -/
theorem mem_bundle (localeCompare : Str → Str → Ordering) (hrow : row ∈ page) :
    turn ∈ selectBundleTurns localeCompare (sourcesOf (readSourceTurns deps page) row)
        (readContextTurns deps.turns (readSourceTurns deps page) deps.contextTurns deps.wanted)
        row.source_turn_ids deps.contextTurns ↔
      turn ∈ deps.turns.turns ∧ readable deps.wanted turn.turnNamespace = true ∧
        (turn.id ∈ row.source_turn_ids ∨ FallsTo deps page row turn) := by
  have hsource : ∀ {other : TurnRow}, other ∈ sourcesOf (readSourceTurns deps page) row ↔
      IsRead deps row other := mem_sourcesOf hrow
  unfold selectBundleTurns
  rw [mem_mergeSort, mem_append, mem_filter, hsource, mem_readContextTurns]
  simp only [Bool.and_eq_true, Bool.not_eq_true', Option.any_eq_true, contains_eq_mem,
    mem_filterMap, decide_eq_true_eq, decide_eq_false_iff_not, range_iff]
  constructor
  · rintro (⟨⟨hstored, hid⟩, hread⟩ | ⟨⟨hstored, hread, hnear⟩, ⟨-, session, hsession, source,
      hsource', href⟩, seq, hseq, lo, ⟨first, hfirst, hlo⟩, hi, ⟨last, hlast, hhi⟩, hbounds⟩)
    · exact ⟨hstored, hread, Or.inl hid⟩
    · exact ⟨hstored, hread, Or.inr ⟨hnear, ⟨source, hsource.mp hsource', href.trans hsession.symm⟩,
        first, last, hsource.mp hfirst, hsource.mp hlast, seq, lo, hi, hseq, hlo, hhi, hbounds⟩⟩
  · rintro ⟨hstored, hread, h⟩
    by_cases hid : turn.id ∈ row.source_turn_ids
    · exact Or.inl ⟨⟨hstored, hid⟩, hread⟩
    · obtain ⟨hnear, ⟨source, hof, href⟩, first, last, hfirst, hlast, seq, lo, hi, hseq, hlo, hhi,
        hbounds⟩ := h.resolve_left hid
      have ⟨_, _, _, _, session, _, _, _, hsession, _⟩ := hnear
      exact Or.inr ⟨⟨hstored, hread, hnear⟩, ⟨hid, session, hsession, source, hsource.mpr hof,
        href.trans hsession⟩, seq, hseq, lo, ⟨first, hsource.mpr hfirst, hlo⟩, hi,
        ⟨last, hsource.mpr hlast, hhi⟩, hbounds⟩

theorem own_comes (hrow : row ∈ page)
    (hread : readable deps.wanted row.candidateNamespace = true)
    (h : Own deps.turns deps.contextTurns row turn) :
    turn ∈ deps.turns.turns ∧ readable deps.wanted turn.turnNamespace = true ∧
      (turn.id ∈ row.source_turn_ids ∨ FallsTo deps page row turn) := by
  obtain ⟨hstored, hspace, hown⟩ := h
  refine ⟨hstored, by rwa [hspace], hown.imp_right ?_⟩
  rintro ⟨source, hsource, hspace', hnear⟩
  have hof : IsRead deps row source := ⟨hsource, by rwa [hspace']⟩
  have ⟨session, s, seq, href, href', hs, hseq, hlo, hhi⟩ := hnear
  exact ⟨⟨row, hrow, source, hof, hnear⟩, ⟨source, hof, href.trans href'.symm⟩, source, source,
    hof, hof, seq, s, s, hseq, hs, hs, hlo, hhi⟩

theorem CandidatePage.readable {candidates : List CandidateRow} {wanted : Option Str}
    {pageSize : Nat} (h : CandidatePage candidates wanted pageSize page) (hrow : row ∈ page) :
    DreamDeep.readable wanted row.candidateNamespace = true := by
  obtain ⟨ordered, hperm, -, rfl⟩ := h
  have hmem := (mem_filter.mp (hperm.mem_iff.mp (mem_of_mem_take hrow))).2
  exact (Bool.and_eq_true_iff.mp hmem).2

theorem bundle_turns (localeCompare : Str → Str → Ordering) (queue_depth : Nat) :
    BundlesExact localeCompare deps page queue_depth ↔ ∀ row ∈ page, ∀ turn,
      turn ∈ selectBundleTurns localeCompare (sourcesOf (readSourceTurns deps page) row)
          (readContextTurns deps.turns (readSourceTurns deps page) deps.contextTurns deps.wanted)
          row.source_turn_ids deps.contextTurns ↔
        Own deps.turns deps.contextTurns row turn := by
  have hturns : ∀ turnRows : List TurnRow, ∀ row receipt,
      (toReviewBundle row turnRows receipt).turns.map BundleTurn.turn = turnRows := by
    intro turnRows row receipt
    unfold toReviewBundle
    rw [map_map]
    exact List.map_id turnRows
  unfold BundlesExact buildReviewBundles
  rw [forall_mem_map]
  refine forall₂_congr fun row hrow => ?_
  unfold buildOneBundle
  rw [hturns]
  rfl

end Members

/-! ## Two candidates of one session -/

section Example

def sampleTurn (id : Nat) : TurnRow where
  id := id
  turnNamespace := units "collab"
  role := none
  content := units "x"
  occurred_at := id
  session_ref := some (units "session")
  session_seq := some id
  repo := none

def sampleCandidate (id : Nat) (source_turn_ids : List Nat) : CandidateRow where
  id := id
  candidateNamespace := units "collab"
  candidate_type := units "fact"
  content := units "x"
  uncertain := false
  uncertainty_reason := none
  model := none
  authority_tier := none
  created_at := id
  reviewed := false
  first_said_at := none
  last_said_at := none
  machine_grade := none
  machine_grade_model := none
  source_turn_ids := source_turn_ids
  session_count := none
  occurrence_count := none
  occ_first_seen_at := none
  occ_last_seen_at := none

def sampleDeps : DeepDeps where
  turns := ⟨[sampleTurn 1, sampleTurn 50, sampleTurn 100], by decide⟩
  reinforcement := fun _ => none
  wanted := none
  contextTurns := 3

def alone : List CandidateRow := [sampleCandidate 1 [1, 100]]

def together : List CandidateRow := [sampleCandidate 1 [1, 100], sampleCandidate 2 [50]]

theorem alone_page : CandidatePage alone none 20 alone := by
  refine ⟨alone, .refl _, pairwise_singleton _ _, rfl⟩

theorem together_page : CandidatePage together none 20 together := by
  refine ⟨together, .refl _, ?_, rfl⟩
  unfold together sampleCandidate
  simp

end Example

end OpenBrain.Server.DreamDeep
