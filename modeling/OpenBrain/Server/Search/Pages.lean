import OpenBrain.Server.Search.Fusion

/-!
# The pages of a search

Page `i` of `n` results is the search with limit `n` and offset `i * n`. The arms of a page are cut
to the page's window, not to everything up to it, so the pages are pieces of the ranking of all of
them only when no cut takes away what that ranking puts there (`pages_tile_iff`).
-/
namespace OpenBrain.Server.Search

open OpenBrain.Core List

variable {δ ν : Type}

def vectorArm (db : Database δ ν) (request : SearchRequest) (embedding : ν) :
    Arm SearchSource SearchRow ℚ ℚ where
  rows := vectorMatches db request.tier request.ns embedding
  cut := fun _ => distanceKey
  order := vectorKey db.now

def keywordArm (db : Database δ ν) (request : SearchRequest) :
    Arm SearchSource SearchRow ℚ ℚ where
  rows := keywordMatches db request.tier request.ns request.ftsConfig request.query
  cut := keywordCutKey
  order := rankKey

def partialArm (db : Database δ ν) (request : SearchRequest) :
    Arm SearchSource SearchRow (ℚ ×ₗ ℚ ×ₗ String) (ℚ ×ₗ ℚ ×ₗ String ×ₗ String) where
  rows := partialMatches db request.tier request.ns request.ftsConfig request.query
  cut := fun _ => partialCutKey
  order := partialKey

def SearchRequest.windowed (request : SearchRequest) (limit offset : Nat) : SearchRequest :=
  { request with limit := limit, offset := offset }

/-- The request for page `i` of `n` results. -/
def SearchRequest.paged (request : SearchRequest) (n i : Nat) : SearchRequest :=
  request.windowed n (i * n)

/-- The pages are disjoint, as records, and together the first `k * n` results, when the calls
return. -/
def Tiles (db : Database δ ν) (embedding : Option ν) (request : SearchRequest) (n k : Nat) : Prop :=
  ∀ (pages : Nat → List SearchRow) (whole : List SearchRow),
    (∀ i < k, executeSearch db embedding (request.paged n i) = .ok (pages i)) →
    executeSearch db embedding (request.paged (k * n) 0) = .ok whole →
    (∀ i j, i < j → j < k →
      ((pages i).map SearchRow.identity).Disjoint ((pages j).map SearchRow.identity)) ∧
      ((List.range k).map pages).flatten = whole

/-! ## When they do -/

/-- No row past the first `n` of its table comes among the first `k * n` of all that are within the
first `k * n` of theirs. -/
def Steady {κ κ' : Type} [LinearOrder κ] [LinearOrder κ'] (arm : Arm SearchSource SearchRow κ κ')
    (tables : List SearchSource) (n k : Nat) : Prop :=
  ∀ row ∈ arm.reach tables (k * n), arm.rank tables (k * n) row < k * n →
    row ∈ arm.reach tables n

section
variable {κ κ' : Type} [LinearOrder κ] [LinearOrder κ'] (arm : Arm SearchSource SearchRow κ κ')
  (tables : List SearchSource)

/-- The rows an arm with a window of `m` brings into the fusion. -/
def seen (m : Nat) : List SearchRow :=
  (arm.reach tables m).filter fun row => arm.rank tables m row < m

/-- The vote an arm with a window of `m` gives to a record. -/
def ballot (m : Nat) (record : String × String) : Option ℚ :=
  ((seen arm tables m).find? fun row => row.identity = record).map fun row =>
    reciprocalRank (arm.rank tables m row)

end

/-- The candidates for the first `total` results: what the vector arm sees, with the lexical votes,
and what only the lexical arm sees. -/
def candidates (db : Database δ ν) (request : SearchRequest) (embedding : ν) (total : Nat) :
    List RankedCandidate :=
  let m := total * HYBRID_FETCH_MULTIPLIER
  let vector := vectorArm db request embedding
  let lexical := partialArm db request
  ((seen vector request.tables m).map fun row =>
    (RankedCandidate.first row .vector (reciprocalRank (vector.rank request.tables m row))).lift
      .lexical (ballot lexical request.tables m row.identity)) ++
  ((seen lexical request.tables m).filter fun row =>
    (ballot vector request.tables m row.identity).isNone).map fun row =>
      RankedCandidate.first row .lexical (reciprocalRank (lexical.rank request.tables m row))

/-- By the votes for the first `total` results, `row` comes after `place` others. -/
def StandsAt (db : Database δ ν) (request : SearchRequest) (embedding : ν) (total : Nat)
    (row : SearchRow) (p : Nat) : Prop :=
  ∃ candidate ∈ candidates db request embedding total, toPublicSearchRow candidate.row = row ∧
    place (candidateKey db.now) (candidates db request embedding total) candidate = p

/-- The votes for page `i` put on it what the votes for all `k` pages put there. -/
def SteadyVotes (db : Database δ ν) (request : SearchRequest) (embedding : ν) (n k : Nat) : Prop :=
  ∀ i < k, ∀ p, i * n ≤ p → p < (i + 1) * n → ∀ row,
    StandsAt db request embedding ((i + 1) * n) row p ↔
      StandsAt db request embedding (k * n) row p

def TilesWhen (db : Database δ ν) (embedding : Option ν) (request : SearchRequest) (n k : Nat) :
    Prop :=
  match request.mode, embedding with
  | .keyword, _ => Steady (keywordArm db request) request.tables n k
  | .vector, none => True
  | .vector, some embedding => Steady (vectorArm db request embedding) request.tables n k
  | .hybrid, none => Steady (partialArm db request) request.tables n k
  | .hybrid, some embedding => SteadyVotes db request embedding n k

/-- All sort keys differ. -/
def DistinctKeys (db : Database δ ν) (embedding : Option ν) (request : SearchRequest) : Prop :=
  match request.mode, embedding with
  | .keyword, _ => (keywordArm db request).Distinct request.tables
  | _, some embedding => (vectorArm db request embedding).Distinct request.tables
  | _, none => True

/-! ## The rows of an arm are records -/

theorem label_injective : Function.Injective SOURCE_LABELS := by
  intro a b h
  cases a <;> cases b <;> first | rfl | exact absurd h (by decide)

/-- What an arm selects from a table stands for rows of that table. -/
def FromTable (db : Database δ ν) (rows : SearchSource → List SearchRow) : Prop :=
  ∀ t, (∀ row ∈ rows t, row.source_type = SOURCE_LABELS t) ∧
    ((rows t).map SearchRow.id).Sublist ((db.contents t).rows.map Row.id)

theorem sublist_ids {rows : List (Row δ ν)} {select : Row δ ν → Option SearchRow}
    (h : ∀ row selected, select row = some selected → selected.id = row.id) :
    ((rows.filterMap select).map SearchRow.id).Sublist (rows.map Row.id) := by
  induction rows with
  | nil => exact .slnil
  | cons row rows ih =>
    rw [filterMap_cons, map_cons]
    split
    · exact ih.cons _
    · rename_i selected hselect
      rw [map_cons, h row selected hselect]
      exact ih.cons_cons _

theorem fromTable_filterMap {db : Database δ ν}
    {select : SearchSource → Row δ ν → Option SearchRow}
    (h : ∀ t row selected, select t row = some selected →
      selected.source_type = SOURCE_LABELS t ∧ selected.id = row.id) :
    FromTable db fun t => (db.contents t).rows.filterMap (select t) := by
  intro t
  refine ⟨fun row hrow => ?_, sublist_ids fun row selected hs => (h t row selected hs).2⟩
  obtain ⟨stored, _, hselect⟩ := mem_filterMap.mp hrow
  exact (h t stored row hselect).1

theorem of_columns {t : SearchSource} {row : Row δ ν} {selected : SearchRow} {p q : Bool}
    {d d' f f' : Option ℚ} {c c' n n' : Option Nat}
    (h : (if t = .session_events then
        if p then some (sessionEventColumns row d f c n) else none
      else if q then some (selectColumns t row d' f' c' n') else none) = some selected) :
    selected.source_type = SOURCE_LABELS t ∧ selected.id = row.id := by
  split at h
  · rename_i ht
    rw [← Option.some.inj (Option.ite_none_right_eq_some.mp h).2]
    exact ⟨ht ▸ rfl, rfl⟩
  · rw [← Option.some.inj (Option.ite_none_right_eq_some.mp h).2]
    exact ⟨rfl, rfl⟩

theorem vectorArm_fromTable (db : Database δ ν) (request : SearchRequest) (embedding : ν) :
    FromTable db (vectorArm db request embedding).rows := by
  refine fromTable_filterMap fun t row selected h => ?_
  obtain ⟨stored, _, h⟩ := Option.bind_eq_some_iff.mp h
  exact of_columns h

theorem keywordArm_fromTable (db : Database δ ν) (request : SearchRequest) :
    FromTable db (keywordArm db request).rows :=
  fromTable_filterMap fun _ _ _ h => of_columns h

theorem partialArm_fromTable (db : Database δ ν) (request : SearchRequest) :
    FromTable db (partialArm db request).rows :=
  fromTable_filterMap fun _ _ _ h => of_columns h

section
variable {κ κ' : Type} [LinearOrder κ] [LinearOrder κ'] {arm : Arm SearchSource SearchRow κ κ'}
  {tables : List SearchSource} {db : Database δ ν}

theorem nodup_ids (h : FromTable db arm.rows) (t : SearchSource) :
    ((arm.rows t).map SearchRow.id).Nodup := (db.contents t).primaryKey.sublist (h t).2

theorem nodup_identity (h : FromTable db arm.rows) (htables : tables.Nodup) :
    ((arm.all tables).map SearchRow.identity).Nodup := by
  unfold Arm.all
  rw [map_flatMap, nodup_flatMap]
  constructor
  · intro t _
    have hids : ((orderBy (arm.cut t) (arm.rows t)).map SearchRow.id).Nodup :=
      (((perm_orderBy (arm.cut t) (arm.rows t)).map _).nodup_iff).mpr (nodup_ids h t)
    refine List.Nodup.of_map Prod.snd ?_
    rw [map_map]
    exact hids
  · refine htables.imp fun {t t'} hne => ?_
    intro record hrecord hrecord'
    obtain ⟨row, hrow, rfl⟩ := mem_map.mp hrecord
    obtain ⟨row', hrow', heq⟩ := mem_map.mp hrecord'
    have hlabel : row.source_type = SOURCE_LABELS t := (h t).1 row (mem_orderBy.mp hrow)
    have hlabel' : row'.source_type = SOURCE_LABELS t' := (h t').1 row' (mem_orderBy.mp hrow')
    refine hne (label_injective ?_)
    rw [← hlabel, ← hlabel']
    exact (congrArg Prod.fst heq).symm

theorem nodup_window (h : FromTable db arm.rows) (htables : tables.Nodup) (m : Nat) :
    ((arm.window tables m).map SearchRow.identity).Nodup := by
  refine (((perm_orderBy arm.order (arm.cutAt tables m)).map _).nodup_iff).mpr ?_
  exact (nodup_identity h htables).sublist ((arm.cutAt_sublist_all tables m).map _)

/-- The rows an arm with a window of `m` sees are the first `m` of that window. -/
theorem getElem?_take_window (hd : arm.Distinct tables) {m p : Nat} {row : SearchRow} :
    ((arm.window tables m).take m)[p]? = some row ↔
      row ∈ seen arm tables m ∧ arm.rank tables m row = p := by
  unfold seen
  rw [getElem?_take, mem_filter, decide_eq_true_iff]
  split
  · rename_i hp
    rw [Arm.getElem?_window hd]
    exact ⟨fun ⟨h, heq⟩ => ⟨⟨h, heq ▸ hp⟩, heq⟩, fun ⟨⟨h, _⟩, heq⟩ => ⟨h, heq⟩⟩
  · rename_i hp
    exact ⟨fun h => (nomatch h), fun ⟨⟨_, hlt⟩, heq⟩ => absurd (heq ▸ hlt) hp⟩

theorem perm_seen (hd : arm.Distinct tables) (m : Nat) :
    ((arm.window tables m).take m).Perm (seen arm tables m) := by
  have hreach : (arm.reach tables m).Nodup :=
    (Arm.cutAt_perm hd m).nodup_iff.mp ((Arm.nodup_cutAt hd m).of_map _)
  have hwindow : (arm.window tables m).Nodup :=
    (perm_orderBy arm.order _).nodup_iff.mpr ((Arm.nodup_cutAt hd m).of_map _)
  refine (perm_ext_iff_of_nodup (hwindow.sublist (take_sublist _ _))
    (hreach.filter _)).mpr fun row => ?_
  rw [mem_iff_getElem?]
  constructor
  · rintro ⟨p, hp⟩
    exact ((getElem?_take_window hd).mp hp).1
  · intro hrow
    exact ⟨_, (getElem?_take_window hd).mpr ⟨hrow, rfl⟩⟩

theorem nodup_take_window (h : FromTable db arm.rows) (htables : tables.Nodup) (m : Nat) :
    (((arm.window tables m).take m).map SearchRow.identity).Nodup :=
  (nodup_window h htables m).sublist ((take_sublist _ _).map _)

theorem zipIdx_window (hd : arm.Distinct tables) (m : Nat) :
    ((arm.window tables m).take m).zipIdx =
      ((arm.window tables m).take m).map fun row => (row, arm.rank tables m row) :=
  zipIdx_eq_map fun _ _ h => ((getElem?_take_window hd).mp h).2

theorem vote_window (hd : arm.Distinct tables) (h : FromTable db arm.rows) (htables : tables.Nodup)
    (m : Nat) (record : String × String) :
    vote ((arm.window tables m).take m) 0 record = ballot arm tables m record := by
  unfold vote ballot
  rw [zipIdx_window hd, find?_map, Option.map_map,
    ← find?_perm (perm_seen hd m) (nodup_take_window h htables m)]
  rfl

end

/-! ## The fused windows -/

section
variable {db : Database δ ν} {request : SearchRequest} {embedding : ν}

theorem partial_columns {t : SearchSource} {row : SearchRow}
    (h : row ∈ (partialArm db request).rows t) :
    ∃ document, (db.queryLexemes request.ftsConfig request.query).any
        (db.hasLexeme request.ftsConfig document) ∧
      row.lexical_coverage = some (lexicalCoverage db request.ftsConfig request.query document) ∧
      row.query_lexeme_count = some (queryLexemeCount db request.ftsConfig request.query) := by
  obtain ⟨stored, _, h⟩ := mem_filterMap.mp h
  refine ⟨stored.document, ?_⟩
  split at h
  · obtain ⟨hmatched, h⟩ := Option.ite_none_right_eq_some.mp h
    rw [← Option.some.inj h]
    exact ⟨(Bool.and_eq_true_iff.mp hmatched).1, rfl, rfl⟩
  · obtain ⟨hmatched, h⟩ := Option.ite_none_right_eq_some.mp h
    rw [← Option.some.inj h]
    exact ⟨(Bool.and_eq_true_iff.mp (Bool.and_eq_true_iff.mp hmatched).1).1, rfl, rfl⟩

/-- So its coverage never stops the fusion. -/
theorem partial_covered {t : SearchSource} {row : SearchRow}
    (h : row ∈ (partialArm db request).rows t) (i : Nat) :
    rrfArmContribution row i .lexical = .ok (reciprocalRank i) := by
  obtain ⟨document, hany, hcoverage, hcount⟩ := partial_columns h
  obtain ⟨lexeme, hmem, hhas⟩ := any_eq_true.mp hany
  have hpos : 0 < lexicalCoverage db request.ftsConfig request.query document :=
    countP_pos_iff.mpr ⟨lexeme, hmem, hhas⟩
  have hle : lexicalCoverage db request.ftsConfig request.query document ≤
      queryLexemeCount db request.ftsConfig request.query := countP_le_length
  unfold rrfArmContribution
  rw [hcoverage, hcount]
  exact if_neg (by omega)

/-- The keys of the lexical arm end in the record. -/
theorem partialArm_distinct (db : Database δ ν) (request : SearchRequest)
    (htables : request.tables.Nodup) : (partialArm db request).Distinct request.tables where
  cut := by
    intro t _
    refine List.Nodup.of_map (fun key : ℚ ×ₗ ℚ ×ₗ String => (ofLex (ofLex key).2).2) ?_
    rw [map_map]
    exact nodup_ids (partialArm_fromTable db request) t
  order := by
    refine List.Nodup.of_map
      (fun key : ℚ ×ₗ ℚ ×ₗ String ×ₗ String => ofLex (ofLex (ofLex key).2).2) ?_
    rw [map_map]
    exact nodup_identity (partialArm_fromTable db request) htables

/-- The rows an arm brings into the fusion of the first `total` results. -/
def brought {κ κ' : Type} [LinearOrder κ] [LinearOrder κ'] (arm : Arm SearchSource SearchRow κ κ')
    (tables : List SearchSource) (total : Nat) : List SearchRow :=
  (arm.window tables (total * HYBRID_FETCH_MULTIPLIER)).take (total * HYBRID_FETCH_MULTIPLIER)

theorem brought_all {κ κ' : Type} [LinearOrder κ] [LinearOrder κ']
    {arm : Arm SearchSource SearchRow κ κ'} {tables : List SearchSource} {total : Nat}
    (h : (arm.all tables).length ≤ total * HYBRID_FETCH_MULTIPLIER) :
    brought arm tables total = orderBy arm.order (arm.all tables) := by
  unfold brought Arm.window
  rw [arm.cutAt_all tables h]
  refine take_of_length_le ?_
  rw [(perm_orderBy arm.order _).length_eq]
  exact h

theorem le_length_brought {κ κ' : Type} [LinearOrder κ] [LinearOrder κ']
    {arm : Arm SearchSource SearchRow κ κ'} {tables : List SearchSource} {n total : Nat}
    (hn : n ≤ total) (h : n ≤ (arm.all tables).length) :
    n ≤ (brought arm tables total).length := by
  rcases Nat.le_total (arm.all tables).length (total * HYBRID_FETCH_MULTIPLIER) with hall | hall
  · rw [brought_all hall, (perm_orderBy arm.order _).length_eq]
    exact h
  · unfold brought
    rw [length_take, Nat.min_eq_left (arm.le_length_window tables hall)]
    unfold HYBRID_FETCH_MULTIPLIER
    omega

def fused (db : Database δ ν) (request : SearchRequest) (embedding : ν) (total : Nat) :
    List RankedCandidate :=
  let vector := brought (vectorArm db request embedding) request.tables total
  let lexical := brought (partialArm db request) request.tables total
  (vector.zipIdx.map fun entry =>
    (RankedCandidate.first entry.1 .vector (reciprocalRank entry.2)).lift .lexical
      (vote lexical 0 entry.1.identity)) ++
  (lexical.zipIdx.filter fun entry => (vote vector 0 entry.1.identity).isNone).map fun entry =>
    RankedCandidate.first entry.1 .lexical (reciprocalRank entry.2)

theorem fused_rows (total : Nat) :
    (fused db request embedding total).map RankedCandidate.row =
      brought (vectorArm db request embedding) request.tables total ++
      (brought (partialArm db request) request.tables total).filter fun row =>
        (vote (brought (vectorArm db request embedding) request.tables total) 0
          row.identity).isNone := by
  unfold fused
  rw [map_append, map_map, map_map]
  refine congrArg₂ (· ++ ·) ?_ ?_
  · refine (map_congr_left fun entry _ => RankedCandidate.lift_row _ _ _).trans ?_
    exact zipIdx_map_fst ..
  · conv_rhs => rw [← zipIdx_map_fst 0 (brought (partialArm db request) request.tables total)]
    rw [filter_map]
    rfl

theorem fused_nodup (htables : request.tables.Nodup) (total : Nat) :
    (((fused db request embedding total).map RankedCandidate.row).map SearchRow.identity).Nodup := by
  have hvector := nodup_take_window (vectorArm_fromTable db request embedding) htables
    (total * HYBRID_FETCH_MULTIPLIER)
  have hlexical := nodup_take_window (partialArm_fromTable db request) htables
    (total * HYBRID_FETCH_MULTIPLIER)
  rw [fused_rows, map_append]
  refine List.Nodup.append hvector (hlexical.sublist (filter_sublist.map _)) ?_
  intro record hrecord hrecord'
  obtain ⟨row, hrow, rfl⟩ := mem_map.mp hrecord'
  have hnone := Option.isNone_iff_eq_none.mp (mem_filter.mp hrow).2
  exact vote_eq_none.mp hnone hrecord

theorem length_le_fused (htables : request.tables.Nodup) (total : Nat) :
    (brought (vectorArm db request embedding) request.tables total).length ≤
        (fused db request embedding total).length ∧
      (brought (partialArm db request) request.tables total).length ≤
        (fused db request embedding total).length := by
  have hrows : ∀ l : List RankedCandidate,
      ((l.map RankedCandidate.row).map SearchRow.identity).length = l.length := by simp
  rw [← hrows, fused_rows]
  constructor
  · simp
  · have hlexical := nodup_take_window (partialArm_fromTable db request) htables
      (total * HYBRID_FETCH_MULTIPLIER)
    rw [← length_map SearchRow.identity]
    refine (subperm_of_subset hlexical fun record hrecord => ?_).length_le
    obtain ⟨row, hrow, rfl⟩ := mem_map.mp hrecord
    rw [map_append, mem_append]
    by_cases hmem : row.identity ∈
        (brought (vectorArm db request embedding) request.tables total).map SearchRow.identity
    · exact .inl hmem
    · refine .inr (mem_map_of_mem (mem_filter.mpr ⟨hrow, ?_⟩))
      exact Option.isNone_iff_eq_none.mpr (vote_eq_none.mpr hmem)

theorem keys_nodup (htables : request.tables.Nodup) (total : Nat) :
    ((fused db request embedding total).map (candidateKey db.now)).Nodup := by
  refine List.Nodup.of_map
    (fun key : ℚ ×ₗ ℚ ×ₗ String ×ₗ String => ofLex (ofLex (ofLex key).2).2) ?_
  have h : (((fused db request embedding total).map RankedCandidate.row).map
      SearchRow.identity).Nodup := fused_nodup htables total
  rw [map_map] at h ⊢
  exact h

/-- The fusion for page `i` and the fusion for all pages put as many rows on page `i`. -/
theorem length_fused (htables : request.tables.Nodup) {n i k : Nat} (hi : i < k) :
    (page n i (orderBy (candidateKey db.now) (fused db request embedding ((i + 1) * n)))).length =
      (page n i (orderBy (candidateKey db.now) (fused db request embedding (k * n)))).length := by
  have hle : (i + 1) * n ≤ k * n := Nat.mul_le_mul_right n hi
  rw [length_page, length_page, (perm_orderBy _ _).length_eq, (perm_orderBy _ _).length_eq]
  have hsame : ∀ {m m' : Nat}, (i + 1) * n ≤ m → (i + 1) * n ≤ m' →
      min n (m - i * n) = min n (m' - i * n) := by
    intro m m' hm hm'
    rw [Nat.succ_mul] at hm hm'
    omega
  by_cases hv : (i + 1) * n ≤ ((vectorArm db request embedding).all request.tables).length
  · exact hsame
      (Nat.le_trans (le_length_brought (Nat.le_refl _) hv) (length_le_fused htables _).1)
      (Nat.le_trans (le_length_brought hle hv) (length_le_fused htables _).1)
  by_cases hl : (i + 1) * n ≤ ((partialArm db request).all request.tables).length
  · exact hsame
      (Nat.le_trans (le_length_brought (Nat.le_refl _) hl) (length_le_fused htables _).2)
      (Nat.le_trans (le_length_brought hle hl) (length_le_fused htables _).2)
  · -- both arms bring all they have
    have hwide : ∀ {total : Nat}, (i + 1) * n ≤ total →
        (i + 1) * n ≤ total * HYBRID_FETCH_MULTIPLIER := by
      intro total htotal
      unfold HYBRID_FETCH_MULTIPLIER
      omega
    have hfused : ∀ {total : Nat}, (i + 1) * n ≤ total → fused db request embedding total =
        fused db request embedding ((i + 1) * n) := by
      intro total htotal
      unfold fused
      rw [brought_all (Nat.le_trans (Nat.le_of_not_le hv) (hwide htotal)),
        brought_all (Nat.le_trans (Nat.le_of_not_le hl) (hwide htotal)),
        brought_all (Nat.le_trans (Nat.le_of_not_le hv) (hwide (Nat.le_refl _))),
        brought_all (Nat.le_trans (Nat.le_of_not_le hl) (hwide (Nat.le_refl _)))]
    rw [hfused hle]

theorem vectorSearch_eq (db : Database δ ν) (request : SearchRequest) (embedding : ν)
    (window : ArmWindow) :
    vectorSearch db request embedding window =
      (((vectorArm db request embedding).window request.tables window.fetchLimit).drop
        window.offset).take window.fetchLimit := rfl

theorem ftsSearch_hybrid (db : Database δ ν) (request : SearchRequest)
    (hmode : request.mode = .hybrid) (window : ArmWindow) :
    ftsSearch db request window =
      (((partialArm db request).window request.tables window.fetchLimit).drop
        window.offset).take window.fetchLimit := by
  unfold ftsSearch buildFtsCTE
  rw [hmode]
  rfl

theorem ftsSearch_keyword (db : Database δ ν) (request : SearchRequest)
    (hmode : request.mode = .keyword) (window : ArmWindow) :
    ftsSearch db request window =
      (((keywordArm db request).window request.tables window.fetchLimit).drop
        window.offset).take window.fetchLimit := by
  unfold ftsSearch buildFtsCTE
  rw [hmode]
  rfl

theorem executeSearch_nil (db : Database δ ν) (request : SearchRequest) (hnil : request.tables = [])
    (answer : Option ν) : executeSearch db answer request = .ok [] := if_pos hnil

theorem executeSearch_keyword (db : Database δ ν) (request : SearchRequest)
    (hne : request.tables ≠ []) (hmode : request.mode = .keyword) (answer : Option ν) :
    executeSearch db answer request =
      .ok (ftsSearch db request { fetchLimit := request.limit, offset := request.offset }) := by
  unfold executeSearch
  rw [if_neg hne]
  simp only [hmode]

theorem executeSearch_vector (db : Database δ ν) (request : SearchRequest)
    (hne : request.tables ≠ []) (hmode : request.mode = .vector) (answer : Option ν) :
    executeSearch db answer request =
      match answer with
      | none => .error "Failed to generate query embedding"
      | some embedding => .ok (vectorSearch db request embedding
          { fetchLimit := request.limit, offset := request.offset }) := by
  unfold executeSearch
  rw [if_neg hne]
  simp only [hmode]
  cases answer <;> rfl

theorem executeSearch_hybrid (db : Database δ ν) (request : SearchRequest)
    (hne : request.tables ≠ []) (hmode : request.mode = .hybrid) (answer : Option ν) :
    executeSearch db answer request =
      match answer with
      | none => .ok ((ftsSearch db request
          { fetchLimit := request.limit, offset := request.offset }).map toPublicSearchRow)
      | some embedding => hybridSearch db request embedding := by
  unfold executeSearch
  rw [if_neg hne]
  simp only [hmode]
  cases answer <;> rfl

theorem hybridSearch_eq (hmode : request.mode = .hybrid) (htables : request.tables.Nodup) (limit offset : Nat) :
    hybridSearch db (request.windowed limit offset) embedding =
      .ok ((((orderBy (candidateKey db.now) (fused db request embedding (offset + limit))).map
        (toPublicSearchRow ∘ RankedCandidate.row)).take (offset + limit)).drop offset) := by
  have hok : ∀ row ∈ brought (partialArm db request) request.tables (offset + limit), ∀ i,
      rrfArmContribution row i .lexical = .ok (reciprocalRank i) := by
    intro row hrow
    have hcut := mem_orderBy.mp (mem_of_mem_take hrow)
    obtain ⟨t, _, hrow⟩ := mem_flatMap.mp hcut
    exact partial_covered (mem_orderBy.mp (mem_of_mem_take hrow))
  have hacc : accumulateRrf (brought (vectorArm db request embedding) request.tables (offset + limit))
      (brought (partialArm db request) request.tables (offset + limit)) =
        .ok (fused db request embedding (offset + limit)) :=
    accumulateRrf_eq (nodup_take_window (vectorArm_fromTable db request embedding) htables _)
      (nodup_take_window (partialArm_fromTable db request) htables _) hok
  have hmerge : rrfMerge db.now
      (brought (vectorArm db request embedding) request.tables (offset + limit))
      (brought (partialArm db request) request.tables (offset + limit)) (offset + limit) =
        .ok (((orderBy (candidateKey db.now) (fused db request embedding (offset + limit))).take
          (offset + limit)).map RankedCandidate.row) := by
    unfold rrfMerge
    rw [hacc]
    rfl
  have hfts : ftsSearch db (request.windowed limit offset)
      { fetchLimit := (offset + limit) * HYBRID_FETCH_MULTIPLIER, offset := 0 } =
        brought (partialArm db request) request.tables (offset + limit) :=
    ftsSearch_hybrid db (request.windowed limit offset) hmode _
  unfold SearchRequest.windowed at hfts
  unfold hybridSearch SearchRequest.windowed
  simp only [hfts, vectorSearch_eq]
  refine (congrArg (fun fused => fused >>= _) hmerge).trans (congrArg Except.ok ?_)
  rw [← map_take, take_take, Nat.min_self, ← map_drop, map_map, map_drop,
    map_take]

variable (hv : (vectorArm db request embedding).Distinct request.tables)
  (htables : request.tables.Nodup)
include hv htables

theorem fused_perm (total : Nat) :
    (fused db request embedding total).Perm (candidates db request embedding total) := by
  have hl := partialArm_distinct db request htables
  have hfv := vectorArm_fromTable db request embedding
  have hfl := partialArm_fromTable db request
  unfold fused candidates brought
  refine List.Perm.append ?_ ?_
  · rw [zipIdx_window hv, map_map]
    refine ((perm_seen hv _).map _).trans (List.Perm.of_eq ?_)
    refine map_congr_left fun row _ => ?_
    exact congrArg _ (vote_window hl hfl htables _ _)
  · rw [zipIdx_window hl, filter_map, map_map]
    refine (((perm_seen hl _).filter _).map _).trans (List.Perm.of_eq ?_)
    refine congrArg _ (filter_congr fun row _ => ?_)
    exact congrArg Option.isNone (vote_window hv hfv htables _ _)

theorem getElem?_fused {total p : Nat} {row : SearchRow} :
    ((orderBy (candidateKey db.now) (fused db request embedding total)).map
        (toPublicSearchRow ∘ RankedCandidate.row))[p]? = some row ↔
      StandsAt db request embedding total row p := by
  have hperm := fused_perm hv htables total
  rw [getElem?_map, Option.map_eq_some_iff]
  constructor
  · rintro ⟨candidate, hat, hrow⟩
    obtain ⟨hmem, hplace⟩ := (getElem?_orderBy (keys_nodup htables total)).mp hat
    exact ⟨candidate, hperm.mem_iff.mp hmem, hrow, (place_perm _ hperm _).symm.trans hplace⟩
  · rintro ⟨candidate, hmem, hrow, hplace⟩
    refine ⟨candidate, (getElem?_orderBy (keys_nodup htables total)).mpr ?_, hrow⟩
    exact ⟨hperm.mem_iff.mpr hmem, (place_perm _ hperm _).trans hplace⟩

end

/-! ## The pages -/

section
variable {db : Database δ ν} {request : SearchRequest} {embedding : Option ν} {n k : Nat}

theorem tiles_iff {pages : Nat → List SearchRow} {whole : List SearchRow}
    (hpages : ∀ i < k, executeSearch db embedding (request.paged n i) = .ok (pages i))
    (hwhole : executeSearch db embedding (request.paged (k * n) 0) = .ok whole)
    (hnodup : (whole.map SearchRow.identity).Nodup) :
    Tiles db embedding request n k ↔ ((List.range k).map pages).flatten = whole := by
  refine ⟨fun h => (h pages whole hpages hwhole).2, fun heq pages' whole' hpages' hwhole' => ?_⟩
  have hsame : ∀ i < k, pages' i = pages i := fun i hi =>
    Except.ok.inj ((hpages' i hi).symm.trans (hpages i hi))
  have hflat : ((List.range k).map pages').flatten = whole := by
    rw [← heq]
    exact congrArg _ (map_congr_left fun i hi => hsame i (mem_range.mp hi))
  refine ⟨fun i j hij hj => ?_, ?_⟩
  · rw [← hflat, map_flatten, map_map, nodup_flatten] at hnodup
    have hpairs := pairwise_map.mp hnodup.2
    have hat := (pairwise_iff_getElem.mp hpairs) i j
      (by rw [length_range]; omega) (by rw [length_range]; omega) hij
    simpa using hat
  · rw [hflat]
    exact Except.ok.inj (hwhole.symm.trans hwhole')

variable {κ κ' : Type} [LinearOrder κ] [LinearOrder κ'] {arm : Arm SearchSource SearchRow κ κ'}
  {g : SearchRow → SearchRow}

theorem tiles_arm_iff (hd : arm.Distinct request.tables) (hf : FromTable db arm.rows)
    (htables : request.tables.Nodup) (hn : 1 ≤ n) (hg : ∀ row, (g row).identity = row.identity)
    (hsome : request.tables ≠ [] → ∀ limit offset,
      executeSearch db embedding (request.windowed limit offset) =
        .ok ((((arm.window request.tables limit).drop offset).take limit).map g)) :
    Tiles db embedding request n k ↔ Steady arm request.tables n k := by
  have hcall : ∀ limit offset,
      executeSearch db embedding (request.windowed limit offset) =
        .ok ((((arm.window request.tables limit).drop offset).take limit).map g) := by
    intro limit offset
    by_cases hne : request.tables = []
    · rw [executeSearch_nil db (request.windowed limit offset) hne]
      unfold Arm.window Arm.cutAt
      rw [hne]
      simp [orderBy]
    · exact hsome hne limit offset
  have hpages : ∀ i < k, executeSearch db embedding (request.paged n i) =
      .ok ((page n i (arm.window request.tables n)).map g) := fun i _ => hcall n (i * n)
  have hwhole : executeSearch db embedding (request.paged (k * n) 0) =
      .ok (((arm.window request.tables (k * n)).take (k * n)).map g) := by
    refine (hcall (k * n) (0 * (k * n))).trans ?_
    rw [Nat.zero_mul, drop_zero]
  have hmap : ∀ l : List SearchRow, (l.map g).map SearchRow.identity = l.map SearchRow.identity := by
    intro l
    rw [map_map]
    exact map_congr_left fun row _ => hg row
  have hnodup := nodup_take_window hf htables (k * n)
  rw [tiles_iff hpages hwhole (by rw [hmap]; exact hnodup)]
  have hflat : ((List.range k).map fun i => (page n i (arm.window request.tables n)).map g).flatten =
      ((arm.window request.tables n).take (k * n)).map g := by
    rw [← flatten_pages n k, map_flatten, map_map]
    rfl
  rw [hflat]
  cases k with
  | zero =>
    refine iff_of_true (by simp) fun row _ hlt => ?_
    exact absurd hlt (by rw [Nat.zero_mul]; exact Nat.not_lt_zero _)
  | succ k =>
    have hle : n ≤ (k + 1) * n := Nat.le_mul_of_pos_left n (Nat.succ_pos k)
    rw [Steady, ← Arm.take_window_iff hd hle]
    refine ⟨fun h => ?_, fun h => by rw [h]⟩
    have hall : ∀ m, ∀ row ∈ (arm.window request.tables m).take ((k + 1) * n),
        row ∈ arm.all request.tables := fun m row hrow =>
      (arm.cutAt_sublist_all request.tables m).subset (mem_orderBy.mp (mem_of_mem_take hrow))
    refine eq_of_map_eq (nodup_identity hf htables) (hall _) (hall _) ?_
    rw [← hmap, h, hmap]

theorem tiles_hybrid_iff {embedding : ν} (hmode : request.mode = .hybrid)
    (hv : (vectorArm db request embedding).Distinct request.tables)
    (htables : request.tables.Nodup) :
    Tiles db (some embedding) request n k ↔ SteadyVotes db request embedding n k := by
  have hcall : ∀ limit offset,
      executeSearch db (some embedding) (request.windowed limit offset) =
        hybridSearch db (request.windowed limit offset) embedding := by
    intro limit offset
    by_cases hne : request.tables = []
    · rw [hybridSearch_eq hmode htables, executeSearch_nil db (request.windowed limit offset) hne]
      unfold fused brought Arm.window Arm.cutAt
      rw [hne]
      simp [orderBy]
    · exact executeSearch_hybrid db (request.windowed limit offset) hne hmode (some embedding)
  let ranking : Nat → List SearchRow := fun total =>
    (orderBy (candidateKey db.now) (fused db request embedding total)).map
      (toPublicSearchRow ∘ RankedCandidate.row)
  have hpages : ∀ i < k, executeSearch db (some embedding) (request.paged n i) =
      .ok (page n i (ranking ((i + 1) * n))) := by
    intro i _
    refine (hcall n (i * n)).trans ((hybridSearch_eq hmode htables n (i * n)).trans ?_)
    rw [← Nat.succ_mul, drop_take, Nat.succ_mul, Nat.add_sub_cancel_left]
    rfl
  have hwhole : executeSearch db (some embedding) (request.paged (k * n) 0) =
      .ok ((ranking (k * n)).take (k * n)) := by
    refine (hcall _ _).trans ((hybridSearch_eq hmode htables _ _).trans ?_)
    rw [Nat.zero_mul, Nat.zero_add, drop_zero]
  have hnodup : (((ranking (k * n)).take (k * n)).map SearchRow.identity).Nodup := by
    have h : (((fused db request embedding (k * n)).map RankedCandidate.row).map
        SearchRow.identity).Nodup := fused_nodup htables (k * n)
    refine List.Nodup.sublist ((take_sublist _ _).map _) ?_
    rw [map_map] at h ⊢
    exact (((perm_orderBy (candidateKey db.now) _).map _).nodup_iff).mpr h
  rw [tiles_iff hpages hwhole hnodup, ← flatten_pages n k]
  have hlength : ∀ i < k,
      (page n i (ranking ((i + 1) * n))).length = (page n i (ranking (k * n))).length := by
    intro i hi
    rw [← map_page, ← map_page, length_map, length_map]
    exact length_fused htables hi
  have hpage : ∀ i, page n i (ranking ((i + 1) * n)) = page n i (ranking (k * n)) ↔
      ∀ p, i * n ≤ p → p < (i + 1) * n → ∀ row,
        StandsAt db request embedding ((i + 1) * n) row p ↔
          StandsAt db request embedding (k * n) row p := by
    intro i
    rw [page_eq_iff]
    refine forall₃_congr fun p _ _ => ?_
    rw [Option.ext_iff]
    exact forall_congr' fun row => by rw [getElem?_fused hv htables, getElem?_fused hv htables]
  constructor
  · exact fun h i hi => (hpage i).mp (pieces_eq hlength h i hi)
  · intro h
    refine congrArg _ (map_congr_left fun i hi => ?_)
    exact (hpage i).mpr (h i (mem_range.mp hi))

end

/-! ## Two thoughts -/

def twoThoughts : Database (String × ℚ) Unit where
  distance := fun _ _ => 0
  matchesAll := fun _ query document => document.1 == query
  rankAll := fun _ _ document => document.2
  ilike := fun query document => document.1 == query
  queryLexemes := fun _ query => [query]
  hasLexeme := fun _ document lexeme => document.1 == lexeme
  rankPartial := fun _ _ document => document.2
  now := 86400
  contents
    | .thoughts =>
      { rows := [
          { id := "a", ns := "collab", tier := some .warm, archived := false,
            usefulness_score := none, created_at := 0, embedding := none,
            document := ("relay", 2) },
          { id := "b", ns := "collab", tier := some .warm, archived := false,
            usefulness_score := none, created_at := 0, embedding := none,
            document := ("relay", 1) }]
        primaryKey := by decide }
    | _ => { rows := [], primaryKey := nodup_nil }

def relayRequest : SearchRequest where
  tables := [.thoughts]
  query := "relay"
  limit := 1
  mode := .keyword
  tier := none
  offset := 0
  ns := none
  ftsConfig := "english"

theorem relay_distinct : DistinctKeys twoThoughts none relayRequest where
  cut := by decide +kernel
  order := by decide +kernel

end OpenBrain.Server.Search
