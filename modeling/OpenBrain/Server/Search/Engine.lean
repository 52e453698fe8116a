import Mathlib.Data.Prod.Lex
import Mathlib.Data.Rat.Defs
import Mathlib.Algebra.Order.Ring.Rat
import Mathlib.Data.String.Basic
import OpenBrain.Core.Ranking

/-!
# The search engine

`server/tools/search-engine.ts` runs one query in three modes. Each arm cuts every table to the
arm's window, unites what is left, orders it again and takes `LIMIT` and `OFFSET`; hybrid mode
fuses the two arms by reciprocal rank (`search-engine-fusion.ts`). What PostgreSQL and pgvector
compute from a document, a query and an embedding is a `TextSearch`; a key that is ordered `DESC`
is negated.
-/
namespace OpenBrain.Server.Search

open OpenBrain.Core (orderBy)

inductive SearchSource where
  | thoughts | decisions | relationships | projects | sessions | session_events
deriving DecidableEq, Repr

def SOURCE_LABELS : SearchSource → String
  | .thoughts => "thought"
  | .decisions => "decision"
  | .relationships => "relationship"
  | .projects => "project"
  | .sessions => "session"
  | .session_events => "session_event"

inductive Tier where
  | hot | warm | cold
deriving DecidableEq, Repr

inductive SearchMode where
  | hybrid | vector | keyword
deriving DecidableEq, Repr

inductive NamespaceFilter where
  | one (ns : String)
  | anyOf (names : List String)

/-- A stored row. A session event takes its namespace from its lane and its tier from its
importance. -/
structure Row (δ ν : Type) where
  id : String
  ns : String
  tier : Option Tier
  archived : Bool
  usefulness_score : Option ℚ
  /-- In seconds. -/
  created_at : ℚ
  embedding : Option ν
  document : δ

structure Table (δ ν : Type) where
  rows : List (Row δ ν)
  primaryKey : (rows.map Row.id).Nodup

/-- What the database computes, under a text-search configuration where it takes one. -/
structure TextSearch (δ ν : Type) where
  /-- `embedding <=> query`. -/
  distance : ν → ν → ℚ
  /-- `vector @@ plainto_tsquery(config, q)`. -/
  matchesAll : String → String → δ → Bool
  /-- `ts_rank_cd` of that query. -/
  rankAll : String → String → δ → ℚ
  /-- `content ILIKE '%' || q || '%'`. -/
  ilike : String → δ → Bool
  /-- The distinct lexemes of `hybrid_search_tsvector(config, q, true)`. -/
  queryLexemes : String → String → List String
  /-- `vector @@ quote_literal(lexeme)::tsquery`. -/
  hasLexeme : String → δ → String → Bool
  /-- `ts_rank_cd(vector, l1 | l2 | …, 2)`. -/
  rankPartial : String → String → δ → ℚ

structure Database (δ ν : Type) extends TextSearch δ ν where
  contents : SearchSource → Table δ ν
  /-- `NOW()`, in seconds. -/
  now : ℚ

structure SearchRow where
  source_type : String
  id : String
  ns : String
  created_at : ℚ
  usefulness : ℚ
  tier : Option Tier
  distance : Option ℚ
  fts_rank : Option ℚ
  lexical_coverage : Option Nat
  query_lexeme_count : Option Nat
deriving DecidableEq, Repr

/-- The record a row stands for. A label has no colon, so the text `source_type:id` the code keys
on is as good as the pair. -/
def SearchRow.identity (row : SearchRow) : String × String := (row.source_type, row.id)

structure SearchRequest where
  tables : List SearchSource
  query : String
  limit : Nat
  mode : SearchMode
  tier : Option Tier
  offset : Nat
  ns : Option NamespaceFilter
  ftsConfig : String

structure ArmWindow where
  fetchLimit : Nat
  offset : Nat

structure CteContext where
  perTableLimit : Nat
  tier : Option Tier
  ns : Option NamespaceFilter

section
variable {δ ν : Type}

def inNamespace : Option NamespaceFilter → String → Bool
  | none, _ => true
  | some (.one wanted), ns => ns == wanted
  | some (.anyOf names), ns => names.contains ns

def inTier : Option Tier → Option Tier → Bool
  | none, _ => true
  | some wanted, tier => tier == some wanted

/-- `tierFilter` and `nsFilter`. -/
def inScope (tier : Option Tier) (ns : Option NamespaceFilter) (row : Row δ ν) : Bool :=
  inTier tier row.tier && inNamespace ns row.ns

def selectColumns (table : SearchSource) (row : Row δ ν) (distance fts_rank : Option ℚ)
    (coverage count : Option Nat) : SearchRow where
  source_type := SOURCE_LABELS table
  id := row.id
  ns := row.ns
  created_at := row.created_at
  usefulness := row.usefulness_score.getD (1 / 2)
  tier := row.tier
  distance := distance
  fts_rank := fts_rank
  lexical_coverage := coverage
  query_lexeme_count := count

def sessionEventColumns (row : Row δ ν) (distance fts_rank : Option ℚ)
    (coverage count : Option Nat) : SearchRow where
  source_type := SOURCE_LABELS .session_events
  id := row.id
  ns := row.ns
  created_at := row.created_at
  usefulness := 1 / 2
  tier := row.tier
  distance := distance
  fts_rank := fts_rank
  lexical_coverage := coverage
  query_lexeme_count := count

def lexicalCoverage (db : Database δ ν) (config query : String) (document : δ) : Nat :=
  (db.queryLexemes config query).countP (db.hasLexeme config document)

def queryLexemeCount (db : Database δ ν) (config query : String) : Nat :=
  (db.queryLexemes config query).length

/-! ## The rows of each arm, table by table -/

/-- The rows the vector arm selects; only the events are not filtered by `archived_at`. -/
def vectorMatches (db : Database δ ν) (tier : Option Tier) (ns : Option NamespaceFilter)
    (embedding : ν) (table : SearchSource) : List SearchRow :=
  (db.contents table).rows.filterMap fun row =>
    row.embedding.bind fun stored =>
      if table = .session_events then
        if inScope tier ns row then
          some (sessionEventColumns row (some (db.distance stored embedding)) none none none)
        else none
      else if !row.archived && inScope tier ns row then
        some (selectColumns table row (some (db.distance stored embedding)) none none none)
      else none

/-- The rows that hold every term; an event is matched by `ILIKE` and ranked 1. -/
def keywordMatches (db : Database δ ν) (tier : Option Tier) (ns : Option NamespaceFilter)
    (config query : String) (table : SearchSource) : List SearchRow :=
  (db.contents table).rows.filterMap fun row =>
    if table = .session_events then
      if db.ilike query row.document && inScope tier ns row then
        some (sessionEventColumns row none (some 1) none none)
      else none
    else if db.matchesAll config query row.document && !row.archived && inScope tier ns row then
      some (selectColumns table row none (some (db.rankAll config query row.document)) none none)
    else none

/-- `lexicalCandidateMode: "partial_coverage"`: the rows that hold some lexeme. -/
def partialMatches (db : Database δ ν) (tier : Option Tier) (ns : Option NamespaceFilter)
    (config query : String) (table : SearchSource) : List SearchRow :=
  (db.contents table).rows.filterMap fun row =>
    let matched := (db.queryLexemes config query).any (db.hasLexeme config row.document)
    let rank := some (db.rankPartial config query row.document)
    let coverage := some (lexicalCoverage db config query row.document)
    let count := some (queryLexemeCount db config query)
    if table = .session_events then
      if matched && inScope tier ns row then some (sessionEventColumns row none rank coverage count)
      else none
    else if matched && !row.archived && inScope tier ns row then
      some (selectColumns table row none rank coverage count)
    else none

/-! ## The orders -/

/-- `ORDER BY distance ASC`. -/
def distanceKey (row : SearchRow) : ℚ := row.distance.getD 0

def VECTOR_WEIGHT : ℚ := 7 / 10
def USEFULNESS_WEIGHT : ℚ := 15 / 100
def AGE_WEIGHT : ℚ := 1 / 10000

/-- The order of the united vector arm. -/
def vectorKey (now : ℚ) (row : SearchRow) : ℚ :=
  row.distance.getD 0 * VECTOR_WEIGHT + (1 - row.usefulness) * USEFULNESS_WEIGHT
    + (now - row.created_at) / 86400 * AGE_WEIGHT

/-- `ORDER BY fts_rank DESC`. -/
def rankKey (row : SearchRow) : ℚ := -row.fts_rank.getD 0

/-- The events are cut by `created_at DESC`. -/
def keywordCutKey (table : SearchSource) (row : SearchRow) : ℚ :=
  if table = .session_events then -row.created_at else rankKey row

/-- `ORDER BY lexical_coverage DESC, fts_rank DESC, id ASC`. -/
def partialCutKey (row : SearchRow) : ℚ ×ₗ ℚ ×ₗ String :=
  toLex (-(row.lexical_coverage.getD 0 : ℚ), toLex (rankKey row, row.id))

/-- `ORDER BY lexical_coverage DESC, fts_rank DESC, source_type ASC, id ASC`. -/
def partialKey (row : SearchRow) : ℚ ×ₗ ℚ ×ₗ String ×ₗ String :=
  toLex (-(row.lexical_coverage.getD 0 : ℚ),
    toLex (rankKey row, toLex (row.source_type, row.id)))

/-! ## The arms -/

def cteContextFor (request : SearchRequest) (window : ArmWindow) : CteContext where
  perTableLimit := window.fetchLimit
  tier := request.tier
  ns := request.ns

def buildVectorCTE (db : Database δ ν) (embedding : ν) (context : CteContext)
    (table : SearchSource) : List SearchRow :=
  (orderBy distanceKey (vectorMatches db context.tier context.ns embedding table)).take
    context.perTableLimit

def buildFtsCTE (db : Database δ ν) (mode : SearchMode) (config query : String)
    (context : CteContext) (table : SearchSource) : List SearchRow :=
  match mode with
  | .hybrid =>
    (orderBy partialCutKey (partialMatches db context.tier context.ns config query table)).take
      context.perTableLimit
  | _ =>
    (orderBy (keywordCutKey table)
      (keywordMatches db context.tier context.ns config query table)).take context.perTableLimit

def vectorSearch (db : Database δ ν) (request : SearchRequest) (embedding : ν)
    (window : ArmWindow) : List SearchRow :=
  let combined := request.tables.flatMap
    (buildVectorCTE db embedding (cteContextFor request window))
  ((orderBy (vectorKey db.now) combined).drop window.offset).take window.fetchLimit

def ftsSearch (db : Database δ ν) (request : SearchRequest) (window : ArmWindow) :
    List SearchRow :=
  let combined := request.tables.flatMap
    (buildFtsCTE db request.mode request.ftsConfig request.query (cteContextFor request window))
  match request.mode with
  | .hybrid => ((orderBy partialKey combined).drop window.offset).take window.fetchLimit
  | _ => ((orderBy rankKey combined).drop window.offset).take window.fetchLimit

/-! ## Fusion -/

inductive RrfArm where
  | vector | lexical
deriving DecidableEq, Repr

def HYBRID_RRF_K : Nat := 0
def HYBRID_CORROBORATION_BONUS : ℚ := 1 / 4

def TIER_BOOST : Tier → ℚ
  | .hot => 3 / 10
  | .warm => 0
  | .cold => -2 / 10

def TABLE_WEIGHT (source_type : String) : ℚ :=
  if source_type = "thought" ∨ source_type = "decision" then 12 / 10
  else if source_type = "project" then 9 / 10
  else if source_type = "session" then 8 / 10
  else 1

def reciprocalRank (index : Nat) : ℚ := 1 / (HYBRID_RRF_K + index + 1)

def rrfArmContribution (row : SearchRow) (index : Nat) (arm : RrfArm) : Except String ℚ :=
  match arm, row.lexical_coverage, row.query_lexeme_count with
  | .vector, _, _ => .ok (reciprocalRank index)
  | .lexical, some covered, some total =>
    if covered < 1 ∨ total < covered then
      .error s!"Invalid hybrid lexical coverage metadata for {row.source_type}:{row.id}"
    else .ok (reciprocalRank index)
  | .lexical, _, _ =>
    .error s!"Invalid hybrid lexical coverage metadata for {row.source_type}:{row.id}"

def recencyFactor (created_at now : ℚ) : ℚ :=
  let ageDays := (now - created_at) / 86400
  1 / (1 + max 0 ageDays * (1 / 1000))

/-- Breaks exact ties of the raw score only. -/
def fusedScore (row : SearchRow) (rrf now : ℚ) : ℚ :=
  max 0 ((rrf + TIER_BOOST (row.tier.getD .warm)) * TABLE_WEIGHT row.source_type
    * recencyFactor row.created_at now)

structure RankedCandidate where
  row : SearchRow
  rrf : ℚ
  presentInVector : Bool
  presentInLexical : Bool

def RankedCandidate.raise (candidate : RankedCandidate) (arm : RrfArm) (contribution : ℚ) :
    RankedCandidate :=
  match arm with
  | .vector => { candidate with rrf := candidate.rrf + contribution, presentInVector := true }
  | .lexical => { candidate with rrf := candidate.rrf + contribution, presentInLexical := true }

def RankedCandidate.first (row : SearchRow) (arm : RrfArm) (contribution : ℚ) : RankedCandidate where
  row := row
  rrf := contribution
  presentInVector := arm = .vector
  presentInLexical := arm = .lexical

def accumulateRow (arm : RrfArm) (scored : List RankedCandidate) (entry : SearchRow × Nat) :
    Except String (List RankedCandidate) := do
  let contribution ← rrfArmContribution entry.1 entry.2 arm
  if scored.any fun candidate => candidate.row.identity == entry.1.identity then
    return scored.map fun candidate =>
      if candidate.row.identity = entry.1.identity then candidate.raise arm contribution
      else candidate
  else return scored ++ [.first entry.1 arm contribution]

def accumulateRrf (vectorRows ftsRows : List SearchRow) : Except String (List RankedCandidate) := do
  let scored ← vectorRows.zipIdx.foldlM (accumulateRow .vector) []
  ftsRows.zipIdx.foldlM (accumulateRow .lexical) scored

def rawScore (candidate : RankedCandidate) : ℚ :=
  candidate.rrf
    + if candidate.presentInVector && candidate.presentInLexical then HYBRID_CORROBORATION_BONUS
      else 0

/-- `compareCandidates`: the raw score and the preference downwards, then the identity. -/
def candidateKey (now : ℚ) (candidate : RankedCandidate) : ℚ ×ₗ ℚ ×ₗ String ×ₗ String :=
  toLex (-rawScore candidate, toLex (-fusedScore candidate.row (rawScore candidate) now,
    toLex (candidate.row.source_type, candidate.row.id)))

def rrfMerge (now : ℚ) (vectorRows ftsRows : List SearchRow) (limit : Nat) :
    Except String (List SearchRow) := do
  let scored ← accumulateRrf vectorRows ftsRows
  return ((orderBy (candidateKey now) scored).take limit).map RankedCandidate.row

def toPublicSearchRow (row : SearchRow) : SearchRow :=
  { row with lexical_coverage := none, query_lexeme_count := none }

def HYBRID_FETCH_MULTIPLIER : Nat := 3

/-- With reranking disabled. -/
def hybridSearch (db : Database δ ν) (request : SearchRequest) (embedding : ν) :
    Except String (List SearchRow) := do
  let totalNeeded := request.offset + request.limit
  let window : ArmWindow := { fetchLimit := totalNeeded * HYBRID_FETCH_MULTIPLIER, offset := 0 }
  let vectorRows := vectorSearch db request embedding window
  let ftsRows := ftsSearch db request window
  let fused ← rrfMerge db.now vectorRows ftsRows totalNeeded
  let ranked := fused.take totalNeeded
  return (ranked.drop request.offset).map toPublicSearchRow

/-- `executeSearch`, for a query whose embedding is `embedding` or could not be generated. -/
def executeSearch (db : Database δ ν) (embedding : Option ν) (request : SearchRequest) :
    Except String (List SearchRow) :=
  let window : ArmWindow := { fetchLimit := request.limit, offset := request.offset }
  if request.tables = [] then .ok []
  else match request.mode, embedding with
    | .keyword, _ => .ok (ftsSearch db request window)
    | .vector, none => .error "Failed to generate query embedding"
    | .hybrid, none => .ok ((ftsSearch db request window).map toPublicSearchRow)
    | .vector, some embedding => .ok (vectorSearch db request embedding window)
    | .hybrid, some embedding => hybridSearch db request embedding

end
end OpenBrain.Server.Search
