import OpenBrain.Core.Assoc
import OpenBrain.Core.Result
import OpenBrain.Server.Rem.Candidates

/-!
# The graders of REM (`rem-jev-grader.ts`, `rem-terra-grader.ts`, `integrations/jev.ts`)

A model's grader is primed with the candidates of a pass and then asked for each of them; what it
has no answer for is graded by the heuristic. What the two services answer comes with the call:
`ask n` is the response to the `n`th Jev request, `transport n` that to the `n`th Terra request,
and `none` is a request that fails. Two tests of the code on floating point and on the bytes of a
request are parameters of it: whether probabilities sum to one, and whether a batch fits.
-/
namespace OpenBrain.Server.Rem
open OpenBrain.Core OpenBrain.Core.Ecma

/-! ## What the services answer -/

/-- mirrors jev.ts:73-93 -/
inductive JevAnswer where
  | choice (choice : Str) (probabilities : List (Str × Double)) (confidence : Double)
  | noul
  | score

/-- mirrors jev.ts:94-101; `answers` are the members of an object -/
structure JevResponse where
  model : Str
  answers : List (Str × JevAnswer)

/-- mirrors rem-terra-grader.ts:88-104 -/
structure TerraJudgement where
  id : Str
  score : Number
  label : Str
  quote : Str
  synopsis : Str
  agent_behavior : Str
  reasons : List Str
  decision_source : Option Str

/-- What a pass hears from the services. -/
structure Answers where
  sumsToOne : List Double → Bool
  fits : Nat → List RemCandidate → Bool
  ask : Nat → Option JevResponse
  transport : Nat → Option (List TerraJudgement)

/-! ## Jev -/

/-- A request: the index of its first record, and its records. -/
structure Batch where
  start : Nat
  records : List RemCandidate

/-- mirrors rem-terra-grader.ts:151, rem-jev-grader.ts:19-25 -/
def REM_LABELS : List Str :=
  ["DECISION", "CORRECTION", "PREFERENCE", "QUESTION", "NARRATION"].map units

/-- mirrors rem-terra-grader.ts:152, rem-jev-grader.ts:26 -/
def REM_SCORES : List Str := (List.range 11).map decimal

/-- mirrors jev-question-sets.ts:3 -/
def JEV_REM_RUBRIC_VERSION : Str := units "rem-label-score-v2"

/-- The question of a record and a classifier: `label` is the first, `score` the second.
mirrors jev.ts:259 -/
def questionId (record classifier : Nat) : Str :=
  units "r" ++ decimal record ++ units "_c" ++ decimal classifier

/-- The batches of the records from `start` on, where `taken` are already in the batch that is
growing; `none` is a record that fits in no batch.
mirrors jev.ts:296-330 -/
def planFrom (fits : Nat → List RemCandidate → Bool) :
    Nat → List RemCandidate → List RemCandidate → Option (List Batch)
  | start, taken, [] => some (if taken = [] then [] else [⟨start, taken⟩])
  | start, taken, c :: rest =>
    if fits start (taken ++ [c]) then planFrom fits start (taken ++ [c]) rest
    else if taken = [] then none
    else if fits (start + taken.length) [c] then
      (planFrom fits (start + taken.length) [c] rest).map (⟨start, taken⟩ :: ·)
    else none

/-- mirrors jev.ts:296-330 -/
def buildJevBatchPlan (fits : Nat → List RemCandidate → Bool) (records : List RemCandidate) :
    Option (List Batch) :=
  if (records.map RemCandidate.id).Nodup then planFrom fits 0 [] records else none

/-- An answer to a choice among `criteria`.
mirrors jev.ts:347-399 -/
def validateClassifierAnswer (sumsToOne : List Double → Bool) (criteria : List Str) :
    JevAnswer → Bool
  | .choice choice probabilities _ =>
    decide (choice ∈ criteria) &&
      probabilities.length == criteria.length &&
      criteria.all (fun key => decide (key ∈ probabilities.map Prod.fst)) &&
      sumsToOne (probabilities.map Prod.snd) &&
      (Assoc.last? probabilities choice).any fun p => probabilities.all fun q => q.2.le p
  | .noul | .score => false

/-- The two answers of a record, and the model that gave them. -/
structure Staged where
  label : JevAnswer
  score : JevAnswer
  servedModel : Str

/-- The answers to the record at `index`, where both are valid.
mirrors jev.ts:148-175, 418-428 -/
def stageRecord (sumsToOne : List Double → Bool) (r : JevResponse) (index : Nat) : Option Staged := do
  let label ← Assoc.last? r.answers (questionId index 0)
  let score ← Assoc.last? r.answers (questionId index 1)
  if validateClassifierAnswer sumsToOne REM_LABELS label &&
      validateClassifierAnswer sumsToOne REM_SCORES score then
    some ⟨label, score, r.model⟩
  else none

/-- The records from `index` on, each with its answers. -/
def stageFrom (sumsToOne : List Double → Bool) (r : JevResponse) :
    Nat → List RemCandidate → Option (List (Str × Staged))
  | _, [] => some []
  | index, c :: cs => do
    let staged ← stageRecord sumsToOne r index
    let rest ← stageFrom sumsToOne r (index + 1) cs
    some ((c.id, staged) :: rest)

/-- The batches from the `n`th on; the first that fails ends the plan.
mirrors jev.ts:401-433 -/
def executeFrom (a : Answers) : Nat → List Batch → Option (List (Str × Staged))
  | _, [] => some []
  | n, batch :: batches => do
    let r ← a.ask n
    if (r.answers.map Prod.fst).dedup.length = 2 * batch.records.length then
      let staged ← stageFrom a.sumsToOne r batch.start batch.records
      let rest ← executeFrom a (n + 1) batches
      some (staged ++ rest)
    else none

/-- A label and score that Jev gave, the model that served it, and the lower confidence. -/
structure JevDecision where
  label : Str
  score : Nat
  servedModel : Str
  confidence : Double

/-- `Math.min` -/
def minDouble (a b : Double) : Double := if a.le b then a else b

/-- mirrors rem-jev-grader.ts:96-124, rem-terra-grader.ts:204-219 -/
def decisionOf : Staged → Option JevDecision
  | ⟨.choice label _ labelConfidence, .choice score _ scoreConfidence, servedModel⟩ =>
    if label ∈ REM_LABELS ∧ servedModel ≠ [] then
      ((List.range 11).find? fun n => decimal n == score).map fun n =>
        ⟨label, n, servedModel, minDouble labelConfidence scoreConfidence⟩
    else none
  | _ => none

/-- What Jev decides for the candidates of a pass: for each of them, or nothing.
mirrors rem-jev-grader.ts:79-124, rem-terra-grader.ts:160-226 -/
def jevDecisions (a : Answers) (candidates : List RemCandidate) :
    Option (List (Str × JevDecision)) := do
  let plan ← buildJevBatchPlan a.fits candidates
  let staged ← executeFrom a 0 plan
  candidates.mapM fun c => do
    let answers ← staged.lookup c.id
    let decision ← decisionOf answers
    some (c.id, decision)

/-- `${servedModel}/${JEV_REM_RUBRIC_VERSION}` -/
def JevDecision.source (d : JevDecision) : Str := d.servedModel ++ units "/" ++ JEV_REM_RUBRIC_VERSION

/-- mirrors rem-terra-grader.ts:85 -/
def PROMOTE_AT : Nat := 5

/-! ## Terra -/

/-- `score >= PROMOTE_AT` -/
def atLeastPromote : Number → Bool
  | .finite d => Dec.le (Dec.ofInt PROMOTE_AT) d.1
  | .inf neg => !neg
  | .nan => false

/-- A Terra grader's options; its requests have at least one item. -/
structure TerraOptions where
  model : Str
  effort : Str
  batchSize : Nat
  positive : 0 < batchSize
  jev : Bool

/-- mirrors rem-prompt.ts:300 -/
def REM_MODEL : Str := units "gpt-5.6-terra"

/-- mirrors rem-prompt.ts:301 -/
def REM_EFFORT : Str := units "low"

/-- mirrors rem-terra-grader.ts:349-352 -/
def TerraOptions.name (o : TerraOptions) : Str :=
  if o.model = REM_MODEL ∧ o.effort = REM_EFFORT then units "rem-terra-low/round3"
  else units "rem-" ++ o.model ++ units "-" ++ o.effort ++ units "/round3"

abbrev Cache := List (Str × TerraJudgement)

/-- mirrors rem-terra-grader.ts:303-320 -/
def cacheKnownJudgements (judgements : List TerraJudgement) (slice : List RemCandidate)
    (cache : Cache) : Cache :=
  judgements.foldl (fun cache j =>
    if j.id ∈ slice.map RemCandidate.id then Assoc.set cache j.id j else cache) cache

/-- The requests from the `n`th on, with `batchSize` candidates each; a request that fails leaves
the cache. The recursion is on the candidates, of which `skip` are in the request before.
mirrors rem-terra-grader.ts:357-414 -/
def primeFrom (transport : Nat → Option (List TerraJudgement)) (batchSize : Nat) :
    Nat → Nat → List RemCandidate → Cache → Cache
  | _, _, [], cache => cache
  | n, skip + 1, _ :: rest, cache => primeFrom transport batchSize n skip rest cache
  | n, 0, c :: rest, cache =>
    let slice := (c :: rest).take batchSize
    let cache := match transport n with
      | some judgements => cacheKnownJudgements judgements slice cache
      | none => cache
    primeFrom transport batchSize (n + 1) (batchSize - 1) rest cache

def scoreNumber (n : Nat) : Number := Number.ofDec (Dec.ofInt n)

/-- mirrors rem-terra-grader.ts:228-244 -/
def enforceJevDecisions (cache : Cache) (decisions : List (Str × JevDecision)) : Cache :=
  decisions.foldl (fun cache d =>
    match cache.lookup d.1 with
    | some current => Assoc.set cache d.1
        { current with label := d.2.label, score := scoreNumber d.2.score,
                       decision_source := some d.2.source }
    | none => cache) cache

/-! ## The graders -/

inductive Grader where
  | heuristic
  | jev (floor : Option Double)
  | terra (o : TerraOptions)

/-- What a grader holds once it is primed. -/
structure Primed where
  decisions : List (Str × JevDecision)
  cache : Cache

/-- mirrors dream-rem.ts:120, rem-jev-grader.ts:75, rem-terra-grader.ts:349 -/
def Grader.name : Grader → Str
  | .heuristic => heuristicName
  | .jev _ => units "jev/" ++ JEV_REM_RUBRIC_VERSION
  | .terra o => o.name

/-- mirrors rem-jev-grader.ts:76-133, rem-terra-grader.ts:354-419 -/
def Grader.prime (a : Answers) (candidates : List RemCandidate) : Grader → Primed
  | .heuristic => ⟨[], []⟩
  | .jev _ => ⟨(jevDecisions a candidates).getD [], []⟩
  | .terra o =>
    let decisions := if o.jev then (jevDecisions a candidates).getD [] else []
    ⟨decisions, enforceJevDecisions (primeFrom a.transport o.batchSize 0 0 candidates []) decisions⟩

/-- `staged.confidence < floor`, where there is a floor -/
def belowFloor (floor : Option Double) (confidence : Double) : Option Double :=
  floor.filter fun f => !f.le confidence

/-- mirrors rem-jev-grader.ts:140-150 -/
def flooredSource (d : JevDecision) (floor : Double) : Str :=
  d.source ++ units " jev-rem conf=" ++ numText d.confidence ++ units "<floor=" ++ numText floor

/-- mirrors rem-jev-grader.ts:134-159 -/
def gradeJev (floor : Option Double) (p : Primed) (c : RemCandidate) : RemGrade :=
  match p.decisions.lookup c.id with
  | none => { heuristicGrade c with graderName := some heuristicName }
  | some d =>
    match belowFloor floor d.confidence with
    | some f => ⟨.inconclusive, none, some (flooredSource d f),
        some ⟨d.label, d.score, flooredSource d f, JEV_REM_RUBRIC_VERSION⟩⟩
    | none => ⟨if d.score ≥ PROMOTE_AT then .promoted else .inconclusive, none, some d.source,
        some ⟨d.label, d.score, d.source, JEV_REM_RUBRIC_VERSION⟩⟩

/-- mirrors rem-terra-grader.ts:421-432 -/
def gradeTerra (p : Primed) (c : RemCandidate) : RemGrade :=
  match p.cache.lookup c.id with
  | none => heuristicGrade c
  | some j => ⟨if atLeastPromote j.score then .promoted else .inconclusive,
      if j.synopsis = [] then none else some j.synopsis, none, none⟩

def Grader.grade (p : Primed) (c : RemCandidate) : Grader → RemGrade
  | .heuristic => heuristicGrade c
  | .jev floor => gradeJev floor p c
  | .terra _ => gradeTerra p c

end OpenBrain.Server.Rem
