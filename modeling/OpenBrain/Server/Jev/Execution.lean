import Mathlib.Algebra.Order.Ring.Rat
import Mathlib.Data.Prod.Lex
import OpenBrain.Core.Ranking
import OpenBrain.Server.Jev.BatchPlan

/-!
# Executing a Jev plan, and reranking by it (`integrations/jev.ts`)

`Service` is what lies outside: the request of a batch (`askJev`), the observer of a caller, and the
two tests of an answer on sums of floats. The batches of a plan differ, so a batch determines what
was heard for it. A finite double is the rational it is.
-/
namespace OpenBrain.Server.Jev
open OpenBrain.Core List

/-! ## Answers -/

/-- mirrors jev.ts:73-93 -/
inductive JevAnswer where
  | choice (choice : Str) (probabilities : List (Str × ℚ)) (confidence : ℚ)
  | noul (noul : ℚ)
  | score (score : ℚ) (legend : List (Str × Str)) (probabilities : List (Str × ℚ)) (confidence : ℚ)

/-- mirrors jev.ts:94-101; the ids are keys of an object -/
structure JevResponse where
  model : Str
  answers : List (Str × JevAnswer)
  inputTokens : Nat
  outputTokens : Nat
  ids_nodup : (answers.map Prod.fst).Nodup

/-- What is thrown on the way to a reranking. -/
inductive Failure where
  | plan (e : PlanError)
  | request (message : Str)
  | incompleteAnswers
  | invalidAnswer (questionId : Str)
  | missingAnswer
  | invalidRelevance

/-- What lies outside the code. -/
structure Service where
  ask : JevBatch → Except Failure JevResponse
  observeBatch : Option (JevBatch → Except Failure JevResponse → Except Failure JevResponse)
  sumsToOne : List ℚ → Bool
  scoreAgrees : ℚ → List (Str × ℚ) → Bool

/-- mirrors jev.ts:355-368 -/
def hasValidProbabilities (service : Service) (probabilities : List (Str × ℚ))
    (expectedKeys : List Str) : Bool :=
  probabilities.length == expectedKeys.length &&
    expectedKeys.all (fun key => (probabilities.lookup key).isSome) &&
    service.sumsToOne (probabilities.map Prod.snd)

/-- mirrors jev.ts:370-389 -/
def validateScoreAnswer (service : Service) (criteria : List Str) (score : ℚ)
    (legend : List (Str × Str)) (probabilities : List (Str × ℚ)) : Bool :=
  let expectedKeys := (List.range criteria.length).map decimal
  hasValidProbabilities service probabilities expectedKeys &&
    legend.length == expectedKeys.length &&
    criteria.zipIdx.all (fun c => legend.lookup (decimal c.2) == some c.1) &&
    decide (0 ≤ score) && decide (score ≤ criteria.length - 1) &&
    service.scoreAgrees score probabilities

/-- mirrors jev.ts:391-407 -/
def validateClassifierAnswer (service : Service) : JevQuestion → JevAnswer → Bool
  | .noul _ _, .noul _ => true
  | .choice _ criteria, .choice choice probabilities _ =>
    (criteria.map Prod.fst).contains choice &&
      hasValidProbabilities service probabilities (criteria.map Prod.fst) &&
      (probabilities.lookup choice).any fun p => probabilities.all fun q => decide (q.2 ≤ p)
  | .score _ criteria, .score score legend probabilities _ =>
    validateScoreAnswer service criteria score legend probabilities
  | _, _ => false

/-- The answer to a mapping's question, where it is valid.
mirrors jev.ts:154-170 -/
def validAnswer (service : Service) (batch : JevBatch) (response : JevResponse)
    (mapping : JevQuestionMapping) : Bool :=
  match response.answers.lookup mapping.questionId, batch.questions.lookup mapping.questionId with
  | some answer, some question => validateClassifierAnswer service question answer
  | _, _ => false

/-- mirrors jev.ts:146-173 -/
def validateJevBatchResponse (service : Service) (batch : JevBatch) (response : JevResponse) :
    Except Failure JevResponse :=
  if response.answers.length ≠ batch.mappings.length then .error .incompleteAnswers
  else
    match batch.mappings.find? fun m => !validAnswer service batch response m with
    | some mapping => .error (.invalidAnswer mapping.questionId)
    | none => .ok response

/-! ## The execution -/

/-- mirrors jev.ts:413-418 -/
structure Result where
  answers : List (Str × List (Str × JevAnswer))
  servedModels : List (Str × Str)
  inputTokens : Nat
  outputTokens : Nat

/-- `result.answers.get(key)?.[name]` -/
def Result.answer? (result : Result) (key name : Str) : Option JevAnswer :=
  (result.answers.lookup key).bind (·.lookup name)

/-- What is heard for a batch.
mirrors jev.ts:423-428 -/
def Service.respond (service : Service) (batch : JevBatch) : Except Failure JevResponse :=
  let work := service.ask batch >>= validateJevBatchResponse service batch
  match service.observeBatch with
  | some observeBatch => observeBatch batch work
  | none => work

/-- mirrors jev.ts:431-439 -/
def stageAnswer (response : JevResponse) (result : Result) (mapping : JevQuestionMapping) :
    Except Failure Result :=
  match response.answers.lookup mapping.questionId with
  | none => .error .missingAnswer
  | some answer => .ok
    { result with
      answers := Assoc.set result.answers mapping.recordKey
        (Assoc.set ((result.answers.lookup mapping.recordKey).getD []) mapping.classifierName answer)
      servedModels := Assoc.set result.servedModels mapping.recordKey response.model }

/-- mirrors jev.ts:422-440 -/
def executeBatch (service : Service) (result : Result) (batch : JevBatch) : Except Failure Result := do
  let response ← service.respond batch
  batch.mappings.foldlM (stageAnswer response)
    { result with
      inputTokens := result.inputTokens + response.inputTokens
      outputTokens := result.outputTokens + response.outputTokens }

/-- mirrors jev.ts:409-443 -/
def executeJevBatchPlan (service : Service) (plan : JevBatchPlan) : Except Failure Result :=
  plan.batches.foldlM (executeBatch service) ⟨[], [], 0, 0⟩

/-! ## The reranking -/

/-- mirrors jev-question-sets.ts:42-52 -/
def RELEVANCE_CLASSIFIER_SET : ClassifierSet where
  name := units "retrieval-relevance"
  version := units "direct-answer-relevance-v1"
  classifiers := [(units "relevance", .noul (.text (units "Does the candidate directly provide information answering the question, rather than merely discussing the same topic?")) none)]
  names_nodup := nodup_singleton _

/-- mirrors jev.ts:27-37; the key, the endpoint and the timeout belong to `Service.ask` -/
structure JevConfig where
  enabled : Bool
  model : Str
  maxRequestBytes : Nat
  maxStateQuestionBytes : Nat

/-- mirrors jev.ts:500-503 -/
structure JevRerankCandidate where
  id : Str
  content : Str

/-- A candidate with its score and its place in the input. -/
structure Scored (α : Type) where
  candidate : α
  score : ℚ
  index : Nat

/-- mirrors jev.ts:530-538 -/
def scoreOf {α : Type} (of : α → JevRerankCandidate) (result : Result) (c : α × Nat) :
    Except Failure (Scored α) :=
  match result.answer? (of c.1).id (units "relevance") with
  | some (.noul score) => .ok ⟨c.1, score, c.2⟩
  | _ => .error .invalidRelevance

/-- The higher score first, then the earlier candidate.
mirrors jev.ts:540 -/
def Scored.rank {α : Type} (s : Scored α) : ℚᵒᵈ ×ₗ Nat := toLex (OrderDual.toDual s.score, s.index)

def rerankArgs (config : JevConfig) (query : Str) : PlanArgs where
  sharedState := [(units "query", .str query)]
  classifierSet := RELEVANCE_CLASSIFIER_SET
  model := config.model
  maxRequestBytes := config.maxRequestBytes
  maxStateQuestionBytes := config.maxStateQuestionBytes

def recordOf (c : JevRerankCandidate) : JevClassifierRecord := ⟨c.id, c.content, none⟩

/-- The candidates in the order Jev gives them.
mirrors jev.ts:517-541 -/
def ranked {α : Type} (of : α → JevRerankCandidate) (service : Service) (config : JevConfig)
    (query : Str) (candidates : List α) : Except Failure (List α) := do
  let plan ← (buildJevBatchPlan (rerankArgs config query) (candidates.map fun c => recordOf (of c))).mapError .plan
  let result ← executeJevBatchPlan service plan
  let scored ← candidates.zipIdx.mapM (scoreOf of result)
  .ok ((orderBy Scored.rank scored).map Scored.candidate)

/-- mirrors jev.ts:505-545; a candidate is a value that has an id and a content -/
def rerankWithJev {α : Type} (of : α → JevRerankCandidate) (service : Service) (config : JevConfig)
    (query : Str) (candidates : List α) : List α :=
  if !config.enabled || candidates.length < 2 then candidates
  else
    match ranked of service config query candidates with
    | .ok reranked => reranked
    | .error _ => candidates

/-! ## What an execution attributes -/

section
variable {service : Service} {batch : JevBatch} {mapping : JevQuestionMapping} {response : JevResponse}
  {result result' : Result}

def Heard (service : Service) (batch : JevBatch) (mapping : JevQuestionMapping) (a : JevAnswer) : Prop :=
  ∃ response, service.respond batch = .ok response ∧
    response.answers.lookup mapping.questionId = some a

/-- The answers of a result are those heard for the mappings that are `done`, each under the record
and the classifier of its mapping. -/
def Attributed (service : Service) (done : List (JevBatch × JevQuestionMapping)) (result : Result) :
    Prop :=
  ∀ key name a, result.answer? key name = some a ↔
    ∃ p ∈ done, p.2.recordKey = key ∧ p.2.classifierName = name ∧ Heard service p.1 p.2 a

def pairOf (p : JevBatch × JevQuestionMapping) : Str × Str := (p.2.recordKey, p.2.classifierName)

theorem answer?_stageAnswer (h : stageAnswer response result mapping = .ok result') :
    ∃ a, response.answers.lookup mapping.questionId = some a ∧ ∀ key name,
      result'.answer? key name =
        if key = mapping.recordKey ∧ name = mapping.classifierName then some a
        else result.answer? key name := by
  unfold stageAnswer at h
  split at h
  · cases h
  · rename_i a ha
    cases h
    refine ⟨a, ha, fun key name => ?_⟩
    unfold Result.answer?
    rw [Assoc.lookup_set]
    by_cases hkey : key = mapping.recordKey
    · subst hkey
      rw [if_pos rfl, Option.bind_some, Assoc.lookup_set]
      by_cases hname : name = mapping.classifierName
      · rw [if_pos hname, if_pos ⟨rfl, hname⟩]
      · rw [if_neg hname, if_neg fun h => hname h.2]
        cases result.answers.lookup mapping.recordKey <;> rfl
    · rw [if_neg hkey, if_neg fun h => hkey h.1]

theorem Attributed.stage {done : List (JevBatch × JevQuestionMapping)}
    (hdone : Attributed service done result) (hresponse : service.respond batch = .ok response)
    (hnew : pairOf (batch, mapping) ∉ done.map pairOf)
    (h : stageAnswer response result mapping = .ok result') :
    Attributed service (done ++ [(batch, mapping)]) result' ∧ ∃ a, Heard service batch mapping a := by
  obtain ⟨a, ha, hanswer⟩ := answer?_stageAnswer h
  refine ⟨fun key name b => ?_, a, response, hresponse, ha⟩
  rw [hanswer]
  by_cases hpair : key = mapping.recordKey ∧ name = mapping.classifierName
  · obtain ⟨rfl, rfl⟩ := hpair
    rw [if_pos ⟨rfl, rfl⟩]
    constructor
    · rintro hab
      cases hab
      exact ⟨(batch, mapping), by simp, rfl, rfl, response, hresponse, ha⟩
    · rintro ⟨p, hp, hkey, hname, response', hresponse', hb⟩
      rcases mem_append.mp hp with hp | hp
      · exact absurd (mem_map.mpr ⟨p, hp, Prod.ext hkey hname⟩) hnew
      · obtain rfl := mem_singleton.mp hp
        cases hresponse.symm.trans hresponse'
        exact ha.symm.trans hb
  · rw [if_neg hpair, hdone key name b]
    constructor
    · rintro ⟨p, hp, h⟩
      exact ⟨p, mem_append_left _ hp, h⟩
    · rintro ⟨p, hp, hkey, hname, hb⟩
      rcases mem_append.mp hp with hp | hp
      · exact ⟨p, hp, hkey, hname, hb⟩
      · obtain rfl := mem_singleton.mp hp
        exact absurd ⟨hkey.symm, hname.symm⟩ hpair

theorem Attributed.stages {done : List (JevBatch × JevQuestionMapping)} {ms : List JevQuestionMapping}
    (hdone : Attributed service done result) (hresponse : service.respond batch = .ok response)
    (hnodup : ((done ++ ms.map (batch, ·)).map pairOf).Nodup)
    (h : ms.foldlM (stageAnswer response) result = .ok result') :
    Attributed service (done ++ ms.map (batch, ·)) result' ∧ ∀ m ∈ ms, ∃ a, Heard service batch m a := by
  induction ms generalizing done result with
  | nil =>
    cases h
    exact ⟨by simpa using hdone, by simp⟩
  | cons m ms ih =>
    rw [foldlM_cons] at h
    obtain ⟨next, hstage, hrest⟩ := bind_ok h
    have hsplit : done ++ (m :: ms).map (batch, ·) = (done ++ [(batch, m)]) ++ ms.map (batch, ·) := by
      simp
    rw [hsplit] at hnodup ⊢
    have hnew : pairOf (batch, m) ∉ done.map pairOf := by
      rw [map_append, map_append] at hnodup
      have := (nodup_append.mp hnodup).1
      intro hmem
      exact (nodup_append.mp this).2.2 _ hmem _ (by simp) rfl
    obtain ⟨hnext, a, ha⟩ := hdone.stage hresponse hnew hstage
    obtain ⟨hresult, hheard⟩ := ih hnext hnodup hrest
    exact ⟨hresult, forall_mem_cons.mpr ⟨⟨a, ha⟩, hheard⟩⟩

def mappingsOf (batches : List JevBatch) : List (JevBatch × JevQuestionMapping) :=
  batches.flatMap fun b => b.mappings.map (b, ·)

theorem Attributed.run {done : List (JevBatch × JevQuestionMapping)} {batches : List JevBatch}
    (hdone : Attributed service done result)
    (hnodup : ((done ++ mappingsOf batches).map pairOf).Nodup)
    (h : batches.foldlM (executeBatch service) result = .ok result') :
    Attributed service (done ++ mappingsOf batches) result' ∧
      ∀ b ∈ batches, ∀ m ∈ b.mappings, ∃ a, Heard service b m a := by
  induction batches generalizing done result with
  | nil =>
    cases h
    exact ⟨by simpa [mappingsOf] using hdone, by simp⟩
  | cons b bs ih =>
    rw [foldlM_cons] at h
    obtain ⟨next, hbatch, hrest⟩ := bind_ok h
    obtain ⟨response, hresponse, hstages⟩ := bind_ok hbatch
    have hsplit : done ++ mappingsOf (b :: bs) = (done ++ b.mappings.map (b, ·)) ++ mappingsOf bs := by
      simp [mappingsOf]
    rw [hsplit] at hnodup ⊢
    have hfirst : ((done ++ b.mappings.map (b, ·)).map pairOf).Nodup := by
      rw [map_append] at hnodup
      exact (nodup_append.mp hnodup).1
    -- what the batch uses up is no answer
    have hused : Attributed service done
        { result with
          inputTokens := result.inputTokens + response.inputTokens
          outputTokens := result.outputTokens + response.outputTokens } := hdone
    obtain ⟨hnext, hheard⟩ := hused.stages hresponse hfirst hstages
    obtain ⟨hresult, hrestHeard⟩ := ih hnext hnodup hrest
    exact ⟨hresult, forall_mem_cons.mpr ⟨hheard, hrestHeard⟩⟩

theorem pairs_mappingsOf (batches : List JevBatch) :
    (mappingsOf batches).map pairOf =
      (batches.flatMap JevBatch.mappings).map fun m => (m.recordKey, m.classifierName) := by
  unfold mappingsOf
  rw [map_flatMap, map_flatMap]
  simp only [map_map]
  rfl

/-- An execution has an answer for a record and a classifier exactly where it was heard for the
mapping of that record and classifier, and it has heard one for every mapping. -/
theorem execution_attributes {args : PlanArgs} {records : List JevClassifierRecord}
    {plan : JevBatchPlan} (hcovers : Covers args records plan.batches)
    (h : executeJevBatchPlan service plan = .ok result) :
    (∀ key name a, result.answer? key name = some a ↔ ∃ b ∈ plan.batches, ∃ m ∈ b.mappings,
      m.recordKey = key ∧ m.classifierName = name ∧ Heard service b m a) ∧
    ∀ b ∈ plan.batches, ∀ m ∈ b.mappings, ∃ a, Heard service b m a := by
  have hstart : Attributed service [] ⟨[], [], 0, 0⟩ := by
    intro key name a
    simp [Result.answer?]
  have hnodup : (([] ++ mappingsOf plan.batches).map pairOf).Nodup := by
    rw [nil_append, pairs_mappingsOf]
    exact hcovers.once
  obtain ⟨hresult, hheard⟩ := hstart.run hnodup h
  refine ⟨fun key name a => (hresult key name a).trans ?_, hheard⟩
  rw [nil_append]
  constructor
  · rintro ⟨p, hp, hpair⟩
    obtain ⟨b, hb, hm⟩ := mem_flatMap.mp hp
    obtain ⟨m, hmem, rfl⟩ := mem_map.mp hm
    exact ⟨b, hb, m, hmem, hpair⟩
  · rintro ⟨b, hb, m, hm, hpair⟩
    exact ⟨(b, m), mem_flatMap.mpr ⟨b, hb, mem_map_of_mem hm⟩, hpair⟩

end

/-! ## What a reranking keeps -/

section
variable {α : Type} {of : α → JevRerankCandidate} {service : Service} {config : JevConfig} {query : Str}
  {candidates : List α}

/-- Jev is on, the candidates are two or more, they make a plan, and Jev answers each question of
it with a score. -/
def Judged (of : α → JevRerankCandidate) (service : Service) (config : JevConfig) (query : Str)
    (candidates : List α) : Prop :=
  config.enabled = true ∧ 2 ≤ candidates.length ∧ ∃ plan,
    buildJevBatchPlan (rerankArgs config query) (candidates.map fun c => recordOf (of c)) = .ok plan ∧
    ∀ b ∈ plan.batches, ∀ m ∈ b.mappings, ∃ score, Heard service b m (.noul score)

theorem mapM_scoreOf {result : Result} {cs : List (α × Nat)} {scored : List (Scored α)}
    (h : cs.mapM (scoreOf of result) = .ok scored) :
    scored.map Scored.candidate = cs.map Prod.fst ∧
      ∀ c ∈ cs, ∃ score, result.answer? (of c.1).id (units "relevance") = some (.noul score) := by
  induction cs generalizing scored with
  | nil =>
    cases h
    simp
  | cons c cs ih =>
    rw [mapM_cons] at h
    obtain ⟨s, hs, h⟩ := bind_ok h
    obtain ⟨rest, hrest, h⟩ := bind_ok h
    cases h
    obtain ⟨hmap, hall⟩ := ih hrest
    unfold scoreOf at hs
    split at hs
    · rename_i score hscore
      cases hs
      exact ⟨by rw [map_cons, map_cons, hmap], forall_mem_cons.mpr ⟨⟨score, hscore⟩, hall⟩⟩
    · cases hs

theorem ranked_ok {reranked : List α} (h : ranked of service config query candidates = .ok reranked) :
    reranked.Perm candidates ∧ ∃ plan,
      buildJevBatchPlan (rerankArgs config query) (candidates.map fun c => recordOf (of c)) = .ok plan ∧
      ∀ b ∈ plan.batches, ∀ m ∈ b.mappings, ∃ score, Heard service b m (.noul score) := by
  unfold ranked at h
  obtain ⟨plan, hplan, h⟩ := bind_ok h
  obtain ⟨result, hresult, h⟩ := bind_ok h
  obtain ⟨scored, hscored, h⟩ := bind_ok h
  cases h
  obtain ⟨hmap, hall⟩ := mapM_scoreOf hscored
  have hbuild : buildJevBatchPlan (rerankArgs config query) (candidates.map fun c => recordOf (of c)) = .ok plan := by
    revert hplan
    cases buildJevBatchPlan (rerankArgs config query) (candidates.map fun c => recordOf (of c)) with
    | error e => exact fun h => by cases h
    | ok p => exact fun h => by cases h; rfl
  refine ⟨?_, plan, hbuild, ?_⟩
  · refine ((perm_orderBy Scored.rank scored).map Scored.candidate).trans ?_
    rw [hmap, zipIdx_map_fst]
  · intro b hb m hm
    have hcovers := covers_of_build hbuild
    obtain ⟨hanswer, hheard⟩ := execution_attributes hcovers hresult
    obtain ⟨a, ha⟩ := hheard b hb m hm
    -- the mapping is of a candidate and of the one classifier, whose answer was scored
    have hpair : (m.recordKey, m.classifierName) ∈ (plan.batches.flatMap JevBatch.mappings).map
        fun m => (m.recordKey, m.classifierName) :=
      mem_map.mpr ⟨m, mem_flatMap.mpr ⟨b, hb, hm⟩, rfl⟩
    rw [hcovers.asks] at hpair
    obtain ⟨r, hr, hname⟩ := mem_flatMap.mp hpair
    obtain ⟨c, hc, rfl⟩ := mem_map.mp hr
    obtain ⟨q, hq, heq⟩ := mem_map.mp hname
    obtain rfl := mem_singleton.mp hq
    obtain ⟨hkey, hrelevance⟩ := Prod.mk.inj heq
    obtain ⟨i, hi⟩ := getElem?_of_mem hc
    obtain ⟨score, hscore⟩ := hall (c, i) (mem_zipIdx_iff_getElem?.mpr hi)
    have hgiven := (hanswer _ _ a).mpr ⟨b, hb, m, hm, hkey.symm, hrelevance.symm, ha⟩
    cases hgiven.symm.trans hscore
    exact ⟨score, ha⟩

/-- A reranking is a permutation, and the order of the input when the candidates are not judged. -/
theorem rerank_law (of : α → JevRerankCandidate) (service : Service) (config : JevConfig)
    (query : Str) (candidates : List α) :
    (rerankWithJev of service config query candidates).Perm candidates ∧
      (¬Judged of service config query candidates →
        rerankWithJev of service config query candidates = candidates) := by
  unfold rerankWithJev
  by_cases hoff : (!config.enabled || decide (candidates.length < 2)) = true
  · rw [if_pos hoff]
    exact ⟨List.Perm.refl _, fun _ => rfl⟩
  · rw [if_neg hoff]
    simp only [Bool.or_eq_true, Bool.not_eq_true', decide_eq_true_eq, not_or, Bool.not_eq_false,
      not_lt] at hoff
    cases hranked : ranked of service config query candidates with
    | error e => exact ⟨List.Perm.refl _, fun _ => rfl⟩
    | ok reranked =>
      obtain ⟨hperm, hjudged⟩ := ranked_ok hranked
      exact ⟨hperm, fun h => absurd ⟨hoff.1, hoff.2, hjudged⟩ h⟩

end

/-! ## The law -/

/-- A plan asks each of the records for each classifier or says why there is none, its execution
attributes each answer to the record and the classifier it was asked for, and a reranking permutes
its candidates, in their own order where they are not judged. -/
theorem plan_law (args : PlanArgs) {records : List JevClassifierRecord}
    (hkeys : (records.map JevClassifierRecord.key).Nodup) (service : Service) :
    (match buildJevBatchPlan args records with
      | .ok plan => Covers args records plan.batches
      | .error e => ¬args.classifierSet.Proper ∨ ∃ i r, records[i]? = some r ∧
          e = .batchTooLarge r.key ∧ ¬WithinLimits args (materializeBatch args i [r])) ∧
    (∀ plan result, buildJevBatchPlan args records = .ok plan →
      executeJevBatchPlan service plan = .ok result →
      ∀ key name a, result.answer? key name = some a ↔ ∃ b ∈ plan.batches, ∃ m ∈ b.mappings,
        m.recordKey = key ∧ m.classifierName = name ∧ Heard service b m a) ∧
    ∀ (α : Type) (of : α → JevRerankCandidate) (config : JevConfig) (query : Str)
      (candidates : List α),
      (rerankWithJev of service config query candidates).Perm candidates ∧
        (¬Judged of service config query candidates →
          rerankWithJev of service config query candidates = candidates) := by
  refine ⟨?_, ?_, fun α of config query candidates => rerank_law of service config query candidates⟩
  · have hlaw := buildJevBatchPlan_law args hkeys
    cases hbuild : buildJevBatchPlan args records with
    | ok plan =>
      rw [hbuild] at hlaw
      exact hlaw.2.2
    | error e =>
      rw [hbuild] at hlaw
      exact hlaw
  · intro plan result hbuild hresult
    exact (execution_attributes (covers_of_build hbuild) hresult).1

/-- A search of two hits for `q`. -/
def sampleArgs : PlanArgs := rerankArgs ⟨true, units "jev-1.13.0", 4000, 2000⟩ (units "q")

def sampleRecords : List JevClassifierRecord :=
  [⟨units "a", units "one", none⟩, ⟨units "b", units "two", none⟩]

/-- A service that is down. -/
def downService : Service :=
  ⟨fun _ => .error (.request (units "fetch failed")), none, fun _ => true, fun _ _ => true⟩

theorem plan_law_sample :
    ∃ plan, buildJevBatchPlan sampleArgs sampleRecords = .ok plan ∧
      Covers sampleArgs sampleRecords plan.batches := by
  have hlaw := @plan_law sampleArgs sampleRecords (by decide) downService
  have hproper : sampleArgs.classifierSet.Proper := by
    refine validateClassifierSet_ok.mp ?_
    decide +kernel
  have hfits : ∀ i r, sampleRecords[i]? = some r →
      WithinLimits sampleArgs (materializeBatch sampleArgs i [r]) := by
    intro i r hr
    refine (fits_iff _ _ _).mp ?_
    match i with
    | 0 => cases hr; decide +kernel
    | 1 => cases hr; decide +kernel
    | i + 2 => cases hr
  cases hbuild : buildJevBatchPlan sampleArgs sampleRecords with
  | ok plan =>
    rw [hbuild] at hlaw
    exact ⟨plan, rfl, hlaw.1⟩
  | error e =>
    rw [hbuild] at hlaw
    rcases hlaw.1 with h | ⟨i, r, hr, -, h⟩
    · exact absurd hproper h
    · exact absurd (hfits i r hr) h

/-- A set without classifiers is refused, whatever the records. -/
theorem plan_refused :
    ¬∀ (args : PlanArgs) (records : List JevClassifierRecord),
      (records.map JevClassifierRecord.key).Nodup →
      (∃ plan, buildJevBatchPlan args records = .ok plan) ∨
        ∃ i r, records[i]? = some r ∧ buildJevBatchPlan args records = .error (.batchTooLarge r.key) ∧
          ¬WithinLimits args (materializeBatch args i [r]) := by
  intro h
  let args : PlanArgs :=
    { sampleArgs with classifierSet := ⟨units "none", units "v1", [], nodup_nil⟩ }
  have hbuild : buildJevBatchPlan args sampleRecords =
      .error (.error (units "Jev classifier set is empty")) := rfl
  rcases h args sampleRecords (by decide) with ⟨plan, hplan⟩ | ⟨i, r, -, herror, -⟩
  · cases hbuild.symm.trans hplan
  · cases hbuild.symm.trans herror

end OpenBrain.Server.Jev
