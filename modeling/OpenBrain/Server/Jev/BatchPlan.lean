import Mathlib.Data.List.Duplicate
import Mathlib.Data.List.Nodup
import OpenBrain.Core.Assoc
import OpenBrain.Core.EcmaJson
import OpenBrain.Core.Result

/-!
# The batches of a Jev plan (`integrations/jev.ts`)

A plan asks Jev about every record for every classifier. Its batches grow one record at a time, and
each candidate batch is serialised and measured afresh. An object is the list of its members in the
order of `Object.entries`, with distinct names. Questions have the types of the source, so of
`validateQuestion` the tests on values of another type are left out.
-/
namespace OpenBrain.Server.Jev
open OpenBrain.Core OpenBrain.Core.Ecma List

/-! ## Questions -/

inductive StructuredEntry where
  | text (s : Str)
  | texts (ss : List Str)

/-- mirrors jev.ts:44 -/
abbrev JevStructuredText := List (Str × StructuredEntry)

inductive Instructions where
  | text (s : Str)
  | structured (t : JevStructuredText)

inductive Criterion where
  | text (s : Str)
  | null
  | structured (t : JevStructuredText)

/-- mirrors jev.ts:46-60 -/
inductive JevQuestion where
  | choice (instructions : Instructions) (criteria : List (Str × Criterion))
  | noul (instructions : Instructions) (criteria : Option (Str × Str))
  | score (instructions : Instructions) (criteria : List Str)

def JevQuestion.instructions : JevQuestion → Instructions
  | .choice i _ | .noul i _ | .score i _ => i

/-- `{ ...question, instructions }` -/
def JevQuestion.withInstructions : JevQuestion → Instructions → JevQuestion
  | .choice _ c, i => .choice i c
  | .noul _ c, i => .noul i c
  | .score _ c, i => .score i c

/-- mirrors jev.ts:108-112; the names are keys of an object -/
structure ClassifierSet where
  name : Str
  version : Str
  classifiers : List (Str × JevQuestion)
  names_nodup : (classifiers.map Prod.fst).Nodup

/-- mirrors jev.ts:114-119 -/
structure JevClassifierRecord where
  key : Str
  content : Str
  fields : Option (List (Str × Option Str))

/-! ## What `JSON.stringify` is given -/

def StructuredEntry.toJson : StructuredEntry → JsonValue
  | .text s => .str s
  | .texts ss => .arr (ss.map .str)

def structuredJson (t : JevStructuredText) : JsonValue := .obj (t.map fun m => (m.1, m.2.toJson))

def Instructions.toJson : Instructions → JsonValue
  | .text s => .str s
  | .structured t => structuredJson t

def Criterion.toJson : Criterion → JsonValue
  | .text s => .str s
  | .null => .null
  | .structured t => structuredJson t

def JevQuestion.toJson : JevQuestion → JsonValue
  | .choice i c => .obj [(units "type", .str (units "choice")), (units "instructions", i.toJson),
      (units "criteria", .obj (c.map fun m => (m.1, m.2.toJson)))]
  | .noul i none => .obj [(units "type", .str (units "noul")), (units "instructions", i.toJson)]
  | .noul i (some (t, f)) => .obj [(units "type", .str (units "noul")),
      (units "instructions", i.toJson),
      (units "criteria", .obj [(units "true", .str t), (units "false", .str f)])]
  | .score i c => .obj [(units "type", .str (units "score")), (units "instructions", i.toJson),
      (units "criteria", .arr (c.map .str))]

def JevClassifierRecord.toJson (r : JevClassifierRecord) : JsonValue :=
  .obj <| [(units "key", .str r.key), (units "content", .str r.content)] ++
    match r.fields with
    | none => []
    | some fields => [(units "fields", .obj (fields.map fun m =>
        (m.1, match m.2 with | some s => .str s | none => .null)))]

/-- mirrors jev.ts:182-184 -/
def serializedBytes (value : JsonValue) : Nat := (Utf8.encode (stringify value)).length

/-! ## Validation -/

/-- What `buildJevBatchPlan` throws. -/
inductive PlanError where
  | error (message : Str)
  | batchTooLarge (recordKey : Str)
  deriving DecidableEq

/-- mirrors jev.ts:175-180 -/
def PlanError.message : PlanError → Str
  | .error message => message
  | .batchTooLarge recordKey =>
    units "Jev classifier record " ++ recordKey ++ units " exceeds configured byte ceilings"

/-- mirrors jev.ts:186-188 -/
def isNonEmptyString (s : Str) : Bool := !isBlank s

/-- mirrors jev.ts:190-201 -/
def isStructuredText (t : JevStructuredText) : Bool :=
  !t.isEmpty && t.all fun m =>
    match m.2 with
    | .text s => isNonEmptyString s
    | .texts ss => !ss.isEmpty && ss.all isNonEmptyString

def invalid (subject name text : Str) : PlanError :=
  .error (units "Jev " ++ subject ++ units " " ++ name ++ units " " ++ text)

/-- mirrors jev.ts:207-211 -/
def validCriterion (m : Str × Criterion) : Bool :=
  !isBlank m.1 &&
    match m.2 with
    | .text _ | .null => true
    | .structured t => isStructuredText t

/-- mirrors jev.ts:203-213 -/
def validateChoiceCriteria (name : Str) (criteria : List (Str × Criterion)) :
    Except PlanError Unit :=
  if criteria.isEmpty then
    .error (invalid (units "Choice classifier") name (units "requires nonempty criteria"))
  else if criteria.all validCriterion then .ok ()
  else .error (invalid (units "Choice classifier") name (units "has invalid criteria"))

/-- mirrors jev.ts:228-235 -/
def validateScoreCriteria (name : Str) (criteria : List Str) : Except PlanError Unit :=
  if 2 ≤ criteria.length ∧ criteria.length ≤ 10 ∧ criteria.all isNonEmptyString then .ok ()
  else .error (invalid (units "Score classifier") name (units "has invalid criteria"))

def Instructions.given : Instructions → Bool
  | .text s => isNonEmptyString s
  | .structured t => isStructuredText t

/-- mirrors jev.ts:237-248 -/
def validateQuestion (name : Str) (question : JevQuestion) : Except PlanError Unit :=
  if question.instructions.given then
    match question with
    | .choice _ criteria => validateChoiceCriteria name criteria
    | .noul _ _ => .ok ()
    | .score _ criteria => validateScoreCriteria name criteria
  else .error (invalid (units "classifier") name (units "has empty instructions"))

/-- mirrors jev.ts:250-254 -/
def validateClassifierSet (classifierSet : ClassifierSet) : Except PlanError Unit :=
  if classifierSet.classifiers.isEmpty then .error (.error (units "Jev classifier set is empty"))
  else forM classifierSet.classifiers fun c => validateQuestion c.1 c.2

/-! ## Batches -/

/-- mirrors jev.ts:121-125 -/
structure JevQuestionMapping where
  questionId : Str
  recordKey : Str
  classifierName : Str
  deriving DecidableEq

/-- mirrors jev.ts:127-134 -/
structure JevBatch where
  records : List JevClassifierRecord
  state : JsonValue
  questions : List (Str × JevQuestion)
  mappings : List JevQuestionMapping
  estimatedRequestBytes : Nat
  estimatedStateQuestionBytes : Nat

/-- mirrors jev.ts:136-139 -/
structure JevBatchPlan where
  classifierSet : ClassifierSet
  batches : List JevBatch

/-- What a plan is built from. -/
structure PlanArgs where
  sharedState : List (Str × JsonValue)
  classifierSet : ClassifierSet
  model : Str
  maxRequestBytes : Nat
  maxStateQuestionBytes : Nat

/-- The question of record `record` of the plan and classifier `classifier` of the set. -/
def questionId (record classifier : Nat) : Str :=
  units "r" ++ decimal record ++ units "_c" ++ decimal classifier

/-- mirrors jev.ts:274-280 -/
def judgeOnly (i : Instructions) (key : Str) (localIndex : Nat) : Instructions :=
  match i with
  | .text s => .text (s ++ units " Judge only record key " ++ key ++ units " at records[" ++
      decimal localIndex ++ units "].")
  | .structured t => .structured (Assoc.set t (units "judge_only")
      (.text (units "record key " ++ key ++ units " at records[" ++ decimal localIndex ++ units "]")))

def asked (classifierSet : ClassifierSet) (startIndex : Nat) (record : JevClassifierRecord)
    (localIndex : Nat) : List (JevQuestionMapping × JevQuestion) :=
  classifierSet.classifiers.zipIdx.map fun c =>
    (⟨questionId (startIndex + localIndex) c.2, record.key, c.1.1⟩,
      c.1.2.withInstructions (judgeOnly c.1.2.instructions record.key localIndex))

/-- What the two loops of `materializeBatch` push and write. -/
def askedFrom (classifierSet : ClassifierSet) (startIndex : Nat)
    (records : List JevClassifierRecord) : List (JevQuestionMapping × JevQuestion) :=
  records.zipIdx.flatMap fun r => asked classifierSet startIndex r.1 r.2

/-- mirrors jev.ts:286-293 -/
def stateOf (args : PlanArgs) (records : List JevClassifierRecord) : JsonValue :=
  .obj (Assoc.set (Assoc.set args.sharedState (units "classifier_set")
      (.obj [(units "name", .str args.classifierSet.name),
        (units "version", .str args.classifierSet.version)]))
    (units "records") (.arr (records.map JevClassifierRecord.toJson)))

/-- mirrors jev.ts:256-306 -/
def materializeBatch (args : PlanArgs) (startIndex : Nat) (records : List JevClassifierRecord) :
    JevBatch :=
  let asks := askedFrom args.classifierSet startIndex records
  let questions := Assoc.ofWrites (asks.map fun a => (a.1.questionId, a.2))
  let state := stateOf args records
  let longestQuestionBytes := (questions.map fun q => serializedBytes q.2.toJson).foldl max 0
  { records
    state
    questions
    mappings := asks.map Prod.fst
    estimatedRequestBytes := serializedBytes (.obj [(units "state", state),
      (units "model", .str args.model),
      (units "questions", .obj (questions.map fun q => (q.1, q.2.toJson)))])
    estimatedStateQuestionBytes := serializedBytes state + longestQuestionBytes }

/-- mirrors jev.ts:329-331 -/
def fits (args : PlanArgs) (candidate : JevBatch) : Bool :=
  decide (candidate.estimatedRequestBytes ≤ args.maxRequestBytes) &&
    decide (candidate.estimatedStateQuestionBytes ≤ args.maxStateQuestionBytes)

/-- The batch that `taken` grows into, record by record, from the last one `accepted`.
mirrors jev.ts:321-334 -/
def grow (args : PlanArgs) (start : Nat) (accepted : Option JevBatch)
    (taken : List JevClassifierRecord) : List JevClassifierRecord → Option JevBatch
  | [] => accepted
  | r :: rest =>
    let candidate := materializeBatch args start (taken ++ [r])
    if fits args candidate then grow args start (some candidate) (taken ++ [r]) rest else accepted

theorem grow_records (args : PlanArgs) {start : Nat} {accepted : Option JevBatch}
    {taken rest : List JevClassifierRecord} {b : JevBatch} (h : grow args start accepted taken rest = some b) :
    accepted = some b ∨ ∃ n, 0 < n ∧ n ≤ rest.length ∧
      b = materializeBatch args start (taken ++ rest.take n) ∧ fits args b = true := by
  induction rest generalizing accepted taken with
  | nil => exact Or.inl h
  | cons r rest ih =>
    unfold grow at h
    dsimp only at h
    split at h
    · rename_i hfits
      right
      rcases ih h with hb | ⟨n, hn, hle, hb, hfit⟩
      · cases hb
        exact ⟨1, Nat.one_pos, by simp, by simp, hfits⟩
      · refine ⟨n + 1, Nat.succ_pos n, by simpa using hle, ?_, hfit⟩
        rw [hb, take_succ_cons, append_assoc, singleton_append]
    · exact Or.inl h

/-- mirrors jev.ts:318-339 -/
def buildFrom (args : PlanArgs) (start : Nat) (records : List JevClassifierRecord) :
    Except PlanError (List JevBatch) :=
  match records with
  | [] => .ok []
  | r :: rest =>
    match h : grow args start none [] (r :: rest) with
    | none => .error (.batchTooLarge r.key)
    | some accepted =>
      (buildFrom args (start + accepted.records.length)
        ((r :: rest).drop accepted.records.length)).map (accepted :: ·)
termination_by records.length
decreasing_by
  -- the accepted batch holds at least one record
  rcases grow_records args h with h' | ⟨n, hn, hle, hb, -⟩
  · cases h'
  · subst hb
    simp only [materializeBatch, nil_append, length_take, List.length_drop]
    simp only [length_cons] at hle ⊢
    omega

/-- mirrors jev.ts:308-341 -/
def buildJevBatchPlan (args : PlanArgs) (records : List JevClassifierRecord) :
    Except PlanError JevBatchPlan := do
  validateClassifierSet args.classifierSet
  if (records.map JevClassifierRecord.key).Nodup then
    let batches ← buildFrom args 0 records
    .ok ⟨args.classifierSet, batches⟩
  else throw (.error (units "Jev classifier records contain duplicate keys"))

/-! ## Question ids -/

theorem decimal_injective {m n : Nat} (h : decimal m = decimal n) : m = n := by
  have hdigits : ∀ (k : Nat), (decimal k).map (fun u => Char.ofNat u.toNat) = Nat.toDigits 10 k := by
    intro k
    unfold decimal
    rw [map_map]
    refine (map_congr_left fun c hc => ?_).trans (List.map_id _)
    have hd := Nat.isDigit_of_mem_toDigits (by decide) (by decide) hc
    simp only [Char.isDigit, Bool.and_eq_true, decide_eq_true_eq] at hd
    have hle : c.toNat ≤ 57 := hd.2
    simp only [Function.comp_apply, unit, UInt16.toNat_ofNat', id_eq]
    rw [Nat.mod_eq_of_lt (by omega), Char.ofNat_toNat]
  have hchars : Nat.toDigits 10 m = Nat.toDigits 10 n := by rw [← hdigits, ← hdigits, h]
  rw [← Nat.ofDigitChars_toDigits (n := m) (b := 10) (by decide) (by decide), hchars,
    Nat.ofDigitChars_toDigits (by decide) (by decide)]

theorem underscore_notMem_decimal (n : Nat) : unit '_' ∉ decimal n := by
  intro h
  obtain ⟨c, hc, hu⟩ := mem_map.mp h
  have hd := Nat.isDigit_of_mem_toDigits (by decide) (by decide) hc
  simp only [Char.isDigit, Bool.and_eq_true, decide_eq_true_eq] at hd
  have hle : c.toNat ≤ 57 := hd.2
  have hu := congrArg UInt16.toNat hu
  simp only [unit, UInt16.toNat_ofNat'] at hu
  rw [Nat.mod_eq_of_lt (by omega)] at hu
  have h95 : '_'.toNat % 2 ^ 16 = 95 := by decide
  omega

theorem questionId_injective {i i' j j' : Nat} (h : questionId i j = questionId i' j') :
    i = i' ∧ j = j' := by
  have hsplit : ∀ a b, questionId a b = unit 'r' :: (decimal a ++ unit '_' :: (unit 'c' :: decimal b)) := by
    intro a b
    simp [questionId, units, unit, append_assoc]
  rw [hsplit, hsplit] at h
  have htail := tail_eq_of_cons_eq h
  have hlast : unit '_' ∉ unit 'c' :: decimal j :=
    not_mem_cons_of_ne_of_not_mem (by decide) (underscore_notMem_decimal j)
  obtain ⟨hi, -, hj⟩ := (append_cons_inj_of_notMem (underscore_notMem_decimal i) hlast).mp htail
  exact ⟨decimal_injective hi, decimal_injective (tail_eq_of_cons_eq hj)⟩

/-! ## What a plan asks -/

section
variable {args : PlanArgs} {start : Nat} {records : List JevClassifierRecord}

/-- The mappings of the records from `start` on. -/
def mappingsFrom (classifierSet : ClassifierSet) (start : Nat)
    (records : List JevClassifierRecord) : List JevQuestionMapping :=
  (records.zipIdx start).flatMap fun r => classifierSet.classifiers.zipIdx.map fun c =>
    ⟨questionId r.2 c.2, r.1.key, c.1.1⟩

theorem mappings_askedFrom (cs : ClassifierSet) (start : Nat) (records : List JevClassifierRecord) :
    (askedFrom cs start records).map Prod.fst = mappingsFrom cs start records := by
  have hshift : records.zipIdx start = records.zipIdx.map fun r => (r.1, start + r.2) := by
    have hzip := map_snd_add_zipIdx_eq_zipIdx (l := records) (k := 0) (n := start)
    rw [Nat.add_zero] at hzip
    refine hzip.symm.trans (map_congr_left fun r _ => ?_)
    simp [Prod.map, Nat.add_comm]
  unfold mappingsFrom askedFrom
  rw [hshift, map_flatMap, flatMap_map]
  simp only [asked, map_map]
  rfl

theorem mappingsFrom_append (cs : ClassifierSet) (start : Nat) (xs ys : List JevClassifierRecord) :
    mappingsFrom cs start (xs ++ ys) =
      mappingsFrom cs start xs ++ mappingsFrom cs (start + xs.length) ys := by
  simp [mappingsFrom, zipIdx_append, flatMap_append]

theorem pairs_mappingsFrom (cs : ClassifierSet) (start : Nat) (records : List JevClassifierRecord) :
    (mappingsFrom cs start records).map (fun m => (m.recordKey, m.classifierName)) =
      records.flatMap fun r => cs.classifiers.map fun c => (r.key, c.1) := by
  have hinner : ∀ r : JevClassifierRecord × Nat, (cs.classifiers.zipIdx.map fun c =>
      ((⟨questionId r.2 c.2, r.1.key, c.1.1⟩ : JevQuestionMapping))).map
        (fun m => (m.recordKey, m.classifierName)) = cs.classifiers.map fun c => (r.1.key, c.1) := by
    intro r
    conv_rhs => rw [← zipIdx_map_fst 0 cs.classifiers, map_map]
    rw [map_map]
    rfl
  unfold mappingsFrom
  rw [map_flatMap]
  simp only [hinner]
  conv_rhs => rw [← zipIdx_map_fst start records, flatMap_map]

theorem nodup_ids (cs : ClassifierSet) (start : Nat) (records : List JevClassifierRecord) :
    ((mappingsFrom cs start records).map JevQuestionMapping.questionId).Nodup := by
  unfold mappingsFrom
  rw [map_flatMap]
  simp only [map_map]
  refine nodup_flatMap.mpr ⟨fun r _ => ?_, ?_⟩
  · have hsnd : (cs.classifiers.zipIdx.map Prod.snd).Nodup := by
      rw [zipIdx_map_snd]
      exact nodup_range'
    rw [show (JevQuestionMapping.questionId ∘ fun c : (Str × JevQuestion) × Nat =>
        (⟨questionId r.2 c.2, r.1.key, c.1.1⟩ : JevQuestionMapping)) = questionId r.2 ∘ Prod.snd
      from rfl, ← map_map]
    exact hsnd.map fun a b h => (questionId_injective h).2
  · have hsnd : ((records.zipIdx start).map Prod.snd).Nodup := by
      rw [zipIdx_map_snd]
      exact nodup_range'
    refine (pairwise_map.mp hsnd).imp fun {a b} hne => ?_
    intro q ha hb
    obtain ⟨c, -, rfl⟩ := mem_map.mp ha
    obtain ⟨c', -, heq⟩ := mem_map.mp hb
    exact hne (questionId_injective heq).1.symm

/-- The keys of distinct records and the names of the classifiers make distinct pairs. -/
theorem nodup_pairs (cs : ClassifierSet) (h : (records.map JevClassifierRecord.key).Nodup) :
    (records.flatMap fun r => cs.classifiers.map fun c => (r.key, c.1)).Nodup := by
  refine nodup_flatMap.mpr ⟨fun r _ => ?_, ?_⟩
  · rw [show (fun c : Str × JevQuestion => (r.key, c.1)) = (fun n => (r.key, n)) ∘ Prod.fst from rfl,
      ← map_map]
    exact cs.names_nodup.map fun a b hab => (Prod.mk.inj hab).2
  · refine (pairwise_map.mp h).imp fun {a b} hne => ?_
    intro q ha hb
    obtain ⟨c, -, rfl⟩ := mem_map.mp ha
    obtain ⟨c', -, heq⟩ := mem_map.mp hb
    exact hne (Prod.mk.inj heq).1.symm

theorem ids_askedFrom (cs : ClassifierSet) (start : Nat) (records : List JevClassifierRecord) :
    (askedFrom cs start records).map (fun a => a.1.questionId) =
      (mappingsFrom cs start records).map JevQuestionMapping.questionId := by
  rw [← mappings_askedFrom, map_map]
  rfl

/-- A batch's questions are what its loops wrote, one for each mapping. -/
theorem questions_materializeBatch (args : PlanArgs) (start : Nat)
    (records : List JevClassifierRecord) :
    (materializeBatch args start records).questions =
      (askedFrom args.classifierSet start records).map fun a => (a.1.questionId, a.2) := by
  refine Assoc.ofWrites_of_nodup ?_
  rw [map_map]
  exact (ids_askedFrom args.classifierSet start records) ▸ nodup_ids args.classifierSet start records

/-! ## The law of a plan -/

def JevBatch.request (b : JevBatch) (model : Str) : JsonValue :=
  .obj [(units "state", b.state), (units "model", .str model),
    (units "questions", .obj (b.questions.map fun q => (q.1, q.2.toJson)))]

/-- The request is within the one limit, and the state with any one question within the other. -/
def WithinLimits (args : PlanArgs) (b : JevBatch) : Prop :=
  serializedBytes (b.request args.model) ≤ args.maxRequestBytes ∧
    serializedBytes b.state ≤ args.maxStateQuestionBytes ∧
    ∀ q ∈ b.questions, serializedBytes b.state + serializedBytes q.2.toJson ≤ args.maxStateQuestionBytes

theorem foldl_max_le {xs : List Nat} {a n : Nat} : xs.foldl max a ≤ n ↔ a ≤ n ∧ ∀ x ∈ xs, x ≤ n := by
  induction xs generalizing a with
  | nil => simp
  | cons x xs ih =>
    rw [foldl_cons, ih, forall_mem_cons, Nat.max_le, and_assoc]

theorem fits_iff (args : PlanArgs) (start : Nat) (records : List JevClassifierRecord) :
    fits args (materializeBatch args start records) = true ↔
      WithinLimits args (materializeBatch args start records) := by
  have hlongest : ∀ (ns : List Nat) (a n : Nat),
      a + ns.foldl max 0 ≤ n ↔ a ≤ n ∧ ∀ x ∈ ns, a + x ≤ n := by
    intro ns a n
    constructor
    · intro h
      have hall := (@foldl_max_le ns 0 _).mp le_rfl
      exact ⟨by omega, fun x hx => by have := hall.2 x hx; omega⟩
    · rintro ⟨ha, hns⟩
      have : ns.foldl max 0 ≤ n - a :=
        foldl_max_le.mpr ⟨Nat.zero_le _, fun x hx => by have := hns x hx; omega⟩
      omega
  simp only [fits, Bool.and_eq_true, decide_eq_true_eq, WithinLimits]
  refine and_congr Iff.rfl ((hlongest _ _ _).trans (and_congr Iff.rfl ?_))
  rw [forall_mem_map]
  rfl

/-- The batches cut the records from `start` on into runs that each fit. -/
inductive Batched (args : PlanArgs) : Nat → List JevClassifierRecord → List JevBatch → Prop where
  | nil (start : Nat) : Batched args start [] []
  | cons {start : Nat} {xs ys : List JevClassifierRecord} {bs : List JevBatch} (hne : xs ≠ [])
      (hfits : fits args (materializeBatch args start xs) = true)
      (rest : Batched args (start + xs.length) ys bs) :
      Batched args start (xs ++ ys) (materializeBatch args start xs :: bs)

theorem buildFrom_ok {bs : List JevBatch} (h : buildFrom args start records = .ok bs) :
    Batched args start records bs := by
  induction start, records using buildFrom.induct args generalizing bs with
  | case1 start =>
    rw [buildFrom] at h
    cases h
    exact .nil start
  | case2 start r rest hgrow =>
    rw [buildFrom] at h
    split at h
    · cases h
    · rename_i b hb
      cases hgrow.symm.trans hb
  | case3 start r rest accepted hgrow ih =>
    rw [buildFrom] at h
    split at h
    · cases h
    · rename_i b hb
      obtain rfl : accepted = b := Option.some.inj (hgrow.symm.trans hb)
      obtain ⟨bs, hbs, rfl⟩ := map_ok h
      have hrest := ih hbs
      rcases grow_records args hgrow with h' | ⟨n, hn, hle, hb', hfits⟩
      · cases h'
      · rw [nil_append] at hb'
        subst hb'
        have hlen : ((r :: rest).take n).length = n := length_take_of_le hle
        have hcons := @Batched.cons args start ((r :: rest).take n) _ _ ?_ hfits hrest
        · simpa [materializeBatch, hlen, -take_succ_cons] using hcons
        · intro hnil
          rw [hnil] at hlen
          exact absurd hlen (by simp; omega)

theorem grow_some (args : PlanArgs) (start : Nat) (b : JevBatch) (taken rest : List JevClassifierRecord) :
    grow args start (some b) taken rest ≠ none := by
  induction rest generalizing b taken with
  | nil => exact Option.some_ne_none b
  | cons r rest ih =>
    unfold grow
    dsimp only
    split
    · exact ih _ _
    · exact Option.some_ne_none b

/-- What is thrown names a record that does not fit alone. -/
theorem buildFrom_error {e : PlanError} (h : buildFrom args start records = .error e) :
    ∃ i r, records[i]? = some r ∧ e = .batchTooLarge r.key ∧
      ¬WithinLimits args (materializeBatch args (start + i) [r]) := by
  induction start, records using buildFrom.induct args with
  | case1 start =>
    rw [buildFrom] at h
    cases h
  | case2 start r rest hgrow =>
    rw [buildFrom] at h
    split at h
    · cases h
      refine ⟨0, r, rfl, rfl, fun hwithin => ?_⟩
      have hfits := (fits_iff args start [r]).mpr hwithin
      unfold grow at hgrow
      dsimp only at hgrow
      rw [nil_append, if_pos hfits] at hgrow
      exact grow_some args start _ _ rest hgrow
    · rename_i b hb
      cases hgrow.symm.trans hb
  | case3 start r rest accepted hgrow ih =>
    rw [buildFrom] at h
    split at h
    · rename_i hb
      cases hgrow.symm.trans hb
    · rename_i b hb
      obtain rfl : accepted = b := Option.some.inj (hgrow.symm.trans hb)
      cases hrest : buildFrom args (start + accepted.records.length)
          ((r :: rest).drop accepted.records.length) with
      | ok bs => rw [hrest] at h; cases h
      | error e' =>
        rw [hrest] at h
        cases h
        obtain ⟨i, r', hr', he, hlimits⟩ := ih hrest
        rw [getElem?_drop] at hr'
        exact ⟨accepted.records.length + i, r', hr', he, by rwa [← Nat.add_assoc]⟩

/-- Batches that ask each of the records for each classifier: they cut the records in order, each
within the limits, and the ids of all mappings differ. The question of a mapping is the
classifier's, told to judge the record at its place in the batch. -/
structure Covers (args : PlanArgs) (records : List JevClassifierRecord) (batches : List JevBatch) :
    Prop where
  partition : batches.flatMap JevBatch.records = records
  nonempty : ∀ b ∈ batches, b.records ≠ []
  within : ∀ b ∈ batches, WithinLimits args b
  state : ∀ b ∈ batches, b.state = stateOf args b.records
  asks : (batches.flatMap JevBatch.mappings).map (fun m => (m.recordKey, m.classifierName)) =
    records.flatMap fun r => args.classifierSet.classifiers.map fun c => (r.key, c.1)
  once : ((batches.flatMap JevBatch.mappings).map fun m => (m.recordKey, m.classifierName)).Nodup
  ids : ((batches.flatMap JevBatch.mappings).map JevQuestionMapping.questionId).Nodup
  question : ∀ b ∈ batches, ∀ m ∈ b.mappings, ∃ i r q, b.records[i]? = some r ∧
    m.recordKey = r.key ∧ (m.classifierName, q) ∈ args.classifierSet.classifiers ∧
    b.questions.lookup m.questionId =
      some (q.withInstructions (judgeOnly q.instructions r.key i))

namespace Batched
variable {bs : List JevBatch}

theorem made (h : Batched args start records bs) :
    ∀ b ∈ bs, ∃ i xs, xs ≠ [] ∧ b = materializeBatch args i xs ∧ fits args b = true := by
  induction h with
  | nil => simp
  | cons hne hfits _ ih =>
    intro b hb
    rcases mem_cons.mp hb with rfl | hb
    · exact ⟨_, _, hne, rfl, hfits⟩
    · exact ih b hb

theorem records_eq (h : Batched args start records bs) : bs.flatMap JevBatch.records = records := by
  induction h with
  | nil => rfl
  | cons _ _ _ ih => rw [flatMap_cons, ih]; rfl

theorem mappings_eq (h : Batched args start records bs) :
    bs.flatMap JevBatch.mappings = mappingsFrom args.classifierSet start records := by
  induction h with
  | nil => rfl
  | cons _ _ _ ih =>
    rw [flatMap_cons, ih, mappingsFrom_append]
    exact congrArg (· ++ _) (mappings_askedFrom _ _ _)

end Batched

theorem question_materializeBatch (args : PlanArgs) (start : Nat) (xs : List JevClassifierRecord)
    {m : JevQuestionMapping} (hm : m ∈ (materializeBatch args start xs).mappings) :
    ∃ i r q, xs[i]? = some r ∧ m.recordKey = r.key ∧
      (m.classifierName, q) ∈ args.classifierSet.classifiers ∧
      (materializeBatch args start xs).questions.lookup m.questionId =
        some (q.withInstructions (judgeOnly q.instructions r.key i)) := by
  obtain ⟨⟨m', q'⟩, ha, rfl⟩ := mem_map.mp hm
  obtain ⟨⟨r, i⟩, hr, hasked⟩ := mem_flatMap.mp ha
  obtain ⟨⟨⟨name, q⟩, j⟩, hc, heq⟩ := mem_map.mp hasked
  cases heq
  refine ⟨i, r, q, mem_zipIdx_iff_getElem?.mp hr, rfl, ?_, ?_⟩
  · exact mem_of_getElem? (mem_zipIdx_iff_getElem?.mp hc)
  · rw [questions_materializeBatch]
    refine Assoc.lookup_of_mem ?_ (mem_map.mpr ⟨_, ha, rfl⟩)
    rw [map_map]
    exact (ids_askedFrom args.classifierSet start xs) ▸ nodup_ids args.classifierSet start xs

theorem Batched.covers {bs : List JevBatch} (h : Batched args 0 records bs)
    (hkeys : (records.map JevClassifierRecord.key).Nodup) : Covers args records bs where
  partition := h.records_eq
  nonempty b hb := by
    obtain ⟨i, xs, hne, rfl, -⟩ := h.made b hb
    exact hne
  within b hb := by
    obtain ⟨i, xs, -, rfl, hfits⟩ := h.made b hb
    exact (fits_iff args i xs).mp hfits
  state b hb := by
    obtain ⟨i, xs, -, rfl, -⟩ := h.made b hb
    rfl
  asks := by rw [h.mappings_eq, pairs_mappingsFrom]
  once := by
    rw [h.mappings_eq, pairs_mappingsFrom]
    exact nodup_pairs args.classifierSet hkeys
  ids := h.mappings_eq ▸ nodup_ids args.classifierSet 0 records
  question b hb m hm := by
    obtain ⟨i, xs, -, rfl, -⟩ := h.made b hb
    exact question_materializeBatch args i xs hm

end

/-! ## Classifier sets that are asked -/

/-- A question that says what to judge, with criteria that can be met. -/
def JevQuestion.Proper (q : JevQuestion) : Prop :=
  q.instructions.given = true ∧
    match q with
    | .choice _ criteria => criteria ≠ [] ∧ ∀ m ∈ criteria, validCriterion m = true
    | .noul _ _ => True
    | .score _ criteria =>
      2 ≤ criteria.length ∧ criteria.length ≤ 10 ∧ ∀ c ∈ criteria, isNonEmptyString c = true

theorem validateChoiceCriteria_ok {name : Str} {criteria : List (Str × Criterion)} :
    validateChoiceCriteria name criteria = .ok () ↔
      criteria ≠ [] ∧ ∀ m ∈ criteria, validCriterion m = true := by
  unfold validateChoiceCriteria
  rw [← all_eq_true]
  cases criteria with
  | nil => simp
  | cons m ms =>
    rw [if_neg (by simp), and_iff_right (cons_ne_nil m ms)]
    by_cases hall : (m :: ms).all validCriterion = true
    · rw [if_pos hall]
      exact iff_of_true rfl hall
    · rw [if_neg hall]
      exact iff_of_false nofun hall

theorem validateQuestion_ok {name : Str} {q : JevQuestion} :
    validateQuestion name q = .ok () ↔ q.Proper := by
  unfold validateQuestion JevQuestion.Proper
  by_cases hgiven : q.instructions.given = true
  · rw [if_pos hgiven, and_iff_right hgiven]
    cases q with
    | choice i criteria => exact validateChoiceCriteria_ok
    | noul i criteria => simp
    | score i criteria => simp [validateScoreCriteria]
  · rw [if_neg hgiven]
    exact ⟨fun h => (by cases h), fun h => absurd h.1 hgiven⟩

def ClassifierSet.Proper (cs : ClassifierSet) : Prop :=
  cs.classifiers ≠ [] ∧ ∀ c ∈ cs.classifiers, c.2.Proper

theorem validateClassifierSet_ok {cs : ClassifierSet} : validateClassifierSet cs = .ok () ↔ cs.Proper := by
  have hall : ∀ ds : List (Str × JevQuestion),
      forM ds (fun c => validateQuestion c.1 c.2) = .ok () ↔ ∀ c ∈ ds, c.2.Proper := by
    intro ds
    induction ds with
    | nil => simp [pure, Except.pure]
    | cons d ds ih =>
      rw [forM_cons, forall_mem_cons, ← ih, ← @validateQuestion_ok d.1]
      cases validateQuestion d.1 d.2 with
      | error e => simp [bind, Except.bind]
      | ok u => simp [bind, Except.bind]
  unfold validateClassifierSet ClassifierSet.Proper
  cases hcs : cs.classifiers with
  | nil => simp
  | cons d ds =>
    rw [if_neg (by simp), hall, and_iff_right (cons_ne_nil d ds)]

/-- A plan covers its records; without one, the set is refused or a record alone is too large. -/
theorem buildJevBatchPlan_law (args : PlanArgs) {records : List JevClassifierRecord}
    (hkeys : (records.map JevClassifierRecord.key).Nodup) :
    match buildJevBatchPlan args records with
    | .ok plan => plan.classifierSet = args.classifierSet ∧ args.classifierSet.Proper ∧
        Covers args records plan.batches
    | .error e => ¬args.classifierSet.Proper ∨ ∃ i r, records[i]? = some r ∧
        e = .batchTooLarge r.key ∧ ¬WithinLimits args (materializeBatch args i [r]) := by
  unfold buildJevBatchPlan
  cases hvalid : validateClassifierSet args.classifierSet with
  | error e =>
    left
    intro hproper
    cases hvalid.symm.trans (validateClassifierSet_ok.mpr hproper)
  | ok u =>
    have hproper := validateClassifierSet_ok.mp hvalid
    rw [if_pos hkeys]
    cases hbuild : buildFrom args 0 records with
    | error e =>
      obtain ⟨i, r, hr, he, hlimits⟩ := buildFrom_error hbuild
      exact Or.inr ⟨i, r, hr, he, by rwa [Nat.zero_add] at hlimits⟩
    | ok batches => exact ⟨rfl, hproper, (buildFrom_ok hbuild).covers hkeys⟩

theorem keys_nodup_of_build {args : PlanArgs} {records : List JevClassifierRecord}
    {plan : JevBatchPlan} (h : buildJevBatchPlan args records = .ok plan) :
    (records.map JevClassifierRecord.key).Nodup := by
  unfold buildJevBatchPlan at h
  obtain ⟨-, -, h⟩ := bind_ok h
  split at h
  · assumption
  · cases h

theorem covers_of_build {args : PlanArgs} {records : List JevClassifierRecord}
    {plan : JevBatchPlan} (h : buildJevBatchPlan args records = .ok plan) :
    Covers args records plan.batches := by
  have hlaw := buildJevBatchPlan_law args (keys_nodup_of_build h)
  rw [h] at hlaw
  exact hlaw.2.2

end OpenBrain.Server.Jev
