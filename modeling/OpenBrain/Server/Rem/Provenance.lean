import OpenBrain.Server.Rem.Graders

/-!
# Where a verdict comes from

What a primed grader holds for a candidate was answered, in the same priming, to the question
about that candidate: `jevDecisions_gave`, `prime_cache`. From what it holds, `Grader.source` says
which answer or rule determines the verdict, and `grade_eq` that it does.
-/
namespace OpenBrain.Server.Rem
open OpenBrain.Core OpenBrain.Core.Ecma List
open OpenBrain.Server.CandidateReview (ReviewAction)

/-! ## Jev -/

section Jev
variable {a : Answers} {candidates : List RemCandidate} {id : Str}

def JevGave (a : Answers) (candidates : List RemCandidate) (id : Str) (d : JevDecision) : Prop :=
  ∃ n r index c staged, a.ask n = some r ∧ candidates[index]? = some c ∧ c.id = id ∧
    stageRecord a.sumsToOne r index = some staged ∧ decisionOf staged = some d

/-- Each batch holds the records at the indices of its questions. -/
theorem planFrom_slices {fits : Nat → List RemCandidate → Bool} {start : Nat}
    {taken rest : List RemCandidate} {batches : List Batch}
    (h : planFrom fits start taken rest = some batches) :
    ∀ before : List RemCandidate, before.length = start → ∀ b ∈ batches,
      ∃ front back, before ++ taken ++ rest = front ++ b.records ++ back ∧ front.length = b.start := by
  induction rest generalizing start taken batches with
  | nil =>
    intro before hlen b hb
    cases h
    split at hb
    · cases hb
    · rw [mem_singleton.mp hb]
      exact ⟨before, [], rfl, hlen⟩
  | cons c rest ih =>
    intro before hlen b hb
    rw [planFrom] at h
    split at h
    · obtain ⟨front, back, heq, hfront⟩ := ih h before hlen b hb
      exact ⟨front, back, by simpa using heq, hfront⟩
    split at h
    · cases h
    split at h
    · obtain ⟨later, hlater, rfl⟩ := Option.map_eq_some_iff.mp h
      rcases mem_cons.mp hb with rfl | hb
      · exact ⟨before, c :: rest, rfl, hlen⟩
      · obtain ⟨front, back, heq, hfront⟩ := ih hlater (before ++ taken) (by simp [hlen]) b hb
        exact ⟨front, back, by simpa using heq, hfront⟩
    · cases h

theorem stageFrom_spec {sumsToOne : List Double → Bool} {r : JevResponse} {index : Nat}
    {records : List RemCandidate} {staged : List (Str × Staged)}
    (h : stageFrom sumsToOne r index records = some staged) {s : Staged} (hs : (id, s) ∈ staged) :
    ∃ k c, records[k]? = some c ∧ c.id = id ∧ stageRecord sumsToOne r (index + k) = some s := by
  induction records generalizing index staged with
  | nil =>
    cases h
    cases hs
  | cons c cs ih =>
    obtain ⟨first, hfirst, h⟩ := Option.bind_eq_some_iff.mp h
    obtain ⟨rest, hrest, h⟩ := Option.bind_eq_some_iff.mp h
    cases h
    rcases mem_cons.mp hs with he | hs
    · cases he
      exact ⟨0, c, rfl, rfl, hfirst⟩
    · obtain ⟨k, c', hk, hid, hstage⟩ := ih hrest hs
      refine ⟨k + 1, c', hk, hid, ?_⟩
      rw [← Nat.add_assoc, Nat.add_right_comm]
      exact hstage

theorem executeFrom_spec {n : Nat} {batches : List Batch} {staged : List (Str × Staged)}
    (h : executeFrom a n batches = some staged) {s : Staged} (hs : (id, s) ∈ staged) :
    ∃ m r, ∃ b ∈ batches, ∃ k c, a.ask m = some r ∧ b.records[k]? = some c ∧ c.id = id ∧
      stageRecord a.sumsToOne r (b.start + k) = some s := by
  induction batches generalizing n staged with
  | nil =>
    cases h
    cases hs
  | cons b batches ih =>
    obtain ⟨r, hask, h⟩ := Option.bind_eq_some_iff.mp h
    split at h
    · obtain ⟨first, hfirst, h⟩ := Option.bind_eq_some_iff.mp h
      obtain ⟨rest, hrest, h⟩ := Option.bind_eq_some_iff.mp h
      cases h
      rcases mem_append.mp hs with hs | hs
      · obtain ⟨k, c, hk, hid, hstage⟩ := stageFrom_spec hfirst hs
        exact ⟨n, r, b, mem_cons_self, k, c, hask, hk, hid, hstage⟩
      · obtain ⟨m, r', b', hb', k, c, rest⟩ := ih hrest hs
        exact ⟨m, r', b', mem_cons_of_mem b hb', k, c, rest⟩
    · cases h

/-- A decision of the plan answers the questions about its candidate. -/
theorem jevDecisions_gave {decisions : List (Str × JevDecision)}
    (h : jevDecisions a candidates = some decisions) {d : JevDecision} (hd : (id, d) ∈ decisions) :
    JevGave a candidates id d := by
  obtain ⟨plan, hplan, h⟩ := Option.bind_eq_some_iff.mp h
  obtain ⟨staged, hstaged, h⟩ := Option.bind_eq_some_iff.mp h
  obtain ⟨c, -, hgave⟩ := mapM_mem h hd
  obtain ⟨answers, hanswers, hgave⟩ := Option.bind_eq_some_iff.mp hgave
  obtain ⟨decision, hdecision, hgave⟩ := Option.bind_eq_some_iff.mp hgave
  cases hgave
  unfold buildJevBatchPlan at hplan
  split at hplan
  · have hmem : (c.id, answers) ∈ staged := Assoc.mem_of_lookup hanswers
    obtain ⟨m, r, b, hb, k, c', hask, hk, hid, hstage⟩ := executeFrom_spec hstaged hmem
    obtain ⟨front, back, heq, hfront⟩ := planFrom_slices hplan [] rfl b hb
    refine ⟨m, r, b.start + k, c', answers, hask, ?_, hid, hstage, hdecision⟩
    obtain ⟨hlt, -⟩ := List.getElem?_eq_some_iff.mp hk
    have hall : candidates = front ++ b.records ++ back := heq
    rw [hall, append_assoc, getElem?_append_right (by omega), ← hfront,
      Nat.add_sub_cancel_left, getElem?_append_left hlt, hk]
  · cases hplan

theorem nodup_jevDecisions {decisions : List (Str × JevDecision)}
    (h : jevDecisions a candidates = some decisions) : (decisions.map Prod.fst).Nodup := by
  obtain ⟨plan, hplan, h⟩ := Option.bind_eq_some_iff.mp h
  obtain ⟨staged, -, h⟩ := Option.bind_eq_some_iff.mp h
  have hkeys : ∀ {cs : List RemCandidate} {ds : List (Str × JevDecision)},
      List.Forall₂ (fun (c : RemCandidate) (d : Str × JevDecision) => ((staged.lookup c.id).bind
        fun answers => (decisionOf answers).bind fun decision => some (c.id, decision)) = some d)
        cs ds → ds.map Prod.fst = cs.map RemCandidate.id := by
    intro cs ds hall
    induction hall with
    | nil => rfl
    | cons hcd _ ih =>
      obtain ⟨answers, -, hcd⟩ := Option.bind_eq_some_iff.mp hcd
      obtain ⟨decision, -, hcd⟩ := Option.bind_eq_some_iff.mp hcd
      cases hcd
      rw [map_cons, map_cons, ih]
  unfold buildJevBatchPlan at hplan
  split at hplan
  · rename_i hnodup
    rw [hkeys (mapM_some h)]
    exact hnodup
  · cases hplan

theorem score_lt_of_gave {d : JevDecision} (h : JevGave a candidates id d) : d.score < 11 := by
  obtain ⟨-, -, -, -, staged, -, -, -, -, hd⟩ := h
  unfold decisionOf at hd
  split at hd
  · split at hd
    · obtain ⟨n, hn, rfl⟩ := Option.map_eq_some_iff.mp hd
      exact mem_range.mp (mem_of_find?_eq_some hn)
    · cases hd
  · cases hd

end Jev

/-! ## Terra -/

section Terra
variable {transport : Nat → Option (List TerraJudgement)} {batchSize : Nat}
  {candidates : List RemCandidate} {id : Str} {j : TerraJudgement}

/-- Terra gave the judgement, under this id, in the request that the candidate was in. -/
def TerraGave (transport : Nat → Option (List TerraJudgement)) (batchSize : Nat)
    (candidates : List RemCandidate) (id : Str) (j : TerraJudgement) : Prop :=
  ∃ n judgements, transport n = some judgements ∧ j ∈ judgements ∧ j.id = id ∧
    id ∈ ((candidates.drop (n * batchSize)).take batchSize).map RemCandidate.id

theorem lookup_cacheKnownJudgements {judgements : List TerraJudgement} {slice : List RemCandidate}
    {cache : Cache} (h : (cacheKnownJudgements judgements slice cache).lookup id = some j) :
    cache.lookup id = some j ∨ (j ∈ judgements ∧ j.id = id ∧ id ∈ slice.map RemCandidate.id) := by
  induction judgements generalizing cache with
  | nil => exact .inl h
  | cons first judgements ih =>
    rcases ih h with h | ⟨hj, hid, hin⟩
    · dsimp only at h
      split at h
      · rename_i hknown
        rw [Assoc.lookup_set] at h
        split at h
        · rename_i he
          cases h
          exact .inr ⟨mem_cons_self, he.symm, he ▸ hknown⟩
        · exact .inl h
      · exact .inl h
    · exact .inr ⟨mem_cons_of_mem first hj, hid, hin⟩

/-- What is in the cache after the requests was given in one of them, by induction on the
candidates: those left, less the ones of the request before, are those from the next request on. -/
theorem lookup_primeFrom (hpos : 0 < batchSize) {n skip : Nat} {rest : List RemCandidate}
    {cache : Cache} (hrest : rest.drop skip = candidates.drop (n * batchSize))
    (h : (primeFrom transport batchSize n skip rest cache).lookup id = some j) :
    cache.lookup id = some j ∨ TerraGave transport batchSize candidates id j := by
  induction rest generalizing n skip cache with
  | nil => exact .inl h
  | cons c rest ih =>
    cases skip with
    | succ skip =>
      rw [primeFrom] at h
      exact ih hrest h
    | zero =>
      rw [primeFrom] at h
      rw [drop_zero] at hrest
      have hnext : rest.drop (batchSize - 1) = candidates.drop ((n + 1) * batchSize) := by
        rw [Nat.succ_mul, ← drop_drop, ← hrest]
        conv => rhs; rw [← Nat.sub_add_cancel hpos]
        rfl
      rcases ih hnext h with h | h
      · cases hgave : transport n with
        | none =>
          rw [hgave] at h
          exact .inl h
        | some judgements =>
          rw [hgave] at h
          rcases lookup_cacheKnownJudgements h with h | ⟨hj, hid, hin⟩
          · exact .inl h
          · exact .inr ⟨n, judgements, hgave, hj, hid, hrest ▸ hin⟩
      · exact .inr h

def TerraJudgement.under (j : TerraJudgement) (d : JevDecision) : TerraJudgement :=
  { j with label := d.label, score := scoreNumber d.score, decision_source := some d.source }

theorem enforceJevDecisions_cons (cache : Cache) (key : Str) (d : JevDecision)
    (decisions : List (Str × JevDecision)) :
    enforceJevDecisions cache ((key, d) :: decisions) =
      enforceJevDecisions ((cache.lookup key).elim cache fun current =>
        Assoc.set cache key (current.under d)) decisions := by
  unfold enforceJevDecisions
  rw [foldl_cons]
  cases cache.lookup key <;> rfl

theorem lookup_enforceJevDecisions {cache : Cache} {decisions : List (Str × JevDecision)}
    (hn : (decisions.map Prod.fst).Nodup) :
    (enforceJevDecisions cache decisions).lookup id =
      match decisions.lookup id with
      | some d => (cache.lookup id).map (·.under d)
      | none => cache.lookup id := by
  induction decisions generalizing cache with
  | nil => rfl
  | cons d decisions ih =>
    obtain ⟨key, d⟩ := d
    rw [map_cons, nodup_cons] at hn
    rw [enforceJevDecisions_cons, ih hn.2, lookup_cons]
    by_cases he : id = key
    · subst he
      rw [Assoc.lookup_of_notMem hn.1, beq_self_eq_true]
      cases hc : cache.lookup id with
      | none => simp [hc]
      | some current => simp [Assoc.lookup_set]
    · rw [beq_eq_false_iff_ne.mpr he]
      have hsame : ((cache.lookup key).elim cache fun current =>
          Assoc.set cache key (current.under d)).lookup id = cache.lookup id := by
        cases cache.lookup key with
        | none => rfl
        | some current => simp [Assoc.lookup_set, he]
      rw [hsame]

end Terra

/-! ## The verdict of a primed grader -/

section Verdict
variable {a : Answers} {candidates : List RemCandidate} {g : Grader} {c : RemCandidate}

/-- Which answer or rule a verdict comes from. -/
inductive Source where
  | rule
  | jev (d : JevDecision)
  | terra (j : TerraJudgement)

def Grader.source (p : Primed) (c : RemCandidate) : Grader → Source
  | .heuristic => .rule
  | .jev _ =>
    match p.decisions.lookup c.id with
    | some d => .jev d
    | none => .rule
  | .terra _ =>
    match p.cache.lookup c.id with
    | some j =>
      match p.decisions.lookup c.id with
      | some d => .jev d
      | none => .terra j
    | none => .rule

def scoreGrade (promote : Bool) : ReviewAction := if promote then .promoted else .inconclusive

def Grader.determined (g : Grader) (c : RemCandidate) : Source → ReviewAction
  | .rule => (heuristicGrade c).grade
  | .terra j => scoreGrade (atLeastPromote j.score)
  | .jev d =>
    match g with
    | .jev floor => scoreGrade ((belowFloor floor d.confidence).isNone && decide (d.score ≥ PROMOTE_AT))
    | .heuristic | .terra _ => scoreGrade (decide (d.score ≥ PROMOTE_AT))

def Grader.nameOf (g : Grader) : Source → Str
  | .rule => heuristicName
  | .terra _ => g.name
  | .jev d =>
    match g with
    | .jev floor =>
      match belowFloor floor d.confidence with
      | some f => flooredSource d f
      | none => d.source
    | .heuristic | .terra _ => d.source

def Grader.Gave (g : Grader) (a : Answers) (candidates : List RemCandidate) (id : Str) : Source → Prop
  | .rule => True
  | .jev d => JevGave a candidates id d
  | .terra j =>
    match g with
    | .terra o => TerraGave a.transport o.batchSize candidates id j
    | .heuristic | .jev _ => False

theorem prime_decisions {id : Str} {d : JevDecision}
    (h : (g.prime a candidates).decisions.lookup id = some d) : JevGave a candidates id d := by
  have hgave : ∀ {ds : List (Str × JevDecision)}, ds = (jevDecisions a candidates).getD [] →
      ds.lookup id = some d → JevGave a candidates id d := by
    intro ds hds hd
    cases hall : jevDecisions a candidates with
    | none =>
      rw [hds, hall] at hd
      cases hd
    | some decisions =>
      rw [hds, hall] at hd
      exact jevDecisions_gave hall (Assoc.mem_of_lookup hd)
  cases g with
  | heuristic => cases h
  | jev floor => exact hgave rfl h
  | terra o =>
    unfold Grader.prime at h
    dsimp only at h
    split at h
    · exact hgave rfl h
    · cases h

theorem nodup_decisions : ((g.prime a candidates).decisions.map Prod.fst).Nodup := by
  have hnodup : (((jevDecisions a candidates).getD []).map Prod.fst).Nodup := by
    cases hall : jevDecisions a candidates with
    | none => exact nodup_nil
    | some decisions => exact nodup_jevDecisions hall
  cases g with
  | heuristic => exact nodup_nil
  | jev floor => exact hnodup
  | terra o =>
    unfold Grader.prime
    dsimp only
    split
    · exact hnodup
    · exact nodup_nil

/-- The cache of a Terra grader: what Terra gave, under Jev's decision where there is one. -/
theorem prime_cache {o : TerraOptions} {id : Str} {j : TerraJudgement}
    (h : ((Grader.terra o).prime a candidates).cache.lookup id = some j) :
    ∃ given, TerraGave a.transport o.batchSize candidates id given ∧
      j = match ((Grader.terra o).prime a candidates).decisions.lookup id with
        | some d => given.under d
        | none => given := by
  have hcache : ((Grader.terra o).prime a candidates).cache =
      enforceJevDecisions (primeFrom a.transport o.batchSize 0 0 candidates [])
        ((Grader.terra o).prime a candidates).decisions := rfl
  have hgave : ∀ given, (primeFrom a.transport o.batchSize 0 0 candidates []).lookup id = some given →
      TerraGave a.transport o.batchSize candidates id given := by
    intro given hgiven
    have hstart : candidates.drop 0 = candidates.drop (0 * o.batchSize) := by
      rw [Nat.zero_mul]
    rcases lookup_primeFrom o.positive hstart hgiven with hnone | hgave
    · cases hnone
    · exact hgave
  rw [hcache, lookup_enforceJevDecisions nodup_decisions] at h
  split at h
  · obtain ⟨given, hgiven, rfl⟩ := Option.map_eq_some_iff.mp h
    exact ⟨given, hgave given hgiven, rfl⟩
  · exact ⟨j, hgave j h, rfl⟩

theorem atLeastPromote_scoreNumber {n : Nat} (h : n < 11) :
    atLeastPromote (scoreNumber n) = decide (n ≥ PROMOTE_AT) := by
  have hall : ∀ n ∈ List.range 11, atLeastPromote (scoreNumber n) = decide (n ≥ PROMOTE_AT) := by
    decide +kernel
  exact hall n (mem_range.mpr h)

/-- The source of a verdict was given in the priming. -/
theorem source_gave :
    g.Gave a candidates c.id (g.source (g.prime a candidates) c) := by
  cases g with
  | heuristic => trivial
  | jev floor =>
    unfold Grader.source
    dsimp only
    split
    · rename_i d hd
      exact prime_decisions hd
    · trivial
  | terra o =>
    unfold Grader.source
    dsimp only
    split
    · rename_i j hj
      split
      · rename_i d hd
        exact prime_decisions hd
      · rename_i hd
        obtain ⟨given, hgave, heq⟩ := prime_cache hj
        rw [hd] at heq
        rw [heq]
        exact hgave
    · trivial

theorem grade_eq : (g.grade (g.prime a candidates) c).grade =
    g.determined c (g.source (g.prime a candidates) c) := by
  cases g with
  | heuristic => rfl
  | jev floor =>
    show (gradeJev floor _ c).grade = _
    unfold gradeJev Grader.source Grader.determined
    dsimp only
    cases ((Grader.jev floor).prime a candidates).decisions.lookup c.id with
    | none => rfl
    | some d =>
      dsimp only
      cases belowFloor floor d.confidence with
      | none => simp [scoreGrade]
      | some f => simp [scoreGrade]
  | terra o =>
    show (gradeTerra _ c).grade = _
    unfold gradeTerra Grader.source Grader.determined
    dsimp only
    cases hj : ((Grader.terra o).prime a candidates).cache.lookup c.id with
    | none => rfl
    | some j =>
      dsimp only
      cases hd : ((Grader.terra o).prime a candidates).decisions.lookup c.id with
      | none => rfl
      | some d =>
        obtain ⟨given, -, heq⟩ := prime_cache hj
        rw [hd] at heq
        rw [heq]
        show scoreGrade (atLeastPromote (scoreNumber d.score)) = _
        rw [atLeastPromote_scoreNumber (score_lt_of_gave (prime_decisions hd))]

/-! ## Attribution -/

/-- The name that is stored beside a verdict.
mirrors dream-rem.ts:269 -/
def Grader.storedName (g : Grader) (p : Primed) (c : RemCandidate) : Str :=
  (g.grade p c).graderName.getD g.name

def Grader.Answered (p : Primed) (c : RemCandidate) : Grader → Prop
  | .heuristic | .jev _ => True
  | .terra _ => (p.cache.lookup c.id).isSome = true ∧ (p.decisions.lookup c.id).isNone = true

theorem getLast?_name (o : TerraOptions) : o.name.getLast? = some (unit '3') := by
  unfold TerraOptions.name
  split
  · rfl
  · rw [getLast?_append]
    rfl

theorem getLast?_source (d : JevDecision) : d.source.getLast? = some (unit '2') := by
  unfold JevDecision.source
  rw [getLast?_append]
  rfl

/-- The name stored beside a verdict is that of the grader it comes from, exactly where a Terra
grader has Terra's answer for the candidate and no decision of Jev's over it. -/
theorem storedName_eq_iff {p : Primed} :
    g.storedName p c = g.nameOf (g.source p c) ↔ g.Answered p c := by
  cases g with
  | heuristic =>
    refine iff_of_true ?_ trivial
    show (heuristicGrade c).graderName.getD heuristicName = heuristicName
    simp
  | jev floor =>
    refine iff_of_true ?_ trivial
    show (gradeJev floor p c).graderName.getD _ = _
    unfold gradeJev Grader.source Grader.nameOf
    dsimp only
    cases p.decisions.lookup c.id with
    | none => rfl
    | some d =>
      dsimp only
      cases belowFloor floor d.confidence with
      | none => rfl
      | some f => rfl
  | terra o =>
    show (gradeTerra p c).graderName.getD o.name = _ ↔ _
    unfold gradeTerra Grader.source Grader.nameOf Grader.Answered
    dsimp only
    cases p.cache.lookup c.id with
    | none =>
      have hne : o.name ≠ heuristicName := by
        intro he
        have hlast := getLast?_name o
        rw [he] at hlast
        exact absurd hlast (by decide)
      simp [hne]
    | some j =>
      dsimp only
      cases p.decisions.lookup c.id with
      | none => exact iff_of_true rfl ⟨rfl, rfl⟩
      | some d =>
        have hne : o.name ≠ d.source := by
          intro he
          have hlast := getLast?_name o
          rw [he, getLast?_source] at hlast
          exact absurd hlast (by decide)
        simp [hne]

end Verdict

end OpenBrain.Server.Rem
