import OpenBrain.Server.Entries.Agreement

/-!
# Embedding repair

A repair takes a row as a selection saw it, has it embedded, and writes it back if the stored hash
is still the one it saw. Between the two come statements of the tools and other repairs of the row.

**Results.** `repair_exact`: while nothing leaves the row under the hash a pending repair saw but
with other texts (`Undisturbed`), a repair that reports `repaired` has stored the hash and the
embedding of the row's columns, one whose row reads differently by then leaves it alone, and a
repaired row is not selected again until its columns change.
-/
namespace OpenBrain.Server.Embedding
open OpenBrain.Core OpenBrain.Server.Entries

inductive RepairStatus where
  | repaired | skipped_source_changed | skipped_empty_text | retryable_failure | permanent_failure
  | content_hash_collision
deriving DecidableEq, Repr

/-- What the provider and the table answer to one repair. -/
structure Answers where
  /-- `none` for a vector; else whether the error is retryable. -/
  providerFailure : Option Bool
  /-- Another row of the namespace has the hash the update would store. -/
  collides : Bool
deriving DecidableEq, Repr

/-- `none` is `{ global: true }`. -/
abbrev RepairScope := Option (List Str)

def RepairScope.covers (scope : RepairScope) (ns : Str) : Bool :=
  scope.all fun namespaces => namespaces.contains ns

namespace EmbeddingTarget

variable {C : Type} (T : EmbeddingTarget C) (H : ContentHash)

/-- The `WHERE` of the guarded update, but for the scope.
mirrors embedding/embedding-repair.ts:293-336 -/
def guardMatches (candidate row : Row C H.Digest) : Bool :=
  row.id = candidate.id && T.baseFilter row.cols row.archived &&
    (if T.hasContentHash then decide (row.content_hash = candidate.content_hash)
     else row.embedding.isNone && decide (T.sourceGuard row.cols = T.sourceGuard candidate.cols))

/-- The `SET` of the guarded update. -/
def repairedRow (currentModel : Str) (candidate row : Row C H.Digest) : Row C H.Digest :=
  { row with
    embedding := some (T.embedText candidate.cols)
    content_hash :=
      if T.hasContentHash then some (T.sourceHash H candidate.cols) else row.content_hash
    embedding_model := if T.hasEmbeddingModel then some currentModel else row.embedding_model }

/-- mirrors embedding/embedding-repair.ts:140-205; the row is the one the update finds -/
def repairOne (currentModel : Str) (scope : RepairScope) (answers : Answers)
    (candidate row : Row C H.Digest) : RepairStatus × Row C H.Digest :=
  if Ecma.trim (T.embedText candidate.cols) = [] then (.skipped_empty_text, row)
  else match answers.providerFailure with
    | some retryable => (if retryable then .retryable_failure else .permanent_failure, row)
    | none =>
      if T.guardMatches H candidate row && scope.covers row.ns then
        if answers.collides && T.hasContentHash then (.content_hash_collision, row)
        else (.repaired, T.repairedRow H currentModel candidate row)
      else (.skipped_source_changed, row)

/-! ## The row and its repairs -/

structure State (C D : Type) where
  row : Row C D
  /-- The selections under way, each with the row as it saw it. -/
  pending : List (Row C D)
  /-- No column the target reads has changed since the row was last repaired. -/
  settled : Bool
deriving DecidableEq

inductive Label (C D : Type) where
  | select (reasons : List StalenessReason) (scope : RepairScope)
  /-- A statement of a tool leaves the row as given. -/
  | edit (row : Row C D)
  /-- The update of the `k`-th pending repair. -/
  | repair (k : Nat) (scope : RepairScope) (answers : Answers)

variable (currentModel : Str)

def State.step (s : State C H.Digest) : Label C H.Digest → Option (State C H.Digest)
  | .select reasons scope =>
    if T.isSelected H reasons currentModel s.row && scope.covers s.row.ns then
      some { s with pending := s.pending ++ [s.row] }
    else none
  | .edit row =>
    if row.id = s.row.id then
      some { s with
        row := row
        settled := s.settled && decide (T.selectColumns row.cols = T.selectColumns s.row.cols) }
    else none
  | .repair k scope answers =>
    match s.pending[k]? with
    | none => none
    | some candidate =>
      let outcome := T.repairOne H currentModel scope answers candidate s.row
      some { row := outcome.2
             pending := s.pending.eraseIdx k
             settled := s.settled || decide (outcome.1 = .repaired) }

def repairs : LTS (State C H.Digest) (Label C H.Digest) :=
  .ofFn (fun s => s.pending = [] ∧ s.settled = false) (State.step T H currentModel)

/-- The target embeds and hashes the same texts for both. -/
def ReadsAlike (c c' : C) : Prop := T.embedText c = T.embedText c' ∧ T.hashInput c = T.hashInput c'

/-- No step leaves the row under the hash a pending repair saw but with other texts, and a tool
that leaves the columns of a repaired row leaves its hash and embedding. -/
def Undisturbed (s : State C H.Digest) : Label C H.Digest → Prop
  | .select _ _ => True
  | .edit row =>
    (∀ candidate ∈ s.pending, T.guardMatches H candidate row = true →
      T.ReadsAlike candidate.cols row.cols) ∧
    (s.settled = true → T.selectColumns row.cols = T.selectColumns s.row.cols →
      row.content_hash = s.row.content_hash ∧ row.embedding = s.row.embedding ∧
        row.embedding_model = s.row.embedding_model)
  | .repair _ _ _ => T.hasContentHash = true → ∀ candidate ∈ s.pending,
    candidate.content_hash = some (T.sourceHash H s.row.cols) →
      T.ReadsAlike candidate.cols s.row.cols

variable {T H currentModel}

/-! ## One repair -/

/-- A repair writes what `repairedRow` says under the guard, or leaves the row. -/
theorem repairOne_cases (T : EmbeddingTarget C) (H : ContentHash) (currentModel : Str)
    (scope : RepairScope) (answers : Answers) (candidate row : Row C H.Digest) :
    ((T.repairOne H currentModel scope answers candidate row).1 = .repaired ∧
      T.guardMatches H candidate row = true ∧
      (T.repairOne H currentModel scope answers candidate row).2
        = T.repairedRow H currentModel candidate row) ∨
    ((T.repairOne H currentModel scope answers candidate row).1 ≠ .repaired ∧
      (T.repairOne H currentModel scope answers candidate row).2 = row) := by
  unfold repairOne
  split
  · exact .inr ⟨nofun, rfl⟩
  · split
    · rename_i retryable _
      cases retryable <;> exact .inr ⟨nofun, rfl⟩
    · split
      · rename_i hg
        split
        · exact .inr ⟨nofun, rfl⟩
        · exact .inl ⟨rfl, (Bool.and_eq_true _ _ ▸ hg).1, rfl⟩
      · exact .inr ⟨nofun, rfl⟩

/-- The hash and embedding stored are those of the row's own columns. -/
structure Stored (T : EmbeddingTarget C) (H : ContentHash) (currentModel : Str)
    (row : Row C H.Digest) : Prop where
  embedding : row.embedding = some (T.embedText row.cols)
  hash : T.hasContentHash = true → row.content_hash = some (T.sourceHash H row.cols)
  model : T.hasEmbeddingModel = true → row.embedding_model = some currentModel

theorem stored_repairedRow {candidate row : Row C H.Digest}
    (h : T.ReadsAlike candidate.cols row.cols) :
    Stored T H currentModel (T.repairedRow H currentModel candidate row) where
  embedding := congrArg some h.1
  hash hc := by
    show (if T.hasContentHash then _ else _) = _
    rw [if_pos hc, sourceHash, h.2]
    rfl
  model hm := if_pos hm

theorem Stored.congr {row row' : Row C H.Digest} (h : Stored T H currentModel row)
    (hcols : T.selectColumns row'.cols = T.selectColumns row.cols)
    (hhash : row'.content_hash = row.content_hash) (hemb : row'.embedding = row.embedding)
    (hmodel : row'.embedding_model = row.embedding_model) : Stored T H currentModel row' where
  embedding := by rw [hemb, (T.determined _ _ hcols).1, h.embedding]
  hash hc := by rw [hhash, sourceHash, (T.determined _ _ hcols).2, h.hash hc, sourceHash]
  model hm := by rw [hmodel, h.model hm]

theorem Stored.not_selected {row : Row C H.Digest} (h : Stored T H currentModel row)
    (reasons : List StalenessReason) : T.isSelected H reasons currentModel row = false := by
  have hmodel : ((reasons.filter fun reason => T.detectableReasons.contains reason).contains
      .model_drift && decide (row.embedding_model ≠ some currentModel)) = false := by
    by_cases hm : T.hasEmbeddingModel = true
    · rw [h.model hm]
      simp
    · simp [detectableReasons, hm]
  have hdrift : ((reasons.filter fun reason => T.detectableReasons.contains reason).contains
      .source_drift && T.hasSourceDrift H row) = false := by
    by_cases hc : T.hasContentHash = true
    · have : T.hasSourceDrift H row = false := by
        unfold hasSourceDrift
        rw [h.hash hc]
        exact decide_eq_false (not_not_intro rfl)
      rw [this, Bool.and_false]
    · simp [detectableReasons, hc]
  have hnil : T.rowReasons H reasons currentModel row = [] := by
    unfold rowReasons
    rw [h.embedding]
    simp only [Option.isNone_some, Bool.false_eq_true, if_false]
    rw [hmodel, hdrift]
    rfl
  rw [isSelected, hnil]
  exact Bool.and_false _

/-! ## Runs -/

/-- A pending repair whose guard holds saw the texts the row has; a settled row has its own. -/
structure Exact (T : EmbeddingTarget C) (H : ContentHash) (currentModel : Str)
    (s : State C H.Digest) : Prop where
  pending : ∀ candidate ∈ s.pending, T.guardMatches H candidate s.row = true →
    T.ReadsAlike candidate.cols s.row.cols
  settled : s.settled = true → Stored T H currentModel s.row

theorem hash_of_guard_repaired {candidate other row : Row C H.Digest}
    (h : T.guardMatches H other (T.repairedRow H currentModel candidate row) = true) :
    T.hasContentHash = true ∧ other.content_hash = some (T.sourceHash H candidate.cols) := by
  simp only [guardMatches, repairedRow] at h
  cases hc : T.hasContentHash with
  | true =>
    simp only [hc, if_true, Bool.and_eq_true, decide_eq_true_eq] at h
    exact ⟨rfl, h.2.symm⟩
  | false => simp [hc] at h

theorem exact_inductive : (repairs T H currentModel).InductiveOn (Undisturbed T H)
    (Exact T H currentModel) where
  init s h := by
    refine ⟨fun candidate hc => ?_, fun hs => ?_⟩
    · rw [h.1] at hc
      exact absurd hc List.not_mem_nil
    · rw [h.2] at hs
      cases hs
  step s l s' hs hg hstep := by
    cases l with
    | select reasons scope =>
      simp only [repairs, LTS.ofFn, State.step] at hstep
      split at hstep
      · cases hstep
        refine ⟨fun candidate hc hm => ?_, hs.settled⟩
        rcases List.mem_append.mp hc with hc | hc
        · exact hs.pending candidate hc hm
        · rw [List.mem_singleton.mp hc]
          exact ⟨rfl, rfl⟩
      · cases hstep
    | edit row =>
      simp only [repairs, LTS.ofFn, State.step] at hstep
      split at hstep
      · cases hstep
        refine ⟨hg.1, fun hset => ?_⟩
        simp only [Bool.and_eq_true, decide_eq_true_eq] at hset
        obtain ⟨hhash, hemb, hmodel⟩ := hg.2 hset.1 hset.2
        exact (hs.settled hset.1).congr hset.2 hhash hemb hmodel
      · cases hstep
    | repair k scope answers =>
      simp only [repairs, LTS.ofFn, State.step] at hstep
      split at hstep
      · cases hstep
      · rename_i candidate hk
        have hcand : candidate ∈ s.pending := List.mem_of_getElem? hk
        cases hstep
        rcases repairOne_cases T H currentModel scope answers candidate s.row with
          ⟨hrep, hmatch, hrow⟩ | ⟨hrep, hrow⟩
        · have halike := hs.pending candidate hcand hmatch
          have hhash : T.sourceHash H candidate.cols = T.sourceHash H s.row.cols := by
            rw [sourceHash, sourceHash, halike.2]
          refine ⟨fun other ho hm => ?_, fun _ => ?_⟩
          · simp only [hrow] at hm ⊢
            obtain ⟨hc, ho'⟩ := hash_of_guard_repaired hm
            exact hg hc other (List.mem_of_mem_eraseIdx ho) (ho'.trans (congrArg some hhash))
          · simp only [hrow]
            exact stored_repairedRow halike
        · refine ⟨fun other ho hm => ?_, fun hset => ?_⟩
          · simp only [hrow] at hm ⊢
            exact hs.pending other (List.mem_of_mem_eraseIdx ho) hm
          · simp only [hrow]
            simp only [hrep, decide_false, Bool.or_false] at hset
            exact hs.settled hset

/-- Every repair of an undisturbed run stores what the row's columns say, or leaves the row; and a
settled row is not selected. -/
theorem repair_exact {s : State C H.Digest}
    (h : (repairs T H currentModel).ReachableOn (Undisturbed T H) s) :
    (∀ candidate ∈ s.pending, ∀ scope answers,
      ((T.repairOne H currentModel scope answers candidate s.row).1 = .repaired →
        Stored T H currentModel (T.repairOne H currentModel scope answers candidate s.row).2 ∧
        (T.repairOne H currentModel scope answers candidate s.row).2.cols = s.row.cols) ∧
      (¬ T.ReadsAlike candidate.cols s.row.cols →
        (T.repairOne H currentModel scope answers candidate s.row).2 = s.row)) ∧
    (s.settled = true → ∀ reasons, T.isSelected H reasons currentModel s.row = false) := by
  have hs := exact_inductive.reachable h
  refine ⟨fun candidate hc scope answers => ?_, fun hset reasons =>
    (hs.settled hset).not_selected reasons⟩
  rcases repairOne_cases T H currentModel scope answers candidate s.row with
    ⟨hrep, hmatch, hrow⟩ | ⟨hrep, hrow⟩
  · have halike := hs.pending candidate hc hmatch
    rw [hrow]
    exact ⟨fun _ => ⟨stored_repairedRow halike, rfl⟩, fun hne => absurd halike hne⟩
  · exact ⟨fun h => absurd h hrep, fun _ => hrow⟩

/-! ## Runs of a thought's repairs -/

instance (s : State C H.Digest) (l : Label C H.Digest) : Decidable (Undisturbed T H s l) := by
  unfold Undisturbed ReadsAlike
  split <;> infer_instance

def oldThought (content : String) (tag : String) : Row ThoughtCols Str where
  id := units "t1"
  ns := units "n"
  cols := { content := units content, tags := [units tag], parent_id := none }
  content_hash := some (units content)
  embedding := some (units (content ++ "\n" ++ tag))
  embedding_model := some (units "old")
  archived := false

def vector : Answers := ⟨none, false⟩

/-- The text is rewritten under a pending repair; only the second repair lands. -/
theorem repair_exact_rewrite : ∃ s, (repairs .thoughts letterHash (units "new")).ReachableOn
    (Undisturbed .thoughts letterHash) s ∧ s.settled = true ∧
      s.row.embedding = some (units "bye\nb") ∧
      ∀ reasons, EmbeddingTarget.thoughts.isSelected letterHash reasons (units "new") s.row
        = false := by
  have hrun : (LTS.exec (LTS.guardStep (Undisturbed .thoughts letterHash)
      (State.step .thoughts letterHash (units "new"))) ⟨oldThought "hi" "b", [], false⟩
      [.select [.model_drift] none, .edit (oldThought "bye" "b"), .select [.model_drift] none,
        .repair 0 none vector, .repair 0 none vector]).any (fun s =>
          s.settled = true ∧ s.row.embedding = some (units "bye\nb")) = true := by
    decide +kernel
  obtain ⟨s, hs, hrow⟩ := Option.any_eq_true _ _ |>.mp hrun
  obtain ⟨hset, hemb⟩ := of_decide_eq_true hrow
  have hreach : (repairs .thoughts letterHash (units "new")).ReachableOn
      (Undisturbed .thoughts letterHash) s := LTS.reachableOn_of_exec ⟨rfl, rfl⟩ hs
  exact ⟨s, hreach, hset, hemb, (repair_exact hreach).2 hset⟩

/-- `update_entry` changes the tags of a thought under a pending repair and leaves its hash: the
repair lands, with the embedding of the old tags. -/
theorem tags_clobbered :
    ((Entries.runUpdate letterHash (some (units "new"))
      (.thoughts none (some [units "c"])) (units "t1") [units "n"]
      ⟨[oldThought "hi" "b"], by decide +kernel⟩).map fun t : Table.Constrained _ Hashed =>
        t.rows) = some [{ oldThought "hi" "b" with cols := (oldThought "hi" "c").cols }] ∧
    ∃ s candidate, (repairs .thoughts letterHash (units "new")).Reachable s ∧
      s.pending = [candidate] ∧ s.row.cols = (oldThought "hi" "c").cols ∧
      EmbeddingTarget.thoughts.embedText candidate.cols
        ≠ EmbeddingTarget.thoughts.embedText s.row.cols ∧
      (EmbeddingTarget.thoughts.repairOne letterHash (units "new") none vector candidate s.row).1
        = .repaired ∧
      (EmbeddingTarget.thoughts.repairOne letterHash (units "new") none vector candidate
        s.row).2.embedding ≠ some (EmbeddingTarget.thoughts.embedText s.row.cols) := by
  refine ⟨by decide +kernel, ?_⟩
  refine ⟨⟨{ oldThought "hi" "b" with cols := (oldThought "hi" "c").cols }, [oldThought "hi" "b"],
    false⟩, oldThought "hi" "b", ⟨⟨oldThought "hi" "b", [], false⟩,
    [.select [.model_drift] none,
      .edit { oldThought "hi" "b" with cols := (oldThought "hi" "c").cols }], ⟨rfl, rfl⟩,
    LTS.runOn_of_exec_any (by decide +kernel)⟩, rfl, rfl, ?_⟩
  decide +kernel

end EmbeddingTarget
end OpenBrain.Server.Embedding
