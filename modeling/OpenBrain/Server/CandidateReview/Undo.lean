import OpenBrain.Server.CandidateReview.Consistency

/-!
# Undo as an inverse

`undone` is what `undoBatch` makes of the tables when the index lets it. Undoing a batch right
after it was submitted gives back the tables before it (`undone_submitted`), and undoing it
commutes with every later call that spares it (`undone_call`): one that neither regrades nor
ungrades a candidate of the batch, where that candidate has other grades.
-/
namespace OpenBrain.Server.CandidateReview
open OpenBrain.Core OpenBrain.Core.Ecma List

section Definitions
variable (ns : Str) (b : Uuid) (db : Db)

def Grade.inBatch (g : Grade) : Bool := g.ns == ns && g.batch_id == some b

def batchCandidates : List Uuid := (db.grades.filter (·.inBatch ns b)).map Grade.candidate_id

def otherGrades : List Grade := db.grades.filter fun g => !g.inBatch ns b

def supersededOf (grades : List Grade) (candidate_id : Uuid) : List Grade :=
  grades.filter fun g => g.isFor ns candidate_id && !g.live

def comesBack (g : Grade) : Bool :=
  decide (g.candidate_id ∈ batchCandidates ns b db) &&
    decide ((latest (supersededOf ns (otherGrades ns b db) g.candidate_id)).map Grade.id = some g.id)

def undoneGrades : List Grade :=
  Table.updateWhere (comesBack ns b db) (fun g => { g with superseded_at := none })
    (otherGrades ns b db)

def undoneCandidates : List Candidate :=
  Table.updateWhere (fun c => c.ns == ns && decide (c.id ∈ batchCandidates ns b db))
    (fun c => c.setReview (liveReview (undoneGrades ns b db) ns c.id)) db.candidates

/-- The tables without the batch. -/
def undone : Db :=
  { db with grades := undoneGrades ns b db, candidates := undoneCandidates ns b db }

end Definitions

/-! ## The transaction of `undoBatch` -/

section Rows
variable {ns : Str} {b : Uuid} {db : Db} {g : Grade} {id : Uuid}

theorem setReview_setReview (c : Candidate) (r s : Review) :
    (c.setReview r).setReview s = c.setReview s := rfl

theorem isAt_setReview (c : Candidate) (r : Review) : (c.setReview r).isAt ns id = c.isAt ns id := rfl

theorem inBatch_iff : g.inBatch ns b = true ↔ g.ns = ns ∧ g.batch_id = some b := by
  simp [Grade.inBatch]

theorem mem_batchCandidates :
    id ∈ batchCandidates ns b db ↔ ∃ g ∈ db.grades, g.inBatch ns b = true ∧ g.candidate_id = id := by
  unfold batchCandidates
  rw [mem_map]
  constructor
  · intro ⟨g, hg, he⟩
    obtain ⟨hg, hin⟩ := mem_filter.mp hg
    exact ⟨g, hg, hin, he⟩
  · intro ⟨g, hg, hin, he⟩
    exact ⟨g, mem_filter.mpr ⟨hg, hin⟩, he⟩

theorem mem_otherGrades : g ∈ otherGrades ns b db ↔ g ∈ db.grades ∧ g.inBatch ns b = false := by
  unfold otherGrades
  rw [mem_filter, Bool.not_eq_true']

theorem mem_supersededOf {grades : List Grade} : g ∈ supersededOf ns grades id ↔
    g ∈ grades ∧ g.ns = ns ∧ g.candidate_id = id ∧ g.live = false := by
  unfold supersededOf
  rw [mem_filter, Bool.and_eq_true, isFor_iff, Bool.not_eq_true', and_assoc]

/-- The row the code picks for a candidate of the batch is the one that comes back. -/
theorem mem_restored_iff (hk : Keyed db) (hg : g ∈ otherGrades ns b db) :
    g.id ∈ (((batchCandidates ns b db).dedup.filterMap
      (restoredFor { db with grades := otherGrades ns b db } ns)).map Grade.id) ↔
      comesBack ns b db g = true := by
  unfold comesBack
  rw [Bool.and_eq_true, decide_eq_true_eq, decide_eq_true_eq, mem_map]
  constructor
  · intro ⟨h, hh, hid⟩
    obtain ⟨c, hc, hpick⟩ := mem_filterMap.mp hh
    obtain ⟨hother, -, hcand, -⟩ := mem_supersededOf.mp (mem_of_latest hpick)
    have hsame : h = g := Table.eq_of_key hk.grade_ids (mem_otherGrades.mp hother).1
      (mem_otherGrades.mp hg).1 hid
    rw [hsame] at hcand hpick
    refine ⟨hcand ▸ mem_dedup.mp hc, ?_⟩
    rw [hcand]
    exact congrArg (Option.map Grade.id) hpick
  · intro ⟨hc, hpick⟩
    obtain ⟨h, hlatest, hid⟩ := Option.map_eq_some_iff.mp hpick
    exact ⟨h, mem_filterMap.mpr ⟨_, mem_dedup.mpr hc, hlatest⟩, hid⟩

theorem restoreSuperseded_eq (hk : Keyed db) : ∃ n,
    restoreSuperseded { db with grades := otherGrades ns b db } ns (batchCandidates ns b db).dedup =
      if currentUnique (undoneGrades ns b db) then
        .ok ({ db with grades := undoneGrades ns b db }, n)
      else .error .currentGrade := by
  have hgrades : Table.updateWhere (fun g : Grade => decide (g.id ∈
      (((batchCandidates ns b db).dedup.filterMap
        (restoredFor { db with grades := otherGrades ns b db } ns)).map Grade.id)))
      (fun g => { g with superseded_at := none }) (otherGrades ns b db) = undoneGrades ns b db := by
    unfold undoneGrades Table.updateWhere
    apply map_congr_left
    intro g hg
    have hiff := mem_restored_iff hk hg
    by_cases hback : comesBack ns b db g = true
    · rw [if_pos hback, if_pos (decide_eq_true (hiff.mpr hback))]
    · rw [if_neg hback, if_neg fun h => hback (hiff.mp (of_decide_eq_true h))]
  refine ⟨((batchCandidates ns b db).dedup.filterMap
    (restoredFor { db with grades := otherGrades ns b db } ns)).map Grade.id |>.length, ?_⟩
  unfold restoreSuperseded
  dsimp only
  rw [hgrades]

/-- The transaction gives `undone`, unless a candidate would have two live grades. -/
theorem undoRows_eq (hk : Keyed db) (hne : batchCandidates ns b db ≠ []) :
    ∃ result, undoRows db ns b =
      if currentUnique (undoneGrades ns b db) then .ok (undone ns b db, some result)
      else .error .currentGrade := by
  have hrun : undoRows db ns b =
      if db.grades.filter (·.inBatch ns b) = [] then .ok (db, none)
      else (restoreSuperseded { db with grades := otherGrades ns b db } ns
          (batchCandidates ns b db).dedup).bind fun r =>
        .ok ((reconcileCandidates r.1 ns (batchCandidates ns b db).dedup).1,
          some ⟨b, (db.grades.filter (·.inBatch ns b)).length, r.2,
            (reconcileCandidates r.1 ns (batchCandidates ns b db).dedup).2⟩) := rfl
  have hremoved : ¬ db.grades.filter (·.inBatch ns b) = [] := by
    intro h
    apply hne
    unfold batchCandidates
    rw [h]
    rfl
  have hlisted : (fun c : Candidate => c.ns == ns && decide (c.id ∈ (batchCandidates ns b db).dedup))
      = fun c => c.ns == ns && decide (c.id ∈ batchCandidates ns b db) := by
    funext c
    rw [decide_eq_decide.mpr mem_dedup]
  obtain ⟨n, hrestore⟩ := restoreSuperseded_eq hk
  refine ⟨⟨b, (db.grades.filter (·.inBatch ns b)).length, n, (db.candidates.filter fun c =>
    c.ns == ns && decide (c.id ∈ batchCandidates ns b db)).length⟩, ?_⟩
  rw [hrun, if_neg hremoved, hrestore]
  split
  · show Except.ok _ = Except.ok _
    unfold reconcileCandidates
    rw [hlisted]
    rfl
  · rfl

end Rows

/-! ## A graded candidate has a live grade -/

section Lively
variable {lower : Str → Str} {ns : Str} {b : Uuid} {db db' : Db}

def Lively (db : Db) : Prop :=
  ∀ g ∈ db.grades, ∃ h ∈ db.grades, h.live = true ∧ h.candidate_id = g.candidate_id

theorem latest_isSome {grades : List Grade} {g : Grade} (hg : g ∈ grades) :
    ∃ h, latest grades = some h := by
  cases grades with
  | nil => cases hg
  | cons x gs =>
    unfold latest
    split
    · split
      · exact ⟨_, rfl⟩
      · exact ⟨_, rfl⟩
    · exact ⟨_, rfl⟩

theorem lively_applyGrade {ctx : GradeCtx} {grade_id : Uuid} {g : ParsedGrade}
    {result : BatchGradeResult} (hl : Lively db)
    (h : applyGrade db ctx grade_id g = .ok (db', result)) : Lively db' := by
  obtain ⟨id, -, rfl, -⟩ := applyGrade_ok h
  have hnew : newGrade ctx grade_id id g ∈ supersededGrades db ctx id ++ [newGrade ctx grade_id id g] :=
    mem_append_right _ mem_cons_self
  intro row hrow
  by_cases he : row.candidate_id = id
  · exact ⟨_, hnew, rfl, he.symm⟩
  · rcases mem_append.mp hrow with hrow | hrow
    · obtain ⟨old, hold, -, hcand, -⟩ := mem_supersededGrades hrow
      obtain ⟨live, hmem, hlive, hsame⟩ := hl old hold
      have hother : live.candidate_id ≠ id := fun hid => he (hcand.trans (hsame.symm.trans hid))
      exact ⟨live, mem_append_left _ (keep_live hmem fun hfor => hother hfor.2), hlive,
        hsame.trans hcand.symm⟩
    · rw [mem_singleton.mp hrow] at he
      exact (he rfl).elim

theorem Keyed.ns_of_batch (hk : Keyed db) {g : Grade} (hg : g ∈ db.grades)
    (hb : g.candidate_id ∈ batchCandidates ns b db) : g.ns = ns := by
  obtain ⟨h, hh, hin, he⟩ := mem_batchCandidates.mp hb
  obtain ⟨c, hc, hcid, -⟩ := hk.owner g hg
  have hcns : h.ns = c.ns := hk.owned hh hc (he.trans hcid.symm)
  rw [hk.owned hg hc hcid.symm, ← hcns, (inBatch_iff.mp hin).1]

theorem lively_undone (hk : Keyed db) (hl : Lively db) : Lively (undone ns b db) := by
  intro g' hg'
  rcases Table.mem_updateWhere.mp hg' with ⟨hg, hback⟩ | ⟨g, hg, hback, rfl⟩
  · by_cases hb : g'.candidate_id ∈ batchCandidates ns b db
    · cases hlive : g'.live with
      | true => exact ⟨g', hg', hlive, rfl⟩
      | false =>
        -- a superseded grade of the candidate remains, and the latest of them comes back
        have hmem : g' ∈ supersededOf ns (otherGrades ns b db) g'.candidate_id :=
          mem_supersededOf.mpr ⟨hg, hk.ns_of_batch (mem_otherGrades.mp hg).1 hb, rfl, hlive⟩
        obtain ⟨h, hlatest⟩ := latest_isSome hmem
        obtain ⟨hother, -, hcand, -⟩ := mem_supersededOf.mp (mem_of_latest hlatest)
        have hh : comesBack ns b db h = true := by
          unfold comesBack
          rw [hcand, hlatest, decide_eq_true hb]
          exact decide_eq_true rfl
        exact ⟨_, Table.mem_updateWhere.mpr (.inr ⟨h, hother, hh, rfl⟩), rfl, hcand⟩
    · obtain ⟨h, hh, hlive, he⟩ := hl g' (mem_otherGrades.mp hg).1
      have hnot : h.candidate_id ∉ batchCandidates ns b db := he ▸ hb
      have hother : h.inBatch ns b = false := by
        rw [Bool.eq_false_iff]
        exact fun hin => hnot (mem_batchCandidates.mpr ⟨h, hh, hin, rfl⟩)
      refine ⟨h, Table.mem_updateWhere.mpr (.inl ⟨mem_otherGrades.mpr ⟨hh, hother⟩, ?_⟩), hlive, he⟩
      unfold comesBack
      rw [decide_eq_false hnot]
      rfl
  · exact ⟨_, hg', rfl, rfl⟩

structure Ungraded (db : Db) : Prop where
  candidate_ids : (db.candidates.map Candidate.id).Nodup
  grades : db.grades = []
  review : ∀ c ∈ db.candidates, c.review = (none, none, none)

/-- Every run of the writers, from candidates that nobody has graded. -/
def history (lower : Str → Str) : LTS Db Call := LTS.ofFn Ungraded fun db call => some (call.run lower db)

theorem keyed_ungrade (hk : Keyed db) (ns : Str) (id : Uuid) : Keyed (ungradeCandidate db ns id).1 := by
  have hids : (ungradeCandidate db ns id).1.candidates.map Candidate.id =
      db.candidates.map Candidate.id := Table.column_updateWhere fun _ => rfl
  refine ⟨hids ▸ hk.candidate_ids, hk.grade_ids, ?_, hk.current⟩
  intro g hg
  obtain ⟨c, hc, hcid, hcns⟩ := hk.owner g hg
  by_cases hp : (c.isAt ns id && c.reviewed_at.isSome) = true
  · exact ⟨_, Table.mem_updateWhere.mpr (.inr ⟨c, hc, hp, rfl⟩), hcid, hcns⟩
  · exact ⟨c, Table.mem_updateWhere.mpr (.inl ⟨hc, Bool.eq_false_iff.mpr hp⟩), hcid, hcns⟩

theorem undoRows_none (hno : batchCandidates ns b db = []) : undoRows db ns b = .ok (db, none) := by
  have hnone : db.grades.filter (fun g => g.ns == ns && g.batch_id == some b) = [] :=
    map_eq_nil_iff.mp hno
  unfold undoRows
  dsimp only
  rw [hnone, if_pos rfl]

/-- What undoing a batch leaves is `undone` or the tables as they were. -/
theorem undoRows_cases {result : Option UndoBatchResult} (hk : Keyed db)
    (h : undoRows db ns b = .ok (db', result)) :
    (db' = undone ns b db ∧ result.isSome = true) ∨ (db' = db ∧ result = none) := by
  by_cases hne : batchCandidates ns b db = []
  · right
    rw [undoRows_none hne] at h
    cases h
    exact ⟨rfl, rfl⟩
  · left
    obtain ⟨r, hr⟩ := undoRows_eq hk hne
    rw [hr] at h
    split at h
    · cases h
      exact ⟨rfl, rfl⟩
    · cases h

theorem keyed_undoRows {result : Option UndoBatchResult} (hk : Keyed db)
    (h : undoRows db ns b = .ok (db', result)) : Keyed db' := by
  cases result with
  | some r =>
    obtain ⟨ids, hundone⟩ := undone_of_undoRows hk h
    exact keyed_undone hk hundone
  | none =>
    rcases undoRows_cases hk h with ⟨-, hsome⟩ | ⟨rfl, -⟩
    · cases hsome
    · exact hk

theorem sound_call (call : Call) (h : Keyed db ∧ Lively db) :
    Keyed (call.run lower db) ∧ Lively (call.run lower db) := by
  have hgrade : ∀ {db db' : Db} {ctx : GradeCtx} {grade_id : Uuid} {g : ParsedGrade}
      {result : BatchGradeResult}, Keyed db ∧ Lively db →
      applyGrade db ctx grade_id g = .ok (db', result) → Keyed db' ∧ Lively db' :=
    fun h ha => ⟨keyed_applyGrade h.1 ha, lively_applyGrade h.2 ha⟩
  cases call with
  | submitGradeBatch draws ns gradedBy grades =>
    exact submit_keeps (fun db => Keyed db ∧ Lively db) hgrade lower draws ns gradedBy grades h
  | gradeCandidate draws input =>
    exact gradeCandidate_keeps (fun db => Keyed db ∧ Lively db) hgrade lower draws input h
  | ungradeCandidate ns id => exact ⟨keyed_ungrade h.1 ns id, h.2⟩
  | undoBatch ns batchId gradedBy =>
    refine transaction_keeps (fun db => Keyed db ∧ Lively db) h ?_
    intro db' result hr
    obtain ⟨batch_id, -, hr⟩ := bind_ok hr
    obtain ⟨-, -, hr⟩ := bind_ok hr
    refine ⟨keyed_undoRows h.1 hr, ?_⟩
    rcases undoRows_cases h.1 hr with ⟨rfl, -⟩ | ⟨rfl, -⟩
    · exact lively_undone h.1 h.2
    · exact h.2

theorem sound_reachable (h : (history lower).Reachable db) : Keyed db ∧ Lively db := by
  refine LTS.InductiveOn.reachable (I := fun db => Keyed db ∧ Lively db) ⟨?_, ?_⟩ h
  · intro db hu
    have hno : ∀ g, g ∉ db.grades := fun g hg => not_mem_nil (hu.grades ▸ hg)
    refine ⟨⟨hu.candidate_ids, ?_, fun g hg => (hno g hg).elim, fun g hg => (hno g hg).elim⟩,
      fun g hg => (hno g hg).elim⟩
    rw [hu.grades]
    exact nodup_nil
  · intro s call s' hs _ hst
    rw [← Option.some.inj hst]
    exact sound_call call hs

end Lively

/-! ## Undoing after a grade of another batch -/

section Commutes
variable {ns : Str} {b : Uuid} {db db' : Db} {ctx : GradeCtx} {grade_id id : Uuid} {g : ParsedGrade}

/-- The tables after a grade for `id`. -/
def afterGrade (db : Db) (ctx : GradeCtx) (grade_id id : Uuid) (g : ParsedGrade) : Db :=
  { db with
    candidates := gradedCandidates db ctx id g
    grades := supersededGrades db ctx id ++ [newGrade ctx grade_id id g] }

/-- The batch graded no candidate that has other grades too. -/
def Alone (ns : Str) (b : Uuid) (db : Db) (id : Uuid) : Prop :=
  id ∈ batchCandidates ns b db → ∀ g ∈ db.grades, g.candidate_id = id → g.inBatch ns b = true

/-- Superseding the grades of `id` moves no selection by another candidate. -/
theorem filter_supersede {grades : List Grade} {other : Uuid} {q : Grade → Bool}
    (hq : ∀ g, q g = true → g.candidate_id = other) (hne : other ≠ id) :
    (Table.updateWhere (fun row => row.isFor ctx.ns id && row.live)
      (fun row => { row with superseded_at := some ctx.now }) grades).filter q = grades.filter q := by
  apply Table.filter_updateWhere
  intro row _ hp
  rw [Bool.and_eq_true] at hp
  have hid := (isFor_iff.mp hp.1).2
  refine ⟨Bool.eq_false_iff.mpr ?_, Bool.eq_false_iff.mpr ?_⟩
  · exact fun h => hne ((hq row h).symm.trans hid)
  · exact fun h => hne ((hq _ h).symm.trans hid)

theorem batchCandidates_afterGrade :
    batchCandidates ns b (afterGrade db ctx grade_id id g) = batchCandidates ns b db ++
      (if (newGrade ctx grade_id id g).inBatch ns b then [id] else []) := by
  show ((supersededGrades db ctx id ++ [newGrade ctx grade_id id g]).filter
    (·.inBatch ns b)).map Grade.candidate_id = _
  rw [filter_append, map_append]
  congr 1
  · have hkept : (supersededGrades db ctx id).filter (·.inBatch ns b) =
        supersededGrades { db with grades := db.grades.filter (·.inBatch ns b) } ctx id :=
      Table.filter_updateWhere_of_kept fun _ => rfl
    rw [hkept]
    exact Table.column_updateWhere fun _ => rfl
  · rw [filter_singleton]
    cases (newGrade ctx grade_id id g).inBatch ns b with
    | true => rfl
    | false => rfl

theorem batchCandidates_other (hnew : (newGrade ctx grade_id id g).inBatch ns b = false) :
    batchCandidates ns b (afterGrade db ctx grade_id id g) = batchCandidates ns b db := by
  rw [batchCandidates_afterGrade, hnew]
  exact append_nil _

theorem otherGrades_afterGrade :
    otherGrades ns b (afterGrade db ctx grade_id id g) =
      supersededGrades { db with grades := otherGrades ns b db } ctx id ++
        (if (newGrade ctx grade_id id g).inBatch ns b then [] else [newGrade ctx grade_id id g]) := by
  show (supersededGrades db ctx id ++ [newGrade ctx grade_id id g]).filter
    (fun g => !g.inBatch ns b) = _
  rw [filter_append]
  congr 1
  · exact Table.filter_updateWhere_of_kept fun _ => rfl
  · rw [filter_singleton]
    cases (newGrade ctx grade_id id g).inBatch ns b with
    | true => rfl
    | false => rfl

theorem comesBack_other {row : Grade} (hne : row.candidate_id ≠ id) :
    comesBack ns b (afterGrade db ctx grade_id id g) row = comesBack ns b db row := by
  have hbatch : row.candidate_id ∈ batchCandidates ns b (afterGrade db ctx grade_id id g) ↔
      row.candidate_id ∈ batchCandidates ns b db := by
    rw [batchCandidates_afterGrade, mem_append]
    refine or_iff_left ?_
    split
    · exact fun h => hne (mem_singleton.mp h)
    · exact not_mem_nil
  have hrows : supersededOf ns (otherGrades ns b (afterGrade db ctx grade_id id g)) row.candidate_id =
      supersededOf ns (otherGrades ns b db) row.candidate_id := by
    unfold supersededOf
    rw [otherGrades_afterGrade, filter_append]
    have hnew : (if (newGrade ctx grade_id id g).inBatch ns b then []
        else [newGrade ctx grade_id id g]).filter
          (fun g => g.isFor ns row.candidate_id && !g.live) = [] := by
      split
      · rfl
      · exact filter_cons_of_neg (by rw [show (newGrade ctx grade_id id g).live = true from rfl,
          Bool.not_true, Bool.and_false]; exact Bool.false_ne_true)
    rw [hnew, append_nil]
    refine filter_supersede ?_ hne
    intro h hp
    rw [Bool.and_eq_true] at hp
    exact (isFor_iff.mp hp.1).2
  unfold comesBack
  rw [hrows, decide_eq_decide.mpr hbatch]

theorem comesBack_alone (halone : Alone ns b db id) {row : Grade} (he : row.candidate_id = id) :
    comesBack ns b db row = false := by
  rw [Bool.eq_false_iff]
  intro hback
  unfold comesBack at hback
  rw [Bool.and_eq_true, decide_eq_true_eq, decide_eq_true_eq, he] at hback
  obtain ⟨hb, hpick⟩ := hback
  obtain ⟨h, hlatest, -⟩ := Option.map_eq_some_iff.mp hpick
  obtain ⟨hother, -, hcand, -⟩ := mem_supersededOf.mp (mem_of_latest hlatest)
  obtain ⟨hmem, hnot⟩ := mem_otherGrades.mp hother
  rw [halone hb h hmem hcand] at hnot
  cases hnot

theorem comesBack_afterGrade_alone (halone : Alone ns b db id)
    (hnew : (newGrade ctx grade_id id g).inBatch ns b = false) {row : Grade}
    (he : row.candidate_id = id) :
    comesBack ns b (afterGrade db ctx grade_id id g) row = false := by
  rw [Bool.eq_false_iff]
  intro hback
  unfold comesBack at hback
  rw [Bool.and_eq_true, decide_eq_true_eq, decide_eq_true_eq, he, batchCandidates_afterGrade, hnew,
    otherGrades_afterGrade, hnew] at hback
  obtain ⟨hb, hpick⟩ := hback
  have hb : id ∈ batchCandidates ns b db := (mem_append.mp hb).resolve_right not_mem_nil
  obtain ⟨h, hlatest, -⟩ := Option.map_eq_some_iff.mp hpick
  obtain ⟨hmem, -, hcand, hlive⟩ := mem_supersededOf.mp (mem_of_latest hlatest)
  rcases mem_append.mp hmem with hmem | hmem
  · obtain ⟨old, hold, -, hsame, -⟩ := mem_supersededGrades hmem
    obtain ⟨hold, hnot⟩ := mem_otherGrades.mp hold
    rw [halone hb old hold (hsame.symm.trans hcand)] at hnot
    cases hnot
  · rw [mem_singleton.mp hmem] at hlive
    cases hlive

theorem undoneGrades_afterGrade (halone : Alone ns b db id)
    (hnew : (newGrade ctx grade_id id g).inBatch ns b = false) :
    undoneGrades ns b (afterGrade db ctx grade_id id g) =
      supersededGrades (undone ns b db) ctx id ++ [newGrade ctx grade_id id g] := by
  have hback : ∀ row : Grade, row.candidate_id = id →
      comesBack ns b (afterGrade db ctx grade_id id g) row = false :=
    fun _ => comesBack_afterGrade_alone halone hnew
  unfold undoneGrades
  rw [otherGrades_afterGrade, hnew]
  show List.map _ _ = _
  rw [if_neg Bool.false_ne_true, map_append, map_singleton, hback _ rfl]
  congr 1
  show List.map _ (List.map _ _) = List.map _ (List.map _ _)
  rw [map_map, map_map]
  apply map_congr_left
  intro row _
  dsimp only [Function.comp]
  by_cases he : row.candidate_id = id
  · have hsup : comesBack ns b (afterGrade db ctx grade_id id g)
        { row with superseded_at := some ctx.now } = false := hback _ he
    by_cases hp : (row.isFor ctx.ns id && row.live) = true
    · simp only [hp, hsup, comesBack_alone halone he, ↓reduceIte, Bool.false_eq_true]
    · simp only [hp, hback _ he, comesBack_alone halone he, ↓reduceIte, Bool.false_eq_true]
  · have hfor : row.isFor ctx.ns id = false :=
      Bool.eq_false_iff.mpr fun h => he (isFor_iff.mp h).2
    have hfor' : ({ row with superseded_at := none } : Grade).isFor ctx.ns id = false := hfor
    have hsame : comesBack ns b (afterGrade db ctx grade_id id g) row = comesBack ns b db row :=
      comesBack_other he
    by_cases hb : comesBack ns b db row = true
    · simp only [hfor, hfor', hsame, hb, Bool.false_and, ↓reduceIte, Bool.false_eq_true]
    · simp only [hfor, hsame, hb, Bool.false_and, ↓reduceIte, Bool.false_eq_true]

/-- The review columns of another candidate come from the same grade. -/
theorem liveReview_other {other : Uuid} (hne : other ≠ id) :
    liveReview (supersededGrades db ctx id ++ [newGrade ctx grade_id id g]) ns other =
      liveReview db.grades ns other := by
  have hfind : (supersededGrades db ctx id ++ [newGrade ctx grade_id id g]).find?
      (fun g => g.isFor ns other && g.live) =
      db.grades.find? fun g => g.isFor ns other && g.live := by
    rw [← head?_filter, ← head?_filter, filter_append]
    have hnew : (newGrade ctx grade_id id g).isFor ns other = false :=
      Bool.eq_false_iff.mpr fun h => hne (isFor_iff.mp h).2.symm
    rw [filter_cons_of_neg (by rw [hnew, Bool.false_and]; exact Bool.false_ne_true),
      filter_nil, append_nil]
    congr 1
    refine filter_supersede ?_ hne
    intro h hp
    rw [Bool.and_eq_true] at hp
    exact (isFor_iff.mp hp.1).2
  unfold liveReview
  rw [hfind]

/-- The review columns of a candidate with no other grade are those of the new one. -/
theorem liveReview_new (hns : ctx.ns = ns) (hno : ∀ g ∈ db.grades, g.candidate_id ≠ id) :
    liveReview (supersededGrades db ctx id ++ [newGrade ctx grade_id id g]) ns id =
      (some g.action, some ctx.now, some ctx.grader) := by
  have hold : (supersededGrades db ctx id).find?
      (fun g => g.isFor ns id && g.live) = none := by
    rw [find?_eq_none]
    intro row hrow hp
    rw [Bool.and_eq_true] at hp
    obtain ⟨old, hmem, -, hcand, -⟩ := mem_supersededGrades hrow
    exact hno old hmem (hcand.symm.trans (isFor_iff.mp hp.1).2)
  have hnew : ((newGrade ctx grade_id id g).isFor ns id && (newGrade ctx grade_id id g).live) = true := by
    rw [Bool.and_eq_true]
    exact ⟨isFor_iff.mpr ⟨hns, rfl⟩, rfl⟩
  have hfind : [newGrade ctx grade_id id g].find? (fun g => g.isFor ns id && g.live) =
      some (newGrade ctx grade_id id g) := find?_cons_of_pos hnew
  unfold liveReview
  rw [find?_append, hold, Option.none_or, hfind]
  rfl

/-- The grades of a candidate that the batch graded alone are gone when it is undone. -/
theorem gone_undoneGrades (halone : Alone ns b db id) (hb : id ∈ batchCandidates ns b db) :
    ∀ row ∈ undoneGrades ns b db, row.candidate_id ≠ id := by
  intro row hrow he
  rcases Table.mem_updateWhere.mp hrow with ⟨hmem, -⟩ | ⟨old, hmem, -, rfl⟩
  · obtain ⟨hmem, hnot⟩ := mem_otherGrades.mp hmem
    rw [halone hb row hmem he] at hnot
    cases hnot
  · obtain ⟨hmem, hnot⟩ := mem_otherGrades.mp hmem
    rw [halone hb old hmem he] at hnot
    cases hnot

theorem undoneCandidates_afterGrade (halone : Alone ns b db id)
    (hns : id ∈ batchCandidates ns b db → ctx.ns = ns)
    (hnew : (newGrade ctx grade_id id g).inBatch ns b = false) :
    undoneCandidates ns b (afterGrade db ctx grade_id id g) =
      gradedCandidates (undone ns b db) ctx id g := by
  show Table.updateWhere _ _ (Table.updateWhere _ _ _) =
    Table.updateWhere _ _ (Table.updateWhere _ _ _)
  unfold Table.updateWhere
  rw [map_map, map_map, batchCandidates_other hnew, undoneGrades_afterGrade halone hnew]
  apply map_congr_left
  intro c _
  dsimp only [Function.comp]
  by_cases hat : c.isAt ctx.ns id = true <;>
    by_cases hlisted : (c.ns == ns && decide (c.id ∈ batchCandidates ns b db)) = true
  · -- the new grade is the only one of its candidate once the batch is gone
    obtain ⟨-, rfl⟩ := isAt_iff.mp hat
    have hb : c.id ∈ batchCandidates ns b db := by
      rw [Bool.and_eq_true, decide_eq_true_eq] at hlisted
      exact hlisted.2
    have hreview : liveReview (supersededGrades (undone ns b db) ctx c.id ++
        [newGrade ctx grade_id c.id g]) ns c.id = (some g.action, some ctx.now, some ctx.grader) :=
      liveReview_new (hns hb) (gone_undoneGrades halone hb)
    simp only [hat, hlisted, hreview, isAt_setReview, setReview_setReview, setReview_id, setReview_ns,
      ↓reduceIte]
  · simp only [hat, hlisted, setReview_id, setReview_ns, ↓reduceIte, Bool.false_eq_true]
  · have hne : c.id ≠ id := by
      intro he
      rw [Bool.and_eq_true, decide_eq_true_eq, beq_iff_eq] at hlisted
      exact hat (isAt_iff.mpr ⟨hlisted.1.trans (hns (he ▸ hlisted.2)).symm, he⟩)
    have hreview : liveReview (supersededGrades (undone ns b db) ctx id ++
        [newGrade ctx grade_id id g]) ns c.id = liveReview (undoneGrades ns b db) ns c.id :=
      liveReview_other hne
    simp only [hat, hlisted, hreview, isAt_setReview, ↓reduceIte, Bool.false_eq_true]
  · simp only [hat, hlisted, ↓reduceIte, Bool.false_eq_true]

theorem undone_afterGrade (halone : Alone ns b db id) (hns : id ∈ batchCandidates ns b db → ctx.ns = ns)
    (hnew : (newGrade ctx grade_id id g).inBatch ns b = false) :
    undone ns b (afterGrade db ctx grade_id id g) = afterGrade (undone ns b db) ctx grade_id id g := by
  show Db.mk (undoneCandidates ns b (afterGrade db ctx grade_id id g))
    (undoneGrades ns b (afterGrade db ctx grade_id id g)) db.reinforcements = Db.mk _ _ _
  rw [undoneCandidates_afterGrade halone hns hnew, undoneGrades_afterGrade halone hnew]
  rfl

end Commutes

/-! ## Undoing after a grade of the batch itself -/

section Own
variable {ns : Str} {b : Uuid} {db : Db} {ctx : GradeCtx} {grade_id id : Uuid} {g : ParsedGrade}

/-- A candidate whose live grade is the latest of its grades, and whose review columns are those
of that grade. -/
structure Restorable (ns : Str) (db : Db) (id : Uuid) : Prop where
  latest : ∀ g ∈ db.grades, g.live = true → g.candidate_id = id →
    ∀ h ∈ db.grades, h.candidate_id = id → h = g ∨ g.after h = true
  agrees : ∀ c ∈ db.candidates, c.isAt ns id = true → Agrees db.grades c

theorem after_iff {g h : Grade} : g.after h = true ↔
    h.created_at < g.created_at ∨ h.created_at = g.created_at ∧ h.id < g.id := by
  simp [Grade.after]

theorem not_after_self (g : Grade) : ¬ g.after g = true := by
  simp [after_iff]

theorem after_asymm {g h : Grade} (ha : g.after h = true) : ¬ h.after g = true := by
  intro hb
  rcases after_iff.mp ha with ha | ⟨hsame, ha⟩
  · rcases after_iff.mp hb with hb | ⟨hsame, -⟩
    · exact absurd hb (not_lt.mpr (le_of_lt ha))
    · exact absurd hsame (ne_of_gt ha)
  · rcases after_iff.mp hb with hb | ⟨-, hb⟩
    · exact absurd hsame (ne_of_gt hb)
    · exact absurd hb (not_lt.mpr (le_of_lt ha))

theorem latest_eq {grades : List Grade} {last : Grade} (hmem : last ∈ grades)
    (hall : ∀ h ∈ grades, h = last ∨ last.after h = true) : latest grades = some last := by
  induction grades with
  | nil => cases hmem
  | cons x gs ih =>
    have hx := hall x mem_cons_self
    have hrest : ∀ h ∈ gs, h = last ∨ last.after h = true :=
      fun h hh => hall h (mem_cons_of_mem x hh)
    unfold latest
    by_cases hin : last ∈ gs
    · rw [ih hin hrest]
      rcases hx with rfl | hx
      · exact if_neg (not_after_self x)
      · exact if_pos hx
    · have hlast : last = x := (mem_cons.mp hmem).resolve_right hin
      cases hl : latest gs with
      | none => rw [hlast]
      | some h =>
        have hh := mem_of_latest hl
        rw [← hlast]
        rcases hrest h hh with rfl | hafter
        · exact (hin hh).elim
        · exact if_neg (after_asymm hafter)

theorem mem_undoneGrades_of_not_mem (hb : id ∉ batchCandidates ns b db) {row : Grade}
    (he : row.candidate_id = id) : row ∈ undoneGrades ns b db ↔ row ∈ db.grades := by
  have hnot : ∀ r ∈ db.grades, r.candidate_id = id → r.inBatch ns b = false := by
    intro r hr hrid
    rw [Bool.eq_false_iff]
    exact fun hin => hb (mem_batchCandidates.mpr ⟨r, hr, hin, hrid⟩)
  have hback : ∀ r : Grade, r.candidate_id = id → comesBack ns b db r = false := by
    intro r hrid
    unfold comesBack
    rw [hrid, decide_eq_false hb]
    rfl
  constructor
  · intro hrow
    rcases Table.mem_updateWhere.mp hrow with ⟨hmem, -⟩ | ⟨old, -, hold, rfl⟩
    · exact (mem_otherGrades.mp hmem).1
    · rw [hback old he] at hold
      cases hold
  · intro hrow
    exact Table.mem_updateWhere.mpr (.inl ⟨mem_otherGrades.mpr ⟨hrow, hnot row hrow he⟩, hback row he⟩)

def Holds (ns : Str) (b : Uuid) (db : Db) : Prop :=
  ∀ id ∈ batchCandidates ns b db,
    ∃ g ∈ db.grades, g.inBatch ns b = true ∧ g.live = true ∧ g.candidate_id = id

theorem holds_afterGrade (hh : Holds ns b db)
    (hnew : (newGrade ctx grade_id id g).inBatch ns b = true) :
    Holds ns b (afterGrade db ctx grade_id id g) := by
  intro c hc
  by_cases he : c = id
  · exact ⟨_, mem_append_right _ mem_cons_self, hnew, rfl, he.symm⟩
  · rw [batchCandidates_afterGrade, if_pos hnew, mem_append, mem_singleton] at hc
    obtain ⟨row, hrow, hin, hlive, hcand⟩ := hh c (hc.resolve_right he)
    refine ⟨row, mem_append_left _ (keep_live hrow ?_), hin, hlive, hcand⟩
    exact fun hfor => he (hcand.symm.trans hfor.2)

theorem not_live_of_holds (hk : Keyed db) (hh : Holds ns b db) {row : Grade}
    (hrow : row ∈ otherGrades ns b db) (hb : row.candidate_id ∈ batchCandidates ns b db) :
    row.live = false := by
  rw [Bool.eq_false_iff]
  intro hlive
  obtain ⟨hmem, hnot⟩ := mem_otherGrades.mp hrow
  obtain ⟨own, hown, hin, hl, hcand⟩ := hh _ hb
  rw [hk.current row hmem own hown hlive hl hcand.symm, hin] at hnot
  cases hnot

section First
variable (hns : ctx.ns = ns) (hfor : ∀ r ∈ db.grades, r.candidate_id = id → r.ns = ns)
  (hrestorable : Restorable ns (undone ns b db) id) (hb : id ∉ batchCandidates ns b db)
  (hnew : (newGrade ctx grade_id id g).inBatch ns b = true)
include hns hfor hrestorable hb hnew

/-- The first grade of a candidate by the batch supersedes its live grade, which then is the
latest of the superseded ones. -/
theorem latest_afterGrade {row : Grade} (hrow : row ∈ otherGrades ns b db)
    (hlive : row.live = true) (he : row.candidate_id = id) :
    latest (supersededOf ns (otherGrades ns b (afterGrade db ctx grade_id id g)) id) =
      some { row with superseded_at := some ctx.now } := by
  have hstays : ∀ r ∈ otherGrades ns b db, r.candidate_id = id → r ∈ undoneGrades ns b db :=
    fun r hr hrid => (mem_undoneGrades_of_not_mem hb hrid).mpr (mem_otherGrades.mp hr).1
  have hlast := hrestorable.latest row (hstays row hrow he) hlive he
  have hrns := hfor row (mem_otherGrades.mp hrow).1 he
  have hp : (row.isFor ctx.ns id && row.live) = true := by
    rw [hlive, Bool.and_true]
    exact isFor_iff.mpr ⟨hrns.trans hns.symm, he⟩
  rw [otherGrades_afterGrade, if_pos hnew, append_nil]
  apply latest_eq
  · exact mem_supersededOf.mpr ⟨Table.mem_updateWhere.mpr (.inr ⟨row, hrow, hp, rfl⟩), hrns, he, rfl⟩
  · intro h hh
    obtain ⟨hh, -, hcand, hold⟩ := mem_supersededOf.mp hh
    rcases Table.mem_updateWhere.mp hh with ⟨hmem, -⟩ | ⟨old, hmem, -, rfl⟩
    · rcases hlast h (hstays h hmem hcand) hcand with rfl | hafter
      · rw [hlive] at hold
        cases hold
      · exact .inr hafter
    · rcases hlast old (hstays old hmem hcand) hcand with rfl | hafter
      · exact .inl rfl
      · exact .inr hafter

theorem restored_afterGrade (hk : Keyed db) (hl : Lively (undone ns b db)) {row : Grade}
    (hrow : row ∈ otherGrades ns b db) (he : row.candidate_id = id) :
    comesBack ns b (afterGrade db ctx grade_id id g) row = row.live := by
  have hb' : id ∈ batchCandidates ns b (afterGrade db ctx grade_id id g) := by
    rw [batchCandidates_afterGrade, if_pos hnew]
    exact mem_append_right _ mem_cons_self
  obtain ⟨hmem, -⟩ := mem_otherGrades.mp hrow
  obtain ⟨now, hnow, hlive, hcand⟩ := hl row ((mem_undoneGrades_of_not_mem hb he).mpr hmem)
  have hcand : now.candidate_id = id := hcand.trans he
  have hother : now ∈ otherGrades ns b db := by
    refine mem_otherGrades.mpr ⟨(mem_undoneGrades_of_not_mem hb hcand).mp hnow, ?_⟩
    rw [Bool.eq_false_iff]
    exact fun hin => hb (mem_batchCandidates.mpr
      ⟨now, (mem_undoneGrades_of_not_mem hb hcand).mp hnow, hin, hcand⟩)
  unfold comesBack
  rw [he, latest_afterGrade hns hfor hrestorable hb hnew hother hlive hcand, decide_eq_true hb',
    Bool.true_and, Option.map_some]
  cases hrl : row.live with
  | true =>
    have hsame : now = row :=
      hk.current now (mem_otherGrades.mp hother).1 row hmem hlive hrl (hcand.trans he.symm)
    rw [hsame]
    exact decide_eq_true rfl
  | false =>
    refine decide_eq_false ?_
    intro hid
    have hsame : now = row :=
      Table.eq_of_key hk.grade_ids (mem_otherGrades.mp hother).1 hmem (Option.some.inj hid)
    rw [hsame, hrl] at hlive
    cases hlive

end First

theorem comesBack_held (hk : Keyed db) (hh : Holds ns b db) (hb : id ∈ batchCandidates ns b db)
    (hnew : (newGrade ctx grade_id id g).inBatch ns b = true) {row : Grade}
    (he : row.candidate_id = id) :
    comesBack ns b (afterGrade db ctx grade_id id g) row = comesBack ns b db row := by
  have hothers : otherGrades ns b (afterGrade db ctx grade_id id g) = otherGrades ns b db := by
    rw [otherGrades_afterGrade, if_pos hnew, append_nil]
    apply Table.updateWhere_of_none
    intro r hr
    rw [Bool.eq_false_iff]
    intro hp
    rw [Bool.and_eq_true] at hp
    have hlive := not_live_of_holds hk hh hr ((isFor_iff.mp hp.1).2 ▸ hb)
    rw [hlive] at hp
    exact Bool.false_ne_true hp.2
  have hb' : id ∈ batchCandidates ns b (afterGrade db ctx grade_id id g) := by
    rw [batchCandidates_afterGrade]
    exact mem_append_left _ hb
  unfold comesBack
  rw [he, hothers, decide_eq_true hb, decide_eq_true hb']

/-- The grades of other batches come back as they were before a grade of the batch. -/
theorem undoneGrades_ownGrade (hk : Keyed db) (hh : Holds ns b db) (hns : ctx.ns = ns)
    (hfor : ∀ r ∈ db.grades, r.candidate_id = id → r.ns = ns) (hl : Lively (undone ns b db))
    (hrestorable : Restorable ns (undone ns b db) id)
    (hnew : (newGrade ctx grade_id id g).inBatch ns b = true) :
    undoneGrades ns b (afterGrade db ctx grade_id id g) = undoneGrades ns b db := by
  have hrows : undoneGrades ns b (afterGrade db ctx grade_id id g) =
      Table.updateWhere (comesBack ns b (afterGrade db ctx grade_id id g))
        (fun g => { g with superseded_at := none })
        (supersededGrades { db with grades := otherGrades ns b db } ctx id) := by
    unfold undoneGrades
    rw [otherGrades_afterGrade, if_pos hnew, append_nil]
  rw [hrows]
  show List.map _ (List.map _ _) = List.map _ _
  rw [map_map]
  apply map_congr_left
  intro row hrow
  dsimp only [Function.comp]
  by_cases he : row.candidate_id = id
  · by_cases hb : id ∈ batchCandidates ns b db
    · have hlive : row.live = false := not_live_of_holds hk hh hrow (he ▸ hb)
      simp only [hlive, comesBack_held hk hh hb hnew he, Bool.and_false, ↓reduceIte,
        Bool.false_eq_true]
    · have hback : comesBack ns b (afterGrade db ctx grade_id id g) row = row.live :=
        restored_afterGrade hns hfor hrestorable hb hnew hk hl hrow he
      have hback' : comesBack ns b (afterGrade db ctx grade_id id g)
          { row with superseded_at := some ctx.now } = row.live := hback
      have hstays : comesBack ns b db row = false := by
        unfold comesBack
        rw [he, decide_eq_false hb]
        rfl
      have hmine : row.isFor ctx.ns id = true :=
        isFor_iff.mpr ⟨(hfor row (mem_otherGrades.mp hrow).1 he).trans hns.symm, he⟩
      rcases Bool.eq_false_or_eq_true row.live with hlive | hlive
      · have hnone : row.superseded_at = none := Option.isNone_iff_eq_none.mp hlive
        simp only [hmine, hlive, hback', hstays, Bool.and_self, ↓reduceIte, Bool.false_eq_true,
          ← hnone]
      · simp only [hlive, hback, hstays, Bool.and_false, ↓reduceIte, Bool.false_eq_true]
  · have hfor : row.isFor ctx.ns id = false :=
      Bool.eq_false_iff.mpr fun h => he (isFor_iff.mp h).2
    have hsame : comesBack ns b (afterGrade db ctx grade_id id g) row = comesBack ns b db row :=
      comesBack_other he
    simp only [hfor, hsame, Bool.false_and, ↓reduceIte, Bool.false_eq_true]

theorem review_of_agrees {grades : List Grade} {c : Candidate} (ha : Agrees grades c)
    (hfor : ∀ g ∈ grades, g.candidate_id = c.id → g.ns = ns) :
    liveReview grades ns c.id = c.review := by
  unfold liveReview
  cases hfind : grades.find? fun g => g.isFor ns c.id && g.live with
  | none =>
    refine (ha.2 ?_).symm
    intro g hg hlive he
    have hno := find?_eq_none.mp hfind g hg
    rw [isFor_iff.mpr ⟨hfor g hg he, he⟩, hlive] at hno
    exact hno rfl
  | some found =>
    have hp := find?_some hfind
    rw [Bool.and_eq_true] at hp
    exact (ha.1 found (mem_of_find?_eq_some hfind) hp.2 (isFor_iff.mp hp.1).2).symm

theorem setReview_self (c : Candidate) : c.setReview c.review = c := rfl

/-- A grade of the batch changes nothing of what undoing it leaves. -/
theorem undone_ownGrade (hk : Keyed db) (hk' : Keyed (undone ns b db)) (hl : Lively (undone ns b db))
    (hh : Holds ns b db) (hns : ctx.ns = ns) {c₀ : Candidate} (hc₀ : c₀ ∈ db.candidates)
    (hat : c₀.isAt ns id = true) (hrestorable : Restorable ns (undone ns b db) id)
    (hnew : (newGrade ctx grade_id id g).inBatch ns b = true) :
    undone ns b (afterGrade db ctx grade_id id g) = undone ns b db := by
  obtain ⟨hcns, rfl⟩ := isAt_iff.mp hat
  have hfor : ∀ r ∈ db.grades, r.candidate_id = c₀.id → r.ns = ns :=
    fun r hr he => (hk.owned hr hc₀ he).trans hcns
  have hgrades : undoneGrades ns b (afterGrade db ctx grade_id c₀.id g) = undoneGrades ns b db :=
    undoneGrades_ownGrade hk hh hns hfor hl hrestorable hnew
  have hbatch : ∀ other, other ∈ batchCandidates ns b (afterGrade db ctx grade_id c₀.id g) ↔
      other ∈ batchCandidates ns b db ∨ other = c₀.id := by
    intro other
    rw [batchCandidates_afterGrade, if_pos hnew, mem_append, mem_singleton]
  have hcandidates : undoneCandidates ns b (afterGrade db ctx grade_id c₀.id g) =
      undoneCandidates ns b db := by
    show Table.updateWhere _ _ (Table.updateWhere _ _ _) = Table.updateWhere _ _ _
    unfold Table.updateWhere
    rw [map_map, hgrades]
    apply map_congr_left
    intro c hc
    dsimp only [Function.comp]
    by_cases hmine : c.isAt ctx.ns c₀.id = true
    · obtain ⟨hthis, he⟩ := isAt_iff.mp hmine
      have hlisted : (c.ns == ns && decide (c.id ∈ batchCandidates ns b
          (afterGrade db ctx grade_id c₀.id g))) = true := by
        rw [Bool.and_eq_true, beq_iff_eq, decide_eq_true_eq]
        exact ⟨hthis.trans hns, (hbatch _).mpr (.inr he)⟩
      by_cases hwas : (c.ns == ns && decide (c.id ∈ batchCandidates ns b db)) = true
      · simp only [hmine, hlisted, hwas, setReview_id, setReview_ns, setReview_setReview, ↓reduceIte]
      · -- the columns are those of the grade that comes back
        have hin : c ∈ (undone ns b db).candidates :=
          Table.mem_updateWhere.mpr (.inl ⟨hc, Bool.eq_false_iff.mpr hwas⟩)
        have hmine' : c.isAt ns c₀.id = true := isAt_iff.mpr ⟨hthis.trans hns, he⟩
        have hreview : liveReview (undoneGrades ns b db) ns c.id = c.review :=
          review_of_agrees (hrestorable.agrees c hin hmine')
            fun row hrow hcand => (hk'.owned hrow hin hcand).trans (hthis.trans hns)
        simp only [hmine, hlisted, hwas, hreview, setReview_id, setReview_ns, setReview_setReview,
          setReview_self, ↓reduceIte, Bool.false_eq_true]
    · have hlisted : (c.ns == ns && decide (c.id ∈ batchCandidates ns b
          (afterGrade db ctx grade_id c₀.id g))) =
          (c.ns == ns && decide (c.id ∈ batchCandidates ns b db)) := by
        by_cases hthis : c.ns = ns
        · have hne : c.id ≠ c₀.id := fun he => hmine (isAt_iff.mpr ⟨hthis.trans hns.symm, he⟩)
          rw [decide_eq_decide.mpr ((hbatch c.id).trans (or_iff_left hne))]
        · rw [beq_eq_false_iff_ne.mpr hthis, Bool.false_and, Bool.false_and]
      simp only [hmine, hlisted, ↓reduceIte, Bool.false_eq_true]
  show Db.mk (undoneCandidates ns b (afterGrade db ctx grade_id c₀.id g))
    (undoneGrades ns b (afterGrade db ctx grade_id c₀.id g)) db.reinforcements = Db.mk _ _ _
  rw [hcandidates, hgrades]

end Own

/-! ## The grades of a batch, one by one -/

section Items
variable {ns : Str} {b : Uuid} {db db' : Db} {ctx : GradeCtx} {grade_id : Uuid} {g : ParsedGrade}

def ParsedGrade.target (g : ParsedGrade) : Uuid := (uuidOf g.candidateId).getD 0

theorem applyGrade_iff (hk : Keyed db) :
    (∃ result, applyGrade db ctx grade_id g = .ok (db', result)) ↔
      (∃ c ∈ db.candidates, c.isAt ctx.ns g.target = true) ∧
      (∀ row ∈ db.grades, row.id ≠ grade_id) ∧ db' = afterGrade db ctx grade_id g.target g := by
  have hids : (supersededGrades db ctx g.target).map Grade.id = db.grades.map Grade.id :=
    Table.column_updateWhere fun _ => rfl
  have hsame : (∀ row ∈ supersededGrades db ctx g.target, row.id ≠ grade_id) ↔
      ∀ row ∈ db.grades, row.id ≠ grade_id := by
    rw [← forall_mem_map (P := (· ≠ grade_id)), hids, forall_mem_map]
  constructor
  · intro ⟨result, h⟩
    obtain ⟨id, ⟨c, hc, hat⟩, hafter, hkey, rfl⟩ := applyGrade_ok h
    exact ⟨⟨c, hc, isAt_iff.mpr hat⟩, hsame.mp hkey, hafter⟩
  · intro ⟨⟨c, hc, hat⟩, hfresh, hafter⟩
    obtain ⟨found, hfound⟩ : ∃ found, db.candidates.find? (·.isAt ctx.ns g.target) = some found :=
      Option.isSome_iff_exists.mp (find?_isSome.mpr ⟨c, hc, hat⟩)
    obtain ⟨hns, hid⟩ := isAt_iff.mp hat
    have hgone : ∀ row ∈ supersededGrades db ctx g.target, row.live = true →
        row.candidate_id ≠ g.target := hid ▸ gone_supersededGrades hk hc hns
    have hinsert : insertGrade { db with
        candidates := gradedCandidates db ctx g.target g
        grades := supersededGrades db ctx g.target } (newGrade ctx grade_id g.target g) =
        .ok (afterGrade db ctx grade_id g.target g) := by
      have hkey : ¬ ((supersededGrades db ctx g.target).any fun row => row.id == grade_id) = true := by
        intro h
        obtain ⟨row, hrow, he⟩ := any_eq_true.mp h
        exact hsame.mpr hfresh row hrow (beq_iff_eq.mp he)
      have hthere : (gradedCandidates db ctx g.target g).any (fun c => c.id == g.target) = true :=
        any_eq_true.mpr ⟨_, Table.mem_updateWhere.mpr (.inr ⟨c, hc, hat, rfl⟩),
          beq_iff_eq.mpr hid⟩
      have hcurrent : ¬ ((newGrade ctx grade_id g.target g).live &&
          (supersededGrades db ctx g.target).any fun row =>
            row.live && row.candidate_id == g.target) = true := by
        intro h
        rw [Bool.and_eq_true] at h
        obtain ⟨row, hrow, he⟩ := any_eq_true.mp h.2
        rw [Bool.and_eq_true, beq_iff_eq] at he
        exact hgone row hrow he.1 he.2
      have hthere : ¬ (!(gradedCandidates db ctx g.target g).any fun c => c.id == g.target) = true := by
        rw [hthere]
        exact Bool.false_ne_true
      exact (if_neg hkey).trans ((if_neg hthere).trans (if_neg hcurrent))
    have happly : applyGrade db ctx grade_id g = (insertGrade { db with
        candidates := gradedCandidates db ctx g.target g
        grades := supersededGrades db ctx g.target } (newGrade ctx grade_id g.target g)).bind
          fun db' => .ok (db', ⟨g.candidateId, grade_id, g.action,
            (db.grades.find? fun row => row.isFor ctx.ns g.target && row.live).map Grade.id,
            found.machine_grade, found.machine_grade.map (· == g.action), g.note.isSome,
            g.reasonCode, g.agentBehavior, ctx.now⟩) := by
      have hfound' : db.candidates.find? (·.isAt ctx.ns ((uuidOf g.candidateId).getD 0)) =
        some found := hfound
      unfold applyGrade
      dsimp only
      rw [hfound']
      rfl
    rw [happly, hinsert, hafter]
    exact ⟨_, rfl⟩

theorem exists_isAt_iff {t : Db} {id : Uuid} (hkeep : t.candidates.map (fun c => (c.ns, c.id)) =
    db.candidates.map fun c => (c.ns, c.id)) :
    (∃ c ∈ t.candidates, c.isAt ctx.ns id = true) ↔ ∃ c ∈ db.candidates, c.isAt ctx.ns id = true := by
  have hkey : ∀ u : Db, (∃ c ∈ u.candidates, c.isAt ctx.ns id = true) ↔
      (ctx.ns, id) ∈ u.candidates.map fun c => (c.ns, c.id) := by
    intro u
    rw [mem_map]
    constructor
    · intro ⟨c, hc, hat⟩
      obtain ⟨hns, hid⟩ := isAt_iff.mp hat
      exact ⟨c, hc, by rw [hns, hid]⟩
    · intro ⟨c, hc, he⟩
      obtain ⟨hns, hid⟩ := Prod.mk.inj he
      exact ⟨c, hc, isAt_iff.mpr ⟨hns, hid⟩⟩
  rw [hkey, hkey, hkeep]

theorem fresh_afterGrade {id x : Uuid} :
    (∀ row ∈ (afterGrade db ctx grade_id id g).grades, row.id ≠ x) ↔
      (∀ row ∈ db.grades, row.id ≠ x) ∧ grade_id ≠ x := by
  have hids : (afterGrade db ctx grade_id id g).grades.map Grade.id =
      db.grades.map Grade.id ++ [grade_id] := by
    show (supersededGrades db ctx id ++ [newGrade ctx grade_id id g]).map Grade.id = _
    rw [map_append]
    exact congrArg (· ++ [grade_id]) (Table.column_updateWhere fun _ => rfl)
  rw [← forall_mem_map (P := (· ≠ x)), hids, forall_mem_append, forall_mem_map,
    forall_mem_singleton]

theorem candidates_afterGrade {id : Uuid} :
    (afterGrade db ctx grade_id id g).candidates.map (fun c => (c.ns, c.id)) =
      db.candidates.map fun c => (c.ns, c.id) := Table.column_updateWhere fun _ => rfl

/-- When every grade of a list is applied: each candidate is there, and the ids drawn are new. -/
theorem applyAll_isOk_iff {draw : Nat → Uuid} {gs : List ParsedGrade} {i : Nat} (hk : Keyed db) :
    (∃ r, applyAll ctx draw i db gs = .ok r) ↔
      (∀ g ∈ gs, ∃ c ∈ db.candidates, c.isAt ctx.ns g.target = true) ∧
      (∀ j, i ≤ j → j < i + gs.length → ∀ row ∈ db.grades, row.id ≠ draw j) ∧
      ∀ j k, i ≤ j → j < k → k < i + gs.length → draw j ≠ draw k := by
  induction gs generalizing i db with
  | nil =>
    refine iff_of_true ⟨_, rfl⟩ ⟨fun g hg => (not_mem_nil hg).elim, ?_, ?_⟩
    · intro j hij hj
      rw [length_nil] at hj
      omega
    · intro j k hij hjk hk
      rw [length_nil] at hk
      omega
  | cons g gs ih =>
    constructor
    · intro ⟨r, h⟩
      obtain ⟨⟨db₁, result⟩, hg, h⟩ := bind_ok h
      obtain ⟨rest, hgs, -⟩ := bind_ok h
      have hk₁ := keyed_applyGrade hk hg
      obtain ⟨hthere, hfresh, rfl⟩ := (applyGrade_iff hk).mp ⟨_, hg⟩
      obtain ⟨hall, hids, hdiffer⟩ := (ih hk₁).mp ⟨_, hgs⟩
      refine ⟨?_, ?_, ?_⟩
      · refine forall_mem_cons.mpr ⟨hthere, ?_⟩
        intro g' hg'
        exact (exists_isAt_iff candidates_afterGrade).mp (hall g' hg')
      · intro j hij hj
        rcases Nat.eq_or_lt_of_le hij with rfl | hlt
        · exact hfresh
        · rw [length_cons] at hj
          exact (fresh_afterGrade.mp (hids j hlt (by omega))).1
      · intro j k hij hjk hk
        rw [length_cons] at hk
        rcases Nat.eq_or_lt_of_le hij with rfl | hlt
        · exact (fresh_afterGrade.mp (hids k hjk (by omega))).2
        · exact hdiffer j k hlt hjk (by omega)
    · intro ⟨hall, hids, hdiffer⟩
      obtain ⟨hthere, hall⟩ := forall_mem_cons.mp hall
      rw [length_cons] at hids hdiffer
      obtain ⟨result, hg⟩ := (applyGrade_iff hk).mpr
        ⟨hthere, hids i (Nat.le_refl i) (by omega), rfl⟩
      have hk₁ := keyed_applyGrade hk hg
      obtain ⟨rest, hgs⟩ := (ih hk₁).mpr ⟨
        fun g' hg' => (exists_isAt_iff candidates_afterGrade).mpr (hall g' hg'),
        fun j hij hj => fresh_afterGrade.mpr
          ⟨hids j (by omega) (by omega), hdiffer i j (Nat.le_refl i) hij (by omega)⟩,
        fun j k hij hjk hk => hdiffer j k (by omega) hjk (by omega)⟩
      have hrun : applyAll ctx draw i db (g :: gs) = .ok (rest.1, result :: rest.2) := by
        show (applyGrade db ctx (draw i) g).bind _ = _
        rw [hg]
        show (applyAll ctx draw (i + 1) _ gs).bind _ = _
        rw [hgs]
        rfl
      exact ⟨_, hrun⟩

end Items

/-! ## A whole batch -/

section Batches
variable {ns : Str} {b : Uuid} {db db' : Db} {ctx : GradeCtx} {draw : Nat → Uuid}
  {gs : List ParsedGrade} {i : Nat} {results : List BatchGradeResult}

theorem Keyed.ns_of_isAt (hk : Keyed db) {id : Uuid} (hthere : ∃ c ∈ db.candidates, c.isAt ctx.ns id = true)
    (hb : id ∈ batchCandidates ns b db) : ctx.ns = ns := by
  obtain ⟨c, hc, hat⟩ := hthere
  obtain ⟨hcns, rfl⟩ := isAt_iff.mp hat
  obtain ⟨row, hrow, hin, he⟩ := mem_batchCandidates.mp hb
  rw [← hcns, ← hk.owned hrow hc he, (inBatch_iff.mp hin).1]

theorem candidates_undone : (undone ns b db).candidates.map (fun c => (c.ns, c.id)) =
    db.candidates.map fun c => (c.ns, c.id) := Table.column_updateWhere fun _ => rfl

/-- Ids that are not drawn for the batch are in use after it is undone as they were before. -/
theorem fresh_undone {x : Uuid} (hx : ∀ row ∈ db.grades, row.inBatch ns b = true → row.id ≠ x) :
    (∀ row ∈ (undone ns b db).grades, row.id ≠ x) ↔ ∀ row ∈ db.grades, row.id ≠ x := by
  have hids : (undone ns b db).grades.map Grade.id = (otherGrades ns b db).map Grade.id :=
    Table.column_updateWhere fun _ => rfl
  rw [← forall_mem_map (P := (· ≠ x)), hids, forall_mem_map]
  constructor
  · intro hothers row hrow
    cases hin : row.inBatch ns b with
    | true => exact hx row hrow hin
    | false => exact hothers row (mem_otherGrades.mpr ⟨hrow, hin⟩)
  · intro hall row hrow
    exact hall row (mem_otherGrades.mp hrow).1

theorem newGrade_other (hb : ctx.batchId ≠ b) {grade_id id : Uuid} {g : ParsedGrade} :
    (newGrade ctx grade_id id g).inBatch ns b = false := by
  rw [Bool.eq_false_iff]
  exact fun h => hb (Option.some.inj (inBatch_iff.mp h).2)

theorem newGrade_own (hns : ctx.ns = ns) (hb : ctx.batchId = b) {grade_id id : Uuid}
    {g : ParsedGrade} : (newGrade ctx grade_id id g).inBatch ns b = true :=
  inBatch_iff.mpr ⟨hns, congrArg some hb⟩

/-- The grades of the batch have other ids than those drawn. -/
def Undrawn (ns : Str) (b : Uuid) (db : Db) (draw : Nat → Uuid) : Prop :=
  ∀ j, ∀ row ∈ db.grades, row.inBatch ns b = true → row.id ≠ draw j

theorem undrawn_afterGrade (hu : Undrawn ns b db draw) {grade_id id : Uuid} {g : ParsedGrade}
    (hnew : (newGrade ctx grade_id id g).inBatch ns b = false) :
    Undrawn ns b (afterGrade db ctx grade_id id g) draw := by
  intro j row hrow hin
  rcases mem_append.mp hrow with hrow | hrow
  · rcases Table.mem_updateWhere.mp hrow with ⟨hmem, -⟩ | ⟨old, hmem, -, rfl⟩
    · exact hu j row hmem hin
    · exact hu j old hmem hin
  · rw [mem_singleton.mp hrow, hnew] at hin
    cases hin

/-- Whether a batch goes through does not depend on the batch that is undone. -/
theorem applyAll_undone_isOk (hk : Keyed db) (hk' : Keyed (undone ns b db)) (hu : Undrawn ns b db draw) :
    (∃ r, applyAll ctx draw i (undone ns b db) gs = .ok r) ↔ ∃ r, applyAll ctx draw i db gs = .ok r := by
  rw [applyAll_isOk_iff hk, applyAll_isOk_iff hk']
  refine and_congr ?_ (and_congr ?_ Iff.rfl)
  · exact forall₂_congr fun g _ => exists_isAt_iff candidates_undone
  · exact forall₃_congr fun j _ _ => fresh_undone (hu j)

/-- What a batch grades, of the candidates that another batch graded, that one graded alone,
and the batch grades once. -/
structure Spared (ns : Str) (b : Uuid) (db : Db) (ids : List Uuid) : Prop where
  alone : ∀ id ∈ ids, Alone ns b db id
  once : (ids.filter fun id => decide (id ∈ batchCandidates ns b db)).Nodup

theorem Spared.afterGrade {grade_id id : Uuid} {g : ParsedGrade} {ids : List Uuid}
    (hs : Spared ns b db (id :: ids)) (hnew : (newGrade ctx grade_id id g).inBatch ns b = false) :
    Spared ns b (afterGrade db ctx grade_id id g) ids := by
  have hbatch : batchCandidates ns b (CandidateReview.afterGrade db ctx grade_id id g) =
      batchCandidates ns b db := batchCandidates_other hnew
  refine ⟨?_, ?_⟩
  · intro other hother hb row hrow he
    rw [hbatch] at hb
    have hne : other ≠ id := by
      rintro rfl
      have honce := hs.once
      rw [filter_cons, if_pos (decide_eq_true hb), nodup_cons] at honce
      exact honce.1 (mem_filter.mpr ⟨hother, decide_eq_true hb⟩)
    rcases mem_append.mp hrow with hrow | hrow
    · rcases Table.mem_updateWhere.mp hrow with ⟨hmem, -⟩ | ⟨old, hmem, -, rfl⟩
      · exact hs.alone other (mem_cons_of_mem id hother) hb row hmem he
      · exact hs.alone other (mem_cons_of_mem id hother) hb old hmem he
    · rw [mem_singleton.mp hrow] at he
      exact (hne he.symm).elim
  · rw [hbatch]
    exact hs.once.sublist ((sublist_cons_self id ids).filter _)

/-- A later batch that spares the batch, and undoing the batch, in either order, by induction on
the grades of the later one. -/
theorem applyAll_undone (hk : Keyed db) (hk' : Keyed (undone ns b db)) (hb : ctx.batchId ≠ b)
    (hu : Undrawn ns b db draw) (hs : Spared ns b db (gs.map ParsedGrade.target))
    (h : applyAll ctx draw i db gs = .ok (db', results)) :
    (∃ results', applyAll ctx draw i (undone ns b db) gs = .ok (undone ns b db', results')) ∧
      batchCandidates ns b db' = batchCandidates ns b db := by
  induction gs generalizing i db results with
  | nil =>
    cases h
    exact ⟨⟨[], rfl⟩, rfl⟩
  | cons g gs ih =>
    obtain ⟨⟨db₁, result⟩, hg, h⟩ := bind_ok h
    obtain ⟨⟨db₂, rest⟩, hgs, h⟩ := bind_ok h
    cases h
    have hnew : (newGrade ctx (draw i) g.target g).inBatch ns b = false := newGrade_other hb
    have hk₁ := keyed_applyGrade hk hg
    obtain ⟨hthere, hfresh, rfl⟩ := (applyGrade_iff hk).mp ⟨_, hg⟩
    have hafter : undone ns b (afterGrade db ctx (draw i) g.target g) =
        afterGrade (undone ns b db) ctx (draw i) g.target g :=
      undone_afterGrade (hs.alone _ mem_cons_self) (hk.ns_of_isAt hthere) hnew
    obtain ⟨result', hg'⟩ := (applyGrade_iff hk').mpr
      ⟨(exists_isAt_iff candidates_undone).mpr hthere, (fresh_undone (hu i)).mpr hfresh, hafter⟩
    obtain ⟨⟨rest', hgs'⟩, hbatch⟩ := ih hk₁ (keyed_applyGrade hk' hg') (undrawn_afterGrade hu hnew)
      (hs.afterGrade hnew) hgs
    have hrun : applyAll ctx draw i (undone ns b db) (g :: gs) =
        .ok (undone ns b db', result' :: rest') := by
      show (applyGrade (undone ns b db) ctx (draw i) g).bind _ = _
      rw [hg']
      show (applyAll ctx draw (i + 1) _ gs).bind _ = _
      rw [hgs']
      rfl
    exact ⟨⟨_, hrun⟩, hbatch.trans (batchCandidates_other hnew)⟩

/-- Undoing a batch right after it was submitted gives the tables before it, by induction on its
grades. -/
theorem undone_submitted (hk : Keyed db) (hk' : Keyed (undone ns b db)) (hl : Lively (undone ns b db))
    (hh : Holds ns b db) (hns : ctx.ns = ns) (hb : ctx.batchId = b)
    (hs : ∀ g ∈ gs, Restorable ns (undone ns b db) g.target)
    (h : applyAll ctx draw i db gs = .ok (db', results)) :
    undone ns b db' = undone ns b db ∧
      ∀ id, id ∈ batchCandidates ns b db' ↔ id ∈ batchCandidates ns b db ∨
        id ∈ gs.map ParsedGrade.target := by
  induction gs generalizing i db results with
  | nil =>
    cases h
    exact ⟨rfl, fun id => (or_iff_left not_mem_nil).symm⟩
  | cons g gs ih =>
    obtain ⟨⟨db₁, result⟩, hg, h⟩ := bind_ok h
    obtain ⟨⟨db₂, rest⟩, hgs, h⟩ := bind_ok h
    cases h
    have hnew : (newGrade ctx (draw i) g.target g).inBatch ns b = true := newGrade_own hns hb
    have hk₁ := keyed_applyGrade hk hg
    obtain ⟨⟨c, hc, hat⟩, -, rfl⟩ := (applyGrade_iff hk).mp ⟨_, hg⟩
    have hsame : undone ns b (afterGrade db ctx (draw i) g.target g) = undone ns b db :=
      undone_ownGrade hk hk' hl hh hns hc (hns ▸ hat) (hs g mem_cons_self) hnew
    obtain ⟨hall, hbatch⟩ := ih hk₁ (hsame.symm ▸ hk') (hsame.symm ▸ hl) (holds_afterGrade hh hnew)
      (fun g' hg' => hsame.symm ▸ hs g' (mem_cons_of_mem g hg')) hgs
    refine ⟨hall.trans hsame, ?_⟩
    intro id
    rw [hbatch, batchCandidates_afterGrade, if_pos hnew, mem_append, mem_singleton,
      map_cons, mem_cons, or_assoc]

end Batches

/-! ## Every later call -/

section Calls
variable {lower : Str → Str} {ns : Str} {b : Uuid} {db db' : Db}

def targets (grades : JsonValue) : List Uuid :=
  match parseGradeBatch grades with
  | .ok parsed => parsed.map ParsedGrade.target
  | .error _ => []

/-- A later batch has ids of its own, and where it is accepted it spares the batch. -/
def SparedBy (lower : Str → Str) (ns : Str) (b : Uuid) (db : Db) (draws : Draws) (ns' gradedBy : Str)
    (grades : JsonValue) : Prop :=
  draws.batch_id ≠ b ∧ Undrawn ns b db draws.grade_id ∧
    ((submitGradeBatch lower db draws ns' gradedBy grades).2.isOk = true →
      Spared ns b db (targets grades))

/-- The call grades no candidate that the batch graded among others, or grades twice, and
ungrades none that the batch graded among others. -/
def Call.Spares (lower : Str → Str) (ns : Str) (b : Uuid) (db : Db) : Call → Prop
  | .submitGradeBatch draws ns' gradedBy grades => SparedBy lower ns b db draws ns' gradedBy grades
  | .gradeCandidate draws input =>
    SparedBy lower ns b db draws input.ns input.gradedBy input.batch
  | .ungradeCandidate ns' id => ns' = ns → Alone ns b db id
  | .undoBatch .. => False

theorem submit_eq {draws : Draws} {ns' gradedBy grader : Str} {grades : JsonValue}
    {parsed : List ParsedGrade} (hgrader : parseGradedBy lower gradedBy = .ok grader)
    (hparsed : parseGradeBatch grades = .ok parsed) :
    submitGradeBatch lower db draws ns' gradedBy grades =
      transaction db ((applyAll ⟨ns', grader, draws.batch_id, draws.now⟩ draws.grade_id 0 db
        parsed).bind fun r => .ok (r.1, ⟨draws.batch_id, grader, r.2⟩)) := by
  unfold submitGradeBatch
  rw [hgrader, hparsed]
  rfl

theorem submit_undone (hk : Keyed db) (hk' : Keyed (undone ns b db)) {draws : Draws}
    {ns' gradedBy : Str} {grades : JsonValue} (hs : SparedBy lower ns b db draws ns' gradedBy grades) :
    undone ns b (submitGradeBatch lower db draws ns' gradedBy grades).1 =
      (submitGradeBatch lower (undone ns b db) draws ns' gradedBy grades).1 ∧
    batchCandidates ns b (submitGradeBatch lower db draws ns' gradedBy grades).1 =
      batchCandidates ns b db := by
  obtain ⟨hb, hu, hspared⟩ := hs
  cases hgrader : parseGradedBy lower gradedBy with
  | error e =>
    unfold submitGradeBatch
    rw [hgrader]
    exact ⟨rfl, rfl⟩
  | ok grader =>
    cases hparsed : parseGradeBatch grades with
    | error e =>
      unfold submitGradeBatch
      rw [hgrader, hparsed]
      exact ⟨rfl, rfl⟩
    | ok parsed =>
      unfold targets at hspared
      rw [submit_eq hgrader hparsed, hparsed] at hspared
      rw [submit_eq hgrader hparsed, submit_eq hgrader hparsed]
      cases happly : applyAll ⟨ns', grader, draws.batch_id, draws.now⟩ draws.grade_id 0 db parsed with
      | ok r =>
        rw [happly] at hspared
        obtain ⟨⟨results, hundone⟩, hbatch⟩ := applyAll_undone hk hk' hb hu (hspared rfl) happly
        rw [hundone]
        exact ⟨rfl, hbatch⟩
      | error e =>
        -- what is refused with the batch there is refused without it
        cases hundone : applyAll ⟨ns', grader, draws.batch_id, draws.now⟩ draws.grade_id 0
            (undone ns b db) parsed with
        | ok r =>
          obtain ⟨r', hr'⟩ := (applyAll_undone_isOk hk hk' hu).mp ⟨r, hundone⟩
          rw [happly] at hr'
          cases hr'
        | error e' => exact ⟨rfl, rfl⟩

theorem gradeCandidate_fst {t : Db} {draws : Draws} {input : GradeInput} :
    (gradeCandidate lower t draws input).1 =
      (submitGradeBatch lower t draws input.ns input.gradedBy input.batch).1 := by
  unfold gradeCandidate
  split
  · rename_i heq
    rw [heq]
  · rename_i heq
    rw [heq]
  · rename_i heq
    rw [heq]

theorem liveReview_none {grades : List Grade} {id : Uuid} (hno : ∀ g ∈ grades, g.candidate_id ≠ id) :
    liveReview grades ns id = (none, none, none) := by
  have hfind : grades.find? (fun g => g.isFor ns id && g.live) = none := by
    rw [find?_eq_none]
    intro g hg hp
    rw [Bool.and_eq_true] at hp
    exact hno g hg (isFor_iff.mp hp.1).2
  unfold liveReview
  rw [hfind]

theorem ungrade_undone {ns' : Str} {id : Uuid} (hs : ns' = ns → Alone ns b db id) :
    undone ns b (ungradeCandidate db ns' id).1 = (ungradeCandidate (undone ns b db) ns' id).1 := by
  have hcandidates : undoneCandidates ns b (ungradeCandidate db ns' id).1 =
      Table.updateWhere (fun c => c.isAt ns' id && c.reviewed_at.isSome)
        (·.setReview (none, none, none)) (undoneCandidates ns b db) := by
    show Table.updateWhere _ _ (Table.updateWhere _ _ _) =
      Table.updateWhere _ _ (Table.updateWhere _ _ _)
    have hbatch : batchCandidates ns b (ungradeCandidate db ns' id).1 = batchCandidates ns b db := rfl
    have hgrades : undoneGrades ns b (ungradeCandidate db ns' id).1 = undoneGrades ns b db := rfl
    unfold Table.updateWhere
    rw [map_map, map_map, hbatch, hgrades]
    apply map_congr_left
    intro c _
    dsimp only [Function.comp]
    by_cases hat : c.isAt ns' id = true <;>
      by_cases hlisted : (c.ns == ns && decide (c.id ∈ batchCandidates ns b db)) = true
    · obtain ⟨hcns, rfl⟩ := isAt_iff.mp hat
      obtain ⟨hthis, hb⟩ := (Bool.and_eq_true _ _).mp hlisted
      have hb : c.id ∈ batchCandidates ns b db := of_decide_eq_true hb
      have hreview : liveReview (undoneGrades ns b db) ns c.id = (none, none, none) :=
        liveReview_none (gone_undoneGrades (hs (hcns.symm.trans (beq_iff_eq.mp hthis))) hb)
      have hcleared : (c.setReview (none, none, none)).reviewed_at.isSome = false := rfl
      by_cases hreviewed : c.reviewed_at.isSome = true
      · simp only [hat, hlisted, hreview, hreviewed, hcleared, isAt_setReview, setReview_setReview,
          setReview_id, setReview_ns, Bool.and_self, Bool.and_false, ↓reduceIte, Bool.false_eq_true]
      · simp only [hat, hlisted, hreview, hreviewed, hcleared, isAt_setReview, Bool.and_false,
          ↓reduceIte, Bool.false_eq_true]
    · by_cases hreviewed : c.reviewed_at.isSome = true
      · simp only [hat, hlisted, hreviewed, setReview_id, setReview_ns, Bool.and_self, ↓reduceIte,
          Bool.false_eq_true]
      · simp only [hat, hlisted, hreviewed, Bool.and_false, ↓reduceIte, Bool.false_eq_true]
    · simp only [hat, hlisted, isAt_setReview, Bool.false_and, ↓reduceIte, Bool.false_eq_true]
    · simp only [hat, hlisted, Bool.false_and, ↓reduceIte, Bool.false_eq_true]
  show Db.mk (undoneCandidates ns b (ungradeCandidate db ns' id).1) _ _ = Db.mk _ _ _
  rw [hcandidates]
  rfl

theorem undone_call {call : Call} (hk : Keyed db) (hk' : Keyed (undone ns b db))
    (hs : call.Spares lower ns b db) :
    undone ns b (call.run lower db) = call.run lower (undone ns b db) ∧
      batchCandidates ns b (call.run lower db) = batchCandidates ns b db := by
  cases call with
  | submitGradeBatch draws ns' gradedBy grades => exact submit_undone hk hk' hs
  | gradeCandidate draws input =>
    show undone ns b (gradeCandidate lower db draws input).1 =
        (gradeCandidate lower (undone ns b db) draws input).1 ∧
      batchCandidates ns b (gradeCandidate lower db draws input).1 = _
    rw [gradeCandidate_fst, gradeCandidate_fst]
    exact submit_undone hk hk' hs
  | ungradeCandidate ns' id => exact ⟨ungrade_undone hs, rfl⟩
  | undoBatch ns' batchId gradedBy => exact hs.elim

theorem undone_run {calls : List Call} (h : Keyed db ∧ Lively db)
    (h' : Keyed (undone ns b db) ∧ Lively (undone ns b db))
    (hrun : (history lower).RunOn (Call.Spares lower ns b) db calls db') :
    undone ns b db' = calls.foldl (Call.run lower) (undone ns b db) ∧
      batchCandidates ns b db' = batchCandidates ns b db ∧ Keyed db' ∧ Keyed (undone ns b db') := by
  induction hrun with
  | nil s => exact ⟨rfl, rfl, h.1, h'.1⟩
  | cons hs hst _ ih =>
    have he := Option.some.inj hst
    subst he
    obtain ⟨hundone, hbatch⟩ := undone_call h.1 h'.1 hs
    obtain ⟨hall, hsame, hkeyed⟩ := ih (sound_call _ h) (hundone ▸ sound_call _ h')
    refine ⟨?_, hsame.trans hbatch, hkeyed⟩
    rw [hall, hundone]
    rfl

theorem undone_of_none (hno : batchCandidates ns b db = []) : undone ns b db = db := by
  have hempty : db.grades.filter (·.inBatch ns b) = [] := map_eq_nil_iff.mp hno
  have hothers : otherGrades ns b db = db.grades := by
    apply filter_eq_self.mpr
    intro g hg
    rw [Bool.not_eq_true', Bool.eq_false_iff]
    exact filter_eq_nil_iff.mp hempty g hg
  have hgrades : undoneGrades ns b db = db.grades := by
    unfold undoneGrades
    rw [Table.updateWhere_of_none, hothers]
    intro g _
    unfold comesBack
    rw [hno]
    rfl
  have hcandidates : undoneCandidates ns b db = db.candidates := by
    apply Table.updateWhere_of_none
    intro c _
    rw [hno]
    exact Bool.and_false _
  show Db.mk (undoneCandidates ns b db) (undoneGrades ns b db) _ = _
  rw [hcandidates, hgrades]

theorem batchCandidates_undone : batchCandidates ns b (undone ns b db) = [] := by
  have hnone : (undone ns b db).grades.filter (·.inBatch ns b) = [] := by
    rw [filter_eq_nil_iff]
    intro g hg hin
    rcases Table.mem_updateWhere.mp hg with ⟨hmem, -⟩ | ⟨old, hmem, -, rfl⟩
    · rw [(mem_otherGrades.mp hmem).2] at hin
      cases hin
    · have hold : old.inBatch ns b = true := hin
      rw [(mem_otherGrades.mp hmem).2] at hold
      cases hold
  unfold batchCandidates
  rw [hnone]
  rfl

theorem currentUnique_of_keyed (hk : Keyed db) : currentUnique db.grades = true := by
  refine decide_eq_true (List.Nodup.map_on ?_ ((List.Nodup.of_map Grade.id hk.grade_ids).filter _))
  intro g hg g' hg' he
  obtain ⟨hg, hlive⟩ := mem_filter.mp hg
  obtain ⟨hg', hlive'⟩ := mem_filter.mp hg'
  exact hk.current g hg g' hg' hlive hlive' he

theorem targets_ne_nil {grades : JsonValue} {parsed : List ParsedGrade}
    (h : parseGradeBatch grades = .ok parsed) : parsed ≠ [] := by
  unfold parseGradeBatch at h
  split at h
  · rename_i values
    split at h
    · cases h
    rename_i hne
    split at h
    · cases h
    obtain ⟨all, hall, h⟩ := bind_ok h
    split at h
    · cases h
    cases h
    cases values with
    | nil => exact (hne rfl).elim
    | cons value values =>
      obtain ⟨g, -, hall⟩ := bind_ok hall
      obtain ⟨gs, -, hall⟩ := bind_ok hall
      cases hall
      exact cons_ne_nil g gs
  · cases h

/-- An accepted batch: what it was read as, and the run of its grades. -/
theorem submit_inv {draws : Draws} {gradedBy : Str} {grades : JsonValue}
    {submitted : BatchSubmitResult}
    (h : submitGradeBatch lower db draws ns gradedBy grades = (db', .ok submitted)) :
    ∃ grader parsed results, targets grades = parsed.map ParsedGrade.target ∧ parsed ≠ [] ∧
      applyAll ⟨ns, grader, draws.batch_id, draws.now⟩ draws.grade_id 0 db parsed =
        .ok (db', results) := by
  cases hgrader : parseGradedBy lower gradedBy with
  | error e =>
    unfold submitGradeBatch at h
    rw [hgrader] at h
    cases h
  | ok grader =>
    cases hparsed : parseGradeBatch grades with
    | error e =>
      unfold submitGradeBatch at h
      rw [hgrader, hparsed] at h
      cases h
    | ok parsed =>
      have htargets : targets grades = parsed.map ParsedGrade.target := by
        unfold targets
        rw [hparsed]
      rw [submit_eq hgrader hparsed] at h
      cases happly : applyAll ⟨ns, grader, draws.batch_id, draws.now⟩ draws.grade_id 0 db parsed with
      | error e =>
        rw [happly] at h
        cases h
      | ok r =>
        rw [happly] at h
        cases h
        exact ⟨grader, parsed, r.2, htargets, targets_ne_nil hparsed, happly⟩

theorem undoBatch_eq {batchId : Str} {undoneBy : Option Str} (hid : parseBatchId batchId = .ok b)
    (hgrader : checkGrader lower undoneBy = .ok ()) :
    undoBatch lower db ns batchId undoneBy = transaction db (undoRows db ns b) := by
  unfold undoBatch
  rw [hid, hgrader]
  rfl

/-- Undoing a batch, after any calls that spare it, gives the tables that the calls would have
made had the batch never been submitted; undoing it again changes nothing. -/
theorem undo_inverse (lower : Str → Str) {db₀ db₁ db₂ : Db} {draws : Draws} {ns gradedBy : Str}
    {grades : JsonValue} {submitted : BatchSubmitResult} {calls : List Call} {batchId : Str}
    {undoneBy : Option Str} (hreach : (history lower).Reachable db₀)
    (hsubmit : submitGradeBatch lower db₀ draws ns gradedBy grades = (db₁, .ok submitted))
    (hfresh : ∀ g ∈ db₀.grades, g.inBatch ns draws.batch_id = false)
    (hrestorable : ∀ id ∈ targets grades, Restorable ns db₀ id)
    (hrun : (history lower).RunOn (Call.Spares lower ns draws.batch_id) db₁ calls db₂)
    (hid : parseBatchId batchId = .ok draws.batch_id)
    (hgrader : checkGrader lower undoneBy = .ok ()) :
    (∃ result, undoBatch lower db₂ ns batchId undoneBy =
      (calls.foldl (Call.run lower) db₀, .ok (some result))) ∧
    undoBatch lower (calls.foldl (Call.run lower) db₀) ns batchId undoneBy =
      (calls.foldl (Call.run lower) db₀, .ok none) := by
  have hsound := sound_reachable hreach
  have hno : batchCandidates ns draws.batch_id db₀ = [] := by
    rw [eq_nil_iff_forall_not_mem]
    intro id hb
    obtain ⟨g, hg, hin, -⟩ := mem_batchCandidates.mp hb
    rw [hfresh g hg] at hin
    cases hin
  have hbefore : undone ns draws.batch_id db₀ = db₀ := undone_of_none hno
  obtain ⟨grader, parsed, results, htargets, hne, happly⟩ := submit_inv hsubmit
  have hsubmitted := undone_submitted hsound.1 (hbefore.symm ▸ hsound.1) (hbefore.symm ▸ hsound.2)
    (fun id hb => (not_mem_nil (hno ▸ hb)).elim) rfl rfl
    (fun g hg => hbefore.symm ▸ hrestorable _ (htargets ▸ mem_map_of_mem hg)) happly
  have hundone₁ : undone ns draws.batch_id db₁ = db₀ := hsubmitted.1.trans hbefore
  have hsound₁ : Keyed db₁ ∧ Lively db₁ := by
    have hrun₁ : (Call.submitGradeBatch draws ns gradedBy grades).run lower db₀ = db₁ :=
      congrArg Prod.fst hsubmit
    rw [← hrun₁]
    exact sound_call _ hsound
  obtain ⟨hall, hbatch, hk₂, hk⟩ := undone_run hsound₁ (hundone₁.symm ▸ hsound) hrun
  rw [hundone₁] at hall
  rw [undoBatch_eq hid hgrader, undoBatch_eq hid hgrader, ← hall]
  refine ⟨?_, ?_⟩
  · have hthere : batchCandidates ns draws.batch_id db₂ ≠ [] := by
      obtain ⟨g, hg⟩ := exists_mem_of_ne_nil parsed hne
      rw [hbatch]
      exact ne_nil_of_mem ((hsubmitted.2 _).mpr (.inr (mem_map_of_mem hg)))
    obtain ⟨result, hrows⟩ := undoRows_eq hk₂ hthere
    have hunique : currentUnique (undoneGrades ns draws.batch_id db₂) = true :=
      currentUnique_of_keyed hk
    refine ⟨result, ?_⟩
    rw [hrows, if_pos hunique]
    rfl
  · rw [undoRows_none batchCandidates_undone]
    rfl

end Calls

section Example

def reviewQueue : Db where
  candidates := [7, 8].map fun id =>
    ⟨id, units "dana", [], [1], none, none, none, none, none, none, none, none, none, 0⟩
  grades := []
  reinforcements := []

def gradeSeven : JsonValue :=
  .arr [.obj [(units "candidateId", .str (units "00000000-0000-0000-0000-000000000007")),
    (units "action", .str (units "promoted"))]]

def batchEleven : Str := units "00000000-0000-0000-0000-00000000000b"

def firstBatch : Draws := ⟨6, 11, fun _ => 21⟩

def afterFirst : Db :=
  (submitGradeBatch id reviewQueue firstBatch (units "dana") (units "dana") gradeSeven).1

def gradeEight : Call := .gradeCandidate ⟨7, 12, fun _ => 31⟩
  ⟨units "dana", units "00000000-0000-0000-0000-000000000008", .promoted, units "dana", none, none,
    none⟩

def ungradeEight : Call := .ungradeCandidate (units "dana") 8

theorem ungraded_reviewQueue : Ungraded reviewQueue :=
  ⟨by decide, rfl, by decide⟩

theorem exists_of_isOk {α : Type} {x : Db × Except Failure α} (h : x.2.isOk = true) :
    ∃ a, x = (x.1, .ok a) := by
  obtain ⟨db, result⟩ := x
  cases result with
  | error e => cases h
  | ok a => exact ⟨a, rfl⟩

instance (ns : Str) (b : Uuid) (db : Db) (id : Uuid) : Decidable (Alone ns b db id) := by
  unfold Alone
  infer_instance

theorem spares_gradeEight : gradeEight.Spares id (units "dana") 11 afterFirst := by
  have hid : ∀ row ∈ afterFirst.grades, row.id = 21 := by decide +kernel
  refine ⟨by decide, ?_, fun _ => ⟨by decide +kernel, by decide +kernel⟩⟩
  intro j row hrow _
  rw [hid row hrow]
  exact Nat.ne_of_beq_eq_false rfl

theorem spares_ungradeEight :
    ungradeEight.Spares id (units "dana") 11 (gradeEight.run id afterFirst) := by
  intro _
  decide +kernel

theorem restorable_reviewQueue : ∀ id ∈ targets gradeSeven, Restorable (units "dana") reviewQueue id := by
  intro id _
  refine ⟨fun g hg => (not_mem_nil hg).elim, ?_⟩
  intro c hc _
  exact ⟨fun g hg => (not_mem_nil hg).elim, fun _ => ungraded_reviewQueue.review c hc⟩

theorem undo_inverse_reviewQueue : ∃ result,
    undoBatch id (ungradeEight.run id (gradeEight.run id afterFirst)) (units "dana") batchEleven none =
      (ungradeEight.run id (gradeEight.run id reviewQueue), .ok (some result)) := by
  have hok : (submitGradeBatch id reviewQueue firstBatch (units "dana") (units "dana")
    gradeSeven).2.isOk = true := by decide +kernel
  obtain ⟨submitted, hsubmitted⟩ := exists_of_isOk hok
  exact (undo_inverse id ⟨reviewQueue, [], ungraded_reviewQueue, .nil _⟩ hsubmitted
    (fun g hg => (not_mem_nil hg).elim) restorable_reviewQueue
    (.cons spares_gradeEight rfl (.cons spares_ungradeEight rfl (.nil _)))
    (by decide +kernel) rfl).1

/-- Batches of one candidate, in the order of their ids. -/
def gradeAgain (batch_id : Uuid) : Call :=
  .submitGradeBatch ⟨batch_id, batch_id, fun _ => batch_id⟩ (units "dana") (units "dana") gradeSeven

/-- A candidate is graded three times, and the second batch cannot be undone. -/
theorem middle_batch_stays : ¬ ∀ (lower : Str → Str) (db₀ db₁ db₂ : Db) (draws : Draws)
    (ns gradedBy : Str) (grades : JsonValue) (submitted : BatchSubmitResult) (calls : List Call)
    (batchId : Str), (history lower).Reachable db₀ →
    submitGradeBatch lower db₀ draws ns gradedBy grades = (db₁, .ok submitted) →
    (∀ g ∈ db₀.grades, g.inBatch ns draws.batch_id = false) →
    (history lower).RunOn (fun _ call => ∀ ns batchId gradedBy, call ≠ .undoBatch ns batchId gradedBy)
      db₁ calls db₂ →
    parseBatchId batchId = .ok draws.batch_id →
    ∃ result, undoBatch lower db₂ ns batchId none =
      (calls.foldl (Call.run lower) db₀, .ok (some result)) := by
  intro hclaim
  have hok : (submitGradeBatch id ((gradeAgain 10).run id reviewQueue) ⟨11, 11, fun _ => 11⟩
    (units "dana") (units "dana") gradeSeven).2.isOk = true := by decide +kernel
  obtain ⟨submitted, hsubmitted⟩ := exists_of_isOk hok
  obtain ⟨result, hundo⟩ := hclaim id ((gradeAgain 10).run id reviewQueue) _
    ((gradeAgain 12).run id ((gradeAgain 11).run id ((gradeAgain 10).run id reviewQueue)))
    ⟨11, 11, fun _ => 11⟩ (units "dana") (units "dana") gradeSeven submitted [gradeAgain 12]
    batchEleven ⟨reviewQueue, [gradeAgain 10], ungraded_reviewQueue, .cons trivial rfl (.nil _)⟩
    hsubmitted (by decide +kernel)
    (.cons (fun _ _ _ h => nomatch h) rfl (.nil _)) (by decide +kernel)
  have hfails : (undoBatch id ((gradeAgain 12).run id ((gradeAgain 11).run id
    ((gradeAgain 10).run id reviewQueue))) (units "dana") batchEleven none).2.isOk = false := by
    decide +kernel
  rw [hundo] at hfails
  cases hfails

end Example

end OpenBrain.Server.CandidateReview
