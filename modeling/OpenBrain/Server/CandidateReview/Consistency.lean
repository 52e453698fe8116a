import OpenBrain.Core.LTS
import OpenBrain.Core.Result
import OpenBrain.Server.CandidateReview.BatchGrade
import Mathlib.Data.List.Dedup

/-!
# Grades and review columns agree

`Consistent` is what the four writers are to keep: a candidate has at most one live grade, and
its review columns are those of that grade, or null when there is none. A submitted batch keeps
it item by item (`consistent_applyGrade`), and so does undoing a batch (`consistent_undoRows`).
Ungrading a candidate that has been graded does not: its live grade stays
(`consistent_ungrade_iff`).
-/
namespace OpenBrain.Server.CandidateReview
open OpenBrain.Core OpenBrain.Core.Ecma List

/-- The review columns of a candidate are those of its live grade, or null without one. -/
def Agrees (grades : List Grade) (c : Candidate) : Prop :=
  (∀ g ∈ grades, g.live = true → g.candidate_id = c.id → c.review = g.review) ∧
    ((∀ g ∈ grades, g.live = true → g.candidate_id ≠ c.id) → c.review = (none, none, none))

/-- The keys of the two tables, one live grade for a candidate, and the review columns. -/
structure Consistent (db : Db) : Prop where
  candidate_ids : (db.candidates.map Candidate.id).Nodup
  grade_ids : (db.grades.map Grade.id).Nodup
  owner : ∀ g ∈ db.grades, ∃ c ∈ db.candidates, c.id = g.candidate_id ∧ c.ns = g.ns
  current : ∀ g ∈ db.grades, ∀ h ∈ db.grades, g.live = true → h.live = true →
    g.candidate_id = h.candidate_id → g = h
  agrees : ∀ c ∈ db.candidates, Agrees db.grades c

/-- The keys of the two tables and one live grade for a candidate. -/
structure Keyed (db : Db) : Prop where
  candidate_ids : (db.candidates.map Candidate.id).Nodup
  grade_ids : (db.grades.map Grade.id).Nodup
  owner : ∀ g ∈ db.grades, ∃ c ∈ db.candidates, c.id = g.candidate_id ∧ c.ns = g.ns
  current : ∀ g ∈ db.grades, ∀ h ∈ db.grades, g.live = true → h.live = true →
    g.candidate_id = h.candidate_id → g = h

theorem Consistent.keyed {db : Db} (h : Consistent db) : Keyed db :=
  ⟨h.candidate_ids, h.grade_ids, h.owner, h.current⟩

/-! ## The calls -/

inductive Call where
  | submitGradeBatch (draws : Draws) (ns gradedBy : Str) (grades : JsonValue)
  | gradeCandidate (draws : Draws) (input : GradeInput)
  | ungradeCandidate (ns : Str) (id : Uuid)
  | undoBatch (ns batchId : Str) (gradedBy : Option Str)

def Call.run (lower : Str → Str) (db : Db) : Call → Db
  | .submitGradeBatch draws ns gradedBy grades =>
    (CandidateReview.submitGradeBatch lower db draws ns gradedBy grades).1
  | .gradeCandidate draws input => (CandidateReview.gradeCandidate lower db draws input).1
  | .ungradeCandidate ns id => (CandidateReview.ungradeCandidate db ns id).1
  | .undoBatch ns batchId gradedBy => (CandidateReview.undoBatch lower db ns batchId gradedBy).1

def system (lower : Str → Str) : LTS Db Call :=
  LTS.ofFn Consistent fun db call => some (call.run lower db)

def Graded (db : Db) (ns : Str) (id : Uuid) : Prop :=
  ∃ c ∈ db.candidates, c.ns = ns ∧ c.id = id ∧ c.reviewed_at ≠ none

def Call.Keeps (db : Db) : Call → Prop
  | .ungradeCandidate ns id => ¬ Graded db ns id
  | _ => True

/-! ## Rows -/

section Rows
variable {db : Db} {ns : Str} {id : Uuid} {c : Candidate} {g : Grade}

theorem isAt_iff : c.isAt ns id = true ↔ c.ns = ns ∧ c.id = id := by
  simp [Candidate.isAt]

theorem isFor_iff : g.isFor ns id = true ↔ g.ns = ns ∧ g.candidate_id = id := by
  simp [Grade.isFor]

/-- A grade lies in the namespace of its candidate. -/
theorem Keyed.owned (h : Keyed db) (hg : g ∈ db.grades) (hc : c ∈ db.candidates)
    (he : g.candidate_id = c.id) : g.ns = c.ns := by
  obtain ⟨q, hq, hid, hns⟩ := h.owner g hg
  have hqc : q = c := Table.eq_of_key h.candidate_ids hq hc (hid.trans he)
  rw [← hqc, hns]

theorem insertGrade_ok {db' : Db} {row : Grade} (h : insertGrade db row = .ok db') :
    db' = { db with grades := db.grades ++ [row] } ∧ ∀ g ∈ db.grades, g.id ≠ row.id := by
  unfold insertGrade at h
  split at h
  · cases h
  rename_i hkey
  split at h
  · cases h
  split at h
  · cases h
  cases h
  refine ⟨rfl, ?_⟩
  intro g hg he
  exact hkey (any_eq_true.mpr ⟨g, hg, beq_iff_eq.mpr he⟩)

/-- A transaction that fails leaves the tables. -/
theorem transaction_keeps {α : Type} {run : Except Failure (Db × α)} (P : Db → Prop) (hp : P db)
    (h : ∀ db' result, run = .ok (db', result) → P db') : P (transaction db run).1 := by
  cases run with
  | error e => exact hp
  | ok r => exact h r.1 r.2 rfl

end Rows

/-! ## One grade of a batch -/

section Apply
variable {db db' : Db} {ctx : GradeCtx} {grade_id : Uuid} {g : ParsedGrade}
  {result : BatchGradeResult}

/-- The candidates after a grade for `id`. -/
def gradedCandidates (db : Db) (ctx : GradeCtx) (id : Uuid) (g : ParsedGrade) : List Candidate :=
  Table.updateWhere (·.isAt ctx.ns id)
    (·.setReview (some g.action, some ctx.now, some ctx.grader)) db.candidates

/-- The grades after the live one of `id` is superseded. -/
def supersededGrades (db : Db) (ctx : GradeCtx) (id : Uuid) : List Grade :=
  Table.updateWhere (fun row => row.isFor ctx.ns id && row.live)
    (fun row => { row with superseded_at := some ctx.now }) db.grades

def newGrade (ctx : GradeCtx) (grade_id id : Uuid) (g : ParsedGrade) : Grade :=
  ⟨grade_id, ctx.ns, id, g.action, g.note, ctx.grader, some ctx.batchId, none, ctx.now,
    g.reasonCode, g.agentBehavior⟩

theorem applyGrade_ok (h : applyGrade db ctx grade_id g = .ok (db', result)) :
    ∃ id, (∃ c ∈ db.candidates, c.ns = ctx.ns ∧ c.id = id) ∧
      db' = { db with
        candidates := gradedCandidates db ctx id g
        grades := supersededGrades db ctx id ++ [newGrade ctx grade_id id g] } ∧
      (∀ row ∈ supersededGrades db ctx id, row.id ≠ grade_id) ∧
      id = (uuidOf g.candidateId).getD 0 := by
  unfold applyGrade at h
  dsimp only at h
  split at h
  · cases h
  · rename_i candidate hfind
    cases hins : insertGrade _ _ with
    | error e =>
      rw [hins] at h
      cases h
    | ok inserted =>
      rw [hins] at h
      cases h
      obtain ⟨rfl, hkey⟩ := insertGrade_ok hins
      refine ⟨_, ⟨candidate, mem_of_find?_eq_some hfind, ?_⟩, rfl, hkey, rfl⟩
      exact isAt_iff.mp (find?_some hfind)

theorem mem_supersededGrades {id : Uuid} {row : Grade} (h : row ∈ supersededGrades db ctx id) :
    ∃ old ∈ db.grades, row.id = old.id ∧ row.candidate_id = old.candidate_id ∧
      row.ns = old.ns ∧ (row.live = true → row = old ∧ ¬ (old.ns = ctx.ns ∧ old.candidate_id = id)) := by
  rcases Table.mem_updateWhere.mp h with ⟨hmem, hp⟩ | ⟨old, hmem, hp, rfl⟩
  · refine ⟨row, hmem, rfl, rfl, rfl, ?_⟩
    intro hlive
    refine ⟨rfl, ?_⟩
    intro hfor
    rw [isFor_iff.mpr hfor, hlive] at hp
    cases hp
  · refine ⟨old, hmem, rfl, rfl, rfl, ?_⟩
    intro hlive
    cases hlive

theorem keep_live {id : Uuid} {row : Grade} (hmem : row ∈ db.grades)
    (hother : ¬ (row.ns = ctx.ns ∧ row.candidate_id = id)) : row ∈ supersededGrades db ctx id := by
  refine Table.mem_updateWhere.mpr (.inl ⟨hmem, ?_⟩)
  have hfor : row.isFor ctx.ns id = false := by
    rw [Bool.eq_false_iff]
    exact fun hfor => hother (isFor_iff.mp hfor)
  rw [hfor]
  rfl

theorem gone_supersededGrades (hk : Keyed db) {c : Candidate} (hc : c ∈ db.candidates)
    (hns : c.ns = ctx.ns) : ∀ row ∈ supersededGrades db ctx c.id, row.live = true →
      row.candidate_id ≠ c.id := by
  intro row hrow hlive he
  obtain ⟨old, hold, -, -, -, hkept⟩ := mem_supersededGrades hrow
  obtain ⟨rfl, hother⟩ := hkept hlive
  exact hother ⟨(hk.owned hold hc he).trans hns, he⟩

theorem keyed_applyGrade (hk : Keyed db)
    (h : applyGrade db ctx grade_id g = .ok (db', result)) : Keyed db' := by
  obtain ⟨id, ⟨c₀, hc₀, hns, rfl⟩, rfl, hkey, -⟩ := applyGrade_ok h
  have hids : (gradedCandidates db ctx c₀.id g).map Candidate.id = db.candidates.map Candidate.id :=
    Table.column_updateWhere fun _ => rfl
  have hgone := gone_supersededGrades hk hc₀ hns
  refine ⟨?_, ?_, ?_, ?_⟩
  · show ((gradedCandidates db ctx c₀.id g).map Candidate.id).Nodup
    rw [hids]
    exact hk.candidate_ids
  · show ((supersededGrades db ctx c₀.id ++ [newGrade ctx grade_id c₀.id g]).map Grade.id).Nodup
    have hsame : (supersededGrades db ctx c₀.id).map Grade.id = db.grades.map Grade.id :=
      Table.column_updateWhere fun _ => rfl
    rw [map_append, nodup_append]
    refine ⟨by rw [hsame]; exact hk.grade_ids, nodup_singleton _, ?_⟩
    intro a ha b hb
    obtain ⟨row, hrow, rfl⟩ := mem_map.mp ha
    rw [map_singleton, mem_singleton] at hb
    rw [hb]
    exact hkey row hrow
  · intro row hrow
    -- a candidate keeps its id and namespace
    have hthere : ∀ c ∈ db.candidates, ∃ c' ∈ gradedCandidates db ctx c₀.id g,
        c'.id = c.id ∧ c'.ns = c.ns := by
      intro c hmem
      by_cases hat : c.isAt ctx.ns c₀.id = true
      · exact ⟨_, Table.mem_updateWhere.mpr (.inr ⟨c, hmem, hat, rfl⟩), rfl, rfl⟩
      · exact ⟨c, Table.mem_updateWhere.mpr (.inl ⟨hmem, Bool.eq_false_iff.mpr hat⟩), rfl, rfl⟩
    rcases mem_append.mp hrow with hrow | hrow
    · obtain ⟨old, hold, -, hcand, hrns, -⟩ := mem_supersededGrades hrow
      obtain ⟨c, hmem, hcid, hcns⟩ := hk.owner old hold
      obtain ⟨c', hc', hid', hns'⟩ := hthere c hmem
      exact ⟨c', hc', by rw [hid', hcid, hcand], by rw [hns', hcns, hrns]⟩
    · rw [mem_singleton] at hrow
      obtain ⟨c', hc', hid', hns'⟩ := hthere c₀ hc₀
      rw [hrow]
      exact ⟨c', hc', hid', hns'.trans hns⟩
  · intro a ha b hb hla hlb he
    rcases mem_append.mp ha with ha | ha <;> rcases mem_append.mp hb with hb | hb
    · obtain ⟨old, hold, -, -, -, hkept⟩ := mem_supersededGrades ha
      obtain ⟨old', hold', -, -, -, hkept'⟩ := mem_supersededGrades hb
      obtain ⟨rfl, -⟩ := hkept hla
      obtain ⟨rfl, -⟩ := hkept' hlb
      exact hk.current _ hold _ hold' hla hlb he
    · rw [mem_singleton] at hb
      rw [hb] at he
      exact (hgone a ha hla he).elim
    · rw [mem_singleton] at ha
      rw [ha] at he
      exact (hgone b hb hlb he.symm).elim
    · rw [mem_singleton] at ha hb
      rw [ha, hb]

theorem consistent_applyGrade (hc : Consistent db)
    (h : applyGrade db ctx grade_id g = .ok (db', result)) : Consistent db' := by
  obtain ⟨hcids, hgids, howner, hcurrent⟩ := keyed_applyGrade hc.keyed h
  refine ⟨hcids, hgids, howner, hcurrent, ?_⟩
  obtain ⟨id, ⟨c₀, hc₀, hns, rfl⟩, rfl, -⟩ := applyGrade_ok h
  have hgone := gone_supersededGrades hc.keyed hc₀ hns
  intro c hmem
  have hnew : newGrade ctx grade_id c₀.id g ∈
      supersededGrades db ctx c₀.id ++ [newGrade ctx grade_id c₀.id g] :=
    mem_append_right _ mem_cons_self
  rcases Table.mem_updateWhere.mp hmem with ⟨hmem, hat⟩ | ⟨old, hmem, hat, rfl⟩
  · have hne : c.id ≠ c₀.id := by
      intro he
      have : c = c₀ := Table.eq_of_key hc.candidate_ids hmem hc₀ he
      rw [this, isAt_iff.mpr ⟨hns, rfl⟩] at hat
      cases hat
    obtain ⟨hlive, hnone⟩ := hc.agrees c hmem
    refine ⟨?_, ?_⟩
    · intro row hrow hrl he
      rcases mem_append.mp hrow with hrow | hrow
      · obtain ⟨old, hold, -, -, -, hkept⟩ := mem_supersededGrades hrow
        obtain ⟨rfl, -⟩ := hkept hrl
        exact hlive _ hold hrl he
      · rw [mem_singleton] at hrow
        rw [hrow] at he
        exact (hne he.symm).elim
    · intro hall
      apply hnone
      intro row hrow hrl he
      refine hall row (mem_append_left _ (keep_live hrow ?_)) hrl he
      exact fun hfor => hne (he.symm.trans hfor.2)
  · obtain ⟨-, hoid⟩ := isAt_iff.mp hat
    refine ⟨?_, ?_⟩
    · intro row hrow hrl he
      rcases mem_append.mp hrow with hrow | hrow
      · exact (hgone row hrow hrl (he.trans hoid)).elim
      · rw [mem_singleton] at hrow
        rw [hrow]
        rfl
    · intro hall
      exact (hall _ hnew rfl hoid.symm).elim

/-! ## A batch of grades -/

section Batch
variable (P : Db → Prop)
  (hgrade : ∀ {db db' : Db} {ctx : GradeCtx} {grade_id : Uuid} {g : ParsedGrade}
    {result : BatchGradeResult}, P db → applyGrade db ctx grade_id g = .ok (db', result) → P db')
include hgrade

/-- What one grade keeps the loop of a batch keeps, by induction on its items. -/
theorem applyAll_keeps {draw : Nat → Uuid} {gs : List ParsedGrade} {i : Nat}
    {results : List BatchGradeResult} (hp : P db)
    (h : applyAll ctx draw i db gs = .ok (db', results)) : P db' := by
  induction gs generalizing i db results with
  | nil =>
    cases h
    exact hp
  | cons g gs ih =>
    obtain ⟨⟨db₁, result⟩, hg, h⟩ := bind_ok h
    obtain ⟨⟨db₂, rest⟩, hgs, h⟩ := bind_ok h
    cases h
    exact ih (hgrade hp hg) hgs

theorem submit_keeps (lower : Str → Str) (draws : Draws) (ns gradedBy : Str) (grades : JsonValue)
    (hp : P db) : P (submitGradeBatch lower db draws ns gradedBy grades).1 := by
  apply transaction_keeps P hp
  intro db' result h
  obtain ⟨grader, -, h⟩ := bind_ok h
  obtain ⟨parsed, -, h⟩ := bind_ok h
  obtain ⟨⟨db₁, results⟩, ha, h⟩ := bind_ok h
  cases h
  exact applyAll_keeps P hgrade hp ha

theorem gradeCandidate_keeps (lower : Str → Str) (draws : Draws) (input : GradeInput)
    (hp : P db) : P (gradeCandidate lower db draws input).1 := by
  have hsubmit := submit_keeps P hgrade lower draws input.ns input.gradedBy input.batch hp
  unfold gradeCandidate
  split
  · rename_i db' submitted heq
    rw [heq] at hsubmit
    exact hsubmit
  · rename_i db' e heq
    rw [heq] at hsubmit
    exact hsubmit
  · rename_i db' e _ heq
    rw [heq] at hsubmit
    exact hsubmit

end Batch

end Apply

/-! ## Undoing a batch -/

section Undo
variable {db : Db} {ns : Str} {ids : List Uuid}

theorem mem_of_latest {gs : List Grade} {g : Grade} (h : latest gs = some g) : g ∈ gs := by
  induction gs generalizing g with
  | nil => cases h
  | cons x gs ih =>
    unfold latest at h
    split at h
    · rename_i y hy
      split at h
      · cases h
        exact mem_cons_of_mem x (ih hy)
      · cases h
        exact mem_cons_self
    · cases h
      exact mem_cons_self

theorem restored_for {grade_id : Uuid}
    (h : grade_id ∈ (ids.filterMap (restoredFor db ns)).map Grade.id) :
    ∃ g ∈ db.grades, g.id = grade_id ∧ g.candidate_id ∈ ids := by
  obtain ⟨g, hg, rfl⟩ := mem_map.mp h
  obtain ⟨candidate_id, hids, hg⟩ := mem_filterMap.mp hg
  obtain ⟨hmem, hfor⟩ := mem_filter.mp (mem_of_latest hg)
  rw [Bool.and_eq_true] at hfor
  refine ⟨g, hmem, rfl, ?_⟩
  rw [(isFor_iff.mp hfor.1).2]
  exact hids

theorem current_of_unique {grades : List Grade} (h : currentUnique grades = true) :
    ∀ g ∈ grades, ∀ g' ∈ grades, g.live = true → g'.live = true →
      g.candidate_id = g'.candidate_id → g = g' := by
  intro g hg g' hg' hl hl' he
  exact Table.eq_of_key (of_decide_eq_true h) (mem_filter.mpr ⟨hg, hl⟩)
    (mem_filter.mpr ⟨hg', hl'⟩) he

/-- The review columns that `reconcileCandidates` gives a candidate agree with the grades. -/
theorem agrees_liveReview {grades : List Grade} {c : Candidate}
    (howned : ∀ g ∈ grades, g.candidate_id = c.id → g.ns = ns)
    (hcurrent : ∀ g ∈ grades, ∀ g' ∈ grades, g.live = true → g'.live = true →
      g.candidate_id = g'.candidate_id → g = g') :
    Agrees grades (c.setReview (liveReview grades ns c.id)) := by
  unfold liveReview
  cases hfind : grades.find? fun g => g.isFor ns c.id && g.live with
  | none =>
    refine ⟨?_, fun _ => rfl⟩
    intro g hg hl he
    have hno := find?_eq_none.mp hfind g hg
    have hfor : g.isFor ns c.id = true := isFor_iff.mpr ⟨howned g hg he, he⟩
    rw [hfor, hl] at hno
    exact (hno rfl).elim
  | some found =>
    have hmem := mem_of_find?_eq_some hfind
    have hp := find?_some hfind
    rw [Bool.and_eq_true] at hp
    have hfor := (isFor_iff.mp hp.1).2
    refine ⟨?_, ?_⟩
    · intro g hg hl he
      rw [hcurrent g hg found hmem hl hp.2 (he.trans hfor.symm)]
      rfl
    · intro hall
      exact (hall found hmem hp.2 hfor).elim

/-- The tables after a batch is undone: `ids` are the candidates whose grades went, and the
grades that came back are among theirs. -/
structure Undone (db db' : Db) (ns : Str) (ids : List Uuid) : Prop where
  candidates : db'.candidates = Table.updateWhere (fun c => c.ns == ns && decide (c.id ∈ ids))
    (fun c => c.setReview (liveReview db'.grades ns c.id)) db.candidates
  gone : ∀ id ∈ ids, ∃ g ∈ db.grades, g.ns = ns ∧ g.candidate_id = id
  grade_ids : (db'.grades.map Grade.id).Nodup
  old : ∀ g' ∈ db'.grades, ∃ g ∈ db.grades, g'.candidate_id = g.candidate_id ∧ g'.ns = g.ns ∧
    (g.candidate_id ∉ ids → g' = g)
  kept : ∀ g ∈ db.grades, g.candidate_id ∉ ids → g ∈ db'.grades
  current : currentUnique db'.grades = true

theorem undone_of_undoRows {db' : Db} {batch_id : Uuid} {result : UndoBatchResult}
    (hk : Keyed db) (h : undoRows db ns batch_id = .ok (db', some result)) :
    ∃ ids, Undone db db' ns ids := by
  unfold undoRows at h
  dsimp only at h
  split at h
  · cases h
  obtain ⟨⟨db₁, restored⟩, hrestore, h⟩ := bind_ok h
  cases h
  unfold restoreSuperseded at hrestore
  dsimp only at hrestore
  split at hrestore
  · rename_i hunique
    cases hrestore
    have hids : ∀ id, id ∈ ((db.grades.filter fun g =>
        g.ns == ns && g.batch_id == some batch_id).map Grade.candidate_id).dedup ↔
        ∃ g ∈ db.grades, (g.ns == ns && g.batch_id == some batch_id) = true ∧
          g.candidate_id = id := by
      intro id
      rw [mem_dedup, mem_map]
      constructor
      · intro ⟨g, hg, he⟩
        obtain ⟨hg, hin⟩ := mem_filter.mp hg
        exact ⟨g, hg, hin, he⟩
      · intro ⟨g, hg, hin, he⟩
        exact ⟨g, mem_filter.mpr ⟨hg, hin⟩, he⟩
    refine ⟨_, rfl, ?_, ?_, ?_, ?_, hunique⟩
    · intro id hid
      obtain ⟨g, hg, hin, he⟩ := (hids id).mp hid
      rw [Bool.and_eq_true, beq_iff_eq] at hin
      exact ⟨g, hg, hin.1, he⟩
    · have hsub : (db.grades.filter fun g => !(g.ns == ns && g.batch_id == some batch_id)).map
          Grade.id |>.Nodup := (filter_sublist.map Grade.id).nodup hk.grade_ids
      rw [← Table.column_updateWhere (f := fun g : Grade => { g with superseded_at := none })
        fun _ => rfl] at hsub
      exact hsub
    · intro g' hg'
      rcases Table.mem_updateWhere.mp hg' with ⟨hmem, -⟩ | ⟨g, hmem, hback, rfl⟩
      · exact ⟨g', mem_of_mem_filter hmem, rfl, rfl, fun _ => rfl⟩
      · have hg := mem_of_mem_filter hmem
        refine ⟨g, hg, rfl, rfl, ?_⟩
        intro hother
        obtain ⟨r, hr, hid, hcand⟩ := restored_for (of_decide_eq_true hback)
        have : r = g := Table.eq_of_key hk.grade_ids (mem_of_mem_filter hr) hg hid
        rw [this] at hcand
        exact (hother hcand).elim
    · intro g hg hother
      have hstays : g ∈ db.grades.filter fun g => !(g.ns == ns && g.batch_id == some batch_id) := by
        refine mem_filter.mpr ⟨hg, ?_⟩
        rw [Bool.not_eq_true', Bool.eq_false_iff]
        intro hin
        exact hother ((hids _).mpr ⟨g, hg, hin, rfl⟩)
      refine Table.mem_updateWhere.mpr (.inl ⟨hstays, ?_⟩)
      rw [decide_eq_false_iff_not]
      intro hback
      obtain ⟨r, hr, hid, hcand⟩ := restored_for hback
      have : r = g := Table.eq_of_key hk.grade_ids (mem_of_mem_filter hr) hg hid
      rw [this] at hcand
      exact hother hcand
  · cases hrestore

theorem keyed_undone {db' : Db} (hk : Keyed db) (h : Undone db db' ns ids) : Keyed db' := by
  have hcids : db'.candidates.map Candidate.id = db.candidates.map Candidate.id := by
    rw [h.candidates]
    exact Table.column_updateWhere fun _ => rfl
  have hthere : ∀ c ∈ db.candidates, ∃ c' ∈ db'.candidates, c'.id = c.id ∧ c'.ns = c.ns := by
    intro c hmem
    rw [h.candidates]
    by_cases hp : (c.ns == ns && decide (c.id ∈ ids)) = true
    · exact ⟨_, Table.mem_updateWhere.mpr (.inr ⟨c, hmem, hp, rfl⟩), rfl, rfl⟩
    · exact ⟨c, Table.mem_updateWhere.mpr (.inl ⟨hmem, Bool.eq_false_iff.mpr hp⟩), rfl, rfl⟩
  refine ⟨hcids ▸ hk.candidate_ids, h.grade_ids, ?_, current_of_unique h.current⟩
  intro g' hg'
  obtain ⟨g, hg, hcand, hns, -⟩ := h.old g' hg'
  obtain ⟨c, hmem, hcid, hcns⟩ := hk.owner g hg
  obtain ⟨c', hc', hid', hns'⟩ := hthere c hmem
  exact ⟨c', hc', by rw [hid', hcid, hcand], by rw [hns', hcns, hns]⟩

theorem consistent_undone {db' : Db} (hc : Consistent db) (h : Undone db db' ns ids) :
    Consistent db' := by
  obtain ⟨hcids, hgids, howner, hcurrent⟩ := keyed_undone hc.keyed h
  refine ⟨hcids, hgids, howner, hcurrent, ?_⟩
  intro c' hmem
  rw [h.candidates] at hmem
  rcases Table.mem_updateWhere.mp hmem with ⟨hmem, hp⟩ | ⟨c, hlisted, hp, rfl⟩
  · -- a candidate whose id is listed lies in the namespace
    have hother : c'.id ∉ ids := by
      intro hid
      obtain ⟨g, hg, hgns, hcand⟩ := h.gone _ hid
      rw [← hc.keyed.owned hg hmem hcand, hgns, beq_self_eq_true, Bool.true_and,
        decide_eq_false_iff_not] at hp
      exact hp hid
    obtain ⟨hlive, hnone⟩ := hc.agrees c' hmem
    refine ⟨?_, ?_⟩
    · intro g' hg' hl he
      obtain ⟨g, hg, hcand, -, hsame⟩ := h.old g' hg'
      have hgg := hsame (by rw [← hcand, he]; exact hother)
      rw [hgg] at hl he ⊢
      exact hlive g hg hl he
    · intro hall
      apply hnone
      intro g hg hl he
      exact hall g (h.kept g hg (by rw [he]; exact hother)) hl he
  · rw [Bool.and_eq_true, beq_iff_eq] at hp
    apply agrees_liveReview
    · intro g' hg' he
      obtain ⟨g, hg, hcand, hns, -⟩ := h.old g' hg'
      rw [hns, hc.keyed.owned hg hlisted (hcand.symm.trans he)]
      exact hp.1
    · exact hcurrent

theorem consistent_undoRows {db' : Db} {batch_id : Uuid} {result : Option UndoBatchResult}
    (hc : Consistent db) (h : undoRows db ns batch_id = .ok (db', result)) : Consistent db' := by
  cases result with
  | some result =>
    obtain ⟨ids, hundone⟩ := undone_of_undoRows hc.keyed h
    exact consistent_undone hc hundone
  | none =>
    unfold undoRows at h
    dsimp only at h
    split at h
    · cases h
      exact hc
    · obtain ⟨⟨db₁, restored⟩, -, h⟩ := bind_ok h
      cases h

theorem consistent_undoBatch (lower : Str → Str) (ns batchId : Str) (gradedBy : Option Str)
    (hc : Consistent db) : Consistent (undoBatch lower db ns batchId gradedBy).1 := by
  apply transaction_keeps Consistent hc
  intro db' result h
  obtain ⟨batch_id, -, h⟩ := bind_ok h
  obtain ⟨grader, -, h⟩ := bind_ok h
  exact consistent_undoRows hc h

end Undo

/-! ## Ungrading -/

section Ungrade
variable {db : Db} {ns : Str} {id : Uuid}

theorem ungrade_of_not_graded (h : ¬ Graded db ns id) : (ungradeCandidate db ns id).1 = db := by
  unfold ungradeCandidate
  dsimp only
  rw [Table.updateWhere_of_none]
  intro c hc
  rw [Bool.eq_false_iff]
  intro hp
  rw [Bool.and_eq_true, Option.isSome_iff_ne_none] at hp
  obtain ⟨hns, hid⟩ := isAt_iff.mp hp.1
  exact h ⟨c, hc, hns, hid, hp.2⟩

/-- The live grade of a graded candidate stays when the candidate is ungraded. -/
theorem not_consistent_ungrade (hc : Consistent db) (h : Graded db ns id) :
    ¬ Consistent (ungradeCandidate db ns id).1 := by
  intro hc'
  obtain ⟨c, hmem, hns, hid, hreviewed⟩ := h
  have hlive : ∃ g ∈ db.grades, g.live = true ∧ g.candidate_id = c.id := by
    by_contra hno
    have hnone : c.review = (none, none, none) := by
      apply (hc.agrees c hmem).2
      intro g hg hl he
      exact hno ⟨g, hg, hl, he⟩
    exact hreviewed (Prod.mk.inj (Prod.mk.inj hnone).2).1
  obtain ⟨g, hg, hl, he⟩ := hlive
  have hcleared : c.setReview (none, none, none) ∈ (ungradeCandidate db ns id).1.candidates := by
    refine Table.mem_updateWhere.mpr (.inr ⟨c, hmem, ?_, rfl⟩)
    rw [isAt_iff.mpr ⟨hns, hid⟩, Option.isSome_iff_ne_none.mpr hreviewed]
    rfl
  have hreview := (hc'.agrees _ hcleared).1 g hg hl he
  cases hreview

theorem consistent_ungrade_iff (hc : Consistent db) :
    Consistent (ungradeCandidate db ns id).1 ↔ ¬ Graded db ns id := by
  constructor
  · intro hc' hgraded
    exact not_consistent_ungrade hc hgraded hc'
  · intro h
    rw [ungrade_of_not_graded h]
    exact hc

end Ungrade

/-! ## Every call -/

section Calls
variable {lower : Str → Str} {db db' : Db}

theorem consistent_call_iff (hc : Consistent db) (call : Call) :
    Consistent (call.run lower db) ↔ call.Keeps db := by
  cases call with
  | submitGradeBatch draws ns gradedBy grades =>
    exact iff_of_true (submit_keeps Consistent consistent_applyGrade lower draws ns gradedBy
      grades hc) trivial
  | gradeCandidate draws input =>
    exact iff_of_true (gradeCandidate_keeps Consistent consistent_applyGrade lower draws input hc)
      trivial
  | ungradeCandidate ns id => exact consistent_ungrade_iff hc
  | undoBatch ns batchId gradedBy =>
    exact iff_of_true (consistent_undoBatch lower ns batchId gradedBy hc) trivial

theorem consistent_step {call : Call} (hc : Consistent db) (hk : call.Keeps db)
    (h : (system lower).step db call db') : Consistent db' := by
  have he : call.run lower db = db' := Option.some.inj h
  rw [← he]
  exact (consistent_call_iff hc call).mpr hk

/-- Grades and review columns agree in every state of a run that ungrades no graded candidate;
and from a consistent state only such a call breaks the agreement. -/
theorem grading_consistent (lower : Str → Str) :
    (∀ (db db' : Db) (calls : List Call), Consistent db →
      (system lower).RunOn Call.Keeps db calls db' → Consistent db') ∧
    (∀ (db : Db) (call : Call), Consistent db → (Consistent (call.run lower db) ↔ call.Keeps db)) := by
  refine ⟨?_, fun db call hc => consistent_call_iff hc call⟩
  intro db db' calls hc hrun
  exact hrun.keeps (fun _ _ _ hc hk h => consistent_step hc hk h) hc

end Calls

section Example

def oneCandidate : Db where
  candidates := [⟨7, units "dana", [], [1], none, none, none, none, none, none, none, none, none, 0⟩]
  grades := []
  reinforcements := []

def gradeIt : Call := .gradeCandidate ⟨5, 1, fun _ => 2⟩
  ⟨units "dana", units "00000000-0000-0000-0000-000000000007", .promoted, units "dana", none, none,
    none⟩

def ungradeIt : Call := .ungradeCandidate (units "dana") 7

theorem consistent_oneCandidate : Consistent oneCandidate := by
  refine ⟨nodup_singleton _, nodup_nil, ?_, ?_, ?_⟩
  · intro g hg
    cases hg
  · intro g hg
    cases hg
  · intro c hc
    rw [mem_singleton.mp hc]
    exact ⟨fun g hg => (not_mem_nil hg).elim, fun _ => rfl⟩

theorem gradeIt_eq : ((gradeIt.run id oneCandidate).candidates.any fun c =>
    c.ns == units "dana" && c.id == 7 && c.reviewed_at.isSome) = true := by decide +kernel

theorem grading_consistent_gradeIt : Consistent (gradeIt.run id oneCandidate) :=
  (grading_consistent id).1 _ _ [gradeIt] consistent_oneCandidate
    (.cons trivial rfl (.nil _))

/-- A candidate is graded and then ungraded. -/
theorem ungraded_live_grade : ¬ ∀ (lower : Str → Str) (db db' : Db) (calls : List Call),
    Consistent db → (system lower).RunOn LTS.anyStep db calls db' → Consistent db' := by
  intro hclaim
  have hafter : Consistent (gradeIt.run id oneCandidate) :=
    (consistent_call_iff consistent_oneCandidate gradeIt).mpr trivial
  obtain ⟨c, hmem, hp⟩ := any_eq_true.mp gradeIt_eq
  rw [Bool.and_eq_true, Bool.and_eq_true, beq_iff_eq, beq_iff_eq,
    Option.isSome_iff_ne_none] at hp
  have hbroken : Consistent (ungradeIt.run id (gradeIt.run id oneCandidate)) :=
    hclaim id oneCandidate _ [gradeIt, ungradeIt] consistent_oneCandidate
      (.cons trivial rfl (.cons trivial rfl (.nil _)))
  exact (consistent_call_iff hafter ungradeIt).mp hbroken
    ⟨c, hmem, hp.1.1, hp.1.2, hp.2⟩

end Example

end OpenBrain.Server.CandidateReview
