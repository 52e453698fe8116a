import OpenBrain.Core.LTS
import OpenBrain.Server.Rem.Provenance

/-!
# REM passes and human grading (`runRemGrading`)

A pass selects its candidates and primes its grader, then grades them one by one; between any two
of these the operator may review a candidate, the near-duplicate merge may absorb one, and other
passes run. `written` is the record of the rows that the guarded write found. Every write is final
and comes from an answer of its own pass (`Final`, `Sourced`); the stored name and the reported
count are right as long as each pass finds its candidate as it selected it and, with Terra, has
Terra's answer for it (`Act.Found`).
-/
namespace OpenBrain.Server.Rem
open OpenBrain.Core List
open OpenBrain.Server.CandidateReview (ReviewAction Review Time)

/-- mirrors dream-rem.ts:153-162 -/
structure Summary where
  examined : Nat
  graded : Nat
  by_grade : ReviewAction → Nat
  corroborated : Nat

/-- A pass between two rows. -/
structure Pass where
  grader : Grader
  answers : Answers
  candidates : List RemCandidate
  primed : Primed
  remaining : List RemCandidate
  summary : Summary

/-- A row that a pass wrote its grade to. -/
structure Write where
  pass : Nat
  before : Row
  after : Row

structure State where
  rows : List Row
  passes : List Pass
  written : List Write

/-- The selection and the priming of a pass.
mirrors dream-rem.ts:229-251 -/
def startPass (rows : List Row) (grader : Grader) (answers : Answers) (ns : Option Str)
    (batchSize : Nat) (counts : Row → Counts) : Pass :=
  let candidates := (selectUngradedCandidates rows ns batchSize).map (toRemCandidate counts)
  ⟨grader, answers, candidates, grader.prime answers candidates, candidates,
    ⟨candidates.length, 0, fun _ => 0, 0⟩⟩

/-- mirrors dream-rem.ts:254-255, 273-274 -/
def Summary.count (s : Summary) (c : RemCandidate) (grade : ReviewAction) : Summary :=
  { s with
    graded := s.graded + 1
    by_grade := fun g => if g = grade then s.by_grade g + 1 else s.by_grade g
    corroborated := if c.session_count > 1 then s.corroborated + 1 else s.corroborated }

/-- What a pass writes for a candidate.
mirrors dream-rem.ts:257-271, dream-rem-grading.ts:84-99 -/
def Pass.values (p : Pass) (c : RemCandidate) : GradeValues :=
  let verdict := p.grader.grade p.primed c
  ⟨c.id, c.ns, verdict.grade, p.grader.storedName p.primed c, verdict.reason, verdict.decision⟩

def gradeNext (s : State) (i : Nat) (p : Pass) (c : RemCandidate) (rest : List RemCandidate)
    (now : Time) : State where
  rows := storeMachineGrade s.rows now (p.values c)
  passes := s.passes.set i
    { p with remaining := rest, summary := p.summary.count c (p.values c).grade }
  written := s.written ++ (s.rows.filter (p.values c).matched).map fun r =>
    ⟨i, r, (p.values c).write now r⟩

inductive Act where
  | start (grader : Grader) (answers : Answers) (ns : Option Str) (batchSize : Nat)
    (counts : Row → Counts)
  | grade (pass : Nat) (now : Time)
  /-- The operator grades a candidate, or takes the grade back. -/
  | review (ns id : Str) (r : Review)
  /-- The near-duplicate merge deletes a candidate that is not reviewed. -/
  | absorb (id : Str)

def Row.isAt (ns id : Str) (r : Row) : Bool := r.ns == ns && r.id == id

def step (s : State) : Act → Option State
  | .start grader answers ns batchSize counts =>
    some { s with passes := s.passes ++ [startPass s.rows grader answers ns batchSize counts] }
  | .grade i now =>
    match s.passes[i]? with
    | none => none
    | some p =>
      match p.remaining with
      | [] => none
      | c :: rest => some (gradeNext s i p c rest now)
  | .review ns id r =>
    some { s with rows := Table.updateWhere (·.isAt ns id) (fun row => { row with review := r }) s.rows }
  | .absorb id =>
    some { s with rows := s.rows.filter fun r => !(r.id == id && r.reviewed_at.isNone) }

/-- Any table of candidates, before the first pass. -/
def Start (s : State) : Prop := (s.rows.map Row.id).Nodup ∧ s.passes = [] ∧ s.written = []

def system : LTS State Act := LTS.ofFn Start step

/-! ## What is to hold -/

/-- Each grade is written where there is neither grade nor review, once for a candidate, and
stays. -/
structure Final (s : State) : Prop where
  vacant : ∀ w ∈ s.written, w.before.machine_grade = none ∧ w.before.reviewed_at = none
  review : ∀ w ∈ s.written, w.after.review = w.before.review
  once : (s.written.map fun w => w.before.id).Nodup
  stays : ∀ w ∈ s.written, ∀ r ∈ s.rows, r.id = w.before.id →
    r.machine_grade = w.after.machine_grade ∧ r.machine_grade_model = w.after.machine_grade_model

/-- The answer or the rule that a pass's verdict on a candidate comes from. -/
def Pass.source (p : Pass) (c : RemCandidate) : Source := p.grader.source p.primed c

def Write.Of (s : State) (w : Write) (p : Pass) (c : RemCandidate) : Prop :=
  s.passes[w.pass]? = some p ∧ c ∈ p.candidates ∧ c.id = w.before.id

/-- Each grade is what the heuristic rule says, or an answer that its own pass was given for that
candidate. -/
def Sourced (s : State) : Prop :=
  ∀ w ∈ s.written, ∃ p c, w.Of s p c ∧ p.grader.Gave p.answers p.candidates c.id (p.source c) ∧
    w.after.machine_grade = some (p.grader.determined c (p.source c))

/-- The stored name is that of the grader whose answer or rule it was. -/
def Attributed (s : State) : Prop :=
  ∀ w ∈ s.written, ∀ p c, w.Of s p c →
    w.after.machine_grade_model = some (p.grader.nameOf (p.source c))

/-- Each pass counts the rows that it wrote. -/
def Counted (s : State) : Prop :=
  ∀ i p, s.passes[i]? = some p → p.summary.graded = s.written.countP (·.pass == i)

/-- The pass finds the row of its next candidate neither graded nor reviewed, and its grader
answered for the candidate. -/
def Act.Found (s : State) : Act → Prop
  | .grade i _ => ∀ p c rest, s.passes[i]? = some p → p.remaining = c :: rest →
      (∃ r ∈ s.rows, (p.values c).matched r = true) ∧ p.grader.Answered p.primed c
  | _ => True

/-! ## Steps -/

section Steps
variable {s s' : State} {act : Act}

theorem step_cases (h : step s act = some s') :
    (∃ grader answers ns batchSize counts, act = .start grader answers ns batchSize counts ∧
      s' = { s with passes := s.passes ++ [startPass s.rows grader answers ns batchSize counts] }) ∨
    (∃ i now p c rest, act = .grade i now ∧ s.passes[i]? = some p ∧ p.remaining = c :: rest ∧
      s' = gradeNext s i p c rest now) ∨
    (∃ ns id r, act = .review ns id r ∧ s' = { s with
      rows := Table.updateWhere (·.isAt ns id) (fun row => { row with review := r }) s.rows }) ∨
    (∃ id, act = .absorb id ∧
      s' = { s with rows := s.rows.filter fun r => !(r.id == id && r.reviewed_at.isNone) }) := by
  cases act with
  | start grader answers ns batchSize counts =>
    exact .inl ⟨grader, answers, ns, batchSize, counts, rfl, (Option.some.inj h).symm⟩
  | grade i now =>
    unfold step at h
    dsimp only at h
    split at h
    · cases h
    rename_i p hp
    split at h
    · cases h
    rename_i c rest hrest
    exact .inr (.inl ⟨i, now, p, c, rest, rfl, hp, hrest, (Option.some.inj h).symm⟩)
  | review ns id r => exact .inr (.inr (.inl ⟨ns, id, r, rfl, (Option.some.inj h).symm⟩))
  | absorb id => exact .inr (.inr (.inr ⟨id, rfl, (Option.some.inj h).symm⟩))

/-- A pass as it goes on: primed with its own answers, its candidates distinct, some of them
left. -/
structure Running (p : Pass) : Prop where
  primed : p.primed = p.grader.prime p.answers p.candidates
  ids : (p.candidates.map RemCandidate.id).Nodup
  remaining : ∀ c ∈ p.remaining, c ∈ p.candidates

structure Inv (s : State) : Prop where
  ids : (s.rows.map Row.id).Nodup
  passes : ∀ p ∈ s.passes, Running p
  known : ∀ w ∈ s.written, w.pass < s.passes.length
  graded : ∀ w ∈ s.written, w.after.machine_grade.isSome = true
  final : Final s
  sourced : Sourced s

theorem nodup_candidates {rows : List Row} (hn : (rows.map Row.id).Nodup) (ns : Option Str)
    (batchSize : Nat) (counts : Row → Counts) :
    (((selectUngradedCandidates rows ns batchSize).map (toRemCandidate counts)).map
      RemCandidate.id).Nodup := by
  rw [map_map]
  show ((selectUngradedCandidates rows ns batchSize).map Row.id).Nodup
  unfold selectUngradedCandidates
  have hsorted : (((rows.filter fun r => r.ungraded && ns.all (· == r.ns)).insertionSort
      selectOrder).map Row.id).Nodup :=
    ((perm_insertionSort _ _).map Row.id).nodup_iff.mpr (hn.sublist (filter_sublist.map _))
  exact hsorted.sublist ((take_sublist _ _).map _)

/-- What a pass is primed with does not change as it goes on. -/
structure Alike (p q : Pass) : Prop where
  grader : q.grader = p.grader
  answers : q.answers = p.answers
  candidates : q.candidates = p.candidates
  primed : q.primed = p.primed

theorem Alike.source {p q : Pass} (h : Alike p q) (c : RemCandidate) : q.source c = p.source c := by
  unfold Pass.source
  rw [h.grader, h.primed]

section Set
variable {i : Nat} {p q : Pass} {rows : List Row} {ws : List Write} {w : Write} {c : RemCandidate}
  (hp : s.passes[i]? = some p) (hpq : Alike p q)
include hp hpq

theorem of_set {p' : Pass} (h : w.Of ⟨rows, s.passes.set i q, ws⟩ p' c) :
    ∃ p₀, w.Of s p₀ c ∧ Alike p₀ p' := by
  obtain ⟨hpass, hmem, hid⟩ := h
  rw [getElem?_set] at hpass
  split at hpass
  · rename_i he
    split at hpass
    · cases hpass
      exact ⟨p, ⟨he ▸ hp, hpq.candidates ▸ hmem, hid⟩, hpq⟩
    · cases hpass
  · exact ⟨p', ⟨hpass, hmem, hid⟩, rfl, rfl, rfl, rfl⟩

theorem set_of {p₀ : Pass} (h : w.Of s p₀ c) :
    ∃ p', w.Of ⟨rows, s.passes.set i q, ws⟩ p' c ∧ Alike p₀ p' := by
  obtain ⟨hpass, hmem, hid⟩ := h
  by_cases he : i = w.pass
  · subst he
    rw [hp] at hpass
    cases hpass
    obtain ⟨hlt, -⟩ := List.getElem?_eq_some_iff.mp hp
    refine ⟨q, ⟨?_, hpq.candidates ▸ hmem, hid⟩, hpq⟩
    rw [getElem?_set_self hlt]
  · refine ⟨p₀, ⟨?_, hmem, hid⟩, rfl, rfl, rfl, rfl⟩
    rw [getElem?_set_ne he]
    exact hpass

end Set

end Steps

/-! ## The turn of a pass -/

section Turn
variable {s : State} {i : Nat} {p : Pass} {c : RemCandidate} {rest : List RemCandidate} {now : Time}

theorem mem_written {w : Write} : w ∈ (gradeNext s i p c rest now).written ↔
    w ∈ s.written ∨ ∃ r ∈ s.rows, (p.values c).matched r = true ∧
      w = ⟨i, r, (p.values c).write now r⟩ := by
  show w ∈ s.written ++ _ ↔ _
  rw [mem_append, mem_map]
  constructor
  · intro h
    rcases h with h | ⟨r, hr, rfl⟩
    · exact .inl h
    · obtain ⟨hr, hm⟩ := mem_filter.mp hr
      exact .inr ⟨r, hr, hm, rfl⟩
  · intro h
    rcases h with h | ⟨r, hr, hm, rfl⟩
    · exact .inl h
    · exact .inr ⟨r, mem_filter.mpr ⟨hr, hm⟩, rfl⟩

theorem written_unmatched (hi : Inv s) {w : Write} (hw : w ∈ s.written) {r : Row} (hr : r ∈ s.rows)
    (he : r.id = w.before.id) {v : GradeValues} : ¬ v.matched r = true := by
  intro hm
  have hgraded := hi.graded w hw
  rw [← (hi.final.stays w hw r hr he).1, (matched_iff.mp hm).2.2.1] at hgraded
  cases hgraded

theorem final_grade (hi : Inv s) : Final (gradeNext s i p c rest now) := by
  refine ⟨?_, ?_, ?_, ?_⟩
  · intro w hw
    rcases mem_written.mp hw with hw | ⟨r, -, hm, rfl⟩
    · exact hi.final.vacant w hw
    · exact (matched_iff.mp hm).2.2
  · intro w hw
    rcases mem_written.mp hw with hw | ⟨r, -, -, rfl⟩
    · exact hi.final.review w hw
    · rfl
  · show ((s.written ++ (s.rows.filter (p.values c).matched).map fun r =>
      (⟨i, r, (p.values c).write now r⟩ : Write)).map fun w => w.before.id).Nodup
    rw [map_append, map_map, nodup_append]
    refine ⟨hi.final.once, hi.ids.sublist (filter_sublist.map Row.id), ?_⟩
    intro x hx y hy he
    obtain ⟨w, hw, rfl⟩ := mem_map.mp hx
    obtain ⟨r, hr, rfl⟩ := mem_map.mp hy
    obtain ⟨hr, hm⟩ := mem_filter.mp hr
    exact written_unmatched hi hw hr he.symm hm
  · intro w hw r' hr' he
    rcases Table.mem_updateWhere.mp hr' with ⟨hr, hm⟩ | ⟨r, hr, hm, rfl⟩
    · rcases mem_written.mp hw with hw | ⟨r, hr₀, hm₀, rfl⟩
      · exact hi.final.stays w hw r' hr he
      · rw [Table.eq_of_key hi.ids hr hr₀ he, hm₀] at hm
        cases hm
    · rcases mem_written.mp hw with hw | ⟨r₀, hr₀, -, rfl⟩
      · exact (written_unmatched hi hw hr he hm).elim
      · rw [Table.eq_of_key hi.ids hr hr₀ he]
        exact ⟨rfl, rfl⟩

theorem alike_next (q : Pass) (remaining : List RemCandidate) (summary : Summary) :
    Alike q { q with remaining := remaining, summary := summary } := ⟨rfl, rfl, rfl, rfl⟩

theorem sourced_grade (hi : Inv s) (hp : s.passes[i]? = some p) (hrest : p.remaining = c :: rest) :
    Sourced (gradeNext s i p c rest now) := by
  intro w hw
  rcases mem_written.mp hw with hw | ⟨r, hr, hm, rfl⟩
  · obtain ⟨p₀, c₀, hof, hgave, hgrade⟩ := hi.sourced w hw
    obtain ⟨p', hof', halike⟩ := set_of hp (alike_next p rest _) hof
    refine ⟨p', c₀, hof', ?_, ?_⟩
    · rw [halike.source, halike.grader, halike.answers, halike.candidates]
      exact hgave
    · rw [halike.source, halike.grader]
      exact hgrade
  · have hrun := hi.passes p (mem_of_getElem? hp)
    obtain ⟨hlt, -⟩ := List.getElem?_eq_some_iff.mp hp
    refine ⟨_, c, ⟨getElem?_set_self hlt,
      hrun.remaining c (hrest ▸ mem_cons_self), (matched_iff.mp hm).1.symm⟩, ?_, ?_⟩
    · show p.grader.Gave p.answers p.candidates c.id (p.grader.source p.primed c)
      rw [hrun.primed]
      exact source_gave
    · show some (p.grader.grade p.primed c).grade =
        some (p.grader.determined c (p.grader.source p.primed c))
      rw [hrun.primed, grade_eq]

theorem running_next {q : Pass} (hq : Running q) {c : RemCandidate} {rest : List RemCandidate}
    (hrest : q.remaining = c :: rest) (summary : Summary) :
    Running { q with remaining := rest, summary := summary } :=
  ⟨hq.primed, hq.ids, fun x hx => hq.remaining x (hrest ▸ mem_cons_of_mem c hx)⟩

theorem inv_grade (hi : Inv s) (hp : s.passes[i]? = some p) (hrest : p.remaining = c :: rest) :
    Inv (gradeNext s i p c rest now) := by
  refine ⟨?_, ?_, ?_, ?_, final_grade hi, sourced_grade hi hp hrest⟩
  · show ((storeMachineGrade s.rows now (p.values c)).map Row.id).Nodup
    have hids : (storeMachineGrade s.rows now (p.values c)).map Row.id = s.rows.map Row.id :=
      Table.column_updateWhere fun _ => rfl
    rw [hids]
    exact hi.ids
  · intro q hq
    rcases mem_or_eq_of_mem_set hq with hq | rfl
    · exact hi.passes q hq
    · exact running_next (hi.passes p (mem_of_getElem? hp)) hrest _
  · intro w hw
    show w.pass < (s.passes.set i _).length
    rw [length_set]
    rcases mem_written.mp hw with hw | ⟨r, -, -, rfl⟩
    · exact hi.known w hw
    · exact (List.getElem?_eq_some_iff.mp hp).1
  · intro w hw
    rcases mem_written.mp hw with hw | ⟨r, -, -, rfl⟩
    · exact hi.graded w hw
    · rfl

/-- The writes of a pass after the turn of the `i`th. -/
theorem countP_gradeNext (j : Nat) :
    (gradeNext s i p c rest now).written.countP (·.pass == j) =
      s.written.countP (·.pass == j) +
        if i = j then (s.rows.filter (p.values c).matched).length else 0 := by
  show (s.written ++ (s.rows.filter (p.values c).matched).map _).countP _ = _
  rw [countP_append, countP_map]
  congr 1
  split
  · rename_i he
    rw [countP_eq_length.mpr]
    intro r _
    simp [he]
  · rename_i he
    rw [countP_eq_zero]
    intro r _
    simp [he]

theorem length_matched (hi : Inv s) (v : GradeValues) :
    (s.rows.filter v.matched).length = if ∃ r ∈ s.rows, v.matched r = true then 1 else 0 := by
  have hn : ((s.rows.filter v.matched).map Row.id).Nodup := hi.ids.sublist (filter_sublist.map _)
  have hall : ∀ r ∈ s.rows.filter v.matched, r.id = v.candidateId :=
    fun r hr => (matched_iff.mp (mem_filter.mp hr).2).1
  split
  · rename_i hex
    obtain ⟨r, hr, hm⟩ := hex
    have hmem : r ∈ s.rows.filter v.matched := mem_filter.mpr ⟨hr, hm⟩
    cases hrows : s.rows.filter v.matched with
    | nil =>
      rw [hrows] at hmem
      cases hmem
    | cons x xs =>
      cases xs with
      | nil => rfl
      | cons y ys =>
        rw [hrows] at hn hall
        have hsame : x.id = y.id := (hall x (by simp)).trans (hall y (by simp)).symm
        simp [hsame] at hn
  · rename_i hno
    rw [length_eq_zero_iff, filter_eq_nil_iff]
    exact fun r hr hm => hno ⟨r, hr, hm⟩

/-- A turn is counted right exactly where it finds the row of its candidate. -/
theorem counted_grade_iff (hi : Inv s) (hc : Counted s) (hp : s.passes[i]? = some p) :
    Counted (gradeNext s i p c rest now) ↔ ∃ r ∈ s.rows, (p.values c).matched r = true := by
  obtain ⟨hlt, -⟩ := List.getElem?_eq_some_iff.mp hp
  constructor
  · intro hcounted
    have hturn := hcounted i _ (getElem?_set_self hlt)
    have hbefore := hc i p hp
    rw [countP_gradeNext, if_pos rfl, length_matched hi] at hturn
    by_contra hno
    rw [if_neg hno] at hturn
    change p.summary.graded + 1 = _ at hturn
    omega
  · intro hfound j q hq
    rw [countP_gradeNext, length_matched hi, if_pos hfound]
    change (s.passes.set i _)[j]? = some q at hq
    rw [getElem?_set] at hq
    split at hq
    · rename_i he
      subst he
      cases hq
      rw [if_pos rfl, ← hc i p hp]
      rfl
    · rename_i he
      rw [if_neg he, hc j q hq, Nat.add_zero]

/-- A turn names the grader exactly where the grader answered, if it finds the row. -/
theorem attributed_grade_iff (hi : Inv s) (ha : Attributed s) (hp : s.passes[i]? = some p)
    (hrest : p.remaining = c :: rest) (hfound : ∃ r ∈ s.rows, (p.values c).matched r = true) :
    Attributed (gradeNext s i p c rest now) ↔ p.grader.Answered p.primed c := by
  have hrun := hi.passes p (mem_of_getElem? hp)
  have hmem : c ∈ p.candidates := hrun.remaining c (hrest ▸ mem_cons_self)
  obtain ⟨hlt, -⟩ := List.getElem?_eq_some_iff.mp hp
  constructor
  · intro hattributed
    obtain ⟨r, hr, hm⟩ := hfound
    have hname := hattributed _ (mem_written.mpr (.inr ⟨r, hr, hm, rfl⟩)) _ c
      ⟨getElem?_set_self hlt, hmem, (matched_iff.mp hm).1.symm⟩
    exact storedName_eq_iff.mp (Option.some.inj hname)
  · intro hanswered w hw p' c' hof
    obtain ⟨p₀, hof₀, halike⟩ := of_set hp (alike_next p rest _) hof
    rw [halike.source, halike.grader]
    rcases mem_written.mp hw with hw | ⟨r, hr, hm, rfl⟩
    · exact ha w hw p₀ c' hof₀
    · obtain ⟨hpass, hmem', hid⟩ := hof₀
      rw [hp] at hpass
      cases hpass
      -- the candidate is the one whose turn it is
      have hsame : c' = c := inj_on_of_nodup_map hrun.ids hmem' hmem
        (hid.trans (matched_iff.mp hm).1)
      rw [hsame]
      exact congrArg some (storedName_eq_iff.mpr hanswered)

end Turn

/-! ## Every step -/

section Run
variable {s s' : State} {act : Act}

theorem inv_start (hi : Inv s) (grader : Grader) (answers : Answers) (ns : Option Str)
    (batchSize : Nat) (counts : Row → Counts) :
    Inv { s with passes := s.passes ++ [startPass s.rows grader answers ns batchSize counts] } := by
  refine ⟨hi.ids, ?_, ?_, hi.graded,
    ⟨hi.final.vacant, hi.final.review, hi.final.once, hi.final.stays⟩, ?_⟩
  · intro p hp
    rcases mem_append.mp hp with hp | hp
    · exact hi.passes p hp
    · rw [mem_singleton.mp hp]
      exact ⟨rfl, nodup_candidates hi.ids ns batchSize counts, fun _ hc => hc⟩
  · intro w hw
    have hlt := hi.known w hw
    rw [length_append]
    omega
  · intro w hw
    obtain ⟨p, c, ⟨hp, hmem, hid⟩, hsourced⟩ := hi.sourced w hw
    refine ⟨p, c, ⟨?_, hmem, hid⟩, hsourced⟩
    rw [getElem?_append_left (hi.known w hw)]
    exact hp

/-- The grades of the rows that are left do not change. -/
theorem inv_rows (hi : Inv s) {rows : List Row} (hn : (rows.map Row.id).Nodup)
    (hrows : ∀ r' ∈ rows, ∃ r ∈ s.rows, r.id = r'.id ∧ r.machine_grade = r'.machine_grade ∧
      r.machine_grade_model = r'.machine_grade_model) : Inv { s with rows := rows } := by
  refine ⟨hn, hi.passes, hi.known, hi.graded,
    ⟨hi.final.vacant, hi.final.review, hi.final.once, ?_⟩, hi.sourced⟩
  intro w hw r' hr' he
  obtain ⟨r, hr, hid, hgrade, hmodel⟩ := hrows r' hr'
  rw [← hgrade, ← hmodel]
  exact hi.final.stays w hw r hr (hid.trans he)

theorem inv_step (hi : Inv s) (h : step s act = some s') : Inv s' := by
  rcases step_cases h with ⟨grader, answers, ns, batchSize, counts, -, rfl⟩ |
    ⟨i, now, p, c, rest, -, hp, hrest, rfl⟩ | ⟨ns, id, r, -, rfl⟩ | ⟨id, -, rfl⟩
  · exact inv_start hi grader answers ns batchSize counts
  · exact inv_grade hi hp hrest
  · have hids : (Table.updateWhere (·.isAt ns id) (fun row => { row with review := r }) s.rows).map
        Row.id = s.rows.map Row.id := Table.column_updateWhere fun _ => rfl
    refine inv_rows hi (hids ▸ hi.ids) ?_
    intro r' hr'
    rcases Table.mem_or_of_mem_updateWhere hr' with hr' | ⟨old, hold, -, rfl⟩
    · exact ⟨r', hr', rfl, rfl, rfl⟩
    · exact ⟨old, hold, rfl, rfl, rfl⟩
  · refine inv_rows hi (hi.ids.sublist (filter_sublist.map _)) ?_
    intro r' hr'
    exact ⟨r', mem_of_mem_filter hr', rfl, rfl, rfl⟩

theorem inv_reachable (h : system.Reachable s) : Inv s := by
  refine LTS.InductiveOn.reachable (I := Inv) ⟨?_, fun _ _ _ hi _ hst => inv_step hi hst⟩ h
  intro s ⟨hn, hp, hw⟩
  have hno : ∀ w, w ∉ s.written := fun w h => not_mem_nil (hw ▸ h)
  refine ⟨hn, fun p h => (not_mem_nil (hp ▸ h)).elim, fun w h => (hno w h).elim,
    fun w h => (hno w h).elim, ⟨fun w h => (hno w h).elim, fun w h => (hno w h).elim, ?_,
      fun w h => (hno w h).elim⟩, fun w h => (hno w h).elim⟩
  rw [hw]
  exact nodup_nil

/-- Only the operator writes the review columns. -/
theorem review_step (h : step s act = some s') (hact : ∀ ns id r, act ≠ .review ns id r) :
    ∀ r' ∈ s'.rows, ∃ r ∈ s.rows, r.id = r'.id ∧ r.review = r'.review := by
  rcases step_cases h with ⟨grader, answers, ns, batchSize, counts, -, rfl⟩ |
    ⟨i, now, p, c, rest, -, -, -, rfl⟩ | ⟨ns, id, r, rfl, -⟩ | ⟨id, -, rfl⟩
  · exact fun r' hr' => ⟨r', hr', rfl, rfl⟩
  · intro r' hr'
    rcases Table.mem_or_of_mem_updateWhere hr' with hr' | ⟨old, hold, -, rfl⟩
    · exact ⟨r', hr', rfl, rfl⟩
    · exact ⟨old, hold, rfl, rfl⟩
  · exact (hact ns id r rfl).elim
  · exact fun r' hr' => ⟨r', mem_of_mem_filter hr', rfl, rfl⟩

/-- What the stored names and the counts are to be. -/
def Faithful (s : State) : Prop := Attributed s ∧ Counted s

theorem faithful_start (hi : Inv s) (hf : Faithful s) (p : Pass) (hp : p.summary.graded = 0) :
    Faithful { s with passes := s.passes ++ [p] } := by
  refine ⟨?_, ?_⟩
  · intro w hw p' c ⟨hpass, hmem, hid⟩
    rw [getElem?_append_left (hi.known w hw)] at hpass
    exact hf.1 w hw p' c ⟨hpass, hmem, hid⟩
  · intro j q hq
    by_cases hlt : j < s.passes.length
    · rw [getElem?_append_left hlt] at hq
      exact hf.2 j q hq
    · rw [getElem?_append_right (by omega)] at hq
      have hq := mem_of_getElem? hq
      rw [mem_singleton.mp hq, hp, eq_comm, countP_eq_zero]
      intro w hw he
      have := hi.known w hw
      rw [beq_iff_eq] at he
      omega

/-- A step keeps the names and the counts right exactly where it finds what it needs. -/
theorem faithful_step_iff (hi : Inv s) (hf : Faithful s) (h : step s act = some s') :
    Faithful s' ↔ act.Found s := by
  rcases step_cases h with ⟨grader, answers, ns, batchSize, counts, rfl, rfl⟩ |
    ⟨i, now, p, c, rest, rfl, hp, hrest, rfl⟩ | ⟨ns, id, r, rfl, rfl⟩ | ⟨id, rfl, rfl⟩
  · exact iff_of_true (faithful_start hi hf _ rfl) trivial
  · have hfound : (Act.grade i now).Found s ↔
        (∃ r ∈ s.rows, (p.values c).matched r = true) ∧ p.grader.Answered p.primed c := by
      constructor
      · intro hall
        exact hall p c rest hp hrest
      · intro hthis p' c' rest' hp' hrest'
        rw [hp] at hp'
        cases hp'
        rw [hrest] at hrest'
        cases hrest'
        exact hthis
    rw [hfound]
    constructor
    · intro ⟨ha, hc⟩
      have hrow := (counted_grade_iff hi hf.2 hp).mp hc
      exact ⟨hrow, (attributed_grade_iff hi hf.1 hp hrest hrow).mp ha⟩
    · intro ⟨hrow, hanswered⟩
      exact ⟨(attributed_grade_iff hi hf.1 hp hrest hrow).mpr hanswered,
        (counted_grade_iff hi hf.2 hp).mpr hrow⟩
  · exact iff_of_true hf trivial
  · exact iff_of_true hf trivial

theorem faithful_reachable (h : system.ReachableOn Act.Found s) : Faithful s := by
  have hboth : Inv s ∧ Faithful s := by
    refine LTS.InductiveOn.reachable (I := fun s => Inv s ∧ Faithful s) ⟨?_, ?_⟩ h
    · intro s hs
      refine ⟨inv_reachable ⟨s, [], hs, .nil s⟩, ?_, ?_⟩
      · intro w hw
        exact (not_mem_nil (hs.2.2 ▸ hw)).elim
      · intro j p hp
        rw [hs.2.1] at hp
        cases hp
    · intro s act s' ⟨hi, hf⟩ hg hst
      exact ⟨inv_step hi hst, (faithful_step_iff hi hf hst).mpr hg⟩
  exact hboth.2

/-- Machine grades are final, come from an answer to their candidate in their own pass or from the
rule, and leave the review columns, in every run; in a run where each turn finds the row of its
candidate as it was selected, and a Terra grader its answer, they are attributed and counted too,
and no other turn keeps them so. -/
theorem machine_grades (s : State) :
    (system.Reachable s → Final s ∧ Sourced s) ∧
    (∀ act s', system.step s act s' → (∀ ns id r, act ≠ .review ns id r) →
      ∀ r' ∈ s'.rows, ∃ r ∈ s.rows, r.id = r'.id ∧ r.review = r'.review) ∧
    (system.ReachableOn Act.Found s → Attributed s ∧ Counted s) ∧
    ∀ act s', system.Reachable s → Attributed s ∧ Counted s → system.step s act s' →
      (Attributed s' ∧ Counted s' ↔ act.Found s) := by
  refine ⟨?_, fun _ _ h hact => review_step h hact, fun h => faithful_reachable h, ?_⟩
  · intro h
    exact ⟨(inv_reachable h).final, (inv_reachable h).sourced⟩
  · intro act s' h hf hst
    exact faithful_step_iff (inv_reachable h) hf hst

end Run

section Example

def oneStatement : Row :=
  ⟨units "c1", units "dana", units "decision", units "keep this rule", [1], false, none, none,
    (none, none, none), none, none, none, none, none, 0⟩

def oneRow : State := ⟨[oneStatement], [], []⟩

def uncounted : Row → Counts := fun _ => ⟨none, none, 0⟩

def statement : RemCandidate := toRemCandidate uncounted oneStatement

def terraLow : Grader := .terra ⟨REM_MODEL, REM_EFFORT, 50, by decide, false⟩

/-- Terra's request fails. -/
def silent : Answers := ⟨fun _ => true, fun _ _ => true, fun _ => none, fun _ => none⟩

def scored : Answers :=
  { silent with transport := fun _ => some [⟨units "c1", scoreNumber 7, units "DECISION", [], [],
    units "good", [], none⟩] }

def terraPass (a : Answers) : Pass := startPass [oneStatement] terraLow a none 300 uncounted

def duringTerra (a : Answers) : State := { oneRow with passes := [terraPass a] }

def afterTerra (a : Answers) : State := gradeNext (duringTerra a) 0 (terraPass a) statement [] 5

def terraRun (a : Answers) : List Act := [.start terraLow a none 300 uncounted, .grade 0 5]

theorem start_oneRow : Start oneRow := ⟨nodup_singleton _, rfl, rfl⟩

theorem matched_oneStatement (a : Answers) :
    ((terraPass a).values statement).matched oneStatement = true := by
  simp [GradeValues.matched, Pass.values, statement, toRemCandidate, oneStatement, Row.ungraded,
    Row.reviewed_at]

theorem machine_grades_scored : Attributed (afterTerra scored) ∧ Counted (afterTerra scored) := by
  have hfound : Act.Found (duringTerra scored) (.grade 0 5) := by
    intro p c rest hp hrest
    cases hp
    cases hrest
    exact ⟨⟨oneStatement, mem_cons_self, matched_oneStatement scored⟩,
      ⟨by decide +kernel, by decide +kernel⟩⟩
  exact (machine_grades _).2.2.1 ⟨oneRow, terraRun scored, start_oneRow,
    .cons trivial rfl (.cons hfound rfl (.nil _))⟩

/-- The heuristic grade of a candidate that Terra did not answer for carries Terra's name. -/
theorem fallback_misnamed : ¬ ∀ s, system.Reachable s →
    Final s ∧ Sourced s ∧ Attributed s ∧ Counted s := by
  intro hclaim
  have hattributed := (hclaim (afterTerra silent) ⟨oneRow, terraRun silent, start_oneRow,
    .cons trivial rfl (.cons trivial rfl (.nil _))⟩).2.2.1
  have hname := hattributed ⟨0, oneStatement,
    ((terraPass silent).values statement).write 5 oneStatement⟩
    (mem_written.mpr (.inr ⟨oneStatement, mem_cons_self, matched_oneStatement silent, rfl⟩))
    _ statement ⟨rfl, mem_cons_self, rfl⟩
  exact absurd (Option.some.inj hname) (by decide +kernel)

end Example

end OpenBrain.Server.Rem
