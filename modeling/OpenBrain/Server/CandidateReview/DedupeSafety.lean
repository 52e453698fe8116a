import OpenBrain.Server.CandidateReview.Merging

/-!
# What a dedupe pass loses

The calls of operators set review columns and nothing else a merge reads (`Reviewed`), so what
a selection says of its rows stays true until the merges (`Ready`). Three things can go wrong
on the way. A survivor may itself be a duplicate, when the chain to it is longer than the walk,
or a part of one (`Selection.Ends`); a duplicate may be graded before its row is locked, and is
then recorded as a restatement although it stays (`Settled`); and a graded part goes with its
head. In a run without these every pass is `Sound` (`sound_of_reachable`).
-/
namespace OpenBrain.Server.CandidateReview
open OpenBrain.Core OpenBrain.Core.Ecma List

/-! ## The condition -/

/-- The row so many survivor edges further on. -/
def links (edge : Uuid → Option Uuid) : Nat → Uuid → Option Uuid
  | 0, id => some id
  | n + 1, id => (edge id).bind (links edge n)

/-- No chain goes on after the walk, and no row that ends one is a part of a duplicate. -/
def Selection.Ends (sel : Selection) (db : Db) : Prop :=
  ∀ n ∈ sel.nearest db, links (sel.edge db) (MAX_STEPS + 1) n.survivor_id = none ∧
    ∀ k e, links (sel.edge db) k n.survivor_id = some e → sel.edge db e = none →
      ∀ m ∈ sel.nearest db, ∀ c ∈ db.candidates, c.id = e → ¬ PartOf db m.dup_id c

/-- A duplicate that is graded has been recorded before. -/
def Settled (db : Db) (pairs : List MergeRow) : Prop :=
  ∀ p ∈ pairs, ∀ d ∈ db.candidates, d.id = p.dup_id →
    d.reviewed_at = none ∨ p.recorded db.reinforcements = true

/-- The step does not reach the defect. -/
def DedupeState.Meets (s : DedupeState) : DedupeLabel → Prop
  | .select sel _ _ => sel.Ends s.db
  | .lock => ∀ pass, s.pass = some pass → Settled s.db pass.pairs
  | .commit => ∀ pass, s.pass = some pass →
    ∀ c ∈ s.db.candidates, Gone s.db pass.pairs c → c.reviewed_at = none
  | _ => True

def dedupeSystem (lower : Str → Str) : LTS DedupeState DedupeLabel :=
  LTS.ofFn (fun s => s.db.Valid ∧ s.pass = none) (DedupeState.step lower)

/-- What a pass may have done to the tables. -/
structure Sound (db db' : Db) (pairs : List MergeRow) : Prop where
  duplicates : ∀ p ∈ pairs, ∃ d ∈ db.candidates, d.id = p.dup_id ∧
    (d ∈ db'.candidates ∨ ((∀ c ∈ db'.candidates, c.id ≠ d.id) ∧
      ∃ r ∈ db'.reinforcements, r.dup_content_hash = d.content_hash ∧
        ∃ c ∈ db'.candidates, c.id = r.candidate_id))
  targets : ∀ p ∈ pairs, ∃ c ∈ db'.candidates, c.id = p.survivor_id
  graded : ∀ c ∈ db.candidates, c.reviewed_at ≠ none → ∃ c' ∈ db'.candidates, Later c c'
  written : ∀ r ∈ db'.reinforcements, r ∈ db.reinforcements ∨ ∃ p ∈ pairs, r = p.reinforcement ∧
    ∀ d ∈ db.candidates, d.id = p.dup_id → d.reviewed_at = none
  others : ∀ c ∈ db.candidates, (∀ c' ∈ db'.candidates, c'.id ≠ c.id) →
    ∃ p ∈ pairs, PartOf db p.dup_id c

/-! ## Calls -/

/-- What a call does to the tables that a merge reads. -/
def Reviewed (db db' : Db) : Prop :=
  db'.reinforcements = db.reinforcements ∧
    ∃ f : Candidate → Review, db'.candidates = db.candidates.map fun c => c.setReview (f c)

section Calls
variable {db db' db'' : Db}

theorem reviewed_refl (db : Db) : Reviewed db db := by
  refine ⟨rfl, Candidate.review, ?_⟩
  exact (Table.map_of_fixed fun _ _ => rfl).symm

theorem Reviewed.trans (h : Reviewed db db') (h' : Reviewed db' db'') : Reviewed db db'' := by
  obtain ⟨hr, f, hf⟩ := h
  obtain ⟨hr', g, hg⟩ := h'
  refine ⟨hr'.trans hr, fun c => g (c.setReview (f c)), ?_⟩
  rw [hg, hf, map_map]
  rfl

theorem reviewed_updateWhere (db : Db) (p : Candidate → Bool) (f : Candidate → Review)
    (grades : List Grade) :
    Reviewed db ⟨Table.updateWhere p (fun c => c.setReview (f c)) db.candidates, grades,
      db.reinforcements⟩ := by
  refine ⟨rfl, fun c => if p c then f c else c.review, ?_⟩
  apply map_congr_left
  intro c _
  show (if p c = true then c.setReview (f c) else c) =
    c.setReview (if p c = true then f c else c.review)
  split
  · rfl
  · rfl

theorem reviewed_applyGrade {ctx : GradeCtx} {grade_id : Uuid} {g : ParsedGrade}
    {result : BatchGradeResult} {db₀ : Db} (h₀ : Reviewed db₀ db)
    (h : applyGrade db ctx grade_id g = .ok (db', result)) : Reviewed db₀ db' := by
  obtain ⟨id, -, rfl, -⟩ := applyGrade_ok h
  exact h₀.trans (reviewed_updateWhere db _ _ _)

theorem reviewed_undoRows {ns : Str} {batch_id : Uuid} {result : Option UndoBatchResult}
    (h : undoRows db ns batch_id = .ok (db', result)) : Reviewed db db' := by
  unfold undoRows at h
  dsimp only at h
  split at h
  · cases h
    exact reviewed_refl db
  · obtain ⟨⟨db₁, restored⟩, hrestore, h⟩ := bind_ok h
    cases h
    unfold restoreSuperseded at hrestore
    dsimp only at hrestore
    split at hrestore
    · cases hrestore
      exact reviewed_updateWhere db _ _ _
    · cases hrestore

theorem reviewed_call (lower : Str → Str) (db : Db) (c : Call) : Reviewed db (c.run lower db) := by
  cases c with
  | submitGradeBatch draws ns gradedBy grades =>
    exact submit_keeps (Reviewed db) reviewed_applyGrade lower draws ns gradedBy grades
      (reviewed_refl db)
  | gradeCandidate draws input =>
    exact gradeCandidate_keeps (Reviewed db) reviewed_applyGrade lower draws input
      (reviewed_refl db)
  | ungradeCandidate ns id => exact reviewed_updateWhere db _ _ _
  | undoBatch ns batchId gradedBy =>
    apply transaction_keeps (Reviewed db) (reviewed_refl db)
    intro db' result h
    obtain ⟨batch_id, -, h⟩ := bind_ok h
    obtain ⟨grader, -, h⟩ := bind_ok h
    exact reviewed_undoRows h

theorem Reviewed.old (h : Reviewed db db') {c' : Candidate} (hc : c' ∈ db'.candidates) :
    ∃ c ∈ db.candidates, ∃ r, c' = c.setReview r := by
  obtain ⟨-, f, hf⟩ := h
  rw [hf] at hc
  obtain ⟨c, hmem, rfl⟩ := mem_map.mp hc
  exact ⟨c, hmem, f c, rfl⟩

theorem Reviewed.new (h : Reviewed db db') {c : Candidate} (hc : c ∈ db.candidates) :
    ∃ r, c.setReview r ∈ db'.candidates := by
  obtain ⟨-, f, hf⟩ := h
  rw [hf]
  exact ⟨f c, mem_map.mpr ⟨c, hc, rfl⟩⟩

theorem Reviewed.valid (h : Reviewed db db') (hv : db.Valid) : db'.Valid := by
  have hthere : ∀ id, (∃ c ∈ db.candidates, c.id = id) → ∃ c ∈ db'.candidates, c.id = id := by
    intro id ⟨c, hc, hid⟩
    obtain ⟨r, hr⟩ := h.new hc
    exact ⟨_, hr, hid⟩
  refine ⟨?_, ?_, ?_⟩
  · have hids : db'.candidates.map Candidate.id = db.candidates.map Candidate.id := by
      obtain ⟨-, f, hf⟩ := h
      rw [hf, map_map]
      rfl
    rw [hids]
    exact hv.ids
  · intro c' hc'
    obtain ⟨c, hc, r, rfl⟩ := h.old hc'
    apply Cascade.hasParent_iff.mpr
    intro p hp
    exact hthere p (Cascade.hasParent_iff.mp (hv.whole c hc) p hp)
  · intro r hr
    rw [h.1] at hr
    exact hthere _ (hv.target r hr)

theorem Reviewed.part (h : Reviewed db db') (hv : db.Valid) {head : Uuid} {c : Candidate}
    {r : Review} (hc : c ∈ db.candidates) (hpart : PartOf db' head (c.setReview r)) :
    PartOf db head c := by
  refine hpart.of_within hv.ids ?_ hc rfl
  intro q' hq'
  obtain ⟨q, hq, r, rfl⟩ := h.old hq'
  exact ⟨q, hq, rfl, rfl⟩

end Calls

/-! ## The selection -/

section Select
variable {db : Db} {sel : Selection}

theorem mem_dups {d : Candidate} (h : d ∈ sel.dups db) :
    d ∈ db.candidates ∧ d.reviewed_at = none := by
  have hin := (mem_insertionSort _).mp (mem_of_mem_take h)
  obtain ⟨hd, hp⟩ := mem_filter.mp hin
  rw [Bool.and_eq_true, Bool.and_eq_true, Option.isNone_iff_eq_none] at hp
  exact ⟨hd, hp.1.1⟩

theorem neighbour_mem {d : Candidate} {s : Candidate × Double}
    (h : sel.neighbour db d = some s) : s.1 ∈ db.candidates := by
  obtain ⟨id, -, h⟩ := Option.bind_eq_some_iff.mp h
  obtain ⟨c, hc, h⟩ := Option.bind_eq_some_iff.mp h
  obtain ⟨v, -, h⟩ := Option.bind_eq_some_iff.mp h
  obtain ⟨w, -, h⟩ := Option.bind_eq_some_iff.mp h
  obtain ⟨distance, -, h⟩ := Option.bind_eq_some_iff.mp h
  split at h
  · cases h
    exact mem_of_find?_eq_some hc
  · cases h

theorem mem_nearest {n : MergeRow} (h : n ∈ sel.nearest db) :
    (∃ d ∈ db.candidates, d.id = n.dup_id ∧ d.content_hash = n.dup_content_hash) ∧
      ∃ c ∈ db.candidates, c.id = n.survivor_id := by
  obtain ⟨d, hd, h⟩ := mem_filterMap.mp h
  obtain ⟨s, hs, rfl⟩ := Option.map_eq_some_iff.mp h
  exact ⟨⟨d, (mem_dups hd).1, rfl, rfl⟩, s.1, neighbour_mem hs, rfl⟩

theorem edge_mem {a b : Uuid} (h : sel.edge db a = some b) :
    ∃ n ∈ sel.nearest db, n.survivor_id = b := by
  obtain ⟨n, hn, rfl⟩ := Option.map_eq_some_iff.mp h
  exact ⟨n, mem_of_find?_eq_some hn, rfl⟩

variable {edge : Uuid → Option Uuid}

/-- The walk ends on a row of the chain, -/
theorem links_walk (n : Nat) (id : Uuid) : ∃ k, links edge k id = some (walk edge n id) := by
  induction n generalizing id with
  | zero => exact ⟨0, rfl⟩
  | succ n ih =>
    unfold walk
    cases he : edge id with
    | none => exact ⟨0, rfl⟩
    | some survivor =>
      obtain ⟨k, hk⟩ := ih survivor
      refine ⟨k + 1, ?_⟩
      unfold links
      rw [he]
      exact hk

/-- on the last one, if the chain is not longer than the walk. -/
theorem edge_walk {n : Nat} {id : Uuid} (h : links edge (n + 1) id = none) :
    edge (walk edge n id) = none := by
  induction n generalizing id with
  | zero =>
    unfold links at h
    cases he : edge id with
    | none => exact he
    | some survivor =>
      rw [he] at h
      cases h
  | succ n ih =>
    unfold walk
    cases he : edge id with
    | none => exact he
    | some survivor =>
      unfold links at h
      rw [he] at h
      exact ih h

/-- What holds of every survivor holds where a walk from one ends. -/
theorem walk_keeps {P : Uuid → Prop} (hedge : ∀ a b, edge a = some b → P b) (n : Nat) {id : Uuid}
    (hp : P id) : P (walk edge n id) := by
  induction n generalizing id with
  | zero => exact hp
  | succ n ih =>
    unfold walk
    cases he : edge id with
    | none => exact hp
    | some survivor => exact ih (hedge id survivor he)

end Select

/-! ## A pass under way -/

/-- What a selection says of its rows. -/
structure Ready (db : Db) (pairs : List MergeRow) : Prop where
  duplicate : ∀ p ∈ pairs, ∃ d ∈ db.candidates, d.id = p.dup_id ∧
    d.content_hash = p.dup_content_hash
  survivor : ∀ p ∈ pairs, ∃ c ∈ db.candidates, c.id = p.survivor_id
  apart : ∀ p ∈ pairs, ∀ q ∈ pairs, ∀ c ∈ db.candidates, c.id = q.survivor_id →
    ¬ PartOf db p.dup_id c

/-- The tables are valid, a pass under way is ready, and once locked settled. -/
structure DedupeState.Inv (s : DedupeState) : Prop where
  valid : s.db.Valid
  ready : ∀ pass, s.pass = some pass → Ready s.db pass.pairs
  settled : ∀ pass, s.pass = some pass → pass.locked = true → Settled s.db pass.pairs

section Pass
variable {lower : Str → Str} {db db' : Db} {pairs : List MergeRow} {s s' : DedupeState}

theorem ready_select {sel : Selection} (he : sel.Ends db) (hp : pairs.Perm (sel.pairs db)) :
    Ready db pairs := by
  -- every pair is a nearest one with the end of its chain for a survivor
  have hpair : ∀ p ∈ pairs, ∃ n ∈ sel.nearest db,
      p = { n with survivor_id := walk (sel.edge db) MAX_STEPS n.survivor_id } := by
    intro p hmem
    obtain ⟨n, hn, rfl⟩ := mem_map.mp (mem_of_mem_filter (hp.mem_iff.mp hmem))
    exact ⟨n, hn, rfl⟩
  refine ⟨?_, ?_, ?_⟩
  · intro p hmem
    obtain ⟨n, hn, rfl⟩ := hpair p hmem
    exact (mem_nearest hn).1
  · intro p hmem
    obtain ⟨n, hn, rfl⟩ := hpair p hmem
    apply walk_keeps (P := fun id => ∃ c ∈ db.candidates, c.id = id) _ MAX_STEPS (mem_nearest hn).2
    intro a b hab
    obtain ⟨m, hm, rfl⟩ := edge_mem hab
    exact (mem_nearest hm).2
  · intro p hmem q hq c hc hid
    obtain ⟨m, hm, rfl⟩ := hpair p hmem
    obtain ⟨n, hn, rfl⟩ := hpair q hq
    obtain ⟨hshort, hends⟩ := he n hn
    obtain ⟨k, hk⟩ : ∃ k, links (sel.edge db) k n.survivor_id
        = some (walk (sel.edge db) MAX_STEPS n.survivor_id) := links_walk MAX_STEPS n.survivor_id
    exact hends k _ hk (edge_walk hshort) m hm c hc hid

theorem Reviewed.ready (h : Reviewed db db') (hv : db.Valid) (hr : Ready db pairs) :
    Ready db' pairs := by
  refine ⟨?_, ?_, ?_⟩
  · intro p hp
    obtain ⟨d, hd, hid, hhash⟩ := hr.duplicate p hp
    obtain ⟨r, hnew⟩ := h.new hd
    exact ⟨_, hnew, hid, hhash⟩
  · intro p hp
    obtain ⟨c, hc, hid⟩ := hr.survivor p hp
    obtain ⟨r, hnew⟩ := h.new hc
    exact ⟨_, hnew, hid⟩
  · intro p hp q hq c' hc' hid hpart
    obtain ⟨c, hc, r, rfl⟩ := h.old hc'
    exact hr.apart p hp q hq c hc hid (h.part hv hc hpart)

theorem Reviewed.settled {pass : DedupePass} (h : Reviewed db db') (hv' : db'.Valid)
    (hlocked : pass.locked = true) (hu : unblocked (some pass) db db' = true)
    (hs : Settled db pass.pairs) : Settled db' pass.pairs := by
  intro p hp d' hd' hid
  obtain ⟨d, hd, r, rfl⟩ := h.old hd'
  have hlocks : pass.locks d.id = true := by
    unfold DedupePass.locks
    rw [hlocked, Bool.true_and, any_eq_true]
    refine ⟨p, hp, ?_⟩
    rw [Bool.or_eq_true, beq_iff_eq]
    exact .inl hid.symm
  have hkept := all_eq_true.mp hu d hd
  rw [hlocks, Bool.not_true, Bool.false_or, decide_eq_true_iff] at hkept
  rw [Table.eq_of_key hv'.ids hd' hkept rfl, h.1]
  exact hs p hp d hd hid

theorem inv_call {c : Call} (hi : s.Inv) (hst : s.step lower (.call c) = some s') : s'.Inv := by
  dsimp only [DedupeState.step] at hst
  split at hst
  · rename_i hu
    cases hst
    have hr := reviewed_call lower s.db c
    have hv' := hr.valid hi.valid
    refine ⟨hv', ?_, ?_⟩
    · intro pass hp
      exact hr.ready hi.valid (hi.ready pass hp)
    · intro pass hp hl
      rw [show s.pass = some pass from hp] at hu
      exact hr.settled hv' hl hu (hi.settled pass hp hl)
  · cases hst

theorem inv_select {sel : Selection} {missing : Nat} (hi : s.Inv) (he : sel.Ends s.db)
    (hst : s.step lower (.select sel pairs missing) = some s') : s'.Inv := by
  dsimp only [DedupeState.step] at hst
  split at hst
  · rename_i hp
    cases hst
    rw [Bool.and_eq_true, isPerm_iff] at hp
    refine ⟨hi.valid, ?_, ?_⟩
    · intro pass hpass
      cases hpass
      exact ready_select he hp.2
    · intro pass hpass hl
      cases hpass
      cases hl
  · cases hst

theorem inv_lock (hi : s.Inv) (hs : ∀ pass, s.pass = some pass → Settled s.db pass.pairs)
    (hst : s.step lower .lock = some s') : s'.Inv := by
  obtain ⟨pass, hpass, hst⟩ := Option.bind_eq_some_iff.mp hst
  split at hst
  · cases hst
  cases hst
  refine ⟨hi.valid, ?_, ?_⟩
  · intro pass' hpass'
    cases hpass'
    exact hi.ready pass hpass
  · intro pass' hpass' _
    cases hpass'
    exact hs pass hpass

theorem commit_ok (hv : s.db.Valid) (hst : s.step lower .commit = some s') :
    ∃ pass, s.pass = some pass ∧ pass.locked = true ∧ Merged s.db pass.pairs s'.db ∧
      s'.pass = none := by
  obtain ⟨pass, hpass, hst⟩ := Option.bind_eq_some_iff.mp hst
  split at hst
  · rename_i hl
    obtain ⟨r, hr, rfl⟩ := Option.map_eq_some_iff.mp hst
    exact ⟨pass, hpass, hl, merged_applyMerges hv hr, rfl⟩
  · cases hst

theorem inv_step (s s' : DedupeState) (l : DedupeLabel) (hi : s.Inv) (hm : s.Meets l)
    (hst : s.step lower l = some s') : s'.Inv := by
  cases l with
  | call c => exact inv_call hi hst
  | select sel pairs missing => exact inv_select hi hm hst
  | lock => exact inv_lock hi hm hst
  | commit =>
    obtain ⟨pass, -, -, hmerged, hnone⟩ := commit_ok hi.valid hst
    refine ⟨hmerged.valid, ?_, ?_⟩
    · intro pass' hpass'
      rw [hnone] at hpass'
      cases hpass'
    · intro pass' hpass'
      rw [hnone] at hpass'
      cases hpass'
  | abort =>
    obtain ⟨pass, -, rfl⟩ := Option.map_eq_some_iff.mp hst
    refine ⟨hi.valid, ?_, ?_⟩
    · intro pass' hpass'
      cases hpass'
    · intro pass' hpass'
      cases hpass'

theorem sound_abort (hr : Ready db pairs) : Sound db db pairs where
  duplicates p hp := by
    obtain ⟨d, hd, hid, -⟩ := hr.duplicate p hp
    exact ⟨d, hd, hid, .inl hd⟩
  targets := hr.survivor
  graded c hc _ := ⟨c, hc, .refl c⟩
  written _ hr := .inl hr
  others c hc hgone := (hgone c hc rfl).elim

theorem sound_merged (hv : db.Valid) (hr : Ready db pairs) (hs : Settled db pairs)
    (hparts : ∀ c ∈ db.candidates, Gone db pairs c → c.reviewed_at = none)
    (hm : Merged db pairs db') : Sound db db' pairs := by
  have htargets : ∀ p ∈ pairs, ∃ c ∈ db'.candidates, c.id = p.survivor_id := by
    intro p hp
    obtain ⟨c, hc, hid⟩ := hr.survivor p hp
    obtain ⟨c', hc', hl⟩ := hm.kept c hc fun ⟨q, hq, _, hpart⟩ => hr.apart q hq p hp c hc hid hpart
    exact ⟨c', hc', hl.id.trans hid⟩
  refine ⟨?_, htargets, ?_, ?_, ?_⟩
  · intro p hp
    obtain ⟨d, hd, hid, hhash⟩ := hr.duplicate p hp
    refine ⟨d, hd, hid, ?_⟩
    have hroot : PartOf db p.dup_id d := .root hd hid
    by_cases hgraded : d.reviewed_at = none
    · right
      have hgone : Gone db pairs d := ⟨p, hp, deletable_iff.mpr ⟨d, hd, hid, hgraded⟩, hroot⟩
      refine ⟨?_, ?_⟩
      · intro c' hc' he
        obtain ⟨c, hc, hl, hnot⟩ := hm.left c' hc'
        rw [Table.eq_of_key hv.ids hc hd (hl.id.symm.trans he)] at hnot
        exact hnot hgone
      · obtain ⟨r, hrec, hcand, hh⟩ := recorded_iff.mp (hm.recorded p hp (htargets p hp))
        refine ⟨r, hrec, hh.trans hhash.symm, ?_⟩
        rw [hcand]
        exact htargets p hp
    · left
      refine hm.untouched d hd (fun hg => hgraded (hparts d hd hg)) ?_
      intro q hq he
      exact hr.apart p hp q hq d hd he.symm hroot
  · intro c hc hgraded
    exact hm.kept c hc fun hg => hgraded (hparts c hc hg)
  · intro r hr'
    rcases hm.new r hr' with hold | ⟨p, hp, rfl, hnot⟩
    · exact .inl hold
    · refine .inr ⟨p, hp, rfl, ?_⟩
      intro d hd hid
      rcases hs p hp d hd hid with hnone | hrec
      · exact hnone
      · rw [hrec] at hnot
        cases hnot
  · intro c hc hgone
    by_contra hnone
    obtain ⟨c', hc', hl⟩ := hm.kept c hc fun ⟨p, hp, _, hpart⟩ => hnone ⟨p, hp, hpart⟩
    exact hgone c' hc' hl.id

theorem inv_reachable (hr : (dedupeSystem lower).ReachableOn DedupeState.Meets s) : s.Inv := by
  refine LTS.InductiveOn.reachable ⟨?_, ?_⟩ hr
  · intro s ⟨hv, hnone⟩
    refine ⟨hv, ?_, ?_⟩
    · intro pass hpass
      rw [hnone] at hpass
      cases hpass
    · intro pass hpass
      rw [hnone] at hpass
      cases hpass
  · intro s l s' hi hm hst
    exact inv_step s s' l hi hm hst

/-- In a run whose steps all meet the condition, every pass that ends has been sound. -/
theorem sound_of_reachable {l : DedupeLabel} {pass : DedupePass}
    (hr : (dedupeSystem lower).ReachableOn DedupeState.Meets s) (hpass : s.pass = some pass)
    (hm : s.Meets l) (hst : s.step lower l = some s') (hend : s'.pass = none) :
    Sound s.db s'.db pass.pairs := by
  have hi := inv_reachable hr
  cases l with
  | call c =>
    dsimp only [DedupeState.step] at hst
    split at hst
    · cases hst
      rw [show s.pass = none from hend] at hpass
      cases hpass
    · cases hst
  | select sel pairs missing =>
    dsimp only [DedupeState.step] at hst
    split at hst
    · cases hst
      cases hend
    · cases hst
  | lock =>
    obtain ⟨pass', -, hst⟩ := Option.bind_eq_some_iff.mp hst
    split at hst
    · cases hst
    · cases hst
      cases hend
  | commit =>
    obtain ⟨pass', hpass', hl, hmerged, -⟩ := commit_ok hi.valid hst
    have he : pass' = pass := Option.some.inj (hpass'.symm.trans hpass)
    rw [he] at hl hmerged
    exact sound_merged hi.valid (hi.ready pass hpass) (hi.settled pass hpass hl)
      (hm pass hpass) hmerged
  | abort =>
    obtain ⟨pass', -, rfl⟩ := Option.map_eq_some_iff.mp hst
    exact sound_abort (hi.ready pass hpass)

end Pass

section Example

def zero : Double := ⟨⟨false, 0, 0, Dec.zero_normal⟩, Double.zero_fixed⟩

def said (id : Uuid) (text : String) (created_at : Time) : Candidate :=
  ⟨id, units "dana", units text, [1], none, some [], none, none, none, none, none, none, none,
    created_at⟩

/-- Two candidates that say the same. -/
def restated : Db := ⟨[said 1 "a" 0, said 2 "b" 1000], [], []⟩

def passStart : DedupeState := ⟨restated, none, none⟩

def nearestFirst : Selection where
  ns := none
  batchSize := 200
  cutoff := zero
  cosine _ _ := some zero
  near _ := some 1

def onePair : List MergeRow := [⟨2, 1, units "dana", units "b", 1000, [1], none, zero⟩]

theorem nearest_restated : nearestFirst.nearest restated = onePair := by decide +kernel

theorem restated_ungraded {c : Candidate} (hc : c ∈ restated.candidates) :
    c.reviewed_at = none ∧ c.parent_id = none := by
  rcases mem_cons.mp hc with rfl | hc
  · exact ⟨rfl, rfl⟩
  · rw [mem_singleton.mp hc]
    exact ⟨rfl, rfl⟩

theorem valid_restated : restated.Valid where
  ids := by decide
  whole c hc := by
    apply Cascade.hasParent_iff.mpr
    intro p hp
    rw [(restated_ungraded hc).2] at hp
    cases hp
  target r hr := (not_mem_nil hr).elim

theorem ends_restated : nearestFirst.Ends restated := by
  have hedge : nearestFirst.edge restated 1 = none := by decide +kernel
  unfold Selection.Ends
  rw [nearest_restated]
  intro n hn
  rw [mem_singleton.mp hn]
  refine ⟨?_, ?_⟩
  · show (nearestFirst.edge restated 1).bind _ = none
    rw [hedge]
    rfl
  · intro k e hk _ m hm c hc hid hpart
    rw [mem_singleton.mp hm] at hpart
    cases k with
    | zero =>
      cases hk
      cases hpart with
      | root _ he =>
        rw [hid] at he
        cases he
      | part _ hp _ =>
        rw [(restated_ungraded hc).2] at hp
        cases hp
    | succ k =>
      have hnone : (nearestFirst.edge restated 1).bind (links (nearestFirst.edge restated) k) =
          some e := hk
      rw [hedge] at hnone
      cases hnone

def lockedPass : DedupeState := ⟨restated, some ⟨onePair, true, 0⟩, none⟩

theorem reachable_lockedPass :
    (dedupeSystem id).ReachableOn DedupeState.Meets lockedPass := by
  have hselect : passStart.step id (.select nearestFirst onePair 0) =
      some ⟨restated, some ⟨onePair, false, 0⟩, none⟩ := by
    have hpairs : onePair.isPerm (nearestFirst.pairs restated) = true := by decide +kernel
    simp only [DedupeState.step, passStart, hpairs, Option.isNone_none, Bool.true_and, if_true]
  have hlock : DedupeState.step id ⟨restated, some ⟨onePair, false, 0⟩, none⟩ .lock =
      some lockedPass := rfl
  refine ⟨passStart, [.select nearestFirst onePair 0, .lock], ⟨valid_restated, rfl⟩,
    .cons ends_restated hselect (.cons ?_ hlock (.nil _))⟩
  intro pass hpass p _ d hd _
  cases hpass
  exact .inl (restated_ungraded hd).1

theorem sound_lockedPass : ∃ db' : Db, Sound restated db' onePair := by
  have hcommit : ((lockedPass.step id .commit).any fun s => s.pass.isNone) = true := by
    decide +kernel
  obtain ⟨s', hst, hend⟩ := (Option.any_eq_true _ _).mp hcommit
  refine ⟨s'.db, sound_of_reachable reachable_lockedPass rfl ?_ hst (Option.isNone_iff_eq_none.mp hend)⟩
  intro pass _ c hc _
  exact (restated_ungraded hc).1

def gradedRun : List DedupeLabel :=
  [.select nearestFirst onePair 0,
    .call (.gradeCandidate ⟨5, 1, fun _ => 2⟩ ⟨units "dana",
      units "00000000-0000-0000-0000-000000000002", .promoted, units "dana", none, none, none⟩),
    .lock]

def recordsGraded (s s' : DedupeState) : Bool :=
  s.pass.any fun pass => s'.pass.isNone &&
    s'.db.reinforcements.any (fun r => decide (r ∉ s.db.reinforcements)) &&
    pass.pairs.all fun p => s.db.candidates.any fun d => d.id == p.dup_id && d.reviewed_at.isSome

theorem gradedRun_eq : ((LTS.exec (DedupeState.step id) passStart gradedRun).any fun s =>
    (s.step id .commit).any (recordsGraded s)) = true := by decide +kernel

theorem graded_duplicate_recorded : ¬ ∀ (lower : Str → Str) (s s' : DedupeState)
    (l : DedupeLabel) (pass : DedupePass), (dedupeSystem lower).Reachable s →
    s.pass = some pass → s.step lower l = some s' → s'.pass = none →
    Sound s.db s'.db pass.pairs := by
  intro hclaim
  obtain ⟨s, hrun, h⟩ := (Option.any_eq_true _ _).mp gradedRun_eq
  obtain ⟨s', hst, h⟩ := (Option.any_eq_true _ _).mp h
  obtain ⟨pass, hpass, h⟩ := (Option.any_eq_true _ _).mp h
  rw [Bool.and_eq_true, Bool.and_eq_true, Option.isNone_iff_eq_none, any_eq_true] at h
  obtain ⟨⟨hend, r, hr, hnew⟩, hall⟩ := h
  have hreach : (dedupeSystem id).Reachable s :=
    ⟨passStart, gradedRun, ⟨valid_restated, rfl⟩, LTS.runOn_of_exec_any hrun⟩
  rcases (hclaim id s s' .commit pass hreach hpass hst hend).written r hr with hold | ⟨p, hp, -, hnone⟩
  · exact of_decide_eq_true hnew hold
  · obtain ⟨d, hd, hgraded⟩ := any_eq_true.mp (all_eq_true.mp hall p hp)
    rw [Bool.and_eq_true, beq_iff_eq] at hgraded
    rw [hnone d hd hgraded.1] at hgraded
    cases hgraded.2

end Example

end OpenBrain.Server.CandidateReview
