import OpenBrain.Server.CandidateReview.Dedupe

/-!
# What the merges of a pass leave

The rows that go are those of an ungraded duplicate, and the parts below one (`Gone`); what
stays has at most a later `last_said_at`. A reinforcement is there in the end as long as its
candidate is. `Merged` says all of it, for one merge (`merged_applyMerge`) and so for a pass
(`merged_applyMerges`).
-/
namespace OpenBrain.Server.CandidateReview
open OpenBrain.Core List

/-- The key of `candidate_memory`, and the foreign keys to it. -/
structure Db.Valid (db : Db) : Prop where
  ids : (db.candidates.map Candidate.id).Nodup
  whole : Cascade.Whole Candidate.id Candidate.parent_id db.candidates
  target : ∀ r ∈ db.reinforcements, ∃ c ∈ db.candidates, c.id = r.candidate_id

def PartOf (db : Db) (head : Uuid) (c : Candidate) : Prop :=
  Cascade.Below Candidate.id Candidate.parent_id db.candidates head c

/-- The row as merges into it leave it. -/
def Later (c c' : Candidate) : Prop := ∃ t, c' = { c with last_said_at := t }

/-- Every row of `db'` is one of `db`, or a later one. -/
def Narrows (db db' : Db) : Prop := ∀ c' ∈ db'.candidates, ∃ c ∈ db.candidates, Later c c'

/-- The row is, or is a part of, an ungraded duplicate. -/
def Gone (db : Db) (pairs : List MergeRow) (c : Candidate) : Prop :=
  ∃ p ∈ pairs, deletable db p.dup_id = true ∧ PartOf db p.dup_id c

structure Merged (db : Db) (pairs : List MergeRow) (db' : Db) : Prop where
  valid : db'.Valid
  kept : ∀ c ∈ db.candidates, ¬ Gone db pairs c → ∃ c' ∈ db'.candidates, Later c c'
  untouched : ∀ c ∈ db.candidates, ¬ Gone db pairs c → (∀ p ∈ pairs, p.survivor_id ≠ c.id) →
    c ∈ db'.candidates
  left : ∀ c' ∈ db'.candidates, ∃ c ∈ db.candidates, Later c c' ∧ ¬ Gone db pairs c
  survivor : ∀ p ∈ pairs, ∃ c ∈ db.candidates, c.id = p.survivor_id
  old : ∀ r ∈ db.reinforcements, (∃ c ∈ db'.candidates, c.id = r.candidate_id) →
    r ∈ db'.reinforcements
  new : ∀ r ∈ db'.reinforcements, r ∈ db.reinforcements ∨
    ∃ p ∈ pairs, r = p.reinforcement ∧ p.recorded db.reinforcements = false
  recorded : ∀ p ∈ pairs, (∃ c ∈ db'.candidates, c.id = p.survivor_id) →
    p.recorded db'.reinforcements = true

/-! ## Rows that stay -/

section Rows
variable {db db' : Db} {c c' c'' : Candidate} {head : Uuid}

theorem Later.refl (c : Candidate) : Later c c := ⟨c.last_said_at, rfl⟩

theorem Later.trans (h : Later c c') (h' : Later c' c'') : Later c c'' := by
  obtain ⟨t, rfl⟩ := h
  obtain ⟨t', rfl⟩ := h'
  exact ⟨t', rfl⟩

theorem Later.id (h : Later c c') : c'.id = c.id := by
  obtain ⟨t, rfl⟩ := h
  rfl

theorem Later.parent_id (h : Later c c') : c'.parent_id = c.parent_id := by
  obtain ⟨t, rfl⟩ := h
  rfl

theorem Later.reviewed_at (h : Later c c') : c'.reviewed_at = c.reviewed_at := by
  obtain ⟨t, rfl⟩ := h
  rfl

theorem deletable_iff : deletable db head = true ↔
    ∃ c ∈ db.candidates, c.id = head ∧ c.reviewed_at = none := by
  simp [deletable]

theorem Narrows.within (h : Narrows db db') :
    Cascade.Within Candidate.id Candidate.parent_id db.candidates db'.candidates := by
  intro c' hc'
  obtain ⟨c, hc, hl⟩ := h c' hc'
  exact ⟨c, hc, hl.id.symm, hl.parent_id.symm⟩

theorem Db.Valid.later (hv : db.Valid) (hn : Narrows db db') (hc : c ∈ db.candidates)
    (hc' : c' ∈ db'.candidates) (he : c'.id = c.id) : Later c c' := by
  obtain ⟨c₀, hc₀, hl⟩ := hn c' hc'
  have hsame : c₀ = c := Table.eq_of_key hv.ids hc₀ hc (hl.id.symm.trans he)
  rw [← hsame]
  exact hl

/-- What a deletion takes is the same before and after merges that keep the row. -/
theorem dead_iff (hv : db.Valid) (hv' : db'.Valid) (hn : Narrows db db')
    (hc : c ∈ db.candidates) (hc' : c' ∈ db'.candidates) (he : c'.id = c.id) :
    (deletable db head = true ∧ PartOf db head c) ↔
      (deletable db' head = true ∧ PartOf db' head c') := by
  constructor
  · intro ⟨hdel, hpart⟩
    have hpart' : PartOf db' head c' := hpart.within hv.ids hn.within hv'.whole hc' he
    obtain ⟨d, hd, hid, hnone⟩ := deletable_iff.mp hdel
    obtain ⟨d', hd', hid'⟩ := hpart'.exists_root
    have hl : Later d d' := hv.later hn hd hd' (hid'.trans hid.symm)
    exact ⟨deletable_iff.mpr ⟨d', hd', hid', hl.reviewed_at.trans hnone⟩, hpart'⟩
  · intro ⟨hdel, hpart⟩
    obtain ⟨d', hd', hid', hnone⟩ := deletable_iff.mp hdel
    obtain ⟨d, hd, hl⟩ := hn d' hd'
    exact ⟨deletable_iff.mpr ⟨d, hd, hl.id.symm.trans hid', hl.reviewed_at.symm.trans hnone⟩,
      hpart.of_within hv.ids hn.within hc he.symm⟩

end Rows

/-! ## One merge -/

section Merge
variable {db db' : Db} {pair : MergeRow} {summary summary' : CandidateDedupeSummary}

theorem recorded_iff {rs : List Reinforcement} : pair.recorded rs = true ↔
    ∃ r ∈ rs, r.candidate_id = pair.survivor_id ∧ r.dup_content_hash = pair.dup_content_hash := by
  simp [MergeRow.recorded]

def reinforced (db : Db) (pair : MergeRow) : Db where
  candidates := Table.updateWhere (fun c => c.id == pair.survivor_id)
    (·.advance pair.dup_occurred_at) db.candidates
  grades := db.grades
  reinforcements :=
    if pair.recorded db.reinforcements then db.reinforcements
    else db.reinforcements ++ [pair.reinforcement]

theorem applyMerge_ok (hv : db.Valid) (h : applyMerge db pair summary = some (db', summary')) :
    (∃ c ∈ db.candidates, c.id = pair.survivor_id) ∧
      db' = if deletable (reinforced db pair) pair.dup_id
        then deleteCandidate (reinforced db pair) pair.dup_id else reinforced db pair := by
  unfold applyMerge at h
  dsimp only at h
  by_cases hrec : pair.recorded db.reinforcements = true
  · obtain ⟨r, hr, hcand, -⟩ := recorded_iff.mp hrec
    obtain ⟨c, hc, hid⟩ := hv.target r hr
    refine ⟨⟨c, hc, hid.trans hcand⟩, ?_⟩
    have hre : reinforced db pair = ⟨Table.updateWhere (fun c => c.id == pair.survivor_id)
        (·.advance pair.dup_occurred_at) db.candidates, db.grades, db.reinforcements⟩ := by
      unfold reinforced
      rw [if_pos hrec]
    rw [hrec] at h
    cases h
    rw [hre]
    rfl
  · have hre : reinforced db pair = ⟨Table.updateWhere (fun c => c.id == pair.survivor_id)
        (·.advance pair.dup_occurred_at) db.candidates, db.grades,
        db.reinforcements ++ [pair.reinforcement]⟩ := by
      unfold reinforced
      rw [if_neg hrec]
    rw [Bool.not_eq_true] at hrec
    rw [hrec] at h
    split at h
    · cases h
    rename_i hthere
    cases h
    refine ⟨by simpa using hthere, ?_⟩
    rw [hre]
    rfl

theorem narrows_reinforced (db : Db) (pair : MergeRow) : Narrows db (reinforced db pair) := by
  intro c' hc'
  rcases Table.mem_updateWhere.mp hc' with ⟨hc, -⟩ | ⟨c, hc, -, rfl⟩
  · exact ⟨c', hc, .refl c'⟩
  · exact ⟨c, hc, _, rfl⟩

theorem later_reinforced (pair : MergeRow) {c : Candidate} (hc : c ∈ db.candidates) :
    ∃ c' ∈ (reinforced db pair).candidates, Later c c' := by
  by_cases hid : (c.id == pair.survivor_id) = true
  · exact ⟨_, Table.mem_updateWhere.mpr (.inr ⟨c, hc, hid, rfl⟩), _, rfl⟩
  · exact ⟨c, Table.mem_updateWhere.mpr (.inl ⟨hc, Bool.eq_false_iff.mpr hid⟩), .refl c⟩

theorem untouched_reinforced {c : Candidate} (hc : c ∈ db.candidates)
    (hne : pair.survivor_id ≠ c.id) : c ∈ (reinforced db pair).candidates :=
  Table.mem_updateWhere.mpr (.inl ⟨hc, beq_eq_false_iff_ne.mpr hne.symm⟩)

theorem valid_reinforced (hv : db.Valid) (hs : ∃ c ∈ db.candidates, c.id = pair.survivor_id) :
    (reinforced db pair).Valid := by
  have hthere : ∀ id, (∃ c ∈ db.candidates, c.id = id) →
      ∃ c ∈ (reinforced db pair).candidates, c.id = id := by
    intro id ⟨c, hc, hid⟩
    obtain ⟨c', hc', hl⟩ := later_reinforced pair hc
    exact ⟨c', hc', hl.id.trans hid⟩
  refine ⟨?_, ?_, ?_⟩
  · have hids : (reinforced db pair).candidates.map Candidate.id = db.candidates.map Candidate.id :=
      Table.column_updateWhere fun _ => rfl
    rw [hids]
    exact hv.ids
  · intro c' hc'
    obtain ⟨c, hc, hl⟩ := narrows_reinforced db pair c' hc'
    apply Cascade.hasParent_iff.mpr
    intro p hp
    exact hthere p (Cascade.hasParent_iff.mp (hv.whole c hc) p (hl.parent_id.symm.trans hp))
  · intro r hr
    unfold reinforced at hr
    dsimp only at hr
    split at hr
    · exact hthere _ (hv.target r hr)
    · rcases mem_append.mp hr with hr | hr
      · exact hthere _ (hv.target r hr)
      · rw [mem_singleton.mp hr]
        exact hthere _ hs

theorem mem_reinforced {r : Reinforcement} (h : r ∈ (reinforced db pair).reinforcements) :
    r ∈ db.reinforcements ∨ r = pair.reinforcement ∧ pair.recorded db.reinforcements = false := by
  unfold reinforced at h
  dsimp only at h
  split at h
  · exact .inl h
  · rename_i hrec
    rcases mem_append.mp h with h | h
    · exact .inl h
    · exact .inr ⟨mem_singleton.mp h, Bool.eq_false_iff.mpr hrec⟩

theorem old_reinforced {r : Reinforcement} (h : r ∈ db.reinforcements) :
    r ∈ (reinforced db pair).reinforcements := by
  unfold reinforced
  dsimp only
  split
  · exact h
  · exact mem_append_left _ h

theorem recorded_reinforced (db : Db) (pair : MergeRow) :
    pair.recorded (reinforced db pair).reinforcements = true := by
  unfold reinforced
  dsimp only
  split
  · assumption
  · exact recorded_iff.mpr ⟨pair.reinforcement, mem_append_right _ mem_cons_self, rfl, rfl⟩

/-! ### The deletion -/

theorem mem_deleteCandidate (hv : db.Valid) {id : Uuid} {c : Candidate} :
    c ∈ (deleteCandidate db id).candidates ↔ c ∈ db.candidates ∧ ¬ PartOf db id c := by
  constructor
  · intro h
    have hc := (Cascade.deleteCascade_sublist id db.candidates).subset h
    exact ⟨hc, (Cascade.mem_deleteCascade hv.ids hv.whole hc).mp h⟩
  · intro ⟨hc, hnot⟩
    exact (Cascade.mem_deleteCascade hv.ids hv.whole hc).mpr hnot

theorem mem_deleteCandidate_reinforcements {id : Uuid} {r : Reinforcement} :
    r ∈ (deleteCandidate db id).reinforcements ↔ r ∈ db.reinforcements ∧
      ∃ c ∈ (deleteCandidate db id).candidates, c.id = r.candidate_id := by
  simp [deleteCandidate]

theorem valid_deleteCandidate (hv : db.Valid) (id : Uuid) : (deleteCandidate db id).Valid where
  ids := ((Cascade.deleteCascade_sublist id db.candidates).map Candidate.id).nodup hv.ids
  whole := Cascade.whole_deleteCascade id db.candidates
  target _ hr := (mem_deleteCandidate_reinforcements.mp hr).2

theorem merged_applyMerge (hv : db.Valid) (h : applyMerge db pair summary = some (db', summary')) :
    Merged db [pair] db' := by
  obtain ⟨hs, he⟩ := applyMerge_ok hv h
  have hmid := valid_reinforced hv hs
  have hn := narrows_reinforced db pair
  have hgone : ∀ c ∈ db.candidates, ∀ c' ∈ (reinforced db pair).candidates, Later c c' →
      (Gone db [pair] c ↔ deletable (reinforced db pair) pair.dup_id = true ∧
        PartOf (reinforced db pair) pair.dup_id c') := by
    intro c hc c' hc' hl
    rw [← dead_iff hv hmid hn hc hc' hl.id]
    simp [Gone]
  have hsurvivor : ∀ p ∈ [pair], ∃ c ∈ db.candidates, c.id = p.survivor_id := by
    intro p hp
    rw [mem_singleton.mp hp]
    exact hs
  by_cases hdel : deletable (reinforced db pair) pair.dup_id = true
  · rw [if_pos hdel] at he
    subst he
    refine ⟨valid_deleteCandidate hmid _, ?_, ?_, ?_, hsurvivor, ?_, ?_, ?_⟩
    · intro c hc hnot
      obtain ⟨c', hc', hl⟩ := later_reinforced pair hc
      refine ⟨c', (mem_deleteCandidate hmid).mpr ⟨hc', ?_⟩, hl⟩
      intro hpart
      exact hnot ((hgone c hc c' hc' hl).mpr ⟨hdel, hpart⟩)
    · intro c hc hnot hne
      have hc' := untouched_reinforced hc (hne pair (mem_singleton_self pair))
      refine (mem_deleteCandidate hmid).mpr ⟨hc', ?_⟩
      intro hpart
      exact hnot ((hgone c hc c hc' (.refl c)).mpr ⟨hdel, hpart⟩)
    · intro c' hc'
      obtain ⟨hc', hnot⟩ := (mem_deleteCandidate hmid).mp hc'
      obtain ⟨c, hc, hl⟩ := hn c' hc'
      exact ⟨c, hc, hl, fun hg => hnot ((hgone c hc c' hc' hl).mp hg).2⟩
    · intro r hr hthere
      exact mem_deleteCandidate_reinforcements.mpr ⟨old_reinforced hr, hthere⟩
    · intro r hr
      rcases mem_reinforced (mem_deleteCandidate_reinforcements.mp hr).1 with hold | hnew
      · exact .inl hold
      · exact .inr ⟨pair, mem_singleton_self pair, hnew⟩
    · intro p hp hthere
      rw [mem_singleton.mp hp] at hthere ⊢
      obtain ⟨r, hr, hcand, hhash⟩ := recorded_iff.mp (recorded_reinforced db pair)
      refine recorded_iff.mpr ⟨r, mem_deleteCandidate_reinforcements.mpr ⟨hr, ?_⟩, hcand, hhash⟩
      rw [hcand]
      exact hthere
  · rw [if_neg hdel] at he
    subst he
    refine ⟨hmid, ?_, ?_, ?_, hsurvivor, ?_, ?_, ?_⟩
    · intro c hc _
      exact later_reinforced pair hc
    · intro c hc _ hne
      exact untouched_reinforced hc (hne pair (mem_singleton_self pair))
    · intro c' hc'
      obtain ⟨c, hc, hl⟩ := hn c' hc'
      exact ⟨c, hc, hl, fun hg => hdel ((hgone c hc c' hc' hl).mp hg).1⟩
    · intro r hr _
      exact old_reinforced hr
    · intro r hr
      rcases mem_reinforced hr with hold | hnew
      · exact .inl hold
      · exact .inr ⟨pair, mem_singleton_self pair, hnew⟩
    · intro p hp _
      rw [mem_singleton.mp hp]
      exact recorded_reinforced db pair

end Merge

/-! ## The merges of a pass -/

section Merges
variable {db db' db'' : Db} {pairs more : List MergeRow} {summary summary' : CandidateDedupeSummary}

theorem Merged.narrows (h : Merged db pairs db') : Narrows db db' := by
  intro c' hc'
  obtain ⟨c, hc, hl, -⟩ := h.left c' hc'
  exact ⟨c, hc, hl⟩

theorem Merged.nil (hv : db.Valid) : Merged db [] db where
  valid := hv
  kept c hc _ := ⟨c, hc, .refl c⟩
  untouched _ hc _ _ := hc
  left c hc := ⟨c, hc, .refl c, fun ⟨_, hp, _⟩ => not_mem_nil hp⟩
  survivor _ hp := (not_mem_nil hp).elim
  old _ hr _ := hr
  new _ hr := .inl hr
  recorded _ hp := (not_mem_nil hp).elim

/-- What goes by the further merges was there for them, and goes by them. -/
theorem Merged.gone_append (hv : db.Valid) (h : Merged db pairs db') {c c' : Candidate}
    (hc : c ∈ db.candidates) (hc' : c' ∈ db'.candidates) (hl : Later c c') :
    Gone db (pairs ++ more) c ↔ Gone db' more c' := by
  have hnot : ¬ Gone db pairs c := by
    obtain ⟨c₀, hc₀, hl₀, hnot⟩ := h.left c' hc'
    rw [Table.eq_of_key hv.ids hc₀ hc (hl₀.id.symm.trans hl.id)] at hnot
    exact hnot
  constructor
  · intro ⟨p, hp, hdead⟩
    rcases mem_append.mp hp with hp | hp
    · exact (hnot ⟨p, hp, hdead⟩).elim
    · exact ⟨p, hp, (dead_iff hv h.valid h.narrows hc hc' hl.id).mp hdead⟩
  · intro ⟨p, hp, hdead⟩
    exact ⟨p, mem_append_right pairs hp,
      (dead_iff hv h.valid h.narrows hc hc' hl.id).mpr hdead⟩

theorem Merged.trans (hv : db.Valid) (h : Merged db pairs db') (h' : Merged db' more db'') :
    Merged db (pairs ++ more) db'' := by
  have hback : ∀ id, (∃ c ∈ db''.candidates, c.id = id) → ∃ c ∈ db'.candidates, c.id = id := by
    intro id ⟨c'', hc'', hid⟩
    obtain ⟨c', hc', hl⟩ := h'.narrows c'' hc''
    exact ⟨c', hc', hl.id.symm.trans hid⟩
  have hfirst : ∀ c, ¬ Gone db (pairs ++ more) c → ¬ Gone db pairs c :=
    fun c hnot ⟨p, hp, hdead⟩ => hnot ⟨p, mem_append_left more hp, hdead⟩
  refine ⟨h'.valid, ?_, ?_, ?_, ?_, ?_, ?_, ?_⟩
  · intro c hc hnot
    obtain ⟨c', hc', hl⟩ := h.kept c hc (hfirst c hnot)
    obtain ⟨c'', hc'', hl'⟩ := h'.kept c' hc' fun hg => hnot ((h.gone_append hv hc hc' hl).mpr hg)
    exact ⟨c'', hc'', hl.trans hl'⟩
  · intro c hc hnot hne
    have hc' := h.untouched c hc (hfirst c hnot) fun p hp => hne p (mem_append_left more hp)
    apply h'.untouched c hc' fun hg => hnot ((h.gone_append hv hc hc' (.refl c)).mpr hg)
    exact fun p hp => hne p (mem_append_right pairs hp)
  · intro c'' hc''
    obtain ⟨c', hc', hl', hnot'⟩ := h'.left c'' hc''
    obtain ⟨c, hc, hl, -⟩ := h.left c' hc'
    exact ⟨c, hc, hl.trans hl', fun hg => hnot' ((h.gone_append hv hc hc' hl).mp hg)⟩
  · intro p hp
    rcases mem_append.mp hp with hp | hp
    · exact h.survivor p hp
    · obtain ⟨c', hc', hid⟩ := h'.survivor p hp
      obtain ⟨c, hc, hl⟩ := h.narrows c' hc'
      exact ⟨c, hc, hl.id.symm.trans hid⟩
  · intro r hr hthere
    exact h'.old r (h.old r hr (hback _ hthere)) hthere
  · intro r hr
    rcases h'.new r hr with hr | ⟨p, hp, rfl, hnot⟩
    · rcases h.new r hr with hr | ⟨p, hp, rfl, hnot⟩
      · exact .inl hr
      · exact .inr ⟨p, mem_append_left more hp, rfl, hnot⟩
    · refine .inr ⟨p, mem_append_right pairs hp, rfl, ?_⟩
      -- what was recorded at a survivor that is still there is still recorded
      rw [Bool.eq_false_iff]
      intro hrec
      obtain ⟨r, hr, hcand, hhash⟩ := recorded_iff.mp hrec
      have hold : r ∈ db'.reinforcements := by
        apply h.old r hr
        rw [hcand]
        exact h'.survivor p hp
      rw [recorded_iff.mpr ⟨r, hold, hcand, hhash⟩] at hnot
      cases hnot
  · intro p hp hthere
    rcases mem_append.mp hp with hp | hp
    · obtain ⟨r, hr, hcand, hhash⟩ := recorded_iff.mp (h.recorded p hp (hback _ hthere))
      refine recorded_iff.mpr ⟨r, h'.old r hr ?_, hcand, hhash⟩
      rw [hcand]
      exact hthere
    · exact h'.recorded p hp hthere

theorem merged_applyMerges (hv : db.Valid)
    (h : applyMerges db pairs summary = some (db', summary')) : Merged db pairs db' := by
  induction pairs generalizing db summary with
  | nil =>
    cases h
    exact .nil hv
  | cons pair pairs ih =>
    obtain ⟨⟨db₁, summary₁⟩, hone, hrest⟩ := Option.bind_eq_some_iff.mp h
    have hmerged := merged_applyMerge hv hone
    exact hmerged.trans hv (ih hmerged.valid hrest)

end Merges

end OpenBrain.Server.CandidateReview
