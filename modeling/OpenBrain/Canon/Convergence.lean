import OpenBrain.Canon.Reconcile

/-!
# Does a reconcile converge?

`Applied` says what a payload serves once the planned writes are in: under each
key the newest record, a guidance item under its scope key and a repo fact under
its subject. `Converged` is what a second reconcile should find.

`diff_lane` looks a declared entry up by its `key`, and a repo fact is written
under its `subject`, so the two are one identity only where they are equal.

## Results

`converged_iff`: a reconcile converges exactly when `SubjectsAgree`. It does for
every pack whose repo facts have their key as subject (`subjectsAgree_of_eq`),
and guidance lanes always do (`guidance_settles`).
`subject_beside_key_never_converges` is a pack of one entry that does not.
-/
namespace OpenBrain.Canon

open OpenBrain.Core OpenBrain.Core.Py List

/-! ## What the server serves -/

def served (payload : PyJson) (lane : Lane) (key : Str) : Option Str :=
  Assoc.last? (keyed (live_items payload lane)) key

/-- The record a call leaves: its lane, its identity there and its text. -/
def landing : Arguments → Option (Lane × Str × Str)
  | .append_session_event _ content action candidate_type _ key =>
    if action = PROMOTE_ACTION then
      (lanes.find? fun lane => GUIDANCE_CANDIDATE_TYPE lane = some candidate_type).map
        fun lane => (lane, key, content)
    else none
  | .upsert_repo_fact _ subject _ fact _ => subject.map fun subject => (.repo_facts, subject, fact)

def records (writes : List PlannedWrite) (lane : Lane) : List (Str × Str) :=
  writes.filterMap fun write => (landing write.arguments).bind fun r =>
    if r.1 = lane then some r.2 else none

/-- `payload'` serves what `payload` does with the writes on top; the newest
record of each key wins. -/
def Applied (payload : PyJson) (writes : List PlannedWrite) (payload' : PyJson) : Prop :=
  ∀ lane key, served payload' lane key =
    Assoc.last? (keyed (live_items payload lane) ++ records writes lane) key

section Converge

variable (pack : Pack) (payload payload' : PyJson)

/-- What a second reconcile should find: nothing missing, nothing stale, nothing
undeclared that was not there before, and so nothing to write. -/
def Converged (session_key : Str) (provenance : Option FactProvenance) : Prop :=
  (∀ f ∈ diff_pack pack payload', f.status ≠ .missing ∧ f.status ≠ .stale ∧
    (f.status = .undeclared → ∃ g ∈ diff_pack pack payload,
      g.status = .undeclared ∧ g.lane = f.lane ∧ g.key = f.key)) ∧
  plan_writes pack (diff_pack pack payload') session_key provenance = some []

def pending (lane : Lane) : List PackEntry :=
  (pack.entries_for lane).filter fun entry => decide (served payload lane entry.key ≠ some entry.text)

def PackEntry.identity (entry : PackEntry) : Str :=
  if entry.lane = .repo_facts then entry.subject.getD [] else entry.key

def written (lane : Lane) : List (Str × Str) :=
  (pending pack payload lane).map fun entry => (entry.identity, entry.text)

/-- The repo facts to be written and the declared ones agree on their names. -/
structure SubjectsAgree : Prop where
  /-- under the key of a repo fact to be written one is written -/
  reached : ∀ e ∈ pending pack payload .repo_facts,
    ∃ f ∈ pending pack payload .repo_facts, f.identity = e.key
  /-- the last text written under the key of a declared repo fact is its own -/
  own : ∀ e ∈ pack.entries_for .repo_facts, ∀ text,
    Assoc.last? (written pack payload .repo_facts) e.key = some text → text = e.text
  /-- nothing is written under a key that is neither declared nor served -/
  known : ∀ f ∈ pending pack payload .repo_facts,
    f.identity ∈ (pack.entries_for .repo_facts).map PackEntry.key ∨
      (served payload .repo_facts f.identity).isSome = true

/-- A lane where the diff would find all declared texts and no new key. -/
def LaneSettled (lane : Lane) : Prop :=
  (∀ e ∈ pack.entries_for lane, served payload' lane e.key = some e.text) ∧
  ∀ key, key ∉ (pack.entries_for lane).map PackEntry.key →
    (served payload' lane key).isSome = true → (served payload lane key).isSome = true

end Converge

/-! ## The diff, read off -/

section Diff

variable {pack : Pack} {payload payload' : PyJson} {lane : Lane}

theorem lookup_by_key (payload : PyJson) (lane : Lane) (key : Str) :
    (Assoc.ofWrites (keyed (live_items payload lane))).lookup key = served payload lane key :=
  Assoc.lookup_ofWrites _ _

theorem status_declared (payload : PyJson) (lane : Lane) (e : PackEntry) :
    (declaredFinding (Assoc.ofWrites (keyed (live_items payload lane))) lane e).status =
      match served payload lane e.key with
      | none => .missing
      | some live => if live = e.text then .matched else .stale := by
  unfold declaredFinding
  rw [lookup_by_key]
  cases served payload lane e.key <;> rfl

theorem status_declared_matched {e : PackEntry} (h : served payload lane e.key = some e.text) :
    (declaredFinding (Assoc.ofWrites (keyed (live_items payload lane))) lane e).status =
      .matched := by
  rw [status_declared, h]
  exact if_pos rfl

theorem status_declared_pending {e : PackEntry} (h : served payload lane e.key ≠ some e.text) :
    (declaredFinding (Assoc.ofWrites (keyed (live_items payload lane))) lane e).status = .missing ∨
      (declaredFinding (Assoc.ofWrites (keyed (live_items payload lane))) lane e).status =
        .stale := by
  rw [status_declared]
  cases hs : served payload lane e.key with
  | none => exact .inl rfl
  | some live =>
    rw [hs] at h
    exact .inr (if_neg fun heq => h (congrArg some heq))

theorem declaredFinding_lane_key (by_key : List (Str × Str)) (lane : Lane) (e : PackEntry) :
    (declaredFinding by_key lane e).lane = lane ∧ (declaredFinding by_key lane e).key = e.key := by
  unfold declaredFinding
  split <;> exact ⟨rfl, rfl⟩

theorem mem_undeclaredKeys {declared : List PackEntry} {key : Str} :
    key ∈ undeclaredKeys (Assoc.ofWrites (keyed (live_items payload lane))) declared ↔
      (served payload lane key).isSome = true ∧ key ∉ declared.map PackEntry.key := by
  unfold undeclaredKeys
  rw [mem_insertionSort, mem_filter, Assoc.mem_keys_ofWrites_iff]
  simp [served]

theorem mem_diff_lane {f : DriftFinding} {declared : List PackEntry} :
    f ∈ diff_lane declared (live_items payload lane) lane ↔
      (∃ e ∈ declared, f = declaredFinding (Assoc.ofWrites (keyed (live_items payload lane))) lane e) ∨
      ∃ key, (served payload lane key).isSome = true ∧ key ∉ declared.map PackEntry.key ∧
        f = ⟨lane, key, .undeclared, none, served payload lane key⟩ := by
  unfold diff_lane
  simp only [mem_append, mem_map, mem_undeclaredKeys, lookup_by_key, and_assoc]
  constructor
  · rintro (⟨e, he, rfl⟩ | ⟨key, hs, hd, rfl⟩)
    · exact .inl ⟨e, he, rfl⟩
    · exact .inr ⟨key, hs, hd, rfl⟩
  · rintro (⟨e, he, rfl⟩ | ⟨key, hs, hd, rfl⟩)
    · exact .inl ⟨e, he, rfl⟩
    · exact .inr ⟨key, hs, hd, rfl⟩

theorem mem_diff_pack {f : DriftFinding} : f ∈ diff_pack pack payload ↔
    ∃ lane, f ∈ diff_lane (pack.entries_for lane) (live_items payload lane) lane := by
  unfold diff_pack
  rw [mem_flatMap]
  refine ⟨fun ⟨lane, _, h⟩ => ⟨lane, h⟩, fun ⟨lane, h⟩ => ⟨lane, ?_, h⟩⟩
  cases lane <;> simp [lanes]

theorem diff_lane_lane {f : DriftFinding} {declared : List PackEntry}
    (h : f ∈ diff_lane declared (live_items payload lane) lane) : f.lane = lane := by
  rcases mem_diff_lane.mp h with ⟨e, -, rfl⟩ | ⟨key, -, -, rfl⟩
  · exact (declaredFinding_lane_key _ lane e).1
  · rfl

/-- The entries of a lane that the report finds missing or stale, in file order. -/
theorem actionable_diff_lane (pack : Pack) (payload : PyJson) (lane : Lane) :
    actionable (diff_lane (pack.entries_for lane) (live_items payload lane) lane) =
      (pending pack payload lane).map
        (declaredFinding (Assoc.ofWrites (keyed (live_items payload lane))) lane) := by
  have hundeclared : ((undeclaredKeys (Assoc.ofWrites (keyed (live_items payload lane)))
      (pack.entries_for lane)).map fun key => (⟨lane, key, .undeclared, none,
        (Assoc.ofWrites (keyed (live_items payload lane))).lookup key⟩ : DriftFinding)).filter
      (fun finding => finding.status == .missing || finding.status == .stale) = [] := by
    rw [filter_map, map_eq_nil_iff, filter_eq_nil_iff]
    exact fun key _ => Bool.false_ne_true
  unfold actionable diff_lane pending
  dsimp only
  rw [filter_append, hundeclared, append_nil, filter_map]
  congr 1
  apply filter_congr
  intro e _
  by_cases hs : served payload lane e.key = some e.text
  · simp [status_declared_matched hs, hs]
  · rcases status_declared_pending hs with h | h <;> simp [h, hs]

end Diff

/-! ## The plan -/

section Plan

variable {pack : Pack} {payload : PyJson} {lane : Lane} {session_key : Str}
  {provenance : Option FactProvenance}

theorem lookup_entry {e : PackEntry} (he : e ∈ pack.entries) :
    (Assoc.ofWrites (pack.entries.map fun entry => ((entry.lane, entry.key), entry))).lookup
      (e.lane, e.key) = some e := by
  rw [Assoc.lookup_ofWrites]
  refine Assoc.last?_of_nodup ?_ (mem_map_of_mem (f := fun entry => ((entry.lane, entry.key), entry)) he)
  rw [map_map]
  refine List.Nodup.of_map Prod.snd ?_
  rw [map_map]
  exact pack.keys_unique

theorem mem_entries_for {e : PackEntry} :
    e ∈ pack.entries_for lane ↔ e ∈ pack.entries ∧ e.lane = lane := by
  simp [Pack.entries_for]

theorem pending_mem {e : PackEntry} (he : e ∈ pending pack payload lane) :
    e ∈ pack.entries ∧ e.lane = lane :=
  mem_entries_for.mp (mem_filter.mp he).1

theorem actionable_diff_pack (pack : Pack) (payload : PyJson) :
    actionable (diff_pack pack payload) = (lanes.flatMap (pending pack payload)).map fun e =>
      declaredFinding (Assoc.ofWrites (keyed (live_items payload e.lane))) e.lane e := by
  have hlane : ∀ lane, actionable (diff_lane (pack.entries_for lane) (live_items payload lane) lane) =
      (pending pack payload lane).map fun e =>
        declaredFinding (Assoc.ofWrites (keyed (live_items payload e.lane))) e.lane e := by
    intro lane
    rw [actionable_diff_lane]
    refine map_congr_left fun e he => ?_
    rw [(pending_mem he).2]
  unfold actionable diff_pack at *
  rw [filter_flatMap, map_flatMap]
  exact congrArg (lanes.flatMap ·) (funext hlane)

theorem plan_writes_eq (pack : Pack) (payload : PyJson) (session_key : Str)
    (provenance : Option FactProvenance) :
    plan_writes pack (diff_pack pack payload) session_key provenance =
      (lanes.flatMap (pending pack payload)).mapM fun e => plan_promote e session_key provenance := by
  unfold plan_writes
  rw [actionable_diff_pack, mapM_map]
  refine mapM_congr fun e he => ?_
  obtain ⟨lane, -, he⟩ := mem_flatMap.mp he
  obtain ⟨hlane, hkey⟩ := declaredFinding_lane_key
    (Assoc.ofWrites (keyed (live_items payload e.lane))) e.lane e
  rw [Function.comp_apply, hlane, hkey, lookup_entry (pending_mem he).1, Option.bind_some]

theorem plan_promote_landing {e : PackEntry} {w : PlannedWrite}
    (h : plan_promote e session_key provenance = some w) :
    landing w.arguments = some (e.lane, e.identity, e.text) := by
  unfold plan_promote at h
  split at h
  · rename_i hlane
    obtain ⟨p, -, rfl⟩ := Option.map_eq_some_iff.mp h
    obtain ⟨s, hs⟩ := Option.isSome_iff_exists.mp (e.fact_subject hlane)
    simp [landing, PackEntry.identity, hlane, hs]
  · rename_i hlane
    obtain ⟨type, htype, rfl⟩ := Option.map_eq_some_iff.mp h
    have hfind : lanes.find? (fun lane => GUIDANCE_CANDIDATE_TYPE lane = some type) =
        some e.lane := by
      rw [← htype]
      cases hl : e.lane with
      | profile_guidance => decide
      | process_guidance => decide
      | repo_facts => exact absurd hl hlane
    simp only [landing, if_true, hfind, Option.map_some, PackEntry.identity, if_neg hlane]

/-- The writes leave one record for each pending entry, in file order. -/
theorem records_eq {writes : List PlannedWrite}
    (h : plan_writes pack (diff_pack pack payload) session_key provenance = some writes)
    (lane : Lane) : records writes lane = written pack payload lane := by
  rw [plan_writes_eq] at h
  have hforall := mapM_some h
  have hrecords : records writes lane = (lanes.flatMap (pending pack payload)).filterMap fun e =>
      if e.lane = lane then some (e.identity, e.text) else none := by
    clear h
    generalize lanes.flatMap (pending pack payload) = entries at hforall ⊢
    induction hforall with
    | nil => rfl
    | cons hplan _ ih =>
      unfold records at ih ⊢
      rw [filterMap_cons, filterMap_cons, ih, plan_promote_landing hplan]
      rfl
  have hlanes : ∀ l, (pending pack payload l).filterMap (fun e =>
      if e.lane = lane then some (e.identity, e.text) else none) =
      if l = lane then written pack payload lane else [] := by
    intro l
    split
    · rename_i hl
      subst hl
      rw [written, ← filterMap_eq_map]
      refine filterMap_congr fun e he => ?_
      exact if_pos (pending_mem he).2
    · rename_i hl
      rw [filterMap_eq_nil_iff]
      intro e he
      exact if_neg fun heq => hl ((pending_mem he).2.symm.trans heq)
  rw [hrecords]
  cases lane <;> simp [lanes, hlanes]

end Plan

/-! ## After the writes -/

section After

variable {pack : Pack} {payload payload' : PyJson} {writes : List PlannedWrite} {lane : Lane}
  {session_key : Str} {provenance : Option FactProvenance}

theorem served_after
    (hplan : plan_writes pack (diff_pack pack payload) session_key provenance = some writes)
    (happlied : Applied payload writes payload') (lane : Lane) (key : Str) :
    served payload' lane key =
      (Assoc.last? (written pack payload lane) key).or (served payload lane key) := by
  rw [happlied lane key, Assoc.last?_append, records_eq hplan]
  rfl

/-- A report without work plans none. -/
theorem plan_nothing (h : ∀ lane, ∀ e ∈ pack.entries_for lane, served payload lane e.key = some e.text) :
    plan_writes pack (diff_pack pack payload) session_key provenance = some [] := by
  have hnone : ∀ lane, pending pack payload lane = [] := by
    intro lane
    rw [pending, filter_eq_nil_iff]
    intro e he
    simp [h lane e he]
  rw [plan_writes_eq]
  simp [lanes, hnone]

/-- A second reconcile finds what it should exactly when every lane is settled. -/
theorem converged_iff_settled :
    Converged pack payload payload' session_key provenance ↔
      ∀ lane, LaneSettled pack payload payload' lane := by
  constructor
  · rintro ⟨hfindings, -⟩ lane
    constructor
    · intro e he
      by_contra hpending
      have hmem : declaredFinding (Assoc.ofWrites (keyed (live_items payload' lane))) lane e ∈
          diff_pack pack payload' := mem_diff_pack.mpr ⟨lane, mem_diff_lane.mpr (.inl ⟨e, he, rfl⟩)⟩
      rcases status_declared_pending hpending with h | h
      · exact (hfindings _ hmem).1 h
      · exact (hfindings _ hmem).2.1 h
    · intro key hkey hserved
      obtain ⟨g, hg, hstatus, hlane, hgkey⟩ := (hfindings _ (mem_diff_pack.mpr
        ⟨lane, mem_diff_lane.mpr (.inr ⟨key, hserved, hkey, rfl⟩)⟩)).2.2 rfl
      obtain ⟨lane', hg⟩ := mem_diff_pack.mp hg
      have hl : lane' = lane := (diff_lane_lane hg).symm.trans hlane
      subst hl
      rcases mem_diff_lane.mp hg with ⟨e, he, rfl⟩ | ⟨key', hserved', -, rfl⟩
      · -- a declared key is not undeclared
        exfalso
        have hk : e.key = key := (declaredFinding_lane_key _ lane' e).2.symm.trans hgkey
        exact hkey (hk ▸ mem_map_of_mem he)
      · have hk : key' = key := hgkey
        exact hk ▸ hserved'
  · intro hsettled
    refine ⟨fun f hf => ?_, plan_nothing fun lane => (hsettled lane).1⟩
    obtain ⟨lane, hf⟩ := mem_diff_pack.mp hf
    rcases mem_diff_lane.mp hf with ⟨e, he, rfl⟩ | ⟨key, hserved, hkey, rfl⟩
    · rw [status_declared_matched ((hsettled lane).1 e he)]
      exact ⟨nofun, nofun, nofun⟩
    · refine ⟨nofun, nofun, fun _ => ?_⟩
      have hbefore := (hsettled lane).2 key hkey hserved
      exact ⟨_, mem_diff_pack.mpr ⟨lane, mem_diff_lane.mpr (.inr ⟨key, hbefore, hkey, rfl⟩)⟩,
        rfl, rfl, rfl⟩

theorem guidance_settles
    (hplan : plan_writes pack (diff_pack pack payload) session_key provenance = some writes)
    (happlied : Applied payload writes payload') (hlane : lane ≠ .repo_facts) :
    LaneSettled pack payload payload' lane := by
  have hwritten : written pack payload lane =
      (pending pack payload lane).map fun e => (e.key, e.text) := by
    refine map_congr_left fun e he => ?_
    rw [PackEntry.identity, if_neg (by rw [(pending_mem he).2]; exact hlane)]
  have hkeys : (written pack payload lane).map Prod.fst =
      (pending pack payload lane).map PackEntry.key := by
    rw [hwritten, map_map]
    rfl
  have hsub : (pending pack payload lane).Sublist pack.entries :=
    filter_sublist.trans filter_sublist
  constructor
  · intro e he
    rw [served_after hplan happlied]
    by_cases hs : served payload lane e.key = some e.text
    · have hnone : Assoc.last? (written pack payload lane) e.key = none := by
        rw [← Option.not_isSome_iff_eq_none, Assoc.last?_isSome_iff, hkeys]
        intro hmem
        -- keys are distinct, so it would be `e` itself that is pending
        obtain ⟨f, hf, hfk⟩ := mem_map.mp hmem
        have hfe : f = e := inj_on_of_nodup_map pack.keys_unique (hsub.subset hf)
          (mem_entries_for.mp he).1 hfk
        subst hfe
        exact of_decide_eq_true (mem_filter.mp hf).2 hs
      rw [hnone, Option.none_or, hs]
    · have hmem : (e.key, e.text) ∈ written pack payload lane := by
        rw [hwritten]
        exact mem_map_of_mem (f := fun e : PackEntry => (e.key, e.text))
          (mem_filter.mpr ⟨he, decide_eq_true hs⟩)
      have hnodup : ((written pack payload lane).map Prod.fst).Nodup := by
        rw [hkeys]
        exact pack.keys_unique.sublist (hsub.map PackEntry.key)
      rw [Assoc.last?_of_nodup hnodup hmem, Option.some_or]
  · intro key hkey hserved
    rw [served_after hplan happlied, Option.isSome_or, Bool.or_eq_true] at hserved
    rcases hserved with h | h
    · rw [Assoc.last?_isSome_iff, hkeys] at h
      obtain ⟨f, hf, hfk⟩ := mem_map.mp h
      exact absurd (hfk ▸ mem_map_of_mem (mem_filter.mp hf).1) hkey
    · exact h

theorem facts_settle_iff
    (hplan : plan_writes pack (diff_pack pack payload) session_key provenance = some writes)
    (happlied : Applied payload writes payload') :
    LaneSettled pack payload payload' .repo_facts ↔ SubjectsAgree pack payload := by
  have hkey : ∀ k, (Assoc.last? (written pack payload .repo_facts) k).isSome = true ↔
      ∃ f ∈ pending pack payload .repo_facts, f.identity = k := by
    intro k
    rw [Assoc.last?_isSome_iff, written, map_map]
    simp
  constructor
  · rintro ⟨htexts, hnew⟩
    have hafter := fun e he => (served_after hplan happlied _ _).symm.trans (htexts e he)
    refine ⟨fun e he => ?_, fun e he text ht => ?_, fun f hf => ?_⟩
    · obtain ⟨hentry, hpending⟩ := mem_filter.mp he
      rw [← hkey, Option.isSome_iff_ne_none]
      intro hnone
      have := hafter e hentry
      rw [hnone, Option.none_or] at this
      exact of_decide_eq_true hpending this
    · have := hafter e he
      rw [ht, Option.some_or] at this
      exact Option.some.inj this
    · by_cases hd : f.identity ∈ (pack.entries_for .repo_facts).map PackEntry.key
      · exact .inl hd
      · refine .inr (hnew _ hd ?_)
        rw [served_after hplan happlied, Option.isSome_or, (hkey _).mpr ⟨f, hf, rfl⟩, Bool.true_or]
  · rintro ⟨hreached, hown, hknown⟩
    constructor
    · intro e he
      rw [served_after hplan happlied]
      cases ht : Assoc.last? (written pack payload .repo_facts) e.key with
      | some text => rw [Option.some_or, hown e he text ht]
      | none =>
        rw [Option.none_or]
        by_contra hpending
        have hsome := (hkey e.key).mpr
          (hreached e (mem_filter.mpr ⟨he, decide_eq_true hpending⟩))
        rw [ht] at hsome
        cases hsome
    · intro k hk hserved
      rw [served_after hplan happlied, Option.isSome_or, Bool.or_eq_true] at hserved
      rcases hserved with h | h
      · obtain ⟨f, hf, rfl⟩ := (hkey k).mp h
        exact (hknown f hf).resolve_left hk
      · exact h

/-- **Exactly when a reconcile converges.** For every pack, every payload, every
plan `plan_writes` returns for their diff and every payload that serves the
writes. -/
theorem converged_iff
    (hplan : plan_writes pack (diff_pack pack payload) session_key provenance = some writes)
    (happlied : Applied payload writes payload') :
    Converged pack payload payload' session_key provenance ↔ SubjectsAgree pack payload := by
  rw [converged_iff_settled, ← facts_settle_iff hplan happlied]
  refine ⟨fun h => h .repo_facts, fun h lane => ?_⟩
  by_cases hlane : lane = .repo_facts
  · exact hlane ▸ h
  · exact guidance_settles hplan happlied hlane

theorem subjectsAgree_of_eq (pack : Pack) (payload : PyJson)
    (h : ∀ e ∈ pack.entries_for .repo_facts, e.subject = some e.key) :
    SubjectsAgree pack payload := by
  have hid : ∀ e ∈ pack.entries_for .repo_facts, e.identity = e.key := by
    intro e he
    rw [PackEntry.identity, if_pos (mem_entries_for.mp he).2, h e he]
    rfl
  refine ⟨fun e he => ⟨e, he, hid e (mem_filter.mp he).1⟩, fun e he text ht => ?_,
    fun f hf => .inl ?_⟩
  · obtain ⟨f, hf, heq⟩ := mem_map.mp (Assoc.mem_of_last? ht)
    obtain ⟨hfid, rfl⟩ := Prod.mk.inj heq
    have hfe := (mem_filter.mp hf).1
    have hf' : f = e := inj_on_of_nodup_map pack.keys_unique (mem_entries_for.mp hfe).1
      (mem_entries_for.mp he).1 ((hid f hfe).symm.trans hfid)
    rw [hf']
  · have hfe := (mem_filter.mp hf).1
    rw [hid f hfe]
    exact mem_map_of_mem hfe

end After

/-! ## One repo fact, named twice -/

instance (value : Str) : Decidable (IsField value) := inferInstanceAs (Decidable (_ ∧ _))

/-- A repo fact in the file, under the key `key`. -/
def rawFact (key : Str) : RawEntry :=
  ⟨key, .repo_facts, units "30 s", none, some (units "timeout"), .gotcha⟩

def provenance : FactProvenance :=
  ⟨units "open-brain", units "canon.toml", units "c0ffee", units "c0ffee/canon.toml",
    units "2026-07-30T00:00:00Z"⟩

def servesFact : PyJson :=
  .obj [(units "sections", .obj [(units "repo_facts", .obj [(units "items",
    .arr [.obj [(units "subject", .str (units "timeout")), (units "fact", .str (units "30 s"))]])])])]

/-- The plan for the fact, which does not depend on what it is called in the file. -/
def factWrite (key : Str) : PlannedWrite :=
  ⟨key, .repo_facts, .upsert_repo_fact provenance (some (units "timeout")) .gotcha (units "30 s") none⟩

theorem servesFact_applied (key : Str) : Applied (.obj []) [factWrite key] servesFact := by
  have hbefore : ∀ lane, keyed (live_items (.obj []) lane) = [] := fun lane => rfl
  have hrecords : ∀ lane, records [factWrite key] lane =
      keyed (live_items servesFact lane) := by
    intro lane
    cases lane with
    | profile_guidance => rfl
    | process_guidance => rfl
    | repo_facts =>
      have hserved : keyed (live_items servesFact .repo_facts) =
          [(units "timeout", units "30 s")] := by decide +kernel
      rw [hserved]
      rfl
  intro lane k
  rw [hbefore, hrecords, nil_append]
  rfl

/-- The key and the subject differ: the fact is written, and found missing again. -/
theorem subject_beside_key_never_converges :
    ∃ pack, Pack.validate [rawFact (units "repo.timeout")] = some pack ∧
      plan_writes pack (diff_pack pack (.obj [])) (units "dev") (some provenance) =
        some [factWrite (units "repo.timeout")] ∧
      Applied (.obj []) [factWrite (units "repo.timeout")] servesFact ∧
      (diff_pack pack servesFact).map (fun f => (f.key, f.status)) =
        [(units "repo.timeout", .missing), (units "timeout", .undeclared)] ∧
      ¬ Converged pack (.obj []) servesFact (units "dev") (some provenance) := by
  obtain ⟨pack, hpack⟩ : ∃ pack, Pack.validate [rawFact (units "repo.timeout")] = some pack :=
    Option.isSome_iff_exists.mp (by decide +kernel)
  have hruns : ((Pack.validate [rawFact (units "repo.timeout")]).map fun pack =>
      (plan_writes pack (diff_pack pack (.obj [])) (units "dev") (some provenance),
        (diff_pack pack servesFact).map fun f => (f.key, f.status))) =
      some (some [factWrite (units "repo.timeout")],
        [(units "repo.timeout", .missing), (units "timeout", .undeclared)]) := by decide +kernel
  rw [hpack, Option.map_some] at hruns
  obtain ⟨hplan, hdiff⟩ := Prod.mk.inj (Option.some.inj hruns)
  refine ⟨pack, hpack, hplan, servesFact_applied _, hdiff, fun h => ?_⟩
  have hmem : (units "repo.timeout", DriftStatus.missing) ∈
      (diff_pack pack servesFact).map fun f => (f.key, f.status) := by
    rw [hdiff]
    exact mem_cons_self
  obtain ⟨f, hf, heq⟩ := mem_map.mp hmem
  exact (h.1 f hf).1 (Prod.mk.inj heq).2

/-- The key is the subject: the second reconcile plans nothing. -/
theorem subject_as_key_converges :
    ∃ pack, Pack.validate [rawFact (units "timeout")] = some pack ∧
      (Converged pack (.obj []) servesFact (units "dev") (some provenance) ↔
        SubjectsAgree pack (.obj [])) ∧ SubjectsAgree pack (.obj []) := by
  obtain ⟨pack, hpack⟩ : ∃ pack, Pack.validate [rawFact (units "timeout")] = some pack :=
    Option.isSome_iff_exists.mp (by decide +kernel)
  have hruns : ((Pack.validate [rawFact (units "timeout")]).map fun pack =>
      (plan_writes pack (diff_pack pack (.obj [])) (units "dev") (some provenance),
        pack.entries.map fun e => (e.subject, e.key))) =
      some (some [factWrite (units "timeout")], [(some (units "timeout"), units "timeout")]) := by
    decide +kernel
  rw [hpack, Option.map_some] at hruns
  obtain ⟨hplan, hentries⟩ := Prod.mk.inj (Option.some.inj hruns)
  refine ⟨pack, hpack, converged_iff hplan (servesFact_applied _),
    subjectsAgree_of_eq _ _ fun e he => ?_⟩
  have hmem : (e.subject, e.key) ∈ pack.entries.map fun e => (e.subject, e.key) :=
    mem_map_of_mem (f := fun e : PackEntry => (e.subject, e.key)) (mem_entries_for.mp he).1
  rw [hentries, mem_singleton] at hmem
  obtain ⟨hs, hk⟩ := Prod.mk.inj hmem
  rw [hs, hk]

end OpenBrain.Canon
