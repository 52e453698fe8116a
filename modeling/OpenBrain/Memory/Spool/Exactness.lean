import OpenBrain.Memory.Spool.Scoring
import Mathlib.Data.List.Perm.Subperm

/-!
# Quarantine at the threshold, and not before

`Exact` is the invariant of the single drainer: the count read from the retry state is the
number of failed passes in a row, clamped as the loader does, and zero for a key without a
unit in the spool (`counts`), and the sidecar holds the units it is said to hold (`blocks`). A pass moves the units of a
key to the sidecar exactly when it fails the key and the failures in a row reach the
threshold (`quarantine_exact`).

The keys are unit keys. Two records appended with one idempotency key share their key and
with it their count (`shared_count`).
-/
namespace OpenBrain.Memory.Spool
open OpenBrain.Core OpenBrain.Core.Py List

/-! ## From the snapshot to the commit -/

section Run
variable {cfg : Config} {H : Host} {files files' : Files} {now : Double} {os : List Dispatch}
  {pass : Pass} {us : List SpoolUnit}

theorem records_pos {u : SpoolUnit} (h : u ∈ dispatched us) : 0 < (u.records.getD []).length := by
  obtain ⟨σ, hσ⟩ := Option.isSome_iff_exists.mp (mem_filter.mp h).2
  obtain ⟨r, rs, hrec, -⟩ := signature_eq hσ
  rw [hrec]
  exact Nat.zero_lt_succ _

theorem scored_start (threshold : Nat) (now : Double) (prior : RetryState)
    (todo : List SpoolUnit) :
    Scored ⟨threshold, now, prior, todo, [], [], [], [], [], []⟩ [] := by
  refine ⟨?_, ?_, ?_⟩
  · intro σ
    simp [ReplayedIn]
  · intro k
    simp [FailedIn]
  · intro k n
    simp [FailedIn]

/-- A pass scores every unit it dispatches, and commits on the files of its snapshot. -/
theorem runPass_spec (h : runPass cfg H files now os = some (pass, files')) :
    ∃ us as st, parseUnits H files.spool = some us ∧ loadRetryState files.retry = some st ∧
      attempts (dispatched us) 0 os = some as ∧ Scored pass ((dispatched us).zip as) ∧
      pass.prior_state = st ∧ pass.quarantine_threshold = cfg.quarantine_threshold ∧
      pass.commit H files 4 = some files' := by
  unfold runPass at h
  obtain ⟨start, hstart, h⟩ := Option.bind_eq_some_iff.mp h
  obtain ⟨last, hlast, h⟩ := Option.bind_eq_some_iff.mp h
  split at h
  · rename_i hend
    obtain ⟨files'', hcommit, h⟩ := Option.bind_eq_some_iff.mp h
    cases h
    unfold startPass at hstart
    obtain ⟨us, hus, hstart⟩ := Option.bind_eq_some_iff.mp hstart
    obtain ⟨st, hst, hstart⟩ := Option.bind_eq_some_iff.mp hstart
    cases hstart
    have hrecords : ∀ u ∈ dispatched us, 0 < (u.records.getD []).length :=
      fun u hu => records_pos hu
    obtain ⟨as, has, hscored, hprior, hthreshold, -⟩ := dispatchAll_scored hlast
      (List.isEmpty_iff.mp hend) (scored_start _ _ _ _) hrecords
      fun u hu => hrecords u (mem_of_mem_head? hu)
    exact ⟨us, as, st, hus, hst, has, hscored, hprior, hthreshold, hcommit⟩
  · cases h

end Run

/-! ## The files after the commit -/

section Written
variable {H : Host} {files files' : Files} {pass : Pass} {us : List SpoolUnit}

theorem commit_whole (h : pass.commit H files 4 = some files') (hch : pass.hasChanges = true)
    (hus : parseUnits H files.spool = some us) :
    files' = ⟨(pass.remainingUnits us).flatMap SpoolUnit.lines,
      pass.reconciled (pass.appended us files.quarantine),
      some (writeRetryState (pass.retryState us))⟩ := by
  unfold Pass.commit at h
  rw [if_pos hch, hus, Option.map_some, commitWrites_eq] at h
  exact (Option.some.inj h).symm

/-- What stays and what goes to the sidecar are different live units. -/
theorem remaining_quarantined (pass : Pass) (us : List SpoolUnit) :
    (pass.remainingUnits us ++ (pass.quarantinedNow us).map fun e => e.2.1).Subperm us := by
  induction us with
  | nil => exact List.Subperm.refl _
  | cons u us ih =>
    unfold Pass.remainingUnits Pass.quarantinedNow at ih ⊢
    rw [filter_cons, filterMap_cons]
    cases hf : pass.fate u with
    | remaining => exact (subperm_cons u).mpr ih
    | replayed => exact List.Subperm.cons_right u ih
    | quarantined e =>
      have hu : e.2.1 = u := by
        unfold Pass.fate at hf
        grind
      show (_ ++ e.2.1 :: _).Subperm _
      rw [hu]
      exact perm_middle.subperm_right.mpr ((subperm_cons u).mpr ih)

theorem subperm_map {α β : Type} {l m : List α} (f : α → β) (h : l.Subperm m) :
    (l.map f).Subperm (m.map f) := by
  obtain ⟨l', hp, hs⟩ := h
  exact ⟨l'.map f, hp.map f, hs.map f⟩

theorem sidecarEntries_units (pass : Pass) (us : List SpoolUnit) (entries : List (Str × SpoolUnit)) :
    ((sidecarEntries pass us entries).map Prod.snd).Subperm
      (entries.map Prod.snd ++ (pass.quarantinedNow us).map fun e => e.2.1) := by
  have hwrites : ∀ ws : List (Str × SpoolUnit), (Assoc.ofWrites ws).Subperm ws := by
    intro ws
    apply subperm_of_subset
    · exact (Assoc.nodup_ofWrites ws).of_map
    · intro p hp
      exact Assoc.mem_of_last? ((Assoc.mem_ofWrites_iff _ p.1 p.2).mp hp)
  unfold sidecarEntries
  refine (filter_sublist.map Prod.snd).subperm.trans ?_
  rw [map_append]
  have hnew := subperm_map Prod.snd (hwrites ((pass.quarantinedNow us).map fun e => (e.1, e.2.1)))
  rw [map_map] at hnew
  exact List.Subperm.append (filter_sublist.map Prod.snd).subperm hnew

theorem mem_sidecarEntries {entries : List (Str × SpoolUnit)} {e : Str × SpoolUnit}
    (h : e ∈ sidecarEntries pass us entries) : e.1 ∉ pass.replayed_units.map unitKey ∧
      ((e ∈ entries ∧ e.1 ∉ (pass.quarantinedNow us).map Prod.fst) ∨
        ∃ st, Assoc.last? (pass.quarantinedNow us) e.1 = some (e.2, st)) := by
  obtain ⟨hmem, hkept⟩ := mem_filter.mp h
  refine ⟨of_decide_eq_true hkept, ?_⟩
  rcases mem_append.mp hmem with hmem | hmem
  · obtain ⟨hmem, hother⟩ := mem_filter.mp hmem
    refine .inl ⟨hmem, ?_⟩
    have := of_decide_eq_true hother
    rw [map_map] at this
    exact this
  · have hlast := (Assoc.mem_ofWrites_iff _ e.1 e.2).mp hmem
    rw [Assoc.last?_map (fun _ (e : SpoolUnit × UnitRetryState) => e.1)] at hlast
    obtain ⟨⟨u, st⟩, hlast, rfl⟩ := Option.map_eq_some_iff.mp hlast
    exact .inr ⟨st, hlast⟩

end Written

/-! ## The invariant -/

/-- A count as `_parse_unit_retry_state` reads it. -/
def clamped (failures : Nat) : Nat := min failures MAX_RETRY_STATE_FAILURES

structure Exact (cfg : Config) (H : Host) (s : Drainer) : Prop where
  plain : Plain s.files.spool
  tidy : Tidy (groupIndexedLines s.files.spool ++ s.entries.map fun e => e.2.lines)
  blocks : ∀ e ∈ s.entries,
    Plain e.2.lines ∧ HasBlock header s.files.quarantine e.1 e.2.lines
  counts : ∀ k, s.counted k = some (clamped (arrive H s.files.spool s.fails k))
  below : ∀ k ∈ keysOf H s.files.spool, clamped (s.fails k) < cfg.quarantine_threshold

section Steps
variable {cfg : Config} {H : Host} {s s' : Drainer}

theorem exact_init (h : Drainer.Init s) : Exact cfg H s := by
  obtain ⟨hfiles, hentries, hfails⟩ := h
  refine ⟨?_, ?_, ?_, ?_, ?_⟩
  · rw [hfiles]
    intro line hline
    cases hline
  · rw [hfiles, hentries]
    exact ⟨fun g hg => (not_mem_nil hg).elim, List.Pairwise.nil⟩
  · rw [hentries]
    intro e he
    cases he
  · intro k
    unfold Drainer.counted
    rw [hfiles]
    rfl
  · intro k _
    rw [hfails]
    exact cfg.quarantine_threshold_pos

theorem Exact.arrive_below (h : Exact cfg H s) (k : Str) :
    clamped (arrive H s.files.spool s.fails k) < cfg.quarantine_threshold := by
  unfold arrive
  split
  · exact h.below k (by assumption)
  · exact cfg.quarantine_threshold_pos

/-- A key of the old spool is still there, and a new one starts at zero. -/
theorem arrive_arrive {lines lines' : List Str} {fails : Str → Nat}
    (h : ∀ k ∈ keysOf H lines, k ∈ keysOf H lines') :
    arrive H lines' (arrive H lines fails) = arrive H lines fails := by
  funext k
  unfold arrive
  by_cases hk : k ∈ keysOf H lines
  · rw [if_pos hk, if_pos (h k hk)]
  · rw [if_neg hk, ite_self]

/-- Lines that are a group of their own stay one behind the others. -/
theorem groups_append {spool lines : List Str} (h : Tidy (groupIndexedLines spool ++ [lines])) :
    groupIndexedLines (spool ++ lines) = groupIndexedLines spool ++ [lines] := by
  have hflat : (groupIndexedLines spool ++ [lines]).flatten = spool ++ lines := by
    rw [flatten_append, flatten_singleton]
    congr 1
    exact flatten_splitBy _ _
  rw [← hflat]
  exact h.split

theorem Exact.arrived (h : Exact cfg H s) {lines quarantine : List Str}
    {entries : List (Str × SpoolUnit)} (hplain : Plain lines)
    (htidy : Tidy (groupIndexedLines s.files.spool ++ [lines] ++ entries.map fun e => e.2.lines))
    (hblocks : ∀ e ∈ entries, Plain e.2.lines ∧ HasBlock header quarantine e.1 e.2.lines) :
    Exact cfg H ⟨⟨s.files.spool ++ lines, quarantine, s.files.retry⟩, entries,
      arrive H s.files.spool s.fails⟩ := by
  have hgroups := groups_append (htidy.sublist (sublist_append_left _ _))
  refine ⟨?_, ?_, hblocks, ?_, fun k _ => h.arrive_below k⟩
  · intro line hline
    rcases mem_append.mp hline with hline | hline
    · exact h.plain line hline
    · exact hplain line hline
  · show Tidy (groupIndexedLines (s.files.spool ++ lines) ++ _)
    rw [hgroups]
    exact htidy
  · intro k
    show s.counted k = some (clamped (arrive H (s.files.spool ++ lines) _ k))
    rw [arrive_arrive fun k hk => keysOf_append hgroups hk]
    exact h.counts k

theorem mem_lines_of_group {lines g : List Str} (hg : g ∈ groupIndexedLines lines) :
    ∀ line ∈ g, line ∈ lines := by
  intro line hline
  rw [← flatten_splitBy (r := sameGroup) (l := lines)]
  exact mem_flatten.mpr ⟨g, hg, hline⟩

/-- The lines of a batch with a new group id continue no group, and none continues them. -/
theorem apart_batch {b : Batch} (hfresh : freshGroup s b = true) {g : List Str}
    (hg : g ∈ groupIndexedLines s.files.spool ++ s.entries.map fun e => e.2.lines) :
    Apart (b.lines H) g := by
  intro x hx y hy
  have hmem : y ∈ s.files.spool ++ s.entries.flatMap fun e => e.2.lines := by
    rcases mem_append.mp hg with hg | hg
    · exact mem_append_left _ (mem_lines_of_group hg y hy)
    · obtain ⟨e, he, rfl⟩ := mem_map.mp hg
      exact mem_append_right _ (mem_flatMap.mpr ⟨e, he, hy⟩)
  have hother := all_eq_true.mp hfresh y hmem
  rw [Bool.eq_false_iff]
  intro hsame
  obtain ⟨g', hxg, hyg⟩ := (sameGroup_iff x y).mp hsame
  rw [Batch.rawGroupId_line hx] at hxg
  rw [hxg, hyg] at hother
  simp at hother

theorem Exact.tidy_batch (h : Exact cfg H s) {b : Batch} (hne : b.records ≠ [])
    (hfresh : freshGroup s b = true) : Tidy (groupIndexedLines s.files.spool ++ [b.lines H] ++
      s.entries.map fun e => e.2.lines) := by
  have hperm : (b.lines H :: (groupIndexedLines s.files.spool ++
      s.entries.map fun e => e.2.lines)).Perm
      (groupIndexedLines s.files.spool ++ [b.lines H] ++ s.entries.map fun e => e.2.lines) := by
    rw [append_assoc]
    exact perm_middle.symm
  apply Tidy.perm ?_ hperm.symm
  refine ⟨?_, pairwise_cons.mpr ⟨?_, h.tidy.apart⟩⟩
  · intro g hg
    rcases mem_cons.mp hg with rfl | hg
    · exact ⟨Batch.lines_ne hne, Batch.together hne⟩
    · exact h.tidy.group g hg
  · intro g hg
    exact apart_batch hfresh hg

theorem exact_append (h : Exact cfg H s) {b : Batch} (hne : b.records ≠ [])
    (hfresh : freshGroup s b = true) : Exact cfg H { s with
      files := { s.files with spool := s.files.spool ++ b.lines H }
      fails := arrive H s.files.spool s.fails } :=
  h.arrived b.plain (h.tidy_batch hne hfresh) h.blocks

theorem mem_of_lookup {β : Type} {l : List (Str × β)} {k : Str} {v : β}
    (h : l.lookup k = some v) : (k, v) ∈ l := by
  obtain ⟨l₁, l₂, rfl, -⟩ := List.lookup_eq_some_iff.mp h
  exact mem_append_right _ mem_cons_self

theorem exact_restore (h : Exact cfg H s) {unit_key : Str} {unit : SpoolUnit}
    (hunit : s.entries.lookup unit_key = some unit) : Exact cfg H {
      files := { s.files with
        spool := s.files.spool ++ unit.lines
        quarantine := removeQuarantined s.files.quarantine [unit_key] }
      entries := s.entries.filter fun e => decide (e.1 ∉ [unit_key])
      fails := arrive H s.files.spool s.fails } := by
  have hmem := mem_of_lookup hunit
  apply h.arrived (h.blocks _ hmem).1
  · apply h.tidy.subperm
    rw [append_assoc]
    refine (subperm_append_left _).mpr ?_
    have hsub : ((unit_key, unit) :: s.entries.filter fun e => decide (e.1 ∉ [unit_key])).Subperm
        s.entries := by
      have hsplit := filter_append_perm (fun e => decide (e.1 ∉ [unit_key])) s.entries
      refine List.Subperm.trans ?_ hsplit.subperm
      refine perm_append_singleton _ _ |>.symm.subperm.trans ?_
      refine (subperm_append_left _).mpr (singleton_sublist.mpr ?_).subperm
      apply mem_filter.mpr ⟨hmem, ?_⟩
      simp
    exact subperm_map (fun e : Str × SpoolUnit => e.2.lines) hsub
  · intro e he
    obtain ⟨he, hother⟩ := mem_filter.mp he
    obtain ⟨hplain, hblock⟩ := h.blocks e he
    exact ⟨hplain, hasBlock_removeQuarantined (of_decide_eq_true hother) hblock⟩

theorem exact_clear (h : Exact cfg H s) :
    Exact cfg H { s with files := { s.files with quarantine := [] }, entries := [] } := by
  refine ⟨h.plain, ?_, ?_, h.counts, h.below⟩
  · show Tidy (groupIndexedLines s.files.spool ++ [])
    rw [append_nil]
    exact h.tidy.sublist (sublist_append_left _ _)
  · intro e he
    cases he

end Steps

/-! ## A pass -/

structure PassRun (cfg : Config) (H : Host) (s s' : Drainer) (us : List SpoolUnit)
    (as : List Attempt) (pass : Pass) : Prop where
  parse : parseUnits H s.files.spool = some us
  scored : Scored pass ((dispatched us).zip as)
  prior : ∀ k, pass.prior k = clamped (arrive H s.files.spool s.fails k)
  threshold : pass.quarantine_threshold = cfg.quarantine_threshold
  commit : pass.commit H s.files 4 = some s'.files
  entries : s'.entries = sidecarEntries pass us s.entries
  fails : s'.fails = nextFails ((dispatched us).zip as) s.fails

section Passes
variable {cfg cfg' : Config} {H : Host} {s s' : Drainer} {us : List SpoolUnit} {as : List Attempt}
  {pass : Pass} {k : Str}

theorem pass_run (h : Exact cfg' H s) {now : Double} {os : List Dispatch}
    (hstep : Drainer.step cfg H s (.pass now os) = some s') : ∃ us as pass,
      attempts (dispatched us) 0 os = some as ∧ PassRun cfg H s s' us as pass := by
  dsimp only [Drainer.step] at hstep
  obtain ⟨us, hus, hstep⟩ := Option.bind_eq_some_iff.mp hstep
  obtain ⟨as, has, hstep⟩ := Option.bind_eq_some_iff.mp hstep
  obtain ⟨⟨pass, files⟩, hrun, hstep⟩ := Option.bind_eq_some_iff.mp hstep
  obtain ⟨us', as', st, hus', hst, has', hscored, hprior, hthreshold, hcommit⟩ := runPass_spec hrun
  rw [hus] at hus'
  cases hus'
  rw [has] at has'
  cases has'
  cases hstep
  refine ⟨us, as, pass, has, hus, hscored, ?_, hthreshold, hcommit, rfl, rfl⟩
  intro k
  have hcount := h.counts k
  unfold Drainer.counted at hcount
  rw [hst, Option.map_some] at hcount
  unfold Pass.prior
  rw [hprior]
  exact Option.some.inj hcount

theorem key_of_done (h : ReplayedIn ((dispatched us).zip as) k ∨
    FailedIn ((dispatched us).zip as) k) : k ∈ us.filterMap SpoolUnit.key := by
  have hmem : ∃ u a, (u, a) ∈ (dispatched us).zip as ∧ u.key = some k := by
    rcases h with ⟨u, hu, hk⟩ | ⟨u, hu, hk⟩
    · exact ⟨u, _, hu, hk⟩
    · exact ⟨u, _, hu, hk⟩
  obtain ⟨u, a, hu, hk⟩ := hmem
  have hdispatched := (of_mem_zip hu).1
  exact mem_filterMap.mpr ⟨u, mem_of_mem_filter hdispatched, hk⟩

theorem remaining_of_unchanged (hr : pass.replayed_units = []) (hq : pass.quarantine_updates = []) :
    pass.remainingUnits us = us ∧ pass.quarantinedNow us = [] := by
  have hfate : ∀ u, pass.fate u = .remaining := by
    intro u
    unfold Pass.fate
    rw [hr, hq]
    cases u.signature <;> rfl
  unfold Pass.remainingUnits Pass.quarantinedNow
  simp [hfate, Fate.stays, Fate.toEntry]

theorem PassRun.files (h : PassRun cfg H s s' us as pass) :
    s'.files.spool = (pass.remainingUnits us).flatMap SpoolUnit.lines ∧
      s'.files.quarantine = pass.reconciled (pass.appended us s.files.quarantine) := by
  have hcommit := h.commit
  by_cases hch : pass.hasChanges = true
  · rw [commit_whole hcommit hch h.parse]
    exact ⟨rfl, rfl⟩
  · rw [Bool.not_eq_true] at hch
    obtain ⟨hr, hq, -⟩ := unchanged_of_scored h.scored hch
    have hsame : pass.remainingUnits us = us ∧ pass.quarantinedNow us = [] :=
      remaining_of_unchanged hr hq
    obtain ⟨hremaining, hnow⟩ := hsame
    unfold Pass.commit at hcommit
    rw [hch] at hcommit
    have hfiles : s'.files = s.files := (Option.some.inj hcommit).symm
    unfold Pass.reconciled Pass.appended
    rw [hfiles, hremaining, hnow, hr]
    exact ⟨(parseUnits_lines h.parse).symm, rfl⟩

theorem PassRun.tidy (h : PassRun cfg H s s' us as pass) (hs : Exact cfg' H s) :
    Tidy ((pass.remainingUnits us).map SpoolUnit.lines ++ s'.entries.map fun e => e.2.lines) := by
  have htidy := hs.tidy
  rw [← parseUnits_map_lines h.parse] at htidy
  apply htidy.subperm
  have hparts : (pass.remainingUnits us ++ s'.entries.map Prod.snd).Subperm
      (us ++ s.entries.map Prod.snd) := by
    rw [h.entries]
    refine ((subperm_append_left _).mpr (sidecarEntries_units pass us s.entries)).trans ?_
    refine (perm_append_comm.append_left _).subperm.trans ?_
    rw [← append_assoc]
    exact (subperm_append_right _).mpr (remaining_quarantined pass us)
  have hlines := subperm_map SpoolUnit.lines hparts
  rw [map_append, map_append, map_map, map_map] at hlines
  exact hlines

theorem PassRun.parse_after (h : PassRun cfg H s s' us as pass) (hs : Exact cfg' H s) :
    parseUnits H s'.files.spool = some (pass.remainingUnits us) := by
  rw [h.files.1]
  apply parseUnits_units
  · exact (h.tidy hs).sublist (sublist_append_left _ _)
  · intro u hu
    exact parsed_of_mem h.parse (mem_of_mem_filter hu)

theorem PassRun.prior_eq (h : PassRun cfg H s s' us as pass) (hk : k ∈ keysOf H s.files.spool) :
    pass.prior k = clamped (s.fails k) := by
  rw [h.prior]
  unfold arrive
  rw [if_pos hk]

theorem PassRun.mem_keys (h : PassRun cfg H s s' us as pass)
    (hd : ReplayedIn ((dispatched us).zip as) k ∨ FailedIn ((dispatched us).zip as) k) :
    k ∈ keysOf H s.files.spool := by
  rw [keysOf_eq h.parse]
  exact key_of_done hd

theorem PassRun.stays (h : PassRun cfg H s s' us as pass) (hs : Exact cfg' H s) :
    k ∈ keysOf H s'.files.spool ↔ k ∈ keysOf H s.files.spool ∧
      ¬ ReplayedIn ((dispatched us).zip as) k ∧
      ¬ (FailedIn ((dispatched us).zip as) k ∧ cfg.quarantine_threshold ≤ clamped (s.fails k) + 1) := by
  rw [keysOf_eq (h.parse_after hs), mem_remaining_keys h.scored, ← keysOf_eq h.parse, h.threshold]
  apply and_congr_right
  intro hk
  rw [h.prior_eq hk]

theorem PassRun.plainEntries (h : PassRun cfg H s s' us as pass) (hs : Exact cfg' H s) :
    PlainEntries (pass.quarantinedNow us) := by
  intro e he line hline
  exact hs.plain line (lines_subset h.parse (mem_quarantinedNow he).1 line hline)

theorem PassRun.blocks (h : PassRun cfg H s s' us as pass) (hs : Exact cfg' H s) :
    ∀ e ∈ s'.entries, Plain e.2.lines ∧ HasBlock header s'.files.quarantine e.1 e.2.lines := by
  intro e he
  rw [h.entries] at he
  obtain ⟨hkept, hfrom⟩ := mem_sidecarEntries he
  rw [h.files.2]
  rcases hfrom with ⟨he, hother⟩ | ⟨st, hlast⟩
  · obtain ⟨hplain, hblock⟩ := hs.blocks e he
    have hblock := hasBlock_appended_kept (h.plainEntries hs) hother hblock
    exact ⟨hplain, hasBlock_reconciled hkept hblock⟩
  · have hblock := hasBlock_appended (q := s.files.quarantine) (h.plainEntries hs) hlast
    exact ⟨h.plainEntries hs _ (Assoc.mem_of_last? hlast), hasBlock_reconciled hkept hblock⟩

/-- The count that is written is the number of failed passes in a row. -/
theorem PassRun.counts (h : PassRun cfg H s s' us as pass) (hs : Exact cfg' H s) :
    s'.counted k = some (clamped (arrive H s'.files.spool s'.fails k)) := by
  have hcommit := h.commit
  by_cases hch : pass.hasChanges = true
  · have hretry : s'.files.retry = some (writeRetryState (pass.retryState us)) := by
      rw [commit_whole hcommit hch h.parse]
    obtain ⟨read, hload, -, -, hlookup⟩ := load_write (nodup_retryState pass us)
    unfold Drainer.counted arrive
    rw [hretry, hload, Option.map_some, hlookup, count_retryState h.scored, h.fails,
      keysOf_eq (h.parse_after hs)]
    congr 1
    by_cases hk : k ∈ (pass.remainingUnits us).filterMap SpoolUnit.key
    · have hin := ((h.stays hs).mp (by rw [keysOf_eq (h.parse_after hs)]; exact hk)).1
      rw [if_pos hk, if_pos hk]
      unfold nextFails
      rw [h.prior_eq hin]
      -- a count above the clamp stays there
      unfold clamped
      cases verdict ((dispatched us).zip as) k with
      | replayed => rfl
      | retained =>
        dsimp only
        omega
      | failed =>
        dsimp only
        omega
    · rw [if_neg hk, if_neg hk]
      rfl
  · rw [Bool.not_eq_true] at hch
    obtain ⟨-, -, hnone⟩ := unchanged_of_scored h.scored hch
    unfold Pass.commit at hcommit
    rw [hch] at hcommit
    have hfiles : s'.files = s.files := (Option.some.inj hcommit).symm
    have hverdict : verdict ((dispatched us).zip as) k = .retained := by
      cases hv : verdict ((dispatched us).zip as) k with
      | replayed => exact ((hnone k).1 (verdict_replayed.mp hv)).elim
      | failed => exact ((hnone k).2 (verdict_failed.mp hv).2).elim
      | retained => rfl
    have hcount := hs.counts k
    unfold Drainer.counted arrive at hcount ⊢
    rw [hfiles, h.fails]
    unfold nextFails
    rw [hverdict]
    exact hcount

theorem PassRun.below (h : PassRun cfg H s s' us as pass) (hs : Exact cfg H s)
    (hk : k ∈ keysOf H s'.files.spool) : clamped (s'.fails k) < cfg.quarantine_threshold := by
  obtain ⟨hin, -, hcross⟩ := (h.stays hs).mp hk
  have hlt := hs.below k hin
  rw [h.fails]
  unfold nextFails
  cases hv : verdict ((dispatched us).zip as) k with
  | replayed => exact cfg.quarantine_threshold_pos
  | retained => exact hlt
  | failed =>
    have hnot : ¬ cfg.quarantine_threshold ≤ clamped (s.fails k) + 1 :=
      fun hc => hcross ⟨(verdict_failed.mp hv).2, hc⟩
    unfold clamped at hnot ⊢
    dsimp only
    omega

/-- A pass keeps the invariant for another threshold when the counts stay below that one. -/
theorem PassRun.exact_of (h : PassRun cfg H s s' us as pass) (hs : Exact cfg' H s)
    (hbelow : ∀ k ∈ keysOf H s'.files.spool, clamped (s'.fails k) < cfg'.quarantine_threshold) :
    Exact cfg' H s' where
  plain := by
    intro line hline
    rw [h.files.1] at hline
    obtain ⟨u, hu, hline⟩ := mem_flatMap.mp hline
    exact hs.plain line (lines_subset h.parse (mem_of_mem_filter hu) line hline)
  tidy := by
    rw [← parseUnits_map_lines (h.parse_after hs)]
    exact h.tidy hs
  blocks := h.blocks hs
  counts _ := h.counts hs
  below := hbelow

theorem PassRun.exact (h : PassRun cfg H s s' us as pass) (hs : Exact cfg H s) :
    Exact cfg H s' := h.exact_of hs fun _ hk => h.below hs hk

end Passes

/-! ## Every operation -/

section System
variable {cfg cfg' : Config} {H : Host} {s s' : Drainer}

theorem exact_appended (h : Exact cfg' H s) {b : Batch}
    (hstep : Drainer.step cfg H s (.append b) = some s') : Exact cfg' H s' := by
  dsimp only [Drainer.step] at hstep
  split at hstep
  · rename_i lines keys hb
    split at hstep
    · rename_i hfresh
      cases hstep
      have hlines := appendBatch_ok hb
      by_cases hne : b.records = []
      · have hsame : lines = s.files.spool := by
          rw [hlines]
          simp [Batch.lines, hne]
        rw [hsame]
        refine ⟨h.plain, h.tidy, h.blocks, ?_, fun k _ => h.arrive_below k⟩
        intro k
        show s.counted k = some (clamped (arrive H s.files.spool _ k))
        rw [arrive_arrive fun k hk => hk]
        exact h.counts k
      · rw [hlines]
        exact exact_append h hne hfresh
    · cases hstep
  · cases hstep
    exact h

theorem exact_step (h : Exact cfg H s) {op : Op} (hstep : Drainer.step cfg H s op = some s') :
    Exact cfg H s' := by
  cases op with
  | append b => exact exact_appended h hstep
  | pass now os =>
    obtain ⟨us, as, pass, -, hrun⟩ := pass_run h hstep
    exact hrun.exact h
  | restore unit_key =>
    obtain ⟨unit, hunit, rfl⟩ := Option.map_eq_some_iff.mp hstep
    exact exact_restore h hunit
  | clear =>
    cases hstep
    exact exact_clear h

theorem exact_inductive (cfg : Config) (H : Host) :
    (Drainer.system cfg H).Inductive (Exact cfg H) where
  init _ h := exact_init h
  step _ _ _ hI _ h := exact_step hI h

end System

/-! ## Moved exactly at the threshold -/

/-- The units of the key leave the spool, and one of them is whole in the sidecar. -/
def Moved (H : Host) (s s' : Drainer) (unit_key : Str) : Prop :=
  unit_key ∉ keysOf H s'.files.spool ∧ ∃ us u, parseUnits H s.files.spool = some us ∧ u ∈ us ∧
    u.key = some unit_key ∧ HasBlock header s'.files.quarantine unit_key u.lines

section Moves
variable {cfg cfg' : Config} {H : Host} {s s' : Drainer} {us : List SpoolUnit} {as : List Attempt}
  {pass : Pass} {k : Str}

theorem fate_failed (h : Scored pass ((dispatched us).zip as)) {u : SpoolUnit}
    (hk : u.key = some k) (hr : ¬ ReplayedIn ((dispatched us).zip as) k)
    (hf : FailedIn ((dispatched us).zip as) k)
    (hcross : pass.quarantine_threshold ≤ pass.prior k + 1) :
    ∃ st, pass.fate u = .quarantined (k, u, st) := by
  obtain ⟨σ, hσ, rfl⟩ := Option.map_eq_some_iff.mp hk
  obtain ⟨st, hst⟩ := Option.isSome_iff_exists.mp ((h.quarantined _).mpr ⟨hf, hcross⟩)
  refine ⟨st, ?_⟩
  have hnot : σ ∉ pass.replayed_units := (h.replayed σ).not.mpr hr
  unfold Pass.fate
  rw [hσ]
  dsimp only
  rw [if_neg hnot, hst]

theorem replayed_key : k ∈ pass.replayed_units.map unitKey →
    Scored pass ((dispatched us).zip as) → ReplayedIn ((dispatched us).zip as) k := by
  intro hk h
  obtain ⟨σ, hσ, rfl⟩ := mem_map.mp hk
  exact (h.replayed σ).mp hσ

theorem PassRun.moved (h : PassRun cfg H s s' us as pass) (hs : Exact cfg H s)
    (hr : ¬ ReplayedIn ((dispatched us).zip as) k) (hf : FailedIn ((dispatched us).zip as) k)
    (hcross : cfg.quarantine_threshold ≤ clamped (s.fails k) + 1) : Moved H s s' k := by
  have hin := h.mem_keys (.inr hf)
  have hcross' : pass.quarantine_threshold ≤ pass.prior k + 1 := by
    rw [h.threshold, h.prior_eq hin]
    exact hcross
  refine ⟨fun hmem => ((h.stays hs).mp hmem).2.2 ⟨hf, hcross⟩, ?_⟩
  obtain ⟨v, hv, hvk⟩ := hf
  obtain ⟨st, hfate⟩ := fate_failed h.scored hvk hr ⟨v, hv, hvk⟩ hcross'
  have hmem : (k, v, st) ∈ pass.quarantinedNow us := by
    refine mem_filterMap.mpr ⟨v, mem_of_mem_filter (of_mem_zip hv).1, ?_⟩
    rw [hfate]
    rfl
  -- of several units with the key the last is the one in the sidecar
  obtain ⟨⟨u, st'⟩, hlast⟩ := Assoc.last?_of_mem hmem
  obtain ⟨hu, σ, hσ, hkey, -⟩ := mem_quarantinedNow (Assoc.mem_of_last? hlast)
  have huk : u.key = some k := by
    rw [key_of_signature hσ]
    exact congrArg some hkey.symm
  refine ⟨us, u, h.parse, hu, huk, ?_⟩
  rw [h.files.2]
  apply hasBlock_reconciled
  · exact fun hk => hr (replayed_key hk h.scored)
  · exact hasBlock_appended (h.plainEntries hs) hlast

theorem PassRun.of_moved (h : PassRun cfg H s s' us as pass) (hs : Exact cfg H s)
    (hm : Moved H s s' k) : ¬ ReplayedIn ((dispatched us).zip as) k ∧
      FailedIn ((dispatched us).zip as) k ∧ cfg.quarantine_threshold ≤ clamped (s.fails k) + 1 := by
  obtain ⟨hgone, us', u, hus, hu, huk, hblock⟩ := hm
  rw [h.parse] at hus
  cases hus
  have hin : k ∈ keysOf H s.files.spool := by
    rw [keysOf_eq h.parse]
    exact mem_filterMap.mpr ⟨u, hu, huk⟩
  have hr : ¬ ReplayedIn ((dispatched us).zip as) k := by
    intro hr
    obtain ⟨σ, -, rfl⟩ := Option.map_eq_some_iff.mp huk
    have hσ := (h.scored.replayed σ).mpr hr
    have hcount := hblock.count_pos
    rw [h.files.2, countKey_reconciled, if_pos (mem_map_of_mem hσ)] at hcount
    omega
  refine ⟨hr, ?_⟩
  by_contra hnot
  exact hgone ((h.stays hs).mpr ⟨hin, hr, hnot⟩)

theorem PassRun.moved_iff (h : PassRun cfg H s s' us as pass) (hs : Exact cfg H s) :
    Moved H s s' k ↔ verdict ((dispatched us).zip as) k = .failed ∧
      cfg.quarantine_threshold ≤ clamped (s.fails k) + 1 := by
  rw [verdict_failed]
  constructor
  · intro hm
    obtain ⟨hr, hf, hcross⟩ := h.of_moved hs hm
    exact ⟨⟨hr, hf⟩, hcross⟩
  · intro ⟨⟨hr, hf⟩, hcross⟩
    exact h.moved hs hr hf hcross

theorem PassRun.retained (h : PassRun cfg H s s' us as pass) (hs : Exact cfg' H s)
    (hs' : Exact cfg' H s') (hv : verdict ((dispatched us).zip as) k = .retained) :
    s'.counted k = s.counted k := by
  have hr : ¬ ReplayedIn ((dispatched us).zip as) k := by
    intro hr
    rw [verdict_replayed.mpr hr] at hv
    cases hv
  have hf : ¬ FailedIn ((dispatched us).zip as) k := by
    intro hf
    rw [verdict_failed.mpr ⟨hr, hf⟩] at hv
    cases hv
  have hkeys : k ∈ keysOf H s'.files.spool ↔ k ∈ keysOf H s.files.spool := by
    rw [h.stays hs]
    exact and_iff_left ⟨hr, fun hc => hf hc.1⟩
  rw [hs'.counts, hs.counts, h.fails]
  unfold arrive nextFails
  rw [hv]
  simp only [hkeys]

/-- The other operations leave the retry state. -/
theorem step_other {op : Op} (hop : ∀ now os, op ≠ .pass now os)
    (hstep : Drainer.step cfg H s op = some s') : s'.files.retry = s.files.retry := by
  cases op with
  | append b =>
    dsimp only [Drainer.step] at hstep
    split at hstep
    · split at hstep
      · cases hstep
        rfl
      · cases hstep
    · cases hstep
      rfl
  | pass now os => exact (hop now os rfl).elim
  | restore unit_key =>
    obtain ⟨unit, -, rfl⟩ := Option.map_eq_some_iff.mp hstep
    rfl
  | clear =>
    cases hstep
    rfl

/-- In every reachable state the count of a key is the clamped number of its failed passes in
a row, below the threshold, and zero when it has no unit in the spool; a pass moves the keys
that it fails at the threshold and no others, keeps the rest but those it replays, and leaves
the count of a retained key; and a unit that comes to the spool under a new key starts at
zero. -/
theorem quarantine_exact (hr : (Drainer.system cfg H).Reachable s) :
    (∀ k, s.counted k =
      some (if k ∈ keysOf H s.files.spool then clamped (s.fails k) else 0)) ∧
    (∀ k ∈ keysOf H s.files.spool, clamped (s.fails k) < cfg.quarantine_threshold) ∧
    (∀ now os s', Drainer.step cfg H s (.pass now os) = some s' →
      ∃ us as, parseUnits H s.files.spool = some us ∧
        attempts (dispatched us) 0 os = some as ∧ ∀ k,
          (Moved H s s' k ↔ verdict ((dispatched us).zip as) k = .failed ∧
            cfg.quarantine_threshold ≤ clamped (s.fails k) + 1) ∧
          (k ∈ keysOf H s'.files.spool ↔ k ∈ keysOf H s.files.spool ∧
            verdict ((dispatched us).zip as) k ≠ .replayed ∧ ¬ Moved H s s' k) ∧
          (verdict ((dispatched us).zip as) k = .retained → s'.counted k = s.counted k)) ∧
    (∀ op s', (∀ now os, op ≠ .pass now os) → Drainer.step cfg H s op = some s' →
      ∀ k, s'.counted k = s.counted k ∧
        (k ∉ keysOf H s.files.spool → s'.counted k = some 0)) := by
  have hs := (exact_inductive cfg H).reachable hr
  have hcounts : ∀ k, s.counted k =
      some (if k ∈ keysOf H s.files.spool then clamped (s.fails k) else 0) := by
    intro k
    rw [hs.counts]
    unfold arrive
    split <;> rfl
  refine ⟨hcounts, hs.below, ?_, ?_⟩
  · intro now os s' hstep
    obtain ⟨us, as, pass, has, h⟩ := pass_run hs hstep
    refine ⟨us, as, h.parse, has, ?_⟩
    intro k
    refine ⟨h.moved_iff hs, ?_, h.retained hs (h.exact hs)⟩
    rw [h.stays hs, h.moved_iff hs, verdict_failed, ne_eq, verdict_replayed]
    tauto
  · intro op s' hop hstep k
    have hsame : s'.counted k = s.counted k := by
      unfold Drainer.counted
      rw [step_other hop hstep]
    refine ⟨hsame, ?_⟩
    intro hk
    rw [hsame, hcounts, if_neg hk]

end Moves

/-! ## One count for a shared key -/

section Shared

/-- Two failures in a row. -/
def patient : Config := ⟨1000, 1000000, 2, one_le_thousand, one_le_million, Nat.two_pos⟩

def emptyDrainer : Drainer := ⟨⟨[], [], none⟩, [], fun _ => 0⟩

def sharedRun : List Op :=
  [.append (single (units "a")), .pass midnight [.failed []]]

/-- The record `b` comes to the key `k` after a failed pass over `a`, and is quarantined with
it by the next: its first. -/
def sharedCount : Bool :=
  (LTS.exec (Drainer.step patient plainHost) emptyDrainer sharedRun).any fun s =>
    (Drainer.step patient plainHost s (.append (single (units "b")))).any fun s' =>
      (Drainer.step patient plainHost s' (.pass midnight [.failed [], .failed []])).any fun s'' =>
        ((single (units "b")).lines plainHost).all fun line =>
          decide (line ∉ s.files.spool ∧ line ∉ s.files.quarantine ∧ line ∈ s''.files.quarantine)

theorem sharedCount_eq : sharedCount = true := by decide +kernel

theorem oneFailure_eq : ((LTS.exec (Drainer.step patient plainHost) emptyDrainer sharedRun).any
    fun s => s.fails (unitKey (single (units "a")).signature) == 1) = true := by decide +kernel

theorem quarantine_exact_oneFailure : ∃ s : Drainer,
    s.fails (unitKey (single (units "a")).signature) = 1 ∧ ∀ k, s.counted k =
      some (if k ∈ keysOf plainHost s.files.spool then clamped (s.fails k) else 0) := by
  obtain ⟨s, hs, hone⟩ := (Option.any_eq_true _ _).mp oneFailure_eq
  have hreach : (Drainer.system patient plainHost).Reachable s :=
    ⟨emptyDrainer, _, ⟨rfl, rfl, fun _ => rfl⟩, LTS.runOn_of_exec_any hs⟩
  exact ⟨s, eq_of_beq hone, (quarantine_exact hreach).1⟩

theorem shared_count : ¬ ∀ (cfg : Config) (H : Host) (s s' s'' : Drainer) (b : Batch)
    (now : Double) (os : List Dispatch), (Drainer.system cfg H).Reachable s →
      Drainer.step cfg H s (.append b) = some s' →
      Drainer.step cfg H s' (.pass now os) = some s'' → 2 ≤ cfg.quarantine_threshold →
      ∀ line ∈ b.lines H, line ∉ s.files.spool → line ∉ s.files.quarantine →
        line ∉ s''.files.quarantine := by
  intro hclaim
  have hrun := sharedCount_eq
  unfold sharedCount at hrun
  obtain ⟨s, hs, hrun⟩ := (Option.any_eq_true _ _).mp hrun
  obtain ⟨s', hs', hrun⟩ := (Option.any_eq_true _ _).mp hrun
  obtain ⟨s'', hs'', hrun⟩ := (Option.any_eq_true _ _).mp hrun
  have hreach : (Drainer.system patient plainHost).Reachable s :=
    ⟨emptyDrainer, _, ⟨rfl, rfl, fun _ => rfl⟩, LTS.runOn_of_exec_any hs⟩
  obtain ⟨line, hline⟩ := exists_mem_of_ne_nil _
    (Batch.lines_ne (H := plainHost) (b := single (units "b")) (cons_ne_nil _ _))
  obtain ⟨hspool, hquarantine, hmoved⟩ := of_decide_eq_true (all_eq_true.mp hrun line hline)
  exact hclaim patient plainHost s s' s'' _ _ _ hreach hs' hs'' (Nat.le_refl 2) line hline hspool
    hquarantine hmoved

end Shared

end OpenBrain.Memory.Spool
