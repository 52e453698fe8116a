import OpenBrain.Server.ContextPack.StructuredLoaders
import Mathlib.Data.List.Lex
import Mathlib.Data.List.Sort
import Mathlib.Data.Prod.Lex

/-!
# Guidance as a replay of its history

A section reads its lifecycle rows newest first and makes one pass with the keys already decided.
`replay` takes the same rows oldest first: a promote puts its rule in front, in the place of an
earlier rule of its key, a retirement takes the rule of its key away, and an action without a key
concerns no other. Both come to the same rules in the same order (`guidance_replays`).
-/
namespace OpenBrain.Server.ContextPack

open OpenBrain.Core List

variable {ν : Type}

/-! ## Rules -/

def replayStep (rules : List (LifecycleRow ν)) (row : LifecycleRow ν) : List (LifecycleRow ν) :=
  match row.scopeKey with
  | none => if row.action = some (units "promote") then row :: rules else rules
  | some key =>
    let others := rules.filter fun rule => decide (rule.scopeKey ≠ some key)
    if row.action = some (units "promote") then row :: others
    else if row.action.any supersedingActions.contains then others
    else rules

/-- The rules after a history, oldest first. -/
def replay (rows : List (LifecycleRow ν)) : List (LifecycleRow ν) := rows.foldl replayStep []

def shown (rules : List (LifecycleRow ν)) : List (LifecycleRow ν × Str) :=
  rules.filterMap fun rule => rule.content.map fun text => (rule, text)

/-- A row the query returns for a type. -/
structure Decisive (candidateType : Str) (row : LifecycleRow ν) : Prop where
  type : row.candidateType = some candidateType
  action : row.action = some (units "promote") ∨
    ∃ action, row.action = some action ∧ action ≠ units "promote" ∧
      supersedingActions.contains action = true

/-! ## One pass, newest first -/

/-- The rules of the rows, newest first, when some keys are decided by newer rows. -/
def standing (decided : List Str) : List (LifecycleRow ν) → List (LifecycleRow ν)
  | [] => []
  | row :: rows =>
    match row.scopeKey with
    | none => if row.action = some (units "promote") then row :: standing decided rows
      else standing decided rows
    | some key =>
      if decided.contains key then standing decided rows
      else if row.action = some (units "promote") then row :: standing (key :: decided) rows
      else standing (key :: decided) rows

theorem not_mem_retired {decided : List Str} {rows : List (LifecycleRow ν)} {key : Str}
    (h : key ∈ decided) : key ∉ retiredScopeKeys decided rows := by
  induction rows generalizing decided with
  | nil => simp [retiredScopeKeys]
  | cons row rows ih =>
    rw [retiredScopeKeys]
    split
    · rename_i other action _ _
      split
      · exact ih h
      · rename_i hother
        have hne : key ≠ other := fun heq => hother (contains_iff_mem.mpr (heq ▸ h))
        have hrest := @ih (other :: decided) (mem_cons_of_mem _ h)
        split
        · exact hrest
        · split
          · exact fun hmem => (mem_cons.mp hmem).elim hne hrest
          · exact ih h
    · exact ih h

/-- The pass of the section is the pass by decided keys: a key decided by a newer row is one seen
as standing or one that a newer row retires. -/
theorem selectGuidanceItems_eq {candidateType : Str} {rows : List (LifecycleRow ν)}
    (hrows : ∀ row ∈ rows, Decisive candidateType row) {decided retired seen newer : List Str}
    (hdecided : ∀ key, key ∈ decided ↔ key ∈ seen ∨ key ∈ newer)
    (hretired : ∀ key, key ∈ retired ↔ key ∈ newer ∨ key ∈ retiredScopeKeys decided rows) :
    selectGuidanceItems candidateType retired seen rows = shown (standing decided rows) := by
  induction rows generalizing decided seen newer with
  | nil => rfl
  | cons row rows ih =>
    obtain ⟨htype, haction⟩ := hrows row mem_cons_self
    have ih := fun {decided seen newer : List Str} =>
      @ih (fun r hr => hrows r (mem_cons_of_mem _ hr)) decided seen newer
    rw [selectGuidanceItems, standing]
    cases hkey : row.scopeKey with
    | none =>
      have hretired' : ∀ key, key ∈ retired ↔ key ∈ newer ∨ key ∈ retiredScopeKeys decided rows := by
        intro key
        rw [hretired, retiredScopeKeys, hkey]
      rcases haction with haction | ⟨action, haction, hne, -⟩
      · have hstands : isStandingPromote row candidateType retired seen = true := by
          simp [isStandingPromote, haction, htype, hkey]
        rw [if_pos hstands]
        dsimp only
        rw [if_pos haction, Option.toList_none, nil_append, ih hdecided hretired', shown,
          shown, filterMap_cons]
        cases row.content with
        | none => rfl
        | some text => rfl
      · have hfalls : isStandingPromote row candidateType retired seen = false := by
          simp [isStandingPromote, haction, hne]
        dsimp only
        rw [hfalls, if_neg Bool.false_ne_true, if_neg (by simp [haction, hne])]
        exact ih hdecided hretired'
    | some key =>
      dsimp only
      by_cases hin : key ∈ decided
      · -- a newer row decided the key: seen as standing, or retired
        have hretired' : ∀ other, other ∈ retired ↔
            other ∈ newer ∨ other ∈ retiredScopeKeys decided rows := by
          intro other
          rw [hretired, retiredScopeKeys, hkey]
          rcases haction with haction | ⟨action, haction, -, -⟩ <;>
            · rw [haction]
              dsimp only
              rw [if_pos (contains_iff_mem.mpr hin)]
        have hfalls : isStandingPromote row candidateType retired seen = false := by
          have hblocked : key ∈ retired ∨ key ∈ seen :=
            ((hdecided key).mp hin).symm.imp_left fun h => (hretired key).mpr (.inl h)
          rcases hblocked with h | h <;> simp [isStandingPromote, hkey, h]
        rw [hfalls, if_neg Bool.false_ne_true, if_pos (contains_iff_mem.mpr hin)]
        exact ih hdecided hretired'
      · have hopen : ¬ decided.contains key = true := by simpa using hin
        have hnew : key ∉ seen ∧ key ∉ newer := not_or.mp fun h => hin ((hdecided key).mpr h)
        rcases haction with haction | ⟨action, haction, hne, hsupersedes⟩
        · have hrest : retiredScopeKeys decided (row :: rows) =
              retiredScopeKeys (key :: decided) rows := by
            rw [retiredScopeKeys, hkey, haction]
            dsimp only
            rw [if_neg hopen, if_pos rfl]
          have hnot : key ∉ retired := fun h => by
            rcases (hretired key).mp h with h | h
            · exact hnew.2 h
            · rw [hrest] at h
              exact not_mem_retired mem_cons_self h
          have hstands : isStandingPromote row candidateType retired seen = true := by
            simp [isStandingPromote, haction, htype, hkey, hnot, hnew.1]
          rw [if_pos hstands, if_neg hopen, if_pos haction]
          have hrec := @ih (key :: decided) (key :: seen) newer
            (fun other => by rw [mem_cons, mem_cons, hdecided, or_assoc])
            (fun other => by rw [hretired, hrest])
          dsimp only [Option.toList_some, cons_append, nil_append]
          rw [hrec, shown, shown, filterMap_cons]
          cases row.content with
          | none => rfl
          | some text => rfl
        · have hrest : retiredScopeKeys decided (row :: rows) =
              key :: retiredScopeKeys (key :: decided) rows := by
            rw [retiredScopeKeys, hkey, haction]
            dsimp only
            rw [if_neg hopen, if_neg hne, if_pos hsupersedes]
          have hfalls : isStandingPromote row candidateType retired seen = false := by
            simp [isStandingPromote, haction, hne]
          rw [hfalls, if_neg Bool.false_ne_true, if_neg hopen, if_neg (by simp [haction, hne])]
          refine @ih (key :: decided) seen (key :: newer) (fun other => ?_) fun other => ?_
          · rw [mem_cons, mem_cons, hdecided]
            tauto
          · rw [hretired, hrest, mem_cons, mem_cons]
            tauto

/-! ## The replay -/

/-- Under keys decided by newer rows, the older rows leave their rules of other keys. -/
theorem standing_eq_replay {candidateType : Str} {rows : List (LifecycleRow ν)}
    (hrows : ∀ row ∈ rows, Decisive candidateType row) (decided : List Str) :
    standing decided rows = (replay rows.reverse).filter fun rule =>
      rule.scopeKey.all fun key => !decided.contains key := by
  induction rows generalizing decided with
  | nil => rfl
  | cons row rows ih =>
    have hrow := hrows row mem_cons_self
    have ih := ih fun r hr => hrows r (mem_cons_of_mem _ hr)
    have hstep : replay (row :: rows).reverse = replayStep (replay rows.reverse) row := by
      rw [replay, reverse_cons, foldl_append]
      rfl
    rw [hstep, standing, replayStep]
    cases hkey : row.scopeKey with
    | none =>
      dsimp only
      split
      · rw [ih, filter_cons_of_pos (by simp [hkey])]
      · exact ih decided
    | some key =>
      dsimp only
      -- what is left of the older rules when the key is decided as well
      have hothers : ∀ rules : List (LifecycleRow ν),
          ((rules.filter fun rule => decide (rule.scopeKey ≠ some key)).filter fun rule =>
            rule.scopeKey.all fun k => !decided.contains k) =
          rules.filter fun rule => rule.scopeKey.all fun k => !(key :: decided).contains k := by
        intro rules
        rw [filter_filter]
        refine filter_congr fun rule _ => ?_
        cases rule.scopeKey with
        | none => simp
        | some k => by_cases heq : k = key <;> simp [heq, Bool.and_comm]
      have hsame : key ∈ decided → ∀ rules : List (LifecycleRow ν),
          (rules.filter fun rule => rule.scopeKey.all fun k => !(key :: decided).contains k) =
          rules.filter fun rule => rule.scopeKey.all fun k => !decided.contains k := by
        intro hin rules
        refine filter_congr fun rule _ => ?_
        cases rule.scopeKey with
        | none => rfl
        | some k => by_cases heq : k = key <;> simp [heq, hin]
      by_cases hin : key ∈ decided
      · rw [if_pos (by simpa using hin), ih]
        split
        · rw [filter_cons_of_neg (by simp [hkey, hin]), hothers, hsame hin]
        · split
          · rw [hothers, hsame hin]
          · rfl
      · rw [if_neg (by simpa using hin)]
        rcases hrow.action with haction | ⟨action, haction, hne, hsupersedes⟩
        · rw [if_pos haction, if_pos haction, ih,
            filter_cons_of_pos (by simpa [hkey] using hin), hothers]
        · rw [if_neg (by simp [haction, hne]), if_neg (by simp [haction, hne]), ih,
            if_pos (by rw [haction]; exact hsupersedes), hothers]

/-- The section's pass over rows that come newest first. -/
theorem select_eq_replay {candidateType : Str} {rows : List (LifecycleRow ν)}
    (hrows : ∀ row ∈ rows, Decisive candidateType row) :
    selectGuidanceItems candidateType (retiredScopeKeys [] rows) [] rows =
      shown (replay rows.reverse) := by
  have hpass := @selectGuidanceItems_eq ν candidateType rows hrows [] (retiredScopeKeys [] rows) []
    [] (by simp) (by simp)
  rw [hpass, standing_eq_replay hrows]
  congr 1
  rw [filter_eq_self]
  intro rule _
  cases rule.scopeKey <;> simp

theorem mem_replay_iff {candidateType : Str} {rows : List (LifecycleRow ν)}
    (hrows : ∀ row ∈ rows, Decisive candidateType row) {key : Str} {rule : LifecycleRow ν}
    (hkey : rule.scopeKey = some key) : rule ∈ replay rows ↔
      ∃ before after, rows = before ++ rule :: after ∧
        rule.action = some (units "promote") ∧ ∀ row ∈ after, row.scopeKey ≠ some key := by
  induction rows using List.reverseRecOn with
  | nil => simp [replay]
  | append_singleton rows row ih =>
    have ih := ih fun r hr => hrows r (mem_append_left _ hr)
    have haction := (hrows row (by simp)).action
    -- a split of the longer history: at its last row, or before it
    have hsplit : (∃ before after, rows ++ [row] = before ++ rule :: after ∧
        rule.action = some (units "promote") ∧ ∀ r ∈ after, r.scopeKey ≠ some key) ↔
        (rule = row ∧ rule.action = some (units "promote")) ∨
          (rule ∈ replay rows ∧ row.scopeKey ≠ some key) := by
      rw [ih]
      constructor
      · rintro ⟨before, after, heq, hpromote, hafter⟩
        rcases eq_nil_or_concat after with rfl | ⟨after, last, rfl⟩
        · obtain ⟨-, hlast⟩ := append_inj' heq rfl
          exact .inl ⟨(cons_eq_cons.mp hlast).1.symm, hpromote⟩
        · rw [concat_eq_append] at heq hafter
          rw [← cons_append, ← append_assoc] at heq
          obtain ⟨rfl, hlast⟩ := append_inj' heq rfl
          obtain ⟨rfl, -⟩ := cons_eq_cons.mp hlast
          exact .inr ⟨⟨before, after, rfl, hpromote, fun r hr =>
            hafter r (mem_append_left _ hr)⟩, hafter row (by simp)⟩
      · rintro (⟨rfl, hpromote⟩ | ⟨⟨before, after, rfl, hpromote, hafter⟩, hrow⟩)
        · exact ⟨rows, [], rfl, hpromote, fun r hr => nomatch hr⟩
        · refine ⟨before, after ++ [row], by simp, hpromote, fun r hr => ?_⟩
          rcases mem_append.mp hr with hr | hr
          · exact hafter r hr
          · rw [mem_singleton.mp hr]
            exact hrow
    rw [hsplit, replay, foldl_append]
    show rule ∈ replayStep (replay rows) row ↔ _
    rw [replayStep]
    cases hrowkey : row.scopeKey with
    | none =>
      dsimp only
      have hne : rule ≠ row := fun heq => by
        rw [heq, hrowkey] at hkey
        cases hkey
      split <;> simp [hne]
    | some other =>
      dsimp only
      have hother : (rule ∈ (replay rows).filter fun r => decide (r.scopeKey ≠ some other)) ↔
          rule ∈ replay rows ∧ key ≠ other := by
        rw [mem_filter, hkey]
        simp
      rcases haction with haction | ⟨action, haction, hne, hsupersedes⟩
      · rw [if_pos haction, mem_cons, hother]
        constructor
        · rintro (rfl | ⟨hmem, hother⟩)
          · exact .inl ⟨rfl, haction⟩
          · exact .inr ⟨hmem, fun heq => hother (Option.some.inj heq).symm⟩
        · rintro (⟨rfl, -⟩ | ⟨hmem, hother⟩)
          · exact .inl rfl
          · exact .inr ⟨hmem, fun heq => hother (congrArg some heq.symm)⟩
      · rw [if_neg (by simp [haction, hne]), if_pos (by rw [haction]; exact hsupersedes), hother]
        constructor
        · rintro ⟨hmem, hother⟩
          exact .inr ⟨hmem, fun heq => hother (Option.some.inj heq).symm⟩
        · rintro (⟨rfl, hpromote⟩ | ⟨hmem, hother⟩)
          · rw [haction] at hpromote
            exact absurd (Option.some.inj hpromote) hne
          · exact ⟨hmem, fun heq => hother (congrArg some heq.symm)⟩

/-! ## Histories of events -/

/-- The events of a database with their instants of creation, in any order, and its lanes. -/
structure EventHistory (ν : Type) where
  lanes : List (LaneRow ν)
  events : List (Int × EventRow ν)
  lanes_nodup : (lanes.map LaneRow.id).Nodup
  events_nodup : (events.map fun e => e.2.id).Nodup

/-- `created_at`, then the id: an id is the lower-case text of a uuid, ordered as its bytes. -/
def stamp (e : Int × EventRow ν) : Int ×ₗ List Nat := toLex (e.1, e.2.id.map UInt16.toNat)

def oldestFirst (events : List (Int × EventRow ν)) : List (Int × EventRow ν) :=
  events.insertionSort fun a b => stamp a ≤ stamp b

/-- `ORDER BY e.created_at DESC, e.id DESC` -/
def newestFirst (events : List (Int × EventRow ν)) : List (Int × EventRow ν) :=
  events.insertionSort fun a b => stamp b ≤ stamp a

def EventHistory.tables (h : EventHistory ν) : ContextTables ν where
  lanes := h.lanes
  events := (newestFirst h.events).map Prod.snd
  entities := []
  lanes_nodup := h.lanes_nodup
  events_nodup := by
    rw [map_map]
    exact ((perm_insertionSort _ h.events).map _).nodup_iff.mpr h.events_nodup
  entities_nodup := nodup_nil

def isGuidance (t : ContextTables ν) («namespace» candidateType : Str) (e : EventRow ν) : Bool :=
  (t.laneOfEvent e).any (fun lane => decide (lane.«namespace» = «namespace»)) &&
    decide (e.candidateType = some candidateType) &&
    e.memoryLifecycleAction.any [units "promote", units "relegate", units "discard"].contains

def EventHistory.guidance (h : EventHistory ν) («namespace» candidateType : Str) :
    List (Int × EventRow ν) :=
  h.events.filter fun e => isGuidance h.tables «namespace» candidateType e.2

theorem stamp_inj {a b : Int × EventRow ν} (h : stamp a = stamp b) : a.2.id = b.2.id := by
  have hid := congrArg (fun k => (ofLex k).2) h
  exact map_injective_iff.mpr (fun _ _ h => UInt16.toNat_inj.mp h) hid

theorem oldestFirst_lt {events : List (Int × EventRow ν)}
    (h : (events.map fun e => e.2.id).Nodup) :
    (oldestFirst events).Pairwise fun a b => stamp a < stamp b := by
  have hle : (oldestFirst events).Pairwise fun a b => stamp a ≤ stamp b :=
    pairwise_insertionSort _ _
  have hne : (oldestFirst events).Pairwise fun a b => a.2.id ≠ b.2.id :=
    pairwise_map.mp (((perm_insertionSort _ events).map _).nodup_iff.mpr h)
  exact (hle.and hne).imp fun h => lt_of_le_of_ne h.1 fun heq => h.2 (stamp_inj heq)

/-- The query's order is the history backwards. -/
theorem filter_newestFirst {events : List (Int × EventRow ν)}
    (h : (events.map fun e => e.2.id).Nodup) (p : Int × EventRow ν → Bool) :
    (newestFirst events).filter p = (oldestFirst (events.filter p)).reverse := by
  have hge : (newestFirst events).Pairwise fun a b => stamp b ≤ stamp a :=
    pairwise_insertionSort _ _
  have hne : (newestFirst events).Pairwise fun a b => a.2.id ≠ b.2.id :=
    pairwise_map.mp (((perm_insertionSort _ events).map _).nodup_iff.mpr h)
  have hgt : (newestFirst events).Pairwise fun a b => stamp b < stamp a :=
    (hge.and hne).imp fun h => lt_of_le_of_ne h.1 fun heq => h.2 (stamp_inj heq.symm)
  refine List.Perm.eq_of_pairwise (fun a b _ _ hab hba => absurd (hab.trans hba) (lt_irrefl _))
    (hgt.filter _) (pairwise_reverse.mpr
      (oldestFirst_lt (h.sublist (filter_sublist.map _)))) ?_
  exact ((perm_insertionSort _ events).filter p).trans
    ((reverse_perm _).trans (perm_insertionSort _ _)).symm

theorem decisive_of_guidance {t : ContextTables ν} {ns candidateType : Str} {e : EventRow ν}
    (htype : candidateType ≠ []) (h : isGuidance t ns candidateType e = true) :
    Decisive candidateType (normalizeRow e) := by
  obtain ⟨h, haction⟩ := Bool.and_eq_true_iff.mp h
  have htypeOf := of_decide_eq_true (Bool.and_eq_true_iff.mp h).2
  refine ⟨?_, ?_⟩
  · simp [normalizeRow, asText, htypeOf, htype]
  · obtain ⟨action, hsome, hmem⟩ := (Option.any_eq_true _ _).mp haction
    have haction : (normalizeRow e).action = some action := by
      have hne : action ≠ [] := by
        rintro rfl
        exact absurd hmem (by decide)
      simp [normalizeRow, asText, hsome, hne]
    by_cases hpromote : action = units "promote"
    · exact .inl (hpromote ▸ haction)
    · refine .inr ⟨action, haction, hpromote, ?_⟩
      rw [contains_iff_mem] at hmem ⊢
      exact (mem_cons.mp hmem).resolve_left hpromote

end OpenBrain.Server.ContextPack
