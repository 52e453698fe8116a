import OpenBrain.Server.Distill.Isolation

/-!
# Context of a claim and of the whole session

The statement claims rows by `session_seq`, the builder walks them by `(occurred_at, id)`. A walk
over a part of a sorted list is the walk over all of it exactly when the part has everything the
longer walk meets (`walkBack_filter_iff`), so the claimed units are those of the complete sessions
exactly when no turn of a window is left unclaimed (`units_complete_iff`).
-/
namespace OpenBrain.Server.Distill
open OpenBrain.Core List

variable {c : Collation} {db : RawTurns} {options : ClaimDistillOptions}
  {groups : List (Option Str)}

/-! ## Walks over a part of the turns -/

theorem walkBack_nil {current : DistillTurn} {window : Option Nat} {earlier : List DistillTurn}
    (h : ∀ t ∈ earlier, t.session_ref ≠ current.session_ref) :
    walkBack current window earlier = [] := by
  cases earlier with
  | nil => rfl
  | cons prior earlier =>
    rw [walkBack, if_pos (.inr (h prior mem_cons_self))]

theorem mem_of_mem_walkBack {current t : DistillTurn} {window : Option Nat}
    {earlier : List DistillTurn} (h : t ∈ walkBack current window earlier) : t ∈ earlier := by
  induction earlier generalizing window with
  | nil => exact h
  | cons prior earlier ih =>
    rw [walkBack] at h
    split at h
    · cases h
    · rcases mem_cons.mp h with rfl | h
      · exact mem_cons_self
      · exact mem_cons_of_mem _ (ih h)

/-- Dropping turns leaves the walk as it is exactly when it met none of them: the session's turns
lie together, so behind its end there is no more of it. -/
theorem walkBack_filter_iff {p : DistillTurn → Bool} {current : DistillTurn} {window : Option Nat}
    {earlier : List DistillTurn}
    (hs : earlier.Pairwise fun a b => orderKey c b < orderKey c a)
    (hcur : ∀ t ∈ earlier, orderKey c t < orderKey c current) :
    walkBack current window (earlier.filter p) = walkBack current window earlier ↔
      ∀ t ∈ walkBack current window earlier, p t = true := by
  induction earlier generalizing window with
  | nil => simp [walkBack]
  | cons prior earlier ih =>
    obtain ⟨hprior, hs⟩ := pairwise_cons.mp hs
    have ih := fun window => @ih window hs fun t ht => hcur t (mem_cons_of_mem _ ht)
    by_cases hw : window = some 0
    · subst hw
      simp [walkBack_some]
    by_cases hsession : prior.session_ref = current.session_ref
    · have hwalk : ∀ rest, walkBack current window (prior :: rest) =
          prior :: walkBack current (window.map (· - 1)) rest := by
        intro rest
        rw [walkBack, if_neg (by simp [hw, hsession])]
      cases hp : p prior with
      | true => simp [filter_cons_of_pos hp, hwalk, ih, hp]
      | false =>
        -- the walk over the part never meets the dropped turn
        have hnot : prior ∉ walkBack current window (earlier.filter p) := fun h =>
          lt_irrefl _ (hprior prior (mem_of_mem_filter (mem_of_mem_walkBack h)))
        rw [filter_cons_of_neg (by simp [hp]), hwalk]
        constructor
        · intro h
          rw [h] at hnot
          exact absurd mem_cons_self hnot
        · intro h
          simp [h prior mem_cons_self] at hp
    · -- the session ends here, for the part as well
      have hnone : ∀ t ∈ prior :: earlier, t.session_ref ≠ current.session_ref := by
        intro t ht heq
        rcases mem_cons.mp ht with rfl | hmem
        · exact hsession heq
        · exact hsession (contiguous_session t prior current (hprior t hmem).le
            (hcur prior mem_cons_self).le heq)
      rw [walkBack_nil hnone, walkBack_nil fun t ht => hnone t (mem_of_mem_filter ht)]
      simp

/-- The units of the wanted turns are the same over a part that has those turns exactly when each
of their walks is. -/
theorem unitsFrom_filter_iff {p q : DistillTurn → Bool} (hq : ∀ t, q t = true → p t = true)
    (window : Option Nat) (earlier later : List DistillTurn) :
    ((unitsFrom window (earlier.filter p) (later.filter p)).filter fun u => q u.current) =
        (unitsFrom window earlier later).filter (fun u => q u.current) ↔
      ∀ pre current post, later = pre ++ current :: post → q current = true →
        isSpeech current.role = true →
        walkBack current window ((pre.reverse ++ earlier).filter p) =
          walkBack current window (pre.reverse ++ earlier) := by
  induction later generalizing earlier with
  | nil => simp [unitsFrom]
  | cons turn later ih =>
    have ih := ih (turn :: earlier)
    -- a split of the list is one at its head or one behind it
    have hsplit : (∀ pre current post, turn :: later = pre ++ current :: post → q current = true →
        isSpeech current.role = true →
        walkBack current window ((pre.reverse ++ earlier).filter p) =
          walkBack current window (pre.reverse ++ earlier)) ↔
        (q turn = true → isSpeech turn.role = true →
          walkBack turn window (earlier.filter p) = walkBack turn window earlier) ∧
        ∀ pre current post, later = pre ++ current :: post → q current = true →
          isSpeech current.role = true →
          walkBack current window ((pre.reverse ++ turn :: earlier).filter p) =
            walkBack current window (pre.reverse ++ turn :: earlier) := by
      constructor
      · intro h
        refine ⟨fun hturn hspeech => h [] turn later rfl hturn hspeech, ?_⟩
        intro pre current post hlater hcur hspeech
        simpa using h (turn :: pre) current post (by rw [hlater]; rfl) hcur hspeech
      · rintro ⟨hhead, htail⟩ pre current post hlater hcur hspeech
        cases pre with
        | nil =>
          obtain ⟨rfl, -⟩ := cons_eq_cons.mp hlater
          exact hhead hcur hspeech
        | cons first pre =>
          obtain ⟨rfl, hrest⟩ := cons_eq_cons.mp hlater
          simpa using htail pre current post hrest hcur hspeech
    rw [hsplit]
    cases hp : p turn with
    | false =>
      -- a turn outside the part has no wanted unit
      have hqt : q turn = false := by
        rcases Bool.eq_false_or_eq_true (q turn) with h | h
        · rw [hq turn h] at hp
          cases hp
        · exact h
      rw [filter_cons_of_neg (by simp [hp])]
      rw [filter_cons_of_neg (by simp [hp])] at ih
      rw [← ih, unitsFrom]
      split
      · simp [hqt]
      · simp [hqt]
    | true =>
      rw [filter_cons_of_pos hp]
      rw [filter_cons_of_pos hp] at ih
      rw [← ih, unitsFrom, unitsFrom]
      cases hspeech : isSpeech turn.role with
      | false => simp
      | true =>
        cases hqt : q turn with
        | false => simp [hqt]
        | true => simp [hqt]

/-- The walks of the wanted turns lose nothing to the part, told without the walk. -/
theorem walks_iff {p q : DistillTurn → Bool} {window : Option Nat} {turns : List DistillTurn}
    (hs : turns.Pairwise fun a b => orderKey c a < orderKey c b) :
    (∀ pre current post, turns = pre ++ current :: post → q current = true →
        isSpeech current.role = true →
        walkBack current window ((pre.reverse ++ []).filter p) =
          walkBack current window (pre.reverse ++ [])) ↔
      ∀ current ∈ turns, q current = true → isSpeech current.role = true →
        ∀ t ∈ turns, t.session_ref = current.session_ref →
          orderKey c t < orderKey c current →
          within window (between (orderKey c) turns t current).length → p t = true := by
  have hwalk : ∀ pre current post, turns = pre ++ current :: post →
      (walkBack current window (pre.reverse.filter p) = walkBack current window pre.reverse ↔
        ∀ t ∈ walkBack current window pre.reverse, p t = true) := by
    rintro pre current post rfl
    obtain ⟨hpre, -, hcross⟩ := pairwise_append.mp hs
    refine walkBack_filter_iff (pairwise_reverse.mpr hpre) fun t ht => ?_
    exact hcross t (mem_reverse.mp ht) current mem_cons_self
  simp only [append_nil]
  constructor
  · intro h current hcur hq hspeech t ht hsession hkey hwithin
    obtain ⟨pre, post, hsplit⟩ := append_of_mem hcur
    refine (hwalk pre current post hsplit).mp (h pre current post hsplit hq hspeech) t ?_
    subst hsplit
    exact (mem_walkBack_iff hs).mpr ⟨ht, hkey, hsession, hwithin⟩
  · intro h pre current post hsplit hq hspeech
    refine (hwalk pre current post hsplit).mpr fun t ht => ?_
    subst hsplit
    obtain ⟨htmem, hkey, hsession, hwithin⟩ := (mem_walkBack_iff hs).mp ht
    exact h current (by simp) hq hspeech t htmem hsession hkey hwithin

/-! ## The claimed part -/

theorem ordered_filter {rows : List RawTurn} (hids : (rows.map fun r => r.id).Nodup)
    (p : RawTurn → Bool) : ordered c (rows.filter p) = (ordered c rows).filter p := by
  have hlt : ∀ {rows : List RawTurn}, (rows.map fun r => r.id).Nodup →
      (ordered c rows).Pairwise fun a b =>
        orderKey c a.toDistillTurn < orderKey c b.toDistillTurn := by
    intro rows h
    have hturns := ordered_lt (c := c) h
    rw [pairwise_map] at hturns
    exact hturns
  refine List.Perm.eq_of_pairwise (fun a b _ _ hab hba => absurd (hab.trans hba) (lt_irrefl _))
    (hlt (hids.sublist (filter_sublist.map _))) ((hlt hids).filter _) ?_
  exact (ordered_perm _).trans ((ordered_perm rows).filter p).symm

theorem turn_id_iff {rows part : List RawTurn} (hids : (rows.map fun r => r.id).Nodup)
    (hpart : part ⊆ rows) {row : RawTurn} (hrow : row ∈ rows) :
    (part.map fun r => r.id).contains row.id = true ↔ row ∈ part := by
  rw [contains_iff_mem, mem_map]
  constructor
  · rintro ⟨other, hother, hid⟩
    rw [← inj_on_of_nodup_map hids (hpart hother) hrow hid]
    exact hother
  · intro h
    exact ⟨row, h, rfl⟩

def live (db : RawTurns) : List RawTurn :=
  db.rows.filter fun row => decide (row.retention_tier = .live)

def fullUnits (c : Collation) (db : RawTurns) (options : ClaimDistillOptions) :
    List DistillUnit :=
  buildUnits ((ordered c (live db)).map fun row => row.toDistillTurn)
    (options.contextWindow.getD (Number.ofInt DEFAULT_CONTEXT_WINDOW))

/-- No live turn of its session within the window before a claimed due speech turn is left out:
it is one of the due turns within the limit, or its `session_seq` lies in the session's range. -/
def NothingMissed (c : Collation) (db : RawTurns) (options : ClaimDistillOptions)
    (groups : List (Option Str)) (bindings : ClaimBindings) : Prop :=
  let sessions := dueSessions db options groups bindings.sessionLimit
  let due_turns := dueTurns c db options sessions bindings.turnLimit
  let covered := fun row => row ∈ due_turns ∨
    inContext options due_turns bindings.contextLimit row = true
  ∀ current ∈ live db, covered current → current.due = true → isSpeech current.role = true →
    ∀ t ∈ live db, t.session_ref = current.session_ref →
      orderKey c t.toDistillTurn < orderKey c current.toDistillTurn →
      within (window options)
        (between (fun r => orderKey c r.toDistillTurn) (live db) t current).length →
      covered t

theorem covered_iff {bindings : ClaimBindings} {row : RawTurn} :
    claimed c db options groups bindings row = true ↔
      row ∈ dueTurns c db options (dueSessions db options groups bindings.sessionLimit)
          bindings.turnLimit ∨
        inContext options (dueTurns c db options
          (dueSessions db options groups bindings.sessionLimit) bindings.turnLimit)
          bindings.contextLimit row = true := by
  rw [claimed, Bool.or_eq_true_iff, contains_iff_mem]

theorem live_of_claimed {bindings : ClaimBindings} {row : RawTurn}
    (h : claimed c db options groups bindings row = true) : row.retention_tier = .live := by
  have hsel := selected_of_claimed h
  unfold selected at hsel
  exact of_decide_eq_true (Bool.and_eq_true_iff.mp (Bool.and_eq_true_iff.mp hsel).1).1

theorem consumed_iff {rows : List RawTurn} {id : Uuid} :
    (((rows.map fun r => r.toDistillTurn).filter fun t =>
        ((rows.filter fun r => r.due).map fun r => r.id).contains t.id).map fun t => t.id).contains
          id = ((rows.filter fun r => r.due).map fun r => r.id).contains id := by
  rw [Bool.eq_iff_iff, contains_iff_mem, contains_iff_mem]
  constructor
  · intro h
    obtain ⟨t, ht, rfl⟩ := mem_map.mp h
    exact contains_iff_mem.mp (mem_filter.mp ht).2
  · intro h
    obtain ⟨row, hrow, rfl⟩ := mem_map.mp h
    refine mem_map.mpr ⟨row.toDistillTurn, mem_filter.mpr ⟨?_, ?_⟩, rfl⟩
    · exact mem_map_of_mem (mem_of_mem_filter hrow)
    · exact contains_iff_mem.mpr h

/-- The units of a claimed batch are those of the complete live sessions whose current turn is one
of the claimed due turns exactly when the claim misses nothing of their windows. -/
theorem units_complete_iff (c : Collation) (db : RawTurns) (options : ClaimDistillOptions)
    (groups : List (Option Str)) (batch : DistillBatch)
    (h : claimDistillBatch c db options groups = some batch) :
    ∃ bindings, buildClaimBindings options = some bindings ∧
      (batch.units = (fullUnits c db options).filter
          (fun u => batch.consumedTurnIds.contains u.current.id) ↔
        NothingMissed c db options groups bindings) := by
  obtain ⟨rows, hr, h⟩ := Option.bind_eq_some_iff.mp h
  obtain ⟨bindings, hb, hrows⟩ := claimRows_some hr
  refine ⟨bindings, hb, ?_⟩
  have hids : ((live db).map fun r => r.id).Nodup := db.ids.sublist (filter_sublist.map _)
  have hmem : ∀ {row}, row ∈ ordered c (live db) ↔ row ∈ live db := (ordered_perm _).mem_iff
  have hids' : ((ordered c (live db)).map fun r => r.id).Nodup :=
    ((ordered_perm (live db)).map _).nodup_iff.mpr hids
  -- the claimed rows are a part of the live ones, in the same order
  have hpart : rows = (ordered c (live db)).filter (claimed c db options groups bindings) := by
    rw [hrows, ← ordered_filter hids, live, filter_filter]
    congr 1
    refine filter_congr fun row _ => ?_
    cases hrow : claimed c db options groups bindings row with
    | false => rfl
    | true => simp [live_of_claimed hrow]
  have hsub : rows ⊆ ordered c (live db) := hpart ▸ filter_sublist.subset
  have hdue : (rows.filter fun r => r.due) ⊆ ordered c (live db) :=
    fun row hrow => hsub (mem_of_mem_filter hrow)
  have hturns : (rows.map fun r => r.toDistillTurn) =
      ((ordered c (live db)).map fun r => r.toDistillTurn).filter fun t =>
        (rows.map fun r => r.id).contains t.id := by
    rw [filter_map]
    conv_lhs => rw [hpart]
    congr 1
    refine filter_congr fun row hrow => Bool.eq_iff_iff.mpr ?_
    dsimp only [Function.comp]
    rw [turn_id_iff hids' hsub hrow, hpart, mem_filter]
    exact (and_iff_right hrow).symm
  have hunits : batch.units = (unitsFrom (window options) []
      (rows.map fun r => r.toDistillTurn)).filter fun u =>
        ((rows.filter fun r => r.due).map fun r => r.id).contains u.current.id := by
    rw [← Option.some.inj h]
    rfl
  have hconsumed : (fun u : DistillUnit => batch.consumedTurnIds.contains u.current.id) =
      fun u => ((rows.filter fun r => r.due).map fun r => r.id).contains u.current.id := by
    funext u
    rw [← Option.some.inj h]
    exact consumed_iff
  have hq : ∀ t : DistillTurn, ((rows.filter fun r => r.due).map fun r => r.id).contains t.id =
      true → (rows.map fun r => r.id).contains t.id = true := by
    intro t ht
    exact contains_iff_mem.mpr
      ((filter_sublist.map _).subset (contains_iff_mem.mp ht))
  have hiff := unitsFrom_filter_iff hq (window options) []
    ((ordered c (live db)).map fun r => r.toDistillTurn)
  rw [filter_nil, ← hturns, walks_iff (ordered_lt hids)] at hiff
  rw [hunits, hconsumed]
  refine hiff.trans ?_
  have hcovered : ∀ {row}, row ∈ live db → ((rows.map fun r => r.id).contains row.id = true ↔
      claimed c db options groups bindings row = true) := by
    intro row hrow
    rw [turn_id_iff hids' hsub (hmem.mpr hrow), hpart, mem_filter]
    exact and_iff_right (hmem.mpr hrow)
  have hwanted : ∀ {row}, row ∈ live db →
      (((rows.filter fun r => r.due).map fun r => r.id).contains row.id = true ↔
        claimed c db options groups bindings row = true ∧ row.due = true) := by
    intro row hrow
    rw [turn_id_iff hids' hdue (hmem.mpr hrow), mem_filter, hpart, mem_filter]
    exact and_congr_left' (and_iff_right (hmem.mpr hrow))
  constructor
  · intro hall current hcur hcov hcurdue hspeech t ht hsession hkey hwithin
    refine covered_iff.mp ((hcovered ht).mp ?_)
    refine hall current.toDistillTurn (mem_map_of_mem (hmem.mpr hcur))
      ((hwanted hcur).mpr ⟨covered_iff.mpr hcov, hcurdue⟩) hspeech t.toDistillTurn
      (mem_map_of_mem (hmem.mpr ht)) hsession hkey ?_
    rw [length_between]
    exact hwithin
  · intro hall current hcur hwant hspeech t ht hsession hkey hwithin
    obtain ⟨row, hrow, rfl⟩ := mem_map.mp hcur
    obtain ⟨other, hother, rfl⟩ := mem_map.mp ht
    have hrow := hmem.mp hrow
    have hother := hmem.mp hother
    obtain ⟨hclaimed, hrowdue⟩ := (hwanted hrow).mp hwant
    rw [length_between] at hwithin
    exact (hcovered hother).mpr (covered_iff.mpr
      (hall row hrow (covered_iff.mp hclaimed) hrowdue hspeech other hother hsession hkey hwithin))

/-! ## A claim that misses a turn -/

theorem units_complete_alone : ∃ batch bindings,
    claimDistillBatch byUnits alone sweep [some (units "s")] = some batch ∧
      (batch.units = (fullUnits byUnits alone sweep).filter
          (fun u => batch.consumedTurnIds.contains u.current.id) ↔
        NothingMissed byUnits alone sweep [some (units "s")] bindings) := by
  have hsome : (claimDistillBatch byUnits alone sweep [some (units "s")]).isSome = true := by
    decide +kernel
  obtain ⟨batch, h⟩ := Option.isSome_iff_exists.mp hsome
  obtain ⟨bindings, -, hiff⟩ := units_complete_iff byUnits alone sweep [some (units "s")] batch h
  exact ⟨batch, bindings, h, hiff⟩

/-- A distilled turn, then a due one whose `session_seq` is ten steps on. -/
def gapped : RawTurns :=
  ⟨[{ spoken 1 "alice" 0 100 with distilled_at := some 150 }, spoken 2 "alice" 10 200], by decide⟩

def OneLane (db : RawTurns) : Prop :=
  ∃ ns lane, ∀ row ∈ db.rows, row.retention_tier = .live ∧ row.ns = ns ∧ row.lane_id = lane

/-- The turn before the gap is context of the session's unit and not of the claimed one. -/
theorem gap_loses_context : ¬ ∀ (c : Collation) (db : RawTurns) (options : ClaimDistillOptions)
    (groups : List (Option Str)) (batch : DistillBatch), OneLane db →
    claimDistillBatch c db options groups = some batch →
      batch.units = (fullUnits c db options).filter
        fun u => batch.consumedTurnIds.contains u.current.id := by
  intro hall
  have hlost : (claimDistillBatch byUnits gapped sweep [some (units "s")]).any (fun b =>
      decide (b.units ≠ (fullUnits byUnits gapped sweep).filter
        fun u => b.consumedTurnIds.contains u.current.id)) = true := by
    decide +kernel
  obtain ⟨batch, h, hlost⟩ := (Option.any_eq_true _ _).mp hlost
  have hlane : OneLane gapped := ⟨units "alice", none, by decide⟩
  exact of_decide_eq_true hlost (hall byUnits gapped sweep [some (units "s")] batch hlane h)

end OpenBrain.Server.Distill
