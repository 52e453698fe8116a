import OpenBrain.Memory.Spool.Append
import OpenBrain.Core.PyScan

/-!
# Malformed lines and the drain

`_parse_units` is to return every well-formed unit whatever the other lines hold. Its readers
catch `json.JSONDecodeError`, and of a record's fields `KeyError`, `TypeError` and `ValueError`.
Three things get past them: the interpreter's limits on integers and on nesting, which end
`json.loads` otherwise than by a decode error, and `created_at`, whose `float()` overflows on an
integer beyond the largest float. A line that claims the group of the unit beside it does not
raise, but takes the unit with it. Without these every well-formed unit is returned, and with any
of them one is not (`drains_iff`).
-/
namespace OpenBrain.Memory.Spool
open OpenBrain.Core OpenBrain.Core.Py List

/-- mirrors spool.py:285-351 with the interpreter's limits: `_raw_group_id` reads every line
before the first group is parsed, so one line stopped there ends the call. -/
def parseUnitsIn (L : Limits) (H : Host) (lines : List Str) : Option (List SpoolUnit) :=
  if lines.any (loadsRaises L) then none else parseUnits H lines

/-- Lines that are a unit by themselves: a record without a group, or a whole group in order. -/
structure WellFormed (H : Host) (unit : List Str) (records : List SpoolRecord) : Prop where
  reads : List.Forall₂ (fun line r => parseRecord H line = .record r) unit records
  whole : (∃ r, records = [r] ∧ r.group_id = none) ∨
    records ≠ [] ∧ ∃ g, ∀ (i : Nat) (hi : i < records.length), records[i].group_id = some g ∧
      records[i].group_index = some (i : Int) ∧
      records[i].group_size = some (records.length : Int)

/-- The parse returns, with every well-formed unit of the lines, at its place, among the units a
replay pass dispatches. -/
def Drains (L : Limits) (H : Host) (lines : List Str) : Prop :=
  ∃ us, parseUnitsIn L H lines = some us ∧
    ∀ before unit after records, lines = before ++ unit ++ after → WellFormed H unit records →
      ∃ us₁ u us₂, us = us₁ ++ u :: us₂ ∧ us₁.flatMap SpoolUnit.lines = before ∧
        us₂.flatMap SpoolUnit.lines = after ∧ u.lines = unit ∧ u.records = some records ∧
        u ∈ us.filter (·.signature.isSome)

/-- The line would be a record, were its `created_at` not an integer that no float holds. -/
def OverlongDate (line : Str) : Prop :=
  ∃ payload key operation i, loadsText line = some (.obj payload) ∧
    Members.get? payload (units "idempotency_key") = some (.str key) ∧ isBlank key = false ∧
    Members.get? payload (units "operation") = some (.str operation) ∧ isBlank operation = false ∧
    Members.get? payload (units "created_at") = some (.num (.int i)) ∧
    Double.ofDec (Dec.ofInt i) = none

/-- No line beside a well-formed unit claims its group. -/
def Undisturbed (H : Host) (lines : List Str) : Prop :=
  ∀ before unit after records, lines = before ++ unit ++ after → WellFormed H unit records →
    (∀ x ∈ before.getLast?, ∀ y ∈ unit.head?, sameGroup x y = false) ∧
      ∀ x ∈ unit.getLast?, ∀ y ∈ after.head?, sameGroup x y = false

/-! ## When a line raises -/

section Raise
variable {H : Host} {line : Str} {lines : List Str}

theorem pyFloat_overflow {v : PyJson} :
    pyFloat H v = .overflow ↔ ∃ i, v = .num (.int i) ∧ Double.ofDec (Dec.ofInt i) = none := by
  constructor
  · intro h
    unfold pyFloat at h
    split at h
    · rename_i i
      split at h
      · cases h
      · rename_i hnone
        exact ⟨i, rfl, Option.not_isSome_iff_eq_none.mp hnone⟩
    · cases h
    · cases h
    · split at h <;> cases h
    · cases h
  · rintro ⟨i, rfl, hi⟩
    show (if (Double.ofDec (Dec.ofInt i)).isSome then FloatResult.ok else .overflow) = .overflow
    rw [hi]
    rfl

theorem parseRecord_raised : parseRecord H line = .raised ↔ OverlongDate line := by
  constructor
  · intro h
    unfold parseRecord at h
    cases hl : loadsText line with
    | none => rw [hl] at h; cases h
    | some v =>
      rw [hl] at h
      cases v with
      | obj payload =>
        dsimp only at h
        split at h
        · rename_i key operation hkey hop
          split at h
          · cases h
          rename_i hkb
          split at h
          · cases h
          rename_i hob
          split at h
          · cases h
          · rename_i hover
            obtain ⟨i, hi, hnone⟩ := pyFloat_overflow.mp hover
            refine ⟨payload, key, operation, i, hl, hkey, Bool.eq_false_iff.mpr hkb, hop,
              Bool.eq_false_iff.mpr hob, ?_, hnone⟩
            cases hc : Members.get? payload (units "created_at") with
            | some v =>
              rw [hc] at hi
              exact congrArg some hi
            | none =>
              -- zero, the default, is a float
              rw [hc] at hi
              cases hi
              exact absurd hnone (by decide +kernel)
          · split at h
            · cases h
            · split at h <;> cases h
        · cases h
      | _ => cases h
  · rintro ⟨payload, key, operation, i, hl, hkey, hkb, hop, hob, hc, hnone⟩
    have hover : pyFloat H (.num (.int i)) = .overflow := pyFloat_overflow.mpr ⟨i, rfl, hnone⟩
    unfold parseRecord
    simp only [hl, hkey, hop, hkb, hob, hc, Option.getD_some, hover, Bool.false_eq_true, ↓reduceIte]

theorem parseLines_isSome :
    (parseLines H lines).isSome = true ↔ ∀ line ∈ lines, ¬ OverlongDate line := by
  induction lines with
  | nil => simp [parseLines]
  | cons line lines ih =>
    rw [parseLines, forall_mem_cons, ← ih, ← parseRecord_raised (H := H)]
    split
    · rename_i hblank
      have hcorrupted : parseRecord H line = .corrupted := by
        unfold parseRecord
        rw [loadsText_blank hblank]
      rw [hcorrupted]
      simp
    · cases parseRecord H line with
      | raised => simp
      | record r => cases parseLines H lines <;> simp
      | corrupted => cases parseLines H lines <;> simp

theorem parseUnits_isSome :
    (parseUnits H lines).isSome = true ↔ ∀ line ∈ lines, ¬ OverlongDate line := by
  have hgroups : ∀ gs : List (List Str), (gs.mapM (parseGroup H)).isSome = true ↔
      ∀ line ∈ gs.flatten, ¬ OverlongDate line := by
    intro gs
    induction gs with
    | nil => simp
    | cons g gs ih =>
      have hg : (parseGroup H g).isSome = (parseLines H g).isSome := Option.isSome_map
      rw [flatten_cons, forall_mem_append, ← ih, ← parseLines_isSome (H := H), ← hg,
        mapM_cons]
      cases parseGroup H g with
      | none => simp
      | some u => cases gs.mapM (parseGroup H) <;> simp
  unfold parseUnits
  rw [hgroups, groupIndexedLines, flatten_splitBy]

end Raise

/-! ## Well-formed units -/

section Unit
variable {L : Limits} {H : Host} {lines unit : List Str} {records : List SpoolRecord}
  {us : List SpoolUnit}

theorem WellFormed.ne_nil (h : WellFormed H unit records) : records ≠ [] := by
  rcases h.whole with ⟨r, rfl, -⟩ | ⟨hne, -⟩
  · exact cons_ne_nil r []
  · exact hne

theorem WellFormed.valid (h : WellFormed H unit records) : validGroup records = true := by
  rcases h.whole with ⟨r, rfl, hr⟩ | ⟨hne, g, hg⟩
  · show (r.group_id.isNone || _) = true
    rw [hr]
    rfl
  · obtain ⟨first, rest, rfl⟩ := exists_cons_of_ne_nil hne
    have hfirst := hg 0 (Nat.zero_lt_succ _)
    have hall : ∀ r ∈ first :: rest, r.group_id = some g ∧
        r.group_size = some ((first :: rest).length : Int) := by
      intro r hr
      obtain ⟨i, hi, rfl⟩ := getElem_of_mem hr
      exact ⟨(hg i hi).1, (hg i hi).2.2⟩
    have hindex : (first :: rest).map SpoolRecord.group_index =
        (List.range (first :: rest).length).map fun i : Nat => some (i : Int) := by
      apply ext_getElem
      · rw [length_map, length_map, length_range]
      · intro i h₁ h₂
        rw [length_map] at h₁
        rw [getElem_map, getElem_map, getElem_range, (hg i h₁).2.1]
    unfold validGroup
    rw [Bool.or_eq_true, Bool.and_eq_true, Bool.and_eq_true, decide_eq_true_eq, decide_eq_true_eq,
      all_eq_true]
    refine .inr ⟨⟨hfirst.2.2.symm, ?_⟩, hindex⟩
    intro r hr
    rw [Bool.and_eq_true, decide_eq_true_eq, decide_eq_true_eq, (hall r hr).1, (hall r hr).2]
    exact ⟨hfirst.1.symm, hfirst.2.2.symm⟩

theorem WellFormed.together (h : WellFormed H unit records) : Together unit := by
  rcases h.whole with ⟨r, rfl, -⟩ | ⟨-, g, hg⟩
  · exact .inl (length_eq_one_iff.mp h.reads.length_eq)
  · refine .inr ⟨g, ?_⟩
    intro line hline
    obtain ⟨r, hr, hparse⟩ := forall₂_exists h.reads.flip hline
    obtain ⟨i, hi, rfl⟩ := getElem_of_mem hr
    rw [← group_id_of_parse hparse]
    exact (hg i hi).1

theorem parseLines_reads
    (h : List.Forall₂ (fun line r => parseRecord H line = .record r) unit records) :
    parseLines H unit = some (records, 0) := by
  induction h with
  | nil => rfl
  | cons hr _ ih =>
    rename_i line r lines rs _
    have hblank : isBlank line = false := by
      rw [Bool.eq_false_iff]
      intro hb
      unfold parseRecord at hr
      rw [loadsText_blank hb] at hr
      cases hr
    unfold parseLines
    rw [hblank, hr, ih]
    rfl

theorem WellFormed.parse (h : WellFormed H unit records) :
    parseGroup H unit = some ⟨unit, some records, 0⟩ := by
  unfold parseGroup
  rw [parseLines_reads h.reads]
  show some (if 0 ≠ 0 ∨ records = [] then _ else _) = _
  rw [if_neg (by simp [h.ne_nil]), if_pos h.valid]

theorem WellFormed.signature (h : WellFormed H unit records) :
    (SpoolUnit.mk unit (some records) 0).signature.isSome = true := by
  obtain ⟨r, rs, rfl⟩ := exists_cons_of_ne_nil h.ne_nil
  rfl

theorem groups_of_apart (before after : List Str) (h : WellFormed H unit records)
    (hbefore : ∀ x ∈ before.getLast?, ∀ y ∈ unit.head?, sameGroup x y = false)
    (hafter : ∀ x ∈ unit.getLast?, ∀ y ∈ after.head?, sameGroup x y = false) :
    groupIndexedLines (before ++ unit ++ after) =
      groupIndexedLines before ++ unit :: groupIndexedLines after := by
  have hne : unit ≠ [] := by
    intro hnil
    have hlen := h.reads.length_eq
    rw [hnil, length_nil] at hlen
    exact h.ne_nil (eq_nil_of_length_eq_zero hlen.symm)
  have hhead : ∀ x ∈ before.getLast?, ∀ y ∈ (unit ++ after).head?, sameGroup x y = false := by
    intro x hx y hy
    rw [head?_append_of_ne_nil _ hne] at hy
    exact hbefore x hx y hy
  unfold groupIndexedLines
  rw [append_assoc, splitBy_append hhead, splitBy_append hafter,
    splitBy_of_isChain hne (chain_of_together h.together)]
  rfl

theorem unit_returned {before after : List Str} (hus : parseUnits H lines = some us)
    (hlines : lines = before ++ unit ++ after) (h : WellFormed H unit records)
    (hbefore : ∀ x ∈ before.getLast?, ∀ y ∈ unit.head?, sameGroup x y = false)
    (hafter : ∀ x ∈ unit.getLast?, ∀ y ∈ after.head?, sameGroup x y = false) :
    ∃ us₁ us₂, us = us₁ ++ ⟨unit, some records, 0⟩ :: us₂ ∧
      us₁.flatMap SpoolUnit.lines = before ∧ us₂.flatMap SpoolUnit.lines = after := by
  have hmap := parseUnits_map_lines hus
  rw [hlines, groups_of_apart before after h hbefore hafter, map_eq_append_iff] at hmap
  obtain ⟨us₁, rest, rfl, h₁, hrest⟩ := hmap
  obtain ⟨u, us₂, rfl, hu, h₂⟩ := map_eq_cons_iff.mp hrest
  have hparsed := (parsed_of_mem hus (mem_append_right us₁ mem_cons_self)).parse
  rw [hu, h.parse] at hparsed
  refine ⟨us₁, us₂, ?_, ?_, ?_⟩
  · rw [Option.some.inj hparsed]
  · rw [flatMap_def, h₁, groupIndexedLines, flatten_splitBy]
  · rw [flatMap_def, h₂, groupIndexedLines, flatten_splitBy]

end Unit

/-! ## What a drain needs -/

/-- Every well-formed unit is returned exactly when no line is stopped by a limit, none has a
`created_at` no float holds, and none beside a well-formed unit claims its group. -/
theorem drains_iff (L : Limits) (H : Host) (lines : List Str) :
    Drains L H lines ↔
      (∀ line ∈ lines, loadsRaises L line = false ∧ ¬ OverlongDate line) ∧
        Undisturbed H lines := by
  constructor
  · rintro ⟨us, hus, hunits⟩
    unfold parseUnitsIn at hus
    split at hus
    · cases hus
    rename_i hany
    rw [Bool.not_eq_true, any_eq_false] at hany
    have hdates := parseUnits_isSome.mp (Option.isSome_iff_exists.mpr ⟨us, hus⟩)
    refine ⟨fun line hline => ⟨Bool.eq_false_iff.mpr (hany line hline), hdates line hline⟩, ?_⟩
    intro before unit after records hlines hwell
    obtain ⟨us₁, u, us₂, rfl, h₁, h₂, hu, -, -⟩ := hunits before unit after records hlines hwell
    -- the unit is a group, and groups end where the relation is broken
    have hmap := parseUnits_map_lines hus
    rw [map_append, map_cons, hu] at hmap
    rw [flatMap_def] at h₁ h₂
    refine ⟨fun x hx y hy => ?_, fun x hx y hy => ?_⟩
    · refine splitBy_boundary hmap.symm (h₁ ▸ hx) ?_
      rw [flatten_cons, head?_append, Option.mem_def.mp hy]
      rfl
    · rw [append_cons] at hmap
      refine splitBy_boundary hmap.symm ?_ (h₂ ▸ hy)
      rw [flatten_append, flatten_singleton, getLast?_append, Option.mem_def.mp hx]
      rfl
  · rintro ⟨hlines, hapart⟩
    obtain ⟨us, hus⟩ := Option.isSome_iff_exists.mp
      (parseUnits_isSome (H := H).mpr fun line hline => (hlines line hline).2)
    refine ⟨us, ?_, ?_⟩
    · unfold parseUnitsIn
      rw [if_neg, hus]
      rw [any_eq_true]
      rintro ⟨line, hline, hraises⟩
      rw [(hlines line hline).1] at hraises
      cases hraises
    · intro before unit after records heq hwell
      obtain ⟨hbefore, hafter⟩ := hapart before unit after records heq hwell
      obtain ⟨us₁, us₂, rfl, h₁, h₂⟩ := unit_returned hus heq hwell hbefore hafter
      refine ⟨us₁, _, us₂, rfl, h₁, h₂, rfl, rfl, ?_⟩
      exact mem_filter.mpr ⟨mem_append_right _ mem_cons_self, hwell.signature⟩

/-- A record, `rest` standing behind its key and operation. -/
def recordText (key : String) (rest : Str) : Str :=
  units ("\x7b\"idempotency_key\":\"" ++ key ++ "\",\"operation\":\"log_thought\"") ++ rest ++
    units "\x7d"

/-- A record dated `10 ^ 400` and a good one behind it. -/
def overlongSpool : List Str :=
  [recordText "a" (units ",\"created_at\":1" ++ List.replicate 400 (unit '0')), recordText "b" []]

/-- The one overlong date keeps the record behind it from being returned. -/
theorem overlong_stops :
    ¬ Drains ⟨4300, 1000⟩ ⟨id, fun _ => false, fun _ => false⟩ overlongSpool := by
  have hnone : (parseUnitsIn ⟨4300, 1000⟩ ⟨id, fun _ => false, fun _ => false⟩
      overlongSpool).isNone = true := by decide +kernel
  rintro ⟨us, hus, -⟩
  rw [hus] at hnone
  cases hnone

end OpenBrain.Memory.Spool
