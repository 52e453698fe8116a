import OpenBrain.Memory.Spool.Replay

/-!
# The retry state read back

`_load_retry_state` reads back what `_write_retry_state` wrote, less the entries without a
failure and with every count clamped (`load_write`).
-/
namespace OpenBrain.Memory.Spool
open OpenBrain.Core OpenBrain.Core.Py List

/-! ## One entry -/

/-- What `_parse_unit_retry_state` makes of a written entry. -/
def UnitRetryState.reread (s : UnitRetryState) : Option UnitRetryState :=
  if s.consecutive_failures < 1 then none
  else some { s with
    consecutive_failures := min s.consecutive_failures MAX_RETRY_STATE_FAILURES }

section Entry
variable {s : UnitRetryState}

theorem asDict_value (s : UnitRetryState) : IsValue s.asDict := by
  refine ⟨?_, trivial, trivial, trivial, trivial, trivial⟩
  show (["consecutive_failures", "first_failure_at", "last_failure_at", "error_category"].map
    units).Nodup
  decide

theorem parse_asDict (s : UnitRetryState) :
    parseUnitRetryState (sortKeys s.asDict) = some s.reread := by
  have hget : ∀ k, Members.get? (sortItems (Json.buildMembers sortItems
      [(units "consecutive_failures", .num (.int s.consecutive_failures)),
        (units "first_failure_at", .num (.float s.first_failure_at)),
        (units "last_failure_at", .num (.float s.last_failure_at)),
        (units "error_category", .str s.error_category)])) k =
      Members.get? [(units "consecutive_failures", .num (.int s.consecutive_failures)),
        (units "first_failure_at", .num (.float s.first_failure_at)),
        (units "last_failure_at", .num (.float s.last_failure_at)),
        (units "error_category", .str s.error_category)] k := by
    intro k
    apply get?_sortItems
    exact (asDict_value s).1
  have hcount := hget (units "consecutive_failures")
  have hfirst := hget (units "first_failure_at")
  have hlast := hget (units "last_failure_at")
  have hcategory := hget (units "error_category")
  unfold sortKeys UnitRetryState.asDict
  rw [Json.build]
  unfold parseUnitRetryState
  dsimp only
  rw [hcount, hfirst, hlast, hcategory]
  show (if (s.consecutive_failures : Int) < 1 then some none else _) = _
  unfold UnitRetryState.reread
  by_cases hzero : s.consecutive_failures < 1
  · rw [if_pos (by omega), if_pos hzero]
  · rw [if_neg (by omega), if_neg hzero]
    rfl

end Entry

/-! ## The file -/

section File
variable {st : RetryState}

def unitItems (st : RetryState) : Items := st.units.map fun u => (u.1, u.2.asDict)

theorem unitItems_keys (st : RetryState) :
    (unitItems st).map Prod.fst = st.units.map Prod.fst := by
  unfold unitItems
  rw [map_map]
  rfl

theorem unitItems_value (h : (st.units.map Prod.fst).Nodup) : IsValue (.obj (unitItems st)) := by
  refine ⟨?_, (Json.allMembers_iff _ _).mpr ?_⟩
  · show ((unitItems st).map Prod.fst).Nodup
    rw [unitItems_keys]
    exact h
  · intro m hm
    obtain ⟨u, -, rfl⟩ := mem_map.mp hm
    exact asDict_value u.2

theorem buildMembers_eq_map (ms : Items) :
    Json.buildMembers sortItems ms = ms.map fun m => (m.1, sortKeys m.2) := by
  induction ms with
  | nil => rfl
  | cons m ms ih =>
    rw [Json.buildMembers, ih]
    rfl

theorem sortItems_unitItems (st : RetryState) :
    ∃ order : List (Str × UnitRetryState), order.Perm st.units ∧
      sortItems (Json.buildMembers sortItems (unitItems st)) =
        order.map fun u => (u.1, sortKeys u.2.asDict) := by
  unfold unitItems
  rw [buildMembers_eq_map, map_map]
  exact sortItems_map (fun u : UnitRetryState => sortKeys u.asDict) st.units

/-- Every written entry parses. -/
theorem mapM_parse (us : List (Str × UnitRetryState)) :
    ((us.map fun u => (u.1, sortKeys u.2.asDict)).mapM fun m =>
      (parseUnitRetryState m.2).map fun state => state.map fun state => (m.1, state)) =
      some (us.map fun u => u.2.reread.map fun state => (u.1, state)) := by
  induction us with
  | nil => rfl
  | cons u us ih =>
    rw [map_cons, mapM_cons, ih, parse_asDict]
    rfl

theorem lookup_eq_some_iff {β : Type} {l : List (Str × β)} (h : (l.map Prod.fst).Nodup) (k : Str)
    (v : β) : l.lookup k = some v ↔ (k, v) ∈ l := by
  induction l with
  | nil => simp
  | cons p l ih =>
    obtain ⟨k', w⟩ := p
    rw [map_cons, nodup_cons] at h
    rw [lookup_cons, mem_cons, Prod.mk.injEq]
    by_cases hk : k = k'
    · subst hk
      have hnot : (k, v) ∉ l := fun hmem =>
        h.1 (mem_map.mpr ⟨(k, v), hmem, rfl⟩)
      rw [beq_self_eq_true]
      simp [hnot, eq_comm]
    · rw [beq_eq_false_iff_ne.mpr hk]
      simp [hk, ih h.2]

theorem lookup_perm {β : Type} {l m : List (Str × β)} (h : l.Perm m)
    (hl : (l.map Prod.fst).Nodup) (k : Str) : l.lookup k = m.lookup k := by
  have hm : (m.map Prod.fst).Nodup := (h.map Prod.fst).nodup_iff.mp hl
  apply Option.ext
  intro v
  rw [lookup_eq_some_iff hl, lookup_eq_some_iff hm, h.mem_iff]

/-- The dict `_write_retry_state` writes. -/
def stateItems (st : RetryState) : Items :=
  [(units "schema", .str RETRY_STATE_SCHEMA),
    (units "last_success_at", (st.last_success_at.map fun d => .num (.float d)).getD .null),
    (units "units", .obj (unitItems st))]

theorem writeRetryState_eq (st : RetryState) :
    writeRetryState st = dumps (sortKeys (.obj (stateItems st))) := rfl

theorem stateItems_value (h : (st.units.map Prod.fst).Nodup) : IsValue (.obj (stateItems st)) := by
  refine ⟨?_, trivial, ?_, unitItems_value h, trivial⟩
  · show (["schema", "last_success_at", "units"].map units).Nodup
    decide
  · cases st.last_success_at <;> trivial

/-- What was written reads back, entry by entry. -/
theorem load_write (h : (st.units.map Prod.fst).Nodup) : ∃ read,
    loadRetryState (some (writeRetryState st)) = some read ∧
      (read.units.map Prod.fst).Nodup ∧ read.last_success_at = st.last_success_at ∧
      ∀ k, read.units.lookup k = (st.units.lookup k).bind UnitRetryState.reread := by
  obtain ⟨raw, hload, hget⟩ := loads_sorted (stateItems_value h)
  obtain ⟨order, hperm, hsorted⟩ := sortItems_unitItems st
  have hkeys : (order.map Prod.fst).Nodup := (hperm.map Prod.fst).nodup_iff.mpr h
  have hunits : Members.get? raw (units "units") =
      some (.obj (order.map fun u => (u.1, sortKeys u.2.asDict))) := by
    rw [hget, ← hsorted]
    rfl
  have hlast : Members.get? raw (units "last_success_at") = some
      (Json.build sortItems ((st.last_success_at.map fun d => .num (.float d)).getD .null)) := by
    rw [hget]
    rfl
  refine ⟨⟨st.last_success_at, Assoc.mapValues UnitRetryState.reread order⟩, ?_,
    Assoc.nodup_mapValues hkeys, rfl, ?_⟩
  · unfold loadRetryState
    rw [Option.bind_some, writeRetryState_eq, hload]
    dsimp only
    rw [hunits]
    dsimp only
    rw [mapM_parse, hlast]
    cases st.last_success_at with
    | none => simp [Json.build, Assoc.mapValues, filterMap_map]
    | some d => simp [Json.build, Assoc.mapValues, filterMap_map, finiteFloat]
  · intro k
    rw [Assoc.lookup_mapValues _ hkeys, lookup_perm hperm hkeys]

end File

end OpenBrain.Memory.Spool
