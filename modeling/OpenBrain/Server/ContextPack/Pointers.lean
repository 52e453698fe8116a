import OpenBrain.Server.ContextPack.DurableMemory

/-!
# `pointers`: references to the recalled rows that have no item

`server/tools/context-pack-pointers.ts`. The builder walks the net-new pool in
rank order, passes over the identities `durable_memory` retained and those it
has already taken, and stops at the cap. `selectPointers_eq` says what it takes
without the loop: the first rows of `eligible`.
-/
namespace OpenBrain.Server.ContextPack

open OpenBrain.Core List

variable {ν : Type} (N : Ecma.Numbers ν)

/-- mirrors server/tools/context-pack-pointers.ts:57 -/
def pointersMaxItems : Nat := 20

/-- The identity coordinates of a row's source ref, without its display fields.
mirrors server/tools/context-pack-durable-memory.ts:152-177 -/
def recordStructuralSourceRef (row : SearchRow) : Json ν :=
  let full := recordSourceRef row
  .obj ([(units "source", .str (units "brain")), (units "type", .str full.type),
      (units "id", .str full.id)] ++
    optionalMember (units "namespace") (full.«namespace».map Json.str))

def pointerItem (row : SearchRow) : Json ν :=
  .obj [(units "id", .str row.id), (units "source_type", .str row.sourceType),
    (units "namespace", orNull row.«namespace»), (units "tier", orNull row.tier),
    (units "created_at", .str row.createdAt), (units "updated_at", orNull row.updatedAt),
    (units "citation_id", .str (recordCitationId row)),
    (units "source_ref", recordStructuralSourceRef row)]

def pointerCitation (row : SearchRow) : Members ν :=
  [(units "id", .str (recordCitationId row)), (units "kind", .str (units "pointer")),
    (units "source_ref", recordStructuralSourceRef row)]

/-- The loop over the pool: the identities already taken and the room left. The
flag says that a row found no room.
mirrors server/tools/context-pack-pointers.ts:135-167 -/
def selectPointers (durableIdentities : List Str) :
    List Str → Nat → List SearchRow → List SearchRow × Bool
  | _, _, [] => ([], false)
  | seen, room, row :: rows =>
    let identity := recordCitationId row
    if durableIdentities.contains identity then selectPointers durableIdentities seen room rows
    else if seen.contains identity then selectPointers durableIdentities seen room rows
    else
      match room with
      | 0 => ([], true)
      | room + 1 =>
        let rest := selectPointers durableIdentities (identity :: seen) room rows
        (row :: rest.1, rest.2)

/-- mirrors server/tools/context-pack-pointers.ts:120-198 -/
def pointerItems (pool : List SearchRow) (durableIdentities : List Str) : LoadedItems ν :=
  let selected := selectPointers durableIdentities [] pointersMaxItems pool
  { items := selected.1.map pointerItem
    citations := selected.1.map pointerCitation
    truncation :=
      if selected.2 then [[(units "source", .str (units "pointers.items")),
        (units "max_items", .num (N.ofNat pointersMaxItems))]]
      else [] }

/-! ## Which rows are taken -/

variable {N}

@[simp] theorem strField_pointerItem (row : SearchRow) :
    strField (units "citation_id") (pointerItem row : Json ν) = some (recordCitationId row) := rfl

@[simp] theorem strField_pointerCitation (row : SearchRow) :
    strField (units "id") (.obj (pointerCitation row) : Json ν) = some (recordCitationId row) := rfl

def eligible : List Str → List SearchRow → List SearchRow
  | _, [] => []
  | seen, row :: rows =>
    if seen.contains (recordCitationId row) then eligible seen rows
    else row :: eligible (recordCitationId row :: seen) rows

theorem mem_eligible_iff {c : Str} {seen : List Str} {rows : List SearchRow} :
    c ∈ (eligible seen rows).map recordCitationId ↔
      c ∈ rows.map recordCitationId ∧ c ∉ seen := by
  induction rows generalizing seen with
  | nil => simp [eligible]
  | cons row rows ih =>
    simp only [eligible, contains_eq_mem, decide_eq_true_eq]
    split
    · rename_i hseen
      rw [ih, map_cons, mem_cons]
      constructor
      · exact fun ⟨hmem, hns⟩ => ⟨.inr hmem, hns⟩
      · rintro ⟨rfl | hmem, hns⟩
        · exact absurd hseen hns
        · exact ⟨hmem, hns⟩
    · rename_i hseen
      rw [map_cons, mem_cons, ih, map_cons, mem_cons, mem_cons, not_or]
      by_cases hc : c = recordCitationId row
      · subst hc
        simp [hseen]
      · simp [hc]

theorem nodup_eligible (seen : List Str) (rows : List SearchRow) :
    ((eligible seen rows).map recordCitationId).Nodup := by
  induction rows generalizing seen with
  | nil => simp [eligible]
  | cons row rows ih =>
    simp only [eligible]
    split
    · exact ih seen
    · rw [map_cons, nodup_cons]
      refine ⟨fun hmem => ?_, ih _⟩
      exact (mem_eligible_iff.mp hmem).2 mem_cons_self

theorem selectPointers_eq (durable seen : List Str) (room : Nat) (rows : List SearchRow) :
    selectPointers durable seen room rows =
      ((eligible (seen ++ durable) rows).take room,
        decide (room < (eligible (seen ++ durable) rows).length)) := by
  induction rows generalizing seen room with
  | nil => simp [selectPointers, eligible]
  | cons row rows ih =>
    by_cases hd : recordCitationId row ∈ durable
    · simp [selectPointers, eligible, hd, ih]
    · by_cases hs : recordCitationId row ∈ seen
      · simp [selectPointers, eligible, hd, hs, ih]
      · cases room with
        | zero => simp [selectPointers, eligible, hd, hs]
        | succ room => simp [selectPointers, eligible, hd, hs, ih]

theorem pointerItems_items (pool : List SearchRow) (durable : List Str) :
    (pointerItems N pool durable).items =
      ((eligible durable pool).take pointersMaxItems).map pointerItem := by
  simp [pointerItems, selectPointers_eq]

theorem pointerItems_citations (pool : List SearchRow) (durable : List Str) :
    (pointerItems N pool durable).citations =
      ((eligible durable pool).take pointersMaxItems).map pointerCitation := by
  simp [pointerItems, selectPointers_eq]

end OpenBrain.Server.ContextPack
