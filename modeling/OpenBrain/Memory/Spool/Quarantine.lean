import OpenBrain.Memory.Spool.Append
import OpenBrain.Core.Assoc

/-!
# The quarantine sidecar and the retry state

The sidecar holds, for each quarantined unit, an envelope line followed by the
lines of the unit. Envelopes carry the unit's key, the text of its signature, so
that appending a unit replaces the block of its key (`appendQuarantined`), and
replaying it removes the block (`removeQuarantined`). Both are operations on a
headed file in the sense of `OpenBrain.Core.HasBlock`.
-/
namespace OpenBrain.Memory.Spool
open OpenBrain.Core OpenBrain.Core.Py List

/-! ## Unit keys -/

def signatureValue (σ : Signature) : PyJson :=
  .arr [(σ.1.map Json.str).getD .null, .arr (σ.2.map Json.str)]

/-- mirrors spool.py:869-872 (`_unit_key`) -/
def unitKey (σ : Signature) : Str := dumps (signatureValue σ)

theorem strings_value {α : Type} (f : α → Str) (xs : List α) :
    Json.AllElems (Json.Keys List.Nodup) (xs.map fun x => (.str (f x) : PyJson)) := by
  induction xs with
  | nil => trivial
  | cons x xs ih => exact ⟨trivial, ih⟩

theorem signatureValue_value (σ : Signature) : IsValue (signatureValue σ) := by
  obtain ⟨g, keys⟩ := σ
  refine ⟨trivial, ?_, ⟨trivial, strings_value _ keys⟩, trivial⟩
  cases g <;> trivial

theorem unitKey_injective {σ τ : Signature} (h : unitKey σ = unitKey τ) : σ = τ := by
  have hv := dumps_injective (signatureValue_value σ) (signatureValue_value τ) h
  obtain ⟨g, ks⟩ := σ
  obtain ⟨g', ks'⟩ := τ
  simp only [signatureValue, Json.arr.injEq, List.cons.injEq, and_true] at hv
  obtain ⟨hg, hks⟩ := hv
  have hks' : ks = ks' := map_injective_iff.mpr (fun _ _ => Json.str.inj) hks
  have hg' : g = g' := by
    cases g <;> cases g' <;> simp_all
  rw [hg', hks']

/-! ## Envelopes -/

/-- mirrors spool.py:43 -/
def QUARANTINE_ENVELOPE_SCHEMA : Str := units "openbrain.spool_quarantine.v1"

/-- mirrors spool.py:133-138 (`_UnitRetryState`) -/
structure UnitRetryState where
  consecutive_failures : Nat
  first_failure_at : Double
  last_failure_at : Double
  error_category : Str

/-- mirrors spool.py:821-849 (`_quarantine_envelope`) -/
def quarantineEnvelope (line : Str) : Option Items :=
  if isBlank line then none
  else
    match loadsText line with
    | some (.obj value) =>
      match Members.get? value (units "schema") with
      | some (.str schema) => if schema = QUARANTINE_ENVELOPE_SCHEMA then some value else none
      | _ => none
    | _ => none

/-- What a sidecar line says to `_quarantine_lines_without`: an envelope with its
unit key, an envelope without one, or no envelope. -/
def header (line : Str) : Option (Option Str) :=
  (quarantineEnvelope line).map fun envelope =>
    match Members.get? envelope (units "unit_key") with
    | some (.str key) => some key
    | _ => none

/-- The envelope `_append_quarantined_units` writes. -/
def envelopeItems (unit_key : Str) (unit : SpoolUnit) (state : UnitRetryState) (now : Double) :
    Items :=
  [(units "schema", .str QUARANTINE_ENVELOPE_SCHEMA),
    (units "unit_key", .str unit_key),
    (units "record_keys",
      .arr ((unit.records.getD []).map fun r => .str r.idempotency_key)),
    (units "operations", .arr ((unit.records.getD []).map fun r => .str r.operation)),
    (units "consecutive_failures", .num (.int state.consecutive_failures)),
    (units "first_failure_at", .num (.float state.first_failure_at)),
    (units "last_failure_at", .num (.float state.last_failure_at)),
    (units "error_category", .str state.error_category),
    (units "quarantined_at", .num (.float now)),
    (units "line_count", .num (.int unit.lines.length))]

def envelopeLine (unit_key : Str) (unit : SpoolUnit) (state : UnitRetryState) (now : Double) :
    Str := dumps (sortKeys (.obj (envelopeItems unit_key unit state now)))

/-- A unit to quarantine: its key, the unit and its failures. -/
abbrev Entry := Str × SpoolUnit × UnitRetryState

def Entry.block (now : Double) (e : Entry) : Str × List Str :=
  (e.1, envelopeLine e.1 e.2.1 e.2.2 now :: e.2.1.lines)

/-- mirrors spool.py:803-819 (`_quarantine_lines_without`) -/
def quarantineLinesWithout (lines : List Str) (unit_keys : List Str) : List Str :=
  without header (fun k => decide (k ∈ unit_keys)) false lines

/-- mirrors spool.py:733-783 (`_append_quarantined_units`) -/
def appendQuarantined (existing : List Str) (entries : List Entry) (now : Double) : List Str :=
  let fresh := Assoc.ofWrites (entries.map (Entry.block now))
  quarantineLinesWithout existing (fresh.map Prod.fst) ++ fresh.flatMap Prod.snd

/-- mirrors spool.py:785-801 (`_remove_quarantined_entries`) -/
def removeQuarantined (lines : List Str) (unit_keys : List Str) : List Str :=
  let kept := quarantineLinesWithout lines unit_keys
  if kept.length ≠ lines.length then kept else lines

/-! ## Which lines are envelopes -/

section Header

variable {H : Host} {unit_key : Str} {unit : SpoolUnit} {state : UnitRetryState} {now : Double}

theorem header_dict {line : Str} {value : Items} (h : loadsText line = some (.obj value)) :
    header line = match Members.get? value (units "schema") with
      | some (.str schema) =>
        if schema = QUARANTINE_ENVELOPE_SCHEMA then
          some (match Members.get? value (units "unit_key") with
            | some (.str key) => some key
            | _ => none)
        else none
      | _ => none := by
  have hb : isBlank line = false := by
    rw [Bool.eq_false_iff]
    intro hb
    rw [loadsText_blank hb] at h
    cases h
  unfold header quarantineEnvelope
  rw [hb, h]
  simp only [Bool.false_eq_true, ↓reduceIte]
  split
  · split <;> rfl
  · rfl

theorem envelopeItems_value (unit_key : Str) (unit : SpoolUnit) (state : UnitRetryState)
    (now : Double) : IsValue (.obj (envelopeItems unit_key unit state now)) := by
  refine ⟨?_, ?_⟩
  · show (["schema", "unit_key", "record_keys", "operations", "consecutive_failures",
      "first_failure_at", "last_failure_at", "error_category", "quarantined_at",
      "line_count"].map units).Nodup
    decide
  · exact ⟨trivial, trivial, ⟨trivial, strings_value _ _⟩, ⟨trivial, strings_value _ _⟩, trivial,
      trivial, trivial, trivial, trivial, trivial, trivial⟩

theorem header_envelopeLine :
    header (envelopeLine unit_key unit state now) = some (some unit_key) := by
  obtain ⟨value, hload, hget⟩ :=
    loads_sorted (envelopeItems_value unit_key unit state now)
  have hschema : Members.get? value (units "schema") =
      some (.str QUARANTINE_ENVELOPE_SCHEMA) := hget _
  have hkey : Members.get? value (units "unit_key") = some (.str unit_key) := hget _
  unfold envelopeLine
  rw [header_dict hload, hschema, hkey]
  exact if_pos rfl

/-- `append_batch` writes no envelopes. -/
theorem header_recordLine {operation key : Str} {payload : Payload} {created_at : Double}
    {place : Option GroupPlace} :
    header (recordLine H operation payload key created_at place) = none := by
  rw [header_dict loadsText_recordLine, get?_readItems]
  cases place <;> rfl

/-- None of the lines is an envelope. -/
def Plain (lines : List Str) : Prop := ∀ line ∈ lines, header line = none

theorem Batch.plain (b : Batch) : Plain (b.lines H) := by
  intro line hline
  obtain ⟨i, hi, rfl⟩ := mem_mapIdx.mp hline
  exact header_recordLine

end Header

/-! ## What the two operations do to blocks -/

section Blocks

variable {lines existing : List Str} {entries : List Entry} {now : Double}

def PlainEntries (entries : List Entry) : Prop := ∀ e ∈ entries, Plain e.2.1.lines

theorem isBlock_entry {e : Entry} (h : Plain e.2.1.lines) :
    IsBlock header (e.block now).1 (e.block now).2 :=
  ⟨_, _, rfl, header_envelopeLine, h⟩

theorem isBlock_fresh (h : PlainEntries entries) :
    ∀ p ∈ Assoc.ofWrites (entries.map (Entry.block now)), IsBlock header p.1 p.2 := by
  intro p hp
  have hmem := Assoc.mem_of_last? ((Assoc.mem_ofWrites_iff _ p.1 p.2).mp hp)
  obtain ⟨e, he, heq⟩ := mem_map.mp hmem
  obtain ⟨h₁, h₂⟩ := Prod.mk.inj heq
  rw [← h₁, ← h₂]
  exact isBlock_entry (h e he)

theorem mem_fresh_keys (now : Double) (k : Str) :
    k ∈ (Assoc.ofWrites (entries.map (Entry.block now))).map Prod.fst ↔
      k ∈ entries.map Prod.fst := by
  constructor
  · intro hk
    obtain ⟨p, hp, rfl⟩ := mem_map.mp hk
    have hmem := Assoc.mem_of_last? ((Assoc.mem_ofWrites_iff _ p.1 p.2).mp hp)
    obtain ⟨e, he, heq⟩ := mem_map.mp hmem
    rw [← (Prod.mk.inj heq).1]
    exact mem_map_of_mem he
  · intro hk
    obtain ⟨e, he, rfl⟩ := mem_map.mp hk
    obtain ⟨v, hv⟩ := Assoc.last?_of_mem (mem_map_of_mem (f := Entry.block now) he)
    have hmem := (Assoc.mem_ofWrites_iff _ _ v).mpr hv
    exact mem_map_of_mem hmem

theorem countKey_appendQuarantined (h : PlainEntries entries) (k : Str) :
    countKey header k (appendQuarantined existing entries now) =
      if k ∈ entries.map Prod.fst then 1 else countKey header k existing := by
  unfold appendQuarantined quarantineLinesWithout
  rw [countKey_append, countKey_blocks (isBlock_fresh h) (Assoc.nodup_ofWrites _)]
  by_cases hk : k ∈ entries.map Prod.fst
  · have hk' := (mem_fresh_keys now k).mpr hk
    rw [if_pos hk, if_pos hk', countKey_without (by simpa using hk')]
  · have hk' := (mem_fresh_keys now k).not.mpr hk
    rw [if_neg hk, if_neg hk', countKey_without_ne (by simpa using hk'), Nat.add_zero]

theorem last?_block (k : Str) :
    Assoc.last? (entries.map (Entry.block now)) k =
      (Assoc.last? entries k).map fun e => envelopeLine k e.1 e.2 now :: e.1.lines := by
  have hblock : Entry.block now = fun e : Entry =>
      (e.1, envelopeLine e.1 e.2.1 e.2.2 now :: e.2.1.lines) := rfl
  rw [hblock]
  apply Assoc.last?_map (fun k (e : SpoolUnit × UnitRetryState) =>
    envelopeLine k e.1 e.2 now :: e.1.lines)

theorem hasBlock_fresh (h : PlainEntries entries) {k : Str} {u : SpoolUnit} {st : UnitRetryState}
    (hlast : Assoc.last? entries k = some (u, st)) :
    HasBlock header (appendQuarantined existing entries now) k u.lines := by
  apply hasBlock_blocks (isBlock_fresh h)
  rw [Assoc.mem_ofWrites_iff, last?_block, hlast]
  rfl

theorem hasBlock_kept (h : PlainEntries entries) {k : Str} {body : List Str}
    (hk : k ∉ entries.map Prod.fst) (hb : HasBlock header existing k body) :
    HasBlock header (appendQuarantined existing entries now) k body := by
  apply HasBlock.append
  · apply hb.without
    simpa using (mem_fresh_keys now k).not.mpr hk
  · exact atHeader_blocks (isBlock_fresh h)

/-- Dropping nothing leaves the lines as they are. -/
theorem removeQuarantined_eq (unit_keys : List Str) :
    removeQuarantined lines unit_keys = quarantineLinesWithout lines unit_keys := by
  unfold removeQuarantined
  dsimp only
  split
  · rfl
  · rename_i hlen
    rw [not_not] at hlen
    exact ((sublist_without _ _).eq_of_length hlen).symm

theorem countKey_removeQuarantined (unit_keys : List Str) (k : Str) :
    countKey header k (removeQuarantined lines unit_keys) =
      if k ∈ unit_keys then 0 else countKey header k lines := by
  rw [removeQuarantined_eq]
  by_cases hk : k ∈ unit_keys
  · rw [if_pos hk]
    exact countKey_without (by simpa using hk) false lines
  · rw [if_neg hk]
    exact countKey_without_ne (by simpa using hk) false lines

theorem hasBlock_removeQuarantined {unit_keys : List Str} {k : Str} {body : List Str}
    (hk : k ∉ unit_keys) (hb : HasBlock header lines k body) :
    HasBlock header (removeQuarantined lines unit_keys) k body := by
  rw [removeQuarantined_eq]
  exact hb.without (by simpa using hk) false

end Blocks

end OpenBrain.Memory.Spool
