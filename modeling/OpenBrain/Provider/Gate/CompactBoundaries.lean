import OpenBrain.Core.Occurrences
import OpenBrain.Core.Utf16

/-!
# The compact boundaries of a transcript (`gate_transcript.py`)

The transcript is read in blocks, as long as `read` gives any, and the markers are counted in each
block behind the last octets read before it. The count is that of the octets read, however the
reads cut them, and the reading ends early only from the second marker on (`count_reads_eq`).
-/
namespace OpenBrain.Provider.Gate
open OpenBrain.Core OpenBrain.Core.Occurrences List

abbrev Bytes := List UInt8

def COMPACT_BOUNDARY_MARKER : Bytes :=
  "\x22subtype\x22:\x22compact_boundary\x22".toList.map fun c => UInt8.ofNat c.toNat

/-- The loop over what `read` answers; `none` is an `OSError`. -/
def count_reads (count : Nat) (carry : Bytes) : List (Option Bytes) → Nat
  | [] => count
  | none :: _ => 0
  | some [] :: _ => count
  | some (octet :: chunk) :: reads =>
    let payload := carry ++ octet :: chunk
    let count := count + Occurrences.count COMPACT_BOUNDARY_MARKER payload
    if count ≥ 2 then count else count_reads count (carried COMPACT_BOUNDARY_MARKER payload) reads

/-- What opening the file gives is what the reads on it answer.
mirrors gate_transcript.py:110-138 -/
def count_compact_boundaries (transcript_path : Str) (file : Option (List (Option Bytes))) : Nat :=
  if transcript_path = [] then 0
  else
    match file with
    | none => 0
    | some reads => count_reads 0 [] reads

/-- Behind octets with less than two markers, the count becomes that of some more blocks, and of
all of them if it stays below two. -/
theorem count_reads_eq {done : Bytes} {blocks : List Bytes} (hblocks : ∀ b ∈ blocks, b ≠ [])
    (hapart : Apart COMPACT_BOUNDARY_MARKER (done ++ blocks.flatten)) :
    ∃ read, read <+: blocks ∧
      count_reads (total COMPACT_BOUNDARY_MARKER done) (carried COMPACT_BOUNDARY_MARKER done)
        (blocks.map some) = total COMPACT_BOUNDARY_MARKER (done ++ read.flatten) ∧
      (total COMPACT_BOUNDARY_MARKER (done ++ read.flatten) < 2 → read = blocks) := by
  induction blocks generalizing done with
  | nil => exact ⟨[], prefix_rfl, by rw [flatten_nil, append_nil]; rfl, fun _ => rfl⟩
  | cons block blocks ih =>
    obtain ⟨octet, chunk, rfl⟩ := exists_cons_of_ne_nil (hblocks _ mem_cons_self)
    rw [flatten_cons, ← append_assoc] at hapart
    have hwindow : carried COMPACT_BOUNDARY_MARKER done ++ octet :: chunk <:+:
        done ++ octet :: chunk ++ blocks.flatten := by
      obtain ⟨front, hfront⟩ := drop_suffix
        (done.length - (COMPACT_BOUNDARY_MARKER.length - 1)) done
      refine ⟨front, blocks.flatten, ?_⟩
      rw [← append_assoc front]
      exact congrArg (· ++ octet :: chunk ++ blocks.flatten) hfront
    have hcount : total COMPACT_BOUNDARY_MARKER done + Occurrences.count COMPACT_BOUNDARY_MARKER
        (carried COMPACT_BOUNDARY_MARKER done ++ octet :: chunk) =
        total COMPACT_BOUNDARY_MARKER (done ++ octet :: chunk) := by
      rw [count_eq (hapart.of_infix hwindow)]
      exact (total_window (by decide) done _).symm
    rw [map_cons, count_reads, hcount, carried_window]
    split
    · rename_i hmany
      refine ⟨[octet :: chunk], prefix_append _ _, ?_, fun hfew => ?_⟩
      · rw [flatten_singleton]
      · rw [flatten_singleton] at hfew
        omega
    · obtain ⟨read, hread, heq, hall⟩ := ih (fun b hb => hblocks b (mem_cons_of_mem _ hb)) hapart
      refine ⟨(octet :: chunk) :: read, prefix_cons_inj _ |>.mpr hread, ?_, fun hfew => ?_⟩
      · rw [heq, flatten_cons, append_assoc]
      · rw [flatten_cons, ← append_assoc] at hfew
        rw [hall hfew]

/-- However the reads cut a transcript whose markers do not overlap, the answer is the number of
markers of what was read, none missed and none twice: all of them, where there are less than two,
and otherwise two at least. -/
theorem boundaries_counted {transcript_path : Str} (hpath : transcript_path ≠ [])
    {blocks : List Bytes} (hblocks : ∀ b ∈ blocks, b ≠ [])
    (hapart : Apart COMPACT_BOUNDARY_MARKER blocks.flatten) :
    let counted := count_compact_boundaries transcript_path (some (blocks.map some))
    let markers := total COMPACT_BOUNDARY_MARKER blocks.flatten
    (counted = 0 ↔ markers = 0) ∧ (counted = 1 ↔ markers = 1) ∧
      (2 ≤ markers → 2 ≤ counted ∧ counted ≤ markers) ∧
      ∃ read, read <+: blocks ∧ counted = total COMPACT_BOUNDARY_MARKER read.flatten := by
  intro counted markers
  obtain ⟨read, hread, heq, hall⟩ := @count_reads_eq [] blocks hblocks hapart
  have hcounted : counted = total COMPACT_BOUNDARY_MARKER read.flatten := by
    show count_compact_boundaries transcript_path _ = _
    rw [count_compact_boundaries, if_neg hpath]
    exact heq
  have hle : counted ≤ markers := by
    obtain ⟨rest, rfl⟩ := hread
    rw [hcounted]
    refine total_mono (by decide) ?_
    rw [flatten_append]
    exact prefix_append _ _
  have hfew : counted < 2 → counted = markers := by
    intro h
    rw [hcounted] at h ⊢
    rw [hall h]
  exact ⟨by omega, by omega, fun _ => by omega, read, hread, hcounted⟩

/-- A marker cut in two. -/
theorem boundaries_counted_cut :
    count_compact_boundaries (units "t") (some ([COMPACT_BOUNDARY_MARKER.take 5,
      COMPACT_BOUNDARY_MARKER.drop 5].map some)) = 1 := by
  have hapart : Apart COMPACT_BOUNDARY_MARKER ([COMPACT_BOUNDARY_MARKER.take 5,
      COMPACT_BOUNDARY_MARKER.drop 5] : List Bytes).flatten := by
    intro i j hij _ hj
    have := hj.length_le
    rw [List.length_drop] at this
    have hlength : ([COMPACT_BOUNDARY_MARKER.take 5,
      COMPACT_BOUNDARY_MARKER.drop 5] : List Bytes).flatten.length = 28 := by decide
    have : COMPACT_BOUNDARY_MARKER.length = 28 := by decide
    omega
  exact (boundaries_counted (by decide) (by decide) hapart).2.1.mpr (by decide)

end OpenBrain.Provider.Gate
