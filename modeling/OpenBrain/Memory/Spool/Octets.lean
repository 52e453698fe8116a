import OpenBrain.Memory.Spool.Malformed
import OpenBrain.Memory.Spool.Replay
import OpenBrain.Core.TextLines

/-!
# The spool file as octets

`read_text` decodes the file strictly and makes a line feed of every line break it knows
(`universalNewlines`); `splitlines(keepends=True)` then cuts the text, at line feeds and at the
other breaks of `str`. What is written are the octets of the lines kept. The lines keep their
breaks, which the readers of a line skip.
-/
namespace OpenBrain.Memory.Spool
open OpenBrain.Core OpenBrain.Core.Py

/-- Where `str.splitlines` ends a line of a text without carriage returns. -/
def isLineBreak (u : UInt16) : Bool :=
  u == 0x0A || u == 0x0B || u == 0x0C || u == 0x1C || u == 0x1D || u == 0x1E || u == 0x85 ||
    u == 0x2028 || u == 0x2029

/-- `path.read_text(encoding="utf-8")`, no text for a missing file; `none` is a
`UnicodeDecodeError`. -/
def readText (file : Option (List UInt8)) : Option Str :=
  match file with
  | none => some []
  | some bytes => (Utf8.decodeStrict bytes).map universalNewlines

/-- The text's `splitlines(keepends=True)`. -/
def readLines (file : Option (List UInt8)) : Option (List Str) :=
  (readText file).map (splitAfter isLineBreak)

/-- mirrors spool.py:979-983 (`_write_lines`) -/
def writeLines (lines : List Str) : List UInt8 := Utf8.encode lines.flatten

/-- mirrors spool.py:680-716: the spool after the commit of a pass rewrote it; `none` is an
exception before. -/
def Pass.rewrite (L : Limits) (H : Host) (pass : Pass) (file : Option (List UInt8)) :
    Option (List UInt8) := do
  let live_lines ← readLines file
  let live_units ← parseUnitsIn L H live_lines
  some (writeLines ((pass.remainingUnits live_units).flatMap SpoolUnit.lines))

def Pass.Keeps (L : Limits) (H : Host) (pass : Pass) (file : Option (List UInt8))
    (rewritten : List UInt8) : Prop :=
  ∃ lines us, readLines file = some lines ∧ parseUnitsIn L H lines = some us ∧
    Verbatim SpoolUnit.lines (fun u => (pass.fate u).stays) us lines (file.getD []) rewritten

theorem isLineBreak_low {u : UInt16} (h : isLineBreak u = true) : isHighSurrogate u = false := by
  simp only [isLineBreak, Bool.or_eq_true, beq_iff_eq] at h
  rcases h with (((((((h | h) | h) | h) | h) | h) | h) | h) | h
  all_goals
    rw [h]
    decide

theorem parseUnitsIn_units {L : Limits} {H : Host} {lines : List Str} {us : List SpoolUnit}
    (h : parseUnitsIn L H lines = some us) : parseUnits H lines = some us := by
  unfold parseUnitsIn at h
  split at h
  · cases h
  · exact h

/-- The text a file was read from encodes to the file, whose carriage returns are the text's. -/
theorem decoded {bytes : List UInt8} {text : Str} (h : Utf8.decodeStrict bytes = some text) :
    Utf8.encode text = bytes ∧ (0x0D ∈ bytes ↔ (0x0D : UInt16) ∈ text) := by
  unfold Utf8.decodeStrict at h
  split at h
  · rename_i heq
    cases h
    refine ⟨heq, ?_⟩
    have hmem := Utf8.mem_encode (a := 0x0D) (by decide) (Utf8.decodeFrom Utf8.idle bytes)
    rw [heq] at hmem
    exact hmem
  · cases h

/-- A text reads as the octets it was decoded from when no carriage return is among them. -/
theorem encode_universalNewlines {bytes : List UInt8} {text : Str}
    (h : Utf8.decodeStrict bytes = some text) :
    Utf8.encode (universalNewlines text) = bytes ↔ 0x0D ∉ bytes := by
  obtain ⟨hbytes, hcr⟩ := decoded h
  constructor
  · intro heq hmem
    rw [← heq] at hmem
    exact cr_not_mem_universalNewlines text
      ((Utf8.mem_encode (a := 0x0D) (by decide) (universalNewlines text)).mp hmem)
  · intro hmem
    rw [universalNewlines_eq_self fun ht => hmem (hcr.mpr ht), hbytes]

/-- A rewrite keeps the rest octet for octet exactly when the file has no carriage return. -/
theorem keeps_iff {L : Limits} {H : Host} {pass : Pass} {file : Option (List UInt8)}
    {rewritten : List UInt8} (h : pass.rewrite L H file = some rewritten) :
    pass.Keeps L H file rewritten ↔ 0x0D ∉ file.getD [] := by
  obtain ⟨lines, hlines, h⟩ := Option.bind_eq_some_iff.mp h
  obtain ⟨us, hus, h⟩ := Option.bind_eq_some_iff.mp h
  cases h
  have hcover := parseUnits_lines (parseUnitsIn_units hus)
  have hkeeps : pass.Keeps L H file (writeLines ((pass.remainingUnits us).flatMap SpoolUnit.lines)) ↔
      Verbatim SpoolUnit.lines (fun u => (pass.fate u).stays) us lines (file.getD [])
        (writeLines ((pass.remainingUnits us).flatMap SpoolUnit.lines)) := by
    constructor
    · rintro ⟨lines', us', hlines', hus', hv⟩
      rw [hlines] at hlines'
      cases hlines'
      rw [hus] at hus'
      cases hus'
      exact hv
    · intro hv
      exact ⟨lines, us, hlines, hus, hv⟩
  rw [hkeeps]
  cases file with
  | none =>
    cases hlines
    exact (verbatim_iff SpoolUnit.lines (p := isLineBreak) (fun _ => isLineBreak_low) [] []
      hcover).trans (by simp [Utf8.encode])
  | some bytes =>
    obtain ⟨translated, htranslated, rfl⟩ := Option.map_eq_some_iff.mp hlines
    obtain ⟨text, htext, rfl⟩ := Option.map_eq_some_iff.mp htranslated
    exact (verbatim_iff SpoolUnit.lines (fun _ => isLineBreak_low) _ bytes hcover).trans
      (encode_universalNewlines htext)

end OpenBrain.Memory.Spool
