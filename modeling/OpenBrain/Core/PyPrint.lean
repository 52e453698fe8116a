import OpenBrain.Core.JsonFrame
import OpenBrain.Core.PyJson

/-!
# What Python's `json.dumps` writes

With `ensure_ascii` every unit written is printable ASCII (`printable_dumps`): a written value is
one line of any text file, whatever strings it holds. Between white space it reads as the value
(`loads_framed`), and behind anything else an object does not read at all (`white_of_loads`).
-/
namespace OpenBrain.Core.Py
open List

/-- A printable ASCII unit. -/
def Printable (u : UInt16) : Prop := 0x20 ≤ u.toNat ∧ u.toNat < 0x7F

instance (u : UInt16) : Decidable (Printable u) := inferInstanceAs (Decidable (_ ∧ _))

theorem printable_numUnit {u : UInt16} (h : JsonText.isNumUnit u = true) : Printable u := by
  simp only [JsonText.isNumUnit, JsonText.isNumStart, JsonText.isDigit, Bool.or_eq_true,
    Bool.and_eq_true, decide_eq_true_eq, beq_iff_eq, contains_eq_mem,
    UInt16.le_iff_toNat_le] at h
  rcases h with (((h | rfl) | rfl) | rfl) | h
  · have h₁ : (0x30 : UInt16).toNat = 0x30 := rfl
    have h₂ : (0x39 : UInt16).toNat = 0x39 := rfl
    unfold Printable
    omega
  · decide
  · decide
  · decide
  · have hall : ∀ v ∈ units "+.eEanfity", Printable v := by decide
    exact hall u h

theorem printable_hexDigit (n : Nat) : Printable (hexDigit n) := by
  have h : ∀ m : Fin 16, Printable (hexDigit m) := by decide
  have := h ⟨n % 16, Nat.mod_lt _ (by decide)⟩
  simpa [hexDigit] using this

theorem printable_escapeUnit (u : UInt16) : ∀ v ∈ escapeUnit u, Printable v := by
  unfold escapeUnit
  iterate 7
    split
    · decide
  split
  · intro v hv
    simp only [uEscape, hex4, mem_cons, not_mem_nil, or_false] at hv
    rcases hv with rfl | rfl | rfl | rfl | rfl | rfl
    · decide
    · decide
    all_goals exact printable_hexDigit _
  · rename_i h
    simp only [Bool.or_eq_true, decide_eq_true_eq, not_or, UInt16.lt_iff_toNat_lt] at h
    intro v hv
    rw [mem_singleton.mp hv]
    have h₁ : (0x20 : UInt16).toNat = 0x20 := rfl
    have h₂ : (0x7E : UInt16).toNat = 0x7E := rfl
    unfold Printable
    omega

theorem marks_printable : Marks Py.printer Printable where
  own := by decide
  num n u hu := printable_numUnit ((Number.isNumTok n).2 u hu)
  quote s u hu := by
    rcases mem_append.mp hu with hu | hu
    · rcases mem_cons.mp hu with rfl | hu
      · decide
      · obtain ⟨v, -, hv⟩ := mem_flatMap.mp hu
        exact printable_escapeUnit v u hv
    · rw [mem_singleton.mp hu]
      decide

theorem printable_dumps (v : PyJson) : ∀ u ∈ dumps v, Printable u := print_all marks_printable v

/-- A written value between white space reads as the value. -/
theorem loads_framed (v : PyJson) {pre post : Str}
    (hpre : ∀ u ∈ pre, JsonText.isWs u = true) (hpost : ∀ u ∈ post, JsonText.isWs u = true) :
    loadsText (pre ++ (dumps v ++ post)) = loadsText (dumps v) := by
  have hscan := JsonText.scan_framed printer_lawful v hpre hpost
  have hbare := JsonText.scan_print printer_lawful v
  unfold loadsText JsonText.parse dumps
  rw [hscan, hbare]

/-- A written object with text in front of it reads only if the text is white space. -/
theorem white_of_loads {key : Str} {c : UInt16} {body : Str} {x : PyJson} {ms : Items}
    {pre post : Str} {v : PyJson} (hkey : quote key = unit '"' :: c :: body)
    (hc : JsonText.isWs c = false ∧ c ≠ unit ',' ∧ c ≠ unit ':' ∧ c ≠ unit ']' ∧ c ≠ unit '}')
    (hpost : ∀ u ∈ post, JsonText.isWs u = true)
    (h : loadsText (pre ++ (dumps (.obj ((key, x) :: ms)) ++ post)) = some v) :
    ∀ u ∈ pre, JsonText.isWs u = true := by
  obtain ⟨s, hs, hbreaks⟩ := JsonText.breaks_object printer_lawful x ms hkey hc hpost
  unfold loadsText JsonText.parse dumps at h
  rw [hs] at h
  obtain ⟨w, hw, -⟩ := Option.map_eq_some_iff.mp h
  obtain ⟨raw, hraw, -⟩ := Option.bind_eq_some_iff.mp hw
  exact JsonText.white_of_scan hbreaks hraw

end OpenBrain.Core.Py
