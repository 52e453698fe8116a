import OpenBrain.Core.JsonMember
import OpenBrain.Core.PyPrint
import OpenBrain.Core.TextLines
import OpenBrain.Core.Utf8Stream

/-!
# Payloads too large to parse (`openbrain_provider/guard.py`)

`guard_claude_command` does not parse more than `MAX_INPUT_BYTES` octets: it scans the first of
them for a top-level `tool_name` and lets the payload pass when that names another tool than a
shell. The scan reads a JSON text as its parser does (`top_level_object`), but stops at the first
member of the name, where the parser takes the last: `oversized_blocks` says when the two differ.
-/
namespace OpenBrain.Provider.Guard
open OpenBrain.Core OpenBrain.Core.Py OpenBrain.Core.JsonText List

/-! ## The scan -/

/-- mirrors guard.py:64 -/
def MAX_INPUT_BYTES : Nat := 64 * 1024

/-- mirrors guard.py:107 -/
def SHELL_TOOL_NAMES : List Str := [units "Bash", units "Shell"]

/-- The loop of `_read_json_string`: what stands before the closing quote, and what follows it.
mirrors guard.py:715-725 -/
def closing : (escaped : Bool) → Str → Option (Str × Str)
  | _, [] => none
  | true, u :: s => (closing false s).map fun (b, r) => (u :: b, r)
  | false, u :: s =>
    if u = unit '\\' then (closing true s).map fun (b, r) => (u :: b, r)
    else if u ≠ unit '"' then (closing false s).map fun (b, r) => (u :: b, r)
    else some ([], s)

/-- `_read_json_string` behind the opening quote; the index of the closing quote is given as the
text behind it. mirrors guard.py:705-732 -/
def read_json_string (s : Str) : Option (Str × Str) :=
  match closing false s with
  | none => none
  | some (b, r) =>
    match loadsText (unit '"' :: b ++ [unit '"']) with
    | some (.str decoded) => some (decoded, r)
    | _ => none

/-- `none` is `(False, None)`, `some value` is `(True, value)`. mirrors guard.py:671-702 -/
def value_after_key (prop value r : Str) : Option (Option (Str × Str)) :=
  match r.dropWhile isSpace with
  | [] => none
  | u :: r =>
    if u ≠ unit ':' ∨ value ≠ prop then none
    else
      match r.dropWhile isSpace with
      | [] => some none
      | v :: r => if v ≠ unit '"' then some none else some (read_json_string r)

theorem closing_length {e : Bool} {s b r : Str} (h : closing e s = some (b, r)) :
    r.length < s.length := by
  fun_induction closing e s generalizing b r with
  | case1 => cases h
  | case2 _ _ ih | case3 _ ih | case4 _ _ _ _ ih =>
    obtain ⟨⟨b', r'⟩, hr, heq⟩ := Option.map_eq_some_iff.mp h
    cases heq
    have := ih hr
    rw [length_cons]
    omega
  | case5 => cases h; simp

theorem read_json_string_length {s v r : Str} (h : read_json_string s = some (v, r)) :
    r.length < s.length := by
  unfold read_json_string at h
  split at h
  · cases h
  rename_i hclose
  split at h
  · cases h
    exact closing_length hclose
  · cases h

/-- The loop of `_top_level_string_property`: the value, and the text behind its closing quote.
mirrors guard.py:645-668 -/
def top_level (prop : Str) : Str → (depth : Int) → Option (Str × Str)
  | [], _ => none
  | u :: s, depth =>
    if u = unit '{' then top_level prop s (depth + 1)
    else if u = unit '}' then top_level prop s (depth - 1)
    else if u ≠ unit '"' then top_level prop s depth
    else
      match h : read_json_string s with
      | none => none
      | some (key, r) =>
        match if depth = 1 then value_after_key prop key r else none with
        | some value => value
        | none => top_level prop r depth
termination_by s => s.length
decreasing_by
  · simp
  · simp
  · simp
  · have := read_json_string_length h
    rw [length_cons]
    omega

/-- mirrors guard.py:631-668 -/
def top_level_string_property (text prop : Str) : Option Str :=
  (top_level prop text 0).map Prod.fst

/-! ## Strings -/

theorem closing_eq {e : Bool} {s b r : Str} (h : closing e s = some (b, r)) :
    s = b ++ unit '"' :: r := by
  fun_induction closing e s generalizing b r with
  | case1 => cases h
  | case2 _ _ ih | case3 _ ih | case4 _ _ _ _ ih =>
    obtain ⟨⟨b', r'⟩, hr, heq⟩ := Option.map_eq_some_iff.mp h
    cases heq
    rw [ih hr]
    rfl
  | case5 u s hu hq => cases h; rw [not_not.mp hq]; rfl

/-- The quote is found the same whatever follows it. -/
theorem closing_swap {e : Bool} {s b r : Str} (h : closing e s = some (b, r)) (r' : Str) :
    closing e (b ++ unit '"' :: r') = some (b, r') := by
  fun_induction closing e s generalizing b r with
  | case1 => cases h
  | case2 u s ih =>
    obtain ⟨⟨b', r''⟩, hr, heq⟩ := Option.map_eq_some_iff.mp h
    cases heq
    rw [cons_append, closing, ih hr]
    rfl
  | case3 s ih =>
    obtain ⟨⟨b', r''⟩, hr, heq⟩ := Option.map_eq_some_iff.mp h
    cases heq
    rw [cons_append, closing, if_pos rfl, ih hr]
    rfl
  | case4 u s hu hq ih =>
    obtain ⟨⟨b', r''⟩, hr, heq⟩ := Option.map_eq_some_iff.mp h
    cases heq
    rw [cons_append, closing, if_neg hu, if_pos hq, ih hr]
    rfl
  | case5 u s hu hq => cases h; rfl

/-- The parser's strings end where the scan finds their quote. -/
theorem closing_of_scanStr {s b r : Str} (h : scanStr s = some (b, r)) :
    closing false s = some (b, r) := by
  fun_induction scanStr s generalizing b r with
  | case1 => cases h
  | case2 => cases h; rfl
  | case3 => cases h
  | case4 => cases h; rfl
  | case5 v s hq ih =>
    obtain ⟨⟨b', r'⟩, hr, heq⟩ := Option.map_eq_some_iff.mp h
    cases heq
    rw [closing, if_pos rfl, closing, ih hr]
    rfl
  | case6 => cases h
  | case7 u v s hq hb hc ih =>
    obtain ⟨⟨b', r'⟩, hr, heq⟩ := Option.map_eq_some_iff.mp h
    cases heq
    rw [closing, if_neg hb, if_pos hq, ih hr]
    rfl

theorem loadsText_token {b : Str} (h : scanStr (b ++ [unit '"']) = some (b, [])) :
    loadsText (unit '"' :: b ++ [unit '"']) = (unescape b).map .str := by
  have hscan : scan (unit '"' :: b ++ [unit '"']) = some (.str (unit '"' :: b ++ [unit '"'])) := by
    unfold scan
    rw [cons_append, JsonText.scanValue, skipWs_cons (by decide)]
    simp [h, skipWs]
  rw [loadsText, parse, hscan, Option.bind_some, decode, unquote_token]
  cases unescape b <;> rfl

/-- `_read_json_string` reads what the parser reads. -/
theorem read_json_string_iff {s v r : Str} :
    read_json_string s = some (v, r) ↔
      ∃ b, scanStr s = some (b, r) ∧ unescape b = some v := by
  constructor
  · intro h
    unfold read_json_string at h
    split at h
    · cases h
    rename_i b r' hclose
    split at h
    case h_2 => cases h
    rename_i decoded hloads
    cases h
    obtain rfl := closing_eq hclose
    -- the slice that is parsed has the string's own quotes
    have hslice : scanStr (b ++ [unit '"']) = some (b, []) := by
      obtain ⟨x, hx, -⟩ := Option.map_eq_some_iff.mp hloads
      obtain ⟨raw, hraw, -⟩ := Option.bind_eq_some_iff.mp hx
      rw [scan, cons_append, JsonText.scanValue, skipWs_cons (by decide)] at hraw
      cases hscan : scanStr (b ++ [unit '"']) with
      | none => simp [hscan] at hraw
      | some p =>
        have hclosed := closing_of_scanStr hscan
        rw [closing_swap hclose []] at hclosed
        rw [Option.some.inj hclosed]
    rw [loadsText_token hslice] at hloads
    obtain ⟨t, ht, heq⟩ := Option.map_eq_some_iff.mp hloads
    cases heq
    exact ⟨b, scanStr_swap hslice r, ht⟩
  · rintro ⟨b, hscan, hread⟩
    have hclose := closing_of_scanStr hscan
    obtain rfl := scanStr_eq hscan
    rw [read_json_string, hclose]
    dsimp only
    rw [loadsText_token (scanStr_swap hscan []), hread]
    rfl

/-! ## Over the values of a text -/

section Skip
variable {prop : Str}

theorem top_level_plain {u : UInt16} (h₁ : u ≠ unit '{') (h₂ : u ≠ unit '}')
    (h₃ : u ≠ unit '"') (s : Str) (d : Int) :
    top_level prop (u :: s) d = top_level prop s d := by
  rw [top_level, if_neg h₁, if_neg h₂, if_pos h₃]

theorem top_level_open (s : Str) (d : Int) :
    top_level prop (unit '{' :: s) d = top_level prop s (d + 1) := by
  rw [top_level, if_pos rfl]

theorem top_level_close (s : Str) (d : Int) :
    top_level prop (unit '}' :: s) d = top_level prop s (d - 1) := by
  rw [top_level, if_neg (by decide), if_pos rfl]

theorem top_level_quote {s key r : Str} (hstring : read_json_string s = some (key, r))
    (d : Int) :
    top_level prop (unit '"' :: s) d =
      match if d = 1 then value_after_key prop key r else none with
      | some value => value
      | none => top_level prop r d := by
  rw [top_level, if_neg (by decide), if_neg (by decide), if_neg (by decide)]
  split
  · rename_i h
    rw [hstring] at h
    cases h
  · rename_i h
    rw [hstring] at h
    cases h
    rfl

theorem top_level_string {s b key r : Str} (hscan : scanStr s = some (b, r))
    (hread : unescape b = some key) (d : Int) :
    top_level prop (unit '"' :: s) d =
      match if d = 1 then value_after_key prop key r else none with
      | some value => value
      | none => top_level prop r d :=
  top_level_quote (read_json_string_iff.mpr ⟨b, hscan, hread⟩) d

theorem top_level_append {lit : Str}
    (h : ∀ u ∈ lit, u ≠ unit '{' ∧ u ≠ unit '}' ∧ u ≠ unit '"') (r : Str) (d : Int) :
    top_level prop (lit ++ r) d = top_level prop r d := by
  induction lit with
  | nil => rfl
  | cons u lit ih =>
    obtain ⟨h₁, h₂, h₃⟩ := h u mem_cons_self
    rw [cons_append, top_level_plain h₁ h₂ h₃]
    exact ih fun v hv => h v (mem_cons_of_mem _ hv)

theorem plain_of_isWs {u : UInt16} (h : isWs u = true) :
    u ≠ unit '{' ∧ u ≠ unit '}' ∧ u ≠ unit '"' := by
  refine ⟨?_, ?_, ?_⟩ <;> (rintro rfl; revert h; decide)

theorem plain_of_isNumUnit {u : UInt16} (h : isNumUnit u = true) :
    u ≠ unit '{' ∧ u ≠ unit '}' ∧ u ≠ unit '"' := by
  refine ⟨?_, ?_, ?_⟩ <;> (rintro rfl; revert h; decide)

theorem top_level_skipWs (s : Str) (d : Int) :
    top_level prop (skipWs s) d = top_level prop s d := by
  induction s with
  | nil => rfl
  | cons u s ih =>
    rw [skipWs]
    split
    · rename_i hu
      obtain ⟨h₁, h₂, h₃⟩ := plain_of_isWs hu
      rw [ih, top_level_plain h₁ h₂ h₃]
    · rfl

theorem top_level_spanNum (s : Str) (d : Int) :
    top_level prop (spanNum s).2 d = top_level prop s d := by
  induction s with
  | nil => rfl
  | cons u s ih =>
    rw [spanNum]
    split
    · rename_i hu
      obtain ⟨h₁, h₂, h₃⟩ := plain_of_isNumUnit hu
      rw [ih, top_level_plain h₁ h₂ h₃]
    · rfl

/-- From the text to what its white space is in front of. -/
theorem top_level_behind {s r : Str} {u : UInt16} (h : skipWs s = u :: r)
    (hu : u ≠ unit '{' ∧ u ≠ unit '}' ∧ u ≠ unit '"') (d : Int) :
    top_level prop s d = top_level prop r d := by
  rw [← top_level_skipWs, h, top_level_plain hu.1 hu.2.1 hu.2.2]

theorem dropWhile_skipWs {s r : Str} {u : UInt16} (h : skipWs s = u :: r)
    (hu : isSpace u = false) : s.dropWhile isSpace = u :: r := by
  induction s with
  | nil => cases h
  | cons v s ih =>
    rw [skipWs] at h
    split at h
    · rename_i hv
      have hspace : isSpace v = true := by
        simp only [isWs, Bool.or_eq_true, beq_iff_eq] at hv
        obtain ((rfl | rfl) | rfl) | rfl := hv <;> decide
      rw [dropWhile_cons_of_pos hspace]
      exact ih h
    · cases h
      exact dropWhile_cons_of_neg (by simp [hu])

/-- A string is no key when something else than a colon follows it. -/
theorem value_after_key_none {value r r' : Str} {u : UInt16} (h : skipWs r = u :: r')
    (hspace : isSpace u = false) (hu : u ≠ unit ':') : value_after_key prop value r = none := by
  rw [value_after_key, dropWhile_skipWs h hspace]
  dsimp only
  rw [if_pos (.inl hu)]

/-- No string in front of the text is a key that the scan looks at. -/
def Passed (prop : Str) (d : Int) (r : Str) : Prop :=
  ∀ value, (if d = 1 then value_after_key prop value r else none) = none

theorem passed_deep {d : Int} (hd : 2 ≤ d) (r : Str) : Passed prop d r := by
  intro value
  rw [if_neg (by omega)]

theorem passed_behind {r r' : Str} {u : UInt16} (h : skipWs r = u :: r')
    (hspace : isSpace u = false) (hu : u ≠ unit ':') (d : Int) : Passed prop d r := by
  intro value
  rw [value_after_key_none h hspace hu, ite_self]

theorem top_level_passed {s b key r : Str} (hscan : scanStr s = some (b, r))
    (hread : unescape b = some key) {d : Int} (hr : Passed prop d r) :
    top_level prop (unit '"' :: s) d = top_level prop r d := by
  rw [top_level_string hscan hread, hr]

variable {ν : Type} {num : Str → Option ν}

theorem top_level_scan (n : Nat) :
    (∀ s v r, scanValue n s = some (v, r) → (decode num unquote v).isSome → ∀ d : Int, 1 ≤ d →
      Passed prop d r → top_level prop s d = top_level prop r d) ∧
      (∀ s xs r, scanElems n s = some (xs, r) → (decodeElems num unquote xs).isSome →
        ∀ d : Int, 1 ≤ d → top_level prop s d = top_level prop r d) ∧
      ∀ s ms r, scanMembers n s = some (ms, r) → (decodeMembers num unquote ms).isSome →
        ∀ d : Int, 2 ≤ d → top_level prop s d = top_level prop r (d - 1) := by
  induction n with
  | zero =>
    refine ⟨fun s v r h => ?_, fun s xs r h => ?_, fun s ms r h => ?_⟩
    · rw [JsonText.scanValue] at h; cases h
    · rw [scanElems] at h; cases h
    · rw [scanMembers] at h; cases h
  | succ n ih =>
    obtain ⟨ihValue, ihElems, ihMembers⟩ := ih
    refine ⟨fun s v r h hread d hd hr => ?_, fun s xs r h hread d hd => ?_,
      fun s ms r h hread d hd => ?_⟩
    · rw [← top_level_skipWs]
      have hscanned := scanned_of_scanValue h
      generalize skipWs s = s' at hscanned
      cases hscanned with
      | str hscan =>
        rw [decode, unquote_token, Option.isSome_map, Option.isSome_iff_exists] at hread
        obtain ⟨key, hkey⟩ := hread
        exact top_level_passed hscan hkey hr
      | noElems hclose =>
        rw [top_level_plain (by decide) (by decide) (by decide), top_level_behind hclose (by decide)]
      | arr helems =>
        rw [decode, Option.isSome_map] at hread
        rw [top_level_plain (by decide) (by decide) (by decide), ← top_level_skipWs]
        exact ihElems _ _ _ helems hread d hd
      | noMembers hclose =>
        rw [top_level_open, ← top_level_skipWs, hclose, top_level_close, Int.add_sub_cancel]
      | obj hmembers =>
        rw [decode, Option.isSome_map] at hread
        rw [top_level_open, ← top_level_skipWs, ihMembers _ _ _ hmembers hread (d + 1) (by omega),
          Int.add_sub_cancel]
      | null | true | false => exact top_level_append (by decide) r d
      | @num u t hu =>
        have hunit : isNumUnit u = true := by simp [isNumUnit, hu]
        obtain ⟨h₁, h₂, h₃⟩ := plain_of_isNumUnit hunit
        rw [top_level_plain h₁ h₂ h₃, top_level_spanNum]
    · obtain ⟨x, r₁, hx, hend⟩ := scanElems_cases h
      rcases hend with ⟨r₂, rest, hr₁, hrest, rfl⟩ | ⟨hr₁, rfl⟩
      · obtain ⟨hreadx, hreads⟩ := decodeElems_cons hread
        rw [ihValue _ _ _ hx hreadx d hd (passed_behind hr₁ (by decide) (by decide) d),
          top_level_behind hr₁ (by decide)]
        exact ihElems _ _ _ hrest hreads d hd
      · rw [ihValue _ _ _ hx (decodeElems_cons hread).1 d hd
          (passed_behind hr₁ (by decide) (by decide) d), top_level_behind hr₁ (by decide)]
    · obtain ⟨s₁, b, r₁, r₂, x, r₃, r₄, hs, hb, hr₁, hx, hend⟩ := scanMembers_cases h
      have hmember : (unquote (unit '"' :: b ++ [unit '"'])).isSome →
          (decode num unquote x).isSome → top_level prop s d = top_level prop r₃ d := by
        intro hkey hreadx
        rw [unquote_token, Option.isSome_iff_exists] at hkey
        obtain ⟨key, hkey⟩ := hkey
        rw [← top_level_skipWs, hs, top_level_passed hb hkey (passed_deep hd r₁),
          top_level_behind hr₁ (by decide)]
        exact ihValue _ _ _ hx hreadx d (by omega) (passed_deep hd r₃)
      rcases hend with ⟨hr₃, rest, hrest, rfl⟩ | ⟨hr₃, rfl, rfl⟩
      · obtain ⟨hkey, hreadx, hreads⟩ := decodeMembers_cons hread
        rw [hmember hkey hreadx, top_level_behind hr₃ (by decide)]
        exact ihMembers _ _ _ hrest hreads d hd
      · obtain ⟨hkey, hreadx, -⟩ := decodeMembers_cons hread
        rw [hmember hkey hreadx, ← top_level_skipWs, hr₃, top_level_close]

/-! ## Over the members of a payload -/

/-- The string that a raw value is read as, with the text behind it. -/
def stringOf : Json Str × Str → Option (Str × Str)
  | (.str token, rest) => (unquote token).map fun value => (value, rest)
  | _ => none

theorem value_after_key_other {key r r₂ : Str} (hr : skipWs r = unit ':' :: r₂)
    (hkey : key ≠ prop) : value_after_key prop key r = none := by
  rw [value_after_key, dropWhile_skipWs hr (by decide)]
  dsimp only
  rw [if_pos (.inr hkey)]

theorem value_after_key_no_string {r r₂ t : Str} {u : UInt16} (hr : skipWs r = unit ':' :: r₂)
    (hr₂ : skipWs r₂ = u :: t) (hspace : isSpace u = false) (hu : u ≠ unit '"') :
    value_after_key prop prop r = some none := by
  rw [value_after_key, dropWhile_skipWs hr (by decide)]
  dsimp only
  rw [if_neg (by simp), dropWhile_skipWs hr₂ hspace]
  dsimp only
  rw [if_pos hu]

theorem isSpace_of_isNumStart {u : UInt16} (h : isNumStart u = true) : isSpace u = false := by
  simp only [isNumStart, isDigit, Bool.or_eq_true, Bool.and_eq_true, decide_eq_true_eq,
    beq_iff_eq, UInt16.le_iff_toNat_le] at h
  obtain ((h | rfl) | rfl) | rfl := h
  · have h₁ : (0x30 : UInt16).toNat = 0x30 := rfl
    have h₂ : (0x39 : UInt16).toNat = 0x39 := rfl
    rw [h₁, h₂] at h
    have hne : ∀ n : UInt16, n.toNat < 0x30 ∨ 0x39 < n.toNat → u ≠ n := by
      rintro n hn rfl
      omega
    simp [isSpace, UInt16.le_iff_toNat_le, hne]
    omega
  · decide
  · decide
  · decide

/-- What follows the key that is sought is read as the parser reads it. -/
theorem value_after_key_own {n : Nat} {r r₂ r₃ : Str} {x : Json Str}
    (hr : skipWs r = unit ':' :: r₂) (hx : scanValue n r₂ = some (x, r₃))
    (hread : (decode num unquote x).isSome) :
    value_after_key prop prop r = some (stringOf (x, r₃)) := by
  cases n with
  | zero => rw [JsonText.scanValue] at hx; cases hx
  | succ n =>
    have hscanned := scanned_of_scanValue hx
    generalize hr₂ : skipWs r₂ = s' at hscanned
    cases hscanned with
    | @str t b _ hscan =>
      rw [decode, unquote_token, Option.isSome_map, Option.isSome_iff_exists] at hread
      obtain ⟨value, hvalue⟩ := hread
      rw [value_after_key, dropWhile_skipWs hr (by decide)]
      dsimp only
      rw [if_neg (by simp), dropWhile_skipWs hr₂ (by decide)]
      dsimp only
      rw [if_neg (by simp), stringOf, unquote_token, hvalue,
        read_json_string_iff.mpr ⟨b, hscan, hvalue⟩]
      rfl
    | noElems | arr => exact value_after_key_no_string hr hr₂ (by decide) (by decide)
    | noMembers | obj => exact value_after_key_no_string hr hr₂ (by decide) (by decide)
    | null =>
      exact value_after_key_no_string (u := unit 'n') hr hr₂ (by decide) (by decide)
    | true =>
      exact value_after_key_no_string (u := unit 't') hr hr₂ (by decide) (by decide)
    | false =>
      exact value_after_key_no_string (u := unit 'f') hr hr₂ (by decide) (by decide)
    | @num u t hu =>
      exact value_after_key_no_string hr hr₂ (isSpace_of_isNumStart hu)
        (ne_of_isNumStart hu (by decide))

theorem top_level_members {n : Nat} {s r : Str} {ms : Members Str}
    (h : scanMembers n s = some (ms, r)) (hread : (decodeMembers num unquote ms).isSome) :
    top_level prop s 1 =
      match findMember prop n s with
      | some found => stringOf found
      | none => top_level prop r 0 := by
  induction n generalizing s ms r with
  | zero => rw [scanMembers] at h; cases h
  | succ n ih =>
    obtain ⟨s₁, b, r₁, r₂, x, r₃, r₄, hs, hb, hr₁, hx, hend⟩ := scanMembers_cases h
    -- at the member's key, and behind the member when it is another's
    have hmember : (unquote (unit '"' :: b ++ [unit '"'])).isSome →
        (decode num unquote x).isSome → Passed prop 1 r₃ →
        top_level prop s 1 = if unescape b = some prop then stringOf (x, r₃)
          else top_level prop r₃ 1 := by
      intro hkey hreadx hpassed
      rw [unquote_token, Option.isSome_iff_exists] at hkey
      obtain ⟨key, hkey⟩ := hkey
      rw [← top_level_skipWs, hs, top_level_string hb hkey, if_pos rfl, hkey]
      by_cases hprop : key = prop
      · subst hprop
        rw [value_after_key_own hr₁ hx hreadx, if_pos rfl]
      · rw [value_after_key_other hr₁ hprop, if_neg (by simpa using hprop)]
        dsimp only
        rw [top_level_behind hr₁ (by decide)]
        exact (top_level_scan n).1 _ _ _ hx hreadx 1 (by omega) hpassed
    rcases hend with ⟨hr₃, rest, hrest, rfl⟩ | ⟨hr₃, rfl, rfl⟩
    · obtain ⟨hkey, hreadx, hreads⟩ := decodeMembers_cons hread
      rw [hmember hkey hreadx (passed_behind hr₃ (by decide) (by decide) 1),
        findMember_more hs hb hr₁ hx hr₃]
      split
      · rfl
      · rw [top_level_behind hr₃ (by decide)]
        exact ih hrest hreads
    · obtain ⟨hkey, hreadx, -⟩ := decodeMembers_cons hread
      rw [hmember hkey hreadx (passed_behind hr₃ (by decide) (by decide) 1),
        findMember_last hs hb hr₁ hx hr₃]
      split
      · rfl
      · rw [← top_level_skipWs, hr₃, top_level_close]
        rfl

/-- On an object's text the scan gives the first member of the name, when that is a string. -/
theorem top_level_object {text : Str} {ms : Members ν}
    (h : parse num unquote text = some (.obj ms)) :
    top_level prop text 0 = (firstMember prop text).bind stringOf := by
  obtain ⟨raw, r, hscan, hr, hread⟩ := obj_of_parse h
  have hend : top_level prop r 0 = none := by
    rw [← top_level_skipWs, hr, top_level]
  have hscanned := scanned_of_scanValue hscan
  rw [← top_level_skipWs, firstMember]
  generalize skipWs text = text' at hscanned
  cases hscanned with
  | noMembers hclose =>
    rw [drop_one, tail_cons, findMember_none hclose, top_level_open,
      ← top_level_skipWs, hclose, top_level_close]
    exact hend
  | obj hmembers =>
    rw [drop_one, tail_cons, top_level_open, ← top_level_skipWs, ← findMember_skipWs]
    refine (top_level_members hmembers (Option.isSome_of_eq_some hread)).trans ?_
    rw [hend]
    cases findMember prop text.length _ <;> rfl

end Skip

/-! ## On a text cut off -/

theorem read_json_string_swap {s v r : Str} (h : read_json_string s = some (v, r)) :
    ∃ b, s = b ++ unit '"' :: r ∧
      ∀ r', read_json_string (b ++ unit '"' :: r') = some (v, r') := by
  obtain ⟨b, hscan, hread⟩ := read_json_string_iff.mp h
  obtain rfl := scanStr_eq hscan
  exact ⟨b, rfl, fun r' => read_json_string_iff.mpr ⟨b, scanStr_swap hscan r', hread⟩⟩

theorem dropWhile_quote (c r : Str) :
    (c ++ unit '"' :: r).dropWhile isSpace = c.dropWhile isSpace ++ unit '"' :: r := by
  induction c with
  | nil => exact dropWhile_cons_of_neg (by decide)
  | cons u c ih =>
    rw [cons_append, dropWhile_cons, dropWhile_cons]
    split
    · exact ih
    · rfl

theorem dropWhile_swap {s r : Str} {u : UInt16} (h : s.dropWhile isSpace = u :: r) :
    ∃ w, s = w ++ u :: r ∧ ∀ t, (w ++ u :: t).dropWhile isSpace = u :: t := by
  have hu : isSpace u = false := by
    have := head?_dropWhile_not isSpace s
    rw [h] at this
    simpa using this
  have hw := takeWhile_append_dropWhile (p := isSpace) (l := s)
  rw [h] at hw
  refine ⟨s.takeWhile isSpace, hw.symm, fun t => ?_⟩
  rw [dropWhile_append_of_pos fun v hv => mem_takeWhile_imp hv,
    dropWhile_cons_of_neg (by simp [hu])]

section Cut
variable {prop : Str}

theorem value_after_key_none_swap {key c r : Str}
    (h : value_after_key prop key (c ++ unit '"' :: r) = none) (r' : Str) :
    value_after_key prop key (c ++ unit '"' :: r') = none := by
  unfold value_after_key at h ⊢
  rw [dropWhile_quote] at h ⊢
  cases hc : c.dropWhile isSpace with
  | nil =>
    rw [nil_append]
    dsimp only
    rw [if_pos (.inl (by decide))]
  | cons u c' =>
    rw [hc, cons_append] at h
    dsimp only at h
    rw [cons_append]
    dsimp only
    split at h
    · rename_i hu
      rw [if_pos hu]
    · split at h
      · cases h
      · split at h <;> cases h

theorem value_after_key_swap {key s v r : Str}
    (h : value_after_key prop key s = some (some (v, r))) :
    ∃ c, s = c ++ unit '"' :: r ∧
      ∀ r', value_after_key prop key (c ++ unit '"' :: r') = some (some (v, r')) := by
  unfold value_after_key at h
  split at h
  · cases h
  rename_i u r₁ hs
  split at h
  · cases h
  rename_i hkey
  split at h
  · cases h
  rename_i w r₂ hr₁
  split at h
  · cases h
  rename_i hw
  obtain ⟨b, rfl, hswap⟩ := read_json_string_swap (Option.some.inj h)
  rw [not_not] at hw
  subst hw
  obtain ⟨w₁, rfl, hdrop₁⟩ := dropWhile_swap hs
  obtain ⟨w₂, rfl, hdrop₂⟩ := dropWhile_swap hr₁
  -- white space, the colon, white space, the quote and the string's body
  refine ⟨w₁ ++ u :: (w₂ ++ unit '"' :: b), by simp, fun r' => ?_⟩
  have htext : w₁ ++ u :: (w₂ ++ unit '"' :: b) ++ unit '"' :: r' =
      w₁ ++ u :: (w₂ ++ unit '"' :: (b ++ unit '"' :: r')) := by simp
  rw [htext, value_after_key, hdrop₁]
  dsimp only
  rw [if_neg hkey, hdrop₂]
  dsimp only
  rw [if_neg (by simp), hswap]

/-- The scan finds its string the same whatever follows it. -/
theorem top_level_swap {s v r : Str} {d : Int} (h : top_level prop s d = some (v, r)) :
    ∃ c, s = c ++ unit '"' :: r ∧
      ∀ r', top_level prop (c ++ unit '"' :: r') d = some (v, r') := by
  fun_induction top_level prop s d with
  | case1 => cases h
  | case2 s d ih =>
    obtain ⟨c, rfl, hswap⟩ := ih h
    exact ⟨unit '{' :: c, rfl, fun r' => by rw [cons_append, top_level_open, hswap]⟩
  | case3 s d _ ih =>
    obtain ⟨c, rfl, hswap⟩ := ih h
    exact ⟨unit '}' :: c, rfl, fun r' => by rw [cons_append, top_level_close, hswap]⟩
  | case4 u s d h₁ h₂ h₃ ih =>
    obtain ⟨c, rfl, hswap⟩ := ih h
    exact ⟨u :: c, rfl, fun r' => by rw [cons_append, top_level_plain h₁ h₂ h₃, hswap]⟩
  | case5 => cases h
  | case6 u s d _ _ hu key r₁ hstring value hvalue =>
    rw [not_not] at hu
    subst hu
    obtain ⟨b, rfl, hread⟩ := read_json_string_swap hstring
    split at hvalue
    case isFalse => cases hvalue
    rename_i hd
    obtain ⟨c, rfl, hswap⟩ := value_after_key_swap (h ▸ hvalue)
    refine ⟨unit '"' :: b ++ unit '"' :: c, by simp, fun r' => ?_⟩
    rw [append_assoc, cons_append, cons_append,
      top_level_quote (hread _), if_pos hd, hswap]
  | case7 u s d _ _ hu key r₁ hstring hvalue ih =>
    rw [not_not] at hu
    subst hu
    obtain ⟨b, rfl, hread⟩ := read_json_string_swap hstring
    obtain ⟨c, rfl, hswap⟩ := ih h
    refine ⟨unit '"' :: b ++ unit '"' :: c, by simp, fun r' => ?_⟩
    have hpassed : (if d = 1 then value_after_key prop key (c ++ unit '"' :: r') else none) =
        none := by
      split
      · rename_i hd
        rw [dif_pos hd] at hvalue
        exact value_after_key_none_swap hvalue r'
      · rfl
    rw [append_assoc, cons_append, cons_append,
      top_level_quote (hread _), hpassed, hswap]

end Cut

/-! ## The guard -/

/-- mirrors guard.py:100-104 -/
def BLOCK_REASON : Str := units ("Claude uses the direct openbrain-memory adapter; executable " ++
  "mcp2cli open-brain commands are blocked. qmd and other mcp2cli services remain allowed.")

/-- mirrors guard.py:623-628 -/
def block_response : Str :=
  dumps (.obj [(units "decision", .str (units "block")), (units "reason", .str BLOCK_REASON)]) ++
    [0x0A]

/-- mirrors guard.py:177-196 -/
def oversized_response (raw_input : List UInt8) : Str :=
  let prefix_text := Utf8.decodeFrom Utf8.idle (raw_input.take MAX_INPUT_BYTES)
  match top_level_string_property prefix_text (units "tool_name") with
  | some tool_name =>
    if tool_name ≠ [] ∧ tool_name ∉ SHELL_TOOL_NAMES then [] else block_response
  | none => block_response

/-- `contains_forbidden_open_brain_command` is given; a tool name that is no hash key raises, which
`cli_guard` answers with nothing too. mirrors guard.py:146-174 -/
def guard_claude_command (contains_forbidden : Str → Bool) (raw_input : List UInt8) : Str :=
  if MAX_INPUT_BYTES < raw_input.length then oversized_response raw_input
  else
    match (Utf8.decodeStrict raw_input).bind loadsText with
    | some (.obj parsed) =>
      match Members.get? parsed (units "tool_name"), Members.get? parsed (units "tool_input") with
      | some (.str tool_name), some (.obj tool_input) =>
        if tool_name ∉ SHELL_TOOL_NAMES then []
        else
          match Members.get? tool_input (units "command") with
          | some (.str command) => if contains_forbidden command then block_response else []
          | _ => []
      | _, _ => []
    | _ => []

/-! ## What a payload is answered -/

section Payload
variable {raw_input : List UInt8} {text : Str}

/-- The scan of the first octets finds what the scan of the text finds, when that ends in front
of the cut. -/
theorem top_level_take (hdecode : Utf8.decodeStrict raw_input = some text) (prop name : Str)
    (n : Nat) :
    top_level_string_property (Utf8.decodeFrom Utf8.idle (raw_input.take n)) prop = some name ↔
      ∃ rest, top_level prop text 0 = some (name, rest) ∧
        raw_input.length ≤ n + (Utf8.encode rest).length := by
  have hpaired := Utf8.wellPaired_of_decodeStrict hdecode
  unfold Utf8.decodeStrict at hdecode
  split at hdecode
  case isFalse => cases hdecode
  rename_i hencode
  have htext := Option.some.inj hdecode
  rw [htext] at hencode
  -- the octets of a text up to a quote and behind it
  have hoctets : ∀ {c rest : Str}, text = c ++ unit '"' :: rest →
      raw_input = Utf8.encode (c ++ [unit '"']) ++ Utf8.encode rest := by
    rintro c rest rfl
    rw [← hencode, ← Utf8.encode_append (c ++ [unit '"']) (by
      intro u hu
      rw [getLast?_append_cons, getLast?_singleton] at hu
      cases hu
      decide)]
    simp
  constructor
  · intro h
    obtain ⟨⟨name', r⟩, htop, rfl⟩ := Option.map_eq_some_iff.mp h
    obtain ⟨c, hcut, hswap⟩ := top_level_swap htop
    obtain ⟨t, ht⟩ := Utf8.of_take (by decide) hcut
    obtain ⟨r', hr'⟩ := Utf8.prolonged ht
    rw [htext] at hr'
    refine ⟨t ++ r', hr' ▸ hswap _, ?_⟩
    have hc := hoctets hr'
    have hn := (Utf8.take_iff (by decide) (Utf8.wellPaired_cut (by decide) (hr' ▸ hpaired))
      (Utf8.encode (t ++ r')) n).mp ⟨r, hc ▸ hcut⟩
    have hlength := congrArg List.length hc
    rw [length_append] at hlength
    omega
  · rintro ⟨rest, htop, hlength⟩
    obtain ⟨c, hc, hswap⟩ := top_level_swap htop
    have hoctets := hoctets hc
    have hn : (Utf8.encode (c ++ [unit '"'])).length ≤ n := by
      rw [hoctets, length_append] at hlength
      omega
    obtain ⟨r, hr⟩ := (Utf8.take_iff (by decide)
      (Utf8.wellPaired_cut (by decide) (hc ▸ hpaired)) (Utf8.encode rest) n).mpr hn
    rw [top_level_string_property, hoctets, hr, hswap]
    rfl

theorem parse_of_loadsText {ms : Items} (h : loadsText text = some (.obj ms)) :
    ∃ members, parse Number.read unquote text = some (.obj members) ∧
      ms = Members.dict (Json.buildMembers Members.dict members) := by
  obtain ⟨v, hv, hbuild⟩ := Option.map_eq_some_iff.mp h
  cases v with
  | obj members => exact ⟨members, hv, (Json.obj.inj hbuild).symm⟩
  | null | bool | num | str | arr => cases hbuild

/-- The first `tool_name` names another tool than a shell, and ends among the first octets. -/
def NamesOther (raw_input : List UInt8) (first : Json Str) (rest : Str) : Prop :=
  ∃ token name, first = .str token ∧ unquote token = some name ∧ name ≠ [] ∧
    name ∉ SHELL_TOOL_NAMES ∧ raw_input.length ≤ MAX_INPUT_BYTES + (Utf8.encode rest).length

theorem block_response_ne_nil : block_response ≠ [] :=
  append_ne_nil_of_right_ne_nil _ (cons_ne_nil _ _)

/-- A payload that is too large to parse is let through when its first `tool_name`, by which the
tool does not go where there is another, is not a shell's. -/
theorem oversized_blocks (contains_forbidden : Str → Bool) {ms : Items}
    (hlong : MAX_INPUT_BYTES < raw_input.length)
    (hdecode : Utf8.decodeStrict raw_input = some text)
    (hloads : loadsText text = some (.obj ms))
    (hshell : ∃ tool_name ∈ SHELL_TOOL_NAMES,
      Members.get? ms (units "tool_name") = some (.str tool_name)) :
    ∃ first rest, firstMember (units "tool_name") text = some (first, rest) ∧
      (guard_claude_command contains_forbidden raw_input = block_response ↔
        ¬ NamesOther raw_input first rest) := by
  obtain ⟨tool_name, -, htool⟩ := hshell
  obtain ⟨members, hparse, rfl⟩ := parse_of_loadsText hloads
  have hkey := mem_of_get?_dict htool
  rw [Json.buildMembers_keys] at hkey
  obtain ⟨⟨first, rest⟩, hfirst⟩ := Option.isSome_iff_exists.mp (firstMember_isSome hparse hkey)
  refine ⟨first, rest, hfirst, ?_⟩
  have htop : top_level (units "tool_name") text 0 = stringOf (first, rest) := by
    rw [top_level_object hparse, hfirst, Option.bind_some]
  have hfound := fun name => top_level_take hdecode (units "tool_name") name MAX_INPUT_BYTES
  rw [guard_claude_command, if_pos hlong]
  unfold oversized_response
  dsimp only
  constructor
  · rintro hblock ⟨token, name, rfl, hname, hne, hother, hlength⟩
    have hread : stringOf (.str token, rest) = some (name, rest) := by rw [stringOf, hname]; rfl
    have hfront := (hfound name).mpr ⟨rest, htop.trans hread, hlength⟩
    rw [hfront] at hblock
    dsimp only at hblock
    rw [if_pos ⟨hne, hother⟩] at hblock
    exact block_response_ne_nil hblock.symm
  · intro hnone
    split
    · rename_i name hfront
      obtain ⟨rest', htop', hlength⟩ := (hfound name).mp hfront
      split
      · rename_i hother
        rw [htop] at htop'
        refine absurd ?_ hnone
        cases first with
        | str token =>
          obtain ⟨name', hname, heq⟩ := Option.map_eq_some_iff.mp htop'
          cases heq
          exact ⟨token, name, rfl, hname, hother.1, hother.2, hlength⟩
        | null | bool | num | arr | obj => cases htop'
      · rfl
    · rfl

end Payload

/-! ## A shell behind another tool's name -/

def twoNames : Items :=
  [(units "tool_name", .str (units "Read")), (units "tool_name", .str (units "Bash"))]

section TwoNames
variable {w : Str}

theorem twoNames_eq (w : Str) : dumps (.obj twoNames) ++ w =
    unit '{' :: (quote (units "tool_name") ++ unit ':' :: (quote (units "Read") ++ unit ',' ::
      (quote (units "tool_name") ++ unit ':' :: (quote (units "Bash") ++ unit '}' :: w)))) := by
  simp [dumps, Printer.print, Printer.printMembers, joinSep, twoNames, printer]

theorem twoNames_decode (hw : ∀ u ∈ w, isWs u = true) :
    Utf8.decodeStrict (Utf8.encode (dumps (.obj twoNames) ++ w)) =
      some (dumps (.obj twoNames) ++ w) := by
  apply Utf8.decodeStrict_encode
  apply Utf8.wellPaired_ascii
  rw [isAscii_iff]
  intro u hu
  rcases mem_append.mp hu with hu | hu
  · exact Nat.lt_trans (printable_dumps _ u hu).2 (by decide)
  · have hws := hw u hu
    simp only [isWs, Bool.or_eq_true, beq_iff_eq] at hws
    obtain ((rfl | rfl) | rfl) | rfl := hws <;> decide

theorem twoNames_long (hlength : MAX_INPUT_BYTES ≤ w.length) :
    MAX_INPUT_BYTES < (Utf8.encode (dumps (.obj twoNames) ++ w)).length := by
  refine Nat.lt_of_lt_of_le ?_ (Utf8.length_le_encode _)
  rw [twoNames_eq]
  simp only [length_cons, length_append]
  omega

theorem twoNames_loads (hw : ∀ u ∈ w, isWs u = true) :
    loadsText (dumps (.obj twoNames) ++ w) =
      some (.obj [(units "tool_name", .str (units "Bash"))]) := by
  have hframed := @loads_framed (.obj twoNames) [] _ (by simp) hw
  rw [nil_append] at hframed
  rw [hframed, loadsText, dumps, parse_print printer_lawful printer_readBack, Json.map_id]
  rfl

theorem twoNames_passes (hw : ∀ u ∈ w, isWs u = true) (hlength : MAX_INPUT_BYTES ≤ w.length)
    (contains_forbidden : Str → Bool) :
    guard_claude_command contains_forbidden (Utf8.encode (dumps (.obj twoNames) ++ w)) = [] := by
  obtain ⟨members, hparse, -⟩ := parse_of_loadsText (twoNames_loads hw)
  have htop : top_level (units "tool_name") (dumps (.obj twoNames) ++ w) 0 = some (units "Read",
      unit ',' :: (quote (units "tool_name") ++ unit ':' :: (quote (units "Bash") ++
        unit '}' :: w))) := by
    have hfirst := firstMember_written printer_lawful (unquote_quote (units "tool_name"))
      (units "Read") (quote (units "tool_name") ++ unit ':' ::
        (quote (units "Bash") ++ unit '}' :: w))
    rw [top_level_object hparse, twoNames_eq]
    refine (congrArg (Option.bind · stringOf) hfirst).trans ?_
    rw [Option.bind_some, stringOf]
    exact congrArg (Option.map _) (unquote_quote (units "Read"))
  have hcut : (Utf8.encode (dumps (.obj twoNames) ++ w)).length ≤
      MAX_INPUT_BYTES + (Utf8.encode (unit ',' :: (quote (units "tool_name") ++ unit ':' ::
        (quote (units "Bash") ++ unit '}' :: w)))).length := by
    have hfront : dumps (.obj twoNames) ++ w =
        (unit '{' :: (quote (units "tool_name") ++ unit ':' :: quote (units "Read"))) ++
          (unit ',' :: (quote (units "tool_name") ++ unit ':' ::
            (quote (units "Bash") ++ unit '}' :: w))) := by
      rw [twoNames_eq]
      simp
    have hend : (unit '{' :: (quote (units "tool_name") ++ unit ':' ::
        quote (units "Read"))).getLast? = some (unit '"') := by decide
    have hpaired : ∀ u, some (unit '"') = some u → isHighSurrogate u = false :=
      fun u hu => Option.some.inj hu ▸ rfl
    rw [hfront, Utf8.encode_append _ (hend ▸ hpaired), length_append]
    exact Nat.add_le_add_right (by decide) _
  have hread := (top_level_take (twoNames_decode hw) (units "tool_name") (units "Read")
    MAX_INPUT_BYTES).mpr ⟨_, htop, hcut⟩
  rw [guard_claude_command, if_pos (twoNames_long hlength)]
  unfold oversized_response
  dsimp only
  rw [hread]
  rfl

end TwoNames

def padding : Str := List.replicate MAX_INPUT_BYTES 0x20

theorem length_padding : MAX_INPUT_BYTES ≤ padding.length := by
  rw [padding, length_replicate]

theorem isWs_padding : ∀ u ∈ padding, isWs u = true := by
  intro u hu
  rw [eq_of_mem_replicate hu]
  rfl

/-- `Bash` is what the parser reads. -/
theorem oversized_blocks_twoNames :
    ∃ first rest, firstMember (units "tool_name") (dumps (.obj twoNames) ++ padding) = some (first, rest) ∧
      (guard_claude_command (fun _ => true) (Utf8.encode (dumps (.obj twoNames) ++ padding)) = block_response ↔
        ¬ NamesOther (Utf8.encode (dumps (.obj twoNames) ++ padding)) first rest) :=
  oversized_blocks (fun _ => true) (twoNames_long length_padding) (twoNames_decode isWs_padding)
    (twoNames_loads isWs_padding) ⟨units "Bash", by decide, rfl⟩

/-- A payload for `Bash` that passes as one for `Read`. -/
theorem shell_smuggled : ∃ raw_input text ms, MAX_INPUT_BYTES < raw_input.length ∧
    Utf8.decodeStrict raw_input = some text ∧ loadsText text = some (.obj ms) ∧
    (∃ tool_name ∈ SHELL_TOOL_NAMES,
      Members.get? ms (units "tool_name") = some (.str tool_name)) ∧
    ∀ contains_forbidden, guard_claude_command contains_forbidden raw_input = [] :=
  ⟨_, _, _, twoNames_long length_padding, twoNames_decode isWs_padding,
    twoNames_loads isWs_padding, ⟨units "Bash", by decide, rfl⟩,
    twoNames_passes isWs_padding length_padding⟩

end OpenBrain.Provider.Guard
