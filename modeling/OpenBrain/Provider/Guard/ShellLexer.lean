import OpenBrain.Core.PyJson

/-!
# The shell lexer (`openbrain_provider/shell_lexer.py`)

`tokenize_shell_detailed` breaks a command into segments of tokens. On a command without
expansions and separators it is the reading of the marked text: quotes, escapes and comments are
taken out first (`mark`), and what is left is cut at line breaks and white space (`lines`);
`tokenize_lines` says so.
-/
namespace OpenBrain.Provider.Guard
open OpenBrain.Core OpenBrain.Core.Py List

/-! ## Tokens and segments -/

/-- mirrors shell_lexer.py:78-90 -/
structure Token where
  value : Str
  has_single_quoted_part : Bool

/-- mirrors shell_lexer.py:93-104 -/
structure Segment where
  tokens : List Token
  terminator : Option Str

/-- mirrors shell_lexer.py:301-343 -/
structure SegmentAccumulator where
  segments : List Segment
  tokens : List Token
  token : Str
  token_has_single_quoted_part : Bool

namespace SegmentAccumulator

def new : SegmentAccumulator := ⟨[], [], [], false⟩

def add (acc : SegmentAccumulator) (text : Str) (single_quoted : Bool) : SegmentAccumulator :=
  { acc with
    token := acc.token ++ text
    token_has_single_quoted_part := acc.token_has_single_quoted_part || single_quoted }

def mark_single_quoted (acc : SegmentAccumulator) : SegmentAccumulator :=
  { acc with token_has_single_quoted_part := true }

def token_is_empty (acc : SegmentAccumulator) : Bool := acc.token.isEmpty

def finish_token (acc : SegmentAccumulator) : SegmentAccumulator :=
  { acc with
    tokens := if acc.token.isEmpty then acc.tokens
      else acc.tokens ++ [⟨acc.token, acc.token_has_single_quoted_part⟩]
    token := []
    token_has_single_quoted_part := false }

def finish_segment (acc : SegmentAccumulator) (terminator : Option Str) : SegmentAccumulator :=
  let acc := acc.finish_token
  { acc with
    segments := if acc.tokens.isEmpty then acc.segments
      else acc.segments ++ [⟨acc.tokens, terminator⟩]
    tokens := [] }

end SegmentAccumulator

/-! ## Expansions -/

/-- mirrors shell_lexer.py:49-61 -/
def ANSI_C_SIMPLE_ESCAPES : List (UInt16 × UInt16) :=
  [(unit 'a', 0x07), (unit 'b', 0x08), (unit 'e', 0x1B), (unit 'f', 0x0C), (unit 'n', 0x0A),
    (unit 'r', 0x0D), (unit 't', 0x09), (unit 'v', 0x0B), (unit '\\', unit '\\'),
    (unit '\'', unit '\''), (unit '"', unit '"')]

/-- mirrors shell_lexer.py:64 -/
def ANSI_C_HEX_WIDTHS : List (UInt16 × Nat) := [(unit 'x', 2), (unit 'u', 4), (unit 'U', 8)]

/-- The digits of `^[a-fA-F0-9]+$`; the `$` stands in front of a last line break too. -/
def hexRun (digits : Str) : Option (List Nat) :=
  let digits := if digits.getLast? = some 0x0A then digits.dropLast else digits
  if digits.isEmpty then none else digits.mapM JsonText.hexVal

def ofDigits (base : Nat) (digits : List Nat) : Nat := digits.foldl (fun n d => n * base + d) 0

def isOctal (u : UInt16) : Bool := unit '0' ≤ u && u ≤ unit '7'

/-- The text of a numeric escape and what follows it; `rest` follows `escaped`.
mirrors shell_lexer.py:154-180 -/
def read_numeric_escape (escaped : UInt16) (rest : Str) : Option (Str × Str) :=
  match ANSI_C_HEX_WIDTHS.lookup escaped with
  | some width =>
    if (rest.take width).length = width then
      (hexRun (rest.take width)).map fun digits =>
        (if ofDigits 16 digits ≤ 0x10FFFF then Utf8.unitsOf (ofDigits 16 digits) else [],
          rest.drop width)
    else none
  | none =>
    if isOctal escaped then
      let digits := escaped :: (rest.take 2).takeWhile isOctal
      some (Utf8.unitsOf (ofDigits 8 (digits.map fun u => u.toNat - 48)),
        rest.drop ((rest.take 2).takeWhile isOctal).length)
    else none

theorem read_numeric_escape_length {escaped : UInt16} {rest text rest' : Str}
    (h : read_numeric_escape escaped rest = some (text, rest')) : rest'.length ≤ rest.length := by
  unfold read_numeric_escape at h
  split at h
  · split at h
    · obtain ⟨digits, -, heq⟩ := Option.map_eq_some_iff.mp h
      cases heq
      simp
    · cases h
  · split at h
    · cases h
      simp
    · cases h

/-- The value behind `$'`, and what follows the closing quote. mirrors shell_lexer.py:115-151 -/
def read_ansi_c_string : Str → Option (Str × Str)
  | [] => none
  | char :: s =>
    if char = unit '\'' then some ([], s)
    else if char ≠ unit '\\' then
      (read_ansi_c_string s).map fun (value, rest) => (char :: value, rest)
    else
      match s with
      | [] => none
      | escaped :: s =>
        match ANSI_C_SIMPLE_ESCAPES.lookup escaped with
        | some simple => (read_ansi_c_string s).map fun (value, rest) => (simple :: value, rest)
        | none =>
          match h : read_numeric_escape escaped s with
          | some (decoded, s') =>
            (read_ansi_c_string s').map fun (value, rest) => (decoded ++ value, rest)
          | none => (read_ansi_c_string s).map fun (value, rest) => (escaped :: value, rest)
termination_by s => s.length
decreasing_by
  · exact Nat.lt_succ_self _
  · simp only [length_cons]
    omega
  · have := read_numeric_escape_length h
    simp only [length_cons]
    omega
  · simp only [length_cons]
    omega

/-- The text behind `$(` up to its closing parenthesis, and what follows that.
mirrors shell_lexer.py:183-218 -/
def read_command_substitution (depth : Nat) (quote : Option UInt16) (escaped : Bool) :
    Str → Option (Str × Str)
  | [] => none
  | char :: s =>
    let go := fun depth quote escaped =>
      (read_command_substitution depth quote escaped s).map fun (text, rest) => (char :: text, rest)
    if escaped then go depth quote false
    else if char = unit '\\' ∧ quote ≠ some (unit '\'') then go depth quote true
    else
      match quote with
      | some q => go depth (if char = q then none else some q) false
      | none =>
        if char = unit '\'' ∨ char = unit '"' then go depth (some char) false
        else if char = unit '(' then go (depth + 1) none false
        else if char = unit ')' then
          if depth = 1 then some ([char], s) else go (depth - 1) none false
        else go depth none false

/-- The text behind a backtick up to the closing one, and what follows that.
mirrors shell_lexer.py:221-243 -/
def read_backtick_substitution (escaped : Bool) : Str → Option (Str × Str)
  | [] => none
  | char :: s =>
    let go := fun escaped =>
      (read_backtick_substitution escaped s).map fun (text, rest) => (char :: text, rest)
    if escaped then go false
    else if char = unit '\\' then go true
    else if char = unit '\x60' then some ([char], s)
    else go false

/-- mirrors shell_lexer.py:415-450 -/
def consume_expansion (command : Str) (acc : SegmentAccumulator) :
    Option (SegmentAccumulator × Str) :=
  match command with
  | [] => none
  | char :: s =>
    let ansi := if char = unit '$' ∧ s.head? = some (unit '\'') then
      (read_ansi_c_string s.tail).map fun (value, rest) => (acc.add value false, rest) else none
    let substitution := if char = unit '$' ∧ s.head? = some (unit '(') then
      (read_command_substitution 1 none false s.tail).map fun (text, rest) =>
        (acc.add (units "$(" ++ text) false, rest) else none
    let backtick := if char = unit '\x60' then
      (read_backtick_substitution false s).map fun (text, rest) =>
        (acc.add (char :: text) false, rest) else none
    ansi.or (substitution.or backtick)

theorem read_ansi_c_string_length {s value rest : Str}
    (h : read_ansi_c_string s = some (value, rest)) : rest.length < s.length := by
  fun_induction read_ansi_c_string s generalizing value rest with
  | case1 => cases h
  | case2 => cases h; simp
  | case3 char s _ _ ih =>
    obtain ⟨p, hp, heq⟩ := Option.map_eq_some_iff.mp h
    cases heq
    have := ih hp
    rw [length_cons]
    omega
  | case4 => cases h
  | case5 char _ _ escaped s simple _ ih | case7 char _ _ escaped s _ _ ih =>
    obtain ⟨p, hp, heq⟩ := Option.map_eq_some_iff.mp h
    cases heq
    have := ih hp
    rw [length_cons, length_cons]
    omega
  | case6 char _ _ escaped s _ decoded s' hdecoded ih =>
    obtain ⟨p, hp, heq⟩ := Option.map_eq_some_iff.mp h
    cases heq
    have := ih hp
    have := read_numeric_escape_length hdecoded
    rw [length_cons, length_cons]
    omega

theorem read_command_substitution_length {s text rest : Str} {depth : Nat} {quote : Option UInt16}
    {escaped : Bool} (h : read_command_substitution depth quote escaped s = some (text, rest)) :
    rest.length < s.length := by
  induction s generalizing depth quote escaped text with
  | nil => cases h
  | cons char s ih =>
    have hgo : ∀ depth quote escaped, (read_command_substitution depth quote escaped s).map
        (fun (text, rest) => (char :: text, rest)) = some (text, rest) →
        rest.length < (char :: s).length := by
      intro depth quote escaped hp
      obtain ⟨p, hread, heq⟩ := Option.map_eq_some_iff.mp hp
      cases heq
      have := ih hread
      rw [length_cons]
      omega
    unfold read_command_substitution at h
    dsimp only at h
    split at h
    · exact hgo _ _ _ h
    split at h
    · exact hgo _ _ _ h
    split at h
    · exact hgo _ _ _ h
    split at h
    · exact hgo _ _ _ h
    split at h
    · exact hgo _ _ _ h
    split at h
    · split at h
      · cases h
        simp
      · exact hgo _ _ _ h
    · exact hgo _ _ _ h

theorem read_backtick_substitution_length {s text rest : Str} {escaped : Bool}
    (h : read_backtick_substitution escaped s = some (text, rest)) : rest.length < s.length := by
  induction s generalizing escaped text with
  | nil => cases h
  | cons char s ih =>
    have hgo : ∀ escaped, (read_backtick_substitution escaped s).map
        (fun (text, rest) => (char :: text, rest)) = some (text, rest) →
        rest.length < (char :: s).length := by
      intro escaped hp
      obtain ⟨p, hread, heq⟩ := Option.map_eq_some_iff.mp hp
      cases heq
      have := ih hread
      rw [length_cons]
      omega
    unfold read_backtick_substitution at h
    dsimp only at h
    split at h
    · exact hgo _ h
    split at h
    · exact hgo _ h
    split at h
    · cases h
      simp
    · exact hgo _ h

theorem consume_expansion_length {command rest : Str} {acc acc' : SegmentAccumulator}
    (h : consume_expansion command acc = some (acc', rest)) : rest.length < command.length := by
  cases command with
  | nil => cases h
  | cons char s =>
    -- the expansion's reader leaves less than what is behind its first unit
    have hread : ∀ {c : Prop} [Decidable c] {x : Option (Str × Str)}
        {f : Str × Str → SegmentAccumulator},
        (if c then x.map fun p => (f p, p.2) else none) = some (acc', rest) →
        (∀ text, x = some (text, rest) → rest.length < s.length) →
        rest.length < (char :: s).length := by
      intro c _ x f h hlt
      split at h
      case isFalse => cases h
      obtain ⟨⟨text, rest'⟩, hx, heq⟩ := Option.map_eq_some_iff.mp h
      cases heq
      have := hlt text hx
      rw [length_cons]
      omega
    have htail : s.tail.length ≤ s.length := by simp
    unfold consume_expansion at h
    dsimp only at h
    rw [Option.or_eq_some_iff, Option.or_eq_some_iff] at h
    rcases h with h | ⟨-, h | ⟨-, h⟩⟩
    · exact hread h fun text hx => Nat.lt_of_lt_of_le (read_ansi_c_string_length hx) htail
    · exact hread h fun text hx => Nat.lt_of_lt_of_le (read_command_substitution_length hx) htail
    · exact hread h fun text hx => read_backtick_substitution_length hx

/-! ## The loop -/

/-- mirrors shell_lexer.py:359-412 -/
def tokenize (quote : Option UInt16) (escaped : Bool) (state : SegmentAccumulator) :
    Str → List Segment
  | [] => (state.finish_segment none).segments
  | char :: s =>
    if escaped then tokenize quote false (state.add [char] false) s
    else if char = unit '\\' ∧ quote ≠ some (unit '\'') then tokenize quote true state s
    else
      match quote with
      | some q =>
        if char = q then tokenize none false state s
        else tokenize quote false (state.add [char] (q == unit '\'')) s
      | none =>
        match h : consume_expansion (char :: s) state with
        | some (state, rest) => tokenize none false state rest
        | none =>
          if char = unit '\'' ∨ char = unit '"' then
            tokenize (some char) false
              (if char = unit '\'' then state.mark_single_quoted else state) s
          else if char = unit '#' ∧ state.token_is_empty = true then
            tokenize none false (state.finish_segment (some [0x0A]))
              ((s.dropWhile (· != 0x0A)).drop 1)
          else if isSpace char then
            tokenize none false
              (if char = 0x0A then state.finish_segment (some [0x0A]) else state.finish_token) s
          else if (units ";|&").contains char then
            if s.head? = some char ∧ char ≠ unit ';' then
              tokenize none false (state.finish_segment (some [char, char])) s.tail
            else tokenize none false (state.finish_segment (some [char])) s
          else tokenize none false (state.add [char] false) s
termination_by s => s.length
decreasing_by
  all_goals try exact Nat.lt_succ_self _
  · exact consume_expansion_length h
  · have := (dropWhile_suffix (l := s) (· != 0x0A)).length_le
    rw [List.length_drop, length_cons]
    omega
  · rw [length_tail, length_cons]
    omega

/-- mirrors shell_lexer.py:346-412 -/
def tokenize_shell_detailed (command : Str) : List Segment :=
  tokenize none false .new command

/-! ## Marked text -/

/-- Where a unit of a command stands. -/
inductive Mode where
  | plain
  | comment
  | quoted (quote : UInt16)
  | escaped (quote : Option UInt16)

def Mode.of : Option UInt16 → Mode
  | none => .plain
  | some quote => .quoted quote

/-- The units of a command without its quotes, backslashes and comments; the units that these stood
around are marked. `start` tells that nothing of a word was read. -/
def mark : Mode → (start : Bool) → Str → List (UInt16 × Bool)
  | _, _, [] => []
  | .plain, start, u :: s =>
    if u = unit '\\' then mark (.escaped none) start s
    else if u = unit '\'' ∨ u = unit '"' then mark (.quoted u) start s
    else if u = unit '#' ∧ start = true then mark .comment start s
    else (u, false) :: mark .plain (isSpace u) s
  | .comment, start, u :: s =>
    if u = 0x0A then (u, false) :: mark .plain true s else mark .comment start s
  | .quoted quote, start, u :: s =>
    if u = unit '\\' ∧ quote ≠ unit '\'' then mark (.escaped (some quote)) start s
    else if u = quote then mark .plain start s
    else (u, true) :: mark (.quoted quote) false s
  | .escaped quote, _, u :: s => (u, true) :: mark (.of quote) false s

/-- A line with the word it ends in; a line without words is none. -/
def endLine (line : List Str) (word : Str) : List (List Str) :=
  if line = [] ∧ word = [] then [] else [line ++ if word = [] then [] else [word]]

/-- The lines of marked text, given the words and the units of the line that is being read. -/
def cut (line : List Str) (word : Str) : List (UInt16 × Bool) → List (List Str)
  | [] => endLine line word
  | (u, quoted) :: ms =>
    if quoted = false ∧ u = 0x0A then endLine line word ++ cut [] [] ms
    else if quoted = false ∧ isSpace u = true then
      cut (line ++ if word = [] then [] else [word]) [] ms
    else cut line (word ++ [u]) ms

def lines (command : Str) : List (List Str) := cut [] [] (mark .plain true command)

/-! ## The lexer's reading -/

def Segment.words (segment : Segment) : List Str := segment.tokens.map Token.value

/-- No expansion and no separator. -/
def isSimple (u : UInt16) : Bool := !(units "$;|&" ++ [unit '\x60']).contains u

section Reading
variable {state : SegmentAccumulator}

theorem consume_expansion_simple {char : UInt16} (h : isSimple char = true) (s : Str) :
    consume_expansion (char :: s) state = none := by
  have hdollar : char ≠ unit '$' := by rintro rfl; revert h; decide
  have hback : char ≠ unit '\x60' := by rintro rfl; revert h; decide
  simp [consume_expansion, hdollar, hback]

theorem not_separator {u : UInt16} (h : isSimple u = true) :
    (units ";|&").contains u = false := by
  rw [Bool.eq_false_iff]
  intro hsep
  have hall : ∀ v ∈ units ";|&", isSimple v = false := by decide
  rw [hall u (contains_iff_mem.mp hsep)] at h
  cases h

def SegmentAccumulator.line (state : SegmentAccumulator) : List Str := state.tokens.map Token.value

def SegmentAccumulator.done (state : SegmentAccumulator) : List (List Str) :=
  state.segments.map Segment.words

@[simp] theorem add_done (text : Str) (single : Bool) : (state.add text single).done = state.done :=
  rfl

@[simp] theorem add_line (text : Str) (single : Bool) : (state.add text single).line = state.line :=
  rfl

@[simp] theorem add_token (text : Str) (single : Bool) :
    (state.add text single).token = state.token ++ text := rfl

@[simp] theorem mark_done : state.mark_single_quoted.done = state.done := rfl

@[simp] theorem mark_line : state.mark_single_quoted.line = state.line := rfl

@[simp] theorem mark_token : state.mark_single_quoted.token = state.token := rfl

@[simp] theorem finish_token_done : state.finish_token.done = state.done := rfl

@[simp] theorem finish_token_token : state.finish_token.token = [] := rfl

@[simp] theorem finish_token_line : state.finish_token.line =
    state.line ++ if state.token = [] then [] else [state.token] := by
  unfold SegmentAccumulator.finish_token SegmentAccumulator.line
  cases state.token <;> simp

@[simp] theorem finish_segment_token (terminator : Option Str) :
    (state.finish_segment terminator).token = [] := rfl

@[simp] theorem finish_segment_line (terminator : Option Str) :
    (state.finish_segment terminator).line = [] := rfl

@[simp] theorem finish_segment_done (terminator : Option Str) :
    (state.finish_segment terminator).done = state.done ++ endLine state.line state.token := by
  obtain ⟨segments, tokens, token, single⟩ := state
  unfold SegmentAccumulator.finish_segment SegmentAccumulator.finish_token
    SegmentAccumulator.done SegmentAccumulator.line endLine Segment.words
  cases token <;> cases tokens <;> simp

theorem mark_comment (start : Bool) (s : Str) (line : List Str) (word : Str) :
    cut line word (mark .comment start s) =
      endLine line word ++ cut [] [] (mark .plain true ((s.dropWhile (· != 0x0A)).drop 1)) := by
  induction s with
  | nil => simp [mark, cut, endLine]
  | cons u s ih =>
    rw [mark]
    by_cases hu : u = 0x0A
    · subst hu
      simp [cut]
    · rw [if_neg hu, ih, dropWhile_cons_of_pos (by simpa using hu)]

theorem isEmpty_snoc (word : Str) (u : UInt16) : (word ++ [u]).isEmpty = false := by
  cases word <;> rfl

/-- The loop reads on what it has read. -/
theorem tokenize_cut (quote : Option UInt16) (escaped : Bool) {s : Str}
    (h : ∀ u ∈ s, isSimple u = true) :
    (tokenize quote escaped state s).map Segment.words =
      state.done ++ cut state.line state.token
        (mark (if escaped then .escaped quote else .of quote) state.token.isEmpty s) := by
  fun_induction tokenize quote escaped state s with
  | case1 quote escaped state =>
    rw [show mark _ _ [] = [] by cases escaped <;> cases quote <;> rfl, cut,
      ← finish_segment_done none]
    rfl
  | case2 quote state char s ih =>
    rw [ih fun u hu => h u (mem_cons_of_mem _ hu), if_pos rfl, mark]
    simp [cut, isEmpty_snoc]
  | case3 quote escaped state char s hescaped hslash ih =>
    obtain ⟨rfl, hquote⟩ := hslash
    rw [ih fun u hu => h u (mem_cons_of_mem _ hu), if_pos rfl, if_neg hescaped]
    cases quote with
    | none => rw [Mode.of, mark, if_pos rfl]
    | some q => rw [Mode.of, mark, if_pos ⟨rfl, by simpa using hquote⟩]
  | case4 escaped state s hescaped q hslash ih =>
    rw [ih fun u hu => h u (mem_cons_of_mem _ hu), if_neg hescaped]
    simp only [Mode.of, Bool.false_eq_true, if_false]
    rw [mark, if_neg (by simpa using hslash), if_pos rfl]
  | case5 escaped state char s hescaped q hclose hslash ih =>
    rw [ih fun u hu => h u (mem_cons_of_mem _ hu), if_neg hescaped]
    simp only [Mode.of, Bool.false_eq_true, if_false]
    rw [mark, if_neg (by simpa using hslash), if_neg hclose]
    simp [cut, isEmpty_snoc]
  | case6 escaped state char s hescaped state' rest hexpansion =>
    rw [consume_expansion_simple (h char mem_cons_self)] at hexpansion
    cases hexpansion
  | case7 escaped state char s hescaped _ hquote hslash ih =>
    have hs : char ≠ unit '\\' := fun hc => hslash ⟨hc, by simp⟩
    rw [if_neg hescaped, Mode.of, mark, if_neg hs, if_pos hquote]
    have ih := ih fun u hu => h u (mem_cons_of_mem _ hu)
    simp only [Mode.of, Bool.false_eq_true, if_false, dite_eq_ite] at ih
    rw [ih]
    split <;> rfl
  | case8 escaped state char s hescaped _ hquote hcomment hslash ih =>
    obtain ⟨rfl, hempty⟩ := hcomment
    have hrest : ∀ u ∈ (s.dropWhile (· != 0x0A)).drop 1, isSimple u = true := fun u hu =>
      h u (mem_cons_of_mem _ ((dropWhile_suffix _).mem (mem_of_mem_drop hu)))
    have hmark : mark .plain state.token.isEmpty (unit '#' :: s) =
        mark .comment state.token.isEmpty s := by
      rw [mark, if_neg (by decide), if_neg hquote, if_pos ⟨rfl, hempty⟩]
    rw [ih hrest, if_neg hescaped, Mode.of, hmark, mark_comment]
    simp [Mode.of]
  | case9 escaped state char s hescaped _ hquote hcomment hspace hslash ih =>
    have hs : char ≠ unit '\\' := fun hc => hslash ⟨hc, by simp⟩
    change ¬ (char = unit '#' ∧ state.token.isEmpty = true) at hcomment
    have ih := ih fun u hu => h u (mem_cons_of_mem _ hu)
    simp only [Mode.of, Bool.false_eq_true, if_false, dite_eq_ite] at ih
    rw [ih, if_neg hescaped, Mode.of, mark, if_neg hs, if_neg hquote, if_neg hcomment, hspace]
    by_cases hbreak : char = 0x0A
    · simp [cut, hbreak]
    · simp [cut, hbreak, hspace]
  | case10 escaped state char s hescaped _ hquote hcomment hspace hsep
  | case11 escaped state char s hescaped _ hquote hcomment hspace hsep =>
    rw [not_separator (h char mem_cons_self)] at hsep
    cases hsep
  | case12 escaped state char s hescaped _ hquote hcomment hspace hsep hslash ih =>
    have hs : char ≠ unit '\\' := fun hc => hslash ⟨hc, by simp⟩
    change ¬ (char = unit '#' ∧ state.token.isEmpty = true) at hcomment
    have hbreak : char ≠ 0x0A := by
      rintro rfl
      exact hspace rfl
    rw [ih fun u hu => h u (mem_cons_of_mem _ hu), if_neg hescaped, Mode.of, mark, if_neg hs,
      if_neg hquote, if_neg hcomment]
    simp [cut, hbreak, hspace, isEmpty_snoc, Mode.of]

/-- On a command without expansions and separators the segments are its lines. -/
theorem tokenize_lines {command : Str} (h : ∀ u ∈ command, isSimple u = true) :
    (tokenize_shell_detailed command).map Segment.words = lines command :=
  tokenize_cut none false h

end Reading

end OpenBrain.Provider.Guard
