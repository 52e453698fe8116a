import OpenBrain.Provider.Gate.Presentation
import Mathlib.Data.List.DropRight

/-!
# A printed command read by the gate's parsers

`parse_provider_recovery` and `parse_wrapper_recovery` are the round trip through the quoting: the
pipeline of a printed command has the words it was printed from, whatever the values are. The other
rules of the classification never apply to one (`checkpoint_piped`).
-/
namespace OpenBrain.Provider.Gate
open OpenBrain.Core OpenBrain.Core.Py List

/-! ## Words read back -/

section Words

variable {p : PipelineParse} {rest : Str}

theorem PipelineParse.push_push (p : PipelineParse) (s t : Str) :
    (p.push s).push t = p.push (s ++ t) := by
  simp [PipelineParse.push]

/-- A unit that stands for itself outside quotes. -/
def isPlainUnit (c : UInt16) : Bool :=
  !isSpace c && !(UNSAFE_SHELL_CHARS.contains c || c == unit '\'' || c == unit '"' ||
    c == unit '|' || c == unit '\\')

theorem parse_plain {c : UInt16} (hq : p.quote = none) (hc : isPlainUnit c = true) :
    parseFrom p (c :: rest) = parseFrom (p.push [c]) rest := by
  apply parseFrom_step
  simp only [isPlainUnit, Bool.and_eq_true, Bool.not_eq_true', Bool.or_eq_false_iff,
    beq_eq_false_iff_ne] at hc
  obtain ⟨hspace, ⟨⟨⟨hcare, hsq⟩, hdq⟩, hpipe⟩, hslash⟩ := hc
  unfold pipeline_step
  rw [hq]
  dsimp only
  rw [if_neg (by rw [hspace]; decide), if_neg (not_or.mpr ⟨hsq, hdq⟩), if_neg hpipe,
    if_neg (by rw [hcare]; decide), if_neg hslash]

theorem parse_word {w : Str} (hw : w ≠ []) (hplain : w.all isPlainUnit = true)
    (hq : p.quote = none) : parseFrom p (w ++ rest) = parseFrom (p.push w) rest := by
  induction w generalizing p with
  | nil => exact absurd rfl hw
  | cons c w ih =>
    simp only [all_cons, Bool.and_eq_true] at hplain
    rw [cons_append, parse_plain hq hplain.1]
    by_cases hnil : w = []
    · rw [hnil, nil_append]
    · rw [ih hnil hplain.2 (p := p.push [c]) hq, PipelineParse.push_push, singleton_append]

theorem parse_open {q : UInt16} (hq : p.quote = none) (h : q = unit '\'' ∨ q = unit '"') :
    parseFrom p (q :: rest) = parseFrom { p.push [] with quote := some q } rest := by
  apply parseFrom_step
  unfold pipeline_step
  rw [hq]
  dsimp only
  rw [if_neg (by rcases h with rfl | rfl <;> decide), if_pos h]

theorem parse_inside {q c : UInt16} {text rest' : Str} {next : Option UInt16}
    (hq : p.quote = some q) (h : consume_quoted q c rest = some (next, text, rest')) :
    parseFrom p (c :: rest) = parseFrom { p.push text with quote := next } rest' := by
  apply parseFrom_step
  unfold pipeline_step
  rw [hq]
  dsimp only
  rw [h]
  rfl

theorem consume_close (q : UInt16) : consume_quoted q q rest = some (none, [], rest) := if_pos rfl

theorem consume_plain {q c : UInt16} (hne : c ≠ q)
    (hplain : q = unit '"' → c ≠ unit '$' ∧ c ≠ unit '\x60' ∧ c ≠ unit '\\') :
    consume_quoted q c rest = some (some q, [c], rest) := by
  unfold consume_quoted
  rw [if_neg hne, if_neg, if_pos]
  · by_cases hq : q = unit '"'
    · exact .inr (hplain hq).2.2
    · exact .inl hq
  · rintro ⟨hq, h | h⟩
    · exact (hplain hq).1 h
    · exact (hplain hq).2.1 h

/-- The body of a quoted word, every quote in it spelled `'"'"'`. -/
def quotedBody (s : Str) : Str := s.flatMap fun c => if c = unit '\'' then units "'\"'\"'" else [c]

theorem shell_quote_eq (s : Str) : shell_quote s = unit '\'' :: quotedBody s ++ [unit '\''] := rfl

/-- From inside the quotes to the end of the word. -/
theorem parse_body (s : Str) (hq : p.quote = some (unit '\'')) :
    parseFrom p (quotedBody s ++ unit '\'' :: rest) =
      parseFrom { p.push s with quote := none } rest := by
  induction s generalizing p with
  | nil =>
    rw [quotedBody, flatMap_nil, nil_append]
    exact parse_inside hq rfl
  | cons c s ih =>
    rw [quotedBody, flatMap_cons]
    show parseFrom p ((if c = unit '\'' then [unit '\'', unit '"', unit '\'', unit '"', unit '\'']
      else [c]) ++ quotedBody s ++ _) = _
    split
    · rename_i hc
      -- the word is left, a quote is read in double quotes, and the word is entered again
      refine (parse_inside hq (consume_close _)).trans ?_
      refine (parse_open rfl (.inr rfl)).trans ?_
      refine (parse_inside rfl (consume_plain (c := unit '\'') (by decide) (by decide))).trans ?_
      refine (parse_inside rfl (consume_close _)).trans ?_
      refine (parse_open rfl (.inl rfl)).trans ?_
      refine (ih rfl).trans ?_
      simp [PipelineParse.push, hc]
    · rename_i hc
      refine (parse_inside hq (consume_plain hc (fun h => absurd h (by decide)))).trans ?_
      refine (ih rfl).trans ?_
      simp [PipelineParse.push]

/-- A quoted value is one word, or the rest of one. -/
theorem parse_shell_quote (s : Str) (hq : p.quote = none) :
    parseFrom p (shell_quote s ++ rest) = parseFrom (p.push s) rest := by
  rw [shell_quote_eq, append_assoc, singleton_append, cons_append]
  refine (parse_open hq (.inl rfl)).trans ((parse_body s rfl).trans ?_)
  simp [PipelineParse.push, hq]

theorem parse_space (hq : p.quote = none) :
    parseFrom p (unit ' ' :: rest) = parseFrom p.endWord rest := by
  apply parseFrom_step
  unfold pipeline_step
  rw [hq]
  rfl

theorem parse_pipe (hq : p.quote = none) (hs : p.endWord.segment ≠ [])
    (hr : rest.head? ≠ some (unit '|')) :
    parseFrom p (unit '|' :: rest) = parseFrom { p.endWord with
      done := p.done ++ [p.endWord.segment]
      segment := [] } rest := by
  apply parseFrom_step
  unfold pipeline_step
  rw [hq]
  dsimp only
  rw [if_neg (by decide), if_neg (by decide), if_pos rfl, if_neg (not_or.mpr ⟨hr, hs⟩)]

/-- The text reads as the value, wherever a word may stand. -/
def Reads (text value : Str) : Prop :=
  ∀ (p : PipelineParse) (rest : Str), p.quote = none →
    parseFrom p (text ++ rest) = parseFrom (p.push value) rest

theorem reads_shell_quote (s : Str) : Reads (shell_quote s) s := fun _ _ => parse_shell_quote s

theorem reads_plain {w : Str} (hw : w ≠ []) (hplain : w.all isPlainUnit = true) : Reads w w :=
  fun _ _ => parse_word hw hplain

def between (done : List (List Str)) (segment : List Str) : PipelineParse :=
  ⟨done, segment, [], false, none⟩

variable {done : List (List Str)} {segment : List Str} {text value : Str}

theorem parse_next (h : Reads text value) :
    parseFrom (between done segment) (text ++ unit ' ' :: rest) =
      parseFrom (between done (segment ++ [value])) rest :=
  (h (between done segment) _ rfl).trans (parse_space rfl)

theorem parse_bar (hs : segment ≠ []) :
    parseFrom (between done segment) (unit '|' :: unit ' ' :: rest) =
      parseFrom (between (done ++ [segment]) []) rest :=
  have hspace : (unit ' ' :: rest).head? ≠ some (unit '|') := fun h =>
    absurd (Option.some.inj h) (by decide)
  (parse_pipe (p := between done segment) rfl hs hspace).trans (parse_space rfl)

theorem parse_last (h : Reads text value) :
    (parseFrom (between done segment) text).bind PipelineParse.finish =
      if (done ++ [segment ++ [value]]).all (fun segment => !segment.isEmpty) then
        some (done ++ [segment ++ [value]])
      else none := by
  rw [← append_nil text, h _ _ rfl]
  rfl

end Words

/-! ## Any pipeline -/

def segment_text (words : List Str) : Str := joinSep [unit ' '] (words.map shell_quote)

def pipeline_text (segments : List (List Str)) : Str :=
  joinSep (units " | ") (segments.map segment_text)

section Pipelines

variable {done : List (List Str)} {segment words : List Str} {rest : Str}

theorem parse_words (hne : words ≠ []) :
    parseFrom (between done segment) (segment_text words ++ unit ' ' :: rest) =
      parseFrom (between done (segment ++ words)) rest := by
  induction words generalizing segment with
  | nil => exact absurd rfl hne
  | cons w words ih =>
    cases words with
    | nil => exact parse_next (reads_shell_quote w)
    | cons w' words =>
      have htext : segment_text (w :: w' :: words) ++ unit ' ' :: rest =
          shell_quote w ++ unit ' ' :: (segment_text (w' :: words) ++ unit ' ' :: rest) := by
        simp [segment_text, joinSep]
      rw [htext, parse_next (reads_shell_quote w), ih (cons_ne_nil _ _), append_assoc,
        singleton_append]

theorem parse_last_words (hne : words ≠ []) (hdone : ∀ segment ∈ done, segment ≠ []) :
    (parseFrom (between done segment) (segment_text words)).bind PipelineParse.finish =
      some (done ++ [segment ++ words]) := by
  induction words generalizing segment with
  | nil => exact absurd rfl hne
  | cons w words ih =>
    cases words with
    | nil =>
      refine (parse_last (reads_shell_quote w)).trans (if_pos ?_)
      simpa using hdone
    | cons w' words =>
      have htext : segment_text (w :: w' :: words) =
          shell_quote w ++ unit ' ' :: segment_text (w' :: words) := by
        simp [segment_text, joinSep]
      rw [htext, parse_next (reads_shell_quote w), ih (cons_ne_nil _ _), append_assoc,
        singleton_append]

theorem parse_pipeline_text {segments : List (List Str)} (hne : segments ≠ [])
    (hwords : ∀ words ∈ segments, words ≠ []) (hdone : ∀ segment ∈ done, segment ≠ []) :
    (parseFrom (between done []) (pipeline_text segments)).bind PipelineParse.finish =
      some (done ++ segments) := by
  induction segments generalizing done with
  | nil => exact absurd rfl hne
  | cons words segments ih =>
    have hfirst := hwords words mem_cons_self
    cases segments with
    | nil => exact parse_last_words hfirst hdone
    | cons next segments =>
      have htext : pipeline_text (words :: next :: segments) = segment_text words ++ unit ' ' ::
          unit '|' :: unit ' ' :: pipeline_text (next :: segments) := by
        simp [pipeline_text, joinSep, units, unit]
      have hmore : ∀ segment ∈ done ++ [words], segment ≠ [] := by
        intro segment hsegment
        rcases mem_append.mp hsegment with h | h
        · exact hdone segment h
        · exact mem_singleton.mp h ▸ hfirst
      rw [htext, parse_words hfirst, nil_append, parse_bar hfirst,
        ih (cons_ne_nil _ _) (fun ws h => hwords ws (mem_cons_of_mem _ h)) hmore,
        append_assoc, singleton_append]

end Pipelines

/-- Whatever the words are, the pipeline they are quoted into is parsed back into them. -/
theorem pipeline_round_trip {segments : List (List Str)} (hne : segments ≠ [])
    (hwords : ∀ words ∈ segments, words ≠ []) :
    parse_shell_pipeline (pipeline_text segments) = some segments :=
  @parse_pipeline_text [] segments hne hwords nofun

theorem pipeline_round_trip_quotes :
    parse_shell_pipeline (units "'it'\"'\"'s' '' | 'a|b'") =
      some [[units "it's", []], [units "a|b"]] :=
  @pipeline_round_trip [[units "it's", []], [units "a|b"]] (by decide) (by decide)

/-! ## The printed commands -/

/-- A printed command: the payload piped into the interpreter `w` with the words of `t`. -/
def piped (encoded w t : Str) : Str :=
  units "printf '%s' " ++ shell_quote encoded ++ unit ' ' :: unit '|' :: unit ' ' ::
    (w ++ unit ' ' :: t)

theorem wrapper_recovery_eq (encoded : Str) (pair : Str × Str) :
    wrapper_recovery_command encoded pair =
      piped encoded (units "sh") (shell_quote pair.1 ++ unit ' ' :: pair.2) := by
  simp [wrapper_recovery_command, piped, units, unit]

theorem provider_recovery_eq (event encoded preferred : Str) :
    provider_recovery_command event encoded preferred =
      piped encoded (units "bun") (shell_quote preferred ++ unit ' ' :: (units "--runtime" ++
        unit ' ' :: (units "claude" ++ unit ' ' :: (units "--event" ++ unit ' ' :: event)))) := by
  simp [provider_recovery_command, piped, units, unit]

/-- The producer's words, up to the bar. -/
theorem parse_piped (encoded t : Str) {w : Str} (hw : w = units "bun" ∨ w = units "sh") :
    parseFrom .start (piped encoded w t) =
      parseFrom (between [[units "printf", units "%s", encoded]] [w]) t := by
  have htext : piped encoded w t = units "printf" ++ unit ' ' :: (shell_quote (units "%s") ++
      unit ' ' :: (shell_quote encoded ++ unit ' ' :: unit '|' :: unit ' ' ::
        (w ++ unit ' ' :: t))) := by
    simp [piped, units, unit, shell_quote]
  have hreads : Reads w w := by
    rcases hw with rfl | rfl <;> exact reads_plain (by decide) (by decide)
  rw [htext]
  have hprintf : Reads (units "printf") (units "printf") := reads_plain (by decide) (by decide)
  refine (@parse_next _ [] [] _ _ hprintf).trans ?_
  refine (parse_next (reads_shell_quote _)).trans ((parse_next (reads_shell_quote _)).trans ?_)
  exact (parse_bar (cons_ne_nil _ _)).trans (parse_next hreads)

theorem parse_wrapper_recovery (encoded : Str) {pair : Str × Str} (hne : pair.2 ≠ [])
    (hplain : pair.2.all isPlainUnit = true) :
    parse_shell_pipeline (wrapper_recovery_command encoded pair) =
      some [[units "printf", units "%s", encoded], [units "sh", pair.1, pair.2]] := by
  rw [wrapper_recovery_eq]
  show (parseFrom .start (piped encoded _ _)).bind PipelineParse.finish = _
  rw [parse_piped encoded _ (.inr rfl), parse_next (reads_shell_quote pair.1),
    parse_last (reads_plain hne hplain)]
  rfl

theorem parse_provider_recovery (encoded preferred : Str) {event : Str} (hne : event ≠ [])
    (hplain : event.all isPlainUnit = true) :
    parse_shell_pipeline (provider_recovery_command event encoded preferred) =
      some [[units "printf", units "%s", encoded],
        [units "bun", preferred, units "--runtime", units "claude", units "--event", event]] := by
  rw [provider_recovery_eq]
  show (parseFrom .start (piped encoded _ _)).bind PipelineParse.finish = _
  rw [parse_piped encoded _ (.inl rfl), parse_next (reads_shell_quote preferred),
    parse_next (reads_plain (w := units "--runtime") (by decide) (by decide)),
    parse_next (reads_plain (w := units "claude") (by decide) (by decide)),
    parse_next (reads_plain (w := units "--event") (by decide) (by decide)),
    parse_last (reads_plain hne hplain)]
  rfl

theorem strip_eq_self {s : Str} (hfirst : ∀ c, s.head? = some c → isSpace c = false)
    (hlast : ∀ c, s.getLast? = some c → isSpace c = false) : strip s = s := by
  show (s.dropWhile isSpace).rdropWhile isSpace = s
  have hkeep : s.dropWhile isSpace = s := by
    cases s with
    | nil => rfl
    | cons c s => exact dropWhile_cons_of_neg (by rw [hfirst c rfl]; exact Bool.false_ne_true)
  rw [hkeep, rdropWhile_eq_self_iff]
  intro hne
  rw [hlast _ (getLast?_eq_some_getLast hne)]
  exact Bool.false_ne_true

theorem strip_piped (encoded w : Str) {t word : Str} (hword : word <:+ t) (hne : word ≠ [])
    (hplain : word.all isPlainUnit = true) : strip (piped encoded w t) = piped encoded w t := by
  apply strip_eq_self
  · intro c hc
    cases hc
    rfl
  · intro c hc
    obtain ⟨s, rfl⟩ := hword
    obtain ⟨init, last, rfl⟩ := (eq_nil_or_concat' word).resolve_left hne
    have hend : piped encoded w (s ++ (init ++ [last])) = piped encoded w (s ++ init) ++ [last] := by
      simp [piped]
    rw [hend, getLast?_concat] at hc
    cases hc
    have hlast := all_eq_true.mp hplain c (by simp)
    unfold isPlainUnit at hlast
    simpa using (Bool.and_eq_true_iff.mp hlast).1

/-! ## What else the command might pass as -/

section ReadOnly

theorem splitLoop_spaces {w s : Str} (hs : s.all isSpace = true) :
    splitLoop w s = if w.isEmpty then [] else [w] := by
  induction s generalizing w with
  | nil => rfl
  | cons c s ih =>
    simp only [all_cons, Bool.and_eq_true] at hs
    rw [splitLoop, if_pos hs.1, ih hs.2]
    simp

theorem splitLoop_append_spaces {s t : Str} (ht : t.all isSpace = true) (w : Str) :
    splitLoop w (s ++ t) = splitLoop w s := by
  induction s generalizing w with
  | nil => rw [nil_append, splitLoop_spaces ht, splitLoop]
  | cons c s ih => simp only [cons_append, splitLoop, ih]

theorem splitWords_dropWhile (s : Str) : splitWords (s.dropWhile isSpace) = splitWords s := by
  induction s with
  | nil => rfl
  | cons c s ih =>
    by_cases hc : isSpace c = true
    · rw [dropWhile_cons_of_pos hc, ih]
      simp [splitWords, splitLoop, hc]
    · rw [dropWhile_cons_of_neg hc]

/-- `text.strip().split()` is `text.split()`. -/
theorem splitWords_strip (s : Str) : splitWords (strip s) = splitWords s := by
  rw [← splitWords_dropWhile s]
  show splitWords ((s.dropWhile isSpace).rdropWhile isSpace) = _
  induction s.dropWhile isSpace using List.reverseRecOn with
  | nil => rfl
  | append_singleton t c ih =>
    rw [rdropWhile_concat]
    split
    · rename_i hc
      rw [ih]
      exact (splitLoop_append_spaces (by simp [hc]) []).symm
    · rfl

theorem splitChain_ne_nil (s : Str) : splitChain s ≠ [] := by
  fun_induction splitChain s with
  | case1 | case2 | case3 => exact cons_ne_nil _ _
  | case4 | case5 => exact cons_ne_nil _ _
  | case6 c d rest _ _ ih =>
    cases h : splitChain (d :: rest) with
    | nil => exact absurd h ih
    | cons segment segments => exact cons_ne_nil _ _

theorem splitChain_cons_other {c : UInt16} (hc : (units ";|&").contains c = false) (s : Str) :
    splitChain (c :: s) = prependUnit c (splitChain s) := by
  have hne : ¬(c = unit '|' ∨ c = unit '&') := by
    rintro (rfl | rfl) <;> exact absurd hc (by decide)
  cases s with
  | nil => exact if_neg (by rw [hc]; exact Bool.false_ne_true)
  | cons d s => rw [splitChain, if_neg (fun h => hne h.2), hc]; rfl

/-- A bar between spaces is a separator, whatever stands before it. -/
theorem splitChain_bar : ∀ s t : Str, ∃ segment segments,
    splitChain (s ++ unit ' ' :: unit '|' :: unit ' ' :: t) =
      segment :: segments ++ splitChain (unit ' ' :: t)
  | [], t => ⟨[unit ' '], [], rfl⟩
  | [c], t => by
    have hbar : splitChain (unit ' ' :: unit '|' :: unit ' ' :: t) =
        [unit ' '] :: splitChain (unit ' ' :: t) := rfl
    cases hc : (units ";|&").contains c with
    | false =>
      refine ⟨[c, unit ' '], [], ?_⟩
      rw [singleton_append, splitChain_cons_other hc, hbar]
      rfl
    | true =>
      refine ⟨[], [[unit ' ']], ?_⟩
      have hne : ¬(c = unit ' ' ∧ (c = unit '|' ∨ c = unit '&')) := by
        rintro ⟨rfl, h⟩
        exact absurd h (by decide)
      rw [singleton_append, splitChain, if_neg hne, if_pos hc, hbar]
      rfl
  | c :: d :: s, t => by
    obtain ⟨segment, segments, h⟩ := splitChain_bar s t
    obtain ⟨segment', segments', h'⟩ := splitChain_bar (d :: s) t
    simp only [cons_append, splitChain] at h h' ⊢
    split
    · exact ⟨[], segment :: segments, by rw [h]; rfl⟩
    split
    · exact ⟨[], segment' :: segments', by rw [h']; rfl⟩
    · exact ⟨c :: segment', segments', by rw [h']; rfl⟩

/-- A text without separators stands at the front of the first segment. -/
theorem splitChain_free {w : Str} (hw : w.all (fun c => !(units ";|&").contains c) = true)
    (s : Str) : ∃ segment segments, splitChain (w ++ s) = (w ++ segment) :: segments := by
  induction w with
  | nil => exact exists_cons_of_ne_nil (splitChain_ne_nil s) |>.imp fun _ => id
  | cons c w ih =>
    simp only [all_cons, Bool.and_eq_true, Bool.not_eq_true'] at hw
    obtain ⟨segment, segments, h⟩ := ih hw.2
    exact ⟨segment, segments, by rw [cons_append, splitChain_cons_other hw.1, h]; rfl⟩

theorem not_read_only {command segment : Str} (hmem : segment ∈ splitChain command)
    (hne : splitWords segment ≠ [])
    (hseg : ∀ s, splitWords s = splitWords segment → is_read_only_segment s = false) :
    is_read_only_bash command = false := by
  have hstrip := splitWords_strip segment
  have hkept : strip segment ∈ ((splitChain command).map strip).filter fun s => !s.isEmpty := by
    refine mem_filter.mpr ⟨mem_map_of_mem hmem, ?_⟩
    cases h : strip segment with
    | nil => rw [h] at hstrip; exact absurd hstrip.symm hne
    | cons c s => rfl
  unfold is_read_only_bash
  split
  · rfl
  · dsimp only
    rw [Bool.and_eq_false_iff]
    exact .inr (all_eq_false.mpr ⟨_, hkept, by rw [hseg _ hstrip]; decide⟩)

theorem not_read_only_segment {s head : Str} {words : List Str} (hs : splitWords s = head :: words)
    (hgit : head ≠ units "git") (hhead : READONLY_BASH.contains head = false) :
    is_read_only_segment s = false := by
  unfold is_read_only_segment
  rw [hs]
  dsimp only
  rw [if_neg hgit, hhead]
  rfl

/-- What follows the bar of a printed command starts with its interpreter. -/
theorem not_read_only_piped (encoded t : Str) {w : Str} (hw : w = units "bun" ∨ w = units "sh") :
    is_read_only_bash (piped encoded w t) = false := by
  obtain ⟨first, firsts, hsplit⟩ :=
    splitChain_bar (units "printf '%s' " ++ shell_quote encoded) (w ++ unit ' ' :: t)
  obtain ⟨segment, segments, hfree⟩ := splitChain_free (w := unit ' ' :: w ++ [unit ' '])
    (by rcases hw with rfl | rfl <;> decide) t
  have hmem : unit ' ' :: w ++ [unit ' '] ++ segment ∈ splitChain (piped encoded w t) := by
    rw [piped, hsplit,
      show unit ' ' :: (w ++ unit ' ' :: t) = unit ' ' :: w ++ [unit ' '] ++ t by simp, hfree]
    simp
  have hwords : splitWords (unit ' ' :: w ++ [unit ' '] ++ segment) = w :: splitWords segment := by
    rcases hw with rfl | rfl <;> rfl
  refine not_read_only hmem (by rw [hwords]; exact cons_ne_nil _ _) fun u hu => ?_
  rw [hwords] at hu
  rcases hw with rfl | rfl
  · exact not_read_only_segment hu (by decide) (by decide)
  · exact not_read_only_segment hu (by decide) (by decide)

end ReadOnly

section Maintenance

theorem not_maintenance {command : Str} (h : unit '|' ∈ command) (script_name event : Str) :
    is_maintenance_command command script_name event = false := by
  have hchains : chains command = true := by
    unfold chains
    rw [Bool.or_eq_true]
    exact .inl (any_eq_true.mpr ⟨_, h, by decide⟩)
  unfold is_maintenance_command
  rw [hchains]
  rfl

theorem not_gate_repair {command : Str} {producer segment : List Str}
    (h : parse_shell_pipeline command = some [producer, segment]) (event path : Str) :
    is_gate_repair_command command event path = false := by
  unfold is_gate_repair_command
  rw [h]
  cases producer <;> rfl

end Maintenance

/-! ## The command the gate wants -/

section Provider

variable {context : ShellGateContext}

theorem activated_long {disk : Disk} {path : Str}
    (h : path ∈ activated_provider_script_paths disk) : 22 ≤ path.length := by
  obtain ⟨group, rfl⟩ := activated_script h
  rw [length_append, show (units "/ob-memory-provider.ts").length = 22 from rfl]
  omega

theorem parse_printed_flags {event : Str} (h : event ∈ PROVIDER_EVENTS) :
    parse_provider_flags [units "--runtime", units "claude", units "--event", event] =
      some event := by
  have hne : ∀ event ∈ PROVIDER_EVENTS,
      parse_provider_flags [units "--runtime", units "claude", units "--event", event] =
        some event := by decide
  exact hne event h

/-- The printed provider invocation is recognised unless its path is taken for `bun run`. -/
theorem parse_printed_provider {path event : Str} (hevent : event ∈ PROVIDER_EVENTS)
    (hpath : path = context.provider_script_path ∨
      path ∈ activated_provider_script_paths context.disk) :
    parse_provider_invocation
        [units "bun", path, units "--runtime", units "claude", units "--event", event] context =
      if path = units "run" then none else some event := by
  have hwrapper : parse_wrapper_invocation
      [units "bun", path, units "--runtime", units "claude", units "--event", event] context =
      none := rfl
  unfold parse_provider_invocation
  rw [hwrapper]
  dsimp only
  rw [if_neg (by decide), skipRun]
  by_cases hrun : path = units "run"
  · -- the words left start with the flag, which is no path the gate accepts
    rw [if_pos hrun, if_pos hrun]
    have hflag : units "--runtime" ≠ context.provider_script_path := by
      rcases hpath with h | h
      · rw [← h, hrun]
        decide
      · exact absurd (activated_long h) (by rw [hrun]; decide)
    have hactivated : ¬units "--runtime" ∈ activated_provider_script_paths context.disk :=
      fun h => absurd (activated_long h) (by decide)
    exact if_pos ⟨hflag, by simpa using hactivated⟩
  · rw [if_neg hrun, if_neg hrun]
    dsimp only
    rw [if_neg, parse_printed_flags hevent]
    rintro ⟨hne, hnot⟩
    rcases hpath with h | h
    · exact hne h
    · rw [contains_iff_mem.mpr h] at hnot
      cases hnot

theorem parse_printed_wrapper {pair : Str × Str}
    (hpair : pair ∈ wrapper_console_invocations context.disk) :
    parse_provider_invocation [units "sh", pair.1, pair.2] context =
      WRAPPER_CONSOLE_EVENTS.lookup pair.2 := by
  have hwrapper : parse_wrapper_invocation [units "sh", pair.1, pair.2] context =
      WRAPPER_CONSOLE_EVENTS.lookup pair.2 := if_pos (contains_iff_mem.mpr hpair)
  obtain ⟨event, hevent⟩ := Option.isSome_iff_exists.mp (wrapper_console hpair)
  unfold parse_provider_invocation
  rw [hwrapper, hevent]

/-- Nothing but the provider rule can accept a printed command. -/
theorem checkpoint_piped {resolve : Str → Option Str} {encoded t w : Str}
    {producer segment : List Str} (hw : w = units "bun" ∨ w = units "sh")
    (hparse : parse_shell_pipeline (piped encoded w t) = some [producer, segment])
    (hstrip : strip (piped encoded w t) = piped encoded w t) :
    is_checkpoint_command resolve (piped encoded w t) context =
      match parse_provider_invocation segment context with
      | none => false
      | some event =>
        (provider_events_allowed_by_state context.state).contains event &&
          valid_provider_payload resolve producer event context.state := by
  have hbar : unit '|' ∈ piped encoded w t := by simp [piped]
  unfold is_checkpoint_command
  rw [hstrip]
  dsimp only
  rw [not_maintenance hbar, not_maintenance hbar, not_gate_repair hparse, not_gate_repair hparse,
    not_read_only_piped encoded t hw, Bool.or_false, Bool.or_false, Bool.or_false, Bool.or_false,
    Bool.or_false]
  unfold is_direct_provider_command
  cases hinv : parse_provider_invocation segment context <;> simp only [hparse, hinv]

end Provider

end OpenBrain.Provider.Gate
