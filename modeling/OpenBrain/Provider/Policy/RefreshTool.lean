import OpenBrain.Provider.Gate.PrintedCommand
import OpenBrain.Provider.Guard.ShellLexer
import Mathlib.Data.List.Infix

/-!
# The refresh a stale session may run (`openbrain_provider/policy_refresh_gate.py`)

A stale session is blocked until its policy is refreshed, and the one shell command that passes is
recognised by three patterns on its text. `accepts_iff` says on the words of the text what they
find, and `refresh_allowance` when that is a single refresh as the shell lexer reads it, and which
printed commands pass.
-/
namespace OpenBrain.Provider.Policy
open OpenBrain.Core OpenBrain.Core.Py OpenBrain.Provider.Guard
open OpenBrain.Provider.Gate (splitWords splitLoop splitWords_strip splitWords_dropWhile)

/-! ## The patterns -/

/-- mirrors policy_safety.py:47-49 -/
def SHELL_TOOLS : List Str :=
  ["bash", "shell", "exec_command", "functions.exec_command"].map units

/-- `name.lower()`, as far as the names of the tools go: they are ASCII, and none has the one
letter that another capital than ASCII's becomes. -/
def lower (name : Str) : Str :=
  name.map fun u => if unit 'A' ≤ u ∧ u ≤ unit 'Z' then u + 0x20 else u

/-- A match of `\s` and a pattern behind it. -/
def searchBehind (m : Matcher UInt16) : Str → Bool
  | [] => false
  | u :: rest => (isSpace u && !(m rest).isEmpty) || searchBehind m rest

/-- `re.search` of `(?:^|\s)` and a pattern behind it. -/
def searchWord (m : Matcher UInt16) (text : Str) : Bool := !(m text).isEmpty || searchBehind m text

/-- `(?:\s|$)` -/
def spaceOrEnd : Matcher UInt16
  | [] => [[]]
  | u :: s => if isSpace u then [s] else []

/-- mirrors policy_refresh_gate.py:76 -/
def REFRESH_SHELL_UNSAFE : Str := units ";&|$<>" ++ [unit '\x60']

/-- Behind `(?:^|\s)`; `decimal` is the `\d` of the timeout. mirrors policy_refresh_gate.py:77 -/
def REFRESH_BUN (decimal : UInt16 → Bool) : Matcher UInt16 :=
  .seq (.opt (.all [.lit (units "timeout "), .many1 decimal, .many1 isSpace]))
    (.all [.lit (units "bun"), .many1 isSpace])

/-- Behind `(?:^|\s)`. mirrors policy_refresh_gate.py:78-80 -/
def REFRESH_EVENT : Matcher UInt16 :=
  .all [.lit (units "--event"), .many1 isSpace, .lit (units "refresh"), spaceOrEnd]

def REFRESH_SCRIPT : Str := units "policy-refresh-gate.ts"

/-! ## The tool -/

section Tool
variable (repr : PyJson → Str) (decimal : UInt16 → Bool)

/-- `str(value)`; `repr` is that of a value that is no string. -/
def str : PyJson → Str
  | .str s => s
  | value => repr value

/-- The first argument of a command's names that is there. mirrors policy_refresh_gate.py:252-258 -/
def command_of (tool_input : Items) : Option Str :=
  (["command", "cmd", "cmdline"].map units).findSome? fun key =>
    if truthy (Members.get? tool_input key) then (Members.get? tool_input key).map (str repr)
    else none

/-- `re.sub(r"\s+", " ", text)` -/
def collapse : Str → Str
  | [] => []
  | u :: s => if isSpace u then unit ' ' :: collapse (s.dropWhile isSpace) else u :: collapse s
termination_by s => s.length
decreasing_by
  · have := (List.dropWhile_suffix (l := s) isSpace).length_le
    rw [List.length_cons]
    omega
  · simp

/-- mirrors policy_refresh_gate.py:238-269 -/
def is_policy_refresh_tool (name : Str) (tool_input : Items) : Bool :=
  if lower name ∉ SHELL_TOOLS then false
  else
    match command_of repr tool_input with
    | none => false
    | some command =>
      let normalized := collapse (strip command)
      if normalized = [] ∨ 0x0A ∈ normalized then false
      else if normalized.any REFRESH_SHELL_UNSAFE.contains then false
      else
        searchWord (REFRESH_BUN decimal) normalized && decide (REFRESH_SCRIPT <:+: normalized) &&
          searchWord REFRESH_EVENT normalized

end Tool

/-! ## The printed command -/

/-- mirrors policy_refresh_gate.py:384-387 -/
def shell_quoted (value : Str) : Str :=
  unit '\'' :: (value.flatMap fun c => if c = unit '\'' then units "'\\''" else [c]) ++ [unit '\'']

/-- The override of the environment, or the usual place. mirrors policy_refresh_gate.py:397-399 -/
def gate_script (environment : Str) : Str :=
  if strip environment = [] then units "/srv/dev/_ob/scripts/policy-refresh-gate.ts"
  else strip environment

/-- mirrors policy_refresh_gate.py:400-404 -/
def refresh_command (environment agent session_id : Str) : Str :=
  units "bun " ++ gate_script environment ++ units " --event refresh --agent " ++ agent ++
    units " --session-id " ++ shell_quoted session_id

/-- mirrors policy_refresh_gate.py:390-416 -/
def stale_block_reason (reason environment agent session_id : Str) : Str :=
  joinSep [0x0A]
    [units "Policy refresh is required before risky task action.",
      units "Reason: " ++ (if reason = [] then units "refresh marked stale" else reason) ++
        units ".",
      [],
      units "Before continuing, reread the active router and triggered SOPs, then run:",
      refresh_command environment agent session_id,
      [],
      units ("Refresh must restate Pony style, critical mode, source-of-truth order, " ++
        "and the next concrete action.")]

/-! ## Words and their text -/

theorem infix_append_cons {α : Type} {x a b : List α} {u : α} (hu : u ∉ x) :
    x <:+: a ++ u :: b ↔ x <:+: a ∨ x <:+: b := by
  constructor
  · rintro ⟨s, t, h⟩
    rcases List.append_eq_append_iff.mp h with ⟨c, ha, -⟩ | ⟨c, hsx, hb⟩
    · exact .inl ⟨s, c, ha.symm⟩
    · cases c with
      | nil => exact .inl ⟨s, [], by simpa using hsx⟩
      | cons v c =>
        obtain ⟨rfl, rfl⟩ := List.cons.inj hb
        rcases List.append_eq_append_iff.mp hsx with ⟨d, rfl, hx'⟩ | ⟨d, rfl, hx'⟩
        · exact absurd (hx' ▸ List.mem_append_right d List.mem_cons_self) hu
        · cases d with
          | nil =>
            rw [List.nil_append] at hx'
            exact absurd (hx' ▸ List.mem_cons_self) hu
          | cons w d =>
            obtain ⟨rfl, rfl⟩ := List.cons.inj hx'
            exact .inr ⟨d, t, rfl⟩
  · rintro (h | h)
    · exact h.trans (List.prefix_append a _).isInfix
    · exact h.trans ((List.suffix_cons u b).trans (List.suffix_append a _)).isInfix

/-- Words as `str.split` gives them. -/
def IsWord (w : Str) : Prop := w ≠ [] ∧ ∀ u ∈ w, isSpace u = false

theorem isWord_splitLoop {w s : Str} (hw : ∀ u ∈ w, isSpace u = false) :
    ∀ v ∈ splitLoop w s, IsWord v := by
  have hend : ∀ v ∈ (if w.isEmpty then [] else [w]), IsWord v := by
    intro v hv
    split at hv
    · cases hv
    · rename_i hne
      rw [List.mem_singleton.mp hv]
      exact ⟨by simpa using hne, hw⟩
  induction s generalizing w with
  | nil => exact hend
  | cons u s ih =>
    intro v hv
    rw [splitLoop] at hv
    split at hv
    · rcases List.mem_append.mp hv with hv | hv
      · exact hend v hv
      · exact ih (by simp) (by simp) v hv
    · rename_i hu
      have hw' : ∀ c ∈ w ++ [u], isSpace c = false := by
        intro c hc
        rcases List.mem_append.mp hc with hc | hc
        · exact hw c hc
        · rw [List.mem_singleton.mp hc]
          simpa using hu
      exact ih hw' (by simpa using ⟨by simp, hw'⟩) v hv

theorem isWord_splitWords (s : Str) : ∀ w ∈ splitWords s, IsWord w := isWord_splitLoop (by simp)

theorem splitLoop_append_cons {u : UInt16} (hu : isSpace u = true) (w s t : Str) :
    splitLoop w (s ++ u :: t) = splitLoop w s ++ splitWords t := by
  induction s generalizing w with
  | nil => simp [splitLoop, hu, splitWords]
  | cons c s ih =>
    rw [List.cons_append, splitLoop, splitLoop]
    split
    · rw [ih, List.append_assoc]
    · exact ih _

theorem splitWords_append_cons {u : UInt16} (hu : isSpace u = true) (s t : Str) :
    splitWords (s ++ u :: t) = splitWords s ++ splitWords t := splitLoop_append_cons hu [] s t

theorem splitWords_word {w : Str} (h : IsWord w) : splitWords w = [w] := by
  have hloop : ∀ v t : Str, (∀ u ∈ t, isSpace u = false) →
      splitLoop v t = if (v ++ t).isEmpty then [] else [v ++ t] := by
    intro v t ht
    induction t generalizing v with
    | nil => rw [splitLoop, List.append_nil]
    | cons u t ih =>
      rw [splitLoop, if_neg (by simp [ht u List.mem_cons_self]),
        ih (v ++ [u]) fun c hc => ht c (List.mem_cons_of_mem _ hc)]
      simp
  rw [splitWords, hloop [] w h.2, List.nil_append, if_neg (by simpa using h.1)]

/-- Words with single spaces between them. -/
def joinWords (words : List Str) : Str := joinSep [unit ' '] words

theorem joinWords_cons {words : List Str} (h : words ≠ []) (w : Str) :
    joinWords (w :: words) = w ++ unit ' ' :: joinWords words := by
  cases words with
  | nil => exact absurd rfl h
  | cons v words => simp [joinWords, joinSep]

theorem collapse_ne_nil (u : UInt16) (s : Str) : collapse (u :: s) ≠ [] := by
  rw [collapse]
  split <;> exact List.cons_ne_nil _ _

theorem collapse_loop {s : Str} (hlast : ∀ u, s.getLast? = some u → isSpace u = false) (w : Str)
    (hfirst : w ≠ [] ∨ ∀ u, s.head? = some u → isSpace u = false) :
    w ++ collapse s = joinWords (splitLoop w s) := by
  fun_induction collapse s generalizing w with
  | case1 => cases w <;> simp [splitLoop, joinWords, joinSep]
  | case2 u s hu ih =>
    have hw : w ≠ [] := by
      rcases hfirst with hw | hfirst
      · exact hw
      · rw [hfirst u rfl] at hu
        cases hu
    cases ht : s.dropWhile isSpace with
    | nil =>
      -- nothing but spaces: the last of them is one
      have hall := List.dropWhile_eq_nil_iff.mp ht
      have hspace : ∀ v ∈ u :: s, isSpace v = true := by
        simpa [hu] using hall
      have hsome := List.getLast?_eq_some_getLast (List.cons_ne_nil u s)
      have := hlast _ hsome
      rw [hspace _ (List.getLast_mem (List.cons_ne_nil u s))] at this
      cases this
    | cons v t =>
      have hv : isSpace v = false := by
        have := List.head?_dropWhile_not isSpace s
        rw [ht] at this
        simpa using this
      have hsuffix : v :: t <:+ u :: s := ht ▸ (List.dropWhile_suffix _).trans (List.suffix_cons u s)
      rw [ht] at ih
      have ih := ih (fun c hc => hlast c (by
        obtain ⟨front, hfront⟩ := hsuffix
        rw [← hfront, List.getLast?_append, hc]
        rfl)) [] (.inr (by simpa using hv))
      have hrest : splitLoop [] s = splitLoop [] (v :: t) := by
        rw [← ht]
        exact (splitWords_dropWhile s).symm
      have hne : splitLoop [] (v :: t) ≠ [] := by
        intro hnil
        rw [hnil] at ih
        exact collapse_ne_nil v t ih
      rw [splitLoop, if_pos hu, if_neg (by simpa using hw), hrest, List.singleton_append,
        joinWords_cons hne, ← ih]
      rfl
  | case3 u s hu ih =>
    have hlast' : ∀ c, s.getLast? = some c → isSpace c = false := by
      intro c hc
      apply hlast c
      rw [List.getLast?_cons, hc]
      rfl
    rw [splitLoop, if_neg hu, ← ih hlast' (w ++ [u]) (.inl (by simp))]
    simp

theorem collapse_strip (s : Str) : collapse (strip s) = joinWords (splitWords s) := by
  have hlast : ∀ u, (strip s).getLast? = some u → isSpace u = false := by
    intro u hu
    have hne : strip s ≠ [] := by
      intro hnil
      rw [hnil] at hu
      cases hu
    have := List.rdropWhile_last_not isSpace (s.dropWhile isSpace) hne
    rw [List.getLast?_eq_some_getLast hne] at hu
    cases hu
    exact Bool.eq_false_iff.mpr this
  have hfirst : ∀ u, (strip s).head? = some u → isSpace u = false := by
    intro u hu
    have hfront := List.head?_dropWhile_not isSpace s
    obtain ⟨t, ht⟩ := List.rdropWhile_prefix isSpace (l := s.dropWhile isSpace)
    have hhead : (s.dropWhile isSpace).head? = some u := by
      rw [← ht, List.head?_append]
      exact congrArg (Option.or · _) hu
    rw [hhead] at hfront
    simpa using hfront
  rw [← splitWords_strip s]
  exact collapse_loop hlast [] (.inr hfirst)

section Infix
variable {x : Str}

theorem infix_splitLoop (hx : IsWord x) (w s : Str) (hw : ∀ u ∈ w, isSpace u = false) :
    x <:+: w ++ s ↔ ∃ v ∈ splitLoop w s, x <:+: v := by
  induction s generalizing w with
  | nil =>
    rw [List.append_nil, splitLoop]
    split
    · rename_i hempty
      rw [List.isEmpty_iff] at hempty
      subst hempty
      simp [hx.1]
    · simp
  | cons u s ih =>
    rw [splitLoop]
    split
    · rename_i hu
      have hux : u ∉ x := by
        intro hmem
        rw [hx.2 u hmem] at hu
        cases hu
      rw [infix_append_cons hux, ← List.nil_append s, ih [] (by simp), List.nil_append]
      by_cases hempty : w = []
      · subst hempty
        simp [hx.1]
      · simp [hempty]
    · rename_i hu
      rw [← ih (w ++ [u]) (by
        intro c hc
        rcases List.mem_append.mp hc with hc | hc
        · exact hw c hc
        · rw [List.mem_singleton.mp hc]
          simpa using hu)]
      simp

/-- A text without spaces stands in a text when it stands in one of its words. -/
theorem infix_words (hx : IsWord x) (s : Str) :
    x <:+: s ↔ ∃ w ∈ splitWords s, x <:+: w := infix_splitLoop hx [] s (by simp)

theorem infix_joinWords (hx : IsWord x) (words : List Str) :
    x <:+: joinWords words ↔ ∃ w ∈ words, x <:+: w := by
  have hspace : unit ' ' ∉ x := fun hmem => by
    have := hx.2 _ hmem
    revert this
    decide
  induction words with
  | nil => simp [joinWords, joinSep, hx.1]
  | cons w words ih =>
    by_cases hne : words = []
    · subst hne
      simp [joinWords, joinSep]
    · rw [joinWords_cons hne, infix_append_cons hspace]
      simp [ih]

end Infix

/-! ## What the patterns find -/

section Search
variable {m : Matcher UInt16}

theorem searchBehind_free {w : Str} (hw : ∀ u ∈ w, isSpace u = false) (t : Str) :
    searchBehind m (w ++ t) = searchBehind m t := by
  induction w with
  | nil => rfl
  | cons u w ih =>
    rw [List.cons_append, searchBehind, hw u List.mem_cons_self, Bool.false_and, Bool.false_or]
    exact ih fun v hv => hw v (List.mem_cons_of_mem _ hv)

theorem searchWord_cons {w : Str} {words : List Str} (hw : IsWord w) (hne : words ≠ []) :
    searchWord m (joinWords (w :: words)) =
      (!(m (joinWords (w :: words))).isEmpty || searchWord m (joinWords words)) := by
  have hspace : isSpace (unit ' ') = true := by decide
  rw [searchWord, joinWords_cons hne, searchBehind_free hw.2, searchBehind, hspace, Bool.true_and,
    searchWord]

theorem searchWord_join {words : List Str} (hwords : ∀ w ∈ words, IsWord w) (hne : words ≠ []) :
    searchWord m (joinWords words) = true ↔
      ∃ rest, rest ≠ [] ∧ rest <:+ words ∧ m (joinWords rest) ≠ [] := by
  induction words with
  | nil => exact absurd rfl hne
  | cons w words ih =>
    have hw := hwords w List.mem_cons_self
    by_cases hlast : words = []
    · subst hlast
      have hbehind : searchBehind m (joinWords [w]) = false := by
        have := searchBehind_free (m := m) hw.2 []
        rwa [List.append_nil] at this
      rw [searchWord, hbehind, Bool.or_false]
      constructor
      · intro h
        exact ⟨[w], List.cons_ne_nil _ _, List.suffix_refl _, by simpa using h⟩
      · rintro ⟨rest, hrest, hsuffix, hm⟩
        rcases List.suffix_cons_iff.mp hsuffix with rfl | hnil
        · simpa using hm
        · exact absurd (List.suffix_nil.mp hnil) hrest
    · rw [searchWord_cons hw hlast, Bool.or_eq_true,
        ih (fun v hv => hwords v (List.mem_cons_of_mem _ hv)) hlast]
      constructor
      · rintro (h | ⟨rest, hrest, hsuffix, hm⟩)
        · exact ⟨w :: words, List.cons_ne_nil _ _, List.suffix_refl _, by simpa using h⟩
        · exact ⟨rest, hrest, hsuffix.trans (List.suffix_cons _ _), hm⟩
      · rintro ⟨rest, hrest, hsuffix, hm⟩
        rcases List.suffix_cons_iff.mp hsuffix with rfl | hsuffix
        · exact .inl (by simpa using hm)
        · exact .inr ⟨rest, hrest, hsuffix, hm⟩

theorem searchBehind_intro {u : UInt16} (hu : isSpace u = true) {rest : Str} (hm : m rest ≠ [])
    (front : Str) : searchBehind m (front ++ u :: rest) = true := by
  induction front with
  | nil => simp [searchBehind, hu, hm]
  | cons c front ih => rw [List.cons_append, searchBehind, ih, Bool.or_true]

end Search

/-! ### Words at the front -/

theorem split_unique {w v t t' : Str} (hw : ∀ u ∈ w, isSpace u = false)
    (hv : ∀ u ∈ v, isSpace u = false) (ht : ∀ u, t.head? = some u → isSpace u = true)
    (ht' : ∀ u, t'.head? = some u → isSpace u = true) (h : w ++ t = v ++ t') :
    w = v ∧ t = t' := by
  induction w generalizing v with
  | nil =>
    cases v with
    | nil => exact ⟨rfl, h⟩
    | cons c v =>
      rw [List.nil_append] at h
      have := ht c (by rw [h]; rfl)
      rw [hv c List.mem_cons_self] at this
      cases this
  | cons u w ih =>
    cases v with
    | nil =>
      rw [List.nil_append] at h
      have := ht' u (by rw [← h]; rfl)
      rw [hw u List.mem_cons_self] at this
      cases this
    | cons c v =>
      obtain ⟨rfl, hrest⟩ := List.cons.inj h
      obtain ⟨rfl, rfl⟩ := ih (fun c hc => hw c (List.mem_cons_of_mem _ hc))
        (fun c hc => hv c (List.mem_cons_of_mem _ hc)) hrest
      exact ⟨rfl, rfl⟩

theorem joinWords_split {words : List Str} (hwords : ∀ w ∈ words, IsWord w) {v t : Str}
    (hv : IsWord v) (ht : ∀ u, t.head? = some u → isSpace u = true)
    (h : joinWords words = v ++ t) :
    ∃ rest, words = v :: rest ∧
      ((rest = [] ∧ t = []) ∨ rest ≠ [] ∧ t = unit ' ' :: joinWords rest) := by
  cases words with
  | nil =>
    rw [joinWords, joinSep] at h
    exact absurd (List.append_eq_nil_iff.mp h.symm).1 hv.1
  | cons w rest =>
    have hw := (hwords w List.mem_cons_self).2
    by_cases hrest : rest = []
    · subst hrest
      obtain ⟨rfl, rfl⟩ := split_unique (t := []) hw hv.2 (by simp) ht (by
        rw [List.append_nil]
        exact h)
      exact ⟨[], rfl, .inl ⟨rfl, rfl⟩⟩
    · rw [joinWords_cons hrest] at h
      obtain ⟨rfl, rfl⟩ := split_unique hw hv.2 (by simp; decide) ht h
      exact ⟨rest, rfl, .inr ⟨hrest, rfl⟩⟩

theorem joinWords_head {words : List Str} (hwords : ∀ w ∈ words, IsWord w) :
    ∀ u, (joinWords words).head? = some u → isSpace u = false := by
  intro u hu
  cases words with
  | nil => cases hu
  | cons w words =>
    obtain ⟨hne, hw⟩ := hwords w List.mem_cons_self
    obtain ⟨c, w, rfl⟩ := List.exists_cons_of_ne_nil hne
    have hhead : (joinWords ((c :: w) :: words)).head? = some c := by
      cases words <;> rfl
    rw [hhead, Option.some.injEq] at hu
    rw [← hu]
    exact hw c List.mem_cons_self

section Patterns
variable {words : List Str}

theorem head_spaces {w r : Str} (hne : w ≠ []) (hw : ∀ u ∈ w, isSpace u = true) :
    ∀ u, (w ++ r).head? = some u → isSpace u = true := by
  obtain ⟨c, w, rfl⟩ := List.exists_cons_of_ne_nil hne
  intro u hu
  cases hu
  exact hw c List.mem_cons_self

/-- `bun\s+` -/
def bunPattern : Matcher UInt16 := .all [.lit (units "bun"), .many1 isSpace]

theorem mem_bunPattern {s r : Str} : r ∈ bunPattern s ↔
    ∃ w, s = units "bun" ++ (w ++ r) ∧ w ≠ [] ∧ ∀ u ∈ w, isSpace u = true := by
  simp only [bunPattern, Matcher.all, List.foldr_cons, List.foldr_nil, Matcher.mem_seq,
    Matcher.mem_lit, Matcher.mem_many1, List.mem_singleton]
  constructor
  · rintro ⟨t, rfl, t', ⟨w, rfl, hne, hw⟩, rfl⟩
    exact ⟨w, rfl, hne, hw⟩
  · rintro ⟨w, rfl, hne, hw⟩
    exact ⟨_, rfl, r, ⟨w, rfl, hne, hw⟩, rfl⟩

theorem bunPattern_words (hwords : ∀ w ∈ words, IsWord w) :
    bunPattern (joinWords words) ≠ [] ↔ ∃ rest, words = units "bun" :: rest ∧ rest ≠ [] := by
  have hbun : IsWord (units "bun") := ⟨by decide, by decide⟩
  constructor
  · intro h
    obtain ⟨r, hr⟩ := List.exists_mem_of_ne_nil _ h
    obtain ⟨w, heq, hne, hw⟩ := mem_bunPattern.mp hr
    obtain ⟨rest, hrest, hend⟩ := joinWords_split hwords hbun (head_spaces hne hw) heq
    refine ⟨rest, hrest, ?_⟩
    rcases hend with ⟨-, hnil⟩ | ⟨hrest, -⟩
    · exact absurd (List.append_eq_nil_iff.mp hnil).1 hne
    · exact hrest
  · rintro ⟨rest, rfl, hrest⟩
    refine List.ne_nil_of_mem (a := joinWords rest) (mem_bunPattern.mpr ⟨[unit ' '], ?_, by simp,
      by decide⟩)
    rw [joinWords_cons hrest]
    rfl

/-- The timeout in front of `bun` ends in a space, behind which `bun` is found without it. -/
theorem bun_without_timeout {decimal : UInt16 → Bool} {s : Str} (h : REFRESH_BUN decimal s ≠ []) :
    bunPattern s ≠ [] ∨
      ∃ front u rest, s = front ++ u :: rest ∧ isSpace u = true ∧ bunPattern rest ≠ [] := by
  obtain ⟨r, hr⟩ := List.exists_mem_of_ne_nil _ h
  obtain ⟨t, ht, hbun⟩ := Matcher.mem_seq.mp hr
  rcases Matcher.mem_opt.mp ht with ht | rfl
  · right
    simp only [Matcher.all, List.foldr_cons, List.foldr_nil, Matcher.mem_seq, Matcher.mem_lit,
      Matcher.mem_many1, List.mem_singleton] at ht
    obtain ⟨_, rfl, _, ⟨digits, rfl, -, -⟩, _, ⟨w, rfl, hne, hw⟩, rfl⟩ := ht
    obtain ⟨w, u, rfl⟩ := (List.eq_nil_or_concat' w).resolve_left hne
    refine ⟨units "timeout " ++ (digits ++ w), u, t, by simp, hw u (by simp), ?_⟩
    exact List.ne_nil_of_mem hbun
  · exact .inl (List.ne_nil_of_mem hbun)

theorem search_bun (decimal : UInt16 → Bool) (text : Str) :
    searchWord (REFRESH_BUN decimal) text = true ↔ searchWord bunPattern text = true := by
  have hskip : ∀ s, bunPattern s ≠ [] → REFRESH_BUN decimal s ≠ [] := by
    intro s h
    obtain ⟨r, hr⟩ := List.exists_mem_of_ne_nil _ h
    exact List.ne_nil_of_mem (Matcher.mem_seq.mpr ⟨s, Matcher.mem_opt.mpr (.inr rfl), hr⟩)
  have hbehind : searchBehind (REFRESH_BUN decimal) text = true ↔
      searchBehind bunPattern text = true := by
    induction text with
    | nil => rfl
    | cons u s ih =>
      simp only [searchBehind, Bool.or_eq_true, Bool.and_eq_true, Bool.not_eq_true',
        List.isEmpty_eq_false_iff]
      constructor
      · rintro (⟨hu, h⟩ | h)
        · rcases bun_without_timeout h with h | ⟨front, c, rest, rfl, hc, h⟩
          · exact .inl ⟨hu, h⟩
          · exact .inr (searchBehind_intro hc h front)
        · exact .inr (ih.mp h)
      · rintro (⟨hu, h⟩ | h)
        · exact .inl ⟨hu, hskip s h⟩
        · exact .inr (ih.mpr h)
  simp only [searchWord, Bool.or_eq_true, Bool.not_eq_true', List.isEmpty_eq_false_iff, hbehind]
  constructor
  · rintro (h | h)
    · rcases bun_without_timeout h with h | ⟨front, c, rest, rfl, hc, h⟩
      · exact .inl h
      · exact .inr (searchBehind_intro hc h front)
    · exact .inr h
  · rintro (h | h)
    · exact .inl (hskip text h)
    · exact .inr h

theorem eventPattern_words (hwords : ∀ w ∈ words, IsWord w) :
    REFRESH_EVENT (joinWords words) ≠ [] ↔
      [units "--event", units "refresh"] <+: words := by
  have hevent : IsWord (units "--event") := ⟨by decide, by decide⟩
  have hrefresh : IsWord (units "refresh") := ⟨by decide, by decide⟩
  constructor
  · intro h
    obtain ⟨r, hr⟩ := List.exists_mem_of_ne_nil _ h
    simp only [REFRESH_EVENT, Matcher.all, List.foldr_cons, List.foldr_nil, Matcher.mem_seq,
      Matcher.mem_lit, Matcher.mem_many1, List.mem_singleton] at hr
    obtain ⟨_, heq, _, ⟨w, rfl, hne, hw⟩, t, rfl, _, hend, -⟩ := hr
    obtain ⟨rest, rfl, hrest⟩ := joinWords_split hwords hevent (head_spaces hne hw) heq
    have hwords' : ∀ v ∈ rest, IsWord v := fun v hv => hwords v (List.mem_cons_of_mem _ hv)
    rcases hrest with ⟨-, hnil⟩ | ⟨hrest, hjoin⟩
    · exact absurd (List.append_eq_nil_iff.mp hnil).1 hne
    -- one space stands between joined words
    obtain ⟨c, w, rfl⟩ := List.exists_cons_of_ne_nil hne
    obtain ⟨rfl, htail⟩ := List.cons.inj hjoin
    cases w with
    | cons c w =>
      have hspace := joinWords_head hwords' c (by rw [← htail]; rfl)
      rw [hw c (by simp)] at hspace
      cases hspace
    | nil =>
      have ht : ∀ u, t.head? = some u → isSpace u = true := by
        intro u hu
        cases t with
        | nil => cases hu
        | cons v t =>
          cases hu
          rw [spaceOrEnd] at hend
          split at hend
          · assumption
          · cases hend
      obtain ⟨rest', rfl, -⟩ := joinWords_split hwords' hrefresh ht htail.symm
      exact ⟨rest', rfl⟩
  · rintro ⟨rest, rfl⟩
    obtain ⟨t, hjoin, hend⟩ : ∃ t, joinWords (units "refresh" :: rest) = units "refresh" ++ t ∧
        spaceOrEnd t ≠ [] := by
      by_cases hrest : rest = []
      · subst hrest
        exact ⟨[], by simp [joinWords, joinSep], by simp [spaceOrEnd]⟩
      · exact ⟨_, joinWords_cons hrest _, by simp [spaceOrEnd]; decide⟩
    obtain ⟨r, hr⟩ := List.exists_mem_of_ne_nil _ hend
    apply List.ne_nil_of_mem (a := r)
    simp only [REFRESH_EVENT, Matcher.all, List.foldr_cons, List.foldr_nil, Matcher.mem_seq,
      Matcher.mem_lit, Matcher.mem_many1, List.mem_singleton]
    refine ⟨_, ?_, _, ⟨[unit ' '], rfl, by simp, by decide⟩, t, rfl, r, hr, rfl⟩
    rw [List.cons_append, List.cons_append, List.nil_append, joinWords_cons (by simp), hjoin]
    rfl

end Patterns

/-! ## What passes -/

/-- The words a command must have to pass; where in the command they stand does not matter. -/
structure Mentions (command : Str) : Prop where
  safe : ∀ u ∈ command, u ∉ REFRESH_SHELL_UNSAFE
  bun : ∃ before after, splitWords command = before ++ units "bun" :: after ∧ after ≠ []
  script : REFRESH_SCRIPT <:+: command
  event : [units "--event", units "refresh"] <:+: splitWords command

theorem unsafe_not_space {u : UInt16} (h : u ∈ REFRESH_SHELL_UNSAFE) : isSpace u = false := by
  have hall : ∀ v ∈ REFRESH_SHELL_UNSAFE, isSpace v = false := by decide
  exact hall u h

theorem infix_normalized {x : Str} (hx : IsWord x) (command : Str) :
    x <:+: collapse (strip command) ↔ x <:+: command := by
  rw [collapse_strip, infix_joinWords hx, infix_words hx]

theorem mem_normalized {u : UInt16} (hu : isSpace u = false) (command : Str) :
    u ∈ collapse (strip command) ↔ u ∈ command := by
  have h := infix_normalized (x := [u]) ⟨List.cons_ne_nil _ _, by simpa using hu⟩ command
  rwa [List.singleton_infix_iff, List.singleton_infix_iff] at h

theorem space_of_mem_joinWords {words : List Str} (hwords : ∀ w ∈ words, IsWord w) {u : UInt16}
    (h : u ∈ joinWords words) (hu : isSpace u = true) : u = unit ' ' := by
  induction words with
  | nil => cases h
  | cons w words ih =>
    have hw : u ∉ w := by
      intro hmem
      rw [(hwords w List.mem_cons_self).2 u hmem] at hu
      cases hu
    by_cases hne : words = []
    · subst hne
      exact absurd h hw
    · rw [joinWords_cons hne, List.mem_append, List.mem_cons] at h
      rcases h with h | rfl | h
      · exact absurd h hw
      · rfl
      · exact ih (fun v hv => hwords v (List.mem_cons_of_mem _ hv)) h

theorem break_notMem_normalized (command : Str) : 0x0A ∉ collapse (strip command) := by
  rw [collapse_strip]
  intro hmem
  have := space_of_mem_joinWords (isWord_splitWords command) hmem (by decide)
  revert this
  decide

theorem isWord_script : IsWord REFRESH_SCRIPT := ⟨by decide, by decide⟩

theorem patterns_iff (decimal : UInt16 → Bool) (command : Str) :
    (collapse (strip command) ≠ [] ∧
        (collapse (strip command)).any REFRESH_SHELL_UNSAFE.contains = false ∧
        searchWord (REFRESH_BUN decimal) (collapse (strip command)) = true ∧
        REFRESH_SCRIPT <:+: collapse (strip command) ∧
        searchWord REFRESH_EVENT (collapse (strip command)) = true) ↔ Mentions command := by
  have hwords := isWord_splitWords command
  have hsafe : (collapse (strip command)).any REFRESH_SHELL_UNSAFE.contains = false ↔
      ∀ u ∈ command, u ∉ REFRESH_SHELL_UNSAFE := by
    rw [List.any_eq_false]
    constructor
    · intro h u hu hmem
      exact h u ((mem_normalized (unsafe_not_space hmem) command).mpr hu)
        (List.contains_iff_mem.mpr hmem)
    · intro h u hu hmem
      have hmem := List.contains_iff_mem.mp hmem
      exact h u ((mem_normalized (unsafe_not_space hmem) command).mp hu) hmem
  have hempty : collapse (strip command) ≠ [] ↔ splitWords command ≠ [] := by
    rw [collapse_strip, not_iff_not]
    constructor
    · intro h
      cases hsplit : splitWords command with
      | nil => rfl
      | cons w words =>
        rw [hsplit] at h hwords
        have hne := (hwords w List.mem_cons_self).1
        cases words with
        | nil => exact absurd h hne
        | cons v words =>
          rw [joinWords_cons (List.cons_ne_nil v words)] at h
          exact absurd (List.append_eq_nil_iff.mp h).1 hne
    · intro h
      rw [h]
      rfl
  rw [hsafe, infix_normalized isWord_script, search_bun]
  constructor
  · rintro ⟨hne, hs, hbun, hscript, hevent⟩
    have hne := hempty.mp hne
    rw [collapse_strip, searchWord_join hwords hne] at hbun hevent
    obtain ⟨rest, -, ⟨before, hsplit⟩, hm⟩ := hbun
    obtain ⟨after, rfl, hafter⟩ := (bunPattern_words fun w hw =>
      hwords w (hsplit ▸ List.mem_append_right before hw)).mp hm
    obtain ⟨rest, -, hsuffix, hm⟩ := hevent
    have hfront := (eventPattern_words fun w hw => hwords w (hsuffix.mem hw)).mp hm
    exact ⟨hs, ⟨before, after, hsplit.symm, hafter⟩, hscript, hfront.isInfix.trans hsuffix.isInfix⟩
  · rintro ⟨hs, ⟨before, after, hsplit, hafter⟩, hscript, ⟨front, back, hevent⟩⟩
    have hne : splitWords command ≠ [] := by simp [hsplit]
    refine ⟨hempty.mpr hne, hs, ?_, hscript, ?_⟩
    · rw [collapse_strip, searchWord_join hwords hne]
      exact ⟨units "bun" :: after, List.cons_ne_nil _ _, ⟨before, hsplit.symm⟩,
        (bunPattern_words fun w hw =>
          hwords w (hsplit ▸ List.mem_append_right before hw)).mpr ⟨after, rfl, hafter⟩⟩
    · rw [collapse_strip, searchWord_join hwords hne]
      rw [List.append_assoc] at hevent
      exact ⟨_, by simp, ⟨front, hevent⟩, (eventPattern_words fun w hw =>
        hwords w (hevent ▸ List.mem_append_right front hw)).mpr (List.prefix_append _ _)⟩

theorem accepts_iff (repr : PyJson → Str) (decimal : UInt16 → Bool) (name : Str)
    (tool_input : Items) :
    is_policy_refresh_tool repr decimal name tool_input = true ↔
      lower name ∈ SHELL_TOOLS ∧
        ∃ command, command_of repr tool_input = some command ∧ Mentions command := by
  unfold is_policy_refresh_tool
  split
  · rename_i hname
    simp [hname]
  · rename_i hname
    rw [not_not] at hname
    cases hcommand : command_of repr tool_input with
    | none => simp
    | some command =>
      have hmentions := patterns_iff decimal command
      simp only [break_notMem_normalized command, or_false, Option.some.injEq, exists_eq_left',
        hname, true_and]
      rw [← hmentions]
      split
      · rename_i hempty
        simp [hempty]
      split
      · rename_i hsafe
        simp [hsafe]
      · rename_i hempty hsafe
        simp [hempty, hsafe, and_assoc]

/-! ## The printed command on its words -/

theorem refresh_command_eq (environment agent session_id : Str) :
    refresh_command environment agent session_id =
      units "bun" ++ unit ' ' :: (gate_script environment ++ unit ' ' :: (units "--event" ++
        unit ' ' :: (units "refresh" ++ unit ' ' :: (units "--agent" ++ unit ' ' :: (agent ++
          unit ' ' :: (units "--session-id" ++ unit ' ' :: shell_quoted session_id)))))) := by
  simp [refresh_command, units]
  decide

/-- The body between the quotes has the value's text between the value's own quotes. -/
theorem infix_quoted {x : Str} (hx : x ≠ []) (hquote : unit '\'' ∉ x) (hslash : unit '\\' ∉ x)
    (value : Str) : x <:+: shell_quoted value ↔ x <:+: value := by
  have hbody : ∀ value : Str,
      x <:+: (value.flatMap fun c => if c = unit '\'' then units "'\\''" else [c]) ↔
        x <:+: value := by
    intro value
    induction hlength : value.length using Nat.strongRecOn generalizing value with
    | ind n ih =>
      have hplain : ∀ a : Str, unit '\'' ∉ a →
          (a.flatMap fun c => if c = unit '\'' then units "'\\''" else [c]) = a := by
        intro a ha
        induction a with
        | nil => rfl
        | cons c a iha =>
          rw [List.mem_cons, not_or] at ha
          rw [List.flatMap_cons, if_neg (Ne.symm ha.1), iha ha.2]
          rfl
      by_cases hmem : unit '\'' ∈ value
      · -- the quote is written as a quote, a backslash and two more
        obtain ⟨a, b, rfl, ha⟩ := List.eq_append_cons_of_mem hmem
        have hb := ih b.length (by rw [← hlength]; simp; omega) b rfl
        have hwritten : units "'\\''" = [unit '\'', unit '\\', unit '\'', unit '\''] := by decide
        have hshape : ∀ t : Str, a ++ units "'\\''" ++ t = a ++ unit '\'' ::
            ([] ++ unit '\\' :: ([] ++ unit '\'' :: ([] ++ unit '\'' :: t))) := by
          intro t
          rw [hwritten]
          simp
        rw [List.flatMap_append, List.flatMap_cons, hplain a ha, if_pos rfl, ← List.append_assoc,
          hshape, infix_append_cons hquote, infix_append_cons hslash,
          infix_append_cons hquote, infix_append_cons hquote, hb, infix_append_cons hquote]
        simp [hx]
      · rw [hplain value hmem]
  have hshape : shell_quoted value = [] ++ unit '\'' ::
      ((value.flatMap fun c => if c = unit '\'' then units "'\\''" else [c]) ++ unit '\'' :: []) :=
    rfl
  rw [hshape, infix_append_cons hquote, infix_append_cons hquote, hbody]
  simp [hx]

theorem mem_quoted {u : UInt16} (hu : u ∈ REFRESH_SHELL_UNSAFE) (value : Str) :
    u ∈ shell_quoted value ↔ u ∈ value := by
  have hne : ∀ q ∈ [unit '\'', unit '\\'], q ≠ u := by
    have hall : ∀ v ∈ REFRESH_SHELL_UNSAFE, ∀ q ∈ [unit '\'', unit '\\'], q ≠ v := by decide
    exact hall u hu
  have h := infix_quoted (x := [u]) (List.cons_ne_nil _ _)
    (by simpa using hne (unit '\'') (by simp)) (by simpa using hne (unit '\\') (by simp)) value
  rwa [List.singleton_infix_iff, List.singleton_infix_iff] at h

/-- Nothing that is printed makes the command unsafe, and the script's name is printed. -/
def PrintsRefresh (environment agent session_id : Str) : Prop :=
  (∀ u ∈ gate_script environment ++ (agent ++ session_id), u ∉ REFRESH_SHELL_UNSAFE) ∧
    (REFRESH_SCRIPT <:+: gate_script environment ∨ REFRESH_SCRIPT <:+: agent ∨
      REFRESH_SCRIPT <:+: session_id)

theorem mentions_printed (environment agent session_id : Str) :
    Mentions (refresh_command environment agent session_id) ↔
      PrintsRefresh environment agent session_id := by
  have hspace : isSpace (unit ' ') = true := by decide
  have hwords : splitWords (refresh_command environment agent session_id) =
      units "bun" :: (splitWords (gate_script environment) ++ units "--event" ::
        units "refresh" :: units "--agent" :: (splitWords agent ++ units "--session-id" ::
          splitWords (shell_quoted session_id))) := by
    have hword : ∀ w : Str, IsWord w → ∀ t, splitWords (w ++ unit ' ' :: t) = w :: splitWords t := by
      intro w hw t
      rw [splitWords_append_cons hspace, splitWords_word hw]
      rfl
    rw [refresh_command_eq, hword _ ⟨by decide, by decide⟩, splitWords_append_cons hspace,
      hword _ ⟨by decide, by decide⟩, hword _ ⟨by decide, by decide⟩,
      hword _ ⟨by decide, by decide⟩, splitWords_append_cons hspace,
      hword _ ⟨by decide, by decide⟩]
  have hscript : REFRESH_SCRIPT <:+: refresh_command environment agent session_id ↔
      REFRESH_SCRIPT <:+: gate_script environment ∨ REFRESH_SCRIPT <:+: agent ∨
        REFRESH_SCRIPT <:+: session_id := by
    have hfree : unit ' ' ∉ REFRESH_SCRIPT := by decide
    have hnone : ∀ w ∈ [units "bun", units "--event", units "refresh", units "--agent",
        units "--session-id"], ¬ REFRESH_SCRIPT <:+: w := by decide
    have hsplit : ∀ w ∈ [units "bun", units "--event", units "refresh", units "--agent",
        units "--session-id"], ∀ t,
        REFRESH_SCRIPT <:+: w ++ unit ' ' :: t ↔ REFRESH_SCRIPT <:+: t := by
      intro w hw t
      rw [infix_append_cons hfree]
      simp [hnone w hw]
    rw [refresh_command_eq, hsplit _ (by simp), infix_append_cons hfree,
      hsplit _ (by simp), hsplit _ (by simp), hsplit _ (by simp),
      infix_append_cons hfree, hsplit _ (by simp),
      infix_quoted isWord_script.1 (by decide) (by decide)]
  have hsafe : (∀ u ∈ refresh_command environment agent session_id, u ∉ REFRESH_SHELL_UNSAFE) ↔
      ∀ u ∈ gate_script environment ++ (agent ++ session_id), u ∉ REFRESH_SHELL_UNSAFE := by
    have hplain : ∀ w ∈ [units "bun ", units " --event refresh --agent ", units " --session-id "],
        ∀ u ∈ w, u ∉ REFRESH_SHELL_UNSAFE := by decide
    constructor
    · intro h u hu hunsafe
      refine h u ?_ hunsafe
      rw [refresh_command]
      simp only [List.mem_append] at hu ⊢
      rcases hu with hu | hu | hu
      · simp [hu]
      · simp [hu]
      · exact .inr ((mem_quoted hunsafe session_id).mpr hu)
    · intro h u hu hunsafe
      rw [refresh_command] at hu
      simp only [List.mem_append] at hu h
      rcases hu with ((((hu | hu) | hu) | hu) | hu) | hu
      · exact hplain _ (by simp) u hu hunsafe
      · exact h u (.inl hu) hunsafe
      · exact hplain _ (by simp) u hu hunsafe
      · exact h u (.inr (.inl hu)) hunsafe
      · exact hplain _ (by simp) u hu hunsafe
      · exact h u (.inr (.inr ((mem_quoted hunsafe session_id).mp hu))) hunsafe
  constructor
  · intro h
    exact ⟨hsafe.mp h.safe, hscript.mp h.script⟩
  · rintro ⟨hs, hname⟩
    refine ⟨hsafe.mpr hs, ⟨[], _, hwords, by simp⟩, hscript.mpr hname, ?_⟩
    rw [hwords]
    exact ⟨units "bun" :: splitWords (gate_script environment), units "--agent" ::
      (splitWords agent ++ units "--session-id" :: splitWords (shell_quoted session_id)), by simp⟩

/-! ## The allowance -/

/-- `timeout N`, if at all, `bun`, the script and behind it `--event refresh`. -/
def Refresh (words : List Str) : Prop :=
  ∃ wrapper before script between after,
    words = wrapper ++ units "bun" :: (before ++ script :: (between ++ units "--event" ::
      units "refresh" :: after)) ∧
    (wrapper = [] ∨ ∃ seconds, wrapper = [units "timeout", seconds] ∧ seconds ≠ [] ∧
      seconds.all JsonText.isDigit = true) ∧
    (script = REFRESH_SCRIPT ∨ (unit '/' :: REFRESH_SCRIPT) <:+ script)

def ReadAsRefresh (command : Str) : Prop :=
  ∃ segment, tokenize_shell_detailed command = [segment] ∧ Refresh segment.words

/-- Outside quotes and comments the command has words on one line only, and they are a refresh. -/
def OnOneLine (command : Str) : Prop := ∃ words, lines command = [words] ∧ Refresh words

theorem simple_of_safe {u : UInt16} (h : u ∉ REFRESH_SHELL_UNSAFE) : isSimple u = true := by
  have hall : ∀ v ∈ units "$;|&" ++ [unit '\x60'], v ∈ REFRESH_SHELL_UNSAFE := by decide
  rw [isSimple, Bool.not_eq_true', Bool.eq_false_iff]
  intro hmem
  exact h (hall u (List.contains_iff_mem.mp hmem))

theorem readAsRefresh_iff {command : Str} (h : ∀ u ∈ command, u ∉ REFRESH_SHELL_UNSAFE) :
    ReadAsRefresh command ↔ OnOneLine command := by
  have hlines := tokenize_lines fun u hu => simple_of_safe (h u hu)
  constructor
  · rintro ⟨segment, hsegment, hwords⟩
    rw [hsegment] at hlines
    exact ⟨segment.words, hlines.symm, hwords⟩
  · rintro ⟨words, hline, hwords⟩
    rw [hline] at hlines
    obtain ⟨segment, hsegment, rfl⟩ := List.map_eq_singleton_iff.mp hlines
    exact ⟨segment, hsegment, hwords⟩

theorem command_of_command {repr : PyJson → Str} {command : Str} (h : command ≠ []) :
    command_of repr [(units "command", .str command)] = some command := by
  simp [command_of, Members.get?, truthy, str, h]

/-- A command that passes is read as one refresh exactly when it is one on one line, and a printed
command passes exactly when it is safe and has the script's name. -/
theorem refresh_allowance (repr : PyJson → Str) (decimal : UInt16 → Bool) :
    (∀ name tool_input,
      (is_policy_refresh_tool repr decimal name tool_input = true →
          ∃ command, command_of repr tool_input = some command ∧ ReadAsRefresh command) ↔
        ∀ command, lower name ∈ SHELL_TOOLS → command_of repr tool_input = some command →
          Mentions command → OnOneLine command) ∧
      ∀ environment agent session_id,
        (∀ name, lower name ∈ SHELL_TOOLS → is_policy_refresh_tool repr decimal name
            [(units "command", .str (refresh_command environment agent session_id))] = true) ↔
          PrintsRefresh environment agent session_id := by
  refine ⟨fun name tool_input => ?_, fun environment agent session_id => ?_⟩
  · rw [accepts_iff]
    constructor
    · intro h command hname hcommand hmentions
      obtain ⟨command', hcommand', hread⟩ := h ⟨hname, command, hcommand, hmentions⟩
      rw [hcommand] at hcommand'
      cases hcommand'
      exact (readAsRefresh_iff hmentions.safe).mp hread
    · rintro h ⟨hname, command, hcommand, hmentions⟩
      exact ⟨command, hcommand, (readAsRefresh_iff hmentions.safe).mpr
        (h command hname hcommand hmentions)⟩
  · have hcommand : command_of repr
        [(units "command", .str (refresh_command environment agent session_id))] =
        some (refresh_command environment agent session_id) :=
      command_of_command (by rw [refresh_command_eq]; exact List.cons_ne_nil _ _)
    rw [← mentions_printed]
    constructor
    · intro h
      obtain ⟨-, command, hcommand', hmentions⟩ := (accepts_iff _ _ _ _).mp
        (h (units "bash") (by decide))
      rw [hcommand] at hcommand'
      cases hcommand'
      exact hmentions
    · intro hmentions name hname
      exact (accepts_iff _ _ _ _).mpr ⟨hname, _, hcommand, hmentions⟩

/-- A refresh with another command on the next line. -/
def twoLines : Str := units "bun policy-refresh-gate.ts --event refresh\nrm -rf work"

theorem twoLines_mentions : Mentions twoLines where
  safe := by decide
  bun := ⟨[], [units "policy-refresh-gate.ts", units "--event", units "refresh", units "rm",
    units "-rf", units "work"], by decide, by decide⟩
  script := by decide
  event := by decide

theorem twoLines_not_read : ¬ ReadAsRefresh twoLines := by
  rw [readAsRefresh_iff twoLines_mentions.safe]
  rintro ⟨words, hwords, -⟩
  have hlines : (lines twoLines).length = 2 := by decide
  rw [hwords] at hlines
  cases hlines

/-- The second line passes with the first, and a session whose id has a separator is stuck. -/
theorem refresh_allowance_fails :
    ∃ (repr : PyJson → Str) (decimal : UInt16 → Bool),
      (∃ tool_input, is_policy_refresh_tool repr decimal (units "Bash") tool_input = true ∧
        ¬ ∃ command, command_of repr tool_input = some command ∧ ReadAsRefresh command) ∧
      ∃ agent session_id, is_policy_refresh_tool repr decimal (units "Bash")
        [(units "command", .str (refresh_command [] agent session_id))] = false := by
  have hcommand := @command_of_command (fun _ => []) twoLines (by decide)
  refine ⟨fun _ => [], JsonText.isDigit, ⟨[(units "command", .str twoLines)],
    (accepts_iff _ _ _ _).mpr ⟨by decide, twoLines, hcommand, twoLines_mentions⟩, ?_⟩,
    units "claude", units "a;b", ?_⟩
  · rintro ⟨command, hcommand', hread⟩
    rw [hcommand] at hcommand'
    cases hcommand'
    exact twoLines_not_read hread
  · rw [Bool.eq_false_iff]
    intro haccepts
    obtain ⟨-, command, hcommand', hmentions⟩ := (accepts_iff _ _ _ _).mp haccepts
    rw [command_of_command (by rw [refresh_command_eq]; exact List.cons_ne_nil _ _)] at hcommand'
    cases hcommand'
    have hsafe := ((mentions_printed _ _ _).mp hmentions).1 (unit ';') (by
      simp only [List.mem_append]
      exact .inr (.inr (by decide)))
    exact hsafe (by decide)

end OpenBrain.Provider.Policy
