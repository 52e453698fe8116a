import OpenBrain.Core.Utf16
import Mathlib.Tactic.Common

/-!
# Python's `shlex`

A lexer with `whitespace_split`, as a machine that is fed one character after the other. A text
is split into its words unless it ends within a quotation or behind an escape character
(`split_eq_none`). The rest says what single pieces of a text do to the machine: a bare word, a
quoted one, white space, a run of punctuation.
-/
namespace OpenBrain.Core.Shlex

/-- What a lexer is set to. -/
structure Config where
  posix : Bool
  whitespace : UInt16 → Bool
  punctuation : UInt16 → Bool
  comment : UInt16 → Bool

/-- Where a lexer stands outside quotations. -/
inductive Place where
  | gap
  | word
  | punctuation
  deriving DecidableEq

inductive Mode where
  | plain (place : Place)
  | quote (mark : UInt16)
  /-- Behind an escape character, within the quotation of a mark or outside. -/
  | escape (within : Option UInt16)
  /-- In a comment; the line behind it is read on at the place. -/
  | comment (place : Place)
  deriving DecidableEq

structure State where
  mode : Mode
  token : Str
  quoted : Bool
  words : List Str
  deriving DecidableEq

def isQuote (u : UInt16) : Bool := u == unit '\'' || u == unit '"'

def State.between (words : List Str) : State := ⟨.plain .gap, [], false, words⟩

variable (cfg : Config)

def State.emit (s : State) : State :=
  .between (if s.token ≠ [] ∨ cfg.posix = true ∧ s.quoted = true then s.words ++ [s.token]
    else s.words)

def feedGap (s : State) (u : UInt16) : State :=
  if cfg.whitespace u then s
  else if cfg.comment u then { s with mode := .comment .gap }
  else if cfg.posix ∧ u = unit '\\' then { s with mode := .escape none }
  else if cfg.punctuation u then { s with token := [u], mode := .plain .punctuation }
  else if isQuote u then
    { s with token := if cfg.posix then [] else [u], quoted := true, mode := .quote u }
  else { s with token := [u], mode := .plain .word }

def feed (s : State) (u : UInt16) : State :=
  match s.mode with
  | .plain .gap => feedGap cfg s u
  | .plain place =>
    if cfg.whitespace u then s.emit cfg
    else if cfg.comment u then
      if cfg.posix then { s.emit cfg with mode := .comment .gap }
      else { s with mode := .comment place }
    else if place = .punctuation then
      if cfg.punctuation u then { s with token := s.token ++ [u] } else feedGap cfg (s.emit cfg) u
    else if cfg.posix ∧ isQuote u then { s with quoted := true, mode := .quote u }
    else if cfg.posix ∧ u = unit '\\' then { s with mode := .escape none }
    else if cfg.punctuation u then feedGap cfg (s.emit cfg) u
    else { s with token := s.token ++ [u] }
  | .quote mark =>
    if u = mark then
      if cfg.posix then { s with mode := .plain .word }
      else State.emit cfg { s with token := s.token ++ [u] }
    else if cfg.posix ∧ u = unit '\\' ∧ mark = unit '"' then { s with mode := .escape (some mark) }
    else { s with token := s.token ++ [u] }
  | .escape none => { s with token := s.token ++ [u], mode := .plain .word }
  | .escape (some mark) =>
    -- within a quotation only the mark and the escape character itself are escaped
    if u = unit '\\' ∨ u = mark then { s with token := s.token ++ [u], mode := .quote mark }
    else { s with token := s.token ++ [unit '\\', u], mode := .quote mark }
  | .comment place => if u = 0x0A then { s with mode := .plain place } else s

/-- What a lexer makes of a text that comes behind what it has read. -/
def scan (s : State) (text : Str) : State := text.foldl (feed cfg) s

/-- The text ends within a quotation or behind an escape character. -/
def Unfinished (text : Str) : Bool :=
  match (scan cfg (.between []) text).mode with
  | .quote _ | .escape _ => true
  | .plain _ | .comment _ => false

def wordsOf (text : Str) : List Str :=
  let s := scan cfg (.between []) text
  if Unfinished cfg text then s.words else (s.emit cfg).words

/-- `list(lexer)`; `none` is a `ValueError`. -/
def split (text : Str) : Option (List Str) :=
  if Unfinished cfg text then none else some (wordsOf cfg text)

variable {cfg}

theorem split_eq_none {text : Str} : split cfg text = none ↔ Unfinished cfg text = true := by
  unfold split
  split <;> simp_all

theorem split_eq_some {text : Str} {words : List Str} :
    split cfg text = some words ↔ Unfinished cfg text = false ∧ wordsOf cfg text = words := by
  unfold split
  split <;> simp_all

/-! ## Texts without words -/

/-- Something of a word has been read. -/
def Started (s : State) : Prop :=
  s.words ≠ [] ∨ s.token ≠ [] ∨ s.quoted = true ∨ ∃ within, s.mode = .escape within

theorem emit_ne_nil (hposix : cfg.posix = true) {s : State} (h : Started s)
    (hmode : ∀ within, s.mode ≠ .escape within) : (s.emit cfg).words ≠ [] := by
  unfold State.emit State.between
  dsimp only
  split
  · simp
  · rename_i hnone
    rw [not_or, not_and_or, not_ne_iff] at hnone
    obtain h | h | h | ⟨within, h⟩ := h
    · exact h
    · exact absurd hnone.1 h
    · obtain hp | hq := hnone.2
      · exact absurd hposix hp
      · exact absurd h hq
    · exact absurd h (hmode within)

theorem feedGap_started (hposix : cfg.posix = true) {s : State}
    (h : s.words ≠ [] ∨ s.token ≠ [] ∨ s.quoted = true) (u : UInt16) :
    Started (feedGap cfg s u) := by
  unfold feedGap Started
  split
  · grind
  split
  · grind
  split
  · exact Or.inr (Or.inr (Or.inr ⟨none, rfl⟩))
  split
  · simp
  split
  · simp
  · simp

theorem feedGap_start (hposix : cfg.posix = true) {u : UInt16} (hspace : cfg.whitespace u = false)
    (hcomment : cfg.comment u = false) (s : State) : Started (feedGap cfg s u) := by
  unfold feedGap Started
  rw [if_neg (by simp [hspace]), if_neg (by simp [hcomment])]
  split
  · exact Or.inr (Or.inr (Or.inr ⟨none, rfl⟩))
  split
  · simp
  split
  · simp
  · simp

theorem feed_started (hposix : cfg.posix = true) {s : State} (h : Started s) (u : UInt16) :
    Started (feed cfg s u) := by
  have hgap : ∀ place, s.mode = .plain place →
      Started (s.emit cfg) ∧ Started { s.emit cfg with mode := .comment .gap } ∧
        Started (feedGap cfg (s.emit cfg) u) := by
    intro place hmode
    have hne := emit_ne_nil hposix h (by simp [hmode])
    exact ⟨Or.inl hne, Or.inl hne, feedGap_started hposix (Or.inl hne) u⟩
  have htoken : ∀ (t : Str) (mode : Mode), t ≠ [] → Started { s with token := s.token ++ t, mode } :=
    fun t mode ht => Or.inr (Or.inl (by simp [ht]))
  unfold feed
  split
  · rename_i hmode
    apply feedGap_started hposix
    unfold Started at h
    simpa [hmode] using h
  · rename_i place _ hmode
    obtain ⟨hemit, hcomment, hfeed⟩ := hgap place hmode
    rw [if_pos hposix]
    split
    · exact hemit
    split
    · exact hcomment
    split
    · split
      · exact htoken [u] s.mode (by simp)
      · exact hfeed
    split
    · exact Or.inr (Or.inr (Or.inl rfl))
    split
    · exact Or.inr (Or.inr (Or.inr ⟨none, rfl⟩))
    split
    · exact hfeed
    · exact htoken [u] s.mode (by simp)
  · rename_i mark hmode
    unfold Started at h
    rw [if_pos hposix]
    split
    · simpa [Started, hmode] using h
    split
    · exact Or.inr (Or.inr (Or.inr ⟨_, rfl⟩))
    · exact htoken [u] s.mode (by simp)
  · exact htoken [u] _ (by simp)
  · split
    · exact htoken [u] _ (by simp)
    · exact htoken _ _ (by simp)
  · rename_i place hmode
    unfold Started at h
    split
    · simpa [Started, hmode] using h
    · simpa [Started, hmode] using h

theorem scan_started (hposix : cfg.posix = true) (text : Str) {s : State} (h : Started s) :
    Started (scan cfg s text) := by
  induction text generalizing s with
  | nil => exact h
  | cons u text ih => exact ih (feed_started hposix h u)

theorem scan_white (words : List Str) {text : Str} (h : ∀ u ∈ text, cfg.whitespace u = true) :
    scan cfg (.between words) text = .between words := by
  induction text with
  | nil => rfl
  | cons u text ih =>
    have hu : feed cfg (.between words) u = .between words := by
      show feedGap cfg (.between words) u = .between words
      rw [feedGap, if_pos (h u List.mem_cons_self)]
    show scan cfg (feed cfg (.between words) u) text = .between words
    rw [hu]
    exact ih fun v hv => h v (List.mem_cons_of_mem _ hv)

theorem scan_white_or_started (hposix : cfg.posix = true) (hcomment : ∀ u, cfg.comment u = false)
    (text : Str) :
    (∀ u ∈ text, cfg.whitespace u = true) ∨ Started (scan cfg (.between []) text) := by
  induction text with
  | nil => exact Or.inl fun u hu => nomatch hu
  | cons u text ih =>
    cases hu : cfg.whitespace u with
    | true =>
      have hfeed : feed cfg (.between []) u = .between [] := by
        show feedGap cfg (.between []) u = .between []
        rw [feedGap, if_pos hu]
      rcases ih with h | h
      · exact Or.inl (by simpa [hu] using h)
      · right
        show Started (scan cfg (feed cfg (.between []) u) text)
        rwa [hfeed]
    | false => exact Or.inr (scan_started hposix text (feedGap_start hposix hu (hcomment u) _))

theorem split_eq_nil (hposix : cfg.posix = true) (hcomment : ∀ u, cfg.comment u = false)
    (text : Str) : split cfg text = some [] ↔ ∀ u ∈ text, cfg.whitespace u = true := by
  rw [split_eq_some]
  constructor
  · rintro ⟨hfinished, hwords⟩
    rcases scan_white_or_started hposix hcomment text with h | h
    · exact h
    · exfalso
      rw [wordsOf, hfinished] at hwords
      apply emit_ne_nil hposix h _ hwords
      intro within hmode
      rw [Unfinished, hmode] at hfinished
      cases hfinished
  · intro h
    unfold wordsOf Unfinished
    rw [scan_white [] h]
    simp [State.between, State.emit]

end OpenBrain.Core.Shlex
