import OpenBrain.Core.EcmaJson
import OpenBrain.Core.Matcher

/-!
# The answers of an AskUserQuestion turn (`server/maintenance/distill-exchange.ts`)

A tool result that starts with `The user answered:` holds pairs `"question"="answer"`, each with
an optional `notes:` text. The scan walks the text and keeps a cursor; here the cursor is the text
that is left.

`parse_printed`: pairs without a quote inside come out of the scan as they were printed.
-/
namespace OpenBrain.Server.Distill
open OpenBrain.Core

/-! ## Whitespace -/

/-- `s.replace(/p+/g, f)` for a class `p`. -/
def replaceRuns (p : UInt16 → Bool) (f : Str → Str) (s : Str) : Str :=
  (s.splitBy fun u v => p u && p v).flatMap fun run => if run.all p then f run else run

/-- mirrors distill-exchange.ts:347-352 -/
def normalizeWhitespace (text : Str) : Str :=
  let blanks := replaceRuns (fun u => u = unit ' ' || u = unit '\t') (fun _ => [unit ' ']) text
  Ecma.trim (replaceRuns (fun u => u = unit '\n')
    (fun run => if 3 ≤ run.length then [unit '\n', unit '\n'] else run) blanks)

def trimStart (s : Str) : Str := s.dropWhile Ecma.isSpace

def trimEnd (s : Str) : Str := s.rdropWhile Ecma.isSpace

/-- `s.indexOf(w)`, as the text before the first occurrence and the text from there on. -/
def breakBefore (w : Str) : Str → Option (Str × Str)
  | [] => none
  | u :: s =>
    if w.isPrefixOf (u :: s) then some ([], u :: s)
    else (breakBefore w s).map fun (before, after) => (u :: before, after)

/-! ## The prefix and the trailer -/

/-- mirrors distill-exchange.ts:56 -/
def AUQ_ANSWER_PREFIX : Str := units "The user answered:"

/-- `s.replace(AUQ_ANSWER_PREFIX, "")`, when there is something to replace. -/
def withoutPrefix (s : Str) : Option Str :=
  if AUQ_ANSWER_PREFIX.isPrefixOf s then some (s.drop AUQ_ANSWER_PREFIX.length) else none

/-- `\s*` -/
def spaces : Matcher UInt16 := Matcher.many Ecma.isSpace

/-- `--|—` -/
def dash : Matcher UInt16 := Matcher.alt (Matcher.lit (units "--")) (Matcher.lit (units "—"))

/-- mirrors distill-exchange.ts:97-98 -/
def AUQ_TRAILER : Matcher UInt16 := Matcher.all [
  spaces, Matcher.lit (units "Read the answers carefully"), spaces, dash, spaces,
  Matcher.lit (units "they may request clarification, changes, or that you not proceed"),
  spaces, dash, spaces, Matcher.lit (units "and follow what they actually say."), spaces]

/-- `s.replace(AUQ_TRAILER, "")`: the match ends where the text does. -/
def withoutTrailer : Str → Str
  | [] => []
  | u :: s => if (AUQ_TRAILER (u :: s)).any List.isEmpty then [] else u :: withoutTrailer s

/-- mirrors distill-exchange.ts:130-136 -/
def auqBodyOf (content : Str) : Option Str :=
  match withoutPrefix (trimStart content) with
  | none => none
  | some text =>
    let body := Ecma.trim (withoutTrailer text)
    if body = [] then none else some body

/-! ## The scan -/

/-- mirrors distill-exchange.ts:108-112 -/
structure AuqPair where
  question : Str
  answer : Option Str
  notes : Option Str
  deriving DecidableEq

/-- mirrors distill-exchange.ts:119 -/
def AUQ_NO_OPTION : Str := units "(no option selected)"

def pairSeparator : Str := units ", \""

theorem pairSeparator_eq : pairSeparator = [0x2C, 0x20, 0x22] := rfl

/-- `text.trim() || null` -/
def trimmedOrNull (text : Str) : Option Str :=
  let trimmed := Ecma.trim text
  if trimmed = [] then none else some trimmed

/-- mirrors distill-exchange.ts:150-164 -/
def scanAuqAnswer (rest : Str) : Option (Option Str × Str) :=
  if rest.head? = some (unit '"') then
    (breakBefore [unit '"'] rest.tail).map fun (answer, after) => (some answer, after.tail)
  else if AUQ_NO_OPTION.isPrefixOf rest then
    some (none, rest.drop AUQ_NO_OPTION.length)
  else
    match breakBefore pairSeparator rest with
    | none => some (trimmedOrNull rest, [])
    | some (answer, after) => some (trimmedOrNull answer, after)

/-- mirrors distill-exchange.ts:167-178 -/
def scanAuqNotes (rest : Str) : Option Str × Str :=
  let label := units "notes:"
  let text := trimStart rest
  if label.isPrefixOf text then
    let after := trimStart (text.drop label.length)
    match breakBefore pairSeparator after with
    | none => (trimmedOrNull after, [])
    | some (notes, next) => (trimmedOrNull notes, next)
  else (none, rest)

theorem breakBefore_some {w s before after : Str} (h : breakBefore w s = some (before, after)) :
    s = before ++ after ∧ w <+: after := by
  induction s generalizing before with
  | nil => simp [breakBefore] at h
  | cons u s ih =>
    unfold breakBefore at h
    split at h
    · rename_i hw
      cases h
      exact ⟨rfl, List.isPrefixOf_iff_prefix.mp hw⟩
    · obtain ⟨⟨before', after'⟩, hs, heq⟩ := Option.map_eq_some_iff.mp h
      cases heq
      obtain ⟨happend, hw⟩ := ih hs
      exact ⟨congrArg (u :: ·) happend, hw⟩

theorem length_breakBefore {w s before after : Str} (h : breakBefore w s = some (before, after)) :
    before.length + after.length = s.length ∧ w.length ≤ after.length := by
  obtain ⟨rfl, hw⟩ := breakBefore_some h
  exact ⟨(List.length_append ..).symm, hw.length_le⟩

/-- One turn of the loop of distill-exchange.ts:191-216: nothing when the loop is left, and no
pair for a stray quote. Past the last pair the text left is empty. -/
def scanPair (rest : Str) : Option (Option AuqPair × Str) := do
  let (_, opened) ← breakBefore [unit '"'] rest
  let (question, closed) ← breakBefore [unit '"'] opened.tail
  let rest := closed.tail
  if rest.head? = some (unit '=') then
    let (answer, rest) ← scanAuqAnswer rest.tail
    let (notes, rest) := scanAuqNotes rest
    some (some { question, answer, notes },
      match breakBefore pairSeparator rest with
      | none => []
      | some (_, next) => next.drop 2)
  else some (none, rest)

theorem length_scanAuqAnswer {rest after : Str} {answer : Option Str}
    (h : scanAuqAnswer rest = some (answer, after)) : after.length ≤ rest.length := by
  unfold scanAuqAnswer at h
  split at h
  · obtain ⟨⟨quoted, left⟩, hb, heq⟩ := Option.map_eq_some_iff.mp h
    cases heq
    have := length_breakBefore hb
    simp only [List.length_tail] at this ⊢
    omega
  · split at h
    · cases h
      simp
    · split at h
      · cases h
        simp
      · rename_i hb
        cases h
        have := length_breakBefore hb
        omega

theorem length_trimStart (s : Str) : (trimStart s).length ≤ s.length :=
  List.length_dropWhile_le ..

theorem length_scanAuqNotes (rest : Str) : (scanAuqNotes rest).2.length ≤ rest.length := by
  unfold scanAuqNotes
  dsimp only
  have htext := length_trimStart rest
  have hafter := length_trimStart ((trimStart rest).drop (units "notes:").length)
  split
  · split
    · simp
    · rename_i hb
      have hlen := length_breakBefore hb
      simp only [List.length_drop] at hafter hlen ⊢
      omega
  · exact le_rfl

theorem scanPair_shorter {rest after : Str} {pair : Option AuqPair}
    (h : scanPair rest = some (pair, after)) : after.length < rest.length := by
  simp only [scanPair, Option.bind_eq_bind, Option.bind_eq_some_iff] at h
  obtain ⟨⟨prose, opened⟩, ho, ⟨question, closed⟩, hc, h⟩ := h
  dsimp only at hc h
  have hopen := length_breakBefore ho
  have hclose := length_breakBefore hc
  simp only [List.length_tail, List.length_singleton] at hopen hclose
  split at h
  · simp only [Option.bind_eq_some_iff] at h
    obtain ⟨⟨answer, left⟩, ha, heq⟩ := h
    have hanswer := length_scanAuqAnswer ha
    have hnotes := length_scanAuqNotes left
    simp only [List.length_tail] at hanswer
    cases heq
    split
    · simp only [List.length_nil]
      omega
    · rename_i hn
      have hnext := length_breakBefore hn
      dsimp only at hnext
      simp only [List.length_drop]
      omega
  · cases h
    simp only [List.length_tail]
    omega

/-- The loop of distill-exchange.ts:191-216. -/
def parsePairs (rest : Str) : List AuqPair :=
  match h : scanPair rest with
  | none => []
  | some (pair, after) =>
    have := scanPair_shorter h
    pair.toList ++ parsePairs after
termination_by rest.length

/-- mirrors distill-exchange.ts:180-219 -/
def parseAskUserQuestion (content : Str) : List AuqPair :=
  match auqBodyOf content with
  | none => []
  | some body => parsePairs body

/-! ## The head -/

/-- mirrors distill-exchange.ts:232-244 -/
def auqBlock (pair : AuqPair) : Str :=
  joinSep [unit '\n'] (
    [units "CHOSE: " ++ pair.answer.getD (units "(none of the options offered)")] ++
    (pair.notes.toList.map fun notes => units "NOTED: " ++ notes) ++
    [units "(agent asked: " ++ pair.question ++ units ")"])

/-- mirrors distill-exchange.ts:224-249 -/
def renderAskUserQuestionHead (content : Str) : Str :=
  match parseAskUserQuestion content with
  | [] => normalizeWhitespace (withoutTrailer
      ((withoutPrefix (trimStart content)).getD (trimStart content)))
  | pairs => normalizeWhitespace (
      units "[AskUserQuestion -- the operator chose from options the agent offered]\n" ++
        joinSep (units "\n\n") (pairs.map auqBlock))

/-! ## Pairs as the harness prints them -/

def printAnswer : Option Str → Str
  | none => AUQ_NO_OPTION
  | some answer => unit '"' :: answer ++ [unit '"']

def printNotes : Option Str → Str
  | none => []
  | some notes => units " notes: " ++ notes

def printPair (pair : AuqPair) : Str :=
  unit '"' :: pair.question ++ units "\"=" ++ printAnswer pair.answer ++ printNotes pair.notes

def printPairs (pairs : List AuqPair) : Str := joinSep (units ", ") (pairs.map printPair)

/-- What the scan can tell from its punctuation: no quote in a question or an answer, and notes
that are trimmed and hold no start of a pair. -/
structure AuqPair.Plain (pair : AuqPair) : Prop where
  question : unit '"' ∉ pair.question
  answer : ∀ answer, pair.answer = some answer → unit '"' ∉ answer
  notes : ∀ notes, pair.notes = some notes →
    notes ≠ [] ∧ Ecma.trim notes = notes ∧ ¬ pairSeparator <:+: notes

/-- The first quote of a text is found. -/
theorem breakBefore_quote {s r : Str} (h : unit '"' ∉ s) :
    breakBefore [unit '"'] (s ++ unit '"' :: r) = some (s, unit '"' :: r) := by
  induction s with
  | nil => simp [breakBefore]
  | cons u s ih =>
    rw [List.mem_cons, not_or] at h
    rw [List.cons_append, breakBefore, if_neg, ih h.2]
    · rfl
    · simpa using h.1

theorem breakBefore_none {w s : Str} (h : ¬ w <:+: s) : breakBefore w s = none := by
  induction s with
  | nil => rfl
  | cons u s ih =>
    rw [breakBefore, if_neg, ih fun hs => h (List.infix_cons hs)]
    · rfl
    · rw [List.isPrefixOf_iff_prefix]
      exact fun hp => h hp.isInfix

/-- The separator after a text that neither holds it nor ends in a blank. -/
theorem breakBefore_separator {s r : Str} (h : ¬ pairSeparator <:+: s)
    (hend : s.getLast? ≠ some (unit ' ')) :
    breakBefore pairSeparator (s ++ (pairSeparator ++ r)) = some (s, pairSeparator ++ r) := by
  induction s with
  | nil => simp [breakBefore, pairSeparator, units]
  | cons u s ih =>
    have hnot : ¬ pairSeparator <+: u :: s ++ (pairSeparator ++ r) := by
      rintro ⟨t, ht⟩
      rw [pairSeparator_eq] at ht
      match s with
      | [] => simp at ht
      | [v] =>
        simp only [List.cons_append, List.nil_append, List.cons.injEq] at ht
        exact hend (by rw [← ht.2.1]; rfl)
      | v :: x :: s =>
        simp only [List.cons_append, List.nil_append, List.cons.injEq] at ht
        obtain ⟨rfl, rfl, rfl, -⟩ := ht
        exact h ⟨[], s, rfl⟩
    rw [List.cons_append, breakBefore, if_neg (by rwa [List.isPrefixOf_iff_prefix]), ih]
    · rfl
    · exact fun hs => h (List.infix_cons hs)
    · intro hs
      cases s with
      | nil => simp at hs
      | cons v s => exact hend (by simpa using hs)

theorem getLast?_of_trim {s : Str} (h : Ecma.trim s = s) : s.getLast? ≠ some (unit ' ') := by
  intro hlast
  have hnot := List.head?_dropWhile_not Ecma.isSpace (s.dropWhile Ecma.isSpace).reverse
  rw [← h, Ecma.trim, List.getLast?_reverse] at hlast
  rw [hlast] at hnot
  exact absurd hnot (by decide)

theorem trimStart_of_trim {s : Str} (h : Ecma.trim s = s) : trimStart s = s := by
  refine (List.dropWhile_suffix Ecma.isSpace).eq_of_length (le_antisymm (length_trimStart s) ?_)
  have hcut := List.length_dropWhile_le Ecma.isSpace (s.dropWhile Ecma.isSpace).reverse
  have hlen := congrArg List.length h
  simp only [Ecma.trim, List.length_reverse] at hcut hlen
  omega

theorem scanAuqAnswer_printed {answer : Option Str} (rest : Str)
    (h : ∀ a, answer = some a → unit '"' ∉ a) :
    scanAuqAnswer (printAnswer answer ++ rest) = some (answer, rest) := by
  unfold scanAuqAnswer
  cases answer with
  | none =>
    rw [if_neg, if_pos, printAnswer, List.drop_left]
    · rw [List.isPrefixOf_iff_prefix]
      exact List.prefix_append ..
    · simp [printAnswer, AUQ_NO_OPTION, units, unit]
  | some a =>
    have hbreak : breakBefore [unit '"'] (a ++ unit '"' :: rest) = some (a, unit '"' :: rest) :=
      breakBefore_quote (h a rfl)
    simp [printAnswer, hbreak]

/-- What follows a pair: nothing, or the next one. -/
def Follows (tail : Str) : Prop := tail = [] ∨ ∃ r, tail = pairSeparator ++ r

theorem trimmedOrNull_of_trim {s : Str} (hs : s ≠ []) (h : Ecma.trim s = s) :
    trimmedOrNull s = some s := by
  simp [trimmedOrNull, h, hs]

/-- A trimmed text stands as it is, whatever follows. -/
theorem trimStart_append {s : Str} (hs : s ≠ []) (h : Ecma.trim s = s) (tail : Str) :
    trimStart (s ++ tail) = s ++ tail := by
  cases s with
  | nil => exact absurd rfl hs
  | cons u s =>
    have hu : Ecma.isSpace u = false := by
      have := List.head?_dropWhile_not Ecma.isSpace (u :: s)
      rw [← trimStart, trimStart_of_trim h] at this
      simpa using this
    rw [trimStart, List.cons_append, List.dropWhile_cons_of_neg (by simp [hu])]

theorem scanAuqNotes_printed {pair : AuqPair} (h : pair.Plain) {tail : Str}
    (htail : Follows tail) :
    scanAuqNotes (printNotes pair.notes ++ tail) = (pair.notes, tail) := by
  unfold scanAuqNotes
  cases hnotes : pair.notes with
  | none =>
    rcases htail with rfl | ⟨r, rfl⟩
    · rfl
    · rw [if_neg]
      · rfl
      · simp [printNotes, trimStart, pairSeparator_eq, Ecma.isSpace, units]
  | some notes =>
    obtain ⟨hne, htrim, hclear⟩ := h.notes notes hnotes
    have hstart : trimStart (printNotes (some notes) ++ tail) =
        units "notes:" ++ (unit ' ' :: (notes ++ tail)) := rfl
    have hafter : trimStart (unit ' ' :: (notes ++ tail)) = notes ++ tail :=
      trimStart_append hne htrim tail
    dsimp only
    rw [hstart, if_pos (List.isPrefixOf_iff_prefix.mpr (List.prefix_append ..)), List.drop_left,
      hafter]
    rcases htail with rfl | ⟨r, rfl⟩
    · rw [List.append_nil, breakBefore_none hclear]
      exact congrArg (·, []) (trimmedOrNull_of_trim hne htrim)
    · rw [breakBefore_separator hclear (getLast?_of_trim htrim)]
      exact congrArg (·, _) (trimmedOrNull_of_trim hne htrim)

theorem scanPair_printed {pair : AuqPair} (h : pair.Plain) {tail : Str} (htail : Follows tail) :
    scanPair (printPair pair ++ tail) = some (some pair, tail.drop 2) := by
  have hopen : breakBefore [unit '"'] (printPair pair ++ tail) =
      some ([], unit '"' :: (pair.question ++
        unit '"' :: unit '=' :: (printAnswer pair.answer ++ (printNotes pair.notes ++ tail)))) := by
    simp [printPair, breakBefore, units, unit]
  have hclose := breakBefore_quote h.question
    (r := unit '=' :: (printAnswer pair.answer ++ (printNotes pair.notes ++ tail)))
  have hnext : (match breakBefore pairSeparator tail with
      | none => []
      | some (_, next) => next.drop 2) = tail.drop 2 := by
    rcases htail with rfl | ⟨r, rfl⟩
    · rfl
    · rw [← List.nil_append (pairSeparator ++ r),
        breakBefore_separator (by simp [pairSeparator_eq]) (by simp)]
      rfl
  unfold scanPair
  rw [hopen]
  simp only [Option.bind_eq_bind, Option.bind_some, List.tail_cons]
  rw [hclose]
  simp only [Option.bind_some, List.tail_cons, List.head?_cons, if_true]
  rw [scanAuqAnswer_printed _ h.answer]
  simp only [Option.bind_some]
  rw [scanAuqNotes_printed h htail, hnext]

theorem parsePairs_nil : parsePairs [] = [] := by
  rw [parsePairs]
  rfl

theorem parsePairs_pair {rest after : Str} {pair : AuqPair}
    (h : scanPair rest = some (some pair, after)) :
    parsePairs rest = pair :: parsePairs after := by
  rw [parsePairs]
  split
  · rename_i hnone
    rw [hnone] at h
    cases h
  · rename_i hsome
    rw [hsome] at h
    cases h
    rfl

theorem parsePairs_printed {pairs : List AuqPair} (h : ∀ pair ∈ pairs, pair.Plain) :
    parsePairs (printPairs pairs) = pairs := by
  induction pairs with
  | nil => exact parsePairs_nil
  | cons pair pairs ih =>
    have hpair := h pair List.mem_cons_self
    have ih := ih fun q hq => h q (List.mem_cons_of_mem _ hq)
    cases pairs with
    | nil =>
      have hscan := scanPair_printed hpair (.inl rfl)
      rw [List.append_nil] at hscan
      rw [printPairs, List.map_singleton, joinSep, parsePairs_pair hscan]
      exact congrArg (pair :: ·) parsePairs_nil
    | cons next pairs =>
      -- the separator takes the next pair's opening quote along
      have hsep : units ", " ++ printPairs (next :: pairs) =
          pairSeparator ++ (printPairs (next :: pairs)).tail := by
        cases pairs <;> rfl
      have hscan := scanPair_printed hpair (.inr ⟨_, hsep⟩)
      rw [← List.append_assoc] at hscan
      refine (parsePairs_pair hscan).trans (congrArg (pair :: ·) ?_)
      exact ih

/-- What `parseAskUserQuestion` reads when the prefix and the trailer leave printed pairs. -/
theorem parse_printed {content : Str} {pairs : List AuqPair} (h : ∀ pair ∈ pairs, pair.Plain)
    (hbody : auqBodyOf content = some (printPairs pairs)) :
    parseAskUserQuestion content = pairs := by
  rw [parseAskUserQuestion, hbody]
  exact parsePairs_printed h

end OpenBrain.Server.Distill
