import OpenBrain.Core.Matcher
import OpenBrain.Provider.Policy.ShellWords

/-!
# The patterns of the safety blocks (`openbrain_provider/policy_safety.py`)
-/
namespace OpenBrain.Provider.Policy
open OpenBrain.Core OpenBrain.Core.Py

/-! ## Searching -/

/-- `re.search` -/
def search (m : Matcher UInt16) : Str → Bool
  | [] => !(m []).isEmpty
  | u :: text => !(m (u :: text)).isEmpty || search m text

/-- Somewhere behind a character of a class. -/
def searchAfter (lead : UInt16 → Bool) (m : Matcher UInt16) : Str → Bool
  | [] => false
  | u :: text => (lead u && !(m text).isEmpty) || searchAfter lead m text

/-- `(^|[…])` and a pattern behind it. -/
def searchFrom (lead : UInt16 → Bool) (m : Matcher UInt16) (text : Str) : Bool :=
  !(m text).isEmpty || searchAfter lead m text

/-- `(?:m)*` of a matcher that takes something, as often as the first argument says at most. -/
def repeated (m : Matcher UInt16) : Nat → Matcher UInt16
  | 0 => fun s => [s]
  | n + 1 => fun s => s :: (m s).flatMap (repeated m n)

def star (m : Matcher UInt16) : Matcher UInt16 := fun s => repeated m s.length s

/-- `(?!m)` -/
def notAhead (m : Matcher UInt16) : Matcher UInt16 := fun s => if (m s).isEmpty then [s] else []

def oneOf (words : List String) : Matcher UInt16 := fun s =>
  words.flatMap fun word => Matcher.lit (units word) s

/-- `$`, which stands in front of a last line break too. -/
def atEnd : Matcher UInt16 := fun s => if s = [] ∨ s = [0x0A] then [s] else []

/-- `(?:/|$)` -/
def slashOrEnd : Matcher UInt16 := .alt (.lit [unit '/']) atEnd

/-- `(?:[…]|$)` -/
def classOrEnd (p : UInt16 → Bool) : Matcher UInt16 := .alt (.one p) atEnd

def spaces : Matcher UInt16 := .many1 isSpace

def nonSpaces : Matcher UInt16 := .many1 fun u => !isSpace u

/-- The small letter a character is under `IGNORECASE`, as far as the patterns' letters go. -/
def foldCase (u : UInt16) : UInt16 :=
  if unit 'A' ≤ u ∧ u ≤ unit 'Z' then u + 0x20
  else if u = 0x130 ∨ u = 0x131 then unit 'i'
  else if u = 0x17F then unit 's'
  else if u = 0x212A then unit 'k'
  else u

/-- A literal under `IGNORECASE`. -/
def caseless (word : String) : Matcher UInt16 :=
  .all ((units word).map fun c => .one fun u => foldCase u == c)

/-- `[\s;&|()]` -/
def isLead (u : UInt16) : Bool := isSpace u || (units ";&|()").contains u

/-! ## The patterns -/

/-- mirrors policy_safety.py:97-101 -/
def TMP_ANYWHERE : Str → Bool :=
  search (.alt (.all [.opt (.lit (units "/private")), .lit (units "/tmp/")])
    (.lit (units "/var/tmp/")))

def TMP_FILE_PATH (path : Str) : Bool :=
  !(Matcher.alt
    (.all [.lit (units "/"), .opt (.lit (units "private/")), .lit (units "tmp"), slashOrEnd])
    (.all [.lit (units "/var/tmp"), slashOrEnd]) path).isEmpty

/-- mirrors policy_safety.py:105-126 -/
def GIT_RESET_HARD : Str → Bool :=
  searchFrom isLead
    (.all [caseless "git", spaces, caseless "reset", spaces, caseless "--hard", classOrEnd isSpace])

def GIT_CHECKOUT_DISCARD : Str → Bool :=
  searchFrom isLead
    (.all [caseless "git", spaces, caseless "checkout", spaces, caseless "--", classOrEnd isSpace])

def GIT_SWITCH_PROTECTED : Str → Bool :=
  searchFrom isLead
    (.all [caseless "git", spaces, .alt (caseless "checkout") (caseless "switch"), spaces,
      .alt (caseless "main") (caseless "master"), classOrEnd isSpace])

def CLAUDE_WORKTREE : Str → Bool :=
  searchFrom isLead
    (.all [.lit (units "claude"), spaces, .many fun u => u != unit '#' && u != 0x0A,
      .lit (units "--worktree"), classOrEnd fun u => u == unit '=' || isSpace u])

def GH_PR_MERGE : Str → Bool :=
  searchFrom isLead
    (.all [.lit (units "gh"), spaces, .lit (units "pr"), spaces, .lit (units "merge"),
      classOrEnd isSpace])

def GH_MERGE_AUTOMATIC : Str → Bool :=
  searchFrom isSpace (.all [oneOf ["--admin", "--auto"], classOrEnd isSpace])

def GIT_MUTATES_HISTORY : Str → Bool :=
  searchFrom isLead
    (.all [caseless "git",
      star (.all [spaces, .lit (units "-"), nonSpaces, .opt (.all [spaces, nonSpaces])]), spaces,
      .alt (caseless "commit") (caseless "push"), classOrEnd isSpace])

/-- mirrors policy_safety.py:172-175 -/
def GENERATED_DIR : Matcher UInt16 :=
  oneOf ["~/.codex/generated_images/", "/home/user/.codex/generated_images/",
    "$HOME/.codex/generated_images/", "$\x7bHOME\x7d/.codex/generated_images/"]

/-- Behind what writes. -/
def intoGenerated : Matcher UInt16 :=
  .all [.many fun u => u != 0x0A && u != unit ';' && u != unit '|', GENERATED_DIR]

section Words
variable (wordChar : UInt16 → Bool)

/-- `\b` behind a word. -/
def wordEnd : Matcher UInt16 := fun s => if s.head?.any wordChar then [] else [s]

def generatedWriter : Matcher UInt16 :=
  .all [oneOf ["cp", "mv", "rsync", "curl", "wget", "touch", "mkdir", "install", "tee", "dd"],
    wordEnd wordChar, intoGenerated]

/-- `wordChar` is the `\w` on whose edge a `\b` stands. mirrors policy_safety.py:176-179 -/
def WRITES_INTO_GENERATED (text : Str) : Bool :=
  search (.all [oneOf [">", ">>"], intoGenerated]) text ||
    searchFrom (fun u => !wordChar u) (generatedWriter wordChar) text

end Words

def isQuoteMark (u : UInt16) : Bool := u == unit '"' || u == unit '\''

/-- `["']?` -/
def quoteMark : Matcher UInt16 := .opt (.one isQuoteMark)

/-- `[^\s"']+` -/
def operandText : Matcher UInt16 := .many1 fun u => !isSpace u && !isQuoteMark u

/-- mirrors policy_safety.py:180-183 -/
def GENERATED_EGRESS (text : Str) : Bool :=
  !(Matcher.all [.many isSpace, oneOf ["cp", "mv"], spaces, .opt (.all [.lit (units "--"), spaces]),
    quoteMark, GENERATED_DIR, operandText, quoteMark, spaces, quoteMark,
    notAhead (.all [.lit (units "/home/user/.codex"), slashOrEnd]), .lit (units "/"), operandText,
    quoteMark, .many isSpace, atEnd] text).isEmpty

end OpenBrain.Provider.Policy
