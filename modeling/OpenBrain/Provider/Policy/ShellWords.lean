import OpenBrain.Core.PyJson
import OpenBrain.Core.Result
import OpenBrain.Core.Shlex

/-!
# Commands and the directories they run in (`openbrain_provider/policy_safety.py`)

The gate reads a command text into argument vectors and the separators behind them
(`shell_commands`), without the bodies of its heredocs, and follows the `cd`s to the directory of
each `git` (`history_mutators`).
-/
namespace OpenBrain.Provider.Policy
open OpenBrain.Core OpenBrain.Core.Py

/-- The exceptions a call can raise. -/
inductive Raised where
  | value
  | index
  | runtime
  | os
  deriving DecidableEq

/-! ## Words -/

/-- mirrors policy_safety.py:349 -/
def QUOTED_NEWLINE : Str := [0, unit 'n', unit 'l', 0]

/-- A quotation that is closed ends at the next mark of its kind; `mark` is that of the one the text
stands in. mirrors policy_safety.py:350-357 -/
def protect_quoted_newlines (mark : Option UInt16) : Str → Str
  | [] => []
  | u :: text =>
    match mark with
    | none =>
      u :: protect_quoted_newlines (if Shlex.isQuote u ∧ u ∈ text then some u else none) text
    | some mark =>
      if u = mark then u :: protect_quoted_newlines none text
      else (if u = 0x0A then QUOTED_NEWLINE else [u]) ++ protect_quoted_newlines (some mark) text

/-- `word.replace(_QUOTED_NEWLINE, "\n")` -/
def restore_newlines : Str → Str
  | a :: b :: c :: d :: word =>
    if [a, b, c, d] = QUOTED_NEWLINE then 0x0A :: restore_newlines word
    else a :: restore_newlines (b :: c :: d :: word)
  | word => word

/-- mirrors policy_safety.py:362-367 -/
def shellLexer (posix : Bool) : Shlex.Config where
  posix
  whitespace := (units " \t\r").contains
  punctuation := (units ";&|<>\n").contains
  comment := (· == unit '#')

/-- The lexer of `shlex.split`. -/
def splitLexer : Shlex.Config where
  posix := true
  whitespace := (units " \t\r\n").contains
  punctuation := fun _ => false
  comment := fun _ => false

def ofSplit : Option (List Str) → Except Raised (List Str)
  | some words => .ok words
  | none => .error .value

/-- mirrors policy_safety.py:360-368 -/
def shell_words (posix : Bool) (text : Str) : Except Raised (List Str) :=
  (ofSplit (Shlex.split (shellLexer posix) (protect_quoted_newlines none text))).map
    (List.map restore_newlines)

/-! ## Heredocs -/

def startsWith (u : UInt16) (word : Str) : Bool := word.head? == some u

/-- `word.rsplit("/", 1)[-1]` -/
def lastPart (word : Str) : Str := word.rtakeWhile (· ≠ unit '/')

/-- mirrors policy_safety.py:374-376 -/
def HEREDOC_SCRIPT_READERS : List Str := ["sh", "bash", "zsh", "dash", "ksh"].map units

structure HeredocSpec where
  delimiter : Str
  strips_tabs : Bool
  keep_body : Bool
  deriving DecidableEq

/-- The words behind a `<<`. -/
def rawDelimiters (words : List Str) : List Str :=
  (words.zip words.tail).filterMap fun (word, next) => if word = units "<<" then some next else none

/-- The text behind the `-` of a delimiter that has one. -/
def undashed (raw : Str) : Str := if startsWith (unit '-') raw then raw.drop 1 else raw

/-- mirrors policy_safety.py:393-398 -/
def heredoc_spec (keep_body : Bool) (raw : Str) : Except Raised HeredocSpec :=
  match Shlex.split splitLexer (undashed raw) with
  | none => .error .value
  | some [] => .error .index
  | some (delimiter :: _) => .ok ⟨delimiter, startsWith (unit '-') raw, keep_body⟩

def keepsBody (words : List Str) : Bool :=
  words.any fun word => HEREDOC_SCRIPT_READERS.contains (lastPart word)

/-- mirrors policy_safety.py:379-399 -/
def heredoc_specs (line : Str) : Except Raised (List HeredocSpec) := do
  let words ← shell_words false line
  (rawDelimiters words).mapM (heredoc_spec (keepsBody words))

/-- Where `str.splitlines` ends a line. -/
def isLineBoundary (u : UInt16) : Bool :=
  u == 0x0A || u == 0x0B || u == 0x0C || u == 0x0D || u == 0x1C || u == 0x1D || u == 0x1E ||
    u == 0x85 || u == 0x2028 || u == 0x2029

/-- The first line of a text begins with the character. -/
def prolong (u : UInt16) : List Str → List Str
  | [] => [[u]]
  | line :: lines => (u :: line) :: lines

/-- `text.splitlines()` -/
def splitlines : Str → List Str
  | [] => []
  | [u] => if isLineBoundary u then [[]] else [[u]]
  | u :: v :: text =>
    if u = 0x0D ∧ v = 0x0A then [] :: splitlines text
    else if isLineBoundary u then [] :: splitlines (v :: text)
    else prolong u (splitlines (v :: text))

/-- The line ends the body of the heredoc. mirrors policy_safety.py:415-418 -/
def HeredocSpec.closedBy (spec : HeredocSpec) (line : Str) : Bool :=
  (if spec.strips_tabs then line.dropWhile (· = 0x09) else line) == spec.delimiter

/-- The lines that stay; `pending` are the heredocs whose bodies are still to come.
mirrors policy_safety.py:412-422 -/
def keptLines : List HeredocSpec → List Str → Except Raised (List Str)
  | _, [] => .ok []
  | spec :: pending, line :: lines =>
    if spec.closedBy line then keptLines pending lines
    else if spec.keep_body then (keptLines (spec :: pending) lines).map (line :: ·)
    else keptLines (spec :: pending) lines
  | [], line :: lines => do
    let specs ← heredoc_specs line
    let kept ← keptLines specs lines
    return line :: kept

/-- mirrors policy_safety.py:402-422 -/
def without_heredoc_bodies (command : Str) : Except Raised Str :=
  (keptLines [] (splitlines command)).map (joinSep [0x0A])

/-! ## Commands -/

/-- mirrors policy_safety.py:139-141 -/
def SHELL_SEPARATORS : List Str := [";", "|", "|&", "&", "&&", "||", "\n"].map units

/-- An argument vector and the separator behind it. -/
abbrev Command := List Str × Option Str

/-- mirrors policy_safety.py:428-439 -/
def groupCommands (current : List Str) : List Str → List Command
  | [] => if current = [] then [] else [(current, none)]
  | word :: words =>
    if word ∉ SHELL_SEPARATORS then groupCommands (current ++ [word]) words
    else if current = [] then groupCommands [] words
    else (current, some word) :: groupCommands [] words

/-- mirrors policy_safety.py:425-439 -/
def shell_commands (command : Str) : Except Raised (List Command) := do
  let text ← without_heredoc_bodies command
  let words ← shell_words true text
  return groupCommands [] words

/-- mirrors policy_safety.py:145-168 -/
def PASS_THROUGH_PREFIXES : List Str := ["command", "exec", "nohup"].map units

def ENV_VALUE_OPTIONS : List Str := ["-u", "--unset", "-C", "--chdir"].map units

def SUDO_VALUE_OPTIONS : List Str :=
  ["-C", "-D", "-g", "-h", "-p", "-R", "-T", "-u", "--chdir", "--close-from", "--group", "--host",
    "--other-user", "--prompt", "--role", "--type", "--user"].map units

/-- `"=" in word and not word.startswith("=")` -/
def isAssignment (word : Str) : Bool := word.contains (unit '=') && !startsWith (unit '=') word

/-- Behind the options and assignments of an `env`. mirrors policy_safety.py:451-464 -/
def afterEnv : List Str → List Str
  | [] => []
  | [option] =>
    if isAssignment option || ENV_VALUE_OPTIONS.contains option || startsWith (unit '-') option
    then [] else [option]
  | option :: value :: rest =>
    if isAssignment option then afterEnv (value :: rest)
    else if ENV_VALUE_OPTIONS.contains option then afterEnv rest
    else if startsWith (unit '-') option then afterEnv (value :: rest)
    else option :: value :: rest

/-- Behind the options of a `sudo`. mirrors policy_safety.py:472-478 -/
def afterSudo : List Str → List Str
  | [] => []
  | [option] => if startsWith (unit '-') option then [] else [option]
  | option :: value :: rest =>
    if !startsWith (unit '-') option then option :: value :: rest
    else if option = units "--" then value :: rest
    else if SUDO_VALUE_OPTIONS.contains option then afterSudo rest
    else afterSudo (value :: rest)

/-- mirrors policy_safety.py:467-468 -/
def afterDashes : List Str → List Str
  | [] => []
  | option :: rest => if option = units "--" then rest else option :: rest

theorem afterEnv_length (argv : List Str) : (afterEnv argv).length ≤ argv.length := by
  fun_induction afterEnv argv <;> simp_all <;> omega

theorem afterSudo_length (argv : List Str) : (afterSudo argv).length ≤ argv.length := by
  fun_induction afterSudo argv <;> simp_all <;> omega

theorem afterDashes_length (argv : List Str) : (afterDashes argv).length ≤ argv.length := by
  fun_cases afterDashes argv <;> simp

/-- mirrors policy_safety.py:442-480 -/
def unwrapped_argv : List Str → List Str
  | [] => []
  | word :: rest =>
    if isAssignment word then unwrapped_argv rest
    else if word = units "env" then unwrapped_argv (afterEnv rest)
    else if PASS_THROUGH_PREFIXES.contains word then unwrapped_argv (afterDashes rest)
    else if word = units "sudo" then unwrapped_argv (afterSudo rest)
    else word :: rest
termination_by argv => argv.length
decreasing_by
  · simp
  · have := afterEnv_length rest
    rw [List.length_cons]
    omega
  · have := afterDashes_length rest
    rw [List.length_cons]
    omega
  · have := afterSudo_length rest
    rw [List.length_cons]
    omega

/-! ## Directories -/

/-- A `pathlib.Path`: its root (none, `/` or `//`) and the parts behind it. -/
structure Path where
  root : Str
  tail : List Str
  deriving DecidableEq

namespace Path

def pieces (text : Str) : List Str := text.splitOn (unit '/')

/-- `Path(text)` -/
def parse (text : Str) : Path where
  root :=
    if startsWith (unit '/') text then
      if startsWith (unit '/') (text.drop 1) ∧ !startsWith (unit '/') (text.drop 2) then units "//"
      else units "/"
    else []
  tail := (pieces text).filter fun part => part ≠ [] ∧ part ≠ units "."

def is_absolute (path : Path) : Bool := path.root ≠ []

/-- `base / path` -/
def join (base path : Path) : Path :=
  if path.is_absolute then path else ⟨base.root, base.tail ++ path.tail⟩

/-- `str(path)` -/
def str (path : Path) : Str :=
  if path.root = [] ∧ path.tail = [] then units "."
  else path.root ++ joinSep (units "/") path.tail

end Path

/-- What the gate asks the machine it runs on. -/
structure World where
  /-- `os.getcwd()`; `none` is an `OSError`. -/
  getcwd : Option Str
  /-- `os.path.expanduser` of a part that starts with a tilde: of an unknown user it is the part
  itself, and the account lookup raises on a name it cannot pass on. -/
  expanduser : Str → Except Raised Str

variable (w : World)

/-- `path.expanduser()` -/
def Path.expanduser (path : Path) : Except Raised Path :=
  match path.tail with
  | first :: rest =>
    if path.root = [] ∧ startsWith (unit '~') first then do
      let homedir ← w.expanduser first
      if startsWith (unit '~') homedir then throw .runtime
      else return ⟨(Path.parse homedir).root, (Path.parse homedir).tail ++ rest⟩
    else .ok path
  | [] => .ok path

/-- mirrors policy_safety.py:483-486 -/
def resolve_directory (base : Path) (value : Str) : Except Raised Path :=
  ((Path.parse value).expanduser w).map base.join

/-- The operand of a simple `cd`. mirrors policy_safety.py:491-496 -/
def cdOperand (argv : List Str) : Option Str :=
  match unwrapped_argv argv with
  | [] => none
  | word :: rest =>
    if word ≠ units "cd" then none
    else
      match rest.filter (· ≠ units "--") with
      | [operand] => if operand = units "-" then none else some operand
      | _ => none

/-- mirrors policy_safety.py:489-497 -/
def cd_target (argv : List Str) (cwd : Path) : Except Raised (Option Path) :=
  match cdOperand argv with
  | none => .ok none
  | some operand => (resolve_directory w cwd operand).map some

/-- mirrors policy_safety.py:127-129 -/
def GIT_LEADING_VALUE_OPTIONS : List Str :=
  ["-C", "--git-dir", "--work-tree", "--namespace", "-c"].map units

/-- mirrors policy_safety.py:505-517 -/
def gitOperands (cwd : Path) : List Str → Except Raised (List Str × Path)
  | [] => .ok ([], cwd)
  | [word] => if startsWith (unit '-') word then .ok ([], cwd) else .ok ([word], cwd)
  | word :: value :: rest =>
    if !startsWith (unit '-') word then .ok (word :: value :: rest, cwd)
    else if word = units "-C" then do
      let cwd ← resolve_directory w cwd value
      gitOperands cwd rest
    else if GIT_LEADING_VALUE_OPTIONS.contains word then gitOperands cwd rest
    else gitOperands cwd (value :: rest)

/-- mirrors policy_safety.py:500-517 -/
def git_operands (argv : List Str) (cwd : Path) : Except Raised (Option (List Str × Path)) :=
  match unwrapped_argv argv with
  | [] => .ok none
  | word :: rest => if word ≠ units "git" then .ok none else (gitOperands w cwd rest).map some

/-- mirrors policy_safety.py:142-144 -/
def CWD_PRESERVING_SEPARATORS : List (Option Str) :=
  [none, some (units ";"), some (units "&&"), some (units "\n")]

/-! ## The commits and pushes of a command -/

/-- A commit or push as the gate records it. -/
structure Mutator where
  name : Str
  arguments : List Str
  cwd : Path
  deriving DecidableEq

/-- The record of git's operands. mirrors policy_safety.py:560-565 -/
def mutatorOf : Option (List Str × Path) → List Mutator
  | some (name :: arguments, cwd) =>
    if name = units "commit" ∨ name = units "push" then [⟨name, arguments, cwd⟩] else []
  | _ => []

/-- mirrors policy_safety.py:554-566 -/
def mutatorsFrom (cwd : Path) : List Command → Except Raised (List Mutator)
  | [] => .ok []
  | (argv, separator) :: commands => do
    let target ← cd_target w argv cwd
    match target with
    | some target =>
      if CWD_PRESERVING_SEPARATORS.contains separator then mutatorsFrom target commands
      else do
        let parsed ← git_operands w argv cwd
        let mutators ← mutatorsFrom cwd commands
        return mutatorOf parsed ++ mutators
    | none =>
      let parsed ← git_operands w argv cwd
      let mutators ← mutatorsFrom cwd commands
      return mutatorOf parsed ++ mutators

/-- `Path(command_cwd or os.getcwd())` -/
def startDirectory (command_cwd : Str) : Except Raised Path :=
  if command_cwd ≠ [] then .ok (.parse command_cwd)
  else
    match w.getcwd with
    | some cwd => .ok (.parse cwd)
    | none => .error .os

/-- mirrors policy_safety.py:549-566 -/
def history_mutators (command command_cwd : Str) : Except Raised (List Mutator) := do
  let cwd ← startDirectory w command_cwd
  let commands ← shell_commands command
  mutatorsFrom w cwd commands

end OpenBrain.Provider.Policy
