import OpenBrain.Core.Matcher
import OpenBrain.Provider.Gate.CompactCycles
import OpenBrain.Provider.Gate.State
import Mathlib.Data.List.Infix

/-!
# What a blocked session may still run (`gate_shell.py`)

The allowance has two halves: the read-only commands, recognised on the text of the command, and
the maintenance commands, which are parsed into a pipeline of words first. Every parser refuses
what it does not know.
-/
namespace OpenBrain.Provider.Gate
open OpenBrain.Core OpenBrain.Core.Py

def READONLY_BASH : List Str :=
  ["ls", "cat", "head", "tail", "grep", "rg", "egrep", "fgrep", "find", "fd", "wc", "stat",
    "file", "du", "df", "tree", "realpath", "dirname", "basename", "echo", "printf", "pwd",
    "whoami", "id", "date", "hostname", "uname", "which", "type", "printenv", "sort", "uniq",
    "cut", "tr", "column", "jq", "diff", "sed", "awk", "test", "sw_vers", "uuidgen"].map units

def ALWAYS_ALLOWED_TOOLS : List Str :=
  ["read", "grep", "glob", "tasklist", "taskget", "askuserquestion", "skill",
    "toolsearch"].map units

def SHELL_TOOLS : List Str := ["bash", "shell"].map units
def FILE_TOOLS : List Str := ["write", "edit"].map units
def BUN_BINARIES : List Str := ["bun", "/opt/homebrew/bin/bun"].map units
def PROVIDER_EVENTS : List Str := ["session-start", "capture", "checkpoint", "wrap"].map units

/-- mirrors gate_shell.py:148-152 -/
def WRAPPER_CONSOLE_EVENTS : List (Str × Str) :=
  [(units "openbrain-session-start", units "session-start"),
    (units "openbrain-capture-stop", units "capture"),
    (units "openbrain-post-compact", units "session-start")]

def SHELL_BINARIES : List Str :=
  ["sh", "/bin/sh", "bash", "/opt/homebrew/bin/bash", "zsh", "/opt/homebrew/bin/zsh"].map units

def UNSAFE_SHELL_CHARS : List UInt16 := units ";&><" ++ [unit '\x60', unit '$']

/-- What the classification finds on the disk: the settings file, `none` when it cannot be read or
parsed, and which paths are files. -/
structure Disk where
  settings : Option PyJson
  isFile : Str → Bool

/-- mirrors gate_shell.py:163-179 -/
structure ShellGateContext where
  state : SessionState
  gate_script_path : Str
  provider_script_path : Str
  disk : Disk

/-! ## Words -/

/-- mirrors gate_shell.py:182-194 -/
def shell_quote (value : Str) : Str :=
  unit '\'' :: value.flatMap (fun c => if c = unit '\'' then units "'\"'\"'" else [c]) ++
    [unit '\'']

/-- The variables of the loop; `pipeline` is `done` with the open `segment` behind it. -/
structure PipelineParse where
  done : List (List Str)
  segment : List Str
  word : Str
  started : Bool
  quote : Option UInt16

def PipelineParse.start : PipelineParse := ⟨[], [], [], false, none⟩

/-- `if started: pipeline[-1].append(word)` -/
def PipelineParse.endWord (p : PipelineParse) : PipelineParse :=
  if p.started then
    { p with
      segment := p.segment ++ [p.word]
      word := []
      started := false }
  else p

def PipelineParse.push (p : PipelineParse) (s : Str) : PipelineParse :=
  { p with
    word := p.word ++ s
    started := true }

/-- The quote after the unit, the text it adds to the word, and what is left.
mirrors gate_shell.py:281-309 -/
def consume_quoted (quote char : UInt16) (rest : Str) : Option (Option UInt16 × Str × Str) :=
  if char = quote then some (none, [], rest)
  else if quote = unit '"' ∧ (char = unit '$' ∨ char = unit '\x60') then none
  else if quote ≠ unit '"' ∨ char ≠ unit '\\' then some (some quote, [char], rest)
  else
    match rest with
    | [] => none
    | escaped :: rest =>
      if escaped = unit '"' ∨ escaped = unit '\\' then some (some quote, [escaped], rest) else none

/-- One round of the loop, on the unit at the index. mirrors gate_shell.py:228-273 -/
def pipeline_step (p : PipelineParse) (char : UInt16) (rest : Str) :
    Option (PipelineParse × Str) :=
  match p.quote with
  | some quote =>
    (consume_quoted quote char rest).map fun (quote, text, rest) =>
      ({ p.push text with quote := quote }, rest)
  | none =>
    if isSpace char then some (p.endWord, rest)
    else if char = unit '\'' ∨ char = unit '"' then
      some ({ p.push [] with quote := some char }, rest)
    else if char = unit '|' then
      if rest.head? = some (unit '|') ∨ p.endWord.segment = [] then none
      else
        some ({ p.endWord with
          done := p.done ++ [p.endWord.segment]
          segment := [] }, rest)
    else if UNSAFE_SHELL_CHARS.contains char then none
    else if char = unit '\\' then
      match rest with
      | [] => none
      | escaped :: rest => some (p.push (if escaped = unit '\n' then [] else [escaped]), rest)
    else some (p.push [char], rest)

/-- The loop; the first argument bounds its rounds. -/
def pipeline_loop : Nat → PipelineParse → Str → Option PipelineParse
  | _, p, [] => some p
  | 0, _, _ :: _ => none
  | n + 1, p, char :: rest =>
    match pipeline_step p char rest with
    | none => none
    | some (p, rest) => pipeline_loop n p rest

/-- After the loop. -/
def PipelineParse.finish (p : PipelineParse) : Option (List (List Str)) :=
  if p.quote.isSome then none
  else
    let pipeline := p.done ++ [p.endWord.segment]
    if pipeline.all (fun segment => !segment.isEmpty) then some pipeline else none

/-- mirrors gate_shell.py:209-278 -/
def parse_shell_pipeline (command : Str) : Option (List (List Str)) :=
  (pipeline_loop command.length .start command).bind PipelineParse.finish

theorem consume_quoted_shorter {quote char : UInt16} {rest : Str}
    {out : Option UInt16 × Str × Str} (h : consume_quoted quote char rest = some out) :
    out.2.2.length ≤ rest.length := by
  unfold consume_quoted at h
  split at h
  · cases h; rfl
  split at h
  · cases h
  split at h
  · cases h; rfl
  split at h
  · cases h
  split at h
  · cases h; exact Nat.le_succ _
  · cases h

theorem pipeline_step_shorter {p : PipelineParse} {char : UInt16} {rest : Str}
    {out : PipelineParse × Str} (h : pipeline_step p char rest = some out) :
    out.2.length ≤ rest.length := by
  unfold pipeline_step at h
  split at h
  · obtain ⟨q, hq, rfl⟩ := Option.map_eq_some_iff.mp h
    exact consume_quoted_shorter hq
  · split at h
    · cases h; rfl
    split at h
    · cases h; rfl
    split at h
    · split at h
      · cases h
      · cases h; rfl
    split at h
    · cases h
    split at h
    · split at h
      · cases h
      · cases h; exact Nat.le_succ _
    · cases h; rfl

/-- More rounds than units change nothing. -/
theorem pipeline_loop_enough {n : Nat} {p : PipelineParse} {s : Str} (h : s.length ≤ n) :
    pipeline_loop n p s = pipeline_loop s.length p s := by
  induction n using Nat.strongRecOn generalizing p s with
  | ind n ih =>
    cases s with
    | nil => cases n <;> rfl
    | cons char rest =>
      obtain ⟨n, rfl⟩ : ∃ m, n = m + 1 := ⟨n - 1, by simp at h; omega⟩
      simp only [List.length_cons, pipeline_loop]
      cases hstep : pipeline_step p char rest with
      | none => rfl
      | some out =>
        have hle := pipeline_step_shorter hstep
        simp only [List.length_cons] at h
        show pipeline_loop n out.1 out.2 = pipeline_loop rest.length out.1 out.2
        rw [ih n (by omega) (by omega), ih rest.length (by omega) hle]

/-- The parse from here to the end of the command. -/
def parseFrom (p : PipelineParse) (s : Str) : Option PipelineParse := pipeline_loop s.length p s

theorem parseFrom_step {p q : PipelineParse} {char : UInt16} {rest rest' : Str}
    (h : pipeline_step p char rest = some (q, rest')) :
    parseFrom p (char :: rest) = parseFrom q rest' := by
  unfold parseFrom
  rw [List.length_cons, pipeline_loop, h]
  exact pipeline_loop_enough (pipeline_step_shorter h)

/-! ## The settings file -/

def listOf : Option PyJson → List PyJson
  | some (.arr items) => items
  | _ => []

/-- The commands of `settings["hooks"][event][...]["hooks"][...]`, in order. -/
def hook_commands (disk : Disk) : List Str :=
  (entryMembers (Members.get? (entryMembers disk.settings) (units "hooks"))).flatMap fun event =>
    (listOf (some event.2)).flatMap fun event_hook =>
      (listOf (Members.get? (entryMembers (some event_hook)) (units "hooks"))).flatMap fun hook =>
        match Members.get? (entryMembers (some hook)) (units "command") with
        | some (.str command) => [command]
        | _ => []

def isPathUnit (c : UInt16) : Bool := !(isSpace c || c == unit '\'' || c == unit '"')

def isHexUnit (c : UInt16) : Bool :=
  decide (unit '0' ≤ c ∧ c ≤ unit '9' ∨ unit 'a' ≤ c ∧ c ≤ unit 'f')

def isConsoleUnit (c : UInt16) : Bool :=
  decide (unit 'a' ≤ c ∧ c ≤ unit 'z' ∨ unit '0' ≤ c ∧ c ≤ unit '9' ∨ c = unit '-')

/-- `_ACTIVATED_PROVIDER_PATTERN`: the group, and the script behind it. -/
def ACTIVATED_PROVIDER_PATTERN : List (Matcher UInt16) :=
  [.all [.many1 isPathUnit, .lit (units "/adapters/versions/sha256-"), .times isHexUnit 64],
    .all [.lit (units "/"),
      .alt (.lit (units "context-budget-gate")) (.lit (units "ob-memory-provider")),
      .lit (units ".ts")]]

/-- `_HOOK_WRAPPER_PATTERN`: the wrapper, the space and the console script. -/
def HOOK_WRAPPER_PATTERN : List (Matcher UInt16) :=
  [.all [.many1 isPathUnit, .lit (units "/openbrain-hook-env")], .many1 isSpace,
    .all [.lit (units "openbrain-"), .many1 isConsoleUnit]]

/-- `if x not in xs: xs.append(x)` -/
def appendNew {α : Type} [BEq α] (xs : List α) (x : α) : List α :=
  if xs.contains x then xs else xs ++ [x]

theorem mem_appendAll {α : Type} [BEq α] {xs acc : List α} {x : α}
    (h : x ∈ xs.foldl appendNew acc) : x ∈ acc ∨ x ∈ xs := by
  induction xs generalizing acc with
  | nil => exact .inl h
  | cons y xs ih =>
    rcases ih h with hacc | hxs
    · unfold appendNew at hacc
      split at hacc
      · exact .inl hacc
      · rcases List.mem_append.mp hacc with hacc | hy
        · exact .inl hacc
        · exact .inr (List.mem_cons.mpr (.inl (List.mem_singleton.mp hy)))
    · exact .inr (List.mem_cons_of_mem _ hxs)

/-- mirrors gate_shell.py:312-346, 410-423 -/
def activated_provider_script_paths (disk : Disk) : List Str :=
  let candidates := (hook_commands disk).flatMap fun command =>
    (Matcher.findAll ACTIVATED_PROVIDER_PATTERN command.length command).filterMap fun texts =>
      texts.head?.map fun group => group ++ units "/ob-memory-provider.ts"
  (candidates.filter disk.isFile).foldl appendNew []

/-- mirrors gate_shell.py:349-407 -/
def wrapper_console_invocations (disk : Disk) : List (Str × Str) :=
  let found := (hook_commands disk).flatMap fun command =>
    (Matcher.findAll HOOK_WRAPPER_PATTERN command.length command).filterMap fun
      | [wrapper, _, console] => some (wrapper, console)
      | _ => none
  (found.filter fun pair => (WRAPPER_CONSOLE_EVENTS.lookup pair.2).isSome && disk.isFile pair.1)
    |>.foldl appendNew []

theorem activated_script {disk : Disk} {path : Str}
    (h : path ∈ activated_provider_script_paths disk) :
    ∃ group, path = group ++ units "/ob-memory-provider.ts" := by
  rcases mem_appendAll h with h | h
  · cases h
  · obtain ⟨command, -, hpath⟩ := List.mem_flatMap.mp (List.mem_filter.mp h).1
    obtain ⟨texts, -, hhead⟩ := List.mem_filterMap.mp hpath
    obtain ⟨group, -, rfl⟩ := Option.map_eq_some_iff.mp hhead
    exact ⟨group, rfl⟩

theorem wrapper_console {disk : Disk} {pair : Str × Str}
    (h : pair ∈ wrapper_console_invocations disk) :
    (WRAPPER_CONSOLE_EVENTS.lookup pair.2).isSome = true := by
  rcases mem_appendAll h with h | h
  · cases h
  · exact (Bool.and_eq_true_iff.mp (List.mem_filter.mp h).2).1

/-! ## Maintenance commands -/

/-- `re.search(r"[>`;&|]|\$\(", command)` -/
def chains (command : Str) : Bool :=
  command.any (fun c => (units ">;&|" ++ [unit '\x60']).contains c) ||
    decide (units "$(" <:+: command)

def isQuoteUnit (c : UInt16) : Bool := c == unit '\'' || c == unit '"'

/-- `(?:\s|$).*$` with `DOTALL` -/
def wordEnd : Matcher UInt16
  | [] => [[]]
  | c :: _ => if isSpace c then [[]] else []

def maintenancePattern (script_name required_event : Str) : Matcher UInt16 :=
  .all [.many isSpace, .alt (.lit (units "bun")) (.lit (units "/opt/homebrew/bin/bun")),
    .opt (.all [.many1 isSpace, .lit (units "run")]), .many1 isSpace, .opt (.one isQuoteUnit),
    .many isPathUnit, .lit (unit '/' :: script_name), .opt (.one isQuoteUnit), .many1 isSpace,
    .many fun _ => true, .lit (units "--event"), .many1 isSpace, .lit required_event, wordEnd]

/-- mirrors gate_shell.py:498-519 -/
def is_maintenance_command (command script_name required_event : Str) : Bool :=
  !chains command && !(maintenancePattern script_name required_event command).isEmpty

/-- A `run` after the interpreter is skipped. -/
def skipRun : List Str → List Str
  | word :: words => if word = units "run" then words else word :: words
  | [] => []

/-- The word after the first `--event`. -/
def eventWord (words : List Str) : Option Str :=
  ((words.dropWhile fun word => word != units "--event").drop 1).head?

/-- mirrors gate_shell.py:522-554 -/
def is_gate_repair_command (command required_event gate_script_path : Str) : Bool :=
  match parse_shell_pipeline command with
  | some [binary :: words] =>
    if !BUN_BINARIES.contains binary then false
    else
      match skipRun words with
      | path :: words =>
        if path ≠ gate_script_path then false else eventWord words == some required_event
      | [] => false
  | _ => false

/-! ## Provider invocations -/

/-- mirrors gate_shell.py:557-575 -/
def provider_events_allowed_by_state (state : SessionState) : List Str :=
  if state.readback_required then [units "session-start"]
  else if state.capture_required then ["capture", "checkpoint", "wrap"].map units
  else ["session-start", "capture", "checkpoint", "wrap"].map units

inductive ProviderFlag where
  | runtime | event
  deriving DecidableEq

/-- mirrors gate_shell.py:745-762 -/
def parse_flag : List Str → Option (ProviderFlag × Str × List Str)
  | [] => none
  | word :: words =>
    let named (name : ProviderFlag) (flag : Str) : Option (ProviderFlag × Str × List Str) :=
      match decide (word = flag), words with
      | true, value :: rest => some (name, value, rest)
      | _, _ =>
        if (flag ++ units "=").isPrefixOf word then
          some (name, word.drop (flag.length + 1), words)
        else none
    (named .runtime (units "--runtime")).or (named .event (units "--event"))

/-- The flags from here on, given those already read; the first argument bounds their number.
mirrors gate_shell.py:710-742 -/
def provider_flags_loop (runtime event : Str) : Nat → List Str → Option (Str × Str)
  | _, [] => some (runtime, event)
  | 0, _ :: _ => none
  | n + 1, words =>
    match parse_flag words with
    | none => none
    | some (.runtime, value, rest) =>
      if runtime ≠ [] then none else provider_flags_loop value event n rest
    | some (.event, value, rest) =>
      if event ≠ [] then none else provider_flags_loop runtime value n rest

/-- mirrors gate_shell.py:710-742 -/
def parse_provider_flags (words : List Str) : Option Str :=
  match provider_flags_loop [] [] words.length words with
  | none => none
  | some (runtime, event) =>
    if runtime ≠ units "claude" ∨ !PROVIDER_EVENTS.contains event then none else some event

/-- mirrors gate_shell.py:676-707 -/
def parse_wrapper_invocation (words : List Str) (context : ShellGateContext) : Option Str :=
  let words :=
    match words with
    | word :: rest => if SHELL_BINARIES.contains word then rest else words
    | [] => []
  match words with
  | [wrapper, console] =>
    if (wrapper_console_invocations context.disk).contains (wrapper, console) then
      WRAPPER_CONSOLE_EVENTS.lookup console
    else none
  | _ => none

/-- mirrors gate_shell.py:645-673 -/
def parse_provider_invocation (words : List Str) (context : ShellGateContext) : Option Str :=
  match parse_wrapper_invocation words context with
  | some event => some event
  | none =>
    match words with
    | [] => none
    | binary :: words =>
      if !BUN_BINARIES.contains binary then none
      else
        match skipRun words with
        | [] => none
        | path :: words =>
          if path ≠ context.provider_script_path ∧
              !(activated_provider_script_paths context.disk).contains path then none
          else parse_provider_flags words

/-- `payload.get(key) == value` -/
def payloadIs (payload : Items) (key value : Str) : Bool :=
  match Members.get? payload key with
  | some (.str found) => found == value
  | _ => false

/-- `resolve` is the project of `resolve_development_scope`. mirrors gate_shell.py:604-642 -/
def valid_provider_payload (resolve : Str → Option Str) (words : List Str) (provider_event : Str)
    (state : SessionState) : Bool :=
  match words with
  | [program, format, text] =>
    if program ≠ units "printf" ∨ format ≠ units "%s" then false
    else
      match loadsText text with
      | some (.obj payload) =>
        if payloadIs payload (units "session_id") state.session_id = false then false
        else
          match Members.get? payload (units "cwd") with
          | some (.str cwd) =>
            if resolve cwd ≠ some state.project then false
            else if provider_event ≠ units "session-start" then
              match Members.get? payload (units "distilled") with
              | some (.obj _) => true
              | _ => false
            else
              payloadIs payload (units "source") (units "compact") &&
                !state.readback_correlation_id.isEmpty &&
                payloadIs payload (units "correlation_id") state.readback_correlation_id
          | _ => false
      | _ => false
  | _ => false

/-- mirrors gate_shell.py:578-601 -/
def is_direct_provider_command (resolve : Str → Option Str) (command : Str)
    (context : ShellGateContext) : Bool :=
  let allowed := provider_events_allowed_by_state context.state
  match parse_shell_pipeline command with
  | some [segment] =>
    match parse_provider_invocation segment context with
    | none => false
    | some event => allowed.contains event && event != units "session-start"
  | some [producer, segment] =>
    match parse_provider_invocation segment context with
    | none => false
    | some event =>
      allowed.contains event && valid_provider_payload resolve producer event context.state
  | _ => false

/-! ## Read-only commands -/

/-- The text before the first separator grows at the front. -/
def prependUnit (c : UInt16) : List Str → List Str
  | [] => [[c]]
  | segment :: segments => (c :: segment) :: segments

/-- `re.split(r"\|\||&&|[;|&]", command)` -/
def splitChain : Str → List Str
  | [] => [[]]
  | [c] => if (units ";|&").contains c then [[], []] else [[c]]
  | c :: d :: rest =>
    if c = d ∧ (c = unit '|' ∨ c = unit '&') then [] :: splitChain rest
    else if (units ";|&").contains c then [] :: splitChain (d :: rest)
    else prependUnit c (splitChain (d :: rest))

/-- The words of a text, given the one being read. -/
def splitLoop (word : Str) : Str → List Str
  | [] => if word.isEmpty then [] else [word]
  | c :: s =>
    if isSpace c then (if word.isEmpty then [] else [word]) ++ splitLoop [] s
    else splitLoop (word ++ [c]) s

/-- `text.split()` -/
def splitWords (text : Str) : List Str := splitLoop [] text

/-- The options before a git subcommand are skipped. mirrors gate_shell.py:826-837 -/
def gitSubcommand : List Str → List Str
  | [] => []
  | [arg] => if arg = units "--no-pager" then [] else [arg]
  | arg :: following :: rest =>
    if arg = units "--no-pager" then gitSubcommand (following :: rest)
    else if arg = units "-C" ∧ following.head? ≠ some (unit '-') then gitSubcommand rest
    else arg :: following :: rest

def READONLY_GIT : List Str :=
  ["status", "log", "diff", "show", "rev-parse", "ls-files"].map units
def LISTING_FLAGS : List Str :=
  ["-a", "--all", "-r", "--remotes", "-v", "-vv", "--show-current"].map units

/-- mirrors gate_shell.py:816-842 -/
def is_read_only_git (args : List Str) : Bool :=
  match gitSubcommand args with
  | [] => false
  | subcommand :: flags =>
    if subcommand ≠ units "branch" then READONLY_GIT.contains subcommand
    else flags.all LISTING_FLAGS.contains

/-- mirrors gate_shell.py:787-813 -/
def is_read_only_segment (segment : Str) : Bool :=
  match splitWords segment with
  | [] => false
  | head :: rest =>
    if head = units "git" then is_read_only_git rest
    else if !READONLY_BASH.contains head then false
    else if head = units "sed" ∧ rest.any (fun arg =>
        (units "-i").isPrefixOf arg || (units "--in-place").isPrefixOf arg) then false
    else if head = units "find" ∧ rest.any
        ((["-delete", "-exec", "-execdir", "-fprint"].map units).contains) then false
    else true

/-- `re.search(r"[>`]|\$\(", command)` -/
def redirectsOrSubstitutes (command : Str) : Bool :=
  command.any (fun c => c == unit '>' || c == unit '\x60') || decide (units "$(" <:+: command)

/-- mirrors gate_shell.py:765-784 -/
def is_read_only_bash (command : Str) : Bool :=
  if command.isEmpty || redirectsOrSubstitutes command then false
  else
    let segments := ((splitChain command).map strip).filter fun segment => !segment.isEmpty
    !segments.isEmpty && segments.all is_read_only_segment

/-! ## The decision -/

/-- The texts `str(tool_input.get(key) or "")` gives. -/
structure ToolInput where
  file_path : Str
  command : Str

/-- The decision on a command. mirrors gate_shell.py:487-495 -/
def is_checkpoint_command (resolve : Str → Option Str) (command : Str)
    (context : ShellGateContext) : Bool :=
  let command := strip command
  is_direct_provider_command resolve command context ||
    is_maintenance_command command (units "context-budget-gate.ts") (units "checkpoint-done") ||
    is_gate_repair_command command (units "repair-enter") context.gate_script_path ||
    is_gate_repair_command command (units "repair-exit") context.gate_script_path ||
    is_maintenance_command command (units "policy-refresh-gate.ts") (units "refresh") ||
    is_read_only_bash command

/-- mirrors gate_shell.py:464-495 -/
def is_checkpoint_activity (resolve : Str → Option Str) (tool_name : Str) (tool_input : ToolInput)
    (context : ShellGateContext) : Bool :=
  if ALWAYS_ALLOWED_TOOLS.contains tool_name then true
  else if FILE_TOOLS.contains tool_name then
    decide (units "/.claude/projects/" <:+: tool_input.file_path) &&
      decide (units "/memory/" <:+: tool_input.file_path)
  else if !SHELL_TOOLS.contains tool_name then false
  else is_checkpoint_command resolve tool_input.command context

end OpenBrain.Provider.Gate
