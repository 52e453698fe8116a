import OpenBrain.Provider.Policy.RefreshTool
import OpenBrain.Provider.Policy.SafetyPatterns

/-!
# The safety blocks (`openbrain_provider/policy_safety.py`)

`pre_tool_safety_block_reason` answers with the reason why a tool call is refused, or with none.
What it asks of the machine (git, the approval marker, home directories, the clock) is a `Machine`.
-/
namespace OpenBrain.Provider.Policy
open OpenBrain.Core OpenBrain.Core.Py

/-! ## The machine -/

/-- How `subprocess.run` with `check=True` ends. -/
inductive Run where
  | completed (stdout : Str)
  /-- `CalledProcessError` -/
  | failed (returncode : Int) (stderr : Str)
  /-- `TimeoutExpired` -/
  | timeout
  | osError (strerror : Str)
  /-- A directory it cannot pass on, or output that is no text. -/
  | valueError

/-- What the gate asks the machine it runs on, and of Python what is not its own text. -/
structure Machine extends World where
  /-- `git branch --show-current` in a directory. -/
  branch : Path → Run
  /-- `git rev-parse --absolute-git-dir` in a directory. -/
  git_dir : Path → Run
  /-- `read_text(encoding="utf8")` -/
  read_text : Path → Except Raised Str
  /-- The whole seconds of `time.time()`. -/
  now : Nat
  environ : Str → Option Str
  /-- `str(value)` of a value that is no string. -/
  repr : PyJson → Str
  /-- `\w` -/
  wordChar : UInt16 → Bool
  /-- The value of a `\d`. -/
  digit : UInt16 → Option Nat

variable (m : Machine)

/-! ## The arguments of a call -/

def argumentOf (keys : List String) (tool_input : Items) : Str :=
  ((keys.map units).findSome? fun key =>
    if truthy (Members.get? tool_input key) then (Members.get? tool_input key).map (str m.repr)
    else none).getD []

/-- mirrors policy_safety.py:189-195 -/
def safetyCommandOf : Items → Str := argumentOf m ["command", "cmd", "cmdline"]

/-- mirrors policy_safety.py:198-204 -/
def file_path_of : Items → Str := argumentOf m ["file_path", "filePath", "path"]

/-- `name.lower()`, as far as the names of the tools go: besides ASCII's capitals the Kelvin sign
becomes one of their letters. -/
def lower_name (name : Str) : Str := lower (name.map fun u => if u = 0x212A then unit 'k' else u)

/-! ## Writes into a temp directory -/

/-- mirrors policy_safety.py:52 -/
def FILE_TOOLS : List Str := ["write", "edit", "notebookedit"].map units

/-- mirrors policy_safety.py:83-92 -/
def TMP_REMEDY : Str :=
  units ("There is no writable system temp directory on this machine. $TMPDIR is " ++
    "already pointed at this repo's temp workspace, so just use it, or write to " ++
    "\x7btemp_workspace\x7d/\x7bproject-or-repo\x7d/_scratch/ directly " ++
    "(/srv/_tmp on a workstation, /mnt/shared/tmp_space on shared boxes). " ++
    "Temp policy: _DOCS/CODING_STANDARDS.md ## Workspace Hygiene.")

/-- mirrors policy_safety.py:209-225 -/
def TMP_WRITER_HEADS : List Str :=
  ["cp", "mv", "rsync", "touch", "mkdir", "install", "tee", "dd", "curl", "wget", "tar", "unzip",
    "zip"].map units

/-- A redirect to a temp path, or a writer with one for an operand.
mirrors policy_safety.py:246-262 -/
def writesTmp (argv : List Str) : Bool :=
  let words := unwrapped_argv argv
  match words with
  | [] => false
  | first :: rest =>
    (words.zip rest).any (fun (word, target) =>
      (word = units ">" || word = units ">>") && TMP_ANYWHERE target) ||
      (TMP_WRITER_HEADS.contains (lastPart first) ||
        lastPart first = units "git" && rest.head? = some (units "clone")) &&
        rest.any TMP_ANYWHERE

/-- mirrors policy_safety.py:228-262 -/
def tmp_write_in_shell (command : Str) : Except Raised Bool :=
  (shell_commands command).map fun commands => commands.any fun (argv, _) => writesTmp argv

/-- mirrors policy_safety.py:265-310 -/
def tmp_write_block_reason (normalized_name : Str) (tool_input : Items) :
    Except Raised (Option Str) :=
  if normalized_name ∈ FILE_TOOLS then
    .ok (if TMP_FILE_PATH (file_path_of m tool_input) then
      some (units "That path does not exist as an agent-writable location. " ++ TMP_REMEDY)
    else none)
  else if normalized_name ∉ SHELL_TOOLS then .ok none
  else
    let command := safetyCommandOf m tool_input
    if command = [] ∨ TMP_ANYWHERE command = false then .ok none
    else
      (tmp_write_in_shell command).map fun writes =>
        if writes then
          some (units ("That path is not an agent-writable location: it is on the small main " ++
            "disk and is sandbox-local, so anything written there is invisible to " ++
            "runners and to the operator. ") ++ TMP_REMEDY)
        else none

/-! ## Commits and pushes -/

/-- mirrors policy_safety.py:130-138 -/
def PUSH_VALUE_OPTIONS : List Str :=
  ["--repo", "--receive-pack", "--exec", "-o", "--push-option"].map units

/-- The refs among the arguments of a push; none of the value options has an `=`.
mirrors policy_safety.py:522-539 -/
def pushRefs (seen_remote : Bool) : List Str → List Str
  | [] => []
  | [word] => if startsWith (unit '-') word ∨ !seen_remote then [] else [word]
  | word :: value :: rest =>
    if word = units "--" then pushRefs seen_remote (value :: rest)
    else if startsWith (unit '-') word then
      let seen := seen_remote || word = units "--repo" || (units "--repo=").isPrefixOf word
      if PUSH_VALUE_OPTIONS.contains word then pushRefs seen rest else pushRefs seen (value :: rest)
    else if !seen_remote then pushRefs true (value :: rest)
    else word :: pushRefs seen_remote (value :: rest)

/-- mirrors policy_safety.py:541-543 -/
def destinationOf (refspec : Str) : Str :=
  let destination := (refspec.rtakeWhile (· ≠ unit ':')).dropWhile (· = unit '+')
  if (units "refs/heads/").isPrefixOf destination then destination.drop 11 else destination

def PROTECTED_BRANCHES : List Str := ["main", "master"].map units

/-- mirrors policy_safety.py:520-546 -/
def pushes_to_protected_ref (arguments : List Str) : Bool :=
  (pushRefs false arguments).any fun refspec => PROTECTED_BRANCHES.contains (destinationOf refspec)

/-- mirrors policy_safety.py:569-582 -/
def unverified_branch_reason (cwd : Path) (detail : Str) : Str :=
  units "git guard: unable to verify the current branch in " ++ cwd.str ++
    units "; \x60git branch --show-current\x60 " ++ detail ++
    units ". Commit/push is blocked until branch state is readable."

def intText : Int → Str
  | .ofNat n => decimal n
  | .negSucc n => unit '-' :: decimal (n + 1)

/-- mirrors policy_safety.py:585-612 -/
def branch_block_reason (cwd : Path) : Except Raised (Option Str) :=
  match m.branch cwd with
  | .failed returncode stderr =>
    let first := (splitlines (strip stderr)).head?.getD (units "(no stderr)")
    .ok (some (unverified_branch_reason cwd
      (units "exited " ++ intText returncode ++ units ": " ++ first)))
  | .timeout => .ok (some (unverified_branch_reason cwd (units "did not answer within 0.5s")))
  | .osError strerror =>
    .ok (some (unverified_branch_reason cwd (units "could not be run: " ++ strerror)))
  | .valueError => .error .value
  | .completed stdout =>
    let branch := strip stdout
    .ok (if PROTECTED_BRANCHES.contains branch then
      some (units "git guard: current branch is " ++ branch ++
        units "; do not commit or push from a protected branch.")
    else none)

/-- mirrors policy_safety.py:615 -/
def MAIN_PUSH_APPROVAL_MARKER : Str := units "guard-main-push-approved"

/-- The digits of `expires=(\d+)\s*$` at the front of a line. -/
def expiryDigits (line : Str) : Option Str :=
  if (units "expires=").isPrefixOf line then
    let digits := (line.drop 8).takeWhile fun u => (m.digit u).isSome
    let rest := (line.drop 8).dropWhile fun u => (m.digit u).isSome
    if digits ≠ [] ∧ (Matcher.many isSpace rest).any (fun r => r.head?.all (· = 0x0A)) then
      some digits
    else none
  else none

/-- `_MAIN_PUSH_APPROVAL_LINE.search(raw)`; the flag tells whether a line starts here.
mirrors policy_safety.py:616-618 -/
def findExpiry (lineStart : Bool) : Str → Option Str
  | [] => none
  | u :: raw =>
    (if lineStart then expiryDigits m (u :: raw) else none).or (findExpiry (u = 0x0A) raw)

/-- `int(match.group(1))` -/
def expiryOf (digits : Str) : Nat :=
  digits.foldl (fun n u => 10 * n + (m.digit u).getD 0) 0

/-- mirrors policy_safety.py:621-658 -/
def main_push_approved (cwd : Path) : Except Raised Bool :=
  match m.git_dir cwd with
  | .failed _ _ | .timeout | .osError _ => .ok false
  | .valueError => .error .value
  | .completed stdout =>
    let git_dir := strip stdout
    if git_dir = [] then .ok false
    else
      match m.read_text ((Path.parse git_dir).join (Path.parse MAIN_PUSH_APPROVAL_MARKER)) with
      | .error .os => .ok false
      | .error e => .error e
      | .ok raw => .ok ((findExpiry m true raw).any fun digits => decide (m.now < expiryOf m digits))

/-- A push to a protected branch that nobody approved. mirrors policy_safety.py:673-675 -/
def isUnapproved (mutator : Mutator) : Except Raised Bool :=
  if mutator.name = units "push" ∧ pushes_to_protected_ref mutator.arguments then
    (main_push_approved m mutator.cwd).map not
  else .ok false

/-- mirrors policy_safety.py:671-686 -/
def mutatorsReason (mutators : List Mutator) : Except Raised (Option Str) := do
  let unapproved ← mutators.anyM (isUnapproved m)
  if unapproved then
    return some (units ("git guard: do not commit or push directly to main/master " ++
      "without explicit approval."))
  else mutators.findSomeM? fun mutator => branch_block_reason m mutator.cwd

/-- mirrors policy_safety.py:661-686 -/
def git_history_block_reason (command command_cwd : Str) : Except Raised (Option Str) :=
  match history_mutators m.toWorld command command_cwd with
  | .error .value =>
    if !GIT_MUTATES_HISTORY command then .ok none
    else do
      let cwd ← startDirectory m.toWorld command_cwd
      branch_block_reason m cwd
  | .error e => .error e
  | .ok mutators => mutatorsReason m mutators

/-! ## Every block -/

/-- The refusal of a text, whatever is asked of the machine. mirrors policy_safety.py:699-720 -/
def textReason (command : Str) : Option Str :=
  if GIT_RESET_HARD command then
    some (units "git guard: \x60git reset --hard\x60 needs explicit user approval.")
  else if GIT_CHECKOUT_DISCARD command then
    some (units ("git guard: \x60git checkout --\x60 can discard work and needs " ++
      "explicit user approval."))
  else if GIT_SWITCH_PROTECTED command then
    some (units ("git guard: do not switch to main/master for work; use a " ++
      "focused work branch."))
  else if CLAUDE_WORKTREE command then
    some (units ("Do not use \x60claude --worktree\x60 directly. Use \x60gwt \x22name\x22\x60 with the " ++
      "intended runtime."))
  else if GH_PR_MERGE command && GH_MERGE_AUTOMATIC command then
    some (units ("merge guard: do not use \x60gh pr merge --admin/--auto\x60. Inspect " ++
      "checks and merge deliberately."))
  else none

/-- mirrors policy_safety.py:726-734 -/
def generatedReason (command : Str) : Option Str :=
  if WRITES_INTO_GENERATED m.wordChar command && !GENERATED_EGRESS command then
    some (units ("Treat ~/.codex/generated_images as transient output. Move the selected " ++
      "image to /srv/_tmp/_image-gen2/ or the user-requested " ++ "destination."))
  else none

/-- mirrors policy_safety.py:689-735 -/
def shell_safety_block_reason (command command_cwd : Str) : Except Raised (Option Str) :=
  match textReason command with
  | some reason => .ok (some reason)
  | none => do
    let history ← git_history_block_reason m command command_cwd
    return history.or (generatedReason m command)

/-- mirrors policy_safety.py:313-341 -/
def agent_tool_block_reason (env : Str → Option Str) : Option Str :=
  if ((env (units "ANTHROPIC_BASE_URL")).getD []) = [] then none
  else
    some (units ("Direct Agent and Task tools are disabled under Claudex: ANTHROPIC_BASE_URL " ++
      "routes through CLIProxyAPI, where an unrouted call collapses the worker to " ++
      "the head model. Launch workers only through a Workflow \x60agent()\x60 node with " ++
      "the model and effort pinned per _DOCS/MODEL_ROUTING.md."))

/-- mirrors policy_safety.py:738-777 -/
def pre_tool_safety_block_reason (name : Str) (tool_input : Items) (command_cwd : Str)
    (env : Option (Str → Option Str)) : Except Raised (Option Str) := do
  let normalized := lower_name name
  let tmp_write ← tmp_write_block_reason m normalized tool_input
  match tmp_write with
  | some reason => return some reason
  | none =>
    if normalized = units "agent" ∨ normalized = units "task" then
      return agent_tool_block_reason (env.getD m.environ)
    else if normalized = units "enterworktree" then
      if truthy (Members.get? tool_input (units "path")) then return none
      else
        return some (units ("Enter only an existing user-approved worktree path; do not create " ++
          "nested .claude worktrees."))
    else if normalized ∉ SHELL_TOOLS then return none
    else shell_safety_block_reason m (safetyCommandOf m tool_input) command_cwd

end OpenBrain.Provider.Policy
