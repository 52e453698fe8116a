import OpenBrain.Provider.Policy.Safety

/-!
# When the safety check raises (`openbrain_provider/policy_safety.py`)

`pre_tool_safety_block_reason` runs inside a hook, which an exception takes down. The commits and
pushes of a command are read under `except ValueError`, the writes into a temp directory are not,
and an index into no words is caught nowhere. `safety_returns_iff` has every way it raises.
-/
namespace OpenBrain.Provider.Policy
open OpenBrain.Core OpenBrain.Core.Py List

/-! ## Reading a command -/

/-- What goes wrong with the delimiter behind a `<<`: its quotation stays open, or there is none. -/
def delimiterFailure (raw : Str) : Option Raised :=
  if Shlex.Unfinished splitLexer (undashed raw) then some .value
  else if (undashed raw).all splitLexer.whitespace then some .index
  else none

/-- The words of a line, read without escapes and with quotations only where a word starts. -/
def lineWords (line : Str) : List Str :=
  (Shlex.wordsOf (shellLexer false) (protect_quoted_newlines none line)).map restore_newlines

/-- What goes wrong with a line that is read for heredocs. -/
def lineFailure (line : Str) : Option Raised :=
  if Shlex.Unfinished (shellLexer false) (protect_quoted_newlines none line) then some .value
  else (rawDelimiters (lineWords line)).findSome? delimiterFailure

def specOf (keep_body : Bool) (raw : Str) : HeredocSpec :=
  ⟨(Shlex.wordsOf splitLexer (undashed raw)).headD [], startsWith (unit '-') raw, keep_body⟩

def specsOf (line : Str) : List HeredocSpec :=
  (rawDelimiters (lineWords line)).map (specOf (keepsBody (lineWords line)))

def openings : List HeredocSpec → List Str → List Str
  | _, [] => []
  | spec :: pending, line :: lines =>
    if spec.closedBy line then openings pending lines else openings (spec :: pending) lines
  | [], line :: lines => line :: openings (specsOf line) lines

/-- These and the bodies that shells run. -/
def keptOf : List HeredocSpec → List Str → List Str
  | _, [] => []
  | spec :: pending, line :: lines =>
    if spec.closedBy line then keptOf pending lines
    else if spec.keep_body then line :: keptOf (spec :: pending) lines
    else keptOf (spec :: pending) lines
  | [], line :: lines => line :: keptOf (specsOf line) lines

def lexedText (command : Str) : Str :=
  protect_quoted_newlines none (joinSep [0x0A] (keptOf [] (splitlines command)))

/-- What goes wrong first with a command: on one of its lines, or when what is left of it ends
within a quotation or behind a backslash. -/
def readFailure (command : Str) : Option Raised :=
  ((openings [] (splitlines command)).findSome? lineFailure).or
    (if Shlex.Unfinished (shellLexer true) (lexedText command) then some .value else none)

def commandsOf (command : Str) : List Command :=
  groupCommands [] ((Shlex.wordsOf (shellLexer true) (lexedText command)).map restore_newlines)

theorem shell_words_outcome (posix : Bool) (text : Str) :
    shell_words posix text =
      outcome
        (if Shlex.Unfinished (shellLexer posix) (protect_quoted_newlines none text) then
          some .value else none)
        ((Shlex.wordsOf (shellLexer posix) (protect_quoted_newlines none text)).map
          restore_newlines) := by
  unfold shell_words Shlex.split
  split <;> rfl

theorem heredoc_spec_outcome (keep_body : Bool) (raw : Str) :
    heredoc_spec keep_body raw = outcome (delimiterFailure raw) (specOf keep_body raw) := by
  have hnil := @Shlex.split_eq_nil splitLexer rfl (fun _ => rfl) (undashed raw)
  unfold heredoc_spec delimiterFailure specOf
  cases hsplit : Shlex.split splitLexer (undashed raw) with
  | none => rw [if_pos (Shlex.split_eq_none.mp hsplit)]; rfl
  | some words =>
    obtain ⟨hfinished, hwords⟩ := Shlex.split_eq_some.mp hsplit
    rw [hsplit, Option.some.injEq] at hnil
    rw [hfinished, if_neg Bool.false_ne_true, hwords]
    cases words with
    | nil => rw [if_pos (all_eq_true.mpr (hnil.mp rfl))]; rfl
    | cons delimiter words =>
      rw [if_neg]
      · rfl
      · intro hall
        cases hnil.mpr (all_eq_true.mp hall)

theorem heredoc_specs_outcome (line : Str) :
    heredoc_specs line = outcome (lineFailure line) (specsOf line) := by
  have hspecs : ∀ words, (rawDelimiters words).mapM (heredoc_spec (keepsBody words)) =
      outcome ((rawDelimiters words).findSome? delimiterFailure)
        ((rawDelimiters words).map (specOf (keepsBody words))) :=
    fun words => mapM_outcome (heredoc_spec_outcome _) _
  unfold heredoc_specs
  rw [shell_words_outcome]
  refine (outcome_bind
    (f := fun words => (rawDelimiters words).mapM (heredoc_spec (keepsBody words)))
    (hspecs _)).trans ?_
  unfold lineFailure
  split <;> rfl

theorem keptLines_outcome (pending : List HeredocSpec) (lines : List Str) :
    keptLines pending lines =
      outcome ((openings pending lines).findSome? lineFailure) (keptOf pending lines) := by
  fun_induction openings pending lines with
  | case1 pending => cases pending <;> rfl
  | case2 spec pending line lines hclosed ih => rw [keptLines, if_pos hclosed, ih, keptOf, if_pos hclosed]
  | case3 spec pending line lines hopen ih =>
    rw [keptLines, if_neg hopen, ih, keptOf, if_neg hopen]
    split
    · exact outcome_map _ _ _
    · rfl
  | case4 line lines ih =>
    rw [keptLines, heredoc_specs_outcome, findSome?_cons, keptOf]
    have hrest : (keptLines (specsOf line) lines).map (line :: ·) =
        outcome ((openings (specsOf line) lines).findSome? lineFailure)
          (line :: keptOf (specsOf line) lines) := by
      rw [ih, outcome_map]
    refine (outcome_bind (f := fun specs => (keptLines specs lines).map (line :: ·)) hrest).trans ?_
    cases lineFailure line <;> rfl

/-- A command is read unless something goes wrong with its text. -/
theorem shell_commands_outcome (command : Str) :
    shell_commands command = outcome (readFailure command) (commandsOf command) := by
  unfold shell_commands without_heredoc_bodies
  rw [keptLines_outcome, outcome_map]
  apply outcome_bind
  rw [shell_words_outcome]
  exact outcome_map _ _ _

theorem readFailure_kind {command : Str} {e : Raised} (h : readFailure command = some e) :
    e = .value ∨ e = .index := by
  unfold readFailure at h
  rcases Option.or_eq_some_iff.mp h with h | ⟨-, h⟩
  · obtain ⟨line, -, h⟩ := exists_of_findSome?_eq_some h
    unfold lineFailure at h
    split at h
    · exact Or.inl (Option.some.inj h).symm
    · obtain ⟨raw, -, h⟩ := exists_of_findSome?_eq_some h
      unfold delimiterFailure at h
      split at h
      · exact Or.inl (Option.some.inj h).symm
      split at h
      · exact Or.inr (Option.some.inj h).symm
      · cases h
  · split at h
    · exact Or.inl (Option.some.inj h).symm
    · cases h

/-! ## Following its directories -/

section Directories
variable (w : World)

/-- What goes wrong with a directory: the user of its tilde is not known. -/
def tildeFailure (value : Str) : Option Raised :=
  match (Path.parse value).tail with
  | [] => none
  | first :: _ =>
    if (Path.parse value).root = [] ∧ startsWith (unit '~') first then
      match w.expanduser first with
      | .error e => some e
      | .ok homedir => if startsWith (unit '~') homedir then some .runtime else none
    else none

/-- The values of the `-C`s in front of git's subcommand. -/
def gitDirectories : List Str → List Str
  | [] => []
  | [_] => []
  | word :: value :: rest =>
    if !startsWith (unit '-') word then []
    else if word = units "-C" then value :: gitDirectories rest
    else if GIT_LEADING_VALUE_OPTIONS.contains word then gitDirectories rest
    else gitDirectories (value :: rest)

/-- The directories a command names: of a simple `cd` or a `git`. -/
def directoriesOf (argv : List Str) : List Str :=
  match unwrapped_argv argv with
  | [] => []
  | word :: rest =>
    if word = units "git" then gitDirectories rest else (cdOperand argv).toList

def directoryFailure (commands : List Command) : Option Raised :=
  (commands.flatMap fun command => directoriesOf command.1).findSome? (tildeFailure w)

theorem resolve_directory_outcome (base : Path) (value : Str) :
    ∃ path, resolve_directory w base value = outcome (tildeFailure w value) path := by
  unfold resolve_directory Path.expanduser tildeFailure
  cases (Path.parse value).tail with
  | nil => exact ⟨_, rfl⟩
  | cons first rest =>
    dsimp only
    split
    · cases w.expanduser first with
      | error e => exact ⟨base, rfl⟩
      | ok homedir =>
        simp only [bind, Except.bind]
        split
        · exact ⟨base, rfl⟩
        · exact ⟨_, rfl⟩
    · exact ⟨_, rfl⟩

theorem gitOperands_outcome (cwd : Path) (argv : List Str) :
    ∃ parsed, gitOperands w cwd argv =
      outcome ((gitDirectories argv).findSome? (tildeFailure w)) parsed := by
  fun_induction gitDirectories argv generalizing cwd with
  | case1 => exact ⟨_, rfl⟩
  | case2 word =>
    rw [gitOperands]
    split <;> exact ⟨_, rfl⟩
  | case3 word value rest hword =>
    rw [gitOperands, if_pos hword]
    exact ⟨_, rfl⟩
  | case4 value rest hword ih =>
    rw [gitOperands, if_neg hword, if_pos rfl, findSome?_cons]
    obtain ⟨path, hpath⟩ := resolve_directory_outcome w cwd value
    obtain ⟨parsed, hparsed⟩ := ih path
    refine ⟨parsed, ?_⟩
    rw [hpath]
    refine (outcome_bind (f := fun path => gitOperands w path rest) hparsed).trans ?_
    cases tildeFailure w value <;> rfl
  | case5 word value rest hword hdir hvalue ih =>
    rw [gitOperands, if_neg hword, if_neg hdir, if_pos hvalue]
    exact ih cwd
  | case6 word value rest hword hdir hvalue ih =>
    rw [gitOperands, if_neg hword, if_neg hdir, if_neg hvalue]
    exact ih cwd

theorem cdOperand_cd {argv : List Str} {operand : Str} (h : cdOperand argv = some operand) :
    ∃ rest, unwrapped_argv argv = units "cd" :: rest := by
  unfold cdOperand at h
  split at h
  · cases h
  · rename_i word rest heq
    split at h
    · cases h
    · rename_i hcd
      rw [ne_eq, not_not] at hcd
      exact ⟨rest, by rw [heq, hcd]⟩

theorem directoriesOf_cd {argv : List Str} {operand : Str} (h : cdOperand argv = some operand) :
    directoriesOf argv = [operand] := by
  obtain ⟨rest, hargv⟩ := cdOperand_cd h
  unfold directoriesOf
  rw [hargv]
  dsimp only
  rw [if_neg (by decide), h]
  rfl

theorem git_operands_cd {argv : List Str} {operand : Str} (h : cdOperand argv = some operand)
    (cwd : Path) : git_operands w argv cwd = .ok none := by
  obtain ⟨rest, hargv⟩ := cdOperand_cd h
  unfold git_operands
  rw [hargv]
  dsimp only
  rw [if_pos (by decide)]

theorem git_operands_outcome {argv : List Str} (h : cdOperand argv = none) (cwd : Path) :
    ∃ parsed, git_operands w argv cwd =
      outcome ((directoriesOf argv).findSome? (tildeFailure w)) parsed := by
  unfold git_operands directoriesOf
  cases unwrapped_argv argv with
  | nil => exact ⟨none, rfl⟩
  | cons word rest =>
    dsimp only
    by_cases hgit : word = units "git"
    · rw [if_neg (not_not.mpr hgit), if_pos hgit]
      obtain ⟨parsed, hparsed⟩ := gitOperands_outcome w cwd rest
      exact ⟨some parsed, by rw [hparsed, outcome_map]⟩
    · rw [if_pos hgit, if_neg hgit, h]
      exact ⟨none, rfl⟩

theorem mutatorsFrom_outcome (cwd : Path) (commands : List Command) :
    ∃ mutators, mutatorsFrom w cwd commands = outcome (directoryFailure w commands) mutators := by
  induction commands generalizing cwd with
  | nil => exact ⟨[], rfl⟩
  | cons command commands ih =>
    obtain ⟨argv, separator⟩ := command
    have hsplit : directoryFailure w ((argv, separator) :: commands) =
        ((directoriesOf argv).findSome? (tildeFailure w)).or (directoryFailure w commands) := by
      unfold directoryFailure
      rw [flatMap_cons, findSome?_append]
    rw [mutatorsFrom, hsplit]
    unfold cd_target
    cases hcd : cdOperand argv with
    | none =>
      obtain ⟨parsed, hparsed⟩ := git_operands_outcome w hcd cwd
      obtain ⟨mutators, hmutators⟩ := ih cwd
      refine ⟨mutatorOf parsed ++ mutators, ?_⟩
      show (git_operands w argv cwd >>= fun parsed =>
        (mutatorsFrom w cwd commands).map (mutatorOf parsed ++ ·)) = _
      rw [hparsed]
      refine outcome_bind ?_
      rw [hmutators, outcome_map]
    | some operand =>
      obtain ⟨target, htarget⟩ := resolve_directory_outcome w cwd operand
      have hwalk : ∃ mutators,
          (if CWD_PRESERVING_SEPARATORS.contains separator then mutatorsFrom w target commands
            else do
              let parsed ← git_operands w argv cwd
              let mutators ← mutatorsFrom w cwd commands
              return mutatorOf parsed ++ mutators) =
            outcome (directoryFailure w commands) mutators := by
        split
        · exact ih target
        · obtain ⟨mutators, hmutators⟩ := ih cwd
          refine ⟨mutators, ?_⟩
          rw [git_operands_cd w hcd, hmutators]
          cases directoryFailure w commands <;> rfl
      obtain ⟨mutators, hmutators⟩ := hwalk
      refine ⟨mutators, ?_⟩
      dsimp only
      rw [htarget, outcome_map, directoriesOf_cd hcd, findSome?_singleton]
      cases tildeFailure w operand with
      | none => exact hmutators
      | some e => rfl

end Directories

/-! ## The whole check -/

variable (m : Machine)

/-- The directory a command starts in can be named. -/
def HasStart (command_cwd : Str) : Prop := command_cwd ≠ [] ∨ m.getcwd ≠ none

inductive HistoryFails (command command_cwd : Str) : Prop
  /-- No directory is given, and that of the process is gone. -/
  | noStart (h : ¬HasStart m command_cwd)
  /-- A heredoc without a delimiter comes before any quotation left open. -/
  | noDelimiter (hstart : HasStart m command_cwd) (h : readFailure command = some .index)
  /-- A `cd` or `-C` names the home of an unknown user. -/
  | unknownHome {e : Raised} (hstart : HasStart m command_cwd) (hread : readFailure command = none)
      (h : directoryFailure m.toWorld (commandsOf command) = some e) (he : e ≠ .value)
  /-- The text is not read, looks like a commit or push, and git cannot be asked about its
  directory. -/
  | unreadStart {start : Path} (hstart : startDirectory m.toWorld command_cwd = .ok start)
      (hread : readFailure command = some .value ∨ readFailure command = none ∧
        directoryFailure m.toWorld (commandsOf command) = some .value)
      (hmutates : GIT_MUTATES_HISTORY command = true) (h : m.branch start = .valueError)
  /-- An approval cannot be looked up. -/
  | unreadApproval {mutators : List Mutator} {e : Raised}
      (hread : history_mutators m.toWorld command command_cwd = .ok mutators)
      (h : FailsFirst (isUnapproved m) false e mutators)
  /-- Git cannot be asked about the directory of a commit or push. -/
  | unreadBranch {mutators : List Mutator} {e : Raised}
      (hread : history_mutators m.toWorld command command_cwd = .ok mutators)
      (happroved : ∀ mutator ∈ mutators, isUnapproved m mutator = .ok false)
      (h : FailsFirst (fun mutator => branch_block_reason m mutator.cwd) none e mutators)

/-- How the check of a call raises: its shell command mentions a temp directory and is not read, or
it comes to its commits and pushes and they raise. -/
inductive GateFails (name : Str) (tool_input : Items) (command_cwd : Str) : Prop
  | unreadWrite (hname : lower_name name ∈ SHELL_TOOLS)
      (htmp : TMP_ANYWHERE (safetyCommandOf m tool_input) = true)
      (h : readFailure (safetyCommandOf m tool_input) ≠ none)
  | history (hname : lower_name name ∈ SHELL_TOOLS)
      (htmp : TMP_ANYWHERE (safetyCommandOf m tool_input) = true →
        readFailure (safetyCommandOf m tool_input) = none ∧
          ∀ command ∈ commandsOf (safetyCommandOf m tool_input), writesTmp command.1 = false)
      (htext : textReason (safetyCommandOf m tool_input) = none)
      (h : HistoryFails m (safetyCommandOf m tool_input) command_cwd)

theorem startDirectory_ok {command_cwd : Str} :
    HasStart m command_cwd ↔ ∃ start, startDirectory m.toWorld command_cwd = .ok start := by
  unfold HasStart startDirectory
  by_cases h : command_cwd = []
  · rw [if_neg (not_not.mpr h)]
    cases m.getcwd <;> simp [h]
  · simp [h]

theorem startDirectory_error {command_cwd : Str} (h : ¬HasStart m command_cwd) :
    startDirectory m.toWorld command_cwd = .error .os := by
  unfold HasStart at h
  rw [not_or, not_ne_iff, not_ne_iff] at h
  unfold startDirectory
  rw [if_neg (not_not.mpr h.1), h.2]

/-- The commits and pushes of a command that starts somewhere: its text is read, then its
directories are followed. -/
theorem history_mutators_outcome {command command_cwd : Str} (h : HasStart m command_cwd) :
    ∃ mutators, history_mutators m.toWorld command command_cwd =
      outcome ((readFailure command).or (directoryFailure m.toWorld (commandsOf command)))
        mutators := by
  obtain ⟨start, hstart⟩ := (startDirectory_ok m).mp h
  obtain ⟨mutators, hmutators⟩ := mutatorsFrom_outcome m.toWorld start (commandsOf command)
  refine ⟨mutators, ?_⟩
  unfold history_mutators
  rw [hstart, shell_commands_outcome]
  exact outcome_bind hmutators

theorem mutatorsReason_error {mutators : List Mutator} {e : Raised} :
    mutatorsReason m mutators = .error e ↔ FailsFirst (isUnapproved m) false e mutators ∨
      (∀ mutator ∈ mutators, isUnapproved m mutator = .ok false) ∧
        FailsFirst (fun mutator => branch_block_reason m mutator.cwd) none e mutators := by
  unfold mutatorsReason
  rw [← anyM_error, ← anyM_false, ← findSomeM?_error]
  rcases mutators.anyM (isUnapproved m) with e' | b
  · simp [bind, Except.bind]
  · cases b <;> simp [bind, Except.bind, pure, Except.pure]

theorem branch_block_reason_error {cwd : Path} :
    (∃ e, branch_block_reason m cwd = .error e) ↔ m.branch cwd = .valueError := by
  unfold branch_block_reason
  cases m.branch cwd <;> simp

/-- Behind the reading of the commits and pushes. -/
theorem git_history_error_value {command command_cwd : Str} {start : Path}
    (hstart : startDirectory m.toWorld command_cwd = .ok start)
    (h : history_mutators m.toWorld command command_cwd = .error .value) :
    (∃ e, git_history_block_reason m command command_cwd = .error e) ↔
      GIT_MUTATES_HISTORY command = true ∧ m.branch start = .valueError := by
  unfold git_history_block_reason
  rw [h, hstart]
  dsimp only
  cases GIT_MUTATES_HISTORY command with
  | false => simp
  | true =>
    rw [Bool.not_true, if_neg Bool.false_ne_true, ← branch_block_reason_error]
    simp [bind, Except.bind]

theorem git_history_error_other {command command_cwd : Str} {e : Raised}
    (h : history_mutators m.toWorld command command_cwd = .error e) (he : e ≠ .value) :
    git_history_block_reason m command command_cwd = .error e := by
  unfold git_history_block_reason
  rw [h]
  cases e with
  | value => exact absurd rfl he
  | index => rfl
  | runtime => rfl
  | os => rfl

theorem git_history_raises {command command_cwd : Str} :
    (∃ e, git_history_block_reason m command command_cwd = .error e) ↔
      HistoryFails m command command_cwd := by
  by_cases hhas : HasStart m command_cwd
  swap
  · constructor
    · intro _
      exact .noStart hhas
    · intro _
      refine ⟨.os, git_history_error_other m ?_ (by decide)⟩
      unfold history_mutators
      rw [startDirectory_error m hhas]
      rfl
  obtain ⟨start, hstart⟩ := (startDirectory_ok m).mp hhas
  obtain ⟨mutators, hmutators⟩ := @history_mutators_outcome m command _ hhas
  cases hfailure : (readFailure command).or (directoryFailure m.toWorld (commandsOf command)) with
  | none =>
    rw [hfailure] at hmutators
    have hreason : git_history_block_reason m command command_cwd = mutatorsReason m mutators := by
      unfold git_history_block_reason
      rw [hmutators]
      rfl
    rw [Option.or_eq_none_iff] at hfailure
    rw [hreason]
    constructor
    · rintro ⟨e, h⟩
      rcases (mutatorsReason_error m).mp h with h | ⟨happroved, h⟩
      · exact .unreadApproval hmutators h
      · exact .unreadBranch hmutators happroved h
    · rintro (h | ⟨-, h⟩ | ⟨-, -, h, -⟩ | ⟨-, h, -, -⟩ | ⟨hread, h⟩ | ⟨hread, happroved, h⟩)
      · exact absurd hhas h
      · rw [hfailure.1] at h
        cases h
      · rw [hfailure.2] at h
        cases h
      · rw [hfailure.1, hfailure.2] at h
        simp at h
      · rw [hmutators] at hread
        cases hread
        exact ⟨_, (mutatorsReason_error m).mpr (Or.inl h)⟩
      · rw [hmutators] at hread
        cases hread
        exact ⟨_, (mutatorsReason_error m).mpr (Or.inr ⟨happroved, h⟩)⟩
  | some e =>
    rw [hfailure] at hmutators
    have hsplit : readFailure command = some e ∨ readFailure command = none ∧
        directoryFailure m.toWorld (commandsOf command) = some e := by
      rwa [Option.or_eq_some_iff] at hfailure
    by_cases he : e = .value
    · subst he
      rw [git_history_error_value m hstart hmutators]
      constructor
      · rintro ⟨hmutates, h⟩
        exact .unreadStart hstart hsplit hmutates h
      · rintro (h | ⟨-, h⟩ | ⟨-, hread, h, hne⟩ | ⟨hstart', -, hmutates, h⟩ | ⟨hread, -⟩ | ⟨hread, -, -⟩)
        · exact absurd hhas h
        · rw [h] at hsplit
          simp at hsplit
        · rw [hread, h] at hsplit
          simp at hsplit
          exact absurd hsplit hne
        · rw [hstart] at hstart'
          cases hstart'
          exact ⟨hmutates, h⟩
        · rw [hmutators] at hread
          cases hread
        · rw [hmutators] at hread
          cases hread
    · constructor
      · intro _
        rcases hsplit with h | ⟨hread, h⟩
        · refine .noDelimiter hhas ?_
          rw [h, (readFailure_kind h).resolve_left he]
        · exact .unknownHome hhas hread h he
      · intro _
        exact ⟨e, git_history_error_other m hmutators he⟩

theorem shell_safety_raises {command command_cwd : Str} :
    (∃ e, shell_safety_block_reason m command command_cwd = .error e) ↔
      textReason command = none ∧ HistoryFails m command command_cwd := by
  rw [← git_history_raises]
  unfold shell_safety_block_reason
  cases textReason command with
  | some reason => simp
  | none =>
    dsimp only
    rcases git_history_block_reason m command command_cwd with e | history
    · simp [bind, Except.bind]
    · simp [bind, Except.bind, pure, Except.pure]

theorem shellTool_notFile {name : Str} (h : name ∈ SHELL_TOOLS) : name ∉ FILE_TOOLS := by
  have hall : ∀ name ∈ SHELL_TOOLS, name ∉ FILE_TOOLS := by decide +kernel
  exact hall name h

theorem shellTool_other {name : Str} (h : name ∈ SHELL_TOOLS) :
    name ≠ units "agent" ∧ name ≠ units "task" ∧ name ≠ units "enterworktree" := by
  have hall : ∀ name ∈ SHELL_TOOLS,
      name ≠ units "agent" ∧ name ≠ units "task" ∧ name ≠ units "enterworktree" := by
    decide +kernel
  exact hall name h

theorem tmp_write_block_reason_other {name : Str} (h : name ∉ SHELL_TOOLS) (tool_input : Items) :
    ∃ reason, tmp_write_block_reason m name tool_input = .ok reason := by
  unfold tmp_write_block_reason
  split
  · exact ⟨_, rfl⟩
  · exact ⟨none, rfl⟩

/-- The check of a shell command's writes is the reading of the command, where it mentions a temp
directory. -/
theorem tmp_write_in_shell_eq (command : Str) : tmp_write_in_shell command =
    (shell_commands command).map fun commands => commands.any fun c => writesTmp c.1 := rfl

theorem tmp_write_block_reason_shell {name : Str} (h : name ∈ SHELL_TOOLS) (tool_input : Items) :
    ((∃ e, tmp_write_block_reason m name tool_input = .error e) ↔
        TMP_ANYWHERE (safetyCommandOf m tool_input) = true ∧
          readFailure (safetyCommandOf m tool_input) ≠ none) ∧
      (tmp_write_block_reason m name tool_input = .ok none ↔
        (TMP_ANYWHERE (safetyCommandOf m tool_input) = true →
          readFailure (safetyCommandOf m tool_input) = none ∧
            ∀ command ∈ commandsOf (safetyCommandOf m tool_input), writesTmp command.1 = false)) := by
  unfold tmp_write_block_reason
  simp only [tmp_write_in_shell_eq]
  rw [if_neg (shellTool_notFile h), if_neg (not_not.mpr h)]
  generalize safetyCommandOf m tool_input = command
  by_cases htmp : TMP_ANYWHERE command = true
  · have hne : command ≠ [] := by
      rintro rfl
      revert htmp
      decide
    rw [if_neg (by simp [hne, htmp]), shell_commands_outcome, outcome_map, outcome_map]
    cases readFailure command with
    | some e => simp [outcome, htmp]
    | none =>
      cases hwrites : (commandsOf command).any fun c => writesTmp c.1 with
      | true =>
        obtain ⟨written, hmem, hwritten⟩ := any_eq_true.mp hwrites
        refine ⟨by simp [outcome], iff_of_false (by simp [outcome]) fun hall => ?_⟩
        exact Bool.false_ne_true (((hall htmp).2 written hmem).symm.trans hwritten)
      | false =>
        refine ⟨by simp [outcome], iff_of_true (by simp [outcome]) fun _ => ⟨rfl, ?_⟩⟩
        intro written hmem
        have := any_eq_false.mp hwrites written hmem
        simpa using this
  · rw [if_pos (Or.inr (by simpa using htmp))]
    simp [htmp]

theorem pre_tool_other {name : Str} (h : lower_name name ∉ SHELL_TOOLS) (tool_input : Items)
    (command_cwd : Str) (env : Option (Str → Option Str)) :
    ∃ reason, pre_tool_safety_block_reason m name tool_input command_cwd env = .ok reason := by
  obtain ⟨reason, hreason⟩ := tmp_write_block_reason_other m h tool_input
  unfold pre_tool_safety_block_reason
  simp only [hreason, bind, Except.bind, pure, Except.pure]
  cases reason with
  | some reason => exact ⟨_, rfl⟩
  | none =>
    dsimp only
    split
    · exact ⟨_, rfl⟩
    split
    · split <;> exact ⟨_, rfl⟩
    · exact ⟨none, rfl⟩

/-- A shell command whose writes are no reason goes on to its text and its commits and pushes. -/
theorem pre_tool_shell_raises {name : Str} (h : lower_name name ∈ SHELL_TOOLS) (tool_input : Items)
    (command_cwd : Str) (env : Option (Str → Option Str)) :
    (∃ e, pre_tool_safety_block_reason m name tool_input command_cwd env = .error e) ↔
      (∃ e, tmp_write_block_reason m (lower_name name) tool_input = .error e) ∨
        tmp_write_block_reason m (lower_name name) tool_input = .ok none ∧
          ∃ e, shell_safety_block_reason m (safetyCommandOf m tool_input) command_cwd = .error e := by
  obtain ⟨hagent, htask, htree⟩ := shellTool_other h
  unfold pre_tool_safety_block_reason
  simp only [bind, Except.bind, pure, Except.pure]
  rcases tmp_write_block_reason m (lower_name name) tool_input with e | reason
  · exact iff_of_true ⟨e, rfl⟩ (Or.inl ⟨e, rfl⟩)
  refine Iff.trans ?_ (or_iff_right fun ⟨e, he⟩ => nomatch he).symm
  cases reason with
  | some reason => exact iff_of_false (fun ⟨e, he⟩ => nomatch he) fun he => nomatch he.1
  | none =>
    dsimp only
    rw [if_neg (not_or.mpr ⟨hagent, htask⟩), if_neg htree, if_neg (not_not.mpr h),
      and_iff_right rfl]

/-- The check of a call gives a reason or none, unless it fails in one of the ways of `GateFails`. -/
theorem safety_returns_iff (name : Str) (tool_input : Items) (command_cwd : Str)
    (env : Option (Str → Option Str)) :
    (∃ reason, pre_tool_safety_block_reason m name tool_input command_cwd env = .ok reason) ↔
      ¬GateFails m name tool_input command_cwd := by
  by_cases hname : lower_name name ∈ SHELL_TOOLS
  swap
  · refine iff_of_true (pre_tool_other m hname tool_input command_cwd env) ?_
    rintro (⟨h, -⟩ | ⟨h, -⟩)
    · exact hname h
    · exact hname h
  have hok : ∀ x : Except Raised (Option Str), (∃ reason, x = .ok reason) ↔ ¬∃ e, x = .error e := by
    intro x
    cases x <;> simp
  obtain ⟨hfails, hnone⟩ := tmp_write_block_reason_shell m hname tool_input
  rw [hok, not_iff_not, pre_tool_shell_raises m hname, hfails, hnone, shell_safety_raises]
  constructor
  · rintro (⟨htmp, h⟩ | ⟨htmp, htext, h⟩)
    · exact .unreadWrite hname htmp h
    · exact .history hname htmp htext h
  · rintro (⟨-, htmp, h⟩ | ⟨-, htmp, htext, h⟩)
    · exact Or.inl ⟨htmp, h⟩
    · exact Or.inr ⟨htmp, htext, h⟩

/-- A machine on which every directory is on a branch of its own and no approval is there. -/
def featureMachine : Machine where
  getcwd := some (units "/work")
  expanduser := fun part => .ok part
  branch := fun _ => .completed (units "feature")
  git_dir := fun _ => .completed (units "/work/.git")
  read_text := fun _ => .error .os
  now := 0
  environ := fun _ => none
  repr := fun _ => []
  wordChar := fun u => !isSpace u
  digit := fun u => if unit '0' ≤ u ∧ u ≤ unit '9' then some (u.toNat - 48) else none

/-- A quotation left open behind a temp path. -/
theorem safety_raises : ¬∀ (m : Machine) (name : Str) (tool_input : Items) (command_cwd : Str)
    (env : Option (Str → Option Str)),
    ∃ reason, pre_tool_safety_block_reason m name tool_input command_cwd env = .ok reason := by
  intro h
  have hreturns := h featureMachine (units "Bash")
    [(units "command", .str (units "cat '/tmp/x"))] (units "/work") none
  refine (safety_returns_iff featureMachine _ _ _ none).mp hreturns (.unreadWrite ?_ ?_ ?_)
  · decide +kernel
  · decide +kernel
  · decide +kernel

end OpenBrain.Provider.Policy
