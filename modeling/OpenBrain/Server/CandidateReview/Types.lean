import OpenBrain.Core.EcmaJson

/-!
# The grading vocabulary and its validators (`candidate-review/types.ts`)

What a grade may say and who may give it. Every validator rejects what it does not know; the
error carries the text and the HTTP status of the `ReviewInputError`.
-/
namespace OpenBrain.Server.CandidateReview
open OpenBrain.Core OpenBrain.Core.Ecma

/-- mirrors types.ts:57-64 -/
inductive ReviewAction where
  | promoted
  | rejected
  | duplicate
  | inconclusive
  deriving DecidableEq

def ReviewAction.text : ReviewAction → Str
  | .promoted => units "promoted"
  | .rejected => units "rejected"
  | .duplicate => units "duplicate"
  | .inconclusive => units "inconclusive"

def REVIEW_ACTIONS : List ReviewAction := [.promoted, .rejected, .duplicate, .inconclusive]

/-- mirrors grading-reasons.ts:233-235 -/
inductive AgentBehavior where
  | good
  | bad
  | neutral
  deriving DecidableEq

def AgentBehavior.text : AgentBehavior → Str
  | .good => units "good"
  | .bad => units "bad"
  | .neutral => units "neutral"

def AGENT_BEHAVIORS : List AgentBehavior := [.good, .bad, .neutral]

/-- mirrors grading-reasons.ts:84-217; the codes of `GRADING_REASONS` -/
def REASON_CODES : List Str :=
  ["needs-surrounding-context", "shows-reasoning", "states-fact", "fixes-an-issue",
    "progress-narration", "tool-noise", "already-known", "too-fragmentary",
    "good-decision-record", "correction-worth-keeping", "unsure-value",
    "same-as-another"].map units

/-- mirrors types.ts:181-188 -/
structure ReviewInputError where
  message : Str
  status : Nat
  deriving DecidableEq

def badInput (message : Str) : ReviewInputError := ⟨message, 400⟩

/-- `JSON.stringify` of a string. -/
def stringify (s : Str) : Str := quote s

def comma : Str := units ", "

/-- mirrors types.ts:198-209 -/
def parseReviewAction (value : Option JsonValue) : Except ReviewInputError ReviewAction :=
  match value with
  | some (.str value) =>
    match REVIEW_ACTIONS.find? fun a => a.text == value with
    | some found => .ok found
    | none => .error (badInput (units "unknown action " ++ stringify value ++
        units "; expected one of " ++ joinSep comma (REVIEW_ACTIONS.map ReviewAction.text)))
  | _ => .error (badInput (units "action must be a string"))

/-- mirrors types.ts:231-244; a string of white space only counts as absent -/
def parseReasonCode (value : Option JsonValue) : Except ReviewInputError (Option Str) :=
  match value with
  | none | some .null => .ok none
  | some (.str value) =>
    let trimmed := trim value
    if trimmed = [] then .ok none
    else if trimmed ∈ REASON_CODES then .ok (some trimmed)
    else .error (badInput (units "unknown reason_code " ++ stringify trimmed ++
        units "; expected one of " ++ joinSep comma REASON_CODES))
  | some _ => .error (badInput (units "reason_code must be a string"))

/-- mirrors types.ts:258-271 -/
def parseAgentBehavior (value : Option JsonValue) :
    Except ReviewInputError (Option AgentBehavior) :=
  match value with
  | none | some .null => .ok none
  | some (.str value) =>
    let trimmed := trim value
    if trimmed = [] then .ok none
    else
      match AGENT_BEHAVIORS.find? fun b => b.text == trimmed with
      | some found => .ok (some found)
      | none => .error (badInput (units "unknown agent_behavior " ++ stringify trimmed ++
          units "; expected one of " ++ joinSep comma (AGENT_BEHAVIORS.map AgentBehavior.text)))
  | some _ => .error (badInput (units "agent_behavior must be a string"))

/-! ## Machine identities -/

/-- mirrors types.ts:293-330 -/
def MACHINE_IDENTITY_MARKERS : List Str :=
  ["claude", "gpt", "qwen", "llama", "mistral", "gemini", "opus", "sonnet", "haiku", "codex",
    "rem", "machine", "model:", "bot", "agent", "grok", "deepseek", "kimi", "gemma", "phi-",
    "mixtral", "command-r", "copilot", "cursor", "devin", "openai", "anthropic", "ollama", "llm",
    "assistant", "grader", "auto"].map units

def isDigit (u : UInt16) : Bool := unit '0' ≤ u && u ≤ unit '9'

/-- `\w` -/
def isWord (u : UInt16) : Bool :=
  isDigit u || (unit 'a' ≤ u && u ≤ unit 'z') || (unit 'A' ≤ u && u ≤ unit 'Z') || u == unit '_'

/-- `[-_.]` -/
def isJoint (u : UInt16) : Bool := u == unit '-' || u == unit '_' || u == unit '.'

def digitsThen (s : Str) : Option Str :=
  match s with
  | u :: s => if isDigit u then some (s.dropWhile isDigit) else none
  | [] => none

/-- `[-_.]v\d` at the start. -/
def versionHere : Str → Bool
  | u :: v :: d :: _ => isJoint u && v == unit 'v' && isDigit d
  | _ => false

/-- `[bkm]?$` -/
def sizeEnd : Str → Bool
  | [] => true
  | [u] => u == unit 'b' || u == unit 'k' || u == unit 'm'
  | _ => false

/-- `[-_.]\d+(\.\d+)?[bkm]?$` at the start. -/
def sizeHere : Str → Bool
  | u :: s =>
    isJoint u && (digitsThen s).any fun rest =>
      sizeEnd rest || match rest with
        | dot :: rest => dot == unit '.' && (digitsThen rest).any sizeEnd
        | [] => false
  | [] => false

/-- `\d+x?\d*b\b` at the start. -/
def parametersHere (s : Str) : Bool :=
  (digitsThen s).any fun rest =>
    let rest := match rest with
      | u :: more => if u == unit 'x' then more.dropWhile isDigit else rest
      | [] => rest
    match rest with
    | b :: rest => b == unit 'b' && !(rest.head?.any isWord)
    | [] => false

/-- `[/:]` at the start. -/
def routeHere : Str → Bool
  | u :: _ => u == unit '/' || u == unit ':'
  | [] => false

/-- mirrors types.ts:345-356: what each pattern matches at a place, and its `source` -/
def MACHINE_IDENTITY_PATTERNS : List ((Str → Bool) × Str) :=
  [(versionHere, units "[-_.]v\\d"),
    (sizeHere, units "[-_.]\\d+(\\.\\d+)?[bkm]?$"),
    (parametersHere, units "\\d+x?\\d*b\\b"),
    (routeHere, units "[/:]")]

/-- `s.includes(m)` -/
def includes (s m : Str) : Bool := s.tails.any fun t => m.isPrefixOf t

/-- What of the denylist a name matches; `lower` is `toLowerCase`. -/
def machineHit (lower : Str → Str) (gradedBy : Str) : Option Str :=
  let lowered := lower gradedBy
  (MACHINE_IDENTITY_MARKERS.find? fun m => includes lowered m).or
    ((MACHINE_IDENTITY_PATTERNS.find? fun p => lowered.tails.any p.1).map Prod.snd)

/-- mirrors types.ts:367-379 -/
def assertNotMachineIdentity (lower : Str → Str) (gradedBy : Str) :
    Except ReviewInputError Unit :=
  match machineHit lower gradedBy with
  | some hit => .error ⟨units "graded_by " ++ stringify gradedBy ++
      units " looks like a machine identity (matched " ++ stringify hit ++
      units ("); review_action is the human ground-truth label -- a model records its opinion " ++
        "in machine_grade, which this API never writes"), 403⟩
  | none => .ok ()

/-- mirrors types.ts:382-395 -/
def parseGradedBy (lower : Str → Str) (value : Str) : Except ReviewInputError Str :=
  let trimmed := trim value
  if trimmed = [] then .error (badInput (units "graded_by must not be empty"))
  else if trimmed.length > 200 then
    .error (badInput (units "graded_by must be 200 characters or fewer"))
  else (assertNotMachineIdentity lower trimmed).map fun _ => trimmed

/-- The identities the review of the list drove through, and two that are human. -/
example : machineHit id (units "grok-4") = some (units "grok") ∧
    machineHit id (units "nova-8x7b") = some (units "\\d+x?\\d*b\\b") ∧
    machineHit id (units "production-host") = none ∧ machineHit id (units "dana-m4") = none := by
  decide +kernel

/-- mirrors types.ts:466-475 (`withIndex`) -/
def withIndex {α : Type} (index : Nat) (run : Except ReviewInputError α) :
    Except ReviewInputError α :=
  run.mapError fun e =>
    { e with message := units "grades[" ++ decimal index ++ units "]: " ++ e.message }

end OpenBrain.Server.CandidateReview
