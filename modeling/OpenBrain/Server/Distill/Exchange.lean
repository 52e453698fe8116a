import OpenBrain.Server.Distill.AskUserQuestion
import OpenBrain.Server.Distill.Window

/-!
# Exchanges (`server/maintenance/distill-exchange.ts`)

An exchange is an operator's turn and what followed it in its session. `buildExchanges` cuts the
ordered turns, `renderExchangeParts` writes one exchange over as many texts as its turns need and
`prepareExchange` makes a row of each text. The classification of a row is left out: nothing here
reads it.
-/
namespace OpenBrain.Server.Distill
open OpenBrain.Core

/-! ## What counts as speech of the operator -/

/-- mirrors distill-exchange.ts:58-60 -/
def isAskUserQuestionAnswer (turn : DistillTurn) : Bool :=
  turn.role = units "tool" && AUQ_ANSWER_PREFIX.isPrefixOf (trimStart turn.content)

/-- mirrors distill-exchange.ts:75-77 -/
def isOperatorTurn (turn : DistillTurn) : Bool :=
  turn.is_human_prompt || isAskUserQuestionAnswer turn

inductive AnchorKind where
  | typed | askuserquestion | orphan
  deriving DecidableEq

/-- mirrors distill-exchange.ts:82-85 -/
def anchorKindOf : Option DistillTurn → AnchorKind
  | none => .orphan
  | some anchor => if anchor.is_human_prompt then .typed else .askuserquestion

/-- mirrors distill-exchange.ts:257-263 -/
def operatorTextOf (anchor : DistillTurn) : Str :=
  if isAskUserQuestionAnswer anchor then renderAskUserQuestionHead anchor.content
  else normalizeWhitespace anchor.content

/-- The tags of a pattern `<name-(?:...)>`. -/
def tagged (name : Str) (kinds : List Str) : Matcher UInt16 :=
  Matcher.seq (Matcher.lit (units "<" ++ name ++ units "-"))
    (Matcher.seq (fun s => kinds.flatMap fun kind => Matcher.lit kind s) (Matcher.lit (units ">")))

/-- Each pattern, and whether it has to reach the end. mirrors capture/ingest-raw-turn.ts:30-37 -/
def HARNESS_NOISE : List (Matcher UInt16 × Bool) := [
  (Matcher.all [Matcher.lit (units "[Request interrupted by user"),
    Matcher.many (fun u => u ≠ unit ']'), Matcher.lit (units "]")], true),
  (tagged (units "local-command") [units "caveat", units "stdout", units "stderr"], false),
  (tagged (units "command") [units "name", units "message", units "args"], false),
  (tagged (units "bash") [units "input", units "stdout", units "stderr"], false),
  (Matcher.lit (units "Continue from where you left off."), true),
  (Matcher.lit (units "The user doesn't want to proceed with this tool use."), false)]

/-- mirrors capture/ingest-raw-turn.ts:39-43 -/
def isHarnessNoise (content : Str) : Bool :=
  let trimmed := Ecma.trim content
  trimmed = [] || HARNESS_NOISE.any fun (pattern, toEnd) =>
    (pattern trimmed).any fun rest => !toEnd || rest = []

/-! ## The cut -/

/-- mirrors distill-exchange.ts:30-49 -/
structure Exchange where
  anchor : Option DistillTurn
  body : List DistillTurn
  session_ref : Option Str
  anchor_kind : AnchorKind
  deriving DecidableEq

def Exchange.turns (exchange : Exchange) : List DistillTurn :=
  exchange.anchor.toList ++ exchange.body

/-- The variables of the loop of `buildExchanges`. -/
structure Cutting where
  exchanges : List Exchange
  current : Option (Option DistillTurn × List DistillTurn)
  currentSession : Option Str
  started : Bool

def Cutting.start : Cutting := ⟨[], none, none, false⟩

/-- mirrors distill-exchange.ts:290-301 -/
def Cutting.flush (cutting : Cutting) : Cutting :=
  match cutting.current with
  | none => cutting
  | some (anchor, body) =>
    { cutting with
      exchanges := cutting.exchanges ++
        [⟨anchor, body, cutting.currentSession, anchorKindOf anchor⟩]
      current := none }

/-- mirrors distill-exchange.ts:305-309 -/
def Cutting.enter (cutting : Cutting) (session_ref : Option Str) : Cutting :=
  if cutting.started && decide (session_ref = cutting.currentSession) then cutting
  else { cutting.flush with currentSession := session_ref, started := true }

/-- mirrors distill-exchange.ts:303-328 -/
def Cutting.step (cutting : Cutting) (turn : DistillTurn) : Cutting :=
  let cutting := cutting.enter turn.session_ref
  if isOperatorTurn turn then { cutting.flush with current := some (some turn, []) }
  else
    match cutting.current with
    | none => { cutting with current := some (none, [turn]) }
    | some (anchor, body) => { cutting with current := some (anchor, body ++ [turn]) }

/-- mirrors distill-exchange.ts:284-337 -/
def buildExchanges (turns : List DistillTurn) : List Exchange :=
  (turns.foldl Cutting.step Cutting.start).flush.exchanges

/-! ## Rendering -/

/-- mirrors distill-exchange.ts:368 -/
def HEAD_PACKING_ESTIMATE : Nat := 1200

/-- mirrors domain/distiller.ts:237 -/
def CANDIDATE_PART_CHARS : Nat := 4000

/-- mirrors distill-exchange.ts:557 -/
def MARKER_RESERVE : Nat := 64

/-- The line terminators `.` does not match. -/
def isLineTerminator (u : UInt16) : Bool := u = 0x0A || u = 0x0D || u = 0x2028 || u = 0x2029

/-- The match of `^.*?[.!?](?:\s|$)`. -/
def openingSentence : Str → Option Str
  | [] => none
  | u :: s =>
    if (u = unit '.' || u = unit '!' || u = unit '?') && s.head?.all Ecma.isSpace then
      some (u :: s.take 1)
    else if isLineTerminator u then none
    else (openingSentence s).map (u :: ·)

/-- mirrors distill-exchange.ts:400-410 -/
def continuationSignpost (line : Str) : Str :=
  let firstLine := line.takeWhile fun u => u ≠ unit '\n'
  let fallback :=
    if firstLine.length ≤ HEAD_PACKING_ESTIMATE then trimEnd firstLine
    else units "(operator's words in full on part 1)"
  match openingSentence line with
  | none => fallback
  | some sentence =>
    if sentence.length ≤ HEAD_PACKING_ESTIMATE then trimEnd sentence else fallback

/-- mirrors distill-exchange.ts:413-421 -/
def bodyLabel (turn : DistillTurn) : Str :=
  if turn.role = units "tool" then units "tool"
  else if turn.role = units "assistant" then units "agent"
  else if turn.role = [] then units "unknown"
  else turn.role

/-- mirrors distill-exchange.ts:484-489 -/
def headLineOf (exchange : Exchange) : Str :=
  let orphaned :=
    units "OPERATOR: (no operator turn -- agent activity before the first prompt of this session)"
  match exchange.anchor with
  | none => orphaned
  | some anchor =>
    if operatorTextOf anchor = [] then orphaned else units "OPERATOR: " ++ operatorTextOf anchor

/-- mirrors distill-exchange.ts:492-500 -/
def bodyLinesOf (exchange : Exchange) : List Str :=
  exchange.body.filterMap fun turn =>
    let text := normalizeWhitespace turn.content
    if text = [] then none else some (bodyLabel turn ++ units ": " ++ text)

/-- The loop of distill-exchange.ts:513-521, over `parts`, `current` and `used`. -/
def packLines (budget : Nat) : List Str → List Str → Nat → List Str
  | [], current, _ => if current = [] then [] else [joinSep [unit '\n'] current]
  | line :: lines, current, used =>
    if 0 < used ∧ budget < used + line.length + 1 then
      joinSep [unit '\n'] current :: packLines budget lines [line] (line.length + 1)
    else packLines budget lines (current ++ [line]) (used + line.length + 1)

/-- mirrors distill-exchange.ts:509-524 -/
def packBodyLines (lines : List Str) (budget : Nat) : List Str := packLines budget lines [] 0

/-- `[part i of n]` -/
def partMarker (index count : Nat) : Str :=
  units "[part " ++ decimal (index + 1) ++ units " of " ++ decimal count ++ units "]"

/-- mirrors distill-exchange.ts:542-546 -/
def continuationHeadOf (exchange : Exchange) : Str :=
  let rawHeadLine := headLineOf exchange
  if HEAD_PACKING_ESTIMATE < rawHeadLine.length then
    units "OPERATOR (continued): " ++ continuationSignpost rawHeadLine
  else rawHeadLine

/-- mirrors distill-exchange.ts:558-562 -/
def partBudget (exchange : Exchange) : Nat :=
  max 1 (CANDIDATE_PART_CHARS - (continuationHeadOf exchange).length - 2 - MARKER_RESERVE)

/-- mirrors distill-exchange.ts:526-579 -/
def renderExchangeParts (exchange : Exchange) : List Str :=
  let headLine := headLineOf exchange
  let bodyLines := bodyLinesOf exchange
  if bodyLines = [] then [headLine]
  else
    match packBodyLines bodyLines (partBudget exchange) with
    | [part] => [headLine ++ units "\n\n" ++ part]
    | parts => parts.mapIdx fun index body =>
      (if index = 0 then headLine else continuationHeadOf exchange) ++ units "\n\n" ++
        partMarker index parts.length ++ units "\n" ++ body

/-! ## Rows -/

/-- mirrors distill-exchange.ts:653-688 -/
structure PreparedExchangeCandidate where
  ns : Str
  content : Str
  source_turn_ids : List Uuid
  anchor_turn_id : Option Uuid
  operator_text : Option Str
  anchor_kind : AnchorKind
  session_ref : Option Str
  chunk_index : Option Nat
  deriving DecidableEq

/-- mirrors distill-exchange.ts:738-749 -/
def effectiveExchange (exchange : Exchange) : Exchange :=
  match exchange.anchor with
  | none => exchange
  | some anchor =>
    let operatorText := operatorTextOf anchor
    if operatorText ≠ [] && !isHarnessNoise operatorText then exchange
    else { exchange with anchor := none, anchor_kind := .orphan }

/-- mirrors distill-exchange.ts:759-764 -/
def sourceTurnIdsOf (exchange : Exchange) : List Uuid :=
  (exchange.anchor.toList.map fun anchor => anchor.id) ++ exchange.body.map fun turn => turn.id

/-- mirrors distill-exchange.ts:795-829 -/
def candidateRowsOf (effective : Exchange) (contents : List Str) (ns : Str)
    (operatorText : Option Str) : List PreparedExchangeCandidate :=
  contents.mapIdx fun index content => {
    ns := ns
    content := content
    source_turn_ids := sourceTurnIdsOf effective
    anchor_turn_id := effective.anchor.map fun anchor => anchor.id
    operator_text := if effective.anchor.isSome then operatorText else none
    anchor_kind := effective.anchor_kind
    session_ref := effective.session_ref
    chunk_index := if contents.length = 1 ∨ index = 0 then none else some index }

/-- mirrors distill-exchange.ts:831-866 -/
def prepareExchange (exchange : Exchange) : List PreparedExchangeCandidate :=
  let effective := effectiveExchange exchange
  let operatorText := effective.anchor.map operatorTextOf
  let hasBodyContent := effective.body.any fun turn => normalizeWhitespace turn.content ≠ []
  if effective.anchor.isNone && !hasBodyContent then []
  else
    let contents := (renderExchangeParts effective).filter fun part => Ecma.trim part ≠ []
    if contents = [] then []
    else
      match (effective.anchor.map fun anchor => anchor.ns).or
          (effective.body.head?.map fun turn => turn.ns) with
      | none => []
      | some ns =>
        if sourceTurnIdsOf effective = [] then []
        else candidateRowsOf effective contents ns operatorText

/-- mirrors distill-exchange.ts:869-878 -/
def extractExchanges (turns : List DistillTurn) : List PreparedExchangeCandidate :=
  (buildExchanges turns).flatMap prepareExchange

end OpenBrain.Server.Distill
