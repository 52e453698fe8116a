import OpenBrain.Provider.Gate.Events

/-!
# What the policy gate saves (`policy_refresh_gate.py`)

The second gate with a state file of its own, of the same shape: an entry for each agent and
session. An invocation saves its own entry once; a refresh that names no session saves the entry
of every session of the agent in the directory.
-/
namespace OpenBrain.Provider.Gate
open OpenBrain.Core OpenBrain.Core.Py

/-- mirrors policy_refresh_gate.py:96-135 -/
structure PolicySessionState where
  sessionId : Str
  agent : Str
  cwd : Str
  turnCount : Int
  toolCount : Int
  refreshRequired : Bool
  reason : Str
  updatedAt : Str
  totalTurnCount : Option Int
  lastRefreshAt : Option Str
  lastRefreshEvent : Option Str
  lastPromptAt : Option Str

/-- The members that are set. mirrors policy_refresh_gate.py:138-140 -/
def PolicySessionState.to_json (state : PolicySessionState) : PyJson :=
  let set := fun (key : String) (value : Option PyJson) => value.map fun v => (units key, v)
  .obj ([set "sessionId" (some (.str state.sessionId)),
    set "agent" (some (.str state.agent)),
    set "cwd" (some (.str state.cwd)),
    set "turnCount" (some (integerJson state.turnCount)),
    set "toolCount" (some (integerJson state.toolCount)),
    set "refreshRequired" (some (.bool state.refreshRequired)),
    set "reason" (some (.str state.reason)),
    set "updatedAt" (some (.str state.updatedAt)),
    set "totalTurnCount" (state.totalTurnCount.map integerJson),
    set "lastRefreshAt" (state.lastRefreshAt.map Json.str),
    set "lastRefreshEvent" (state.lastRefreshEvent.map Json.str),
    set "lastPromptAt" (state.lastPromptAt.map Json.str)].filterMap id)

def optionalText : Option PyJson → Option Str
  | some (.str s) => some s
  | _ => none

/-- `_LEGACY_THRESHOLD_REASON.match` -/
def isLegacyThresholdReason (reason : Str) : Bool :=
  (units "turn threshold reached:").isPrefixOf reason ||
    (units "tool threshold reached:").isPrefixOf reason

/-- mirrors policy_refresh_gate.py:190-237 -/
def hydratePolicy (stored : Option PyJson) (session_id agent cwd now : Str) :
    PolicySessionState :=
  let source := entryMembers stored
  let state : PolicySessionState :=
    { sessionId := session_id
      agent := agent
      cwd := cwd
      turnCount := integerOf (source.get? (units "turnCount"))
      toolCount := integerOf (source.get? (units "toolCount"))
      refreshRequired := truthy (source.get? (units "refreshRequired"))
      reason := stringOf (source.get? (units "reason"))
      updatedAt := now
      totalTurnCount := some (integerOf (source.get? (units "totalTurnCount")))
      lastRefreshAt := optionalText (source.get? (units "lastRefreshAt"))
      lastRefreshEvent := optionalText (source.get? (units "lastRefreshEvent"))
      lastPromptAt := optionalText (source.get? (units "lastPromptAt")) }
  if state.refreshRequired && isLegacyThresholdReason state.reason then
    { state with
      refreshRequired := false
      reason := [] }
  else state

inductive PolicyEvent where
  | session_start | user_prompt_submit | pre_tool_use | pre_compact | post_compact | refresh
  deriving DecidableEq

/-- The inputs of one run of the policy gate; `named` is the session its arguments or its event
name, empty for none. -/
structure PolicyInvocation where
  event : PolicyEvent
  agent : Str
  named : Str
  cwd : Str
  now : Str

/-- mirrors policy_refresh_gate.py:550 -/
def PolicyInvocation.session_id (i : PolicyInvocation) : Str :=
  if i.named = [] then i.agent ++ units ":" ++ i.cwd else i.named

/-- mirrors policy_refresh_gate.py:551 -/
def PolicyInvocation.state_key (i : PolicyInvocation) : Str :=
  i.agent ++ units ":" ++ i.session_id

/-- mirrors policy_refresh_gate.py:489-498 -/
def markRefreshed (now : Str) (state : PolicySessionState) : PolicySessionState :=
  { state with
    turnCount := 0
    toolCount := 0
    refreshRequired := false
    reason := []
    lastRefreshAt := some now
    lastRefreshEvent := some (units "manual-refresh")
    updatedAt := now }

/-- The keys a refresh marks. mirrors policy_refresh_gate.py:460-471 -/
def refreshedKeys (i : PolicyInvocation) (raw_sessions : Items) : List Str :=
  if i.named ≠ [] then [i.state_key]
  else
    let keys := raw_sessions.filterMap fun entry =>
      match entry.2 with
      | .obj candidate =>
        if optionalText (Members.get? candidate (units "agent")) = some i.agent ∧
            optionalText (Members.get? candidate (units "cwd")) = some i.cwd
        then some entry.1 else none
      | _ => none
    if keys.isEmpty then [i.state_key] else keys

/-- The saves of an invocation, each the entries it replaces.
mirrors policy_refresh_gate.py:325-352, 419-487 -/
def policyProgram (i : PolicyInvocation) (raw_sessions : Items) : List (List (Str × PyJson)) :=
  let state := hydratePolicy (raw_sessions.get? i.state_key) i.session_id i.agent i.cwd i.now
  let own := fun state : PolicySessionState => [[(i.state_key, state.to_json)]]
  match i.event with
  | .session_start =>
    own { state with
      turnCount := 0
      totalTurnCount := some 0
      toolCount := 0
      refreshRequired := false
      reason := []
      lastRefreshAt := some i.now
      lastRefreshEvent := some (units "session-start") }
  | .user_prompt_submit =>
    own { state with
      turnCount := state.turnCount + 1
      totalTurnCount := some (state.totalTurnCount.getD 0 + 1)
      lastPromptAt := some i.now }
  | .pre_tool_use => own { state with toolCount := state.toolCount + 1 }
  | .pre_compact =>
    own { state with
      refreshRequired := true
      reason := units "pre-compact marked context as stale" }
  | .post_compact =>
    own { state with
      refreshRequired := true
      reason := units "post-compact marked context as stale" }
  | .refresh =>
    [(refreshedKeys i raw_sessions).map fun key =>
      let target := match raw_sessions.get? key with
        | some (.obj stored) => hydratePolicy (some (.obj stored)) i.session_id i.agent i.cwd i.now
        | _ => state
      (key, (markRefreshed i.now target).to_json)]

end OpenBrain.Provider.Gate
