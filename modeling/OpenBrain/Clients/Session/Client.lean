import OpenBrain.Clients.Session.Wire
import OpenBrain.Core.LTS
import Mathlib.Logic.Function.Basic

/-!
# The session of the TypeScript client (`clients/ts/src/client.ts`)

Calls, closes and initializations run side by side and give way at every `await`: a step is what
one of them does from one `await` to the next. The initialization a client shares is a promise, of
number `n`; whoever awaits it goes on at some step after it is settled. `log` keeps what was
sent and what was answered about sessions, in order.

What a call returns to its caller, and the timer of the rate-limit retry, are left out: a call that
ended is `done`, and a sleeping initialization may wake at any step.
-/
namespace OpenBrain.Clients.Session
open OpenBrain.Core

def MCP_PROTOCOL_VERSION : Str := units "2025-03-26"

structure McpHeaders where
  mcpSessionId : Option Str
  mcpProtocolVersion : Option Str

inductive Event where
  | initializeRequest (headers : McpHeaders)
  | initialized (headers : McpHeaders)
  | toolCall (headers : McpHeaders)
  | delete (headers : McpHeaders)
  /-- the server's answer to `initialize` names a session -/
  | handedOut (sessionId : Str)
  /-- the server answers a call posted under the session that there is none -/
  | expired (sessionId : Str)

/-- The private fields of `OpenBrainClient`. -/
structure Client where
  sessionId : Option Str
  protocolVersion : Str
  nextId : Nat
  initializationPromise : Option Nat
  lifecycleEpoch : Nat

/-- Where `initializeSessionWithRetry` is. -/
inductive InitPc where
  | unborn
  | posting (expectedEpoch requestId : Nat) (retried : Bool)
  | notifying (expectedEpoch : Nat) (retried : Bool) (pendingSessionId : Str)
  | discarding (expectedEpoch : Nat) (retried : Bool) (error : Thrown)
  /-- `initializeSession` threw -/
  | failing (expectedEpoch : Nat) (retried : Bool) (error : Thrown)
  | sleeping (expectedEpoch : Nat)
  | fulfilled
  | rejected

/-- Where `callTool` is; `retry` is whether the session is for the second post. -/
inductive CallPc where
  | idle
  | joining (operationEpoch initialization : Nat) (owner retry : Bool)
  | ready (operationEpoch : Nat) (retry : Bool)
  | posted (operationEpoch : Nat) (requestSessionId : Str)
  | reposted (requestSessionId : Str)
  | done

/-- Where `close` is. -/
inductive ClosePc where
  | idle
  | waiting (initialization : Nat)
  | deleting
  | done

structure State where
  client : Client
  inits : Nat → InitPc
  initCount : Nat
  calls : Nat → CallPc
  closes : Nat → ClosePc
  log : List Event

namespace State

def emit (s : State) (e : Event) : State := { s with log := s.log ++ [e] }

def setInit (s : State) (n : Nat) (pc : InitPc) : State :=
  { s with inits := Function.update s.inits n pc }

def setCall (s : State) (i : Nat) (pc : CallPc) : State :=
  { s with calls := Function.update s.calls i pc }

def setClose (s : State) (j : Nat) (pc : ClosePc) : State :=
  { s with closes := Function.update s.closes j pc }

def setClient (s : State) (c : Client) : State := { s with client := c }

end State

/-- mirrors client.ts:432-462 -/
def mcpHeaders (c : Client) (includeSession : Bool) (sessionId : Option Str) :
    Except Thrown McpHeaders :=
  if includeSession then
    match sessionId.or c.sessionId with
    | none | some [] => .error none
    | some activeSessionId => .ok ⟨some activeSessionId, some c.protocolVersion⟩
  else .ok ⟨none, none⟩

/-- `this.nextId++` -/
def Client.draw (c : Client) : Client := { c with nextId := c.nextId + 1 }

section
variable (toLowerCase : Str → Str)

/-! ## Initializing -/

/-- The start of `initializeSession`, up to its first `await`.
mirrors client.ts:305-321 -/
def State.initializeSession (s : State) (n expectedEpoch : Nat) (retried : Bool) : State :=
  if expectedEpoch ≠ s.client.lifecycleEpoch then s.setInit n (.failing expectedEpoch retried none)
  else
    let requestId := s.client.nextId
    let s := s.setClient s.client.draw
    match mcpHeaders s.client false none with
    | .error error => s.setInit n (.failing expectedEpoch retried error)
    | .ok headers =>
      (s.emit (.initializeRequest headers)).setInit n (.posting expectedEpoch requestId retried)

/-- mirrors client.ts:373-382 -/
def State.discardSession (s : State) (sessionId : Str) : State :=
  match mcpHeaders s.client true (some sessionId) with
  | .error _ => s
  | .ok headers => s.emit (.delete headers)

/-- The `catch` of `initializeSession`. -/
def State.discardPending (s : State) (n expectedEpoch : Nat) (retried : Bool)
    (pendingSessionId : Str) (error : Thrown) : State :=
  (s.setInit n (.discarding expectedEpoch retried error)).discardSession pendingSessionId

/-- `initialize` is answered.
mirrors client.ts:322-334 -/
def State.initializeAnswered (s : State) (n expectedEpoch requestId : Nat) (retried : Bool) :
    Answer → State
  | .rejected error => s.setInit n (.failing expectedEpoch retried error)
  | .response response =>
    match raiseForStatus response with
    | .error error => s.setInit n (.failing expectedEpoch retried error)
    | .ok _ =>
      match headerValue toLowerCase response.headers (units "mcp-session-id") with
      | none | some [] => s.setInit n (.failing expectedEpoch retried none)
      | some pendingSessionId =>
        let s := s.emit (.handedOut pendingSessionId)
        match negotiatedProtocolVersion toLowerCase response requestId with
        | .error error => s.discardPending n expectedEpoch retried pendingSessionId error
        | .ok protocolVersion =>
          let s := s.setClient { s.client with protocolVersion }
          match mcpHeaders s.client true (some pendingSessionId) with
          | .error error => s.discardPending n expectedEpoch retried pendingSessionId error
          | .ok headers =>
            (s.emit (.initialized headers)).setInit n
              (.notifying expectedEpoch retried pendingSessionId)

/-- The notification is answered.
mirrors client.ts:334-340, 384-395 -/
def State.notifyAnswered (s : State) (n expectedEpoch : Nat) (retried : Bool)
    (pendingSessionId : Str) : Answer → State
  | .rejected error => s.discardPending n expectedEpoch retried pendingSessionId error
  | .response response =>
    match raiseForStatus response with
    | .error error => s.discardPending n expectedEpoch retried pendingSessionId error
    | .ok _ =>
      if expectedEpoch ≠ s.client.lifecycleEpoch then
        s.discardPending n expectedEpoch retried pendingSessionId none
      else
        (s.setInit n .fulfilled).setClient { s.client with sessionId := some pendingSessionId }

/-- The `catch` of `initializeSessionWithRetry`.
mirrors client.ts:290-302 -/
def State.initializeFailed (s : State) (n expectedEpoch : Nat) (retried : Bool)
    (error : Thrown) : State :=
  if retried = false ∧ error = some 429 ∧ s.client.sessionId = none then
    s.setInit n (.sleeping expectedEpoch)
  else s.setInit n .rejected

/-- After the rate-limit pause. -/
def State.initializeAgain (s : State) (n expectedEpoch : Nat) : State :=
  if expectedEpoch ≠ s.client.lifecycleEpoch then s.setInit n .rejected
  else s.initializeSession n expectedEpoch true

/-! ## Calls -/

/-- The start of `ensureSession`, up to its first `await`.
mirrors client.ts:264-282 -/
def State.ensureSession (s : State) (i expectedEpoch : Nat) (retry : Bool) : State :=
  if expectedEpoch ≠ s.client.lifecycleEpoch then s.setCall i .done
  else if s.client.sessionId ≠ none then s.setCall i (.ready expectedEpoch retry)
  else
    match s.client.initializationPromise with
    | some n => s.setCall i (.joining expectedEpoch n false retry)
    | none =>
      let n := s.initCount
      let s := { s with initCount := n + 1 }.initializeSession n expectedEpoch false
      (s.setClient { s.client with initializationPromise := some n }).setCall i
        (.joining expectedEpoch n true retry)

/-- `this.initializationPromise = null`, by the call that set it. -/
def Client.settle (c : Client) (n : Nat) (owner : Bool) : Client :=
  if owner ∧ c.initializationPromise = some n then { c with initializationPromise := none } else c

/-- The rest of `ensureSession`, once its initialization is settled. -/
def State.joined (s : State) (i expectedEpoch n : Nat) (owner retry : Bool) : Option State :=
  let settled := s.setClient (s.client.settle n owner)
  match s.inits n with
  | .fulfilled =>
    if expectedEpoch ≠ s.client.lifecycleEpoch then some (settled.setCall i .done)
    else some (settled.setCall i (.ready expectedEpoch retry))
  | .rejected => some (settled.setCall i .done)
  | .unborn | .posting .. | .notifying .. | .discarding .. | .failing .. | .sleeping .. => none

/-- `postToolCall`; `s.client.sessionId` is read for the call and handed on.
mirrors client.ts:194-195, 207, 397-407 -/
def State.postToolCall (s : State) (i operationEpoch : Nat) (retry : Bool) : State :=
  let s := if retry then s else s.setClient s.client.draw
  let requestSessionId := s.client.sessionId
  match mcpHeaders s.client true requestSessionId with
  | .error _ => s.setCall i .done
  | .ok headers =>
    (s.emit (.toolCall headers)).setCall i
      (if retry then .reposted (requestSessionId.getD [])
      else .posted operationEpoch (requestSessionId.getD []))

/-- The first post is answered.
mirrors client.ts:196-206 -/
def State.callAnswered (s : State) (i operationEpoch : Nat) (requestSessionId : Str) :
    Answer → State
  | .rejected _ => s.setCall i .done
  | .response response =>
    if isExpiredSessionResponse toLowerCase response = false then s.setCall i .done
    else
      let s := s.emit (.expired requestSessionId)
      if operationEpoch ≠ s.client.lifecycleEpoch then s.setCall i .done
      else
        let s :=
          if s.client.sessionId = some requestSessionId then
            s.setClient { s.client with sessionId := none }
          else s
        s.ensureSession i operationEpoch true

def State.retryAnswered (s : State) (i : Nat) (requestSessionId : Str) : Answer → State
  | .rejected _ => s.setCall i .done
  | .response response =>
    if isExpiredSessionResponse toLowerCase response = false then s.setCall i .done
    else (s.emit (.expired requestSessionId)).setCall i .done

/-! ## Closing -/

/-- The end of `close`, up to its last `await`.
mirrors client.ts:165-169 -/
def State.takeSession (s : State) (j : Nat) : State :=
  match s.client.sessionId with
  | none => s.setClose j .done
  | some sessionId =>
    ((s.setClient { s.client with sessionId := none }).discardSession sessionId).setClose j
      .deleting

/-- mirrors client.ts:153-164 -/
def State.close (s : State) (j : Nat) : State :=
  let s := s.setClient { s.client with lifecycleEpoch := s.client.lifecycleEpoch + 1 }
  match s.client.initializationPromise with
  | some n => s.setClose j (.waiting n)
  | none => s.takeSession j

def InitPc.settled : InitPc → Bool
  | .fulfilled | .rejected => true
  | .unborn | .posting .. | .notifying .. | .discarding .. | .failing .. | .sleeping .. => false

/-! ## The system -/

inductive Label where
  /-- `callTool` is called -/
  | call (i : Nat)
  /-- `close` is called -/
  | close (j : Nat)
  /-- an initialization's request is answered -/
  | initAnswer (n : Nat) (answer : Answer)
  /-- an initialization that waits for no answer goes on -/
  | initNext (n : Nat)
  /-- a call's post is answered -/
  | callAnswer (i : Nat) (answer : Answer)
  /-- a call that waits for no answer goes on -/
  | callNext (i : Nat)
  | closeNext (j : Nat)

def State.step (s : State) : Label → Option State
  | .call i =>
    match s.calls i with
    | .idle => some (s.ensureSession i s.client.lifecycleEpoch false)
    | .joining .. | .ready .. | .posted .. | .reposted .. | .done => none
  | .close j =>
    match s.closes j with
    | .idle => some (s.close j)
    | .waiting .. | .deleting | .done => none
  | .initAnswer n answer =>
    match s.inits n with
    | .posting expectedEpoch requestId retried =>
      some (s.initializeAnswered toLowerCase n expectedEpoch requestId retried answer)
    | .notifying expectedEpoch retried pendingSessionId =>
      some (s.notifyAnswered n expectedEpoch retried pendingSessionId answer)
    | .discarding expectedEpoch retried error =>
      some (s.setInit n (.failing expectedEpoch retried error))
    | .unborn | .failing .. | .sleeping .. | .fulfilled | .rejected => none
  | .initNext n =>
    match s.inits n with
    | .failing expectedEpoch retried error =>
      some (s.initializeFailed n expectedEpoch retried error)
    | .sleeping expectedEpoch => some (s.initializeAgain n expectedEpoch)
    | .unborn | .posting .. | .notifying .. | .discarding .. | .fulfilled | .rejected => none
  | .callAnswer i answer =>
    match s.calls i with
    | .posted operationEpoch requestSessionId =>
      some (s.callAnswered toLowerCase i operationEpoch requestSessionId answer)
    | .reposted requestSessionId => some (s.retryAnswered toLowerCase i requestSessionId answer)
    | .idle | .joining .. | .ready .. | .done => none
  | .callNext i =>
    match s.calls i with
    | .joining operationEpoch n owner retry => s.joined i operationEpoch n owner retry
    | .ready operationEpoch retry => some (s.postToolCall i operationEpoch retry)
    | .idle | .posted .. | .reposted .. | .done => none
  | .closeNext j =>
    match s.closes j with
    | .waiting n => if (s.inits n).settled then some (s.takeSession j) else none
    | .deleting => some (s.setClose j .done)
    | .idle | .done => none

def State.fresh : State where
  client := ⟨none, MCP_PROTOCOL_VERSION, 1, none, 0⟩
  inits := fun _ => .unborn
  initCount := 0
  calls := fun _ => .idle
  closes := fun _ => .idle
  log := []

def system : LTS State Label := LTS.ofFn (· = .fresh) fun s l => s.step toLowerCase l

end

end OpenBrain.Clients.Session
