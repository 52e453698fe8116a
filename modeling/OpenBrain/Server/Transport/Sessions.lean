import OpenBrain.Core.Assoc
import OpenBrain.Core.LTS

/-!
# The transport session manager (`session-manager.ts`, `session-store.ts`)

The store maps session ids to entries; an entry counts its requests in flight, and
a slot is reserved while an initialize handshake runs. `step` interleaves
requests, handshakes, DELETEs, idle timers, sweeps and the shutdown of any number
of clients, cut at every `await`.

The timer of an entry is armed as long as the entry is in the map, so an idle
expiry (`idle`) may come for any live session at any time. From outside come the
session ids (`randomUUID`, never drawn twice) and the transport of the MCP library,
which announces its session at most once, during the handshake, and may close by
itself.

Three fields are not the manager's own: the requests running under an entry, the
entries whose DELETE has not been answered yet, and those for which it was answered
`session closed`.
-/
namespace OpenBrain.Server.Transport
open OpenBrain.Core

/-! ## Requests -/

/-- mirrors config.ts:80-90 -/
inductive Role where
  | admin
  | agent
  | discord
  | obAdmin
  | promoter
  | readonly
  deriving DecidableEq

/-- mirrors auth/types.ts:14 -/
inductive NamespaceSource where
  | token
  | delegated
  deriving DecidableEq

/-- mirrors session-store.ts:18-20 -/
structure SessionIdentity where
  role : Role
  clientId : String
  tokenClientId : String
  namespaceSource : NamespaceSource
  agentId : Option String
  deriving DecidableEq

/-- mirrors session-store.ts:43-57 -/
def sameIdentity (left : Option SessionIdentity) (right : SessionIdentity) : Bool :=
  match left with
  | none => false
  | some left =>
    left.tokenClientId == right.tokenClientId && left.role == right.role &&
      left.clientId == right.clientId && left.namespaceSource == right.namespaceSource &&
      left.agentId.getD "" == right.agentId.getD ""

/-- What the handlers read of a request. `header` is `mcp-session-id` when it is one
string, and `isInitialize` the library's `isInitializeRequest`. -/
structure Request where
  header : Option String
  isInitialize : Bool
  auth : Option SessionIdentity

def isHex (c : Char) : Bool :=
  c.isDigit || (decide ('a' ≤ c) && decide (c ≤ 'f')) || (decide ('A' ≤ c) && decide (c ≤ 'F'))

/-- mirrors session-manager.ts:12-13 (`UUID_RE`) -/
def isUuid (s : String) : Bool :=
  s.toList.length == 36 && s.toList.zipIdx.all fun (c, i) =>
    if i ∈ [8, 13, 18, 23] then c == '-'
    else if i = 14 then c == '4'
    else if i = 19 then "89abAB".toList.contains c
    else isHex c

/-- mirrors session-manager.ts:55-58 -/
def requestSessionId (r : Request) : Option String :=
  r.header.bind fun raw => if isUuid raw then some raw else none

/-! ## The store -/

/-- mirrors session-store.ts:22-28 -/
structure Config where
  sessionTtlMs : Int
  maxSessions : Nat
  retryAfterSeconds : Nat

/-- mirrors session-store.ts:30-36; `serial` tells entries apart -/
structure SessionEntry where
  serial : Nat
  identity : SessionIdentity
  lastActivity : Int
  inFlight : Int

structure Store where
  sessions : List (String × SessionEntry)
  pendingInitializes : Int

namespace Store

def get (s : Store) (sessionId : String) : Option SessionEntry := s.sessions.lookup sessionId

def activeCount (s : Store) : Int := s.sessions.length + s.pendingInitializes

def beginInitialize (s : Store) : Store :=
  { s with pendingInitializes := s.pendingInitializes + 1 }

def endInitialize (s : Store) : Store :=
  { s with pendingInitializes := max 0 (s.pendingInitializes - 1) }

/-- mirrors session-store.ts:99-101 -/
def admits (cfg : Config) (s : Store) : Bool := decide (s.activeCount < cfg.maxSessions)

/-- mirrors session-store.ts:103-119 -/
def register (s : Store) (sessionId : String) (serial : Nat) (identity : SessionIdentity)
    (now : Int) : Store :=
  { s with sessions := Assoc.set s.sessions sessionId ⟨serial, identity, now, 0⟩ }

/-- `sessions.delete`; what `forget` does too (mirrors session-store.ts:122-128). -/
def delete (s : Store) (sessionId : String) : Store :=
  { s with sessions := s.sessions.filter fun p => p.1 ≠ sessionId }

def update (s : Store) (sessionId : String) (f : SessionEntry → SessionEntry) : Store :=
  { s with sessions := s.sessions.map fun p => if p.1 = sessionId then (p.1, f p.2) else p }

/-- mirrors session-store.ts:130-138 -/
def armExpiry (s : Store) (sessionId : String) (now : Int) : Store :=
  s.update sessionId fun e => { e with lastActivity := now }

/-- mirrors session-store.ts:140-151, up to the closing of the transport -/
def expire (s : Store) (sessionId : String) (now : Int) : Store :=
  match s.get sessionId with
  | none => s
  | some entry => if entry.inFlight > 0 then s.armExpiry sessionId now else s.delete sessionId

/-- mirrors session-store.ts:186-194 (`runWithSession`), before the work -/
def enter (s : Store) (sessionId : String) : Store :=
  s.update sessionId fun e => { e with inFlight := e.inFlight + 1 }

/-- mirrors session-store.ts:195-201: the `finally` of `runWithSession` -/
def leave (s : Store) (sessionId : String) (now : Int) : Store :=
  (s.update sessionId fun e => { e with inFlight := max 0 (e.inFlight - 1) }).armExpiry sessionId
    now

/-- mirrors session-store.ts:205-215 -/
def sweep (cfg : Config) (s : Store) (now : Int) : Store :=
  s.sessions.foldl (fun st p =>
    if p.2.inFlight > 0 then st
    else if now - p.2.lastActivity ≤ cfg.sessionTtlMs * 2 then st
    else st.expire p.1 now) s

/-- mirrors session-manager.ts:304-311 (`close`) -/
def closeAll (s : Store) (now : Int) : Store :=
  (s.sessions.map Prod.fst).foldl (fun st sessionId => st.expire sessionId now) s

end Store

/-! ## The handlers -/

/-- A response that does not come from the transport: status, error, and for a full
manager the counts and the retry hint. -/
structure Refusal where
  status : Nat
  error : String
  cap : Option (Int × Nat × Nat)
  deriving DecidableEq

/-- A handshake between `beginInitialize` and `endInitialize`: the session its
transport announced, and whether it failed and is being retired. -/
structure Init where
  identity : SessionIdentity
  session : Option String
  failed : Bool
  deriving DecidableEq

structure State where
  store : Store
  next : Nat
  used : List String
  inits : List Init
  running : List (String × Nat)
  deleting : List Nat
  closed : List Nat

instance runningLawful : LawfulBEq (String × Nat) := inferInstance

def serves (s : State) (r : Request) : Option (String × SessionEntry) :=
  (requestSessionId r).bind fun sessionId => (s.store.get sessionId).bind fun entry =>
    if sameIdentity r.auth entry.identity then some (sessionId, entry) else none

/-- mirrors session-manager.ts:93-117 (`handleExisting`), `none` when there is no such
session -/
def handleExisting (s : State) (r : Request) (now : Int) : Option (State × Option Refusal) :=
  (requestSessionId r).bind fun sessionId => (s.store.get sessionId).map fun entry =>
    if sameIdentity r.auth entry.identity then
      ({ s with
        store := (s.store.armExpiry sessionId now).enter sessionId
        running := (sessionId, entry.serial) :: s.running }, none)
    else (s, some ⟨403, "Request identity does not match session", none⟩)

/-- mirrors session-manager.ts:142-165 (`rejectInitialize`) -/
def rejectInitialize (cfg : Config) (s : State) (r : Request) : Option Refusal :=
  if (requestSessionId r).isSome || !r.isInitialize then
    some ⟨400, "Bad request: missing session or not an initialize request", none⟩
  else if !s.store.admits cfg then
    some ⟨429, "Too many active sessions",
      some (s.store.activeCount, cfg.maxSessions, cfg.retryAfterSeconds)⟩
  else if r.auth.isNone then some ⟨401, "Auth info missing", none⟩
  else none

/-- mirrors session-manager.ts:174-175: the slot is reserved, then the transport is
built, outside the `try` -/
def beginInitialize (s : State) (identity : SessionIdentity) (factoryThrows : Bool) : State :=
  { s with
    store := s.store.beginInitialize
    inits := if factoryThrows then s.inits else ⟨identity, none, false⟩ :: s.inits }

/-- mirrors session-manager.ts:197-228 (`handlePost`) -/
def handlePost (cfg : Config) (s : State) (r : Request) (now : Int) (factoryThrows : Bool) :
    State × Option Refusal :=
  match handleExisting s r now with
  | some res => res
  | none =>
    match rejectInitialize cfg s r, r.auth with
    | some refusal, _ => (s, some refusal)
    | none, some identity => (beginInitialize s identity factoryThrows, none)
    | none, none => (s, none)

/-- mirrors session-manager.ts:230-249 (`handleGet`) -/
def handleGet (s : State) (r : Request) (now : Int) : State × Option Refusal :=
  match handleExisting s r now with
  | some res => res
  | none => (s, some ⟨400, "Invalid or missing session", none⟩)

/-- mirrors session-manager.ts:251-269 (`handleDelete`), up to the answer -/
def handleDelete (s : State) (r : Request) (now : Int) : State × Option Refusal :=
  match (requestSessionId r).bind fun sessionId =>
    (s.store.get sessionId).map fun entry => (sessionId, entry) with
  | none => (s, some ⟨400, "Invalid or missing session", none⟩)
  | some (sessionId, entry) =>
    if sameIdentity r.auth entry.identity then
      ({ s with
        store := s.store.expire sessionId now
        deleting := entry.serial :: s.deleting }, none)
    else (s, some ⟨403, "Request identity does not match session", none⟩)

/-! ## The system -/

inductive Label where
  | post (r : Request) (now : Int) (factoryThrows : Bool)
  | get (r : Request) (now : Int)
  | delete (r : Request) (now : Int)
  | answerDelete (serial : Nat)
  | finish (sessionId : String) (serial : Nat) (now : Int)
  | initialized (i : Init) (sessionId : String) (now : Int)
  | initializeFails (i : Init) (now : Int)
  | endInitialize (i : Init)
  | idle (sessionId : String) (now : Int)
  | sweep (now : Int)
  | transportClosed (sessionId : String)
  | close (now : Int)

/-- mirrors session-manager.ts:180-190: the `catch` of `runInitialize`, before its
`await` -/
def retireInitialize (s : Store) (i : Init) (now : Int) : Store :=
  match i.session with
  | none => s
  | some sessionId => s.expire sessionId now

def step (cfg : Config) (s : State) : Label → Option State
  | .post r now factoryThrows => some (handlePost cfg s r now factoryThrows).1
  | .get r now => some (handleGet s r now).1
  | .delete r now => some (handleDelete s r now).1
  | .answerDelete serial =>
    if serial ∈ s.deleting then
      some { s with deleting := s.deleting.erase serial, closed := serial :: s.closed }
    else none
  | .finish sessionId serial now =>
    if (sessionId, serial) ∈ s.running then
      some { s with
        store := s.store.leave sessionId now
        running := s.running.erase (sessionId, serial) }
    else none
  | .initialized i sessionId now =>
    if i ∈ s.inits ∧ i.session = none ∧ i.failed = false ∧ sessionId ∉ s.used then
      some { s with
        store := s.store.register sessionId s.next i.identity now
        next := s.next + 1
        used := sessionId :: s.used
        inits := { i with session := some sessionId } :: s.inits.erase i }
    else none
  | .initializeFails i now =>
    if i ∈ s.inits ∧ i.failed = false then
      some { s with
        store := retireInitialize s.store i now
        inits := { i with failed := true } :: s.inits.erase i }
    else none
  | .endInitialize i =>
    if i ∈ s.inits then
      some { s with store := s.store.endInitialize, inits := s.inits.erase i }
    else none
  | .idle sessionId now =>
    if (s.store.get sessionId).isSome then some { s with store := s.store.expire sessionId now }
    else none
  | .sweep now => some { s with store := s.store.sweep cfg now }
  | .transportClosed sessionId => some { s with store := s.store.delete sessionId }
  | .close now => some { s with store := s.store.closeAll now }

def start : State := ⟨⟨[], 0⟩, 0, [], [], [], [], []⟩

def system (cfg : Config) : LTS State Label := LTS.ofFn (· = start) (step cfg)

end OpenBrain.Server.Transport
