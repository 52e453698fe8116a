import OpenBrain.Core.EcmaJson

/-!
# What the client reads in a response (`clients/ts/src/mcp-transport.ts`, `client.ts`)

`none` where the source throws; an error is known by its `statusCode`, which is all the client
asks of one.
-/
namespace OpenBrain.Clients.Session
open OpenBrain.Core OpenBrain.Core.Ecma

/-- mirrors mcp-transport.ts:13-17 -/
structure TransportResponse where
  status : Nat
  headers : List (Str × Str)
  text : Str

/-- The `statusCode` of what was thrown. -/
abbrev Thrown := Option Nat

/-- What a post comes back with. -/
inductive Answer where
  | response (r : TransportResponse)
  | rejected (error : Thrown)

section
variable (toLowerCase : Str → Str)

/-- mirrors mcp-transport.ts:199-210 -/
def headerValue (headers : List (Str × Str)) (name : Str) : Option Str :=
  (headers.find? fun h => decide (toLowerCase h.1 = toLowerCase name)).map Prod.snd

/-! ## Server-sent events -/

/-- `value["id"] === expectedId` -/
def isId (expectedId : Nat) : JsonValue → Bool
  | .num n => decide (n.toInt = some (expectedId : Int))
  | _ => false

/-- `value === text` -/
def isText (text : Str) : JsonValue → Bool
  | .str s => decide (s = text)
  | _ => false

/-- mirrors mcp-transport.ts:93-97 -/
def hasExpectedId (value : JsonValue) (expectedId : Nat) : Bool :=
  match value with
  | .obj ms => (Members.get? ms (units "id")).any (isId expectedId)
  | _ => false

/-- mirrors mcp-transport.ts:100-108 -/
def dataBlockForId (block : Str) (expectedId : Nat) : Option Str :=
  match parseText block with
  | some message => if hasExpectedId message expectedId then some block else none
  | none => none

/-- `text.split(/\r?\n/)` -/
def splitLines : Str → List Str
  | [] => [[]]
  | [u] => if u = 0x0A then [[], []] else [[u]]
  | u :: v :: s =>
    if u = 0x0A then [] :: splitLines (v :: s)
    else if u = 0x0D ∧ v = 0x0A then [] :: splitLines s
    else
      match splitLines (v :: s) with
      | line :: rest => (u :: line) :: rest
      | [] => [[u]]

/-- One line, with the blocks and the lines of the block so far. -/
def sseLine (acc : List Str × List Str) (line : Str) : List Str × List Str :=
  if line = [] then
    if acc.2 = [] then acc else (acc.1 ++ [joinSep [0x0A] acc.2], [])
  else if (units "data:").isPrefixOf line then
    (acc.1, acc.2 ++ [trim (line.drop (units "data:").length)])
  else acc

/-- mirrors mcp-transport.ts:111-130 -/
def sseDataBlocks (text : Str) : List Str :=
  let (dataBlocks, current) := (splitLines text).foldl sseLine ([], [])
  if current = [] then dataBlocks else dataBlocks ++ [joinSep [0x0A] current]

/-- mirrors mcp-transport.ts:132-147 -/
def lastSseData (text : Str) (expectedId : Nat) : Option Str :=
  let dataBlocks := sseDataBlocks text
  (dataBlocks.findSome? fun block => dataBlockForId block expectedId).or dataBlocks.getLast?

/-! ## Responses -/

/-- mirrors client.ts:464-475 -/
def raiseForStatus (response : TransportResponse) : Except Thrown Unit :=
  if 200 ≤ response.status ∧ response.status < 300 then .ok () else .error (some response.status)

/-- `s.includes(m)` -/
def contains (s m : Str) : Bool := s.tails.any fun t => m.isPrefixOf t

/-- mirrors client.ts:509-547 -/
def parseJsonRpcBody (response : TransportResponse) (expectedId : Nat) :
    Except Thrown (Members Number) := do
  let text := trim response.text
  if text = [] then .error none
  let contentType := (headerValue toLowerCase response.headers (units "content-type")).getD []
  let text ←
    if contains contentType (units "text/event-stream") || (units "event:").isPrefixOf text ||
        (units "data:").isPrefixOf text then
      match lastSseData text expectedId with
      | some data => .ok data
      | none => .error none
    else .ok text
  match parseText text with
  | none => .error (some response.status)
  | some (.obj message) => .ok message
  | some _ => .error none

/-- mirrors client.ts:477-506 -/
def decodeJsonRpcResponse (response : TransportResponse) (expectedId : Nat) :
    Except Thrown (Members Number) := do
  let message ← parseJsonRpcBody toLowerCase response expectedId
  if (Members.get? message (units "jsonrpc")).any (isText (units "2.0")) = false then .error none
  if (Members.get? message (units "id")).any (isId expectedId) = false then .error none
  if (Members.get? message (units "error")).isSome then .error none
  .ok message

/-- mirrors client.ts:343-363 -/
def negotiatedProtocolVersion (response : TransportResponse) (requestId : Nat) :
    Except Thrown Str := do
  let message ← decodeJsonRpcResponse toLowerCase response requestId
  match Members.get? message (units "result") with
  | some (.obj result) =>
    match Members.get? result (units "protocolVersion") with
    | some (.str protocolVersion) => .ok protocolVersion
    | _ => .error none
  | _ => .error none

/-- mirrors client.ts:76-79 -/
def EXPIRED_SESSION_MESSAGES : List Str :=
  [units "bad request: missing session or not an initialize request",
    units "invalid or missing session"]

def isExpiredMessage (text : Str) : Bool :=
  EXPIRED_SESSION_MESSAGES.contains (toLowerCase (trim text))

/-- mirrors client.ts:82-93 -/
def namesExpiredSession : Option JsonValue → Bool
  | some (.str text) => isExpiredMessage toLowerCase text
  | some (.obj error) =>
    match Members.get? error (units "message") with
    | some (.str text) => isExpiredMessage toLowerCase text
    | _ => false
  | _ => false

/-- mirrors client.ts:409-426 -/
def isExpiredSessionResponse (response : TransportResponse) : Bool :=
  if response.status = 404 then true
  else if response.status ≠ 400 then false
  else
    match parseText response.text with
    | none => isExpiredMessage toLowerCase response.text
    | some (.obj body) => namesExpiredSession toLowerCase (Members.get? body (units "error"))
    | some _ => false

end

end OpenBrain.Clients.Session
