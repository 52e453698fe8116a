import OpenBrain.Core.LTS
import OpenBrain.Core.Table
import OpenBrain.Server.Security.NamespacePolicy
import OpenBrain.Server.Security.SharedNamespace
import Mathlib.Data.List.Lex
import Mathlib.Data.List.Sort

/-!
# The source registry (`server/domain/source-registry.ts`, `source-registry-model.ts`)

The table `ob_sources`, the three calls that write it and the gate that reads it. A call is one
statement, and a second one when the first changed nothing; calls run side by side, statement by
statement. `Wire` is what lies between the handlers and the rows; nothing is assumed of it.
-/
namespace OpenBrain.Server.SourceRegistry
open OpenBrain.Core OpenBrain.Server.Auth OpenBrain.Server.Security

abbrev Uuid := Nat

/-! ## Vocabulary -/

inductive SourceKind where
  | git | directory | drop | conversation
  deriving DecidableEq, Repr

inductive ApprovalState where
  | pending | approved | rejected
  deriving DecidableEq, Repr

inductive LifecycleState where
  | active | paused | retired
  deriving DecidableEq, Repr

inductive SyncState where
  | never_synced | syncing | synced | error
  deriving DecidableEq, Repr

/-- What the server receives of a text parameter, of a jsonb parameter, of a text cast to
`timestamptz` and of a text cast to `uuid`; `none` when it refuses the statement. -/
structure Wire where
  text : Str → Option Str
  jsonb : Json Double → Option (Json Double)
  timestamp : Str → Option Int
  uuid : Str → Option Uuid

/-- mirrors 027_source_registry.sql:21-78 and source-registry-model.ts:119-139 -/
structure SourceRecord where
  id : Uuid
  ns : Str
  scope : Json Double
  source_kind : SourceKind
  external_id : Str
  title : Option Str
  approval_state : ApprovalState
  approved_by : Option Str
  approved_at : Option Int
  lifecycle_state : LifecycleState
  sync_state : SyncState
  language : Option Str
  config : Json Double
  content_hash : Option Str
  last_synced_at : Option Int
  revision : Int
  created_by : Str
  created_at : Int
  updated_at : Int

/-- mirrors source-registry-model.ts:82-97 -/
structure RegisterSourceInput where
  source_kind : SourceKind
  external_id : Str
  target_namespace : Option Str
  title : Option Str
  scope : Option (Json Double)
  language : Option Str
  config : Option (Json Double)
  approved : Option Bool

/-- mirrors source-registry-model.ts:99-128; in an optional nullable field `some none` is the
null the caller wrote -/
structure UpdateSourceInput where
  id : Str
  target_namespace : Option Str
  expected_revision : Int
  title : Option (Option Str)
  scope : Option (Json Double)
  language : Option (Option Str)
  config : Option (Json Double)
  lifecycle_state : Option LifecycleState
  sync_state : Option SyncState
  content_hash : Option (Option Str)
  last_synced_at : Option (Option Str)
  approval_state : Option ApprovalState

inductive Code where
  | namespace_denied | approval_denied | not_found | stale_revision | conflict | retired
  deriving DecidableEq, Repr

/-- A `SourceRegistryResult`, or the error the call ends with. -/
inductive Outcome (α : Type) where
  | ok (data : α)
  | refused (code : Code) (reason : Option Str)
  | threw

/-- mirrors source-registry-model.ts:211-213 -/
def effectiveWriteNamespace (env : SharedNamespaceEnv) (auth : AuthInfo)
    (requested : Option Str) : Str :=
  physicalNamespace (requested.getD auth.clientId) env

/-- mirrors source-registry-model.ts:218-221 -/
def canApprove (auth : AuthInfo) : Bool :=
  if auth.namespaceSource = some .header then false
  else auth.role == .admin || auth.role == .ob_admin

/-- `value ?? {}` -/
def orEmpty : Json Double → Json Double
  | .null => .obj []
  | v => v

/-- mirrors source-registry-model.ts:153-175; instants stay instants -/
def mapRow (row : SourceRecord) : SourceRecord :=
  { row with scope := orEmpty row.scope, config := orEmpty row.config }

/-! ## Comparing JSON values -/

/-- The order in which JavaScript compares two texts. -/
def keyOrder (entry : Str × Str) : List Nat := entry.1.map UInt16.toNat

def stableObject (entries : List (Str × Str)) : Str :=
  unit '{' :: joinSep [unit ','] (entries.map fun entry =>
    Ecma.quote entry.1 ++ unit ':' :: entry.2) ++ [unit '}']

mutual

/-- mirrors source-registry.ts:238-251 -/
def stableStringify : Json Double → Str
  | .arr xs => unit '[' :: joinSep [unit ','] (stableElems xs) ++ [unit ']']
  | .obj ms => stableObject ((stableEntries ms).insertionSort fun a b => keyOrder a ≤ keyOrder b)
  | v => Ecma.json.print v

def stableElems : List (Json Double) → List Str
  | [] => []
  | x :: xs => stableStringify x :: stableElems xs

def stableEntries : List (Str × Json Double) → List (Str × Str)
  | [] => []
  | (k, v) :: ms => (k, stableStringify v) :: stableEntries ms

end

/-- mirrors source-registry.ts:234-236 -/
def stableEqual (a b : Json Double) : Bool := decide (stableStringify a = stableStringify b)

/-- mirrors source-registry.ts:219-231 -/
def describedFieldsMatch (existing : SourceRecord) (input : RegisterSourceInput) : Bool :=
  let scalarChanged :=
    input.title.any (fun title => decide (some title ≠ existing.title)) ||
    input.language.any fun language => decide (some language ≠ existing.language)
  if scalarChanged then false
  else
    let structuralChanged :=
      input.scope.any (fun scope => !stableEqual scope existing.scope) ||
      input.config.any fun config => !stableEqual config existing.config
    !structuralChanged

/-- mirrors source-registry.ts:202-214 -/
def isSemanticallyIdenticalRegistration (existing : SourceRecord) (input : RegisterSourceInput)
    (requestedApprovalState : ApprovalState) : Bool :=
  if describedFieldsMatch existing input = false then false
  else !(requestedApprovalState == .approved && existing.approval_state != .approved)

/-! ## `registerSource` -/

/-- The identity of a source, as the rows hold it. -/
structure SourceKey where
  ns : Str
  source_kind : SourceKind
  external_id : Str
  deriving DecidableEq

def SourceRecord.key (row : SourceRecord) : SourceKey := ⟨row.ns, row.source_kind, row.external_id⟩

def optional {α β : Type} (read : α → Option β) : Option α → Option (Option β)
  | none => some none
  | some a => (read a).map some

/-- The row of the INSERT, `none` when a parameter is refused.
mirrors source-registry.ts:104-142 -/
def insertSourceRow (W : Wire) (ns : Str) (auth : AuthInfo) (input : RegisterSourceInput)
    (approved : Bool) (approvalState : ApprovalState) (id : Uuid) (now : Int) :
    Option SourceRecord := do
  let ns ← W.text ns
  let scope ← W.jsonb (input.scope.getD (.obj []))
  let external_id ← W.text input.external_id
  let title ← optional W.text input.title
  let approved_by ← optional W.text (if approved then some auth.clientId else none)
  let language ← optional W.text input.language
  let config ← W.jsonb (input.config.getD (.obj []))
  let created_by ← W.text auth.clientId
  some {
    id, ns, scope, source_kind := input.source_kind, external_id, title
    approval_state := approvalState, approved_by
    approved_at := if approved then some now else none
    lifecycle_state := .active, sync_state := .never_synced, language, config
    content_hash := none, last_synced_at := none, revision := 1, created_by
    created_at := now, updated_at := now }

def requestedState (auth : AuthInfo) (input : RegisterSourceInput) : ApprovalState :=
  if input.approved = some true ∧ canApprove auth then .approved else .pending

/-- What a call does next. -/
inductive Waiting where
  /-- the row of the identity is read -/
  | duplicate (ns : Str) (input : RegisterSourceInput) (approvalState : ApprovalState)
  /-- the row an update missed is read -/
  | updateMiss (id ns : Str)
  /-- the row a removal missed is read -/
  | removeMiss (id ns : Str)

/-- How a call's first statement ends. -/
inductive First (α : Type) where
  | done (outcome : Outcome α)
  | next (waiting : Waiting)

/-- A change of the table: the row a statement wrote. -/
inductive Change where
  | none
  | inserted (row : SourceRecord)
  | updated (row : SourceRecord)

/-- mirrors source-registry.ts:33-87; `id` is the one `gen_random_uuid` draws -/
def registerSource (W : Wire) (env : SharedNamespaceEnv) (auth : AuthInfo)
    (input : RegisterSourceInput) (rows : List SourceRecord) (id : Uuid) (now : Int) :
    First SourceRecord × Change :=
  let ns := effectiveWriteNamespace env auth input.target_namespace
  let nsCheck := canWriteNamespace env auth ns
  if nsCheck.allowed = false then (.done (.refused .namespace_denied nsCheck.reason), .none)
  else
    let wantsApproval := decide (input.approved = some true)
    let approved := wantsApproval && canApprove auth
    if wantsApproval && !approved then
      (.done (.refused .approval_denied
        (some (units "approval requires an authorized admin/ob-admin token identity"))), .none)
    else
      let approvalState : ApprovalState := if approved then .approved else .pending
      match insertSourceRow W ns auth input approved approvalState id now with
      | none => (.done .threw, .none)
      | some row =>
        if row.key ∈ rows.map SourceRecord.key then
          (.next (.duplicate ns input approvalState), .none)
        else (.done (.ok (mapRow row)), .inserted row)

/-- mirrors source-registry.ts:152-193 -/
def resolveDuplicateRegistration (W : Wire) (rows : List SourceRecord) (ns : Str)
    (input : RegisterSourceInput) (approvalState : ApprovalState) : Outcome SourceRecord :=
  match W.text ns, W.text input.external_id with
  | some ns, some external_id =>
    match rows.find? fun row => decide (row.key = ⟨ns, input.source_kind, external_id⟩) with
    | none =>
      .refused .conflict (some (units "source already registered for this namespace and kind"))
    | some row =>
      let existing := mapRow row
      if isSemanticallyIdenticalRegistration existing input approvalState then .ok existing
      else
        .refused .conflict (some (units
          "source already registered for this namespace and kind with different attributes"))
  | _, _ => .threw

/-! ## `updateSource` and `removeSource` -/

/-- The bounds of an `integer`. -/
def inInteger (n : Int) : Bool := decide (-2147483648 ≤ n) && decide (n ≤ 2147483647)

/-- The SET clause but for the revision and `updated_at`, `none` when a parameter is refused.
mirrors source-registry.ts:371-407 -/
def buildUpdateAssignments (W : Wire) (auth : AuthInfo) (input : UpdateSourceInput)
    (grantingApproval : Bool) (now : Int) : Option (SourceRecord → SourceRecord) := do
  let title ← optional (optional W.text) input.title
  let scope ← optional W.jsonb input.scope
  let language ← optional (optional W.text) input.language
  let config ← optional W.jsonb input.config
  let content_hash ← optional (optional W.text) input.content_hash
  let last_synced_at ← optional (optional W.timestamp) input.last_synced_at
  let approved_by ← optional W.text (if grantingApproval then some auth.clientId else none)
  some fun row =>
    let row := { row with
      title := title.getD row.title
      scope := scope.getD row.scope
      language := language.getD row.language
      config := config.getD row.config
      lifecycle_state := input.lifecycle_state.getD row.lifecycle_state
      sync_state := input.sync_state.getD row.sync_state
      content_hash := content_hash.getD row.content_hash
      last_synced_at := last_synced_at.getD row.last_synced_at }
    match input.approval_state with
    | none => row
    | some approval_state =>
      { row with
        approval_state
        approved_by
        approved_at := if grantingApproval then some now else none }

/-- `revision = revision + 1` and the trigger of every update. -/
def advance (now : Int) (row : SourceRecord) : SourceRecord :=
  { row with revision := row.revision + 1, updated_at := now }

/-- mirrors source-registry.ts:447-505 -/
def updateSource (W : Wire) (env : SharedNamespaceEnv) (auth : AuthInfo)
    (input : UpdateSourceInput) (rows : List SourceRecord) (now : Int) :
    First SourceRecord × Change :=
  let ns := effectiveWriteNamespace env auth input.target_namespace
  let nsCheck := canWriteNamespace env auth ns
  if nsCheck.allowed = false then (.done (.refused .namespace_denied nsCheck.reason), .none)
  else
    let grantingApproval := decide (input.approval_state = some .approved)
    if grantingApproval && !canApprove auth then
      (.done (.refused .approval_denied
        (some (units "approval requires an authorized admin/ob-admin token identity"))), .none)
    else
      match W.uuid input.id, W.text ns, buildUpdateAssignments W auth input grantingApproval now with
      | some id, some ns', some assign =>
        if inInteger input.expected_revision = false then (.done .threw, .none)
        else
          match rows.find? fun row => decide (row.id = id ∧ row.ns = ns' ∧
              row.revision = input.expected_revision ∧ row.lifecycle_state ≠ .retired) with
          | none => (.next (.updateMiss input.id ns), .none)
          | some row =>
            if inInteger (row.revision + 1) = false then (.done .threw, .none)
            else
              let row := advance now (assign row)
              (.done (.ok (mapRow row)), .updated row)
      | _, _, _ => (.done .threw, .none)

/-- mirrors source-registry.ts:414-445 -/
def diagnoseUpdateMiss (W : Wire) (rows : List SourceRecord) (id ns : Str) :
    Outcome SourceRecord :=
  match W.uuid id, W.text ns with
  | some id, some ns =>
    match rows.find? fun row => decide (row.id = id ∧ row.ns = ns) with
    | none => .refused .not_found (some (units "source not found"))
    | some row =>
      if row.lifecycle_state = .retired then
        .refused .retired (some (units "source is retired and cannot be modified"))
      else
        .refused .stale_revision
          (some (units "source was modified concurrently; re-read and retry"))
  | _, _ => .threw

/-- mirrors source-registry.ts:509-529 -/
def removeSource (W : Wire) (env : SharedNamespaceEnv) (auth : AuthInfo) (id : Str)
    (targetNamespace : Option Str) (rows : List SourceRecord) (now : Int) : First Uuid × Change :=
  let ns := effectiveWriteNamespace env auth targetNamespace
  let nsCheck := canWriteNamespace env auth ns
  if nsCheck.allowed = false then (.done (.refused .namespace_denied nsCheck.reason), .none)
  else
    match W.uuid id, W.text ns with
    | some id', some ns' =>
      match rows.find? fun row => decide (row.id = id' ∧ row.ns = ns' ∧
          row.lifecycle_state ≠ .retired) with
      | none => (.next (.removeMiss id ns), .none)
      | some row =>
        if inInteger (row.revision + 1) = false then (.done .threw, .none)
        else (.done (.ok row.id), .updated (advance now { row with lifecycle_state := .retired }))
    | _, _ => (.done .threw, .none)

/-- mirrors source-registry.ts:536-552 -/
def diagnoseRemoveMiss (W : Wire) (rows : List SourceRecord) (id ns : Str) : Outcome Uuid :=
  match W.uuid id, W.text ns with
  | some id, some ns =>
    match rows.find? fun row => decide (row.id = id ∧ row.ns = ns ∧
        row.lifecycle_state = .retired) with
    | some row => .ok row.id
    | none => .refused .not_found (some (units "source not found"))
  | _, _ => .threw

/-! ## The ingestion gate -/

/-- mirrors source-registry.ts:559-609 -/
def resolveIngestionEligibility (W : Wire) (env : SharedNamespaceEnv) (auth : AuthInfo)
    (source_kind : SourceKind) (external_id : Str) (target_namespace : Option Str)
    (rows : List SourceRecord) : Outcome SourceRecord :=
  let ns := effectiveWriteNamespace env auth target_namespace
  let missing := Outcome.refused .not_found
    (some (units "source is not registered for this namespace"))
  if target_namespace.isSome ∧ canReadNamespace env auth ns = false then missing
  else
    match W.text ns, W.text external_id with
    | some ns, some external_id =>
      match rows.find? fun row => decide (row.key = ⟨ns, source_kind, external_id⟩) with
      | none => missing
      | some row =>
        let record := mapRow row
        if record.approval_state ≠ .approved then
          .refused .approval_denied (some (units "source is registered but not approved"))
        else if record.lifecycle_state ≠ .active then
          .refused .approval_denied (some (units "source is not in an active lifecycle state"))
        else .ok record
    | _, _ => .threw

end OpenBrain.Server.SourceRegistry
