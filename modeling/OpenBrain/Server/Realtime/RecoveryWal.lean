import OpenBrain.Server.Realtime.Sessions

/-!
# The recovery store (`recovery-wal.ts`)

The operations of a store on its sessions, with the records that each of them writes to the
journal, in order; and the replay of records, by which a store begins. A store without a path
drops what it writes.
-/
namespace OpenBrain.Server.Realtime
open OpenBrain.Core OpenBrain.Core.Ecma

/-! ## Vocabulary -/

/-- mirrors recovery-wal-types.ts:14-24 -/
inductive RecoveryWalStatus where
  | active | wrapped | recovery_pending | reviewed | compacted | discarded | expired
  deriving DecidableEq

def RecoveryWalStatus.text : RecoveryWalStatus → Str
  | .active => units "active"
  | .wrapped => units "wrapped"
  | .recovery_pending => units "recovery_pending"
  | .reviewed => units "reviewed"
  | .compacted => units "compacted"
  | .discarded => units "discarded"
  | .expired => units "expired"

def RECOVERY_WAL_STATUSES : List RecoveryWalStatus :=
  [.active, .wrapped, .recovery_pending, .reviewed, .compacted, .discarded, .expired]

/-- mirrors recovery-wal-types.ts:26-35 -/
inductive RecoveryWalAction where
  | review | use_for_current_session | compact_to_wrap | promote_candidates | discard | defer
  deriving DecidableEq

def RecoveryWalAction.text : RecoveryWalAction → Str
  | .review => units "review"
  | .use_for_current_session => units "use_for_current_session"
  | .compact_to_wrap => units "compact_to_wrap"
  | .promote_candidates => units "promote_candidates"
  | .discard => units "discard"
  | .defer => units "defer"

def RECOVERY_WAL_ACTIONS : List RecoveryWalAction :=
  [.review, .use_for_current_session, .compact_to_wrap, .promote_candidates, .discard, .defer]

/-- The status of a text that `isRecoveryWalStatus` accepts.
mirrors recovery-wal-records.ts:30-32 -/
def statusOf (value : Str) : Option RecoveryWalStatus :=
  RECOVERY_WAL_STATUSES.find? fun s => s.text == value

/-- mirrors recovery-wal-records.ts:34-36 -/
def actionOf (value : Str) : Option RecoveryWalAction :=
  RECOVERY_WAL_ACTIONS.find? fun a => a.text == value

/-- mirrors recovery-wal-types.ts:37-45 -/
structure RecoveryWalBudget where
  ttl_ms : Int
  max_sessions : Int
  max_items_per_session : Int
  max_global_items : Int
  max_content_chars : Int
  max_metadata_chars : Int
  max_preview_chars : Int

/-- mirrors recovery-wal-types.ts:92-100 -/
def DEFAULT_RECOVERY_WAL_BUDGET : RecoveryWalBudget := ⟨86400000, 128, 50, 2048, 8000, 2000, 1000⟩

/-- mirrors recovery-wal-types.ts:47-53 -/
structure RecoveryWalCounters where
  dropped : Nat
  expired : Nat
  trimmed : Nat
  marked : Nat
  purged : Nat

/-- mirrors recovery-wal-types.ts:55-62 -/
structure RecoveryWalItemInput where
  id : Option Str
  content : Str
  status : Option Str
  trace_id : Option Str
  source_ref : Option Str
  metadata : MetadataInput

/-- mirrors recovery-wal-types.ts:64-77, less its constant label -/
structure RecoveryWalItem where
  id : Str
  status : RecoveryWalStatus
  content : Str
  trace_id : Option Str
  source_ref : Option Str
  metadata : Members Number
  created_at : Str
  updated_at : Str
  expires_at : Str
  reviewed_at : Option Str
  last_action : Option RecoveryWalAction

/-- mirrors recovery-wal-types.ts:79-90 -/
inductive RecoveryWalRecord where
  | append (scope : WorkingSetScope) (item : RecoveryWalItem)
  | mark (scope : WorkingSetScope) (id : Str) (action : RecoveryWalAction)
      (status : RecoveryWalStatus) (reviewed_at : Option Str) (updated_at : Str)
  | purge (scope : WorkingSetScope) (id : Option Str)

inductive RecoveryWalReason where
  | content_too_large | empty_content | invalid_status | metadata_too_large
  deriving DecidableEq

/-- mirrors recovery-wal-results.ts:22-28 -/
structure RecoveryWalAppendResult where
  outcome : Except RecoveryWalReason RecoveryWalItem
  counters : RecoveryWalCounters

inductive RecoveryWalMarkReason where
  | invalid_action | invalid_status | not_found
  deriving DecidableEq

/-- A mark that is accepted has the item, or none when it purged it.
mirrors recovery-wal-results.ts:30-36 -/
structure RecoveryWalMarkResult where
  outcome : Except RecoveryWalMarkReason (Option RecoveryWalItem)
  counters : RecoveryWalCounters

/-- mirrors recovery-wal-types.ts:107-122, less its constant label -/
structure RecoveryWalContextItem where
  id : Str
  status : RecoveryWalStatus
  content_preview : Str
  content_length : Nat
  content_truncated : Bool
  trace_id : Option Str
  source_ref : Option Str
  created_at : Str
  updated_at : Str
  expires_at : Str
  reviewed_at : Option Str
  last_action : Option RecoveryWalAction
  metadata : Members Number

/-- What a fragment says beside constants and the budget.
mirrors recovery-wal-results.ts:38-62 -/
structure RecoveryWalFragment where
  scope : WorkingSetScope
  items : List RecoveryWalContextItem
  counters : RecoveryWalCounters
  scope_denials : List WorkingSetScopeDenial

/-- mirrors recovery-wal.ts:109-114 -/
structure RecoveryWalMarkDecision where
  action : Str
  status : Str
  purge : Bool

/-! ## Items -/

/-- mirrors recovery-wal-store-parts.ts:30 -/
def PENDING_STATUSES : List RecoveryWalStatus := [.active, .recovery_pending]

/-- mirrors recovery-wal-store-parts.ts:32-34 -/
def isPendingAt (dates : Dates) (item : RecoveryWalItem) (nowMs : Int) : Bool :=
  decide (item.status ∈ PENDING_STATUSES) &&
    (dates.parse item.expires_at).any fun expires => nowMs < expires

/-- `Date.parse(item.expires_at) <= nowMs` -/
def RecoveryWalItem.expiredBy (dates : Dates) (nowMs : Int) (item : RecoveryWalItem) : Bool :=
  (dates.parse item.expires_at).any fun expires => expires ≤ nowMs

/-- What stays in `purgeExpired`: no status `expired`, before and after it has been given. -/
def RecoveryWalItem.stays (dates : Dates) (nowMs : Int) (item : RecoveryWalItem) : Bool :=
  item.status != .expired && !item.expiredBy dates nowMs

/-- mirrors recovery-wal-store-parts.ts:64-88; `slice(0, max)` for a `max` that may be negative -/
def contextItemFor (item : RecoveryWalItem) (budget : RecoveryWalBudget) : RecoveryWalContextItem :=
  let max := budget.max_preview_chars
  let end_ := (if max < 0 then item.content.length + max else max).toNat
  let preview := if item.content.length > max then item.content.take end_ else item.content
  ⟨item.id, item.status, preview, item.content.length,
    decide (item.content.length > preview.length), item.trace_id, item.source_ref,
    item.created_at, item.updated_at, item.expires_at, item.reviewed_at, item.last_action,
    item.metadata⟩

/-! ## The store -/

structure RecoveryWalStore where
  budget : RecoveryWalBudget
  sessions : Sessions RecoveryWalItem
  counters : RecoveryWalCounters
  nextId : Number

/-- A store before it has loaded a journal.
mirrors recovery-wal.ts:122-134 -/
def RecoveryWalStore.new (budget : RecoveryWalBudget) : RecoveryWalStore :=
  ⟨budget, [], ⟨0, 0, 0, 0, 0⟩, Number.ofDec (Dec.make false 1 0)⟩

/-- `n + 1` of a number that is an integer or infinite. -/
def Number.succ (n : Number) : Number :=
  match n.toInt with
  | some i => Number.ofDec (Dec.ofInt (i + 1))
  | none => n

def Number.text : Number → Str
  | .finite d => numText d
  | .inf neg => units (if neg then "-Infinity" else "Infinity")
  | .nan => units "NaN"

def rwId (n : Number) : Str := units "rw-" ++ Number.text n

variable {dates : Dates}

namespace RecoveryWalStore

/-- The records of the items that expire, and the store without them.
mirrors recovery-wal.ts:352-374 -/
def purgeExpired (store : RecoveryWalStore) (now : Date dates) :
    RecoveryWalStore × List RecoveryWalRecord :=
  let expired := store.sessions.flatMap fun e =>
    (e.2.items.filter fun item => item.expiredBy dates now.ms && item.status != .expired).map
      fun item => (e.2.scope, item)
  ({ store with
      sessions := store.sessions.keep (·.stays dates now.ms)
      counters := { store.counters with expired := store.counters.expired + expired.length } },
    expired.map fun e => .mark e.1 e.2.id .discard .expired e.2.reviewed_at now.text)

/-- mirrors recovery-wal.ts:182-200; the status, the content and the metadata -/
def rejectionFor (budget : RecoveryWalBudget) (input : RecoveryWalItemInput) :
    Except RecoveryWalReason (RecoveryWalStatus × Str × Members Number) :=
  match statusOf (input.status.getD (units "active")) with
  | none => .error .invalid_status
  | some status =>
    let content := trim input.content
    if content = [] then .error .empty_content
    else if (content.length : Int) > budget.max_content_chars then .error .content_too_large
    else
      match input.metadata.serialized with
      | none => .error .metadata_too_large
      | some (metadata, chars) =>
        if (chars : Int) > budget.max_metadata_chars then .error .metadata_too_large
        else .ok (status, content, metadata)

/-- mirrors recovery-wal.ts:202-218 -/
def newItem (input : RecoveryWalItemInput)
    (accepted : RecoveryWalStatus × Str × Members Number) (id : Str) (now : Date dates)
    (ttl_ms : Int) : Except Str RecoveryWalItem :=
  match dates.iso (now.ms + ttl_ms) with
  | some expires_at =>
    .ok ⟨id, accepted.1, accepted.2.1, input.trace_id, input.source_ref, accepted.2.2, now.text,
      now.text, expires_at, none, none⟩
  | none => .error RangeError

/-- The three budgets, after an item has been pushed on the session of a key.
mirrors recovery-wal.ts:376-408 -/
def trim (store : RecoveryWalStore) (key : Str) (session : Session RecoveryWalItem) :
    RecoveryWalStore × List RecoveryWalRecord :=
  let excess := Sessions.overflow store.budget.max_items_per_session session.items
  let m : Sessions RecoveryWalItem :=
    Assoc.set store.sessions key { session with items := session.items.drop excess }
  let globally := m.trimGlobal store.budget.max_global_items m.rounds
  let whole := globally.1.trimSessions store.budget.max_sessions globally.1.length
  let shifted := globally.2.filterMap fun r => r.2.map fun item => (r.1, item)
  let trimmed := excess + shifted.length + (whole.2.map fun s => s.items.length).sum
  ({ store with
      sessions := whole.1
      counters := { store.counters with trimmed := store.counters.trimmed + trimmed } },
    (session.items.take excess).map (fun item => .purge session.scope (some item.id)) ++
      shifted.map (fun r => .purge r.1 (some r.2.id)) ++
      whole.2.map fun s => .purge s.scope none)

/-- mirrors recovery-wal.ts:143-175 -/
def append (store : RecoveryWalStore) (scope : WorkingSetScope) (input : RecoveryWalItemInput)
    (now : Date dates) :
    RecoveryWalStore × List RecoveryWalRecord × Except Str RecoveryWalAppendResult :=
  let (store, expired) := store.purgeExpired now
  match rejectionFor store.budget input with
  | .error reason =>
    let counters := { store.counters with dropped := store.counters.dropped + 1 }
    ({ store with counters := counters }, expired, .ok ⟨.error reason, counters⟩)
  | .ok accepted =>
    match scopeAndKey scope with
    | .error e => (store, expired, .error e)
    | .ok (normalizedScope, key) =>
      let session := (store.sessions.lookup key).getD ⟨normalizedScope, [], now.ms⟩
      let nextId := if input.id.isNone then Number.succ store.nextId else store.nextId
      match newItem input accepted (input.id.getD (rwId store.nextId)) now store.budget.ttl_ms with
      | .error e => ({ store with nextId := nextId }, expired, .error e)
      | .ok item =>
        let (store, purged) := trim { store with nextId := nextId } key
          ⟨session.scope, session.items ++ [item], now.ms⟩
        (store, expired ++ purged ++ [.append normalizedScope item],
          .ok ⟨.ok item, store.counters⟩)

/-- mirrors recovery-wal.ts:273-282 -/
def decided (item : RecoveryWalItem) (action : RecoveryWalAction) (status : RecoveryWalStatus)
    (now : Date dates) : RecoveryWalItem :=
  { item with
    status := status
    last_action := some action
    updated_at := now.text
    reviewed_at := if action = .review ∨ action = .use_for_current_session then some now.text
      else item.reviewed_at }

/-- `f` of the first item with the id. -/
def updateItem (id : Str) (f : RecoveryWalItem → RecoveryWalItem) :
    List RecoveryWalItem → List RecoveryWalItem
  | [] => []
  | item :: items => if item.id = id then f item :: items else item :: updateItem id f items

/-- mirrors recovery-wal.ts:225-296 -/
def mark (store : RecoveryWalStore) (scope : WorkingSetScope) (id : Str)
    (decision : RecoveryWalMarkDecision) (now : Date dates) :
    RecoveryWalStore × List RecoveryWalRecord × Except Str RecoveryWalMarkResult :=
  let (store, expired) := store.purgeExpired now
  let rejected := fun reason => (store, expired, .ok ⟨.error reason, store.counters⟩)
  match actionOf decision.action, statusOf decision.status with
  | none, _ => rejected .invalid_action
  | some _, none => rejected .invalid_status
  | some action, some status =>
    match scopeAndKey scope with
    | .error e => (store, expired, .error e)
    | .ok (normalizedScope, key) =>
      match store.sessions.lookup key with
      | none => rejected .not_found
      | some session =>
        match session.items.find? fun candidate => candidate.id == id with
        | none => rejected .not_found
        | some item =>
          if decision.purge then
            let sessions := store.sessions.setItems key session
              (session.items.filter fun candidate => candidate.id != item.id)
            let counters := { store.counters with purged := store.counters.purged + 1 }
            ({ store with sessions := sessions, counters := counters },
              expired ++ [.purge normalizedScope (some item.id)], .ok ⟨.ok none, counters⟩)
          else
            let marked := decided item action status now
            let items := updateItem id (decided · action status now) session.items
            let counters := { store.counters with marked := store.counters.marked + 1 }
            ({ store with
                sessions := Assoc.set store.sessions key ⟨session.scope, items, now.ms⟩
                counters := counters },
              expired ++ [.mark normalizedScope id action status marked.reviewed_at
                marked.updated_at],
              .ok ⟨.ok (some marked), counters⟩)

/-- mirrors recovery-wal.ts:299-329 -/
def buildContextPackFragment (sha256 : Str → Str) (store : RecoveryWalStore)
    (scope : WorkingSetScope) (now : Date dates) : Except Str RecoveryWalFragment := do
  let (normalizedScope, key) ← scopeAndKey scope
  let items := (((store.sessions.lookup key).map Session.items).getD []).filter
    (isPendingAt dates · now.ms)
  let scope_denials ← Sessions.scopeDenialsFor sha256
    (fun session => session.items.any (isPendingAt dates · now.ms)) normalizedScope key
    store.sessions
  .ok ⟨normalizedScope, items.map (contextItemFor · store.budget), store.counters, scope_denials⟩

/-! ## Replay -/

/-- The digits of an id `/^rw-(\d+)$/` accepts. -/
def generatedDigits (id : Str) : Option (List Char) :=
  if (units "rw-").isPrefixOf id then
    let digits := chars (id.drop 3)
    if digits ≠ [] ∧ digits.all Char.isDigit then some digits else none
  else none

/-- mirrors recovery-wal.ts:572-576; `Math.max` of integers and infinities -/
def trackNextId (nextId : Number) (id : Str) : Number :=
  match generatedDigits id with
  | none => nextId
  | some digits =>
    let next := Number.succ (Number.ofDec (Dec.make false (digitsVal digits) 0))
    match nextId.toInt, next.toInt with
    | some i, some j => if i < j then next else nextId
    | some _, none => next
    | none, _ => nextId

/-- mirrors recovery-wal.ts:557-564 -/
def isReplayItemWithinBudget (budget : RecoveryWalBudget) (item : RecoveryWalItem) : Bool :=
  decide ((item.content.length : Int) ≤ budget.max_content_chars) &&
    decide (((stringify (.obj item.metadata)).length : Int) ≤ budget.max_metadata_chars)

/-- mirrors recovery-wal.ts:533-555 -/
def applyAppendRecord (dates : Dates) (store : RecoveryWalStore) (key : Str)
    (scope : WorkingSetScope) (item : RecoveryWalItem) : RecoveryWalStore :=
  if isReplayItemWithinBudget store.budget item then
    let updatedAtMs := (dates.parse item.updated_at).getD 0
    let session := (store.sessions.lookup key).getD ⟨scope, [], updatedAtMs⟩
    { store with
      sessions := Assoc.set store.sessions key ⟨session.scope, session.items ++ [item], updatedAtMs⟩
      nextId := trackNextId store.nextId item.id }
  else { store with counters := { store.counters with dropped := store.counters.dropped + 1 } }

/-- mirrors recovery-wal.ts:509-531; an error, for a scope that cannot be normalized, is caught -/
def applyWalRecord (dates : Dates) (store : RecoveryWalStore) : RecoveryWalRecord → RecoveryWalStore
  | .append scope item =>
    match workingSetScopeKey scope with
    | .error _ => store
    | .ok key => applyAppendRecord dates store key scope item
  | .purge scope id =>
    match workingSetScopeKey scope with
    | .error _ => store
    | .ok key =>
      match store.sessions.lookup key with
      | none => store
      | some session =>
        -- an empty id is falsy
        let items := match id with
          | none | some [] => []
          | some id => session.items.filter fun item => item.id != id
        { store with sessions := store.sessions.setItems key session items }
  | .mark scope id action status reviewed_at updated_at =>
    match workingSetScopeKey scope with
    | .error _ => store
    | .ok key =>
      match store.sessions.lookup key with
      | none => store
      | some session =>
        if session.items.any fun candidate => candidate.id == id then
          let items := updateItem id
            (fun item => { item with
              status := status
              last_action := some action
              reviewed_at := reviewed_at
              updated_at := updated_at }) session.items
          { store with
            sessions := Assoc.set store.sessions key
              ⟨session.scope, items, (dates.parse updated_at).getD 0⟩ }
        else store

/-- mirrors recovery-wal.ts:567-569 and recovery-wal-store-parts.ts:96-122 -/
def enforceReplayBudgets (store : RecoveryWalStore) : RecoveryWalStore :=
  let max := store.budget.max_items_per_session
  let excess := (store.sessions.map fun e => Sessions.overflow max e.2.items).sum
  let m : Sessions RecoveryWalItem := (store.sessions.map fun e =>
    (e.1, { e.2 with items := e.2.items.drop (Sessions.overflow max e.2.items) })).filter
      fun e => !e.2.items.isEmpty
  let globally := m.trimGlobal store.budget.max_global_items m.rounds
  let whole := globally.1.trimSessions store.budget.max_sessions globally.1.length
  let trimmed := excess + (globally.2.filterMap Prod.snd).length +
    (whole.2.map fun s => s.items.length).sum
  { store with
    sessions := whole.1
    counters := { store.counters with trimmed := store.counters.trimmed + trimmed } }

/-- mirrors recovery-wal.ts:452-478 without the tally -/
def replayRows (dates : Dates) (store : RecoveryWalStore) (records : List RecoveryWalRecord) :
    RecoveryWalStore := records.foldl (applyWalRecord dates) store

/-- The records of `compactWal`.
mirrors recovery-wal.ts:579-588 -/
def compacted (store : RecoveryWalStore) : List RecoveryWalRecord :=
  store.sessions.flatMap fun e => e.2.items.map fun item => .append e.2.scope item

end RecoveryWalStore

end OpenBrain.Server.Realtime
