import OpenBrain.Server.Realtime.Sessions

/-!
# The working set (`working-set.ts`)

A store in memory: `append` and the fragment of a scope, each at a time `now` and after the
eviction of what has expired by then. What is thrown leaves the store as far as it had come.
-/
namespace OpenBrain.Server.Realtime
open OpenBrain.Core OpenBrain.Core.Ecma

/-! ## Vocabulary -/

/-- mirrors working-set.ts:29-37 -/
def WORKING_SET_ITEM_KINDS : List Str :=
  ["recent_event", "structured_event", "current_intent", "active_correction", "task_state",
    "linked_durable_ref", "next_turn_guidance"].map units

/-- mirrors working-set.ts:62-69 -/
structure WorkingSetBudget where
  ttl_ms : Int
  max_sessions : Int
  max_items_per_session : Int
  max_global_items : Int
  max_item_chars : Int
  max_metadata_chars : Int

/-- mirrors working-set.ts:143-150 -/
def DEFAULT_WORKING_SET_BUDGET : WorkingSetBudget := ⟨1800000, 128, 24, 1024, 4000, 2000⟩

/-- mirrors working-set.ts:71-75 -/
structure WorkingSetCounters where
  dropped : Nat
  expired : Nat
  trimmed : Nat

/-- mirrors working-set.ts:77-87 -/
structure WorkingSetItemInput where
  id : Option Str
  kind : Str
  content : Str
  confidence : Option Number
  stale_at : Option Str
  trace_id : Option Str
  source_ref : Option Str
  durable_ref : Option (Str × Str)
  metadata : MetadataInput

/-- mirrors working-set.ts:89-102, less its constant label -/
structure WorkingSetItem where
  id : Str
  kind : Str
  content : Str
  confidence : Option Number
  stale_at : Option Str
  trace_id : Option Str
  source_ref : Option Str
  durable_ref : Option (Str × Str)
  metadata : Members Number
  created_at : Str
  expires_at : Str

inductive WorkingSetReason where
  | content_too_large | empty_content | invalid_kind | metadata_too_large
  deriving DecidableEq

/-- An `append` that is accepted has an item, one that is not a reason.
mirrors working-set.ts:104-110 -/
structure WorkingSetAppendResult where
  outcome : Except WorkingSetReason WorkingSetItem
  counters : WorkingSetCounters

/-- What a fragment says beside constants and the budget.
mirrors working-set.ts:121-141 -/
structure WorkingSetFragment where
  scope : WorkingSetScope
  items : List WorkingSetItem
  counters : WorkingSetCounters
  scope_denials : List WorkingSetScopeDenial

/-- mirrors working-set.ts:290-313; the content and the metadata -/
def screenWorkingSetInput (budget : WorkingSetBudget) (input : WorkingSetItemInput) :
    Except WorkingSetReason (Str × Members Number) :=
  if input.kind ∉ WORKING_SET_ITEM_KINDS then .error .invalid_kind
  else
    let content := trim input.content
    if content = [] then .error .empty_content
    else if (content.length : Int) > budget.max_item_chars then .error .content_too_large
    else
      match input.metadata.serialized with
      | none => .error .metadata_too_large
      | some (metadata, chars) =>
        if (chars : Int) > budget.max_metadata_chars then .error .metadata_too_large
        else .ok (content, metadata)

/-! ## The store -/

variable {dates : Dates}

structure WorkingSetStore where
  budget : WorkingSetBudget
  sessions : Sessions WorkingSetItem
  counters : WorkingSetCounters
  nextId : Nat

/-- mirrors working-set.ts:349-352 -/
def WorkingSetStore.new (budget : WorkingSetBudget) : WorkingSetStore := ⟨budget, [], ⟨0, 0, 0⟩, 1⟩

def wsId (n : Nat) : Str := units "ws-" ++ decimal n

/-- mirrors working-set.ts:324-340 -/
def buildWorkingSetItem (input : WorkingSetItemInput) (accepted : Str × Members Number) (id : Str)
    (now : Date dates) (ttlMs : Int) : Except Str WorkingSetItem :=
  match dates.iso (now.ms + ttlMs) with
  | some expires_at =>
    .ok ⟨id, input.kind, accepted.1, input.confidence, input.stale_at, input.trace_id,
      input.source_ref, input.durable_ref, accepted.2, now.text, expires_at⟩
  | none => .error RangeError

/-- `Date.parse(item.expires_at) > nowMs` -/
def WorkingSetItem.liveAt (dates : Dates) (nowMs : Int) (item : WorkingSetItem) : Bool :=
  (dates.parse item.expires_at).any fun expires => nowMs < expires

namespace WorkingSetStore

/-- mirrors working-set.ts:440-451 -/
def purgeExpired (store : WorkingSetStore) (now : Date dates) : WorkingSetStore :=
  let sessions := store.sessions.keep (·.liveAt dates now.ms)
  let expired := store.sessions.globalItemCount - sessions.globalItemCount
  { store with
    sessions := sessions
    counters := { store.counters with expired := store.counters.expired + expired } }

/-- The three budgets, after an item has been pushed on the session of a key.
mirrors working-set.ts:454-481 -/
def trim (store : WorkingSetStore) (key : Str) (session : Session WorkingSetItem) :
    WorkingSetStore :=
  let excess := Sessions.overflow store.budget.max_items_per_session session.items
  let m : Sessions WorkingSetItem :=
    Assoc.set store.sessions key { session with items := session.items.drop excess }
  let globally := m.trimGlobal store.budget.max_global_items m.rounds
  let whole := globally.1.trimSessions store.budget.max_sessions globally.1.length
  let trimmed := excess + globally.2.length + (whole.2.map fun s => s.items.length).sum
  { store with
    sessions := whole.1
    counters := { store.counters with trimmed := store.counters.trimmed + trimmed } }

/-- mirrors working-set.ts:354-396 -/
def append (store : WorkingSetStore) (scope : WorkingSetScope) (input : WorkingSetItemInput)
    (now : Date dates) : WorkingSetStore × Except Str WorkingSetAppendResult :=
  let store := store.purgeExpired now
  match screenWorkingSetInput store.budget input with
  | .error reason =>
    let counters := { store.counters with dropped := store.counters.dropped + 1 }
    ({ store with counters := counters }, .ok ⟨.error reason, counters⟩)
  | .ok accepted =>
    match scopeAndKey scope with
    | .error e => (store, .error e)
    | .ok (normalizedScope, key) =>
      let session := (store.sessions.lookup key).getD ⟨normalizedScope, [], now.ms⟩
      let nextId := if input.id.isNone then store.nextId + 1 else store.nextId
      match buildWorkingSetItem input accepted (input.id.getD (wsId store.nextId)) now
        store.budget.ttl_ms with
      | .error e => ({ store with nextId := nextId }, .error e)
      | .ok item =>
        let store := trim { store with nextId := nextId } key
          ⟨session.scope, session.items ++ [item], now.ms⟩
        (store, .ok ⟨.ok item, store.counters⟩)

/-- mirrors working-set.ts:403-427 -/
def buildContextPackFragment (sha256 : Str → Str) (store : WorkingSetStore)
    (scope : WorkingSetScope) (now : Date dates) : WorkingSetStore × Except Str WorkingSetFragment :=
  let store := store.purgeExpired now
  (store, do
    let (normalizedScope, key) ← scopeAndKey scope
    let scope_denials ←
      Sessions.scopeDenialsFor sha256 (fun _ => true) normalizedScope key store.sessions
    .ok ⟨normalizedScope, ((store.sessions.lookup key).map Session.items).getD [], store.counters,
      scope_denials⟩)

end WorkingSetStore

end OpenBrain.Server.Realtime
