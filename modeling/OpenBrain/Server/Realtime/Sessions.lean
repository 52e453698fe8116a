import OpenBrain.Provider.Gate.Calendar
import OpenBrain.Server.Realtime.Scope

/-!
# Sessions by scope key

What the two realtime stores share: a `Map` from scope keys to sessions, the three budgets that
trim it from its oldest session on, the eviction of expired items, and the denials. `ι` is the
type of the items.
-/
namespace OpenBrain.Server.Realtime
open OpenBrain.Core OpenBrain.Core.Ecma

/-- What the stores use of `Date`: `Date.parse` (`none` is `NaN`) and `toISOString` of a time
(`none` is the `RangeError` of a time that is none), which is parsed as the time it is of. -/
structure Dates where
  parse : Str → Option Int
  iso : Int → Option Str
  parse_iso : ∀ t s, iso t = some s → parse s = some t

/-- A `Date` that is not invalid, with its ISO text. -/
structure Date (dates : Dates) where
  ms : Int
  text : Str
  valid : dates.iso ms = some text

/-- Stamps that `parse` reads, written by `write`; a time whose stamp it does not read as that time
is none. -/
def Dates.ofStamps (parse : Str → Option Int) (write : Int → Str) : Dates where
  parse := parse
  iso t := if parse (write t) = some t then some (write t) else none
  parse_iso := by
    intro t s h
    split at h
    · rename_i hparse
      cases h
      exact hparse
    · cases h

/-- `Date` for the years 0 to 9999. -/
def utcDates : Dates :=
  .ofStamps (fun text => (Provider.Gate.parseWith Provider.Gate.readStamp text).map (· / 1000))
    fun ms => Provider.Gate.isoText (ms * 1000)

def utcDate (ms : Int) (h : (utcDates.iso ms).isSome = true) : Date utcDates :=
  ⟨ms, (utcDates.iso ms).get h, (Option.some_get h).symm⟩

theorem isSome_iso_sample : (utcDates.iso 1785000000000).isSome = true := by decide +kernel

/-- A value given for `metadata`; `unserializable` is one that `JSON.stringify` throws for. -/
inductive MetadataInput where
  | absent
  | unserializable
  | object (metadata : Members Number)

/-- The members of an object given for `metadata`, and `JSON.stringify(metadata).length`.
mirrors working-set.ts:241-257 and recovery-wal-store-parts.ts:125-141 -/
def MetadataInput.serialized : MetadataInput → Option (Members Number × Nat)
  | .absent => some ([], (stringify (.obj [])).length)
  | .unserializable => none
  | .object metadata => some (metadata, (stringify (.obj metadata)).length)

theorem MetadataInput.serialized_ok {input : MetadataInput} {metadata : Members Number} {n : Nat}
    (h : input.serialized = some (metadata, n)) : n = (stringify (.obj metadata)).length := by
  cases input with
  | absent =>
    cases h
    rfl
  | unserializable => cases h
  | object m =>
    cases h
    rfl

def RangeError : Str := units "Invalid time value"

/-- mirrors working-set.ts:154-158 and recovery-wal-store-parts.ts:21-25 -/
structure Session (ι : Type) where
  scope : WorkingSetScope
  items : List ι
  updated_at_ms : Int

/-- The `Map`, its entries in the order of their insertion. -/
abbrev Sessions (ι : Type) := List (Str × Session ι)

/-- mirrors working-set.ts:116-119 -/
structure WorkingSetScopeDenial where
  scope_hash : Str
  reasons : List ScopeField
  deriving DecidableEq

namespace Sessions
variable {ι : Type}

/-- `sessions.delete(key)` -/
def delete (m : Sessions ι) (key : Str) : Sessions ι := m.filter fun e => e.1 != key

/-- mirrors working-set.ts:483-491 and recovery-wal-store-parts.ts:36-46; with its key -/
def oldestSession (m : Sessions ι) : Option (Str × Session ι) :=
  m.foldl (fun oldest e =>
    match oldest with
    | none => some e
    | some o => if e.2.updated_at_ms < o.2.updated_at_ms then some e else some o) none

/-- mirrors working-set.ts:493-497 and recovery-wal-store-parts.ts:48-52 -/
def globalItemCount (m : Sessions ι) : Nat := (m.map fun e => e.2.items.length).sum

def setItems (m : Sessions ι) (key : Str) (session : Session ι) (items : List ι) : Sessions ι :=
  if items.isEmpty then m.delete key else Assoc.set m key { session with items := items }

/-- The items of a session that `trimSession` splices off, and how many it counts.
mirrors working-set.ts:454-460 and recovery-wal.ts:376-380 -/
def overflow (max : Int) (items : List ι) : Nat := (items.length - max).toNat

/-- The loop of `trimGlobal`: the sessions left, and for every round the scope of the oldest
session and what was shifted off it. A session has fewer rounds than items and one more.
mirrors working-set.ts:462-472, recovery-wal.ts:387-398 and recovery-wal-store-parts.ts:109-114 -/
def trimGlobal (max : Int) : Nat → Sessions ι → Sessions ι × List (WorkingSetScope × Option ι)
  | 0, m => (m, [])
  | rounds + 1, m =>
    if (m.globalItemCount : Int) ≤ max then (m, [])
    else
      match m.oldestSession with
      | none => (m, [])
      | some (key, oldest) =>
        let rest := trimGlobal max rounds (m.setItems key oldest oldest.items.tail)
        (rest.1, (oldest.scope, oldest.items.head?) :: rest.2)

/-- The loop of `trimSessions`: the sessions left, and those deleted.
mirrors working-set.ts:474-481, recovery-wal.ts:400-408 and recovery-wal-store-parts.ts:115-120 -/
def trimSessions (max : Int) : Nat → Sessions ι → Sessions ι × List (Session ι)
  | 0, m => (m, [])
  | rounds + 1, m =>
    if (m.length : Int) ≤ max then (m, [])
    else
      match m.oldestSession with
      | none => (m, [])
      | some (key, oldest) =>
        let rest := trimSessions max rounds (m.delete key)
        (rest.1, oldest :: rest.2)

/-- The rounds that `trimGlobal` may need. -/
def rounds (m : Sessions ι) : Nat := m.globalItemCount + m.length

def keep (p : ι → Bool) (m : Sessions ι) : Sessions ι :=
  (m.map fun e => (e.1, { e.2 with items := e.2.items.filter p })).filter fun e =>
    !e.2.items.isEmpty

/-- The near misses, of the sessions that `shown` says.
mirrors working-set.ts:505-522 and recovery-wal.ts:411-430 -/
def scopeDenialsFor (sha256 : Str → Str) (shown : Session ι → Bool)
    (requestedScope : WorkingSetScope) (requestedKey : Str) :
    Sessions ι → Except Str (List WorkingSetScopeDenial)
  | [] => .ok []
  | (key, session) :: m => do
    let denials ← scopeDenialsFor sha256 shown requestedScope requestedKey m
    if key = requestedKey ∨ session.scope.ns ≠ requestedScope.ns ∨ shown session = false then
      .ok denials
    else
      let reasons ← compareWorkingSetScope requestedScope session.scope
      if reasons = [] then .ok denials
      else
        let scope_hash ← workingSetScopeHash sha256 session.scope
        .ok (⟨scope_hash, reasons⟩ :: denials)

end Sessions

end OpenBrain.Server.Realtime
