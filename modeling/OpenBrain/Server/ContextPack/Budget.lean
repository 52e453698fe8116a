import OpenBrain.Core.Ecma

/-!
# Whole-pack allocation and section fitting

`server/tools/context-pack-allocator.ts` and `context-pack-budget.ts`. A
section is a JSON object; `serializedLength` is the length of its
`JSON.stringify` text in UTF-16 units. An allowance of `none` is the
`Infinity` of a pack without `max_tokens`.

Every fitter first tries the section as loaded and then a sequence of smaller
candidates, each measured as a whole. What the loops return is described by
`fitLoop_spec` (the item sections) and `shrinkDurableLaneCheckpoint_spec`.
-/
namespace OpenBrain.Server.ContextPack

open OpenBrain.Core

variable {ν : Type} (N : Ecma.Numbers ν)

/-- mirrors server/tools/context-pack-budget.ts:22 -/
def charsPerToken : Nat := 4

/-- mirrors server/tools/context-pack-shared.ts:21 -/
def envelopeCharReserve : Nat := 1200

/-- The sections, in allocation order.
mirrors server/tools/context-pack-budget.ts:34-44 -/
inductive SectionKey where
  | workingSet | recovery | durableLaneContext | durableMemory | profileGuidance
  | processGuidance | repoFacts | pointers | candidateMemory
  deriving DecidableEq, Repr

def SectionKey.name : SectionKey → Str
  | .workingSet => units "working_set"
  | .recovery => units "recovery"
  | .durableLaneContext => units "durable_lane_context"
  | .durableMemory => units "durable_memory"
  | .profileGuidance => units "profile_guidance"
  | .processGuidance => units "process_guidance"
  | .repoFacts => units "repo_facts"
  | .pointers => units "pointers"
  | .candidateMemory => units "candidate_memory"

def SectionKey.priority : List SectionKey :=
  [.workingSet, .recovery, .durableLaneContext, .durableMemory, .profileGuidance,
    .processGuidance, .repoFacts, .pointers, .candidateMemory]

/-- mirrors server/tools/context-pack-budget.ts:47-50 -/
def serializedLength (s : Members ν) : Nat := (N.printer.print (.obj s)).length

/-- mirrors server/tools/context-pack-budget.ts:68-71 -/
def sectionFrameCost (key : SectionKey) (isFirstAdmitted : Bool) : Nat :=
  key.name.length + 3 + (if isFirstAdmitted then 0 else 1)

/-- `serializedLength(section) <= remainingChars`. -/
def fits (remaining : Option Nat) (s : Members ν) : Bool :=
  remaining.all fun r => decide (serializedLength N s ≤ r)

/-! ## Item sections -/

/-- `section.items`; every loader supplies an array. -/
def itemsOf (s : Members ν) : List (Json ν) :=
  match s.get? (units "items") with
  | some (.arr xs) => xs
  | _ => []

inductive DropFrom where
  | head | tail
  deriving DecidableEq, Repr

def DropFrom.drop : DropFrom → List (Json ν) → List (Json ν)
  | .head, xs => xs.tail
  | .tail, xs => xs.dropLast

/-- `{...section, items: kept}` with every count reconciled. -/
def withItems (s : Members ν) (countKeys : List Str) (kept : List (Json ν)) : Members ν :=
  countKeys.foldl (fun c key => c.set key (.num (N.ofNat kept.length)))
    (s.set (units "items") (.arr kept))

structure Fitted (ν : Type) where
  body : Members ν
  truncated : Bool
  starved : Bool

/-- The `while (kept.length > 0)` loop of the two item fitters, with the number
of items left to drop, and the emptied section after it. `mark` is what is
written into the section once it has been measured.
mirrors server/tools/context-pack-budget.ts:315-336,393-412 -/
def fitLoop (s : Members ν) (countKeys : List Str) (remaining : Option Nat) (dropFrom : DropFrom)
    (mark : Members ν → Members ν) : Nat → List (Json ν) → Fitted ν
  | 0, _ => ⟨mark (withItems N s countKeys []), true, true⟩
  | n + 1, kept =>
    let kept' := dropFrom.drop kept
    let candidate := withItems N s countKeys kept'
    if fits N remaining candidate then ⟨mark candidate, true, kept'.isEmpty⟩
    else fitLoop s countKeys remaining dropFrom mark n kept'

/-- mirrors server/tools/context-pack-budget.ts:305-337 -/
def fitItemSection (s : Members ν) (countKeys : List Str) (remaining : Option Nat)
    (dropFrom : DropFrom) : Fitted ν :=
  if fits N remaining s then ⟨s, false, false⟩
  else fitLoop N s countKeys remaining dropFrom id (itemsOf s).length (itemsOf s)

/-- `reconcile`: the flag and, when nothing is left, the reason.
mirrors server/tools/context-pack-budget.ts:384-390 -/
def reconcile (candidate : Members ν) : Members ν :=
  let flagged := candidate.set (units "truncated") (.bool true)
  if (itemsOf flagged).isEmpty then
    flagged.set (units "empty_reason") (.str (units "whole_pack_budget"))
  else flagged

/-- mirrors server/tools/context-pack-budget.ts:372-413 -/
def fitRankedItemSection (s : Members ν) (countKeys : List Str) (remaining : Option Nat) :
    Fitted ν :=
  if fits N remaining s then ⟨s, false, false⟩
  else fitLoop N s countKeys remaining .tail reconcile (itemsOf s).length (itemsOf s)

/-! ## The durable lane -/

/-- `section.lane` when it is an object. -/
def laneOf (s : Members ν) : Option (Members ν) :=
  match s.get? (units "lane") with
  | some (.obj lane) => some lane
  | _ => none

def eventsOf (s : Members ν) : List (Json ν) :=
  match s.get? (units "events") with
  | some (.arr xs) => xs
  | _ => []

/-- mirrors server/tools/context-pack-budget.ts:109-122 -/
def rebuildDurableLaneSection (s : Members ν) (lane : Option (Members ν))
    (keptEvents : List (Json ν)) (contextMd : Json ν) : Members ν :=
  let next := (s.set (units "events") (.arr keptEvents)).set (units "event_count")
    (.num (N.ofNat keptEvents.length))
  let next := match lane with
    | some lane =>
      next.set (units "lane") (.obj (lane.set (units "current_context_md") contextMd))
    | none => next
  next.set (units "truncated") (.bool true)

/-- mirrors server/tools/context-pack-budget.ts:139-157 -/
def dropOldestDurableLaneEvents (s : Members ν) (lane : Option (Members ν)) (contextMd : Json ν)
    (remaining : Option Nat) : List (Json ν) → Option (List (Json ν))
  | [] => none
  | _ :: kept =>
    if fits N remaining (rebuildDurableLaneSection N s lane kept contextMd) then some kept
    else dropOldestDurableLaneEvents s lane contextMd remaining kept

/-- The bisection of `shrinkDurableLaneCheckpoint`: `low` has passed the test,
`high` is the largest length not ruled out.
mirrors server/tools/context-pack-budget.ts:178-191 -/
def bisect (ok : Nat → Bool) (low high : Nat) : Nat :=
  if low < high then
    let mid := (low + high + 1) / 2
    if ok mid then bisect ok mid high else bisect ok low (mid - 1)
  else low
termination_by high - low
decreasing_by all_goals omega

/-- mirrors server/tools/context-pack-budget.ts:174-193 -/
def shrinkDurableLaneCheckpoint (s : Members ν) (lane : Option (Members ν)) (contextMd : Json ν)
    (remaining : Option Nat) : Json ν :=
  match contextMd with
  | .str text =>
    if text.isEmpty then contextMd
    else
      let low := bisect (fun mid => fits N remaining
        (rebuildDurableLaneSection N s lane [] (.str (text.take mid)))) 0 text.length
      if 0 < low then .str (text.take low) else .null
  | _ => contextMd

/-- The string value of a member of an object. -/
def strField (key : Str) : Json ν → Option Str
  | .obj ms =>
    match Members.get? ms key with
    | some (.str s) => some s
    | _ => none
  | _ => none

/-- The citations whose `id` is the `citation_id` of a surviving item.
mirrors server/tools/context-pack-budget.ts:417-429,448-460 -/
def reconcileCitedItemCitations (citations : List (Members ν)) (kept : List (Json ν)) :
    List (Members ν) :=
  let keptIds := kept.filterMap (strField (units "citation_id"))
  citations.filter fun c => (strField (units "id") (.obj c)).any keptIds.contains

/-- The lane citation stays; an event citation stays with its event.
mirrors server/tools/context-pack-budget.ts:269-286 -/
def reconcileDurableCitations (citations : List (Members ν)) (keptEvents : List (Json ν)) :
    List (Members ν) :=
  let keptIds := keptEvents.filterMap (strField (units "citation_id"))
  citations.filter fun c =>
    if strField (units "kind") (.obj c) = some (units "session_event") then
      (strField (units "id") (.obj c)).any keptIds.contains
    else true

structure FittedLane (ν : Type) where
  body : Members ν
  citations : List (Members ν)
  truncated : Bool

/-- mirrors server/tools/context-pack-budget.ts:203-263 -/
def fitDurableLaneSection (s : Members ν) (citations : List (Members ν))
    (remaining : Option Nat) : FittedLane ν :=
  if fits N remaining s then ⟨s, citations, false⟩
  else
    let lane := laneOf s
    let contextMd := (lane.bind fun l => l.get? (units "current_context_md")).getD .null
    match dropOldestDurableLaneEvents N s lane contextMd remaining (eventsOf s) with
    | some kept =>
      ⟨rebuildDurableLaneSection N s lane kept contextMd, reconcileDurableCitations citations kept,
        true⟩
    | none =>
      let fitted := shrinkDurableLaneCheckpoint N s lane contextMd remaining
      ⟨rebuildDurableLaneSection N s lane [] fitted, reconcileDurableCitations citations [], true⟩

/-! ## The allocator -/

/-- mirrors server/tools/context-pack-allocator.ts:21-38 -/
structure PackAllocator (ν : Type) where
  wholePackBudget : Option Nat
  remainingChars : Option Nat
  firstSectionAdmitted : Bool
  truncation : List (Members ν)

/-- mirrors server/tools/context-pack-allocator.ts:45-49 -/
def wholePackBudgetFor (maxTokens : Option Nat) : Option Nat :=
  maxTokens.map fun m => m * charsPerToken - envelopeCharReserve

/-- mirrors server/tools/context-pack-allocator.ts:59-63 -/
def wholePackSerializedLimitFor (wholePackBudget : Option Nat) : Option Nat :=
  wholePackBudget.map (max 2)

/-- mirrors server/tools/context-pack-allocator.ts:69-79 -/
def createAllocator (wholePackBudget : Option Nat) : PackAllocator ν :=
  ⟨wholePackBudget, wholePackBudget.map (· - 2), true, []⟩

/-- mirrors server/tools/context-pack-allocator.ts:82-84 -/
def servingChars (a : PackAllocator ν) (frame : Nat) : Option Nat :=
  a.remainingChars.map (· - frame)

/-- mirrors server/tools/context-pack-allocator.ts:87-97 -/
def chargeAdmitted (a : PackAllocator ν) (body : Members ν) (frame : Nat) : PackAllocator ν :=
  { a with
    remainingChars := a.remainingChars.map (· - serializedLength N body - frame)
    firstSectionAdmitted := false }

/-- One `whole_pack_budget` marker.
mirrors server/tools/context-pack-allocator.ts:105-110 -/
def budgetMarker (a : PackAllocator ν) (source : SectionKey) (starved : Bool) : Members ν :=
  [(units "source", .str source.name), (units "reason", .str (units "whole_pack_budget")),
    (units "max_chars", (a.wholePackBudget.map fun b => .num (N.ofNat b)).getD .null)] ++
  if starved then [(units "starved", .bool true)] else []

/-- mirrors server/tools/context-pack-allocator.ts:100-111 -/
def noteBudgetTruncation (a : PackAllocator ν) (source : SectionKey) (starved : Bool) :
    PackAllocator ν :=
  { a with truncation := a.truncation ++ [budgetMarker N a source starved] }

structure SectionServing where
  frame : Nat
  serving : Option Nat
  contentLimit : Option Nat

/-- mirrors server/tools/context-pack-allocator.ts:123-136 -/
def sectionServing (a : PackAllocator ν) (key : SectionKey) : SectionServing :=
  let frame := sectionFrameCost key a.firstSectionAdmitted
  let serving := a.wholePackBudget.bind fun _ => servingChars a frame
  ⟨frame, serving, serving⟩

/-- mirrors server/tools/context-pack-allocator.ts:139-143 -/
def charsUsed (a : PackAllocator ν) : Nat :=
  match a.wholePackBudget with
  | none => 0
  | some b => b - a.remainingChars.getD 0

/-! ## What the fitters return -/

variable {N}

theorem fits_some {r : Nat} {s : Members ν} :
    fits N (some r) s = true ↔ serializedLength N s ≤ r := by simp [fits]

/-- The section the item loop returns is a marked candidate that fits with at
least one item, or it is reported starved. -/
theorem fitLoop_spec {s : Members ν} {countKeys : List Str} {remaining : Option Nat}
    {dropFrom : DropFrom} {mark : Members ν → Members ν} (n : Nat) (kept : List (Json ν)) :
    (fitLoop N s countKeys remaining dropFrom mark n kept).truncated = true ∧
    ((fitLoop N s countKeys remaining dropFrom mark n kept).starved = false →
      ∃ kept', kept' ≠ [] ∧ fits N remaining (withItems N s countKeys kept') = true ∧
        (fitLoop N s countKeys remaining dropFrom mark n kept).body =
          mark (withItems N s countKeys kept')) := by
  induction n generalizing kept with
  | zero => exact ⟨rfl, fun h => by cases h⟩
  | succ n ih =>
    simp only [fitLoop]
    split
    · rename_i hfit
      refine ⟨rfl, fun h => ⟨dropFrom.drop kept, ?_, hfit, rfl⟩⟩
      intro hnil
      simp [hnil] at h
    · exact ih _

end OpenBrain.Server.ContextPack
