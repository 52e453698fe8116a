import OpenBrain.Server.Security.SharedNamespace

/-!
# What may be shared (`server/domain/sharing.ts`)

The classifier refuses a text that matches a secret detector and a candidate with a private
marker; noise and candidates to be reviewed are told apart but not refused by `promote_shared`.
-/
namespace OpenBrain.Server.Promotion
open OpenBrain.Core
open OpenBrain.Server.Security (lowerCase)

/-- `containsSecret`. A match never begins or ends in white space and looks no further than its
neighbours, so one in a title or in a rationale is one in the two joined and trimmed. -/
structure SecretDetectors where
  containsSecret : Str → Bool
  joined : ∀ title rationale, containsSecret title || containsSecret rationale →
    containsSecret (Ecma.trim (title ++ units " " ++ rationale))

structure ShareCandidateInput (ν : Type) where
  event_type : Option Str
  importance : Option Str
  content : Str
  tags : Option (List Str)
  metadata : Option (Members ν)

inductive PrivateKind where
  | privateFlag | personalFlag | privateVisibility | personalVisibility | privateTag
deriving DecidableEq, Repr

def PRIVATE_TAGS : List Str := ["private", "personal", "secret", "confidential"].map units

/-- `metadata[key] === true` -/
def isTrue {ν : Type} : Option (Json ν) → Bool
  | some (.bool true) => true
  | _ => false

/-- `metadata.visibility ?? metadata.scope` -/
def visibilityOf {ν : Type} (metadata : Members ν) : Option (Json ν) :=
  match metadata.lookup (units "visibility") with
  | none | some .null => metadata.lookup (units "scope")
  | some visibility => some visibility

def visibilityKind {ν : Type} : Option (Json ν) → Option PrivateKind
  | some (.str visibility) =>
    if lowerCase visibility = units "private" then some .privateVisibility
    else if lowerCase visibility = units "personal" then some .personalVisibility
    else none
  | _ => none

def privateTagCount (tags : List Str) : Nat :=
  tags.countP fun tag => PRIVATE_TAGS.contains (lowerCase (Ecma.trim tag))

/-- mirrors sharing.ts:144-173 -/
def detectPrivate {ν : Type} (tags : Option (List Str)) (metadata : Option (Members ν)) :
    Option (PrivateKind × Nat) :=
  let metadata := metadata.getD []
  if isTrue (metadata.lookup (units "private")) then some (.privateFlag, 1)
  else if isTrue (metadata.lookup (units "personal")) then some (.personalFlag, 1)
  else match visibilityKind (visibilityOf metadata) with
    | some kind => some (kind, 1)
    | none =>
      let count := privateTagCount (tags.getD [])
      if 0 < count then some (.privateTag, count) else none

inductive ShareDecision where
  | share | rejectSecret | rejectPrivate | rejectNoise | manualReview
deriving DecidableEq, Repr

def DEFAULT_MIN_SHARE_LENGTH : Nat := 24

def SHARE_EVENT_TYPES : List Str := ["fact", "decision", "handoff"].map units
def NOISE_EVENT_TYPES : List Str := ["question", "action"].map units

def noiseRejection {ν : Type} (input : ShareCandidateInput ν) (length : Nat) : Bool :=
  input.event_type.any NOISE_EVENT_TYPES.contains
    || input.importance == some (units "cold")
    || length < DEFAULT_MIN_SHARE_LENGTH
    || input.event_type.any fun type => !SHARE_EVENT_TYPES.contains type

/-- mirrors sharing.ts:326-379 -/
def classifyShareCandidate {ν : Type} (D : SecretDetectors) (input : ShareCandidateInput ν) :
    ShareDecision :=
  let length := (Ecma.trim input.content).length
  if D.containsSecret input.content then .rejectSecret
  else if (detectPrivate input.tags input.metadata).isSome then .rejectPrivate
  else if noiseRejection input length then .rejectNoise
  else if 2 * length < 3 * DEFAULT_MIN_SHARE_LENGTH then .manualReview
  else .share

theorem classify_passes {ν : Type} {D : SecretDetectors} {input : ShareCandidateInput ν}
    (hsecret : classifyShareCandidate D input ≠ .rejectSecret)
    (hprivate : classifyShareCandidate D input ≠ .rejectPrivate) :
    D.containsSecret input.content = false ∧ detectPrivate input.tags input.metadata = none := by
  unfold classifyShareCandidate at hsecret hprivate
  split at hsecret
  · exact absurd rfl hsecret
  · rename_i hcontent
    rw [if_neg hcontent] at hprivate
    split at hprivate
    · exact absurd rfl hprivate
    · rename_i hnone
      exact ⟨by simpa using hcontent, by simpa using hnone⟩

end OpenBrain.Server.Promotion
