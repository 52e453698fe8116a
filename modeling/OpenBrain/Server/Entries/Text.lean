import Mathlib.Data.List.Sort
import Mathlib.Data.List.SplitBy
import OpenBrain.Server.Distill.ExchangeSweep

/-!
# The texts and hashes of entries

`server/db/content-hash.ts`, `server/tools/entry-text.ts` and
`server/embedding/embedding-canonical.ts`: what a row's `content_hash` is made of and what is
embedded for it. The tools and the repair registry each have the builders; they are the same
functions, so they stand here once.
-/
namespace OpenBrain.Server.Entries
open OpenBrain.Core

export OpenBrain.Server.Distill (ContentHash normalizedContentHash)
open OpenBrain.Server.Distill (replaceRuns)

/-- mirrors db/content-hash.ts:28-30: the value exactly as given -/
def contentHash (H : ContentHash) (value : Str) : H.Digest := H.sha256 value

/-- The text that `normalizedContentHash` digests. -/
def normalized (H : ContentHash) (text : Str) : Str :=
  replaceRuns Ecma.isSpace (fun _ => [unit ' ']) (Ecma.trim (H.toLowerCase text))

theorem normalizedContentHash_eq (H : ContentHash) (text : Str) :
    normalizedContentHash H text = contentHash H (normalized H text) := rfl

/-- A text the two policies hash alike. -/
def Plain (H : ContentHash) (text : Str) : Prop := normalized H text = text

instance (H : ContentHash) (text : Str) : Decidable (Plain H text) :=
  inferInstanceAs (Decidable (normalized H text = text))

theorem Plain.hash {H : ContentHash} {text : Str} (h : Plain H text) :
    contentHash H text = normalizedContentHash H text := by
  rw [normalizedContentHash_eq, h]

/-- `a <= b` in code-unit order. -/
def unitsLe : Str → Str → Bool
  | [], _ => true
  | _ :: _, [] => false
  | u :: a, v :: b => u < v || (u == v && unitsLe a b)

/-- `[...new Set(tags)].sort()` -/
def normalizeDecisionTags (tags : List Str) : List Str :=
  tags.eraseDups.insertionSort fun a b => unitsLe a b

def segment (sep : String) : List Str → List Str
  | [] => []
  | parts => [joinSep (units sep) parts]

structure DecisionSource where
  title : Str
  rationale : Str
  context : Option Str
  alternatives : List Str
  tags : List Str
deriving DecidableEq, Repr

def decisionCanonicalText (source : DecisionSource) : Str :=
  joinSep (units "\n") ([source.title, source.rationale]
    ++ (source.context.filter (· ≠ [])).toList
    ++ segment ", " source.alternatives
    ++ segment " " (normalizeDecisionTags source.tags))

structure SessionSource where
  summary : Str
  project : Option Str
  key_decisions : List Str
  next_steps : List Str
  blockers : List Str
deriving DecidableEq, Repr

def sessionSourceHashInput (source : SessionSource) : Str :=
  source.summary ++ units "|" ++ source.project.getD []

def sessionEmbedText (source : SessionSource) : Str :=
  joinSep (units "\n") ([source.summary] ++ segment ". " source.key_decisions
    ++ segment ". " source.next_steps ++ segment ". " source.blockers)

/-- `[…].filter(Boolean).join("\n")` -/
def joinNonEmpty (parts : List Str) : Str := joinSep (units "\n") (parts.filter (· ≠ []))

def thoughtEmbedText (content : Str) (tags : List Str) : Str :=
  if tags ≠ [] then content ++ units "\n" ++ joinSep (units " ") tags else content

end OpenBrain.Server.Entries
