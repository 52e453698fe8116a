import OpenBrain.Core.Utf16

/-!
# Row predicates on the namespace column

Both namespace policies turn an identity into a fragment of a `WHERE` clause and the array it
binds. A fragment has one of three shapes; `Clause.text` is its text, `Clause.passes` what the
database makes of it on a row.
-/
namespace OpenBrain.Server.Auth
open OpenBrain.Core

/-- mirrors config.ts:81-90 -/
inductive Role where
  | admin | agent | discord | ob_admin | promoter | readonly
  deriving DecidableEq

/-- A bound value: a `text[]`, or anything else. -/
inductive Param where
  | texts (values : List Str)
  | other

/-- No restriction, `column = ANY($index)`, or `column <> ALL($index)`. -/
inductive Clause where
  | empty
  | anyOf (column : Str) (index : Nat)
  | allBut (column : Str) (index : Nat)

def Clause.text : Clause → Str
  | .empty => []
  | .anyOf column index =>
    units " AND " ++ column ++ units " = ANY($" ++ decimal index ++ units "::text[])"
  | .allBut column index =>
    units " AND " ++ column ++ units " <> ALL($" ++ decimal index ++ units "::text[])"

/-- The array bound to `$index`; the numbers start at 1. -/
def boundTexts (params : List Param) : Nat → Option (List Str)
  | 0 => none
  | n + 1 =>
    match params[n]? with
    | some (.texts values) => some values
    | some .other | none => none

/-- Whether a row of namespace `ns` passes. A statement whose `$index` is no array is refused,
so none of its rows does. -/
def Clause.passes (params : List Param) (ns : Str) : Clause → Bool
  | .empty => true
  | .anyOf _ index => (boundTexts params index).any fun values => values.contains ns
  | .allBut _ index => (boundTexts params index).any fun values => !values.contains ns

@[simp] theorem boundTexts_push (params : List Param) (values : List Str) :
    boundTexts (params ++ [.texts values]) (params.length + 1) = some values := by
  simp [boundTexts]

end OpenBrain.Server.Auth
