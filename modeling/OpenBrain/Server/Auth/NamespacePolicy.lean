import OpenBrain.Server.Auth.Predicate

/-!
# Named and id-based access (`server/auth/namespace-policy.ts`)

`canTargetNamespace` decides a request that names its namespace, `namespacePredicate` restricts
one that names a row. The second knows nothing of the retired namespace nor of the rule that
only a promoter writes the shared one; `policies_agree_iff` says on which rows that shows.
-/
namespace OpenBrain.Server.Auth
open OpenBrain.Core

/-- mirrors types.ts:14 -/
inductive NamespaceSource where
  | token | delegated
  deriving DecidableEq

/-- mirrors types.ts:10-15 -/
structure AuthIdentity where
  role : Role
  clientId : Str
  tokenClientId : Str
  namespaceSource : NamespaceSource
  deriving DecidableEq

/-- mirrors namespace-policy.ts:12 -/
inductive NamespaceOperation where
  | read | write | delete
  deriving DecidableEq

/-- mirrors namespace-policy.ts:14-17 -/
structure NamespacePredicate where
  clause : Clause
  values : List (List Str)

def GLOBAL_ROLES : List Role := [.admin, .ob_admin]
def LEGACY_SHARED_NAMESPACE : Str := units "collab"
def SHARED_NAMESPACE : Str := units "shared-kb"
def ALL_KEYWORD : Str := units "all"

/-- mirrors namespace-policy.ts:23-25 -/
def isGlobal (identity : AuthIdentity) : Bool :=
  GLOBAL_ROLES.contains identity.role && identity.namespaceSource == .token

/-- mirrors namespace-policy.ts:27-30 -/
def readNamespaces (identity : AuthIdentity) : Option (List Str) :=
  if isGlobal identity || identity.role == .promoter then none
  else some [identity.clientId, SHARED_NAMESPACE]

/-- mirrors namespace-policy.ts:32-35 -/
def mutationNamespaces (identity : AuthIdentity) : Option (List Str) :=
  if isGlobal identity || identity.role == .promoter then none
  else some [identity.clientId]

/-- mirrors namespace-policy.ts:38-50 -/
def namespacePredicate (identity : AuthIdentity) (operation : NamespaceOperation)
    (startParameter : Nat) : NamespacePredicate :=
  let namespaces :=
    if operation = .read then readNamespaces identity else mutationNamespaces identity
  match namespaces with
  | none => { clause := .empty, values := [] }
  | some namespaces =>
    { clause := .anyOf (units "namespace") startParameter, values := [namespaces] }

/-- mirrors namespace-policy.ts:53-66 -/
def canTargetNamespace (identity : AuthIdentity) (operation : NamespaceOperation)
    (requestedNamespace : Str) : Bool :=
  if requestedNamespace = ALL_KEYWORD then isGlobal identity && operation == .read
  else if requestedNamespace = LEGACY_SHARED_NAMESPACE then false
  else if operation = .read then
    ((readNamespaces identity).map fun namespaces => namespaces.contains requestedNamespace).getD true
  else if requestedNamespace = SHARED_NAMESPACE then identity.role == .promoter
  else if identity.role = .promoter then true
  else if isGlobal identity then requestedNamespace != SHARED_NAMESPACE
  else requestedNamespace == identity.clientId

/-! ## What the predicate lets through -/

/-- Whether a row of namespace `ns` passes in a statement that has bound `params` before. -/
def rowPasses (identity : AuthIdentity) (operation : NamespaceOperation) (params : List Param)
    (ns : Str) : Bool :=
  let predicate := namespacePredicate identity operation (params.length + 1)
  predicate.clause.passes (params ++ predicate.values.map Param.texts) ns

/-- Every namespace is open: a global identity that speaks for itself, or a promoter. -/
def unrestricted (identity : AuthIdentity) : Bool :=
  isGlobal identity || identity.role == .promoter

variable {identity : AuthIdentity} {operation : NamespaceOperation} {params : List Param} {ns : Str}

theorem rowPasses_read : rowPasses identity .read params ns = true ↔
    unrestricted identity = true ∨ ns = identity.clientId ∨ ns = SHARED_NAMESPACE := by
  unfold rowPasses namespacePredicate readNamespaces unrestricted
  cases isGlobal identity || identity.role == .promoter <;> simp [Clause.passes]

theorem rowPasses_mutation (hop : operation ≠ .read) :
    rowPasses identity operation params ns = true ↔
      unrestricted identity = true ∨ ns = identity.clientId := by
  unfold rowPasses namespacePredicate mutationNamespaces unrestricted
  cases isGlobal identity || identity.role == .promoter <;> simp [Clause.passes, hop]

theorem canTarget_legacy :
    canTargetNamespace identity operation LEGACY_SHARED_NAMESPACE = false := by
  unfold canTargetNamespace
  rw [if_neg (by decide), if_pos rfl]

theorem canTarget_read (hall : ns ≠ ALL_KEYWORD) (hleg : ns ≠ LEGACY_SHARED_NAMESPACE) :
    canTargetNamespace identity .read ns = true ↔
      unrestricted identity = true ∨ ns = identity.clientId ∨ ns = SHARED_NAMESPACE := by
  unfold canTargetNamespace readNamespaces unrestricted
  rw [if_neg hall, if_neg hleg]
  cases isGlobal identity || identity.role == .promoter <;> simp

theorem canTarget_shared (hop : operation ≠ .read) :
    canTargetNamespace identity operation SHARED_NAMESPACE = true ↔ identity.role = .promoter := by
  unfold canTargetNamespace
  rw [if_neg (by decide), if_neg (by decide), if_neg hop, if_pos rfl, beq_iff_eq]

theorem canTarget_mutation (hop : operation ≠ .read) (hall : ns ≠ ALL_KEYWORD)
    (hleg : ns ≠ LEGACY_SHARED_NAMESPACE) (hsh : ns ≠ SHARED_NAMESPACE) :
    canTargetNamespace identity operation ns = true ↔
      unrestricted identity = true ∨ ns = identity.clientId := by
  unfold canTargetNamespace unrestricted
  rw [if_neg hall, if_neg hleg, if_neg hop, if_neg hsh]
  by_cases hp : identity.role = .promoter
  · simp [hp]
  · cases isGlobal identity <;> simp [hp, hsh]

/-! ## Agreement -/

/-- A row of the retired namespace is out of the identity's reach, and one of the shared
namespace is mutated by promoters only. -/
def Agrees (identity : AuthIdentity) (operation : NamespaceOperation) (ns : Str) : Prop :=
  (ns = LEGACY_SHARED_NAMESPACE →
    unrestricted identity = false ∧ ns ≠ identity.clientId) ∧
  (ns = SHARED_NAMESPACE → operation ≠ .read → identity.role ≠ .promoter →
    isGlobal identity = false ∧ ns ≠ identity.clientId)

theorem rowPasses_legacy : rowPasses identity operation params LEGACY_SHARED_NAMESPACE = true ↔
    unrestricted identity = true ∨ LEGACY_SHARED_NAMESPACE = identity.clientId := by
  by_cases hop : operation = .read
  · subst hop
    have hne : LEGACY_SHARED_NAMESPACE ≠ SHARED_NAMESPACE := by decide
    rw [rowPasses_read]
    simp [hne]
  · exact rowPasses_mutation hop

/-- The two policies agree on an ordinary namespace exactly when the retired and the shared
namespace are not in question, or the identity has no hold on them. -/
theorem policies_agree_iff (identity : AuthIdentity) (operation : NamespaceOperation)
    (params : List Param) (ns : Str) (hall : ns ≠ ALL_KEYWORD) :
    (rowPasses identity operation params ns = true ↔
        canTargetNamespace identity operation ns = true) ↔ Agrees identity operation ns := by
  unfold Agrees
  by_cases hleg : ns = LEGACY_SHARED_NAMESPACE
  · have hsh : ns ≠ SHARED_NAMESPACE := hleg ▸ (by decide)
    subst hleg
    rw [rowPasses_legacy, canTarget_legacy]
    simp [hsh]
  · by_cases hop : operation = .read
    · subst hop
      rw [rowPasses_read, canTarget_read hall hleg]
      simp [hleg]
    · by_cases hsh : ns = SHARED_NAMESPACE
      · subst hsh
        rw [rowPasses_mutation hop, canTarget_shared hop]
        by_cases hp : identity.role = .promoter
        · simp [hleg, hp, unrestricted]
        · simp [hleg, hop, hp, unrestricted]
      · rw [rowPasses_mutation hop, canTarget_mutation hop hall hleg hsh]
        simp [hleg, hsh]

def dana : AuthIdentity := ⟨.admin, units "dana", units "dana", .token⟩

theorem policies_agree_dana :
    (rowPasses dana .write [.other] (units "bilby") = true ↔
      canTargetNamespace dana .write (units "bilby") = true) ↔ Agrees dana .write (units "bilby") :=
  policies_agree_iff dana .write [.other] (units "bilby") (by decide)

/-- The row of the shared namespace that an update by id reaches and a named write does not. -/
theorem shared_row_reached : SHARED_NAMESPACE ≠ ALL_KEYWORD ∧
    ¬ (rowPasses dana .write [.other] SHARED_NAMESPACE = true ↔
      canTargetNamespace dana .write SHARED_NAMESPACE = true) := by
  decide

end OpenBrain.Server.Auth
