import OpenBrain.Core.EcmaJson
import OpenBrain.Server.Auth.Predicate

/-!
# The names of the shared partition (`server/security/shared-namespace.ts`)

Callers say the canonical name, rows hold the physical one. Both come from the environment, as
does the legacy name, which is empty unless an operator sets it.
-/
namespace OpenBrain.Server.Security
open OpenBrain.Core OpenBrain.Core.Ecma OpenBrain.Server.Auth

/-- mirrors types.ts:31 -/
inductive InfoSource where
  | token | header
  deriving DecidableEq

/-- What the policies read of a request's identity. mirrors types.ts:26-32 -/
structure AuthInfo where
  role : Role
  clientId : Str
  tokenClientId : Option Str
  namespaceSource : Option InfoSource
  deriving DecidableEq

/-- The environment values behind the names and the write flag.
mirrors shared-namespace.ts:40-57 -/
structure SharedNamespaceEnv where
  sharedNamespaceCanonical : Option Str
  sharedNamespacePhysical : Option Str
  openbrainSharedNamespace : Option Str
  sharedNamespaceLegacy : Option Str
  openbrainLegacySharedNamespace : Option Str
  allowLegacySharedWrites : Option Str

/-- mirrors shared-namespace.ts:59-68 -/
structure SharedNamespaceConfig where
  canonicalSharedNamespace : Str
  physicalSharedNamespace : Str
  sharedNamespace : Str
  legacySharedNamespace : Str
  allowLegacySharedWrites : Bool

def DEFAULT_SHARED_NAMESPACE : Str := units "shared-kb"
def DEFAULT_LEGACY_SHARED_NAMESPACE : Str := []

/-- mirrors shared-namespace.ts:71-80 -/
def firstNonEmpty (defaultValue : Str) : List (Option Str) → Str
  | [] => defaultValue
  | none :: candidates => firstNonEmpty defaultValue candidates
  | some candidate :: candidates =>
    let raw := trim candidate
    if raw ≠ [] then raw else firstNonEmpty defaultValue candidates

/-- `toLowerCase` on the letters `A` to `Z`: no other character has one of the accepted
spellings' letters for its lower case. -/
def lowerCase (s : Str) : Str := s.map fun u => if 0x41 ≤ u ∧ u ≤ 0x5A then u + 0x20 else u

/-- mirrors shared-namespace.ts:83-86 -/
def asBoolean (defaultValue : Bool) : Option Str → Bool
  | none => defaultValue
  | some raw =>
    if trim raw = [] then defaultValue
    else (["1", "true", "yes", "on"].map units).contains (lowerCase (trim raw))

/-- mirrors shared-namespace.ts:101-124 -/
def sharedNamespaceConfig (env : SharedNamespaceEnv) : SharedNamespaceConfig :=
  let canonicalSharedNamespace := firstNonEmpty DEFAULT_SHARED_NAMESPACE
    [env.sharedNamespaceCanonical, env.openbrainSharedNamespace]
  let physicalSharedNamespace := firstNonEmpty canonicalSharedNamespace
    [env.sharedNamespacePhysical, env.openbrainSharedNamespace]
  { canonicalSharedNamespace
    physicalSharedNamespace
    sharedNamespace := physicalSharedNamespace
    legacySharedNamespace := firstNonEmpty DEFAULT_LEGACY_SHARED_NAMESPACE
      [env.sharedNamespaceLegacy, env.openbrainLegacySharedNamespace]
    allowLegacySharedWrites := asBoolean false env.allowLegacySharedWrites }

/-- mirrors shared-namespace.ts:163-168 -/
def physicalNamespace (ns : Str) (env : SharedNamespaceEnv) : Str :=
  let config := sharedNamespaceConfig env
  if ns = config.canonicalSharedNamespace then config.physicalSharedNamespace else ns

/-- mirrors shared-namespace.ts:171-181 -/
def shouldRejectLegacySharedWrite (auth : AuthInfo) (targetNamespace : Str)
    (env : SharedNamespaceEnv) : Bool :=
  let config := sharedNamespaceConfig env
  if config.allowLegacySharedWrites then false
  else if config.legacySharedNamespace = [] then false
  else if targetNamespace ≠ config.legacySharedNamespace then false
  else auth.role != .admin && auth.role != .ob_admin

/-- A name that is not the canonical one, or that is both, is a row's own. -/
theorem physicalNamespace_eq_self_iff {ns : Str} {env : SharedNamespaceEnv} :
    physicalNamespace ns env = ns ↔
      (ns = (sharedNamespaceConfig env).canonicalSharedNamespace →
        (sharedNamespaceConfig env).physicalSharedNamespace = ns) := by
  unfold physicalNamespace
  dsimp only
  split
  · rename_i h
    simp [h]
  · rename_i h
    simp [h]

/-! ## What an identity may read (`server/domain/read-policy.ts`, `read-scope.ts`) -/

/-- `GLOBAL_ROLES` -/
def readsGlobally (role : Role) : Bool := role == .admin || role == .ob_admin

/-- mirrors read-scope.ts:52-55; a source other than the token's is a delegated one -/
def isGlobalReader (auth : AuthInfo) : Bool :=
  if auth.namespaceSource ≠ some .token then false
  else readsGlobally auth.role || auth.role == .promoter

/-- mirrors read-scope.ts:69-90, without the legacy fallback -/
def readableNamespaces (env : SharedNamespaceEnv) (auth : AuthInfo) : Option (List Str) :=
  let shared := (sharedNamespaceConfig env).physicalSharedNamespace
  if auth.namespaceSource ≠ some .token then some [auth.clientId, shared]
  else if isGlobalReader auth then none
  else some [auth.clientId, shared]

/-- mirrors read-scope.ts:105-127 -/
def canReadNamespace (env : SharedNamespaceEnv) (auth : AuthInfo) (ns : Str) : Bool :=
  let config := sharedNamespaceConfig env
  if ns = units "all" then
    auth.namespaceSource == some .token && readsGlobally auth.role
  else if config.legacySharedNamespace ≠ [] ∧ ns = config.legacySharedNamespace ∧
      ¬ readsGlobally auth.role then false
  else (readableNamespaces env auth).all fun allowed => allowed.contains (physicalNamespace ns env)

end OpenBrain.Server.Security
