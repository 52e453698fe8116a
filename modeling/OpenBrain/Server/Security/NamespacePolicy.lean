import OpenBrain.Server.Security.SharedNamespace

/-!
# The write gate and the row predicate (`server/security/namespace-policy.ts`)

`canWriteNamespace` is a ladder of rejections over a namespace's name;
`appendWriteNamespacePredicate` restricts a mutation by id with an array of its own.
`write_policies_iff` says for which rows the second lets nothing through that the first refuses.
-/
namespace OpenBrain.Server.Security
open OpenBrain.Core OpenBrain.Server.Auth

def PROMOTER_CLIENT_IDS : List Str := [units "openbrain-promoter", units "hermes-promoter"]
def FROZEN_NAMESPACES : List Str := [units "collab"]

/-- mirrors namespace-policy.ts:24-36 -/
def isFrozenNamespaceWrite (env : SharedNamespaceEnv) (targetNamespace : Str) : Bool :=
  if !FROZEN_NAMESPACES.contains targetNamespace then false
  else
    let config := sharedNamespaceConfig env
    if config.allowLegacySharedWrites && config.legacySharedNamespace == targetNamespace then false
    else true

/-- mirrors namespace-policy.ts:38-41 -/
structure NamespaceCheck where
  allowed : Bool
  reason : Option Str
  deriving DecidableEq

def NamespaceCheck.ok : NamespaceCheck := ⟨true, none⟩
def NamespaceCheck.rejected (reason : Str) : NamespaceCheck := ⟨false, some reason⟩

/-- mirrors namespace-policy.ts:43-54 -/
def isPromoterIdentity (auth : AuthInfo) : Bool :=
  if auth.role = .promoter then true
  else
    (auth.role == .admin || auth.role == .ob_admin) &&
      PROMOTER_CLIENT_IDS.contains (auth.tokenClientId.getD auth.clientId)

/-- mirrors namespace-policy.ts:62-103 -/
def namespaceWriteRejection (env : SharedNamespaceEnv) (auth : AuthInfo)
    (targetNamespace physicalTargetNamespace : Str) : Option NamespaceCheck :=
  let config := sharedNamespaceConfig env
  if shouldRejectLegacySharedWrite auth targetNamespace env then
    some (.rejected (units "legacy shared namespace '" ++ targetNamespace ++
      units "' is read-only for normal clients; use '" ++ config.canonicalSharedNamespace ++
      units "'"))
  else if isFrozenNamespaceWrite env targetNamespace ||
      isFrozenNamespaceWrite env physicalTargetNamespace then
    some (.rejected (units "namespace '" ++ targetNamespace ++
      units "' is a frozen snapshot (retired legacy namespace) and rejects all writes"))
  else if auth.namespaceSource = some .header ∧ physicalTargetNamespace ≠ auth.clientId then
    some (.rejected (units "X-Namespace header requires writes to namespace '" ++ auth.clientId ++
      units "'"))
  else if physicalTargetNamespace = config.physicalSharedNamespace ∧
      isPromoterIdentity auth = false then
    some (.rejected (config.sharedNamespace ++
      units " writes require the openbrain-promoter or hermes-promoter service identity"))
  else none

def roleText : Role → Str
  | .admin => units "admin"
  | .agent => units "agent"
  | .discord => units "discord"
  | .ob_admin => units "ob-admin"
  | .promoter => units "promoter"
  | .readonly => units "readonly"

/-- `admin`, `ob-admin` or `promoter`. -/
def writesAcross (role : Role) : Bool := role == .admin || role == .ob_admin || role == .promoter

/-- mirrors namespace-policy.ts:105-142 -/
def canWriteNamespace (env : SharedNamespaceEnv) (auth : AuthInfo) (targetNamespace : Str) :
    NamespaceCheck :=
  let physicalTargetNamespace := physicalNamespace targetNamespace env
  match namespaceWriteRejection env auth targetNamespace physicalTargetNamespace with
  | some rejection => rejection
  | none =>
    if writesAcross auth.role then .ok
    else if auth.role = .readonly then .rejected (units "readonly role cannot write")
    else if physicalTargetNamespace = auth.clientId then .ok
    else if auth.role = .discord then
      .rejected (units "discord role can only write to own namespace (" ++ auth.clientId ++
        units ")")
    else
      .rejected (roleText auth.role ++ units " role cannot write to namespace '" ++
        targetNamespace ++ units "'")

/-- mirrors namespace-policy.ts:144-155 -/
def writableNamespaces (auth : AuthInfo) : Option (List Str) :=
  if auth.namespaceSource = some .header then some [auth.clientId]
  else if writesAcross auth.role then none
  else some [auth.clientId]

/-- `admin` or `ob-admin`, but no promoter identity. -/
def keptOffShared (auth : AuthInfo) : Bool :=
  (auth.role == .admin || auth.role == .ob_admin) && !isPromoterIdentity auth

def excludedNamespaces (env : SharedNamespaceEnv) (auth : AuthInfo) : List Str :=
  let frozen := FROZEN_NAMESPACES.filter (isFrozenNamespaceWrite env)
  if keptOffShared auth then frozen ++ [(sharedNamespaceConfig env).sharedNamespace] else frozen

def exclude (params : List Param) (column : Str) (excluded : List Str) : Clause × List Param :=
  if 0 < excluded.length then (.allBut column (params.length + 1), params ++ [.texts excluded])
  else (.empty, params)

/-- The clause, and the parameters with what was pushed. mirrors namespace-policy.ts:157-181 -/
def appendWriteNamespacePredicate (env : SharedNamespaceEnv) (auth : AuthInfo)
    (params : List Param) (column : Str) : Clause × List Param :=
  match writableNamespaces auth with
  | none => exclude params column (excludedNamespaces env auth)
  | some namespaces => (.anyOf column (params.length + 1), params ++ [.texts namespaces])

/-! ## What each of them lets through -/

variable {env : SharedNamespaceEnv} {auth : AuthInfo} {params : List Param} {column ns : Str}

/-- Whether a row of namespace `ns` passes the predicate. -/
def rowPasses (env : SharedNamespaceEnv) (auth : AuthInfo) (params : List Param) (column ns : Str) :
    Bool :=
  let (clause, params) := appendWriteNamespacePredicate env auth params column
  clause.passes params ns

def confined (auth : AuthInfo) : Bool :=
  auth.namespaceSource == some .header || !writesAcross auth.role

theorem rowPasses_confined (h : confined auth = true) :
    rowPasses env auth params column ns = true ↔ ns = auth.clientId := by
  have hw : writableNamespaces auth = some [auth.clientId] := by
    unfold writableNamespaces
    unfold confined at h
    split
    · rfl
    · rename_i hsrc
      simp only [beq_eq_false_iff_ne.mpr hsrc, Bool.false_or, Bool.not_eq_true'] at h
      rw [h]
      rfl
  unfold rowPasses appendWriteNamespacePredicate
  simp [hw, Clause.passes]

theorem exclude_passes (excluded : List Str) :
    (exclude params column excluded).1.passes (exclude params column excluded).2 ns = true ↔
      ns ∉ excluded := by
  unfold exclude
  split
  · simp [Clause.passes]
  · rename_i hlen
    have hnil : excluded = [] := List.length_eq_zero_iff.mp (by omega)
    simp [Clause.passes, hnil]

theorem mem_frozen : ns ∈ FROZEN_NAMESPACES.filter (isFrozenNamespaceWrite env) ↔
    isFrozenNamespaceWrite env ns = true := by
  rw [List.mem_filter, and_iff_right_iff_imp]
  intro h
  unfold isFrozenNamespaceWrite at h
  split at h
  · cases h
  · rename_i hc
    simpa using hc

theorem mem_excluded : ns ∈ excludedNamespaces env auth ↔ isFrozenNamespaceWrite env ns = true ∨
    (keptOffShared auth = true ∧ ns = (sharedNamespaceConfig env).physicalSharedNamespace) := by
  unfold excludedNamespaces
  dsimp only
  split
  · rename_i h
    rw [List.mem_append, mem_frozen, List.mem_singleton]
    simp [h, sharedNamespaceConfig]
  · rename_i h
    rw [mem_frozen]
    simp [h]

theorem rowPasses_across (h : confined auth = false) :
    rowPasses env auth params column ns = true ↔ isFrozenNamespaceWrite env ns = false ∧
      (keptOffShared auth = true → ns ≠ (sharedNamespaceConfig env).physicalSharedNamespace) := by
  have hw : writableNamespaces auth = none := by
    unfold confined at h
    obtain ⟨hsrc, hrole⟩ := Bool.or_eq_false_iff.mp h
    unfold writableNamespaces
    rw [if_neg (beq_eq_false_iff_ne.mp hsrc), if_pos (by simpa using hrole)]
  unfold rowPasses appendWriteNamespacePredicate
  rw [hw]
  refine (exclude_passes _).trans ?_
  rw [mem_excluded]
  simp

theorem rejection_none_iff {physical : Str} :
    namespaceWriteRejection env auth ns physical = none ↔
      shouldRejectLegacySharedWrite auth ns env = false ∧
      isFrozenNamespaceWrite env ns = false ∧ isFrozenNamespaceWrite env physical = false ∧
      (auth.namespaceSource = some .header → physical = auth.clientId) ∧
      (physical = (sharedNamespaceConfig env).physicalSharedNamespace →
        isPromoterIdentity auth = true) := by
  unfold namespaceWriteRejection
  dsimp only
  split
  · rename_i h
    simp [h]
  · rename_i hlegacy
    split
    · rename_i h
      rcases Bool.or_eq_true_iff.mp h with h | h <;> simp [h]
    · rename_i hfrozen
      split
      · rename_i h
        simp [h]
      · rename_i hheader
        split
        · rename_i h
          simp [h]
        · rename_i hshared
          simp only [Bool.not_eq_true, Bool.or_eq_false_iff] at hlegacy hfrozen
          simp only [not_and, Bool.not_eq_false, not_not] at hheader hshared
          exact ⟨fun _ => ⟨hlegacy, hfrozen.1, hfrozen.2, hheader, hshared⟩, fun _ => rfl⟩

theorem rejected_of_rejection {physical : Str} {check : NamespaceCheck}
    (h : namespaceWriteRejection env auth ns physical = some check) : check.allowed = false := by
  unfold namespaceWriteRejection at h
  dsimp only at h
  repeat' split at h
  all_goals cases h
  all_goals rfl

theorem canWrite_iff : (canWriteNamespace env auth ns).allowed = true ↔
    namespaceWriteRejection env auth ns (physicalNamespace ns env) = none ∧
      (writesAcross auth.role = true ∨
        (auth.role ≠ .readonly ∧ physicalNamespace ns env = auth.clientId)) := by
  unfold canWriteNamespace
  dsimp only
  split
  · rename_i check h
    rw [rejected_of_rejection h, h]
    simp
  · rename_i h
    rw [h, and_iff_right rfl]
    by_cases hw : writesAcross auth.role = true
    · simp [hw, NamespaceCheck.ok]
    · by_cases hr : auth.role = .readonly
      · simp [hr, NamespaceCheck.rejected, writesAcross]
      · by_cases hp : physicalNamespace ns env = auth.clientId
        · simp [hw, hr, hp, NamespaceCheck.ok]
        · rw [if_neg hw, if_neg hr, if_neg hp]
          split <;> simp [hw, hp, NamespaceCheck.rejected]

/-! ## Agreement -/

/-- A confined request's own namespace is one a named write of it reaches. -/
structure OwnWritable (env : SharedNamespaceEnv) (auth : AuthInfo) : Prop where
  role : auth.role ≠ .readonly
  physical : physicalNamespace auth.clientId env = auth.clientId
  legacy : shouldRejectLegacySharedWrite auth auth.clientId env = false
  frozen : isFrozenNamespaceWrite env auth.clientId = false
  shared : auth.clientId = (sharedNamespaceConfig env).physicalSharedNamespace →
    isPromoterIdentity auth = true

/-- The rows a request may reach by id. Across namespaces the row is frozen, and so left out, or
neither the legacy one refused to promoters nor named like a shared partition it is not in, one
that is frozen or kept from the identity. -/
def Sound (env : SharedNamespaceEnv) (auth : AuthInfo) (ns : Str) : Prop :=
  (confined auth = true → ns = auth.clientId → OwnWritable env auth) ∧
  (confined auth = false → isFrozenNamespaceWrite env ns = true ∨
    (shouldRejectLegacySharedWrite auth ns env = false ∧
      (physicalNamespace ns env ≠ ns →
        isFrozenNamespaceWrite env (physicalNamespace ns env) = false ∧
          isPromoterIdentity auth = true)))

theorem canWrite_own (h : confined auth = true) :
    (canWriteNamespace env auth auth.clientId).allowed = true ↔ OwnWritable env auth := by
  rw [canWrite_iff, rejection_none_iff]
  constructor
  · rintro ⟨⟨hl, hf, -, hh, hs⟩, hr⟩
    have hphys : physicalNamespace auth.clientId env = auth.clientId := by
      rcases Bool.or_eq_true_iff.mp h with hsrc | hacross
      · exact hh (beq_iff_eq.mp hsrc)
      · rcases hr with hr | hr
        · rw [hr] at hacross
          cases hacross
        · exact hr.2
    rw [hphys] at hs
    refine ⟨?_, hphys, hl, hf, hs⟩
    rcases hr with hr | hr
    · intro hro
      rw [hro] at hr
      cases hr
    · exact hr.1
  · intro ho
    rw [ho.physical]
    exact ⟨⟨ho.legacy, ho.frozen, ho.frozen, fun _ => rfl, ho.shared⟩, .inr ⟨ho.role, rfl⟩⟩

theorem promoter_of_across (hw : writesAcross auth.role = true) (hk : keptOffShared auth = false) :
    isPromoterIdentity auth = true := by
  unfold keptOffShared at hk
  unfold writesAcross at hw
  rcases Bool.or_eq_true_iff.mp hw with hadmin | hpromoter
  · rw [hadmin, Bool.true_and, Bool.not_eq_false'] at hk
    exact hk
  · unfold isPromoterIdentity
    rw [if_pos (beq_iff_eq.mp hpromoter)]

theorem canWrite_across (h : confined auth = false)
    (hf : isFrozenNamespaceWrite env ns = false)
    (hk : keptOffShared auth = true → ns ≠ (sharedNamespaceConfig env).physicalSharedNamespace) :
    (canWriteNamespace env auth ns).allowed = true ↔
      shouldRejectLegacySharedWrite auth ns env = false ∧
      (physicalNamespace ns env ≠ ns →
        isFrozenNamespaceWrite env (physicalNamespace ns env) = false ∧
          isPromoterIdentity auth = true) := by
  obtain ⟨hsrc, hrole⟩ := Bool.or_eq_false_iff.mp h
  have hw : writesAcross auth.role = true := by simpa using hrole
  have hheader : auth.namespaceSource ≠ some .header := beq_eq_false_iff_ne.mp hsrc
  rw [canWrite_iff, rejection_none_iff]
  by_cases hphys : physicalNamespace ns env = ns
  · -- the row is where its name says, and only the legacy rung is left
    have hs : ns = (sharedNamespaceConfig env).physicalSharedNamespace →
        isPromoterIdentity auth = true := by
      intro hns
      apply promoter_of_across hw
      rw [Bool.eq_false_iff]
      exact fun hkept => hk hkept hns
    rw [hphys]
    simp only [hf, hheader, hw, ne_eq, not_true_eq_false, false_implies, true_and, and_true,
      true_or]
    exact and_iff_left hs
  · have hshared : physicalNamespace ns env =
        (sharedNamespaceConfig env).physicalSharedNamespace := by
      unfold physicalNamespace at hphys ⊢
      dsimp only at hphys ⊢
      split
      · rfl
      · rename_i hne
        exact absurd (if_neg hne) hphys
    rw [hshared] at hphys ⊢
    simp only [hf, hheader, hw, ne_eq, hphys, not_false_eq_true, true_implies, false_implies,
      true_and, and_true, true_or]

/-- Every row the predicate lets through is one the gate allows, exactly for the rows of
`Sound`. -/
theorem write_policies_iff (env : SharedNamespaceEnv) (auth : AuthInfo) (params : List Param)
    (column ns : Str) :
    (rowPasses env auth params column ns = true → (canWriteNamespace env auth ns).allowed = true) ↔
      Sound env auth ns := by
  unfold Sound
  cases hc : confined auth with
  | true =>
    rw [rowPasses_confined hc]
    constructor
    · intro h
      refine ⟨fun _ hns => ?_, Bool.noConfusion⟩
      subst hns
      exact (canWrite_own hc).mp (h rfl)
    · intro h hns
      subst hns
      exact (canWrite_own hc).mpr (h.1 rfl rfl)
  | false =>
    rw [rowPasses_across hc]
    constructor
    · intro h
      refine ⟨Bool.noConfusion, fun _ => ?_⟩
      cases hf : isFrozenNamespaceWrite env ns with
      | true => exact .inl rfl
      | false =>
        right
        by_cases hk : keptOffShared auth = true →
            ns ≠ (sharedNamespaceConfig env).physicalSharedNamespace
        · exact (canWrite_across hc hf hk).mp (h ⟨hf, hk⟩)
        · -- an administrator's shared row is left out, and it is where its name says
          obtain ⟨hkept, hns⟩ := Classical.not_imp.mp hk
          rw [not_not] at hns
          refine ⟨?_, fun hne => absurd ?_ hne⟩
          · obtain ⟨hadmin, -⟩ := Bool.and_eq_true_iff.mp hkept
            unfold shouldRejectLegacySharedWrite
            dsimp only
            repeat' split
            all_goals try rfl
            rcases Bool.or_eq_true_iff.mp hadmin with hr | hr <;>
              simp [beq_iff_eq.mp hr]
          · exact physicalNamespace_eq_self_iff.mpr fun _ => hns.symm
    · rintro h ⟨hf, hk⟩
      apply (canWrite_across hc hf hk).mpr
      rcases h.2 rfl with hfrozen | h
      · rw [hf] at hfrozen
        cases hfrozen
      · exact h

/-- An environment that sets nothing. -/
def unset : SharedNamespaceEnv := ⟨none, none, none, none, none, none⟩

def delegatedToFrozen : AuthInfo := ⟨.admin, units "collab", some (units "dana"), some .header⟩

/-- The frozen snapshot is reached by id though a named write to it is refused. -/
theorem frozen_row_reached : ¬ (rowPasses unset delegatedToFrozen [.other] (units "namespace")
      (units "collab") = true →
    (canWriteNamespace unset delegatedToFrozen (units "collab")).allowed = true) := by
  decide +kernel

end OpenBrain.Server.Security
