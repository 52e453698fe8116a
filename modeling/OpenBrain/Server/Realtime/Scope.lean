import OpenBrain.Core.EcmaJson
import OpenBrain.Core.Result

/-!
# Exact scopes (`working-set.ts`)

Seven coordinates say whose an item is. A scope is normalized, every coordinate trimmed, before
it is a key; the key is the JSON text of the coordinates.
-/
namespace OpenBrain.Core.Ecma

theorem trim_trim (s : Str) : trim (trim s) = trim s := cutEnds_idem isSpace s

end OpenBrain.Core.Ecma

namespace OpenBrain.Server.Realtime
open OpenBrain.Core OpenBrain.Core.Ecma

/-- `ns` is `namespace`; a `thread_id` that is not there, and `null`, is `none`.
mirrors working-set.ts:42-60 -/
structure WorkingSetScope where
  ns : Str
  agent : Str
  platform : Str
  server_id : Str
  channel_id : Str
  thread_id : Option Str
  session_key : Str
  deriving DecidableEq

/-- mirrors working-set.ts:219-227 -/
inductive ScopeField where
  | ns | agent | platform | server_id | channel_id | thread_id | session_key
  deriving DecidableEq

def SCOPE_FIELDS : List ScopeField :=
  [.ns, .agent, .platform, .server_id, .channel_id, .thread_id, .session_key]

/-- `scope[field]`; only a `thread_id` can be `null`. -/
def WorkingSetScope.get (scope : WorkingSetScope) : ScopeField → Option Str
  | .ns => some scope.ns
  | .agent => some scope.agent
  | .platform => some scope.platform
  | .server_id => some scope.server_id
  | .channel_id => some scope.channel_id
  | .thread_id => scope.thread_id
  | .session_key => some scope.session_key

/-- mirrors working-set.ts:161-167; the error is the message -/
def requireScopePart (value : Str) (field : String) : Except Str Str :=
  let trimmed := trim value
  if trimmed = [] then .error (units ("working set scope requires non-empty " ++ field))
  else .ok trimmed

def requireThread : Option Str → Except Str (Option Str)
  | none => .ok none
  | some thread_id => (requireScopePart thread_id "thread_id").map some

/-- mirrors working-set.ts:169-184 -/
def normalizeWorkingSetScope (scope : WorkingSetScope) : Except Str WorkingSetScope := do
  let ns ← requireScopePart scope.ns "namespace"
  let agent ← requireScopePart scope.agent "agent"
  let platform ← requireScopePart scope.platform "platform"
  let server_id ← requireScopePart scope.server_id "server_id"
  let channel_id ← requireScopePart scope.channel_id "channel_id"
  let thread_id ← requireThread scope.thread_id
  let session_key ← requireScopePart scope.session_key "session_key"
  .ok ⟨ns, agent, platform, server_id, channel_id, thread_id, session_key⟩

def orNull (s : Option Str) : Json Double := (s.map Json.str).getD .null

def scopeText (scope : WorkingSetScope) : Str :=
  json.print (.arr (SCOPE_FIELDS.map fun field => orNull (scope.get field)))

/-- mirrors working-set.ts:191-202 -/
def workingSetScopeKey (scope : WorkingSetScope) : Except Str Str :=
  (normalizeWorkingSetScope scope).map scopeText

def scopeAndKey (scope : WorkingSetScope) : Except Str (WorkingSetScope × Str) := do
  let normalizedScope ← normalizeWorkingSetScope scope
  let key ← workingSetScopeKey normalizedScope
  .ok (normalizedScope, key)

/-- The first 16 hexadecimal digits of the SHA-256, which `sha256` gives in full.
mirrors working-set.ts:205-210 -/
def workingSetScopeHash (sha256 : Str → Str) (scope : WorkingSetScope) : Except Str Str :=
  (workingSetScopeKey scope).map fun key => (sha256 key).take 16

/-- mirrors working-set.ts:213-229 -/
def compareWorkingSetScope (left right : WorkingSetScope) : Except Str (List ScopeField) := do
  let a ← normalizeWorkingSetScope left
  let b ← normalizeWorkingSetScope right
  .ok (SCOPE_FIELDS.filter fun field => decide (a.get field ≠ b.get field))

/-! ## Normalized scopes -/

theorem requireScopePart_ok {value part : Str} {field : String}
    (h : requireScopePart value field = .ok part) :
    part = trim value ∧ requireScopePart part field = .ok part := by
  unfold requireScopePart at h
  dsimp only at h
  split at h
  · cases h
  · rename_i hne
    cases h
    refine ⟨rfl, ?_⟩
    unfold requireScopePart
    dsimp only
    rw [trim_trim, if_neg hne]

theorem requireThread_ok {thread_id part : Option Str} (h : requireThread thread_id = .ok part) :
    requireThread part = .ok part := by
  cases thread_id with
  | none =>
    cases h
    rfl
  | some value =>
    obtain ⟨trimmed, hp, rfl⟩ := map_ok h
    show (requireScopePart trimmed "thread_id").map some = _
    rw [(requireScopePart_ok hp).2]
    rfl

theorem normalize_ok {scope n : WorkingSetScope} (h : normalizeWorkingSetScope scope = .ok n) :
    requireScopePart scope.ns "namespace" = .ok n.ns ∧
      requireScopePart scope.agent "agent" = .ok n.agent ∧
      requireScopePart scope.platform "platform" = .ok n.platform ∧
      requireScopePart scope.server_id "server_id" = .ok n.server_id ∧
      requireScopePart scope.channel_id "channel_id" = .ok n.channel_id ∧
      requireThread scope.thread_id = .ok n.thread_id ∧
      requireScopePart scope.session_key "session_key" = .ok n.session_key := by
  obtain ⟨ns, h1, h⟩ := bind_ok h
  obtain ⟨agent, h2, h⟩ := bind_ok h
  obtain ⟨platform, h3, h⟩ := bind_ok h
  obtain ⟨server_id, h4, h⟩ := bind_ok h
  obtain ⟨channel_id, h5, h⟩ := bind_ok h
  obtain ⟨thread_id, h6, h⟩ := bind_ok h
  obtain ⟨session_key, h7, h⟩ := bind_ok h
  cases h
  exact ⟨h1, h2, h3, h4, h5, h6, h7⟩

theorem normalize_normalized {scope n : WorkingSetScope}
    (h : normalizeWorkingSetScope scope = .ok n) : normalizeWorkingSetScope n = .ok n := by
  obtain ⟨h1, h2, h3, h4, h5, h6, h7⟩ := normalize_ok h
  unfold normalizeWorkingSetScope
  rw [(requireScopePart_ok h1).2, (requireScopePart_ok h2).2, (requireScopePart_ok h3).2,
    (requireScopePart_ok h4).2, (requireScopePart_ok h5).2, requireThread_ok h6,
    (requireScopePart_ok h7).2]
  rfl

theorem key_ok {scope : WorkingSetScope} {key : Str} (h : workingSetScopeKey scope = .ok key) :
    ∃ n, normalizeWorkingSetScope scope = .ok n ∧ scopeText n = key := map_ok h

theorem key_of_normalize {scope n : WorkingSetScope} (h : normalizeWorkingSetScope scope = .ok n) :
    workingSetScopeKey scope = .ok (scopeText n) := by
  unfold workingSetScopeKey
  rw [h]
  rfl

theorem scopeAndKey_ok {scope n : WorkingSetScope} {key : Str}
    (h : scopeAndKey scope = .ok (n, key)) :
    normalizeWorkingSetScope scope = .ok n ∧ key = scopeText n := by
  obtain ⟨n', hn, h⟩ := bind_ok h
  obtain ⟨key', hk, h⟩ := bind_ok h
  cases h
  rw [key_of_normalize (normalize_normalized hn)] at hk
  exact ⟨hn, (Except.ok.inj hk).symm⟩

end OpenBrain.Server.Realtime
