import OpenBrain.Core.LTS
import OpenBrain.Provider.Gate.SharedState

/-!
# Whose entries the policy gate keeps (`policy_refresh_gate.py`)

Every save of the gate is of its invocation's own entry, under the key of its agent and session,
but for one: a refresh that names no session brings every entry of its agent and directory up to
date, and builds each of them with the session id of the invocation. `policy_keys` says when the
keys and the entries of a state file agree: as long as every refresh finds only entries of its own
session, agent and directory.
-/
namespace OpenBrain.Provider.Gate
open OpenBrain.Core OpenBrain.Core.Py List

/-! ## Runs -/

/-- The state file after an invocation. mirrors policy_refresh_gate.py:541-565 -/
def policyInvoke (file : Option PyJson) (i : PolicyInvocation) : Option PyJson :=
  let raw_sessions := load_state file
  (SharedFile.saveEach gateFile file raw_sessions (policyProgram i raw_sessions)).getD none

def policyRun (calls : List PolicyInvocation) : Option PyJson := calls.foldl policyInvoke none

def textMember (entry : PyJson) (name : String) : Option Str :=
  optionalText (Members.get? (entryMembers (some entry)) (units name))

def KeysMatch (file : Option PyJson) : Prop :=
  ∀ key entry, Members.get? (load_state file) key = some entry → ∃ agent session_id,
    textMember entry "agent" = some agent ∧ textMember entry "sessionId" = some session_id ∧
      key = agent ++ units ":" ++ session_id

def stalenessFields : List Str :=
  ["turnCount", "toolCount", "refreshRequired", "reason", "updatedAt", "lastRefreshAt",
    "lastRefreshEvent"].map units

/-- A refresh changes nothing else of the entries it refreshes, and nothing of the others. -/
def OnlyStaleness (i : PolicyInvocation) (before after : Option PyJson) : Prop :=
  ∀ key old, Members.get? (load_state before) key = some old →
    ∃ new, Members.get? (load_state after) key = some new ∧
      if key ∈ refreshedKeys i (load_state before) then ∀ name ∉ stalenessFields,
        Members.get? (entryMembers (some new)) name = Members.get? (entryMembers (some old)) name
      else new = old

def Sound (file : Option PyJson) (i : PolicyInvocation) : Prop :=
  KeysMatch (policyInvoke file i) ∧
    (i.event = .refresh → OnlyStaleness i file (policyInvoke file i))

def Encodable (i : PolicyInvocation) : Prop :=
  Utf8.wellPaired i.agent = true ∧ Utf8.wellPaired i.session_id = true ∧
    Utf8.wellPaired i.cwd = true ∧ Utf8.wellPaired i.now = true

def Own (i : PolicyInvocation) (entry : PyJson) : Prop :=
  textMember entry "sessionId" = some i.session_id ∧ textMember entry "agent" = some i.agent ∧
    textMember entry "cwd" = some i.cwd

/-- A refresh finds no entry that is not its own, and can write what it finds. -/
def Fits (file : Option PyJson) (i : PolicyInvocation) : Prop :=
  i.event = .refresh →
    (∀ key entry, key ∈ refreshedKeys i (load_state file) →
      Members.get? (load_state file) key = some entry → Own i entry) ∧
    (load_state file ≠ [] → Encodable i)

/-! ## Entries -/

theorem get?_setMember (key name : Str) (value : Option PyJson)
    (rest : List (Option (Str × PyJson))) :
    Members.get? (((value.map fun v => (key, v)) :: rest).filterMap id) name =
      if key = name then value.or (Members.get? (rest.filterMap id) name)
      else Members.get? (rest.filterMap id) name := by
  cases value with
  | none => simp
  | some v =>
    simp only [Option.map_some, filterMap_cons, id, Members.get?]
    split <;> rfl

theorem to_json_sessionId (state : PolicySessionState) :
    textMember state.to_json "sessionId" = some state.sessionId := by
  rfl

theorem to_json_agent (state : PolicySessionState) :
    textMember state.to_json "agent" = some state.agent := by
  unfold textMember PolicySessionState.to_json entryMembers
  simp only [get?_setMember]
  rw [if_neg (by decide), if_pos trivial]
  rfl

theorem to_json_cwd (state : PolicySessionState) :
    textMember state.to_json "cwd" = some state.cwd := by
  unfold textMember PolicySessionState.to_json entryMembers
  simp only [get?_setMember]
  rw [if_neg (by decide), if_neg (by decide), if_pos trivial]
  rfl

/-- States that agree beside the staleness fields are saved as entries that do. -/
theorem to_json_staleness {old new : PolicySessionState} (hid : new.sessionId = old.sessionId)
    (hagent : new.agent = old.agent) (hcwd : new.cwd = old.cwd)
    (htotal : new.totalTurnCount = old.totalTurnCount)
    (hprompt : new.lastPromptAt = old.lastPromptAt) {name : Str} (hname : name ∉ stalenessFields) :
    Members.get? (entryMembers (some new.to_json)) name =
      Members.get? (entryMembers (some old.to_json)) name := by
  have hne : ∀ key ∈ ["turnCount", "toolCount", "refreshRequired", "reason", "updatedAt",
      "lastRefreshAt", "lastRefreshEvent"], units key ≠ name := by
    rintro key hkey rfl
    exact hname (mem_map_of_mem hkey)
  simp only [forall_mem_cons, not_mem_nil, IsEmpty.forall_iff, implies_true,
    and_true] at hne
  obtain ⟨h₁, h₂, h₃, h₄, h₅, h₆, h₇⟩ := hne
  unfold PolicySessionState.to_json entryMembers
  simp only [get?_setMember, hid, hagent, hcwd, htotal, hprompt, h₁, h₂, h₃, h₄, h₅, h₆, h₇,
    if_false]

theorem hydratePolicy_identity (stored : Option PyJson) (session_id agent cwd now : Str) :
    let state := hydratePolicy stored session_id agent cwd now
    state.sessionId = session_id ∧ state.agent = agent ∧ state.cwd = cwd ∧
      state.totalTurnCount.isSome = true := by
  unfold hydratePolicy
  dsimp only
  split <;> exact ⟨rfl, rfl, rfl, rfl⟩

/-- What a refresh takes over of an entry the gate has saved. -/
theorem hydratePolicy_to_json (state : PolicySessionState) (htotal : state.totalTurnCount.isSome)
    (session_id agent cwd now : Str) :
    let read := hydratePolicy (some state.to_json) session_id agent cwd now
    read.totalTurnCount = state.totalTurnCount ∧ read.lastPromptAt = state.lastPromptAt := by
  obtain ⟨n, hn⟩ := Option.isSome_iff_exists.mp htotal
  have hturns : Members.get? (entryMembers (some state.to_json)) (units "totalTurnCount") =
      some (integerJson n) := by
    unfold PolicySessionState.to_json entryMembers
    simp only [get?_setMember, hn]
    rw [if_neg (by decide), if_neg (by decide), if_neg (by decide), if_neg (by decide),
      if_neg (by decide), if_neg (by decide), if_neg (by decide), if_neg (by decide), if_pos trivial]
    rfl
  have hprompt : optionalText (Members.get? (entryMembers (some state.to_json))
      (units "lastPromptAt")) = state.lastPromptAt := by
    unfold PolicySessionState.to_json entryMembers
    simp only [get?_setMember]
    rw [if_neg (by decide), if_neg (by decide), if_neg (by decide), if_neg (by decide),
      if_neg (by decide), if_neg (by decide), if_neg (by decide), if_neg (by decide),
      if_neg (by decide), if_neg (by decide), if_neg (by decide), if_pos trivial]
    cases state.lastPromptAt <;> rfl
  unfold hydratePolicy
  dsimp only
  split
  · exact ⟨by rw [hturns, hn]; rfl, hprompt⟩
  · exact ⟨by rw [hturns, hn]; rfl, hprompt⟩

/-! ## The save of an invocation -/

def refreshedState (i : PolicyInvocation) (raw_sessions : Items) (key : Str) : PolicySessionState :=
  markRefreshed i.now (match Members.get? raw_sessions key with
    | some (.obj stored) => hydratePolicy (some (.obj stored)) i.session_id i.agent i.cwd i.now
    | _ => hydratePolicy (Members.get? raw_sessions i.state_key) i.session_id i.agent i.cwd i.now)

/-- A state that carries the invocation's own identity. -/
structure Identified (i : PolicyInvocation) (state : PolicySessionState) : Prop where
  session : state.sessionId = i.session_id
  agent : state.agent = i.agent
  cwd : state.cwd = i.cwd
  total : state.totalTurnCount.isSome = true

theorem identified_hydrate (i : PolicyInvocation) (stored : Option PyJson) :
    Identified i (hydratePolicy stored i.session_id i.agent i.cwd i.now) := by
  obtain ⟨h₁, h₂, h₃, h₄⟩ := hydratePolicy_identity stored i.session_id i.agent i.cwd i.now
  exact ⟨h₁, h₂, h₃, h₄⟩

theorem identified_refreshed (i : PolicyInvocation) (raw_sessions : Items) (key : Str) :
    Identified i (refreshedState i raw_sessions key) := by
  have hmark : ∀ state, Identified i state → Identified i (markRefreshed i.now state) :=
    fun _ h => ⟨h.session, h.agent, h.cwd, h.total⟩
  unfold refreshedState
  apply hmark
  split <;> exact identified_hydrate i _

theorem policyProgram_own {i : PolicyInvocation} (h : i.event ≠ .refresh) (raw_sessions : Items) :
    ∃ state, policyProgram i raw_sessions = [[(i.state_key, state.to_json)]] ∧
      Identified i state := by
  have hid := identified_hydrate i (Members.get? raw_sessions i.state_key)
  unfold policyProgram
  cases hevent : i.event with
  | refresh => exact absurd hevent h
  | session_start => exact ⟨_, rfl, hid.session, hid.agent, hid.cwd, rfl⟩
  | user_prompt_submit => exact ⟨_, rfl, hid.session, hid.agent, hid.cwd, rfl⟩
  | pre_tool_use => exact ⟨_, rfl, hid.session, hid.agent, hid.cwd, hid.total⟩
  | pre_compact => exact ⟨_, rfl, hid.session, hid.agent, hid.cwd, hid.total⟩
  | post_compact => exact ⟨_, rfl, hid.session, hid.agent, hid.cwd, hid.total⟩

theorem policyProgram_refresh {i : PolicyInvocation} (h : i.event = .refresh)
    (raw_sessions : Items) : policyProgram i raw_sessions =
      [(refreshedKeys i raw_sessions).map fun key =>
        (key, (refreshedState i raw_sessions key).to_json)] := by
  cases i
  cases h
  rfl

/-- An invocation saves states of its own identity, its own entry or those it refreshes. -/
theorem policyProgram_saves (i : PolicyInvocation) (raw_sessions : Items) :
    ∃ (keys : List Str) (state : Str → PolicySessionState), policyProgram i raw_sessions =
      [keys.map fun key => (key, (state key).to_json)] ∧ (∀ key, Identified i (state key)) ∧
      if i.event = .refresh then
        keys = refreshedKeys i raw_sessions ∧ state = refreshedState i raw_sessions
      else keys = [i.state_key] := by
  by_cases h : i.event = .refresh
  · refine ⟨_, _, policyProgram_refresh h raw_sessions, identified_refreshed i raw_sessions, ?_⟩
    rw [if_pos h]
    exact ⟨rfl, rfl⟩
  · obtain ⟨state, hprogram, hid⟩ := policyProgram_own h raw_sessions
    exact ⟨[i.state_key], fun _ => state, hprogram, fun _ => hid, by rw [if_neg h]⟩

/-! ## The file behind an invocation -/

theorem mem_set {ms : Items} {key : Str} {v : PyJson} {m : Str × PyJson}
    (h : m ∈ Members.set ms key v) : m = (key, v) ∨ m ∈ ms := by
  induction ms with
  | nil => exact .inl (mem_singleton.mp h)
  | cons first ms ih =>
    obtain ⟨k, w⟩ := first
    rw [Members.set] at h
    split at h
    · rename_i hk
      rcases mem_cons.mp h with rfl | h
      · exact .inl (by rw [hk])
      · exact .inr (mem_cons_of_mem _ h)
    · rcases mem_cons.mp h with rfl | h
      · exact .inr mem_cons_self
      · exact (ih h).imp_right (mem_cons_of_mem _)

theorem mem_of_get? {ms : Items} {key : Str} {v : PyJson} (h : Members.get? ms key = some v) :
    (key, v) ∈ ms := by
  induction ms with
  | nil => cases h
  | cons first ms ih =>
    obtain ⟨k, w⟩ := first
    rw [Members.get?] at h
    split at h
    · rename_i hk
      cases h
      exact hk ▸ mem_cons_self
    · exact mem_cons_of_mem _ (ih h)

theorem get?_isSome {ms : Items} {m : Str × PyJson} (h : m ∈ ms) :
    (Members.get? ms m.1).isSome = true := by
  induction ms with
  | nil => cases h
  | cons first ms ih =>
    obtain ⟨k, w⟩ := first
    rw [Members.get?]
    split
    · rfl
    · rename_i hk
      rcases mem_cons.mp h with rfl | h
      · exact absurd rfl hk
      · exact ih h

theorem encodesMembers_iff {ms : Items} : encodesMembers ms = true ↔
    ∀ m ∈ ms, Utf8.wellPaired m.1 = true ∧ encodes m.2 = true := by
  induction ms with
  | nil => simp [encodesMembers]
  | cons m ms ih => simp [encodesMembers, ih]

theorem mem_assign {raw_sessions : Items} {save : List (Str × PyJson)} {m : Str × PyJson}
    (h : m ∈ SharedFile.assign gateFile raw_sessions save) : m ∈ save ∨ m ∈ raw_sessions := by
  unfold SharedFile.assign at h
  induction save using List.reverseRecOn with
  | nil => exact .inr h
  | append_singleton save w ih =>
    rw [foldl_append] at h
    rcases mem_set h with rfl | h
    · exact .inl (by simp)
    · exact (ih h).imp_left (mem_append_left _)

theorem last?_keys {β : Type} (keys : List Str) (f : Str → β) (key : Str) :
    Assoc.last? (keys.map fun k => (k, f k)) key = if key ∈ keys then some (f key) else none := by
  induction keys using List.reverseRecOn with
  | nil => rfl
  | append_singleton keys k ih =>
    rw [map_append, map_singleton, Assoc.last?_append_singleton, ih]
    by_cases hk : k = key
    · simp [hk]
    · simp [hk, Ne.symm hk]

/-- The texts of an entry. -/
theorem encodes_to_json (state : PolicySessionState) : encodes state.to_json = true ↔
    Utf8.wellPaired state.sessionId = true ∧ Utf8.wellPaired state.agent = true ∧
      Utf8.wellPaired state.cwd = true ∧ Utf8.wellPaired state.reason = true ∧
      Utf8.wellPaired state.updatedAt = true ∧
      (∀ t, state.lastRefreshAt = some t → Utf8.wellPaired t = true) ∧
      (∀ t, state.lastRefreshEvent = some t → Utf8.wellPaired t = true) ∧
      ∀ t, state.lastPromptAt = some t → Utf8.wellPaired t = true := by
  have hnames : ∀ name ∈ ["sessionId", "agent", "cwd", "turnCount", "toolCount",
      "refreshRequired", "reason", "updatedAt", "totalTurnCount", "lastRefreshAt",
      "lastRefreshEvent", "lastPromptAt"], Utf8.wellPaired (units name) = true := by
    decide +kernel
  simp only [forall_mem_cons, not_mem_nil, IsEmpty.forall_iff, implies_true,
    and_true] at hnames
  obtain ⟨h₁, h₂, h₃, h₄, h₅, h₆, h₇, h₈, h₉, h₁₀, h₁₁, h₁₂⟩ := hnames
  unfold PolicySessionState.to_json
  cases state.totalTurnCount <;> cases state.lastRefreshAt <;> cases state.lastRefreshEvent <;>
    cases state.lastPromptAt <;>
    simp [encodes, encodesMembers, integerJson, h₁, h₂, h₃, h₄, h₅, h₆, h₇, h₈, h₉, h₁₀, h₁₁, h₁₂]

/-- An invocation leaves a file with its entries, or one that was emptied. -/
theorem policyInvoke_cases (file : Option PyJson) (i : PolicyInvocation) :
    ∃ (keys : List Str) (state : Str → PolicySessionState), (∀ key, Identified i (state key)) ∧
      (if i.event = .refresh then
        keys = refreshedKeys i (load_state file) ∧ state = refreshedState i (load_state file)
      else keys = [i.state_key]) ∧
      let saved := SharedFile.assign gateFile (load_state file)
        (keys.map fun key => (key, (state key).to_json))
      (encodesMembers saved = true ∧ load_state (policyInvoke file i) = saved ∧
          ∀ key, Members.get? saved key = if key ∈ keys then some (state key).to_json
            else Members.get? (load_state file) key) ∨
        (encodesMembers saved = false ∧ load_state (policyInvoke file i) = []) := by
  obtain ⟨keys, state, hprogram, hid, hkeys⟩ := policyProgram_saves i (load_state file)
  refine ⟨keys, state, hid, hkeys, ?_⟩
  intro saved
  have hinvoke : policyInvoke file i = gateFile.text saved := by
    unfold policyInvoke
    dsimp only
    rw [hprogram]
    unfold SharedFile.saveEach
    cases gateFile.text saved <;> rfl
  have htext : gateFile.text saved = if encodesMembers saved then
    some (.obj [(units "sessions", .obj saved)]) else none := rfl
  cases hencodes : encodesMembers saved with
  | true =>
    refine .inl ⟨rfl, ?_, fun key => ?_⟩
    · rw [hinvoke, htext, hencodes]
      rfl
    · have hget := SharedFile.get_assign (W := gateFile) (load_state file)
        (keys.map fun key => (key, (state key).to_json)) key
      rw [last?_keys keys (fun key => (state key).to_json) key] at hget
      refine hget.trans ?_
      split <;> rfl
  | false =>
    refine .inr ⟨rfl, ?_⟩
    rw [hinvoke, htext, hencodes]
    rfl

/-- What the gate has written itself. -/
structure Written (file : Option PyJson) : Prop where
  entries : ∀ key entry, Members.get? (load_state file) key = some entry →
    ∃ state : PolicySessionState, entry = state.to_json ∧ state.totalTurnCount.isSome = true
  encoded : encodesMembers (load_state file) = true

theorem written_none : Written none where
  entries _ _ h := nomatch h
  encoded := rfl

variable {file : Option PyJson} {i : PolicyInvocation}

theorem Written.invoke (h : Written file) (i : PolicyInvocation) : Written (policyInvoke file i) := by
  obtain ⟨keys, state, hid, -, ⟨hencodes, hload, hget⟩ | ⟨-, hload⟩⟩ := policyInvoke_cases file i
  · refine ⟨fun key entry hentry => ?_, by rw [hload]; exact hencodes⟩
    rw [hload, hget] at hentry
    split at hentry
    · cases hentry
      exact ⟨state key, rfl, (hid key).total⟩
    · exact h.entries key entry hentry
  · refine ⟨fun key entry hentry => ?_, by rw [hload]; rfl⟩
    rw [hload] at hentry
    cases hentry

theorem refreshedState_stored {raw_sessions : Items} {key : Str} {old : PolicySessionState}
    (h : Members.get? raw_sessions key = some old.to_json) : refreshedState i raw_sessions key =
      markRefreshed i.now (hydratePolicy (some old.to_json) i.session_id i.agent i.cwd i.now) := by
  unfold refreshedState
  rw [h]
  rfl

theorem refreshedState_keeps {raw_sessions : Items} {key : Str} {old : PolicySessionState}
    (h : Members.get? raw_sessions key = some old.to_json)
    (htotal : old.totalTurnCount.isSome = true) :
    (refreshedState i raw_sessions key).totalTurnCount = old.totalTurnCount ∧
      (refreshedState i raw_sessions key).lastPromptAt = old.lastPromptAt := by
  rw [refreshedState_stored h]
  exact hydratePolicy_to_json old htotal i.session_id i.agent i.cwd i.now

theorem lastPromptAt_encodes {stored : Option PyJson}
    (h : ∀ entry, stored = some entry → encodes entry = true) {session_id agent cwd now t : Str}
    (ht : (hydratePolicy stored session_id agent cwd now).lastPromptAt = some t) :
    Utf8.wellPaired t = true := by
  have hread : (hydratePolicy stored session_id agent cwd now).lastPromptAt =
      optionalText (Members.get? (entryMembers stored) (units "lastPromptAt")) := by
    unfold hydratePolicy
    dsimp only
    split <;> rfl
  rw [hread] at ht
  unfold entryMembers at ht
  split at ht
  · rename_i ms
    have hms : encodesMembers ms = true := h _ rfl
    unfold optionalText at ht
    split at ht
    · rename_i s hs
      cases ht
      exact (encodesMembers_iff.mp hms _ (mem_of_get? hs)).2
    · cases ht
  · cases ht

theorem encodes_get? {key : Str} {entry : PyJson} (h : Written file)
    (hentry : Members.get? (load_state file) key = some entry) : encodes entry = true :=
  (encodesMembers_iff.mp h.encoded _ (mem_of_get? hentry)).2

theorem encodes_refreshed (h : Written file) (hi : Encodable i) (key : Str) :
    encodes (refreshedState i (load_state file) key).to_json = true := by
  obtain ⟨hagent, hsession, hcwd, hnow⟩ := hi
  have hid := identified_refreshed i (load_state file) key
  refine (encodes_to_json _).mpr ⟨hid.session ▸ hsession, hid.agent ▸ hagent, hid.cwd ▸ hcwd,
    rfl, hnow, ?_, ?_, ?_⟩
  · intro t ht
    cases ht
    exact hnow
  · intro t ht
    cases ht
    decide +kernel
  · intro t ht
    change (match Members.get? (load_state file) key with
      | some (.obj stored) => hydratePolicy (some (.obj stored)) i.session_id i.agent i.cwd i.now
      | _ => hydratePolicy (Members.get? (load_state file) i.state_key) i.session_id i.agent i.cwd
        i.now).lastPromptAt = some t at ht
    split at ht
    · rename_i stored hstored
      refine lastPromptAt_encodes ?_ ht
      rintro entry ⟨⟩
      exact encodes_get? h hstored
    · exact lastPromptAt_encodes (fun entry hentry => encodes_get? h hentry) ht

theorem paired_state_key (hi : Encodable i) : Utf8.wellPaired i.state_key = true :=
  Utf8.wellPaired_append _ _ (Utf8.wellPaired_append _ _ hi.1 (by decide)) hi.2.1

theorem mem_refreshedKeys {raw_sessions : Items} {key : Str} (h : key ∈ refreshedKeys i raw_sessions) :
    key = i.state_key ∨ ∃ entry, (key, entry) ∈ raw_sessions := by
  unfold refreshedKeys at h
  split at h
  · exact .inl (mem_singleton.mp h)
  · dsimp only at h
    split at h
    · exact .inl (mem_singleton.mp h)
    · obtain ⟨⟨k, v⟩, hmem, hk⟩ := mem_filterMap.mp h
      refine .inr ⟨v, ?_⟩
      dsimp only at hk
      split at hk
      · split at hk
        · cases hk
          exact hmem
        · cases hk
      · cases hk

theorem refreshedKeys_ne_nil (i : PolicyInvocation) (raw_sessions : Items) :
    refreshedKeys i raw_sessions ≠ [] := by
  unfold refreshedKeys
  split
  · exact cons_ne_nil _ _
  · dsimp only
    split
    · exact cons_ne_nil _ _
    · rename_i hne
      simpa [List.isEmpty_iff] using hne

theorem encodable_iff (h : Written file) :
    encodesMembers (SharedFile.assign gateFile (load_state file)
      ((refreshedKeys i (load_state file)).map fun key =>
        (key, (refreshedState i (load_state file) key).to_json))) = true ↔ Encodable i := by
  constructor
  · intro hencodes
    obtain ⟨key, hkey⟩ := exists_mem_of_ne_nil _ (refreshedKeys_ne_nil i (load_state file))
    have hget := SharedFile.get_assign (W := gateFile) (load_state file)
      ((refreshedKeys i (load_state file)).map fun key =>
        (key, (refreshedState i (load_state file) key).to_json)) key
    rw [last?_keys _ (fun key => (refreshedState i (load_state file) key).to_json) key,
      if_pos hkey, Option.some_or] at hget
    have hentry := (encodesMembers_iff.mp hencodes _ (mem_of_get? hget)).2
    have hid := identified_refreshed i (load_state file) key
    obtain ⟨hsession, hagent, hcwd, -, hnow, -⟩ := (encodes_to_json _).mp hentry
    exact ⟨hid.agent ▸ hagent, hid.session ▸ hsession, hid.cwd ▸ hcwd, hnow⟩
  · intro hi
    refine encodesMembers_iff.mpr fun m hm => ?_
    rcases mem_assign hm with hm | hm
    · obtain ⟨key, hkey, rfl⟩ := mem_map.mp hm
      refine ⟨?_, encodes_refreshed h hi key⟩
      rcases mem_refreshedKeys hkey with rfl | ⟨entry, hentry⟩
      · exact paired_state_key hi
      · exact (encodesMembers_iff.mp h.encoded _ hentry).1
    · exact encodesMembers_iff.mp h.encoded m hm

/-! ## One invocation -/

theorem keysMatch_of_own {event : i.event ≠ .refresh} (h : KeysMatch file) :
    KeysMatch (policyInvoke file i) := by
  obtain ⟨keys, state, hid, hkeys, ⟨-, hload, hget⟩ | ⟨-, hload⟩⟩ := policyInvoke_cases file i
  · rw [if_neg event] at hkeys
    intro key entry hentry
    rw [hload, hget, hkeys] at hentry
    split at hentry
    · rename_i hkey
      cases hentry
      refine ⟨_, _, to_json_agent _, to_json_sessionId _, ?_⟩
      rw [(hid key).agent, (hid key).session]
      exact mem_singleton.mp hkey
    · exact h key entry hentry
  · intro key entry hentry
    rw [hload] at hentry
    cases hentry

/-- A refresh that finds its own entries alone does right by the file. -/
theorem sound_of_fits (hw : Written file) (hk : KeysMatch file) (hfits : Fits file i) :
    Sound file i := by
  by_cases event : i.event = .refresh
  · obtain ⟨hown, hencodable⟩ := hfits event
    obtain ⟨keys, state, hid, hkeys, h⟩ := policyInvoke_cases file i
    rw [if_pos event] at hkeys
    obtain ⟨rfl, rfl⟩ := hkeys
    rcases h with ⟨-, hload, hget⟩ | ⟨hlost, hload⟩
    · refine ⟨fun key entry hentry => ?_, fun _ key old hold => ?_⟩
      · rw [hload, hget] at hentry
        split at hentry
        · rename_i hkey
          cases hentry
          refine ⟨_, _, to_json_agent _, to_json_sessionId _, ?_⟩
          rw [(hid key).agent, (hid key).session]
          rcases mem_refreshedKeys hkey with rfl | ⟨stored, hstored⟩
          · rfl
          · -- the key of an entry in the file names the entry's agent and session
            obtain ⟨entry, hentry⟩ := Option.isSome_iff_exists.mp (get?_isSome hstored)
            obtain ⟨agent, session_id, hagent, hsession, heq⟩ := hk key entry hentry
            obtain ⟨hs, ha, -⟩ := hown key entry hkey hentry
            rw [hs] at hsession
            rw [ha] at hagent
            rw [heq, ← Option.some.inj hsession, ← Option.some.inj hagent]
        · exact hk key entry hentry
      · rw [hload, hget]
        by_cases hkey : key ∈ refreshedKeys i (load_state file)
        · obtain ⟨st, rfl, htotal⟩ := hw.entries key old hold
          obtain ⟨hs, ha, hc⟩ := hown key _ hkey hold
          rw [to_json_sessionId] at hs
          rw [to_json_agent] at ha
          rw [to_json_cwd] at hc
          obtain ⟨hturns, hprompt⟩ := refreshedState_keeps (i := i) hold htotal
          refine ⟨_, if_pos hkey, ?_⟩
          rw [if_pos hkey]
          intro name hname
          exact to_json_staleness ((hid key).session.trans (Option.some.inj hs).symm)
            ((hid key).agent.trans (Option.some.inj ha).symm)
            ((hid key).cwd.trans (Option.some.inj hc).symm) hturns hprompt hname
        · refine ⟨old, by rw [if_neg hkey]; exact hold, ?_⟩
          rw [if_neg hkey]
    · -- the file was emptied: there was nothing in it
      have hempty : load_state file = [] := by
        by_contra hne
        rw [(encodable_iff hw).mpr (hencodable hne)] at hlost
        cases hlost
      refine ⟨fun key entry hentry => ?_, fun _ key old hold => ?_⟩
      · rw [hload] at hentry
        cases hentry
      · rw [hempty] at hold
        cases hold
  · exact ⟨@keysMatch_of_own _ _ event hk, fun h => absurd h event⟩

/-- A refresh that does right by the file finds its own entries alone. -/
theorem fits_of_sound (hw : Written file) (hsound : Sound file i) : Fits file i := by
  intro event
  have honly := hsound.2 event
  obtain ⟨keys, state, hid, hkeys, h⟩ := policyInvoke_cases file i
  rw [if_pos event] at hkeys
  obtain ⟨rfl, rfl⟩ := hkeys
  rcases h with ⟨hencodes, hload, hget⟩ | ⟨-, hload⟩
  · refine ⟨fun key entry hkey hentry => ?_, fun _ => (encodable_iff hw).mp hencodes⟩
    obtain ⟨new, hnew, hsame⟩ := honly key entry hentry
    rw [hload, hget, if_pos hkey] at hnew
    cases hnew
    rw [if_pos hkey] at hsame
    have hkept : ∀ name : String, units name ∉ stalenessFields →
        textMember (refreshedState i (load_state file) key).to_json name =
          textMember entry name := by
      intro name hname
      unfold textMember
      rw [hsame (units name) hname]
    refine ⟨?_, ?_, ?_⟩
    · rw [← hkept "sessionId" (by decide +kernel), to_json_sessionId, (hid key).session]
    · rw [← hkept "agent" (by decide +kernel), to_json_agent, (hid key).agent]
    · rw [← hkept "cwd" (by decide +kernel), to_json_cwd, (hid key).cwd]
  · have hnone : load_state file = [] := by
      cases hraw : load_state file with
      | nil => rfl
      | cons m ms =>
        obtain ⟨old, hold⟩ := Option.isSome_iff_exists.mp
          (@get?_isSome (load_state file) m (hraw ▸ mem_cons_self))
        obtain ⟨new, hnew, -⟩ := honly m.1 old hold
        rw [hload] at hnew
        cases hnew
    refine ⟨fun key entry _ hentry => ?_, fun hne => absurd hnone hne⟩
    rw [hnone] at hentry
    cases hentry

/-! ## Every run -/

theorem policyRun_concat (calls : List PolicyInvocation) (i : PolicyInvocation) :
    policyRun (calls ++ [i]) = policyInvoke (policyRun calls) i := by
  simp [policyRun]

theorem written_run (calls : List PolicyInvocation) : Written (policyRun calls) := by
  induction calls using List.reverseRecOn with
  | nil => exact written_none
  | append_singleton calls i ih =>
    rw [policyRun_concat]
    exact ih.invoke i

/-- As long as every invocation does right by the file its keys and entries agree. -/
theorem keysMatch_run {calls : List PolicyInvocation}
    (h : Justified (fun before i => Sound (policyRun before) i) calls) :
    KeysMatch (policyRun calls) := by
  rcases eq_nil_or_concat' calls with rfl | ⟨calls, i, rfl⟩
  · intro key entry hentry
    cases hentry
  · rw [policyRun_concat]
    exact (h calls i [] rfl).1

/-- In a run of invocations, with and without a session, every one leaves keys and entries that
agree, and every refresh changes the staleness fields alone, exactly when every refresh finds no
entry but of its own session, agent and directory (and can write it). -/
theorem policy_keys (calls : List PolicyInvocation) :
    (∀ before i after, calls = before ++ i :: after → Sound (policyRun before) i) ↔
      ∀ before i after, calls = before ++ i :: after → Fits (policyRun before) i := by
  constructor
  · exact fun h before i after heq => fits_of_sound (written_run before) (h before i after heq)
  · intro h
    have hall : Justified (fun before i => Sound (policyRun before) i) calls := by
      induction calls using List.reverseRecOn with
      | nil => exact .nil
      | append_singleton calls i ih =>
        have hfront : Justified (fun before i => Sound (policyRun before) i) calls := ih
          (Justified.of_append (Q := fun before i => Fits (policyRun before) i) h)
        exact hfront.concat
          (sound_of_fits (written_run calls) (keysMatch_run hfront) (h calls i [] rfl))
    exact hall

def sessionless : List PolicyInvocation :=
  [{ event := .session_start, agent := units "claude", named := units "s1", cwd := units "/w",
     now := units "t0" },
    { event := .refresh, agent := units "claude", named := [], cwd := units "/w",
      now := units "t1" }]

/-- The entry of the session carries the name of the directory. -/
theorem sessionless_renames :
    ¬ (∀ before i after, sessionless = before ++ i :: after → Sound (policyRun before) i) ∧
      ((Members.get? (load_state (policyRun sessionless)) (units "claude:s1")).bind fun entry =>
        textMember entry "sessionId") = some (units "claude:/w") := by
  refine ⟨fun h => ?_, by decide +kernel⟩
  obtain ⟨hown, -⟩ := (policy_keys sessionless).mp h (sessionless.take 1)
    (sessionless.getLast (by decide)) [] rfl rfl
  have hstored : ((Members.get? (load_state (policyRun (sessionless.take 1)))
      (units "claude:s1")).bind fun entry => textMember entry "sessionId") =
        some (units "s1") := by
    decide +kernel
  obtain ⟨entry, hentry, hname⟩ := Option.bind_eq_some_iff.mp hstored
  have hrenamed := (hown (units "claude:s1") entry (by decide +kernel) hentry).1
  rw [hname] at hrenamed
  revert hrenamed
  decide +kernel

end OpenBrain.Provider.Gate
