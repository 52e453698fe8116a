import OpenBrain.Server.SourceRegistry.Registry
import Mathlib.Data.Prod.Lex

/-!
# The lifecycle of a source

`step` runs the calls of the registry side by side, statement by statement. The log keeps what
the calls answered with success after a change.

**Results.** `registry_lifecycle`, for every reachable state and every next step:
* a row keeps its identity and is left as it is, or is changed by one call and gains one revision,
  so its revision counts its changes; a retired row is not changed;
* no two updates that succeeded named the same row and the same revision;
* the approval's columns are set on the approved rows alone, and a row becomes approved only by a
  caller that may approve;
* registering a source that is there changes nothing, and answers with its row if the registration
  is `Identical` to it;
* the ingestion gate lets through what is approved and active.
-/
namespace OpenBrain.Server.SourceRegistry
open OpenBrain.Core OpenBrain.Server.Auth OpenBrain.Server.Security List

/-! ## The system -/

inductive Call where
  | register (auth : AuthInfo) (input : RegisterSourceInput)
  | update (auth : AuthInfo) (input : UpdateSourceInput)
  | remove (auth : AuthInfo) (id : Str) (targetNamespace : Option Str)

def Call.auth : Call → AuthInfo
  | .register auth _ | .update auth _ | .remove auth _ _ => auth

/-- What a call changed, once it has answered with success. -/
inductive Event where
  | registered (id : Uuid)
  | updated (id : Uuid) (expected_revision : Int)
  | removed (id : Uuid)
  deriving DecidableEq

def Event.changed : Event → Option Uuid
  | .registered _ => none
  | .updated id _ | .removed id => some id

def Event.named : Event → Option (Uuid × Int)
  | .updated id expected => some (id, expected)
  | .registered _ | .removed _ => none

structure State where
  rows : List SourceRecord
  waiting : List Waiting
  log : List Event

inductive Label where
  /-- the call's first statement; `id` is the id drawn for a new row -/
  | start (call : Call) (id : Uuid) (now : Int)
  /-- the second statement of a call that waits -/
  | finish (place : Nat)

def Change.apply (rows : List SourceRecord) : Change → List SourceRecord
  | .none => rows
  | .inserted row => rows ++ [row]
  | .updated row => Table.updateWhere (fun old => decide (old.id = row.id)) (fun _ => row) rows

def First.waiting {α : Type} : First α → List Waiting
  | .done _ => []
  | .next waiting => [waiting]

/-- What a first statement that succeeded has to tell. -/
def First.event {α : Type} (event : α → Event) : First α → List Event
  | .done (.ok data) => [event data]
  | .done (.refused _ _) | .done .threw | .next _ => []

def Call.run (W : Wire) (env : SharedNamespaceEnv) (rows : List SourceRecord) (id : Uuid)
    (now : Int) : Call → Change × List Waiting × List Event
  | .register auth input =>
    let (first, change) := registerSource W env auth input rows id now
    (change, first.waiting, first.event fun row => .registered row.id)
  | .update auth input =>
    let (first, change) := updateSource W env auth input rows now
    (change, first.waiting, first.event fun row => .updated row.id input.expected_revision)
  | .remove auth id targetNamespace =>
    let (first, change) := removeSource W env auth id targetNamespace rows now
    (change, first.waiting, first.event fun id => .removed id)

def State.step (W : Wire) (env : SharedNamespaceEnv) (s : State) : Label → Option State
  | .start call id now =>
    if id ∈ s.rows.map SourceRecord.id then none
    else
      let (change, waiting, events) := call.run W env s.rows id now
      some ⟨change.apply s.rows, s.waiting ++ waiting, s.log ++ events⟩
  | .finish place =>
    if place < s.waiting.length then some { s with waiting := s.waiting.eraseIdx place } else none

def State.Init (s : State) : Prop := s.rows = [] ∧ s.waiting = [] ∧ s.log = []

def system (W : Wire) (env : SharedNamespaceEnv) : LTS State Label :=
  LTS.ofFn State.Init fun s l => s.step W env l

/-! ## Equal values -/

/-- Equal but for the order of members, at any depth. -/
inductive Same : Json Double → Json Double → Prop
  | refl (v : Json Double) : Same v v
  | trans {u v w : Json Double} : Same u v → Same v w → Same u w
  | elem (xs ys : List (Json Double)) {v w : Json Double} :
    Same v w → Same (.arr (xs ++ v :: ys)) (.arr (xs ++ w :: ys))
  | member (ms ns : Members Double) (k : Str) {v w : Json Double} :
    Same v w → Same (.obj (ms ++ (k, v) :: ns)) (.obj (ms ++ (k, w) :: ns))
  | order {ms ns : Members Double} (keys : (ms.map Prod.fst).Nodup) (h : ms.Perm ns) :
    Same (.obj ms) (.obj ns)

theorem stableElems_eq_map (xs : List (Json Double)) : stableElems xs = xs.map stableStringify := by
  induction xs with
  | nil => rfl
  | cons x xs ih => rw [stableElems, ih, map_cons]

theorem stableEntries_eq_map (ms : Members Double) :
    stableEntries ms = ms.map fun m => (m.1, stableStringify m.2) := by
  induction ms with
  | nil => rfl
  | cons m ms ih => rw [stableEntries, ih, map_cons]

theorem insertionSort_perm {es fs : List (Str × Str)} (hkeys : (es.map Prod.fst).Nodup)
    (h : es.Perm fs) : es.insertionSort (fun a b => keyOrder a ≤ keyOrder b) =
      fs.insertionSort fun a b => keyOrder a ≤ keyOrder b := by
  refine @List.Perm.eq_of_pairwise _ (fun a b => keyOrder a ≤ keyOrder b) _ _ ?_ ?_ ?_ ?_
  · intro a b ha hb hab hba
    have ha := (perm_insertionSort _ _).mem_iff.mp ha
    have hb := h.mem_iff.mpr ((perm_insertionSort _ _).mem_iff.mp hb)
    have horder : keyOrder a = keyOrder b := le_antisymm hab hba
    have hkey : a.1 = b.1 :=
      map_injective_iff.mpr (fun _ _ h => UInt16.toNat_inj.mp h) horder
    exact inj_on_of_nodup_map hkeys ha hb hkey
  · exact pairwise_insertionSort _ _
  · exact pairwise_insertionSort _ _
  · exact ((perm_insertionSort _ _).trans h).trans (perm_insertionSort _ _).symm

theorem stableStringify_same {v w : Json Double} (h : Same v w) :
    stableStringify v = stableStringify w := by
  induction h with
  | refl v => rfl
  | trans _ _ ih₁ ih₂ => exact ih₁.trans ih₂
  | elem xs ys _ ih =>
    simp only [stableStringify, stableElems_eq_map, map_append, map_cons, ih]
  | member ms ns k _ ih =>
    simp only [stableStringify, stableEntries_eq_map, map_append, map_cons, ih]
  | @order ms ns keys h =>
    simp only [stableStringify, stableEntries_eq_map]
    rw [insertionSort_perm ?_ (h.map _)]
    rw [map_map]
    exact keys

theorem stableEqual_same {v w : Json Double} (h : Same v w) : stableEqual v w = true :=
  decide_eq_true (stableStringify_same h)

/-- A registration that says of a source what its row says. -/
structure Identical (row : SourceRecord) (input : RegisterSourceInput)
    (approvalState : ApprovalState) : Prop where
  title : ∀ title, input.title = some title → row.title = some title
  language : ∀ language, input.language = some language → row.language = some language
  scope : ∀ scope, input.scope = some scope → Same scope row.scope
  config : ∀ config, input.config = some config → Same config row.config
  approval : approvalState = .approved → row.approval_state = .approved

theorem isSemanticallyIdentical {row : SourceRecord} {input : RegisterSourceInput}
    {approvalState : ApprovalState} (h : Identical row input approvalState) :
    isSemanticallyIdenticalRegistration row input approvalState = true := by
  have hdescribed : describedFieldsMatch row input = true := by
    have htitle : input.title.any (fun title => decide (some title ≠ row.title)) = false := by
      rw [Option.any_eq_false]
      intro title ht
      simp [h.title title ht]
    have hlanguage :
        input.language.any (fun language => decide (some language ≠ row.language)) = false := by
      rw [Option.any_eq_false]
      intro language hl
      simp [h.language language hl]
    have hscope : input.scope.any (fun scope => !stableEqual scope row.scope) = false := by
      rw [Option.any_eq_false]
      intro scope hs
      simp [stableEqual_same (h.scope scope hs)]
    have hconfig : input.config.any (fun config => !stableEqual config row.config) = false := by
      rw [Option.any_eq_false]
      intro config hc
      simp [stableEqual_same (h.config config hc)]
    unfold describedFieldsMatch
    rw [htitle, hlanguage, hscope, hconfig]
    rfl
  unfold isSemanticallyIdenticalRegistration
  rw [hdescribed, if_neg (by decide)]
  cases approvalState with
  | approved => rw [h.approval rfl]; rfl
  | pending => rfl
  | rejected => rfl

/-! ## What a statement changes -/

/-- The approval's columns are set on approved rows alone. -/
structure Provenance (row : SourceRecord) : Prop where
  approved_by : row.approved_by.isSome ↔ row.approval_state = .approved
  approved_at : row.approved_at.isSome ↔ row.approval_state = .approved

/-- A row, and the row a caller makes of it. -/
structure Moves (auth : AuthInfo) (old row : SourceRecord) : Prop where
  id : row.id = old.id
  key : row.key = old.key
  live : old.lifecycle_state ≠ .retired
  revision : row.revision = old.revision + 1
  provenance : Provenance old → Provenance row
  approved : row.approval_state = .approved →
    old.approval_state = .approved ∨ canApprove auth = true

section Statements
variable {W : Wire} {env : SharedNamespaceEnv} {auth : AuthInfo} {rows : List SourceRecord}
  {id : Uuid} {now : Int}

theorem insertSourceRow_some {ns : Str} {input : RegisterSourceInput} {approved : Bool}
    {state : ApprovalState} {row : SourceRecord}
    (h : insertSourceRow W ns auth input approved state id now = some row) :
    row.id = id ∧ row.revision = 1 ∧ row.approval_state = state ∧
      row.approved_by.isSome = approved ∧ row.approved_at.isSome = approved ∧
      W.text ns = some row.ns ∧ row.source_kind = input.source_kind ∧
      W.text input.external_id = some row.external_id := by
  unfold insertSourceRow at h
  simp only [Option.bind_eq_bind, Option.bind_eq_some_iff] at h
  obtain ⟨ns', hns, scope, -, ext, hext, title, -, by', hby, language, -, config, -, created, -, h⟩ :=
    h
  rw [← Option.some.inj h]
  refine ⟨rfl, rfl, rfl, ?_, ?_, hns, rfl, hext⟩
  · cases approved with
    | false => rw [if_neg (by decide)] at hby; rw [← Option.some.inj hby]; rfl
    | true =>
      rw [if_pos rfl] at hby
      obtain ⟨text, -, rfl⟩ := Option.map_eq_some_iff.mp hby
      rfl
  · cases approved <;> rfl

structure Registered (auth : AuthInfo) (rows : List SourceRecord) (id : Uuid)
    (row : SourceRecord) : Prop where
  id : row.id = id
  revision : row.revision = 1
  provenance : Provenance row
  approved : row.approval_state = .approved → canApprove auth = true
  key : row.key ∉ rows.map SourceRecord.key

/-- What a first statement changes, and what it tells. -/
inductive Ran (auth : AuthInfo) (rows : List SourceRecord) (id : Uuid) :
    Change → List Event → Prop
  | none : Ran auth rows id .none []
  | inserted {row : SourceRecord} (new : Registered auth rows id row) :
    Ran auth rows id (.inserted row) [.registered row.id]
  | updated {old row : SourceRecord} (mem : old ∈ rows) (moves : Moves auth old row) :
    Ran auth rows id (.updated row) [.updated row.id old.revision]
  | removed {old row : SourceRecord} (mem : old ∈ rows) (moves : Moves auth old row) :
    Ran auth rows id (.updated row) [.removed row.id]

/-- The row of an identity, as a caller names it. -/
structure Names (W : Wire) (ns : Str) (kind : SourceKind) (external_id : Str)
    (row : SourceRecord) : Prop where
  ns : W.text ns = some row.ns
  kind : row.source_kind = kind
  external_id : W.text external_id = some row.external_id

def Waiting.HasRow (W : Wire) (rows : List SourceRecord) : Waiting → Prop
  | .duplicate ns input _ => ∃ row ∈ rows, Names W ns input.source_kind input.external_id row
  | .updateMiss _ _ | .removeMiss _ _ => True

theorem Names.of_key {ns external_id : Str} {kind : SourceKind} {row row' : SourceRecord}
    (h : Names W ns kind external_id row) (hkey : row'.key = row.key) :
    Names W ns kind external_id row' := by
  injection hkey with hns hkind hext
  exact ⟨hns ▸ h.ns, hkind.trans h.kind, hext ▸ h.external_id⟩

/-- How a registration goes. -/
inductive Registers (W : Wire) (env : SharedNamespaceEnv) (auth : AuthInfo)
    (input : RegisterSourceInput) (rows : List SourceRecord) (id : Uuid) (now : Int) :
    First SourceRecord → Change → Prop
  | refused {code : Code} {reason : Option Str} :
    Registers W env auth input rows id now (.done (.refused code reason)) .none
  | threw : Registers W env auth input rows id now (.done .threw) .none
  | existing {old : SourceRecord} (mem : old ∈ rows)
    (names : Names W (effectiveWriteNamespace env auth input.target_namespace) input.source_kind
      input.external_id old) :
    Registers W env auth input rows id now
      (.next (.duplicate (effectiveWriteNamespace env auth input.target_namespace) input
        (requestedState auth input))) .none
  | new {row : SourceRecord} (registered : Registered auth rows id row)
    (names : Names W (effectiveWriteNamespace env auth input.target_namespace) input.source_kind
      input.external_id row) :
    Registers W env auth input rows id now (.done (.ok (mapRow row))) (.inserted row)

theorem provenance_of_insert {ns : Str} {input : RegisterSourceInput} {approved : Bool}
    {row : SourceRecord}
    (h : insertSourceRow W ns auth input approved (if approved then .approved else .pending) id now =
      some row) : Provenance row := by
  obtain ⟨-, -, hstate, hby, hat, -⟩ := insertSourceRow_some h
  constructor
  · rw [hby, hstate]
    cases approved <;> simp
  · rw [hat, hstate]
    cases approved <;> simp

theorem registers (input : RegisterSourceInput) {first : First SourceRecord}
    {change : Change} (h : registerSource W env auth input rows id now = (first, change)) :
    Registers W env auth input rows id now first change := by
  have hstate : (if (decide (input.approved = some true) && canApprove auth) = true
      then ApprovalState.approved else .pending) = requestedState auth input := by
    unfold requestedState
    simp only [Bool.and_eq_true, decide_eq_true_eq]
  unfold registerSource at h
  simp only at h
  split at h
  · cases h
    exact .refused
  · split at h
    · cases h
      exact .refused
    · split at h
      · cases h
        exact .threw
      · rename_i row hrow
        obtain ⟨hid, hrevision, happroval, -, -, hns, hkind, hext⟩ := insertSourceRow_some hrow
        have hnames : Names W (effectiveWriteNamespace env auth input.target_namespace)
            input.source_kind input.external_id row := ⟨hns, hkind, hext⟩
        split at h
        · rename_i hkey
          obtain ⟨old, hold, hkeys⟩ := mem_map.mp hkey
          cases h
          rw [hstate]
          exact .existing hold (hnames.of_key hkeys)
        · rename_i hkey
          cases h
          refine .new ⟨hid, hrevision, provenance_of_insert hrow, ?_, hkey⟩ hnames
          intro happroved
          rw [happroval] at happroved
          split at happroved
          · rename_i hboth
            exact (Bool.and_eq_true_iff.mp hboth).2
          · cases happroved

theorem registerSource_ran (input : RegisterSourceInput) {first : First SourceRecord}
    {change : Change} (h : registerSource W env auth input rows id now = (first, change)) :
    Ran auth rows id change (first.event fun row => .registered row.id) ∧
      ∀ w ∈ first.waiting, w.HasRow W rows := by
  cases registers input h with
  | refused => exact ⟨.none, fun w hw => nomatch hw⟩
  | threw => exact ⟨.none, fun w hw => nomatch hw⟩
  | existing hold hnames =>
    refine ⟨.none, fun w hw => ?_⟩
    rw [mem_singleton.mp hw]
    exact ⟨_, hold, hnames⟩
  | new hnew _ => exact ⟨.inserted hnew, fun w hw => nomatch hw⟩

/-- What an update's SET clause makes of a row. -/
structure Assigned (input : UpdateSourceInput) (old row : SourceRecord) : Prop where
  id : row.id = old.id
  key : row.key = old.key
  revision : row.revision = old.revision
  provenance : Provenance old → Provenance row
  approved : row.approval_state = .approved →
    old.approval_state = .approved ∨ input.approval_state = some .approved

theorem buildUpdateAssignments_some {input : UpdateSourceInput} {assign : SourceRecord → SourceRecord}
    (h : buildUpdateAssignments W auth input (decide (input.approval_state = some .approved)) now =
      some assign) (old : SourceRecord) : Assigned input old (assign old) := by
  unfold buildUpdateAssignments at h
  simp only [Option.bind_eq_bind, Option.bind_eq_some_iff] at h
  obtain ⟨title, -, scope, -, language, -, config, -, hash, -, synced, -, by', hby, h⟩ := h
  rw [← Option.some.inj h]
  cases hstate : input.approval_state with
  | none => exact ⟨rfl, rfl, rfl, fun p => ⟨p.approved_by, p.approved_at⟩, .inl⟩
  | some state =>
    rw [hstate] at hby
    have hasked : state = .approved → some state = some ApprovalState.approved := congrArg some
    refine ⟨rfl, rfl, rfl, fun _ => ?_, fun ha => .inr (hstate.trans (hasked ha))⟩
    -- both columns are written with the state
    cases state with
    | approved =>
      rw [if_pos (by decide)] at hby
      obtain ⟨text, -, rfl⟩ := Option.map_eq_some_iff.mp hby
      exact ⟨iff_of_true rfl rfl, iff_of_true rfl rfl⟩
    | pending =>
      rw [if_neg (by decide)] at hby
      rw [← Option.some.inj hby]
      exact ⟨iff_of_false nofun nofun, iff_of_false nofun nofun⟩
    | rejected =>
      rw [if_neg (by decide)] at hby
      rw [← Option.some.inj hby]
      exact ⟨iff_of_false nofun nofun, iff_of_false nofun nofun⟩

theorem updateSource_ran (input : UpdateSourceInput) {first : First SourceRecord}
    {change : Change} (h : updateSource W env auth input rows now = (first, change)) :
    Ran auth rows id change
        (first.event fun row => .updated row.id input.expected_revision) ∧
      ∀ w ∈ first.waiting, w.HasRow W rows := by
  unfold updateSource at h
  simp only at h
  split at h
  · cases h
    exact ⟨.none, fun w hw => nomatch hw⟩
  · split at h
    · cases h
      exact ⟨.none, fun w hw => nomatch hw⟩
    · rename_i happrove
      split at h
      · rename_i id' ns' assign _ _ hassign
        split at h
        · cases h
          exact ⟨.none, fun w hw => nomatch hw⟩
        · split at h
          · cases h
            refine ⟨.none, fun w hw => ?_⟩
            rw [mem_singleton.mp hw]
            trivial
          · rename_i old hfind
            split at h
            · cases h
              exact ⟨.none, fun w hw => nomatch hw⟩
            · cases h
              have hmatch := find?_some hfind
              rw [decide_eq_true_eq] at hmatch
              have hset := buildUpdateAssignments_some hassign old
              have hgrant : input.approval_state = some .approved → canApprove auth = true := by
                intro ha
                rw [decide_eq_true ha] at happrove
                simpa using happrove
              have hmoves : Moves auth old (advance now (assign old)) :=
                { id := hset.id
                  key := hset.key
                  live := hmatch.2.2.2
                  revision := congrArg (· + 1) hset.revision
                  provenance := fun p =>
                    ⟨(hset.provenance p).approved_by, (hset.provenance p).approved_at⟩
                  approved := fun ha => (hset.approved ha).imp_right hgrant }
              have hran : Ran auth rows id _ _ :=
                .updated (mem_of_find?_eq_some hfind) hmoves
              rw [hmatch.2.2.1] at hran
              exact ⟨hran, fun w hw => nomatch hw⟩
      · cases h
        exact ⟨.none, fun w hw => nomatch hw⟩

theorem removeSource_ran (source : Str) (targetNamespace : Option Str) {first : First Uuid}
    {change : Change}
    (h : removeSource W env auth source targetNamespace rows now = (first, change)) :
    Ran auth rows id change (first.event fun id => .removed id) ∧
      ∀ w ∈ first.waiting, w.HasRow W rows := by
  unfold removeSource at h
  simp only at h
  split at h
  · cases h
    exact ⟨.none, fun w hw => nomatch hw⟩
  · split at h
    · split at h
      · cases h
        refine ⟨.none, fun w hw => ?_⟩
        rw [mem_singleton.mp hw]
        trivial
      · rename_i old hfind
        split at h
        · cases h
          exact ⟨.none, fun w hw => nomatch hw⟩
        · cases h
          have hmatch := find?_some hfind
          rw [decide_eq_true_eq] at hmatch
          refine ⟨.removed (mem_of_find?_eq_some hfind) ?_, fun w hw => nomatch hw⟩
          exact
            { id := rfl
              key := rfl
              live := hmatch.2.2
              revision := rfl
              provenance := fun p => ⟨p.approved_by, p.approved_at⟩
              approved := .inl }
    · cases h
      exact ⟨.none, fun w hw => nomatch hw⟩

theorem Call.run_ran (call : Call) {change : Change} {waiting : List Waiting}
    {events : List Event} (h : call.run W env rows id now = (change, waiting, events)) :
    Ran call.auth rows id change events ∧ ∀ w ∈ waiting, w.HasRow W rows := by
  cases call with
  | register auth input =>
    cases h
    exact registerSource_ran input rfl
  | update auth input =>
    cases h
    exact updateSource_ran input rfl
  | remove auth source targetNamespace =>
    cases h
    exact removeSource_ran source targetNamespace rfl

end Statements

/-! ## Every run -/

def changes (log : List Event) (id : Uuid) : Nat :=
  log.countP fun e => decide (e.changed = some id)

structure Kept (W : Wire) (s : State) : Prop where
  ids : (s.rows.map SourceRecord.id).Nodup
  keys : (s.rows.map SourceRecord.key).Nodup
  provenance : ∀ row ∈ s.rows, Provenance row
  revision : ∀ row ∈ s.rows, row.revision = 1 + changes s.log row.id
  known : ∀ e ∈ s.log, ∀ id, e.changed = some id → id ∈ s.rows.map SourceRecord.id
  /-- an update that named a revision left a later one -/
  named : ∀ p ∈ s.log.filterMap Event.named, ∃ row ∈ s.rows, row.id = p.1 ∧ p.2 < row.revision
  once : (s.log.filterMap Event.named).Nodup
  waiting : ∀ w ∈ s.waiting, w.HasRow W s.rows

section Runs
variable {W : Wire} {env : SharedNamespaceEnv} {s s' : State} {l : Label}

theorem step_cases (h : s.step W env l = some s') :
    (∃ call id now change waiting events, l = .start call id now ∧
      id ∉ s.rows.map SourceRecord.id ∧ Ran call.auth s.rows id change events ∧
      (∀ w ∈ waiting, Waiting.HasRow W s.rows w) ∧
      s' = ⟨change.apply s.rows, s.waiting ++ waiting, s.log ++ events⟩) ∨
    ∃ place, l = .finish place ∧ s' = { s with waiting := s.waiting.eraseIdx place } := by
  cases l with
  | start call id now =>
    unfold State.step at h
    simp only at h
    split at h
    · cases h
    · rename_i hid
      cases hrun : call.run W env s.rows id now with
      | mk change rest =>
        obtain ⟨waiting, events⟩ := rest
        rw [hrun] at h
        obtain ⟨hran, hwaits⟩ := Call.run_ran call hrun
        exact .inl ⟨call, id, now, change, waiting, events, rfl, hid, hran, hwaits,
          (Option.some.inj h).symm⟩
  | finish place =>
    unfold State.step at h
    simp only at h
    split at h
    · exact .inr ⟨place, rfl, (Option.some.inj h).symm⟩
    · cases h

theorem mem_updated {rows : List SourceRecord} {old row r : SourceRecord} (hold : old ∈ rows)
    (hid : row.id = old.id) : r ∈ (Change.updated row).apply rows ↔
      r = row ∨ (r ∈ rows ∧ r.id ≠ row.id) := by
  unfold Change.apply
  rw [Table.mem_updateWhere]
  constructor
  · rintro (⟨hr, hp⟩ | ⟨q, -, -, rfl⟩)
    · exact .inr ⟨hr, of_decide_eq_false hp⟩
    · exact .inl rfl
  · rintro (rfl | ⟨hr, hne⟩)
    · exact .inr ⟨old, hold, decide_eq_true hid.symm, rfl⟩
    · exact .inl ⟨hr, decide_eq_false hne⟩

theorem column_updated {κ : Type} (column : SourceRecord → κ) {rows : List SourceRecord}
    {old row : SourceRecord} (hids : (rows.map SourceRecord.id).Nodup) (hold : old ∈ rows)
    (hid : row.id = old.id) (hcolumn : column row = column old) :
    ((Change.updated row).apply rows).map column = rows.map column := by
  unfold Change.apply Table.updateWhere
  rw [map_map]
  apply map_congr_left
  intro r hr
  show column (if decide (r.id = row.id) then row else r) = column r
  split
  · rename_i heq
    have heq := (of_decide_eq_true heq).trans hid
    rw [hcolumn, Table.eq_of_key hids hr hold heq]
  · rfl

theorem Waiting.HasRow.mono {rows rows' : List SourceRecord} {w : Waiting}
    (h : w.HasRow W rows) (hkeys : ∀ row ∈ rows, ∃ row' ∈ rows', row'.key = row.key) :
    w.HasRow W rows' := by
  cases w with
  | duplicate ns input state =>
    obtain ⟨row, hrow, hnames⟩ := h
    obtain ⟨row', hrow', hkey⟩ := hkeys row hrow
    exact ⟨row', hrow', hnames.of_key hkey⟩
  | updateMiss id ns => trivial
  | removeMiss id ns => trivial

theorem changes_append (log : List Event) (e : Event) (id : Uuid) :
    changes (log ++ [e]) id = changes log id + if e.changed = some id then 1 else 0 := by
  unfold changes
  rw [countP_append, countP_singleton]
  simp only [decide_eq_true_eq]

theorem changes_of_unknown (K : Kept W s) {id : Uuid} (hid : id ∉ s.rows.map SourceRecord.id) :
    changes s.log id = 0 := by
  apply countP_eq_zero.mpr
  intro e he heq
  exact hid (K.known e he id (of_decide_eq_true heq))

theorem Kept.insert (K : Kept W s) {auth : AuthInfo} {id : Uuid} {row : SourceRecord}
    (hid : id ∉ s.rows.map SourceRecord.id) (new : Registered auth s.rows id row)
    {waiting : List Waiting} (hwaits : ∀ w ∈ waiting, Waiting.HasRow W s.rows w) :
    Kept W ⟨s.rows ++ [row], s.waiting ++ waiting, s.log ++ [.registered row.id]⟩ where
  ids := by
    rw [map_append, nodup_append]
    refine ⟨K.ids, nodup_singleton _, ?_⟩
    intro a ha b hb hab
    rw [mem_singleton.mp hb, new.id] at hab
    exact hid (hab ▸ ha)
  keys := by
    rw [map_append, nodup_append]
    refine ⟨K.keys, nodup_singleton _, ?_⟩
    intro a ha b hb hab
    rw [mem_singleton.mp hb] at hab
    exact new.key (hab ▸ ha)
  provenance := by
    intro r hr
    rcases mem_append.mp hr with hr | hr
    · exact K.provenance r hr
    · rw [mem_singleton.mp hr]
      exact new.provenance
  revision := by
    intro r hr
    rw [changes_append, if_neg nofun, Nat.add_zero]
    rcases mem_append.mp hr with hr | hr
    · exact K.revision r hr
    · rw [mem_singleton.mp hr, new.revision, new.id, changes_of_unknown K hid]
      rfl
  known := by
    intro e he i hi
    rw [map_append]
    rcases mem_append.mp he with he | he
    · exact mem_append_left _ (K.known e he i hi)
    · rw [mem_singleton.mp he] at hi
      cases hi
  named := by
    intro p hp
    rw [filterMap_append] at hp
    rcases mem_append.mp hp with hp | hp
    · obtain ⟨r, hr, h⟩ := K.named p hp
      exact ⟨r, mem_append_left _ hr, h⟩
    · cases hp
  once := by
    have hnone : List.filterMap Event.named [Event.registered row.id] = [] := rfl
    rw [filterMap_append, hnone, append_nil]
    exact K.once
  waiting := by
    intro w hw
    have hhas : w.HasRow W s.rows := (mem_append.mp hw).elim (K.waiting w) (hwaits w)
    exact hhas.mono fun r hr => ⟨r, mem_append_left _ hr, rfl⟩

/-- A row is changed, and `e` tells. -/
theorem Kept.update (K : Kept W s) {auth : AuthInfo} {old row : SourceRecord} (hold : old ∈ s.rows)
    (moves : Moves auth old row) {e : Event} (he : e.changed = some row.id)
    (hnamed : ∀ p, e.named = some p → p = (row.id, old.revision)) {waiting : List Waiting}
    (hwaits : ∀ w ∈ waiting, Waiting.HasRow W s.rows w) :
    Kept W ⟨(Change.updated row).apply s.rows, s.waiting ++ waiting, s.log ++ [e]⟩ where
  ids := by
    rw [column_updated SourceRecord.id K.ids hold moves.id moves.id]
    exact K.ids
  keys := by
    rw [column_updated SourceRecord.key K.ids hold moves.id moves.key]
    exact K.keys
  provenance := by
    intro r hr
    rcases (mem_updated hold moves.id).mp hr with rfl | ⟨hr, -⟩
    · exact moves.provenance (K.provenance old hold)
    · exact K.provenance r hr
  revision := by
    intro r hr
    rw [changes_append, he]
    rcases (mem_updated hold moves.id).mp hr with rfl | ⟨hr, hne⟩
    · rw [if_pos rfl, moves.revision, K.revision old hold, moves.id]
      omega
    · rw [if_neg fun h => hne (Option.some.inj h).symm, Nat.add_zero]
      exact K.revision r hr
  known := by
    intro e' he' i hi
    rw [column_updated SourceRecord.id K.ids hold moves.id moves.id]
    rcases mem_append.mp he' with he' | he'
    · exact K.known e' he' i hi
    · rw [mem_singleton.mp he', he] at hi
      rw [← Option.some.inj hi, moves.id]
      exact mem_map_of_mem hold
  named := by
    intro p hp
    rw [filterMap_append] at hp
    rcases mem_append.mp hp with hp | hp
    · obtain ⟨r, hr, hid, hlt⟩ := K.named p hp
      by_cases h : r.id = row.id
      · have hr : r = old := Table.eq_of_key K.ids hr hold (h.trans moves.id)
        refine ⟨row, (mem_updated hold moves.id).mpr (.inl rfl), h.symm.trans hid, ?_⟩
        rw [moves.revision, ← hr]
        exact hlt.trans (Int.lt_succ _)
      · exact ⟨r, (mem_updated hold moves.id).mpr (.inr ⟨hr, h⟩), hid, hlt⟩
    · obtain ⟨e', he', hp⟩ := mem_filterMap.mp hp
      rw [mem_singleton.mp he'] at hp
      rw [hnamed p hp]
      refine ⟨row, (mem_updated hold moves.id).mpr (.inl rfl), rfl, ?_⟩
      rw [moves.revision]
      exact Int.lt_succ _
  once := by
    rw [filterMap_append, nodup_append]
    refine ⟨K.once, ?_, ?_⟩
    · cases h : e.named <;> simp [h]
    · -- what was named of this row before is below its revision
      intro p hp q hq hpq
      obtain ⟨e', he', hq⟩ := mem_filterMap.mp hq
      rw [mem_singleton.mp he'] at hq
      rw [hpq, hnamed q hq] at hp
      obtain ⟨r, hr, hid, hlt⟩ := K.named _ hp
      rw [Table.eq_of_key K.ids hr hold (hid.trans moves.id)] at hlt
      exact lt_irrefl _ hlt
  waiting := by
    intro w hw
    have hhas : w.HasRow W s.rows := (mem_append.mp hw).elim (K.waiting w) (hwaits w)
    refine hhas.mono fun r hr => ?_
    by_cases h : r.id = row.id
    · have hr : r = old := Table.eq_of_key K.ids hr hold (h.trans moves.id)
      exact ⟨row, (mem_updated hold moves.id).mpr (.inl rfl), hr ▸ moves.key⟩
    · exact ⟨r, (mem_updated hold moves.id).mpr (.inr ⟨hr, h⟩), rfl⟩

theorem kept_step (K : Kept W s) (h : s.step W env l = some s') : Kept W s' := by
  rcases step_cases h with
    ⟨call, id, now, change, waiting, events, -, hid, hran, hwaits, rfl⟩ | ⟨place, -, rfl⟩
  · cases hran with
    | none =>
      rw [append_nil]
      exact { K with
        waiting := fun w hw => (mem_append.mp hw).elim (K.waiting w) (hwaits w) }
    | inserted new => exact K.insert hid new hwaits
    | @updated old row hold moves =>
      refine K.update hold moves rfl (fun p hp => ?_) hwaits
      exact (Option.some.inj hp).symm
    | removed hold moves =>
      refine K.update hold moves rfl (fun p hp => ?_) hwaits
      cases hp
  · exact { K with waiting := fun w hw => K.waiting w (mem_of_mem_eraseIdx hw) }

theorem kept (W : Wire) (env : SharedNamespaceEnv) : (system W env).Inductive (Kept W) where
  init s h := by
    obtain ⟨rows, waiting, log⟩ := s
    obtain ⟨rfl, rfl, rfl⟩ := h
    exact
      { ids := nodup_nil
        keys := nodup_nil
        provenance := fun r hr => absurd hr not_mem_nil
        revision := fun r hr => absurd hr not_mem_nil
        known := fun e he => absurd he not_mem_nil
        named := fun p hp => absurd hp not_mem_nil
        once := nodup_nil
        waiting := fun w hw => absurd hw not_mem_nil }
  step s l s' K _ h := kept_step K h

/-! ## The lifecycle -/

/-- What a step does to the rows. -/
structure Advance (s : State) (l : Label) (s' : State) : Prop where
  /-- a row is left as it is, or a call changes it and its revision is one more -/
  kept : ∀ row ∈ s.rows,
    (row ∈ s'.rows ∧ changes s'.log row.id = changes s.log row.id) ∨
    ∃ row' ∈ s'.rows, changes s'.log row.id = changes s.log row.id + 1 ∧
      ∃ call id now, l = .start call id now ∧ Moves call.auth row row'
  /-- a row that was not there is registered -/
  new : ∀ row' ∈ s'.rows, (∃ row ∈ s.rows, row.id = row'.id) ∨
    ∃ call id now, l = .start call id now ∧ Registered call.auth s.rows id row'

theorem advance_update (K : Kept W s) {call : Call} {id : Uuid} {now : Int}
    {old row : SourceRecord} (hold : old ∈ s.rows) (moves : Moves call.auth old row) {e : Event}
    (he : e.changed = some row.id) {waiting : List Waiting} :
    Advance s (.start call id now)
      ⟨(Change.updated row).apply s.rows, s.waiting ++ waiting, s.log ++ [e]⟩ where
  kept := by
    intro r hr
    rw [changes_append, he]
    by_cases h : r.id = row.id
    · have hr : r = old := Table.eq_of_key K.ids hr hold (h.trans moves.id)
      refine .inr ⟨row, (mem_updated hold moves.id).mpr (.inl rfl), ?_, call, id, now, rfl,
        hr ▸ moves⟩
      rw [if_pos (congrArg some h.symm)]
    · refine .inl ⟨(mem_updated hold moves.id).mpr (.inr ⟨hr, h⟩), ?_⟩
      rw [if_neg fun heq => h (Option.some.inj heq).symm, Nat.add_zero]
  new := by
    intro r hr
    rcases (mem_updated hold moves.id).mp hr with rfl | ⟨hr, -⟩
    · exact .inl ⟨old, hold, moves.id.symm⟩
    · exact .inl ⟨r, hr, rfl⟩

theorem advance_step (K : Kept W s) (h : s.step W env l = some s') : Advance s l s' := by
  rcases step_cases h with
    ⟨call, id, now, change, waiting, events, rfl, hid, hran, hwaits, rfl⟩ | ⟨place, -, rfl⟩
  · cases hran with
    | none =>
      rw [append_nil]
      exact ⟨fun row hrow => .inl ⟨hrow, rfl⟩, fun row hrow => .inl ⟨row, hrow, rfl⟩⟩
    | @inserted row hnew =>
      constructor
      · intro r hr
        refine .inl ⟨mem_append_left _ hr, ?_⟩
        rw [changes_append, if_neg nofun, Nat.add_zero]
      · intro r hr
        rcases mem_append.mp hr with hr | hr
        · exact .inl ⟨r, hr, rfl⟩
        · rw [mem_singleton.mp hr]
          exact .inr ⟨call, id, now, rfl, hnew⟩
    | updated hold hmoves => exact advance_update K hold hmoves rfl
    | removed hold hmoves => exact advance_update K hold hmoves rfl
  · exact ⟨fun row hrow => .inl ⟨hrow, rfl⟩, fun row hrow => .inl ⟨row, hrow, rfl⟩⟩

theorem retired_stays (K : Kept W s) {row : SourceRecord} (hrow : row ∈ s.rows)
    (hretired : row.lifecycle_state = .retired) {ls : List Label}
    (hrun : (system W env).RunOn LTS.anyStep s ls s') : row ∈ s'.rows := by
  have hboth : Kept W s' ∧ row ∈ s'.rows := by
    refine hrun.keeps (I := fun s => Kept W s ∧ row ∈ s.rows) ?_ ⟨K, hrow⟩
    intro s l s' ⟨K, hrow⟩ _ hstep
    refine ⟨kept_step K hstep, ?_⟩
    rcases (advance_step K hstep).kept row hrow with ⟨hkept, -⟩ | ⟨row', -, -, _, _, _, -, hmoves⟩
    · exact hkept
    · exact absurd hretired hmoves.live
  exact hboth.2

theorem Names.key_eq {ns external_id : Str} {kind : SourceKind} {row row' : SourceRecord}
    (h : Names W ns kind external_id row) (h' : Names W ns kind external_id row') :
    row'.key = row.key := by
  have hns := Option.some.inj (h'.ns.symm.trans h.ns)
  have hext := Option.some.inj (h'.external_id.symm.trans h.external_id)
  unfold SourceRecord.key
  rw [hns, hext, h.kind, h'.kind]

theorem find_names {ns external_id : Str} {kind : SourceKind} {rows : List SourceRecord}
    {row : SourceRecord} (hkeys : (rows.map SourceRecord.key).Nodup) (hrow : row ∈ rows)
    (h : Names W ns kind external_id row) :
    (rows.find? fun r => decide (r.key = ⟨row.ns, kind, row.external_id⟩)) = some row := by
  cases hfind : rows.find? fun r => decide (r.key = ⟨row.ns, kind, row.external_id⟩) with
  | none =>
    have hmiss := find?_eq_none.mp hfind row hrow
    rw [decide_eq_true_eq, ← h.kind] at hmiss
    exact absurd rfl hmiss
  | some r =>
    have hmatch := find?_some hfind
    rw [decide_eq_true_eq, ← h.kind] at hmatch
    rw [Table.eq_of_key hkeys (mem_of_find?_eq_some hfind) hrow hmatch]

theorem duplicate_answer (K : Kept W s) {ns : Str} {input : RegisterSourceInput}
    {state : ApprovalState} (h : .duplicate ns input state ∈ s.waiting) :
    ∃ row ∈ s.rows, Names W ns input.source_kind input.external_id row ∧
      (Identical (mapRow row) input state →
        resolveDuplicateRegistration W s.rows ns input state = .ok (mapRow row)) ∧
      ∀ data, resolveDuplicateRegistration W s.rows ns input state = .ok data →
        data = mapRow row := by
  obtain ⟨row, hrow, hnames⟩ := K.waiting _ h
  have hanswer : resolveDuplicateRegistration W s.rows ns input state =
      if isSemanticallyIdenticalRegistration (mapRow row) input state then .ok (mapRow row)
      else .refused .conflict (some (units
        "source already registered for this namespace and kind with different attributes")) := by
    unfold resolveDuplicateRegistration
    rw [hnames.ns, hnames.external_id]
    simp only [find_names K.keys hrow hnames]
  refine ⟨row, hrow, hnames, ?_, ?_⟩
  · intro hidentical
    rw [hanswer, if_pos (isSemanticallyIdentical hidentical)]
  · intro data hdata
    rw [hanswer] at hdata
    split at hdata
    · cases hdata
      rfl
    · cases hdata

theorem eligible_iff (K : Kept W s) {auth : AuthInfo} {kind : SourceKind} {external_id : Str}
    {target : Option Str} {data : SourceRecord} :
    resolveIngestionEligibility W env auth kind external_id target s.rows = .ok data ↔
      (target.isSome → canReadNamespace env auth (effectiveWriteNamespace env auth target) = true) ∧
      ∃ row ∈ s.rows, Names W (effectiveWriteNamespace env auth target) kind external_id row ∧
        row.approval_state = .approved ∧ row.lifecycle_state = .active ∧ data = mapRow row := by
  unfold resolveIngestionEligibility
  simp only
  by_cases hread : target.isSome ∧
      canReadNamespace env auth (effectiveWriteNamespace env auth target) = false
  · rw [if_pos hread]
    constructor
    · intro h
      cases h
    · rintro ⟨h, -⟩
      rw [h hread.1] at hread
      cases hread.2
  · rw [if_neg hread]
    have hmay : target.isSome →
        canReadNamespace env auth (effectiveWriteNamespace env auth target) = true := by
      intro hs
      exact Bool.eq_true_of_not_eq_false fun hf => hread ⟨hs, hf⟩
    constructor
    · intro h
      refine ⟨hmay, ?_⟩
      split at h
      · rename_i ns ext hns hext
        split at h
        · cases h
        · rename_i row hfind
          have hkey := find?_some hfind
          rw [decide_eq_true_eq] at hkey
          injection hkey with hkns hkkind hkext
          split at h
          · cases h
          · rename_i happroved
            split at h
            · cases h
            · rename_i hactive
              cases h
              exact ⟨row, mem_of_find?_eq_some hfind,
                ⟨hkns ▸ hns, hkkind, hkext ▸ hext⟩, not_not.mp happroved, not_not.mp hactive, rfl⟩
      · cases h
    · rintro ⟨-, row, hrow, hnames, happroved, hactive, rfl⟩
      rw [hnames.ns, hnames.external_id]
      simp only [find_names K.keys hrow hnames]
      have happroved : ¬ (mapRow row).approval_state ≠ .approved := not_not.mpr happroved
      have hactive : ¬ (mapRow row).lifecycle_state ≠ .active := not_not.mpr hactive
      rw [if_neg happroved, if_neg hactive]

structure Lifecycle (W : Wire) (env : SharedNamespaceEnv) (s : State) : Prop where
  revision : ∀ row ∈ s.rows, row.revision = 1 + changes s.log row.id
  once : (s.log.filterMap Event.named).Nodup
  provenance : ∀ row ∈ s.rows, Provenance row
  advance : ∀ l s', s.step W env l = some s' → Advance s l s'
  retired : ∀ row ∈ s.rows, row.lifecycle_state = .retired → ∀ ls s',
    (system W env).RunOn LTS.anyStep s ls s' → row ∈ s'.rows
  /-- registering a source that is there changes nothing, and waits for its row -/
  existing : ∀ auth input, ∀ old ∈ s.rows,
    Names W (effectiveWriteNamespace env auth input.target_namespace) input.source_kind
      input.external_id old → ∀ id now first change,
    registerSource W env auth input s.rows id now = (first, change) →
    change = .none ∧ (∀ data, first ≠ .done (.ok data)) ∧ ∀ waiting, first = .next waiting →
      waiting = .duplicate (effectiveWriteNamespace env auth input.target_namespace) input
        (requestedState auth input)
  answer : ∀ ns input state, .duplicate ns input state ∈ s.waiting →
    ∃ row ∈ s.rows, Names W ns input.source_kind input.external_id row ∧
      (Identical (mapRow row) input state →
        resolveDuplicateRegistration W s.rows ns input state = .ok (mapRow row)) ∧
      ∀ data, resolveDuplicateRegistration W s.rows ns input state = .ok data → data = mapRow row
  eligible : ∀ auth kind external_id target data,
    resolveIngestionEligibility W env auth kind external_id target s.rows = .ok data ↔
      (target.isSome → canReadNamespace env auth (effectiveWriteNamespace env auth target) = true) ∧
      ∃ row ∈ s.rows, Names W (effectiveWriteNamespace env auth target) kind external_id row ∧
        row.approval_state = .approved ∧ row.lifecycle_state = .active ∧ data = mapRow row

theorem existing_waits {auth : AuthInfo} {input : RegisterSourceInput} {old : SourceRecord}
    (hold : old ∈ s.rows)
    (hnames : Names W (effectiveWriteNamespace env auth input.target_namespace) input.source_kind
      input.external_id old) {id : Uuid} {now : Int} {first : First SourceRecord} {change : Change}
    (h : registerSource W env auth input s.rows id now = (first, change)) :
    change = .none ∧ (∀ data, first ≠ .done (.ok data)) ∧ ∀ waiting, first = .next waiting →
      waiting = .duplicate (effectiveWriteNamespace env auth input.target_namespace) input
        (requestedState auth input) := by
  cases registers input h with
  | refused => exact ⟨rfl, fun _ h => (nomatch h), fun _ h => (nomatch h)⟩
  | threw => exact ⟨rfl, fun _ h => (nomatch h), fun _ h => (nomatch h)⟩
  | existing _ _ =>
    refine ⟨rfl, fun _ h => (nomatch h), ?_⟩
    intro waiting hw
    injection hw with hw
    exact hw.symm
  | new hnew hnew' =>
    exact absurd (mem_map.mpr ⟨old, hold, hnew'.key_eq hnames⟩) hnew.key

theorem registry_lifecycle (W : Wire) (env : SharedNamespaceEnv) (s : State)
    (hr : (system W env).Reachable s) : Lifecycle W env s := by
  have K := (kept W env).reachable hr
  exact {
    revision := K.revision
    once := K.once
    provenance := K.provenance
    advance := fun _ _ h => advance_step K h
    retired := fun row hrow hretired _ _ hrun => retired_stays K hrow hretired hrun
    existing := fun _ _ _ hold hnames _ _ _ _ h => existing_waits hold hnames h
    answer := fun _ _ _ h => duplicate_answer K h
    eligible := fun _ _ _ _ _ => eligible_iff K }

end Runs

/-- Texts and values as they are sent; `docs` is the one id. -/
def plainWire : Wire :=
  ⟨some, some, fun _ => none, fun id => if id = units "docs" then some 7 else none⟩

def docsInput : RegisterSourceInput :=
  ⟨.git, units "docs.git", none, some (units "Docs"), none, none, none, some true⟩

/-- An administrator registers a source, pauses it and retires it, then registers it again. -/
def docsRun : Option State :=
  let dana : AuthInfo := ⟨.admin, units "dana", none, some .token⟩
  LTS.exec (State.step plainWire unset) ⟨[], [], []⟩ [
    .start (.register dana docsInput) 7 0,
    .start (.update dana ⟨units "docs", none, 1, none, none, none, none, some .paused, none, none,
      none, none⟩) 8 1,
    .start (.remove dana (units "docs") none) 8 2,
    .start (.register dana docsInput) 8 3]

theorem registry_lifecycle_docs :
    ∃ s, docsRun = some s ∧ Lifecycle plainWire unset s ∧ s.rows.map SourceRecord.revision = [3] ∧
      s.waiting.length = 1 := by
  have hsome : docsRun.isSome = true := by decide +kernel
  obtain ⟨s, hs⟩ := Option.isSome_iff_exists.mp hsome
  have hrun : (system plainWire unset).RunOn LTS.anyStep _ _ s := LTS.runOn_of_exec_any hs
  refine ⟨s, hs, registry_lifecycle plainWire unset s ⟨_, _, ⟨rfl, rfl, rfl⟩, hrun⟩, ?_, ?_⟩
  · have hrows : docsRun.map (fun s => s.rows.map SourceRecord.revision) = some [3] := by
      decide +kernel
    rw [hs] at hrows
    exact Option.some.inj hrows
  · have hwaiting : docsRun.map (fun s => s.waiting.length) = some 1 := by decide +kernel
    rw [hs] at hwaiting
    exact Option.some.inj hwaiting

end OpenBrain.Server.SourceRegistry
