import Mathlib.Logic.Function.Basic
import OpenBrain.Core.LTS
import OpenBrain.Server.Session.LaneScope

/-!
# Session calls that interleave on one lane

`session_start`, `append_session_event` and `session_wrap` each run several
statements with nothing held in between. A call is one of any number, and a
step is one statement of one call:

* `startSelect`, then `startFill` on a lane that is there (the exact-scope fill,
  when the request is complete) or `startInsert`;
* `eventSelect`, then `eventInsert` under `create_if_missing`;
* `wrapSelect`, which compares the lane it reads with the request, `wrapFill`,
  and `wrapUpdate`, which writes the checkpoint into the lane. A fill that
  matches no row is followed by a comparison with the lane as `wrapSelect` read
  it, not as it is.

Statements that touch no lane (events, sessions, counts) are left out; any
statement may fail (`fail`). `landed` records, for each checkpoint written by a
wrap that named all four coordinates, the request and the lane it was written
into. A lane is keyed by namespace and session key.

## Results

`set_coordinates_stay`: no statement changes a coordinate that is set. Under
`FillsInTime` (no wrap's fill misses its lane, and no start gives a thread to a
lane between the fill and the checkpoint of a wrap without one) every
checkpoint lands in a lane with exactly the requested coordinates:
`checkpoint_lands_in_scope`. `checkpoint_in_other_channel` is a run of one wrap
and one start after which a checkpoint is in a lane of another channel.
-/
namespace OpenBrain.Server.Session

open OpenBrain.Core

/-- Namespace and session key. -/
abbrev LaneKey := Str × Str

structure Lane (ν : Type) where
  id : Nat
  row : LaneRow ν

/-- The next statement of a call. -/
inductive Call (ν : Type) where
  | idle
  | startSelect (key : LaneKey) (args : WrapScope)
  | startFill (key : LaneKey) (scope : ExactScope)
  | startInsert (key : LaneKey) (args : WrapScope)
  | eventSelect (key : LaneKey) (args : WrapScope) (create_if_missing : Bool)
  | eventInsert (key : LaneKey) (args : WrapScope)
  | wrapSelect (key : LaneKey) (args : WrapScope)
  | wrapFill (key : LaneKey) (id : Nat) (read : LaneRow ν) (scope : ExactScope)
  | wrapUpdate (key : LaneKey) (id : Nat) (scope : Option ExactScope)

/-- A checkpoint, and the lane row it was written into. -/
structure Landing (ν : Type) where
  scope : ExactScope
  row : LaneRow ν

structure St (ν : Type) where
  lanes : LaneKey → Option (Lane ν)
  call : Nat → Call ν
  next : Nat
  landed : List (Landing ν)

inductive Lbl where
  | start (c : Nat) (key : LaneKey) (args : WrapScope)
  | event (c : Nat) (key : LaneKey) (args : WrapScope) (create_if_missing : Bool)
  | wrap (c : Nat) (key : LaneKey) (args : WrapScope)
  | act (c : Nat)
  | fail (c : Nat)

section Model

variable {ν : Type} (W : Wire ν)

def St.goto (s : St ν) (c : Nat) (x : Call ν) : St ν :=
  { s with call := Function.update s.call c x }

def St.setLane (s : St ν) (key : LaneKey) (lane : Lane ν) : St ν :=
  { s with lanes := Function.update s.lanes key (some lane) }

/-- An optional text parameter (`args.x ?? null`). -/
def optionalText : Option Str → Option (Option Str)
  | none => some none
  | some s => (W.text s).map some

/-- The row an `INSERT` of a start or an event makes; an empty `server_id` is
not stored.
mirrors server/tools/session-lifecycle.ts:173-187 and session-events.ts:75-89 -/
def insertedRow (args : WrapScope) : Option (LaneRow ν) := do
  let agent ← optionalText W args.agent
  let source ← optionalText W args.platform
  let channel_id ← optionalText W args.channel_id
  let thread_id ← optionalText W args.thread_id
  let server_id := args.server_id.getD []
  let metadata ←
    if server_id.isEmpty then some (.obj [])
    else (W.jsonString server_id).map fun v => .obj [(units "server_id", .str v)]
  some ⟨agent, source, channel_id, thread_id, metadata⟩

/-- The lane that `WHERE id = $1 AND namespace = $2 AND session_key = $3` names. -/
def St.laneAt (s : St ν) (key : LaneKey) (id : Nat) : Option (Lane ν) :=
  (s.lanes key).filter fun lane => decide (lane.id = id)

/-- `INSERT`: with a lane in place it is a unique violation or `DO NOTHING`. -/
def insertLane (s : St ν) (key : LaneKey) (args : WrapScope) : St ν :=
  match s.lanes key, insertedRow W args with
  | none, some row => ({ s with next := s.next + 1 } : St ν).setLane key ⟨s.next, row⟩
  | _, _ => s

/-- `establishWrapScope` on the lane as it is.
mirrors server/db/session-repository.ts:394-437 -/
def wrapFillOutcome (s : St ν) (key : LaneKey) (id : Nat) (scope : ExactScope) : Updated ν :=
  match s.laneAt key id with
  | none => .unmatched
  | some lane => establishWrapScope W lane.row scope

/-- One statement of call `c`.
mirrors server/tools/session-lifecycle.ts:190-231,410-473,
server/tools/session-events.ts:59-91 and
server/tools/session-wrap-scope.ts:217-245 -/
def act (s : St ν) (c : Nat) : Option (St ν) :=
  match s.call c with
  | .idle => none
  | .startSelect key args =>
    match s.lanes key, exactScope args with
    | none, _ => some (s.goto c (.startInsert key args))
    | some _, none => some (s.goto c .idle)
    | some _, some scope => some (s.goto c (.startFill key scope))
  | .startFill key scope =>
    match s.lanes key with
    | none => some (s.goto c .idle)
    | some lane =>
      match establishStartScope W lane.row scope with
      | .matched row => some ((s.setLane key { lane with row := row }).goto c .idle)
      | _ => some (s.goto c .idle)
  | .startInsert key args => some ((insertLane W s key args).goto c .idle)
  | .eventSelect key args create_if_missing =>
    if (s.lanes key).isNone && create_if_missing then some (s.goto c (.eventInsert key args))
    else some (s.goto c .idle)
  | .eventInsert key args => some ((insertLane W s key args).goto c .idle)
  | .wrapSelect key args =>
    match s.lanes key with
    | none => some (s.goto c .idle)
    | some lane =>
      if scopeConflicts lane.row args = [] then
        match exactScope args with
        | none => some (s.goto c (.wrapUpdate key lane.id none))
        | some scope => some (s.goto c (.wrapFill key lane.id lane.row scope))
      else some (s.goto c .idle)
  | .wrapFill key id read scope =>
    match s.laneAt key id, wrapFillOutcome W s key id scope with
    | some lane, .matched row =>
      some ((s.setLane key { lane with row := row }).goto c (.wrapUpdate key id (some scope)))
    | _, .unmatched =>
      -- compared with the row as `wrapSelect` read it
      if scopeConflicts read scope.args = [] then
        some (s.goto c (.wrapUpdate key id (some scope)))
      else some (s.goto c .idle)
    | _, _ => some (s.goto c .idle)
  | .wrapUpdate key id scope =>
    match s.laneAt key id, scope with
    | some lane, some scope =>
      some (({ s with landed := s.landed ++ [⟨scope, lane.row⟩] } : St ν).goto c .idle)
    | _, _ => some (s.goto c .idle)

def beginCall (s : St ν) (c : Nat) (x : Call ν) : Option (St ν) :=
  match s.call c with
  | .idle => some (s.goto c x)
  | _ => none

def step (s : St ν) : Lbl → Option (St ν)
  | .start c key args => beginCall s c (.startSelect key args)
  | .event c key args create_if_missing => beginCall s c (.eventSelect key args create_if_missing)
  | .wrap c key args => beginCall s c (.wrapSelect key args)
  | .act c => act W s c
  | .fail c => some (s.goto c .idle)

/-- No call is running; the table is any table. -/
def Init (s : St ν) : Prop := (∀ c, s.call c = .idle) ∧ s.landed = []

def laneSys : LTS (St ν) Lbl := LTS.ofFn Init (step W)

/-! ## What a lane carries -/

/-- The row carries exactly the requested coordinates. -/
def Carries (row : LaneRow ν) (scope : ExactScope) : Prop :=
  ∃ p, scopeParams W scope = some p ∧ row.agent = some p.agent ∧ row.source = some p.platform ∧
    serverIdText W row.metadata = some p.server_id ∧ row.channel_id = some p.channel_id ∧
    row.thread_id = p.thread_id

/-- Every coordinate set in `row` is the same in `row'`. -/
structure Extends (row row' : LaneRow ν) : Prop where
  agent : ∀ v, row.agent = some v → row'.agent = some v
  source : ∀ v, row.source = some v → row'.source = some v
  server_id : ∀ v, serverIdText W row.metadata = some v → serverIdText W row'.metadata = some v
  channel_id : ∀ v, row.channel_id = some v → row'.channel_id = some v
  thread_id : ∀ v, row.thread_id = some v → row'.thread_id = some v

/-- The condition on a step. A wrap's fill does not miss its lane. A start's
fill does not thread a lane while a wrap without a thread, past its fill, has
yet to write into it. -/
def FillsInTime (s : St ν) : Lbl → Prop
  | .act c =>
    match s.call c with
    | .wrapFill key id _ scope => wrapFillOutcome W s key id scope ≠ .unmatched
    | .startFill key scope => scope.thread_id ≠ none → ∀ lane, s.lanes key = some lane →
        lane.row.thread_id = none → ∀ c' id scope', s.call c' = .wrapUpdate key id (some scope') →
          scope'.thread_id ≠ none
    | _ => True
  | _ => True

/-! ## One fill -/

variable {W} {row r : LaneRow ν} {scope p : ExactScope}

theorem Extends.refl (row : LaneRow ν) : Extends W row row :=
  ⟨fun _ h => h, fun _ h => h, fun _ h => h, fun _ h => h, fun _ h => h⟩

theorem Extends.trans {row₁ row₂ row₃ : LaneRow ν} (h : Extends W row₁ row₂)
    (h' : Extends W row₂ row₃) : Extends W row₁ row₃ where
  agent v hv := h'.agent v (h.agent v hv)
  source v hv := h'.source v (h.source v hv)
  server_id v hv := h'.server_id v (h.server_id v hv)
  channel_id v hv := h'.channel_id v (h.channel_id v hv)
  thread_id v hv := h'.thread_id v (h.thread_id v hv)

theorem fillScope_columns (h : fillScope W row p = .matched r) :
    r.agent = row.agent.or p.agent ∧ r.source = row.source.or p.platform ∧
      r.channel_id = row.channel_id.or p.channel_id ∧ r.thread_id = row.thread_id.or p.thread_id ∧
      serverIdText W r.metadata = (serverIdText W row.metadata).or (some p.server_id) := by
  unfold fillScope at h
  dsimp only at h
  split at h
  · cases h
  · rename_i metadata hm
    cases h
    refine ⟨rfl, rfl, rfl, rfl, ?_⟩
    split at hm
    · rename_i hset
      cases hm
      rw [Option.or_of_isSome hset]
    · rename_i hunset
      rw [Option.not_isSome_iff_eq_none.mp hunset, Option.none_or]
      unfold jsonbSetServerId at hm
      split at hm
      · cases hm
        simp [serverIdText]
      · cases hm

theorem fillScope_extends (h : fillScope W row p = .matched r) : Extends W row r := by
  obtain ⟨hagent, hsource, hchannel, hthread, hserver⟩ := fillScope_columns h
  constructor <;> intro v hv
  · simp [hagent, hv]
  · simp [hsource, hv]
  · simp [hserver, hv]
  · simp [hchannel, hv]
  · simp [hthread, hv]

theorem updateScope_extends {where' : LaneRow ν → ExactScope → Bool}
    (h : updateScope W row scope where' = .matched r) : Extends W row r := by
  obtain ⟨p, -, -, -, hfill⟩ := updateScope_matched.mp h
  exact fillScope_extends hfill

theorem or_of_open {column : Option Str} {v : Str} (h : column = none ∨ column = some v) :
    column.or (some v) = some v := by
  rcases h with h | h <;> simp [h]

theorem establishWrapScope_carries (h : establishWrapScope W row scope = .matched r) :
    Carries W r scope := by
  obtain ⟨p, hp, hopen, hthread, hfill⟩ := updateScope_matched.mp h
  obtain ⟨hagent, hsource, hserver, hchannel⟩ := coordinatesOpen_iff.mp hopen
  obtain ⟨eagent, esource, echannel, ethread, eserver⟩ := fillScope_columns hfill
  refine ⟨p, hp, eagent.trans (or_of_open hagent), esource.trans (or_of_open hsource),
    eserver.trans (or_of_open hserver), echannel.trans (or_of_open hchannel), ?_⟩
  rw [ethread]
  rcases wrapThreadMatches_iff.mp hthread with h | ⟨-, h, -⟩
  · cases ht : p.thread_id <;> simp [h, ht]
  · simp [h]

theorem Carries.extends (hc : Carries W row scope) (he : Extends W row r)
    (hthread : row.thread_id = none → r.thread_id = none) : Carries W r scope := by
  obtain ⟨p, hp, hagent, hsource, hserver, hchannel, ht⟩ := hc
  refine ⟨p, hp, he.agent _ hagent, he.source _ hsource, he.server_id _ hserver,
    he.channel_id _ hchannel, ?_⟩
  cases hpt : p.thread_id with
  | none => exact hthread (ht.trans hpt)
  | some t => exact he.thread_id t (ht.trans hpt)

theorem Carries.complete (hc : Carries W row scope) : rowIsComplete W row = true := by
  obtain ⟨p, -, hagent, hsource, hserver, hchannel, -⟩ := hc
  simp [rowIsComplete, hagent, hsource, hserver, hchannel]

theorem Carries.thread_none (hc : Carries W row scope) :
    row.thread_id = none ↔ scope.thread_id = none := by
  obtain ⟨p, hp, -, -, -, -, ht⟩ := hc
  rw [ht]
  exact scopeParams_thread hp

theorem establishWrapScope_thread {scope' : ExactScope} (hc : Carries W row scope')
    (h : establishWrapScope W row scope = .matched r) (hnone : row.thread_id = none) :
    r.thread_id = none := by
  obtain ⟨p, hp, -, hthread, hfill⟩ := updateScope_matched.mp h
  obtain ⟨-, -, -, ethread, -⟩ := fillScope_columns hfill
  rw [ethread, hnone, Option.none_or]
  rcases wrapThreadMatches_iff.mp hthread with h | ⟨-, -, h⟩
  · rw [← h, hnone]
  · rw [hc.complete] at h
    cases h

/-! ## One statement -/

/-- `c` is a wrap that has filled a lane under `key` for `scope` and not yet
written into it. -/
def Pending (s : St ν) (c : Nat) (key : LaneKey) (scope : ExactScope) : Prop :=
  ∃ id, s.call c = .wrapUpdate key id (some scope)

/-- About to write a checkpoint for a complete request. -/
def Call.pends : Call ν → Bool
  | .wrapUpdate _ _ (some _) => true
  | _ => false

/-- What a step of call `c` does. -/
structure Moves (W : Wire ν) (s : St ν) (l : Lbl) (c : Nat) (s' : St ν) : Prop where
  others : ∀ c', c' ≠ c → s'.call c' = s.call c'
  /-- lanes stay, and what is set in them -/
  lanes : ∀ key lane, s.lanes key = some lane →
    ∃ lane', s'.lanes key = some lane' ∧ Extends W lane.row lane'.row ∧
      (FillsInTime W s l → ∀ c' scope, Pending s c' key scope → Carries W lane.row scope →
        lane.row.thread_id = none → lane'.row.thread_id = none)
  pending : FillsInTime W s l → ∀ key scope, Pending s' c key scope →
    ∃ lane, s'.lanes key = some lane ∧ Carries W lane.row scope
  landed : ∀ e ∈ s'.landed, e ∈ s.landed ∨
    ∃ key lane, Pending s c key e.scope ∧ s.lanes key = some lane ∧ e.row = lane.row

variable {s s' : St ν} {l : Lbl} {c : Nat}

theorem goto_others (s : St ν) (c : Nat) (x : Call ν) (c' : Nat) (hc : c' ≠ c) :
    (s.goto c x).call c' = s.call c' := Function.update_of_ne hc _ _

theorem goto_self (s : St ν) (c : Nat) (x : Call ν) : (s.goto c x).call c = x :=
  Function.update_self ..

theorem not_pending_goto {x : Call ν} (hx : x.pends = false) (key : LaneKey)
    (scope : ExactScope) : ¬ Pending (s.goto c x) c key scope := by
  rintro ⟨id, h⟩
  rw [goto_self] at h
  rw [h] at hx
  cases hx

theorem Moves.quiet {x : Call ν} (hx : FillsInTime W s l → x.pends = false) :
    Moves W s l c (s.goto c x) where
  others := goto_others s c x
  lanes _ lane h := ⟨lane, h, .refl lane.row, fun _ _ _ _ _ hnone => hnone⟩
  pending hg key scope h := absurd h (not_pending_goto (hx hg) key scope)
  landed _ he := .inl he

/-- A fill of the lane under `key`. -/
theorem Moves.filled {x : Call ν} {key : LaneKey} {lane : Lane ν}
    (hlane : s.lanes key = some lane) (hext : Extends W lane.row r)
    (hthread : FillsInTime W s l → ∀ c' scope, Pending s c' key scope → Carries W lane.row scope →
      lane.row.thread_id = none → r.thread_id = none)
    (hx : ∀ key' id scope, x = .wrapUpdate key' id (some scope) → key' = key ∧ Carries W r scope) :
    Moves W s l c ((s.setLane key { lane with row := r }).goto c x) where
  others := goto_others (s.setLane key { lane with row := r }) c x
  lanes key' lane' h := by
    by_cases hk : key' = key
    · subst hk
      cases hlane.symm.trans h
      exact ⟨_, Function.update_self _ _ _, hext, hthread⟩
    · exact ⟨lane', (Function.update_of_ne hk _ _).trans h, .refl lane'.row,
        fun _ _ _ _ _ hnone => hnone⟩
  pending hg key' scope h := by
    obtain ⟨id, hcall⟩ := h
    rw [goto_self] at hcall
    obtain ⟨rfl, hcarries⟩ := hx key' id scope hcall
    exact ⟨_, Function.update_self _ _ _, hcarries⟩
  landed _ he := .inl he

theorem Moves.inserted (W : Wire ν) (key : LaneKey) (args : WrapScope) :
    Moves W s l c ((insertLane W s key args).goto c .idle) := by
  unfold insertLane
  split
  · rename_i row hnone hrow
    exact {
      others := goto_others _ c .idle
      lanes := fun key' lane h => by
        have hk : key' ≠ key := by
          rintro rfl
          rw [hnone] at h
          cases h
        exact ⟨lane, (Function.update_of_ne hk _ _).trans h, .refl lane.row,
          fun _ _ _ _ _ hnone => hnone⟩
      pending := fun _ key scope h => absurd h (not_pending_goto rfl key scope)
      landed := fun e he => .inl he }
  · exact .quiet fun _ => rfl

theorem laneAt_some {key : LaneKey} {id : Nat} {lane : Lane ν} (h : s.laneAt key id = some lane) :
    s.lanes key = some lane := (Option.filter_eq_some_iff.mp h).1

theorem act_moves (h : act W s c = some s') : Moves W s (.act c) c s' := by
  cases hc : s.call c with
  | idle =>
    simp only [act, hc] at h
    cases h
  | startSelect key args =>
    simp only [act, hc] at h
    split at h <;> cases h <;> exact .quiet fun _ => rfl
  | startFill key scope =>
    simp only [act, hc] at h
    split at h
    · cases h
      exact .quiet fun _ => rfl
    rename_i lane hlane
    split at h
    · rename_i row hrow
      cases h
      refine .filled hlane (updateScope_extends hrow) ?_ fun _ _ _ h => nomatch h
      intro hg c' scope' hpending hcarries hnone
      obtain ⟨p, hp, -, -, hfill⟩ := updateScope_matched.mp hrow
      obtain ⟨-, -, -, ethread, -⟩ := fillScope_columns hfill
      rw [ethread, hnone, Option.none_or]
      rw [scopeParams_thread hp]
      -- a threaded start would thread the lane of a pending wrap without one
      by_contra hsome
      simp only [FillsInTime, hc] at hg
      obtain ⟨id, hpending⟩ := hpending
      exact hg hsome lane hlane hnone c' id scope' hpending (hcarries.thread_none.mp hnone)
    · cases h
      exact .quiet fun _ => rfl
  | startInsert key args =>
    simp only [act, hc] at h
    cases h
    exact .inserted W key args
  | eventSelect key args create_if_missing =>
    simp only [act, hc] at h
    split at h <;> cases h <;> exact .quiet fun _ => rfl
  | eventInsert key args =>
    simp only [act, hc] at h
    cases h
    exact .inserted W key args
  | wrapSelect key args =>
    simp only [act, hc] at h
    split at h
    · cases h
      exact .quiet fun _ => rfl
    split at h
    · split at h <;> cases h <;> exact .quiet fun _ => rfl
    · cases h
      exact .quiet fun _ => rfl
  | wrapFill key id read scope =>
    simp only [act, hc] at h
    split at h
    · rename_i lane row hlane hrow
      cases h
      have hfill : establishWrapScope W lane.row scope = .matched row := by
        rw [wrapFillOutcome, hlane] at hrow
        exact hrow
      refine .filled (laneAt_some hlane) (updateScope_extends hfill) ?_ ?_
      · intro _ c' scope' _ hcarries hnone
        exact establishWrapScope_thread hcarries hfill hnone
      · intro key' id' scope' hx
        cases hx
        exact ⟨rfl, establishWrapScope_carries hfill⟩
    · rename_i hmiss
      split at h <;> cases h
      · refine .quiet fun hg => ?_
        simp only [FillsInTime, hc] at hg
        exact absurd hmiss hg
      · exact .quiet fun _ => rfl
    · cases h
      exact .quiet fun _ => rfl
  | wrapUpdate key id scope =>
    simp only [act, hc] at h
    split at h
    · rename_i lane scope hlane
      cases h
      exact {
        others := goto_others _ c .idle
        lanes := fun key lane h => ⟨lane, h, .refl lane.row, fun _ _ _ _ _ hnone => hnone⟩
        pending := fun _ key scope h => absurd h (not_pending_goto rfl key scope)
        landed := fun e he => by
          rcases List.mem_append.mp he with he | he
          · exact .inl he
          · cases List.mem_singleton.mp he
            exact .inr ⟨key, lane, ⟨id, hc⟩, laneAt_some hlane, rfl⟩ }
    · cases h
      exact .quiet fun _ => rfl

theorem beginCall_moves {x : Call ν} (hx : x.pends = false)
    (h : beginCall s c x = some s') : Moves W s l c s' := by
  unfold beginCall at h
  split at h
  · cases h
    exact .quiet fun _ => hx
  · cases h

theorem step_moves (h : step W s l = some s') : ∃ c, Moves W s l c s' := by
  cases l with
  | start c key args => exact ⟨c, beginCall_moves rfl h⟩
  | event c key args create_if_missing => exact ⟨c, beginCall_moves rfl h⟩
  | wrap c key args => exact ⟨c, beginCall_moves rfl h⟩
  | act c => exact ⟨c, act_moves h⟩
  | fail c =>
    simp only [step] at h
    cases h
    exact ⟨c, .quiet fun _ => rfl⟩

/-! ## Invariant -/

structure Inv (W : Wire ν) (s : St ν) : Prop where
  /-- a lane that is filled and not yet written into carries the request -/
  pending : ∀ c key scope, Pending s c key scope →
    ∃ lane, s.lanes key = some lane ∧ Carries W lane.row scope
  landed : ∀ e ∈ s.landed, Carries W e.row e.scope

theorem Moves.inv (I : Inv W s) (hg : FillsInTime W s l) (hm : Moves W s l c s') : Inv W s' where
  pending c' key scope h := by
    by_cases hc : c' = c
    · subst hc
      exact hm.pending hg key scope h
    · have hold : Pending s c' key scope := by
        obtain ⟨id, h⟩ := h
        exact ⟨id, (hm.others c' hc).symm.trans h⟩
      obtain ⟨lane, hlane, hcarries⟩ := I.pending c' key scope hold
      obtain ⟨lane', hlane', hext, hthread⟩ := hm.lanes key lane hlane
      exact ⟨lane', hlane', hcarries.extends hext (hthread hg c' scope hold hcarries)⟩
  landed e he := by
    rcases hm.landed e he with he | ⟨key, lane, hpending, hlane, hrow⟩
    · exact I.landed e he
    · obtain ⟨lane', hlane', hcarries⟩ := I.pending c key e.scope hpending
      cases hlane.symm.trans hlane'
      rw [hrow]
      exact hcarries

theorem inv_inductive (W : Wire ν) : (laneSys W).InductiveOn (FillsInTime W) (Inv W) where
  init s h := by
    refine ⟨fun c key scope hp => ?_, fun e he => ?_⟩
    · obtain ⟨id, hp⟩ := hp
      rw [h.1 c] at hp
      cases hp
    · rw [h.2] at he
      cases he
  step s l s' I hg h := by
    obtain ⟨c, hm⟩ := step_moves h
    exact hm.inv I hg

theorem set_coordinates_stay {ls : List Lbl} (h : (laneSys W).RunOn LTS.anyStep s ls s')
    (key : LaneKey) (lane : Lane ν) (hlane : s.lanes key = some lane) :
    ∃ lane', s'.lanes key = some lane' ∧ Extends W lane.row lane'.row := by
  refine LTS.RunOn.keeps (M := laneSys W)
    (I := fun t => ∃ lane', t.lanes key = some lane' ∧ Extends W lane.row lane'.row) ?_ h
    ⟨lane, hlane, .refl lane.row⟩
  rintro t l t' ⟨lane₁, h₁, hext₁⟩ - hstep
  obtain ⟨c, hm⟩ := step_moves hstep
  obtain ⟨lane₂, h₂, hext₂, -⟩ := hm.lanes key lane₁ h₁
  exact ⟨lane₂, h₂, hext₁.trans hext₂⟩

/-- **Every checkpoint lands in its own scope, under the condition.** In every
run whose steps all meet `FillsInTime`, each checkpoint written for a complete
request is in a lane that carried exactly the requested coordinates; and from
there on no run changes a coordinate that is set. -/
theorem checkpoint_lands_in_scope (W : Wire ν) {s : St ν}
    (h : (laneSys W).ReachableOn (FillsInTime W) s) :
    (∀ e ∈ s.landed, Carries W e.row e.scope) ∧
      ∀ ls s', (laneSys W).RunOn LTS.anyStep s ls s' → ∀ key lane, s.lanes key = some lane →
        ∃ lane', s'.lanes key = some lane' ∧ Extends W lane.row lane'.row :=
  ⟨((inv_inductive W).reachable h).landed, fun _ _ hrun => set_coordinates_stay hrun⟩

end Model

/-! ## Runs -/

def laneKey : LaneKey := (units "shared", units "session")

def openTable : St Nat where
  lanes key := if key = laneKey then some ⟨0, some (units "agent"), none, none, none, .obj []⟩ else none
  call _ := .idle
  next := 1
  landed := []

theorem openTable_init : Init openTable := ⟨fun _ => rfl, rfl⟩

/-- A request for the channel `channel_id`. -/
def scopeIn (channel_id : Str) : ExactScope :=
  ⟨units "agent", units "cli", units "s1", channel_id, none⟩

/-- The wrap reads, fills and writes with nobody in between. -/
def wrapAlone : List Lbl := .wrap 0 laneKey (scopeIn (units "c1")).args :: List.replicate 3 (.act 0)

/-- The wrap reads; a start fills the lane for another channel; the wrap's fill
misses, and the wrap writes its checkpoint. -/
def startBetween : List Lbl :=
  [.wrap 0 laneKey (scopeIn (units "c1")).args, .act 0,
    .start 1 laneKey (scopeIn (units "c2")).args, .act 1, .act 1, .act 0, .act 0]

/-- A condition that can be computed and is enough: no start fills a lane. -/
def fillsAlone (s : St Nat) : Lbl → Prop
  | .act c =>
    match s.call c with
    | .wrapFill key id _ scope => (wrapFillOutcome plainWire s key id scope).isMatched = true
    | .startFill _ _ => False
    | _ => True
  | _ => True

instance (s : St Nat) (l : Lbl) : Decidable (fillsAlone s l) := by
  unfold fillsAlone
  split
  · split <;> infer_instance
  · infer_instance

theorem fillsInTime_of_alone (s : St Nat) (l : Lbl) (h : fillsAlone s l) :
    FillsInTime plainWire s l := by
  cases l with
  | act c =>
    simp only [fillsAlone] at h
    simp only [FillsInTime]
    split at h
    · rename_i key id read scope hc
      rw [hc]
      intro hmiss
      rw [hmiss] at h
      cases h
    · exact h.elim
    · rename_i hfill hstart
      split
      · rename_i hc
        exact absurd hc (hfill _ _ _ _)
      · rename_i hc
        exact absurd hc (hstart _ _)
      · trivial
  | _ => trivial

theorem wrapAlone_lands :
    ∃ s, (laneSys plainWire).ReachableOn (FillsInTime plainWire) s ∧ s.landed.length = 1 ∧
      (∀ e ∈ s.landed, Carries plainWire e.row e.scope) := by
  have hrun : ((LTS.exec (LTS.guardStep fillsAlone (step plainWire)) openTable wrapAlone).map
      fun s => s.landed.length) = some 1 := by decide +kernel
  obtain ⟨s, hs, hlen⟩ := Option.map_eq_some_iff.mp hrun
  have hr : (laneSys plainWire).ReachableOn (FillsInTime plainWire) s :=
    (LTS.reachableOn_of_exec openTable_init hs).mono fillsInTime_of_alone
  exact ⟨s, hr, hlen, (checkpoint_lands_in_scope plainWire hr).1⟩

/-- The checkpoint asked for channel `c1` and is in a lane of channel `c2`. -/
theorem checkpoint_in_other_channel :
    ∃ s, (laneSys plainWire).Reachable s ∧ ∃ e ∈ s.landed, e.scope = scopeIn (units "c1") ∧
      e.row.channel_id = some (units "c2") ∧ ¬ Carries plainWire e.row e.scope := by
  have hrun : ((LTS.exec (step plainWire) openTable startBetween).map
      fun s => s.landed.map fun e => (e.scope, e.row.channel_id)) =
        some [(scopeIn (units "c1"), some (units "c2"))] := by decide +kernel
  obtain ⟨s, hs, hlanded⟩ := Option.map_eq_some_iff.mp hrun
  obtain ⟨e, rest, hcons, he, -⟩ := List.map_eq_cons_iff.mp hlanded
  obtain ⟨hscope, hchannel⟩ := Prod.mk.inj he
  refine ⟨s, ⟨openTable, startBetween, openTable_init, LTS.runOn_of_exec_any hs⟩, e,
    hcons ▸ List.mem_cons_self, hscope, hchannel, ?_⟩
  rintro ⟨p, hp, -, -, -, hcarried, -⟩
  rw [hscope] at hp
  cases hp
  rw [hchannel] at hcarried
  exact absurd (Option.some.inj hcarried) (by decide)

end OpenBrain.Server.Session
