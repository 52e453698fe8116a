import OpenBrain.Core.EcmaJson
import OpenBrain.Core.Table

/-!
# A batch of raw turns (`server/tools/ingest-raw-turn.ts`)

What is not harness noise goes into one INSERT. PostgreSQL refuses the statement as a whole when it
refuses one of its values, and the handler calls that an outage to be retried. So a batch is dealt
with exactly when every value of every kept turn can be stored (`ingest_iff`).
-/
namespace OpenBrain.Server.RawTurns
open OpenBrain.Core OpenBrain.Core.Table List

/-- `RAW_TURN_ROLES` -/
inductive RawTurnRole where
  | user | assistant | tool

def RawTurnRole.text : RawTurnRole → Str
  | .user => units "user"
  | .assistant => units "assistant"
  | .tool => units "tool"

/-- mirrors ingest-raw-turn.ts:22-41 -/
structure RawTurn (ν : Type) where
  turn_uuid : Str
  parent_turn_uuid : Option Str
  logical_parent_turn_uuid : Option Str
  prompt_id : Option Str
  session_ref : Option Str
  repo : Option Str
  git_branch : Option Str
  turn_index : Nat
  role : RawTurnRole
  is_human_prompt : Option Bool
  content : Str
  runtime : Option Str
  token_estimate : Option Nat
  occurred_at : Option Str
  metadata : Option (Members ν)

/-- A bound value, under the type of its column. -/
inductive Value (ν : Type) where
  | text (value : Option Str)
  | integer (value : Option Nat)
  | boolean (value : Bool)
  | jsonb (value : Json ν)
  | timestamptz (value : Option Str)

/-! ## The batch -/

def harnessPrefixes : List Str :=
  [units "<local-command-caveat>", units "<local-command-stdout>", units "<local-command-stderr>",
    units "<command-name>", units "<command-message>", units "<command-args>",
    units "<bash-input>", units "<bash-stdout>", units "<bash-stderr>",
    units "The user doesn't want to proceed with this tool use."]

/-- `/^\[Request interrupted by user[^\]]*\]$/` -/
def isInterruption (content : Str) : Bool :=
  let opening := units "[Request interrupted by user"
  let rest := content.drop opening.length
  opening.isPrefixOf content && rest.getLast? == some (unit ']') &&
    !rest.dropLast.contains (unit ']')

/-- mirrors ingest-raw-turn.ts:13-20, 45-47 -/
def isHarnessNoise (content : Str) : Bool :=
  Ecma.isBlank content || isInterruption content || harnessPrefixes.any (·.isPrefixOf content) ||
    content == units "Continue from where you left off."

def within (max : Nat) (s : Str) : Bool := decide (1 ≤ s.length) && decide (s.length ≤ max)

section
variable {ν : Type} (datetime : Str → Bool)

/-- What `rawTurnSchema` accepts; `datetime` is the check of zod. -/
def RawTurn.accepted (turn : RawTurn ν) : Bool :=
  within 200 turn.turn_uuid && turn.parent_turn_uuid.all (within 200) &&
    turn.logical_parent_turn_uuid.all (within 200) && turn.prompt_id.all (within 200) &&
    turn.session_ref.all (within 500) && turn.repo.all (within 200) &&
    turn.git_branch.all (within 300) && turn.runtime.all (within 100) &&
    turn.occurred_at.all datetime &&
    (turn.metadata.getD []).all fun member => decide (member.1.length ≤ 100)

/-- The turns of a call. -/
structure Batch (ν : Type) where
  turns : List (RawTurn ν)
  size : 1 ≤ turns.length ∧ turns.length ≤ 100
  accepted : ∀ turn ∈ turns, turn.accepted datetime = true

end

/-! ## The statement -/

section
variable {ν : Type}

def noNul (s : Str) : Bool := !s.contains 0

mutual

/-- No name and no text below has a U+0000, which `JSON.stringify` would escape. -/
def jsonNoNul : Json ν → Bool
  | .null | .bool _ | .num _ => true
  | .str s => noNul s
  | .arr xs => elemsNoNul xs
  | .obj ms => membersNoNul ms

def elemsNoNul : List (Json ν) → Bool
  | [] => true
  | x :: xs => jsonNoNul x && elemsNoNul xs

def membersNoNul : Members ν → Bool
  | [] => true
  | (k, x) :: ms => noNul k && jsonNoNul x && membersNoNul ms

end

/-- What the server cannot see of the database and of its own digest. -/
structure Environment where
  contentHash : Str → Str
  /-- The instants that `timestamptz` represents. -/
  instant : Str → Bool
  /-- What the driver reports of a refused statement. -/
  refusal : Str

variable (env : Environment)

def Value.storable : Value ν → Bool
  | .text value => value.all noNul
  | .integer value => value.all fun n => decide (n < 2 ^ 31)
  | .boolean _ => true
  | .jsonb value => jsonNoNul value
  | .timestamptz value => value.all env.instant

/-- mirrors ingest-raw-turn.ts:133-146 -/
def turnLineageValues (ns : Str) (turn : RawTurn ν) : List (Value ν) :=
  [.text (some ns), .text (some turn.turn_uuid), .text turn.parent_turn_uuid,
    .text turn.logical_parent_turn_uuid, .text turn.prompt_id, .text turn.session_ref,
    .text turn.repo, .text turn.git_branch, .integer (some turn.turn_index),
    .text (some turn.role.text)]

/-- mirrors ingest-raw-turn.ts:150-162 -/
def turnPayloadValues (createdBy : Str) (turn : RawTurn ν) : List (Value ν) :=
  [.boolean (turn.is_human_prompt.getD false), .text (some turn.content),
    .text (some (env.contentHash turn.content)), .text turn.runtime, .integer turn.token_estimate,
    .jsonb (.obj (turn.metadata.getD [])), .jsonb (.arr []), .text (some createdBy),
    .timestamptz turn.occurred_at]

def turnValues (ns createdBy : Str) (turn : RawTurn ν) : List (Value ν) :=
  turnLineageValues ns turn ++ turnPayloadValues env createdBy turn

/-- A row of `ob_raw_turns`, with the columns a call writes. -/
structure RawTurnRow (ν : Type) where
  ns : Str
  turn_uuid : Str
  columns : List (Value ν)

def RawTurnRow.key (r : RawTurnRow ν) : Str × Str := (r.ns, r.turn_uuid)

def newRow (ns createdBy : Str) (turn : RawTurn ν) : RawTurnRow ν :=
  ⟨ns, turn.turn_uuid, turnValues env ns createdBy turn⟩

def insertTurn (ns createdBy : Str) (rows : List (RawTurnRow ν)) (turn : RawTurn ν) :
    List (RawTurnRow ν) :=
  insertNew (fun r => r.key == (ns, turn.turn_uuid)) (newRow env ns createdBy turn) rows

/-- mirrors db/entry-write-repository.ts:351-364; `none` is a statement that is refused -/
def insertRawTurns (ns createdBy : Str) (kept : List (RawTurn ν)) (rows : List (RawTurnRow ν)) :
    Option (List (RawTurnRow ν)) :=
  if kept.all fun turn => (turnValues env ns createdBy turn).all (·.storable env) then
    some (kept.foldl (insertTurn env ns createdBy) rows)
  else none

/-- The answers of the handler. -/
inductive Answer where
  | counts (ingested duplicates filtered : Nat) (ns : Str)
  | retryable_outage (message ns : Str)

/-- mirrors ingest-raw-turn.ts:69-129; the call is authorized for `ns` -/
def ingestRawTurn {datetime : Str → Bool} (ns createdBy : Str) (batch : Batch datetime ν)
    (rows : List (RawTurnRow ν)) : Answer × List (RawTurnRow ν) :=
  let kept := batch.turns.filter fun turn => !isHarnessNoise turn.content
  let filtered := batch.turns.length - kept.length
  if kept.length = 0 then (.counts 0 0 filtered ns, rows)
  else
    match insertRawTurns env ns createdBy kept rows with
    | some after =>
      let ingested := after.length - rows.length
      (.counts ingested (kept.length - ingested) filtered ns, after)
    | none =>
      (.retryable_outage (units "Database error during raw turn ingest: " ++ env.refusal) ns, rows)

/-- What a call owes: each turn that is no noise has one row, the rows there were stay, a new row is
a turn's, and the answer counts every turn (so it is no failure to be retried). -/
structure Handled {datetime : Str → Bool} (ns createdBy : Str) (batch : Batch datetime ν)
    (before : List (RawTurnRow ν)) (answer : Answer) (after : List (RawTurnRow ν)) : Prop where
  stored : ∀ turn ∈ batch.turns, isHarnessNoise turn.content = false →
    ∃! r, r ∈ after ∧ r.key = (ns, turn.turn_uuid)
  stays : ∀ r ∈ before, r ∈ after
  new : ∀ r ∈ after, r ∈ before ∨ ∃ turn ∈ batch.turns,
    isHarnessNoise turn.content = false ∧ r = newRow env ns createdBy turn
  counted : ∃ ingested duplicates filtered, answer = .counts ingested duplicates filtered ns ∧
    ingested + duplicates + filtered = batch.turns.length

/-! ## The rows after the statement -/

/-- What the statement makes of the rows when it is accepted. -/
structure Inserted (ns createdBy : Str) (turns : List (RawTurn ν))
    (before after : List (RawTurnRow ν)) : Prop where
  keys : (after.map RawTurnRow.key).Nodup
  stored : ∀ turn ∈ turns, ∃ r ∈ after, r.key = (ns, turn.turn_uuid)
  stays : ∀ r ∈ before, r ∈ after
  new : ∀ r ∈ after, r ∈ before ∨ ∃ turn ∈ turns, r = newRow env ns createdBy turn
  grows : before.length ≤ after.length ∧ after.length ≤ before.length + turns.length

variable {env} {datetime : Str → Bool} {ns createdBy : Str} {rows : List (RawTurnRow ν)}

theorem insertTurn_inserted (hkeys : (rows.map RawTurnRow.key).Nodup) (turn : RawTurn ν) :
    Inserted env ns createdBy [turn] rows (insertTurn env ns createdBy rows turn) := by
  unfold insertTurn insertNew
  split
  · rename_i hany
    obtain ⟨r, hr, hkey⟩ := any_eq_true.mp hany
    refine ⟨hkeys, fun u hu => ?_, fun r hr => hr, fun r hr => .inl hr, ?_⟩
    · rw [mem_singleton.mp hu]
      exact ⟨r, hr, eq_of_beq hkey⟩
    · exact ⟨Nat.le_refl _, Nat.le_add_right _ _⟩
  · rename_i hany
    refine ⟨?_, fun u hu => ?_, fun r hr => mem_append_left _ hr, fun r hr => ?_, ?_⟩
    · rw [map_append, nodup_append]
      refine ⟨hkeys, nodup_singleton _, fun k hk k' hk' heq => hany ?_⟩
      obtain ⟨r, hr, rfl⟩ := mem_map.mp hk
      refine any_eq_true.mpr ⟨r, hr, beq_iff_eq.mpr (heq.trans ?_)⟩
      exact mem_singleton.mp hk'
    · rw [mem_singleton.mp hu]
      exact ⟨_, mem_append_right _ (mem_singleton.mpr rfl), rfl⟩
    · rcases mem_append.mp hr with hr | hr
      · exact .inl hr
      · exact .inr ⟨turn, mem_singleton.mpr rfl, mem_singleton.mp hr⟩
    · rw [length_append]
      exact ⟨Nat.le_add_right _ _, Nat.le_refl _⟩

theorem foldl_inserted (turns : List (RawTurn ν)) (hkeys : (rows.map RawTurnRow.key).Nodup) :
    Inserted env ns createdBy turns rows (turns.foldl (insertTurn env ns createdBy) rows) := by
  induction turns generalizing rows with
  | nil =>
    exact ⟨hkeys, fun _ h => absurd h not_mem_nil, fun _ h => h, fun _ h => .inl h,
      Nat.le_refl _, Nat.le_refl _⟩
  | cons turn turns ih =>
    have hone : Inserted env ns createdBy [turn] rows (insertTurn env ns createdBy rows turn) :=
      insertTurn_inserted hkeys turn
    have hrest := ih hone.keys
    refine ⟨hrest.keys, fun u hu => ?_, fun r hr => hrest.stays r (hone.stays r hr), fun r hr => ?_, ?_⟩
    · rcases mem_cons.mp hu with rfl | hu
      · obtain ⟨r, hr, hkey⟩ := hone.stored u (mem_singleton.mpr rfl)
        exact ⟨r, hrest.stays r hr, hkey⟩
      · exact hrest.stored u hu
    · rcases hrest.new r hr with hr | ⟨u, hu, heq⟩
      · rcases hone.new r hr with hr | ⟨u, hu, heq⟩
        · exact .inl hr
        · exact .inr ⟨u, mem_cons.mpr (.inl (mem_singleton.mp hu)), heq⟩
      · exact .inr ⟨u, mem_cons_of_mem _ hu, heq⟩
    · have h₁ := hone.grows
      have h₂ := hrest.grows
      rw [length_singleton] at h₁
      rw [foldl_cons, length_cons]
      omega

/-- Every value of the turn can be stored. -/
def RawTurn.Storable (env : Environment) (ns createdBy : Str) (turn : RawTurn ν) : Prop :=
  ∀ value ∈ turnValues env ns createdBy turn, value.storable env = true

theorem insertRawTurns_of_storable {kept : List (RawTurn ν)}
    (h : ∀ turn ∈ kept, turn.Storable env ns createdBy) :
    insertRawTurns env ns createdBy kept rows =
      some (kept.foldl (insertTurn env ns createdBy) rows) :=
  if_pos (all_eq_true.mpr fun turn ht => all_eq_true.mpr (h turn ht))

theorem storable_of_insertRawTurns {kept : List (RawTurn ν)} {after : List (RawTurnRow ν)}
    (h : insertRawTurns env ns createdBy kept rows = some after) :
    ∀ turn ∈ kept, turn.Storable env ns createdBy := by
  unfold insertRawTurns at h
  split at h
  · rename_i hall
    exact fun turn ht => all_eq_true.mp (all_eq_true.mp hall turn ht)
  · cases h

/-- A batch is dealt with exactly when every turn that is no noise can be stored. -/
theorem ingest_iff (batch : Batch datetime ν) (hkeys : (rows.map RawTurnRow.key).Nodup) :
    Handled env ns createdBy batch rows (ingestRawTurn env ns createdBy batch rows).1
      (ingestRawTurn env ns createdBy batch rows).2 ↔
    ∀ turn ∈ batch.turns, isHarnessNoise turn.content = false →
      turn.Storable env ns createdBy := by
  have hmem : ∀ turn, turn ∈ batch.turns.filter (fun turn => !isHarnessNoise turn.content) ↔
      turn ∈ batch.turns ∧ isHarnessNoise turn.content = false := by
    intro turn
    rw [mem_filter, Bool.not_eq_true']
  have hle := length_filter_le (fun turn => !isHarnessNoise turn.content) batch.turns
  unfold ingestRawTurn
  dsimp only
  generalize hkept : batch.turns.filter (fun turn => !isHarnessNoise turn.content) = kept at hmem hle ⊢
  split
  · rename_i hnone
    have hno : ∀ turn ∈ batch.turns, isHarnessNoise turn.content ≠ false := by
      intro turn ht hnoise
      have := (hmem turn).mpr ⟨ht, hnoise⟩
      rw [eq_nil_of_length_eq_zero hnone] at this
      cases this
    refine ⟨fun _ turn ht hnoise => absurd hnoise (hno turn ht), fun _ => ?_⟩
    refine ⟨fun turn ht hnoise => absurd hnoise (hno turn ht), fun r hr => hr, fun r hr => .inl hr, ?_⟩
    exact ⟨_, _, _, rfl, by omega⟩
  · cases hins : insertRawTurns env ns createdBy kept rows with
    | none =>
      refine iff_of_false (fun h => ?_) fun h => ?_
      · obtain ⟨_, _, _, heq, -⟩ := h.counted
        cases heq
      · rw [insertRawTurns_of_storable fun turn ht => h turn ((hmem turn).mp ht).1
          ((hmem turn).mp ht).2] at hins
        cases hins
    | some after =>
      have hstorable := storable_of_insertRawTurns hins
      refine iff_of_true ?_ fun turn ht hnoise => hstorable turn ((hmem turn).mpr ⟨ht, hnoise⟩)
      have hafter := (insertRawTurns_of_storable hstorable).symm.trans hins
      have h : Inserted env ns createdBy kept rows after :=
        Option.some.inj hafter ▸ foldl_inserted kept hkeys
      refine ⟨fun turn ht hnoise => ?_, h.stays, fun r hr => ?_, _, _, _, rfl, ?_⟩
      · obtain ⟨r, hr, hkey⟩ := h.stored turn ((hmem turn).mpr ⟨ht, hnoise⟩)
        exact ⟨r, ⟨hr, hkey⟩, fun q hq => eq_of_key h.keys hq.1 hr (hq.2.trans hkey.symm)⟩
      · refine (h.new r hr).imp_right fun ⟨turn, ht, heq⟩ => ?_
        exact ⟨turn, ((hmem turn).mp ht).1, ((hmem turn).mp ht).2, heq⟩
      · have := h.grows
        omega

end

section Sample

/-- Every instant is taken, and every text has one digest. -/
def sampleEnv : Environment := ⟨fun _ => units "0", fun _ => true, units "invalid byte sequence"⟩

def sampleTurn (turn_uuid content : Str) : RawTurn Nat :=
  ⟨turn_uuid, none, none, none, none, none, none, 0, .user, none, content, none, none, none, none⟩

def oneTurn : Batch (fun _ => true) Nat :=
  ⟨[sampleTurn (units "t1") (units "hello")], by decide, by decide⟩

/-- The second turn is a U+0000. -/
def twoTurns : Batch (fun _ => true) Nat :=
  ⟨[sampleTurn (units "t1") (units "hello"), sampleTurn (units "t2") [0]], by decide, by decide⟩

theorem ingest_iff_one : Handled sampleEnv (units "ns") (units "capture") oneTurn []
    (ingestRawTurn sampleEnv (units "ns") (units "capture") oneTurn []).1
    (ingestRawTurn sampleEnv (units "ns") (units "capture") oneTurn []).2 :=
  (ingest_iff oneTurn (show ([] : List (RawTurnRow Nat)).map RawTurnRow.key |>.Nodup from
    nodup_nil)).mpr (by
    intro turn ht _
    rw [mem_singleton.mp ht]
    unfold RawTurn.Storable
    decide)

theorem nul_blocks_batch : ¬ Handled sampleEnv (units "ns") (units "capture") twoTurns []
    (ingestRawTurn sampleEnv (units "ns") (units "capture") twoTurns []).1
    (ingestRawTurn sampleEnv (units "ns") (units "capture") twoTurns []).2 := by
  intro h
  obtain ⟨r, ⟨hr, -⟩, -⟩ := h.stored (sampleTurn (units "t1") (units "hello"))
    mem_cons_self (by decide)
  have hnothing : (ingestRawTurn sampleEnv (units "ns") (units "capture") twoTurns []).2 = [] := rfl
  rw [hnothing] at hr
  cases hr

end Sample

end OpenBrain.Server.RawTurns
