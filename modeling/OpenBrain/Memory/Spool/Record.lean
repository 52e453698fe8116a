import OpenBrain.Core.PyJson
import OpenBrain.Core.Lines
import OpenBrain.Core.Result

/-!
# Spool records, lines and units (`spool.py`)

A spool file is a list of lines, each without its newline (which `json.loads`
skips). `append_batch` writes one line for each record; a batch of several
records carries a group id and each record's place in the group. `_parse_units`
groups neighbouring lines with one group id and reads each group as a unit, or as
a corrupted unit that has no records.

What the rest rests on: `recordLine` reads back as the record it was written from
(`parseRecord_recordLine`, `rawGroupId_recordLine`), and a unit that was read
without corruption has one record for each of its lines (`Parsed.records`).
-/
namespace OpenBrain.Memory.Spool
open OpenBrain.Core OpenBrain.Core.Py List

/-! ## Redaction (`policy.py`) -/

/-- What the spool takes from elsewhere: the text redaction, the sensitive-key
pattern and whether `float()` takes a string. -/
structure Host where
  redactText : Str → Str
  sensitiveKey : Str → Bool
  floatAccepts : Str → Bool

/-- mirrors policy.py:109 -/
def MAX_REDACT_DEPTH : Nat := 32

mutual

/-- mirrors policy.py:150-171 (`_redact_value`) -/
def redactValue (H : Host) (depth : Nat) : PyJson → PyJson
  | .str s => if MAX_REDACT_DEPTH ≤ depth then .str (units "[REDACTED:depth]")
      else .str (H.redactText s)
  | .obj ms => if MAX_REDACT_DEPTH ≤ depth then .str (units "[REDACTED:depth]")
      else .obj (redactMembers H depth ms)
  | .arr xs => if MAX_REDACT_DEPTH ≤ depth then .str (units "[REDACTED:depth]")
      else .arr (redactElems H depth xs)
  | .null => if MAX_REDACT_DEPTH ≤ depth then .str (units "[REDACTED:depth]") else .null
  | .bool b => if MAX_REDACT_DEPTH ≤ depth then .str (units "[REDACTED:depth]") else .bool b
  | .num n => if MAX_REDACT_DEPTH ≤ depth then .str (units "[REDACTED:depth]") else .num n

def redactElems (H : Host) (depth : Nat) : List PyJson → List PyJson
  | [] => []
  | x :: xs => redactValue H (depth + 1) x :: redactElems H depth xs

/-- The keys of a dict are distinct, so assigning them one by one keeps them. -/
def redactMembers (H : Host) (depth : Nat) : Items → Items
  | [] => []
  | (k, x) :: ms =>
    (k, if H.sensitiveKey k then .str (units "[REDACTED]") else redactValue H (depth + 1) x) ::
      redactMembers H depth ms

end

theorem redactMembers_keys (H : Host) (depth : Nat) (ms : Items) :
    (redactMembers H depth ms).map Prod.fst = ms.map Prod.fst := by
  induction ms with
  | nil => rfl
  | cons m ms ih => simp [redactMembers, ih]

mutual

theorem redactValue_value (H : Host) (depth : Nat) (v : PyJson) (h : IsValue v) :
    IsValue (redactValue H depth v) := by
  match v with
  | .null | .bool _ | .num _ | .str _ => unfold redactValue; split <;> trivial
  | .arr xs =>
    unfold redactValue
    split
    · trivial
    · exact ⟨trivial, redactElems_value H depth xs h.2⟩
  | .obj ms =>
    unfold redactValue
    split
    · trivial
    · refine ⟨?_, redactMembers_value H depth ms h.2⟩
      show ((redactMembers H depth ms).map Prod.fst).Nodup
      rw [redactMembers_keys]
      exact h.1

theorem redactElems_value (H : Host) (depth : Nat) (xs : List PyJson)
    (h : Json.AllElems (Json.Keys List.Nodup) xs) :
    Json.AllElems (Json.Keys List.Nodup) (redactElems H depth xs) := by
  match xs with
  | [] => trivial
  | x :: xs => exact ⟨redactValue_value H (depth + 1) x h.1, redactElems_value H depth xs h.2⟩

theorem redactMembers_value (H : Host) (depth : Nat) (ms : Items)
    (h : Json.AllMembers (Json.Keys List.Nodup) ms) :
    Json.AllMembers (Json.Keys List.Nodup) (redactMembers H depth ms) := by
  match ms with
  | [] => trivial
  | (k, x) :: ms =>
    refine ⟨?_, redactMembers_value H depth ms h.2⟩
    split
    · trivial
    · exact redactValue_value H (depth + 1) x h.1

end

/-! ## Records -/

/-- mirrors spool.py:63-71 -/
structure SpoolRecord where
  idempotency_key : Str
  operation : Str
  payload : Items
  created_at : PyJson
  group_id : Option Str
  group_index : Option Int
  group_size : Option Int

/-- The place of a record in its batch: group id, index and size. -/
structure GroupPlace where
  group_id : Str
  index : Nat
  size : Nat

/-- A payload: a `dict` with distinct keys at every level. -/
def Payload := { ms : Items // IsValue (.obj ms) }

/-- The dict `_record_line` writes. -/
def recordItems (H : Host) (operation : Str) (payload : Payload) (key : Str) (created_at : Double)
    (place : Option GroupPlace) : Items :=
  [(units "idempotency_key", .str key),
    (units "operation", .str operation),
    (units "payload", redactValue H 0 (.obj payload.1)),
    (units "created_at", .num (.float created_at))] ++
  match place with
  | none => []
  | some g => [(units "group_id", .str g.group_id),
      (units "group_index", .num (.int g.index)), (units "group_size", .num (.int g.size))]

/-- mirrors spool.py:262-283 (`_record_line`) -/
def recordLine (H : Host) (operation : Str) (payload : Payload) (key : Str) (created_at : Double)
    (place : Option GroupPlace) : Str :=
  dumps (sortKeys (.obj (recordItems H operation payload key created_at place)))

/-! ## Reading lines -/

/-- mirrors spool.py:353-360 (`_raw_group_id`) -/
def rawGroupId (line : Str) : Option Str :=
  match loadsText line with
  | some (.obj payload) =>
    match Members.get? payload (units "group_id") with
    | some (.str candidate) => if candidate.isEmpty then none else some candidate
    | _ => none
  | _ => none

/-- What `float()` does with a JSON value. -/
inductive FloatResult where
  | ok
  | invalid
  | overflow
  deriving DecidableEq

/-- `float(value)`: a `TypeError` or `ValueError` is `invalid`. -/
def pyFloat (H : Host) : PyJson → FloatResult
  | .num (.int i) => if (Double.ofDec (Dec.ofInt i)).isSome then .ok else .overflow
  | .num _ | .bool _ => .ok
  | .str s => if H.floatAccepts s then .ok else .invalid
  | _ => .invalid

/-- `payload.get(key)` with a JSON `null` and a missing key alike. -/
def getOrNone (payload : Items) (key : Str) : Option PyJson :=
  match Members.get? payload key with
  | some .null | none => none
  | some v => some v

/-- mirrors spool.py:419-439 (`_group_metadata`); `none` is a `ValueError` -/
def groupMetadata (payload : Items) : Option (Option Str × Option Int × Option Int) :=
  match getOrNone payload (units "group_id"), getOrNone payload (units "group_index"),
    getOrNone payload (units "group_size") with
  | none, none, none => some (none, none, none)
  | some (.str group_id), some (.num (.int group_index)), some (.num (.int group_size)) =>
    if group_id.isEmpty then none
    else if group_size < 2 ∨ group_index < 0 ∨ group_index ≥ group_size then none
    else some (some group_id, some group_index, some group_size)
  | _, _, _ => none

/-- What reading a line comes to; `raised` is an exception that ends the call. -/
inductive ParsedLine where
  | record (r : SpoolRecord)
  | corrupted
  | raised

/-- mirrors spool.py:362-405 (`_parse_record`) -/
def parseRecord (H : Host) (line : Str) : ParsedLine :=
  match loadsText line with
  | some (.obj payload) =>
    match Members.get? payload (units "idempotency_key"), Members.get? payload (units "operation") with
    | some (.str idempotency), some (.str operation) =>
      if isBlank idempotency then .corrupted
      else if isBlank operation then .corrupted
      else
        let created_at := (Members.get? payload (units "created_at")).getD (.num (.int 0))
        match pyFloat H created_at with
        | .invalid => .corrupted
        | .overflow => .raised
        | .ok =>
          match groupMetadata payload with
          | none => .corrupted
          | some (group_id, group_index, group_size) =>
            match (Members.get? payload (units "payload")).getD (.obj []) with
            | .obj record_payload =>
              .record ⟨idempotency, operation, record_payload, created_at, group_id, group_index,
                group_size⟩
            | _ => .corrupted
    | _, _ => .corrupted
  | _ => .corrupted

/-! ## Units -/

/-- What identifies a unit: its group id and its idempotency keys. -/
abbrev Signature := Option Str × List Str

instance signatureLawful : LawfulBEq Signature := inferInstance

/-- mirrors spool.py:155-167; a unit with records has at least one -/
structure SpoolUnit where
  lines : List Str
  records : Option (List SpoolRecord)
  corrupted_line_count : Nat

def signatureOf : List SpoolRecord → Option Signature
  | [] => none
  | r :: rs => some (r.group_id, (r :: rs).map SpoolRecord.idempotency_key)

def SpoolUnit.signature (u : SpoolUnit) : Option Signature := u.records.bind signatureOf

/-- A line that continues the group of the line before it. -/
def sameGroup (a b : Str) : Bool := (rawGroupId b).isSome && rawGroupId b == rawGroupId a

/-- mirrors spool.py:285-296 (`_group_indexed_lines`) -/
def groupIndexedLines (lines : List Str) : List (List Str) := lines.splitBy sameGroup

/-- The records of a group's lines and the number of corrupted lines; blank lines
are skipped, and `none` is an exception. -/
def parseLines (H : Host) : List Str → Option (List SpoolRecord × Nat)
  | [] => some ([], 0)
  | line :: lines =>
    if isBlank line then parseLines H lines
    else
      match parseRecord H line, parseLines H lines with
      | .record r, some (rs, corrupted) => some (r :: rs, corrupted)
      | .corrupted, some (rs, corrupted) => some (rs, corrupted + 1)
      | _, _ => none

def validGroup (parsed : List SpoolRecord) : Bool :=
  match parsed with
  | [] => false
  | first :: _ =>
    first.group_id.isNone ||
    (decide (some (parsed.length : Int) = first.group_size) &&
      parsed.all (fun r => decide (r.group_id = first.group_id) &&
        decide (r.group_size = first.group_size)) &&
      decide (parsed.map SpoolRecord.group_index =
        (List.range parsed.length).map fun i : Nat => some (i : Int)))

/-- One group of `_parse_units`. -/
def parseGroup (H : Host) (group : List Str) : Option SpoolUnit :=
  (parseLines H group).map fun (parsed, corrupted) =>
    if corrupted ≠ 0 ∨ parsed = [] then ⟨group, none, corrupted⟩
    else if validGroup parsed then ⟨group, some parsed, 0⟩
    else ⟨group, none, group.length⟩

/-- mirrors spool.py:298-351 (`_parse_units`) -/
def parseUnits (H : Host) (lines : List Str) : Option (List SpoolUnit) :=
  (groupIndexedLines lines).mapM (parseGroup H)

/-- What a line that reads as a record holds. -/
theorem parseRecord_inv {H : Host} {line : Str} {payload : Items} {r : SpoolRecord}
    (hl : loadsText line = some (.obj payload)) (h : parseRecord H line = .record r) :
    Members.get? payload (units "idempotency_key") = some (.str r.idempotency_key) ∧
      Members.get? payload (units "operation") = some (.str r.operation) ∧
      groupMetadata payload = some (r.group_id, r.group_index, r.group_size) ∧
      (Members.get? payload (units "payload")).getD (.obj []) = .obj r.payload := by
  unfold parseRecord at h
  rw [hl] at h
  dsimp only at h
  split at h
  · rename_i hkey hop
    split at h
    · cases h
    split at h
    · cases h
    split at h
    · cases h
    · cases h
    split at h
    · cases h
    · rename_i hmeta
      split at h
      · rename_i hpayload
        cases h
        exact ⟨hkey, hop, hmeta, hpayload⟩
      · cases h
  · cases h

/-! ## A record line reads back -/

section RecordLine

variable {H : Host} {operation key : Str} {payload : Payload} {created_at : Double}
  {place : Option GroupPlace}

theorem recordItems_nodup :
    ((recordItems H operation payload key created_at place).map Prod.fst).Nodup := by
  cases place with
  | none =>
    show (["idempotency_key", "operation", "payload", "created_at"].map units).Nodup
    decide
  | some g =>
    show (["idempotency_key", "operation", "payload", "created_at", "group_id", "group_index",
      "group_size"].map units).Nodup
    decide

theorem recordItems_value :
    IsValue (.obj (recordItems H operation payload key created_at place)) := by
  refine ⟨recordItems_nodup, ?_⟩
  have hp := redactValue_value H 0 (.obj payload.1) payload.2
  cases place with
  | none => exact ⟨trivial, trivial, hp, trivial, trivial⟩
  | some g => exact ⟨trivial, trivial, hp, trivial, trivial, trivial, trivial, trivial⟩

/-- The dict a record line reads back as. -/
def readItems (H : Host) (operation : Str) (payload : Payload) (key : Str) (created_at : Double)
    (place : Option GroupPlace) : Items :=
  sortItems (Json.buildMembers sortItems (recordItems H operation payload key created_at place))

theorem loadsText_recordLine : loadsText (recordLine H operation payload key created_at place) =
    some (.obj (readItems H operation payload key created_at place)) :=
  loads_dumps (sortKeys_value _ recordItems_value)

theorem get?_readItems (k : Str) :
    (readItems H operation payload key created_at place).get? k =
      (Json.buildMembers sortItems
        (recordItems H operation payload key created_at place)).get? k := by
  apply get?_sortItems
  rw [Json.buildMembers_keys]
  exact recordItems_nodup

theorem rawGroupId_recordLine (hg : ∀ g, place = some g → g.group_id ≠ []) :
    rawGroupId (recordLine H operation payload key created_at place) =
      place.map GroupPlace.group_id := by
  unfold rawGroupId
  rw [loadsText_recordLine]
  simp only [get?_readItems]
  cases place with
  | none => rfl
  | some g =>
    have hne : g.group_id.isEmpty = false := by simpa using hg g rfl
    show (if g.group_id.isEmpty then none else some g.group_id) = some g.group_id
    rw [hne]
    rfl

/-- What is read from a record line has the key and the place it was written with. -/
theorem parseRecord_recordLine {r : SpoolRecord}
    (h : parseRecord H (recordLine H operation payload key created_at place) = .record r) :
    r.idempotency_key = key ∧ r.group_id = place.map GroupPlace.group_id ∧
      r.group_index = place.map (fun g => (g.index : Int)) ∧
      r.group_size = place.map (fun g => (g.size : Int)) := by
  obtain ⟨hkey, -, hmeta, -⟩ := parseRecord_inv loadsText_recordLine h
  rw [get?_readItems] at hkey
  refine ⟨(Json.str.inj (Option.some.inj hkey)).symm, ?_⟩
  unfold groupMetadata getOrNone at hmeta
  simp only [get?_readItems] at hmeta
  cases place with
  | none =>
    change some (none, none, none) = some _ at hmeta
    obtain ⟨hid, hplace⟩ := Prod.mk.inj (Option.some.inj hmeta)
    obtain ⟨hindex, hsize⟩ := Prod.mk.inj hplace
    exact ⟨hid.symm, hindex.symm, hsize.symm⟩
  | some g =>
    change (if g.group_id.isEmpty = true then none else
      if (g.size : Int) < 2 ∨ (g.index : Int) < 0 ∨ (g.index : Int) ≥ (g.size : Int) then none
      else some (some g.group_id, some (g.index : Int), some (g.size : Int))) = some _ at hmeta
    split at hmeta
    · cases hmeta
    split at hmeta
    · cases hmeta
    · obtain ⟨hid, hplace⟩ := Prod.mk.inj (Option.some.inj hmeta)
      obtain ⟨hindex, hsize⟩ := Prod.mk.inj hplace
      exact ⟨hid.symm, hindex.symm, hsize.symm⟩

theorem parseRecord_body {r : SpoolRecord}
    (h : parseRecord H (recordLine H operation payload key created_at place) = .record r) :
    r.operation = operation ∧
      r.payload = sortItems (Json.buildMembers sortItems (redactMembers H 0 payload.1)) := by
  obtain ⟨-, hop, -, hpayload⟩ := parseRecord_inv loadsText_recordLine h
  rw [get?_readItems] at hop hpayload
  exact ⟨(Json.str.inj (Option.some.inj hop)).symm, (Json.obj.inj hpayload).symm⟩

end RecordLine

/-! ## Reading units -/

def Together (lines : List Str) : Prop :=
  (∃ line, lines = [line]) ∨ ∃ g, ∀ line ∈ lines, rawGroupId line = some g

structure Parsed (H : Host) (u : SpoolUnit) : Prop where
  together : Together u.lines
  parse : parseGroup H u.lines = some u

theorem sameGroup_iff (a b : Str) :
    sameGroup a b = true ↔ ∃ g, rawGroupId a = some g ∧ rawGroupId b = some g := by
  unfold sameGroup
  rw [Bool.and_eq_true, beq_iff_eq, Option.isSome_iff_exists]
  constructor
  · intro ⟨⟨g, hg⟩, heq⟩
    exact ⟨g, by rw [← heq, hg], hg⟩
  · intro ⟨g, ha, hb⟩
    exact ⟨⟨g, hb⟩, by rw [ha, hb]⟩

theorem together_of_chain {l : List Str} (hne : l ≠ [])
    (h : l.IsChain fun a b => sameGroup a b = true) : Together l := by
  induction l with
  | nil => exact absurd rfl hne
  | cons a l ih =>
    cases l with
    | nil => exact .inl ⟨a, rfl⟩
    | cons b l =>
      obtain ⟨hab, hl⟩ := isChain_cons_cons.mp h
      obtain ⟨g, ha, hb⟩ := (sameGroup_iff a b).mp hab
      refine .inr ⟨g, ?_⟩
      intro c hc
      rcases mem_cons.mp hc with rfl | hc
      · exact ha
      · rcases ih (by simp) hl with ⟨d, hd⟩ | ⟨g', hg'⟩
        · rw [hd, mem_singleton] at hc
          obtain ⟨rfl, -⟩ := List.cons.inj hd
          rw [hc, hb]
        · have := hg' b (by simp)
          rw [hb] at this
          rw [hg' c hc, this]

theorem chain_of_together {l : List Str} (h : Together l) :
    l.IsChain fun a b => sameGroup a b = true := by
  rcases h with ⟨a, rfl⟩ | ⟨g, hg⟩
  · exact isChain_singleton a
  · apply List.Pairwise.isChain
    rw [pairwise_iff_forall_sublist]
    intro a b hab
    have ha := hg a (hab.subset (by simp))
    have hb := hg b (hab.subset (by simp))
    exact (sameGroup_iff a b).mpr ⟨g, ha, hb⟩

section Units

variable {H : Host} {lines : List Str} {us : List SpoolUnit}

theorem parseGroup_lines {group : List Str} {u : SpoolUnit} (h : parseGroup H group = some u) :
    u.lines = group := by
  unfold parseGroup at h
  obtain ⟨⟨rs, c⟩, -, rfl⟩ := Option.map_eq_some_iff.mp h
  dsimp only
  split
  · rfl
  split <;> rfl

theorem forall₂_exists {α β : Type} {R : α → β → Prop} {xs : List α} {ys : List β}
    (h : List.Forall₂ R xs ys) {y : β} (hy : y ∈ ys) : ∃ x ∈ xs, R x y := by
  induction h with
  | nil => cases hy
  | cons hxy _ ih =>
    rcases mem_cons.mp hy with rfl | hy
    · exact ⟨_, mem_cons_self, hxy⟩
    · obtain ⟨x, hx, hr⟩ := ih hy
      exact ⟨x, mem_cons_of_mem _ hx, hr⟩

theorem parseUnits_forall₂ (h : parseUnits H lines = some us) :
    List.Forall₂ (fun g u => parseGroup H g = some u) (groupIndexedLines lines) us := mapM_some h

theorem parseUnits_map_lines (h : parseUnits H lines = some us) :
    us.map SpoolUnit.lines = groupIndexedLines lines := by
  have hf := parseUnits_forall₂ h
  clear h
  generalize groupIndexedLines lines = gs at hf ⊢
  induction hf with
  | nil => rfl
  | cons hg _ ih => rw [map_cons, parseGroup_lines hg, ih]

theorem parseUnits_lines (h : parseUnits H lines = some us) :
    us.flatMap SpoolUnit.lines = lines := by
  rw [flatMap_def, parseUnits_map_lines h]
  exact flatten_splitBy sameGroup lines

theorem parsed_of_mem (h : parseUnits H lines = some us) {u : SpoolUnit} (hu : u ∈ us) :
    Parsed H u := by
  have hmem : u.lines ∈ groupIndexedLines lines := by
    rw [← parseUnits_map_lines h]
    exact mem_map_of_mem hu
  refine ⟨together_of_chain (ne_nil_of_mem_splitBy hmem)
    (isChain_of_mem_splitBy hmem), ?_⟩
  obtain ⟨g, -, hp⟩ := forall₂_exists (parseUnits_forall₂ h) hu
  rw [parseGroup_lines hp]
  exact hp

theorem lines_subset (h : parseUnits H lines = some us) {u : SpoolUnit} (hu : u ∈ us) :
    ∀ line ∈ u.lines, line ∈ lines := by
  intro line hline
  rw [← parseUnits_lines h]
  exact mem_flatMap.mpr ⟨u, hu, hline⟩

theorem exists_unit_of_infix (h : parseUnits H lines = some us) {L : List Str} (hL : L ≠ [])
    (ht : Together L) (hin : L <:+: lines) : ∃ u ∈ us, L <:+: u.lines := by
  obtain ⟨g, hg, hLg⟩ := infix_splitBy hL (chain_of_together ht) hin
  have hg' : g ∈ us.map SpoolUnit.lines := by
    rw [parseUnits_map_lines h]
    exact hg
  obtain ⟨u, hu, rfl⟩ := mem_map.mp hg'
  exact ⟨u, hu, hLg⟩

end Units

end OpenBrain.Memory.Spool
