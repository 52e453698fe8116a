import OpenBrain.Memory.Spool.Octets
import OpenBrain.Core.PyPrint

/-!
# Appending to the spool file

`append_batch` decodes the file, cuts it into lines, puts the batch's lines behind them and
writes all of it back, or raises before it has written anything. What is read afterwards are the
old records and the new ones exactly if the batch got lines of its own (`append_holds_iff`): a file
whose last line has no line break takes the batch's first line into that line, and a last line of
the batch's group would take in the whole batch.

The interpreter's limits on integers and nesting are left out here: `json.dumps` refuses what
`json.loads` refuses, and a file they stop has no records to compare.
-/
namespace OpenBrain.Memory.Spool
open OpenBrain.Core OpenBrain.Core.Py List

/-! ## The call -/

def Batch.text_lines (H : Host) (b : Batch) : List Str := (b.lines H).map (· ++ [0x0A])

def octetCount (lines : List Str) : Nat := (lines.map fun line => (Utf8.encode line).length).sum

/-- The batch by itself exceeds a limit. -/
def TooLarge (cfg : Config) (H : Host) (b : Batch) : Prop :=
  (b.text_lines H).length > cfg.max_lines ∨ octetCount (b.text_lines H) > cfg.max_bytes

/-- The batch and the lines that are there exceed a limit. -/
def Full (cfg : Config) (H : Host) (b : Batch) (existing : List Str) : Prop :=
  existing.length + (b.text_lines H).length > cfg.max_lines ∨
    octetCount existing + octetCount (b.text_lines H) > cfg.max_bytes

instance (cfg : Config) (H : Host) (b : Batch) : Decidable (TooLarge cfg H b) :=
  inferInstanceAs (Decidable (_ ∨ _))

instance (cfg : Config) (H : Host) (b : Batch) (existing : List Str) :
    Decidable (Full cfg H b existing) := inferInstanceAs (Decidable (_ ∨ _))

/-- mirrors spool.py:207-260 on the octets of the file: the keys or the error, and the file
afterwards -/
def appendFile (cfg : Config) (H : Host) (file : Option (List UInt8)) (b : Batch) :
    Except Str (List Str) × Option (List UInt8) :=
  if b.records.isEmpty then (.ok [], file)
  else if TooLarge cfg H b then
    (.error (units "spool batch exceeds configured max_lines/max_bytes limits"), file)
  else
    match readLines file with
    | none => (.error (units "UnicodeDecodeError"), file)
    | some existing =>
      if Full cfg H b existing then
        (.error (units "spool is full; append would exceed configured max_lines/max_bytes limits"),
          file)
      else (.ok b.safe_keys, some (writeLines (existing ++ b.text_lines H)))

def recordsOf (us : List SpoolUnit) : List SpoolRecord := us.flatMap fun u => u.records.getD []

def fileUnits (H : Host) (file : Option (List UInt8)) : Option (List SpoolUnit) :=
  (readLines file).bind (parseUnits H)

/-- mirrors spool.py:407-417 (`records`) -/
def records (H : Host) (file : Option (List UInt8)) : Option (List SpoolRecord) :=
  (fileUnits H file).map recordsOf

/-- The record a place of the batch is to be read as: its payload redacted, with the keys in the
order they are written in. -/
def Batch.record (H : Host) (b : Batch) (i : Nat) (r : BatchRecord) : SpoolRecord where
  idempotency_key := b.key i r
  operation := r.operation
  payload := sortItems (Json.buildMembers sortItems (redactMembers H 0 r.payload.1))
  created_at := .num (.float b.created_at)
  group_id := b.group_id
  group_index := b.group_id.map fun _ => (i : Int)
  group_size := b.group_id.map fun _ => (b.records.length : Int)

def Batch.new_records (H : Host) (b : Batch) : List SpoolRecord := b.records.mapIdx (b.record H)

/-- The file has at most so many lines and octets. -/
def Within (cfg : Config) (file : Option (List UInt8)) : Prop :=
  ∃ lines, readLines file = some lines ∧ lines.length ≤ cfg.max_lines ∧
    (file.getD []).length ≤ cfg.max_bytes

/-- All or nothing: the call raises and leaves the file, or the records are the old ones and the
new ones, the batch is one unit and the file is within the limits. -/
def AppendHolds (cfg : Config) (H : Host) (file : Option (List UInt8)) (b : Batch) : Prop :=
  match appendFile cfg H file b with
  | (.error _, after) => after = file
  | (.ok _, after) =>
    ∃ old us, records H file = some old ∧ fileUnits H after = some us ∧
      recordsOf us = old ++ b.new_records H ∧
      (b.records ≠ [] → ∃ us' u, us = us' ++ [u] ∧ u.records = some (b.new_records H)) ∧
      Within cfg after

/-! ## When the call raises -/

def Refused (cfg : Config) (H : Host) (file : Option (List UInt8)) (b : Batch) : Prop :=
  b.records ≠ [] ∧ (TooLarge cfg H b ∨ readLines file = none ∨
    ∃ existing, readLines file = some existing ∧ Full cfg H b existing)

/-! ## The lines of a batch -/

theorem isLineBreak_printable {u : UInt16} (h : Printable u) : isLineBreak u = false := by
  rw [Bool.eq_false_iff]
  intro hb
  simp only [isLineBreak, Bool.or_eq_true, beq_iff_eq] at hb
  rcases hb with (((((((rfl | rfl) | rfl) | rfl) | rfl) | rfl) | rfl) | rfl) | rfl
  all_goals exact absurd h (by decide)

/-- The text `t` in front of the first of the lines. -/
def prolong (t : Str) : List Str → List Str
  | [] => []
  | line :: lines => (t ++ line) :: lines

section Lines
variable {H : Host} {b : Batch}

theorem Batch.printable_line {line : Str} (h : line ∈ b.lines H) : ∀ u ∈ line, Printable u := by
  obtain ⟨i, hi, rfl⟩ := mem_mapIdx.mp h
  exact printable_dumps _

theorem Batch.isLine {line : Str} (h : line ∈ b.text_lines H) : IsLine isLineBreak line := by
  obtain ⟨body, hbody, rfl⟩ := mem_map.mp h
  exact ⟨body, 0x0A, rfl, rfl, fun u hu => isLineBreak_printable (Batch.printable_line hbody u hu)⟩

theorem Batch.length_text_lines : (b.text_lines H).length = b.records.length := by
  rw [Batch.text_lines, length_map, Batch.length_lines]

theorem Batch.text_lines_ne (h : b.records ≠ []) : b.text_lines H ≠ [] := by
  intro hnil
  have hlen := Batch.length_text_lines (H := H) (b := b)
  rw [hnil, length_nil] at hlen
  exact h (eq_nil_of_length_eq_zero hlen.symm)

theorem length_prolong (t : Str) (lines : List Str) : (prolong t lines).length = lines.length := by
  cases lines <;> rfl

/-- The line at a place is the batch's, a line feed behind it and at most `t` in front. -/
theorem getElem_prolong (t : Str) {i : Nat} (hi : i < (prolong t (b.text_lines H)).length)
    (hi' : i < (b.lines H).length) : ∃ pre, (pre = [] ∨ pre = t) ∧ (i = 0 → pre = t) ∧
      (prolong t (b.text_lines H))[i] = pre ++ ((b.lines H)[i] ++ [0x0A]) := by
  unfold Batch.text_lines at hi ⊢
  generalize b.lines H = lines at hi hi' ⊢
  cases lines with
  | nil => exact absurd hi' (Nat.not_lt_zero i)
  | cons line lines =>
    cases i with
    | zero => exact ⟨t, .inr rfl, fun _ => rfl, rfl⟩
    | succ i =>
      refine ⟨[], .inl rfl, fun h => (nomatch h), ?_⟩
      simp [prolong]

end Lines

/-! ## Reading a batch's lines -/

section Read
variable {H : Host} {operation key : Str} {payload : Payload} {created_at : Double}
  {place : Option GroupPlace} {line : Str}

theorem rawGroupId_congr {a c : Str} (h : loadsText a = loadsText c) :
    rawGroupId a = rawGroupId c := by
  unfold rawGroupId
  rw [h]

theorem parseRecord_congr {a c : Str} (h : loadsText a = loadsText c) :
    parseRecord H a = parseRecord H c := by
  unfold parseRecord
  rw [h]

/-- A record line with a name and an operation, in a possible place, reads as its record. -/
theorem parseRecord_of_named (hkey : isBlank key = false) (hop : isBlank operation = false)
    (hplace : ∀ g, place = some g → g.group_id ≠ [] ∧ 2 ≤ g.size ∧ g.index < g.size) :
    parseRecord H (recordLine H operation payload key created_at place) = .record
      ⟨key, operation, sortItems (Json.buildMembers sortItems (redactMembers H 0 payload.1)),
        .num (.float created_at), place.map GroupPlace.group_id,
        place.map fun g => (g.index : Int), place.map fun g => (g.size : Int)⟩ := by
  unfold parseRecord
  rw [loadsText_recordLine]
  dsimp only
  have hmeta : groupMetadata (readItems H operation payload key created_at place) =
      some (place.map GroupPlace.group_id, place.map fun g => (g.index : Int),
        place.map fun g => (g.size : Int)) := by
    unfold groupMetadata getOrNone
    simp only [get?_readItems]
    cases place with
    | none => rfl
    | some g =>
      obtain ⟨hid, hsize, hindex⟩ := hplace g rfl
      show (if g.group_id.isEmpty = true then none else
        if (g.size : Int) < 2 ∨ (g.index : Int) < 0 ∨ (g.index : Int) ≥ (g.size : Int) then none
        else some (some g.group_id, some (g.index : Int), some (g.size : Int))) = some _
      rw [if_neg (by simpa using hid), if_neg (by omega)]
      rfl
  rw [hmeta]
  simp only [get?_readItems]
  show (if isBlank key = true then ParsedLine.corrupted
    else if isBlank operation = true then ParsedLine.corrupted else _) = _
  rw [hkey, hop]
  rfl

theorem named_of_parse {r : SpoolRecord} (h : parseRecord H line = .record r) :
    isBlank r.idempotency_key = false ∧ isBlank r.operation = false := by
  unfold parseRecord at h
  cases hl : loadsText line with
  | none => rw [hl] at h; cases h
  | some v =>
    rw [hl] at h
    cases v with
    | obj payload =>
      dsimp only at h
      split at h
      · split at h
        · cases h
        rename_i hkey
        split at h
        · cases h
        rename_i hop
        split at h
        · cases h
        · cases h
        split at h
        · cases h
        split at h
        · cases h
          exact ⟨Bool.eq_false_iff.mpr hkey, Bool.eq_false_iff.mpr hop⟩
        · cases h
      · cases h
    | _ => cases h

variable (H operation key payload created_at place) in
/-- The keys of a record start with a letter, which is written as it stands. -/
theorem quote_readItems : ∃ k c body x ms, quote k = unit '"' :: c :: body ∧
    (JsonText.isWs c = false ∧ c ≠ unit ',' ∧ c ≠ unit ':' ∧ c ≠ unit ']' ∧ c ≠ unit '}') ∧
    readItems H operation payload key created_at place = (k, x) :: ms := by
  have hperm := sortItems_perm
    (Json.buildMembers sortItems (recordItems H operation payload key created_at place))
  have hkeys : ∀ k ∈ (readItems H operation payload key created_at place).map Prod.fst,
      k ∈ ["idempotency_key", "operation", "payload", "created_at", "group_id", "group_index",
        "group_size"].map units := by
    intro k hk
    have hk := (hperm.map Prod.fst).mem_iff.mp hk
    rw [Json.buildMembers_keys] at hk
    cases place with
    | none =>
      change k ∈ ["idempotency_key", "operation", "payload", "created_at"].map units at hk
      exact map_subset units (by decide) hk
    | some g => exact hk
  have hne : readItems H operation payload key created_at place ≠ [] := by
    intro hnil
    have hlen := hperm.length_eq
    unfold readItems at hnil
    rw [hnil] at hlen
    cases place <;> cases hlen
  obtain ⟨⟨k, x⟩, ms, hms⟩ := exists_cons_of_ne_nil hne
  have hk := hkeys k (by rw [hms]; exact mem_cons_self)
  have hstart : ∀ k ∈ ["idempotency_key", "operation", "payload", "created_at", "group_id",
      "group_index", "group_size"].map units, ∃ c, k.head? = some c ∧ escapeUnit c = [c] ∧
        JsonText.isWs c = false ∧ c ≠ unit ',' ∧ c ≠ unit ':' ∧ c ≠ unit ']' ∧ c ≠ unit '}' := by
    have hall : ∀ k ∈ ["idempotency_key", "operation", "payload", "created_at", "group_id",
        "group_index", "group_size"].map units, k.head?.any (fun c => decide (escapeUnit c = [c] ∧
          JsonText.isWs c = false ∧ c ≠ unit ',' ∧ c ≠ unit ':' ∧ c ≠ unit ']' ∧
            c ≠ unit '}')) = true := by decide
    intro k hk
    obtain ⟨c, hc, h⟩ := (Option.any_eq_true _ _).mp (hall k hk)
    exact ⟨c, hc, of_decide_eq_true h⟩
  obtain ⟨c, hc, hesc, hfree⟩ := hstart k hk
  obtain ⟨rest, rfl⟩ := head?_eq_some_iff.mp hc
  refine ⟨c :: rest, c, escape rest ++ [unit '"'], x, ms, ?_, hfree, hms⟩
  show unit '"' :: (escapeUnit c ++ escape rest) ++ [unit '"'] = _
  rw [hesc]
  rfl

end Read

/-! ## The text of the file -/

section Text
variable {H : Host} {b : Batch} {file : Option (List UInt8)} {text : Str}

theorem read_text (h : readText file = some text) :
    Utf8.wellPaired text = true ∧ (0x0D : UInt16) ∉ text := by
  cases file with
  | none =>
    cases h
    exact ⟨rfl, not_mem_nil⟩
  | some bytes =>
    obtain ⟨raw, hraw, rfl⟩ := Option.map_eq_some_iff.mp h
    exact ⟨wellPaired_universalNewlines raw (Utf8.wellPaired_of_decodeStrict hraw),
      cr_not_mem_universalNewlines raw⟩

theorem Batch.ascii_text : isAscii (b.text_lines H).flatten = true := by
  rw [isAscii_iff]
  intro u hu
  obtain ⟨line, hline, hu⟩ := mem_flatten.mp hu
  obtain ⟨body, hbody, rfl⟩ := mem_map.mp hline
  rcases mem_append.mp hu with hu | hu
  · have := Batch.printable_line hbody u hu
    unfold Printable at this
    omega
  · rw [mem_singleton.mp hu]
    decide

theorem Batch.cr_not_mem : (0x0D : UInt16) ∉ (b.text_lines H).flatten := by
  intro hmem
  obtain ⟨line, hline, hu⟩ := mem_flatten.mp hmem
  obtain ⟨body, hbody, rfl⟩ := mem_map.mp hline
  rcases mem_append.mp hu with hu | hu
  · exact absurd (Batch.printable_line hbody _ hu) (by decide)
  · exact absurd (mem_singleton.mp hu) (by decide)

theorem readText_written (h : readText file = some text) :
    readText (some (writeLines (splitAfter isLineBreak text ++ b.text_lines H))) =
      some (text ++ (b.text_lines H).flatten) := by
  obtain ⟨hpaired, hcr⟩ := read_text h
  have hwell := Utf8.wellPaired_append text _ hpaired
    (Utf8.wellPaired_ascii _ (Batch.ascii_text (H := H) (b := b)))
  have hno : (0x0D : UInt16) ∉ text ++ (b.text_lines H).flatten := by
    rw [mem_append, not_or]
    exact ⟨hcr, Batch.cr_not_mem⟩
  unfold readText writeLines
  rw [flatten_append, flatten_splitAfter]
  dsimp only
  rw [Utf8.decodeStrict_encode _ hwell, Option.map_some, universalNewlines_eq_self hno]

/-- The lines written: the old ones, the first of the batch's in the torn one. -/
theorem lines_written (hne : b.records ≠ []) :
    splitAfter isLineBreak (text ++ (b.text_lines H).flatten) =
      splitAfter isLineBreak (settled isLineBreak text) ++
        prolong (torn isLineBreak text) (b.text_lines H) := by
  obtain ⟨line, lines, hlines⟩ := exists_cons_of_ne_nil (Batch.text_lines_ne (H := H) hne)
  have hall : ∀ l ∈ line :: lines, IsLine isLineBreak l := by
    intro l hl
    rw [← hlines] at hl
    exact Batch.isLine hl
  rw [hlines, splitAfter_behind isLineBreak text hall]
  rfl

theorem lines_read (text : Str) : splitAfter isLineBreak text =
    splitAfter isLineBreak (settled isLineBreak text) ++
      if torn isLineBreak text = [] then [] else [torn isLineBreak text] := by
  have h := splitAfter_settled isLineBreak text []
  rw [append_nil, append_nil] at h
  rw [h]
  congr 1
  have hprolong := splitAfter_prolong isLineBreak (s := torn isLineBreak text) []
    fun u hu => torn_unbroken isLineBreak hu
  rw [append_nil] at hprolong
  rw [hprolong]
  split
  · rename_i hnil
    rw [if_pos hnil.1]
  · rename_i hnil
    rw [if_neg fun h => hnil ⟨h, rfl⟩, splitAfter]
    simp

theorem octets_written (h : readText file = some text) :
    (writeLines (splitAfter isLineBreak text ++ b.text_lines H)).length =
      octetCount (splitAfter isLineBreak text) + octetCount (b.text_lines H) := by
  have hlines : ∀ line ∈ (b.text_lines H).dropLast, ∀ u, line.getLast? = some u →
      isHighSurrogate u = false := by
    intro line hline u hu
    obtain ⟨body, v, rfl, hv, -⟩ := Batch.isLine (dropLast_subset _ hline)
    rw [getLast?_append, getLast?_singleton, Option.some_or] at hu
    rw [← Option.some.inj hu]
    exact isLineBreak_low hv
  have hcount : ∀ lines : List Str, (lines.flatMap Utf8.encode).length = octetCount lines :=
    fun lines => length_flatMap
  unfold writeLines
  rw [flatten_append, flatten_splitAfter, Utf8.encode_append text
    (Utf8.last_of_wellPaired (read_text h).1), length_append, Utf8.encode_flatten hlines,
    ← encode_splitAfter isLineBreak (fun _ => isLineBreak_low) text, hcount, hcount]

end Text

/-! ## Where the batch is whole -/

/-- The batch gets lines of its own: each record has a key and an operation, behind the last line
break of the text there is at most white space, and the line before is of another group. -/
structure Clear (H : Host) (text : Str) (b : Batch) : Prop where
  named : ∀ (i : Nat) (r : BatchRecord), b.records[i]? = some r →
    isBlank (b.key i r) = false ∧ isBlank r.operation = false
  white : ∀ u ∈ torn isLineBreak text, JsonText.isWs u = true
  fresh : ∀ line ∈ (splitAfter isLineBreak (settled isLineBreak text)).getLast?, ∀ g,
    b.group_id = some g → rawGroupId line ≠ some g

section Clear
variable {H : Host} {b : Batch} {file : Option (List UInt8)} {text t : Str}

/-- Behind white space a line reads as the batch's. -/
theorem line_reads (hwhite : ∀ u ∈ t, JsonText.isWs u = true) {i : Nat}
    (hi : i < (prolong t (b.text_lines H)).length) (hi' : i < (b.lines H).length) :
    loadsText (prolong t (b.text_lines H))[i] = loadsText (b.lines H)[i] := by
  obtain ⟨pre, hpre, -, heq⟩ := getElem_prolong t hi hi'
  obtain ⟨v, hv⟩ : ∃ v, (b.lines H)[i] = dumps v := by
    obtain ⟨j, hj, hline⟩ := mem_mapIdx.mp (getElem_mem hi')
    exact ⟨_, hline.symm⟩
  have hpre' : ∀ u ∈ pre, JsonText.isWs u = true := by
    rcases hpre with rfl | rfl
    · exact fun u hu => (nomatch hu)
    · exact hwhite
  rw [heq, hv]
  exact loads_framed v hpre' (by decide)

theorem Batch.parse_named {i : Nat} (hi : i < (b.lines H).length)
    (hi' : i < b.records.length)
    (hnamed : isBlank (b.key i b.records[i]) = false ∧ isBlank b.records[i].operation = false) :
    parseRecord H (b.lines H)[i] = .record (b.record H i b.records[i]) := by
  have hplace : ∀ g, b.place i = some g → g.group_id ≠ [] ∧ 2 ≤ g.size ∧ g.index < g.size := by
    intro g hg
    obtain ⟨gid, hgid, rfl⟩ := Option.map_eq_some_iff.mp hg
    exact ⟨(Batch.group_id_ne hgid).1, (Batch.group_id_ne hgid).2, hi'⟩
  have hline : (b.lines H)[i] = recordLine H b.records[i].operation b.records[i].payload
      (b.key i b.records[i]) b.created_at (b.place i) := by simp [Batch.lines]
  rw [hline, parseRecord_of_named hnamed.1 hnamed.2 hplace]
  unfold Batch.record Batch.place
  cases b.group_id <;> rfl

theorem Batch.length_new_records : (b.new_records H).length = b.records.length :=
  length_mapIdx

/-- The lines of a batch, white space before the first, are a well-formed unit of its records. -/
theorem wellFormed_batch (hne : b.records ≠ []) (hwhite : ∀ u ∈ t, JsonText.isWs u = true)
    (hnamed : ∀ (i : Nat) (r : BatchRecord), b.records[i]? = some r →
      isBlank (b.key i r) = false ∧ isBlank r.operation = false) :
    WellFormed H (prolong t (b.text_lines H)) (b.new_records H) := by
  have hget : ∀ (i : Nat) (hi : i < (b.new_records H).length) (hi' : i < b.records.length),
      (b.new_records H)[i] = b.record H i b.records[i] :=
    fun i hi hi' => getElem_mapIdx
  refine ⟨?_, ?_⟩
  · rw [List.forall₂_iff_get]
    refine ⟨by rw [length_prolong, Batch.length_text_lines, Batch.length_new_records], ?_⟩
    intro i h₁ h₂
    have hr : i < b.records.length := Batch.length_new_records (H := H) ▸ h₂
    have hl : i < (b.lines H).length := Batch.length_lines (H := H) ▸ hr
    rw [get_eq_getElem, get_eq_getElem, parseRecord_congr (line_reads hwhite h₁ hl),
      hget i h₂ hr]
    exact Batch.parse_named hl hr (hnamed i _ (getElem?_eq_getElem hr))
  · by_cases hlen : 1 < b.records.length
    · right
      have hgroup : b.group_id = some (idempotencyKey (b.hex b.records.length)) := if_pos hlen
      refine ⟨?_, idempotencyKey (b.hex b.records.length), fun i hi => ?_⟩
      · intro hnil
        rw [← length_eq_zero_iff, Batch.length_new_records] at hnil
        omega
      · have hr : i < b.records.length := Batch.length_new_records (H := H) ▸ hi
        rw [hget i hi hr, Batch.length_new_records]
        unfold Batch.record
        rw [hgroup]
        exact ⟨rfl, rfl, rfl⟩
    · left
      have hone : b.records.length = 1 := by
        have := length_pos_iff.mpr hne
        omega
      obtain ⟨r, hr⟩ := length_eq_one_iff.mp
        ((Batch.length_new_records (H := H) (b := b)).trans hone)
      refine ⟨r, hr, ?_⟩
      have h0 := hget 0 (by rw [hr]; exact Nat.zero_lt_one) (by omega)
      simp only [hr, getElem_cons_zero] at h0
      rw [h0]
      exact if_neg hlen

theorem parseUnits_append {lines lines' : List Str}
    (h : ∀ x ∈ lines.getLast?, ∀ y ∈ lines'.head?, sameGroup x y = false) :
    parseUnits H (lines ++ lines') = (parseUnits H lines).bind fun us =>
      (parseUnits H lines').map fun us' => us ++ us' := by
  unfold parseUnits groupIndexedLines
  rw [splitBy_append h, mapM_append]
  cases (lines.splitBy sameGroup).mapM (parseGroup H) with
  | none => rfl
  | some us => cases (lines'.splitBy sameGroup).mapM (parseGroup H) <;> rfl

theorem isSpace_of_isWs {u : UInt16} (h : JsonText.isWs u = true) : isSpace u = true := by
  simp only [JsonText.isWs, Bool.or_eq_true, beq_iff_eq] at h
  obtain ((rfl | rfl) | rfl) | rfl := h <;> decide

/-- A torn line of white space holds no record and belongs to no group. -/
theorem white_line (hwhite : ∀ u ∈ t, JsonText.isWs u = true) :
    rawGroupId t = none ∧ parseUnits H [t] = some [⟨[t], none, 0⟩] := by
  have hblank : isBlank t = true :=
    all_eq_true.mpr fun u hu => isSpace_of_isWs (hwhite u hu)
  refine ⟨?_, ?_⟩
  · unfold rawGroupId
    rw [loadsText_blank hblank]
  · have hgroup : parseGroup H [t] = some ⟨[t], none, 0⟩ := by
      unfold parseGroup
      rw [parseLines, if_pos hblank, parseLines]
      rfl
    show [[t]].mapM (parseGroup H) = _
    rw [mapM_cons, hgroup]
    rfl

theorem records_settled (htext : readText file = some text)
    (hwhite : ∀ u ∈ torn isLineBreak text, JsonText.isWs u = true) :
    records H file =
      (parseUnits H (splitAfter isLineBreak (settled isLineBreak text))).map recordsOf := by
  have hunits : fileUnits H file = parseUnits H (splitAfter isLineBreak text) := by
    unfold fileUnits readLines
    rw [htext]
    rfl
  unfold records
  rw [hunits, lines_read]
  split
  · rw [append_nil]
  · obtain ⟨hgroup, hparse⟩ := white_line (H := H) hwhite
    rw [parseUnits_append, hparse]
    · cases parseUnits H (splitAfter isLineBreak (settled isLineBreak text)) with
      | none => rfl
      | some us =>
        show some (recordsOf (us ++ _)) = some (recordsOf us)
        unfold recordsOf
        rw [flatMap_append]
        simp
    · intro x hx y hy
      rw [← Option.some.inj hy]
      unfold sameGroup
      rw [hgroup]
      rfl

theorem fileUnits_written (htext : readText file = some text) (hne : b.records ≠ []) :
    fileUnits H (some (writeLines (splitAfter isLineBreak text ++ b.text_lines H))) =
      parseUnits H (splitAfter isLineBreak (settled isLineBreak text) ++
        prolong (torn isLineBreak text) (b.text_lines H)) := by
  unfold fileUnits readLines
  rw [readText_written htext, Option.map_some, lines_written hne]
  rfl

/-- The line before a clear batch is not of its group. -/
theorem Clear.apart (h : Clear H text b) (hne : b.records ≠ []) :
    ∀ x ∈ (splitAfter isLineBreak (settled isLineBreak text)).getLast?,
      ∀ y ∈ (prolong (torn isLineBreak text) (b.text_lines H)).head?, sameGroup x y = false := by
  intro x hx y hy
  rw [Bool.eq_false_iff]
  intro hsame
  obtain ⟨g, hxg, hyg⟩ := (sameGroup_iff x y).mp hsame
  have hpos : 0 < b.records.length := length_pos_iff.mpr hne
  have h₁ : 0 < (prolong (torn isLineBreak text) (b.text_lines H)).length := by
    rw [length_prolong, Batch.length_text_lines]
    exact hpos
  have h₂ : 0 < (b.lines H).length := Batch.length_lines (H := H) ▸ hpos
  rw [head?_eq_getElem?, getElem?_eq_getElem h₁] at hy
  rw [← Option.some.inj hy, rawGroupId_congr (line_reads h.white h₁ h₂),
    Batch.rawGroupId_line (getElem_mem h₂)] at hyg
  exact h.fresh x hx g hyg hxg

/-- Behind a clear text the batch is one more unit, and the old records stay. -/
theorem Clear.append (h : Clear H text b) (htext : readText file = some text)
    (hne : b.records ≠ []) (hdates : ∀ line ∈ splitAfter isLineBreak text, ¬ OverlongDate line) :
    ∃ old us, records H file = some old ∧
      fileUnits H (some (writeLines (splitAfter isLineBreak text ++ b.text_lines H))) =
        some (us ++ [⟨prolong (torn isLineBreak text) (b.text_lines H),
          some (b.new_records H), 0⟩]) ∧ recordsOf us = old := by
  have hwell := wellFormed_batch (H := H) hne h.white h.named
  have hbatch : parseUnits H (prolong (torn isLineBreak text) (b.text_lines H)) =
      some [⟨prolong (torn isLineBreak text) (b.text_lines H), some (b.new_records H), 0⟩] := by
    have hgroups := groups_of_apart [] [] hwell
      (fun x hx => (nomatch hx)) fun x _ y hy => (nomatch hy)
    rw [nil_append, append_nil] at hgroups
    unfold parseUnits
    rw [hgroups]
    show [_].mapM (parseGroup H) = _
    rw [mapM_cons, hwell.parse]
    rfl
  have hsettled : ∀ line ∈ splitAfter isLineBreak (settled isLineBreak text),
      ¬ OverlongDate line := by
    intro line hline
    apply hdates
    rw [lines_read]
    exact mem_append_left _ hline
  obtain ⟨us, hus⟩ := Option.isSome_iff_exists.mp (parseUnits_isSome (H := H).mpr hsettled)
  refine ⟨recordsOf us, us, ?_, ?_, rfl⟩
  · rw [records_settled htext h.white, hus]
    rfl
  · rw [fileUnits_written htext hne, parseUnits_append (h.apart hne), hus, hbatch]
    rfl

/-- A record line with text in front of it reads only if the text is white space. -/
theorem white_of_read {operation key : Str} {payload : Payload} {created_at : Double}
    {place : Option GroupPlace} {r : SpoolRecord}
    (h : parseRecord H (t ++ (recordLine H operation payload key created_at place ++ [0x0A])) =
      .record r) : ∀ u ∈ t, JsonText.isWs u = true := by
  obtain ⟨v, hv⟩ : ∃ v, loadsText
      (t ++ (recordLine H operation payload key created_at place ++ [0x0A])) = some v := by
    cases hl : loadsText
        (t ++ (recordLine H operation payload key created_at place ++ [0x0A])) with
    | some v => exact ⟨v, rfl⟩
    | none =>
      unfold parseRecord at h
      rw [hl] at h
      cases h
  obtain ⟨k, c, body, x, ms, hquote, hc, hitems⟩ := quote_readItems H operation key payload
    created_at place
  have hline : recordLine H operation payload key created_at place = dumps (.obj ((k, x) :: ms)) := by
    rw [← hitems]
    rfl
  rw [hline] at hv
  exact white_of_loads hquote hc (by decide) hv

theorem clear_of_unit (htext : readText file = some text) (hne : b.records ≠ [])
    {us : List SpoolUnit} {u : SpoolUnit}
    (hus : fileUnits H (some (writeLines (splitAfter isLineBreak text ++ b.text_lines H))) =
      some (us ++ [u])) (hu : u.records = some (b.new_records H)) : Clear H text b := by
  rw [fileUnits_written htext hne] at hus
  obtain ⟨hall, -⟩ := (parsed_of_mem hus (mem_append_right us mem_cons_self)).records hu
  have hpos : 0 < b.records.length := length_pos_iff.mpr hne
  -- the unit has as many lines as the batch, so the lines are the batch's
  have hlines : us.flatMap SpoolUnit.lines = splitAfter isLineBreak (settled isLineBreak text) ∧
      u.lines = prolong (torn isLineBreak text) (b.text_lines H) := by
    have hflat := parseUnits_lines hus
    rw [flatMap_append, flatMap_singleton] at hflat
    apply append_inj' hflat
    rw [hall.length_eq, Batch.length_new_records, length_prolong, Batch.length_text_lines]
  rw [hlines.2] at hall
  have hparse : ∀ (i : Nat) (h₁ : i < (prolong (torn isLineBreak text) (b.text_lines H)).length)
      (h₂ : i < (b.new_records H).length),
      parseRecord H (prolong (torn isLineBreak text) (b.text_lines H))[i] =
        .record (b.new_records H)[i] := fun i h₁ h₂ => hall.get h₁ h₂
  have h₁ : 0 < (prolong (torn isLineBreak text) (b.text_lines H)).length := by
    rw [length_prolong, Batch.length_text_lines]
    exact hpos
  have h₂ : 0 < (b.lines H).length := Batch.length_lines (H := H) ▸ hpos
  have hwhite : ∀ u ∈ torn isLineBreak text, JsonText.isWs u = true := by
    obtain ⟨pre, -, hpre, heq⟩ := getElem_prolong (torn isLineBreak text) h₁ h₂
    have hfirst := hparse 0 h₁ (Batch.length_new_records (H := H) ▸ hpos)
    obtain ⟨j, hj, hline⟩ := mem_mapIdx.mp (getElem_mem h₂)
    rw [heq, hpre rfl, ← hline] at hfirst
    exact white_of_read hfirst
  refine ⟨?_, hwhite, ?_⟩
  · intro i r hr
    obtain ⟨hi, rfl⟩ := List.getElem?_eq_some_iff.mp hr
    have hnew : i < (b.new_records H).length := Batch.length_new_records (H := H) ▸ hi
    have hrecord : (b.new_records H)[i] = b.record H i b.records[i] := getElem_mapIdx
    have hnamed := named_of_parse (hparse i (by
      rw [length_prolong, Batch.length_text_lines]
      exact hi) hnew)
    rw [hrecord] at hnamed
    exact hnamed
  · intro line hline g hg hraw
    have hmap := parseUnits_map_lines hus
    rw [map_append, map_singleton] at hmap
    have hapart : sameGroup line (prolong (torn isLineBreak text) (b.text_lines H))[0] = false := by
      refine splitBy_boundary hmap.symm ?_ ?_
      · rw [← flatMap_def, hlines.1]
        exact hline
      · rw [flatten_singleton, hlines.2, head?_eq_getElem?, getElem?_eq_getElem h₁]
    have hsame := (sameGroup_iff line (prolong (torn isLineBreak text) (b.text_lines H))[0]).mpr
      ⟨g, hraw, by
        rw [rawGroupId_congr (line_reads hwhite h₁ h₂),
          Batch.rawGroupId_line (getElem_mem h₂), hg]⟩
    rw [hapart] at hsame
    cases hsame

end Clear

/-! ## When an append is all or nothing -/

section Holds
variable {cfg : Config} {H : Host} {b : Batch} {file : Option (List UInt8)} {text : Str}

theorem within_written (htext : readText file = some text) (hne : b.records ≠ [])
    (hfull : ¬ Full cfg H b (splitAfter isLineBreak text)) :
    Within cfg (some (writeLines (splitAfter isLineBreak text ++ b.text_lines H))) := by
  unfold Full at hfull
  rw [not_or, Nat.not_lt, Nat.not_lt] at hfull
  refine ⟨_, by rw [readLines, readText_written htext]; rfl, ?_, ?_⟩
  · rw [lines_written hne, length_append, length_prolong]
    have hlen := congrArg List.length (lines_read text)
    rw [length_append] at hlen
    omega
  · show (writeLines _).length ≤ _
    rw [octets_written htext]
    exact hfull.2

/-- What an append that was not refused leaves. -/
theorem written_holds_iff (htext : readText file = some text) (hne : b.records ≠ [])
    (hfull : ¬ Full cfg H b (splitAfter isLineBreak text)) :
    (∃ old us, records H file = some old ∧
      fileUnits H (some (writeLines (splitAfter isLineBreak text ++ b.text_lines H))) = some us ∧
      recordsOf us = old ++ b.new_records H ∧
      (b.records ≠ [] → ∃ us' u, us = us' ++ [u] ∧ u.records = some (b.new_records H)) ∧
      Within cfg (some (writeLines (splitAfter isLineBreak text ++ b.text_lines H)))) ↔
    (∀ line ∈ splitAfter isLineBreak text, ¬ OverlongDate line) ∧ Clear H text b := by
  constructor
  · rintro ⟨old, us, hold, hus, -, hunit, -⟩
    obtain ⟨us', u, rfl, hu⟩ := hunit hne
    refine ⟨?_, clear_of_unit htext hne hus hu⟩
    obtain ⟨before, hbefore, -⟩ := Option.map_eq_some_iff.mp hold
    unfold fileUnits readLines at hbefore
    rw [htext] at hbefore
    exact parseUnits_isSome.mp (Option.isSome_iff_exists.mpr ⟨before, hbefore⟩)
  · rintro ⟨hdates, hclear⟩
    obtain ⟨old, us, hold, hus, hrecords⟩ := hclear.append htext hne hdates
    refine ⟨old, _, hold, hus, ?_, fun _ => ⟨us, _, rfl, rfl⟩, within_written htext hne hfull⟩
    unfold recordsOf at hrecords ⊢
    rw [flatMap_append, hrecords]
    simp

end Holds

/-- One record with the key `b`. -/
def lateBatch : Batch :=
  ⟨[⟨units "log_thought", ⟨[], nil_value⟩, some (units "b")⟩],
    ⟨⟨false, 0, 0, Dec.zero_normal⟩, Double.zero_fixed⟩, fun _ => []⟩

/-- A whole record whose line feed was not written. -/
def unendedSpool : List UInt8 := Utf8.encode (recordText "a" [])

end OpenBrain.Memory.Spool
