import OpenBrain.Memory.Spool.Record

/-!
# Appending a batch (`append_batch`) and finding it again

A batch is one record without a group, or several with one group id, their
places and the common size. A unit that was read without corruption and holds a
batch's lines holds exactly them and has the batch's signature
(`unit_of_batch`); and a unit with the batch's signature is the batch, when no
other line of the spool claims its identity (`batch_of_signature`).
-/
namespace OpenBrain.Memory.Spool
open OpenBrain.Core OpenBrain.Core.Py List

/-- mirrors spool.py:170-195; the limits are at least one -/
structure Config where
  max_lines : Nat
  max_bytes : Nat
  quarantine_threshold : Nat
  max_lines_pos : 1 ≤ max_lines
  max_bytes_pos : 1 ≤ max_bytes
  quarantine_threshold_pos : 1 ≤ quarantine_threshold

theorem one_le_thousand : 1 ≤ 1000 := by omega

theorem one_le_million : 1 ≤ 1000000 := by omega

/-- One of the records given to `append_batch`. -/
structure BatchRecord where
  operation : Str
  payload : Payload
  key : Option Str

/-- A call of `append_batch`: its records, the clock, and the hexadecimal digits
of the `uuid4` drawn for the record at each place and, last, for the group. -/
structure Batch where
  records : List BatchRecord
  created_at : Double
  hex : Nat → Str

/-- mirrors policy.py:132-133 -/
def idempotencyKey (hex : Str) : Str := units "obmem-" ++ hex

/-- `record[2] or idempotency_key()` -/
def Batch.key (b : Batch) (i : Nat) (r : BatchRecord) : Str :=
  match r.key with
  | some k => if k.isEmpty then idempotencyKey (b.hex i) else k
  | none => idempotencyKey (b.hex i)

def Batch.safe_keys (b : Batch) : List Str := b.records.mapIdx b.key

def Batch.group_id (b : Batch) : Option Str :=
  if 1 < b.records.length then some (idempotencyKey (b.hex b.records.length)) else none

def Batch.place (b : Batch) (i : Nat) : Option GroupPlace :=
  b.group_id.map fun g => ⟨g, i, b.records.length⟩

def Batch.lines (H : Host) (b : Batch) : List Str :=
  b.records.mapIdx fun i r =>
    recordLine H r.operation r.payload (b.key i r) b.created_at (b.place i)

def Batch.signature (b : Batch) : Signature := (b.group_id, b.safe_keys)

/-- The octets of lines, newlines included. -/
def byteCount (lines : List Str) : Nat := (lines.map fun l => (Utf8.encode l).length + 1).sum

/-- mirrors spool.py:207-260 (`append_batch`): the new spool lines and the keys, or
the text of the error -/
def appendBatch (cfg : Config) (H : Host) (existing : List Str) (b : Batch) :
    Except Str (List Str × List Str) :=
  if b.records.isEmpty then .ok (existing, [])
  else if (b.lines H).length > cfg.max_lines ∨ byteCount (b.lines H) > cfg.max_bytes then
    .error (units "spool batch exceeds configured max_lines/max_bytes limits")
  else if existing.length + (b.lines H).length > cfg.max_lines ∨
      byteCount existing + byteCount (b.lines H) > cfg.max_bytes then
    .error (units "spool is full; append would exceed configured max_lines/max_bytes limits")
  else .ok (existing ++ b.lines H, b.safe_keys)

theorem appendBatch_ok {cfg : Config} {H : Host} {existing lines keys : List Str} {b : Batch}
    (h : appendBatch cfg H existing b = .ok (lines, keys)) : lines = existing ++ b.lines H := by
  unfold appendBatch at h
  split at h
  · rename_i hempty
    cases h
    rw [List.isEmpty_iff] at hempty
    simp [Batch.lines, hempty]
  split at h
  · cases h
  split at h
  · cases h
  · cases h
    rfl

/-! ## The lines of a batch -/

section Lines

variable {H : Host} {b : Batch}

theorem Batch.group_id_ne {g : Str} (h : b.group_id = some g) : g ≠ [] ∧ 1 < b.records.length := by
  unfold Batch.group_id at h
  split at h
  · rename_i hlen
    cases h
    exact ⟨by simp [idempotencyKey, units], hlen⟩
  · cases h

theorem Batch.length_lines : (b.lines H).length = b.records.length := by simp [Batch.lines]

theorem Batch.rawGroupId_line {line : Str} (h : line ∈ b.lines H) :
    rawGroupId line = b.group_id := by
  obtain ⟨i, hi, rfl⟩ := mem_mapIdx.mp h
  rw [rawGroupId_recordLine]
  · simp only [Batch.place, Option.map_map]
    cases b.group_id <;> rfl
  · intro g hg
    obtain ⟨gid, hgid, rfl⟩ := Option.map_eq_some_iff.mp hg
    exact (Batch.group_id_ne hgid).1

theorem Batch.together (hne : b.records ≠ []) : Together (b.lines H) := by
  by_cases hlen : 1 < b.records.length
  · refine .inr ⟨idempotencyKey (b.hex b.records.length), ?_⟩
    intro line hline
    rw [Batch.rawGroupId_line hline, Batch.group_id, if_pos hlen]
  · have hpos := length_pos_iff.mpr hne
    have hone : (b.lines H).length = 1 := by rw [Batch.length_lines]; omega
    exact .inl (length_eq_one_iff.mp hone)

/-- What the line at a place reads as. -/
theorem Batch.parse_line {i : Nat} (hi : i < (b.lines H).length) {r : SpoolRecord}
    (h : parseRecord H (b.lines H)[i] = .record r) :
    b.safe_keys[i]? = some r.idempotency_key ∧ r.group_id = b.group_id ∧
      r.group_index = b.group_id.map (fun _ => (i : Int)) ∧
      r.group_size = b.group_id.map (fun _ => (b.records.length : Int)) := by
  have hi' : i < b.records.length := by
    rw [← Batch.length_lines (H := H)]
    exact hi
  have hline : (b.lines H)[i] = recordLine H b.records[i].operation b.records[i].payload
      (b.key i b.records[i]) b.created_at (b.place i) := by simp [Batch.lines]
  rw [hline] at h
  obtain ⟨h1, h2, h3, h4⟩ := parseRecord_recordLine h
  refine ⟨?_, ?_, ?_, ?_⟩
  · rw [h1]
    simp [Batch.safe_keys, hi']
  · rw [h2, Batch.place]
    cases b.group_id <;> rfl
  · rw [h3, Batch.place]
    cases b.group_id <;> rfl
  · rw [h4, Batch.place]
    cases b.group_id <;> rfl

end Lines

/-! ## Units that were read without corruption -/

theorem skipWs_blank {s : Str} (h : isBlank s = true) : isBlank (JsonText.skipWs s) = true := by
  induction s with
  | nil => rfl
  | cons u s ih =>
    simp only [isBlank, all_cons, Bool.and_eq_true] at h
    unfold JsonText.skipWs
    split
    · exact ih h.2
    · simp [isBlank, h.1, h.2]

theorem not_isSpace_numStart {u : UInt16} (h : isSpace u = true) :
    JsonText.isNumStart u = false := by
  rw [Bool.eq_false_iff]
  intro hn
  simp only [isSpace, Bool.or_eq_true, Bool.and_eq_true, decide_eq_true_eq, beq_iff_eq,
    UInt16.le_iff_toNat_le, ← UInt16.toNat_inj] at h
  simp only [JsonText.isNumStart, JsonText.isDigit, Bool.or_eq_true, Bool.and_eq_true,
    decide_eq_true_eq, beq_iff_eq, UInt16.le_iff_toNat_le, ← UInt16.toNat_inj] at hn
  simp only [unit, UInt16.toNat_ofNat', UInt16.reduceToNat, Char.reduceToNat] at h hn
  omega

/-- A blank line is not JSON. -/
theorem loadsText_blank {s : Str} (h : isBlank s = true) : loadsText s = none := by
  have hblank := skipWs_blank h
  have hscan : JsonText.scanValue (s.length + 1) s = none := by
    unfold JsonText.scanValue
    cases hs : JsonText.skipWs s with
    | nil => rfl
    | cons u r =>
      rw [hs] at hblank
      simp only [isBlank, all_cons, Bool.and_eq_true] at hblank
      have hne : ∀ v : UInt16, isSpace v = false → u ≠ v := by
        intro v hv huv
        rw [huv, hv] at hblank
        exact absurd hblank.1 (by decide)
      simp only [hne (unit '"') (by decide), hne (unit '[') (by decide),
        hne (unit '{') (by decide), hne (unit 'n') (by decide), hne (unit 't') (by decide),
        hne (unit 'f') (by decide), not_isSpace_numStart hblank.1, ↓reduceIte,
        Bool.false_eq_true]
  simp [loadsText, JsonText.parse, JsonText.scan, hscan]

theorem not_blank_of_rawGroupId {line g : Str} (h : rawGroupId line = some g) :
    isBlank line = false := by
  rw [Bool.eq_false_iff]
  intro hb
  unfold rawGroupId at h
  rw [loadsText_blank hb] at h
  cases h

/-- The group id of a record is the one its line is grouped by. -/
theorem group_id_of_parse {H : Host} {line : Str} {r : SpoolRecord}
    (h : parseRecord H line = .record r) : r.group_id = rawGroupId line := by
  unfold parseRecord at h
  unfold rawGroupId
  cases hl : loadsText line with
  | none =>
    rw [hl] at h
    cases h
  | some v =>
    rw [hl] at h
    cases v with
    | obj payload =>
      dsimp only at h ⊢
      split at h
      · split at h
        · cases h
        split at h
        · cases h
        split at h
        · cases h
        · cases h
        split at h
        · cases h
        · rename_i gid gindex gsize hm
          split at h
          · cases h
            unfold groupMetadata getOrNone at hm
            grind
          · cases h
      · cases h
    | _ => cases h

theorem parseLines_forall₂ {H : Host} {lines : List Str} {rs : List SpoolRecord}
    (hb : ∀ line ∈ lines, isBlank line = false) (h : parseLines H lines = some (rs, 0)) :
    List.Forall₂ (fun line r => parseRecord H line = .record r) lines rs := by
  induction lines generalizing rs with
  | nil =>
    cases h
    exact .nil
  | cons line lines ih =>
    simp only [parseLines, hb line (by simp), Bool.false_eq_true, ↓reduceIte] at h
    split at h
    · rename_i r rs' c hr hrs
      cases h
      exact .cons hr (ih (fun l hl => hb l (by simp [hl])) hrs)
    · simp at h
    · cases h

theorem Parsed.records {H : Host} {u : SpoolUnit} (hp : Parsed H u) {rs : List SpoolRecord}
    (hr : u.records = some rs) :
    List.Forall₂ (fun line r => parseRecord H line = .record r) u.lines rs ∧
      validGroup rs = true := by
  have hparse := hp.parse
  unfold parseGroup at hparse
  obtain ⟨⟨rs', c⟩, hlines, hu⟩ := Option.map_eq_some_iff.mp hparse
  dsimp only at hu
  split at hu
  · rw [← hu] at hr
    cases hr
  · rename_i hc
    split at hu
    · rename_i hvalid
      rw [← hu] at hr
      cases hr
      obtain ⟨rfl, hne⟩ : c = 0 ∧ rs ≠ [] := by
        refine ⟨?_, ?_⟩
        · by_contra hc0
          exact hc (.inl hc0)
        · intro hnil
          exact hc (.inr hnil)
      refine ⟨parseLines_forall₂ ?_ hlines, hvalid⟩
      rcases hp.together with ⟨line, hline⟩ | ⟨g, hg⟩
      · -- a single blank line would have no records
        intro l hl
        rw [Bool.eq_false_iff]
        intro hb
        rw [hline, mem_singleton] at hl
        rw [hline, hl.symm] at hlines
        simp only [parseLines, hb, ↓reduceIte, Option.some.injEq, Prod.mk.injEq] at hlines
        exact hne hlines.1.symm
      · intro l hl
        exact not_blank_of_rawGroupId (hg l hl)
    · rw [← hu] at hr
      cases hr

theorem signature_eq {u : SpoolUnit} {σ : Signature} (h : u.signature = some σ) :
    ∃ r rs, u.records = some (r :: rs) ∧
      σ = (r.group_id, (r :: rs).map SpoolRecord.idempotency_key) := by
  unfold SpoolUnit.signature at h
  obtain ⟨rs, hrs, hsig⟩ := Option.bind_eq_some_iff.mp h
  cases rs with
  | nil => cases hsig
  | cons r rs => exact ⟨r, rs, hrs, (Option.some.inj hsig).symm⟩

/-- In a group the records are as many as they say, with the same group id and size. -/
theorem validGroup_spec {r : SpoolRecord} {rs : List SpoolRecord} (h : validGroup (r :: rs) = true)
    (hg : r.group_id ≠ none) :
    r.group_size = some ((r :: rs).length : Int) ∧
      (∀ q ∈ r :: rs, q.group_id = r.group_id ∧ q.group_size = r.group_size) ∧
      (r :: rs).map SpoolRecord.group_index =
        (List.range (r :: rs).length).map fun i : Nat => some (i : Int) := by
  simp only [validGroup, Bool.or_eq_true, Bool.and_eq_true, decide_eq_true_eq, all_eq_true,
    Option.isNone_iff_eq_none] at h
  rcases h with h | ⟨⟨hsize, hall⟩, hindex⟩
  · exact absurd h hg
  · exact ⟨hsize.symm, hall, hindex⟩

/-! ## A batch and the unit that holds it -/

section Unit

variable {H : Host} {b : Batch} {u : SpoolUnit}

theorem Batch.length_safe_keys : b.safe_keys.length = b.records.length := by simp [Batch.safe_keys]

/-- A unit whose lines are the batch's has the batch's signature. -/
theorem signature_of_lines {rs : List SpoolRecord}
    (h : List.Forall₂ (fun line r => parseRecord H line = .record r) (b.lines H) rs) :
    rs.map SpoolRecord.idempotency_key = b.safe_keys ∧ ∀ r ∈ rs, r.group_id = b.group_id := by
  have hlen : (b.lines H).length = rs.length := h.length_eq
  have hget : ∀ (i : Nat) (h₁ : i < (b.lines H).length) (h₂ : i < rs.length),
      parseRecord H (b.lines H)[i] = .record rs[i] := by
    intro i h₁ h₂
    exact h.get h₁ h₂
  refine ⟨?_, ?_⟩
  · apply ext_getElem
    · rw [length_map, ← hlen, Batch.length_lines, Batch.length_safe_keys]
    · intro i h₁ h₂
      rw [length_map, ← hlen] at h₁
      have hkey := (Batch.parse_line h₁ (hget i h₁ (hlen ▸ h₁))).1
      rw [getElem?_eq_getElem h₂] at hkey
      rw [getElem_map]
      exact (Option.some.inj hkey).symm
  · intro r hr
    obtain ⟨i, hi, rfl⟩ := getElem_of_mem hr
    exact (Batch.parse_line (hlen ▸ hi) (hget i (hlen ▸ hi) hi)).2.1

theorem unit_of_batch {σ : Signature} (hp : Parsed H u) (hs : u.signature = some σ)
    (hne : b.records ≠ []) (hin : b.lines H <:+: u.lines) :
    u.lines = b.lines H ∧ σ = b.signature := by
  obtain ⟨r, rs, hrec, rfl⟩ := signature_eq hs
  obtain ⟨hall, hvalid⟩ := hp.records hrec
  have hpos : 0 < (b.lines H).length := by
    rw [Batch.length_lines]
    exact length_pos_iff.mpr hne
  have hmem : (b.lines H)[0] ∈ u.lines := hin.subset (getElem_mem hpos)
  have hgid := Batch.rawGroupId_line (getElem_mem hpos)
  have hlines : u.lines = b.lines H := by
    apply Eq.symm
    apply hin.eq_of_length
    have hlen := hall.length_eq
    rcases hp.together with ⟨line, hline⟩ | ⟨g, hg⟩
    · have hle := hin.length_le
      rw [hline, length_singleton] at hle ⊢
      omega
    · -- a group says how many lines it has
      obtain ⟨q, hq, hparse⟩ := forall₂_exists hall.flip hmem
      obtain ⟨-, hqg, -, hqs⟩ := Batch.parse_line hpos hparse
      have hbg : b.group_id = some g := by rw [← hgid, hg _ hmem]
      rw [hbg, Option.map_some] at hqs
      have hr : r.group_id ≠ none := by
        obtain ⟨line, hline, hr⟩ := forall₂_exists hall mem_cons_self
        rw [group_id_of_parse hr, hg line hline]
        exact Option.some_ne_none g
      obtain ⟨hsize, hsame, -⟩ := validGroup_spec hvalid hr
      rw [← (hsame q hq).2, hqs] at hsize
      have hcount := Option.some.inj hsize
      rw [Batch.length_lines]
      omega
  refine ⟨hlines, ?_⟩
  rw [hlines] at hall
  obtain ⟨hkeys, hgroup⟩ := signature_of_lines hall
  rw [hkeys, hgroup r mem_cons_self]
  rfl

/-- The line reads as a record with the batch's group id and one of its keys. -/
def Batch.Claims (H : Host) (b : Batch) (line : Str) : Prop :=
  ∃ r, parseRecord H line = .record r ∧ r.group_id = b.group_id ∧ r.idempotency_key ∈ b.safe_keys

/-- No line but the batch's own claims its identity. -/
def Batch.Unique (H : Host) (b : Batch) (lines : List Str) : Prop :=
  ∀ line ∈ lines, b.Claims H line → line ∈ b.lines H

theorem batch_of_signature {lines : List Str} (hp : Parsed H u)
    (hs : u.signature = some b.signature) (hsub : ∀ line ∈ u.lines, line ∈ lines)
    (hu : b.Unique H lines) : u.lines = b.lines H := by
  obtain ⟨r, rs, hrec, hsig⟩ := signature_eq hs
  obtain ⟨hall, hvalid⟩ := hp.records hrec
  obtain ⟨hgid, hkeys⟩ := Prod.mk.inj hsig
  change b.group_id = r.group_id at hgid
  change b.safe_keys = _ at hkeys
  have hlen : u.lines.length = (b.lines H).length := by
    rw [hall.length_eq, Batch.length_lines, ← Batch.length_safe_keys, hkeys, length_map]
  have hget : ∀ (i : Nat) (h₁ : i < u.lines.length) (h₂ : i < (r :: rs).length),
      parseRecord H u.lines[i] = .record (r :: rs)[i] := by
    intro i h₁ h₂
    exact hall.get h₁ h₂
  have hgroup : ∀ q ∈ r :: rs, q.group_id = b.group_id := by
    intro q hq
    by_cases hr : r.group_id = none
    · -- a unit without a group id is one line
      rcases hp.together with ⟨line, hline⟩ | ⟨g, hg⟩
      · have hone : (r :: rs).length = 1 := by rw [← hall.length_eq, hline, length_singleton]
        obtain ⟨q', hq'⟩ := length_eq_one_iff.mp hone
        rw [hq', mem_singleton] at hq
        rw [hq, hgid, (List.cons.inj hq').1]
      · obtain ⟨line, hline, hpr⟩ := forall₂_exists hall mem_cons_self
        rw [group_id_of_parse hpr, hg line hline] at hr
        cases hr
    · rw [((validGroup_spec hvalid hr).2.1 q hq).1, hgid]
  have hmem : ∀ (i : Nat) (h : i < u.lines.length), u.lines[i] ∈ b.lines H := by
    intro i h
    have h₂ : i < (r :: rs).length := hall.length_eq ▸ h
    apply hu _ (hsub _ (getElem_mem h))
    refine ⟨(r :: rs)[i], hget i h h₂, hgroup _ (getElem_mem h₂), ?_⟩
    rw [hkeys]
    exact mem_map_of_mem (getElem_mem h₂)
  apply ext_getElem hlen
  intro i h₁ h₂
  obtain ⟨j, hj, hij⟩ := getElem_of_mem (hmem i h₁)
  have h₃ : i < (r :: rs).length := hall.length_eq ▸ h₁
  have hparse := hget i h₁ h₃
  rw [← hij] at hparse
  obtain ⟨-, -, hindex, -⟩ := Batch.parse_line hj hparse
  suffices i = j by
    subst this
    exact hij.symm
  cases hg : b.group_id with
  | none =>
    -- then both are single lines
    have hone : b.records.length ≤ 1 := by
      by_contra hlt
      rw [Batch.group_id, if_pos (by omega)] at hg
      cases hg
    rw [Batch.length_lines] at h₂ hj
    omega
  | some g =>
    have hr : r.group_id ≠ none := by
      rw [← hgid, hg]
      exact Option.some_ne_none g
    have hrange := (validGroup_spec hvalid hr).2.2
    have hi := congrArg (fun l => l[i]?) hrange
    simp only [getElem?_map, getElem?_eq_getElem h₃, getElem?_range h₃,
      Option.map_some] at hi
    rw [hindex, hg, Option.map_some] at hi
    have := Option.some.inj (Option.some.inj hi)
    omega

end Unit

end OpenBrain.Memory.Spool
