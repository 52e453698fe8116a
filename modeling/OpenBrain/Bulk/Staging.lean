import OpenBrain.Core.Assoc
import OpenBrain.Core.Table
import OpenBrain.Core.Utf16
import Mathlib.Data.List.Sort

/-!
# The staging store (`apps/bulk/staging.py`)

Two tables: the staged turns with their place in the order and the `sent` flag, and the quarantine
by turn id. `stage` is one transaction, `mark_sent` is two: the connection commits every statement
by itself (`isolation_level=None`).

The turns are of any type with a `turn_uuid`. Their JSON text is compared only for equality, which
is the equality of the turns.
-/
namespace OpenBrain.Bulk
open OpenBrain.Core List

variable {T : Type}

/-- A row of `staged_turn`; mirrors staging.py:80-85 -/
structure StagedRow (T : Type) where
  stage_index : Nat
  turn : T
  sent : Bool
  deriving DecidableEq

/-- `staged_turn`, and `quarantine` by `turn_uuid`; mirrors staging.py:80-90 -/
structure Store (T : Type) where
  staged : List (StagedRow T)
  quarantine : List (Str × (T × Str))
  deriving DecidableEq

/-- A new file. -/
def Store.empty : Store T := ⟨[], []⟩

def Store.turns (st : Store T) : List T := st.staged.map StagedRow.turn

variable (turn_uuid : T → Str)

/-- mirrors staging.py:330-340 -/
def next_index (st : Store T) : Nat :=
  match (st.staged.map StagedRow.stage_index).max? with
  | none => 0
  | some highest => highest + 1

/-- `DELETE FROM quarantine WHERE turn_uuid = ?` -/
def release (st : Store T) (uuid : Str) : Store T :=
  { st with quarantine := st.quarantine.filter fun e => e.1 ≠ uuid }

/-- The new state of the transaction and the number of rows; `none` is a turn id that is staged for
other data, or a taken index. mirrors staging.py:177-199 -/
def stage_turn [DecidableEq T] (st : Store T) (stage_index : Nat) (turn : T) : Option (Store T × Nat) :=
  match st.staged.find? fun row => turn_uuid row.turn = turn_uuid turn with
  | some existing =>
    if existing.turn ≠ turn then none
    else if existing.sent then some (release st (turn_uuid turn), 0)
    else some (st, 0)
  | none =>
    if st.staged.any fun row => row.stage_index = stage_index then none
    else some ({ st with staged := st.staged ++ [⟨stage_index, turn, false⟩] }, 1)

/-- The loop of `stage`, with the number of turns staged so far. -/
def stageLoop [DecidableEq T] (start : Nat) : Store T → Nat → List T → Option (Store T × Nat)
  | st, staged, [] => some (st, staged)
  | st, staged, turn :: turns =>
    match stage_turn turn_uuid st (start + staged) turn with
    | none => none
    | some (st', count) => stageLoop start st' (staged + count) turns

/-- mirrors staging.py:153-175 -/
def stage [DecidableEq T] (st : Store T) (turns : List T) : Option (Store T × Nat) :=
  stageLoop turn_uuid (next_index st) st 0 turns

/-- `SELECT … WHERE sent = 0 ORDER BY stage_index`; mirrors staging.py:246-263 -/
def pending (st : Store T) : List T :=
  ((st.staged.filter fun row => !row.sent).insertionSort
    fun a b => a.stage_index ≤ b.stage_index).map StagedRow.turn

/-- The first statement of `mark_sent`; mirrors staging.py:272-276 -/
def markUpdate (st : Store T) (uuid : Str) : Store T :=
  { st with
    staged := Table.updateWhere (fun row => turn_uuid row.turn = uuid)
      (fun row => { row with sent := true }) st.staged }

/-- mirrors staging.py:281-301 -/
def quarantine (st : Store T) (turn : T) (error : Str) : Store T :=
  { st with quarantine := Assoc.set st.quarantine (turn_uuid turn) (turn, error) }

/-! ## What each operation does to the two tables -/

/-- The rows of one table are in the other, with their place and their turn, and none of them goes
back to unsent. -/
def Kept (rows rows' : List (StagedRow T)) : Prop :=
  ∀ row ∈ rows, ∃ row' ∈ rows', row'.stage_index = row.stage_index ∧ row'.turn = row.turn ∧
    (row.sent = true → row'.sent = true)

theorem Kept.refl (rows : List (StagedRow T)) : Kept rows rows :=
  fun row hrow => ⟨row, hrow, rfl, rfl, id⟩

theorem Kept.trans {a b c : List (StagedRow T)} (hab : Kept a b) (hbc : Kept b c) : Kept a c := by
  intro row hrow
  obtain ⟨row₁, h₁, hi₁, ht₁, hs₁⟩ := hab row hrow
  obtain ⟨row₂, h₂, hi₂, ht₂, hs₂⟩ := hbc row₁ h₁
  exact ⟨row₂, h₂, hi₂.trans hi₁, ht₂.trans ht₁, hs₂ ∘ hs₁⟩

theorem Kept.of_extends {rows rows' : List (StagedRow T)} (h : rows <+: rows') : Kept rows rows' :=
  fun row hrow => ⟨row, h.subset hrow, rfl, rfl, id⟩

variable {turn_uuid} {st st' : Store T}

@[simp] theorem release_staged (st : Store T) (uuid : Str) : (release st uuid).staged = st.staged := rfl

@[simp] theorem markUpdate_quarantine (st : Store T) (uuid : Str) :
    (markUpdate turn_uuid st uuid).quarantine = st.quarantine := rfl

@[simp] theorem quarantine_staged (st : Store T) (turn : T) (error : Str) :
    (quarantine turn_uuid st turn error).staged = st.staged := rfl

theorem turns_markUpdate (st : Store T) (uuid : Str) :
    (markUpdate turn_uuid st uuid).turns = st.turns :=
  Table.column_updateWhere fun _ => rfl

theorem kept_markUpdate (st : Store T) (uuid : Str) :
    Kept st.staged (markUpdate turn_uuid st uuid).staged := by
  intro row hrow
  refine ⟨_, mem_map_of_mem hrow, ?_⟩
  split <;> simp

theorem sent_markUpdate {uuid : Str} {row : StagedRow T}
    (hrow : row ∈ (markUpdate turn_uuid st uuid).staged) (hs : row.sent = true) :
    turn_uuid row.turn = uuid ∨ ∃ old ∈ st.staged, old.turn = row.turn ∧ old.sent = true := by
  rcases Table.mem_updateWhere.mp hrow with ⟨hrow, _⟩ | ⟨old, _, hu, rfl⟩
  · exact .inr ⟨row, hrow, rfl, hs⟩
  · exact .inl (of_decide_eq_true hu)

section
variable [DecidableEq T]

theorem stage_turn_cases {stage_index : Nat} {turn : T} {count : Nat}
    (h : stage_turn turn_uuid st stage_index turn = some (st', count)) :
    (st'.staged = st.staged ∧ count = 0 ∧ turn ∈ st.turns ∨
      st'.staged = st.staged ++ [⟨stage_index, turn, false⟩] ∧ count = 1 ∧
        turn_uuid turn ∉ st.staged.map fun row => turn_uuid row.turn) ∧
      st'.quarantine.Sublist st.quarantine := by
  simp only [stage_turn] at h
  split at h
  · rename_i existing hf
    have hmem := mem_of_find?_eq_some hf
    split at h
    · cases h
    · rename_i heq
      have hturn : turn ∈ st.turns :=
        mem_map.mpr ⟨existing, hmem, not_not.mp heq⟩
      split at h
      · cases h
        exact ⟨.inl ⟨rfl, rfl, hturn⟩, filter_sublist⟩
      · cases h
        exact ⟨.inl ⟨rfl, rfl, hturn⟩, .refl _⟩
  · rename_i hf
    split at h
    · cases h
    · cases h
      refine ⟨.inr ⟨rfl, rfl, ?_⟩, .refl _⟩
      simpa [find?_eq_none] using hf

end

def Distinct (turn_uuid : T → Str) (st : Store T) : Prop :=
  (st.staged.map fun row => turn_uuid row.turn).Nodup

theorem Distinct.stage_turn [DecidableEq T] {stage_index : Nat} {turn : T} {count : Nat}
    (hd : Distinct turn_uuid st) (h : stage_turn turn_uuid st stage_index turn = some (st', count)) :
    Distinct turn_uuid st' := by
  unfold Distinct at hd ⊢
  rcases (stage_turn_cases h).1 with ⟨hs, -, -⟩ | ⟨hs, -, hn⟩
  · rw [hs]
    exact hd
  · rw [hs, map_append]
    refine nodup_append.mpr ⟨hd, nodup_singleton _, ?_⟩
    intro a ha b hb hab
    rw [map_singleton, mem_singleton] at hb
    exact hn (hb ▸ hab ▸ ha)

theorem Distinct.eq (hd : Distinct turn_uuid st) {row row' : StagedRow T} (h : row ∈ st.staged)
    (h' : row' ∈ st.staged) (hu : turn_uuid row.turn = turn_uuid row'.turn) : row = row' :=
  Table.eq_of_key hd h h' hu

theorem Distinct.markUpdate (hd : Distinct turn_uuid st) (uuid : Str) :
    Distinct turn_uuid (markUpdate turn_uuid st uuid) := by
  have hcol : (Bulk.markUpdate turn_uuid st uuid).staged.map (fun row => turn_uuid row.turn) =
      st.staged.map fun row => turn_uuid row.turn := Table.column_updateWhere fun _ => rfl
  unfold Distinct
  rw [hcol]
  exact hd

theorem Distinct.turn_eq (hd : Distinct turn_uuid st) {row : StagedRow T} {turn : T}
    (h : row ∈ st.staged) (hturn : turn ∈ st.turns) (hu : turn_uuid row.turn = turn_uuid turn) :
    row.turn = turn := by
  obtain ⟨row', hrow', rfl⟩ := mem_map.mp hturn
  rw [hd.eq h hrow' hu]

theorem stage_turn_staged [DecidableEq T] (k : Nat) {turn : T} (hd : Distinct turn_uuid st)
    (hturn : turn ∈ st.turns) :
    ∃ st', stage_turn turn_uuid st k turn = some (st', 0) ∧ st'.staged = st.staged := by
  obtain ⟨row, hrow, rfl⟩ := mem_map.mp hturn
  unfold stage_turn
  cases hf : st.staged.find? fun r => turn_uuid r.turn = turn_uuid row.turn with
  | none => simpa using find?_eq_none.mp hf row hrow
  | some existing =>
    have hu : turn_uuid existing.turn = turn_uuid row.turn := by simpa using find?_some hf
    have heq := hd.eq (mem_of_find?_eq_some hf) hrow hu
    subst heq
    by_cases hs : existing.sent = true <;> simp [hs]

theorem stage_turn_extends [DecidableEq T] {stage_index : Nat} {turn : T} {count : Nat}
    (h : stage_turn turn_uuid st stage_index turn = some (st', count)) :
    st.staged <+: st'.staged ∧ turn ∈ st'.turns := by
  rcases (stage_turn_cases h).1 with ⟨hs, -, hturn⟩ | ⟨hs, -, -⟩
  · rw [Store.turns, hs]
    exact ⟨prefix_rfl, hturn⟩
  · rw [Store.turns, hs]
    exact ⟨prefix_append _ _, by simp⟩

theorem mem_pending {turn : T} :
    turn ∈ pending st ↔ ∃ row ∈ st.staged, row.sent = false ∧ row.turn = turn := by
  simp [pending, mem_insertionSort, and_assoc]

theorem pending_subset (st : Store T) : pending st ⊆ st.turns := by
  intro turn h
  obtain ⟨row, hrow, -, rfl⟩ := mem_pending.mp h
  exact mem_map_of_mem hrow

/-! ## A whole call of `stage` -/

variable [DecidableEq T] {start n n' : Nat} {turns : List T}

theorem stageLoop_extends (h : stageLoop turn_uuid start st n turns = some (st', n')) :
    st.staged <+: st'.staged ∧ ∀ turn ∈ turns, turn ∈ st'.turns := by
  induction turns generalizing st n with
  | nil =>
    cases h
    exact ⟨prefix_rfl, fun _ h => nomatch h⟩
  | cons turn turns ih =>
    simp only [stageLoop] at h
    split at h
    · cases h
    · rename_i st₁ count h₁
      obtain ⟨hp, ht⟩ := stage_turn_extends h₁
      obtain ⟨hp', ht'⟩ := ih h
      refine ⟨hp.trans hp', fun t hmem => ?_⟩
      rcases mem_cons.mp hmem with rfl | hmem
      · exact (hp'.map StagedRow.turn).subset ht
      · exact ht' t hmem

/-- A source whose turns are all staged is staged again without a conflict, and no turn changes. -/
theorem stageLoop_staged (start n : Nat) (hd : Distinct turn_uuid st)
    (hturns : ∀ turn ∈ turns, turn ∈ st.turns) :
    ∃ st', stageLoop turn_uuid start st n turns = some (st', n) ∧ st'.staged = st.staged := by
  induction turns generalizing st with
  | nil => exact ⟨st, rfl, rfl⟩
  | cons turn turns ih =>
    obtain ⟨st₁, h₁, hs₁⟩ :=
      stage_turn_staged (start + n) hd (hturns turn mem_cons_self)
    have hd₁ : Distinct turn_uuid st₁ := hd.stage_turn h₁
    obtain ⟨st₂, h₂, hs₂⟩ := ih hd₁ fun t ht => by
      rw [Store.turns, hs₁]
      exact hturns t (mem_cons_of_mem turn ht)
    refine ⟨st₂, ?_, hs₂.trans hs₁⟩
    simp only [stageLoop, h₁]
    exact h₂

/-! ## When nothing conflicts -/

def Agree (turn_uuid : T → Str) (turns : List T) : Prop :=
  ∀ a ∈ turns, ∀ b ∈ turns, turn_uuid a = turn_uuid b → a = b

omit [DecidableEq T] in
theorem Agree.congr {ts us : List T} (h : ∀ t, t ∈ ts ↔ t ∈ us) :
    Agree turn_uuid ts ↔ Agree turn_uuid us := by
  simp only [Agree, h]

omit [DecidableEq T] in

omit [DecidableEq T] in
theorem lt_next_index {row : StagedRow T} (h : row ∈ st.staged) : row.stage_index < next_index st := by
  have hmem := mem_map_of_mem (f := StagedRow.stage_index) h
  unfold next_index
  split
  · rename_i hnone
    rw [max?_eq_none_iff] at hnone
    rw [hnone] at hmem
    cases hmem
  · rename_i highest hmax
    have hle := (max?_eq_some_iff.mp hmax).2 _ hmem
    omega

theorem mem_turns_stage_turn {k count : Nat} {turn : T}
    (h : stage_turn turn_uuid st k turn = some (st', count)) (t : T) :
    t ∈ st'.turns ↔ t ∈ st.turns ∨ t = turn := by
  unfold Store.turns
  rcases (stage_turn_cases h).1 with ⟨hs, -, hturn⟩ | ⟨hs, -, -⟩
  · rw [hs]
    constructor
    · exact .inl
    · rintro (ht | rfl)
      · exact ht
      · exact hturn
  · simp [hs]

/-- A free index fails only on other data under the same id. -/
theorem stage_turn_none {k : Nat} {turn : T} (hk : ∀ row ∈ st.staged, row.stage_index < k)
    (h : stage_turn turn_uuid st k turn = none) :
    ∃ t ∈ st.turns, turn_uuid t = turn_uuid turn ∧ t ≠ turn := by
  simp only [stage_turn] at h
  split at h
  · rename_i existing hf
    split at h
    · rename_i hne
      exact ⟨existing.turn, mem_map_of_mem (mem_of_find?_eq_some hf),
        by simpa using find?_some hf, hne⟩
    · split at h <;> cases h
  · split at h
    · rename_i hany
      obtain ⟨row, hrow, hi⟩ := any_eq_true.mp hany
      have := hk row hrow
      have := of_decide_eq_true hi
      omega
    · cases h

theorem stage_turn_index {k count : Nat} {turn : T} (hk : ∀ row ∈ st.staged, row.stage_index < k)
    (h : stage_turn turn_uuid st k turn = some (st', count)) :
    ∀ row ∈ st'.staged, row.stage_index < k + count := by
  intro row hrow
  rcases (stage_turn_cases h).1 with ⟨hs, hc, -⟩ | ⟨hs, hc, -⟩
  · rw [hs] at hrow
    have := hk row hrow
    omega
  · rw [hs] at hrow
    rcases mem_append.mp hrow with hrow | hrow
    · have := hk row hrow
      omega
    · rw [mem_singleton.mp hrow]
      show k < k + count
      omega

/-- The loop goes through exactly when the turns agree, those in the store included. -/
theorem stageLoop_isSome_iff (hd : Distinct turn_uuid st)
    (hk : ∀ row ∈ st.staged, row.stage_index < start + n) :
    (stageLoop turn_uuid start st n turns).isSome = true ↔ Agree turn_uuid (st.turns ++ turns) := by
  induction turns generalizing st n with
  | nil =>
    refine ⟨fun _ => ?_, fun _ => rfl⟩
    intro a ha b hb hu
    rw [append_nil] at ha hb
    obtain ⟨row, hrow, rfl⟩ := mem_map.mp ha
    exact hd.turn_eq hrow hb hu
  | cons turn turns ih =>
    simp only [stageLoop]
    cases hs : stage_turn turn_uuid st (start + n) turn with
    | none =>
      obtain ⟨t, ht, hu, hne⟩ := stage_turn_none hk hs
      simp only [Option.isSome_none, Bool.false_eq_true, false_iff]
      exact fun hagree => hne (hagree t (mem_append_left _ ht) turn (by simp) hu)
    | some r =>
      obtain ⟨st₁, count⟩ := r
      have hk₁ := stage_turn_index hk hs
      rw [Nat.add_assoc] at hk₁
      simp only
      rw [ih (hd.stage_turn hs) hk₁]
      apply Agree.congr
      intro t
      simp [mem_turns_stage_turn hs t, or_assoc]

theorem stage_isSome_iff (hd : Distinct turn_uuid st) (turns : List T) :
    (stage turn_uuid st turns).isSome = true ↔ Agree turn_uuid (st.turns ++ turns) :=
  stageLoop_isSome_iff hd fun _ hrow => lt_next_index hrow

end OpenBrain.Bulk
