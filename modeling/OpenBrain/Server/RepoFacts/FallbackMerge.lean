import OpenBrain.Core.Json
import Mathlib.Data.List.Nodup

/-!
# Repo facts of the legacy namespace (`domain/repo-facts-model.ts`)

A read of the shared namespace that comes back thin is filled up with rows of the legacy one, each
identity once. `merge_law` says what the merged rows are, and what the identity is of rows that
carry it in their metadata.
-/
namespace OpenBrain.Server.RepoFacts
open OpenBrain.Core List

variable {ν : Type}

/-! ## Identities -/

/-- A row of `REPO_FACT_COLUMNS`, as far as the merge reads it. -/
structure RepoFactRow (ν : Type) where
  id : Str
  entity_type : Option Str
  name : Option Str
  canonical_id : Option Str
  metadata : Option (Json ν)

def member (metadata : Members ν) (key : String) : Option (Json ν) :=
  match metadata.lookup (units key) with
  | some .null | none => none
  | some value => some value

section Key
variable (stringOf : Json ν → Str)

/-- `stringOf` is JavaScript's `String()`. mirrors repo-facts-model.ts:319-323 -/
def keyPart : Option (Json ν) → Str
  | some (.str s) => s
  | some .null | none => []
  | some value => stringOf value

/-- An object's members; an array or scalar has none of the four. -/
def metadataOf (row : RepoFactRow ν) : Members ν :=
  match row.metadata with
  | some (.obj ms) => ms
  | _ => []

/-- The repo, path, subject and fact type of a row's metadata. -/
structure Parts where
  repo : Str
  path : Str
  subject : Str
  fact_type : Str
  deriving DecidableEq

def partsOf (row : RepoFactRow ν) : Parts :=
  let metadata := metadataOf row
  { repo := keyPart stringOf (member metadata "repo")
    path := keyPart stringOf (member metadata "path")
    subject := keyPart stringOf ((member metadata "subject").or (member metadata "symbol"))
    fact_type := keyPart stringOf (member metadata "fact_type") }

def COLON : UInt16 := unit ':'

def Parts.text (parts : Parts) : Str :=
  parts.repo ++ COLON :: (parts.path ++ COLON :: (parts.subject ++ COLON :: parts.fact_type))

/-- mirrors repo-facts-model.ts:329-337 -/
def metadataDedupeKey (row : RepoFactRow ν) : Option Str :=
  let key := (partsOf stringOf row).text
  if key = units ":::" then none else some key

def nameKey (row : RepoFactRow ν) : Option Str :=
  match row.name with
  | none | some [] => none
  | some name => some (row.entity_type.getD [] ++ COLON :: name)

/-- mirrors repo-facts-model.ts:339-346 -/
def repoFactDedupeKey (row : RepoFactRow ν) : Str :=
  (((row.canonical_id.or (nameKey row)).or (metadataDedupeKey stringOf row)).or (some row.id)).getD []

/-! ## The merge -/

/-- The loop behind the keys it has seen. mirrors repo-facts-model.ts:348-358 -/
def dedupeFrom (seen : List Str) : List (RepoFactRow ν) → List (RepoFactRow ν)
  | [] => []
  | row :: rows =>
    let key := repoFactDedupeKey stringOf row
    if key ∈ seen then dedupeFrom seen rows else row :: dedupeFrom (key :: seen) rows

def dedupeRepoFactRows (rows : List (RepoFactRow ν)) : List (RepoFactRow ν) :=
  dedupeFrom stringOf [] rows

/-- mirrors repo-facts-model.ts:360-380 -/
def mergeRepoFactFallbackRows (primaryRows legacyRows : List (RepoFactRow ν)) (limit : Nat) :
    List (RepoFactRow ν) :=
  let primary := dedupeRepoFactRows stringOf primaryRows
  let primaryKeys := primary.map (repoFactDedupeKey stringOf)
  let legacy := dedupeRepoFactRows stringOf
    (legacyRows.filter fun row => !primaryKeys.contains (repoFactDedupeKey stringOf row))
  match legacy with
  | [] => primary.take limit
  | fallbackRow :: _ =>
    if limit ≤ primary.length then primary.take (limit - 1) ++ [fallbackRow]
    else primary ++ legacy.take (limit - primary.length)

/-! ## What the merge is to be -/

def freshRows (known : List Str) (rows : List (RepoFactRow ν)) : List (RepoFactRow ν) :=
  rows.zipIdx.filterMap fun (row, i) =>
    if repoFactDedupeKey stringOf row ∈ known ++ (rows.take i).map (repoFactDedupeKey stringOf) then
      none
    else some row

/-- The merged rows: the primaries, then the legacy rows that are new, as many as there is room
for; primaries that leave no room give their last place to the first of these. -/
structure MergeLaw (primaryRows legacyRows : List (RepoFactRow ν)) (limit : Nat)
    (merged : List (RepoFactRow ν)) : Prop where
  length_le : merged.length ≤ limit
  distinct : (merged.map (repoFactDedupeKey stringOf)).Nodup
  rows : ∃ primary legacy : List (RepoFactRow ν),
    primary = freshRows stringOf [] primaryRows ∧
    legacy = freshRows stringOf (primaryRows.map (repoFactDedupeKey stringOf)) legacyRows ∧
    ((primary.length < limit ∨ legacy = []) → merged = (primary ++ legacy).take limit) ∧
    (limit ≤ primary.length → ∀ row, legacy.head? = some row →
      merged = primary.take (limit - 1) ++ [row])

/-- A row that carries its identity in its metadata, with no separator in it. -/
structure CarriesParts (row : RepoFactRow ν) : Prop where
  canonical_id : row.canonical_id = none
  name : row.name = none ∨ row.name = some []
  some_part : partsOf stringOf row ≠ ⟨[], [], [], []⟩
  repo : COLON ∉ (partsOf stringOf row).repo
  path : COLON ∉ (partsOf stringOf row).path
  subject : COLON ∉ (partsOf stringOf row).subject

/-! ## Rows seen before -/

section Fresh
variable {stringOf} {known known' : List Str} {rows : List (RepoFactRow ν)}

theorem freshRows_cons (row : RepoFactRow ν) : freshRows stringOf known (row :: rows) =
    (if repoFactDedupeKey stringOf row ∈ known then [] else [row]) ++
      freshRows stringOf (repoFactDedupeKey stringOf row :: known) rows := by
  unfold freshRows
  rw [zipIdx_cons, zipIdx_succ, filterMap_cons, filterMap_map]
  have hrest : (rows.zipIdx.filterMap ((fun (x : RepoFactRow ν × Nat) =>
        if repoFactDedupeKey stringOf x.1 ∈
            known ++ ((row :: rows).take x.2).map (repoFactDedupeKey stringOf) then none
        else some x.1) ∘ fun x => (x.1, x.2 + 1))) =
      rows.zipIdx.filterMap fun x =>
        if repoFactDedupeKey stringOf x.1 ∈ (repoFactDedupeKey stringOf row :: known) ++
            (rows.take x.2).map (repoFactDedupeKey stringOf) then none
        else some x.1 := by
    apply filterMap_congr
    intro x _
    simp only [Function.comp_apply, take_succ_cons, map_cons]
    congr 1
    simp only [mem_append, mem_cons]
    grind
  rw [hrest]
  simp only [take_zero, map_nil, append_nil]
  by_cases hrow : repoFactDedupeKey stringOf row ∈ known
  · rw [if_pos hrow, if_pos hrow]
    rfl
  · rw [if_neg hrow, if_neg hrow]
    rfl

theorem freshRows_congr (h : ∀ key, key ∈ known ↔ key ∈ known') :
    freshRows stringOf known rows = freshRows stringOf known' rows := by
  unfold freshRows
  apply filterMap_congr
  intro x _
  congr 1
  simp only [mem_append, h]

/-- The loop keeps the rows that are new. -/
theorem dedupeFrom_eq (rows : List (RepoFactRow ν)) :
    dedupeFrom stringOf known rows = freshRows stringOf known rows := by
  induction rows generalizing known with
  | nil => rfl
  | cons row rows ih =>
    rw [dedupeFrom, freshRows_cons]
    split
    · rename_i hseen
      rw [ih, nil_append]
      apply freshRows_congr
      intro key
      simp only [mem_cons]
      constructor
      · exact Or.inr
      · rintro (rfl | h)
        · exact hseen
        · exact h
    · rw [ih]
      rfl

theorem nodup_freshRows (rows : List (RepoFactRow ν)) :
    ((freshRows stringOf known rows).map (repoFactDedupeKey stringOf)).Nodup ∧
      ∀ row ∈ freshRows stringOf known rows, repoFactDedupeKey stringOf row ∉ known := by
  induction rows generalizing known with
  | nil => exact ⟨nodup_nil, fun _ h => nomatch h⟩
  | cons row rows ih =>
    obtain ⟨hnodup, hnew⟩ := @ih (repoFactDedupeKey stringOf row :: known)
    rw [freshRows_cons]
    split
    · exact ⟨hnodup, fun other h hknown => hnew other h (mem_cons_of_mem _ hknown)⟩
    · rename_i hrow
      constructor
      · rw [singleton_append, map_cons, nodup_cons]
        refine ⟨fun hmem => ?_, hnodup⟩
        obtain ⟨other, hother, hkey⟩ := mem_map.mp hmem
        exact hnew other hother (by rw [hkey]; exact mem_cons_self)
      · rintro other hother
        rcases mem_cons.mp hother with rfl | hother
        · exact hrow
        · exact fun hknown => hnew other hother (mem_cons_of_mem _ hknown)

theorem key_mem_freshRows {row : RepoFactRow ν} (h : row ∈ rows) :
    repoFactDedupeKey stringOf row ∈ known ∨ repoFactDedupeKey stringOf row ∈
      (freshRows stringOf known rows).map (repoFactDedupeKey stringOf) := by
  induction rows generalizing known with
  | nil => cases h
  | cons first rows ih =>
    rw [freshRows_cons, map_append, mem_append]
    rcases mem_cons.mp h with rfl | h
    · by_cases hknown : repoFactDedupeKey stringOf row ∈ known
      · exact Or.inl hknown
      · rw [if_neg hknown]
        exact Or.inr (Or.inl (mem_singleton_self _))
    · rcases @ih (repoFactDedupeKey stringOf first :: known) h with hmem | hmem
      · rcases mem_cons.mp hmem with heq | hknown
        · by_cases hfirst : repoFactDedupeKey stringOf first ∈ known
          · exact Or.inl (heq ▸ hfirst)
          · rw [if_neg hfirst, heq]
            exact Or.inr (Or.inl (mem_singleton_self _))
        · exact Or.inl hknown
      · exact Or.inr (Or.inr hmem)

theorem mem_of_mem_freshRows {row : RepoFactRow ν} (h : row ∈ freshRows stringOf known rows) :
    row ∈ rows := by
  unfold freshRows at h
  obtain ⟨⟨other, i⟩, hmem, hrow⟩ := mem_filterMap.mp h
  dsimp only at hrow
  split at hrow
  · cases hrow
  · cases hrow
    exact (mem_zipIdx' hmem).2 ▸ getElem_mem _

theorem freshRows_filter (rows : List (RepoFactRow ν)) (seen : List Str) :
    freshRows stringOf seen
        (rows.filter fun row => !known.contains (repoFactDedupeKey stringOf row)) =
      freshRows stringOf (seen ++ known) rows := by
  induction rows generalizing seen with
  | nil => rfl
  | cons row rows ih =>
    rw [@freshRows_cons _ _ (seen ++ known)]
    by_cases hknown : repoFactDedupeKey stringOf row ∈ known
    · rw [filter_cons_of_neg (by simpa using hknown), ih,
        if_pos (mem_append_right _ hknown), nil_append]
      apply freshRows_congr
      intro key
      simp only [mem_append, mem_cons]
      grind
    · rw [filter_cons_of_pos (by simpa using hknown), freshRows_cons, ih, cons_append]
      congr 1
      simp [hknown]

end Fresh

/-! ## The merge -/

section Merge
variable {stringOf} {primaryRows legacyRows : List (RepoFactRow ν)} {limit : Nat}

theorem merge_eq (primaryRows legacyRows : List (RepoFactRow ν)) (limit : Nat) :
    mergeRepoFactFallbackRows stringOf primaryRows legacyRows limit =
      match freshRows stringOf (primaryRows.map (repoFactDedupeKey stringOf)) legacyRows with
      | [] => (freshRows stringOf [] primaryRows).take limit
      | row :: rows =>
        if limit ≤ (freshRows stringOf [] primaryRows).length then
          (freshRows stringOf [] primaryRows).take (limit - 1) ++ [row]
        else freshRows stringOf [] primaryRows ++
          (row :: rows).take (limit - (freshRows stringOf [] primaryRows).length) := by
  -- the keys of the primaries kept are those of all primaries
  have hkeys : ∀ key, key ∈ (freshRows stringOf [] primaryRows).map (repoFactDedupeKey stringOf) ↔
      key ∈ primaryRows.map (repoFactDedupeKey stringOf) := by
    intro key
    constructor
    · intro h
      obtain ⟨row, hrow, rfl⟩ := mem_map.mp h
      exact mem_map_of_mem (mem_of_mem_freshRows hrow)
    · intro h
      obtain ⟨row, hrow, rfl⟩ := mem_map.mp h
      exact (key_mem_freshRows hrow).resolve_left not_mem_nil
  unfold mergeRepoFactFallbackRows dedupeRepoFactRows
  dsimp only
  rw [dedupeFrom_eq, dedupeFrom_eq, freshRows_filter, nil_append, freshRows_congr hkeys]
  cases freshRows stringOf (primaryRows.map (repoFactDedupeKey stringOf)) legacyRows <;> rfl

theorem nodup_keys_append {primary legacy : List (RepoFactRow ν)}
    (hprimary : primary.Sublist (freshRows stringOf [] primaryRows))
    (hlegacy : legacy.Sublist
      (freshRows stringOf (primaryRows.map (repoFactDedupeKey stringOf)) legacyRows)) :
    ((primary ++ legacy).map (repoFactDedupeKey stringOf)).Nodup := by
  rw [map_append, nodup_append']
  refine ⟨(hprimary.map _).nodup (nodup_freshRows primaryRows).1,
    (hlegacy.map _).nodup (nodup_freshRows legacyRows).1, ?_⟩
  intro key hkey hkey'
  obtain ⟨row, hrow, rfl⟩ := mem_map.mp hkey
  obtain ⟨row', hrow', hsame⟩ := mem_map.mp hkey'
  apply (nodup_freshRows legacyRows).2 row' (hlegacy.subset hrow')
  rw [hsame]
  exact mem_map_of_mem (mem_of_mem_freshRows (hprimary.subset hrow))

theorem merge_rows (hlimit : 1 ≤ limit) : MergeLaw stringOf primaryRows legacyRows limit
    (mergeRepoFactFallbackRows stringOf primaryRows legacyRows limit) := by
  rw [merge_eq]
  generalize hp : freshRows stringOf [] primaryRows = primary
  cases hl : freshRows stringOf (primaryRows.map (repoFactDedupeKey stringOf)) legacyRows with
  | nil =>
    dsimp only
    refine ⟨length_take_le _ _, ?_, primary, [], hp.symm, hl.symm, ?_, ?_⟩
    · rw [← hp]
      exact ((take_sublist _ _).map _).nodup (nodup_freshRows primaryRows).1
    · intro _
      rw [append_nil]
    · intro _ row hrow
      cases hrow
  | cons row rows =>
    dsimp only
    have hlegacy : ∀ n, ((row :: rows).take n).Sublist
        (freshRows stringOf (primaryRows.map (repoFactDedupeKey stringOf)) legacyRows) := by
      intro n
      rw [hl]
      exact take_sublist _ _
    split
    · rename_i hfull
      refine ⟨?_, ?_, primary, row :: rows, hp.symm, hl.symm, ?_, ?_⟩
      · rw [length_append, length_take, length_singleton]
        omega
      · exact nodup_keys_append (by rw [hp]; exact take_sublist _ _) (hlegacy 1)
      · rintro (hroom | hnil)
        · omega
        · cases hnil
      · intro _ other hother
        cases hother
        rfl
    · rename_i hroom
      refine ⟨?_, ?_, primary, row :: rows, hp.symm, hl.symm, ?_, ?_⟩
      · rw [length_append, length_take]
        omega
      · exact nodup_keys_append (by rw [hp]) (hlegacy _)
      · intro _
        rw [take_append, take_of_length_le (Nat.le_of_not_le hroom)]
      · intro hfull
        omega

end Merge

/-! ## Identities in the metadata -/

theorem append_colon_inj {a b s t : Str} (ha : COLON ∉ a) (hb : COLON ∉ b) :
    a ++ COLON :: s = b ++ COLON :: t ↔ a = b ∧ s = t := by
  constructor
  · intro h
    induction a generalizing b with
    | nil =>
      cases b with
      | nil => exact ⟨rfl, (List.cons.inj h).2⟩
      | cons v b => exact absurd (List.cons.inj h).1 fun heq => hb (heq ▸ mem_cons_self)
    | cons u a ih =>
      cases b with
      | nil => exact absurd (List.cons.inj h).1 fun heq => ha (heq ▸ mem_cons_self)
      | cons v b =>
        obtain ⟨huv, hrest⟩ := List.cons.inj h
        obtain ⟨hab, hst⟩ :=
          ih (not_mem_of_not_mem_cons ha) (not_mem_of_not_mem_cons hb) hrest
        exact ⟨by rw [huv, hab], hst⟩
  · rintro ⟨rfl, rfl⟩
    rfl

theorem parts_text_eq_iff {p q : Parts} (hp : COLON ∉ p.repo ∧ COLON ∉ p.path ∧ COLON ∉ p.subject)
    (hq : COLON ∉ q.repo ∧ COLON ∉ q.path ∧ COLON ∉ q.subject) : p.text = q.text ↔ p = q := by
  unfold Parts.text
  rw [append_colon_inj hp.1 hq.1, append_colon_inj hp.2.1 hq.2.1, append_colon_inj hp.2.2 hq.2.2]
  obtain ⟨repo, path, subject, fact_type⟩ := p
  obtain ⟨repo', path', subject', fact_type'⟩ := q
  rw [Parts.mk.injEq]

theorem repoFactDedupeKey_parts {row : RepoFactRow ν} (h : CarriesParts stringOf row) :
    repoFactDedupeKey stringOf row = (partsOf stringOf row).text := by
  have hname : nameKey row = none := by
    unfold nameKey
    rcases h.name with hname | hname <;> rw [hname]
  have hempty : (partsOf stringOf row).text ≠ units ":::" := by
    intro heq
    apply h.some_part
    refine (parts_text_eq_iff ⟨h.repo, h.path, h.subject⟩ ?_).mp heq
    exact ⟨not_mem_nil, not_mem_nil, not_mem_nil⟩
  unfold repoFactDedupeKey metadataDedupeKey
  rw [h.canonical_id, hname, if_neg hempty]
  rfl

end Key

section Example

def namedRow (name : String) : RepoFactRow Nat := ⟨units name, none, some (units name), none, none⟩

end Example

end OpenBrain.Server.RepoFacts
