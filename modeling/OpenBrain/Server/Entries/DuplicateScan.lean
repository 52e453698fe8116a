import Mathlib.Algebra.Order.BigOperators.Group.List
import Mathlib.Algebra.Order.Ring.Nat
import Mathlib.Data.List.Sort
import OpenBrain.Core.Table
import OpenBrain.Server.Auth.NamespacePolicy
import OpenBrain.Server.Tiering.TierHistory

/-!
# Archiving duplicates (`curate_entries`, `server/tools/curation.ts`)

The scan of a table joins it to itself and takes the nearest pairs; the loop archives the entry with
the smaller id of each. The pairs are all of one snapshot: of a chain of near entries nobody may be
left near its end, an entry in two pairs is counted twice, and one that the write predicate spares
is reported all the same. `curate_iff` says when a run does none of this.
-/
namespace OpenBrain.Server.Curation
open OpenBrain.Core OpenBrain.Core.Table OpenBrain.Server.Auth List
open OpenBrain.Server.Tiering (ResourceTable)

def ALL_TABLES : List ResourceTable := [.thoughts, .decisions, .relationships, .projects, .sessions]

structure Entry (ι V : Type) where
  id : ι
  ns : Str
  embedding : Option V
  archived : Bool
  deriving DecidableEq

/-- A row of the join. -/
structure Pair (ι δ : Type) where
  id_a : ι
  id_b : ι
  distance : δ

structure Finding (ι δ : Type) where
  table : ResourceTable
  entry_a : ι
  entry_b : ι
  distance : δ
  action : Str

structure Scan (ι δ : Type) where
  findings : List (Finding ι δ)
  archived : Nat
  scanned : Nat

/-- What a run in duplicates mode answers. -/
structure CurateResult (ι δ : Type) where
  dry_run : Bool
  tables_processed : List ResourceTable
  duplicates : List (Finding ι δ)
  duplicates_found : Nat
  archived : Nat

/-- The operator `<=>` and `DUPLICATE_THRESHOLD`. -/
structure Measure (V δ : Type) where
  distance : V → V → δ
  threshold : δ

section
variable {ι V δ : Type} [LinearOrder ι] [LinearOrder δ] (M : Measure V δ) (identity : AuthIdentity)

/-- The distance of two entries, where it is below the threshold. -/
def nearDistance (a b : Entry ι V) : Option δ := do
  let v ← a.embedding
  let w ← b.embedding
  if M.distance v w < M.threshold then some (M.distance v w) else none

def joinedPair (a b : Entry ι V) : Option (Pair ι δ) :=
  if a.id < b.id ∧ b.archived = false ∧ b.ns = a.ns ∧ a.archived = false ∧
      rowPasses identity .read [.other, .other] a.ns = true then
    (nearDistance M a b).map fun d => ⟨a.id, b.id, d⟩
  else none

def joined (rows : List (Entry ι V)) : List (Pair ι δ) :=
  rows.flatMap fun a => rows.filterMap (joinedPair M identity a)

/-- The query of a scan; pairs of one distance come in any order. mirrors curation.ts:148-160 -/
structure DuplicateQuery (rows_per_table : Nat) where
  answer : List (Entry ι V) → List (Pair ι δ)
  first : ∀ rows, ∃ sorted : List (Pair ι δ), sorted.Perm (joined M identity rows) ∧
    sorted.Pairwise (fun p q => p.distance ≤ q.distance) ∧ answer rows = sorted.take rows_per_table

def writable (ns : Str) : Bool := rowPasses identity .write [.other] ns

/-- mirrors curation.ts:69-81 -/
def archiveRow (id : ι) (rows : List (Entry ι V)) : List (Entry ι V) :=
  updateWhere (fun r => r.id = id && !r.archived && writable identity r.ns)
    (fun r => { r with archived := true }) rows

def toFinding (table : ResourceTable) (action : Str) (p : Pair ι δ) : Finding ι δ :=
  ⟨table, p.id_a, p.id_b, p.distance, action⟩

/-- One turn of the loop over the rows of a scan. -/
def collect (table : ResourceTable) (onArchive : Option (ι → List (Entry ι V) → List (Entry ι V)))
    (s : Scan ι δ × List (Entry ι V)) (p : Pair ι δ) : Scan ι δ × List (Entry ι V) :=
  match onArchive with
  | none =>
    ({ s.1 with findings := s.1.findings ++ [toFinding table (units "would_archive_older") p] }, s.2)
  | some archive =>
    ({ s.1 with
      findings := s.1.findings ++ [toFinding table (units "archived") p]
      archived := s.1.archived + 1 }, archive p.id_a s.2)

/-- mirrors curation.ts:107-126 -/
def collectScan (table : ResourceTable)
    (onArchive : Option (ι → List (Entry ι V) → List (Entry ι V))) (pairs : List (Pair ι δ))
    (rows : List (Entry ι V)) : Scan ι δ × List (Entry ι V) :=
  pairs.foldl (collect table onArchive) (⟨[], 0, pairs.length⟩, rows)

variable {M identity} in
/-- mirrors curation.ts:193-214 and the loop over the tables -/
def curateTables {n : Nat} (query : DuplicateQuery (ι := ι) M identity n) (dryRun : Bool) :
    List ResourceTable → CurateResult ι δ → (ResourceTable → List (Entry ι V)) →
      CurateResult ι δ × (ResourceTable → List (Entry ι V))
  | [], result, s => (result, s)
  | table :: rest, result, s =>
    let (scan, rows) := collectScan table (if dryRun then none else some (archiveRow identity))
      (query.answer (s table)) (s table)
    curateTables query dryRun rest
      { result with
        duplicates := result.duplicates ++ scan.findings
        duplicates_found := result.duplicates_found + scan.scanned
        archived := result.archived + scan.archived }
      (Function.update s table rows)

/-- Of the permission sets only those of `discord` lack read. mirrors permissions.ts:26-76 -/
def canRead (role : Role) (_table : ResourceTable) : Bool := role != .discord

def requested (table : Option ResourceTable) : List ResourceTable :=
  (table.map fun t => [t]).getD ALL_TABLES

/-- mirrors curation.ts:273-346, in duplicates mode -/
def curateEntries (query : ∀ n, DuplicateQuery (ι := ι) M identity n) (dry_run : Option Bool)
    (table : Option ResourceTable) (rows_per_table : Option Nat)
    (s : ResourceTable → List (Entry ι V)) :
    Except Str (CurateResult ι δ × (ResourceTable → List (Entry ι V))) :=
  let dryRun := dry_run != some false
  if !dryRun && identity.role != .admin && identity.role != .ob_admin then
    .error (units "Permission denied: admin permission required for dry_run=false")
  else
    let accessible := (requested table).filter (canRead identity.role)
    if accessible = [] then .error (units "Permission denied: no readable tables")
    else .ok (curateTables (query (rows_per_table.getD 20)) dryRun accessible
      ⟨dryRun, accessible, [], 0, 0⟩ s)

/-- The rows of a table whose `archived_at` a run set. -/
def setBy (before after : List (Entry ι V)) : List (Entry ι V) :=
  after.filter fun q => q.archived && before.any fun r => r.id = q.id && !r.archived

/-- A live entry of the namespace within the threshold. -/
def isNear (a b : Entry ι V) : Bool :=
  !b.archived && b.ns = a.ns && (nearDistance M a b).isSome

/-- What a run that archives owes. -/
structure Faithful (s s' : ResourceTable → List (Entry ι V)) (result : CurateResult ι δ) : Prop where
  copy_left : ∀ t, ∀ e ∈ setBy (s t) (s' t), ∃ x ∈ s' t, isNear M e x = true
  reported : ∀ t id, (∃ f ∈ result.duplicates,
      f.table = t ∧ f.action = units "archived" ∧ f.entry_a = id) ↔
    id ∈ (setBy (s t) (s' t)).map Entry.id
  count : result.archived = (ALL_TABLES.map fun t => (setBy (s t) (s' t)).length).sum

/-- No two of the pairs have one smaller id, the caller may write each entry with one, and each of
these has an entry near it that is in no pair the one with the smaller id. -/
structure Clear (pairs : List (Pair ι δ)) (rows : List (Entry ι V)) : Prop where
  distinct : (pairs.map Pair.id_a).Nodup
  writes : ∀ a ∈ rows, a.id ∈ pairs.map Pair.id_a → writable identity a.ns = true
  left : ∀ a ∈ rows, a.id ∈ pairs.map Pair.id_a →
    ∃ x ∈ rows, isNear M a x = true ∧ x.id ∉ pairs.map Pair.id_a

/-! ## One table -/

variable {M identity} {pairs : List (Pair ι δ)} {rows : List (Entry ι V)} {t : ResourceTable}

/-- The loop archives the rows with the smaller ids that the caller may write. -/
def archivedRows (identity : AuthIdentity) (ids : List ι) (rows : List (Entry ι V)) :
    List (Entry ι V) :=
  updateWhere (fun r => ids.contains r.id && !r.archived && writable identity r.ns)
    (fun r => { r with archived := true }) rows

theorem archivedRows_cons (id : ι) (ids : List ι) (rows : List (Entry ι V)) :
    archivedRows identity ids (archiveRow identity id rows) =
      archivedRows identity (id :: ids) rows := by
  unfold archivedRows archiveRow updateWhere
  rw [map_map]
  refine map_congr_left fun r _ => ?_
  dsimp only [Function.comp]
  by_cases hlive : r.archived = true
  · simp [hlive]
  · by_cases hw : writable identity r.ns = true
    · by_cases hid : r.id = id <;> simp [hlive, hw, hid]
    · simp [hw]

theorem foldl_collect (scan : Scan ι δ) : pairs.foldl (collect t (some (archiveRow identity)))
      (scan, rows) =
    ({ scan with
      findings := scan.findings ++ pairs.map (toFinding t (units "archived"))
      archived := scan.archived + pairs.length },
      archivedRows identity (pairs.map Pair.id_a) rows) := by
  induction pairs generalizing scan rows with
  | nil => simp [archivedRows, updateWhere]
  | cons p pairs ih =>
    rw [foldl_cons, collect, ih, archivedRows_cons]
    simp only [map_cons, append_assoc, singleton_append, length_cons,
      Nat.add_assoc, Nat.add_comm 1]

theorem mem_setBy (hids : (rows.map Entry.id).Nodup) {ids : List ι} {e : Entry ι V} :
    e ∈ setBy rows (archivedRows identity ids rows) ↔ ∃ r ∈ rows, r.id ∈ ids ∧ r.archived = false ∧
      writable identity r.ns = true ∧ e = { r with archived := true } := by
  unfold setBy archivedRows
  rw [mem_filter, mem_updateWhere]
  simp only [Bool.and_eq_true, any_eq_true, decide_eq_true_eq, Bool.not_eq_true',
    contains_iff_mem]
  constructor
  · rintro ⟨⟨he, hno⟩ | ⟨r, hr, ⟨⟨hid, hlive⟩, hw⟩, rfl⟩, harch, r', hr', hid', hlive'⟩
    · rw [eq_of_key hids hr' he hid', harch] at hlive'
      cases hlive'
    · exact ⟨r, hr, hid, hlive, hw, rfl⟩
  · rintro ⟨r, hr, hid, hlive, hw, rfl⟩
    exact ⟨.inr ⟨r, hr, ⟨⟨hid, hlive⟩, hw⟩, rfl⟩, rfl, r, hr, rfl, hlive⟩

theorem exists_of_answer {n : Nat} {query : DuplicateQuery (ι := ι) M identity n} {id : ι}
    (h : id ∈ (query.answer rows).map Pair.id_a) : ∃ a ∈ rows, a.id = id ∧ a.archived = false := by
  obtain ⟨p, hp, rfl⟩ := mem_map.mp h
  obtain ⟨sorted, hperm, -, heq⟩ := query.first rows
  rw [heq] at hp
  obtain ⟨a, ha, hp⟩ := mem_flatMap.mp (hperm.mem_iff.mp (mem_of_mem_take hp))
  obtain ⟨b, -, hp⟩ := mem_filterMap.mp hp
  unfold joinedPair at hp
  split at hp
  · rename_i hc
    obtain ⟨d, -, rfl⟩ := Option.map_eq_some_iff.mp hp
    exact ⟨a, ha, rfl, hc.2.2.2.1⟩
  · cases hp

def archivedIds (identity : AuthIdentity) (ids : List ι) (rows : List (Entry ι V)) : List ι :=
  (setBy rows (archivedRows identity ids rows)).map Entry.id

theorem mem_archivedIds (hids : (rows.map Entry.id).Nodup) {ids : List ι} {id : ι} :
    id ∈ archivedIds identity ids rows ↔
      ∃ r ∈ rows, r.id = id ∧ id ∈ ids ∧ r.archived = false ∧ writable identity r.ns = true := by
  unfold archivedIds
  rw [mem_map]
  constructor
  · rintro ⟨e, he, rfl⟩
    obtain ⟨r, hr, hid, hlive, hw, rfl⟩ := (mem_setBy hids).mp he
    exact ⟨r, hr, rfl, hid, hlive, hw⟩
  · rintro ⟨r, hr, rfl, hid, hlive, hw⟩
    exact ⟨_, (mem_setBy hids).mpr ⟨r, hr, hid, hlive, hw, rfl⟩, rfl⟩

theorem nodup_archivedIds (hids : (rows.map Entry.id).Nodup) (ids : List ι) :
    (archivedIds identity ids rows).Nodup := by
  have hkept : (archivedRows identity ids rows).map Entry.id = rows.map Entry.id :=
    column_updateWhere fun _ => rfl
  exact (filter_sublist.map Entry.id).nodup (hkept ▸ hids)

theorem archivedIds_subperm (identity : AuthIdentity) (hids : (rows.map Entry.id).Nodup)
    (ids : List ι) :
    (archivedIds identity ids rows).Subperm ids := by
  refine subperm_of_subset (nodup_archivedIds hids ids) fun id hid => ?_
  obtain ⟨-, -, -, h, -⟩ := (mem_archivedIds hids).mp hid
  exact h

/-- After a loop that spares none of its pairs, a row is live exactly when it was live and its id is
the smaller one of no pair. -/
theorem live_iff {ids : List ι} (hw : ∀ a ∈ rows, a.id ∈ ids → writable identity a.ns = true)
    {x : Entry ι V} (hx : x.archived = false) :
    x ∈ archivedRows identity ids rows ↔ x ∈ rows ∧ x.id ∉ ids := by
  unfold archivedRows
  rw [mem_updateWhere]
  constructor
  · rintro (⟨hmem, hno⟩ | ⟨q, -, -, rfl⟩)
    · refine ⟨hmem, fun hid => ?_⟩
      simp [hid, hx, hw x hmem hid] at hno
    · cases hx
  · rintro ⟨hmem, hid⟩
    exact .inl ⟨hmem, by simp [hid]⟩

theorem length_setBy_le (hids : (rows.map Entry.id).Nodup) :
    (setBy rows (archivedRows identity (pairs.map Pair.id_a) rows)).length ≤ pairs.length := by
  have := (archivedIds_subperm identity hids (pairs.map Pair.id_a)).length_le
  rwa [archivedIds, length_map, length_map] at this

theorem isNear_live {a x : Entry ι V} (h : isNear M a x = true) : x.archived = false := by
  unfold isNear at h
  simp only [Bool.and_eq_true, Bool.not_eq_true'] at h
  exact h.1.1

theorem Clear.mem_archived (h : Clear M identity pairs rows) (hids : (rows.map Entry.id).Nodup)
    (hlive : ∀ id ∈ pairs.map Pair.id_a, ∃ a ∈ rows, a.id = id ∧ a.archived = false) (id : ι) :
    id ∈ archivedIds identity (pairs.map Pair.id_a) rows ↔ id ∈ pairs.map Pair.id_a := by
  rw [mem_archivedIds hids]
  constructor
  · rintro ⟨-, -, -, hid, -⟩
    exact hid
  · intro hid
    obtain ⟨a, ha, rfl, harch⟩ := hlive id hid
    exact ⟨a, ha, rfl, hid, harch, h.writes a ha hid⟩

theorem Clear.of_archived {n : Nat} {query : DuplicateQuery (ι := ι) M identity n}
    (hids : (rows.map Entry.id).Nodup)
    (hcopy : ∀ e ∈ setBy rows (archivedRows identity ((query.answer rows).map Pair.id_a) rows),
      ∃ x ∈ archivedRows identity ((query.answer rows).map Pair.id_a) rows, isNear M e x = true)
    (hreported : ∀ id ∈ (query.answer rows).map Pair.id_a,
      id ∈ archivedIds identity ((query.answer rows).map Pair.id_a) rows)
    (hcount : (query.answer rows).length =
      (archivedIds identity ((query.answer rows).map Pair.id_a) rows).length) :
    Clear M identity (query.answer rows) rows := by
  have hdone : ∀ a ∈ rows, a.id ∈ (query.answer rows).map Pair.id_a →
      a.archived = false ∧ writable identity a.ns = true := by
    intro a ha hid
    obtain ⟨r, hr, hra, -, hlive, hw⟩ := (mem_archivedIds hids).mp (hreported _ hid)
    cases eq_of_key hids hr ha hra
    exact ⟨hlive, hw⟩
  have hwrites := fun a ha hid => (hdone a ha hid).2
  refine ⟨?_, hwrites, fun a ha hid => ?_⟩
  · have hsub := archivedIds_subperm identity hids ((query.answer rows).map Pair.id_a)
    have hperm := hsub.perm_of_length_le (by rw [length_map]; exact hcount.le)
    exact hperm.nodup_iff.mp (nodup_archivedIds hids _)
  · obtain ⟨hlive, hw⟩ := hdone a ha hid
    obtain ⟨x, hx, hnear⟩ := hcopy _ ((mem_setBy hids).mpr ⟨a, ha, hid, hlive, hw, rfl⟩)
    obtain ⟨hmem, hout⟩ := (live_iff hwrites (isNear_live hnear)).mp hx
    exact ⟨x, hmem, hnear, hout⟩

/-! ## A run -/

section Run
variable {n : Nat} (query : DuplicateQuery (ι := ι) M identity n) (tables : List ResourceTable)
  (s : ResourceTable → List (Entry ι V))

/-- The pairs of a table that a run over `tables` gets. -/
def pairsOf (t : ResourceTable) : List (Pair ι δ) := if t ∈ tables then query.answer (s t) else []

variable {query tables s}

theorem curateTables_eq (hn : tables.Nodup) (result : CurateResult ι δ) :
    curateTables query false tables result s =
      ({ result with
        duplicates := result.duplicates ++ tables.flatMap fun t =>
          (pairsOf query tables s t).map (toFinding t (units "archived"))
        duplicates_found := result.duplicates_found +
          (tables.map fun t => (pairsOf query tables s t).length).sum
        archived := result.archived + (tables.map fun t => (pairsOf query tables s t).length).sum },
      fun t => archivedRows identity ((pairsOf query tables s t).map Pair.id_a) (s t)) := by
  induction tables generalizing result s with
  | nil => simp [curateTables, pairsOf, archivedRows, updateWhere]
  | cons u rest ih =>
    obtain ⟨hu, hrest⟩ := nodup_cons.mp hn
    -- the tables that follow are as they were
    have hlater : ∀ (rows : List (Entry ι V)), ∀ t ∈ rest,
        pairsOf query rest (Function.update s u rows) t = pairsOf query (u :: rest) s t := by
      intro rows t ht
      unfold pairsOf
      rw [if_pos ht, if_pos (mem_cons_of_mem u ht),
        Function.update_of_ne (ne_of_mem_of_not_mem ht hu)]
    have hhead : pairsOf query (u :: rest) s u = query.answer (s u) := if_pos mem_cons_self
    unfold curateTables collectScan
    rw [if_neg Bool.false_ne_true, foldl_collect]
    simp only [ih hrest, flatMap_cons, map_cons, sum_cons, hhead, nil_append,
      Nat.zero_add, append_assoc, Nat.add_assoc]
    refine Prod.ext ?_ (funext fun t => ?_)
    · rw [map_congr_left fun t ht => congrArg List.length (hlater _ t ht),
        flatMap_congr fun t ht => congrArg (List.map _) (hlater _ t ht)]
    · by_cases hut : t = u
      · subst hut
        dsimp only
        rw [hhead, Function.update_self, pairsOf, if_neg hu]
        simp [archivedRows, updateWhere]
      · dsimp only
        rw [Function.update_of_ne hut]
        unfold pairsOf
        rw [Function.update_of_ne hut]
        simp only [mem_cons, hut, false_or]

theorem exists_of_pairsOf {t : ResourceTable} {id : ι}
    (h : id ∈ (pairsOf query tables s t).map Pair.id_a) :
    ∃ a ∈ s t, a.id = id ∧ a.archived = false := by
  unfold pairsOf at h
  split at h
  · exact exists_of_answer h
  · cases h

theorem mem_flatMap_toFinding {t : ResourceTable} {id : ι} :
    (∃ f ∈ tables.flatMap fun t => (pairsOf query tables s t).map (toFinding t (units "archived")),
      f.table = t ∧ f.action = units "archived" ∧ f.entry_a = id) ↔
    id ∈ (pairsOf query tables s t).map Pair.id_a := by
  constructor
  · rintro ⟨f, hf, rfl, -, rfl⟩
    obtain ⟨u, -, hf⟩ := mem_flatMap.mp hf
    obtain ⟨p, hp, rfl⟩ := mem_map.mp hf
    exact mem_map_of_mem hp
  · intro h
    obtain ⟨p, hp, rfl⟩ := mem_map.mp h
    have ht : t ∈ tables := by
      by_contra hno
      rw [pairsOf, if_neg hno] at hp
      cases hp
    exact ⟨_, mem_flatMap.mpr ⟨t, ht, mem_map_of_mem hp⟩, rfl, rfl, rfl⟩

end Run

/-- Where one family of numbers is below another and their sums are equal, so are they. -/
theorem eq_of_sum_eq {τ : Type} {f g : τ → Nat} {l : List τ} (hle : ∀ t, f t ≤ g t)
    (h : (l.map f).sum = (l.map g).sum) : ∀ t ∈ l, f t = g t := by
  induction l with
  | nil => exact fun t ht => absurd ht not_mem_nil
  | cons u l ih =>
    have hrest : (l.map f).sum ≤ (l.map g).sum := sum_le_sum fun t _ => hle t
    have hu := hle u
    rw [map_cons, map_cons, sum_cons, sum_cons] at h
    intro t ht
    rcases mem_cons.mp ht with rfl | ht
    · omega
    · exact ih (by omega) t ht

theorem mem_ALL_TABLES (t : ResourceTable) : t ∈ ALL_TABLES := by
  cases t <;> decide

theorem sum_requested {table : Option ResourceTable} {f : ResourceTable → Nat}
    (h : ∀ t ∉ requested table, f t = 0) :
    ((requested table).map f).sum = (ALL_TABLES.map f).sum := by
  cases table with
  | none => rfl
  | some u =>
    have hother : ∀ t, t ≠ u → f t = 0 := fun t ht => h t (mt mem_singleton.mp ht)
    cases u <;> simp [requested, ALL_TABLES, hother]

section
variable {query : ∀ n, DuplicateQuery (ι := ι) M identity n} {table : Option ResourceTable}
  {rows_per_table : Option Nat} {s s' : ResourceTable → List (Entry ι V)}
  {result : CurateResult ι δ}

theorem curateEntries_ok
    (h : curateEntries M identity query (some false) table rows_per_table s = .ok (result, s')) :
    curateTables (query (rows_per_table.getD 20)) false (requested table)
      ⟨false, requested table, [], 0, 0⟩ s = (result, s') := by
  unfold curateEntries at h
  dsimp only at h
  split at h
  · cases h
  · rename_i hrole
    have hread : (requested table).filter (canRead identity.role) = requested table := by
      refine filter_eq_self.mpr fun t _ => ?_
      unfold canRead
      cases hr : identity.role <;> simp [hr] at hrole ⊢
    rw [hread] at h
    split at h
    · cases h
    · exact Except.ok.inj h

/-- A run that archives leaves a copy of what it archives and reports what it did exactly where the
pairs of every table are clear. -/
theorem curate_iff (hids : ∀ t, ((s t).map Entry.id).Nodup)
    (h : curateEntries M identity query (some false) table rows_per_table s = .ok (result, s')) :
    Faithful M s s' result ↔ ∀ t ∈ requested table,
      Clear M identity ((query (rows_per_table.getD 20)).answer (s t)) (s t) := by
  have hnodup : (requested table).Nodup := by
    cases table with
    | none => decide
    | some u => exact nodup_singleton u
  have hrun := (curateTables_eq hnodup _).symm.trans (curateEntries_ok h)
  obtain ⟨rfl, rfl⟩ := Prod.mk.inj hrun
  clear hrun h
  generalize hq : query (rows_per_table.getD 20) = q
  have hsum : ((requested table).map fun t => (pairsOf q (requested table) s t).length).sum =
      (ALL_TABLES.map fun t => (pairsOf q (requested table) s t).length).sum :=
    sum_requested fun t ht => congrArg List.length (if_neg ht)
  constructor
  · intro ⟨hcopy, hreported, hcount⟩ t ht
    have hpairs : pairsOf q (requested table) s t = q.answer (s t) := if_pos ht
    have hlength := eq_of_sum_eq (fun u => length_setBy_le (hids u))
      (hcount.symm.trans ((Nat.zero_add _).trans hsum)) t (mem_ALL_TABLES t)
    refine Clear.of_archived (hids t) ?_ ?_ ?_ <;> rw [← hpairs]
    · exact hcopy t
    · exact fun id hid => (hreported t id).mp (mem_flatMap_toFinding.mpr hid)
    · rw [archivedIds, length_map]
      exact hlength.symm
  · intro hc
    have hclear : ∀ t, Clear M identity (pairsOf q (requested table) s t) (s t) := by
      intro t
      unfold pairsOf
      split
      · exact hc t ‹_›
      · exact ⟨nodup_nil, fun _ _ h => (nomatch h), fun _ _ h => nomatch h⟩
    have hids' := fun t => (hclear t).mem_archived (hids t) fun id hid => exists_of_pairsOf hid
    refine ⟨fun t e he => ?_, fun t id => mem_flatMap_toFinding.trans (hids' t id).symm, ?_⟩
    · obtain ⟨r, hr, hid, hlive, hw, rfl⟩ := (mem_setBy (hids t)).mp he
      obtain ⟨x, hx, hnear, hout⟩ := (hclear t).left r hr hid
      exact ⟨x, (live_iff (hclear t).writes (isNear_live hnear)).mpr ⟨hx, hout⟩, hnear⟩
    · refine (Nat.zero_add _).trans (hsum.trans (congrArg List.sum (map_congr_left fun t _ => ?_)))
      have hperm := (perm_ext_iff_of_nodup (nodup_archivedIds (hids t) _)
        (hclear t).distinct).mpr (hids' t)
      have := hperm.length_eq
      rw [archivedIds, length_map, length_map] at this
      exact this.symm

end

end

section Sample

def onLine : Measure Nat Nat := ⟨fun v w => v - w + (w - v), 2⟩

def curator : AuthIdentity := ⟨.admin, units "curator", units "curator", .token⟩

def nearestFirst (p q : Pair Nat Nat) : Prop := p.distance ≤ q.distance

instance : DecidableRel nearestFirst := fun p q => inferInstanceAs (Decidable (p.distance ≤ q.distance))

def onLineQuery (n : Nat) : DuplicateQuery (ι := Nat) onLine curator n where
  answer rows := ((joined onLine curator rows).insertionSort nearestFirst).take n
  first rows := ⟨_, perm_insertionSort _ _, pairwise_insertionSort _ _, rfl⟩

def thoughtsAt (places : List Nat) : ResourceTable → List (Entry Nat Nat)
  | .thoughts => places.zipIdx.map fun (place, id) => ⟨id, units "ns", some place, false⟩
  | _ => []

theorem curate_iff_twins : ∃ result s', curateEntries onLine curator onLineQuery (some false) none none
      (thoughtsAt [5, 5]) = .ok (result, s') ∧ Faithful onLine (thoughtsAt [5, 5]) s' result := by
  obtain ⟨⟨result, s'⟩, h⟩ : ∃ x, curateEntries onLine curator onLineQuery (some false) none none
      (thoughtsAt [5, 5]) = .ok x := ⟨_, rfl⟩
  refine ⟨result, s', h, (curate_iff (fun t => ?_) h).mpr fun t _ => ?_⟩
  · cases t <;> decide
  · cases t
    · exact ⟨by decide, by decide, by decide⟩
    all_goals exact ⟨nodup_nil, fun _ h => (nomatch h), fun _ h => nomatch h⟩

/-- Of three thoughts in a chain the first two go, and the last is near the second alone. -/
theorem chain_archived : ∃ result s', curateEntries onLine curator onLineQuery (some false) none none
      (thoughtsAt [5, 6, 7]) = .ok (result, s') ∧
    ¬ Faithful onLine (thoughtsAt [5, 6, 7]) s' result := by
  refine ⟨_, _, rfl, fun h => ?_⟩
  obtain ⟨x, hx, hnear⟩ := h.copy_left .thoughts ⟨0, units "ns", some 5, true⟩ (by decide)
  revert x
  decide

end Sample

end OpenBrain.Server.Curation
