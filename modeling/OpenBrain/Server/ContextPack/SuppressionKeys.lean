import OpenBrain.Server.ContextPack.PriorContext

/-!
# Which references share a suppression key

The tag in front of a key tells its family, and behind the tag of a canonical id, a citation id or
a text stands the whole coordinate. A structural pointer is its coordinates joined by U+001F, which
a trimmed text can contain: two pointers share their key exactly when they are the same pieces
between separators (`canonicalSourceRefKey_eq_iff`). So keys are injective on references none of
which are the same pieces cut differently (`suppression_exact_iff`).
-/
namespace OpenBrain.Server.ContextPack

open OpenBrain.Core List

/-- `String.fromCharCode(0x1f)` -/
def unitSeparator : UInt16 := 0x1F

/-- What a pointer's coordinates consist of between separators. -/
def pieces (r : StructuralSourceRef) : List Str :=
  r.source.splitOn unitSeparator ++ r.type.splitOn unitSeparator ++ r.id.splitOn unitSeparator ++
    (r.«namespace».getD []).splitOn unitSeparator

theorem splitOn_joined (a b : Str) :
    (a ++ unitSeparator :: b).splitOn unitSeparator =
      a.splitOn unitSeparator ++ b.splitOn unitSeparator := by
  simp only [splitOn_eq_splitOnP]
  exact splitOnP_append_cons a b (by simp)

theorem splitOn_inj {a b : Str} (h : a.splitOn unitSeparator = b.splitOn unitSeparator) : a = b := by
  have ha : [unitSeparator].intercalate (a.splitOn unitSeparator) = a :=
    intercalate_splitOn unitSeparator
  have hb : [unitSeparator].intercalate (b.splitOn unitSeparator) = b :=
    intercalate_splitOn unitSeparator
  rw [← ha, h, hb]

def joined (r : StructuralSourceRef) : Str :=
  r.source ++ unitSeparator :: (r.type ++ unitSeparator ::
    (r.id ++ unitSeparator :: r.«namespace».getD []))

theorem canonicalSourceRefKey_structural (r : StructuralSourceRef) :
    canonicalSourceRefKey (.structural r) = units "o:" ++ joined r := by
  simp [canonicalSourceRefKey, joined, unitSeparator]

theorem joined_eq_iff {r s : StructuralSourceRef} : joined r = joined s ↔ pieces r = pieces s := by
  have hsplit : ∀ r : StructuralSourceRef, (joined r).splitOn unitSeparator = pieces r := by
    intro r
    simp only [joined, splitOn_joined, pieces, append_assoc]
  constructor
  · intro h
    rw [← hsplit, ← hsplit, h]
  · intro h
    rw [← hsplit, ← hsplit] at h
    exact splitOn_inj h

/-- Two pointers have one key when they are one text, or the same pieces. -/
theorem canonicalSourceRefKey_eq_iff {a b : SourceRefValue} :
    canonicalSourceRefKey a = canonicalSourceRefKey b ↔ a = b ∨
      ∃ r s, a = .structural r ∧ b = .structural s ∧ pieces r = pieces s := by
  cases a with
  | text s =>
    cases b with
    | text t => simp [canonicalSourceRefKey]
    | structural r =>
      rw [canonicalSourceRefKey_structural]
      have hne : units "s:" ++ s ≠ units "o:" ++ joined r := fun h => absurd (cons_eq_cons.mp h).1
        (by decide)
      simp [canonicalSourceRefKey, hne]
  | structural r =>
    cases b with
    | text t =>
      rw [canonicalSourceRefKey_structural]
      have hne : units "o:" ++ joined r ≠ units "s:" ++ t := fun h => absurd (cons_eq_cons.mp h).1
        (by decide)
      simp [canonicalSourceRefKey, hne]
    | structural s =>
      rw [canonicalSourceRefKey_structural, canonicalSourceRefKey_structural,
        append_cancel_left_eq, joined_eq_iff]
      constructor
      · intro h
        exact .inr ⟨r, s, rfl, rfl, h⟩
      · rintro (h | ⟨r', s', hr, hs, h⟩)
        · cases h
          rfl
        · cases hr
          cases hs
          exact h

/-! ## References -/

/-- Two references have a suppression key in common. -/
def Shares (a b : RecallIdentity) : Prop := ∃ key ∈ suppressionKeys a, key ∈ suppressionKeys b

/-- Two references agree on a family: they name the same record. -/
def Names (a b : RecallIdentity) : Prop :=
  (∃ id, a.canonicalId = some id ∧ b.canonicalId = some id) ∨
  (∃ id, a.citationId = some id ∧ b.citationId = some id) ∨
  ∃ ref, a.sourceRef = some ref ∧ b.sourceRef = some ref

/-- Two references point by different coordinates that are the same pieces between separators. -/
def Resplit (a b : RecallIdentity) : Prop :=
  ∃ r s, a.sourceRef = some (.structural r) ∧ b.sourceRef = some (.structural s) ∧
    r ≠ s ∧ pieces r = pieces s

theorem mem_suppressionKeys {key : Str} {i : RecallIdentity} : key ∈ suppressionKeys i ↔
    (∃ id, i.canonicalId = some id ∧ units "canonical:" ++ id = key) ∨
    (∃ id, i.citationId = some id ∧ units "citation:" ++ id = key) ∨
    ∃ ref, i.sourceRef = some ref ∧ units "source_ref:" ++ canonicalSourceRefKey ref = key := by
  simp only [suppressionKeys, mem_append, Option.mem_toList, Option.map_eq_some_iff, or_assoc]

theorem shares_iff {a b : RecallIdentity} : Shares a b ↔ Names a b ∨ Resplit a b := by
  -- the families' tags differ within their first two characters
  have hcanonical : ∀ s t : Str, units "canonical:" ++ s ≠ units "citation:" ++ t := fun s t h =>
    absurd (cons_eq_cons.mp (cons_eq_cons.mp h).2).1 (by decide)
  have hsource : ∀ s t : Str, units "canonical:" ++ s ≠ units "source_ref:" ++ t := fun s t h =>
    absurd (cons_eq_cons.mp h).1 (by decide)
  have hcitation : ∀ s t : Str, units "citation:" ++ s ≠ units "source_ref:" ++ t := fun s t h =>
    absurd (cons_eq_cons.mp h).1 (by decide)
  constructor
  · rintro ⟨key, ha, hb⟩
    rcases mem_suppressionKeys.mp ha with ⟨x, hx, rfl⟩ | ⟨x, hx, rfl⟩ | ⟨r, hr, rfl⟩
    · rcases mem_suppressionKeys.mp hb with ⟨y, hy, hk⟩ | ⟨y, hy, hk⟩ | ⟨s, hs, hk⟩
      · exact .inl (.inl ⟨x, hx, append_cancel_left hk ▸ hy⟩)
      · exact absurd hk.symm (hcanonical x y)
      · exact absurd hk.symm (hsource x _)
    · rcases mem_suppressionKeys.mp hb with ⟨y, hy, hk⟩ | ⟨y, hy, hk⟩ | ⟨s, hs, hk⟩
      · exact absurd hk (hcanonical y x)
      · exact .inl (.inr (.inl ⟨x, hx, append_cancel_left hk ▸ hy⟩))
      · exact absurd hk.symm (hcitation x _)
    · rcases mem_suppressionKeys.mp hb with ⟨y, hy, hk⟩ | ⟨y, hy, hk⟩ | ⟨s, hs, hk⟩
      · exact absurd hk (hsource y _)
      · exact absurd hk (hcitation y _)
      · rcases canonicalSourceRefKey_eq_iff.mp (append_cancel_left hk) with h |
          ⟨s', r', hs', hr', hpieces⟩
        · exact .inl (.inr (.inr ⟨r, hr, h ▸ hs⟩))
        · subst hs' hr'
          by_cases heq : r' = s'
          · exact .inl (.inr (.inr ⟨.structural r', hr, heq ▸ hs⟩))
          · exact .inr ⟨r', s', hr, hs, heq, hpieces.symm⟩
  · rintro ((⟨x, ha, hb⟩ | ⟨x, ha, hb⟩ | ⟨r, ha, hb⟩) | ⟨r, s, ha, hb, -, hpieces⟩)
    · exact ⟨_, mem_suppressionKeys.mpr (.inl ⟨x, ha, rfl⟩),
        mem_suppressionKeys.mpr (.inl ⟨x, hb, rfl⟩)⟩
    · exact ⟨_, mem_suppressionKeys.mpr (.inr (.inl ⟨x, ha, rfl⟩)),
        mem_suppressionKeys.mpr (.inr (.inl ⟨x, hb, rfl⟩))⟩
    · exact ⟨_, mem_suppressionKeys.mpr (.inr (.inr ⟨r, ha, rfl⟩)),
        mem_suppressionKeys.mpr (.inr (.inr ⟨r, hb, rfl⟩))⟩
    · have hkey : canonicalSourceRefKey (.structural s) = canonicalSourceRefKey (.structural r) :=
        canonicalSourceRefKey_eq_iff.mpr (.inr ⟨s, r, rfl, rfl, hpieces.symm⟩)
      exact ⟨_, mem_suppressionKeys.mpr (.inr (.inr ⟨_, ha, rfl⟩)),
        mem_suppressionKeys.mpr (.inr (.inr ⟨_, hb, by rw [hkey]⟩))⟩

/-! ## Recalled rows -/

theorem mem_keepNetNew {suppressed : List Str} {rows kept : List SearchRow}
    (h : keepNetNew suppressed rows = some kept) {row : SearchRow} : row ∈ kept ↔ row ∈ rows ∧
      ∃ identity, parseIdentity (identify row) = some identity ∧
        ∀ key ∈ suppressionKeys identity, key ∉ suppressed := by
  induction rows generalizing kept with
  | nil =>
    cases Option.some.inj h
    simp
  | cons first rows ih =>
    simp only [keepNetNew, Option.bind_eq_bind, Option.bind_eq_some_iff] at h
    obtain ⟨identity, hidentity, rest, hrest, hkept⟩ := h
    have ih := ih hrest
    split at hkept
    · rename_i hany
      cases hkept
      rw [ih, mem_cons]
      refine and_congr_left fun hrow => ⟨.inr, fun hmem => hmem.resolve_left ?_⟩
      rintro rfl
      obtain ⟨identity', hidentity', hnone⟩ := hrow
      cases hidentity.symm.trans hidentity'
      obtain ⟨key, hkey, hin⟩ := any_eq_true.mp hany
      exact hnone key hkey (contains_iff_mem.mp hin)
    · rename_i hany
      cases hkept
      rw [mem_cons, ih, mem_cons]
      constructor
      · rintro (rfl | ⟨hmem, hrow⟩)
        · refine ⟨.inl rfl, identity, hidentity, fun key hkey hin => hany ?_⟩
          exact any_eq_true.mpr ⟨key, hkey, contains_iff_mem.mpr hin⟩
        · exact ⟨.inr hmem, hrow⟩
      · rintro ⟨rfl | hmem, hrow⟩
        · exact .inl rfl
        · exact .inr ⟨hmem, hrow⟩

theorem identified_of_kept {suppressed : List Str} {rows kept : List SearchRow}
    (h : keepNetNew suppressed rows = some kept) :
    ∀ row ∈ rows, ∃ identity, parseIdentity (identify row) = some identity := by
  induction rows generalizing kept with
  | nil => simp
  | cons first rows ih =>
    simp only [keepNetNew, Option.bind_eq_bind, Option.bind_eq_some_iff] at h
    obtain ⟨identity, hidentity, rest, hrest, -⟩ := h
    intro row hrow
    rcases mem_cons.mp hrow with rfl | hrow
    · exact ⟨identity, hidentity⟩
    · exact ih hrest row hrow

/-- The references a call compares: those of the prior context and those of the rows. -/
def compared (parsed : List RecallIdentity) (rows : List SearchRow) : List RecallIdentity :=
  parsed ++ rows.filterMap fun row => parseIdentity (identify row)

/-- The keys are injective on the references of a call, and a row is suppressed only when the
prior context names it, exactly when no two of the references are the same pieces cut
differently. -/
theorem suppression_exact_iff (rows kept : List SearchRow) (priorContext : List RecallIdentity)
    (h : suppressReferencedRecords rows priorContext = some kept) :
    ∃ parsed, priorContext.mapM parseIdentity = some parsed ∧
      (((∀ a ∈ compared parsed rows, ∀ b ∈ compared parsed rows, Shares a b ↔ Names a b) ∧
        ∀ row ∈ rows, row ∉ kept → ∃ a ∈ parsed, ∃ b, parseIdentity (identify row) = some b ∧
          Names a b) ↔
        ∀ a ∈ compared parsed rows, ∀ b ∈ compared parsed rows, Resplit a b → Names a b) := by
  simp only [suppressReferencedRecords, buildSuppressionSet, Option.bind_eq_bind,
    Option.bind_eq_some_iff, Option.map_eq_some_iff] at h
  obtain ⟨suppressed, ⟨parsed, hparsed, rfl⟩, hkept⟩ := h
  refine ⟨parsed, hparsed, ?_⟩
  constructor
  · rintro ⟨hall, -⟩ a ha b hb hresplit
    exact (hall a ha b hb).mp (shares_iff.mpr (.inr hresplit))
  · intro hnone
    have hall : ∀ a ∈ compared parsed rows, ∀ b ∈ compared parsed rows,
        Shares a b ↔ Names a b := by
      intro a ha b hb
      rw [shares_iff]
      exact or_iff_left_of_imp (hnone a ha b hb)
    refine ⟨hall, fun row hrow hnot => ?_⟩
    obtain ⟨b, hb⟩ := identified_of_kept hkept row hrow
    -- the row has a key of some reference
    have hshared : ∃ key ∈ suppressionKeys b, key ∈ parsed.flatMap suppressionKeys := by
      by_contra hno
      push Not at hno
      exact hnot ((mem_keepNetNew hkept).mpr ⟨hrow, b, hb, hno⟩)
    obtain ⟨key, hkey, hin⟩ := hshared
    obtain ⟨a, ha, hka⟩ := mem_flatMap.mp hin
    refine ⟨a, ha, b, hb, (hall a (mem_append_left _ ha) b ?_).mp ⟨key, hka, hkey⟩⟩
    exact mem_append_right _ (mem_filterMap.mpr ⟨row, hrow, hb⟩)

def recalledThought : SearchRow where
  sourceType := units "thought"
  id := units "1"
  «namespace» := some (units "alice")
  contentPreview := none
  createdAt := units "2026-01-01"
  updatedAt := none
  tier := none
  sourceRef := none

def priorThought : RecallIdentity :=
  ⟨none, none, some (.structural ⟨units "brain", units "thought", units "1", some (units "alice")⟩)⟩

theorem suppression_exact_thought : ∃ kept parsed,
    suppressReferencedRecords [recalledThought] [priorThought] = some kept ∧
    [priorThought].mapM parseIdentity = some parsed ∧
      (((∀ a ∈ compared parsed [recalledThought], ∀ b ∈ compared parsed [recalledThought],
          Shares a b ↔ Names a b) ∧
        ∀ row ∈ [recalledThought], row ∉ kept → ∃ a ∈ parsed, ∃ b,
          parseIdentity (identify row) = some b ∧ Names a b) ↔
        ∀ a ∈ compared parsed [recalledThought], ∀ b ∈ compared parsed [recalledThought],
          Resplit a b → Names a b) := by
  have hsome : (suppressReferencedRecords [recalledThought] [priorThought]).isSome = true := by
    decide +kernel
  obtain ⟨kept, h⟩ := Option.isSome_iff_exists.mp hsome
  obtain ⟨parsed, hparsed, hiff⟩ := suppression_exact_iff [recalledThought] kept [priorThought] h
  exact ⟨kept, parsed, h, hparsed, hiff⟩

/-- A pointer whose type ends where another's begins. -/
def cutAt (type id : Str) : RecallIdentity :=
  ⟨none, none, some (.structural ⟨units "brain", type, id, none⟩)⟩

/-- Two pointers of different type and id, both as the schema reads them, share a key. -/
theorem separator_shared : ¬ ∀ a b : RecallIdentity, parseIdentity a = some a →
    parseIdentity b = some b → (Shares a b ↔ Names a b) := by
  intro hall
  have h := hall (cutAt (units "a" ++ unitSeparator :: units "b") (units "c"))
    (cutAt (units "a") (units "b" ++ unitSeparator :: units "c")) (by decide +kernel)
    (by decide +kernel)
  have hshares : Shares (cutAt (units "a" ++ unitSeparator :: units "b") (units "c"))
      (cutAt (units "a") (units "b" ++ unitSeparator :: units "c")) :=
    shares_iff.mpr (.inr ⟨_, _, rfl, rfl, by decide, by decide +kernel⟩)
  rcases h.mp hshares with ⟨_, hx, -⟩ | ⟨_, hx, -⟩ | ⟨ref, hr, hs⟩
  · cases hx
  · cases hx
  · rw [← hr] at hs
    exact absurd hs (by decide)

end OpenBrain.Server.ContextPack
