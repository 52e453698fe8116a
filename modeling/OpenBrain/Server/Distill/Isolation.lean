import Mathlib.Data.List.Lex
import OpenBrain.Server.Distill.Window

/-!
# What a unit's context may hold

The walk back stops at another `session_ref`, and the order keeps a session's rows together, so a
context is the turns of that `session_ref` just before the current one (`mem_context_iff`).
Whether it mixes conversations is then a question about the claimed rows (`contexts_belong_iff`).
-/
namespace OpenBrain.Server.Distill
open OpenBrain.Core List

variable {c : Collation} {db : RawTurns} {options : ClaimDistillOptions}
  {groups : List (Option Str)}

/-! ## The walk -/

/-- Fewer than the window's turns. -/
def within (window : Option Nat) (n : Nat) : Prop := ∀ size, window = some size → n < size

theorem walkBack_some (current : DistillTurn) (n : Nat) (earlier : List DistillTurn) :
    walkBack current (some n) earlier =
      (earlier.takeWhile fun t => t.session_ref = current.session_ref).take n := by
  induction earlier generalizing n with
  | nil => simp [walkBack]
  | cons prior earlier ih =>
    unfold walkBack
    by_cases h : prior.session_ref = current.session_ref
    · rw [takeWhile_cons_of_pos (by simpa using h)]
      cases n with
      | zero => simp
      | succ n =>
        rw [if_neg (by simp [h]), take_succ_cons, ← ih]
        rfl
    · rw [if_pos (.inr h), takeWhile_cons_of_neg (by simpa using h), take_nil]

theorem walkBack_none (current : DistillTurn) (earlier : List DistillTurn) :
    walkBack current none earlier =
      earlier.takeWhile fun t => t.session_ref = current.session_ref := by
  induction earlier with
  | nil => rfl
  | cons prior earlier ih =>
    unfold walkBack
    by_cases h : prior.session_ref = current.session_ref
    · rw [if_neg (by simp [h]), takeWhile_cons_of_pos (by simpa using h), ← ih]
      rfl
    · rw [if_pos (.inr h), takeWhile_cons_of_neg (by simpa using h)]

theorem mem_unitsFrom {window : Option Nat} {earlier later : List DistillTurn} {u : DistillUnit} :
    u ∈ unitsFrom window earlier later ↔ ∃ pre current post, later = pre ++ current :: post ∧
      isSpeech current.role = true ∧
      u = ⟨current, (walkBack current window (pre.reverse ++ earlier)).reverse⟩ := by
  induction later generalizing earlier with
  | nil => simp [unitsFrom]
  | cons turn later ih =>
    -- the rest of the loop starts behind this turn
    have hrest : (u ∈ unitsFrom window (turn :: earlier) later) ↔ ∃ pre current post,
        turn :: later = (turn :: pre) ++ current :: post ∧ isSpeech current.role = true ∧
        u = ⟨current, (walkBack current window ((turn :: pre).reverse ++ earlier)).reverse⟩ := by
      rw [ih]
      simp
    unfold unitsFrom
    dsimp only
    constructor
    · intro h
      split at h
      · rename_i hs
        rcases mem_cons.mp h with rfl | h
        · exact ⟨[], turn, later, rfl, hs, rfl⟩
        · obtain ⟨pre, current, post, h⟩ := hrest.mp h
          exact ⟨turn :: pre, current, post, h⟩
      · obtain ⟨pre, current, post, h⟩ := hrest.mp h
        exact ⟨turn :: pre, current, post, h⟩
    · rintro ⟨pre, current, post, hsplit, hs, hu⟩
      cases pre with
      | nil =>
        cases hsplit
        rw [if_pos hs]
        exact mem_cons.mpr (.inl hu)
      | cons first pre =>
        obtain ⟨rfl, -⟩ := cons_eq_cons.mp hsplit
        have hmem := hrest.mpr ⟨pre, current, post, hsplit, hs, hu⟩
        split
        · exact mem_cons_of_mem _ hmem
        · exact hmem

/-! ## The order of the claim -/

theorem orderKey_lt_or {a b : DistillTurn} (h : orderKey c a ≤ orderKey c b) (hid : a.id ≠ b.id) :
    orderKey c a < orderKey c b := by
  refine lt_of_le_of_ne h fun heq => hid ?_
  have hsnd := congrArg (fun k => (ofLex (ofLex k).2).2) heq
  exact hsnd

theorem session_le_of_le {a b : DistillTurn} (h : orderKey c a ≤ orderKey c b) :
    nullsLast (a.session_ref.map c.sortKey) ≤ nullsLast (b.session_ref.map c.sortKey) := by
  rcases Prod.Lex.le_iff.mp h with h | h
  · exact le_of_lt h
  · exact le_of_eq h.1

theorem contiguous_session : Contiguous (orderKey c) fun t : DistillTurn => t.session_ref := by
  intro a b d hab hbd had
  have had : a.session_ref = d.session_ref := had
  have hback := session_le_of_le hbd
  rw [← had] at hback
  have heq : nullsLast (b.session_ref.map c.sortKey) = nullsLast (a.session_ref.map c.sortKey) :=
    le_antisymm hback (session_le_of_le hab)
  exact (Option.map_injective c.injective heq).trans had

theorem ordered_perm (rows : List RawTurn) : (ordered c rows).Perm rows :=
  perm_insertionSort _ _

theorem ordered_lt {rows : List RawTurn} (hids : (rows.map fun r => r.id).Nodup) :
    ((ordered c rows).map fun r => r.toDistillTurn).Pairwise fun a b =>
      orderKey c a < orderKey c b := by
  rw [pairwise_map]
  have hle : (ordered c rows).Pairwise fun a b =>
      orderKey c a.toDistillTurn ≤ orderKey c b.toDistillTurn :=
    pairwise_insertionSort _ _
  have hne : (ordered c rows).Pairwise fun a b => a.id ≠ b.id :=
    pairwise_map.mp (((ordered_perm rows).map _).nodup_iff.mpr hids)
  exact (hle.and hne).imp fun h => orderKey_lt_or h.1 h.2

/-! ## Contexts -/

theorem within_some {size n : Nat} : within (some size) n ↔ n < size := by
  simp [within]

theorem within_none (n : Nat) : within none n := by
  simp [within]

theorem mem_walkBack_iff {window : Option Nat} {pre post : List DistillTurn}
    {current t : DistillTurn}
    (hs : (pre ++ current :: post).Pairwise fun a b => orderKey c a < orderKey c b) :
    t ∈ walkBack current window pre.reverse ↔
      t ∈ pre ++ current :: post ∧ orderKey c t < orderKey c current ∧
        t.session_ref = current.session_ref ∧
        within window (between (orderKey c) (pre ++ current :: post) t current).length := by
  cases window with
  | some size =>
    rw [walkBack_some, within_some]
    exact mem_window_iff contiguous_session hs
  | none =>
    -- a window of the whole list bounds nothing
    have hall : walkBack current none pre.reverse =
        (pre.reverse.takeWhile fun t => t.session_ref = current.session_ref).take
          ((pre ++ current :: post).length + 1) := by
      rw [walkBack_none, take_of_length_le]
      have hle := (takeWhile_sublist
        (fun t : DistillTurn => decide (t.session_ref = current.session_ref))
          (l := pre.reverse)).length_le
      rw [length_reverse] at hle
      rw [length_append]
      omega
    have hlen : (between (orderKey c) (pre ++ current :: post) t current).length <
        (pre ++ current :: post).length + 1 :=
      Nat.lt_succ_of_le (length_filter_le _ _)
    rw [hall, mem_window_iff contiguous_session hs]
    refine and_congr_right fun _ => and_congr_right fun _ => and_congr_right fun _ => ?_
    exact iff_of_true hlen (within_none _)

theorem mem_context_iff {window : Option Nat} {turns : List DistillTurn}
    (hs : turns.Pairwise fun a b => orderKey c a < orderKey c b) {current t : DistillTurn} :
    (∃ u ∈ unitsFrom window [] turns, u.current = current ∧ t ∈ u.context) ↔
      current ∈ turns ∧ isSpeech current.role = true ∧ t ∈ turns ∧
        orderKey c t < orderKey c current ∧ t.session_ref = current.session_ref ∧
        within window (between (orderKey c) turns t current).length := by
  constructor
  · rintro ⟨u, hu, rfl, ht⟩
    obtain ⟨pre, current, post, rfl, hspeech, rfl⟩ := mem_unitsFrom.mp hu
    rw [append_nil, mem_reverse, mem_walkBack_iff hs] at ht
    exact ⟨mem_append.mpr (.inr mem_cons_self), hspeech, ht⟩
  · rintro ⟨hcur, hspeech, ht⟩
    obtain ⟨pre, post, rfl⟩ := append_of_mem hcur
    refine ⟨_, mem_unitsFrom.mpr ⟨pre, current, post, rfl, hspeech, rfl⟩, rfl, ?_⟩
    rw [append_nil, mem_reverse]
    exact (mem_walkBack_iff hs).mpr ht

/-! ## Conversations -/

/-- A turn that may be context: of the current turn's namespace and session, before it in the
order of the claim, and, when neither has a session, of its origin. -/
def Belongs {κ : Type} (c : Collation) (origin : Uuid → κ) (t current : DistillTurn) : Prop :=
  t.ns = current.ns ∧ t.session_ref = current.session_ref ∧
    orderKey c t < orderKey c current ∧
    (current.session_ref = none → origin t.id = origin current.id)

/-- Among the selected rows, no due speech turn has a stranger within the window before it: a
turn of the same `session_ref`, or of none like it, but of another namespace or origin. -/
def NoStrangers {κ : Type} (c : Collation) (origin : Uuid → κ) (window : Option Nat)
    (rows : List RawTurn) : Prop :=
  ∀ current ∈ rows, current.due = true → isSpeech current.role = true →
    ∀ t ∈ rows, t.session_ref = current.session_ref →
      orderKey c t.toDistillTurn < orderKey c current.toDistillTurn →
      within window (between (fun r => orderKey c r.toDistillTurn) rows t current).length →
      t.ns = current.ns ∧ (current.session_ref = none → origin t.id = origin current.id)

def window (options : ClaimDistillOptions) : Option Nat :=
  windowOf (options.contextWindow.getD (Number.ofInt DEFAULT_CONTEXT_WINDOW))

theorem claimRows_some {rows : List RawTurn} (h : claimRows c db options groups = some rows) :
    ∃ bindings, buildClaimBindings options = some bindings ∧
      rows = ordered c (db.rows.filter (claimed c db options groups bindings)) := by
  obtain ⟨bindings, hb, h⟩ := Option.bind_eq_some_iff.mp h
  refine ⟨bindings, hb, ?_⟩
  split at h
  · cases h
  · exact (Option.some.inj h).symm

theorem claim_some {batch : DistillBatch} (h : claimDistillBatch c db options groups = some batch) :
    ∃ rows, claimRows c db options groups = some rows ∧
      batch.units = (unitsFrom (window options) [] (rows.map fun r => r.toDistillTurn)).filter
        fun u => ((rows.filter fun row => row.due).map fun row => row.id).contains u.current.id := by
  obtain ⟨rows, hr, h⟩ := Option.bind_eq_some_iff.mp h
  refine ⟨rows, hr, ?_⟩
  rw [← Option.some.inj h]
  rfl

theorem due_id_iff {rows : List RawTurn} (hids : (rows.map fun r => r.id).Nodup) {row : RawTurn}
    (hrow : row ∈ rows) :
    ((rows.filter fun r => r.due).map fun r => r.id).contains row.id = true ↔ row.due = true := by
  rw [contains_iff_mem, mem_map]
  constructor
  · rintro ⟨other, hother, hid⟩
    obtain ⟨hmem, hdue⟩ := mem_filter.mp hother
    rw [← inj_on_of_nodup_map hids hmem hrow hid]
    exact hdue
  · intro hdue
    exact ⟨row, mem_filter.mpr ⟨hrow, hdue⟩, rfl⟩

/-- The database hands the rows over in the order of the claim; how many lie between two of
them is a matter of the rows alone. -/
theorem length_between (rows : List RawTurn) (t current : RawTurn) :
    (between (orderKey c) ((ordered c rows).map fun r => r.toDistillTurn)
      t.toDistillTurn current.toDistillTurn).length =
    (between (fun r => orderKey c r.toDistillTurn) rows t current).length := by
  unfold between
  rw [filter_map, length_map]
  exact ((ordered_perm rows).filter _).length_eq

/-- No context of a claimed batch holds a turn of another conversation exactly when no due turn
has a stranger within its window. -/
theorem contexts_belong_iff {κ : Type} (origin : Uuid → κ) (c : Collation) (db : RawTurns)
    (options : ClaimDistillOptions) (groups : List (Option Str)) (batch : DistillBatch)
    (h : claimDistillBatch c db options groups = some batch) :
    ∃ bindings, buildClaimBindings options = some bindings ∧
      ((∀ u ∈ batch.units, ∀ t ∈ u.context, Belongs c origin t u.current) ↔
        NoStrangers c origin (window options)
          (db.rows.filter (claimed c db options groups bindings))) := by
  obtain ⟨rows, hr, hunits⟩ := claim_some h
  obtain ⟨bindings, hb, rfl⟩ := claimRows_some hr
  refine ⟨bindings, hb, ?_⟩
  rw [hunits]
  have hids : ((db.rows.filter (claimed c db options groups bindings)).map fun r => r.id).Nodup :=
    db.ids.sublist (filter_sublist.map _)
  generalize db.rows.filter (claimed c db options groups bindings) = selection at hids ⊢
  have hmem : ∀ {row}, row ∈ ordered c selection ↔ row ∈ selection := (ordered_perm _).mem_iff
  have hids' : ((ordered c selection).map fun r => r.id).Nodup :=
    ((ordered_perm selection).map _).nodup_iff.mpr hids
  constructor
  · intro hall current hcur hdue hspeech t ht hsession hkey hwithin
    -- the builder shows `t` to the unit of `current`
    obtain ⟨u, hu, hucur, hut⟩ : ∃ u ∈ unitsFrom (window options) []
        ((ordered c selection).map fun r => r.toDistillTurn),
        u.current = current.toDistillTurn ∧ t.toDistillTurn ∈ u.context :=
      (mem_context_iff (ordered_lt hids)).mpr
        ⟨mem_map_of_mem (hmem.mpr hcur), hspeech, mem_map_of_mem (hmem.mpr ht), hkey,
          hsession, (length_between selection t current).symm ▸ hwithin⟩
    have hbelongs := hall u (mem_filter.mpr ⟨hu, by
      rw [hucur]
      exact (due_id_iff hids' (hmem.mpr hcur)).mpr hdue⟩) _ hut
    rw [hucur] at hbelongs
    exact ⟨hbelongs.1, hbelongs.2.2.2⟩
  · intro hno u hu t ht
    obtain ⟨hu, hdue⟩ := mem_filter.mp hu
    obtain ⟨hcur, hspeech, htmem, hkey, hsession, hwithin⟩ :=
      (mem_context_iff (ordered_lt hids)).mp ⟨u, hu, rfl, ht⟩
    obtain ⟨current, hcur, hucur⟩ := mem_map.mp hcur
    obtain ⟨row, hrow, rfl⟩ := mem_map.mp htmem
    rw [← hucur] at hdue hspeech hkey hsession hwithin ⊢
    rw [length_between] at hwithin
    have hmine := hno current (hmem.mp hcur) ((due_id_iff hids' hcur).mp hdue) hspeech row
      (hmem.mp hrow) hsession hkey hwithin
    exact ⟨hmine.1, hsession, hkey, hmine.2⟩

theorem selected_of_claimed {bindings : ClaimBindings} {row : RawTurn}
    (h : claimed c db options groups bindings row = true) : selected options row = true := by
  rcases Bool.or_eq_true_iff.mp h with h | h
  · have hmem := mem_of_mem_take (contains_iff_mem.mp h)
    have hdue := mem_filter.mp ((ordered_perm _).mem_iff.mp hmem)
    exact (Bool.and_eq_true_iff.mp (Bool.and_eq_true_iff.mp hdue.2).1).2
  · exact (Bool.and_eq_true_iff.mp h).1

/-! ## Two namespaces, one session -/

/-- Texts in the order of their code units. -/
def byUnits : Collation where
  Key := List Nat
  sortKey s := s.map UInt16.toNat
  injective := map_injective_iff.mpr fun _ _ h => UInt16.toNat_inj.mp h

def spoken (id : Uuid) (ns : String) (seq occurred : Int) : RawTurn :=
  { id, ns := units ns, session_ref := some (units "s"), session_seq := some seq
    role := units "user", content := units "hi", repo := none, occurred_at := some occurred
    is_human_prompt := true, lane_id := none, distilled_at := none, retention_tier := .live }

/-- One runtime session whose turns two namespaces sent. -/
def shared : RawTurns := ⟨[spoken 1 "alice" 0 100, spoken 2 "bob" 1 200], by decide⟩

/-- A session of one namespace. -/
def alone : RawTurns := ⟨[spoken 1 "alice" 0 100, spoken 2 "alice" 1 200], by decide⟩

def sweep : ClaimDistillOptions := ⟨none, .every, none, none, none⟩

theorem contexts_belong_alone : ∃ batch bindings,
    claimDistillBatch byUnits alone sweep [some (units "s")] = some batch ∧
      ((∀ u ∈ batch.units, ∀ t ∈ u.context, Belongs byUnits (fun id => id) t u.current) ↔
        NoStrangers byUnits (fun id => id) (window sweep)
          (alone.rows.filter (claimed byUnits alone sweep [some (units "s")] bindings))) := by
  have hsome : (claimDistillBatch byUnits alone sweep [some (units "s")]).isSome = true := by
    decide +kernel
  obtain ⟨batch, h⟩ := Option.isSome_iff_exists.mp hsome
  obtain ⟨bindings, -, hiff⟩ := contexts_belong_iff (fun id => id) byUnits alone sweep
    [some (units "s")] batch h
  exact ⟨batch, bindings, h, hiff⟩

/-- The second namespace's turn is shown the first one's. -/
theorem shared_session_mixes : ¬ ∀ batch,
    claimDistillBatch byUnits shared sweep [some (units "s")] = some batch →
      ∀ u ∈ batch.units, ∀ t ∈ u.context, Belongs byUnits (fun id => id) t u.current := by
  have hmixed : (claimDistillBatch byUnits shared sweep [some (units "s")]).any (fun b =>
      b.units.any fun u => u.context.any fun t => decide (t.ns ≠ u.current.ns)) = true := by
    decide +kernel
  obtain ⟨batch, h, hmixed⟩ := (Option.any_eq_true _ _).mp hmixed
  obtain ⟨u, hu, hmixed⟩ := any_eq_true.mp hmixed
  obtain ⟨t, ht, hne⟩ := any_eq_true.mp hmixed
  intro hall
  exact of_decide_eq_true hne (hall batch h u hu t ht).1

end OpenBrain.Server.Distill
