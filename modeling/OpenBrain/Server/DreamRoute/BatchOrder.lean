import OpenBrain.Core.DepthFirst
import OpenBrain.Server.DreamRoute.Restatements
import Mathlib.Data.List.Sort
import Mathlib.Data.List.Infix

/-!
# The order of a cohort for its batches

`orderForBatches` walks the cohort from the rows that name no other row of it, and then from every
row it has not met. It writes each row once; a row whose parents lead to a root stands behind its
parent, and in one piece with all that is below it (`orderForBatches_blocks`). Rows on a cycle, and
below one, are met in cohort order, so what is below such a row can be apart from it
(`below_cycle_apart`).
-/
namespace OpenBrain.Server.DreamRoute
open OpenBrain.Core List

/-- The row's neighbour, when it is another row of the cohort; mirrors run-core.ts:166-167 -/
def presentParent (present : List Str) (row : FrozenRow) : Option Str :=
  row.neighbourOf.filter fun parent => parent ≠ row.candidateId ∧ parent ∈ present

/-- One turn of the loop that files the rows; mirrors run-core.ts:165-174 -/
def place (present : List Str) (st : List (Str × List FrozenRow) × List FrozenRow)
    (row : FrozenRow) : List (Str × List FrozenRow) × List FrozenRow :=
  match presentParent present row with
  | some parent => (Grouping.push st.1 parent row, st.2)
  | none => (st.1, st.2 ++ [row])

/-- The children by parent, and the roots; mirrors run-core.ts:162-174 -/
def placed (rows : List FrozenRow) : List (Str × List FrozenRow) × List FrozenRow :=
  rows.foldl (place (rows.map FrozenRow.candidateId)) ([], [])

/-- `siblings.sort(…)`; mirrors run-core.ts:175-177 -/
def sortSiblings (rt : Runtime) (siblings : List FrozenRow) : List FrozenRow :=
  siblings.insertionSort fun left right =>
    rt.localeCompare left.candidateId right.candidateId ≠ .gt

/-- `children.get(id) ?? []` -/
def childrenOf (rt : Runtime) (rows : List FrozenRow) (id : Str) : List FrozenRow :=
  (((placed rows).1.map fun group => (group.1, sortSiblings rt group.2)).lookup id).getD []

/-- `none` when the calls of `emit` nest deeper than `fuel`; mirrors run-core.ts:161-189 -/
def orderForBatches (rt : Runtime) (fuel : Nat) (rows : List FrozenRow) : Option (List FrozenRow) :=
  let emit := DepthFirst.emit FrozenRow.candidateId (childrenOf rt rows) fuel
  (((placed rows).2.foldlM emit ⟨[], []⟩).bind fun st => rows.foldlM emit st).map (·.ordered)

/-! ## The graph of a cohort -/

variable {rt : Runtime} {rows : List FrozenRow}

theorem foldl_place (present : List Str) (rows : List FrozenRow) :
    rows.foldl (place present) ([], []) =
      (Grouping.groupInto (fun row => row.neighbourOf.getD [])
          (rows.filter fun row => (presentParent present row).isSome),
        rows.filter fun row => (presentParent present row).isNone) := by
  induction rows using List.reverseRecOn with
  | nil => rfl
  | append_singleton rows row ih =>
    rw [foldl_concat, ih]
    unfold place
    cases hparent : presentParent present row with
    | none => simp [hparent]
    | some parent =>
      have hnamed : row.neighbourOf = some parent := (Option.filter_eq_some_iff.mp hparent).1
      simp [hparent, Grouping.groupInto_concat, hnamed]

theorem lookup_map_snd {β γ : Type} (f : β → γ) (l : List (Str × β)) (k : Str) :
    (l.map fun p => (p.1, f p.2)).lookup k = (l.lookup k).map f := by
  induction l with
  | nil => rfl
  | cons p l ih =>
    rw [map_cons, lookup_cons, lookup_cons, ih]
    split <;> rfl

theorem childrenOf_perm (rt : Runtime) (rows : List FrozenRow) (id : Str) :
    (childrenOf rt rows id).Perm
      (rows.filter fun row => presentParent (rows.map FrozenRow.candidateId) row = some id) := by
  have hgroup : ((placed rows).1.lookup id).getD [] =
      rows.filter fun row => presentParent (rows.map FrozenRow.candidateId) row = some id := by
    unfold placed
    rw [foldl_place]
    simp only [Grouping.lookup_groupInto, filter_filter]
    refine filter_congr fun row _ => ?_
    cases hparent : presentParent (rows.map FrozenRow.candidateId) row with
    | none => simp
    | some parent =>
      have hnamed : row.neighbourOf = some parent := (Option.filter_eq_some_iff.mp hparent).1
      simp [hnamed]
  unfold childrenOf
  rw [lookup_map_snd, ← hgroup]
  cases (placed rows).1.lookup id with
  | none => exact .nil
  | some siblings => exact perm_insertionSort _ siblings

theorem mem_childrenOf {id : Str} {row : FrozenRow} : row ∈ childrenOf rt rows id ↔
    row ∈ rows ∧ presentParent (rows.map FrozenRow.candidateId) row = some id := by
  rw [(childrenOf_perm rt rows id).mem_iff, mem_filter, decide_eq_true_eq]

theorem roots_eq (rows : List FrozenRow) : (placed rows).2 =
    rows.filter fun row => (presentParent (rows.map FrozenRow.candidateId) row).isNone := by
  rw [placed, foldl_place]

/-- Rows with distinct ids are a graph in which each has at most one parent. -/
theorem graph_of_nodup (rt : Runtime) (hids : (rows.map FrozenRow.candidateId).Nodup) :
    DepthFirst.Graph FrozenRow.candidateId (childrenOf rt rows) rows := by
  refine ⟨fun id row hrow => (mem_childrenOf.mp hrow).1,
    fun x hx y hy h => inj_on_of_nodup_map hids hx hy h, ?_, ?_⟩
  · intro id id' row hrow hrow'
    exact Option.some.inj ((mem_childrenOf.mp hrow).2.symm.trans (mem_childrenOf.mp hrow').2)
  · intro id
    exact (childrenOf_perm rt rows id).nodup_iff.mpr (hids.of_map.filter _)

/-! ## The order -/

/-- `p` is the row that `row` names. -/
def IsParent (rows : List FrozenRow) (row p : FrozenRow) : Prop :=
  row ∈ rows ∧ p ∈ rows ∧
    presentParent (rows.map FrozenRow.candidateId) row = some p.candidateId

/-- `y` is in the subtree of `x`: its parents lead to `x`. -/
def InSubtree (rows : List FrozenRow) (x y : FrozenRow) : Prop :=
  Relation.ReflTransGen (IsParent rows) y x

/-- The row's parents lead to one that names no row of the cohort. -/
def ReachesRoot (rows : List FrozenRow) (x : FrozenRow) : Prop :=
  ∃ root, presentParent (rows.map FrozenRow.candidateId) root = none ∧ InSubtree rows root x

theorem isParent_eq (rt : Runtime) (rows : List FrozenRow) :
    IsParent rows = DepthFirst.Child FrozenRow.candidateId (childrenOf rt rows) rows := by
  funext row p
  unfold IsParent DepthFirst.Child
  rw [mem_childrenOf]
  exact propext ⟨fun ⟨h, hp, hparent⟩ => ⟨hp, h, hparent⟩, fun ⟨hp, h, hparent⟩ => ⟨h, hp, hparent⟩⟩

theorem rooted_of_reachesRoot {x : FrozenRow} (h : ReachesRoot rows x) :
    DepthFirst.Rooted FrozenRow.candidateId (childrenOf rt rows) rows x := by
  obtain ⟨root, hroot, hbelow⟩ := h
  refine ⟨root, ?_, ?_⟩
  · rintro p ⟨-, hchild⟩
    rw [(mem_childrenOf.mp hchild).2] at hroot
    cases hroot
  · unfold InSubtree at hbelow
    rw [isParent_eq rt] at hbelow
    exact hbelow

theorem mem_roots (rt : Runtime) (rows : List FrozenRow) (r : FrozenRow) : r ∈ (placed rows).2 ↔
    r ∈ rows ∧ ∀ p, ¬ DepthFirst.Child FrozenRow.candidateId (childrenOf rt rows) rows r p := by
  rw [roots_eq, mem_filter, ← isParent_eq]
  refine and_congr_right fun hr => ?_
  rw [Option.isNone_iff_eq_none]
  constructor
  · rintro hnone p ⟨-, -, hparent⟩
    rw [hnone] at hparent
    cases hparent
  · intro hno
    by_contra hsome
    obtain ⟨parent, hparent⟩ := Option.ne_none_iff_exists'.mp hsome
    have hpresent := (Option.filter_eq_some_iff.mp hparent).2
    simp only [ne_eq, decide_eq_true_eq] at hpresent
    obtain ⟨p, hp, hid⟩ := mem_map.mp hpresent.2
    exact hno p ⟨hr, hp, by rw [hparent, hid]⟩

/-- Both loops of the walk end, whatever the references are. -/
theorem orderForBatches_runs (rt : Runtime) {fuel : Nat} (hfuel : rows.length < fuel) :
    ∃ st st', DepthFirst.Runs FrozenRow.candidateId (childrenOf rt rows) (placed rows).2 ⟨[], []⟩ st ∧
      DepthFirst.Runs FrozenRow.candidateId (childrenOf rt rows) rows st st' ∧
      orderForBatches rt fuel rows = some st'.ordered := by
  have hclosed : ∀ id, childrenOf rt rows id ⊆ rows := fun id row hrow => (mem_childrenOf.mp hrow).1
  have hroots : (placed rows).2 ⊆ rows := by
    rw [roots_eq]
    exact fun r hr => (mem_filter.mp hr).1
  have hleft : ∀ st, DepthFirst.unemitted FrozenRow.candidateId rows st < fuel := fun st =>
    Nat.lt_of_le_of_lt countP_le_length hfuel
  obtain ⟨st, hst⟩ := DepthFirst.emit_isSome hclosed hroots (hleft ⟨[], []⟩)
  obtain ⟨st', hst'⟩ := DepthFirst.emit_isSome hclosed (List.Subset.refl rows) (hleft st)
  refine ⟨st, st', .of_emit hst, .of_emit hst', ?_⟩
  simp only [orderForBatches, hst, Option.bind_some, hst', Option.map_some]

/-- With fuel for every nesting the order exists and is the same: every row once, a row whose
parents lead to a root behind its parent, and its subtree in one piece. -/
theorem orderForBatches_blocks (rt : Runtime) (rows : List FrozenRow)
    (hids : (rows.map FrozenRow.candidateId).Nodup) :
    ∃ ordered, (∀ fuel, rows.length < fuel → orderForBatches rt fuel rows = some ordered) ∧
      ordered.Perm rows ∧
      ∀ x ∈ rows, ReachesRoot rows x →
        (∀ p, IsParent rows x p → [p, x].Sublist ordered) ∧
        ∃ front below back, ordered = front ++ x :: below ++ back ∧
          ∀ y, y ∈ x :: below ↔ InSubtree rows x y := by
  have g := graph_of_nodup rt hids
  obtain ⟨st, st', hroots, hrows, -⟩ := orderForBatches_runs rt (Nat.lt_succ_self rows.length)
  have hn : (placed rows).2.Nodup := by
    rw [roots_eq]
    exact hids.of_map.filter _
  refine ⟨st'.ordered, ?_, ?_, ?_⟩
  · intro fuel hfuel
    obtain ⟨u, u', hroots', hrows', horder⟩ := orderForBatches_runs rt hfuel
    cases hroots.deterministic hroots'
    cases hrows.deterministic hrows'
    exact horder
  · have hkept : st'.Kept FrozenRow.candidateId := by
      exact hrows.kept (hroots.kept ⟨by simp, nodup_nil⟩)
    have hsub : st'.ordered ⊆ rows := by
      refine hrows.subset g.closed (List.Subset.refl rows) ?_
      exact hroots.subset g.closed (fun r hr => ((mem_roots rt rows r).mp hr).1) (by simp)
    refine (perm_ext_iff_of_nodup hkept.nodup.of_map hids.of_map).mpr fun row => ⟨(hsub ·), ?_⟩
    intro hrow
    obtain ⟨row', hrow', hid⟩ := mem_map.mp ((hkept.emitted _).mp (hrows.emitted row hrow))
    rw [← g.injective row' (hsub hrow') row hrow hid]
    exact hrow'
  · intro x hx hreach
    have hrooted : DepthFirst.Rooted FrozenRow.candidateId (childrenOf rt rows) rows x :=
      rooted_of_reachesRoot hreach
    have hblock := g.block_of_rooted hn (mem_roots rt rows) hroots hrows hx hrooted
    constructor
    · intro p hp
      rw [isParent_eq rt] at hp
      exact g.behind_parent hn (mem_roots rt rows) hroots hrows hrooted hp
    · unfold InSubtree
      rw [isParent_eq rt]
      exact hblock

/-- `x` names a row of a cycle and `y` names `x`: `y` comes first in the cohort and no root leads to
it, so the cycle stands between the two. -/
theorem below_cycle_apart :
    let rt : Runtime := ⟨fun _ => none, fun a b => if a < b then .lt else if a = b then .eq else .gt⟩
    let row := fun (id parent : String) => (⟨units id, some (units parent), none⟩ : FrozenRow)
    let rows := [row "y" "x", row "c" "d", row "d" "c", row "x" "c"]
    (rows.map FrozenRow.candidateId).Nodup ∧ orderForBatches rt 5 rows = some rows ∧
      ¬ ∃ front block back, rows = front ++ block ++ back ∧
        ∀ z, z ∈ block ↔ InSubtree rows (row "x" "c") z := by
  intro rt row rows
  refine ⟨by decide +kernel, by decide +kernel, ?_⟩
  rintro ⟨front, block, back, heq, hblock⟩
  have hy : InSubtree rows (row "x" "c") (row "y" "x") := .single ⟨by decide, by decide, by decide⟩
  have hc : ¬ InSubtree rows (row "x" "c") (row "c" "d") := by
    intro h
    have hx : ∀ z ∈ rows, presentParent (rows.map FrozenRow.candidateId) z = some (units "x") →
        z = row "y" "x" := by decide +kernel
    have hy : ∀ z ∈ rows, presentParent (rows.map FrozenRow.candidateId) z ≠ some (units "y") := by
      decide +kernel
    have honly : ∀ z, InSubtree rows (row "x" "c") z → z = row "x" "c" ∨ z = row "y" "x" := by
      intro z hz
      induction hz using Relation.ReflTransGen.head_induction_on with
      | refl => exact .inl rfl
      | head hparent _ ih =>
        obtain ⟨hmem, -, hp⟩ := hparent
        rcases ih with rfl | rfl
        · exact .inr (hx _ hmem hp)
        · exact absurd hp (hy _ hmem)
    exact absurd (honly _ h) (by decide)
  have hinner : ∀ tail ∈ rows.tails, ∀ block ∈ tail.inits,
      row "y" "x" ∈ block → row "x" "c" ∈ block → row "c" "d" ∈ block := by decide +kernel
  rw [append_assoc] at heq
  refine hc ((hblock _).mp (hinner (block ++ back) ?_ block ?_ ((hblock _).mpr hy)
    ((hblock _).mpr .refl)))
  · exact (mem_tails _ _).mpr ⟨front, heq.symm⟩
  · exact (mem_inits _ _).mpr ⟨back, rfl⟩

/-- A neighbour that comes first in its cohort is moved behind the row it came from. -/
theorem orderForBatches_blocks_neighbour :
    let rt : Runtime := ⟨fun _ => none, fun a b => if a < b then .lt else if a = b then .eq else .gt⟩
    let a : FrozenRow := ⟨units "a", none, none⟩
    let z : FrozenRow := ⟨units "a-z", some (units "a"), none⟩
    ∃ ordered, orderForBatches rt 3 [z, a] = some ordered ∧ [a, z].Sublist ordered := by
  intro rt a z
  obtain ⟨ordered, horder, -, hblocks⟩ := orderForBatches_blocks rt [z, a] (by decide +kernel)
  have hparent : IsParent [z, a] z a := ⟨by decide, by decide, by decide⟩
  refine ⟨ordered, horder 3 (by decide), ?_⟩
  exact (hblocks z (by decide) ⟨a, by decide, .single hparent⟩).1 a hparent

end OpenBrain.Server.DreamRoute
