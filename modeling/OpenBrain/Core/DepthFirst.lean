import Mathlib.Data.List.Perm.Subperm
import Mathlib.Data.List.Nodup
import Mathlib.Logic.Relation

/-!
# Depth-first emission of a graph in which a node has at most one parent

`emit` writes a node and then its children, each once: a set of written keys stops the walk where it
has been. On any graph the walk ends and writes every node it is given once (`emit_isSome`,
`Runs.adds`). A node whose parents lead to a root is written in one piece with everything below it
(`Graph.block_of_rooted`); nothing of this is said of a cycle, which has no root.
-/
namespace OpenBrain.Core.DepthFirst
open List

variable {α κ : Type}

/-- What a walk has written, and the keys of it. -/
structure Walk (α κ : Type) where
  ordered : List α
  emitted : List κ

variable (key : α → κ) (children : κ → List α)

/-- A node written. -/
def Walk.push (w : Walk α κ) (x : α) : Walk α κ := ⟨w.ordered ++ [x], key x :: w.emitted⟩

/-- A node and what is below it, unless it is written already; `none` when the calls nest deeper
than the fuel. -/
def emit [DecidableEq κ] : Nat → Walk α κ → α → Option (Walk α κ)
  | 0, _, _ => none
  | fuel + 1, w, x =>
    if key x ∈ w.emitted then some w
    else (children (key x)).foldlM (emit fuel) (w.push key x)

/-- The walk over a list of nodes that ends, one constructor for each thing a call does. -/
inductive Runs : List α → Walk α κ → Walk α κ → Prop
  | nil (w : Walk α κ) : Runs [] w w
  | skip {x : α} {xs : List α} {w w' : Walk α κ} :
    key x ∈ w.emitted → Runs xs w w' → Runs (x :: xs) w w'
  | visit {x : α} {xs : List α} {w below w' : Walk α κ} :
    key x ∉ w.emitted → Runs (children (key x)) (w.push key x) below → Runs xs below w' →
      Runs (x :: xs) w w'

variable {key children}

theorem Runs.of_emit [DecidableEq κ] {fuel : Nat} {xs : List α} {w w' : Walk α κ}
    (h : xs.foldlM (emit key children fuel) w = some w') : Runs key children xs w w' := by
  induction fuel generalizing xs w w' with
  | zero =>
    cases xs with
    | nil => cases h; exact .nil _
    | cons x xs => cases h
  | succ fuel ihf =>
    induction xs generalizing w with
    | nil => cases h; exact .nil _
    | cons x xs ih =>
      rw [foldlM_cons] at h
      obtain ⟨below, hx, hxs⟩ := Option.bind_eq_some_iff.mp h
      rw [emit] at hx
      split at hx
      · rename_i hmem
        cases hx
        exact .skip hmem (ih hxs)
      · rename_i hmem
        exact .visit hmem (ihf hx) (ih hxs)

/-- What a run ends with does not depend on the fuel it was found with. -/
theorem Runs.deterministic {xs : List α} {w w₁ w₂ : Walk α κ} (h₁ : Runs key children xs w w₁)
    (h₂ : Runs key children xs w w₂) : w₁ = w₂ := by
  induction h₁ generalizing w₂ with
  | nil w => cases h₂; rfl
  | skip hmem hrun ih =>
    cases h₂ with
    | skip _ h => exact ih h
    | visit hnot _ _ => exact absurd hmem hnot
  | visit hnot hbelow hrun ihb ih =>
    cases h₂ with
    | skip hmem _ => exact absurd hmem hnot
    | visit _ hb h =>
      cases ihb hb
      exact ih h

/-! ## What any run writes -/

/-- The keys kept are those of the nodes written, and no node is written twice. -/
structure Walk.Kept (key : α → κ) (w : Walk α κ) : Prop where
  emitted : ∀ k, k ∈ w.emitted ↔ k ∈ w.ordered.map key
  nodup : (w.ordered.map key).Nodup

theorem Walk.Kept.push {w : Walk α κ} {x : α} (h : w.Kept key) (hx : key x ∉ w.emitted) :
    (w.push key x).Kept key := by
  constructor
  · intro k
    simp [Walk.push, h.emitted, or_comm]
  · rw [h.emitted] at hx
    simp only [Walk.push, map_append, map_singleton]
    refine nodup_append.mpr ⟨h.nodup, nodup_singleton _, ?_⟩
    intro a ha b hb hab
    rw [mem_singleton.mp hb] at hab
    exact hx (hab ▸ ha)

theorem Runs.kept {xs : List α} {w w' : Walk α κ} (h : Runs key children xs w w')
    (hw : w.Kept key) : w'.Kept key := by
  induction h with
  | nil w => exact hw
  | skip _ _ ih => exact ih hw
  | visit hnot _ _ ihb ih => exact ih (ihb (hw.push hnot))

theorem Runs.grows {xs : List α} {w w' : Walk α κ} (h : Runs key children xs w w') :
    (∃ block, w'.ordered = w.ordered ++ block) ∧ w.emitted ⊆ w'.emitted := by
  induction h with
  | nil w => exact ⟨⟨[], by simp⟩, List.Subset.refl _⟩
  | skip _ _ ih => exact ih
  | @visit x _ _ _ _ hnot _ _ ihb ih =>
    obtain ⟨⟨below, hb⟩, hsb⟩ := ihb
    obtain ⟨⟨block, hblock⟩, hs⟩ := ih
    constructor
    · exact ⟨x :: (below ++ block), by simp [hblock, hb, Walk.push]⟩
    · exact fun k hk => hs (hsb (mem_cons_of_mem _ hk))

theorem Runs.emitted {xs : List α} {w w' : Walk α κ} (h : Runs key children xs w w') :
    ∀ x ∈ xs, key x ∈ w'.emitted := by
  induction h with
  | nil w => simp
  | skip hmem hrun ih =>
    intro y hy
    rcases mem_cons.mp hy with rfl | hy
    · exact hrun.grows.2 hmem
    · exact ih y hy
  | visit hnot hbelow hrun ihb ih =>
    intro y hy
    rcases mem_cons.mp hy with rfl | hy
    · exact hrun.grows.2 (hbelow.grows.2 mem_cons_self)
    · exact ih y hy

theorem Runs.subset {nodes xs : List α} {w w' : Walk α κ} (h : Runs key children xs w w')
    (hclosed : ∀ k, children k ⊆ nodes) (hxs : xs ⊆ nodes) (hw : w.ordered ⊆ nodes) :
    w'.ordered ⊆ nodes := by
  induction h with
  | nil w => exact hw
  | skip _ _ ih => exact ih (subset_of_cons_subset hxs) hw
  | visit _ _ _ ihb ih =>
    obtain ⟨hx, hxs⟩ := cons_subset.mp hxs
    refine ih hxs (ihb (hclosed _) ?_)
    simp only [Walk.push, append_subset, cons_subset, nil_subset, and_true]
    exact ⟨hw, hx⟩

/-! ## Every walk ends -/

section Ends
variable [DecidableEq κ] {nodes : List α}

/-- How many nodes are still to be written. -/
def unemitted (key : α → κ) (nodes : List α) (w : Walk α κ) : Nat :=
  nodes.countP fun x => key x ∉ w.emitted

theorem unemitted_mono {w w' : Walk α κ} (h : w.emitted ⊆ w'.emitted) :
    unemitted key nodes w' ≤ unemitted key nodes w := by
  refine countP_mono_left fun x _ hx => ?_
  simp only [decide_eq_true_eq] at hx ⊢
  exact fun hmem => hx (h hmem)

theorem unemitted_push {w : Walk α κ} {x : α} (hx : x ∈ nodes) (hnot : key x ∉ w.emitted) :
    unemitted key nodes (w.push key x) < unemitted key nodes w := by
  obtain ⟨front, back, rfl⟩ := append_of_mem hx
  have hmono : ∀ l : List α, unemitted key l (w.push key x) ≤ unemitted key l w := fun l =>
    unemitted_mono (subset_cons_self _ _)
  have hfront := hmono front
  have hback := hmono back
  unfold unemitted at *
  rw [countP_append, countP_append, countP_cons_of_neg (by simp [Walk.push]),
    countP_cons_of_pos (by simpa using hnot)]
  omega

/-- With more fuel than nodes to write every walk ends: a call nests only behind a node it wrote. -/
theorem emit_isSome {fuel : Nat} {xs : List α} {w : Walk α κ} (hclosed : ∀ k, children k ⊆ nodes)
    (hxs : xs ⊆ nodes) (hfuel : unemitted key nodes w < fuel) :
    ∃ w', xs.foldlM (emit key children fuel) w = some w' := by
  induction fuel generalizing xs w with
  | zero => omega
  | succ fuel ihf =>
    induction xs generalizing w with
    | nil => exact ⟨w, rfl⟩
    | cons x xs ih =>
      obtain ⟨hx, hxs⟩ := cons_subset.mp hxs
      have hcall : ∃ w₁, emit key children (fuel + 1) w x = some w₁ := by
        rw [emit]
        by_cases hmem : key x ∈ w.emitted
        · exact ⟨w, if_pos hmem⟩
        · rw [if_neg hmem]
          have hpush := unemitted_push hx hmem
          exact ihf (hclosed _) (by omega)
      obtain ⟨w₁, hw₁⟩ := hcall
      have hone : [x].foldlM (emit key children (fuel + 1)) w = some w₁ := by simp [hw₁]
      have hrun : Runs key children [x] w w₁ := Runs.of_emit hone
      have hle : unemitted key nodes w₁ ≤ unemitted key nodes w := unemitted_mono hrun.grows.2
      obtain ⟨w', hw'⟩ := ih hxs (w := w₁) (by omega)
      exact ⟨w', by rw [foldlM_cons, hw₁]; exact hw'⟩

end Ends

/-! ## Below a root -/

/-- Nodes with distinct keys, each a child of at most one of them. -/
structure Graph (key : α → κ) (children : κ → List α) (nodes : List α) : Prop where
  closed : ∀ k, children k ⊆ nodes
  injective : ∀ x ∈ nodes, ∀ y ∈ nodes, key x = key y → x = y
  parent : ∀ k l c, c ∈ children k → c ∈ children l → k = l
  nodup : ∀ k, (children k).Nodup

/-- `p` is the parent of `c`. -/
def Child (key : α → κ) (children : κ → List α) (nodes : List α) (c p : α) : Prop :=
  p ∈ nodes ∧ c ∈ children (key p)

/-- `y` is `x` or below it. -/
def Below (key : α → κ) (children : κ → List α) (nodes : List α) (x y : α) : Prop :=
  Relation.ReflTransGen (Child key children nodes) y x

/-- The parents of a node lead to one that has none. -/
def Rooted (key : α → κ) (children : κ → List α) (nodes : List α) (x : α) : Prop :=
  ∃ root, (∀ p, ¬ Child key children nodes root p) ∧ Below key children nodes root x

/-- The order of a walk that meets nothing it has written: each node, what is below its children,
and then what comes after it. -/
inductive Preorder (key : α → κ) (children : κ → List α) : List α → List α → Prop
  | nil : Preorder key children [] []
  | cons {x : α} {xs below after : List α} :
    Preorder key children (children (key x)) below → Preorder key children xs after →
      Preorder key children (x :: xs) (x :: (below ++ after))

section Graph
variable {nodes : List α} (g : Graph key children nodes)
include g

theorem Graph.parent_unique : Relator.RightUnique (Child key children nodes) := by
  intro c p q hp hq
  exact g.injective p hp.1 q hq.1 (g.parent _ _ c hp.2 hq.2)

/-- No node with a root is above itself: the cycle would go on up to the root. -/
theorem Graph.acyclic {x : α} (hx : Rooted key children nodes x) :
    ¬ Relation.TransGen (Child key children nodes) x x := by
  obtain ⟨root, hroot, hbelow⟩ := hx
  induction hbelow using Relation.ReflTransGen.head_induction_on with
  | refl =>
    intro hcycle
    obtain ⟨p, hp, -⟩ := Relation.TransGen.head'_iff.mp hcycle
    exact hroot p hp
  | head hparent _ ih =>
    intro hcycle
    obtain ⟨p, hp, hback⟩ := Relation.TransGen.head'_iff.mp hcycle
    cases g.parent_unique hparent hp
    exact ih (Relation.TransGen.tail' hback hparent)

theorem Graph.rooted_parent {c p : α} (hc : Rooted key children nodes c)
    (hp : Child key children nodes c p) : Rooted key children nodes p := by
  obtain ⟨root, hroot, hbelow⟩ := hc
  rcases Relation.ReflTransGen.cases_head hbelow with rfl | ⟨q, hq, hbelow⟩
  · exact absurd hp (hroot p)
  · cases g.parent_unique hp hq
    exact ⟨root, hroot, hbelow⟩

omit g in
theorem Rooted.below {x y : α} (hx : Rooted key children nodes x)
    (hy : Below key children nodes x y) : Rooted key children nodes y := by
  obtain ⟨root, hroot, hbelow⟩ := hx
  exact ⟨root, hroot, hy.trans hbelow⟩

theorem Graph.not_below_child {c p : α} (hp : Rooted key children nodes p)
    (hc : Child key children nodes c p) : ¬ Below key children nodes c p := fun h =>
  g.acyclic hp (Relation.TransGen.tail' h hc)

/-- Two children of a rooted node have nothing below them in common. -/
theorem Graph.children_apart {c d p y : α} (hp : Rooted key children nodes p)
    (hc : Child key children nodes c p) (hd : Child key children nodes d p) (hne : c ≠ d)
    (hyc : Below key children nodes c y) (hyd : Below key children nodes d y) : False := by
  have habove : ∀ {c d : α}, Child key children nodes c p → Child key children nodes d p → c ≠ d →
      ¬ Below key children nodes d c := by
    intro c d hc hd hne hbelow
    rcases Relation.ReflTransGen.cases_head hbelow with rfl | ⟨q, hq, hbelow⟩
    · exact hne rfl
    · cases g.parent_unique hc hq
      exact g.not_below_child hp hd hbelow
  rcases Relation.ReflTransGen.total_of_right_unique g.parent_unique hyc hyd with h | h
  · exact habove hc hd hne h
  · exact habove hd hc hne.symm h

/-! ### The order below some nodes -/

theorem Graph.preorder_closed {xs l : List α} (h : Preorder key children xs l) (hxs : xs ⊆ nodes) :
    xs ⊆ l ∧ l ⊆ nodes ∧ ∀ c p, p ∈ l → Child key children nodes c p → c ∈ l := by
  induction h with
  | nil => simp
  | @cons x xs below after _ _ ihb ih =>
    obtain ⟨hx, hxs⟩ := cons_subset.mp hxs
    obtain ⟨hsb, hnb, hcb⟩ := ihb (g.closed _)
    obtain ⟨hsa, hna, hca⟩ := ih hxs
    refine ⟨?_, ?_, ?_⟩
    · intro y hy
      rcases mem_cons.mp hy with rfl | hy
      · exact mem_cons_self
      · simp [hsa hy]
    · simp [hx, hnb, hna]
    · intro c p hp hc
      simp only [mem_cons, mem_append] at hp ⊢
      rcases hp with rfl | hp | hp
      · exact .inr (.inl (hsb hc.2))
      · exact .inr (.inl (hcb c p hp hc))
      · exact .inr (.inr (hca c p hp hc))

theorem Graph.mem_preorder {xs l : List α} (h : Preorder key children xs l) (hxs : xs ⊆ nodes)
    (y : α) : y ∈ l ↔ ∃ x ∈ xs, Below key children nodes x y := by
  constructor
  · intro hy
    induction h with
    | nil => cases hy
    | @cons x xs below after _ _ ihb ih =>
      obtain ⟨hx, hxs⟩ := cons_subset.mp hxs
      simp only [mem_cons, mem_append] at hy
      rcases hy with rfl | hy | hy
      · exact ⟨y, mem_cons_self, .refl⟩
      · obtain ⟨c, hc, hbelow⟩ := ihb (g.closed _) hy
        exact ⟨x, mem_cons_self, hbelow.tail ⟨hx, hc⟩⟩
      · obtain ⟨z, hz, hbelow⟩ := ih hxs hy
        exact ⟨z, mem_cons_of_mem _ hz, hbelow⟩
  · rintro ⟨x, hx, hbelow⟩
    obtain ⟨hsub, -, hclosed⟩ := g.preorder_closed h hxs
    induction hbelow using Relation.ReflTransGen.head_induction_on with
    | refl => exact hsub hx
    | head hparent _ ih => exact hclosed _ _ ih hparent

omit g in
/-- A node of it stands at the head of what is below it, in one piece. -/
theorem Preorder.block {xs l : List α} (h : Preorder key children xs l) {x : α} (hx : x ∈ l) :
    ∃ front below back, l = front ++ x :: below ++ back ∧
      Preorder key children (children (key x)) below := by
  induction h with
  | nil => cases hx
  | @cons y ys below after hb _ ihb ih =>
    simp only [mem_cons, mem_append] at hx
    rcases hx with rfl | hx | hx
    · exact ⟨[], below, after, by simp, hb⟩
    · obtain ⟨front, inner, back, rfl, hinner⟩ := ihb hx
      exact ⟨y :: front, inner, back ++ after, by simp, hinner⟩
    · obtain ⟨front, inner, back, rfl, hinner⟩ := ih hx
      exact ⟨y :: (below ++ front), inner, back, by simp, hinner⟩

/-- What a walk needs to meet nothing it has written: rooted nodes with nothing below them in common
and nothing below them written. -/
structure Fresh (key : α → κ) (children : κ → List α) (nodes : List α) (w : Walk α κ)
    (xs : List α) : Prop where
  subset : xs ⊆ nodes
  rooted : ∀ x ∈ xs, Rooted key children nodes x
  unseen : ∀ x ∈ xs, ∀ y, Below key children nodes x y → key y ∉ w.emitted
  apart : xs.Pairwise fun a b => ∀ y, Below key children nodes a y → ¬ Below key children nodes b y

theorem Graph.mem_of_below {x y : α} (hx : x ∈ nodes) (h : Below key children nodes x y) :
    y ∈ nodes := by
  rcases Relation.ReflTransGen.cases_head h with rfl | ⟨p, hp, -⟩
  · exact hx
  · exact g.closed _ hp.2

theorem Graph.fresh_children {w : Walk α κ} {x : α} {xs : List α}
    (h : Fresh key children nodes w (x :: xs)) :
    Fresh key children nodes (w.push key x) (children (key x)) := by
  have hx := h.subset mem_cons_self
  have hroot := h.rooted x mem_cons_self
  have hchild : ∀ c ∈ children (key x), Child key children nodes c x := fun c hc => ⟨hx, hc⟩
  refine ⟨g.closed _, ?_, ?_, ?_⟩
  · intro c hc
    exact hroot.below (.single (hchild c hc))
  · intro c hc y hy hmem
    rcases mem_cons.mp hmem with heq | hmem
    · have hyx := g.injective y (g.mem_of_below (g.closed _ hc) hy) x hx heq
      subst hyx
      exact g.not_below_child hroot (hchild c hc) hy
    · exact h.unseen x mem_cons_self y (hy.tail (hchild c hc)) hmem
  · refine (g.nodup (key x)).imp_of_mem ?_
    intro c d hc hd hne y hyc hyd
    exact g.children_apart hroot (hchild c hc) (hchild d hd) hne hyc hyd

theorem Graph.preorder_of_runs {xs : List α} {w w' : Walk α κ} (h : Runs key children xs w w')
    (hfresh : Fresh key children nodes w xs) : ∃ l, Preorder key children xs l ∧
      w'.ordered = w.ordered ++ l ∧ ∀ k, k ∈ w'.emitted ↔ k ∈ w.emitted ∨ k ∈ l.map key := by
  induction h with
  | nil w => exact ⟨[], .nil, by simp, by simp⟩
  | skip hmem _ _ => exact absurd hmem (hfresh.unseen _ mem_cons_self _ .refl)
  | @visit x xs w below w' _ _ _ ihb ih =>
    obtain ⟨inner, hinner, hordered, hemitted⟩ := ihb (g.fresh_children hfresh)
    have hx := hfresh.subset mem_cons_self
    have hapart := pairwise_cons.mp hfresh.apart
    have hrest : Fresh key children nodes below xs := by
      refine ⟨fun z hz => hfresh.subset (mem_cons_of_mem _ hz),
        fun z hz => hfresh.rooted z (mem_cons_of_mem _ hz), ?_, hapart.2⟩
      intro z hz y hy hmem
      have hyn := g.mem_of_below (hfresh.subset (mem_cons_of_mem _ hz)) hy
      rw [hemitted] at hmem
      rcases hmem with hmem | hmem
      · rcases mem_cons.mp hmem with heq | hmem
        · have hyx : y = x := g.injective y hyn x hx heq
          exact hapart.1 z hz x .refl (hyx ▸ hy)
        · exact hfresh.unseen z (mem_cons_of_mem _ hz) y hy hmem
      · obtain ⟨v, hv, heq⟩ := mem_map.mp hmem
        have hvn := (g.preorder_closed hinner (g.closed _)).2.1 hv
        have hvy : v = y := g.injective v hvn y hyn heq
        obtain ⟨c, hc, hbelow⟩ := (g.mem_preorder hinner (g.closed _) v).mp hv
        exact hapart.1 z hz y (hvy ▸ hbelow.tail ⟨hx, hc⟩) hy
    obtain ⟨after, hafter, hordered', hemitted'⟩ := ih hrest
    refine ⟨x :: (inner ++ after), .cons hinner hafter, ?_, ?_⟩
    · simp [hordered', hordered, Walk.push]
    · intro k
      rw [hemitted', hemitted]
      simp only [Walk.push, mem_cons, map_cons, map_append, mem_append]
      tauto

theorem Graph.fresh_roots {roots : List α} (hn : roots.Nodup)
    (hroots : ∀ r ∈ roots, r ∈ nodes ∧ ∀ p, ¬ Child key children nodes r p) :
    Fresh key children nodes ⟨[], []⟩ roots := by
  refine ⟨fun r hr => (hroots r hr).1, fun r hr => ⟨r, (hroots r hr).2, .refl⟩, by simp, ?_⟩
  refine hn.imp_of_mem ?_
  intro r s hr hs hne y hyr hys
  have hend : ∀ {r s : α}, (∀ p, ¬ Child key children nodes r p) →
      Below key children nodes s r → r = s := by
    intro r s hr h
    rcases Relation.ReflTransGen.cases_head h with heq | ⟨p, hp, -⟩
    · exact heq
    · exact absurd hp (hr p)
  rcases Relation.ReflTransGen.total_of_right_unique g.parent_unique hyr hys with h | h
  · exact hne (hend (hroots r hr).2 h)
  · exact hne (hend (hroots s hs).2 h).symm

/-- A walk that begins with the roots has every rooted node in one piece with what is below it. -/
theorem Graph.block_of_rooted {roots xs : List α} {w w' : Walk α κ} (hn : roots.Nodup)
    (hroots : ∀ r, r ∈ roots ↔ r ∈ nodes ∧ ∀ p, ¬ Child key children nodes r p)
    (h : Runs key children roots ⟨[], []⟩ w) (h' : Runs key children xs w w') {x : α}
    (hx : x ∈ nodes) (hrooted : Rooted key children nodes x) :
    ∃ front below back, w'.ordered = front ++ x :: below ++ back ∧
      ∀ y, y ∈ x :: below ↔ Below key children nodes x y := by
  have hsub : roots ⊆ nodes := fun r hr => ((hroots r).mp hr).1
  obtain ⟨l, hl, hordered, -⟩ := g.preorder_of_runs h (g.fresh_roots hn fun r => (hroots r).mp)
  obtain ⟨root, hroot, hbelow⟩ := hrooted
  have hmem : root ∈ nodes := by
    rcases Relation.ReflTransGen.cases_tail hbelow with rfl | ⟨c, -, hc⟩
    · exact hx
    · exact hc.1
  have hxl := (g.mem_preorder hl hsub x).mpr ⟨root, (hroots root).mpr ⟨hmem, hroot⟩, hbelow⟩
  obtain ⟨front, below, back, rfl, hpre⟩ := hl.block hxl
  obtain ⟨⟨rest, hrest⟩, -⟩ := h'.grows
  refine ⟨front, below, back ++ rest, by simp [hrest, hordered], ?_⟩
  have hself : Preorder key children [x] (x :: below) := by
    simpa using Preorder.cons hpre .nil
  intro y
  rw [g.mem_preorder hself (by simpa using hx)]
  simp

theorem Graph.behind_parent {roots xs : List α} {w w' : Walk α κ} (hn : roots.Nodup)
    (hroots : ∀ r, r ∈ roots ↔ r ∈ nodes ∧ ∀ p, ¬ Child key children nodes r p)
    (h : Runs key children roots ⟨[], []⟩ w) (h' : Runs key children xs w w') {x p : α}
    (hrooted : Rooted key children nodes x) (hp : Child key children nodes x p) :
    [p, x].Sublist w'.ordered := by
  have hrooted' := g.rooted_parent hrooted hp
  obtain ⟨front, below, back, heq, hblock⟩ := g.block_of_rooted hn hroots h h' hp.1 hrooted'
  have hne : x ≠ p := by
    rintro rfl
    exact g.acyclic hrooted (.single hp)
  have hx := (mem_cons.mp ((hblock x).mpr (.single hp))).resolve_left hne
  rw [heq, append_assoc]
  refine List.Sublist.trans ?_ (sublist_append_right _ _)
  refine List.Sublist.trans ?_ (sublist_append_left _ _)
  exact (singleton_sublist.mpr hx).cons_cons p

end Graph

end OpenBrain.Core.DepthFirst
