import Mathlib.Data.List.Flatten
import Mathlib.Data.List.Nodup
import Mathlib.Data.List.Perm.Basic
import Mathlib.Data.List.Sort

/-!
# Lists ordered by a key, and their pages

`orderBy key rows` is `ORDER BY`. When the keys of the rows differ, a row stands at its `place`, the
number of rows before it (`getElem?_orderBy`), so what a longer list puts first is decided by
places alone (`take_orderBy_iff`). `page n i l` is the `i`-th page of `n` rows. An `Arm` cuts each
of several tables by one key and orders what is left of them together by another.
-/
namespace OpenBrain.Core
open List

variable {α κ : Type} [LinearOrder κ] {key : α → κ} {rows rows' : List α} {a b : α} {n p : Nat}

def orderBy (key : α → κ) (rows : List α) : List α := rows.insertionSort fun a b => key a ≤ key b

def place (key : α → κ) (rows : List α) (a : α) : Nat := rows.countP fun b => decide (key b < key a)

theorem perm_orderBy (key : α → κ) (rows : List α) : (orderBy key rows).Perm rows :=
  perm_insertionSort _ _

theorem mem_orderBy : a ∈ orderBy key rows ↔ a ∈ rows := (perm_orderBy key rows).mem_iff

theorem pairwise_orderBy (h : (rows.map key).Nodup) :
    (orderBy key rows).Pairwise fun a b => key a < key b := by
  have hle : (orderBy key rows).Pairwise fun a b => key a ≤ key b := pairwise_insertionSort _ _
  have hne : (orderBy key rows).Pairwise fun a b => key a ≠ key b :=
    pairwise_map.mp (((perm_orderBy key rows).map key).nodup_iff.mpr h)
  exact (hle.and hne).imp fun h => lt_of_le_of_ne h.1 h.2

/-- The rows in the order of their keys are what `orderBy` gives. -/
theorem orderBy_eq {l : List α} (hperm : l.Perm rows)
    (hsorted : l.Pairwise fun a b => key a < key b) : orderBy key rows = l := by
  have hnodup : (rows.map key).Nodup := by
    refine ((hperm.map key).nodup_iff).mp ?_
    exact List.Pairwise.map key (fun a b h => h.ne) hsorted
  refine ((perm_orderBy key rows).trans hperm.symm).eq_of_pairwise ?_ (pairwise_orderBy hnodup) hsorted
  intro a b _ _ hab hba
  exact absurd (hab.trans hba) (lt_irrefl _)

theorem place_of_pairwise (h : rows.Pairwise fun a b => key a < key b) (hp : rows[p]? = some a) :
    place key rows a = p := by
  induction rows generalizing p with
  | nil => cases hp
  | cons b rows ih =>
    obtain ⟨hb, hrows⟩ := pairwise_cons.mp h
    unfold place
    rw [countP_cons]
    cases p with
    | zero =>
      rw [← Option.some.inj hp]
      have hnone : rows.countP (fun c => decide (key c < key b)) = 0 := by
        refine countP_eq_zero.mpr fun c hc hlt => ?_
        exact lt_asymm (hb c hc) (of_decide_eq_true hlt)
      rw [hnone, if_neg (by simp)]
    | succ p =>
      rw [getElem?_cons_succ] at hp
      have hlt : key b < key a := hb a (mem_of_getElem? hp)
      have hrest : place key rows a = p := ih hrows hp
      rw [if_pos (decide_eq_true hlt)]
      exact congrArg (· + 1) hrest

theorem place_perm (key : α → κ) (h : rows.Perm rows') (a : α) : place key rows a = place key rows' a :=
  h.countP_eq _

theorem getElem?_orderBy (h : (rows.map key).Nodup) :
    (orderBy key rows)[p]? = some a ↔ a ∈ rows ∧ place key rows a = p := by
  have hsorted := pairwise_orderBy h
  have hplace : ∀ {q : Nat} {b : α}, (orderBy key rows)[q]? = some b → place key rows b = q :=
    fun hq => (place_perm key (perm_orderBy key rows) _).symm.trans (place_of_pairwise hsorted hq)
  constructor
  · intro hp
    exact ⟨mem_orderBy.mp (mem_of_getElem? hp), hplace hp⟩
  · rintro ⟨ha, rfl⟩
    have hmem : a ∈ orderBy key rows := mem_orderBy.mpr ha
    obtain ⟨q, hq⟩ := mem_iff_getElem?.mp hmem
    rw [hplace hq]
    exact hq

theorem mem_take_orderBy (h : (rows.map key).Nodup) :
    a ∈ (orderBy key rows).take n ↔ a ∈ rows ∧ place key rows a < n := by
  rw [mem_iff_getElem?]
  constructor
  · rintro ⟨q, hq⟩
    rw [getElem?_take] at hq
    split at hq
    · rename_i hlt
      obtain ⟨ha, rfl⟩ := (getElem?_orderBy h).mp hq
      exact ⟨ha, hlt⟩
    · cases hq
  · rintro ⟨ha, hlt⟩
    refine ⟨place key rows a, ?_⟩
    rw [getElem?_take, if_pos hlt]
    exact (getElem?_orderBy h).mpr ⟨ha, rfl⟩

theorem place_mono (hsub : rows.Subperm rows') (a : α) : place key rows a ≤ place key rows' a :=
  hsub.countP_le _

/-- A row keeps its place in a longer list that puts nothing new before it. -/
theorem place_eq (hsub : rows.Subperm rows') (hnodup : (rows'.map key).Nodup)
    (h : ∀ b ∈ rows', key b < key a → b ∈ rows) : place key rows a = place key rows' a := by
  refine Nat.le_antisymm (place_mono hsub a) ?_
  have hnodup' : rows'.Nodup := hnodup.of_map key
  unfold place
  rw [countP_eq_length_filter, countP_eq_length_filter]
  refine (subperm_of_subset (hnodup'.filter _) fun b hb => ?_).length_le
  obtain ⟨hb, hlt⟩ := mem_filter.mp hb
  exact mem_filter.mpr ⟨h b hb (of_decide_eq_true hlt), hlt⟩

theorem place_lt_place (hb : b ∈ rows) (h : key b < key a) : place key rows b < place key rows a := by
  unfold place
  rw [countP_eq_length_filter, countP_eq_length_filter]
  have hsub : (rows.filter fun c => decide (key c < key b)).Sublist
      ((rows.filter fun c => decide (key c < key a)).filter fun c => decide (key c < key b)) := by
    rw [filter_filter]
    refine (filter_congr fun c _ => ?_) ▸ List.Sublist.refl _
    by_cases hc : key c < key b
    · rw [decide_eq_true hc, decide_eq_true (hc.trans h)]
      rfl
    · rw [decide_eq_false hc]
      rfl
  refine Nat.lt_of_le_of_lt hsub.length_le ?_
  rw [← countP_eq_length_filter]
  refine Nat.lt_of_le_of_ne countP_le_length fun heq => ?_
  have hall := countP_eq_length.mp heq b (mem_filter.mpr ⟨hb, decide_eq_true h⟩)
  exact lt_irrefl _ (of_decide_eq_true hall)

/-- The first rows of a list and of a longer one. -/
theorem take_orderBy_iff (hsub : rows.Subperm rows') (hnodup : (rows'.map key).Nodup) :
    (orderBy key rows).take n = (orderBy key rows').take n ↔
      ∀ b ∈ rows', place key rows' b < n → b ∈ rows := by
  have hrows : (rows.map key).Nodup := by
    obtain ⟨l, hperm, hl⟩ := hsub
    exact ((hperm.map key).nodup_iff).mp ((hl.map key).nodup hnodup)
  constructor
  · intro heq b hb hlt
    have hmem : b ∈ (orderBy key rows').take n := (mem_take_orderBy hnodup).mpr ⟨hb, hlt⟩
    rw [← heq] at hmem
    exact ((mem_take_orderBy hrows).mp hmem).1
  · intro h
    have hkept : ∀ {b : α}, b ∈ rows' → place key rows' b < n →
        b ∈ rows ∧ place key rows b = place key rows' b := by
      intro b hb hlt
      refine ⟨h b hb hlt, place_eq hsub hnodup fun c hc hcb => ?_⟩
      exact h c hc (Nat.lt_trans (place_lt_place hc hcb) hlt)
    have hlater : ∀ q b, q < n → (orderBy key rows')[q]? = some b →
        (orderBy key rows)[q]? = some b := by
      intro q b hq hb
      obtain ⟨hmem, rfl⟩ := (getElem?_orderBy hnodup).mp hb
      exact (getElem?_orderBy hrows).mpr (hkept hmem hq)
    apply ext_getElem?
    intro q
    rw [getElem?_take, getElem?_take]
    split
    · rename_i hq
      cases hl : (orderBy key rows')[q]? with
      | some b => exact hlater q b hq hl
      | none =>
        -- past the end of the longer list
        have hlong := List.getElem?_eq_none_iff.mp hl
        rw [List.getElem?_eq_none_iff, (perm_orderBy key rows).length_eq]
        rw [(perm_orderBy key rows').length_eq] at hlong
        exact Nat.le_trans hsub.length_le hlong
    · rfl

theorem zipIdx_eq_map {f : α → Nat} (h : ∀ p a, rows[p]? = some a → f a = p) :
    rows.zipIdx = rows.map fun a => (a, f a) := by
  apply ext_getElem?
  intro p
  rw [getElem?_zipIdx, getElem?_map, Nat.zero_add]
  cases hp : rows[p]? with
  | none => rfl
  | some a => exact congrArg some (Prod.ext rfl (h p a hp).symm)

/-- What a list holds of one key does not depend on its order. -/
theorem find?_perm {β : Type} [DecidableEq β] {f : α → β} (h : rows.Perm rows')
    (hnodup : (rows.map f).Nodup) (b : β) :
    rows.find? (fun a => f a = b) = rows'.find? fun a => f a = b := by
  cases hfind : rows.find? (fun a => f a = b) with
  | none =>
    symm
    rw [find?_eq_none] at hfind ⊢
    exact fun a ha => hfind a (h.mem_iff.mpr ha)
  | some a =>
    have hmem := mem_of_find?_eq_some hfind
    have ha : f a = b := by simpa using find?_some hfind
    cases hfind' : rows'.find? (fun a => f a = b) with
    | none =>
      have hnone := find?_eq_none.mp hfind' a (h.mem_iff.mp hmem)
      exact absurd (decide_eq_true ha) hnone
    | some a' =>
      have hmem' := h.mem_iff.mpr (mem_of_find?_eq_some hfind')
      have ha' : f a' = b := by simpa using find?_some hfind'
      rw [inj_on_of_nodup_map hnodup hmem hmem' (ha.trans ha'.symm)]

/-- Rows of one list are told apart by a key that tells its rows apart. -/
theorem eq_of_map_eq {β : Type} {f : α → β} {xs ys : List α} (hnodup : (rows.map f).Nodup)
    (hxs : ∀ a ∈ xs, a ∈ rows) (hys : ∀ a ∈ ys, a ∈ rows) (h : xs.map f = ys.map f) : xs = ys := by
  apply ext_getElem?
  intro q
  have hat := congrArg (fun l => l[q]?) h
  simp only [getElem?_map] at hat
  cases hx : xs[q]? with
  | none =>
    rw [hx] at hat
    exact (Option.map_eq_none_iff.mp hat.symm).symm
  | some a =>
    rw [hx] at hat
    obtain ⟨b, hy, heq⟩ := Option.map_eq_some_iff.mp hat.symm
    rw [hy, inj_on_of_nodup_map hnodup (hxs a (mem_of_getElem? hx))
      (hys b (mem_of_getElem? hy)) heq.symm]

/-! ## Pages -/

/-- The page that skips `i` pages of `n` rows. -/
def page (n i : Nat) (l : List α) : List α := (l.drop (i * n)).take n

theorem flatten_pages (n k : Nat) (l : List α) :
    ((List.range k).map fun i => page n i l).flatten = l.take (k * n) := by
  induction k with
  | zero => rw [Nat.zero_mul, take_zero]; rfl
  | succ k ih =>
    rw [range_succ, map_append, flatten_append, ih, Nat.succ_mul, take_add]
    show _ ++ (page n k l ++ []) = _
    rw [append_nil]
    rfl

/-- Two ways to cut one list, piece for piece of one length, are one. -/
theorem pieces_eq {k : Nat} {f g : Nat → List α} (hlength : ∀ i < k, (f i).length = (g i).length)
    (h : ((List.range k).map f).flatten = ((List.range k).map g).flatten) : ∀ i < k, f i = g i := by
  induction k with
  | zero => exact fun _ hi => absurd hi (Nat.not_lt_zero _)
  | succ k ih =>
    rw [range_succ, map_append, map_append, flatten_append,
      flatten_append] at h
    have hlast : [f k].flatten.length = [g k].flatten.length := by
      simpa using hlength k (Nat.lt_succ_self k)
    obtain ⟨hinit, hlast⟩ := append_inj' h hlast
    intro i hi
    rcases Nat.lt_succ_iff_lt_or_eq.mp hi with hi | rfl
    · exact ih (fun j hj => hlength j (Nat.lt_succ_of_lt hj)) hinit i hi
    · simpa using hlast

theorem page_eq_iff {n i : Nat} {l l' : List α} :
    page n i l = page n i l' ↔ ∀ q, i * n ≤ q → q < (i + 1) * n → l[q]? = l'[q]? := by
  constructor
  · intro h q hle hlt
    have hq : q - i * n < n := by rw [Nat.succ_mul] at hlt; omega
    have hat := congrArg (fun l => l[q - i * n]?) h
    simpa only [page, getElem?_take, if_pos hq, getElem?_drop, Nat.add_sub_cancel' hle]
      using hat
  · intro h
    apply ext_getElem?
    intro q
    unfold page
    rw [getElem?_take, getElem?_take]
    split
    · rename_i hq
      rw [getElem?_drop, getElem?_drop]
      exact h _ (Nat.le_add_right _ _) (by rw [Nat.succ_mul]; omega)
    · rfl

theorem map_page {β : Type} (f : α → β) (n i : Nat) (l : List α) :
    (page n i l).map f = page n i (l.map f) := by
  unfold page
  rw [map_take, map_drop]

theorem length_page (n i : Nat) (l : List α) : (page n i l).length = min n (l.length - i * n) := by
  unfold page
  rw [length_take, List.length_drop]

/-! ## Arms -/

structure Arm (σ α κ κ' : Type) where
  rows : σ → List α
  cut : σ → α → κ
  order : α → κ'

namespace Arm

variable {σ κ' : Type} [LinearOrder κ'] (arm : Arm σ α κ κ') (tables : List σ) {m : Nat}

def all : List α := tables.flatMap fun t => orderBy (arm.cut t) (arm.rows t)

/-- The first `m` rows of each table. -/
def cutAt (m : Nat) : List α := tables.flatMap fun t => (orderBy (arm.cut t) (arm.rows t)).take m

def window (m : Nat) : List α := orderBy arm.order (arm.cutAt tables m)

/-- The rows with fewer than `m` before them in their own table. -/
def reach (m : Nat) : List α :=
  tables.flatMap fun t => (arm.rows t).filter fun a => place (arm.cut t) (arm.rows t) a < m

/-- The rows before a row among the reached ones. -/
def rank (m : Nat) (a : α) : Nat := place arm.order (arm.reach tables m) a

/-- The keys of each table's cut differ, and so do the keys of all rows. -/
structure Distinct : Prop where
  cut : ∀ t ∈ tables, ((arm.rows t).map (arm.cut t)).Nodup
  order : ((arm.all tables).map arm.order).Nodup

omit [LinearOrder κ'] in
theorem cutAt_sublist_all (m : Nat) : (arm.cutAt tables m).Sublist (arm.all tables) :=
  List.Sublist.flatMap_right _ fun _ _ => take_sublist _ _

omit [LinearOrder κ'] in
theorem cutAt_sublist {m m' : Nat} (h : m ≤ m') :
    (arm.cutAt tables m).Sublist (arm.cutAt tables m') :=
  List.Sublist.flatMap_right _ fun _ _ => (take_prefix_take_left h).sublist

omit [LinearOrder κ'] in
theorem cutAt_all (h : (arm.all tables).length ≤ m) : arm.cutAt tables m = arm.all tables := by
  refine flatMap_congr fun t ht => take_of_length_le ?_
  refine Nat.le_trans (List.Sublist.length_le ?_) h
  exact sublist_flatten_of_mem (mem_map_of_mem ht)

theorem le_length_window (h : m ≤ (arm.all tables).length) : m ≤ (arm.window tables m).length := by
  unfold window
  rw [(perm_orderBy _ _).length_eq]
  by_cases hlong : ∃ t ∈ tables, m ≤ (orderBy (arm.cut t) (arm.rows t)).length
  · obtain ⟨t, ht, hle⟩ := hlong
    have hsub : ((orderBy (arm.cut t) (arm.rows t)).take m).Sublist (arm.cutAt tables m) :=
      sublist_flatten_of_mem
        (mem_map_of_mem (f := fun t => (orderBy (arm.cut t) (arm.rows t)).take m) ht)
    have hlength := hsub.length_le
    rw [length_take, Nat.min_eq_left hle] at hlength
    exact hlength
  · -- no table is cut
    have hshort : arm.cutAt tables m = arm.all tables :=
      flatMap_congr fun t ht => take_of_length_le
        (Nat.le_of_not_le fun hle => hlong ⟨t, ht, hle⟩)
    rw [hshort]
    exact h

variable {arm tables} (hd : arm.Distinct tables)
include hd

omit [LinearOrder κ'] in
theorem nodup_cutAt (m : Nat) : ((arm.cutAt tables m).map arm.order).Nodup :=
  hd.order.sublist ((arm.cutAt_sublist_all tables m).map _)

omit [LinearOrder κ'] in
theorem cutAt_perm (m : Nat) : (arm.cutAt tables m).Perm (arm.reach tables m) := by
  refine List.Perm.flatMap_left _ fun t ht => ?_
  have hrows : (arm.rows t).Nodup := (hd.cut t ht).of_map _
  refine (perm_ext_iff_of_nodup ?_ (hrows.filter _)).mpr fun a => ?_
  · exact (((perm_orderBy (arm.cut t) (arm.rows t)).nodup_iff).mpr hrows).sublist
      (take_sublist _ _)
  · rw [mem_take_orderBy (hd.cut t ht), mem_filter, decide_eq_true_iff]

theorem getElem?_window {p : Nat} {a : α} :
    (arm.window tables m)[p]? = some a ↔ a ∈ arm.reach tables m ∧ arm.rank tables m a = p := by
  unfold window rank
  rw [getElem?_orderBy (nodup_cutAt hd m), (cutAt_perm hd m).mem_iff,
    place_perm arm.order (cutAt_perm hd m)]

/-- The first rows of a narrow window are those of a wide one when the narrow one reaches them. -/
theorem take_window_iff {m m' N : Nat} (h : m ≤ m') :
    (arm.window tables m).take N = (arm.window tables m').take N ↔
      ∀ a ∈ arm.reach tables m', arm.rank tables m' a < N → a ∈ arm.reach tables m := by
  unfold window rank
  rw [take_orderBy_iff (arm.cutAt_sublist tables h).subperm (nodup_cutAt hd m')]
  constructor
  · intro hall a ha hlt
    rw [← place_perm arm.order (cutAt_perm hd m')] at hlt
    exact (cutAt_perm hd m).mem_iff.mp (hall a ((cutAt_perm hd m').mem_iff.mpr ha) hlt)
  · intro hall a ha hlt
    rw [place_perm arm.order (cutAt_perm hd m')] at hlt
    exact (cutAt_perm hd m).mem_iff.mpr (hall a ((cutAt_perm hd m').mem_iff.mp ha) hlt)

end Arm

end OpenBrain.Core
