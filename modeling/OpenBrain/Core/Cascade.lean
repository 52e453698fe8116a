import Mathlib.Data.List.Nodup

/-!
# Deleting a row with everything that refers to it

Rows with a key and, some of them, the key of a parent in the same table.
`deleteCascade` deletes the rows of a key and then, as `ON DELETE CASCADE` does,
every row whose parent is gone; `Below t root r` says that `r` is a row of `root`
or has an ancestor that is. In a table where every parent is there
(`Whole`) the two agree (`mem_deleteCascade`).
-/
namespace OpenBrain.Core.Cascade
open List

variable {ρ κ : Type} [DecidableEq κ] (key : ρ → κ) (parent : ρ → Option κ)

def hasParent (t : List ρ) (r : ρ) : Bool :=
  match parent r with
  | some p => t.any fun q => key q == p
  | none => true

/-- Every parent is in the table. -/
def Whole (t : List ρ) : Prop := ∀ r ∈ t, hasParent key parent t r = true

/-- Rounds of deleting the rows without their parent. -/
def dropOrphans : Nat → List ρ → List ρ
  | 0, t => t
  | n + 1, t => dropOrphans n (t.filter (hasParent key parent t))

/-- A table has fewer rounds than rows. -/
def deleteCascade (root : κ) (t : List ρ) : List ρ :=
  dropOrphans key parent t.length (t.filter fun r => !(key r == root))

/-- The row is one of `root`, or its parent is below `root`. -/
inductive Below (t : List ρ) (root : κ) : ρ → Prop
  | root {r : ρ} : r ∈ t → key r = root → Below t root r
  | part {r q : ρ} : r ∈ t → parent r = some (key q) → Below t root q → Below t root r

variable {key parent} {t u : List ρ} {root : κ} {r : ρ}

theorem hasParent_iff : hasParent key parent t r = true ↔
    ∀ p, parent r = some p → ∃ q ∈ t, key q = p := by
  unfold hasParent
  cases parent r with
  | none => simp
  | some p => simp [any_eq_true]

omit [DecidableEq κ] in
theorem Below.mem (h : Below key parent t root r) : r ∈ t := by
  cases h with
  | root hmem _ => exact hmem
  | part hmem _ _ => exact hmem

theorem dropOrphans_sublist (n : Nat) (t : List ρ) : (dropOrphans key parent n t).Sublist t := by
  induction n generalizing t with
  | zero => exact .refl t
  | succ n ih => exact (ih _).trans filter_sublist

/-- With as many rounds as rows, no orphan is left: a round that deletes nothing ends it. -/
theorem whole_dropOrphans {n : Nat} (h : t.length ≤ n) :
    Whole key parent (dropOrphans key parent n t) := by
  induction n generalizing t with
  | zero =>
    have hnil : t = [] := length_eq_zero_iff.mp (Nat.le_zero.mp h)
    subst hnil
    intro r hr
    cases hr
  | succ n ih =>
    unfold dropOrphans
    by_cases hall : Whole key parent t
    · have hsame : ∀ m, dropOrphans key parent m t = t := by
        intro m
        induction m with
        | zero => rfl
        | succ m ihm =>
          unfold dropOrphans
          rw [filter_eq_self.mpr hall]
          exact ihm
      rw [filter_eq_self.mpr hall, hsame]
      exact hall
    · apply ih
      have hlt : (t.filter (hasParent key parent t)).length < t.length := by
        apply Nat.lt_of_le_of_ne (length_filter_le _ _)
        intro he
        exact hall (filter_eq_self.mp (filter_sublist.eq_of_length he))
      omega

/-- A row that the rounds delete is below the root, if the rows gone before are. -/
theorem below_of_dropped (hw : Whole key parent t) {n : Nat}
    (hu : ∀ r ∈ t, r ∉ u → Below key parent t root r) (hr : r ∈ t)
    (hgone : r ∉ dropOrphans key parent n u) : Below key parent t root r := by
  induction n generalizing u with
  | zero => exact hu r hr hgone
  | succ n ih =>
    refine ih ?_ hgone
    intro q hq hqu
    by_cases hmem : q ∈ u
    · -- an orphan of this round, whose parent went before
      have horphan : ¬ hasParent key parent u q = true :=
        fun hp => hqu (mem_filter.mpr ⟨hmem, hp⟩)
      rw [hasParent_iff] at horphan
      push Not at horphan
      obtain ⟨p, hp, hnone⟩ := horphan
      obtain ⟨parentRow, hin, rfl⟩ := hasParent_iff.mp (hw q hq) p hp
      exact .part hq hp (hu parentRow hin fun h => hnone parentRow h rfl)
    · exact hu q hq hmem

theorem deleteCascade_sublist (root : κ) (t : List ρ) :
    (deleteCascade key parent root t).Sublist t :=
  (dropOrphans_sublist _ _).trans filter_sublist

theorem whole_deleteCascade (root : κ) (t : List ρ) :
    Whole key parent (deleteCascade key parent root t) :=
  whole_dropOrphans (length_filter_le _ _)

/-! ## Parts of a table -/

omit [DecidableEq κ] in
theorem Below.exists_root (h : Below key parent t root r) : ∃ q ∈ t, key q = root := by
  induction h with
  | root hmem hk => exact ⟨_, hmem, hk⟩
  | part _ _ _ ih => exact ih

variable (key parent) in
/-- Every row of `u` has a row of `t` with its key and parent. -/
def Within (t u : List ρ) : Prop := ∀ r ∈ u, ∃ q ∈ t, key q = key r ∧ parent q = parent r

omit [DecidableEq κ] in
theorem Below.of_within {r' : ρ} (hkeys : (t.map key).Nodup) (hsub : Within key parent t u)
    (h : Below key parent u root r') (hr : r ∈ t) (he : key r = key r') :
    Below key parent t root r := by
  induction h generalizing r with
  | root _ hk => exact .root hr (he.trans hk)
  | part hmem hp hq ih =>
    obtain ⟨r₁, hr₁, hk₁, hp₁⟩ := hsub _ hmem
    obtain ⟨q₁, hq₁, hkq, -⟩ := hsub _ hq.mem
    have hsame : r₁ = r := inj_on_of_nodup_map hkeys hr₁ hr (hk₁.trans he.symm)
    rw [hsame] at hp₁
    exact .part hr (by rw [hp₁, hp, hkq]) (ih hq₁ hkq)

/-- A whole part of the table has the ancestors of its rows. -/
theorem Below.within {r' : ρ} (hkeys : (t.map key).Nodup) (hsub : Within key parent t u)
    (hw : Whole key parent u) (h : Below key parent t root r) (hr : r' ∈ u)
    (he : key r' = key r) : Below key parent u root r' := by
  induction h generalizing r' with
  | root _ hk => exact .root hr (he.trans hk)
  | part hmem hp hq ih =>
    obtain ⟨r₁, hr₁, hk₁, hp₁⟩ := hsub _ hr
    have hsame := inj_on_of_nodup_map hkeys hr₁ hmem (hk₁.trans he)
    rw [hsame] at hp₁
    obtain ⟨q', hq', hkq⟩ := hasParent_iff.mp (hw _ hr) _ (hp₁.symm.trans hp)
    exact .part hr (by rw [← hp₁, hp, hkq]) (ih hq' hkq)

theorem mem_deleteCascade (hkeys : (t.map key).Nodup) (hw : Whole key parent t) (hr : r ∈ t) :
    r ∈ deleteCascade key parent root t ↔ ¬ Below key parent t root r := by
  constructor
  · intro hmem hbelow
    have hsub : Within key parent t (deleteCascade key parent root t) :=
      fun q hq => ⟨q, (deleteCascade_sublist root t).subset hq, rfl, rfl⟩
    obtain ⟨q, hq, hk⟩ :=
      (hbelow.within hkeys hsub (whole_deleteCascade root t) hmem rfl).exists_root
    have := of_mem_filter ((dropOrphans_sublist _ _).subset hq)
    rw [hk, beq_self_eq_true] at this
    cases this
  · intro hnot
    by_contra hgone
    refine hnot (below_of_dropped hw ?_ hr hgone)
    intro q hq hfiltered
    refine .root hq ?_
    by_contra hk
    exact hfiltered (mem_filter.mpr ⟨hq, by simpa using hk⟩)

end OpenBrain.Core.Cascade
