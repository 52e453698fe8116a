import OpenBrain.Core.Assoc

/-!
# Grouping by a key

`groupInto` files every element under its key, as a loop over a dictionary of lists does. A group
has exactly the elements with its key, in their order (`mem_groupInto_iff`), and the groups together
are the list again (`groupInto_perm`).
-/
namespace OpenBrain.Core.Grouping
open List

variable {κ α : Type} [DecidableEq κ] [BEq κ] [LawfulBEq κ]

/-- `x` at the end of the list under `k`. -/
def push (groups : List (κ × List α)) (k : κ) (x : α) : List (κ × List α) :=
  Assoc.set groups k ((groups.lookup k).getD [] ++ [x])

/-- The elements by key, the keys in the order they are first met. -/
def groupInto (key : α → κ) (xs : List α) : List (κ × List α) :=
  xs.foldl (fun groups x => push groups (key x) x) []

theorem groupInto_concat (key : α → κ) (xs : List α) (x : α) :
    groupInto key (xs ++ [x]) = push (groupInto key xs) (key x) x := by
  simp [groupInto]

theorem nodup_groupInto (key : α → κ) (xs : List α) :
    ((groupInto key xs).map Prod.fst).Nodup := by
  induction xs using List.reverseRecOn with
  | nil => exact nodup_nil
  | append_singleton xs x ih =>
    rw [groupInto_concat]
    exact Assoc.nodup_set ih _ _

/-- What a key is looked up to: the elements with it, and nothing when there are none. -/
theorem lookup_groupInto (key : α → κ) (xs : List α) (k : κ) :
    ((groupInto key xs).lookup k).getD [] = xs.filter fun x => decide (key x = k) := by
  induction xs using List.reverseRecOn with
  | nil => rfl
  | append_singleton xs x ih =>
    rw [groupInto_concat, push, Assoc.lookup_set, filter_append]
    by_cases hk : k = key x
    · subst hk
      simp [ih]
    · simp [hk, Ne.symm hk, ih]

theorem mem_groupInto {key : α → κ} {xs : List α} {k : κ} {members : List α}
    (h : (k, members) ∈ groupInto key xs) : members = xs.filter fun x => decide (key x = k) := by
  rw [← lookup_groupInto, Assoc.lookup_of_mem (nodup_groupInto key xs) h]
  rfl

theorem push_perm (groups : List (κ × List α)) (k : κ) (x : α) :
    ((push groups k x).flatMap Prod.snd).Perm (groups.flatMap Prod.snd ++ [x]) := by
  unfold push
  induction groups with
  | nil => simp [Assoc.set]
  | cons g groups ih =>
    obtain ⟨k', members⟩ := g
    by_cases hk : k = k'
    · subst hk
      simp only [Assoc.set, lookup_cons, beq_self_eq_true, if_true, Option.getD_some,
        flatMap_cons, append_assoc]
      exact List.Perm.append_left members perm_append_comm
    · simp only [Assoc.set, lookup_cons, beq_eq_false_iff_ne.mpr hk, if_neg (Ne.symm hk),
        flatMap_cons, append_assoc]
      exact List.Perm.append_left members ih

theorem groupInto_perm (key : α → κ) (xs : List α) :
    ((groupInto key xs).flatMap Prod.snd).Perm xs := by
  induction xs using List.reverseRecOn with
  | nil => exact .nil
  | append_singleton xs x ih =>
    rw [groupInto_concat]
    exact (push_perm _ _ x).trans (ih.append_right [x])

end OpenBrain.Core.Grouping
