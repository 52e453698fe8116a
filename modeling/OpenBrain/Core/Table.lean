import Mathlib.Data.List.Nodup

/-!
# Tables

A table is a list of rows. `updateWhere` is `UPDATE … SET … WHERE …`, row by row; what
every assignment keeps of a row, the table keeps: its columns (`column_updateWhere`) and
what is unique among some of its rows (`filter_map_sublist`). `upsert` is `INSERT … ON CONFLICT`:
`p` tells which rows the new one conflicts with.
-/
namespace OpenBrain.Core.Table
open List

variable {ρ κ : Type}

def updateWhere (p : ρ → Bool) (f : ρ → ρ) (t : List ρ) : List ρ :=
  t.map fun r => if p r then f r else r

variable {p : ρ → Bool} {f : ρ → ρ} {t : List ρ} {r : ρ}

theorem mem_updateWhere : r ∈ updateWhere p f t ↔
    (r ∈ t ∧ p r = false) ∨ ∃ q ∈ t, p q = true ∧ f q = r := by
  unfold updateWhere
  rw [mem_map]
  constructor
  · intro ⟨q, hq, h⟩
    by_cases hp : p q = true
    · rw [if_pos hp] at h
      exact .inr ⟨q, hq, hp, h⟩
    · rw [if_neg hp] at h
      subst h
      exact .inl ⟨hq, Bool.eq_false_iff.mpr hp⟩
  · intro h
    rcases h with ⟨hr, hp⟩ | ⟨q, hq, hp, h⟩
    · exact ⟨r, hr, by rw [hp]; rfl⟩
    · exact ⟨q, hq, by rw [if_pos hp, h]⟩

theorem map_of_fixed (h : ∀ r ∈ t, f r = r) : t.map f = t := by
  induction t with
  | nil => rfl
  | cons r t ih =>
    rw [map_cons, h r mem_cons_self,
      ih fun q hq => h q (mem_cons_of_mem r hq)]

theorem updateWhere_of_none (h : ∀ r ∈ t, p r = false) : updateWhere p f t = t := by
  apply map_of_fixed
  intro r hr
  rw [h r hr]
  rfl

/-- A search that no assignment affects finds the row as it has become. -/
theorem find?_updateWhere {q : ρ → Bool} (hq : ∀ r, p r = true → q (f r) = q r) :
    (updateWhere p f t).find? q = (t.find? q).map fun r => if p r then f r else r := by
  unfold updateWhere
  rw [find?_map]
  congr 2
  funext r
  dsimp only [Function.comp]
  split
  · rename_i hp
    exact hq r hp
  · rfl

/-- A row that is replaced, all others kept, is found by whatever found the old one first. -/
theorem find?_replaced [DecidableEq κ] {c : ρ → κ} (h : (t.map c).Nodup) {q : ρ → Bool} {new : ρ}
    (hr : t.find? q = some r) (hq : q new = true) :
    (updateWhere (fun old => decide (c old = c r)) (fun _ => new) t).find? q = some new := by
  induction t with
  | nil => cases hr
  | cons first t ih =>
    unfold updateWhere
    rw [map_cons] at h ⊢
    by_cases hfirst : q first = true
    · rw [find?_cons_of_pos hfirst] at hr
      cases hr
      rw [if_pos (decide_eq_true rfl), find?_cons_of_pos hq]
    · rw [find?_cons_of_neg hfirst] at hr
      have hne : ¬c first = c r := fun heq =>
        (nodup_cons.mp h).1 (heq ▸ mem_map_of_mem (mem_of_find?_eq_some hr))
      rw [if_neg (by simpa using hne), find?_cons_of_neg hfirst]
      exact ih (nodup_cons.mp h).2 hr

theorem column_updateWhere {c : ρ → κ} (hc : ∀ r, c (f r) = c r) :
    (updateWhere p f t).map c = t.map c := by
  unfold updateWhere
  rw [map_map]
  apply map_congr_left
  intro r _
  show c (if p r then f r else r) = c r
  split
  · exact hc r
  · rfl

theorem mem_or_of_mem_updateWhere (h : r ∈ updateWhere p f t) :
    r ∈ t ∨ ∃ q ∈ t, p q = true ∧ f q = r := by
  rcases mem_updateWhere.mp h with ⟨hr, _⟩ | hq
  · exact .inl hr
  · exact .inr hq

/-- An update of rows that lie, before and after, outside a selection. -/
theorem filter_updateWhere {q : ρ → Bool} (h : ∀ r ∈ t, p r = true → q r = false ∧ q (f r) = false) :
    (updateWhere p f t).filter q = t.filter q := by
  induction t with
  | nil => rfl
  | cons r t ih =>
    have ih := ih fun x hx => h x (mem_cons_of_mem r hx)
    unfold updateWhere at ih ⊢
    rw [map_cons]
    by_cases hp : p r = true
    · obtain ⟨hq, hq'⟩ := h r mem_cons_self hp
      rw [if_pos hp, filter_cons_of_neg (by rw [hq']; exact Bool.false_ne_true),
        filter_cons_of_neg (by rw [hq]; exact Bool.false_ne_true), ih]
    · rw [if_neg hp, filter_cons, filter_cons, ih]

/-- A selection by columns that the update keeps. -/
theorem filter_updateWhere_of_kept {q : ρ → Bool} (h : ∀ r, q (f r) = q r) :
    (updateWhere p f t).filter q = updateWhere p f (t.filter q) := by
  unfold updateWhere
  rw [filter_map]
  congr 1
  apply filter_congr
  intro r _
  show q (if p r then f r else r) = q r
  split
  · exact h r
  · rfl

def upsert (p : ρ → Bool) (merge : ρ → ρ) (new : ρ) (t : List ρ) : List ρ :=
  if t.any p then updateWhere p merge t else t ++ [new]

/-- `ON CONFLICT DO NOTHING` -/
def insertNew (p : ρ → Bool) (new : ρ) (t : List ρ) : List ρ := if t.any p then t else t ++ [new]

/-- What holds of every row still does after an upsert: `A` is what is known when the new row
conflicts, `B` when it does not. -/
theorem forall_upsert {P : ρ → Prop} {new : ρ} {A B : Prop} (ht : ∀ r ∈ t, P r)
    (h : if t.any p then A else B) (hmerge : A → ∀ r ∈ t, p r = true → P (f r))
    (hnew : B → P new) : ∀ r ∈ upsert p f new t, P r := by
  intro r hr
  unfold upsert at hr
  split at hr
  · rename_i hany
    rw [if_pos hany] at h
    rcases mem_or_of_mem_updateWhere hr with hr | ⟨q, hq, hp, rfl⟩
    · exact ht r hr
    · exact hmerge h q hq hp
  · rename_i hany
    rw [if_neg hany] at h
    rcases mem_append.mp hr with hr | hr
    · exact ht r hr
    · rw [mem_singleton.mp hr]
      exact hnew h

theorem forall_updateWhere {P : ρ → Prop} (ht : ∀ r ∈ t, P r)
    (h : ∀ r ∈ t, p r = true → P (f r)) : ∀ r ∈ updateWhere p f t, P r := by
  intro r hr
  rcases mem_or_of_mem_updateWhere hr with hr | ⟨q, hq, hp, rfl⟩
  · exact ht r hr
  · exact h q hq hp

theorem forall_insertNew {P : ρ → Prop} {new : ρ} (ht : ∀ r ∈ t, P r)
    (h : t.any p = true ∨ P new) : ∀ r ∈ insertNew p new t, P r := by
  intro r hr
  unfold insertNew at hr
  split at hr
  · exact ht r hr
  · rename_i hany
    rcases mem_append.mp hr with hr | hr
    · exact ht r hr
    · rw [mem_singleton.mp hr]
      exact h.resolve_left hany

/-! ## Constraints -/

/-- A unique index; rows whose key is `none` are not in it. -/
def Unique (key : ρ → Option κ) (t : List ρ) : Prop := (t.filterMap key).Nodup

instance [DecidableEq κ] (key : ρ → Option κ) : DecidablePred (Unique key) := fun t =>
  inferInstanceAs (Decidable (t.filterMap key).Nodup)

/-- Two rows of an index under one key are one row. -/
theorem Unique.eq {key : ρ → Option κ} {k : κ} (h : Unique key t) {q : ρ} (hr : r ∈ t) (hq : q ∈ t)
    (hrk : key r = some k) (hqk : key q = some k) : r = q := by
  induction t with
  | nil => cases hr
  | cons a t ih =>
    unfold Unique at h
    -- the key of the first row does not come back among the rest
    have hfirst : ∀ p ∈ t, key a = some k → key p = some k → False := by
      intro p hp ha hpk
      rw [filterMap_cons_some ha, nodup_cons] at h
      exact h.1 (mem_filterMap.mpr ⟨p, hp, hpk⟩)
    have htail : Unique key t := by
      cases ha : key a with
      | none => rwa [filterMap_cons_none ha] at h
      | some _ =>
        rw [filterMap_cons_some ha, nodup_cons] at h
        exact h.2
    rcases mem_cons.mp hr with hra | hrt <;> rcases mem_cons.mp hq with hqa | hqt
    · rw [hra, hqa]
    · exact (hfirst q hqt (hra ▸ hrk) hqk).elim
    · exact (hfirst r hrt (hqa ▸ hqk) hrk).elim
    · exact ih htail hrt hqt

theorem unique_iff {key : ρ → Option κ} :
    Unique key t ↔ t.Pairwise fun a b => ∀ k, key a = some k → key b ≠ some k := by
  unfold Unique List.Nodup
  rw [pairwise_filterMap]
  refine ⟨fun h => h.imp fun hab k ha hb => hab k ha k hb rfl, fun h => h.imp ?_⟩
  intro a b hab k ha k' hb hk
  exact hab k ha (hk ▸ hb)

theorem Unique.concat {key : ρ → Option κ} {new : ρ} (h : Unique key t)
    (hnew : ∀ k, key new = some k → ∀ q ∈ t, key q ≠ some k) : Unique key (t ++ [new]) := by
  rw [unique_iff, pairwise_append]
  refine ⟨unique_iff.mp h, pairwise_singleton _ _, fun a ha b hb k hak hbk => ?_⟩
  rw [mem_singleton.mp hb] at hbk
  exact hnew k hbk a ha hak

/-- An update of one row at most, to a key that no other row has. -/
theorem Unique.updateWhere {key : ρ → Option κ} (h : Unique key t)
    (hone : t.Pairwise fun a b => p a = true → p b = false)
    (hnew : ∀ q ∈ t, p q = true → ∀ k, key (f q) = some k → ∀ r ∈ t, p r = false → key r ≠ some k) :
    Unique key (updateWhere p f t) := by
  rw [unique_iff] at h ⊢
  unfold Table.updateWhere
  rw [pairwise_map]
  refine (h.and hone).imp_of_mem fun {a b} ha hb hab k hka => ?_
  by_cases hpa : p a = true
  · have hpb := hab.2 hpa
    rw [if_pos hpa] at hka
    rw [hpb]
    exact hnew a ha hpa k hka b hb hpb
  · rw [if_neg hpa] at hka
    split
    · rename_i hpb
      exact fun hkb => hnew b hb hpb k hkb a ha (Bool.eq_false_iff.mpr hpa) hka
    · exact hab.1 k hka

/-- A table that meets its constraints. -/
structure Constrained (ρ : Type) (I : List ρ → Prop) where
  rows : List ρ
  ok : I rows

/-- What a statement makes of the rows, unless a constraint refuses it. -/
def attempt {I : List ρ → Prop} [DecidablePred I] (rows : List ρ) : Option (Constrained ρ I) :=
  if h : I rows then some ⟨rows, h⟩ else none

theorem attempt_of_ok {I : List ρ → Prop} [DecidablePred I] {rows : List ρ} (h : I rows) :
    ∃ t : Constrained ρ I, attempt rows = some t ∧ t.rows = rows :=
  ⟨⟨rows, h⟩, dif_pos h, rfl⟩

theorem rows_of_attempt {I : List ρ → Prop} [DecidablePred I] {rows : List ρ}
    {t : Constrained ρ I} (h : attempt rows = some t) : t.rows = rows := by
  unfold attempt at h
  split at h
  · cases h
    rfl
  · cases h

/-- Rows that stay in a part of the table, by a change that keeps the column `c`. -/
theorem filter_map_sublist {c : ρ → κ} (hp : ∀ r ∈ t, p (f r) = true → p r = true)
    (hc : ∀ r ∈ t, c (f r) = c r) :
    (((t.map f).filter p).map c).Sublist ((t.filter p).map c) := by
  induction t with
  | nil => exact .slnil
  | cons r t ih =>
    have ih := ih (fun q hq => hp q (mem_cons_of_mem r hq))
      fun q hq => hc q (mem_cons_of_mem r hq)
    have hcr := hc r mem_cons_self
    have hpr := hp r mem_cons_self
    rw [map_cons]
    by_cases h : p (f r) = true
    · rw [filter_cons_of_pos h, filter_cons_of_pos (hpr h), map_cons,
        map_cons, hcr]
      exact ih.cons_cons _
    · rw [filter_cons_of_neg h]
      by_cases h' : p r = true
      · rw [filter_cons_of_pos h', map_cons]
        exact ih.cons _
      · rw [filter_cons_of_neg h']
        exact ih

theorem eq_of_key {c : ρ → κ} (h : (t.map c).Nodup) {q : ρ} (hr : r ∈ t) (hq : q ∈ t)
    (he : c r = c q) : r = q := inj_on_of_nodup_map h hr hq he

/-- A row is found by what only rows of its key have. -/
theorem find?_of_key {c : ρ → κ} (h : (t.map c).Nodup) {q : ρ → Bool} (hr : r ∈ t) (hq : q r = true)
    (hkey : ∀ other, q other = true → c other = c r) : t.find? q = some r := by
  cases hfind : t.find? q with
  | none => exact absurd hq (find?_eq_none.mp hfind r hr)
  | some other =>
    rw [eq_of_key h (mem_of_find?_eq_some hfind) hr (hkey other (find?_some hfind))]

end OpenBrain.Core.Table
