import Mathlib.Data.List.Induction
import Mathlib.Data.List.Nodup

/-!
# Dictionaries as lists of pairs

`Assoc.set` assigns a key in place or at the end, as an insertion-ordered
dictionary does; `Assoc.ofWrites` makes all the assignments of a list. The last
assignment of a key is the one that counts (`mem_ofWrites_iff`).
-/
namespace OpenBrain.Core.Assoc
open List

variable {κ β : Type} [DecidableEq κ]

def set (l : List (κ × β)) (k : κ) (v : β) : List (κ × β) :=
  match l with
  | [] => [(k, v)]
  | (k', v') :: l => if k' = k then (k', v) :: l else (k', v') :: set l k v

/-- All the assignments of a list, from the first to the last. -/
def ofWrites (ws : List (κ × β)) : List (κ × β) := ws.foldl (fun l w => set l w.1 w.2) []

/-- The value of the last pair with a key. -/
def last? (ws : List (κ × β)) (k : κ) : Option β :=
  ((ws.filter fun w => decide (w.1 = k)).getLast?).map Prod.snd

theorem keys_set (l : List (κ × β)) (k : κ) (v : β) :
    (set l k v).map Prod.fst =
      if k ∈ l.map Prod.fst then l.map Prod.fst else l.map Prod.fst ++ [k] := by
  induction l with
  | nil => simp [set]
  | cons p l ih =>
    obtain ⟨k', v'⟩ := p
    simp only [set]
    by_cases hk : k' = k
    · subst hk
      simp
    · simp only [hk, ↓reduceIte, map_cons, ih, mem_cons, Ne.symm hk, false_or]
      split <;> rfl

theorem set_of_notMem {l : List (κ × β)} {k : κ} (h : k ∉ l.map Prod.fst) (v : β) :
    set l k v = l ++ [(k, v)] := by
  induction l with
  | nil => rfl
  | cons p l ih =>
    rw [map_cons, mem_cons, not_or] at h
    show (if p.1 = k then _ else _) = _
    rw [if_neg (Ne.symm h.1), ih h.2]
    rfl

theorem nodup_set {l : List (κ × β)} (h : (l.map Prod.fst).Nodup) (k : κ) (v : β) :
    ((set l k v).map Prod.fst).Nodup := by
  rw [keys_set]
  split
  · exact h
  · rename_i hk
    rw [nodup_append]
    refine ⟨h, nodup_singleton k, ?_⟩
    intro a ha b hb
    rw [mem_singleton] at hb
    subst hb
    exact fun hab => hk (hab ▸ ha)

theorem mem_set_iff {l : List (κ × β)} (h : (l.map Prod.fst).Nodup) (k : κ) (v : β) (p : κ × β) :
    p ∈ set l k v ↔ p = (k, v) ∨ (p ∈ l ∧ p.1 ≠ k) := by
  induction l with
  | nil => simp [set]
  | cons q l ih =>
    obtain ⟨k', v'⟩ := q
    simp only [map_cons, nodup_cons] at h
    simp only [set]
    by_cases hk : k' = k
    · subst hk
      have hne : ∀ q ∈ l, q.1 ≠ k' := fun q hq heq => h.1 (heq ▸ mem_map_of_mem hq)
      simp only [↓reduceIte, mem_cons]
      constructor
      · intro hp
        rcases hp with rfl | hp
        · exact .inl rfl
        · exact .inr ⟨.inr hp, hne p hp⟩
      · intro hp
        rcases hp with rfl | ⟨rfl | hp, hne'⟩
        · exact .inl rfl
        · exact absurd rfl hne'
        · exact .inr hp
    · simp only [hk, ↓reduceIte, mem_cons, ih h.2]
      constructor
      · intro hp
        rcases hp with rfl | rfl | ⟨hp, hne⟩
        · exact .inr ⟨.inl rfl, hk⟩
        · exact .inl rfl
        · exact .inr ⟨.inr hp, hne⟩
      · intro hp
        rcases hp with rfl | ⟨rfl | hp, hne⟩
        · exact .inr (.inl rfl)
        · exact .inl rfl
        · exact .inr (.inr ⟨hp, hne⟩)

theorem last?_append_singleton (ws : List (κ × β)) (w : κ × β) (k : κ) :
    last? (ws ++ [w]) k = if w.1 = k then some w.2 else last? ws k := by
  unfold last?
  by_cases hk : w.1 = k <;> simp [hk]

theorem last?_append (us ws : List (κ × β)) (k : κ) :
    last? (us ++ ws) k = (last? ws k).or (last? us k) := by
  induction ws using List.reverseRecOn with
  | nil => rw [append_nil]; rfl
  | append_singleton ws w ih =>
    rw [← append_assoc, last?_append_singleton, last?_append_singleton, ih]
    by_cases hk : w.1 = k
    · rw [if_pos hk, if_pos hk, Option.some_or]
    · rw [if_neg hk, if_neg hk]

/-- With distinct keys every pair is the last one with its key. -/
theorem last?_of_nodup {ws : List (κ × β)} (hn : (ws.map Prod.fst).Nodup) {k : κ} {v : β}
    (h : (k, v) ∈ ws) : last? ws k = some v := by
  induction ws using List.reverseRecOn with
  | nil => cases h
  | append_singleton ws w ih =>
    rw [map_append, nodup_append] at hn
    rw [last?_append_singleton]
    rcases mem_append.mp h with h | h
    · have hne : w.1 ≠ k := fun hk =>
        hn.2.2 k (mem_map_of_mem h) w.1 (mem_singleton.mpr rfl) hk.symm
      rw [if_neg hne]
      exact ih hn.1 h
    · rw [← mem_singleton.mp h, if_pos rfl]

theorem last?_isSome_iff {ws : List (κ × β)} {k : κ} :
    (last? ws k).isSome = true ↔ k ∈ ws.map Prod.fst := by
  unfold last?
  rw [Option.isSome_map, getLast?_isSome]
  simp [filter_eq_nil_iff]

theorem last?_map (f : κ → β → γ) (ws : List (κ × β)) (k : κ) :
    last? (ws.map fun w => (w.1, f w.1 w.2)) k = (last? ws k).map (f k) := by
  induction ws using List.reverseRecOn with
  | nil => rfl
  | append_singleton ws w ih =>
    rw [map_append, map_singleton, last?_append_singleton, last?_append_singleton, ih]
    by_cases hk : w.1 = k
    · subst hk
      rw [if_pos rfl, if_pos rfl, Option.map_some]
    · rw [if_neg hk, if_neg hk]

theorem ofWrites_concat (ws : List (κ × β)) (w : κ × β) :
    ofWrites (ws ++ [w]) = set (ofWrites ws) w.1 w.2 := by
  simp [ofWrites]

/-- Assignments of distinct keys are the dictionary. -/
theorem ofWrites_of_nodup {ws : List (κ × β)} (h : (ws.map Prod.fst).Nodup) : ofWrites ws = ws := by
  induction ws using List.reverseRecOn with
  | nil => rfl
  | append_singleton ws w ih =>
    rw [map_append, nodup_append] at h
    have hw : w.1 ∉ ws.map Prod.fst := fun hmem =>
      h.2.2 w.1 hmem w.1 (mem_singleton.mpr rfl) rfl
    rw [ofWrites_concat, ih h.1, set_of_notMem hw]

/-- The keys are distinct, and each has the value of its last assignment. -/
theorem ofWrites_spec (ws : List (κ × β)) :
    ((ofWrites ws).map Prod.fst).Nodup ∧
      ∀ k v, (k, v) ∈ ofWrites ws ↔ last? ws k = some v := by
  induction ws using List.reverseRecOn with
  | nil => simp [ofWrites, last?]
  | append_singleton ws w ih =>
    obtain ⟨hn, hmem⟩ := ih
    rw [ofWrites_concat]
    refine ⟨nodup_set hn _ _, ?_⟩
    intro k v
    rw [mem_set_iff hn, last?_append_singleton, hmem]
    obtain ⟨l, x⟩ := w
    by_cases hk : l = k
    · simp [hk, eq_comm]
    · simp [hk, Ne.symm hk]

theorem nodup_ofWrites (ws : List (κ × β)) : ((ofWrites ws).map Prod.fst).Nodup :=
  (ofWrites_spec ws).1

theorem mem_ofWrites_iff (ws : List (κ × β)) (k : κ) (v : β) :
    (k, v) ∈ ofWrites ws ↔ last? ws k = some v := (ofWrites_spec ws).2 k v

theorem mem_keys_ofWrites_iff (ws : List (κ × β)) (k : κ) :
    k ∈ (ofWrites ws).map Prod.fst ↔ (last? ws k).isSome = true := by
  rw [mem_map, Option.isSome_iff_exists]
  constructor
  · rintro ⟨⟨k', v⟩, hmem, rfl⟩
    exact ⟨v, (mem_ofWrites_iff ws k' v).mp hmem⟩
  · rintro ⟨v, hv⟩
    exact ⟨(k, v), (mem_ofWrites_iff ws k v).mpr hv, rfl⟩

theorem mem_of_last? {ws : List (κ × β)} {k : κ} {v : β} (h : last? ws k = some v) :
    (k, v) ∈ ws := by
  unfold last? at h
  obtain ⟨w, hw, rfl⟩ := Option.map_eq_some_iff.mp h
  have hmem := mem_of_getLast? hw
  rw [mem_filter, decide_eq_true_eq] at hmem
  rw [← hmem.2]
  exact hmem.1

/-- A key that was assigned has a last value. -/
theorem last?_of_mem {ws : List (κ × β)} {w : κ × β} (h : w ∈ ws) : ∃ v, last? ws w.1 = some v := by
  have hmem : w ∈ ws.filter fun x => decide (x.1 = w.1) := by simp [h]
  have hne := ne_nil_of_mem hmem
  refine ⟨((ws.filter fun x => decide (x.1 = w.1)).getLast hne).2, ?_⟩
  unfold last?
  rw [getLast?_eq_some_getLast hne, Option.map_some]

/-! ## Values by key -/

section Values
variable {κ β γ : Type}

/-- The values changed one by one; a key whose value is refused goes. -/
def mapValues (f : β → Option γ) (l : List (κ × β)) : List (κ × γ) :=
  l.filterMap fun p => (f p.2).map fun v => (p.1, v)

def ofKeys (ks : List κ) (f : κ → Option β) : List (κ × β) :=
  ks.filterMap fun k => (f k).map fun v => (k, v)

theorem keys_mapValues (f : β → Option γ) (l : List (κ × β)) :
    ((mapValues f l).map Prod.fst).Sublist (l.map Prod.fst) := by
  induction l with
  | nil => exact .slnil
  | cons p l ih =>
    unfold mapValues at ih ⊢
    rw [filterMap_cons, map_cons]
    cases f p.2 with
    | none => exact ih.cons _
    | some v => exact ih.cons_cons _

theorem nodup_mapValues {f : β → Option γ} {l : List (κ × β)} (h : (l.map Prod.fst).Nodup) :
    ((mapValues f l).map Prod.fst).Nodup := List.Nodup.sublist (keys_mapValues f l) h

theorem lookup_of_notMem [BEq κ] [LawfulBEq κ] {l : List (κ × β)} {k : κ} (h : k ∉ l.map Prod.fst) :
    l.lookup k = none := by
  rw [lookup_eq_none_iff]
  intro p hp
  rw [bne_iff_ne]
  intro heq
  exact h (heq ▸ mem_map_of_mem hp)

theorem mem_of_lookup [BEq κ] [LawfulBEq κ] {l : List (κ × β)} {k : κ} {v : β}
    (h : l.lookup k = some v) : (k, v) ∈ l := by
  obtain ⟨front, back, rfl, -⟩ := List.lookup_eq_some_iff.mp h
  simp

/-- With distinct keys a pair is what its key is looked up to. -/
theorem lookup_of_mem [BEq κ] [LawfulBEq κ] {l : List (κ × β)} (h : (l.map Prod.fst).Nodup)
    {k : κ} {v : β} (hmem : (k, v) ∈ l) : l.lookup k = some v := by
  induction l with
  | nil => cases hmem
  | cons p l ih =>
    obtain ⟨k', v'⟩ := p
    rw [map_cons, nodup_cons] at h
    rw [lookup_cons]
    rcases mem_cons.mp hmem with heq | hmem
    · cases heq
      rw [beq_self_eq_true]
    · have hk : k ≠ k' := fun hk => h.1 (mem_map.mpr ⟨(k, v), hmem, hk⟩)
      rw [beq_eq_false_iff_ne.mpr hk]
      exact ih h.2 hmem

theorem lookup_mapValues [BEq κ] [LawfulBEq κ] (f : β → Option γ) {l : List (κ × β)}
    (h : (l.map Prod.fst).Nodup) (k : κ) : (mapValues f l).lookup k = (l.lookup k).bind f := by
  induction l with
  | nil => rfl
  | cons p l ih =>
    obtain ⟨k', v⟩ := p
    rw [map_cons, nodup_cons] at h
    have ih := ih h.2
    rw [lookup_cons]
    show List.lookup k (List.filterMap _ _) = _
    rw [filterMap_cons]
    by_cases hk : k = k'
    · subst hk
      rw [beq_self_eq_true]
      cases hv : f v with
      | none =>
        rw [Option.bind_some, hv]
        exact lookup_of_notMem fun hmem => h.1 ((keys_mapValues f l).subset hmem)
      | some w =>
        simp only [Option.map_some, lookup_cons, beq_self_eq_true, hv, Option.bind_some]
    · rw [beq_eq_false_iff_ne.mpr hk]
      cases hv : f v with
      | none => exact ih
      | some w =>
        simp only [Option.map_some, lookup_cons, beq_eq_false_iff_ne.mpr hk]
        exact ih

theorem lookup_set [DecidableEq κ] [BEq κ] [LawfulBEq κ] (l : List (κ × β)) (k : κ) (v : β)
    (k' : κ) : (set l k v).lookup k' = if k' = k then some v else l.lookup k' := by
  induction l with
  | nil =>
    unfold set
    rw [lookup_cons]
    by_cases hk : k' = k
    · simp [hk]
    · rw [beq_eq_false_iff_ne.mpr hk, if_neg hk]
  | cons p l ih =>
    obtain ⟨k₀, v₀⟩ := p
    unfold set
    by_cases h₀ : k₀ = k
    · subst h₀
      rw [if_pos rfl, lookup_cons, lookup_cons]
      by_cases hk : k' = k₀
      · simp [hk]
      · rw [beq_eq_false_iff_ne.mpr hk, if_neg hk]
    · rw [if_neg h₀, lookup_cons, lookup_cons, ih]
      by_cases hk : k' = k₀
      · subst hk
        simp [h₀]
      · rw [beq_eq_false_iff_ne.mpr hk]

theorem keys_ofKeys (ks : List κ) (f : κ → Option β) :
    ((ofKeys ks f).map Prod.fst).Sublist ks := by
  induction ks with
  | nil => exact .slnil
  | cons k ks ih =>
    unfold ofKeys at ih ⊢
    rw [filterMap_cons]
    cases f k with
    | none => exact ih.cons _
    | some v => exact ih.cons_cons _

theorem nodup_ofKeys {ks : List κ} {f : κ → Option β} (h : ks.Nodup) :
    ((ofKeys ks f).map Prod.fst).Nodup := List.Nodup.sublist (keys_ofKeys ks f) h

theorem lookup_ofKeys [BEq κ] [LawfulBEq κ] {ks : List κ} (f : κ → Option β) {k : κ}
    (h : k ∈ ks) :
    (ofKeys ks f).lookup k = f k := by
  induction ks with
  | nil => cases h
  | cons k' ks ih =>
    show List.lookup k (List.filterMap _ _) = _
    rw [filterMap_cons]
    by_cases hk : k = k'
    · subst hk
      cases hv : f k with
      | none =>
        by_cases hmem : k ∈ ks
        · exact (ih hmem).trans hv
        · exact lookup_of_notMem fun hin => hmem ((keys_ofKeys ks f).subset hin)
      | some v => simp only [Option.map_some, lookup_cons, beq_self_eq_true]
    · have hmem : k ∈ ks := (mem_cons.mp h).resolve_left hk
      cases f k' with
      | none => exact ih hmem
      | some v =>
        simp only [Option.map_some, lookup_cons, beq_eq_false_iff_ne.mpr hk]
        exact ih hmem

theorem lookup_ofWrites [DecidableEq κ] [BEq κ] [LawfulBEq κ] (ws : List (κ × β)) (k : κ) :
    (ofWrites ws).lookup k = last? ws k := by
  induction ws using List.reverseRecOn with
  | nil => rfl
  | append_singleton ws w ih =>
    rw [ofWrites_concat, lookup_set, last?_append_singleton, ih]
    exact if_congr eq_comm rfl rfl

end Values

end OpenBrain.Core.Assoc
