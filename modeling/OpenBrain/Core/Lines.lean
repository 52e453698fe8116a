import Mathlib.Data.List.SplitBy

/-!
# Files of lines: runs of related lines and headed blocks

`List.splitBy r` cuts a list into its maximal runs; `infix_splitBy` says that a
related stretch of the list lies inside one run.

A *headed* file is a list of lines some of which are headers with a key. A block
is a header and the lines up to the next header; `without` drops the blocks with
given keys. `HasBlock.without` and `HasBlock.append` say that the other blocks
stay whole, and `countKey_without` that none of the dropped keys is left; a list of
blocks with distinct keys has each of them once (`hasBlock_blocks`,
`countKey_blocks`).
-/
namespace OpenBrain.Core
open List

/-! ## Runs -/

section Runs

variable {α : Type} {r : α → α → Bool}

theorem infix_flatten_of_chain {gs : List (List α)} (hne : [] ∉ gs)
    (hbreak : gs.IsChain fun a b => ∃ ha hb, r (a.getLast ha) (b.head hb) = false)
    {L : List α} (hL : L ≠ []) (hchain : L.IsChain fun x y => r x y)
    (h : L <:+: gs.flatten) : ∃ g ∈ gs, L <:+: g := by
  induction gs with
  | nil =>
    rw [flatten_nil, infix_nil] at h
    exact absurd h hL
  | cons g gs ih =>
    have hne' : [] ∉ gs := fun hmem => hne (mem_cons_of_mem _ hmem)
    rw [flatten_cons, infix_append_iff_ne_nil] at h
    rcases h with h | h | ⟨l₁, l₂, h₁, h₂, rfl, hs, hp⟩
    · exact ⟨g, mem_cons_self, h⟩
    · obtain ⟨g', hg', hin⟩ := ih hne' hbreak.tail h
      exact ⟨g', mem_cons_of_mem _ hg', hin⟩
    · -- the stretch would cross a boundary, where the relation is broken
      exfalso
      cases gs with
      | nil =>
        rw [flatten_nil, prefix_nil] at hp
        exact h₂ hp
      | cons g' gs =>
        obtain ⟨hg, hg', hfalse⟩ := (isChain_cons_cons.mp hbreak).1
        obtain ⟨t₁, rfl⟩ := hs
        have hlast : (t₁ ++ l₁).getLast hg = l₁.getLast h₁ := getLast_append_of_ne_nil hg h₁
        have hhead : g'.head hg' = l₂.head h₂ := by
          obtain ⟨t₂, ht⟩ := hp
          have := congrArg List.head? ht
          rw [flatten_cons, head?_append_of_ne_nil _ hg',
            head?_append_of_ne_nil _ h₂, head?_eq_some_head hg',
            head?_eq_some_head h₂] at this
          exact (Option.some.inj this).symm
        have htrue := (isChain_append.mp hchain).2.2 (l₁.getLast h₁)
          (getLast?_eq_some_getLast h₁) (l₂.head h₂) (head?_eq_some_head h₂)
        rw [hlast, hhead] at hfalse
        rw [hfalse] at htrue
        cases htrue

/-- A related stretch lies inside one run. -/
theorem infix_splitBy {l L : List α} (hL : L ≠ []) (hchain : L.IsChain fun x y => r x y)
    (h : L <:+: l) : ∃ g ∈ l.splitBy r, L <:+: g := by
  have hflat := flatten_splitBy r l
  exact infix_flatten_of_chain (nil_notMem_splitBy r l)
    (isChain_getLast_head_splitBy r l) hL hchain (by rwa [hflat])

/-- Between two runs the relation is broken. -/
theorem splitBy_boundary {l : List α} {before after : List (List α)}
    (h : l.splitBy r = before ++ after) {x y : α} (hx : before.flatten.getLast? = some x)
    (hy : after.flatten.head? = some y) : r x y = false := by
  have hne : [] ∉ before ++ after := h ▸ nil_notMem_splitBy r l
  have hchain := isChain_getLast_head_splitBy r l
  rw [h, isChain_append] at hchain
  rcases eq_nil_or_concat before with rfl | ⟨before, a, rfl⟩
  · cases hx
  cases after with
  | nil => cases hy
  | cons b after =>
    rw [concat_eq_append] at *
    have ha : a ≠ [] := fun heq => hne (by simp [heq])
    have hb : b ≠ [] := fun heq => hne (by simp [heq])
    obtain ⟨_, _, hr⟩ := hchain.2.2 a (by simp) b rfl
    rw [flatten_append, flatten_singleton, getLast?_append_of_ne_nil _ ha,
      getLast?_eq_some_getLast ha] at hx
    rw [flatten_cons, head?_append_of_ne_nil _ hb, head?_eq_some_head hb] at hy
    rw [← Option.some.inj hx, ← Option.some.inj hy]
    exact hr

end Runs

/-! ## Headed blocks -/

section Blocks

variable {α κ : Type} (header : α → Option (Option κ))

/-- Whether a line is dropped: a header decides by its key (one without a key is
kept), another line goes with the line before it. -/
def dropsAt (ks : κ → Bool) (dropping : Bool) (a : α) : Bool :=
  match header a with
  | some (some k) => ks k
  | some none => false
  | none => dropping

/-- Drop the blocks whose key is in `ks`; `dropping` says whether the line before
belonged to such a block. -/
def without (ks : κ → Bool) : Bool → List α → List α
  | _, [] => []
  | dropping, a :: as =>
    if dropsAt header ks dropping a then without ks true as else a :: without ks false as

/-- Nothing, or a header first. -/
def AtHeader (l : List α) : Prop := ∀ a as, l = a :: as → header a ≠ none

/-- The file has a block with this key and exactly these lines. -/
def HasBlock (l : List α) (k : κ) (body : List α) : Prop :=
  ∃ pre e post, l = pre ++ e :: (body ++ post) ∧ header e = some (some k) ∧
    (∀ a ∈ body, header a = none) ∧ AtHeader header post

/-- The number of headers with key `k`. -/
def countKey [DecidableEq κ] (k : κ) (l : List α) : Nat :=
  (l.filter fun a => decide (header a = some (some k))).length

variable {header} {ks : κ → Bool}

theorem without_body {body : List α} (h : ∀ a ∈ body, header a = none) (post : List α) :
    without header ks false (body ++ post) = body ++ without header ks false post := by
  induction body with
  | nil => rfl
  | cons a body ih =>
    have ha := h a (by simp)
    simp [without, dropsAt, ha, ih fun b hb => h b (by simp [hb])]

/-- While lines are dropped, what is left starts at a header. -/
theorem atHeader_without (l : List α) : AtHeader header (without header ks true l) := by
  induction l with
  | nil =>
    intro a as h
    cases h
  | cons b l ih =>
    intro a as h
    simp only [without] at h
    split at h
    · exact ih a as h
    · rename_i hd
      rw [← (List.cons.inj h).1]
      intro hb
      simp [dropsAt, hb] at hd

theorem atHeader_without_of {l : List α} (h : AtHeader header l) (d : Bool) :
    AtHeader header (without header ks d l) := by
  cases l with
  | nil =>
    intro a as h
    cases h
  | cons b l =>
    have hb := h b l rfl
    -- a header sets the flag, whatever it was
    have hflag : dropsAt header ks d b = dropsAt header ks true b := by
      unfold dropsAt
      cases hb' : header b with
      | none => exact absurd hb' hb
      | some k? => cases k? <;> rfl
    have : without header ks d (b :: l) = without header ks true (b :: l) := by
      simp only [without, hflag]
    rw [this]
    exact atHeader_without _

theorem without_append (d : Bool) (l m : List α) : ∃ d',
    without header ks d (l ++ m) = without header ks d l ++ without header ks d' m := by
  induction l generalizing d with
  | nil => exact ⟨d, rfl⟩
  | cons a l ih =>
    simp only [cons_append, without]
    split
    · exact ih true
    · obtain ⟨d', h⟩ := ih false
      exact ⟨d', by rw [h]; rfl⟩

theorem sublist_without (d : Bool) (l : List α) : (without header ks d l).Sublist l := by
  induction l generalizing d with
  | nil => exact .slnil
  | cons a l ih =>
    simp only [without]
    split
    · exact (ih true).cons a
    · exact (ih false).cons_cons a

/-- A block whose key is not dropped stays whole. -/
theorem HasBlock.without {l : List α} {k : κ} {body : List α} (h : HasBlock header l k body)
    (hk : ks k = false) (d : Bool) : HasBlock header (without header ks d l) k body := by
  obtain ⟨pre, e, post, rfl, he, hbody, hpost⟩ := h
  obtain ⟨d', hd⟩ : ∃ d', OpenBrain.Core.without header ks d (pre ++ e :: (body ++ post)) =
      OpenBrain.Core.without header ks d pre ++
        OpenBrain.Core.without header ks d' (e :: (body ++ post)) := without_append d pre _
  refine ⟨OpenBrain.Core.without header ks d pre, e, OpenBrain.Core.without header ks false post,
    ?_, he, hbody, atHeader_without_of hpost false⟩
  rw [hd]
  congr 1
  simp only [OpenBrain.Core.without, dropsAt, he, hk, Bool.false_eq_true, ↓reduceIte]
  rw [without_body hbody]

/-- Blocks stay whole when lines that start at a header are added behind. -/
theorem HasBlock.append {l m : List α} {k : κ} {body : List α} (h : HasBlock header l k body)
    (hm : AtHeader header m) : HasBlock header (l ++ m) k body := by
  obtain ⟨pre, e, post, rfl, he, hbody, hpost⟩ := h
  refine ⟨pre, e, post ++ m, by simp, he, hbody, ?_⟩
  intro a as h
  cases post with
  | nil => exact hm a as h
  | cons b post =>
    rw [cons_append, List.cons.injEq] at h
    rw [← h.1]
    exact hpost b post rfl

theorem HasBlock.length_le {l : List α} {k : κ} {body : List α} (h : HasBlock header l k body) :
    body.length + 1 ≤ l.length := by
  obtain ⟨pre, e, post, rfl, -, -, -⟩ := h
  simp only [length_append, length_cons]
  omega

section Count

variable [DecidableEq κ]

theorem countKey_append (k : κ) (l m : List α) :
    countKey header k (l ++ m) = countKey header k l + countKey header k m := by
  simp [countKey]

theorem countKey_without {k : κ} (hk : ks k = true) (d : Bool) (l : List α) :
    countKey header k (without header ks d l) = 0 := by
  induction l generalizing d with
  | nil => rfl
  | cons a l ih =>
    simp only [without]
    split
    · exact ih _
    · rename_i hd
      have ha : header a ≠ some (some k) := by
        intro ha
        simp [dropsAt, ha, hk] at hd
      have hcons : ∀ m, countKey header k (a :: m) = countKey header k m := by
        intro m
        simp [countKey, ha]
      rw [hcons]
      exact ih _

/-- The other headers stay. -/
theorem countKey_without_ne {k : κ} (hk : ks k = false) (d : Bool) (l : List α) :
    countKey header k (without header ks d l) = countKey header k l := by
  induction l generalizing d with
  | nil => rfl
  | cons a l ih =>
    simp only [without]
    split
    · rename_i hd
      have ha : header a ≠ some (some k) := by
        intro ha
        simp [dropsAt, ha, hk] at hd
      have hcons : countKey header k (a :: l) = countKey header k l := by simp [countKey, ha]
      rw [hcons]
      exact ih _
    · have hcons : ∀ m, countKey header k (a :: m) = countKey header k [a] + countKey header k m :=
        fun m => countKey_append k [a] m
      rw [hcons, hcons l, ih]

theorem HasBlock.count_pos {l : List α} {k : κ} {body : List α} (h : HasBlock header l k body) :
    0 < countKey header k l := by
  obtain ⟨pre, e, post, rfl, he, -, -⟩ := h
  have hcons : ∀ m, countKey header k (e :: m) = countKey header k m + 1 := by
    intro m
    simp [countKey, he]
  rw [countKey_append, hcons]
  omega

end Count

/-! ## Blocks one after another -/

/-- A header with the key, and lines that are no headers. -/
def IsBlock (header : α → Option (Option κ)) (k : κ) (lines : List α) : Prop :=
  ∃ e body, lines = e :: body ∧ header e = some (some k) ∧ ∀ a ∈ body, header a = none

section BlockList

variable {bs : List (κ × List α)}

theorem atHeader_blocks (h : ∀ p ∈ bs, IsBlock header p.1 p.2) :
    AtHeader header (bs.flatMap Prod.snd) := by
  intro a as heq
  cases bs with
  | nil => cases heq
  | cons p bs =>
    obtain ⟨e, body, hp, he, -⟩ := h p mem_cons_self
    rw [flatMap_cons, hp, cons_append, List.cons.injEq] at heq
    rw [← heq.1, he]
    exact Option.some_ne_none _

theorem hasBlock_blocks (h : ∀ p ∈ bs, IsBlock header p.1 p.2) (pre : List α) {k : κ} {e : α}
    {body : List α} (hmem : (k, e :: body) ∈ bs) :
    HasBlock header (pre ++ bs.flatMap Prod.snd) k body := by
  obtain ⟨l, r, rfl⟩ := append_of_mem hmem
  obtain ⟨e', body', heq, he, hbody⟩ := h (k, e :: body) hmem
  obtain ⟨rfl, rfl⟩ := List.cons.inj heq
  refine ⟨pre ++ l.flatMap Prod.snd, e, r.flatMap Prod.snd, by simp, he, hbody, ?_⟩
  apply atHeader_blocks
  intro p hp
  exact h p (mem_append_right l (mem_cons_of_mem _ hp))

variable [DecidableEq κ]

theorem countKey_block {k k' : κ} {lines : List α} (h : IsBlock header k' lines) :
    countKey header k lines = if k' = k then 1 else 0 := by
  obtain ⟨e, body, rfl, he, hbody⟩ := h
  have hnil : body.filter (fun a => decide (header a = some (some k))) = [] := by
    rw [filter_eq_nil_iff]
    intro a ha
    simp [hbody a ha]
  by_cases hk : k' = k <;> simp [countKey, he, hk, hnil]

theorem countKey_blocks (h : ∀ p ∈ bs, IsBlock header p.1 p.2) (hn : (bs.map Prod.fst).Nodup)
    (k : κ) : countKey header k (bs.flatMap Prod.snd) = if k ∈ bs.map Prod.fst then 1 else 0 := by
  induction bs with
  | nil => rfl
  | cons p bs ih =>
    rw [map_cons, nodup_cons] at hn
    rw [flatMap_cons, countKey_append, countKey_block (h p mem_cons_self),
      ih (fun q hq => h q (mem_cons_of_mem _ hq)) hn.2]
    by_cases hk : p.1 = k
    · subst hk
      rw [if_pos rfl, if_neg hn.1, if_pos (by simp)]
    · have hiff : k ∈ (p :: bs).map Prod.fst ↔ k ∈ bs.map Prod.fst := by
        rw [map_cons, mem_cons]
        exact or_iff_right (Ne.symm hk)
      rw [if_neg hk, Nat.zero_add]
      simp only [hiff]

end BlockList

end Blocks

end OpenBrain.Core
