import Mathlib.Algebra.GroupWithZero.Nat

/-!
# Regular expressions under several readings

The syntax of a backtracking engine's patterns over code points: runs of a class, sequences,
alternatives, word boundaries and looks ahead and behind. What a class accepts, where a word ends
and how a run is counted is up to a `Reading`; two engines that share the syntax are two readings of
it. `rests` are the positions after a match, in the order the engine tries them, and `finds` is a
search. A reading below another finds no more (`finds_mono`), so what two readings have in common
(`meet`) and what either allows (`join`) bound what both find.
-/
namespace OpenBrain.Core.Regex
open List

/-- A class of characters: ranges of code points, with the white space when `space`, or what is
left beside them when `negated`. -/
structure Class where
  negated : Bool
  space : Bool
  ranges : List (Nat × Nat)
  deriving DecidableEq

inductive Pattern where
  | empty
  | many (c : Class) (lo : Nat) (hi : Option Nat) (greedy : Bool)
  | seq (r s : Pattern)
  | alt (r s : Pattern)
  | boundary
  | ahead (r : Pattern)
  | notAhead (c : Class)
  | notBehind (c : Class)
  deriving DecidableEq

/-- How an engine reads the parts of a pattern; the first argument is the flag that ignores case. -/
structure Reading where
  accepts : Bool → Class → Nat → Bool
  refuses : Bool → Class → Nat → Bool
  boundary : Option Nat → Option Nat → Bool
  counts : Nat → Option Nat → List Nat → Bool

/-! ## An engine -/

/-- A position: what is behind it, nearest first, and what is ahead. -/
abbrev Pos := List Nat × List Nat

section Engine
variable (R : Reading) (ignoreCase : Bool)

def rests : Pattern → Pos → List Pos
  | .empty, q => [q]
  | .many c lo hi greedy, q =>
    let run := q.2.takeWhile (R.accepts ignoreCase c)
    let ends := (List.range (run.length + 1)).filter fun n => R.counts lo hi (q.2.take n)
    (if greedy then ends.reverse else ends).map fun n => ((q.2.take n).reverse ++ q.1, q.2.drop n)
  | .seq r s, q => (rests r q).flatMap (rests s)
  | .alt r s, q => rests r q ++ rests s q
  | .boundary, q => if R.boundary q.1.head? q.2.head? then [q] else []
  | .ahead r, q => if (rests r q).isEmpty then [] else [q]
  | .notAhead c, q => if q.2.head?.all (R.refuses ignoreCase c) then [q] else []
  | .notBehind c, q => if q.1.head?.all (R.refuses ignoreCase c) then [q] else []

/-- A search from a position on. -/
def findsFrom (r : Pattern) : List Nat → List Nat → Bool
  | behind, [] => !(rests R ignoreCase r (behind, [])).isEmpty
  | behind, x :: text =>
    !(rests R ignoreCase r (behind, x :: text)).isEmpty || findsFrom r (x :: behind) text

def finds (r : Pattern) (text : List Nat) : Bool := findsFrom R ignoreCase r [] text

/-- The matches of a global search, each beginning where the one before it ended. `skip` characters
are left of the last one. -/
def countFrom (r : Pattern) : Nat → List Nat → List Nat → Nat
  | skip, behind, [] =>
    if skip = 0 then (if (rests R ignoreCase r (behind, [])).isEmpty then 0 else 1) else 0
  | skip + 1, behind, x :: text => countFrom r skip (x :: behind) text
  | 0, behind, x :: text =>
    match rests R ignoreCase r (behind, x :: text) with
    | [] => countFrom r 0 (x :: behind) text
    | q :: _ => 1 + countFrom r (text.length - q.2.length) (x :: behind) text

end Engine

/-! ## Alphabets -/

/-- What an engine knows of characters: its white space, its word characters, the letter it compares
when case is ignored, and how many units of a string each one is. -/
structure Alphabet where
  space : Nat → Bool
  word : Nat → Bool
  lower : Nat → Nat
  units : Nat → Nat

def Class.holds (c : Class) (x : Nat) : Bool := c.ranges.any fun r => r.1 ≤ x && x ≤ r.2

/-- The capital of a small letter. -/
def upper (x : Nat) : Nat := if 97 ≤ x ∧ x ≤ 122 then x - 32 else x

namespace Alphabet
variable (A : Alphabet)

def accepts (ignoreCase : Bool) (c : Class) (x : Nat) : Bool :=
  (c.space && A.space x || c.holds x ||
    ignoreCase && (c.holds (A.lower x) || c.holds (upper (A.lower x)))) != c.negated

/-- The engine with this alphabet. -/
def reading : Reading where
  accepts := A.accepts
  refuses i c x := !A.accepts i c x
  boundary b a := b.any A.word != a.any A.word
  counts lo hi run := decide (lo ≤ (run.map A.units).sum) &&
    hi.all fun hi => decide ((run.map A.units).sum ≤ hi)

/-- Two alphabets know the character alike. -/
structure Alike (B : Alphabet) (x : Nat) : Prop where
  space : A.space x = B.space x
  word : A.word x = B.word x
  lower : A.lower x = B.lower x
  units : A.units x = B.units x

instance (B : Alphabet) (x : Nat) : Decidable (A.Alike B x) :=
  decidable_of_iff (A.space x = B.space x ∧ A.word x = B.word x ∧ A.lower x = B.lower x ∧
    A.units x = B.units x)
    ⟨fun ⟨h₁, h₂, h₃, h₄⟩ => ⟨h₁, h₂, h₃, h₄⟩, fun h => ⟨h.space, h.word, h.lower, h.units⟩⟩

end Alphabet

/-! ## Readings in order -/

/-- Whatever `R` lets a pattern take of the characters `S`, `R'` does. -/
structure Below (S : Nat → Prop) (R R' : Reading) : Prop where
  accepts : ∀ i c x, S x → R.accepts i c x = true → R'.accepts i c x = true
  refuses : ∀ i c x, S x → R.refuses i c x = true → R'.refuses i c x = true
  boundary : ∀ b a, (∀ x ∈ b, S x) → (∀ x ∈ a, S x) → R.boundary b a = true → R'.boundary b a = true
  counts : ∀ lo hi run, (∀ x ∈ run, S x) → R.counts lo hi run = true → R'.counts lo hi run = true

/-- What both readings allow. -/
def meet (R R' : Reading) : Reading where
  accepts i c x := R.accepts i c x && R'.accepts i c x
  refuses i c x := R.refuses i c x && R'.refuses i c x
  boundary b a := R.boundary b a && R'.boundary b a
  counts lo hi run := R.counts lo hi run && R'.counts lo hi run

def join (R R' : Reading) : Reading where
  accepts i c x := R.accepts i c x || R'.accepts i c x
  refuses i c x := R.refuses i c x || R'.refuses i c x
  boundary b a := R.boundary b a || R'.boundary b a
  counts lo hi run := R.counts lo hi run || R'.counts lo hi run

theorem meet_left (S : Nat → Prop) (R R' : Reading) : Below S (meet R R') R where
  accepts _ _ _ _ h := ((Bool.and_eq_true _ _).mp h).1
  refuses _ _ _ _ h := ((Bool.and_eq_true _ _).mp h).1
  boundary _ _ _ _ h := ((Bool.and_eq_true _ _).mp h).1
  counts _ _ _ _ h := ((Bool.and_eq_true _ _).mp h).1

theorem meet_right (S : Nat → Prop) (R R' : Reading) : Below S (meet R R') R' where
  accepts _ _ _ _ h := ((Bool.and_eq_true _ _).mp h).2
  refuses _ _ _ _ h := ((Bool.and_eq_true _ _).mp h).2
  boundary _ _ _ _ h := ((Bool.and_eq_true _ _).mp h).2
  counts _ _ _ _ h := ((Bool.and_eq_true _ _).mp h).2

theorem join_left (S : Nat → Prop) (R R' : Reading) : Below S R (join R R') where
  accepts _ _ _ _ h := (Bool.or_eq_true _ _).mpr (.inl h)
  refuses _ _ _ _ h := (Bool.or_eq_true _ _).mpr (.inl h)
  boundary _ _ _ _ h := (Bool.or_eq_true _ _).mpr (.inl h)
  counts _ _ _ _ h := (Bool.or_eq_true _ _).mpr (.inl h)

theorem join_right (S : Nat → Prop) (R R' : Reading) : Below S R' (join R R') where
  accepts _ _ _ _ h := (Bool.or_eq_true _ _).mpr (.inr h)
  refuses _ _ _ _ h := (Bool.or_eq_true _ _).mpr (.inr h)
  boundary _ _ _ _ h := (Bool.or_eq_true _ _).mpr (.inr h)
  counts _ _ _ _ h := (Bool.or_eq_true _ _).mpr (.inr h)

/-- On characters both know alike, two engines allow the same. -/
theorem below_of_alike (A B : Alphabet) : Below (A.Alike B) A.reading B.reading := by
  have haccepts : ∀ i c x, A.Alike B x → A.accepts i c x = B.accepts i c x := by
    intro i c x hx
    unfold Alphabet.accepts
    rw [hx.space, hx.lower]
  have hword : ∀ o : Option Nat, (∀ x ∈ o, A.Alike B x) → o.any A.word = o.any B.word := by
    intro o ho
    cases o with
    | none => rfl
    | some x => exact (ho x rfl).word
  constructor
  · intro i c x hx h
    exact (haccepts i c x hx).symm.trans h
  · intro i c x hx h
    simp only [Alphabet.reading, haccepts i c x hx] at h ⊢
    exact h
  · intro b a hb ha h
    simp only [Alphabet.reading, hword b hb, hword a ha] at h ⊢
    exact h
  · intro lo hi run hrun h
    have hunits : run.map A.units = run.map B.units :=
      map_congr_left fun x hx => (hrun x hx).units
    simp only [Alphabet.reading, hunits] at h ⊢
    exact h

theorem Alphabet.Alike.symm {A B : Alphabet} {x : Nat} (h : A.Alike B x) : B.Alike A x :=
  ⟨h.space.symm, h.word.symm, h.lower.symm, h.units.symm⟩

theorem Below.of_imp {S T : Nat → Prop} {R R' : Reading} (h : Below S R R') (hT : ∀ x, T x → S x) :
    Below T R R' where
  accepts i c x hx := h.accepts i c x (hT x hx)
  refuses i c x hx := h.refuses i c x (hT x hx)
  boundary b a hb ha := h.boundary b a (fun x hx => hT x (hb x hx)) fun x hx => hT x (ha x hx)
  counts lo hi run hrun := h.counts lo hi run fun x hx => hT x (hrun x hx)

theorem Below.meet {S : Nat → Prop} {R R₁ R₂ : Reading} (h₁ : Below S R R₁) (h₂ : Below S R R₂) :
    Below S R (meet R₁ R₂) where
  accepts i c x hx h := (Bool.and_eq_true _ _).mpr ⟨h₁.accepts i c x hx h, h₂.accepts i c x hx h⟩
  refuses i c x hx h := (Bool.and_eq_true _ _).mpr ⟨h₁.refuses i c x hx h, h₂.refuses i c x hx h⟩
  boundary b a hb ha h :=
    (Bool.and_eq_true _ _).mpr ⟨h₁.boundary b a hb ha h, h₂.boundary b a hb ha h⟩
  counts lo hi run hrun h :=
    (Bool.and_eq_true _ _).mpr ⟨h₁.counts lo hi run hrun h, h₂.counts lo hi run hrun h⟩

/-- What is above both is above what either allows. -/
theorem Below.join {S : Nat → Prop} {R₁ R₂ R : Reading} (h₁ : Below S R₁ R) (h₂ : Below S R₂ R) :
    Below S (join R₁ R₂) R where
  accepts i c x hx h := ((Bool.or_eq_true _ _).mp h).elim (h₁.accepts i c x hx) (h₂.accepts i c x hx)
  refuses i c x hx h := ((Bool.or_eq_true _ _).mp h).elim (h₁.refuses i c x hx) (h₂.refuses i c x hx)
  boundary b a hb ha h :=
    ((Bool.or_eq_true _ _).mp h).elim (h₁.boundary b a hb ha) (h₂.boundary b a hb ha)
  counts lo hi run hrun h :=
    ((Bool.or_eq_true _ _).mp h).elim (h₁.counts lo hi run hrun) (h₂.counts lo hi run hrun)

theorem Below.refl (S : Nat → Prop) (R : Reading) : Below S R R :=
  ⟨fun _ _ _ _ h => h, fun _ _ _ _ h => h, fun _ _ _ _ h => h, fun _ _ _ _ h => h⟩

section Mono
variable {S : Nat → Prop} {R R' : Reading} {i : Bool} {q q' : Pos}

def text (q : Pos) : List Nat := q.1.reverse ++ q.2

theorem mem_rests_many {c : Class} {lo : Nat} {hi : Option Nat} {greedy : Bool} :
    q' ∈ rests R i (.many c lo hi greedy) q ↔
      ∃ n, n ≤ (q.2.takeWhile (R.accepts i c)).length ∧ R.counts lo hi (q.2.take n) = true ∧
        q' = ((q.2.take n).reverse ++ q.1, q.2.drop n) := by
  have hends : ∀ l : List Nat, (∀ n, n ∈ l ↔ n ≤ (q.2.takeWhile (R.accepts i c)).length ∧
      R.counts lo hi (q.2.take n) = true) →
      (q' ∈ l.map (fun n => ((q.2.take n).reverse ++ q.1, q.2.drop n)) ↔
        ∃ n, n ≤ (q.2.takeWhile (R.accepts i c)).length ∧ R.counts lo hi (q.2.take n) = true ∧
          q' = ((q.2.take n).reverse ++ q.1, q.2.drop n)) := by
    intro l hl
    rw [mem_map]
    refine exists_congr fun n => ?_
    rw [hl, and_assoc]
    exact and_congr Iff.rfl (and_congr Iff.rfl eq_comm)
  refine hends _ fun n => ?_
  have hfilter : n ∈ ((List.range ((q.2.takeWhile (R.accepts i c)).length + 1)).filter
      fun n => R.counts lo hi (q.2.take n)) ↔ n ≤ (q.2.takeWhile (R.accepts i c)).length ∧
        R.counts lo hi (q.2.take n) = true := by
    rw [mem_filter, mem_range, Nat.lt_succ_iff]
  cases greedy with
  | false => exact hfilter
  | true => exact mem_reverse.trans hfilter

/-- A match moves on in the text and changes nothing. -/
theorem text_rests (r : Pattern) : ∀ q q', q' ∈ rests R i r q → text q' = text q := by
  induction r with
  | empty =>
    intro q q' h
    rw [mem_singleton.mp h]
  | many c lo hi greedy =>
    intro q q' h
    obtain ⟨n, -, -, rfl⟩ := mem_rests_many.mp h
    simp [text]
  | seq r s ihr ihs =>
    intro q q' h
    obtain ⟨t, ht, hs⟩ := mem_flatMap.mp h
    exact (ihs t q' hs).trans (ihr q t ht)
  | alt r s ihr ihs =>
    intro q q' h
    exact (mem_append.mp h).elim (ihr q q') (ihs q q')
  | boundary | ahead | notAhead | notBehind =>
    intro q q' h
    unfold rests at h
    split at h
    all_goals first | rw [mem_singleton.mp h] | exact absurd h not_mem_nil

theorem takeWhile_length_mono {p p' : Nat → Bool} {text : List Nat}
    (h : ∀ x ∈ text, p x = true → p' x = true) :
    (text.takeWhile p).length ≤ (text.takeWhile p').length := by
  induction text with
  | nil => exact Nat.le_refl _
  | cons x text ih =>
    by_cases hx : p x = true
    · rw [takeWhile_cons_of_pos hx, takeWhile_cons_of_pos (h x mem_cons_self hx)]
      exact Nat.succ_le_succ (ih fun y hy => h y (mem_cons_of_mem _ hy))
    · rw [takeWhile_cons_of_neg hx]
      exact Nat.zero_le _

theorem head_all_mono {p p' : Nat → Bool} {l : List Nat} (h : ∀ x ∈ l, p x = true → p' x = true)
    (ho : l.head?.all p = true) : l.head?.all p' = true := by
  cases l with
  | nil => rfl
  | cons x l => exact h x mem_cons_self ho

theorem isEmpty_mono {α : Type} {l l' : List α} (h : ∀ x ∈ l, x ∈ l') (hl : l.isEmpty = false) :
    l'.isEmpty = false := by
  obtain ⟨x, hx⟩ := exists_mem_of_ne_nil l (isEmpty_eq_false_iff.mp hl)
  exact isEmpty_eq_false_iff.mpr (ne_nil_of_mem (h x hx))

/-- A reading that allows more finds the same positions and maybe others. -/
theorem rests_mono (hR : Below S R R') (r : Pattern) :
    ∀ q, (∀ x ∈ text q, S x) → ∀ q', q' ∈ rests R i r q → q' ∈ rests R' i r q := by
  have hbehind : ∀ q : Pos, (∀ x ∈ text q, S x) → ∀ x ∈ q.1, S x := fun q hq x hx =>
    hq x (mem_append_left _ (mem_reverse.mpr hx))
  have hahead : ∀ q : Pos, (∀ x ∈ text q, S x) → ∀ x ∈ q.2, S x := fun q hq x hx =>
    hq x (mem_append_right _ hx)
  induction r with
  | empty => exact fun _ _ _ h => h
  | many c lo hi greedy =>
    intro q hq q' h
    obtain ⟨n, hn, hcounts, rfl⟩ := mem_rests_many.mp h
    refine mem_rests_many.mpr ⟨n, ?_, hR.counts _ _ _ ?_ hcounts, rfl⟩
    · exact Nat.le_trans hn
        (takeWhile_length_mono fun x hx => hR.accepts i c x (hahead q hq x hx))
    · exact fun x hx => hahead q hq x (mem_of_mem_take hx)
  | seq r s ihr ihs =>
    intro q hq q' h
    obtain ⟨t, ht, hs⟩ := mem_flatMap.mp h
    have htext : ∀ x ∈ text t, S x := by
      rw [text_rests r q t ht]
      exact hq
    exact mem_flatMap.mpr ⟨t, ihr q hq t ht, ihs t htext q' hs⟩
  | alt r s ihr ihs =>
    intro q hq q' h
    rcases mem_append.mp h with h | h
    · exact mem_append_left _ (ihr q hq q' h)
    · exact mem_append_right _ (ihs q hq q' h)
  | boundary =>
    intro q hq q' h
    unfold rests at h ⊢
    split at h
    · rename_i hb
      have hhead : ∀ l : List Nat, (∀ x ∈ l, S x) → ∀ x ∈ l.head?, S x := fun l hl x hx =>
        hl x (mem_of_mem_head? hx)
      rwa [if_pos (hR.boundary _ _ (hhead _ (hbehind q hq)) (hhead _ (hahead q hq)) hb)]
    · cases h
  | ahead r ih =>
    intro q hq q' h
    unfold rests at h ⊢
    split at h
    · cases h
    · rename_i hr
      have hsome := isEmpty_mono (ih q hq) ((Bool.not_eq_true _).mp hr)
      rwa [hsome, if_neg Bool.false_ne_true]
  | notAhead c =>
    intro q hq q' h
    unfold rests at h ⊢
    split at h
    · rename_i hc
      rwa [if_pos (head_all_mono (fun x hx => hR.refuses i c x (hahead q hq x hx)) hc)]
    · cases h
  | notBehind c =>
    intro q hq q' h
    unfold rests at h ⊢
    split at h
    · rename_i hc
      rwa [if_pos (head_all_mono (fun x hx => hR.refuses i c x (hbehind q hq x hx)) hc)]
    · cases h

theorem findsFrom_of_rests {R R' : Reading} {r r' : Pattern} {behind ahead : List Nat}
    (h : ∀ q, text q = text (behind, ahead) → ∀ q', q' ∈ rests R i r q → q' ∈ rests R' i r' q)
    (hfinds : findsFrom R i r behind ahead = true) : findsFrom R' i r' behind ahead = true := by
  have hhere : ∀ q, text q = text (behind, ahead) → (!(rests R i r q).isEmpty) = true →
      (!(rests R' i r' q).isEmpty) = true := by
    intro q hq hsome
    rw [Bool.not_eq_true'] at hsome ⊢
    exact isEmpty_mono (h q hq) hsome
  induction ahead generalizing behind with
  | nil => exact hhere _ rfl hfinds
  | cons x ahead ih =>
    unfold findsFrom at hfinds ⊢
    rcases (Bool.or_eq_true _ _).mp hfinds with hq | hq
    · exact (Bool.or_eq_true _ _).mpr (.inl (hhere _ rfl hq))
    · have hmove : text (x :: behind, ahead) = text (behind, x :: ahead) := by simp [text]
      refine (Bool.or_eq_true _ _).mpr (.inr (ih ?_ hq ?_))
      · exact fun q hq' => h q (hq'.trans hmove)
      · exact fun q hq' => hhere q (hq'.trans hmove)

theorem finds_mono {s : List Nat} (hR : Below S R R') (hs : ∀ x ∈ s, S x) {r : Pattern}
    (h : finds R i r s = true) : finds R' i r s = true :=
  findsFrom_of_rests (fun q hq => rests_mono hR r q (hq ▸ hs)) h

/-- Where a pattern begins with what matches more, it finds no less. -/
theorem finds_seq_mono {s : List Nat} {r r' t : Pattern}
    (h : ∀ q q', q' ∈ rests R i r q → q' ∈ rests R i r' q) (hfinds : finds R i (.seq r t) s = true) :
    finds R i (.seq r' t) s = true := by
  refine findsFrom_of_rests (fun q _ q' hq => ?_) hfinds
  obtain ⟨u, hu, ht⟩ := mem_flatMap.mp hq
  exact mem_flatMap.mpr ⟨u, h q u hu, ht⟩

end Mono

/-! ## Writing patterns -/

/-- One character. -/
def char (c : Char) : Class := ⟨false, false, [(c.toNat, c.toNat)]⟩

def chars (s : String) : List (Nat × Nat) := s.toList.map fun c => (c.toNat, c.toNat)

def one (c : Class) : Pattern := .many c 1 (some 1) true

/-- `c*` -/
def star (c : Class) : Pattern := .many c 0 none true

/-- `c+` -/
def plus (c : Class) : Pattern := .many c 1 none true

/-- `c?` -/
def opt (c : Class) : Pattern := .many c 0 (some 1) true

/-- A literal. -/
def lit (s : String) : Pattern := s.toList.foldr (fun c r => .seq (one (char c)) r) .empty

/-- Parts in a row. -/
def all : List Pattern → Pattern
  | [] => .empty
  | [r] => r
  | r :: rs => .seq r (all rs)

/-- `(…|…)` of literals. -/
def oneOf : List String → Pattern
  | [] => .empty
  | [s] => lit s
  | s :: ss => .alt (lit s) (oneOf ss)

/-- More literals match wherever some of them do. -/
theorem rests_oneOf {R : Reading} {i : Bool} {ss ss' : List String} (hne : ss ≠ []) (hsub : ss ⊆ ss')
    {q q' : Pos} (h : q' ∈ rests R i (oneOf ss) q) : q' ∈ rests R i (oneOf ss') q := by
  have hmem : ∀ {ss : List String}, ss ≠ [] →
      (q' ∈ rests R i (oneOf ss) q ↔ ∃ s ∈ ss, q' ∈ rests R i (lit s) q) := by
    intro ss hne
    induction ss with
    | nil => exact absurd rfl hne
    | cons s ss ih =>
      cases ss with
      | nil => simp [oneOf]
      | cons t ss =>
        rw [oneOf, rests, mem_append, ih (cons_ne_nil t ss)]
        · simp
        · exact cons_ne_nil t ss
  obtain ⟨s, hs, hq⟩ := (hmem hne).mp h
  exact (hmem (ne_nil_of_mem (hsub hs))).mpr ⟨s, hsub hs, hq⟩

end OpenBrain.Core.Regex
