import OpenBrain.Core.Utf8

/-!
# Decoding octets as they arrive

`TextDecoder` is the decoder of the web platform with `stream: true`: it keeps the octets of a
character that is not complete, and whether the byte order mark was looked for. What it makes of
octets does not depend on where they are cut (`rest_append`), and on all of them it is
`Utf8.decode` (`rest_fresh`).
-/
namespace OpenBrain.Core.Utf8
open List

/-- Octets, without an end behind them. -/
def run (p : Pending) : List UInt8 → Str × Pending
  | [] => ([], p)
  | b :: bs =>
    ((step p b.toNat).1 ++ (run (step p b.toNat).2 bs).1, (run (step p b.toNat).2 bs).2)

theorem decodeFrom_append (p : Pending) (a b : List UInt8) :
    decodeFrom p (a ++ b) = (run p a).1 ++ decodeFrom (run p a).2 b := by
  induction a generalizing p with
  | nil => rfl
  | cons x a ih => rw [cons_append, decodeFrom_cons, ih, run, append_assoc]

theorem decodeFrom_nil (p : Pending) : decodeFrom p [] = [] ∨ decodeFrom p [] = [0xFFFD] := by
  rw [decodeFrom]
  split
  · exact .inl rfl
  · exact .inr rfl

/-- Octets are never nothing. -/
theorem decodeFrom_ne_nil (p : Pending) (b : UInt8) (bs : List UInt8) :
    decodeFrom p (b :: bs) ≠ [] := by
  have howed : ∀ (p : Pending) (bs : List UInt8), p.needed ≠ 0 → decodeFrom p bs ≠ [] := by
    intro p bs hp
    induction bs generalizing p with
    | nil => rw [decodeFrom, if_neg hp]; simp
    | cons b bs ih =>
      rw [decodeFrom_cons, step, if_neg hp]
      split
      · simp
      split
      · simp only [unitsOf]
        split <;> simp
      · rename_i hone
        have hn : p.needed - 1 ≠ 0 := by omega
        exact append_ne_nil_of_right_ne_nil _ (ih _ hn)
  by_cases hp : p.needed = 0
  · rw [decodeFrom_cons, step, if_pos hp, first]
    split
    · simp
    split
    · exact append_ne_nil_of_right_ne_nil _ (howed _ _ Nat.one_ne_zero)
    split
    · exact append_ne_nil_of_right_ne_nil _ (howed _ _ (Nat.succ_ne_zero 1))
    split
    · exact append_ne_nil_of_right_ne_nil _ (howed _ _ (Nat.succ_ne_zero 2))
    · simp
  · exact howed p _ hp

/-! ## Octets cut off -/

theorem length_encodeUnit (u : UInt16) : 1 ≤ (encodeUnit u).length := by
  unfold encodeUnit
  dsimp only
  split
  · simp
  split
  · simp
  split <;> simp

theorem length_le_encode (s : Str) : s.length ≤ (encode s).length := by
  fun_induction encode s with
  | case1 => exact Nat.le_refl 0
  | case2 u => exact length_encodeUnit u
  | case3 u v s hp ih =>
    simp only [length_append, length_cons, encodePair, length_nil]
    omega
  | case4 u v s hp ih =>
    have := length_encodeUnit u
    simp only [length_append, length_cons] at ih ⊢
    omega

theorem decodeFrom_encode_append (s : Str) (h : wellPaired s = true) (bs : List UInt8) :
    decodeFrom idle (encode s ++ bs) = s ++ decodeFrom idle bs := by
  fun_induction encode s with
  | case1 => rfl
  | case2 u => exact decodeFrom_encodeUnit (by simpa [wellPaired] using h) bs
  | case3 u v s hp ih =>
    rw [wellPaired, if_pos hp] at h
    obtain ⟨hu, hv⟩ := Bool.and_eq_true_iff.mp hp
    rw [append_assoc, decodeFrom_encodePair hu hv, ih h]
    rfl
  | case4 u v s hp ih =>
    rw [wellPaired, if_neg hp, Bool.and_eq_true, Bool.not_eq_true'] at h
    rw [append_assoc, decodeFrom_encodeUnit h.1, ih h.2]
    rfl

theorem wellPaired_cut {u : UInt16} (hu : isSurrogate u = false) : ∀ {s t : Str},
    wellPaired (s ++ u :: t) = true → wellPaired (s ++ [u]) = true
  | [], _, _ => by simp [wellPaired, hu]
  | [v], t, h => by
    have hlow : isLowSurrogate u = false := by
      rw [Bool.eq_false_iff]
      intro hlow
      rw [low_surrogate hlow] at hu
      cases hu
    rw [singleton_append, wellPaired, hlow, Bool.and_false, if_neg Bool.false_ne_true,
      Bool.and_eq_true] at h
    simp [wellPaired, hlow, hu, h.1]
  | v :: w :: s, t, h => by
    rw [cons_append, cons_append, wellPaired] at h ⊢
    split
    · rename_i hp
      rw [if_pos hp] at h
      exact wellPaired_cut hu h
    · rename_i hp
      rw [if_neg hp, Bool.and_eq_true] at h
      rw [h.1, Bool.true_and]
      exact wellPaired_cut (s := w :: s) hu h.2

/-- What the octets up to a cut are decoded to is the text's, but for a character cut apart. -/
theorem of_take {bs : List UInt8} {n : Nat} {c r : Str} {q : UInt16} (hq : q ≠ 0xFFFD)
    (h : decodeFrom idle (bs.take n) = c ++ q :: r) :
    ∃ t, (run idle (bs.take n)).1 = c ++ q :: t := by
  have hrun := decodeFrom_append idle (bs.take n) []
  rw [append_nil, h] at hrun
  rcases decodeFrom_nil (run idle (bs.take n)).2 with hnil | hcut
  · rw [hnil, append_nil] at hrun
    exact ⟨r, hrun.symm⟩
  · rw [hcut] at hrun
    cases eq_nil_or_concat r with
    | inl hr =>
      subst hr
      exact absurd (append_inj_right' hrun rfl) (by simpa using hq)
    | inr hr =>
      obtain ⟨r', w, rfl⟩ := hr
      rw [concat_eq_append, ← cons_append, ← append_assoc] at hrun
      exact ⟨r', (append_inj_left' hrun rfl).symm⟩

theorem prolonged {bs : List UInt8} {n : Nat} {c t : Str} {q : UInt16}
    (h : (run idle (bs.take n)).1 = c ++ q :: t) :
    ∃ r, decodeFrom idle bs = c ++ q :: (t ++ r) := by
  have hwhole := decodeFrom_append idle (bs.take n) (bs.drop n)
  rw [take_append_drop, h, append_assoc, cons_append] at hwhole
  exact ⟨_, hwhole⟩

/-- A cut text has a unit exactly when the unit's octets are in front of the cut. -/
theorem take_iff {c : Str} {q : UInt16} (hq : q ≠ 0xFFFD) (hpaired : wellPaired (c ++ [q]) = true)
    (bs : List UInt8) (n : Nat) :
    (∃ r, decodeFrom idle ((encode (c ++ [q]) ++ bs).take n) = c ++ q :: r) ↔
      (encode (c ++ [q])).length ≤ n := by
  constructor
  · rintro ⟨r, h⟩
    by_contra hn
    rw [take_append_of_le_length (by omega)] at h
    obtain ⟨t, ht⟩ := of_take hq h
    have hwhole := decodeFrom_append idle ((encode (c ++ [q])).take n)
      ((encode (c ++ [q])).drop n)
    rw [take_append_drop, decodeFrom_encode _ hpaired, ht] at hwhole
    have hlength := congrArg List.length hwhole
    cases hrest : (encode (c ++ [q])).drop n with
    | nil => exact absurd (drop_eq_nil_iff.mp hrest) (by omega)
    | cons b rest =>
      have hpos := length_pos_of_ne_nil
        (decodeFrom_ne_nil (run idle ((encode (c ++ [q])).take n)).2 b rest)
      rw [hrest] at hlength
      simp only [length_append, length_cons, length_nil] at hlength
      omega
  · intro hn
    rw [take_append, take_of_length_le hn, decodeFrom_encode_append _ hpaired,
      append_assoc]
    exact ⟨_, rfl⟩

/-! ## The streaming decoder -/

structure TextDecoder where
  pending : Pending
  bomSeen : Bool

namespace TextDecoder

def fresh : TextDecoder := ⟨idle, false⟩

/-- The first unit that comes out is dropped when it is the byte order mark. -/
def serialize (bomSeen : Bool) (out : Str) : Str × Bool :=
  if bomSeen then (out, true)
  else
    match out with
    | [] => ([], false)
    | u :: out => (if u = 0xFEFF then out else u :: out, true)

/-- `decoder.decode(bytes, { stream: true })` -/
def decode (d : TextDecoder) (bytes : List UInt8) : Str × TextDecoder :=
  let (text, bomSeen) := serialize d.bomSeen (run d.pending bytes).1
  (text, ⟨(run d.pending bytes).2, bomSeen⟩)

/-- All that a decoder still makes of octets. -/
def rest (d : TextDecoder) (bytes : List UInt8) : Str :=
  (serialize d.bomSeen (decodeFrom d.pending bytes)).1

/-- `decoder.decode()` -/
def flush (d : TextDecoder) : Str := d.rest []

theorem serialize_append (bomSeen : Bool) (a b : Str) :
    (serialize bomSeen (a ++ b)).1 =
      (serialize bomSeen a).1 ++ (serialize (serialize bomSeen a).2 b).1 := by
  cases bomSeen with
  | true => simp [serialize]
  | false =>
    cases a with
    | nil => simp [serialize]
    | cons u a =>
      simp only [serialize, cons_append, Bool.false_eq_true, ↓reduceIte]
      split <;> rfl

theorem rest_append (d : TextDecoder) (a b : List UInt8) :
    d.rest (a ++ b) = (d.decode a).1 ++ (d.decode a).2.rest b := by
  unfold rest decode
  rw [decodeFrom_append, serialize_append]

end TextDecoder

/-! ## The byte order mark -/

theorem ofNat_ne_bom (n : Nat) (h : n < 0x10000) (hn : n ≠ 0xFEFF) :
    UInt16.ofNat n ≠ 0xFEFF := by
  intro heq
  have hnat : (UInt16.ofNat n).toNat = 0xFEFF := congrArg UInt16.toNat heq
  rw [UInt16.toNat_ofNat'] at hnat
  omega

/-- No character but the mark begins with its unit. -/
theorem head_unitsOf {code : Nat} (hlt : code < 0x200000) {t : Str}
    (h : (unitsOf code ++ t).head? = some 0xFEFF) : code = 0xFEFF := by
  by_contra hne
  unfold unitsOf at h
  split at h
  · rename_i hsmall
    exact ofNat_ne_bom code hsmall hne (by simpa using h)
  · exact ofNat_ne_bom (0xD800 + (code - 0x10000) / 0x400) (by omega) (by omega)
      (by simpa using h)

/-- Octets that are owed come to the mark one at a time. -/
theorem head_owed {p : Pending} {bs : List UInt8} (hneeded : 0 < p.needed)
    (h : (decodeFrom p bs).head? = some 0xFEFF) :
    ∃ b bs', bs = b :: bs' ∧ p.lower ≤ b.toNat ∧ b.toNat ≤ p.upper ∧
      (p.needed = 1 ∧
          (unitsOf (p.code * 64 + (b.toNat - 0x80)) ++ decodeFrom idle bs').head? = some 0xFEFF ∨
        1 < p.needed ∧ (decodeFrom ⟨p.needed - 1, p.code * 64 + (b.toNat - 0x80), 0x80, 0xBF⟩
          bs').head? = some 0xFEFF) := by
  cases bs with
  | nil =>
    rw [decodeFrom, if_neg (by omega), head?_cons] at h
    exact absurd (Option.some.inj h) (by decide)
  | cons b bs =>
    rw [decodeFrom_cons, step, if_neg (by omega)] at h
    split at h
    · rw [cons_append, head?_cons] at h
      exact absurd (Option.some.inj h) (by decide)
    · refine ⟨b, bs, rfl, by omega, by omega, ?_⟩
      split at h
      · rename_i hone
        dsimp only at h
        exact .inl ⟨hone, h⟩
      · exact .inr ⟨by omega, h⟩

theorem head_last {code : Nat} {bs : List UInt8} (hlt : code < 0x8000)
    (h : (decodeFrom ⟨1, code, 0x80, 0xBF⟩ bs).head? = some 0xFEFF) :
    code = 0x3FB ∧ ∃ bs', bs = 0xBF :: bs' := by
  obtain ⟨b, bs', rfl, hlo, hhi, ⟨-, hunits⟩ | ⟨hmore, -⟩⟩ := head_owed (Nat.zero_lt_one) h
  · dsimp only at hlo hhi hunits
    have hcode := head_unitsOf (by omega) hunits
    have hb : b = 0xBF := UInt8.toNat_inj.mp (show b.toNat = 0xBF by omega)
    exact ⟨by omega, bs', by rw [hb]⟩
  · exact absurd hmore (Nat.lt_irrefl 1)

/-- The last but one. -/
theorem head_middle {code lo hi : Nat} {bs : List UInt8} (hlt : code < 0x200) (hlo : 0x80 ≤ lo)
    (hhi : hi ≤ 0xBF) (h : (decodeFrom ⟨2, code, lo, hi⟩ bs).head? = some 0xFEFF) :
    code = 0xF ∧ ∃ bs', bs = 0xBB :: 0xBF :: bs' := by
  obtain ⟨b, bs', rfl, hlo', hhi', ⟨htwo, -⟩ | ⟨-, hmore⟩⟩ := head_owed (Nat.zero_lt_two) h
  · cases htwo
  · dsimp only at hlo' hhi' hmore
    obtain ⟨hcode, bs', rfl⟩ := head_last (by omega) hmore
    have hb : b = 0xBB := UInt8.toNat_inj.mp (show b.toNat = 0xBB by omega)
    exact ⟨by omega, bs', by rw [hb]⟩

/-- The mark comes of its three octets only. -/
theorem bom_of_head {bs : List UInt8} (h : (decodeFrom idle bs).head? = some 0xFEFF) :
    ∃ bs', bs = 0xEF :: 0xBB :: 0xBF :: bs' := by
  cases bs with
  | nil => cases h
  | cons b bs =>
    have hb := b.toNat_lt
    rw [decodeFrom_cons, step_idle] at h
    unfold first at h
    split at h
    · rename_i hascii
      exact absurd (by simpa using h) (ofNat_ne_bom b.toNat (by omega) (by omega))
    split at h
    · obtain ⟨hcode, -⟩ := head_last (by omega) h
      omega
    split at h
    · obtain ⟨hcode, bs', rfl⟩ := head_middle (by omega) (by split <;> omega) (by split <;> omega) h
      have hb : b = 0xEF := UInt8.toNat_inj.mp (show b.toNat = 0xEF by omega)
      exact ⟨bs', by rw [hb]⟩
    split at h
    · -- the code point of four octets is too large
      obtain ⟨b₂, bs₂, rfl, hlo, hhi, ⟨hthree, -⟩ | ⟨-, hmore⟩⟩ := head_owed (Nat.succ_pos 2) h
      · cases hthree
      · dsimp only at hlo hhi hmore
        obtain ⟨hcode, -⟩ := head_middle (by split at hhi <;> omega) (by decide) (by decide) hmore
        split at hlo <;> omega
    · rw [cons_append, head?_cons] at h
      exact absurd (Option.some.inj h) (by decide)

/-- What a fresh decoder makes of octets, at once or as they come. -/
theorem rest_fresh (bytes : List UInt8) : TextDecoder.fresh.rest bytes = decode bytes := by
  unfold decode
  split
  · rfl
  · rename_i hmark
    unfold TextDecoder.rest TextDecoder.serialize TextDecoder.fresh
    rw [if_neg Bool.false_ne_true]
    cases hout : decodeFrom idle bytes with
    | nil => rfl
    | cons u out =>
      have hu : u ≠ 0xFEFF := by
        rintro rfl
        obtain ⟨bs', rfl⟩ := @bom_of_head bytes (by rw [hout, head?_cons])
        exact hmark bs' rfl
      exact if_neg hu

end OpenBrain.Core.Utf8
