import OpenBrain.Core.Utf16

/-!
# UTF-8 between code units and octets

`encode` is the encoder of the web platform and of Python on strings without
unpaired surrogates (the former writes U+FFFD for one). `decodeFrom` is the
web platform's decoder, one octet at a time, with U+FFFD for what is not UTF-8;
`decodeStrict` accepts only UTF-8. `decode_encode` is the round trip on strings
whose surrogates are paired.
-/
namespace OpenBrain.Core.Utf8
open List

def pairCode (u v : UInt16) : Nat := 0x10000 + (u.toNat - 0xD800) * 0x400 + (v.toNat - 0xDC00)

def encodeUnit (u : UInt16) : List UInt8 :=
  let n := u.toNat
  if n < 0x80 then [.ofNat n]
  else if n < 0x800 then [.ofNat (0xC0 + n / 0x40), .ofNat (0x80 + n % 0x40)]
  else if isSurrogate u then [0xEF, 0xBF, 0xBD]
  else [.ofNat (0xE0 + n / 0x1000), .ofNat (0x80 + n / 0x40 % 0x40), .ofNat (0x80 + n % 0x40)]

def encodePair (u v : UInt16) : List UInt8 :=
  let n := pairCode u v
  [.ofNat (0xF0 + n / 0x40000), .ofNat (0x80 + n / 0x1000 % 0x40), .ofNat (0x80 + n / 0x40 % 0x40),
    .ofNat (0x80 + n % 0x40)]

def encode : Str → List UInt8
  | [] => []
  | [u] => encodeUnit u
  | u :: v :: s =>
    if isHighSurrogate u && isLowSurrogate v then encodePair u v ++ encode s
    else encodeUnit u ++ encode (v :: s)

/-- Octets still owed, the code point so far and the range of the next octet. -/
structure Pending where
  needed : Nat
  code : Nat
  lower : Nat
  upper : Nat
  deriving DecidableEq, Repr

def idle : Pending := ⟨0, 0, 0x80, 0xBF⟩

def unitsOf (code : Nat) : Str :=
  if code < 0x10000 then [.ofNat code]
  else [.ofNat (0xD800 + (code - 0x10000) / 0x400), .ofNat (0xDC00 + (code - 0x10000) % 0x400)]

/-- An octet between characters. -/
def first (b : Nat) : Str × Pending :=
  if b < 0x80 then ([.ofNat b], idle)
  else if 0xC2 ≤ b ∧ b ≤ 0xDF then ([], ⟨1, b - 0xC0, 0x80, 0xBF⟩)
  else if 0xE0 ≤ b ∧ b ≤ 0xEF then
    ([], ⟨2, b - 0xE0, if b = 0xE0 then 0xA0 else 0x80, if b = 0xED then 0x9F else 0xBF⟩)
  else if 0xF0 ≤ b ∧ b ≤ 0xF4 then
    ([], ⟨3, b - 0xF0, if b = 0xF0 then 0x90 else 0x80, if b = 0xF4 then 0x8F else 0xBF⟩)
  else ([0xFFFD], idle)

/-- One octet; an octet that does not continue is looked at again. -/
def step (p : Pending) (b : Nat) : Str × Pending :=
  if p.needed = 0 then first b
  else if b < p.lower ∨ p.upper < b then (0xFFFD :: (first b).1, (first b).2)
  else if p.needed = 1 then (unitsOf (p.code * 64 + (b - 0x80)), idle)
  else ([], ⟨p.needed - 1, p.code * 64 + (b - 0x80), 0x80, 0xBF⟩)

def decodeFrom (p : Pending) : List UInt8 → Str
  | [] => if p.needed = 0 then [] else [0xFFFD]
  | b :: bs => (step p b.toNat).1 ++ decodeFrom (step p b.toNat).2 bs

/-- The decoder with replacement; a byte order mark at the start is dropped. -/
def decode : List UInt8 → Str
  | 0xEF :: 0xBB :: 0xBF :: bs => decodeFrom idle bs
  | bs => decodeFrom idle bs

/-- The decoder that refuses everything but UTF-8. -/
def decodeStrict (bs : List UInt8) : Option Str :=
  if encode (decodeFrom idle bs) = bs then some (decodeFrom idle bs) else none

def wellPaired : Str → Bool
  | [] => true
  | [u] => !isSurrogate u
  | u :: v :: s =>
    if isHighSurrogate u && isLowSurrogate v then wellPaired s
    else !isSurrogate u && wellPaired (v :: s)

/-! ## Round trip -/

theorem decodeFrom_cons (p : Pending) (b : UInt8) (bs : List UInt8) :
    decodeFrom p (b :: bs) = (step p b.toNat).1 ++ decodeFrom (step p b.toNat).2 bs := rfl

theorem ofNat_toNat_lt {n : Nat} (h : n < 256) : (UInt8.ofNat n).toNat = n := by
  simp [Nat.mod_eq_of_lt h]

theorem first_two {b : Nat} (h : 0xC2 ≤ b) (h' : b ≤ 0xDF) :
    first b = ([], ⟨1, b - 0xC0, 0x80, 0xBF⟩) := by
  unfold first
  rw [if_neg (by omega), if_pos ⟨h, h'⟩]

theorem first_three {b : Nat} (h : 0xE0 ≤ b) (h' : b ≤ 0xEF) :
    first b = ([], ⟨2, b - 0xE0, if b = 0xE0 then 0xA0 else 0x80,
      if b = 0xED then 0x9F else 0xBF⟩) := by
  unfold first
  rw [if_neg (by omega), if_neg (by omega), if_pos ⟨h, h'⟩]

theorem first_four {b : Nat} (h : 0xF0 ≤ b) (h' : b ≤ 0xF4) :
    first b = ([], ⟨3, b - 0xF0, if b = 0xF0 then 0x90 else 0x80,
      if b = 0xF4 then 0x8F else 0xBF⟩) := by
  unfold first
  rw [if_neg (by omega), if_neg (by omega), if_neg (by omega), if_pos ⟨h, h'⟩]

/-- An octet in range that is not the last one owed. -/
theorem step_more {n code lo hi b : Nat} (h : lo ≤ b) (h' : b ≤ hi) :
    step ⟨n + 2, code, lo, hi⟩ b = ([], ⟨n + 1, code * 64 + (b - 0x80), 0x80, 0xBF⟩) := by
  unfold step
  rw [if_neg (by simp), if_neg (by simp only; omega), if_neg (by simp)]
  rfl

/-- The last octet owed, in range. -/
theorem step_last {code lo hi b : Nat} (h : lo ≤ b) (h' : b ≤ hi) :
    step ⟨1, code, lo, hi⟩ b = (unitsOf (code * 64 + (b - 0x80)), idle) := by
  unfold step
  rw [if_neg (by simp), if_neg (by simp only; omega), if_pos rfl]

theorem step_idle (b : Nat) : step idle b = first b := rfl

theorem surrogate_iff (u : UInt16) :
    isSurrogate u = true ↔ 0xD800 ≤ u.toNat ∧ u.toNat ≤ 0xDFFF := by
  simp [isSurrogate, UInt16.le_iff_toNat_le]

theorem high_iff (u : UInt16) :
    isHighSurrogate u = true ↔ 0xD800 ≤ u.toNat ∧ u.toNat ≤ 0xDBFF := by
  simp [isHighSurrogate, UInt16.le_iff_toNat_le]

theorem low_iff (u : UInt16) :
    isLowSurrogate u = true ↔ 0xDC00 ≤ u.toNat ∧ u.toNat ≤ 0xDFFF := by
  simp [isLowSurrogate, UInt16.le_iff_toNat_le]

theorem decodeFrom_encodeUnit {u : UInt16} (h : isSurrogate u = false) (bs : List UInt8) :
    decodeFrom idle (encodeUnit u ++ bs) = u :: decodeFrom idle bs := by
  have hn := u.toNat_lt
  have hs : ¬ (0xD800 ≤ u.toNat ∧ u.toNat ≤ 0xDFFF) := by
    rw [← surrogate_iff, h]; simp
  have hu : UInt16.ofNat u.toNat = u := by simp
  simp only [encodeUnit, h, Bool.false_eq_true, ↓reduceIte]
  generalize u.toNat = n at hn hs hu ⊢
  split
  · rename_i h1
    simp only [cons_append, nil_append, decodeFrom_cons, step_idle,
      ofNat_toNat_lt (show n < 256 by omega), first, h1, ↓reduceIte, hu]
  · split
    · rename_i h1 h2
      simp only [cons_append, nil_append, decodeFrom_cons, step_idle]
      rw [ofNat_toNat_lt (show 0xC0 + n / 0x40 < 256 by omega),
        ofNat_toNat_lt (show 0x80 + n % 0x40 < 256 by omega), first_two (by omega) (by omega),
        step_last (by omega) (by omega)]
      have hc : (0xC0 + n / 0x40 - 0xC0) * 64 + (0x80 + n % 0x40 - 0x80) = n := by omega
      simp only [hc, unitsOf, show n < 0x10000 by omega, ↓reduceIte, hu, nil_append,
        cons_append]
    · rename_i h1 h2
      simp only [cons_append, nil_append, decodeFrom_cons, step_idle]
      rw [ofNat_toNat_lt (show 0xE0 + n / 0x1000 < 256 by omega),
        ofNat_toNat_lt (show 0x80 + n / 0x40 % 0x40 < 256 by omega),
        ofNat_toNat_lt (show 0x80 + n % 0x40 < 256 by omega), first_three (by omega) (by omega),
        step_more (n := 0) (by split <;> omega) (by split <;> omega),
        step_last (by omega) (by omega)]
      have hc : ((0xE0 + n / 0x1000 - 0xE0) * 64 + (0x80 + n / 0x40 % 0x40 - 0x80)) * 64 +
          (0x80 + n % 0x40 - 0x80) = n := by omega
      simp only [hc, unitsOf, show n < 0x10000 by omega, ↓reduceIte, hu, nil_append,
        cons_append]

/-- The four octets of a code point beyond the basic plane. -/
theorem decodeFrom_four {n : Nat} (hlo : 0x10000 ≤ n) (hhi : n < 0x110000) (bs : List UInt8) :
    decodeFrom idle (.ofNat (0xF0 + n / 0x40000) :: .ofNat (0x80 + n / 0x1000 % 0x40) ::
      .ofNat (0x80 + n / 0x40 % 0x40) :: .ofNat (0x80 + n % 0x40) :: bs) =
      unitsOf n ++ decodeFrom idle bs := by
  simp only [decodeFrom_cons, step_idle]
  rw [ofNat_toNat_lt (show 0xF0 + n / 0x40000 < 256 by omega),
    ofNat_toNat_lt (show 0x80 + n / 0x1000 % 0x40 < 256 by omega),
    ofNat_toNat_lt (show 0x80 + n / 0x40 % 0x40 < 256 by omega),
    ofNat_toNat_lt (show 0x80 + n % 0x40 < 256 by omega), first_four (by omega) (by omega),
    step_more (n := 1) (by split <;> omega) (by split <;> omega),
    step_more (n := 0) (by omega) (by omega), step_last (by omega) (by omega)]
  have hc : (((0xF0 + n / 0x40000 - 0xF0) * 64 + (0x80 + n / 0x1000 % 0x40 - 0x80)) * 64 +
      (0x80 + n / 0x40 % 0x40 - 0x80)) * 64 + (0x80 + n % 0x40 - 0x80) = n := by omega
  simp only [hc, nil_append]

theorem unitsOf_pairCode {u v : UInt16} (hu : isHighSurrogate u = true)
    (hv : isLowSurrogate v = true) : unitsOf (pairCode u v) = [u, v] := by
  rw [high_iff] at hu
  rw [low_iff] at hv
  unfold unitsOf pairCode
  rw [if_neg (by omega)]
  have ha : 0xD800 + (0x10000 + (u.toNat - 0xD800) * 0x400 + (v.toNat - 0xDC00) - 0x10000) / 0x400
      = u.toNat := by omega
  have hb : 0xDC00 + (0x10000 + (u.toNat - 0xD800) * 0x400 + (v.toNat - 0xDC00) - 0x10000) % 0x400
      = v.toNat := by omega
  rw [ha, hb, UInt16.ofNat_toNat, UInt16.ofNat_toNat]

theorem pairCode_bounds {u v : UInt16} (hu : isHighSurrogate u = true)
    (hv : isLowSurrogate v = true) : 0x10000 ≤ pairCode u v ∧ pairCode u v < 0x110000 := by
  rw [high_iff] at hu
  rw [low_iff] at hv
  unfold pairCode
  omega

theorem decodeFrom_encodePair {u v : UInt16} (hu : isHighSurrogate u = true)
    (hv : isLowSurrogate v = true) (bs : List UInt8) :
    decodeFrom idle (encodePair u v ++ bs) = u :: v :: decodeFrom idle bs := by
  obtain ⟨hlo, hhi⟩ := pairCode_bounds hu hv
  have h := decodeFrom_four hlo hhi bs
  rw [unitsOf_pairCode hu hv] at h
  exact h

theorem decodeFrom_encode (s : Str) (h : wellPaired s = true) :
    decodeFrom idle (encode s) = s := by
  fun_induction encode s with
  | case1 => rfl
  | case2 u =>
    have := decodeFrom_encodeUnit (u := u) (by simpa [wellPaired] using h) []
    rw [append_nil] at this
    rw [this]; rfl
  | case3 u v s hp ih =>
    simp only [wellPaired, hp, ↓reduceIte] at h
    simp only [Bool.and_eq_true] at hp
    rw [decodeFrom_encodePair hp.1 hp.2, ih h]
  | case4 u v s hp ih =>
    simp only [wellPaired, hp, Bool.false_eq_true, ↓reduceIte, Bool.and_eq_true,
      Bool.not_eq_true'] at h
    rw [decodeFrom_encodeUnit h.1, ih h.2]

theorem decodeStrict_encode (s : Str) (h : wellPaired s = true) :
    decodeStrict (encode s) = some s := by
  simp [decodeStrict, decodeFrom_encode s h]

/-- No byte order mark is dropped from a text that starts below it. -/
theorem decode_encode {u : UInt16} {s : Str} (hu : u.toNat < 0x80) (h : wellPaired (u :: s) = true) :
    decode (encode (u :: s)) = u :: s := by
  have hns : isSurrogate u = false := by
    rw [Bool.eq_false_iff, Ne, surrogate_iff]; omega
  have hhi : isHighSurrogate u = false := by
    rw [Bool.eq_false_iff, Ne, high_iff]; omega
  have henc : ∃ bs, encode (u :: s) = UInt8.ofNat u.toNat :: bs := by
    cases s with
    | nil => exact ⟨[], by simp [encode, encodeUnit, hu]⟩
    | cons v s => exact ⟨encode (v :: s), by simp [encode, encodeUnit, hu, hhi]⟩
  obtain ⟨bs, hbs⟩ := henc
  have hdec := decodeFrom_encode (u :: s) h
  rw [hbs] at hdec ⊢
  rw [← hdec]
  unfold decode
  split
  · rename_i bs' heq
    have h0 : (UInt8.ofNat u.toNat).toNat = 0xEF := by
      rw [(List.cons.inj heq).1]; rfl
    rw [ofNat_toNat_lt (by omega)] at h0
    omega
  · rfl

theorem encode_injective {s t : Str} (hs : wellPaired s = true) (ht : wellPaired t = true)
    (h : encode s = encode t) : s = t := by
  rw [← decodeFrom_encode s hs, ← decodeFrom_encode t ht, h]

/-! ## Texts without unpaired surrogates -/

theorem high_surrogate {u : UInt16} (h : isHighSurrogate u = true) : isSurrogate u = true := by
  rw [high_iff] at h
  rw [surrogate_iff]
  omega

theorem low_surrogate {u : UInt16} (h : isLowSurrogate u = true) : isSurrogate u = true := by
  rw [low_iff] at h
  rw [surrogate_iff]
  omega

theorem wellPaired_cons {u : UInt16} (h : isSurrogate u = false) (s : Str) :
    wellPaired (u :: s) = wellPaired s := by
  have hhi : isHighSurrogate u = false := by
    cases hh : isHighSurrogate u with
    | false => rfl
    | true => rw [high_surrogate hh] at h; cases h
  cases s with
  | nil => simp [wellPaired, h]
  | cons v s => simp [wellPaired, hhi, h]

theorem wellPaired_append (s t : Str) (hs : wellPaired s = true) (ht : wellPaired t = true) :
    wellPaired (s ++ t) = true := by
  fun_induction wellPaired s with
  | case1 => exact ht
  | case2 u =>
    simp only [Bool.not_eq_true'] at hs
    rw [singleton_append, wellPaired_cons hs]; exact ht
  | case3 u v s hp ih =>
    have : wellPaired (u :: v :: (s ++ t)) = wellPaired (s ++ t) := by simp [wellPaired, hp]
    exact this.trans (ih hs)
  | case4 u v s hp ih =>
    simp only [Bool.and_eq_true, Bool.not_eq_true'] at hs
    rw [cons_append, wellPaired_cons hs.1]
    exact ih hs.2

theorem wellPaired_ascii (s : Str) (h : isAscii s = true) : wellPaired s = true := by
  induction s with
  | nil => rfl
  | cons u s ih =>
    simp only [isAscii, all_cons, Bool.and_eq_true, decide_eq_true_eq] at h
    rw [wellPaired_cons (by rw [Bool.eq_false_iff, Ne, surrogate_iff]; omega)]
    exact ih h.2

end OpenBrain.Core.Utf8
