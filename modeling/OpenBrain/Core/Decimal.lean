import OpenBrain.Core.JsonText

/-!
# Decimals as ECMAScript and Python lay them out

A decimal (`Dec`) is a sign, a coefficient without trailing zeros and a power
of ten. Both languages write the shortest decimal of a double and differ in the
layout: `ecmaTok` is `Number::toString`, `pyFloatTok` is `float.__repr__`. Both
are given as a number token (`NumTok`: integer digits, fraction, exponent) and
rendered by one function, so two texts are equal exactly when the tokens are
(`render_injective`), and a token denotes the decimal it was laid out from
(`value_ecmaTok`, `value_pyFloatTok`, `value_pyIntTok`). `pyFloatTok_eq_iff` and
`pyIntTok_eq_iff` say which decimals the two languages lay out alike.
-/
namespace OpenBrain.Core
open List

/-! ## Decimals -/

/-- `± coeff · 10 ^ exp` without trailing zeros. -/
structure Dec where
  neg : Bool
  coeff : Nat
  exp : Int
  normal : (coeff = 0 ∧ exp = 0) ∨ coeff % 10 ≠ 0
  deriving DecidableEq, Repr

/-- Drop trailing zeros; the first argument bounds their number. -/
def stripZeros : Nat → Nat → Int → Nat × Int
  | 0, c, e => (c, e)
  | n + 1, c, e => if c % 10 = 0 then stripZeros n (c / 10) (e + 1) else (c, e)

theorem stripZeros_normal (n c : Nat) (e : Int) (h : 0 < c) (hn : c < 10 ^ n) :
    (stripZeros n c e).1 % 10 ≠ 0 := by
  induction n generalizing c e with
  | zero => simp at hn; omega
  | succ n ih =>
    simp only [stripZeros]
    split
    · rename_i h0
      refine ih (c / 10) (e + 1) (by omega) ?_
      rw [Nat.pow_succ] at hn
      omega
    · assumption

theorem lt_ten_pow (c : Nat) : c < 10 ^ c := Nat.lt_pow_self (by decide)

theorem Dec.zero_normal : ((0 : Nat) = 0 ∧ (0 : Int) = 0) ∨ (0 : Nat) % 10 ≠ 0 := .inl ⟨rfl, rfl⟩

/-- The decimal `± c · 10 ^ e`. -/
def Dec.make (neg : Bool) (c : Nat) (e : Int) : Dec :=
  if h : c = 0 then ⟨neg, 0, 0, .inl ⟨rfl, rfl⟩⟩
  else ⟨neg, (stripZeros c c e).1, (stripZeros c c e).2,
    .inr (stripZeros_normal c c e (Nat.pos_of_ne_zero h) (lt_ten_pow c))⟩

theorem stripZeros_mul_pow {c : Nat} (hc : c % 10 ≠ 0) (z n : Nat) (e : Int) (hn : z ≤ n) :
    stripZeros n (c * 10 ^ z) e = (c, e + z) := by
  induction z generalizing n e with
  | zero =>
    cases n with
    | zero => simp [stripZeros]
    | succ n => simp [stripZeros, hc]
  | succ z ih =>
    obtain ⟨n, rfl⟩ : ∃ n', n = n' + 1 := ⟨n - 1, by omega⟩
    have h0 : c * 10 ^ (z + 1) = c * 10 ^ z * 10 := by rw [Nat.pow_succ, Nat.mul_assoc]
    simp only [stripZeros, h0, Nat.mul_mod_left, ↓reduceIte,
      Nat.mul_div_cancel _ (show 0 < 10 by decide)]
    rw [ih n (e + 1) (by omega)]
    simp only [Prod.mk.injEq, true_and]
    omega

/-- Trailing zeros are worth their power of ten. -/
theorem Dec.make_mul_pow (d : Dec) (hd : d.coeff ≠ 0) (z : Nat) :
    Dec.make d.neg (d.coeff * 10 ^ z) (d.exp - z) = d := by
  have hc : d.coeff % 10 ≠ 0 := by
    rcases d.normal with h | h
    · exact absurd h.1 hd
    · exact h
  have hpos : d.coeff * 10 ^ z ≠ 0 := Nat.mul_ne_zero hd (Nat.pos_iff_ne_zero.mp (Nat.pow_pos (by decide)))
  have hz : z ≤ d.coeff * 10 ^ z := by
    have h1 : z < 10 ^ z := lt_ten_pow z
    have h2 : 10 ^ z ≤ d.coeff * 10 ^ z := Nat.le_mul_of_pos_left _ (Nat.pos_of_ne_zero hd)
    omega
  unfold Dec.make
  rw [dif_neg hpos]
  have hs := stripZeros_mul_pow hc z (d.coeff * 10 ^ z) (d.exp - z) hz
  have h1 := congrArg Prod.fst hs
  have h2 := congrArg Prod.snd hs
  simp only [Int.sub_add_cancel] at h1 h2
  cases d
  simp_all

theorem Dec.make_coeff (d : Dec) (hd : d.coeff ≠ 0) : Dec.make d.neg d.coeff d.exp = d := by
  have := Dec.make_mul_pow d hd 0
  simpa using this

/-- The decimal of an integer. -/
def Dec.ofInt (i : Int) : Dec := Dec.make (decide (i < 0)) i.natAbs 0

/-! ## Digits -/

/-- The decimal digits of `n`, as characters. -/
abbrev digits (n : Nat) : List Char := Nat.toDigits 10 n

def zeros (n : Nat) : List Char := List.replicate n '0'

/-- The number a run of digits spells. -/
abbrev digitsVal (cs : List Char) : Nat := Nat.ofDigitChars 10 cs 0

theorem digitsVal_append_zeros (c z : Nat) : digitsVal (digits c ++ zeros z) = c * 10 ^ z := by
  rw [digitsVal, Nat.ofDigitChars_append, Nat.ofDigitChars_ten_toDigits, zeros,
    Nat.ofDigitChars_replicate_zero, Nat.mul_comm]

theorem digitsVal_zeros_append (c z : Nat) : digitsVal (zeros z ++ digits c) = c := by
  rw [digitsVal, Nat.ofDigitChars_append, zeros, Nat.ofDigitChars_replicate_zero, Nat.mul_zero,
    Nat.ofDigitChars_ten_toDigits]

theorem digits_mul_pow {c : Nat} (hc : 0 < c) (z : Nat) :
    digits (c * 10 ^ z) = digits c ++ zeros z := by
  induction z with
  | zero => simp [zeros]
  | succ z ih =>
    have h0 : c * 10 ^ (z + 1) = 10 * (c * 10 ^ z) + 0 := by
      rw [Nat.pow_succ, ← Nat.mul_assoc]; omega
    have hpos : 0 < c * 10 ^ z := Nat.mul_pos hc (Nat.pow_pos (by decide))
    have happ := Nat.toDigits_append_toDigits (b := 10) (n := c * 10 ^ z) (d := 0) (by decide) hpos
      (by decide)
    have hz : Nat.toDigits 10 0 = zeros 1 := by decide
    rw [h0, digits, ← happ, hz]
    have := congrArg (· ++ zeros 1) ih
    simp only [digits] at this
    rw [this, append_assoc]
    simp [zeros, replicate_succ']

theorem digits_ne_nil (c : Nat) : digits c ≠ [] := Nat.toDigits_ne_nil

theorem digits_head {c : Nat} (hc : 0 < c) : (digits c).head? ≠ some '0' := by
  induction c using Nat.strongRecOn with
  | _ c ih =>
    rw [digits, Nat.toDigits_eq_if (by decide)]
    split
    · rename_i h
      have hall : ∀ m : Fin 10, 0 < m.val → (Nat.digitChar m) ≠ '0' := by decide
      simpa using hall ⟨c, h⟩ hc
    · rename_i h
      have := ih (c / 10) (by omega) (by omega)
      cases hd : Nat.toDigits 10 (c / 10) with
      | nil => exact absurd hd Nat.toDigits_ne_nil
      | cons x xs => rw [digits, hd] at this; simpa using this

theorem isDigit_digits (c : Nat) : ∀ x ∈ digits c, x.isDigit = true := fun _ hx =>
  Nat.isDigit_of_mem_toDigits (by decide) (by decide) hx

theorem isDigit_zeros (n : Nat) : ∀ x ∈ zeros n, x.isDigit = true := by
  intro x hx
  rw [eq_of_mem_replicate hx]; rfl

def Dec.len (d : Dec) : Nat := (digits d.coeff).length

/-- The position of the decimal point from the left of the digits. -/
def Dec.point (d : Dec) : Int := d.exp + d.len

theorem Dec.len_pos (d : Dec) : 0 < d.len := Nat.length_toDigits_pos

/-! ## Number tokens -/

/-- A JSON number: sign, integer digits, fraction digits, signed exponent. -/
structure NumTok where
  neg : Bool
  ip : List Char
  frac : Option (List Char)
  exp : Option (Bool × List Char)
  deriving DecidableEq, Repr

def NumTok.render (t : NumTok) : List Char :=
  (if t.neg then ['-'] else []) ++ t.ip ++ (match t.frac with | some f => '.' :: f | none => []) ++
    (match t.exp with | some (n, x) => 'e' :: (if n then '-' else '+') :: x | none => [])

/-- The grammar of JSON numbers. -/
structure NumTok.Valid (t : NumTok) : Prop where
  ip_ne : t.ip ≠ []
  ip_digits : ∀ c ∈ t.ip, c.isDigit = true
  ip_lead : t.ip.head? = some '0' → t.ip = ['0']
  frac : ∀ f, t.frac = some f → f ≠ [] ∧ ∀ c ∈ f, c.isDigit = true
  exp : ∀ n x, t.exp = some (n, x) → x ≠ [] ∧ ∀ c ∈ x, c.isDigit = true

def spanDigits (cs : List Char) : List Char × List Char :=
  (cs.takeWhile Char.isDigit, cs.dropWhile Char.isDigit)

/-- An exponent up to the end of the text. -/
def readExp : List Char → Option (Option (Bool × List Char))
  | [] => some none
  | e :: cs =>
    if e = 'e' ∨ e = 'E' then
      let (neg, cs) := match cs with
        | '-' :: cs => (true, cs)
        | '+' :: cs => (false, cs)
        | cs => (false, cs)
      if cs ≠ [] ∧ cs.all Char.isDigit then some (some (neg, cs)) else none
    else none

def readFrac : List Char → Option (Option (List Char) × List Char)
  | '.' :: cs =>
    if (spanDigits cs).1 = [] then none else some (some (spanDigits cs).1, (spanDigits cs).2)
  | cs => some (none, cs)

def readNum (cs : List Char) : Option NumTok :=
  let (neg, cs) := match cs with
    | '-' :: cs => (true, cs)
    | cs => (false, cs)
  let (ip, cs) := spanDigits cs
  if ip = [] ∨ (ip.head? = some '0' ∧ ip ≠ ['0']) then none
  else
    match readFrac cs with
    | none => none
    | some (frac, cs) => (readExp cs).map fun exp => ⟨neg, ip, frac, exp⟩

/-- The decimal a token denotes. -/
def NumTok.value (t : NumTok) : Dec :=
  let f := t.frac.getD []
  let x : Int := match t.exp with
    | some (true, x) => -(digitsVal x : Int)
    | some (false, x) => digitsVal x
    | none => 0
  Dec.make t.neg (digitsVal (t.ip ++ f)) (x - f.length)

/-! ## Layouts -/

def wholeTok (d : Dec) (frac : Option (List Char)) : NumTok :=
  ⟨d.neg, digits d.coeff ++ zeros d.exp.toNat, frac, none⟩

def pointTok (d : Dec) : NumTok :=
  ⟨d.neg, (digits d.coeff).take d.point.toNat, some ((digits d.coeff).drop d.point.toNat), none⟩

/-- `0.000ddd`. -/
def smallTok (d : Dec) : NumTok :=
  ⟨d.neg, ['0'], some (zeros (-d.point).toNat ++ digits d.coeff), none⟩

/-- `d.ddd` followed by the exponent `point - 1`, whose digits are laid out by `pad`. -/
def expTok (d : Dec) (pad : List Char → List Char) : NumTok :=
  ⟨d.neg, (digits d.coeff).take 1, if d.len = 1 then none else some ((digits d.coeff).drop 1),
    some (decide (d.point - 1 < 0), pad (digits (d.point - 1).natAbs))⟩

/-- `Number::toString`. -/
def ecmaTok (d : Dec) : NumTok :=
  if d.coeff = 0 then ⟨false, ['0'], none, none⟩
  else if d.len ≤ d.point ∧ d.point ≤ 21 then wholeTok d none
  else if 0 < d.point ∧ d.point ≤ 21 then pointTok d
  else if -6 < d.point ∧ d.point ≤ 0 then smallTok d
  else expTok d id

/-- Two digits at least. -/
def pad2 (x : List Char) : List Char := if x.length < 2 then '0' :: x else x

/-- `float.__repr__`. -/
def pyFloatTok (d : Dec) : NumTok :=
  if d.coeff = 0 then ⟨d.neg, ['0'], some ['0'], none⟩
  else if -4 < d.point ∧ d.point ≤ 16 then
    if d.point ≤ 0 then smallTok d
    else if d.point < d.len then pointTok d
    else wholeTok d (some ['0'])
  else expTok d pad2

/-- `int.__repr__`. -/
def pyIntTok (i : Int) : NumTok := ⟨decide (i < 0), digits i.natAbs, none, none⟩

/-! ## A rendered token reads back -/

def NumTok.fracText (t : NumTok) : List Char :=
  match t.frac with | some f => '.' :: f | none => []

def NumTok.expText (t : NumTok) : List Char :=
  match t.exp with | some (n, x) => 'e' :: (if n then '-' else '+') :: x | none => []

theorem spanDigits_append {s r : List Char} (hd : ∀ c ∈ s, c.isDigit = true)
    (hr : ∀ c t, r = c :: t → c.isDigit = false) : spanDigits (s ++ r) = (s, r) := by
  induction s with
  | nil =>
    cases r with
    | nil => rfl
    | cons c t => simp [spanDigits, hr c t rfl]
  | cons d s ih =>
    have hc := hd d (by simp)
    have ih := ih fun c h => hd c (by simp [h])
    simp only [spanDigits, Prod.mk.injEq] at ih ⊢
    simp [hc, ih.1, ih.2]

theorem readExp_expText {t : NumTok} (h : t.Valid) : readExp t.expText = some t.exp := by
  unfold NumTok.expText
  cases he : t.exp with
  | none => rfl
  | some p =>
    obtain ⟨n, x⟩ := p
    obtain ⟨hne, hd⟩ := h.exp n x he
    have hall : x.all Char.isDigit = true := by simpa using hd
    cases n <;> simp [readExp, hne, hall]

theorem expText_head {t : NumTok} : ∀ c s, t.expText = c :: s → c = 'e' := by
  intro c s h
  unfold NumTok.expText at h
  cases he : t.exp with
  | none => rw [he] at h; cases h
  | some p => rw [he] at h; exact (List.cons.inj h).1.symm

theorem readFrac_fracText {t : NumTok} (h : t.Valid) :
    readFrac (t.fracText ++ t.expText) = some (t.frac, t.expText) := by
  unfold NumTok.fracText
  cases hf : t.frac with
  | none =>
    simp only [nil_append]
    cases he : t.expText with
    | nil => rfl
    | cons c s => rw [expText_head c s he]; rfl
  | some f =>
    obtain ⟨hne, hd⟩ := h.frac f hf
    have hspan := spanDigits_append (s := f) (r := t.expText) hd
      fun c s hcs => by rw [expText_head c s hcs]; rfl
    simp [readFrac, hspan, hne]

theorem rest_head {t : NumTok} : ∀ c s, t.fracText ++ t.expText = c :: s → c.isDigit = false := by
  intro c s h
  unfold NumTok.fracText at h
  cases hf : t.frac with
  | none => rw [hf] at h; rw [expText_head c s h]; rfl
  | some f => rw [hf] at h; rw [← (List.cons.inj h).1]; rfl

theorem readNum_render {t : NumTok} (h : t.Valid) : readNum t.render = some t := by
  have hspan := spanDigits_append (s := t.ip) (r := t.fracText ++ t.expText) h.ip_digits rest_head
  have hlead : ¬ (t.ip = [] ∨ (t.ip.head? = some '0' ∧ t.ip ≠ ['0'])) := by
    rintro (h0 | ⟨h0, h1⟩)
    · exact h.ip_ne h0
    · exact h1 (h.ip_lead h0)
  have hrender : t.render =
      (if t.neg then ['-'] else []) ++ (t.ip ++ (t.fracText ++ t.expText)) := by
    simp [NumTok.render, NumTok.fracText, NumTok.expText, append_assoc]
  -- the sign is read off the first character, which is a digit when there is none
  have hsign : (match t.render with | '-' :: cs => (true, cs) | cs => (false, cs)) =
      (t.neg, t.ip ++ (t.fracText ++ t.expText)) := by
    rw [hrender]
    cases hn : t.neg with
    | true => rfl
    | false =>
      cases hip : t.ip with
      | nil => exact absurd hip h.ip_ne
      | cons c cs =>
        have hc := h.ip_digits c (by rw [hip]; simp)
        have hne : c ≠ '-' := by rintro rfl; cases hc
        simp [hne]
  unfold readNum
  rw [hsign]
  simp only [hspan, hlead, ↓reduceIte, readFrac_fracText h, readExp_expText h, Option.map_some]

theorem render_injective {t u : NumTok} (ht : t.Valid) (hu : u.Valid)
    (h : t.render = u.render) : t = u := by
  have := readNum_render ht
  rw [h, readNum_render hu] at this
  exact (Option.some.inj this).symm

/-! ## The layouts are tokens of their decimal -/

theorem isDigit_take_drop {c : Nat} (n : Nat) :
    (∀ x ∈ (digits c).take n, x.isDigit = true) ∧ (∀ x ∈ (digits c).drop n, x.isDigit = true) :=
  ⟨fun x h => isDigit_digits c x (mem_of_mem_take h),
    fun x h => isDigit_digits c x (mem_of_mem_drop h)⟩

theorem head_take {c : Nat} (hc : 0 < c) {n : Nat} (hn : 0 < n) :
    ((digits c).take n).head? ≠ some '0' := by
  have h := digits_head hc
  cases hd : digits c with
  | nil => exact absurd hd (digits_ne_nil c)
  | cons x xs =>
    obtain ⟨n, rfl⟩ : ∃ n', n = n' + 1 := ⟨n - 1, by omega⟩
    rw [hd] at h
    simpa using h

theorem wholeTok_valid {d : Dec} (hc : 0 < d.coeff) {frac : Option (List Char)}
    (hf : frac = none ∨ frac = some ['0']) : (wholeTok d frac).Valid where
  ip_ne := by simp [wholeTok]
  ip_digits c h := by
    rcases mem_append.mp h with h | h
    · exact isDigit_digits _ c h
    · exact isDigit_zeros _ c h
  ip_lead h := by
    have hne := digits_head hc
    cases hd : digits d.coeff with
    | nil => exact absurd hd (digits_ne_nil _)
    | cons x xs =>
      simp only [wholeTok] at h
      rw [hd] at h hne
      exact absurd h (by simpa using hne)
  frac f h := by
    rcases hf with rfl | rfl
    · cases h
    · cases h
      exact ⟨by simp, isDigit_zeros 1⟩
  exp n x h := by cases h

theorem pointTok_valid {d : Dec} (hc : 0 < d.coeff) (h0 : 0 < d.point) (hl : d.point < d.len) :
    (pointTok d).Valid where
  ip_ne := by
    simp only [pointTok, ne_eq, take_eq_nil_iff]
    rintro (h | h)
    · omega
    · exact digits_ne_nil _ h
  ip_digits := (isDigit_take_drop _).1
  ip_lead h := absurd h (head_take hc (by omega))
  frac f h := by
    cases h
    refine ⟨?_, (isDigit_take_drop _).2⟩
    simp only [Dec.len] at hl
    simp only [ne_eq, drop_eq_nil_iff]
    omega
  exp n x h := by cases h

theorem smallTok_valid (d : Dec) : (smallTok d).Valid where
  ip_ne := by simp [smallTok]
  ip_digits c h := by
    obtain rfl : c = '0' := by simpa [smallTok] using h
    rfl
  ip_lead _ := rfl
  frac f h := by
    cases h
    refine ⟨by simp, fun c h => ?_⟩
    rcases mem_append.mp h with h | h
    · exact isDigit_zeros _ c h
    · exact isDigit_digits _ c h
  exp n x h := by cases h

theorem expTok_valid {d : Dec} (hc : 0 < d.coeff) {pad : List Char → List Char}
    (hpad : ∀ x, x ≠ [] → (∀ c ∈ x, c.isDigit = true) →
      pad x ≠ [] ∧ ∀ c ∈ pad x, c.isDigit = true) : (expTok d pad).Valid where
  ip_ne := by
    have := Dec.len_pos d
    simp only [expTok, ne_eq, take_eq_nil_iff]
    simp
  ip_digits := (isDigit_take_drop 1).1
  ip_lead h := absurd h (head_take hc (by decide))
  frac f h := by
    simp only [expTok] at h
    split at h
    · cases h
    · rename_i hlen
      cases h
      refine ⟨?_, (isDigit_take_drop 1).2⟩
      have hpos := Dec.len_pos d
      simp only [Dec.len] at hlen hpos
      simp only [ne_eq, drop_eq_nil_iff]
      omega
  exp n x h := by
    simp only [expTok, Option.some.injEq, Prod.mk.injEq] at h
    obtain ⟨-, rfl⟩ := h
    exact hpad _ (digits_ne_nil _) (isDigit_digits _)

theorem pad2_digits (x : List Char) (hne : x ≠ []) (hd : ∀ c ∈ x, c.isDigit = true) :
    pad2 x ≠ [] ∧ ∀ c ∈ pad2 x, c.isDigit = true := by
  unfold pad2
  split
  · refine ⟨by simp, fun c h => ?_⟩
    rcases mem_cons.mp h with rfl | h
    · rfl
    · exact hd c h
  · exact ⟨hne, hd⟩

theorem zeroTok_valid (neg : Bool) {frac : Option (List Char)}
    (hf : frac = none ∨ frac = some ['0']) : (NumTok.mk neg ['0'] frac none).Valid where
  ip_ne := by simp
  ip_digits c h := by
    obtain rfl : c = '0' := by simpa using h
    rfl
  ip_lead _ := rfl
  frac f h := by
    rcases hf with rfl | rfl
    · cases h
    · cases h
      exact ⟨by simp, isDigit_zeros 1⟩
  exp n x h := by cases h

theorem ecmaTok_valid (d : Dec) : (ecmaTok d).Valid := by
  unfold ecmaTok
  split
  · exact zeroTok_valid _ (.inl rfl)
  · rename_i hc
    have hc := Nat.pos_of_ne_zero hc
    split
    · exact wholeTok_valid hc (.inl rfl)
    split
    · exact pointTok_valid hc (by omega) (by omega)
    split
    · exact smallTok_valid d
    · exact expTok_valid hc fun x hne hd => ⟨hne, hd⟩

theorem pyFloatTok_valid (d : Dec) : (pyFloatTok d).Valid := by
  unfold pyFloatTok
  split
  · exact zeroTok_valid _ (.inr rfl)
  · rename_i hc
    have hc := Nat.pos_of_ne_zero hc
    split
    · split
      · exact smallTok_valid d
      split
      · exact pointTok_valid hc (by omega) (by omega)
      · exact wholeTok_valid hc (.inr rfl)
    · exact expTok_valid hc pad2_digits

theorem pyIntTok_valid (i : Int) : (pyIntTok i).Valid where
  ip_ne := digits_ne_nil _
  ip_digits := isDigit_digits _
  ip_lead h := by
    rcases Nat.eq_zero_or_pos i.natAbs with h0 | h0
    · simp only [pyIntTok, h0]
      decide
    · exact absurd h (digits_head h0)
  frac f h := by cases h
  exp n x h := by cases h

/-! ## A layout denotes its decimal -/

theorem value_wholeTok {d : Dec} (hc : d.coeff ≠ 0) (he : 0 ≤ d.exp) :
    (wholeTok d none).value = d ∧ (wholeTok d (some ['0'])).value = d := by
  constructor
  · have h := Dec.make_mul_pow d hc d.exp.toNat
    rw [show d.exp - (d.exp.toNat : Int) = 0 by omega] at h
    simpa [wholeTok, NumTok.value, digitsVal_append_zeros] using h
  · have h := Dec.make_mul_pow d hc (d.exp.toNat + 1)
    have hz : digits d.coeff ++ zeros d.exp.toNat ++ ['0'] =
        digits d.coeff ++ zeros (d.exp.toNat + 1) := by
      simp [zeros, replicate_succ']
    rw [show d.exp - ((d.exp.toNat + 1 : Nat) : Int) = 0 - (['0'].length : Nat) by
      simp; omega] at h
    unfold wholeTok NumTok.value
    simp only [Option.getD_some]
    rw [hz, digitsVal_append_zeros]
    exact h

theorem value_pointTok {d : Dec} (hc : d.coeff ≠ 0) (h0 : 0 < d.point) (hl : d.point < d.len) :
    (pointTok d).value = d := by
  have hlen : ((digits d.coeff).drop d.point.toNat).length = (-d.exp).toNat := by
    rw [List.length_drop]
    unfold Dec.point Dec.len at *
    omega
  have hexp : (0 : Int) - ((-d.exp).toNat : Nat) = d.exp := by
    unfold Dec.point at *
    omega
  unfold pointTok NumTok.value
  simp only [Option.getD_some, take_append_drop, hlen, hexp]
  rw [digitsVal, Nat.ofDigitChars_ten_toDigits]
  exact Dec.make_coeff d hc

theorem value_smallTok {d : Dec} (hc : d.coeff ≠ 0) (h0 : d.point ≤ 0) :
    (smallTok d).value = d := by
  have hz : ['0'] ++ (zeros (-d.point).toNat ++ digits d.coeff) =
      zeros ((-d.point).toNat + 1) ++ digits d.coeff := by
    simp [zeros, replicate_succ]
  have hlen : (zeros (-d.point).toNat ++ digits d.coeff).length = (-d.exp).toNat := by
    have : (digits d.coeff).length = d.len := rfl
    rw [length_append, this]
    unfold Dec.point at *
    simp only [zeros, length_replicate]
    omega
  have hexp : (0 : Int) - ((-d.exp).toNat : Nat) = d.exp := by
    unfold Dec.point at *
    omega
  unfold smallTok NumTok.value
  simp only [Option.getD_some, hz, hlen, hexp, digitsVal_zeros_append]
  exact Dec.make_coeff d hc

theorem value_expTok {d : Dec} (hc : d.coeff ≠ 0) {pad : List Char → List Char}
    (hpad : ∀ n, digitsVal (pad (digits n)) = n) : (expTok d pad).value = d := by
  have hlen := Dec.len_pos d
  have hip : (digits d.coeff).take 1 ++ (if d.len = 1 then none else
      some ((digits d.coeff).drop 1)).getD [] = digits d.coeff := by
    split
    · rename_i h
      rw [Option.getD_none, append_nil]
      exact take_of_length_le (Nat.le_of_eq h)
    · exact take_append_drop 1 _
  have hf : ((if d.len = 1 then none else some ((digits d.coeff).drop 1)).getD []).length =
      d.len - 1 := by
    split
    · rename_i h
      simp [h]
    · simp [Dec.len]
  have hx : (match (expTok d pad).exp with
      | some (true, x) => -(digitsVal x : Int)
      | some (false, x) => (digitsVal x : Int)
      | none => 0) = d.point - 1 := by
    by_cases h : d.point - 1 < 0
    · simp only [expTok, h, decide_true, hpad]
      rw [Int.ofNat_natAbs_of_nonpos (by omega)]
      exact Int.neg_neg _
    · simp only [expTok, h, decide_false, hpad]
      exact Int.natAbs_of_nonneg (by omega)
  have hexp : d.point - 1 - ((d.len - 1 : Nat) : Int) = d.exp := by
    unfold Dec.point
    omega
  unfold NumTok.value
  rw [hx]
  simp only [expTok, hip, hf, hexp, digitsVal, Nat.ofDigitChars_ten_toDigits]
  exact Dec.make_coeff d hc

theorem digitsVal_pad2 (n : Nat) : digitsVal (pad2 (digits n)) = n := by
  unfold pad2
  split
  · exact digitsVal_zeros_append n 1
  · exact Nat.ofDigitChars_ten_toDigits

theorem Dec.exp_nonneg {d : Dec} (h : d.len ≤ d.point) : 0 ≤ d.exp := by
  unfold Dec.point at h
  omega

theorem value_ecmaTok {d : Dec} (hc : d.coeff ≠ 0) : (ecmaTok d).value = d := by
  unfold ecmaTok
  rw [if_neg hc]
  split
  · rename_i h
    exact (value_wholeTok hc (Dec.exp_nonneg h.1)).1
  split
  · exact value_pointTok hc (by omega) (by omega)
  split
  · exact value_smallTok hc (by omega)
  · exact value_expTok hc fun n => Nat.ofDigitChars_ten_toDigits

theorem Dec.eq_zero {d : Dec} (h : d.coeff = 0) : d = Dec.make d.neg 0 0 := by
  obtain ⟨neg, c, e, hn⟩ := d
  obtain rfl : c = 0 := h
  obtain rfl : e = 0 := by
    rcases hn with hn | hn
    · exact hn.2
    · exact absurd rfl hn
  rfl

theorem value_pyFloatTok (d : Dec) : (pyFloatTok d).value = d := by
  unfold pyFloatTok
  split
  · rename_i h
    exact (Dec.eq_zero h).symm
  · rename_i hc
    split
    · split
      · exact value_smallTok hc (by omega)
      split
      · exact value_pointTok hc (by omega) (by omega)
      · exact (value_wholeTok hc (Dec.exp_nonneg (by omega))).2
    · exact value_expTok hc digitsVal_pad2

theorem value_pyIntTok (i : Int) : (pyIntTok i).value = Dec.ofInt i := by
  unfold pyIntTok NumTok.value Dec.ofInt
  simp [digitsVal, Nat.ofDigitChars_ten_toDigits]

/-! ## Which decimals the two languages lay out alike -/

/-- Layouts the two languages share: a point inside the digits, up to three
zeros after `0.`, or an exponent of two digits or more. -/
def alikeFloat (d : Dec) : Prop :=
  d.coeff ≠ 0 ∧ ((0 < d.point ∧ d.point < d.len ∧ d.point ≤ 16) ∨ (-4 < d.point ∧ d.point ≤ 0) ∨
    d.point ≤ -9 ∨ 21 < d.point)

instance (d : Dec) : Decidable (alikeFloat d) := inferInstanceAs (Decidable (_ ∧ _))

theorem two_le_length_digits {n : Nat} : 2 ≤ (digits n).length ↔ 10 ≤ n := by
  have h := Nat.length_toDigits_le_iff (b := 10) (n := n) (k := 1) (by decide) (by decide)
  unfold digits
  omega

theorem pad2_digits_eq {n : Nat} : pad2 (digits n) = digits n ↔ 10 ≤ n := by
  rw [← two_le_length_digits]
  unfold pad2
  split
  · rename_i h
    refine ⟨fun he => ?_, fun h2 => absurd h (by omega)⟩
    have := congrArg List.length he
    simp at this
  · rename_i h
    exact ⟨fun _ => by omega, fun _ => rfl⟩

theorem expTok_pad2_eq (d : Dec) : expTok d pad2 = expTok d id ↔ 10 ≤ (d.point - 1).natAbs := by
  rw [← pad2_digits_eq]
  constructor
  · intro h
    have := congrArg NumTok.exp h
    simpa [expTok] using this
  · intro h
    simp [expTok, h]

theorem expTok_exp_ne (d : Dec) (pad : List Char → List Char) {t : NumTok} (h : t.exp = none) :
    expTok d pad ≠ t := by
  rintro rfl
  cases h

/-- A float is laid out alike in both languages exactly in these cases. -/
theorem pyFloatTok_eq_iff (d : Dec) : pyFloatTok d = ecmaTok d ↔ alikeFloat d := by
  unfold alikeFloat
  by_cases hc : d.coeff = 0
  · simp [pyFloatTok, ecmaTok, hc]
  have hlen := Dec.len_pos d
  by_cases hmid : -4 < d.point ∧ d.point ≤ 16
  · by_cases h0 : d.point ≤ 0
    · have hp : pyFloatTok d = smallTok d := by simp [pyFloatTok, hc, hmid, h0]
      have he : ecmaTok d = smallTok d := by
        unfold ecmaTok
        rw [if_neg hc, if_neg (by omega), if_neg (by omega), if_pos (by omega)]
      exact ⟨fun _ => ⟨hc, by omega⟩, fun _ => hp.trans he.symm⟩
    by_cases hl : d.point < d.len
    · have hp : pyFloatTok d = pointTok d := by simp [pyFloatTok, hc, hmid, h0, hl]
      have he : ecmaTok d = pointTok d := by
        unfold ecmaTok
        rw [if_neg hc, if_neg (by omega), if_pos (by omega)]
      exact ⟨fun _ => ⟨hc, by omega⟩, fun _ => hp.trans he.symm⟩
    · have hp : pyFloatTok d = wholeTok d (some ['0']) := by simp [pyFloatTok, hc, hmid, h0, hl]
      have he : ecmaTok d = wholeTok d none := by
        unfold ecmaTok
        rw [if_neg hc, if_pos (by omega)]
      rw [hp, he]
      refine ⟨fun h => ?_, fun h => by omega⟩
      have := congrArg NumTok.frac h
      cases this
  · have hp : pyFloatTok d = expTok d pad2 := by simp [pyFloatTok, hc, hmid]
    rw [hp]
    by_cases hx : d.point ≤ -6 ∨ 21 < d.point
    · have he : ecmaTok d = expTok d id := by
        unfold ecmaTok
        rw [if_neg hc, if_neg (by omega), if_neg (by omega), if_neg (by omega)]
      rw [he, expTok_pad2_eq]
      omega
    · have he : (ecmaTok d).exp = none := by
        unfold ecmaTok
        rw [if_neg hc]
        split
        · rfl
        split
        · rfl
        rw [if_pos (by omega)]
        rfl
      exact ⟨fun h => absurd h (expTok_exp_ne d pad2 he), fun h => by omega⟩

/-! ## Integers -/

theorem stripZeros_spec (n c : Nat) (e : Int) :
    e ≤ (stripZeros n c e).2 ∧
      (stripZeros n c e).1 * 10 ^ ((stripZeros n c e).2 - e).toNat = c := by
  induction n generalizing c e with
  | zero => simp [stripZeros]
  | succ n ih =>
    simp only [stripZeros]
    split
    · rename_i h
      obtain ⟨h1, h2⟩ := ih (c / 10) (e + 1)
      refine ⟨by omega, ?_⟩
      have hz : ((stripZeros n (c / 10) (e + 1)).2 - e).toNat =
          ((stripZeros n (c / 10) (e + 1)).2 - (e + 1)).toNat + 1 := by omega
      rw [hz, Nat.pow_succ, ← Nat.mul_assoc, h2]
      omega
    · simp

theorem Dec.ofInt_spec {i : Int} (hi : i ≠ 0) :
    (Dec.ofInt i).coeff ≠ 0 ∧ 0 ≤ (Dec.ofInt i).exp ∧ (Dec.ofInt i).neg = decide (i < 0) ∧
      (Dec.ofInt i).coeff * 10 ^ (Dec.ofInt i).exp.toNat = i.natAbs := by
  have h0 : i.natAbs ≠ 0 := by omega
  have hs := stripZeros_spec i.natAbs i.natAbs 0
  rw [Int.sub_zero] at hs
  unfold Dec.ofInt Dec.make
  rw [dif_neg h0]
  refine ⟨fun hz => h0 ?_, hs.1, rfl, hs.2⟩
  rw [← hs.2]
  simp only at hz
  rw [hz, Nat.zero_mul]

theorem Dec.ofInt_digits {i : Int} (hi : i ≠ 0) :
    digits (Dec.ofInt i).coeff ++ zeros (Dec.ofInt i).exp.toNat = digits i.natAbs := by
  obtain ⟨hc, -, -, hv⟩ := Dec.ofInt_spec hi
  rw [← digits_mul_pow (Nat.pos_of_ne_zero hc), hv]

theorem Dec.ofInt_point {i : Int} (hi : i ≠ 0) :
    (Dec.ofInt i).point = (digits i.natAbs).length := by
  have he := (Dec.ofInt_spec hi).2.1
  rw [← Dec.ofInt_digits hi, length_append]
  unfold Dec.point Dec.len
  simp only [zeros, length_replicate]
  omega

/-- ECMAScript writes an integer below `10 ^ 21` without an exponent. -/
theorem ecmaTok_ofInt (i : Int) : ecmaTok (Dec.ofInt i) = pyIntTok i ↔ i.natAbs < 10 ^ 21 := by
  by_cases hi : i = 0
  · subst hi
    decide
  obtain ⟨hc, he, hn, -⟩ := Dec.ofInt_spec hi
  have hp := Dec.ofInt_point hi
  have hlen : ((Dec.ofInt i).len : Int) ≤ (Dec.ofInt i).point := by
    unfold Dec.point
    omega
  have hdig := Nat.length_toDigits_le_iff (b := 10) (n := i.natAbs) (k := 21) (by decide) (by decide)
  by_cases h21 : (Dec.ofInt i).point ≤ 21
  · have hlt : i.natAbs < 10 ^ 21 := hdig.mp (by unfold digits at hp; omega)
    refine ⟨fun _ => hlt, fun _ => ?_⟩
    unfold ecmaTok
    rw [if_neg hc, if_pos ⟨hlen, h21⟩]
    simp only [wholeTok, pyIntTok, hn, Dec.ofInt_digits hi]
  · have hge : ¬ i.natAbs < 10 ^ 21 := fun h => by
      have := hdig.mpr h
      unfold digits at hp
      omega
    have hx : ecmaTok (Dec.ofInt i) = expTok (Dec.ofInt i) id := by
      unfold ecmaTok
      rw [if_neg hc, if_neg (by omega), if_neg (by omega), if_neg (by omega)]
    rw [hx]
    exact ⟨fun h => absurd h (expTok_exp_ne _ _ rfl), fun h => absurd h hge⟩

/-- An integer and a decimal have the same text exactly when the decimal is the
integer's and is short enough. -/
theorem pyIntTok_eq_iff (i : Int) (d : Dec) (hd : i = 0 → d = Dec.ofInt 0) :
    pyIntTok i = ecmaTok d ↔ d = Dec.ofInt i ∧ i.natAbs < 10 ^ 21 := by
  constructor
  · intro h
    have hv := congrArg NumTok.value h
    rw [value_pyIntTok] at hv
    have hd : d = Dec.ofInt i := by
      by_cases hc : d.coeff = 0
      · have hip : digits i.natAbs = ['0'] := by
          have := congrArg NumTok.ip h
          simpa [pyIntTok, ecmaTok, hc] using this
        have h0 : i.natAbs = 0 := by
          rw [← Nat.ofDigitChars_ten_toDigits (n := i.natAbs)]
          exact congrArg digitsVal hip
        obtain rfl : i = 0 := by omega
        exact hd rfl
      · rw [hv, value_ecmaTok hc]
    subst hd
    exact ⟨rfl, (ecmaTok_ofInt i).mp h.symm⟩
  · rintro ⟨rfl, h⟩
    exact ((ecmaTok_ofInt i).mpr h).symm

end OpenBrain.Core
