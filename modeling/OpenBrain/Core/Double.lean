import OpenBrain.Core.Decimal

/-!
# Doubles, and the numbers of the two languages

A finite double is carried as the decimal both languages write for it: the
shortest that rounds to it, and of those the closest (`shortest`). `Dec.round`
rounds a decimal to a binary64 magnitude, half to even; `nearest` is the double
closest to a decimal and `none` past the largest double. A `Double` is a fixed
point of `nearest`.

Python keeps integers apart from floats (`PyNum`); ECMAScript has doubles only,
and `PyNum.toDouble` is the double a JSON reader makes of a Python number.
`alikeNum` says which numbers the two write alike.
-/
namespace OpenBrain.Core
open List

/-! ## Rounding -/

/-- The magnitude `mant · 2 ^ exp`. -/
structure Bin where
  mant : Nat
  exp : Int
  deriving DecidableEq, Repr

/-- `a / b`, half to even. -/
def divHalfEven (a b : Nat) : Nat :=
  if 2 * (a % b) < b ∨ (2 * (a % b) = b ∧ a / b % 2 = 0) then a / b else a / b + 1

/-- `c · 10 ^ e` as a fraction. -/
def Dec.frac (d : Dec) : Nat × Nat := (d.coeff * 10 ^ d.exp.toNat, 10 ^ (-d.exp).toNat)

/-- `(a / b) / 2 ^ e` as a fraction. -/
def scaleBin (f : Nat × Nat) (e : Int) : Nat × Nat := (f.1 * 2 ^ (-e).toNat, f.2 * 2 ^ e.toNat)

/-- `(a / b) · 10 ^ k` as a fraction. -/
def scaleDec (f : Nat × Nat) (k : Int) : Nat × Nat := (f.1 * 10 ^ k.toNat, f.2 * 10 ^ (-k).toNat)

/-- The magnitude of a decimal in binary64: 53 bits, exponents from -1074 to 971. -/
def Dec.round (d : Dec) : Option Bin :=
  let f := d.frac
  let e := max (-1074) ((f.1.log2 : Int) - f.2.log2 - 53)
  -- the quotient has 53 or 54 bits, or fewer at the lower end of the range
  let e := if (scaleBin f e).1 / (scaleBin f e).2 < 2 ^ 53 then e else e + 1
  let m := divHalfEven (scaleBin f e).1 (scaleBin f e).2
  let b : Bin := if m = 2 ^ 53 then ⟨2 ^ 52, e + 1⟩ else ⟨m, e⟩
  if b.exp ≤ 971 then some b else none

/-- The decimals with `k` digits next to a magnitude, the closer one first. -/
def Bin.neighbours (b : Bin) (point : Int) (k : Nat) : List Dec :=
  let f := scaleDec (scaleBin (b.mant, 1) (-b.exp)) (k - point)
  let near := divHalfEven f.1 f.2
  let other := if near = f.1 / f.2 then near + 1 else f.1 / f.2
  [Dec.make false near (point - k), Dec.make false other (point - k)]

/-- The position of the decimal point of a magnitude; no magnitude is below
`10 ^ -400`. -/
def Bin.point (b : Bin) : Int :=
  let f := scaleDec (scaleBin (b.mant, 1) (-b.exp)) 400
  (digits (f.1 / f.2)).length - 400

/-- The shortest decimal that rounds to a magnitude; 17 digits suffice. -/
def Bin.shortest (b : Bin) : Option Dec :=
  ((List.range 17).flatMap fun k => b.neighbours b.point (k + 1)).find?
    fun d => d.round = some b

/-- The double closest to a decimal. -/
def nearest (d : Dec) : Option Dec :=
  if d.coeff = 0 then some d
  else
    match d.round with
    | none => none
    | some b =>
      if b.mant = 0 then some (Dec.make d.neg 0 0)
      else b.shortest.map fun x => { x with neg := d.neg }

theorem shortest_round {b : Bin} {d : Dec} (h : b.shortest = some d) : d.round = some b := by
  simpa using find?_some h

/-- Rounding a double changes nothing. -/
theorem nearest_nearest {d x : Dec} (h : nearest d = some x) : nearest x = some x := by
  unfold nearest at h
  split at h
  · rename_i hc
    obtain rfl := Option.some.inj h
    simp [nearest, hc]
  split at h
  · cases h
  rename_i b hb
  split at h
  · obtain rfl := Option.some.inj h
    rfl
  · rename_i hm
    obtain ⟨y, hy, rfl⟩ := Option.map_eq_some_iff.mp h
    -- rounding does not look at the sign
    have hround : Dec.round { y with neg := d.neg } = some b := by
      have : Dec.round { y with neg := d.neg } = y.round := rfl
      rw [this, shortest_round hy]
    unfold nearest
    split
    · rfl
    · rw [hround]
      simp [hm, hy]

example : nearest ⟨false, 1, 23, .inr (by decide)⟩ = some ⟨false, 1, 23, .inr (by decide)⟩ := by
  decide +kernel

/-- A finite double, as the decimal that is written for it. -/
def Double := { d : Dec // nearest d = some d }

instance : DecidableEq Double := inferInstanceAs (DecidableEq { d : Dec // nearest d = some d })

theorem Double.zero_fixed :
    nearest ⟨false, 0, 0, Dec.zero_normal⟩ = some ⟨false, 0, 0, Dec.zero_normal⟩ := by
  decide +kernel

/-- The order of decimals, on a common exponent. -/
def Dec.le (a b : Dec) : Bool :=
  let scaled := fun d : Dec =>
    (if d.neg then -1 else 1) * (d.coeff * 10 ^ (d.exp - min a.exp b.exp).toNat : Int)
  decide (scaled a ≤ scaled b)

/-- `<=` of finite doubles. -/
def Double.le (a b : Double) : Bool := Dec.le a.1 b.1

def Double.ofDec (d : Dec) : Option Double :=
  match h : nearest d with
  | some x => some ⟨x, nearest_nearest h⟩
  | none => none

theorem Double.ofDec_val (d : Double) : Double.ofDec d.1 = some d := by
  unfold Double.ofDec
  split
  · rename_i x h
    rw [d.2] at h
    exact congrArg some (Subtype.ext (Option.some.inj h).symm)
  · rename_i h
    rw [d.2] at h
    cases h

/-- A Python number with a finite double: an `int` or a `float`. -/
inductive PyNum where
  | int (i : Int) (finite : (Double.ofDec (Dec.ofInt i)).isSome)
  | float (d : Double)
  deriving DecidableEq

def PyNum.ofInt (i : Int) : Option PyNum :=
  if h : (Double.ofDec (Dec.ofInt i)).isSome then some (.int i h) else none

/-- The double a JSON reader makes of the number. -/
def PyNum.toDouble : PyNum → Double
  | .int i h => (Double.ofDec (Dec.ofInt i)).get h
  | .float d => d

/-! ## Texts -/

def NumTok.text (t : NumTok) : Str := t.render.map unit

def chars (s : Str) : List Char := s.map fun u => Char.ofNat u.toNat

namespace Ecma

def numText (d : Double) : Str := (ecmaTok d.1).text

def readNumber (s : Str) : Option Double := (readNum (chars s)).bind fun t => Double.ofDec t.value

end Ecma

namespace Py

def numTok : PyNum → NumTok
  | .int i _ => pyIntTok i
  | .float d => pyFloatTok d.1

def numText (n : PyNum) : Str := (numTok n).text

/-- An `int` when the token has neither fraction nor exponent. -/
def readNumber (s : Str) : Option PyNum :=
  (readNum (chars s)).bind fun t =>
    if t.frac = none ∧ t.exp = none then
      PyNum.ofInt (if t.neg then -(digitsVal t.ip : Int) else digitsVal t.ip)
    else (Double.ofDec t.value).map .float

end Py

/-- The numbers both languages write alike: an integer below `10 ^ 21` that is
the shortest decimal of its double, or a float both lay out alike. -/
def alikeNum : PyNum → Prop
  | .int i _ => nearest (Dec.ofInt i) = some (Dec.ofInt i) ∧ i.natAbs < 10 ^ 21
  | .float d => alikeFloat d.1

instance (n : PyNum) : Decidable (alikeNum n) :=
  match n with
  | .int _ _ => inferInstanceAs (Decidable (_ ∧ _))
  | .float d => inferInstanceAs (Decidable (alikeFloat d.1))

/-! ## Texts are tokens -/

theorem render_chars {t : NumTok} (h : t.Valid) {c : Char} (hc : c ∈ t.render) :
    c.isDigit = true ∨ c ∈ ['-', '+', '.', 'e'] := by
  simp only [NumTok.render, mem_append] at hc
  rcases hc with ((hc | hc) | hc) | hc
  · split at hc
    · exact .inr (mem_of_mem_head? (by simp at hc; simp [hc]))
    · cases hc
  · exact .inl (h.ip_digits c hc)
  · split at hc
    · rename_i f hf
      rcases mem_cons.mp hc with rfl | hc
      · exact .inr (by decide)
      · exact .inl ((h.frac f hf).2 c hc)
    · cases hc
  · split at hc
    · rename_i n x hx
      simp only [mem_cons] at hc
      rcases hc with rfl | rfl | hc
      · exact .inr (by decide)
      · exact .inr (by cases n <;> decide)
      · exact .inl ((h.exp n x hx).2 c hc)
    · cases hc

theorem isDigit_bounds {c : Char} (h : c.isDigit = true) : 48 ≤ c.toNat ∧ c.toNat ≤ 57 := by
  simpa [Char.isDigit, UInt32.le_iff_toNat_le] using h

theorem unit_toNat {c : Char} (h : c.toNat < 128) : (unit c).toNat = c.toNat := by
  unfold unit
  rw [UInt16.toNat_ofNat', Nat.mod_eq_of_lt (by omega)]

theorem render_ascii {t : NumTok} (h : t.Valid) {c : Char} (hc : c ∈ t.render) :
    c.toNat < 128 := by
  rcases render_chars h hc with hd | hs
  · have := isDigit_bounds hd
    omega
  · simp only [mem_cons, not_mem_nil, or_false] at hs
    rcases hs with rfl | rfl | rfl | rfl <;> decide

theorem chars_text {t : NumTok} (h : t.Valid) : chars t.text = t.render := by
  unfold chars NumTok.text
  rw [map_map]
  conv => rhs; rw [← List.map_id t.render]
  apply map_congr_left
  intro c hc
  simp only [Function.comp_apply, id_eq]
  rw [unit_toNat (render_ascii h hc), Char.ofNat_toNat]

theorem text_injective {t u : NumTok} (ht : t.Valid) (hu : u.Valid) (h : t.text = u.text) :
    t = u := by
  have := congrArg chars h
  rw [chars_text ht, chars_text hu] at this
  exact render_injective ht hu this

theorem text_ascii {t : NumTok} (h : t.Valid) : isAscii t.text = true := by
  rw [isAscii_iff]
  intro u hu
  obtain ⟨c, hc, rfl⟩ := mem_map.mp hu
  rw [unit_toNat (render_ascii h hc)]
  exact render_ascii h hc

theorem isDigit_unit {c : Char} (h : c.isDigit = true) : JsonText.isDigit (unit c) = true := by
  have hb := isDigit_bounds h
  have hu := unit_toNat (c := c) (by omega)
  simp only [JsonText.isDigit, Bool.and_eq_true, decide_eq_true_eq, UInt16.le_iff_toNat_le, hu]
  exact ⟨hb.1, hb.2⟩

theorem isNumTok_text {t : NumTok} (h : t.Valid) : JsonText.IsNumTok t.text := by
  constructor
  · cases hip : t.ip with
    | nil => exact absurd hip h.ip_ne
    | cons c cs =>
      have hc := isDigit_unit (h.ip_digits c (by rw [hip]; simp))
      cases hn : t.neg with
      | true => exact ⟨unit '-', _, by simp [NumTok.text, NumTok.render, hn]; rfl, by decide⟩
      | false =>
        exact ⟨unit c, _, by simp [NumTok.text, NumTok.render, hn, hip]; rfl,
          by simp [JsonText.isNumStart, hc]⟩
  · intro u hu
    obtain ⟨c, hc, rfl⟩ := mem_map.mp hu
    rcases render_chars h hc with hd | hs
    · simp [JsonText.isNumUnit, JsonText.isNumStart, isDigit_unit hd]
    · simp only [mem_cons, not_mem_nil, or_false] at hs
      rcases hs with rfl | rfl | rfl | rfl <;> decide

theorem Py.numTok_valid (n : PyNum) : (Py.numTok n).Valid := by
  cases n with
  | int i _ => exact pyIntTok_valid i
  | float d => exact pyFloatTok_valid d.1

/-! ## The two texts of a number -/

theorem PyNum.toDouble_int {i : Int} (h : (Double.ofDec (Dec.ofInt i)).isSome) :
    nearest (Dec.ofInt i) = some (PyNum.int i h).toDouble.1 := by
  unfold PyNum.toDouble
  obtain ⟨d, hd⟩ := Option.isSome_iff_exists.mp h
  have hx : nearest (Dec.ofInt i) = some d.1 := by
    unfold Double.ofDec at hd
    split at hd
    · rename_i x hx
      rw [hx, ← Option.some.inj hd]
    · cases hd
  simp only [hd, Option.get_some, hx]

/-- The two languages write a number alike exactly when it is alike. -/
theorem numText_eq_iff (n : PyNum) : Py.numText n = Ecma.numText n.toDouble ↔ alikeNum n := by
  have htok : Py.numText n = Ecma.numText n.toDouble ↔ Py.numTok n = ecmaTok n.toDouble.1 :=
    ⟨text_injective (Py.numTok_valid n) (ecmaTok_valid _), fun h => by
      unfold Py.numText Ecma.numText
      rw [h]⟩
  rw [htok]
  cases n with
  | float d => exact pyFloatTok_eq_iff d.1
  | int i h =>
    have hi := PyNum.toDouble_int h
    have hz : i = 0 → (PyNum.int i h).toDouble.1 = Dec.ofInt 0 := by
      rintro rfl
      exact (Option.some.inj hi).symm
    show pyIntTok i = _ ↔ _
    rw [pyIntTok_eq_iff i _ hz]
    show _ ↔ nearest (Dec.ofInt i) = some (Dec.ofInt i) ∧ _
    rw [hi, Option.some.injEq]

/-! ## Reading the texts back -/

theorem Ecma.readNumber_numText {d : Double} (h : d.1.coeff = 0 → d.1.neg = false) :
    Ecma.readNumber (Ecma.numText d) = some d := by
  have hv : (ecmaTok d.1).value = d.1 := by
    by_cases hc : d.1.coeff = 0
    · have hd := Dec.eq_zero hc
      rw [h hc] at hd
      rw [hd]
      rfl
    · exact value_ecmaTok hc
  unfold Ecma.readNumber Ecma.numText
  rw [chars_text (ecmaTok_valid _), readNum_render (ecmaTok_valid _), Option.bind_some, hv,
    Double.ofDec_val]

theorem pyFloatTok_not_int (d : Dec) : ¬ ((pyFloatTok d).frac = none ∧ (pyFloatTok d).exp = none) := by
  unfold pyFloatTok
  rintro ⟨hf, he⟩
  split at hf
  · cases hf
  split at hf
  · split at hf
    · cases hf
    split at hf <;> cases hf
  · rename_i hc hm
    rw [if_neg hc, if_neg hm] at he
    cases he

theorem Py.readNumber_numText (n : PyNum) : Py.readNumber (Py.numText n) = some n := by
  unfold Py.readNumber Py.numText
  rw [chars_text (Py.numTok_valid n), readNum_render (Py.numTok_valid n), Option.bind_some]
  cases n with
  | float d =>
    show (if (pyFloatTok d.1).frac = none ∧ (pyFloatTok d.1).exp = none then _ else _) = _
    rw [if_neg (pyFloatTok_not_int d.1)]
    show (Double.ofDec (pyFloatTok d.1).value).map PyNum.float = _
    rw [value_pyFloatTok, Double.ofDec_val]
    rfl
  | int i h =>
    have hi : (if decide (i < 0) = true then -(digitsVal (digits i.natAbs) : Int)
        else digitsVal (digits i.natAbs)) = i := by
      simp only [digitsVal, Nat.ofDigitChars_ten_toDigits, decide_eq_true_eq]
      split <;> omega
    show PyNum.ofInt (if decide (i < 0) = true then -(digitsVal (digits i.natAbs) : Int)
      else digitsVal (digits i.natAbs)) = _
    rw [hi, PyNum.ofInt, dif_pos h]

end OpenBrain.Core
