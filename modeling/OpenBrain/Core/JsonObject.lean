import OpenBrain.Core.Double
import OpenBrain.Core.Quote
import Mathlib.Data.List.Sort

/-!
# JSON in Python and in ECMAScript

A Python `dict` keeps its keys in the order of insertion; an ECMAScript object
puts the array indices first, in ascending order (`Ecma.ordered`). Each language
has a printer (`Py.json`, `Ecma.json`) and a reader (`Py.loads`,
`Ecma.parse`). `Ecma.ofPy` is the ECMAScript value of a Python value.

`Py.loads_print` and `Ecma.parse_print` are the round trips;
`print_eq_iff` says which values the two languages write alike.
-/
namespace OpenBrain.Core
open List

/-! ## Objects -/

def Members.dict {ν : Type} (ms : Members ν) : Members ν :=
  ms.foldl (fun acc m => acc.set m.1 m.2) []

namespace Ecma

/-- An array index: a canonical decimal below `2 ^ 32 - 1`. -/
def arrayIndex (k : Str) : Option Nat :=
  let cs := chars k
  if cs ≠ [] ∧ cs.all Char.isDigit = true ∧ (cs.head? = some '0' → cs = ['0']) ∧
      digitsVal cs < 4294967295 then some (digitsVal cs) else none

/-- Array indices ascend, and everything else comes after them. -/
def indexLe : Option Nat → Option Nat → Prop
  | some i, some j => i ≤ j
  | none, some _ => False
  | _, none => True

instance : (i j : Option Nat) → Decidable (indexLe i j)
  | some i, some j => inferInstanceAs (Decidable (i ≤ j))
  | none, some _ => .isFalse id
  | some _, none => .isTrue trivial
  | none, none => .isTrue trivial

/-- `k` may stand before `l` among the keys of an object. -/
def before (k l : Str) : Prop := indexLe (arrayIndex k) (arrayIndex l)

instance (k l : Str) : Decidable (before k l) :=
  inferInstanceAs (Decidable (indexLe (arrayIndex k) (arrayIndex l)))

/-- The keys stand in the order of an object. -/
def InOrder (keys : List Str) : Prop := keys.Pairwise before

instance (keys : List Str) : Decidable (InOrder keys) :=
  inferInstanceAs (Decidable (keys.Pairwise before))

/-- `OrdinaryOwnPropertyKeys`: array indices first, ascending, then the rest in order. -/
def ordered {ν : Type} (ms : Members ν) : Members ν :=
  ms.insertionSort fun a b => before a.1 b.1

def object {ν : Type} (ms : Members ν) : Members ν := ordered ms.dict

end Ecma

/-! ## Printers and readers -/

namespace Py

/-- `json.dumps(value, separators=(",", ":"))`. -/
def json : Printer PyNum := ⟨numText, quote⟩

/-- `json.loads` of octets. The constants `NaN` and `Infinity`, which it also
takes, are not JSON and are left out. -/
def loads (raw : List UInt8) : Option (Json PyNum) :=
  ((Utf8.decodeStrict raw).bind (JsonText.parse readNumber JsonText.unquote)).map
    (Json.build Members.dict)

end Py

namespace Ecma

/-- `JSON.stringify`. -/
def json : Printer Double := ⟨numText, quote⟩

/-- `JSON.parse`. -/
def parse (s : Str) : Option (Json Double) :=
  (JsonText.parse readNumber JsonText.unquote s).map (Json.build object)

/-- The ECMAScript value of a Python value. -/
def ofPy (v : Json PyNum) : Json Double := (v.map PyNum.toDouble).build object

/-- The members of a Python object as ECMAScript has them, still in Python's order. -/
def ofPyInner (ms : Members PyNum) : Members Double :=
  Json.buildMembers object (Json.mapMembers PyNum.toDouble ms)

def ofPyObject (ms : Members PyNum) : Members Double := object (ofPyInner ms)

end Ecma

/-! ## Order -/

namespace Ecma

theorem before_total (k l : Str) : before k l ∨ before l k := by
  unfold before
  cases arrayIndex k <;> cases arrayIndex l <;> simp only [indexLe, or_true, true_or, or_self]
  exact Nat.le_total _ _

theorem before_trans {k l m : Str} (h1 : before k l) (h2 : before l m) : before k m := by
  unfold before at *
  cases hk : arrayIndex k <;> cases hl : arrayIndex l <;> cases hm : arrayIndex m <;>
    simp only [hk, hl, hm, indexLe] at h1 h2 ⊢
  exact Nat.le_trans h1 h2

instance {ν : Type} : Std.Total fun a b : Str × Json ν => before a.1 b.1 :=
  ⟨fun a b => before_total a.1 b.1⟩

instance {ν : Type} : IsTrans (Str × Json ν) fun a b => before a.1 b.1 :=
  ⟨fun _ _ _ h1 h2 => before_trans h1 h2⟩

theorem inOrder_ordered {ν : Type} (ms : Members ν) : InOrder ((ordered ms).map Prod.fst) :=
  pairwise_map.mpr (pairwise_insertionSort _ ms)

theorem ordered_eq {ν : Type} {ms : Members ν} (h : InOrder (ms.map Prod.fst)) :
    ordered ms = ms := (pairwise_map.mp h).insertionSort_eq

end Ecma

theorem Members.foldl_set {ν : Type} (ms acc : Members ν)
    (h : ((acc ++ ms).map Prod.fst).Nodup) :
    ms.foldl (fun acc m => Members.set acc m.1 m.2) acc = acc ++ ms := by
  induction ms generalizing acc with
  | nil => simp
  | cons m ms ih =>
    have hnone : Members.get? acc m.1 = none := by
      apply Members.get?_eq_none
      intro hmem
      rw [map_append, nodup_append] at h
      exact h.2.2 m.1 hmem m.1 (by simp) rfl
    rw [foldl_cons, Members.set_of_get?_none _ hnone, ih _ (by simpa using h)]
    simp

/-- Distinct keys stay as they are. -/
theorem Members.dict_eq {ν : Type} {ms : Members ν} (h : (ms.map Prod.fst).Nodup) :
    ms.dict = ms := by
  exact (Members.foldl_set ms [] h).trans (nil_append ms)

/-! ## Conditions on the nodes of a value -/

/-- A Python value: the keys of every `dict` are distinct. -/
def Py.Value (v : Json PyNum) : Prop := v.All (Json.Keys List.Nodup)

/-- An ECMAScript value: the keys of every object are distinct and in order. -/
def Ecma.Value (v : Json Double) : Prop := v.All (Json.Keys fun ks => ks.Nodup ∧ Ecma.InOrder ks)

/-- Negative zero is written `0`. -/
def Ecma.unsigned (d : Double) : Double := if d.1.coeff = 0 then ⟨Dec.make false 0 0, rfl⟩ else d

/-- Not negative zero. -/
def Ecma.NotNegZero (d : Double) : Prop := d.1.coeff = 0 → d.1.neg = false

instance (d : Double) : Decidable (Ecma.NotNegZero d) := inferInstanceAs (Decidable (_ → _))

/-- A node both languages write alike. -/
def Alike : Json PyNum → Prop
  | .num n => alikeNum n
  | .str s => alike s = true
  | .obj ms => (∀ m ∈ ms, alike m.1 = true) ∧ Ecma.InOrder (ms.map Prod.fst)
  | _ => True

theorem Ecma.unsigned_eq_self_iff (d : Double) : Ecma.unsigned d = d ↔ Ecma.NotNegZero d := by
  unfold Ecma.unsigned Ecma.NotNegZero
  by_cases hc : d.1.coeff = 0
  · have hd := Dec.eq_zero hc
    simp only [hc, ↓reduceIte, forall_const]
    constructor
    · intro h
      rw [← h]
      rfl
    · intro h
      apply Subtype.ext
      rw [hd, h]
  · simp [hc]

theorem Ecma.map_unsigned_iff (v : Json Double) :
    v.map Ecma.unsigned = v ↔ v.All (Json.Num Ecma.NotNegZero) := by
  rw [Json.map_eq_self_iff]
  have : (fun d => Ecma.unsigned d = d) = Ecma.NotNegZero :=
    funext fun d => propext (Ecma.unsigned_eq_self_iff d)
  rw [this]

/-! ## The ECMAScript value of a Python value -/

theorem Ecma.ofPyInner_keys (ms : Members PyNum) :
    (Ecma.ofPyInner ms).map Prod.fst = ms.map Prod.fst := by
  rw [Ecma.ofPyInner, Json.buildMembers_keys, Json.mapMembers_keys]

theorem Ecma.ofPyObject_eq {ms : Members PyNum} (h : (ms.map Prod.fst).Nodup) :
    Ecma.ofPyObject ms = Ecma.ordered (Ecma.ofPyInner ms) := by
  unfold Ecma.ofPyObject Ecma.object
  rw [Members.dict_eq (by rwa [Ecma.ofPyInner_keys])]

section OfPy

variable {p : Json PyNum → Prop} {q : Json Double → Prop}

mutual

/-- What holds of the nodes of a Python value carries over node by node. -/
theorem ofPy_all (hnode : ∀ v, Json.Keys List.Nodup v → p v → q (Ecma.ofPy v)) (v : Json PyNum)
    (hv : Py.Value v) (h : v.All p) : (Ecma.ofPy v).All q := by
  match v with
  | .null => exact hnode .null trivial h
  | .bool b => exact hnode (.bool b) trivial h
  | .num n => exact hnode (.num n) trivial h
  | .str s => exact hnode (.str s) trivial h
  | .arr xs => exact ⟨hnode (.arr xs) trivial h.1, ofPyElems_all hnode xs hv.2 h.2⟩
  | .obj ms =>
    refine ⟨hnode (.obj ms) hv.1 h.1, ?_⟩
    show Json.AllMembers q (Ecma.ofPyObject ms)
    rw [Ecma.ofPyObject_eq hv.1, Json.allMembers_iff]
    intro m hm
    have hall := (Json.allMembers_iff q _).mp (ofPyInner_all hnode ms hv.2 h.2)
    exact hall m ((mem_insertionSort _).mp hm)

theorem ofPyElems_all (hnode : ∀ v, Json.Keys List.Nodup v → p v → q (Ecma.ofPy v))
    (xs : List (Json PyNum)) (hv : Json.AllElems (Json.Keys List.Nodup) xs)
    (h : Json.AllElems p xs) :
    Json.AllElems q (Json.buildElems Ecma.object (Json.mapElems PyNum.toDouble xs)) := by
  match xs with
  | [] => trivial
  | x :: xs => exact ⟨ofPy_all hnode x hv.1 h.1, ofPyElems_all hnode xs hv.2 h.2⟩

theorem ofPyInner_all (hnode : ∀ v, Json.Keys List.Nodup v → p v → q (Ecma.ofPy v))
    (ms : Members PyNum) (hv : Json.AllMembers (Json.Keys List.Nodup) ms)
    (h : Json.AllMembers p ms) : Json.AllMembers q (Ecma.ofPyInner ms) := by
  match ms with
  | [] => trivial
  | (_, x) :: ms => exact ⟨ofPy_all hnode x hv.1 h.1, ofPyInner_all hnode ms hv.2 h.2⟩

end

end OfPy

theorem ofPy_value (v : Json PyNum) (h : Py.Value v) : Ecma.Value (Ecma.ofPy v) := by
  refine ofPy_all (p := Json.Keys List.Nodup) ?_ v h h
  intro v hv _
  match v with
  | .null | .bool _ | .num _ | .str _ | .arr _ => trivial
  | .obj ms =>
    show ((Ecma.ofPyObject ms).map Prod.fst).Nodup ∧ Ecma.InOrder ((Ecma.ofPyObject ms).map Prod.fst)
    rw [Ecma.ofPyObject_eq hv]
    refine ⟨?_, Ecma.inOrder_ordered _⟩
    have hperm := (perm_insertionSort (fun a b : Str × Json Double => Ecma.before a.1 b.1)
      (Ecma.ofPyInner ms)).map Prod.fst
    rw [Ecma.ordered, hperm.nodup_iff, Ecma.ofPyInner_keys]
    exact hv

theorem alikeNum_notNegZero (n : PyNum) (h : alikeNum n) : Ecma.NotNegZero n.toDouble := by
  intro hc
  cases n with
  | float d => exact absurd hc h.1
  | int i hi =>
    have hx := PyNum.toDouble_int hi
    rw [h.1] at hx
    have hd := Option.some.inj hx
    rw [← hd] at hc ⊢
    by_cases h0 : i = 0
    · subst h0
      rfl
    · exact absurd hc (Dec.ofInt_spec h0).1

theorem ofPy_notNegZero (v : Json PyNum) (hv : Py.Value v) (h : v.All Alike) :
    (Ecma.ofPy v).All (Json.Num Ecma.NotNegZero) := by
  refine ofPy_all (p := Alike) ?_ v hv h
  intro v _ ha
  match v with
  | .null | .bool _ | .str _ | .arr _ | .obj _ => trivial
  | .num n => exact alikeNum_notNegZero n ha

/-! ## Round trips -/

theorem Py.lawful : Py.json.Lawful where
  num n := isNumTok_text (Py.numTok_valid n)
  quote s := (Py.pieces_escape s).token.1

theorem Ecma.lawful : Ecma.json.Lawful where
  num d := isNumTok_text (ecmaTok_valid d.1)
  quote s := (Ecma.pieces_escape s).token.1

theorem Py.paired : Py.json.Paired where
  num n := Utf8.wellPaired_ascii _ (text_ascii (Py.numTok_valid n))
  quote s := Utf8.wellPaired_ascii _ (Py.ascii_quote s)

theorem Ecma.paired : Ecma.json.Paired where
  num d := Utf8.wellPaired_ascii _ (text_ascii (ecmaTok_valid d.1))
  quote s := Ecma.wellPaired_quote s

theorem Py.readBack : JsonText.ReadBack Py.json Py.readNumber JsonText.unquote id where
  num n := Py.readNumber_numText n
  quote s := Py.unquote_quote s

theorem Ecma.readBack : JsonText.ReadBack Ecma.json Ecma.readNumber JsonText.unquote
    Ecma.unsigned where
  num d := by
    by_cases hc : d.1.coeff = 0
    · have htext : Ecma.numText d = Ecma.numText (Ecma.unsigned d) := by
        simp [Ecma.numText, Ecma.unsigned, ecmaTok, hc, Dec.make]
      show Ecma.readNumber (Ecma.numText d) = _
      rw [htext]
      apply Ecma.readNumber_numText
      intro _
      simp [Ecma.unsigned, hc, Dec.make]
    · show Ecma.readNumber (Ecma.numText d) = _
      rw [Ecma.readNumber_numText fun h => absurd h hc]
      simp [Ecma.unsigned, hc]
  quote s := Ecma.unquote_quote s

/-- Python reads back what it wrote. -/
theorem Py.loads_print (v : Json PyNum) (h : Py.Value v) :
    Py.loads (Utf8.encode (Py.json.print v)) = some v := by
  unfold Py.loads
  rw [Utf8.decodeStrict_encode _ (wellPaired_print Py.paired v), Option.bind_some,
    JsonText.parse_print Py.lawful Py.readBack, Option.map_some,
    Json.build_map (fun ms => Members.dict_eq) id v h, Json.map_id]

/-- ECMAScript reads back what it wrote, negative zeros as zeros. -/
theorem Ecma.parse_print (v : Json Double) (h : Ecma.Value v) :
    Ecma.parse (Ecma.json.print v) = some (v.map Ecma.unsigned) := by
  have hmk : ∀ ms : Members Double,
      (ms.map Prod.fst).Nodup ∧ Ecma.InOrder (ms.map Prod.fst) → Ecma.object ms = ms := by
    intro ms ⟨hn, ho⟩
    unfold Ecma.object
    rw [Members.dict_eq hn, Ecma.ordered_eq ho]
  unfold Ecma.parse
  rw [JsonText.parse_print Ecma.lawful Ecma.readBack, Option.map_some,
    Json.build_map hmk Ecma.unsigned v h]

/-! ## Values both languages write alike -/

theorem rawMembers_keys {ν : Type} (P : Printer ν) (ms : Members ν) :
    (P.rawMembers ms).map Prod.fst = (ms.map Prod.fst).map P.quote := by
  induction ms with
  | nil => rfl
  | cons m ms ih => simp [Printer.rawMembers, ih]

theorem quotes_inj {ks ls : List Str} (h : ks.map Py.quote = ls.map Ecma.quote) : ks = ls := by
  have := congrArg (List.map JsonText.unquote) h
  have hk : ∀ k, (JsonText.unquote ∘ Py.quote) k = some k := Py.unquote_quote
  have hl : ∀ k, (JsonText.unquote ∘ Ecma.quote) k = some k := Ecma.unquote_quote
  rw [map_map, map_map, map_congr_left (fun k _ => hk k),
    map_congr_left (fun k _ => hl k)] at this
  exact (map_injective_iff.mpr (Option.some_injective _)) this

mutual

theorem raw_eq_iff (v : Json PyNum) (h : Py.Value v) :
    Py.json.raw v = Ecma.json.raw (Ecma.ofPy v) ↔ v.All Alike := by
  match v with
  | .null | .bool _ => simp [Printer.raw, Ecma.ofPy, Json.map, Json.build, Json.All, Alike]
  | .num n =>
    have : Py.json.num n = Ecma.json.num n.toDouble ↔ alikeNum n := numText_eq_iff n
    simpa [Printer.raw, Ecma.ofPy, Json.map, Json.build, Json.All, Alike] using this
  | .str s =>
    have : Py.json.quote s = Ecma.json.quote s ↔ alike s = true := quote_eq_iff s
    simpa [Printer.raw, Ecma.ofPy, Json.map, Json.build, Json.All, Alike] using this
  | .arr xs =>
    have := rawElems_eq_iff xs h.2
    simpa [Printer.raw, Ecma.ofPy, Json.map, Json.build, Json.All, Alike] using this
  | .obj ms =>
    have hinner := rawMembers_eq_iff ms h.2
    have hofPy : Ecma.ofPy (.obj ms) = .obj (Ecma.ordered (Ecma.ofPyInner ms)) :=
      congrArg Json.obj (Ecma.ofPyObject_eq h.1)
    rw [hofPy]
    simp only [Printer.raw, Json.obj.injEq, Json.All, Alike]
    constructor
    · intro heq
      -- the quoted keys determine the keys, so the order was right already
      have hkeys : ms.map Prod.fst = (Ecma.ordered (Ecma.ofPyInner ms)).map Prod.fst := by
        apply quotes_inj
        have := congrArg (List.map Prod.fst) heq
        rwa [rawMembers_keys, rawMembers_keys] at this
      have hin : Ecma.InOrder (ms.map Prod.fst) := by
        rw [hkeys]
        exact Ecma.inOrder_ordered _
      rw [Ecma.ordered_eq (by rwa [Ecma.ofPyInner_keys]), hinner] at heq
      exact ⟨⟨heq.1, hin⟩, heq.2⟩
    · intro ⟨⟨hk, hin⟩, hall⟩
      rw [Ecma.ordered_eq (by rwa [Ecma.ofPyInner_keys]), hinner]
      exact ⟨hk, hall⟩

theorem rawElems_eq_iff (xs : List (Json PyNum)) (h : Json.AllElems (Json.Keys List.Nodup) xs) :
    Py.json.rawElems xs =
      Ecma.json.rawElems (Json.buildElems Ecma.object (Json.mapElems PyNum.toDouble xs)) ↔
      Json.AllElems Alike xs := by
  match xs with
  | [] => simp [Printer.rawElems, Json.mapElems, Json.buildElems, Json.AllElems]
  | x :: xs =>
    have hx := raw_eq_iff x h.1
    have hxs := rawElems_eq_iff xs h.2
    simp only [Printer.rawElems, Json.mapElems, Json.buildElems, Json.AllElems, List.cons.injEq]
    rw [← hx, ← hxs]
    rfl

theorem rawMembers_eq_iff (ms : Members PyNum) (h : Json.AllMembers (Json.Keys List.Nodup) ms) :
    Py.json.rawMembers ms = Ecma.json.rawMembers (Ecma.ofPyInner ms) ↔
      (∀ m ∈ ms, alike m.1 = true) ∧ Json.AllMembers Alike ms := by
  match ms with
  | [] => simp [Printer.rawMembers, Ecma.ofPyInner, Json.mapMembers, Json.buildMembers,
      Json.AllMembers]
  | (k, x) :: ms =>
    have hk : Py.json.quote k = Ecma.json.quote k ↔ alike k = true := quote_eq_iff k
    have hx := raw_eq_iff x h.1
    have hms := rawMembers_eq_iff ms h.2
    have hcons : Ecma.ofPyInner ((k, x) :: ms) = (k, Ecma.ofPy x) :: Ecma.ofPyInner ms := rfl
    simp only [hcons, Printer.rawMembers, Json.AllMembers, List.cons.injEq, Prod.mk.injEq,
      mem_cons, forall_eq_or_imp]
    rw [hk, hx, hms]
    exact ⟨fun ⟨⟨a, b⟩, c, d⟩ => ⟨⟨a, c⟩, b, d⟩, fun ⟨⟨a, c⟩, b, d⟩ => ⟨⟨a, b⟩, c, d⟩⟩

end

/-- A Python value and its ECMAScript value have the same octets exactly when
every node is alike. -/
theorem encode_eq_iff (v : Json PyNum) (h : Py.Value v) :
    Utf8.encode (Py.json.print v) = Utf8.encode (Ecma.json.print (Ecma.ofPy v)) ↔
      v.All Alike := by
  rw [← raw_eq_iff v h]
  constructor
  · intro henc
    exact JsonText.raw_eq_of_print_eq Py.lawful Ecma.lawful (Utf8.encode_injective
      (wellPaired_print Py.paired _) (wellPaired_print Ecma.paired _) henc)
  · intro hraw
    rw [← JsonText.print_raw Py.json, hraw, JsonText.print_raw]

end OpenBrain.Core
