import OpenBrain.Core.Utf16

/-!
# JSON values and their compact text

`ν` is the number type. A `Printer` says how a language writes numbers and
strings; `Printer.print` writes a value without white space, `{` and `}`
around `"key":value` members joined by commas. Object members are kept in the
order in which they are written.
-/
namespace OpenBrain.Core
open List

inductive Json (ν : Type) where
  | null
  | bool (b : Bool)
  | num (n : ν)
  | str (s : Str)
  | arr (xs : List (Json ν))
  | obj (ms : List (Str × Json ν))

/-- The members of an object, in order. -/
abbrev Members (ν : Type) := List (Str × Json ν)

/-- How a language writes the leaves of a JSON text. -/
structure Printer (ν : Type) where
  num : ν → Str
  quote : Str → Str

namespace Printer

variable {ν : Type} (P : Printer ν)

mutual

/-- The compact JSON text of a value. -/
def print : Json ν → Str
  | .null => units "null"
  | .bool true => units "true"
  | .bool false => units "false"
  | .num n => P.num n
  | .str s => P.quote s
  | .arr xs => unit '[' :: joinSep [unit ','] (printElems xs) ++ [unit ']']
  | .obj ms => unit '{' :: joinSep [unit ','] (printMembers ms) ++ [unit '}']

def printElems : List (Json ν) → List Str
  | [] => []
  | x :: xs => print x :: printElems xs

def printMembers : List (Str × Json ν) → List Str
  | [] => []
  | (k, v) :: ms => (P.quote k ++ unit ':' :: print v) :: printMembers ms

end

theorem printMembers_eq_map (ms : Members ν) :
    P.printMembers ms = ms.map fun m => P.quote m.1 ++ unit ':' :: P.print m.2 := by
  induction ms with
  | nil => rfl
  | cons m ms ih => simp [printMembers, ih]

/-! ## Length of an object's text -/

/-- What a member costs: its key, the colon, its value and a comma. -/
def memberCost (m : Str × Json ν) : Nat := (P.quote m.1).length + (P.print m.2).length + 2

/-- The members' cost counts one comma too many, which pays for one brace. -/
theorem length_print_obj (ms : Members ν) :
    (P.print (.obj ms)).length = 2 + ((ms.map P.memberCost).sum - 1) := by
  have hcost : ((P.printMembers ms).map fun x => x.length + 1) = ms.map P.memberCost := by
    rw [printMembers_eq_map, map_map]
    apply map_congr_left
    intro m _
    simp only [Function.comp_apply, memberCost, length_append, length_cons]
    omega
  simp only [print, length_cons, length_append, length_nil,
    length_joinSep_single, hcost]
  omega

theorem two_le_length_print_obj (ms : Members ν) : 2 ≤ (P.print (.obj ms)).length := by
  rw [length_print_obj]; omega

end Printer

/-! ## Traversals -/

namespace Json

variable {ν μ : Type}

mutual

/-- Rename the numbers. -/
def map (f : ν → μ) : Json ν → Json μ
  | .null => .null
  | .bool b => .bool b
  | .num n => .num (f n)
  | .str s => .str s
  | .arr xs => .arr (mapElems f xs)
  | .obj ms => .obj (mapMembers f ms)

def mapElems (f : ν → μ) : List (Json ν) → List (Json μ)
  | [] => []
  | x :: xs => map f x :: mapElems f xs

def mapMembers (f : ν → μ) : Members ν → Members μ
  | [] => []
  | (k, x) :: ms => (k, map f x) :: mapMembers f ms

end

mutual

/-- Rebuild every object, the inner ones first. -/
def build (mk : Members ν → Members ν) : Json ν → Json ν
  | .null => .null
  | .bool b => .bool b
  | .num n => .num n
  | .str s => .str s
  | .arr xs => .arr (buildElems mk xs)
  | .obj ms => .obj (mk (buildMembers mk ms))

def buildElems (mk : Members ν → Members ν) : List (Json ν) → List (Json ν)
  | [] => []
  | x :: xs => build mk x :: buildElems mk xs

def buildMembers (mk : Members ν → Members ν) : Members ν → Members ν
  | [] => []
  | (k, x) :: ms => (k, build mk x) :: buildMembers mk ms

end

mutual

/-- `p` holds of the value and of every value inside it. -/
def All (p : Json ν → Prop) : Json ν → Prop
  | .arr xs => p (.arr xs) ∧ AllElems p xs
  | .obj ms => p (.obj ms) ∧ AllMembers p ms
  | .null => p .null
  | .bool b => p (.bool b)
  | .num n => p (.num n)
  | .str s => p (.str s)

def AllElems (p : Json ν → Prop) : List (Json ν) → Prop
  | [] => True
  | x :: xs => All p x ∧ AllElems p xs

def AllMembers (p : Json ν → Prop) : Members ν → Prop
  | [] => True
  | (_, x) :: ms => All p x ∧ AllMembers p ms

end

theorem mapMembers_keys (f : ν → μ) (ms : Members ν) :
    (mapMembers f ms).map Prod.fst = ms.map Prod.fst := by
  induction ms with
  | nil => rfl
  | cons m ms ih => simp [mapMembers, ih]

theorem buildMembers_keys (mk : Members ν → Members ν) (ms : Members ν) :
    (buildMembers mk ms).map Prod.fst = ms.map Prod.fst := by
  induction ms with
  | nil => rfl
  | cons m ms ih => simp [buildMembers, ih]

theorem allMembers_iff (p : Json ν → Prop) (ms : Members ν) :
    AllMembers p ms ↔ ∀ m ∈ ms, All p m.2 := by
  induction ms with
  | nil => simp [AllMembers]
  | cons m ms ih => simp [AllMembers, ih]

/-- A number as `p` says. -/
def Num (p : ν → Prop) : Json ν → Prop
  | .num n => p n
  | _ => True

/-- An object whose keys are as `p` says. -/
def Keys (p : List Str → Prop) : Json ν → Prop
  | .obj ms => p (ms.map Prod.fst)
  | _ => True

section Build

variable {mk : Members μ → Members μ} {p : List Str → Prop}

mutual

/-- Rebuilding leaves a value alone whose objects it leaves alone. -/
theorem build_map (hmk : ∀ ms : Members μ, p (ms.map Prod.fst) → mk ms = ms) (f : ν → μ)
    (v : Json ν) (h : v.All (Keys p)) : (v.map f).build mk = v.map f := by
  match v with
  | .null | .bool _ | .num _ | .str _ => rfl
  | .arr xs => rw [map, build, buildElems_map hmk f xs h.2]
  | .obj ms =>
    rw [map, build, buildMembers_map hmk f ms h.2]
    refine congrArg Json.obj (hmk _ ?_)
    rw [mapMembers_keys]
    exact h.1

theorem buildElems_map (hmk : ∀ ms : Members μ, p (ms.map Prod.fst) → mk ms = ms) (f : ν → μ)
    (xs : List (Json ν)) (h : AllElems (Keys p) xs) :
    buildElems mk (mapElems f xs) = mapElems f xs := by
  match xs with
  | [] => rfl
  | x :: xs => rw [mapElems, buildElems, build_map hmk f x h.1, buildElems_map hmk f xs h.2]

theorem buildMembers_map (hmk : ∀ ms : Members μ, p (ms.map Prod.fst) → mk ms = ms) (f : ν → μ)
    (ms : Members ν) (h : AllMembers (Keys p) ms) :
    buildMembers mk (mapMembers f ms) = mapMembers f ms := by
  match ms with
  | [] => rfl
  | (k, x) :: ms =>
    rw [mapMembers, buildMembers, build_map hmk f x h.1, buildMembers_map hmk f ms h.2]

end

end Build

mutual

/-- Renaming changes nothing exactly when it changes no number. -/
theorem map_eq_self_iff (f : ν → ν) (v : Json ν) : v.map f = v ↔ v.All (Num fun n => f n = n) := by
  match v with
  | .null | .bool _ | .str _ => simp [map, All, Num]
  | .num n => simp [map, All, Num]
  | .arr xs => simp [map, All, Num, mapElems_eq_self_iff f xs]
  | .obj ms => simp [map, All, Num, mapMembers_eq_self_iff f ms]

theorem mapElems_eq_self_iff (f : ν → ν) (xs : List (Json ν)) :
    mapElems f xs = xs ↔ AllElems (Num fun n => f n = n) xs := by
  match xs with
  | [] => simp [mapElems, AllElems]
  | x :: xs => simp [mapElems, AllElems, map_eq_self_iff f x, mapElems_eq_self_iff f xs]

theorem mapMembers_eq_self_iff (f : ν → ν) (ms : Members ν) :
    mapMembers f ms = ms ↔ AllMembers (Num fun n => f n = n) ms := by
  match ms with
  | [] => simp [mapMembers, AllMembers]
  | (k, x) :: ms =>
    simp [mapMembers, AllMembers, map_eq_self_iff f x, mapMembers_eq_self_iff f ms]

end

mutual

theorem map_id (v : Json ν) : v.map id = v := by
  match v with
  | .null | .bool _ | .num _ | .str _ => rfl
  | .arr xs => rw [map, mapElems_id xs]
  | .obj ms => rw [map, mapMembers_id ms]

theorem mapElems_id (xs : List (Json ν)) : mapElems id xs = xs := by
  match xs with
  | [] => rfl
  | x :: xs => rw [mapElems, map_id x, mapElems_id xs]

theorem mapMembers_id (ms : Members ν) : mapMembers id ms = ms := by
  match ms with
  | [] => rfl
  | (k, x) :: ms => rw [mapMembers, map_id x, mapMembers_id ms]

end

end Json

/-! ## Reading and assigning members -/

namespace Members

variable {ν : Type}

/-- `obj[key]`; `none` is a member that is not there. -/
def get? (ms : Members ν) (key : Str) : Option (Json ν) :=
  match ms with
  | [] => none
  | (k, v) :: rest => if k = key then some v else get? rest key

/-- `obj[key] = v`: in place when the key is there, else at the end. -/
def set (ms : Members ν) (key : Str) (v : Json ν) : Members ν :=
  match ms with
  | [] => [(key, v)]
  | (k, w) :: rest => if k = key then (k, v) :: rest else (k, w) :: set rest key v

@[simp] theorem get?_set_self (ms : Members ν) (key : Str) (v : Json ν) :
    get? (set ms key v) key = some v := by
  induction ms with
  | nil => simp [set, get?]
  | cons m ms ih =>
    simp only [set]
    split
    · rename_i h
      simp [get?, h]
    · rename_i h
      simp [get?, h, ih]

theorem get?_set_ne (ms : Members ν) {key key' : Str} (v : Json ν) (h : key ≠ key') :
    get? (set ms key v) key' = get? ms key' := by
  induction ms with
  | nil => simp [set, get?, h]
  | cons m ms ih =>
    simp only [set]
    split
    · rename_i hk
      simp [get?, hk, h]
    · simp only [get?, ih]

theorem set_of_get?_none {ms : Members ν} {key : Str} (v : Json ν) (h : get? ms key = none) :
    set ms key v = ms ++ [(key, v)] := by
  induction ms with
  | nil => rfl
  | cons m ms ih =>
    simp only [get?] at h
    split at h
    · cases h
    · rename_i hk
      simp [set, hk, ih h]

theorem get?_eq_none {ms : Members ν} {key : Str} (h : key ∉ ms.map Prod.fst) :
    get? ms key = none := by
  induction ms with
  | nil => rfl
  | cons m ms ih =>
    simp only [map_cons, mem_cons, not_or] at h
    simp [get?, Ne.symm h.1, ih h.2]

/-- Assigning a member that is there changes the cost by the values' difference. -/
theorem cost_set (P : Printer ν) {ms : Members ν} {key : Str} {old : Json ν} (v : Json ν)
    (h : get? ms key = some old) :
    ((set ms key v).map P.memberCost).sum + (P.print old).length =
      (ms.map P.memberCost).sum + (P.print v).length := by
  induction ms with
  | nil => cases h
  | cons m ms ih =>
    obtain ⟨k, w⟩ := m
    simp only [get?] at h
    simp only [set]
    split at h
    · rename_i hk
      cases h
      simp only [hk, ↓reduceIte, map_cons, sum_cons, Printer.memberCost]
      omega
    · rename_i hk
      have := ih h
      simp only [hk, ↓reduceIte, map_cons, sum_cons]
      omega

/-- An object is no longer after a member is given a value that is no longer. -/
theorem length_print_set_le (P : Printer ν) {ms : Members ν} {key : Str} {old v : Json ν}
    (h : get? ms key = some old) (hle : (P.print v).length ≤ (P.print old).length) :
    (P.print (.obj (set ms key v))).length ≤ (P.print (.obj ms)).length := by
  have := cost_set P v h
  rw [P.length_print_obj, P.length_print_obj]
  omega

end Members

end OpenBrain.Core
