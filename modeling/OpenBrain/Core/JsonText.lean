import OpenBrain.Core.Json

/-!
# Reading JSON text

Reading is done in two passes. `scan` splits a text into its tokens and builds
a *raw* tree, a `Json Str` whose numbers, strings and keys are the token texts
with their quotes; `decode` then reads every token. `scan_print` says that
scanning what any printer wrote gives back the raw tree of its tokens, so two
texts that are equal have equal tokens (`raw_eq_of_print_eq`), whichever
printers wrote them, and a text read back is the value (`parse_print`).
-/
namespace OpenBrain.Core
open List

namespace JsonText

/-! ## Scanning -/

def isWs (u : UInt16) : Bool := u == 0x20 || u == 0x09 || u == 0x0A || u == 0x0D

def skipWs : Str → Str
  | [] => []
  | u :: s => if isWs u then skipWs s else u :: s

def isDigit (u : UInt16) : Bool := decide (0x30 ≤ u) && decide (u ≤ 0x39)

/-- A unit a number token may start with; `NaN` and `Infinity`, which Python
writes and reads as numbers, count as tokens. -/
def isNumStart (u : UInt16) : Bool :=
  isDigit u || u == unit '-' || u == unit 'N' || u == unit 'I'

def isNumUnit (u : UInt16) : Bool :=
  isNumStart u || (units "+.eEanfity").contains u

/-- The longest run of number units and what follows it. -/
def spanNum : Str → Str × Str
  | [] => ([], [])
  | u :: s => if isNumUnit u then (u :: (spanNum s).1, (spanNum s).2) else ([], u :: s)

/-- A string body up to the closing quote: an escape is taken whole, a control
unit is refused. -/
def scanStr : Str → Option (Str × Str)
  | [] => none
  | [u] => if u = unit '"' then some ([], []) else none
  | u :: v :: s =>
    if u = unit '"' then some ([], v :: s)
    else if u = unit '\\' then (scanStr s).map fun (b, r) => (u :: v :: b, r)
    else if u < 0x20 then none
    else (scanStr (v :: s)).map fun (b, r) => (u :: b, r)

def dropLit (lit s : Str) : Option Str :=
  if lit.isPrefixOf s then some (s.drop lit.length) else none

mutual

/-- A value and the rest; the first argument bounds the nesting. -/
def scanValue : Nat → Str → Option (Json Str × Str)
  | 0, _ => none
  | n + 1, s =>
    match skipWs s with
    | [] => none
    | u :: s =>
      if u = unit '"' then (scanStr s).map fun (b, r) => (.str (u :: b ++ [unit '"']), r)
      else if u = unit '[' then
        match skipWs s with
        | v :: r => if v = unit ']' then some (.arr [], r)
            else (scanElems n (v :: r)).map fun (xs, r) => (.arr xs, r)
        | [] => none
      else if u = unit '{' then
        match skipWs s with
        | v :: r => if v = unit '}' then some (.obj [], r)
            else (scanMembers n (v :: r)).map fun (ms, r) => (.obj ms, r)
        | [] => none
      else if u = unit 'n' then (dropLit (units "null") (u :: s)).map fun r => (.null, r)
      else if u = unit 't' then (dropLit (units "true") (u :: s)).map fun r => (.bool true, r)
      else if u = unit 'f' then (dropLit (units "false") (u :: s)).map fun r => (.bool false, r)
      else if isNumStart u then some (.num (u :: (spanNum s).1), (spanNum s).2)
      else none

/-- The elements after `[`, up to and including `]`. -/
def scanElems : Nat → Str → Option (List (Json Str) × Str)
  | 0, _ => none
  | n + 1, s =>
    match scanValue n s with
    | none => none
    | some (x, r) =>
      match skipWs r with
      | u :: r =>
        if u = unit ',' then (scanElems n r).map fun (xs, r) => (x :: xs, r)
        else if u = unit ']' then some ([x], r)
        else none
      | [] => none

/-- The members after `{`, up to and including `}`. -/
def scanMembers : Nat → Str → Option (Members Str × Str)
  | 0, _ => none
  | n + 1, s =>
    match skipWs s with
    | u :: s =>
      if u = unit '"' then
        match scanStr s with
        | some (b, r) =>
          match skipWs r with
          | v :: r =>
            if v = unit ':' then
              match scanValue n r with
              | none => none
              | some (x, r) =>
                match skipWs r with
                | w :: r =>
                  if w = unit ',' then (scanMembers n r).map fun (ms, r) =>
                    ((u :: b ++ [unit '"'], x) :: ms, r)
                  else if w = unit '}' then some ([(u :: b ++ [unit '"'], x)], r)
                  else none
                | [] => none
            else none
          | [] => none
        | none => none
      else none
    | [] => none

end

/-- The raw tree of a whole text. -/
def scan (s : Str) : Option (Json Str) :=
  match scanValue (s.length + 1) s with
  | some (t, r) => if (skipWs r).isEmpty then some t else none
  | none => none

/-! ## Decoding the tokens -/

mutual

/-- Read every token of a raw tree. -/
def decode {ν : Type} (num : Str → Option ν) (unquote : Str → Option Str) :
    Json Str → Option (Json ν)
  | .null => some .null
  | .bool b => some (.bool b)
  | .num t => (num t).map .num
  | .str t => (unquote t).map .str
  | .arr xs => (decodeElems num unquote xs).map .arr
  | .obj ms => (decodeMembers num unquote ms).map .obj

def decodeElems {ν : Type} (num : Str → Option ν) (unquote : Str → Option Str) :
    List (Json Str) → Option (List (Json ν))
  | [] => some []
  | x :: xs =>
    match decode num unquote x, decodeElems num unquote xs with
    | some y, some ys => some (y :: ys)
    | _, _ => none

def decodeMembers {ν : Type} (num : Str → Option ν) (unquote : Str → Option Str) :
    Members Str → Option (Members ν)
  | [] => some []
  | (k, x) :: ms =>
    match unquote k, decode num unquote x, decodeMembers num unquote ms with
    | some k, some y, some ms => some ((k, y) :: ms)
    | _, _, _ => none

end

/-- Read a whole text. -/
def parse {ν : Type} (num : Str → Option ν) (unquote : Str → Option Str) (s : Str) :
    Option (Json ν) := (scan s).bind (decode num unquote)

/-! ## Tokens -/

/-- A string token: quotes around a body that `scanStr` takes whole. -/
def IsStrTok (t : Str) : Prop :=
  ∃ b, t = unit '"' :: b ++ [unit '"'] ∧ ∀ r, scanStr (b ++ unit '"' :: r) = some (b, r)

/-- A number token: a run of number units that starts like a number. -/
def IsNumTok (t : Str) : Prop :=
  (∃ u s, t = u :: s ∧ isNumStart u = true) ∧ ∀ u ∈ t, isNumUnit u = true

/-- What may follow a value: nothing that would prolong a number. -/
def Follows (r : Str) : Prop := ∀ u s, r = u :: s → isNumUnit u = false

end JsonText

/-- A printer whose leaves are tokens. -/
structure Printer.Lawful {ν : Type} (P : Printer ν) : Prop where
  num : ∀ n, JsonText.IsNumTok (P.num n)
  quote : ∀ s, JsonText.IsStrTok (P.quote s)

mutual

def Printer.raw {ν : Type} (P : Printer ν) : Json ν → Json Str
  | .null => .null
  | .bool b => .bool b
  | .num n => .num (P.num n)
  | .str s => .str (P.quote s)
  | .arr xs => .arr (P.rawElems xs)
  | .obj ms => .obj (P.rawMembers ms)

def Printer.rawElems {ν : Type} (P : Printer ν) : List (Json ν) → List (Json Str)
  | [] => []
  | x :: xs => P.raw x :: P.rawElems xs

def Printer.rawMembers {ν : Type} (P : Printer ν) : Members ν → Members Str
  | [] => []
  | (k, v) :: ms => (P.quote k, P.raw v) :: P.rawMembers ms

end

namespace JsonText

/-! ## Scanning what a printer wrote -/

theorem skipWs_cons {u : UInt16} (h : isWs u = false) (s : Str) : skipWs (u :: s) = u :: s := by
  simp [skipWs, h]

theorem ne_of_isNumStart {u v : UInt16} (h : isNumStart u = true) (hv : isNumStart v = false) :
    u ≠ v := by
  intro huv
  rw [huv, hv] at h
  cases h

theorem isWs_of_isNumStart {u : UInt16} (h : isNumStart u = true) : isWs u = false := by
  rw [Bool.eq_false_iff]
  intro hw
  simp only [isWs, Bool.or_eq_true, beq_iff_eq] at hw
  obtain ((hu | hu) | hu) | hu := hw <;> exact ne_of_isNumStart h (by decide) hu

theorem spanNum_append {t r : Str} (ht : ∀ u ∈ t, isNumUnit u = true) (hr : Follows r) :
    spanNum (t ++ r) = (t, r) := by
  induction t with
  | nil =>
    cases r with
    | nil => rfl
    | cons u r => simp [spanNum, hr u r rfl]
  | cons u t ih =>
    have hu := ht u (by simp)
    simp [spanNum, hu, ih fun v hv => ht v (by simp [hv])]

theorem dropLit_append (lit r : Str) : dropLit lit (lit ++ r) = some r := by
  simp [dropLit]

theorem follows_cons {u : UInt16} (h : isNumUnit u = false) (r : Str) : Follows (u :: r) := by
  intro v s hvs
  rw [← (List.cons.inj hvs).1]; exact h

section Print

variable {ν : Type} {P : Printer ν}

/-- A value's text starts with a unit that is neither white space nor a closing
bracket. -/
theorem print_head (hP : P.Lawful) (v : Json ν) :
    ∃ u s, P.print v = u :: s ∧ isWs u = false ∧ u ≠ unit ']' ∧ u ≠ unit '}' := by
  cases v with
  | null => exact ⟨unit 'n', units "ull", rfl, by decide, by decide, by decide⟩
  | bool b =>
    cases b with
    | true => exact ⟨unit 't', units "rue", rfl, by decide, by decide, by decide⟩
    | false => exact ⟨unit 'f', units "alse", rfl, by decide, by decide, by decide⟩
  | num n =>
    obtain ⟨⟨u, s, ht, hu⟩, -⟩ := hP.num n
    exact ⟨u, s, by simp [Printer.print, ht], isWs_of_isNumStart hu,
      ne_of_isNumStart hu (by decide), ne_of_isNumStart hu (by decide)⟩
  | str t =>
    obtain ⟨b, hb, -⟩ := hP.quote t
    exact ⟨unit '"', b ++ [unit '"'], by simp [Printer.print, hb], by decide, by decide, by decide⟩
  | arr xs => exact ⟨unit '[', _, rfl, by decide, by decide, by decide⟩
  | obj ms => exact ⟨unit '{', _, rfl, by decide, by decide, by decide⟩

theorem scanValue_num (hP : P.Lawful) (n : ν) (k : Nat) {r : Str} (hr : Follows r) :
    scanValue (k + 1) (P.num n ++ r) = some (.num (P.num n), r) := by
  obtain ⟨⟨u, s, ht, hu⟩, hall⟩ := hP.num n
  rw [ht] at hall ⊢
  have hs : spanNum (s ++ r) = (s, r) := spanNum_append (fun v hv => hall v (by simp [hv])) hr
  unfold scanValue
  rw [cons_append, skipWs_cons (isWs_of_isNumStart hu)]
  simp only [ne_of_isNumStart hu (show isNumStart (unit '"') = false by decide),
    ne_of_isNumStart hu (show isNumStart (unit '[') = false by decide),
    ne_of_isNumStart hu (show isNumStart (unit '{') = false by decide),
    ne_of_isNumStart hu (show isNumStart (unit 'n') = false by decide),
    ne_of_isNumStart hu (show isNumStart (unit 't') = false by decide),
    ne_of_isNumStart hu (show isNumStart (unit 'f') = false by decide), ↓reduceIte, hu, hs]

theorem scanValue_str (hP : P.Lawful) (t : Str) (k : Nat) (r : Str) :
    scanValue (k + 1) (P.quote t ++ r) = some (.str (P.quote t), r) := by
  obtain ⟨b, hb, hscan⟩ := hP.quote t
  unfold scanValue
  rw [hb, append_assoc, cons_append, singleton_append, skipWs_cons (by decide)]
  simp only [↓reduceIte, hscan, Option.map_some]

theorem scanValue_lit (k : Nat) (r : Str) :
    scanValue (k + 1) (units "null" ++ r) = some (.null, r) ∧
    scanValue (k + 1) (units "true" ++ r) = some (.bool true, r) ∧
    scanValue (k + 1) (units "false" ++ r) = some (.bool false, r) := by
  have hn : unit 'n' :: (units "ull" ++ r) = units "null" ++ r := rfl
  have ht : unit 't' :: (units "rue" ++ r) = units "true" ++ r := rfl
  have hf : unit 'f' :: (units "alse" ++ r) = units "false" ++ r := rfl
  refine ⟨?_, ?_, ?_⟩
  · unfold scanValue
    rw [← hn, skipWs_cons (by decide)]
    simp only [show unit 'n' ≠ unit '"' by decide, show unit 'n' ≠ unit '[' by decide,
      show unit 'n' ≠ unit '{' by decide, ↓reduceIte]
    rw [hn, dropLit_append, Option.map_some]
  · unfold scanValue
    rw [← ht, skipWs_cons (by decide)]
    simp only [show unit 't' ≠ unit '"' by decide, show unit 't' ≠ unit '[' by decide,
      show unit 't' ≠ unit '{' by decide, show unit 't' ≠ unit 'n' by decide, ↓reduceIte]
    rw [ht, dropLit_append, Option.map_some]
  · unfold scanValue
    rw [← hf, skipWs_cons (by decide)]
    simp only [show unit 'f' ≠ unit '"' by decide, show unit 'f' ≠ unit '[' by decide,
      show unit 'f' ≠ unit '{' by decide, show unit 'f' ≠ unit 'n' by decide,
      show unit 'f' ≠ unit 't' by decide, ↓reduceIte]
    rw [hf, dropLit_append, Option.map_some]

/-- An opening bracket before something that is neither white space nor `]`. -/
theorem scanValue_open_arr {k : Nat} {u : UInt16} {s : Str} (hw : isWs u = false)
    (hu : u ≠ unit ']') :
    scanValue (k + 1) (unit '[' :: u :: s) =
      (scanElems k (u :: s)).map fun (xs, r) => (.arr xs, r) := by
  unfold scanValue
  rw [skipWs_cons (by decide)]
  simp only [show unit '[' ≠ unit '"' by decide, ↓reduceIte, skipWs_cons hw, hu]

theorem scanValue_open_obj {k : Nat} {u : UInt16} {s : Str} (hw : isWs u = false)
    (hu : u ≠ unit '}') :
    scanValue (k + 1) (unit '{' :: u :: s) =
      (scanMembers k (u :: s)).map fun (ms, r) => (.obj ms, r) := by
  unfold scanValue
  rw [skipWs_cons (by decide)]
  simp only [show unit '{' ≠ unit '"' by decide, show unit '{' ≠ unit '[' by decide,
    ↓reduceIte, skipWs_cons hw, hu]

mutual

theorem scanValue_print (hP : P.Lawful) (v : Json ν) (k : Nat) (r : Str) (hr : Follows r)
    (hk : (P.print v).length < k) : scanValue k (P.print v ++ r) = some (P.raw v, r) := by
  match k, v with
  | 0, _ => omega
  | k + 1, .null => exact (scanValue_lit k r).1
  | k + 1, .bool true => exact (scanValue_lit k r).2.1
  | k + 1, .bool false => exact (scanValue_lit k r).2.2
  | k + 1, .num n => exact scanValue_num hP n k hr
  | k + 1, .str t => exact scanValue_str hP t k r
  | k + 1, .arr [] => rfl
  | k + 1, .arr (x :: xs) =>
    have ih := scanElems_print hP x xs k r (by
      simp only [Printer.print, length_cons, length_append, length_nil] at hk ⊢
      omega)
    obtain ⟨u, s, hx, hw, hu, -⟩ := print_head hP x
    have hhead : ∃ s', joinSep [unit ','] (P.printElems (x :: xs)) ++ unit ']' :: r = u :: s' := by
      cases xs <;> simp [Printer.printElems, joinSep, hx]
    obtain ⟨s', hs'⟩ := hhead
    have htext : P.print (.arr (x :: xs)) ++ r = unit '[' :: u :: s' := by
      rw [← hs']; simp [Printer.print]
    rw [htext, scanValue_open_arr hw hu, ← hs', ih]
    rfl
  | k + 1, .obj [] => rfl
  | k + 1, .obj ((key, x) :: ms) =>
    have ih := scanMembers_print hP key x ms k r (by
      simp only [Printer.print, length_cons, length_append, length_nil] at hk ⊢
      omega)
    obtain ⟨b, hb, -⟩ := hP.quote key
    have hhead : ∃ s', joinSep [unit ','] (P.printMembers ((key, x) :: ms)) ++ unit '}' :: r =
        unit '"' :: s' := by
      cases ms <;> simp [Printer.printMembers, joinSep, hb]
    obtain ⟨s', hs'⟩ := hhead
    have htext : P.print (.obj ((key, x) :: ms)) ++ r = unit '{' :: unit '"' :: s' := by
      rw [← hs']; simp [Printer.print]
    rw [htext, scanValue_open_obj (by decide) (by decide), ← hs', ih]
    rfl

theorem scanElems_print (hP : P.Lawful) (x : Json ν) (xs : List (Json ν)) (k : Nat) (r : Str)
    (hk : (joinSep [unit ','] (P.printElems (x :: xs))).length + 1 < k) :
    scanElems k (joinSep [unit ','] (P.printElems (x :: xs)) ++ unit ']' :: r) =
      some (P.rawElems (x :: xs), r) := by
  match k, xs with
  | 0, _ => omega
  | k + 1, [] =>
    have ihx := scanValue_print hP x k (unit ']' :: r) (follows_cons (by decide) r) (by
      simp only [Printer.printElems, joinSep] at hk; omega)
    simp only [Printer.printElems, joinSep]
    unfold scanElems
    simp only [ihx, skipWs_cons (show isWs (unit ']') = false by decide),
      show unit ']' ≠ unit ',' by decide, ↓reduceIte]
    rfl
  | k + 1, y :: ys =>
    have hlen : (P.print x).length + ((joinSep [unit ','] (P.printElems (y :: ys))).length + 1) =
        (joinSep [unit ','] (P.printElems (x :: y :: ys))).length := by
      simp [Printer.printElems, joinSep]
    have ihx := scanValue_print hP x k
      (unit ',' :: (joinSep [unit ','] (P.printElems (y :: ys)) ++ unit ']' :: r))
      (follows_cons (by decide) _) (by omega)
    have ihs := scanElems_print hP y ys k r (by omega)
    have htext : joinSep [unit ','] (P.printElems (x :: y :: ys)) ++ unit ']' :: r =
        P.print x ++ unit ',' :: (joinSep [unit ','] (P.printElems (y :: ys)) ++ unit ']' :: r) := by
      simp [Printer.printElems, joinSep]
    rw [htext]
    unfold scanElems
    simp only [ihx, skipWs_cons (show isWs (unit ',') = false by decide), ↓reduceIte, ihs,
      Option.map_some]
    rfl

theorem scanMembers_print (hP : P.Lawful) (key : Str) (x : Json ν) (ms : Members ν) (k : Nat)
    (r : Str)
    (hk : (joinSep [unit ','] (P.printMembers ((key, x) :: ms))).length + 1 < k) :
    scanMembers k (joinSep [unit ','] (P.printMembers ((key, x) :: ms)) ++ unit '}' :: r) =
      some (P.rawMembers ((key, x) :: ms), r) := by
  obtain ⟨b, hb, hscan⟩ := hP.quote key
  have hq : unit '"' :: (b ++ [unit '"']) = P.quote key := by rw [hb]; rfl
  match k, ms with
  | 0, _ => omega
  | k + 1, [] =>
    have ihx := scanValue_print hP x k (unit '}' :: r) (follows_cons (by decide) r) (by
      simp only [Printer.printMembers, joinSep, length_append, length_cons] at hk; omega)
    have htext : joinSep [unit ','] (P.printMembers [(key, x)]) ++ unit '}' :: r =
        unit '"' :: (b ++ unit '"' :: unit ':' :: (P.print x ++ unit '}' :: r)) := by
      simp [Printer.printMembers, joinSep, hb]
    rw [htext]
    unfold scanMembers
    simp only [skipWs_cons (show isWs (unit '"') = false by decide), ↓reduceIte, hscan,
      skipWs_cons (show isWs (unit ':') = false by decide), ihx,
      skipWs_cons (show isWs (unit '}') = false by decide), show unit '}' ≠ unit ',' by decide]
    rw [cons_append, hq]
    rfl
  | k + 1, (key', y) :: ms =>
    have hlen : (P.quote key).length + 1 + (P.print x).length +
        ((joinSep [unit ','] (P.printMembers ((key', y) :: ms))).length + 1) =
        (joinSep [unit ','] (P.printMembers ((key, x) :: (key', y) :: ms))).length := by
      simp [Printer.printMembers, joinSep]; omega
    have ihx := scanValue_print hP x k
      (unit ',' :: (joinSep [unit ','] (P.printMembers ((key', y) :: ms)) ++ unit '}' :: r))
      (follows_cons (by decide) _) (by omega)
    have ihs := scanMembers_print hP key' y ms k r (by omega)
    have htext : joinSep [unit ','] (P.printMembers ((key, x) :: (key', y) :: ms)) ++
        unit '}' :: r = unit '"' :: (b ++ unit '"' :: unit ':' :: (P.print x ++ unit ',' ::
          (joinSep [unit ','] (P.printMembers ((key', y) :: ms)) ++ unit '}' :: r))) := by
      simp [Printer.printMembers, joinSep, hb]
    rw [htext]
    unfold scanMembers
    simp only [skipWs_cons (show isWs (unit '"') = false by decide), ↓reduceIte, hscan,
      skipWs_cons (show isWs (unit ':') = false by decide), ihx,
      skipWs_cons (show isWs (unit ',') = false by decide), ihs, Option.map_some]
    rw [cons_append, hq]
    rfl

end

/-- Scanning a printed value gives back the tree of its tokens. -/
theorem scan_print (hP : P.Lawful) (v : Json ν) : scan (P.print v) = some (P.raw v) := by
  have h := scanValue_print hP v ((P.print v).length + 1) [] (fun u s hn => by cases hn)
    (Nat.lt_succ_self _)
  rw [append_nil] at h
  unfold scan
  simp [h, skipWs]

/-- Equal texts have equal tokens, whichever printers wrote them. -/
theorem raw_eq_of_print_eq {μ : Type} {Q : Printer μ} (hP : P.Lawful) (hQ : Q.Lawful)
    {v : Json ν} {w : Json μ} (h : P.print v = Q.print w) : P.raw v = Q.raw w := by
  have h1 := scan_print hP v
  rw [h, scan_print hQ w] at h1
  exact (Option.some.inj h1).symm

end Print

/-! ## Printing the tokens -/

section Tokens

variable {ν : Type} (P : Printer ν)

mutual

/-- The text depends on the tokens only. -/
theorem print_raw (v : Json ν) : (Printer.mk id id).print (P.raw v) = P.print v := by
  match v with
  | .null | .bool true | .bool false | .num _ | .str _ => rfl
  | .arr xs => simp only [Printer.raw, Printer.print, print_rawElems xs]
  | .obj ms => simp only [Printer.raw, Printer.print, print_rawMembers ms]

theorem print_rawElems (xs : List (Json ν)) :
    (Printer.mk id id).printElems (P.rawElems xs) = P.printElems xs := by
  match xs with
  | [] => rfl
  | x :: xs => simp only [Printer.rawElems, Printer.printElems, print_raw x, print_rawElems xs]

theorem print_rawMembers (ms : Members ν) :
    (Printer.mk id id).printMembers (P.rawMembers ms) = P.printMembers ms := by
  match ms with
  | [] => rfl
  | (k, v) :: ms =>
    simp only [Printer.rawMembers, Printer.printMembers, print_raw v, print_rawMembers ms, id_eq]

end

end Tokens

/-! ## Decoding what a printer wrote -/

/-- The readers of tokens undo the printer, numbers up to `f`. -/
structure ReadBack {ν : Type} (P : Printer ν) (num : Str → Option ν)
    (unquote : Str → Option Str) (f : ν → ν) : Prop where
  num : ∀ n, num (P.num n) = some (f n)
  quote : ∀ s, unquote (P.quote s) = some s

variable {ν : Type} {P : Printer ν} {num : Str → Option ν} {unquote : Str → Option Str} {f : ν → ν}

mutual

theorem decode_raw (h : ReadBack P num unquote f) (v : Json ν) :
    decode num unquote (P.raw v) = some (v.map f) := by
  match v with
  | .null => rfl
  | .bool b => rfl
  | .num n => simp [Printer.raw, decode, Json.map, h.num]
  | .str s => simp [Printer.raw, decode, Json.map, h.quote]
  | .arr xs => simp [Printer.raw, decode, Json.map, decodeElems_raw h xs]
  | .obj ms => simp [Printer.raw, decode, Json.map, decodeMembers_raw h ms]

theorem decodeElems_raw (h : ReadBack P num unquote f) (xs : List (Json ν)) :
    decodeElems num unquote (P.rawElems xs) = some (Json.mapElems f xs) := by
  match xs with
  | [] => rfl
  | x :: xs =>
    simp [Printer.rawElems, decodeElems, Json.mapElems, decode_raw h x, decodeElems_raw h xs]

theorem decodeMembers_raw (h : ReadBack P num unquote f) (ms : Members ν) :
    decodeMembers num unquote (P.rawMembers ms) = some (Json.mapMembers f ms) := by
  match ms with
  | [] => rfl
  | (k, v) :: ms =>
    simp [Printer.rawMembers, decodeMembers, Json.mapMembers, h.quote, decode_raw h v,
      decodeMembers_raw h ms]

end

/-- A printed value reads back as itself, numbers up to `f`. -/
theorem parse_print (hP : P.Lawful) (h : ReadBack P num unquote f) (v : Json ν) :
    parse num unquote (P.print v) = some (v.map f) := by
  rw [parse, scan_print hP]
  exact decode_raw h v

end JsonText

end OpenBrain.Core
