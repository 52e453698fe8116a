import OpenBrain.Core.Quote

/-!
# JSON text inside other text

A printed value may stand between white space and reads the same (`scan_framed`). In front of
an object nothing else may stand: a text that goes over into a printed object is JSON only where
it is white space (`white_of_scan`), since the object's bracket and its first quote break every
string, literal, number and list that is still open. Every unit a printer writes comes from a
token or is one of JSON's own (`print_all`).
-/
namespace OpenBrain.Core
open List

namespace JsonText

/-! ## White space around a value -/

theorem skipWs_white {pre : Str} (h : ∀ u ∈ pre, isWs u = true) (s : Str) :
    skipWs (pre ++ s) = skipWs s := by
  induction pre with
  | nil => rfl
  | cons u pre ih =>
    rw [cons_append, skipWs, if_pos (h u mem_cons_self)]
    exact ih fun v hv => h v (mem_cons_of_mem _ hv)

theorem scanValue_white {pre : Str} (h : ∀ u ∈ pre, isWs u = true) (n : Nat) (s : Str) :
    scanValue n (pre ++ s) = scanValue n s := by
  cases n with
  | zero => rw [scanValue, scanValue]
  | succ n => rw [scanValue, scanValue, skipWs_white h]

theorem follows_white {post : Str} (h : ∀ u ∈ post, isWs u = true) : Follows post := by
  intro u s hs
  have hu := h u (hs ▸ mem_cons_self)
  simp only [isWs, Bool.or_eq_true, beq_iff_eq] at hu
  obtain ((rfl | rfl) | rfl) | rfl := hu <;> decide

section Framed
variable {ν : Type} {P : Printer ν} {pre post : Str}

/-- A printed value between white space scans as the value. -/
theorem scan_framed (hP : P.Lawful) (v : Json ν) (hpre : ∀ u ∈ pre, isWs u = true)
    (hpost : ∀ u ∈ post, isWs u = true) : scan (pre ++ (P.print v ++ post)) = some (P.raw v) := by
  have hlen : (P.print v).length < (pre ++ (P.print v ++ post)).length + 1 := by
    rw [length_append, length_append]
    omega
  have hws : skipWs post = [] := by
    have := skipWs_white hpost []
    rwa [append_nil] at this
  unfold scan
  rw [scanValue_white hpre, scanValue_print hP v _ post (follows_white hpost) hlen]
  simp only [hws, isEmpty_nil, ↓reduceIte]

end Framed

/-! ## More fuel -/

theorem scan_more (n : Nat) :
    (∀ s x, scanValue n s = some x → scanValue (n + 1) s = some x) ∧
      (∀ s x, scanElems n s = some x → scanElems (n + 1) s = some x) ∧
      ∀ s x, scanMembers n s = some x → scanMembers (n + 1) s = some x := by
  induction n with
  | zero =>
    refine ⟨fun s x h => ?_, fun s x h => ?_, fun s x h => ?_⟩
    · rw [scanValue] at h; cases h
    · rw [scanElems] at h; cases h
    · rw [scanMembers] at h; cases h
  | succ n ih =>
    obtain ⟨ihValue, ihElems, ihMembers⟩ := ih
    refine ⟨fun s x h => ?_, fun s x h => ?_, fun s x h => ?_⟩
    · rw [scanValue] at h ⊢
      cases hs : skipWs s with
      | nil => rw [hs] at h; cases h
      | cons u t =>
        rw [hs] at h
        dsimp only at h ⊢
        by_cases hquote : u = unit '"'
        · rw [if_pos hquote] at h ⊢
          exact h
        rw [if_neg hquote] at h ⊢
        by_cases harr : u = unit '['
        · rw [if_pos harr] at h ⊢
          cases ht : skipWs t with
          | nil => rw [ht] at h; cases h
          | cons v r =>
            rw [ht] at h
            dsimp only at h ⊢
            split
            · rename_i hv
              rw [if_pos hv] at h
              exact h
            · rename_i hv
              rw [if_neg hv] at h
              obtain ⟨p, hp, rfl⟩ := Option.map_eq_some_iff.mp h
              rw [ihElems _ _ hp]
              rfl
        rw [if_neg harr] at h ⊢
        by_cases hobj : u = unit '{'
        · rw [if_pos hobj] at h ⊢
          cases ht : skipWs t with
          | nil => rw [ht] at h; cases h
          | cons v r =>
            rw [ht] at h
            dsimp only at h ⊢
            split
            · rename_i hv
              rw [if_pos hv] at h
              exact h
            · rename_i hv
              rw [if_neg hv] at h
              obtain ⟨p, hp, rfl⟩ := Option.map_eq_some_iff.mp h
              rw [ihMembers _ _ hp]
              rfl
        rw [if_neg hobj] at h ⊢
        exact h
    · rw [scanElems] at h ⊢
      cases hx : scanValue n s with
      | none => rw [hx] at h; cases h
      | some p =>
        rw [hx] at h
        rw [ihValue _ _ hx]
        dsimp only at h ⊢
        cases hr : skipWs p.2 with
        | nil => rw [hr] at h; cases h
        | cons u r =>
          rw [hr] at h
          dsimp only at h ⊢
          split
          · rename_i hu
            rw [if_pos hu] at h
            obtain ⟨q, hq, rfl⟩ := Option.map_eq_some_iff.mp h
            rw [ihElems _ _ hq]
            rfl
          · rename_i hu
            rw [if_neg hu] at h
            exact h
    · rw [scanMembers] at h ⊢
      cases hs : skipWs s with
      | nil => rw [hs] at h; cases h
      | cons u t =>
        rw [hs] at h
        dsimp only at h ⊢
        by_cases hquote : u = unit '"'
        · rw [if_pos hquote] at h ⊢
          cases hk : scanStr t with
          | none => rw [hk] at h; cases h
          | some k =>
            rw [hk] at h
            dsimp only at h ⊢
            cases hr : skipWs k.2 with
            | nil => rw [hr] at h; cases h
            | cons v r =>
              rw [hr] at h
              dsimp only at h ⊢
              by_cases hcolon : v = unit ':'
              · rw [if_pos hcolon] at h ⊢
                cases hx : scanValue n r with
                | none => rw [hx] at h; cases h
                | some p =>
                  rw [hx] at h
                  rw [ihValue _ _ hx]
                  dsimp only at h ⊢
                  cases hw : skipWs p.2 with
                  | nil => rw [hw] at h; cases h
                  | cons w r =>
                    rw [hw] at h
                    dsimp only at h ⊢
                    split
                    · rename_i hcomma
                      rw [if_pos hcomma] at h
                      obtain ⟨q, hq, rfl⟩ := Option.map_eq_some_iff.mp h
                      rw [ihMembers _ _ hq]
                      rfl
                    · rename_i hcomma
                      rw [if_neg hcomma] at h
                      exact h
              · rw [if_neg hcolon] at h
                cases h
        · rw [if_neg hquote] at h
          cases h

theorem scanValue_mono {n m : Nat} (h : n ≤ m) {s : Str} {x : Json Str × Str}
    (hx : scanValue n s = some x) : scanValue m s = some x := by
  induction h with
  | refl => exact hx
  | step _ ih => exact (scan_more _).1 s x ih

/-! ## Text that goes over into an object -/

section Torn
variable {s : Str}

/-- The rest of a text whose scan stopped before the object. -/
def Before (s r : Str) : Prop := ∃ t, r = t ++ unit '{' :: unit '"' :: s

theorem skipWs_torn (t : Str) :
    ((∀ u ∈ t, isWs u = true) ∧
        skipWs (t ++ unit '{' :: unit '"' :: s) = unit '{' :: unit '"' :: s) ∨
      ∃ u t', skipWs (t ++ unit '{' :: unit '"' :: s) = u :: (t' ++ unit '{' :: unit '"' :: s) := by
  induction t with
  | nil => exact .inl ⟨fun u hu => (nomatch hu), skipWs_cons (by decide) _⟩
  | cons u t ih =>
    rw [cons_append, skipWs]
    cases hu : isWs u with
    | false => exact .inr ⟨u, t, rfl⟩
    | true =>
      rcases ih with ⟨hall, heq⟩ | h
      · refine .inl ⟨fun v hv => ?_, heq⟩
        rcases mem_cons.mp hv with rfl | hv
        · exact hu
        · exact hall v hv
      · exact .inr h

/-- An open string ends before the object or at its first quote. -/
theorem scanStr_torn : ∀ (t : Str) {b r : Str},
    scanStr (t ++ unit '{' :: unit '"' :: s) = some (b, r) → Before s r ∨ r = s
  | [], b, r, h => by
    rw [nil_append, scanStr_cons (by decide) (by decide) (by decide)] at h
    obtain ⟨⟨b', r'⟩, hr, heq⟩ := Option.map_eq_some_iff.mp h
    obtain ⟨-, rfl⟩ := Prod.mk.inj heq
    have hclose : scanStr (unit '"' :: s) = some ([], s) := by
      cases s with
      | nil => rfl
      | cons v s => rw [scanStr, if_pos rfl]
    rw [hclose] at hr
    cases hr
    exact .inr rfl
  | [u], b, r, h => by
    rw [singleton_append, scanStr] at h
    split at h
    · cases h
      exact .inl ⟨[], rfl⟩
    split at h
    · obtain ⟨⟨b', r'⟩, hr, heq⟩ := Option.map_eq_some_iff.mp h
      obtain ⟨-, rfl⟩ := Prod.mk.inj heq
      have hclose : scanStr (unit '"' :: s) = some ([], s) := by
        cases s with
        | nil => rfl
        | cons v s => rw [scanStr, if_pos rfl]
      rw [hclose] at hr
      cases hr
      exact .inr rfl
    split at h
    · cases h
    · obtain ⟨⟨b', r'⟩, hr, heq⟩ := Option.map_eq_some_iff.mp h
      obtain ⟨-, rfl⟩ := Prod.mk.inj heq
      exact scanStr_torn [] hr
  | u :: v :: t, b, r, h => by
    rw [cons_append, cons_append, scanStr] at h
    split at h
    · cases h
      exact .inl ⟨v :: t, rfl⟩
    split at h
    · obtain ⟨⟨b', r'⟩, hr, heq⟩ := Option.map_eq_some_iff.mp h
      obtain ⟨-, rfl⟩ := Prod.mk.inj heq
      exact scanStr_torn t hr
    split at h
    · cases h
    · obtain ⟨⟨b', r'⟩, hr, heq⟩ := Option.map_eq_some_iff.mp h
      obtain ⟨-, rfl⟩ := Prod.mk.inj heq
      exact scanStr_torn (v :: t) hr

theorem dropLit_torn {lit t r : Str} (hlit : unit '{' ∉ lit)
    (h : dropLit lit (t ++ unit '{' :: unit '"' :: s) = some r) : Before s r := by
  unfold dropLit at h
  split at h
  · rename_i hp
    cases h
    obtain ⟨rest, hrest⟩ := List.isPrefixOf_iff_prefix.mp hp
    rw [← hrest, drop_left]
    rcases append_eq_append_iff.mp hrest with ⟨a, ht, hr⟩ | ⟨a, hl, hr⟩
    · exact ⟨a, hr⟩
    · cases a with
      | nil => exact ⟨[], hr.symm⟩
      | cons u a =>
        obtain ⟨rfl, -⟩ := List.cons.inj hr
        exact absurd (hl ▸ mem_append_right t mem_cons_self) hlit
  · cases h

theorem spanNum_torn (t : Str) : Before s (spanNum (t ++ unit '{' :: unit '"' :: s)).2 := by
  induction t with
  | nil => exact ⟨[], rfl⟩
  | cons u t ih =>
    rw [cons_append, spanNum]
    split
    · exact ih
    · exact ⟨u :: t, rfl⟩

variable (s) in
/-- The unit behind the object's first quote lets no text go on that was open before it, and the
object is followed by white space alone. -/
structure Breaks : Prop where
  goes_on : ∀ u r, s = u :: r → isWs u = false ∧ u ≠ unit ',' ∧ u ≠ unit ':' ∧ u ≠ unit ']' ∧
    u ≠ unit '}'
  nonempty : s ≠ []
  whole : ∀ n v r, scanValue n (unit '{' :: unit '"' :: s) = some (v, r) → skipWs r = []

theorem Breaks.head (h : Breaks s) : ∃ u r, s = u :: r ∧ skipWs s = u :: r ∧ u ≠ unit ',' ∧
    u ≠ unit ':' ∧ u ≠ unit ']' ∧ u ≠ unit '}' := by
  obtain ⟨u, r, rfl⟩ := exists_cons_of_ne_nil h.nonempty
  obtain ⟨hw, h₁, h₂, h₃, h₄⟩ := h.goes_on u r rfl
  exact ⟨u, r, rfl, skipWs_cons hw r, h₁, h₂, h₃, h₄⟩

/-- Text that goes over into an object: lists and members still open are closed before it, and a
value too, unless it is a string that swallowed the bracket or the object itself. -/
theorem scan_torn (hs : Breaks s) (n : Nat) :
    (∀ t v r, scanValue n (t ++ unit '{' :: unit '"' :: s) = some (v, r) →
      Before s r ∨ r = s ∨ (∀ u ∈ t, isWs u = true) ∧ skipWs r = []) ∧
      (∀ t xs r, scanElems n (t ++ unit '{' :: unit '"' :: s) = some (xs, r) → Before s r) ∧
      ∀ t ms r, scanMembers n (t ++ unit '{' :: unit '"' :: s) = some (ms, r) → Before s r := by
  obtain ⟨c, rest, rfl, hc, hcomma, hcolon, hsquare, hcurly⟩ := hs.head
  induction n with
  | zero =>
    refine ⟨fun t v r h => ?_, fun t xs r h => ?_, fun t ms r h => ?_⟩
    · rw [scanValue] at h; cases h
    · rw [scanElems] at h; cases h
    · rw [scanMembers] at h; cases h
  | succ n ih =>
    obtain ⟨ihValue, ihElems, ihMembers⟩ := ih
    refine ⟨fun t v r h => ?_, fun t xs r h => ?_, fun t ms r h => ?_⟩
    · rcases skipWs_torn (s := c :: rest) t with ⟨hwhite, -⟩ | ⟨u, t', ht⟩
      · rw [scanValue_white hwhite] at h
        exact .inr (.inr ⟨hwhite, hs.whole _ _ _ h⟩)
      rw [scanValue, ht] at h
      dsimp only at h
      split at h
      · obtain ⟨⟨b, r'⟩, hr, heq⟩ := Option.map_eq_some_iff.mp h
        obtain ⟨-, rfl⟩ := Prod.mk.inj heq
        rcases scanStr_torn t' hr with hbefore | hcross
        · exact .inl hbefore
        · exact .inr (.inl hcross)
      split at h
      · left
        rcases skipWs_torn (s := c :: rest) t' with ⟨-, ht'⟩ | ⟨v', t'', ht'⟩
        · rw [ht'] at h
          dsimp only at h
          rw [if_neg (by decide)] at h
          obtain ⟨⟨xs, r'⟩, hr, heq⟩ := Option.map_eq_some_iff.mp h
          obtain ⟨-, rfl⟩ := Prod.mk.inj heq
          exact ihElems [] _ _ hr
        · rw [ht'] at h
          dsimp only at h
          split at h
          · cases h
            exact ⟨t'', rfl⟩
          · obtain ⟨⟨xs, r'⟩, hr, heq⟩ := Option.map_eq_some_iff.mp h
            obtain ⟨-, rfl⟩ := Prod.mk.inj heq
            exact ihElems (v' :: t'') _ _ hr
      split at h
      · left
        rcases skipWs_torn (s := c :: rest) t' with ⟨-, ht'⟩ | ⟨v', t'', ht'⟩
        · rw [ht'] at h
          dsimp only at h
          rw [if_neg (by decide)] at h
          obtain ⟨⟨xs, r'⟩, hr, heq⟩ := Option.map_eq_some_iff.mp h
          obtain ⟨-, rfl⟩ := Prod.mk.inj heq
          exact ihMembers [] _ _ hr
        · rw [ht'] at h
          dsimp only at h
          split at h
          · cases h
            exact ⟨t'', rfl⟩
          · obtain ⟨⟨xs, r'⟩, hr, heq⟩ := Option.map_eq_some_iff.mp h
            obtain ⟨-, rfl⟩ := Prod.mk.inj heq
            exact ihMembers (v' :: t'') _ _ hr
      have hlit : ∀ (lit : Str) (x : Json Str), unit '{' ∉ lit →
          (dropLit lit (u :: (t' ++ unit '{' :: unit '"' :: c :: rest))).map (fun r => (x, r)) =
            some (v, r) → Before (c :: rest) r := by
        intro lit x hmem h
        obtain ⟨r', hr, heq⟩ := Option.map_eq_some_iff.mp h
        obtain ⟨-, rfl⟩ := Prod.mk.inj heq
        exact dropLit_torn (t := u :: t') hmem hr
      left
      split at h
      · exact hlit _ _ (by decide) h
      split at h
      · exact hlit _ _ (by decide) h
      split at h
      · exact hlit _ _ (by decide) h
      split at h
      · cases h
        exact spanNum_torn t'
      · cases h
    · rw [scanElems] at h
      split at h
      · cases h
      rename_i x r₁ hx
      rcases ihValue _ _ _ hx with ⟨t₁, rfl⟩ | rfl | ⟨-, hnil⟩
      · rcases skipWs_torn (s := c :: rest) t₁ with ⟨-, ht⟩ | ⟨u, t₂, ht⟩
        · rw [ht] at h
          dsimp only at h
          rw [if_neg (by decide), if_neg (by decide)] at h
          cases h
        · rw [ht] at h
          dsimp only at h
          split at h
          · obtain ⟨⟨ys, r'⟩, hr, heq⟩ := Option.map_eq_some_iff.mp h
            obtain ⟨-, rfl⟩ := Prod.mk.inj heq
            exact ihElems t₂ _ _ hr
          split at h
          · cases h
            exact ⟨t₂, rfl⟩
          · cases h
      · rw [hc] at h
        dsimp only at h
        rw [if_neg hcomma, if_neg hsquare] at h
        cases h
      · rw [hnil] at h
        cases h
    · rw [scanMembers] at h
      rcases skipWs_torn (s := c :: rest) t with ⟨-, ht⟩ | ⟨u, t', ht⟩
      · rw [ht] at h
        dsimp only at h
        rw [if_neg (by decide)] at h
        cases h
      rw [ht] at h
      dsimp only at h
      split at h
      · split at h
        · rename_i b r₀ hkey
          rcases scanStr_torn t' hkey with ⟨t₀, rfl⟩ | rfl
          · rcases skipWs_torn (s := c :: rest) t₀ with ⟨-, ht₀⟩ | ⟨v, t₁, ht₀⟩
            · rw [ht₀] at h
              dsimp only at h
              rw [if_neg (by decide)] at h
              cases h
            rw [ht₀] at h
            dsimp only at h
            split at h
            · split at h
              · cases h
              rename_i x r₁ hx
              rcases ihValue _ _ _ hx with ⟨t₂, rfl⟩ | rfl | ⟨-, hnil⟩
              · rcases skipWs_torn (s := c :: rest) t₂ with ⟨-, ht₂⟩ | ⟨w, t₃, ht₂⟩
                · rw [ht₂] at h
                  dsimp only at h
                  rw [if_neg (by decide), if_neg (by decide)] at h
                  cases h
                · rw [ht₂] at h
                  dsimp only at h
                  split at h
                  · obtain ⟨⟨ys, r'⟩, hr, heq⟩ := Option.map_eq_some_iff.mp h
                    obtain ⟨-, rfl⟩ := Prod.mk.inj heq
                    exact ihMembers t₃ _ _ hr
                  split at h
                  · cases h
                    exact ⟨t₃, rfl⟩
                  · cases h
              · rw [hc] at h
                dsimp only at h
                rw [if_neg hcomma, if_neg hcurly] at h
                cases h
              · rw [hnil] at h
                cases h
            · cases h
          · rw [hc] at h
            dsimp only at h
            rw [if_neg hcolon] at h
            cases h
        · cases h
      · cases h

/-- What stands in front of an object, in a text that is JSON, is white space. -/
theorem white_of_scan (hs : Breaks s) {t : Str} {v : Json Str}
    (h : scan (t ++ unit '{' :: unit '"' :: s) = some v) : ∀ u ∈ t, isWs u = true := by
  unfold scan at h
  split at h
  · rename_i x r hx
    obtain ⟨c, rest, rfl, hc, -⟩ := hs.head
    rcases (scan_torn hs _).1 t _ _ hx with ⟨t', rfl⟩ | rfl | ⟨hwhite, -⟩
    · rcases skipWs_torn (s := c :: rest) t' with ⟨-, ht⟩ | ⟨u, t'', ht⟩
      · rw [ht] at h
        cases h
      · rw [ht] at h
        cases h
    · rw [hc] at h
      cases h
    · exact hwhite
  · cases h

end Torn

section Object
variable {ν : Type} {P : Printer ν}

/-- A printed object with a key that starts with a plain unit, and white space behind it. -/
theorem breaks_object (hP : P.Lawful) {key : Str} {c : UInt16} {body : Str} (x : Json ν)
    (ms : Members ν) {post : Str} (hkey : P.quote key = unit '"' :: c :: body)
    (hc : isWs c = false ∧ c ≠ unit ',' ∧ c ≠ unit ':' ∧ c ≠ unit ']' ∧ c ≠ unit '}')
    (hpost : ∀ u ∈ post, isWs u = true) :
    ∃ s, P.print (.obj ((key, x) :: ms)) ++ post = unit '{' :: unit '"' :: s ∧ Breaks s := by
  have htext : ∃ rest, P.print (.obj ((key, x) :: ms)) ++ post =
      unit '{' :: unit '"' :: c :: rest := by
    cases ms <;> simp [Printer.print, Printer.printMembers, joinSep, hkey]
  obtain ⟨rest, hrest⟩ := htext
  refine ⟨c :: rest, hrest, ?_, cons_ne_nil c rest, ?_⟩
  · intro u r h
    rw [← (List.cons.inj h).1]
    exact hc
  · intro n v r h
    rw [← hrest] at h
    have hbig := scanValue_print hP (.obj ((key, x) :: ms))
      (max n ((P.print (.obj ((key, x) :: ms))).length + 1)) post (follows_white hpost) (by omega)
    rw [scanValue_mono (Nat.le_max_left n _) h] at hbig
    rw [(Prod.mk.inj (Option.some.inj hbig)).2]
    have hws := skipWs_white hpost []
    rwa [append_nil] at hws

end Object

end JsonText

/-! ## The units of a printed text -/

section Units
variable {ν : Type} {P : Printer ν} {Q : UInt16 → Prop}

theorem joinSep_all {sep : Str} (hsep : ∀ u ∈ sep, Q u) (xs : List Str)
    (h : ∀ x ∈ xs, ∀ u ∈ x, Q u) : ∀ u ∈ joinSep sep xs, Q u := by
  match xs with
  | [] => exact fun u hu => (nomatch hu)
  | [x] => exact h x mem_cons_self
  | x :: y :: xs =>
    intro u hu
    rcases mem_append.mp hu with hu | hu
    · rcases mem_append.mp hu with hu | hu
      · exact h x mem_cons_self u hu
      · exact hsep u hu
    · exact joinSep_all hsep (y :: xs) (fun z hz => h z (mem_cons_of_mem _ hz)) u hu

/-- The units of JSON's own marks and words, and those of the tokens, have the property. -/
structure Marks (P : Printer ν) (Q : UInt16 → Prop) : Prop where
  own : ∀ u ∈ units "nulltruefalse[]{},:", Q u
  num : ∀ n, ∀ u ∈ P.num n, Q u
  quote : ∀ s, ∀ u ∈ P.quote s, Q u

theorem Marks.some_of (h : Marks P Q) {t : Str}
    (ht : ∀ u ∈ t, u ∈ units "nulltruefalse[]{},:") : ∀ u ∈ t, Q u :=
  fun u hu => h.own u (ht u hu)

mutual

theorem print_all (h : Marks P Q) (v : Json ν) : ∀ u ∈ P.print v, Q u := by
  match v with
  | .null => exact h.some_of (t := units "null") (by decide)
  | .bool true => exact h.some_of (t := units "true") (by decide)
  | .bool false => exact h.some_of (t := units "false") (by decide)
  | .num n => exact h.num n
  | .str s => exact h.quote s
  | .arr xs =>
    intro u hu
    rcases mem_append.mp hu with hu | hu
    · rcases mem_cons.mp hu with rfl | hu
      · exact h.some_of (t := [unit '[']) (by decide) _ mem_cons_self
      · exact joinSep_all (h.some_of (by decide)) _ (printElems_all h xs) u hu
    · exact h.some_of (t := [unit ']']) (by decide) u hu
  | .obj ms =>
    intro u hu
    rcases mem_append.mp hu with hu | hu
    · rcases mem_cons.mp hu with rfl | hu
      · exact h.some_of (t := [unit '{']) (by decide) _ mem_cons_self
      · exact joinSep_all (h.some_of (by decide)) _ (printMembers_all h ms) u hu
    · exact h.some_of (t := [unit '}']) (by decide) u hu

theorem printElems_all (h : Marks P Q) (xs : List (Json ν)) :
    ∀ x ∈ P.printElems xs, ∀ u ∈ x, Q u := by
  match xs with
  | [] => simp [Printer.printElems]
  | x :: xs =>
    simp only [Printer.printElems, mem_cons, forall_eq_or_imp]
    exact ⟨print_all h x, printElems_all h xs⟩

theorem printMembers_all (h : Marks P Q) (ms : Members ν) :
    ∀ x ∈ P.printMembers ms, ∀ u ∈ x, Q u := by
  match ms with
  | [] => simp [Printer.printMembers]
  | (k, v) :: ms =>
    simp only [Printer.printMembers, mem_cons, forall_eq_or_imp]
    refine ⟨fun u hu => ?_, printMembers_all h ms⟩
    rcases mem_append.mp hu with hu | hu
    · exact h.quote k u hu
    rcases mem_cons.mp hu with rfl | hu
    · exact h.some_of (t := [unit ':']) (by decide) _ mem_cons_self
    · exact print_all h v u hu

end

end Units

end OpenBrain.Core
