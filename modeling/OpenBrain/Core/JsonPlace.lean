import OpenBrain.Core.JsonObject

/-!
# What a scanned text says

A string is read the same whatever follows its closing quote (`scanStr_swap`), and a text that reads
as an object was scanned to one whose members read (`obj_of_parse`).
-/
namespace OpenBrain.Core

namespace JsonText

/-! ## Strings -/

/-- What a string was read to, and its closing quote, are its text. -/
theorem scanStr_eq {s b r : Str} (h : scanStr s = some (b, r)) : s = b ++ unit '"' :: r := by
  fun_induction scanStr s generalizing b r with
  | case1 => cases h
  | case2 => cases h; rfl
  | case3 => cases h
  | case4 => cases h; rfl
  | case5 v s hq ih =>
    obtain ⟨⟨b', r'⟩, hr, heq⟩ := Option.map_eq_some_iff.mp h
    obtain ⟨rfl, rfl⟩ := Prod.mk.inj heq
    rw [ih hr]
    rfl
  | case6 => cases h
  | case7 u v s hq hb hc ih =>
    obtain ⟨⟨b', r'⟩, hr, heq⟩ := Option.map_eq_some_iff.mp h
    obtain ⟨rfl, rfl⟩ := Prod.mk.inj heq
    rw [ih hr]
    rfl

/-- A unit of a body that is no backslash stands for itself. -/
theorem scanStr_plain {u : UInt16} {b r : Str} (hb : u ≠ unit '\\')
    (h : scanStr (u :: (b ++ unit '"' :: r)) = some (u :: b, r)) :
    (u ≠ unit '"' ∧ u ≠ unit '\\' ∧ ¬ u < 0x20) ∧
      scanStr (b ++ unit '"' :: r) = some (b, r) := by
  obtain ⟨v, s, hs⟩ : ∃ v s, b ++ unit '"' :: r = v :: s := by
    cases b with
    | nil => exact ⟨_, _, rfl⟩
    | cons v b => exact ⟨_, _, rfl⟩
  rw [hs] at h ⊢
  rw [scanStr] at h
  split at h
  · cases h
  · rename_i hq
    split at h
    · cases h
    · rename_i hc
      obtain ⟨⟨b', r'⟩, hr, heq⟩ := Option.map_eq_some_iff.mp h
      obtain ⟨hbody, rfl⟩ := Prod.mk.inj heq
      obtain ⟨-, rfl⟩ := List.cons.inj hbody
      exact ⟨⟨hq, hb, hc⟩, hr⟩

/-- Behind a backslash the next unit is taken as it is. -/
theorem scanStr_escaped {v : UInt16} {b r : Str}
    (h : scanStr (unit '\\' :: v :: (b ++ unit '"' :: r)) = some (unit '\\' :: v :: b, r)) :
    scanStr (b ++ unit '"' :: r) = some (b, r) := by
  rw [scanStr, if_neg (by decide), if_pos rfl] at h
  obtain ⟨⟨b', r'⟩, hr, heq⟩ := Option.map_eq_some_iff.mp h
  obtain ⟨hbody, rfl⟩ := Prod.mk.inj heq
  simp only [List.cons.injEq, true_and] at hbody
  rw [← hbody]
  rwa [hbody] at hr ⊢

/-- A string is read the same whatever follows its closing quote. -/
theorem scanStr_swap : ∀ {b r : Str}, scanStr (b ++ unit '"' :: r) = some (b, r) →
    ∀ r', scanStr (b ++ unit '"' :: r') = some (b, r')
  | [], _, _, r' => by cases r' <;> rfl
  | [u], r, h, r' => by
    by_cases hb : u = unit '\\'
    · subst hb
      rw [List.singleton_append, scanStr_escape] at h
      obtain ⟨p, -, heq⟩ := Option.map_eq_some_iff.mp h
      cases heq
    · obtain ⟨⟨hq, hs, hc⟩, -⟩ := scanStr_plain (b := []) hb h
      rw [List.singleton_append, scanStr_cons hq hs hc, show unit '"' :: r' = [] ++ unit '"' :: r'
        from rfl, scanStr_swap (r := r) (by cases r <;> rfl) r']
      rfl
  | u :: v :: b, r, h, r' => by
    by_cases hb : u = unit '\\'
    · subst hb
      rw [List.cons_append, List.cons_append, scanStr_escape, scanStr_swap (scanStr_escaped h) r']
      rfl
    · obtain ⟨⟨hq, hs, hc⟩, hrest⟩ := scanStr_plain (b := v :: b) hb h
      rw [List.cons_append, scanStr_cons hq hs hc, scanStr_swap hrest r']
      rfl

/-! ## Values -/

theorem unquote_token (b : Str) : unquote (unit '"' :: b ++ [unit '"']) = unescape b := by
  simp [unquote]

section Reads
variable {ν : Type} {num : Str → Option ν}

theorem decodeElems_cons {x : Json Str} {xs : List (Json Str)}
    (h : (decodeElems num unquote (x :: xs)).isSome) :
    (decode num unquote x).isSome ∧ (decodeElems num unquote xs).isSome := by
  rw [decodeElems] at h
  split at h
  · rename_i hx hxs
    simp [hx, hxs]
  · cases h

theorem decodeMembers_cons {k : Str} {x : Json Str} {ms : Members Str}
    (h : (decodeMembers num unquote ((k, x) :: ms)).isSome) :
    (unquote k).isSome ∧ (decode num unquote x).isSome ∧ (decodeMembers num unquote ms).isSome := by
  rw [decodeMembers] at h
  split at h
  · rename_i hk hx hms
    simp [hk, hx, hms]
  · cases h

/-- A text that reads as an object was scanned to one. -/
theorem obj_of_parse {s : Str} {ms : Members ν} (h : parse num unquote s = some (.obj ms)) :
    ∃ raw r, scanValue (s.length + 1) s = some (.obj raw, r) ∧ skipWs r = [] ∧
      decodeMembers num unquote raw = some ms := by
  obtain ⟨raw, hscan, hread⟩ := Option.bind_eq_some_iff.mp h
  obtain ⟨rawms, rfl, hmembers⟩ : ∃ rawms, raw = .obj rawms ∧
      decodeMembers num unquote rawms = some ms := by
    cases raw with
    | obj rawms =>
      obtain ⟨ms', hms', heq⟩ := Option.map_eq_some_iff.mp hread
      cases heq
      exact ⟨rawms, rfl, hms'⟩
    | null => cases hread
    | bool => cases hread
    | num => obtain ⟨_, -, heq⟩ := Option.map_eq_some_iff.mp hread; cases heq
    | str => obtain ⟨_, -, heq⟩ := Option.map_eq_some_iff.mp hread; cases heq
    | arr => obtain ⟨_, -, heq⟩ := Option.map_eq_some_iff.mp hread; cases heq
  unfold scan at hscan
  split at hscan
  · rename_i t r ht
    split at hscan
    · rename_i hr
      cases hscan
      exact ⟨rawms, r, ht, List.isEmpty_iff.mp hr, hmembers⟩
    · cases hscan
  · cases hscan

end Reads

end JsonText

end OpenBrain.Core
