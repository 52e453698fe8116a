import OpenBrain.Core.JsonPlace

/-!
# The first member of a name

Readers build an object from its members one after the other, so of two members of one name the
last counts. `findMember` goes over the text of the members as `scanMembers` does and stops at
the first: its value and the text behind it. It finds the first of the raw members
(`findMember_eq`), so one of the name is found whenever the object that was read has one
(`firstMember_isSome`).
-/
namespace OpenBrain.Core
open List

namespace JsonText

/-- The first of the members after `{` whose key reads as `key`: its value and what follows. -/
def findMember (key : Str) : Nat → Str → Option (Json Str × Str)
  | 0, _ => none
  | n + 1, s =>
    match skipWs s with
    | [] => none
    | u :: s =>
      if u ≠ unit '"' then none
      else
        match scanStr s with
        | none => none
        | some (b, r) =>
          match scanValue n ((skipWs r).drop 1) with
          | none => none
          | some (x, r) =>
            if unescape b = some key then some (x, r)
            else
              match skipWs r with
              | w :: r => if w = unit ',' then findMember key n r else none
              | [] => none

/-- `findMember` of a text that is an object. -/
def firstMember (key s : Str) : Option (Json Str × Str) :=
  findMember key s.length ((skipWs s).drop 1)

/-! ## What one member takes -/

/-- The first member of a text, and where the others go on or the object ends. -/
theorem scanMembers_cases {n : Nat} {s r : Str} {ms : Members Str}
    (h : scanMembers (n + 1) s = some (ms, r)) :
    ∃ s₁ b r₁ r₂ x r₃ r₄, skipWs s = unit '"' :: s₁ ∧ scanStr s₁ = some (b, r₁) ∧
      skipWs r₁ = unit ':' :: r₂ ∧ scanValue n r₂ = some (x, r₃) ∧
      ((skipWs r₃ = unit ',' :: r₄ ∧ ∃ rest, scanMembers n r₄ = some (rest, r) ∧
          ms = (unit '"' :: b ++ [unit '"'], x) :: rest) ∨
        (skipWs r₃ = unit '}' :: r₄ ∧ r = r₄ ∧ ms = [(unit '"' :: b ++ [unit '"'], x)])) := by
  rw [scanMembers] at h
  split at h
  case h_2 => cases h
  rename_i u s₁ hs
  split at h
  case isFalse => cases h
  rename_i hu
  subst hu
  split at h
  case h_2 => cases h
  rename_i b r₁ hkey
  split at h
  case h_2 => cases h
  rename_i v r₂ hr₁
  split at h
  case isFalse => cases h
  rename_i hv
  subst hv
  split at h
  case h_1 => cases h
  rename_i x r₃ hx
  split at h
  case h_2 => cases h
  rename_i w r₄ hr₃
  split at h
  · rename_i hw
    obtain ⟨⟨rest, r'⟩, hrest, heq⟩ := Option.map_eq_some_iff.mp h
    obtain ⟨rfl, rfl⟩ := Prod.mk.inj heq
    exact ⟨s₁, b, r₁, r₂, x, r₃, r₄, hs, hkey, hr₁, hx, .inl ⟨hw ▸ hr₃, rest, hrest, rfl⟩⟩
  split at h
  · rename_i hw
    cases h
    exact ⟨s₁, b, r₁, r₂, x, r₃, r, hs, hkey, hr₁, hx, .inr ⟨hw ▸ hr₃, rfl, rfl⟩⟩
  · cases h

/-- The first element of a text, and where the others go on or the array ends. -/
theorem scanElems_cases {n : Nat} {s r : Str} {xs : List (Json Str)}
    (h : scanElems (n + 1) s = some (xs, r)) :
    ∃ x r₁, scanValue n s = some (x, r₁) ∧
      ((∃ r₂ rest, skipWs r₁ = unit ',' :: r₂ ∧ scanElems n r₂ = some (rest, r) ∧ xs = x :: rest) ∨
        (skipWs r₁ = unit ']' :: r ∧ xs = [x])) := by
  rw [scanElems] at h
  split at h
  case h_1 => cases h
  rename_i x r₁ hx
  refine ⟨x, r₁, hx, ?_⟩
  split at h
  case h_2 => cases h
  rename_i u r₂ hr₁
  split at h
  · rename_i hu
    obtain ⟨⟨rest, r'⟩, hrest, heq⟩ := Option.map_eq_some_iff.mp h
    cases heq
    exact .inl ⟨r₂, rest, hu ▸ hr₁, hrest, rfl⟩
  split at h
  · rename_i hu
    cases h
    exact .inr ⟨hu ▸ hr₁, rfl⟩
  · cases h

/-- The shapes of a value in a text that begins with it; `n` bounds the nesting within. -/
inductive Scanned (n : Nat) : Str → Json Str → Str → Prop
  | str {t b r : Str} (h : scanStr t = some (b, r)) :
    Scanned n (unit '"' :: t) (.str (unit '"' :: b ++ [unit '"'])) r
  | noElems {t r : Str} (h : skipWs t = unit ']' :: r) : Scanned n (unit '[' :: t) (.arr []) r
  | arr {t r : Str} {xs : List (Json Str)} (h : scanElems n (skipWs t) = some (xs, r)) :
    Scanned n (unit '[' :: t) (.arr xs) r
  | noMembers {t r : Str} (h : skipWs t = unit '}' :: r) : Scanned n (unit '{' :: t) (.obj []) r
  | obj {t r : Str} {ms : Members Str} (h : scanMembers n (skipWs t) = some (ms, r)) :
    Scanned n (unit '{' :: t) (.obj ms) r
  | null {r : Str} : Scanned n (units "null" ++ r) .null r
  | true {r : Str} : Scanned n (units "true" ++ r) (.bool Bool.true) r
  | false {r : Str} : Scanned n (units "false" ++ r) (.bool Bool.false) r
  | num {u : UInt16} {t : Str} (h : isNumStart u = Bool.true) :
    Scanned n (u :: t) (.num (u :: (spanNum t).1)) (spanNum t).2

theorem of_dropLit {lit s r : Str} (h : dropLit lit s = some r) : s = lit ++ r := by
  unfold dropLit at h
  split at h
  · rename_i hp
    obtain ⟨rest, rfl⟩ := List.isPrefixOf_iff_prefix.mp hp
    rw [drop_left] at h
    cases h
    rfl
  · cases h

theorem scanned_of_scanValue {n : Nat} {s r : Str} {v : Json Str}
    (h : scanValue (n + 1) s = some (v, r)) : Scanned n (skipWs s) v r := by
  rw [scanValue] at h
  split at h
  case h_1 => cases h
  rename_i u t hs
  rw [hs]
  split at h
  · rename_i hu
    obtain ⟨⟨b, r'⟩, hr, heq⟩ := Option.map_eq_some_iff.mp h
    cases heq
    subst hu
    exact .str hr
  split at h
  · rename_i hu
    split at h
    case h_2 => cases h
    rename_i w t' ht
    split at h
    · rename_i hw
      cases h
      exact hu ▸ .noElems (hw ▸ ht)
    · obtain ⟨⟨xs, r'⟩, hr, heq⟩ := Option.map_eq_some_iff.mp h
      cases heq
      exact hu ▸ .arr (ht ▸ hr)
  split at h
  · rename_i hu
    split at h
    case h_2 => cases h
    rename_i w t' ht
    split at h
    · rename_i hw
      cases h
      exact hu ▸ .noMembers (hw ▸ ht)
    · obtain ⟨⟨ms, r'⟩, hr, heq⟩ := Option.map_eq_some_iff.mp h
      cases heq
      exact hu ▸ .obj (ht ▸ hr)
  split at h
  · obtain ⟨r', hr, heq⟩ := Option.map_eq_some_iff.mp h
    cases heq
    exact of_dropLit hr ▸ .null
  split at h
  · obtain ⟨r', hr, heq⟩ := Option.map_eq_some_iff.mp h
    cases heq
    exact of_dropLit hr ▸ .true
  split at h
  · obtain ⟨r', hr, heq⟩ := Option.map_eq_some_iff.mp h
    cases heq
    exact of_dropLit hr ▸ .false
  split at h
  · rename_i hu
    cases h
    exact .num hu
  · cases h

/-! ## The first of the raw members -/

section Find
variable {key : Str}

theorem findMember_more {n : Nat} {s s₁ b r₁ r₂ r₃ r₄ : Str} {x : Json Str}
    (hs : skipWs s = unit '"' :: s₁) (hb : scanStr s₁ = some (b, r₁))
    (hr₁ : skipWs r₁ = unit ':' :: r₂) (hx : scanValue n r₂ = some (x, r₃))
    (hr₃ : skipWs r₃ = unit ',' :: r₄) :
    findMember key (n + 1) s =
      if unescape b = some key then some (x, r₃) else findMember key n r₄ := by
  rw [findMember, hs]
  dsimp only
  rw [if_neg (not_not.mpr rfl), hb]
  dsimp only
  rw [hr₁, drop_one, tail_cons, hx]
  dsimp only
  rw [hr₃]
  dsimp only
  rw [if_pos rfl]

theorem findMember_last {n : Nat} {s s₁ b r₁ r₂ r₃ r₄ : Str} {x : Json Str}
    (hs : skipWs s = unit '"' :: s₁) (hb : scanStr s₁ = some (b, r₁))
    (hr₁ : skipWs r₁ = unit ':' :: r₂) (hx : scanValue n r₂ = some (x, r₃))
    (hr₃ : skipWs r₃ = unit '}' :: r₄) :
    findMember key (n + 1) s = if unescape b = some key then some (x, r₃) else none := by
  rw [findMember, hs]
  dsimp only
  rw [if_neg (not_not.mpr rfl), hb]
  dsimp only
  rw [hr₁, drop_one, tail_cons, hx]
  dsimp only
  rw [hr₃]
  dsimp only
  rw [if_neg (show unit '}' ≠ unit ',' by decide)]

theorem findMember_eq {n : Nat} {s r : Str} {ms : Members Str}
    (h : scanMembers n s = some (ms, r)) :
    (findMember key n s).map Prod.fst =
      (ms.find? fun m => unquote m.1 = some key).map Prod.snd := by
  induction n generalizing s ms r with
  | zero => rw [scanMembers] at h; cases h
  | succ n ih =>
    obtain ⟨s₁, b, r₁, r₂, x, r₃, r₄, hs, hb, hr₁, hx, hend⟩ := scanMembers_cases h
    rcases hend with ⟨hr₃, rest, hrest, rfl⟩ | ⟨hr₃, -, rfl⟩
    · rw [findMember_more hs hb hr₁ hx hr₃, find?_cons, unquote_token b]
      by_cases hkey : unescape b = some key <;> simp [hkey, ih hrest]
    · rw [findMember_last hs hb hr₁ hx hr₃, find?_cons, unquote_token b]
      by_cases hkey : unescape b = some key <;> simp [hkey]

/-- A raw member whose key reads as a name is there when the object has a member of the name. -/
theorem find?_of_decodeMembers {ν : Type} {num : Str → Option ν} {ms : Members Str}
    {vs : Members ν} (h : decodeMembers num unquote ms = some vs) (hkey : key ∈ vs.map Prod.fst) :
    (ms.find? fun m => unquote m.1 = some key).isSome := by
  induction ms generalizing vs with
  | nil => rw [decodeMembers] at h; cases h; cases hkey
  | cons m ms ih =>
    obtain ⟨k, x⟩ := m
    rw [decodeMembers] at h
    split at h
    case h_2 => cases h
    rename_i k' y vs' hk hy hvs
    cases h
    rw [find?_cons]
    rcases mem_cons.mp hkey with rfl | hkey
    · simp [hk]
    · split
      · rfl
      · exact ih hvs hkey

/-- A member the object has was assigned. -/
theorem mem_of_get?_dict {ν : Type} {ms : Members ν} {v : Json ν}
    (h : ms.dict.get? key = some v) : key ∈ ms.map Prod.fst := by
  have hkeep : ∀ (ms acc : Members ν), key ∉ ms.map Prod.fst →
      Members.get? (ms.foldl (fun acc m => Members.set acc m.1 m.2) acc) key =
        Members.get? acc key := by
    intro ms
    induction ms with
    | nil => exact fun _ _ => rfl
    | cons m ms ih =>
      intro acc hkey
      rw [map_cons, mem_cons, not_or] at hkey
      rw [foldl_cons, ih _ hkey.2, Members.get?_set_ne _ _ (Ne.symm hkey.1)]
  by_contra hkey
  rw [Members.dict, hkeep ms [] hkey] at h
  cases h

theorem skipWs_skipWs (s : Str) : skipWs (skipWs s) = skipWs s := by
  induction s with
  | nil => rfl
  | cons u s ih =>
    rw [skipWs]
    split
    · exact ih
    · rename_i hu
      rw [skipWs, if_neg hu]

theorem findMember_skipWs (n : Nat) (s : Str) :
    findMember key n (skipWs s) = findMember key n s := by
  cases n with
  | zero => rfl
  | succ n => rw [findMember, findMember, skipWs_skipWs]

theorem findMember_none {s r : Str} (h : skipWs s = unit '}' :: r) (n : Nat) :
    findMember key n s = none := by
  cases n with
  | zero => rfl
  | succ n =>
    rw [findMember, h]
    dsimp only
    rw [if_pos (by decide)]

/-- `firstMember` goes over the members that were scanned. -/
theorem firstMember_eq {s r : Str} {ms : Members Str}
    (h : scanValue (s.length + 1) s = some (.obj ms, r)) :
    (firstMember key s).map Prod.fst =
      (ms.find? fun m => unquote m.1 = some key).map Prod.snd := by
  have hscanned := scanned_of_scanValue h
  unfold firstMember
  generalize skipWs s = s' at hscanned
  cases hscanned with
  | noMembers hclose => rw [drop_one, tail_cons, findMember_none hclose]; rfl
  | obj hmembers =>
    rw [drop_one, tail_cons, ← findMember_skipWs, ← findMember_eq hmembers]

/-- An object that has a member of the name has a first one in its text. -/
theorem firstMember_isSome {ν : Type} {num : Str → Option ν} {s : Str} {ms : Members ν}
    (h : parse num unquote s = some (.obj ms)) (hkey : key ∈ ms.map Prod.fst) :
    (firstMember key s).isSome := by
  obtain ⟨raw, r, hscan, -, hread⟩ := obj_of_parse h
  have hfound := find?_of_decodeMembers hread hkey
  rw [← Option.isSome_map (f := Prod.snd), ← firstMember_eq hscan, Option.isSome_map] at hfound
  exact hfound

theorem firstMember_written {ν : Type} {P : Printer ν} (hP : P.Lawful)
    (hkey : unquote (P.quote key) = some key) (v t : Str) :
    firstMember key (unit '{' :: (P.quote key ++ unit ':' :: (P.quote v ++ unit ',' :: t))) =
      some (.str (P.quote v), unit ',' :: t) := by
  obtain ⟨b, hb, hscan⟩ := hP.quote key
  have hread : unescape b = some key := by rw [← unquote_token b, ← hb, hkey]
  have hlength : ∃ n, (unit '{' :: (P.quote key ++ unit ':' ::
      (P.quote v ++ unit ',' :: t))).length = n + 1 + 1 := by
    rw [hb]
    exact ⟨_, rfl⟩
  obtain ⟨n, hn⟩ := hlength
  have hopen : skipWs (P.quote key ++ unit ':' :: (P.quote v ++ unit ',' :: t)) =
      unit '"' :: (b ++ unit '"' :: unit ':' :: (P.quote v ++ unit ',' :: t)) := by
    rw [hb, append_assoc]
    exact skipWs_cons (by decide) _
  rw [firstMember, hn, skipWs_cons (by decide), drop_one, tail_cons,
    findMember_more hopen (hscan _) (skipWs_cons (by decide) _) (scanValue_str hP v n _)
      (skipWs_cons (by decide) _), if_pos hread]

end Find

end JsonText

end OpenBrain.Core
