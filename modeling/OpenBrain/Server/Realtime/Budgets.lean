import OpenBrain.Server.Realtime.Lanes

/-!
# Sessions within their budgets

`Within` is what both stores keep between calls. An item pushed on a session of such a store
puts every budget over by one at most, so each trim goes one round at most; and that round does
not take the item that was pushed (`within_push`), for the oldest session is another one, or has
an older item.
-/
namespace OpenBrain.Server.Realtime.Sessions
open OpenBrain.Core OpenBrain.Core.Ecma List

variable {ι : Type}

/-- The three limits of a store. -/
structure Limits where
  sessions : Int
  items : Int
  global : Int

def Limits.Positive (limits : Limits) : Prop :=
  0 < limits.sessions ∧ 0 < limits.items ∧ 0 < limits.global

/-- Sessions of at most `max` items each, none empty and none written after the time `clock`. -/
structure Tidy (max clock : Int) (m : Sessions ι) : Prop where
  keyed : Keyed m
  filled : Filled m
  items : ∀ e ∈ m, (e.2.items.length : Int) ≤ max
  past : ∀ e ∈ m, e.2.updated_at_ms ≤ clock

/-- Sessions that no trim takes anything of. -/
structure Within (limits : Limits) (clock : Int) (m : Sessions ι) : Prop extends
    Tidy limits.items clock m where
  sessions : (m.length : Int) ≤ limits.sessions
  global : (m.globalItemCount : Int) ≤ limits.global

/-! ## Counting -/

section Count
variable {m : Sessions ι} {key : Str} {session : Session ι}

@[simp] theorem globalItemCount_nil : globalItemCount ([] : Sessions ι) = 0 := rfl

@[simp] theorem globalItemCount_cons (e : Str × Session ι) (m : Sessions ι) :
    globalItemCount (e :: m) = e.2.items.length + globalItemCount m := by
  unfold globalItemCount
  rw [map_cons, sum_cons]

@[simp] theorem globalItemCount_append (m m' : Sessions ι) :
    globalItemCount (m ++ m') = globalItemCount m + globalItemCount m' := by
  unfold globalItemCount
  rw [map_append, sum_append]

theorem split_of_mem (hm : (m.map Prod.fst).Nodup) (h : (key, session) ∈ m) :
    ∃ front back, m = front ++ (key, session) :: back ∧ key ∉ front.map Prod.fst ∧
      key ∉ back.map Prod.fst := by
  obtain ⟨front, back, rfl⟩ := append_of_mem h
  refine ⟨front, back, rfl, ?_, ?_⟩
  · rw [map_append, map_cons, nodup_append] at hm
    intro hkey
    exact hm.2.2 key hkey key mem_cons_self rfl
  · rw [map_append, map_cons, nodup_append, nodup_cons] at hm
    exact hm.2.1.1

theorem delete_of_notMem (h : key ∉ m.map Prod.fst) : m.delete key = m := by
  unfold delete
  rw [filter_eq_self]
  intro e he
  rw [bne_iff_ne]
  intro heq
  exact h (heq ▸ mem_map_of_mem he)

theorem delete_split {front back : Sessions ι} (hfront : key ∉ front.map Prod.fst)
    (hback : key ∉ back.map Prod.fst) :
    delete (front ++ (key, session) :: back) key = front ++ back := by
  have hf := delete_of_notMem hfront
  have hb := delete_of_notMem hback
  unfold delete at hf hb ⊢
  rw [filter_append, hf, filter_cons_of_neg (by simp), hb]

theorem set_split {front back : Sessions ι} (hfront : key ∉ front.map Prod.fst)
    (session' : Session ι) :
    Assoc.set (front ++ (key, session) :: back) key session' =
      front ++ (key, session') :: back := by
  induction front with
  | nil => exact if_pos rfl
  | cons e front ih =>
    rw [map_cons, mem_cons, not_or] at hfront
    rw [cons_append, set_cons, if_neg (Ne.symm hfront.1), ih hfront.2]
    rfl

theorem globalItemCount_set (hm : (m.map Prod.fst).Nodup) (h : (key, session) ∈ m)
    (session' : Session ι) :
    globalItemCount (Assoc.set m key session') + session.items.length =
      m.globalItemCount + session'.items.length := by
  obtain ⟨front, back, rfl, hfront, -⟩ := split_of_mem hm h
  rw [set_split hfront, globalItemCount_append, globalItemCount_append, globalItemCount_cons,
    globalItemCount_cons]
  dsimp only
  omega

theorem globalItemCount_setItems (hm : (m.map Prod.fst).Nodup) (h : (key, session) ∈ m)
    (items : List ι) :
    globalItemCount (m.setItems key session items) + session.items.length =
      m.globalItemCount + items.length := by
  unfold setItems
  split
  · rename_i hnil
    obtain ⟨front, back, rfl, hfront, hback⟩ := split_of_mem hm h
    rw [delete_split hfront hback, globalItemCount_append, globalItemCount_append,
      globalItemCount_cons, List.isEmpty_iff.mp hnil, length_nil]
    dsimp only
    omega
  · exact globalItemCount_set hm h _

theorem length_delete (hm : (m.map Prod.fst).Nodup) (h : (key, session) ∈ m) :
    (m.delete key).length + 1 = m.length := by
  obtain ⟨front, back, rfl, hfront, hback⟩ := split_of_mem hm h
  rw [delete_split hfront hback, length_append, length_append, length_cons]
  omega

theorem Shrinks.length {m' : Sessions ι} (h : Shrinks m m') : m'.length ≤ m.length := by
  have := h.keys.length_le
  rwa [length_map, length_map] at this

theorem globalItemCount_keep (p : ι → Bool) (m : Sessions ι) :
    globalItemCount (m.keep p) ≤ m.globalItemCount := by
  induction m with
  | nil => exact Nat.le_refl _
  | cons e m ih =>
    have hle := length_filter_le p e.2.items
    rw [keep_cons, globalItemCount_cons]
    split
    · omega
    · rw [globalItemCount_cons]
      dsimp only
      omega

end Count

/-! ## Reading -/

section Read
variable {m : Sessions ι} {key : Str} {session : Session ι}

theorem lookup_of_mem (hm : (m.map Prod.fst).Nodup) (h : (key, session) ∈ m) :
    m.lookup key = some session := by
  obtain ⟨front, back, rfl, hfront, -⟩ := split_of_mem hm h
  rw [lookup_append, Assoc.lookup_of_notMem hfront, lookup_cons_self]
  rfl

theorem mem_keep {p : ι → Bool} (h : (key, session) ∈ m) {i : ι} (hi : i ∈ session.items)
    (hp : p i = true) :
    (key, { session with items := session.items.filter p }) ∈ m.keep p := by
  have hmem : i ∈ session.items.filter p := mem_filter.mpr ⟨hi, hp⟩
  refine mem_filter.mpr ⟨mem_map.mpr ⟨_, h, rfl⟩, ?_⟩
  simp only [Bool.not_eq_true', isEmpty_eq_false_iff]
  exact ne_nil_of_mem hmem

/-- The scopes of sessions under their keys can all be compared. -/
theorem denials_ok (sha256 : Str → Str) (shown : Session ι → Bool) (hm : Keyed m)
    {requested n : WorkingSetScope} (hn : normalizeWorkingSetScope requested = .ok n)
    (requestedKey : Str) :
    ∃ denials, scopeDenialsFor sha256 shown requested requestedKey m = .ok denials := by
  have hkeys := hm.key
  clear hm
  induction m with
  | nil => exact ⟨[], rfl⟩
  | cons e m ih =>
    obtain ⟨denials, hdenials⟩ := ih fun e' he' => hkeys e' (mem_cons_of_mem e he')
    have hkey := hkeys e mem_cons_self
    obtain ⟨n', hn', -⟩ := key_ok hkey
    have hcompare : compareWorkingSetScope requested e.2.scope =
        .ok (SCOPE_FIELDS.filter fun field => decide (n.get field ≠ n'.get field)) := by
      unfold compareWorkingSetScope
      rw [hn, hn']
      rfl
    have hhash : workingSetScopeHash sha256 e.2.scope = .ok ((sha256 e.1).take 16) := by
      unfold workingSetScopeHash
      rw [hkey]
      rfl
    rw [denials_cons, hdenials, hcompare, hhash]
    dsimp only [bind, Except.bind]
    split
    · exact ⟨_, rfl⟩
    · split
      · exact ⟨_, rfl⟩
      · exact ⟨_, rfl⟩

end Read

/-! ## The oldest session -/

section Oldest
variable {m : Sessions ι}

theorem oldestSession_concat (m : Sessions ι) (e : Str × Session ι) :
    oldestSession (m ++ [e]) =
      match m.oldestSession with
      | none => some e
      | some o => if e.2.updated_at_ms < o.2.updated_at_ms then some e else some o := by
  unfold oldestSession
  rw [foldl_append]
  rfl

theorem oldestSession_isSome (h : m ≠ []) : ∃ e, m.oldestSession = some e := by
  induction m using List.reverseRecOn with
  | nil => exact absurd rfl h
  | append_singleton m e _ =>
    rw [oldestSession_concat]
    split
    · exact ⟨_, rfl⟩
    · split
      · exact ⟨_, rfl⟩
      · exact ⟨_, rfl⟩

/-- A session at the end that is no older than the others is not the oldest. -/
theorem oldestSession_front {e : Str × Session ι} (hm : m ≠ [])
    (h : ∀ o ∈ m, o.2.updated_at_ms ≤ e.2.updated_at_ms) :
    ∃ o ∈ m, oldestSession (m ++ [e]) = some o := by
  obtain ⟨o, ho⟩ := oldestSession_isSome hm
  have hmem := oldestSession_mem ho
  refine ⟨o, hmem, ?_⟩
  rw [oldestSession_concat, ho]
  exact if_neg (Int.not_lt.mpr (h o hmem))

end Oldest

/-! ## Trims of one round -/

section Round
variable {m : Sessions ι} {max : Int}

theorem trimGlobal_of_le (h : (m.globalItemCount : Int) ≤ max) (rounds : Nat) :
    m.trimGlobal max rounds = (m, []) := by
  cases rounds with
  | zero => rfl
  | succ rounds => exact if_pos h

theorem trimSessions_of_le (h : (m.length : Int) ≤ max) (rounds : Nat) :
    m.trimSessions max rounds = (m, []) := by
  cases rounds with
  | zero => rfl
  | succ rounds => exact if_pos h

theorem trimGlobal_round {key : Str} {session : Session ι} (hm : (m.map Prod.fst).Nodup)
    (hfilled : Filled m) (hcount : (m.globalItemCount : Int) = max + 1)
    (ho : m.oldestSession = some (key, session)) {rounds : Nat} (hrounds : 0 < rounds) :
    (m.trimGlobal max rounds).1 = m.setItems key session session.items.tail ∧
      ((m.setItems key session session.items.tail).globalItemCount : Int) = max := by
  have hmem := oldestSession_mem ho
  have hpos : 0 < session.items.length := length_pos_iff.mpr (hfilled _ hmem)
  have hafter := globalItemCount_setItems hm hmem session.items.tail
  rw [length_tail] at hafter
  have hfit : ((m.setItems key session session.items.tail).globalItemCount : Int) = max := by omega
  obtain ⟨r, rfl⟩ := Nat.exists_eq_succ_of_ne_zero (Nat.pos_iff_ne_zero.mp hrounds)
  refine ⟨?_, hfit⟩
  have hmore : ¬ (m.globalItemCount : Int) ≤ max := by omega
  show (trimGlobal max (r + 1) m).1 = _
  unfold trimGlobal
  rw [if_neg hmore, ho]
  dsimp only
  rw [trimGlobal_of_le (Int.le_of_eq hfit)]

theorem trimSessions_round {key : Str} {session : Session ι} (hm : (m.map Prod.fst).Nodup)
    (hlen : (m.length : Int) = max + 1) (ho : m.oldestSession = some (key, session))
    {rounds : Nat} (hrounds : 0 < rounds) :
    (m.trimSessions max rounds).1 = m.delete key ∧ ((m.delete key).length : Int) = max := by
  have hafter := length_delete hm (oldestSession_mem ho)
  have hfit : ((m.delete key).length : Int) = max := by omega
  obtain ⟨r, rfl⟩ := Nat.exists_eq_succ_of_ne_zero (Nat.pos_iff_ne_zero.mp hrounds)
  refine ⟨?_, hfit⟩
  have hmore : ¬ (m.length : Int) ≤ max := by omega
  show (trimSessions max (r + 1) m).1 = _
  unfold trimSessions
  rw [if_neg hmore, ho]
  dsimp only
  rw [trimSessions_of_le (Int.le_of_eq hfit)]

end Round

/-! ## Tidy sessions -/

section Tidy
variable {m : Sessions ι} {max clock : Int} {key : Str} {session : Session ι}

theorem Tidy.later {now : Int} (h : Tidy max clock m) (hnow : clock ≤ now) : Tidy max now m :=
  ⟨h.keyed, h.filled, h.items, fun e he => Int.le_trans (h.past e he) hnow⟩

theorem Tidy.filter (h : Tidy max clock m) (q : Str × Session ι → Bool) :
    Tidy max clock (m.filter q) where
  keyed := (shrinks_filter q m).keyed h.keyed
  filled e he := h.filled e (mem_of_mem_filter he)
  items e he := h.items e (mem_of_mem_filter he)
  past e he := h.past e (mem_of_mem_filter he)

theorem Tidy.keep (h : Tidy max clock m) (p : ι → Bool) : Tidy max clock (m.keep p) where
  keyed := (shrinks_keep p m).keyed h.keyed
  filled := filled_keep p m
  items := by
    intro e he
    obtain ⟨e', he', rfl⟩ := mem_map.mp (mem_of_mem_filter he)
    have hle := length_filter_le p e'.2.items
    have hmax := h.items e' he'
    dsimp only
    omega
  past := by
    intro e he
    obtain ⟨e', he', rfl⟩ := mem_map.mp (mem_of_mem_filter he)
    exact h.past e' he'

theorem Tidy.set (h : Tidy max clock m) (hkey : workingSetScopeKey session.scope = .ok key)
    (hne : session.items ≠ []) (hlen : (session.items.length : Int) ≤ max)
    (hpast : session.updated_at_ms ≤ clock) : Tidy max clock (Assoc.set m key session) := by
  refine ⟨keyed_set h.keyed hkey, ?_, ?_, ?_⟩ <;> intro e he <;>
    rcases (mem_set h.keyed.keys).mp he with rfl | ⟨he, -⟩
  · exact hne
  · exact h.filled e he
  · exact hlen
  · exact h.items e he
  · exact hpast
  · exact h.past e he

theorem Tidy.setItems_tail (h : Tidy max clock m) (hmem : (key, session) ∈ m) :
    Tidy max clock (m.setItems key session session.items.tail) := by
  unfold setItems
  split
  · exact h.filter _
  · rename_i hne
    have hlen : (session.items.length : Int) ≤ max := h.items _ hmem
    refine h.set (h.keyed.key _ hmem) ?_ ?_ (h.past _ hmem)
    · intro hnil
      exact hne (List.isEmpty_iff.mpr hnil)
    · dsimp only
      rw [length_tail]
      omega

theorem mem_setItems_self (hm : (m.map Prod.fst).Nodup) {items : List ι} (h : items ≠ []) :
    (key, { session with items := items }) ∈ m.setItems key session items := by
  unfold setItems
  rw [if_neg (by simpa using h)]
  exact (mem_set hm).mpr (.inl rfl)

theorem mem_setItems_other (hm : (m.map Prod.fst).Nodup) {e : Str × Session ι} (he : e ∈ m)
    (hne : e.1 ≠ key) (items : List ι) : e ∈ m.setItems key session items := by
  unfold setItems
  split
  · exact mem_filter.mpr ⟨he, bne_iff_ne.mpr hne⟩
  · exact (mem_set hm).mpr (.inr ⟨he, hne⟩)

/-- A session at the end stays there when another one loses an item. -/
theorem setItems_concat (hm : (m.map Prod.fst).Nodup) (h : (key, session) ∈ m)
    {e : Str × Session ι} (hne : e.1 ≠ key) (items : List ι) :
    setItems (m ++ [e]) key session items = m.setItems key session items ++ [e] := by
  obtain ⟨front, back, rfl, hfront, hback⟩ := split_of_mem hm h
  have hback' : key ∉ (back ++ [e]).map Prod.fst := by
    rw [map_append, mem_append, not_or]
    exact ⟨hback, fun he => hne (mem_singleton.mp he).symm⟩
  unfold setItems
  rw [append_assoc, cons_append]
  split
  · rw [delete_split hfront hback', delete_split hfront hback, append_assoc]
  · rw [set_split hfront, set_split hfront, append_assoc, cons_append]

end Tidy

/-! ## Pushing an item -/

section Push
variable {m : Sessions ι} {limits : Limits} {clock now : Int} {key : Str} {scope : WorkingSetScope}
  {old : List ι} {item : ι}

/-- The session under a key after an item has been pushed on its items and `trimSession`. -/
def pushed (limits : Limits) (scope : WorkingSetScope) (old : List ι) (item : ι) (now : Int) :
    Session ι :=
  ⟨scope, (old ++ [item]).drop (overflow limits.items (old ++ [item])), now⟩

/-- `trimGlobal` and `trimSessions`. -/
def trimmed (limits : Limits) (m : Sessions ι) : Sessions ι :=
  let globally := m.trimGlobal limits.global m.rounds
  (globally.1.trimSessions limits.sessions globally.1.length).1

theorem pushed_items (hl : limits.Positive) (hold : (old.length : Int) ≤ limits.items)
    (scope : WorkingSetScope) (item : ι) (now : Int) :
    ∃ kept, (pushed limits scope old item now).items = kept ++ [item] ∧ kept ⊆ old ∧
      kept.length ≤ old.length ∧ ((kept ++ [item]).length : Int) ≤ limits.items := by
  have hpos : 0 < limits.items := hl.2.1
  have hlen : (old ++ [item]).length = old.length + 1 := length_append
  refine ⟨old.drop (overflow limits.items (old ++ [item])), ?_, ?_, ?_, ?_⟩
  · refine drop_append_of_le_length ?_
    unfold overflow
    omega
  · exact drop_subset _ _
  · rw [List.length_drop]
    omega
  · rw [length_append, List.length_drop, length_singleton]
    unfold overflow
    omega

variable {new : Session ι}

theorem within_set_known (hm : Within limits clock m) (hclock : clock ≤ now) {session : Session ι}
    (hmem : (key, session) ∈ m) (hkey : workingSetScopeKey new.scope = .ok key)
    (hnow : new.updated_at_ms = now) {kept : List ι} (hitems : new.items = kept ++ [item])
    (hkept : kept.length ≤ session.items.length) (hlen : (new.items.length : Int) ≤ limits.items) :
    Within limits now (trimmed limits (Assoc.set m key new)) ∧
      ∃ s, (key, s) ∈ trimmed limits (Assoc.set m key new) ∧ item ∈ s.items := by
  have hne : new.items ≠ [] := by simp [hitems]
  have htidy : Tidy limits.items now (Assoc.set m key new) :=
    (hm.toTidy.later hclock).set hkey hne hlen (Int.le_of_eq hnow)
  have hnodup := htidy.keyed.keys
  have hcount := globalItemCount_set hm.keyed.keys hmem new
  have hfull : 0 < session.items.length := length_pos_iff.mpr (hm.filled _ hmem)
  have hglobal := hm.global
  have hlength : ((Assoc.set m key new).length : Int) ≤ limits.sessions := by
    have hkeys := congrArg List.length (Assoc.keys_set m key new)
    rw [if_pos (mem_map.mpr ⟨_, hmem, rfl⟩), length_map, length_map] at hkeys
    rw [hkeys]
    exact hm.sessions
  have hself : (key, new) ∈ Assoc.set m key new := (mem_set hm.keyed.keys).mpr (.inl rfl)
  unfold trimmed
  dsimp only
  by_cases hfit : (globalItemCount (Assoc.set m key new) : Int) ≤ limits.global
  · rw [trimGlobal_of_le hfit, trimSessions_of_le hlength]
    exact ⟨⟨htidy, hlength, hfit⟩, new, hself, by simp [hitems]⟩
  · -- one item too many, and so the session has another one before the item
    rw [hitems, length_append, length_singleton] at hcount
    have hmore : (globalItemCount (Assoc.set m key new) : Int) = limits.global + 1 := by omega
    obtain ⟨⟨k, o⟩, ho⟩ := oldestSession_isSome (ne_nil_of_mem hself)
    have hrounds : 0 < rounds (Assoc.set m key new) := by
      unfold rounds
      have := length_pos_of_mem hself
      omega
    obtain ⟨hround, hfits⟩ := trimGlobal_round hnodup htidy.filled hmore ho hrounds
    have ho := oldestSession_mem ho
    have hshrinks := shrinks_setItems hnodup ho (tail_sublist o.items).subset
    have hless := hshrinks.length
    have hsessions : ((setItems (Assoc.set m key new) k o o.items.tail).length : Int) ≤
        limits.sessions := by omega
    rw [hround, trimSessions_of_le hsessions]
    refine ⟨⟨htidy.setItems_tail ho, hsessions, Int.le_of_eq hfits⟩, ?_⟩
    by_cases hk : k = key
    · subst hk
      have hon : o = new := by
        rcases (mem_set hm.keyed.keys).mp ho with heq | ⟨-, hne'⟩
        · exact congrArg Prod.snd heq
        · exact absurd rfl hne'
      subst hon
      have htail : o.items.tail = kept.tail ++ [item] := by
        rw [hitems]
        refine tail_append_of_ne_nil ?_
        intro hnil
        rw [hnil, length_nil] at hcount
        omega
      refine ⟨_, mem_setItems_self hnodup (by simp [htail]), ?_⟩
      dsimp only
      rw [htail]
      exact mem_append_right _ (mem_singleton.mpr rfl)
    · refine ⟨new, mem_setItems_other hnodup hself (Ne.symm hk) _, ?_⟩
      rw [hitems]
      exact mem_append_right _ (mem_singleton.mpr rfl)

theorem within_set_new (hl : limits.Positive) (hm : Within limits clock m) (hclock : clock ≤ now)
    (hnot : key ∉ m.map Prod.fst) (hkey : workingSetScopeKey new.scope = .ok key)
    (hnow : new.updated_at_ms = now) (hitems : new.items = [item]) :
    Within limits now (trimmed limits (Assoc.set m key new)) ∧
      ∃ s, (key, s) ∈ trimmed limits (Assoc.set m key new) ∧ item ∈ s.items := by
  obtain ⟨hsessions, hone, hglobal⟩ := hl
  have hlater := hm.toTidy.later hclock
  have hset := Assoc.set_of_notMem hnot new
  have htidy : Tidy limits.items now (m ++ [(key, new)]) := by
    rw [← hset]
    refine hlater.set hkey (by simp [hitems]) ?_ (Int.le_of_eq hnow)
    rw [hitems, length_singleton]
    omega
  have hnodup := htidy.keyed.keys
  have hotherwise : ∀ {k : Str} {o : Session ι}, (k, o) ∈ m → key ≠ k := by
    rintro k o ho rfl
    exact hnot (mem_map_of_mem ho)
  -- the new session is still the last one after `trimGlobal`
  have hglobally : ∃ front : Sessions ι,
      (trimGlobal limits.global (rounds (m ++ [(key, new)])) (m ++ [(key, new)])).1 =
        front ++ [(key, new)] ∧ front.length ≤ m.length ∧
      Tidy limits.items now (front ++ [(key, new)]) ∧
      (∀ e ∈ front, key ≠ e.1 ∧ e.2.updated_at_ms ≤ now) ∧
      (globalItemCount (front ++ [(key, new)]) : Int) ≤ limits.global := by
    by_cases hfit : (globalItemCount (m ++ [(key, new)]) : Int) ≤ limits.global
    · refine ⟨m, ?_, Nat.le_refl _, htidy, ?_, hfit⟩
      · rw [trimGlobal_of_le hfit]
      · exact fun e he => ⟨hotherwise he, hlater.past e he⟩
    · have hcount : globalItemCount (m ++ [(key, new)]) = m.globalItemCount + 1 := by
        rw [globalItemCount_append, globalItemCount_cons, globalItemCount_nil, hitems]
        rfl
      have hbefore := hm.global
      have hmore : (globalItemCount (m ++ [(key, new)]) : Int) = limits.global + 1 := by omega
      have hnil : m ≠ [] := by
        rintro rfl
        rw [globalItemCount_nil] at hcount
        omega
      obtain ⟨⟨k, o⟩, hmem, ho⟩ := oldestSession_front (e := (key, new)) hnil fun e he => by
        rw [hnow]
        exact hlater.past e he
      have hrounds : 0 < rounds (m ++ [(key, new)]) := by
        unfold rounds
        omega
      obtain ⟨hround, hfits⟩ := trimGlobal_round hnodup htidy.filled hmore ho hrounds
      have hconcat := setItems_concat hm.keyed.keys hmem (e := (key, new)) (hotherwise hmem)
        o.items.tail
      have htail := hlater.setItems_tail hmem
      refine ⟨m.setItems k o o.items.tail, ?_, ?_, ?_, ?_, ?_⟩
      · rw [hround, hconcat]
      · exact (shrinks_setItems hm.keyed.keys hmem (tail_sublist _).subset).length
      · rw [← hconcat]
        exact htidy.setItems_tail (oldestSession_mem ho)
      · intro e he
        obtain ⟨e', he', hk, -⟩ :=
          (shrinks_setItems hm.keyed.keys hmem (tail_sublist _).subset).items e he
        exact ⟨hk ▸ hotherwise he', htail.past e he⟩
      · rw [← hconcat]
        exact Int.le_of_eq hfits
  obtain ⟨front, hfront, hless, htidy', hothers, hfit⟩ := hglobally
  unfold trimmed
  dsimp only
  rw [hset, hfront]
  have hlen : (front ++ [(key, new)]).length = front.length + 1 := length_append
  have hself : (key, new) ∈ front ++ [(key, new)] :=
    mem_append_right _ (mem_singleton.mpr rfl)
  have hitem : item ∈ new.items := by simp [hitems]
  by_cases hroom : ((front ++ [(key, new)]).length : Int) ≤ limits.sessions
  · rw [trimSessions_of_le hroom]
    exact ⟨⟨htidy', hroom, hfit⟩, new, hself, hitem⟩
  · have hbefore := hm.sessions
    have hmore : ((front ++ [(key, new)]).length : Int) = limits.sessions + 1 := by omega
    have hnil : front ≠ [] := by
      rintro rfl
      rw [length_nil] at hlen
      omega
    obtain ⟨⟨k, o⟩, hmem, ho⟩ := oldestSession_front (e := (key, new)) hnil fun e he => by
      rw [hnow]
      exact (hothers e he).2
    have hrounds : 0 < (front ++ [(key, new)]).length := by omega
    obtain ⟨hround, hfits⟩ := trimSessions_round htidy'.keyed.keys hmore ho hrounds
    rw [hround]
    have hfewer : (delete (front ++ [(key, new)]) k).globalItemCount ≤
        globalItemCount (front ++ [(key, new)]) := by
      have := globalItemCount_setItems htidy'.keyed.keys (oldestSession_mem ho) []
      unfold setItems at this
      rw [if_pos isEmpty_nil] at this
      rw [length_nil] at this
      omega
    refine ⟨⟨htidy'.filter _, Int.le_of_eq hfits, by omega⟩, new, ?_, hitem⟩
    exact mem_filter.mpr ⟨hself, bne_iff_ne.mpr (hothers _ hmem).1⟩

/-- An item pushed on a store within its budgets leaves it so, and is not trimmed. -/
theorem within_push (hl : limits.Positive) (hm : Within limits clock m) (hclock : clock ≤ now)
    {n : WorkingSetScope} (hn : workingSetScopeKey n = .ok key) (item : ι) :
    let session := (m.lookup key).getD ⟨n, [], now⟩
    let after := trimmed limits
      (Assoc.set m key (pushed limits session.scope session.items item now))
    Within limits now after ∧ ∃ s, (key, s) ∈ after ∧ item ∈ s.items := by
  intro session after
  have hkey : workingSetScopeKey session.scope = .ok key := key_of_lookup hm.keyed hn
  have hold : (session.items.length : Int) ≤ limits.items := by
    cases h : m.lookup key with
    | none =>
      have hone := hl.2.1
      simp only [session, h, Option.getD_none, length_nil]
      omega
    | some s =>
      simp only [session, h, Option.getD_some]
      exact hm.items _ (mem_of_lookup h)
  obtain ⟨kept, hitems, hsub, hkept, hlen⟩ :=
    pushed_items hl hold session.scope item now
  cases h : m.lookup key with
  | some s =>
    have hs : session = s := by simp only [session, h, Option.getD_some]
    refine within_set_known hm hclock (mem_of_lookup h) hkey rfl hitems ?_ ?_
    · rw [← hs]
      exact hkept
    · rw [hitems]
      exact hlen
  | none =>
    have hnil : session.items = [] := by simp only [session, h, Option.getD_none]
    have hnot : key ∉ m.map Prod.fst := by
      intro hin
      obtain ⟨⟨k, s⟩, hs, rfl⟩ := mem_map.mp hin
      have := lookup_eq_none_iff.mp h _ hs
      simp at this
    refine within_set_new hl hm hclock hnot hkey rfl ?_
    rw [hnil] at hsub
    rw [hitems, subset_nil.mp hsub]
    rfl

theorem shrinks_trimmed (limits : Limits) (hm : (m.map Prod.fst).Nodup) :
    Shrinks m (trimmed limits m) :=
  (shrinks_trimGlobal _ _ hm).trans (shrinks_trimSessions _ _ _)

theorem keyed_push (limits : Limits) (hm : Keyed m) {n : WorkingSetScope}
    (hn : workingSetScopeKey n = .ok key) (item : ι) (now : Int) :
    let session := (m.lookup key).getD ⟨n, [], now⟩
    Keyed (trimmed limits
      (Assoc.set m key (pushed limits session.scope session.items item now))) := by
  intro session
  have hset : Keyed (Assoc.set m key (pushed limits session.scope session.items item now)) :=
    keyed_set hm (key_of_lookup hm hn)
  exact (shrinks_trimmed limits hset.keys).keyed hset

/-- What holds of all items and of the one pushed holds of those left. -/
theorem traced_push {T : Str → ι → Prop} (hm : (m.map Prod.fst).Nodup) (ht : Traced T m)
    (hitem : T key item) (n : WorkingSetScope) :
    let session := (m.lookup key).getD ⟨n, [], now⟩
    Traced T (trimmed limits
      (Assoc.set m key (pushed limits session.scope session.items item now))) := by
  intro session
  have hold : ∀ i ∈ session.items, T key i := by
    cases h : m.lookup key with
    | none => simp [session, h]
    | some s =>
      simp only [session, h, Option.getD_some]
      exact ht _ (mem_of_lookup h)
  have hnodup := Assoc.nodup_set hm key (pushed limits session.scope session.items item now)
  refine (shrinks_trimmed limits hnodup).traced ?_
  refine traced_set hm ht ?_
  intro i hi
  rcases mem_append.mp (drop_subset _ _ hi) with hi | hi
  · exact hold i hi
  · rw [mem_singleton.mp hi]
    exact hitem

end Push

/-! ## Trims of any number of rounds -/

/-- Sessions that no trim takes anything of but for empty ones; all of none are. -/
structure Fit (limits : Limits) (m : Sessions ι) : Prop where
  items : ∀ e ∈ m, (e.2.items.length : Int) ≤ max limits.items 0
  whole : m = [] ∨ (m.globalItemCount : Int) ≤ limits.global ∧ (m.length : Int) ≤ limits.sessions

/-- No session has more items than one there was. -/
def Shorter (m m' : Sessions ι) : Prop :=
  ∀ e' ∈ m', ∃ e ∈ m, e'.2.items.length ≤ e.2.items.length

section Fit
variable {m m' m'' : Sessions ι} {limits : Limits} {key : Str} {session : Session ι} {max : Int}

theorem Shorter.trans (h : Shorter m m') (h' : Shorter m' m'') : Shorter m m'' := by
  intro e'' he''
  obtain ⟨e', he', hle'⟩ := h' e'' he''
  obtain ⟨e, he, hle⟩ := h e' he'
  exact ⟨e, he, Nat.le_trans hle' hle⟩

theorem shorter_filter (q : Str × Session ι → Bool) (m : Sessions ι) : Shorter m (m.filter q) :=
  fun e he => ⟨e, mem_of_mem_filter he, Nat.le_refl _⟩

theorem shorter_keep (p : ι → Bool) (m : Sessions ι) : Shorter m (m.keep p) := by
  intro e he
  obtain ⟨e', he', rfl⟩ := mem_map.mp (mem_of_mem_filter he)
  exact ⟨e', he', length_filter_le p e'.2.items⟩

theorem shorter_set (hm : (m.map Prod.fst).Nodup) (h : (key, session) ∈ m)
    {session' : Session ι} (hle : session'.items.length ≤ session.items.length) :
    Shorter m (Assoc.set m key session') := by
  intro e he
  rcases (mem_set hm).mp he with rfl | ⟨he, -⟩
  · exact ⟨_, h, hle⟩
  · exact ⟨e, he, Nat.le_refl _⟩

theorem shorter_setItems (hm : (m.map Prod.fst).Nodup) (h : (key, session) ∈ m) {items : List ι}
    (hle : items.length ≤ session.items.length) : Shorter m (m.setItems key session items) := by
  unfold setItems
  split
  · exact shorter_filter _ m
  · exact shorter_set hm h hle

theorem globalItemCount_sublist (h : List.Sublist m' m) :
    globalItemCount m' ≤ globalItemCount m := by
  induction h with
  | slnil => exact Nat.le_refl _
  | cons e _ ih =>
    rw [globalItemCount_cons]
    omega
  | cons_cons e _ ih =>
    rw [globalItemCount_cons, globalItemCount_cons]
    omega

theorem Fit.mono (h : Fit limits m) (hcount : m'.globalItemCount ≤ m.globalItemCount)
    (hlength : m'.length ≤ m.length) (hshorter : Shorter m m') : Fit limits m' := by
  refine ⟨?_, ?_⟩
  · intro e' he'
    obtain ⟨e, he, hle⟩ := hshorter e' he'
    have hmax := h.items e he
    omega
  · rcases h.whole with rfl | ⟨hglobal, hsessions⟩
    · exact .inl (length_eq_zero_iff.mp (Nat.le_zero.mp hlength))
    · exact .inr ⟨by omega, by omega⟩

theorem trimGlobal_fit (max : Int) (rounds : Nat) (hm : (m.map Prod.fst).Nodup)
    (hrounds : m.rounds ≤ rounds) :
    (m.trimGlobal max rounds).1 = [] ∨ ((m.trimGlobal max rounds).1.globalItemCount : Int) ≤ max := by
  induction rounds generalizing m with
  | zero =>
    have hnone : m.length = 0 := by
      unfold Sessions.rounds at hrounds
      omega
    exact .inl (length_eq_zero_iff.mp hnone)
  | succ rounds ih =>
    unfold trimGlobal
    split
    · rename_i hle
      exact .inr hle
    · split
      · rename_i hnone
        by_contra hnot
        push Not at hnot
        obtain ⟨e, he⟩ := oldestSession_isSome hnot.1
        rw [hnone] at he
        cases he
      · rename_i key oldest ho
        have hmem := oldestSession_mem ho
        refine ih ?_ ?_
        · exact (shrinks_setItems hm hmem (tail_sublist _).subset).keys.nodup hm
        · -- a round takes an item, or an empty session
          have hcount := globalItemCount_setItems hm hmem oldest.items.tail
          have hlength := (shrinks_setItems hm hmem (tail_sublist _).subset).length
          rw [length_tail] at hcount
          unfold Sessions.rounds at hrounds ⊢
          cases hitems : oldest.items with
          | nil =>
            have hdelete := length_delete hm hmem
            have hgone : m.setItems key oldest [] = m.delete key := if_pos rfl
            rw [hitems, tail_nil, hgone, length_nil] at hcount
            rw [tail_nil, hgone]
            omega
          | cons i items =>
            rw [hitems, length_cons] at hcount
            rw [hitems] at hlength
            omega

theorem trimSessions_fit (max : Int) (rounds : Nat) (hm : (m.map Prod.fst).Nodup)
    (hrounds : m.length ≤ rounds) :
    (m.trimSessions max rounds).1 = [] ∨ ((m.trimSessions max rounds).1.length : Int) ≤ max := by
  induction rounds generalizing m with
  | zero => exact .inl (length_eq_zero_iff.mp (Nat.le_zero.mp hrounds))
  | succ rounds ih =>
    unfold trimSessions
    split
    · rename_i hle
      exact .inr hle
    · split
      · rename_i hnone
        by_contra hnot
        push Not at hnot
        obtain ⟨e, he⟩ := oldestSession_isSome hnot.1
        rw [hnone] at he
        cases he
      · rename_i key oldest ho
        have hdelete := length_delete hm (oldestSession_mem ho)
        refine ih ?_ (by omega)
        exact (shrinks_delete m key).keys.nodup hm

theorem shorter_trimGlobal (max : Int) (rounds : Nat) (hm : (m.map Prod.fst).Nodup) :
    Shorter m (m.trimGlobal max rounds).1 := by
  induction rounds generalizing m with
  | zero => exact fun e he => ⟨e, he, Nat.le_refl _⟩
  | succ rounds ih =>
    unfold trimGlobal
    split
    · exact fun e he => ⟨e, he, Nat.le_refl _⟩
    · split
      · exact fun e he => ⟨e, he, Nat.le_refl _⟩
      · rename_i key oldest ho
        have hmem := oldestSession_mem ho
        refine (shorter_setItems hm hmem ?_).trans (ih ?_)
        · rw [length_tail]
          omega
        · exact (shrinks_setItems hm hmem (tail_sublist _).subset).keys.nodup hm

/-- Deleting sessions makes none longer and none anew. -/
theorem trimSessions_sublist (max : Int) (rounds : Nat) (m : Sessions ι) :
    (m.trimSessions max rounds).1.Sublist m := by
  induction rounds generalizing m with
  | zero => exact List.Sublist.refl m
  | succ rounds ih =>
    unfold trimSessions
    split
    · exact List.Sublist.refl m
    · split
      · exact List.Sublist.refl m
      · exact (ih _).trans filter_sublist

theorem fit_trimmed (hm : (m.map Prod.fst).Nodup)
    (hitems : ∀ e ∈ m, (e.2.items.length : Int) ≤ Max.max limits.items 0) :
    Fit limits (trimmed limits m) := by
  have hglobal := trimGlobal_fit limits.global m.rounds hm (Nat.le_refl _)
  have hshorter := shorter_trimGlobal limits.global m.rounds hm
  have hnodup := (shrinks_trimGlobal limits.global m.rounds hm).keys.nodup hm
  unfold trimmed
  dsimp only
  generalize (m.trimGlobal limits.global m.rounds).1 = m₁ at hglobal hshorter hnodup ⊢
  have hsub := trimSessions_sublist limits.sessions m₁.length m₁
  refine ⟨?_, ?_⟩
  · intro e he
    obtain ⟨e₀, he₀, hle⟩ := hshorter e (hsub.subset he)
    have hmax := hitems e₀ he₀
    omega
  · rcases hglobal with rfl | hglobal
    · exact .inl rfl
    · rcases trimSessions_fit limits.sessions m₁.length hnodup (Nat.le_refl _) with hnil | hlen
      · exact .inl hnil
      · refine .inr ⟨?_, hlen⟩
        have hcount : globalItemCount (m₁.trimSessions limits.sessions m₁.length).1 ≤
            m₁.globalItemCount := globalItemCount_sublist hsub
        omega

end Fit

end OpenBrain.Server.Realtime.Sessions
