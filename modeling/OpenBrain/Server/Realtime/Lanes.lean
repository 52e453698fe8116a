import OpenBrain.Server.Realtime.Sessions

/-!
# What happens to sessions

Trimming and eviction only take sessions and items away (`Shrinks`); assigning a session keeps the
keys and what is known of the items.
-/
namespace OpenBrain.Server.Realtime.Sessions
open OpenBrain.Core OpenBrain.Core.Ecma List

variable {ι : Type}

/-- Every key is that of its session's scope, and none is there twice. -/
structure Keyed (m : Sessions ι) : Prop where
  keys : (m.map Prod.fst).Nodup
  key : ∀ e ∈ m, workingSetScopeKey e.2.scope = .ok e.1

/-- Sessions and items of `m`, some of them gone. -/
structure Shrinks (m m' : Sessions ι) : Prop where
  keys : (m'.map Prod.fst).Sublist (m.map Prod.fst)
  items : ∀ e' ∈ m', ∃ e ∈ m, e.1 = e'.1 ∧ e.2.scope = e'.2.scope ∧ e'.2.items ⊆ e.2.items

/-- `T` holds of every item and the key it is under. -/
def Traced (T : Str → ι → Prop) (m : Sessions ι) : Prop := ∀ e ∈ m, ∀ i ∈ e.2.items, T e.1 i

/-! ## Shrinking -/

section Shrinks
variable {m m' m'' : Sessions ι} {p : ι → Bool} {key : Str} {session : Session ι}

theorem Shrinks.refl (m : Sessions ι) : Shrinks m m :=
  ⟨List.Sublist.refl _, fun e he => ⟨e, he, rfl, rfl, List.Subset.refl _⟩⟩

theorem Shrinks.trans (h : Shrinks m m') (h' : Shrinks m' m'') : Shrinks m m'' := by
  refine ⟨h'.keys.trans h.keys, ?_⟩
  intro e'' he''
  obtain ⟨e', he', hk', hs', hi'⟩ := h'.items e'' he''
  obtain ⟨e, he, hk, hs, hi⟩ := h.items e' he'
  exact ⟨e, he, hk.trans hk', hs.trans hs', List.Subset.trans hi' hi⟩

theorem Shrinks.keyed (h : Shrinks m m') (hm : Keyed m) : Keyed m' := by
  refine ⟨h.keys.nodup hm.keys, ?_⟩
  intro e' he'
  obtain ⟨e, he, hk, hs, -⟩ := h.items e' he'
  rw [← hs, ← hk]
  exact hm.key e he

theorem Shrinks.traced {T : Str → ι → Prop} (h : Shrinks m m') (hm : Traced T m) : Traced T m' := by
  intro e' he' i hi
  obtain ⟨e, he, hk, -, hsub⟩ := h.items e' he'
  rw [← hk]
  exact hm e he i (hsub hi)

theorem shrinks_filter (q : Str × Session ι → Bool) (m : Sessions ι) : Shrinks m (m.filter q) :=
  ⟨filter_sublist.map Prod.fst,
    fun e he => ⟨e, mem_of_mem_filter he, rfl, rfl, List.Subset.refl _⟩⟩

theorem shrinks_delete (m : Sessions ι) (key : Str) : Shrinks m (m.delete key) :=
  shrinks_filter _ m

theorem shrinks_map {f : List ι → List ι} (hf : ∀ items, f items ⊆ items) (m : Sessions ι) :
    Shrinks m (m.map fun e => (e.1, { e.2 with items := f e.2.items })) := by
  refine ⟨?_, ?_⟩
  · rw [map_map]
    exact List.Sublist.refl _
  · intro e' he'
    obtain ⟨e, he, rfl⟩ := mem_map.mp he'
    exact ⟨e, he, rfl, rfl, hf _⟩

theorem shrinks_keep (p : ι → Bool) (m : Sessions ι) : Shrinks m (m.keep p) :=
  (shrinks_map (fun _ => filter_sublist.subset) m).trans (shrinks_filter _ _)

theorem mem_of_lookup (h : m.lookup key = some session) : (key, session) ∈ m := by
  induction m with
  | nil => cases h
  | cons e m ih =>
    rw [lookup_cons] at h
    split at h
    · rename_i hk
      cases h
      rw [beq_iff_eq.mp hk]
      exact mem_cons_self
    · exact mem_cons_of_mem e (ih h)

theorem mem_set (hm : (m.map Prod.fst).Nodup) {e : Str × Session ι} :
    e ∈ Assoc.set m key session ↔ e = (key, session) ∨ e ∈ m ∧ e.1 ≠ key :=
  Assoc.mem_set_iff hm key session e

theorem shrinks_setItems (hm : (m.map Prod.fst).Nodup) (h : (key, session) ∈ m) {items : List ι}
    (hsub : items ⊆ session.items) : Shrinks m (m.setItems key session items) := by
  unfold setItems
  split
  · exact shrinks_delete m key
  · refine ⟨?_, ?_⟩
    · rw [Assoc.keys_set, if_pos (mem_map.mpr ⟨_, h, rfl⟩)]
    · intro e' he'
      rcases (mem_set hm).mp he' with rfl | ⟨he', -⟩
      · exact ⟨_, h, rfl, rfl, hsub⟩
      · exact ⟨e', he', rfl, rfl, List.Subset.refl _⟩

theorem mem_of_foldl {α : Type} {f : Option α → α → Option α}
    (hf : ∀ o x y, f o x = some y → y = x ∨ o = some y) {l : List α} {o : Option α} {y : α}
    (h : l.foldl f o = some y) : o = some y ∨ y ∈ l := by
  induction l generalizing o with
  | nil => exact .inl h
  | cons x l ih =>
    rcases ih h with ho | hmem
    · rcases hf o x y ho with rfl | ho
      · exact .inr mem_cons_self
      · exact .inl ho
    · exact .inr (mem_cons_of_mem x hmem)

theorem oldestSession_mem {e : Str × Session ι} (h : m.oldestSession = some e) : e ∈ m := by
  refine (mem_of_foldl ?_ h).resolve_left (by simp)
  intro o x y hy
  cases o with
  | none => exact .inl (Option.some.inj hy).symm
  | some z =>
    dsimp only at hy
    split at hy
    · exact .inl (Option.some.inj hy).symm
    · exact .inr hy

theorem shrinks_trimGlobal (max : Int) (rounds : Nat) (hm : (m.map Prod.fst).Nodup) :
    Shrinks m (m.trimGlobal max rounds).1 := by
  induction rounds generalizing m with
  | zero => exact .refl m
  | succ rounds ih =>
    unfold trimGlobal
    split
    · exact .refl m
    · split
      · exact .refl m
      · rename_i key oldest ho
        have hone := shrinks_setItems hm (oldestSession_mem ho) (tail_sublist _).subset
        exact hone.trans (ih (hone.keys.nodup hm))

theorem shrinks_trimSessions (max : Int) (rounds : Nat) (m : Sessions ι) :
    Shrinks m (m.trimSessions max rounds).1 := by
  induction rounds generalizing m with
  | zero => exact .refl m
  | succ rounds ih =>
    unfold trimSessions
    split
    · exact .refl m
    · split
      · exact .refl m
      · exact (shrinks_delete m _).trans (ih _)

end Shrinks

/-! ## Assigning a session -/

section Set
variable {m : Sessions ι} {key : Str} {session : Session ι}

theorem keyed_set (hm : Keyed m) (hk : workingSetScopeKey session.scope = .ok key) :
    Keyed (Assoc.set m key session) := by
  refine ⟨Assoc.nodup_set hm.keys key session, ?_⟩
  intro e he
  rcases (mem_set hm.keys).mp he with rfl | ⟨he, -⟩
  · exact hk
  · exact hm.key e he

theorem traced_set {T : Str → ι → Prop} (hm : (m.map Prod.fst).Nodup) (ht : Traced T m)
    (hs : ∀ i ∈ session.items, T key i) : Traced T (Assoc.set m key session) := by
  intro e he i hi
  rcases (mem_set hm).mp he with rfl | ⟨he, -⟩
  · exact hs i hi
  · exact ht e he i hi

theorem key_of_lookup (hm : Keyed m) {n : WorkingSetScope} {now : Int}
    (hn : workingSetScopeKey n = .ok key) :
    workingSetScopeKey ((m.lookup key).getD ⟨n, [], now⟩).scope = .ok key := by
  cases h : m.lookup key with
  | none => exact hn
  | some session => exact hm.key _ (mem_of_lookup h)

end Set

/-! ## Session by session -/

/-- No session is empty. -/
def Filled (m : Sessions ι) : Prop := ∀ e ∈ m, e.2.items ≠ []

theorem filled_keep (p : ι → Bool) (m : Sessions ι) : Filled (m.keep p) := by
  intro e he
  have := of_mem_filter he
  simpa using this

theorem set_cons (e : Str × Session ι) (m : Sessions ι) {key : Str} {session : Session ι} :
    Assoc.set (e :: m) key session =
      if e.1 = key then (e.1, session) :: m else e :: Assoc.set m key session := rfl

theorem keep_cons (p : ι → Bool) (e : Str × Session ι) (m : Sessions ι) : keep p (e :: m) =
    if (e.2.items.filter p).isEmpty then keep p m
    else (e.1, { e.2 with items := e.2.items.filter p }) :: keep p m := by
  unfold keep
  rw [map_cons, filter_cons]
  cases (e.2.items.filter p).isEmpty <;> rfl

theorem denials_cons {sha256 : Str → Str} {shown : Session ι → Bool} {requested : WorkingSetScope}
    {key : Str} (e : Str × Session ι) (m : Sessions ι) :
    scopeDenialsFor sha256 shown requested key (e :: m) = (do
      let denials ← scopeDenialsFor sha256 shown requested key m
      if e.1 = key ∨ e.2.scope.ns ≠ requested.ns ∨ shown e.2 = false then
        .ok denials
      else
        let reasons ← compareWorkingSetScope requested e.2.scope
        if reasons = [] then .ok denials
        else
          let scope_hash ← workingSetScopeHash sha256 e.2.scope
          .ok (⟨scope_hash, reasons⟩ :: denials)) := rfl

end OpenBrain.Server.Realtime.Sessions
