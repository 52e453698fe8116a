import OpenBrain.Server.Transport.Sessions
import Mathlib.Data.List.Count

/-!
# Admission and closing of sessions

`Inv` ties the store to what runs: an entry counts exactly its running requests,
and the live sessions and the handshakes that have not announced theirs fit into
`maxSessions`. It holds in every run. That every reserved slot is released
(`Slots`) needs that no transport factory throws, and that a session answered
`session closed` is gone (`Gone`) needs that it had no request in flight.

The store operations that retire sessions take entries away, and only ones without
a request in flight (`Shrinks`).
-/
namespace OpenBrain.Server.Transport
open OpenBrain.Core List

/-! ## Store operations -/

/-- What the invariants say about an entry. -/
structure Slot where
  id : String
  serial : Nat
  inFlight : Int
  deriving DecidableEq

def slot (p : String × SessionEntry) : Slot := ⟨p.1, p.2.serial, p.2.inFlight⟩

def Store.slots (s : Store) : List Slot := s.sessions.map slot

/-- Entries are taken away. -/
structure Removes (s t : Store) : Prop where
  pending : t.pendingInitializes = s.pendingInitializes
  sublist : t.slots.Sublist s.slots

/-- Entries are taken away, none with a request in flight. -/
structure Shrinks (s t : Store) : Prop extends Removes s t where
  busy : ∀ c ∈ s.slots, c.inFlight > 0 → c ∈ t.slots

section Store

variable {s t u : Store} {sessionId : String} {now : Int}

theorem Shrinks.refl (s : Store) : Shrinks s s :=
  ⟨⟨rfl, List.Sublist.refl _⟩, fun _ hc _ => hc⟩

theorem Shrinks.trans (h : Shrinks s t) (h' : Shrinks t u) : Shrinks s u where
  pending := h'.pending.trans h.pending
  sublist := h'.sublist.trans h.sublist
  busy c hc hpos := h'.busy c (h.busy c hc hpos) hpos

theorem mem_of_get {e : SessionEntry} (h : s.get sessionId = some e) :
    (sessionId, e) ∈ s.sessions := by
  obtain ⟨l₁, l₂, hl, -⟩ := List.lookup_eq_some_iff.mp h
  rw [hl]
  exact mem_append_right _ mem_cons_self

theorem slot_mem {p : String × SessionEntry} (h : p ∈ s.sessions) : slot p ∈ s.slots :=
  mem_map_of_mem h

theorem slots_armExpiry : (s.armExpiry sessionId now).slots = s.slots := by
  unfold Store.slots Store.armExpiry Store.update
  rw [map_map]
  apply map_congr_left
  intro p _
  show slot (if p.1 = sessionId then _ else p) = slot p
  split <;> rfl

/-- The slot of a request that starts or ends. -/
def bump (sessionId : String) (f : Int → Int) (c : Slot) : Slot :=
  if c.id = sessionId then { c with inFlight := f c.inFlight } else c

theorem slots_update (f : Int → Int) :
    (s.update sessionId fun e => { e with inFlight := f e.inFlight }).slots =
      s.slots.map (bump sessionId f) := by
  unfold Store.slots Store.update
  rw [map_map, map_map]
  apply map_congr_left
  intro p _
  show slot (if p.1 = sessionId then _ else p) = bump sessionId f (slot p)
  by_cases hp : p.1 = sessionId
  · rw [if_pos hp]
    exact (if_pos hp).symm
  · rw [if_neg hp]
    exact (if_neg hp).symm

theorem slots_enter (t : Store) (sessionId : String) (now : Int) :
    ((t.armExpiry sessionId now).enter sessionId).slots =
      t.slots.map (bump sessionId fun n => n + 1) := by
  refine (slots_update fun n => n + 1).trans ?_
  rw [slots_armExpiry]

theorem slots_leave (t : Store) (sessionId : String) (now : Int) :
    (t.leave sessionId now).slots = t.slots.map (bump sessionId fun n => max 0 (n - 1)) := by
  unfold Store.leave
  rw [slots_armExpiry]
  exact slots_update fun n => max 0 (n - 1)

theorem slots_delete : (s.delete sessionId).slots = s.slots.filter fun c => c.id ≠ sessionId := by
  unfold Store.slots Store.delete
  rw [filter_map]
  rfl

theorem removes_delete : Removes s (s.delete sessionId) where
  pending := rfl
  sublist := by
    rw [slots_delete]
    exact filter_sublist

theorem shrinks_delete (h : ∀ c ∈ s.slots, c.id = sessionId → c.inFlight ≤ 0) :
    Shrinks s (s.delete sessionId) where
  toRemoves := removes_delete
  busy c hc hpos := by
    rw [slots_delete, mem_filter]
    refine ⟨hc, ?_⟩
    rw [decide_eq_true_eq]
    intro hid
    have := h c hc hid
    omega

/-- Session ids are distinct. -/
def Store.Keyed (s : Store) : Prop := (s.slots.map Slot.id).Nodup

theorem slot_unique (hk : s.Keyed) {c d : Slot} (hc : c ∈ s.slots) (hd : d ∈ s.slots)
    (hid : c.id = d.id) : c = d :=
  inj_on_of_nodup_map hk hc hd hid

theorem shrinks_expire (hk : s.Keyed) : Shrinks s (s.expire sessionId now) := by
  unfold Store.expire
  split
  · exact Shrinks.refl s
  · rename_i e he
    have hmem := slot_mem (mem_of_get he)
    split
    · refine ⟨⟨rfl, ?_⟩, ?_⟩
      · rw [slots_armExpiry]
      · rw [slots_armExpiry]
        exact fun c hc _ => hc
    · rename_i hidle
      apply shrinks_delete
      intro c hc hid
      rw [slot_unique hk hc hmem hid]
      show e.inFlight ≤ 0
      omega

theorem Store.Keyed.mono (hk : s.Keyed) (h : Removes s t) : t.Keyed :=
  (h.sublist.map Slot.id).nodup hk

theorem shrinks_foldl {α : Type} {f : Store → α → Store} (xs : List α)
    (hf : ∀ t x, t.Keyed → Shrinks t (f t x)) (hk : s.Keyed) : Shrinks s (xs.foldl f s) := by
  induction xs generalizing s with
  | nil => exact Shrinks.refl s
  | cons x xs ih =>
    have hx := hf s x hk
    exact hx.trans (ih (hk.mono hx.toRemoves))

theorem shrinks_sweep (cfg : Config) (hk : s.Keyed) : Shrinks s (s.sweep cfg now) := by
  apply shrinks_foldl _ _ hk
  intro t p ht
  split
  · exact Shrinks.refl t
  split
  · exact Shrinks.refl t
  · exact shrinks_expire ht

theorem shrinks_closeAll (hk : s.Keyed) : Shrinks s (s.closeAll now) :=
  shrinks_foldl _ (fun _ _ ht => shrinks_expire ht) hk

end Store

/-! ## The invariant -/

def unannounced (is : List Init) : Nat := is.countP fun i => i.session.isNone

structure Inv (cfg : Config) (s : State) : Prop where
  keyed : s.store.Keyed
  serials : (s.store.slots.map Slot.serial).Nodup
  fresh : ∀ c ∈ s.store.slots, c.serial < s.next ∧ c.id ∈ s.used
  owner : ∀ q ∈ s.running, q.1 ∈ s.used ∧ ∀ c ∈ s.store.slots, c.id = q.1 → c.serial = q.2
  inFlight : ∀ c ∈ s.store.slots, c.inFlight = (s.running.count (c.id, c.serial) : Int)
  bound : s.store.slots.length + unannounced s.inits ≤ cfg.maxSessions
  pending : (s.inits.length : Int) ≤ s.store.pendingInitializes

section Steps

variable {cfg : Config} {s s' : State}

theorem inv_start : Inv cfg start where
  keyed := nodup_nil
  serials := nodup_nil
  fresh _ h := by cases h
  owner _ h := by cases h
  inFlight _ h := by cases h
  bound := Nat.zero_le _
  pending := Int.le_refl _

theorem inv_removes (h : Inv cfg s) {t : Store} (ht : Removes s.store t) :
    Inv cfg { s with store := t } where
  keyed := h.keyed.mono ht
  serials := (ht.sublist.map Slot.serial).nodup h.serials
  fresh c hc := h.fresh c (ht.sublist.subset hc)
  owner q hq := ⟨(h.owner q hq).1, fun c hc => (h.owner q hq).2 c (ht.sublist.subset hc)⟩
  inFlight c hc := h.inFlight c (ht.sublist.subset hc)
  bound := by
    have := ht.sublist.length_le
    have := h.bound
    show t.slots.length + unannounced s.inits ≤ cfg.maxSessions
    omega
  pending := by
    show (s.inits.length : Int) ≤ t.pendingInitializes
    rw [ht.pending]
    exact h.pending

theorem inv_bump (h : Inv cfg s) {t : Store} {f : Slot → Slot} {running : List (String × Nat)}
    (hslots : t.slots = s.store.slots.map f)
    (hpending : t.pendingInitializes = s.store.pendingInitializes)
    (hid : ∀ c, (f c).id = c.id) (hserial : ∀ c, (f c).serial = c.serial)
    (howner : ∀ q ∈ running, q.1 ∈ s.used ∧ ∀ c ∈ s.store.slots, c.id = q.1 → c.serial = q.2)
    (hcount : ∀ c ∈ s.store.slots, (f c).inFlight = (running.count (c.id, c.serial) : Int)) :
    Inv cfg { s with store := t, running := running } := by
  have hids : t.slots.map Slot.id = s.store.slots.map Slot.id := by
    rw [hslots, map_map]
    exact map_congr_left fun c _ => hid c
  have hserials : t.slots.map Slot.serial = s.store.slots.map Slot.serial := by
    rw [hslots, map_map]
    exact map_congr_left fun c _ => hserial c
  have hof : ∀ d ∈ t.slots, ∃ c ∈ s.store.slots, f c = d := by
    intro d hd
    rw [hslots] at hd
    exact mem_map.mp hd
  refine ⟨?_, ?_, ?_, ?_, ?_, ?_, ?_⟩
  · show (t.slots.map Slot.id).Nodup
    rw [hids]
    exact h.keyed
  · show (t.slots.map Slot.serial).Nodup
    rw [hserials]
    exact h.serials
  · intro d hd
    obtain ⟨c, hc, rfl⟩ := hof d hd
    rw [hid, hserial]
    exact h.fresh c hc
  · intro q hq
    refine ⟨(howner q hq).1, ?_⟩
    intro d hd hdq
    obtain ⟨c, hc, rfl⟩ := hof d hd
    rw [hid] at hdq
    rw [hserial]
    exact (howner q hq).2 c hc hdq
  · intro d hd
    obtain ⟨c, hc, rfl⟩ := hof d hd
    rw [hid, hserial]
    exact hcount c hc
  · show t.slots.length + unannounced s.inits ≤ cfg.maxSessions
    rw [hslots, length_map]
    exact h.bound
  · show (s.inits.length : Int) ≤ t.pendingInitializes
    rw [hpending]
    exact h.pending

theorem inv_handleExisting (h : Inv cfg s) {r : Request} {now : Int} {res : Option Refusal}
    (hex : handleExisting s r now = some (s', res)) : Inv cfg s' := by
  unfold handleExisting at hex
  obtain ⟨sessionId, -, hex⟩ := Option.bind_eq_some_iff.mp hex
  obtain ⟨e, he, hex⟩ := Option.map_eq_some_iff.mp hex
  split at hex
  · cases hex
    have hmem := slot_mem (mem_of_get he)
    refine inv_bump h (slots_enter s.store sessionId now) rfl ?_ ?_ ?_ ?_
    · intro c
      unfold bump
      split <;> rfl
    · intro c
      unfold bump
      split <;> rfl
    · intro q hq
      rcases mem_cons.mp hq with rfl | hq
      · refine ⟨(h.fresh _ hmem).2, ?_⟩
        intro c hc hid
        rw [slot_unique h.keyed hc hmem hid]
        rfl
      · exact h.owner q hq
    · intro c hc
      unfold bump
      by_cases hid : c.id = sessionId
      · have hce := slot_unique h.keyed hc hmem hid
        have hserial : c.serial = e.serial := by
          rw [hce]
          rfl
        rw [if_pos hid, h.inFlight c hc, hid, hserial, count_cons_self]
        push_cast
        rfl
      · rw [if_neg hid, h.inFlight c hc, count_cons_of_ne]
        intro heq
        exact hid (Prod.mk.inj heq).1.symm
  · cases hex
    exact h

theorem inv_finish (h : Inv cfg s) {sessionId : String} {serial : Nat} {now : Int}
    (hq : (sessionId, serial) ∈ s.running) :
    Inv cfg { s with
      store := s.store.leave sessionId now
      running := s.running.erase (sessionId, serial) } := by
  refine inv_bump h (slots_leave s.store sessionId now) rfl ?_ ?_ ?_ ?_
  · intro c
    unfold bump
    split <;> rfl
  · intro c
    unfold bump
    split <;> rfl
  · intro q hmem
    exact h.owner q (mem_of_mem_erase hmem)
  · intro c hc
    unfold bump
    by_cases hid : c.id = sessionId
    · -- the entry under this id is the one the request runs under
      have hserial : c.serial = serial := (h.owner _ hq).2 c hc hid
      have hpos : 0 < s.running.count (sessionId, serial) := count_pos_iff.mpr hq
      rw [if_pos hid, hid, hserial, count_erase_self]
      show max 0 (c.inFlight - 1) = _
      rw [h.inFlight c hc, hid, hserial]
      omega
    · rw [if_neg hid, h.inFlight c hc, count_erase_of_ne]
      intro heq
      exact hid (Prod.mk.inj heq).1

theorem slots_register {sessionId : String} {serial : Nat} {identity : SessionIdentity}
    {now : Int} {t : Store} (h : ∀ c ∈ t.slots, c.id ≠ sessionId) :
    (t.register sessionId serial identity now).slots = t.slots ++ [⟨sessionId, serial, 0⟩] := by
  unfold Store.slots Store.register
  rw [Assoc.set_of_notMem]
  · simp [slot]
  · intro hmem
    obtain ⟨p, hp, hid⟩ := mem_map.mp hmem
    exact h _ (slot_mem hp) hid

theorem inv_initialized (h : Inv cfg s) {i : Init} {sessionId : String} {now : Int}
    (hi : i ∈ s.inits) (hnone : i.session = none) (hid : sessionId ∉ s.used) :
    Inv cfg { s with
      store := s.store.register sessionId s.next i.identity now
      next := s.next + 1
      used := sessionId :: s.used
      inits := { i with session := some sessionId } :: s.inits.erase i } := by
  have hslots : (s.store.register sessionId s.next i.identity now).slots =
      s.store.slots ++ [⟨sessionId, s.next, 0⟩] := by
    apply slots_register
    intro c hc heq
    apply hid
    rw [← heq]
    exact (h.fresh c hc).2
  refine ⟨?_, ?_, ?_, ?_, ?_, ?_, ?_⟩
  · show ((s.store.register sessionId s.next i.identity now).slots.map Slot.id).Nodup
    rw [hslots, map_append, nodup_append]
    refine ⟨h.keyed, nodup_singleton _, ?_⟩
    intro a ha b hb hab
    obtain ⟨c, hc, rfl⟩ := mem_map.mp ha
    rw [map_singleton, mem_singleton] at hb
    apply hid
    have hcid : c.id = sessionId := by rw [hab, hb]
    rw [← hcid]
    exact (h.fresh c hc).2
  · show ((s.store.register sessionId s.next i.identity now).slots.map Slot.serial).Nodup
    rw [hslots, map_append, nodup_append]
    refine ⟨h.serials, nodup_singleton _, ?_⟩
    intro a ha b hb hab
    obtain ⟨c, hc, rfl⟩ := mem_map.mp ha
    rw [map_singleton, mem_singleton] at hb
    change b = s.next at hb
    have := (h.fresh c hc).1
    omega
  · intro c hc
    change c ∈ (s.store.register sessionId s.next i.identity now).slots at hc
    rw [hslots, mem_append, mem_singleton] at hc
    rcases hc with hc | rfl
    · exact ⟨Nat.lt_succ_of_lt (h.fresh c hc).1, mem_cons_of_mem _ (h.fresh c hc).2⟩
    · exact ⟨Nat.lt_succ_self _, mem_cons_self⟩
  · intro q hq
    refine ⟨mem_cons_of_mem _ (h.owner q hq).1, ?_⟩
    intro c hc hcq
    change c ∈ (s.store.register sessionId s.next i.identity now).slots at hc
    rw [hslots, mem_append, mem_singleton] at hc
    rcases hc with hc | rfl
    · exact (h.owner q hq).2 c hc hcq
    · refine absurd ?_ hid
      change sessionId = q.1 at hcq
      rw [hcq]
      exact (h.owner q hq).1
  · intro c hc
    change c ∈ (s.store.register sessionId s.next i.identity now).slots at hc
    rw [hslots, mem_append, mem_singleton] at hc
    rcases hc with hc | rfl
    · exact h.inFlight c hc
    · -- no request runs under a new id
      have hzero : s.running.count (sessionId, s.next) = 0 := by
        apply count_eq_zero_of_not_mem
        intro hmem
        exact hid (h.owner _ hmem).1
      show (0 : Int) = (s.running.count (sessionId, s.next) : Int)
      rw [hzero]
      rfl
  · have hbound := h.bound
    have herase : unannounced s.inits = unannounced (s.inits.erase i) + 1 := by
      unfold unannounced
      rw [(perm_cons_erase hi).countP_eq, countP_cons, hnone]
      rfl
    show (s.store.register sessionId s.next i.identity now).slots.length +
      unannounced ({ i with session := some sessionId } :: s.inits.erase i) ≤ cfg.maxSessions
    have hcons : unannounced ({ i with session := some sessionId } :: s.inits.erase i) =
        unannounced (s.inits.erase i) := by
      unfold unannounced
      rw [countP_cons]
      rfl
    rw [hslots, hcons, length_append, length_singleton]
    omega
  · have hlen := length_erase_of_mem hi
    have hpos := length_pos_of_mem hi
    have hpending := h.pending
    show (({ i with session := some sessionId } :: s.inits.erase i).length : Int) ≤
      s.store.pendingInitializes
    rw [length_cons, hlen]
    omega

theorem inv_beginInitialize (h : Inv cfg s) (identity : SessionIdentity) (factoryThrows : Bool)
    (hadmits : s.store.admits cfg = true) :
    Inv cfg (beginInitialize s identity factoryThrows) := by
  unfold Store.admits Store.activeCount at hadmits
  rw [decide_eq_true_eq] at hadmits
  have hpending := h.pending
  have hlen : s.store.slots.length = s.store.sessions.length := length_map ..
  have hle : unannounced s.inits ≤ s.inits.length := countP_le_length
  refine ⟨h.keyed, h.serials, h.fresh, h.owner, h.inFlight, ?_, ?_⟩
  · show s.store.slots.length + unannounced (if factoryThrows then s.inits else _) ≤ _
    split
    · exact h.bound
    · unfold unannounced
      rw [countP_cons]
      change s.store.slots.length + (unannounced s.inits + 1) ≤ _
      omega
  · show ((if factoryThrows then s.inits else _ : List Init).length : Int) ≤ _
    change _ ≤ s.store.pendingInitializes + 1
    split
    · omega
    · rw [length_cons]
      omega

theorem shrinks_handleDelete (h : Inv cfg s) (r : Request) (now : Int) :
    Shrinks s.store (handleDelete s r now).1.store := by
  unfold handleDelete
  split
  · exact Shrinks.refl _
  · split
    · exact shrinks_expire h.keyed
    · exact Shrinks.refl _

theorem inv_handlePost (h : Inv cfg s) {r : Request} {now : Int} {factoryThrows : Bool} :
    Inv cfg (handlePost cfg s r now factoryThrows).1 := by
  unfold handlePost
  split
  · rename_i res hex
    exact inv_handleExisting h hex
  · split
    · exact h
    · rename_i identity hrej hauth
      apply inv_beginInitialize h
      unfold rejectInitialize at hrej
      split at hrej
      · cases hrej
      split at hrej
      · cases hrej
      · rename_i hadmits
        rw [Bool.not_eq_true, Bool.not_eq_false'] at hadmits
        exact hadmits
    · exact h

theorem unannounced_replace {is : List Init} {i j : Init} (hi : i ∈ is)
    (hj : j.session = i.session) : unannounced (j :: is.erase i) = unannounced is := by
  unfold unannounced
  rw [(perm_cons_erase hi).countP_eq, countP_cons, countP_cons, hj]

theorem length_replace {is : List Init} {i j : Init} (hi : i ∈ is) :
    (j :: is.erase i).length = is.length := by
  have hpos := length_pos_of_mem hi
  rw [length_cons, length_erase_of_mem hi]
  omega

theorem shrinks_retire (h : Inv cfg s) (i : Init) (now : Int) :
    Shrinks s.store (retireInitialize s.store i now) := by
  unfold retireInitialize
  split
  · exact Shrinks.refl _
  · exact shrinks_expire h.keyed

/-- The fields the invariant does not read may change. -/
theorem inv_congr (h : Inv cfg s) (hstore : s'.store = s.store) (hnext : s'.next = s.next)
    (hused : s'.used = s.used) (hrunning : s'.running = s.running)
    (hinits : unannounced s'.inits = unannounced s.inits)
    (hlen : s'.inits.length = s.inits.length) : Inv cfg s' := by
  refine ⟨?_, ?_, ?_, ?_, ?_, ?_, ?_⟩
  · rw [hstore]
    exact h.keyed
  · rw [hstore]
    exact h.serials
  · rw [hstore, hnext, hused]
    exact h.fresh
  · rw [hstore, hrunning, hused]
    exact h.owner
  · rw [hstore, hrunning]
    exact h.inFlight
  · rw [hstore, hinits]
    exact h.bound
  · rw [hstore, hlen]
    exact h.pending

theorem inv_handleDelete (h : Inv cfg s) {r : Request} {now : Int} :
    Inv cfg (handleDelete s r now).1 := by
  refine inv_congr (inv_removes h (shrinks_handleDelete h r now).toRemoves) ?_ ?_ ?_ ?_ ?_ ?_
  all_goals
    unfold handleDelete
    split
    · rfl
    · split <;> rfl

theorem inv_endInitialize (h : Inv cfg s) {i : Init} (hi : i ∈ s.inits) :
    Inv cfg { s with store := s.store.endInitialize, inits := s.inits.erase i } := by
  have hlen := length_erase_of_mem hi
  have hpos := length_pos_of_mem hi
  have hpending := h.pending
  refine ⟨h.keyed, h.serials, h.fresh, h.owner, h.inFlight, ?_, ?_⟩
  · have hle : unannounced (s.inits.erase i) ≤ unannounced s.inits :=
      (erase_sublist).countP_le
    have hbound := h.bound
    show s.store.slots.length + unannounced (s.inits.erase i) ≤ cfg.maxSessions
    omega
  · show ((s.inits.erase i).length : Int) ≤ max 0 (s.store.pendingInitializes - 1)
    rw [hlen]
    omega

theorem inv_step (h : Inv cfg s) {l : Label} (hs : step cfg s l = some s') : Inv cfg s' := by
  cases l with
  | post r now factoryThrows =>
    cases hs
    exact inv_handlePost h
  | get r now =>
    cases hs
    unfold handleGet
    split
    · rename_i res hex
      exact inv_handleExisting h hex
    · exact h
  | delete r now =>
    cases hs
    exact inv_handleDelete h
  | answerDelete serial =>
    dsimp only [step] at hs
    split at hs
    · cases hs
      exact inv_congr h rfl rfl rfl rfl rfl rfl
    · cases hs
  | finish sessionId serial now =>
    dsimp only [step] at hs
    split at hs
    · rename_i hq
      cases hs
      exact inv_finish h hq
    · cases hs
  | initialized i sessionId now =>
    dsimp only [step] at hs
    split at hs
    · rename_i hi
      cases hs
      exact inv_initialized h hi.1 hi.2.1 hi.2.2.2
    · cases hs
  | initializeFails i now =>
    dsimp only [step] at hs
    split at hs
    · rename_i hi
      cases hs
      refine inv_congr (inv_removes h (shrinks_retire h i now).toRemoves) rfl rfl rfl rfl ?_ ?_
      · exact unannounced_replace hi.1 rfl
      · exact length_replace hi.1
    · cases hs
  | endInitialize i =>
    dsimp only [step] at hs
    split at hs
    · rename_i hi
      cases hs
      exact inv_endInitialize h hi
    · cases hs
  | idle sessionId now =>
    dsimp only [step] at hs
    split at hs
    · cases hs
      exact inv_removes h (shrinks_expire h.keyed).toRemoves
    · cases hs
  | sweep now =>
    cases hs
    exact inv_removes h (shrinks_sweep cfg h.keyed).toRemoves
  | transportClosed sessionId =>
    cases hs
    exact inv_removes h removes_delete
  | close now =>
    cases hs
    exact inv_removes h (shrinks_closeAll h.keyed).toRemoves

end Steps

/-! ## Every slot is released -/

def noFactoryThrows : State → Label → Prop
  | _, .post _ _ factoryThrows => factoryThrows = false
  | _, _ => True

/-- One reserved slot for each handshake that runs. -/
def Slots (s : State) : Prop := s.store.pendingInitializes = (s.inits.length : Int)

section Release

variable {cfg : Config} {s s' : State}

theorem handleExisting_keeps {r : Request} {now : Int} {res : Option Refusal}
    (h : handleExisting s r now = some (s', res)) :
    s'.store.pendingInitializes = s.store.pendingInitializes ∧ s'.inits = s.inits := by
  unfold handleExisting at h
  obtain ⟨sessionId, -, h⟩ := Option.bind_eq_some_iff.mp h
  obtain ⟨e, -, h⟩ := Option.map_eq_some_iff.mp h
  split at h
  · cases h
    exact ⟨rfl, rfl⟩
  · cases h
    exact ⟨rfl, rfl⟩

theorem slots_step (h : Inv cfg s) (hslots : Slots s) {l : Label} (hg : noFactoryThrows s l)
    (hs : step cfg s l = some s') : Slots s' := by
  unfold Slots at hslots ⊢
  cases l with
  | post r now factoryThrows =>
    cases hs
    change factoryThrows = false at hg
    subst hg
    unfold handlePost
    split
    · rename_i res hex
      obtain ⟨h₁, h₂⟩ := handleExisting_keeps hex
      rw [h₁, h₂]
      exact hslots
    · split
      · exact hslots
      · show s.store.pendingInitializes + 1 = _
        rw [hslots]
        rfl
      · exact hslots
  | get r now =>
    cases hs
    unfold handleGet
    split
    · rename_i res hex
      obtain ⟨h₁, h₂⟩ := handleExisting_keeps hex
      rw [h₁, h₂]
      exact hslots
    · exact hslots
  | delete r now =>
    cases hs
    rw [(shrinks_handleDelete h r now).pending, hslots]
    unfold handleDelete
    split
    · rfl
    · split <;> rfl
  | answerDelete serial =>
    dsimp only [step] at hs
    split at hs
    · cases hs
      exact hslots
    · cases hs
  | finish sessionId serial now =>
    dsimp only [step] at hs
    split at hs
    · cases hs
      exact hslots
    · cases hs
  | initialized i sessionId now =>
    dsimp only [step] at hs
    split at hs
    · rename_i hi
      cases hs
      show s.store.pendingInitializes = _
      rw [length_replace hi.1]
      exact hslots
    · cases hs
  | initializeFails i now =>
    dsimp only [step] at hs
    split at hs
    · rename_i hi
      cases hs
      rw [(shrinks_retire h i now).pending, length_replace hi.1]
      exact hslots
    · cases hs
  | endInitialize i =>
    dsimp only [step] at hs
    split at hs
    · rename_i hi
      cases hs
      have hlen := length_erase_of_mem hi
      have hpos := length_pos_of_mem hi
      show max 0 (s.store.pendingInitializes - 1) = ((s.inits.erase i).length : Int)
      rw [hlen]
      omega
    · cases hs
  | idle sessionId now =>
    dsimp only [step] at hs
    split at hs
    · cases hs
      rw [(shrinks_expire h.keyed).pending]
      exact hslots
    · cases hs
  | sweep now =>
    cases hs
    rw [(shrinks_sweep cfg h.keyed).pending]
    exact hslots
  | transportClosed sessionId =>
    cases hs
    exact hslots
  | close now =>
    cases hs
    rw [(shrinks_closeAll h.keyed).pending]
    exact hslots

theorem slots_inductive (cfg : Config) :
    (system cfg).InductiveOn noFactoryThrows fun s => Inv cfg s ∧ Slots s where
  init s hs := by
    rw [hs]
    exact ⟨inv_start, rfl⟩
  step s l s' h hg hs := ⟨inv_step h.1 hs, slots_step h.1 h.2 hg hs⟩

def Retires : Label → Prop
  | .idle _ _ | .sweep _ => True
  | _ => False

theorem shrinks_retires (h : Inv cfg s) {l : Label} (hl : Retires l)
    (hs : step cfg s l = some s') : Shrinks s.store s'.store := by
  cases l with
  | idle sessionId now =>
    dsimp only [step] at hs
    split at hs
    · cases hs
      exact shrinks_expire h.keyed
    · cases hs
  | sweep now =>
    cases hs
    exact shrinks_sweep cfg h.keyed
  | _ => cases hl

/-- In every run in which no transport factory throws: the live sessions stay within
`maxSessions`, one slot is reserved for each handshake that runs, an entry counts its
running requests, and neither an idle timer nor a sweep takes a session with a
request in flight. -/
theorem admission_bound (cfg : Config) {s : State}
    (h : (system cfg).ReachableOn noFactoryThrows s) :
    s.store.sessions.length ≤ cfg.maxSessions ∧
      s.store.pendingInitializes = (s.inits.length : Int) ∧
      (∀ p ∈ s.store.sessions,
        p.2.inFlight = (s.running.count (p.1, p.2.serial) : Int) ∧ 0 ≤ p.2.inFlight) ∧
      ∀ l s', Retires l → step cfg s l = some s' → ∀ p ∈ s.store.sessions,
        (p.1, p.2.serial) ∈ s.running →
          ∃ p' ∈ s'.store.sessions, p'.1 = p.1 ∧ p'.2.serial = p.2.serial := by
  obtain ⟨hI, hslots⟩ := (slots_inductive cfg).reachable h
  refine ⟨?_, hslots, ?_, ?_⟩
  · have hlen : s.store.slots.length = s.store.sessions.length := length_map ..
    have hbound := hI.bound
    omega
  · intro p hp
    have hcount : p.2.inFlight = (s.running.count (p.1, p.2.serial) : Int) :=
      hI.inFlight _ (slot_mem hp)
    refine ⟨hcount, ?_⟩
    rw [hcount]
    exact Int.natCast_nonneg _
  · intro l s' hl hs p hp hrun
    have hpos : 0 < s.running.count (p.1, p.2.serial) := count_pos_iff.mpr hrun
    have hcount : (slot p).inFlight = (s.running.count (p.1, p.2.serial) : Int) :=
      hI.inFlight _ (slot_mem hp)
    have hmem := (shrinks_retires hI hl hs).busy (slot p) (slot_mem hp) (by omega)
    obtain ⟨p', hp', heq⟩ := mem_map.mp hmem
    exact ⟨p', hp', congrArg Slot.id heq, congrArg Slot.serial heq⟩

end Release

section Leak

def caller : SessionIdentity := ⟨.agent, "client", "client", .token, none⟩

def opening : Request := ⟨none, true, some caller⟩

def firstId : String := "00000000-0000-4000-8000-000000000000"

def secondId : String := "00000000-0000-4000-8000-000000000001"

def onSession (sessionId : String) : Request := ⟨some sessionId, false, some caller⟩

def small : Config := ⟨1000, 2, 1⟩

instance decidableNoFactoryThrows : (s : State) → (l : Label) → Decidable (noFactoryThrows s l)
  | _, .post _ _ factoryThrows => inferInstanceAs (Decidable (factoryThrows = false))
  | _, .get _ _ | _, .delete _ _ | _, .answerDelete _ | _, .finish _ _ _ | _, .initialized _ _ _
  | _, .initializeFails _ _ | _, .endInitialize _ | _, .idle _ _ | _, .sweep _
  | _, .transportClosed _ | _, .close _ => .isTrue trivial

def busyRun : List Label :=
  [.post opening 0 false, .initialized ⟨caller, none, false⟩ firstId 0,
    .endInitialize ⟨caller, some firstId, false⟩, .post (onSession firstId) 1 false]

theorem busyRun_eq : (LTS.exec (LTS.guardStep noFactoryThrows (step small)) start busyRun).any
    (fun s => s.running == [(firstId, 0)]) = true := by decide +kernel

theorem admission_bound_busy : ∃ s : State, s.running = [(firstId, 0)] ∧
    s.store.sessions.length ≤ small.maxSessions ∧
      s.store.pendingInitializes = (s.inits.length : Int) := by
  obtain ⟨s, hs, hrun⟩ := (Option.any_eq_true _ _).mp busyRun_eq
  have hb := admission_bound small (LTS.reachableOn_of_exec rfl hs)
  exact ⟨s, beq_iff_eq.mp hrun, hb.1, hb.2.1⟩

/-- The slot of a handshake whose transport factory throws is never released. -/
theorem slot_leak : ¬ ∀ (cfg : Config) (s : State), (system cfg).Reachable s →
    s.store.pendingInitializes = (s.inits.length : Int) := by
  intro h
  have hs : LTS.exec (step small) start [.post opening 0 true] =
      some (beginInitialize start caller true) := rfl
  have := h small _ ⟨start, _, rfl, LTS.runOn_of_exec_any hs⟩
  exact absurd this (by decide)

end Leak

/-! ## A closed session stays closed -/

/-- A DELETE finds no request of its session in flight. -/
def noneInFlight (s : State) : Label → Prop
  | .delete r _ => ∀ p, serves s r = some p → (p.1, p.2.serial) ∉ s.running
  | _ => True

/-- The entries that a DELETE was for are not live. -/
def Gone (s : State) : Prop :=
  ∀ n, n ∈ s.deleting ∨ n ∈ s.closed → n < s.next ∧ ∀ c ∈ s.store.slots, c.serial ≠ n

/-- Entries keep their serials, and new ones get new serials. -/
structure Serials (s s' : State) : Prop where
  next : s.next ≤ s'.next
  slots : ∀ c ∈ s'.store.slots, (∃ d ∈ s.store.slots, d.serial = c.serial) ∨ s.next ≤ c.serial
  answered : ∀ n, n ∈ s'.deleting ∨ n ∈ s'.closed → n ∈ s.deleting ∨ n ∈ s.closed

section Closing

variable {cfg : Config} {s s' : State}

theorem Gone.mono (h : Gone s) (hs : Serials s s') : Gone s' := by
  intro n hn
  obtain ⟨hlt, hslots⟩ := h n (hs.answered n hn)
  refine ⟨Nat.lt_of_lt_of_le hlt hs.next, ?_⟩
  intro c hc
  rcases hs.slots c hc with ⟨d, hd, hserial⟩ | hge
  · rw [← hserial]
    exact hslots d hd
  · omega

theorem serials_removes {t : Store} (ht : Removes s.store t) (hstore : s'.store = t)
    (hnext : s'.next = s.next) (hdel : s'.deleting = s.deleting) (hcl : s'.closed = s.closed) :
    Serials s s' where
  next := Nat.le_of_eq hnext.symm
  slots c hc := by
    rw [hstore] at hc
    exact .inl ⟨c, ht.sublist.subset hc, rfl⟩
  answered n hn := by
    rw [hdel, hcl] at hn
    exact hn

theorem serials_bump {t : Store} {sessionId : String} {f : Int → Int}
    (ht : t.slots = s.store.slots.map (bump sessionId f)) (hstore : s'.store = t)
    (hnext : s'.next = s.next) (hdel : s'.deleting = s.deleting) (hcl : s'.closed = s.closed) :
    Serials s s' where
  next := Nat.le_of_eq hnext.symm
  slots c hc := by
    rw [hstore, ht] at hc
    obtain ⟨d, hd, rfl⟩ := mem_map.mp hc
    refine .inl ⟨d, hd, ?_⟩
    unfold bump
    split <;> rfl
  answered n hn := by
    rw [hdel, hcl] at hn
    exact hn

theorem serials_handleExisting {r : Request} {now : Int} {res : Option Refusal}
    (h : handleExisting s r now = some (s', res)) : Serials s s' := by
  unfold handleExisting at h
  obtain ⟨sessionId, -, h⟩ := Option.bind_eq_some_iff.mp h
  obtain ⟨e, -, h⟩ := Option.map_eq_some_iff.mp h
  split at h
  · cases h
    exact serials_bump (slots_enter s.store sessionId now) rfl rfl rfl rfl
  · cases h
    exact serials_removes (Shrinks.refl _).toRemoves rfl rfl rfl rfl

theorem serials_step (h : Inv cfg s) {l : Label} (hl : ∀ r now, l ≠ .delete r now)
    (hs : step cfg s l = some s') : Serials s s' := by
  cases l with
  | post r now factoryThrows =>
    cases hs
    unfold handlePost
    split
    · rename_i res hex
      exact serials_handleExisting hex
    · split
      · exact serials_removes (Shrinks.refl _).toRemoves rfl rfl rfl rfl
      · exact ⟨Nat.le_refl _, fun c hc => .inl ⟨c, hc, rfl⟩, fun n hn => hn⟩
      · exact serials_removes (Shrinks.refl _).toRemoves rfl rfl rfl rfl
  | get r now =>
    cases hs
    unfold handleGet
    split
    · rename_i res hex
      exact serials_handleExisting hex
    · exact serials_removes (Shrinks.refl _).toRemoves rfl rfl rfl rfl
  | delete r now => exact absurd rfl (hl r now)
  | answerDelete serial =>
    dsimp only [step] at hs
    split at hs
    · rename_i hmem
      cases hs
      refine ⟨Nat.le_refl _, fun c hc => .inl ⟨c, hc, rfl⟩, ?_⟩
      intro n hn
      rcases hn with hn | hn
      · exact .inl (mem_of_mem_erase hn)
      · rcases mem_cons.mp hn with rfl | hn
        · exact .inl hmem
        · exact .inr hn
    · cases hs
  | finish sessionId serial now =>
    dsimp only [step] at hs
    split at hs
    · cases hs
      exact serials_bump (slots_leave s.store sessionId now) rfl rfl rfl rfl
    · cases hs
  | initialized i sessionId now =>
    dsimp only [step] at hs
    split at hs
    · rename_i hi
      cases hs
      refine ⟨Nat.le_succ _, ?_, fun n hn => hn⟩
      intro c hc
      change c ∈ (s.store.register sessionId s.next i.identity now).slots at hc
      rw [slots_register, mem_append, mem_singleton] at hc
      · rcases hc with hc | rfl
        · exact .inl ⟨c, hc, rfl⟩
        · exact .inr (Nat.le_refl _)
      · intro d hd heq
        apply hi.2.2.2
        rw [← heq]
        exact (h.fresh d hd).2
    · cases hs
  | initializeFails i now =>
    dsimp only [step] at hs
    split at hs
    · cases hs
      exact serials_removes (shrinks_retire h i now).toRemoves rfl rfl rfl rfl
    · cases hs
  | endInitialize i =>
    dsimp only [step] at hs
    split at hs
    · cases hs
      exact ⟨Nat.le_refl _, fun c hc => .inl ⟨c, hc, rfl⟩, fun n hn => hn⟩
    · cases hs
  | idle sessionId now =>
    dsimp only [step] at hs
    split at hs
    · cases hs
      exact serials_removes (shrinks_expire h.keyed).toRemoves rfl rfl rfl rfl
    · cases hs
  | sweep now =>
    cases hs
    exact serials_removes (shrinks_sweep cfg h.keyed).toRemoves rfl rfl rfl rfl
  | transportClosed sessionId =>
    cases hs
    exact serials_removes removes_delete rfl rfl rfl rfl
  | close now =>
    cases hs
    exact serials_removes (shrinks_closeAll h.keyed).toRemoves rfl rfl rfl rfl

/-- A DELETE that finds no request of its session takes the session away. -/
theorem gone_delete (h : Inv cfg s) (hgone : Gone s) {r : Request} {now : Int}
    (hg : noneInFlight s (.delete r now)) : Gone (handleDelete s r now).1 := by
  unfold handleDelete
  cases hreq : requestSessionId r with
  | none => exact hgone
  | some sessionId =>
    cases hget : s.store.get sessionId with
    | none =>
      rw [Option.bind_some, hget]
      exact hgone
    | some e =>
      rw [Option.bind_some, hget, Option.map_some]
      dsimp only
      split
      · rename_i hsame
        have hserves : serves s r = some (sessionId, e) := by
          unfold serves
          rw [hreq, Option.bind_some, hget, Option.bind_some, if_pos hsame]
        have hnot := hg _ hserves
        have hmem := slot_mem (mem_of_get hget)
        have hzero : e.inFlight = 0 := by
          have hcount : e.inFlight = (s.running.count (sessionId, e.serial) : Int) :=
            h.inFlight _ hmem
          rw [hcount, count_eq_zero_of_not_mem hnot]
          rfl
        have hexpire : s.store.expire sessionId now = s.store.delete sessionId := by
          unfold Store.expire
          rw [hget]
          dsimp only
          rw [if_neg (by omega)]
        have hslots : (s.store.expire sessionId now).slots =
            s.store.slots.filter fun c => c.id ≠ sessionId := by
          rw [hexpire, slots_delete]
        intro n hn
        have hcases : n = e.serial ∨ n ∈ s.deleting ∨ n ∈ s.closed := by
          rcases hn with hn | hn
          · rcases mem_cons.mp hn with hn | hn
            · exact .inl hn
            · exact .inr (.inl hn)
          · exact .inr (.inr hn)
        rcases hcases with rfl | hn
        · refine ⟨(h.fresh _ hmem).1, ?_⟩
          intro c hc heq
          change c ∈ (s.store.expire sessionId now).slots at hc
          rw [hslots, mem_filter, decide_eq_true_eq] at hc
          have := inj_on_of_nodup_map h.serials hc.1 hmem heq
          rw [this] at hc
          exact hc.2 rfl
        · refine ⟨(hgone n hn).1, ?_⟩
          intro c hc
          change c ∈ (s.store.expire sessionId now).slots at hc
          rw [hslots, mem_filter] at hc
          exact (hgone n hn).2 c hc.1
      · exact hgone

theorem gone_inductive (cfg : Config) :
    (system cfg).InductiveOn noneInFlight fun s => Inv cfg s ∧ Gone s where
  init s hs := by
    rw [hs]
    refine ⟨inv_start, ?_⟩
    intro n hn
    rcases hn with hn | hn <;> cases hn
  step s l s' h hg hs := by
    refine ⟨inv_step h.1 hs, ?_⟩
    by_cases hl : ∃ r now, l = .delete r now
    · obtain ⟨r, now, rfl⟩ := hl
      cases hs
      exact gone_delete h.1 h.2 hg
    · apply h.2.mono
      apply serials_step h.1 _ hs
      intro r now heq
      exact hl ⟨r, now, heq⟩

/-- In every run in which a DELETE never finds a request of its session in flight, a
session whose DELETE was answered `session closed` serves no later request. -/
theorem closed_stays_closed (cfg : Config) {s : State}
    (h : (system cfg).ReachableOn noneInFlight s) {r : Request} {p : String × SessionEntry}
    (hserves : serves s r = some p) : p.2.serial ∉ s.closed := by
  intro hmem
  unfold serves at hserves
  obtain ⟨sessionId, -, hserves⟩ := Option.bind_eq_some_iff.mp hserves
  obtain ⟨e, he, hserves⟩ := Option.bind_eq_some_iff.mp hserves
  split at hserves
  · cases hserves
    have hgone := ((gone_inductive cfg).reachable h).2
    exact (hgone _ (.inr hmem)).2 _ (slot_mem (mem_of_get he)) rfl
  · cases hserves

end Closing

section Deferred

instance decidableNoneInFlight : (s : State) → (l : Label) → Decidable (noneInFlight s l)
  | s, .delete r _ =>
    match h : serves s r with
    | none => .isTrue fun p hp => by
      rw [h] at hp
      cases hp
    | some p => decidable_of_iff ((p.1, p.2.serial) ∉ s.running) ⟨fun hn q hq => by
        rw [h] at hq
        cases hq
        exact hn, fun hn => hn p h⟩
  | _, .post _ _ _ | _, .get _ _ | _, .answerDelete _ | _, .finish _ _ _ | _, .initialized _ _ _
  | _, .initializeFails _ _ | _, .endInitialize _ | _, .idle _ _ | _, .sweep _
  | _, .transportClosed _ | _, .close _ => .isTrue trivial

def idleDelete : List Label :=
  [.post opening 0 false, .initialized ⟨caller, none, false⟩ firstId 0,
    .endInitialize ⟨caller, some firstId, false⟩, .post opening 1 false,
    .initialized ⟨caller, none, false⟩ secondId 1, .delete (onSession firstId) 2, .answerDelete 0]

theorem idleDelete_eq : (LTS.exec (LTS.guardStep noneInFlight (step small)) start idleDelete).any
    (fun s => s.closed == [0] && (serves s (onSession secondId)).isSome) = true := by
  decide +kernel

theorem closed_stays_closed_idle : ∃ (s : State) (p : String × SessionEntry), s.closed = [0] ∧
    serves s (onSession secondId) = some p ∧ p.2.serial ∉ s.closed := by
  obtain ⟨s, hs, h⟩ := (Option.any_eq_true _ _).mp idleDelete_eq
  rw [Bool.and_eq_true, beq_iff_eq] at h
  obtain ⟨p, hp⟩ := Option.isSome_iff_exists.mp h.2
  exact ⟨s, p, h.1, hp, closed_stays_closed small (LTS.reachableOn_of_exec rfl hs) hp⟩

/-- A DELETE that comes while a request runs is answered, and the session goes on. -/
def busyDelete : List Label :=
  busyRun ++ [.delete (onSession firstId) 2, .answerDelete 0]

theorem busyDelete_eq : (LTS.exec (step small) start busyDelete).any
    (fun s => (serves s (onSession firstId)).any fun p => decide (p.2.serial ∈ s.closed)) =
      true := by
  decide +kernel

theorem deleted_session_serves : ¬ ∀ (cfg : Config) (s : State) (r : Request)
    (p : String × SessionEntry), (system cfg).Reachable s → serves s r = some p →
      p.2.serial ∉ s.closed := by
  intro h
  obtain ⟨s, hs, hany⟩ := (Option.any_eq_true _ _).mp busyDelete_eq
  obtain ⟨p, hp, hmem⟩ := (Option.any_eq_true _ _).mp hany
  exact h small s _ p ⟨start, _, rfl, LTS.runOn_of_exec_any hs⟩ hp (of_decide_eq_true hmem)

end Deferred

end OpenBrain.Server.Transport
