import Mathlib.Data.List.Pairwise
import OpenBrain.Server.Realtime.RecoveryRun

/-!
# Generated ids (`append`, `trackNextId`, `compactWal`)

The counter of a store is one more than the largest number among the ids it replayed or
generated, so ids repeat when a replay finds no row of the last one: a compaction leaves out what
was purged, and the next restart but one begins anew. A run is `Fresh` when that does not happen,
when the counter can still be counted up, and when no caller gives an id that is generated too.
**Results.** `ids_never_reused` over fresh runs; `purged_id_again` is a run of two restarts.
-/
namespace OpenBrain.Core.Ecma

/-- `n < m` of an integer and a number that is an integer or infinite. -/
def Number.below (n m : Number) : Bool :=
  match n.toInt, m.toInt with
  | some i, some j => decide (i < j)
  | some _, none => true
  | none, _ => false

theorem Number.below_trans {a b c : Number} (h : a.below b = true) (h' : b.below c = true) :
    a.below c = true := by
  unfold below at h h' ⊢
  split at h
  · rename_i i j ha hb
    rw [hb] at h'
    rw [ha]
    split at h'
    · rename_i j' k hj hc
      cases hj
      rw [hc]
      simp only [decide_eq_true_eq] at h h' ⊢
      omega
    · rename_i hc
      rw [hc]
    · rename_i hj
      cases hj
  · rename_i hb
    rw [hb] at h'
    cases h'
  · cases h

theorem Number.below_toInt {n m : Number} (h : n.below m = true) : ∃ i, n.toInt = some i := by
  unfold below at h
  split at h
  · rename_i hn _
    exact ⟨_, hn⟩
  · rename_i hn _
    exact ⟨_, hn⟩
  · cases h

theorem Number.below_of_not {n m k : Number} (h : n.below m = true) (hk : ¬ k.below m = true) :
    n.below k = true := by
  obtain ⟨i, hi⟩ := below_toInt h
  unfold below at h hk ⊢
  rw [hi] at h ⊢
  cases hkint : k.toInt with
  | none => rfl
  | some l =>
    rw [hkint] at hk
    cases hmint : m.toInt with
    | none =>
      rw [hmint] at hk
      exact absurd rfl hk
    | some j =>
      rw [hmint] at h hk
      simp only [decide_eq_true_eq] at h hk ⊢
      omega

theorem value_ecmaTok_zero {d : Dec} (h : d.coeff = 0) : (ecmaTok d).value.coeff = 0 := by
  unfold ecmaTok
  rw [if_pos h]
  decide

theorem toInt_of_numText {d d' : Double} (h : numText d = numText d') :
    Number.toInt (.finite d) = Number.toInt (.finite d') := by
  have htok : (ecmaTok d.1).value = (ecmaTok d'.1).value := by
    rw [text_injective (ecmaTok_valid d.1) (ecmaTok_valid d'.1) h]
  have hzero : ∀ {x : Double}, x.1.coeff = 0 → Number.toInt (.finite x) = some 0 := by
    intro x hx
    have hexp : x.1.exp = 0 := by
      rw [Dec.eq_zero hx]
      rfl
    unfold Number.toInt
    simp [hx, hexp]
  by_cases hd : d.1.coeff = 0
  · by_cases hd' : d'.1.coeff = 0
    · rw [hzero hd, hzero hd']
    · rw [value_ecmaTok hd'] at htok
      rw [← htok, value_ecmaTok_zero hd] at hd'
      exact absurd rfl hd'
  · by_cases hd' : d'.1.coeff = 0
    · rw [value_ecmaTok hd] at htok
      rw [htok, value_ecmaTok_zero hd'] at hd
      exact absurd rfl hd
    · rw [value_ecmaTok hd, value_ecmaTok hd'] at htok
      have hsame : d = d' := Subtype.ext htok
      rw [hsame]

end OpenBrain.Core.Ecma

namespace OpenBrain.Server.Realtime
open OpenBrain.Core OpenBrain.Core.Ecma

/-- Numbers one of which is below the other, itself below a third, make two ids. -/
theorem rwId_ne {n m k : Number} (h : n.below m = true) (hm : m.below k = true) :
    rwId n ≠ rwId m := by
  intro heq
  obtain ⟨i, hi⟩ := Number.below_toInt h
  obtain ⟨j, hj⟩ := Number.below_toInt hm
  have htext : Number.text n = Number.text m := List.append_cancel_left heq
  cases n with
  | inf neg => cases hi
  | nan => cases hi
  | finite d =>
    cases m with
    | inf neg => cases hj
    | nan => cases hj
    | finite d' =>
      have hsame := toInt_of_numText htext
      unfold Number.below at h
      rw [hsame, hj] at h
      simp at h

namespace RecoveryWalStore

/-! ## The counter over a replay -/

def rowNext (budget : RecoveryWalBudget) : RecoveryWalRecord → Option Number
  | .append scope item =>
    match workingSetScopeKey scope with
    | .error _ => none
    | .ok _ =>
      if isReplayItemWithinBudget budget item then
        (generatedDigits item.id).map fun digits =>
          Number.succ (Number.ofDec (Dec.make false (digitsVal digits) 0))
      else none
  | _ => none

variable {dates : Dates} {store : RecoveryWalStore} {n m : Number}

theorem trackNextId_eq (nextId : Number) (id : Str) :
    trackNextId nextId id =
      match generatedDigits id with
      | none => nextId
      | some digits =>
        let next := Number.succ (Number.ofDec (Dec.make false (digitsVal digits) 0))
        if nextId.below next then next else nextId := by
  unfold trackNextId
  cases generatedDigits id with
  | none => rfl
  | some digits =>
    dsimp only
    unfold Number.below
    cases nextId.toInt with
    | none => rfl
    | some i =>
      cases (Number.succ (Number.ofDec (Dec.make false (digitsVal digits) 0))).toInt with
      | none => rfl
      | some j => simp only [decide_eq_true_eq]

theorem nextId_apply (dates : Dates) (store : RecoveryWalStore) (row : RecoveryWalRecord) :
    (applyWalRecord dates store row).nextId =
      match rowNext store.budget row with
      | none => store.nextId
      | some next => if store.nextId.below next then next else store.nextId := by
  unfold applyWalRecord rowNext
  cases row with
  | append scope item =>
    dsimp only
    cases workingSetScopeKey scope with
    | error e => rfl
    | ok key =>
      dsimp only
      unfold applyAppendRecord
      split
      · dsimp only
        rw [trackNextId_eq]
        cases generatedDigits item.id with
        | none => rfl
        | some digits => rfl
      · rfl
  | mark scope id action status reviewed_at updated_at =>
    dsimp only
    split
    · rfl
    · split
      · rfl
      · split
        · rfl
        · rfl
  | purge scope id =>
    dsimp only
    split
    · rfl
    · split
      · rfl
      · rfl

/-- The counter is not put back. -/
theorem below_apply (dates : Dates) (row : RecoveryWalRecord) (h : n.below store.nextId = true) :
    n.below (applyWalRecord dates store row).nextId = true := by
  rw [nextId_apply]
  split
  · exact h
  · split
    · rename_i hnext
      exact Number.below_trans h hnext
    · exact h

/-- It is put to what a row says, if it is not past it. -/
theorem below_apply_row (dates : Dates) {row : RecoveryWalRecord}
    (hrow : rowNext store.budget row = some m) (h : n.below m = true) :
    n.below (applyWalRecord dates store row).nextId = true := by
  rw [nextId_apply, hrow]
  dsimp only
  split
  · exact h
  · rename_i hnot
    exact Number.below_of_not h hnot

theorem below_replay {rows : List RecoveryWalRecord} (h : n.below store.nextId = true) :
    n.below (replayRows dates store rows).nextId = true := by
  induction rows generalizing store with
  | nil => exact h
  | cons row rows ih => exact ih (below_apply dates row h)

theorem below_replay_row {rows : List RecoveryWalRecord} {row : RecoveryWalRecord}
    (hmem : row ∈ rows) (hrow : rowNext store.budget row = some m) (h : n.below m = true) :
    n.below (replayRows dates store rows).nextId = true := by
  induction rows generalizing store with
  | nil => cases hmem
  | cons first rows ih =>
    rcases List.mem_cons.mp hmem with rfl | hmem
    · show n.below (replayRows dates (applyWalRecord dates store row) rows).nextId = true
      exact below_replay (below_apply_row dates hrow h)
    · refine ih hmem ?_
      rw [budget_apply]
      exact hrow

end RecoveryWalStore

/-! ## Fresh runs -/

variable {dates : Dates}

/-- An append that gets as far as to give an id is given a new one, and generates it from a
counter that goes on; a restart finds, for each number so far, a row that puts the counter past
it. -/
def RecoveryRun.Fresh (s : RecoveryRun) : RecoveryOp dates → Prop
  | .append _ input _ =>
    (RecoveryWalStore.rejectionFor s.store.budget input).toOption.isSome = true →
      match input.id with
      | some id => ∀ e ∈ s.log, e.number.isSome = true → e.item.id ≠ id
      | none => s.store.nextId.below (Number.succ s.store.nextId) = true ∧
          ∀ e ∈ s.log, e.number.isSome = false → e.item.id ≠ rwId s.store.nextId
  | .mark _ _ _ _ => True
  | .restart budget => ∀ e ∈ s.log, ∀ n ∈ e.number, ∃ row ∈ s.journal,
      ∃ m ∈ RecoveryWalStore.rowNext budget row, n.below m = true

instance (s : RecoveryRun) (op : RecoveryOp dates) : Decidable (s.Fresh op) := by
  unfold RecoveryRun.Fresh
  split
  · split <;> infer_instance
  · infer_instance
  · infer_instance

def Known (log : List LogEntry) (key : Str) (item : RecoveryWalItem) : Prop :=
  ∃ e ∈ log, workingSetScopeKey e.scope = .ok key ∧ e.item.SameRecord item

theorem Known.later {log : List LogEntry} {key : Str} {a b : RecoveryWalItem}
    (h : Known log key a) (hab : a.SameRecord b) : Known log key b := by
  obtain ⟨e, he, hkey, hsame⟩ := h
  exact ⟨e, he, hkey, hsame.trans hab⟩

theorem known_lasting (log : List LogEntry) : RecoveryWalStore.Lasting (Known log) :=
  fun _ _ _ _ _ _ h => h.later ⟨rfl, rfl, rfl, rfl, rfl, rfl⟩

/-- What a fresh run keeps. -/
structure Ahead (s : RecoveryRun) : Prop where
  numbered : ∀ e ∈ s.log, ∀ n ∈ e.number, e.item.id = rwId n ∧ n.below s.store.nextId = true
  distinct : s.log.Pairwise fun a b =>
    a.number.isSome = true ∨ b.number.isSome = true → a.item.id ≠ b.item.id
  sound : RecoveryWalStore.Sound (Known s.log) s.store.sessions
  rows : ∀ row ∈ s.journal, RecoveryWalStore.Recorded (Known s.log) row

section Steps
variable {s s' : RecoveryRun} {scope : WorkingSetScope} {input : RecoveryWalItemInput}
  {now : Date dates}

theorem Known.mono {log more : List LogEntry} {key : Str} {item : RecoveryWalItem}
    (h : Known log key item) : Known (log ++ more) key item := by
  obtain ⟨e, he, hsays⟩ := h
  exact ⟨e, List.mem_append_left _ he, hsays⟩

theorem Ahead.mark (h : Ahead s) {id : Str} {decision : RecoveryWalMarkDecision}
    (hstep : s.step (.mark scope id decision now) = some s') : Ahead s' := by
  cases hstep
  refine ⟨?_, h.distinct, h.sound.mark (known_lasting _) scope id decision now, ?_⟩
  · dsimp only
    rw [RecoveryWalStore.nextId_mark]
    exact h.numbered
  · intro row hrow
    rcases List.mem_append.mp hrow with hrow | hrow
    · exact h.rows row hrow
    · obtain ⟨written, hwritten, rfl⟩ := List.mem_map.mp hrow
      exact (RecoveryWalStore.aside_mark _ _ _ _ _ written hwritten).recorded

/-- A restart finds the counter past every number again. -/
theorem Ahead.restart (h : Ahead s) {budget : RecoveryWalBudget}
    (hfresh : s.Fresh (.restart budget : RecoveryOp dates))
    (hstep : s.step (.restart budget : RecoveryOp dates) = some s') : Ahead s' := by
  cases hstep
  have hsound := RecoveryWalStore.Sound.load dates (known_lasting s.log) budget
    fun row hrow => (h.rows row hrow).admits budget
  refine ⟨?_, h.distinct, hsound, hsound.compacted fun _ i hk => hk.later i.sameRecord_reread⟩
  intro e he n hn
  refine ⟨(h.numbered e he n hn).1, ?_⟩
  obtain ⟨row, hrow, m, hm, hbelow⟩ := hfresh e he n hn
  exact RecoveryWalStore.below_replay_row hrow hm hbelow

/-- An append that is not accepted may count up and no more. -/
theorem Ahead.count (h : Ahead s) {counters : RecoveryWalCounters} {nextId : Number}
    (hnext : ∀ n : Number, n.below s.store.nextId = true → n.below nextId = true) :
    Ahead ⟨{ (s.store.purgeExpired now).1 with counters := counters, nextId := nextId },
      s.journal ++ (s.store.purgeExpired now).2.map .reread, s.log⟩ := by
  refine ⟨?_, h.distinct, h.sound.purgeExpired now, ?_⟩
  · intro e he n hn
    exact ⟨(h.numbered e he n hn).1, hnext n (h.numbered e he n hn).2⟩
  · intro row hrow
    rcases List.mem_append.mp hrow with hrow | hrow
    · exact h.rows row hrow
    · obtain ⟨written, hwritten, rfl⟩ := List.mem_map.mp hrow
      exact (RecoveryWalStore.aside_purgeExpired _ now written hwritten).recorded

theorem Ahead.append (h : Ahead s) (hfresh : s.Fresh (.append scope input now))
    (hstep : s.step (.append scope input now) = some s') : Ahead s' := by
  cases hstep
  -- the counter is not put back
  have hcount : (∃ accepted, RecoveryWalStore.rejectionFor s.store.budget input = .ok accepted) →
      ∀ n : Number, n.below s.store.nextId = true → n.below (s.store.counted input) = true := by
    intro ⟨accepted, haccepted⟩ n hn
    unfold RecoveryWalStore.counted
    cases hid : input.id with
    | some id => exact hn
    | none =>
      have hnew := hfresh (by rw [haccepted]; rfl)
      rw [hid] at hnew
      exact Number.below_trans hn hnew.1
  rcases RecoveryWalStore.append_cases s.store scope input now with
    ⟨counters, nextId, heq, hnext, hnot⟩ | ⟨n, key, accepted, item, hscope, haccepted, hitem, heq⟩
  · have hlog : logged scope input s.store.nextId (s.store.append scope input now).2.2 = [] := by
      unfold logged
      split
      · rename_i i c hok
        exact absurd hok (hnot i c)
      · rfl
    rw [hlog, List.append_nil, heq]
    refine h.count ?_
    rcases hnext with rfl | ⟨hok, rfl⟩
    · exact fun _ hn => hn
    · exact hcount hok
  · obtain ⟨hnorm, rfl⟩ := scopeAndKey_ok hscope
    have hkey := key_of_normalize (normalize_normalized hnorm)
    have hid := (RecoveryWalStore.newItem_ok hitem).1
    have hnew := hfresh (by rw [haccepted]; rfl)
    have hlog : logged scope input s.store.nextId (s.store.append scope input now).2.2 =
        [⟨scope, item, if input.id.isNone then some s.store.nextId else none⟩] := by
      rw [heq]
      rfl
    have hknown : Known (s.log ++ logged scope input s.store.nextId
        (s.store.append scope input now).2.2) (scopeText n) item := by
      rw [hlog]
      exact ⟨_, List.mem_append_right _ List.mem_cons_self, key_of_normalize hnorm, .refl item⟩
    refine ⟨?_, ?_, ?_, ?_⟩
    · intro e he m hm
      rw [heq]
      rcases List.mem_append.mp he with he | he
      · exact ⟨(h.numbered e he m hm).1, hcount ⟨_, haccepted⟩ m (h.numbered e he m hm).2⟩
      · rw [hlog, List.mem_singleton] at he
        subst he
        cases hinput : input.id with
        | some id =>
          rw [hinput] at hm
          cases hm
        | none =>
          rw [hinput] at hm hid hnew
          cases hm
          refine ⟨hid, ?_⟩
          show s.store.nextId.below (s.store.counted input) = true
          unfold RecoveryWalStore.counted
          rw [hinput]
          exact hnew.1
    · rw [hlog, List.pairwise_append]
      refine ⟨h.distinct, List.pairwise_singleton _ _, ?_⟩
      intro a ha b hb hnumber
      rw [List.mem_singleton.mp hb] at hnumber ⊢
      show a.item.id ≠ item.id
      rw [hid]
      cases hinput : input.id with
      | some id =>
        rw [hinput] at hnew hnumber
        rcases hnumber with hnumber | hnumber
        · exact hnew a ha hnumber
        · cases hnumber
      | none =>
        rw [hinput] at hnew
        cases hna : a.number with
        | none => exact hnew.2 a ha (by rw [hna]; rfl)
        | some m =>
          obtain ⟨hida, hbelow⟩ := h.numbered a ha m hna
          rw [hida]
          exact rwId_ne hbelow hnew.1
    · have hfst := congrArg Prod.fst heq
      dsimp only at hfst ⊢
      rw [hfst]
      exact ((h.sound.mono fun _ _ hk => hk.mono).purgeExpired now).push hkey hknown _ _
    · intro row hrow
      rcases List.mem_append.mp hrow with hrow | hrow
      · exact (h.rows row hrow).mono fun _ _ hk => hk.mono
      · obtain ⟨written, hwritten, rfl⟩ := List.mem_map.mp hrow
        rw [heq] at hwritten
        rcases List.mem_append.mp hwritten with hwritten | hwritten
        · rcases List.mem_append.mp hwritten with hwritten | hwritten
          · exact (RecoveryWalStore.aside_purgeExpired _ now written hwritten).recorded
          · exact (RecoveryWalStore.aside_push _ _ _ _ _ _ written hwritten).recorded
        · rw [List.mem_singleton.mp hwritten]
          intro scope' item' hsame key' hkey'
          cases hsame
          rw [hkey] at hkey'
          cases hkey'
          exact hknown.later item.sameRecord_reread

theorem ahead_of_reachable (hs : (recoveryRuns dates).ReachableOn RecoveryRun.Fresh s) :
    Ahead s := by
  refine LTS.InductiveOn.reachable (I := Ahead) ⟨?_, ?_⟩ hs
  · rintro s ⟨budget, rfl⟩
    refine ⟨fun _ he => (nomatch he), List.Pairwise.nil, ?_, fun _ hr => (nomatch hr)⟩
    exact ⟨⟨List.nodup_nil, fun _ he => nomatch he⟩, fun _ he => nomatch he⟩
  · intro s op s' h hfresh hstep
    cases op with
    | append scope input now => exact h.append hfresh hstep
    | mark scope id decision now => exact h.mark hstep
    | restart budget => exact h.restart hfresh hstep

end Steps

/-! ## Marks -/

/-- The item, with its key, that a mark of an id acts on.
mirrors recovery-wal.ts:228-239 -/
def RecoveryWalStore.target (store : RecoveryWalStore) (scope : WorkingSetScope) (id : Str)
    (now : Date dates) : Option (Str × RecoveryWalItem) :=
  match scopeAndKey scope with
  | .error _ => none
  | .ok (_, key) =>
    ((store.purgeExpired now).1.sessions.lookup key).bind fun session =>
      (session.items.find? fun candidate => candidate.id == id).map fun item => (key, item)

/-- No generated id is given to two items, and a mark of one acts on no other item than the one
it was generated for. -/
def RecoveryRun.NeverReused (dates : Dates) (s : RecoveryRun) : Prop :=
  ((s.log.filter fun e => e.number.isSome).map fun e => e.item.id).Nodup ∧
    ∀ e ∈ s.log, e.number.isSome = true → ∀ (scope : WorkingSetScope) (now : Date dates) (key : Str)
      (item : RecoveryWalItem), s.store.target scope e.item.id now = some (key, item) →
        workingSetScopeKey e.scope = .ok key ∧ e.item.SameRecord item

theorem ids_never_reused {s : RecoveryRun}
    (hs : (recoveryRuns dates).ReachableOn RecoveryRun.Fresh s) : s.NeverReused dates := by
  have h := ahead_of_reachable hs
  refine ⟨?_, ?_⟩
  · rw [List.Nodup, List.pairwise_map, List.pairwise_filter]
    exact h.distinct.imp fun hne ha _ => hne (.inl ha)
  · intro e he hnumber scope now key item htarget
    unfold RecoveryWalStore.target at htarget
    split at htarget
    · cases htarget
    · rename_i n key' hscope
      obtain ⟨session, hsession, htarget⟩ := Option.bind_eq_some_iff.mp htarget
      obtain ⟨found, hfound, hsame⟩ := Option.map_eq_some_iff.mp htarget
      cases hsame
      have hid := List.find?_some hfound
      rw [beq_iff_eq] at hid
      obtain ⟨e', he', hkey, hrecord⟩ := (h.sound.purgeExpired now).traced _
        (Sessions.mem_of_lookup hsession) item (List.mem_of_find?_eq_some hfound)
      have hee : e = e' := by
        by_contra hne
        have hsymm : Std.Symm fun a b : LogEntry =>
            a.number.isSome = true ∨ b.number.isSome = true → a.item.id ≠ b.item.id :=
          ⟨fun a b hab hor => (hab hor.symm).symm⟩
        exact h.distinct.forall he he' hne (.inl hnumber) (hid.symm.trans hrecord.1.symm)
      rw [hee]
      exact ⟨hkey, hrecord⟩

/-! ## Runs -/

def smallRecoveryBudget : RecoveryWalBudget := ⟨60000, 8, 8, 8, 100, 100, 100⟩

/-- An item, a restart that finds its row, and another item. -/
theorem ids_never_reused_restarted : ∃ s,
    (recoveryRuns utcDates).ReachableOn RecoveryRun.Fresh s ∧
      (s.log.map fun e => e.item.id) = [units "rw-1", units "rw-2"] ∧ s.NeverReused utcDates := by
  have hrun : (LTS.exec (LTS.guardStep RecoveryRun.Fresh RecoveryRun.step)
      ⟨.new smallRecoveryBudget, [], []⟩
      [.append (recoveryScope "1") plainInput recoveryDate, .restart smallRecoveryBudget,
        .append (recoveryScope "1") plainInput recoveryDate]).any
      (fun s => decide ((s.log.map fun e => e.item.id) = [units "rw-1", units "rw-2"])) = true := by
    decide +kernel
  obtain ⟨s, hs, h⟩ := (Option.any_eq_true _ _).mp hrun
  have hreach : (recoveryRuns utcDates).ReachableOn RecoveryRun.Fresh s :=
    LTS.reachableOn_of_exec ⟨smallRecoveryBudget, rfl⟩ hs
  exact ⟨s, hreach, of_decide_eq_true h, ids_never_reused hreach⟩

/-- An item that is purged, and two restarts: the first compaction leaves no row of its id. -/
theorem purged_id_again :
    ¬ ∀ s, (recoveryRuns utcDates).Reachable s → s.NeverReused utcDates := by
  intro hall
  have hrun : (LTS.exec RecoveryRun.step ⟨.new smallRecoveryBudget, [], []⟩
      [.append (recoveryScope "1") plainInput recoveryDate,
        .mark (recoveryScope "1") (units "rw-1") ⟨units "discard", units "discarded", true⟩ recoveryDate,
        .restart smallRecoveryBudget, .restart smallRecoveryBudget,
        .append (recoveryScope "1") plainInput recoveryDate]).any
      (fun s => decide (((s.log.filter fun e => e.number.isSome).map fun e => e.item.id) =
        [units "rw-1", units "rw-1"])) = true := by
    decide +kernel
  obtain ⟨s, hs, h⟩ := (Option.any_eq_true _ _).mp hrun
  have hreused := hall s ⟨_, _, ⟨smallRecoveryBudget, rfl⟩, LTS.runOn_of_exec_any hs⟩
  have hnodup := hreused.1
  rw [of_decide_eq_true h] at hnodup
  revert hnodup
  decide

end OpenBrain.Server.Realtime
