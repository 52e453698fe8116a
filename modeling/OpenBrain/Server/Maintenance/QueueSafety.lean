import OpenBrain.Server.Maintenance.Queue

/-!
# Safety of the maintenance queue

Every statement either adds one queued row or changes rows in place (`step_cases`), and
what it can do to one row is one of the `Move`s. The invariant is a fact about each row
(`RowOk`) next to the two uniqueness facts of the table; a lease token is tied to the
list of claims, whose newest entry for a row is the row's holder.
-/
namespace OpenBrain.Server.Maintenance
open OpenBrain.Core List

/-! ## What a claim picks -/

section Claim
variable {t : List Row} {now : Time} {n : Nat} {locked : List Uuid} {r : Row} {id : Uuid}

theorem mem_eligible (h : r ∈ eligible t now n locked) : r ∈ t ∧ due now r = true := by
  unfold eligible at h
  have hmem := mem_mergeSort.mp (mem_of_mem_take h)
  rw [mem_filter, Bool.and_eq_true] at hmem
  exact ⟨hmem.1, hmem.2.1⟩

theorem eligible_ids (h : (t.map Row.id).Nodup) :
    ((eligible t now n locked).map Row.id).Nodup := by
  unfold eligible
  have hfilter := (filter_sublist (p := fun r => due now r && !locked.contains r.id)
    (l := t)).map Row.id
  have hsorted := ((mergeSort_perm
    (t.filter fun r => due now r && !locked.contains r.id) claimOrder).map Row.id).nodup_iff.mpr
    (h.sublist hfilter)
  exact hsorted.sublist ((take_sublist n _).map Row.id)

theorem reclaimIds_nodup (h : (t.map Row.id).Nodup) : (reclaimIds t now n locked).Nodup :=
  (eligible_ids h).sublist (filter_sublist.map Row.id)

theorem picked_row {p : Row → Bool} (hids : (t.map Row.id).Nodup) (hr : r ∈ t)
    (h : r.id ∈ ((eligible t now n locked).filter p).map Row.id) :
    due now r = true ∧ p r = true := by
  obtain ⟨q, hq, heq⟩ := mem_map.mp h
  obtain ⟨hq, hp⟩ := mem_filter.mp hq
  have hq := mem_eligible hq
  have := Table.eq_of_key hids hq.1 hr heq
  subst this
  exact ⟨hq.2, hp⟩

theorem known_of_picked (h : id ∈ reclaimIds t now n locked) : id ∈ t.map Row.id := by
  obtain ⟨q, hq, heq⟩ := mem_map.mp h
  have := (mem_eligible (mem_filter.mp hq).1).1
  exact mem_map.mpr ⟨q, this, heq⟩

theorem live_of_due (h : due now r = true) : r.live = true := by
  unfold due at h
  unfold Row.live
  rw [Bool.or_eq_true, Bool.and_eq_true, Bool.and_eq_true] at h
  rw [Bool.or_eq_true]
  rcases h with h | h
  · exact .inl h.1
  · exact .inr h.1

end Claim

/-! ## What a statement does to a row -/

/-- `ids` are the rows claimed by the statement, `token` is what it claims them under. -/
inductive Move (ids : List Uuid) (token : Uuid) : Row → Row → Prop
  | keep {r : Row} : r.id ∉ ids → Move ids token r r
  | claim {r : Row} (now : Time) (leaseMs : Nat) :
      r.id ∈ ids → r.live = true → reclaimable r = true →
        Move ids token r (claimRow now token leaseMs r)
  | expire {r : Row} (now : Time) :
      r.id ∉ ids → spent r = true → Move ids token r (expireRow now r)
  | renew {r : Row} (leaseUntil : Time) :
      r.id ∉ ids → r.state = .running →
        Move ids token r { r with leaseUntil := some leaseUntil }
  | complete {r : Row} (now : Time) :
      r.id ∉ ids → r.state = .running → Move ids token r (completeRow now r)
  | fail {r : Row} (now : Time) (category : ErrorCategory) (terminal : Bool) :
      r.id ∉ ids → r.state = .running → Move ids token r (failRow now category terminal r)

section Move
variable {ids : List Uuid} {token : Uuid} {r r' : Row}

theorem Row.live_of_running (h : r.state = .running) : r.live = true := by
  unfold Row.live
  rw [h]
  rfl

theorem running_of_spent (h : spent r = true) :
    r.state = .running ∧ r.retry.maxAttempts ≤ r.attempts := by
  unfold spent at h
  rw [Bool.and_eq_true, beq_iff_eq, decide_eq_true_eq] at h
  exact h

theorem failRow_kept (now : Time) (category : ErrorCategory) (terminal : Bool) (r : Row) :
    (failRow now category terminal r).id = r.id ∧ (failRow now category terminal r).key = r.key ∧
      (failRow now category terminal r).retry = r.retry ∧
      (failRow now category terminal r).attempts = r.attempts ∧
      (failRow now category terminal r).leaseToken = none := by
  unfold failRow
  split
  · exact ⟨rfl, rfl, rfl, rfl, rfl⟩
  · exact ⟨rfl, rfl, rfl, rfl, rfl⟩

/-- The columns no statement writes. -/
theorem Move.kept (h : Move ids token r r') :
    r'.id = r.id ∧ r'.key = r.key ∧ r'.retry = r.retry := by
  cases h with
  | fail now category terminal _ _ =>
    have h := failRow_kept now category terminal r
    exact ⟨h.1, h.2.1, h.2.2.1⟩
  | _ => exact ⟨rfl, rfl, rfl⟩

theorem Move.of_terminal (h : Move ids token r r') (hl : r.live = false) : r' = r := by
  have hrun : r.state = .running → False := by
    intro hr
    rw [Row.live_of_running hr] at hl
    cases hl
  cases h with
  | keep => rfl
  | claim _ _ _ hlive _ =>
    rw [hlive] at hl
    cases hl
  | expire _ _ hs => exact (hrun (running_of_spent hs).1).elim
  | renew _ _ hr => exact (hrun hr).elim
  | complete _ _ hr => exact (hrun hr).elim
  | fail _ _ _ _ hr => exact (hrun hr).elim

theorem Move.live (h : Move ids token r r') (hl : r'.live = true) : r.live = true := by
  cases hr : r.live with
  | true => rfl
  | false =>
    rw [h.of_terminal hr, hr] at hl
    cases hl

end Move

/-! ## The steps -/

/-- A step adds one queued row, or moves every row. -/
inductive Stepped (s s' : Queue) : Prop
  | insert (v : EnqueueJobValues) (id : Uuid) (createdAt : Time) :
      id ∉ s.rows.map Row.id → conflicts s.rows v = false →
      s'.rows = s.rows ++ [newRow v id createdAt] → s'.claims = s.claims → Stepped s s'
  | move (f : Row → Row) (ids : List Uuid) (token : Uuid) :
      s'.rows = s.rows.map f → s'.claims = ids.map (fun id => (id, token)) ++ s.claims →
      ids.Nodup → (∀ id ∈ ids, id ∈ s.rows.map Row.id) →
      (ids ≠ [] → token ∉ s.claims.map Prod.snd) →
      (∀ r ∈ s.rows, Move ids token r (f r)) → Stepped s s'

section Steps
variable {s s' : Queue}

theorem Stepped.refl (s : Queue) : Stepped s s :=
  .move id [] 0 (List.map_id _).symm rfl nodup_nil (by simp) (by simp)
    fun _ _ => .keep not_mem_nil

theorem stepped_guarded {jobId : Uuid} {token : Option Uuid} {f : Row → Row}
    (hf : ∀ r, r.state = .running → Move [] 0 r (f r))
    (hr : s'.rows = Table.updateWhere (held jobId token) f s.rows)
    (hc : s'.claims = s.claims) : Stepped s s' := by
  refine .move (fun r => if held jobId token r then f r else r) [] 0 hr hc nodup_nil
    (by simp) (by simp) ?_
  intro r _
  split
  · rename_i h
    unfold held at h
    simp only [Bool.and_eq_true, beq_iff_eq] at h
    exact hf r h.1.1.2
  · exact .keep not_mem_nil

theorem step_cases (hids : (s.rows.map Row.id).Nodup) {l : Label} (h : step s l = some s') :
    Stepped s s' := by
  cases l with
  | insert input now id createdAt =>
    dsimp only [step] at h
    split at h
    · cases h
    · rename_i v _
      split at h
      · rename_i hid
        cases h
        simp only [Bool.and_eq_true, Bool.not_eq_true', contains_eq_mem,
          decide_eq_false_iff_not] at hid
        unfold insertJob
        cases hc : conflicts s.rows v with
        | true => exact Stepped.refl s
        | false => exact .insert v id createdAt hid.2 hc rfl rfl
      · cases h
  | claim limit leaseMs now token locked =>
    dsimp only [step] at h
    split at h
    · cases h
    · rename_i n ms _
      split at h
      · cases h
      · rename_i hfresh
        cases h
        refine .move _ (reclaimIds s.rows now n locked) token rfl rfl (reclaimIds_nodup hids)
          (fun id => known_of_picked) ?_ ?_
        · intro _ hmem
          apply hfresh
          rw [contains_eq_mem, decide_eq_true_eq]
          exact hmem
        · intro r hr
          simp only [contains_eq_mem, decide_eq_true_eq]
          split
          · rename_i hre
            have hp := picked_row hids hr hre
            exact .claim now ms hre (live_of_due hp.1) hp.2
          · rename_i hre
            split
            · rename_i hex
              exact .expire now hre (picked_row hids hr hex).2
            · exact .keep hre
  | renew jobId token leaseMs now =>
    dsimp only [step] at h
    split at h
    · cases h
    · rename_i ms _
      cases h
      exact stepped_guarded (fun r hr => .renew (now + ms) not_mem_nil hr) rfl rfl
  | complete jobId token now =>
    cases h
    exact stepped_guarded (fun r hr => .complete now not_mem_nil hr) rfl rfl
  | fail jobId token category terminal error now =>
    cases h
    exact stepped_guarded (fun r hr => .fail now _ terminal not_mem_nil hr) rfl rfl

end Steps

/-! ## The invariant -/

/-- What holds of one row. The last four are the CHECKs of the table: no statement fails
on one. -/
structure RowOk (s : Queue) (r : Row) : Prop where
  attempts : r.attempts ≤ r.retry.maxAttempts
  queued : r.state = .queued → r.attempts < r.retry.maxAttempts
  counted : s.claimed r.id = r.attempts
  holder : r.state = .running → r.leaseToken = s.lastToken r.id
  leaseToken : r.leaseToken.isSome = (r.state == .running)
  leaseUntil : r.leaseUntil.isSome = (r.state == .running)
  terminal : r.terminalAt.isSome = !r.live
  deadLetter : r.deadLetteredAt.isSome = (r.state == .deadLetter)

structure Inv (s : Queue) : Prop where
  ids : (s.rows.map Row.id).Nodup
  keys : ((s.rows.filter Row.live).map Row.key).Nodup
  rows : ∀ r ∈ s.rows, RowOk s r
  known : ∀ c ∈ s.claims, c.1 ∈ s.rows.map Row.id
  claims : s.claims.Nodup

/-! ### The list of claims -/

section Claims
variable {s s' : Queue} {ids : List Uuid} {token : Uuid} {id : Uuid}

theorem claimed_step (hc : s'.claims = ids.map (fun id => (id, token)) ++ s.claims) :
    s'.claimed id = ids.count id + s.claimed id := by
  unfold Queue.claimed
  rw [hc, countP_append, countP_map]
  rfl

theorem lookup_claimed : (ids.map fun id => (id, token)).lookup id =
    if id ∈ ids then some token else none := by
  induction ids with
  | nil => rfl
  | cons i ids ih =>
    rw [map_cons, lookup_cons, ih]
    by_cases h : id = i
    · subst h
      simp
    · rw [beq_eq_false_iff_ne.mpr h]
      simp [h]

theorem lastToken_step (hc : s'.claims = ids.map (fun id => (id, token)) ++ s.claims) :
    s'.lastToken id = if id ∈ ids then some token else s.lastToken id := by
  unfold Queue.lastToken
  rw [hc, lookup_append, lookup_claimed]
  split
  · rfl
  · rfl

end Claims

/-! ### One row -/

section Rows
variable {s s' : Queue} {ids : List Uuid} {token : Uuid} {r r' : Row}

theorem rowOk_newRow {v : EnqueueJobValues} {id : Uuid} {createdAt : Time}
    (h : s.claimed id = 0) : RowOk s (newRow v id createdAt) where
  attempts := Nat.zero_le _
  queued _ := v.retry.attemptsPos
  counted := h
  holder hr := by cases hr
  leaseToken := rfl
  leaseUntil := rfl
  terminal := rfl
  deadLetter := rfl

theorem rowOk_failRow (h : RowOk s r) (hcount : s'.claimed r.id = r.attempts)
    (now : Time) (category : ErrorCategory) (terminal : Bool) :
    RowOk s' (failRow now category terminal r) := by
  unfold failRow
  split
  · exact ⟨h.attempts, (by intro hq; cases hq), hcount, (by intro hq; cases hq), rfl, rfl, rfl, rfl⟩
  · rename_i hmore
    rw [Bool.or_eq_true, decide_eq_true_eq, not_or] at hmore
    exact ⟨h.attempts, fun _ => Nat.lt_of_not_le hmore.2, hcount, (by intro hq; cases hq),
      rfl, rfl, rfl, rfl⟩

theorem Move.rowOk (h : RowOk s r) (hids : ids.Nodup)
    (hc : s'.claims = ids.map (fun id => (id, token)) ++ s.claims) (hm : Move ids token r r') :
    RowOk s' r' := by
  have hcount : s'.claimed r.id = ids.count r.id + s.claimed r.id := claimed_step hc
  have hlast : s'.lastToken r.id = if r.id ∈ ids then some token else s.lastToken r.id :=
    lastToken_step hc
  rw [h.counted] at hcount
  -- off the claimed rows, what a row says about the claims stands
  have hstay : r.id ∉ ids →
      s'.claimed r.id = r.attempts ∧ s'.lastToken r.id = s.lastToken r.id := by
    intro hn
    rw [count_eq_zero_of_not_mem hn, Nat.zero_add] at hcount
    rw [if_neg hn] at hlast
    exact ⟨hcount, hlast⟩
  cases hm with
  | keep hn =>
    exact ⟨h.attempts, h.queued, (hstay hn).1, fun hr => (h.holder hr).trans (hstay hn).2.symm,
      h.leaseToken, h.leaseUntil, h.terminal, h.deadLetter⟩
  | claim now leaseMs hin hlive hre =>
    rw [count_eq_one_of_mem hids hin] at hcount
    rw [if_pos hin] at hlast
    have hlt : r.attempts < r.retry.maxAttempts := by
      unfold reclaimable at hre
      rw [Bool.or_eq_true, beq_iff_eq, decide_eq_true_eq] at hre
      rcases hre with hq | hlt
      · exact h.queued hq
      · exact hlt
    have hterm : r.terminalAt.isSome = false := by
      rw [h.terminal, hlive]
      rfl
    have hdead : r.deadLetteredAt.isSome = false := by
      rw [h.deadLetter]
      unfold Row.live at hlive
      cases hs : r.state with
      | deadLetter =>
        rw [hs] at hlive
        cases hlive
      | queued => rfl
      | running => rfl
      | succeeded => rfl
    refine ⟨hlt, (by intro hq; cases hq), ?_, fun _ => hlast.symm, rfl, rfl, hterm, hdead⟩
    show s'.claimed r.id = r.attempts + 1
    omega
  | expire now hn hs =>
    exact ⟨h.attempts, (by intro hq; cases hq), (hstay hn).1, (by intro hq; cases hq), rfl, rfl, rfl,
      rfl⟩
  | renew leaseUntil hn hr =>
    refine ⟨h.attempts, h.queued, (hstay hn).1, fun hr => (h.holder hr).trans (hstay hn).2.symm,
      h.leaseToken, ?_, h.terminal, h.deadLetter⟩
    show (some leaseUntil).isSome = (r.state == .running)
    rw [hr]
    rfl
  | complete now hn hr =>
    refine ⟨h.attempts, (by intro hq; cases hq), (hstay hn).1, (by intro hq; cases hq), rfl, rfl, rfl,
      ?_⟩
    show r.deadLetteredAt.isSome = false
    rw [h.deadLetter, hr]
    rfl
  | fail now category terminal hn hr => exact rowOk_failRow h (hstay hn).1 now category terminal

end Rows

/-! ### The whole table -/

section Steps
variable {s s' : Queue}

theorem claimed_unknown (h : Inv s) {id : Uuid} (hid : id ∉ s.rows.map Row.id) :
    s.claimed id = 0 := by
  unfold Queue.claimed
  rw [countP_eq_zero]
  intro c hc heq
  rw [beq_iff_eq] at heq
  subst heq
  exact hid (h.known c hc)

theorem Inv.insert (h : Inv s) {v : EnqueueJobValues} {id : Uuid} {createdAt : Time}
    (hid : id ∉ s.rows.map Row.id) (hkey : conflicts s.rows v = false)
    (hr : s'.rows = s.rows ++ [newRow v id createdAt]) (hc : s'.claims = s.claims) : Inv s' := by
  have hsame : ∀ r, RowOk s r → RowOk s' r := by
    intro r hok
    have hcount : s'.claimed r.id = s.claimed r.id := by unfold Queue.claimed; rw [hc]
    have hlast : s'.lastToken r.id = s.lastToken r.id := by unfold Queue.lastToken; rw [hc]
    exact ⟨hok.attempts, hok.queued, hcount.trans hok.counted,
      fun hr => (hok.holder hr).trans hlast.symm, hok.leaseToken, hok.leaseUntil, hok.terminal,
      hok.deadLetter⟩
  refine ⟨?_, ?_, ?_, ?_, ?_⟩
  · rw [hr, map_append]
    refine nodup_append.mpr ⟨h.ids, by simp, ?_⟩
    intro a ha b hb heq
    rw [map_singleton, mem_singleton] at hb
    subst hb
    exact hid (heq ▸ ha)
  · have hnew : (newRow v id createdAt).live = true := rfl
    rw [hr, filter_append, filter_cons_of_pos hnew, filter_nil, map_append]
    refine nodup_append.mpr ⟨h.keys, by simp, ?_⟩
    intro a ha b hb heq
    rw [map_singleton, mem_singleton] at hb
    obtain ⟨q, hq, rfl⟩ := mem_map.mp ha
    obtain ⟨hq, hlive⟩ := mem_filter.mp hq
    unfold conflicts at hkey
    have hany := any_eq_false.mp hkey q hq
    apply hany
    rw [hlive, Bool.true_and, beq_iff_eq, heq, hb]
    rfl
  · intro r hmem
    rw [hr, mem_append, mem_singleton] at hmem
    rcases hmem with hmem | rfl
    · exact hsame r (h.rows r hmem)
    · exact hsame _ (rowOk_newRow (claimed_unknown h hid))
  · intro c hmem
    rw [hc] at hmem
    rw [hr, map_append]
    exact mem_append_left _ (h.known c hmem)
  · rw [hc]
    exact h.claims

theorem Inv.move (h : Inv s) {f : Row → Row} {ids : List Uuid} {token : Uuid}
    (hr : s'.rows = s.rows.map f)
    (hc : s'.claims = ids.map (fun id => (id, token)) ++ s.claims) (hids : ids.Nodup)
    (hknown : ∀ id ∈ ids, id ∈ s.rows.map Row.id)
    (hfresh : ids ≠ [] → token ∉ s.claims.map Prod.snd)
    (hm : ∀ r ∈ s.rows, Move ids token r (f r)) : Inv s' := by
  have hsame : s'.rows.map Row.id = s.rows.map Row.id := by
    rw [hr, map_map]
    apply map_congr_left
    intro r hmem
    exact (hm r hmem).kept.1
  refine ⟨?_, ?_, ?_, ?_, ?_⟩
  · rw [hsame]
    exact h.ids
  · rw [hr]
    refine List.Nodup.sublist (Table.filter_map_sublist ?_ ?_) h.keys
    · intro r hmem
      exact (hm r hmem).live
    · intro r hmem
      exact (hm r hmem).kept.2.1
  · intro r' hmem
    rw [hr] at hmem
    obtain ⟨r, hold, rfl⟩ := mem_map.mp hmem
    exact (hm r hold).rowOk (h.rows r hold) hids hc
  · intro c hmem
    rw [hsame]
    rw [hc, mem_append] at hmem
    rcases hmem with hmem | hmem
    · obtain ⟨id, hid, rfl⟩ := mem_map.mp hmem
      exact hknown id hid
    · exact h.known c hmem
  · rw [hc]
    refine nodup_append.mpr ⟨hids.map ?_, h.claims, ?_⟩
    · intro a b heq
      exact (Prod.mk.inj heq).1
    · intro a ha b hb heq
      obtain ⟨id, hid, rfl⟩ := mem_map.mp ha
      subst heq
      exact hfresh (ne_nil_of_mem hid) (mem_map.mpr ⟨_, hb, rfl⟩)

theorem inv_step (h : Inv s) {l : Label} (hs : step s l = some s') : Inv s' := by
  cases step_cases h.ids hs with
  | insert v id createdAt hid hkey hr hc => exact h.insert hid hkey hr hc
  | move f ids token hr hc hids hknown hfresh hm => exact h.move hr hc hids hknown hfresh hm

end Steps

theorem inv_inductive : system.Inductive Inv where
  init s hs := by
    obtain ⟨rows, claims⟩ := s
    obtain ⟨rfl, rfl⟩ := hs
    exact ⟨nodup_nil, nodup_nil, by simp, by simp, nodup_nil⟩
  step _ _ _ h _ hs := inv_step h hs

theorem inv_reachable {s : Queue} (h : system.Reachable s) : Inv s := inv_inductive.reachable h

/-! ## Terminal rows -/

section Terminal
variable {s s' : Queue} {r : Row}

theorem terminal_step (h : Inv s) {l : Label} (hs : step s l = some s') (hr : r ∈ s.rows)
    (hl : r.live = false) : r ∈ s'.rows := by
  cases step_cases h.ids hs with
  | insert v id createdAt _ _ hrows _ =>
    rw [hrows]
    exact mem_append_left _ hr
  | move f ids token hrows _ _ _ _ hm =>
    rw [hrows, mem_map]
    exact ⟨r, hr, (hm r hr).of_terminal hl⟩

theorem terminal_run (h : Inv s) {ls : List Label} (hrun : system.RunOn LTS.anyStep s ls s')
    (hr : r ∈ s.rows) (hl : r.live = false) : Inv s' ∧ r ∈ s'.rows := by
  have hI : ∀ s l s', (Inv s ∧ r ∈ s.rows) → LTS.anyStep s l → system.step s l s' →
      Inv s' ∧ r ∈ s'.rows := by
    intro s l s' ⟨h, hr⟩ _ hs
    exact ⟨inv_step h hs, terminal_step h hs hr hl⟩
  exact hrun.keeps hI ⟨h, hr⟩

end Terminal

/-! ## Lease holders -/

def Label.leaseOp : Label → Option (Uuid × Option Uuid)
  | .insert .. | .claim .. => none
  | .renew jobId token _ _ => some (jobId, some token)
  | .complete jobId token _ => some (jobId, some token)
  | .fail jobId token _ _ _ _ => some (jobId, token)

/-- The token is one a claim of the row was given, and a later claim took the row over. -/
def Queue.overtaken (s : Queue) (jobId old : Uuid) : Prop :=
  (jobId, old) ∈ s.claims ∧ s.lastToken jobId ≠ some old

section Lease
variable {s s' : Queue} {l : Label} {jobId : Uuid} {token : Option Uuid}

theorem lease_step (hs : step s l = some s') (hl : l.leaseOp = some (jobId, token)) :
    ∃ f, s'.rows = Table.updateWhere (held jobId token) f s.rows ∧ s'.claims = s.claims := by
  cases l with
  | insert => cases hl
  | claim => cases hl
  | renew _ _ leaseMs now =>
    cases hl
    dsimp only [step] at hs
    split at hs
    · cases hs
    · cases hs
      exact ⟨_, rfl, rfl⟩
  | complete =>
    cases hl
    cases hs
    exact ⟨_, rfl, rfl⟩
  | fail =>
    cases hl
    cases hs
    exact ⟨_, rfl, rfl⟩

theorem held_iff {r : Row} : held jobId token r = true ↔
    r.id = jobId ∧ r.state = .running ∧ ∃ tok, token = some tok ∧ r.leaseToken = some tok := by
  unfold held
  simp only [Bool.and_eq_true, beq_iff_eq, and_assoc]
  constructor
  · intro ⟨hid, hstate, hsome, heq⟩
    obtain ⟨tok, rfl⟩ := Option.isSome_iff_exists.mp hsome
    exact ⟨hid, hstate, tok, rfl, heq⟩
  · intro ⟨hid, hstate, tok, ht, heq⟩
    rw [ht]
    exact ⟨hid, hstate, rfl, heq⟩

/-- A lease operation that changes anything was called with the token of the last claim
of the row, which still runs under it. -/
theorem holder_of_changed (h : Inv s) (hs : step s l = some s')
    (hl : l.leaseOp = some (jobId, token)) (hne : s'.rows ≠ s.rows) :
    ∃ r ∈ s.rows, ∃ tok, r.id = jobId ∧ r.state = .running ∧ token = some tok ∧
      r.leaseToken = some tok ∧ s.lastToken jobId = some tok := by
  obtain ⟨f, hrows, -⟩ := lease_step hs hl
  by_cases hany : ∃ r ∈ s.rows, held jobId token r = true
  · obtain ⟨r, hr, hheld⟩ := hany
    obtain ⟨hid, hstate, tok, ht, hlease⟩ := held_iff.mp hheld
    have hlast := (h.rows r hr).holder hstate
    rw [hlease, hid] at hlast
    exact ⟨r, hr, tok, hid, hstate, ht, hlease, hlast.symm⟩
  · apply (hne _).elim
    rw [hrows]
    apply Table.updateWhere_of_none
    intro r hr
    cases hheld : held jobId token r with
    | false => rfl
    | true => exact (hany ⟨r, hr, hheld⟩).elim

theorem lease_frame (hs : step s l = some s') (hl : l.leaseOp = some (jobId, token)) {r : Row}
    (hr : r ∈ s.rows) (hne : r.id ≠ jobId) : r ∈ s'.rows := by
  obtain ⟨f, hrows, -⟩ := lease_step hs hl
  rw [hrows, Table.mem_updateWhere]
  refine .inl ⟨hr, ?_⟩
  cases hheld : held jobId token r with
  | false => rfl
  | true => exact (hne (held_iff.mp hheld).1).elim

theorem overtaken_step (h : Inv s) (hs : step s l = some s') {old : Uuid}
    (ho : s.overtaken jobId old) : s'.overtaken jobId old := by
  cases step_cases h.ids hs with
  | insert v id createdAt _ _ _ hc =>
    unfold Queue.overtaken Queue.lastToken
    rw [hc]
    exact ho
  | move f ids tok _ hc _ _ hfresh _ =>
    refine ⟨hc ▸ mem_append_right _ ho.1, ?_⟩
    rw [lastToken_step hc]
    split
    · rename_i hin
      intro heq
      cases heq
      exact hfresh (ne_nil_of_mem hin) (mem_map.mpr ⟨_, ho.1, rfl⟩)
    · exact ho.2

theorem overtaken_run (h : Inv s) {ls : List Label} (hrun : system.RunOn LTS.anyStep s ls s')
    {old : Uuid} (ho : s.overtaken jobId old) : Inv s' ∧ s'.overtaken jobId old := by
  have hI : ∀ s l s', (Inv s ∧ s.overtaken jobId old) → LTS.anyStep s l → system.step s l s' →
      Inv s' ∧ s'.overtaken jobId old := by
    intro s l s' ⟨h, ho⟩ _ hs
    exact ⟨inv_step h hs, overtaken_step h hs ho⟩
  exact hrun.keeps hI ⟨h, ho⟩

theorem overtaken_idle (h : Inv s) (hs : step s l = some s') {old : Uuid}
    (ho : s.overtaken jobId old) (hl : l.leaseOp = some (jobId, some old)) :
    s'.rows = s.rows := by
  by_cases hne : s'.rows = s.rows
  · exact hne
  · obtain ⟨r, _, tok, _, _, ht, _, hlast⟩ := holder_of_changed h hs hl hne
    cases ht
    exact (ho.2 hlast).elim

end Lease

/-! ## The safety theorem -/

/-- What holds of the table in every reachable state. -/
structure Safe (s : Queue) : Prop where
  /-- at most one live row holds a (kind, idempotency key) -/
  liveOnce : ∀ key, (s.rows.filter fun r => r.live && r.key == key).length ≤ 1
  queued : ∀ r ∈ s.rows, r.state = .queued → r.attempts < r.retry.maxAttempts
  attempts : ∀ r ∈ s.rows, r.attempts ≤ r.retry.maxAttempts
  /-- no row is claimed more than `max_attempts` times -/
  claimed : ∀ r ∈ s.rows, s.claimed r.id ≤ r.retry.maxAttempts

theorem Inv.safe {s : Queue} (h : Inv s) : Safe s where
  liveOnce key := by
    have hcount := nodup_iff_count_le_one.mp h.keys key
    rw [count_eq_countP, countP_map, countP_filter, countP_eq_length_filter]
      at hcount
    refine Nat.le_trans (Nat.le_of_eq ?_) hcount
    congr 1
    apply filter_congr
    intro r _
    exact Bool.and_comm _ _
  queued r hr := (h.rows r hr).queued
  attempts r hr := (h.rows r hr).attempts
  claimed r hr := by
    rw [(h.rows r hr).counted]
    exact (h.rows r hr).attempts

/-- Every reachable state of the queue is safe. From there on a terminal row stays as it
is, a renew, complete or fail that changes anything is its row's holder's, and a worker
whose lease was taken over changes nothing, however late it calls. -/
theorem queue_safety {s : Queue} (h : system.Reachable s) :
    Safe s ∧
    (∀ ls s', system.RunOn LTS.anyStep s ls s' → ∀ r ∈ s.rows, r.live = false →
      r ∈ s'.rows ∧ ∀ q ∈ s'.rows, q.id = r.id → q = r) ∧
    (∀ l s' jobId token, step s l = some s' → l.leaseOp = some (jobId, token) →
      (∀ r ∈ s.rows, r.id ≠ jobId → r ∈ s'.rows) ∧
      (s'.rows ≠ s.rows → ∃ r ∈ s.rows, ∃ tok, r.id = jobId ∧ r.state = .running ∧
        token = some tok ∧ r.leaseToken = some tok ∧ s.lastToken jobId = some tok)) ∧
    (∀ jobId old, s.overtaken jobId old → ∀ ls s', system.RunOn LTS.anyStep s ls s' →
      ∀ l s'', step s' l = some s'' → l.leaseOp = some (jobId, some old) →
        s''.rows = s'.rows) := by
  have hinv := inv_reachable h
  refine ⟨hinv.safe, ?_, ?_, ?_⟩
  · intro ls s' hrun r hr hl
    obtain ⟨hinv', hr'⟩ := terminal_run hinv hrun hr hl
    exact ⟨hr', fun q hq heq => Table.eq_of_key hinv'.ids hq hr' heq⟩
  · intro l s' jobId token hs hl
    exact ⟨fun r hr hne => lease_frame hs hl hr hne, holder_of_changed hinv hs hl⟩
  · intro jobId old ho ls s' hrun l s'' hs hl
    obtain ⟨hinv', ho'⟩ := overtaken_run hinv hrun ho
    exact overtaken_idle hinv' hs ho' hl

section Takeover

def sweepJob : EnqueueMaintenanceJob where
  kind := [115, 119, 101, 101, 112]
  version := .int 1
  payload := .obj []
  idempotencyKey := [107]
  runAfter := none
  maxAttempts := some (.int 2)
  backoffBaseMs := none
  backoffMaxMs := none
  scopeName := none
  provenance := none

/-- The job is claimed under token 1; that lease expires, token 2 takes the job over and
completes it. -/
def takeover : List Label :=
  [.insert sweepJob 0 7 0, .claim (.int 5) (.int 1000) 1 1 [],
    .claim (.int 5) (.int 1000) 2000 2 [], .complete 7 2 2500]

theorem takeover_eq : (LTS.exec step ⟨[], []⟩ takeover).any (fun s =>
    s.claims == [(7, 2), (7, 1)] && s.rows.any fun r => r.id == 7 && !r.live) = true := by
  decide +kernel

theorem queue_safety_takeover : ∃ s : Queue, s.overtaken 7 1 ∧ s.claimed 7 = 2 ∧
    (∃ r ∈ s.rows, r.id = 7 ∧ r.live = false ∧
      ∀ ls s', system.RunOn LTS.anyStep s ls s' → r ∈ s'.rows) ∧
    Safe s ∧ ∀ now s', step s (.complete 7 1 now) = some s' → s'.rows = s.rows := by
  obtain ⟨s, hs, h⟩ := (Option.any_eq_true _ _).mp takeover_eq
  rw [Bool.and_eq_true, beq_iff_eq, any_eq_true] at h
  obtain ⟨hclaims, r, hr, hrow⟩ := h
  rw [Bool.and_eq_true, beq_iff_eq, Bool.not_eq_true'] at hrow
  have hsafe := queue_safety ⟨⟨[], []⟩, _, ⟨rfl, rfl⟩, LTS.runOn_of_exec_any hs⟩
  have hover : s.overtaken 7 1 := by
    unfold Queue.overtaken Queue.lastToken
    rw [hclaims]
    decide
  refine ⟨s, hover, ?_, ⟨r, hr, hrow.1, hrow.2, ?_⟩, hsafe.1, ?_⟩
  · unfold Queue.claimed
    rw [hclaims]
    rfl
  · intro ls s' hrun
    exact (hsafe.2.1 ls s' hrun r hr hrow.2).1
  · intro now s' hstep
    exact hsafe.2.2.2 7 1 hover [] s (.nil s) _ s' hstep rfl

end Takeover

end OpenBrain.Server.Maintenance
