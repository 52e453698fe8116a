import OpenBrain.Bulk.Ingest

/-!
# Bulk ingest resumes

`bulk_resumes`: over every sequence of stage and ingest processes, killed anywhere, no staged turn
is lost, a turn is `sent` only behind a receipt of its own and stays so, a complete ingest attempts
what is pending, and staging is all or nothing. The quarantine holds only turns whose last attempt
failed as long as no process is killed between the receipt of a quarantined turn and the second
statement of `mark_sent` (`Uncut`); a kill there leaves a delivered turn in it.
-/
namespace OpenBrain.Bulk
open OpenBrain.Core OpenBrain.Core.Py List

variable {T : Type} (turn_uuid : T → Str)

/-- The turn whose delivery the process is writing down. -/
def recording (run : Run T) (uuid : Str) : Bool :=
  match run with
  | .marking turn _ _ | .clearing turn _ _ => turn_uuid turn = uuid
  | _ => false

def lastDelivered (log : List (Attempt T)) (uuid : Str) : Option Bool :=
  Assoc.last? (log.map fun a => (turn_uuid a.turn, a.delivered)) uuid

/-- A process is not killed while it writes down the delivery of a turn that is in quarantine. -/
def Uncut (s : State T) : Label T → Prop
  | .kill => ∀ e ∈ s.store.quarantine, recording turn_uuid s.run e.1 = false
  | _ => True

/-- The quarantine holds only turns whose last attempt failed, but for the one whose delivery is
being written down. -/
def HoldsFailed (s : State T) : Prop :=
  ∀ e ∈ s.store.quarantine,
    lastDelivered turn_uuid s.log e.1 = some false ∨ recording turn_uuid s.run e.1 = true

namespace Label

def ofStaging : Label T → Prop
  | .stageTurn | .raise | .commit | .kill => True
  | _ => False

/-- The steps of an ingest process that is not killed. -/
def ofIngest : Label T → Prop
  | .answer _ | .update | .delete | .quarantine | .finish => True
  | _ => False

end Label

/-! ## What a step does -/

section
variable [DecidableEq T]

/-- The steps of `step`, one by one. -/
inductive Took (s : State T) : Label T → State T → Prop where
  | stage (turns : List T) : s.run = .idle →
    Took s (.stage turns) { s with run := .staging s.store (next_index s.store) 0 turns }
  | conflict {working : Store T} {start staged : Nat} {turn : T} {rest : List T} :
    s.run = .staging working start staged (turn :: rest) →
    stage_turn turn_uuid working (start + staged) turn = none →
    Took s .stageTurn { s with run := .idle }
  | stageTurn {working working' : Store T} {start staged count : Nat} {turn : T} {rest : List T} :
    s.run = .staging working start staged (turn :: rest) →
    stage_turn turn_uuid working (start + staged) turn = some (working', count) →
    Took s .stageTurn { s with run := .staging working' start (staged + count) rest }
  | raise {working : Store T} {start staged : Nat} {rest : List T} :
    s.run = .staging working start staged rest → Took s .raise { s with run := .idle }
  | commit {working : Store T} {start staged : Nat} : s.run = .staging working start staged [] →
    Took s .commit { s with store := working, run := .idle }
  | ingest (expected : Option Str) : s.run = .idle →
    Took s (.ingest expected) { s with run := .sending (pending s.store) expected }
  | delivered {turn : T} {rest : List T} {ns next : Option Str} {answer : Answer} :
    s.run = .sending (turn :: rest) ns → (Attempt.mk turn ns answer).delivered = true →
    Took s (.answer answer)
      { s with run := .marking turn rest next, log := s.log ++ [⟨turn, ns, answer⟩] }
  | failed {turn : T} {rest : List T} {ns : Option Str} {answer : Answer} {error : Str} :
    s.run = .sending (turn :: rest) ns → (Attempt.mk turn ns answer).delivered = false →
    Took s (.answer answer)
      { s with run := .setting turn error rest ns, log := s.log ++ [⟨turn, ns, answer⟩] }
  | update {turn : T} {rest : List T} {ns : Option Str} : s.run = .marking turn rest ns →
    Took s .update
      { s with store := markUpdate turn_uuid s.store (turn_uuid turn), run := .clearing turn rest ns }
  | delete {turn : T} {rest : List T} {ns : Option Str} : s.run = .clearing turn rest ns →
    Took s .delete { s with store := release s.store (turn_uuid turn), run := .sending rest ns }
  | quarantine {turn : T} {error : Str} {rest : List T} {ns : Option Str} :
    s.run = .setting turn error rest ns →
    Took s .quarantine
      { s with store := quarantine turn_uuid s.store turn error, run := .sending rest ns }
  | finish {ns : Option Str} : s.run = .sending [] ns → Took s .finish { s with run := .idle }
  | kill : s.run ≠ .idle → Took s .kill { s with run := .idle }

variable {turn_uuid} {s s' : State T} {l : Label T}

theorem took_of_step (h : (bulk turn_uuid).step s l s') : Took turn_uuid s l s' := by
  obtain ⟨st, run, log⟩ := s
  change step turn_uuid ⟨st, run, log⟩ l = some s' at h
  simp only [step] at h
  split at h
  · cases h; exact .stage _ rfl
  · split at h
    · rename_i hc
      cases h; exact .conflict rfl hc
    · rename_i hc
      cases h; exact .stageTurn rfl hc
  · cases h; exact .raise rfl
  · cases h; exact .commit rfl
  · cases h; exact .ingest _ rfl
  · split at h
    · rename_i hr
      cases h
      exact .delivered rfl (by simp [Attempt.delivered, hr])
    · rename_i hr
      cases h
      exact .failed rfl (by simp [Attempt.delivered, hr])
  · cases h; exact .update rfl
  · cases h; exact .delete rfl
  · cases h; exact .quarantine rfl
  · cases h; exact .finish rfl
  · cases h
  · rename_i hidle
    cases h
    exact .kill fun heq => hidle heq
  · cases h

end

variable {turn_uuid} {s s' : State T} {l : Label T}

/-! ## The invariant of all runs -/

/-- What a process in the middle of its work relies on. -/
def RunOk (turn_uuid : T → Str) (s : State T) : Prop :=
  match s.run with
  | .idle => True
  | .staging working _ _ _ =>
    Distinct turn_uuid working ∧ s.store.staged <+: working.staged ∧
      (∀ row ∈ working.staged, row.sent = true → row ∈ s.store.staged) ∧
      working.quarantine.Sublist s.store.quarantine
  | .sending rest _ => rest ⊆ s.store.turns
  | .marking turn rest _ | .clearing turn rest _ =>
    turn :: rest ⊆ s.store.turns ∧ (∃ a ∈ s.log, a.turn = turn ∧ a.delivered = true) ∧
      lastDelivered turn_uuid s.log (turn_uuid turn) = some true
  | .setting turn _ rest _ =>
    turn :: rest ⊆ s.store.turns ∧ lastDelivered turn_uuid s.log (turn_uuid turn) = some false

/-- The ids are distinct in both tables, and what is sent was delivered. -/
structure Inv (turn_uuid : T → Str) (s : State T) : Prop where
  distinct : Distinct turn_uuid s.store
  keys : (s.store.quarantine.map Prod.fst).Nodup
  sent : ∀ row ∈ s.store.staged, row.sent = true → ∃ a ∈ s.log, a.turn = row.turn ∧ a.delivered = true
  run : RunOk turn_uuid s

theorem lastDelivered_concat (log : List (Attempt T)) (a : Attempt T) (uuid : Str) :
    lastDelivered turn_uuid (log ++ [a]) uuid =
      if turn_uuid a.turn = uuid then some a.delivered else lastDelivered turn_uuid log uuid := by
  unfold lastDelivered
  rw [map_append, map_singleton, Assoc.last?_append_singleton]

theorem inv_new : Inv turn_uuid (State.new : State T) where
  distinct := nodup_nil
  keys := nodup_nil
  sent _ h := nomatch h
  run := trivial

theorem Inv.took [DecidableEq T] (h : Inv turn_uuid s) (ht : Took turn_uuid s l s') : Inv turn_uuid s' := by
  have hrun := h.run
  unfold RunOk at hrun
  cases ht with
  | stage turns hr =>
    exact ⟨h.distinct, h.keys, h.sent, h.distinct, prefix_rfl, fun row hrow _ => hrow, .refl _⟩
  | conflict hr hc => exact ⟨h.distinct, h.keys, h.sent, trivial⟩
  | @stageTurn working working' start staged count turn rest hr hc =>
    simp only [hr] at hrun
    obtain ⟨hd, hp, hsent, hq⟩ := hrun
    obtain ⟨hcases, hq'⟩ := stage_turn_cases hc
    refine ⟨h.distinct, h.keys, h.sent, hd.stage_turn hc, hp.trans (stage_turn_extends hc).1, ?_,
      hq'.trans hq⟩
    intro row hrow hs
    rcases hcases with ⟨heq, -, -⟩ | ⟨heq, -, -⟩
    · exact hsent row (heq ▸ hrow) hs
    · rw [heq] at hrow
      rcases mem_append.mp hrow with hrow | hrow
      · exact hsent row hrow hs
      · rw [mem_singleton.mp hrow] at hs
        cases hs
  | raise hr => exact ⟨h.distinct, h.keys, h.sent, trivial⟩
  | commit hr =>
    simp only [hr] at hrun
    obtain ⟨hd, -, hsent, hq⟩ := hrun
    exact ⟨hd, (hq.map Prod.fst).nodup h.keys,
      fun row hrow hs => h.sent row (hsent row hrow hs) hs, trivial⟩
  | ingest expected hr => exact ⟨h.distinct, h.keys, h.sent, pending_subset s.store⟩
  | @delivered turn rest ns next answer hr hd =>
    simp only [hr] at hrun
    refine ⟨h.distinct, h.keys, ?_, hrun, ⟨_, mem_concat_self, rfl, hd⟩, ?_⟩
    · intro row hrow hs
      obtain ⟨a, ha, hat⟩ := h.sent row hrow hs
      exact ⟨a, mem_append_left _ ha, hat⟩
    · rw [lastDelivered_concat, if_pos rfl, hd]
  | @failed turn rest ns answer error hr hd =>
    simp only [hr] at hrun
    refine ⟨h.distinct, h.keys, ?_, hrun, ?_⟩
    · intro row hrow hs
      obtain ⟨a, ha, hat⟩ := h.sent row hrow hs
      exact ⟨a, mem_append_left _ ha, hat⟩
    · rw [lastDelivered_concat, if_pos rfl, hd]
  | @update turn rest ns hr =>
    simp only [hr] at hrun
    obtain ⟨hsub, hatt, hlast⟩ := hrun
    have hturns : (markUpdate turn_uuid s.store (turn_uuid turn)).turns = s.store.turns :=
      turns_markUpdate s.store (turn_uuid turn)
    have hd := h.distinct.markUpdate (turn_uuid turn)
    refine ⟨hd, h.keys, ?_, hturns.symm ▸ hsub, hatt, hlast⟩
    intro row hrow hs
    rcases sent_markUpdate hrow hs with hu | ⟨old, hold, hto, hso⟩
    · -- the id is that of the turn just delivered, and the ids are distinct
      have hturn : turn ∈ (markUpdate turn_uuid s.store (turn_uuid turn)).turns :=
        hturns.symm ▸ hsub mem_cons_self
      rw [hd.turn_eq hrow hturn hu]
      exact hatt
    · obtain ⟨a, ha, hat, had⟩ := h.sent old hold hso
      exact ⟨a, ha, hat.trans hto, had⟩
  | @delete turn rest ns hr =>
    simp only [hr] at hrun
    exact ⟨h.distinct, (filter_sublist.map Prod.fst).nodup h.keys, h.sent,
      List.Subset.trans (subset_cons_self turn rest) hrun.1⟩
  | @quarantine turn error rest ns hr =>
    simp only [hr] at hrun
    exact ⟨h.distinct, Assoc.nodup_set h.keys _ _, h.sent,
      List.Subset.trans (subset_cons_self turn rest) hrun.1⟩
  | finish hr => exact ⟨h.distinct, h.keys, h.sent, trivial⟩
  | kill hr => exact ⟨h.distinct, h.keys, h.sent, trivial⟩

section
variable [DecidableEq T]

theorem inv_reachable (h : (bulk turn_uuid).Reachable s) : Inv turn_uuid s := by
  refine LTS.InductiveOn.reachable (I := Inv turn_uuid) ⟨?_, ?_⟩ h
  · intro s (hs : s = State.new)
    rw [hs]
    exact inv_new
  · exact fun _ _ _ hi _ hst => hi.took (took_of_step hst)

/-! ## The quarantine -/

theorem HoldsFailed.took (hi : Inv turn_uuid s) (h : HoldsFailed turn_uuid s)
    (hg : Uncut turn_uuid s l) (ht : Took turn_uuid s l s') : HoldsFailed turn_uuid s' := by
  have hrun := hi.run
  unfold RunOk at hrun
  -- outside of `mark_sent` every entry failed last
  have quiet : (∀ uuid, recording turn_uuid s.run uuid = false) →
      ∀ e ∈ s.store.quarantine, lastDelivered turn_uuid s.log e.1 = some false := by
    intro hq e he
    rcases h e he with h | h
    · exact h
    · rw [hq] at h
      cases h
  cases ht with
  | stage turns hr => exact fun e he => .inl (quiet (fun _ => by simp [recording, hr]) e he)
  | conflict hr _ => exact fun e he => .inl (quiet (fun _ => by simp [recording, hr]) e he)
  | stageTurn hr _ => exact fun e he => .inl (quiet (fun _ => by simp [recording, hr]) e he)
  | raise hr => exact fun e he => .inl (quiet (fun _ => by simp [recording, hr]) e he)
  | commit hr =>
    have hq := quiet fun _ => by simp [recording, hr]
    simp only [hr] at hrun
    exact fun e he => .inl (hq e (hrun.2.2.2.subset he))
  | ingest expected hr => exact fun e he => .inl (quiet (fun _ => by simp [recording, hr]) e he)
  | @delivered turn rest ns next answer hr hd =>
    intro e he
    have hfalse := quiet (fun _ => by simp [recording, hr]) e he
    by_cases hu : turn_uuid turn = e.1
    · exact .inr (decide_eq_true hu)
    · left
      rw [lastDelivered_concat, if_neg hu]
      exact hfalse
  | @failed turn rest ns answer error hr hd =>
    intro e he
    have hfalse := quiet (fun _ => by simp [recording, hr]) e he
    left
    rw [lastDelivered_concat]
    split
    · rw [hd]
    · exact hfalse
  | @update turn rest ns hr =>
    intro e he
    rcases h e he with h | h
    · exact .inl h
    · simp only [recording, hr] at h
      exact .inr h
  | @delete turn rest ns hr =>
    intro e he
    obtain ⟨he, hne⟩ := mem_filter.mp he
    rcases h e he with h | h
    · exact .inl h
    · simp only [recording, hr] at h
      exact absurd (of_decide_eq_true h).symm (of_decide_eq_true hne)
  | @quarantine turn error rest ns hr =>
    have hq := quiet fun _ => by simp [recording, hr]
    simp only [hr] at hrun
    intro e he
    left
    rcases (Assoc.mem_set_iff hi.keys _ _ e).mp he with rfl | ⟨he, -⟩
    · exact hrun.2
    · exact hq e he
  | finish hr => exact fun e he => .inl (quiet (fun _ => by simp [recording, hr]) e he)
  | kill hr =>
    intro e he
    rcases h e he with h | h
    · exact .inl h
    · rw [hg e he] at h
      cases h

/-- A kill that misses the condition leaves a delivered turn in quarantine. -/
theorem not_holdsFailed_of_cut (hi : Inv turn_uuid s) (hg : ¬ Uncut turn_uuid s l)
    (ht : Took turn_uuid s l s') : ¬ HoldsFailed turn_uuid s' := by
  have hrun := hi.run
  unfold RunOk at hrun
  cases ht with
  | kill hr =>
    simp only [Uncut, not_forall, Bool.not_eq_false] at hg
    obtain ⟨e, he, hrec⟩ := hg
    have hlast : lastDelivered turn_uuid s.log e.1 = some true := by
      unfold recording at hrec
      split at hrec
      · rename_i heq
        simp only [heq] at hrun
        rw [← of_decide_eq_true hrec]
        exact hrun.2.2
      · rename_i heq
        simp only [heq] at hrun
        rw [← of_decide_eq_true hrec]
        exact hrun.2.2
      · cases hrec
    intro h
    rcases h e he with h | h
    · rw [hlast] at h
      cases h
    · cases h
  | _ => exact absurd trivial hg

theorem holdsFailed_reachable (h : (bulk turn_uuid).ReachableOn (Uncut turn_uuid) s) :
    HoldsFailed turn_uuid s := by
  refine (LTS.InductiveOn.reachable (I := fun s => Inv turn_uuid s ∧ HoldsFailed turn_uuid s)
    ⟨?_, ?_⟩ h).2
  · intro s (hs : s = State.new)
    rw [hs]
    exact ⟨inv_new, fun e he => nomatch he⟩
  · intro s l s' ⟨hi, hh⟩ hg hst
    have ht := took_of_step hst
    exact ⟨hi.took ht, hh.took hi hg ht⟩

/-! ## The staged rows -/

theorem kept_took (hi : Inv turn_uuid s) (ht : Took turn_uuid s l s') :
    Kept s.store.staged s'.store.staged := by
  have hrun := hi.run
  unfold RunOk at hrun
  cases ht with
  | commit hr =>
    simp only [hr] at hrun
    exact .of_extends hrun.2.1
  | @update turn rest ns hr => exact kept_markUpdate s.store (turn_uuid turn)
  | _ => exact .refl _

theorem kept_run {ls : List (Label T)} (hi : Inv turn_uuid s)
    (hr : (bulk turn_uuid).RunOn LTS.anyStep s ls s') : Kept s.store.staged s'.store.staged := by
  refine (hr.keeps (I := fun t => Inv turn_uuid t ∧ Kept s.store.staged t.store.staged) ?_
    ⟨hi, .refl _⟩).2
  intro t l t' ⟨hit, hk⟩ _ hst
  have ht := took_of_step hst
  exact ⟨hit.took ht, hk.trans (kept_took hit ht)⟩

/-! ## A complete ingest -/

/-- The turns the process has not called the lane for. -/
def ahead : Run T → List T
  | .sending rest _ | .marking _ rest _ | .clearing _ rest _ | .setting _ _ rest _ => rest
  | _ => []

/-- The calls made and the calls ahead are the same list in every step of an ingest. -/
theorem calls_took (hl : l.ofIngest) (ht : Took turn_uuid s l s') :
    s'.log.map Attempt.turn ++ ahead s'.run = s.log.map Attempt.turn ++ ahead s.run := by
  cases ht with
  | delivered hr _ => simp [ahead, hr]
  | failed hr _ => simp [ahead, hr]
  | update hr => simp [ahead, hr]
  | delete hr => simp [ahead, hr]
  | quarantine hr => simp [ahead, hr]
  | finish hr => simp [ahead, hr]
  | _ => exact hl.elim

theorem calls_run {ls : List (Label T)}
    (hr : (bulk turn_uuid).RunOn (fun _ l => l.ofIngest) s ls s') :
    s'.log.map Attempt.turn ++ ahead s'.run = s.log.map Attempt.turn ++ ahead s.run :=
  hr.keeps
    (I := fun t => t.log.map Attempt.turn ++ ahead t.run = s.log.map Attempt.turn ++ ahead s.run)
    (fun _ _ _ h hl hst => (calls_took hl (took_of_step hst)).trans h) rfl

/-! ## A staging process -/

/-- The committed store is the old one while the rest of the source is staged, and behind it the old
one or that of a whole `stage`. -/
def StagingOf (turn_uuid : T → Str) (st : Store T) (turns : List T) (s : State T) : Prop :=
  match s.run with
  | .staging working start staged rest =>
    s.store = st ∧ stageLoop turn_uuid start working staged rest = stage turn_uuid st turns
  | .idle => s.store = st ∨ ∃ n, stage turn_uuid st turns = some (s.store, n)
  | _ => False

theorem StagingOf.took {st : Store T} {turns : List T} (h : StagingOf turn_uuid st turns s)
    (hl : l.ofStaging) (ht : Took turn_uuid s l s') : StagingOf turn_uuid st turns s' := by
  unfold StagingOf at h
  cases ht with
  | conflict hr _ =>
    simp only [hr] at h
    exact .inl h.1
  | stageTurn hr hc =>
    simp only [hr, stageLoop, hc] at h
    exact h
  | raise hr =>
    simp only [hr] at h
    exact .inl h.1
  | commit hr =>
    simp only [hr] at h
    exact .inr ⟨_, h.2.symm⟩
  | kill hr =>
    left
    split at h
    · exact h.1
    · rename_i hidle
      exact absurd hidle hr
    · exact h.elim
  | _ => exact hl.elim

theorem stagingOf_run {turns : List T} {s₁ : State T} {ls : List (Label T)}
    (hst : (bulk turn_uuid).step s (.stage turns) s₁)
    (hr : (bulk turn_uuid).RunOn (fun _ l => l.ofStaging) s₁ ls s') :
    StagingOf turn_uuid s.store turns s' := by
  refine hr.keeps (fun _ _ _ h hl hst => h.took hl (took_of_step hst)) ?_
  cases took_of_step hst with
  | stage _ hr => exact ⟨rfl, rfl⟩

theorem StagingOf.store {st : Store T} {turns : List T} (h : StagingOf turn_uuid st turns s) :
    s.store = st ∨ ∃ n, stage turn_uuid st turns = some (s.store, n) := by
  unfold StagingOf at h
  split at h
  · exact .inl h.1
  · exact h
  · exact h.elim

/-! ## The whole -/

/-- Rows are kept; what is sent had a one-turn receipt; a process that is not killed attempts what is
pending; staging is all or nothing, and staging again changes no row. The quarantine holds only
failed turns on the runs whose steps are `Uncut`, and a step that is not breaks it. -/
theorem bulk_resumes :
    (∀ s s' ls, (bulk turn_uuid).Reachable s → (bulk turn_uuid).RunOn LTS.anyStep s ls s' →
      Kept s.store.staged s'.store.staged) ∧
    (∀ s, (bulk turn_uuid).Reachable s → ∀ row ∈ s.store.staged, row.sent = true →
      ∃ a ∈ s.log, a.turn = row.turn ∧
        ∃ receipt, a.answer = .ok receipt ∧ OneTurn receipt a.expected_namespace) ∧
    (∀ s s₁ s' expected ls, (bulk turn_uuid).Reachable s →
      (bulk turn_uuid).step s (.ingest expected) s₁ →
      (bulk turn_uuid).RunOn (fun _ l => l.ofIngest) s₁ ls s' → s'.run = .idle →
      s'.log.map Attempt.turn = s.log.map Attempt.turn ++ pending s.store ∧
        ∀ row ∈ s.store.staged, row.sent = false → row.turn ∈ pending s.store) ∧
    ((∀ s, (bulk turn_uuid).ReachableOn (Uncut turn_uuid) s → HoldsFailed turn_uuid s) ∧
      ∀ s l s', (bulk turn_uuid).ReachableOn (Uncut turn_uuid) s → ¬ Uncut turn_uuid s l →
        (bulk turn_uuid).step s l s' → ¬ HoldsFailed turn_uuid s') ∧
    (∀ s s₁ s' turns ls, (bulk turn_uuid).Reachable s →
      (bulk turn_uuid).step s (.stage turns) s₁ →
      (bulk turn_uuid).RunOn (fun _ l => l.ofStaging) s₁ ls s' →
      (s'.store = s.store ∨
        s.store.staged <+: s'.store.staged ∧ ∀ turn ∈ turns, turn ∈ s'.store.turns) ∧
      ((∀ turn ∈ turns, turn ∈ s.store.turns) →
        s'.store.staged = s.store.staged ∧ ∃ st, stage turn_uuid s.store turns = some (st, 0))) := by
  refine ⟨?_, ?_, ?_, ⟨?_, ?_⟩, ?_⟩
  · intro s s' ls h hr
    exact kept_run (inv_reachable h) hr
  · intro s h row hrow hs
    obtain ⟨a, ha, hat, had⟩ := (inv_reachable h).sent row hrow hs
    exact ⟨a, ha, hat, Attempt.oneTurn had⟩
  · intro s s₁ s' expected ls h hst hr hidle
    refine ⟨?_, fun row hrow hs => mem_pending.mpr ⟨row, hrow, hs, rfl⟩⟩
    have hcalls := calls_run hr
    rw [hidle] at hcalls
    cases took_of_step hst with
    | ingest _ _ => simpa [ahead] using hcalls
  · exact fun s h => holdsFailed_reachable h
  · intro s l s' h hg hst
    exact not_holdsFailed_of_cut (inv_reachable (h.mono fun _ _ _ => trivial)) hg (took_of_step hst)
  · intro s s₁ s' turns ls h hst hr
    have hstore := (stagingOf_run hst hr).store
    refine ⟨?_, fun hturns => ?_⟩
    · rcases hstore with hstore | ⟨n, hn⟩
      · exact .inl hstore
      · exact .inr (stageLoop_extends hn)
    · obtain ⟨st, hst0, hs0⟩ := stageLoop_staged (next_index s.store) 0
        (inv_reachable h).distinct hturns
      refine ⟨?_, st, hst0⟩
      rcases hstore with hstore | ⟨n, hn⟩
      · rw [hstore]
      · cases hst0.symm.trans hn
        exact hs0

end

/-! ## A delivered turn in quarantine -/

/-- A receipt for one new turn. -/
def accepted : Items :=
  [(units "ingested", .num (.int 1)), (units "duplicates", .num (.int 0)),
    (units "filtered", .num (.int 0)), (units "namespace", .str (units "dana"))]

/-- A turn fails in one run, is accepted in the next, and the process is killed between the two
statements of `mark_sent`. -/
def cutLabels : List (Label Str) :=
  [.stage [units "u1"], .stageTurn, .commit, .ingest none, .answer (.error (units "TimeoutError")),
    .quarantine, .finish, .ingest none, .answer (.ok accepted), .update, .kill]

/-- The turn is sent and still in quarantine. -/
theorem cut_keeps_quarantine : ∃ s, (bulk id).Reachable s ∧ s.run = .idle ∧
    s.store.staged = [⟨0, units "u1", true⟩] ∧
    s.store.quarantine = [(units "u1", units "u1", units "TimeoutError")] ∧ ¬ HoldsFailed id s := by
  have hrun : LTS.exec (step id) State.new cutLabels = some
      ⟨⟨[⟨0, units "u1", true⟩], [(units "u1", units "u1", units "TimeoutError")]⟩, .idle,
        [⟨units "u1", none, .error (units "TimeoutError")⟩, ⟨units "u1", none, .ok accepted⟩]⟩ := rfl
  refine ⟨_, ⟨_, cutLabels, rfl, LTS.runOn_of_exec_any hrun⟩, rfl, rfl, rfl, ?_⟩
  intro h
  have hlast := h _ mem_cons_self
  revert hlast
  decide +kernel

end OpenBrain.Bulk
