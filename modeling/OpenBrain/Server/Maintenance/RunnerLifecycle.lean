import OpenBrain.Core.LTS
import OpenBrain.Server.Maintenance.Runner

/-!
# Every claimed job is run, recorded and waited for

`Course` lists what an execution may have called at each of its points, renewals left out;
`CallOrder` places the renewals. Both follow the calls of one execution (`sound_hear`).

**Results.** `runner_lifecycle`, in every run whose claims return no more than they were asked for
(`withinLimit`): no more than `concurrency` executions are active, each claimed job has its
execution, no claim starts after a `stop`, and a `stop` that has resolved leaves nothing behind.
-/
namespace OpenBrain.Server.Maintenance.Runner
open OpenBrain.Core List

/-! ## Traces -/

def Act.isRenew : Act → Bool
  | .renew _ _ => true
  | _ => false

def Act.isRenewSettled : Act → Bool
  | .renewSettled => true
  | _ => false

/-- A call of `complete` or `fail`. -/
def Act.isTerminal : Act → Bool
  | .complete _ _ | .fail _ _ _ => true
  | _ => false

def calls (trace : List Act) : List Act := trace.filter fun a => !(a.isRenew || a.isRenewSettled)

/-- Calls that end in something to record as a failure. -/
inductive Failed (o : Options) (claim : Claim) : Failure → List Act → Prop
  | unsupported (h : o.handlers.contains claim.kind = false) : Failed o claim .unsupported []
  | handler (job : Job) (error : Failure) (h : o.handlers.contains claim.kind = true) :
    Failed o claim error [.handler job, .handlerThrew error]
  | noLeaseToken (job : Job) (h : o.handlers.contains claim.kind = true)
    (ht : claim.leaseToken = none) : Failed o claim .noLeaseToken [.handler job, .handlerDone]
  | complete (job : Job) (leaseToken : Str) (error : Failure)
    (h : o.handlers.contains claim.kind = true) (ht : claim.leaseToken = some leaseToken) :
    Failed o claim error
      [.handler job, .handlerDone, .complete claim.id leaseToken, .completeThrew error]

/-- The job a failure is recorded for is the claimed one. -/
def Addresses (claim : Claim) (job : Job) : Prop :=
  job.id = claim.id ∧ job.leaseToken = claim.leaseToken

/-- What an execution may have called when it is at a point. -/
inductive Course (o : Options) (claim : Claim) : ExecPc → List Act → Prop
  | running (job : Job) (h : o.handlers.contains claim.kind = true) :
    Course o claim .running [.handler job]
  | stopping (job : Job) (h : o.handlers.contains claim.kind = true) :
    Course o claim .stopping [.handler job, .handlerDone]
  | completing (job : Job) (leaseToken : Str) (h : o.handlers.contains claim.kind = true)
    (ht : claim.leaseToken = some leaseToken) :
    Course o claim .completing [.handler job, .handlerDone, .complete claim.id leaseToken]
  | completed (job : Job) (leaseToken : Str) (pc : ExecPc) (hpc : pc = .settled ∨ pc = .removed)
    (h : o.handlers.contains claim.kind = true) (ht : claim.leaseToken = some leaseToken) :
    Course o claim pc [.handler job, .handlerDone, .complete claim.id leaseToken, .completeDone]
  | stoppingFailed {error : Failure} {t : List Act} (failed : Failed o claim error t) :
    Course o claim (.stoppingFailed error) t
  | failing {error : Failure} {t : List Act} (failed : Failed o claim error t) (job : Job)
    (hjob : Addresses claim job) :
    Course o claim .failing (t ++ [.fail job error (decide (error = .terminal))])
  | failed {error : Failure} {t : List Act} (failed : Failed o claim error t) (job : Job)
    (hjob : Addresses claim job) (pc : ExecPc) (hpc : pc = .settled ∨ pc = .removed) :
    Course o claim pc (t ++ [.fail job error (decide (error = .terminal)), .failSettled])

def Settled (trace : List Act) : Prop :=
  trace.countP Act.isRenew = trace.countP Act.isRenewSettled

/-- The calls to the queue address the claim; renewals are over when `complete` or `fail` is
called, and none starts after it. -/
def CallOrder (claim : Claim) (before : List Act) : Act → Prop
  | .renew id leaseToken =>
    id = claim.id ∧ claim.leaseToken = some leaseToken ∧ before.all (fun a => !a.isTerminal) = true
  | .complete id leaseToken =>
    id = claim.id ∧ claim.leaseToken = some leaseToken ∧ Act.handlerDone ∈ before ∧ Settled before
  | .fail job _ _ => Addresses claim job ∧ Settled before
  | _ => True

def Execution.inFlight (e : Execution) : Bool := e.heartbeat.any Heartbeat.inFlight

def Execution.stopped (e : Execution) : Prop := e.heartbeat.all Heartbeat.stopped = true

/-- What holds of an execution between its points, too. -/
structure Paced (e : Execution) : Prop where
  order : Justified (CallOrder e.claim) e.trace
  balance : e.trace.countP Act.isRenew = e.trace.countP Act.isRenewSettled + e.inFlight.toNat
  /-- no renewal once `complete` or `fail` was called -/
  quiet : e.trace.any Act.isTerminal = true → e.stopped ∧ e.inFlight = false

structure Sound (o : Options) (e : Execution) : Prop extends Paced e where
  course : Course o e.claim e.pc (calls e.trace)
  halted : e.pc ≠ .running → e.stopped

section
variable {o : Options} {e e' : Execution}

theorem quiet_iff : e.quiet = true ↔ e.inFlight = false := by
  unfold Execution.quiet Execution.inFlight
  cases e.heartbeat with
  | none => exact iff_of_true rfl rfl
  | some h =>
    show (!h.inFlight) = true ↔ h.inFlight = false
    exact Iff.of_eq (Bool.not_eq_true' h.inFlight)

theorem calls_act (e : Execution) {a : Act} (h : a.isRenew = false) (h' : a.isRenewSettled = false) :
    calls (e.act a).trace = calls e.trace ++ [a] := by
  show calls (e.trace ++ [a]) = _
  unfold calls
  rw [filter_append, filter_singleton, h, h']
  rfl

theorem Paced.act (P : Paced e) {a : Act} (h : a.isRenew = false) (h' : a.isRenewSettled = false)
    (hterminal : a.isTerminal = true → e.stopped ∧ e.inFlight = false)
    (horder : (a.isTerminal = true → Settled e.trace) → CallOrder e.claim e.trace a) :
    Paced (e.act a) where
  order := by
    refine P.order.concat (horder fun ha => ?_)
    have hbalance := P.balance
    rw [(hterminal ha).2] at hbalance
    exact hbalance
  balance := by
    show (e.trace ++ [a]).countP Act.isRenew = (e.trace ++ [a]).countP Act.isRenewSettled + _
    rw [countP_append, countP_append, countP_singleton, countP_singleton, h, h']
    exact P.balance
  quiet := by
    show (e.trace ++ [a]).any Act.isTerminal = true → _
    rw [any_append, Bool.or_eq_true]
    rintro (hold | hnew)
    · exact P.quiet hold
    · rw [any_cons, any_nil, Bool.or_false] at hnew
      exact hterminal hnew

theorem Paced.stopHeartbeat (P : Paced e) : Paced e.stopHeartbeat ∧ e.stopHeartbeat.stopped ∧
    e.stopHeartbeat.inFlight = e.inFlight := by
  obtain ⟨claim, job, heartbeat, pc, trace⟩ := e
  cases heartbeat with
  | none => exact ⟨P, rfl, rfl⟩
  | some h =>
    refine ⟨⟨P.order, P.balance, fun hany => ⟨rfl, (P.quiet hany).2⟩⟩, rfl, rfl⟩

theorem Paced.goto (P : Paced e) (pc : ExecPc) : Paced (e.goto pc) :=
  ⟨P.order, P.balance, P.quiet⟩

theorem sound_fail (P : Paced e) {error : Failure} (hfailed : Failed o e.claim error (calls e.trace))
    (hstopped : e.stopped) (hquiet : e.inFlight = false) : Sound o (e.fail error) where
  toPaced := (P.act rfl rfl (fun _ => ⟨hstopped, hquiet⟩)
    fun hs => by exact ⟨⟨rfl, rfl⟩, hs rfl⟩).goto .failing
  course := by
    show Course o e.claim .failing (calls (e.act _).trace)
    rw [calls_act e rfl rfl]
    exact .failing hfailed _ ⟨rfl, rfl⟩
  halted := fun _ => hstopped

theorem start_claim (o : Options) (job : Job) : (Execution.start o job).claim = job.claim := by
  unfold Execution.start
  simp only
  split <;> rfl

/-- Something threw. -/
theorem sound_failed (P : Paced e) {error : Failure}
    (hfailed : Failed o e.claim error (calls e.trace)) : Sound o (e.failed error) := by
  obtain ⟨claim, job, heartbeat, pc, trace⟩ := e
  cases heartbeat with
  | none => exact sound_fail P hfailed rfl rfl
  | some h =>
    obtain ⟨hpaced, hstopped, -⟩ := P.stopHeartbeat
    exact { toPaced := hpaced.goto _, course := .stoppingFailed hfailed, halted := fun _ => hstopped }

theorem sound_complete (P : Paced e) {job : Job}
    (hcalls : calls e.trace = [.handler job, .handlerDone])
    (h : o.handlers.contains e.claim.kind = true) (hstopped : e.stopped)
    (hquiet : e.inFlight = false) : Sound o e.complete := by
  unfold Execution.complete
  split
  · rename_i ht
    exact sound_failed P (hcalls ▸ .noLeaseToken job h ht)
  · rename_i leaseToken ht
    have hdone : Act.handlerDone ∈ e.trace := by
      refine mem_of_mem_filter (p := fun a => !(a.isRenew || a.isRenewSettled)) ?_
      show Act.handlerDone ∈ calls e.trace
      rw [hcalls]
      exact mem_cons_of_mem _ mem_cons_self
    exact {
      toPaced := (P.act rfl rfl (fun _ => ⟨hstopped, hquiet⟩)
        fun hs => by exact ⟨rfl, ht, hdone, hs rfl⟩).goto .completing
      course := by
        show Course o e.claim .completing (calls (e.act _).trace)
        rw [calls_act e rfl rfl, hcalls]
        exact .completing job leaseToken h ht
      halted := fun _ => hstopped }

theorem sound_start (o : Options) (job : Job) : Sound o (Execution.start o job) := by
  unfold Execution.start
  simp only
  split
  · rename_i h
    refine sound_fail ?_ (.unsupported h) rfl rfl
    exact ⟨Justified.nil, rfl, nofun⟩
  · rename_i h
    have hkind := Bool.eq_true_of_not_eq_false h
    exact {
      order := Justified.nil.concat (a := Act.handler job) trivial
      balance := by
        unfold Execution.inFlight
        split <;> rfl
      quiet := nofun
      course := .running job hkind
      halted := fun hpc => absurd rfl hpc }

/-- At its end an execution has no renewal under way. -/
theorem Course.terminal {claim : Claim} {pc : ExecPc} {t : List Act} (h : Course o claim pc t)
    (hpc : pc = .completing ∨ pc = .failing ∨ pc = .settled ∨ pc = .removed) :
    t.any Act.isTerminal = true := by
  cases h with
  | running | stopping | stoppingFailed => simp at hpc
  | completing | completed => rfl
  | failing failed job hjob | failed failed job hjob =>
    rw [any_append]
    exact Bool.or_eq_true_iff.mpr (.inr rfl)

theorem any_of_calls {trace : List Act} (h : (calls trace).any Act.isTerminal = true) :
    trace.any Act.isTerminal = true := by
  obtain ⟨a, ha, hterminal⟩ := any_eq_true.mp h
  exact any_eq_true.mpr ⟨a, mem_of_mem_filter ha, hterminal⟩

theorem Sound.over (S : Sound o e)
    (hpc : e.pc = .completing ∨ e.pc = .failing ∨ e.pc = .settled ∨ e.pc = .removed) :
    e.stopped ∧ e.inFlight = false :=
  S.quiet (any_of_calls (S.course.terminal hpc))

theorem Course.of_running {claim : Claim} {t : List Act} (h : Course o claim .running t) :
    ∃ job, t = [.handler job] ∧ o.handlers.contains claim.kind = true := by
  cases h with
  | running job h => exact ⟨job, rfl, h⟩
  | completed _ _ _ hpc | failed _ _ _ _ hpc => simp at hpc

theorem Course.of_stopping {claim : Claim} {t : List Act} (h : Course o claim .stopping t) :
    ∃ job, t = [.handler job, .handlerDone] ∧ o.handlers.contains claim.kind = true := by
  cases h with
  | stopping job h => exact ⟨job, rfl, h⟩
  | completed _ _ _ hpc | failed _ _ _ _ hpc => simp at hpc

theorem Course.of_stoppingFailed {claim : Claim} {error : Failure} {t : List Act}
    (h : Course o claim (.stoppingFailed error) t) : Failed o claim error t := by
  cases h with
  | stoppingFailed failed => exact failed
  | completed _ _ _ hpc | failed _ _ _ _ hpc => simp at hpc

theorem Course.of_completing {claim : Claim} {t : List Act} (h : Course o claim .completing t) :
    ∃ job leaseToken, t = [.handler job, .handlerDone, .complete claim.id leaseToken] ∧
      o.handlers.contains claim.kind = true ∧ claim.leaseToken = some leaseToken := by
  cases h with
  | completing job leaseToken h ht => exact ⟨job, leaseToken, rfl, h, ht⟩
  | completed _ _ _ hpc | failed _ _ _ _ hpc => simp at hpc

theorem Course.of_failing {claim : Claim} {t : List Act} (h : Course o claim .failing t) :
    ∃ error u job, Failed o claim error u ∧ Addresses claim job ∧
      t = u ++ [.fail job error (decide (error = .terminal))] := by
  cases h with
  | failing failed job hjob => exact ⟨_, _, job, failed, hjob, rfl⟩
  | completed _ _ _ hpc | failed _ _ _ _ hpc => simp at hpc

theorem Course.of_settled {claim : Claim} {t : List Act} (h : Course o claim .settled t) :
    Course o claim .removed t := by
  cases h with
  | completed job leaseToken _ _ h ht => exact .completed job leaseToken _ (.inr rfl) h ht
  | failed failed job hjob _ _ => exact .failed failed job hjob _ (.inr rfl)

theorem sound_beat (S : Sound o e) {h' : Heartbeat} {a : Act}
    (ha : a.isRenew = true ∨ a.isRenewSettled = true)
    (horder : CallOrder e.claim e.trace a)
    (hbalance : e.inFlight.toNat + (if a.isRenew then 1 else 0) =
      (if a.isRenewSettled then 1 else 0) + h'.inFlight.toNat)
    (hstopped : e.stopped → h'.stopped = true) (hquiet : e.inFlight = false → e.stopped →
      h'.inFlight = false) :
    Sound o ({ e with heartbeat := some h' }.act a) where
  order := S.order.concat horder
  balance := by
    show (e.trace ++ [a]).countP Act.isRenew =
      (e.trace ++ [a]).countP Act.isRenewSettled + h'.inFlight.toNat
    rw [countP_append, countP_append, countP_singleton, countP_singleton]
    have hold := S.balance
    omega
  quiet := by
    show (e.trace ++ [a]).any Act.isTerminal = true → h'.stopped = true ∧ h'.inFlight = false
    have hplain : a.isTerminal = false := by
      cases a with
      | complete | fail => simp [Act.isRenew, Act.isRenewSettled] at ha
      | handler | handlerDone | handlerThrew | renew | renewSettled | completeDone | completeThrew
      | failSettled => rfl
    rw [any_append, any_cons, any_nil, hplain, Bool.or_false, Bool.or_false]
    intro hany
    obtain ⟨hs, hq⟩ := S.quiet hany
    exact ⟨hstopped hs, hquiet hq hs⟩
  course := by
    have hcalls : calls (e.trace ++ [a]) = calls e.trace := by
      unfold calls
      rw [filter_append, filter_singleton]
      rcases ha with ha | ha <;> simp [ha]
    show Course o e.claim e.pc (calls (e.trace ++ [a]))
    rw [hcalls]
    exact S.course
  halted := fun hpc => hstopped (S.halted hpc)

theorem sound_renewed (S : Sound o e) {beat : Heartbeat} {halted : Bool}
    (hbeat : e.heartbeat = some beat) (hflight : beat.inFlight = true)
    (hhalted : beat.stopped = true → halted = true) :
    Sound o ({ e with heartbeat := some ⟨false, halted⟩ }.act .renewSettled) := by
  refine sound_beat S (.inr rfl) trivial ?_ ?_ fun _ _ => rfl
  · unfold Execution.inFlight
    rw [hbeat]
    show beat.inFlight.toNat + 0 = 1 + 0
    rw [hflight]
    rfl
  · unfold Execution.stopped
    rw [hbeat]
    exact hhalted

theorem sound_hear (S : Sound o e) {signal : Signal} (h : e.hear signal = some e') :
    Sound o e' := by
  cases signal with
  | handlerReturns =>
    unfold Execution.hear at h
    simp only at h
    split at h
    · rename_i hpc
      obtain ⟨job, hcalls, hkind⟩ := Course.of_running (hpc ▸ S.course)
      have hdone : Paced (e.act .handlerDone) := S.toPaced.act rfl rfl nofun fun _ => trivial
      have hcalls' : calls (e.act .handlerDone).trace = [.handler job, .handlerDone] := by
        rw [calls_act e rfl rfl, hcalls]
        rfl
      split at h
      · rename_i hnone
        cases h
        refine sound_complete hdone hcalls' hkind ?_ ?_
        · unfold Execution.stopped
          rw [hnone]
          rfl
        · unfold Execution.inFlight
          rw [hnone]
          rfl
      · cases h
        obtain ⟨hpaced, hstopped, -⟩ := hdone.stopHeartbeat
        exact {
          toPaced := hpaced.goto _
          course := by
            show Course o e.claim .stopping (calls (e.act .handlerDone).trace)
            rw [hcalls']
            exact .stopping job hkind
          halted := fun _ => hstopped }
    · cases h
  | handlerThrows error =>
    unfold Execution.hear at h
    simp only at h
    split at h
    · rename_i hpc
      obtain ⟨job, hcalls, hkind⟩ := Course.of_running (hpc ▸ S.course)
      cases h
      refine sound_failed (S.toPaced.act (a := .handlerThrew error) rfl rfl nofun fun _ => trivial) ?_
      rw [calls_act e rfl rfl, hcalls]
      exact .handler job error hkind
    · cases h
  | mutates job =>
    cases h
    exact { S with }
  | timer =>
    unfold Execution.hear at h
    simp only at h
    split at h
    · rename_i beat leaseToken hbeat ht
      split at h
      · cases h
        exact S
      · rename_i hidle
        rw [Bool.or_eq_true, not_or, Bool.not_eq_true, Bool.not_eq_true] at hidle
        have hflight : e.inFlight = false := by
          unfold Execution.inFlight
          rw [hbeat]
          exact hidle.1
        have hlive : ¬ e.stopped := by
          unfold Execution.stopped
          rw [hbeat]
          show ¬ beat.stopped = true
          rw [hidle.2]
          exact nofun
        cases h
        refine sound_beat S (.inl rfl) ⟨rfl, ht, ?_⟩ ?_ (fun hs => absurd hs hlive)
          fun _ hs => absurd hs hlive
        · rw [all_eq_true]
          intro a ha
          refine Bool.not_eq_true' _ ▸ Bool.eq_false_iff.mpr fun hterminal => hlive ?_
          exact (S.quiet (any_eq_true.mpr ⟨a, ha, hterminal⟩)).1
        · rw [hflight]
          rfl
    · cases h
  | renewReturns held =>
    unfold Execution.hear at h
    simp only at h
    split at h
    · rename_i beat hbeat
      split at h
      · rename_i hflight
        cases h
        exact sound_renewed S hbeat hflight fun hs => Bool.or_eq_true_iff.mpr (.inl hs)
      · cases h
    · cases h
  | renewThrows =>
    unfold Execution.hear at h
    simp only at h
    split at h
    · rename_i beat hbeat
      split at h
      · rename_i hflight
        cases h
        exact sound_renewed S hbeat hflight fun hs => hs
      · cases h
    · cases h
  | quiet =>
    unfold Execution.hear at h
    simp only at h
    split at h
    · cases h
    · rename_i hquiet
      have hflight := quiet_iff.mp (Bool.eq_true_of_not_eq_false hquiet)
      split at h
      · rename_i hpc
        cases h
        obtain ⟨job, hcalls, hkind⟩ := Course.of_stopping (hpc ▸ S.course)
        exact sound_complete S.toPaced hcalls hkind (S.halted (by rw [hpc]; nofun)) hflight
      · rename_i error hpc
        cases h
        exact sound_fail S.toPaced (Course.of_stoppingFailed (hpc ▸ S.course))
          (S.halted (by rw [hpc]; nofun)) hflight
      all_goals cases h
  | completeReturns =>
    unfold Execution.hear at h
    simp only at h
    split at h
    · rename_i hpc
      obtain ⟨job, leaseToken, hcalls, hkind, ht⟩ := Course.of_completing (hpc ▸ S.course)
      cases h
      exact {
        toPaced := (S.toPaced.act (a := .completeDone) rfl rfl nofun fun _ => trivial).goto _
        course := by
          show Course o e.claim .settled (calls (e.act .completeDone).trace)
          rw [calls_act e rfl rfl, hcalls]
          exact .completed job leaseToken _ (.inl rfl) hkind ht
        halted := fun _ => (S.over (.inl hpc)).1 }
    · cases h
  | completeThrows error =>
    unfold Execution.hear at h
    simp only at h
    split at h
    · rename_i hpc
      obtain ⟨job, leaseToken, hcalls, hkind, ht⟩ := Course.of_completing (hpc ▸ S.course)
      cases h
      refine sound_failed (S.toPaced.act (a := .completeThrew error) rfl rfl nofun fun _ => trivial) ?_
      rw [calls_act e rfl rfl, hcalls]
      exact .complete job leaseToken error hkind ht
    · cases h
  | failSettles =>
    unfold Execution.hear at h
    simp only at h
    split at h
    · rename_i hpc
      obtain ⟨error, t, job, hfailed, hjob, hcalls⟩ := Course.of_failing (hpc ▸ S.course)
      cases h
      exact {
        toPaced := (S.toPaced.act (a := .failSettled) rfl rfl nofun fun _ => trivial).goto _
        course := by
          show Course o e.claim .settled (calls (e.act .failSettled).trace)
          rw [calls_act e rfl rfl, hcalls, append_assoc]
          exact .failed hfailed job hjob _ (.inl rfl)
        halted := fun _ => (S.over (.inr (.inl hpc))).1 }
    · cases h
  | leaves =>
    unfold Execution.hear at h
    simp only at h
    split at h
    · rename_i hpc
      cases h
      exact {
        toPaced := S.toPaced.goto _
        course := Course.of_settled (hpc ▸ S.course)
        halted := fun _ => S.halted (by rw [hpc]; nofun) }
    · cases h

theorem failed_claim (e : Execution) (error : Failure) : (e.failed error).claim = e.claim := by
  unfold Execution.failed
  split <;> rfl

theorem complete_claim (e : Execution) : e.complete.claim = e.claim := by
  unfold Execution.complete
  split
  · exact failed_claim _ _
  · rfl

/-- An execution keeps its claim, and comes back to `active` never. -/
theorem hear_keeps {signal : Signal} (h : e.hear signal = some e') :
    e'.claim = e.claim ∧ (e.pc = .removed → e'.pc = .removed) := by
  cases signal with
  | handlerReturns =>
    unfold Execution.hear at h
    simp only at h
    split at h
    · rename_i hpc
      refine ⟨?_, fun hr => nomatch hpc.symm.trans hr⟩
      split at h
      · cases h
        exact complete_claim _
      · cases h
        rfl
    · cases h
  | handlerThrows error =>
    unfold Execution.hear at h
    simp only at h
    split at h
    · rename_i hpc
      cases h
      exact ⟨failed_claim _ _, fun hr => nomatch hpc.symm.trans hr⟩
    · cases h
  | mutates job =>
    cases h
    exact ⟨rfl, fun hr => hr⟩
  | timer =>
    unfold Execution.hear at h
    simp only at h
    split at h
    · split at h
      all_goals
        cases h
        exact ⟨rfl, fun hr => hr⟩
    · cases h
  | renewReturns held =>
    unfold Execution.hear at h
    simp only at h
    split at h
    · split at h
      · cases h
        exact ⟨rfl, fun hr => hr⟩
      · cases h
    · cases h
  | renewThrows =>
    unfold Execution.hear at h
    simp only at h
    split at h
    · split at h
      · cases h
        exact ⟨rfl, fun hr => hr⟩
      · cases h
    · cases h
  | quiet =>
    unfold Execution.hear at h
    simp only at h
    split at h
    · cases h
    · split at h
      · rename_i hpc
        cases h
        exact ⟨complete_claim _, fun hr => nomatch hpc.symm.trans hr⟩
      · rename_i error hpc
        cases h
        exact ⟨rfl, fun hr => nomatch hpc.symm.trans hr⟩
      all_goals cases h
  | completeReturns =>
    unfold Execution.hear at h
    simp only at h
    split at h
    · rename_i hpc
      cases h
      exact ⟨rfl, fun hr => nomatch hpc.symm.trans hr⟩
    · cases h
  | completeThrows error =>
    unfold Execution.hear at h
    simp only at h
    split at h
    · rename_i hpc
      cases h
      exact ⟨failed_claim _ _, fun hr => nomatch hpc.symm.trans hr⟩
    · cases h
  | failSettles =>
    unfold Execution.hear at h
    simp only at h
    split at h
    · rename_i hpc
      cases h
      exact ⟨rfl, fun hr => nomatch hpc.symm.trans hr⟩
    · cases h
  | leaves =>
    unfold Execution.hear at h
    simp only at h
    split at h
    · cases h
      exact ⟨rfl, fun _ => rfl⟩
    · cases h

/-! ## The runner -/

/-- No claim starts once `stop` was called. -/
def ClaimOrder (before : List Entry) (entry : Entry) : Prop :=
  ∀ limit, entry = .claim limit → Entry.stop ∉ before

structure Inv (o : Options) (s : State) : Prop where
  sound : ∀ e ∈ s.executions, Sound o e
  claims : s.executions.map Execution.claim = s.claimed.map Job.claim
  bound : (s.activeSize : Int) ≤ o.bound
  room : ∀ available, s.tick = .claiming available →
    0 < available ∧ s.activeSize + available ≤ o.bound
  log : Justified ClaimOrder s.log
  stopped : Entry.stop ∈ s.log → s.stopping = true
  stops : ∀ k, s.stops k ≠ .idle → s.stopping = true
  /-- a `stop` past its first `await` has no claim to wait for -/
  past : ∀ k, s.stops k ≠ .idle → s.stops k ≠ .awaitingTick →
    ∀ available, s.tick ≠ .claiming available
  resolved : ∀ k, s.stops k = .resolved → s.activeSize = 0

variable {s s' : State}

theorem activeSize_set {executions : List Execution} {place : Nat}
    (hplace : executions[place]? = some e) (hpc : e.pc = .removed → e'.pc = .removed) :
    (executions.set place e').countP (fun e => decide (e.pc ≠ .removed)) ≤
      executions.countP fun e => decide (e.pc ≠ .removed) := by
  induction executions generalizing place with
  | nil => exact Nat.le_refl _
  | cons f fs ih =>
    cases place with
    | zero =>
      cases hplace
      rw [set_cons_zero, countP_cons, countP_cons]
      have hle : (if decide (e'.pc ≠ .removed) then 1 else 0) ≤
          if decide (e.pc ≠ .removed) then 1 else 0 := by
        by_cases h : e.pc = .removed
        · simp [h, hpc h]
        · simp [h]
          split <;> omega
      omega
    | succ place =>
      rw [set_cons_succ, countP_cons, countP_cons]
      exact Nat.add_le_add_right (ih hplace) _

theorem map_set_eq {κ : Type} (column : Execution → κ) {executions : List Execution} {place : Nat}
    (hplace : executions[place]? = some e) (hcolumn : column e' = column e) :
    (executions.set place e').map column = executions.map column := by
  induction executions generalizing place with
  | nil => rfl
  | cons f fs ih =>
    cases place with
    | zero =>
      cases hplace
      rw [set_cons_zero, map_cons, map_cons, hcolumn]
    | succ place => rw [set_cons_succ, map_cons, map_cons, ih hplace]

theorem inv_runOnce (I : Inv o s) : Inv o (s.runOnce o) := by
  unfold State.runOnce
  split
  · exact I
  · rename_i hidle
    rw [not_or, Bool.not_eq_true] at hidle
    obtain ⟨hstopping, -⟩ := hidle
    -- nobody has called `stop`
    have hstops : ∀ k, s.stops k = .idle := by
      intro k
      by_contra h
      exact nomatch hstopping.symm.trans (I.stops k h)
    simp only
    split
    · exact { I with
        room := fun _ h => nomatch h
        past := fun _ _ _ _ h => nomatch h }
    · rename_i hroom
      exact { I with
        room := by
          intro available h
          injection h with h
          have hactive : s.activeSize = ({ s with tick := .claiming (o.bound - s.activeSize) } : State).activeSize := rfl
          constructor
          · omega
          · show (s.activeSize : Int) + available ≤ o.bound
            omega
        log := by
          refine I.log.concat fun limit _ hstop => ?_
          exact nomatch hstopping.symm.trans (I.stopped hstop)
        stopped := by
          intro h
          rcases mem_append.mp h with h | h
          · exact I.stopped h
          · cases mem_singleton.mp h
        past := fun k h => absurd (hstops k) h }

theorem inv_claimSettled (I : Inv o s) {available : Int} {result : Option (List Job)}
    (htick : s.tick = .claiming available) (hwithin : withinLimit s (.claimSettles result)) :
    Inv o (s.claimSettled o available result) := by
  obtain ⟨hpos, hroom⟩ := I.room available htick
  cases result with
  | none =>
    exact { I with
      room := fun _ h => nomatch h
      past := fun _ _ _ _ h => nomatch h }
  | some jobs =>
    have hlength : (jobs.length : Int) ≤ available := by
      unfold withinLimit at hwithin
      simp only [htick] at hwithin
      exact hwithin
    have htake : jobs.take available.toNat = jobs := take_of_length_le (by omega)
    have hsize : (s.claimSettled o available (some jobs)).activeSize ≤ s.activeSize + jobs.length := by
      show (s.executions ++ (jobs.take available.toNat).map (Execution.start o)).countP _ ≤ _
      rw [htake, countP_append]
      refine Nat.add_le_add_left ?_ _
      refine Nat.le_trans countP_le_length ?_
      rw [length_map]
    exact {
      sound := by
        intro e he
        rcases mem_append.mp he with he | he
        · exact I.sound e he
        · obtain ⟨job, -, rfl⟩ := mem_map.mp he
          exact sound_start o job
      claims := by
        show (s.executions ++ (jobs.take available.toNat).map (Execution.start o)).map
          Execution.claim = (s.claimed ++ jobs).map Job.claim
        rw [htake, map_append, map_append, I.claims, map_map]
        congr 1
        exact map_congr_left fun job _ => start_claim o job
      bound := by omega
      room := fun _ h => nomatch h
      log := I.log
      stopped := I.stopped
      stops := I.stops
      past := fun _ _ _ _ h => nomatch h
      resolved := by
        intro k hk
        -- nobody waits past a claim under way
        refine absurd htick (I.past k ?_ ?_ available)
        · rw [show s.stops k = .resolved from hk]
          exact nofun
        · rw [show s.stops k = .resolved from hk]
          exact nofun }

theorem inv_drain (I : Inv o s) {k : Nat} (hk : s.stops k ≠ .idle)
    (htick : ∀ available, s.tick ≠ .claiming available) : Inv o (s.drain k) := by
  have hcases : ∀ j, (s.drain k).stops j = s.stops j ∨ j = k := by
    intro j
    by_cases h : j = k
    · exact .inr h
    · refine .inl ?_
      show Function.update s.stops k _ j = s.stops j
      rw [Function.update_apply, if_neg h]
  exact { I with
    stops := by
      intro j hj
      rcases hcases j with h | rfl
      · exact I.stops j (h ▸ hj)
      · exact I.stops j hk
    past := fun _ _ _ => htick
    resolved := by
      intro j hj
      rcases hcases j with h | rfl
      · exact I.resolved j (h ▸ hj)
      · have hj : Function.update s.stops j
            (if s.activeSize > 0 then StopPc.awaitingAll s.active else .resolved) j = .resolved := hj
        rw [Function.update_self] at hj
        split at hj
        · cases hj
        · rename_i hsize
          exact Nat.eq_zero_of_not_pos hsize }

theorem inv_step {l : Label} (I : Inv o s) (hwithin : withinLimit s l)
    (h : s.step o l = some s') : Inv o s' := by
  cases l with
  | runOnce =>
    cases h
    exact inv_runOnce I
  | claimSettles result =>
    unfold State.step at h
    simp only at h
    split at h
    · rename_i available htick
      cases h
      exact inv_claimSettled I htick hwithin
    all_goals cases h
  | tickCleared =>
    unfold State.step at h
    simp only at h
    split at h
    · cases h
      exact { I with
        room := fun _ h => by cases h
        past := fun _ _ _ _ h => by cases h }
    · cases h
  | execution place signal =>
    unfold State.step at h
    simp only at h
    split at h
    · rename_i e hplace
      obtain ⟨e', he', rfl⟩ := Option.map_eq_some_iff.mp h
      obtain ⟨hclaim, hpc⟩ := hear_keeps he'
      have hmem := mem_of_getElem? hplace
      have hsize := activeSize_set hplace hpc
      exact { I with
        sound := by
          intro f hf
          rcases mem_or_eq_of_mem_set hf with hf | rfl
          · exact I.sound f hf
          · exact sound_hear (I.sound e hmem) he'
        claims := by
          rw [← I.claims]
          exact map_set_eq Execution.claim hplace hclaim
        bound := Int.le_trans (Int.ofNat_le.mpr hsize) I.bound
        room := by
          intro available htick
          obtain ⟨hpos, hroom⟩ := I.room available htick
          exact ⟨hpos, Int.le_trans (Int.add_le_add_right (Int.ofNat_le.mpr hsize) _) hroom⟩
        resolved := fun k hk => Nat.le_zero.mp (Nat.le_trans hsize (Nat.le_of_eq (I.resolved k hk))) }
    · cases h
  | stop k =>
    unfold State.step at h
    simp only at h
    split at h
    · rename_i hk
      cases h
      have hcases : ∀ j, (Function.update s.stops k .awaitingTick j = s.stops j) ∨
          Function.update s.stops k .awaitingTick j = .awaitingTick := by
        intro j
        rw [Function.update_apply]
        split
        · exact .inr rfl
        · exact .inl rfl
      exact { I with
        log := I.log.concat fun limit h => by cases h
        stopped := fun _ => rfl
        stops := fun _ _ => rfl
        past := by
          intro j hj hj'
          rcases hcases j with h | h
          · exact I.past j (fun hidle => hj (h.trans hidle)) fun hwait => hj' (h.trans hwait)
          · exact absurd h hj'
        resolved := by
          intro j hj
          rcases hcases j with h | h
          · exact I.resolved j (h.symm.trans hj)
          · cases h.symm.trans hj }
    all_goals cases h
  | stopNext k =>
    unfold State.step at h
    simp only at h
    split at h
    · rename_i hk
      have hne : s.stops k ≠ .idle := by
        simp [hk]
      split at h
      · cases h
      · rename_i htick
        cases h
        exact inv_drain I hne fun _ h => by cases htick.symm.trans h
      · rename_i htick
        cases h
        exact inv_drain I hne fun _ h => by cases htick.symm.trans h
    · rename_i places hk
      split at h
      · cases h
        have hne : s.stops k ≠ .idle := by
          simp [hk]
        refine inv_drain I hne (I.past k hne ?_)
        simp [hk]
      · cases h
    all_goals cases h

theorem inv_fresh (o : Options) : Inv o .fresh where
  sound _ h := absurd h not_mem_nil
  claims := rfl
  bound := by
    show ((0 : Nat) : Int) ≤ o.bound
    unfold Options.bound MAX_CONCURRENCY
    omega
  room _ h := nomatch h
  log := Justified.nil
  stopped h := absurd h not_mem_nil
  stops _ h := absurd rfl h
  past _ h := absurd rfl h
  resolved _ h := nomatch h

theorem inv_inductive (o : Options) : (system o).InductiveOn withinLimit (Inv o) where
  init s h := by
    rw [h]
    exact inv_fresh o
  step s l s' I hwithin h := inv_step I hwithin h

/-! ## What a course amounts to -/

def Act.isHandler : Act → Bool
  | .handler _ => true
  | _ => false

def Act.isFail : Act → Bool
  | .fail _ _ _ => true
  | _ => false

/-- The handler or `complete` threw. -/
def Act.isThrow : Act → Bool
  | .handlerThrew _ | .completeThrew _ => true
  | _ => false

theorem countP_calls {p : Act → Bool} (hp : ∀ a, p a = true → (a.isRenew || a.isRenewSettled) = false)
    (trace : List Act) : (calls trace).countP p = trace.countP p := by
  unfold calls
  rw [countP_filter]
  apply countP_congr
  intro a _
  rw [Bool.and_eq_true]
  constructor
  · intro h
    exact h.1
  · intro h
    exact ⟨h, by rw [hp a h]; rfl⟩

theorem Failed.facts {claim : Claim} {error : Failure} {t : List Act}
    (h : Failed o claim error t) : t.countP Act.isFail = 0 ∧
      (o.handlers.contains claim.kind = true → t.countP Act.isHandler = 1) := by
  cases h with
  | unsupported h => exact ⟨rfl, fun hkind => nomatch h.symm.trans hkind⟩
  | handler | noLeaseToken | complete => exact ⟨rfl, fun _ => rfl⟩

theorem Course.handler_once {claim : Claim} {pc : ExecPc} {t : List Act}
    (h : Course o claim pc t) (hkind : o.handlers.contains claim.kind = true) :
    t.countP Act.isHandler = 1 := by
  cases h with
  | running | stopping | completing | completed => rfl
  | stoppingFailed failed => exact failed.facts.2 hkind
  | failing failed | failed failed =>
    rw [countP_append, failed.facts.2 hkind]
    rfl

theorem Course.fail_le_one {claim : Claim} {pc : ExecPc} {t : List Act}
    (h : Course o claim pc t) : t.countP Act.isFail ≤ 1 := by
  cases h with
  | running | stopping | completing | completed => exact Nat.zero_le 1
  | stoppingFailed failed =>
    rw [failed.facts.1]
    exact Nat.zero_le 1
  | failing failed | failed failed =>
    rw [countP_append, failed.facts.1]
    exact Nat.le_refl 1

theorem Course.fail_once {claim : Claim} {pc : ExecPc} {t : List Act} (h : Course o claim pc t)
    (hpc : pc = .settled ∨ pc = .removed) (hthrew : 0 < t.countP Act.isThrow) :
    t.countP Act.isFail = 1 := by
  cases h with
  | running | stopping | completing | stoppingFailed | failing => simp at hpc
  | completed => exact absurd hthrew (Nat.lt_irrefl 0)
  | failed failed =>
    rw [countP_append, failed.facts.1]
    rfl

theorem running_le_active (s : State) :
    s.executions.countP (fun e => decide (e.pc = .running)) ≤ s.activeSize := by
  refine countP_mono_left fun e _ h => ?_
  rw [decide_eq_true_eq] at h ⊢
  rw [h]
  exact nofun

theorem removed_of_inactive (hs : s.activeSize = 0) (he : e ∈ s.executions) : e.pc = .removed := by
  have hnone := countP_eq_zero.mp hs e he
  rw [decide_eq_true_eq, not_not] at hnone
  exact hnone

theorem hear_removed (S : Sound o e) (hpc : e.pc = .removed) {signal : Signal}
    (h : e.hear signal = some e') : e'.trace = e.trace := by
  obtain ⟨hstopped, hflight⟩ := S.over (.inr (.inr (.inr hpc)))
  cases signal with
  | timer =>
    unfold Execution.hear at h
    simp only at h
    split at h
    · rename_i beat leaseToken hbeat ht
      unfold Execution.stopped at hstopped
      rw [hbeat] at hstopped
      have hbeats : (beat.inFlight || beat.stopped) = true :=
        Bool.or_eq_true_iff.mpr (.inr hstopped)
      rw [if_pos hbeats] at h
      cases h
      rfl
    · cases h
  | mutates job =>
    cases h
    rfl
  | renewReturns | renewThrows =>
    unfold Execution.hear at h
    simp only at h
    split at h
    · rename_i beat hbeat
      unfold Execution.inFlight at hflight
      rw [hbeat] at hflight
      have hidle : ¬ beat.inFlight = true := Bool.eq_false_iff.mp hflight
      rw [if_neg hidle] at h
      cases h
    · cases h
  | handlerReturns | handlerThrows | quiet | completeReturns | completeThrows | failSettles
  | leaves =>
    unfold Execution.hear at h
    simp [hpc] at h

theorem resolved_step {k : Nat} {l : Label} (I : Inv o s) (hk : s.stops k = .resolved)
    (h : s.step o l = some s') : s'.stops k = .resolved ∧
      s'.executions.map Execution.trace = s.executions.map Execution.trace ∧
        s'.claimed = s.claimed := by
  have hne : s.stops k ≠ .idle ∧ s.stops k ≠ .awaitingTick := by
    simp [hk]
  have hother : ∀ j pc, s.stops j ≠ .resolved → Function.update s.stops j pc k = .resolved := by
    intro j pc hj
    rw [Function.update_apply, if_neg]
    · exact hk
    · rintro rfl
      exact hj hk
  cases l with
  | runOnce =>
    cases h
    unfold State.runOnce
    rw [if_pos (.inl (I.stops k hne.1))]
    exact ⟨hk, rfl, rfl⟩
  | claimSettles result =>
    unfold State.step at h
    simp only at h
    split at h
    · rename_i available htick
      exact absurd htick (I.past k hne.1 hne.2 available)
    all_goals cases h
  | tickCleared =>
    unfold State.step at h
    simp only at h
    split at h
    · cases h
      exact ⟨hk, rfl, rfl⟩
    · cases h
  | execution place signal =>
    unfold State.step at h
    simp only at h
    split at h
    · rename_i e hplace
      obtain ⟨e', he', rfl⟩ := Option.map_eq_some_iff.mp h
      have hmem := mem_of_getElem? hplace
      have hpc := removed_of_inactive (I.resolved k hk) hmem
      exact ⟨hk, map_set_eq Execution.trace hplace (hear_removed (I.sound e hmem) hpc he'), rfl⟩
    · cases h
  | stop j =>
    unfold State.step at h
    simp only at h
    split at h
    · rename_i hj
      cases h
      exact ⟨hother j _ (by simp [hj]), rfl, rfl⟩
    all_goals cases h
  | stopNext j =>
    unfold State.step at h
    simp only at h
    split at h
    · rename_i hj
      split at h
      · cases h
      all_goals
        cases h
        exact ⟨hother j _ (by simp [hj]), rfl, rfl⟩
    · rename_i places hj
      split at h
      · cases h
        exact ⟨hother j _ (by simp [hj]), rfl, rfl⟩
      · cases h
    all_goals cases h

/-- Nothing is called after a `stop` has resolved. -/
theorem nothing_after {k : Nat} (I : Inv o s) (hk : s.stops k = .resolved) {ls : List Label}
    (hrun : (system o).RunOn withinLimit s ls s') :
    s'.executions.map Execution.trace = s.executions.map Execution.trace ∧
      s'.claimed = s.claimed := by
  have hboth : Inv o s' ∧ s'.stops k = .resolved ∧
      s'.executions.map Execution.trace = s.executions.map Execution.trace ∧
        s'.claimed = s.claimed := by
    refine hrun.keeps (I := fun t => Inv o t ∧ t.stops k = .resolved ∧
      t.executions.map Execution.trace = s.executions.map Execution.trace ∧
        t.claimed = s.claimed) ?_ ⟨I, hk, rfl, rfl⟩
    intro t l t' ⟨J, hk, htraces, hclaimed⟩ hwithin hstep
    refine ⟨inv_step J hwithin hstep, ?_⟩
    obtain ⟨hk', htraces', hclaimed'⟩ := resolved_step J hk hstep
    exact ⟨hk', htraces'.trans htraces, hclaimed'.trans hclaimed⟩
  exact hboth.2.2

structure RunnerLifecycle (o : Options) (s : State) : Prop where
  concurrency : (s.executions.countP fun e => decide (e.pc = .running) : Int) ≤ o.bound
  dispatched : s.executions.map Execution.claim = s.claimed.map Job.claim
  course : ∀ e ∈ s.executions, Course o e.claim e.pc (calls e.trace)
  order : ∀ e ∈ s.executions, Justified (CallOrder e.claim) e.trace
  handler_once : ∀ e ∈ s.executions, o.handlers.contains e.claim.kind = true →
    e.trace.countP Act.isHandler = 1
  fail_le_one : ∀ e ∈ s.executions, e.trace.countP Act.isFail ≤ 1
  fail_once : ∀ e ∈ s.executions, e.pc = .settled ∨ e.pc = .removed →
    0 < e.trace.countP Act.isThrow → e.trace.countP Act.isFail = 1
  claims : Justified ClaimOrder s.log
  resolved : ∀ k, s.stops k = .resolved →
    (∀ e ∈ s.executions, e.pc = .removed ∧ e.inFlight = false) ∧
    (∀ available, s.tick ≠ .claiming available) ∧
    ∀ ls s', (system o).RunOn withinLimit s ls s' →
      s'.executions.map Execution.trace = s.executions.map Execution.trace ∧ s'.claimed = s.claimed

theorem runner_lifecycle (o : Options) (s : State)
    (hr : (system o).ReachableOn withinLimit s) : RunnerLifecycle o s := by
  have I := (inv_inductive o).reachable hr
  have hcount : ∀ e ∈ s.executions, e.trace.countP Act.isFail = (calls e.trace).countP Act.isFail :=
    fun e _ => (countP_calls (fun a ha => by cases a <;> first | rfl | cases ha) e.trace).symm
  exact {
    concurrency := Int.le_trans (Int.ofNat_le.mpr (running_le_active s)) I.bound
    dispatched := I.claims
    course := fun e he => (I.sound e he).course
    order := fun e he => (I.sound e he).order
    handler_once := by
      intro e he hkind
      rw [← countP_calls (fun a ha => by cases a <;> first | rfl | cases ha) e.trace]
      exact (I.sound e he).course.handler_once hkind
    fail_le_one := by
      intro e he
      rw [hcount e he]
      exact (I.sound e he).course.fail_le_one
    fail_once := by
      intro e he hpc hthrew
      rw [hcount e he]
      refine (I.sound e he).course.fail_once hpc ?_
      rw [countP_calls fun a ha => by cases a <;> first | rfl | cases ha]
      exact hthrew
    claims := I.log
    resolved := by
      intro k hk
      have hne : s.stops k ≠ .idle ∧ s.stops k ≠ .awaitingTick := by
        rw [hk]
        exact ⟨nofun, nofun⟩
      refine ⟨fun e he => ?_, I.past k hne.1 hne.2, fun ls s' hrun => nothing_after I hk hrun⟩
      have hpc := removed_of_inactive (I.resolved k hk) he
      exact ⟨hpc, ((I.sound e he).over (.inr (.inr (.inr hpc)))).2⟩ }

end

/-- Two jobs are claimed: one is renewed and completed, the other one's handler throws; the runner
is stopped meanwhile. -/
def twoJobs : Options := ⟨[units "distill"], true, none⟩

def stoppedRun : Option State :=
  let job (id : String) : Job := ⟨units id, units "distill", some (units "lease"), []⟩
  LTS.exec (LTS.guardStep withinLimit (State.step twoJobs)) .fresh [
    .runOnce, .stop 0, .claimSettles (some [job "a", job "b"]), .execution 0 .timer,
    .execution 0 .handlerReturns, .execution 1 (.handlerThrows .other), .stopNext 0,
    .execution 0 (.renewReturns true), .execution 0 .quiet, .execution 0 .completeReturns,
    .execution 1 .quiet, .execution 1 .failSettles, .execution 0 .leaves, .execution 1 .leaves,
    .tickCleared, .stopNext 0]

theorem runner_lifecycle_stopped : ∃ s, stoppedRun = some s ∧ RunnerLifecycle twoJobs s ∧
    s.executions.map (fun e => e.trace.length) = [6, 4] ∧ s.stops 0 = .resolved := by
  have hend : stoppedRun.map (fun s => (s.executions.map fun e => e.trace.length,
      match s.stops 0 with | .resolved => true | _ => false)) = some ([6, 4], true) := by
    decide +kernel
  obtain ⟨s, hs, heq⟩ := Option.map_eq_some_iff.mp hend
  obtain ⟨htraces, hstop⟩ := Prod.mk.inj heq
  refine ⟨s, hs, runner_lifecycle twoJobs s (LTS.reachableOn_of_exec rfl hs), htraces, ?_⟩
  cases h : s.stops 0 with
  | resolved => rfl
  | idle | awaitingTick | awaitingAll =>
    rw [h] at hstop
    cases hstop

end OpenBrain.Server.Maintenance.Runner
