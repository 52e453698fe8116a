import OpenBrain.Clients.Session.Client
import OpenBrain.Core.LTS

/-!
# One session at a time

`Inv` follows the session ids the server has handed out. While an initialization is running it is
the shared one and the client has no session; an id is current, or was answered as expired, or was
sent its `DELETE`, or is `pending`: the running initialization has it in hand. `loose` is an id
between two of these places, inside a step.

**Results.** `session_lifecycle`, in every run of a server that hands out an id once (`freshIds`).
-/
namespace OpenBrain.Clients.Session
open OpenBrain.Core List

/-! ## What the log says -/

def Event.handed : Event → Option Str
  | .handedOut x => some x
  | .initializeRequest _ | .initialized _ | .toolCall _ | .delete _ | .expired _ => none

def Event.expiredId : Event → Option Str
  | .expired x => some x
  | .initializeRequest _ | .initialized _ | .toolCall _ | .delete _ | .handedOut _ => none

def Event.deletedId : Event → Option Str
  | .delete headers => headers.mcpSessionId
  | .initializeRequest _ | .initialized _ | .toolCall _ | .handedOut _ | .expired _ => none

def handedIds (log : List Event) : List Str := log.filterMap Event.handed
def expiredIds (log : List Event) : List Str := log.filterMap Event.expiredId
def deletedIds (log : List Event) : List Str := log.filterMap Event.deletedId

/-- A tool call is posted under a session whose `DELETE` was not sent before. -/
def Posts (log : List Event) : Prop :=
  Justified (fun before e => ∀ headers, e = .toolCall headers →
    ∃ x, headers.mcpSessionId = some x ∧ x ∉ deletedIds before) log

/-- The session a response to `initialize` hands out. -/
def handsOut (toLowerCase : Str → Str) (response : TransportResponse) : Option Str :=
  match raiseForStatus response with
  | .ok _ => headerValue toLowerCase response.headers (units "mcp-session-id")
  | .error _ => none

/-! ## The invariant -/

def InitPc.running : InitPc → Bool
  | .posting .. | .notifying .. | .discarding .. | .failing .. | .sleeping .. => true
  | .unborn | .fulfilled | .rejected => false

def InitPc.inFlight : InitPc → Bool
  | .posting .. => true
  | .unborn | .notifying .. | .discarding .. | .failing .. | .sleeping .. | .fulfilled
  | .rejected => false

def InitPc.pending : InitPc → Option Str
  | .notifying _ _ pendingSessionId => some pendingSessionId
  | .unborn | .posting .. | .discarding .. | .failing .. | .sleeping .. | .fulfilled
  | .rejected => none

theorem InitPc.running_of_pending {pc : InitPc} {x : Str} (h : pc.pending = some x) :
    pc.running = true := by
  cases pc with
  | notifying _ _ _ => rfl
  | unborn | posting _ _ _ | discarding _ _ _ | failing _ _ _ | sleeping _ | fulfilled | rejected =>
    cases h

/-- What of a state is about sessions. -/
structure Sessions where
  sessionId : Option Str
  initializationPromise : Option Nat
  inits : Nat → InitPc
  initCount : Nat
  log : List Event

def State.sessions (s : State) : Sessions :=
  ⟨s.client.sessionId, s.client.initializationPromise, s.inits, s.initCount, s.log⟩

/-- An id in use. -/
structure Live (log : List Event) (x : Str) : Prop where
  ne_nil : x ≠ []
  handed : x ∈ handedIds log
  kept : x ∉ deletedIds log

structure Inv (loose : Option Str) (s : Sessions) : Prop where
  unborn : ∀ n, s.initCount ≤ n → s.inits n = .unborn
  promise : ∀ n, s.initializationPromise = some n → n < s.initCount
  running : ∀ n, (s.inits n).running = true →
    s.initializationPromise = some n ∧ s.sessionId = none
  current : ∀ x, s.sessionId = some x → Live s.log x
  pending : ∀ n x, (s.inits n).pending = some x → Live s.log x
  held : ∀ x, loose = some x → Live s.log x
  alone : ∀ x, loose = some x → s.sessionId = none ∧ ∀ n y, (s.inits n).pending ≠ some y
  once : (deletedIds s.log).Nodup
  deleted : ∀ x ∈ deletedIds s.log, x ∈ handedIds s.log
  accounted : ∀ x ∈ handedIds s.log, s.sessionId = some x ∨ x ∈ expiredIds s.log ∨
    x ∈ deletedIds s.log ∨ (∃ n, (s.inits n).pending = some x) ∨ loose = some x
  posts : Posts s.log

section
variable {s s' : State} {loose loose' : Option Str} {n i j : Nat} {x : Str}

theorem Inv.setClient (I : Inv loose s.sessions) {c : Client}
    (hsession : c.sessionId = s.client.sessionId)
    (hpromise : c.initializationPromise = s.client.initializationPromise) :
    Inv loose (s.setClient c).sessions := by
  have heq : (s.setClient c).sessions = s.sessions := by
    unfold State.sessions State.setClient
    rw [hsession, hpromise]
  rw [heq]
  exact I

theorem handedIds_append (log : List Event) (e : Event) :
    handedIds (log ++ [e]) = handedIds log ++ e.handed.toList := by
  unfold handedIds
  rw [filterMap_append]
  cases h : e.handed <;> simp [h]

theorem expiredIds_append (log : List Event) (e : Event) :
    expiredIds (log ++ [e]) = expiredIds log ++ e.expiredId.toList := by
  unfold expiredIds
  rw [filterMap_append]
  cases h : e.expiredId <;> simp [h]

theorem deletedIds_append (log : List Event) (e : Event) :
    deletedIds (log ++ [e]) = deletedIds log ++ e.deletedId.toList := by
  unfold deletedIds
  rw [filterMap_append]
  cases h : e.deletedId <;> simp [h]

theorem Live.append {log : List Event} {e : Event} (h : Live log x) (he : e.deletedId ≠ some x) :
    Live (log ++ [e]) x where
  ne_nil := h.ne_nil
  handed := by
    rw [handedIds_append]
    exact mem_append_left _ h.handed
  kept := by
    rw [deletedIds_append, mem_append]
    rintro (hx | hx)
    · exact h.kept hx
    · exact he (Option.mem_toList.mp hx)

theorem Inv.emit (I : Inv loose s.sessions) {e : Event} (hhanded : e.handed = none)
    (hdeleted : e.deletedId = none)
    (hpost : ∀ headers, e = .toolCall headers → headers.mcpSessionId = s.client.sessionId ∧
      s.client.sessionId ≠ none) : Inv loose (s.emit e).sessions := by
  have hkept : ∀ y, e.deletedId ≠ some y := fun y h => nomatch hdeleted.symm.trans h
  have hlogged : deletedIds (s.log ++ [e]) = deletedIds s.log := by
    rw [deletedIds_append, hdeleted, Option.toList_none, append_nil]
  have hknown : handedIds (s.log ++ [e]) = handedIds s.log := by
    rw [handedIds_append, hhanded, Option.toList_none, append_nil]
  exact {
    unborn := I.unborn
    promise := I.promise
    running := I.running
    current := fun y h => (I.current y h).append (hkept y)
    pending := fun m y h => (I.pending m y h).append (hkept y)
    held := fun y h => (I.held y h).append (hkept y)
    alone := I.alone
    once := by
      show (deletedIds (s.log ++ [e])).Nodup
      rw [hlogged]
      exact I.once
    deleted := by
      show ∀ y ∈ deletedIds (s.log ++ [e]), y ∈ handedIds (s.log ++ [e])
      rw [hlogged, hknown]
      exact I.deleted
    accounted := by
      show ∀ y ∈ handedIds (s.log ++ [e]), s.client.sessionId = some y ∨
        y ∈ expiredIds (s.log ++ [e]) ∨ y ∈ deletedIds (s.log ++ [e]) ∨
          (∃ m, (s.inits m).pending = some y) ∨ loose = some y
      rw [hlogged, hknown, expiredIds_append]
      intro y hy
      rcases I.accounted y hy with h | h | h
      · exact .inl h
      · exact .inr (.inl (mem_append_left _ h))
      · exact .inr (.inr h)
    posts := by
      refine I.posts.concat fun headers he => ?_
      obtain ⟨hsession, hsome⟩ := hpost headers he
      obtain ⟨y, hy⟩ := Option.ne_none_iff_exists'.mp hsome
      exact ⟨y, hsession.trans hy, (I.current y hy).kept⟩ }

theorem Inv.handOut (I : Inv none s.sessions) (hne : x ≠ []) (hfresh : x ∉ handedIds s.log)
    (hrun : (s.inits n).running = true) (hnone : (s.inits n).pending = none) :
    Inv (some x) (s.emit (.handedOut x)).sessions := by
  have hlogged : deletedIds (s.log ++ [.handedOut x]) = deletedIds s.log := by
    rw [deletedIds_append]
    exact append_nil _
  have hknown : handedIds (s.log ++ [.handedOut x]) = handedIds s.log ++ [x] := handedIds_append _ _
  have hkept : ∀ y, (Event.handedOut x).deletedId ≠ some y := fun y h => nomatch h
  exact {
    unborn := I.unborn
    promise := I.promise
    running := I.running
    current := fun y h => (I.current y h).append (hkept y)
    pending := fun m y h => (I.pending m y h).append (hkept y)
    held := by
      intro y h
      rw [← Option.some.inj h]
      refine ⟨hne, ?_, ?_⟩
      · show x ∈ handedIds (s.log ++ [.handedOut x])
        rw [hknown]
        exact mem_append_right _ (mem_singleton.mpr rfl)
      · show x ∉ deletedIds (s.log ++ [.handedOut x])
        rw [hlogged]
        exact fun hx => hfresh (I.deleted x hx)
    alone := by
      intro y _
      obtain ⟨hpromise, hsession⟩ := I.running n hrun
      refine ⟨hsession, fun m z hz => ?_⟩
      have hm := (I.running m (InitPc.running_of_pending hz)).1
      have hmn : m = n := Option.some.inj (hm.symm.trans hpromise)
      rw [hmn] at hz
      exact nomatch hnone.symm.trans hz
    once := by
      show (deletedIds (s.log ++ [.handedOut x])).Nodup
      rw [hlogged]
      exact I.once
    deleted := by
      show ∀ y ∈ deletedIds (s.log ++ [.handedOut x]), y ∈ handedIds (s.log ++ [.handedOut x])
      rw [hlogged, hknown]
      exact fun y hy => mem_append_left _ (I.deleted y hy)
    accounted := by
      show ∀ y ∈ handedIds (s.log ++ [.handedOut x]), s.client.sessionId = some y ∨
        y ∈ expiredIds (s.log ++ [.handedOut x]) ∨ y ∈ deletedIds (s.log ++ [.handedOut x]) ∨
          (∃ m, (s.inits m).pending = some y) ∨ some x = some y
      rw [hlogged, hknown, expiredIds_append]
      intro y hy
      rcases mem_append.mp hy with hy | hy
      · rcases I.accounted y hy with h | h | h | h | h
        · exact .inl h
        · exact .inr (.inl (mem_append_left _ h))
        · exact .inr (.inr (.inl h))
        · exact .inr (.inr (.inr (.inl h)))
        · cases h
      · rw [mem_singleton.mp hy]
        exact .inr (.inr (.inr (.inr rfl)))
    posts := I.posts.concat nofun }

theorem Inv.delete (I : Inv (some x) s.sessions) {headers : McpHeaders}
    (hx : headers.mcpSessionId = some x) : Inv none (s.emit (.delete headers)).sessions := by
  have live := I.held x rfl
  obtain ⟨hsession, hpending⟩ := I.alone x rfl
  have hlogged : deletedIds (s.log ++ [.delete headers]) = deletedIds s.log ++ [x] := by
    rw [deletedIds_append]
    show _ ++ headers.mcpSessionId.toList = _
    rw [hx, Option.toList_some]
  have hknown : handedIds (s.log ++ [.delete headers]) = handedIds s.log := by
    rw [handedIds_append]
    exact append_nil _
  exact {
    unborn := I.unborn
    promise := I.promise
    running := I.running
    current := fun y h => nomatch hsession.symm.trans h
    pending := fun m y h => absurd h (hpending m y)
    held := fun y h => nomatch h
    alone := fun y h => nomatch h
    once := by
      show (deletedIds (s.log ++ [.delete headers])).Nodup
      rw [hlogged]
      refine nodup_append.mpr ⟨I.once, nodup_singleton x, fun y hy z hz hyz => ?_⟩
      rw [hyz, mem_singleton.mp hz] at hy
      exact live.kept hy
    deleted := by
      show ∀ y ∈ deletedIds (s.log ++ [.delete headers]), y ∈ handedIds (s.log ++ [.delete headers])
      rw [hlogged, hknown]
      intro y hy
      rcases mem_append.mp hy with hy | hy
      · exact I.deleted y hy
      · rw [mem_singleton.mp hy]
        exact live.handed
    accounted := by
      show ∀ y ∈ handedIds (s.log ++ [.delete headers]), s.client.sessionId = some y ∨
        y ∈ expiredIds (s.log ++ [.delete headers]) ∨ y ∈ deletedIds (s.log ++ [.delete headers]) ∨
          (∃ m, (s.inits m).pending = some y) ∨ none = some y
      rw [hlogged, hknown, expiredIds_append]
      intro y hy
      rcases I.accounted y hy with h | h | h | h | h
      · exact .inl h
      · exact .inr (.inl (mem_append_left _ h))
      · exact .inr (.inr (.inl (mem_append_left _ h)))
      · exact .inr (.inr (.inr (.inl h)))
      · rw [Option.some.inj h]
        exact .inr (.inr (.inl (mem_append_right _ (mem_singleton.mpr rfl))))
    posts := I.posts.concat nofun }

theorem mcpHeaders_some (c : Client) (hx : x ≠ []) :
    mcpHeaders c true (some x) = .ok ⟨some x, some c.protocolVersion⟩ := by
  unfold mcpHeaders
  rw [if_pos rfl]
  cases x with
  | nil => exact absurd rfl hx
  | cons u us => rfl

theorem mcpHeaders_none {c : Client} (h : c.sessionId = none) :
    mcpHeaders c true none = .error none := by
  unfold mcpHeaders
  rw [h]
  rfl

theorem Inv.discardSession (I : Inv (some x) s.sessions) :
    Inv none (s.discardSession x).sessions := by
  unfold State.discardSession
  rw [mcpHeaders_some _ (I.held x rfl).ne_nil]
  exact I.delete rfl

/-- The shared initialization goes on; ids pass between it and the step. -/
theorem Inv.setInit (I : Inv loose s.sessions) {pc : InitPc} (hn : (s.inits n).running = true)
    (hcarried : ∀ y, (pc.pending = some y ∨ loose' = some y) ↔
      ((s.inits n).pending = some y ∨ loose = some y))
    (hone : loose' ≠ none → pc.pending = none) : Inv loose' (s.setInit n pc).sessions := by
  obtain ⟨hpromise, hsession⟩ := I.running n hn
  -- no other initialization is running
  have hothers : ∀ m, m ≠ n → (s.inits m).running = false := by
    intro m hm
    refine Bool.eq_false_iff.mpr fun hrun => hm ?_
    exact Option.some.inj ((I.running m hrun).1.symm.trans hpromise)
  have hpoint : ∀ m, (s.setInit n pc).inits m = if m = n then pc else s.inits m := by
    intro m
    unfold State.setInit
    exact Function.update_apply _ _ _ _
  have hlive : ∀ y, (s.inits n).pending = some y ∨ loose = some y → Live s.log y :=
    fun y h => h.elim (I.pending n y) (I.held y)
  have hpending : ∀ m y, ((s.setInit n pc).inits m).pending = some y → m = n ∧ pc.pending = some y := by
    intro m y hy
    rw [hpoint] at hy
    split at hy
    · rename_i hm
      exact ⟨hm, hy⟩
    · rename_i hm
      exact nomatch (hothers m hm).symm.trans (InitPc.running_of_pending hy)
  exact {
    unborn := by
      intro m hm
      have hmn : m ≠ n := fun h => Nat.not_lt.mpr hm (h ▸ I.promise n hpromise)
      show (s.setInit n pc).inits m = .unborn
      rw [hpoint, if_neg hmn]
      exact I.unborn m hm
    promise := I.promise
    running := by
      intro m hm
      have hmn : m = n := by
        by_contra h
        have hrun : ((s.setInit n pc).inits m).running = true := hm
        rw [hpoint, if_neg h, hothers m h] at hrun
        cases hrun
      rw [hmn]
      exact ⟨hpromise, hsession⟩
    current := I.current
    pending := fun m y h => hlive y ((hcarried y).mp (.inl (hpending m y h).2))
    held := fun y h => hlive y ((hcarried y).mp (.inr h))
    alone := by
      intro y hy
      refine ⟨hsession, fun m z hz => ?_⟩
      have hnone := hone fun h => nomatch h.symm.trans hy
      exact nomatch hnone.symm.trans (hpending m z hz).2
    once := I.once
    deleted := I.deleted
    accounted := by
      have hcarry : ∀ y, (s.inits n).pending = some y ∨ loose = some y →
          (∃ m, ((s.setInit n pc).inits m).pending = some y) ∨ loose' = some y := by
        intro y hy
        rcases (hcarried y).mpr hy with h | h
        · refine .inl ⟨n, ?_⟩
          rw [hpoint, if_pos rfl]
          exact h
        · exact .inr h
      intro y hy
      rcases I.accounted y hy with h | h | h | ⟨m, hm⟩ | h
      · exact .inl h
      · exact .inr (.inl h)
      · exact .inr (.inr (.inl h))
      · by_cases hmn : m = n
        · rw [hmn] at hm
          exact .inr (.inr (.inr (hcarry y (.inl hm))))
        · exact nomatch (hothers m hmn).symm.trans (InitPc.running_of_pending hm)
      · exact .inr (.inr (.inr (hcarry y (.inr h))))
    posts := I.posts }

/-- It goes on with no id in hand before and after. -/
theorem Inv.setInit_plain (I : Inv loose s.sessions) {pc : InitPc}
    (hn : (s.inits n).running = true) (hbefore : (s.inits n).pending = none)
    (hafter : pc.pending = none) : Inv loose (s.setInit n pc).sessions :=
  I.setInit hn (fun y => by rw [hbefore, hafter]) fun _ => hafter

theorem Inv.take (I : Inv none s.sessions) (hx : s.client.sessionId = some x) :
    Inv (some x) (s.setClient { s.client with sessionId := none }).sessions where
  unborn := I.unborn
  promise := I.promise
  running m hm := ⟨(I.running m hm).1, rfl⟩
  current _ h := nomatch h
  pending := I.pending
  held y h := Option.some.inj h ▸ I.current x hx
  alone _ _ := ⟨rfl, fun m z hz =>
    nomatch (I.running m (InitPc.running_of_pending hz)).2.symm.trans hx⟩
  once := I.once
  deleted := I.deleted
  accounted y hy := by
    rcases I.accounted y hy with h | h | h | h | h
    · exact .inr (.inr (.inr (.inr (hx.symm.trans h))))
    · exact .inr (.inl h)
    · exact .inr (.inr (.inl h))
    · exact .inr (.inr (.inr (.inl h)))
    · cases h
  posts := I.posts

theorem Inv.adopt (I : Inv (some x) s.sessions) (hidle : ∀ m, (s.inits m).running = false) :
    Inv none (s.setClient { s.client with sessionId := some x }).sessions where
  unborn := I.unborn
  promise := I.promise
  running m hm := nomatch (hidle m).symm.trans hm
  current y h := Option.some.inj h ▸ I.held x rfl
  pending := I.pending
  held _ h := nomatch h
  alone _ h := nomatch h
  once := I.once
  deleted := I.deleted
  accounted y hy := by
    rcases I.accounted y hy with h | h | h | h | h
    · exact nomatch (I.alone x rfl).1.symm.trans h
    · exact .inr (.inl h)
    · exact .inr (.inr (.inl h))
    · exact .inr (.inr (.inr (.inl h)))
    · exact .inl h
  posts := I.posts

/-- The loose id was answered as expired. -/
theorem Inv.drop (I : Inv (some x) s.sessions) (hx : x ∈ expiredIds s.log) :
    Inv none s.sessions where
  unborn := I.unborn
  promise := I.promise
  running := I.running
  current := I.current
  pending := I.pending
  held _ h := nomatch h
  alone _ h := nomatch h
  once := I.once
  deleted := I.deleted
  accounted y hy := by
    rcases I.accounted y hy with h | h | h | h | h
    · exact .inl h
    · exact .inr (.inl h)
    · exact .inr (.inr (.inl h))
    · exact .inr (.inr (.inr (.inl h)))
    · exact .inr (.inl (Option.some.inj h ▸ hx))
  posts := I.posts

/-- The promise of an initialization that is settled is forgotten. -/
theorem Inv.settle (I : Inv loose s.sessions) (owner : Bool) (hn : (s.inits n).running = false) :
    Inv loose (s.setClient (s.client.settle n owner)).sessions := by
  unfold Client.settle
  split
  · rename_i h
    exact {
      unborn := I.unborn
      promise := fun m hm => nomatch hm
      running := by
        intro m hm
        have hmn : m = n := Option.some.inj ((I.running m hm).1.symm.trans h.2)
        rw [hmn] at hm
        exact nomatch hn.symm.trans hm
      current := I.current
      pending := I.pending
      held := I.held
      alone := I.alone
      once := I.once
      deleted := I.deleted
      accounted := I.accounted
      posts := I.posts }
  · exact I

theorem Inv.create (I : Inv none s.sessions) (hsession : s.client.sessionId = none)
    (hpromise : s.client.initializationPromise = none) {pc : InitPc} (hpc : pc.pending = none) :
    Inv none ⟨s.client.sessionId, some s.initCount, Function.update s.inits s.initCount pc,
      s.initCount + 1, s.log⟩ := by
  have hidle : ∀ m, (s.inits m).running = false :=
    fun m => Bool.eq_false_iff.mpr fun h => nomatch hpromise.symm.trans (I.running m h).1
  have hpending : ∀ m y, (s.inits m).pending ≠ some y :=
    fun m y h => nomatch (hidle m).symm.trans (InitPc.running_of_pending h)
  have hnew : ∀ m y, (Function.update s.inits s.initCount pc m).pending ≠ some y := by
    intro m y
    rw [Function.update_apply]
    split
    · rw [hpc]
      exact nofun
    · exact hpending m y
  exact {
    unborn := by
      intro m hm
      show Function.update s.inits s.initCount pc m = .unborn
      rw [Function.update_apply, if_neg (Nat.ne_of_gt hm)]
      exact I.unborn m (Nat.le_of_lt hm)
    promise := fun m hm => Option.some.inj hm ▸ Nat.lt_succ_self _
    running := by
      intro m (hm : (Function.update s.inits s.initCount pc m).running = true)
      rw [Function.update_apply] at hm
      split at hm
      · rename_i h
        exact ⟨congrArg some h.symm, hsession⟩
      · exact nomatch (hidle m).symm.trans hm
    current := I.current
    pending := fun m y h => absurd h (hnew m y)
    held := I.held
    alone := fun _ h => nomatch h
    once := I.once
    deleted := I.deleted
    accounted := by
      intro y hy
      rcases I.accounted y hy with h | h | h | ⟨m, hm⟩ | h
      · exact .inl h
      · exact .inr (.inl h)
      · exact .inr (.inr (.inl h))
      · exact absurd hm (hpending m y)
      · cases h
    posts := I.posts }

/-! ## Every step -/

theorem initializeSession_eq {expectedEpoch : Nat} {retried : Bool}
    (h : expectedEpoch = s.client.lifecycleEpoch) :
    s.initializeSession n expectedEpoch retried =
      ((s.setClient s.client.draw).emit (.initializeRequest ⟨none, none⟩)).setInit n
        (.posting expectedEpoch s.client.nextId retried) := by
  unfold State.initializeSession
  rw [if_neg (not_not.mpr h)]
  rfl

theorem Inv.ensureSession (I : Inv none s.sessions) (expectedEpoch : Nat) (retry : Bool) :
    Inv none (s.ensureSession i expectedEpoch retry).sessions := by
  unfold State.ensureSession
  split
  · exact I
  · rename_i hepoch
    split
    · exact I
    · rename_i hsession
      split
      · exact I
      · rename_i hpromise
        have heq := @initializeSession_eq { s with initCount := s.initCount + 1 } s.initCount
          expectedEpoch false (not_not.mp hepoch)
        simp only [heq]
        have hstarted : Inv none ((s.setClient s.client.draw).emit
            (.initializeRequest ⟨none, none⟩)).sessions := by
          refine Inv.emit (s := s.setClient s.client.draw) (I.setClient rfl rfl) rfl rfl nofun
        exact hstarted.create (not_not.mp hsession) hpromise rfl

theorem Inv.discardPending (I : Inv loose s.sessions) {expectedEpoch : Nat} {retried : Bool}
    {error : Thrown} (hn : (s.inits n).running = true)
    (hx : ∀ y, y = x ↔ (s.inits n).pending = some y ∨ loose = some y) :
    Inv none (s.discardPending n expectedEpoch retried x error).sessions := by
  refine Inv.discardSession (I.setInit hn (fun y => ?_) fun _ => rfl)
  rw [← hx y]
  constructor
  · rintro (h | h)
    · cases h
    · exact (Option.some.inj h).symm
  · intro h
    exact .inr (congrArg some h.symm)

theorem Inv.initializeAnswered (I : Inv none s.sessions) {toLowerCase : Str → Str}
    {expectedEpoch requestId : Nat} {retried : Bool} {answer : Answer}
    (hn : s.inits n = .posting expectedEpoch requestId retried)
    (hfresh : ∀ r, answer = .response r → ∀ y, handsOut toLowerCase r = some y →
      y ∉ handedIds s.log) :
    Inv none (s.initializeAnswered toLowerCase n expectedEpoch requestId retried answer).sessions := by
  have hrun : (s.inits n).running = true := by
    rw [hn]
    rfl
  have hnone : (s.inits n).pending = none := by
    rw [hn]
    rfl
  have hfails : ∀ error, Inv none (s.setInit n (.failing expectedEpoch retried error)).sessions :=
    fun error => I.setInit_plain hrun hnone rfl
  unfold State.initializeAnswered
  cases answer with
  | rejected error => exact hfails error
  | response r =>
    have hfresh := hfresh r rfl
    unfold handsOut at hfresh
    simp only
    split
    · exact hfails _
    · rename_i hraise
      rw [hraise] at hfresh
      split
      · exact hfails _
      · exact hfails _
      · rename_i y hempty hheader
        have handed := I.handOut hempty (hfresh y hheader) hrun hnone
        have hloose : ∀ z, z = y ↔ (s.inits n).pending = some z ∨ some y = some z := by
          intro z
          rw [hnone]
          exact ⟨fun h => .inr (congrArg some h.symm),
            fun h => h.elim (fun h => nomatch h) fun h => (Option.some.inj h).symm⟩
        split
        · exact handed.discardPending hrun hloose
        · rename_i protocolVersion hversion
          have hclient := handed.setClient
            (c := { (s.emit (.handedOut y)).client with protocolVersion }) rfl rfl
          split
          · exact hclient.discardPending hrun hloose
          · rename_i headers hheaders
            refine (hclient.emit (e := .initialized headers) rfl rfl nofun).setInit hrun
              (fun z => ?_) fun h => absurd rfl h
            refine Iff.trans ⟨fun h => ?_, fun h => ?_⟩ (hloose z)
            · exact h.elim (fun h => (Option.some.inj h).symm) fun h => nomatch h
            · exact .inl (congrArg some h.symm)

theorem Inv.notifyAnswered (I : Inv none s.sessions) {expectedEpoch : Nat} {retried : Bool}
    {answer : Answer} (hn : s.inits n = .notifying expectedEpoch retried x) :
    Inv none (s.notifyAnswered n expectedEpoch retried x answer).sessions := by
  have hrun : (s.inits n).running = true := by
    rw [hn]
    rfl
  have hcarried : ∀ z, z = x ↔ (s.inits n).pending = some z ∨ none = some z := by
    intro z
    rw [hn]
    exact ⟨fun h => .inl (congrArg some h.symm),
      fun h => h.elim (fun h => (Option.some.inj h).symm) fun h => nomatch h⟩
  have hdiscards : ∀ error,
      Inv none (s.discardPending n expectedEpoch retried x error).sessions :=
    fun error => I.discardPending hrun hcarried
  unfold State.notifyAnswered
  cases answer with
  | rejected error => exact hdiscards error
  | response r =>
    simp only
    split
    · exact hdiscards _
    · split
      · exact hdiscards _
      · have hloose : Inv (some x) (s.setInit n .fulfilled).sessions := by
          refine I.setInit hrun (fun z => ?_) fun _ => rfl
          rw [← hcarried z]
          exact ⟨fun h => h.elim (fun h => nomatch h) fun h => (Option.some.inj h).symm,
            fun h => .inr (congrArg some h.symm)⟩
        refine hloose.adopt fun m => Bool.eq_false_iff.mpr fun hm => ?_
        have hpromise := (I.running n hrun).1
        have hmn : m = n := Option.some.inj ((hloose.running m hm).1.symm.trans hpromise)
        have hself : (s.setInit n .fulfilled).inits n = .fulfilled := Function.update_self _ _ _
        rw [hmn] at hm
        exact nomatch hm.symm.trans (congrArg InitPc.running hself)

theorem Inv.initializeFailed (I : Inv none s.sessions) {expectedEpoch : Nat} {retried : Bool}
    {error : Thrown} (hn : s.inits n = .failing expectedEpoch retried error) :
    Inv none (s.initializeFailed n expectedEpoch retried error).sessions := by
  have hrun : (s.inits n).running = true := by
    rw [hn]
    rfl
  have hnone : (s.inits n).pending = none := by
    rw [hn]
    rfl
  unfold State.initializeFailed
  split
  · exact I.setInit_plain hrun hnone rfl
  · exact I.setInit_plain hrun hnone rfl

theorem Inv.initializeAgain (I : Inv none s.sessions) {expectedEpoch : Nat}
    (hn : s.inits n = .sleeping expectedEpoch) :
    Inv none (s.initializeAgain n expectedEpoch).sessions := by
  have hrun : (s.inits n).running = true := by
    rw [hn]
    rfl
  have hnone : (s.inits n).pending = none := by
    rw [hn]
    rfl
  unfold State.initializeAgain
  split
  · exact I.setInit_plain hrun hnone rfl
  · rename_i hepoch
    rw [initializeSession_eq (not_not.mp hepoch)]
    have hdrawn : Inv none (s.setClient s.client.draw).sessions := I.setClient rfl rfl
    exact (hdrawn.emit (e := .initializeRequest ⟨none, none⟩) rfl rfl nofun).setInit_plain hrun hnone rfl

theorem Inv.joined (I : Inv none s.sessions) {expectedEpoch : Nat} {owner retry : Bool}
    (h : s.joined i expectedEpoch n owner retry = some s') : Inv none s'.sessions := by
  unfold State.joined at h
  simp only at h
  split at h
  · rename_i hn
    have hsettled := I.settle owner (n := n) (by rw [hn]; rfl)
    split at h
    · cases h
      exact hsettled
    · cases h
      exact hsettled
  · rename_i hn
    have hsettled := I.settle owner (n := n) (by rw [hn]; rfl)
    cases h
    exact hsettled
  all_goals cases h

theorem Inv.postToolCall (I : Inv none s.sessions) (operationEpoch : Nat) (retry : Bool) :
    Inv none (s.postToolCall i operationEpoch retry).sessions := by
  have hdrawn : ∀ t, t = (if retry then s else s.setClient s.client.draw) →
      Inv none t.sessions := by
    rintro t rfl
    split
    · exact I
    · exact I.setClient rfl rfl
  unfold State.postToolCall
  generalize ht : (if retry then s else s.setClient s.client.draw) = t
  have J := hdrawn t ht.symm
  simp only
  cases hsession : t.client.sessionId with
  | none =>
    rw [mcpHeaders_none hsession]
    exact J
  | some y =>
    rw [mcpHeaders_some _ (J.current y hsession).ne_nil]
    refine J.emit rfl rfl fun headers hheaders => ?_
    cases hheaders
    exact ⟨hsession.symm, fun h => nomatch hsession.symm.trans h⟩

theorem Inv.callAnswered (I : Inv none s.sessions) {toLowerCase : Str → Str} {operationEpoch : Nat}
    {answer : Answer} :
    Inv none (s.callAnswered toLowerCase i operationEpoch x answer).sessions := by
  unfold State.callAnswered
  cases answer with
  | rejected error => exact I
  | response r =>
    have hexpired : Inv none (s.emit (.expired x)).sessions := I.emit rfl rfl nofun
    simp only
    split
    · exact I
    · split
      · exact hexpired
      · refine Inv.ensureSession ?_ operationEpoch true
        split
        · rename_i hsession
          refine (hexpired.take hsession).drop ?_
          show x ∈ expiredIds (s.log ++ [.expired x])
          rw [expiredIds_append]
          exact mem_append_right _ (mem_singleton.mpr rfl)
        · exact hexpired

theorem Inv.retryAnswered (I : Inv none s.sessions) {toLowerCase : Str → Str} {answer : Answer} :
    Inv none (s.retryAnswered toLowerCase i x answer).sessions := by
  unfold State.retryAnswered
  cases answer with
  | rejected error => exact I
  | response r =>
    simp only
    split
    · exact I
    · exact I.emit (e := .expired x) rfl rfl nofun

theorem Inv.takeSession (I : Inv none s.sessions) : Inv none (s.takeSession j).sessions := by
  unfold State.takeSession
  split
  · exact I
  · rename_i y hy
    exact (I.take hy).discardSession

theorem Inv.close (I : Inv none s.sessions) : Inv none (s.close j).sessions := by
  unfold State.close
  simp only
  have hclosed : Inv none (s.setClient
      { s.client with lifecycleEpoch := s.client.lifecycleEpoch + 1 }).sessions :=
    I.setClient rfl rfl
  split
  · exact hclosed
  · exact hclosed.takeSession

/-- The server hands out an id once. -/
def freshIds (toLowerCase : Str → Str) (s : State) : Label → Prop
  | .initAnswer _ (.response response) =>
    (handsOut toLowerCase response).all (fun x => decide (x ∉ handedIds s.log)) = true
  | _ => True

instance (toLowerCase : Str → Str) (s : State) (l : Label) :
    Decidable (freshIds toLowerCase s l) := by
  unfold freshIds
  split <;> infer_instance

theorem inv_step {toLowerCase : Str → Str} {l : Label} (I : Inv none s.sessions)
    (hfresh : freshIds toLowerCase s l) (h : s.step toLowerCase l = some s') :
    Inv none s'.sessions := by
  cases l with
  | call i =>
    unfold State.step at h
    simp only at h
    split at h
    · cases h
      exact I.ensureSession _ _
    all_goals cases h
  | close j =>
    unfold State.step at h
    simp only at h
    split at h
    · cases h
      exact I.close
    all_goals cases h
  | initAnswer n answer =>
    unfold State.step at h
    simp only at h
    split at h
    · rename_i hn
      cases h
      refine I.initializeAnswered hn fun r hr x hx => ?_
      rw [hr] at hfresh
      have hall : (handsOut toLowerCase r).all (fun x => decide (x ∉ handedIds s.log)) = true :=
        hfresh
      rw [hx] at hall
      exact of_decide_eq_true hall
    · rename_i hn
      cases h
      exact I.notifyAnswered hn
    · rename_i hn
      cases h
      exact I.setInit_plain (by rw [hn]; rfl) (by rw [hn]; rfl) rfl
    all_goals cases h
  | initNext n =>
    unfold State.step at h
    simp only at h
    split at h
    · rename_i hn
      cases h
      exact I.initializeFailed hn
    · rename_i hn
      cases h
      exact I.initializeAgain hn
    all_goals cases h
  | callAnswer i answer =>
    unfold State.step at h
    simp only at h
    split at h
    · cases h
      exact I.callAnswered
    · cases h
      exact I.retryAnswered
    all_goals cases h
  | callNext i =>
    unfold State.step at h
    simp only at h
    split at h
    · exact I.joined h
    · cases h
      exact I.postToolCall _ _
    all_goals cases h
  | closeNext j =>
    unfold State.step at h
    simp only at h
    split at h
    · split at h
      · cases h
        exact I.takeSession
      · cases h
    · cases h
      exact I
    all_goals cases h

theorem inv_fresh : Inv none State.fresh.sessions where
  unborn _ _ := rfl
  promise _ h := nomatch h
  running _ h := nomatch h
  current _ h := nomatch h
  pending _ _ h := nomatch h
  held _ h := nomatch h
  alone _ h := nomatch h
  once := nodup_nil
  deleted _ h := absurd h not_mem_nil
  accounted _ h := absurd h not_mem_nil
  posts := Justified.nil

theorem inv_inductive (toLowerCase : Str → Str) :
    (system toLowerCase).InductiveOn (freshIds toLowerCase) fun s => Inv none s.sessions where
  init s h := by
    rw [h]
    exact inv_fresh
  step s l s' I hfresh h := inv_step I hfresh h

/-! ## The lifecycle -/

theorem ensureSession_sessionId (s : State) (i expectedEpoch : Nat) (retry : Bool) :
    (s.ensureSession i expectedEpoch retry).client.sessionId = s.client.sessionId := by
  unfold State.ensureSession
  split
  · rfl
  · rename_i hepoch
    split
    · rfl
    · split
      · rfl
      · have heq := @initializeSession_eq { s with initCount := s.initCount + 1 } s.initCount
          expectedEpoch false (not_not.mp hepoch)
        simp only [heq]
        rfl

theorem settle_sessionId (c : Client) (n : Nat) (owner : Bool) :
    (c.settle n owner).sessionId = c.sessionId := by
  unfold Client.settle
  split <;> rfl

theorem joined_sessionId {expectedEpoch : Nat} {owner retry : Bool}
    (h : s.joined i expectedEpoch n owner retry = some s') :
    s'.client.sessionId = s.client.sessionId := by
  unfold State.joined at h
  simp only at h
  split at h
  · split at h
    all_goals
      cases h
      exact settle_sessionId _ _ _
  · cases h
    exact settle_sessionId _ _ _
  all_goals cases h

theorem postToolCall_sessionId (s : State) (i operationEpoch : Nat) (retry : Bool) :
    (s.postToolCall i operationEpoch retry).client.sessionId = s.client.sessionId := by
  have hdrawn : (if retry then s else s.setClient s.client.draw).client.sessionId =
      s.client.sessionId := by
    split <;> rfl
  unfold State.postToolCall
  simp only
  split <;> exact hdrawn

theorem callAnswered_other {toLowerCase : Str → Str} {operationEpoch : Nat} {y : Str}
    {answer : Answer} (hx : s.client.sessionId = some x) (hne : x ≠ y) :
    (s.callAnswered toLowerCase i operationEpoch y answer).client.sessionId = some x := by
  unfold State.callAnswered
  cases answer with
  | rejected error => exact hx
  | response r =>
    simp only
    split
    · exact hx
    · split
      · exact hx
      · rw [ensureSession_sessionId, if_neg]
        · exact hx
        · intro h
          exact hne (Option.some.inj (hx.symm.trans h))

theorem callAnswered_own (toLowerCase : Str → Str) (i operationEpoch : Nat) (answer : Answer)
    (hx : s.client.sessionId = some x) :
    (s.callAnswered toLowerCase i operationEpoch x answer).client.sessionId = some x ∨
      ∃ response, answer = .response response ∧
        isExpiredSessionResponse toLowerCase response = true := by
  cases answer with
  | rejected error => exact .inl hx
  | response r =>
    cases hexpired : isExpiredSessionResponse toLowerCase r with
    | true => exact .inr ⟨r, rfl, hexpired⟩
    | false =>
      refine .inl ?_
      unfold State.callAnswered
      simp only
      rw [if_pos hexpired]
      exact hx

theorem discardSession_deleted (s : State) (hx : x ≠ []) :
    x ∈ deletedIds (s.discardSession x).log := by
  unfold State.discardSession
  rw [mcpHeaders_some _ hx]
  show x ∈ deletedIds (s.log ++ [_])
  rw [deletedIds_append]
  exact mem_append_right _ (mem_singleton.mpr rfl)

theorem takeSession_deleted (I : Inv none s.sessions) (hx : s.client.sessionId = some x) :
    x ∈ deletedIds (s.takeSession j).log := by
  unfold State.takeSession
  rw [hx]
  exact discardSession_deleted _ (I.current x hx).ne_nil

theorem letGo {toLowerCase : Str → Str} {l : Label} (I : Inv none s.sessions)
    (h : s.step toLowerCase l = some s') (hx : s.client.sessionId = some x) :
    s'.client.sessionId = some x ∨ x ∈ deletedIds s'.log ∨
      ∃ i operationEpoch response, l = .callAnswer i (.response response) ∧
        s.calls i = .posted operationEpoch x ∧
        isExpiredSessionResponse toLowerCase response = true := by
  -- while there is a session nothing is being initialized
  have hidle : ∀ m, (s.inits m).running = true → False :=
    fun m hm => nomatch (I.running m hm).2.symm.trans hx
  cases l with
  | call i =>
    unfold State.step at h
    simp only at h
    split at h
    · cases h
      exact .inl ((ensureSession_sessionId _ _ _ _).trans hx)
    all_goals cases h
  | close j =>
    unfold State.step at h
    simp only at h
    split at h
    · cases h
      unfold State.close
      simp only
      split
      · exact .inl hx
      · exact .inr (.inl (takeSession_deleted (I.setClient rfl rfl) hx))
    all_goals cases h
  | initAnswer n answer =>
    unfold State.step at h
    simp only at h
    split at h
    all_goals first
      | cases h; done
      | rename_i hn
        exact (hidle n (by rw [hn]; rfl)).elim
  | initNext n =>
    unfold State.step at h
    simp only at h
    split at h
    all_goals first
      | cases h; done
      | rename_i hn
        exact (hidle n (by rw [hn]; rfl)).elim
  | callAnswer i answer =>
    unfold State.step at h
    simp only at h
    split at h
    · rename_i operationEpoch y hcall
      cases h
      by_cases hne : x = y
      · subst hne
        rcases callAnswered_own toLowerCase i operationEpoch answer hx with hkept | ⟨r, rfl, hexpired⟩
        · exact .inl hkept
        · exact .inr (.inr ⟨i, operationEpoch, r, rfl, hcall, hexpired⟩)
      · exact .inl (callAnswered_other hx hne)
    · cases h
      refine .inl ?_
      unfold State.retryAnswered
      cases answer with
      | rejected error => exact hx
      | response r =>
        simp only
        split <;> exact hx
    all_goals cases h
  | callNext i =>
    unfold State.step at h
    simp only at h
    split at h
    · exact .inl ((joined_sessionId h).trans hx)
    · cases h
      exact .inl ((postToolCall_sessionId _ _ _ _).trans hx)
    all_goals cases h
  | closeNext j =>
    unfold State.step at h
    simp only at h
    split at h
    · split at h
      · cases h
        exact .inr (.inl (takeSession_deleted I hx))
      · cases h
    · cases h
      exact .inl hx
    all_goals cases h

theorem settles {toLowerCase : Str → Str} {expectedEpoch : Nat} {retried : Bool} {answer : Answer}
    (I : Inv none s.sessions) (hn : s.inits n = .notifying expectedEpoch retried x) :
    ∃ s', s.step toLowerCase (.initAnswer n answer) = some s' ∧
      (s'.client.sessionId = some x ∨ x ∈ deletedIds s'.log) := by
  have hne : x ≠ [] := by
    refine (I.pending n x ?_).ne_nil
    show (s.inits n).pending = some x
    rw [hn]
    rfl
  have hdiscards : ∀ error,
      x ∈ deletedIds (s.discardPending n expectedEpoch retried x error).log :=
    fun error => discardSession_deleted _ hne
  refine ⟨s.notifyAnswered n expectedEpoch retried x answer, ?_, ?_⟩
  · unfold State.step
    simp only [hn]
  · unfold State.notifyAnswered
    cases answer with
    | rejected error => exact .inr (hdiscards error)
    | response r =>
      simp only
      split
      · exact .inr (hdiscards _)
      · split
        · exact .inr (hdiscards _)
        · exact .inl rfl

structure SessionLifecycle (toLowerCase : Str → Str) (s : State) : Prop where
  one_initialize : ∀ m n, (s.inits m).inFlight = true → (s.inits n).inFlight = true → m = n
  posts : Posts s.log
  /-- a session is let go when a call under it is answered as expired, or with its `DELETE` -/
  let_go : ∀ l s' x, s.step toLowerCase l = some s' → s.client.sessionId = some x →
    s'.client.sessionId = some x ∨ x ∈ deletedIds s'.log ∨
      ∃ i operationEpoch response, l = .callAnswer i (.response response) ∧
        s.calls i = .posted operationEpoch x ∧
        isExpiredSessionResponse toLowerCase response = true
  /-- an answer to a call under an older session leaves the newer one -/
  late : ∀ i operationEpoch old x answer s', s.calls i = .posted operationEpoch old →
    s.client.sessionId = some x → x ≠ old →
    s.step toLowerCase (.callAnswer i answer) = some s' → s'.client.sessionId = some x
  once : ∀ x, (deletedIds s.log).count x ≤ 1
  ids : ∀ x ∈ handedIds s.log, s.client.sessionId = some x ∨ x ∈ expiredIds s.log ∨
    (deletedIds s.log).count x = 1 ∨
    ∃ n expectedEpoch retried, s.inits n = .notifying expectedEpoch retried x
  settles : ∀ n expectedEpoch retried x answer, s.inits n = .notifying expectedEpoch retried x →
    ∃ s', s.step toLowerCase (.initAnswer n answer) = some s' ∧
      (s'.client.sessionId = some x ∨ x ∈ deletedIds s'.log)

theorem session_lifecycle (toLowerCase : Str → Str) (s : State)
    (hr : (system toLowerCase).ReachableOn (freshIds toLowerCase) s) :
    SessionLifecycle toLowerCase s := by
  have I := (inv_inductive toLowerCase).reachable hr
  have hflight : ∀ pc : InitPc, pc.inFlight = true → pc.running = true := by
    intro pc h
    cases pc with
    | posting _ _ _ => rfl
    | unborn | notifying _ _ _ | discarding _ _ _ | failing _ _ _ | sleeping _ | fulfilled
    | rejected => cases h
  exact {
    one_initialize := by
      intro m n hm hn
      have hpm := (I.running m (hflight _ hm)).1
      have hpn := (I.running n (hflight _ hn)).1
      exact Option.some.inj (hpm.symm.trans hpn)
    posts := I.posts
    let_go := fun _ _ _ h hx => letGo I h hx
    late := by
      intro i operationEpoch old x answer s' hcall hx hne h
      unfold State.step at h
      simp only [hcall] at h
      cases h
      exact callAnswered_other hx hne
    once := fun x => nodup_iff_count_le_one.mp I.once x
    ids := by
      intro x hx
      rcases I.accounted x hx with h | h | h | ⟨n, hn⟩ | h
      · exact .inl h
      · exact .inr (.inl h)
      · exact .inr (.inr (.inl (count_eq_one_of_mem I.once h)))
      · refine .inr (.inr (.inr ⟨n, ?_⟩))
        change (s.inits n).pending = some x at hn
        cases hpc : s.inits n with
        | notifying expectedEpoch retried y =>
          rw [hpc] at hn
          exact ⟨expectedEpoch, retried, congrArg _ (Option.some.inj hn)⟩
        | unborn | posting _ _ _ | discarding _ _ _ | failing _ _ _ | sleeping _ | fulfilled
        | rejected =>
          rw [hpc] at hn
          cases hn
      · cases h
    settles := fun _ _ _ _ _ hn => settles I hn }

end

/-- A session is opened for a call, answered as expired and opened again, and the client is closed
before the second one is announced. -/
def reopenedRun : Option State :=
  let opened (sessionId : Str) (requestId : Nat) : Answer := .response ⟨200,
    [(units "mcp-session-id", sessionId)],
    units "\x7b\"jsonrpc\":\"2.0\",\"id\":" ++ decimal requestId ++
      units ",\"result\":\x7b\"protocolVersion\":\"2025-03-26\"\x7d\x7d"⟩
  let accepted : Answer := .response ⟨202, [], []⟩
  let gone : Answer := .response ⟨404, [], []⟩
  LTS.exec (LTS.guardStep (freshIds id) (State.step id)) .fresh [
    .call 0, .initAnswer 0 (opened (units "s1") 1), .initAnswer 0 accepted, .callNext 0,
    .callNext 0, .callAnswer 0 gone, .initAnswer 1 (opened (units "s2") 3), .close 0,
    .initAnswer 1 accepted]

theorem session_lifecycle_reopened :
    ∃ s, reopenedRun = some s ∧ SessionLifecycle id s ∧
      handedIds s.log = [units "s1", units "s2"] ∧ expiredIds s.log = [units "s1"] ∧
      deletedIds s.log = [units "s2"] := by
  have hids : reopenedRun.map (fun s => (handedIds s.log, expiredIds s.log, deletedIds s.log)) =
      some ([units "s1", units "s2"], [units "s1"], [units "s2"]) := by decide +kernel
  obtain ⟨s, hs, heq⟩ := Option.map_eq_some_iff.mp hids
  obtain ⟨hhanded, hrest⟩ := Prod.mk.inj heq
  obtain ⟨hexpired, hdeleted⟩ := Prod.mk.inj hrest
  exact ⟨s, hs, session_lifecycle id s (LTS.reachableOn_of_exec rfl hs), hhanded, hexpired, hdeleted⟩

end OpenBrain.Clients.Session
