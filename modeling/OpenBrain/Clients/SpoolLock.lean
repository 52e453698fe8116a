import OpenBrain.Core.LTS
import OpenBrain.Core.Processes

/-!
# The spool lock file of the TypeScript client

`withLock` (`clients/ts/src/spool-durability.ts:140-147`) brackets a local
file-system transaction with `acquireLock` and `releaseLock`. Each process
runs the loop of `acquireLock` one file-system call at a time:

* `loop`: draw a token and write the owner record into a private candidate;
* `publish`: `linkSync(candidate, lockPath)`, atomic and exclusive;
* `stat`, `read`, `judge`: on `EEXIST`, `recoverDeadOrStaleLock` takes the
  lock file's mtime, reads the owner record and decides, with `kill(pid, 0)`,
  whether the owner is dead (or the record is missing and old);
* `rename`, `unlink`: move the lock path away under a unique name, drop it;
* `check`: recovery said no, so time out or wait and try again;
* `relRead`, `relUnlink`: `releaseLock` compares the token it reads with its
  own and then unlinks the path.

Processes are numbered by pid. A process may crash at any step, and a new
process may be given the pid of a crashed one (`spawn`); the clock may be set
to any value (`clock`). Only regular files are ever linked at the lock path,
so the symlink check of the source never fires here.

## Results

The judgement and the rename are separate steps and the rename names a path,
not a file. `two_holders_reachable` is a run of two recoverers and one
crashed owner after which both recoverers are inside. Under the guard
`namesFileRead` (at a recovery rename the path is empty or still names the
file whose record was read) mutual exclusion holds in every state of every
run: `mutex_of_names_file_read`.
-/
namespace OpenBrain.Clients.SpoolLock

open OpenBrain.Core

/-- The owner record `{token, pid, created_at_ms}`; the timestamp is never read.
mirrors clients/ts/src/spool-durability.ts:271-274 -/
structure Owner where
  token : Nat
  pid : Nat
  deriving DecidableEq, Repr

/-- A file as `lockPath` may name it. `ino` tells files apart; `owner = none`
is a record that does not parse or has no usable pid. -/
structure LockFile where
  ino : Nat
  owner : Option Owner
  mtime : Nat
  deriving DecidableEq, Repr

/-- Where a process is; `dl` is the deadline of its `acquireLock` call. -/
inductive Pc where
  | idle
  | loop (dl : Nat)
  | publish (dl ino mtime : Nat)
  | stat (dl : Nat)
  | read (dl mtime : Nat)
  | judge (dl mtime : Nat) (seen : Option LockFile)
  | rename (dl : Nat) (seen : Option LockFile)
  | unlink (dl : Nat)
  | check (dl : Nat)
  | holding (token : Nat)
  | relRead (token : Nat)
  | relUnlink (token : Nat)
  | crashed
  deriving DecidableEq, Repr

/-- `next` numbers the next candidate file and its token (`crypto.randomUUID`). -/
structure St where
  lock : Option LockFile
  pc : Nat → Pc
  now : Nat
  next : Nat

structure Cfg where
  lockTimeoutMs : Nat
  lockStaleMs : Nat
  deriving DecidableEq, Repr

inductive Lbl where
  | acquire (p : Nat)
  | act (p : Nat)
  | release (p : Nat)
  | crash (p : Nat)
  | spawn (p : Nat)
  | clock (t : Nat)
  deriving DecidableEq, Repr

def St.goto (s : St) (p : Nat) (x : Pc) : St := { s with pc := Function.update s.pc p x }

/-- `kill(pid, 0)` fails with `ESRCH`.
mirrors clients/ts/src/spool-durability.ts:222-234 -/
def ownerIsDead (s : St) (pid : Nat) : Bool := decide (s.pc pid = .crashed)

/-- The verdict of `recoverDeadOrStaleLock` on the record it read (`none` when
the file was gone by then).
mirrors clients/ts/src/spool-durability.ts:172-188 -/
def mayRecover (c : Cfg) (s : St) (mtime : Nat) (seen : Option LockFile) : Bool :=
  let owner := seen.bind LockFile.owner
  let stale := decide (mtime + c.lockStaleMs ≤ s.now)
  let hasOwnerPid := owner.isSome
  let dead := owner.any (fun o => ownerIsDead s o.pid)
  dead || (stale && !hasOwnerPid)

/-- One file-system call of process `p`.
mirrors clients/ts/src/spool-durability.ts:149-211,244-269 -/
def act (c : Cfg) (s : St) (p : Nat) : Option St :=
  match s.pc p with
  | .loop dl => some ({ s with next := s.next + 1 }.goto p (.publish dl s.next s.now))
  | .publish dl ino mtime =>
    match s.lock with
    | none => some ({ s with lock := some ⟨ino, some ⟨ino, p⟩, mtime⟩ }.goto p (.holding ino))
    | some _ => some (s.goto p (.stat dl))
  | .stat dl =>
    match s.lock with
    | none => some (s.goto p (.loop dl))
    | some f => some (s.goto p (.read dl f.mtime))
  | .read dl mtime => some (s.goto p (.judge dl mtime s.lock))
  | .judge dl mtime seen =>
    if mayRecover c s mtime seen then some (s.goto p (.rename dl seen))
    else some (s.goto p (.check dl))
  | .rename dl _ =>
    match s.lock with
    | none => some (s.goto p (.check dl))
    | some _ => some ({ s with lock := none }.goto p (.unlink dl))
  | .unlink dl => some (s.goto p (.loop dl))
  | .check dl => if dl ≤ s.now then some (s.goto p .idle) else some (s.goto p (.loop dl))
  | .relRead token =>
    if (s.lock.bind LockFile.owner).map Owner.token = some token then
      some (s.goto p (.relUnlink token))
    else some (s.goto p .idle)
  | .relUnlink _ => some ({ s with lock := none }.goto p .idle)
  | .idle => none
  | .holding _ => none
  | .crashed => none

def step (c : Cfg) (s : St) : Lbl → Option St
  | .acquire p => if s.pc p = .idle then some (s.goto p (.loop (s.now + c.lockTimeoutMs))) else none
  | .act p => act c s p
  | .release p =>
    match s.pc p with
    | .holding token => some (s.goto p (.relRead token))
    | _ => none
  | .crash p => some (s.goto p .crashed)
  | .spawn p => if s.pc p = .crashed then some (s.goto p .idle) else none
  | .clock t => some { s with now := t }

/-- Before any call: a leftover lock file of any shape may be there. -/
def Init (s : St) : Prop :=
  (∀ p, s.pc p = .idle ∨ s.pc p = .crashed) ∧ ∀ f, s.lock = some f → f.ino < s.next

def lockSys (c : Cfg) : LTS St Lbl := LTS.ofFn Init (step c)

/-- `p` is between a successful `acquireLock` and its `releaseLock`; a crashed
process is not. -/
def Inside (s : St) (p : Nat) : Prop := ∃ token, s.pc p = .holding token

def MutualExclusion (s : St) : Prop := ∀ p q, Inside s p → Inside s q → p = q

/-- The step is not a recovery rename, or the path is empty, or it still names
the file the recoverer read. -/
def namesFileRead (s : St) : Lbl → Prop
  | .act p =>
    match s.pc p with
    | .rename _ seen => s.lock = none ∨ s.lock.map LockFile.ino = seen.map LockFile.ino
    | _ => True
  | _ => True

instance (s : St) (l : Lbl) : Decidable (namesFileRead s l) := by
  unfold namesFileRead
  split
  · split <;> infer_instance
  · infer_instance

/-! ## What a program point carries -/

/-- The token of the lock file a process has published and not yet unlinked. -/
def Pc.held : Pc → Option Nat
  | .holding t | .relRead t | .relUnlink t => some t
  | _ => none

/-- The candidate a process has written and not yet linked. -/
def Pc.cand : Pc → Option Nat
  | .publish _ ino _ => some ino
  | _ => none

/-- The lock file whose record a recoverer is carrying. -/
def Pc.seen : Pc → Option LockFile
  | .judge _ _ f | .rename _ f => f
  | _ => none

def Pc.condemned : Pc → Option LockFile
  | .rename _ f => f
  | _ => none

/-! ## Invariant -/

structure Inv (s : St) : Prop where
  /-- the lock path names the file of whoever holds -/
  owned : ∀ p t, (s.pc p).held = some t → ∃ m, s.lock = some ⟨t, some ⟨t, p⟩, m⟩
  lock_old : ∀ f, s.lock = some f → f.ino < s.next
  cand_old : ∀ p i, (s.pc p).cand = some i → i < s.next
  cand_own : ∀ p q i, (s.pc p).cand = some i → (s.pc q).cand = some i → p = q
  cand_new : ∀ p i, (s.pc p).cand = some i → ∀ f, s.lock = some f → f.ino ≠ i
  seen_old : ∀ p f, (s.pc p).seen = some f → f.ino < s.next
  seen_cand : ∀ p f, (s.pc p).seen = some f → ∀ q, (s.pc q).cand ≠ some f.ino
  /-- a record that was read is that of the file, whoever holds it now -/
  seen_owner : ∀ p f, (s.pc p).seen = some f → ∀ q, (s.pc q).held = some f.ino →
    f.owner = some ⟨f.ino, q⟩
  /-- nobody holds a condemned file -/
  condemned_free : ∀ p f, (s.pc p).condemned = some f → ∀ q, (s.pc q).held ≠ some f.ino

theorem Inv.held_unique {s : St} (I : Inv s) {p q t u : Nat} (hp : (s.pc p).held = some t)
    (hq : (s.pc q).held = some u) : p = q := by
  obtain ⟨m, hm⟩ := I.owned p t hp
  obtain ⟨m', hm'⟩ := I.owned q u hq
  rw [hm] at hm'
  simp only [Option.some.injEq, LockFile.mk.injEq, Owner.mk.injEq] at hm'
  exact hm'.2.1.2

theorem Inv.mutex {s : St} (I : Inv s) : MutualExclusion s := by
  rintro p q ⟨t, hp⟩ ⟨u, hq⟩
  exact I.held_unique (t := t) (u := u) (by rw [hp]; rfl) (by rw [hq]; rfl)

theorem init_inv {s : St} (h : Init s) : Inv s := by
  obtain ⟨hpc, hlock⟩ := h
  have hheld : ∀ p, (s.pc p).held = none := fun p => by rcases hpc p with h | h <;> rw [h] <;> rfl
  have hcand : ∀ p, (s.pc p).cand = none := fun p => by rcases hpc p with h | h <;> rw [h] <;> rfl
  have hseen : ∀ p, (s.pc p).seen = none := fun p => by rcases hpc p with h | h <;> rw [h] <;> rfl
  have hcond : ∀ p, (s.pc p).condemned = none := fun p => by
    rcases hpc p with h | h <;> rw [h] <;> rfl
  exact {
    owned := by simp [hheld]
    lock_old := hlock
    cand_old := by simp [hcand]
    cand_own := by simp [hcand]
    cand_new := by simp [hcand]
    seen_old := by simp [hseen]
    seen_cand := by simp [hseen]
    seen_owner := by simp [hseen]
    condemned_free := by simp [hcond] }

/-! ## One step

Every step moves one process; the lemmas below are about a state `s'` that
differs from `s` in the program point of `p` and in the fields they name. -/

section Move

variable {s s' : St} {p : Nat} {x : Pc}

theorem seen_of_condemned {x : Pc} {f : LockFile} (h : x.condemned = some f) :
    x.seen = some f := by
  cases x <;> simp_all [Pc.condemned, Pc.seen]

/-- A move that neither starts a candidate, reads a record nor condemns a file. -/
theorem Inv.quiet (I : Inv s) (hpc : s'.pc = Function.update s.pc p x) (hl : s'.lock = s.lock)
    (hn : s'.next = s.next) (hheld : ∀ a, x.held = some a → (s.pc p).held = some a)
    (hcand : x.cand = none) (hseen : x.seen = none) : Inv s' := by
  have hheld' := moved_mono Pc.held hpc hheld
  have hcand' := moved_mono Pc.cand hpc (by simp [hcand])
  have hseen' := moved_mono Pc.seen hpc (by simp [hseen])
  have hcond' := moved_mono Pc.condemned hpc fun f h => by
    rw [seen_of_condemned h] at hseen; cases hseen
  exact {
    owned := fun q t h => by rw [hl]; exact I.owned q t (hheld' q t h)
    lock_old := fun f h => by rw [hn]; exact I.lock_old f (hl ▸ h)
    cand_old := fun q i h => by rw [hn]; exact I.cand_old q i (hcand' q i h)
    cand_own := fun q r i hq hr => I.cand_own q r i (hcand' q i hq) (hcand' r i hr)
    cand_new := fun q i h f hf => I.cand_new q i (hcand' q i h) f (hl ▸ hf)
    seen_old := fun q f h => by rw [hn]; exact I.seen_old q f (hseen' q f h)
    seen_cand := fun q f h r hr => I.seen_cand q f (hseen' q f h) r (hcand' r _ hr)
    seen_owner := fun q f h r hr => I.seen_owner q f (hseen' q f h) r (hheld' r _ hr)
    condemned_free := fun q f h r hr => I.condemned_free q f (hcond' q f h) r (hheld' r _ hr) }

/-- Drawing a token and writing the candidate. -/
theorem Inv.write {dl m : Nat} (I : Inv s)
    (hpc : s'.pc = Function.update s.pc p (.publish dl s.next m)) (hl : s'.lock = s.lock)
    (hn : s'.next = s.next + 1) : Inv s' := by
  have hheld := moved_mono Pc.held hpc (by simp [Pc.held])
  have hseen := moved_mono Pc.seen hpc (by simp [Pc.seen])
  have hcond := moved_mono Pc.condemned hpc (by simp [Pc.condemned])
  -- the one candidate that is not an old one is `s.next`, and it is `p`'s
  have hcand : ∀ q i, (s'.pc q).cand = some i →
      (q = p ∧ i = s.next) ∨ (s.pc q).cand = some i := by
    intro q i h
    rcases moved_cases Pc.cand hpc h with ⟨hq, h⟩ | ⟨-, h⟩
    · cases h; exact .inl ⟨hq, rfl⟩
    · exact .inr h
  refine {
    owned := fun q t h => by rw [hl]; exact I.owned q t (hheld q t h)
    lock_old := fun f h => by rw [hn]; exact Nat.lt_succ_of_lt (I.lock_old f (hl ▸ h))
    seen_old := fun q f h => by rw [hn]; exact Nat.lt_succ_of_lt (I.seen_old q f (hseen q f h))
    seen_owner := fun q f h r hr => I.seen_owner q f (hseen q f h) r (hheld r _ hr)
    condemned_free := fun q f h r hr => I.condemned_free q f (hcond q f h) r (hheld r _ hr)
    cand_old := ?_, cand_own := ?_, cand_new := ?_, seen_cand := ?_ }
  · intro q i h
    rw [hn]
    rcases hcand q i h with ⟨-, rfl⟩ | h
    · exact Nat.lt_succ_self _
    · exact Nat.lt_succ_of_lt (I.cand_old q i h)
  · intro q r i hq hr
    rcases hcand q i hq with ⟨rfl, rfl⟩ | hq
    · rcases hcand r _ hr with ⟨rfl, -⟩ | hr
      · rfl
      · exact absurd (I.cand_old r _ hr) (Nat.lt_irrefl _)
    · rcases hcand r _ hr with ⟨-, rfl⟩ | hr
      · exact absurd (I.cand_old q _ hq) (Nat.lt_irrefl _)
      · exact I.cand_own q r i hq hr
  · intro q i h f hf
    rw [hl] at hf
    rcases hcand q i h with ⟨-, rfl⟩ | h
    · exact Nat.ne_of_lt (I.lock_old f hf)
    · exact I.cand_new q i h f hf
  · intro q f hf r hr
    rcases hcand r _ hr with ⟨-, he⟩ | hr
    · exact absurd (I.seen_old q f (hseen q f hf)) (by omega)
    · exact I.seen_cand q f (hseen q f hf) r hr

/-- A successful `linkSync`: the path was empty, so nobody held. -/
theorem Inv.link {dl ino m : Nat} (I : Inv s) (hp : s.pc p = .publish dl ino m)
    (h0 : s.lock = none) (hpc : s'.pc = Function.update s.pc p (.holding ino))
    (hl : s'.lock = some ⟨ino, some ⟨ino, p⟩, m⟩) (hn : s'.next = s.next) : Inv s' := by
  have hino : (s.pc p).cand = some ino := by rw [hp]; rfl
  have hseen := moved_mono Pc.seen hpc (by simp [Pc.seen])
  have hcond := moved_mono Pc.condemned hpc (by simp [Pc.condemned])
  have hheld : ∀ q t, (s'.pc q).held = some t → q = p ∧ t = ino := by
    intro q t h
    rcases moved_cases Pc.held hpc h with ⟨hq, h⟩ | ⟨-, h⟩
    · cases h; exact ⟨hq, rfl⟩
    · obtain ⟨m', h'⟩ := I.owned q t h
      rw [h0] at h'; cases h'
  have hcand : ∀ q i, (s'.pc q).cand = some i → q ≠ p ∧ (s.pc q).cand = some i := by
    intro q i h
    rcases moved_cases Pc.cand hpc h with ⟨-, h⟩ | h
    · cases h
    · exact h
  -- a record read before the link is not that of the new file
  have hold : ∀ q f, (s.pc q).seen = some f → f.ino ≠ ino := by
    intro q f h he
    exact I.seen_cand q f h p (he ▸ hino)
  exact {
    owned := fun q t h => by obtain ⟨rfl, rfl⟩ := hheld q t h; exact ⟨m, hl⟩
    lock_old := fun f h => by rw [hl] at h; cases h; rw [hn]; exact I.cand_old p ino hino
    cand_old := fun q i h => by rw [hn]; exact I.cand_old q i (hcand q i h).2
    cand_own := fun q r i hq hr => I.cand_own q r i (hcand q i hq).2 (hcand r i hr).2
    cand_new := fun q i h f hf => by
      rw [hl] at hf; cases hf
      rintro rfl
      exact (hcand q ino h).1 (I.cand_own q p ino (hcand q ino h).2 hino)
    seen_old := fun q f h => by rw [hn]; exact I.seen_old q f (hseen q f h)
    seen_cand := fun q f h r hr => I.seen_cand q f (hseen q f h) r (hcand r _ hr).2
    seen_owner := fun q f h r hr => absurd (hheld r _ hr).2 (hold q f (hseen q f h))
    condemned_free := fun q f h r hr =>
      hold q f (seen_of_condemned (hcond q f h)) (hheld r _ hr).2 }

theorem Inv.read {dl m : Nat} (I : Inv s)
    (hpc : s'.pc = Function.update s.pc p (.judge dl m s.lock)) (hl : s'.lock = s.lock)
    (hn : s'.next = s.next) : Inv s' := by
  have hheld := moved_mono Pc.held hpc (by simp [Pc.held])
  have hcand := moved_mono Pc.cand hpc (by simp [Pc.cand])
  have hcond := moved_mono Pc.condemned hpc (by simp [Pc.condemned])
  have hseen : ∀ q f, (s'.pc q).seen = some f → s.lock = some f ∨ (s.pc q).seen = some f := by
    intro q f h
    rcases moved_cases Pc.seen hpc h with ⟨-, h⟩ | ⟨-, h⟩
    · exact .inl h
    · exact .inr h
  refine {
    owned := fun q t h => by rw [hl]; exact I.owned q t (hheld q t h)
    lock_old := fun f h => by rw [hn]; exact I.lock_old f (hl ▸ h)
    cand_old := fun q i h => by rw [hn]; exact I.cand_old q i (hcand q i h)
    cand_own := fun q r i hq hr => I.cand_own q r i (hcand q i hq) (hcand r i hr)
    cand_new := fun q i h f hf => I.cand_new q i (hcand q i h) f (hl ▸ hf)
    condemned_free := fun q f h r hr => I.condemned_free q f (hcond q f h) r (hheld r _ hr)
    seen_old := ?_, seen_cand := ?_, seen_owner := ?_ }
  · intro q f h
    rw [hn]
    rcases hseen q f h with h | h
    · exact I.lock_old f h
    · exact I.seen_old q f h
  · intro q f h r hr
    rcases hseen q f h with h | h
    · exact I.cand_new r _ (hcand r _ hr) f h rfl
    · exact I.seen_cand q f h r (hcand r _ hr)
  · intro q f h r hr
    rcases hseen q f h with h | h
    · obtain ⟨m', h'⟩ := I.owned r _ (hheld r _ hr)
      rw [h] at h'
      exact congrArg LockFile.owner (Option.some.inj h')
    · exact I.seen_owner q f h r (hheld r _ hr)

/-- A verdict of "dead, or no record and old": the file read has no holder. -/
theorem Inv.free_of_mayRecover {c : Cfg} {m : Nat} {f : LockFile} (I : Inv s)
    (hf : (s.pc p).seen = some f) (h : mayRecover c s m (some f) = true) (q : Nat) :
    (s.pc q).held ≠ some f.ino := by
  intro hq
  have ho := I.seen_owner p f hf q hq
  have hdead : s.pc q = .crashed := by
    simpa [mayRecover, ho, ownerIsDead] using h
  rw [hdead] at hq
  cases hq

theorem Inv.judge {c : Cfg} {dl m : Nat} {seen : Option LockFile} (I : Inv s)
    (hp : s.pc p = .judge dl m seen) (hv : mayRecover c s m seen = true)
    (hpc : s'.pc = Function.update s.pc p (.rename dl seen)) (hl : s'.lock = s.lock)
    (hn : s'.next = s.next) : Inv s' := by
  have hheld := moved_mono Pc.held hpc (by simp [Pc.held])
  have hcand := moved_mono Pc.cand hpc (by simp [Pc.cand])
  have hseen := moved_mono Pc.seen hpc (by simp [Pc.seen, hp])
  exact {
    owned := fun q t h => by rw [hl]; exact I.owned q t (hheld q t h)
    lock_old := fun f h => by rw [hn]; exact I.lock_old f (hl ▸ h)
    cand_old := fun q i h => by rw [hn]; exact I.cand_old q i (hcand q i h)
    cand_own := fun q r i hq hr => I.cand_own q r i (hcand q i hq) (hcand r i hr)
    cand_new := fun q i h f hf => I.cand_new q i (hcand q i h) f (hl ▸ hf)
    seen_old := fun q f h => by rw [hn]; exact I.seen_old q f (hseen q f h)
    seen_cand := fun q f h r hr => I.seen_cand q f (hseen q f h) r (hcand r _ hr)
    seen_owner := fun q f h r hr => I.seen_owner q f (hseen q f h) r (hheld r _ hr)
    condemned_free := fun q f h r hr => by
      rcases moved_cases Pc.condemned hpc h with ⟨-, h⟩ | ⟨-, h⟩
      · have hs : seen = some f := h
        subst hs
        exact I.free_of_mayRecover (p := p) (by rw [hp]; rfl) hv r (hheld r _ hr)
      · exact I.condemned_free q f h r (hheld r _ hr) }

/-- The path is emptied when no process but `p` holds and `p` holds no longer. -/
theorem Inv.clear (I : Inv s) (hpc : s'.pc = Function.update s.pc p x) (hl : s'.lock = none)
    (hn : s'.next = s.next) (hheld : x.held = none) (hcand : x.cand = none)
    (hseen : x.seen = none) (hothers : ∀ q t, q ≠ p → (s.pc q).held ≠ some t) : Inv s' := by
  have hheld' : ∀ q t, (s'.pc q).held ≠ some t := by
    intro q t h
    rcases moved_cases Pc.held hpc h with ⟨-, h⟩ | ⟨hq, h⟩
    · rw [hheld] at h; cases h
    · exact hothers q t hq h
  have hcand' := moved_mono Pc.cand hpc (by simp [hcand])
  have hseen' := moved_mono Pc.seen hpc (by simp [hseen])
  exact {
    owned := fun q t h => absurd h (hheld' q t)
    lock_old := fun f h => by rw [hl] at h; cases h
    cand_old := fun q i h => by rw [hn]; exact I.cand_old q i (hcand' q i h)
    cand_own := fun q r i hq hr => I.cand_own q r i (hcand' q i hq) (hcand' r i hr)
    cand_new := fun q i h f hf => by rw [hl] at hf; cases hf
    seen_old := fun q f h => by rw [hn]; exact I.seen_old q f (hseen' q f h)
    seen_cand := fun q f h r hr => I.seen_cand q f (hseen' q f h) r (hcand' r _ hr)
    seen_owner := fun q f h r hr => absurd hr (hheld' r _)
    condemned_free := fun q f h r hr => hheld' r _ hr }

end Move

theorem Inv.rename_free {s : St} (I : Inv s) {p dl : Nat} {seen : Option LockFile}
    {f : LockFile} (hp : s.pc p = .rename dl seen) (hl : s.lock = some f)
    (hg : namesFileRead s (.act p)) (q t : Nat) : (s.pc q).held ≠ some t := by
  intro hq
  simp only [namesFileRead, hp, hl, reduceCtorEq, false_or, Option.map_some] at hg
  cases hseen : seen with
  | none => rw [hseen] at hg; cases hg
  | some g =>
    rw [hseen] at hg
    have hino : f.ino = g.ino := by simpa using hg
    obtain ⟨m, ho⟩ := I.owned q t hq
    have hf : f = ⟨t, some ⟨t, q⟩, m⟩ := Option.some.inj (hl.symm.trans ho)
    refine I.condemned_free p g (by rw [hp, hseen]; rfl) q ?_
    rw [hq, ← hino, hf]

theorem act_inv {c : Cfg} {s s' : St} {p : Nat} (I : Inv s) (hg : namesFileRead s (.act p))
    (h : act c s p = some s') : Inv s' := by
  unfold act at h
  split at h
  case h_1 dl hp => cases h; exact I.write rfl rfl rfl
  case h_2 dl ino m hp =>
    split at h
    · rename_i h0
      cases h; exact I.link hp h0 rfl rfl rfl
    · cases h; exact I.quiet rfl rfl rfl (by simp [Pc.held]) rfl rfl
  case h_3 dl hp => split at h <;> cases h <;> exact I.quiet rfl rfl rfl (by simp [Pc.held]) rfl rfl
  case h_4 dl m hp => cases h; exact I.read rfl rfl rfl
  case h_5 dl m seen hp =>
    split at h
    · rename_i hv
      cases h; exact I.judge hp hv rfl rfl rfl
    · cases h; exact I.quiet rfl rfl rfl (by simp [Pc.held]) rfl rfl
  case h_6 dl seen hp =>
    split at h
    · cases h; exact I.quiet rfl rfl rfl (by simp [Pc.held]) rfl rfl
    · rename_i f hl
      cases h
      exact I.clear rfl rfl rfl rfl rfl rfl fun q t _ => I.rename_free hp hl hg q t
  case h_7 dl hp => cases h; exact I.quiet rfl rfl rfl (by simp [Pc.held]) rfl rfl
  case h_8 dl hp => split at h <;> cases h <;> exact I.quiet rfl rfl rfl (by simp [Pc.held]) rfl rfl
  case h_9 t hp =>
    split at h
    · cases h; exact I.quiet rfl rfl rfl (by simp [Pc.held, hp]) rfl rfl
    · cases h; exact I.quiet rfl rfl rfl (by simp [Pc.held]) rfl rfl
  case h_10 t hp =>
    -- the releasing process holds, so nobody else does
    cases h
    refine I.clear rfl rfl rfl rfl rfl rfl fun q u hq hu => hq ?_
    exact I.held_unique (t := u) (u := t) hu (by rw [hp]; rfl)
  all_goals cases h

theorem step_inv {c : Cfg} {s s' : St} {l : Lbl} (I : Inv s) (hg : namesFileRead s l)
    (h : step c s l = some s') : Inv s' := by
  cases l with
  | acquire p =>
    simp only [step] at h
    split at h
    · cases h; exact I.quiet rfl rfl rfl (by simp [Pc.held]) rfl rfl
    · cases h
  | act p => exact act_inv I hg h
  | release p =>
    simp only [step] at h
    split at h
    · rename_i t hp
      cases h; exact I.quiet rfl rfl rfl (by simp [Pc.held, hp]) rfl rfl
    · cases h
  | crash p =>
    simp only [step] at h
    cases h; exact I.quiet rfl rfl rfl (by simp [Pc.held]) rfl rfl
  | spawn p =>
    simp only [step] at h
    split at h
    · cases h; exact I.quiet rfl rfl rfl (by simp [Pc.held]) rfl rfl
    · cases h
  | clock t =>
    simp only [step] at h
    cases h
    exact ⟨I.owned, I.lock_old, I.cand_old, I.cand_own, I.cand_new, I.seen_old, I.seen_cand,
      I.seen_owner, I.condemned_free⟩

theorem inv_inductive (c : Cfg) : (lockSys c).InductiveOn namesFileRead Inv where
  init _ h := init_inv h
  step _ _ _ I hg h := step_inv I hg h

/-! ## Mutual exclusion -/

/-- **Mutual exclusion under the guard.** In every run whose recovery renames
name the file the recoverer read (or nothing), at most one live process is
inside. -/
theorem mutex_of_names_file_read (c : Cfg) {s : St} (h : (lockSys c).ReachableOn namesFileRead s) :
    MutualExclusion s :=
  ((inv_inductive c).reachable h).mutex

/-- No lock file, no process in a call. -/
def start : St := ⟨none, fun _ => .idle, 0, 0⟩

theorem start_init : Init start := ⟨fun _ => .inl rfl, fun _ h => by cases h⟩

/-- Process `p` runs `acquireLock` up to a verdict that allows recovery. -/
def condemn (p : Nat) : List Lbl :=
  [.acquire p, .act p, .act p, .act p, .act p, .act p]

/-- Process `p` renames the lock away, drops it and publishes its own. -/
def takeOver (p : Nat) : List Lbl := [.act p, .act p, .act p, .act p]

/-- Process 1 takes the lock and crashes; 2 recovers it. -/
def soloRecovery : List Lbl :=
  [.acquire 1, .act 1, .act 1, .crash 1] ++ condemn 2 ++ takeOver 2

theorem mutex_solo_recovery :
    ∃ s, Inside s 2 ∧ (lockSys ⟨1000, 10000⟩).ReachableOn namesFileRead s ∧ MutualExclusion s := by
  have hrun : ((LTS.exec (LTS.guardStep namesFileRead (step ⟨1000, 10000⟩)) start
      soloRecovery).map fun s => s.pc 2) = some (.holding 2) := by decide
  obtain ⟨s, hs, hpc⟩ := Option.map_eq_some_iff.mp hrun
  have hr : (lockSys ⟨1000, 10000⟩).ReachableOn namesFileRead s :=
    LTS.reachableOn_of_exec start_init hs
  exact ⟨s, ⟨2, hpc⟩, hr, mutex_of_names_file_read ⟨1000, 10000⟩ hr⟩

/-- Process 1 takes the lock and crashes; 2 and 3 both condemn its file, 3
takes over, and the rename of 2 removes the file of 3. -/
def doubleRecovery : List Lbl :=
  [.acquire 1, .act 1, .act 1, .crash 1] ++ condemn 2 ++ condemn 3 ++ takeOver 3 ++ takeOver 2

theorem two_holders_reachable :
    ∃ s, (lockSys ⟨1000, 10000⟩).Reachable s ∧ Inside s 2 ∧ Inside s 3 ∧ ¬ MutualExclusion s := by
  have hrun : ((LTS.exec (LTS.guardStep LTS.anyStep (step ⟨1000, 10000⟩)) start
      doubleRecovery).map fun s => (s.pc 2, s.pc 3)) = some (.holding 4, .holding 3) := by decide
  obtain ⟨s, hs, hpc⟩ := Option.map_eq_some_iff.mp hrun
  obtain ⟨h2, h3⟩ := Prod.mk.inj hpc
  have i2 : Inside s 2 := ⟨4, h2⟩
  have i3 : Inside s 3 := ⟨3, h3⟩
  exact ⟨s, LTS.reachableOn_of_exec start_init hs, i2, i3,
    fun h => absurd (h 2 3 i2 i3) (by decide)⟩

end OpenBrain.Clients.SpoolLock
