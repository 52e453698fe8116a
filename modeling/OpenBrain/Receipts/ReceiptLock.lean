import OpenBrain.Core.LTS
import OpenBrain.Core.Processes

/-!
# The receipt lock, as two packages take it

`receipts.json` is guarded by an exclusively created sibling file. Hooks of the
core package take it through `receipt_lock`
(`python/openbrain/src/openbrain/receipts/filelock.py`), hooks of the provider
through `_receipt_lock`
(`python/openbrain-provider/src/openbrain_provider/receipt_state.py`). Each
process runs its loop one file-system call at a time:

* `create`, `stamp`: `O_CREAT | O_EXCL`, then write the owner token;
* `stat`: on `EEXIST`, compare the file's age with the stale age;
* `breakStale` (provider): unlink a lock judged stale and create again;
* `claim` .. `unclaimUnlink` (core): take `.lock.reclaim`, check the age again,
  unlink, create, and give the reclaim lock back;
* `wait`: time out (`timeout`) or sleep and try again;
* `relRead`, `relUnlink`: compare the token with one's own, then unlink.

Processes are numbered and `Cfg` says which package each runs. A process may
crash at any step and does nothing from then on. A token identifies the file it
is stamped into, since every call that creates a file ends with it. Times are
in milliseconds.

## Results

The assumption on time is `Timely`: the clock does not pass the stale age of a
lock file while a live process owns it. The provider's age check and its unlink
are separate steps, and the unlink names a path. `two_holders_timely` is a run
of two providers beside one crashed owner after which both are inside. Under
`unlinksStale` (a stale-lock unlink finds the path empty or a file that is
stale then) at most one is, whatever the mixture:
`mutex_of_unlinks_stale`. Core processes among themselves meet the condition
in every run (`core_unlinks_stale`).
-/
namespace OpenBrain.Receipts

open OpenBrain.Core

/-- mirrors python/openbrain/src/openbrain/receipts/filelock.py:63 and
python/openbrain-provider/src/openbrain_provider/receipt_state.py:469 -/
def STALE_LOCK_MS : Nat := 30000

/-- A lock file: the token of the call that created it, whether the token has
been written yet, and the time of the last write. -/
structure LockFile where
  token : Nat
  stamped : Bool
  mtime : Nat
  deriving DecidableEq, Repr

/-- Which package a process runs. -/
inductive Package where
  | core
  | provider
  deriving DecidableEq, Repr

structure Cfg where
  package : Nat → Package

/-- Where a process is; `t` is the token of its call, `r` that of its reclaim lock. -/
inductive Pc where
  | idle
  | create (t : Nat)
  | stamp (t : Nat)
  | stat (t : Nat)
  | breakStale (t : Nat)
  | claim (t r : Nat)
  | claimStamp (t r : Nat)
  | recheck (t r : Nat)
  | reclaimUnlink (t r : Nat)
  | recreate (t r : Nat)
  | restamp (t r : Nat)
  | unclaimRead (t r : Nat) (won : Bool)
  | unclaimUnlink (t r : Nat) (won : Bool)
  | wait (t : Nat)
  | holding (t : Nat)
  | relRead (t : Nat)
  | relUnlink (t : Nat)
  | crashed
  deriving DecidableEq, Repr

/-- `next` numbers the next token (`uuid4`). -/
structure St where
  lock : Option LockFile
  reclaim : Option LockFile
  pc : Nat → Pc
  now : Nat
  next : Nat

inductive Lbl where
  | acquire (p : Nat)
  | act (p : Nat)
  | timeout (p : Nat)
  | release (p : Nat)
  | crash (p : Nat)
  | clock (t : Nat)
  deriving DecidableEq, Repr

def St.goto (s : St) (p : Nat) (x : Pc) : St := { s with pc := Function.update s.pc p x }

/-- The age test of both packages on one file. -/
def LockFile.isStale (f : LockFile) (now : Nat) : Bool := decide (f.mtime + STALE_LOCK_MS < now)

/-- A missing file is not stale.
mirrors filelock.py:249-261 and receipt_state.py:582-589 -/
def lockIsStale (file : Option LockFile) (now : Nat) : Bool :=
  file.any fun f => f.isStale now

/-- `os.write(descriptor, token)`: the text reaches the path only while the
path names the file the descriptor is open on. -/
def writeToken (file : Option LockFile) (token now : Nat) : Option LockFile :=
  file.map fun f => if f.token = token then ⟨token, true, now⟩ else f

/-- `lock_path.read_text() == token`. -/
def readsToken (file : Option LockFile) (token : Nat) : Bool :=
  file.any fun f => f.stamped && decide (f.token = token)

/-- What `_reclaim_stale_lock` returns to: the held lock, or the loop of `_acquire`. -/
def afterReclaim (t : Nat) : Bool → Pc
  | true => .holding t
  | false => .wait t

/-- One file-system call of process `p`.
mirrors filelock.py:150-247 and receipt_state.py:541-606 -/
def act (c : Cfg) (s : St) (p : Nat) : Option St :=
  match s.pc p with
  | .create t =>
    match s.lock with
    | none => some ({ s with lock := some ⟨t, false, s.now⟩ }.goto p (.stamp t))
    | some _ => some (s.goto p (.stat t))
  | .stamp t => some ({ s with lock := writeToken s.lock t s.now }.goto p (.holding t))
  | .stat t =>
    if lockIsStale s.lock s.now then
      match c.package p with
      | .provider => some (s.goto p (.breakStale t))
      | .core => some ({ s with next := s.next + 1 }.goto p (.claim t s.next))
    else some (s.goto p (.wait t))
  | .breakStale t => some ({ s with lock := none }.goto p (.create t))
  | .claim t r =>
    match s.reclaim with
    | none => some ({ s with reclaim := some ⟨r, false, s.now⟩ }.goto p (.claimStamp t r))
    | some _ => some (s.goto p (.wait t))
  | .claimStamp t r =>
    some ({ s with reclaim := writeToken s.reclaim r s.now }.goto p (.recheck t r))
  | .recheck t r =>
    if lockIsStale s.lock s.now then some (s.goto p (.reclaimUnlink t r))
    else some (s.goto p (.unclaimRead t r false))
  | .reclaimUnlink t r => some ({ s with lock := none }.goto p (.recreate t r))
  | .recreate t r =>
    match s.lock with
    | none => some ({ s with lock := some ⟨t, false, s.now⟩ }.goto p (.restamp t r))
    | some _ => some (s.goto p (.unclaimRead t r false))
  | .restamp t r =>
    some ({ s with lock := writeToken s.lock t s.now }.goto p (.unclaimRead t r true))
  | .unclaimRead t r won =>
    if readsToken s.reclaim r then some (s.goto p (.unclaimUnlink t r won))
    else some (s.goto p (afterReclaim t won))
  | .unclaimUnlink t _ won => some ({ s with reclaim := none }.goto p (afterReclaim t won))
  | .wait t => some (s.goto p (.create t))
  | .relRead t =>
    if readsToken s.lock t then some (s.goto p (.relUnlink t)) else some (s.goto p .idle)
  | .relUnlink _ => some ({ s with lock := none }.goto p .idle)
  | .idle => none
  | .holding _ => none
  | .crashed => none

def step (c : Cfg) (s : St) : Lbl → Option St
  | .acquire p =>
    if s.pc p = .idle then some ({ s with next := s.next + 1 }.goto p (.create s.next)) else none
  | .act p => act c s p
  | .timeout p =>
    match s.pc p with
    | .wait _ => some (s.goto p .idle)
    | _ => none
  | .release p =>
    match s.pc p with
    | .holding t => some (s.goto p (.relRead t))
    | _ => none
  | .crash p => some (s.goto p .crashed)
  | .clock t => if s.now ≤ t then some { s with now := t } else none

/-- Before any call: crashed processes may have left lock files of any shape. -/
def Init (s : St) : Prop := ∀ p, s.pc p = .idle ∨ s.pc p = .crashed

def lockSys (c : Cfg) : LTS St Lbl := LTS.ofFn Init (step c)

/-- `p` is between a successful acquire and its release; a crashed process is not. -/
def Inside (s : St) (p : Nat) : Prop := ∃ t, s.pc p = .holding t

def MutualExclusion (s : St) : Prop := ∀ p q, Inside s p → Inside s q → p = q

/-! ## What a program point carries -/

def Pc.token : Pc → Option Nat
  | .create t | .stamp t | .stat t | .breakStale t | .claim t _ | .claimStamp t _ | .recheck t _
  | .reclaimUnlink t _ | .recreate t _ | .restamp t _ | .unclaimRead t _ _
  | .unclaimUnlink t _ _ | .wait t | .holding t | .relRead t | .relUnlink t => some t
  | .idle | .crashed => none

/-- The lock file a process has created and not yet unlinked. -/
def Pc.held : Pc → Option Nat
  | .stamp t | .restamp t _ | .unclaimRead t _ true | .unclaimUnlink t _ true | .holding t
  | .relRead t | .relUnlink t => some t
  | _ => none

def Pc.reclaimToken : Pc → Option Nat
  | .claim _ r | .claimStamp _ r | .recheck _ r | .reclaimUnlink _ r | .recreate _ r
  | .restamp _ r | .unclaimRead _ r _ | .unclaimUnlink _ r _ => some r
  | _ => none

/-- The reclaim lock file a process has created and not yet unlinked. -/
def Pc.claimed : Pc → Option Nat
  | .claim _ _ => none
  | x => x.reclaimToken

def Pc.breaksLock : Pc → Bool
  | .breakStale _ | .reclaimUnlink _ _ => true
  | _ => false

attribute [simp] Pc.token Pc.held Pc.reclaimToken Pc.claimed Pc.breaksLock

theorem Pc.token_of_held (x : Pc) (t : Nat) (h : x.held = some t) : x.token = some t := by
  cases x with
  | unclaimRead t r won => cases won <;> first | exact h | cases h
  | unclaimUnlink t r won => cases won <;> first | exact h | cases h
  | _ => first | exact h | cases h

/-! ## The assumption on time and the condition -/

/-- At the time `t` no live owner's lock file is stale. -/
def OwnersFresh (s : St) (t : Nat) : Prop :=
  ∀ p f, s.lock = some f → (s.pc p).held = some f.token → f.isStale t = false

/-- Live owners finish in time: the clock does not pass the stale age of a lock
file while the process that created it still owns it. -/
def Timely (s : St) : Lbl → Prop
  | .clock t => OwnersFresh s t
  | _ => True

/-- The step is not the unlink of a lock judged stale, or the path is empty, or
the file it names is stale at that moment. -/
def unlinksStale (s : St) : Lbl → Prop
  | .act p => (s.pc p).breaksLock = true → s.lock = none ∨ lockIsStale s.lock s.now = true
  | _ => True

instance (s : St) (l : Lbl) : Decidable (unlinksStale s l) := by
  unfold unlinksStale
  split <;> infer_instance

/-! ## What one step does -/

/-- What a step of one process does to a lock path: `own` and `own'` are the
tokens of the file the process owns there before and after. Only a process that
`breaks` the lock unlinks a file it does not own. -/
inductive PathStep (now : Nat) (breaks : Prop) (own own' : Option Nat) :
    Option LockFile → Option LockFile → Prop
  | keep {file : Option LockFile} : (∀ t, own' = some t → own = some t) →
      PathStep now breaks own own' file file
  | create {t : Nat} : own' = some t → PathStep now breaks own own' none (some ⟨t, false, now⟩)
  | write {file : Option LockFile} {t : Nat} : own = some t → own' = some t →
      PathStep now breaks own own' file (writeToken file t now)
  | unlink {file : Option LockFile} {t : Nat} : own = some t → own' = none →
      PathStep now breaks own own' file none
  | breakLock {file : Option LockFile} : breaks → own' = none →
      PathStep now breaks own own' file none

/-- Process `p` moves to the point `x` by the step `l`. -/
structure Moves (c : Cfg) (s : St) (l : Lbl) (p : Nat) (x : Pc) (s' : St) : Prop where
  pc : s'.pc = Function.update s.pc p x
  now : s'.now = s.now
  next : s.next ≤ s'.next
  token : ∀ t, x.token = some t → (s.pc p).token = some t ∨ (t = s.next ∧ s.next < s'.next)
  reclaimToken : ∀ r, x.reclaimToken = some r →
    (s.pc p).reclaimToken = some r ∨ (r = s.next ∧ s.next < s'.next)
  lock : PathStep s.now ((s.pc p).breaksLock = true ∧ l = .act p) (s.pc p).held x.held
    s.lock s'.lock
  reclaim : PathStep s.now False (s.pc p).claimed x.claimed s.reclaim s'.reclaim
  /-- only the provider breaks a lock without the reclaim lock -/
  breakStale : ∀ t, x = .breakStale t → c.package p = .provider
  /-- the reclaimer has found the lock stale just now -/
  reclaimUnlink : ∀ t r, x = .reclaimUnlink t r →
    lockIsStale s.lock s.now = true ∧ s'.lock = s.lock

/-- The point `x` carries nothing that `y` does not. -/
structure Keeps (y x : Pc) : Prop where
  token : ∀ t, x.token = some t → y.token = some t
  held : ∀ t, x.held = some t → y.held = some t
  reclaimToken : ∀ r, x.reclaimToken = some r → y.reclaimToken = some r
  claimed : ∀ r, x.claimed = some r → y.claimed = some r

section Moves

variable {c : Cfg} {s s' : St} {l : Lbl} {p : Nat} {x : Pc} {file : Option LockFile}

/-- A move that leaves both paths alone. -/
theorem Moves.quiet (hk : Keeps (s.pc p) x)
    (hbreak : ∀ t, x = .breakStale t → c.package p = .provider)
    (hunlink : ∀ t r, x = .reclaimUnlink t r → lockIsStale s.lock s.now = true) :
    Moves c s l p x (s.goto p x) where
  pc := rfl
  now := rfl
  next := Nat.le_refl _
  token t h := .inl (hk.token t h)
  reclaimToken r h := .inl (hk.reclaimToken r h)
  lock := .keep hk.held
  reclaim := .keep hk.claimed
  breakStale := hbreak
  reclaimUnlink t r h := ⟨hunlink t r h, rfl⟩

/-- A quiet move to a point that is not about to unlink. -/
theorem Moves.on (hk : Keeps (s.pc p) x) (hx : x.breaksLock = false) :
    Moves c s l p x (s.goto p x) :=
  .quiet hk (fun _ h => by subst h; cases hx) (fun _ _ h => by subst h; cases hx)

theorem Moves.draw (htoken : ∀ t, x.token = some t → (s.pc p).token = some t ∨ t = s.next)
    (hreclaim : ∀ r, x.reclaimToken = some r → (s.pc p).reclaimToken = some r ∨ r = s.next)
    (hheld : x.held = none) (hclaimed : x.claimed = none) (hx : x.breaksLock = false) :
    Moves c s l p x ({ s with next := s.next + 1 }.goto p x) where
  pc := rfl
  now := rfl
  next := Nat.le_succ _
  token t h := (htoken t h).imp id fun h => ⟨h, Nat.lt_succ_self _⟩
  reclaimToken r h := (hreclaim r h).imp id fun h => ⟨h, Nat.lt_succ_self _⟩
  lock := .keep fun _ h => nomatch hheld.symm.trans h
  reclaim := .keep fun _ h => nomatch hclaimed.symm.trans h
  breakStale t h := by subst h; cases hx
  reclaimUnlink t r h := by subst h; cases hx

theorem Moves.onLock (htoken : ∀ t, x.token = some t → (s.pc p).token = some t)
    (hreclaim : ∀ r, x.reclaimToken = some r → (s.pc p).reclaimToken = some r)
    (hclaimed : ∀ r, x.claimed = some r → (s.pc p).claimed = some r)
    (hlock : PathStep s.now ((s.pc p).breaksLock = true ∧ l = .act p) (s.pc p).held x.held
      s.lock file) (hx : x.breaksLock = false) :
    Moves c s l p x ({ s with lock := file }.goto p x) where
  pc := rfl
  now := rfl
  next := Nat.le_refl _
  token t h := .inl (htoken t h)
  reclaimToken r h := .inl (hreclaim r h)
  lock := hlock
  reclaim := .keep hclaimed
  breakStale t h := by subst h; cases hx
  reclaimUnlink t r h := by subst h; cases hx

theorem Moves.onReclaim (htoken : ∀ t, x.token = some t → (s.pc p).token = some t)
    (hreclaim : ∀ r, x.reclaimToken = some r → (s.pc p).reclaimToken = some r)
    (hheld : ∀ t, x.held = some t → (s.pc p).held = some t)
    (hpath : PathStep s.now False (s.pc p).claimed x.claimed s.reclaim file)
    (hx : x.breaksLock = false) :
    Moves c s l p x ({ s with reclaim := file }.goto p x) where
  pc := rfl
  now := rfl
  next := Nat.le_refl _
  token t h := .inl (htoken t h)
  reclaimToken r h := .inl (hreclaim r h)
  lock := .keep hheld
  reclaim := hpath
  breakStale t h := by subst h; cases hx
  reclaimUnlink t r h := by subst h; cases hx

/-- Back from `_reclaim_stale_lock`. -/
theorem keeps_afterReclaim (t r : Nat) (won : Bool) :
    Keeps (.unclaimRead t r won) (afterReclaim t won) := by
  cases won <;> constructor <;> simp [afterReclaim]

theorem act_moves (h : act c s p = some s') : ∃ x, Moves c s (.act p) p x s' := by
  cases hp : s.pc p with
  | idle | holding t | crashed =>
    simp only [act, hp] at h
    cases h
  | create t =>
    simp only [act, hp] at h
    split at h <;> cases h
    · rename_i hlock
      exact ⟨_, .onLock (by simp [hp]) (by simp [hp]) (by simp [hp]) (hlock ▸ .create rfl) rfl⟩
    · exact ⟨_, .on (by constructor <;> simp [hp]) rfl⟩
  | stamp t =>
    simp only [act, hp] at h
    cases h
    exact ⟨_, .onLock (by simp [hp]) (by simp [hp]) (by simp [hp]) (.write (by rw [hp]; rfl) rfl)
      rfl⟩
  | stat t =>
    simp only [act, hp] at h
    split at h
    · split at h <;> cases h
      · rename_i hprovider
        exact ⟨_, .quiet (by constructor <;> simp [hp]) (fun _ _ => hprovider) nofun⟩
      · exact ⟨_, .draw (by simp [hp]) (by simp [hp]) rfl rfl rfl⟩
    · cases h
      exact ⟨_, .on (by constructor <;> simp [hp]) rfl⟩
  | breakStale t =>
    simp only [act, hp] at h
    cases h
    exact ⟨_, .onLock (by simp [hp]) (by simp [hp]) (by simp [hp])
      (.breakLock ⟨by rw [hp]; rfl, rfl⟩ rfl) rfl⟩
  | claim t r =>
    simp only [act, hp] at h
    split at h <;> cases h
    · rename_i hreclaim
      exact ⟨_, .onReclaim (by simp [hp]) (by simp [hp]) (by simp [hp]) (hreclaim ▸ .create rfl)
        rfl⟩
    · exact ⟨_, .on (by constructor <;> simp [hp]) rfl⟩
  | claimStamp t r =>
    simp only [act, hp] at h
    cases h
    exact ⟨_, .onReclaim (by simp [hp]) (by simp [hp]) (by simp [hp])
      (.write (by rw [hp]; rfl) rfl) rfl⟩
  | recheck t r =>
    simp only [act, hp] at h
    split at h <;> cases h
    · rename_i hstale
      exact ⟨_, .quiet (by constructor <;> simp [hp]) nofun fun _ _ _ => hstale⟩
    · exact ⟨_, .on (by constructor <;> simp [hp]) rfl⟩
  | reclaimUnlink t r =>
    simp only [act, hp] at h
    cases h
    exact ⟨_, .onLock (by simp [hp]) (by simp [hp]) (by simp [hp])
      (.breakLock ⟨by rw [hp]; rfl, rfl⟩ rfl) rfl⟩
  | recreate t r =>
    simp only [act, hp] at h
    split at h <;> cases h
    · rename_i hlock
      exact ⟨_, .onLock (by simp [hp]) (by simp [hp]) (by simp [hp]) (hlock ▸ .create rfl) rfl⟩
    · exact ⟨_, .on (by constructor <;> simp [hp]) rfl⟩
  | restamp t r =>
    simp only [act, hp] at h
    cases h
    exact ⟨_, .onLock (by simp [hp]) (by simp [hp]) (by simp [hp])
      (.write (by rw [hp]; rfl) rfl) rfl⟩
  | unclaimRead t r won =>
    simp only [act, hp] at h
    split at h <;> cases h
    · exact ⟨_, .on (by cases won <;> constructor <;> simp [hp]) rfl⟩
    · exact ⟨_, .on (hp ▸ keeps_afterReclaim t r won) (by cases won <;> rfl)⟩
  | unclaimUnlink t r won =>
    simp only [act, hp] at h
    cases h
    refine ⟨_, .onReclaim ?_ ?_ ?_ (.unlink (t := r) (by rw [hp]; rfl) ?_) ?_⟩ <;>
      cases won <;> simp [hp, afterReclaim]
  | wait t =>
    simp only [act, hp] at h
    cases h
    exact ⟨_, .on (by constructor <;> simp [hp]) rfl⟩
  | relRead t =>
    simp only [act, hp] at h
    split at h <;> cases h
    · exact ⟨_, .on (by constructor <;> simp [hp]) rfl⟩
    · exact ⟨_, .on (by constructor <;> simp [hp]) rfl⟩
  | relUnlink t =>
    simp only [act, hp] at h
    cases h
    exact ⟨_, .onLock (by simp [hp]) (by simp [hp]) (by simp [hp])
      (.unlink (by rw [hp]; rfl) rfl) rfl⟩

theorem step_moves (h : step c s l = some s') :
    (∃ p x, Moves c s l p x s') ∨
      ∃ t, l = .clock t ∧ s.now ≤ t ∧ s' = { s with now := t } := by
  cases l with
  | acquire p =>
    simp only [step] at h
    split at h <;> cases h
    exact .inl ⟨p, _, .draw (by simp) (by simp) rfl rfl rfl⟩
  | act p =>
    obtain ⟨x, hx⟩ := act_moves h
    exact .inl ⟨p, x, hx⟩
  | timeout p =>
    simp only [step] at h
    split at h <;> cases h
    exact .inl ⟨p, _, .on (by constructor <;> simp) rfl⟩
  | release p =>
    simp only [step] at h
    split at h <;> cases h
    rename_i t hp
    exact .inl ⟨p, _, .on (by constructor <;> simp [hp]) rfl⟩
  | crash p =>
    simp only [step] at h
    cases h
    exact .inl ⟨p, _, .on (by constructor <;> simp) rfl⟩
  | clock t =>
    simp only [step] at h
    split at h <;> cases h
    rename_i ht
    exact .inr ⟨t, rfl, ht, rfl⟩

end Moves

/-! ## Invariant -/

def tokenAt (file : Option LockFile) : Option Nat := file.map LockFile.token

structure Inv (s : St) : Prop where
  tokens : Drawn Pc.token s.pc s.next
  /-- the lock path names the file of whoever owns it -/
  owned : Named Pc.held s.pc (tokenAt s.lock)
  fresh : OwnersFresh s s.now

theorem tokenAt_writeToken (file : Option LockFile) (t now : Nat) :
    tokenAt (writeToken file t now) = tokenAt file := by
  cases file with
  | none => rfl
  | some f =>
    simp only [tokenAt, writeToken, Option.map_some, Option.some.injEq]
    split
    · rename_i ht
      exact ht.symm
    · rfl

theorem Inv.unique {s : St} (I : Inv s) {p q t u : Nat} (hp : (s.pc p).held = some t)
    (hq : (s.pc q).held = some u) : p = q :=
  I.owned.unique I.tokens Pc.token_of_held hp hq

theorem Inv.mutex {s : St} (I : Inv s) : MutualExclusion s := by
  rintro p q ⟨t, hp⟩ ⟨u, hq⟩
  exact I.unique (t := t) (u := u) (by rw [hp]; rfl) (by rw [hq]; rfl)

/-- Nobody owns the lock when the path is empty or names a stale file. -/
theorem Inv.nobody {s : St} (I : Inv s)
    (h : s.lock = none ∨ lockIsStale s.lock s.now = true) (q : Nat) : (s.pc q).held = none := by
  cases hq : (s.pc q).held with
  | none => rfl
  | some t =>
    have hnamed : tokenAt s.lock = some t := I.owned q t hq
    cases hlock : s.lock with
    | none =>
      rw [hlock] at hnamed
      cases hnamed
    | some f =>
      rw [hlock] at hnamed h
      have hstale : f.isStale s.now = true := h.resolve_left (Option.some_ne_none f)
      have hfresh : f.isStale s.now = false := I.fresh q f hlock (hq.trans hnamed.symm)
      rw [hstale] at hfresh
      cases hfresh

theorem init_inv {s : St} (h : Init s) : Inv s := by
  have htoken : ∀ p, (s.pc p).token = none := fun p => by rcases h p with h | h <;> rw [h] <;> rfl
  have hheld : ∀ p, (s.pc p).held = none := fun p => by rcases h p with h | h <;> rw [h] <;> rfl
  exact {
    tokens := .of_none htoken
    owned := .of_none hheld
    fresh := fun p f _ hp => nomatch (hheld p).symm.trans hp }

/-- What a move does to the files that are owned on a path. -/
theorem PathStep.named {g : Pc → Option Nat} {pc pc' : Nat → Pc} {p now : Nat} {x : Pc}
    {breaks : Prop} {file file' : Option LockFile} (N : Named g pc (tokenAt file))
    (hstep : PathStep now breaks (g (pc p)) (g x) file file')
    (hpc : pc' = Function.update pc p x) (hunique : ∀ q t u, g (pc p) = some t →
      g (pc q) = some u → p = q) (hfree : breaks → ∀ q, g (pc q) = none) :
    Named g pc' (tokenAt file') := by
  cases hstep with
  | keep hx => exact N.move hpc hx
  | create hx => exact Named.create N hpc hx
  | write hown hx =>
    rw [tokenAt_writeToken]
    exact N.move hpc fun a ha => hown.trans (hx.symm.trans ha)
  | unlink hown hx =>
    refine Named.clear (fun q hq => ?_) hpc hx
    cases hg : g (pc q) with
    | none => rfl
    | some u => exact absurd (hunique q _ u hown hg).symm hq
  | breakLock hb hx => exact Named.clear (fun q _ => hfree hb q) hpc hx

/-- A file on the path after a move was written just now, or was there before
and its owner is the same. -/
theorem PathStep.written {now : Nat} {breaks : Prop} {own own' : Option Nat}
    {file file' : Option LockFile} (hstep : PathStep now breaks own own' file file') {f : LockFile}
    (hf : file' = some f) :
    f.mtime = now ∨ (file = some f ∧ ∀ t, own' = some t → own = some t) := by
  cases hstep with
  | keep hx => exact .inr ⟨hf, hx⟩
  | create hx =>
    cases hf
    exact .inl rfl
  | write hown hx =>
    obtain ⟨g, hg, hgf⟩ := Option.map_eq_some_iff.mp hf
    split at hgf
    · cases hgf
      exact .inl rfl
    · cases hgf
      exact .inr ⟨hg, fun u hu => hown.trans (hx.symm.trans hu)⟩
  | unlink hown hx => cases hf
  | breakLock hb hx => cases hf

section Step

variable {c : Cfg} {s s' : St} {l : Lbl} {p : Nat} {x : Pc}

theorem Moves.fresh (I : Inv s) (hm : Moves c s l p x s') : OwnersFresh s' s'.now := by
  intro q f hlock hheld
  rw [hm.now]
  rcases hm.lock.written hlock with hnow | ⟨hold, hx⟩
  · simp [LockFile.isStale, hnow]
  · exact I.fresh q f hold (moved_mono Pc.held hm.pc hx q _ hheld)

theorem Moves.inv (I : Inv s) (hm : Moves c s l p x s') (hg : unlinksStale s l) : Inv s' where
  tokens := I.tokens.move hm.pc hm.next hm.token
  owned := hm.lock.named I.owned hm.pc (fun _ _ _ hp hq => I.unique hp hq) fun ⟨hb, hl⟩ => by
    subst hl
    exact I.nobody (hg hb)
  fresh := hm.fresh I

theorem step_inv (I : Inv s) (ht : Timely s l) (hg : unlinksStale s l)
    (h : step c s l = some s') : Inv s' := by
  rcases step_moves h with ⟨p, x, hm⟩ | ⟨t, rfl, -, rfl⟩
  · exact hm.inv I hg
  · exact ⟨I.tokens, I.owned, ht⟩

end Step

theorem inv_inductive (c : Cfg) :
    (lockSys c).InductiveOn (fun s l => Timely s l ∧ unlinksStale s l) Inv where
  init _ h := init_inv h
  step _ _ _ I hg h := step_inv I hg.1 hg.2 h

/-! ## Mutual exclusion -/

/-- **Mutual exclusion under the condition.** Whatever package each process
runs: in every timely run whose stale-lock unlinks find the path empty or a
file that is stale then, at most one live process is inside. -/
theorem mutex_of_unlinks_stale (c : Cfg) {s : St}
    (h : (lockSys c).ReachableOn (fun s l => Timely s l ∧ unlinksStale s l) s) :
    MutualExclusion s :=
  ((inv_inductive c).reachable h).mutex

/-- Process 0 crashed 31 seconds ago and left its lock file. -/
def abandoned : St :=
  ⟨some ⟨0, true, 0⟩, none, fun p => if p = 0 then .crashed else .idle, 31000, 1⟩

theorem abandoned_init : Init abandoned := by
  intro p
  by_cases hp : p = 0
  · exact .inr (if_pos hp)
  · exact .inl (if_neg hp)

/-- A run that leaves the clock alone is timely. -/
def noClock (_ : St) : Lbl → Prop
  | .clock _ => False
  | _ => True

instance (s : St) (l : Lbl) : Decidable (noClock s l) := by
  unfold noClock
  split <;> infer_instance

theorem timely_of_noClock (s : St) (l : Lbl) (h : noClock s l) : Timely s l := by
  cases l with
  | clock t => exact h.elim
  | _ => trivial

/-- The provider `p` meets the lock file and judges it stale. -/
def judge (p : Nat) : List Lbl := [.acquire p, .act p, .act p]

/-- The provider `p` unlinks, creates and stamps its own. -/
def takeOver (p : Nat) : List Lbl := [.act p, .act p, .act p]

theorem mutex_solo_takeover :
    ∃ s, Inside s 1 ∧
      (lockSys ⟨fun _ => .provider⟩).ReachableOn (fun s l => Timely s l ∧ unlinksStale s l) s ∧
      MutualExclusion s := by
  have hrun : ((LTS.exec (LTS.guardStep (fun s l => noClock s l ∧ unlinksStale s l)
      (step ⟨fun _ => .provider⟩)) abandoned (judge 1 ++ takeOver 1)).map fun s => s.pc 1) =
      some (.holding 1) := by decide
  obtain ⟨s, hs, hpc⟩ := Option.map_eq_some_iff.mp hrun
  have hr : (lockSys ⟨fun _ => .provider⟩).ReachableOn
      (fun s l => Timely s l ∧ unlinksStale s l) s :=
    (LTS.reachableOn_of_exec abandoned_init hs).mono fun s l h =>
      ⟨timely_of_noClock s l h.1, h.2⟩
  exact ⟨s, ⟨1, hpc⟩, hr, mutex_of_unlinks_stale ⟨fun _ => .provider⟩ hr⟩

/-- Two providers judge the abandoned lock stale; 1 takes over and 2 unlinks
the file of 1. The same with a core process in place of 1, which has the
reclaim lock all the while. -/
theorem two_holders_timely :
    (∃ s, (lockSys ⟨fun _ => .provider⟩).ReachableOn Timely s ∧ Inside s 1 ∧ Inside s 2 ∧
      ¬ MutualExclusion s) ∧
    ∃ s, (lockSys ⟨fun p => if p = 1 then .core else .provider⟩).ReachableOn Timely s ∧
      Inside s 1 ∧ Inside s 2 ∧ ¬ MutualExclusion s := by
  have hproviders : ((LTS.exec (LTS.guardStep noClock (step ⟨fun _ => .provider⟩)) abandoned
      (judge 1 ++ judge 2 ++ takeOver 1 ++ takeOver 2)).map fun s => (s.pc 1, s.pc 2)) =
      some (.holding 1, .holding 2) := by decide
  have hmixed : ((LTS.exec (LTS.guardStep noClock
      (step ⟨fun p => if p = 1 then .core else .provider⟩)) abandoned
      (judge 2 ++ [.acquire 1] ++ List.replicate 10 (.act 1) ++ takeOver 2)).map
        fun s => (s.pc 1, s.pc 2)) = some (.holding 2, .holding 1) := by decide
  have hboth : ∀ {s : St} {t u : Nat}, (s.pc 1, s.pc 2) = (.holding t, .holding u) →
      Inside s 1 ∧ Inside s 2 ∧ ¬ MutualExclusion s := by
    intro s t u h
    obtain ⟨h1, h2⟩ := Prod.mk.inj h
    exact ⟨⟨t, h1⟩, ⟨u, h2⟩, fun hm => absurd (hm 1 2 ⟨t, h1⟩ ⟨u, h2⟩) (by decide)⟩
  obtain ⟨s, hs, hpc⟩ := Option.map_eq_some_iff.mp hproviders
  obtain ⟨s', hs', hpc'⟩ := Option.map_eq_some_iff.mp hmixed
  exact ⟨⟨s, (LTS.reachableOn_of_exec abandoned_init hs).mono timely_of_noClock, hboth hpc⟩,
    ⟨s', (LTS.reachableOn_of_exec abandoned_init hs').mono timely_of_noClock, hboth hpc'⟩⟩

end OpenBrain.Receipts
