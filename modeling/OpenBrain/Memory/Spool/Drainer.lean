import OpenBrain.Memory.Spool.NoLoss
import OpenBrain.Memory.Spool.RetryText

/-!
# One drainer and its operator

The system of a single drainer: batches are appended, a pass runs from its snapshot to its
commit, and an operator restores quarantined units, one by one as the runbook says (the
record lines go back to the spool, the entry leaves the sidecar) or all of them by the
script, which appends the records anew and empties the sidecar (`clear`).

Next to the files the system keeps which units the sidecar holds and, for every unit key,
the failed passes in a row (`fails`), counted from what the dispatcher did with the records
and not from what the code wrote. `attempts` cuts the dispatches of a pass by unit.
-/
namespace OpenBrain.Memory.Spool
open OpenBrain.Core OpenBrain.Core.Py List

/-! ## Attempts -/

inductive Attempt where
  | replayed
  | retained
  | failed
  deriving DecidableEq

/-- The attempt on a unit with `n` records to go, and the dispatches after it. -/
def attempt : Nat → List Dispatch → Option (Attempt × List Dispatch)
  | 0, os => some (.replayed, os)
  | _ + 1, [] => none
  | n + 1, .ok _ :: os => attempt n os
  | _ + 1, .retained :: os => some (.retained, os)
  | _ + 1, .failed _ :: os => some (.failed, os)

/-- The attempts of a pass, unit by unit; `done` records of the first are dispatched. -/
def attempts : List SpoolUnit → Nat → List Dispatch → Option (List Attempt)
  | [], _, [] => some []
  | [], _, _ :: _ => none
  | unit :: todo, done, os =>
    (attempt ((unit.records.getD []).length - done) os).bind fun (a, os) =>
      (attempts todo 0 os).map (a :: ·)

def SpoolUnit.key (unit : SpoolUnit) : Option Str := unit.signature.map unitKey

/-- What a pass did with the units of a key: it replays the key when it replays one of
them, else it fails the key when one of them fails. -/
def verdict (scored : List (SpoolUnit × Attempt)) (unit_key : Str) : Attempt :=
  if scored.any fun d => d.1.key == some unit_key && d.2 == .replayed then .replayed
  else if scored.any fun d => d.1.key == some unit_key && d.2 == .failed then .failed
  else .retained

def dispatched (snapshot : List SpoolUnit) : List SpoolUnit :=
  snapshot.filter (·.signature.isSome)

def keysOf (H : Host) (lines : List Str) : List Str :=
  (groupIndexedLines lines).filterMap fun group => (parseGroup H group).bind SpoolUnit.key

/-! ## A whole pass -/

def dispatchAll : Pass → List Dispatch → Option Pass
  | pass, [] => some pass
  | pass, o :: os => (pass.dispatch o).bind fun p => dispatchAll p.1 os

/-- mirrors spool.py:526-655 (`replay_with_report`) without a crash -/
def runPass (cfg : Config) (H : Host) (files : Files) (now : Double) (os : List Dispatch) :
    Option (Pass × Files) := do
  let pass ← startPass cfg H files now
  let pass ← dispatchAll pass os
  if pass.todo.isEmpty then
    let files ← pass.commit H files 4
    some (pass, files)
  else none

/-! ## The system -/

structure Drainer where
  files : Files
  entries : List (Str × SpoolUnit)
  fails : Str → Nat

inductive Op where
  | append (b : Batch)
  | pass (now : Double) (os : List Dispatch)
  | restore (unit_key : Str)
  | clear

def freshGroup (s : Drainer) (b : Batch) : Bool :=
  (s.files.spool ++ s.entries.flatMap fun e => e.2.lines).all fun line =>
    b.group_id.isNone || rawGroupId line != b.group_id

/-- A key without a unit in the spool has no failures, and starts without when one comes. -/
def arrive (H : Host) (lines : List Str) (fails : Str → Nat) : Str → Nat := fun unit_key =>
  if unit_key ∈ keysOf H lines then fails unit_key else 0

/-- The failed passes in a row, after one more pass. -/
def nextFails (scored : List (SpoolUnit × Attempt)) (fails : Str → Nat) : Str → Nat :=
  fun unit_key =>
    match verdict scored unit_key with
    | .replayed => 0
    | .retained => fails unit_key
    | .failed => fails unit_key + 1

def sidecarEntries (pass : Pass) (live_units : List SpoolUnit) (entries : List (Str × SpoolUnit)) :
    List (Str × SpoolUnit) :=
  let quarantined := (pass.quarantinedNow live_units).map fun e => (e.1, e.2.1)
  (entries.filter (fun e => decide (e.1 ∉ quarantined.map Prod.fst)) ++
      Assoc.ofWrites quarantined).filter
    fun e => decide (e.1 ∉ pass.replayed_units.map unitKey)

namespace Drainer

def step (cfg : Config) (H : Host) (s : Drainer) : Op → Option Drainer
  | .append b =>
    match appendBatch cfg H s.files.spool b with
    | .ok (lines, _) =>
      if freshGroup s b then
        some { s with
          files := { s.files with spool := lines }
          fails := arrive H s.files.spool s.fails }
      else none
    | .error _ => some s
  | .pass now os => do
    let snapshot ← parseUnits H s.files.spool
    let as ← attempts (dispatched snapshot) 0 os
    let (pass, files) ← runPass cfg H s.files now os
    some {
      files := files
      entries := sidecarEntries pass snapshot s.entries
      fails := nextFails ((dispatched snapshot).zip as) s.fails }
  | .restore unit_key =>
    (s.entries.lookup unit_key).map fun unit => {
      files := { s.files with
        spool := s.files.spool ++ unit.lines
        quarantine := removeQuarantined s.files.quarantine [unit_key] }
      entries := s.entries.filter fun e => decide (e.1 ∉ [unit_key])
      fails := arrive H s.files.spool s.fails }
  | .clear => some { s with files := { s.files with quarantine := [] }, entries := [] }

def Init (s : Drainer) : Prop :=
  s.files = ⟨[], [], none⟩ ∧ s.entries = [] ∧ ∀ unit_key, s.fails unit_key = 0

def system (cfg : Config) (H : Host) : LTS Drainer Op := LTS.ofFn Init (step cfg H)

/-- The `consecutive_failures` a drainer reads for a unit. -/
def counted (s : Drainer) (unit_key : Str) : Option Nat :=
  (loadRetryState s.files.retry).map fun st =>
    ((st.units.lookup unit_key).map UnitRetryState.consecutive_failures).getD 0

end Drainer

/-! ## Groups apart -/

/-- No line of the one group would continue the other. -/
def Apart (a b : List Str) : Prop := ∀ x ∈ a, ∀ y ∈ b, sameGroup x y = false

/-- Groups that stay as they are, in whatever order they stand in a file. -/
structure Tidy (groups : List (List Str)) : Prop where
  group : ∀ g ∈ groups, g ≠ [] ∧ Together g
  apart : groups.Pairwise Apart

section Groups
variable {H : Host} {groups groups' : List (List Str)} {a b : List Str}

theorem Apart.symm (h : Apart a b) : Apart b a := by
  intro x hx y hy
  rw [Bool.eq_false_iff]
  intro hs
  obtain ⟨g, hxg, hyg⟩ := (sameGroup_iff x y).mp hs
  have := (sameGroup_iff y x).mpr ⟨g, hyg, hxg⟩
  rw [h y hy x hx] at this
  cases this

theorem Tidy.sublist (h : Tidy groups) (hs : groups'.Sublist groups) : Tidy groups' :=
  ⟨fun g hg => h.group g (hs.subset hg), h.apart.sublist hs⟩

theorem Tidy.perm (h : Tidy groups) (hp : groups'.Perm groups) : Tidy groups' :=
  ⟨fun g hg => h.group g (hp.mem_iff.mp hg), h.apart.perm hp.symm Apart.symm⟩

theorem Tidy.subperm (h : Tidy groups) (hs : groups'.Subperm groups) : Tidy groups' := by
  obtain ⟨l, hp, hl⟩ := hs
  exact (h.sublist hl).perm hp.symm

theorem Tidy.split (h : Tidy groups) : groupIndexedLines groups.flatten = groups := by
  apply splitBy_flatten
  · intro hnil
    exact (h.group [] hnil).1 rfl
  · intro g hg
    exact chain_of_together (h.group g hg).2
  · apply List.Pairwise.isChain
    apply h.apart.imp_of_mem
    intro x y hx hy hxy
    have hx := (h.group x hx).1
    have hy := (h.group y hy).1
    exact ⟨hx, hy, hxy _ (getLast_mem hx) _ (head_mem hy)⟩

theorem mapM_parsed {us : List SpoolUnit} (h : ∀ u ∈ us, Parsed H u) :
    (us.map SpoolUnit.lines).mapM (parseGroup H) = some us := by
  induction us with
  | nil => rfl
  | cons u us ih =>
    rw [map_cons, mapM_cons, (h u mem_cons_self).parse,
      ih fun v hv => h v (mem_cons_of_mem u hv)]
    rfl

/-- Units whose groups are apart read back from a file of their lines. -/
theorem parseUnits_units {us : List SpoolUnit} (h : Tidy (us.map SpoolUnit.lines))
    (hp : ∀ u ∈ us, Parsed H u) : parseUnits H (us.flatMap SpoolUnit.lines) = some us := by
  unfold parseUnits
  rw [flatMap_def, h.split]
  exact mapM_parsed hp

theorem keysOf_eq {lines : List Str} {us : List SpoolUnit} (h : parseUnits H lines = some us) :
    keysOf H lines = us.filterMap SpoolUnit.key := by
  unfold keysOf
  have hf := parseUnits_forall₂ h
  clear h
  generalize groupIndexedLines lines = gs at hf ⊢
  induction hf with
  | nil => rfl
  | cons hgu _ ih => rw [filterMap_cons, filterMap_cons, hgu, Option.bind_some, ih]

theorem keysOf_append {spool lines : List Str}
    (h : groupIndexedLines (spool ++ lines) = groupIndexedLines spool ++ [lines]) {unit_key : Str}
    (hk : unit_key ∈ keysOf H spool) : unit_key ∈ keysOf H (spool ++ lines) := by
  unfold keysOf at hk ⊢
  rw [h, filterMap_append]
  exact mem_append_left _ hk

end Groups

end OpenBrain.Memory.Spool
