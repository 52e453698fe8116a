import OpenBrain.Core.Bisect
import OpenBrain.Core.EcmaJson
import OpenBrain.Core.Halting
import OpenBrain.Core.Ranking
import Mathlib.Data.List.Lex

/-!
# Drop-folder discovery (`server/capture/drop-folder-discovery.ts`)

A walk below an approved root that stops at the first of three bounds: entries inspected, supported
files seen, levels of directories. Links are followed where they stay below the root. The file system
is what its calls answer; it does not change during a walk.

`events` is the tree as a walk without the first two bounds would meet it. The walk is a run over it
that halts (`walkDirectory_eq`), so that what it inspects, keeps and reports is told by the tree alone
(`discoverFiles_law`).
-/
namespace OpenBrain.Server.Capture
open OpenBrain.Core OpenBrain.Core.Ecma List

/-! ## The file system -/

structure Stat where
  isDirectory : Bool
  isFile : Bool
  dev : Nat
  ino : Nat
  deriving DecidableEq

/-- An open file; `content` is `none` when a read of it fails. -/
structure Descriptor where
  stat : Stat
  size : Nat
  content : Option (List UInt8)

/-- What the calls answer, `none` where they fail. `opendir` gives the names in the order the
directory is read. -/
structure FileSystem where
  opendir : Str → Option (List Str)
  realpath : Str → Option Str
  stat : Str → Option Stat
  openNoFollow : Str → Option Descriptor

def sep : UInt16 := unit '/'

/-- `path.join` of a directory and a name in it. -/
def join (dir name : Str) : Str :=
  if dir.getLast? = some sep then dir ++ name else dir ++ sep :: name

/-! ## Bounds -/

def SCAN_BOUND_FACTOR : Nat := 64
def SCAN_BOUND_CEILING : Nat := 100000

/-- mirrors drop-folder-contract.ts:78-84 -/
def maxEntriesInspected (limit : Nat) (override : Option Nat) : Nat :=
  let derived := max (min (limit * SCAN_BOUND_FACTOR) SCAN_BOUND_CEILING) (limit + 1)
  match override with
  | some entries => if 0 < entries then max entries (limit + 1) else derived
  | none => derived

theorem lt_maxEntriesInspected (limit : Nat) (override : Option Nat) :
    limit < maxEntriesInspected limit override := by
  unfold maxEntriesInspected
  dsimp only
  split
  · split <;> omega
  · omega

/-- mirrors drop-folder-discovery.ts:100-106 -/
structure DiscoveryBounds where
  depth : Nat
  scanEntries : Option Nat

/-! ## Files -/

def SUPPORTED_EXTENSIONS : List Str :=
  [".txt", ".md", ".markdown", ".text", ".log", ".json", ".yaml", ".yml", ".csv"].map units

/-- The part of a name from its last dot on. -/
def extension (name : Str) : Option Str :=
  if unit '.' ∈ name then some (unit '.' :: (name.reverse.takeWhile (· ≠ unit '.')).reverse) else none

/-- mirrors drop-folder-discovery.ts:29-33 -/
def hasSupportedExtension (toLowerCase : Str → Str) (name : Str) : Bool :=
  (extension name).any fun ext => SUPPORTED_EXTENSIONS.contains (toLowerCase ext)

/-- mirrors drop-folder-discovery.ts:35-50 -/
structure DiscoveredFile where
  realPath : Str
  dev : Nat
  ino : Nat
  relPath : Str
  deriving DecidableEq

/-- The order of `<` on strings. -/
def DiscoveredFile.key (file : DiscoveredFile) : List Nat := file.relPath.map UInt16.toNat

/-- mirrors drop-folder-discovery.ts:53-65 -/
structure DiscoveryResult where
  files : List DiscoveredFile
  truncated : Bool
  entriesInspected : Nat
  deriving DecidableEq

/-! ## The walk -/

/-- The fields a walk is built with. mirrors drop-folder-discovery.ts:149-159 -/
structure WalkConfig where
  toLowerCase : Str → Str
  fs : FileSystem
  realRoot : Str
  limit : Nat
  bounds : DiscoveryBounds

namespace WalkConfig
variable (c : WalkConfig)

def rootPrefix : Str := if c.realRoot.getLast? = some sep then c.realRoot else c.realRoot ++ [sep]

def scanBound : Nat := maxEntriesInspected c.limit c.bounds.scanEntries

def retainedMax : Nat := c.limit + 1

end WalkConfig

/-- The fields that change. -/
structure DiscoveryWalk where
  retained : List DiscoveredFile
  entriesInspected : Nat
  stopped : Bool

namespace DiscoveryWalk
variable (c : WalkConfig)

/-- mirrors drop-folder-discovery.ts:170-186 -/
def consider (w : DiscoveryWalk) (file : DiscoveredFile) : DiscoveryWalk :=
  let buf := w.retained
  let lo := Bisect.search (fun at' => decide (at'.key < file.key)) buf buf.length 0 buf.length
  if c.retainedMax ≤ buf.length ∧ c.retainedMax ≤ lo then w
  else
    let buf := Bisect.insertAt buf lo file
    { w with retained := if c.retainedMax < buf.length then buf.dropLast else buf }

/-- mirrors drop-folder-discovery.ts:195-211 -/
def confine (childAbs : Str) : Option Str :=
  match c.fs.realpath childAbs with
  | none => none
  | some realChild =>
    if realChild ≠ c.realRoot ∧ c.rootPrefix.isPrefixOf realChild = false then none
    else some realChild

def fileAt (name realChild : Str) (st : Stat) : DiscoveredFile where
  realPath := realChild
  dev := st.dev
  ino := st.ino
  relPath := if realChild.drop c.rootPrefix.length = [] then name
    else realChild.drop c.rootPrefix.length

/-- mirrors drop-folder-discovery.ts:218-228 -/
def retainFile (w : DiscoveryWalk) (name realChild : Str) (st : Stat) : DiscoveryWalk :=
  let w := w.consider c (fileAt c name realChild st)
  if c.limit < w.retained.length then { w with stopped := true } else w

/-- `walk` is what a directory is entered with. mirrors drop-folder-discovery.ts:234-260 -/
def inspectEntry (walk : DiscoveryWalk → Str → DiscoveryWalk) (w : DiscoveryWalk) (dir name : Str) :
    DiscoveryWalk :=
  let w := { w with entriesInspected := w.entriesInspected + 1 }
  let w := if c.scanBound ≤ w.entriesInspected then { w with stopped := true } else w
  let childAbs := join dir name
  match confine c childAbs with
  | none => w
  | some realChild =>
    match c.fs.stat realChild with
    | none => w
    | some st =>
      if st.isDirectory then (if w.stopped then w else walk w childAbs)
      else if st.isFile && hasSupportedExtension c.toLowerCase name then w.retainFile c name realChild st
      else w

/-- `levels` is how many levels of directories are left, this one included: at 0 `depth` is beyond
the bound. mirrors drop-folder-discovery.ts:262-302 -/
def walkDirectory : Nat → DiscoveryWalk → Str → DiscoveryWalk
  | 0, w, _ => if w.stopped then w else { w with stopped := true }
  | levels + 1, w, dir =>
    if w.stopped then w
    else
      match c.fs.opendir dir with
      | none => w
      | some names =>
        names.foldl
          (fun w name => if w.stopped then w else w.inspectEntry c (walkDirectory levels) dir name) w

/-- mirrors drop-folder-discovery.ts:325-338 -/
def result (w : DiscoveryWalk) : DiscoveryResult where
  files := if c.limit < w.retained.length then w.retained.take c.limit else w.retained
  truncated := w.stopped || decide (c.limit < w.retained.length)
  entriesInspected := w.entriesInspected

def start : DiscoveryWalk := ⟨[], 0, false⟩

end DiscoveryWalk

/-- mirrors drop-folder-discovery.ts:341-347 -/
def discoverFiles (c : WalkConfig) : DiscoveryResult :=
  (DiscoveryWalk.walkDirectory c (c.bounds.depth + 1) DiscoveryWalk.start c.realRoot).result c

/-! ## The tree a walk meets -/

inductive Event where
  | entry (dir name : Str)
  /-- a directory below the depth bound -/
  | pruned
  deriving DecidableEq

namespace WalkConfig
variable (c : WalkConfig)

/-- Where an entry leads, when that is below the root. -/
def leadsTo (dir name : Str) : Option (Str × Stat) :=
  (DiscoveryWalk.confine c (join dir name)).bind fun realChild =>
    (c.fs.stat realChild).map fun st => (realChild, st)

def entersDirectory (dir name : Str) : Bool := (c.leadsTo dir name).any fun r => r.2.isDirectory

/-- What there is below a directory, in the order of a walk. -/
def events : Nat → Str → List Event
  | 0, _ => [.pruned]
  | levels + 1, dir => ((c.fs.opendir dir).getD []).flatMap fun name =>
    .entry dir name :: if c.entersDirectory dir name then events levels (join dir name) else []

def tree : List Event := c.events (c.bounds.depth + 1) c.realRoot

def found : Event → Option DiscoveredFile
  | .entry dir name => (c.leadsTo dir name).bind fun r =>
    if r.2.isDirectory = false ∧ r.2.isFile = true ∧ hasSupportedExtension c.toLowerCase name = true then
      some (DiscoveryWalk.fileAt c name r.1 r.2)
    else none
  | .pruned => none

end WalkConfig

def Event.isEntry : Event → Bool
  | .entry _ _ => true
  | .pruned => false

namespace DiscoveryWalk
variable (c : WalkConfig)

def counted (w : DiscoveryWalk) : DiscoveryWalk :=
  ⟨w.retained, w.entriesInspected + 1, w.stopped || decide (c.scanBound ≤ w.entriesInspected + 1)⟩

def keep (w : DiscoveryWalk) (file : DiscoveredFile) : DiscoveryWalk :=
  let w := w.consider c file
  if c.limit < w.retained.length then { w with stopped := true } else w

def step (w : DiscoveryWalk) : Event → DiscoveryWalk
  | .entry dir name => ((c.found (.entry dir name)).map (keep c (w.counted c))).getD (w.counted c)
  | .pruned => { w with stopped := true }

variable {c} {w : DiscoveryWalk}

theorem inspectEntry_eq (walk : DiscoveryWalk → Str → DiscoveryWalk) (dir name : Str) :
    w.inspectEntry c walk dir name =
      if c.entersDirectory dir name then
        (if (w.counted c).stopped then w.counted c else walk (w.counted c) (join dir name))
      else w.step c (.entry dir name) := by
  have hcounted : (if c.scanBound ≤ w.entriesInspected + 1 then
      (⟨w.retained, w.entriesInspected + 1, true⟩ : DiscoveryWalk)
      else ⟨w.retained, w.entriesInspected + 1, w.stopped⟩) = w.counted c := by
    unfold counted
    split
    · rename_i h
      rw [decide_eq_true h, Bool.or_true]
    · rename_i h
      rw [decide_eq_false h, Bool.or_false]
  unfold inspectEntry step WalkConfig.entersDirectory WalkConfig.found WalkConfig.leadsTo
  dsimp only
  rw [hcounted]
  cases confine c (join dir name) with
  | none => rfl
  | some realChild =>
    rw [Option.bind_some]
    dsimp only
    cases c.fs.stat realChild with
    | none => rfl
    | some st =>
      rw [Option.map_some, Option.any_some, Option.bind_some]
      dsimp only
      cases st.isDirectory with
      | true => rfl
      | false => cases st.isFile <;> cases hasSupportedExtension c.toLowerCase name <;> rfl

theorem step_of_entersDirectory {dir name : Str} (h : c.entersDirectory dir name = true) :
    w.step c (.entry dir name) = w.counted c := by
  unfold step WalkConfig.found
  unfold WalkConfig.entersDirectory at h
  dsimp only
  cases hleads : c.leadsTo dir name with
  | none => rfl
  | some r =>
    rw [hleads, Option.any_some] at h
    rw [Option.bind_some, if_neg (by simp [h])]
    rfl

theorem walkDirectory_eq (levels : Nat) (w : DiscoveryWalk) (dir : Str) :
    walkDirectory c levels w dir =
      Halting.run DiscoveryWalk.stopped (step c) w (c.events levels dir) := by
  induction levels generalizing w dir with
  | zero =>
    rw [walkDirectory, WalkConfig.events, Halting.run_cons]
    rfl
  | succ levels ih =>
    rw [walkDirectory, WalkConfig.events]
    by_cases hstopped : w.stopped = true
    · rw [if_pos hstopped, Halting.run_of_stopped hstopped]
    · rw [if_neg hstopped]
      cases c.fs.opendir dir with
      | none => rfl
      | some names =>
        rw [Option.getD_some]
        clear hstopped
        dsimp only
        induction names generalizing w with
        | nil => rfl
        | cons name names ihn =>
          rw [foldl_cons, ihn, flatMap_cons, Halting.run_append]
          congr 1
          rw [Halting.run_cons]
          split
          · rename_i h
            exact (Halting.run_of_stopped h).symm
          · rename_i h
            rw [inspectEntry_eq]
            by_cases henters : c.entersDirectory dir name = true
            · rw [if_pos henters, if_pos henters, step_of_entersDirectory henters]
              split
              · rename_i hcount
                exact (Halting.run_of_stopped hcount).symm
              · exact ih _ _
            · rw [if_neg henters, if_neg henters]
              rfl

/-! ## What a walk does -/

/-- A buffer with room for a file takes it in order. -/
theorem consider_eq {file : DiscoveredFile} (hroom : w.retained.length ≤ c.limit)
    (hsorted : w.retained.Pairwise fun a b => a.key ≤ b.key) :
    w.consider c file =
      { w with retained := w.retained.orderedInsert (fun a b => a.key ≤ b.key) file } := by
  have hinsert := Bisect.insertAt_search (x := file) DiscoveredFile.key
    (fun a => decide_eq_true_iff (p := a.key < file.key)) hsorted
  unfold consider
  dsimp only
  rw [if_neg (by unfold WalkConfig.retainedMax; omega), hinsert, if_neg]
  rw [orderedInsert_length, WalkConfig.retainedMax]
  omega

/-- The walk stops at one file more than it may give. -/
theorem keep_eq {file : DiscoveredFile} (hroom : w.retained.length ≤ c.limit)
    (hsorted : w.retained.Pairwise fun a b => a.key ≤ b.key) :
    w.keep c file = ⟨w.retained.orderedInsert (fun a b => a.key ≤ b.key) file, w.entriesInspected,
      w.stopped || decide (c.limit < w.retained.length + 1)⟩ := by
  have hlength := orderedInsert_length (fun a b => a.key ≤ b.key) w.retained file
  unfold keep
  rw [consider_eq hroom hsorted]
  dsimp only
  split
  · rename_i hfull
    rw [decide_eq_true (hlength ▸ hfull), Bool.or_true]
  · rename_i hfits
    rw [decide_eq_false (hlength ▸ hfits), Bool.or_false]

/-- What a walk that has gone through some events has counted and kept. -/
structure Gone (c : WalkConfig) (done : List Event) (w : DiscoveryWalk) : Prop where
  inspected : w.entriesInspected = done.countP Event.isEntry
  kept : w.retained.Perm (done.filterMap c.found)
  sorted : w.retained.Pairwise fun a b => a.key ≤ b.key
  stopped : w.stopped = true ↔ c.scanBound ≤ w.entriesInspected ∨ .pruned ∈ done ∨
    c.limit < w.retained.length
  inBound : w.entriesInspected ≤ c.scanBound
  inBuffer : w.retained.length ≤ c.limit + 1

theorem gone_start : Gone c [] start where
  inspected := rfl
  kept := .refl _
  sorted := .nil
  stopped := by
    have hbound := lt_maxEntriesInspected c.limit c.bounds.scanEntries
    have hscan : ¬c.scanBound ≤ 0 := by
      unfold WalkConfig.scanBound
      omega
    simp [start, hscan]
  inBound := Nat.zero_le _
  inBuffer := Nat.zero_le _

theorem Gone.step {done : List Event} (hgo : w.stopped = false) (h : Gone c done w) (e : Event) :
    Gone c (done ++ [e]) (w.step c e) := by
  have hroom := (h.stopped.not.mp (by rw [hgo]; exact Bool.false_ne_true))
  rw [not_or, not_or, not_le, not_lt] at hroom
  obtain ⟨hscan, hpruned, hlimit⟩ := hroom
  have hcounted : (w.counted c).stopped = true ↔ c.scanBound ≤ w.entriesInspected + 1 := by
    rw [counted, hgo, Bool.false_or, decide_eq_true_iff]
  cases e with
  | pruned =>
    refine ⟨?_, ?_, h.sorted, ?_, h.inBound, h.inBuffer⟩
    · rw [countP_append]
      exact h.inspected
    · rw [filterMap_append]
      exact (append_nil (done.filterMap c.found)).symm ▸ h.kept
    · exact iff_of_true rfl (.inr (.inl (mem_append_right _ (mem_singleton_self _))))
  | entry dir name =>
    have hinspected : w.entriesInspected + 1 = (done ++ [Event.entry dir name]).countP Event.isEntry := by
      rw [countP_append, h.inspected]
      rfl
    have hnotPruned : .pruned ∉ done ++ [Event.entry dir name] := by simp [hpruned]
    cases hfound : c.found (.entry dir name) with
    | none =>
      have hstep : w.step c (.entry dir name) = w.counted c := by
        unfold DiscoveryWalk.step
        dsimp only
        rw [hfound]
        rfl
      rw [hstep]
      refine ⟨hinspected, ?_, h.sorted, ?_, hscan, h.inBuffer⟩
      · rw [filterMap_append, filterMap_cons_none hfound, filterMap_nil,
          append_nil]
        exact h.kept
      · rw [hcounted]
        simp only [hnotPruned, counted, Nat.not_lt.mpr hlimit, or_false]
    | some file =>
      have hstep : w.step c (.entry dir name) = (w.counted c).keep c file := by
        unfold DiscoveryWalk.step
        dsimp only
        rw [hfound]
        rfl
      have hkeep : (w.counted c).keep c file = _ := keep_eq hlimit h.sorted
      have hlength := orderedInsert_length (fun a b => a.key ≤ b.key) w.retained file
      have hkept : (w.retained.orderedInsert (fun a b => a.key ≤ b.key) file).Perm
          ((done ++ [Event.entry dir name]).filterMap c.found) := by
        rw [filterMap_append, filterMap_cons_some hfound, filterMap_nil]
        exact (perm_orderedInsert _ _ _).trans
          ((h.kept.cons file).trans (perm_append_singleton file _).symm)
      have hsorted := h.sorted.orderedInsert (r := fun a b : DiscoveredFile => a.key ≤ b.key) file
      rw [hstep, hkeep]
      refine ⟨hinspected, hkept, hsorted, ?_, hscan, ?_⟩
      · rw [Bool.or_eq_true, hcounted, decide_eq_true_iff]
        dsimp only [counted]
        rw [hlength]
        simp only [hnotPruned, false_or]
      · dsimp only [counted]
        omega

end DiscoveryWalk

/-! ## What discovery reports -/

section Discovery
variable {c : WalkConfig}

/-- Discovery has gone through a front part of the tree, the whole of it unless it stopped. -/
theorem discoverFiles_gone (c : WalkConfig) : ∃ gone rest w, c.tree = gone ++ rest ∧
    DiscoveryWalk.Gone c gone w ∧ discoverFiles c = w.result c ∧
      (w.stopped = false → rest = []) := by
  obtain ⟨gone, rest, htree, hgone, hend⟩ := @Halting.run_induction _ _ DiscoveryWalk.stopped
    (DiscoveryWalk.step c) DiscoveryWalk.start c.tree (DiscoveryWalk.Gone c)
    (fun done w e hgo h => DiscoveryWalk.Gone.step hgo h e) [] DiscoveryWalk.gone_start
  refine ⟨gone, rest, _, htree, by simpa using hgone, ?_, hend⟩
  rw [discoverFiles, DiscoveryWalk.walkDirectory_eq]
  rfl

def Confined (c : WalkConfig) (realPath : Str) : Prop :=
  realPath = c.realRoot ∨ c.rootPrefix.isPrefixOf realPath = true

theorem confined_of_confine {childAbs realChild : Str}
    (h : DiscoveryWalk.confine c childAbs = some realChild) : Confined c realChild := by
  unfold DiscoveryWalk.confine at h
  split at h
  · cases h
  · split at h
    · cases h
    · rename_i hnot
      cases h
      rw [not_and_or, not_not, Bool.not_eq_false] at hnot
      exact hnot

def LeadsTo (c : WalkConfig) (dir name : Str) (file : DiscoveredFile) : Prop :=
  hasSupportedExtension c.toLowerCase name = true ∧
    ∃ st, c.fs.realpath (join dir name) = some file.realPath ∧
      c.fs.stat file.realPath = some st ∧ st.isFile = true ∧ st.isDirectory = false ∧
        file.dev = st.dev ∧ file.ino = st.ino

theorem leadsTo_of_found {e : Event} {file : DiscoveredFile} (h : c.found e = some file) :
    ∃ dir name, e = .entry dir name ∧ LeadsTo c dir name file ∧ Confined c file.realPath := by
  cases e with
  | pruned => cases h
  | entry dir name =>
    obtain ⟨⟨realChild, st⟩, hleads, hfile⟩ := Option.bind_eq_some_iff.mp h
    obtain ⟨r, hconfine, hstat⟩ := Option.bind_eq_some_iff.mp hleads
    obtain ⟨st', hst, heq⟩ := Option.map_eq_some_iff.mp hstat
    cases heq
    dsimp only at hfile
    split at hfile
    · rename_i hkind
      cases hfile
      refine ⟨dir, name, rfl, ⟨hkind.2.2, st, ?_, hst, hkind.2.1, hkind.1, rfl, rfl⟩,
        confined_of_confine hconfine⟩
      unfold DiscoveryWalk.confine at hconfine
      split at hconfine
      · cases hconfine
      · rename_i hreal
        split at hconfine
        · cases hconfine
        · cases hconfine
          exact hreal
    · cases hfile

/-- The supported files the tree leads to, once for each entry that does. -/
def WalkConfig.supported (c : WalkConfig) : List DiscoveredFile := c.tree.filterMap c.found

def WalkConfig.entries (c : WalkConfig) : Nat := c.tree.countP Event.isEntry

/-- The tree meets one of the bounds: it has as many entries as may be inspected, more supported
files than may be given, or a directory below the depth bound. -/
def MeetsBound (c : WalkConfig) : Prop :=
  c.scanBound ≤ c.entries ∨ c.limit < c.supported.length ∨ .pruned ∈ c.tree

/-- What discovery gives and reports. -/
structure Discovered (c : WalkConfig) (r : DiscoveryResult) : Prop where
  /-- No more entries are inspected than the bound allows. -/
  bounded : r.entriesInspected ≤ c.scanBound
  limited : r.files.length ≤ c.limit
  /-- Every file is what some entry with a supported name leads to, at or below the root. -/
  confined : ∀ file ∈ r.files, Confined c file.realPath ∧ ∃ dir name, .entry dir name ∈ c.tree ∧
    LeadsTo c dir name file
  /-- A file is given no more often than entries lead to it. -/
  counted : r.files.Subperm c.supported
  ordered : r.files.Pairwise fun a b => a.key ≤ b.key
  truncated : r.truncated = true ↔ MeetsBound c
  /-- Without a bound met every entry was inspected and every supported file is given. -/
  whole : r.truncated = false → r.entriesInspected = c.entries ∧ r.files.Perm c.supported

theorem DiscoveryWalk.Gone.discovered {gone rest : List Event} {w : DiscoveryWalk}
    (h : DiscoveryWalk.Gone c gone w) (htree : c.tree = gone ++ rest)
    (hend : w.stopped = false → rest = []) : Discovered c (w.result c) := by
  have hsupported : c.supported = gone.filterMap c.found ++ rest.filterMap c.found := by
    rw [WalkConfig.supported, htree, filterMap_append]
  have hentries : c.entries = w.entriesInspected + rest.countP Event.isEntry := by
    rw [WalkConfig.entries, htree, countP_append, h.inspected]
  have hkept : w.retained.length ≤ c.supported.length := by
    rw [h.kept.length_eq, hsupported, length_append]
    omega
  have hsub : (w.result c).files.Sublist w.retained := by
    unfold DiscoveryWalk.result
    dsimp only
    split
    · exact take_sublist _ _
    · exact List.Sublist.refl _
  have hcounted : (w.result c).files.Subperm c.supported :=
    hsub.subperm.trans (h.kept.subperm.trans
      (hsupported ▸ (sublist_append_left _ _).subperm))
  have htruncated : (w.result c).truncated = true ↔ w.stopped = true := by
    unfold DiscoveryWalk.result
    rw [Bool.or_eq_true, decide_eq_true_iff]
    exact or_iff_left_of_imp fun hfull => h.stopped.mpr (.inr (.inr hfull))
  refine ⟨h.inBound, ?_, ?_, hcounted, h.sorted.sublist hsub, ?_, ?_⟩
  · unfold DiscoveryWalk.result
    dsimp only
    split
    · rw [length_take]
      omega
    · omega
  · intro file hfile
    obtain ⟨e, he, hfound⟩ := mem_filterMap.mp (hcounted.subset hfile)
    obtain ⟨dir, name, rfl, hleads, hconfined⟩ := leadsTo_of_found hfound
    exact ⟨hconfined, dir, name, he, hleads⟩
  · rw [htruncated]
    constructor
    · intro hstopped
      rcases h.stopped.mp hstopped with hscan | hpruned | hfull
      · exact .inl (by omega)
      · exact .inr (.inr (htree ▸ mem_append_left _ hpruned))
      · exact .inr (.inl (by omega))
    · intro hbound
      by_contra hgo
      have hrest := hend (Bool.eq_false_iff.mpr hgo)
      subst hrest
      rw [filterMap_nil, append_nil] at hsupported
      rw [append_nil] at htree
      rw [h.stopped, ← htree, h.kept.length_eq, ← hsupported] at hgo
      rw [countP_nil, Nat.add_zero] at hentries
      rw [MeetsBound, hentries] at hbound
      exact hgo (hbound.imp_right Or.symm)
  · intro hnot
    have hgo : w.stopped = false := by
      rw [← Bool.not_eq_true, ← htruncated, Bool.not_eq_true]
      exact hnot
    have hrest := hend hgo
    subst hrest
    rw [filterMap_nil, append_nil] at hsupported
    refine ⟨by rw [hentries]; rfl, ?_⟩
    have hfits : ¬c.limit < w.retained.length := fun hfull =>
      absurd (h.stopped.mpr (.inr (.inr hfull))) (by rw [hgo]; exact Bool.false_ne_true)
    unfold DiscoveryWalk.result
    rw [if_neg hfits, hsupported]
    exact h.kept

/-- Discovery stays within its bounds and below its root, and says that it stopped exactly when the
tree meets a bound. -/
theorem discoverFiles_law (c : WalkConfig) : Discovered c (discoverFiles c) := by
  obtain ⟨gone, rest, w, htree, hgone, heq, hend⟩ := discoverFiles_gone c
  rw [heq]
  exact hgone.discovered htree hend

/-- Where no two entries lead to one file, no file is given twice. -/
theorem Discovered.once {r : DiscoveryResult} (h : Discovered c r)
    (hone : (c.supported.map DiscoveredFile.realPath).Nodup) :
    (r.files.map DiscoveredFile.realPath).Nodup := by
  obtain ⟨files, hperm, hsub⟩ := h.counted
  exact ((hperm.map _).nodup_iff).mp (hone.sublist (hsub.map _))

theorem Discovered.below {r : DiscoveryResult} (h : Discovered c r) {st : Stat}
    (hroot : c.fs.stat c.realRoot = some st) (hdir : st.isDirectory = true) :
    ∀ file ∈ r.files, c.rootPrefix.isPrefixOf file.realPath = true := by
  intro file hfile
  obtain ⟨hconfined | hbelow, dir, name, -, -, st', -, hstat, -, hnot, -⟩ := h.confined file hfile
  · rw [hconfined, hroot] at hstat
    cases hstat
    exact absurd hdir (by rw [hnot]; exact Bool.false_ne_true)
  · exact hbelow

end Discovery

/-- A folder of files, some of them links, with room for a limit and a number of entries. -/
def folder (names : List Str) (target : Str → Str) (limit : Nat) (scanEntries : Option Nat) :
    WalkConfig where
  toLowerCase := id
  fs := {
    opendir := fun dir => if dir = units "/r" then some names else none
    realpath := fun path => some (target path)
    stat := fun path =>
      if path = units "/r" then some ⟨true, false, 1, 1⟩ else some ⟨false, true, 1, path.length⟩
    openNoFollow := fun _ => none }
  realRoot := units "/r"
  limit := limit
  bounds := ⟨8, scanEntries⟩

def linked : WalkConfig := folder [units "a.md", units "b.md"] (fun _ => units "/r/a.md") 5 none

def exact : WalkConfig := folder [units "a.md", units "b.bin"] id 1 (some 2)

end OpenBrain.Server.Capture
