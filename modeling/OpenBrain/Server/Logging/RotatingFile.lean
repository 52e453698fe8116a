import OpenBrain.Core.LTS
import OpenBrain.Core.Utf8
import Mathlib.Data.Rat.Floor
import Mathlib.Tactic.Linarith

/-!
# The rotating log file (`server/logging/rotating-file.ts`)

A sink appends lines to one file and moves it to `.1` before a line that would bring it over its
cap, and behind one that did; `.1` moves to `.2` and so on, and the file at the limit is deleted.
Each file is modelled by its octets and each rotated one by the number behind the path, which is
whatever number the limit counts down to. A later process starts from the files an earlier one left.

Rotations count from the limit: files an earlier process left behind it are never seen again
(`lowered_limit_keeps`). While no start leaves files behind its limit, each write keeps the file
under the cap, the rotated files within the limit and all of them together the last lines written
(`rotation_keeps_suffix`).
-/
namespace OpenBrain.Server.Logging
open OpenBrain.Core List

/-- A limit that a comparison has admitted. -/
inductive Limit where
  | finite (q : ℚ)
  | infinity
  deriving DecidableEq

/-- `limit < n` -/
def Limit.below : Limit → ℕ → Bool
  | .finite q, n => decide (q < n)
  | .infinity, _ => false

/-- `RotatingFileOptions`; `none` is an absent number, `NaN` or `-Infinity`, which no comparison
admits. -/
structure RotatingFileOptions where
  maxBytes : Option Limit
  maxFiles : Option Limit
  deriving DecidableEq

/-- The active file and the rotated ones by their numbers. -/
structure Disk where
  active : Option (List UInt8)
  rotated : ℚ → Option (List UInt8)

/-- mirrors src/server/logging/rotating-file.ts:82-94 -/
def currentSize (d : Disk) : ℕ := (d.active.getD []).length

/-- `rmSync(file, { force: true })` -/
def removed (files : ℚ → Option (List UInt8)) (name : ℚ) : ℚ → Option (List UInt8) :=
  Function.update files name none

/-- `if (existsSync(source)) renameSync(source, target)`; mirrors :126-135 -/
def renamed (files : ℚ → Option (List UInt8)) (source target : ℚ) : ℚ → Option (List UInt8) :=
  match files source with
  | none => files
  | some content => Function.update (removed files source) target (some content)

/-- The loop over `i = maxFiles - 1, maxFiles - 2, …` while `i >= 1`; mirrors :123-136 -/
def shifted (maxFiles : ℚ) (files : ℚ → Option (List UInt8)) : ℚ → Option (List UInt8) :=
  (List.range ⌊maxFiles - 1⌋₊).foldl
    (fun files (turn : ℕ) => renamed files (maxFiles - 1 - turn) (maxFiles - turn)) files

/-- No file operation fails; `none` is the loop that does not end; mirrors :108-153 -/
def rotate (maxFiles : Limit) (d : Disk) : Option Disk :=
  match maxFiles with
  | .infinity => none
  | .finite q =>
    if q ≤ 0 then some { d with active := none }
    else
      let files := shifted q (removed d.rotated q)
      match d.active with
      | none => some ⟨none, files⟩
      | some content => some ⟨none, Function.update files 1 (some content)⟩

/-- `RotatingFileSink` with its count of the active file. -/
structure RotatingFileSink where
  maxBytes : Limit
  maxFiles : Limit
  size : ℕ
  deriving DecidableEq

/-- mirrors :160-181 -/
def createRotatingFileSink (options : RotatingFileOptions) (d : Disk) : RotatingFileSink where
  maxBytes := match options.maxBytes with
    | some (.finite q) => if 0 < q then .finite q else .finite 1000000
    | some .infinity => .infinity
    | none => .finite 1000000
  maxFiles := match options.maxFiles with
    | some (.finite q) => if 0 ≤ q then .finite q else .finite 3
    | some .infinity => .infinity
    | none => .finite 3
  size := currentSize d

/-- The rotation and the count after it; mirrors :205-207, :235-237 -/
def rotated (sink : RotatingFileSink) (d : Disk) : Option (RotatingFileSink × Disk) :=
  (rotate sink.maxFiles d).map fun d' =>
    ({ sink with size := if d'.active.isNone then 0 else currentSize d' }, d')

/-- `line.endsWith("\n") ? line : line + "\n"`, in octets. -/
def payload (line : Str) : List UInt8 :=
  Utf8.encode (if line.getLast? = some (unit '\n') then line else line ++ [unit '\n'])

/-- mirrors :213-214 -/
def appended (sink : RotatingFileSink) (d : Disk) (line : Str) : RotatingFileSink × Disk :=
  ({ sink with size := sink.size + (payload line).length },
    { d with active := some (d.active.getD [] ++ payload line) })

/-- mirrors :195-239 -/
def write (sink : RotatingFileSink) (d : Disk) (line : Str) : Option (RotatingFileSink × Disk) :=
  (if 0 < sink.size ∧ sink.maxBytes.below (sink.size + (payload line).length) then rotated sink d
    else some (sink, d)).bind fun before =>
  let after := appended before.1 before.2 line
  if after.1.maxBytes.below after.1.size then rotated after.1 after.2 else some after

/-! ## Runs -/

/-- The files, the sink of the running process, and every line that was written. -/
structure State where
  disk : Disk
  sink : Option RotatingFileSink
  lines : List Str

inductive Label where
  | start (options : RotatingFileOptions)
  | write (line : Str)

def step (s : State) : Label → Option State
  | .start options => some { s with sink := some (createRotatingFileSink options s.disk) }
  | .write line => s.sink.bind fun sink => (write sink s.disk line).map fun (sink, disk) =>
    ⟨disk, some sink, s.lines ++ [line]⟩

def system : LTS State Label :=
  .ofFn (fun s => s = ⟨⟨none, fun _ => none⟩, none, []⟩) step

/-! ## The files kept -/

/-- The octets of some lines. -/
def bytesOf (block : List Str) : List UInt8 := (block.map payload).flatten

/-- The rotated files `.1`, `.2`, … of blocks of lines, the newest first. -/
def named (kept : List (List Str)) : ℚ → Option (List UInt8) := fun i =>
  if i.isInt = true ∧ 1 ≤ i then (kept[i.num.toNat - 1]?).map bytesOf else none

/-- How many rotated files a limit keeps: a fraction has no name that a rotation moves a file to. -/
def retained (maxFiles : ℚ) : ℕ :=
  if maxFiles ≤ 0 then 0 else if maxFiles.isInt then maxFiles.num.toNat else 1

theorem named_natCast (kept : List (List Str)) (n : ℕ) :
    named kept n = if 1 ≤ n then (kept[n - 1]?).map bytesOf else none := by
  simp [named, Rat.isInt]

theorem exists_of_isInt {i : ℚ} (h : i.isInt = true) (hpos : 0 ≤ i) : ∃ n : ℕ, i = n := by
  have hden : i.den = 1 := by simpa [Rat.isInt] using h
  obtain ⟨n, hn⟩ := Int.eq_ofNat_of_zero_le (Rat.num_nonneg.mpr hpos)
  refine ⟨n, ?_⟩
  rw [← Rat.coe_int_num_of_den_eq_one hden, hn]
  simp

theorem named_other (kept : List (List Str)) {i : ℚ} (h : ∀ n : ℕ, i ≠ n) : named kept i = none := by
  unfold named
  refine if_neg ?_
  rintro ⟨hint, hle⟩
  obtain ⟨n, hn⟩ := exists_of_isInt hint (by linarith)
  exact h n hn

/-- Files are told apart by the natural numbers and the rest. -/
theorem files_ext {f g : ℚ → Option (List UInt8)} (hnat : ∀ n : ℕ, f n = g n)
    (hother : ∀ i : ℚ, (∀ n : ℕ, i ≠ n) → f i = g i) : f = g := by
  funext i
  by_cases h : ∃ n : ℕ, i = n
  · obtain ⟨n, rfl⟩ := h
    exact hnat n
  · exact hother i (not_exists.mp h)

theorem renamed_of_none {files : ℚ → Option (List UInt8)} {source target : ℚ}
    (h : files target = none) (i : ℚ) :
    renamed files source target i =
      if i = target then files source else if i = source then none else files i := by
  cases hsource : files source with
  | none =>
    simp only [renamed, hsource]
    split_ifs with ht hs
    · rw [ht, h]
    · rw [hs, hsource]
    · rfl
  | some content =>
    simp only [renamed, hsource, removed, Function.update_apply]

def turns (maxFiles : ℚ) (t : ℕ) (files : ℚ → Option (List UInt8)) : ℚ → Option (List UInt8) :=
  (List.range t).foldl
    (fun files (turn : ℕ) => renamed files (maxFiles - 1 - turn) (maxFiles - turn)) files

theorem turns_succ (maxFiles : ℚ) (t : ℕ) (files : ℚ → Option (List UInt8)) :
    turns maxFiles (t + 1) files =
      renamed (turns maxFiles t files) (maxFiles - 1 - t) (maxFiles - t) := by
  simp [turns, range_succ]

/-- From a limit whose own name is free: the names a turn moved are one up, and the last one it
moved from is free. -/
theorem turns_natCast {k : ℕ} {files : ℚ → Option (List UInt8)} (hfree : files k = none) {t : ℕ}
    (ht : t + 1 ≤ k) : (∀ n : ℕ, turns k t files n =
      if k - t < n ∧ n ≤ k then files (n - 1 : ℕ) else if n = k - t then none else files n) ∧
      ∀ i : ℚ, (∀ n : ℕ, i ≠ n) → turns k t files i = files i := by
  induction t with
  | zero =>
    refine ⟨fun n => ?_, fun i _ => rfl⟩
    simp only [turns, range_zero, foldl_nil, Nat.sub_zero]
    split_ifs with h h'
    · omega
    · rw [h', hfree]
    · rfl
  | succ t ih =>
    obtain ⟨hnat, hother⟩ := ih (by omega)
    have hsource : (k : ℚ) - 1 - t = ((k - 1 - t : ℕ) : ℚ) := by
      push_cast [Nat.cast_sub (show 1 ≤ k by omega), Nat.cast_sub (show t ≤ k - 1 by omega)]
      rfl
    have htarget : (k : ℚ) - t = ((k - t : ℕ) : ℚ) := by
      rw [Nat.cast_sub (by omega)]
    have hnone : turns k t files ((k - t : ℕ) : ℚ) = none := by
      rw [hnat, if_neg (by omega), if_pos rfl]
    constructor
    · intro n
      rw [turns_succ, hsource, htarget, renamed_of_none hnone, hnat, hnat]
      simp only [Nat.cast_inj]
      by_cases htop : n = k - t
      · rw [if_pos htop, if_neg (by omega), if_neg (by omega), if_pos (by omega)]
        congr 2
        omega
      · rw [if_neg htop]
        by_cases hlast : n = k - 1 - t
        · rw [if_pos hlast, if_neg (by omega), if_pos (by omega)]
        · rw [if_neg hlast, if_neg (c := n = k - (t + 1)) (by omega), if_neg htop]
          exact if_congr (by omega) rfl rfl
    · intro i hi
      rw [turns_succ, hsource, htarget, renamed_of_none hnone, if_neg (hi _), if_neg (hi _)]
      exact hother i hi

/-- A limit between two numbers counts down through names that no file has. -/
theorem turns_other {q : ℚ} {files : ℚ → Option (List UInt8)} (hq : q.isInt = false)
    (hfiles : ∀ i, i.isInt = false → files i = none) (t : ℕ) : turns q t files = files := by
  induction t with
  | zero => rfl
  | succ t ih =>
    have hsource : files (q - 1 - t) = none := by
      refine hfiles _ ?_
      by_contra hint
      have hint : (q - 1 - t).den = 1 := by simpa [Rat.isInt] using hint
      have hz := Rat.coe_int_num_of_den_eq_one hint
      have hsum : q = (((q - 1 - t).num + 1 + t : ℤ) : ℚ) := by
        push_cast
        rw [hz]
        ring
      rw [hsum] at hq
      simp [Rat.isInt] at hq
    rw [turns_succ, ih, renamed, hsource]

theorem isInt_natCast (n : ℕ) : ((n : ℕ) : ℚ).isInt = true := by simp [Rat.isInt]

theorem named_fraction (kept : List (List Str)) {i : ℚ} (h : i.isInt = false) :
    named kept i = none := by
  refine named_other kept fun n hn => ?_
  rw [hn, isInt_natCast] at h
  cases h

/-- What a rotation makes of the rotated files under a whole limit. -/
theorem shifted_whole {k : ℕ} (hk : 1 ≤ k) {kept : List (List Str)} (hkept : kept.length ≤ k)
    (current : List Str) :
    Function.update (shifted k (removed (named kept) k)) 1 (some (bytesOf current)) =
      named ((current :: kept).take k) := by
  have hfloor : ⌊(k : ℚ) - 1⌋₊ = k - 1 := by
    rw [← Nat.cast_one, ← Nat.cast_sub hk, Nat.floor_natCast]
  have hfree : removed (named kept) k (k : ℚ) = none := by simp [removed]
  obtain ⟨hnat, hother⟩ := turns_natCast hfree (t := k - 1) (by omega)
  have hone : k - (k - 1) = 1 := by omega
  rw [hone] at hnat
  have hremoved : ∀ n : ℕ, n ≠ k → removed (named kept) k n = named kept n := fun n hn => by
    simp [removed, hn]
  show Function.update (turns k ⌊(k : ℚ) - 1⌋₊ (removed (named kept) k)) 1 _ = _
  rw [hfloor]
  refine files_ext (fun n => ?_) fun i hi => ?_
  · rw [Function.update_apply, hnat, named_natCast]
    by_cases h1 : n = 1
    · have hk0 : k ≠ 0 := by omega
      subst h1
      simp [getElem?_take, hk0]
    · rw [if_neg (by exact_mod_cast h1), if_neg h1]
      by_cases hin : 1 < n ∧ n ≤ k
      · obtain ⟨m, rfl⟩ : ∃ m, n = m + 2 := ⟨n - 2, by omega⟩
        rw [if_pos hin, hremoved _ (by omega), named_natCast, if_pos (by omega), if_pos (by omega),
          getElem?_take, if_pos (by omega)]
        rfl
      · rw [if_neg hin]
        by_cases hn : n = k
        · obtain rfl : n = 0 := by omega
          omega
        · rw [hremoved n hn, named_natCast]
          by_cases hpos : 1 ≤ n
          · rw [if_pos hpos, if_pos hpos, getElem?_take, if_neg (by omega),
              getElem?_eq_none (by omega)]
          · rw [if_neg hpos, if_neg hpos]
  · have h1 : i ≠ 1 := fun h => hi 1 (by exact_mod_cast h)
    rw [Function.update_of_ne h1, hother i hi, removed, Function.update_of_ne (hi k),
      named_other kept hi, named_other _ hi]

/-- Under a limit that is no whole number only `.1` is written, over what it was. -/
theorem shifted_fraction {q : ℚ} (hq : q.isInt = false) {kept : List (List Str)}
    (hkept : kept.length ≤ 1) (current : List Str) :
    Function.update (shifted q (removed (named kept) q)) 1 (some (bytesOf current)) =
      named ((current :: kept).take 1) := by
  have hremoved : removed (named kept) q = named kept := by
    rw [removed, Function.update_eq_self_iff, named_fraction kept hq]
  show Function.update (turns q ⌊q - 1⌋₊ (removed (named kept) q)) 1 _ = _
  rw [hremoved, turns_other hq fun i hi => named_fraction kept hi]
  refine files_ext (fun n => ?_) fun i hi => ?_
  · rw [Function.update_apply, named_natCast, named_natCast]
    by_cases h1 : n = 1
    · subst h1
      simp
    · rw [if_neg (by exact_mod_cast h1)]
      by_cases hpos : 1 ≤ n
      · rw [if_pos hpos, if_pos hpos, getElem?_eq_none (by omega), getElem?_take,
          if_neg (by omega)]
      · rw [if_neg hpos, if_neg hpos]
  · have h1 : i ≠ 1 := fun h => hi 1 (by exact_mod_cast h)
    rw [Function.update_of_ne h1, named_other kept hi, named_other _ hi]

/-! ## One rotation -/

/-- The files hold some blocks of lines: the rotated ones from `.1` on, and the active one. -/
structure Holds (d : Disk) (kept : List (List Str)) (current : List Str) : Prop where
  rotated : d.rotated = named kept
  active : d.active.getD [] = bytesOf current

/-- A limit the files can keep to: it does not count down for ever, and it has room for the files a
rotation makes under it. -/
structure Counts (maxFiles : Limit) (k : ℕ) : Prop where
  finite : ∃ q : ℚ, maxFiles = .finite q ∧ q ≤ 2 ^ 53 ∧ retained q = k
  room : maxFiles.below k = false

theorem rotate_holds {maxFiles : Limit} {k : ℕ} (hc : Counts maxFiles k) {d : Disk}
    {kept : List (List Str)} {current : List Str} (h : Holds d kept current)
    (hkept : kept.length ≤ k) (hactive : d.active ≠ none) :
    ∃ d', rotate maxFiles d = some d' ∧ d'.active = none ∧
      Holds d' ((current :: kept).take k) [] := by
  obtain ⟨⟨q, rfl, -, rfl⟩, hroom⟩ := hc
  have hroom : (retained q : ℚ) ≤ q := by simpa [Limit.below] using hroom
  obtain ⟨content, hcontent⟩ := Option.ne_none_iff_exists'.mp hactive
  have hbytes : content = bytesOf current := by simpa [hcontent] using h.active
  unfold rotate retained at *
  by_cases hq : q ≤ 0
  · simp only [hq, if_true] at hkept ⊢
    obtain rfl := length_eq_zero_iff.mp (Nat.le_zero.mp hkept)
    exact ⟨_, rfl, rfl, h.rotated, rfl⟩
  · simp only [hq, if_false] at hkept hroom ⊢
    rw [hcontent]
    refine ⟨_, rfl, rfl, ?_, rfl⟩
    show Function.update (shifted q (removed d.rotated q)) 1 (some content) = _
    rw [h.rotated, hbytes]
    by_cases hint : q.isInt = true
    · obtain ⟨n, rfl⟩ := exists_of_isInt hint (by linarith)
      have hn : 1 ≤ n := by
        rw [not_le] at hq
        exact_mod_cast hq
      simp only [hint, if_true, Rat.num_natCast, Int.toNat_natCast] at hkept ⊢
      exact shifted_whole hn hkept current
    · simp only [hint] at hkept ⊢
      exact shifted_fraction (by simpa using hint) hkept current

/-! ## One write -/

/-- A sink that counts its file as it is and has limits that can be kept. -/
structure Steady (sink : RotatingFileSink) (d : Disk) (kept : List (List Str)) : Prop where
  size : sink.size = currentSize d
  cap : sink.maxBytes.below 0 = false
  limit : ∃ k, Counts sink.maxFiles k ∧ kept.length ≤ k

/-- The files together are the last lines that were written, each whole. -/
def Suffix (kept : List (List Str)) (current lines : List Str) : Prop :=
  (kept.reverse.flatten ++ current) <:+ lines

theorem rotated_keeps {sink : RotatingFileSink} {d : Disk} {kept : List (List Str)}
    {current lines : List Str} (h : Holds d kept current) (hs : Steady sink d kept)
    (hlines : Suffix kept current lines) (hpos : 0 < sink.size) :
    ∃ d' kept', rotated sink d = some ({ sink with size := 0 }, d') ∧ Holds d' kept' [] ∧
      Steady { sink with size := 0 } d' kept' ∧ Suffix kept' [] lines := by
  obtain ⟨k, hc, hkept⟩ := hs.limit
  have hactive : d.active ≠ none := by
    intro hnone
    rw [hs.size, currentSize, hnone] at hpos
    exact Nat.lt_irrefl 0 hpos
  obtain ⟨d', hrotate, hnone, hholds⟩ := rotate_holds hc h hkept hactive
  refine ⟨d', (current :: kept).take k, ?_, hholds, ⟨?_, hs.cap, k, hc, ?_⟩, ?_⟩
  · simp [rotated, hrotate, hnone]
  · simp [currentSize, hnone]
  · exact (length_take_le _ _)
  · unfold Suffix at hlines ⊢
    rw [append_nil]
    refine List.IsSuffix.trans ?_ (by simpa using hlines)
    rw [reverse_take]
    refine ⟨((current :: kept).reverse.take ((current :: kept).length - k)).flatten, ?_⟩
    rw [← flatten_append, take_append_drop, reverse_cons, flatten_concat]

theorem appended_keeps {sink : RotatingFileSink} {d : Disk} {kept : List (List Str)}
    {current lines : List Str} (h : Holds d kept current) (hs : Steady sink d kept)
    (hlines : Suffix kept current lines) (line : Str) :
    Holds (appended sink d line).2 kept (current ++ [line]) ∧
      Steady (appended sink d line).1 (appended sink d line).2 kept ∧
      Suffix kept (current ++ [line]) (lines ++ [line]) := by
  refine ⟨⟨h.rotated, ?_⟩, ⟨?_, hs.cap, hs.limit⟩, ?_⟩
  · simp [appended, h.active, bytesOf]
  · simp [appended, currentSize, hs.size]
  · obtain ⟨front, hfront⟩ := hlines
    exact ⟨front, by rw [← hfront]; simp⟩

theorem write_keeps {sink : RotatingFileSink} {d : Disk} {kept : List (List Str)}
    {current lines : List Str} (h : Holds d kept current) (hs : Steady sink d kept)
    (hlines : Suffix kept current lines) (line : Str) :
    ∃ sink' d' kept' current', write sink d line = some (sink', d') ∧ Holds d' kept' current' ∧
      Steady sink' d' kept' ∧ Suffix kept' current' (lines ++ [line]) ∧
      sink'.maxBytes = sink.maxBytes ∧ sink'.maxFiles = sink.maxFiles ∧
      sink'.maxBytes.below (currentSize d') = false := by
  have hbefore : ∃ sink₁ d₁ kept₁ current₁,
      (if 0 < sink.size ∧ sink.maxBytes.below (sink.size + (payload line).length) then
        rotated sink d else some (sink, d)) = some (sink₁, d₁) ∧ Holds d₁ kept₁ current₁ ∧
      Steady sink₁ d₁ kept₁ ∧ Suffix kept₁ current₁ lines ∧
      sink₁.maxBytes = sink.maxBytes ∧ sink₁.maxFiles = sink.maxFiles := by
    split
    · rename_i hfull
      obtain ⟨d₁, kept₁, hrotated, hh, hst, hl⟩ := rotated_keeps h hs hlines hfull.1
      exact ⟨_, d₁, kept₁, [], hrotated, hh, hst, hl, rfl, rfl⟩
    · exact ⟨sink, d, kept, current, rfl, h, hs, hlines, rfl, rfl⟩
  obtain ⟨sink₁, d₁, kept₁, current₁, hfirst, hh, hst, hl, hb, hf⟩ := hbefore
  obtain ⟨hh, hst, hl⟩ := appended_keeps hh hst hl line
  unfold write
  rw [hfirst, Option.bind_some]
  simp only
  by_cases hover : (appended sink₁ d₁ line).1.maxBytes.below (appended sink₁ d₁ line).1.size = true
  · rw [if_pos hover]
    have hpos : 0 < (appended sink₁ d₁ line).1.size := by
      rcases Nat.eq_zero_or_pos (appended sink₁ d₁ line).1.size with hzero | hpos
      · rw [hzero, hst.cap] at hover
        cases hover
      · exact hpos
    obtain ⟨d₂, kept₂, hrotated, hh, hst, hl⟩ := rotated_keeps hh hst hl hpos
    refine ⟨_, d₂, kept₂, [], hrotated, hh, hst, hl, hb, hf, ?_⟩
    rw [← hst.size]
    exact hst.cap
  · rw [if_neg hover]
    rw [hst.size] at hover
    exact ⟨_, _, kept₁, current₁ ++ [line], rfl, hh, hst, hl, hb, hf, (Bool.not_eq_true _).mp hover⟩

/-! ## Runs -/

def LimitReaches (s : State) : Label → Prop
  | .start options => ∃ k, Counts (createRotatingFileSink options s.disk).maxFiles k ∧
    ∀ i, (s.disk.rotated i).isSome = true → i ≤ k
  | .write _ => True

/-- What every such run keeps. -/
def Inv (s : State) : Prop := ∃ kept current, Holds s.disk kept current ∧
  Suffix kept current s.lines ∧ ∀ sink, s.sink = some sink → Steady sink s.disk kept

theorem createRotatingFileSink_cap (options : RotatingFileOptions) (d : Disk) :
    (createRotatingFileSink options d).maxBytes.below 0 = false := by
  simp only [createRotatingFileSink]
  split
  · split
    · rename_i hpos
      simpa [Limit.below] using le_of_lt hpos
    · simp [Limit.below]
  · rfl
  · simp [Limit.below]

theorem system_inv : system.InductiveOn LimitReaches Inv where
  init s hs := by
    subst hs
    refine ⟨[], [], ⟨?_, rfl⟩, nil_suffix, nofun⟩
    funext i
    simp [named]
  step s l s' hinv hguard hstep := by
    obtain ⟨kept, current, hholds, hlines, hsteady⟩ := hinv
    cases l with
    | start options =>
      cases hstep
      refine ⟨kept, current, hholds, hlines, ?_⟩
      rintro sink ⟨⟩
      obtain ⟨k, hc, hreach⟩ := hguard
      refine ⟨rfl, createRotatingFileSink_cap options s.disk, k, hc, ?_⟩
      -- the oldest file is numbered as many as there are
      rcases Nat.eq_zero_or_pos kept.length with hzero | hpos
      · omega
      · have hlast := hreach (kept.length : ℕ) (by
          rw [hholds.rotated, named_natCast, if_pos (show 1 ≤ kept.length from hpos),
            getElem?_eq_getElem (by omega)]
          rfl)
        exact_mod_cast hlast
    | write line =>
      obtain ⟨sink, hsink, hwrite⟩ := Option.bind_eq_some_iff.mp hstep
      obtain ⟨sink', d', kept', current', heq, hh, hst, hl, -⟩ :=
        write_keeps hholds (hsteady sink hsink) hlines line
      rw [heq] at hwrite
      cases hwrite
      refine ⟨kept', current', hh, hl, ?_⟩
      rintro sink ⟨⟩
      exact hst

/-- While no start leaves rotated files behind its limit, every write ends; behind it the active
file is within the cap, the rotated files are `.1` to `.k` for a `k` within the limit, and all of
them, from the oldest to the active one, hold the last lines written. -/
theorem rotation_keeps_suffix {s : State} (h : system.ReachableOn LimitReaches s)
    {sink : RotatingFileSink} (hsink : s.sink = some sink) (line : Str) :
    ∃ s', step s (.write line) = some s' ∧
      sink.maxBytes.below (currentSize s'.disk) = false ∧
      ∃ kept current, s'.disk.rotated = named kept ∧
        s'.disk.active.getD [] = bytesOf current ∧ sink.maxFiles.below kept.length = false ∧
        (kept.reverse.flatten ++ current) <:+ s.lines ++ [line] := by
  obtain ⟨kept, current, hholds, hlines, hsteady⟩ := system_inv.reachable h
  obtain ⟨sink', d', kept', current', heq, hh, hst, hl, hb, hf, hcap⟩ :=
    write_keeps hholds (hsteady sink hsink) hlines line
  refine ⟨⟨d', some sink', s.lines ++ [line]⟩, ?_, hb ▸ hcap, kept', current', hh.rotated,
    hh.active, ?_, hl⟩
  · simp [step, hsink, heq]
  · obtain ⟨k, hc, hkept⟩ := hst.limit
    have hroom := hf ▸ hc.room
    obtain ⟨q, hq, -⟩ := hc.finite
    rw [hf] at hq
    rw [hq] at hroom ⊢
    simp only [Limit.below, decide_eq_false_iff_not, not_lt] at hroom ⊢
    exact le_trans (by exact_mod_cast hkept) hroom

/-- A restart with a lower limit: `.2` of the first process stays, so there are two rotated files
under a limit of one, and the line that was in `.1` is gone from between them. -/
theorem lowered_limit_keeps :
    ∃ s s' sink, system.Reachable s ∧ s.sink = some sink ∧ sink.maxFiles = .finite 1 ∧
      step s (.write (units "c")) = some s' ∧ s'.lines = [units "a", units "b", units "c"] ∧
      s'.disk.rotated 2 = some (Utf8.encode (units "a\n")) ∧
      s'.disk.rotated 1 = some (Utf8.encode (units "c\n")) ∧
      ¬ ∃ kept, s'.disk.rotated = named kept ∧ sink.maxFiles.below kept.length = false := by
  have hrun : ((LTS.exec step ⟨⟨none, fun _ => none⟩, none, []⟩
      [.start ⟨some (.finite 1), some (.finite 2)⟩, .write (units "a"), .write (units "b"),
        .start ⟨some (.finite 1), some (.finite 1)⟩]).bind fun s => s.sink.bind fun sink =>
      (step s (.write (units "c"))).map fun s' =>
        (sink.maxFiles, s'.lines, s'.disk.rotated 2, s'.disk.rotated 1)) =
      some (.finite 1, [units "a", units "b", units "c"], some (Utf8.encode (units "a\n")),
        some (Utf8.encode (units "c\n"))) := by decide +kernel
  obtain ⟨s, hs, hrun⟩ := Option.bind_eq_some_iff.mp hrun
  obtain ⟨sink, hsink, hrun⟩ := Option.bind_eq_some_iff.mp hrun
  obtain ⟨s', hs', heq⟩ := Option.map_eq_some_iff.mp hrun
  simp only [Prod.mk.injEq] at heq
  obtain ⟨hlimit, hlines, htwo, hone⟩ := heq
  refine ⟨s, s', sink, ⟨_, _, rfl, LTS.runOn_of_exec_any hs⟩, hsink, hlimit, hs', hlines, htwo, hone,
    ?_⟩
  rintro ⟨kept, hnamed, hroom⟩
  have hlen : kept.length ≤ 1 := by
    rw [hlimit] at hroom
    simpa [Limit.below] using hroom
  have hnone : named kept (2 : ℕ) = none := by
    rw [named_natCast, if_pos (by decide), getElem?_eq_none (by omega)]
    rfl
  rw [hnamed] at htwo
  rw [Nat.cast_ofNat, htwo] at hnone
  cases hnone

/-- One line over a cap of one octet: it is in `.1`, and the active file is gone. -/
theorem rotation_keeps_suffix_one :
    ∃ s s' sink, system.ReachableOn LimitReaches s ∧ s.sink = some sink ∧
      step s (.write (units "a")) = some s' ∧ sink.maxBytes.below (currentSize s'.disk) = false := by
  have hstart : system.ReachableOn LimitReaches ⟨⟨none, fun _ => none⟩,
      some ⟨.finite 1, .finite 2, 0⟩, []⟩ := by
    refine ⟨_, [.start ⟨some (.finite 1), some (.finite 2)⟩], rfl, .cons ?_ ?_ (.nil _)⟩
    · refine ⟨2, ⟨⟨2, ?_, by norm_num, by decide +kernel⟩, by decide +kernel⟩, fun i hi => ?_⟩
      · decide +kernel
      · cases hi
    · show some _ = some _
      refine congrArg some ?_
      refine congrArg (fun k => State.mk _ (some k) _) ?_
      decide +kernel
  obtain ⟨s', hstep, hcap, -⟩ := rotation_keeps_suffix hstart rfl (units "a")
  exact ⟨_, s', _, hstart, rfl, hstep, hcap⟩

end OpenBrain.Server.Logging
