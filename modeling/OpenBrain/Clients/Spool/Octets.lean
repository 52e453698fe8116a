import OpenBrain.Clients.Spool.RetryState
import OpenBrain.Memory.Spool.Octets

/-!
# What a commit does to the octets of the spool

The TypeScript client reads the file with replacement and cuts it behind line feeds alone; the
Python client reads it strictly and translates line breaks. Both read the units, corrupted ones
too, line by line as they stand, and write back the lines of those that stay: nothing is lost,
reordered or split. The octets are the same where the reading was exact (`commit_keeps_iff`).
-/
namespace OpenBrain.Clients.Spool
open OpenBrain.Core OpenBrain.Core.Ecma

/-- mirrors spool-sidecar.ts:77-83 -/
def splitKeepEnds (text : Str) : List Str := splitAfter (fun u => u == 0x0A) text

/-- `existsSync(path) ? splitKeepEnds(readFileSync(path, "utf-8")) : []` -/
def readLines (file : Option (List UInt8)) : List Str :=
  match file with
  | none => []
  | some bytes => splitKeepEnds (Utf8.decodeFrom Utf8.idle bytes)

/-- The spool after the commit of a pass rewrote it. -/
def ReplayPass.rewrite (pass : ReplayPass) (file : Option (List UInt8)) : List UInt8 :=
  Utf8.encode (pass.remainingLines (parseUnits (readLines file))).flatten

def ReplayPass.Keeps (pass : ReplayPass) (file : Option (List UInt8)) (rewritten : List UInt8) :
    Prop :=
  Verbatim SpoolUnit.lines pass.keeps (parseUnits (readLines file)) (readLines file)
    (file.getD []) rewritten

theorem lineFeed_low {u : UInt16} (h : (u == 0x0A) = true) : isHighSurrogate u = false := by
  rw [eq_of_beq h]
  decide

theorem keeps_iff (pass : ReplayPass) (file : Option (List UInt8)) :
    pass.Keeps file (pass.rewrite file) ↔ (Utf8.decodeStrict (file.getD [])).isSome = true := by
  have hcover := parseUnits_lines (readLines file)
  cases file with
  | none =>
    exact (verbatim_iff SpoolUnit.lines (p := fun u => u == 0x0A) (fun _ => lineFeed_low) [] []
      hcover).trans (by decide)
  | some bytes =>
    refine (verbatim_iff SpoolUnit.lines (fun _ => lineFeed_low) _ bytes hcover).trans ?_
    show _ ↔ (Utf8.decodeStrict bytes).isSome = true
    unfold Utf8.decodeStrict
    split
    · rename_i h
      exact iff_of_true h rfl
    · rename_i h
      exact iff_of_false h (by simp)

/-- Whatever units were replayed and quarantined, the rewritten spool is the octets of the other
units, and all units are the octets of the file, exactly when the file was UTF-8 (here) and had no
carriage return (in Python, which writes nothing where it cannot read). -/
theorem commit_keeps_iff (file : Option (List UInt8)) :
    (∀ (L : Py.Limits) (H : Memory.Spool.Host) (pass : Memory.Spool.Pass)
        (rewritten : List UInt8), pass.rewrite L H file = some rewritten →
        (pass.Keeps L H file rewritten ↔ 0x0D ∉ file.getD [])) ∧
      ∀ pass : ReplayPass, pass.Keeps file (pass.rewrite file) ↔
        (Utf8.decodeStrict (file.getD [])).isSome = true :=
  ⟨fun _ _ _ _ h => Memory.Spool.keeps_iff h, fun pass => keeps_iff pass file⟩

/-- A pass that replayed the record `b` and has nothing else to write. -/
def replayedB : Memory.Spool.Pass where
  quarantine_threshold := 3
  now := ⟨⟨false, 0, 0, Dec.zero_normal⟩, Double.zero_fixed⟩
  prior_state := ⟨none, []⟩
  todo := []
  unit_results := []
  results := []
  outcomes := []
  replayed_units := [(none, [units "b"])]
  failed_updates := []
  quarantine_updates := []

/-- The record `b` and a torn line behind it. -/
def tornSpool (lineBreak : List UInt8) : List UInt8 :=
  Utf8.encode (Memory.Spool.recordText "b" [] ++ units "\n\x7btorn") ++ lineBreak

theorem commit_keeps_torn :
    replayedB.Keeps ⟨4300, 1000⟩ ⟨id, fun _ => false, fun _ => false⟩ (some (tornSpool [0x0A]))
      (Utf8.encode (units "\x7btorn\n")) :=
  ((commit_keeps_iff _).1 _ _ _ _ (by decide +kernel)).mpr (by decide +kernel)

/-- The carriage return of the corrupted line is lost, and of an octet that is not UTF-8 a
replacement is left. -/
theorem octets_lost :
    (∃ rewritten, replayedB.rewrite ⟨4300, 1000⟩ ⟨id, fun _ => false, fun _ => false⟩
        (some (tornSpool [0x0D, 0x0A])) = some rewritten ∧
      ¬ replayedB.Keeps ⟨4300, 1000⟩ ⟨id, fun _ => false, fun _ => false⟩
        (some (tornSpool [0x0D, 0x0A])) rewritten) ∧
    ∀ pass : ReplayPass, ¬ pass.Keeps (some [0xFF, 0x0A]) (pass.rewrite (some [0xFF, 0x0A])) := by
  refine ⟨?_, ?_⟩
  · have hrewrite : replayedB.rewrite ⟨4300, 1000⟩ ⟨id, fun _ => false, fun _ => false⟩
        (some (tornSpool [0x0D, 0x0A])) = some (Utf8.encode (units "\x7btorn\n")) := by
      decide +kernel
    refine ⟨_, hrewrite, fun h => ?_⟩
    exact absurd ((Memory.Spool.keeps_iff hrewrite).mp h) (by decide +kernel)
  · intro pass h
    exact absurd ((keeps_iff pass (some [0xFF, 0x0A])).mp h) (by decide)

end OpenBrain.Clients.Spool
