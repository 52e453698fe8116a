import OpenBrain.Clients.Session.Wire
import OpenBrain.Core.Utf8Stream

/-!
# Reading a stream to the expected id (`clients/ts/src/mcp-transport.ts`)

`drain` hands each chunk to `SseIdScanner`, which stops at the first block that carries the
expected id and has a blank line behind it, and the block is wrapped into a text of its own.
`streamed_iff`: what is then selected from that text is what the complete body gives exactly when
the block is one line.
-/
namespace OpenBrain.Clients.Session
open OpenBrain.Core OpenBrain.Core.Ecma OpenBrain.Core.Utf8 List

/-! ## The scanner -/

/-- mirrors mcp-transport.ts:227-236 -/
structure SseIdScanner where
  pending : Str
  dataLines : List Str

/-- `rawLine.endsWith("\r") ? rawLine.slice(0, -1) : rawLine` -/
def chomp (rawLine : Str) : Str :=
  if rawLine.getLast? = some 0x0D then rawLine.dropLast else rawLine

section Scanner
variable (expectedId : Nat)

/-- mirrors mcp-transport.ts:253-263 -/
def consumeLine (dataLines : List Str) (line : Str) : Option Str × List Str :=
  if (units "data:").isPrefixOf line then
    (none, dataLines ++ [trim (line.drop (units "data:").length)])
  else if line ≠ [] then (none, dataLines)
  else if dataLines = [] then (none, [])
  else (dataBlockForId (joinSep [0x0A] dataLines) expectedId, [])

/-- The loop of `push`. mirrors mcp-transport.ts:241-250 -/
def scan (pending : Str) (dataLines : List Str) : Option Str × SseIdScanner :=
  match h : pending.dropWhile (· != 0x0A) with
  | [] => (none, ⟨pending, dataLines⟩)
  | _ :: rest =>
    let rawLine := pending.takeWhile (· != 0x0A)
    match consumeLine expectedId dataLines (chomp rawLine) with
    | (some matched, dataLines) => (some matched, ⟨rest, dataLines⟩)
    | (none, dataLines) => scan rest dataLines
termination_by pending.length
decreasing_by
  have hlen := (dropWhile_suffix (l := pending) (· != 0x0A)).length_le
  rw [h, length_cons] at hlen
  omega

/-- mirrors mcp-transport.ts:238-251 -/
def push (scanner : SseIdScanner) (chunk : Str) : Option Str × SseIdScanner :=
  scan expectedId (scanner.pending ++ chunk) scanner.dataLines

/-! ## The drain -/

/-- What a read of a body ends with. -/
inductive Drained where
  | text (t : Str)
  | oversized

/-- The loop of `drain`, with the text, the octets and the scanner so far.
mirrors mcp-transport.ts:355-381 -/
def drainLoop (maxResponseBytes : Nat) :
    List (List UInt8) → TextDecoder → Nat → Str → Option SseIdScanner → Drained
  | [], decoder, _, text, _ => .text (text ++ decoder.flush)
  | value :: reads, decoder, bytes, text, scanner =>
    if maxResponseBytes < bytes + value.length then .oversized
    else
      let (chunk, decoder') := decoder.decode value
      match scanner.map (push expectedId · chunk) with
      | some (some matched, _) => .text (units "data: " ++ matched ++ [0x0A, 0x0A])
      | some (none, scanner') =>
        drainLoop maxResponseBytes reads decoder' (bytes + value.length) (text ++ chunk)
          (some scanner')
      | none =>
        drainLoop maxResponseBytes reads decoder' (bytes + value.length) (text ++ chunk) none

def drain (maxResponseBytes : Nat) (reads : List (List UInt8)) (scanner : Option SseIdScanner) :
    Drained :=
  drainLoop expectedId maxResponseBytes reads .fresh 0 [] scanner

/-- mirrors mcp-transport.ts:336-353 -/
def readBody (maxResponseBytes : Nat) (contentType : Str) (reads : List (List UInt8)) : Drained :=
  let scanner := if contains contentType (units "text/event-stream") then some ⟨[], []⟩ else none
  drain expectedId maxResponseBytes reads scanner

end Scanner

/-! ## Line by line -/

/-- A text is its last line, or a line and what is behind its newline. -/
@[elab_as_elim]
theorem byLines {motive : Str → Prop} (last : ∀ raw, 0x0A ∉ raw → motive raw)
    (line : ∀ raw rest, 0x0A ∉ raw → motive rest → motive (raw ++ 0x0A :: rest)) (t : Str) :
    motive t := by
  by_cases hnewline : (0x0A : UInt16) ∈ t
  · obtain ⟨raw, rest, ht, hraw⟩ := eq_append_cons_of_mem hnewline
    have hlt : rest.length < t.length := by
      rw [ht]
      simp
      omega
    rw [ht]
    exact line raw rest hraw (byLines last line rest)
  · exact last t hnewline
termination_by t.length

theorem ne_of_notMem {raw : Str} (h : 0x0A ∉ raw) : ∀ u ∈ raw, (u != 0x0A) = true := by
  intro u hu
  rw [bne_iff_ne]
  rintro rfl
  exact h hu

theorem splitLines_last {raw : Str} (h : 0x0A ∉ raw) : splitLines raw = [raw] := by
  fun_induction splitLines raw with
  | case1 => rfl
  | case2 => simp at h
  | case3 => rfl
  | case4 => simp at h
  | case5 u v s _ hcr => simp [hcr.2] at h
  | case6 u v s _ _ line rest hrest ih =>
    rw [hrest] at ih
    have hline := ih (fun hmem => h (mem_cons_of_mem _ hmem))
    simp_all
  | case7 u v s _ _ hrest ih =>
    have hline := ih (fun hmem => h (mem_cons_of_mem _ hmem))
    rw [hrest] at hline
    cases hline

theorem splitLines_line {raw : Str} (h : 0x0A ∉ raw) (rest : Str) :
    splitLines (raw ++ 0x0A :: rest) = chomp raw :: splitLines rest := by
  induction raw with
  | nil => cases rest <;> rfl
  | cons u raw ih =>
    have hu : u ≠ 0x0A := fun heq => h (heq ▸ mem_cons_self)
    have hraw : (0x0A : UInt16) ∉ raw := fun hmem => h (mem_cons_of_mem _ hmem)
    cases raw with
    | nil =>
      rw [cons_append, nil_append, splitLines, if_neg hu]
      by_cases hcr : u = 0x0D
      · rw [if_pos ⟨hcr, rfl⟩, hcr]
        rfl
      · rw [if_neg (fun hcrlf => hcr hcrlf.1), ← nil_append (0x0A :: rest), ih hraw]
        simp [chomp, hcr]
    | cons v raw =>
      have hv : v ≠ 0x0A := fun heq => hraw (heq ▸ mem_cons_self)
      rw [cons_append, cons_append, splitLines, if_neg hu,
        if_neg (fun hcrlf => hv hcrlf.2), ← cons_append, ih hraw]
      dsimp only
      unfold chomp
      rw [getLast?_cons_cons]
      split <;> rfl

theorem splitLines_ne_nil (t : Str) : splitLines t ≠ [] := by
  induction t using byLines with
  | last raw h => simp [splitLines_last h]
  | line raw rest h _ => simp [splitLines_line h]

/-- The lines that a newline ends. -/
def endedLines (t : Str) : List Str := (splitLines t).dropLast

theorem endedLines_last {raw : Str} (h : 0x0A ∉ raw) : endedLines raw = [] := by
  rw [endedLines, splitLines_last h]
  rfl

theorem endedLines_line {raw : Str} (h : 0x0A ∉ raw) (rest : Str) :
    endedLines (raw ++ 0x0A :: rest) = chomp raw :: endedLines rest := by
  rw [endedLines, splitLines_line h, dropLast_cons_of_ne_nil (splitLines_ne_nil rest)]
  rfl

/-! ## Blocks -/

theorem sseLine_frame (blocks current : List Str) (line : Str) :
    sseLine (blocks, current) line =
      (blocks ++ (sseLine ([], current) line).1, (sseLine ([], current) line).2) := by
  unfold sseLine
  dsimp only
  split
  · split <;> simp
  split <;> simp

theorem foldl_sseLine_frame (lines blocks current : List Str) :
    lines.foldl sseLine (blocks, current) =
      (blocks ++ (lines.foldl sseLine ([], current)).1, (lines.foldl sseLine ([], current)).2) := by
  induction lines generalizing blocks current with
  | nil => simp
  | cons line lines ih =>
    rw [foldl_cons, foldl_cons, sseLine_frame, ih,
      ih (sseLine ([], current) line).1, append_assoc]

/-- The blocks that a blank line ends, behind the data lines before the text. -/
def blocksFrom (dataLines : List Str) (lines : List Str) : List Str :=
  (lines.foldl sseLine ([], dataLines)).1

theorem blocksFrom_cons (dataLines : List Str) (line : Str) (lines : List Str) :
    blocksFrom dataLines (line :: lines) =
      (sseLine ([], dataLines) line).1 ++
        blocksFrom (sseLine ([], dataLines) line).2 lines := by
  unfold blocksFrom
  rw [foldl_cons, foldl_sseLine_frame]

section Scan
variable {expectedId : Nat}

theorem consumeLine_eq (dataLines : List Str) (line : Str) :
    consumeLine expectedId dataLines line =
      ((sseLine ([], dataLines) line).1.findSome? fun block => dataBlockForId block expectedId,
        (sseLine ([], dataLines) line).2) := by
  unfold consumeLine sseLine
  by_cases hblank : line = []
  · subst hblank
    rw [if_neg (by decide), if_neg (by simp), if_pos rfl]
    split <;> simp_all
  · rw [if_pos hblank, if_neg hblank]
    split <;> rfl

theorem scan_last {pending : Str} (h : 0x0A ∉ pending) (dataLines : List Str) :
    scan expectedId pending dataLines = (none, ⟨pending, dataLines⟩) := by
  have hdrop : pending.dropWhile (· != 0x0A) = [] :=
    dropWhile_eq_nil_iff.mpr (ne_of_notMem h)
  rw [scan]
  split
  · rfl
  · rename_i hcons
    rw [hdrop] at hcons
    cases hcons

theorem scan_line {raw : Str} (h : 0x0A ∉ raw) (rest : Str) (dataLines : List Str) :
    scan expectedId (raw ++ 0x0A :: rest) dataLines =
      match consumeLine expectedId dataLines (chomp raw) with
      | (some matched, dataLines) => (some matched, ⟨rest, dataLines⟩)
      | (none, dataLines) => scan expectedId rest dataLines := by
  have hdrop : (raw ++ 0x0A :: rest).dropWhile (· != 0x0A) = 0x0A :: rest := by
    rw [dropWhile_append_of_pos (ne_of_notMem h), dropWhile_cons_of_neg (by decide)]
  have htake : (raw ++ 0x0A :: rest).takeWhile (· != 0x0A) = raw := by
    rw [takeWhile_append_of_pos (ne_of_notMem h), takeWhile_cons_of_neg (by decide),
      append_nil]
  rw [scan]
  split
  · rename_i hnil
    rw [hdrop] at hnil
    cases hnil
  · rename_i hcons
    rw [hdrop] at hcons
    cases hcons
    rw [htake]

/-- What is still pending has no newline, unless a block was found. -/
theorem scan_pending (t : Str) (dataLines : List Str) (h : (scan expectedId t dataLines).1 = none) :
    0x0A ∉ (scan expectedId t dataLines).2.pending := by
  induction t using byLines generalizing dataLines with
  | last raw hraw =>
    rw [scan_last hraw]
    exact hraw
  | line raw rest hraw ih =>
    rw [scan_line hraw] at h ⊢
    split at h
    · cases h
    · exact ih _ h

/-- The scanner finds the first block with the id among those a blank line ends. -/
theorem scan_eq (t : Str) (dataLines : List Str) :
    (scan expectedId t dataLines).1 =
      (blocksFrom dataLines (endedLines t)).findSome? fun block =>
        dataBlockForId block expectedId := by
  induction t using byLines generalizing dataLines with
  | last raw h =>
    rw [scan_last h, endedLines_last h]
    rfl
  | line raw rest h ih =>
    rw [scan_line h, endedLines_line h, blocksFrom_cons, consumeLine_eq, findSome?_append,
      ← ih]
    cases ((sseLine ([], dataLines) (chomp raw)).1.findSome? fun block =>
      dataBlockForId block expectedId) <;> rfl

theorem scan_found {a : Str} {dataLines : List Str} {matched : Str}
    (h : (scan expectedId a dataLines).1 = some matched) (b : Str) :
    (scan expectedId (a ++ b) dataLines).1 = some matched := by
  induction a using byLines generalizing dataLines with
  | last raw hraw =>
    rw [scan_last hraw] at h
    cases h
  | line raw rest hraw ih =>
    rw [append_assoc, cons_append]
    rw [scan_line hraw] at h ⊢
    split at h
    · exact h
    · exact ih h

/-- Without a block, the scanner goes on as if the text had come at once. -/
theorem scan_push {a : Str} {dataLines : List Str}
    (h : (scan expectedId a dataLines).1 = none) (b : Str) :
    push expectedId (scan expectedId a dataLines).2 b = scan expectedId (a ++ b) dataLines := by
  induction a using byLines generalizing dataLines with
  | last raw hraw =>
    rw [scan_last hraw]
    rfl
  | line raw rest hraw ih =>
    rw [append_assoc, cons_append]
    rw [scan_line hraw] at h ⊢
    rw [scan_line hraw]
    split at h
    · cases h
    · exact ih h

/-! ## The drain of a body -/

/-- The text of a drain: the block that was found, in a text of its own, or the body. -/
def drained (expectedId : Nat) (body : Str) : Str :=
  match (scan expectedId body []).1 with
  | some matched => units "data: " ++ matched ++ [0x0A, 0x0A]
  | none => body

theorem flush_no_newline (decoder : TextDecoder) : 0x0A ∉ decoder.flush := by
  have hout : 0x0A ∉ decodeFrom decoder.pending [] := by
    unfold decodeFrom
    split <;> simp
  unfold TextDecoder.flush TextDecoder.rest TextDecoder.serialize
  generalize decodeFrom decoder.pending [] = out at hout
  split
  · exact hout
  cases out with
  | nil => exact hout
  | cons u out =>
    dsimp only
    split
    · exact fun hmem => hout (mem_cons_of_mem _ hmem)
    · exact hout

theorem drainLoop_eq {maxResponseBytes : Nat} (reads : List (List UInt8)) (decoder : TextDecoder)
    (bytes : Nat) (text : Str) {scanner : SseIdScanner}
    (hbytes : bytes + reads.flatten.length ≤ maxResponseBytes)
    (hscan : scan expectedId text [] = (none, scanner)) :
    drainLoop expectedId maxResponseBytes reads decoder bytes text (some scanner) =
      .text (drained expectedId (text ++ decoder.rest reads.flatten)) := by
  induction reads generalizing decoder bytes text scanner with
  | nil =>
    have hpending := scan_pending text [] (congrArg Prod.fst hscan)
    have hpush := scan_push (congrArg Prod.fst hscan) decoder.flush
    rw [push, scan_last (by simp [hpending, flush_no_newline])] at hpush
    have hnone : (scan expectedId (text ++ decoder.flush) []).1 = none := by rw [← hpush]
    rw [drainLoop, flatten_nil, drained]
    unfold TextDecoder.flush at hnone ⊢
    rw [hnone]
  | cons value reads ih =>
    rw [flatten_cons, length_append] at hbytes
    have hpush := scan_push (congrArg Prod.fst hscan) (decoder.decode value).1
    rw [hscan] at hpush
    rw [drainLoop, if_neg (by omega), flatten_cons, decoder.rest_append, ← append_assoc]
    dsimp only [Option.map_some]
    rw [hpush]
    cases hfound : scan expectedId (text ++ (decoder.decode value).1) [] with
    | mk found scanner' =>
      cases found with
      | some matched =>
        rw [drained, scan_found (congrArg Prod.fst hfound)]
      | none => exact ih _ _ _ (by omega) hfound

/-- However the body is cut. -/
theorem drain_eq {maxResponseBytes : Nat} (reads : List (List UInt8))
    (hbytes : reads.flatten.length ≤ maxResponseBytes) :
    drain expectedId maxResponseBytes reads (some ⟨[], []⟩) =
      .text (drained expectedId (Utf8.decode reads.flatten)) := by
  rw [drain, drainLoop_eq reads .fresh 0 [] (by omega) (scan_last not_mem_nil []),
    nil_append, rest_fresh]

/-! ## Selecting again -/

theorem blocksFrom_append (dataLines : List Str) (lines more : List Str) :
    ∃ behind, blocksFrom dataLines (lines ++ more) = blocksFrom dataLines lines ++ behind := by
  unfold blocksFrom
  rw [foldl_append, foldl_sseLine_frame more]
  exact ⟨_, rfl⟩

/-- The blocks of a text are those of its lines with a blank line behind them. -/
theorem sseDataBlocks_eq (t : Str) : sseDataBlocks t = blocksFrom [] (splitLines t ++ [[]]) := by
  unfold sseDataBlocks blocksFrom
  rw [foldl_append, foldl_cons, foldl_nil, sseLine, if_pos rfl]
  dsimp only
  split <;> rfl

theorem lastSseData_of_scan {t matched : Str} (h : (scan expectedId t []).1 = some matched) :
    lastSseData t expectedId = some matched := by
  rw [scan_eq] at h
  have hlines : splitLines t ++ [[]] =
      endedLines t ++ [(splitLines t).getLast (splitLines_ne_nil t), []] := by
    conv_lhs => rw [← dropLast_append_getLast (splitLines_ne_nil t), append_assoc]
    rfl
  obtain ⟨behind, hbehind⟩ := blocksFrom_append [] (endedLines t)
    [(splitLines t).getLast (splitLines_ne_nil t), []]
  unfold lastSseData
  dsimp only
  rw [sseDataBlocks_eq, hlines, hbehind, findSome?_append, h]
  rfl

theorem isSome_of_dataBlockForId {block matched : Str}
    (h : dataBlockForId block expectedId = some matched) :
    matched = block ∧ block ≠ [] := by
  unfold dataBlockForId at h
  split at h
  · rename_i message hparse
    split at h
    · cases h
      refine ⟨rfl, ?_⟩
      rintro rfl
      cases hparse
    · cases h
  · cases h

end Scan

/-- A block is made of the trimmed data lines of its event. -/
def IsBlock (block : Str) : Prop :=
  ∃ dataLines : List Str, dataLines ≠ [] ∧ block = joinSep [0x0A] (dataLines.map trim)

theorem isBlock_of_mem {lines dataLines : List Str} {block : Str}
    (h : block ∈ blocksFrom (dataLines.map trim) lines) : IsBlock block := by
  induction lines generalizing dataLines with
  | nil => cases h
  | cons line lines ih =>
    rw [blocksFrom_cons] at h
    unfold sseLine at h
    dsimp only at h
    split at h
    · split at h
      · exact ih h
      · rename_i hne
        rcases mem_cons.mp h with rfl | h
        · exact ⟨dataLines, by simpa using hne, rfl⟩
        · have hrest := @ih []
          exact hrest h
    · split at h
      · have hmore := @ih (dataLines ++ [line.drop (units "data:").length])
        exact hmore (by simpa using h)
      · exact ih h

/-- A block without a newline is one trimmed line. -/
theorem trimmed_of_isBlock {block : Str} (h : IsBlock block) (hline : 0x0A ∉ block) :
    ∃ line, block = trim line := by
  obtain ⟨dataLines, hne, rfl⟩ := h
  match dataLines with
  | [] => exact absurd rfl hne
  | [line] => exact ⟨line, rfl⟩
  | first :: second :: dataLines => simp [joinSep] at hline

theorem trim_trim (s : Str) : trim (trim s) = trim s := cutEnds_idem isSpace s

theorem trim_space (s : Str) : trim (unit ' ' :: s) = trim s := by
  unfold trim
  rw [dropWhile_cons_of_pos (by decide)]

theorem length_trim_le (s : Str) : (trim s).length ≤ s.length := by
  unfold trim
  rw [length_reverse]
  have hback := (dropWhile_suffix (l := (s.dropWhile isSpace).reverse) isSpace).length_le
  have hfront := (dropWhile_suffix (l := s) isSpace).length_le
  rw [length_reverse] at hback
  omega

theorem chomp_trim (s : Str) : chomp (trim s) = trim s := by
  unfold chomp
  rw [if_neg]
  intro hlast
  have hne : (s.dropWhile isSpace).rdropWhile isSpace ≠ [] := by
    intro hnil
    rw [show trim s = (s.dropWhile isSpace).rdropWhile isSpace from rfl, hnil] at hlast
    cases hlast
  have hspace := rdropWhile_last_not isSpace (s.dropWhile isSpace) hne
  rw [show trim s = (s.dropWhile isSpace).rdropWhile isSpace from rfl,
    getLast?_eq_some_getLast hne] at hlast
  rw [Option.some.inj hlast] at hspace
  exact hspace (by decide)

theorem length_chomp_le (raw : Str) : (chomp raw).length ≤ raw.length := by
  unfold chomp
  split
  · simp
  · exact Nat.le_refl _

theorem chomp_wrapped (l : Str) : chomp (units "data: " ++ l) = units "data: " ++ chomp l := by
  unfold chomp
  cases l using List.reverseRecOn with
  | nil => rfl
  | append_singleton l u =>
    rw [← append_assoc, getLast?_concat, getLast?_concat]
    split
    · rw [dropLast_concat, dropLast_concat]
    · rw [append_assoc]

theorem sseLine_wrapped (l : Str) :
    sseLine ([], []) (units "data: " ++ l) = ([], [trim l]) := by
  have hdrop : (units "data: " ++ l).drop (units "data:").length = unit ' ' :: l := rfl
  have hhead : (units "data:").isPrefixOf (units "data: " ++ l) = true := rfl
  rw [sseLine, if_neg (by simp [units]), if_pos hhead, hdrop, trim_space]
  rfl

/-- A block of one line is found again in its text. -/
theorem scan_wrapped {expectedId : Nat} {matched line : Str} (htrim : matched = trim line)
    (hline : 0x0A ∉ matched) (hmatch : dataBlockForId matched expectedId = some matched) :
    (scan expectedId (units "data: " ++ matched ++ [0x0A, 0x0A]) []).1 = some matched := by
  have hraw : (0x0A : UInt16) ∉ units "data: " ++ matched := by
    rw [mem_append, not_or]
    exact ⟨by decide, hline⟩
  have hself : trim matched = matched := by rw [htrim, trim_trim]
  have hchomp : chomp matched = matched := by rw [htrim, chomp_trim]
  have hblank : scan expectedId [0x0A] [matched] = (some matched, ⟨[], []⟩) := by
    rw [show ([0x0A] : Str) = [] ++ 0x0A :: [] from rfl, scan_line not_mem_nil,
      show chomp [] = [] from rfl, consumeLine_eq]
    simp [sseLine, joinSep, hmatch]
  rw [scan_line hraw, chomp_wrapped, hchomp, consumeLine_eq, sseLine_wrapped, hself]
  exact congrArg Prod.fst hblank

/-! ## Blocks of several lines -/

theorem length_block {lines dataLines : List Str} {block : Str}
    (h : block ∈ blocksFrom dataLines lines) :
    block.length + 1 ≤ (dataLines.map fun l => l.length + 1).sum +
      (lines.map List.length).sum := by
  induction lines generalizing dataLines with
  | nil => cases h
  | cons line lines ih =>
    rw [blocksFrom_cons] at h
    rw [map_cons, sum_cons]
    unfold sseLine at h
    dsimp only at h
    split at h
    · split at h
      · have hmore := ih h
        dsimp only at hmore
        omega
      · rename_i hne
        rcases mem_cons.mp h with rfl | h
        · have hpos : 1 ≤ (dataLines.map fun l => l.length + 1).sum := by
            obtain ⟨first, more, hmore⟩ := exists_cons_of_ne_nil hne
            rw [hmore, map_cons, sum_cons]
            omega
          rw [length_joinSep_single]
          omega
        · have hmore := ih h
          simp at hmore
          omega
    · split at h
      · rename_i hdata
        have hmore := ih h
        have htrim := length_trim_le (line.drop (units "data:").length)
        have hlen := (List.isPrefixOf_iff_prefix.mp hdata).length_le
        have hfive : (units "data:").length = 5 := rfl
        rw [List.length_drop] at htrim
        simp only [map_append, sum_append, map_cons,
          map_nil, sum_cons, sum_nil] at hmore
        omega
      · have hmore := ih h
        dsimp only at hmore
        omega

theorem length_splitLines (t : Str) :
    ((splitLines t).map List.length).sum + t.count 0x0A ≤ t.length := by
  induction t using byLines with
  | last raw h => simp [splitLines_last h, count_eq_zero_of_not_mem h]
  | line raw rest h ih =>
    have hchomp := length_chomp_le raw
    rw [splitLines_line h, map_cons, sum_cons, count_append, count_cons_self,
      count_eq_zero_of_not_mem h, length_append, length_cons]
    omega

/-- No block of the text that wraps several lines is all of them. -/
theorem length_wrapped {matched block : Str} (hlines : 0x0A ∈ matched)
    (h : block ∈ sseDataBlocks (units "data: " ++ matched ++ [0x0A, 0x0A])) :
    block.length < matched.length := by
  obtain ⟨first, more, rfl, hfirst⟩ := eq_append_cons_of_mem hlines
  have hraw : (0x0A : UInt16) ∉ units "data: " ++ first := by
    rw [mem_append, not_or]
    exact ⟨by decide, hfirst⟩
  have htext : units "data: " ++ (first ++ 0x0A :: more) ++ [0x0A, 0x0A] =
      units "data: " ++ first ++ 0x0A :: (more ++ [0x0A, 0x0A]) := by simp
  rw [sseDataBlocks_eq, htext, splitLines_line hraw, chomp_wrapped, cons_append,
    blocksFrom_cons, sseLine_wrapped, nil_append] at h
  have hblock := length_block h
  have hrest := length_splitLines (more ++ [0x0A, 0x0A])
  have htrim := length_trim_le (chomp first)
  have hchomp := length_chomp_le first
  simp at hblock hrest ⊢
  omega

theorem mem_of_lastSseData {t data : Str} {expectedId : Nat}
    (h : lastSseData t expectedId = some data) : data ∈ sseDataBlocks t := by
  unfold lastSseData at h
  dsimp only at h
  rcases Option.or_eq_some_iff.mp h with hfound | ⟨-, hlast⟩
  · obtain ⟨block, hmem, hblock⟩ := exists_of_findSome?_eq_some hfound
    rw [(isSome_of_dataBlockForId hblock).1]
    exact hmem
  · exact mem_of_getLast? hlast

/-! ## The streamed read -/

/-- The first block of a body that carries the id, among those with a blank line behind them. -/
def endedBlock (body : Str) (expectedId : Nat) : Option Str :=
  (blocksFrom [] (endedLines body)).findSome? fun block => dataBlockForId block expectedId

theorem lastSseData_drained (body : Str) (expectedId : Nat) :
    lastSseData (drained expectedId body) expectedId = lastSseData body expectedId ↔
      ∀ block, endedBlock body expectedId = some block → 0x0A ∉ block := by
  unfold drained endedBlock
  rw [← scan_eq]
  cases hscan : (scan expectedId body []).1 with
  | none => simp
  | some matched =>
    have hbody := lastSseData_of_scan hscan
    rw [scan_eq] at hscan
    obtain ⟨block, hmem, hblock⟩ := exists_of_findSome?_eq_some hscan
    obtain ⟨rfl, -⟩ := isSome_of_dataBlockForId hblock
    have hisBlock : IsBlock matched := @isBlock_of_mem _ [] _ hmem
    rw [hbody]
    refine ⟨fun hsame other hother hlines => ?_, fun hall => ?_⟩
    · cases hother
      exact absurd (length_wrapped hlines (mem_of_lastSseData hsame)) (Nat.lt_irrefl _)
    · have hline := hall matched rfl
      obtain ⟨line, hline'⟩ := trimmed_of_isBlock hisBlock hline
      exact lastSseData_of_scan (scan_wrapped hline' hline hblock)

/-- However a body within the limit is cut, what is selected from the text of the drain is what is
selected from the body exactly when the block the drain stops at, if any, is one line. -/
theorem streamed_iff (expectedId maxResponseBytes : Nat) (reads : List (List UInt8))
    (hbytes : reads.flatten.length ≤ maxResponseBytes) :
    ∃ t, drain expectedId maxResponseBytes reads (some ⟨[], []⟩) = .text t ∧
      (lastSseData t expectedId = lastSseData (Utf8.decode reads.flatten) expectedId ↔
        ∀ block, endedBlock (Utf8.decode reads.flatten) expectedId = some block →
          0x0A ∉ block) :=
  ⟨_, drain_eq reads hbytes, lastSseData_drained _ _⟩

/-- An answer in two data lines, which a pretty-printing server sends. -/
def twoLines : Str := units "data: \x7b\x22id\x22:\ndata: 1\x7d\n\n"

theorem streamed_iff_twoLines :
    (Utf8.encode twoLines).length ≤ 100 ∧ ∃ t,
      drain 2 100 [Utf8.encode twoLines] (some ⟨[], []⟩) = .text t ∧
        (lastSseData t 2 = lastSseData (Utf8.decode [Utf8.encode twoLines].flatten) 2 ↔
          ∀ block, endedBlock (Utf8.decode [Utf8.encode twoLines].flatten) 2 = some block →
            0x0A ∉ block) :=
  ⟨by decide, streamed_iff 2 100 [Utf8.encode twoLines] (by decide)⟩

/-- The drain loses the second line of the answer. -/
theorem two_lines_lost :
    drain 1 100 [Utf8.encode twoLines] (some ⟨[], []⟩) =
        .text (units "data: \x7b\x22id\x22:\n1\x7d\n\n") ∧
      lastSseData (units "data: \x7b\x22id\x22:\n1\x7d\n\n") 1 = some (units "\x7b\x22id\x22:") ∧
      lastSseData (Utf8.decode (Utf8.encode twoLines)) 1 = some (units "\x7b\x22id\x22:\n1\x7d") := by
  refine ⟨?_, by decide +kernel, by decide +kernel⟩
  rw [drain_eq _ (by decide), drained, scan_eq]
  exact congrArg Drained.text (by decide +kernel)

end OpenBrain.Clients.Session
