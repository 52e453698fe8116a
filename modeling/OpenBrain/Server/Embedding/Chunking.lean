import OpenBrain.Core.EcmaJson
import OpenBrain.Core.Matcher
import Mathlib.Data.List.Induction
import Mathlib.Data.List.Infix
import Mathlib.Tactic.Linarith

/-!
# Splitting a text into chunks (`server/embedding/chunking.ts`)

`chunkText` moves a window over the text. The window ends behind a sentence, at a space or where it
is full, and the next one starts the overlap before that end, one unit on at least.

**Results.** Every window ends behind its start and the next one starts no later than that end, so
the windows cover the text (`Windows.covers`); with less than half a window of overlap a window is
at least `(chunkSize - 2 * overlap) / 2` behind the one before (`Windows.count`).
`chunkText_covers` says both of the chunks, `chunkText_untrimmed` that a text which fits is not
trimmed.
-/
namespace OpenBrain.Server.Embedding
open OpenBrain.Core

/-- `text.slice(start, stop)` of two positions in order. -/
def slice (text : Str) (start stop : Nat) : Str := (text.take stop).drop start

/-- `/[.!?\n]\s+[A-Z]/` -/
def sentenceEnd : Matcher UInt16 :=
  Matcher.all [Matcher.one fun u => u = unit '.' || u = unit '!' || u = unit '?' || u = unit '\n',
    Matcher.many1 Ecma.isSpace, Matcher.one fun u => unit 'A' ≤ u && u ≤ unit 'Z']

/-- `text.search(m)`, where `none` is `-1`. -/
def search (m : Matcher UInt16) (text : Str) : Option Nat :=
  text.tails.findIdx? fun tail => !(m tail).isEmpty

/-- `text.lastIndexOf(u, pos)` of one unit, where `none` is `-1`. -/
def lastIndexOf (text : Str) (u : UInt16) (pos : Nat) : Option Nat :=
  (List.range (pos + 1)).reverse.find? fun i => text[i]? = some u

/-- mirrors src/server/embedding/chunking.ts:41-52 -/
def findBreakPoint (text : Str) (start stop chunkSize overlap : Nat) : Nat :=
  let zoneStart := max start (stop - overlap)
  match search sentenceEnd (slice text zoneStart stop) with
  | some sentenceBreak => zoneStart + sentenceBreak + 1
  | none =>
    match lastIndexOf text (unit ' ') stop with
    | some lastSpace => if 2 * start + chunkSize < 2 * lastSpace then lastSpace else stop
    | none => stop

/-- `Chunk`; mirrors chunking.ts:21-24 -/
structure Chunk where
  text : Str
  index : Nat
  deriving DecidableEq, Repr

/-- Where the window at `start` ends; mirrors chunking.ts:73-78 -/
def windowEnd (text : Str) (chunkSize overlap start : Nat) : Nat :=
  let stop := min (start + chunkSize) text.length
  if stop < text.length then findBreakPoint text start stop chunkSize overlap else stop

/-- The chunk of a window, when it is not blank; mirrors chunking.ts:80-84 -/
def pushChunk (text : Str) (start stop : Nat) (chunks : List Chunk) (index : Nat) :
    List Chunk × Nat :=
  let chunkText := Ecma.trim (slice text start stop)
  if 0 < chunkText.length then (chunks ++ [⟨chunkText, index⟩], index + 1) else (chunks, index)

/-- `none` when the loop takes more turns than the fuel; mirrors chunking.ts:72-106 -/
def chunkLoop (text : Str) (chunkSize overlap : Nat) :
    Nat → Nat → List Chunk → Nat → Option (List Chunk)
  | 0, _, _, _ => none
  | fuel + 1, start, chunks, index =>
    if start < text.length then
      let stop := windowEnd text chunkSize overlap start
      let pushed := pushChunk text start stop chunks index
      if text.length ≤ stop then some pushed.1
      else chunkLoop text chunkSize overlap fuel (max (stop - overlap) (start + 1)) pushed.1 pushed.2
    else some chunks

/-- mirrors chunking.ts:59-116 -/
def chunkText (fuel : Nat) (text : Str) (chunkSize overlap : Nat) : Option (List Chunk) :=
  if text = [] ∨ text.length ≤ chunkSize then some [⟨text, 0⟩]
  else chunkLoop text chunkSize overlap fuel 0 [] 0

/-! ## One window -/

variable {text : Str} {chunkSize overlap start : Nat}

theorem length_slice (text : Str) (start stop : Nat) :
    (slice text start stop).length = min stop text.length - start := by
  simp [slice]

theorem search_lt {m : Matcher UInt16} (hm : m [] = []) {text : Str} {i : Nat}
    (h : search m text = some i) : i < text.length := by
  unfold search at h
  obtain ⟨hi, hmatch, -⟩ := List.findIdx?_eq_some_iff_getElem.mp h
  rw [List.length_tails] at hi
  rcases Nat.lt_succ_iff_lt_or_eq.mp hi with hi | rfl
  · exact hi
  · simp [hm] at hmatch

theorem lastIndexOf_le {u : UInt16} {pos i : Nat} (h : lastIndexOf text u pos = some i) :
    i ≤ pos := by
  have hmem := List.mem_of_find?_eq_some h
  rw [List.mem_reverse, List.mem_range] at hmem
  omega

/-- A break is behind the start and not behind the end, and with less than half a window of overlap
it is in the second half of the window, and the overlap further. -/
theorem findBreakPoint_bounds (overlap : Nat) {stop : Nat} (hlen : stop ≤ text.length)
    (hsize : stop = start + chunkSize) (hpos : 1 ≤ chunkSize) :
    start < findBreakPoint text start stop chunkSize overlap ∧
      findBreakPoint text start stop chunkSize overlap ≤ stop ∧
      (2 * overlap < chunkSize →
        2 * start + chunkSize < 2 * findBreakPoint text start stop chunkSize overlap) := by
  unfold findBreakPoint
  simp only
  split
  · rename_i sentenceBreak hsearch
    have hlt := search_lt (by rfl) hsearch
    rw [length_slice] at hlt
    omega
  · split
    · rename_i lastSpace hspace
      have hle := lastIndexOf_le hspace
      split <;> omega
    · omega

/-- What a turn of the loop does: its window is not empty, fits and stays in the text. -/
theorem windowEnd_bounds (overlap : Nat) (hpos : 1 ≤ chunkSize) (hstart : start < text.length) :
    start < windowEnd text chunkSize overlap start ∧
      windowEnd text chunkSize overlap start ≤ start + chunkSize ∧
      windowEnd text chunkSize overlap start ≤ text.length ∧
      (windowEnd text chunkSize overlap start < text.length → 2 * overlap < chunkSize →
        2 * start + chunkSize < 2 * windowEnd text chunkSize overlap start) := by
  unfold windowEnd
  simp only
  by_cases hstop : min (start + chunkSize) text.length < text.length
  · rw [if_pos hstop]
    have hsize : min (start + chunkSize) text.length = start + chunkSize := by omega
    have h := findBreakPoint_bounds overlap (Nat.le_of_lt hstop) hsize hpos
    omega
  · rw [if_neg hstop]
    omega

/-! ## The windows of a text -/

/-- The windows the loop visits from a start on. -/
inductive Windows (text : Str) (chunkSize overlap : Nat) : Nat → List (Nat × Nat) → Prop
  | past {start : Nat} : text.length ≤ start → Windows text chunkSize overlap start []
  | last {start : Nat} : start < text.length →
    text.length ≤ windowEnd text chunkSize overlap start →
      Windows text chunkSize overlap start [(start, windowEnd text chunkSize overlap start)]
  | next {start : Nat} {ws : List (Nat × Nat)} : start < text.length →
    windowEnd text chunkSize overlap start < text.length →
      Windows text chunkSize overlap
          (max (windowEnd text chunkSize overlap start - overlap) (start + 1)) ws →
        Windows text chunkSize overlap start
          ((start, windowEnd text chunkSize overlap start) :: ws)

def chunksOf (text : Str) (chunks : List Chunk) (ws : List (Nat × Nat)) : List Chunk :=
  (ws.foldl (fun (acc : List Chunk × Nat) w => pushChunk text w.1 w.2 acc.1 acc.2)
    (chunks, chunks.length)).1

theorem pushChunk_length (start stop : Nat) (chunks : List Chunk) :
    (pushChunk text start stop chunks chunks.length).2 =
      (pushChunk text start stop chunks chunks.length).1.length := by
  simp only [pushChunk]
  split <;> simp

theorem chunksOf_cons (chunks : List Chunk) (w : Nat × Nat) (ws : List (Nat × Nat)) :
    chunksOf text chunks (w :: ws) =
      chunksOf text (pushChunk text w.1 w.2 chunks chunks.length).1 ws := by
  simp only [chunksOf, List.foldl_cons, ← pushChunk_length]

/-- The loop ends with the chunks of its windows, for any fuel beyond what is left of the text. -/
theorem exists_windows (text : Str) (chunkSize overlap start : Nat) : ∃ ws, Windows text chunkSize overlap start ws ∧
    ∀ fuel, text.length - start < fuel → ∀ chunks,
      chunkLoop text chunkSize overlap fuel start chunks chunks.length =
        some (chunksOf text chunks ws) := by
  -- the measure is what is left of the text: the next start is one unit on at least
  induction hleft : text.length - start using Nat.strongRecOn generalizing start with
  | ind left ih =>
    subst hleft
    by_cases hstart : start < text.length
    · by_cases hend : text.length ≤ windowEnd text chunkSize overlap start
      · refine ⟨_, .last hstart hend, ?_⟩
        intro fuel hfuel chunks
        obtain ⟨fuel, rfl⟩ := Nat.exists_eq_add_of_lt hfuel
        simp only [chunkLoop, hstart, hend, if_true]
        rfl
      · obtain ⟨ws, hws, hloop⟩ := ih
          (text.length - max (windowEnd text chunkSize overlap start - overlap) (start + 1))
          (by omega) _ rfl
        refine ⟨_, .next hstart (Nat.lt_of_not_le hend) hws, ?_⟩
        intro fuel hfuel chunks
        obtain ⟨fuel, rfl⟩ := Nat.exists_eq_add_of_lt hfuel
        simp only [chunkLoop, hstart, hend, if_true, if_false]
        rw [pushChunk_length, hloop _ (by omega), chunksOf_cons]
    · refine ⟨[], .past (Nat.le_of_not_lt hstart), ?_⟩
      intro fuel hfuel chunks
      obtain ⟨fuel, rfl⟩ := Nat.exists_eq_add_of_lt hfuel
      simp only [chunkLoop, hstart, if_false]
      rfl

theorem Windows.bounds {ws : List (Nat × Nat)} (hpos : 1 ≤ chunkSize)
    (h : Windows text chunkSize overlap start ws) :
    ∀ w ∈ ws, start ≤ w.1 ∧ w.1 < w.2 ∧ w.2 ≤ w.1 + chunkSize ∧ w.2 ≤ text.length := by
  induction h with
  | past _ => simp
  | last hstart _ =>
    have hbounds := windowEnd_bounds overlap hpos hstart
    simp only [List.mem_singleton]
    rintro w rfl
    exact ⟨Nat.le_refl _, hbounds.1, hbounds.2.1, hbounds.2.2.1⟩
  | next hstart _ _ ih =>
    have hbounds := windowEnd_bounds overlap hpos hstart
    intro w hw
    rcases List.mem_cons.mp hw with rfl | hw
    · exact ⟨Nat.le_refl _, hbounds.1, hbounds.2.1, hbounds.2.2.1⟩
    · obtain ⟨hle, hrest⟩ := ih w hw
      exact ⟨by omega, hrest⟩

theorem Windows.starts {ws : List (Nat × Nat)} (hpos : 1 ≤ chunkSize)
    (h : Windows text chunkSize overlap start ws) : (ws.map Prod.fst).Pairwise (· < ·) := by
  induction h with
  | past _ => exact .nil
  | last _ _ => exact List.pairwise_singleton _ _
  | next _ _ hnext ih =>
    rw [List.map_cons, List.pairwise_cons]
    refine ⟨?_, ih⟩
    intro s hs
    obtain ⟨w, hw, rfl⟩ := List.mem_map.mp hs
    have hle := (hnext.bounds hpos w hw).1
    omega

/-- Every place from the first start on is in a window: the next one starts no later than the end
of the one before. -/
theorem Windows.covers {ws : List (Nat × Nat)} (hpos : 1 ≤ chunkSize)
    (h : Windows text chunkSize overlap start ws) {i : Nat} (hi : start ≤ i)
    (hlen : i < text.length) : ∃ w ∈ ws, w.1 ≤ i ∧ i < w.2 := by
  induction h with
  | past hpast => omega
  | last _ hend => exact ⟨_, List.mem_singleton.mpr rfl, hi, by simp only; omega⟩
  | @next start ws hstart _ _ ih =>
    have hbounds := windowEnd_bounds overlap hpos hstart
    by_cases hin : i < windowEnd text chunkSize overlap start
    · exact ⟨_, List.mem_cons_self, hi, hin⟩
    · obtain ⟨w, hw, hwin⟩ := ih (by omega)
      exact ⟨w, List.mem_cons_of_mem _ hw, hwin⟩

/-- With less than half a window of overlap twice the way to the next start is more than
`chunkSize - 2 * overlap`. -/
theorem Windows.count {ws : List (Nat × Nat)} (hpos : 1 ≤ chunkSize) (hoverlap : 2 * overlap < chunkSize)
    (h : Windows text chunkSize overlap start ws) (hstart : start ≤ text.length) :
    ws.length * (chunkSize - 2 * overlap) ≤
      2 * (text.length - start) + (chunkSize - 2 * overlap) := by
  induction h with
  | past _ => simp
  | last _ _ => simp
  | next hlt hend _ ih =>
    have hbounds := (windowEnd_bounds overlap hpos hlt).2.2.2 hend hoverlap
    have ih := ih (by omega)
    rw [List.length_cons, Nat.succ_mul]
    omega

/-! ## The chunks of a text -/

theorem index_chunksOf (ws : List (Nat × Nat)) (chunks : List Chunk)
    (h : chunks.map Chunk.index = List.range chunks.length) :
    (chunksOf text chunks ws).map Chunk.index = List.range (chunksOf text chunks ws).length := by
  induction ws generalizing chunks with
  | nil => exact h
  | cons w ws ih =>
    rw [chunksOf_cons]
    refine ih _ ?_
    simp only [pushChunk]
    split
    · simp [h, List.range_succ]
    · exact h

theorem text_chunksOf (text : Str) (ws : List (Nat × Nat)) (chunks : List Chunk) :
    (chunksOf text chunks ws).map Chunk.text = chunks.map Chunk.text ++
      (ws.map fun w => Ecma.trim (slice text w.1 w.2)).filter (· ≠ []) := by
  induction ws generalizing chunks with
  | nil => simp [chunksOf]
  | cons w ws ih =>
    rw [chunksOf_cons, ih]
    simp only [pushChunk, List.length_pos_iff]
    by_cases hblank : Ecma.trim (slice text w.1 w.2) = [] <;> simp [hblank]

theorem trim_split (s : Str) : ∃ front back, s = front ++ Ecma.trim s ++ back ∧
    (∀ u ∈ front, Ecma.isSpace u = true) ∧ ∀ u ∈ back, Ecma.isSpace u = true := by
  refine ⟨s.takeWhile Ecma.isSpace,
    ((s.dropWhile Ecma.isSpace).reverse.takeWhile Ecma.isSpace).reverse, ?_,
    fun u hu => (List.mem_takeWhile_imp hu), fun u hu => List.mem_takeWhile_imp (List.mem_reverse.mp hu)⟩
  rw [Ecma.trim, List.append_assoc, ← List.reverse_append, List.takeWhile_append_dropWhile,
    List.reverse_reverse, List.takeWhile_append_dropWhile]

/-- A unit that is no white space is in what a trim leaves, at its place. -/
theorem trim_keeps {s : Str} {i : Nat} {u : UInt16} (hu : s[i]? = some u)
    (hspace : Ecma.isSpace u = false) :
    ∃ a b, Ecma.trim s = slice s a b ∧ a ≤ i ∧ i < b ∧ b ≤ s.length := by
  obtain ⟨front, back, hs, hfront, hback⟩ := trim_split s
  generalize Ecma.trim s = kept at hs ⊢
  refine ⟨front.length, front.length + kept.length, ?_, ?_, ?_, ?_⟩
  · rw [hs, slice, List.take_left' (by simp), List.drop_left]
  · by_contra hlt
    rw [hs, List.append_assoc, List.getElem?_append_left (by omega)] at hu
    have hmem := hfront u (List.mem_of_getElem? hu)
    rw [hspace] at hmem
    cases hmem
  · by_contra hge
    rw [hs, List.getElem?_append_right (by simp; omega)] at hu
    have hmem := hback u (List.mem_of_getElem? hu)
    rw [hspace] at hmem
    cases hmem
  · have hlen := congrArg List.length hs
    simp only [List.length_append] at hlen
    omega

theorem slice_slice {start stop a b : Nat} (h : start + b ≤ stop) :
    slice (slice text start stop) a b = slice text (start + a) (start + b) := by
  unfold slice
  rw [List.take_drop, List.take_take, Nat.min_eq_left h, List.drop_drop]

theorem trim_within (s : Str) : Ecma.trim s <:+: s := by
  obtain ⟨front, back, hs, -, -⟩ := trim_split s
  exact ⟨front, back, hs.symm⟩

theorem slice_within (text : Str) (start stop : Nat) : slice text start stop <:+: text :=
  (List.drop_suffix start _).isInfix.trans (List.take_prefix stop text).isInfix

/-- What `chunkText` promises of its chunks, with the windows it took them from. -/
structure Chunked (text : Str) (chunkSize overlap : Nat) (chunks : List Chunk)
    (ws : List (Nat × Nat)) : Prop where
  /-- The indices are `0` to `k - 1`. -/
  indices : chunks.map Chunk.index = List.range chunks.length
  /-- A text that fits is one chunk as it stands. -/
  whole : text.length ≤ chunkSize → chunks = [⟨text, 0⟩] ∧ ws = [(0, text.length)]
  /-- The chunks of a text that does not fit are its windows trimmed, less the blank ones. -/
  trimmed : chunkSize < text.length → Windows text chunkSize overlap 0 ws ∧
    chunks.map Chunk.text = (ws.map fun w => Ecma.trim (slice text w.1 w.2)).filter (· ≠ [])
  /-- A chunk is a part of the text and fits. -/
  fits : ∀ c ∈ chunks, c.text <:+: text ∧ c.text.length ≤ chunkSize
  starts : (ws.map Prod.fst).Pairwise (· < ·)
  /-- A unit that is no white space is in the chunk of a window, at its place. -/
  covered : ∀ i u, text[i]? = some u → Ecma.isSpace u = false →
    ∃ c ∈ chunks, ∃ w ∈ ws, ∃ a b, w.1 ≤ a ∧ b ≤ w.2 ∧ c.text = slice text a b ∧ a ≤ i ∧ i < b
  count : 2 * overlap < chunkSize → ws.length * (chunkSize - 2 * overlap) ≤
    2 * text.length + (chunkSize - 2 * overlap)

theorem chunked_whole (hfits : text.length ≤ chunkSize) :
    Chunked text chunkSize overlap [⟨text, 0⟩] [(0, text.length)] where
  indices := rfl
  whole _ := ⟨rfl, rfl⟩
  trimmed hlong := absurd hfits (Nat.not_le_of_lt hlong)
  fits c hc := by
    rw [List.mem_singleton.mp hc]
    exact ⟨List.infix_refl text, hfits⟩
  starts := List.pairwise_singleton _ _
  covered i u hu _ := by
    have hi := (List.getElem?_eq_some_iff.mp hu).1
    refine ⟨_, List.mem_singleton.mpr rfl, _, List.mem_singleton.mpr rfl, 0, text.length, ?_⟩
    simp [slice, hi]
  count _ := by simp

theorem chunked_windows (hpos : 1 ≤ chunkSize) (hlong : chunkSize < text.length)
    {ws : List (Nat × Nat)} (hws : Windows text chunkSize overlap 0 ws) :
    Chunked text chunkSize overlap (chunksOf text [] ws) ws where
  indices := index_chunksOf ws [] rfl
  whole hfits := absurd hfits (Nat.not_le_of_lt hlong)
  trimmed _ := ⟨hws, by simpa using text_chunksOf text ws []⟩
  fits c hc := by
    have hmem := List.mem_map_of_mem (f := Chunk.text) hc
    rw [text_chunksOf] at hmem
    simp only [List.map_nil, List.nil_append, List.mem_filter, List.mem_map] at hmem
    obtain ⟨⟨w, hw, heq⟩, -⟩ := hmem
    rw [← heq]
    have hbounds := hws.bounds hpos w hw
    have hlen := (trim_within (slice text w.1 w.2)).length_le
    rw [length_slice] at hlen
    exact ⟨(trim_within _).trans (slice_within text w.1 w.2), by omega⟩
  starts := hws.starts hpos
  covered i u hu hspace := by
    have hi := (List.getElem?_eq_some_iff.mp hu).1
    obtain ⟨w, hw, hfrom, hto⟩ := hws.covers hpos (Nat.zero_le i) hi
    have hin : (slice text w.1 w.2)[i - w.1]? = some u := by
      rw [slice, List.getElem?_drop, Nat.add_sub_cancel' hfrom, List.getElem?_take_of_lt hto, hu]
    obtain ⟨a, b, htrim, ha, hb, hlen⟩ := trim_keeps hin hspace
    rw [length_slice] at hlen
    rw [slice_slice (by omega)] at htrim
    have hne : Ecma.trim (slice text w.1 w.2) ≠ [] := by
      have hbounds := hws.bounds hpos w hw
      rw [htrim, ← List.length_pos_iff, length_slice]
      omega
    have hmem : Ecma.trim (slice text w.1 w.2) ∈ (chunksOf text [] ws).map Chunk.text := by
      rw [text_chunksOf]
      simp only [List.map_nil, List.nil_append, List.mem_filter, List.mem_map]
      exact ⟨⟨w, hw, rfl⟩, by simpa using hne⟩
    obtain ⟨c, hc, heq⟩ := List.mem_map.mp hmem
    exact ⟨c, hc, w, hw, w.1 + a, w.1 + b, by omega, by omega, heq.trans htrim, by omega, by omega⟩
  count hoverlap := by simpa using hws.count hpos hoverlap (Nat.zero_le _)

/-- For every text, size and overlap the loop ends, and its chunks cover the text. -/
theorem chunkText_covers (text : Str) (chunkSize overlap : Nat) (hpos : 1 ≤ chunkSize) :
    ∃ chunks ws, Chunked text chunkSize overlap chunks ws ∧
      ∀ fuel, text.length < fuel → chunkText fuel text chunkSize overlap = some chunks := by
  by_cases hfits : text.length ≤ chunkSize
  · refine ⟨_, _, chunked_whole hfits, ?_⟩
    intro fuel _
    rw [chunkText, if_pos (.inr hfits)]
  · obtain ⟨ws, hws, hloop⟩ := exists_windows text chunkSize overlap 0
    refine ⟨_, ws, chunked_windows hpos (Nat.lt_of_not_le hfits) hws, ?_⟩
    intro fuel hfuel
    have hne : ¬ (text = [] ∨ text.length ≤ chunkSize) := by
      rintro (rfl | h)
      · exact hfits (Nat.zero_le _)
      · exact hfits h
    rw [chunkText, if_neg hne]
    exact hloop fuel hfuel []

/-- Two sentences in windows of eight units: the second begins in the overlap of the first. -/
theorem chunkText_covers_sentences :
    chunkText 20 (units "One two. Three") 8 3 =
        some [⟨units "One two.", 0⟩, ⟨units "wo. Thre", 1⟩, ⟨units "hree", 2⟩] ∧
      ∃ ws, Chunked (units "One two. Three") 8 3
        [⟨units "One two.", 0⟩, ⟨units "wo. Thre", 1⟩, ⟨units "hree", 2⟩] ws := by
  have hrun : chunkText 20 (units "One two. Three") 8 3 =
      some [⟨units "One two.", 0⟩, ⟨units "wo. Thre", 1⟩, ⟨units "hree", 2⟩] := by
    decide +kernel
  refine ⟨hrun, ?_⟩
  obtain ⟨chunks, ws, hchunked, hloop⟩ := chunkText_covers (units "One two. Three") 8 3 (by decide)
  rw [hloop 20 (by decide)] at hrun
  cases hrun
  exact ⟨ws, hchunked⟩

/-- A text that fits is its own chunk, with the blank in front of it. -/
theorem chunkText_untrimmed : chunkText 3 (units " a") 2 0 = some [⟨units " a", 0⟩] ∧
    Ecma.trim (units " a") ≠ units " a" :=
  ⟨rfl, by decide⟩

end OpenBrain.Server.Embedding
