import OpenBrain.Server.Distill.ExchangeSweep
import OpenBrain.Server.Distill.Extraction
import OpenBrain.Server.Distill.Isolation

/-!
# What the sweeps have stored

A run is followed exchange by exchange (`persistExchange`): a head whose hash the namespace holds
leaves the table as it is, any other head brings its parts along. Whatever happens, a part row
hangs on the row of its own head (`Linked`), and a second run over the same turns writes nothing.

* `sweeps_store`: runs that each meet `Sound` have stored every text they extracted and cover
  every turn they select.
* `sweeps_lose`: what happens otherwise.
-/
namespace OpenBrain.Server.Distill
open OpenBrain.Core List

/-! ## Rows -/

section Rows

variable (H : ContentHash)

/-- The namespace holds the hash of the text. -/
def Known (candidates : List (CandidateRow H.Digest)) (candidate : PreparedExchangeCandidate) :
    Prop :=
  ∃ row ∈ candidates, row.ns = candidate.ns ∧
    row.content_hash = normalizedContentHash H candidate.content

/-- Two candidates the table cannot both hold. -/
def SameKey (a b : PreparedExchangeCandidate) : Prop :=
  a.ns = b.ns ∧ normalizedContentHash H a.content = normalizedContentHash H b.content

def StoredText (candidates : List (CandidateRow H.Digest))
    (candidate : PreparedExchangeCandidate) : Prop :=
  ∃ row ∈ candidates, row.ns = candidate.ns ∧ row.content = candidate.content

end Rows

section Persist

variable {H : ContentHash} {candidates candidates' new : List (CandidateRow H.Digest)}
  {candidate : PreparedExchangeCandidate} {id : Uuid} {parentId inserted headId headId' : Option Uuid}

theorem conflicts_iff : conflicts H candidates candidate = true ↔ Known H candidates candidate := by
  simp [conflicts, Known]

theorem Known.append (h : Known H candidates candidate) (new : List (CandidateRow H.Digest)) :
    Known H (candidates ++ new) candidate := by
  obtain ⟨row, hrow, hkey⟩ := h
  exact ⟨row, mem_append.mpr (.inl hrow), hkey⟩

theorem known_inserted (id : Uuid) (parentId : Option Uuid) :
    Known H (candidates ++ [insertedRow H id candidate parentId]) candidate :=
  ⟨_, mem_append.mpr (.inr mem_cons_self), rfl, rfl⟩

/-- The two ways an insert ends. -/
theorem insert_cases
    (h : insertCandidate H candidates id candidate parentId = some (candidates', inserted)) :
    (Known H candidates candidate ∧ candidates' = candidates ∧ inserted = none) ∨
    (¬ Known H candidates candidate ∧ (∀ row ∈ candidates, row.id ≠ id) ∧
      candidates' = candidates ++ [insertedRow H id candidate parentId] ∧ inserted = some id) := by
  unfold insertCandidate at h
  split at h
  · rename_i hconflict
    cases h
    exact .inl ⟨conflicts_iff.mp hconflict, rfl, rfl⟩
  · rename_i hfree
    split at h
    · cases h
    · rename_i hid
      cases h
      refine .inr ⟨fun hknown => hfree (conflicts_iff.mpr hknown), ?_, rfl, rfl⟩
      simpa using hid

theorem persist_append (draw : Nat → Uuid) (index : Nat) (cs ds : List PreparedExchangeCandidate)
    (state : List (CandidateRow H.Digest) × Option Uuid) :
    persist H draw index (cs ++ ds) state =
      (persist H draw index cs state).bind (persist H draw (index + cs.length) ds) := by
  induction cs generalizing index state with
  | nil => rfl
  | cons candidate cs ih =>
    simp only [cons_append, persist, length_cons, Option.bind_eq_bind]
    cases persistOne H state.1 state.2 (draw index) candidate with
    | none => rfl
    | some state' =>
      simp only [Option.bind_some]
      rw [ih, Nat.add_assoc, Nat.add_comm 1]

/-- Without a head the parts are skipped. -/
theorem persist_skips (draw : Nat → Uuid) (index : Nat) {parts : List PreparedExchangeCandidate}
    (hparts : ∀ part ∈ parts, part.chunk_index.isSome) :
    persist H draw index parts (candidates, none) = some (candidates, none) := by
  induction parts generalizing index with
  | nil => rfl
  | cons part parts ih =>
    have hpart := hparts part mem_cons_self
    rw [persist, persistOne, hpart]
    exact ih (index + 1) fun p hp => hparts p (mem_cons_of_mem _ hp)

/-- Rows that were written for some of the candidates, under one parent. -/
structure WrittenFor (cs : List PreparedExchangeCandidate) (parentId : Option Uuid)
    (candidates new : List (CandidateRow H.Digest)) : Prop where
  rows : ∀ row ∈ new, ∃ candidate ∈ cs, row = insertedRow H row.id candidate parentId
  known : ∀ candidate ∈ cs, Known H (candidates ++ new) candidate
  ids : (candidates.map fun row => row.id).Nodup →
    ((candidates ++ new).map fun row => row.id).Nodup

theorem inserted_writes (candidate : PreparedExchangeCandidate) (parentId : Option Uuid)
    (hid : ∀ row ∈ candidates, row.id ≠ id) :
    WrittenFor [candidate] parentId candidates [insertedRow H id candidate parentId] where
  rows row hrow := by
    rw [mem_singleton.mp hrow]
    exact ⟨candidate, mem_cons_self, rfl⟩
  known candidate' hc := by
    rw [mem_singleton.mp hc]
    exact known_inserted id parentId
  ids hnodup := by
    rw [map_append, nodup_append]
    refine ⟨hnodup, nodup_singleton _, ?_⟩
    intro a ha b hb
    obtain ⟨row, hrow, rfl⟩ := mem_map.mp ha
    rw [map_singleton, mem_singleton] at hb
    rw [hb]
    exact hid row hrow

theorem insert_writes
    (h : insertCandidate H candidates id candidate parentId = some (candidates', inserted)) :
    ∃ new, candidates' = candidates ++ new ∧ WrittenFor [candidate] parentId candidates new := by
  rcases insert_cases h with ⟨hknown, rfl, -⟩ | ⟨-, hid, rfl, -⟩
  · exact ⟨[], (append_nil _).symm, nofun, by simpa using hknown, by simp⟩
  · exact ⟨_, rfl, inserted_writes candidate parentId hid⟩

theorem WrittenFor.append {cs ds : List PreparedExchangeCandidate}
    {new' : List (CandidateRow H.Digest)} (h : WrittenFor cs parentId candidates new)
    (h' : WrittenFor ds parentId (candidates ++ new) new') :
    WrittenFor (cs ++ ds) parentId candidates (new ++ new') where
  rows row hrow := by
    rcases mem_append.mp hrow with hrow | hrow
    · obtain ⟨candidate, hc, heq⟩ := h.rows row hrow
      exact ⟨candidate, mem_append.mpr (.inl hc), heq⟩
    · obtain ⟨candidate, hc, heq⟩ := h'.rows row hrow
      exact ⟨candidate, mem_append.mpr (.inr hc), heq⟩
  known candidate hc := by
    rw [← append_assoc]
    rcases mem_append.mp hc with hc | hc
    · exact (h.known candidate hc).append new'
    · exact h'.known candidate hc
  ids hnodup := by
    rw [← append_assoc]
    exact h'.ids (h.ids hnodup)

theorem persist_parts (draw : Nat → Uuid) (index : Nat) {parts : List PreparedExchangeCandidate}
    (hparts : ∀ part ∈ parts, part.chunk_index.isSome) (headId : Uuid)
    (h : persist H draw index parts (candidates, some headId) = some (candidates', headId')) :
    ∃ new, candidates' = candidates ++ new ∧ WrittenFor parts (some headId) candidates new := by
  induction parts generalizing index candidates with
  | nil =>
    cases h
    exact ⟨[], (append_nil _).symm, nofun, nofun, by simp⟩
  | cons part parts ih =>
    have hpart := hparts part mem_cons_self
    rw [persist, persistOne, hpart] at h
    simp only [Option.isNone_some, Bool.and_false, if_false, if_true, Bool.false_eq_true,
      Option.bind_eq_bind, Option.bind_assoc, Option.bind_some] at h
    obtain ⟨⟨table, inserted⟩, hinsert, h⟩ := Option.bind_eq_some_iff.mp h
    obtain ⟨new, rfl, hnew⟩ := insert_writes hinsert
    obtain ⟨new', rfl, hnew'⟩ := ih (index + 1) (fun p hp => hparts p (mem_cons_of_mem _ hp)) h
    exact ⟨new ++ new', append_assoc .., hnew.append hnew'⟩

end Persist

/-! ## One exchange -/

theorem prepareExchange_shape {exchange : Exchange} {head : PreparedExchangeCandidate}
    {parts : List PreparedExchangeCandidate} (h : prepareExchange exchange = head :: parts) :
    head.chunk_index = none ∧ ∀ part ∈ parts, part.chunk_index.isSome := by
  have htext : exchange.HasText := hasText_of_mem (h ▸ mem_cons_self)
  obtain ⟨ns, -, hrows⟩ := prepareExchange_rows htext
  obtain ⟨first, rest, hparts, -⟩ := headLineOf_first (effectiveExchange exchange)
  rw [h, hparts, candidateRowsOf, mapIdx_cons, List.cons.injEq] at hrows
  obtain ⟨rfl, rfl⟩ := hrows
  refine ⟨by simp, fun part hpart => ?_⟩
  obtain ⟨index, hindex, rfl⟩ := mem_mapIdx.mp hpart
  have hmany : ¬ ((first :: rest).length = 1 ∨ index + 1 = 0) := by
    rw [length_cons]
    omega
  rw [if_neg hmany]
  rfl

section OneExchange

variable {H : ContentHash} {candidates candidates' new : List (CandidateRow H.Digest)}
  {exchange : Exchange} {headId headId' : Option Uuid}

def LinkedTo (exchange : Exchange) (candidates : List (CandidateRow H.Digest))
    (row : CandidateRow H.Digest) : Prop :=
  ∃ head parts part parent, prepareExchange exchange = head :: parts ∧ part ∈ parts ∧
    row = insertedRow H row.id part (some parent.id) ∧ parent ∈ candidates ∧
    parent = insertedRow H parent.id head none

theorem LinkedTo.mono {row : CandidateRow H.Digest} (h : LinkedTo exchange candidates row)
    (hsub : ∀ row ∈ candidates, row ∈ candidates') : LinkedTo exchange candidates' row := by
  obtain ⟨head, parts, part, parent, hshape, hpart, hrow, hparent, hhead⟩ := h
  exact ⟨head, parts, part, parent, hshape, hpart, hrow, hsub parent hparent, hhead⟩

/-- What the rows of one exchange add to the table. -/
structure ExchangeWritten (exchange : Exchange) (candidates new : List (CandidateRow H.Digest)) :
    Prop where
  rows : ∀ row ∈ new, ∃ candidate ∈ prepareExchange exchange,
    row = insertedRow H row.id candidate row.parent_id
  linked : ∀ row ∈ new, row.chunk_index.isSome → LinkedTo exchange new row
  head : ∀ head parts, prepareExchange exchange = head :: parts → Known H (candidates ++ new) head
  fresh : ∀ head parts, prepareExchange exchange = head :: parts → ¬ Known H candidates head →
    ∀ candidate ∈ prepareExchange exchange, Known H (candidates ++ new) candidate
  ids : (candidates.map fun row => row.id).Nodup →
    ((candidates ++ new).map fun row => row.id).Nodup

/-- A head the table knows leaves it as it is. -/
theorem persist_known (headId : Option Uuid) (draw : Nat → Uuid) (index : Nat)
    (h : ∀ head parts, prepareExchange exchange = head :: parts → Known H candidates head) :
    ∃ headId', persist H draw index (prepareExchange exchange) (candidates, headId) =
      some (candidates, headId') := by
  cases hrows : prepareExchange exchange with
  | nil => exact ⟨headId, rfl⟩
  | cons head parts =>
    obtain ⟨hhead, hparts⟩ := prepareExchange_shape hrows
    have hconflict := conflicts_iff.mpr (h head parts hrows)
    refine ⟨none, ?_⟩
    rw [persist, persistOne, hhead]
    simp only [Option.isSome_none, Bool.false_and, Bool.false_eq_true, if_false, insertCandidate,
      hconflict, if_true, Option.bind_eq_bind, Option.bind_some]
    exact persist_skips draw (index + 1) hparts

theorem persist_exchange (draw : Nat → Uuid) (index : Nat)
    (h : persist H draw index (prepareExchange exchange) (candidates, headId) =
      some (candidates', headId')) :
    ∃ new, candidates' = candidates ++ new ∧ ExchangeWritten exchange candidates new := by
  by_cases hknown : ∀ head parts, prepareExchange exchange = head :: parts →
      Known H candidates head
  · obtain ⟨headId'', heq⟩ := persist_known headId draw index hknown
    rw [h, Option.some.injEq, Prod.mk.injEq] at heq
    refine ⟨[], by rw [heq.1, append_nil], nofun, nofun, ?_, ?_, by simp⟩
    · simpa using hknown
    · exact fun head parts hshape hnew => absurd (hknown head parts hshape) hnew
  · push Not at hknown
    obtain ⟨head, parts, hshape, hnew⟩ := hknown
    obtain ⟨hhead, hparts⟩ := prepareExchange_shape hshape
    rw [hshape, persist, persistOne, hhead] at h
    simp only [Option.isSome_none, Bool.false_and, Bool.false_eq_true, if_false,
      Option.bind_eq_bind, Option.bind_assoc, Option.bind_some] at h
    obtain ⟨⟨table, inserted⟩, hinsert, h⟩ := Option.bind_eq_some_iff.mp h
    obtain ⟨hknown, -, -⟩ | ⟨-, hid, rfl, rfl⟩ := insert_cases hinsert
    · exact absurd hknown hnew
    · obtain ⟨new, rfl, hwritten⟩ := persist_parts draw (index + 1) hparts (draw index) h
      have hfirst := inserted_writes head none hid
      refine ⟨insertedRow H (draw index) head none :: new, by simp, ?_, ?_, ?_, ?_, ?_⟩
      · intro row hrow
        rw [hshape]
        rcases mem_cons.mp hrow with rfl | hrow
        · exact ⟨head, mem_cons_self, rfl⟩
        · obtain ⟨part, hpart, heq⟩ := hwritten.rows row hrow
          exact ⟨part, mem_cons_of_mem _ hpart, heq ▸ rfl⟩
      · intro row hrow hchunk
        rcases mem_cons.mp hrow with rfl | hrow
        · simp [insertedRow, hhead] at hchunk
        · obtain ⟨part, hpart, heq⟩ := hwritten.rows row hrow
          exact ⟨head, parts, part, _, hshape, hpart, heq, mem_cons_self, rfl⟩
      · intro head' parts' hshape'
        rw [hshape, List.cons.injEq] at hshape'
        rw [← hshape'.1, append_cons]
        exact (hfirst.known head mem_cons_self).append new
      · intro _ _ _ _ candidate hc
        rw [append_cons]
        rw [hshape] at hc
        rcases mem_cons.mp hc with rfl | hc
        · exact (hfirst.known candidate mem_cons_self).append new
        · exact hwritten.known candidate hc
      · intro hnodup
        rw [append_cons]
        exact hwritten.ids (hfirst.ids hnodup)

end OneExchange

/-! ## One run -/

section OneRun

variable {H : ContentHash} {candidates candidates' new : List (CandidateRow H.Digest)}
  {exchanges : List Exchange} {headId headId' : Option Uuid}

/-- The head is in nobody's way: neither the table nor an earlier row of the run has its hash. -/
def HasNewHead (candidates : List (CandidateRow H.Digest)) (exchanges : List Exchange)
    (exchange : Exchange) : Prop :=
  ∃ earlier later head parts, exchanges = earlier ++ exchange :: later ∧
    prepareExchange exchange = head :: parts ∧ ¬ Known H candidates head ∧
    ∀ candidate ∈ earlier.flatMap prepareExchange, ¬ SameKey H candidate head

/-- What a run adds to the table. -/
structure RunWritten (exchanges : List Exchange) (candidates new : List (CandidateRow H.Digest)) :
    Prop where
  rows : ∀ row ∈ new, ∃ candidate ∈ exchanges.flatMap prepareExchange,
    row = insertedRow H row.id candidate row.parent_id
  linked : ∀ row ∈ new, row.chunk_index.isSome → ∃ exchange ∈ exchanges, LinkedTo exchange new row
  head : ∀ exchange ∈ exchanges, ∀ head parts, prepareExchange exchange = head :: parts →
    Known H (candidates ++ new) head
  fresh : ∀ exchange, HasNewHead candidates exchanges exchange →
    ∀ candidate ∈ prepareExchange exchange, Known H (candidates ++ new) candidate
  ids : (candidates.map fun row => row.id).Nodup →
    ((candidates ++ new).map fun row => row.id).Nodup

theorem HasNewHead.tail {first exchange : Exchange} (hwritten : ExchangeWritten first candidates new)
    (h : HasNewHead candidates (first :: exchanges) exchange) :
    (exchange = first ∧ ∃ head parts, prepareExchange exchange = head :: parts ∧
      ¬ Known H candidates head) ∨ HasNewHead (candidates ++ new) exchanges exchange := by
  obtain ⟨earlier, later, head, parts, hsplit, hshape, hnew, hearlier⟩ := h
  cases earlier with
  | nil =>
    rw [nil_append, List.cons.injEq] at hsplit
    exact .inl ⟨hsplit.1.symm, head, parts, hshape, hnew⟩
  | cons first' earlier =>
    rw [cons_append, List.cons.injEq] at hsplit
    obtain ⟨rfl, hsplit⟩ := hsplit
    rw [flatMap_cons] at hearlier
    refine .inr ⟨earlier, later, head, parts, hsplit, hshape, ?_, fun candidate hc =>
      hearlier candidate (mem_append.mpr (.inr hc))⟩
    rintro ⟨row, hrow, hns, hhash⟩
    rcases mem_append.mp hrow with hrow | hrow
    · exact hnew ⟨row, hrow, hns, hhash⟩
    · -- a row of the first exchange with this hash would be an earlier one of the run
      obtain ⟨candidate, hc, heq⟩ := hwritten.rows row hrow
      rw [heq] at hns hhash
      exact hearlier candidate (mem_append.mpr (.inl hc)) ⟨hns, hhash⟩

theorem persist_exchanges (draw : Nat → Uuid) (index : Nat)
    (h : persist H draw index (exchanges.flatMap prepareExchange) (candidates, headId) =
      some (candidates', headId')) :
    ∃ new, candidates' = candidates ++ new ∧ RunWritten exchanges candidates new := by
  induction exchanges generalizing index candidates headId with
  | nil =>
    cases h
    refine ⟨[], (append_nil _).symm, nofun, nofun, nofun, ?_, by simp⟩
    rintro exchange ⟨earlier, later, head, parts, hsplit, -⟩
    exact absurd hsplit (by simp)
  | cons first exchanges ih =>
    rw [flatMap_cons, persist_append] at h
    obtain ⟨⟨table, headId₁⟩, hfirst, hrest⟩ := Option.bind_eq_some_iff.mp h
    obtain ⟨new₁, rfl, hw₁⟩ := persist_exchange draw index hfirst
    obtain ⟨new₂, rfl, hw₂⟩ := ih _ hrest
    refine ⟨new₁ ++ new₂, append_assoc .., ?_, ?_, ?_, ?_, ?_⟩
    · intro row hrow
      rw [flatMap_cons]
      rcases mem_append.mp hrow with hrow | hrow
      · obtain ⟨candidate, hc, heq⟩ := hw₁.rows row hrow
        exact ⟨candidate, mem_append.mpr (.inl hc), heq⟩
      · obtain ⟨candidate, hc, heq⟩ := hw₂.rows row hrow
        exact ⟨candidate, mem_append.mpr (.inr hc), heq⟩
    · intro row hrow hchunk
      rcases mem_append.mp hrow with hrow | hrow
      · exact ⟨first, mem_cons_self, (hw₁.linked row hrow hchunk).mono
          fun r hr => mem_append.mpr (.inl hr)⟩
      · obtain ⟨exchange, he, hlinked⟩ := hw₂.linked row hrow hchunk
        exact ⟨exchange, mem_cons_of_mem _ he,
          hlinked.mono fun r hr => mem_append.mpr (.inr hr)⟩
    · intro exchange he head parts hshape
      rw [← append_assoc]
      rcases mem_cons.mp he with rfl | he
      · exact (hw₁.head head parts hshape).append new₂
      · exact hw₂.head exchange he head parts hshape
    · intro exchange hnewhead candidate hc
      rw [← append_assoc]
      rcases hnewhead.tail hw₁ with ⟨rfl, head, parts, hshape, hnew⟩ | hlater
      · exact (hw₁.fresh head parts hshape hnew candidate hc).append new₂
      · exact hw₂.fresh exchange hlater candidate hc
    · intro hnodup
      rw [← append_assoc]
      exact hw₂.ids (hw₁.ids hnodup)

theorem persist_nothing (headId : Option Uuid) (draw : Nat → Uuid) (index : Nat)
    (h : ∀ exchange ∈ exchanges, ∀ head parts, prepareExchange exchange = head :: parts →
      Known H candidates head) :
    ∃ headId', persist H draw index (exchanges.flatMap prepareExchange) (candidates, headId) =
      some (candidates, headId') := by
  induction exchanges generalizing index headId with
  | nil => exact ⟨headId, rfl⟩
  | cons first exchanges ih =>
    rw [flatMap_cons, persist_append]
    obtain ⟨headId₁, hfirst⟩ := persist_known headId draw index
      (h first mem_cons_self)
    rw [hfirst, Option.bind_some]
    exact ih _ _ fun exchange he => h exchange (mem_cons_of_mem _ he)

end OneRun

/-! ## All runs -/

section Runs

variable (c : Collation) (H : ContentHash)

def sweepExchanges (turns : List RawTurn) (deps : ExchangeSweepDeps) : List Exchange :=
  match turnLimit deps with
  | none => []
  | some limit => buildExchanges (readTurnWindow c turns deps limit)

/-- When a run stores all it should. -/
structure Sound (store : Store H.Digest) (deps : ExchangeSweepDeps) : Prop where
  /-- The selected turns fit the read. -/
  window : ∀ limit, turnLimit deps = some limit →
    (store.turns.filter (inTurnWindow deps)).length ≤ limit
  /-- In one namespace a hash stands for one text. -/
  exact : ∀ a ∈ (sweepExchanges c store.turns deps).flatMap prepareExchange,
    (∀ row ∈ store.candidates, row.ns = a.ns →
      row.content_hash = normalizedContentHash H a.content → row.content = a.content) ∧
    ∀ b ∈ (sweepExchanges c store.turns deps).flatMap prepareExchange,
      SameKey H b a → b.content = a.content
  /-- An exchange whose head is known brings no part that is not. -/
  grown : ∀ exchange ∈ sweepExchanges c store.turns deps,
    ¬ HasNewHead store.candidates (sweepExchanges c store.turns deps) exchange →
    ∀ part ∈ (prepareExchange exchange).tail, Known H store.candidates part ∨
      ∃ other, HasNewHead store.candidates (sweepExchanges c store.turns deps) other ∧
        ∃ b ∈ prepareExchange other, SameKey H b part

def SoundStep (store : Store H.Digest) : SweepAction → Prop
  | .append _ => True
  | .sweep deps _ => Sound c H store deps

variable {c H} {store store' : Store H.Digest} {deps : ExchangeSweepDeps} {draw : Nat → Uuid}

theorem sweep_written (h : runExchangeSweep c H deps draw store = some store') :
    ∃ limit new, turnLimit deps = some limit ∧ store' = {
        turns := store.turns
        candidates := store.candidates ++ new
        extracted := store.extracted ++ sweepExchanges c store.turns deps } ∧
      RunWritten (sweepExchanges c store.turns deps) store.candidates new := by
  unfold runExchangeSweep at h
  obtain ⟨limit, hlimit, h⟩ := Option.bind_eq_some_iff.mp h
  obtain ⟨⟨candidates', headId'⟩, hpersist, h⟩ := Option.bind_eq_some_iff.mp h
  obtain ⟨new, rfl, hnew⟩ := persist_exchanges draw 0 hpersist
  have hcut : sweepExchanges c store.turns deps =
      buildExchanges (readTurnWindow c store.turns deps limit) := by
    rw [sweepExchanges, hlimit]
  cases h
  exact ⟨limit, new, hlimit, by rw [hcut], hcut ▸ hnew⟩

/-- Under `Sound` every row of the run ends up known. -/
theorem known_of_sound {new : List (CandidateRow H.Digest)} (hsound : Sound c H store deps)
    (hw : RunWritten (sweepExchanges c store.turns deps) store.candidates new)
    {exchange : Exchange} (he : exchange ∈ sweepExchanges c store.turns deps)
    {a : PreparedExchangeCandidate} (ha : a ∈ prepareExchange exchange) :
    Known H (store.candidates ++ new) a := by
  by_cases hnew : HasNewHead store.candidates (sweepExchanges c store.turns deps) exchange
  · exact hw.fresh exchange hnew a ha
  · cases hshape : prepareExchange exchange with
    | nil => rw [hshape] at ha; exact nomatch ha
    | cons head parts =>
      rw [hshape] at ha
      rcases mem_cons.mp ha with rfl | hpart
      · exact hw.head exchange he _ _ hshape
      · rcases hsound.grown exchange he hnew a (hshape ▸ hpart) with hknown | ⟨other, hother, b, hb, hkey⟩
        · exact hknown.append new
        · -- the row that stands for it is one of the other exchange's
          obtain ⟨row, hrow, hns, hhash⟩ := hw.fresh other hother b hb
          exact ⟨row, hrow, hns.trans hkey.1, hhash.trans hkey.2⟩

theorem stored_of_known {new : List (CandidateRow H.Digest)} (hsound : Sound c H store deps)
    (hw : RunWritten (sweepExchanges c store.turns deps) store.candidates new)
    {a : PreparedExchangeCandidate}
    (ha : a ∈ (sweepExchanges c store.turns deps).flatMap prepareExchange)
    (h : Known H (store.candidates ++ new) a) : StoredText H (store.candidates ++ new) a := by
  obtain ⟨row, hrow, hns, hhash⟩ := h
  refine ⟨row, hrow, hns, ?_⟩
  rcases mem_append.mp hrow with hrow | hrow
  · exact (hsound.exact a ha).1 row hrow hns hhash
  · obtain ⟨b, hb, heq⟩ := hw.rows row hrow
    rw [heq] at hns hhash ⊢
    exact (hsound.exact a ha).2 b hb ⟨hns, hhash⟩

theorem StoredText.append {candidates : List (CandidateRow H.Digest)}
    {a : PreparedExchangeCandidate} (h : StoredText H candidates a)
    (new : List (CandidateRow H.Digest)) : StoredText H (candidates ++ new) a := by
  obtain ⟨row, hrow, hkey⟩ := h
  exact ⟨row, mem_append.mpr (.inl hrow), hkey⟩

/-- Everything the runs have extracted is stored. -/
def AllStored (store : Store H.Digest) : Prop :=
  ∀ exchange ∈ store.extracted, ∀ a ∈ prepareExchange exchange, StoredText H store.candidates a

/-- Every part row hangs on the row of its own exchange's head, and a key names one row. -/
structure Linked (store : Store H.Digest) : Prop where
  parts : ∀ row ∈ store.candidates, row.chunk_index.isSome →
    ∃ exchange ∈ store.extracted, LinkedTo exchange store.candidates row
  ids : (store.candidates.map fun row => row.id).Nodup

def Covered (store : Store H.Digest) (turn : RawTurn) : Prop :=
  ∃ exchange ∈ store.extracted, turn.toDistillTurn ∈ exchange.turns ∧
    ∀ a ∈ prepareExchange exchange, StoredText H store.candidates a

theorem linked_inductive : (exchangeSweeps c H).Inductive (Linked (H := H)) where
  init store h := by
    obtain ⟨-, hids, hparts⟩ := h
    refine ⟨fun row hrow hchunk => ?_, hids⟩
    rw [hparts row hrow] at hchunk
    exact nomatch hchunk
  step store action store' inv _ h := by
    cases action with
    | append row =>
      change (if _ then none else some _) = some store' at h
      split at h
      · cases h
      · cases h
        exact ⟨inv.parts, inv.ids⟩
    | sweep deps draw =>
      obtain ⟨limit, new, -, rfl, hw⟩ := sweep_written (c := c) h
      refine ⟨fun row hrow hchunk => ?_, hw.ids inv.ids⟩
      rcases mem_append.mp hrow with hrow | hrow
      · obtain ⟨exchange, he, hlinked⟩ := inv.parts row hrow hchunk
        exact ⟨exchange, mem_append.mpr (.inl he),
          hlinked.mono fun r hr => mem_append.mpr (.inl hr)⟩
      · obtain ⟨exchange, he, hlinked⟩ := hw.linked row hrow hchunk
        exact ⟨exchange, mem_append.mpr (.inr he),
          hlinked.mono fun r hr => mem_append.mpr (.inr hr)⟩

theorem allStored_inductive :
    (exchangeSweeps c H).InductiveOn (SoundStep c H) (AllStored (H := H)) where
  init store h := by
    intro exchange he
    rw [h.1] at he
    exact nomatch he
  step store action store' inv hsound h := by
    cases action with
    | append row =>
      change (if _ then none else some _) = some store' at h
      split at h
      · cases h
      · cases h
        exact inv
    | sweep deps draw =>
      obtain ⟨limit, new, -, rfl, hw⟩ := sweep_written (c := c) h
      intro exchange he a ha
      rcases mem_append.mp he with he | he
      · exact (inv exchange he a ha).append new
      · exact stored_of_known hsound hw (mem_flatMap.mpr ⟨exchange, he, ha⟩)
          (known_of_sound hsound hw he ha)

theorem mem_sweepExchanges {limit : Nat} (hlimit : turnLimit deps = some limit)
    (hfits : (store.turns.filter (inTurnWindow deps)).length ≤ limit) {turn : RawTurn}
    (hturn : turn ∈ store.turns) (hselected : inTurnWindow deps turn = true) :
    ∃ exchange ∈ sweepExchanges c store.turns deps, turn.toDistillTurn ∈ exchange.turns := by
  rw [sweepExchanges, hlimit]
  have hall : (ordered c (store.turns.filter (inTurnWindow deps))).take limit =
      ordered c (store.turns.filter (inTurnWindow deps)) := by
    rw [take_of_length_le]
    rwa [(ordered_perm _).length_eq]
  have hread : turn.toDistillTurn ∈ readTurnWindow c store.turns deps limit := by
    rw [readTurnWindow, hall]
    have hmem := (ordered_perm (c := c) _).mem_iff.mpr (mem_filter.mpr ⟨hturn, hselected⟩)
    exact mem_map.mpr ⟨turn, hmem, rfl⟩
  rw [← turns_buildExchanges (readTurnWindow c store.turns deps limit)] at hread
  exact mem_flatMap.mp hread

/-- A second run over the same turns writes nothing. -/
theorem sweep_again {store'' : Store H.Digest} {draw' : Nat → Uuid}
    (h : runExchangeSweep c H deps draw store = some store')
    (h' : runExchangeSweep c H deps draw' store' = some store'') :
    store''.candidates = store'.candidates := by
  obtain ⟨limit, new, hlimit, rfl, hw⟩ := sweep_written h
  unfold runExchangeSweep at h'
  rw [hlimit] at h'
  obtain ⟨headId, hnothing⟩ := persist_nothing none draw' 0 hw.head
  rw [sweepExchanges, hlimit] at hnothing
  change (persist H draw' 0 (extractExchanges _) _).bind _ = _ at h'
  rw [extractExchanges, hnothing] at h'
  cases h'
  rfl

/-- The runs that commit, with turns appended in between: part rows hang on their own heads and a
repeated run writes nothing; when every run meets `Sound`, all that was extracted is stored and a
run covers all turns it selects. -/
theorem sweeps_store (c : Collation) (H : ContentHash) :
    (∀ store, (exchangeSweeps c H).Reachable store → Linked store ∧
      ∀ deps draw draw' store' store'', sweepStep c H store (.sweep deps draw) = some store' →
        sweepStep c H store' (.sweep deps draw') = some store'' →
        store''.candidates = store'.candidates) ∧
    ∀ store, (exchangeSweeps c H).ReachableOn (SoundStep c H) store → AllStored store ∧
      ∀ deps draw store', Sound c H store deps →
        sweepStep c H store (.sweep deps draw) = some store' →
        ∀ turn ∈ store'.turns, inTurnWindow deps turn = true → Covered store' turn := by
  refine ⟨fun store hreach => ⟨linked_inductive.reachable hreach, ?_⟩,
    fun store hreach => ⟨allStored_inductive.reachable hreach, ?_⟩⟩
  · intro deps draw draw' store' store'' h h'
    exact sweep_again h h'
  · intro deps draw store' hsound h turn hturn hselected
    have hstored : AllStored store' := allStored_inductive.step _ (.sweep deps draw) _
      (allStored_inductive.reachable hreach) hsound h
    obtain ⟨limit, new, hlimit, rfl, -⟩ := sweep_written h
    obtain ⟨exchange, he, hmem⟩ :=
      mem_sweepExchanges (c := c) hlimit (hsound.window limit hlimit) hturn hselected
    have he' : exchange ∈ store.extracted ++ sweepExchanges c store.turns deps :=
      mem_append.mpr (.inr he)
    exact ⟨exchange, he', hmem, hstored exchange he'⟩

end Runs

/-! ## Concrete runs -/

def asciiHash : ContentHash where
  Digest := Str
  toLowerCase s := s.map fun u => if 0x41 ≤ u ∧ u ≤ 0x5A then u + 32 else u
  sha256 s := s

def liveTurn (id : Uuid) (session role : String) (content : Str) (is_human_prompt : Bool) :
    RawTurn where
  id := id
  ns := units "collab"
  session_ref := some (units session)
  session_seq := none
  role := units role
  content := content
  repo := none
  occurred_at := some id
  is_human_prompt := is_human_prompt
  lane_id := none
  distilled_at := none
  retention_tier := .live

/-- Before the first run. -/
def storeOf (turns : List RawTurn) : Store Str := ⟨turns, [], []⟩

theorem beforeSweeps_storeOf (turns : List RawTurn) : beforeSweeps asciiHash (storeOf turns) :=
  ⟨rfl, nodup_nil, fun _ h => nomatch h⟩

def everyTurn : ExchangeSweepDeps := ⟨none, none⟩

def answeredRows : List RawTurn :=
  [liveTurn 1 "s" "user" (units "ship it") true, liveTurn 2 "s" "assistant" (units "done") false]

theorem answered_sound : Sound byUnits asciiHash (storeOf answeredRows) everyTurn := by
  have hcut : sweepExchanges byUnits answeredRows everyTurn =
      [⟨some (liveTurn 1 "s" "user" (units "ship it") true).toDistillTurn,
        [(liveTurn 2 "s" "assistant" (units "done") false).toDistillTurn],
        some (units "s"), .typed⟩] := by
    decide +kernel
  generalize hexchange : (⟨some (liveTurn 1 "s" "user" (units "ship it") true).toDistillTurn,
        [(liveTurn 2 "s" "assistant" (units "done") false).toDistillTurn],
        some (units "s"), .typed⟩ : Exchange) = exchange at hcut
  have hrows : (prepareExchange exchange).length = 1 := by
    rw [← hexchange]
    decide +kernel
  obtain ⟨head, hhead⟩ := length_eq_one_iff.mp hrows
  have hnew : HasNewHead (H := asciiHash) [] [exchange] exchange :=
    ⟨[], [], head, [], rfl, hhead, fun ⟨_, hrow, _⟩ => (nomatch hrow), fun _ h => (nomatch h)⟩
  refine ⟨fun limit hlimit => ?_, ?_, ?_⟩
  · have : turnLimit everyTurn = some 20000 := by decide +kernel
    rw [this] at hlimit
    cases hlimit
    decide +kernel
  · change ∀ a ∈ (sweepExchanges byUnits answeredRows everyTurn).flatMap prepareExchange, _
    intro a ha
    refine ⟨nofun, fun b hb _ => ?_⟩
    change b ∈ (sweepExchanges byUnits answeredRows everyTurn).flatMap prepareExchange at hb
    rw [hcut, flatMap_singleton, hhead, mem_singleton] at ha hb
    rw [ha, hb]
  · change ∀ e ∈ sweepExchanges byUnits answeredRows everyTurn,
      ¬ HasNewHead _ (sweepExchanges byUnits answeredRows everyTurn) e → _
    rw [hcut]
    intro e he hknown
    rw [mem_singleton.mp he] at hknown
    exact absurd hnew hknown

theorem sweeps_store_answered : ∃ store,
    sweepStep byUnits asciiHash (storeOf answeredRows) (.sweep everyTurn fun n => n) = some store ∧
      ∀ turn ∈ store.turns, inTurnWindow everyTurn turn = true → Covered store turn := by
  have hsome : (sweepStep byUnits asciiHash (storeOf answeredRows)
      (.sweep everyTurn fun n => n)).isSome = true := by
    decide +kernel
  obtain ⟨store, h⟩ := Option.isSome_iff_exists.mp hsome
  have hstart : (exchangeSweeps byUnits asciiHash).ReachableOn (SoundStep byUnits asciiHash)
      (storeOf answeredRows) :=
    ⟨_, [], beforeSweeps_storeOf answeredRows, .nil _⟩
  exact ⟨store, h, ((sweeps_store byUnits asciiHash).2 _ hstart).2 _ _ _ answered_sound h⟩

instance {H : ContentHash} (candidates : List (CandidateRow H.Digest))
    (a : PreparedExchangeCandidate) : Decidable (StoredText H candidates a) :=
  inferInstanceAs (Decidable (∃ row ∈ candidates, row.ns = a.ns ∧ row.content = a.content))

instance {H : ContentHash} (store : Store H.Digest) : Decidable (AllStored store) :=
  inferInstanceAs (Decidable (∀ exchange ∈ store.extracted, ∀ a ∈ prepareExchange exchange,
    StoredText H store.candidates a))

/-- An answer of two parts, of which the first is full. -/
def longRows : List RawTurn :=
  [liveTurn 1 "s" "user" (units "go") true,
    liveTurn 2 "s" "assistant" (List.replicate 3915 (unit 'x')) false,
    liveTurn 3 "s" "assistant" (units "b") false]

def grownRun : List SweepAction :=
  [.sweep everyTurn fun n => n, .append (liveTurn 4 "s" "assistant" (units "c") false),
    .sweep everyTurn fun n => n + 2]

def oneTurn : ExchangeSweepDeps := ⟨none, some (Number.ofInt 1)⟩

def twoSessions : List RawTurn :=
  [liveTurn 1 "r" "user" (units "hi") true, liveTurn 2 "s" "user" (units "yo") true]

theorem past_limit {draws : List (Nat → Uuid)} {start store : Store Str}
    (hturns : start.turns = twoSessions)
    (hextracted : ∀ exchange ∈ start.extracted,
      (liveTurn 2 "s" "user" (units "yo") true).toDistillTurn ∉ exchange.turns)
    (h : LTS.exec (sweepStep byUnits asciiHash) start
      (draws.map fun draw => .sweep oneTurn draw) = some store) :
    ∀ exchange ∈ store.extracted,
      (liveTurn 2 "s" "user" (units "yo") true).toDistillTurn ∉ exchange.turns := by
  induction draws generalizing start with
  | nil =>
    cases h
    exact hextracted
  | cons draw draws ih =>
    obtain ⟨next, hsweep, hrest⟩ := Option.bind_eq_some_iff.mp h
    obtain ⟨limit, new, -, rfl, -⟩ := sweep_written hsweep
    refine ih ?_ ?_ hrest
    · exact hturns
    intro exchange he
    have hread : ∀ exchange ∈ sweepExchanges byUnits twoSessions oneTurn,
        (liveTurn 2 "s" "user" (units "yo") true).toDistillTurn ∉ exchange.turns := by
      decide +kernel
    rcases mem_append.mp he with he | he
    · exact hextracted exchange he
    · rw [hturns] at he
      exact hread exchange he

/-- A part that grew under a known head is not stored, and a turn past the limit is covered after
no number of runs. -/
theorem sweeps_lose :
    (∃ store, (exchangeSweeps byUnits asciiHash).Reachable store ∧ ¬ AllStored store) ∧
    ∀ (draws : List (Nat → Uuid)) (store : Store Str),
      LTS.exec (sweepStep byUnits asciiHash) (storeOf twoSessions)
        (draws.map fun draw => .sweep oneTurn draw) = some store →
      ¬ Covered (H := asciiHash) store (liveTurn 2 "s" "user" (units "yo") true) := by
  constructor
  · have hrun : (LTS.exec (sweepStep byUnits asciiHash) (storeOf longRows) grownRun).any
        (fun store => decide (¬ AllStored (H := asciiHash) store)) = true := by
      decide +kernel
    obtain ⟨store, hstore, hlost⟩ := (Option.any_eq_true _ _).mp hrun
    exact ⟨store, ⟨_, grownRun, beforeSweeps_storeOf longRows, LTS.runOn_of_exec_any hstore⟩,
      of_decide_eq_true hlost⟩
  · rintro draws store h ⟨exchange, he, hturn, -⟩
    have hstart : (storeOf twoSessions).turns = twoSessions := rfl
    exact past_limit hstart (fun _ h => nomatch h) h exchange he hturn

end OpenBrain.Server.Distill
