import OpenBrain.Server.Distill.Exchange

/-!
# What extraction keeps

`buildExchanges` is a loop with an open exchange; `Cutting.turns` is what it has seen so far, and a
step adds one turn to it. `renderExchangeParts` packs whole lines, so the lines of its parts, one
part after the other, are the lines of the body.

* `turns_buildExchanges`: the exchanges, one after the other, are the turns.
* `renderExchangeParts_packed`: the parts are packs of whole body lines, each under an opening
  that names the operator's words.
* `extraction_keeps`: both, with what becomes of a head without usable words.
-/
namespace OpenBrain.Server.Distill
open OpenBrain.Core List

/-! ## The cut -/

def openTurns : Option (Option DistillTurn × List DistillTurn) → List DistillTurn
  | none => []
  | some (anchor, body) => anchor.toList ++ body

def Cutting.turns (cutting : Cutting) : List DistillTurn :=
  cutting.exchanges.flatMap Exchange.turns ++ openTurns cutting.current

theorem flush_turns (cutting : Cutting) : cutting.flush.turns = cutting.turns := by
  unfold Cutting.flush Cutting.turns
  cases hcurrent : cutting.current with
  | none => simp [hcurrent]
  | some current => simp [Exchange.turns, openTurns]

theorem flush_current (cutting : Cutting) : cutting.flush.current = none := by
  unfold Cutting.flush
  cases hcurrent : cutting.current with
  | none => exact hcurrent
  | some current => rfl

theorem enter_turns (cutting : Cutting) (session_ref : Option Str) :
    (cutting.enter session_ref).turns = cutting.turns := by
  unfold Cutting.enter
  split
  · rfl
  · exact flush_turns cutting

theorem step_turns (cutting : Cutting) (turn : DistillTurn) :
    (cutting.step turn).turns = cutting.turns ++ [turn] := by
  rw [← enter_turns cutting turn.session_ref]
  unfold Cutting.step
  generalize cutting.enter turn.session_ref = entered
  dsimp only
  split
  · -- the open exchange is written before the turn opens the next one
    rw [← flush_turns entered]
    simp [Cutting.turns, flush_current, openTurns]
  · split
    · rename_i hnone
      simp [Cutting.turns, hnone, openTurns]
    · rename_i hsome
      simp [Cutting.turns, hsome, openTurns]

theorem turns_foldl (turns : List DistillTurn) (cutting : Cutting) :
    (turns.foldl Cutting.step cutting).turns = cutting.turns ++ turns := by
  induction turns generalizing cutting with
  | nil => simp
  | cons turn turns ih => rw [foldl_cons, ih, step_turns, append_assoc]; rfl

/-- The exchanges hold the turns, each once and in the order of the read. -/
theorem turns_buildExchanges (turns : List DistillTurn) :
    (buildExchanges turns).flatMap Exchange.turns = turns := by
  have hflush := flush_turns (turns.foldl Cutting.step Cutting.start)
  rw [turns_foldl, Cutting.turns, flush_current] at hflush
  rw [buildExchanges]
  simpa [openTurns, Cutting.turns, Cutting.start] using hflush

/-- One exchange: turns of one session, of which the head alone is the operator's. -/
structure Exchange.Cut (exchange : Exchange) : Prop where
  session : ∀ turn ∈ exchange.turns, turn.session_ref = exchange.session_ref
  anchor : ∀ turn, exchange.anchor = some turn → isOperatorTurn turn = true
  body : ∀ turn ∈ exchange.body, isOperatorTurn turn = false
  kind : exchange.anchor_kind = anchorKindOf exchange.anchor
  some_turn : exchange.turns ≠ []

/-- The loop between two turns: what it has written and what it holds open. -/
structure Cutting.Inv (cutting : Cutting) : Prop where
  written : ∀ exchange ∈ cutting.exchanges, exchange.Cut
  held : ∀ anchor body, cutting.current = some (anchor, body) →
    (⟨anchor, body, cutting.currentSession, anchorKindOf anchor⟩ : Exchange).Cut

theorem Cutting.Inv.flush {cutting : Cutting} (inv : cutting.Inv) : cutting.flush.Inv := by
  unfold Cutting.flush
  cases hcurrent : cutting.current with
  | none => exact inv
  | some current =>
    refine ⟨fun exchange he => ?_, fun _ _ h => nomatch h⟩
    rcases mem_append.mp he with he | he
    · exact inv.written exchange he
    · rw [mem_singleton.mp he]
      exact inv.held _ _ hcurrent

theorem Cutting.Inv.enter {cutting : Cutting} (inv : cutting.Inv) (session_ref : Option Str) :
    (cutting.enter session_ref).Inv := by
  unfold Cutting.enter
  split
  · exact inv
  · refine ⟨inv.flush.written, fun anchor body h => ?_⟩
    have : cutting.flush.current = some (anchor, body) := h
    rw [flush_current] at this
    exact nomatch this

theorem enter_session (cutting : Cutting) (session_ref : Option Str) :
    (cutting.enter session_ref).currentSession = session_ref := by
  unfold Cutting.enter
  split
  · rename_i h
    exact (of_decide_eq_true ((Bool.and_eq_true _ _).mp h).2).symm
  · rfl

theorem Cutting.Inv.step {cutting : Cutting} (inv : cutting.Inv) (turn : DistillTurn) :
    (cutting.step turn).Inv := by
  have hentered := inv.enter turn.session_ref
  have hsession := enter_session cutting turn.session_ref
  unfold Cutting.step
  generalize cutting.enter turn.session_ref = entered at hentered hsession
  dsimp only
  split
  · rename_i hoperator
    have hflushed : entered.flush.currentSession = turn.session_ref := by
      unfold Cutting.flush
      split <;> exact hsession
    refine ⟨hentered.flush.written, fun anchor body h => ?_⟩
    cases h
    refine ⟨?_, ?_, nofun, rfl, by simp [Exchange.turns]⟩
    · simp [Exchange.turns, hflushed]
    · intro t ht
      cases ht
      exact hoperator
  · rename_i hagent
    have hagent := Bool.eq_false_iff.mpr hagent
    split
    · rename_i hnone
      refine ⟨hentered.written, fun anchor body h => ?_⟩
      cases h
      refine ⟨?_, nofun, ?_, rfl, by simp [Exchange.turns]⟩
      · simp [Exchange.turns, hsession]
      · simpa using hagent
    · rename_i anchor body hsome
      have hheld := hentered.held _ _ hsome
      refine ⟨hentered.written, fun anchor' body' h => ?_⟩
      cases h
      refine ⟨?_, hheld.anchor, ?_, rfl, by simp [Exchange.turns]⟩
      · intro t ht
        simp only [Exchange.turns, ← append_assoc, mem_append, mem_singleton] at ht
        rcases ht with ht | rfl
        · exact hheld.session t (mem_append.mpr ht)
        · exact hsession.symm
      · intro t ht
        rcases mem_append.mp ht with ht | ht
        · exact hheld.body t ht
        · rw [mem_singleton.mp ht]
          exact hagent

theorem Cutting.Inv.foldl {cutting : Cutting} (inv : cutting.Inv) (turns : List DistillTurn) :
    (turns.foldl Cutting.step cutting).Inv := by
  induction turns generalizing cutting with
  | nil => exact inv
  | cons turn turns ih => exact ih (inv.step turn)

theorem cut_buildExchanges {turns : List DistillTurn} {exchange : Exchange}
    (h : exchange ∈ buildExchanges turns) : exchange.Cut :=
  have start : Cutting.start.Inv := ⟨nofun, fun _ _ h => nomatch h⟩
  (start.foldl turns).flush.written exchange h

/-! ## The parts -/

def partBody (lines : List Str) : Str := joinSep [unit '\n'] lines

/-- The loop packs what it holds and what is to come, in whole lines and in order. -/
theorem packLines_packs (budget : Nat) (lines current : List Str) (used : Nat)
    (hused : 0 < used → current ≠ []) :
    ∃ packs : List (List Str), packLines budget lines current used = packs.map partBody ∧
      packs.flatten = current ++ lines ∧ [] ∉ packs := by
  induction lines generalizing current used with
  | nil =>
    unfold packLines
    split
    · rename_i hnil
      exact ⟨[], rfl, by simp [hnil], nofun⟩
    · rename_i hne
      exact ⟨[current], rfl, by simp, by simpa using Ne.symm hne⟩
  | cons line lines ih =>
    unfold packLines
    split
    · rename_i hfull
      obtain ⟨packs, hpacks, hflat, hne⟩ := ih [line] (line.length + 1) fun _ => by simp
      refine ⟨current :: packs, congrArg (_ :: ·) hpacks, by simp [hflat], ?_⟩
      rw [mem_cons, not_or]
      exact ⟨Ne.symm (hused hfull.1), hne⟩
    · obtain ⟨packs, hpacks, hflat, hne⟩ := ih (current ++ [line]) (used + line.length + 1)
        fun _ => by simp
      exact ⟨packs, hpacks, by simpa using hflat, hne⟩

/-- What stands before the lines of part `index` of `count`: the head in full on the first part,
the head again or a reference to it on the others. -/
def partOpening (exchange : Exchange) (count index : Nat) : Str :=
  if count = 1 then headLineOf exchange ++ units "\n\n"
  else
    (if index = 0 then headLineOf exchange else continuationHeadOf exchange) ++ units "\n\n" ++
      partMarker index count ++ units "\n"

theorem renderExchangeParts_many {exchange : Exchange} (h : bodyLinesOf exchange ≠ [])
    (hmany : (packBodyLines (bodyLinesOf exchange) (partBudget exchange)).length ≠ 1) :
    renderExchangeParts exchange =
      (packBodyLines (bodyLinesOf exchange) (partBudget exchange)).mapIdx fun index body =>
        (if index = 0 then headLineOf exchange else continuationHeadOf exchange) ++
          units "\n\n" ++ partMarker index
            (packBodyLines (bodyLinesOf exchange) (partBudget exchange)).length ++
          units "\n" ++ body := by
  rw [renderExchangeParts, if_neg h]
  split
  · rename_i hpart
    exact absurd (congrArg List.length hpart) hmany
  · rfl

/-- The texts of an exchange with a body: packs of whole lines under their openings. -/
theorem renderExchangeParts_packed {exchange : Exchange} (h : bodyLinesOf exchange ≠ []) :
    ∃ packs : List (List Str), packs.flatten = bodyLinesOf exchange ∧ [] ∉ packs ∧ packs ≠ [] ∧
      renderExchangeParts exchange =
        packs.mapIdx fun index lines => partOpening exchange packs.length index ++ partBody lines := by
  obtain ⟨packs, hpacks, hflat, hne⟩ := packLines_packs (partBudget exchange)
    (bodyLinesOf exchange) [] 0 nofun
  have hsome : packs ≠ [] := by
    rintro rfl
    exact h hflat.symm
  refine ⟨packs, hflat, hne, hsome, ?_⟩
  by_cases hone : packs.length = 1
  · obtain ⟨lines, rfl⟩ := length_eq_one_iff.mp hone
    rw [renderExchangeParts, if_neg h, packBodyLines, hpacks]
    simp [partOpening]
  · have hmany : (packBodyLines (bodyLinesOf exchange) (partBudget exchange)).length ≠ 1 := by
      rw [packBodyLines, hpacks, length_map]
      exact hone
    rw [renderExchangeParts_many h hmany, packBodyLines, hpacks]
    refine ext_getElem? fun index => ?_
    simp only [getElem?_mapIdx, getElem?_map, Option.map_map, length_map,
      partOpening, if_neg hone, Function.comp_def]

theorem renderExchangeParts_empty {exchange : Exchange} (h : bodyLinesOf exchange = []) :
    renderExchangeParts exchange = [headLineOf exchange] := by
  rw [renderExchangeParts, if_pos h]

/-- Every text opens with the operator's line, so none of them is blank. -/
theorem headLineOf_operator (exchange : Exchange) : units "OPERATOR" <+: headLineOf exchange := by
  unfold headLineOf
  dsimp only
  split
  · exact ⟨_, rfl⟩
  · split
    · exact ⟨_, rfl⟩
    · exact ⟨units ": " ++ _, rfl⟩

theorem continuationHeadOf_operator (exchange : Exchange) :
    units "OPERATOR" <+: continuationHeadOf exchange := by
  unfold continuationHeadOf
  dsimp only
  split
  · exact ⟨units " (continued): " ++ _, rfl⟩
  · exact headLineOf_operator exchange

theorem partOpening_operator (exchange : Exchange) (count index : Nat) :
    units "OPERATOR" <+: partOpening exchange count index := by
  unfold partOpening
  split
  · exact (headLineOf_operator exchange).trans (prefix_append ..)
  · split
    · simp only [append_assoc]
      exact (headLineOf_operator exchange).trans (prefix_append ..)
    · simp only [append_assoc]
      exact (continuationHeadOf_operator exchange).trans (prefix_append ..)

theorem renderExchangeParts_operator {exchange : Exchange} {part : Str}
    (h : part ∈ renderExchangeParts exchange) : units "OPERATOR" <+: part := by
  by_cases hbody : bodyLinesOf exchange = []
  · rw [renderExchangeParts_empty hbody, mem_singleton] at h
    rw [h]
    exact headLineOf_operator exchange
  · obtain ⟨packs, -, -, -, hparts⟩ := renderExchangeParts_packed hbody
    rw [hparts, mem_mapIdx] at h
    obtain ⟨index, hindex, rfl⟩ := h
    exact (partOpening_operator exchange packs.length index).trans (prefix_append ..)

theorem trim_of_operator {part : Str} (h : units "OPERATOR" <+: part) : Ecma.trim part ≠ [] := by
  obtain ⟨rest, rfl⟩ := h
  have hstart : (units "OPERATOR" ++ rest).dropWhile Ecma.isSpace = units "OPERATOR" ++ rest := rfl
  intro htrim
  rw [Ecma.trim, hstart, reverse_eq_nil_iff, dropWhile_eq_nil_iff] at htrim
  have hletter := htrim (unit 'O') (by simp [units, unit])
  exact absurd hletter (by decide)

theorem renderExchangeParts_ne_nil (exchange : Exchange) : renderExchangeParts exchange ≠ [] := by
  by_cases hbody : bodyLinesOf exchange = []
  · rw [renderExchangeParts_empty hbody]
    exact cons_ne_nil _ _
  · obtain ⟨packs, -, -, hne, hparts⟩ := renderExchangeParts_packed hbody
    rw [hparts]
    simpa using hne

/-! ## The rows -/

/-- The head has words of the operator's. -/
def Exchange.Anchored (exchange : Exchange) : Prop :=
  ∃ anchor, exchange.anchor = some anchor ∧ operatorTextOf anchor ≠ [] ∧
    isHarnessNoise (operatorTextOf anchor) = false

theorem effectiveExchange_anchored {exchange : Exchange} (h : exchange.Anchored) :
    effectiveExchange exchange = exchange := by
  obtain ⟨anchor, hanchor, hne, hnoise⟩ := h
  simp [effectiveExchange, hanchor, hne, hnoise]

theorem effectiveExchange_unanchored {exchange : Exchange} (h : ¬ exchange.Anchored) :
    (effectiveExchange exchange).anchor = none := by
  unfold effectiveExchange
  split
  · assumption
  · rename_i anchor hanchor
    dsimp only
    split
    · rename_i husable
      rw [Bool.and_eq_true, decide_eq_true_eq, Bool.not_eq_true'] at husable
      exact absurd ⟨anchor, hanchor, husable.1, husable.2⟩ h
    · rfl

@[simp] theorem effectiveExchange_body (exchange : Exchange) :
    (effectiveExchange exchange).body = exchange.body := by
  unfold effectiveExchange
  split
  · rfl
  · dsimp only
    split <;> rfl

@[simp] theorem effectiveExchange_session (exchange : Exchange) :
    (effectiveExchange exchange).session_ref = exchange.session_ref := by
  unfold effectiveExchange
  split
  · rfl
  · dsimp only
    split <;> rfl

theorem bodyLinesOf_effective (exchange : Exchange) :
    bodyLinesOf (effectiveExchange exchange) = bodyLinesOf exchange := by
  rw [bodyLinesOf, effectiveExchange_body, bodyLinesOf]

/-- There is something to write: words of the operator's, or of what followed. -/
def Exchange.HasText (exchange : Exchange) : Prop :=
  exchange.Anchored ∨ bodyLinesOf exchange ≠ []

theorem bodyLinesOf_nil_iff (exchange : Exchange) : bodyLinesOf exchange = [] ↔
    (exchange.body.any fun turn => normalizeWhitespace turn.content ≠ []) = false := by
  rw [bodyLinesOf, filterMap_eq_nil_iff, any_eq_false]
  refine forall₂_congr fun turn _ => ?_
  dsimp only
  split <;> simp_all

/-- The namespace of the rows: the head's, or that of the first turn that followed. -/
def rowsNamespace (exchange : Exchange) : Option Str :=
  (exchange.anchor.map fun anchor => anchor.ns).or (exchange.body.head?.map fun turn => turn.ns)

theorem prepareExchange_nothing {exchange : Exchange} (h : ¬ exchange.HasText) :
    prepareExchange exchange = [] := by
  rw [Exchange.HasText, not_or, not_not, bodyLinesOf_nil_iff] at h
  rw [prepareExchange]
  dsimp only
  rw [effectiveExchange_unanchored h.1, effectiveExchange_body, h.2]
  rfl

theorem prepareExchange_rows {exchange : Exchange} (h : exchange.HasText) :
    ∃ ns, rowsNamespace (effectiveExchange exchange) = some ns ∧
      prepareExchange exchange = candidateRowsOf (effectiveExchange exchange)
        (renderExchangeParts (effectiveExchange exchange)) ns
        ((effectiveExchange exchange).anchor.map operatorTextOf) := by
  have hsome : ∃ ns, rowsNamespace (effectiveExchange exchange) = some ns ∧
      sourceTurnIdsOf (effectiveExchange exchange) ≠ [] ∧
      ((effectiveExchange exchange).anchor.isNone && !((effectiveExchange exchange).body.any
        fun turn => normalizeWhitespace turn.content ≠ [])) = false := by
    by_cases hanchored : exchange.Anchored
    · rw [effectiveExchange_anchored hanchored]
      obtain ⟨anchor, hanchor, -⟩ := hanchored
      exact ⟨anchor.ns, by simp [rowsNamespace, hanchor], by simp [sourceTurnIdsOf, hanchor],
        by simp [hanchor]⟩
    · have hbody := h.resolve_left hanchored
      rw [Ne, bodyLinesOf_nil_iff, Bool.not_eq_false] at hbody
      have hanchor := effectiveExchange_unanchored hanchored
      rw [rowsNamespace, sourceTurnIdsOf, effectiveExchange_body, hanchor, hbody]
      cases hturns : exchange.body with
      | nil => simp [hturns] at hbody
      | cons turn turns => exact ⟨turn.ns, rfl, by simp, rfl⟩
  obtain ⟨ns, hns, hids, htext⟩ := hsome
  refine ⟨ns, hns, ?_⟩
  have hparts : (renderExchangeParts (effectiveExchange exchange)).filter
      (fun part => Ecma.trim part ≠ []) = renderExchangeParts (effectiveExchange exchange) := by
    rw [filter_eq_self]
    intro part hpart
    exact decide_eq_true (trim_of_operator (renderExchangeParts_operator hpart))
  rw [prepareExchange]
  dsimp only
  rw [htext, if_neg Bool.false_ne_true, hparts, if_neg (renderExchangeParts_ne_nil _)]
  rw [rowsNamespace] at hns
  rw [hns]
  dsimp only
  rw [if_neg hids]

/-! ## What extraction keeps -/

structure Exchange.Kept (exchange : Exchange) : Prop where
  /-- Only an exchange without any text is not written. -/
  written : prepareExchange exchange = [] ↔ ¬ exchange.HasText
  /-- The first row opens with the operator's words, in full. -/
  words : ∀ anchor, exchange.anchor = some anchor → exchange.Anchored →
    ∃ row rows, prepareExchange exchange = row :: rows ∧
      units "OPERATOR: " ++ operatorTextOf anchor <+: row.content ∧
      row.operator_text = some (operatorTextOf anchor)
  /-- The rows hold the texts of the body, each whole and once, in order. -/
  body : bodyLinesOf exchange ≠ [] → ∃ packs : List (List Str),
    packs.flatten = bodyLinesOf exchange ∧ [] ∉ packs ∧
    (prepareExchange exchange).map (fun row => row.content) = packs.mapIdx fun index lines =>
      partOpening (effectiveExchange exchange) packs.length index ++ partBody lines
  /-- A head alone is its line. -/
  alone : bodyLinesOf exchange = [] → exchange.Anchored →
    (prepareExchange exchange).map (fun row => row.content) = [headLineOf exchange]
  /-- Every row names all turns; a head without usable words is not among them. -/
  named : ∀ row ∈ prepareExchange exchange,
    row.source_turn_ids = (effectiveExchange exchange).turns.map (fun turn => turn.id) ∧
      row.session_ref = exchange.session_ref
  /-- The rows are of the turns' namespace, where the turns have one. -/
  ns : ∀ ns, (∀ turn ∈ exchange.turns, turn.ns = ns) → ∀ row ∈ prepareExchange exchange, row.ns = ns

theorem contents_candidateRowsOf (effective : Exchange) (contents : List Str) (ns : Str)
    (operatorText : Option Str) :
    (candidateRowsOf effective contents ns operatorText).map (fun row => row.content) =
      contents := by
  refine ext_getElem? fun index => ?_
  simp [candidateRowsOf, Function.comp_def]

theorem contents_prepareExchange {exchange : Exchange} (h : exchange.HasText) :
    (prepareExchange exchange).map (fun row => row.content) =
      renderExchangeParts (effectiveExchange exchange) := by
  obtain ⟨ns, -, hrows⟩ := prepareExchange_rows h
  rw [hrows, contents_candidateRowsOf]

theorem prepareExchange_nil_iff (exchange : Exchange) :
    prepareExchange exchange = [] ↔ ¬ exchange.HasText := by
  refine ⟨fun hnil htext => ?_, prepareExchange_nothing⟩
  have hcontents := contents_prepareExchange htext
  rw [hnil] at hcontents
  exact renderExchangeParts_ne_nil _ hcontents.symm

theorem hasText_of_mem {exchange : Exchange} {row : PreparedExchangeCandidate}
    (h : row ∈ prepareExchange exchange) : exchange.HasText := by
  by_contra hnone
  rw [prepareExchange_nothing hnone] at h
  exact nomatch h

theorem headLineOf_first (exchange : Exchange) :
    ∃ first rest, renderExchangeParts exchange = first :: rest ∧ headLineOf exchange <+: first := by
  by_cases hbody : bodyLinesOf exchange = []
  · exact ⟨_, _, renderExchangeParts_empty hbody, prefix_rfl⟩
  · obtain ⟨packs, -, -, hne, hparts⟩ := renderExchangeParts_packed hbody
    obtain ⟨lines, packs, rfl⟩ := exists_cons_of_ne_nil hne
    rw [mapIdx_cons] at hparts
    refine ⟨_, _, hparts, ?_⟩
    unfold partOpening
    split
    · simp only [append_assoc]
      exact prefix_append ..
    · rw [if_pos rfl]
      simp only [append_assoc]
      exact prefix_append ..

theorem headLineOf_words {exchange : Exchange} {anchor : DistillTurn}
    (h : exchange.anchor = some anchor) (hwords : operatorTextOf anchor ≠ []) :
    headLineOf exchange = units "OPERATOR: " ++ operatorTextOf anchor := by
  simp [headLineOf, h, hwords]

theorem kept_words {exchange : Exchange} {anchor : DistillTurn} (h : exchange.anchor = some anchor)
    (hanchored : exchange.Anchored) : ∃ row rows, prepareExchange exchange = row :: rows ∧
      units "OPERATOR: " ++ operatorTextOf anchor <+: row.content ∧
      row.operator_text = some (operatorTextOf anchor) := by
  have hwords : operatorTextOf anchor ≠ [] := by
    obtain ⟨anchor', hanchor', hne, -⟩ := hanchored
    rw [h, Option.some.injEq] at hanchor'
    exact hanchor' ▸ hne
  obtain ⟨ns, -, hrows⟩ := prepareExchange_rows (.inl hanchored)
  obtain ⟨first, rest, hparts, hhead⟩ := headLineOf_first exchange
  rw [effectiveExchange_anchored hanchored, hparts, candidateRowsOf, mapIdx_cons] at hrows
  rw [headLineOf_words h hwords] at hhead
  exact ⟨_, _, hrows, hhead, by simp [h]⟩

theorem kept_named {exchange : Exchange} {row : PreparedExchangeCandidate}
    (h : row ∈ prepareExchange exchange) :
    row.source_turn_ids = (effectiveExchange exchange).turns.map (fun turn => turn.id) ∧
      row.session_ref = exchange.session_ref := by
  obtain ⟨ns, -, hrows⟩ := prepareExchange_rows (hasText_of_mem h)
  rw [hrows, candidateRowsOf, mem_mapIdx] at h
  obtain ⟨index, hindex, rfl⟩ := h
  refine ⟨?_, effectiveExchange_session exchange⟩
  simp [sourceTurnIdsOf, Exchange.turns]

theorem mem_effective_turns {exchange : Exchange} {turn : DistillTurn}
    (h : turn ∈ (effectiveExchange exchange).turns) : turn ∈ exchange.turns := by
  by_cases hanchored : exchange.Anchored
  · rwa [effectiveExchange_anchored hanchored] at h
  · rw [Exchange.turns, effectiveExchange_unanchored hanchored, effectiveExchange_body] at h
    exact mem_append.mpr (.inr h)

theorem exists_of_rowsNamespace {exchange : Exchange} {ns : Str}
    (h : rowsNamespace exchange = some ns) : ∃ turn ∈ exchange.turns, turn.ns = ns := by
  unfold rowsNamespace at h
  unfold Exchange.turns
  cases hanchor : exchange.anchor with
  | some anchor =>
    rw [hanchor] at h
    exact ⟨anchor, by simp, Option.some.inj h⟩
  | none =>
    rw [hanchor, Option.map_none, Option.none_or, Option.map_eq_some_iff] at h
    obtain ⟨turn, hturn, hns⟩ := h
    exact ⟨turn, by simpa using mem_of_mem_head? hturn, hns⟩

theorem kept_ns {exchange : Exchange} {ns : Str} (h : ∀ turn ∈ exchange.turns, turn.ns = ns)
    {row : PreparedExchangeCandidate} (hrow : row ∈ prepareExchange exchange) : row.ns = ns := by
  obtain ⟨ns', hns, hrows⟩ := prepareExchange_rows (hasText_of_mem hrow)
  rw [hrows, candidateRowsOf, mem_mapIdx] at hrow
  obtain ⟨index, hindex, rfl⟩ := hrow
  obtain ⟨turn, hturn, rfl⟩ := exists_of_rowsNamespace hns
  exact h turn (mem_effective_turns hturn)

theorem kept (exchange : Exchange) : exchange.Kept where
  written := prepareExchange_nil_iff exchange
  words _ h hanchored := kept_words h hanchored
  body hbody := by
    rw [contents_prepareExchange (.inr hbody), ← bodyLinesOf_effective]
    rw [← bodyLinesOf_effective] at hbody
    obtain ⟨packs, hflat, hne, -, hparts⟩ := renderExchangeParts_packed hbody
    exact ⟨packs, hflat, hne, hparts⟩
  alone hbody hanchored := by
    rw [contents_prepareExchange (.inl hanchored), effectiveExchange_anchored hanchored,
      renderExchangeParts_empty hbody]
  named _ h := kept_named h
  ns _ h _ hrow := kept_ns h hrow

/-- The answers of an AskUserQuestion head whose punctuation the scan can tell: each is written
whole, before the question it answers. -/
def KeepsAnswers (anchor : DistillTurn) : Prop :=
  ∀ pairs : List AuqPair, pairs ≠ [] → (∀ pair ∈ pairs, pair.Plain) →
    auqBodyOf anchor.content = some (printPairs pairs) →
    operatorTextOf anchor = normalizeWhitespace (
      units "[AskUserQuestion -- the operator chose from options the agent offered]\n" ++
        joinSep (units "\n\n") (pairs.map auqBlock))

theorem keepsAnswers {anchor : DistillTurn} (h : isAskUserQuestionAnswer anchor = true) :
    KeepsAnswers anchor := by
  intro pairs hne hplain hbody
  rw [operatorTextOf, if_pos h, renderAskUserQuestionHead, parse_printed hplain hbody]
  cases pairs with
  | nil => exact absurd rfl hne
  | cons pair pairs => rfl

/-- Extraction: the turns are cut into exchanges without loss, each of one session, and each
exchange is written as `Exchange.Kept` says. -/
theorem extraction_keeps (turns : List DistillTurn) :
    (buildExchanges turns).flatMap Exchange.turns = turns ∧
      extractExchanges turns = (buildExchanges turns).flatMap prepareExchange ∧
      ∀ exchange ∈ buildExchanges turns, exchange.Cut ∧ exchange.Kept ∧
        ∀ anchor, exchange.anchor = some anchor → isAskUserQuestionAnswer anchor = true →
          KeepsAnswers anchor :=
  ⟨turns_buildExchanges turns, rfl, fun exchange h =>
    ⟨cut_buildExchanges h, kept exchange, fun _ _ hanswer => keepsAnswers hanswer⟩⟩

/-! ## On two turns -/

def plainTurn (id : Uuid) (role content : String) (is_human_prompt : Bool) : DistillTurn where
  id := id
  ns := units "collab"
  session_ref := some (units "s1")
  session_seq := none
  role := units role
  content := units content
  repo := none
  occurred_at := some id
  is_human_prompt := is_human_prompt

def answeredTurns : List DistillTurn :=
  [plainTurn 1 "user" "ship  it" true, plainTurn 2 "assistant" "done" false]

theorem extraction_keeps_answered : ∃ row rows,
    prepareExchange ⟨some (plainTurn 1 "user" "ship  it" true),
      [plainTurn 2 "assistant" "done" false], some (units "s1"), .typed⟩ = row :: rows ∧
    units "OPERATOR: " ++ operatorTextOf (plainTurn 1 "user" "ship  it" true) <+: row.content := by
  have hkept := ((extraction_keeps answeredTurns).2.2
    ⟨some (plainTurn 1 "user" "ship  it" true), [plainTurn 2 "assistant" "done" false],
      some (units "s1"), .typed⟩ (by decide)).2.1
  obtain ⟨row, rows, hrows, hwords, -⟩ := hkept.words _ rfl ⟨_, rfl, by decide, by decide⟩
  exact ⟨row, rows, hrows, hwords⟩

/-- The harness's own words in the operator's place. -/
def interruptedTurns : List DistillTurn :=
  [plainTurn 1 "user" "[Request interrupted by user]" true, plainTurn 2 "assistant" "ok" false]

/-- The head is dropped: no row names its turn, and none holds its words. -/
theorem noise_head_dropped :
    ¬ (∀ turn ∈ interruptedTurns, ∃ row ∈ extractExchanges interruptedTurns,
      turn.id ∈ row.source_turn_ids) ∧
    ¬ (∀ exchange ∈ buildExchanges interruptedTurns, ∀ anchor ∈ exchange.anchor,
      ∃ row ∈ prepareExchange exchange, operatorTextOf anchor <:+: row.content) := by
  decide +kernel

end OpenBrain.Server.Distill
