import OpenBrain.Server.Entries.Curation
import Mathlib.Data.Fintype.Defs

/-!
# A successful write is live exactly once

`log_thought` and `log_decision` upsert on the hash of a text. Other operations key rows by other
hashes, archive rows and rewrite hashes; the index covers all of them.

**Results.** `live_once`: while every live row stays keyed by the plain hash of its own text, no
text is logged that an archived row holds, and each call passes again the tags passed for its text
before (`Op.Guard`), the answered row is the only live one with the text, and carries those tags.
-/
namespace OpenBrain.Server.Entries
open OpenBrain.Core OpenBrain.Core.Table OpenBrain.Server.Embedding List

/-! ## The operations -/

inductive LogTable where
  | thoughts | decisions
deriving DecidableEq, Repr

/-- A call of one of the two logging tools; `text` is what it hashes. -/
structure LogCall where
  table : LogTable
  id : Str
  ns : Str
  text : Str
  tags : List Str
deriving DecidableEq, Repr

def Call.log? : Call → Option LogCall
  | .log_thought id ns content tags => some ⟨.thoughts, id, ns, content, tags.getD []⟩
  | .log_decision id ns args =>
    some ⟨.decisions, id, ns, decisionCanonicalText args.source, args.tags.getD []⟩
  | _ => none

inductive Op (D : Type) where
  | call (c : Call)
  | archive_entry (table : LogTable) (id : Str) (deletable : List Str)
  | graduate (id ns content : Str) (tags : List Str) (event_hash : Option D)
    (embedding : Option Str)
  | repairThought (currentModel : Str) (scope : RepairScope) (candidate : Row ThoughtCols D)
  | repairDecision (currentModel : Str) (scope : RepairScope) (candidate : Row DecisionSource D)

/-- Tags passed for a text, to the row answered. -/
structure Given where
  table : LogTable
  id : Str
  text : Str
  tags : List Str
deriving DecidableEq, Repr

structure Answer where
  table : LogTable
  ns : Str
  text : Str
  id : Str
deriving DecidableEq, Repr

structure State (D : Type) [DecidableEq D] where
  store : Store D
  /-- What the logging calls passed for each row since it was created. -/
  given : List Given
  /-- The answer of the last logging call, until an operation other than a chunk write. -/
  answered : Option Answer

section
variable (H : ContentHash) (model : Option Str)

def holderOf {C : Type} (hash : H.Digest) (ns : Str) (rows : List (Row C H.Digest)) : Option Str :=
  (rows.find? (sameHash H hash ns)).map (·.id)

def holder (s : Store H.Digest) (l : LogCall) : Option Str :=
  match l.table with
  | .thoughts => holderOf H (contentHash H l.text) l.ns s.thoughts.rows
  | .decisions => holderOf H (contentHash H l.text) l.ns s.decisions.rows

def LogCall.answer (l : LogCall) (holder : Option Str) : Answer :=
  ⟨l.table, l.ns, l.text, holder.getD l.id⟩

/-- A row that is created has no history. -/
def LogCall.record (l : LogCall) (given : List Given) : Option Str → List Given
  | some id => given ++ [⟨l.table, id, l.text, l.tags⟩]
  | none => given.filter (fun g => !(g.table = l.table && g.id = l.id))
      ++ [⟨l.table, l.id, l.text, l.tags⟩]

def Op.step (s : State H.Digest) : Op H.Digest → Option (State H.Digest)
  | .call c => (Store.step H model s.store c).map fun store =>
    match c.log? with
    | some l =>
      { store := store
        given := l.record s.given (holder H s.store l)
        answered := some (l.answer (holder H s.store l)) }
    | none =>
      { s with
        store := store
        answered := match c with
          | .insertChunkRow .. => s.answered
          | _ => none }
  | .archive_entry .thoughts id deletable => (archiveRows [id] deletable s.store.thoughts).map
    fun t => { s with store := { s.store with thoughts := t }, answered := none }
  | .archive_entry .decisions id deletable => (archiveRows [id] deletable s.store.decisions).map
    fun t => { s with store := { s.store with decisions := t }, answered := none }
  | .graduate id ns content tags event_hash embedding =>
    (upsertGraduatedThought H model id ns content tags event_hash embedding s.store.thoughts).map
      fun t => { s with store := { s.store with thoughts := t }, answered := none }
  | .repairThought currentModel scope candidate =>
    (repairRows H .thoughts currentModel scope candidate s.store.thoughts).map
      fun t => { s with store := { s.store with thoughts := t }, answered := none }
  | .repairDecision currentModel scope candidate =>
    (repairRows H .decisions currentModel scope candidate s.store.decisions).map
      fun t => { s with store := { s.store with decisions := t }, answered := none }

/-! ## The property -/

section
variable {H} {C : Type} (T : EmbeddingTarget C) (tagsOf : C → List Str)

/-- A live row of the namespace with the text. -/
def Holds (ns text : Str) (r : Row C H.Digest) : Prop :=
  r.ns = ns ∧ r.archived = false ∧ T.hashInput r.cols = text

/-- The answered row is the one live row with the text, with every tag passed for it. -/
def LiveOnce (rows : List (Row C H.Digest)) (given : List Given) (a : Answer) : Prop :=
  ∃ r ∈ rows, Holds T a.ns a.text r ∧ r.id = a.id ∧
    (∀ q ∈ rows, Holds T a.ns a.text q → q = r) ∧
    ∀ g ∈ given, g.table = a.table → g.id = a.id → g.text = a.text →
      ∀ tag ∈ g.tags, tag ∈ tagsOf r.cols

end

def State.LiveOnce (s : State H.Digest) (a : Answer) : Prop :=
  match a.table with
  | .thoughts => Entries.LiveOnce .thoughts ThoughtCols.tags s.store.thoughts.rows s.given a
  | .decisions => Entries.LiveOnce .decisions DecisionSource.tags s.store.decisions.rows s.given a

/-! ## The condition -/

/-- The row that holds a call's hash is live and has the text under the call's tags, and no tag
passed for the text before is left out. -/
def LogFits {C : Type} (T : EmbeddingTarget C) (setTags : C → C) (l : LogCall)
    (given : List Given) (rows : List (Row C H.Digest)) : Prop :=
  ∀ r ∈ rows, sameHash H (contentHash H l.text) l.ns r = true →
    r.archived = false ∧ T.hashInput (setTags r.cols) = l.text ∧
    ∀ g ∈ given, g.table = l.table → g.id = r.id → g.text = l.text → ∀ tag ∈ g.tags, tag ∈ l.tags

/-- A repair that lands stores the plain hash of the row's text. -/
def RepairFits {C : Type} (T : EmbeddingTarget C) (candidate : Row C H.Digest)
    (rows : List (Row C H.Digest)) : Prop :=
  ∀ r ∈ rows, T.guardMatches H candidate r = true →
    normalized H (T.hashInput candidate.cols) = T.hashInput r.cols

def Op.Guard (s : State H.Digest) : Op H.Digest → Prop
  | .call (.log_thought id ns content tags) =>
    LogFits H .thoughts (fun c => { c with tags := tags.getD [] })
      ⟨.thoughts, id, ns, content, tags.getD []⟩ s.given s.store.thoughts.rows
  | .call (.log_decision id ns args) =>
    LogFits H .decisions (fun c => { c with tags := args.tags.getD [] })
      ⟨.decisions, id, ns, decisionCanonicalText args.source, args.tags.getD []⟩ s.given
      s.store.decisions.rows
  | .call (.insertChunkRow _ ns text _ _) =>
    s.store.thoughts.rows.any (sameHash H (normalizedContentHash H text) ns) = true ∨ Plain H text
  | .call _ => True
  | .archive_entry .. => True
  | .graduate _ ns content _ event_hash _ =>
    s.store.thoughts.rows.any (sameHash H (graduationHash H event_hash content) ns) = true ∨
      graduationHash H event_hash content = contentHash H content
  | .repairThought _ _ candidate => RepairFits H .thoughts candidate s.store.thoughts.rows
  | .repairDecision _ _ candidate => RepairFits H .decisions candidate s.store.decisions.rows

/-! ## What keeps rows keyed by their own text -/

section
variable {H} {model} {C : Type} {T : EmbeddingTarget C}

/-- Every live row is keyed by the plain hash of its text. -/
def RawKeyed (T : EmbeddingTarget C) (rows : List (Row C H.Digest)) : Prop :=
  ∀ r ∈ rows, r.archived = false → r.content_hash = some (contentHash H (T.hashInput r.cols))

theorem sameHash_iff {hash : H.Digest} {ns : Str} {r : Row C H.Digest} :
    sameHash H hash ns r = true ↔ r.content_hash = some hash ∧ r.ns = ns := by
  simp only [sameHash, Bool.and_eq_true, decide_eq_true_eq]

theorem hashKey_of_same {hash : H.Digest} {ns : Str} {r : Row C H.Digest}
    (h : sameHash H hash ns r = true) : hashKey r = some (hash, ns) := by
  obtain ⟨hh, hns⟩ := sameHash_iff.mp h
  rw [hashKey, hh, hns]
  rfl

theorem RawKeyed.same {rows : List (Row C H.Digest)} (h : RawKeyed T rows) {r : Row C H.Digest}
    (hr : r ∈ rows) {ns text : Str} (hh : Holds T ns text r) :
    sameHash H (contentHash H text) ns r = true :=
  sameHash_iff.mpr ⟨hh.2.2 ▸ h r hr hh.2.1, hh.1⟩

theorem RawKeyed.archive {rows : List (Row C H.Digest)} (h : RawKeyed T rows)
    (p : Row C H.Digest → Bool) :
    RawKeyed T (updateWhere p (fun r => { r with archived := true }) rows) := by
  refine forall_updateWhere h fun r _ _ hlive => ?_
  cases hlive

theorem RawKeyed.update {I : List (Row C H.Digest) → Prop} [DecidablePred I] {W : Rewrite C}
    {id : Str} {writable : List Str} {t t' : Constrained (Row C H.Digest) I}
    (hids : Unique idKey t.rows) (h : RawKeyed T t.rows)
    (hhash : ∀ c, W.buildHashInput c = T.hashInput c)
    (hsame : W.needsReembed = false → ∀ c, T.hashInput (W.merge c) = T.hashInput c)
    (hstep : runUpdate H model W id writable t = some t') : RawKeyed T t'.rows := by
  obtain ⟨existing, hlock, hstep⟩ := Option.bind_eq_some_iff.mp hstep
  dsimp only at hstep
  have hmem := mem_of_find?_eq_some hlock
  have hid := find?_some hlock
  simp only [Bool.and_eq_true, decide_eq_true_eq] at hid
  split at hstep
  · cases hstep
  · split at hstep
    · rename_i hre
      rw [rows_of_attempt hstep]
      refine forall_updateWhere h fun r hr _ hlive => ?_
      have hre : W.needsReembed = false := by simpa using hre
      show r.content_hash = some (contentHash H (T.hashInput (W.merge r.cols)))
      rw [hsame hre]
      exact h r hr hlive
    · split at hstep
      · cases hstep
      · rw [rows_of_attempt hstep]
        refine forall_updateWhere h fun r hr hp _ => ?_
        simp only [Bool.and_eq_true, decide_eq_true_eq] at hp
        have hre := eq_of_id hids hr hmem (hp.1.trans hid.1.symm)
        subst hre
        show some (contentHash H (W.buildHashInput (W.merge r.cols)))
          = some (contentHash H (T.hashInput (W.merge r.cols)))
        rw [hhash]

theorem RawKeyed.repair {I : List (Row C H.Digest) → Prop} [DecidablePred I] {currentModel : Str}
    {scope : RepairScope} {candidate : Row C H.Digest} {t t' : Constrained (Row C H.Digest) I}
    (hhash : T.hasContentHash = true) (h : RawKeyed T t.rows)
    (hfits : RepairFits H T candidate t.rows)
    (hstep : repairRows H T currentModel scope candidate t = some t') : RawKeyed T t'.rows := by
  rw [rows_of_attempt hstep]
  refine forall_updateWhere h fun r hr hp _ => ?_
  have hmatch := (Bool.and_eq_true _ _ ▸ hp).1
  show (if T.hasContentHash then some (T.sourceHash H candidate.cols) else r.content_hash) = _
  rw [if_pos hhash]
  show some (contentHash H (normalized H (T.hashInput candidate.cols))) = _
  rw [hfits r hr hmatch]
  rfl

theorem logged (l : LogCall) (setTags : C → C) (tagsOf : C → List Str) {given : List Given}
    {rows : List (Row C H.Digest)} (new : Row C H.Digest)
    (hu : Unique hashKey rows) (h : RawKeyed T rows) (hfits : LogFits H T setTags l given rows)
    (htags : ∀ c, tagsOf (setTags c) = l.tags) (hnew : Holds T l.ns l.text new)
    (hid : new.id = l.id) (hhash : new.content_hash = some (contentHash H l.text))
    (hnewTags : tagsOf new.cols = l.tags) :
    RawKeyed T (upsert (sameHash H (contentHash H l.text) l.ns)
      (fun r => { r with cols := setTags r.cols }) new rows) ∧
    LiveOnce T tagsOf (upsert (sameHash H (contentHash H l.text) l.ns)
      (fun r => { r with cols := setTags r.cols }) new rows)
      (l.record given (holderOf H (contentHash H l.text) l.ns rows))
      (l.answer (holderOf H (contentHash H l.text) l.ns rows)) := by
  cases hfind : rows.find? (sameHash H (contentHash H l.text) l.ns) with
  | some r =>
    have hr := mem_of_find?_eq_some hfind
    have hsame := find?_some hfind
    obtain ⟨hlive, htext, hgiven⟩ := hfits r hr hsame
    have hany : rows.any (sameHash H (contentHash H l.text) l.ns) = true :=
      any_eq_true.mpr ⟨r, hr, hsame⟩
    have honly : ∀ q ∈ rows, sameHash H (contentHash H l.text) l.ns q = true → q = r :=
      fun q hq hs => hu.eq hq hr (hashKey_of_same hs) (hashKey_of_same hsame)
    have hholder : holderOf H (contentHash H l.text) l.ns rows = some r.id := by
      rw [holderOf, hfind]
      rfl
    rw [hholder]
    constructor
    · refine forall_upsert h (A := True) (B := False) (by rw [if_pos hany]; trivial)
        (fun _ q hq hs _ => ?_) False.elim
      show q.content_hash = some (contentHash H (T.hashInput (setTags q.cols)))
      rw [honly q hq hs, htext]
      exact (sameHash_iff.mp hsame).1
    · have hrows : upsert (sameHash H (contentHash H l.text) l.ns)
          (fun r => { r with cols := setTags r.cols }) new rows
          = updateWhere (sameHash H (contentHash H l.text) l.ns)
            (fun r => { r with cols := setTags r.cols }) rows := if_pos hany
      rw [hrows]
      refine ⟨{ r with cols := setTags r.cols }, mem_updateWhere.mpr (.inr ⟨r, hr, hsame, rfl⟩),
        ⟨(sameHash_iff.mp hsame).2, hlive, htext⟩, rfl, fun q hq hh => ?_, ?_⟩
      · rcases mem_updateWhere.mp hq with ⟨hq, hno⟩ | ⟨p, hp, hs, rfl⟩
        · have hs : sameHash H (contentHash H l.text) l.ns q = true := h.same hq hh
          rw [hs] at hno
          cases hno
        · rw [honly p hp hs]
      · intro g hg hgt hgi hgx tag htag
        show tag ∈ tagsOf (setTags r.cols)
        rw [htags]
        rcases mem_append.mp hg with hg | hg
        · exact hgiven g hg hgt hgi hgx tag htag
        · rw [mem_singleton.mp hg] at htag
          exact htag
  | none =>
    have hnone := find?_eq_none.mp hfind
    have hany : ¬ rows.any (sameHash H (contentHash H l.text) l.ns) = true := by
      intro hany
      obtain ⟨q, hq, hs⟩ := any_eq_true.mp hany
      exact hnone q hq hs
    have hholder : holderOf H (contentHash H l.text) l.ns rows = none := by
      rw [holderOf, hfind]
      rfl
    rw [hholder]
    constructor
    · refine forall_upsert h (A := False) (B := True) (by rw [if_neg hany]; trivial)
        (fun hf => hf.elim) fun _ _ => ?_
      rw [hhash, hnew.2.2]
    · have hrows : upsert (sameHash H (contentHash H l.text) l.ns)
          (fun r => { r with cols := setTags r.cols }) new rows = rows ++ [new] := if_neg hany
      rw [hrows]
      refine ⟨new, mem_append.mpr (.inr mem_cons_self), hnew, hid, fun q hq hh => ?_, ?_⟩
      · rcases mem_append.mp hq with hq | hq
        · exact absurd (h.same hq hh) (hnone q hq)
        · exact mem_singleton.mp hq
      · intro g hg hgt hgi _ tag htag
        rw [hnewTags]
        rcases mem_append.mp hg with hg | hg
        · -- a new row starts without a history
          have hkept := (mem_filter.mp hg).2
          rw [show g.table = l.table from hgt, show g.id = l.id from hgi] at hkept
          simp at hkept
        · rw [mem_singleton.mp hg] at htag
          exact htag

theorem chunked {rows : List (Row C H.Digest)} (new : Row C H.Digest) (ns text : Str)
    (h : RawKeyed T rows) (hnew : Holds T ns text new)
    (hhash : new.content_hash = some (normalizedContentHash H text))
    (hfits : rows.any (sameHash H (normalizedContentHash H text) ns) = true ∨ Plain H text) :
    RawKeyed T (insertNew (sameHash H (normalizedContentHash H text) ns) new rows) ∧
    ∀ {tagsOf : C → List Str} {given : List Given} {a : Answer}, LiveOnce T tagsOf rows given a →
      LiveOnce T tagsOf (insertNew (sameHash H (normalizedContentHash H text) ns) new rows)
        given a := by
  constructor
  · refine forall_insertNew h (hfits.imp_right fun hplain _ => ?_)
    rw [hhash, ← hplain.hash, hnew.2.2]
  · intro tagsOf given a ⟨r, hr, hh, hid, hone, htags⟩
    unfold insertNew
    split
    · exact ⟨r, hr, hh, hid, hone, htags⟩
    · rename_i hany
      have hplain := hfits.resolve_left hany
      refine ⟨r, mem_append.mpr (.inl hr), hh, hid, fun q hq hq' => ?_, htags⟩
      rcases mem_append.mp hq with hq | hq
      · exact hone q hq hq'
      · -- the new row would have the text, so the row that has it would have conflicted
        rw [mem_singleton.mp hq] at hq'
        have hns : ns = a.ns := hnew.1.symm.trans hq'.1
        have htext : text = a.text := hnew.2.2.symm.trans hq'.2.2
        refine absurd (any_eq_true.mpr ⟨r, hr, ?_⟩) hany
        rw [← hplain.hash, hns, htext]
        exact h.same hr hh

end

/-! ## Every run -/

section
variable {H} {model}

/-- What a chunk write leaves of the last answer, and any other refused operation ends. -/
def Op.keepsAnswer {D : Type} : Op D → Bool
  | .call (.insertChunkRow ..) => true
  | _ => false

/-- The operations on a store whose live rows are keyed by their own texts; a refused one changes
nothing. -/
def entries (H : ContentHash) (model : Option Str) : LTS (State H.Digest) (Op H.Digest) :=
  .ofFn
    (fun s => RawKeyed .thoughts s.store.thoughts.rows ∧
      RawKeyed .decisions s.store.decisions.rows ∧ s.answered = none)
    fun s op => some ((Op.step H model s op).getD
      { s with answered := if op.keepsAnswer then s.answered else none })

structure Kept (s : State H.Digest) : Prop where
  thoughts : RawKeyed .thoughts s.store.thoughts.rows
  decisions : RawKeyed .decisions s.store.decisions.rows
  answered : ∀ a, s.answered = some a → s.LiveOnce H a

/-- A checkpoint writes sessions and lanes only. -/
theorem session_wrap_frame {s s' : Store H.Digest} {id ns : Str} {args : WrapArgs}
    (h : session_wrap H model id ns args s = some s') :
    s'.thoughts = s.thoughts ∧ s'.decisions = s.decisions := by
  obtain ⟨lane, _, h⟩ := Option.bind_eq_some_iff.mp h
  obtain ⟨sessions, _, h⟩ := Option.bind_eq_some_iff.mp h
  cases h
  exact ⟨rfl, rfl⟩

/-- Calls that leave both tables alone. -/
theorem Kept.frame {s : State H.Digest} (h : Kept s) {store : Store H.Digest} {given : List Given}
    (ht : store.thoughts = s.store.thoughts) (hd : store.decisions = s.store.decisions) :
    Kept { store := store, given := given, answered := none : State H.Digest } where
  thoughts := by
    show RawKeyed .thoughts store.thoughts.rows
    rw [ht]
    exact h.thoughts
  decisions := by
    show RawKeyed .decisions store.decisions.rows
    rw [hd]
    exact h.decisions
  answered _ ha := nomatch ha

theorem Kept.call {s s' : State H.Digest} {c : Call} (hs : Kept s) (hg : Op.Guard H s (.call c))
    (h : Op.step H model s (.call c) = some s') : Kept s' := by
  obtain ⟨store, hstore, rfl⟩ := Option.map_eq_some_iff.mp h
  cases c with
  | log_thought id ns content tags =>
    obtain ⟨t, ht, rfl⟩ := Option.map_eq_some_iff.mp hstore
    have hfits : LogFits H .thoughts (fun c => { c with tags := tags.getD [] })
      ⟨.thoughts, id, ns, content, tags.getD []⟩ s.given s.store.thoughts.rows := hg
    obtain ⟨hkeyed, honce⟩ := logged _ _ ThoughtCols.tags (thoughtRow H model id ns content tags)
      s.store.thoughts.ok.2 hs.thoughts hfits (fun _ => rfl) ⟨rfl, rfl, rfl⟩ rfl rfl rfl
    rw [← rows_of_attempt ht] at hkeyed honce
    refine ⟨hkeyed, hs.decisions, fun a ha => ?_⟩
    cases ha
    exact honce
  | log_decision id ns args =>
    obtain ⟨t, ht, rfl⟩ := Option.map_eq_some_iff.mp hstore
    have hfits : LogFits H .decisions (fun c => { c with tags := args.tags.getD [] })
      ⟨.decisions, id, ns, decisionCanonicalText args.source, args.tags.getD []⟩ s.given
      s.store.decisions.rows := hg
    obtain ⟨hkeyed, honce⟩ := logged _ _ DecisionSource.tags (decisionRow H model id ns args)
      s.store.decisions.ok.2 hs.decisions hfits (fun _ => rfl) ⟨rfl, rfl, rfl⟩ rfl rfl rfl
    rw [← rows_of_attempt ht] at hkeyed honce
    refine ⟨hs.thoughts, hkeyed, fun a ha => ?_⟩
    cases ha
    exact honce
  | insertChunkRow id ns text tags parent =>
    obtain ⟨t, ht, rfl⟩ := Option.map_eq_some_iff.mp hstore
    obtain ⟨hkeyed, honce⟩ := chunked (chunkRow H model id ns text tags parent) ns text
      hs.thoughts ⟨rfl, rfl, rfl⟩ rfl hg
    rw [← rows_of_attempt ht] at hkeyed honce
    refine ⟨hkeyed, hs.decisions, fun a ha => ?_⟩
    have hold := hs.answered a ha
    unfold State.LiveOnce at hold ⊢
    split
    · rename_i htable
      simp only [htable] at hold
      exact honce hold
    · rename_i htable
      simp only [htable] at hold
      exact hold
  | upsert_person id ns name context notes =>
    obtain ⟨t, ht, rfl⟩ := Option.map_eq_some_iff.mp hstore
    exact hs.frame rfl rfl
  | session_save id ns args =>
    obtain ⟨t, ht, rfl⟩ := Option.map_eq_some_iff.mp hstore
    exact hs.frame rfl rfl
  | session_wrap id ns args =>
    obtain ⟨ht, hd⟩ := session_wrap_frame hstore
    exact hs.frame ht hd
  | lane_upsert id ns args =>
    obtain ⟨t, ht, rfl⟩ := Option.map_eq_some_iff.mp hstore
    exact hs.frame rfl rfl
  | update_entry id writable fields =>
    cases fields with
    | thoughts content tags =>
      obtain ⟨t, ht, rfl⟩ := Option.map_eq_some_iff.mp hstore
      refine ⟨hs.thoughts.update s.store.thoughts.ok.1 (fun _ => rfl) (fun hre c => ?_) ht,
        hs.decisions, fun _ ha => nomatch ha⟩
      cases content with
      | none => rfl
      | some _ => cases hre
    | decisions title rationale context alternatives tags =>
      obtain ⟨t, ht, rfl⟩ := Option.map_eq_some_iff.mp hstore
      refine ⟨hs.thoughts, hs.decisions.update s.store.decisions.ok.1 (fun _ => rfl)
        (fun hre c => ?_) ht, fun _ ha => nomatch ha⟩
      simp only [Rewrite.decisions, Bool.or_eq_false_iff, Option.isSome_eq_false_iff,
        Option.isNone_iff_eq_none] at hre
      obtain ⟨⟨⟨⟨rfl, rfl⟩, rfl⟩, rfl⟩, rfl⟩ := hre
      rfl
    | relationships person_name context notes =>
      obtain ⟨t, ht, rfl⟩ := Option.map_eq_some_iff.mp hstore
      exact hs.frame rfl rfl
    | projects name description =>
      obtain ⟨t, ht, rfl⟩ := Option.map_eq_some_iff.mp hstore
      exact hs.frame rfl rfl
    | sessions summary project key_decisions next_steps blockers =>
      obtain ⟨t, ht, rfl⟩ := Option.map_eq_some_iff.mp hstore
      exact hs.frame rfl rfl

theorem Kept.step {s s' : State H.Digest} {op : Op H.Digest} (hs : Kept s) (hg : op.Guard H s)
    (h : op.step H model s = some s') : Kept s' := by
  cases op with
  | call c => exact hs.call hg h
  | archive_entry table id deletable =>
    cases table with
    | thoughts =>
      obtain ⟨t, ht, rfl⟩ := Option.map_eq_some_iff.mp h
      refine ⟨?_, hs.decisions, fun _ ha => nomatch ha⟩
      show RawKeyed .thoughts t.rows
      rw [rows_of_attempt ht]
      exact hs.thoughts.archive _
    | decisions =>
      obtain ⟨t, ht, rfl⟩ := Option.map_eq_some_iff.mp h
      refine ⟨hs.thoughts, ?_, fun _ ha => nomatch ha⟩
      show RawKeyed .decisions t.rows
      rw [rows_of_attempt ht]
      exact hs.decisions.archive _
  | graduate id ns content tags event_hash embedding =>
    obtain ⟨t, ht, rfl⟩ := Option.map_eq_some_iff.mp h
    refine ⟨?_, hs.decisions, fun _ ha => nomatch ha⟩
    show RawKeyed .thoughts t.rows
    rw [rows_of_attempt ht]
    refine forall_upsert hs.thoughts (A := True) (B := graduationHash H event_hash content
      = contentHash H content) ?_ (fun _ r hr _ hlive => hs.thoughts r hr hlive) fun hhash _ =>
        congrArg some hhash
    split
    · trivial
    · rename_i hany
      exact hg.resolve_left hany
  | repairThought currentModel scope candidate =>
    obtain ⟨t, ht, rfl⟩ := Option.map_eq_some_iff.mp h
    exact ⟨hs.thoughts.repair rfl hg ht, hs.decisions, fun _ ha => nomatch ha⟩
  | repairDecision currentModel scope candidate =>
    obtain ⟨t, ht, rfl⟩ := Option.map_eq_some_iff.mp h
    exact ⟨hs.thoughts, hs.decisions.repair rfl hg ht, fun _ ha => nomatch ha⟩

theorem kept_inductive : (entries H model).InductiveOn (fun s op => op.Guard H s) Kept where
  init s h := ⟨h.1, h.2.1, fun a ha => by rw [h.2.2] at ha; cases ha⟩
  step s op s' hs hg hstep := by
    cases hstep
    cases h : op.step H model s with
    | some t => exact hs.step hg h
    | none =>
      refine ⟨hs.thoughts, hs.decisions, fun a ha => hs.answered a ?_⟩
      simp only [Option.getD_none] at ha
      split at ha
      · exact ha
      · cases ha

/-- After a logging call, and the chunk writes that follow it, the row it answered is the one live
row with its text, and carries every tag passed for it. -/
theorem live_once {s : State H.Digest}
    (h : (entries H model).ReachableOn (fun s op => op.Guard H s) s) {a : Answer}
    (ha : s.answered = some a) : s.LiveOnce H a :=
  (kept_inductive.reachable h).answered a ha

end

/-! ## Runs -/

instance (s : State H.Digest) (op : Op H.Digest) : Decidable (op.Guard H s) := by
  unfold Op.Guard LogFits RepairFits
  split <;> infer_instance

instance {C : Type} (T : EmbeddingTarget C) (ns text : Str) (r : Row C H.Digest) :
    Decidable (Holds T ns text r) := by
  unfold Holds
  infer_instance

end

def emptyState : State Str := ⟨emptyStore, [], none⟩

theorem emptyState_init : (entries letterHash none).init emptyState :=
  ⟨fun _ hr => absurd hr not_mem_nil, fun _ hr => absurd hr not_mem_nil, rfl⟩

/-- One thought logged twice with growing tags, and a chunk in between. -/
theorem live_once_twice : ∃ s, (entries letterHash none).ReachableOn
    (fun s op => op.Guard letterHash s) s ∧
      s.answered = some ⟨.thoughts, units "n", units "tea", units "t1"⟩ ∧
      s.LiveOnce letterHash ⟨.thoughts, units "n", units "tea", units "t1"⟩ := by
  have hrun : (LTS.exec (LTS.guardStep (fun s op => op.Guard letterHash s) fun s op =>
      some ((Op.step letterHash none s op).getD
        { s with answered := if op.keepsAnswer then s.answered else none })) emptyState
      [.call (.log_thought (units "t1") (units "n") (units "tea") (some [units "a"])),
        .call (.insertChunkRow (units "t2") (units "n") (units "part") [] (units "t1")),
        .archive_entry .thoughts (units "t2") [units "n"],
        .call (.log_thought (units "t3") (units "n") (units "tea")
          (some [units "b", units "a"]))]).any
      (fun s => s.answered = some ⟨.thoughts, units "n", units "tea", units "t1"⟩) = true := by
    decide +kernel
  obtain ⟨s, hs, ha⟩ := Option.any_eq_true _ _ |>.mp hrun
  have ha := of_decide_eq_true ha
  have hreach : (entries letterHash none).ReachableOn (fun s op => op.Guard letterHash s) s :=
    LTS.reachableOn_of_exec emptyState_init hs
  exact ⟨s, hreach, ha, live_once hreach ha⟩

/-- A thought is archived and logged again: the call merges into the archived row and reports
success, and no live row has the text. -/
theorem archived_swallows : ∃ s, (entries letterHash none).Reachable s ∧
    s.answered = some ⟨.thoughts, units "n", units "tea", units "t1"⟩ ∧
    (∀ r ∈ s.store.thoughts.rows, ¬ Holds .thoughts (units "n") (units "tea") r) ∧
    ¬ s.LiveOnce letterHash ⟨.thoughts, units "n", units "tea", units "t1"⟩ := by
  have hrun : (LTS.exec (fun s op =>
      some ((Op.step letterHash none s op).getD
        { s with answered := if op.keepsAnswer then s.answered else none })) emptyState
      [.call (.log_thought (units "t1") (units "n") (units "tea") none),
        .archive_entry .thoughts (units "t1") [units "n"],
        .call (.log_thought (units "t2") (units "n") (units "tea") none)]).any
      (fun s => s.answered = some ⟨.thoughts, units "n", units "tea", units "t1"⟩ ∧
        ∀ r ∈ s.store.thoughts.rows, ¬ Holds .thoughts (units "n") (units "tea") r) = true := by
    decide +kernel
  obtain ⟨s, hs, h⟩ := Option.any_eq_true _ _ |>.mp hrun
  obtain ⟨ha, hnone⟩ := of_decide_eq_true h
  refine ⟨s, ⟨emptyState, _, emptyState_init, LTS.runOn_of_exec_any hs⟩, ha, hnone, fun ⟨r, hr, hh, _⟩ => hnone r hr hh⟩

end OpenBrain.Server.Entries
