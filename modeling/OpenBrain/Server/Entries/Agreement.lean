import OpenBrain.Server.Entries.Writers

/-!
# Writers and the repair registry

`writers_agree`: while every call gives, for the row it leaves, the texts the registry reads off
that row's own columns, every row the tools leave has the registry's hash and embedding, and no
selection by drift or missing embedding offers it.
-/
namespace OpenBrain.Server.Entries
open OpenBrain.Core OpenBrain.Core.Table OpenBrain.Server.Embedding

section
variable {C : Type} (T : EmbeddingTarget C) (H : ContentHash)

/-- The texts a write embeds and hashes are those the target reads off the columns it leaves. -/
structure Fits (c : C) (embedded hashed : Str) : Prop where
  hash : normalized H (T.hashInput c) = hashed
  embedding : T.embedText c = embedded
  embeddable : Ecma.trim embedded ≠ []

/-- The target reads the same texts off both. -/
structure Alike (c c' : C) : Prop where
  hash : normalized H (T.hashInput c') = normalized H (T.hashInput c)
  embedding : T.embedText c' = T.embedText c

instance (c : C) (embedded hashed : Str) : Decidable (Fits T H c embedded hashed) :=
  decidable_of_iff (normalized H (T.hashInput c) = hashed ∧ T.embedText c = embedded ∧
    Ecma.trim embedded ≠ []) ⟨fun h => ⟨h.1, h.2.1, h.2.2⟩, fun h => ⟨h.1, h.2, h.3⟩⟩

instance (c c' : C) : Decidable (Alike T H c c') :=
  decidable_of_iff (normalized H (T.hashInput c') = normalized H (T.hashInput c) ∧
    T.embedText c' = T.embedText c) ⟨fun h => ⟨h.1, h.2⟩, fun h => ⟨h.1, h.2⟩⟩

variable {T H}

theorem embedFn_of_ne {text : Str} (h : Ecma.trim text ≠ []) : embedFn text = some text :=
  if_neg h

theorem Fits.agrees {c : C} {embedded hashed : Str} (h : Fits T H c embedded hashed)
    {r : Row C H.Digest} (hcols : r.cols = c) (hhash : r.content_hash = some (contentHash H hashed))
    (hemb : r.embedding = embedFn embedded) : T.Agrees H r where
  hash := by
    rw [hhash, hcols, ← h.hash]
    rfl
  embedding := by rw [hemb, embedFn_of_ne h.embeddable, hcols, h.embedding]

theorem Alike.agrees {r r' : Row C H.Digest} (h : Alike T H r.cols r'.cols) (hr : T.Agrees H r)
    (hhash : r'.content_hash = r.content_hash) (hemb : r'.embedding = r.embedding) :
    T.Agrees H r' where
  hash := by
    rw [hhash, hr.hash]
    show some (contentHash H (normalized H (T.hashInput r.cols))) = _
    rw [← h.hash]
    rfl
  embedding := by rw [hemb, hr.embedding, h.embedding]

/-- What `rowReasons` can find of a row that agrees. -/
theorem not_selected {r : Row C H.Digest} (h : T.Agrees H r) (currentModel : Str) :
    T.isSelected H [.missing, .source_drift] currentModel r = false := by
  have hreasons : T.rowReasons H [.missing, .source_drift] currentModel r = [] := by
    unfold EmbeddingTarget.rowReasons
    rw [h.embedding, h.no_drift]
    cases hm : T.hasEmbeddingModel <;> cases hc : T.hasContentHash <;>
      simp [EmbeddingTarget.detectableReasons, hm, hc]
  rw [EmbeddingTarget.isSelected, hreasons]
  exact Bool.and_false _

end

/-! ## The condition on a call -/

variable (H : ContentHash)

/-- The part of `update_entry`: the merged row fits, or nothing the target reads changes. -/
def RewriteFits {C : Type} (T : EmbeddingTarget C) (W : Rewrite C) (id : Str)
    (writable : List Str) (rows : List (Row C H.Digest)) : Prop :=
  match lockExistingRow id writable rows with
  | none => True
  | some existing =>
    let merged := W.merge existing.cols
    if !W.provided || existing.archived then True
    else if !W.needsReembed then Alike T H existing.cols merged
    else if rows.any (fun r => sameHash H (contentHash H (W.buildHashInput merged)) existing.ns r
        && r.id ≠ id) then True
    else Fits T H merged (W.buildEmbeddableText merged) (W.buildHashInput merged)

instance {C : Type} (T : EmbeddingTarget C) (W : Rewrite C) (id : Str) (writable : List Str)
    (rows : List (Row C H.Digest)) : Decidable (RewriteFits H T W id writable rows) := by
  unfold RewriteFits
  split <;> infer_instance

/-- A lane's `COALESCE`: without a context the stored hash and embedding stay. -/
def LaneFits (args : LaneArgs) (c : LaneCols) : Prop :=
  if laneEmbedContext args = [] then Alike .ob_session_lanes H c (args.merge c)
  else Fits .ob_session_lanes H (args.merge c) (laneEmbedContext args)
    (laneHashText args.session_key (laneEmbedContext args))

instance (args : LaneArgs) (c : LaneCols) : Decidable (LaneFits H args c) := by
  unfold LaneFits
  infer_instance

/-- The checkpoint row fits unless it is a duplicate, and so does the lane. -/
def WrapFits (ns : Str) (args : WrapArgs) (s : Store H.Digest) : Prop :=
  match s.lanes.rows.find? (isLane H ns args.session_key) with
  | none => True
  | some lane =>
    let source := args.source lane.cols
    (s.sessions.rows.any (sameHash H (contentHash H (sessionSourceHashInput source)) ns) = true ∨
      Fits .sessions H { source with session_id := none } (sessionEmbedText source)
        (sessionSourceHashInput source)) ∧
    Fits .ob_session_lanes H { lane.cols with current_context_md := some args.summary }
      (sessionEmbedText source) (laneHashText args.session_key args.summary)

instance (ns : Str) (args : WrapArgs) (s : Store H.Digest) : Decidable (WrapFits H ns args s) := by
  unfold WrapFits
  split <;> infer_instance

/-- Every row the call leaves has the texts the registry reads off its columns. -/
def Call.Fitting (s : Store H.Digest) : Call → Prop
  | .log_thought _ ns content tags =>
    if s.thoughts.rows.any (sameHash H (contentHash H content) ns) then
      ∀ r ∈ s.thoughts.rows, sameHash H (contentHash H content) ns r = true →
        Alike .thoughts H r.cols { r.cols with tags := tags.getD [] }
    else Fits .thoughts H { content := content, tags := tags.getD [], parent_id := none }
      (thoughtEmbedText content (tags.getD [])) content
  | .insertChunkRow _ ns text tags parent =>
    s.thoughts.rows.any (sameHash H (normalizedContentHash H text) ns) = true ∨
      Fits .thoughts H { content := text, tags := tags, parent_id := some parent }
        text (normalized H text)
  | .log_decision _ ns args =>
    let canonical := decisionCanonicalText args.source
    if s.decisions.rows.any (sameHash H (contentHash H canonical) ns) then
      ∀ r ∈ s.decisions.rows, sameHash H (contentHash H canonical) ns r = true →
        Alike .decisions H r.cols { r.cols with tags := args.tags.getD [] }
    else Fits .decisions H args.source canonical canonical
  | .upsert_person _ ns name context notes =>
    let text := personEmbedText name context notes
    if s.relationships.rows.any (fun r => r.ns = ns && r.cols.person_name = name) then
      ∀ r ∈ s.relationships.rows, (r.ns = ns && r.cols.person_name = name) = true →
        Fits .relationships H (PersonCols.merge context notes r.cols) text text
    else Fits .relationships H { person_name := name, context := context, notes := notes } text text
  | .session_save _ ns args =>
    let conflicts := fun r : Row SessionCols H.Digest =>
      r.ns = ns && r.cols.session_id.isSome && r.cols.session_id = args.session_id
    let embedded := sessionEmbedText args.source
    let hashed := sessionSourceHashInput args.source
    if s.sessions.rows.any conflicts then
      ∀ r ∈ s.sessions.rows, conflicts r = true → Fits .sessions H (args.merge r.cols) embedded hashed
    else Fits .sessions H { args.source with session_id := args.session_id } embedded hashed
  | .session_wrap _ ns args => WrapFits H ns args s
  | .lane_upsert _ ns args =>
    let context := laneEmbedContext args
    if s.lanes.rows.any (isLane H ns args.session_key) then
      ∀ r ∈ s.lanes.rows, isLane H ns args.session_key r = true → LaneFits H args r.cols
    else context ≠ [] ∧ Fits .ob_session_lanes H
      ⟨args.session_key, args.topic, args.project, args.current_context_md⟩ context
      (laneHashText args.session_key context)
  | .update_entry id writable (.thoughts content tags) =>
    RewriteFits H .thoughts (.thoughts content tags) id writable s.thoughts.rows
  | .update_entry id writable (.decisions title rationale context alternatives tags) =>
    RewriteFits H .decisions (.decisions title rationale context alternatives tags) id writable
      s.decisions.rows
  | .update_entry id writable (.relationships person_name context notes) =>
    RewriteFits H .relationships (.relationships person_name context notes) id writable
      s.relationships.rows
  | .update_entry id writable (.projects name description) =>
    RewriteFits H .projects (.projects name description) id writable s.projects.rows
  | .update_entry id writable (.sessions summary project key_decisions next_steps blockers) =>
    RewriteFits H .sessions (.sessions summary project key_decisions next_steps blockers) id
      writable s.sessions.rows

instance (s : Store H.Digest) (c : Call) : Decidable (Call.Fitting H s c) := by
  unfold Call.Fitting
  split <;> infer_instance

/-! ## What the condition comes to, for one text -/

/-! ## One call -/

/-- `P` of every row of every table. -/
structure Store.Every {D : Type} [DecidableEq D] (s : Store D)
    (P : {C : Type} → EmbeddingTarget C → Row C D → Prop) : Prop where
  thoughts : ∀ r ∈ s.thoughts.rows, P .thoughts r
  decisions : ∀ r ∈ s.decisions.rows, P .decisions r
  relationships : ∀ r ∈ s.relationships.rows, P .relationships r
  projects : ∀ r ∈ s.projects.rows, P .projects r
  sessions : ∀ r ∈ s.sessions.rows, P .sessions r
  lanes : ∀ r ∈ s.lanes.rows, P .ob_session_lanes r

variable {H} {model : Option Str}

theorem eq_of_id {C : Type} {rows : List (Row C H.Digest)} (h : Unique idKey rows)
    {r q : Row C H.Digest} (hr : r ∈ rows) (hq : q ∈ rows) (hid : r.id = q.id) : r = q :=
  h.eq hr hq rfl (congrArg some hid.symm)

/-- `update_entry` leaves rows that agree. -/
theorem runUpdate_agrees {C : Type} {I : List (Row C H.Digest) → Prop} [DecidablePred I]
    {T : EmbeddingTarget C} {W : Rewrite C} {id : Str} {writable : List Str}
    {t t' : Constrained (Row C H.Digest) I} (hids : Unique idKey t.rows)
    (ht : ∀ r ∈ t.rows, T.Agrees H r) (hfits : RewriteFits H T W id writable t.rows)
    (h : runUpdate H model W id writable t = some t') : ∀ r ∈ t'.rows, T.Agrees H r := by
  obtain ⟨existing, hlock, h⟩ := Option.bind_eq_some_iff.mp h
  dsimp only at h
  have hmem := List.mem_of_find?_eq_some hlock
  have hid := List.find?_some hlock
  simp only [Bool.and_eq_true, decide_eq_true_eq] at hid
  -- the statement's target is the locked row
  have honly : ∀ r ∈ t.rows, (decide (r.id = id) && writable.contains r.ns) = true →
      r = existing := by
    intro r hr hp
    simp only [Bool.and_eq_true, decide_eq_true_eq] at hp
    exact eq_of_id hids hr hmem (hp.1.trans hid.1.symm)
  simp only [RewriteFits, hlock] at hfits
  split at h
  · cases h
  · rename_i hlive
    rw [if_neg hlive] at hfits
    split at h
    · rename_i hre
      rw [if_pos hre] at hfits
      rw [rows_of_attempt h]
      refine forall_updateWhere ht fun r hr hp => ?_
      have := honly r hr hp
      subst this
      exact Alike.agrees hfits (ht r hr) rfl rfl
    · rename_i hre
      rw [if_neg hre] at hfits
      split at h
      · cases h
      · rename_i hcoll
        rw [if_neg hcoll] at hfits
        rw [rows_of_attempt h]
        refine forall_updateWhere ht fun r hr hp => ?_
        have := honly r hr hp
        subst this
        exact Fits.agrees hfits rfl rfl rfl

theorem log_thought_agrees {s : Store H.Digest} {id ns content : Str} {tags : Option (List Str)}
    {t : Constrained (Row ThoughtCols H.Digest) Hashed}
    (hs : ∀ r ∈ s.thoughts.rows, EmbeddingTarget.thoughts.Agrees H r)
    (hfits : Call.Fitting H s (.log_thought id ns content tags))
    (h : log_thought H model id ns content tags s.thoughts = some t) :
    ∀ r ∈ t.rows, EmbeddingTarget.thoughts.Agrees H r := by
  rw [rows_of_attempt h]
  refine forall_upsert hs hfits (fun hfit r hr hp => ?_) fun hfit => ?_
  · exact Alike.agrees (hfit r hr hp) (hs r hr) rfl rfl
  · exact Fits.agrees hfit rfl rfl rfl

theorem insertChunkRow_agrees {s : Store H.Digest} {id ns text : Str} {tags : List Str}
    {parent : Str} {t : Constrained (Row ThoughtCols H.Digest) Hashed}
    (hs : ∀ r ∈ s.thoughts.rows, EmbeddingTarget.thoughts.Agrees H r)
    (hfits : Call.Fitting H s (.insertChunkRow id ns text tags parent))
    (h : insertChunkRow H model id ns text tags parent s.thoughts = some t) :
    ∀ r ∈ t.rows, EmbeddingTarget.thoughts.Agrees H r := by
  rw [rows_of_attempt h]
  apply forall_insertNew hs
  exact hfits.imp (fun hany => hany) fun hfit => Fits.agrees hfit rfl rfl rfl

theorem log_decision_agrees {s : Store H.Digest} {id ns : Str} {args : DecisionArgs}
    {t : Constrained (Row DecisionSource H.Digest) Hashed}
    (hs : ∀ r ∈ s.decisions.rows, EmbeddingTarget.decisions.Agrees H r)
    (hfits : Call.Fitting H s (.log_decision id ns args))
    (h : log_decision H model id ns args s.decisions = some t) :
    ∀ r ∈ t.rows, EmbeddingTarget.decisions.Agrees H r := by
  rw [rows_of_attempt h]
  refine forall_upsert hs hfits (fun hfit r hr hp => ?_) fun hfit => ?_
  · exact Alike.agrees (hfit r hr hp) (hs r hr) rfl rfl
  · exact Fits.agrees hfit rfl rfl rfl

theorem upsert_person_agrees {s : Store H.Digest} {id ns name : Str} {context notes : Option Str}
    {t : Constrained (Row PersonCols H.Digest) relationshipsOk}
    (hs : ∀ r ∈ s.relationships.rows, EmbeddingTarget.relationships.Agrees H r)
    (hfits : Call.Fitting H s (.upsert_person id ns name context notes))
    (h : upsert_person H model id ns name context notes s.relationships = some t) :
    ∀ r ∈ t.rows, EmbeddingTarget.relationships.Agrees H r := by
  rw [rows_of_attempt h]
  refine forall_upsert hs hfits (fun hfit r hr hp => ?_) fun hfit => ?_
  · exact Fits.agrees (hfit r hr hp) rfl rfl rfl
  · exact Fits.agrees hfit rfl rfl rfl

theorem session_save_agrees {s : Store H.Digest} {id ns : Str} {args : SaveArgs}
    {t : Constrained (Row SessionCols H.Digest) sessionsOk}
    (hs : ∀ r ∈ s.sessions.rows, EmbeddingTarget.sessions.Agrees H r)
    (hfits : Call.Fitting H s (.session_save id ns args))
    (h : session_save H model id ns args s.sessions = some t) :
    ∀ r ∈ t.rows, EmbeddingTarget.sessions.Agrees H r := by
  rw [rows_of_attempt h]
  refine forall_upsert hs hfits (fun hfit r hr hp => ?_) fun hfit => ?_
  · exact Fits.agrees (hfit r hr hp) rfl rfl rfl
  · exact Fits.agrees hfit rfl rfl rfl

theorem mergeLane_agrees {args : LaneArgs} {r : Row LaneCols H.Digest}
    (h : LaneFits H args r.cols) (hr : EmbeddingTarget.ob_session_lanes.Agrees H r) :
    EmbeddingTarget.ob_session_lanes.Agrees H (mergeLane H model args r) := by
  unfold LaneFits at h
  split at h
  · rename_i hempty
    have hhash : laneHash H args = none := if_pos hempty
    have hemb : embedFn (laneEmbedContext args) = none := by
      rw [hempty]
      rfl
    refine Alike.agrees h hr ?_ ?_
    · rw [mergeLane, hhash]
      rfl
    · rw [mergeLane, hemb]
      rfl
  · rename_i hctx
    have hhash : laneHash H args = some _ := if_neg hctx
    refine Fits.agrees h rfl ?_ ?_
    · rw [mergeLane, hhash]
      rfl
    · rw [mergeLane, embedFn_of_ne h.embeddable]
      rfl

theorem lane_upsert_agrees {s : Store H.Digest} {id ns : Str} {args : LaneArgs}
    {t : Constrained (Row LaneCols H.Digest) lanesOk}
    (hs : ∀ r ∈ s.lanes.rows, EmbeddingTarget.ob_session_lanes.Agrees H r)
    (hfits : Call.Fitting H s (.lane_upsert id ns args))
    (h : lane_upsert H model id ns args s.lanes = some t) :
    ∀ r ∈ t.rows, EmbeddingTarget.ob_session_lanes.Agrees H r := by
  rw [rows_of_attempt h]
  refine forall_upsert hs hfits (fun hfit r hr hp => ?_) fun ⟨hctx, hfit⟩ => ?_
  · exact mergeLane_agrees (hfit r hr hp) (hs r hr)
  · have hhash : laneHash H args = some _ := if_neg hctx
    exact Fits.agrees hfit rfl hhash rfl

/-- A checkpoint leaves the other tables alone, and both rows it writes agree. -/
theorem session_wrap_agrees {s s' : Store H.Digest} {id ns : Str} {args : WrapArgs}
    (hsess : ∀ r ∈ s.sessions.rows, EmbeddingTarget.sessions.Agrees H r)
    (hlanes : ∀ r ∈ s.lanes.rows, EmbeddingTarget.ob_session_lanes.Agrees H r)
    (hfits : WrapFits H ns args s) (h : session_wrap H model id ns args s = some s') :
    (∃ sessions lanes, s' = { s with sessions := sessions, lanes := lanes }) ∧
      (∀ r ∈ s'.sessions.rows, EmbeddingTarget.sessions.Agrees H r) ∧
      ∀ r ∈ s'.lanes.rows, EmbeddingTarget.ob_session_lanes.Agrees H r := by
  obtain ⟨lane, hfind, h⟩ := Option.bind_eq_some_iff.mp h
  obtain ⟨sessions, hins, h⟩ := Option.bind_eq_some_iff.mp h
  cases h
  simp only [WrapFits, hfind] at hfits
  obtain ⟨hsession, hlane⟩ := hfits
  refine ⟨⟨_, _, rfl⟩, ?_, ?_⟩
  · show ∀ r ∈ sessions.rows, _
    rw [rows_of_attempt hins]
    apply forall_insertNew hsess
    exact hsession.imp (fun hany => hany) fun hfit => Fits.agrees hfit rfl rfl rfl
  · cases hupd : (attempt (updateWhere
        (fun r => decide (r.id = lane.id) && isLane H ns args.session_key r)
        (fun r => reembedded H model r { r.cols with current_context_md := some args.summary }
          (sessionEmbedText (args.source lane.cols))
          (laneHashText args.session_key args.summary)) s.lanes.rows) :
        Option (Constrained (Row LaneCols H.Digest) lanesOk)) with
    | none => exact hlanes
    | some lanes =>
      show ∀ r ∈ lanes.rows, _
      rw [rows_of_attempt hupd]
      refine forall_updateWhere hlanes fun r hr hp => ?_
      have hid : r.id = lane.id := by
        simp only [Bool.and_eq_true, decide_eq_true_eq] at hp
        exact hp.1
      have := eq_of_id s.lanes.ok.1 hr (List.mem_of_find?_eq_some hfind) hid
      subst this
      exact Fits.agrees hlane rfl rfl rfl

/-- A call that fits leaves every table in agreement. -/
theorem step_agrees {s s' : Store H.Digest} {c : Call}
    (hs : s.Every fun T r => T.Agrees H r) (hfits : Call.Fitting H s c)
    (h : Store.step H model s c = some s') : s'.Every fun T r => T.Agrees H r := by
  cases c with
  | log_thought id ns content tags =>
    obtain ⟨t, ht, rfl⟩ := Option.map_eq_some_iff.mp h
    exact { hs with thoughts := log_thought_agrees hs.thoughts hfits ht }
  | insertChunkRow id ns text tags parent =>
    obtain ⟨t, ht, rfl⟩ := Option.map_eq_some_iff.mp h
    exact { hs with thoughts := insertChunkRow_agrees hs.thoughts hfits ht }
  | log_decision id ns args =>
    obtain ⟨t, ht, rfl⟩ := Option.map_eq_some_iff.mp h
    exact { hs with decisions := log_decision_agrees hs.decisions hfits ht }
  | upsert_person id ns name context notes =>
    obtain ⟨t, ht, rfl⟩ := Option.map_eq_some_iff.mp h
    exact { hs with relationships := upsert_person_agrees hs.relationships hfits ht }
  | session_save id ns args =>
    obtain ⟨t, ht, rfl⟩ := Option.map_eq_some_iff.mp h
    exact { hs with sessions := session_save_agrees hs.sessions hfits ht }
  | session_wrap id ns args =>
    obtain ⟨⟨sessions, lanes, rfl⟩, hsess, hlanes⟩ :=
      session_wrap_agrees hs.sessions hs.lanes hfits h
    exact { hs with sessions := hsess, lanes := hlanes }
  | lane_upsert id ns args =>
    obtain ⟨t, ht, rfl⟩ := Option.map_eq_some_iff.mp h
    exact { hs with lanes := lane_upsert_agrees hs.lanes hfits ht }
  | update_entry id writable fields =>
    cases fields with
    | thoughts content tags =>
      obtain ⟨t, ht, rfl⟩ := Option.map_eq_some_iff.mp h
      exact { hs with thoughts := runUpdate_agrees s.thoughts.ok.1 hs.thoughts hfits ht }
    | decisions title rationale context alternatives tags =>
      obtain ⟨t, ht, rfl⟩ := Option.map_eq_some_iff.mp h
      exact { hs with decisions := runUpdate_agrees s.decisions.ok.1 hs.decisions hfits ht }
    | relationships person_name context notes =>
      obtain ⟨t, ht, rfl⟩ := Option.map_eq_some_iff.mp h
      exact { hs with
        relationships := runUpdate_agrees s.relationships.ok.1.1 hs.relationships hfits ht }
    | projects name description =>
      obtain ⟨t, ht, rfl⟩ := Option.map_eq_some_iff.mp h
      exact { hs with projects := runUpdate_agrees s.projects.ok.1.1 hs.projects hfits ht }
    | sessions summary project key_decisions next_steps blockers =>
      obtain ⟨t, ht, rfl⟩ := Option.map_eq_some_iff.mp h
      exact { hs with sessions := runUpdate_agrees s.sessions.ok.1.1 hs.sessions hfits ht }

/-! ## Every sequence of calls -/

/-- The tools, from any rows in agreement; a call that is refused changes nothing. -/
def writers (H : ContentHash) (model : Option Str) : LTS (Store H.Digest) Call :=
  .ofFn (fun s => s.Every fun T r => T.Agrees H r) fun s c => some ((Store.step H model s c).getD s)

theorem agreement_inductive : (writers H model).InductiveOn (Call.Fitting H)
    fun s => s.Every fun T r => T.Agrees H r where
  init _ h := h
  step s c s' hs hfits hstep := by
    cases hstep
    cases h : Store.step H model s c with
    | none => exact hs
    | some t => exact step_agrees hs hfits h

def letterHash : ContentHash where
  Digest := Str
  toLowerCase := fun s => s.map fun u => if 65 ≤ u ∧ u ≤ 90 then u + 32 else u
  sha256 := id

def emptyStore : Store Str where
  thoughts := ⟨[], by decide⟩
  decisions := ⟨[], by decide⟩
  relationships := ⟨[], by decide⟩
  projects := ⟨[], by decide⟩
  sessions := ⟨[], by decide⟩
  lanes := ⟨[], by decide⟩

theorem emptyStore_every (P : {C : Type} → EmbeddingTarget C → Row C Str → Prop) :
    emptyStore.Every P := by
  constructor <;> exact fun r hr => absurd hr List.not_mem_nil

/-- One thought with a chunk, a contact, a session, a lane that is checkpointed, and a rewrite. -/
def plainCalls : List Call := [
  .log_thought (units "t1") (units "n") (units "hi") none,
  .insertChunkRow (units "t2") (units "n") (units "Part") [] (units "t1"),
  .upsert_person (units "p1") (units "n") (units "ann") none none,
  .session_save (units "s1") (units "n") ⟨units "done", none, some (units "k"), none, none, none⟩,
  .lane_upsert (units "l1") (units "n") ⟨units "k", none, some (units "plan"), none⟩,
  .session_wrap (units "s2") (units "n") ⟨units "k", units "plan", none, none, none⟩,
  .update_entry (units "t1") [units "n"] (.thoughts (some (units "bye")) none)]

end OpenBrain.Server.Entries
