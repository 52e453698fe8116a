import OpenBrain.Server.Promotion.Promote
import Mathlib.Data.List.Infix

/-!
# What a promotion lets into the shared namespace

The gate sees the title and the rationale of a decision or the content of a thought, once; the copy
takes every column, later, from the row as it then stands, archived or not. A copied row is screened
when nothing between the two undoes what the gate saw and the columns it does not see are clean
(`copies_screened`).
-/
namespace OpenBrain.Server.Promotion
open OpenBrain.Core OpenBrain.Server.Entries List
open OpenBrain.Server.Security (lowerCase)

variable {ν D : Type} {S : SecretDetectors}

/-! ## The text columns -/

/-- The texts of a row's own columns that the gate does not read. -/
def Body.unread : Body → List Str
  | .thought _ source => source.toList
  | .decision _ _ alternatives context => alternatives ++ context.toList

def Body.texts : Body → List Str
  | .thought content source => content :: source.toList
  | .decision title rationale alternatives context =>
    title :: rationale :: (alternatives ++ context.toList)

def Entry.unread (e : Entry ν D) : List Str := e.created_by :: (e.body.unread ++ e.tags.getD [])

def Entry.texts (e : Entry ν D) : List Str := e.created_by :: (e.body.texts ++ e.tags.getD [])

/-- The gate lets the row through, and what it does not read holds no secret. -/
structure Fit (S : SecretDetectors) (e : Entry ν D) : Prop where
  passes : Passes S e
  unread : ∀ text ∈ e.unread, S.containsSecret text = false

/-- What a copy owes: no text column of the inserted row matches a detector, its tags and metadata
carry no private marker, and the row it was copied from was not archived. -/
structure Screened (S : SecretDetectors) (copy : Copy ν D) : Prop where
  texts : ∀ text ∈ copy.inserted.texts, S.containsSecret text = false
  shareable : detectPrivate copy.inserted.tags copy.inserted.extracted_metadata = none
  live : copy.source.archived = false

theorem passes_iff {e : Entry ν D} : Passes S e ↔
    S.containsSecret (shareContent e.body) = false ∧
      detectPrivate e.tags e.extracted_metadata = none := by
  refine ⟨fun h => classify_passes h.1 h.2, fun ⟨hsecret, hprivate⟩ => ?_⟩
  have hclassify : classifyShareCandidate S (gateInput e) =
      if noiseRejection (gateInput e) (Ecma.trim (shareContent e.body)).length then .rejectNoise
      else if 2 * (Ecma.trim (shareContent e.body)).length < 3 * DEFAULT_MIN_SHARE_LENGTH then
        .manualReview
      else .share := by
    unfold classifyShareCandidate gateInput
    simp only [hsecret, hprivate, Option.isSome_none, Bool.false_eq_true, if_false]
  unfold Passes
  rw [hclassify]
  split <;> [skip; split] <;> exact ⟨by decide, by decide⟩

/-- The gate reads the title and the rationale in one text. -/
theorem Fit.texts {e : Entry ν D} (h : Fit S e) :
    ∀ text ∈ e.texts, S.containsSecret text = false := by
  have hgate := (passes_iff.mp h.passes).1
  intro text htext
  rcases mem_cons.mp htext with rfl | htext
  · exact h.unread _ mem_cons_self
  rcases mem_append.mp htext with hbody | htags
  · have hunread : text ∈ e.body.unread → S.containsSecret text = false := fun hmem =>
      h.unread text (mem_cons_of_mem _ (mem_append_left _ hmem))
    cases hb : e.body with
    | thought content source =>
      rw [hb] at hbody hgate hunread
      rcases mem_cons.mp hbody with rfl | hsource
      · exact hgate
      · exact hunread hsource
    | decision title rationale alternatives context =>
      rw [hb] at hbody hgate hunread
      have hjoined := mt (S.joined title rationale) (Bool.eq_false_iff.mp hgate)
      rw [Bool.or_eq_true, not_or, Bool.not_eq_true, Bool.not_eq_true] at hjoined
      rcases mem_cons.mp hbody with rfl | hbody
      · exact hjoined.1
      rcases mem_cons.mp hbody with rfl | hrest
      · exact hjoined.2
      · exact hunread hrest
  · exact h.unread text (mem_cons_of_mem _ (mem_append_right _ htags))

/-! ## The copy -/

theorem lookup_stripped {key : Str} (h : key ∉ STRIPPED_PROMOTION_METADATA_KEYS)
    (metadata : Members ν) : (stripped metadata).lookup key = metadata.lookup key := by
  induction metadata with
  | nil => rfl
  | cons m metadata ih =>
    obtain ⟨name, value⟩ := m
    have ih : (stripped metadata).lookup key = metadata.lookup key := ih
    unfold stripped
    rw [filter_cons, lookup_cons]
    split
    · rw [lookup_cons]
      split
      · rfl
      · exact ih
    · rename_i hname
      have hmem : name ∈ STRIPPED_PROMOTION_METADATA_KEYS := by simpa using hname
      have hne : (key == name) = false := by
        rw [beq_eq_false_iff_ne]
        exact fun heq => h (heq ▸ hmem)
      rw [hne]
      exact ih

/-- The keys a private marker stands under are not among the stripped ones. -/
theorem detectPrivate_stripped (tags : Option (List Str)) (metadata : Option (Members ν)) :
    detectPrivate tags (metadata.map stripped) = detectPrivate tags metadata := by
  cases metadata with
  | none => rfl
  | some metadata =>
    unfold detectPrivate visibilityOf
    simp only [Option.map_some, Option.getD_some]
    rw [lookup_stripped (by decide), lookup_stripped (by decide), lookup_stripped (by decide),
      lookup_stripped (by decide)]

theorem Fit.promoted {e : Entry ν D} (h : Fit S e) (newId target : Str) :
    Fit S (promoted e newId target) where
  passes := by
    have hgate := passes_iff.mp h.passes
    exact passes_iff.mpr ⟨hgate.1, (detectPrivate_stripped _ _).trans hgate.2⟩
  unread := h.unread

theorem Fit.screened {e : Entry ν D} (h : Fit S e) (hlive : e.archived = false)
    (newId target : Str) :
    Screened S { source := e, inserted := Promotion.promoted e newId target } where
  texts := (h.promoted newId target).texts
  shareable := (passes_iff.mp (h.promoted newId target).passes).2
  live := hlive

theorem insertCopy_some [DecidableEq D] {entries : List (Entry ν D)} {r : Request}
    {source : Entry ν D} {newId : Str} {copy : Copy ν D}
    (h : insertCopy entries r source newId = some copy) :
    ∃ row ∈ entries, row.key = r.key ∧ (r.table, newId) ∉ entries.map Entry.key ∧
      copy = { source := row, inserted := promoted row newId r.target } := by
  unfold insertCopy at h
  split at h
  · cases h
  · rename_i row hfind
    split at h
    · cases h
    · rename_i hfree
      have hrow := find?_some hfind
      simp only [Bool.or_eq_true, not_or, any_eq_true, not_exists, not_and] at hfree
      refine ⟨row, mem_of_find?_eq_some hfind, ?_, ?_, (Option.some.inj h).symm⟩
      · exact of_decide_eq_true (Bool.and_eq_true_iff.mp hrow).1
      · intro hmem
        obtain ⟨e, he, hkey⟩ := mem_map.mp hmem
        exact hfree.1 e he (decide_eq_true hkey)

/-! ## The other writers keep the keys -/

theorem edited_key (H : ContentHash) (edit : Edit) (e : Entry ν H.Digest) :
    (edited H edit e).key = e.key := by
  unfold edited Entry.key
  cases e.body <;> rfl

theorem updateEntry_keys (H : ContentHash) (entries : List (Entry ν H.Digest))
    (key : PromotableTable × Str) (writable : Str → Bool) (edit : Edit) :
    (updateEntry H entries key writable edit).map Entry.key = entries.map Entry.key :=
  Table.column_updateWhere (edited_key H edit)

theorem archiveEntry_keys (entries : List (Entry ν D)) (key : PromotableTable × Str)
    (writable : Str → Bool) :
    (archiveEntry entries key writable).map Entry.key = entries.map Entry.key :=
  Table.column_updateWhere fun _ => rfl

theorem mem_updateEntry {H : ContentHash} {entries : List (Entry ν H.Digest)}
    {key : PromotableTable × Str} {writable : Str → Bool} {edit : Edit} {e : Entry ν H.Digest}
    (h : e ∈ updateEntry H entries key writable edit) :
    e ∈ entries ∨ ∃ old ∈ entries, old.key = key ∧ e = edited H edit old := by
  rcases Table.mem_or_of_mem_updateWhere h with h | ⟨old, hold, hif, heq⟩
  · exact .inl h
  · simp only [Bool.and_eq_true, decide_eq_true_eq] at hif
    exact .inr ⟨old, hold, hif.1.1.1, heq.symm⟩

theorem mem_archiveEntry {entries : List (Entry ν D)} {key : PromotableTable × Str}
    {writable : Str → Bool} {e : Entry ν D} (h : e ∈ archiveEntry entries key writable) :
    e ∈ entries ∨ ∃ old ∈ entries, old.key = key ∧ e = { old with archived := true } := by
  rcases Table.mem_or_of_mem_updateWhere h with h | ⟨old, hold, hif, heq⟩
  · exact .inl h
  · exact .inr ⟨old, hold, of_decide_eq_true (Bool.and_eq_true_iff.mp hif).1, heq.symm⟩

/-! ## What a run keeps -/

/-- The request of a call the gate has let through and whose copy is still to come. -/
def Phase.pending : Phase ν D → Option Request
  | .gated r | .loaded r _ | .checked r _ => some r
  | _ => none

/-- The request of a call whose service has read the row. -/
def Phase.pastRead : Phase ν D → Option Request
  | .loaded r _ | .checked r _ => some r
  | _ => none

/-- What the steps of a run have to leave alone: the columns the gate does not read hold no secret
when it lets the row through; an edit of a row whose promotion is past the gate leaves it one the
gate would let through, with clean columns; and no archiving falls between the service's own read
and the copy. -/
def Undisturbed (S : SecretDetectors) (H : ContentHash) (s : State ν H.Digest) : Label → Prop
  | .gate _ r => ∀ e ∈ s.entries, e.key = r.key → Passes S e →
      ∀ text ∈ e.unread, S.containsSecret text = false
  | .update key writable edit => ∀ call r, (s.calls call).pending = some r → r.key = key →
      ∀ e ∈ updateEntry H s.entries key writable edit, e.key = key → Fit S e
  | .archive key writable => ∀ call r, (s.calls call).pastRead = some r → r.key = key →
      ∀ e ∈ archiveEntry s.entries key writable, e.key = key → e.archived = false
  | _ => True

structure Held (S : SecretDetectors) (s : State ν D) : Prop where
  keys : (s.entries.map Entry.key).Nodup
  fit : ∀ call r, (s.calls call).pending = some r → ∀ e ∈ s.entries, e.key = r.key → Fit S e
  live : ∀ call r, (s.calls call).pastRead = some r →
    ∀ e ∈ s.entries, e.key = r.key → e.archived = false
  screened : ∀ copy ∈ s.copies, Screened S copy

theorem Held.turn {s : State ν D} (h : Held S s) (call : Nat) {phase : Phase ν D}
    (hfit : ∀ r, phase.pending = some r → ∀ e ∈ s.entries, e.key = r.key → Fit S e)
    (hlive : ∀ r, phase.pastRead = some r → ∀ e ∈ s.entries, e.key = r.key → e.archived = false) :
    Held S (s.turn call phase) where
  keys := h.keys
  fit := by
    intro call' r hr
    by_cases heq : call' = call
    · subst heq
      exact hfit r (by simpa [State.turn] using hr)
    · exact h.fit call' r (by simpa [State.turn, heq] using hr)
  live := by
    intro call' r hr
    by_cases heq : call' = call
    · subst heq
      exact hlive r (by simpa [State.turn] using hr)
    · exact h.live call' r (by simpa [State.turn, heq] using hr)
  screened := h.screened

theorem Held.ended {s : State ν D} (h : Held S s) (call : Nat) : Held S (s.turn call .ended) :=
  h.turn call (fun _ hr => (nomatch hr)) (fun _ hr => (nomatch hr))

theorem readRow_some {entries : List (Entry ν D)} {r : Request} {row : Entry ν D}
    (h : readRow entries r = some row) :
    row ∈ entries ∧ row.key = r.key ∧ row.archived = false := by
  have hrow := find?_some h
  simp only [Bool.and_eq_true, decide_eq_true_eq, Bool.not_eq_true'] at hrow
  exact ⟨mem_of_find?_eq_some h, hrow.1.1, hrow.1.2⟩

/-- The row a call reads is the only one it can copy. -/
theorem Held.only {s : State ν D} (h : Held S s) {row e : Entry ν D} (hrow : row ∈ s.entries)
    (he : e ∈ s.entries) (hkey : e.key = row.key) : e = row :=
  inj_on_of_nodup_map h.keys he hrow hkey

theorem Held.gate {s : State ν D} (h : Held S s) (call : Nat) (r : Request)
    (hclean : ∀ e ∈ s.entries, e.key = r.key → Passes S e →
      ∀ text ∈ e.unread, S.containsSecret text = false) :
    Held S (s.turn call (handlePromoteShared S s.entries r)) := by
  unfold handlePromoteShared
  split
  · exact h.ended call
  split
  · exact h.ended call
  · rename_i row hread
    obtain ⟨hrow, hkey, -⟩ := readRow_some hread
    dsimp only
    split
    · exact h.ended call
    split
    · exact h.ended call
    · rename_i hpass _
      have hpasses : Passes S row := not_or.mp hpass
      refine h.turn call (fun r' hr' e he hekey => ?_) fun _ hr' => (nomatch hr')
      cases hr'
      rw [h.only hrow he (hekey.trans hkey.symm)]
      exact ⟨hpasses, hclean row hrow hkey hpasses⟩

theorem Held.read {s : State ν D} (h : Held S s) {call : Nat} {r : Request}
    (hphase : s.calls call = .gated r) : Held S (s.turn call (readSource s.entries r)) := by
  have hfit := h.fit call r (by rw [hphase]; rfl)
  unfold readSource
  split
  · exact h.ended call
  · rename_i source hread
    obtain ⟨hrow, hkey, hlive⟩ := readRow_some hread
    split
    · exact h.ended call
    split
    · exact h.ended call
    · refine h.turn call (fun r' hr' => ?_) fun r' hr' e he hekey => ?_
      · cases hr'
        exact hfit
      · cases hr'
        rw [h.only hrow he (hekey.trans hkey.symm)]
        exact hlive

theorem Held.check [DecidableEq D] {s : State ν D} (h : Held S s) {call : Nat} {r : Request}
    {source : Entry ν D} (hphase : s.calls call = .loaded r source) :
    Held S (s.turn call (checkDuplicate s.entries r source)) := by
  have hfit := h.fit call r (by rw [hphase]; rfl)
  have hlive := h.live call r (by rw [hphase]; rfl)
  unfold checkDuplicate
  split
  · exact h.ended call
  split
  · exact h.ended call
  split
  · exact h.ended call
  · refine h.turn call (fun r' hr' => ?_) fun r' hr' => ?_
    · cases hr'
      exact hfit
    · cases hr'
      exact hlive

/-- The copied row was fit and live, and so is the new one, whoever may be promoting it next. -/
theorem Held.copy [DecidableEq D] {s : State ν D} (h : Held S s) {call : Nat} {r : Request}
    {source : Entry ν D} (hphase : s.calls call = .checked r source) {newId : Str}
    {copy : Copy ν D} (hcopy : insertCopy s.entries r source newId = some copy) :
    Held S { s.turn call .ended with
      entries := s.entries ++ [copy.inserted], copies := s.copies ++ [copy] } := by
  obtain ⟨row, hrow, hkey, hfree, rfl⟩ := insertCopy_some hcopy
  have hfit := h.fit call r (by rw [hphase]; rfl) row hrow hkey
  have hlive := h.live call r (by rw [hphase]; rfl) row hrow hkey
  have hended := h.ended call
  have hnew : (Promotion.promoted row newId r.target).key = (r.table, newId) :=
    congrArg (fun key => (key.1, newId)) hkey
  constructor
  · show ((s.entries ++ [_]).map Entry.key).Nodup
    rw [map_append, map_singleton, hnew]
    exact nodup_append.mpr ⟨h.keys, nodup_singleton _, fun key hmem key' hkey' heq =>
      hfree (mem_singleton.mp hkey' ▸ heq ▸ hmem)⟩
  · intro call' r' hr' e he hekey
    rcases mem_append.mp he with he | he
    · exact hended.fit call' r' hr' e he hekey
    · rw [mem_singleton.mp he]
      exact hfit.promoted newId r.target
  · intro call' r' hr' e he hekey
    rcases mem_append.mp he with he | he
    · exact hended.live call' r' hr' e he hekey
    · rw [mem_singleton.mp he]
      rfl
  · intro copy hmem
    rcases mem_append.mp hmem with hmem | hmem
    · exact h.screened copy hmem
    · rw [mem_singleton.mp hmem]
      exact hfit.screened hlive newId r.target

theorem Held.update {H : ContentHash} {s : State ν H.Digest} (h : Held S s)
    {key : PromotableTable × Str} {writable : Str → Bool} {edit : Edit}
    (hguard : Undisturbed S H s (.update key writable edit)) :
    Held S { s with entries := updateEntry H s.entries key writable edit } where
  keys := by
    show ((updateEntry H s.entries key writable edit).map Entry.key).Nodup
    rw [updateEntry_keys]
    exact h.keys
  fit := by
    intro call r hr e he hekey
    rcases mem_updateEntry he with hold | ⟨old, hold, hkey, rfl⟩
    · exact h.fit call r hr e hold hekey
    · have hmine : r.key = key := hekey.symm.trans ((edited_key H edit old).trans hkey)
      exact hguard call r hr hmine _ he (hekey.trans hmine)
  live := by
    intro call r hr e he hekey
    rcases mem_updateEntry he with hold | ⟨old, hold, hkey, rfl⟩
    · exact h.live call r hr e hold hekey
    · exact h.live call r hr old hold ((edited_key H edit old).symm.trans hekey)
  screened := h.screened

theorem Held.archive {H : ContentHash} {s : State ν H.Digest} (h : Held S s)
    {key : PromotableTable × Str} {writable : Str → Bool}
    (hguard : Undisturbed S H s (.archive key writable)) :
    Held S { s with entries := archiveEntry s.entries key writable } where
  keys := by
    show ((archiveEntry s.entries key writable).map Entry.key).Nodup
    rw [archiveEntry_keys]
    exact h.keys
  fit := by
    intro call r hr e he hekey
    rcases mem_archiveEntry he with hold | ⟨old, hold, -, rfl⟩
    · exact h.fit call r hr e hold hekey
    · have hfit := h.fit call r hr old hold hekey
      exact ⟨hfit.passes, hfit.unread⟩
  live := by
    intro call r hr e he hekey
    rcases mem_archiveEntry he with hold | ⟨old, hold, hkey, rfl⟩
    · exact h.live call r hr e hold hekey
    · have hmine : r.key = key := hekey.symm.trans hkey
      exact hguard call r hr hmine _ he (hekey.trans hmine)
  screened := h.screened

theorem held_inductive (S : SecretDetectors) (H : ContentHash) :
    (system (ν := ν) S H).InductiveOn (Undisturbed S H) (Held S) where
  init := by
    rintro s ⟨hkeys, hidle, hcopies⟩
    exact
      { keys := hkeys
        fit := fun call r hr => by rw [hidle call] at hr; cases hr
        live := fun call r hr => by rw [hidle call] at hr; cases hr
        screened := fun copy hmem => by rw [hcopies] at hmem; cases hmem }
  step := by
    intro s l s' h hguard hstep
    replace hstep : step S H s l = some s' := hstep
    cases l with
    | gate call r =>
      simp only [step] at hstep
      split at hstep
      · rw [← Option.some.inj hstep]
        exact h.gate call r hguard
      · cases hstep
    | read call =>
      simp only [step] at hstep
      split at hstep
      · rename_i r hphase
        rw [← Option.some.inj hstep]
        exact h.read hphase
      · cases hstep
    | check call =>
      simp only [step] at hstep
      split at hstep
      · rename_i r source hphase
        rw [← Option.some.inj hstep]
        exact h.check hphase
      · cases hstep
    | copy call newId =>
      simp only [step] at hstep
      split at hstep
      · rename_i r source hphase
        split at hstep
        · rw [← Option.some.inj hstep]
          exact h.ended call
        · rename_i copy hcopy
          rw [← Option.some.inj hstep]
          exact h.copy hphase hcopy
      · cases hstep
    | update key writable edit =>
      rw [← Option.some.inj hstep]
      exact h.update hguard
    | archive key writable =>
      rw [← Option.some.inj hstep]
      exact h.archive hguard

/-- Every row a promotion inserts is screened, in every run that leaves the promoted rows alone. -/
theorem copies_screened (S : SecretDetectors) (H : ContentHash) (s : State ν H.Digest)
    (h : (system S H).ReachableOn (Undisturbed S H) s) : ∀ copy ∈ s.copies, Screened S copy :=
  ((held_inductive S H).reachable h).screened

/-! ## Two promotions -/

theorem infix_dropWhile {p : Str} {u : UInt16} {rest : Str} (hp : p = u :: rest)
    (hu : Ecma.isSpace u = false) {text : Str} (h : p <:+: text) :
    p <:+: text.dropWhile Ecma.isSpace := by
  induction text with
  | nil => exact h
  | cons c text ih =>
    rw [dropWhile_cons]
    split
    · rename_i hc
      rcases infix_cons_iff.mp h with hfront₀ | hinfix
      · rw [hp, cons_prefix_cons] at hfront₀
        rw [hfront₀.1] at hu
        rw [hu] at hc
        cases hc
      · exact ih hinfix
    · exact h

def exampleKey : Str := units "sk-abcdefghij"

def keyDetector : SecretDetectors where
  containsSecret := fun text => decide (exampleKey <:+: text)
  joined := by
    intro title rationale h
    have hjoined : exampleKey <:+: title ++ units " " ++ rationale := by
      rw [Bool.or_eq_true, decide_eq_true_iff, decide_eq_true_iff] at h
      rcases h with h | h
      · exact h.trans ⟨[], units " " ++ rationale, by simp⟩
      · exact h.trans ⟨title ++ units " ", [], by simp⟩
    have hfront := infix_dropWhile (p := exampleKey) rfl (by decide) hjoined
    have hback := infix_dropWhile (p := exampleKey.reverse) rfl (by decide)
      (List.reverse_infix.mpr hfront)
    have htrim := List.reverse_infix.mpr hback
    rw [reverse_reverse] at htrim
    exact decide_eq_true htrim

def plainHash : ContentHash where
  Digest := Str
  toLowerCase := lowerCase
  sha256 := id

def decisionOn (context : Option Str) : State Nat Str where
  entries := [
    { id := units "d1"
      ns := units "aria"
      body := .decision (units "Keep one relay per lane") (units "Two relays reorder events") []
        context
      tags := none
      created_by := units "aria"
      extracted_metadata := none
      content_hash := some (units "h1")
      archived := false }]
  calls := fun _ => .idle
  copies := []

def shareRequest : Request where
  table := .decisions
  id := units "d1"
  target := units "shared-kb"
  authorized := true
  readable := fun _ => true
  targetWritable := true
  held := false
  dryRun := false
  killSwitch := false

def shareRun : List Label :=
  [.gate 0 shareRequest, .read 0, .check 0, .copy 0 (units "d2")]

theorem decisionOn_initial (context : Option Str) : Initial (decisionOn context) :=
  ⟨nodup_singleton _, fun _ => rfl, rfl⟩

theorem copies_screened_decision : ∃ s : State Nat Str, s.copies ≠ [] ∧
    ∀ copy ∈ s.copies, Screened keyDetector copy := by
  have hexec : (LTS.exec (step keyDetector plainHash) (decisionOn none) shareRun).any
      (fun s => !s.copies.isEmpty) = true := by decide +kernel
  cases hs : LTS.exec (step keyDetector plainHash) (decisionOn none) shareRun with
  | none => rw [hs] at hexec; cases hexec
  | some s =>
    rw [hs] at hexec
    refine ⟨s, fun hnil => ?_, copies_screened keyDetector plainHash s ?_⟩
    · have hne : (!s.copies.isEmpty) = true := hexec
      rw [hnil] at hne
      cases hne
    obtain ⟨s₁, h₁, hs⟩ := Option.bind_eq_some_iff.mp hs
    obtain ⟨s₂, h₂, hs⟩ := Option.bind_eq_some_iff.mp hs
    obtain ⟨s₃, h₃, hs⟩ := Option.bind_eq_some_iff.mp hs
    obtain ⟨s₄, h₄, hs⟩ := Option.bind_eq_some_iff.mp hs
    cases hs
    have hclean : Undisturbed keyDetector plainHash (decisionOn none) (.gate 0 shareRequest) := by
      intro e he _ _ text htext
      rw [mem_singleton.mp he] at htext
      rw [mem_singleton.mp htext]
      decide +kernel
    exact ⟨_, shareRun, decisionOn_initial none,
      .cons hclean h₁ (.cons trivial h₂ (.cons trivial h₃ (.cons trivial h₄ (.nil _))))⟩

/-- A key in the context of a decision: the gate never reads it. -/
theorem context_leaks : ¬∀ s : State Nat Str, (system keyDetector plainHash).Reachable s →
    ∀ copy ∈ s.copies, Screened keyDetector copy := by
  intro h
  have hexec : (LTS.exec (step keyDetector plainHash)
      (decisionOn (some (units "token sk-abcdefghij"))) shareRun).any
        (fun s => s.copies.any fun copy => copy.inserted.texts.any keyDetector.containsSecret) =
          true := by
    decide +kernel
  cases hs : LTS.exec (step keyDetector plainHash)
      (decisionOn (some (units "token sk-abcdefghij"))) shareRun with
  | none => rw [hs] at hexec; cases hexec
  | some s =>
    rw [hs] at hexec
    obtain ⟨copy, hcopy, hleak⟩ := any_eq_true.mp hexec
    obtain ⟨text, htext, hsecret⟩ := any_eq_true.mp hleak
    have hreach : (system keyDetector plainHash).Reachable s :=
      ⟨_, shareRun, decisionOn_initial _, LTS.runOn_of_exec_any hs⟩
    rw [(h s hreach copy hcopy).texts text htext] at hsecret
    cases hsecret

end OpenBrain.Server.Promotion
