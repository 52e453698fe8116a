import OpenBrain.Server.Entries.Writers

/-!
# `session_save` (`server/tools/session-save-load.ts`)

The sessions of a namespace are unique by their id, where they have one, and by their content hash.
The upsert names the first index alone as its conflict target, and of a row it finds it leaves the
project. So it stores what it was given, and again when it is repeated, exactly where the session
has an id, its text is no other session's, and the row there is has the project of the call
(`stores_iff`).
-/
namespace OpenBrain.Server.Entries
open OpenBrain.Core OpenBrain.Core.Table OpenBrain.Server.Embedding List

structure SavedCols extends SessionCols where
  tags : List Str
deriving DecidableEq, Repr

structure SessionSaveArgs extends SaveArgs where
  tags : Option (List Str)

def savedOk {D : Type} [DecidableEq D] (rows : List (Row SavedCols D)) : Prop :=
  Hashed rows ∧ Keyed (·.session_id) rows

instance {D : Type} [DecidableEq D] : DecidablePred (savedOk (D := D)) := fun _ =>
  inferInstanceAs (Decidable (_ ∧ _))

section
variable (H : ContentHash) (model : Option Str)

def SessionSaveArgs.columns (args : SessionSaveArgs) : SavedCols :=
  { args.source with
    session_id := args.session_id
    tags := args.tags.getD [] }

def SessionSaveArgs.set (args : SessionSaveArgs) (c : SavedCols) : SavedCols :=
  { args.merge c.toSessionCols with tags := args.tags.getD [] }

def isSession {D : Type} (ns : Str) (session_id : Option Str) (r : Row SavedCols D) : Bool :=
  r.ns = ns && r.cols.session_id.isSome && r.cols.session_id = session_id

def sessionHash (args : SessionSaveArgs) : H.Digest :=
  contentHash H (sessionSourceHashInput args.source)

def saved (args : SessionSaveArgs) (r : Row SavedCols H.Digest) : Row SavedCols H.Digest :=
  reembedded H model r (args.set r.cols) (sessionEmbedText args.source)
    (sessionSourceHashInput args.source)

def newSession (id ns : Str) (args : SessionSaveArgs) : Row SavedCols H.Digest :=
  freshRow H model id ns args.columns (sessionEmbedText args.source)
    (sessionSourceHashInput args.source)

/-- `id` is the one a new row would get; `none` is a call that an index refused.
mirrors db/session-repository.ts:337-355 -/
def upsertSavedSession (id ns : Str) (args : SessionSaveArgs)
    (t : Constrained (Row SavedCols H.Digest) savedOk) :
    Option (Constrained (Row SavedCols H.Digest) savedOk) :=
  attempt (upsert (isSession ns args.session_id) (saved H model args)
    (newSession H model id ns args) t.rows)

/-- What a call owes: it succeeds, leaves one row of the session with the columns given and every
other row as it was, and the same call again succeeds and leaves the rows as they are. -/
def Stores (id id' ns : Str) (args : SessionSaveArgs)
    (t : Constrained (Row SavedCols H.Digest) savedOk) : Prop :=
  ∃ t', upsertSavedSession H model id ns args t = some t' ∧
    (args.session_id ≠ none → (∃! r, r ∈ t'.rows ∧ isSession ns args.session_id r = true) ∧
      ∀ r ∈ t'.rows, isSession ns args.session_id r = true → r.cols = args.columns) ∧
    (∀ r, isSession ns args.session_id r = false → r ≠ newSession H model id ns args →
      (r ∈ t'.rows ↔ r ∈ t.rows)) ∧
    ∃ t'', upsertSavedSession H model id' ns args t' = some t'' ∧ t''.rows = t'.rows

/-- Of the session's namespace, the rows with the text of the call are of the session, and the row
of the session has the project of the call. -/
structure Clear (ns : Str) (args : SessionSaveArgs) (rows : List (Row SavedCols H.Digest)) :
    Prop where
  session : args.session_id ≠ none
  own_text : ∀ r ∈ rows, sameHash H (sessionHash H args) ns r = true →
    isSession ns args.session_id r = true
  project : ∀ r ∈ rows, isSession ns args.session_id r = true → r.cols.project = args.project

variable {H model}

theorem isSession_iff {D : Type} {ns : Str} {session_id : Option Str} {r : Row SavedCols D} :
    isSession ns session_id r = true ↔
      r.ns = ns ∧ r.cols.session_id ≠ none ∧ r.cols.session_id = session_id := by
  simp [isSession, Option.isSome_iff_ne_none, and_assoc]

variable {id id' ns : Str} {args : SessionSaveArgs}
  {t : Constrained (Row SavedCols H.Digest) savedOk}

theorem isSession_saved (r : Row SavedCols H.Digest) :
    isSession ns args.session_id (saved H model args r) = isSession ns args.session_id r := rfl

theorem isSession_new (h : args.session_id ≠ none) :
    isSession ns args.session_id (newSession H model id ns args) = true :=
  isSession_iff.mpr ⟨rfl, h, rfl⟩

theorem saved_saved (r : Row SavedCols H.Digest) :
    saved H model args (saved H model args r) = saved H model args r := rfl

theorem saved_new : saved H model args (newSession H model id ns args) =
    newSession H model id ns args := rfl

theorem key_of_isSession {r : Row SavedCols H.Digest}
    (h : isSession ns args.session_id r = true) : ∃ s, args.session_id = some s ∧
      (r.cols.session_id.map fun k => (r.ns, k)) = some (ns, s) := by
  obtain ⟨hns, hsome, hid⟩ := isSession_iff.mp h
  obtain ⟨s, hs⟩ := Option.ne_none_iff_exists'.mp hsome
  rw [hs, hns]
  exact ⟨s, hid.symm.trans hs, rfl⟩

theorem session_unique (t : Constrained (Row SavedCols H.Digest) savedOk)
    {q r : Row SavedCols H.Digest} (hq : q ∈ t.rows)
    (hr : r ∈ t.rows) (hqs : isSession ns args.session_id q = true)
    (hrs : isSession ns args.session_id r = true) : q = r := by
  obtain ⟨s, hs, hqk⟩ := key_of_isSession hqs
  obtain ⟨s', hs', hrk⟩ := key_of_isSession hrs
  cases hs.symm.trans hs'
  exact t.ok.2.eq hq hr hqk hrk

theorem exists_saved {t' : Constrained (Row SavedCols H.Digest) savedOk}
    (h : upsertSavedSession H model id ns args t = some t') :
    ∃ q ∈ t'.rows, hashKey q = some (sessionHash H args, ns) ∧
      (q = newSession H model id ns args ∨ isSession ns args.session_id q = true) := by
  rw [rows_of_attempt h]
  unfold upsert
  split
  · rename_i hany
    obtain ⟨q, hq, hqs⟩ := any_eq_true.mp hany
    refine ⟨saved H model args q, mem_updateWhere.mpr (.inr ⟨q, hq, hqs, rfl⟩), ?_, .inr hqs⟩
    show some (sessionHash H args, q.ns) = _
    rw [(isSession_iff.mp hqs).1]
  · exact ⟨_, mem_append_right _ (mem_singleton.mpr rfl), rfl, .inl rfl⟩

/-- Without an id the second call meets the row of the first. -/
theorem not_stores_of_none (hnone : args.session_id = none) : ¬ Stores H model id id' ns args t := by
  rintro ⟨t', h, -, -, t'', h', heq⟩
  obtain ⟨q, hq, -, -⟩ := exists_saved h
  have hlonger : t''.rows = t'.rows ++ [newSession H model id' ns args] := by
    rw [rows_of_attempt h']
    refine if_neg fun hany => ?_
    obtain ⟨r, -, hr⟩ := any_eq_true.mp hany
    obtain ⟨-, hsome, hid⟩ := isSession_iff.mp hr
    exact hsome (hid.trans hnone)
  have := congrArg List.length (heq.symm.trans hlonger)
  rw [length_append, length_singleton] at this
  omega

theorem Clear.of_stores (h : Stores H model id id' ns args t) : Clear H ns args t.rows := by
  have hsession : args.session_id ≠ none := fun hnone => not_stores_of_none hnone h
  obtain ⟨t', hcall, hgiven, hframe, -⟩ := h
  obtain ⟨-, hcolumns⟩ := hgiven hsession
  refine ⟨hsession, fun r hr hsame => ?_, fun r hr hrs => ?_⟩
  · by_contra hother
    rw [Bool.not_eq_true] at hother
    have hne : r ≠ newSession H model id ns args := by
      rintro rfl
      rw [isSession_new hsession] at hother
      cases hother
    -- the row keeps its hash, and the row of the session has it too
    obtain ⟨q, hq, hqkey, hqs⟩ := exists_saved hcall
    have hrkey : hashKey r = some (sessionHash H args, ns) := by
      unfold sameHash at hsame
      rw [Bool.and_eq_true, decide_eq_true_eq, decide_eq_true_eq] at hsame
      unfold hashKey
      rw [hsame.1, hsame.2]
      rfl
    have hqr : r = q := t'.ok.1.2.eq ((hframe r hother hne).mpr hr) hq hrkey hqkey
    rcases hqs with h | h
    · exact hne (hqr.trans h)
    · rw [hqr, h] at hother
      cases hother
  · have hstays : saved H model args r ∈ t'.rows := by
      rw [rows_of_attempt hcall, upsert, if_pos (any_eq_true.mpr ⟨r, hr, hrs⟩)]
      exact mem_updateWhere.mpr (.inr ⟨r, hr, hrs, rfl⟩)
    exact congrArg (fun c => c.project) (hcolumns _ hstays hrs)

theorem Clear.succeeds (h : Clear H ns args t.rows) (hid : ∀ r ∈ t.rows, r.id ≠ id) :
    ∃ t', upsertSavedSession H model id ns args t = some t' := by
  have hown : ∀ r ∈ t.rows, isSession ns args.session_id r = false →
      hashKey r ≠ some (sessionHash H args, ns) := by
    intro r hr hother hkey
    obtain ⟨hash, hhash, heq⟩ := Option.map_eq_some_iff.mp hkey
    obtain ⟨rfl, hrns⟩ := Prod.mk.inj heq
    rw [h.own_text r hr (by simp [sameHash, hhash, hrns])] at hother
    cases hother
  have hone : t.rows.Pairwise fun a b => isSession ns args.session_id a = true →
      isSession ns args.session_id b = false := by
    refine (unique_iff.mp t.ok.2).imp fun hab ha => Bool.eq_false_iff.mpr fun hb => ?_
    obtain ⟨s, hs, hak⟩ := key_of_isSession ha
    obtain ⟨s', hs', hbk⟩ := key_of_isSession hb
    cases hs.symm.trans hs'
    exact hab _ hak hbk
  unfold upsertSavedSession
  suffices hok : savedOk (upsert (isSession ns args.session_id) (saved H model args)
      (newSession H model id ns args) t.rows) by
    obtain ⟨t', ht', -⟩ := attempt_of_ok hok
    exact ⟨t', ht'⟩
  unfold upsert
  split
  · -- the row of the session keeps its keys and takes the hash, which no other row has
    have hkept : ∀ {κ : Type} {key : Row SavedCols H.Digest → Option κ}, Unique key t.rows →
        (∀ r, key (saved H model args r) = key r) →
        Unique key (updateWhere (isSession ns args.session_id) (saved H model args) t.rows) := by
      intro κ key hu hkey
      refine hu.updateWhere hone fun q hq hqs k hk r hr hrs hrk => ?_
      rw [hu.eq hr hq hrk ((hkey q).symm.trans hk), hqs] at hrs
      cases hrs
    refine ⟨⟨hkept t.ok.1.1 fun _ => rfl, ?_⟩, hkept t.ok.2 fun _ => rfl⟩
    refine t.ok.1.2.updateWhere hone fun q _ hqs k hk r hr hrs hrk => hown r hr hrs ?_
    rw [hrk, ← hk]
    show some (sessionHash H args, q.ns) = _
    rw [(isSession_iff.mp hqs).1]
  · rename_i hno
    have hother : ∀ r ∈ t.rows, isSession ns args.session_id r = false :=
      fun r hr => Bool.eq_false_iff.mpr fun hrs => hno (any_eq_true.mpr ⟨r, hr, hrs⟩)
    refine ⟨⟨t.ok.1.1.concat ?_, t.ok.1.2.concat ?_⟩, t.ok.2.concat ?_⟩
    · intro k hk r hr hrk
      exact hid r hr (Option.some.inj (hrk.trans hk.symm))
    · intro k hk r hr hrk
      exact hown r hr (hother r hr) (hrk.trans hk.symm)
    · intro k hk r hr hrk
      obtain ⟨s, hs, rfl⟩ := Option.map_eq_some_iff.mp hk
      obtain ⟨s', hs', heq⟩ := Option.map_eq_some_iff.mp hrk
      obtain ⟨hrns, rfl⟩ := Prod.mk.inj heq
      have : isSession ns args.session_id r = true :=
        isSession_iff.mpr ⟨hrns, ne_of_eq_of_ne hs' (Option.some_ne_none _), hs'.trans hs.symm⟩
      rw [hother r hr] at this
      cases this

theorem Clear.stores (h : Clear H ns args t.rows) (hid : ∀ r ∈ t.rows, r.id ≠ id) :
    Stores H model id id' ns args t := by
  obtain ⟨t', hcall⟩ : ∃ t', upsertSavedSession H model id ns args t = some t' := h.succeeds hid
  have hrows := rows_of_attempt hcall
  have hnew : isSession ns args.session_id (newSession H model id ns args) = true :=
    isSession_new h.session
  have hmem : ∀ {r}, r ∈ t'.rows → isSession ns args.session_id r = true →
      r.cols = args.columns ∧ saved H model args r = r := by
    intro r hr hrs
    rw [hrows, upsert] at hr
    split at hr
    · rcases mem_updateWhere.mp hr with ⟨-, hno⟩ | ⟨q, hq, hqs, rfl⟩
      · rw [hno] at hrs
        cases hrs
      · refine ⟨?_, saved_saved q⟩
        show args.set q.cols = _
        unfold SessionSaveArgs.set SaveArgs.merge SessionSaveArgs.columns SaveArgs.source
        rw [h.project q hq hqs, (isSession_iff.mp hqs).2.2]
    · rename_i hno
      rcases mem_append.mp hr with hr | hr
      · exact absurd (any_eq_true.mpr ⟨r, hr, hrs⟩) hno
      · rw [mem_singleton.mp hr]
        exact ⟨rfl, saved_new⟩
  have hthere : ∃ r ∈ t'.rows, isSession ns args.session_id r = true := by
    obtain ⟨q, hq, -, rfl | hqs⟩ := exists_saved hcall
    · exact ⟨_, hq, hnew⟩
    · exact ⟨q, hq, hqs⟩
  obtain ⟨q, hq, hqs⟩ := hthere
  refine ⟨t', hcall, fun _ => ⟨⟨q, ⟨hq, hqs⟩, fun r hr => session_unique t' hr.1 hq hr.2 hqs⟩,
    fun r hr hrs => (hmem hr hrs).1⟩, fun r hrs hne => ?_, ?_⟩
  · rw [hrows, upsert]
    split
    · constructor
      · intro hr
        rcases mem_updateWhere.mp hr with ⟨hr, -⟩ | ⟨q, -, hqs, rfl⟩
        · exact hr
        · rw [isSession_saved, hqs] at hrs
          cases hrs
      · exact fun hr => mem_updateWhere.mpr (.inl ⟨hr, hrs⟩)
    · rw [mem_append, mem_singleton]
      exact or_iff_left hne
  · -- the row of the session is as the call leaves it
    have hsame : upsert (isSession ns args.session_id) (saved H model args)
        (newSession H model id' ns args) t'.rows = t'.rows := by
      rw [upsert, if_pos (any_eq_true.mpr ⟨q, hq, hqs⟩)]
      unfold updateWhere
      refine (map_congr_left fun r hr => ?_).trans t'.rows.map_id
      split
      · exact (hmem hr ‹_›).2
      · rfl
    unfold upsertSavedSession
    rw [hsame]
    exact attempt_of_ok t'.ok

section Samples

def plainHash : ContentHash where
  Digest := Str
  toLowerCase text := text
  sha256 text := text

def noSessions : Constrained (Row SavedCols plainHash.Digest) savedOk := ⟨[], by decide⟩

def samplePlan : SessionSaveArgs := ⟨⟨units "done", some (units "p"), some (units "s1"),
  none, none, none⟩, none⟩

end Samples

end
end OpenBrain.Server.Entries
