import OpenBrain.Core.LTS
import OpenBrain.Core.RowLocks
import OpenBrain.Server.DreamLight.Occurrences

/-!
# Light sweeps (`server/maintenance/dream-light.ts`)

Sweeps run at once, each in a transaction of its own: it claims turns that nobody else has claimed,
records them one by one, each on a row that nobody else has written, stamps them and commits; or it
is killed and leaves nothing. `light_counts`: turns are counted once and occurrences are right in
every state of every run; which contents have the right session count, and which sweeps report
what they raised, depends on the turns.
-/
namespace OpenBrain.Server.DreamLight
open OpenBrain.Core OpenBrain.Core.RowLocks List

/-- A row of `ob_raw_turns`. -/
structure RawTurn where
  id : Nat
  «namespace» : Str
  content : Str
  content_hash : Str
  session_ref : Option Str
  role : Option Str
  occurred_at : Option Int
  light_swept : Bool

def RawTurn.row (t : RawTurn) : Option SweepRow :=
  t.occurred_at.map fun occurred_at =>
    { id := t.id, «namespace» := t.namespace, content := t.content, content_hash := t.content_hash
      session_ref := t.session_ref, role := t.role, occurred_at := occurred_at }

/-- The unique index of `content_occurrences`. -/
abbrev Key := Str × Str

def keyOf (row : SweepRow) : Key := (row.namespace, row.content_hash)

/-- mirrors dream-light.ts:121-132 -/
structure DreamLightSummary where
  scanned : Nat
  skipped_noise : Nat
  created : Nat
  updated : Nat
  corroborated : Nat

/-- A sweep inside its transaction: the turns it has gone through, whose ids are `sweptIds`, those
still to come, what it has written and its summary; and, for comparison, by how much it has raised
the session counts of rows that were there. -/
structure Sweep where
  past : List SweepRow
  todo : List SweepRow
  tx : Tx Key (Option Occurrence) SweepRow
  summary : DreamLightSummary
  raised : Nat

def Sweep.claimed (s : Sweep) : List SweepRow := s.past ++ s.todo

/-- mirrors dream-light.ts:160-182 -/
def Sweep.start (claimed : List SweepRow) : Sweep where
  past := []
  todo := claimed
  tx := Tx.empty
  summary := ⟨claimed.length, 0, 0, 0, 0⟩
  raised := 0

/-- mirrors dream-light.ts:188-194 -/
def DreamLightSummary.count (summary : DreamLightSummary) :
    OccurrenceOutcome → DreamLightSummary
  | .skipped_noise => { summary with skipped_noise := summary.skipped_noise + 1 }
  | .created => { summary with created := summary.created + 1 }
  | .updated => { summary with updated := summary.updated + 1 }
  | .corroborated =>
    { summary with updated := summary.updated + 1, corroborated := summary.corroborated + 1 }

/-- A turn of the loop, `none` where the statement fails. mirrors dream-light.ts:184-195 -/
def Sweep.turn (s : Sweep) (occurrences : Key → Option Occurrence) (row : SweepRow)
    (todo : List SweepRow) : Option Sweep :=
  let stored := s.tx.view occurrences (keyOf row)
  (recordTurnOccurrence stored row).map fun (_, outcome) =>
    { past := s.past ++ [row]
      todo := todo
      tx := if countable row then s.tx.write keyOf apply occurrences row else s.tx
      summary := s.summary.count outcome
      raised := s.raised + if countable row then raises stored row else 0 }

/-- What a committed sweep leaves behind. -/
structure Closed where
  claimed : List SweepRow
  summary : DreamLightSummary
  raised : Nat

def Closed.counted (c : Closed) : List SweepRow := c.claimed.filter countable

structure World where
  turns : List RawTurn
  occurrences : Key → Option Occurrence
  sweeps : Nat → Option Sweep
  closed : List Closed

/-- mirrors dream-light-repository.ts:76-81 -/
def markSwept (ids : List Nat) (turns : List RawTurn) : List RawTurn :=
  turns.map fun t => if t.id ∈ ids then { t with light_swept := true } else t

/-- What a claim may return: unswept turns with a timestamp that no open sweep holds, oldest first.
mirrors dream-light-repository.ts:49-64 -/
structure Claims (w : World) (batchSize : Nat) (rows : List SweepRow) : Prop where
  unswept : ∀ r ∈ rows, ∃ t ∈ w.turns, t.row = some r ∧ t.light_swept = false
  unlocked : ∀ r ∈ rows, ∀ p s, w.sweeps p = some s → r.id ∉ s.claimed.map SweepRow.id
  once : (rows.map SweepRow.id).Nodup
  oldest : rows.Pairwise fun a b => a.occurred_at ≤ b.occurred_at
  bounded : rows.length ≤ batchSize

/-- What happens: a turn comes in, or a sweep claims, goes on, commits or is killed. -/
inductive Label where
  | ingest (t : RawTurn)
  | claim (p batchSize : Nat) (rows : List SweepRow)
  | record (p : Nat)
  | commit (p : Nat)
  | kill (p : Nat)

/-- The transactions that are open. -/
def World.txs (w : World) : Nat → Option (Tx Key (Option Occurrence) SweepRow) :=
  Option.map Sweep.tx ∘ w.sweeps

/-- The turns that committed sweeps have counted, in the order of the commits. -/
def World.log (w : World) : List SweepRow := w.closed.flatMap Closed.counted

inductive Step (w : World) : Label → World → Prop where
  | ingest (t : RawTurn) (hnew : ∀ u ∈ w.turns, u.id ≠ t.id) (hswept : t.light_swept = false) :
    Step w (.ingest t) { w with turns := w.turns ++ [t] }
  | claim (p batchSize : Nat) (rows : List SweepRow) (hp : w.sweeps p = none)
    (hclaims : Claims w batchSize rows) :
    Step w (.claim p batchSize rows)
      { w with sweeps := Function.update w.sweeps p (some (Sweep.start rows)) }
  | record (p : Nat) (s s' : Sweep) (row : SweepRow) (todo : List SweepRow)
    (hp : w.sweeps p = some s) (htodo : s.todo = row :: todo)
    (hfree : countable row = true → Free w.txs p (keyOf row))
    (hturn : s.turn w.occurrences row todo = some s') :
    Step w (.record p) { w with sweeps := Function.update w.sweeps p (some s') }
  | commit (p : Nat) (s : Sweep) (hp : w.sweeps p = some s) (htodo : s.todo = []) :
    Step w (.commit p)
      { turns := markSwept (s.past.map SweepRow.id) w.turns
        occurrences := s.tx.view w.occurrences
        sweeps := Function.update w.sweeps p none
        closed := w.closed ++ [⟨s.past, s.summary, s.raised⟩] }
  | kill (p : Nat) (s : Sweep) (hp : w.sweeps p = some s) :
    Step w (.kill p) { w with sweeps := Function.update w.sweeps p none }

/-- Nothing is there at first. -/
def lightSystem : LTS World Label where
  init w := w = ⟨[], fun _ => none, fun _ => none, []⟩
  step := Step

/-! ## What holds in every state -/

/-- The sums over counted turns, behind the turns counted before them. -/
def corroborated (before rows : List SweepRow) : Nat :=
  total keyOf apply none corroborates before rows

def raisedBy (before rows : List SweepRow) : Nat := total keyOf apply none raises before rows

structure OpenInv (w : World) (s : Sweep) : Prop where
  done : s.tx.done = s.past.filter countable
  once : (s.claimed.map SweepRow.id).Nodup
  unswept : ∀ r ∈ s.claimed, ∃ t ∈ w.turns, t.row = some r ∧ t.light_swept = false
  reported : s.summary.corroborated = corroborated w.log s.tx.done
  raised : s.raised = raisedBy w.log s.tx.done

structure Inv (w : World) : Prop where
  ids : (w.turns.map RawTurn.id).Nodup
  rows : Serial keyOf apply none w.occurrences w.log w.txs
  sweeps : ∀ p s, w.sweeps p = some s → OpenInv w s
  apart : ∀ p q s s', w.sweeps p = some s → w.sweeps q = some s' → p ≠ q →
    ∀ r ∈ s.claimed, r.id ∉ s'.claimed.map SweepRow.id
  dated : ∀ t ∈ w.turns, t.light_swept = true → t.row.isSome
  swept : ∀ t ∈ w.turns, ∀ r, t.row = some r →
    (t.light_swept = true ↔ r ∈ w.closed.flatMap Closed.claimed)
  known : ∀ r ∈ w.closed.flatMap Closed.claimed, ∃ t ∈ w.turns, t.row = some r
  once : ((w.closed.flatMap Closed.claimed).map SweepRow.id).Nodup
  closed : ∀ front c back, w.closed = front ++ c :: back →
    c.summary.corroborated = corroborated (front.flatMap Closed.counted) c.counted ∧
      c.raised = raisedBy (front.flatMap Closed.counted) c.counted

theorem row_id {t : RawTurn} {r : SweepRow} (h : t.row = some r) : r.id = t.id := by
  obtain ⟨occurred_at, -, rfl⟩ := Option.map_eq_some_iff.mp h
  rfl

theorem txs_update (w : World) (p : Nat) (x : Option Sweep) :
    Option.map Sweep.tx ∘ Function.update w.sweeps p x =
      Function.update w.txs p (x.map Sweep.tx) := Function.comp_update _ _ _ _

theorem txs_some {w : World} {p : Nat} {s : Sweep} (h : w.sweeps p = some s) :
    w.txs p = some s.tx := by
  rw [World.txs, Function.comp_apply, h, Option.map_some]

section Steps
variable {w : World}

theorem Inv.same (I : Inv w) {t u : RawTurn} (ht : t ∈ w.turns) (hu : u ∈ w.turns)
    (h : t.id = u.id) : t = u := inj_on_of_nodup_map I.ids ht hu h

theorem Inv.ingest (I : Inv w) {t : RawTurn} (hnew : ∀ u ∈ w.turns, u.id ≠ t.id)
    (hswept : t.light_swept = false) : Inv { w with turns := w.turns ++ [t] } where
  ids := by
    rw [map_append, map_singleton, ← concat_eq_append]
    refine I.ids.concat fun hmem => ?_
    obtain ⟨u, hu, hid⟩ := mem_map.mp hmem
    exact hnew u hu hid
  rows := I.rows
  sweeps p s h :=
    { I.sweeps p s h with
      unswept := fun r hr => by
        obtain ⟨u, hu, hrow⟩ := (I.sweeps p s h).unswept r hr
        exact ⟨u, mem_append_left _ hu, hrow⟩ }
  apart := I.apart
  dated u hu hs := by
    rcases mem_append.mp hu with hu | hu
    · exact I.dated u hu hs
    · rw [mem_singleton.mp hu, hswept] at hs
      cases hs
  swept u hu r hr := by
    rcases mem_append.mp hu with hu | hu
    · exact I.swept u hu r hr
    · obtain rfl := mem_singleton.mp hu
      refine ⟨fun hs => absurd (hs.symm.trans hswept) (by decide), fun hmem => ?_⟩
      obtain ⟨v, hv, hrow⟩ := I.known r hmem
      exact absurd ((row_id hrow).symm.trans (row_id hr)) (hnew v hv)
  known r hr := by
    obtain ⟨u, hu, hrow⟩ := I.known r hr
    exact ⟨u, mem_append_left _ hu, hrow⟩
  once := I.once
  closed := I.closed

theorem Inv.claim (I : Inv w) {p batchSize : Nat} {rows : List SweepRow}
    (hclaims : Claims w batchSize rows) :
    Inv { w with sweeps := Function.update w.sweeps p (some (Sweep.start rows)) } where
  ids := I.ids
  rows := by
    have hrows := I.rows.begin (p := p)
    unfold World.txs
    dsimp only
    rw [txs_update]
    exact hrows
  sweeps q s h := by
    dsimp only at h
    rw [Function.update_apply] at h
    split at h
    · cases h
      exact ⟨rfl, hclaims.once, hclaims.unswept, rfl, rfl⟩
    · exact { I.sweeps q s h with }
  apart q q' s s' hq hq' hne r hr := by
    dsimp only at hq hq'
    rw [Function.update_apply] at hq hq'
    split at hq
    · cases hq
      rename_i hqp
      rw [if_neg (fun h => hne (hqp.trans h.symm))] at hq'
      exact hclaims.unlocked r hr q' s' hq'
    split at hq'
    · cases hq'
      intro hmem
      obtain ⟨r', hr', hid⟩ := mem_map.mp hmem
      refine hclaims.unlocked r' hr' q s hq ?_
      rw [hid]
      exact mem_map_of_mem hr
    · exact I.apart q q' s s' hq hq' hne r hr
  dated := I.dated
  swept := I.swept
  known := I.known
  once := I.once
  closed := I.closed

theorem Inv.kill (I : Inv w) {p : Nat} :
    Inv { w with sweeps := Function.update w.sweeps p none } where
  ids := I.ids
  rows := by
    have hrows := I.rows.abort (p := p)
    unfold World.txs
    dsimp only
    rw [txs_update]
    exact hrows
  sweeps q s h := by
    dsimp only at h
    rw [Function.update_apply] at h
    split at h
    · cases h
    · exact { I.sweeps q s h with }
  apart q q' s s' hq hq' hne r hr := by
    dsimp only at hq hq'
    rw [Function.update_apply] at hq hq'
    split at hq
    · cases hq
    split at hq'
    · cases hq'
    · exact I.apart q q' s s' hq hq' hne r hr
  dated := I.dated
  swept := I.swept
  known := I.known
  once := I.once
  closed := I.closed

theorem count_corroborated (summary : DreamLightSummary) (outcome : OccurrenceOutcome) :
    (summary.count outcome).corroborated =
      summary.corroborated + if outcome = .corroborated then 1 else 0 := by
  cases outcome <;> rfl

theorem Sweep.turn_spec {s s' : Sweep} {occurrences : Key → Option Occurrence} {row : SweepRow}
    {todo : List SweepRow} (h : s.turn occurrences row todo = some s') :
    s'.past = s.past ++ [row] ∧ s'.todo = todo ∧
      s'.tx = (if countable row then s.tx.write keyOf apply occurrences row else s.tx) ∧
      s'.summary.corroborated = s.summary.corroborated +
        (if countable row then corroborates (s.tx.view occurrences (keyOf row)) row else 0) ∧
      s'.raised = s.raised +
        (if countable row then raises (s.tx.view occurrences (keyOf row)) row else 0) := by
  obtain ⟨⟨written, outcome⟩, hrecord, rfl⟩ := Option.map_eq_some_iff.mp h
  refine ⟨rfl, rfl, rfl, ?_, rfl⟩
  dsimp only
  rw [count_corroborated]
  unfold recordTurnOccurrence at hrecord
  split at hrecord
  · rename_i hskip
    cases hrecord
    rw [if_neg (by decide), if_neg (by simp [hskip])]
  · rename_i hcount
    obtain ⟨⟨o, first⟩, hupsert, heq⟩ := Option.map_eq_some_iff.mp hrecord
    cases heq
    unfold upsertOccurrence at hupsert
    split at hupsert
    · cases hupsert
      have hcountable : countable row = true := by simpa using hcount
      rw [if_pos hcountable]
      rfl
    · cases hupsert

theorem Sweep.turn_claimed {s s' : Sweep} {occurrences : Key → Option Occurrence}
    {row : SweepRow} {todo : List SweepRow} (htodo : s.todo = row :: todo)
    (h : s.turn occurrences row todo = some s') : s'.claimed = s.claimed := by
  obtain ⟨hpast, htodo', -⟩ := Sweep.turn_spec h
  rw [Sweep.claimed, hpast, htodo', Sweep.claimed, htodo, ← append_cons]

theorem Inv.record (I : Inv w) {p : Nat} {s s' : Sweep} {row : SweepRow} {todo : List SweepRow}
    (hp : w.sweeps p = some s) (htodo : s.todo = row :: todo)
    (hfree : countable row = true → Free w.txs p (keyOf row))
    (hturn : s.turn w.occurrences row todo = some s') :
    Inv { w with sweeps := Function.update w.sweeps p (some s') } where
  ids := I.ids
  rows := by
    obtain ⟨-, -, htx, -, -⟩ := Sweep.turn_spec hturn
    unfold World.txs
    dsimp only
    rw [txs_update, Option.map_some, htx]
    split
    · rename_i hcount
      exact I.rows.write (txs_some hp) (hfree hcount)
    · rw [← txs_some hp, Function.update_eq_self]
      exact I.rows
  sweeps q t h := by
    dsimp only at h
    rw [Function.update_apply] at h
    split at h
    · cases h
      obtain ⟨hpast, -, htx, hreported, hraised⟩ := Sweep.turn_spec hturn
      have hclaimed := Sweep.turn_claimed htodo hturn
      have S := I.sweeps p s hp
      have hdone : s'.tx.done = s.tx.done ++ if countable row then [row] else [] := by
        rw [htx]
        split <;> simp
      have hview := I.rows.view_eq (txs_some hp) (keyOf row)
      constructor
      · rw [hdone, hpast, filter_append, S.done]
        by_cases hcount : countable row <;> simp [hcount]
      · rw [hclaimed]
        exact S.once
      · rw [hclaimed]
        exact S.unswept
      · rw [hreported, hdone, S.reported, hview]
        split
        · exact (total_append_singleton w.log s.tx.done row).symm
        · rw [append_nil]
          rfl
      · rw [hraised, hdone, S.raised, hview]
        split
        · exact (total_append_singleton w.log s.tx.done row).symm
        · rw [append_nil]
          rfl
    · exact { I.sweeps q t h with }
  apart q q' t t' hq hq' hne r hr := by
    have hclaimed := Sweep.turn_claimed htodo hturn
    dsimp only at hq hq'
    rw [Function.update_apply] at hq hq'
    split at hq
    · cases hq
      rename_i hqp
      rw [if_neg (fun h => hne (hqp.trans h.symm))] at hq'
      rw [hclaimed] at hr
      exact I.apart p q' s t' hp hq' (hqp ▸ hne) r hr
    split at hq'
    · cases hq'
      rename_i hqp hqp'
      rw [hclaimed]
      exact I.apart q p t s hq hp hqp r hr
    · exact I.apart q q' t t' hq hq' hne r hr
  dated := I.dated
  swept := I.swept
  known := I.known
  once := I.once
  closed := I.closed

/-! ### Commits -/

theorem mem_markSwept {ids : List Nat} {turns : List RawTurn} {t' : RawTurn} :
    t' ∈ markSwept ids turns ↔ ∃ t ∈ turns,
      (if t.id ∈ ids then { t with light_swept := true } else t) = t' := mem_map

/-- A stamp changes nothing else. -/
theorem stamped_row (ids : List Nat) (t : RawTurn) :
    (if t.id ∈ ids then { t with light_swept := true } else t).row = t.row := by
  split <;> rfl

theorem stamped_swept (ids : List Nat) (t : RawTurn) :
    (if t.id ∈ ids then { t with light_swept := true } else t).light_swept = true ↔
      t.light_swept = true ∨ t.id ∈ ids := by
  split <;> simp_all

theorem Inv.claimed_iff (I : Inv w) {p : Nat} {s : Sweep} (hp : w.sweeps p = some s)
    {t : RawTurn} (ht : t ∈ w.turns) :
    t.id ∈ s.claimed.map SweepRow.id ↔ ∃ r ∈ s.claimed, t.row = some r := by
  constructor
  · intro hmem
    obtain ⟨r, hr, hid⟩ := mem_map.mp hmem
    obtain ⟨u, hu, hrow, -⟩ := (I.sweeps p s hp).unswept r hr
    have hsame := I.same hu ht ((row_id hrow).symm.trans hid)
    exact ⟨r, hr, hsame ▸ hrow⟩
  · rintro ⟨r, hr, hrow⟩
    rw [← row_id hrow]
    exact mem_map_of_mem hr

theorem Inv.commit (I : Inv w) {p : Nat} {s : Sweep} (hp : w.sweeps p = some s)
    (htodo : s.todo = []) :
    Inv { turns := markSwept (s.past.map SweepRow.id) w.turns
          occurrences := s.tx.view w.occurrences
          sweeps := Function.update w.sweeps p none
          closed := w.closed ++ [⟨s.past, s.summary, s.raised⟩] } := by
  have S := I.sweeps p s hp
  have hclaimed : s.claimed = s.past := by rw [Sweep.claimed, htodo, append_nil]
  have hids : ∀ t ∈ w.turns, t.id ∈ s.past.map SweepRow.id ↔ ∃ r ∈ s.past, t.row = some r := by
    intro t ht
    rw [← hclaimed]
    exact I.claimed_iff hp ht
  have hlog : (w.closed ++ [Closed.mk s.past s.summary s.raised]).flatMap Closed.counted =
      w.log ++ s.tx.done := by
    rw [flatMap_append, flatMap_singleton, S.done]
    rfl
  have hclaims : (w.closed ++ [Closed.mk s.past s.summary s.raised]).flatMap Closed.claimed =
      w.closed.flatMap Closed.claimed ++ s.past := by
    rw [flatMap_append, flatMap_singleton]
  constructor
  case ids =>
    have hmap : (markSwept (s.past.map SweepRow.id) w.turns).map RawTurn.id =
        w.turns.map RawTurn.id := by
      rw [markSwept, map_map]
      exact map_congr_left fun t _ => by
        rw [Function.comp_apply]
        split <;> rfl
    rw [hmap]
    exact I.ids
  case rows =>
    have hrows := I.rows.commit (txs_some hp)
    unfold World.log World.txs
    dsimp only
    rw [hlog, txs_update]
    exact hrows
  case sweeps =>
    intro q t hq
    dsimp only at hq
    rw [Function.update_apply] at hq
    split at hq
    · cases hq
    · rename_i hne
      have T := I.sweeps q t hq
      have hrows : ∀ a ∈ t.tx.done, onRow keyOf w.log (keyOf a) =
          onRow keyOf (w.log ++ s.tx.done) (keyOf a) := by
        intro a ha
        rw [onRow_append, I.rows.onRow_done (txs_some hq) (txs_some hp) hne ha, append_nil]
      refine ⟨T.done, T.once, fun r hr => ?_, ?_, ?_⟩
      · obtain ⟨u, hu, hrow, hun⟩ := T.unswept r hr
        have hnot : u.id ∉ s.past.map SweepRow.id := by
          rw [← row_id hrow, ← hclaimed]
          exact I.apart q p t s hq hp hne r hr
        exact ⟨u, mem_markSwept.mpr ⟨u, hu, if_neg hnot⟩, hrow, hun⟩
      · unfold World.log
        dsimp only
        rw [hlog, T.reported]
        exact total_congr _ hrows
      · unfold World.log
        dsimp only
        rw [hlog, T.raised]
        exact total_congr _ hrows
  case apart =>
    intro q q' t t' hq hq' hne r hr
    dsimp only at hq hq'
    rw [Function.update_apply] at hq hq'
    split at hq
    · cases hq
    split at hq'
    · cases hq'
    · exact I.apart q q' t t' hq hq' hne r hr
  case dated =>
    intro t' ht' hswept
    obtain ⟨t, ht, rfl⟩ := mem_markSwept.mp ht'
    rw [stamped_row]
    rcases (stamped_swept _ t).mp hswept with hswept | hid
    · exact I.dated t ht hswept
    · obtain ⟨r, -, hrow⟩ := (hids t ht).mp hid
      rw [hrow]
      rfl
  case swept =>
    intro t' ht' r hrow
    obtain ⟨t, ht, rfl⟩ := mem_markSwept.mp ht'
    rw [stamped_row] at hrow
    rw [stamped_swept, I.swept t ht r hrow, hclaims, mem_append, hids t ht]
    refine or_congr_right ⟨fun ⟨r', hr', hrow'⟩ => ?_, fun hr => ⟨r, hr, hrow⟩⟩
    exact Option.some.inj (hrow'.symm.trans hrow) ▸ hr'
  case known =>
    intro r hr
    rw [hclaims, mem_append] at hr
    have hturn : ∃ t ∈ w.turns, t.row = some r := by
      rcases hr with hr | hr
      · exact I.known r hr
      · obtain ⟨t, ht, hrow, -⟩ := S.unswept r (by rw [hclaimed]; exact hr)
        exact ⟨t, ht, hrow⟩
    obtain ⟨t, ht, hrow⟩ := hturn
    exact ⟨_, mem_markSwept.mpr ⟨t, ht, rfl⟩, by rw [stamped_row]; exact hrow⟩
  case once =>
    rw [hclaims, map_append]
    refine I.once.append (by rw [← hclaimed]; exact S.once) ?_
    -- a turn that was counted before is stamped, and a claimed one is not
    intro id hold hnew
    obtain ⟨r, hr, rfl⟩ := mem_map.mp hold
    obtain ⟨r', hr', hid⟩ := mem_map.mp hnew
    obtain ⟨t, ht, hrow⟩ := I.known r hr
    obtain ⟨u, hu, hrow', hun⟩ := S.unswept r' (by rw [hclaimed]; exact hr')
    have hsame := I.same ht hu (by rw [← row_id hrow, ← row_id hrow', hid])
    have hswept := (I.swept t ht r hrow).mpr hr
    rw [hsame, hun] at hswept
    cases hswept
  case closed =>
    intro front c back hsplit
    rcases eq_nil_or_concat back with rfl | ⟨back, last, rfl⟩
    · obtain ⟨rfl, hc⟩ := append_inj' hsplit rfl
      cases hc
      have hcounted : Closed.counted ⟨s.past, s.summary, s.raised⟩ = s.tx.done := S.done.symm
      rw [hcounted]
      exact ⟨S.reported, S.raised⟩
    · rw [concat_eq_append, ← cons_append, ← append_assoc] at hsplit
      obtain ⟨hfront, -⟩ := append_inj' hsplit rfl
      exact I.closed front c back hfront

end Steps

theorem Inv.init : Inv ⟨[], fun _ => none, fun _ => none, []⟩ where
  ids := nodup_nil
  rows := Serial.init (fun _ => rfl) fun _ => rfl
  sweeps _ _ h := nomatch h
  apart _ _ _ _ h := nomatch h
  dated _ h := nomatch h
  swept _ h := nomatch h
  known _ h := nomatch h
  once := nodup_nil
  closed front _ _ h := by cases front <;> cases h

theorem Inv.step {w w' : World} {l : Label} (I : Inv w) (h : Step w l w') : Inv w' := by
  cases h with
  | ingest t hnew hswept => exact I.ingest hnew hswept
  | claim p batchSize rows hp hclaims => exact I.claim hclaims
  | record p s s' row todo hp htodo hfree hturn => exact I.record hp htodo hfree hturn
  | commit p s hp htodo => exact I.commit hp htodo
  | kill p s hp => exact I.kill

theorem inductive_inv : lightSystem.Inductive Inv where
  init := by
    rintro w rfl
    exact Inv.init
  step _ _ _ I _ hst := I.step hst

theorem inv_of_reachable {w : World} (h : lightSystem.Reachable w) : Inv w :=
  inductive_inv.reachable h

/-! ## The counts -/

def sweptOn (w : World) (k : Key) : List SweepRow :=
  ((w.turns.filter RawTurn.light_swept).filterMap RawTurn.row).filter fun r =>
    countable r && decide (keyOf r = k)

structure Corroboration (w : World) : Prop where
  once : ∀ t ∈ w.turns, (w.log.map SweepRow.id).count t.id =
    if t.light_swept = true ∧ t.row.any countable = true then 1 else 0
  occurrence_count : ∀ k,
    (w.occurrences k).elim 0 Occurrence.occurrence_count = (sweptOn w k).length
  session_count : ∀ k o, w.occurrences k = some o →
    o.session_count = distinctSessions (sweptOn w k)
  reported : ∀ c ∈ w.closed, c.summary.corroborated = c.raised

theorem log_eq (w : World) : w.log = (w.closed.flatMap Closed.claimed).filter countable := by
  rw [World.log, filter_flatMap]
  rfl

theorem ids_filterMap (turns : List RawTurn) :
    ((turns.filterMap RawTurn.row).map SweepRow.id).Sublist (turns.map RawTurn.id) := by
  induction turns with
  | nil => exact List.Sublist.slnil
  | cons t turns ih =>
    cases hrow : t.row with
    | none =>
      rw [filterMap_cons_none hrow, map_cons]
      exact ih.cons _
    | some r =>
      rw [filterMap_cons_some hrow, map_cons, map_cons, row_id hrow]
      exact ih.cons_cons _

section Counts
variable {w : World}

theorem Inv.count_log (I : Inv w) {t : RawTurn} (ht : t ∈ w.turns) :
    (w.log.map SweepRow.id).count t.id =
      if t.light_swept = true ∧ t.row.any countable = true then 1 else 0 := by
  have hnodup : (w.log.map SweepRow.id).Nodup := by
    rw [log_eq]
    exact I.once.sublist (filter_sublist.map _)
  have hmem : t.id ∈ w.log.map SweepRow.id ↔
      t.light_swept = true ∧ t.row.any countable = true := by
    rw [log_eq]
    constructor
    · intro h
      obtain ⟨r, hr, hid⟩ := mem_map.mp h
      obtain ⟨hr, hcount⟩ := mem_filter.mp hr
      obtain ⟨u, hu, hrow⟩ := I.known r hr
      obtain rfl := I.same hu ht ((row_id hrow).symm.trans hid)
      exact ⟨(I.swept u hu r hrow).mpr hr, by rw [hrow]; exact hcount⟩
    · rintro ⟨hswept, hcount⟩
      obtain ⟨r, hrow⟩ := Option.isSome_iff_exists.mp (I.dated t ht hswept)
      rw [hrow] at hcount
      refine mem_map.mpr ⟨r, mem_filter.mpr ⟨?_, hcount⟩, row_id hrow⟩
      exact (I.swept t ht r hrow).mp hswept
  split
  · rename_i h
    exact count_eq_one_of_mem hnodup (hmem.mpr h)
  · rename_i h
    exact count_eq_zero_of_not_mem fun hin => h (hmem.mp hin)

/-- The turns that were counted on a content are the swept ones. -/
theorem Inv.perm_sweptOn (I : Inv w) (k : Key) :
    (onRow keyOf w.log k).Perm (sweptOn w k) := by
  have hlog : (onRow keyOf w.log k).Nodup := by
    rw [log_eq, onRow]
    exact (List.Nodup.of_map _ I.once).filter _ |>.filter _
  have hswept : (sweptOn w k).Nodup := by
    have hids := (ids_filterMap (w.turns.filter RawTurn.light_swept)).trans
      (filter_sublist.map RawTurn.id)
    exact (List.Nodup.of_map _ (I.ids.sublist hids)).filter _
  refine (perm_ext_iff_of_nodup hlog hswept).mpr fun r => ?_
  simp only [onRow, sweptOn, log_eq, mem_filter, mem_filterMap, Bool.and_eq_true,
    decide_eq_true_eq]
  constructor
  · rintro ⟨⟨hr, hcount⟩, hk⟩
    obtain ⟨t, ht, hrow⟩ := I.known r hr
    exact ⟨⟨t, ⟨ht, (I.swept t ht r hrow).mpr hr⟩, hrow⟩, hcount, hk⟩
  · rintro ⟨⟨t, ⟨ht, hswept⟩, hrow⟩, hcount, hk⟩
    exact ⟨⟨(I.swept t ht r hrow).mp hswept, hcount⟩, hk⟩

theorem distinctSessions_perm {rows rows' : List SweepRow} (h : rows.Perm rows') :
    distinctSessions rows = distinctSessions rows' := by
  have hnamed : (named rows).Perm (named rows') := (h.map refOf).filter _
  rw [distinctSessions, distinctSessions, toFinset_eq_of_perm _ _ hnamed]

theorem Inv.occurrence_count (I : Inv w) (k : Key) :
    (w.occurrences k).elim 0 Occurrence.occurrence_count = (sweptOn w k).length := by
  rw [I.rows.rows k, rowAfter, ← (I.perm_sweptOn k).length_eq]
  by_cases hne : onRow keyOf w.log k = []
  · rw [hne]
    rfl
  · obtain ⟨o, ho, hcounts⟩ := counts_foldl _ hne
    rw [ho]
    exact hcounts.occurrences

theorem Inv.session_count_iff (I : Inv w) (k : Key) :
    (∀ o, w.occurrences k = some o → o.session_count = distinctSessions (sweptOn w k)) ↔
      Plain (onRow keyOf w.log k) := by
  rw [I.rows.rows k, rowAfter, ← distinctSessions_perm (I.perm_sweptOn k)]
  by_cases hne : onRow keyOf w.log k = []
  · rw [hne]
    simp [Plain, named]
  · obtain ⟨o, ho, hcounts⟩ := counts_foldl _ hne
    rw [ho, ← session_count_eq_iff hne hcounts]
    simp

/-- A committed sweep reports what it raised unless it counted a session new to its content. -/
theorem Inv.reported_iff (I : Inv w) {front back : List Closed} {c : Closed}
    (h : w.closed = front ++ c :: back) :
    c.summary.corroborated = c.raised ↔ ∀ a r b, c.counted = a ++ r :: b →
      ¬Unseen (onRow keyOf (front.flatMap Closed.counted ++ a) (keyOf r)) r := by
  obtain ⟨hreported, hraised⟩ := I.closed front c back h
  have hle : ∀ before r, corroborates (rowAfter keyOf apply before (keyOf r) none) r ≤
      raises (rowAfter keyOf apply before (keyOf r) none) r :=
    fun before r => (corroborates_le r).1
  rw [hreported, hraised, corroborated, raisedBy, (total_eq_iff hle _ _).2]
  exact forall_congr' fun a => forall_congr' fun r => forall_congr' fun b =>
    imp_congr_right fun _ => (corroborates_le r).2

/-- In every state of every run, the counts are right exactly when every content has named no
session or named one first and none behind the first twenty twice, and no committed sweep counted
a session that was new to a content said before in fewer than twenty. -/
theorem light_counts (w : World) (h : lightSystem.Reachable w) :
    Corroboration w ↔
      (∀ k, Plain (onRow keyOf w.log k)) ∧
        ∀ front c back, w.closed = front ++ c :: back → ∀ a r b, c.counted = a ++ r :: b →
          ¬Unseen (onRow keyOf (front.flatMap Closed.counted ++ a) (keyOf r)) r := by
  have I := inv_of_reachable h
  constructor
  · intro C
    refine ⟨fun k => (I.session_count_iff k).mp (C.session_count k), fun front c back hsplit => ?_⟩
    refine (I.reported_iff hsplit).mp (C.reported c ?_)
    rw [hsplit]
    simp
  · rintro ⟨hplain, hquiet⟩
    refine ⟨fun t ht => I.count_log ht, I.occurrence_count,
      fun k => (I.session_count_iff k).mpr (hplain k), fun c hc => ?_⟩
    obtain ⟨front, back, hsplit⟩ := append_of_mem hc
    exact (I.reported_iff hsplit).mpr (hquiet front c back hsplit)

end Counts

/-! ## A sweep on its own -/

/-- The loop over what is still to come. mirrors dream-light.ts:184-195 -/
def Sweep.turns (s : Sweep) (occurrences : Key → Option Occurrence) :
    List SweepRow → Option Sweep
  | [] => some s
  | row :: todo => (s.turn occurrences row todo).bind fun s' => s'.turns occurrences todo

section Alone
variable {w : World} {p : Nat}

theorem run_turns {s s' : Sweep} {rows : List SweepRow} (hp : w.sweeps p = some s)
    (halone : ∀ q, q ≠ p → w.sweeps q = none) (htodo : s.todo = rows)
    (h : s.turns w.occurrences rows = some s') :
    s'.todo = [] ∧ ∃ ls, lightSystem.RunOn LTS.anyStep w ls
      { w with sweeps := Function.update w.sweeps p (some s') } := by
  induction rows generalizing w s with
  | nil =>
    cases h
    refine ⟨htodo, [], ?_⟩
    rw [← hp, Function.update_eq_self]
    exact .nil w
  | cons row todo ih =>
    obtain ⟨s₁, hturn, h⟩ := Option.bind_eq_some_iff.mp h
    obtain ⟨-, htodo₁, -⟩ := Sweep.turn_spec hturn
    have hfree : Free w.txs p (keyOf row) := by
      intro q hq tx htx
      rw [World.txs, Function.comp_apply, halone q hq] at htx
      cases htx
    have hstep : Step w (.record p) _ :=
      .record p s s₁ row todo hp htodo (fun _ => hfree) hturn
    obtain ⟨hdone, ls, hrun⟩ := ih
      (w := { w with sweeps := Function.update w.sweeps p (some s₁) })
      (Function.update_self ..)
      (fun q hq => by
        dsimp only
        rw [Function.update_of_ne hq]
        exact halone q hq) htodo₁ h
    dsimp only at hrun
    rw [Function.update_idem] at hrun
    exact ⟨hdone, .record p :: ls, .cons trivial hstep hrun⟩

theorem run_alone {batchSize : Nat} {rows : List SweepRow} {s : Sweep}
    (hreach : lightSystem.Reachable w) (hnone : ∀ q, w.sweeps q = none)
    (hclaims : Claims w batchSize rows)
    (h : (Sweep.start rows).turns w.occurrences rows = some s) :
    lightSystem.Reachable
      { turns := markSwept (s.past.map SweepRow.id) w.turns
        occurrences := s.tx.view w.occurrences
        sweeps := w.sweeps
        closed := w.closed ++ [⟨s.past, s.summary, s.raised⟩] } := by
  obtain ⟨w₀, ls, h0, hrun⟩ := hreach
  have hclaim : Step w (.claim 0 batchSize rows) _ := .claim 0 batchSize rows (hnone 0) hclaims
  obtain ⟨htodo, ls', hturns⟩ := run_turns
    (w := { w with sweeps := Function.update w.sweeps 0 (some (Sweep.start rows)) })
    (Function.update_self ..)
    (fun q hq => by
      dsimp only
      rw [Function.update_of_ne hq]
      exact hnone q) rfl h
  dsimp only at hturns
  rw [Function.update_idem] at hturns
  have hself : Function.update w.sweeps 0 (some s) 0 = some s := Function.update_self ..
  have hcommit : Step { w with sweeps := Function.update w.sweeps 0 (some s) } (.commit 0) _ :=
    .commit 0 s hself htodo
  have hend := (hrun.append (.cons trivial hclaim hturns)).append
    (.cons trivial hcommit (.nil _))
  dsimp only at hend
  rw [Function.update_idem, ← hnone 0, Function.update_eq_self] at hend
  exact ⟨w₀, _, h0, hend⟩

end Alone

/-- A decision that two sessions state. -/
def stated (id : Nat) (session : String) : RawTurn where
  id := id
  «namespace» := units "rico"
  content := units "deploy with bun"
  content_hash := units "5e1f"
  session_ref := some (units session)
  role := some (units "user")
  occurred_at := some id
  light_swept := false

def twice : World := ⟨[stated 1 "a", stated 2 "b"], fun _ => none, fun _ => none, []⟩

theorem reachable_twice : lightSystem.Reachable twice := by
  refine ⟨_, [.ingest (stated 1 "a"), .ingest (stated 2 "b")], rfl, ?_⟩
  refine .cons trivial (Step.ingest (stated 1 "a") (fun _ h => nomatch h) rfl) ?_
  exact .cons trivial (Step.ingest (stated 2 "b") (by simp [stated]) rfl) (.nil _)

theorem light_counts_twice :
    lightSystem.Reachable twice ∧ (Corroboration twice ↔
      (∀ k, Plain (onRow keyOf twice.log k)) ∧
        ∀ front c back, twice.closed = front ++ c :: back → ∀ a r b, c.counted = a ++ r :: b →
          ¬Unseen (onRow keyOf (front.flatMap Closed.counted ++ a) (keyOf r)) r) :=
  ⟨reachable_twice, light_counts twice reachable_twice⟩

theorem claims_twice : Claims twice 500 (twice.turns.filterMap RawTurn.row) where
  unswept r hr := by
    obtain ⟨t, ht, hrow⟩ := mem_filterMap.mp hr
    refine ⟨t, ht, hrow, ?_⟩
    rcases mem_cons.mp ht with rfl | ht
    · rfl
    · rw [mem_singleton.mp ht]
      rfl
  unlocked _ _ _ _ h := nomatch h
  once := by decide
  oldest := by decide
  bounded := by decide

/-- The sweep that counts both raises the session count to two and reports nothing. -/
theorem corroboration_unreported : ∃ w, lightSystem.Reachable w ∧ ¬Corroboration w := by
  have hturns : ((Sweep.start (twice.turns.filterMap RawTurn.row)).turns twice.occurrences
      (twice.turns.filterMap RawTurn.row)).map (fun s => (s.summary.corroborated, s.raised)) =
        some (0, 1) := by decide
  obtain ⟨s, hs, hcounts⟩ := Option.map_eq_some_iff.mp hturns
  refine ⟨_, run_alone reachable_twice (fun _ => rfl) claims_twice hs, fun C => ?_⟩
  have hsame : s.summary.corroborated = s.raised :=
    C.reported ⟨s.past, s.summary, s.raised⟩ (mem_singleton_self _)
  rw [Prod.mk.injEq] at hcounts
  rw [hcounts.1, hcounts.2] at hsame
  cases hsame

end OpenBrain.Server.DreamLight
