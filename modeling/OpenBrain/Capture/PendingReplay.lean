import OpenBrain.Capture.Watermark
import OpenBrain.Core.HeadOfLine

/-!
# Replaying the pending transcripts (`apps/hooks/session.py`)

Each Stop of a session replays one transcript of a closed one: the oldest row that is still pending.
A row whose source is complete is deleted, one whose source is missing or another file is parked,
and a row of any other kind stays where it is, in front of all younger ones. `drains_wanted_iff` says when
the steps get through: the rows form a queue served at its head.
-/
namespace OpenBrain.Capture
open OpenBrain.Core OpenBrain.Core.Py List

/-- mirrors session.py:638-639 -/
def scoped_watermark_key (origin session_key : Str) : Str :=
  units "capture:v1:" ++ (origin ++ unit ':' :: session_key)

section Replay

variable {T : Type} (H : Host T) (origin current_session : Str)

/-- The source with an identity, when it has one or gets one; mirrors session.py:650-653 -/
def identified (pending : PendingCapture) (store : WatermarkStore) :
    WatermarkStore × Option PendingCapture :=
  if pending.identity.isNone then store.bind_missing_pending H.disk origin pending
  else (store, some pending)

/-- mirrors session.py:654-675 without a deadline -/
def redeliver (pending : PendingCapture) (w : World T) : World T :=
  match deliver_new_turns H pending.path (scoped_watermark_key origin pending.session_key)
      pending.identity pending.source_size w with
  | (sent, .error .sourceChanged) =>
    { sent with store := sent.store.source_changed origin pending.session_key pending.generation }
  | (sent, .error _) => sent
  | (sent, .ok delivery) =>
    if delivery.source_complete then
      { sent with store := sent.store.complete_pending origin pending.session_key pending.generation }
    else sent

/-- mirrors session.py:642-675 -/
def replay_one_pending (w : World T) : World T :=
  match w.store.oldest_pending origin current_session with
  | none => w
  | some pending =>
    match identified H origin pending w.store with
    | (store, none) => { w with store }
    | (store, some pending) => redeliver H origin pending { w with store }

/-! ## What becomes of a row -/

/-- Where the reading of a row's transcript stands. -/
def positionOf (w : World T) (row : PendingRow) : Position :=
  w.store.position_for (scoped_watermark_key origin row.session_key)

/-- No line of the row's file makes the reader raise. -/
def Reads (w : World T) (row : PendingRow) : Prop :=
  (read_since H row.transcript_path (positionOf origin w row).offset
    (positionOf origin w row).identity).isSome = true

/-- The file is the one the row was registered with, or the row has no file yet. -/
def SourceOf (row : PendingRow) (file : File) : Prop :=
  row.identity = some file.identity ∧ LargeEnough row.source_size file ∨
    row.identity = none ∧ WatermarkStore.unbound row = true

/-- The next step that serves the row completes it: its file is there, opens, is the registered one
and not shorter, every record of it is read, it ends with a newline, and the watermark is not behind
its end. -/
def Completes (w : World T) (row : PendingRow) : Prop :=
  ∃ file, H.disk row.transcript_path = some file ∧ file.opens = true ∧ SourceOf row file ∧
    Reads H origin w row ∧ ¬ Behind (positionOf origin w row) file ∧
    remainder file (startOf (positionOf origin w row) file) = []

/-- The next step that serves the row parks it: it has an identity that no file shows any more, or a
file is there that cannot be opened. -/
def Parks (w : World T) (row : PendingRow) : Prop :=
  Reads H origin w row ∧
    ((∃ identity, row.identity = some identity ∧ ∀ file, H.disk row.transcript_path = some file →
        file.opens = true → file.identity = identity → ¬ LargeEnough row.source_size file) ∨
      row.identity = none ∧ WatermarkStore.unbound row = true ∧
        ∃ file, H.disk row.transcript_path = some file ∧ file.opens = false)

/-- The rows a replay may take, the oldest first. -/
def queue (w : World T) : List PendingRow :=
  w.store.pending_capture.filter (WatermarkStore.retryable origin current_session)

def Completed (session_key : Str) (w : World T) : Prop :=
  ∀ row ∈ w.store.pending_capture, row.origin = origin → row.session_key ≠ session_key

def Parked (session_key : Str) (w : World T) : Prop :=
  ∃ row ∈ w.store.pending_capture, row.origin = origin ∧ row.session_key = session_key ∧
    row.state = .source_changed

/-- The transcript of the row is present and readable: a file opens at its path, and it is not
another or a shorter one than the one that was registered. -/
def Readable (row : PendingRow) : Prop :=
  ∃ file, H.disk row.transcript_path = some file ∧ file.opens = true ∧
    ∀ identity, row.identity = some identity →
      identity = file.identity ∧ LargeEnough row.source_size file

end Replay

/-! ## One row of the table -/

def replaceRow (row row' : PendingRow) (rows : List PendingRow) : List PendingRow :=
  rows.map fun r => if r = row then row' else r

section Rows

variable {row row' : PendingRow} {rows rest : List PendingRow} {p : PendingRow → Bool}

theorem keyed_only (hn : (rows.map fun r => (r.origin, r.session_key)).Nodup) (hrow : row ∈ rows)
    (hp : p row = true) (hkey : ∀ r, p r = true → r.origin = row.origin ∧ r.session_key = row.session_key) :
    ∀ r ∈ rows, p r = true ↔ r = row := by
  intro r hr
  constructor
  · intro hpr
    obtain ⟨ho, hs⟩ := hkey r hpr
    exact Table.eq_of_key hn hr hrow (by rw [ho, hs])
  · rintro rfl
    exact hp

theorem updateWhere_only {f : PendingRow → PendingRow} (h : ∀ r ∈ rows, p r = true ↔ r = row) :
    Table.updateWhere p f rows = replaceRow row (f row) rows := by
  apply map_congr_left
  intro r hr
  by_cases heq : r = row
  · rw [if_pos ((h r hr).mpr heq), if_pos heq, heq]
  · rw [if_neg (mt (h r hr).mp heq), if_neg heq]

theorem replaceRow_of_notMem (h : row ∉ rows) : replaceRow row row' rows = rows := by
  apply Table.map_of_fixed
  intro r hr
  rw [if_neg]
  rintro rfl
  exact h hr

/-- A selection that begins with the row, behind its replacement. -/
theorem filter_replaceRow (hn : rows.Nodup) (h : rows.filter p = row :: rest) :
    (replaceRow row row' rows).filter p = if p row' then row' :: rest else rest := by
  have hprow : p row = true := (mem_filter.mp (h ▸ mem_cons_self)).2
  induction rows with
  | nil => cases h
  | cons r rows ih =>
    obtain ⟨hr, hn⟩ := nodup_cons.mp hn
    by_cases hp : p r = true
    · rw [filter_cons_of_pos hp] at h
      obtain ⟨rfl, rfl⟩ := List.cons.inj h
      have hrest : replaceRow r row' rows = rows := replaceRow_of_notMem hr
      show ((if r = r then row' else r) :: replaceRow r row' rows).filter p = _
      rw [if_pos rfl, hrest, filter_cons]
    · rw [filter_cons_of_neg hp] at h
      have hne : r ≠ row := fun heq => hp (heq ▸ hprow)
      show ((if r = row then row' else r) :: replaceRow row row' rows).filter p = _
      rw [if_neg hne, filter_cons_of_neg hp]
      exact ih hn h

theorem filter_ne (hn : rows.Nodup) (h : rows.filter p = row :: rest) :
    (rows.filter fun r => r ≠ row).filter p = rest := by
  rw [filter_comm, h, filter_cons_of_neg (by simp)]
  apply filter_eq_self.mpr
  intro r hr
  have hnodup := h ▸ hn.filter p
  simpa using fun heq : r = row => (nodup_cons.mp hnodup).1 (heq ▸ hr)

/-- Rows with the keys of one another stand for the same place of the table. -/
def SameKey (row row' : PendingRow) : Prop :=
  row'.origin = row.origin ∧ row'.session_key = row.session_key

theorem replaceRow_replaceRow {row'' : PendingRow} (h : row' ∈ rows → row' = row) :
    replaceRow row' row'' (replaceRow row row' rows) = replaceRow row row'' rows := by
  unfold replaceRow
  rw [map_map]
  apply map_congr_left
  intro r hr
  show (if (if r = row then row' else r) = row' then row'' else if r = row then row' else r) = _
  by_cases heq : r = row
  · rw [if_pos heq, if_pos rfl, if_pos heq]
  · rw [if_neg heq, if_neg fun hr' => heq (hr'.trans (h (hr' ▸ hr))), if_neg heq]

theorem filter_ne_replaceRow (h : row' ∈ rows → row' = row) :
    (replaceRow row row' rows).filter (fun r => r ≠ row') = rows.filter fun r => r ≠ row := by
  induction rows with
  | nil => rfl
  | cons r rows ih =>
    have ih := ih fun hmem => h (mem_cons_of_mem r hmem)
    show ((if r = row then row' else r) :: replaceRow row row' rows).filter _ = _
    by_cases heq : r = row
    · rw [if_pos heq, filter_cons_of_neg (by simp), filter_cons_of_neg (by simp [heq]), ih]
    · have hne : r ≠ row' := fun hr' => heq (hr'.trans (h (hr' ▸ mem_cons_self)))
      rw [if_neg heq, filter_cons_of_pos (by simp [hne]), filter_cons_of_pos (by simp [heq]), ih]

end Rows

/-! ## A delivery of one row -/

section Redeliver

variable {T : Type} {H : Host T} {origin : Str} {w : World T} {row : PendingRow}

def OthersKept (origin : Str) (row : PendingRow) (w w' : World T) : Prop :=
  ∀ key, key ≠ scoped_watermark_key origin row.session_key →
    w'.store.position_for key = w.store.position_for key

def changedRow (row : PendingRow) : PendingRow :=
  { row with state := .source_changed, failure_category := some (units "source_changed") }

theorem ofGeneration_only (hmem : row ∈ w.store.pending_capture) (horigin : row.origin = origin) :
    ∀ r ∈ w.store.pending_capture,
      WatermarkStore.ofGeneration origin row.session_key row.generation r = true ↔ r = row := by
  refine keyed_only w.store.pending_key hmem (by simp [WatermarkStore.ofGeneration, horigin]) ?_
  intro r hr
  simp only [WatermarkStore.ofGeneration, Bool.and_eq_true, decide_eq_true_eq] at hr
  exact ⟨hr.1.1.trans horigin.symm, hr.1.2⟩

theorem filter_not_ofGeneration {store : WatermarkStore} {pending : List PendingRow}
    (hpending : store.pending_capture = pending)
    (honly : ∀ r ∈ pending,
      WatermarkStore.ofGeneration origin row.session_key row.generation r = true ↔ r = row) :
    (store.complete_pending origin row.session_key row.generation).pending_capture =
      pending.filter fun r => r ≠ row := by
  unfold WatermarkStore.complete_pending
  dsimp only
  rw [hpending]
  apply filter_congr
  intro r hr
  have := honly r hr
  by_cases heq : r = row
  · rw [this.mpr heq, heq]
    simp
  · simp [Bool.eq_false_iff.mpr (mt this.mp heq), heq]

theorem redeliver_completes {file : File} (hmem : row ∈ w.store.pending_capture)
    (horigin : row.origin = origin) (hfile : H.disk row.transcript_path = some file)
    (hopens : file.opens = true) (hid : row.identity = some file.identity)
    (hlarge : LargeEnough row.source_size file) (hreads : Reads H origin w row)
    (hbehind : ¬ Behind (positionOf origin w row) file)
    (hrem : remainder file (startOf (positionOf origin w row) file) = []) :
    (redeliver H origin row.capture w).store.pending_capture =
        w.store.pending_capture.filter (fun r => r ≠ row) ∧
      OthersKept origin row w (redeliver H origin row.capture w) := by
  obtain ⟨sent, delivery, hdeliver, hpending, hothers, -, hcomplete⟩ :=
    deliver_accepted hfile hopens hreads hlarge hbehind
  unfold redeliver PendingRow.capture
  dsimp only
  rw [hid, hdeliver]
  dsimp only
  rw [if_pos (hcomplete.mpr hrem)]
  exact ⟨filter_not_ofGeneration hpending (ofGeneration_only hmem horigin), hothers⟩

theorem redeliver_parks {identity : FileIdentity} (hmem : row ∈ w.store.pending_capture)
    (horigin : row.origin = origin) (hid : row.identity = some identity)
    (hreads : Reads H origin w row)
    (hchanged : ∀ file, H.disk row.transcript_path = some file → file.opens = true →
      file.identity = identity → ¬ LargeEnough row.source_size file) :
    (redeliver H origin row.capture w).store.pending_capture =
        replaceRow row (changedRow row) w.store.pending_capture ∧
      ∀ key, (redeliver H origin row.capture w).store.position_for key = w.store.position_for key := by
  obtain ⟨read, hread⟩ := Option.isSome_iff_exists.mp hreads
  have hdeliver : deliver_new_turns H row.transcript_path
      (scoped_watermark_key origin row.session_key) (some identity) row.source_size w =
        (w, .error .sourceChanged) := by
    unfold deliver_new_turns
    unfold positionOf at hread
    dsimp only
    rw [hread]
    dsimp only
    by_cases hsame : read.identity = some identity
    · -- the read has the identity of a file that opens
      rw [if_neg (by simp [hsame])]
      cases hfile : H.disk row.transcript_path with
      | none =>
        rw [read_since, hfile] at hread
        cases Option.some.inj hread
        cases hsame
      | some file =>
        rw [read_of_file hfile] at hread
        cases hopens : file.opens with
        | false =>
          rw [readFile, codex_session_ref] at hread
          simp only [hopens, Bool.false_eq_true, if_false, Option.some.injEq] at hread
          rw [← hread] at hsame
          cases hsame
        | true =>
          have hof := readFile_opens hopens (start_le _ file _) hread
          have hident : file.identity = identity :=
            Option.some.inj (hof.identity.symm.trans hsame)
          rw [if_pos]
          rw [← hfile]
          exact (short_iff hfile).mpr (hchanged file hfile hopens hident)
    · rw [if_pos ⟨rfl, hsame⟩]
  unfold redeliver PendingRow.capture
  dsimp only
  rw [hid, hdeliver]
  refine ⟨?_, fun key => rfl⟩
  exact updateWhere_only (ofGeneration_only hmem horigin)

theorem judged_congr {w' : World T} (h : positionOf origin w' row = positionOf origin w row) :
    (Completes H origin w' row ↔ Completes H origin w row) ∧
      (Parks H origin w' row ↔ Parks H origin w row) := by
  unfold Completes Parks Reads
  rw [h]
  exact ⟨Iff.rfl, Iff.rfl⟩

theorem deliver_regresses {file : File} {path key : Str} {minimum : Option Nat}
    (hfile : H.disk path = some file) (hopens : file.opens = true)
    (hread : (read_since H path (w.store.position_for key).offset
      (w.store.position_for key).identity).isSome = true)
    (hsize : LargeEnough minimum file) (hbehind : Behind (w.store.position_for key) file) :
    ∃ lane, deliver_new_turns H path key (some file.identity) minimum w =
      ({ store := w.store, lane }, .error .regression) := by
  obtain ⟨read, hread⟩ := Option.isSome_iff_exists.mp hread
  have hof := readFile_opens hopens (start_le (w.store.position_for key).offset file
    (w.store.position_for key).identity) ((read_of_file hfile _ _).symm.trans hread)
  have hnext : read.next_offset ≤ file.size := by
    rw [hof.next_offset]
    omega
  have hrefused := sendBatches_refused key file.identity (batches read.turns) w
    (fun b hb => ne_nil_of_mem_batches hb) (by
      rw [flatten_batches]
      intro t ht
      have := hof.to_next t ht
      exact regresses_of_behind hbehind (by omega))
  have hnot := mt (short_iff hfile).mp (not_not_intro hsize)
  unfold deliver_new_turns
  dsimp only
  rw [hread]
  dsimp only
  rw [if_neg (by simp [hof.identity]), if_neg hnot, hof.identity]
  cases hsent : sendBatches key (some file.identity) (batches read.turns) w with
  | mk sent ok =>
    obtain ⟨store, lane⟩ := sent
    rw [hsent] at hrefused
    cases (hrefused : store = w.store)
    refine ⟨lane, ?_⟩
    cases ok with
    | false => rfl
    | true =>
      dsimp only
      rw [advance_eq_none.mpr (regresses_of_behind hbehind hnext)]

theorem redeliver_stays {identity : FileIdentity} (hid : row.identity = some identity)
    (hc : ¬ Completes H origin w row) (hp : ¬ Parks H origin w row) :
    (redeliver H origin row.capture w).store.pending_capture = w.store.pending_capture ∧
      OthersKept origin row w (redeliver H origin row.capture w) ∧
      ¬ Completes H origin (redeliver H origin row.capture w) row ∧
      ¬ Parks H origin (redeliver H origin row.capture w) row := by
  by_cases hreads : Reads H origin w row
  · -- the source is the registered one: what is left is the watermark or the last line
    have hsource : ∃ file, H.disk row.transcript_path = some file ∧ file.opens = true ∧
        file.identity = identity ∧ LargeEnough row.source_size file := by
      by_contra hnone
      refine hp ⟨hreads, .inl ⟨identity, hid, fun file hfile hopens hident hlarge => ?_⟩⟩
      exact hnone ⟨file, hfile, hopens, hident, hlarge⟩
    obtain ⟨file, hfile, hopens, rfl, hlarge⟩ := hsource
    by_cases hbehind : Behind (positionOf origin w row) file
    · obtain ⟨lane, hdeliver⟩ := deliver_regresses hfile hopens hreads hlarge hbehind
      have hsame : redeliver H origin row.capture w = { store := w.store, lane } := by
        unfold redeliver PendingRow.capture
        dsimp only
        rw [hid, hdeliver]
      have hposition : positionOf origin { store := w.store, lane } row = positionOf origin w row :=
        rfl
      have hjudged := judged_congr (H := H) hposition
      rw [hsame, hjudged.1, hjudged.2]
      exact ⟨rfl, fun _ _ => rfl, hc, hp⟩
    · obtain ⟨sent, delivery, hdeliver, hpending, hothers, hposition, hcomplete⟩ :=
        deliver_accepted hfile hopens hreads hlarge hbehind
      have hrem : remainder file (startOf (positionOf origin w row) file) ≠ [] := fun hnil =>
        hc ⟨file, hfile, hopens, .inl ⟨hid, hlarge⟩, hreads, hbehind, hnil⟩
      have hsame : redeliver H origin row.capture w = sent := by
        unfold redeliver PendingRow.capture
        dsimp only
        rw [hid, hdeliver]
        dsimp only
        rw [if_neg (mt hcomplete.mp hrem)]
      have hle : startOf (positionOf origin w row) file ≤ file.size := start_le _ file _
      have hposition : positionOf origin sent row =
          ⟨file.size - (remainder file (startOf (positionOf origin w row) file)).length,
            some file.identity⟩ := hposition
      have hstart : startOf (positionOf origin sent row) file =
          file.size - (remainder file (startOf (positionOf origin w row) file)).length := by
        rw [hposition]
        exact start_of_reached (Nat.sub_le _ _)
      rw [hsame]
      refine ⟨hpending, hothers, ?_, ?_⟩
      · rintro ⟨file', hfile', -, -, -, -, hnil⟩
        rw [hfile] at hfile'
        cases hfile'
        rw [hstart, remainder_next hle] at hnil
        exact hrem hnil
      · rintro ⟨-, ⟨identity, hid', hchanged⟩ | ⟨hnone, -⟩⟩
        · rw [hid] at hid'
          cases hid'
          exact hchanged file hfile hopens rfl hlarge
        · rw [hid] at hnone
          cases hnone
  · have hsame : redeliver H origin row.capture w = w := by
      have hnone : read_since H row.transcript_path
          (w.store.position_for (scoped_watermark_key origin row.session_key)).offset
          (w.store.position_for (scoped_watermark_key origin row.session_key)).identity = none := by
        simpa [Reads, positionOf] using hreads
      unfold redeliver PendingRow.capture deliver_new_turns
      dsimp only
      rw [hnone]
    rw [hsame]
    exact ⟨rfl, fun _ _ => rfl, hc, hp⟩

end Redeliver

/-! ## One step -/

section Step

variable {T : Type} {H : Host T} {origin current_session : Str} {w : World T} {row : PendingRow}
  {rest : List PendingRow}

theorem not_completes_of_parks (hp : Parks H origin w row) : ¬ Completes H origin w row := by
  rintro ⟨file, hfile, hopens, hsource, -⟩
  obtain ⟨-, ⟨identity, hid, hchanged⟩ | ⟨hnone, -, file', hfile', hshut⟩⟩ := hp
  · rcases hsource with ⟨hid', hlarge⟩ | ⟨hnone, -⟩
    · rw [hid] at hid'
      cases hid'
      exact hchanged file hfile hopens rfl hlarge
    · rw [hid] at hnone
      cases hnone
  · rw [hfile] at hfile'
    cases hfile'
    rw [hopens] at hshut
    cases hshut

theorem oldest_of_queue (hq : queue origin current_session w = row :: rest) :
    w.store.oldest_pending origin current_session = some row.capture := by
  unfold WatermarkStore.oldest_pending
  unfold queue at hq
  rw [← head?_filter, hq]
  rfl

theorem mem_of_queue (hq : queue origin current_session w = row :: rest) :
    row ∈ w.store.pending_capture ∧ row.origin = origin ∧ row.state = .pending := by
  have hmem : row ∈ queue origin current_session w := hq ▸ mem_cons_self
  obtain ⟨hmem, hretry⟩ := mem_filter.mp hmem
  simp only [WatermarkStore.retryable, Bool.and_eq_true, decide_eq_true_eq] at hretry
  exact ⟨hmem, hretry.1.1, hretry.2⟩

def boundRow (row : PendingRow) (file : File) : PendingRow :=
  { row with
    device := some file.identity.device
    inode := some file.identity.inode
    source_size := some file.size
    generation := row.generation + 1 }

theorem identity_boundRow (file : File) : (boundRow row file).identity = some file.identity := rfl

theorem identified_none (hmem : row ∈ w.store.pending_capture) (horigin : row.origin = origin)
    (hnone : row.identity = none) :
    (∃ file store, H.disk row.transcript_path = some file ∧ WatermarkStore.unbound row = true ∧
      identified H origin row.capture w.store = (store, some (boundRow row file).capture) ∧
      store.pending_capture = replaceRow row (boundRow row file) w.store.pending_capture ∧
      ∀ key, store.position_for key = w.store.position_for key) ∨
    (identified H origin row.capture w.store = (w.store, none) ∧
      (H.disk row.transcript_path = none ∨ WatermarkStore.unbound row = false)) := by
  have hisNone : row.capture.identity.isNone = true := by
    show row.identity.isNone = true
    rw [hnone]
    rfl
  unfold identified WatermarkStore.bind_missing_pending
  rw [if_pos hisNone]
  have honly := ofGeneration_only hmem horigin
  cases hfile : H.disk row.transcript_path with
  | none =>
    right
    unfold PendingRow.capture
    dsimp only
    rw [hfile]
    exact ⟨rfl, .inl rfl⟩
  | some file =>
    unfold PendingRow.capture
    dsimp only
    rw [hfile]
    dsimp only
    by_cases hany : w.store.pending_capture.any fun r =>
        WatermarkStore.ofGeneration origin row.session_key row.generation r && WatermarkStore.unbound r
    · left
      rw [if_pos hany]
      obtain ⟨r, hr, hand⟩ := any_eq_true.mp hany
      obtain ⟨hof, hunbound⟩ := Bool.and_eq_true_iff.mp hand
      cases (honly r hr).mp hof
      refine ⟨file, _, rfl, hunbound, rfl, ?_, fun key => rfl⟩
      apply updateWhere_only (f := fun r => boundRow r file)
      intro q hq
      rw [Bool.and_eq_true, honly q hq]
      exact ⟨fun h => h.1, fun h => ⟨h, h ▸ hunbound⟩⟩
    · right
      rw [if_neg hany]
      refine ⟨rfl, .inr ?_⟩
      by_contra hunbound
      rw [Bool.not_eq_false] at hunbound
      exact hany (any_eq_true.mpr ⟨row, hmem, by rw [(honly row hmem).mpr rfl, hunbound]; rfl⟩)

variable (origin) in
theorem judged_boundRow (w' : World T) {file : File} (hnone : row.identity = none)
    (hunbound : WatermarkStore.unbound row = true) (hfile : H.disk row.transcript_path = some file)
    (hposition : ∀ key, w'.store.position_for key = w.store.position_for key) :
    (Completes H origin w' (boundRow row file) ↔ Completes H origin w row) ∧
      (Parks H origin w' (boundRow row file) ↔ Parks H origin w row) := by
  have hpos : positionOf origin w' (boundRow row file) = positionOf origin w row := hposition _
  have hpath : (boundRow row file).transcript_path = row.transcript_path := rfl
  have hlarge : LargeEnough (boundRow row file).source_size file := by
    intro size hsize
    cases hsize
    exact le_rfl
  unfold Completes Parks Reads
  rw [hpos, hpath]
  constructor
  · constructor
    · rintro ⟨file', hfile', hopens, -, hreads, hbehind, hrem⟩
      exact ⟨file', hfile', hopens, .inr ⟨hnone, hunbound⟩, hreads, hbehind, hrem⟩
    · rintro ⟨file', hfile', hopens, -, hreads, hbehind, hrem⟩
      rw [hfile] at hfile'
      cases hfile'
      exact ⟨file, hfile, hopens, .inl ⟨identity_boundRow file, hlarge⟩, hreads, hbehind, hrem⟩
  · constructor
    · rintro ⟨hreads, ⟨identity, hid, hchanged⟩ | ⟨hid, -⟩⟩
      · refine ⟨hreads, .inr ⟨hnone, hunbound, file, hfile, Bool.eq_false_iff.mpr fun hopens => ?_⟩⟩
        cases hid
        exact hchanged file hfile hopens rfl hlarge
      · cases hid
    · rintro ⟨hreads, ⟨identity, hid, -⟩ | ⟨-, -, file', hfile', hshut⟩⟩
      · rw [hnone] at hid
        cases hid
      · rw [hfile] at hfile'
        cases hfile'
        refine ⟨hreads, .inl ⟨_, identity_boundRow file, fun file' hfile' hopens => ?_⟩⟩
        rw [hfile] at hfile'
        cases hfile'
        rw [hshut] at hopens
        cases hopens

inductive Served (H : Host T) (origin : Str) (row : PendingRow) (w w' : World T) : Prop
  | completed : Completes H origin w row →
    w'.store.pending_capture = w.store.pending_capture.filter (fun r => r ≠ row) →
    Served H origin row w w'
  | parked {row' : PendingRow} : Parks H origin w row → SameKey row row' →
    row'.state = .source_changed →
    w'.store.pending_capture = replaceRow row row' w.store.pending_capture →
    Served H origin row w w'
  | stuck {row' : PendingRow} : ¬ Completes H origin w row → ¬ Parks H origin w row →
    SameKey row row' → row'.state = .pending →
    w'.store.pending_capture = replaceRow row row' w.store.pending_capture →
    ¬ Completes H origin w' row' → ¬ Parks H origin w' row' → Served H origin row w w'

theorem replaceRow_self (row : PendingRow) (rows : List PendingRow) : replaceRow row row rows = rows := by
  apply Table.map_of_fixed
  intro r _
  split
  · rename_i heq
    exact heq.symm
  · rfl

theorem served_redeliver {identity : FileIdentity} (hmem : row ∈ w.store.pending_capture)
    (horigin : row.origin = origin) (hstate : row.state = .pending)
    (hid : row.identity = some identity) :
    Served H origin row w (redeliver H origin row.capture w) ∧
      OthersKept origin row w (redeliver H origin row.capture w) := by
  by_cases hc : Completes H origin w row
  · obtain ⟨file, hfile, hopens, hsource, hreads, hbehind, hrem⟩ := id hc
    rcases hsource with ⟨hid', hlarge⟩ | ⟨hnone, -⟩
    · obtain ⟨hpending, hothers⟩ :=
        redeliver_completes hmem horigin hfile hopens hid' hlarge hreads hbehind hrem
      exact ⟨.completed hc hpending, hothers⟩
    · rw [hid] at hnone
      cases hnone
  by_cases hp : Parks H origin w row
  · obtain ⟨hreads, ⟨identity', hid', hchanged⟩ | ⟨hnone, -⟩⟩ := id hp
    · obtain ⟨hpending, hpositions⟩ := redeliver_parks hmem horigin hid' hreads hchanged
      have hkey : SameKey row (changedRow row) := ⟨rfl, rfl⟩
      exact ⟨.parked hp hkey rfl hpending, fun key _ => hpositions key⟩
    · rw [hid] at hnone
      cases hnone
  · obtain ⟨hpending, hothers, hc', hp'⟩ := redeliver_stays hid hc hp
    have hkey : SameKey row row := ⟨rfl, rfl⟩
    refine ⟨.stuck hc hp hkey hstate ?_ hc' hp', hothers⟩
    rw [hpending, replaceRow_self]

/-- A step serves the oldest row, and moves no other's watermark. -/
theorem replay_served (hq : queue origin current_session w = row :: rest) :
    Served H origin row w (replay_one_pending H origin current_session w) ∧
      OthersKept origin row w (replay_one_pending H origin current_session w) := by
  obtain ⟨hmem, horigin, hstate⟩ := mem_of_queue hq
  unfold replay_one_pending
  rw [oldest_of_queue hq]
  dsimp only
  cases hid : row.identity with
  | some identity =>
    have hidentified : identified H origin row.capture w.store = (w.store, some row.capture) := by
      unfold identified
      rw [if_neg]
      show ¬ row.identity.isNone = true
      rw [hid]
      exact Bool.false_ne_true
    rw [hidentified]
    exact served_redeliver hmem horigin hstate hid
  | none =>
    rcases identified_none hmem horigin hid with
      ⟨file, store, hfile, hunbound, hidentified, hpending, hpositions⟩ | ⟨hidentified, hwhy⟩
    · rw [hidentified]
      dsimp only
      have hjudged := judged_boundRow origin { w with store } hid hunbound hfile hpositions
      have hbound : boundRow row file ∈ store.pending_capture := by
        rw [hpending]
        exact mem_map.mpr ⟨row, hmem, if_pos rfl⟩
      -- no other row has the key of the row
      have honly : boundRow row file ∈ w.store.pending_capture → boundRow row file = row :=
        fun hin => Table.eq_of_key w.store.pending_key hin hmem rfl
      obtain ⟨hserved, hothers⟩ := served_redeliver (H := H) (w := { w with store })
        hbound horigin hstate (identity_boundRow file)
      refine ⟨?_, fun key hkey => (hothers key hkey).trans (hpositions key)⟩
      cases hserved with
      | completed hc hrows =>
        refine .completed (hjudged.1.mp hc) (hrows.trans ?_)
        show store.pending_capture.filter _ = _
        rw [hpending, filter_ne_replaceRow honly]
      | @parked row' hp hkey hchanged hrows =>
        refine .parked (hjudged.2.mp hp) hkey hchanged (hrows.trans ?_)
        show replaceRow _ _ store.pending_capture = _
        rw [hpending, replaceRow_replaceRow honly]
      | @stuck row' hc hp hkey hpend hrows hc' hp' =>
        refine .stuck (mt hjudged.1.mpr hc) (mt hjudged.2.mpr hp) hkey hpend
          (hrows.trans ?_) hc' hp'
        show replaceRow _ _ store.pending_capture = _
        rw [hpending, replaceRow_replaceRow honly]
    · rw [hidentified]
      dsimp only
      have hc : ¬ Completes H origin w row := by
        rintro ⟨file, hfile, -, ⟨hsome, -⟩ | ⟨-, hunbound⟩, -⟩
        · rw [hid] at hsome
          cases hsome
        · rcases hwhy with h | h
          · rw [h] at hfile
            cases hfile
          · rw [h] at hunbound
            cases hunbound
      have hp : ¬ Parks H origin w row := by
        rintro ⟨-, ⟨identity, hsome, -⟩ | ⟨-, hunbound, file, hfile, -⟩⟩
        · rw [hid] at hsome
          cases hsome
        · rcases hwhy with h | h
          · rw [h] at hfile
            cases hfile
          · rw [h] at hunbound
            cases hunbound
      have hkey : SameKey row row := ⟨rfl, rfl⟩
      exact ⟨.stuck hc hp hkey hstate (replaceRow_self row _).symm hc hp, fun _ _ => rfl⟩

/-! ## The rows as a queue -/

theorem scoped_injective {a b : Str} (h : scoped_watermark_key origin a = scoped_watermark_key origin b) :
    a = b := by
  unfold scoped_watermark_key at h
  exact (List.cons.inj (append_cancel_left (append_cancel_left h))).2

theorem nodup_rows (store : WatermarkStore) : store.pending_capture.Nodup :=
  store.pending_key.of_map _

theorem judged_rest {w' : World T} (hq : queue origin current_session w = row :: rest)
    (hothers : OthersKept origin row w w') : ∀ r ∈ rest,
      (Completes H origin w' r ↔ Completes H origin w r) ∧
        (Parks H origin w' r ↔ Parks H origin w r) := by
  intro r hr
  obtain ⟨hmem, horigin, -⟩ := mem_of_queue hq
  have hin : r ∈ queue origin current_session w := hq ▸ mem_cons_of_mem _ hr
  obtain ⟨hrmem, hretry⟩ := mem_filter.mp hin
  simp only [WatermarkStore.retryable, Bool.and_eq_true, decide_eq_true_eq] at hretry
  have hne : r ≠ row := by
    rintro rfl
    have hnodup : (queue origin current_session w).Nodup := (nodup_rows w.store).filter _
    rw [hq] at hnodup
    exact (nodup_cons.mp hnodup).1 hr
  refine judged_congr (hothers _ fun hkey => hne ?_)
  exact Table.eq_of_key w.store.pending_key hrmem hmem
    (by rw [hretry.1.1, horigin, scoped_injective hkey])

theorem replay_empty (hq : queue origin current_session w = []) :
    replay_one_pending H origin current_session w = w := by
  have hnone : w.store.oldest_pending origin current_session = none := by
    unfold WatermarkStore.oldest_pending
    unfold queue at hq
    rw [← head?_filter, hq]
    rfl
  unfold replay_one_pending
  rw [hnone]

theorem mem_served {w' : World T} (hs : Served H origin row w w') (hmem : row ∈ w.store.pending_capture)
    {r : PendingRow} (hr : r ∈ w'.store.pending_capture) :
    ∃ old ∈ w.store.pending_capture, SameKey old r := by
  have replaced : ∀ {row'}, SameKey row row' → r ∈ replaceRow row row' w.store.pending_capture →
      ∃ old ∈ w.store.pending_capture, SameKey old r := by
    intro row' hkey hin
    obtain ⟨old, hold, rfl⟩ := mem_map.mp hin
    split
    · exact ⟨row, hmem, hkey⟩
    · exact ⟨old, hold, rfl, rfl⟩
  cases hs with
  | completed _ hrows =>
    rw [hrows] at hr
    exact ⟨r, (mem_filter.mp hr).1, rfl, rfl⟩
  | parked _ hkey _ hrows => exact replaced hkey (hrows ▸ hr)
  | stuck _ _ hkey _ hrows => exact replaced hkey (hrows ▸ hr)

theorem other_served {w' : World T} (hs : Served H origin row w w') {r : PendingRow}
    (hr : r ∈ w.store.pending_capture) (hne : r ≠ row) : r ∈ w'.store.pending_capture := by
  have replaced : ∀ row', r ∈ replaceRow row row' w.store.pending_capture := fun row' =>
    mem_map.mpr ⟨r, hr, if_neg hne⟩
  cases hs with
  | completed _ hrows =>
    rw [hrows]
    exact mem_filter.mpr ⟨hr, by simpa using hne⟩
  | parked _ _ _ hrows => exact hrows ▸ replaced _
  | stuck _ _ _ _ hrows => exact hrows ▸ replaced _

variable (H origin current_session) in
theorem serves_pending : Serves (replay_one_pending H origin current_session)
    (queue origin current_session) PendingRow.session_key (Completed origin) (Parked origin)
    (Completes H origin) (Parks H origin) where
  empty {w} hq := by rw [replay_empty hq, hq]
  completed {w row rest} hq hc := by
    obtain ⟨hs, hothers⟩ := replay_served (H := H) hq
    obtain ⟨hmem, horigin, -⟩ := mem_of_queue hq
    cases hs with
    | parked hp => exact absurd hc (not_completes_of_parks hp)
    | stuck hc' => exact absurd hc hc'
    | completed _ hrows =>
      refine ⟨?_, ?_, judged_rest hq hothers⟩
      · unfold queue at hq ⊢
        rw [hrows, filter_ne (nodup_rows w.store) hq]
      · intro r hr hro hkey
        rw [hrows] at hr
        obtain ⟨hr, hne⟩ := mem_filter.mp hr
        refine of_decide_eq_true hne (Table.eq_of_key w.store.pending_key hr hmem ?_)
        rw [hro, horigin, hkey]
  parked {w row rest} hq hp := by
    obtain ⟨hs, hothers⟩ := replay_served (H := H) hq
    obtain ⟨hmem, horigin, -⟩ := mem_of_queue hq
    cases hs with
    | completed hc => exact absurd hc (not_completes_of_parks hp)
    | stuck _ hp' => exact absurd hp hp'
    | @parked row' _ hkey hstate hrows =>
      refine ⟨?_, ?_, judged_rest hq hothers⟩
      · unfold queue at hq ⊢
        rw [hrows, filter_replaceRow (nodup_rows w.store) hq, if_neg]
        simp [WatermarkStore.retryable, hstate]
      · refine ⟨row', ?_, hkey.1.trans horigin, hkey.2, hstate⟩
        rw [hrows]
        exact mem_map.mpr ⟨row, hmem, if_pos rfl⟩
  stuck {w row rest} hq hc hp := by
    obtain ⟨hs, -⟩ := replay_served (H := H) hq
    have hretry : WatermarkStore.retryable origin current_session row = true :=
      (mem_filter.mp (show row ∈ queue origin current_session w from hq ▸ mem_cons_self)).2
    cases hs with
    | completed hc' => exact absurd hc' hc
    | parked hp' => exact absurd hp' hp
    | @stuck row' _ _ hkey hstate hrows hc' hp' =>
      refine ⟨row', ?_, hkey.2, hc', hp'⟩
      simp only [WatermarkStore.retryable, Bool.and_eq_true, decide_eq_true_eq] at hretry
      unfold queue at hq ⊢
      rw [hrows, filter_replaceRow (nodup_rows w.store) hq, if_pos]
      simp [WatermarkStore.retryable, hstate, hkey.1, hkey.2, hretry.1.1, hretry.1.2]
  exclusive hp := not_completes_of_parks hp
  gone_step {w k} hgone := by
    cases hq : queue origin current_session w with
    | nil => rwa [replay_empty hq]
    | cons row rest =>
      intro r hr hro hkey
      obtain ⟨old, hold, hsame⟩ := mem_served (replay_served (H := H) hq).1 (mem_of_queue hq).1 hr
      exact hgone old hold (hsame.1.symm.trans hro) (hsame.2.symm.trans hkey)
  kept_step {w k} hkept := by
    obtain ⟨r, hr, hro, hkey, hstate⟩ := hkept
    cases hq : queue origin current_session w with
    | nil =>
      rw [replay_empty hq]
      exact ⟨r, hr, hro, hkey, hstate⟩
    | cons row rest =>
      refine ⟨r, other_served (replay_served (H := H) hq).1 hr ?_, hro, hkey, hstate⟩
      rintro rfl
      have hpending := (mem_of_queue hq).2.2
      rw [hstate] at hpending
      cases hpending
  not_gone_of_kept := fun ⟨r, hr, hro, hkey, _⟩ hgone => hgone r hr hro hkey
  not_gone_of_mem {w r} hr hgone := by
    obtain ⟨hmem, hretry⟩ := mem_filter.mp hr
    simp only [WatermarkStore.retryable, Bool.and_eq_true, decide_eq_true_eq] at hretry
    exact hgone r hmem hretry.1.1 rfl

/-- Repeated steps complete every pending source whose transcript is present and readable exactly
when each of them completes and each older row is completed or parked. -/
theorem pending_drains_iff (w : World T) :
    (∃ n, ∀ row ∈ queue origin current_session w, Readable H row →
      Completed origin row.session_key ((replay_one_pending H origin current_session)^[n] w)) ↔
    ∀ older row younger, queue origin current_session w = older ++ row :: younger → Readable H row →
      Completes H origin w row ∧ ∀ r ∈ older, Completes H origin w r ∨ Parks H origin w r :=
  (serves_pending H origin current_session).drains_wanted_iff (Readable H) w

/-- A row without a file that was never identified keeps everything younger back. -/
theorem missing_blocks (hq : queue origin current_session w = row :: rest)
    (hid : row.identity = none) (hfile : H.disk row.transcript_path = none) :
    ∀ r ∈ queue origin current_session w, ∀ n,
      ¬ Completed origin r.session_key ((replay_one_pending H origin current_session)^[n] w) := by
  intro r hr n
  refine (serves_pending H origin current_session).not_gone_of_stuck hq ?_ ?_ hr n
  · rintro ⟨file, hfile', -⟩
    rw [hfile] at hfile'
    cases hfile'
  · rintro ⟨-, ⟨identity, hid', -⟩ | ⟨-, -, file, hfile', -⟩⟩
    · rw [hid] at hid'
      cases hid'
    · rw [hfile] at hfile'
      cases hfile'

end Step

/-! ## A missing transcript in front of a complete one -/

def oneFile : File := ⟨⟨1, 2⟩, [0x7B, 0x7D, 0x0A], true⟩

/-- The file is at `b`, and nothing at `a`. -/
def oneFileHost : Host Str where
  disk path := if path = units "b" then some oneFile else none
  limits := ⟨4300, 1000⟩
  adapters := ⟨fun _ => none, fun _ _ => some none, fun _ => none⟩

/-- Registered while its transcript was missing. -/
def missingRow : PendingRow :=
  ⟨units "o", units "s1", units "a", none, none, none, .pending, none, 1⟩

/-- Registered with the file. -/
def presentRow : PendingRow :=
  ⟨units "o", units "s2", units "b", some 1, some 2, some 3, .pending, none, 1⟩

def missingFirst : World Str :=
  ⟨⟨[], [missingRow, presentRow], nodup_nil, by decide⟩, []⟩

/-- The second transcript is present, readable and complete, and is never completed. -/
theorem missing_blocks_present :
    queue (units "o") (units "s3") missingFirst = [missingRow, presentRow] ∧
    Readable oneFileHost presentRow ∧ Completes oneFileHost (units "o") missingFirst presentRow ∧
    ∀ n, ¬ Completed (units "o") (units "s2")
      ((replay_one_pending oneFileHost (units "o") (units "s3"))^[n] missingFirst) := by
  have hq : queue (units "o") (units "s3") missingFirst = [missingRow, presentRow] := by decide
  have hfile : oneFileHost.disk (units "b") = some oneFile := by decide
  have hlarge : LargeEnough presentRow.source_size oneFile := by
    intro size hsize
    cases hsize
    decide
  refine ⟨hq, ⟨oneFile, hfile, rfl, ?_⟩, ⟨oneFile, hfile, rfl, .inl ⟨rfl, hlarge⟩, ?_, ?_, ?_⟩,
    fun n => ?_⟩
  · intro identity hid
    cases hid
    exact ⟨rfl, hlarge⟩
  · show (read_since oneFileHost (units "b") 0 none).isSome = true
    decide +kernel
  · rintro ⟨-, hsize⟩
    revert hsize
    decide
  · decide +kernel
  · exact missing_blocks hq rfl (by decide) presentRow (hq ▸ by simp) n

end OpenBrain.Capture
