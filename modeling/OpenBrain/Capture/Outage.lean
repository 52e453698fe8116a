import OpenBrain.Core.LTS
import OpenBrain.Core.Utf16
import Mathlib.Algebra.Order.Ring.Rat
import Mathlib.Data.List.DropRight
import Mathlib.Tactic.Linarith

/-!
# The outage latch (`apps/capture/outage.py`)

One row a session: whether its last Stop failed, when its last outage was announced, how many Stops
of the open outage failed, and whether that outage was announced. A Stop reads and writes its row in
one immediate transaction, so a run over any number of processes is a list of Stops in the order of
their commits; the clock is read up to twice in each.

`notices_truthful`: with a clock that does not go back, the notices of a session alternate, two
outages are announced a cooldown apart at least, and a recovery counts the failed Stops behind it.
-/
namespace OpenBrain.Capture.Outage
open OpenBrain.Core List

/-- mirrors outage.py:185 -/
def DEGRADED_NOTICE : Str := units "open-brain unreachable - turn held for replay"

/-- mirrors outage.py:192 -/
def RECOVERED_NOTICE : Str := units "open-brain reachable again - held turns replayed"

/-- A row of `capture_outage`; mirrors outage.py:210-220 -/
structure StoredRow where
  degraded : Bool
  announced_at : Option ℚ
  failures : Nat
  announced : Bool
  deriving DecidableEq

def StoredRow.unseen : StoredRow := ⟨false, none, 0, false⟩

/-- One Stop of a session, with what the clock says when the cooldown is checked and when an outage
is announced. -/
structure Stop where
  session_key : Str
  degraded : Bool
  checked : ℚ
  announced : ℚ
  deriving DecidableEq

/-- mirrors outage.py:687-693 -/
def recovery_line (failures : Nat) : Str :=
  if 1 < failures then
    RECOVERED_NOTICE ++ units " (" ++ decimal failures ++ units " turns held)"
  else RECOVERED_NOTICE

variable (cooldown_seconds : ℚ)

/-- mirrors outage.py:695-703 -/
def within_cooldown (now : ℚ) (announced_at : Option ℚ) : Bool :=
  match announced_at with
  | none => false
  | some since => decide (now - since < cooldown_seconds)

/-- mirrors outage.py:640-685 -/
def transition (row : Option StoredRow) (stop : Stop) : Option Str × StoredRow :=
  let row := row.getD .unseen
  if stop.degraded then
    let failures := row.failures + 1
    if row.degraded then (none, ⟨true, row.announced_at, failures, row.announced⟩)
    else if within_cooldown cooldown_seconds stop.checked row.announced_at then
      (none, ⟨true, row.announced_at, failures, false⟩)
    else (some DEGRADED_NOTICE, ⟨true, some stop.announced, failures, true⟩)
  else if ¬ row.degraded then (none, ⟨false, row.announced_at, 0, row.announced⟩)
  else if ¬ row.announced then (none, ⟨false, row.announced_at, 0, false⟩)
  else (some (recovery_line row.failures), ⟨false, row.announced_at, 0, false⟩)

/-- The table by session. -/
abbrev Latch := Str → Option StoredRow

/-- A Stop and the line it printed. -/
structure Entry where
  stop : Stop
  notice : Option Str
  deriving DecidableEq

/-- One transaction; mirrors outage.py:612-638 -/
def set_blocking (st : Latch × List Entry) (stop : Stop) : Latch × List Entry :=
  let next := transition cooldown_seconds (st.1 stop.session_key) stop
  (Function.update st.1 stop.session_key (some next.2), st.2 ++ [⟨stop, next.1⟩])

/-- The Stops of all processes in the order of their commits, on a new file. -/
def run (stops : List Stop) : Latch × List Entry :=
  stops.foldl (set_blocking cooldown_seconds) (fun _ => none, [])

def sessionLog (log : List Entry) (session_key : Str) : List Entry :=
  log.filter fun e => e.stop.session_key = session_key

/-! ## What the notices say -/

/-- The lines printed, in order. -/
def notices (log : List Entry) : List Str := log.filterMap Entry.notice

/-- The outage that is open behind some Stops: those that failed since the last one that did not. -/
def openWindow (log : List Entry) : List Entry := log.rtakeWhile fun e => e.stop.degraded

/-- The clock does not go back. -/
def Nondecreasing (stops : List Stop) : Prop :=
  (stops.flatMap fun s => [s.checked, s.announced]).Pairwise (· ≤ ·)

/-- An entry prints nothing; or it opens an outage, a cooldown behind the ones announced before it;
or it closes one that was announced, and counts it. -/
def Truthful (before : List Entry) (e : Entry) : Prop :=
  e.notice = none ∨
  (e.notice = some DEGRADED_NOTICE ∧ (notices before).length % 2 = 0 ∧ openWindow before = [] ∧
    e.stop.degraded = true ∧ ∀ d ∈ before, d.notice = some DEGRADED_NOTICE →
      d.stop.announced + cooldown_seconds ≤ e.stop.checked) ∨
  (e.notice = some (recovery_line (openWindow before).length) ∧ (notices before).length % 2 = 1 ∧
    openWindow before ≠ [] ∧ e.stop.degraded = false)

theorem degraded_ne_recovery (failures : Nat) : DEGRADED_NOTICE ≠ recovery_line failures := by
  intro h
  have hunit := congrArg (fun s : Str => s[11]?) h
  unfold recovery_line at hunit
  split at hunit
  · simp only [append_assoc] at hunit
    rw [getElem?_append_left (by decide)] at hunit
    revert hunit
    decide
  · revert hunit
    decide

theorem openWindow_concat (log : List Entry) (e : Entry) :
    openWindow (log ++ [e]) = if e.stop.degraded then openWindow log ++ [e] else [] := by
  unfold openWindow
  by_cases h : e.stop.degraded = true
  · rw [if_pos h, rtakeWhile_concat_pos (fun e : Entry => e.stop.degraded) _ _ h]
  · rw [if_neg h, rtakeWhile_concat_neg (fun e : Entry => e.stop.degraded) _ _ h]

theorem notices_concat (log : List Entry) (e : Entry) :
    notices (log ++ [e]) = notices log ++ e.notice.toList := by
  cases h : e.notice <;> simp [notices, h]

/-! ## One Stop -/

/-- What the row of a session says about the session's Stops. -/
structure Inv (log : List Entry) (row : StoredRow) : Prop where
  truthful : Justified (Truthful cooldown_seconds) log
  degraded : row.degraded = true ↔ openWindow log ≠ []
  failures : row.failures = (openWindow log).length
  announced : (notices log).length % 2 = 1 ↔ row.degraded = true ∧ row.announced = true
  last : ∀ d ∈ log, d.notice = some DEGRADED_NOTICE →
    ∃ t, row.announced_at = some t ∧ d.stop.announced ≤ t

theorem inv_nil : Inv cooldown_seconds [] .unseen where
  truthful := .nil
  degraded := by simp [StoredRow.unseen, openWindow]
  failures := rfl
  announced := by simp [notices, StoredRow.unseen]
  last := by simp

variable {cooldown_seconds} {log : List Entry} {row : StoredRow} {stop : Stop}

/-- A Stop that prints nothing and keeps the time of the last announcement. -/
theorem Inv.silent (h : Inv cooldown_seconds log row) {next : StoredRow}
    (hat : next.announced_at = row.announced_at) (hdeg : next.degraded = stop.degraded)
    (hfail : next.failures = (openWindow (log ++ [⟨stop, none⟩])).length)
    (hann : (notices log).length % 2 = 1 ↔ next.degraded = true ∧ next.announced = true) :
    Inv cooldown_seconds (log ++ [⟨stop, none⟩]) next where
  truthful := h.truthful.concat (.inl rfl)
  degraded := by
    rw [hdeg, openWindow_concat]
    by_cases hs : stop.degraded = true <;> simp [hs]
  failures := hfail
  announced := by
    rw [notices_concat]
    simpa using hann
  last d hd hnotice := by
    rcases mem_append.mp hd with hd | hd
    · rw [hat]
      exact h.last d hd hnotice
    · rw [mem_singleton.mp hd] at hnotice
      cases hnotice

/-- The first failed Stop behind a cooldown: it opens an outage and prints it. -/
theorem Inv.opens (h : Inv cooldown_seconds log row) (hstop : stop.degraded = true)
    (hrow : row.degraded = false)
    (hquiet : within_cooldown cooldown_seconds stop.checked row.announced_at = false)
    (hclock : ∀ d ∈ log, d.stop.announced ≤ stop.announced) :
    Inv cooldown_seconds (log ++ [⟨stop, some DEGRADED_NOTICE⟩])
      ⟨true, some stop.announced, row.failures + 1, true⟩ := by
  have hwindow : openWindow log = [] := by
    by_contra hne
    rw [h.degraded.mpr hne] at hrow
    cases hrow
  have heven : (notices log).length % 2 = 0 := by
    have hodd := h.announced.not.mpr (by simp [hrow])
    omega
  refine ⟨h.truthful.concat (.inr (.inl ⟨rfl, heven, hwindow, hstop, ?_⟩)), ?_, ?_, ?_, ?_⟩
  · intro d hd hnotice
    obtain ⟨t, ht, hle⟩ := h.last d hd hnotice
    rw [ht] at hquiet
    simp only [within_cooldown, decide_eq_false_iff_not, not_lt] at hquiet
    linarith
  · simp [openWindow_concat, hstop]
  · simp [openWindow_concat, hstop, h.failures]
  · rw [notices_concat]
    simp
    omega
  · intro d hd _
    refine ⟨stop.announced, rfl, ?_⟩
    rcases mem_append.mp hd with hd | hd
    · exact hclock d hd
    · rw [mem_singleton.mp hd]

/-- The first Stop that lands behind an announced outage: it closes it, with its count. -/
theorem Inv.closes (h : Inv cooldown_seconds log row) (hstop : stop.degraded = false)
    (hrow : row.degraded = true) (hann : row.announced = true) :
    Inv cooldown_seconds (log ++ [⟨stop, some (recovery_line row.failures)⟩])
      ⟨false, row.announced_at, 0, false⟩ := by
  have hodd := h.announced.mpr ⟨hrow, hann⟩
  refine ⟨h.truthful.concat (.inr (.inr ⟨by rw [h.failures], hodd, h.degraded.mp hrow, hstop⟩)),
    ?_, ?_, ?_, ?_⟩
  · simp [openWindow_concat, hstop]
  · simp [openWindow_concat, hstop]
  · rw [notices_concat]
    simp
    omega
  · intro d hd hnotice
    rcases mem_append.mp hd with hd | hd
    · exact h.last d hd hnotice
    · rw [mem_singleton.mp hd] at hnotice
      exact absurd (Option.some.inj hnotice).symm (degraded_ne_recovery _)

theorem Inv.step {stored : Option StoredRow} (h : Inv cooldown_seconds log (stored.getD .unseen))
    (hclock : ∀ d ∈ log, d.stop.announced ≤ stop.announced) :
    Inv cooldown_seconds (log ++ [⟨stop, (transition cooldown_seconds stored stop).1⟩])
      (transition cooldown_seconds stored stop).2 := by
  unfold transition
  generalize stored.getD .unseen = row at h ⊢
  by_cases hstop : stop.degraded = true
  · simp only [hstop, if_true]
    by_cases hrow : row.degraded = true
    · simp only [hrow, if_true]
      refine h.silent rfl hstop.symm ?_ ?_
      · simp [openWindow_concat, hstop, h.failures]
      · simpa [hrow] using h.announced
    · rw [Bool.not_eq_true] at hrow
      simp only [hrow, Bool.false_eq_true, if_false]
      by_cases hquiet : within_cooldown cooldown_seconds stop.checked row.announced_at = true
      · rw [if_pos hquiet]
        refine h.silent rfl hstop.symm ?_ ?_
        · simp [openWindow_concat, hstop, h.failures]
        · simpa [hrow] using h.announced
      · rw [if_neg hquiet]
        exact h.opens hstop hrow ((Bool.not_eq_true _).mp hquiet) hclock
  · rw [Bool.not_eq_true] at hstop
    simp only [hstop, Bool.false_eq_true, if_false]
    by_cases hrow : row.degraded = true
    · by_cases hann : row.announced = true
      · simp only [hrow, hann, not_true, if_false]
        exact h.closes hstop hrow hann
      · rw [Bool.not_eq_true] at hann
        simp only [hrow, hann, not_true, if_false, Bool.false_eq_true, not_false_eq_true, if_true]
        refine h.silent rfl hstop.symm ?_ ?_
        · simp [openWindow_concat, hstop]
        · simpa [hrow, hann] using h.announced
    · rw [Bool.not_eq_true] at hrow
      simp only [hrow, Bool.false_eq_true, not_false_eq_true, if_true]
      refine h.silent rfl hstop.symm ?_ ?_
      · simp [openWindow_concat, hstop]
      · simpa [hrow] using h.announced

/-! ## Every run -/

variable {stops : List Stop}

theorem run_concat (stops : List Stop) (stop : Stop) :
    run cooldown_seconds (stops ++ [stop]) =
      set_blocking cooldown_seconds (run cooldown_seconds stops) stop := by
  simp [run]

theorem stops_run (stops : List Stop) :
    (run cooldown_seconds stops).2.map Entry.stop = stops := by
  induction stops using List.reverseRecOn with
  | nil => rfl
  | append_singleton stops stop ih => simp [run_concat, set_blocking, ih]

/-- A Stop of another session leaves a session's row and its log alone, and one of its own does one
transition. -/
theorem inv_run (hclock : Nondecreasing stops) (session_key : Str) :
    Inv cooldown_seconds (sessionLog (run cooldown_seconds stops).2 session_key)
      (((run cooldown_seconds stops).1 session_key).getD .unseen) := by
  induction stops using List.reverseRecOn with
  | nil => exact inv_nil cooldown_seconds
  | append_singleton stops stop ih =>
    have hsplit := hclock
    unfold Nondecreasing at hsplit
    rw [flatMap_append, pairwise_append] at hsplit
    have ih := ih hsplit.1
    rw [run_concat]
    simp only [set_blocking]
    by_cases hkey : stop.session_key = session_key
    · subst hkey
      rw [Function.update_self, sessionLog, filter_append, filter_singleton]
      simp only [decide_true]
      refine ih.step fun d hd => ?_
      have hmem : d.stop ∈ stops := by
        have hrecorded := mem_map_of_mem (f := Entry.stop) (mem_filter.mp hd).1
        rwa [stops_run] at hrecorded
      exact hsplit.2.2 d.stop.announced (mem_flatMap.mpr ⟨d.stop, hmem, by simp⟩)
        stop.announced (by simp)
    · rw [Function.update_of_ne (Ne.symm hkey), sessionLog, filter_append]
      simpa [hkey, sessionLog] using ih

theorem entry_of_notice {log : List Entry} {i : Nat} {line : Str}
    (h : (notices log)[i]? = some line) : ∃ before e after, log = before ++ e :: after ∧
      e.notice = some line ∧ (notices before).length = i := by
  induction log generalizing i with
  | nil => simp [notices] at h
  | cons e log ih =>
    cases hnotice : e.notice with
    | none =>
      have hskip : notices (e :: log) = notices log := by simp [notices, hnotice]
      obtain ⟨before, e', after, rfl, he', hlen⟩ := ih (hskip ▸ h)
      exact ⟨e :: before, e', after, rfl, he', by simpa [notices, hnotice] using hlen⟩
    | some first =>
      have htake : notices (e :: log) = first :: notices log := by simp [notices, hnotice]
      rw [htake] at h
      cases i with
      | zero =>
        cases h
        exact ⟨[], e, log, rfl, hnotice, rfl⟩
      | succ i =>
        obtain ⟨before, e', after, rfl, he', hlen⟩ := ih h
        exact ⟨e :: before, e', after, rfl, he', by simpa [notices, hnotice] using hlen⟩

/-- The notices of a session are the outage and the recovery by turns, the outage first; two outages
are announced a cooldown apart; and a recovery is printed with the number of failed Stops between
it and the one before them that landed. -/
theorem notices_truthful (cooldown_seconds : ℚ) {stops : List Stop} (hclock : Nondecreasing stops)
    (session_key : Str) :
    let log := sessionLog (run cooldown_seconds stops).2 session_key
    (∀ i line, (notices log)[i]? = some line →
      if i % 2 = 0 then line = DEGRADED_NOTICE else ∃ n, line = recovery_line n) ∧
    (∀ before d between e after, log = before ++ d :: (between ++ e :: after) →
      d.notice = some DEGRADED_NOTICE → e.notice = some DEGRADED_NOTICE →
        d.stop.announced + cooldown_seconds ≤ e.stop.checked) ∧
    ∀ before e after line, log = before ++ e :: after → e.notice = some line →
      line ≠ DEGRADED_NOTICE → line = recovery_line (openWindow before).length ∧
        openWindow before ≠ [] ∧ e.stop.degraded = false := by
  intro log
  have htruthful : Justified (Truthful cooldown_seconds) log :=
    (inv_run hclock session_key).truthful
  refine ⟨?_, ?_, ?_⟩
  · intro i line hline
    obtain ⟨before, e, after, hlog, hnotice, hlen⟩ := entry_of_notice hline
    rcases htruthful before e after hlog with h | ⟨h, heven, -⟩ | ⟨h, hodd, -⟩
    · rw [h] at hnotice
      cases hnotice
    · rw [hlen] at heven
      rw [if_pos heven]
      exact Option.some.inj (hnotice.symm.trans h)
    · rw [hlen] at hodd
      rw [if_neg (by omega)]
      exact ⟨_, Option.some.inj (hnotice.symm.trans h)⟩
  · intro before d between e after hlog hd he
    rcases htruthful (before ++ d :: between) e after (by simp [hlog]) with
      h | ⟨-, -, -, -, hapart⟩ | ⟨h, -⟩
    · rw [h] at he
      cases he
    · exact hapart d (by simp) hd
    · exact absurd (Option.some.inj (he.symm.trans h)) (degraded_ne_recovery _)
  · intro before e after line hlog hnotice hne
    rcases htruthful before e after hlog with h | ⟨h, -⟩ | ⟨h, -, hwindow, hstop⟩
    · rw [h] at hnotice
      cases hnotice
    · exact absurd (Option.some.inj (hnotice.symm.trans h)) hne
    · exact ⟨Option.some.inj (hnotice.symm.trans h), hwindow, hstop⟩

/-- Two failed Stops, one that lands, and a flap inside the cooldown. -/
theorem notices_truthful_flap :
    let stops := [⟨units "s", true, 0, 0⟩, ⟨units "s", true, 10, 10⟩, ⟨units "s", false, 20, 20⟩,
      (⟨units "s", true, 30, 30⟩ : Stop), ⟨units "s", false, 40, 40⟩]
    notices (sessionLog (run 300 stops).2 (units "s")) = [DEGRADED_NOTICE, recovery_line 2] ∧
      ∀ i line, (notices (sessionLog (run 300 stops).2 (units "s")))[i]? = some line →
        if i % 2 = 0 then line = DEGRADED_NOTICE else ∃ n, line = recovery_line n := by
  intro stops
  refine ⟨by decide +kernel, ?_⟩
  exact (notices_truthful 300 (by unfold Nondecreasing; decide +kernel) (units "s")).1

end OpenBrain.Capture.Outage
