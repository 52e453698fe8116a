import OpenBrain.Capture.Outage

/-!
# Which outages are announced (`apps/capture/outage.py`)

The notice of an outage is decided at its first failed Stop and nowhere else: every later one of
the window is silent, whatever the clock says by then. So a window is announced exactly when it
opens outside the cooldown (`announced_iff`), and one that opens inside it and goes on is never
announced, however long it lasts. No assumption on the clock is needed.
-/
namespace OpenBrain.Capture.Outage
open OpenBrain.Core List

variable (cooldown_seconds : ℚ)

def lastAnnounced (log : List Entry) : Option ℚ :=
  ((log.filter fun e => e.notice = some DEGRADED_NOTICE).getLast?).map fun e => e.stop.announced

/-- Some Stop of a window printed the outage. -/
def Announced (window : List Entry) : Prop := ∃ e ∈ window, e.notice = some DEGRADED_NOTICE

/-- The last Stop of a window comes at least the cooldown after the previous notice. -/
def Outlasts (before window : List Entry) : Prop :=
  ∀ t last, lastAnnounced before = some t → window.getLast? = some last →
    t + cooldown_seconds ≤ last.stop.checked

/-- The first Stop of a window comes at least the cooldown after the previous notice. -/
def OpensOutside (before window : List Entry) : Prop :=
  ∀ t first, lastAnnounced before = some t → window.head? = some first →
    t + cooldown_seconds ≤ first.stop.checked

/-- An entry announces an outage exactly when it is a failed Stop, the first of its window, outside
the cooldown. -/
def Opening (before : List Entry) (e : Entry) : Prop :=
  e.notice = some DEGRADED_NOTICE ↔ e.stop.degraded = true ∧ openWindow before = [] ∧
    within_cooldown cooldown_seconds e.stop.checked (lastAnnounced before) = false

/-- What the row of a session keeps for the next Stop. -/
structure Kept (log : List Entry) (row : StoredRow) : Prop where
  opening : Justified (Opening cooldown_seconds) log
  degraded : row.degraded = true ↔ openWindow log ≠ []
  announced_at : row.announced_at = lastAnnounced log

theorem lastAnnounced_concat (log : List Entry) (e : Entry) :
    lastAnnounced (log ++ [e]) =
      if e.notice = some DEGRADED_NOTICE then some e.stop.announced else lastAnnounced log := by
  unfold lastAnnounced
  rw [filter_append, filter_singleton]
  by_cases h : e.notice = some DEGRADED_NOTICE <;> simp [h]

theorem kept_nil : Kept cooldown_seconds [] .unseen where
  opening := .nil
  degraded := by simp [StoredRow.unseen, openWindow]
  announced_at := rfl

variable {cooldown_seconds} {log : List Entry} {row : StoredRow} {stop : Stop}

/-- A Stop that does not announce an outage keeps the time of the last one. -/
theorem Kept.quiet (h : Kept cooldown_seconds log row) {notice : Option Str} {next : StoredRow}
    (hnotice : notice ≠ some DEGRADED_NOTICE) (hdeg : next.degraded = stop.degraded)
    (hat : next.announced_at = row.announced_at)
    (hwhy : stop.degraded = true → row.degraded = false →
      within_cooldown cooldown_seconds stop.checked row.announced_at = true) :
    Kept cooldown_seconds (log ++ [⟨stop, notice⟩]) next where
  opening := by
    refine h.opening.concat ⟨fun hprinted => absurd hprinted hnotice, ?_⟩
    rintro ⟨hstop, hwindow, houtside⟩
    have hrow : row.degraded = false := by
      rw [← Bool.not_eq_true, h.degraded]
      exact not_not.mpr hwindow
    rw [← h.announced_at, hwhy hstop hrow] at houtside
    cases houtside
  degraded := by
    rw [hdeg, openWindow_concat]
    by_cases hs : stop.degraded = true <;> simp [hs]
  announced_at := by rw [lastAnnounced_concat, if_neg hnotice, hat, h.announced_at]

theorem Kept.step {stored : Option StoredRow} (h : Kept cooldown_seconds log (stored.getD .unseen)) :
    Kept cooldown_seconds (log ++ [⟨stop, (transition cooldown_seconds stored stop).1⟩])
      (transition cooldown_seconds stored stop).2 := by
  unfold transition
  generalize stored.getD .unseen = row at h ⊢
  by_cases hstop : stop.degraded = true
  · simp only [hstop, if_true]
    by_cases hrow : row.degraded = true
    · simp only [hrow, if_true]
      exact h.quiet (by simp) hstop.symm rfl fun _ hhealthy => by simp [hrow] at hhealthy
    · rw [Bool.not_eq_true] at hrow
      simp only [hrow, Bool.false_eq_true, if_false]
      by_cases hquiet : within_cooldown cooldown_seconds stop.checked row.announced_at = true
      · rw [if_pos hquiet]
        exact h.quiet (by simp) hstop.symm rfl fun _ _ => hquiet
      · rw [if_neg hquiet]
        have hwindow : openWindow log = [] := by
          by_contra hne
          rw [h.degraded.mpr hne] at hrow
          cases hrow
        rw [Bool.not_eq_true, h.announced_at] at hquiet
        exact ⟨h.opening.concat ⟨fun _ => ⟨hstop, hwindow, hquiet⟩, fun _ => rfl⟩,
          by simp [openWindow_concat, hstop], by simp [lastAnnounced_concat]⟩
  · rw [Bool.not_eq_true] at hstop
    have hlanded : stop.degraded = true → row.degraded = false →
        within_cooldown cooldown_seconds stop.checked row.announced_at = true :=
      fun hfailed => by simp [hstop] at hfailed
    simp only [hstop, Bool.false_eq_true, if_false]
    split
    · exact h.quiet (by simp) hstop.symm rfl hlanded
    split
    · exact h.quiet (by simp) hstop.symm rfl hlanded
    · refine h.quiet ?_ hstop.symm rfl hlanded
      simpa using (degraded_ne_recovery _).symm

theorem kept_run (stops : List Stop) (session_key : Str) :
    Kept cooldown_seconds (sessionLog (run cooldown_seconds stops).2 session_key)
      (((run cooldown_seconds stops).1 session_key).getD .unseen) := by
  induction stops using List.reverseRecOn with
  | nil => exact kept_nil cooldown_seconds
  | append_singleton stops stop ih =>
    rw [run_concat]
    simp only [set_blocking]
    by_cases hkey : stop.session_key = session_key
    · subst hkey
      rw [Function.update_self, sessionLog, filter_append, filter_singleton]
      simp only [decide_true]
      exact ih.step
    · rw [Function.update_of_ne (Ne.symm hkey), sessionLog, filter_append]
      simpa [hkey, sessionLog] using ih

/-! ## Windows -/

theorem within_cooldown_eq_false_iff {now : ℚ} {announced_at : Option ℚ} :
    within_cooldown cooldown_seconds now announced_at = false ↔
      ∀ t, announced_at = some t → t + cooldown_seconds ≤ now := by
  cases announced_at with
  | none => simp [within_cooldown]
  | some since =>
    simp only [within_cooldown, decide_eq_false_iff_not, not_lt, Option.some.injEq]
    constructor
    · rintro h t rfl
      linarith
    · intro h
      have hsince := h since rfl
      linarith

theorem openWindow_append_failed {before window : List Entry} (hne : window ≠ [])
    (hfailed : ∀ e ∈ window, e.stop.degraded = true) : openWindow (before ++ window) ≠ [] := by
  obtain ⟨window, last, rfl⟩ := (eq_nil_or_concat' window).resolve_left hne
  rw [← append_assoc, openWindow_concat, if_pos (hfailed last (by simp))]
  simp

theorem announced_iff {before window after : List Entry}
    (h : Justified (Opening cooldown_seconds) (before ++ window ++ after)) (hne : window ≠ [])
    (hfailed : ∀ e ∈ window, e.stop.degraded = true) (hfresh : openWindow before = []) :
    Announced window ↔ OpensOutside cooldown_seconds before window := by
  obtain ⟨first, rest, rfl⟩ := exists_cons_of_ne_nil hne
  have hfirst : Opening cooldown_seconds before first := h before first (rest ++ after) (by simp)
  have houtside : OpensOutside cooldown_seconds before (first :: rest) ↔
      within_cooldown cooldown_seconds first.stop.checked (lastAnnounced before) = false := by
    rw [within_cooldown_eq_false_iff]
    simp [OpensOutside]
  rw [houtside]
  constructor
  · rintro ⟨e, he, hnotice⟩
    rcases mem_cons.mp he with rfl | he
    · exact (hfirst.mp hnotice).2.2
    · -- a later Stop of the window has the first one open before it
      obtain ⟨front, back, rfl⟩ := append_of_mem he
      have hlater : Opening cooldown_seconds (before ++ first :: front) e :=
        h (before ++ first :: front) e (back ++ after) (by simp)
      refine absurd (hlater.mp hnotice).2.1 (openWindow_append_failed (by simp) ?_)
      intro d hd
      refine hfailed d ?_
      simp only [mem_cons, mem_append] at hd ⊢
      tauto
  · intro hquiet
    exact ⟨first, mem_cons_self,
      hfirst.mpr ⟨hfailed first mem_cons_self, hfresh, hquiet⟩⟩

/-- A window of failed Stops that goes on for the cooldown after the previous notice is announced
exactly when it does not begin inside that cooldown. -/
theorem long_outage_announced_iff (cooldown_seconds : ℚ) (stops : List Stop) (session_key : Str)
    (before window after : List Entry)
    (hlog : sessionLog (run cooldown_seconds stops).2 session_key = before ++ window ++ after)
    (hne : window ≠ []) (hfailed : ∀ e ∈ window, e.stop.degraded = true)
    (hfresh : openWindow before = []) :
    (Outlasts cooldown_seconds before window → Announced window) ↔
      (Outlasts cooldown_seconds before window → OpensOutside cooldown_seconds before window) := by
  have hkept := (@kept_run cooldown_seconds stops session_key).opening
  rw [hlog] at hkept
  rw [announced_iff hkept hne hfailed hfresh]

/-- A blip is announced and over; ten seconds later an outage begins that is still open when the
cooldown has long passed. -/
def hushed : List Stop :=
  [⟨units "s", true, 0, 0⟩, ⟨units "s", false, 10, 10⟩, ⟨units "s", true, 20, 20⟩,
    ⟨units "s", true, 4000, 4000⟩]

/-- The log of `hushed`, its last two Stops the window. -/
def hushedLog : List Entry × List Entry :=
  ([⟨⟨units "s", true, 0, 0⟩, some DEGRADED_NOTICE⟩,
      ⟨⟨units "s", false, 10, 10⟩, some RECOVERED_NOTICE⟩],
    [⟨⟨units "s", true, 20, 20⟩, none⟩, ⟨⟨units "s", true, 4000, 4000⟩, none⟩])

theorem long_outage_announced_iff_hushed :
    (sessionLog (run 300 hushed).2 (units "s") = hushedLog.1 ++ hushedLog.2 ++ []) ∧
      ((Outlasts 300 hushedLog.1 hushedLog.2 → Announced hushedLog.2) ↔
        (Outlasts 300 hushedLog.1 hushedLog.2 → OpensOutside 300 hushedLog.1 hushedLog.2)) := by
  have hlog : sessionLog (run 300 hushed).2 (units "s") = hushedLog.1 ++ hushedLog.2 ++ [] := by
    decide +kernel
  exact ⟨hlog, long_outage_announced_iff 300 hushed (units "s") hushedLog.1 hushedLog.2 [] hlog
    (by decide) (by decide) (by decide)⟩

/-- It is an hour old and was never announced. -/
theorem hour_long_outage_silent :
    sessionLog (run 300 hushed).2 (units "s") = hushedLog.1 ++ hushedLog.2 ++ [] ∧
      (∀ e ∈ hushedLog.2, e.stop.degraded = true) ∧ openWindow hushedLog.1 = [] ∧
      Outlasts 300 hushedLog.1 hushedLog.2 ∧ ¬ Announced hushedLog.2 := by
  refine ⟨by decide +kernel, by decide, by decide, ?_, ?_⟩
  · intro t last ht hlast
    have hzero : lastAnnounced hushedLog.1 = some 0 := by decide +kernel
    rw [hzero] at ht
    cases ht
    cases hlast
    norm_num
  · rintro ⟨e, he, hnotice⟩
    simp only [hushedLog, mem_cons, not_mem_nil, or_false] at he
    rcases he with rfl | rfl <;> cases hnotice

end OpenBrain.Capture.Outage
