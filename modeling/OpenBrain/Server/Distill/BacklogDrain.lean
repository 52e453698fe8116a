import OpenBrain.Server.Distill.Isolation
import OpenBrain.Server.Distill.LaneBatches

/-!
# The distill backlog drains

A lane the sweep returns has a due turn, and a claim bound to the lane takes at least one of the
lane's due turns and stamps no other lane's (`sweep_claims`). Over runs, `Fresh` says that a job
that waits is the one the sweep would enqueue now for its lane, which still has due turns: no
other job could have touched that lane. So a job that runs stamps a turn, and a tick leaves a job
as long as turns are due (`backlog_drains`), unless the queue refuses the namespace of a lane: the
sweep ends at the first such lane (`refused_stops`).
-/
namespace OpenBrain.Server.Distill
open OpenBrain.Core List
open OpenBrain.Server.Maintenance (namespacePattern)

/-! ## Dials -/

theorem toInt_ofInt (n : Int) : Number.toInt (Number.ofInt n) = some n := by
  show (if ((n : ℚ)).den = 1 then some ((n : ℚ)).num else none) = some n
  rw [Rat.den_intCast, Rat.num_intCast]
  rfl

theorem ofInt_inj {m n : Int} (h : Number.ofInt m = Number.ofInt n) : m = n :=
  Option.some.inj ((toInt_ofInt m).symm.trans ((congrArg Number.toInt h).trans (toInt_ofInt n)))

theorem eq_ofInt {x : Number} {n : Int} (h : Number.toInt x = some n) : x = Number.ofInt n := by
  unfold Number.toInt at h
  split at h
  · rename_i q
    split at h
    · rename_i hden
      rw [← Option.some.inj h]
      show some (some (some q)) = some (some (some ((q.num : ℚ))))
      rw [Rat.coe_int_num_of_den_eq_one hden]
    · cases h
  · cases h
  · cases h
  · cases h

theorem clamp_ofInt (lo hi n : Int) :
    clamp lo hi (Number.ofInt n) = Number.ofInt (min (max n lo) hi) := by
  unfold clamp Number.ofInt
  rw [Option.map_some]
  congr 1
  push_cast
  rfl

/-! ## The claim takes a due turn -/

section Claim
variable {c : Collation} {db : Backlog} {options : ClaimDistillOptions}
  {groups : List (Option Str)} {bindings : ClaimBindings}

theorem foldl_min_nonneg {seqs : List Int} {seq : Int} (hseq : 0 ≤ seq) (h : ∀ n ∈ seqs, 0 ≤ n) :
    0 ≤ seqs.foldl min seq := by
  induction seqs generalizing seq with
  | nil => exact hseq
  | cons n seqs ih =>
    exact ih (le_min hseq (h n mem_cons_self)) fun m hm => h m (mem_cons_of_mem _ hm)

theorem mem_dueTurns {sessions : List (Option Str)} {limit : Nat} {row : RawTurn}
    (h : row ∈ dueTurns c db.turns options sessions limit) : row ∈ db.turns.rows ∧
      row.due = true ∧ selected options row = true := by
  have hmem := (ordered_perm _).mem_iff.mp (mem_of_mem_take h)
  obtain ⟨hrow, hcond⟩ := mem_filter.mp hmem
  obtain ⟨hcond, -⟩ := Bool.and_eq_true_iff.mp hcond
  exact ⟨hrow, Bool.and_eq_true_iff.mp hcond⟩

/-- Row numbers keep the bounds of the context within an `int`. -/
theorem inRange (hcontext : bindings.contextLimit ≤ 64) :
    outOfRange c db.turns options groups bindings = false := by
  unfold outOfRange
  rw [any_eq_false]
  intro row _
  rw [Bool.not_eq_true, Option.any_eq_false]
  intro bounds hbounds
  unfold contextBounds at hbounds
  dsimp only at hbounds
  have hseqs : ∀ seq ∈ ((dueTurns c db.turns options
      (dueSessions db.turns options groups bindings.sessionLimit) bindings.turnLimit).filter
        fun r => decide (r.session_ref = row.session_ref)).filterMap fun r => r.session_seq,
      0 ≤ seq := by
    intro seq hseq
    obtain ⟨r, hr, hr'⟩ := mem_filterMap.mp hseq
    obtain ⟨hmem, -⟩ := mem_dueTurns (mem_of_mem_filter hr)
    obtain ⟨t, ht, rfl⟩ := mem_map.mp hmem
    exact db.seqs t ht seq hr'
  split at hbounds
  · cases hbounds
  · rename_i seq rest hsplit
    rw [hsplit] at hseqs
    cases hbounds
    have hlow := foldl_min_nonneg (hseqs seq mem_cons_self)
      fun n hn => hseqs n (mem_cons_of_mem _ hn)
    simp only [decide_eq_false_iff_not, not_lt]
    omega

theorem claim_takes (hb : buildClaimBindings options = some bindings)
    (hsessions : 0 < bindings.sessionLimit) (hturns : 0 < bindings.turnLimit)
    (hcontext : bindings.contextLimit ≤ 64) (hg : Grouping db groups) {row : RawTurn}
    (hrow : row ∈ db.turns.rows) (hdue : row.due = true) (hsel : selected options row = true) :
    ∃ batch, claimDistillBatch c db.turns options groups = some batch ∧
      batch.consumedTurnIds ≠ [] := by
  -- a session with due turns is taken
  obtain ⟨session, hsession⟩ : ∃ session,
      session ∈ dueSessions db.turns options groups bindings.sessionLimit := by
    unfold dueSessions
    apply exists_mem_of_ne_nil
    rw [ne_eq, take_eq_nil_iff, not_or]
    refine ⟨Nat.ne_of_gt hsessions, ?_⟩
    rw [← length_eq_zero_iff, length_insertionSort, length_eq_zero_iff]
    refine ne_nil_of_mem (a := row.session_ref) (mem_filter.mpr ⟨?_, ?_⟩)
    · obtain ⟨t, ht, rfl⟩ := mem_map.mp hrow
      exact hg.2 t ht
    · rw [any_eq_true]
      exact ⟨row, mem_filter.mpr ⟨hrow, by rw [hdue, hsel]; rfl⟩, decide_eq_true rfl⟩
  -- and so is one of its due turns
  obtain ⟨turn, hturn⟩ : ∃ turn, turn ∈ dueTurns c db.turns options
      (dueSessions db.turns options groups bindings.sessionLimit) bindings.turnLimit := by
    have hany : ∃ r ∈ db.turns.rows, (r.due && selected options r) = true ∧
        r.session_ref = session := by
      unfold dueSessions at hsession
      have hmem := (perm_insertionSort _ _).mem_iff.mp (mem_of_mem_take hsession)
      obtain ⟨r, hr, hrs⟩ := any_eq_true.mp (mem_filter.mp hmem).2
      obtain ⟨hr, hcond⟩ := mem_filter.mp hr
      exact ⟨r, hr, hcond, of_decide_eq_true hrs⟩
    obtain ⟨r, hr, hcond, rfl⟩ := hany
    unfold dueTurns
    apply exists_mem_of_ne_nil
    rw [ne_eq, take_eq_nil_iff, not_or]
    refine ⟨Nat.ne_of_gt hturns, ne_nil_of_mem (a := r) ?_⟩
    rw [(ordered_perm _).mem_iff]
    exact mem_filter.mpr ⟨hr, by rw [hcond, contains_iff_mem.mpr hsession]; rfl⟩
  obtain ⟨hmem, hturnDue, -⟩ := mem_dueTurns hturn
  have hclaimed : claimed c db.turns options groups bindings turn = true := by
    unfold claimed
    dsimp only
    rw [contains_iff_mem.mpr hturn, Bool.true_or]
  have hrows : claimRows c db.turns options groups =
      some (ordered c (db.turns.rows.filter (claimed c db.turns options groups bindings))) := by
    unfold claimRows
    rw [hb]
    show (if outOfRange c db.turns options groups bindings = true then none else _) = _
    rw [inRange hcontext]
    rfl
  refine ⟨_, by unfold claimDistillBatch; rw [hrows]; rfl, ?_⟩
  have hin : turn ∈ ordered c (db.turns.rows.filter (claimed c db.turns options groups bindings)) :=
    (ordered_perm _).mem_iff.mpr (mem_filter.mpr ⟨hmem, hclaimed⟩)
  refine ne_nil_of_mem (a := turn.id) (mem_map.mpr ⟨turn.toDistillTurn, ?_, rfl⟩)
  refine mem_filter.mpr ⟨mem_map_of_mem hin, ?_⟩
  exact contains_iff_mem.mpr
    (mem_map.mpr ⟨turn, mem_filter.mpr ⟨hin, hturnDue⟩, rfl⟩)

theorem consumed_selected {batch : DistillBatch}
    (h : claimDistillBatch c db.turns options groups = some batch) {id : Uuid}
    (hid : id ∈ batch.consumedTurnIds) : ∃ row ∈ db.rows, row.id = id ∧ row.due = true ∧
      selected options row.toRawTurn = true := by
  obtain ⟨rows, hrows, h⟩ := Option.bind_eq_some_iff.mp h
  rw [← Option.some.inj h] at hid
  obtain ⟨turn, hturn, rfl⟩ := mem_map.mp hid
  obtain ⟨-, hdue⟩ := mem_filter.mp hturn
  obtain ⟨row, hrow, hrowid⟩ := mem_map.mp (contains_iff_mem.mp hdue)
  obtain ⟨hrow, hrowDue⟩ := mem_filter.mp hrow
  obtain ⟨bindings, -, rfl⟩ := claimRows_some hrows
  obtain ⟨hmem, hclaimed⟩ := mem_filter.mp ((ordered_perm _).mem_iff.mp hrow)
  obtain ⟨t, ht, rfl⟩ := mem_map.mp hmem
  exact ⟨t, ht, hrowid, hrowDue, selected_of_claimed hclaimed⟩

end Claim

/-! ## A claim bound to a lane -/

def laneClaim (lane : Lane) (maxSessions maxTurns contextWindow : Number) : ClaimDistillOptions where
  ns := some lane.ns
  laneId := .of lane.lane_id
  maxSessions := some maxSessions
  maxTurns := some maxTurns
  contextWindow := some contextWindow

section Lanes
variable {pg : Database} {db : Backlog} {lane : Lane} {groups : List (Option Str)}
  {a b c : Number}

theorem selected_laneClaim (row : RawTurn) : selected (laneClaim lane a b c) row = true ↔
    row.live = true ∧ row.lane = lane := by
  obtain ⟨lane_id, ns⟩ := lane
  unfold selected laneClaim RawTurn.live RawTurn.lane
  cases lane_id with
  | none => simp [LaneSelection.of, and_assoc, and_comm]
  | some id => simp [LaneSelection.of, and_assoc, and_comm]

theorem bindings_laneClaim (sessions turns context : Int) :
    buildClaimBindings (laneClaim lane (.ofInt sessions) (.ofInt turns) (.ofInt context)) =
      some ⟨(min (max sessions 1) 64).toNat, (min (max turns 1) 20000).toNat,
        min (max context 0) 64⟩ := by
  unfold buildClaimBindings laneClaim
  simp only [Option.getD_some, clamp_ofInt, toInt_ofInt]
  cases lane.lane_id <;> rfl

theorem mem_laneDue {row : SweepTurn} : row ∈ laneDue db lane ↔
    row ∈ db.rows ∧ row.lane = lane ∧ row.due = true ∧ row.live = true := by
  unfold laneDue laneRows
  simp only [mem_filter, decide_eq_true_eq, Bool.and_eq_true, and_assoc]

/-- A claim of a lane with due turns consumes at least one, and none of another lane. -/
theorem laneClaim_takes (col : Collation) (hdue : laneDue db lane ≠ []) (hg : Grouping db groups)
    (sessions turns context : Int) : ∃ batch, claimDistillBatch col db.turns
      (laneClaim lane (.ofInt sessions) (.ofInt turns) (.ofInt context)) groups = some batch ∧
      batch.consumedTurnIds ≠ [] ∧
      ∀ id ∈ batch.consumedTurnIds, ∃ row ∈ laneDue db lane, row.id = id := by
  obtain ⟨row, hrow⟩ := exists_mem_of_ne_nil _ hdue
  obtain ⟨hmem, hlane, hrowDue, hlive⟩ := mem_laneDue.mp hrow
  obtain ⟨batch, hbatch, hne⟩ := claim_takes (c := col) (bindings_laneClaim sessions turns context)
    (by dsimp only; omega) (by dsimp only; omega) (by dsimp only; omega) hg
    (mem_map_of_mem (f := fun r : SweepTurn => r.toRawTurn) hmem) hrowDue
    ((selected_laneClaim _).mpr ⟨hlive, hlane⟩)
  refine ⟨batch, hbatch, hne, ?_⟩
  intro id hid
  obtain ⟨r, hr, hrid, hrdue, hsel⟩ := consumed_selected hbatch hid
  obtain ⟨hrlive, hrlane⟩ := (selected_laneClaim _).mp hsel
  exact ⟨r, mem_laneDue.mpr ⟨hr, hrlane, hrdue, hrlive⟩, hrid⟩

/-! ## The sweep -/

theorem processable_laneDue {maxSessions maxTurns : Int} {row : SweepTurn}
    (h : row ∈ processable pg db lane maxSessions maxTurns) : row ∈ laneDue db lane := by
  have hmem := (perm_insertionSort _ _).mem_iff.mp (mem_of_mem_take h)
  obtain ⟨hwindow, hdue⟩ := mem_filter.mp hmem
  obtain ⟨hrow, hcond⟩ := mem_filter.mp hwindow
  obtain ⟨hlive, -⟩ := Bool.and_eq_true_iff.mp hcond
  exact mem_filter.mpr ⟨hrow, by rw [hdue, hlive]; rfl⟩

theorem processable_pos {maxSessions maxTurns : Int} (hs : 1 ≤ maxSessions) (ht : 1 ≤ maxTurns)
    (hdue : laneDue db lane ≠ []) : 0 < (processable pg db lane maxSessions maxTurns).length := by
  obtain ⟨row, hrow⟩ := exists_mem_of_ne_nil _ hdue
  obtain ⟨session, hsession⟩ : ∃ session,
      session ∈ (rankedSessions pg db lane).take maxSessions.toNat := by
    apply exists_mem_of_ne_nil
    rw [ne_eq, take_eq_nil_iff, not_or]
    refine ⟨by omega, ?_⟩
    unfold rankedSessions
    dsimp only
    rw [← length_eq_zero_iff, length_insertionSort, length_eq_zero_iff]
    exact ne_nil_of_mem (mem_dedup.mpr (mem_map_of_mem hrow))
  obtain ⟨t, ht', hts⟩ : ∃ t ∈ laneDue db lane, t.session_ref = session := by
    have hmem := (perm_insertionSort _ _).mem_iff.mp (mem_of_mem_take hsession)
    obtain ⟨t, ht, hts⟩ := mem_map.mp (mem_dedup.mp hmem)
    exact ⟨t, ht, hts⟩
  obtain ⟨hmem, hcond⟩ := mem_filter.mp ht'
  obtain ⟨htdue, htlive⟩ := Bool.and_eq_true_iff.mp hcond
  have hranked : t ∈ rankedWindowTurns pg db lane maxSessions := by
    unfold rankedWindowTurns
    rw [(perm_insertionSort _ _).mem_iff]
    refine mem_filter.mpr ⟨mem_filter.mpr ⟨hmem, ?_⟩, htdue⟩
    rw [htlive, hts, contains_iff_mem.mpr hsession]
    rfl
  have hlen := length_pos_of_mem hranked
  unfold processable
  rw [length_take]
  omega

theorem select_spec {order : List Lane} {values : LaneBatchValues}
    {rows : List DistillLaneBatchRow} (h : selectDistillLaneBatches pg db order values = some rows)
    {row : DistillLaneBatchRow} (hrow : row ∈ rows) : ∃ sessions turns total,
      values.maxSessions = .ofInt sessions ∧ values.maxTurns = .ofInt turns ∧
      row = laneBatchRow pg db row.lane sessions turns total ∧ laneDue db row.lane ≠ [] := by
  obtain ⟨sessions, hsessions, h⟩ := Option.bind_eq_some_iff.mp h
  obtain ⟨turns, hturns, h⟩ := Option.bind_eq_some_iff.mp h
  obtain ⟨batches, -, h⟩ := Option.bind_eq_some_iff.mp h
  split at h
  · cases h
  · rw [← Option.some.inj h] at hrow
    obtain ⟨lane, hlane, rfl⟩ := mem_map.mp hrow
    refine ⟨sessions, turns, _, eq_ofInt hsessions, eq_ofInt hturns, rfl, ?_⟩
    have hmem := (perm_insertionSort _ _).mem_iff.mp (mem_of_mem_take hlane)
    have hpos := of_decide_eq_true (mem_filter.mp hmem).2
    obtain ⟨t, ht⟩ := exists_mem_of_length_pos hpos
    exact ne_nil_of_mem (processable_laneDue ht)

/-- A lane the sweep returns gives a claim with the same dials a due turn, and only due turns of
the lane. -/
theorem sweep_claims {order : List Lane} {values : LaneBatchValues}
    {rows : List DistillLaneBatchRow} (h : selectDistillLaneBatches pg db order values = some rows)
    {row : DistillLaneBatchRow} (hrow : row ∈ rows) (hg : Grouping db groups) (context : Int) :
    ∃ batch, claimDistillBatch pg.collation db.turns
      (laneClaim row.lane values.maxSessions values.maxTurns (.ofInt context)) groups = some batch ∧
      batch.consumedTurnIds ≠ [] ∧
      ∀ id ∈ batch.consumedTurnIds, ∃ turn ∈ laneDue db row.lane, turn.id = id := by
  obtain ⟨sessions, turns, total, hs, ht, -, hdue⟩ := select_spec h hrow
  rw [hs, ht]
  exact laneClaim_takes pg.collation hdue hg sessions turns context

end Lanes

/-! ## Stamps -/

section Stamps
variable {pg : Database} {db : Backlog} {lane : Lane} {ids : List Uuid} {now : Int}

theorem laneDue_eq : laneDue db lane = db.due.filter fun row => decide (row.lane = lane) := by
  unfold laneDue laneRows Backlog.due
  rw [filter_filter, filter_filter]
  congr 1
  funext row
  rw [Bool.and_comm]

theorem stamp_of_not_mem {row : SweepTurn} (h : ids.contains row.id = false) :
    row.stamp ids now = row := by
  unfold SweepTurn.stamp
  rw [h]
  rfl

theorem stamp_due {row : SweepTurn} : (row.stamp ids now).due = (!ids.contains row.id && row.due) := by
  unfold SweepTurn.stamp
  by_cases hid : ids.contains row.id = true
  · rw [hid]
    by_cases hdue : row.due = true
    · rw [hdue]
      rfl
    · rw [Bool.not_eq_true] at hdue
      rw [hdue]
      exact hdue
  · rw [Bool.not_eq_true] at hid
    rw [hid]
    rfl

theorem stamp_live {row : SweepTurn} : (row.stamp ids now).live = row.live := by
  unfold SweepTurn.stamp
  split <;> rfl

/-- A stamp takes the turns it names from those left. -/
theorem due_stamp :
    (db.stamp ids now).due = db.due.filter fun row => !ids.contains row.id := by
  have hkept : ∀ row ∈ db.due.filter fun row => !ids.contains row.id,
      row.stamp ids now = row := by
    intro row hrow
    exact stamp_of_not_mem (Bool.not_eq_true' _ ▸ (mem_filter.mp hrow).2)
  calc (db.stamp ids now).due
      = (db.rows.map (SweepTurn.stamp ids now)).filter fun row => row.due && row.live := rfl
    _ = (db.due.filter fun row => !ids.contains row.id).map (SweepTurn.stamp ids now) := by
        unfold Backlog.due
        rw [filter_map, filter_filter]
        congr 2
        funext row
        rw [Function.comp_apply, stamp_due, stamp_live, Bool.and_assoc]
    _ = db.due.filter fun row => !ids.contains row.id := by
        rw [map_congr_left hkept, map_id']

/-- It leaves the other lanes as they are. -/
theorem laneRows_stamp (hids : ∀ id ∈ ids, ∃ turn ∈ laneDue db lane, turn.id = id) {other : Lane}
    (hne : other ≠ lane) : laneRows (db.stamp ids now) other = laneRows db other := by
  have hkept : ∀ row ∈ laneRows db other, row.stamp ids now = row := by
    intro row hrow
    obtain ⟨hmem, hlane⟩ := mem_filter.mp hrow
    apply stamp_of_not_mem
    rw [Bool.eq_false_iff]
    intro hid
    obtain ⟨turn, hturn, hturnid⟩ := hids row.id (contains_iff_mem.mp hid)
    obtain ⟨hturnmem, hturnlane, -, -⟩ := mem_laneDue.mp hturn
    have heq : turn = row := inj_on_of_nodup_map db.ids hturnmem hmem hturnid
    exact hne ((of_decide_eq_true hlane).symm.trans (heq ▸ hturnlane))
  calc laneRows (db.stamp ids now) other
      = (db.rows.map (SweepTurn.stamp ids now)).filter fun row =>
          decide (row.lane = other) := rfl
    _ = (laneRows db other).map (SweepTurn.stamp ids now) := by
        unfold laneRows
        rw [filter_map]
        congr 2
        funext row
        rw [Function.comp_apply, SweepTurn.stamp_lane]
    _ = laneRows db other := by rw [map_congr_left hkept, map_id']

end Stamps

/-! ## The jobs that wait -/

def batchJob (pg : Database) (options : MaintenanceSweepOptions) (db : Backlog) (lane : Lane) :
    DistillJob :=
  buildMemoryDistillEnqueue
    (batchHash pg db lane DEFAULT_MAX_DISTILL_SESSIONS options.maxTurns ++
      units s!":s{DEFAULT_MAX_DISTILL_SESSIONS}:t{options.maxTurns}")
    lane.ns lane.lane_id DEFAULT_MAX_DISTILL_SESSIONS options.maxTurns

def liveKeys (jobs : List DistillJob) : List Str :=
  (jobs.filter fun job => job.live).map fun job => job.idempotencyKey

/-- A job that waits is the one its lane would get now, and the lane has due turns; the queue
has accepted its namespace. -/
structure Fresh (pg : Database) (options : MaintenanceSweepOptions) (s : Pipeline) : Prop where
  current : ∀ job ∈ s.jobs, job.live = true →
    ∃ lane, laneDue s.backlog lane ≠ [] ∧ job = batchJob pg options s.backlog lane
  accepted : ∀ job ∈ s.jobs, job.live = true → namespacePattern job.ns = true
  once : (liveKeys s.jobs).Nodup

section Jobs
variable {pg : Database} {options : MaintenanceSweepOptions} {db db' : Backlog} {lane : Lane}
  {jobs jobs' : List DistillJob} {job : DistillJob}

theorem fresh_init {s : Pipeline} (h : Pipeline.Init s) : Fresh pg options s where
  current := fun job hjob hlive => absurd ((h job hjob).symm.trans hlive) Bool.false_ne_true
  accepted := fun job hjob hlive => absurd ((h job hjob).symm.trans hlive) Bool.false_ne_true
  once := by
    have hnone : (s.jobs.filter fun job => job.live) = [] :=
      filter_eq_nil_iff.mpr fun job hjob => by rw [h job hjob]; exact Bool.false_ne_true
    unfold liveKeys
    rw [hnone]
    exact nodup_nil

theorem batchJob_congr (h : laneRows db lane = laneRows db' lane) :
    batchJob pg options db lane = batchJob pg options db' lane := by
  have hdue : laneDue db lane = laneDue db' lane := by unfold laneDue; rw [h]
  have hranked : rankedSessions pg db lane = rankedSessions pg db' lane := by
    unfold rankedSessions firstDue
    rw [hdue]
  unfold batchJob batchHash processable rankedWindowTurns windowTurns
  rw [h, hranked]

theorem enqueue_cases (h : enqueue jobs job = .ok jobs') :
    (jobs' = jobs ++ [job] ∧ namespacePattern job.ns = true ∧
      job.idempotencyKey ∉ liveKeys jobs) ∨
    (jobs' = jobs ∧ ∃ existing ∈ jobs, existing.live = true) := by
  unfold enqueue at h
  split at h
  · cases h
  · rename_i hns
    split at h
    · rename_i hnone
      left
      refine ⟨(Except.ok.inj h).symm, not_not.mp hns, fun hmem => ?_⟩
      obtain ⟨other, hother, hkey⟩ := mem_map.mp hmem
      obtain ⟨hother, hlive⟩ := mem_filter.mp hother
      refine find?_eq_none.mp hnone other hother ?_
      rw [hlive, hkey, decide_eq_true rfl]
      rfl
    · rename_i existing hfind
      split at h
      · cases h
      · have hcond := find?_some hfind
        exact .inr ⟨(Except.ok.inj h).symm, existing, mem_of_find?_eq_some hfind,
          (Bool.and_eq_true_iff.mp hcond).1⟩

/-- A job the queue refuses meets a refused namespace or a job that waits. -/
theorem enqueue_error {text : Str} (h : enqueue jobs job = .error text) :
    namespacePattern job.ns = false ∨ ∃ existing ∈ jobs, existing.live = true := by
  unfold enqueue at h
  split at h
  · rename_i hns
    exact .inl (Bool.not_eq_true _ ▸ hns)
  · split at h
    · cases h
    · rename_i existing hfind
      have hcond := find?_some hfind
      exact .inr ⟨existing, mem_of_find?_eq_some hfind, (Bool.and_eq_true_iff.mp hcond).1⟩

theorem liveKeys_append (hlive : job.live = true) :
    liveKeys (jobs ++ [job]) = liveKeys jobs ++ [job.idempotencyKey] := by
  unfold liveKeys
  rw [filter_append, filter_cons, if_pos hlive, map_append]
  rfl

theorem enqueue_fresh (hs : Fresh pg options ⟨db, jobs⟩) (hdue : laneDue db lane ≠ [])
    (h : enqueue jobs (batchJob pg options db lane) = .ok jobs') :
    Fresh pg options ⟨db, jobs'⟩ := by
  obtain ⟨rfl, hns, hnew⟩ | ⟨rfl, -⟩ := enqueue_cases h
  · refine ⟨fun job hjob hlive => ?_, fun job hjob hlive => ?_, ?_⟩
    · obtain hjob | hjob := mem_append.mp hjob
      · exact hs.current job hjob hlive
      · exact ⟨lane, hdue, mem_singleton.mp hjob⟩
    · obtain hjob | hjob := mem_append.mp hjob
      · exact hs.accepted job hjob hlive
      · exact mem_singleton.mp hjob ▸ hns
    · rw [liveKeys_append rfl, nodup_append]
      refine ⟨hs.once, nodup_singleton _, fun key hkey other hother => ?_⟩
      rw [mem_singleton.mp hother]
      exact fun heq => hnew (heq ▸ hkey)
  · exact hs

theorem enqueueDistillBatches_mem {maxSessions maxTurns : Int}
    {batches : List DistillLaneBatchRow} (hjob : job ∈ jobs) :
    job ∈ enqueueDistillBatches jobs maxSessions maxTurns batches := by
  induction batches generalizing jobs with
  | nil => exact hjob
  | cons batch batches ih =>
    unfold enqueueDistillBatches
    split
    · rename_i jobs' h
      apply ih
      obtain ⟨rfl, -⟩ | ⟨rfl, -⟩ := enqueue_cases h
      · exact mem_append_left _ hjob
      · exact hjob
    · exact hjob

theorem enqueueDistillBatches_live {maxSessions maxTurns : Int} {batch : DistillLaneBatchRow}
    {batches : List DistillLaneBatchRow} (hns : namespacePattern batch.ns = true) :
    ∃ job ∈ enqueueDistillBatches jobs maxSessions maxTurns (batch :: batches),
      job.live = true := by
  unfold enqueueDistillBatches
  split
  · rename_i jobs' h
    obtain ⟨rfl, -⟩ | ⟨rfl, job, hjob, hlive⟩ := enqueue_cases h
    · exact ⟨_, enqueueDistillBatches_mem (mem_append_right _ (mem_singleton_self _)),
        rfl⟩
    · exact ⟨job, enqueueDistillBatches_mem hjob, hlive⟩
  · rename_i text h
    obtain hrefused | hlive := enqueue_error h
    · exact absurd (hrefused.symm.trans hns) Bool.false_ne_true
    · exact hlive

theorem enqueueDistillBatches_fresh {batches : List DistillLaneBatchRow}
    (hb : ∀ batch ∈ batches, laneDue db batch.lane ≠ [] ∧ ∃ total, batch =
      laneBatchRow pg db batch.lane DEFAULT_MAX_DISTILL_SESSIONS options.maxTurns total)
    (hs : Fresh pg options ⟨db, jobs⟩) : Fresh pg options
      ⟨db, enqueueDistillBatches jobs DEFAULT_MAX_DISTILL_SESSIONS options.maxTurns batches⟩ := by
  induction batches generalizing jobs with
  | nil => exact hs
  | cons batch batches ih =>
    obtain ⟨hdue, total, hbatch⟩ := hb batch mem_cons_self
    have hjob : buildMemoryDistillEnqueue
        (batch.batch_hash ++ units s!":s{DEFAULT_MAX_DISTILL_SESSIONS}:t{options.maxTurns}")
        batch.ns batch.lane_id DEFAULT_MAX_DISTILL_SESSIONS options.maxTurns =
          batchJob pg options db batch.lane := by
      rw [hbatch]
      rfl
    unfold enqueueDistillBatches
    rw [hjob]
    split
    · rename_i jobs' h
      exact ih (fun b hb' => hb b (mem_cons_of_mem _ hb')) (enqueue_fresh hs hdue h)
    · exact hs

end Jobs

/-! ## Steps -/

section Steps
variable {pg : Database} {options : MaintenanceSweepOptions} {s s' : Pipeline}
  {order : List Lane} {place : Nat} {groups : List (Option Str)} {now : Int}

theorem tick_some (h : s.step pg options (.tick order) = some s') : ∃ batches,
    selectDistillLaneBatches pg s.backlog order ⟨.ofInt DEFAULT_MAX_DISTILL_SESSIONS,
      .ofInt options.maxTurns, .ofInt options.maxBatches⟩ = some batches ∧
    s' = ⟨s.backlog, enqueueDistillBatches s.jobs DEFAULT_MAX_DISTILL_SESSIONS options.maxTurns
      batches⟩ := by
  dsimp only [Pipeline.step] at h
  split at h
  · obtain ⟨batches, hbatches, rfl⟩ := Option.map_eq_some_iff.mp h
    exact ⟨batches, hbatches, rfl⟩
  · cases h

theorem fresh_tick (hs : Fresh pg options s) (h : s.step pg options (.tick order) = some s') :
    Fresh pg options s' := by
  obtain ⟨batches, hbatches, rfl⟩ := tick_some h
  refine enqueueDistillBatches_fresh (fun batch hbatch => ?_) hs
  obtain ⟨sessions, turns, total, hsessions, hturns, hrow, hdue⟩ := select_spec hbatches hbatch
  refine ⟨hdue, total, ?_⟩
  rw [ofInt_inj hsessions, ofInt_inj hturns]
  exact hrow

theorem maxTurns_pos (options : MaintenanceSweepOptions) : 1 ≤ options.maxTurns := by
  unfold MaintenanceSweepOptions.maxTurns boundedInteger MAX_DISTILL_BATCH_SIZE
  omega

theorem maxBatches_pos (options : MaintenanceSweepOptions) : 1 ≤ options.maxBatches := by
  unfold MaintenanceSweepOptions.maxBatches boundedInteger MAX_DISTILL_BATCHES
  omega

theorem tick_enabled (pg : Database) (options : MaintenanceSweepOptions)
    (ho : LaneOrder s.backlog order) :
    ∃ s', s.step pg options (.tick order) = some s' := by
  dsimp only [Pipeline.step]
  rw [if_pos ho]
  unfold selectDistillLaneBatches
  simp only [toInt_ofInt, Option.bind_eq_bind, Option.bind_some]
  have hbound := maxBatches_pos options
  rw [if_neg (by omega)]
  exact ⟨_, rfl⟩

/-- A tick over a table with due turns leaves a job, unless a namespace is refused. -/
theorem tick_live (hns : ∀ row ∈ s.backlog.due, namespacePattern row.ns = true)
    (hdue : s.backlog.due ≠ []) (ho : LaneOrder s.backlog order)
    (h : s.step pg options (.tick order) = some s') : ∃ job ∈ s'.jobs, job.live = true := by
  obtain ⟨batches, hbatches, rfl⟩ := tick_some h
  obtain ⟨row, hrow⟩ := exists_mem_of_ne_nil _ hdue
  obtain ⟨hmem, hcond⟩ := mem_filter.mp hrow
  have hlane : laneDue s.backlog row.lane ≠ [] := by
    rw [laneDue_eq]
    exact ne_nil_of_mem (mem_filter.mpr ⟨hrow, decide_eq_true rfl⟩)
  -- the sweep returns a batch
  have hne : batches ≠ [] := by
    have hin : row.lane ∈ dueLanes pg s.backlog order DEFAULT_MAX_DISTILL_SESSIONS
        options.maxTurns := by
      unfold dueLanes
      dsimp only
      rw [(perm_insertionSort _ _).mem_iff]
      refine mem_filter.mpr ⟨ho.2 row hmem, decide_eq_true ?_⟩
      exact processable_pos (by decide) (maxTurns_pos options) hlane
    have hbound := maxBatches_pos options
    unfold selectDistillLaneBatches at hbatches
    simp only [toInt_ofInt, Option.bind_eq_bind, Option.bind_some] at hbatches
    rw [if_neg (by omega)] at hbatches
    rw [← Option.some.inj hbatches, ne_eq, map_eq_nil_iff, take_eq_nil_iff, not_or]
    exact ⟨by omega, ne_nil_of_mem hin⟩
  obtain ⟨batch, rest, rfl⟩ := exists_cons_of_ne_nil hne
  -- its namespace is the one of a due turn
  obtain ⟨-, -, -, -, -, -, hbatchDue⟩ := select_spec hbatches mem_cons_self
  obtain ⟨turn, hturn⟩ := exists_mem_of_ne_nil _ hbatchDue
  rw [laneDue_eq] at hturn
  obtain ⟨hturn, hturnlane⟩ := mem_filter.mp hturn
  have hturnns : turn.ns = batch.ns := congrArg Lane.ns (of_decide_eq_true hturnlane)
  exact enqueueDistillBatches_live (hturnns ▸ hns turn hturn)

theorem job_some (h : s.step pg options (.job place groups now) = some s') : ∃ job batch,
    s.jobs[place]? = some job ∧ job.live = true ∧ Grouping s.backlog groups ∧
    claimDistillBatch pg.collation s.backlog.turns job.claimParams groups = some batch ∧
    s' = ⟨s.backlog.stamp batch.consumedTurnIds now, s.jobs.set place job.complete⟩ := by
  obtain ⟨job, hjob, h⟩ := Option.bind_eq_some_iff.mp h
  split at h
  · rename_i hcond
    obtain ⟨batch, hbatch, h⟩ := Option.bind_eq_some_iff.mp h
    exact ⟨job, batch, hjob, hcond.1, hcond.2, hbatch, (Option.some.inj h).symm⟩
  · cases h

theorem Fresh.claims (hs : Fresh pg options s) {job : DistillJob} (hjob : job ∈ s.jobs)
    (hlive : job.live = true) (hg : Grouping s.backlog groups) : ∃ lane batch,
    job = batchJob pg options s.backlog lane ∧
    claimDistillBatch pg.collation s.backlog.turns job.claimParams groups = some batch ∧
    batch.consumedTurnIds ≠ [] ∧
    ∀ id ∈ batch.consumedTurnIds, ∃ turn ∈ laneDue s.backlog lane, turn.id = id := by
  obtain ⟨lane, hdue, rfl⟩ := hs.current job hjob hlive
  obtain ⟨batch, hbatch, htakes⟩ := laneClaim_takes pg.collation hdue hg
    DEFAULT_MAX_DISTILL_SESSIONS options.maxTurns DEFAULT_CONTEXT_WINDOW
  exact ⟨lane, batch, rfl, hbatch, htakes⟩

/-- A job that waits can run, once the sessions are handed over. -/
theorem job_enabled (now : Int) (hs : Fresh pg options s) {job : DistillJob}
    (hjob : s.jobs[place]? = some job) (hlive : job.live = true) (hg : Grouping s.backlog groups) :
    ∃ s', s.step pg options (.job place groups now) = some s' := by
  obtain ⟨-, batch, -, hbatch, -⟩ := hs.claims (mem_of_getElem? hjob) hlive hg
  dsimp only [Pipeline.step]
  rw [hjob, Option.bind_eq_bind, Option.bind_some, if_pos ⟨hlive, hg⟩, hbatch]
  exact ⟨_, rfl⟩

/-- It stamps a turn. -/
theorem job_due (hs : Fresh pg options s)
    (h : s.step pg options (.job place groups now) = some s') :
    s'.backlog.due.length < s.backlog.due.length := by
  obtain ⟨job, batch, hjob, hlive, hg, hbatch, rfl⟩ := job_some h
  obtain ⟨lane, batch', -, hbatch', hne, hdue⟩ := hs.claims (mem_of_getElem? hjob) hlive hg
  obtain rfl : batch' = batch := Option.some.inj (hbatch'.symm.trans hbatch)
  obtain ⟨id, hid⟩ := exists_mem_of_ne_nil _ hne
  obtain ⟨turn, hturn, rfl⟩ := hdue id hid
  rw [laneDue_eq] at hturn
  rw [due_stamp, length_filter_lt_length_iff_exists]
  refine ⟨turn, mem_of_mem_filter hturn, ?_⟩
  rw [contains_iff_mem.mpr hid]
  exact Bool.false_ne_true

theorem liveKeys_remove {before after : List DistillJob} {job : DistillJob}
    (hlive : job.live = true) (h : (liveKeys (before ++ job :: after)).Nodup) :
    job.idempotencyKey ∉ liveKeys (before ++ after) ∧ (liveKeys (before ++ after)).Nodup := by
  unfold liveKeys at h ⊢
  rw [filter_append, filter_cons, if_pos hlive, map_append, map_cons,
    nodup_middle, nodup_cons] at h
  rw [filter_append, map_append]
  exact h

theorem liveKeys_complete {before after : List DistillJob} {job : DistillJob} :
    liveKeys (before ++ job.complete :: after) = liveKeys (before ++ after) := by
  have hdone : job.complete.live = false := rfl
  unfold liveKeys
  rw [filter_append, filter_cons, hdone, filter_append]
  rfl

theorem fresh_job (hs : Fresh pg options s)
    (h : s.step pg options (.job place groups now) = some s') : Fresh pg options s' := by
  obtain ⟨job, batch, hjob, hlive, hg, hbatch, rfl⟩ := job_some h
  obtain ⟨lane, batch', hcurrent, hbatch', -, hdue⟩ :=
    hs.claims (mem_of_getElem? hjob) hlive hg
  obtain rfl : batch' = batch := Option.some.inj (hbatch'.symm.trans hbatch)
  obtain ⟨hlt, hget⟩ := List.getElem?_eq_some_iff.mp hjob
  obtain ⟨before, after, hsplit, -, hset⟩ : ∃ before after,
      s.jobs = before ++ s.jobs[place] :: after ∧ before.length = place ∧
      s.jobs.set place job.complete = before ++ job.complete :: after := exists_of_set hlt
  rw [hget] at hsplit
  obtain ⟨hgone, hnodup⟩ := liveKeys_remove hlive (hsplit ▸ hs.once)
  rw [hset]
  have hkept : ∀ other ∈ before ++ job.complete :: after, other.live = true →
      other ∈ before ++ after := by
    intro other hother hotherLive
    obtain hother | hother := mem_append.mp hother
    · exact mem_append_left _ hother
    · obtain rfl | hother := mem_cons.mp hother
      · cases hotherLive
      · exact mem_append_right _ hother
  have hmem : ∀ other ∈ before ++ after, other ∈ s.jobs := by
    intro other hother
    rw [hsplit]
    exact ((List.Sublist.refl before).append (sublist_cons_self job after)).subset hother
  refine ⟨fun other hother hotherLive => ?_, fun other hother hotherLive => ?_, ?_⟩
  · have hother := hkept other hother hotherLive
    obtain ⟨lane', hdue', hcurrent'⟩ := hs.current other (hmem other hother) hotherLive
    -- another job waits under another key, for another lane
    have hne : lane' ≠ lane := by
      rintro rfl
      apply hgone
      refine mem_map.mpr ⟨other, mem_filter.mpr ⟨hother, hotherLive⟩, ?_⟩
      rw [hcurrent', hcurrent]
    have hrows : laneRows (s.backlog.stamp batch'.consumedTurnIds now) lane' =
        laneRows s.backlog lane' := laneRows_stamp hdue hne
    refine ⟨lane', ?_, hcurrent'.trans (batchJob_congr hrows.symm)⟩
    unfold laneDue at hdue' ⊢
    rw [hrows]
    exact hdue'
  · exact hs.accepted other (hmem other (hkept other hother hotherLive)) hotherLive
  · rw [liveKeys_complete]
    exact hnodup

theorem job_stamps (h : s.step pg options (.job place groups now) = some s') : ∃ job,
    s.jobs[place]? = some job ∧ ∀ turn ∈ s.backlog.rows, turn ∉ s'.backlog.rows →
      turn ∈ laneDue s.backlog ⟨job.payload.lane_id, job.ns⟩ := by
  obtain ⟨job, batch, hjob, -, -, hbatch, rfl⟩ := job_some h
  refine ⟨job, hjob, fun turn hturn hgone => ?_⟩
  have hid : batch.consumedTurnIds.contains turn.id = true := by
    by_contra hid
    refine hgone (mem_map.mpr ⟨turn, hturn, ?_⟩)
    exact stamp_of_not_mem (Bool.not_eq_true _ ▸ hid)
  obtain ⟨row, hrow, hrowid, hdue, hsel⟩ :=
    consumed_selected hbatch (contains_iff_mem.mp hid)
  obtain rfl : row = turn := inj_on_of_nodup_map s.backlog.ids hrow hturn hrowid
  have hsel : selected (laneClaim ⟨job.payload.lane_id, job.ns⟩ _ _ _) row.toRawTurn = true := hsel
  obtain ⟨hlive, hlane⟩ := (selected_laneClaim _).mp hsel
  exact mem_laneDue.mpr ⟨hturn, hlane, hdue, hlive⟩

end Steps

/-! ## Runs -/

def Action.isJob : Action → Bool
  | .tick _ => false
  | .job _ _ _ => true

/-- No turn that is left lies in a namespace the queue refuses. -/
def Accepted (db : Backlog) : Prop := ∀ row ∈ db.due, namespacePattern row.ns = true

instance (db : Backlog) : Decidable (Accepted db) := inferInstanceAs (Decidable (∀ _ ∈ _, _))

theorem laneOrder_dedup (db : Backlog) :
    LaneOrder db (db.rows.map fun row => row.lane).dedup :=
  ⟨nodup_dedup _, fun _ hrow =>
    mem_dedup.mpr (mem_map_of_mem (f := fun row : SweepTurn => row.lane) hrow)⟩

theorem grouping_dedup (db : Backlog) :
    Grouping db (db.rows.map fun row => row.session_ref).dedup :=
  ⟨nodup_dedup _, fun _ hrow =>
    mem_dedup.mpr (mem_map_of_mem (f := fun row : SweepTurn => row.session_ref) hrow)⟩

namespace Pipeline

/-- The backlog drains: a run has no more jobs than there are due turns at its start; while turns
are due, a tick leaves a job; a job that waits stamps a turn; and so every run can be continued
until no turn is due. -/
structure Drains (pg : Database) (options : MaintenanceSweepOptions) (s₀ : Pipeline) : Prop where
  bounded : ∀ {ls s}, (system pg options).RunOn LTS.anyStep s₀ ls s →
    ls.countP Action.isJob + s.backlog.due.length ≤ s₀.backlog.due.length
  enqueued : ∀ {ls s order}, (system pg options).RunOn LTS.anyStep s₀ ls s → s.backlog.due ≠ [] →
    LaneOrder s.backlog order →
    ∃ s', s.step pg options (.tick order) = some s' ∧ ∃ job ∈ s'.jobs, job.live = true
  stamped : ∀ {ls s place job groups} (now : Int), (system pg options).RunOn LTS.anyStep s₀ ls s →
    s.jobs[place]? = some job → job.live = true → Grouping s.backlog groups →
    ∃ s', s.step pg options (.job place groups now) = some s' ∧
      s'.backlog.due.length < s.backlog.due.length
  reaches : ∀ {ls s}, (system pg options).RunOn LTS.anyStep s₀ ls s →
    ∃ ls' s', (system pg options).RunOn LTS.anyStep s ls' s' ∧ s'.backlog.due = []

section Runs
variable {pg : Database} {options : MaintenanceSweepOptions} {s₀ s s' : Pipeline}
  {l : Action} {ls : List Action}

theorem fresh_step (hs : Fresh pg options s) (h : s.step pg options l = some s') :
    Fresh pg options s' := by
  cases l with
  | tick order => exact fresh_tick hs h
  | job place groups now => exact fresh_job hs h

theorem due_step (hs : Fresh pg options s) (h : s.step pg options l = some s') :
    [l].countP Action.isJob + s'.backlog.due.length ≤ s.backlog.due.length := by
  cases l with
  | tick order =>
    obtain ⟨batches, -, rfl⟩ := tick_some h
    exact (Nat.zero_add _).le
  | job place groups now =>
    have hlt := job_due hs h
    show 1 + s'.backlog.due.length ≤ s.backlog.due.length
    omega

theorem due_subset (h : s.step pg options l = some s') : s'.backlog.due ⊆ s.backlog.due := by
  cases l with
  | tick order =>
    obtain ⟨batches, -, rfl⟩ := tick_some h
    exact List.Subset.refl _
  | job place groups now =>
    obtain ⟨job, batch, -, -, -, -, rfl⟩ := job_some h
    rw [due_stamp]
    exact filter_subset_self _

theorem refused_step (hs : Fresh pg options s) (h : s.step pg options l = some s')
    {turn : SweepTurn} (hturn : turn ∈ s.backlog.due) (hns : namespacePattern turn.ns = false) :
    turn ∈ s'.backlog.due := by
  cases l with
  | tick order =>
    obtain ⟨batches, -, rfl⟩ := tick_some h
    exact hturn
  | job place groups now =>
    obtain ⟨hmem, hcond⟩ := mem_filter.mp hturn
    obtain ⟨job', hjob', hstamps⟩ := job_stamps h
    obtain ⟨job, batch, hjob, hlive, -, -, rfl⟩ := job_some h
    obtain rfl : job' = job := Option.some.inj (hjob'.symm.trans hjob)
    refine mem_filter.mpr ⟨?_, hcond⟩
    by_contra hgone
    obtain ⟨-, hlane, -, -⟩ := mem_laneDue.mp (hstamps turn hmem hgone)
    have hjobns : turn.ns = job'.ns := congrArg Lane.ns hlane
    have haccepted := hs.accepted job' (mem_of_getElem? hjob) hlive
    exact Bool.false_ne_true (hns.symm.trans (hjobns ▸ haccepted))

theorem fresh_run (h0 : Init s₀) (hr : (system pg options).RunOn LTS.anyStep s₀ ls s) :
    Fresh pg options s :=
  hr.keeps (I := Fresh pg options) (fun _ _ _ hs _ h => fresh_step hs h) (fresh_init h0)

theorem due_run (hs : Fresh pg options s) (hr : (system pg options).RunOn LTS.anyStep s ls s') :
    ls.countP Action.isJob + s'.backlog.due.length ≤ s.backlog.due.length := by
  induction hr with
  | nil s => exact (Nat.zero_add _).le
  | @cons s t u l ls _ hst _ ih =>
    have hstep := due_step hs hst
    have hrest := ih (fresh_step hs hst)
    rw [← singleton_append, countP_append]
    omega

/-- A tick and the job it leaves, as long as turns are due. -/
theorem reaches_empty (hs : Fresh pg options s) (ha : Accepted s.backlog) :
    ∃ ls' s', (system pg options).RunOn LTS.anyStep s ls' s' ∧ s'.backlog.due = [] := by
  induction hn : s.backlog.due.length using Nat.strong_induction_on generalizing s with
  | h n ih =>
  by_cases hdue : s.backlog.due = []
  · exact ⟨[], s, .nil s, hdue⟩
  · obtain ⟨t, ht⟩ := tick_enabled pg options (laneOrder_dedup s.backlog)
    obtain ⟨job, hjob, hlive⟩ := tick_live ha hdue (laneOrder_dedup s.backlog) ht
    obtain ⟨place, hplace⟩ := mem_iff_getElem?.mp hjob
    have hfresh := fresh_step hs ht
    obtain ⟨u, hu⟩ := job_enabled 0 hfresh hplace hlive (grouping_dedup t.backlog)
    have hless : u.backlog.due.length < s.backlog.due.length :=
      (job_due hfresh hu).trans_le ((Nat.le_add_left _ _).trans (due_step hs ht))
    have haccepted : Accepted u.backlog := fun row hrow =>
      ha row (due_subset ht (due_subset hu hrow))
    obtain ⟨ls', s', hr, hempty⟩ := ih _ (hn ▸ hless) (fresh_step hfresh hu) haccepted rfl
    exact ⟨_, s', .cons trivial ht (.cons trivial hu hr), hempty⟩

theorem drains_of_accepted (h0 : Init s₀) (ha : Accepted s₀.backlog) :
    Drains pg options s₀ := by
  have haccepted : ∀ {ls s}, (system pg options).RunOn LTS.anyStep s₀ ls s →
      Accepted s.backlog := fun hr =>
    hr.keeps (I := fun s => Accepted s.backlog)
      (fun _ _ _ ha' _ h row hrow => ha' row (due_subset h hrow)) ha
  refine ⟨fun hr => due_run (fresh_init h0) hr, fun hr hdue ho => ?_,
    fun now hr hjob hlive hg => ?_, fun hr => reaches_empty (fresh_run h0 hr) (haccepted hr)⟩
  · obtain ⟨s', h⟩ := tick_enabled pg options ho
    exact ⟨s', h, tick_live (haccepted hr) hdue ho h⟩
  · obtain ⟨s', h⟩ := job_enabled now (fresh_run h0 hr) hjob hlive hg
    exact ⟨s', h, job_due (fresh_run h0 hr) h⟩

theorem accepted_of_drains (h0 : Init s₀) (h : Drains pg options s₀) : Accepted s₀.backlog := by
  intro turn hturn
  by_contra hns
  obtain ⟨ls, s, hr, hempty⟩ := h.reaches (.nil s₀)
  have hkept : Fresh pg options s ∧ turn ∈ s.backlog.due :=
    hr.keeps (I := fun s => Fresh pg options s ∧ turn ∈ s.backlog.due) (fun _ _ _ hs _ hst =>
      ⟨fresh_step hs.1 hst, refused_step hs.1 hst hs.2 (Bool.not_eq_true _ ▸ hns)⟩)
      ⟨fresh_init h0, hturn⟩
  exact not_mem_nil (hempty ▸ hkept.2)

end Runs

end Pipeline

/-- What the sweep returns can be claimed, a job stamps due turns of its lane and namespace, and
the backlog drains exactly when no turn of it lies in a namespace the queue refuses. -/
theorem backlog_drains (pg : Database) (options : MaintenanceSweepOptions) :
    (∀ {db order values rows row groups} (context : Int),
      selectDistillLaneBatches pg db order values = some rows → row ∈ rows →
      Grouping db groups → ∃ batch, claimDistillBatch pg.collation db.turns
        (laneClaim row.lane values.maxSessions values.maxTurns (.ofInt context)) groups =
          some batch ∧ batch.consumedTurnIds ≠ [] ∧
        ∀ id ∈ batch.consumedTurnIds, ∃ turn ∈ laneDue db row.lane, turn.id = id) ∧
    (∀ {s s' : Pipeline} {place groups now},
      s.step pg options (.job place groups now) = some s' → ∃ job, s.jobs[place]? = some job ∧
        ∀ turn ∈ s.backlog.rows, turn ∉ s'.backlog.rows →
          turn ∈ laneDue s.backlog ⟨job.payload.lane_id, job.ns⟩) ∧
    ∀ s₀ : Pipeline, s₀.Init → (s₀.Drains pg options ↔ Accepted s₀.backlog) :=
  ⟨fun context h hrow hg => sweep_claims h hrow hg context, job_stamps, fun _ h0 =>
    ⟨fun h => Pipeline.accepted_of_drains h0 h, Pipeline.drains_of_accepted h0⟩⟩

/-! ## A name the tool takes and the queue does not -/

/-- A database whose digest of a text is the text. -/
def plain : Database := ⟨byUnits, fun id => [UInt16.ofNat id], fun s => s⟩

def dials : MaintenanceSweepOptions := ⟨none, none⟩

/-- A turn of a namespace, not distilled, and no job. -/
def waiting (ns : String) : Pipeline where
  backlog := {
    rows := [⟨spoken 1 ns 0 100, 100, units "h"⟩]
    ids := by simp
    seqs := by
      intro row hrow seq hseq
      obtain rfl := mem_singleton.mp hrow
      exact (Option.some.inj hseq).le }
  jobs := []

theorem waiting_init (ns : String) : (waiting ns).Init := fun _ h => absurd h not_mem_nil

theorem backlog_drains_alice : (waiting "alice").Drains plain dials ∧
    (waiting "alice").backlog.due ≠ [] :=
  ⟨((backlog_drains plain dials).2.2 (waiting "alice") (waiting_init _)).mpr (by decide),
    by decide⟩

theorem refused_stops : ¬ ∀ (pg : Database) (options : MaintenanceSweepOptions) (s₀ : Pipeline),
    s₀.Init → s₀.Drains pg options := by
  intro h
  have hdrains := h plain dials (waiting "team notes") (waiting_init _)
  exact absurd (Pipeline.accepted_of_drains (waiting_init _) hdrains) (by decide)

end OpenBrain.Server.Distill
