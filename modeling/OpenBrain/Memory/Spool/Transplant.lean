import OpenBrain.Memory.Spool.Parked

/-!
# A parked namespace is never transplanted

`Parked` is the invariant of the runtimes over one spool: the records of a unit were written
under one namespace and carry its stamp (`Owned`), only the first of them may be a
`session_start`, and no two units share their key.

A runtime of another namespace retains such a unit at its first record (`serveUnit_foreign`),
so nothing of it goes to the router; one of the same namespace can only retain it there too
(`serveUnit_retained`). The pass leaves what it retains alone (`drain_keeps`), and a run
without a drain under the unit's own namespace leaves the unit as it is (`parked_stays`).
-/
namespace OpenBrain.Memory.Spool
open OpenBrain.Core OpenBrain.Core.Py List

/-! ## The units of a spool -/

def unitsIn (H : Host) (lines : List Str) : List SpoolUnit :=
  (groupIndexedLines lines).filterMap (parseGroup H)

section Units
variable {H : Host} {lines : List Str} {us : List SpoolUnit} {u v : SpoolUnit}

theorem unitsIn_eq (h : parseUnits H lines = some us) : unitsIn H lines = us := by
  have hf := parseUnits_forall₂ h
  unfold unitsIn
  clear h
  generalize groupIndexedLines lines = gs at hf ⊢
  induction hf with
  | nil => rfl
  | cons hgu _ ih => rw [filterMap_cons, hgu, ih]

theorem keysOf_unitsIn : keysOf H lines = (unitsIn H lines).filterMap SpoolUnit.key := by
  unfold keysOf unitsIn
  rw [filterMap_filterMap]

theorem parsed_of_unitsIn (hu : u ∈ unitsIn H lines) : Parsed H u := by
  obtain ⟨g, hg, hp⟩ := mem_filterMap.mp hu
  have hlines := parseGroup_lines hp
  refine ⟨?_, by rw [hlines]; exact hp⟩
  rw [hlines]
  exact together_of_chain (ne_nil_of_mem_splitBy hg) (isChain_of_mem_splitBy hg)

theorem unitsIn_append {spool : List Str} (h : Tidy (groupIndexedLines spool ++ [lines])) :
    unitsIn H (spool ++ lines) = unitsIn H spool ++ (parseGroup H lines).toList := by
  unfold unitsIn
  rw [groups_append h, filterMap_append]
  congr 1

theorem eq_of_key {k : Str} (h : (us.filterMap SpoolUnit.key).Nodup) (hu : u ∈ us) (hv : v ∈ us)
    (huk : u.key = some k) (hvk : v.key = some k) : u = v := by
  induction us with
  | nil => cases hu
  | cons w us ih =>
    have hmem : ∀ x ∈ us, x.key = some k → k ∈ us.filterMap SpoolUnit.key :=
      fun x hx hxk => mem_filterMap.mpr ⟨x, hx, hxk⟩
    rw [filterMap_cons] at h
    rcases mem_cons.mp hu with rfl | hu'
    · rcases mem_cons.mp hv with rfl | hv'
      · rfl
      · rw [huk] at h
        exact ((nodup_cons.mp h).1 (hmem v hv' hvk)).elim
    · rcases mem_cons.mp hv with rfl | hv'
      · rw [hvk] at h
        exact ((nodup_cons.mp h).1 (hmem u hu' huk)).elim
      · refine ih ?_ hu' hv'
        split at h
        · exact h
        · exact (nodup_cons.mp h).2

end Units

/-! ## Stamps -/

/-- The stamp of a namespace as it stands on disk: the payload is redacted there. -/
def storedNamespace (H : Host) («namespace» : Str) : Str :=
  if H.sensitiveKey PARKED_NAMESPACE_KEY then units "[REDACTED]" else H.redactText «namespace»

section Stamps
variable {H : Host}

theorem get?_redactMembers (depth : Nat) (ms : Items) (k : Str) :
    Members.get? (redactMembers H depth ms) k = (Members.get? ms k).map fun x =>
      if H.sensitiveKey k then .str (units "[REDACTED]") else redactValue H (depth + 1) x := by
  induction ms with
  | nil => rfl
  | cons m ms ih =>
    obtain ⟨l, x⟩ := m
    simp only [redactMembers, Members.get?]
    split
    · rename_i hk
      rw [hk]
      rfl
    · exact ih

theorem get?_buildMembers (mk : Items → Items) (ms : Items) (k : Str) :
    Members.get? (Json.buildMembers mk ms) k = (Members.get? ms k).map (Json.build mk) := by
  induction ms with
  | nil => rfl
  | cons m ms ih =>
    obtain ⟨l, x⟩ := m
    simp only [Json.buildMembers, Members.get?]
    split
    · rfl
    · exact ih

theorem stamp_parked {r : SpoolRecord} {ns : Str} {payload : Payload}
    (h : r.payload = sortItems (Json.buildMembers sortItems
      (redactMembers H 0 (parked (some ns) payload).1))) :
    r.stamp = some (.str (storedNamespace H ns)) := by
  have hkeys : ((Json.buildMembers sortItems
      (redactMembers H 0 (parked (some ns) payload).1)).map Prod.fst).Nodup := by
    rw [Json.buildMembers_keys, redactMembers_keys]
    exact (parked (some ns) payload).2.1
  have hvalue : Members.get? r.payload PARKED_NAMESPACE_KEY =
      some (.str (storedNamespace H ns)) := by
    rw [h, get?_sortItems hkeys, get?_buildMembers, get?_redactMembers]
    show (Option.map _ (Members.get? (Members.set payload.1 PARKED_NAMESPACE_KEY (.str ns))
      PARKED_NAMESPACE_KEY)).map _ = _
    rw [Members.get?_set_self]
    unfold storedNamespace
    split
    · rfl
    · simp [Json.build, redactValue, MAX_REDACT_DEPTH]
  unfold SpoolRecord.stamp getOrNone
  rw [hvalue]

end Stamps

/-! ## What a unit was written as -/

/-- The records of a unit, written under one namespace. -/
structure Owned (H : Host) (written : List (Str × Str)) («namespace» : Str)
    (records : List SpoolRecord) : Prop where
  stamped : ∀ r ∈ records, r.stamp = some (.str (storedNamespace H «namespace»))
  written : ∀ r ∈ records, (r.idempotency_key, «namespace») ∈ written
  replayable : ∀ r ∈ records, r.operation ∈ REPLAYABLE_SPOOL_OPERATIONS
  start : ∀ r ∈ records.tail, r.operation ≠ units "session_start"

/-- A prerequisite as a runtime holds it back. -/
def Held (t : Runtime) (start : BatchRecord) : Prop :=
  start.operation = units "session_start" ∧
    ∃ payload, start.payload = parked (some t.«namespace») payload

theorem Operation.replayable (operation : Operation) :
    operation.name ∈ REPLAYABLE_SPOOL_OPERATIONS := by
  cases operation <;> decide

theorem Operation.name_ne {operation : Operation} (h : operation ≠ .session_start) :
    operation.name ≠ units "session_start" := by
  cases operation <;> first | exact (h rfl).elim | decide

section Written
variable {H : Host} {b : Batch} {t : Runtime}

/-- The operation and the payload of the line at a place. -/
theorem Batch.parse_body {i : Nat} (hi : i < (b.lines H).length) {r : SpoolRecord}
    (h : parseRecord H (b.lines H)[i] = .record r) : ∃ q, b.records[i]? = some q ∧
      r.operation = q.operation ∧
      r.payload = sortItems (Json.buildMembers sortItems (redactMembers H 0 q.payload.1)) := by
  have hi' : i < b.records.length := by
    rw [← Batch.length_lines (H := H)]
    exact hi
  have hline : (b.lines H)[i] = recordLine H b.records[i].operation b.records[i].payload
      (b.key i b.records[i]) b.created_at (b.place i) := by simp [Batch.lines]
  rw [hline] at h
  exact ⟨b.records[i], getElem?_eq_getElem hi', parseRecord_body h⟩

theorem Runtime.batch_records {operation : Operation} {payload : Payload} {key : Option Str}
    {created_at : Double} {hex : Nat → Str} (hop : operation ≠ .session_start)
    (hheld : ∀ start, t.pending_start = some start → Held t start) {i : Nat} {q : BatchRecord}
    (h : (t.batch operation payload key created_at hex).records[i]? = some q) :
    q.operation ∈ REPLAYABLE_SPOOL_OPERATIONS ∧
      (∃ payload, q.payload = parked (some t.«namespace») payload) ∧
      (i ≠ 0 → q.operation ≠ units "session_start") := by
  have hwrite : ∀ q, q = t.record operation payload key →
      q.operation ∈ REPLAYABLE_SPOOL_OPERATIONS ∧
        (∃ payload, q.payload = parked (some t.«namespace») payload) ∧
        (i ≠ 0 → q.operation ≠ units "session_start") := by
    intro q hq
    rw [hq]
    exact ⟨operation.replayable, ⟨payload, rfl⟩, fun _ => operation.name_ne hop⟩
  unfold Runtime.batch at h
  cases hp : t.pending_start with
  | none =>
    rw [hp] at h
    exact hwrite q (mem_singleton.mp (mem_of_getElem? h))
  | some start =>
    rw [hp] at h
    obtain ⟨hstart, hpayload⟩ := hheld start hp
    cases i with
    | zero =>
      cases h
      refine ⟨?_, hpayload, fun h0 => (h0 rfl).elim⟩
      rw [hstart]
      decide
    | succ i =>
      exact hwrite q (mem_singleton.mp (mem_of_getElem? (l := [t.record _ _ _]) h))

theorem owned_batch {u : SpoolUnit} {rs : List SpoolRecord} {written : List (Str × Str)}
    (hu : parseGroup H (b.lines H) = some u) (hne : b.records ≠ []) (hr : u.records = some rs)
    (hrecords : ∀ i q, b.records[i]? = some q → q.operation ∈ REPLAYABLE_SPOOL_OPERATIONS ∧
      (∃ payload, q.payload = parked (some t.«namespace») payload) ∧
      (i ≠ 0 → q.operation ≠ units "session_start"))
    (hkeys : ∀ k ∈ b.safe_keys, (k, t.«namespace») ∈ written) :
    Owned H written t.«namespace» rs := by
  have hlines := parseGroup_lines hu
  have hp : Parsed H u := by
    refine ⟨?_, ?_⟩
    · rw [hlines]
      exact Batch.together hne
    · rw [hlines]
      exact hu
  obtain ⟨hall, -⟩ := hp.records hr
  rw [hlines] at hall
  have hlen := hall.length_eq
  -- the record at a place is the one the batch has there
  have hat : ∀ i (hi : i < rs.length), ∃ q, b.records[i]? = some q ∧ rs[i].operation = q.operation ∧
      rs[i].payload = sortItems (Json.buildMembers sortItems (redactMembers H 0 q.payload.1)) ∧
      rs[i].idempotency_key ∈ b.safe_keys := by
    intro i hi
    have hi' : i < (b.lines H).length := by rw [hlen]; exact hi
    have hparse : parseRecord H (b.lines H)[i] = .record rs[i] := hall.get hi' hi
    obtain ⟨q, hq, hop, hpayload⟩ := Batch.parse_body hi' hparse
    exact ⟨q, hq, hop, hpayload, mem_of_getElem? (Batch.parse_line hi' hparse).1⟩
  refine ⟨?_, ?_, ?_, ?_⟩
  · intro r hr
    obtain ⟨i, hi, rfl⟩ := getElem_of_mem hr
    obtain ⟨q, hq, -, hpayload, -⟩ := hat i hi
    obtain ⟨payload, hparked⟩ := (hrecords i q hq).2.1
    rw [hparked] at hpayload
    exact stamp_parked hpayload
  · intro r hr
    obtain ⟨i, hi, rfl⟩ := getElem_of_mem hr
    obtain ⟨q, -, -, -, hkey⟩ := hat i hi
    exact hkeys _ hkey
  · intro r hr
    obtain ⟨i, hi, rfl⟩ := getElem_of_mem hr
    obtain ⟨q, hq, hop, -⟩ := hat i hi
    rw [hop]
    exact (hrecords i q hq).1
  · intro r hr
    obtain ⟨i, hi, rfl⟩ := getElem_of_mem hr
    rw [length_tail] at hi
    rw [getElem_tail]
    obtain ⟨q, hq, hop, -⟩ := hat (i + 1) (by omega)
    rw [hop]
    exact (hrecords (i + 1) q hq).2.2 (Nat.succ_ne_zero i)

end Written

/-! ## Serving a unit -/

section Serving
variable {H : Host} {secretLike : Str → Bool} {ns A v : Str} {r : SpoolRecord}
  {rs : List SpoolRecord} {answers answers' : List Routed} {served : Served} {h : Handed}
  {written : List (Str × Str)}

theorem foreign_stamped (hstamp : r.stamp = some (.str v)) : r.foreign ns = decide (v ≠ ns) := by
  unfold SpoolRecord.foreign
  rw [hstamp]

theorem dispatch_raised (secretLike : Str → Bool) (ns : Str) (r : SpoolRecord) :
    dispatch secretLike ns r = .error (.failed (units "ValueError")) ∨
    (dispatch secretLike ns r = .error .retained ∧
      (r.foreign ns = true ∨ r.operation = units "session_start")) ∨
    (dispatch secretLike ns r = .ok ⟨ns, r, r.arguments⟩ ∧ r.foreign ns = false) := by
  unfold dispatch
  split
  · exact .inl rfl
  split
  · rename_i hforeign
    exact .inr (.inl ⟨rfl, .inl hforeign⟩)
  rename_i hown
  split
  · rename_i hstart
    exact .inr (.inl ⟨rfl, .inr hstart.1⟩)
  · exact .inr (.inr ⟨rfl, Bool.eq_false_iff.mpr hown⟩)

theorem dispatch_ok (hd : dispatch secretLike ns r = .ok h) : h.«namespace» = ns ∧ h.record = r ∧
    r.foreign ns = false := by
  rcases dispatch_raised secretLike ns r with
    he | ⟨he, -⟩ | ⟨he, hown⟩
  · rw [hd] at he
    cases he
  · rw [hd] at he
    cases he
  · rw [hd] at he
    cases he
    exact ⟨rfl, rfl, hown⟩

theorem dispatch_foreign (hop : r.operation ∈ REPLAYABLE_SPOOL_OPERATIONS)
    (hstamp : r.stamp = some (.str v)) (hne : v ≠ ns) :
    dispatch secretLike ns r = .error .retained := by
  unfold dispatch
  rw [if_neg (not_not.mpr hop), foreign_stamped hstamp, decide_eq_true hne, if_pos rfl]

/-- A record with the runtime's own stamp goes to the router, or is a prerequisite that does
not prove its scope. -/
theorem dispatch_own (hop : r.operation ∈ REPLAYABLE_SPOOL_OPERATIONS)
    (hstamp : r.stamp = some (.str ns)) : (∃ h, dispatch secretLike ns r = .ok h) ∨
      (dispatch secretLike ns r = .error .retained ∧ r.operation = units "session_start") := by
  unfold dispatch
  rw [if_neg (not_not.mpr hop), foreign_stamped hstamp, decide_eq_false (not_not.mpr rfl),
    if_neg Bool.false_ne_true]
  split
  · rename_i hstart
    exact .inr ⟨rfl, hstart.1⟩
  · exact .inl ⟨_, rfl⟩

theorem serveUnit_foreign (hrs : rs ≠ []) (howned : Owned H written A rs)
    (hne : storedNamespace H A ≠ ns) :
    serveUnit secretLike ns rs answers = some (⟨[.retained], []⟩, answers) := by
  cases rs with
  | nil => exact (hrs rfl).elim
  | cons r rs =>
    have hd : dispatch secretLike ns r = .error .retained :=
      dispatch_foreign (howned.replayable r mem_cons_self)
        (howned.stamped r mem_cons_self) hne
    unfold serveUnit
    rw [hd]

/-- The calls of a unit are made for its records. -/
theorem mem_handed (hs : serveUnit secretLike ns rs answers = some (served, answers'))
    (hh : h ∈ served.handed) : ∃ r ∈ rs, dispatch secretLike ns r = .ok h := by
  induction rs generalizing answers served with
  | nil =>
    cases hs
    cases hh
  | cons r rs ih =>
    unfold serveUnit at hs
    split at hs
    · cases hs
      cases hh
    · cases hs
    · rename_i hd
      cases hs
      rw [mem_singleton.mp hh]
      exact ⟨r, mem_cons_self, hd⟩
    · rename_i hd
      obtain ⟨⟨served', answers''⟩, hserved, heq⟩ := Option.map_eq_some_iff.mp hs
      cases heq
      rcases mem_cons.mp hh with rfl | hh
      · exact ⟨r, mem_cons_self, hd⟩
      · obtain ⟨q, hq, hd⟩ := ih hserved hh
        exact ⟨q, mem_cons_of_mem _ hq, hd⟩

/-- Records that all go to the router are not retained. -/
theorem not_retained (hall : ∀ r ∈ rs, ∃ h, dispatch secretLike ns r = .ok h)
    (hs : serveUnit secretLike ns rs answers = some (served, answers')) :
    Dispatch.retained ∉ served.outcomes := by
  induction rs generalizing answers served with
  | nil =>
    cases hs
    exact not_mem_nil
  | cons r rs ih =>
    obtain ⟨h, hd⟩ := hall r mem_cons_self
    unfold serveUnit at hs
    rw [hd] at hs
    split at hs
    · rename_i heq
      cases heq
    · cases hs
    · cases hs
      simp
    · obtain ⟨⟨served', answers''⟩, hserved, heq⟩ := Option.map_eq_some_iff.mp hs
      cases heq
      have := ih (fun q hq => hall q (mem_cons_of_mem _ hq)) hserved
      simpa using this

theorem serveUnit_retained (howned : Owned H written A rs)
    (hs : serveUnit secretLike ns rs answers = some (served, answers'))
    (hret : Dispatch.retained ∈ served.outcomes) : served.handed = [] := by
  cases rs with
  | nil =>
    cases hs
    rfl
  | cons r rs =>
    by_cases hne : storedNamespace H A = ns
    · have hown : ∀ q ∈ r :: rs, (∃ h, dispatch secretLike ns q = .ok h) ∨
          (dispatch secretLike ns q = .error .retained ∧
            q.operation = units "session_start") := by
        intro q hq
        exact dispatch_own (howned.replayable q hq) (by rw [howned.stamped q hq, hne])
      rcases hown r mem_cons_self with hok | ⟨hd, -⟩
      · have hall : ∀ q ∈ r :: rs, ∃ h, dispatch secretLike ns q = .ok h := by
          intro q hq
          rcases mem_cons.mp hq with rfl | hq'
          · exact hok
          · -- only the first record can be a prerequisite
            exact (hown q hq).resolve_right fun h => howned.start q hq' h.2
        exact (not_retained hall hs hret).elim
      · unfold serveUnit at hs
        rw [hd] at hs
        cases hs
        rfl
    · rw [serveUnit_foreign (cons_ne_nil r rs) howned hne] at hs
      cases hs
      rfl

theorem serveUnit_attempt (hs : serveUnit secretLike ns rs answers = some (served, answers')) :
    ∃ a, ∀ os, attempt rs.length (served.outcomes ++ os) = some (a, os) := by
  induction rs generalizing answers served with
  | nil =>
    cases hs
    exact ⟨.replayed, fun _ => rfl⟩
  | cons r rs ih =>
    unfold serveUnit at hs
    rcases dispatch_raised secretLike ns r with hd | ⟨hd, -⟩ | ⟨hd, -⟩
    · rw [hd] at hs
      cases hs
      exact ⟨.failed, fun _ => rfl⟩
    · rw [hd] at hs
      cases hs
      exact ⟨.retained, fun _ => rfl⟩
    rw [hd] at hs
    split at hs
    · rename_i heq
      cases heq
    · cases hs
    · cases hs
      exact ⟨.failed, fun _ => rfl⟩
    · obtain ⟨⟨served', answers''⟩, hserved, heq⟩ := Option.map_eq_some_iff.mp hs
      cases heq
      exact ih hserved

theorem serve_spec {us : List SpoolUnit} {done : List (SpoolUnit × Served)}
    (hs : serve secretLike ns us answers = some done) : done.map Prod.fst = us ∧
      (∀ d ∈ done, ∃ answers answers',
        serveUnit secretLike ns (d.1.records.getD []) answers = some (d.2, answers')) ∧
      ∃ as, attempts us 0 (done.flatMap (·.2.outcomes)) = some as ∧
        List.Forall₂ (fun d a => ∀ os, attempt (d.1.records.getD []).length
          (d.2.outcomes ++ os) = some (a, os)) done as := by
  induction us generalizing answers done with
  | nil =>
    cases answers with
    | nil =>
      cases hs
      exact ⟨rfl, fun _ hd => (not_mem_nil hd).elim, [], rfl, .nil⟩
    | cons _ _ => cases hs
  | cons u us ih =>
    unfold serve at hs
    obtain ⟨⟨served, rest⟩, hserved, hs⟩ := Option.bind_eq_some_iff.mp hs
    obtain ⟨done', hdone, rfl⟩ := Option.map_eq_some_iff.mp hs
    obtain ⟨hunits, hall, as, has, hrel⟩ := ih hdone
    obtain ⟨a, ha⟩ := serveUnit_attempt hserved
    refine ⟨by rw [map_cons, hunits], ?_, a :: as, ?_, .cons ha hrel⟩
    · intro d hd
      rcases mem_cons.mp hd with rfl | hd
      · exact ⟨_, _, hserved⟩
      · exact hall d hd
    · rw [flatMap_cons]
      unfold attempts
      rw [Nat.sub_zero, ha, Option.bind_some]
      show (attempts us 0 _).map _ = _
      rw [has]
      rfl

theorem served_mem {us : List SpoolUnit} {done : List (SpoolUnit × Served)}
    (hs : serve secretLike ns (dispatched us) answers = some done) {d : SpoolUnit × Served}
    (hd : d ∈ done) : d.1 ∈ us ∧ ∃ rs, d.1.records = some rs := by
  have hmem : d.1 ∈ dispatched us := by
    rw [← (serve_spec hs).1]
    exact mem_map_of_mem hd
  obtain ⟨hu, hsig⟩ := mem_filter.mp hmem
  obtain ⟨σ, hσ⟩ := Option.isSome_iff_exists.mp hsig
  obtain ⟨r, rs, hr, -⟩ := signature_eq hσ
  exact ⟨hu, r :: rs, hr⟩

end Serving

/-! ## The invariant -/

/-- A threshold no clamped count reaches; the runtimes' own thresholds differ. -/
def limitless : Config :=
  ⟨1, 1, MAX_RETRY_STATE_FAILURES + 1, Nat.one_pos, Nat.one_pos, Nat.succ_pos _⟩

theorem clamped_lt (failures : Nat) : clamped failures < limitless.quarantine_threshold :=
  Nat.lt_succ_of_le (Nat.min_le_right _ _)

structure Parked (H : Host) (s : Shared) : Prop where
  exact : Exact limitless H s.drainer
  owned : ∀ u ∈ unitsIn H s.drainer.files.spool, ∀ rs, u.records = some rs →
    ∃ A, Owned H s.written A rs
  keys : (keysOf H s.drainer.files.spool).Nodup
  held : ∀ p start, (s.runtimes p).pending_start = some start → Held (s.runtimes p) start
  handed : ∀ h ∈ s.handed, h.record.stamp = some (.str h.«namespace») ∧
    ∃ A, (h.record.idempotency_key, A) ∈ s.written ∧ storedNamespace H A = h.«namespace»

section Appends
variable {cfg : Config} {H : Host} {s s' : Drainer} {b : Batch}

theorem append_spec {lines keys : List Str}
    (hok : appendBatch cfg H s.files.spool b = .ok (lines, keys))
    (hstep : Drainer.step cfg H s (.append b) = some s') : freshGroup s b = true ∧
      s'.files = { s.files with spool := s.files.spool ++ b.lines H } := by
  dsimp only [Drainer.step] at hstep
  rw [hok] at hstep
  dsimp only at hstep
  split at hstep
  · rename_i hfresh
    cases hstep
    rw [appendBatch_ok hok]
    exact ⟨hfresh, rfl⟩
  · cases hstep

theorem key_fresh {written : List (Str × Str)} {u v : SpoolUnit} {k : Str} {A : Str}
    {rs : List SpoolRecord} (hv : parseGroup H (b.lines H) = some v) (hne : b.records ≠ [])
    (hvk : v.key = some k) (huk : u.key = some k) (hr : u.records = some rs)
    (howned : Owned H written A rs)
    (hfresh : ∀ key ∈ b.safe_keys, key ∉ written.map Prod.fst) : False := by
  obtain ⟨σ, hσ, rfl⟩ := Option.map_eq_some_iff.mp hvk
  obtain ⟨τ, hτ, heq⟩ := Option.map_eq_some_iff.mp huk
  have hsame := unitKey_injective heq
  subst hsame
  have hlines := parseGroup_lines hv
  have hp : Parsed H v := by
    refine ⟨?_, ?_⟩
    · rw [hlines]
      exact Batch.together hne
    · rw [hlines]
      exact hv
  have hsig := (unit_of_batch hp hσ hne (hlines.symm ▸ infix_rfl)).2
  obtain ⟨r, rest, hrec, hτ⟩ := signature_eq hτ
  rw [hr] at hrec
  cases hrec
  rw [hsig] at hτ
  have hkeys : b.safe_keys = (r :: rest).map SpoolRecord.idempotency_key := (Prod.mk.inj hτ).2
  refine hfresh r.idempotency_key ?_ ?_
  · rw [hkeys]
    exact mem_cons_self
  · exact mem_map_of_mem (f := Prod.fst) (howned.written r mem_cons_self)

end Appends

section Drains
variable {H : Host} {secretLike : Str → Bool} {s s' : Shared} {p : Nat} {now : Double}
  {answers : List Routed} {u : SpoolUnit} {rs : List SpoolRecord} {A : Str}

/-- What a drain is made of. -/
structure DrainRun (H : Host) (secretLike : Str → Bool) (s s' : Shared) (p : Nat)
    (answers : List Routed) (us : List SpoolUnit) (done : List (SpoolUnit × Served))
    (as : List Attempt) (pass : Pass) : Prop where
  pass : PassRun (s.runtimes p).spool H s.drainer s'.drainer us as pass
  served : serve secretLike (s.runtimes p).«namespace» (dispatched us) answers = some done
  attempts : List.Forall₂ (fun d a => ∀ os, attempt (d.1.records.getD []).length
    (d.2.outcomes ++ os) = some (a, os)) done as
  runtimes : s'.runtimes = s.runtimes
  written : s'.written = s.written
  handed : s'.handed = s.handed ++ done.flatMap (·.2.handed)

theorem drain_run (h : Parked H s)
    (hstep : Shared.step H secretLike s (.drain p now answers) = some s') :
    ∃ us done as pass, DrainRun H secretLike s s' p answers us done as pass := by
  dsimp only [Shared.step] at hstep
  obtain ⟨us, hus, hstep⟩ := Option.bind_eq_some_iff.mp hstep
  obtain ⟨done, hdone, hstep⟩ := Option.bind_eq_some_iff.mp hstep
  obtain ⟨drainer, hdrainer, hstep⟩ := Option.bind_eq_some_iff.mp hstep
  cases hstep
  obtain ⟨us', as, pass, has, hrun⟩ := pass_run h.exact hdrainer
  have hsame := hrun.parse
  rw [hus] at hsame
  cases hsame
  obtain ⟨-, -, as', has', hrel⟩ := serve_spec hdone
  rw [has] at has'
  cases has'
  exact ⟨us, done, as, pass, hrun, hdone, hrel, rfl, rfl, rfl⟩

variable {us : List SpoolUnit} {done : List (SpoolUnit × Served)} {as : List Attempt}
  {pass : Pass}

theorem DrainRun.units (h : DrainRun H secretLike s s' p answers us done as pass) :
    unitsIn H s.drainer.files.spool = us := unitsIn_eq h.pass.parse

theorem DrainRun.mem (h : DrainRun H secretLike s s' p answers us done as pass)
    {d : SpoolUnit × Served} (hd : d ∈ done) :
    d.1 ∈ unitsIn H s.drainer.files.spool ∧ ∃ rs, d.1.records = some rs := by
  rw [h.units]
  exact served_mem h.served hd

theorem DrainRun.foreign (h : DrainRun H secretLike s s' p answers us done as pass) {a : Attempt}
    (hr : u.records = some rs) (howned : Owned H s.written A rs)
    (hne : storedNamespace H A ≠ (s.runtimes p).«namespace»)
    (ha : (u, a) ∈ (dispatched us).zip as) : a = .retained := by
  obtain ⟨hunits, hserved, -⟩ := serve_spec h.served
  rw [← hunits, zip_map_left, mem_map] at ha
  obtain ⟨⟨d, a'⟩, hd, heq⟩ := ha
  obtain ⟨rfl, rfl⟩ := Prod.mk.inj heq
  have hattempt := List.forall₂_zip h.attempts hd []
  obtain ⟨rest, rest', hserve⟩ := hserved d (of_mem_zip hd).1
  rw [hr, Option.getD_some] at hserve hattempt
  cases rs with
  | nil =>
    obtain ⟨hmem, -⟩ := h.mem (of_mem_zip hd).1
    cases ((parsed_of_unitsIn hmem).records hr).2
  | cons r rs =>
    rw [serveUnit_foreign (cons_ne_nil r rs) howned hne] at hserve
    rw [← (Prod.mk.inj (Option.some.inj hserve)).1] at hattempt
    exact (Prod.mk.inj (Option.some.inj hattempt)).1.symm

/-- What another runtime drains stays as it is, with its count, and nothing goes to the
sidecar under its key. -/
theorem drain_keeps (h : Parked H s)
    (hrun : DrainRun H secretLike s s' p answers us done as pass)
    (hu : u ∈ unitsIn H s.drainer.files.spool) (hr : u.records = some rs)
    (howned : Owned H s.written A rs)
    (hne : storedNamespace H A ≠ (s.runtimes p).«namespace») {k : Str} (hk : u.key = some k) :
    u ∈ unitsIn H s'.drainer.files.spool ∧ s'.drainer.counted k = s.drainer.counted k ∧
      countKey header k s'.drainer.files.quarantine =
        countKey header k s.drainer.files.quarantine := by
  have hkeys := h.keys
  rw [keysOf_unitsIn, hrun.units] at hkeys
  rw [hrun.units] at hu
  -- the unit is the only one with its key
  have honly : ∀ v a, (v, a) ∈ (dispatched us).zip as → v.key = some k → a = .retained := by
    intro v a hv hvk
    have hvu := mem_of_mem_filter (of_mem_zip hv).1
    rw [eq_of_key hkeys hvu hu hvk hk] at hv
    exact hrun.foreign hr howned hne hv
  have hreplayed : ¬ ReplayedIn ((dispatched us).zip as) k :=
    fun ⟨v, hv, hvk⟩ => nomatch honly v _ hv hvk
  have hfailed : ¬ FailedIn ((dispatched us).zip as) k :=
    fun ⟨v, hv, hvk⟩ => nomatch honly v _ hv hvk
  have hstays := (fate_stays hrun.pass.scored hk).mpr ⟨hreplayed, fun hc => hfailed hc.1⟩
  have hverdict : verdict ((dispatched us).zip as) k = .retained := by
    cases hv : verdict ((dispatched us).zip as) k with
    | replayed => exact (hreplayed (verdict_replayed.mp hv)).elim
    | failed => exact (hfailed (verdict_failed.mp hv).2).elim
    | retained => rfl
  refine ⟨?_, ?_, ?_⟩
  · rw [unitsIn_eq (hrun.pass.parse_after h.exact)]
    exact mem_filter.mpr ⟨hu, hstays⟩
  · exact hrun.pass.retained h.exact (hrun.pass.exact_of h.exact fun k _ => clamped_lt _) hverdict
  · have hnow : k ∉ (pass.quarantinedNow us).map Prod.fst := by
      intro hmem
      obtain ⟨e, he, rfl⟩ := mem_map.mp hmem
      obtain ⟨v, hv, hentry⟩ := mem_filterMap.mp he
      have hvu : v = u := by
        refine eq_of_key hkeys hv hu ?_ hk
        unfold Pass.fate at hentry
        grind [Fate.toEntry, SpoolUnit.key]
      rw [hvu] at hentry
      cases hf : pass.fate u with
      | remaining =>
        rw [hf] at hentry
        cases hentry
      | replayed =>
        rw [hf] at hstays
        cases hstays
      | quarantined e' =>
        rw [hf] at hstays
        cases hstays
    have hold : k ∉ pass.replayed_units.map unitKey :=
      fun hmem => hreplayed (replayed_key hmem hrun.pass.scored)
    rw [hrun.pass.files.2, countKey_reconciled, if_neg hold,
      countKey_appended (hrun.pass.plainEntries h.exact), if_neg hnow]

end Drains

/-! ## Every action -/

section Actions
variable {H : Host} {secretLike : Str → Bool} {s s' : Shared} {p : Nat} {A : Str}
  {rs : List SpoolRecord} {written written' : List (Str × Str)}

theorem Owned.mono (h : Owned H written A rs) (hw : ∀ w ∈ written, w ∈ written') :
    Owned H written' A rs :=
  ⟨h.stamped, fun r hr => hw _ (h.written r hr), h.replayable, h.start⟩

/-- A runtime's prerequisite changes, and nothing else. -/
theorem held_update {runtimes : Nat → Runtime} {start : Option BatchRecord}
    (h : ∀ p start, (runtimes p).pending_start = some start → Held (runtimes p) start)
    (hstart : ∀ b, start = some b → Held (runtimes p) b) :
    ∀ q b, (Function.update runtimes p ((runtimes p).hold start) q).pending_start = some b →
      Held (Function.update runtimes p ((runtimes p).hold start) q) b := by
  intro q b hb
  by_cases hq : q = p
  · subst hq
    rw [Function.update_self] at hb ⊢
    exact hstart b hb
  · rw [Function.update_of_ne hq] at hb ⊢
    exact h q b hb

theorem parked_init (h : Shared.Init s) : Parked H s := by
  obtain ⟨hdrainer, hpending, hwritten, hhanded⟩ := h
  refine ⟨exact_init hdrainer, ?_, ?_, ?_, ?_⟩
  · rw [hdrainer.1]
    intro u hu
    cases hu
  · rw [hdrainer.1]
    exact nodup_nil
  · intro p start hstart
    rw [hpending p] at hstart
    cases hstart
  · rw [hhanded]
    intro h hh
    cases hh

/-- A batch of new keys comes to the spool, written under the namespace of its runtime. -/
theorem parked_append (h : Parked H s) {b : Batch} {drainer : Drainer} {lines keys : List Str}
    (hne : b.records ≠ [])
    (hrecords : ∀ i q, b.records[i]? = some q → q.operation ∈ REPLAYABLE_SPOOL_OPERATIONS ∧
      (∃ payload, q.payload = parked (some (s.runtimes p).«namespace») payload) ∧
      (i ≠ 0 → q.operation ≠ units "session_start"))
    (hfresh : ∀ key ∈ b.safe_keys, key ∉ s.written.map Prod.fst)
    (hok : appendBatch (s.runtimes p).spool H s.drainer.files.spool b = .ok (lines, keys))
    (hstep : Drainer.step (s.runtimes p).spool H s.drainer (.append b) = some drainer) :
    Parked H { s with
      drainer := drainer
      runtimes := Function.update s.runtimes p ((s.runtimes p).hold none)
      written := s.written ++ b.safe_keys.map fun key => (key, (s.runtimes p).«namespace») } := by
  obtain ⟨hgroup, hfiles⟩ := append_spec hok hstep
  have hunits : unitsIn H drainer.files.spool =
      unitsIn H s.drainer.files.spool ++ (parseGroup H (b.lines H)).toList := by
    rw [hfiles]
    exact unitsIn_append ((h.exact.tidy_batch hne hgroup).sublist (sublist_append_left _ _))
  refine ⟨exact_appended h.exact hstep, ?_, ?_, held_update h.held (fun _ hb => nomatch hb), ?_⟩
  · intro u hu rs hr
    dsimp only at hu
    rw [hunits] at hu
    rcases mem_append.mp hu with hu | hu
    · obtain ⟨A, howned⟩ := h.owned u hu rs hr
      exact ⟨A, howned.mono fun w hw => mem_append_left _ hw⟩
    · refine ⟨_, owned_batch (Option.mem_toList.mp hu) hne hr hrecords ?_⟩
      intro key hkey
      exact mem_append_right _ (mem_map_of_mem hkey)
  · show (keysOf H drainer.files.spool).Nodup
    have hkeys := h.keys
    rw [keysOf_unitsIn] at hkeys ⊢
    rw [hunits, filterMap_append]
    refine nodup_append.mpr ⟨hkeys, ?_, ?_⟩
    · cases parseGroup H (b.lines H) with
      | none => exact nodup_nil
      | some v =>
        show (List.filterMap SpoolUnit.key [v]).Nodup
        rw [filterMap_cons]
        split
        · exact nodup_nil
        · exact nodup_singleton _
    · intro k hk k' hk' heq
      subst heq
      obtain ⟨u, hu, huk⟩ := mem_filterMap.mp hk
      obtain ⟨v, hv, hvk⟩ := mem_filterMap.mp hk'
      obtain ⟨σ, hσ, -⟩ := Option.map_eq_some_iff.mp huk
      obtain ⟨r, rs, hr, -⟩ := signature_eq hσ
      obtain ⟨A, howned⟩ := h.owned u hu _ hr
      exact key_fresh (Option.mem_toList.mp hv) hne hvk huk hr howned hfresh
  · intro c hc
    obtain ⟨hstamp, A, hwritten, hA⟩ := h.handed c hc
    exact ⟨hstamp, A, mem_append_left _ hwritten, hA⟩

theorem parked_drain (h : Parked H s) {now : Double} {answers : List Routed}
    (hstep : Shared.step H secretLike s (.drain p now answers) = some s') : Parked H s' := by
  obtain ⟨us, done, as, pass, hrun⟩ := drain_run h hstep
  have hunits : unitsIn H s'.drainer.files.spool = pass.remainingUnits us :=
    unitsIn_eq (hrun.pass.parse_after h.exact)
  have hsub : (unitsIn H s'.drainer.files.spool).Sublist (unitsIn H s.drainer.files.spool) := by
    rw [hunits, hrun.units]
    exact filter_sublist
  refine ⟨hrun.pass.exact_of h.exact fun k _ => clamped_lt _, ?_, ?_, ?_, ?_⟩
  · intro u hu rs hr
    rw [hrun.written]
    exact h.owned u (hsub.subset hu) rs hr
  · have hkeys := h.keys
    rw [keysOf_unitsIn] at hkeys ⊢
    exact hkeys.sublist (hsub.filterMap SpoolUnit.key)
  · rw [hrun.runtimes]
    exact h.held
  · intro c hc
    rw [hrun.handed] at hc
    rw [hrun.written]
    rcases mem_append.mp hc with hc | hc
    · exact h.handed c hc
    · obtain ⟨d, hd, hc⟩ := mem_flatMap.mp hc
      obtain ⟨hu, rs, hr⟩ := hrun.mem hd
      obtain ⟨-, hserved, -⟩ := serve_spec hrun.served
      obtain ⟨rest, rest', hserve⟩ := hserved d hd
      obtain ⟨A, howned⟩ := h.owned d.1 hu rs hr
      rw [hr, Option.getD_some] at hserve
      obtain ⟨r, hmem, hdispatch⟩ := mem_handed hserve hc
      obtain ⟨hns, hrecord, hown⟩ := dispatch_ok hdispatch
      have hstamp := howned.stamped r hmem
      rw [foreign_stamped hstamp] at hown
      have hA : storedNamespace H A = (s.runtimes p).«namespace» := by simpa using hown
      rw [hns, hrecord]
      exact ⟨by rw [hstamp, hA], A, howned.written r hmem, hA⟩

theorem parked_step (h : Parked H s) {action : Action}
    (hstep : Shared.step H secretLike s action = some s') : Parked H s' := by
  cases action with
  | reset p =>
    cases hstep
    exact ⟨h.exact, h.owned, h.keys, held_update h.held (fun _ hb => nomatch hb), h.handed⟩
  | append p operation payload key created_at hex =>
    dsimp only [Shared.step] at hstep
    split at hstep
    · rename_i hop
      cases hstep
      refine ⟨h.exact, h.owned, h.keys, held_update h.held ?_, h.handed⟩
      intro b hb
      cases hb
      rw [hop]
      exact ⟨rfl, payload, rfl⟩
    rename_i hop
    split at hstep
    · rename_i hfresh
      split at hstep
      · rename_i x hok
        obtain ⟨drainer, hdrainer, rfl⟩ := Option.map_eq_some_iff.mp hstep
        refine parked_append h (by simp [Runtime.batch])
          (fun i q hq => Runtime.batch_records hop (h.held p) hq) ?_ hok hdrainer
        intro key hkey
        exact of_decide_eq_true (all_eq_true.mp hfresh key hkey)
      · cases hstep
        exact h
    · cases hstep
  | drain p now answers => exact parked_drain h hstep

theorem parked_inductive (H : Host) (secretLike : Str → Bool) :
    (Shared.system H secretLike).Inductive (Parked H) where
  init _ h := parked_init h
  step _ _ _ hI _ h := parked_step hI h

end Actions

/-! ## Runs elsewhere -/

def Elsewhere (stamp : Str) (s : Shared) : Action → Prop
  | .drain p _ _ => (s.runtimes p).«namespace» ≠ stamp
  | _ => True

/-- The unit is in the spool as it was, with its count, nothing went to the sidecar under its
key, and none of its records to the router. -/
structure Kept (H : Host) (s s' : Shared) (u : SpoolUnit) (rs : List SpoolRecord) (k : Str) :
    Prop where
  unit : u ∈ unitsIn H s'.drainer.files.spool
  counted : s'.drainer.counted k = s.drainer.counted k
  sidecar : countKey header k s'.drainer.files.quarantine =
    countKey header k s.drainer.files.quarantine
  handed : ∃ calls, s'.handed = s.handed ++ calls ∧ ∀ c ∈ calls, c.record ∉ rs

section Runs
variable {H : Host} {secretLike : Str → Bool} {s t t' : Shared} {u : SpoolUnit}
  {rs : List SpoolRecord} {r : SpoolRecord} {k v : Str}

theorem kept_append {cfg : Config} {b : Batch} {drainer : Drainer} {lines keys : List Str}
    (h : Parked H t) (hne : b.records ≠ [])
    (hok : appendBatch cfg H t.drainer.files.spool b = .ok (lines, keys))
    (hstep : Drainer.step cfg H t.drainer (.append b) = some drainer)
    (hu : u ∈ unitsIn H t.drainer.files.spool) : u ∈ unitsIn H drainer.files.spool ∧
      (∀ k, drainer.counted k = t.drainer.counted k) ∧
      drainer.files.quarantine = t.drainer.files.quarantine := by
  obtain ⟨hgroup, hfiles⟩ := append_spec hok hstep
  refine ⟨?_, ?_, by rw [hfiles]⟩
  · rw [hfiles]
    dsimp only
    rw [unitsIn_append ((h.exact.tidy_batch hne hgroup).sublist (sublist_append_left _ _))]
    exact mem_append_left _ hu
  · intro k
    unfold Drainer.counted
    rw [hfiles]

theorem kept_drain {p : Nat} {now : Double} {answers : List Routed} (h : Parked H t)
    (hkept : Kept H s t u rs k) (hr : u.records = some rs) (hk : u.key = some k)
    (hmem : r ∈ rs) (hstamp : r.stamp = some (.str v)) (hv : (t.runtimes p).«namespace» ≠ v)
    (hstep : Shared.step H secretLike t (.drain p now answers) = some t') :
    Kept H s t' u rs k := by
  obtain ⟨us, done, as, pass, hrun⟩ := drain_run h hstep
  obtain ⟨A, howned⟩ := h.owned u hkept.unit rs hr
  have hA : storedNamespace H A = v := by
    have := howned.stamped r hmem
    rw [hstamp] at this
    exact (Json.str.inj (Option.some.inj this)).symm
  have hne : storedNamespace H A ≠ (t.runtimes p).«namespace» := by
    rw [hA]
    exact hv.symm
  obtain ⟨hunit, hcounted, hsidecar⟩ := drain_keeps h hrun hkept.unit hr howned hne hk
  obtain ⟨calls, hcalls, hother⟩ := hkept.handed
  refine ⟨hunit, hcounted.trans hkept.counted, hsidecar.trans hkept.sidecar,
    calls ++ done.flatMap (·.2.handed), ?_, ?_⟩
  · rw [hrun.handed, hcalls, append_assoc]
  · intro c hc
    rcases mem_append.mp hc with hc | hc
    · exact hother c hc
    · -- a call of this drain is for a record with the runtime's own stamp
      intro hin
      have hc' : c ∈ t'.handed := by
        rw [hrun.handed]
        exact mem_append_right _ hc
      obtain ⟨d, hd, hc⟩ := mem_flatMap.mp hc
      obtain ⟨-, hserved, -⟩ := serve_spec hrun.served
      obtain ⟨rest, rest', hserve⟩ := hserved d hd
      obtain ⟨q, -, hdispatch⟩ := mem_handed hserve hc
      have hstamp' := ((parked_drain h hstep).handed c hc').1
      rw [(dispatch_ok hdispatch).1, howned.stamped _ hin] at hstamp'
      exact hne (Json.str.inj (Option.some.inj hstamp'))

theorem kept_step {action : Action} (h : Parked H t) (hkept : Kept H s t u rs k)
    (hr : u.records = some rs) (hk : u.key = some k) (hmem : r ∈ rs)
    (hstamp : r.stamp = some (.str v)) (helse : Elsewhere v t action)
    (hstep : Shared.step H secretLike t action = some t') : Kept H s t' u rs k := by
  cases action with
  | reset p =>
    cases hstep
    exact ⟨hkept.unit, hkept.counted, hkept.sidecar, hkept.handed⟩
  | append p operation payload key created_at hex =>
    dsimp only [Shared.step] at hstep
    split at hstep
    · cases hstep
      exact ⟨hkept.unit, hkept.counted, hkept.sidecar, hkept.handed⟩
    split at hstep
    · split at hstep
      · rename_i x hok
        obtain ⟨drainer, hdrainer, rfl⟩ := Option.map_eq_some_iff.mp hstep
        obtain ⟨hunit, hcounted, hquarantine⟩ :=
          kept_append h (by simp [Runtime.batch]) hok hdrainer hkept.unit
        refine ⟨hunit, (hcounted k).trans hkept.counted, ?_, hkept.handed⟩
        show countKey header k drainer.files.quarantine = _
        rw [hquarantine]
        exact hkept.sidecar
      · cases hstep
        exact hkept
    · cases hstep
  | drain p now answers => exact kept_drain h hkept hr hk hmem hstamp helse hstep

/-- In every run of runtimes that write to one spool and drain it: what the router is handed
carries the stamp of the runtime that hands it over, which is the stamp of the namespace it
was written under; a unit with a stamp stays as it is, with its count and out of the sidecar,
and nothing of it is handed over, through every run without a drain under that namespace; and
a drain that retains a unit has handed over none of its records. -/
theorem parked_stays (hr : (Shared.system H secretLike).Reachable s) :
    (∀ c ∈ s.handed, c.record.stamp = some (.str c.«namespace») ∧
      ∃ A, (c.record.idempotency_key, A) ∈ s.written ∧ storedNamespace H A = c.«namespace») ∧
    (∀ u ∈ unitsIn H s.drainer.files.spool, ∀ rs, u.records = some rs →
      ∀ r ∈ rs, ∀ v, r.stamp = some (.str v) → ∀ actions t,
        (Shared.system H secretLike).RunOn (Elsewhere v) s actions t →
          ∃ k, u.key = some k ∧ Kept H s t u rs k) ∧
    (∀ p answers us done, parseUnits H s.drainer.files.spool = some us →
      serve secretLike (s.runtimes p).«namespace» (dispatched us) answers = some done →
        ∀ d ∈ done, Dispatch.retained ∈ d.2.outcomes → d.2.handed = []) := by
  have h := (parked_inductive H secretLike).reachable hr
  refine ⟨h.handed, ?_, ?_⟩
  · intro u hu rs hrs r hmem v hstamp actions t hrun
    have hkey : ∃ k, u.key = some k := by
      unfold SpoolUnit.key SpoolUnit.signature
      rw [hrs]
      cases rs with
      | nil => cases hmem
      | cons q rs => exact ⟨_, rfl⟩
    obtain ⟨k, hk⟩ := hkey
    refine ⟨k, hk, ?_⟩
    have hstart : Parked H s ∧ Kept H s s u rs k :=
      ⟨h, hu, rfl, rfl, [], (append_nil _).symm, fun c hc => (not_mem_nil hc).elim⟩
    refine (hrun.keeps (I := fun t => Parked H t ∧ Kept H s t u rs k) ?_ hstart).2
    intro t action t' ⟨ht, hkept⟩ helse hstep
    exact ⟨parked_step ht hstep, kept_step ht hkept hrs hk hmem hstamp helse hstep⟩
  · intro p answers us done hus hdone d hd hret
    obtain ⟨-, hserved, -⟩ := serve_spec hdone
    obtain ⟨rest, rest', hserve⟩ := hserved d hd
    obtain ⟨hu, rs, hrs⟩ := served_mem hdone hd
    rw [← unitsIn_eq hus] at hu
    obtain ⟨A, howned⟩ := h.owned d.1 hu _ hrs
    rw [hrs, Option.getD_some] at hserve
    exact serveUnit_retained howned hserve hret

/-- Two runtimes, of the namespaces `a` and `b`. -/
def twoNamespaces : Shared :=
  ⟨emptyDrainer, fun p => ⟨roomy, if p = 0 then units "a" else units "b", none⟩, [], []⟩

def laneScope : Payload :=
  ⟨[(units "agent", .str (units "x")), (units "platform", .str (units "x")),
      (units "server_id", .str (units "x")), (units "channel_id", .str (units "x")),
      (units "session_key", .str (units "x"))],
    show List.Nodup _ by decide, trivial, trivial, trivial, trivial, trivial, trivial⟩

/-- A lane prerequisite and a thought of `a`: the runtime of `b` retains the unit, the one of
`a` hands both records over. -/
def parkedRun : List Action :=
  [.append 0 .session_start laneScope none midnight fun _ => [],
    .append 0 .log_thought ⟨[], nil_value⟩ (some (units "t")) midnight
      fun i => if i = 0 then units "0" else units "g",
    .drain 1 midnight [],
    .drain 0 midnight [.returned .null, .returned .null]]

theorem parkedRun_eq : ((LTS.exec (Shared.step plainHost fun _ => false) twoNamespaces
    parkedRun).any fun s => decide (s.handed.map Handed.«namespace» = [units "a", units "a"] ∧
      s.drainer.files.spool = [])) = true := by decide +kernel

theorem parked_stays_parkedRun : ∃ s : Shared,
    s.handed.map Handed.«namespace» = [units "a", units "a"] ∧ s.drainer.files.spool = [] ∧
      ∀ c ∈ s.handed, c.record.stamp = some (.str c.«namespace») ∧
        ∃ A, (c.record.idempotency_key, A) ∈ s.written ∧
          storedNamespace plainHost A = c.«namespace» := by
  obtain ⟨s, hs, hhanded⟩ := (Option.any_eq_true _ _).mp parkedRun_eq
  have hreach : (Shared.system plainHost fun _ => false).Reachable s :=
    ⟨twoNamespaces, _, ⟨⟨rfl, rfl, fun _ => rfl⟩, fun _ => rfl, rfl, rfl⟩,
      LTS.runOn_of_exec_any hs⟩
  obtain ⟨hnames, hempty⟩ := of_decide_eq_true hhanded
  exact ⟨s, hnames, hempty, (parked_stays hreach).1⟩

end Runs

end OpenBrain.Memory.Spool
