import OpenBrain.Core.Grouping
import OpenBrain.Core.Utf16

/-!
# Restatement groups of a dream route run

What the apply step would do with a decision, and how the rows of a group that say one thing are
resolved to the one that is kept. The row kept is read again without the restates flag, and a row
that is read so is never a reinforcement (`wouldApply_plain`); every other restatement points at it
(`restatements_resolve`).
-/
namespace OpenBrain.Server.DreamRoute
open OpenBrain.Core List

/-- `Destination`; mirrors src/server/domain/dream-route/types.ts:20-27 -/
inductive Destination where
  | rule | decision | fact | correction | steering
  deriving DecidableEq, Repr

def Destination.text : Destination → Str
  | .rule => units "rule"
  | .decision => units "decision"
  | .fact => units "fact"
  | .correction => units "correction"
  | .steering => units "steering"

/-- `Agreement`; mirrors types.ts:60 -/
inductive Agreement where
  | high | low | none
  deriving DecidableEq, Repr

def Agreement.text : Agreement → Str
  | .high => units "high"
  | .low => units "low"
  | .none => units "none"

/-- `AuthorityTier`; mirrors types.ts:48 -/
inductive AuthorityTier where
  | decided | observed
  deriving DecidableEq, Repr

/-- `MatrixRow`; mirrors types.ts:30-36 -/
structure MatrixRow where
  name : Destination
  commits : Bool
  deriving DecidableEq, Repr

/-- `RouteMatrix`; mirrors types.ts:38-42 -/
structure RouteMatrix where
  rows : List MatrixRow
  deriving DecidableEq, Repr

/-- `RouteDecision`, what the verdict reads of it; mirrors types.ts:78-91 -/
structure RouteDecision where
  destination : Option Destination
  agreement : Agreement
  authorityTier : AuthorityTier
  restates : Bool
  deriving DecidableEq, Repr

/-- `FrozenRow` with the one field of its snapshot that is read here; mirrors types.ts:96-118 -/
structure FrozenRow where
  candidateId : Str
  neighbourOf : Option Str
  first_said_at : Option Str
  deriving DecidableEq, Repr

/-- What an apply step does with a row; mirrors run-core.ts:249 -/
inductive Action where
  | thought | rule_event | reinforce | none
  deriving DecidableEq, Repr

/-- `WouldApply`; mirrors run-core.ts:248-251 -/
structure WouldApply where
  action : Action
  reason : Str
  deriving DecidableEq, Repr

/-- mirrors run-core.ts:267-303 -/
def wouldApply (decision : RouteDecision) (matrix : RouteMatrix) : WouldApply :=
  if decision.agreement ≠ .high then
    ⟨.none, units "agreement " ++ decision.agreement.text ++ units ", only high commits."⟩
  else match matrix.rows.find? fun entry => some entry.name = decision.destination with
    | none => ⟨.none, units "steering is never committed."⟩
    | some destination =>
      if ¬ destination.commits then ⟨.none, units "steering is never committed."⟩
      else if decision.restates then ⟨.reinforce, units "restates another item in its batch."⟩
      else if destination.name = .rule ∧ decision.authorityTier = .decided then
        ⟨.rule_event, units "a rule in the operator's own words becomes always-known."⟩
      else if destination.name = .rule then
        ⟨.thought, units "a rule not in the operator's words is searchable, never always-known."⟩
      else
        ⟨.thought, units "a committed " ++ destination.name.text ++
          units " is written as a searchable thought."⟩

def Action.writes (a : Action) : Prop := a = .thought ∨ a = .rule_event

theorem wouldApply_reinforce {decision : RouteDecision} {matrix : RouteMatrix}
    (h : (wouldApply decision matrix).action = .reinforce) :
    (wouldApply { decision with restates := false } matrix).action.writes := by
  unfold wouldApply at h
  unfold wouldApply Action.writes
  split at h
  · cases h
  · rename_i hhigh
    rw [if_neg hhigh]
    split at h
    · cases h
    · rename_i destination hfind
      simp only [hfind]
      split at h
      · cases h
      · rename_i hcommits
        rw [if_neg hcommits, if_neg Bool.false_ne_true]
        split
        · exact .inr rfl
        · split <;> exact .inl rfl

/-! ## Groups -/

/-- `RoutedRow`; mirrors run-core.ts:305-309 -/
structure RoutedRow where
  row : FrozenRow
  decision : RouteDecision
  wouldApply : WouldApply
  deriving DecidableEq, Repr

def RoutedRow.id (entry : RoutedRow) : Str := entry.row.candidateId

/-- The verdict with `restates` off; mirrors src/scripts/dream-route-run.ts:274-276 -/
def withoutRestates (matrix : RouteMatrix) (entry : RoutedRow) : WouldApply :=
  DreamRoute.wouldApply { entry.decision with restates := false } matrix

/-- `ResolvedWouldApply`; mirrors run-core.ts:312-315 -/
structure ResolvedWouldApply extends WouldApply where
  reinforces : Option Str
  deriving DecidableEq, Repr

/-- mirrors run-core.ts:317 -/
def REINFORCEABLE (a : Action) : Bool := a = .reinforce ∨ a = .thought ∨ a = .rule_event

/-- mirrors run-core.ts:319-324 -/
def groupKeyOf (row : FrozenRow) (present : List Str) : Str :=
  match row.neighbourOf with
  | none => row.candidateId
  | some parent =>
    if parent ≠ row.candidateId ∧ parent ∈ present then parent else row.candidateId

/-- The runtime's clock texts and its text order. -/
structure Runtime where
  /-- `Date.parse`; `none` is NaN. -/
  dateParse : Str → Option Int
  localeCompare : Str → Str → Ordering

variable (rt : Runtime)

/-- `none` is positive infinity; mirrors run-core.ts:354-359 -/
def saidAt (row : FrozenRow) : Option Int := row.first_said_at.bind rt.dateParse

/-- The sign of `member - best`; the difference of two infinities is NaN, which has none. -/
def delta : Option Int → Option Int → Option Ordering
  | some member, some best => some (compare member best)
  | some _, none => some .lt
  | none, some _ => some .gt
  | none, none => none

/-- One turn of the loop over the eligible members; mirrors run-core.ts:373-386 -/
def earlier (best : Option RoutedRow) (member : RoutedRow) : Option RoutedRow :=
  match best with
  | none => some member
  | some best =>
    match delta (saidAt rt member.row) (saidAt rt best.row) with
    | some .lt => some member
    | some .eq => if rt.localeCompare member.id best.id = .lt then some member else some best
    | _ => some best

/-- mirrors run-core.ts:368-388 -/
def survivorOf (members : List RoutedRow) : Option RoutedRow :=
  (members.filter fun member => REINFORCEABLE member.wouldApply.action).foldl (earlier rt) none

/-- The verdict on one member of a group; mirrors run-core.ts:423-446 -/
def verdictOf (recompute : RoutedRow → WouldApply) (survivor : Option RoutedRow)
    (member : RoutedRow) : ResolvedWouldApply :=
  if member.wouldApply.action ≠ .reinforce then { member.wouldApply with reinforces := none }
  else match survivor with
    | none =>
      ⟨⟨(recompute member).action, (recompute member).reason ++
        units " Nothing else in the cohort says it, so it is kept."⟩, none⟩
    | some survivor =>
      if survivor.id ≠ member.id then { member.wouldApply with reinforces := some survivor.id }
      else ⟨⟨(recompute member).action, (recompute member).reason ++
        units " It is the earliest-said member of its group, so it is the one kept."⟩, none⟩

/-- mirrors run-core.ts:421-422 -/
def survivorIn (members : List RoutedRow) : Option RoutedRow :=
  if 1 < members.length then survivorOf rt members else none

/-- mirrors run-core.ts:408-449 -/
def resolveRestatementGroups (routed : List RoutedRow) (recompute : RoutedRow → WouldApply) :
    List (Str × ResolvedWouldApply) :=
  let present := routed.map RoutedRow.id
  let groups := Grouping.groupInto (fun entry : RoutedRow => groupKeyOf entry.row present) routed
  Assoc.ofWrites (groups.flatMap fun group =>
    group.2.map fun member => (member.id, verdictOf recompute (survivorIn rt group.2) member))

/-- The cohort as it is routed; mirrors src/scripts/dream-route-run.ts:349-353 -/
def routedRows (decided : List (FrozenRow × RouteDecision)) (matrix : RouteMatrix) :
    List RoutedRow :=
  decided.map fun entry => ⟨entry.1, entry.2, wouldApply entry.2 matrix⟩

/-- The verdicts of a run; mirrors src/scripts/dream-route-run.ts:345-356 -/
def resolvedRows (decided : List (FrozenRow × RouteDecision)) (matrix : RouteMatrix) :
    List (Str × ResolvedWouldApply) :=
  resolveRestatementGroups rt (routedRows decided matrix) (withoutRestates matrix)

/-! ## Every restatement points at a row that is written -/

variable {rt} {recompute : RoutedRow → WouldApply}

theorem earlier_eq (rt : Runtime) (best : Option RoutedRow) (member : RoutedRow) :
    earlier rt best member = some member ∨ (best.isSome = true ∧ earlier rt best member = best) := by
  cases best with
  | none => exact .inl rfl
  | some best =>
    simp only [earlier]
    split
    · exact .inl rfl
    · split
      · exact .inl rfl
      · exact .inr ⟨rfl, rfl⟩
    · exact .inr ⟨rfl, rfl⟩

/-- The loop keeps a member of the list, or the one it began with. -/
theorem foldl_earlier (rt : Runtime) (members : List RoutedRow) (best : Option RoutedRow) :
    (members = [] ∧ members.foldl (earlier rt) best = best) ∨
      ∃ kept, members.foldl (earlier rt) best = some kept ∧ (kept ∈ members ∨ best = some kept) := by
  induction members generalizing best with
  | nil => exact .inl ⟨rfl, rfl⟩
  | cons member members ih =>
    right
    rw [foldl_cons]
    have hnext : ∃ next, earlier rt best member = some next ∧ (next = member ∨ best = some next) := by
      rcases earlier_eq rt best member with h | ⟨hsome, h⟩
      · exact ⟨member, h, .inl rfl⟩
      · obtain ⟨next, hnext⟩ := Option.isSome_iff_exists.mp hsome
        exact ⟨next, h.trans hnext, .inr hnext⟩
    obtain ⟨next, hnext, hfrom⟩ := hnext
    rw [hnext]
    rcases ih (some next) with ⟨rfl, h⟩ | ⟨kept, h, hkept⟩
    · refine ⟨next, h, ?_⟩
      rcases hfrom with rfl | hbest
      · exact .inl mem_cons_self
      · exact .inr hbest
    · refine ⟨kept, h, ?_⟩
      rcases hkept with hkept | hkept
      · exact .inl (mem_cons_of_mem _ hkept)
      · cases hkept
        rcases hfrom with rfl | hbest
        · exact .inl mem_cons_self
        · exact .inr hbest

/-- A group with a restatement in it has a survivor, whatever the times and the ids. -/
theorem survivorOf_eq {members : List RoutedRow} {member : RoutedRow} (hmem : member ∈ members)
    (hact : member.wouldApply.action = .reinforce) :
    ∃ survivor ∈ members, survivorOf rt members = some survivor ∧
      REINFORCEABLE survivor.wouldApply.action = true := by
  have heligible : member ∈ members.filter fun m => REINFORCEABLE m.wouldApply.action := by
    simp [hmem, hact, REINFORCEABLE]
  rcases foldl_earlier rt (members.filter fun m => REINFORCEABLE m.wouldApply.action) none
    with ⟨hnil, -⟩ | ⟨survivor, hsurvivor, hin⟩
  · rw [hnil] at heligible
    cases heligible
  · have hin := mem_filter.mp (hin.resolve_right (nomatch ·))
    exact ⟨survivor, hin.1, hsurvivor, hin.2⟩

/-- A verdict that is still a reinforcement points at the group's survivor, another row. -/
theorem verdictOf_reinforce (rt : Runtime) {members : List RoutedRow} {member : RoutedRow}
    (hplain : member.wouldApply.action = .reinforce → (recompute member).action.writes)
    (hmem : member ∈ members)
    (h : (verdictOf recompute (survivorIn rt members) member).action = .reinforce) :
    ∃ survivor ∈ members, survivorIn rt members = some survivor ∧ survivor.id ≠ member.id ∧
      REINFORCEABLE survivor.wouldApply.action = true ∧
      (verdictOf recompute (survivorIn rt members) member).reinforces = some survivor.id := by
  by_cases hact : member.wouldApply.action = .reinforce
  · have hwrites := hplain hact
    obtain ⟨survivor, hin, hsurvivor, helig⟩ := survivorOf_eq hmem hact
    unfold survivorIn at h ⊢
    split at h
    · rename_i hlen
      rw [if_pos hlen]
      rw [hsurvivor] at h ⊢
      unfold verdictOf at h ⊢
      rw [if_neg (not_not.mpr hact)] at h ⊢
      by_cases hne : survivor.id ≠ member.id
      · exact ⟨survivor, hin, rfl, hne, helig, by simp [hne]⟩
      · simp only [hne, if_false] at h
        rw [h] at hwrites
        exact absurd hwrites (by simp [Action.writes])
    · unfold verdictOf at h
      rw [if_neg (not_not.mpr hact)] at h
      simp only at h
      rw [h] at hwrites
      exact absurd hwrites (by simp [Action.writes])
  · unfold verdictOf at h
    rw [if_pos hact] at h
    exact absurd h hact

theorem verdictOf_survivor (rt : Runtime) {members : List RoutedRow} {survivor : RoutedRow}
    (hplain : survivor.wouldApply.action = .reinforce → (recompute survivor).action.writes)
    (helig : REINFORCEABLE survivor.wouldApply.action = true)
    (hsurvivor : survivorIn rt members = some survivor) :
    (verdictOf recompute (survivorIn rt members) survivor).action.writes := by
  unfold verdictOf
  by_cases hact : survivor.wouldApply.action = .reinforce
  · rw [if_neg (not_not.mpr hact), hsurvivor]
    simpa using hplain hact
  · rw [if_pos hact]
    simpa [REINFORCEABLE, hact, Action.writes] using helig

theorem verdictOf_names {survivor : Option RoutedRow} {member : RoutedRow} {target : Str}
    (h : (verdictOf recompute survivor member).reinforces = some target) :
    (verdictOf recompute survivor member).action = .reinforce := by
  unfold verdictOf at h ⊢
  by_cases hact : member.wouldApply.action = .reinforce
  · rw [if_neg (not_not.mpr hact)] at h ⊢
    cases survivor with
    | none => cases h
    | some survivor =>
      by_cases hne : survivor.id ≠ member.id
      · simp [hne, hact]
      · simp [hne] at h
  · rw [if_pos hact] at h
    cases h

theorem writes_perm (routed : List RoutedRow) (key : RoutedRow → Str) :
    (((Grouping.groupInto key routed).flatMap fun group => group.2.map fun member =>
      (member.id, verdictOf recompute (survivorIn rt group.2) member)).map Prod.fst).Perm
      (routed.map RoutedRow.id) := by
  have hkeys : ((Grouping.groupInto key routed).flatMap fun group => group.2.map fun member =>
      (member.id, verdictOf recompute (survivorIn rt group.2) member)).map Prod.fst =
      ((Grouping.groupInto key routed).flatMap Prod.snd).map RoutedRow.id := by
    simp [map_flatMap, Function.comp_def]
  rw [hkeys]
  exact (Grouping.groupInto_perm key routed).map RoutedRow.id

theorem mem_resolved {routed : List RoutedRow} (hids : (routed.map RoutedRow.id).Nodup) (id : Str)
    (v : ResolvedWouldApply) :
    (id, v) ∈ resolveRestatementGroups rt routed recompute ↔
      ∃ entry ∈ routed, entry.id = id ∧ v = verdictOf recompute (survivorIn rt (routed.filter
        fun e => groupKeyOf e.row (routed.map RoutedRow.id) =
          groupKeyOf entry.row (routed.map RoutedRow.id))) entry := by
  unfold resolveRestatementGroups
  rw [Assoc.ofWrites_of_nodup ((writes_perm routed _).nodup_iff.mpr hids), mem_flatMap]
  constructor
  · rintro ⟨⟨key, members⟩, hgroup, hin⟩
    obtain ⟨entry, hentry, heq⟩ := mem_map.mp hin
    have hmembers := Grouping.mem_groupInto hgroup
    subst hmembers
    cases heq
    obtain ⟨hentry, hkey⟩ := mem_filter.mp hentry
    refine ⟨entry, hentry, rfl, ?_⟩
    rw [decide_eq_true_eq.mp hkey]
  · rintro ⟨entry, hentry, rfl, rfl⟩
    have hflat := (Grouping.groupInto_perm
      (fun e : RoutedRow => groupKeyOf e.row (routed.map RoutedRow.id)) routed).mem_iff.mpr hentry
    obtain ⟨⟨key, members⟩, hgroup, hin⟩ := mem_flatMap.mp hflat
    refine ⟨(key, members), hgroup, mem_map.mpr ⟨entry, hin, ?_⟩⟩
    have hmembers := Grouping.mem_groupInto hgroup
    subst hmembers
    rw [decide_eq_true_eq.mp (mem_filter.mp hin).2]

/-- Every row has one verdict. A verdict that is a reinforcement names another row of its group,
and that row's verdict writes a record; a verdict that is none names no row. -/
theorem restatements_resolve (rt : Runtime) (decided : List (FrozenRow × RouteDecision))
    (matrix : RouteMatrix) (hids : (decided.map fun entry => entry.1.candidateId).Nodup) :
    ((resolvedRows rt decided matrix).map Prod.fst).Perm
        (decided.map fun entry => entry.1.candidateId) ∧
      ∀ row decision, (row, decision) ∈ decided → ∀ verdict,
        (row.candidateId, verdict) ∈ resolvedRows rt decided matrix →
          (verdict.action = .reinforce ↔ verdict.reinforces ≠ none) ∧
          ∀ target, verdict.reinforces = some target →
            target ≠ row.candidateId ∧
            ∃ kept ∈ decided, kept.1.candidateId = target ∧
              groupKeyOf kept.1 (decided.map fun entry => entry.1.candidateId) =
                groupKeyOf row (decided.map fun entry => entry.1.candidateId) ∧
              ∃ written, (target, written) ∈ resolvedRows rt decided matrix ∧
                written.action.writes := by
  have hrouted : (routedRows decided matrix).map RoutedRow.id =
      decided.map fun entry => entry.1.candidateId := by
    simp [routedRows, RoutedRow.id]
  have hplain : ∀ entry ∈ routedRows decided matrix, entry.wouldApply.action = .reinforce →
      (withoutRestates matrix entry).action.writes := by
    intro entry hentry hact
    obtain ⟨source, -, rfl⟩ := mem_map.mp hentry
    exact wouldApply_reinforce hact
  have hnodup := hrouted ▸ hids
  constructor
  · unfold resolvedRows resolveRestatementGroups
    rw [Assoc.ofWrites_of_nodup ((writes_perm _ _).nodup_iff.mpr hnodup), ← hrouted]
    exact writes_perm _ _
  · intro row decision hdecided verdict hverdict
    obtain ⟨entry, hentry, hid, rfl⟩ := (mem_resolved hnodup _ _).mp hverdict
    obtain ⟨source, hsource, rfl⟩ := mem_map.mp hentry
    -- the ids are distinct, so the row of the verdict is the one it was read for
    have hsame : source = (row, decision) := inj_on_of_nodup_map hids hsource hdecided hid
    subst hsame
    rw [← hrouted]
    have hself : ∀ members : List RoutedRow, members = (routedRows decided matrix).filter (fun e =>
        groupKeyOf e.row ((routedRows decided matrix).map RoutedRow.id) =
          groupKeyOf row ((routedRows decided matrix).map RoutedRow.id)) →
        ⟨row, decision, wouldApply decision matrix⟩ ∈ members := by
      rintro members rfl
      exact mem_filter.mpr ⟨hentry, by simp⟩
    have hpoints := verdictOf_reinforce rt (hplain _ hentry) (hself _ rfl)
    constructor
    · constructor
      · intro hact
        obtain ⟨survivor, -, -, -, -, hnamed⟩ := hpoints hact
        rw [hnamed]
        exact Option.some_ne_none _
      · intro hnamed
        obtain ⟨target, htarget⟩ := Option.ne_none_iff_exists'.mp hnamed
        exact verdictOf_names htarget
    · intro target htarget
      obtain ⟨survivor, hin, hsurvivor, hne, helig, hnamed⟩ := hpoints (verdictOf_names htarget)
      rw [htarget] at hnamed
      cases hnamed
      obtain ⟨hkept, hkey⟩ := mem_filter.mp hin
      have hkey := decide_eq_true_eq.mp hkey
      have hwritten := verdictOf_survivor rt (hplain _ hkept) helig hsurvivor
      obtain ⟨kept, hkept', rfl⟩ := mem_map.mp hkept
      refine ⟨hne, kept, hkept', rfl, hkey, _, (mem_resolved hnodup _ _).mpr ⟨_, hkept, rfl, rfl⟩, ?_⟩
      rw [hkey]
      exact hwritten

/-- Two rows without a said-at time that say one thing: `y` reinforces `x`, which is written. -/
theorem restatements_resolve_pair :
    let rt : Runtime := ⟨fun _ => none, fun a b => if a < b then .lt else if a = b then .eq else .gt⟩
    let matrix : RouteMatrix := ⟨[⟨.fact, true⟩]⟩
    let decision : RouteDecision := ⟨some .fact, .high, .observed, true⟩
    let x : FrozenRow := ⟨units "x", none, none⟩
    let y : FrozenRow := ⟨units "y", some (units "x"), none⟩
    (∃ verdict, (units "y", verdict) ∈ resolvedRows rt [(x, decision), (y, decision)] matrix ∧
        verdict.reinforces = some (units "x")) ∧
      ∃ written, (units "x", written) ∈ resolvedRows rt [(x, decision), (y, decision)] matrix ∧
        written.action.writes := by
  intro rt matrix decision x y
  have hmem : (units "y", ⟨⟨.reinforce, units "restates another item in its batch."⟩,
      some (units "x")⟩) ∈ resolvedRows rt [(x, decision), (y, decision)] matrix := by
    decide +kernel
  refine ⟨⟨_, hmem, rfl⟩, ?_⟩
  obtain ⟨-, kept, -, -, -, hwritten⟩ := ((restatements_resolve rt [(x, decision), (y, decision)]
    matrix (by decide)).2 y decision (by simp) _ hmem).2 (units "x") rfl
  exact hwritten

end OpenBrain.Server.DreamRoute
