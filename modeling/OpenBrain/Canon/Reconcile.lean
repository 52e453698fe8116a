import OpenBrain.Core.Assoc
import OpenBrain.Core.PyJson
import OpenBrain.Core.Result

/-!
# Canon packs, their drift and the writes that mend it

A pack file declares rules, one a key, in three lanes. `diff_pack`
(`apps/canon/reconcile.py`) compares it with the live `agent_context_pack`
payload, and `plan_writes` (`apps/canon/run.py`, `writes.py`) makes one call for
each entry that is missing or stale. Paths below are under
`python/openbrain/src/openbrain/apps/canon/`.

A payload is any JSON value; a section that has not the expected shape carries no
items. A pack is built by `PackEntry.validate` and `Pack.validate` from the
tables of the file, so its fields are stripped and its keys distinct.
-/
namespace OpenBrain.Canon

open OpenBrain.Core OpenBrain.Core.Py

/-! ## The pack file -/

/-- mirrors pack.py:105-118 -/
inductive Lane where
  | profile_guidance
  | process_guidance
  | repo_facts
  deriving DecidableEq, Repr

/-- `for lane in Lane` -/
def lanes : List Lane := [.profile_guidance, .process_guidance, .repo_facts]

def Lane.text : Lane → Str
  | .profile_guidance => units "profile_guidance"
  | .process_guidance => units "process_guidance"
  | .repo_facts => units "repo_facts"

/-- mirrors pack.py:84-102 -/
inductive FactType where
  | ownership
  | gotcha
  | api_contract
  | workflow
  | dependency
  | migration
  | validation
  | source_pointer
  deriving DecidableEq, Repr

/-- mirrors pack.py:127-130 -/
def GUIDANCE_CANDIDATE_TYPE : Lane → Option Str
  | .profile_guidance => some (units "user_preference")
  | .process_guidance => some (units "process_rule")
  | .repo_facts => none

/-- An entry as the file has it; the fact type has its default. -/
structure RawEntry where
  key : Str
  lane : Lane
  text : Str
  source : Option Str
  subject : Option Str
  fact_type : FactType
  deriving DecidableEq, Repr

/-- `none` where it raises. mirrors pack.py:166-180 -/
def no_blank (value : Str) : Option Str :=
  let stripped := strip value
  if stripped = [] then none else some stripped

/-- A field that has been through `_no_blank`. -/
def IsField (value : Str) : Prop := value ≠ [] ∧ strip value = value

theorem isField_of_no_blank {value v : Str} (h : no_blank value = some v) : IsField v := by
  unfold no_blank at h
  dsimp only at h
  split at h
  · cases h
  · rename_i hne
    cases h
    exact ⟨hne, strip_strip value⟩

/-- A validated entry.
mirrors pack.py:133-197 -/
structure PackEntry where
  key : Str
  lane : Lane
  text : Str
  source : Option Str
  subject : Option Str
  fact_type : FactType
  key_field : IsField key
  text_field : IsField text
  subject_field : ∀ s, subject = some s → IsField s
  /-- `_repo_facts_need_a_subject` -/
  fact_subject : lane = .repo_facts → subject.isSome = true

/-- `none` where it raises. -/
def optional_field : Option Str → Option (Option Str)
  | none => some none
  | some value => (no_blank value).map some

theorem isField_of_optional {value v : Option Str} (h : optional_field value = some v) (s : Str)
    (hs : v = some s) : IsField s := by
  cases value with
  | none => cases h; cases hs
  | some value =>
    obtain ⟨t, ht, rfl⟩ := Option.map_eq_some_iff.mp h
    cases hs
    exact isField_of_no_blank ht

/-- The validators of an entry, in order; `none` where one raises.
mirrors pack.py:166-197 -/
def PackEntry.validate (raw : RawEntry) : Option PackEntry :=
  match hkey : no_blank raw.key, htext : no_blank raw.text, optional_field raw.source,
      hsubject : optional_field raw.subject with
  | some key, some text, some source, some subject =>
    if hfact : raw.lane = .repo_facts → subject.isSome = true then
      some { key, lane := raw.lane, text, source, subject, fact_type := raw.fact_type
             key_field := isField_of_no_blank hkey
             text_field := isField_of_no_blank htext
             subject_field := isField_of_optional hsubject
             fact_subject := hfact }
    else none
  | _, _, _, _ => none

/-- A validated pack. mirrors pack.py:210-244 -/
structure Pack where
  entries : List PackEntry
  /-- `_keys_are_unique` -/
  keys_unique : (entries.map PackEntry.key).Nodup

/-- `none` where it raises. -/
def Pack.validate (raws : List RawEntry) : Option Pack :=
  (raws.mapM PackEntry.validate).bind fun entries =>
    if h : (entries.map PackEntry.key).Nodup then some ⟨entries, h⟩ else none

/-- mirrors pack.py:246-248 -/
def Pack.entries_for (pack : Pack) (lane : Lane) : List PackEntry :=
  pack.entries.filter fun entry => decide (entry.lane = lane)

/-! ## The live payload -/

/-- `x.get(key)` of a mapping; `none` when `x` is no mapping. -/
def field? (x : PyJson) (key : Str) : Option PyJson :=
  match x with
  | .obj ms => Members.get? ms key
  | _ => none

/-- The items of one section; a payload that has not this shape has none.
mirrors reconcile.py:186-211 -/
def live_items (payload : PyJson) (lane : Lane) : List Items :=
  match ((field? payload (units "sections")).bind (field? · lane.text)).bind
      (field? · (units "items")) with
  | some (.arr items) => items.filterMap fun item =>
      match item with
      | .obj ms => some ms
      | _ => none
  | _ => []

def stringOf (item : Items) (field : Str) : Option Str :=
  match Members.get? item field with
  | some (.str s) => some s
  | _ => none

/-- mirrors reconcile.py:214-231 -/
def live_key_of (item : Items) : Option Str :=
  [units "scope_key", units "subject"].findSome? fun field =>
    (stringOf item field).bind fun value => if isBlank value then none else some (strip value)

/-- mirrors reconcile.py:234-244 -/
def live_text_of (item : Items) : Str :=
  (([units "guidance", units "fact"].findSome? (stringOf item)).map strip).getD []

def keyed (live : List Items) : List (Str × Str) :=
  live.filterMap fun item => (live_key_of item).map fun key => (key, live_text_of item)

/-! ## Drift -/

inductive DriftStatus where
  | matched
  | missing
  | stale
  | undeclared
  deriving DecidableEq, Repr

/-- mirrors reconcile.py:99-118 -/
structure DriftFinding where
  lane : Lane
  key : Str
  status : DriftStatus
  declared_text : Option Str
  live_text : Option Str
  deriving DecidableEq, Repr

def declaredFinding (by_key : List (Str × Str)) (lane : Lane) (entry : PackEntry) : DriftFinding :=
  match by_key.lookup entry.key with
  | none => ⟨lane, entry.key, .missing, some entry.text, none⟩
  | some live_value =>
    ⟨lane, entry.key, if live_value = entry.text then .matched else .stale, some entry.text,
      some live_value⟩

def undeclaredKeys (by_key : List (Str × Str)) (declared : List PackEntry) : List Str :=
  ((by_key.map Prod.fst).filter fun key => !(declared.map PackEntry.key).contains key).insertionSort
    fun a b => codePoints a ≤ codePoints b

/-- mirrors reconcile.py:247-306 -/
def diff_lane (declared : List PackEntry) (live : List Items) (lane : Lane) : List DriftFinding :=
  let by_key := Assoc.ofWrites (keyed live)
  declared.map (declaredFinding by_key lane) ++
    (undeclaredKeys by_key declared).map fun key =>
      ⟨lane, key, .undeclared, none, by_key.lookup key⟩

/-- mirrors reconcile.py:309-327 -/
def diff_pack (pack : Pack) (payload : PyJson) : List DriftFinding :=
  lanes.flatMap fun lane => diff_lane (pack.entries_for lane) (live_items payload lane) lane

/-- mirrors reconcile.py:159-169 -/
def actionable (report : List DriftFinding) : List DriftFinding :=
  report.filter fun finding => finding.status == .missing || finding.status == .stale

/-! ## Writes -/

/-- mirrors writes.py:103-133 -/
structure FactProvenance where
  repo : Str
  source_path : Str
  source_commit : Str
  source_url : Str
  verified_at : Str
  deriving DecidableEq, Repr

/-- The arguments of the two calls, less their constants. -/
inductive Arguments where
  | append_session_event (session_key content memory_lifecycle_action candidate_type
      candidate_reason candidate_scope_key : Str)
  | upsert_repo_fact (provenance : FactProvenance) (subject : Option Str) (fact_type : FactType)
      (fact : Str) (refresh_hint : Option Str)
  deriving DecidableEq, Repr

structure PlannedWrite where
  key : Str
  lane : Lane
  arguments : Arguments
  deriving DecidableEq, Repr

def PROMOTE_ACTION : Str := units "promote"

/-- mirrors writes.py:239-248 -/
def reason_for (entry : PackEntry) (action : Str) : Str :=
  let origin := match entry.source with
    | some source => units " (source: " ++ source ++ units ")"
    | none => []
  action ++ units " from declared canon pack: " ++ entry.key ++ origin

/-- mirrors writes.py:206-236 -/
def plan_guidance (entry : PackEntry) (session_key action : Str) : Option PlannedWrite :=
  (GUIDANCE_CANDIDATE_TYPE entry.lane).map fun candidate_type =>
    ⟨entry.key, entry.lane, .append_session_event session_key entry.text action candidate_type
      (reason_for entry action) entry.key⟩

/-- mirrors writes.py:251-297 -/
def plan_repo_fact (entry : PackEntry) (provenance : Option FactProvenance) :
    Option PlannedWrite :=
  provenance.map fun provenance =>
    ⟨entry.key, entry.lane, .upsert_repo_fact provenance entry.subject entry.fact_type entry.text
      (entry.source.map fun source => units "Declared canon provenance: " ++ source)⟩

/-- `none` where it raises. mirrors writes.py:142-172 -/
def plan_promote (entry : PackEntry) (session_key : Str) (provenance : Option FactProvenance) :
    Option PlannedWrite :=
  if entry.lane = .repo_facts then plan_repo_fact entry provenance
  else plan_guidance entry session_key PROMOTE_ACTION

/-- `none` where it raises, and then nothing is sent.
mirrors run.py:198-230 -/
def plan_writes (pack : Pack) (report : List DriftFinding) (session_key : Str)
    (provenance : Option FactProvenance) : Option (List PlannedWrite) :=
  let by_key := Assoc.ofWrites (pack.entries.map fun entry => ((entry.lane, entry.key), entry))
  (actionable report).mapM fun finding =>
    (by_key.lookup (finding.lane, finding.key)).bind fun entry =>
      plan_promote entry session_key provenance

end OpenBrain.Canon
