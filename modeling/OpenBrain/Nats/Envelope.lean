import OpenBrain.Core.JsonObject

/-!
# The TypeScript side of the wire (`nats-envelope.ts`)

`buildEnvelope` checks id, from and kind and fills in the defaults,
`envelopeToBytes` writes the envelope and `envelopeFromBytes` reads one, with
the warning for a newer version next to its result. `fromBytes_toBytes` says
which built envelopes come back: those with a timestamp, an integer version and
no negative zero.
-/
namespace OpenBrain.Nats.Envelope
open OpenBrain.Core

/-- mirrors nats-runtime.ts (`ENVELOPE_VERSION`) -/
def ENVELOPE_VERSION : Double := ⟨Dec.ofInt 1, by decide +kernel⟩

/-- An object of ECMAScript, keys distinct and in order at every level. -/
def Object := { ms : Members Double // Ecma.Value (.obj ms) }

/-- mirrors nats-envelope.ts:11-23 -/
structure FleetEnvelope where
  id : Str
  ts : Str
  «from» : Str
  kind : Str
  payload : Members Double
  «to» : Option Str
  task_id : Option Str
  channel : Option Str
  topic : Option Str
  correlation_id : Option Str
  version : Double

/-- mirrors nats-envelope.ts:63-75; an absent field and `null` are both `none` -/
structure BuildEnvelopeInput where
  id : Str
  ts : Str
  «from» : Str
  kind : Str
  payload : Option Object
  «to» : Option Str
  task_id : Option Str
  channel : Option Str
  topic : Option Str
  correlation_id : Option Str
  version : Option Double

/-- The errors of the codec; `message` gives their texts. -/
inductive EnvelopeError where
  | empty (field : Str)
  | undecodable
  | notObject
  | payload (got : Str)
  | version (raw : Json Double)
  | required (field : Str)

/-- The text of an error; the parser's own text, which follows an `undecodable
message`, is left out. -/
def EnvelopeError.message : EnvelopeError → Str
  | .empty field => units "Envelope." ++ field ++ units " must be non-empty"
  | .undecodable => units "Envelope.«from»Bytes: undecodable message: "
  | .notObject => units "Envelope.«from»Bytes: message is not a JSON object"
  | .payload got => units "Envelope.«from»Bytes: payload must be a JSON object, got " ++ got
  | .version raw => units "Envelope.«from»Bytes: invalid version " ++ Ecma.json.print raw
  | .required field => units "Envelope.«from»Bytes: required field '" ++ field ++
      units "' must be a non-empty string"

/-- mirrors nats-envelope.ts:81-85 -/
def assertEnvelopeIdentity (input : BuildEnvelopeInput) : Except EnvelopeError Unit :=
  if input.id.isEmpty then .error (.empty (units "id"))
  else if input.«from».isEmpty then .error (.empty (units "from"))
  else if input.kind.isEmpty then .error (.empty (units "kind"))
  else .ok ()

/-- mirrors nats-envelope.ts:87-102 -/
def buildEnvelope (input : BuildEnvelopeInput) : Except EnvelopeError FleetEnvelope := do
  assertEnvelopeIdentity input
  return {
    id := input.id
    ts := input.ts
    «from» := input.«from»
    kind := input.kind
    payload := (input.payload.map Subtype.val).getD []
    «to» := input.«to»
    task_id := input.task_id
    channel := input.channel
    topic := input.topic
    correlation_id := input.correlation_id
    version := input.version.getD ENVELOPE_VERSION }

def optString : Option Str → Json Double
  | some s => .str s
  | none => .null

/-- The body `envelopeToBytes` stringifies. -/
def body (e : FleetEnvelope) : Members Double := [
  (units "id", .str e.id),
  (units "ts", .str e.ts),
  (units "from", .str e.«from»),
  (units "kind", .str e.kind),
  (units "payload", .obj e.payload),
  (units "to", optString e.«to»),
  (units "task_id", optString e.task_id),
  (units "channel", optString e.channel),
  (units "topic", optString e.topic),
  (units "correlation_id", optString e.correlation_id),
  (units "version", .num e.version)]

def bodyKeys : List Str := ["id", "ts", "from", "kind", "payload", "to", "task_id", "channel",
  "topic", "correlation_id", "version"].map units

/-- mirrors nats-envelope.ts:105-120 -/
def envelopeToBytes (e : FleetEnvelope) : List UInt8 := Utf8.encode (Ecma.json.print (.obj (body e)))

/-- mirrors nats-envelope.ts:37-47 -/
def requireEnvelopeString (field : Str) : Option (Json Double) → Except EnvelopeError Str
  | some (.str s) => if s.isEmpty then .error (.required field) else .ok s
  | _ => .error (.required field)

/-- mirrors nats-envelope.ts:49-61 -/
def optEnvelopeString : Option (Json Double) → Option Str
  | some (.str s) => some s
  | some (.num d) => some (Ecma.numText d)
  | some (.bool true) => some (units "true")
  | some (.bool false) => some (units "false")
  | _ => none

/-- mirrors nats-envelope.ts:131-144 -/
def decodeEnvelopeRecord (raw : List UInt8) : Except EnvelopeError (Members Double) :=
  match Ecma.parse (Utf8.decode raw) with
  | none => .error .undecodable
  | some (.obj ms) => .ok ms
  | some _ => .error .notObject

/-- mirrors nats-envelope.ts:149-157 -/
def readEnvelopePayload : Option (Json Double) → Except EnvelopeError (Members Double)
  | none | some .null => .ok []
  | some (.obj ms) => .ok ms
  | some (.arr _) => .error (.payload (units "array"))
  | some (.str _) => .error (.payload (units "string"))
  | some (.num _) => .error (.payload (units "number"))
  | some (.bool _) => .error (.payload (units "boolean"))

/-- `Number.isInteger`: a double is an integer exactly when its shortest decimal is. -/
def isInteger (d : Double) : Bool := decide (0 ≤ d.1.exp)

/-- `version > ENVELOPE_VERSION`, for an integer version -/
def isNewer (d : Double) : Bool := !d.1.neg && decide (1 < d.1.coeff * 10 ^ d.1.exp.toNat)

/-- mirrors nats-envelope.ts:161-177; the warning comes first -/
def readEnvelopeVersion (raw : Option (Json Double)) :
    Option Double × Except EnvelopeError Double :=
  let rawVersion : Json Double := match raw with
    | none | some .null => .num ENVELOPE_VERSION
    | some v => v
  match rawVersion with
  | .num d =>
    if isInteger d then (if isNewer d then some d else none, .ok d)
    else (none, .error (.version rawVersion))
  | _ => (none, .error (.version rawVersion))

/-- mirrors nats-envelope.ts:187-199 -/
def readFields (record payload : Members Double) (version : Double) :
    Except EnvelopeError FleetEnvelope := do
  let id ← requireEnvelopeString (units "id") (record.get? (units "id"))
  let ts ← requireEnvelopeString (units "ts") (record.get? (units "ts"))
  let «from» ← requireEnvelopeString (units "from") (record.get? (units "from"))
  let kind ← requireEnvelopeString (units "kind") (record.get? (units "kind"))
  return {
    id := id
    ts := ts
    «from» := «from»
    kind := kind
    payload := payload
    «to» := optEnvelopeString (record.get? (units "to"))
    task_id := optEnvelopeString (record.get? (units "task_id"))
    channel := optEnvelopeString (record.get? (units "channel"))
    topic := optEnvelopeString (record.get? (units "topic"))
    correlation_id := optEnvelopeString (record.get? (units "correlation_id"))
    version := version }

/-- mirrors nats-envelope.ts:179-200: the version that was warned about and the result -/
def envelopeFromBytes (raw : List UInt8) : Option Double × Except EnvelopeError FleetEnvelope :=
  match decodeEnvelopeRecord raw with
  | .error e => (none, .error e)
  | .ok record =>
    match readEnvelopePayload (record.get? (units "payload")) with
    | .error e => (none, .error e)
    | .ok payload =>
      match readEnvelopeVersion (record.get? (units "version")) with
      | (warned, .error e) => (warned, .error e)
      | (warned, .ok version) => (warned, readFields record payload version)

/-! ## Round trip -/

/-- An envelope whose payload is an object and whose names are not empty. -/
structure FleetEnvelope.Valid (e : FleetEnvelope) : Prop where
  id : e.id ≠ []
  «from» : e.«from» ≠ []
  kind : e.kind ≠ []
  payload : Ecma.Value (.obj e.payload)

theorem buildEnvelope_valid {input : BuildEnvelopeInput} {e : FleetEnvelope}
    (h : buildEnvelope input = .ok e) : e.Valid := by
  unfold buildEnvelope assertEnvelopeIdentity at h
  split at h
  · cases h
  split at h
  · cases h
  split at h
  · cases h
  rename_i hid hfrom hkind
  cases h
  refine ⟨by simpa using hid, by simpa using hfrom, by simpa using hkind, ?_⟩
  cases hp : input.payload with
  | none => exact ⟨⟨List.nodup_nil, List.Pairwise.nil⟩, trivial⟩
  | some p => exact p.2

theorem optString_all {p : Json Double → Prop} (hnull : p .null) (hstr : ∀ s, p (.str s))
    (x : Option Str) : (optString x).All p := by
  cases x with
  | none => exact hnull
  | some s => exact hstr s

theorem body_value {e : FleetEnvelope} (h : e.Valid) : Ecma.Value (.obj (body e)) := by
  have hopt := optString_all (p := Json.Keys fun ks => ks.Nodup ∧ Ecma.InOrder ks) trivial
    fun _ => trivial
  refine ⟨?_, trivial, trivial, trivial, trivial, h.payload, hopt _, hopt _, hopt _, hopt _,
    hopt _, trivial, trivial⟩
  show bodyKeys.Nodup ∧ Ecma.InOrder bodyKeys
  decide

/-- The body as it is read back: negative zeros have become zeros. -/
theorem decodeEnvelopeRecord_bytes {e : FleetEnvelope} (h : e.Valid) :
    decodeEnvelopeRecord (envelopeToBytes e) =
      .ok (Json.mapMembers Ecma.unsigned (body e)) := by
  have hpair := wellPaired_print Ecma.paired (.obj (body e))
  have hdec : Utf8.decode (envelopeToBytes e) = Ecma.json.print (.obj (body e)) :=
    Utf8.decode_encode (by decide) hpair
  unfold decodeEnvelopeRecord
  rw [hdec, Ecma.parse_print _ (body_value h)]
  rfl

theorem optEnvelopeString_optString (x : Option Str) :
    optEnvelopeString (some ((optString x).map Ecma.unsigned)) = x := by
  cases x <;> rfl

theorem requireEnvelopeString_str (field s : Str) :
    requireEnvelopeString field (some (.str s)) =
      if s = [] then .error (.required field) else .ok s := by
  unfold requireEnvelopeString
  cases s <;> simp

theorem readEnvelopeVersion_num (d : Double) :
    (readEnvelopeVersion (some (.num d))).2 =
      if isInteger d = true then .ok d else .error (.version (.num d)) := by
  unfold readEnvelopeVersion
  by_cases h : isInteger d = true <;> simp [h]

theorem isInteger_unsigned (d : Double) : isInteger (Ecma.unsigned d) = isInteger d := by
  by_cases hc : d.1.coeff = 0
  · rcases d.1.normal with h | h
    · simp [Ecma.unsigned, hc, isInteger, h.2, Dec.make]
    · rw [hc] at h
      exact absurd rfl h
  · simp [Ecma.unsigned, hc]

/-- What a built envelope reads back as. -/
theorem fromBytes_toBytes_eq {e : FleetEnvelope} (h : e.Valid) :
    (envelopeFromBytes (envelopeToBytes e)).2 =
      if isInteger e.version = false then .error (.version (.num (Ecma.unsigned e.version)))
      else if e.ts = [] then .error (.required (units "ts"))
      else .ok { e with payload := Json.mapMembers Ecma.unsigned e.payload
                        version := Ecma.unsigned e.version } := by
  have hpayload : (Json.mapMembers Ecma.unsigned (body e)).get? (units "payload") =
    some (.obj (Json.mapMembers Ecma.unsigned e.payload)) := rfl
  have hversion : (Json.mapMembers Ecma.unsigned (body e)).get? (units "version") =
    some (.num (Ecma.unsigned e.version)) := rfl
  have hfields : readFields (Json.mapMembers Ecma.unsigned (body e))
      (Json.mapMembers Ecma.unsigned e.payload) (Ecma.unsigned e.version) =
      if e.ts = [] then .error (.required (units "ts"))
      else .ok { e with payload := Json.mapMembers Ecma.unsigned e.payload
                        version := Ecma.unsigned e.version } := by
    have hopt : ∀ x : Option Str, optEnvelopeString (some ((optString x).map Ecma.unsigned)) = x :=
      optEnvelopeString_optString
    have hid : requireEnvelopeString (units "id") ((Json.mapMembers Ecma.unsigned (body e)).get?
        (units "id")) = .ok e.id := (requireEnvelopeString_str _ _).trans (if_neg h.id)
    have hts : requireEnvelopeString (units "ts") ((Json.mapMembers Ecma.unsigned (body e)).get?
        (units "ts")) = if e.ts = [] then .error (.required (units "ts")) else .ok e.ts :=
      requireEnvelopeString_str _ _
    have hfrom : requireEnvelopeString (units "from") ((Json.mapMembers Ecma.unsigned
        (body e)).get? (units "from")) = .ok e.«from» :=
      (requireEnvelopeString_str _ _).trans (if_neg h.«from»)
    have hkind : requireEnvelopeString (units "kind") ((Json.mapMembers Ecma.unsigned
        (body e)).get? (units "kind")) = .ok e.kind :=
      (requireEnvelopeString_str _ _).trans (if_neg h.kind)
    have hto : optEnvelopeString ((Json.mapMembers Ecma.unsigned (body e)).get? (units "to")) =
      e.«to» := hopt e.«to»
    have htask : optEnvelopeString ((Json.mapMembers Ecma.unsigned (body e)).get?
      (units "task_id")) = e.task_id := hopt e.task_id
    have hchannel : optEnvelopeString ((Json.mapMembers Ecma.unsigned (body e)).get?
      (units "channel")) = e.channel := hopt e.channel
    have htopic : optEnvelopeString ((Json.mapMembers Ecma.unsigned (body e)).get?
      (units "topic")) = e.topic := hopt e.topic
    have hcorr : optEnvelopeString ((Json.mapMembers Ecma.unsigned (body e)).get?
      (units "correlation_id")) = e.correlation_id := hopt e.correlation_id
    unfold readFields
    rw [hid, hts, hfrom, hkind, hto, htask, hchannel, htopic, hcorr]
    split <;> rfl
  have hread := readEnvelopeVersion_num (Ecma.unsigned e.version)
  rw [isInteger_unsigned] at hread
  unfold envelopeFromBytes
  rw [decodeEnvelopeRecord_bytes h]
  simp only [hpayload, readEnvelopePayload, hversion]
  cases hv : readEnvelopeVersion (some (Json.num (Ecma.unsigned e.version))) with
  | mk warned result =>
    rw [hv] at hread
    cases hint : isInteger e.version with
    | true =>
      simp only [hint, ↓reduceIte] at hread
      subst hread
      simpa using hfields
    | false =>
      simp only [hint, Bool.false_eq_true, ↓reduceIte] at hread
      subst hread
      rfl

/-- A built envelope comes back exactly when it has a timestamp, an integer
version and no negative zero. -/
theorem fromBytes_toBytes {e : FleetEnvelope} (h : e.Valid) :
    (envelopeFromBytes (envelopeToBytes e)).2 = .ok e ↔
      e.ts ≠ [] ∧ isInteger e.version = true ∧ Ecma.NotNegZero e.version ∧
        Json.AllMembers (Json.Num Ecma.NotNegZero) e.payload := by
  have hpayload : Json.mapMembers Ecma.unsigned e.payload = e.payload ↔
      Json.AllMembers (Json.Num Ecma.NotNegZero) e.payload := by
    have := Ecma.map_unsigned_iff (.obj e.payload)
    simpa [Json.map, Json.All, Json.Num] using this
  rw [fromBytes_toBytes_eq h, ← hpayload, ← Ecma.unsigned_eq_self_iff]
  cases hint : isInteger e.version with
  | false => simp
  | true =>
    by_cases hts : e.ts = []
    · simp [hts]
    · simp only [Bool.true_eq_false, ↓reduceIte, hts, Except.ok.injEq, not_false_eq_true, ne_eq,
        true_and]
      constructor
      · intro heq
        exact ⟨congrArg FleetEnvelope.version heq, congrArg FleetEnvelope.payload heq⟩
      · intro ⟨hv, hp⟩
        rw [hv, hp]

end OpenBrain.Nats.Envelope
