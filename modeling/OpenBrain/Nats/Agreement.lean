import OpenBrain.Nats.Wire
import OpenBrain.Nats.Envelope

/-!
# One wire format in two languages

The same request on both sides: Python's `build_request_envelope` and
TypeScript's `buildEnvelope` with the same id, timestamp, sender, correlation id
and JSON payload. The encoders escape differently (`ensure_ascii`), lay out
numbers differently and keep keys in different orders, and only the decoder asks
for a timestamp. `wire_format` says for which requests the octets are the same
and both sides read them back (`Agrees`), and which TypeScript envelopes come
back from their octets at all.
-/
namespace OpenBrain.Nats
open OpenBrain.Core Wire Envelope

/-- The request as `buildEnvelope` is given it. -/
def Wire.Request.input (r : Request) : BuildEnvelopeInput where
  id := r.msg_id
  ts := r.ts
  «from» := r.sender
  kind := CONTEXT_PACK_REQUEST_KIND
  payload := some ⟨Ecma.ofPyObject r.payload.1, ofPy_value _ r.payload.2⟩
  «to» := none
  task_id := none
  channel := none
  topic := none
  correlation_id := some r.correlation_id
  version := none

/-- Strings up to `~` (or unpaired surrogates), numbers both languages lay out
alike, array indices first among the keys of every object, and a timestamp. -/
structure Agrees (r : Request) : Prop where
  msg_id : alike r.msg_id = true
  ts : alike r.ts = true
  sender : alike r.sender = true
  correlation_id : alike r.correlation_id = true
  payload : (Json.obj r.payload.1).All Alike
  ts_ne : r.ts ≠ []

theorem version_alike : alikeNum FLEET_ENVELOPE_VERSION := by decide +kernel

section Both

variable {r : Request} {env : Members PyNum} {e : FleetEnvelope}

theorem env_eq (hp : buildRequestEnvelope r = .ok env) : env = [
    (units "id", .str r.msg_id), (units "ts", .str r.ts), (units "from", .str r.sender),
    (units "kind", .str CONTEXT_PACK_REQUEST_KIND), (units "payload", .obj r.payload.1),
    (units "to", .null), (units "task_id", .null), (units "channel", .null),
    (units "topic", .null), (units "correlation_id", .str r.correlation_id),
    (units "version", .num FLEET_ENVELOPE_VERSION)] := by
  unfold buildRequestEnvelope localEnvelopeWire at hp
  split at hp
  · cases hp
  split at hp
  · cases hp
  · exact (Except.ok.inj hp).symm

theorem built_eq (ht : buildEnvelope r.input = .ok e) :
    e = ⟨r.msg_id, r.ts, r.sender, CONTEXT_PACK_REQUEST_KIND, Ecma.ofPyObject r.payload.1, none,
      none, none, none, some r.correlation_id, ENVELOPE_VERSION⟩ := by
  unfold buildEnvelope assertEnvelopeIdentity at ht
  split at ht
  · cases ht
  split at ht
  · cases ht
  split at ht
  · cases ht
  · exact (Except.ok.inj ht).symm

/-- The TypeScript body is the ECMAScript value of the Python envelope. -/
theorem body_eq_ofPy (hp : buildRequestEnvelope r = .ok env) (ht : buildEnvelope r.input = .ok e) :
    Json.obj (body e) = Ecma.ofPy (.obj env) := by
  have hval := envelope_value hp
  show _ = Json.obj (Ecma.ofPyObject env)
  rw [Ecma.ofPyObject_eq hval.1, Ecma.ordered_eq (by
    rw [Ecma.ofPyInner_keys, (buildRequestEnvelope_ok hp).2.2]
    decide), env_eq hp, built_eq ht]
  have hversion : FLEET_ENVELOPE_VERSION.toDouble = ENVELOPE_VERSION := by decide +kernel
  show Json.obj (body _) = Json.obj (_ :: _ :: _ :: _ :: _ :: _ :: _ :: _ :: _ :: _ ::
    [(units "version", .num FLEET_ENVELOPE_VERSION.toDouble)])
  rw [hversion]
  rfl

theorem bytes_eq_iff (hp : buildRequestEnvelope r = .ok env) (ht : buildEnvelope r.input = .ok e) :
    envelopeToWireBytes env = envelopeToBytes e ↔ alike r.msg_id = true ∧ alike r.ts = true ∧
      alike r.sender = true ∧ alike r.correlation_id = true ∧
      (Json.obj r.payload.1).All Alike := by
  unfold envelopeToWireBytes envelopeToBytes
  rw [body_eq_ofPy hp ht, encode_eq_iff _ (envelope_value hp)]
  have hkeys : (∀ m ∈ env, alike m.1 = true) ∧ Ecma.InOrder (env.map Prod.fst) := by
    have hk := (buildRequestEnvelope_ok hp).2.2
    rw [hk]
    refine ⟨?_, by decide⟩
    intro m hm
    have hall : ∀ k ∈ envelopeKeys, alike k = true := by decide
    exact hall m.1 (hk ▸ List.mem_map_of_mem hm)
  have hkind : alike CONTEXT_PACK_REQUEST_KIND = true := by decide
  have hnode : Alike (.obj env) := hkeys
  show Alike (.obj env) ∧ Json.AllMembers Alike env ↔ _
  rw [env_eq hp]
  constructor
  · intro ⟨_, hid, hts, hsender, _, hpayload, _, _, _, _, hcorr, _⟩
    exact ⟨hid, hts, hsender, hcorr, hpayload⟩
  · intro ⟨hid, hts, hsender, hcorr, hpayload⟩
    refine ⟨?_, hid, hts, hsender, hkind, hpayload, trivial, trivial, trivial, trivial, hcorr,
      version_alike, trivial⟩
    rw [← env_eq hp]
    exact hnode

/-- When the octets agree, the payload has no negative zero, and TypeScript reads
the envelope back as soon as it has a timestamp. -/
theorem fromBytes_of_alike (ht : buildEnvelope r.input = .ok e) (h : (Json.obj r.payload.1).All Alike) :
    (envelopeFromBytes (envelopeToBytes e)).2 = .ok e ↔ r.ts ≠ [] := by
  have hnz := ofPy_notNegZero _ r.payload.2 h
  rw [fromBytes_toBytes (buildEnvelope_valid ht), built_eq ht]
  constructor
  · intro ⟨hts, _⟩
    exact hts
  · intro hts
    have hint : isInteger ENVELOPE_VERSION = true := by decide
    have hzero : Ecma.NotNegZero ENVELOPE_VERSION := by decide
    exact ⟨hts, hint, hzero, hnz.2⟩

end Both

/-- The octets agree and both sides read them back exactly for the requests of
`Agrees`; a TypeScript envelope comes back from its octets exactly when it has a
timestamp, an integer version and no negative zero. -/
theorem wire_format {r : Request} {env : Members PyNum} {e : FleetEnvelope}
    (hp : buildRequestEnvelope r = .ok env) (ht : buildEnvelope r.input = .ok e)
    {input : BuildEnvelopeInput} {other : FleetEnvelope} (hi : buildEnvelope input = .ok other) :
    ((envelopeToWireBytes env = envelopeToBytes e ∧
      Py.loads (envelopeToWireBytes env) = some (.obj env) ∧
      (envelopeFromBytes (envelopeToBytes e)).2 = .ok e) ↔ Agrees r) ∧
    ((envelopeFromBytes (envelopeToBytes other)).2 = .ok other ↔
      other.ts ≠ [] ∧ isInteger other.version = true ∧ Ecma.NotNegZero other.version ∧
        Json.AllMembers (Json.Num Ecma.NotNegZero) other.payload) := by
  refine ⟨?_, fromBytes_toBytes (buildEnvelope_valid hi)⟩
  rw [bytes_eq_iff hp ht]
  constructor
  · intro ⟨⟨hid, hts, hsender, hcorr, hpayload⟩, _, hback⟩
    exact ⟨hid, hts, hsender, hcorr, hpayload, (fromBytes_of_alike ht hpayload).mp hback⟩
  · intro h
    exact ⟨⟨h.msg_id, h.ts, h.sender, h.correlation_id, h.payload⟩, loads_envelopeToWireBytes hp,
      (fromBytes_of_alike ht h.payload).mpr h.ts_ne⟩

def sampleLimit : PyNum := .int 5 (by decide +kernel)
def sampleScore : PyNum := .float ⟨Dec.make false 5 (-1), by decide +kernel⟩

/-- `limit` 5 and `score` 0.5 -/
def samplePayload : Dict :=
  ⟨[(units "limit", .num sampleLimit), (units "score", .num sampleScore)],
    (by decide : [units "limit", units "score"].Nodup), trivial, trivial, trivial⟩

def sampleRequest (correlation_id : Str) : Request :=
  ⟨units "m1", units "2026-08-04T00:00:00Z", units "ob", correlation_id, samplePayload⟩

theorem wire_format_ascii : ∃ env e, buildRequestEnvelope (sampleRequest (units "c1")) = .ok env ∧
    buildEnvelope (sampleRequest (units "c1")).input = .ok e ∧
    envelopeToWireBytes env = envelopeToBytes e ∧
    (envelopeFromBytes (envelopeToBytes e)).2 = .ok e := by
  refine ⟨_, _, rfl, rfl, ?_⟩
  have hpayload : (Json.obj samplePayload.1).All Alike :=
    ⟨(by decide : (∀ k ∈ [units "limit", units "score"], alike k = true) ∧
      Ecma.InOrder [units "limit", units "score"]).imp
        (fun h m hm => h m.1 (List.mem_map_of_mem hm)) id,
      (by decide +kernel : alikeNum sampleLimit), (by decide +kernel : alikeNum sampleScore),
      trivial⟩
  obtain ⟨hbytes, -, hback⟩ := (wire_format (r := sampleRequest (units "c1"))
    rfl rfl (show buildEnvelope (sampleRequest (units "c1")).input = _ from rfl)).1.mpr
    ⟨by decide, by decide, by decide, by decide, hpayload, by decide⟩
  exact ⟨hbytes, hback⟩

/-- `é` is escaped by Python and written as it stands by TypeScript. -/
theorem wire_format_differs : ∃ env e,
    buildRequestEnvelope (sampleRequest [0xE9]) = .ok env ∧
    buildEnvelope (sampleRequest [0xE9]).input = .ok e ∧
    envelopeToWireBytes env ≠ envelopeToBytes e :=
  ⟨_, _, rfl, rfl, by decide +kernel⟩

end OpenBrain.Nats
