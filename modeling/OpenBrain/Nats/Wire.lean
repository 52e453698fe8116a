import OpenBrain.Core.JsonObject

/-!
# The Python side of the wire (`nats_wire.py`)

`build_request_envelope` checks the id and the sender and lays out the fleet
envelope; `envelope_to_wire_bytes` writes it. Python reads octets back with
`json.loads` (`Py.loads`), and `loads_envelopeToWireBytes` is that round trip.
-/
namespace OpenBrain.Nats.Wire
open OpenBrain.Core

/-- mirrors nats_wire.py:49 -/
def CONTEXT_PACK_REQUEST_KIND : Str := units "context_pack_request"

/-- mirrors nats_wire.py:54 (`_FLEET_ENVELOPE_VERSION`) -/
def FLEET_ENVELOPE_VERSION : PyNum := .int 1 (by decide +kernel)

/-- A `dict`: distinct keys at every level. -/
def Dict := { ms : Members PyNum // Py.Value (.obj ms) }

/-- The keyword arguments of `build_request_envelope`. -/
structure Request where
  msg_id : Str
  ts : Str
  sender : Str
  correlation_id : Str
  payload : Dict

/-- The keys of the wire dict, in order. -/
def envelopeKeys : List Str := ["id", "ts", "from", "kind", "payload", "to", "task_id", "channel",
  "topic", "correlation_id", "version"].map units

/-- mirrors nats_wire.py:167-198 (`_local_envelope_wire`); the error is the text of
the `ValueError` -/
def localEnvelopeWire (r : Request) : Except Str (Members PyNum) :=
  if r.msg_id.isEmpty then .error (units "Envelope.id must be non-empty")
  else if r.sender.isEmpty then .error (units "Envelope.sender must be non-empty")
  else .ok [
    (units "id", .str r.msg_id),
    (units "ts", .str r.ts),
    (units "from", .str r.sender),
    (units "kind", .str CONTEXT_PACK_REQUEST_KIND),
    (units "payload", .obj r.payload.1),
    (units "to", .null),
    (units "task_id", .null),
    (units "channel", .null),
    (units "topic", .null),
    (units "correlation_id", .str r.correlation_id),
    (units "version", .num FLEET_ENVELOPE_VERSION)]

/-- mirrors nats_wire.py:115-148 -/
def buildRequestEnvelope (r : Request) : Except Str (Members PyNum) := localEnvelopeWire r

/-- mirrors nats_wire.py:151-164; the text is ASCII, so the strict encoder of
Python and `Utf8.encode` agree on it -/
def envelopeToWireBytes (envelope : Members PyNum) : List UInt8 :=
  Utf8.encode (Py.json.print (.obj envelope))

theorem buildRequestEnvelope_ok {r : Request} {env : Members PyNum}
    (h : buildRequestEnvelope r = .ok env) :
    r.msg_id ≠ [] ∧ r.sender ≠ [] ∧ env.map Prod.fst = envelopeKeys := by
  unfold buildRequestEnvelope localEnvelopeWire at h
  split at h
  · cases h
  split at h
  · cases h
  rename_i hid hsender
  cases h
  exact ⟨by simpa using hid, by simpa using hsender, rfl⟩

theorem envelope_value {r : Request} {env : Members PyNum} (h : buildRequestEnvelope r = .ok env) :
    Py.Value (.obj env) := by
  have hkeys := (buildRequestEnvelope_ok h).2.2
  unfold buildRequestEnvelope localEnvelopeWire at h
  split at h
  · cases h
  split at h
  · cases h
  refine ⟨?_, ?_⟩
  · show (env.map Prod.fst).Nodup
    rw [hkeys]
    decide
  · cases h
    exact ⟨trivial, trivial, trivial, trivial, r.payload.2, trivial, trivial, trivial, trivial,
      trivial, trivial, trivial⟩

/-- Python reads back the envelope it wrote. -/
theorem loads_envelopeToWireBytes {r : Request} {env : Members PyNum}
    (h : buildRequestEnvelope r = .ok env) :
    Py.loads (envelopeToWireBytes env) = some (.obj env) :=
  Py.loads_print _ (envelope_value h)

end OpenBrain.Nats.Wire
