import MetaMesh.CanonicalJson
import MetaMesh.Runtime.ControlFrames

/-!
# Pairing frames

`PairingCodec` of `pairing.rs`, with the budgets of `ingress.rs`.  A frame is a JSON header, a
newline and the payload.

How the library reads JSON is given by `PairingJson`; `PairingJson.Reads` says that it reads
what it writes.  A frame that was encoded is decoded under its own type and secret and under
no other (`decode_encode`).
-/

namespace MetaMesh

open Fallible

def pairingVersion : String := "0.0.1"

def maxPairingHeaderBytes : Nat := 4096
def maxRpcFrameBytes : Nat := 16777216
def maxEnrollmentCompletionPayloadBytes : Nat := 256
def maxGossipPayloadBytes : Nat := 262144
def maxAutomergeWirePayloadBytes : Nat := 524288
def maxProofFrameBytes : Nat := 262144

def pairingFrameTypes : List String :=
  ["sync-request", "sync-response", "sync-ack", "sync-update", "sync-heartbeat",
    "sync-heartbeat-ack", "enroll-request", "enroll-approved", "enroll-rejected",
    "enroll-rejected-ack", "enroll-ack", "enroll-complete", "workspace-join-request",
    "workspace-join-response", "workspace-join-rejected-ack", "mesh-handshake-request",
    "mesh-handshake-response", "mesh-handoff-request", "mesh-handoff-ready",
    "mesh-handoff-confirmed", "mesh-automerge-sync", "mesh-proof-request-v1",
    "mesh-proof-page-v1", "mesh-control-sync", "mesh-owner-workspace-offer",
    "mesh-owner-workspace-offer-page-v1", "mesh-owner-reconnect-v1", "mesh-iroh-gossip",
    "mesh-durable-batch", "mesh-durable-ack", "mesh-blob-request-v1", "mesh-blob-response-v1",
    "mesh-blob-error-v1"]

/-- How long a frame may be. -/
structure PairingFrameBudget where
  maxWireBytes : Nat
  maxPayloadBytes : Nat
deriving DecidableEq, Repr

def pairingFrameBudget (frameType : String) : Option PairingFrameBudget :=
  if frameType ∈ ["sync-heartbeat", "sync-heartbeat-ack", "mesh-handoff-request",
      "mesh-handoff-ready", "mesh-handoff-confirmed"] then
    some ⟨maxRpcFrameBytes, 0⟩
  else if frameType = "enroll-complete" then
    some ⟨maxRpcFrameBytes, maxEnrollmentCompletionPayloadBytes⟩
  else if frameType ∈ ["mesh-control-sync", "mesh-owner-workspace-offer-page-v1"] then
    some ⟨maxRpcFrameBytes, maxControlFrameBytes⟩
  else if frameType = "mesh-iroh-gossip" then some ⟨maxRpcFrameBytes, maxGossipPayloadBytes⟩
  else if frameType = "mesh-automerge-sync" then
    some ⟨maxRpcFrameBytes, maxAutomergeWirePayloadBytes⟩
  else if frameType ∈ ["mesh-proof-request-v1", "mesh-proof-page-v1"] then
    some ⟨maxProofFrameBytes, maxProofFrameBytes - 1⟩
  else if frameType ∈ ["sync-request", "sync-response", "sync-ack", "sync-update",
      "enroll-request", "enroll-approved", "enroll-rejected", "enroll-rejected-ack", "enroll-ack",
      "workspace-join-request", "workspace-join-response", "workspace-join-rejected-ack",
      "mesh-handshake-request", "mesh-handshake-response", "mesh-owner-workspace-offer",
      "mesh-owner-reconnect-v1", "mesh-durable-batch", "mesh-durable-ack", "mesh-blob-request-v1",
      "mesh-blob-response-v1", "mesh-blob-error-v1"] then
    some ⟨maxRpcFrameBytes, maxRpcFrameBytes - 1⟩
  else none

/-- The first line of a frame. -/
structure PairingFrameHeader where
  frameType : String
  version : String
  secret : String
deriving DecidableEq, Repr

instance : Serialize PairingFrameHeader where
  toValue header := .object [("type", toValue header.frameType),
    ("version", toValue header.version), ("secret", toValue header.secret)]

/-- `serde_json::to_vec` of a header. -/
def PairingFrameHeader.text (header : PairingFrameHeader) : List UInt8 :=
  (toValue header).toVec

/-- How the library reads JSON texts: as a value, and as a header. -/
structure PairingJson where
  fromSlice : List UInt8 → Option Value
  readHeader : List UInt8 → Option PairingFrameHeader

/-- The text of `{"error": message}`. -/
def errorText (message : String) : List UInt8 :=
  (Value.object [("error", .string message)]).toVec

/-- The library reads the headers and the errors it writes. -/
structure PairingJson.Reads (json : PairingJson) : Prop where
  header : ∀ header : PairingFrameHeader, json.readHeader header.text = some header
  error : ∀ message, json.fromSlice (errorText message) =
    some (.object [("error", .string message)])

namespace PairingCodec

variable (frameType secret : String)

def header : PairingFrameHeader :=
  ⟨frameType, pairingVersion, secret⟩

/-- What the header leaves for a payload of this type. -/
def pairingPayloadLimit : Except String Nat := do
  let budget ← okOr (pairingFrameBudget frameType) "Pairing frame invalid"
  let headerBytes := (header frameType secret).text.length + 1
  refuse (maxPairingHeaderBytes < headerBytes ∨ budget.maxWireBytes < headerBytes)
    ("Pairing header exceeds ingress limit: kind=" ++ frameType ++ " bytes=" ++
      toString headerBytes ++ " max=" ++ toString maxPairingHeaderBytes)
  .ok (min budget.maxPayloadBytes (budget.maxWireBytes - headerBytes))

def encode (payload : List UInt8) : Except String (List UInt8) := do
  let budget ← okOr (pairingFrameBudget frameType) "Pairing frame invalid"
  refuse (secret = "") "Pairing frame invalid"
  let payloadLimit ← pairingPayloadLimit frameType secret
  refuse (payloadLimit < payload.length)
    ("Pairing payload too large: kind=" ++ frameType ++ " bytes=" ++ toString payload.length ++
      " max=" ++ toString payloadLimit)
  let frame := (header frameType secret).text
  refuse (maxPairingHeaderBytes < frame.length + 1)
    ("Pairing header too large: kind=" ++ frameType ++ " bytes=" ++ toString (frame.length + 1) ++
      " max=" ++ toString maxPairingHeaderBytes)
  refuse (budget.maxWireBytes < frame.length + 1 + payload.length)
    ("Pairing frame too large: kind=" ++ frameType ++ " bytes=" ++
      toString (frame.length + 1 + payload.length) ++ " max=" ++ toString budget.maxWireBytes)
  .ok (frame ++ 10 :: payload)

/-- The header of a frame and its payload, within the budgets. -/
def readFrame (json : PairingJson) (stage : String) (frame : List UInt8) :
    Except String (PairingFrameHeader × List UInt8) := do
  refuse (maxRpcFrameBytes < frame.length)
    ("Pairing frame too large: stage=" ++ stage ++ " bytes=" ++ toString frame.length ++ " max=" ++
      toString maxRpcFrameBytes)
  let separator ← okOr ((frame.take maxPairingHeaderBytes).findIdx? (· = 10))
    ("Pairing header missing or too large: stage=" ++ stage ++ " bytes=" ++
      toString (min frame.length maxPairingHeaderBytes) ++ " max=" ++
      toString maxPairingHeaderBytes)
  let header ← okOr (json.readHeader (frame.take separator)) "Pairing frame invalid"
  let budget ← okOr (pairingFrameBudget header.frameType) "Pairing frame invalid"
  refuse (budget.maxWireBytes < frame.length)
    ("Pairing frame too large: kind=" ++ header.frameType ++ " bytes=" ++ toString frame.length ++
      " max=" ++ toString budget.maxWireBytes)
  refuse (budget.maxPayloadBytes < frame.length - (separator + 1))
    ("Pairing payload too large: kind=" ++ header.frameType ++ " bytes=" ++
      toString (frame.length - (separator + 1)) ++ " max=" ++ toString budget.maxPayloadBytes)
  .ok (header, frame.drop (separator + 1))

/-- The header of a frame of any known type. -/
def inspect (json : PairingJson) (frame : List UInt8) : Except String PairingFrameHeader := do
  let (header, _) ← readFrame json "inspect" frame
  refuse (header.version ≠ pairingVersion ∨ header.secret = "" ∨
    header.frameType ∉ pairingFrameTypes) "Pairing frame invalid"
  .ok header

/-- The payload, for the expected type and secret. -/
def decode (json : PairingJson) (frame : List UInt8) (expectedType expectedSecret : String) :
    Except String (List UInt8) := do
  let (header, payload) ← readFrame json "decode" frame
  refuse (header.frameType ≠ expectedType ∨ header.version ≠ pairingVersion ∨
    header.secret ≠ expectedSecret) "Pairing authorization failed"
  .ok payload

end PairingCodec

/-! ## What is encoded is decoded -/

set_option maxRecDepth 10000 in
/-- The text of a string is on one line. -/
theorem newline_not_mem_quote (s : String) : (10 : UInt8) ∉ quote s := by
  have each : ∀ n : Fin 256, (10 : UInt8) ∉ escapeByte (UInt8.ofNat n) := by decide
  have escaped : ∀ b : UInt8, (10 : UInt8) ∉ escapeByte b := by
    intro b
    have here := each ⟨b.toNat, b.toNat_lt⟩
    rwa [UInt8.ofNat_toNat] at here
  simp [quote, escaped]

theorem newline_not_mem_text (header : PairingFrameHeader) : (10 : UInt8) ∉ header.text := by
  have names : (10 : UInt8) ∉ quote "type" ∧ (10 : UInt8) ∉ quote "version" ∧
      (10 : UInt8) ∉ quote "secret" :=
    ⟨newline_not_mem_quote _, newline_not_mem_quote _, newline_not_mem_quote _⟩
  simp [PairingFrameHeader.text, toValue, Value.toVec, bracketed, fieldVecs, fieldText,
    List.intercalate, List.intersperse, names, newline_not_mem_quote]

/-- The separator of a frame is the first newline. -/
theorem findIdx?_separator {text : List UInt8} (payload : List UInt8) {limit : Nat}
    (oneLine : (10 : UInt8) ∉ text) (within : text.length < limit) :
    ((text ++ 10 :: payload).take limit).findIdx? (· = 10) = some text.length := by
  obtain ⟨rest, isLimit⟩ := Nat.exists_eq_add_of_lt within
  have none : text.findIdx? (· = 10) = none := by
    rw [List.findIdx?_eq_none_iff]
    intro b held
    simpa using fun isNewline : b = 10 => oneLine (isNewline ▸ held)
  rw [isLimit, Nat.add_assoc, List.take_length_add_append, List.take_succ_cons,
    List.findIdx?_append, none]
  simp [List.findIdx?_cons]

namespace PairingCodec

variable {json : PairingJson} {frameType secret : String} {payload frame : List UInt8}

/-- What an encoded frame is. -/
theorem encode_ok : encode frameType secret payload = .ok frame ↔
    ∃ budget, pairingFrameBudget frameType = some budget ∧ secret ≠ "" ∧
      (header frameType secret).text.length + 1 ≤ maxPairingHeaderBytes ∧
      (header frameType secret).text.length + 1 + payload.length ≤ budget.maxWireBytes ∧
      payload.length ≤ budget.maxPayloadBytes ∧
      frame = (header frameType secret).text ++ 10 :: payload := by
  unfold encode pairingPayloadLimit
  simp only [↓refuse_bind_ok, bind_ok, okOr_ok, Except.ok.injEq, not_lt]
  constructor
  · rintro ⟨budget, isBudget, named, _, ⟨_, isBudget', _, rfl⟩, small, short, wire, rfl⟩
    obtain rfl := Option.mem_unique isBudget isBudget'
    exact ⟨budget, isBudget, named, by omega, by omega, by omega, rfl⟩
  · rintro ⟨budget, isBudget, named, short, wire, small, rfl⟩
    exact ⟨budget, isBudget, named, _, ⟨budget, isBudget, by omega, rfl⟩, by omega, by omega,
      by omega, rfl⟩

/-- No budget is above that of a frame. -/
theorem budget_le {budget : PairingFrameBudget}
    (isBudget : pairingFrameBudget frameType = some budget) :
    budget.maxWireBytes ≤ maxRpcFrameBytes := by
  unfold pairingFrameBudget at isBudget
  split_ifs at isBudget
  all_goals
    obtain rfl := Option.some.inj isBudget
    decide

variable (reads : json.Reads) (encoded : encode frameType secret payload = .ok frame)
include reads encoded

theorem readFrame_encode (stage : String) :
    readFrame json stage frame = .ok (header frameType secret, payload) := by
  obtain ⟨budget, isBudget, _, short, wire, small, rfl⟩ := encode_ok.mp encoded
  have ceiling := budget_le isBudget
  have length : ((header frameType secret).text ++ 10 :: payload).length =
      (header frameType secret).text.length + 1 + payload.length := by
    simp only [List.length_append, List.length_cons]
    omega
  have separator := findIdx?_separator payload
    (newline_not_mem_text (header frameType secret)) (Nat.lt_of_succ_le short)
  refine refuse_bind_ok.mpr ⟨by omega, bind_ok.mpr ⟨_, okOr_ok.mpr separator, ?_⟩⟩
  rw [List.take_left]
  refine bind_ok.mpr ⟨_, okOr_ok.mpr (reads.header _), ?_⟩
  refine bind_ok.mpr ⟨budget, okOr_ok.mpr isBudget, ?_⟩
  refine refuse_bind_ok.mpr ⟨by omega, refuse_bind_ok.mpr ⟨by omega, ?_⟩⟩
  rw [List.drop_length_add_append]
  rfl

omit reads in
theorem mem_pairingFrameTypes : frameType ∈ pairingFrameTypes := by
  obtain ⟨_, isBudget, _⟩ := encode_ok.mp encoded
  unfold pairingFrameBudget at isBudget
  split_ifs at isBudget with first second third fourth fifth sixth last
  · exact (by decide : _ ⊆ pairingFrameTypes) first
  · simp [second, pairingFrameTypes]
  · exact (by decide : _ ⊆ pairingFrameTypes) third
  · simp [fourth, pairingFrameTypes]
  · simp [fifth, pairingFrameTypes]
  · exact (by decide : _ ⊆ pairingFrameTypes) sixth
  · exact (by decide : _ ⊆ pairingFrameTypes) last

theorem inspect_encode : inspect json frame = .ok (header frameType secret) := by
  obtain ⟨_, _, named, _⟩ := encode_ok.mp encoded
  refine bind_ok.mpr ⟨_, readFrame_encode reads encoded "inspect", ?_⟩
  exact refuse_bind_ok.mpr ⟨by simp [header, named, mem_pairingFrameTypes encoded], rfl⟩

/-- A frame is decoded under its own type, and under no other. -/
theorem decode_encode (expectedType : String) : decode json frame expectedType secret =
      if frameType = expectedType then .ok payload else .error "Pairing authorization failed" := by
  unfold decode
  rw [readFrame_encode reads encoded "decode", ok_bind]
  by_cases same : frameType = expectedType <;> simp [refuse, header, same]

omit reads encoded

/-- What is decoded stands behind a header, within the budgets of its type. -/
theorem decode_ok {expectedType expectedSecret : String}
    (decoded : decode json frame expectedType expectedSecret = .ok payload) :
    ∃ text budget, pairingFrameBudget expectedType = some budget ∧ frame = text ++ 10 :: payload ∧
      text.length + 1 ≤ maxPairingHeaderBytes ∧ frame.length ≤ budget.maxWireBytes ∧
      payload.length ≤ budget.maxPayloadBytes := by
  obtain ⟨_, read, decoded⟩ := bind_ok.mp decoded
  obtain ⟨expected, decoded⟩ := refuse_bind_ok.mp decoded
  obtain ⟨_, read⟩ := refuse_bind_ok.mp read
  obtain ⟨separator, found, read⟩ := bind_ok.mp read
  obtain ⟨_, _, read⟩ := bind_ok.mp read
  obtain ⟨budget, isBudget, read⟩ := bind_ok.mp read
  obtain ⟨wire, read⟩ := refuse_bind_ok.mp read
  obtain ⟨small, read⟩ := refuse_bind_ok.mp read
  obtain rfl := Except.ok.inj read
  obtain rfl := Except.ok.inj decoded
  simp only [not_or, not_not] at expected
  rw [okOr_ok, expected.1] at isBudget
  obtain ⟨inside, isNewline, _⟩ := List.findIdx?_eq_some_iff_getElem.mp (okOr_ok.mp found)
  rw [List.length_take] at inside
  simp only [List.getElem_take, decide_eq_true_eq] at isNewline
  refine ⟨frame.take separator, budget, isBudget, ?_, ?_, not_lt.mp wire, ?_⟩
  · rw [← isNewline, ← List.drop_eq_getElem_cons, List.take_append_drop]
  · rw [List.length_take]
    omega
  · rw [List.length_drop]
    exact not_lt.mp small

end PairingCodec

/-! ## A library that reads what it writes -/

namespace Sample

/-- The text of a header tells the header. -/
theorem text_injective : Function.Injective PairingFrameHeader.text := by
  have plain : ∀ header : PairingFrameHeader, (toValue header).PlainNumbers := by
    intro header
    refine .object fun field held => ?_
    simp only [List.mem_cons, List.not_mem_nil, or_false] at held
    rcases held with rfl | rfl | rfl <;> exact .string _
  intro left right same
  have same := eq_of_toVec_eq (plain left) (plain right) same
  cases left
  cases right
  simpa [toValue] using same

open Classical in
/-- Reads exactly the texts that are written. -/
noncomputable def pairingJson : PairingJson where
  fromSlice text := if written : ∃ v : JsonValue, v.1.toVec = text then some written.choose.1
    else none
  readHeader text := if written : ∃ header : PairingFrameHeader, header.text = text then
    some written.choose else none

theorem pairingJson_reads : pairingJson.Reads := by
  constructor
  · intro header
    have written : ∃ other : PairingFrameHeader, other.text = header.text := ⟨header, rfl⟩
    exact (dif_pos written).trans (congrArg some (text_injective written.choose_spec))
  · intro message
    have good : (Value.object [("error", .string message)]).wellFormed = true :=
      wellFormed_object_iff.mpr ⟨List.pairwise_singleton _ _, by simp [Value.wellFormed]⟩
    have written : ∃ v : JsonValue, v.1.toVec = errorText message := ⟨⟨_, good⟩, rfl⟩
    have same := toVec_injective written.choose.2 good written.choose_spec
    exact (dif_pos written).trans (congrArg some same)

end Sample

open PairingCodec Sample

/-- Frames are read as they were written, each is the frame of one type, secret and payload,
and what is decoded is within the budgets of its type. -/
theorem pairing_frames_decode {json : PairingJson} (reads : json.Reads) :
    (∀ frameType secret payload frame, encode frameType secret payload = .ok frame →
      inspect json frame = .ok ⟨frameType, pairingVersion, secret⟩ ∧
        decode json frame frameType secret = .ok payload) ∧
    (∀ frameType secret payload frameType' secret' payload' frame,
      encode frameType secret payload = .ok frame →
      encode frameType' secret' payload' = .ok frame →
        (frameType, secret, payload) = (frameType', secret', payload')) ∧
    ∀ frame expectedType expectedSecret payload,
      decode json frame expectedType expectedSecret = .ok payload →
        ∃ text budget, pairingFrameBudget expectedType = some budget ∧
          frame = text ++ 10 :: payload ∧ text.length + 1 ≤ maxPairingHeaderBytes ∧
          frame.length ≤ budget.maxWireBytes ∧ payload.length ≤ budget.maxPayloadBytes := by
  refine ⟨?_, ?_, fun _ _ _ _ decoded => decode_ok decoded⟩
  · intro frameType secret payload frame encoded
    refine ⟨inspect_encode reads encoded, ?_⟩
    rw [decode_encode reads encoded, if_pos rfl]
  · intro frameType secret payload frameType' secret' payload' frame encoded encoded'
    have same := ok_unique (readFrame_encode reads encoded "decode")
      (readFrame_encode reads encoded' "decode")
    simp only [header, Prod.mk.injEq, PairingFrameHeader.mk.injEq] at same
    obtain ⟨⟨rfl, _, rfl⟩, rfl⟩ := same
    rfl

/-- A payload with a newline in it. -/
theorem pairing_frames_decode_sample : ∃ frame, encode "sync-update" "secret" [10, 10] = .ok frame ∧
    decode pairingJson frame "sync-update" "secret" = .ok [10, 10] :=
  ⟨_, rfl, ((pairing_frames_decode pairingJson_reads).1 _ _ _ _ rfl).2⟩

end MetaMesh
