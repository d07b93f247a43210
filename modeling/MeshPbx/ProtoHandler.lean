import MeshPbx.Platform

/-! Routing information extracted from decoded messages, and the encoders of
the messages the proxy synthesizes. -/
namespace MeshPbx

/-- `struct fromradio_info`; the payload length is that of `payloadBytes`. -/
structure FromradioInfo where
  whichVariant : FromRadioTag := .unset
  packetFrom : UInt32 := 0
  packetTo : UInt32 := 0
  isDecoded : Bool := false
  portnum : UInt32 := 0
  payloadBytes : Bytes := []
  deriving DecidableEq, Repr

structure ToradioInfo where
  hasWantConfig : Bool := false
  wantConfigId : UInt32 := 0
  hasDisconnect : Bool := false
  hasHeartbeat : Bool := false
  isPacket : Bool := false
  portnum : UInt32 := 0
  payloadBytes : Bytes := []
  deriving DecidableEq, Repr

/-- `none` is `-EINVAL`. -/
def protoDecodeFromradio (p : Platform) (buf : Bytes) : Option FromradioInfo :=
  (p.decodeFromRadio buf).map fun fromradio =>
    if fromradio.whichPayloadVariant ≠ .packet then
      { whichVariant := fromradio.whichPayloadVariant }
    else if fromradio.packet.whichPayloadVariant ≠ .decoded then
      { whichVariant := fromradio.whichPayloadVariant
        packetFrom := fromradio.packet.fromNode
        packetTo := fromradio.packet.toNode
        isDecoded := false }
    else
      { whichVariant := fromradio.whichPayloadVariant
        packetFrom := fromradio.packet.fromNode
        packetTo := fromradio.packet.toNode
        isDecoded := true
        portnum := fromradio.packet.decoded.portnum
        payloadBytes := fromradio.packet.decoded.payload }

def protoDecodeToradio (p : Platform) (buf : Bytes) : Option ToradioInfo :=
  (p.decodeToRadio buf).map fun toradio =>
    match toradio.whichPayloadVariant with
    | .wantConfigId => { hasWantConfig := true, wantConfigId := toradio.wantConfigId }
    | .disconnect => { hasDisconnect := true }
    | .heartbeat => { hasHeartbeat := true }
    | tag =>
      if tag = .packet ∧ toradio.packet.whichPayloadVariant = .decoded then
        { isPacket := true
          portnum := toradio.packet.decoded.portnum
          payloadBytes := toradio.packet.decoded.payload }
      else {}

/-- `pb_encode` into a stream of `size` bytes: each `pb_write` takes its whole
chunk or fails and leaves the stream as it was. Returns whether every write
succeeded, and the bytes written. -/
def pbEncode (size : Nat) (written : Bytes) : List Bytes → Bool × Bytes
  | [] => (true, written)
  | chunk :: chunks =>
    if written.length + chunk.length ≤ size then pbEncode size (written ++ chunk) chunks
    else (false, written)

/-- The shared tail of the encoders, with the bytes left in the output buffer:
a failure is classified by how much had been written when it happened, and
`out_len` is the number written when there is none. -/
def encodeResult (bufSize : Nat) : Bool × Bytes → Rc × Bytes
  | (true, written) => (none, written)
  | (false, written) =>
    if written.length ≥ bufSize then (some .enomem, written) else (some .einval, written)

/-- `*out_len` after a call that found `outLen` there. -/
def outLenAfter (outLen : UInt16) : Rc × Bytes → UInt16
  | (none, written) => .ofNat written.length
  | (some _, _) => outLen

def protoEncodeConfigComplete (p : Platform) (nonce : UInt32) (bufSize : Nat) : Rc × Bytes :=
  encodeResult bufSize (pbEncode bufSize [] (p.fromRadioChunks
    { whichPayloadVariant := .configCompleteId, configCompleteId := nonce }))

def protoEncodeHeartbeat (p : Platform) (nonce : UInt32) (bufSize : Nat) : Rc × Bytes :=
  encodeResult bufSize (pbEncode bufSize [] (p.toRadioChunks
    { whichPayloadVariant := .heartbeat, heartbeatNonce := nonce }))

def protoEncodeQueueStatus (p : Platform) (bufSize : Nat) : Rc × Bytes :=
  encodeResult bufSize (pbEncode bufSize [] (p.fromRadioChunks
    { whichPayloadVariant := .queueStatus
      queueStatus := { res := 0, free := 16, maxlen := 16, meshPacketId := 0 } }))

theorem pbEncode_fits (size : Nat) (chunks : List Bytes) (written : Bytes)
    (fits : written.length + chunks.flatten.length ≤ size) :
    pbEncode size written chunks = (true, written ++ chunks.flatten) := by
  induction chunks generalizing written with
  | nil => simp [pbEncode]
  | cons chunk chunks ih =>
    simp only [List.flatten_cons, List.length_append] at fits
    rw [pbEncode, if_pos (by omega), ih (written ++ chunk) (by simp only [List.length_append]; omega)]
    simp only [List.flatten_cons, List.append_assoc]

theorem encodeResult_fits (size : Nat) (chunks : List Bytes) (fits : chunks.flatten.length ≤ size) :
    encodeResult size (pbEncode size [] chunks) = (none, chunks.flatten) := by
  rw [pbEncode_fits size chunks [] (by simpa using fits)]
  rfl

section
variable {p : Platform} (documented : p.Documented)
include documented

theorem encode_config_complete (nonce : UInt32) :
    protoEncodeConfigComplete p nonce 16 = (none, p.fromRadioBytes (.configComplete nonce)) :=
  encodeResult_fits 16 _ (documented.complete_fits nonce)

theorem encode_heartbeat (nonce : UInt32) :
    protoEncodeHeartbeat p nonce 16 = (none, p.toRadioBytes (.heartbeat nonce)) :=
  encodeResult_fits 16 _ (documented.heartbeat_fits nonce)

theorem encode_queue_status :
    protoEncodeQueueStatus p 16 = (none, p.fromRadioBytes .syntheticQueueStatus) :=
  encodeResult_fits 16 _ documented.queueStatus_fits

end

@[simp] theorem decode_fromradio_none {p : Platform} {buf : Bytes} :
    protoDecodeFromradio p buf = none ↔ p.decodeFromRadio buf = none := by
  simp [protoDecodeFromradio]

/-- The variant reported for routing is the decoded message's own. -/
theorem decode_fromradio_variant {p : Platform} {buf : Bytes} {info : FromradioInfo}
    (decoded : protoDecodeFromradio p buf = some info) :
    ∃ message, p.decodeFromRadio buf = some message ∧
      message.whichPayloadVariant = info.whichVariant := by
  obtain ⟨message, found, rfl⟩ := Option.map_eq_some_iff.mp decoded
  refine ⟨message, found, ?_⟩
  split_ifs <;> rfl

end MeshPbx
