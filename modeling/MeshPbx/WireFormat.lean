import MeshPbx.Lib.Protobuf
import MeshPbx.Platform

/-! A concrete platform: the protobuf wire format of the messages the firmware
decodes or builds, and the GATT helper's slicing. It satisfies the documented
behavior the other modules assume, so those assumptions are consistent. -/
namespace MeshPbx
namespace WireFormat
open Protobuf

/-- Fold the fields of a message into its record; `none` is a wire-type error. -/
def decodeMessage {α : Type} (field : α → Nat × Value → Option α) (init : α) (input : Bytes) :
    Option α :=
  (fields input).bind fun found => found.foldlM field init

def fixed32Value (bytes : Bytes) : UInt32 :=
  .ofNat (bytes.foldr (fun byte high => byte.toNat + 256 * high) 0)

def dataField (data : Data) : Nat × Value → Option Data
  | (1, .varint n) => some { data with portnum := .ofNat n }
  | (2, .bytes payload) => some { data with payload := payload }
  | (1, _) | (2, _) => none
  | _ => some data

def meshPacketField (packet : MeshPacket) : Nat × Value → Option MeshPacket
  | (1, .fixed32 bytes) => some { packet with fromNode := fixed32Value bytes }
  | (2, .fixed32 bytes) => some { packet with toNode := fixed32Value bytes }
  | (4, .bytes body) => (decodeMessage dataField {} body).map fun data =>
      { packet with whichPayloadVariant := .decoded, decoded := data }
  | (5, .bytes _) => some { packet with whichPayloadVariant := .encrypted }
  | (1, _) | (2, _) | (4, _) | (5, _) => none
  | _ => some packet

def queueStatusField (status : QueueStatus) : Nat × Value → Option QueueStatus
  | (1, .varint n) => some { status with res := .ofNat n }
  | (2, .varint n) => some { status with free := .ofNat n }
  | (3, .varint n) => some { status with maxlen := .ofNat n }
  | (4, .varint n) => some { status with meshPacketId := .ofNat n }
  | (1, _) | (2, _) | (3, _) | (4, _) => none
  | _ => some status

/-- Variants whose body the firmware never looks into. -/
def bodyTag : Nat → Option FromRadioTag
  | 3 => some .myInfo
  | 4 => some .nodeInfo
  | 5 => some .config
  | 6 => some .logRecord
  | 9 => some .moduleConfig
  | 10 => some .channel
  | 12 => some .xmodemPacket
  | 13 => some .metadata
  | 14 => some .mqttClientProxyMessage
  | 15 => some .fileInfo
  | 16 => some .clientNotification
  | 17 => some .deviceuiConfig
  | 18 => some .lockdownStatus
  | _ => none

def fromRadioField (message : FromRadio) : Nat × Value → Option FromRadio
  | (2, .bytes body) => (decodeMessage meshPacketField {} body).map fun packet =>
      { message with whichPayloadVariant := .packet, packet := packet }
  | (7, .varint n) =>
    some { message with whichPayloadVariant := .configCompleteId, configCompleteId := .ofNat n }
  | (8, .varint _) => some { message with whichPayloadVariant := .rebooted }
  | (11, .bytes body) => (decodeMessage queueStatusField {} body).map fun status =>
      { message with whichPayloadVariant := .queueStatus, queueStatus := status }
  | (number, .bytes _) => match bodyTag number with
    | some tag => some { message with whichPayloadVariant := tag }
    | none => if number = 7 ∨ number = 8 then none else some message
  | (number, _) =>
    if number = 2 ∨ number = 11 ∨ (bodyTag number).isSome then none else some message

def heartbeatField (nonce : UInt32) : Nat × Value → Option UInt32
  | (1, .varint n) => some (.ofNat n)
  | (1, _) => none
  | _ => some nonce

def toRadioField (message : ToRadio) : Nat × Value → Option ToRadio
  | (1, .bytes body) => (decodeMessage meshPacketField {} body).map fun packet =>
      { message with whichPayloadVariant := .packet, packet := packet }
  | (3, .varint n) =>
    some { message with whichPayloadVariant := .wantConfigId, wantConfigId := .ofNat n }
  | (4, .varint _) => some { message with whichPayloadVariant := .disconnect }
  | (5, .bytes _) => some { message with whichPayloadVariant := .xmodemPacket }
  | (6, .bytes _) => some { message with whichPayloadVariant := .mqttClientProxyMessage }
  | (7, .bytes body) => (decodeMessage heartbeatField 0 body).map fun nonce =>
      { message with whichPayloadVariant := .heartbeat, heartbeatNonce := nonce }
  | (number, _) => if number ∈ [1, 3, 4, 5, 6, 7] then none else some message

/-- A length-delimited field; every body written here is shorter than 128. -/
def lenField (key : UInt8) (body : Bytes) : List Bytes :=
  [[key], [UInt8.ofNat body.length], body]

/-- A scalar outside a oneof is left out when it is zero. -/
def scalar (key : UInt8) (n : UInt32) : Bytes :=
  if n = 0 then [] else key :: varint n

def queueStatusBody (status : QueueStatus) : Bytes :=
  scalar 0x08 status.res ++ scalar 0x10 status.free ++ scalar 0x18 status.maxlen ++
    scalar 0x20 status.meshPacketId

/-- The firmware builds no other message of this type. -/
def fromRadioChunks (message : FromRadio) : List Bytes :=
  match message.whichPayloadVariant with
  | .configCompleteId => [[0x38], varint message.configCompleteId]
  | .queueStatus => lenField 0x5a (queueStatusBody message.queueStatus)
  | _ => []

def toRadioChunks (message : ToRadio) : List Bytes :=
  match message.whichPayloadVariant with
  | .wantConfigId => [[0x18], varint message.wantConfigId]
  | .heartbeat => lenField 0x3a (scalar 0x08 message.heartbeatNonce)
  | _ => []

end WireFormat

open WireFormat Protobuf

def Platform.wire : Platform where
  decodeFromRadio := decodeMessage fromRadioField {}
  decodeToRadio := decodeMessage toRadioField {}
  fromRadioChunks := WireFormat.fromRadioChunks
  toRadioChunks := WireFormat.toRadioChunks
  toRadioSize := 504
  attrRead := fun value len offset =>
    if offset > value.length then .error .invalidOffset else .ok ((value.drop offset).take len)

namespace WireFormat

theorem complete_bytes (nonce : UInt32) :
    Platform.wire.fromRadioBytes (.configComplete nonce) = 0x38 :: varint nonce := by
  simp [Platform.wire, Platform.fromRadioBytes, fromRadioChunks, FromRadio.configComplete]

theorem want_config_bytes (nonce : UInt32) :
    Platform.wire.toRadioBytes (.wantConfig nonce) = 0x18 :: varint nonce := by
  simp [Platform.wire, Platform.toRadioBytes, toRadioChunks, ToRadio.wantConfig]

theorem heartbeat_bytes (nonce : UInt32) :
    Platform.wire.toRadioBytes (.heartbeat nonce) =
      0x3a :: UInt8.ofNat (scalar 0x08 nonce).length :: scalar 0x08 nonce := by
  simp [Platform.wire, Platform.toRadioBytes, toRadioChunks, ToRadio.heartbeat, lenField]

theorem length_scalar (key : UInt8) (n : UInt32) : (scalar key n).length ≤ 6 := by
  unfold scalar
  split
  · simp
  · have := length_varint n
    simp only [List.length_cons]
    omega

theorem decode_complete (nonce : UInt32) :
    Platform.wire.decodeFromRadio (0x38 :: varint nonce) = some (.configComplete nonce) := by
  have field := fields_varint 0x38 nonce (by decide) (by decide)
  have number : (0x38 : UInt8).toNat / 8 = 7 := by decide
  simp only [Platform.wire, decodeMessage, field, Option.bind_some, List.foldlM_cons,
    List.foldlM_nil, number, fromRadioField, FromRadio.configComplete, bind, pure,
    UInt32.ofNat_toNat]

theorem decode_want_config (nonce : UInt32) :
    Platform.wire.decodeToRadio (0x18 :: varint nonce) = some (.wantConfig nonce) := by
  have field := fields_varint 0x18 nonce (by decide) (by decide)
  have number : (0x18 : UInt8).toNat / 8 = 3 := by decide
  simp only [Platform.wire, decodeMessage, field, Option.bind_some, List.foldlM_cons,
    List.foldlM_nil, number, toRadioField, ToRadio.wantConfig, bind, pure, UInt32.ofNat_toNat]

/-- The body of a heartbeat reads back as its nonce, present or defaulted. -/
theorem decode_heartbeat_body (nonce : UInt32) :
    decodeMessage heartbeatField 0 (scalar 0x08 nonce) = some nonce := by
  unfold scalar
  split
  · rename_i zero
    subst zero
    rfl
  · have field := fields_varint 0x08 nonce (by decide) (by decide)
    have number : (0x08 : UInt8).toNat / 8 = 1 := by decide
    simp only [decodeMessage, field, Option.bind_some, List.foldlM_cons, List.foldlM_nil, number,
      heartbeatField, bind, pure, UInt32.ofNat_toNat]

theorem fields_len (key : UInt8) (body : Bytes) (short : key.toNat < 128)
    (wire : key.toNat % 8 = 2) (bound : body.length < 128) :
    fields (key :: UInt8.ofNat body.length :: body) = some [(key.toNat / 8, .bytes body)] := by
  have byte : (UInt8.ofNat body.length).toNat = body.length := by
    rw [UInt8.toNat_ofNat']
    omega
  have one : readField (key :: UInt8.ofNat body.length :: body) =
      some ((key.toNat / 8, .bytes body), []) := by
    simp only [readField, readVarint, if_pos short, bind, Option.bind_some, wire, byte,
      if_pos bound, Nat.le_refl, if_true, List.take_length, List.drop_length]
  simp only [fields, List.length_cons, fieldsWithin, one, bind, Option.bind_some]

theorem decode_heartbeat (nonce : UInt32) :
    Platform.wire.decodeToRadio (Platform.wire.toRadioBytes (.heartbeat nonce)) =
      some (.heartbeat nonce) := by
  have bound := length_scalar 0x08 nonce
  have field := fields_len 0x3a (scalar 0x08 nonce) (by decide) (by decide) (by omega)
  have number : (0x3a : UInt8).toNat / 8 = 7 := by decide
  rw [heartbeat_bytes]
  simp only [Platform.wire, decodeMessage, field, Option.bind_some, List.foldlM_cons,
    List.foldlM_nil, number, toRadioField, bind, pure]
  rw [show (fields (scalar 8 nonce)).bind (fun found => found.foldlM heartbeatField 0) = some nonce
    from decode_heartbeat_body nonce]
  rfl

end WireFormat

theorem wire_documented : Platform.wire.Documented where
  complete_pos nonce := by simp [complete_bytes]
  complete_fits nonce := by
    have := length_varint nonce
    simp only [complete_bytes, List.length_cons]
    omega
  complete_variant nonce message decoded := by
    rw [complete_bytes, decode_complete] at decoded
    cases decoded
    rfl
  queueStatus_pos := by decide
  queueStatus_fits := by decide
  queueStatus_variant message decoded := by
    have known : Platform.wire.decodeFromRadio (Platform.wire.fromRadioBytes .syntheticQueueStatus) =
        some .syntheticQueueStatus := by decide
    rw [known] at decoded
    cases decoded
    rfl
  heartbeat_fits nonce := by
    have := length_scalar 0x08 nonce
    simp only [heartbeat_bytes, List.length_cons]
    omega
  wantConfig_fits nonce := by
    have := length_varint nonce
    rw [want_config_bytes]
    simp only [List.length_cons, Platform.wire]
    omega
  wantConfig_short nonce := by
    have := length_varint nonce
    simp only [want_config_bytes, List.length_cons]
    omega
  wantConfig_decodes nonce := by rw [want_config_bytes, decode_want_config]
  heartbeat_decodes := decode_heartbeat
  attrRead_inside value len offset inside := by
    simp only [Platform.wire]
    rw [if_neg (by omega)]

end MeshPbx
