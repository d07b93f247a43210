import MeshPbx.Lib.ByteBuffer

/-! What the firmware is compiled against but does not contain: the decoded
protobuf messages, nanopb's entry points and the GATT attribute helper. The
entry points are parameters; `Platform.Documented` collects the documented
behavior that the firmware's own code relies on. -/
namespace MeshPbx

/-- Non-null `struct bt_conn *`. The stack may hand the same pointer out again
for a later connection. -/
abbrev BtConn := Nat

/-- Negative errno results; a return code is `none` where the source returns 0. -/
inductive Errno where
  | einval | enomem | enoent | emsgsize | eshutdown
  deriving DecidableEq, Repr

abbrev Rc := Option Errno

/-- `k_work_delayable`: the delay in milliseconds of the scheduled expiry, or
`none` while the item is idle. -/
abbrev Delayable := Option Nat

/-- ATT errors returned by the attribute callbacks. -/
inductive AttError where
  | unlikely | invalidOffset | invalidAttributeLen
  deriving DecidableEq, Repr

/-- `meshtastic_FromRadio_*_tag`; `unset` is the zero left by a message that
carries no payload variant, and `other` is any `int` that none of the named tags
has. -/
inductive FromRadioTag where
  | unset | packet | myInfo | nodeInfo | config | logRecord | configCompleteId | rebooted
  | moduleConfig | channel | queueStatus | xmodemPacket | metadata | mqttClientProxyMessage
  | fileInfo | clientNotification | deviceuiConfig | lockdownStatus
  | other (tag : Int)
  deriving DecidableEq, Repr

/-- `meshtastic_ToRadio_*_tag`. -/
inductive ToRadioTag where
  | unset | packet | wantConfigId | disconnect | xmodemPacket | mqttClientProxyMessage | heartbeat
  deriving DecidableEq, Repr

/-- `meshtastic_MeshPacket_*_tag` of the payload oneof. -/
inductive MeshPacketTag where
  | unset | decoded | encrypted
  deriving DecidableEq, Repr

structure Data where
  portnum : UInt32 := 0
  payload : Bytes := []
  deriving DecidableEq, Repr

structure MeshPacket where
  fromNode : UInt32 := 0
  toNode : UInt32 := 0
  whichPayloadVariant : MeshPacketTag := .unset
  decoded : Data := {}
  deriving DecidableEq, Repr

structure QueueStatus where
  res : UInt32 := 0
  free : UInt32 := 0
  maxlen : UInt32 := 0
  meshPacketId : UInt32 := 0
  deriving DecidableEq, Repr

/-- The fields of `meshtastic_FromRadio` the firmware reads or sets; the
defaults are `meshtastic_FromRadio_init_zero`. -/
structure FromRadio where
  whichPayloadVariant : FromRadioTag := .unset
  packet : MeshPacket := {}
  configCompleteId : UInt32 := 0
  queueStatus : QueueStatus := {}
  deriving DecidableEq, Repr

structure ToRadio where
  whichPayloadVariant : ToRadioTag := .unset
  packet : MeshPacket := {}
  wantConfigId : UInt32 := 0
  heartbeatNonce : UInt32 := 0
  deriving DecidableEq, Repr

/-- `pb_decode` of each message type, the sequence of `pb_write` calls that
`pb_encode` makes for a message, the generated `meshtastic_ToRadio_size`, and
`bt_gatt_attr_read` applied to a value, a buffer length and an offset. -/
structure Platform where
  decodeFromRadio : Bytes → Option FromRadio
  decodeToRadio : Bytes → Option ToRadio
  fromRadioChunks : FromRadio → List Bytes
  toRadioChunks : ToRadio → List Bytes
  toRadioSize : Nat
  attrRead : Bytes → Nat → Nat → Except AttError Bytes

namespace Platform
variable (p : Platform)

def fromRadioBytes (message : FromRadio) : Bytes :=
  (p.fromRadioChunks message).flatten

def toRadioBytes (message : ToRadio) : Bytes :=
  (p.toRadioChunks message).flatten

end Platform

def FromRadio.configComplete (nonce : UInt32) : FromRadio :=
  { whichPayloadVariant := .configCompleteId, configCompleteId := nonce }

/-- The benign reply the proxy synthesizes for a phone's heartbeat. -/
def FromRadio.syntheticQueueStatus : FromRadio :=
  { whichPayloadVariant := .queueStatus, queueStatus := { free := 16, maxlen := 16 } }

def ToRadio.wantConfig (nonce : UInt32) : ToRadio :=
  { whichPayloadVariant := .wantConfigId, wantConfigId := nonce }

def ToRadio.heartbeat (nonce : UInt32) : ToRadio :=
  { whichPayloadVariant := .heartbeat, heartbeatNonce := nonce }

/-- Documented behavior of nanopb and of the GATT helper. Each of the four
messages the proxy builds is a tag and one or two varints, so it is never empty
and fits the buffer declared for it; decoding returns the variant encoded; an
attribute read at an offset inside the value returns the bytes from there. -/
structure Platform.Documented (p : Platform) : Prop where
  complete_pos : ∀ nonce, 0 < (p.fromRadioBytes (.configComplete nonce)).length
  complete_fits : ∀ nonce, (p.fromRadioBytes (.configComplete nonce)).length ≤ 16
  complete_variant : ∀ nonce message,
    p.decodeFromRadio (p.fromRadioBytes (.configComplete nonce)) = some message →
      message.whichPayloadVariant = .configCompleteId
  queueStatus_pos : 0 < (p.fromRadioBytes .syntheticQueueStatus).length
  queueStatus_fits : (p.fromRadioBytes .syntheticQueueStatus).length ≤ 16
  queueStatus_variant : ∀ message,
    p.decodeFromRadio (p.fromRadioBytes .syntheticQueueStatus) = some message →
      message.whichPayloadVariant = .queueStatus
  heartbeat_fits : ∀ nonce, (p.toRadioBytes (.heartbeat nonce)).length ≤ 16
  wantConfig_fits : ∀ nonce, (p.toRadioBytes (.wantConfig nonce)).length ≤ p.toRadioSize
  wantConfig_short : ∀ nonce, (p.toRadioBytes (.wantConfig nonce)).length ≤ 16
  wantConfig_decodes : ∀ nonce, p.decodeToRadio (p.toRadioBytes (.wantConfig nonce)) =
    some (.wantConfig nonce)
  heartbeat_decodes : ∀ nonce, p.decodeToRadio (p.toRadioBytes (.heartbeat nonce)) =
    some (.heartbeat nonce)
  attrRead_inside : ∀ value len offset, offset ≤ value.length →
    p.attrRead value len offset = .ok ((value.drop offset).take len)

end MeshPbx
