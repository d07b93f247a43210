import MeshPbx.ConfigCache
import MeshPbx.ProtoHandler
import MeshPbx.ProxyProtocol
import MeshPbx.Lib.RingQueue
import Mathlib.Data.List.FinRange

/-! The GATT server: one slot per phone with its packet queue, its replay
cursor and its staging buffer. The slot table has `n` entries
(CONFIG_BT_MAX_CONN), and calls into the BLE stack are logged in order. -/
namespace MeshPbx

def FROMRADIO_QUEUE_DEPTH : Nat := 16
def FROMRADIO_MAX_PKT_SIZE : Nat := 512
def TEARDOWN_DELAY_MS : Nat := 250

instance : NeZero FROMRADIO_QUEUE_DEPTH := ⟨by decide⟩

inductive PhoneState where
  | connected | awaitWantConfig | pending | replaying | active
  deriving DecidableEq, Repr

structure PktEntry where
  data : ByteBuffer
  len : Nat

def PktEntry.bytes (entry : PktEntry) : Bytes := entry.data.read 0 entry.len

structure ProxyConn where
  conn : Option BtConn
  proxyId : ProxyId
  fromnum : UInt32
  state : PhoneState
  leaving : Bool
  nonce : UInt32
  replayCursor : Nat
  ccFrame : ByteBuffer
  ccLen : Nat
  queue : RingQueue PktEntry FROMRADIO_QUEUE_DEPTH
  staged : ByteBuffer
  stagedLen : Nat
  teardownWork : Delayable

def ProxyConn.zero : ProxyConn where
  conn := none
  proxyId := .zero
  fromnum := 0
  state := .connected
  leaving := false
  nonce := 0
  replayCursor := 0
  ccFrame := .zero
  ccLen := 0
  queue := .empty fun _ => ⟨.zero, 0⟩
  staged := .zero
  stagedLen := 0
  teardownWork := none

inductive HciReason where
  | remoteUserTermConn | connLimitExceeded
  deriving DecidableEq, Repr

inductive BtCall where
  | notifyFromnum (conn : BtConn) (fromnum : UInt32)
  | disconnect (conn : BtConn) (reason : HciReason)
  | advStart
  deriving DecidableEq, Repr

/-- `queueStatusReply` is `s_qs[0..s_qs_len)`, empty until first encoded. -/
structure Gatt (n : Nat) where
  conns : Fin n → ProxyConn
  activeConnCount : Nat
  queueStatusReply : Bytes
  btCalls : List BtCall

def Gatt.zero (n : Nat) : Gatt n where
  conns := fun _ => .zero
  activeConnCount := 0
  queueStatusReply := []
  btCalls := []

variable {n : Nat}

def Gatt.setConn (g : Gatt n) (i : Fin n) (pc : ProxyConn) : Gatt n :=
  { g with conns := Function.update g.conns i pc }

def Gatt.call (g : Gatt n) (call : BtCall) : Gatt n :=
  { g with btCalls := g.btCalls ++ [call] }

def findSlot (g : Gatt n) (conn : BtConn) : Option (Fin n) :=
  (List.finRange n).find? fun i => (g.conns i).conn = some conn

def allocSlot (g : Gatt n) (conn : BtConn) : Option (Fin n × Gatt n) :=
  ((List.finRange n).find? fun i => (g.conns i).conn = none).map fun i =>
    (i, g.setConn i
      { g.conns i with
        conn := some conn
        proxyId := .zero
        fromnum := 0
        queue := .empty (g.conns i).queue.slots
        stagedLen := 0
        state := .connected
        leaving := false
        nonce := 0
        replayCursor := 0 })

def freeSlot (g : Gatt n) (i : Fin n) : Gatt n :=
  g.setConn i
    { g.conns i with
      teardownWork := none
      conn := none
      proxyId := .zero
      fromnum := 0
      queue := .empty (g.conns i).queue.slots
      stagedLen := 0
      state := .connected
      leaving := false
      nonce := 0
      replayCursor := 0 }

/-- The four bytes of a `uint32_t` in memory order. -/
def le32 (v : UInt32) : Bytes :=
  [v.toUInt8, (v >>> 8).toUInt8, (v >>> 16).toUInt8, (v >>> 24).toUInt8]

def fromnumRead (p : Platform) (g : Gatt n) (conn : BtConn) (len offset : Nat) :
    Except AttError Bytes :=
  match findSlot g conn with
  | none => .error .unlikely
  | some i => p.attrRead (le32 (g.conns i).fromnum) len offset

/-- The skip loop of a replay read: at most `fuel` cached frames outside the
phone's segment are passed over. -/
def replaySkip (c : ConfigCache) (nonce : UInt32) : Nat → Nat → Nat
  | 0, cursor => cursor
  | fuel + 1, cursor =>
    if cursor < cacheFrameCount c ∧ ¬ cacheFrameInSegment c cursor nonce then
      replaySkip c nonce fuel (cursor + 1)
    else cursor

/-- The loop runs until the cursor meets a frame of the segment or the count. -/
def replayNext (c : ConfigCache) (pc : ProxyConn) : Nat :=
  replaySkip c pc.nonce (cacheFrameCount c - pc.replayCursor) pc.replayCursor

/-- What a fresh read does under the slot's lock: stage the next packet, or
mark the staging buffer empty. -/
def stageNext (c : ConfigCache) (pc : ProxyConn) : ProxyConn :=
  if pc.state = .replaying then
    let cursor := replayNext c pc
    if cursor < cacheFrameCount c then
      match cacheFrameAt c cursor with
      | some ref =>
        { pc with
          staged := pc.staged.write 0 (cacheFrameBytes c ref)
          stagedLen := ref.len
          replayCursor := cursor + 1 }
      | none => { pc with stagedLen := 0, replayCursor := cursor + 1 }
    else if cursor = cacheFrameCount c then
      { pc with
        staged := pc.staged.write 0 (pc.ccFrame.read 0 pc.ccLen)
        stagedLen := pc.ccLen
        replayCursor := cursor + 1 }
    else { pc with state := .active, stagedLen := 0, replayCursor := cursor }
  else if filled : 0 < pc.queue.count then
    let pkt := pc.queue.slots pc.queue.head
    { pc with
      staged := pc.staged.write 0 pkt.bytes
      stagedLen := pkt.len
      queue := pc.queue.pop filled }
  else { pc with stagedLen := 0 }

def fromradioRead (p : Platform) (c : ConfigCache) (g : Gatt n) (conn : BtConn)
    (len offset : Nat) : Gatt n × Except AttError Bytes :=
  match findSlot g conn with
  | none => (g, .error .unlikely)
  | some i =>
    let pc := if offset = 0 then stageNext c (g.conns i) else g.conns i
    (g.setConn i pc,
      if pc.stagedLen > 0 then p.attrRead (pc.staged.read 0 pc.stagedLen) len offset else .ok [])

def notifyFromnum (g : Gatt n) (conn : BtConn) (fromnum : UInt32) : Gatt n :=
  g.call (.notifyFromnum conn fromnum)

/-- The section of `ble_gatt_enqueue_fromradio` under the slot's lock, and the
doorbell after it, for a slot that the lookup has resolved. -/
def enqueueLocked (g : Gatt n) (i : Fin n) (conn : BtConn) (data : Bytes) : Gatt n × Rc :=
  let pc := g.conns i
  if pc.leaving then (g, some .eshutdown)
  else if full : pc.queue.count ≥ FROMRADIO_QUEUE_DEPTH then
    (notifyFromnum g conn pc.fromnum, some .enomem)
  else
    let entry : PktEntry := ⟨(pc.queue.slots pc.queue.tail).data.write 0 data, data.length⟩
    let fromnum := pc.fromnum + 1
    (notifyFromnum (g.setConn i
      { pc with queue := pc.queue.push (Nat.lt_of_not_le full) entry, fromnum := fromnum })
      conn fromnum, none)

def bleGattEnqueueFromradio (g : Gatt n) (conn : BtConn) (data : Bytes) : Gatt n × Rc :=
  if data.length > FROMRADIO_MAX_PKT_SIZE then (g, some .emsgsize)
  else match findSlot g conn with
    | none => (g, some .enoent)
    | some i => enqueueLocked g i conn data

def bleGattGetConnByProxyId (g : Gatt n) (id : ProxyId) : Option BtConn :=
  if proxyIdIsZero id then none
  else (List.finRange n).findSome? fun i =>
    (g.conns i).conn.bind fun conn =>
      if proxyIdEqual (g.conns i).proxyId id then some conn else none

def bleGattRegisterProxyId (g : Gatt n) (conn : BtConn) (id : ProxyId) : Gatt n × Rc :=
  match findSlot g conn with
  | none => (g, some .enoent)
  | some i => (g.setConn i { g.conns i with proxyId := id }, none)

/-- NODE_REG write; the result on success is the number of bytes taken. -/
def nodeRegWrite (g : Gatt n) (conn : BtConn) (buf : Bytes) (offset : Nat) :
    Gatt n × Except AttError Nat :=
  if offset ≠ 0 ∨ buf.length ≠ PROXY_ID_SIZE then (g, .error .invalidAttributeLen)
  else ((bleGattRegisterProxyId g conn (.ofBytes buf 0)).1, .ok buf.length)

/-- One turn of the broadcast loop, carrying the number of receivers so far. -/
def broadcastOne (data : Bytes) (acc : Gatt n × Nat) (i : Fin n) : Gatt n × Nat :=
  match (acc.1.conns i).conn with
  | none => acc
  | some conn =>
    let (g, rc) := bleGattEnqueueFromradio acc.1 conn data
    (g, if rc = none then acc.2 + 1 else acc.2)

def bleGattBroadcastFromradio (g : Gatt n) (data : Bytes) : Gatt n × Nat :=
  (List.finRange n).foldl (broadcastOne data) (g, 0)

def bleGattReplayCachedBurst (p : Platform) (g : Gatt n) (conn : BtConn) (nonce : UInt32) : Gatt n :=
  match findSlot g conn with
  | none => g
  | some i =>
    -- zero asks for the nonce stored when the phone was parked
    let nonce := if nonce ≠ 0 then nonce else (g.conns i).nonce
    let (enc, written) := protoEncodeConfigComplete p nonce 16
    let pc := { g.conns i with nonce := nonce, ccFrame := (g.conns i).ccFrame.write 0 written }
    if enc ≠ none then g.setConn i pc
    else
      let fromnum := pc.fromnum + 1
      (g.setConn i
        { pc with
          ccLen := written.length
          replayCursor := 0
          state := .replaying
          fromnum := fromnum }).call (.notifyFromnum conn fromnum)

def bleGattReplyQueuestatus (p : Platform) (g : Gatt n) (conn : BtConn) : Gatt n :=
  if g.queueStatusReply.length = 0 then
    let (rc, written) := protoEncodeQueueStatus p 16
    if rc ≠ none then g
    else (bleGattEnqueueFromradio { g with queueStatusReply := written } conn written).1
  else (bleGattEnqueueFromradio g conn g.queueStatusReply).1

def bleGattRequestTeardown (g : Gatt n) (conn : BtConn) : Gatt n × Rc :=
  match findSlot g conn with
  | none => (g, some .enoent)
  | some i =>
    (g.setConn i { g.conns i with leaving := true, teardownWork := some TEARDOWN_DELAY_MS }, none)

def teardownWorkHandler (g : Gatt n) (i : Fin n) : Gatt n :=
  match (g.conns i).conn with
  | none => g
  | some conn =>
    if (g.conns i).leaving then g.call (.disconnect conn .remoteUserTermConn) else g

def onConnected (g : Gatt n) (conn : BtConn) (err : Bool) : Gatt n :=
  if err then g
  else match allocSlot g conn with
    | none => g.call (.disconnect conn .connLimitExceeded)
    | some (_, g) =>
      let g := { g with activeConnCount := (g.activeConnCount + 1) % 2 ^ 8 }
      if g.activeConnCount < n then g.call .advStart else g

def onDisconnected (g : Gatt n) (conn : BtConn) : Gatt n :=
  match findSlot g conn with
  | none => g.call .advStart
  | some i =>
    let g := freeSlot g i
    { g with activeConnCount := (g.activeConnCount + 255) % 2 ^ 8 }.call .advStart

end MeshPbx
