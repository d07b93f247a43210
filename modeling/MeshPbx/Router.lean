import MeshPbx.UpstreamSession

/-! FromRadio dispatch and the two entry points main registers: frames from the
UART and ToRadio writes from the phones. -/
namespace MeshPbx
variable {n : Nat}

/-- Broadcast with the count of receivers dropped, as every caller here does. -/
def broadcast (w : Proxy n) (raw : Bytes) : Proxy n :=
  { w with gatt := (bleGattBroadcastFromradio w.gatt raw).1 }

/-- Tier 2: where a decoded or encrypted mesh packet goes. -/
def dispatchPacket (w : Proxy n) (raw : Bytes) (info : FromradioInfo) : Proxy n :=
  if !info.isDecoded then broadcast w raw
  else if info.portnum = PROXY_PORTNUM then
    match proxyHeaderParse info.payloadBytes with
    | none => broadcast w raw
    | some hdr =>
      match bleGattGetConnByProxyId w.gatt hdr.dst with
      | some conn => { w with gatt := (bleGattEnqueueFromradio w.gatt conn raw).1 }
      | none => broadcast w raw
  else broadcast w raw

/-- The path of a frame that no fetch has consumed. -/
def dispatchUnconsumed (p : Platform) (w : Proxy n) (raw : Bytes) (info : FromradioInfo)
    (rand : UInt32) : Proxy n :=
  if info.whichVariant ≠ .packet then
    if info.whichVariant = .rebooted then upstreamRefetch p w rand
    else
      let (s, swallowed) :=
        if info.whichVariant = .queueStatus then upstreamSwallowLiveQueuestatus w.session
        else (w.session, false)
      let w := { w with session := s }
      if swallowed then w
      else broadcast { w with session := upstreamLivenessKick w.session } raw
  else dispatchPacket { w with session := upstreamLivenessKick w.session } raw info

def routerDispatch (p : Platform) (w : Proxy n) (raw : Bytes) (info : FromradioInfo)
    (rand : UInt32) : Proxy n :=
  if upstreamGetState w = .fetching ∨ upstreamGetState w = .refetching then
    let (w, consumed) := upstreamOnFromradio p w raw info
    if consumed then w else dispatchUnconsumed p w raw info rand
  else dispatchUnconsumed p w raw info rand

def onFromradioUart (p : Platform) (w : Proxy n) (payload : Bytes) (rand : UInt32) : Proxy n :=
  match protoDecodeFromradio p payload with
  | none => broadcast w payload
  | some info => routerDispatch p w payload info rand

/-- The early return on states other than LIVE and CACHE_READY precedes the
three-way test, as it does in the source. -/
def onToradioBle (p : Platform) (w : Proxy n) (conn : BtConn) (data : Bytes) : Proxy n :=
  match protoDecodeToradio p data with
  | none => { w with uart := (uartMeshtasticTx w.uart data).1 }
  | some ti =>
    if ti.hasWantConfig then
      let st := upstreamGetState w
      if st ≠ .live ∧ st ≠ .cacheReady then w
      else if st = .cacheReady ∨ st = .live ∨ st = .refetching then
        { w with gatt := bleGattReplayCachedBurst p w.gatt conn ti.wantConfigId }
      else bleGattParkPending p w conn ti.wantConfigId
    else if ti.hasHeartbeat then { w with gatt := bleGattReplyQueuestatus p w.gatt conn }
    else if ti.hasDisconnect then { w with gatt := (bleGattRequestTeardown w.gatt conn).1 }
    else
      let (uart, err) := uartMeshtasticTx w.uart data
      if err = none then
        { w with uart := uart, session := upstreamKeepaliveReschedule w.session }
      else { w with uart := uart }

def toradioWrite (p : Platform) (w : Proxy n) (conn : BtConn) (buf : Bytes) (offset : Nat) :
    Proxy n × Except AttError Nat :=
  if offset ≠ 0 then (w, .error .invalidOffset)
  else (onToradioBle p w conn buf, .ok buf.length)

end MeshPbx
