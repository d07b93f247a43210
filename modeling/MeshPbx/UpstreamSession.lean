import MeshPbx.BleGatt
import MeshPbx.UartMeshtastic

/-! The proxy's single config session with the node. Functions that only touch
the module's own statics act on `Session`; those that also drive the cache, the
UART or the serve callback act on the whole proxy state. Random numbers are
arguments, so every sequence of them is covered. -/
namespace MeshPbx

def UPSTREAM_KEEPALIVE_MS : Nat := 5 * 60 * 1000
def UPSTREAM_KEEPALIVE_RETRY_MS : Nat := 20 * 1000
def UPSTREAM_FETCH_RETRY_MS : Nat := 2000
def UPSTREAM_LIVENESS_TIMEOUT_MS : Nat := 30 * 60 * 1000

inductive UpstreamState where
  | boot | fetching | cacheReady | live | refetching
  deriving DecidableEq, Repr

/-- `pending` is `s_pending[0..s_pending_count)`; `serveCb` is whether main has
registered the replay callback. -/
structure Session where
  state : UpstreamState
  nonce : UInt32
  pending : List BtConn
  serveCb : Bool
  keepaliveWork : Delayable
  fetchRetryWork : Delayable
  livenessWork : Delayable
  keepaliveArmed : Bool
  keepaliveNonce : UInt32
  keepalivePending : Bool
  txFailCnt : UInt32
  deriving DecidableEq, Repr

def Session.zero : Session where
  state := .boot
  nonce := 0
  pending := []
  serveCb := false
  keepaliveWork := none
  fetchRetryWork := none
  livenessWork := none
  keepaliveArmed := false
  keepaliveNonce := 2
  keepalivePending := false
  txFailCnt := 0

/-- The statics of all modules. -/
structure Proxy (n : Nat) where
  cache : ConfigCache
  gatt : Gatt n
  session : Session
  uart : UartTx

variable {n : Nat}

/-! Pending-phone bookkeeping. -/

def serveOnePending (p : Platform) (w : Proxy n) (conn : BtConn) : Proxy n :=
  if w.session.serveCb then { w with gatt := bleGattReplayCachedBurst p w.gatt conn 0 } else w

def servePendingPhones (p : Platform) (w : Proxy n) : Proxy n :=
  let w := w.session.pending.foldl (serveOnePending p) w
  { w with session := { w.session with pending := [] } }

def upstreamOnPendingPhone (p : Platform) (w : Proxy n) (conn : BtConn) : Proxy n :=
  if cacheIsReady w.cache then serveOnePending p w conn
  else if conn ∈ w.session.pending then w
  else if w.session.pending.length ≥ n then w
  else { w with session := { w.session with pending := w.session.pending ++ [conn] } }

/-- From ble_gatt.c; it stands here because it calls into this module. -/
def bleGattParkPending (p : Platform) (w : Proxy n) (conn : BtConn) (nonce : UInt32) : Proxy n :=
  match findSlot w.gatt conn with
  | none => w
  | some i =>
    let pc := { w.gatt.conns i with state := .pending, nonce := nonce }
    upstreamOnPendingPhone p { w with gatt := w.gatt.setConn i pc } conn

/-! Timers. -/

def upstreamKeepaliveReschedule (s : Session) : Session :=
  if s.keepaliveArmed then { s with keepaliveWork := some UPSTREAM_KEEPALIVE_MS } else s

def upstreamLivenessKick (s : Session) : Session :=
  if s.state = .live then { s with livenessWork := some UPSTREAM_LIVENESS_TIMEOUT_MS } else s

def upstreamSwallowLiveQueuestatus (s : Session) : Session × Bool :=
  if s.keepalivePending then ({ s with keepalivePending := false }, true) else (s, false)

/-- The two nonces that are special on the node. -/
def reservedNonce (nonce : UInt32) : Bool := nonce = 0 ∨ nonce = 1

def keepaliveWorkHandler (p : Platform) (w : Proxy n) : Proxy n :=
  let nonce := w.session.keepaliveNonce
  let following := if reservedNonce (nonce + 1) then 2 else nonce + 1
  let s := { w.session with keepaliveNonce := following }
  let (rc, buf) := protoEncodeHeartbeat p nonce 16
  if rc = none then
    let (uart, err) := uartMeshtasticTx w.uart buf
    if err ≠ none then
      { w with
        uart := uart
        session := { s with
          keepalivePending := false
          txFailCnt := s.txFailCnt + 1
          keepaliveWork := some UPSTREAM_KEEPALIVE_RETRY_MS } }
    else
      { w with
        uart := uart
        session := { s with
          keepalivePending := true
          txFailCnt := 0
          keepaliveWork := some UPSTREAM_KEEPALIVE_MS } }
  else { w with session := { s with keepaliveWork := some UPSTREAM_KEEPALIVE_MS } }

/-- `ToRadio{want_config_id}` encoded into a `meshtastic_ToRadio_size` buffer;
`none` when `pb_encode` fails. -/
def encodeWantConfig (p : Platform) (nonce : UInt32) : Option Bytes :=
  let (ok, written) := pbEncode p.toRadioSize [] (p.toRadioChunks
    { whichPayloadVariant := .wantConfigId, wantConfigId := nonce })
  if ok then some written else none

def sendWantConfig (p : Platform) (u : UartTx) (nonce : UInt32) : UartTx × Rc :=
  match encodeWantConfig p nonce with
  | none => (u, some .einval)
  | some buf => uartMeshtasticTx u buf

def fetchRetryHandler (p : Platform) (w : Proxy n) : Proxy n :=
  if w.session.state ≠ .fetching ∧ w.session.state ≠ .refetching then w
  else
    let cache := if w.session.state = .fetching then cacheBegin w.cache else w.cache
    { w with
      cache := cache
      uart := (sendWantConfig p w.uart w.session.nonce).1
      session := { w.session with fetchRetryWork := some UPSTREAM_FETCH_RETRY_MS } }

def upstreamRefetch (p : Platform) (w : Proxy n) (rand : UInt32) : Proxy n :=
  if w.session.state = .boot ∨ w.session.state = .fetching ∨ w.session.state = .refetching then w
  else
    let nonce := if reservedNonce rand then 2 else rand
    let s := { w.session with nonce := nonce }
    let (uart, rc) := sendWantConfig p w.uart nonce
    if rc ≠ none then { w with session := s, uart := uart }
    else
      { w with
        uart := uart
        session := upstreamKeepaliveReschedule { s with
          state := .refetching
          fetchRetryWork := some UPSTREAM_FETCH_RETRY_MS } }

def livenessHandler (p : Platform) (w : Proxy n) (rand : UInt32) : Proxy n :=
  if w.session.state ≠ .live then w else upstreamRefetch p w rand

/-! Public API. -/

def upstreamSessionStart (p : Platform) (w : Proxy n) (rand : UInt32) : Proxy n :=
  let nonce := if reservedNonce rand then 2 else rand
  let s := { w.session with
    fetchRetryWork := none
    livenessWork := none
    keepaliveArmed := true
    keepaliveWork := some UPSTREAM_KEEPALIVE_MS
    nonce := nonce }
  match encodeWantConfig p nonce with
  | none => { w with session := s }
  | some buf =>
    -- both outcomes of the send arm the retry and enter FETCHING
    { w with
      cache := cacheBegin w.cache
      uart := (uartMeshtasticTx w.uart buf).1
      session := { s with
        pending := []
        state := .fetching
        fetchRetryWork := some UPSTREAM_FETCH_RETRY_MS } }

def upstreamGetState (w : Proxy n) : UpstreamState := w.session.state

def upstreamSetServeCb (w : Proxy n) : Proxy n :=
  { w with session := { w.session with serveCb := true } }

def decodeConfigCompleteNonce (p : Platform) (payload : Bytes) : Option UInt32 :=
  (p.decodeFromRadio payload).bind fun message =>
    if message.whichPayloadVariant = .configCompleteId then some message.configCompleteId else none

/-- Closing the boot fetch: publish, serve the parked phones, go LIVE. -/
def closeFetch (p : Platform) (w : Proxy n) : Proxy n :=
  let w := { w with
    cache := cacheMarkReady w.cache
    session := { w.session with state := .cacheReady } }
  let w := servePendingPhones p w
  { w with session := upstreamLivenessKick { w.session with state := .live } }

/-- The frame that closes the fetch in progress. -/
def onTerminator (p : Platform) (w : Proxy n) : Proxy n :=
  let w :=
    if w.session.state = .fetching then closeFetch p w
    else if w.session.state = .refetching then
      { w with session := upstreamLivenessKick { w.session with state := .live } }
    else w
  { w with session := { w.session with fetchRetryWork := none } }

/-- Returns whether the frame was consumed. -/
def upstreamOnFromradio (p : Platform) (w : Proxy n) (payload : Bytes) (info : FromradioInfo) :
    Proxy n × Bool :=
  if w.session.state ≠ .fetching ∧ w.session.state ≠ .refetching then (w, false)
  else if info.whichVariant = .packet then (w, false)
  else
    let w := { w with session := { w.session with fetchRetryWork := some UPSTREAM_FETCH_RETRY_MS } }
    if info.whichVariant = .configCompleteId then
      match decodeConfigCompleteNonce p payload with
      | none =>
        ({ w with cache := (cacheAddFrame w.cache payload info.whichVariant).1 }, true)
      | some gotNonce =>
        if gotNonce ≠ w.session.nonce then
          ({ w with cache := (cacheAddFrame w.cache payload info.whichVariant).1 }, true)
        else (onTerminator p w, true)
    else if w.session.state = .fetching then
      ({ w with cache := (cacheAddFrame w.cache payload info.whichVariant).1 }, true)
    else (w, true)

end MeshPbx
