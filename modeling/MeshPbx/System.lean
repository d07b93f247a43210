import MeshPbx.Router
import MeshPbx.Lib.Machine

/-! The proxy as a machine over its entry points. Every handler runs to
completion on its cooperative thread, so one label is one handler run; the
schedule of labels is arbitrary up to what the kernel and the BLE stack allow:
a work item runs only while it is pending, a completion event follows a started
transmission, and a connection is reported connected only while it is not. -/
namespace MeshPbx
variable {n : Nat}

inductive Event (n : Nat) where
  | sessionStart (rand : UInt32)
  | fromradio (frame : Frame) (rand : UInt32)
  | toradioWrite (conn : BtConn) (buf : Bytes) (offset : Nat)
  | fromradioRead (conn : BtConn) (len offset : Nat)
  | fromnumRead (conn : BtConn) (len offset : Nat)
  | nodeRegWrite (conn : BtConn) (buf : Bytes) (offset : Nat)
  | connected (conn : BtConn) (err : Bool)
  | disconnected (conn : BtConn)
  | keepalive
  | fetchRetry
  | liveness (rand : UInt32)
  | teardown (slot : Fin n)
  | txWork (failed : Bool)
  | txEnd (aborted : Bool)

/-- The event delivers a frame of the node that meets `P`. -/
def Event.Delivers (P : Frame → Prop) : Event n → Prop
  | .fromradio frame _ => P frame
  | _ => False

instance (P : Frame → Prop) [DecidablePred P] (e : Event n) : Decidable (e.Delivers P) := by
  cases e <;> unfold Event.Delivers <;> infer_instance

namespace Proxy

/-- The state main has set up when it is about to start the session: every
static zero but the registered serve callback. -/
def boot (n : Nat) : Proxy n :=
  upstreamSetServeCb { cache := .zero, gatt := .zero n, session := .zero, uart := .zero }

def enabled (w : Proxy n) : Event n → Prop
  | .sessionStart _ => w.session.keepaliveArmed = false
  | .connected conn _ => findSlot w.gatt conn = none
  | .keepalive => w.session.keepaliveWork.isSome
  | .fetchRetry => w.session.fetchRetryWork.isSome
  | .liveness _ => w.session.livenessWork.isSome
  | .teardown slot => (w.gatt.conns slot).teardownWork.isSome
  | .txWork _ => w.uart.txWork = true
  | .txEnd _ => w.uart.outstanding.isSome
  | .fromradio _ _ | .toradioWrite _ _ _ | .fromradioRead _ _ _ | .fromnumRead _ _ _
  | .nodeRegWrite _ _ _ | .disconnected _ => True

instance (w : Proxy n) (e : Event n) : Decidable (w.enabled e) := by
  cases e <;> unfold enabled <;> infer_instance

/-- A work item stops being pending when its handler starts. -/
def apply (p : Platform) (w : Proxy n) : Event n → Proxy n
  | .sessionStart rand => upstreamSessionStart p w rand
  | .fromradio frame rand => onFromradioUart p w frame.bytes rand
  | .toradioWrite conn buf offset => (MeshPbx.toradioWrite p w conn buf offset).1
  | .fromradioRead conn len offset =>
    { w with gatt := (MeshPbx.fromradioRead p w.cache w.gatt conn len offset).1 }
  | .fromnumRead _ _ _ => w
  | .nodeRegWrite conn buf offset =>
    { w with gatt := (MeshPbx.nodeRegWrite w.gatt conn buf offset).1 }
  | .connected conn err => { w with gatt := onConnected w.gatt conn err }
  | .disconnected conn => { w with gatt := onDisconnected w.gatt conn }
  | .keepalive =>
    keepaliveWorkHandler p { w with session := { w.session with keepaliveWork := none } }
  | .fetchRetry =>
    fetchRetryHandler p { w with session := { w.session with fetchRetryWork := none } }
  | .liveness rand =>
    livenessHandler p { w with session := { w.session with livenessWork := none } } rand
  | .teardown slot =>
    let idle := w.gatt.setConn slot { w.gatt.conns slot with teardownWork := none }
    { w with gatt := teardownWorkHandler idle slot }
  | .txWork failed => { w with uart := txWorkHandler { w.uart with txWork := false } failed }
  | .txEnd _ => { w with uart := uartCbTxEnd w.uart }

end Proxy

def system (n : Nat) (p : Platform) : Machine (Proxy n) (Event n) where
  enabled := Proxy.enabled
  next := Proxy.apply p

instance (p : Platform) (w : Proxy n) (e : Event n) : Decidable ((system n p).enabled w e) :=
  inferInstanceAs (Decidable (w.enabled e))

def Reachable (p : Platform) (w : Proxy n) : Prop :=
  (system n p).Reachable (.boot n) w

theorem reachable_run {p : Platform} (es : List (Event n))
    (runs : (system n p).Runs (.boot n) es) : Reachable p ((system n p).run (.boot n) es) :=
  ⟨es, runs, rfl⟩

end MeshPbx
