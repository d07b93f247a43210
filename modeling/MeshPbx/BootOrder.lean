import MeshPbx.WaitingPhones
import MeshPbx.ToradioBoundary
import MeshPbx.Lib.Refinement

/-! The order in which main sets the modules up. Its calls are steps between which any
handler may run that has something to call it: the GATT callbacks once the proxy
advertises, the receive path once the UART is enabled, the work items once they are
submitted. A call that fails ends main and leaves the rest running. -/
namespace MeshPbx
variable {n : Nat} {p : Platform}

/-- The call that main makes next. -/
inductive MainCall where
  | bleGattInit | btEnable | startAdvertising | uartMeshtasticInit | setServeCb | sessionStart
  | loop | returned
  deriving DecidableEq

/-- `uartDev` is whether the device pointer is set, `receiving` whether `uart_rx_enable`
has succeeded. `faulted` is after a transmission on the null device. -/
structure Startup (n : Nat) where
  proxy : Proxy n
  main : MainCall
  toradioHandler : Bool
  advertising : Bool
  fromradioCb : Bool
  uartDev : Bool
  receiving : Bool
  faulted : Bool

inductive StartupEvent (n : Nat) where
  | main (failed : Bool) (rand : UInt32)
  | handler (e : Event n)

namespace Startup

/-- Every static zero. -/
def zero (n : Nat) : Startup n where
  proxy := { cache := .zero, gatt := .zero n, session := .zero, uart := .zero }
  main := .bleGattInit
  toradioHandler := false
  advertising := false
  fromradioCb := false
  uartDev := false
  receiving := false
  faulted := false

/-- One call of main. ble_gatt_init cannot fail; uart_meshtastic_init sets its statics
before the first thing in it that can. -/
def call (p : Platform) (s : Startup n) (failed : Bool) (rand : UInt32) : Startup n :=
  match s.main with
  | .bleGattInit => { s with main := .btEnable, toradioHandler := true }
  | .btEnable => { s with main := if failed then .returned else .startAdvertising }
  | .startAdvertising =>
    if failed then { s with main := .returned }
    else { s with main := .uartMeshtasticInit, advertising := true }
  | .uartMeshtasticInit =>
    let s := { s with
      proxy := { s.proxy with uart := { s.proxy.uart with txInProgress := false } }
      fromradioCb := true
      uartDev := true }
    if failed then { s with main := .returned }
    else { s with main := .setServeCb, receiving := true }
  | .setServeCb => { s with main := .sessionStart, proxy := upstreamSetServeCb s.proxy }
  | .sessionStart => { s with main := .loop, proxy := upstreamSessionStart p s.proxy rand }
  | .loop | .returned => s

/-- The event calls a callback that is not registered. -/
def Drops (s : Startup n) : Event n → Prop
  | .toradioWrite _ _ _ => s.toradioHandler = false
  | .fromradio _ _ => s.fromradioCb = false
  | _ => False

instance (s : Startup n) (e : Event n) : Decidable (s.Drops e) :=
  match e with
  | .toradioWrite _ _ _ => inferInstanceAs (Decidable (s.toradioHandler = false))
  | .fromradio _ _ => inferInstanceAs (Decidable (s.fromradioCb = false))
  | .sessionStart _ | .fromradioRead _ _ _ | .fromnumRead _ _ _ | .nodeRegWrite _ _ _
  | .connected _ _ | .disconnected _ | .keepalive | .fetchRetry | .liveness _ | .teardown _
  | .txWork _ | .txEnd _ => inferInstanceAs (Decidable False)

/-- The work item reaches `uart_tx` with the device pointer null. -/
def Faults (s : Startup n) : Event n → Prop
  | .txWork _ => s.uartDev = false ∧ s.proxy.uart.txInProgress = false ∧ s.proxy.uart.txMsgq ≠ []
  | _ => False

instance (s : Startup n) (e : Event n) : Decidable (s.Faults e) :=
  match e with
  | .txWork _ => inferInstanceAs (Decidable (_ ∧ _ ∧ _))
  | .sessionStart _ | .fromradio _ _ | .toradioWrite _ _ _ | .fromradioRead _ _ _
  | .fromnumRead _ _ _ | .nodeRegWrite _ _ _ | .connected _ _ | .disconnected _ | .keepalive
  | .fetchRetry | .liveness _ | .teardown _ | .txEnd _ => inferInstanceAs (Decidable False)

def handle (p : Platform) (s : Startup n) (e : Event n) : Startup n :=
  if s.Faults e then { s with faulted := true }
  else if s.Drops e then s
  else { s with proxy := s.proxy.apply p e }

/-- Something calls the handler: the session is started by main alone. -/
def Calls (s : Startup n) (e : Event n) : Prop :=
  match e with
  | .sessionStart _ => False
  | .fromradio _ _ => s.receiving = true
  | .connected _ _ => s.advertising = true ∧ s.proxy.enabled e
  | .toradioWrite _ _ _ | .fromradioRead _ _ _ | .fromnumRead _ _ _ | .nodeRegWrite _ _ _
  | .disconnected _ => s.advertising = true
  | .keepalive | .fetchRetry | .liveness _ | .teardown _ | .txWork _ | .txEnd _ =>
    s.proxy.enabled e

instance (s : Startup n) (e : Event n) : Decidable (s.Calls e) :=
  match e with
  | .sessionStart _ => inferInstanceAs (Decidable False)
  | .fromradio _ _ => inferInstanceAs (Decidable (s.receiving = true))
  | .connected conn err =>
    inferInstanceAs (Decidable (s.advertising = true ∧ s.proxy.enabled (.connected conn err)))
  | .toradioWrite _ _ _ | .fromradioRead _ _ _ | .fromnumRead _ _ _ | .nodeRegWrite _ _ _
  | .disconnected _ => inferInstanceAs (Decidable (s.advertising = true))
  | .keepalive => inferInstanceAs (Decidable (s.proxy.enabled .keepalive))
  | .fetchRetry => inferInstanceAs (Decidable (s.proxy.enabled .fetchRetry))
  | .liveness rand => inferInstanceAs (Decidable (s.proxy.enabled (.liveness rand)))
  | .teardown slot => inferInstanceAs (Decidable (s.proxy.enabled (.teardown slot)))
  | .txWork failed => inferInstanceAs (Decidable (s.proxy.enabled (.txWork failed)))
  | .txEnd aborted => inferInstanceAs (Decidable (s.proxy.enabled (.txEnd aborted)))

def enabled (s : Startup n) : StartupEvent n → Prop
  | .main _ _ => s.faulted = false
  | .handler e => s.faulted = false ∧ s.Calls e

instance (s : Startup n) (e : StartupEvent n) : Decidable (s.enabled e) :=
  match e with
  | .main _ _ => inferInstanceAs (Decidable (s.faulted = false))
  | .handler e => inferInstanceAs (Decidable (s.faulted = false ∧ s.Calls e))

def next (p : Platform) (s : Startup n) : StartupEvent n → Startup n
  | .main failed rand => s.call p failed rand
  | .handler e => s.handle p e

/-- What the step is in the proxy's own machine. -/
def taken (s : Startup n) : StartupEvent n → List (Event n)
  | .main _ rand => if s.main = .sessionStart then [.sessionStart rand] else []
  | .handler e => if s.Faults e then [] else [e]

end Startup

def startup (n : Nat) (p : Platform) : Machine (Startup n) (StartupEvent n) where
  enabled := Startup.enabled
  next := Startup.next p

instance (p : Platform) (s : Startup n) (e : StartupEvent n) :
    Decidable ((startup n p).enabled s e) := inferInstanceAs (Decidable (s.enabled e))

/-! Before the session is started. -/

/-- The session has not been started: nothing of it is armed. -/
structure Session.Unstarted (s : Session) : Prop where
  boot : s.state = .boot
  unarmed : s.keepaliveArmed = false
  unanswered : s.keepalivePending = false
  keepalive : s.keepaliveWork = none
  fetchRetry : s.fetchRetryWork = none
  liveness : s.livenessWork = none

namespace Session.Unstarted
variable {w : Proxy n}

theorem kick {s : Session} (unstarted : s.Unstarted) : upstreamLivenessKick s = s := by
  have state : s.state ≠ .live := by simp [unstarted.boot]
  rw [upstreamLivenessKick, if_neg state]

theorem reschedule {s : Session} (unstarted : s.Unstarted) : upstreamKeepaliveReschedule s = s := by
  rw [upstreamKeepaliveReschedule, unstarted.unarmed]
  rfl

theorem registered {s : Session} (unstarted : s.Unstarted) (cb : Bool) :
    { s with serveCb := cb }.Unstarted := by
  constructor
  · exact unstarted.boot
  · exact unstarted.unarmed
  · exact unstarted.unanswered
  · exact unstarted.keepalive
  · exact unstarted.fetchRetry
  · exact unstarted.liveness

/-- Up to then a frame only passes through: packets are delivered and every other frame
is broadcast, but for a reboot notice. -/
theorem frame (unstarted : w.session.Unstarted) (payload : Bytes) (rand : UInt32) :
    onFromradioUart p w payload rand =
      match protoDecodeFromradio p payload with
      | none => broadcast w payload
      | some info =>
        if info.whichVariant = .packet then dispatchPacket w payload info
        else if info.whichVariant = .rebooted then w
        else broadcast w payload := by
  unfold onFromradioUart
  cases decoded : protoDecodeFromradio p payload with
  | none => rfl
  | some info =>
    have outside : ¬ (upstreamGetState w = .fetching ∨ upstreamGetState w = .refetching) := by
      simp [upstreamGetState, unstarted.boot]
    have refetched : upstreamRefetch p w rand = w := by
      rw [upstreamRefetch, if_pos (.inl unstarted.boot)]
    have kicked : { w with session := upstreamLivenessKick w.session } = w := by
      rw [unstarted.kick]
    have genuine : upstreamSwallowLiveQueuestatus w.session = (w.session, false) := by
      rw [upstreamSwallowLiveQueuestatus, unstarted.unanswered]
      rfl
    simp only [routerDispatch, if_neg outside, dispatchUnconsumed]
    by_cases packet : info.whichVariant = .packet
    · simp only [packet, ne_eq, not_true_eq_false, if_false, if_true, kicked]
    · simp only [packet, ne_eq, not_false_eq_true, if_true, if_false]
      by_cases reboot : info.whichVariant = .rebooted
      · simp only [reboot, if_true, refetched]
      · simp only [reboot, if_false, genuine, ite_self, Bool.false_eq_true, kicked]

/-- A phone's want_config is refused, and its packets do not touch the session. -/
theorem toradio (unstarted : w.session.Unstarted) (conn : BtConn) (data : Bytes) :
    onToradioBle p w conn data =
      match protoDecodeToradio p data with
      | none => { w with uart := (uartMeshtasticTx w.uart data).1 }
      | some info =>
        if info.hasWantConfig then w
        else if info.hasHeartbeat then { w with gatt := bleGattReplyQueuestatus p w.gatt conn }
        else if info.hasDisconnect then { w with gatt := (bleGattRequestTeardown w.gatt conn).1 }
        else { w with uart := (uartMeshtasticTx w.uart data).1 } := by
  have early : ¬ (w.session.state = .live ∨ w.session.state = .cacheReady) := by
    simp [unstarted.boot]
  cases decoded : protoDecodeToradio p data with
  | none => simp only [onToradioBle, decoded]
  | some info =>
    by_cases wants : info.hasWantConfig = true
    · simp only [toradio_want_config decoded wants, if_neg early, if_pos wants]
    · simp only [onToradioBle, decoded, if_neg wants, unstarted.reschedule, ite_self]

theorem session_toradio (unstarted : w.session.Unstarted) (conn : BtConn) (data : Bytes) :
    (onToradioBle p w conn data).session = w.session := by
  rw [unstarted.toradio]
  split
  · rfl
  · split_ifs
    · rfl
    · rfl
    · rfl
    · rfl

theorem session_frame (unstarted : w.session.Unstarted) (payload : Bytes) (rand : UInt32) :
    (onFromradioUart p w payload rand).session = w.session := by
  rw [unstarted.frame]
  split
  · rfl
  · split_ifs
    · exact session_dispatchPacket w _ _
    · rfl
    · rfl

theorem uart_frame (unstarted : w.session.Unstarted) (payload : Bytes) (rand : UInt32) :
    (onFromradioUart p w payload rand).uart = w.uart := by
  rw [unstarted.frame]
  split
  · rfl
  · split_ifs
    · exact uart_dispatchPacket w _ _
    · rfl
    · rfl

/-- Every handler leaves the session as it is. -/
theorem apply (unstarted : w.session.Unstarted) (e : Event n) (other : ∀ rand, e ≠ .sessionStart rand)
    (enabled : w.enabled e) : (w.apply p e).session = w.session := by
  cases e with
  | sessionStart rand => exact absurd rfl (other rand)
  | fromradio frame rand => exact unstarted.session_frame frame.bytes rand
  | toradioWrite conn buf offset =>
    simp only [Proxy.apply, toradioWrite]
    split
    · rfl
    · exact unstarted.session_toradio conn buf
  | keepalive => simp [Proxy.enabled, unstarted.keepalive] at enabled
  | fetchRetry => simp [Proxy.enabled, unstarted.fetchRetry] at enabled
  | liveness rand => simp [Proxy.enabled, unstarted.liveness] at enabled
  | fromradioRead conn len offset => rfl
  | fromnumRead conn len offset => rfl
  | nodeRegWrite conn buf offset => rfl
  | connected conn err => rfl
  | disconnected conn => rfl
  | teardown slot => rfl
  | txWork failed => rfl
  | txEnd aborted => rfl

/-! Whether the serve callback is registered makes no difference before the session is
started. -/

theorem frame_registered (unstarted : w.session.Unstarted) (payload : Bytes) (rand : UInt32) :
    onFromradioUart p (upstreamSetServeCb w) payload rand =
      upstreamSetServeCb (onFromradioUart p w payload rand) := by
  have packet : ∀ info, dispatchPacket (upstreamSetServeCb w) payload info =
      upstreamSetServeCb (dispatchPacket w payload info) := by
    intro info
    unfold dispatchPacket
    split_ifs
    · rfl
    · cases proxyHeaderParse info.payloadBytes with
      | none => rfl
      | some hdr =>
        cases found : bleGattGetConnByProxyId w.gatt hdr.dst with
        | none => simp only [upstreamSetServeCb, found]; rfl
        | some conn => simp only [upstreamSetServeCb, found]
    · rfl
  have later : (upstreamSetServeCb w).session.Unstarted := unstarted.registered true
  rw [unstarted.frame, later.frame]
  split
  · rfl
  · split_ifs
    · exact packet _
    · rfl
    · rfl

theorem toradio_registered (unstarted : w.session.Unstarted) (conn : BtConn) (data : Bytes) :
    onToradioBle p (upstreamSetServeCb w) conn data =
      upstreamSetServeCb (onToradioBle p w conn data) := by
  have later : (upstreamSetServeCb w).session.Unstarted := unstarted.registered true
  rw [unstarted.toradio, later.toradio]
  split
  · rfl
  · split_ifs
    · rfl
    · rfl
    · rfl
    · rfl

theorem apply_registered (unstarted : w.session.Unstarted) (e : Event n)
    (other : ∀ rand, e ≠ .sessionStart rand) (enabled : w.enabled e) :
    (upstreamSetServeCb w).apply p e = upstreamSetServeCb (w.apply p e) := by
  cases e with
  | sessionStart rand => exact absurd rfl (other rand)
  | fromradio frame rand => exact unstarted.frame_registered frame.bytes rand
  | toradioWrite conn buf offset =>
    simp only [Proxy.apply, toradioWrite]
    split_ifs
    · rfl
    · exact unstarted.toradio_registered conn buf
  | keepalive => simp [Proxy.enabled, unstarted.keepalive] at enabled
  | fetchRetry => simp [Proxy.enabled, unstarted.fetchRetry] at enabled
  | liveness rand => simp [Proxy.enabled, unstarted.liveness] at enabled
  | fromradioRead conn len offset => rfl
  | fromnumRead conn len offset => rfl
  | nodeRegWrite conn buf offset => rfl
  | connected conn err => rfl
  | disconnected conn => rfl
  | teardown slot => rfl
  | txWork failed => rfl
  | txEnd aborted => rfl

end Session.Unstarted

/-! The callback stays registered. -/

theorem served_event (w : Proxy n) (e : Event n) :
    (w.apply p e).session.serveCb = w.session.serveCb := by
  by_cases begun : ∀ rand, e ≠ .sessionStart rand
  · by_cases outside : Closing p w e
    · cases e with
      | fromradio frame rand =>
        have effect := frame_effect p w frame.bytes rand
        simp only [Proxy.apply]
        generalize onFromradioUart p w frame.bytes rand = w' at effect ⊢
        cases effect with
        | fetched info decoded window plain w' effect => cases effect <;> rfl
        | rebooted => exact congrArg Prod.snd (refetch_effect p w rand).roster
        | live => simp [broadcast]
        | packet => simp
        | _ => rfl
      | _ => exact outside.elim
    · exact congrArg Prod.snd (event_roster e begun outside)
  · push Not at begun
    obtain ⟨rand, rfl⟩ := begun
    simp only [Proxy.apply, upstreamSessionStart]
    split <;> rfl

theorem registered_eq {w : Proxy n} (registered : w.session.serveCb = true) :
    upstreamSetServeCb w = w := by
  unfold upstreamSetServeCb
  rw [← registered]

/-! The invariant of the boot. -/

namespace Startup
variable {s : Startup n}

/-- Main has not come to uart_meshtastic_init yet, or is about to call it. -/
def Early (s : Startup n) : Prop :=
  s.main = .bleGattInit ∨ s.main = .btEnable ∨ s.main = .startAdvertising ∨
    s.main = .uartMeshtasticInit

/-- uart_meshtastic_init has returned to main. -/
def Late (s : Startup n) : Prop :=
  s.main = .setServeCb ∨ s.main = .sessionStart ∨ s.main = .loop

structure Ordered (s : Startup n) : Prop where
  handler : s.main ≠ .bleGattInit → s.toradioHandler = true
  advertised : s.advertising = true → s.toradioHandler = true
  listening : s.receiving = true → s.fromradioCb = true ∧ s.uartDev = true
  closed : s.Early → s.uartDev = false
  idle : s.uartDev = false → s.proxy.uart.txInProgress = false
  unstarted : s.main ≠ .loop → s.proxy.session.Unstarted
  advertises : s.main = .uartMeshtasticInit ∨ s.Late → s.advertising = true
  receives : s.Late → s.receiving = true
  served : s.main = .sessionStart ∨ s.main = .loop → s.proxy.session.serveCb = true

theorem ordered_zero : (zero n).Ordered := by
  constructor
  · intro later
    exact absurd rfl later
  · exact id
  · intro receiving
    cases receiving
  · exact fun _ => rfl
  · exact fun _ => rfl
  · exact fun _ => ⟨rfl, rfl, rfl, rfl, rfl, rfl⟩
  · intro late
    simp [Late, zero] at late
  · intro late
    simp [Late, zero] at late
  · intro late
    simp [zero] at late

/-- No event comes before its callback. -/
theorem Ordered.registered (ordered : s.Ordered) {e : Event n} (calls : s.Calls e) : ¬ s.Drops e := by
  intro drops
  cases e with
  | toradioWrite conn buf offset =>
    have handler : s.toradioHandler = true := ordered.advertised calls
    simp [Drops, handler] at drops
  | fromradio frame rand =>
    have handler : s.fromradioCb = true := (ordered.listening calls).1
    simp [Drops, handler] at drops
  | _ => exact drops

theorem ordered_call (ordered : s.Ordered) (failed : Bool) (rand : UInt32) :
    (s.call p failed rand).Ordered := by
  obtain ⟨proxy, main, handler, advertising, fromradioCb, uartDev, receiving, faulted⟩ := s
  have kept := ordered
  obtain ⟨hHandler, hAdvertised, hListening, hClosed, hIdle, hUnstarted, hAdvertises, hReceives, hServed⟩ := ordered
  cases main with
  | bleGattInit =>
    constructor <;> simp_all [call, Early, Late]
  | btEnable =>
    cases failed <;> constructor <;> simp_all [call, Early, Late]
  | startAdvertising =>
    cases failed <;> constructor <;> simp_all [call, Early, Late]
  | uartMeshtasticInit =>
    cases failed <;> constructor <;> simp_all [call, Early, Late]
  | setServeCb =>
    have unstarted := (hUnstarted (by simp)).registered true
    constructor <;> simp_all [call, Early, Late, upstreamSetServeCb]
  | sessionStart =>
    have served : (upstreamSessionStart p proxy rand).session.serveCb = proxy.session.serveCb :=
      served_event proxy (.sessionStart rand)
    constructor <;> simp_all [call, Early, Late]
  | loop => exact kept
  | returned => exact kept

theorem Calls.enabled {e : Event n} (calls : s.Calls e) : s.proxy.enabled e := by
  cases e with
  | sessionStart rand => exact calls.elim
  | connected conn err => exact calls.2
  | fromradio | toradioWrite | fromradioRead | fromnumRead | nodeRegWrite | disconnected => trivial
  | _ => exact calls

theorem Calls.begun {e : Event n} (calls : s.Calls e) (rand : UInt32) : e ≠ .sessionStart rand := by
  rintro rfl
  exact calls

theorem not_loop (ordered : s.Ordered) (early : s.uartDev = false) : s.main ≠ .loop := by
  intro loop
  have opened := (ordered.listening (ordered.receives (.inr (.inr loop)))).2
  simp [early] at opened

/-- What a handler does to the transmit path while there is no device. -/
inductive EarlyTx (p : Platform) (u : UartTx) : Event n → UartTx → Prop
  | quiet (e : Event n) (absorbed : ∀ conn buf, e = .toradioWrite conn buf 0 → Absorbed p buf) :
      EarlyTx p u e u
  | offered (conn : BtConn) (buf : Bytes) (passed : ¬ Absorbed p buf) :
      EarlyTx p u (.toradioWrite conn buf 0) (uartMeshtasticTx u buf).1
  | worked (failed : Bool) (drained : u.txMsgq = []) :
      EarlyTx p u (.txWork failed) { u with txWork := false }
  | ended (aborted : Bool) : EarlyTx p u (.txEnd aborted) (uartCbTxEnd u)

theorem EarlyTx.aside {u : UartTx} {e : Event n}
    (other : ∀ conn buf, e ≠ .toradioWrite conn buf 0) : EarlyTx p u e u :=
  .quiet e fun conn buf same => absurd same (other conn buf)

theorem early_tx (ordered : s.Ordered) (early : s.uartDev = false) {e : Event n}
    (calls : s.Calls e) (safe : ¬ s.Faults e) :
    EarlyTx p s.proxy.uart e (s.proxy.apply p e).uart := by
  have idle := ordered.idle early
  have unstarted := ordered.unstarted (not_loop ordered early)
  cases e with
  | fromradio frame rand =>
    have same := unstarted.uart_frame (p := p) frame.bytes rand
    simp only [Proxy.apply, same]
    exact .aside (by simp)
  | toradioWrite conn buf offset =>
    simp only [Proxy.apply, toradioWrite]
    by_cases fresh : offset = 0
    · subst fresh
      rw [if_neg (by simp)]
      by_cases absorbed : Absorbed p buf
      · rw [toradio_absorbed absorbed conn]
        refine .quiet _ fun conn buf same => ?_
        cases same
        exact absorbed
      · rw [toradio_passed absorbed conn]
        exact .offered conn buf absorbed
    · rw [if_pos fresh]
      exact .aside (by simp [fresh])
  | txWork failed =>
    have drained : s.proxy.uart.txMsgq = [] := by
      by_contra waiting
      exact safe ⟨early, idle, waiting⟩
    have same : (s.proxy.apply p (.txWork failed)).uart = { s.proxy.uart with txWork := false } := by
      simp only [Proxy.apply, txWorkHandler, idle, drained, Bool.false_eq_true, if_false]
    rw [same]
    exact .worked failed drained
  | txEnd aborted => exact .ended aborted
  | sessionStart rand => exact calls.elim
  | keepalive =>
    have armed := calls.enabled
    simp [Proxy.enabled, unstarted.keepalive] at armed
  | fetchRetry =>
    have armed := calls.enabled
    simp [Proxy.enabled, unstarted.fetchRetry] at armed
  | liveness rand =>
    have armed := calls.enabled
    simp [Proxy.enabled, unstarted.liveness] at armed
  | _ => exact .aside (by simp)

theorem EarlyTx.idle {u u' : UartTx} {e : Event n} (effect : EarlyTx p u e u')
    (before : u.txInProgress = false) : u'.txInProgress = false := by
  cases effect with
  | quiet => exact before
  | offered conn buf passed =>
    unfold uartMeshtasticTx
    split_ifs
    · exact before
    · exact before
    · exact before
  | worked failed drained => exact before
  | ended aborted => rfl

theorem ordered_handle (ordered : s.Ordered) (e : Event n) (calls : s.Calls e) :
    (s.handle p e).Ordered := by
  have kept := ordered
  obtain ⟨hHandler, hAdvertised, hListening, hClosed, hIdle, hUnstarted, hAdvertises, hReceives,
    hServed⟩ := ordered
  unfold handle
  split_ifs with faults drops
  · exact ⟨hHandler, hAdvertised, hListening, hClosed, hIdle, hUnstarted, hAdvertises, hReceives,
      hServed⟩
  · exact kept
  · refine ⟨hHandler, hAdvertised, hListening, hClosed, ?_, ?_, hAdvertises, hReceives, ?_⟩
    · exact fun early => (early_tx kept early calls faults).idle (hIdle early)
    · intro before
      have same := (hUnstarted before).apply (p := p) e calls.begun calls.enabled
      exact same ▸ hUnstarted before
    · exact fun late => (served_event s.proxy e).trans (hServed late)

theorem ordered_step (s : Startup n) (e : StartupEvent n) (ordered : s.Ordered) (enabled : s.enabled e) :
    (s.next p e).Ordered := by
  cases e with
  | main failed rand => exact ordered_call ordered failed rand
  | handler e => exact ordered_handle ordered e enabled.2

/-! The proxy's machine is what the boot runs, from the state in which every static but
the callback is zero. -/

theorem session_started {w : Proxy n} (registered : w.session.serveCb = true) (rand : UInt32) :
    upstreamSetServeCb (upstreamSessionStart p w rand) = upstreamSessionStart p w rand :=
  registered_eq ((served_event w (.sessionStart rand)).trans registered)

theorem taken_call (ordered : s.Ordered) (failed : Bool) (rand : UInt32) :
    (system n p).Runs (upstreamSetServeCb s.proxy) (s.taken (.main failed rand)) ∧
      (system n p).run (upstreamSetServeCb s.proxy) (s.taken (.main failed rand)) =
        upstreamSetServeCb (s.call p failed rand).proxy := by
  obtain ⟨proxy, main, handler, advertising, fromradioCb, uartDev, receiving, faulted⟩ := s
  cases main with
  | bleGattInit => exact ⟨trivial, rfl⟩
  | btEnable => exact ⟨trivial, rfl⟩
  | startAdvertising => exact ⟨trivial, by cases failed <;> rfl⟩
  | uartMeshtasticInit =>
    have idle : proxy.uart.txInProgress = false :=
      ordered.idle (ordered.closed (.inr (.inr (.inr rfl))))
    have same : { proxy.uart with txInProgress := false } = proxy.uart := by rw [← idle]
    refine ⟨trivial, ?_⟩
    cases failed <;> simp only [call, same] <;> rfl
  | setServeCb => exact ⟨trivial, rfl⟩
  | sessionStart =>
    have served : proxy.session.serveCb = true := ordered.served (.inl rfl)
    have unarmed := (ordered.unstarted (by simp)).unarmed
    refine ⟨⟨unarmed, trivial⟩, ?_⟩
    simp only [taken, if_true, call, registered_eq served, session_started served]
    rfl
  | loop => exact ⟨trivial, rfl⟩
  | returned => exact ⟨trivial, rfl⟩

theorem taken_handle (ordered : s.Ordered) (e : Event n) (calls : s.Calls e) :
    (system n p).Runs (upstreamSetServeCb s.proxy) (s.taken (.handler e)) ∧
      (system n p).run (upstreamSetServeCb s.proxy) (s.taken (.handler e)) =
        upstreamSetServeCb (s.handle p e).proxy := by
  have registered := ordered.registered calls
  simp only [taken, handle, if_neg registered]
  split_ifs with faults
  · exact ⟨trivial, rfl⟩
  · have enabled : (upstreamSetServeCb s.proxy).enabled e := by
      have before := calls.enabled
      cases e <;> exact before
    refine ⟨⟨enabled, trivial⟩, ?_⟩
    by_cases loop : s.main = .loop
    · have served := ordered.served (.inr loop)
      have later : (s.proxy.apply p e).session.serveCb = true := (served_event s.proxy e).trans served
      rw [registered_eq served, registered_eq later]
      rfl
    · exact (ordered.unstarted loop).apply_registered e calls.begun calls.enabled

end Startup

/-- The boot of main refines the proxy's machine. -/
def bootOnProxy (n : Nat) (p : Platform) : (startup n p).Refinement (system n p) where
  Inv := Startup.Ordered
  view s := upstreamSetServeCb s.proxy
  label := Startup.taken
  keeps := Startup.ordered_step
  step s e ordered enabled := by
    cases e with
    | main failed rand => exact Startup.taken_call ordered failed rand
    | handler e => exact Startup.taken_handle ordered e enabled.2

/-- Whatever handlers run between the calls of main and whichever call fails: the proxy
is where a run of its machine from the registered boot state ends, on the handlers that
ran and the session start; every handler that ran found its callback registered; and
nothing of the session is armed before main starts it, by which time the proxy advertises,
receives and has its serve callback. -/
theorem startup_reaches (es : List (StartupEvent n)) (runs : (startup n p).Runs (.zero n) es) :
    let s := (startup n p).run (.zero n) es
    let taken := (startup n p).trace Startup.taken (.zero n) es
    (system n p).Runs (.boot n) taken ∧
      (system n p).run (.boot n) taken = upstreamSetServeCb s.proxy ∧
      (startup n p).Along (fun s e => ∀ call, e = .handler call → ¬ s.Drops call) (.zero n) es ∧
      (s.main ≠ .loop → s.proxy.session.Unstarted) ∧
      (s.main = .loop → s.advertising = true ∧ s.receiving = true ∧
        s.proxy.session.serveCb = true) := by
  intro s taken
  have ordered : s.Ordered := Machine.invariant Startup.ordered_step es Startup.ordered_zero runs
  obtain ⟨made, reached⟩ := (bootOnProxy n p).run es Startup.ordered_zero runs
  refine ⟨made, reached, ?_, ordered.unstarted, fun loop => ?_⟩
  · refine Machine.along_of_invariant Startup.ordered_step ?_ es Startup.ordered_zero runs
    rintro s e ordered enabled call rfl
    exact ordered.registered enabled.2
  · have late : s.Late := .inr (.inr loop)
    exact ⟨ordered.advertises (.inr late), ordered.receives late, ordered.served (.inr loop)⟩

/-- A phone connects while main is still setting up, and asks for the configuration before
the session is started. -/
def hastyPhone : List (StartupEvent 1) :=
  [.main false 0, .main false 0, .main false 0, .handler (.connected 7 false), .main false 0,
    .handler (.fromradio (.of 0xff []) 0), .handler (.toradioWrite 7 [0x18, 9] 0), .main false 0,
    .main false 5]

theorem hasty_phone_boots :
    (system 1 .wire).run (.boot 1) ((startup 1 .wire).trace Startup.taken (.zero 1) hastyPhone) =
      upstreamSetServeCb ((startup 1 .wire).run (.zero 1) hastyPhone).proxy :=
  (startup_reaches hastyPhone (by decide)).2.1

/-! A transmission on the null device. -/

namespace Startup
variable {s : Startup n}

/-- A phone's write is queued for the node before there is a device to send it. -/
def Premature (p : Platform) (s : Startup n) : StartupEvent n → Prop
  | .handler (.toradioWrite _ buf offset) =>
    s.uartDev = false ∧ offset = 0 ∧ ¬ Absorbed p buf ∧ buf.length ≤ MESHTASTIC_MAX_PAYLOAD
  | _ => False

instance (p : Platform) (s : Startup n) (e : StartupEvent n) : Decidable (s.Premature p e) :=
  match e with
  | .handler (.toradioWrite _ _ _) => inferInstanceAs (Decidable (_ ∧ _ ∧ _ ∧ _))
  | .main _ _ | .handler (.sessionStart _) | .handler (.fromradio _ _)
  | .handler (.fromradioRead _ _ _) | .handler (.fromnumRead _ _ _)
  | .handler (.nodeRegWrite _ _ _) | .handler (.connected _ _) | .handler (.disconnected _)
  | .handler .keepalive | .handler .fetchRetry | .handler (.liveness _) | .handler (.teardown _)
  | .handler (.txWork _) | .handler (.txEnd _) => inferInstanceAs (Decidable False)

/-- It has not come to the fault, and the work item would not bring it about. -/
def Safe (s : Startup n) : Prop :=
  s.faulted = false ∧ ∀ failed, s.Calls (.txWork failed) → ¬ s.Faults (.txWork failed)

/-- A waiting message has the work item submitted. -/
structure Submitted (s : Startup n) : Prop where
  ordered : s.Ordered
  pending : s.uartDev = false → s.proxy.uart.txMsgq ≠ [] → s.proxy.uart.txWork = true

theorem safe_iff (submitted : s.Submitted) :
    s.Safe ↔ s.faulted = false ∧ (s.uartDev = false → s.proxy.uart.txMsgq = []) := by
  constructor
  · rintro ⟨running, never⟩
    refine ⟨running, fun early => ?_⟩
    by_contra waiting
    exact never false (submitted.pending early waiting) ⟨early, submitted.ordered.idle early, waiting⟩
  · rintro ⟨running, drained⟩
    exact ⟨running, fun _ _ faults => faults.2.2 (drained faults.1)⟩

theorem submitted_zero : (zero n).Submitted :=
  ⟨ordered_zero, fun _ waiting => absurd rfl waiting⟩

/-- Up to the device being set main leaves the transmit path alone. -/
theorem early_call (ordered : s.Ordered) (failed : Bool) (rand : UInt32)
    (early : (s.call p failed rand).uartDev = false) :
    s.uartDev = false ∧ (s.call p failed rand).proxy.uart = s.proxy.uart := by
  obtain ⟨proxy, main, handler, advertising, fromradioCb, uartDev, receiving, faulted⟩ := s
  cases main with
  | bleGattInit => exact ⟨early, rfl⟩
  | btEnable => exact ⟨early, rfl⟩
  | startAdvertising => cases failed <;> exact ⟨early, rfl⟩
  | uartMeshtasticInit => cases failed <;> cases early
  | setServeCb => exact ⟨early, rfl⟩
  | sessionStart =>
    have opened := (ordered.listening (ordered.receives (.inr (.inl rfl)))).2
    exact absurd (opened.symm.trans early) (by simp)
  | loop => exact ⟨early, rfl⟩
  | returned => exact ⟨early, rfl⟩

theorem faulted_call (s : Startup n) (failed : Bool) (rand : UInt32) :
    (s.call p failed rand).faulted = s.faulted := by
  obtain ⟨proxy, main, handler, advertising, fromradioCb, uartDev, receiving, faulted⟩ := s
  cases main <;> cases failed <;> rfl

theorem handle_running (ordered : s.Ordered) {e : Event n} (calls : s.Calls e) (safe : ¬ s.Faults e) :
    s.handle p e = { s with proxy := s.proxy.apply p e } := by
  rw [handle, if_neg safe, if_neg (ordered.registered calls)]

theorem submitted_step (s : Startup n) (e : StartupEvent n) (submitted : s.Submitted)
    (enabled : s.enabled e) : (s.next p e).Submitted := by
  refine ⟨ordered_step s e submitted.ordered enabled, ?_⟩
  intro early waiting
  cases e with
  | main failed rand =>
    obtain ⟨before, same⟩ := early_call submitted.ordered failed rand early
    simp only [next, same] at waiting ⊢
    exact submitted.pending before waiting
  | handler e =>
    by_cases faults : s.Faults e
    · simp only [next, handle, if_pos faults] at early waiting ⊢
      exact submitted.pending early waiting
    · simp only [next, handle_running submitted.ordered enabled.2 faults] at early waiting ⊢
      have effect := early_tx (p := p) submitted.ordered early enabled.2 faults
      generalize (s.proxy.apply p e).uart = u at effect waiting ⊢
      cases effect with
      | quiet => exact submitted.pending early waiting
      | offered conn buf passed =>
        unfold uartMeshtasticTx at waiting ⊢
        split_ifs at waiting ⊢
        · exact submitted.pending early waiting
        · exact submitted.pending early waiting
        · rfl
      | worked failed drained => exact absurd drained waiting
      | ended aborted => rfl

/-- A premature write leaves a message in the queue, and nothing else does. -/
theorem safe_step (s : Startup n) (e : StartupEvent n) (submitted : s.Submitted) (safe : s.Safe)
    (enabled : s.enabled e) : (s.next p e).Safe ↔ ¬ s.Premature p e := by
  obtain ⟨running, drained⟩ := (safe_iff submitted).mp safe
  rw [safe_iff (submitted_step s e submitted enabled)]
  cases e with
  | main failed rand =>
    refine iff_of_true ⟨(faulted_call s failed rand).trans running, fun early => ?_⟩ id
    obtain ⟨before, same⟩ := early_call submitted.ordered failed rand early
    exact (congrArg UartTx.txMsgq same).trans (drained before)
  | handler e =>
    have spared : ¬ s.Faults e := by
      intro faults
      cases e with
      | txWork failed => exact faults.2.2 (drained faults.1)
      | _ => exact faults
    simp only [next, handle_running submitted.ordered enabled.2 spared]
    by_cases early : s.uartDev = false
    · have effect := early_tx (p := p) submitted.ordered early enabled.2 spared
      have empty := drained early
      generalize (s.proxy.apply p e).uart = u at effect ⊢
      cases effect with
      | quiet _ absorbed =>
        refine iff_of_true ⟨running, drained⟩ ?_
        cases e with
        | toradioWrite conn buf offset =>
          rintro ⟨-, rfl, passed, -⟩
          exact passed (absorbed conn buf rfl)
        | _ => exact id
      | offered conn buf passed =>
        have room : ¬ s.proxy.uart.txMsgq.length ≥ TX_QUEUE_DEPTH := by simp [empty, TX_QUEUE_DEPTH]
        unfold uartMeshtasticTx Premature
        rw [if_neg room, empty]
        split_ifs with long
        · refine iff_of_true ⟨running, fun _ => empty⟩ fun premature => ?_
          exact absurd premature.2.2.2 (Nat.not_le_of_lt long)
        · refine iff_of_false (fun after => ?_) fun patient => ?_
          · exact absurd (after.2 early) (by simp)
          · exact patient ⟨early, rfl, passed, Nat.le_of_not_lt long⟩
      | worked failed empty => exact iff_of_true ⟨running, fun _ => empty⟩ id
      | ended aborted => exact iff_of_true ⟨running, fun _ => empty⟩ id
    · have patient : ¬ s.Premature p (.handler e) := by
        cases e with
        | toradioWrite conn buf offset => exact fun premature => early premature.1
        | _ => exact id
      exact iff_of_true ⟨running, fun before => absurd before early⟩ patient

end Startup

/-- At every point of a run of the boot the transmit work item can run without handing the
UART driver a null device exactly when no phone's packet was queued for the node before
uart_meshtastic_init had set the device. -/
theorem null_device_exact (es : List (StartupEvent n)) (runs : (startup n p).Runs (.zero n) es) :
    (∀ k, ((startup n p).run (.zero n) (es.take k)).Safe) ↔
      (startup n p).Along (fun s e => ¬ s.Premature p e) (.zero n) es := by
  have safe : (Startup.zero n).Safe := ⟨rfl, fun _ _ faults => faults.2.2 rfl⟩
  exact Machine.prefixes_iff_of_exact_step Startup.Safe Startup.submitted_step
    Startup.safe_step es Startup.submitted_zero safe runs

/-- A phone's packet between the start of advertising and uart_meshtastic_init. -/
def earlyPacket : List (StartupEvent 1) :=
  [.main false 0, .main false 0, .main false 0, .handler (.connected 7 false),
    .handler (.toradioWrite 7 [0xff] 0)]

theorem early_packet_unsafe :
    ¬ ∀ k, ((startup 1 .wire).run (.zero 1) (earlyPacket.take k)).Safe :=
  fun safe => absurd ((null_device_exact earlyPacket (by decide)).mp safe) (by decide)

end MeshPbx
