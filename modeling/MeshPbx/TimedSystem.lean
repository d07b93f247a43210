import MeshPbx.ToradioBoundary
import MeshPbx.Lib.Timed

/-! The proxy in time. The delays that the work items are scheduled with run down
together, a millisecond at a time, and the handler of an expiry starts in the
millisecond it is due. What bounds the silence on the serial line is the keepalive. -/
namespace MeshPbx
variable {n : Nat} {p : Platform} {w w' : Proxy n}

def Session.elapse (s : Session) : Session :=
  { s with
    keepaliveWork := Timer.elapse s.keepaliveWork
    fetchRetryWork := Timer.elapse s.fetchRetryWork
    livenessWork := Timer.elapse s.livenessWork }

def ProxyConn.elapse (pc : ProxyConn) : ProxyConn :=
  { pc with teardownWork := Timer.elapse pc.teardownWork }

def Gatt.elapse (g : Gatt n) : Gatt n :=
  { g with conns := fun i => (g.conns i).elapse }

namespace Proxy

def elapse (w : Proxy n) : Proxy n :=
  { w with gatt := w.gatt.elapse, session := w.session.elapse }

/-- Some work item has run out and not yet been run. -/
def Due (w : Proxy n) : Prop :=
  w.session.keepaliveWork = some 0 ∨ w.session.fetchRetryWork = some 0 ∨
    w.session.livenessWork = some 0 ∨ ∃ i, (w.gatt.conns i).teardownWork = some 0

/-- An expiry waits until its work item has run out. -/
def Timely (w : Proxy n) : Event n → Prop
  | .keepalive => w.session.keepaliveWork = some 0
  | .fetchRetry => w.session.fetchRetryWork = some 0
  | .liveness _ => w.session.livenessWork = some 0
  | .teardown slot => (w.gatt.conns slot).teardownWork = some 0
  | .sessionStart _ | .fromradio _ _ | .toradioWrite _ _ _ | .fromradioRead _ _ _
  | .fromnumRead _ _ _ | .nodeRegWrite _ _ _ | .connected _ _ | .disconnected _ | .txWork _
  | .txEnd _ => True

instance (w : Proxy n) : Decidable w.Due := inferInstanceAs (Decidable (_ ∨ _ ∨ _ ∨ _))

instance (w : Proxy n) : (e : Event n) → Decidable (w.Timely e)
  | .keepalive => inferInstanceAs (Decidable (w.session.keepaliveWork = some 0))
  | .fetchRetry => inferInstanceAs (Decidable (w.session.fetchRetryWork = some 0))
  | .liveness _ => inferInstanceAs (Decidable (w.session.livenessWork = some 0))
  | .teardown slot => inferInstanceAs (Decidable ((w.gatt.conns slot).teardownWork = some 0))
  | .sessionStart _ | .fromradio _ _ | .toradioWrite _ _ _ | .fromradioRead _ _ _
  | .fromnumRead _ _ _ | .nodeRegWrite _ _ _ | .connected _ _ | .disconnected _ | .txWork _
  | .txEnd _ => isTrue trivial

/-- The event put a message into the transmit queue. -/
def Sends (p : Platform) (w : Proxy n) (e : Event n) : Prop :=
  w.uart.txMsgq.length < (w.apply p e).uart.txMsgq.length

instance (w : Proxy n) (e : Event n) : Decidable (w.Sends p e) :=
  inferInstanceAs (Decidable (_ < _))

end Proxy

def kernelTime (n : Nat) : Clockwork (Proxy n) (Event n) where
  elapse := Proxy.elapse
  Due := Proxy.Due
  Timely := Proxy.Timely

variable {O : Type}

/-- The proxy in time, followed by an observer. -/
def timedSystem (n : Nat) (p : Platform) (watch : Observer (Proxy n) (Event n) O) :
    Machine (Proxy n × O) (Ticked (Event n)) :=
  (system n p).timed (kernelTime n) watch

instance (watch : Observer (Proxy n) (Event n) O) (s : Proxy n × O) :
    (e : Ticked (Event n)) → Decidable ((timedSystem n p watch).enabled s e)
  | .tick => inferInstanceAs (Decidable (¬ s.1.Due))
  | .act e => inferInstanceAs (Decidable (s.1.enabled e ∧ s.1.Timely e))

/-! The keepalive timer. -/

/-- What an event other than the start and the keepalive's own expiry does to the
keepalive timer: nothing, or it has sent a message and sets the timer to its full
period. -/
structure KeepaliveTimer (w w' : Proxy n) : Prop where
  armed : w'.session.keepaliveArmed = w.session.keepaliveArmed
  timer : w'.session.keepaliveWork = w.session.keepaliveWork ∨
    (w.session.keepaliveArmed = true ∧
      w'.session.keepaliveWork = some UPSTREAM_KEEPALIVE_MS ∧
      w.uart.txMsgq.length < w'.uart.txMsgq.length)

theorem KeepaliveTimer.refl : KeepaliveTimer w w := ⟨rfl, .inl rfl⟩

/-- A message that `uart_meshtastic_tx` takes lengthens the queue. -/
theorem uart_tx_grows {u : UartTx} {payload : Bytes}
    (sent : (uartMeshtasticTx u payload).2 = none) :
    u.txMsgq.length < (uartMeshtasticTx u payload).1.txMsgq.length := by
  unfold uartMeshtasticTx at sent ⊢
  split_ifs at sent ⊢ with long full
  simp

theorem uart_tx_refused {u : UartTx} {payload : Bytes}
    (refused : (uartMeshtasticTx u payload).2 ≠ none) : (uartMeshtasticTx u payload).1 = u := by
  unfold uartMeshtasticTx at refused ⊢
  split_ifs at refused ⊢ with long full
  · rfl
  · rfl
  · exact absurd rfl refused

theorem send_want_config_grows {u : UartTx} {nonce : UInt32}
    (sent : (sendWantConfig p u nonce).2 = none) :
    u.txMsgq.length < (sendWantConfig p u nonce).1.txMsgq.length := by
  unfold sendWantConfig at sent ⊢
  cases encoded : encodeWantConfig p nonce with
  | none => simp [encoded] at sent
  | some buf =>
    simp only [encoded] at sent ⊢
    exact uart_tx_grows sent

/-- A reschedule after a message was sent. -/
theorem keepalive_timer_sent {s : Session} (armed : s.keepaliveArmed = w.session.keepaliveArmed)
    (timer : s.keepaliveWork = w.session.keepaliveWork)
    (session : w'.session = upstreamKeepaliveReschedule s)
    (sent : w.uart.txMsgq.length < w'.uart.txMsgq.length) : KeepaliveTimer w w' := by
  refine ⟨?_, ?_⟩
  · rw [session, keepaliveArmed_reschedule, armed]
  · rw [session, keepalive_reschedule_eq]
    by_cases running : s.keepaliveArmed = true
    · exact .inr ⟨armed ▸ running, if_pos running, sent⟩
    · exact .inl ((if_neg running).trans timer)

theorem keepalive_timer_kick (session : w'.session = upstreamLivenessKick w.session) :
    KeepaliveTimer w w' := by
  refine ⟨?_, .inl ?_⟩
  · rw [session, keepaliveArmed_kick]
  · rw [session, liveness_kick_eq]

theorem RefetchEffect.keepalive_timer {nonce : UInt32} (effect : RefetchEffect p w nonce w') :
    KeepaliveTimer w w' := by
  cases effect with
  | ignored => exact .refl
  | failed => exact ⟨rfl, .inl rfl⟩
  | started _ sent =>
    refine keepalive_timer_sent ?_ ?_ rfl (send_want_config_grows sent)
    · rfl
    · rfl

theorem FrameEffect.keepalive_timer {payload : Bytes} {rand : UInt32}
    (effect : FrameEffect p w payload rand w') : KeepaliveTimer w w' := by
  cases effect with
  | undecoded => exact ⟨rfl, .inl rfl⟩
  | fetched _ _ _ _ _ effect => cases effect <;> exact ⟨rfl, .inl rfl⟩
  | rebooted => exact (refetch_effect p w rand).keepalive_timer
  | swallowed => exact ⟨rfl, .inl rfl⟩
  | live => exact keepalive_timer_kick rfl
  | packet => exact keepalive_timer_kick (session_dispatchPacket _ _ _)

/-- A forwarded write pushes the keepalive out only where the queue has taken it. -/
theorem toradio_keepalive_timer (p : Platform) (w : Proxy n) (conn : BtConn) (buf : Bytes) :
    KeepaliveTimer w (onToradioBle p w conn buf) := by
  cases decoded : protoDecodeToradio p buf with
  | none =>
    simp only [onToradioBle, decoded]
    exact ⟨rfl, .inl rfl⟩
  | some info =>
    by_cases wants : info.hasWantConfig = true
    · rw [toradio_want_config decoded wants]
      split_ifs <;> exact ⟨rfl, .inl rfl⟩
    · simp only [onToradioBle, decoded, if_neg wants]
      split_ifs with heartbeat disconnect sent
      · exact ⟨rfl, .inl rfl⟩
      · exact ⟨rfl, .inl rfl⟩
      · exact keepalive_timer_sent rfl rfl rfl (uart_tx_grows sent)
      · exact ⟨rfl, .inl rfl⟩

theorem fetch_retry_keepalive_timer (p : Platform) (w : Proxy n) :
    KeepaliveTimer w (fetchRetryHandler p w) := by
  unfold fetchRetryHandler
  split_ifs <;> exact ⟨rfl, .inl rfl⟩

theorem keepalive_timer (p : Platform) (w : Proxy n) (e : Event n)
    (notStart : ∀ rand, e ≠ .sessionStart rand) (notKeepalive : e ≠ .keepalive) :
    KeepaliveTimer w (w.apply p e) := by
  cases e with
  | sessionStart rand => exact absurd rfl (notStart rand)
  | keepalive => exact absurd rfl notKeepalive
  | fromradio frame rand => exact (frame_effect p w frame.bytes rand).keepalive_timer
  | toradioWrite conn buf offset =>
    simp only [Proxy.apply, toradioWrite]
    split_ifs
    · exact .refl
    · exact toradio_keepalive_timer p w conn buf
  | fetchRetry =>
    have idle := fetch_retry_keepalive_timer p
      { w with session := { w.session with fetchRetryWork := none } }
    exact ⟨idle.armed, idle.timer⟩
  | liveness rand =>
    simp only [Proxy.apply, livenessHandler]
    split_ifs
    · exact ⟨rfl, .inl rfl⟩
    · have idle := (refetch_effect p
        { w with session := { w.session with livenessWork := none } } rand).keepalive_timer
      exact ⟨idle.armed, idle.timer⟩
  | _ => exact ⟨rfl, .inl rfl⟩

/-- The expiry of the keepalive sends its heartbeat, or finds no room for it and comes
back after the shorter interval. -/
theorem KeepaliveEffect.expiry {beat : Bytes} (effect : KeepaliveEffect p w beat w') :
    w'.session.keepaliveWork =
      some (if w.uart.txMsgq.length < w'.uart.txMsgq.length then UPSTREAM_KEEPALIVE_MS
        else UPSTREAM_KEEPALIVE_RETRY_MS) := by
  cases effect with
  | sent _ queued => rw [if_pos (uart_tx_grows queued)]
  | failed _ _ refused => rw [uart_tx_refused refused, if_neg (Nat.lt_irrefl _)]

theorem keepalive_expiry (documented : p.Documented) (w : Proxy n) :
    (w.apply p .keepalive).session.keepaliveWork =
      some (if w.Sends p .keepalive then UPSTREAM_KEEPALIVE_MS
        else UPSTREAM_KEEPALIVE_RETRY_MS) :=
  (keepalive_effect documented
    { w with session := { w.session with keepaliveWork := none } }).expiry

theorem keepalive_armed (p : Platform) (w : Proxy n) :
    (w.apply p .keepalive).session.keepaliveArmed = w.session.keepaliveArmed := by
  simp only [Proxy.apply, keepaliveWorkHandler]
  split_ifs <;> rfl

/-- The start sets the timer to its full period, whatever becomes of the want_config. -/
theorem start_keepalive (w : Proxy n) (rand : UInt32) :
    (w.apply p (.sessionStart rand)).session.keepaliveWork = some UPSTREAM_KEEPALIVE_MS ∧
      (w.apply p (.sessionStart rand)).session.keepaliveArmed = true := by
  simp only [Proxy.apply, upstreamSessionStart]
  split <;> exact ⟨rfl, rfl⟩

/-! The silence of the serial line. -/

/-- Milliseconds since a message was last accepted for transmission, or since the
session was started, and how many keepalives the full queue has refused meanwhile. -/
structure Silence where
  elapsed : Nat
  refused : Nat
  deriving DecidableEq, Repr

def Silence.zero : Silence := ⟨0, 0⟩

/-- The line is listened to from the start of the session on. -/
def silence (n : Nat) (p : Platform) : Observer (Proxy n) (Event n) Silence where
  tick o := { o with elapsed := o.elapsed + 1 }
  act o w e := match e with
    | .sessionStart _ => .zero
    | .keepalive => if w.Sends p e then .zero else { o with refused := o.refused + 1 }
    | e => if w.Sends p e then .zero else o

def Silence.bound (o : Silence) : Nat :=
  UPSTREAM_KEEPALIVE_MS + UPSTREAM_KEEPALIVE_RETRY_MS * o.refused

/-- Once the session is started its keepalive is scheduled, no later than its period
and no later than the silence may last. -/
structure LineKept (s : Proxy n × Silence) : Prop where
  unarmed : s.1.session.keepaliveArmed = false → s.1.session.keepaliveWork = none
  period : s.1.session.keepaliveArmed = true →
    Timer.Within s.1.session.keepaliveWork 0 UPSTREAM_KEEPALIVE_MS
  silent : s.1.session.keepaliveArmed = true →
    Timer.Within s.1.session.keepaliveWork s.2.elapsed s.2.bound

theorem within_full : Timer.Within (some UPSTREAM_KEEPALIVE_MS) 0 UPSTREAM_KEEPALIVE_MS :=
  ⟨_, rfl, Nat.le_of_eq (Nat.zero_add _)⟩

/-- A message has just been sent, or the session started. -/
theorem line_kept_zero (unarmed : w.session.keepaliveArmed = false → w.session.keepaliveWork = none)
    (period : w.session.keepaliveArmed = true →
      Timer.Within w.session.keepaliveWork 0 UPSTREAM_KEEPALIVE_MS) : LineKept (w, .zero) :=
  ⟨unarmed, period, fun armed =>
    (period armed).mono (by simp [Silence.bound, Silence.zero])⟩

theorem line_kept_boot : LineKept (Proxy.boot n, .zero) :=
  ⟨fun _ => rfl, fun armed => Bool.noConfusion armed, fun armed => Bool.noConfusion armed⟩

theorem line_kept_tick (s : Proxy n) (o : Silence) (heard : LineKept (s, o)) (running : ¬ s.Due) :
    LineKept (s.elapse, (silence n p).tick o) := by
  have notOut : s.session.keepaliveWork ≠ some 0 := fun out => running (.inl out)
  refine ⟨fun unarmed => ?_, fun armed => ?_, fun armed => ?_⟩
  · show Timer.elapse s.session.keepaliveWork = none
    rw [heard.unarmed unarmed]
    rfl
  · exact ((heard.period armed).tick notOut).mono (by omega)
  · exact (heard.silent armed).tick notOut

/-- The keepalive's own expiry: the silence is over, or it may last one interval longer. -/
theorem line_kept_keepalive (documented : p.Documented) (s : Proxy n) (o : Silence)
    (heard : LineKept (s, o)) (out : s.session.keepaliveWork = some 0) :
    LineKept (s.apply p .keepalive, (silence n p).act o s .keepalive) := by
  have expiry := keepalive_expiry documented s
  have armed : s.session.keepaliveArmed = true := by
    by_contra unarmed
    have idle := heard.unarmed (Bool.eq_false_of_not_eq_true unarmed)
    rw [out] at idle
    contradiction
  have still : (s.apply p .keepalive).session.keepaliveArmed = true := by
    rw [keepalive_armed, armed]
  have never : (s.apply p .keepalive).session.keepaliveArmed = false →
      (s.apply p .keepalive).session.keepaliveWork = none := by
    rw [still]
    exact fun unarmed => Bool.noConfusion unarmed
  simp only [silence]
  by_cases sent : s.Sends p .keepalive
  · rw [if_pos sent] at expiry ⊢
    exact line_kept_zero never fun _ => expiry ▸ within_full
  · rw [if_neg sent] at expiry ⊢
    refine ⟨never, fun _ => ⟨_, expiry, ?_⟩, fun _ => ⟨_, expiry, ?_⟩⟩
    · simp [UPSTREAM_KEEPALIVE_RETRY_MS, UPSTREAM_KEEPALIVE_MS]
    · have silent := (heard.silent armed).le
      simp only [Silence.bound, Nat.mul_succ] at silent ⊢
      omega

/-- Any other event keeps the timer or sends, and sending ends the silence. -/
theorem line_kept_other (s : Proxy n) (o : Silence) (heard : LineKept (s, o)) (s' : Proxy n)
    (timer : KeepaliveTimer s s') :
    LineKept (s', if s.uart.txMsgq.length < s'.uart.txMsgq.length then .zero else o) := by
  have unarmed : s'.session.keepaliveArmed = false → s'.session.keepaliveWork = none := by
    intro unarmed
    rw [timer.armed] at unarmed
    rcases timer.timer with same | ⟨armed, _, _⟩
    · rw [same, heard.unarmed unarmed]
    · rw [unarmed] at armed
      contradiction
  by_cases sent : s.uart.txMsgq.length < s'.uart.txMsgq.length
  · rw [if_pos sent]
    refine line_kept_zero unarmed fun armed => ?_
    rcases timer.timer with same | ⟨_, full, _⟩
    · rw [same]
      exact heard.period (timer.armed ▸ armed)
    · rw [full]
      exact within_full
  · rw [if_neg sent]
    rcases timer.timer with same | ⟨_, _, grown⟩
    · refine ⟨unarmed, fun armed => ?_, fun armed => ?_⟩
      · rw [same]
        exact heard.period (timer.armed ▸ armed)
      · rw [same]
        exact heard.silent (timer.armed ▸ armed)
    · exact absurd grown sent

theorem line_kept_act (documented : p.Documented) (s : Proxy n) (o : Silence) (e : Event n)
    (heard : LineKept (s, o)) (timely : s.Timely e) :
    LineKept (s.apply p e, (silence n p).act o s e) := by
  cases e with
  | sessionStart rand =>
    obtain ⟨full, armed⟩ := start_keepalive (p := p) s rand
    refine line_kept_zero (fun unarmed => ?_) (fun _ => full ▸ within_full)
    rw [armed] at unarmed
    contradiction
  | keepalive => exact line_kept_keepalive documented s o heard timely
  | _ => exact line_kept_other s o heard _ (keepalive_timer p s _ (by simp) (by simp))

/-- The session is started, and its want_config waits two milliseconds for the wire. -/
def startedLine : List (Ticked (Event 0)) :=
  [.act (.sessionStart 5), .tick, .tick, .act (.txWork false), .tick]

end MeshPbx
