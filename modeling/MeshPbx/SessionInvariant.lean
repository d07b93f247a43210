import MeshPbx.DispatchEffect
import MeshPbx.System

/-! The session between handler runs: which states it can be in, and that the
cache is published exactly in LIVE and REFETCHING. -/
namespace MeshPbx
variable {n : Nat} {p : Platform} {w : Proxy n}

/-- A kick touches the liveness timer only. -/
theorem liveness_kick_eq (s : Session) : upstreamLivenessKick s = { s with
    livenessWork := if s.state = .live then some UPSTREAM_LIVENESS_TIMEOUT_MS
      else s.livenessWork } := by
  unfold upstreamLivenessKick
  split <;> rfl

@[simp] theorem state_kick (s : Session) : (upstreamLivenessKick s).state = s.state := by
  rw [liveness_kick_eq]

@[simp] theorem pending_kick (s : Session) : (upstreamLivenessKick s).pending = s.pending := by
  rw [liveness_kick_eq]

@[simp] theorem keepaliveArmed_kick (s : Session) :
    (upstreamLivenessKick s).keepaliveArmed = s.keepaliveArmed := by
  rw [liveness_kick_eq]

@[simp] theorem keepalivePending_kick (s : Session) :
    (upstreamLivenessKick s).keepalivePending = s.keepalivePending := by
  rw [liveness_kick_eq]

@[simp] theorem nonce_kick (s : Session) : (upstreamLivenessKick s).nonce = s.nonce := by
  rw [liveness_kick_eq]

@[simp] theorem fetchRetryWork_kick (s : Session) :
    (upstreamLivenessKick s).fetchRetryWork = s.fetchRetryWork := by
  rw [liveness_kick_eq]

@[simp] theorem keepaliveNonce_kick (s : Session) :
    (upstreamLivenessKick s).keepaliveNonce = s.keepaliveNonce := by
  rw [liveness_kick_eq]

/-- A reschedule touches the keepalive timer only. -/
theorem keepalive_reschedule_eq (s : Session) : upstreamKeepaliveReschedule s = { s with
    keepaliveWork := if s.keepaliveArmed then some UPSTREAM_KEEPALIVE_MS
      else s.keepaliveWork } := by
  unfold upstreamKeepaliveReschedule
  split <;> rfl

@[simp] theorem state_reschedule (s : Session) :
    (upstreamKeepaliveReschedule s).state = s.state := by
  rw [keepalive_reschedule_eq]

@[simp] theorem pending_reschedule (s : Session) :
    (upstreamKeepaliveReschedule s).pending = s.pending := by
  rw [keepalive_reschedule_eq]

@[simp] theorem keepaliveArmed_reschedule (s : Session) :
    (upstreamKeepaliveReschedule s).keepaliveArmed = s.keepaliveArmed := by
  rw [keepalive_reschedule_eq]

@[simp] theorem livenessWork_reschedule (s : Session) :
    (upstreamKeepaliveReschedule s).livenessWork = s.livenessWork := by
  rw [keepalive_reschedule_eq]

@[simp] theorem keepalivePending_reschedule (s : Session) :
    (upstreamKeepaliveReschedule s).keepalivePending = s.keepalivePending := by
  rw [keepalive_reschedule_eq]

@[simp] theorem nonce_reschedule (s : Session) :
    (upstreamKeepaliveReschedule s).nonce = s.nonce := by
  rw [keepalive_reschedule_eq]

@[simp] theorem fetchRetryWork_reschedule (s : Session) :
    (upstreamKeepaliveReschedule s).fetchRetryWork = s.fetchRetryWork := by
  rw [keepalive_reschedule_eq]

@[simp] theorem keepaliveNonce_reschedule (s : Session) :
    (upstreamKeepaliveReschedule s).keepaliveNonce = s.keepaliveNonce := by
  rw [keepalive_reschedule_eq]

/-- A refetch is ignored, or stays where it is because the send failed, or
enters REFETCHING. -/
inductive RefetchEffect (p : Platform) (w : Proxy n) (nonce : UInt32) : Proxy n → Prop
  | ignored (busy : w.session.state = .boot ∨ w.session.Window) : RefetchEffect p w nonce w
  | failed (idle : w.session.state = .live ∨ w.session.state = .cacheReady)
      (refused : (sendWantConfig p w.uart nonce).2 ≠ none) :
      RefetchEffect p w nonce { w with
        session := { w.session with nonce := nonce }
        uart := (sendWantConfig p w.uart nonce).1 }
  | started (idle : w.session.state = .live ∨ w.session.state = .cacheReady)
      (sent : (sendWantConfig p w.uart nonce).2 = none) :
      RefetchEffect p w nonce { w with
        uart := (sendWantConfig p w.uart nonce).1
        session := upstreamKeepaliveReschedule { w.session with
          nonce := nonce
          state := .refetching
          fetchRetryWork := some UPSTREAM_FETCH_RETRY_MS } }

theorem refetch_effect (p : Platform) (w : Proxy n) (rand : UInt32) :
    RefetchEffect p w (if reservedNonce rand then 2 else rand) (upstreamRefetch p w rand) := by
  unfold upstreamRefetch
  by_cases busy : w.session.state = .boot ∨ w.session.Window
  · have early : w.session.state = .boot ∨ w.session.state = .fetching ∨
        w.session.state = .refetching := busy
    rw [if_pos early]
    exact .ignored busy
  · have late : ¬ (w.session.state = .boot ∨ w.session.state = .fetching ∨
        w.session.state = .refetching) := busy
    have idle : w.session.state = .live ∨ w.session.state = .cacheReady := by
      cases state : w.session.state <;> simp_all
    simp only [if_neg late]
    generalize (if reservedNonce rand then 2 else rand) = nonce
    split_ifs with refused
    · exact .failed idle refused
    · exact .started idle (by simpa using refused)

/-- A keepalive marks its reply as pending exactly when its heartbeat was
queued for transmission. -/
inductive KeepaliveEffect (p : Platform) (w : Proxy n) (beat : Bytes) : Proxy n → Prop
  | sent (next : UInt32) (queued : (uartMeshtasticTx w.uart beat).2 = none) :
      KeepaliveEffect p w beat { w with
        uart := (uartMeshtasticTx w.uart beat).1
        session := { w.session with
          keepaliveNonce := next
          keepalivePending := true
          txFailCnt := 0
          keepaliveWork := some UPSTREAM_KEEPALIVE_MS } }
  | failed (next failures : UInt32) (refused : (uartMeshtasticTx w.uart beat).2 ≠ none) :
      KeepaliveEffect p w beat { w with
        uart := (uartMeshtasticTx w.uart beat).1
        session := { w.session with
          keepaliveNonce := next
          keepalivePending := false
          txFailCnt := failures
          keepaliveWork := some UPSTREAM_KEEPALIVE_RETRY_MS } }

theorem keepalive_effect (documented : p.Documented) (w : Proxy n) :
    KeepaliveEffect p w (p.toRadioBytes (.heartbeat w.session.keepaliveNonce))
      (keepaliveWorkHandler p w) := by
  simp only [keepaliveWorkHandler, encode_heartbeat documented, if_true]
  by_cases refused : (uartMeshtasticTx w.uart
      (p.toRadioBytes (.heartbeat w.session.keepaliveNonce))).2 ≠ none
  · rw [if_pos refused]
    exact .failed _ _ refused
  · rw [if_neg refused]
    exact .sent _ (by simpa using refused)

/-- How far the session is: its state, the cache's publish flag, whether the
keepalive has been armed and which phones are parked. -/
structure Phase where
  state : UpstreamState
  ready : Bool
  armed : Bool
  pending : List BtConn
  deriving DecidableEq, Repr

def Proxy.phase (w : Proxy n) : Phase :=
  ⟨w.session.state, w.cache.ready, w.session.keepaliveArmed, w.session.pending⟩

/-- What one handler run can do to the phase. -/
inductive Phase.Step : Phase → Phase → Prop
  | stays (a : Phase) : Step a a
  | unsent (a : Phase) (unarmed : a.armed = false) : Step a { a with armed := true }
  | opened (a : Phase) (unarmed : a.armed = false) : Step a ⟨.fetching, false, true, []⟩
  | reopened (a : Phase) (fetching : a.state = .fetching) : Step a { a with ready := false }
  | published (a : Phase) (fetching : a.state = .fetching) :
      Step a { a with state := .live, ready := true, pending := [] }
  | refetched (a : Phase) (idle : a.state = .live ∨ a.state = .cacheReady) :
      Step a { a with state := .refetching }
  | resumed (a : Phase) (refetching : a.state = .refetching) : Step a { a with state := .live }

theorem Phase.Step.of_eq {a b : Phase} (same : b = a) : Step a b := same ▸ .stays a

theorem ready_add (c : ConfigCache) (raw : Bytes) (variant : FromRadioTag) :
    (cacheAddFrame c raw variant).1.ready = c.ready := by
  unfold cacheAddFrame
  split_ifs <;> rfl

theorem RefetchEffect.phase {w' : Proxy n} {nonce : UInt32}
    (effect : RefetchEffect p w nonce w') : Phase.Step w.phase w'.phase := by
  cases effect with
  | ignored => exact .stays _
  | failed => exact .stays _
  | started idle =>
    have moved : Phase.Step w.phase { w.phase with state := .refetching } := .refetched _ idle
    simpa [Proxy.phase] using moved

theorem dispatch_packet_frame (w : Proxy n) (raw : Bytes) (info : FromradioInfo) :
    ∃ g, dispatchPacket w raw info = { w with gatt := g } := by
  unfold dispatchPacket
  split_ifs
  · exact ⟨_, rfl⟩
  · split
    · exact ⟨_, rfl⟩
    · split <;> exact ⟨_, rfl⟩
  · exact ⟨_, rfl⟩

/-! A packet is routed through the GATT server alone. -/

@[simp] theorem session_dispatchPacket (w : Proxy n) (raw : Bytes) (info : FromradioInfo) :
    (dispatchPacket w raw info).session = w.session := by
  obtain ⟨g, routed⟩ := dispatch_packet_frame w raw info
  rw [routed]

@[simp] theorem uart_dispatchPacket (w : Proxy n) (raw : Bytes) (info : FromradioInfo) :
    (dispatchPacket w raw info).uart = w.uart := by
  obtain ⟨g, routed⟩ := dispatch_packet_frame w raw info
  rw [routed]

@[simp] theorem cache_dispatchPacket (w : Proxy n) (raw : Bytes) (info : FromradioInfo) :
    (dispatchPacket w raw info).cache = w.cache := by
  obtain ⟨g, routed⟩ := dispatch_packet_frame w raw info
  rw [routed]

theorem FetchEffect.phase {w' : Proxy n} {payload : Bytes} {info : FromradioInfo}
    (effect : FetchEffect p w payload info w') : Phase.Step w.phase w'.phase := by
  cases effect with
  | stored => exact .of_eq (by simp [Proxy.phase, Session.retryArmed, ready_add])
  | discarded => exact .stays _
  | published fetching => exact .published _ fetching
  | resumed refetching => exact .resumed _ refetching

theorem FrameEffect.phase {w' : Proxy n} {payload : Bytes} {rand : UInt32}
    (effect : FrameEffect p w payload rand w') : Phase.Step w.phase w'.phase := by
  cases effect with
  | undecoded => exact .stays _
  | fetched _ _ _ _ _ effect => exact effect.phase
  | rebooted => exact (refetch_effect p w rand).phase
  | swallowed => exact .stays _
  | live => exact .of_eq (by simp [Proxy.phase, broadcast])
  | packet => exact .of_eq (by simp [Proxy.phase])

theorem ToradioEffect.phase {w' : Proxy n} {conn : BtConn} {data : Bytes}
    (effect : ToradioEffect p w conn data w') : w'.phase = w.phase := by
  cases effect with
  | forwarded s session =>
    rcases session with rfl | rfl
    · rfl
    · simp [Proxy.phase]
  | _ => rfl

theorem start_phase (w : Proxy n) (rand : UInt32) (unarmed : w.session.keepaliveArmed = false) :
    Phase.Step w.phase (upstreamSessionStart p w rand).phase := by
  unfold upstreamSessionStart
  simp only
  split
  · exact .unsent _ unarmed
  · exact .opened _ unarmed

theorem fetch_retry_phase (w : Proxy n) : Phase.Step w.phase (fetchRetryHandler p w).phase := by
  unfold fetchRetryHandler
  split_ifs with other fetching
  · exact .stays _
  · exact .reopened _ fetching
  · exact .stays _

theorem keepalive_phase (w : Proxy n) : (keepaliveWorkHandler p w).phase = w.phase := by
  simp only [keepaliveWorkHandler]
  split_ifs <;> rfl

theorem phase_step (w : Proxy n) (e : Event n) (enabled : w.enabled e) :
    Phase.Step w.phase (w.apply p e).phase := by
  cases e with
  | sessionStart rand => exact start_phase w rand enabled
  | fromradio frame rand => exact (frame_effect p w frame.bytes rand).phase
  | toradioWrite conn buf offset =>
    simp only [Proxy.apply, toradioWrite]
    split_ifs
    · exact .stays _
    · exact .of_eq (toradio_effect p w conn buf).phase
  | keepalive => exact .of_eq (keepalive_phase _)
  | fetchRetry =>
    exact fetch_retry_phase { w with session := { w.session with fetchRetryWork := none } }
  | liveness rand =>
    simp only [Proxy.apply, livenessHandler]
    split_ifs
    · exact .stays _
    · exact (refetch_effect p { w with session := { w.session with livenessWork := none } } rand).phase
  | _ => exact .stays _

/-- What holds of the session between any two handler runs. -/
structure Settled (w : Proxy n) : Prop where
  unarmed : w.session.keepaliveArmed = false → w.session.state = .boot
  passing : w.session.state ≠ .cacheReady
  published : w.cache.ready = true ↔ w.session.state = .live ∨ w.session.state = .refetching
  parked : w.session.pending = []

/-- The part of it that parked phones do not matter to. -/
structure Phase.Consistent (a : Phase) : Prop where
  unarmed : a.armed = false → a.state = .boot
  passing : a.state ≠ .cacheReady
  published : a.ready = true ↔ a.state = .live ∨ a.state = .refetching

theorem Phase.Step.consistent {a b : Phase} (step : Phase.Step a b) (consistent : a.Consistent) :
    b.Consistent := by
  obtain ⟨unarmed, passing, published⟩ := consistent
  cases step with
  | stays => exact ⟨unarmed, passing, published⟩
  | unsent => exact ⟨fun armed => Bool.noConfusion armed, passing, published⟩
  | opened => exact ⟨fun armed => Bool.noConfusion armed, by simp, by simp⟩
  | reopened fetching => exact ⟨unarmed, passing, by simp [fetching]⟩
  | published fetching =>
    refine ⟨fun armed => ?_, by simp, by simp⟩
    have boot := unarmed armed
    rw [fetching] at boot
    contradiction
  | refetched idle =>
    have live := idle.resolve_right passing
    refine ⟨fun armed => ?_, by simp, by simpa using published.mpr (.inl live)⟩
    have boot := unarmed armed
    rw [live] at boot
    contradiction
  | resumed refetching =>
    refine ⟨fun armed => ?_, by simp, by simpa using published.mpr (.inr refetching)⟩
    have boot := unarmed armed
    rw [refetching] at boot
    contradiction

theorem Phase.Step.parked {a b : Phase} (step : Phase.Step a b) :
    b.pending = a.pending ∨ b.pending = [] := by
  cases step with
  | opened => exact .inr rfl
  | published => exact .inr rfl
  | _ => exact .inl rfl

theorem settled_boot : Settled (Proxy.boot n) :=
  ⟨fun _ => rfl, by simp [Proxy.boot, upstreamSetServeCb, Session.zero],
    by simp [Proxy.boot, upstreamSetServeCb, Session.zero, ConfigCache.zero], rfl⟩

theorem Settled.consistent (settled : Settled w) : w.phase.Consistent :=
  ⟨settled.unarmed, settled.passing, settled.published⟩

theorem settled_step (w : Proxy n) (e : Event n) (settled : Settled w) (enabled : w.enabled e) :
    Settled (w.apply p e) := by
  have step := phase_step (p := p) w e enabled
  obtain ⟨unarmed, passing, published⟩ := step.consistent settled.consistent
  exact ⟨unarmed, passing, published, step.parked.elim (fun kept => kept.trans settled.parked) id⟩

theorem Reachable.settled (reached : Reachable p w) : Settled w :=
  Machine.Reachable.invariant settled_step settled_boot reached

/-- The session is started as soon as the keepalive is armed: building the
want_config cannot fail. -/
theorem want_config_encodes (documented : p.Documented) (nonce : UInt32) :
    encodeWantConfig p nonce = some (p.toRadioBytes (.wantConfig nonce)) := by
  have fits : ([] : Bytes).length + (p.toRadioChunks (.wantConfig nonce)).flatten.length ≤ p.toRadioSize := by
    rw [List.length_nil, Nat.zero_add]
    exact documented.wantConfig_fits nonce
  have encoded := pbEncode_fits p.toRadioSize (p.toRadioChunks (.wantConfig nonce)) [] fits
  rw [List.nil_append] at encoded
  simp only [encodeWantConfig]
  rw [show (p.toRadioChunks { whichPayloadVariant := .wantConfigId, wantConfigId := nonce }) =
    p.toRadioChunks (.wantConfig nonce) from rfl, encoded]
  rfl

theorem fetch_retry_fetching (documented : p.Documented) (fetching : w.session.state = .fetching) :
    fetchRetryHandler p w =
      { w with
        cache := cacheBegin w.cache
        uart := (uartMeshtasticTx w.uart (p.toRadioBytes (.wantConfig w.session.nonce))).1
        session := w.session.retryArmed } := by
  have inside : ¬ (w.session.state ≠ .fetching ∧ w.session.state ≠ .refetching) := by
    simp [fetching]
  simp only [fetchRetryHandler, if_neg inside, if_pos fetching, sendWantConfig,
    want_config_encodes documented, Session.retryArmed]

/-- A want_config is refused only by a full transmit queue. -/
theorem send_want_config_sent (documented : p.Documented) (u : UartTx) (nonce : UInt32) :
    (sendWantConfig p u nonce).2 = none ↔ u.txMsgq.length < TX_QUEUE_DEPTH := by
  have short : (p.toRadioBytes (.wantConfig nonce)).length ≤ MESHTASTIC_MAX_PAYLOAD :=
    (documented.wantConfig_short nonce).trans (by decide)
  simp only [sendWantConfig, want_config_encodes documented]
  exact uart_tx_sent u short

end MeshPbx
