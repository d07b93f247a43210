import MeshPbx.FetchRetry
import MeshPbx.FramingAgreement

/-! The nonces the node treats specially. Both nonces of the proxy skip 0 and 1; the
want_config's may still be one of the two that ask for a part of the burst, and no
step but the draw of such a number brings that about. -/
namespace MeshPbx
variable {n : Nat} {p : Platform} {w w' : Proxy n} {e : Event n} {entry : Bytes}

/-- The number asks for the whole burst. -/
def Ordinary (rand : UInt32) : Prop :=
  rand ≠ MESH_NONCE_ONLY_CONFIG ∧ rand ≠ MESH_NONCE_ONLY_NODES

instance (rand : UInt32) : Decidable (Ordinary rand) := inferInstanceAs (Decidable (_ ∧ _))

/-- A want_config with this nonce means nothing more to the node. -/
def PlainNonce (nonce : UInt32) : Prop :=
  reservedNonce nonce = false ∧ Ordinary nonce

/-- No special nonce is read in the entry. -/
structure PlainEntry (p : Platform) (entry : Bytes) : Prop where
  wantConfig : ∀ message ∈ p.decodeToRadio entry,
    message.whichPayloadVariant = .wantConfigId → PlainNonce message.wantConfigId
  heartbeat : ∀ message ∈ p.decodeToRadio entry,
    message.whichPayloadVariant = .heartbeat → reservedNonce message.heartbeatNonce = false

/-- The session is outside a fetch and the transmit queue has room, so a refetch is
sent. -/
def Proxy.Refetches (w : Proxy n) : Prop :=
  (w.session.state = .live ∨ w.session.state = .cacheReady) ∧
    w.uart.txMsgq.length < TX_QUEUE_DEPTH

instance (w : Proxy n) : Decidable w.Refetches := inferInstanceAs (Decidable (_ ∧ _))

/-- A random number that the step draws for the want_config of a fetch is an ordinary
one. -/
def OrdinaryDraw (p : Platform) (w : Proxy n) : Event n → Prop
  | .sessionStart rand => Ordinary rand
  | .liveness rand => w.session.state = .live → w.Refetches → Ordinary rand
  | .fromradio frame rand =>
    (∃ info ∈ protoDecodeFromradio p frame.bytes, info.whichVariant = .rebooted) →
      w.Refetches → Ordinary rand
  | .toradioWrite _ _ _ | .fromradioRead _ _ _ | .fromnumRead _ _ _ | .nodeRegWrite _ _ _
  | .connected _ _ | .disconnected _ | .keepalive | .fetchRetry | .teardown _ | .txWork _
  | .txEnd _ => True

instance (w : Proxy n) : (e : Event n) → Decidable (OrdinaryDraw p w e)
  | .sessionStart _ => inferInstanceAs (Decidable (Ordinary _))
  | .liveness _ => inferInstanceAs (Decidable (_ → _ → _))
  | .fromradio _ _ => inferInstanceAs (Decidable (_ → _ → _))
  | .toradioWrite _ _ _ | .fromradioRead _ _ _ | .fromnumRead _ _ _ | .nodeRegWrite _ _ _
  | .connected _ _ | .disconnected _ | .keepalive | .fetchRetry | .teardown _ | .txWork _
  | .txEnd _ => isTrue trivial

/-- The nonce a fetch asks with, and asks again with, is plain. -/
def PlainFetch (w : Proxy n) : Prop :=
  w.session.Window → PlainNonce w.session.nonce

theorem session_nonce_plain {rand : UInt32} (ordinary : Ordinary rand) :
    PlainNonce (sessionNonce rand) := by
  unfold sessionNonce
  by_cases reserved : reservedNonce rand = true
  · rw [if_pos reserved]
    exact ⟨by decide, by decide⟩
  · rw [if_neg reserved]
    exact ⟨by simpa using reserved, ordinary⟩

/-- Without a random number a step opens no fetch and changes no nonce. -/
theorem Fetch.Step.undrawn {f f' : Fetch} (step : Fetch.Step none f f') (after : f'.Window) :
    f.Window ∧ f'.nonce = f.nonce := by
  cases step with
  | stays => exact ⟨after, rfl⟩
  | rearmed _ _ window => exact ⟨window, rfl⟩
  | closed => exact absurd rfl after.not_live
  | expired => exact ⟨after, rfl⟩

theorem PlainFetch.undrawn (plain : PlainFetch w)
    (step : Fetch.Step none w.session.fetch w'.session.fetch) : PlainFetch w' := by
  intro after
  obtain ⟨before, same⟩ := step.undrawn after
  have kept : w'.session.nonce = w.session.nonce := same
  rw [kept]
  exact plain before

theorem PlainFetch.refetch (documented : p.Documented) (plain : PlainFetch w) {rand : UInt32}
    (ordinary : w.Refetches → Ordinary rand) : PlainFetch (upstreamRefetch p w rand) := by
  have effect : RefetchEffect p w (sessionNonce rand) (upstreamRefetch p w rand) :=
    refetch_effect p w rand
  generalize upstreamRefetch p w rand = after at effect ⊢
  cases effect with
  | ignored => exact plain
  | failed idle =>
    have outside : ¬ w.session.Window := Fetch.Idle.not_window (f := w.session.fetch) idle
    exact fun window => absurd window outside
  | started idle sent =>
    intro _
    have room := (send_want_config_sent documented w.uart (sessionNonce rand)).mp sent
    rw [nonce_reschedule]
    exact session_nonce_plain (ordinary ⟨idle, room⟩)

theorem PlainFetch.frame (documented : p.Documented) (plain : PlainFetch w) {payload : Bytes}
    {rand : UInt32} (ordinary : (∃ info ∈ protoDecodeFromradio p payload,
      info.whichVariant = .rebooted) → w.Refetches → Ordinary rand)
    (effect : FrameEffect p w payload rand w') : PlainFetch w' := by
  cases effect with
  | undecoded => exact plain
  | fetched _ _ window _ _ effect => exact plain.undrawn (effect.fetch window)
  | rebooted info decoded _ reboot => exact plain.refetch documented (ordinary ⟨info, decoded, reboot⟩)
  | swallowed => exact plain
  | live => exact plain.undrawn (.of_eq (fetch_kick w.session))
  | packet =>
    refine plain.undrawn (.of_eq ?_)
    rw [session_dispatchPacket]
    exact fetch_kick w.session

theorem plain_fetch_step (documented : p.Documented) (w : Proxy n) (e : Event n)
    (plain : PlainFetch w) (ordinary : OrdinaryDraw p w e) : PlainFetch (w.apply p e) := by
  cases e with
  | sessionStart rand =>
    intro _
    simp only [Proxy.apply, upstreamSessionStart, want_config_encodes documented]
    exact session_nonce_plain ordinary
  | fromradio frame rand => exact plain.frame documented ordinary (frame_effect p w frame.bytes rand)
  | toradioWrite conn buf offset =>
    simp only [Proxy.apply, toradioWrite]
    split_ifs
    · exact plain
    · exact plain.undrawn (.of_eq (toradio_effect p w conn buf).fetch)
  | keepalive => exact plain.undrawn (.of_eq (keepalive_fetch p _))
  | fetchRetry => exact plain.undrawn (fetch_retry_fetch p w)
  | liveness rand =>
    have idle : PlainFetch { w with session := { w.session with livenessWork := none } } := plain
    simp only [Proxy.apply, livenessHandler]
    split_ifs with live
    · exact plain
    · exact idle.refetch documented (ordinary (by simpa using live))
  | _ => exact plain

/-! The counter of the keepalive. -/

theorem RefetchEffect.keepaliveNonce {nonce : UInt32} (effect : RefetchEffect p w nonce w') :
    w'.session.keepaliveNonce = w.session.keepaliveNonce := by
  cases effect with
  | started => rw [keepaliveNonce_reschedule]
  | _ => rfl

theorem FrameEffect.keepaliveNonce {payload : Bytes} {rand : UInt32}
    (effect : FrameEffect p w payload rand w') :
    w'.session.keepaliveNonce = w.session.keepaliveNonce := by
  cases effect with
  | fetched _ _ _ _ _ effect => cases effect <;> rfl
  | rebooted => exact (refetch_effect p w rand).keepaliveNonce
  | live => exact keepaliveNonce_kick w.session
  | packet =>
    rw [session_dispatchPacket]
    exact keepaliveNonce_kick w.session
  | _ => rfl

theorem ToradioEffect.keepaliveNonce {conn : BtConn} {data : Bytes}
    (effect : ToradioEffect p w conn data w') :
    w'.session.keepaliveNonce = w.session.keepaliveNonce := by
  cases effect with
  | forwarded s session =>
    rcases session with rfl | rfl
    · rfl
    · exact keepaliveNonce_reschedule w.session
  | _ => rfl

/-- The counter skips 0 and 1, also where it wraps. -/
theorem keepalive_nonce_next (p : Platform) (w : Proxy n) :
    reservedNonce (keepaliveWorkHandler p w).session.keepaliveNonce = false := by
  have next : (keepaliveWorkHandler p w).session.keepaliveNonce =
      if reservedNonce (w.session.keepaliveNonce + 1) then 2 else w.session.keepaliveNonce + 1 := by
    simp only [keepaliveWorkHandler]
    split_ifs <;> rfl
  rw [next]
  split_ifs with reserved
  · decide
  · simpa using reserved

theorem keepalive_nonce_step (w : Proxy n) (e : Event n)
    (plain : reservedNonce w.session.keepaliveNonce = false) :
    reservedNonce (w.apply p e).session.keepaliveNonce = false := by
  cases e with
  | sessionStart rand =>
    simp only [Proxy.apply, upstreamSessionStart]
    split <;> exact plain
  | fromradio frame rand =>
    rwa [Proxy.apply, (frame_effect p w frame.bytes rand).keepaliveNonce]
  | toradioWrite conn buf offset =>
    simp only [Proxy.apply, toradioWrite]
    split_ifs
    · exact plain
    · rwa [(toradio_effect p w conn buf).keepaliveNonce]
  | keepalive => exact keepalive_nonce_next p _
  | fetchRetry =>
    simp only [Proxy.apply, fetchRetryHandler]
    split_ifs <;> exact plain
  | liveness rand =>
    simp only [Proxy.apply, livenessHandler]
    split_ifs
    · exact plain
    · rwa [(refetch_effect p _ rand).keepaliveNonce]
  | _ => exact plain

/-! What reaches the transmit path. -/

theorem RefetchEffect.quiet (documented : p.Documented) {nonce : UInt32}
    (effect : RefetchEffect p w nonce w') (outside : ¬ w'.session.Window) : w'.uart = w.uart := by
  cases effect with
  | ignored => rfl
  | failed _ refused =>
    have full : w.uart.txMsgq.length ≥ TX_QUEUE_DEPTH := by
      by_contra room
      exact refused ((send_want_config_sent documented w.uart nonce).mpr (Nat.not_le.mp room))
    rw [send_want_config_offers documented]
    simp only [uartMeshtasticTx, if_pos full]
    split_ifs <;> rfl
  | started =>
    have fetching : (upstreamKeepaliveReschedule { w.session with
        nonce := nonce
        state := .refetching
        fetchRetryWork := some UPSTREAM_FETCH_RETRY_MS }).state = .refetching := by simp
    exact absurd (.inr fetching) outside

theorem FrameEffect.quiet (documented : p.Documented) {payload : Bytes} {rand : UInt32}
    (effect : FrameEffect p w payload rand w') (outside : ¬ w'.session.Window) :
    w'.uart = w.uart := by
  cases effect with
  | fetched _ _ _ _ _ effect => cases effect <;> rfl
  | rebooted => exact (refetch_effect p w rand).quiet documented outside
  | packet => rw [uart_dispatchPacket]
  | _ => rfl

/-- A handler of the session that does not leave it in a fetch has sent nothing. -/
theorem outside_fetch_quiet (documented : p.Documented) (w : Proxy n) (e : Event n)
    (session : e.ofSession = true) (outside : ¬ (w.apply p e).session.Window) :
    (w.apply p e).uart = w.uart := by
  cases e with
  | sessionStart rand =>
    simp only [Proxy.apply, upstreamSessionStart, want_config_encodes documented] at outside
    exact absurd (.inl rfl) outside
  | fromradio frame rand => exact (frame_effect p w frame.bytes rand).quiet documented outside
  | fetchRetry =>
    simp only [Proxy.apply, fetchRetryHandler] at outside ⊢
    split_ifs at outside ⊢ with other
    · rfl
    · exact absurd (not_and_or.mp other) (by simpa [Session.Window] using outside)
    · exact absurd (not_and_or.mp other) (by simpa [Session.Window] using outside)
  | liveness rand =>
    simp only [Proxy.apply, livenessHandler] at outside ⊢
    split_ifs at outside ⊢
    · rfl
    · let idle := { w with session := { w.session with livenessWork := none } }
      have quiet : (upstreamRefetch p idle rand).uart = idle.uart :=
        (refetch_effect p idle rand).quiet documented outside
      exact quiet
  | _ => exact Bool.noConfusion session

section
variable (documented : p.Documented)
include documented

theorem plain_want_config {nonce : UInt32} (plain : PlainNonce nonce) :
    PlainEntry p (p.toRadioBytes (.wantConfig nonce)) := by
  have decoded := documented.wantConfig_decodes nonce
  constructor
  · intro message member _
    obtain rfl := Option.some.inj (decoded.symm.trans member)
    exact plain
  · intro message member heartbeat
    obtain rfl := Option.some.inj (decoded.symm.trans member)
    exact ToRadioTag.noConfusion heartbeat

theorem plain_heartbeat {nonce : UInt32} (plain : reservedNonce nonce = false) :
    PlainEntry p (p.toRadioBytes (.heartbeat nonce)) := by
  have decoded := documented.heartbeat_decodes nonce
  constructor
  · intro message member wants
    obtain rfl := Option.some.inj (decoded.symm.trans member)
    exact ToRadioTag.noConfusion wants
  · intro message member _
    obtain rfl := Option.some.inj (decoded.symm.trans member)
    exact plain

omit documented in
/-- What a phone sends on is neither. -/
theorem plain_passed (passed : ¬ Absorbed p entry) : PlainEntry p entry := by
  constructor
  · intro message member wants
    have decoded : protoDecodeToradio p entry =
        some { hasWantConfig := true, wantConfigId := message.wantConfigId } := by
      simp only [protoDecodeToradio, Option.mem_def.mp member, Option.map_some, wants]
    exact absurd ⟨_, decoded, .inl rfl⟩ passed
  · intro message member heartbeat
    have decoded : protoDecodeToradio p entry = some { hasHeartbeat := true } := by
      simp only [protoDecodeToradio, Option.mem_def.mp member, Option.map_some, heartbeat]
    exact absurd ⟨_, decoded, .inr (.inl rfl)⟩ passed

theorem plain_produced (produced : Produced p w w' e entry)
    (fetch : e.ofSession = true → PlainNonce w'.session.nonce)
    (keepalive : reservedNonce w.session.keepaliveNonce = false) : PlainEntry p entry := by
  cases produced with
  | wantConfig _ session => exact plain_want_config documented (fetch session)
  | heartbeat => exact plain_heartbeat documented keepalive
  | phone _ _ passed => exact plain_passed passed

/-- The invariant: both nonces and all that is on its way to the node are plain. -/
structure AllPlain (p : Platform) (w : Proxy n) : Prop where
  fetch : PlainFetch w
  keepalive : reservedNonce w.session.keepaliveNonce = false
  sent : TxHolds (PlainEntry p) w.uart

omit documented in
theorem all_plain_boot : AllPlain p (.boot n) where
  fetch window := absurd rfl (Fetch.Window.not_boot (f := (Proxy.boot n).session.fetch) window)
  keepalive := rfl
  sent := tx_holds_zero

theorem all_plain_step (w : Proxy n) (e : Event n) (plain : AllPlain p w)
    (_ : (system n p).enabled w e) (ordinary : OrdinaryDraw p w e) :
    AllPlain p ((system n p).next w e) := by
  have fetch := plain_fetch_step documented w e plain.fetch ordinary
  refine ⟨fetch, keepalive_nonce_step w e plain.keepalive, ?_⟩
  by_cases quiet : e.ofSession = true ∧ ¬ (w.apply p e).session.Window
  · have same := outside_fetch_quiet documented w e quiet.1 quiet.2
    exact same ▸ plain.sent
  · refine tx_holds_step documented w e plain.sent (fun entry produced _ _ => ?_)
    refine plain_produced documented produced (fun session => ?_) plain.keepalive
    exact fetch (by_contra fun outside => quiet ⟨session, outside⟩)

/-- In every run whose draws are ordinary ones, no nonce that the node treats
specially is queued or on the wire. -/
theorem no_special_nonce_unless_drawn (es : List (Event n))
    (runs : (system n p).Runs (.boot n) es)
    (ordinary : (system n p).Along (OrdinaryDraw p) (.boot n) es) :
    TxHolds (PlainEntry p) ((system n p).run (.boot n) es).uart :=
  (Machine.invariant_along (all_plain_step documented) es all_plain_boot runs ordinary).sent

end

/-- Two fetches, the first drawn as 0 and the second as 1, and a keepalive. -/
def ordinaryDraws : List (Event 0) :=
  [.sessionStart 0, .fromradio ⟨[0x38, 2], by decide, by decide⟩ 0, .liveness 1, .keepalive, .txWork false]

theorem reserved_draws_replaced :
    TxHolds (PlainEntry .wire) ((system 0 .wire).run (.boot 0) ordinaryDraws).uart :=
  no_special_nonce_unless_drawn wire_documented ordinaryDraws (by decide) (by decide)

/-- The draw of the boot fetch asks the node for a part of the burst. -/
def specialDraw : List (Event 0) := [.sessionStart MESH_NONCE_ONLY_CONFIG, .txWork false]

theorem special_draw_sent :
    (system 0 .wire).Runs (.boot 0) specialDraw ∧
      ∃ entry, ((system 0 .wire).run (.boot 0) specialDraw).uart.outstanding = some (framed entry) ∧
        wantConfigNonce .wire entry = some MESH_NONCE_ONLY_CONFIG ∧ ¬ PlainEntry .wire entry := by
  refine ⟨by decide, [0x18, 0xac, 0x9e, 0x04], by decide, by decide, ?_⟩
  intro plain
  exact absurd (plain.wantConfig (.wantConfig MESH_NONCE_ONLY_CONFIG) (by decide) rfl).2.1 (by decide)

end MeshPbx
