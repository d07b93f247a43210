import MeshPbx.SessionInvariant
import MeshPbx.WireFormat

/-! The virtualization boundary toward the node. Four producers share the
transmit queue: the dispatch of a phone's write, the boot fetch, the retries and
refetches of the session, and the keepalive. A handler run offers the queue at
most one entry, and what the proxy answers itself is never among them. -/
namespace MeshPbx
variable {n : Nat} {p : Platform} {w w' : Proxy n} {e : Event n} {entry : Bytes}

/-- The events whose handlers can send a want_config. -/
def Event.ofSession : Event n → Bool
  | .sessionStart _ | .fetchRetry | .liveness _ | .fromradio _ _ => true
  | _ => false

/-- A phone's write that the node must not see. -/
def Absorbed (p : Platform) (buf : Bytes) : Prop :=
  ∃ info ∈ protoDecodeToradio p buf,
    info.hasWantConfig = true ∨ info.hasHeartbeat = true ∨ info.hasDisconnect = true

instance (p : Platform) (buf : Bytes) : Decidable (Absorbed p buf) :=
  inferInstanceAs (Decidable (∃ info ∈ protoDecodeToradio p buf, _))

/-- Who offers an entry, and which bytes it is. -/
inductive Produced (p : Platform) (w w' : Proxy n) : Event n → Bytes → Prop
  | wantConfig (e : Event n) (session : e.ofSession = true) :
      Produced p w w' e (p.toRadioBytes (.wantConfig w'.session.nonce))
  | heartbeat : Produced p w w' .keepalive (p.toRadioBytes (.heartbeat w.session.keepaliveNonce))
  | phone (conn : BtConn) (buf : Bytes) (passed : ¬ Absorbed p buf) :
      Produced p w w' (.toradioWrite conn buf 0) buf

/-- What one event does to the transmit path. -/
inductive TxEffect (p : Platform) (w w' : Proxy n) : Event n → Prop
  | quiet (e : Event n) (same : w'.uart = w.uart) : TxEffect p w w' e
  | offered (e : Event n) (entry : Bytes) (produced : Produced p w w' e entry)
      (tx : w'.uart = (uartMeshtasticTx w.uart entry).1) : TxEffect p w w' e
  | worked (failed : Bool) (tx : w'.uart.txMsgq = w.uart.txMsgq ∨
      w'.uart.txMsgq = w.uart.txMsgq.tail) : TxEffect p w w' (.txWork failed)
  | ended (aborted : Bool) (tx : w'.uart.txMsgq = w.uart.txMsgq) : TxEffect p w w' (.txEnd aborted)

/-- What the node may read in an entry that this step places. -/
structure Permitted (p : Platform) (w w' : Proxy n) (e : Event n) (entry : Bytes) : Prop where
  disconnect : ∀ info ∈ protoDecodeToradio p entry, info.hasDisconnect = false
  wantConfig : ∀ info ∈ protoDecodeToradio p entry, info.hasWantConfig = true →
    e.ofSession = true ∧ entry = p.toRadioBytes (.wantConfig w'.session.nonce) ∧
      info.wantConfigId = w'.session.nonce
  heartbeat : ∀ info ∈ protoDecodeToradio p entry, info.hasHeartbeat = true →
    e = .keepalive ∧ entry = p.toRadioBytes (.heartbeat w.session.keepaliveNonce)

/-- The boundary at one step: the queue keeps its entries but for the one the
work item takes, and gains at most one permitted entry; a phone's write of any
other kind is offered once, as it is. -/
structure Boundary (p : Platform) (w : Proxy n) (e : Event n) : Prop where
  queue : (w.apply p e).uart.txMsgq = w.uart.txMsgq ∨
    (∃ failed, e = .txWork failed ∧ (w.apply p e).uart.txMsgq = w.uart.txMsgq.tail) ∨
    ∃ entry, (w.apply p e).uart.txMsgq = w.uart.txMsgq ++ [entry] ∧
      Permitted p w (w.apply p e) e entry
  phone : ∀ conn buf, e = .toradioWrite conn buf 0 → ¬ Absorbed p buf →
    (w.apply p e).uart = (uartMeshtasticTx w.uart buf).1

/-- Some step of the schedule placed the entry, and was permitted to. -/
def PlacedIn (p : Platform) (es : List (Event n)) (entry : Bytes) : Prop :=
  ∃ before e after, es = before ++ e :: after ∧
    Permitted p ((system n p).run (.boot n) before) ((system n p).run (.boot n) (before ++ [e]))
      e entry

/-! What each handler offers. -/

theorem toradio_absorbed (absorbed : Absorbed p entry) (conn : BtConn) :
    (onToradioBle p w conn entry).uart = w.uart := by
  obtain ⟨info, decoded, variant⟩ := absorbed
  have known : protoDecodeToradio p entry = some info := decoded
  by_cases wants : info.hasWantConfig = true
  · rw [toradio_want_config known wants]
    split_ifs <;> rfl
  · simp only [onToradioBle, known, if_neg wants]
    by_cases heartbeat : info.hasHeartbeat = true
    · rw [if_pos heartbeat]
    · have disconnect := (variant.resolve_left wants).resolve_left heartbeat
      rw [if_neg heartbeat, if_pos disconnect]

theorem toradio_passed (passed : ¬ Absorbed p entry) (conn : BtConn) :
    (onToradioBle p w conn entry).uart = (uartMeshtasticTx w.uart entry).1 := by
  unfold onToradioBle
  cases decoded : protoDecodeToradio p entry with
  | none => rfl
  | some info =>
    have wants : ¬ info.hasWantConfig = true := fun wants => passed ⟨info, decoded, .inl wants⟩
    have heartbeat : ¬ info.hasHeartbeat = true :=
      fun heartbeat => passed ⟨info, decoded, .inr (.inl heartbeat)⟩
    have disconnect : ¬ info.hasDisconnect = true :=
      fun disconnect => passed ⟨info, decoded, .inr (.inr disconnect)⟩
    simp only [if_neg wants, if_neg heartbeat, if_neg disconnect]
    split_ifs <;> rfl

/-- Clearing a timer before its handler starts does not matter to the UART. -/
theorem TxEffect.of_same {idle : Proxy n} (effect : TxEffect p idle w' e)
    (uart : idle.uart = w.uart)
    (nonce : idle.session.keepaliveNonce = w.session.keepaliveNonce) : TxEffect p w w' e := by
  cases effect with
  | quiet _ same => exact .quiet e (same.trans uart)
  | offered _ entry produced tx =>
    rw [uart] at tx
    cases produced with
    | wantConfig _ session => exact .offered e _ (.wantConfig e session) tx
    | heartbeat =>
      rw [nonce] at tx
      exact .offered _ _ .heartbeat tx
      | phone conn _ passed => exact .offered _ entry (.phone conn entry passed) tx
  | worked failed tx =>
    rw [uart] at tx
    exact .worked failed tx
  | ended aborted tx => exact .ended aborted (tx.trans (by rw [uart]))

theorem tx_work_queue (u : UartTx) (failed : Bool) :
    (txWorkHandler u failed).txMsgq = u.txMsgq ∨
      (txWorkHandler u failed).txMsgq = u.txMsgq.tail := by
  unfold txWorkHandler
  by_cases busy : u.txInProgress = true
  · rw [if_pos busy]
    exact .inl rfl
  · rw [if_neg busy]
    cases queued : u.txMsgq with
    | nil => exact .inl queued
    | cons entry rest =>
      right
      cases failed <;> rfl

section
variable (documented : p.Documented)
include documented

theorem send_want_config_offers (u : UartTx) (nonce : UInt32) :
    (sendWantConfig p u nonce).1 = (uartMeshtasticTx u (p.toRadioBytes (.wantConfig nonce))).1 := by
  simp only [sendWantConfig, want_config_encodes documented]

theorem RefetchEffect.offers {nonce : UInt32} (effect : RefetchEffect p w nonce w')
    (session : e.ofSession = true) : TxEffect p w w' e := by
  have sent := send_want_config_offers documented w.uart nonce
  cases effect with
  | ignored => exact .quiet e rfl
  | failed => exact .offered e _ (.wantConfig e session) sent
  | started =>
    refine .offered e _ (.wantConfig e session) ?_
    rw [nonce_reschedule]
    exact sent

theorem FrameEffect.offers {frame : Frame} {rand : UInt32}
    (effect : FrameEffect p w frame.bytes rand w') :
    TxEffect p w w' (.fromradio frame rand) := by
  cases effect with
  | undecoded => exact .quiet _ rfl
  | fetched _ _ _ _ _ effect => cases effect <;> exact .quiet _ rfl
  | rebooted => exact (refetch_effect p w rand).offers documented rfl
  | swallowed => exact .quiet _ rfl
  | live => exact .quiet _ rfl
  | packet => exact .quiet _ (uart_dispatchPacket _ _ _)

theorem session_start_offers (w : Proxy n) (rand : UInt32) :
    TxEffect p w (upstreamSessionStart p w rand) (.sessionStart rand) := by
  simp only [upstreamSessionStart, want_config_encodes documented]
  exact .offered _ _ (.wantConfig _ rfl) rfl

theorem fetch_retry_offers (w : Proxy n) :
    TxEffect p w (fetchRetryHandler p w) .fetchRetry := by
  unfold fetchRetryHandler
  split_ifs
  · exact .quiet _ rfl
  · exact .offered _ _ (.wantConfig _ rfl) (send_want_config_offers documented _ _)
  · exact .offered _ _ (.wantConfig _ rfl) (send_want_config_offers documented _ _)

theorem liveness_offers (w : Proxy n) (rand : UInt32) :
    TxEffect p w (livenessHandler p w rand) (.liveness rand) := by
  unfold livenessHandler
  split_ifs
  · exact .quiet _ rfl
  · exact (refetch_effect p w rand).offers documented rfl

theorem keepalive_offers (w : Proxy n) : TxEffect p w (keepaliveWorkHandler p w) .keepalive := by
  have effect := keepalive_effect documented w
  generalize keepaliveWorkHandler p w = after at effect ⊢
  cases effect with
  | sent => exact .offered _ _ .heartbeat rfl
  | failed => exact .offered _ _ .heartbeat rfl

theorem tx_effect (w : Proxy n) (e : Event n) : TxEffect p w (w.apply p e) e := by
  cases e with
  | sessionStart rand => exact session_start_offers documented w rand
  | fromradio frame rand => exact (frame_effect p w frame.bytes rand).offers documented
  | toradioWrite conn buf offset =>
    simp only [Proxy.apply, toradioWrite]
    by_cases fresh : offset = 0
    · subst fresh
      simp only [ne_eq, not_true_eq_false, if_false]
      by_cases absorbed : Absorbed p buf
      · exact .quiet _ (toradio_absorbed absorbed conn)
      · exact .offered _ buf (.phone conn buf absorbed) (toradio_passed absorbed conn)
    · rw [if_pos fresh]
      exact .quiet _ rfl
  | keepalive => exact (keepalive_offers documented _).of_same rfl rfl
  | fetchRetry => exact (fetch_retry_offers documented _).of_same rfl rfl
  | liveness rand => exact (liveness_offers documented _ rand).of_same rfl rfl
  | txWork failed => exact .worked failed (tx_work_queue { w.uart with txWork := false } failed)
  | txEnd aborted => exact .ended aborted rfl
  | _ => exact .quiet _ rfl

theorem own_want_config_decodes (nonce : UInt32) :
    protoDecodeToradio p (p.toRadioBytes (.wantConfig nonce)) =
      some { hasWantConfig := true, wantConfigId := nonce } := by
  rw [protoDecodeToradio, documented.wantConfig_decodes]
  rfl

theorem own_heartbeat_decodes (nonce : UInt32) :
    protoDecodeToradio p (p.toRadioBytes (.heartbeat nonce)) = some { hasHeartbeat := true } := by
  rw [protoDecodeToradio, documented.heartbeat_decodes]
  rfl

/-- The session's want_config and the keepalive's heartbeat read back as what
they are, and a forwarded write was decoded before it was forwarded. -/
theorem Produced.permitted (produced : Produced p w w' e entry) : Permitted p w w' e entry := by
  cases produced with
  | wantConfig _ session =>
    have decoded := own_want_config_decodes documented w'.session.nonce
    refine ⟨?_, ?_, ?_⟩
    · intro info member
      cases Option.some.inj (decoded.symm.trans member)
      rfl
    · intro info member _
      cases Option.some.inj (decoded.symm.trans member)
      exact ⟨session, rfl, rfl⟩
    · intro info member heartbeat
      cases Option.some.inj (decoded.symm.trans member)
      contradiction
  | heartbeat =>
    have decoded := own_heartbeat_decodes documented w.session.keepaliveNonce
    refine ⟨?_, ?_, ?_⟩
    · intro info member
      cases Option.some.inj (decoded.symm.trans member)
      rfl
    · intro info member wants
      cases Option.some.inj (decoded.symm.trans member)
      contradiction
    · intro info member _
      exact ⟨rfl, rfl⟩
  | phone conn _ passed =>
    refine ⟨?_, ?_, ?_⟩
    · intro info member
      by_contra disconnect
      exact passed ⟨info, member, .inr (.inr (by simpa using disconnect))⟩
    · intro info member wants
      exact absurd ⟨info, member, .inl wants⟩ passed
    · intro info member heartbeat
      exact absurd ⟨info, member, .inr (.inl heartbeat)⟩ passed

theorem boundary_step (w : Proxy n) (e : Event n) : Boundary p w e := by
  constructor
  · have effect := tx_effect documented w e
    generalize w.apply p e = after at effect ⊢
    cases effect with
    | quiet _ same => exact .inl (by rw [same])
    | offered _ entry produced tx =>
      rcases uart_tx_queue w.uart entry with refused | accepted
      · exact .inl (by rw [tx, refused])
      · exact .inr (.inr ⟨entry, by rw [tx, accepted], produced.permitted documented⟩)
    | worked failed tx =>
      rcases tx with same | taken
      · exact .inl same
      · exact .inr (.inl ⟨failed, rfl, taken⟩)
    | ended aborted tx => exact .inl tx
  · rintro conn buf rfl passed
    exact toradio_passed passed conn

theorem queue_placed (es : List (Event n)) (runs : (system n p).Runs (.boot n) es) :
    ∀ entry ∈ ((system n p).run (.boot n) es).uart.txMsgq, PlacedIn p es entry := by
  refine Machine.history_invariant
    (fun es w => ∀ entry ∈ w.uart.txMsgq, PlacedIn p es entry) ?_ ?_ es runs
  · intro entry member
    cases member
  · intro es e placed _ entry member
    have older : entry ∈ ((system n p).run (.boot n) es).uart.txMsgq → PlacedIn p (es ++ [e]) entry := by
      intro old
      obtain ⟨before, f, after, rfl, permitted⟩ := placed entry old
      exact ⟨before, f, after ++ [e], by simp, permitted⟩
    rcases (boundary_step documented ((system n p).run (.boot n) es) e).queue with
      same | ⟨_, _, taken⟩ | ⟨last, added, permitted⟩
    · exact older (same ▸ member)
    · exact older (List.mem_of_mem_tail (taken ▸ member))
    · have member : entry ∈ ((system n p).run (.boot n) es).uart.txMsgq ++ [last] := added ▸ member
      rcases List.mem_append.mp member with old | new
      · exact older old
      · rw [List.mem_singleton] at new
        subst new
        refine ⟨es, e, [], rfl, ?_⟩
        rw [Machine.run_append]
        exact permitted

/-- At every step of every run the boundary holds, and every entry waiting in the
transmit queue was placed there by a step that was permitted to. -/
theorem toradio_boundary (es : List (Event n)) (runs : (system n p).Runs (.boot n) es) :
    (system n p).Along (Boundary p) (.boot n) es ∧
      ∀ entry ∈ ((system n p).run (.boot n) es).uart.txMsgq, PlacedIn p es entry := by
  refine ⟨?_, queue_placed documented es runs⟩
  exact Machine.along_mono (fun w e _ => boundary_step documented w e) es (Machine.along_true es)

end

/-- All four producers, with a want_config, a disconnect and a malformed write
of a phone among them. -/
def sharedQueueSchedule : List (Event 1) :=
  [.sessionStart 5, .connected 7 false, .txWork false, .txEnd false, .toradioWrite 7 [0x18, 9] 0,
    .toradioWrite 7 [0x20, 1] 0, .toradioWrite 7 [0xff] 0, .keepalive, .fetchRetry]

theorem malformed_write_placed :
    (system 1 .wire).Along (Boundary .wire) (.boot 1) sharedQueueSchedule ∧
      PlacedIn .wire sharedQueueSchedule [0xff] :=
  have held := toradio_boundary wire_documented sharedQueueSchedule (by decide)
  ⟨held.1, held.2 [0xff] (by decide)⟩

end MeshPbx
