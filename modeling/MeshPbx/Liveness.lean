import MeshPbx.Contents
import MeshPbx.WireFormat

/-! The liveness watchdog. Its work item is one-shot: an expiry whose refetch
is refused by a full transmit queue leaves the session LIVE and unwatched. -/
namespace MeshPbx
variable {n : Nat} {p : Platform} {w w' : Proxy n}

/-- A LIVE session has an expiry scheduled. -/
def Watched (w : Proxy n) : Prop :=
  w.session.state = .live → w.session.livenessWork.isSome = true

/-- The watchdog of a LIVE session expires while the transmit queue is full. -/
def StarvedExpiry (w : Proxy n) (e : Event n) : Prop :=
  match e with
  | .liveness _ => w.session.state = .live ∧ TX_QUEUE_DEPTH ≤ w.uart.txMsgq.length
  | _ => False

instance (w : Proxy n) : (e : Event n) → Decidable (StarvedExpiry w e)
  | .liveness _ => inferInstanceAs (Decidable (_ ∧ _))
  | .sessionStart _ | .fromradio _ _ | .toradioWrite _ _ _ | .fromradioRead _ _ _
  | .fromnumRead _ _ _ | .nodeRegWrite _ _ _ | .connected _ _ | .disconnected _ | .keepalive
  | .fetchRetry | .teardown _ | .txWork _ | .txEnd _ => inferInstanceAs (Decidable False)

theorem Watched.of_same (watched : Watched w)
    (state : w'.session.state = w.session.state)
    (liveness : w'.session.livenessWork = w.session.livenessWork) : Watched w' := by
  intro live
  rw [liveness]
  exact watched (by rw [← state, live])

theorem watched_of_state (other : w.session.state ≠ .live) : Watched w :=
  fun live => absurd live other

theorem watched_of_kick (session : w'.session = upstreamLivenessKick w.session) : Watched w' := by
  intro live
  have state : w.session.state = .live := by simpa [session] using live
  simp [session, upstreamLivenessKick, state]

theorem FrameEffect.watched {payload : Bytes} {rand : UInt32}
    (effect : FrameEffect p w payload rand w') (watched : Watched w) : Watched w' := by
  cases effect with
  | undecoded => exact watched.of_same rfl rfl
  | fetched _ _ _ _ _ effect =>
    cases effect with
    | stored => exact watched.of_same rfl rfl
    | discarded => exact watched.of_same rfl rfl
    | published => exact fun _ => rfl
    | resumed => exact fun _ => rfl
  | rebooted =>
    have effect := refetch_effect p w rand
    generalize upstreamRefetch p w rand = after at effect ⊢
    cases effect with
    | ignored => exact watched
    | failed => exact watched.of_same rfl rfl
    | started => exact watched_of_state (by simp)
  | swallowed => exact watched.of_same rfl rfl
  | live => exact watched_of_kick (w := w) rfl
  | packet => exact watched_of_kick (w := w) (session_dispatchPacket _ _ _)

theorem ToradioEffect.watched {conn : BtConn} {data : Bytes}
    (effect : ToradioEffect p w conn data w') (watched : Watched w) : Watched w' := by
  cases effect with
  | forwarded s session =>
    rcases session with rfl | rfl
    · exact watched.of_same rfl rfl
    · exact watched.of_same (by simp) (by simp)
  | refused => exact watched
  | armed => exact watched.of_same rfl rfl
  | heartbeat => exact watched.of_same rfl rfl
  | disconnect => exact watched.of_same rfl rfl

theorem KeepaliveEffect.watched {beat : Bytes} (effect : KeepaliveEffect p w beat w')
    (watched : Watched w) : Watched w' := by
  cases effect with
  | sent => exact watched.of_same rfl rfl
  | failed => exact watched.of_same rfl rfl

theorem session_start_waits {rand : UInt32} (settled : Settled w)
    (unarmed : w.session.keepaliveArmed = false) : Watched (upstreamSessionStart p w rand) := by
  have boot := settled.unarmed unarmed
  apply watched_of_state
  simp only [upstreamSessionStart]
  split <;> simp [boot]

theorem fetch_retry_watched (watched : Watched w) : Watched (fetchRetryHandler p w) := by
  unfold fetchRetryHandler
  split_ifs
  · exact watched
  · exact watched.of_same rfl rfl
  · exact watched.of_same rfl rfl

/-- The expiry itself: the refetch it starts leaves LIVE, or the session stays
LIVE with the one-shot timer spent. -/
theorem expiry_watched_iff (documented : p.Documented) (rand : UInt32)
    (idle : w.session.livenessWork = none) :
    Watched (livenessHandler p w rand) ↔
      ¬ (w.session.state = .live ∧ TX_QUEUE_DEPTH ≤ w.uart.txMsgq.length) := by
  unfold livenessHandler
  by_cases live : w.session.state = .live
  · rw [if_neg (by simpa using live)]
    have effect := refetch_effect p w rand
    generalize upstreamRefetch p w rand = after at effect ⊢
    cases effect with
    | ignored busy => simp [live, Session.Window] at busy
    | failed _ refused =>
      have full : ¬ w.uart.txMsgq.length < TX_QUEUE_DEPTH :=
        fun room => refused ((send_want_config_sent documented _ _).mpr room)
      simp [Watched, live, idle, Nat.le_of_not_lt full]
    | started _ sent =>
      have room := (send_want_config_sent documented _ _).mp sent
      exact iff_of_true (watched_of_state (by simp)) (fun starved => by omega)
  · rw [if_pos live]
    exact iff_of_true (watched_of_state live) (fun starved => live starved.1)

theorem watched_step (documented : p.Documented) (w : Proxy n) (e : Event n)
    (settled : Settled w) (watched : Watched w) (enabled : w.enabled e) :
    Watched (w.apply p e) ↔ ¬ StarvedExpiry w e := by
  cases e with
  | liveness rand => exact expiry_watched_iff documented rand rfl
  | sessionStart rand => exact iff_of_true (session_start_waits settled enabled) id
  | fromradio frame rand =>
    exact iff_of_true ((frame_effect p w frame.bytes rand).watched watched) id
  | toradioWrite conn buf offset =>
    refine iff_of_true ?_ id
    simp only [Proxy.apply, toradioWrite]
    split_ifs
    · exact watched
    · exact (toradio_effect p w conn buf).watched watched
  | keepalive =>
    have idle : Watched { w with session := { w.session with keepaliveWork := none } } :=
      watched.of_same rfl rfl
    exact iff_of_true ((keepalive_effect documented _).watched idle) id
  | fetchRetry =>
    have idle : Watched { w with session := { w.session with fetchRetryWork := none } } :=
      watched.of_same rfl rfl
    exact iff_of_true (fetch_retry_watched idle) id
  | _ => exact iff_of_true (watched.of_same rfl rfl) id

/-- Every state of a run is watched exactly when no expiry of a LIVE session
meets a full transmit queue. -/
theorem always_watched_iff (documented : p.Documented) (es : List (Event n))
    (runs : (system n p).Runs (.boot n) es) :
    (∀ k, Watched ((system n p).run (.boot n) (es.take k))) ↔
      (system n p).Along (fun w e => ¬ StarvedExpiry w e) (.boot n) es :=
  Machine.prefixes_iff_of_exact_step Watched settled_step (watched_step documented) es
    settled_boot (watched_of_state (by simp [Proxy.boot, upstreamSetServeCb, Session.zero])) runs

/-- A watched LIVE session that falls silent can expire, and with room in the
transmit queue the expiry queues a want_config and enters REFETCHING. -/
theorem silence_refetches (documented : p.Documented) (rand : UInt32) (watched : Watched w)
    (live : w.session.state = .live) (room : w.uart.txMsgq.length < TX_QUEUE_DEPTH) :
    w.enabled (.liveness rand) ∧
      (w.apply p (.liveness rand)).session.state = .refetching := by
  refine ⟨watched live, ?_⟩
  have notDown : ¬ w.session.state ≠ .live := by simpa using live
  simp only [Proxy.apply, livenessHandler, if_neg notDown]
  have effect := refetch_effect p { w with session := { w.session with livenessWork := none } } rand
  generalize upstreamRefetch p _ rand = after at effect ⊢
  cases effect with
  | ignored busy => simp [live, Session.Window] at busy
  | failed _ refused =>
    exact absurd ((send_want_config_sent documented _ _).mpr room) refused
  | started => simp

/-- A node that answers its want_config, falls silent and stays connected. -/
def silentSchedule : List (Event 0) :=
  [.sessionStart 5, .txWork false, .fromradio (.of 0x38 [5]) 0, .liveness 8]

theorem silent_node_watched :
    Watched ((system 0 .wire).run (.boot 0) (silentSchedule.take 4)) :=
  (always_watched_iff wire_documented silentSchedule (by decide)).mpr (by decide) 4

/-- Four packets of a phone fill the transmit queue, then the watchdog expires:
the session is LIVE with no expiry scheduled. -/
theorem full_queue_unwatched :
    ∃ w : Proxy 1, Reachable .wire w ∧ w.session.state = .live ∧ w.session.livenessWork = none :=
  ⟨(system 1 .wire).run (.boot 1)
      [.sessionStart 5, .txWork false, .fromradio (.of 0x38 [5]) 0,
        .connected 7 false, .toradioWrite 7 [0x0a, 0] 0, .toradioWrite 7 [0x0a, 0] 0,
        .toradioWrite 7 [0x0a, 0] 0, .toradioWrite 7 [0x0a, 0] 0, .liveness 8],
    reachable_run _ (by decide), by decide, by decide⟩

end MeshPbx
