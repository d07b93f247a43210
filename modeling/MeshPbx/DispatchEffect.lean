import MeshPbx.Router
import MeshPbx.SlotEffect

/-! What one frame from the node and one ToRadio write can do, path by path,
with the guards of each path and its result. -/
namespace MeshPbx
variable {n : Nat} {p : Platform} {w : Proxy n}

namespace Session

/-- A fetch is in progress: frames other than packets belong to the session. -/
def Window (s : Session) : Prop := s.state = .fetching ∨ s.state = .refetching

instance (s : Session) : Decidable s.Window := inferInstanceAs (Decidable (_ ∨ _))

def retryArmed (s : Session) : Session :=
  { s with fetchRetryWork := some UPSTREAM_FETCH_RETRY_MS }

/-- The session that has just gone LIVE. -/
def wentLive (s : Session) : Session :=
  { s with
    state := .live
    livenessWork := some UPSTREAM_LIVENESS_TIMEOUT_MS
    fetchRetryWork := none }

/-- Whether a frame of a fetch goes into the cache: a terminator that is not
ours in either fetch, any other frame in the boot fetch only. -/
def Keeps (p : Platform) (s : Session) (payload : Bytes) (info : FromradioInfo) : Prop :=
  (info.whichVariant = .configCompleteId ∧ decodeConfigCompleteNonce p payload ≠ some s.nonce) ∨
    (info.whichVariant ≠ .configCompleteId ∧ s.state = .fetching)

end Session

def servePendingGatt (p : Platform) (s : Session) (g : Gatt n) : Gatt n :=
  s.pending.foldl (fun g conn => if s.serveCb then bleGattReplayCachedBurst p g conn 0 else g) g

theorem serve_pending_phones (p : Platform) (w : Proxy n) :
    servePendingPhones p w =
      { w with
        gatt := servePendingGatt p w.session w.gatt
        session := { w.session with pending := [] } } := by
  have fold : ∀ (conns : List BtConn) (w : Proxy n), conns.foldl (serveOnePending p) w =
      { w with gatt := conns.foldl (fun g conn =>
          if w.session.serveCb then bleGattReplayCachedBurst p g conn 0 else g) w.gatt } := by
    intro conns
    induction conns with
    | nil => exact fun w => rfl
    | cons conn conns ih =>
      intro w
      rw [List.foldl_cons, List.foldl_cons, ih]
      unfold serveOnePending
      split <;> rfl
  simp only [servePendingPhones, fold, servePendingGatt]

theorem on_terminator_fetching (p : Platform) (fetching : w.session.state = .fetching) :
    onTerminator p w =
      { w with
        cache := cacheMarkReady w.cache
        gatt := servePendingGatt p w.session w.gatt
        session := { w.session with pending := [] }.wentLive } := by
  simp only [onTerminator, if_pos fetching, closeFetch, serve_pending_phones, upstreamLivenessKick,
    if_true, Session.wentLive, servePendingGatt]

theorem on_terminator_refetching (p : Platform) (refetching : w.session.state = .refetching) :
    onTerminator p w = { w with session := w.session.wentLive } := by
  have notFetching : w.session.state ≠ .fetching := by simp [refetching]
  simp only [onTerminator, if_neg notFetching, if_pos refetching, upstreamLivenessKick, if_true,
    Session.wentLive]

/-- The paths of a frame that a fetch consumes. -/
inductive FetchEffect (p : Platform) (w : Proxy n) (payload : Bytes) (info : FromradioInfo) :
    Proxy n → Prop
  | stored (keeps : w.session.Keeps p payload info) :
      FetchEffect p w payload info { w with
        cache := (cacheAddFrame w.cache payload info.whichVariant).1
        session := w.session.retryArmed }
  | discarded (refetching : w.session.state = .refetching)
      (other : info.whichVariant ≠ .configCompleteId) :
      FetchEffect p w payload info { w with session := w.session.retryArmed }
  | published (fetching : w.session.state = .fetching)
      (terminator : info.whichVariant = .configCompleteId)
      (ours : decodeConfigCompleteNonce p payload = some w.session.nonce) :
      FetchEffect p w payload info { w with
        cache := cacheMarkReady w.cache
        gatt := servePendingGatt p w.session w.gatt
        session := { w.session with pending := [] }.wentLive }
  | resumed (refetching : w.session.state = .refetching)
      (terminator : info.whichVariant = .configCompleteId)
      (ours : decodeConfigCompleteNonce p payload = some w.session.nonce) :
      FetchEffect p w payload info { w with session := w.session.wentLive }

/-- The paths of a frame from the node. -/
inductive FrameEffect (p : Platform) (w : Proxy n) (payload : Bytes) (rand : UInt32) :
    Proxy n → Prop
  | undecoded (decoded : protoDecodeFromradio p payload = none) :
      FrameEffect p w payload rand (broadcast w payload)
  | fetched (info : FromradioInfo) (decoded : protoDecodeFromradio p payload = some info)
      (window : w.session.Window) (plain : info.whichVariant ≠ .packet) (w' : Proxy n)
      (effect : FetchEffect p w payload info w') : FrameEffect p w payload rand w'
  | rebooted (info : FromradioInfo) (decoded : protoDecodeFromradio p payload = some info)
      (outside : ¬ w.session.Window) (reboot : info.whichVariant = .rebooted) :
      FrameEffect p w payload rand (upstreamRefetch p w rand)
  | swallowed (info : FromradioInfo) (decoded : protoDecodeFromradio p payload = some info)
      (outside : ¬ w.session.Window) (status : info.whichVariant = .queueStatus)
      (pending : w.session.keepalivePending = true) :
      FrameEffect p w payload rand
        { w with session := { w.session with keepalivePending := false } }
  | live (info : FromradioInfo) (decoded : protoDecodeFromradio p payload = some info)
      (outside : ¬ w.session.Window) (plain : info.whichVariant ≠ .packet)
      (noReboot : info.whichVariant ≠ .rebooted)
      (genuine : info.whichVariant = .queueStatus → w.session.keepalivePending = false) :
      FrameEffect p w payload rand
        (broadcast { w with session := upstreamLivenessKick w.session } payload)
  | packet (info : FromradioInfo) (decoded : protoDecodeFromradio p payload = some info)
      (packet : info.whichVariant = .packet) :
      FrameEffect p w payload rand
        (dispatchPacket { w with session := upstreamLivenessKick w.session } payload info)

theorem dispatch_unconsumed_effect {payload : Bytes} {rand : UInt32} {info : FromradioInfo}
    (decoded : protoDecodeFromradio p payload = some info)
    (unconsumed : w.session.Window → info.whichVariant = .packet) :
    FrameEffect p w payload rand (dispatchUnconsumed p w payload info rand) := by
  by_cases plain : info.whichVariant = .packet
  · simp only [dispatchUnconsumed, plain, ne_eq, not_true_eq_false, if_false]
    exact .packet info decoded plain
  · have outside : ¬ w.session.Window := fun window => plain (unconsumed window)
    simp only [dispatchUnconsumed, ne_eq, plain, not_false_eq_true, if_true]
    by_cases reboot : info.whichVariant = .rebooted
    · rw [if_pos reboot]
      exact .rebooted info decoded outside reboot
    · rw [if_neg reboot]
      by_cases status : info.whichVariant = .queueStatus
      · cases pending : w.session.keepalivePending with
        | true =>
          simp only [if_pos status, upstreamSwallowLiveQueuestatus, pending, if_true]
          exact .swallowed info decoded outside status pending
        | false =>
          simp only [if_pos status, upstreamSwallowLiveQueuestatus, pending, Bool.false_eq_true,
            if_false]
          exact .live info decoded outside plain reboot (fun _ => pending)
      · simp only [if_neg status, Bool.false_eq_true, if_false]
        exact .live info decoded outside plain reboot (fun same => absurd same status)

theorem terminator_effect {payload : Bytes} {info : FromradioInfo} (window : w.session.Window)
    (terminator : info.whichVariant = .configCompleteId)
    (ours : decodeConfigCompleteNonce p payload = some w.session.nonce) :
    FetchEffect p w payload info (onTerminator p { w with session := w.session.retryArmed }) := by
  rcases window with fetching | refetching
  · have closed : onTerminator p { w with session := w.session.retryArmed } = _ :=
      on_terminator_fetching p fetching
    rw [closed]
    exact .published fetching terminator ours
  · have closed : onTerminator p { w with session := w.session.retryArmed } = _ :=
      on_terminator_refetching p refetching
    rw [closed]
    exact .resumed refetching terminator ours

/-- Inside a fetch a frame that is not a packet never reaches the router's own
paths. -/
theorem fetch_effect (p : Platform) (payload : Bytes) {info : FromradioInfo}
    (window : w.session.Window) (plain : info.whichVariant ≠ .packet) :
    (upstreamOnFromradio p w payload info).2 = true ∧
      FetchEffect p w payload info (upstreamOnFromradio p w payload info).1 := by
  have inside : ¬ (w.session.state ≠ .fetching ∧ w.session.state ≠ .refetching) := by
    rintro ⟨notFetching, notRefetching⟩
    exact window.elim notFetching notRefetching
  simp only [upstreamOnFromradio, if_neg inside, if_neg plain]
  by_cases terminator : info.whichVariant = .configCompleteId
  · simp only [if_pos terminator]
    cases nonce : decodeConfigCompleteNonce p payload with
    | none =>
      have keeps : w.session.Keeps p payload info := .inl ⟨terminator, by simp [nonce]⟩
      exact ⟨rfl, .stored keeps⟩
    | some gotNonce =>
      by_cases ours : gotNonce = w.session.nonce
      · simp only [ours, ne_eq, not_true_eq_false, if_false]
        exact ⟨trivial, terminator_effect window terminator (by rw [nonce, ours])⟩
      · have keeps : w.session.Keeps p payload info := .inl ⟨terminator, by simp [nonce, ours]⟩
        simp only [ne_eq, ours, not_false_eq_true, if_true]
        exact ⟨trivial, .stored keeps⟩
  · simp only [if_neg terminator]
    by_cases fetching : w.session.state = .fetching
    · simp only [if_pos fetching]
      exact ⟨trivial, .stored (.inr ⟨terminator, fetching⟩)⟩
    · simp only [if_neg fetching]
      exact ⟨trivial, .discarded (window.resolve_left fetching) terminator⟩

theorem packet_unconsumed {payload : Bytes} {info : FromradioInfo}
    (packet : info.whichVariant = .packet) : upstreamOnFromradio p w payload info = (w, false) := by
  unfold upstreamOnFromradio
  split_ifs
  · rfl
  · rfl

/-- A packet is dispatched in every state, whether or not a fetch is in
progress. -/
theorem packet_dispatched {payload : Bytes} {info : FromradioInfo} (rand : UInt32)
    (decoded : protoDecodeFromradio p payload = some info) (packet : info.whichVariant = .packet) :
    onFromradioUart p w payload rand =
      dispatchPacket { w with session := upstreamLivenessKick w.session } payload info := by
  have direct : dispatchUnconsumed p w payload info rand =
      dispatchPacket { w with session := upstreamLivenessKick w.session } payload info := by
    simp only [dispatchUnconsumed, packet, ne_eq, not_true_eq_false, if_false]
  simp only [onFromradioUart, decoded, routerDispatch, packet_unconsumed packet, direct,
    Bool.false_eq_true, if_false, ite_self]

theorem frame_effect (p : Platform) (w : Proxy n) (payload : Bytes) (rand : UInt32) :
    FrameEffect p w payload rand (onFromradioUart p w payload rand) := by
  unfold onFromradioUart
  cases decoded : protoDecodeFromradio p payload with
  | none => exact .undecoded decoded
  | some info =>
    by_cases window : w.session.Window
    · have routed : upstreamGetState w = .fetching ∨ upstreamGetState w = .refetching := window
      by_cases packet : info.whichVariant = .packet
      · simp only [routerDispatch, if_pos routed, packet_unconsumed packet, Bool.false_eq_true,
          if_false]
        exact dispatch_unconsumed_effect decoded (fun _ => packet)
      · obtain ⟨consumed, effect⟩ := fetch_effect p payload window packet
        simp only [routerDispatch, if_pos routed, consumed, if_true]
        exact .fetched info decoded window packet _ effect
    · have routed : ¬ (upstreamGetState w = .fetching ∨ upstreamGetState w = .refetching) := window
      simp only [routerDispatch, if_neg routed]
      exact dispatch_unconsumed_effect decoded (fun inside => absurd inside window)

/-- The paths of a ToRadio write. A want_config is either refused outright or
armed: the early return leaves no state in which the phone is parked. -/
inductive ToradioEffect (p : Platform) (w : Proxy n) (conn : BtConn) (data : Bytes) :
    Proxy n → Prop
  | forwarded (s : Session)
      (session : s = w.session ∨ s = upstreamKeepaliveReschedule w.session) :
      ToradioEffect p w conn data
        { w with uart := (uartMeshtasticTx w.uart data).1, session := s }
  | refused (info : ToradioInfo) (decoded : protoDecodeToradio p data = some info)
      (wants : info.hasWantConfig = true)
      (early : w.session.state ≠ .live ∧ w.session.state ≠ .cacheReady) :
      ToradioEffect p w conn data w
  | armed (info : ToradioInfo) (decoded : protoDecodeToradio p data = some info)
      (wants : info.hasWantConfig = true)
      (ready : w.session.state = .live ∨ w.session.state = .cacheReady) :
      ToradioEffect p w conn data
        { w with gatt := bleGattReplayCachedBurst p w.gatt conn info.wantConfigId }
  | heartbeat : ToradioEffect p w conn data
      { w with gatt := bleGattReplyQueuestatus p w.gatt conn }
  | disconnect : ToradioEffect p w conn data
      { w with gatt := (bleGattRequestTeardown w.gatt conn).1 }

/-- A want_config in two cases: the early return leaves no third. -/
theorem toradio_want_config {conn : BtConn} {data : Bytes} {info : ToradioInfo}
    (decoded : protoDecodeToradio p data = some info) (wants : info.hasWantConfig = true) :
    onToradioBle p w conn data =
      if w.session.state = .live ∨ w.session.state = .cacheReady then
        { w with gatt := bleGattReplayCachedBurst p w.gatt conn info.wantConfigId }
      else w := by
  simp only [onToradioBle, decoded, if_pos wants]
  by_cases early : upstreamGetState w ≠ .live ∧ upstreamGetState w ≠ .cacheReady
  · have refused : ¬ (w.session.state = .live ∨ w.session.state = .cacheReady) :=
      fun ready => ready.elim early.1 early.2
    rw [if_pos early, if_neg refused]
  · have ready : w.session.state = .live ∨ w.session.state = .cacheReady := by
      by_contra neither
      exact early ⟨fun live => neither (.inl live), fun cached => neither (.inr cached)⟩
    have served : upstreamGetState w = .cacheReady ∨ upstreamGetState w = .live ∨
        upstreamGetState w = .refetching := ready.elim (fun live => .inr (.inl live)) .inl
    rw [if_neg early, if_pos served, if_pos ready]

theorem toradio_effect (p : Platform) (w : Proxy n) (conn : BtConn) (data : Bytes) :
    ToradioEffect p w conn data (onToradioBle p w conn data) := by
  cases decoded : protoDecodeToradio p data with
  | none =>
    simp only [onToradioBle, decoded]
    exact .forwarded w.session (.inl rfl)
  | some info =>
    by_cases wants : info.hasWantConfig = true
    · rw [toradio_want_config decoded wants]
      split_ifs with ready
      · exact .armed info decoded wants ready
      · exact .refused info decoded wants (not_or.mp ready)
    · simp only [onToradioBle, decoded, if_neg wants]
      split_ifs with heartbeat disconnect sent
      · exact .heartbeat
      · exact .disconnect
      · exact .forwarded _ (.inr rfl)
      · exact .forwarded _ (.inl rfl)

end MeshPbx
