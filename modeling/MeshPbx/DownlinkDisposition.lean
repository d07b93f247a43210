import MeshPbx.TargetedRouting

/-! Where a frame from the node goes. Every state of the session, every variant and
every kind of packet has its row in one table: the frame goes to everyone with
room, to nobody, or to the one connection that has registered its destination. -/
namespace MeshPbx
variable {n : Nat} {p : Platform} {w : Proxy n} {g g' : Gatt n} {raw : Bytes}
variable {info : FromradioInfo}

/-- The frame is appended to the queue of every tracked connection that is not
leaving and has room, and of no other. -/
def ToEveryone (g g' : Gatt n) (raw : Bytes) : Prop :=
  ∀ i, ((g.conns i).Open → Appended g g' raw i) ∧
    (¬ (g.conns i).Open → (g'.conns i).queued = (g.conns i).queued)

def ToNobody (g g' : Gatt n) : Prop :=
  ∀ i, (g'.conns i).queued = (g.conns i).queued

/-- The frame is appended to the queue of one tracked connection that has registered
the identifier, if that accepts it, and of no other. -/
def ToRegistered (g g' : Gatt n) (raw : Bytes) (id : ProxyId) : Prop :=
  ∃ i, (g.conns i).conn ≠ none ∧ (g.conns i).proxyId = id ∧
    ((g.conns i).Open → Appended g g' raw i) ∧
    (¬ (g.conns i).Open → (g'.conns i).queued = (g.conns i).queued) ∧
    ∀ j, j ≠ i → (g'.conns j).queued = (g.conns j).queued

def Registered (g : Gatt n) (id : ProxyId) : Prop :=
  ∃ i, (g.conns i).conn ≠ none ∧ (g.conns i).proxyId = id

/-- A packet without a destination the proxy knows: encrypted, of another port, with
a bad header, or with a DST_ID that is zero or registered by no connection. -/
def Untargeted (g : Gatt n) (info : FromradioInfo) : Prop :=
  info.isDecoded = false ∨ info.portnum ≠ PROXY_PORTNUM ∨
    proxyHeaderParse info.payloadBytes = none ∨
    ∃ hdr, proxyHeaderParse info.payloadBytes = some hdr ∧
      (proxyIdIsZero hdr.dst = true ∨ ¬ Registered g hdr.dst)

/-- A decoded packet of the proxy's port with a valid header, whose DST_ID is not
zero and registered. -/
structure TargetedAt (g : Gatt n) (info : FromradioInfo) (hdr : ProxyHeader) : Prop where
  decoded : info.isDecoded = true
  port : info.portnum = PROXY_PORTNUM
  header : proxyHeaderParse info.payloadBytes = some hdr
  nonzero : proxyIdIsZero hdr.dst = false
  registered : Registered g hdr.dst

/-- The table of dispositions for one frame, where `g'` is what it leaves. -/
structure Disposed (p : Platform) (w : Proxy n) (raw : Bytes) (g' : Gatt n) : Prop where
  verbatim : ∀ i, (g'.conns i).queued = (w.gatt.conns i).queued ∨ Appended w.gatt g' raw i
  undecoded : protoDecodeFromradio p raw = none → ToEveryone w.gatt g' raw
  untargeted : ∀ info, protoDecodeFromradio p raw = some info → info.whichVariant = .packet →
    Untargeted w.gatt info → ToEveryone w.gatt g' raw
  targeted : ∀ info hdr, protoDecodeFromradio p raw = some info → info.whichVariant = .packet →
    TargetedAt w.gatt info hdr → ToRegistered w.gatt g' raw hdr.dst
  fetch : ∀ info, protoDecodeFromradio p raw = some info → info.whichVariant ≠ .packet →
    w.session.Window → ToNobody w.gatt g'
  rebooted : ∀ info, protoDecodeFromradio p raw = some info → info.whichVariant = .rebooted →
    ¬ w.session.Window → ToNobody w.gatt g'
  keepaliveReply : ∀ info, protoDecodeFromradio p raw = some info →
    info.whichVariant = .queueStatus → ¬ w.session.Window → w.session.keepalivePending = true →
    ToNobody w.gatt g'
  live : ∀ info, protoDecodeFromradio p raw = some info → info.whichVariant ≠ .packet →
    ¬ w.session.Window → info.whichVariant ≠ .rebooted →
    (info.whichVariant = .queueStatus → w.session.keepalivePending = false) →
    ToEveryone w.gatt g' raw

theorem broadcast_to_everyone (distinct : g.Distinct) (short : raw.length ≤ FROMRADIO_MAX_PKT_SIZE) :
    ToEveryone g (bleGattBroadcastFromradio g raw).1 raw := by
  intro i
  constructor
  · intro ready
    rw [Appended, broadcast_conns distinct short, deliver_open ready]
  · intro closed
    rw [broadcast_conns distinct short, deliver_closed closed]

/-- Where the frame of a packet goes, by the lookup of its destination. -/
theorem untargeted_to_everyone (distinct : w.gatt.Distinct)
    (short : raw.length ≤ FROMRADIO_MAX_PKT_SIZE) (untargeted : Untargeted w.gatt info) :
    ToEveryone w.gatt (dispatchPacket w raw info).gatt raw := by
  have everyone := broadcast_to_everyone distinct short
  unfold dispatchPacket
  split_ifs with encrypted port
  · exact everyone
  · cases parsed : proxyHeaderParse info.payloadBytes with
    | none => exact everyone
    | some hdr =>
      cases found : bleGattGetConnByProxyId w.gatt hdr.dst with
      | none =>
        simp only [found]
        exact everyone
      | some conn =>
        obtain ⟨nonzero, i, first, _⟩ := get_conn_some found
        exfalso
        rcases untargeted with plain | other | bad | ⟨same, known, zero | unknown⟩
        · simp [plain] at encrypted
        · exact other port
        · rw [parsed] at bad
          contradiction
        · obtain rfl := Option.some.inj (parsed.symm.trans known)
          rw [nonzero] at zero
          contradiction
        · obtain rfl := Option.some.inj (parsed.symm.trans known)
          exact unknown ⟨i, first.1, first.2.1⟩
  · exact everyone

theorem targeted_to_registered (distinct : w.gatt.Distinct)
    (short : raw.length ≤ FROMRADIO_MAX_PKT_SIZE) {hdr : ProxyHeader}
    (targeted : TargetedAt w.gatt info hdr) :
    ToRegistered w.gatt (dispatchPacket w raw info).gatt raw hdr.dst := by
  obtain ⟨decoded, port, header, nonzero, j, tracked, registered⟩ := targeted
  simp only [dispatchPacket, decoded, Bool.not_true, Bool.false_eq_true, if_false, if_pos port,
    header]
  cases found : bleGattGetConnByProxyId w.gatt hdr.dst with
  | none => exact absurd ⟨tracked, registered⟩ (get_conn_none found nonzero j)
  | some conn =>
    obtain ⟨_, i, first, holds⟩ := get_conn_some found
    have conns := enqueue_conns distinct holds short
    refine ⟨i, first.1, first.2.1, ?_, ?_, ?_⟩
    · intro ready
      rw [Appended, conns, Function.update_self, deliver_open ready]
    · intro closed
      rw [conns, Function.update_self, deliver_closed closed]
    · intro other different
      rw [conns, Function.update_of_ne different]

/-! What is not broadcast leaves the queues alone. -/

theorem queued_setConn {i : Fin n} {pc : ProxyConn} (same : pc.queued = (g.conns i).queued) :
    ToNobody g (g.setConn i pc) := by
  intro j
  by_cases here : j = i
  · subst here
    rw [Gatt.conns_setConn_same, same]
  · rw [Gatt.conns_setConn_ne pc here]

theorem replay_to_nobody (g : Gatt n) (conn : BtConn) (nonce : UInt32) :
    ToNobody g (bleGattReplayCachedBurst p g conn nonce) := by
  unfold bleGattReplayCachedBurst
  cases findSlot g conn with
  | none => exact fun _ => rfl
  | some i =>
    dsimp only
    generalize protoEncodeConfigComplete p _ 16 = result
    by_cases failed : result.1 ≠ none
    · rw [if_pos failed]
      exact queued_setConn rfl
    · rw [if_neg failed]
      exact queued_setConn rfl

theorem serve_pending_to_nobody (s : Session) (g : Gatt n) :
    ToNobody g (servePendingGatt p s g) := by
  have fold : ∀ (conns : List BtConn) (g : Gatt n), ToNobody g (conns.foldl (fun g conn =>
      if s.serveCb then bleGattReplayCachedBurst p g conn 0 else g) g) := by
    intro conns
    induction conns with
    | nil => exact fun g i => rfl
    | cons conn conns ih =>
      intro g i
      rw [List.foldl_cons, ih]
      split_ifs
      · exact replay_to_nobody g conn 0 i
      · rfl
  exact fold s.pending g

theorem FetchEffect.to_nobody {w' : Proxy n} (effect : FetchEffect p w raw info w') :
    ToNobody w.gatt w'.gatt := by
  cases effect with
  | stored => exact fun _ => rfl
  | discarded => exact fun _ => rfl
  | published => exact serve_pending_to_nobody _ _
  | resumed => exact fun _ => rfl

section
variable (w : Proxy n) (rand : UInt32) (decoded : protoDecodeFromradio p raw = some info)
include decoded

theorem fetch_consumed (plain : info.whichVariant ≠ .packet) (window : w.session.Window) :
    ToNobody w.gatt (onFromradioUart p w raw rand).gatt := by
  have routed : upstreamGetState w = .fetching ∨ upstreamGetState w = .refetching := window
  obtain ⟨consumed, effect⟩ := fetch_effect p raw window plain
  simp only [onFromradioUart, decoded, routerDispatch, if_pos routed, consumed, if_true]
  exact effect.to_nobody

/-- Outside a fetch the router's own paths decide. -/
theorem outside_dispatched (outside : ¬ w.session.Window) :
    onFromradioUart p w raw rand = dispatchUnconsumed p w raw info rand := by
  have routed : ¬ (upstreamGetState w = .fetching ∨ upstreamGetState w = .refetching) := outside
  simp only [onFromradioUart, decoded, routerDispatch, if_neg routed]

theorem reboot_absorbed (reboot : info.whichVariant = .rebooted) (outside : ¬ w.session.Window) :
    ToNobody w.gatt (onFromradioUart p w raw rand).gatt := by
  have plain : info.whichVariant ≠ .packet := by simp [reboot]
  rw [outside_dispatched w rand decoded outside]
  simp only [dispatchUnconsumed, if_pos plain, if_pos reboot]
  rw [(refetch_effect p w rand).frame.1]
  exact fun _ => rfl

theorem keepalive_reply_swallowed (status : info.whichVariant = .queueStatus)
    (outside : ¬ w.session.Window) (pending : w.session.keepalivePending = true) :
    ToNobody w.gatt (onFromradioUart p w raw rand).gatt := by
  have plain : info.whichVariant ≠ .packet := by simp [status]
  have noReboot : info.whichVariant ≠ .rebooted := by simp [status]
  rw [outside_dispatched w rand decoded outside]
  simp only [dispatchUnconsumed, if_pos plain, if_neg noReboot, if_pos status,
    upstreamSwallowLiveQueuestatus, pending, if_true]
  exact fun _ => rfl

theorem live_broadcast (distinct : w.gatt.Distinct) (short : raw.length ≤ FROMRADIO_MAX_PKT_SIZE)
    (plain : info.whichVariant ≠ .packet) (outside : ¬ w.session.Window)
    (noReboot : info.whichVariant ≠ .rebooted)
    (genuine : info.whichVariant = .queueStatus → w.session.keepalivePending = false) :
    ToEveryone w.gatt (onFromradioUart p w raw rand).gatt raw := by
  have everyone := broadcast_to_everyone distinct short
  rw [outside_dispatched w rand decoded outside]
  simp only [dispatchUnconsumed, if_pos plain, if_neg noReboot]
  by_cases status : info.whichVariant = .queueStatus
  · simp only [if_pos status, upstreamSwallowLiveQueuestatus, genuine status, Bool.false_eq_true,
      if_false]
    exact everyone
  · simp only [if_neg status, Bool.false_eq_true, if_false]
    exact everyone

end

/-! The rows are all there are, and each appends the frame once at most. -/

theorem ToEveryone.verbatim (everyone : ToEveryone g g' raw) (i : Fin n) :
    (g'.conns i).queued = (g.conns i).queued ∨ Appended g g' raw i := by
  by_cases ready : (g.conns i).Open
  · exact .inr ((everyone i).1 ready)
  · exact .inl ((everyone i).2 ready)

theorem ToRegistered.verbatim {id : ProxyId} (registered : ToRegistered g g' raw id) (i : Fin n) :
    (g'.conns i).queued = (g.conns i).queued ∨ Appended g g' raw i := by
  obtain ⟨j, _, _, accepted, refused, others⟩ := registered
  by_cases here : i = j
  · subst here
    by_cases ready : (g.conns i).Open
    · exact .inr (accepted ready)
    · exact .inl (refused ready)
  · exact .inl (others i here)

theorem targeted_or_not (g : Gatt n) (info : FromradioInfo) :
    Untargeted g info ∨ ∃ hdr, TargetedAt g info hdr := by
  by_cases untargeted : Untargeted g info
  · exact .inl untargeted
  · right
    obtain ⟨decoded, rest⟩ := not_or.mp untargeted
    obtain ⟨port, rest⟩ := not_or.mp rest
    obtain ⟨header, unknown⟩ := not_or.mp rest
    obtain ⟨hdr, parsed⟩ := Option.ne_none_iff_exists'.mp header
    have known : ¬ (proxyIdIsZero hdr.dst = true ∨ ¬ Registered g hdr.dst) :=
      fun either => unknown ⟨hdr, parsed, either⟩
    obtain ⟨nonzero, registered⟩ := not_or.mp known
    exact ⟨hdr, by simpa using decoded, not_not.mp port, parsed, by simpa using nonzero,
      not_not.mp registered⟩

section
variable (distinct : w.gatt.Distinct) (short : raw.length ≤ FROMRADIO_MAX_PKT_SIZE) (rand : UInt32)
include distinct short

theorem undecoded_broadcast (decoded : protoDecodeFromradio p raw = none) :
    ToEveryone w.gatt (onFromradioUart p w raw rand).gatt raw := by
  simp only [onFromradioUart, decoded]
  exact broadcast_to_everyone distinct short

theorem untargeted_broadcast (decoded : protoDecodeFromradio p raw = some info)
    (packet : info.whichVariant = .packet) (untargeted : Untargeted w.gatt info) :
    ToEveryone w.gatt (onFromradioUart p w raw rand).gatt raw := by
  rw [packet_dispatched rand decoded packet]
  exact untargeted_to_everyone (w := { w with session := upstreamLivenessKick w.session })
    distinct short untargeted

theorem targeted_unicast (decoded : protoDecodeFromradio p raw = some info)
    (packet : info.whichVariant = .packet) {hdr : ProxyHeader}
    (targeted : TargetedAt w.gatt info hdr) :
    ToRegistered w.gatt (onFromradioUart p w raw rand).gatt raw hdr.dst := by
  rw [packet_dispatched rand decoded packet]
  exact targeted_to_registered (w := { w with session := upstreamLivenessKick w.session })
    distinct short targeted

theorem frame_verbatim (i : Fin n) :
    ((onFromradioUart p w raw rand).gatt.conns i).queued = (w.gatt.conns i).queued ∨
      Appended w.gatt (onFromradioUart p w raw rand).gatt raw i := by
  cases decoded : protoDecodeFromradio p raw with
  | none => exact (undecoded_broadcast distinct short rand decoded).verbatim i
  | some info =>
    by_cases packet : info.whichVariant = .packet
    · rcases targeted_or_not w.gatt info with untargeted | ⟨hdr, targeted⟩
      · exact (untargeted_broadcast distinct short rand decoded packet untargeted).verbatim i
      · exact (targeted_unicast distinct short rand decoded packet targeted).verbatim i
    · by_cases window : w.session.Window
      · exact .inl (fetch_consumed w rand decoded packet window i)
      · by_cases reboot : info.whichVariant = .rebooted
        · exact .inl (reboot_absorbed w rand decoded reboot window i)
        · by_cases reply : info.whichVariant = .queueStatus ∧ w.session.keepalivePending = true
          · exact .inl (keepalive_reply_swallowed w rand decoded reply.1 window reply.2 i)
          · have genuine : info.whichVariant = .queueStatus → w.session.keepalivePending = false := by
              intro status
              simpa using fun pending => reply ⟨status, pending⟩
            exact (live_broadcast w rand decoded distinct short packet window reboot genuine).verbatim i

end

/-- The table holds for every frame in every state of the session and for every
table in which no connection holds two slots, as none does in a reachable one. -/
theorem frame_disposed (documented : p.Documented) (n : Nat) :
    (∀ w : Proxy n, Reachable p w → w.gatt.Distinct) ∧
      ∀ (w : Proxy n) (frame : Frame) (rand : UInt32), w.gatt.Distinct →
        Disposed p w frame.bytes (onFromradioUart p w frame.bytes rand).gatt := by
  refine ⟨fun w reached => reached.distinct documented, ?_⟩
  intro w frame rand distinct
  have short := frame.le
  exact {
    verbatim := frame_verbatim distinct short rand
    undecoded := undecoded_broadcast distinct short rand
    untargeted := fun _ decoded => untargeted_broadcast distinct short rand decoded
    targeted := fun _ _ decoded packet => targeted_unicast distinct short rand decoded packet
    fetch := fun _ decoded => fetch_consumed w rand decoded
    rebooted := fun _ decoded => reboot_absorbed w rand decoded
    keepaliveReply := fun _ decoded => keepalive_reply_swallowed w rand decoded
    live := fun _ decoded => live_broadcast w rand decoded distinct short }

/-- Two phones, the second registered as 1.2.3.4, and a packet for it. -/
def targetedTable : Proxy 2 :=
  (system 2 .wire).run (.boot 2) registeredSchedule

theorem targeted_packet_unicast :
    ToRegistered targetedTable.gatt (onFromradioUart .wire targetedTable proxyFrame.bytes 0).gatt
        proxyFrame.bytes #v[1, 2, 3, 4] ∧
      ((onFromradioUart .wire targetedTable proxyFrame.bytes 0).gatt.conns 0).queued = [] := by
  obtain ⟨tables, disposed⟩ := frame_disposed wire_documented 2
  have distinct := tables targetedTable (reachable_run registeredSchedule (by decide))
  have targeted : TargetedAt targetedTable.gatt proxyInfo ⟨#v[9, 9, 9, 9], #v[1, 2, 3, 4], []⟩ :=
    ⟨rfl, rfl, by decide, by decide, 1, by decide, by decide⟩
  have decoded : protoDecodeFromradio .wire proxyFrame.bytes = some proxyInfo := by decide
  exact ⟨(disposed targetedTable proxyFrame 0 distinct).targeted _ _ decoded rfl targeted, by decide⟩

end MeshPbx
