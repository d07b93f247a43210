import MeshPbx.TargetedRouting

/-! The GATT server as a machine of its own: the calls other modules make on it,
each one section under a slot's lock. A handler run of the proxy is a list of
such calls, and what a call does to a tracked slot depends on that slot alone. -/
namespace MeshPbx
variable {n : Nat} {p : Platform} {w : Proxy n} {e : Event n} {g : Gatt n} {i : Fin n}
variable {conn : BtConn} {data : Bytes}

/-- A read names the cache it is served from. -/
inductive GattCall (n : Nat) where
  | enqueue (conn : BtConn) (data : Bytes)
  | encodeReply
  | replay (conn : BtConn) (nonce : UInt32)
  | park (conn : BtConn) (nonce : UInt32)
  | read (cache : ConfigCache) (conn : BtConn) (len offset : Nat)
  | register (conn : BtConn) (id : ProxyId)
  | requestTeardown (conn : BtConn)
  | teardown (slot : Fin n)
  | connected (conn : BtConn) (err : Bool)
  | disconnected (conn : BtConn)

/-- The slot's part of parking a phone. -/
def parkSlot (g : Gatt n) (conn : BtConn) (nonce : UInt32) : Gatt n :=
  match findSlot g conn with
  | none => g
  | some i => g.setConn i { g.conns i with state := .pending, nonce := nonce }

namespace GattCall

def run (p : Platform) (g : Gatt n) : GattCall n → Gatt n
  | .enqueue conn data => (bleGattEnqueueFromradio g conn data).1
  | .encodeReply => { g with queueStatusReply := (protoEncodeQueueStatus p 16).2 }
  | .replay conn nonce => bleGattReplayCachedBurst p g conn nonce
  | .park conn nonce => parkSlot g conn nonce
  | .read cache conn len offset => (fromradioRead p cache g conn len offset).1
  | .register conn id => (bleGattRegisterProxyId g conn id).1
  | .requestTeardown conn => (bleGattRequestTeardown g conn).1
  | .teardown slot =>
    teardownWorkHandler (g.setConn slot { g.conns slot with teardownWork := none }) slot
  | .connected conn err => onConnected g conn err
  | .disconnected conn => onDisconnected g conn

/-- A connection is reported connected only while it is not. -/
def enabled (g : Gatt n) : GattCall n → Prop
  | .connected conn _ => findSlot g conn = none
  | _ => True

instance (g : Gatt n) : (call : GattCall n) → Decidable (call.enabled g)
  | .connected _ _ => inferInstanceAs (Decidable (_ = _))
  | .enqueue _ _ | .encodeReply | .replay _ _ | .park _ _ | .read _ _ _ _ | .register _ _
  | .requestTeardown _ | .teardown _ | .disconnected _ => isTrue trivial

end GattCall

def gattSystem (n : Nat) (p : Platform) : Machine (Gatt n) (GattCall n) where
  enabled g call := call.enabled g
  next := GattCall.run p

instance (p : Platform) (g : Gatt n) (call : GattCall n) :
    Decidable ((gattSystem n p).enabled g call) :=
  inferInstanceAs (Decidable (call.enabled g))

/-! The calls of one handler run. -/

/-- One enqueue for each tracked slot, in table order. -/
def broadcastCalls (g : Gatt n) (data : Bytes) : List (GattCall n) :=
  (List.finRange n).filterMap fun i => (g.conns i).conn.map (GattCall.enqueue · data)

def packetCalls (g : Gatt n) (raw : Bytes) (info : FromradioInfo) : List (GattCall n) :=
  if info.isDecoded = true ∧ info.portnum = PROXY_PORTNUM then
    match (proxyHeaderParse info.payloadBytes).bind (bleGattGetConnByProxyId g ·.dst) with
    | some conn => [.enqueue conn raw]
    | none => broadcastCalls g raw
  else broadcastCalls g raw

def serveCalls (s : Session) : List (GattCall n) :=
  if s.serveCb then s.pending.map (GattCall.replay · 0) else []

def frameCalls (p : Platform) (w : Proxy n) (payload : Bytes) : List (GattCall n) :=
  match protoDecodeFromradio p payload with
  | none => broadcastCalls w.gatt payload
  | some info =>
    if info.whichVariant = .packet then packetCalls w.gatt payload info
    else if w.session.Window then
      if w.session.state = .fetching ∧ info.whichVariant = .configCompleteId ∧
          decodeConfigCompleteNonce p payload = some w.session.nonce then serveCalls w.session
      else []
    else if info.whichVariant = .rebooted then []
    else if info.whichVariant = .queueStatus ∧ w.session.keepalivePending = true then []
    else broadcastCalls w.gatt payload

def heartbeatCalls (p : Platform) (g : Gatt n) (conn : BtConn) : List (GattCall n) :=
  if g.queueStatusReply.length = 0 then
    if (protoEncodeQueueStatus p 16).1 ≠ none then []
    else [.encodeReply, .enqueue conn (protoEncodeQueueStatus p 16).2]
  else [.enqueue conn g.queueStatusReply]

def toradioCalls (p : Platform) (w : Proxy n) (conn : BtConn) (buf : Bytes) : List (GattCall n) :=
  match protoDecodeToradio p buf with
  | none => []
  | some info =>
    if info.hasWantConfig = true then
      if w.session.state = .live ∨ w.session.state = .cacheReady then
        [.replay conn info.wantConfigId]
      else []
    else if info.hasHeartbeat = true then heartbeatCalls p w.gatt conn
    else if info.hasDisconnect = true then [.requestTeardown conn]
    else []

def calls (p : Platform) (w : Proxy n) : Event n → List (GattCall n)
  | .fromradio frame _ => frameCalls p w frame.bytes
  | .toradioWrite conn buf offset => if offset ≠ 0 then [] else toradioCalls p w conn buf
  | .fromradioRead conn len offset => [.read w.cache conn len offset]
  | .nodeRegWrite conn buf offset =>
    if offset ≠ 0 ∨ buf.length ≠ PROXY_ID_SIZE then [] else [.register conn (.ofBytes buf 0)]
  | .connected conn err => [.connected conn err]
  | .disconnected conn => [.disconnected conn]
  | .teardown slot => [.teardown slot]
  | .sessionStart _ | .fromnumRead _ _ _ | .keepalive | .fetchRetry | .liveness _ | .txWork _
  | .txEnd _ => []

theorem enqueue_holder (g : Gatt n) (conn : BtConn) (data : Bytes) (j : Fin n) :
    ((bleGattEnqueueFromradio g conn data).1.conns j).conn = (g.conns j).conn := by
  unfold bleGattEnqueueFromradio
  split_ifs with long
  · rfl
  · split
    · rfl
    · exact enqueue_locked_holder conn data j

theorem broadcast_calls (p : Platform) (g : Gatt n) (data : Bytes) :
    (bleGattBroadcastFromradio g data).1 = (gattSystem n p).run g (broadcastCalls g data) := by
  have fold : ∀ (slots : List (Fin n)) (acc : Gatt n × Nat) (g : Gatt n),
      (∀ j, (g.conns j).conn = (acc.1.conns j).conn) →
        (slots.foldl (broadcastOne data) acc).1 = (gattSystem n p).run acc.1
          (slots.filterMap fun i => (g.conns i).conn.map (GattCall.enqueue · data)) := by
    intro slots
    induction slots with
    | nil => exact fun acc g _ => rfl
    | cons i slots ih =>
      intro acc g same
      rw [List.foldl_cons, List.filterMap_cons, same i]
      cases holds : (acc.1.conns i).conn with
      | none =>
        have skipped : broadcastOne data acc i = acc := by simp only [broadcastOne, holds]
        rw [skipped]
        exact ih acc g same
      | some conn =>
        have turn : (broadcastOne data acc i).1 = (bleGattEnqueueFromradio acc.1 conn data).1 := by
          simp only [broadcastOne, holds]
        have later := ih (broadcastOne data acc i) g (by
          intro j
          rw [turn, enqueue_holder]
          exact same j)
        rw [later, turn]
        rfl
  exact fold _ _ g (fun _ => rfl)

theorem packet_calls (p : Platform) (w : Proxy n) (raw : Bytes) (info : FromradioInfo) :
    (dispatchPacket w raw info).gatt = (gattSystem n p).run w.gatt (packetCalls w.gatt raw info) := by
  have flood : (broadcast w raw).gatt = (gattSystem n p).run w.gatt (broadcastCalls w.gatt raw) :=
    broadcast_calls p w.gatt raw
  unfold dispatchPacket packetCalls
  by_cases decoded : info.isDecoded = true
  · by_cases proxied : info.portnum = PROXY_PORTNUM
    · simp only [decoded, proxied, Bool.not_true, Bool.false_eq_true, if_false, if_true, and_self]
      cases proxyHeaderParse info.payloadBytes with
      | none => exact flood
      | some hdr =>
        cases found : bleGattGetConnByProxyId w.gatt hdr.dst with
        | none => simpa only [Option.bind_some, found] using flood
        | some conn => simp only [Option.bind_some, found]; rfl
    · simpa only [decoded, proxied, Bool.not_true, Bool.false_eq_true, if_false, and_false]
        using flood
  · simpa only [decoded, Bool.not_false, if_true, Bool.false_eq_true, false_and, if_false]
      using flood

theorem serve_calls (p : Platform) (s : Session) (g : Gatt n) :
    servePendingGatt p s g = (gattSystem n p).run g (serveCalls s) := by
  unfold servePendingGatt serveCalls
  cases s.serveCb with
  | true => simp only [if_true, Machine.run, List.foldl_map]; rfl
  | false => simp

theorem frame_calls (p : Platform) (w : Proxy n) (payload : Bytes) (rand : UInt32) :
    (onFromradioUart p w payload rand).gatt =
      (gattSystem n p).run w.gatt (frameCalls p w payload) := by
  have effect := frame_effect p w payload rand
  generalize onFromradioUart p w payload rand = after at effect ⊢
  unfold frameCalls
  cases effect with
  | undecoded decoded =>
    simp only [decoded]
    exact broadcast_calls p w.gatt payload
  | fetched info decoded window plain _ effect =>
    simp only [decoded, if_neg plain, if_pos window]
    cases effect with
    | stored keeps =>
      rcases keeps with ⟨_, other⟩ | ⟨other, _⟩
      · simp [other]
      · simp [other]
    | discarded refetching other => simp [other]
    | published fetching terminator ours =>
      simp only [fetching, terminator, ours, and_self, if_true]
      exact serve_calls p w.session w.gatt
    | resumed refetching => simp [refetching]
  | rebooted info decoded outside reboot =>
    have plain : info.whichVariant ≠ .packet := by simp [reboot]
    simp only [decoded, if_neg plain, if_neg outside, if_pos reboot]
    exact (refetch_effect p w rand).frame.1
  | swallowed info decoded outside status pending =>
    simp [decoded, outside, status, pending]
  | live info decoded outside plain noReboot genuine =>
    have unswallowed : ¬ (info.whichVariant = .queueStatus ∧ w.session.keepalivePending = true) := by
      rintro ⟨status, pending⟩
      rw [genuine status] at pending
      contradiction
    simp only [decoded, if_neg plain, if_neg outside, if_neg noReboot, if_neg unswallowed]
    exact broadcast_calls p w.gatt payload
  | packet info decoded packet =>
    simp only [decoded, if_pos packet]
    exact packet_calls p _ payload info

theorem heartbeat_calls (p : Platform) (g : Gatt n) (conn : BtConn) :
    bleGattReplyQueuestatus p g conn = (gattSystem n p).run g (heartbeatCalls p g conn) := by
  simp only [bleGattReplyQueuestatus, heartbeatCalls]
  by_cases unset : g.queueStatusReply.length = 0
  · rw [if_pos unset, if_pos unset]
    by_cases failed : (protoEncodeQueueStatus p 16).1 ≠ none
    · rw [if_pos failed, if_pos failed]
      rfl
    · rw [if_neg failed, if_neg failed]
      rfl
  · rw [if_neg unset, if_neg unset]
    rfl

theorem toradio_calls (p : Platform) (w : Proxy n) (conn : BtConn) (buf : Bytes) :
    (onToradioBle p w conn buf).gatt = (gattSystem n p).run w.gatt (toradioCalls p w conn buf) := by
  unfold toradioCalls
  cases decoded : protoDecodeToradio p buf with
  | none =>
    simp only [onToradioBle, decoded]
    rfl
  | some info =>
    simp only
    by_cases wants : info.hasWantConfig = true
    · rw [toradio_want_config decoded wants, if_pos wants]
      split_ifs <;> rfl
    · simp only [onToradioBle, decoded, if_neg wants]
      split_ifs with heartbeat disconnect
      · exact heartbeat_calls p w.gatt conn
      · rfl
      · rfl
      · rfl

/-- A handler run does to the GATT server what its calls do. -/
theorem apply_calls (p : Platform) (w : Proxy n) (e : Event n) :
    (w.apply p e).gatt = (gattSystem n p).run w.gatt (calls p w e) := by
  cases e with
  | sessionStart rand =>
    simp only [Proxy.apply, upstreamSessionStart]
    split <;> rfl
  | fromradio frame rand => exact frame_calls p w frame.bytes rand
  | toradioWrite conn buf offset =>
    simp only [Proxy.apply, toradioWrite, calls]
    split_ifs
    · rfl
    · exact toradio_calls p w conn buf
  | nodeRegWrite conn buf offset =>
    simp only [Proxy.apply, nodeRegWrite, calls]
    split_ifs <;> rfl
  | keepalive => exact (keepalive_frame p _).1
  | fetchRetry =>
    simp only [Proxy.apply, fetchRetryHandler]
    split_ifs <;> rfl
  | liveness rand =>
    simp only [Proxy.apply, livenessHandler]
    split_ifs
    · rfl
    · exact (refetch_effect p _ rand).frame.1
  | _ => rfl

/-- Only a call that reports a connection asks for anything to be enabled. -/
theorem runs_of_unconditional (calls : List (GattCall n))
    (free : ∀ call ∈ calls, ∀ g : Gatt n, call.enabled g) (g : Gatt n) :
    (gattSystem n p).Runs g calls := by
  induction calls generalizing g with
  | nil => trivial
  | cons call calls ih =>
    exact ⟨free call List.mem_cons_self g,
      ih (fun later member => free later (List.mem_cons_of_mem _ member)) _⟩

/-! Which calls a handler run is made of. -/

theorem broadcast_call {call : GattCall n} (member : call ∈ broadcastCalls g data) :
    ∃ conn, call = .enqueue conn data := by
  obtain ⟨i, _, made⟩ := List.mem_filterMap.mp member
  obtain ⟨conn, _, rfl⟩ := Option.map_eq_some_iff.mp made
  exact ⟨conn, rfl⟩

theorem serve_call {s : Session} {call : GattCall n} (member : call ∈ serveCalls s) :
    ∃ conn ∈ s.pending, call = .replay conn 0 := by
  unfold serveCalls at member
  split_ifs at member
  · obtain ⟨conn, parked, rfl⟩ := List.mem_map.mp member
    exact ⟨conn, parked, rfl⟩
  · exact absurd member List.not_mem_nil

/-- The calls that a frame from the node may lead to: the frame itself is queued, or
it closes the boot fetch and the parked phones are served. -/
inductive FrameCall (p : Platform) (w : Proxy n) (payload : Bytes) : GattCall n → Prop
  | queued (conn : BtConn) : FrameCall p w payload (.enqueue conn payload)
  | served (call : GattCall n) (parked : call ∈ serveCalls w.session)
      (fetching : w.session.state = .fetching) (info : FromradioInfo)
      (decoded : protoDecodeFromradio p payload = some info)
      (terminator : info.whichVariant = .configCompleteId)
      (ours : decodeConfigCompleteNonce p payload = some w.session.nonce) :
      FrameCall p w payload call

theorem frame_call {payload : Bytes} {call : GattCall n}
    (member : call ∈ frameCalls p w payload) : FrameCall p w payload call := by
  have broadcast (again : call ∈ broadcastCalls w.gatt payload) : FrameCall p w payload call := by
    obtain ⟨conn, rfl⟩ := broadcast_call again
    exact .queued conn
  unfold frameCalls at member
  cases decoded : protoDecodeFromradio p payload with
  | none =>
    simp only [decoded] at member
    exact broadcast member
  | some info =>
    simp only [decoded] at member
    split_ifs at member with packet window closing
    · unfold packetCalls at member
      split_ifs at member
      · split at member
        · rw [List.mem_singleton.mp member]
          exact .queued _
        · exact broadcast member
      · exact broadcast member
    · exact .served call member closing.1 info decoded closing.2.1 closing.2.2
    · exact absurd member List.not_mem_nil
    · exact absurd member List.not_mem_nil
    · exact absurd member List.not_mem_nil
    · exact broadcast member

/-- The calls that a ToRadio write may lead to. -/
inductive ToradioCall (p : Platform) (w : Proxy n) (conn : BtConn) (buf : Bytes) :
    GattCall n → Prop
  | replay (info : ToradioInfo) (decoded : protoDecodeToradio p buf = some info)
      (wants : info.hasWantConfig = true)
      (ready : w.session.state = .live ∨ w.session.state = .cacheReady) :
      ToradioCall p w conn buf (.replay conn info.wantConfigId)
  | encode : ToradioCall p w conn buf .encodeReply
  | first : ToradioCall p w conn buf (.enqueue conn (protoEncodeQueueStatus p 16).2)
  | again (kept : w.gatt.queueStatusReply.length ≠ 0) :
      ToradioCall p w conn buf (.enqueue conn w.gatt.queueStatusReply)
  | leave : ToradioCall p w conn buf (.requestTeardown conn)

theorem toradio_call {buf : Bytes} {call : GattCall n}
    (member : call ∈ toradioCalls p w conn buf) : ToradioCall p w conn buf call := by
  unfold toradioCalls at member
  cases decoded : protoDecodeToradio p buf with
  | none =>
    simp only [decoded] at member
    exact absurd member List.not_mem_nil
  | some info =>
    simp only [decoded] at member
    split_ifs at member with wants ready
    · rw [List.mem_singleton.mp member]
      exact .replay info decoded wants ready
    · exact absurd member List.not_mem_nil
    · unfold heartbeatCalls at member
      split_ifs at member with unset
      · exact absurd member List.not_mem_nil
      · rcases List.mem_cons.mp member with rfl | later
        · exact .encode
        · rw [List.mem_singleton.mp later]
          exact .first
      · rw [List.mem_singleton.mp member]
        exact .again unset
    · rw [List.mem_singleton.mp member]
      exact .leave
    · exact absurd member List.not_mem_nil

theorem frame_free (p : Platform) (w : Proxy n) (payload : Bytes) :
    ∀ call ∈ frameCalls p w payload, ∀ g : Gatt n, call.enabled g := by
  intro call member g
  cases frame_call member with
  | queued => trivial
  | served _ parked =>
    obtain ⟨_, _, rfl⟩ := serve_call parked
    trivial

theorem toradio_free (p : Platform) (w : Proxy n) (conn : BtConn) (buf : Bytes) :
    ∀ call ∈ toradioCalls p w conn buf, ∀ g : Gatt n, call.enabled g := by
  intro call member g
  cases toradio_call member <;> trivial

theorem calls_run (e : Event n) (enabled : w.enabled e) :
    (gattSystem n p).Runs w.gatt (calls p w e) := by
  cases e with
  | connected conn err => exact ⟨enabled, trivial⟩
  | fromradio frame rand => exact runs_of_unconditional _ (frame_free p w frame.bytes) _
  | toradioWrite conn buf offset =>
    simp only [calls]
    split_ifs
    · trivial
    · exact runs_of_unconditional _ (toradio_free p w conn buf) _
  | nodeRegWrite conn buf offset =>
    simp only [calls]
    split_ifs
    · trivial
    · exact ⟨trivial, trivial⟩
  | fromradioRead => exact ⟨trivial, trivial⟩
  | disconnected => exact ⟨trivial, trivial⟩
  | teardown => exact ⟨trivial, trivial⟩
  | _ => trivial

/-- The calls of a whole run of the proxy. -/
def schedule (p : Platform) (w : Proxy n) : List (Event n) → List (GattCall n)
  | [] => []
  | e :: es => calls p w e ++ schedule p (w.apply p e) es

/-- The GATT server of a run of the proxy has run the calls of its events. -/
theorem schedule_run (es : List (Event n)) (runs : (system n p).Runs w es) :
    (gattSystem n p).Runs w.gatt (schedule p w es) ∧
      ((system n p).run w es).gatt = (gattSystem n p).run w.gatt (schedule p w es) := by
  induction es generalizing w with
  | nil => exact ⟨trivial, rfl⟩
  | cons e es ih =>
    obtain ⟨enabled, later⟩ := runs
    obtain ⟨rest, final⟩ := ih later
    have turn : (w.apply p e).gatt = (gattSystem n p).run w.gatt (calls p w e) := apply_calls p w e
    have next : (system n p).next w e = w.apply p e := rfl
    rw [next, turn] at rest final
    refine ⟨(Machine.runs_append _ _).mpr ⟨calls_run e enabled, rest⟩, ?_⟩
    rw [Machine.run_cons, next, final, schedule, Machine.run_append]

theorem reachable_gatt {w : Proxy n} (reached : Reachable p w) :
    (gattSystem n p).Reachable (.zero n) w.gatt := by
  obtain ⟨es, runs, rfl⟩ := reached
  obtain ⟨made, final⟩ := schedule_run es runs
  exact ⟨schedule p (.boot n) es, made, final.symm⟩

/-! What a call does to one slot. -/

namespace ProxyConn

/-- The slot after an enqueue for its holder. -/
def offer (pc : ProxyConn) (data : Bytes) : ProxyConn :=
  if data.length ≤ FROMRADIO_MAX_PKT_SIZE then pc.deliver data else pc

/-- What a read is answered from the staging buffer. -/
def answer (p : Platform) (pc : ProxyConn) (len offset : Nat) : Except AttError Bytes :=
  if pc.stagedLen > 0 then p.attrRead pc.stagedBytes len offset else .ok []

/-- The slot `i`, held by `conn`, after a call. -/
def after (p : Platform) (i : Fin n) (conn : BtConn) (pc : ProxyConn) : GattCall n → ProxyConn
  | .enqueue target data => if target = conn then pc.offer data else pc
  | .replay target nonce =>
    if target = conn then pc.arm p (if nonce ≠ 0 then nonce else pc.nonce) else pc
  | .park target nonce => if target = conn then { pc with state := .pending, nonce := nonce } else pc
  | .read cache reader _ offset => if reader = conn ∧ offset = 0 then stageNext cache pc else pc
  | .register target id => if target = conn then { pc with proxyId := id } else pc
  | .requestTeardown target =>
    if target = conn then { pc with leaving := true, teardownWork := some TEARDOWN_DELAY_MS } else pc
  | .teardown slot => if slot = i then { pc with teardownWork := none } else pc
  | .disconnected left =>
    if left = conn then ({ pc with teardownWork := none }.reset none) else pc
  | .encodeReply | .connected _ _ => pc

end ProxyConn

/-- The change of one slot that most of the server's functions make: to the one
the connection resolves to, if it resolves. -/
def Gatt.modify (g : Gatt n) (target : BtConn) (f : ProxyConn → ProxyConn) : Gatt n :=
  match findSlot g target with
  | none => g
  | some i => g.setConn i (f (g.conns i))

/-- A slot that the connection does not hold stays as it is. -/
theorem Gatt.modify_other {target : BtConn} (other : (g.conns i).conn ≠ some target)
    (f : ProxyConn → ProxyConn) : (g.modify target f).conns i = g.conns i := by
  unfold Gatt.modify
  cases found : findSlot g target with
  | none => rfl
  | some j =>
    have apart : i ≠ j := by
      rintro rfl
      exact other (find_slot_some found)
    exact Gatt.conns_setConn_ne _ apart

theorem Gatt.modify_slot (distinct : g.Distinct) (holds : (g.conns i).conn = some conn)
    (target : BtConn) (f : ProxyConn → ProxyConn) :
    (g.modify target f).conns i = if target = conn then f (g.conns i) else g.conns i := by
  by_cases mine : target = conn
  · subst mine
    simp only [Gatt.modify, find_slot_of_distinct distinct holds, Gatt.conns_setConn_same, if_true]
  · rw [if_neg mine]
    have other : (g.conns i).conn ≠ some target := by simpa [holds] using Ne.symm mine
    exact Gatt.modify_other other f

theorem enqueue_conns_modify (g : Gatt n) (target : BtConn) (data : Bytes) :
    (bleGattEnqueueFromradio g target data).1.conns =
      (g.modify target fun pc => pc.offer data).conns := by
  unfold Gatt.modify
  cases found : findSlot g target with
  | none =>
    simp only [bleGattEnqueueFromradio, found]
    split_ifs <;> rfl
  | some i =>
    by_cases short : data.length ≤ FROMRADIO_MAX_PKT_SIZE
    · rw [enqueue_found_conns found short]
      simp only [Gatt.setConn, ProxyConn.offer, if_pos short]
    · simp only [bleGattEnqueueFromradio, if_pos (Nat.lt_of_not_le short), ProxyConn.offer,
        if_neg short, Gatt.setConn_eq]

theorem replay_conns (documented : p.Documented) (g : Gatt n) (target : BtConn) (nonce : UInt32) :
    (bleGattReplayCachedBurst p g target nonce).conns =
      (g.modify target fun pc => pc.arm p (if nonce ≠ 0 then nonce else pc.nonce)).conns := by
  unfold Gatt.modify
  cases found : findSlot g target with
  | none => simp only [bleGattReplayCachedBurst, found]
  | some i => rw [replay_tracked documented found]; rfl

theorem read_conns (p : Platform) (cache : ConfigCache) (g : Gatt n) (target : BtConn)
    (len offset : Nat) :
    (fromradioRead p cache g target len offset).1.conns =
      if offset = 0 then (g.modify target (stageNext cache)).conns else g.conns := by
  unfold fromradioRead Gatt.modify
  cases findSlot g target with
  | none => simp
  | some i =>
    split_ifs
    · rfl
    · simp

theorem register_conns (g : Gatt n) (target : BtConn) (id : ProxyId) :
    (bleGattRegisterProxyId g target id).1 =
      g.modify target fun pc => { pc with proxyId := id } := by
  unfold bleGattRegisterProxyId Gatt.modify
  cases findSlot g target <;> rfl

theorem request_teardown_conns (g : Gatt n) (target : BtConn) :
    (bleGattRequestTeardown g target).1 = g.modify target fun pc =>
      { pc with leaving := true, teardownWork := some TEARDOWN_DELAY_MS } := by
  unfold bleGattRequestTeardown Gatt.modify
  cases findSlot g target <;> rfl

theorem disconnected_conns (g : Gatt n) (target : BtConn) :
    (onDisconnected g target).conns =
      (g.modify target fun pc => { pc with teardownWork := none }.reset none).conns := by
  unfold onDisconnected Gatt.modify
  cases findSlot g target <;> rfl

theorem teardown_conns (g : Gatt n) (slot : Fin n) : (teardownWorkHandler g slot).conns = g.conns := by
  unfold teardownWorkHandler
  split
  · rfl
  · split_ifs <;> rfl

/-- The slots after a successful connection event: one vacant slot is reset for
the new connection, if there is one. -/
theorem connected_conns (g : Gatt n) (fresh : BtConn) :
    (onConnected g fresh false).conns = g.conns ∨
      ∃ j, (g.conns j).conn = none ∧ (onConnected g fresh false).conns =
        (g.setConn j ((g.conns j).reset (some fresh))).conns := by
  unfold onConnected allocSlot
  cases found : (List.finRange n).find? (fun i => (g.conns i).conn = none) with
  | none => exact .inl rfl
  | some j =>
    have vacant : (g.conns j).conn = none := by simpa using List.find?_some found
    simp only [Bool.false_eq_true, if_false, Option.map_some]
    refine .inr ⟨j, vacant, ?_⟩
    split_ifs <;> rfl

/-- A new connection takes a vacant slot. -/
theorem connected_slot (holds : (g.conns i).conn = some conn) (fresh : BtConn) (err : Bool) :
    (onConnected g fresh err).conns i = g.conns i := by
  cases err with
  | true => rfl
  | false =>
    rcases connected_conns g fresh with same | ⟨j, vacant, opened⟩
    · rw [same]
    · have other : i ≠ j := by
        rintro rfl
        rw [holds] at vacant
        contradiction
      rw [opened, Gatt.conns_setConn_ne _ other]

/-- A slot given to a new connection starts from the reset. -/
theorem connected_reset (untracked : findSlot g conn = none)
    (accepted : findSlot (onConnected g conn false) conn = some i) :
    (onConnected g conn false).conns i = (g.conns i).reset (some conn) := by
  have holds := find_slot_some accepted
  have absent := not_exists.mp (find_slot_none.mp untracked)
  rcases connected_conns g conn with same | ⟨j, _, opened⟩
  · rw [same] at holds
    exact absurd holds (absent i)
  · rw [opened] at holds ⊢
    by_cases here : i = j
    · rw [here, Gatt.conns_setConn_same]
    · rw [Gatt.conns_setConn_ne _ here] at holds
      exact absurd holds (absent i)

theorem read_answer (found : findSlot g conn = some i) (cache : ConfigCache) (len offset : Nat) :
    (fromradioRead p cache g conn len offset).2 =
      (if offset = 0 then stageNext cache (g.conns i) else g.conns i).answer p len offset := by
  simp only [fromradioRead, found]
  rfl

namespace GattCall

/-- What a call does to the slot it finds. -/
def change (p : Platform) : GattCall n → ProxyConn → ProxyConn
  | .enqueue _ data => fun pc => pc.offer data
  | .encodeReply => id
  | .replay _ nonce => fun pc => pc.arm p (if nonce ≠ 0 then nonce else pc.nonce)
  | .park _ nonce => fun pc => { pc with state := .pending, nonce := nonce }
  | .read cache _ _ offset => if offset = 0 then stageNext cache else id
  | .register _ id => fun pc => { pc with proxyId := id }
  | .requestTeardown _ => fun pc =>
    { pc with leaving := true, teardownWork := some TEARDOWN_DELAY_MS }
  | .teardown _ => fun pc => { pc with teardownWork := none }
  | .connected fresh _ => fun pc => pc.reset (some fresh)
  | .disconnected _ => fun pc => { pc with teardownWork := none }.reset none

/-- The slots that a call may find. -/
def Finds (g : Gatt n) (i : Fin n) : GattCall n → Prop
  | .enqueue target _ | .replay target _ | .park target _ | .read _ target _ _
  | .register target _ | .requestTeardown target | .disconnected target =>
    (g.conns i).conn = some target
  | .teardown slot => i = slot
  | .connected _ err => err = false ∧ (g.conns i).conn = none
  | .encodeReply => False

end GattCall

theorem Gatt.modify_cases (g : Gatt n) (target : BtConn) (f : ProxyConn → ProxyConn) (i : Fin n) :
    (g.modify target f).conns i = g.conns i ∨
      (g.conns i).conn = some target ∧ (g.modify target f).conns i = f (g.conns i) := by
  by_cases holds : (g.conns i).conn = some target
  · unfold Gatt.modify
    cases found : findSlot g target with
    | none => exact .inl rfl
    | some j =>
      by_cases here : i = j
      · subst here
        exact .inr ⟨holds, Gatt.conns_setConn_same _⟩
      · exact .inl (Gatt.conns_setConn_ne _ here)
  · exact .inl (Gatt.modify_other holds f)

/-- A call leaves a slot as it is, or it has found the slot and makes its change. -/
theorem call_change (documented : p.Documented) (g : Gatt n) (call : GattCall n) (i : Fin n) :
    (call.run p g).conns i = g.conns i ∨
      call.Finds g i ∧ (call.run p g).conns i = call.change p (g.conns i) := by
  have modified := Gatt.modify_cases g
  cases call with
  | enqueue target data =>
    rw [GattCall.run, enqueue_conns_modify]
    exact modified target _ i
  | encodeReply => exact .inl rfl
  | replay target nonce =>
    rw [GattCall.run, replay_conns documented]
    exact modified target _ i
  | park target nonce =>
    exact modified target (fun pc => { pc with state := .pending, nonce := nonce }) i
  | read cache reader len offset =>
    rw [GattCall.run, read_conns, GattCall.change]
    split_ifs
    · exact modified reader _ i
    · exact .inl rfl
  | register target id =>
    rw [GattCall.run, register_conns]
    exact modified target _ i
  | requestTeardown target =>
    rw [GattCall.run, request_teardown_conns]
    exact modified target _ i
  | teardown slot =>
    rw [GattCall.run, teardown_conns]
    by_cases here : i = slot
    · subst here
      exact .inr ⟨rfl, Gatt.conns_setConn_same _⟩
    · exact .inl (Gatt.conns_setConn_ne _ here)
  | connected fresh err =>
    cases err with
    | true => exact .inl rfl
    | false =>
      rcases connected_conns g fresh with same | ⟨j, vacant, opened⟩
      · exact .inl (congrFun same i)
      · rw [GattCall.run, opened]
        by_cases here : i = j
        · subst here
          exact .inr ⟨⟨rfl, vacant⟩, Gatt.conns_setConn_same _⟩
        · exact .inl (Gatt.conns_setConn_ne _ here)
  | disconnected left =>
    rw [GattCall.run, disconnected_conns]
    exact modified left _ i

/-- On a table without shared pointers a call changes a tracked slot only
through the slot's own fields. -/
theorem call_slot (documented : p.Documented) (distinct : g.Distinct)
    (holds : (g.conns i).conn = some conn) (call : GattCall n) :
    (call.run p g).conns i = (g.conns i).after p i conn call := by
  have modified := Gatt.modify_slot distinct holds
  cases call with
  | enqueue target data =>
    rw [GattCall.run, enqueue_conns_modify, modified]
    rfl
  | encodeReply => rfl
  | replay target nonce => rw [GattCall.run, replay_conns documented, modified]; rfl
  | park target nonce =>
    exact modified target fun pc => { pc with state := .pending, nonce := nonce }
  | read cache reader len offset =>
    rw [GattCall.run, read_conns]
    by_cases fresh : offset = 0
    · rw [if_pos fresh, modified]
      simp only [ProxyConn.after, fresh, and_true]
    · rw [if_neg fresh]
      simp only [ProxyConn.after, fresh, and_false, if_false]
  | register target id => rw [GattCall.run, register_conns, modified]; rfl
  | requestTeardown target => rw [GattCall.run, request_teardown_conns, modified]; rfl
  | teardown slot =>
    rw [GattCall.run, teardown_conns, ProxyConn.after]
    by_cases here : slot = i
    · rw [if_pos here, here, Gatt.conns_setConn_same]
    · rw [if_neg here, Gatt.conns_setConn_ne _ (Ne.symm here)]
  | connected fresh err => exact connected_slot holds fresh err
  | disconnected left => rw [GattCall.run, disconnected_conns, modified]; rfl

/-- The slot `i` of a table without shared pointers holds the connection. -/
structure Held (g : Gatt n) (i : Fin n) (conn : BtConn) : Prop where
  distinct : g.Distinct
  holds : (g.conns i).conn = some conn

theorem Held.found (held : Held g i conn) : findSlot g conn = some i :=
  find_slot_of_distinct held.distinct held.holds

theorem offer_conn (data : Bytes) (pc : ProxyConn) : (pc.offer data).conn = pc.conn := by
  unfold ProxyConn.offer
  split_ifs
  · exact deliver_conn data pc
  · rfl

/-- Only connecting and disconnecting change who holds a slot. -/
def GattCall.InPlace : GattCall n → Prop
  | .connected _ _ | .disconnected _ => False
  | _ => True

theorem call_holder (documented : p.Documented) (call : GattCall n) (place : call.InPlace)
    (j : Fin n) : ((call.run p g).conns j).conn = (g.conns j).conn := by
  rcases call_change documented g call j with same | ⟨_, changed⟩
  · rw [same]
  · rw [changed]
    cases call with
    | enqueue target data => exact offer_conn data _
    | read cache reader len offset =>
      rw [GattCall.change]
      split_ifs
      · exact stage_next_conn cache _
      · rfl
    | connected => exact place.elim
    | disconnected => exact place.elim
    | _ => rfl

theorem call_distinct (documented : p.Documented) (distinct : g.Distinct) (call : GattCall n)
    (enabled : call.enabled g) : (call.run p g).Distinct := by
  cases call with
  | connected fresh err =>
    have effects : Effects p .zero (fun _ => True) g (onConnected g fresh err) :=
      connected_effects enabled err
    exact effects.distinct distinct
  | disconnected left =>
    have effects : Effects p .zero (fun _ => True) g (onDisconnected g left) :=
      disconnected_effects g left
    exact effects.distinct distinct
  | _ => exact distinct.of_holders (call_holder documented _ trivial)

theorem gatt_distinct (documented : p.Documented)
    (reached : (gattSystem n p).Reachable (.zero n) g) : g.Distinct := by
  refine Machine.Reachable.invariant (fun g call distinct enabled => ?_) ?_ reached
  · exact call_distinct documented distinct call enabled
  · intro i j conn held
    cases held

/-- A pointer that was reported disconnected holds no slot. -/
theorem disconnected_gone (distinct : g.Distinct) (left : BtConn) :
    ¬ (onDisconnected g left).Tracks left := by
  rintro ⟨i, holds⟩
  rw [disconnected_conns] at holds
  unfold Gatt.modify at holds
  cases found : findSlot g left with
  | none =>
    rw [found] at holds
    exact find_slot_none.mp found ⟨i, holds⟩
  | some j =>
    rw [found] at holds
    by_cases here : i = j
    · rw [here, Gatt.conns_setConn_same] at holds
      cases holds
    · rw [Gatt.conns_setConn_ne _ here] at holds
      exact here (distinct i j left holds (find_slot_some found))

/-- What may happen while a connection lasts: everything but its end. -/
def GattCall.Spares (conn : BtConn) : GattCall n → Prop
  | .disconnected left => left ≠ conn
  | _ => True

instance (conn : BtConn) : (call : GattCall n) → Decidable (call.Spares conn)
  | .disconnected _ => inferInstanceAs (Decidable (_ ≠ _))
  | .connected _ _ | .enqueue _ _ | .encodeReply | .replay _ _ | .park _ _ | .read _ _ _ _
  | .register _ _ | .requestTeardown _ | .teardown _ => isTrue trivial

theorem Held.call (documented : p.Documented) (held : Held g i conn) (call : GattCall n)
    (enabled : call.enabled g) (spares : call.Spares conn) : Held (call.run p g) i conn := by
  refine ⟨call_distinct documented held.distinct call enabled, ?_⟩
  cases call with
  | connected fresh err =>
    rw [GattCall.run, connected_slot held.holds]
    exact held.holds
  | disconnected left =>
    rw [call_slot documented held.distinct held.holds, ProxyConn.after, if_neg spares]
    exact held.holds
  | _ => exact (call_holder documented _ (by trivial) i).trans held.holds

/-- A connection that was accepted holds the slot it was given. -/
theorem held_connected (documented : p.Documented) (distinct : g.Distinct)
    (fresh : findSlot g conn = none)
    (accepted : findSlot (onConnected g conn false) conn = some i) :
    Held (onConnected g conn false) i conn :=
  ⟨call_distinct documented distinct (.connected conn false) fresh, find_slot_some accepted⟩

end MeshPbx
