import MeshPbx.Contents
import MeshPbx.WireFormat

/-! Where a PROXY_PORTNUM packet goes. The lookup stops at the first tracked
slot with the destination's identifier and the result of the enqueue is
dropped, so a slot that refuses the packet shadows every other receiver. -/
namespace MeshPbx
variable {n : Nat} {p : Platform} {w : Proxy n} {g g' : Gatt n} {i j : Fin n}
variable {data raw payload : Bytes} {id : ProxyId} {conn : BtConn}

/-- What offering a packet does to a slot. -/
def ProxyConn.deliver (data : Bytes) (pc : ProxyConn) : ProxyConn :=
  if ready : pc.Open then pc.append ready.2.2 data else pc

theorem deliver_open {pc : ProxyConn} (ready : pc.Open) (data : Bytes) :
    (pc.deliver data).queued = pc.queued ++ [data] := by
  rw [ProxyConn.deliver, dif_pos ready, ProxyConn.queued_append]

theorem deliver_closed {pc : ProxyConn} (closed : ¬ pc.Open) (data : Bytes) :
    pc.deliver data = pc :=
  dif_neg closed

theorem deliver_conn (data : Bytes) (pc : ProxyConn) : (pc.deliver data).conn = pc.conn := by
  unfold ProxyConn.deliver
  split_ifs <;> rfl

theorem Gatt.Distinct.of_holders (distinct : g.Distinct)
    (same : ∀ j, (g'.conns j).conn = (g.conns j).conn) : g'.Distinct := by
  intro i j conn left right
  rw [same] at left right
  exact distinct i j conn left right

/-- Enqueueing for a connection delivers to the slot that the lookup finds, and to
no other. -/
theorem enqueue_found_conns (found : findSlot g conn = some i)
    (short : data.length ≤ FROMRADIO_MAX_PKT_SIZE) :
    (bleGattEnqueueFromradio g conn data).1.conns =
      Function.update g.conns i ((g.conns i).deliver data) := by
  have notLong : ¬ data.length > FROMRADIO_MAX_PKT_SIZE := Nat.not_lt_of_le short
  have tracked : (g.conns i).conn ≠ none := by simp [find_slot_some found]
  simp only [bleGattEnqueueFromradio, if_neg notLong, found]
  by_cases ready : (g.conns i).Open
  · rw [enqueue_locked_open ready, ProxyConn.deliver, dif_pos ready]
    rfl
  · rw [deliver_closed ready, Function.update_eq_self]
    rcases (enqueue_locked_closed tracked ready conn data).1 with same | rung
    · rw [same]
    · rw [rung]
      rfl

theorem enqueue_conns (distinct : g.Distinct) (holds : (g.conns i).conn = some conn)
    (short : data.length ≤ FROMRADIO_MAX_PKT_SIZE) :
    (bleGattEnqueueFromradio g conn data).1.conns =
      Function.update g.conns i ((g.conns i).deliver data) :=
  enqueue_found_conns (find_slot_of_distinct distinct holds) short

theorem broadcast_one_conns (distinct : g.Distinct)
    (short : data.length ≤ FROMRADIO_MAX_PKT_SIZE) (sent : Nat) (i : Fin n) :
    (broadcastOne data (g, sent) i).1.conns =
      Function.update g.conns i ((g.conns i).deliver data) := by
  unfold broadcastOne
  split
  · rename_i vacant
    have closed : ¬ (g.conns i).Open := fun ready => ready.1 vacant
    rw [deliver_closed closed, Function.update_eq_self]
  · rename_i conn holds
    exact enqueue_conns distinct holds short

/-- A broadcast delivers to every slot once. -/
theorem broadcast_conns (distinct : g.Distinct) (short : data.length ≤ FROMRADIO_MAX_PKT_SIZE)
    (i : Fin n) :
    (bleGattBroadcastFromradio g data).1.conns i = (g.conns i).deliver data := by
  have fold : ∀ (slots : List (Fin n)) (acc : Gatt n × Nat), slots.Nodup → acc.1.Distinct →
      (slots.foldl (broadcastOne data) acc).1.conns i =
        if i ∈ slots then (acc.1.conns i).deliver data else acc.1.conns i := by
    intro slots
    induction slots with
    | nil => exact fun acc _ _ => by simp
    | cons first slots ih =>
      intro acc unique distinct
      obtain ⟨notLater, later⟩ := List.nodup_cons.mp unique
      have turn := broadcast_one_conns distinct short acc.2 first
      have holders : ∀ j, ((broadcastOne data acc first).1.conns j).conn =
          (acc.1.conns j).conn := by
        intro j
        rw [turn]
        by_cases here : j = first
        · subst here
          rw [Function.update_self, deliver_conn]
        · rw [Function.update_of_ne here]
      rw [List.foldl_cons, ih _ later (distinct.of_holders holders), turn]
      by_cases here : i = first
      · subst here
        simp [notLater]
      · simp [here]
  have all := fold (List.finRange n) (g, 0) (List.nodup_finRange n) distinct
  rwa [if_pos (List.mem_finRange i)] at all

/-! The lookup by proxy_id. -/

/-- The first tracked slot, in table order, that has registered the identifier. -/
def FirstRegistered (g : Gatt n) (id : ProxyId) (i : Fin n) : Prop :=
  (g.conns i).conn ≠ none ∧ (g.conns i).proxyId = id ∧
    ∀ j < i, ¬ ((g.conns j).conn ≠ none ∧ (g.conns j).proxyId = id)

theorem FirstRegistered.unique (first : FirstRegistered g id i) (other : FirstRegistered g id j) :
    i = j := by
  rcases lt_trichotomy i j with before | same | after
  · exact absurd ⟨first.1, first.2.1⟩ (other.2.2 i before)
  · exact same
  · exact absurd ⟨other.1, other.2.1⟩ (first.2.2 j after)

/-- What the scan sees at one slot. -/
theorem scan_slot (g : Gatt n) (id : ProxyId) (i : Fin n) (conn : BtConn) :
    ((g.conns i).conn.bind fun conn =>
      if proxyIdEqual (g.conns i).proxyId id then some conn else none) = some conn ↔
      (g.conns i).conn = some conn ∧ (g.conns i).proxyId = id := by
  cases (g.conns i).conn with
  | none => simp
  | some held => simp [proxyIdEqual, and_comm]

theorem get_conn_some (found : bleGattGetConnByProxyId g id = some conn) :
    proxyIdIsZero id = false ∧ ∃ i, FirstRegistered g id i ∧ (g.conns i).conn = some conn := by
  unfold bleGattGetConnByProxyId at found
  split_ifs at found with zero
  refine ⟨by simpa using zero, ?_⟩
  obtain ⟨before, i, after, table, hit, misses⟩ := List.findSome?_eq_some_iff.mp found
  obtain ⟨holds, registered⟩ := (scan_slot g id i conn).mp hit
  refine ⟨i, ⟨by simp [holds], registered, ?_⟩, holds⟩
  rintro j earlier ⟨tracked, same⟩
  have sorted := List.pairwise_lt_finRange n
  have member : j ∈ before ++ i :: after := by rw [← table]; exact List.mem_finRange j
  rw [table] at sorted
  rcases List.mem_append.mp member with first | rest
  · obtain ⟨other, held⟩ := Option.ne_none_iff_exists'.mp tracked
    have seen := (scan_slot g id j other).mpr ⟨held, same⟩
    rw [misses j first] at seen
    contradiction
  · rcases List.mem_cons.mp rest with rfl | later
    · exact absurd earlier (lt_irrefl _)
    · have ordered := (List.pairwise_cons.mp (List.pairwise_append.mp sorted).2.1).1 j later
      exact absurd earlier (lt_asymm ordered)

theorem get_conn_none (missing : bleGattGetConnByProxyId g id = none)
    (nonzero : proxyIdIsZero id = false) (i : Fin n) :
    ¬ ((g.conns i).conn ≠ none ∧ (g.conns i).proxyId = id) := by
  rintro ⟨tracked, same⟩
  obtain ⟨conn, held⟩ := Option.ne_none_iff_exists'.mp tracked
  unfold bleGattGetConnByProxyId at missing
  rw [if_neg (by simp [nonzero])] at missing
  have miss := List.findSome?_eq_none_iff.mp missing i (List.mem_finRange i)
  have seen := (scan_slot g id i conn).mpr ⟨held, same⟩
  rw [miss] at seen
  contradiction

/-! Delivery of one PROXY_PORTNUM packet. -/

def Appended (g g' : Gatt n) (raw : Bytes) (i : Fin n) : Prop :=
  (g'.conns i).queued = (g.conns i).queued ++ [raw]

/-- A connection with room that has registered the packet's nonzero DST_ID. -/
def Target (g : Gatt n) (payload : Bytes) (i : Fin n) : Prop :=
  (g.conns i).Open ∧ ∃ hdr, proxyHeaderParse payload = some hdr ∧
    proxyIdIsZero hdr.dst = false ∧ (g.conns i).proxyId = hdr.dst

/-- A packet with a target reaches one; any other packet reaches every
connection with room; some connection gets it if any has room. -/
structure NoSilentDrop (g g' : Gatt n) (payload raw : Bytes) : Prop where
  targeted : (∃ i, Target g payload i) → ∃ i, Target g payload i ∧ Appended g g' raw i
  fallback : (¬ ∃ i, Target g payload i) → ∀ i, (g.conns i).Open → Appended g g' raw i
  somewhere : (∃ i, (g.conns i).Open) → ∃ i, Appended g g' raw i

/-- Whenever the lookup selects a slot, the slot accepts the packet or nobody
could. -/
def Unshadowed (g : Gatt n) (payload : Bytes) : Prop :=
  ∀ hdr i, proxyHeaderParse payload = some hdr → proxyIdIsZero hdr.dst = false →
    FirstRegistered g hdr.dst i → (g.conns i).Open ∨ ∀ j, ¬ (g.conns j).Open

theorem broadcast_no_silent_drop (distinct : g.Distinct)
    (short : raw.length ≤ FROMRADIO_MAX_PKT_SIZE) (untargeted : ¬ ∃ i, Target g payload i) :
    NoSilentDrop g (bleGattBroadcastFromradio g raw).1 payload raw := by
  have delivered : ∀ i, (g.conns i).Open →
      Appended g (bleGattBroadcastFromradio g raw).1 raw i := by
    intro i ready
    rw [Appended, broadcast_conns distinct short, deliver_open ready]
  exact ⟨fun target => absurd target untargeted, fun _ => delivered,
    fun ⟨i, ready⟩ => ⟨i, delivered i ready⟩⟩

theorem selected_no_silent_drop_iff (distinct : g.Distinct)
    (short : raw.length ≤ FROMRADIO_MAX_PKT_SIZE) {hdr : ProxyHeader}
    (parsed : proxyHeaderParse payload = some hdr) (nonzero : proxyIdIsZero hdr.dst = false)
    (first : FirstRegistered g hdr.dst i) (holds : (g.conns i).conn = some conn) :
    NoSilentDrop g (bleGattEnqueueFromradio g conn raw).1 payload raw ↔
      (g.conns i).Open ∨ ∀ j, ¬ (g.conns j).Open := by
  have conns := enqueue_conns distinct holds short
  constructor
  · intro safe
    by_contra neither
    obtain ⟨closed, others⟩ := not_or.mp neither
    obtain ⟨j, ready⟩ := not_forall_not.mp others
    obtain ⟨k, appended⟩ := safe.somewhere ⟨j, ready⟩
    rw [Appended, conns, deliver_closed closed, Function.update_eq_self] at appended
    simp at appended
  · rintro (ready | nobody)
    · have target : Target g payload i := ⟨ready, hdr, parsed, nonzero, first.2.1⟩
      have appended : Appended g (bleGattEnqueueFromradio g conn raw).1 raw i := by
        rw [Appended, conns, Function.update_self, deliver_open ready]
      exact ⟨fun _ => ⟨i, target, appended⟩, fun untargeted => absurd ⟨i, target⟩ untargeted,
        fun _ => ⟨i, appended⟩⟩
    · exact ⟨fun ⟨j, target⟩ => absurd target.1 (nobody j),
        fun _ j ready => absurd ready (nobody j), fun ⟨j, ready⟩ => absurd ready (nobody j)⟩

theorem dispatch_proxy_iff (distinct : w.gatt.Distinct)
    (short : raw.length ≤ FROMRADIO_MAX_PKT_SIZE) {info : FromradioInfo}
    (plain : info.isDecoded = true) (port : info.portnum = PROXY_PORTNUM) :
    NoSilentDrop w.gatt (dispatchPacket w raw info).gatt info.payloadBytes raw ↔
      Unshadowed w.gatt info.payloadBytes := by
  simp only [dispatchPacket, plain, Bool.not_true, Bool.false_eq_true, if_false, if_pos port]
  cases parsed : proxyHeaderParse info.payloadBytes with
  | none =>
    have untargeted : ¬ ∃ i, Target w.gatt info.payloadBytes i := by
      rintro ⟨i, _, hdr, found, _⟩
      simp [parsed] at found
    refine iff_of_true (broadcast_no_silent_drop distinct short untargeted) ?_
    intro hdr i found
    simp [parsed] at found
  | some hdr =>
    simp only
    cases found : bleGattGetConnByProxyId w.gatt hdr.dst with
    | none =>
      have unregistered : ∀ nonzero : proxyIdIsZero hdr.dst = false, ∀ i,
          ¬ ((w.gatt.conns i).conn ≠ none ∧ (w.gatt.conns i).proxyId = hdr.dst) :=
        fun nonzero i => get_conn_none found nonzero i
      have untargeted : ¬ ∃ i, Target w.gatt info.payloadBytes i := by
        rintro ⟨i, ready, other, same, nonzero, registered⟩
        rw [parsed] at same
        cases same
        exact unregistered nonzero i ⟨ready.1, registered⟩
      refine iff_of_true (broadcast_no_silent_drop distinct short untargeted) ?_
      intro other i same nonzero first
      rw [parsed] at same
      cases same
      exact absurd ⟨first.1, first.2.1⟩ (unregistered nonzero i)
    | some conn =>
      obtain ⟨nonzero, i, first, holds⟩ := get_conn_some found
      refine (selected_no_silent_drop_iff distinct short parsed nonzero first holds).trans ?_
      constructor
      · intro accepts other j same _ selected
        rw [parsed] at same
        cases same
        rw [selected.unique first]
        exact accepts
      · exact fun unshadowed => unshadowed hdr i parsed nonzero first

/-- In every reachable table a decoded PROXY_PORTNUM packet is delivered as
promised exactly when the slot the lookup selects does not shadow a receiver. -/
theorem proxy_packet_delivered_iff (documented : p.Documented) (reached : Reachable p w)
    (frame : Frame) (rand : UInt32) {info : FromradioInfo}
    (decoded : protoDecodeFromradio p frame.bytes = some info)
    (packet : info.whichVariant = .packet) (plain : info.isDecoded = true)
    (port : info.portnum = PROXY_PORTNUM) :
    NoSilentDrop w.gatt (onFromradioUart p w frame.bytes rand).gatt info.payloadBytes
        frame.bytes ↔
      Unshadowed w.gatt info.payloadBytes := by
  have distinct := reached.distinct documented
  rw [packet_dispatched rand decoded packet]
  exact dispatch_proxy_iff (w := { w with session := upstreamLivenessKick w.session })
    distinct frame.le plain port

/-- FromRadio{packet} carrying PROXY_PORTNUM from 9.9.9.9 to 1.2.3.4. -/
def proxyFrame : Frame :=
  (.of 0x12 [16, 0x22, 14, 0x08, 0x80, 0x02, 0x12, 9, 1, 9, 9, 9, 9, 1, 2, 3, 4])

def proxyInfo : FromradioInfo :=
  { whichVariant := .packet
    isDecoded := true
    portnum := PROXY_PORTNUM
    payloadBytes := [1, 9, 9, 9, 9, 1, 2, 3, 4] }

/-- Two phones connected, the second registered as 1.2.3.4. -/
def registeredSchedule : List (Event 2) :=
  [.sessionStart 5, .connected 7 false, .connected 8 false, .nodeRegWrite 8 [1, 2, 3, 4] 0]

theorem registered_phone_reached :
    NoSilentDrop ((system 2 .wire).run (.boot 2) registeredSchedule).gatt
      (onFromradioUart .wire ((system 2 .wire).run (.boot 2) registeredSchedule)
        proxyFrame.bytes 0).gatt proxyInfo.payloadBytes proxyFrame.bytes := by
  have reached := reachable_run (p := .wire) registeredSchedule (by decide)
  have decoded : protoDecodeFromradio .wire proxyFrame.bytes = some proxyInfo := by decide
  refine (proxy_packet_delivered_iff wire_documented reached proxyFrame 0 decoded rfl rfl rfl).mpr ?_
  have open_slots : ∀ i, (((system 2 .wire).run (.boot 2) registeredSchedule).gatt.conns i).Open := by
    decide
  exact fun _ i _ _ _ => .inl (open_slots i)

/-- A phone that reconnects before its old slot is torn down: both slots carry
its identifier and the lookup selects the one that is leaving. -/
def reconnectSchedule : List (Event 2) :=
  [.sessionStart 5, .connected 7 false, .nodeRegWrite 7 [1, 2, 3, 4] 0,
    .toradioWrite 7 [0x20, 1] 0, .connected 8 false, .nodeRegWrite 8 [1, 2, 3, 4] 0]

theorem leaving_slot_swallows_packet :
    ∃ w : Proxy 2, Reachable .wire w ∧
      protoDecodeFromradio .wire proxyFrame.bytes = some proxyInfo ∧
      Target w.gatt proxyInfo.payloadBytes 1 ∧
      ¬ NoSilentDrop w.gatt (onFromradioUart .wire w proxyFrame.bytes 0).gatt
        proxyInfo.payloadBytes proxyFrame.bytes := by
  refine ⟨(system 2 .wire).run (.boot 2) reconnectSchedule, reachable_run _ (by decide),
    by decide, ⟨by decide, ⟨#v[9, 9, 9, 9], #v[1, 2, 3, 4], []⟩, by decide, by decide, by decide⟩,
    ?_⟩
  intro safe
  obtain ⟨i, appended⟩ := safe.somewhere ⟨1, by decide⟩
  have counts := congrArg List.length appended
  clear appended
  revert i
  decide

end MeshPbx
