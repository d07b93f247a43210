import MeshPbx.SlotTable
import MeshPbx.WireFormat

/-! What the previous occupant leaves in a slot. The reset skips the bytes of the queue,
of the staging buffer and of the completion frame; nothing a later occupant does reads
them, so its results are those of a phone on a server that never had another. -/
namespace MeshPbx
variable {n m : Nat} {p : Platform} {g : Gatt n} {h : Gatt m} {i : Fin n} {j : Fin m}
variable {pc pc' : ProxyConn} {conn : BtConn}

/-- What is done to one phone, or by it. A read names the cache it is served from. -/
inductive PhoneOp where
  | enqueue (data : Bytes)
  | read (cache : ConfigCache) (len offset : Nat)
  | fromnumRead (len offset : Nat)
  | nodeRegWrite (buf : Bytes) (offset : Nat)
  | replay (nonce : UInt32)

/-- What comes of it: a return code, the bytes read, or the number taken. -/
inductive PhoneResult where
  | code (rc : Rc)
  | value (bytes : Except AttError Bytes)
  | taken (count : Except AttError Nat)
  | armed

namespace PhoneOp

def run (p : Platform) (g : Gatt n) (conn : BtConn) : PhoneOp → Gatt n × PhoneResult
  | .enqueue data =>
    ((bleGattEnqueueFromradio g conn data).1, .code (bleGattEnqueueFromradio g conn data).2)
  | .read cache len offset =>
    ((MeshPbx.fromradioRead p cache g conn len offset).1,
      .value (MeshPbx.fromradioRead p cache g conn len offset).2)
  | .fromnumRead len offset => (g, .value (MeshPbx.fromnumRead p g conn len offset))
  | .nodeRegWrite buf offset =>
    ((MeshPbx.nodeRegWrite g conn buf offset).1, .taken (MeshPbx.nodeRegWrite g conn buf offset).2)
  | .replay nonce => (bleGattReplayCachedBurst p g conn nonce, .armed)

/-- The result, and the calls into the BLE stack that go with it. -/
def observe (p : Platform) (g : Gatt n) (conn : BtConn) (op : PhoneOp) :
    PhoneResult × List BtCall :=
  ((op.run p g conn).2, (op.run p g conn).1.btCalls.drop g.btCalls.length)

/-- The phone's slot afterwards. -/
def slot (p : Platform) (pc : ProxyConn) : PhoneOp → ProxyConn
  | .enqueue data => pc.offer data
  | .read cache _ offset => if offset = 0 then stageNext cache pc else pc
  | .fromnumRead _ _ => pc
  | .nodeRegWrite buf offset =>
    if offset ≠ 0 ∨ buf.length ≠ PROXY_ID_SIZE then pc else { pc with proxyId := .ofBytes buf 0 }
  | .replay nonce => pc.arm p (if nonce ≠ 0 then nonce else pc.nonce)

/-- The observation, as the slot alone determines it. -/
def shown (p : Platform) (conn : BtConn) (pc : ProxyConn) : PhoneOp → PhoneResult × List BtCall
  | .enqueue data =>
    (.code (if data.length > FROMRADIO_MAX_PKT_SIZE then some .emsgsize
      else if pc.leaving then some .eshutdown
      else if pc.queue.count ≥ FROMRADIO_QUEUE_DEPTH then some .enomem
      else none), pc.bells conn data)
  | .read cache len offset =>
    (.value ((if offset = 0 then stageNext cache pc else pc).answer p len offset), [])
  | .fromnumRead len offset => (.value (p.attrRead (le32 pc.fromnum) len offset), [])
  | .nodeRegWrite buf offset =>
    (.taken (if offset ≠ 0 ∨ buf.length ≠ PROXY_ID_SIZE then .error .invalidAttributeLen
      else .ok buf.length), [])
  | .replay _ => (.armed, [.notifyFromnum conn (pc.fromnum + 1)])

end PhoneOp

/-! An operation goes through the phone's slot only. -/

theorem op_conns (documented : p.Documented) (found : findSlot g conn = some i) (op : PhoneOp) :
    (op.run p g conn).1.conns = (g.setConn i (op.slot p (g.conns i))).conns := by
  cases op with
  | enqueue data =>
    simp only [PhoneOp.run, enqueue_conns_modify, Gatt.modify, found]
    rfl
  | read cache len offset =>
    simp only [PhoneOp.run, read_conns, Gatt.modify, found, PhoneOp.slot]
    split_ifs
    · rfl
    · rw [Gatt.setConn_eq]
  | fromnumRead len offset => simp [PhoneOp.run, PhoneOp.slot]
  | nodeRegWrite buf offset =>
    simp only [PhoneOp.run, nodeRegWrite, bleGattRegisterProxyId, found, PhoneOp.slot]
    split_ifs
    · rw [Gatt.setConn_eq]
    · rfl
  | replay nonce =>
    simp only [PhoneOp.run, replay_conns documented, Gatt.modify, found]
    rfl

theorem op_observe (documented : p.Documented) (found : findSlot g conn = some i) (op : PhoneOp) :
    op.observe p g conn = op.shown p conn (g.conns i) := by
  cases op with
  | enqueue data =>
    have bells := enqueue_bells found data
    have code : (bleGattEnqueueFromradio g conn data).2 =
        if data.length > FROMRADIO_MAX_PKT_SIZE then some .emsgsize
        else if (g.conns i).leaving then some .eshutdown
        else if (g.conns i).queue.count ≥ FROMRADIO_QUEUE_DEPTH then some .enomem
        else none := by
      simp only [bleGattEnqueueFromradio, found, enqueueLocked]
      split_ifs <;> rfl
    simp only [PhoneOp.observe, PhoneOp.run, PhoneOp.shown, bells, List.drop_left, code]
  | read cache len offset =>
    simp only [PhoneOp.observe, PhoneOp.run, PhoneOp.shown, read_answer found,
      (read_rest cache g conn len offset).2, List.drop_length]
  | fromnumRead len offset =>
    simp only [PhoneOp.observe, PhoneOp.run, PhoneOp.shown, fromnumRead, found, List.drop_length]
  | nodeRegWrite buf offset =>
    simp only [PhoneOp.observe, PhoneOp.run, PhoneOp.shown, nodeRegWrite, bleGattRegisterProxyId,
      found]
    split_ifs <;> simp [Gatt.setConn]
  | replay nonce =>
    simp only [PhoneOp.observe, PhoneOp.run, PhoneOp.shown, replay_tracked documented found,
      Gatt.call, Gatt.setConn, List.drop_left]

/-- Two slots whose phones cannot tell them apart. -/
structure Tenants (pc pc' : ProxyConn) : Prop where
  alike : Alike pc pc'
  conn : pc.conn = pc'.conn
  leaving : pc.leaving = pc'.leaving

theorem Tenants.open_iff (tenants : Tenants pc pc') : pc.Open ↔ pc'.Open := by
  simp only [ProxyConn.Open, tenants.conn, tenants.leaving, tenants.alike.count]

theorem op_slot_conn (op : PhoneOp) (pc : ProxyConn) : (op.slot p pc).conn = pc.conn := by
  cases op with
  | enqueue data => exact offer_conn data pc
  | read cache len offset =>
    simp only [PhoneOp.slot]
    split_ifs
    · exact stage_next_conn cache pc
    · rfl
  | fromnumRead len offset => rfl
  | nodeRegWrite buf offset =>
    simp only [PhoneOp.slot]
    split_ifs <;> rfl
  | replay nonce => rfl

theorem Tenants.slot (tenants : Tenants pc pc') (op : PhoneOp) :
    Tenants (op.slot p pc) (op.slot p pc') := by
  have ready := tenants.open_iff
  obtain ⟨alike, holder, leaving⟩ := tenants
  have conn : (op.slot p pc).conn = (op.slot p pc').conn := by
    rw [op_slot_conn, op_slot_conn, holder]
  cases op with
  | enqueue data =>
    refine ⟨alike.offer ready data, conn, ?_⟩
    exact ((offer_face data pc).leaving.trans leaving).trans (offer_face data pc').leaving.symm
  | read cache len offset =>
    simp only [PhoneOp.slot] at conn ⊢
    split_ifs at conn ⊢
    · refine ⟨alike.stage cache, conn, ?_⟩
      exact ((stage_face cache pc).leaving.trans leaving).trans (stage_face cache pc').leaving.symm
    · exact ⟨alike, holder, leaving⟩
  | fromnumRead len offset => exact ⟨alike, holder, leaving⟩
  | nodeRegWrite buf offset =>
    simp only [PhoneOp.slot]
    split_ifs
    · exact ⟨alike, holder, leaving⟩
    · have left := alike.relabel (.ofBytes buf 0) pc.leaving pc.teardownWork
      exact ⟨(left.symm.relabel (.ofBytes buf 0) pc'.leaving pc'.teardownWork).symm, holder, leaving⟩
  | replay nonce =>
    simp only [PhoneOp.slot, alike.nonce] at conn ⊢
    exact ⟨alike.arm _, conn, leaving⟩

theorem Tenants.shown (tenants : Tenants pc pc') (op : PhoneOp) :
    op.shown p conn pc = op.shown p conn pc' := by
  have ready := tenants.open_iff
  obtain ⟨alike, _, leaving⟩ := tenants
  cases op with
  | enqueue data =>
    have later := (alike.offer ready data).fromnum
    simp only [PhoneOp.shown, ProxyConn.bells, leaving, alike.count, later]
  | read cache len offset =>
    simp only [PhoneOp.shown]
    split_ifs
    · rw [(alike.stage cache).answer]
    · rw [alike.answer]
  | fromnumRead len offset => simp only [PhoneOp.shown, alike.fromnum]
  | nodeRegWrite buf offset => rfl
  | replay nonce => simp only [PhoneOp.shown, alike.fromnum]

/-! What others do in between. -/

/-- The call is not addressed to the connection. -/
def GattCall.Apart (conn : BtConn) : GattCall n → Prop
  | .enqueue target _ | .replay target _ | .park target _ | .register target _
  | .requestTeardown target | .connected target _ | .disconnected target => target ≠ conn
  | .read _ reader _ _ => reader ≠ conn
  | .encodeReply | .teardown _ => True

instance (conn : BtConn) : (call : GattCall n) → Decidable (call.Apart conn)
  | .enqueue _ _ | .replay _ _ | .park _ _ | .register _ _ | .requestTeardown _
  | .connected _ _ | .disconnected _ | .read _ _ _ _ => inferInstanceAs (Decidable (_ ≠ _))
  | .encodeReply | .teardown _ => isTrue trivial

theorem apart_found (documented : p.Documented) {call : GattCall n} (apart : call.Apart conn) :
    findSlot (call.run p g) conn = findSlot g conn := by
  have holds : ∀ j, ((call.run p g).conns j).conn = some conn ↔ (g.conns j).conn = some conn := by
    intro j
    cases call_table documented g call with
    | kept holders => rw [holders j]
    | opened i other connected vacant holder others =>
      subst connected
      have different : other ≠ conn := apart
      by_cases here : j = i
      · subst here
        simp [holder, vacant, different]
      · rw [others j here]
    | closed i other disconnected held holder others =>
      subst disconnected
      have different : other ≠ conn := apart
      by_cases here : j = i
      · subst here
        simp [holder, held, different]
      · rw [others j here]
  simp only [findSlot, holds]

theorem Tenants.expire (tenants : Tenants pc pc') (work : Delayable) :
    Tenants { pc with teardownWork := work } pc' :=
  ⟨tenants.alike.relabel pc.proxyId pc.leaving work, tenants.conn, tenants.leaving⟩

/-- Such a call leaves the phone's slot, but for a pending teardown that expires. -/
theorem apart_slot (documented : p.Documented) {call : GattCall n} (apart : call.Apart conn)
    (holds : (g.conns i).conn = some conn) (tenants : Tenants (g.conns i) pc') :
    Tenants ((call.run p g).conns i) pc' := by
  rcases call_change documented g call i with same | ⟨finds, changed⟩
  · rw [same]
    exact tenants
  · have other : ∀ {target}, target ≠ conn → ¬ (g.conns i).conn = some target := by
      rintro target different found
      rw [holds] at found
      exact different (Option.some.inj found).symm
    cases call with
    | enqueue => exact absurd finds (other apart)
    | encodeReply => exact finds.elim
    | replay => exact absurd finds (other apart)
    | park => exact absurd finds (other apart)
    | read => exact absurd finds (other apart)
    | register => exact absurd finds (other apart)
    | requestTeardown => exact absurd finds (other apart)
    | teardown slot =>
      rw [changed]
      exact tenants.expire none
    | connected =>
      have vacant := finds.2
      rw [holds] at vacant
      cases vacant
    | disconnected => exact absurd finds (other apart)

/-! The phone among the others. -/

/-- What happens next: something of the phone's, or a call of others. -/
inductive Turn (n : Nat) where
  | own (op : PhoneOp)
  | other (call : GattCall n)

/-- The turn on a server that has the phone to itself. -/
def Turn.alone : Turn n → Option (Turn 1)
  | .own op => some (.own op)
  | .other _ => none

/-- All the phone observes. -/
def results (p : Platform) (conn : BtConn) (g : Gatt n) :
    List (Turn n) → List (PhoneResult × List BtCall)
  | [] => []
  | .own op :: turns => op.observe p g conn :: results p conn (op.run p g conn).1 turns
  | .other call :: turns => results p conn (call.run p g) turns

theorem op_found (documented : p.Documented) (found : findSlot g conn = some i) (op : PhoneOp) :
    findSlot (op.run p g conn).1 conn = some i := by
  have holders : ∀ j, ((op.run p g conn).1.conns j).conn = (g.conns j).conn := by
    intro j
    rw [op_conns documented found]
    exact Gatt.holder_setConn (op_slot_conn op _) j
  simp only [findSlot, holders]
  exact found

/-- Phones in slots they cannot tell apart observe the same, whatever others do on
one of the two servers. -/
theorem results_alone (documented : p.Documented) (turns : List (Turn n)) {g : Gatt n} {h : Gatt 1}
    {j : Fin 1} (found : findSlot g conn = some i) (found' : findSlot h conn = some j)
    (tenants : Tenants (g.conns i) (h.conns j))
    (apart : ∀ call, Turn.other call ∈ turns → call.Apart conn) :
    results p conn g turns = results p conn h (turns.filterMap Turn.alone) := by
  induction turns generalizing g h with
  | nil => rfl
  | cons turn turns ih =>
    have later : ∀ call, Turn.other call ∈ turns → call.Apart conn :=
      fun call member => apart call (List.mem_cons_of_mem _ member)
    cases turn with
    | own op =>
      have next : Tenants ((op.run p g conn).1.conns i) ((op.run p h conn).1.conns j) := by
        rw [op_conns documented found, op_conns documented found', Gatt.conns_setConn_same,
          Gatt.conns_setConn_same]
        exact tenants.slot op
      have rest := ih (op_found documented found op) (op_found documented found' op) next later
      have same : op.observe p g conn = op.observe p h conn := by
        rw [op_observe documented found, op_observe documented found', tenants.shown]
      simp only [results, Turn.alone, List.filterMap_cons, same, rest]
    | other call =>
      have other := apart call List.mem_cons_self
      have still : findSlot (call.run p g) conn = some i := by
        rw [apart_found documented other, found]
      have next := apart_slot documented other (find_slot_some found) tenants
      simpa only [results, Turn.alone, List.filterMap_cons] using ih still found' next later

/-- A connection that is given a slot, whatever was in it, and one on a server never
used before. -/
theorem connected_tenants {h : Gatt m} (untracked : findSlot g conn = none)
    (accepted : findSlot (onConnected g conn false) conn = some i)
    (untracked' : findSlot h conn = none)
    (accepted' : findSlot (onConnected h conn false) conn = some j) :
    Tenants ((onConnected g conn false).conns i) ((onConnected h conn false).conns j) := by
  rw [connected_reset untracked accepted, connected_reset untracked' accepted']
  exact ⟨alike_reset _ _ _, rfl, rfl⟩

theorem alone_found (conn : BtConn) :
    findSlot (onConnected (.zero 1) conn false) conn = some 0 := by
  simp [findSlot, onConnected, allocSlot, Gatt.zero, ProxyConn.zero, Gatt.setConn, List.finRange]

/-- Slot table consistency and clean recycling, in every run of the GATT server. The
counter is that of the taken slots modulo 256, hence exact for a table of at most 255
slots; a full table turns a connection away untouched; and a phone that is given a
slot, with others calling in between, observes what it would on a server with one
slot that was never used. -/
theorem slot_table_consistent (documented : p.Documented) (made : List (GattCall n))
    (runs : (gattSystem n p).Runs (.zero n) made) :
    let g := (gattSystem n p).run (.zero n) made
    g.Distinct ∧ g.activeConnCount = g.occupied % 2 ^ 8 ∧
      (n ≤ 255 → g.activeConnCount = g.occupied ∧ ∀ conn, g.Tracks conn →
        (onDisconnected g conn).activeConnCount + 1 = g.activeConnCount) ∧
      (g.Full → ∀ conn err, (onConnected g conn err).conns = g.conns ∧
        (onConnected g conn err).activeConnCount = g.activeConnCount) ∧
      ∀ conn, findSlot g conn = none → ¬ g.Full → ∀ turns : List (Turn n),
        (∀ call, Turn.other call ∈ turns → call.Apart conn) →
        results p conn (onConnected g conn false) turns =
          results p conn (onConnected (.zero 1) conn false) (turns.filterMap Turn.alone) := by
  intro g
  have reached : (gattSystem n p).Reachable (.zero n) g := ⟨made, runs, rfl⟩
  have counted := gatt_counted documented reached
  refine ⟨gatt_distinct documented reached, counted, ?_, ?_, ?_⟩
  · exact fun small => ⟨counted.exact small, fun conn tracked => disconnected_count counted small tracked⟩
  · intro full conn err
    cases err with
    | true => exact ⟨rfl, rfl⟩
    | false =>
      rw [connected_full full]
      exact ⟨rfl, rfl⟩
  · intro conn untracked vacancy turns apart
    obtain ⟨i, _, holder, _⟩ := connected_opened vacancy conn
    cases accepted : findSlot (onConnected g conn false) conn with
    | none => exact absurd ⟨i, holder⟩ (find_slot_none.mp accepted)
    | some i =>
      have tenants := connected_tenants untracked accepted (h := Gatt.zero 1) rfl (alone_found conn)
      exact results_alone documented turns accepted (alone_found conn) tenants apart

/-- The first phone queues a packet, arms a replay, reads its terminator and leaves. -/
def firstTenant : List (GattCall 1) :=
  [.connected 7 false, .enqueue 7 [1, 2], .replay 7 5, .read .zero 7 512 0, .disconnected 7]

/-- The second one looks for what is left of it, and arms a replay of its own. -/
def secondTenant : List (Turn 1) :=
  [.own (.fromnumRead 4 0), .own (.read .zero 512 1), .own (.read .zero 512 0),
    .other (.teardown 0), .own (.replay 9), .own (.read .zero 512 0)]

theorem second_tenant_fresh :
    let g := (gattSystem 1 .wire).run (.zero 1) firstTenant
    g.activeConnCount = g.occupied ∧
      results .wire 8 (onConnected g 8 false) secondTenant =
        results .wire 8 (onConnected (.zero 1) 8 false) (secondTenant.filterMap Turn.alone) := by
  obtain ⟨_, _, exact, _, fresh⟩ := slot_table_consistent wire_documented firstTenant (by decide)
  refine ⟨(exact (by decide)).1, fresh 8 (by decide) (fun full => full 0 (by decide)) secondTenant ?_⟩
  intro call member
  simp only [secondTenant, List.mem_cons, Turn.other.injEq, reduceCtorEq, List.not_mem_nil,
    or_false, false_or] at member
  rw [member]
  trivial

/-- In a table of 256 slots the counter of a full table reads zero. -/
theorem full_table_counts_zero :
    ∃ made : List (GattCall 256), (gattSystem 256 .wire).Runs (.zero 256) made ∧
      ((gattSystem 256 .wire).run (.zero 256) made).occupied = 256 ∧
      ((gattSystem 256 .wire).run (.zero 256) made).activeConnCount = 0 := by
  obtain ⟨runs, occupied, _⟩ := arrivals_fill .wire (n := 256) (k := 256) (Nat.le_refl 256)
  have counted := gatt_counted wire_documented ⟨arrivals 256 256, runs, rfl⟩
  rw [Gatt.Counted, occupied] at counted
  exact ⟨arrivals 256 256, runs, occupied, counted⟩

end MeshPbx
