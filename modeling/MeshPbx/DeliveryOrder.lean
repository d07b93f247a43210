import MeshPbx.GattCalls
import MeshPbx.WireFormat

/-! Live packets of one connection, from on_connected to on_disconnected. The
ring of its slot is a FIFO between the enqueues that returned 0 and the fresh
reads outside a replay, whatever else happens to the slot meanwhile. -/
namespace MeshPbx
variable {n : Nat} {p : Platform} {g : Gatt n} {i : Fin n} {conn : BtConn} {data : Bytes}

/-- What has passed over a connection: the packets whose enqueue returned 0, the
packets its fresh reads returned, and the number of replays armed. -/
structure Ledger where
  accepted : List Bytes
  delivered : List Bytes
  armed : Nat
  deriving DecidableEq, Repr

def Ledger.zero : Ledger := ⟨[], [], 0⟩

/-- The packet a fresh read opens: its answer into a buffer of the maximal size. -/
def freshPacket (p : Platform) (cache : ConfigCache) (g : Gatt n) (conn : BtConn) : Bytes :=
  match (fromradioRead p cache g conn FROMRADIO_MAX_PKT_SIZE 0).2 with
  | .ok packet => packet
  | .error _ => []

def Replaying (g : Gatt n) (conn : BtConn) : Prop :=
  ∃ i ∈ findSlot g conn, (g.conns i).state = .replaying

instance (g : Gatt n) (conn : BtConn) : Decidable (Replaying g conn) :=
  inferInstanceAs (Decidable (∃ i ∈ findSlot g conn, _))

/-- An empty answer delivers nothing, and neither does a read of a replay. -/
def Ledger.after (p : Platform) (g : Gatt n) (conn : BtConn) (l : Ledger) : GattCall n → Ledger
  | .enqueue target data =>
    if target = conn ∧ (bleGattEnqueueFromradio g conn data).2 = none then
      { l with accepted := l.accepted ++ [data] }
    else l
  | .replay target _ => if target = conn then { l with armed := l.armed + 1 } else l
  | .read cache reader _ offset =>
    if reader = conn ∧ offset = 0 ∧ ¬ Replaying g conn ∧ freshPacket p cache g conn ≠ [] then
      { l with delivered := l.delivered ++ [freshPacket p cache g conn] }
    else l
  | _ => l

/-- A call while the connection lasts, with packets of at least one byte. -/
def Carried (conn : BtConn) : GattCall n → Prop
  | .enqueue _ data => 0 < data.length
  | call => call.Spares conn

instance (conn : BtConn) : (call : GattCall n) → Decidable (Carried conn call)
  | .enqueue _ _ => inferInstanceAs (Decidable (_ < _))
  | .disconnected _ => inferInstanceAs (Decidable (_ ≠ _))
  | .connected _ _ | .encodeReply | .replay _ _ | .park _ _ | .read _ _ _ _ | .register _ _
  | .requestTeardown _ | .teardown _ => isTrue trivial

/-- The GATT server with the ledger of one connection beside it. -/
def traffic (n : Nat) (p : Platform) (conn : BtConn) : Machine (Gatt n × Ledger) (GattCall n) where
  enabled s call := call.enabled s.1 ∧ Carried conn call
  next s call := (call.run p s.1, s.2.after p s.1 conn call)

instance (s : Gatt n × Ledger) (call : GattCall n) :
    Decidable ((traffic n p conn).enabled s call) :=
  inferInstanceAs (Decidable (_ ∧ _))

/-- The ring holds exactly the packets accepted but not yet delivered, in order,
and the counter is their total with the replays. -/
structure Delivery (i : Fin n) (conn : BtConn) (s : Gatt n × Ledger) : Prop where
  tracked : findSlot s.1 conn = some i
  fifo : s.2.accepted = s.2.delivered ++ (s.1.conns i).queued
  counter : (s.1.conns i).fromnum = UInt32.ofNat (s.2.accepted.length + s.2.armed)
  bounded : (s.1.conns i).queue.count ≤ FROMRADIO_QUEUE_DEPTH
  wrapped : (s.1.conns i).queue.tail =
    ((s.1.conns i).queue.head + (s.1.conns i).queue.count) % FROMRADIO_QUEUE_DEPTH

/-- A refused enqueue changes no slot, and a fresh read outside a replay answers
with the packet it opens, as far as the buffer reaches. -/
structure Answered (p : Platform) (conn : BtConn) (s : Gatt n × Ledger) (call : GattCall n) :
    Prop where
  refused : ∀ data, call = .enqueue conn data → (bleGattEnqueueFromradio s.1 conn data).2 ≠ none →
    (call.run p s.1).conns = s.1.conns
  fresh : ∀ cache len, call = .read cache conn len 0 → ¬ Replaying s.1 conn →
    (fromradioRead p cache s.1 conn len 0).2 = .ok ((freshPacket p cache s.1 conn).take len)

/-! The slot's books. -/

structure Books (pc : ProxyConn) (l : Ledger) : Prop where
  fifo : l.accepted = l.delivered ++ pc.queued
  counter : pc.fromnum = UInt32.ofNat (l.accepted.length + l.armed)
  nonempty : ∀ data ∈ pc.queued, 0 < data.length
  short : ∀ data ∈ pc.queued, data.length ≤ FROMRADIO_MAX_PKT_SIZE

theorem ofNat_succ (k : Nat) : UInt32.ofNat (k + 1) = UInt32.ofNat k + 1 := by
  simp [UInt32.ofNat_add]

/-- An enqueue is accepted exactly where the packet is delivered to the slot. -/
theorem enqueue_accepted (held : Held g i conn) (data : Bytes) :
    (bleGattEnqueueFromradio g conn data).2 = none ↔
      data.length ≤ FROMRADIO_MAX_PKT_SIZE ∧ (g.conns i).Open := by
  have tracked : (g.conns i).conn ≠ none := by simp [held.holds]
  simp only [bleGattEnqueueFromradio, held.found]
  split_ifs with long
  · simp only [false_iff]
    exact fun short => absurd short.1 (Nat.not_le_of_lt long)
  · constructor
    · intro sent
      refine ⟨Nat.le_of_not_lt long, ?_⟩
      by_contra closed
      exact (enqueue_locked_closed tracked closed conn data).2 sent
    · rintro ⟨_, ready⟩
      rw [enqueue_locked_open ready]

theorem offer_refused (held : Held g i conn)
    (refused : (bleGattEnqueueFromradio g conn data).2 ≠ none) :
    (g.conns i).offer data = g.conns i := by
  unfold ProxyConn.offer
  split_ifs with short
  · exact deliver_closed
      (fun ready => refused ((enqueue_accepted held data).mpr ⟨short, ready⟩)) data
  · rfl

theorem enqueue_refused (held : Held g i conn)
    (refused : (bleGattEnqueueFromradio g conn data).2 ≠ none) :
    (bleGattEnqueueFromradio g conn data).1.conns = g.conns := by
  by_cases short : data.length ≤ FROMRADIO_MAX_PKT_SIZE
  · have closed : ¬ (g.conns i).Open :=
      fun ready => refused ((enqueue_accepted held data).mpr ⟨short, ready⟩)
    rw [enqueue_conns held.distinct held.holds short, deliver_closed closed,
      Function.update_eq_self]
  · simp only [bleGattEnqueueFromradio, if_pos (Nat.lt_of_not_le short)]

theorem replaying_iff (held : Held g i conn) :
    Replaying g conn ↔ (g.conns i).state = .replaying := by
  simp [Replaying, held.found]

theorem fresh_answer (documented : p.Documented) (held : Held g i conn) (cache : ConfigCache)
    (len : Nat) : (fromradioRead p cache g conn len 0).2 =
      .ok ((stageNext cache (g.conns i)).stagedBytes.take len) := by
  simp only [fromradioRead, held.found, if_true]
  split_ifs with staged
  · rw [documented.attrRead_inside _ _ _ (Nat.zero_le _), List.drop_zero]
    rfl
  · have length : (stageNext cache (g.conns i)).stagedLen = 0 := by omega
    rw [ProxyConn.stagedBytes, length, ByteBuffer.read_zero, List.take_nil]

theorem fresh_packet (documented : p.Documented) (held : Held g i conn) (cache : ConfigCache) :
    freshPacket p cache g conn =
      (stageNext cache (g.conns i)).stagedBytes.take FROMRADIO_MAX_PKT_SIZE := by
  simp only [freshPacket, fresh_answer documented held]

theorem Books.append {pc : ProxyConn} {l : Ledger} (books : Books pc l) (ready : pc.Open)
    (filled : 0 < data.length) (short : data.length ≤ FROMRADIO_MAX_PKT_SIZE) :
    Books (pc.append ready.2.2 data) { l with accepted := l.accepted ++ [data] } := by
  refine ⟨?_, ?_, ?_, ?_⟩
  · rw [ProxyConn.queued_append, ← List.append_assoc, ← books.fifo]
  · have sum : (l.accepted ++ [data]).length + l.armed = l.accepted.length + l.armed + 1 := by
      simp only [List.length_append, List.length_cons, List.length_nil]
      omega
    rw [sum, ofNat_succ, ← books.counter]
    rfl
  · intro other member
    rw [ProxyConn.queued_append, List.mem_append, List.mem_singleton] at member
    rcases member with older | rfl
    · exact books.nonempty other older
    · exact filled
  · intro other member
    rw [ProxyConn.queued_append, List.mem_append, List.mem_singleton] at member
    rcases member with older | rfl
    · exact books.short other older
    · exact short

/-- The read of a replay leaves the queue alone. -/
theorem stage_replaying (cache : ConfigCache) {pc : ProxyConn} (replaying : pc.state = .replaying) :
    (stageNext cache pc).queued = pc.queued ∧ (stageNext cache pc).fromnum = pc.fromnum := by
  cases source : stageSource cache pc with
  | cached k =>
    rw [(stage_cached source).2]
    exact ⟨rfl, rfl⟩
  | complete =>
    rw [(stage_complete source).2]
    exact ⟨rfl, rfl⟩
  | queued => exact absurd replaying (stage_queued source).1
  | nothing =>
    rcases stage_nothing source with ⟨_, _, staged⟩ | ⟨other, _, _⟩
    · rw [staged]
      exact ⟨rfl, rfl⟩
    · exact absurd replaying other

/-- A live read of an empty queue stages nothing; otherwise it stages the oldest
packet and takes it off the queue. -/
theorem stage_live (cache : ConfigCache) {pc : ProxyConn} (live : pc.state ≠ .replaying) :
    (stageNext cache pc).fromnum = pc.fromnum ∧
      ((pc.queued = [] ∧ (stageNext cache pc).queued = [] ∧ (stageNext cache pc).stagedBytes = []) ∨
        pc.queued = (stageNext cache pc).stagedBytes :: (stageNext cache pc).queued) := by
  cases source : stageSource cache pc with
  | cached k => exact absurd (stage_cached source).1.1 live
  | complete => exact absurd (stage_complete source).1.1 live
  | queued =>
    obtain ⟨_, filled, staged⟩ := stage_queued source
    rw [staged]
    refine ⟨rfl, .inr ?_⟩
    simp only [ProxyConn.queued, ProxyConn.stagedBytes, staged_write,
      RingQueue.contents_pop pc.queue filled, List.map_cons]
  | nothing =>
    rcases stage_nothing source with ⟨replaying, _, _⟩ | ⟨_, empty, staged⟩
    · exact absurd replaying live
    · have contents := (RingQueue.contents_eq_nil_iff pc.queue).mpr empty
      have none : pc.queued = [] := by rw [ProxyConn.queued, contents, List.map_nil]
      rw [staged]
      exact ⟨rfl, .inl ⟨none, none, by simp [ProxyConn.stagedBytes]⟩⟩

/-- A change that leaves the queue and the counter alone keeps the books. -/
theorem Books.kept {pc pc' : ProxyConn} {l : Ledger} (books : Books pc l)
    (queued : pc'.queued = pc.queued) (fromnum : pc'.fromnum = pc.fromnum) : Books pc' l := by
  refine ⟨?_, ?_, ?_, ?_⟩
  · rw [queued]
    exact books.fifo
  · rw [fromnum]
    exact books.counter
  · rw [queued]
    exact books.nonempty
  · rw [queued]
    exact books.short

theorem Books.arm {pc : ProxyConn} {l : Ledger} (books : Books pc l) (nonce : UInt32) :
    Books (pc.arm p nonce) { l with armed := l.armed + 1 } := by
  refine ⟨books.fifo, ?_, books.nonempty, books.short⟩
  rw [← Nat.add_assoc, ofNat_succ, ← books.counter]
  rfl

theorem Books.popped {pc pc' : ProxyConn} {l : Ledger} {packet : Bytes} (books : Books pc l)
    (oldest : pc.queued = packet :: pc'.queued) (fromnum : pc'.fromnum = pc.fromnum) :
    Books pc' { l with delivered := l.delivered ++ [packet] } := by
  refine ⟨?_, ?_, ?_, ?_⟩
  · rw [List.append_assoc, List.singleton_append, ← oldest]
    exact books.fifo
  · rw [fromnum]
    exact books.counter
  · exact fun other member => books.nonempty other (oldest ▸ List.mem_cons_of_mem _ member)
  · exact fun other member => books.short other (oldest ▸ List.mem_cons_of_mem _ member)

theorem Carried.spares {call : GattCall n} (carried : Carried conn call) : call.Spares conn := by
  cases call with
  | enqueue => trivial
  | _ => exact carried

theorem traffic_runs {g : Gatt n} {made : List (GattCall n)} (runs : (gattSystem n p).Runs g made)
    (carried : ∀ call ∈ made, Carried conn call) (l : Ledger) :
    (traffic n p conn).Runs (g, l) made ∧
      ((traffic n p conn).run (g, l) made).1 = (gattSystem n p).run g made := by
  induction made generalizing g l with
  | nil => exact ⟨trivial, rfl⟩
  | cons call made ih =>
    have rest := ih runs.2 (fun later member => carried later (List.mem_cons_of_mem _ member))
      (l.after p g conn call)
    exact ⟨⟨⟨runs.1, carried call List.mem_cons_self⟩, rest.1⟩, rest.2⟩

/-- The slot a connection has just been given starts empty. -/
theorem books_connected (fresh : findSlot g conn = none)
    (accepted : findSlot (onConnected g conn false) conn = some i) :
    Books ((onConnected g conn false).conns i) .zero := by
  rw [connected_reset fresh accepted]
  refine ⟨rfl, rfl, ?_, ?_⟩
  · rw [ProxyConn.queued_reset]
    exact fun _ member => absurd member (by simp)
  · rw [ProxyConn.queued_reset]
    exact fun _ member => absurd member (by simp)

section
variable (documented : p.Documented)
include documented

theorem Books.read {l : Ledger} (held : Held g i conn) (books : Books (g.conns i) l)
    (cache : ConfigCache) (len offset : Nat) :
    Books ((g.conns i).after p i conn (.read cache conn len offset))
      (l.after p g conn (.read cache conn len offset)) := by
  simp only [ProxyConn.after, Ledger.after, true_and]
  by_cases fresh : offset = 0
  · simp only [fresh, if_true, true_and]
    by_cases replaying : (g.conns i).state = .replaying
    · have skipped : ¬ (¬ Replaying g conn ∧ freshPacket p cache g conn ≠ []) :=
        fun live => live.1 ((replaying_iff held).mpr replaying)
      rw [if_neg skipped]
      obtain ⟨queued, fromnum⟩ := stage_replaying cache replaying
      exact books.kept queued fromnum
    · have live : ¬ Replaying g conn := fun other => replaying ((replaying_iff held).mp other)
      obtain ⟨fromnum, ⟨before, after, staged⟩ | oldest⟩ := stage_live cache replaying
      · have empty : freshPacket p cache g conn = [] := by
          rw [fresh_packet documented held, staged, List.take_nil]
        rw [if_neg (fun taken => taken.2 empty)]
        exact books.kept (after.trans before.symm) fromnum
      · have member : (stageNext cache (g.conns i)).stagedBytes ∈ (g.conns i).queued := by
          rw [oldest]
          exact List.mem_cons_self
        have packet : freshPacket p cache g conn = (stageNext cache (g.conns i)).stagedBytes := by
          rw [fresh_packet documented held]
          exact List.take_of_length_le (books.short _ member)
        have filled : freshPacket p cache g conn ≠ [] := by
          rw [packet]
          exact List.ne_nil_of_length_pos (books.nonempty _ member)
        rw [if_pos ⟨live, filled⟩, packet]
        exact books.popped oldest fromnum
  · simp only [fresh, false_and, if_false]
    exact books

theorem Books.call {l : Ledger} (held : Held g i conn) (books : Books (g.conns i) l)
    (call : GattCall n) (carried : Carried conn call) :
    Books ((g.conns i).after p i conn call) (l.after p g conn call) := by
  cases call with
  | enqueue target data =>
    simp only [ProxyConn.after, Ledger.after]
    by_cases mine : target = conn
    · by_cases taken : data.length ≤ FROMRADIO_MAX_PKT_SIZE ∧ (g.conns i).Open
      · have sent := (enqueue_accepted held data).mpr taken
        simp only [mine, sent, if_true, and_self, ProxyConn.offer, if_pos taken.1,
          ProxyConn.deliver, dif_pos taken.2]
        exact books.append taken.2 carried taken.1
      · have refused : ¬ (bleGattEnqueueFromradio g conn data).2 = none :=
          fun sent => taken ((enqueue_accepted held data).mp sent)
        simp only [mine, refused, and_false, if_true, if_false, offer_refused held refused]
        exact books
    · simp only [mine, false_and, if_false]
      exact books
  | replay target nonce =>
    simp only [ProxyConn.after, Ledger.after]
    by_cases mine : target = conn
    · rw [if_pos mine, if_pos mine]
      exact books.arm _
    · rw [if_neg mine, if_neg mine]
      exact books
  | read cache reader len offset =>
    by_cases mine : reader = conn
    · subst mine
      exact books.read documented held cache len offset
    · simp only [ProxyConn.after, Ledger.after, mine, false_and, if_false]
      exact books
  | disconnected left =>
    simp only [ProxyConn.after, Ledger.after, if_neg carried]
    exact books
  | park target nonce =>
    simp only [ProxyConn.after, Ledger.after]
    split_ifs <;> exact books.kept rfl rfl
  | register target id =>
    simp only [ProxyConn.after, Ledger.after]
    split_ifs <;> exact books.kept rfl rfl
  | requestTeardown target =>
    simp only [ProxyConn.after, Ledger.after]
    split_ifs <;> exact books.kept rfl rfl
  | teardown slot =>
    simp only [ProxyConn.after, Ledger.after]
    split_ifs <;> exact books.kept rfl rfl
  | encodeReply => exact books
  | connected fresh err => exact books

theorem traffic_step (s : Gatt n × Ledger) (call : GattCall n)
    (kept : Held s.1 i conn ∧ Books (s.1.conns i) s.2) (enabled : (traffic n p conn).enabled s call) :
    Held ((traffic n p conn).next s call).1 i conn ∧
      Books (((traffic n p conn).next s call).1.conns i) ((traffic n p conn).next s call).2 := by
  obtain ⟨held, books⟩ := kept
  refine ⟨held.call documented call enabled.1 enabled.2.spares, ?_⟩
  have slot := call_slot documented held.distinct held.holds call
  simp only [traffic, slot]
  exact books.call documented held call enabled.2

theorem answered_step (s : Gatt n × Ledger) (call : GattCall n) (held : Held s.1 i conn)
    (books : Books (s.1.conns i) s.2) : Answered p conn s call := by
  constructor
  · rintro data rfl refused
    exact enqueue_refused held refused
  · rintro cache len rfl live
    have idle : (s.1.conns i).state ≠ .replaying := fun other => live ((replaying_iff held).mpr other)
    rw [fresh_answer documented held, fresh_packet documented held]
    obtain ⟨_, ⟨_, _, staged⟩ | oldest⟩ := stage_live cache idle
    · simp only [staged, List.take_nil]
    · have member : (stageNext cache (s.1.conns i)).stagedBytes ∈ (s.1.conns i).queued := by
        rw [oldest]
        exact List.mem_cons_self
      rw [List.take_of_length_le (books.short _ member)]

/-- Every run of one connection, from the on_connected that gives it a slot to
just before its on_disconnected: the ring stays well formed, the accepted
packets are the delivered ones followed by the queued ones, and fromnum counts
accepted packets and replays. -/
theorem delivery_fifo (reached : (gattSystem n p).Reachable (.zero n) g)
    (fresh : findSlot g conn = none)
    (accepted : findSlot (onConnected g conn false) conn = some i) (calls : List (GattCall n))
    (runs : (traffic n p conn).Runs (onConnected g conn false, .zero) calls) :
    Delivery i conn ((traffic n p conn).run (onConnected g conn false, .zero) calls) ∧
      (traffic n p conn).Along (Answered p conn) (onConnected g conn false, .zero) calls := by
  have held := held_connected documented (gatt_distinct documented reached) fresh accepted
  have initial := And.intro held (books_connected fresh accepted)
  constructor
  · obtain ⟨held, books⟩ := Machine.invariant (traffic_step documented) calls initial runs
    exact ⟨held.found, books.fifo, books.counter, RingQueue.count_le _, RingQueue.tail_eq _⟩
  · exact Machine.along_of_invariant (traffic_step documented)
      (fun s call kept _ => answered_step documented s call kept.1 kept.2) calls initial runs

/-! The connections of the proxy. -/

/-- The proxy never offers an empty packet, and only a disconnect event ends a
connection. -/
theorem calls_carried (w : Proxy n) {e : Event n} (lasting : e ≠ .disconnected conn) :
    ∀ call ∈ calls p w e, Carried conn call := by
  cases e with
  | fromradio frame rand =>
    intro call member
    cases frame_call member with
    | queued => exact frame.pos
    | served _ parked =>
      obtain ⟨_, _, rfl⟩ := serve_call parked
      trivial
  | toradioWrite sender buf offset =>
    simp only [calls]
    split_ifs
    · exact List.forall_mem_nil _
    · intro call member
      cases toradio_call member with
      | first =>
        rw [encode_queue_status documented]
        exact documented.queueStatus_pos
      | again kept => exact Nat.pos_of_ne_zero kept
      | _ => trivial
  | disconnected left =>
    have other : left ≠ conn := fun same => lasting (by rw [same])
    simp [calls, Carried, GattCall.Spares, other]
  | nodeRegWrite sender buf offset =>
    simp only [calls]
    split_ifs <;> simp [Carried, GattCall.Spares]
  | _ => simp [calls, Carried, GattCall.Spares]

theorem schedule_carried (es : List (Event n)) (lasting : .disconnected conn ∉ es) (w : Proxy n) :
    ∀ call ∈ schedule p w es, Carried conn call := by
  induction es generalizing w with
  | nil => exact fun call member => absurd member List.not_mem_nil
  | cons e es ih =>
    obtain ⟨first, later⟩ := not_or.mp (fun ends => lasting (List.mem_cons.mpr ends))
    intro call member
    rcases List.mem_append.mp member with now | rest
    · exact calls_carried documented w (Ne.symm first) call now
    · exact ih later (w.apply p e) call rest

/-- The same over the runs of the whole proxy, with the ledger of the calls its
handlers make. -/
theorem proxy_delivery {w : Proxy n} (reached : Reachable p w) (fresh : findSlot w.gatt conn = none)
    (accepted : findSlot (onConnected w.gatt conn false) conn = some i) (es : List (Event n))
    (runs : (system n p).Runs (w.apply p (.connected conn false)) es)
    (lasting : .disconnected conn ∉ es) :
    Delivery i conn (((system n p).run (w.apply p (.connected conn false)) es).gatt,
      ((traffic n p conn).run (onConnected w.gatt conn false, .zero)
        (schedule p (w.apply p (.connected conn false)) es)).2) := by
  obtain ⟨made, final⟩ := schedule_run es runs
  obtain ⟨traced, same⟩ := traffic_runs made (schedule_carried documented es lasting _) .zero
  have held := (delivery_fifo documented (reachable_gatt reached) fresh accepted _ traced).1
  rw [final, ← same]
  exact held

end

/-- Two packets around a replay, a long read of the first, and a packet after
the phone has asked to leave. -/
def interleavedCalls : List (GattCall 1) :=
  [.enqueue 7 [1, 2], .replay 7 9, .read .zero 7 64 0, .enqueue 7 [3], .read .zero 7 64 0,
    .read .zero 7 1 0, .read .zero 7 1 1, .requestTeardown 7, .enqueue 7 [4]]

theorem interleaved_delivery :
    Delivery 0 7 ((traffic 1 .wire 7).run (onConnected (.zero 1) 7 false, .zero) interleavedCalls) ∧
      (traffic 1 .wire 7).Along (Answered .wire 7) (onConnected (.zero 1) 7 false, .zero)
        interleavedCalls ∧
      ((traffic 1 .wire 7).run (onConnected (.zero 1) 7 false, .zero) interleavedCalls).2 =
        ⟨[[1, 2], [3]], [[1, 2]], 1⟩ :=
  have held := delivery_fifo wire_documented .refl (by decide) (by decide) interleavedCalls
    (by decide)
  ⟨held.1, held.2, by decide⟩

end MeshPbx
