import MeshPbx.Switchboard
import MeshPbx.Contents
import MeshPbx.WireFormat

/-! What a phone gets from the node, over a whole connection. Broadcasts, unicasts,
heartbeat replies, refused packets and replays interleave in any way; the packets that a
phone reads outside a replay are still what came for it, in order and once each. -/
namespace MeshPbx
variable {n : Nat} {p : Platform} {w : Proxy n} {b : Switchboard} {l : Link} {conn : BtConn}

/-- The books of one connection: the packets read from its queue, those accepted into it,
and everything since it connected that could have been for it. -/
structure Inbox where
  read : List Bytes
  taken : List Bytes
  arrived : List Bytes
  deriving DecidableEq

namespace Inbox

def empty : Inbox := ⟨[], [], []⟩

def call (n : Nat) (conn : BtConn) (b : Switchboard) (call : LinkCall) (x : Inbox) : Inbox :=
  match b.links conn with
  | none => if call.Opens n b conn then empty else x
  | some l =>
    match call with
    | .enqueue target data =>
      if target = conn ∧ l.refusal data = none then { x with taken := x.taken ++ [data] } else x
    | .read _ reader _ offset =>
      if reader = conn ∧ offset = 0 ∧ l.state ≠ .replaying then
        { x with read := x.read ++ l.queue.take 1 }
      else x
    | .encodeReply | .replay _ _ | .park _ _ | .register _ _ | .requestTeardown _ | .hangUp _
    | .connected _ _ | .disconnected _ => x

/-- A frame of the node may be for any phone, the reply to a heartbeat is for its sender. -/
def arrivals (p : Platform) (conn : BtConn) : Event n → List Bytes
  | .fromradio frame _ => [frame.bytes]
  | .toradioWrite sender buf offset =>
    if sender = conn ∧ offset = 0 ∧ (protoDecodeToradio p buf).any (·.hasHeartbeat) then
      [p.fromRadioBytes .syntheticQueueStatus]
    else []
  | _ => []

end Inbox

/-- The link against its books, when packets are still to be offered in the same handler
run: whatever was accepted or is yet to come has arrived, in that order. -/
structure Booked (l : Link) (x : Inbox) (coming : List Bytes) : Prop where
  fifo : x.read ++ l.queue = x.taken
  ordered : (x.taken ++ coming).Sublist x.arrived

/-- The packets that the calls offer to a phone. -/
def LinkCall.own (conn : BtConn) : LinkCall → Option Bytes
  | .enqueue target data => if target = conn then some data else none
  | .encodeReply | .replay _ _ | .park _ _ | .read _ _ _ _ | .register _ _ | .requestTeardown _
  | .hangUp _ | .connected _ _ | .disconnected _ => none

theorem booked_offer {x : Inbox} {data : Bytes} {coming : List Bytes}
    (booked : Booked l x (data :: coming)) :
    Booked (l.offer data)
      (if l.refusal data = none then { x with taken := x.taken ++ [data] } else x) coming := by
  obtain ⟨fifo, ordered⟩ := booked
  by_cases accepted : l.refusal data = none
  · simp only [Link.offer, if_pos accepted]
    constructor
    · rw [← List.append_assoc, fifo]
    · simpa using ordered
  · simp only [Link.offer, if_neg accepted]
    exact ⟨fifo, ((List.sublist_cons_self data coming).append_left x.taken).trans ordered⟩

theorem booked_fetch {x : Inbox} {coming : List Bytes} (booked : Booked l x coming) (c : ConfigCache) :
    Booked (l.fetch c)
      (if l.state ≠ .replaying then { x with read := x.read ++ l.queue.take 1 } else x) coming := by
  obtain ⟨fifo, ordered⟩ := booked
  by_cases replaying : l.state = .replaying
  · have queue : (l.fetch c).queue = l.queue := by
      simp only [Link.fetch, if_pos replaying]
      split
      · rfl
      · split_ifs <;> rfl
    rw [if_neg (by simp [replaying])]
    exact ⟨by rw [queue, fifo], ordered⟩
  · have queue : (l.fetch c).queue = l.queue.tail := by simp only [Link.fetch, if_neg replaying]
    rw [if_pos replaying]
    refine ⟨?_, ordered⟩
    rw [queue, List.append_assoc, ← List.drop_one, List.take_append_drop, fifo]

/-- The other calls leave the queue alone. -/
theorem aside_queue {call : LinkCall} (unoffered : ∀ target data, call ≠ .enqueue target data)
    (unread : ∀ cache reader len offset, call ≠ .read cache reader len offset) {k l : Link}
    (after : call.after p conn k = some l) : l.queue = k.queue := by
  cases call with
  | enqueue target data => exact absurd rfl (unoffered target data)
  | read cache reader len offset => exact absurd rfl (unread cache reader len offset)
  | disconnected left =>
    simp only [LinkCall.after] at after
    split_ifs at after
    cases after
    rfl
  | encodeReply =>
    cases after
    rfl
  | hangUp target =>
    cases after
    rfl
  | connected fresh err =>
    cases after
    rfl
  | _ =>
    simp only [LinkCall.after] at after
    split_ifs at after
    · cases after
      rfl
    · cases after
      rfl

/-- One call that opens no link. -/
theorem booked_call {x : Inbox} {call : LinkCall} {coming : List Bytes}
    (steady : ¬ call.Opens n b conn)
    (booked : ∀ l, b.links conn = some l → Booked l x ((call.own conn).toList ++ coming)) {l : Link}
    (standing : (call.run p n b).links conn = some l) :
    Booked l (x.call n conn b call) coming := by
  simp only [LinkCall.run] at standing
  unfold Inbox.call
  cases before : b.links conn with
  | none => simp [before, steady] at standing
  | some k =>
    have kept := booked k before
    simp only [before] at standing ⊢
    cases call with
    | enqueue target data =>
      by_cases own : target = conn
      · simp only [LinkCall.after, LinkCall.own, if_pos own] at standing kept
        cases standing
        simp only [own, true_and]
        exact booked_offer kept
      · simp only [LinkCall.after, LinkCall.own, if_neg own] at standing kept
        cases standing
        simp only [own, false_and, if_false]
        exact kept
    | read cache reader len offset =>
      by_cases fresh : reader = conn ∧ offset = 0
      · simp only [LinkCall.after, if_pos fresh] at standing
        cases standing
        simp only [fresh, true_and]
        exact booked_fetch kept cache
      · simp only [LinkCall.after, if_neg fresh] at standing
        cases standing
        have other : ¬ (reader = conn ∧ offset = 0 ∧ l.state ≠ .replaying) :=
          fun both => fresh ⟨both.1, both.2.1⟩
        simp only [if_neg other]
        exact kept
    | _ => exact ⟨(aside_queue (by simp) (by simp) standing).symm ▸ kept.fifo, kept.ordered⟩

/-- A handler run that opens no link. -/
theorem booked_calls {x : Inbox} (made : List LinkCall)
    (steady : ∀ call ∈ made, ∀ b : Switchboard, ¬ call.Opens n b conn)
    (booked : ∀ l, b.links conn = some l → Booked l x (made.filterMap (LinkCall.own conn))) :
    ∀ l, ((switchboard n p).run b made).links conn = some l →
      Booked l ((switchboard n p).noted (Inbox.call n conn) b x made) [] := by
  induction made generalizing b x with
  | nil => exact booked
  | cons call made ih =>
    have first : ∀ l, b.links conn = some l →
        Booked l x ((call.own conn).toList ++ made.filterMap (LinkCall.own conn)) := by
      intro l standing
      have all := booked l standing
      cases own : call.own conn with
      | none => rwa [List.filterMap_cons_none own] at all
      | some data => rwa [List.filterMap_cons_some own] at all
    refine ih (fun later member => steady later (List.mem_cons_of_mem _ member)) fun l standing => ?_
    exact booked_call (steady call List.mem_cons_self b) first standing

/-! What a handler run offers a phone. -/

/-- The calls on the switchboard of one handler run. -/
def boardCalls (p : Platform) (w : Proxy n) (e : Event n) : List LinkCall :=
  (gattSystem n p).trace (fun g call => call.onBoard g) w.gatt (calls p w e)

/-- The packets that calls on the table offer to a phone. -/
def GattCall.own (conn : BtConn) : GattCall n → Option Bytes
  | .enqueue target data => if target = conn then some data else none
  | .encodeReply | .replay _ _ | .park _ _ | .read _ _ _ _ | .register _ _ | .requestTeardown _
  | .teardown _ | .connected _ _ | .disconnected _ => none

theorem own_on_board (g : Gatt n) (call : GattCall n) :
    (call.onBoard g).filterMap (LinkCall.own conn) = (call.own conn).toList := by
  cases call with
  | teardown slot =>
    simp only [GattCall.onBoard, GattCall.own]
    cases (g.conns slot).conn <;> rfl
  | enqueue target data =>
    simp only [GattCall.onBoard, GattCall.own]
    by_cases own : target = conn <;> simp [LinkCall.own, own]
  | _ => rfl

theorem own_board_calls (g : Gatt n) (made : List (GattCall n)) :
    ((gattSystem n p).trace (fun g call => call.onBoard g) g made).filterMap (LinkCall.own conn) =
      made.filterMap (GattCall.own conn) := by
  induction made generalizing g with
  | nil => rfl
  | cons call made ih =>
    rw [Machine.trace_cons, List.filterMap_append, own_on_board, ih]
    cases own : call.own conn with
    | none => rw [List.filterMap_cons_none own]; rfl
    | some data => rw [List.filterMap_cons_some own]; rfl

/-- A broadcast offers a phone its packet once. -/
theorem broadcast_own {g : Gatt n} (distinct : g.Distinct) (data : Bytes) :
    ((broadcastCalls g data).filterMap (GattCall.own conn)).Sublist [data] := by
  have slots : (broadcastCalls g data).filterMap (GattCall.own conn) =
      (List.finRange n).filterMap fun i => if (g.conns i).conn = some conn then some data else none := by
    rw [broadcastCalls, List.filterMap_filterMap]
    refine List.filterMap_congr fun i _ => ?_
    cases holder : (g.conns i).conn with
    | none => rfl
    | some target => simp [GattCall.own]
  rw [slots]
  have once := List.nodup_finRange n
  generalize List.finRange n = table at once ⊢
  induction table with
  | nil => exact List.nil_sublist _
  | cons i table ih =>
    obtain ⟨fresh, rest⟩ := List.nodup_cons.mp once
    by_cases holds : (g.conns i).conn = some conn
    · have others : table.filterMap (fun j =>
          if (g.conns j).conn = some conn then some data else none) = [] := by
        refine List.filterMap_eq_nil_iff.mpr fun j member => ?_
        rw [if_neg]
        intro also
        exact fresh (distinct i j conn holds also ▸ member)
      rw [List.filterMap_cons_some (by rw [if_pos holds]), others]
    · rw [List.filterMap_cons_none (by rw [if_neg holds])]
      exact ih rest

theorem frame_own (distinct : w.gatt.Distinct) (payload : Bytes) :
    ((frameCalls p w payload).filterMap (GattCall.own conn)).Sublist [payload] := by
  have broadcast : ((broadcastCalls w.gatt payload).filterMap (GattCall.own conn)).Sublist [payload] :=
    broadcast_own distinct payload
  have nothing : (List.filterMap (GattCall.own conn) ([] : List (GattCall n))).Sublist [payload] :=
    List.nil_sublist _
  unfold frameCalls
  cases protoDecodeFromradio p payload with
  | none => exact broadcast
  | some info =>
    simp only
    split_ifs
    · unfold packetCalls
      split_ifs
      · split
        · rename_i target _
          by_cases own : target = conn
          · simp [GattCall.own, own]
          · simp [GattCall.own, own]
        · exact broadcast
      · exact broadcast
    · have served : (serveCalls w.session : List (GattCall n)).filterMap (GattCall.own conn) = [] := by
        refine List.filterMap_eq_nil_iff.mpr fun call member => ?_
        obtain ⟨_, _, rfl⟩ := serve_call member
        rfl
      rw [served]
      exact List.nil_sublist _
    · exact nothing
    · exact nothing
    · exact nothing
    · exact broadcast

theorem heartbeat_own (documented : p.Documented) (reply : w.gatt.queueStatusReply = [] ∨
    w.gatt.queueStatusReply = p.fromRadioBytes .syntheticQueueStatus) (sender : BtConn) :
    (heartbeatCalls p w.gatt sender).filterMap (GattCall.own conn) =
      if sender = conn then [p.fromRadioBytes .syntheticQueueStatus] else [] := by
  simp only [heartbeatCalls, encode_queue_status documented, ne_eq, not_true_eq_false, if_false]
  split_ifs with unset own own
  · simp [List.filterMap_cons, GattCall.own, own]
  · simp [List.filterMap_cons, GattCall.own, own]
  · rcases reply with empty | known
    · exact absurd (by rw [empty]; rfl) unset
    · simp [GattCall.own, own, known]
  · simp [GattCall.own, own]

theorem write_own (documented : p.Documented) (reply : w.gatt.queueStatusReply = [] ∨
    w.gatt.queueStatusReply = p.fromRadioBytes .syntheticQueueStatus) (sender : BtConn)
    (buf : Bytes) (offset : Nat) :
    ((calls p w (.toradioWrite sender buf offset)).filterMap (GattCall.own conn)).Sublist
      (Inbox.arrivals p conn (.toradioWrite sender buf offset : Event n)) := by
  rw [calls]
  by_cases continued : offset ≠ 0
  · rw [if_pos continued]
    exact List.nil_sublist _
  · rw [if_neg continued]
    unfold toradioCalls
    cases decoded : protoDecodeToradio p buf with
    | none => exact List.nil_sublist _
    | some info =>
      simp only
      split_ifs with wants ready heartbeat
      · exact List.nil_sublist _
      · exact List.nil_sublist _
      · rw [heartbeat_own documented reply]
        simp only [Inbox.arrivals, decoded, Option.any_some, heartbeat, and_true]
        by_cases own : sender = conn
        · rw [if_pos own, if_pos ⟨own, not_not.mp continued⟩]
        · rw [if_neg own]
          exact List.nil_sublist _
      · exact List.nil_sublist _
      · exact List.nil_sublist _

/-- What one handler run offers a phone has arrived for it. -/
theorem event_own (documented : p.Documented) (distinct : w.gatt.Distinct)
    (reply : w.gatt.queueStatusReply = [] ∨
      w.gatt.queueStatusReply = p.fromRadioBytes .syntheticQueueStatus) (e : Event n) :
    ((boardCalls p w e).filterMap (LinkCall.own conn)).Sublist (Inbox.arrivals p conn e) := by
  rw [boardCalls, own_board_calls]
  cases e with
  | fromradio frame rand => exact frame_own distinct frame.bytes
  | toradioWrite sender buf offset => exact write_own documented reply sender buf offset
  | nodeRegWrite target buf offset =>
    simp only [calls]
    split_ifs
    · exact List.nil_sublist _
    · exact List.nil_sublist _
  | _ => exact List.nil_sublist _

/-- Only a connection event opens a link. -/
theorem event_steady (e : Event n) (other : ∀ fresh err, e ≠ .connected fresh err) :
    ∀ call ∈ boardCalls p w e, ∀ b : Switchboard, ¬ call.Opens n b conn := by
  have plain : ∀ call ∈ calls p w e, ∀ fresh err, call ≠ .connected fresh err := by
    intro call member fresh err
    rintro rfl
    cases e with
    | fromradio frame rand =>
      cases frame_call member with
      | served _ parked =>
        obtain ⟨_, _, same⟩ := serve_call parked
        cases same
    | toradioWrite sender buf offset =>
      simp only [calls] at member
      split_ifs at member
      · exact absurd member List.not_mem_nil
      · cases toradio_call member
    | nodeRegWrite target buf offset =>
      simp only [calls] at member
      split_ifs at member
      · exact absurd member List.not_mem_nil
      · simp at member
    | connected again err => exact other again err rfl
    | _ => simp [calls] at member
  intro step member b
  obtain ⟨g, call, among, made⟩ := Machine.mem_trace member
  cases call with
  | connected fresh err => exact absurd rfl (plain _ among fresh err)
  | teardown slot =>
    obtain ⟨target, _, rfl⟩ := Option.map_eq_some_iff.mp (Option.mem_toList.mp made)
    exact id
  | _ =>
    rw [List.mem_singleton.mp made]
    exact id

namespace Inbox

/-- One event: what arrives, and what its handler run makes of it. -/
def note (p : Platform) (conn : BtConn) (w : Proxy n) (e : Event n) (x : Inbox) : Inbox :=
  (switchboard n p).noted (call n conn) w.gatt.board
    { x with arrived := x.arrived ++ arrivals p conn e } (boardCalls p w e)

/-- The books of a connection after a run. -/
def after (p : Platform) (conn : BtConn) (es : List (Event n)) : Inbox :=
  (system n p).noted (note p conn) (.boot n) empty es

end Inbox

theorem booked_event (documented : p.Documented) {x : Inbox} (distinct : w.gatt.Distinct)
    (reply : w.gatt.queueStatusReply = [] ∨
      w.gatt.queueStatusReply = p.fromRadioBytes .syntheticQueueStatus)
    (booked : ∀ l, w.gatt.board.links conn = some l → Booked l x []) (e : Event n)
    (enabled : w.enabled e) : ∀ l, ((switchboard n p).run w.gatt.board (boardCalls p w e)).links conn = some l →
      Booked l (x.note p conn w e) [] := by
  by_cases other : ∀ fresh err, e ≠ .connected fresh err
  · refine booked_calls _ (event_steady e other) fun l standing => ?_
    obtain ⟨fifo, ordered⟩ := booked l standing
    refine ⟨fifo, ?_⟩
    rw [List.append_nil] at ordered
    exact ordered.append (event_own documented distinct reply e)
  · push Not at other
    obtain ⟨fresh, err, rfl⟩ := other
    have untracked : w.gatt.board.links fresh = none := link_none.mpr enabled
    intro l standing
    by_cases opens : (LinkCall.connected fresh err).Opens n w.gatt.board conn
    · obtain rfl := opens.1
      have opened : some Link.fresh = some l := by
        simpa [boardCalls, calls, GattCall.onBoard, switchboard, LinkCall.run, untracked, opens]
          using standing
      have blank : x.note p fresh w (.connected fresh err) = .empty := by
        simp [Inbox.note, boardCalls, calls, GattCall.onBoard, Inbox.call, untracked, opens]
      cases opened
      rw [blank]
      exact ⟨rfl, List.nil_sublist _⟩
    · refine booked_call opens (fun l held => ?_) standing
      obtain ⟨fifo, ordered⟩ := booked l held
      exact ⟨fifo, by simpa [Inbox.arrivals, LinkCall.own] using ordered⟩

/-- The proxy against the books of a connection, between handler runs. -/
def Shelved (documented : p.Documented) (conn : BtConn) (w : Proxy n) (x : Inbox) : Prop :=
  (proxyOnBoard documented).Inv w ∧ ∀ l, w.gatt.board.links conn = some l → Booked l x []

theorem shelved_boot (documented : p.Documented) (conn : BtConn) :
    Shelved documented conn (Proxy.boot n) .empty := by
  refine ⟨(boot_on_board documented).1, ?_⟩
  have zero : (Proxy.boot n).gatt.board = .zero := board_zero
  simp [zero, Switchboard.zero]

theorem shelved_step (documented : p.Documented) (w : Proxy n) (x : Inbox) (e : Event n)
    (shelved : Shelved documented conn w x) (enabled : w.enabled e)
    (carries : Carries p (fun _ => True) w) :
    Shelved documented conn (w.apply p e) (x.note p conn w e) := by
  have next : (switchboard n p).run w.gatt.board (boardCalls p w e) = (w.apply p e).gatt.board :=
    ((proxyOnBoard documented).step w e shelved.1 enabled).2
  refine ⟨(proxyOnBoard documented).keeps w e shelved.1 enabled, ?_⟩
  rw [← next]
  exact booked_event documented carries.gatt.distinct carries.gatt.reply shelved.2 e enabled

theorem inbox_shelved (documented : p.Documented) (es : List (Event n))
    (runs : (system n p).Runs (.boot n) es) (conn : BtConn) :
    Shelved documented conn ((system n p).run (.boot n) es) (Inbox.after p conn es) := by
  have carried := carries_along (Q := fun _ => True) documented trivial (fun _ => trivial) es runs
  exact Machine.noted_invariant_along (shelved_step documented) es (shelved_boot documented conn) runs
    carried

/-- The books of a phone that holds a slot. -/
theorem inbox_booked (documented : p.Documented) (es : List (Event n))
    (runs : (system n p).Runs (.boot n) es) {i : Fin n}
    (tracked : findSlot ((system n p).run (.boot n) es).gatt conn = some i) :
    Booked (Link.of (((system n p).run (.boot n) es).gatt.conns i)) (Inbox.after p conn es) [] := by
  have held : Held ((system n p).run (.boot n) es).gatt i conn :=
    ⟨(reachable_run es runs).distinct documented, find_slot_some tracked⟩
  exact (inbox_shelved documented es runs conn).2 _ (link_held held)

/-! What has arrived since the connection. -/

theorem call_arrived {x : Inbox} (call : LinkCall) (steady : ¬ call.Opens n b conn) :
    (x.call n conn b call).arrived = x.arrived := by
  unfold Inbox.call
  cases b.links conn with
  | none => simp only [if_neg steady]
  | some l =>
    cases call with
    | enqueue target data =>
      simp only
      split_ifs <;> rfl
    | read cache reader len offset =>
      simp only
      split_ifs <;> rfl
    | _ => rfl

theorem steady_arrived {x : Inbox} (made : List LinkCall)
    (steady : ∀ call ∈ made, ∀ b : Switchboard, ¬ call.Opens n b conn) :
    ((switchboard n p).noted (Inbox.call n conn) b x made).arrived = x.arrived := by
  induction made generalizing b x with
  | nil => rfl
  | cons call made ih =>
    rw [Machine.noted_cons, ih fun later member => steady later (List.mem_cons_of_mem _ member)]
    exact call_arrived call (steady call List.mem_cons_self b)

theorem note_arrived (x : Inbox) (e : Event n) :
    (x.note p conn w e).arrived = x.arrived ++ Inbox.arrivals p conn e ∨
      (x.note p conn w e).arrived = [] := by
  by_cases other : ∀ fresh err, e ≠ .connected fresh err
  · exact .inl (steady_arrived _ (event_steady e other))
  · push Not at other
    obtain ⟨fresh, err, rfl⟩ := other
    have single : boardCalls p w (.connected fresh err) = [.connected fresh err] := rfl
    simp only [Inbox.note, single, Machine.noted_cons, Machine.noted_nil]
    by_cases opens : (LinkCall.connected fresh err).Opens n w.gatt.board conn
    · unfold Inbox.call
      cases w.gatt.board.links conn with
      | none =>
        simp only [if_pos opens]
        exact .inr rfl
      | some l => exact .inl rfl
    · exact .inl (call_arrived _ opens)

/-- The books of a phone go back to some point of the run, and have every arrival since. -/
theorem inbox_arrivals (es : List (Event n)) :
    ∃ since, since <:+ es ∧
      (Inbox.after p conn es).arrived = since.flatMap (Inbox.arrivals p conn) := by
  induction es using List.reverseRecOn with
  | nil => exact ⟨[], List.suffix_rfl, rfl⟩
  | append_singleton es e ih =>
    obtain ⟨since, suffix, arrived⟩ := ih
    have after : Inbox.after p conn (es ++ [e]) =
        (Inbox.after p conn es).note p conn ((system n p).run (.boot n) es) e := by
      rw [Inbox.after, Machine.noted_append]
      rfl
    rw [after]
    rcases note_arrived (Inbox.after p conn es) e with longer | blank
    · refine ⟨since ++ [e], ?_, ?_⟩
      · obtain ⟨before, rfl⟩ := suffix
        exact ⟨before, (List.append_assoc _ _ _).symm⟩
      · rw [longer, arrived, List.flatMap_append]
        simp
    · exact ⟨[], List.nil_suffix, blank⟩

/-- A broadcast, a heartbeat reply, one read and another broadcast. -/
def mixedInbox : List (Event 1) :=
  [.sessionStart 5, .connected 7 false, .fromradio (.of 0xff []) 0, .toradioWrite 7 [0x3a, 0] 0,
    .fromradioRead 7 22 0, .fromradio (.of 0xfe [1]) 0]

end MeshPbx
