import MeshPbx.Contents
import MeshPbx.WireFormat

/-! The empty FROMRADIO answer. A phone reads until it gets one; the read that
closes a drained replay answers empty without looking at the packet queue. -/
namespace MeshPbx
variable {n : Nat} {p : Platform} {w : Proxy n} {c : ConfigCache} {pc : ProxyConn}

/-- A queued packet, a replay frame or the config_complete is still to come. -/
def Owes (c : ConfigCache) (pc : ProxyConn) : Prop :=
  0 < pc.queue.count ∨ (pc.state = .replaying ∧ pc.replayCursor ≤ cacheFrameCount c)

/-- The next fresh read closes a replay while packets wait in the queue. -/
def ClosesOverPackets (c : ConfigCache) (pc : ProxyConn) : Prop :=
  pc.state = .replaying ∧ cacheFrameCount c < pc.replayCursor ∧ 0 < pc.queue.count

instance : Decidable (Owes c pc) := inferInstanceAs (Decidable (_ ∨ _))

instance : Decidable (ClosesOverPackets c pc) := inferInstanceAs (Decidable (_ ∧ _))

theorem queued_eq_nil : pc.queued = [] ↔ ¬ 0 < pc.queue.count := by
  rw [ProxyConn.queued, List.map_eq_nil_iff, RingQueue.contents_eq_nil_iff, Nat.not_lt,
    Nat.le_zero]

theorem drained_iff : (pc.mailbox c).Drained ↔ ¬ Owes c pc := by
  have replay : (pc.mailbox c).replay = [] ↔
      ¬ (pc.state = .replaying ∧ pc.replayCursor ≤ cacheFrameCount c) := by
    simp only [ProxyConn.mailbox]
    split_ifs with owed <;> simp [owed]
  have queue : (pc.mailbox c).queue = [] ↔ ¬ 0 < pc.queue.count := queued_eq_nil
  rw [Mailbox.Drained, replay, queue, Owes, not_or, and_comm]

theorem closes_iff : (pc.mailbox c).closing = true ∧ (pc.mailbox c).queue ≠ [] ↔
    ClosesOverPackets c pc := by
  have queue : (pc.mailbox c).queue ≠ [] ↔ 0 < pc.queue.count := by
    rw [ne_eq, show (pc.mailbox c).queue = [] ↔ ¬ 0 < pc.queue.count from queued_eq_nil, not_not]
  rw [queue]
  simp only [ProxyConn.mailbox, decide_eq_true_eq, ClosesOverPackets, and_assoc]

/-- Nothing to serve is the mailbox's empty answer. -/
theorem mailbox_empty (nothing : stageSource c pc = .nothing) : (pc.mailbox c).read.1 = none := by
  rcases stage_nothing nothing with ⟨replaying, past, _⟩ | ⟨replaying, empty, _⟩
  · have notInside : ¬ pc.replayCursor ≤ cacheFrameCount c := by omega
    simp [ProxyConn.mailbox, replaying, past, notInside, Mailbox.read]
  · have contents := (RingQueue.contents_eq_nil_iff pc.queue).mpr empty
    simp [ProxyConn.mailbox, ProxyConn.queued, replaying, contents, Mailbox.read]

/-- A fresh read of a reachable slot that finds something answers some bytes. -/
theorem Reachable.empty_answer (documented : p.Documented) (reached : Reachable p w) {i : Fin n}
    (empty : (stageNext w.cache (w.gatt.conns i)).stagedBytes = []) :
    stageSource w.cache (w.gatt.conns i) = .nothing := by
  have carries := Reachable.carries (Q := fun bytes => bytes ≠ []) documented
    (List.ne_nil_of_length_pos documented.queueStatus_pos)
    (fun frame => List.ne_nil_of_length_pos frame.pos) reached
  rcases carries.fresh_read i with nothing | ⟨_, complete⟩ | filled
  · exact nothing
  · have pos := documented.complete_pos (w.gatt.conns i).nonce
    rw [← complete, empty] at pos
    exact absurd pos (by simp)
  · exact absurd empty filled

/-- An empty answer to a fresh read means drained, except when the read closes
a replay over queued packets. -/
theorem empty_answer_drained_iff (documented : p.Documented) (reached : Reachable p w)
    {conn : BtConn} {i : Fin n} (tracked : findSlot w.gatt conn = some i) {len : Nat}
    (buffer : 0 < len) (empty : (fromradioRead p w.cache w.gatt conn len 0).2 = .ok []) :
    ¬ Owes w.cache ((fromradioRead p w.cache w.gatt conn len 0).1.conns i) ↔
      ¬ ClosesOverPackets w.cache (w.gatt.conns i) := by
  have staged := fresh_read_empty documented tracked buffer empty
  have nothing := reached.empty_answer documented staged
  have refined := (stage_next_mailbox w.cache (w.gatt.conns i)).1
  rw [fresh_read_slot len tracked, ← drained_iff, refined,
    Mailbox.drained_of_empty (mailbox_empty nothing), closes_iff]

/-- A connected phone that has been served everything. -/
def idleSchedule : List (Event 1) := [.sessionStart 5, .connected 7 false]

theorem idle_answer_drained :
    ¬ Owes ((system 1 .wire).run (.boot 1) idleSchedule).cache
      ((fromradioRead .wire ((system 1 .wire).run (.boot 1) idleSchedule).cache
        ((system 1 .wire).run (.boot 1) idleSchedule).gatt 7 22 0).1.conns 0) := by
  have reached := reachable_run (p := .wire) idleSchedule (by decide)
  exact (empty_answer_drained_iff wire_documented reached (i := 0) (by decide) (by decide)
    (by decide)).mpr (by decide)

/-- The phone replays an empty cache; a packet arrives before it has read the
empty answer that closes the replay. -/
def interruptedSchedule : List (Event 1) :=
  [.sessionStart 5, .fromradio (.of 0x38 [5]) 0, .connected 7 false,
    .toradioWrite 7 [0x18, 9] 0, .fromradioRead 7 22 0,
    .fromradio (.of 0x12 [0]) 0]

theorem closing_answer_not_drained :
    ∃ w : Proxy 1, Reachable .wire w ∧ findSlot w.gatt 7 = some 0 ∧
      (fromradioRead .wire w.cache w.gatt 7 22 0).2 = .ok [] ∧
      Owes w.cache ((fromradioRead .wire w.cache w.gatt 7 22 0).1.conns 0) :=
  ⟨(system 1 .wire).run (.boot 1) interruptedSchedule, reachable_run _ (by decide), by decide,
    by decide, by decide⟩

end MeshPbx
