import MeshPbx.SlotHistory
import MeshPbx.DeliveryOrder

/-! One armed replay, read to its end. Over an unchanged cache the fresh reads of
the phone walk through its script, the frames of the requested segment and the
completion, then answer once with nothing, and only then take live packets. -/
namespace MeshPbx
variable {n : Nat} {p : Platform} {g : Gatt n} {i : Fin n} {conn : BtConn} {c : ConfigCache}
variable {pc : ProxyConn}

/-- What a replay owes: the cached frames of the segment in burst order, then the
completion with the requested id. -/
def script (p : Platform) (c : ConfigCache) (nonce : UInt32) : List Bytes :=
  ((List.range (cacheFrameCount c)).filter (cacheFrameInSegment c · nonce)).map
    (fun k => (c.entry k).1) ++ [p.fromRadioBytes (.configComplete nonce)]

/-- A fresh read of the phone, or any call that does not move its replay. -/
inductive Visit (n : Nat) where
  | read (len : Nat)
  | other (call : GattCall n)

/-- Since the replay was armed: the phone's fresh reads, the live packets
accepted for it, and how many of them, with those queued before, it has taken. -/
structure Tally where
  reads : Nat
  accepted : List Bytes
  taken : Nat
  deriving DecidableEq, Repr

namespace Tally

def zero : Tally := ⟨0, [], 0⟩

/-- The packet the next fresh read has to return; empty where it closes the
replay or finds no live packet. -/
def due (owed queued : List Bytes) (t : Tally) : Bytes :=
  if t.reads ≤ owed.length then (owed[t.reads]?).getD []
  else ((queued ++ t.accepted)[t.taken]?).getD []

/-- A live packet is taken only once the replay is closed. -/
def read (owed queued : List Bytes) (t : Tally) : Tally :=
  if t.reads ≤ owed.length then { t with reads := t.reads + 1 }
  else
    { t with
      reads := t.reads + 1
      taken := min (t.taken + 1) (queued ++ t.accepted).length }

def offer (g : Gatt n) (conn : BtConn) (t : Tally) : GattCall n → Tally
  | .enqueue target data =>
    if target = conn ∧ (bleGattEnqueueFromradio g conn data).2 = none then
      { t with accepted := t.accepted ++ [data] }
    else t
  | _ => t

end Tally

def Visit.enabled (g : Gatt n) (conn : BtConn) : Visit n → Prop
  | .read _ => True
  | .other call => call.enabled g ∧ ¬ call.Turns conn

instance (g : Gatt n) (conn : BtConn) : (visit : Visit n) → Decidable (visit.enabled g conn)
  | .read _ => isTrue trivial
  | .other _ => inferInstanceAs (Decidable (_ ∧ _))

/-- The GATT server while one phone reads its replay from an unchanged cache. -/
def visits (n : Nat) (p : Platform) (c : ConfigCache) (conn : BtConn) (owed queued : List Bytes) :
    Machine (Gatt n × Tally) (Visit n) where
  enabled s visit := visit.enabled s.1 conn
  next s visit := match visit with
    | .read len => ((fromradioRead p c s.1 conn len 0).1, s.2.read owed queued)
    | .other call => (call.run p s.1, s.2.offer s.1 conn call)

instance (owed queued : List Bytes) (s : Gatt n × Tally) (visit : Visit n) :
    Decidable ((visits n p c conn owed queued).enabled s visit) :=
  inferInstanceAs (Decidable (visit.enabled s.1 conn))

/-- A fresh read returns what is due, as far as the buffer reaches. -/
def ReadsDue (p : Platform) (c : ConfigCache) (conn : BtConn) (owed queued : List Bytes)
    (s : Gatt n × Tally) : Visit n → Prop
  | .read len => (fromradioRead p c s.1 conn len 0).2 = .ok ((s.2.due owed queued).take len)
  | .other _ => True

/-- The phone replays up to the read that closes the replay and is ACTIVE from
then on, and its queue holds every live packet it has not taken. -/
structure OnScript (i : Fin n) (conn : BtConn) (owed queued : List Bytes) (s : Gatt n × Tally) :
    Prop where
  tracked : findSlot s.1 conn = some i
  state : (s.1.conns i).state = if s.2.reads ≤ owed.length then .replaying else .active
  queue : (s.1.conns i).queued = (queued ++ s.2.accepted).drop s.2.taken
  untouched : s.2.reads ≤ owed.length + 1 → s.2.taken = 0

/-! The slot's side. -/

theorem segment_start (c : ConfigCache) (nonce : UInt32) :
    segment c nonce 0 = (List.range (cacheFrameCount c)).filter (cacheFrameInSegment c · nonce) := by
  simp only [segment, Nat.sub_zero, List.range_eq_range']

/-- The queue apart, the mailbox depends on the position of the replay only. -/
theorem mailbox_of_position {pc' : ProxyConn} (same : pc'.position = pc.position) :
    pc'.mailbox c = { pc.mailbox c with queue := pc'.queued } := by
  have state := congrArg ReplayPosition.state same
  have nonce := congrArg ReplayPosition.nonce same
  have cursor := congrArg ReplayPosition.cursor same
  have complete := congrArg ReplayPosition.complete same
  simp only [ProxyConn.position] at state nonce cursor complete
  simp only [ProxyConn.mailbox, state, nonce, cursor, complete]

theorem stage_owing (owes : (pc.mailbox c).replay ≠ []) : (stageNext c pc).state = .replaying := by
  have open_ : pc.state = .replaying ∧ pc.replayCursor ≤ cacheFrameCount c := by
    by_contra other
    exact owes (if_neg other)
  obtain ⟨replaying, inside⟩ := open_
  cases source : stageSource c pc with
  | cached k =>
    rw [(stage_cached source).2]
    exact replaying
  | complete =>
    rw [(stage_complete source).2]
    exact replaying
  | queued => exact absurd replaying (stage_queued source).1
  | nothing =>
    rcases stage_nothing source with ⟨_, past, _⟩ | ⟨other, _, _⟩
    · omega
    · exact absurd replaying other

theorem stage_closing (closing : (pc.mailbox c).closing = true) :
    (stageNext c pc).state = .active := by
  have finished : pc.state = .replaying ∧ cacheFrameCount c < pc.replayCursor := by
    simpa [ProxyConn.mailbox] using closing
  obtain ⟨replaying, past⟩ := finished
  have next := replay_next_past pc past
  cases source : stageSource c pc with
  | cached k =>
    obtain ⟨⟨_, same, below⟩, _⟩ := stage_cached source
    omega
  | complete =>
    obtain ⟨⟨_, same⟩, _⟩ := stage_complete source
    omega
  | queued => exact absurd replaying (stage_queued source).1
  | nothing =>
    rcases stage_nothing source with ⟨_, _, staged⟩ | ⟨other, _, _⟩
    · rw [staged]
    · exact absurd replaying other

/-- The slot stands where the tally says. -/
structure Stands (c : ConfigCache) (owed queued : List Bytes) (t : Tally) (pc : ProxyConn) :
    Prop where
  replay : (pc.mailbox c).replay = owed.drop t.reads
  closing : (pc.mailbox c).closing = decide (t.reads = owed.length)
  state : pc.state = if t.reads ≤ owed.length then .replaying else .active
  queue : pc.queued = (queued ++ t.accepted).drop t.taken
  untouched : t.reads ≤ owed.length + 1 → t.taken = 0
  bounded : t.taken ≤ (queued ++ t.accepted).length

theorem stands_armed (pc : ProxyConn) (nonce : UInt32) :
    Stands c (script p c nonce) pc.queued .zero (pc.arm p nonce) := by
  have replaying : (pc.arm p nonce).state = .replaying := rfl
  have box := ProxyConn.mailbox_replaying (c := c) replaying (Nat.zero_le _)
  have owed : (segment c (pc.arm p nonce).nonce (pc.arm p nonce).replayCursor).map
      (fun k => (c.entry k).1) ++ [(pc.arm p nonce).ccBytes] = script p c nonce := by
    rw [ProxyConn.ccBytes_arm, script, ← segment_start]
    rfl
  rw [owed] at box
  refine ⟨by rw [box]; rfl, ?_, by simp [replaying, Tally.zero], ?_, fun _ => rfl, Nat.zero_le _⟩
  · rw [box]
    simp [Tally.zero, script]
  · simp only [Tally.zero, List.append_nil, List.drop_zero]
    rfl

namespace Stands
variable {owed queued : List Bytes} {t : Tally} (stands : Stands c owed queued t pc)
include stands

theorem shape : pc.mailbox c =
    ⟨owed.drop t.reads, decide (t.reads = owed.length), (queued ++ t.accepted).drop t.taken⟩ := by
  rw [← stands.replay, ← stands.closing, ← stands.queue]
  rfl

/-- A read inside the script returns its next packet. -/
theorem read_owing (before : t.reads < owed.length) :
    Stands c owed queued { t with reads := t.reads + 1 } (stageNext c pc) ∧
      (stageNext c pc).stagedBytes = owed[t.reads] := by
  obtain ⟨box, staged⟩ := stage_next_mailbox c pc
  have next := List.drop_eq_getElem_cons before
  have owes : (pc.mailbox c).replay ≠ [] := by
    rw [stands.replay, next]
    exact List.cons_ne_nil _ _
  rw [stands.shape, next, Mailbox.read_owing] at box staged
  have ends : (owed.drop (t.reads + 1)).isEmpty = decide (t.reads + 1 = owed.length) := by
    rw [Bool.eq_iff_iff, List.isEmpty_iff, List.drop_eq_nil_iff, decide_eq_true_iff]
    omega
  have within : t.reads + 1 ≤ owed.length := before
  refine ⟨⟨congrArg Mailbox.replay box, ?_, ?_, congrArg Mailbox.queue box, fun _ => ?_,
    stands.bounded⟩, staged⟩
  · exact (congrArg Mailbox.closing box).trans ends
  · rw [if_pos within]
    exact stage_owing owes
  · exact stands.untouched (by omega)

/-- The read past the script returns nothing and makes the phone ACTIVE. -/
theorem read_closing (last : t.reads = owed.length) :
    Stands c owed queued { t with reads := t.reads + 1 } (stageNext c pc) ∧
      (stageNext c pc).stagedBytes = [] := by
  obtain ⟨box, staged⟩ := stage_next_mailbox c pc
  have closed : (pc.mailbox c).closing = true := by
    rw [stands.closing]
    exact decide_eq_true last
  have done : owed.drop t.reads = [] := List.drop_eq_nil_of_le (Nat.le_of_eq last.symm)
  rw [stands.shape, done, decide_eq_true last, Mailbox.read_closing] at box staged
  have ended : owed.drop (t.reads + 1) = [] := List.drop_eq_nil_of_le (by omega)
  have past : ¬ t.reads + 1 = owed.length := by omega
  have outside : ¬ t.reads + 1 ≤ owed.length := by omega
  refine ⟨⟨?_, ?_, ?_, congrArg Mailbox.queue box, fun _ => ?_, stands.bounded⟩, staged⟩
  · exact (congrArg Mailbox.replay box).trans ended.symm
  · exact (congrArg Mailbox.closing box).trans (decide_eq_false past).symm
  · rw [if_neg outside]
    exact stage_closing closed
  · exact stands.untouched (by omega)

/-- Every later read takes the oldest live packet, if there is one. -/
theorem read_live (past : owed.length < t.reads) :
    Stands c owed queued
        { t with
          reads := t.reads + 1
          taken := min (t.taken + 1) (queued ++ t.accepted).length }
        (stageNext c pc) ∧
      (stageNext c pc).stagedBytes = ((queued ++ t.accepted)[t.taken]?).getD [] := by
  obtain ⟨box, staged⟩ := stage_next_mailbox c pc
  have outside : ¬ t.reads ≤ owed.length := Nat.not_le_of_lt past
  have active : pc.state = .active := by
    rw [stands.state, if_neg outside]
  have idle : pc.state ≠ .replaying := by simp [active]
  have done : owed.drop t.reads = [] := List.drop_eq_nil_of_le (Nat.le_of_lt past)
  have open_ : ¬ t.reads = owed.length := Nat.ne_of_gt past
  rw [stands.shape, done, decide_eq_false open_, Mailbox.read_live] at box staged
  have ended : owed.drop (t.reads + 1) = [] := List.drop_eq_nil_of_le (by omega)
  have later : ¬ t.reads + 1 = owed.length := by omega
  have beyond : ¬ t.reads + 1 ≤ owed.length := by omega
  have late : ¬ t.reads + 1 ≤ owed.length + 1 := by omega
  refine ⟨⟨?_, ?_, ?_, ?_, fun early => absurd early late, Nat.min_le_right _ _⟩, ?_⟩
  · exact (congrArg Mailbox.replay box).trans ended.symm
  · exact (congrArg Mailbox.closing box).trans (decide_eq_false later).symm
  · rw [if_neg beyond]
    exact (stage_idle _ idle).1.trans active
  · refine (congrArg Mailbox.queue box).trans ?_
    rw [List.tail_drop]
    rcases Nat.lt_or_ge t.taken (queued ++ t.accepted).length with more | drained
    · rw [Nat.min_eq_left more]
    · rw [Nat.min_eq_right (by omega), List.drop_length]
      exact List.drop_eq_nil_of_le (by omega)
  · rw [staged, List.head?_drop]

theorem read : Stands c owed queued (t.read owed queued) (stageNext c pc) ∧
    (stageNext c pc).stagedBytes = t.due owed queued := by
  rcases Nat.lt_trichotomy t.reads owed.length with before | last | past
  · have within : t.reads ≤ owed.length := Nat.le_of_lt before
    simp only [Tally.read, Tally.due, if_pos within, List.getElem?_eq_getElem before,
      Option.getD_some]
    exact stands.read_owing before
  · have within : t.reads ≤ owed.length := Nat.le_of_eq last
    have none : owed[t.reads]? = none := List.getElem?_eq_none (Nat.le_of_eq last.symm)
    simp only [Tally.read, Tally.due, if_pos within, none, Option.getD_none]
    exact stands.read_closing last
  · have outside : ¬ t.reads ≤ owed.length := Nat.not_le_of_lt past
    simp only [Tally.read, Tally.due, if_neg outside]
    exact stands.read_live past

end Stands

/-- What is accepted for the phone goes behind what it is still to take. -/
theorem queued_offer (held : Held g i conn) (call : GattCall n) {queued : List Bytes} {t : Tally}
    (queue : (g.conns i).queued = (queued ++ t.accepted).drop t.taken)
    (bounded : t.taken ≤ (queued ++ t.accepted).length) (still : ¬ call.Turns conn) :
    ((g.conns i).after p i conn call).queued =
        (queued ++ (t.offer g conn call).accepted).drop t.taken ∧
      t.taken ≤ (queued ++ (t.offer g conn call).accepted).length := by
  cases call with
  | enqueue target data =>
    simp only [ProxyConn.after, Tally.offer]
    by_cases mine : target = conn
    · by_cases ready : data.length ≤ FROMRADIO_MAX_PKT_SIZE ∧ (g.conns i).Open
      · have sent := (enqueue_accepted held data).mpr ready
        simp only [mine, sent, and_self, if_true, ProxyConn.offer, if_pos ready.1,
          ProxyConn.deliver, dif_pos ready.2, ProxyConn.queued_append]
        rw [← List.append_assoc, List.drop_append_of_le_length bounded, queue]
        refine ⟨rfl, bounded.trans ?_⟩
        simp
      · have refused : ¬ (bleGattEnqueueFromradio g conn data).2 = none :=
          fun sent => ready ((enqueue_accepted held data).mp sent)
        simp only [mine, refused, and_false, if_true, if_false, offer_refused held refused]
        exact ⟨queue, bounded⟩
    · simp only [mine, false_and, if_false]
      exact ⟨queue, bounded⟩
  | replay target nonce =>
    simp only [ProxyConn.after, if_neg (show ¬ target = conn from still), Tally.offer]
    exact ⟨queue, bounded⟩
  | park target nonce =>
    simp only [ProxyConn.after, if_neg (show ¬ target = conn from still), Tally.offer]
    exact ⟨queue, bounded⟩
  | read cache reader len offset =>
    simp only [ProxyConn.after, if_neg (show ¬ (reader = conn ∧ offset = 0) from still), Tally.offer]
    exact ⟨queue, bounded⟩
  | disconnected left =>
    simp only [ProxyConn.after, if_neg (show ¬ left = conn from still), Tally.offer]
    exact ⟨queue, bounded⟩
  | register target id =>
    simp only [ProxyConn.after, Tally.offer]
    split_ifs <;> exact ⟨queue, bounded⟩
  | requestTeardown target =>
    simp only [ProxyConn.after, Tally.offer]
    split_ifs <;> exact ⟨queue, bounded⟩
  | teardown slot =>
    simp only [ProxyConn.after, Tally.offer]
    split_ifs <;> exact ⟨queue, bounded⟩
  | encodeReply => exact ⟨queue, bounded⟩
  | connected => exact ⟨queue, bounded⟩

theorem offer_reads (g : Gatt n) (conn : BtConn) (t : Tally) (call : GattCall n) :
    (t.offer g conn call).reads = t.reads ∧ (t.offer g conn call).taken = t.taken := by
  cases call with
  | enqueue target data =>
    simp only [Tally.offer]
    split_ifs <;> exact ⟨rfl, rfl⟩
  | _ => exact ⟨rfl, rfl⟩

theorem Stands.other {owed queued : List Bytes} {t : Tally} (held : Held g i conn)
    (stands : Stands c owed queued t (g.conns i)) (call : GattCall n) (still : ¬ call.Turns conn) :
    Stands c owed queued (t.offer g conn call) ((g.conns i).after p i conn call) := by
  obtain ⟨replay, closing, state, queue, untouched, bounded⟩ := stands
  have position := position_after (p := p) (i := i) (g.conns i) still
  have box := mailbox_of_position (c := c) position
  obtain ⟨reads, taken⟩ := offer_reads g conn t call
  obtain ⟨grown, within⟩ := queued_offer (p := p) held call queue bounded still
  refine ⟨?_, ?_, ?_, ?_, ?_, ?_⟩
  · rw [box, reads]
    exact replay
  · rw [box, reads]
    exact closing
  · rw [reads]
    exact (congrArg ReplayPosition.state position).trans state
  · rw [taken]
    exact grown
  · rw [reads, taken]
    exact untouched
  · rw [taken]
    exact within

section
variable (documented : p.Documented)
include documented

theorem visit_step {owed queued : List Bytes} (s : Gatt n × Tally) (visit : Visit n)
    (kept : Held s.1 i conn ∧ Stands c owed queued s.2 (s.1.conns i))
    (enabled : (visits n p c conn owed queued).enabled s visit) :
    Held ((visits n p c conn owed queued).next s visit).1 i conn ∧
      Stands c owed queued ((visits n p c conn owed queued).next s visit).2
        (((visits n p c conn owed queued).next s visit).1.conns i) := by
  obtain ⟨held, stands⟩ := kept
  cases visit with
  | read len =>
    refine ⟨held.call documented (.read c conn len 0) trivial trivial, ?_⟩
    have slot := call_slot documented held.distinct held.holds (.read c conn len 0)
    have staged : (fromradioRead p c s.1 conn len 0).1.conns i = stageNext c (s.1.conns i) := by
      refine slot.trans ?_
      simp only [ProxyConn.after, and_self, if_true]
    simp only [visits, staged]
    exact stands.read.1
  | other call =>
    obtain ⟨ready, still⟩ := enabled
    refine ⟨held.call documented call ready (GattCall.spares_of_still still), ?_⟩
    simp only [visits, call_slot documented held.distinct held.holds call]
    exact stands.other held call still

theorem reads_due {owed queued : List Bytes} (s : Gatt n × Tally) (visit : Visit n)
    (kept : Held s.1 i conn ∧ Stands c owed queued s.2 (s.1.conns i)) :
    ReadsDue p c conn owed queued s visit := by
  cases visit with
  | read len =>
    have answer := fresh_answer documented kept.1 c len
    rw [kept.2.read.2] at answer
    exact answer
  | other call => trivial

/-- From any state of the server and any queue of the phone, once the replay is
armed for a nonce other than zero: the fresh reads return the script and then
nothing, which makes the phone ACTIVE after at most two reads more than the
cache has frames, and then the live packets in order, none taken earlier. -/
theorem replay_serves_script (reached : (gattSystem n p).Reachable (.zero n) g)
    (tracked : findSlot g conn = some i) {nonce : UInt32} (asked : nonce ≠ 0) (c : ConfigCache)
    (made : List (Visit n))
    (runs : (visits n p c conn (script p c nonce) (g.conns i).queued).Runs
      (bleGattReplayCachedBurst p g conn nonce, .zero) made) :
    (visits n p c conn (script p c nonce) (g.conns i).queued).Along
        (ReadsDue p c conn (script p c nonce) (g.conns i).queued)
        (bleGattReplayCachedBurst p g conn nonce, .zero) made ∧
      OnScript i conn (script p c nonce) (g.conns i).queued
        ((visits n p c conn (script p c nonce) (g.conns i).queued).run
          (bleGattReplayCachedBurst p g conn nonce, .zero) made) ∧
      (script p c nonce).length + 1 ≤ cacheFrameCount c + 2 := by
  have before : Held g i conn := ⟨gatt_distinct documented reached, find_slot_some tracked⟩
  have held : Held (bleGattReplayCachedBurst p g conn nonce) i conn :=
    before.call documented (.replay conn nonce) trivial trivial
  have armed : (bleGattReplayCachedBurst p g conn nonce).conns i = (g.conns i).arm p nonce := by
    refine (call_slot documented before.distinct before.holds (.replay conn nonce)).trans ?_
    simp only [ProxyConn.after, if_true, if_pos asked]
  have initial := And.intro held (armed ▸ stands_armed (c := c) (g.conns i) nonce)
  refine ⟨?_, ?_, ?_⟩
  · exact Machine.along_of_invariant (visit_step documented)
      (fun s visit kept _ => reads_due documented s visit kept) made initial runs
  · obtain ⟨held, stands⟩ := Machine.invariant (visit_step documented) made initial runs
    exact ⟨held.found, stands.state, stands.queue, stands.untouched⟩
  · have segment := List.length_filter_le (cacheFrameInSegment c · nonce)
      (List.range (cacheFrameCount c))
    simp only [List.length_range] at segment
    simp only [script, List.length_append, List.length_map, List.length_singleton]
    omega

end

/-- Two phones; phone 7 has a packet queued, asks for the nodes and reads to the
end, with packets arriving and a long read in between. -/
def readSchedule : List (Visit 2) :=
  [.read 64, .other (.enqueue 7 [2, 3]), .read 1, .other (.read .zero 7 64 1),
    .other (.replay 6 9), .read 64, .read 64, .read 64, .read 64]

def burst : ConfigCache :=
  ([([0x2a, 0], .config), ([0x22, 0], .nodeInfo)] : List (Bytes × FromRadioTag)).foldl
    (fun c frame => (cacheAddFrame c frame.1 frame.2).1) .zero

def phones : Gatt 2 :=
  (gattSystem 2 .wire).run (.zero 2)
    [.connected 7 false, .connected 6 false, .enqueue 7 [1]]

theorem nodes_replay_served :
    (visits 2 .wire burst 7 (script .wire burst 69421) (phones.conns 0).queued).Along
        (ReadsDue .wire burst 7 (script .wire burst 69421) (phones.conns 0).queued)
        (bleGattReplayCachedBurst .wire phones 7 69421, .zero) readSchedule ∧
      script .wire burst 69421 = [[0x22, 0], [0x38, 0xad, 0x9e, 4]] ∧
      (phones.conns 0).queued = [[1]] :=
  have reached : (gattSystem 2 .wire).Reachable (.zero 2) phones := ⟨_, by decide, rfl⟩
  have tracked : findSlot phones 7 = some 0 := by decide
  have asked : (69421 : UInt32) ≠ 0 := by decide
  have held := replay_serves_script wire_documented reached tracked asked burst readSchedule
    (by decide)
  ⟨held.1, by decide, by decide⟩

end MeshPbx
