import MeshPbx.Mailbox
import Mathlib.Logic.Relation

/-! The effects of the GATT server on its slot table. Each function is a
sequence of a few kinds of change to one slot at a time, so what every change
preserves, every function preserves. -/
namespace MeshPbx
variable {n : Nat} {g g' : Gatt n} {i j : Fin n} {conn : BtConn}

namespace Gatt

@[simp] theorem conns_setConn_same (pc : ProxyConn) : (g.setConn i pc).conns i = pc := by
  simp [setConn]

theorem conns_setConn_ne (pc : ProxyConn) (other : j ≠ i) :
    (g.setConn i pc).conns j = g.conns j := by
  simp [setConn, Function.update_of_ne other]

@[simp] theorem setConn_eq (g : Gatt n) (i : Fin n) : g.setConn i (g.conns i) = g := by
  simp [setConn]

@[simp] theorem conns_call (call : BtCall) : (g.call call).conns = g.conns := rfl

@[simp] theorem queueStatusReply_setConn (pc : ProxyConn) :
    (g.setConn i pc).queueStatusReply = g.queueStatusReply := rfl

@[simp] theorem queueStatusReply_call (call : BtCall) :
    (g.call call).queueStatusReply = g.queueStatusReply := rfl

/-- Some slot holds the pointer. -/
def Tracks (g : Gatt n) (conn : BtConn) : Prop := ∃ i, (g.conns i).conn = some conn

/-- No pointer is held by two slots. -/
def Distinct (g : Gatt n) : Prop :=
  ∀ i j conn, (g.conns i).conn = some conn → (g.conns j).conn = some conn → i = j

end Gatt

theorem find_slot_some (found : findSlot g conn = some i) : (g.conns i).conn = some conn := by
  simpa using List.find?_some found

theorem find_slot_none : findSlot g conn = none ↔ ¬ g.Tracks conn := by
  simp [findSlot, Gatt.Tracks]

/-- With distinct pointers the lookup returns the slot that holds the pointer. -/
theorem find_slot_of_distinct (distinct : g.Distinct) (holds : (g.conns i).conn = some conn) :
    findSlot g conn = some i := by
  cases found : findSlot g conn with
  | none => exact absurd ⟨i, holds⟩ (find_slot_none.mp found)
  | some j => rw [distinct j i conn (find_slot_some found) holds]

/-- Changing a slot without changing whose it is leaves every slot with its holder. -/
theorem Gatt.holder_setConn {pc : ProxyConn} (same : pc.conn = (g.conns i).conn) (j : Fin n) :
    ((g.setConn i pc).conns j).conn = (g.conns j).conn := by
  by_cases here : j = i
  · subst here
    rw [Gatt.conns_setConn_same, same]
  · rw [Gatt.conns_setConn_ne pc here]

theorem find_slot_setConn {pc : ProxyConn} (same : pc.conn = (g.conns i).conn) :
    findSlot (g.setConn i pc) conn = findSlot g conn := by
  simp only [findSlot, Gatt.holder_setConn same]

@[simp] theorem find_slot_call (call : BtCall) : findSlot (g.call call) conn = findSlot g conn :=
  rfl

namespace ProxyConn

def append (pc : ProxyConn) (room : pc.queue.count < FROMRADIO_QUEUE_DEPTH) (data : Bytes) :
    ProxyConn :=
  { pc with
    queue := pc.queue.push room
      ⟨(pc.queue.slots pc.queue.tail).data.write 0 data, data.length⟩
    fromnum := pc.fromnum + 1 }

def arm (p : Platform) (pc : ProxyConn) (nonce : UInt32) : ProxyConn :=
  { pc with
    nonce := nonce
    ccFrame := pc.ccFrame.write 0 (p.fromRadioBytes (.configComplete nonce))
    ccLen := (p.fromRadioBytes (.configComplete nonce)).length
    replayCursor := 0
    state := .replaying
    fromnum := pc.fromnum + 1 }

/-- The reset shared by allocation and release. -/
def reset (pc : ProxyConn) (conn : Option BtConn) : ProxyConn :=
  { pc with
    conn := conn
    proxyId := .zero
    fromnum := 0
    queue := .empty pc.queue.slots
    stagedLen := 0
    state := .connected
    leaving := false
    nonce := 0
    replayCursor := 0 }

/-- A connection that would accept one more packet. -/
def Open (pc : ProxyConn) : Prop :=
  pc.conn ≠ none ∧ pc.leaving = false ∧ pc.queue.count < FROMRADIO_QUEUE_DEPTH

instance (pc : ProxyConn) : Decidable pc.Open := inferInstanceAs (Decidable (_ ∧ _ ∧ _))

@[simp] theorem queued_append (pc : ProxyConn) (room : pc.queue.count < FROMRADIO_QUEUE_DEPTH)
    (data : Bytes) : (pc.append room data).queued = pc.queued ++ [data] := by
  simp only [queued, append, RingQueue.contents_push, List.map_append, List.map_cons, List.map_nil,
    PktEntry.bytes, ByteBuffer.read_write_same]

@[simp] theorem ccBytes_arm (p : Platform) (pc : ProxyConn) (nonce : UInt32) :
    (pc.arm p nonce).ccBytes = p.fromRadioBytes (.configComplete nonce) := by
  simp only [ccBytes, arm, ByteBuffer.read_write_same]

@[simp] theorem queued_arm (p : Platform) (pc : ProxyConn) (nonce : UInt32) :
    (pc.arm p nonce).queued = pc.queued := rfl

@[simp] theorem queued_reset (pc : ProxyConn) (conn : Option BtConn) :
    (pc.reset conn).queued = [] := rfl

end ProxyConn

/-- One change to a slot. `Offered` holds of the packets that may be queued. -/
inductive SlotStep (p : Platform) (c : ConfigCache) (Offered : Bytes → Prop) :
    ProxyConn → ProxyConn → Prop
  | append (pc : ProxyConn) (data : Bytes) (ready : pc.Open) (offered : Offered data) :
      SlotStep p c Offered pc (pc.append ready.2.2 data)
  | arm (pc : ProxyConn) (nonce : UInt32) (tracked : pc.conn ≠ none) :
      SlotStep p c Offered pc (pc.arm p nonce)
  | stage (pc : ProxyConn) : SlotStep p c Offered pc (stageNext c pc)
  | register (pc : ProxyConn) (id : ProxyId) : SlotStep p c Offered pc { pc with proxyId := id }
  | leave (pc : ProxyConn) : SlotStep p c Offered pc
      { pc with leaving := true, teardownWork := some TEARDOWN_DELAY_MS }
  | expire (pc : ProxyConn) : SlotStep p c Offered pc { pc with teardownWork := none }
  | free (pc : ProxyConn) : SlotStep p c Offered pc ({ pc with teardownWork := none }.reset none)

inductive GattStep (p : Platform) (c : ConfigCache) (Offered : Bytes → Prop) :
    Gatt n → Gatt n → Prop
  | slot (g : Gatt n) (i : Fin n) (pc : ProxyConn) (step : SlotStep p c Offered (g.conns i) pc) :
      GattStep p c Offered g (g.setConn i pc)
  | connect (g : Gatt n) (i : Fin n) (conn : BtConn) (fresh : ¬ g.Tracks conn) :
      GattStep p c Offered g (g.setConn i ((g.conns i).reset (some conn)))
  | call (g : Gatt n) (call : BtCall) : GattStep p c Offered g (g.call call)
  | count (g : Gatt n) (active : Nat) :
      GattStep p c Offered g { g with activeConnCount := active }
  | reply (g : Gatt n) : GattStep p c Offered g
      { g with queueStatusReply := p.fromRadioBytes .syntheticQueueStatus }

def Effects (p : Platform) (c : ConfigCache) (Offered : Bytes → Prop) : Gatt n → Gatt n → Prop :=
  Relation.ReflTransGen (GattStep p c Offered)

variable {p : Platform} {c : ConfigCache} {Offered : Bytes → Prop} {data : Bytes} {nonce : UInt32}

theorem stage_next_conn (c : ConfigCache) (pc : ProxyConn) : (stageNext c pc).conn = pc.conn := by
  cases source : stageSource c pc with
  | cached i => rw [(stage_cached source).2]
  | complete => rw [(stage_complete source).2]
  | queued =>
    obtain ⟨_, _, staged⟩ := stage_queued source
    rw [staged]
  | nothing =>
    rcases stage_nothing source with ⟨_, _, staged⟩ | ⟨_, _, staged⟩
    · rw [staged]
    · rw [staged]

/-- Only releasing a slot changes whose it is. -/
theorem SlotStep.holder {pc pc' : ProxyConn} (step : SlotStep p c Offered pc pc') :
    pc'.conn = pc.conn ∨ pc'.conn = none := by
  cases step with
  | stage => exact .inl (stage_next_conn c pc)
  | free => exact .inr rfl
  | _ => exact .inl rfl

theorem GattStep.distinct (step : GattStep p c Offered g g') (distinct : g.Distinct) :
    g'.Distinct := by
  cases step with
  | slot i pc step =>
    have holds : ∀ j conn, ((g.setConn i pc).conns j).conn = some conn →
        (g.conns j).conn = some conn := by
      intro j conn held
      by_cases same : j = i
      · subst same
        rw [Gatt.conns_setConn_same] at held
        rcases step.holder with kept | freed
        · rw [← kept, held]
        · rw [freed] at held
          contradiction
      · rwa [Gatt.conns_setConn_ne pc same] at held
    exact fun j k conn left right => distinct j k conn (holds j conn left) (holds k conn right)
  | connect i conn fresh =>
    intro j k other left right
    by_cases first : j = i <;> by_cases second : k = i
    · rw [first, second]
    · subst first
      rw [Gatt.conns_setConn_same] at left
      rw [Gatt.conns_setConn_ne _ second] at right
      cases left
      exact absurd ⟨k, right⟩ fresh
    · subst second
      rw [Gatt.conns_setConn_ne _ first] at left
      rw [Gatt.conns_setConn_same] at right
      cases right
      exact absurd ⟨j, left⟩ fresh
    · rw [Gatt.conns_setConn_ne _ first] at left
      rw [Gatt.conns_setConn_ne _ second] at right
      exact distinct j k other left right
  | _ => exact distinct

theorem Effects.distinct (effects : Effects p c Offered g g') (distinct : g.Distinct) :
    g'.Distinct := by
  induction effects with
  | refl => exact distinct
  | tail _ step ih => exact step.distinct ih

/-! What each function does. -/

/-- The locked section asks only that the slot is not leaving and has room. -/
theorem enqueue_locked_append (stays : (g.conns i).leaving = false)
    (room : (g.conns i).queue.count < FROMRADIO_QUEUE_DEPTH) (conn : BtConn) (data : Bytes) :
    enqueueLocked g i conn data =
      (notifyFromnum (g.setConn i ((g.conns i).append room data)) conn
        ((g.conns i).fromnum + 1), none) := by
  have notFull : ¬ (g.conns i).queue.count ≥ FROMRADIO_QUEUE_DEPTH := Nat.not_le_of_lt room
  simp only [enqueueLocked, stays, dif_neg notFull, ProxyConn.append, Bool.false_eq_true, if_false]

theorem enqueue_locked_open (ready : (g.conns i).Open) (conn : BtConn) (data : Bytes) :
    enqueueLocked g i conn data =
      (notifyFromnum (g.setConn i ((g.conns i).append ready.2.2 data)) conn
        ((g.conns i).fromnum + 1), none) :=
  enqueue_locked_append ready.2.1 ready.2.2 conn data

theorem enqueue_locked_other (other : j ≠ i) (conn : BtConn) (data : Bytes) :
    (enqueueLocked g i conn data).1.conns j = g.conns j := by
  unfold enqueueLocked
  dsimp only
  split_ifs with leaving full
  · rfl
  · rfl
  · exact Gatt.conns_setConn_ne _ other

theorem enqueue_locked_holder (conn : BtConn) (data : Bytes) (j : Fin n) :
    ((enqueueLocked g i conn data).1.conns j).conn = (g.conns j).conn := by
  unfold enqueueLocked
  dsimp only
  split_ifs with leaving full
  · rfl
  · rfl
  · simp only [notifyFromnum, Gatt.conns_call]
    exact Gatt.holder_setConn (by rfl) j

/-- A slot that cannot accept a packet refuses it, and at most a doorbell rings. -/
theorem enqueue_locked_closed (tracked : (g.conns i).conn ≠ none) (closed : ¬ (g.conns i).Open)
    (conn : BtConn) (data : Bytes) :
    ((enqueueLocked g i conn data).1 = g ∨
      (enqueueLocked g i conn data).1 = notifyFromnum g conn (g.conns i).fromnum) ∧
      (enqueueLocked g i conn data).2 ≠ none := by
  by_cases leaving : (g.conns i).leaving = true
  · simp [enqueueLocked, leaving]
  · have full : (g.conns i).queue.count ≥ FROMRADIO_QUEUE_DEPTH := by
      by_contra room
      exact closed ⟨tracked, by simpa using leaving, Nat.lt_of_not_le room⟩
    simp [enqueueLocked, leaving, full]

theorem enqueue_locked_effects (tracked : (g.conns i).conn ≠ none)
    (offered : (g.conns i).Open → Offered data) (conn : BtConn) :
    Effects p c Offered g (enqueueLocked g i conn data).1 := by
  by_cases ready : (g.conns i).Open
  · rw [enqueue_locked_open ready]
    have appended : Effects p c Offered g (g.setConn i ((g.conns i).append ready.2.2 data)) :=
      .single (.slot g i _ (.append _ _ ready (offered ready)))
    exact appended.tail (.call _ _)
  · rcases (enqueue_locked_closed tracked ready conn data).1 with same | rung
    · rw [same]
      exact .refl
    · rw [rung]
      exact .single (.call _ _)

theorem enqueue_effects (offered : (∃ i, (g.conns i).Open) → Offered data) (conn : BtConn) :
    Effects p c Offered g (bleGattEnqueueFromradio g conn data).1 := by
  unfold bleGattEnqueueFromradio
  split_ifs with long
  · exact .refl
  · cases found : findSlot g conn with
    | none => exact .refl
    | some i =>
      have tracked : (g.conns i).conn ≠ none := by simp [find_slot_some found]
      exact enqueue_locked_effects tracked (fun ready => offered ⟨i, ready⟩) conn

theorem enqueue_closed (closed : ∀ i, ¬ (g.conns i).Open) (conn : BtConn) (data : Bytes) :
    (bleGattEnqueueFromradio g conn data).1.conns = g.conns := by
  unfold bleGattEnqueueFromradio
  split_ifs with long
  · rfl
  · cases found : findSlot g conn with
    | none => rfl
    | some i =>
      have tracked : (g.conns i).conn ≠ none := by simp [find_slot_some found]
      rcases (enqueue_locked_closed tracked (closed i) conn data).1 with same | rung
      · rw [same]
      · rw [rung]
        rfl

/-- A broadcast that no slot can accept offers its packet to nobody. -/
theorem broadcast_effects (offered : (∃ i, (g.conns i).Open) → Offered data) :
    Effects p c Offered g (bleGattBroadcastFromradio g data).1 := by
  have fold : ∀ (slots : List (Fin n)) (acc : Gatt n × Nat),
      Effects p c Offered g acc.1 ∧ ((∃ i, (acc.1.conns i).Open) → Offered data) →
        Effects p c Offered g (slots.foldl (broadcastOne data) acc).1 := by
    intro slots
    induction slots with
    | nil => exact fun acc before => before.1
    | cons i slots ih =>
      intro acc before
      apply ih
      unfold broadcastOne
      split
      · exact before
      · rename_i conn _
        refine ⟨before.1.trans (enqueue_effects before.2 conn), fun later => ?_⟩
        by_cases ready : ∃ i, (acc.1.conns i).Open
        · exact before.2 ready
        · have same := enqueue_closed (not_exists.mp ready) conn data
          rw [same] at later
          exact absurd later ready
  exact fold _ _ ⟨.refl, offered⟩

section
variable (documented : p.Documented)
include documented

/-- Arming stores the phone's own nonce, or keeps the one it parked with. -/
theorem replay_tracked (found : findSlot g conn = some i) (nonce : UInt32) :
    bleGattReplayCachedBurst p g conn nonce =
      (g.setConn i ((g.conns i).arm p (if nonce ≠ 0 then nonce else (g.conns i).nonce))).call
        (.notifyFromnum conn ((g.conns i).fromnum + 1)) := by
  simp only [bleGattReplayCachedBurst, found, encode_config_complete documented, ne_eq,
    not_true_eq_false, if_false, ProxyConn.arm]

theorem replay_effects (g : Gatt n) (conn : BtConn) (nonce : UInt32) :
    Effects p c Offered g (bleGattReplayCachedBurst p g conn nonce) := by
  cases found : findSlot g conn with
  | none =>
    simp only [bleGattReplayCachedBurst, found]
    exact .refl
  | some i =>
    have tracked : (g.conns i).conn ≠ none := by simp [find_slot_some found]
    rw [replay_tracked documented found]
    exact (Relation.ReflTransGen.single (.slot g i _ (.arm _ _ tracked))).tail (.call _ _)

theorem reply_queuestatus_effects (g : Gatt n) (conn : BtConn)
    (kept : g.queueStatusReply = [] ∨ g.queueStatusReply = p.fromRadioBytes .syntheticQueueStatus)
    (offered : Offered (p.fromRadioBytes .syntheticQueueStatus)) :
    Effects p c Offered g (bleGattReplyQueuestatus p g conn) := by
  simp only [bleGattReplyQueuestatus, encode_queue_status documented, ne_eq, not_true_eq_false,
    if_false]
  split_ifs with unset
  · exact (Relation.ReflTransGen.single (.reply g)).trans (enqueue_effects (fun _ => offered) conn)
  · rcases kept with empty | known
    · exact absurd (by rw [empty]; rfl) unset
    · rw [known]
      exact enqueue_effects (fun _ => offered) conn

end

theorem read_effects (g : Gatt n) (conn : BtConn) (len offset : Nat) :
    Effects p c Offered g (fromradioRead p c g conn len offset).1 := by
  unfold fromradioRead
  split
  · exact .refl
  · rename_i i _
    split_ifs with fresh
    · exact .single (.slot g i _ (.stage _))
    · simp only [Gatt.setConn_eq]
      exact .refl

theorem node_reg_effects (g : Gatt n) (conn : BtConn) (buf : Bytes) (offset : Nat) :
    Effects p c Offered g (nodeRegWrite g conn buf offset).1 := by
  unfold nodeRegWrite
  split_ifs with malformed
  · exact .refl
  · unfold bleGattRegisterProxyId
    split
    · exact .refl
    · exact .single (.slot _ _ _ (.register _ _))

theorem request_teardown_effects (g : Gatt n) (conn : BtConn) :
    Effects p c Offered g (bleGattRequestTeardown g conn).1 := by
  unfold bleGattRequestTeardown
  split
  · exact .refl
  · exact .single (.slot _ _ _ (.leave _))

theorem teardown_effects (g : Gatt n) (i : Fin n) :
    Effects p c Offered g (teardownWorkHandler g i) := by
  unfold teardownWorkHandler
  split
  · exact .refl
  · split_ifs
    · exact .single (.call _ _)
    · exact .refl

theorem connected_effects (fresh : findSlot g conn = none) (err : Bool) :
    Effects p c Offered g (onConnected g conn err) := by
  unfold onConnected
  split_ifs
  · exact .refl
  · unfold allocSlot
    cases found : (List.finRange n).find? (fun i => (g.conns i).conn = none) with
    | none => exact .single (.call _ _)
    | some i =>
      simp only [Option.map_some]
      have opened : Effects p c Offered g
          (g.setConn i ((g.conns i).reset (some conn))) :=
        .single (.connect g i conn (find_slot_none.mp fresh))
      split_ifs
      · exact (opened.tail (.count _ _)).tail (.call _ _)
      · exact opened.tail (.count _ _)

theorem disconnected_effects (g : Gatt n) (conn : BtConn) :
    Effects p c Offered g (onDisconnected g conn) := by
  unfold onDisconnected
  split
  · exact .single (.call _ _)
  · rename_i i _
    have freed : Effects p c Offered g (freeSlot g i) := .single (.slot g i _ (.free _))
    exact (freed.tail (.count _ _)).tail (.call _ _)

end MeshPbx
