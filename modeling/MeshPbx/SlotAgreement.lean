import MeshPbx.GattCalls

/-! Two slot tables that agree outside the slots of some connections. Every call
that both tables make keeps the agreement and rings the same bells elsewhere,
and a call that one of those connections makes for itself disturbs nobody. -/
namespace MeshPbx
variable {n : Nat} {p : Platform} {g g' h h' k k' : Gatt n} {mine : List BtConn}
variable {pc pc' : ProxyConn} {conn : BtConn}

/-- Two slots that show their phone the same, now and later. The bytes behind
the queue, the staged packet and a closed replay are left out. -/
structure Alike (pc pc' : ProxyConn) : Prop where
  fromnum : pc.fromnum = pc'.fromnum
  state : pc.state = pc'.state
  nonce : pc.nonce = pc'.nonce
  cursor : pc.replayCursor = pc'.replayCursor
  queued : pc.queued = pc'.queued
  staged : pc.stagedBytes = pc'.stagedBytes
  complete : pc.state = .replaying → pc.ccBytes = pc'.ccBytes

/-- What other connections can notice of a slot: its holder, its registered
identifier and its teardown. -/
structure SameFace (pc pc' : ProxyConn) : Prop where
  conn : pc.conn = pc'.conn
  proxyId : pc.proxyId = pc'.proxyId
  leaving : pc.leaving = pc'.leaving
  teardownWork : pc.teardownWork = pc'.teardownWork

/-- The slots that one of `mine` holds may differ behind the same face. -/
structure SlotAgree (mine : List BtConn) (pc pc' : ProxyConn) : Prop where
  face : SameFace pc pc'
  alike : (∀ a ∈ mine, pc.conn ≠ some a) → Alike pc pc'

structure GattAgree (mine : List BtConn) (g g' : Gatt n) : Prop where
  slots : ∀ i, SlotAgree mine (g.conns i) (g'.conns i)
  active : g.activeConnCount = g'.activeConnCount

/-- Not a FROMNUM notification to one of `mine`. -/
def BtCall.elsewhere (mine : List BtConn) : BtCall → Bool
  | .notifyFromnum conn _ => conn ∉ mine
  | .disconnect _ _ | .advStart => true

/-- From `g` and `g'` the tables `h` and `h'` are reached, which agree, with the
same calls into the BLE stack elsewhere. -/
structure Echo (mine : List BtConn) (g g' h h' : Gatt n) : Prop where
  agree : GattAgree mine h h'
  bells : ∃ new new', h.btCalls = g.btCalls ++ new ∧ h'.btCalls = g'.btCalls ++ new' ∧
    new.filter (BtCall.elsewhere mine) = new'.filter (BtCall.elsewhere mine)

theorem Alike.symm (alike : Alike pc pc') : Alike pc' pc where
  fromnum := alike.fromnum.symm
  state := alike.state.symm
  nonce := alike.nonce.symm
  cursor := alike.cursor.symm
  queued := alike.queued.symm
  staged := alike.staged.symm
  complete replaying := (alike.complete (alike.state.trans replaying)).symm

theorem SameFace.symm (same : SameFace pc pc') : SameFace pc' pc :=
  ⟨same.conn.symm, same.proxyId.symm, same.leaving.symm, same.teardownWork.symm⟩

theorem SameFace.trans {other : ProxyConn} (first : SameFace pc pc')
    (second : SameFace pc' other) : SameFace pc other :=
  ⟨first.conn.trans second.conn, first.proxyId.trans second.proxyId,
    first.leaving.trans second.leaving, first.teardownWork.trans second.teardownWork⟩

theorem SlotAgree.symm (agree : SlotAgree mine pc pc') : SlotAgree mine pc' pc where
  face := agree.face.symm
  alike others :=
    (agree.alike (fun a member => by rw [agree.face.conn]; exact others a member)).symm

theorem GattAgree.symm (agree : GattAgree mine g g') : GattAgree mine g' g :=
  ⟨fun i => (agree.slots i).symm, agree.active.symm⟩

theorem Echo.symm (echo : Echo mine g g' h h') : Echo mine g' g h' h := by
  obtain ⟨new, new', first, second, same⟩ := echo.bells
  exact ⟨echo.agree.symm, new', new, second, first, same.symm⟩

theorem Echo.refl (agree : GattAgree mine g g') : Echo mine g g' g g' :=
  ⟨agree, [], [], by simp, by simp, rfl⟩

theorem Echo.trans (first : Echo mine g g' h h') (second : Echo mine h h' k k') :
    Echo mine g g' k k' := by
  obtain ⟨new, new', left, right, same⟩ := first.bells
  obtain ⟨more, more', left', right', same'⟩ := second.bells
  refine ⟨second.agree, new ++ more, new' ++ more', ?_, ?_, ?_⟩
  · rw [left', left, List.append_assoc]
  · rw [right', right, List.append_assoc]
  · rw [List.filter_append, List.filter_append, same, same']

/-! One slot. -/

theorem Alike.count (alike : Alike pc pc') : pc.queue.count = pc'.queue.count := by
  have lengths := congrArg List.length alike.queued
  simpa [ProxyConn.queued] using lengths

theorem Alike.stage (alike : Alike pc pc') (cache : ConfigCache) :
    Alike (stageNext cache pc) (stageNext cache pc') := by
  have next : replayNext cache pc = replayNext cache pc' := by
    simp only [replayNext, alike.nonce, alike.cursor]
  have same : stageSource cache pc = stageSource cache pc' := by
    simp only [stageSource, alike.state, next, alike.count]
  cases source : stageSource cache pc with
  | cached i =>
    rw [(stage_cached source).2, (stage_cached (same ▸ source)).2]
    exact ⟨alike.fromnum, alike.state, alike.nonce, rfl, alike.queued,
      by simp only [ProxyConn.stagedBytes, staged_write], alike.complete⟩
  | complete =>
    have bytes := alike.complete (stage_complete source).1.1
    rw [(stage_complete source).2, (stage_complete (same ▸ source)).2]
    exact ⟨alike.fromnum, alike.state, alike.nonce, rfl, alike.queued,
      by simp only [ProxyConn.stagedBytes, staged_write, bytes], alike.complete⟩
  | queued =>
    obtain ⟨_, filled, staged⟩ := stage_queued source
    obtain ⟨_, filled', staged'⟩ := stage_queued (same ▸ source)
    have contents := alike.queued
    simp only [ProxyConn.queued, RingQueue.contents_pop _ filled, RingQueue.contents_pop _ filled',
      List.map_cons, List.cons.injEq] at contents
    rw [staged, staged']
    exact ⟨alike.fromnum, alike.state, alike.nonce, alike.cursor, contents.2,
      by simp only [ProxyConn.stagedBytes, staged_write, contents.1], alike.complete⟩
  | nothing =>
    rcases stage_nothing source with ⟨replaying, _, staged⟩ | ⟨idle, _, staged⟩ <;>
      rcases stage_nothing (same ▸ source) with ⟨replaying', _, staged'⟩ | ⟨idle', _, staged'⟩
    · rw [staged, staged']
      exact ⟨alike.fromnum, rfl, alike.nonce, alike.cursor, alike.queued,
        by simp [ProxyConn.stagedBytes], fun replaying => by cases replaying⟩
    · exact absurd (alike.state ▸ replaying) idle'
    · exact absurd (alike.state ▸ replaying') idle
    · rw [staged, staged']
      exact ⟨alike.fromnum, alike.state, alike.nonce, alike.cursor, alike.queued,
        by simp [ProxyConn.stagedBytes], alike.complete⟩

theorem Alike.append (alike : Alike pc pc') (room : pc.queue.count < FROMRADIO_QUEUE_DEPTH)
    (room' : pc'.queue.count < FROMRADIO_QUEUE_DEPTH) (data : Bytes) :
    Alike (pc.append room data) (pc'.append room' data) := by
  refine ⟨?_, alike.state, alike.nonce, alike.cursor, ?_, alike.staged, alike.complete⟩
  · simp only [ProxyConn.append, alike.fromnum]
  · rw [ProxyConn.queued_append, ProxyConn.queued_append, alike.queued]

/-- A packet is taken by both or by neither. -/
theorem Alike.offer (alike : Alike pc pc') (ready : pc.Open ↔ pc'.Open) (data : Bytes) :
    Alike (pc.offer data) (pc'.offer data) := by
  unfold ProxyConn.offer ProxyConn.deliver
  by_cases short : data.length ≤ FROMRADIO_MAX_PKT_SIZE
  · rw [if_pos short, if_pos short]
    by_cases opened : pc.Open
    · rw [dif_pos opened, dif_pos (ready.mp opened)]
      exact alike.append _ _ data
    · rw [dif_neg opened, dif_neg (fun opened' => opened (ready.mpr opened'))]
      exact alike
  · rw [if_neg short, if_neg short]
    exact alike

theorem Alike.arm (alike : Alike pc pc') (nonce : UInt32) :
    Alike (pc.arm p nonce) (pc'.arm p nonce) := by
  refine ⟨?_, rfl, rfl, rfl, alike.queued, alike.staged, fun _ => ?_⟩
  · simp only [ProxyConn.arm, alike.fromnum]
  · rw [ProxyConn.ccBytes_arm, ProxyConn.ccBytes_arm]

/-- The fields that only other connections can notice do not matter. -/
theorem Alike.relabel (alike : Alike pc pc') (id : ProxyId) (leaving : Bool) (work : Delayable) :
    Alike { pc with proxyId := id, leaving := leaving, teardownWork := work } pc' :=
  ⟨alike.fromnum, alike.state, alike.nonce, alike.cursor, alike.queued, alike.staged, alike.complete⟩

theorem alike_reset (pc pc' : ProxyConn) (conn : Option BtConn) :
    Alike (pc.reset conn) (pc'.reset conn) :=
  ⟨rfl, rfl, rfl, rfl, by rw [ProxyConn.queued_reset, ProxyConn.queued_reset],
    by simp [ProxyConn.stagedBytes, ProxyConn.reset], fun replaying => by cases replaying⟩

theorem stage_face (cache : ConfigCache) (pc : ProxyConn) : SameFace (stageNext cache pc) pc := by
  cases source : stageSource cache pc with
  | cached i =>
    rw [(stage_cached source).2]
    exact ⟨rfl, rfl, rfl, rfl⟩
  | complete =>
    rw [(stage_complete source).2]
    exact ⟨rfl, rfl, rfl, rfl⟩
  | queued =>
    obtain ⟨_, _, staged⟩ := stage_queued source
    rw [staged]
    exact ⟨rfl, rfl, rfl, rfl⟩
  | nothing =>
    rcases stage_nothing source with ⟨_, _, staged⟩ | ⟨_, _, staged⟩ <;> rw [staged] <;>
      exact ⟨rfl, rfl, rfl, rfl⟩

theorem offer_face (data : Bytes) (pc : ProxyConn) : SameFace (pc.offer data) pc := by
  unfold ProxyConn.offer ProxyConn.deliver
  split_ifs <;> exact ⟨rfl, rfl, rfl, rfl⟩

theorem SlotAgree.stage (agree : SlotAgree mine pc pc') (cache : ConfigCache) :
    SlotAgree mine (stageNext cache pc) (stageNext cache pc') := by
  refine ⟨((stage_face cache pc).trans agree.face).trans (stage_face cache pc').symm, ?_⟩
  rw [(stage_face cache pc).conn]
  exact fun others => (agree.alike others).stage cache

theorem SlotAgree.offer (agree : SlotAgree mine pc pc') (data : Bytes) :
    SlotAgree mine (pc.offer data) (pc'.offer data) := by
  refine ⟨((offer_face data pc).trans agree.face).trans (offer_face data pc').symm, ?_⟩
  rw [(offer_face data pc).conn]
  intro others
  have alike := agree.alike others
  have ready : pc.Open ↔ pc'.Open := by
    simp only [ProxyConn.Open, agree.face.conn, agree.face.leaving, alike.count]
  exact alike.offer ready data

theorem SlotAgree.arm (agree : SlotAgree mine pc pc') (nonce : UInt32) :
    SlotAgree mine (pc.arm p (if nonce ≠ 0 then nonce else pc.nonce))
      (pc'.arm p (if nonce ≠ 0 then nonce else pc'.nonce)) := by
  refine ⟨⟨agree.face.conn, agree.face.proxyId, agree.face.leaving, agree.face.teardownWork⟩, ?_⟩
  intro others
  have alike := agree.alike others
  rw [alike.nonce]
  exact alike.arm _

theorem SlotAgree.park (agree : SlotAgree mine pc pc') (nonce : UInt32) :
    SlotAgree mine { pc with state := .pending, nonce := nonce }
      { pc' with state := .pending, nonce := nonce } := by
  refine ⟨⟨agree.face.conn, agree.face.proxyId, agree.face.leaving, agree.face.teardownWork⟩, ?_⟩
  intro others
  have alike := agree.alike others
  exact ⟨alike.fromnum, rfl, rfl, alike.cursor, alike.queued, alike.staged,
    fun replaying => by cases replaying⟩

/-- Equal changes to the fields that only the face of a slot shows. -/
theorem SlotAgree.relabel (agree : SlotAgree mine pc pc') {id id' : ProxyId} {leaving leaving' : Bool}
    {work work' : Delayable} (sameId : id = id') (sameLeaving : leaving = leaving')
    (sameWork : work = work') :
    SlotAgree mine { pc with proxyId := id, leaving := leaving, teardownWork := work }
      { pc' with proxyId := id', leaving := leaving', teardownWork := work' } := by
  refine ⟨⟨agree.face.conn, sameId, sameLeaving, sameWork⟩, ?_⟩
  intro others
  have left := (agree.alike others).relabel id leaving work
  exact (left.symm.relabel id' leaving' work').symm

theorem SlotAgree.register (agree : SlotAgree mine pc pc') (id : ProxyId) :
    SlotAgree mine { pc with proxyId := id } { pc' with proxyId := id } :=
  agree.relabel rfl agree.face.leaving agree.face.teardownWork

theorem SlotAgree.leave (agree : SlotAgree mine pc pc') (leaving : Bool) (work : Delayable) :
    SlotAgree mine { pc with leaving := leaving, teardownWork := work }
      { pc' with leaving := leaving, teardownWork := work } :=
  agree.relabel agree.face.proxyId rfl rfl

theorem SlotAgree.expire (agree : SlotAgree mine pc pc') :
    SlotAgree mine { pc with teardownWork := none } { pc' with teardownWork := none } :=
  agree.relabel agree.face.proxyId agree.face.leaving rfl

theorem slot_agree_reset (work : pc.teardownWork = pc'.teardownWork) (conn : Option BtConn) :
    SlotAgree mine (pc.reset conn) (pc'.reset conn) :=
  ⟨⟨rfl, rfl, rfl, work⟩, fun _ => alike_reset pc pc' conn⟩

/-! The tables. -/

theorem GattAgree.find (agree : GattAgree mine g g') (target : BtConn) :
    findSlot g target = findSlot g' target := by
  simp only [findSlot, (agree.slots _).face.conn]

theorem GattAgree.setConn (agree : GattAgree mine g g') {i : Fin n}
    (same : SlotAgree mine pc pc') : GattAgree mine (g.setConn i pc) (g'.setConn i pc') := by
  refine ⟨fun j => ?_, agree.active⟩
  by_cases here : j = i
  · subst here
    rw [Gatt.conns_setConn_same, Gatt.conns_setConn_same]
    exact same
  · rw [Gatt.conns_setConn_ne _ here, Gatt.conns_setConn_ne _ here]
    exact agree.slots j

theorem GattAgree.modify (agree : GattAgree mine g g') (target : BtConn)
    {f : ProxyConn → ProxyConn}
    (respects : ∀ pc pc', SlotAgree mine pc pc' → SlotAgree mine (f pc) (f pc')) :
    GattAgree mine (g.modify target f) (g'.modify target f) := by
  unfold Gatt.modify
  rw [← agree.find target]
  cases findSlot g target with
  | none => exact agree
  | some i => exact agree.setConn (respects _ _ (agree.slots i))

theorem modify_rest (g : Gatt n) (target : BtConn) (f : ProxyConn → ProxyConn) :
    (g.modify target f).activeConnCount = g.activeConnCount ∧
      (g.modify target f).btCalls = g.btCalls := by
  unfold Gatt.modify
  cases findSlot g target <;> exact ⟨rfl, rfl⟩

/-- What one of `mine` does to its own slot, behind the same face, leaves the
agreement. -/
theorem GattAgree.own (agree : GattAgree mine g g') (member : conn ∈ mine)
    {f : ProxyConn → ProxyConn} (face : ∀ pc, SameFace (f pc) pc) :
    GattAgree mine (g.modify conn f) g' := by
  unfold Gatt.modify
  cases found : findSlot g conn with
  | none => exact agree
  | some i =>
    refine ⟨fun j => ?_, agree.active⟩
    by_cases here : j = i
    · subst here
      rw [Gatt.conns_setConn_same]
      refine ⟨(face _).trans (agree.slots j).face, fun others => ?_⟩
      have held := find_slot_some found
      rw [(face _).conn] at others
      exact absurd held (others conn member)
    · rw [Gatt.conns_setConn_ne _ here]
      exact agree.slots j

/-- Only the slots and the number of connections matter to the agreement. -/
theorem GattAgree.of_conns (agree : GattAgree mine g g') (conns : h.conns = g.conns)
    (conns' : h'.conns = g'.conns) (active : h.activeConnCount = h'.activeConnCount) :
    GattAgree mine h h' := by
  refine ⟨?_, active⟩
  rw [conns, conns']
  exact agree.slots

/-! Enqueues. -/

/-- The doorbell of an enqueue. -/
def ProxyConn.bells (conn : BtConn) (data : Bytes) (pc : ProxyConn) : List BtCall :=
  if data.length ≤ FROMRADIO_MAX_PKT_SIZE ∧ pc.leaving = false then
    [.notifyFromnum conn (pc.offer data).fromnum]
  else []

theorem enqueue_rest (g : Gatt n) (target : BtConn) (data : Bytes) :
    (bleGattEnqueueFromradio g target data).1.activeConnCount = g.activeConnCount ∧
      (bleGattEnqueueFromradio g target data).1.queueStatusReply = g.queueStatusReply := by
  unfold bleGattEnqueueFromradio
  split_ifs
  · exact ⟨rfl, rfl⟩
  · split
    · exact ⟨rfl, rfl⟩
    · unfold enqueueLocked
      dsimp only
      split_ifs <;> exact ⟨rfl, rfl⟩

theorem enqueue_untracked (untracked : findSlot g conn = none) (data : Bytes) :
    (bleGattEnqueueFromradio g conn data).1 = g := by
  simp only [bleGattEnqueueFromradio, untracked]
  split_ifs <;> rfl

theorem enqueue_bells {i : Fin n} (found : findSlot g conn = some i) (data : Bytes) :
    (bleGattEnqueueFromradio g conn data).1.btCalls =
      g.btCalls ++ (g.conns i).bells conn data := by
  have tracked : (g.conns i).conn ≠ none := by simp [find_slot_some found]
  unfold ProxyConn.bells ProxyConn.offer ProxyConn.deliver
  by_cases short : data.length ≤ FROMRADIO_MAX_PKT_SIZE
  · simp only [bleGattEnqueueFromradio, if_neg (Nat.not_lt_of_le short), found, short, if_true,
      true_and]
    cases leaving : (g.conns i).leaving with
    | true => simp [enqueueLocked, leaving]
    | false =>
      by_cases room : (g.conns i).queue.count < FROMRADIO_QUEUE_DEPTH
      · have ready : (g.conns i).Open := ⟨tracked, leaving, room⟩
        rw [enqueue_locked_open ready, dif_pos ready]
        rfl
      · have closed : ¬ (g.conns i).Open := fun ready => room ready.2.2
        rw [dif_neg closed]
        simp [enqueueLocked, leaving, Nat.le_of_not_lt room, notifyFromnum, Gatt.call]
  · simp [bleGattEnqueueFromradio, Nat.lt_of_not_le short, short]

theorem bells_own (member : conn ∈ mine) (data : Bytes) (pc : ProxyConn) :
    (pc.bells conn data).filter (BtCall.elsewhere mine) = [] := by
  unfold ProxyConn.bells
  split_ifs
  · simp [BtCall.elsewhere, member]
  · rfl

theorem SlotAgree.bells (agree : SlotAgree mine pc pc') (holds : pc.conn = some conn)
    (data : Bytes) : (pc.bells conn data).filter (BtCall.elsewhere mine) =
      (pc'.bells conn data).filter (BtCall.elsewhere mine) := by
  by_cases member : conn ∈ mine
  · rw [bells_own member, bells_own member]
  · have others : ∀ a ∈ mine, (pc.offer data).conn ≠ some a := by
      rintro a listed same
      rw [offer_conn, holds] at same
      exact member (Option.some.inj same ▸ listed)
    simp only [ProxyConn.bells, agree.face.leaving, ((agree.offer data).alike others).fromnum]

theorem enqueue_echo (agree : GattAgree mine g g') (target : BtConn) (data : Bytes) :
    Echo mine g g' (bleGattEnqueueFromradio g target data).1
      (bleGattEnqueueFromradio g' target data).1 := by
  constructor
  · exact (agree.modify target (fun _ _ same => same.offer data)).of_conns
      (enqueue_conns_modify g target data) (enqueue_conns_modify g' target data)
      (by rw [(enqueue_rest g target data).1, (enqueue_rest g' target data).1, agree.active])
  · cases found : findSlot g target with
    | none =>
      have found' := agree.find target ▸ found
      refine ⟨[], [], ?_, ?_, rfl⟩
      · rw [enqueue_untracked found, List.append_nil]
      · rw [enqueue_untracked found', List.append_nil]
    | some i =>
      have found' := agree.find target ▸ found
      exact ⟨_, _, enqueue_bells found data, enqueue_bells found' data,
        (agree.slots i).bells (find_slot_some found) data⟩

/-! Calls. -/

/-- A call that rings no bell. -/
theorem Echo.silent (agree : GattAgree mine h h') (calls : h.btCalls = g.btCalls)
    (calls' : h'.btCalls = g'.btCalls) : Echo mine g g' h h' :=
  ⟨agree, [], [], by rw [calls, List.append_nil], by rw [calls', List.append_nil], rfl⟩

theorem replay_echo (documented : p.Documented) (agree : GattAgree mine g g') (target : BtConn)
    (nonce : UInt32) :
    Echo mine g g' (bleGattReplayCachedBurst p g target nonce)
      (bleGattReplayCachedBurst p g' target nonce) := by
  cases found : findSlot g target with
  | none =>
    have found' := agree.find target ▸ found
    simp only [bleGattReplayCachedBurst, found, found']
    exact .refl agree
  | some i =>
    have found' := agree.find target ▸ found
    have slot := agree.slots i
    rw [replay_tracked documented found, replay_tracked documented found']
    refine ⟨(agree.setConn (slot.arm nonce)).of_conns rfl rfl agree.active,
      [.notifyFromnum target ((g.conns i).fromnum + 1)],
      [.notifyFromnum target ((g'.conns i).fromnum + 1)], rfl, rfl, ?_⟩
    by_cases member : target ∈ mine
    · simp [BtCall.elsewhere, member]
    · have others : ∀ a ∈ mine, (g.conns i).conn ≠ some a := by
        rintro a listed same
        rw [find_slot_some found] at same
        exact member (Option.some.inj same ▸ listed)
      rw [(slot.alike others).fromnum]

theorem teardown_echo (agree : GattAgree mine g g') (slot : Fin n) :
    Echo mine g g' (teardownWorkHandler g slot) (teardownWorkHandler g' slot) := by
  have face := (agree.slots slot).face
  unfold teardownWorkHandler
  rw [← face.conn, ← face.leaving]
  cases (g.conns slot).conn with
  | none => exact .refl agree
  | some holder =>
    simp only
    split_ifs
    · exact ⟨agree.of_conns rfl rfl agree.active, [.disconnect holder .remoteUserTermConn],
        [.disconnect holder .remoteUserTermConn], rfl, rfl, rfl⟩
    · exact .refl agree

theorem disconnected_echo (agree : GattAgree mine g g') (left : BtConn) :
    Echo mine g g' (onDisconnected g left) (onDisconnected g' left) := by
  unfold onDisconnected
  rw [← agree.find left]
  cases findSlot g left with
  | none => exact ⟨agree.of_conns rfl rfl agree.active, [.advStart], [.advStart], rfl, rfl, rfl⟩
  | some i =>
    refine ⟨?_, [.advStart], [.advStart], rfl, rfl, rfl⟩
    have same : SlotAgree mine ({ g.conns i with teardownWork := none }.reset none)
        ({ g'.conns i with teardownWork := none }.reset none) := by
      refine slot_agree_reset ?_ none
      rfl
    have freed : GattAgree mine (freeSlot g i) (freeSlot g' i) := agree.setConn same
    exact freed.of_conns rfl rfl (by simp only [Gatt.call, freed.active])

theorem connected_echo (agree : GattAgree mine g g') (fresh : BtConn) (err : Bool) :
    Echo mine g g' (onConnected g fresh err) (onConnected g' fresh err) := by
  unfold onConnected allocSlot
  split_ifs
  · exact .refl agree
  · have vacancy : (List.finRange n).find? (fun i => (g.conns i).conn = none) =
        (List.finRange n).find? (fun i => (g'.conns i).conn = none) := by
      simp only [(agree.slots _).face.conn]
    rw [← vacancy]
    cases (List.finRange n).find? (fun i => (g.conns i).conn = none) with
    | none =>
      exact ⟨agree.of_conns rfl rfl agree.active, [.disconnect fresh .connLimitExceeded],
        [.disconnect fresh .connLimitExceeded], rfl, rfl, rfl⟩
    | some i =>
      have opened : GattAgree mine (g.setConn i ((g.conns i).reset (some fresh)))
          (g'.setConn i ((g'.conns i).reset (some fresh))) :=
        agree.setConn (slot_agree_reset (agree.slots i).face.teardownWork _)
      simp only [Option.map_some, Gatt.setConn, ← agree.active]
      split_ifs
      · exact ⟨opened.of_conns rfl rfl rfl, [.advStart], [.advStart], rfl, rfl, rfl⟩
      · exact .silent (opened.of_conns rfl rfl rfl) rfl rfl

theorem read_rest (cache : ConfigCache) (g : Gatt n) (reader : BtConn) (len offset : Nat) :
    (fromradioRead p cache g reader len offset).1.activeConnCount = g.activeConnCount ∧
      (fromradioRead p cache g reader len offset).1.btCalls = g.btCalls := by
  unfold fromradioRead
  cases findSlot g reader <;> exact ⟨rfl, rfl⟩

theorem read_echo (agree : GattAgree mine g g') (cache : ConfigCache) (reader : BtConn)
    (len offset : Nat) :
    Echo mine g g' (fromradioRead p cache g reader len offset).1
      (fromradioRead p cache g' reader len offset).1 := by
  refine .silent ?_ (read_rest cache g reader len offset).2 (read_rest cache g' reader len offset).2
  have active : (fromradioRead p cache g reader len offset).1.activeConnCount =
      (fromradioRead p cache g' reader len offset).1.activeConnCount := by
    rw [(read_rest cache g reader len offset).1, (read_rest cache g' reader len offset).1,
      agree.active]
  by_cases fresh : offset = 0
  · have staged := agree.modify reader (f := stageNext cache) (fun _ _ same => same.stage cache)
    exact staged.of_conns (by rw [read_conns, if_pos fresh]) (by rw [read_conns, if_pos fresh])
      active
  · exact agree.of_conns (by rw [read_conns, if_neg fresh]) (by rw [read_conns, if_neg fresh])
      active

theorem modify_echo (agree : GattAgree mine g g') (target : BtConn)
    {f : ProxyConn → ProxyConn}
    (respects : ∀ pc pc', SlotAgree mine pc pc' → SlotAgree mine (f pc) (f pc')) :
    Echo mine g g' (g.modify target f) (g'.modify target f) :=
  .silent (agree.modify target respects) (modify_rest g target f).2 (modify_rest g' target f).2

/-- A call that both tables make. -/
theorem call_echo (documented : p.Documented) (agree : GattAgree mine g g') (call : GattCall n) :
    Echo mine g g' (call.run p g) (call.run p g') := by
  cases call with
  | enqueue target data => exact enqueue_echo agree target data
  | encodeReply => exact .silent (agree.of_conns rfl rfl agree.active) rfl rfl
  | replay target nonce => exact replay_echo documented agree target nonce
  | park target nonce => exact modify_echo agree target (fun _ _ same => same.park nonce)
  | read cache reader len offset => exact read_echo agree cache reader len offset
  | register target id =>
    simp only [GattCall.run, register_conns]
    exact modify_echo agree target (fun _ _ same => same.register id)
  | requestTeardown target =>
    simp only [GattCall.run, request_teardown_conns]
    exact modify_echo agree target (fun _ _ same => same.leave true (some TEARDOWN_DELAY_MS))
  | teardown slot =>
    have idle := agree.setConn (i := slot) (agree.slots slot).expire
    have cleared : Echo mine g g'
        (g.setConn slot { g.conns slot with teardownWork := none })
        (g'.setConn slot { g'.conns slot with teardownWork := none }) := .silent idle rfl rfl
    exact cleared.trans (teardown_echo idle slot)
  | connected fresh err => exact connected_echo agree fresh err
  | disconnected left => exact disconnected_echo agree left

/-- The calls with which a phone reads, asks for a replay or is answered a
heartbeat. -/
def GattCall.Own (mine : List BtConn) : GattCall n → Prop
  | .enqueue target _ | .replay target _ => target ∈ mine
  | .read _ reader _ _ => reader ∈ mine
  | .encodeReply => True
  | _ => False

/-- Such a call of one of `mine`, made on one side only, echoes nowhere. -/
theorem own_echo (documented : p.Documented) (agree : GattAgree mine g g')
    (call : GattCall n) (own : call.Own mine) : Echo mine g g' (call.run p g) g' := by
  cases call with
  | enqueue target data =>
    constructor
    · exact (agree.own own (offer_face data)).of_conns (enqueue_conns_modify g target data)
        rfl (by rw [GattCall.run, (enqueue_rest g target data).1, agree.active])
    · cases found : findSlot g target with
      | none => exact ⟨[], [], by rw [GattCall.run, enqueue_untracked found, List.append_nil],
          by rw [List.append_nil], rfl⟩
      | some i => exact ⟨_, [], enqueue_bells found data, by rw [List.append_nil], bells_own own data _⟩
  | encodeReply => exact .silent (agree.of_conns rfl rfl agree.active) rfl rfl
  | replay target nonce =>
    cases found : findSlot g target with
    | none =>
      simp only [GattCall.run, bleGattReplayCachedBurst, found]
      exact .refl agree
    | some i =>
      have face : ∀ pc : ProxyConn,
          SameFace (pc.arm p (if nonce ≠ 0 then nonce else pc.nonce)) pc :=
        fun pc => ⟨rfl, rfl, rfl, rfl⟩
      refine ⟨(agree.own own face).of_conns (replay_conns documented g target nonce) rfl ?_,
        [.notifyFromnum target ((g.conns i).fromnum + 1)], [], ?_, by rw [List.append_nil], ?_⟩
      · rw [GattCall.run, replay_tracked documented found]
        exact agree.active
      · rw [GattCall.run, replay_tracked documented found]
        rfl
      · have listed : target ∈ mine := own
        simp [BtCall.elsewhere, listed]
  | read cache reader len offset =>
    refine .silent ?_ (read_rest cache g reader len offset).2 rfl
    have active : (fromradioRead p cache g reader len offset).1.activeConnCount =
        g'.activeConnCount := by rw [(read_rest cache g reader len offset).1, agree.active]
    by_cases fresh : offset = 0
    · exact (agree.own own (stage_face cache)).of_conns (by rw [GattCall.run, read_conns, if_pos fresh])
        rfl active
    · exact agree.of_conns (by rw [GattCall.run, read_conns, if_neg fresh]) rfl active
  | park | register | requestTeardown | teardown | connected | disconnected => exact own.elim

/-! What a phone is answered. -/

theorem GattAgree.held (agree : GattAgree mine g g') (others : conn ∉ mine) {i : Fin n}
    (found : findSlot g conn = some i) : Alike (g.conns i) (g'.conns i) := by
  refine (agree.slots i).alike ?_
  rintro a listed same
  rw [find_slot_some found] at same
  exact others (Option.some.inj same ▸ listed)

theorem Alike.answer (alike : Alike pc pc') (len offset : Nat) :
    pc.answer p len offset = pc'.answer p len offset := by
  have length : pc.stagedLen = pc'.stagedLen := by
    have lengths := congrArg List.length alike.staged
    simpa [ProxyConn.stagedBytes] using lengths
  simp only [ProxyConn.answer, length, alike.staged]

theorem read_answer_agree (agree : GattAgree mine g g') (others : conn ∉ mine)
    (cache : ConfigCache) (len offset : Nat) :
    (fromradioRead p cache g conn len offset).2 = (fromradioRead p cache g' conn len offset).2 := by
  cases found : findSlot g conn with
  | none =>
    have found' := agree.find conn ▸ found
    simp only [fromradioRead, found, found']
  | some i =>
    have alike := agree.held others found
    rw [read_answer found, read_answer (agree.find conn ▸ found)]
    split_ifs
    · exact (alike.stage cache).answer len offset
    · exact alike.answer len offset

theorem fromnum_answer_agree (agree : GattAgree mine g g') (others : conn ∉ mine)
    (len offset : Nat) : fromnumRead p g conn len offset = fromnumRead p g' conn len offset := by
  cases found : findSlot g conn with
  | none =>
    have found' := agree.find conn ▸ found
    simp only [fromnumRead, found, found']
  | some i =>
    have found' := agree.find conn ▸ found
    simp only [fromnumRead, found, found', (agree.held others found).fromnum]

end MeshPbx
