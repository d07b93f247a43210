import MeshPbx.Lib.Footprint
import MeshPbx.GattCalls
import MeshPbx.Pipeline

/-! The arrays that node data is copied into on its way, and the accesses that each
function makes to them, in the order and under the checks of the source. The record
of a step accounts for everything the step changes in the arrays. -/
namespace MeshPbx
variable {n : Nat} {p : Platform}

/-- A byte of a buffer or an entry of the cache index, inside the array or not. -/
inductive Cell (n : Nat) where
  | payload (i : Nat)
  | arena (i : Nat)
  | index (i : Nat)
  | entry (slot : Fin n) (k i : Nat)
  | staged (slot : Fin n) (i : Nat)

def Cell.Value : Cell n → Type
  | .index _ => CacheFrameRef
  | .payload _ | .arena _ | .entry _ _ _ | .staged _ _ => UInt8

/-- A write to one of the arrays, a call of `fromradio_cb`, a value stored into a
`uint16_t`, or a branch that is there for oversized data. -/
inductive Access (n : Nat) where
  | payload (i : Nat)
  | handedOn (len : Nat)
  | arena (offset len : Nat)
  | index (i : Nat)
  | counter (value : Nat)
  | entry (slot : Fin n) (k len : Nat)
  | staged (slot : Fin n) (len : Nat)
  | emsgsize
  | nullRef
  deriving DecidableEq, Repr

def Access.Covers : Access n → Cell n → Prop
  | .payload i, .payload j => j = i
  | .arena offset len, .arena i => offset ≤ i ∧ i < offset + len
  | .index i, .index j => j = i
  | .entry slot k len, .entry other j i => other = slot ∧ j = k ∧ i < len
  | .staged slot len, .staged other i => other = slot ∧ i < len
  | _, _ => False

def Pipeline.cell (s : Pipeline n) : (c : Cell n) → c.Value
  | .payload i => s.rx.rxSm.payload i
  | .arena i => s.proxy.cache.arena i
  | .index i => s.proxy.cache.index i
  | .entry slot k i => ((s.proxy.gatt.conns slot).queue.slots k).data i
  | .staged slot i => (s.proxy.gatt.conns slot).staged i

/-- The arrays with the accesses made to them. -/
def nodeData (n : Nat) : Footprint (Pipeline n) (Cell n) Cell.Value (Access n) where
  read := Pipeline.cell
  covers := Access.Covers

/-! The accesses of each function. -/

/-- `rx_process_byte`, up to its call of `fromradio_cb`. -/
def rxAccesses (sm : RxSm) : List (Access n) :=
  if sm.state = .waitPayload then
    [.payload sm.receivedLen.toNat, .counter (sm.receivedLen.toNat + 1)]
  else []

def UartRx.accesses (u : UartRx) : RxEvent → List (Access n)
  | .process => match u.handler with
    | .holding _ => rxAccesses u.rxSm
    | .idle | .looping => []
  | .rdy _ | .disabled | .resync | .work | .get => []

/-- `cache_add_frame`. -/
def addAccesses (c : ConfigCache) (raw : Bytes) : List (Access n) :=
  if c.count ≥ CONFIG_CACHE_MAX_FRAMES then []
  else if c.used + raw.length > CONFIG_CACHE_ARENA_BYTES then []
  else [.arena c.used raw.length, .index c.count, .counter (c.used + raw.length),
    .counter (c.count + 1)]

/-- `ble_gatt_enqueue_fromradio`. -/
def enqueueAccesses (g : Gatt n) (conn : BtConn) (data : Bytes) : List (Access n) :=
  if data.length > FROMRADIO_MAX_PKT_SIZE then [.emsgsize]
  else match findSlot g conn with
    | none => []
    | some i =>
      if (g.conns i).leaving then []
      else if (g.conns i).queue.count ≥ FROMRADIO_QUEUE_DEPTH then []
      else [.entry i (g.conns i).queue.tail data.length]

/-- The section of `fromradio_read` under the slot's lock, at offset zero. -/
def stageAccesses (c : ConfigCache) (i : Fin n) (pc : ProxyConn) : List (Access n) :=
  if pc.state = .replaying then
    if replayNext c pc < cacheFrameCount c then
      match cacheFrameAt c (replayNext c pc) with
      | some ref => [.staged i ref.len]
      | none => [.nullRef]
    else if replayNext c pc = cacheFrameCount c then [.staged i pc.ccLen]
    else []
  else if 0 < pc.queue.count then [.staged i (pc.queue.slots pc.queue.head).len]
  else []

def callAccesses (g : Gatt n) : GattCall n → List (Access n)
  | .enqueue conn data => enqueueAccesses g conn data
  | .read cache conn _ offset => match findSlot g conn with
    | none => []
    | some i => if offset = 0 then stageAccesses cache i (g.conns i) else []
  | .encodeReply | .replay _ _ | .park _ _ | .register _ _ | .requestTeardown _ | .teardown _
  | .connected _ _ | .disconnected _ => []

def gattAccesses (p : Platform) : Gatt n → List (GattCall n) → List (Access n) :=
  Footprint.trail (gattSystem n p) callAccesses

instance (s : Session) (payload : Bytes) (info : FromradioInfo) :
    Decidable (s.Keeps p payload info) :=
  inferInstanceAs (Decidable (_ ∨ _))

/-- What `upstream_on_fromradio` writes to the cache for a frame. -/
def cacheAccesses (p : Platform) (w : Proxy n) (payload : Bytes) : List (Access n) :=
  match protoDecodeFromradio p payload with
  | none => []
  | some info =>
    if w.session.Window ∧ info.whichVariant ≠ .packet ∧ w.session.Keeps p payload info then
      addAccesses w.cache payload
    else []

/-- `fromradio_cb` on one payload. -/
def frameAccesses (p : Platform) (w : Proxy n) (payload : Bytes) : List (Access n) :=
  .handedOn payload.length ::
    (cacheAccesses p w payload ++ gattAccesses p w.gatt (frameCalls p w payload))

def Pipeline.accesses (p : Platform) (s : Pipeline n) : PipelineEvent n → List (Access n)
  | .rx e rand => s.rx.accesses e ++
    Footprint.trail (delivery n p rand) (frameAccesses p) s.proxy (s.rx.handedOn e)
  | .proxy e => gattAccesses p s.proxy.gatt (calls p s.proxy e)

/-! The accesses account for every change. -/

/-- The arrays as the GATT server sees them. -/
def slotData (rx : UartRx) (w : Proxy n) : Footprint (Gatt n) (Cell n) Cell.Value (Access n) :=
  (nodeData n).comap fun g => ⟨rx, { w with gatt := g }⟩

/-- The arrays as the cache sees them. -/
def cacheData (rx : UartRx) (w : Proxy n) :
    Footprint ConfigCache (Cell n) Cell.Value (Access n) :=
  (nodeData n).comap fun c => ⟨rx, { w with cache := c }⟩

/-- The arrays as the proxy sees them. -/
def proxyData (n : Nat) (rx : UartRx) : Footprint (Proxy n) (Cell n) Cell.Value (Access n) :=
  (nodeData n).comap fun w => ⟨rx, w⟩

/-- The buffers of the slot hold what they held. -/
structure SameBuffers (pc pc' : ProxyConn) : Prop where
  slots : pc'.queue.slots = pc.queue.slots
  staged : pc'.staged = pc.staged

section
variable {rx : UartRx} {w : Proxy n} {g g' : Gatt n} {i : Fin n} {record : List (Access n)}

theorem accounts_of_buffers (same : ∀ j, SameBuffers (g.conns j) (g'.conns j)) :
    (slotData rx w).Accounts record g g' := by
  refine Footprint.accounts_of_same fun c => ?_
  cases c with
  | entry slot k i => exact congrArg (fun slots => (slots k).data i) (same slot).slots
  | staged slot i => exact congrArg (fun staged => staged i) (same slot).staged
  | _ => rfl

/-- A change of one slot is accounted for by the accesses to its buffers. -/
theorem accounts_setConn {pc : ProxyConn}
    (entries : ∀ k j, (∀ a ∈ record, ¬ a.Covers (.entry i k j)) →
      (pc.queue.slots k).data j = ((g.conns i).queue.slots k).data j)
    (staged : ∀ j, (∀ a ∈ record, ¬ a.Covers (.staged i j)) →
      pc.staged j = (g.conns i).staged j) : (slotData rx w).Accounts record g (g.setConn i pc) := by
  intro c uncovered
  cases c with
  | entry slot k j =>
    show (((g.setConn i pc).conns slot).queue.slots k).data j =
      ((g.conns slot).queue.slots k).data j
    by_cases here : slot = i
    · subst here
      rw [Gatt.conns_setConn_same]
      exact entries k j uncovered
    · rw [Gatt.conns_setConn_ne pc here]
  | staged slot j =>
    show ((g.setConn i pc).conns slot).staged j = (g.conns slot).staged j
    by_cases here : slot = i
    · subst here
      rw [Gatt.conns_setConn_same]
      exact staged j uncovered
    · rw [Gatt.conns_setConn_ne pc here]
  | _ => rfl

theorem enqueue_accounts (g : Gatt n) (conn : BtConn) (data : Bytes) :
    (slotData rx w).Accounts (enqueueAccesses g conn data) g
      (bleGattEnqueueFromradio g conn data).1 := by
  unfold bleGattEnqueueFromradio enqueueAccesses
  by_cases long : data.length > FROMRADIO_MAX_PKT_SIZE
  · simp only [if_pos long]
    exact Footprint.accounts_of_same fun _ => rfl
  · simp only [if_neg long]
    cases findSlot g conn with
    | none => exact Footprint.accounts_of_same fun _ => rfl
    | some i =>
      simp only [enqueueLocked]
      split_ifs with leaving full
      · exact Footprint.accounts_of_same fun _ => rfl
      · exact Footprint.accounts_of_same fun _ => rfl
      · refine accounts_setConn (fun k j uncovered => ?_) (fun j _ => rfl)
        by_cases here : k = (g.conns i).queue.tail
        · have behind : 0 + data.length ≤ j := by
            have outside := uncovered _ List.mem_cons_self
            simp only [Access.Covers, here, true_and, Nat.not_lt] at outside
            omega
          simp only [here, RingQueue.push, Function.update_self]
          exact ByteBuffer.write_behind _ 0 data j behind
        · simp only [RingQueue.push, Function.update_of_ne here]

/-- A fresh read copies what it stages, and nothing else: the frame at the cursor is
there wherever the cursor is below the count. -/
theorem stage_accesses (c : ConfigCache) (i : Fin n) (pc : ProxyConn) :
    stageAccesses c i pc = if stageSource c pc = .nothing then []
      else [.staged i (stageNext c pc).stagedLen] := by
  unfold stageAccesses stageSource
  by_cases replaying : pc.state = .replaying
  · by_cases below : replayNext c pc < cacheFrameCount c
    · have present : cacheFrameAt c (replayNext c pc) = some (c.index (replayNext c pc)) :=
        if_neg (Nat.not_le_of_lt below)
      simp only [stageNext, if_pos replaying, if_pos below, present, reduceCtorEq, if_false]
    · by_cases last : replayNext c pc = cacheFrameCount c
      · simp only [stageNext, if_pos replaying, if_neg below, if_pos last, reduceCtorEq, if_false]
      · simp only [if_pos replaying, if_neg below, if_neg last, if_true]
  · by_cases filled : 0 < pc.queue.count
    · simp only [stageNext, if_neg replaying, if_pos filled, dif_pos filled, reduceCtorEq, if_false]
    · simp only [if_neg replaying, if_neg filled, if_true]

/-- Outside what it stages a fresh read leaves the buffers of the slot alone. -/
theorem stage_buffers (c : ConfigCache) (pc : ProxyConn) :
    (stageNext c pc).queue.slots = pc.queue.slots ∧
      ∀ j, (stageSource c pc ≠ .nothing → (stageNext c pc).stagedLen ≤ j) →
        (stageNext c pc).staged j = pc.staged j := by
  have behind : ∀ (bytes : Bytes) (j : Nat), bytes.length ≤ j →
      pc.staged.write 0 bytes j = pc.staged j :=
    fun bytes j past => ByteBuffer.write_behind pc.staged 0 bytes j (by omega)
  cases source : stageSource c pc with
  | cached k =>
    rw [(stage_cached source).2]
    exact ⟨rfl, fun j past => behind _ j (past Source.noConfusion)⟩
  | complete =>
    rw [(stage_complete source).2]
    exact ⟨rfl, fun j past => behind _ j (past Source.noConfusion)⟩
  | queued =>
    obtain ⟨_, _, staged⟩ := stage_queued source
    rw [staged]
    exact ⟨rfl, fun j past => behind _ j (past Source.noConfusion)⟩
  | nothing =>
    rcases stage_nothing source with ⟨_, _, staged⟩ | ⟨_, _, staged⟩
    · rw [staged]
      exact ⟨rfl, fun _ _ => rfl⟩
    · rw [staged]
      exact ⟨rfl, fun _ _ => rfl⟩

theorem stage_accounts (c : ConfigCache) (g : Gatt n) (i : Fin n) :
    (slotData rx w).Accounts (stageAccesses c i (g.conns i)) g
      (g.setConn i (stageNext c (g.conns i))) := by
  obtain ⟨slots, staged⟩ := stage_buffers c (g.conns i)
  refine accounts_setConn (fun k j _ => by rw [slots]) (fun j uncovered => ?_)
  refine staged j (fun staging => ?_)
  rw [stage_accesses, if_neg staging] at uncovered
  have outside := uncovered _ List.mem_cons_self
  simp only [Access.Covers, true_and, Nat.not_lt] at outside
  exact outside

/-- Only enqueues and reads write to the buffers of a slot. -/
theorem call_buffers (documented : p.Documented) (g : Gatt n) {call : GattCall n}
    (noEnqueue : ∀ conn data, call ≠ .enqueue conn data)
    (noRead : ∀ cache conn len offset, call ≠ .read cache conn len offset) (j : Fin n) :
    SameBuffers (g.conns j) ((call.run p g).conns j) := by
  rcases call_change documented g call j with same | ⟨_, changed⟩
  · rw [same]
    exact ⟨rfl, rfl⟩
  · rw [changed]
    cases call with
    | enqueue conn data => exact absurd rfl (noEnqueue conn data)
    | read cache conn len offset => exact absurd rfl (noRead cache conn len offset)
    | _ => exact ⟨rfl, rfl⟩

theorem call_accounts (documented : p.Documented) (g : Gatt n) (call : GattCall n) :
    (slotData rx w).Accounts (callAccesses g call) g (call.run p g) := by
  cases call with
  | enqueue conn data => exact enqueue_accounts g conn data
  | read cache conn len offset =>
    simp only [GattCall.run, fromradioRead, callAccesses]
    cases findSlot g conn with
    | none => exact Footprint.accounts_of_same fun _ => rfl
    | some i =>
      by_cases fresh : offset = 0
      · simp only [if_pos fresh]
        exact stage_accounts cache g i
      · simp only [if_neg fresh, Gatt.setConn_eq]
        exact Footprint.accounts_of_same fun _ => rfl
  | _ =>
    refine accounts_of_buffers (call_buffers documented g ?_ ?_)
    · simp
    · simp

theorem gatt_accounts (documented : p.Documented) (g : Gatt n) (calls : List (GattCall n)) :
    (slotData rx w).Accounts (gattAccesses p g calls) g ((gattSystem n p).run g calls) :=
  Footprint.trail_accounts (fun g call => call_accounts documented g call) calls

theorem add_accounts (c : ConfigCache) (raw : Bytes) (variant : FromRadioTag) :
    (cacheData rx w).Accounts (addAccesses c raw) c (cacheAddFrame c raw variant).1 := by
  by_cases full : c.count ≥ CONFIG_CACHE_MAX_FRAMES
  · simp only [cacheAddFrame, if_pos full]
    exact Footprint.accounts_of_same fun _ => rfl
  · by_cases long : c.used + raw.length > CONFIG_CACHE_ARENA_BYTES
    · simp only [cacheAddFrame, if_neg full, if_pos long]
      exact Footprint.accounts_of_same fun _ => rfl
    · simp only [cacheAddFrame, addAccesses, if_neg full, if_neg long]
      intro cell uncovered
      cases cell with
      | arena i =>
        have outside : ¬ (c.used ≤ i ∧ i < c.used + raw.length) :=
          uncovered (.arena c.used raw.length) List.mem_cons_self
        show c.arena.write c.used raw i = c.arena i
        by_cases before : i < c.used
        · exact if_neg (Nat.not_le_of_lt before)
        · exact ByteBuffer.write_behind c.arena c.used raw i (by omega)
      | index i =>
        have outside : ¬ i = c.count :=
          uncovered (.index c.count) (List.mem_cons_of_mem _ List.mem_cons_self)
        exact Function.update_of_ne outside _ _
      | _ => rfl

/-- A handler run that leaves the cache's arrays to one record and the slots to
another is accounted for by both. -/
theorem accounts_parts {w w' : Proxy n} {stores copies : List (Access n)}
    (cache : (cacheData rx w).Accounts stores w.cache w'.cache)
    (gatt : (slotData rx w).Accounts copies w.gatt w'.gatt) :
    (proxyData n rx).Accounts (stores ++ copies) w w' := by
  intro c uncovered
  have unstored := fun a member => uncovered a (List.mem_append_left copies member)
  have uncopied := fun a member => uncovered a (List.mem_append_right stores member)
  cases c with
  | payload => rfl
  | arena i => exact cache (.arena i) unstored
  | index i => exact cache (.index i) unstored
  | entry slot k i => exact gatt (.entry slot k i) uncopied
  | staged slot i => exact gatt (.staged slot i) uncopied

/-- A frame changes the cache's arrays only where it is stored. -/
theorem frame_stores (p : Platform) (w : Proxy n) (payload : Bytes) (rand : UInt32) :
    (cacheData rx w).Accounts (cacheAccesses p w payload) w.cache
      (onFromradioUart p w payload rand).cache := by
  have effect := frame_effect p w payload rand
  generalize onFromradioUart p w payload rand = after at effect ⊢
  cases effect with
  | fetched info decoded window plain _ effect =>
    cases effect with
    | stored keeps =>
      simp only [cacheAccesses, decoded, if_pos (And.intro window (And.intro plain keeps))]
      exact add_accounts w.cache payload info.whichVariant
    | _ => exact Footprint.accounts_of_same fun c => by cases c <;> rfl
  | rebooted =>
    rw [(refetch_effect p w rand).frame.2]
    exact Footprint.accounts_of_same fun _ => rfl
  | packet =>
    rw [cache_dispatchPacket]
    exact Footprint.accounts_of_same fun _ => rfl
  | _ => exact Footprint.accounts_of_same fun _ => rfl

theorem frame_accounts (documented : p.Documented) (rand : UInt32) (w : Proxy n)
    (payload : Bytes) :
    (proxyData n rx).Accounts (frameAccesses p w payload) w (onFromradioUart p w payload rand) := by
  have copies : (slotData rx w).Accounts (gattAccesses p w.gatt (frameCalls p w payload)) w.gatt
      (onFromradioUart p w payload rand).gatt := by
    rw [frame_calls]
    exact gatt_accounts documented w.gatt _
  have called : (proxyData n rx).Accounts [.handedOn payload.length] w w :=
    Footprint.accounts_of_same fun _ => rfl
  exact Footprint.accounts_append called (accounts_parts (frame_stores p w payload rand) copies)

/-- The other handlers of the proxy leave the cache's arrays as they are. -/
theorem event_accounts (documented : p.Documented) {e : Event n} (enabled : w.enabled e)
    (elsewhere : ¬ e.Delivers (fun _ => True)) :
    (proxyData n rx).Accounts (gattAccesses p w.gatt (calls p w e)) w (w.apply p e) := by
  have copies : (slotData rx w).Accounts (gattAccesses p w.gatt (calls p w e)) w.gatt
      (w.apply p e).gatt := by
    rw [apply_calls]
    exact gatt_accounts documented w.gatt _
  have stores : (cacheData rx w).Accounts [] w.cache (w.apply p e).cache := by
    have step := cache_step p e enabled
    generalize (w.apply p e).cache = after at step ⊢
    cases step with
    | same => exact Footprint.accounts_of_same fun _ => rfl
    | opened => exact Footprint.accounts_of_same fun c => by cases c <;> rfl
    | reopened => exact Footprint.accounts_of_same fun c => by cases c <;> rfl
    | stored => exact absurd trivial elsewhere
    | published => exact absurd trivial elsewhere
  exact accounts_parts stores copies

theorem byte_accounts (u : UartRx) (w : Proxy n) (byte : UInt8) :
    (nodeData n).Accounts (rxAccesses u.rxSm) ⟨u, w⟩ ⟨u.process byte, w⟩ := by
  intro c uncovered
  cases c with
  | payload i =>
    show (rxProcessByte u.fromradioCb u.rxSm byte).1.payload i = u.rxSm.payload i
    cases state : u.rxSm.state with
    | waitPayload =>
      have outside : ¬ i = u.rxSm.receivedLen.toNat := by
        rw [rxAccesses, if_pos state] at uncovered
        exact uncovered _ List.mem_cons_self
      have kept : u.rxSm.payload.write u.rxSm.receivedLen.toNat [byte] i = u.rxSm.payload i := by
        by_cases before : i < u.rxSm.receivedLen.toNat
        · exact if_neg (Nat.not_le_of_lt before)
        · refine ByteBuffer.write_behind _ _ _ i ?_
          simp only [List.length_cons, List.length_nil]
          omega
      simp only [rxProcessByte, state]
      split_ifs <;> exact kept
    | waitMagic1 =>
      simp only [rxProcessByte, state]
      split_ifs <;> rfl
    | waitMagic2 =>
      simp only [rxProcessByte, state]
      split_ifs <;> rfl
    | waitLenHi => simp only [rxProcessByte, state]
    | waitLenLo =>
      simp only [rxProcessByte, state]
      split_ifs <;> rfl
  | _ => rfl

/-- A step of the receive path writes to its own payload buffer only. -/
theorem receive_accounts (u : UartRx) (w : Proxy n) (e : RxEvent) :
    (nodeData n).Accounts (u.accesses e) ⟨u, w⟩ ⟨u.apply e, w⟩ := by
  have kept : ∀ v : UartRx, v.rxSm.payload = u.rxSm.payload →
      (nodeData n).Accounts (u.accesses e) ⟨u, w⟩ ⟨v, w⟩ := by
    intro v same
    refine Footprint.accounts_of_same fun c => ?_
    cases c with
    | payload i => exact congrArg (fun payload => payload i) same
    | _ => rfl
  cases e with
  | resync =>
    refine kept _ ?_
    simp only [UartRx.apply, rxResyncHandler]
    split_ifs <;> rfl
  | get =>
    refine kept _ ?_
    simp only [UartRx.apply]
    split <;> rfl
  | process =>
    cases position : u.handler with
    | holding byte =>
      simp only [UartRx.accesses, UartRx.apply, position]
      exact byte_accounts u w byte
    | _ =>
      refine kept _ ?_
      simp only [UartRx.apply, position]
  | _ => exact kept _ rfl

end

/-- The accesses of a step account for everything it changes in the arrays. -/
theorem step_accounts (documented : p.Documented) (s : Pipeline n) (e : PipelineEvent n)
    (enabled : s.enabled e) : (nodeData n).Accounts (s.accesses p e) s (s.apply p e) := by
  cases e with
  | rx e rand =>
    have received := receive_accounts s.rx s.proxy e
    have delivered : (proxyData n (s.rx.apply e)).Accounts
        (Footprint.trail (delivery n p rand) (frameAccesses p) s.proxy (s.rx.handedOn e)) s.proxy
        ((delivery n p rand).run s.proxy (s.rx.handedOn e)) :=
      Footprint.trail_accounts (frame_accounts documented rand) (s.rx.handedOn e)
    exact Footprint.accounts_append received delivered
  | proxy e =>
    have handled : (proxyData n s.rx).Accounts
        (gattAccesses p s.proxy.gatt (calls p s.proxy e)) s.proxy (s.proxy.apply p e) :=
      event_accounts documented enabled.1 enabled.2
    exact handled

end MeshPbx
