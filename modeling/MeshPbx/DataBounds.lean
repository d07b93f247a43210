import MeshPbx.DataAccesses

/-! Bounds of node data, end to end. The framing checks a length when it arrives and
the cache checks its arena; the copies further down check nothing, and rely on what
the parser, the index, the replay cursor and the queues hold between two steps. -/
namespace MeshPbx
variable {n : Nat} {p : Platform}

/-- The access stays inside its array, the stored value inside its type, and the
branches for oversized data are not taken. -/
def Access.InBounds : Access n → Prop
  | .payload i => i < MESHTASTIC_MAX_PAYLOAD
  | .handedOn len => 1 ≤ len ∧ len ≤ MESHTASTIC_MAX_PAYLOAD
  | .arena offset len => offset + len ≤ CONFIG_CACHE_ARENA_BYTES
  | .index i => i < CONFIG_CACHE_MAX_FRAMES
  | .counter value => value < 2 ^ 16
  | .entry _ k len => k < FROMRADIO_QUEUE_DEPTH ∧ len ≤ FROMRADIO_MAX_PKT_SIZE
  | .staged _ len => len ≤ FROMRADIO_MAX_PKT_SIZE
  | .emsgsize | .nullRef => False

/-- The cells that exist. -/
def Cell.Inside : Cell n → Prop
  | .payload i => i < MESHTASTIC_MAX_PAYLOAD
  | .arena i => i < CONFIG_CACHE_ARENA_BYTES
  | .index i => i < CONFIG_CACHE_MAX_FRAMES
  | .entry _ k i => k < FROMRADIO_QUEUE_DEPTH ∧ i < FROMRADIO_MAX_PKT_SIZE
  | .staged _ i => i < FROMRADIO_MAX_PKT_SIZE

theorem bounds_inside {a : Access n} {c : Cell n} (bounded : a.InBounds) (covers : a.Covers c) :
    c.Inside := by
  cases a with
  | payload i =>
    cases c with
    | payload j =>
      obtain rfl : j = i := covers
      exact bounded
    | _ => exact covers.elim
  | arena offset len =>
    cases c with
    | arena i => exact Nat.lt_of_lt_of_le covers.2 bounded
    | _ => exact covers.elim
  | index i =>
    cases c with
    | index j =>
      obtain rfl : j = i := covers
      exact bounded
    | _ => exact covers.elim
  | entry slot k len =>
    cases c with
    | entry other j i => exact ⟨covers.2.1 ▸ bounded.1, Nat.lt_of_lt_of_le covers.2.2 bounded.2⟩
    | _ => exact covers.elim
  | staged slot len =>
    cases c with
    | staged other i => exact Nat.lt_of_lt_of_le covers.2 bounded
    | _ => exact covers.elim
  | emsgsize => exact bounded.elim
  | nullRef => exact bounded.elim
  | handedOn => exact covers.elim
  | counter => exact covers.elim

/-! The receive path and the cache check their own bounds. -/

theorem receive_in_bounds {u : UartRx} (sound : u.Sound) (e : RxEvent) :
    ∀ a ∈ u.accesses (n := n) e, a.InBounds := by
  intro a member
  cases e with
  | process =>
    simp only [UartRx.accesses] at member
    cases position : u.handler with
    | holding byte =>
      simp only [position, rxAccesses] at member
      split_ifs at member with inside
      · obtain ⟨missing, short⟩ := sound.bounded inside
        have received : u.rxSm.receivedLen.toNat < u.rxSm.expectedLen.toNat := missing
        have bound : u.rxSm.expectedLen.toNat ≤ 512 := short
        rcases List.mem_cons.mp member with rfl | later
        · exact Nat.lt_of_lt_of_le received short
        · obtain rfl := List.mem_singleton.mp later
          show u.rxSm.receivedLen.toNat + 1 < 2 ^ 16
          omega
      · exact absurd member List.not_mem_nil
    | _ =>
      simp only [position] at member
      exact absurd member List.not_mem_nil
  | _ => exact absurd member List.not_mem_nil

theorem add_in_bounds (c : ConfigCache) (raw : Bytes) :
    ∀ a ∈ addAccesses (n := n) c raw, a.InBounds := by
  intro a member
  unfold addAccesses at member
  split_ifs at member with full long
  · exact absurd member List.not_mem_nil
  · exact absurd member List.not_mem_nil
  · have count : c.count < 128 := Nat.lt_of_not_le full
    have used : c.used + raw.length ≤ 4096 := Nat.le_of_not_lt long
    simp only [List.mem_cons, List.not_mem_nil, or_false] at member
    rcases member with rfl | rfl | rfl | rfl
    · exact used
    · exact count
    · exact Nat.lt_of_le_of_lt used (by decide)
    · exact Nat.lt_of_le_of_lt count (by decide)

theorem stores_in_bounds (w : Proxy n) (payload : Bytes) :
    ∀ a ∈ cacheAccesses p w payload, a.InBounds := by
  unfold cacheAccesses
  split
  · exact List.forall_mem_nil _
  · split_ifs
    · exact add_in_bounds w.cache payload
    · exact List.forall_mem_nil _

/-! The GATT server copies what it is given. -/

/-- A call that stages nothing and queues no more than a queue entry holds. -/
def GattCall.Short : GattCall n → Prop
  | .enqueue _ data => data.length ≤ FROMRADIO_MAX_PKT_SIZE
  | .read _ _ _ _ => False
  | .encodeReply | .replay _ _ | .park _ _ | .register _ _ | .requestTeardown _ | .teardown _
  | .connected _ _ | .disconnected _ => True

theorem short_in_bounds {call : GattCall n} (short : call.Short) (g : Gatt n) :
    ∀ a ∈ callAccesses g call, a.InBounds := by
  cases call with
  | enqueue conn data =>
    have fits : ¬ data.length > FROMRADIO_MAX_PKT_SIZE := Nat.not_lt_of_le short
    simp only [callAccesses, enqueueAccesses, if_neg fits]
    cases findSlot g conn with
    | none => exact List.forall_mem_nil _
    | some i =>
      simp only
      split_ifs
      · exact List.forall_mem_nil _
      · exact List.forall_mem_nil _
      · have tail : (g.conns i).queue.tail < FROMRADIO_QUEUE_DEPTH := by
          rw [(g.conns i).queue.tail_eq]
          exact Nat.mod_lt _ (by decide)
        intro a member
        obtain rfl := List.mem_singleton.mp member
        exact ⟨tail, short⟩
  | read => exact short.elim
  | _ => exact List.forall_mem_nil _

theorem frame_calls_short {payload : Bytes} (short : payload.length ≤ FROMRADIO_MAX_PKT_SIZE)
    (w : Proxy n) : ∀ call ∈ frameCalls p w payload, call.Short := by
  intro call member
  cases frame_call member with
  | queued => exact short
  | served _ parked =>
    obtain ⟨_, _, rfl⟩ := serve_call parked
    trivial

/-- Whatever state the proxy is in, what a frame from the framing makes it do stays
in bounds. -/
theorem frame_in_bounds {payload : Bytes} (framed : IsFrame payload) (w : Proxy n) :
    ∀ a ∈ frameAccesses p w payload, a.InBounds := by
  obtain ⟨frame, rfl⟩ := framed
  intro a member
  rcases List.mem_cons.mp member with rfl | later
  · exact ⟨frame.pos, frame.le⟩
  · rcases List.mem_append.mp later with stored | copied
    · exact stores_in_bounds w frame.bytes a stored
    · exact Footprint.trail_forall
        (fun call among g => short_in_bounds (frame_calls_short frame.le w call among) g) a copied

theorem toradio_calls_short (documented : p.Documented) {w : Proxy n}
    (reply : w.gatt.queueStatusReply = [] ∨
      w.gatt.queueStatusReply = p.fromRadioBytes .syntheticQueueStatus)
    (conn : BtConn) (buf : Bytes) : ∀ call ∈ toradioCalls p w conn buf, call.Short := by
  have small : (p.fromRadioBytes .syntheticQueueStatus).length ≤ FROMRADIO_MAX_PKT_SIZE :=
    Nat.le_trans documented.queueStatus_fits (by decide)
  intro call member
  cases toradio_call member with
  | first =>
    rw [encode_queue_status documented]
    exact small
  | again =>
    rcases reply with empty | encoded
    · rw [empty]
      exact Nat.zero_le _
    · rw [encoded]
      exact small
  | _ => trivial

/-- The calls of every handler but a read are short, and frames apart. -/
theorem event_calls_short (documented : p.Documented) {w : Proxy n}
    (reply : w.gatt.queueStatusReply = [] ∨
      w.gatt.queueStatusReply = p.fromRadioBytes .syntheticQueueStatus) (e : Event n)
    (others : ∀ conn len offset, e ≠ .fromradioRead conn len offset) :
    ∀ call ∈ calls p w e, call.Short := by
  cases e with
  | fromradio frame rand => exact frame_calls_short frame.le w
  | toradioWrite conn buf offset =>
    simp only [calls]
    split_ifs
    · exact List.forall_mem_nil _
    · exact toradio_calls_short documented reply conn buf
  | fromradioRead conn len offset => exact absurd rfl (others conn len offset)
  | nodeRegWrite conn buf offset =>
    simp only [calls]
    split_ifs <;> simp [GattCall.Short]
  | _ => simp [calls, GattCall.Short]

/-- What a fresh read stages is a cached frame, a queued one or the terminator that
the replay was armed with. -/
theorem staged_short (documented : p.Documented) {w : Proxy n}
    (carries : Carries p (fun data => data.length ≤ FROMRADIO_MAX_PKT_SIZE) w) (i : Fin n)
    (staging : stageSource w.cache (w.gatt.conns i) ≠ .nothing) :
    (stageNext w.cache (w.gatt.conns i)).stagedLen ≤ FROMRADIO_MAX_PKT_SIZE := by
  have length : (stageNext w.cache (w.gatt.conns i)).stagedBytes.length =
      (stageNext w.cache (w.gatt.conns i)).stagedLen := ByteBuffer.length_read _ _ _
  rw [← length]
  rcases carries.fresh_read i with nothing | ⟨_, complete⟩ | served
  · exact absurd nothing staging
  · rw [complete]
    exact Nat.le_trans (documented.complete_fits _) (by decide)
  · exact served

theorem event_in_bounds (documented : p.Documented) {w : Proxy n} (reached : Reachable p w)
    (e : Event n) : ∀ a ∈ gattAccesses p w.gatt (calls p w e), a.InBounds := by
  have small : (p.fromRadioBytes .syntheticQueueStatus).length ≤ FROMRADIO_MAX_PKT_SIZE :=
    Nat.le_trans documented.queueStatus_fits (by decide)
  have carries : Carries p (fun data => data.length ≤ FROMRADIO_MAX_PKT_SIZE) w :=
    reached.carries documented small (fun frame => frame.le)
  by_cases reads : ∃ conn len offset, e = .fromradioRead conn len offset
  · obtain ⟨conn, len, offset, rfl⟩ := reads
    intro a member
    simp only [gattAccesses, calls, Footprint.trail, List.append_nil, callAccesses] at member
    cases found : findSlot w.gatt conn with
    | none =>
      simp only [found] at member
      exact absurd member List.not_mem_nil
    | some i =>
      simp only [found, stage_accesses] at member
      split_ifs at member with fresh nothing
      · exact absurd member List.not_mem_nil
      · obtain rfl := List.mem_singleton.mp member
        exact staged_short documented carries i nothing
      · exact absurd member List.not_mem_nil
  · have others : ∀ conn len offset, e ≠ .fromradioRead conn len offset :=
      fun conn len offset same => reads ⟨conn, len, offset, same⟩
    exact Footprint.trail_forall fun call among g =>
      short_in_bounds (event_calls_short documented carries.gatt.reply e others call among) g

/-- Every access of a step from a sound state is in bounds. -/
theorem step_in_bounds (documented : p.Documented) {s : Pipeline n} (sound : s.Sound p)
    (e : PipelineEvent n) : ∀ a ∈ s.accesses p e, a.InBounds := by
  cases e with
  | rx e rand =>
    intro a member
    have frames := handed_on_frames e sound.rx
    rcases List.mem_append.mp member with received | delivered
    · exact receive_in_bounds sound.rx e a received
    · exact Footprint.trail_forall
        (fun payload among w => frame_in_bounds (frames payload among) w) a delivered
  | proxy e => exact event_in_bounds documented sound.proxy e

/-- The branch of `ble_gatt_enqueue_fromradio` for oversized data is the one that
returns -EMSGSIZE. -/
theorem emsgsize_access (g : Gatt n) (conn : BtConn) (data : Bytes) :
    .emsgsize ∈ callAccesses g (.enqueue conn data) ↔
      (bleGattEnqueueFromradio g conn data).2 = some .emsgsize := by
  simp only [callAccesses, enqueueAccesses, bleGattEnqueueFromradio]
  split_ifs with long
  · simp
  · cases findSlot g conn with
    | none => simp
    | some i =>
      simp only [enqueueLocked]
      split_ifs <;> simp

/-- However bytes from the UART, its interrupts, the resync timer and the phones
interleave, node data is written inside its arrays only: each access of each step is
in bounds, the accesses account for all that the step changes, what is handed on are
frames of 1 to `MESHTASTIC_MAX_PAYLOAD` bytes, and nothing outside the arrays is ever
changed. -/
theorem node_data_in_bounds (documented : p.Documented) (es : List (PipelineEvent n))
    (runs : (pipeline n p).Runs (.boot n) es) :
    (pipeline n p).Along (fun s e => (∀ a ∈ s.accesses p e, a.InBounds) ∧
        (nodeData n).Accounts (s.accesses p e) s (s.apply p e)) (.boot n) es ∧
      (∀ payload ∈ ((pipeline n p).run (.boot n) es).rx.frames,
        1 ≤ payload.length ∧ payload.length ≤ MESHTASTIC_MAX_PAYLOAD) ∧
      ∀ c : Cell n, ¬ c.Inside →
        ((pipeline n p).run (.boot n) es).cell c = (Pipeline.boot n).cell c := by
  have along : (pipeline n p).Along (fun s e => (∀ a ∈ s.accesses p e, a.InBounds) ∧
      (nodeData n).Accounts (s.accesses p e) s (s.apply p e)) (.boot n) es :=
    Machine.along_of_invariant pipeline_sound_step
      (fun s e sound enabled =>
        ⟨step_in_bounds documented sound e, step_accounts documented s e enabled⟩)
      es pipeline_sound_boot runs
  have sound := Machine.invariant pipeline_sound_step es (pipeline_sound_boot (p := p)) runs
  refine ⟨along, fun payload handed => ?_, fun c outside => ?_⟩
  · obtain ⟨frame, rfl⟩ := sound.rx.frames payload handed
    exact ⟨frame.pos, frame.le⟩
  · exact Footprint.untouched_run (f := nodeData n)
      (fun a bounded covers => outside (bounds_inside bounded covers)) es along

/-- A phone connects, and a frame of one byte comes in over the UART; reception is
restarted once before it and once behind it. -/
def oneFrameRun : List (PipelineEvent 1) :=
  [.proxy (.connected 7 false), .rx .disabled 0, .rx (.rdy [0x94, 0xC3, 0x00, 0x01, 0xff]) 0,
    .rx .work 0] ++ (drain [0x94, 0xC3, 0x00, 0x01, 0xff]).map (fun e => .rx e 0) ++
    [.rx .disabled 0]

/-- The frame is copied into the phone's queue, and from there into its staging
buffer by the read that follows. -/
theorem one_frame_in_bounds :
    ((pipeline 1 .wire).run (.boot 1) oneFrameRun).rx.frames = [[0xff]] ∧
      ((pipeline 1 .wire).run (.boot 1) oneFrameRun).accesses .wire
        (.proxy (.fromradioRead 7 20 0)) = [.staged 0 1] ∧
      ∀ c : Cell 1, ¬ c.Inside →
        ((pipeline 1 .wire).run (.boot 1) oneFrameRun).cell c = (Pipeline.boot 1).cell c :=
  ⟨by decide, by decide, (node_data_in_bounds wire_documented oneFrameRun (by decide)).2.2⟩

end MeshPbx
