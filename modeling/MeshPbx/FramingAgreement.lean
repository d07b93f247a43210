import MeshPbx.UartTransmit
import MeshPbx.ToradioBoundary

/-! The sender and the receiver of the framing side by side. The receiver hands on
payloads of 1 to `MESHTASTIC_MAX_PAYLOAD` bytes; the sender checks the upper end
only. -/
namespace MeshPbx

/-- A parser inside a payload has room for what is still missing. -/
def RxSm.Bounded (sm : RxSm) : Prop :=
  sm.state = .waitPayload →
    sm.receivedLen < sm.expectedLen ∧ sm.expectedLen.toNat ≤ MESHTASTIC_MAX_PAYLOAD

theorem boundary_bounded {sm : RxSm} (boundary : sm.Boundary) : sm.Bounded := by
  intro inside
  rcases boundary with idle | started
  · exact RxState.noConfusion (idle.symm.trans inside)
  · exact RxState.noConfusion (started.symm.trans inside)

theorem bounded_byte (sm : RxSm) (byte : UInt8) (bounded : sm.Bounded) :
    (rxProcessByte true sm byte).1.Bounded := by
  cases position : sm.state with
  | waitMagic1 =>
    simp only [rxProcessByte, position]
    split_ifs
    · exact RxState.noConfusion
    · exact bounded
  | waitMagic2 =>
    simp only [rxProcessByte, position]
    split_ifs <;> exact RxState.noConfusion
  | waitLenHi =>
    simp only [rxProcessByte, position]
    exact RxState.noConfusion
  | waitLenLo =>
    simp only [rxProcessByte, position]
    split_ifs with refused
    · exact RxState.noConfusion
    · intro _
      obtain ⟨nonzero, short⟩ := not_or.mp refused
      exact ⟨UInt16.pos_iff_ne_zero.mpr nonzero, Nat.not_lt.mp short⟩
  | waitPayload =>
    obtain ⟨missing, short⟩ := bounded position
    have received : sm.receivedLen.toNat < sm.expectedLen.toNat := missing
    have bound : sm.expectedLen.toNat ≤ 512 := short
    have counted : (sm.receivedLen + 1).toNat = sm.receivedLen.toNat + 1 := by
      rw [UInt16.toNat_add]
      exact Nat.mod_eq_of_lt (by simp; omega)
    simp only [rxProcessByte, position]
    split_ifs with last
    · exact RxState.noConfusion
    · intro _
      refine ⟨?_, short⟩
      have different : (sm.receivedLen + 1).toNat ≠ sm.expectedLen.toNat :=
        fun same => last (UInt16.toNat_inj.mp same)
      show (sm.receivedLen + 1).toNat < sm.expectedLen.toNat
      omega

theorem bounded_handed (sm : RxSm) (byte : UInt8) (bounded : sm.Bounded) :
    ∀ payload ∈ (rxProcessByte true sm byte).2, ∃ frame : Frame, frame.bytes = payload := by
  intro payload member
  cases position : sm.state with
  | waitMagic1 =>
    simp only [rxProcessByte, position] at member
    exact absurd member List.not_mem_nil
  | waitMagic2 =>
    simp only [rxProcessByte, position] at member
    exact absurd member List.not_mem_nil
  | waitLenHi =>
    simp only [rxProcessByte, position] at member
    exact absurd member List.not_mem_nil
  | waitLenLo =>
    simp only [rxProcessByte, position] at member
    exact absurd member List.not_mem_nil
  | waitPayload =>
    obtain ⟨missing, short⟩ := bounded position
    simp only [rxProcessByte, position] at member
    split_ifs at member with last
    · have whole := List.mem_singleton.mp member
      have length : payload.length = sm.expectedLen.toNat := by
        rw [whole, ByteBuffer.length_read, last]
      have positive : 0 < sm.expectedLen.toNat := Nat.zero_lt_of_lt missing
      exact ⟨⟨payload, length ▸ positive, length ▸ short⟩, rfl⟩
    · exact absurd member List.not_mem_nil

/-- Whatever arrives at a frame boundary, what is handed on is a frame. -/
theorem handed_on_framed {sm : RxSm} (boundary : sm.Boundary) (stream : Bytes) :
    ∀ payload ∈ rxParser.output sm stream, ∃ frame : Frame, frame.bytes = payload :=
  Transducer.output_forall bounded_byte bounded_handed stream (boundary_bounded boundary)

/-- The frame built for a payload hands it on exactly where the payload has the
length of one. -/
theorem delivered_once {sm : RxSm} (boundary : sm.Boundary) (payload : Bytes) :
    (rxParser.output sm (framed payload)).count payload = 1 ↔
      0 < payload.length ∧ payload.length ≤ MESHTASTIC_MAX_PAYLOAD := by
  constructor
  · intro once
    have member : payload ∈ rxParser.output sm (framed payload) :=
      List.count_pos_iff.mp (by omega)
    obtain ⟨frame, rfl⟩ := handed_on_framed boundary _ payload member
    exact ⟨frame.pos, frame.le⟩
  · rintro ⟨positive, short⟩
    have handed := (frame_received boundary ⟨payload, positive, short⟩).1
    simp only [handed, List.count_singleton_self]

/-! Encoder against decoder. -/

/-- The frame `tx_work_handler` builds for a payload at the head of the queue. -/
def builtFrame (u : UartTx) (payload : Bytes) : Option Bytes :=
  (txWorkHandler { u with txMsgq := [payload], txInProgress := false } false).outstanding

theorem built_frame (u : UartTx) (payload : Bytes) :
    builtFrame u payload = some (framed payload) := by
  simp only [builtFrame, txWorkHandler, Bool.false_eq_true, if_false, frame_built]

/-- The transmit queue takes a payload exactly where the frame built for it, fed to
the parser, makes it hand that payload on once. -/
def FramingAgrees (u : UartTx) (sm : RxSm) (payload : Bytes) : Prop :=
  (uartMeshtasticTx u payload).2 = none ↔
    ∃ frame ∈ builtFrame u payload, (rxParser.output sm frame).count payload = 1

theorem framing_agrees_iff (u : UartTx) {sm : RxSm} (room : u.txMsgq.length < TX_QUEUE_DEPTH)
    (boundary : sm.Boundary) (payload : Bytes) : FramingAgrees u sm payload ↔ payload ≠ [] := by
  have accepted : (uartMeshtasticTx u payload).2 = none ↔
      payload.length ≤ MESHTASTIC_MAX_PAYLOAD := by
    constructor
    · intro taken
      by_contra long
      simp only [uartMeshtasticTx, if_pos (Nat.lt_of_not_le long)] at taken
      exact Option.some_ne_none _ taken
    · intro short
      exact (uart_tx_sent u short).mpr room
  have delivered : (∃ frame ∈ builtFrame u payload, (rxParser.output sm frame).count payload = 1) ↔
      0 < payload.length ∧ payload.length ≤ MESHTASTIC_MAX_PAYLOAD := by
    rw [built_frame, ← delivered_once boundary]
    simp only [Option.mem_def, Option.some.injEq, exists_eq_left']
  rw [FramingAgrees, accepted, delivered, ← List.length_pos_iff]
  constructor
  · intro agrees
    by_contra empty
    have short : payload.length ≤ MESHTASTIC_MAX_PAYLOAD := by omega
    exact empty (agrees.mp short).1
  · intro positive
    exact ⟨fun short => ⟨positive, short⟩, fun both => both.2⟩

/-! The frames on the wire. -/

/-- Everything in the transmit queue and on the wire is an entry that meets `Q`. -/
structure TxHolds (Q : Bytes → Prop) (u : UartTx) : Prop where
  queued : ∀ entry ∈ u.txMsgq, Q entry
  outstanding : ∀ bytes ∈ u.outstanding, ∃ entry, Q entry ∧ bytes = framed entry

section
variable {Q : Bytes → Prop} {u : UartTx}

theorem tx_holds_zero : TxHolds Q .zero where
  queued := List.forall_mem_nil _
  outstanding := fun _ started => (Option.some_ne_none _ started.symm).elim

theorem tx_holds_put (holds : TxHolds Q u) {payload : Bytes}
    (meets : u.txMsgq.length < TX_QUEUE_DEPTH → payload.length ≤ MESHTASTIC_MAX_PAYLOAD →
      Q payload) : TxHolds Q (uartMeshtasticTx u payload).1 := by
  simp only [uartMeshtasticTx]
  split_ifs with long full
  · exact holds
  · exact holds
  · refine ⟨?_, holds.outstanding⟩
    intro entry member
    rcases List.mem_append.mp member with old | new
    · exact holds.queued entry old
    · obtain rfl := List.mem_singleton.mp new
      exact meets (Nat.not_le.mp full) (Nat.not_lt.mp long)

theorem tx_holds_work (holds : TxHolds Q u) (failed : Bool) : TxHolds Q (txWorkHandler u failed) := by
  unfold txWorkHandler
  by_cases busy : u.txInProgress = true
  · rw [if_pos busy]
    exact holds
  · rw [if_neg busy]
    cases queued : u.txMsgq with
    | nil => exact holds
    | cons entry rest =>
      have later : ∀ other ∈ rest, Q other :=
        fun other member => holds.queued other (queued ▸ List.mem_cons_of_mem entry member)
      cases failed with
      | true => exact ⟨later, holds.outstanding⟩
      | false =>
        refine ⟨later, ?_⟩
        intro bytes started
        refine ⟨entry, holds.queued entry (queued ▸ List.mem_cons_self ..), ?_⟩
        exact (Option.some.inj started).symm.trans (frame_built u.txFrameBuf entry)

theorem tx_holds_end (holds : TxHolds Q u) : TxHolds Q (uartCbTxEnd u) where
  queued := holds.queued
  outstanding := fun _ started => (Option.some_ne_none _ started.symm).elim

end

variable {n : Nat} {p : Platform} {w w' : Proxy n} {e : Event n} {entry : Bytes}

/-- No phone writes an empty ToRadio. -/
def NonEmptyWrite (_ : Proxy n) : Event n → Prop
  | .toradioWrite _ buf offset => offset = 0 → buf ≠ []
  | .sessionStart _ | .fromradio _ _ | .fromradioRead _ _ _ | .fromnumRead _ _ _
  | .nodeRegWrite _ _ _ | .connected _ _ | .disconnected _ | .keepalive | .fetchRetry
  | .liveness _ | .teardown _ | .txWork _ | .txEnd _ => True

instance (w : Proxy n) : (e : Event n) → Decidable (NonEmptyWrite w e)
  | .toradioWrite _ _ _ => inferInstanceAs (Decidable (_ → _))
  | .sessionStart _ | .fromradio _ _ | .fromradioRead _ _ _ | .fromnumRead _ _ _
  | .nodeRegWrite _ _ _ | .connected _ _ | .disconnected _ | .keepalive | .fetchRetry
  | .liveness _ | .teardown _ | .txWork _ | .txEnd _ => isTrue trivial

/-- The events of the transmit path itself. -/
def Event.ofUart : Event n → Bool
  | .txWork _ | .txEnd _ => true
  | _ => false

theorem tx_holds_effect {Q : Bytes → Prop} (effect : TxEffect p w w' e) (holds : TxHolds Q w.uart)
    (meets : ∀ entry, Produced p w w' e entry → w.uart.txMsgq.length < TX_QUEUE_DEPTH →
      entry.length ≤ MESHTASTIC_MAX_PAYLOAD → Q entry)
    (other : e.ofUart = false) : TxHolds Q w'.uart := by
  cases effect with
  | quiet _ same => exact same ▸ holds
  | offered _ entry produced tx =>
    rw [tx]
    exact tx_holds_put holds (meets entry produced)
  | worked => exact Bool.noConfusion other
  | ended => exact Bool.noConfusion other

/-- What every entry that a step produces meets, everything in the transmit path
meets. -/
theorem tx_holds_step (documented : p.Documented) {Q : Bytes → Prop} (w : Proxy n) (e : Event n)
    (holds : TxHolds Q w.uart)
    (meets : ∀ entry, Produced p w (w.apply p e) e entry →
      w.uart.txMsgq.length < TX_QUEUE_DEPTH → entry.length ≤ MESHTASTIC_MAX_PAYLOAD → Q entry) : TxHolds Q (w.apply p e).uart := by
  have effect := tx_effect documented w e
  cases e with
  | txWork failed =>
    have cleared : TxHolds Q { w.uart with txWork := false } := ⟨holds.queued, holds.outstanding⟩
    exact tx_holds_work cleared failed
  | txEnd => exact tx_holds_end holds
  | _ => exact tx_holds_effect effect holds meets rfl

section
variable (documented : p.Documented) (blank : p.decodeToRadio [] = some {})
include documented blank

/-- What the proxy sends of its own is never empty, since an empty message reads
back as one without a variant. -/
theorem produced_nonempty (produced : Produced p w w' e entry) (nonempty : NonEmptyWrite w e) :
    entry ≠ [] := by
  cases produced with
  | wantConfig =>
    intro empty
    have decoded := documented.wantConfig_decodes w'.session.nonce
    rw [empty, blank] at decoded
    have variant := congrArg ToRadio.whichPayloadVariant (Option.some.inj decoded)
    contradiction
  | heartbeat =>
    intro empty
    have decoded := documented.heartbeat_decodes w.session.keepaliveNonce
    rw [empty, blank] at decoded
    have variant := congrArg ToRadio.whichPayloadVariant (Option.some.inj decoded)
    contradiction
  | phone => exact nonempty rfl

/-- An entry that the framing hands on. -/
def IsFrame (entry : Bytes) : Prop :=
  ∃ frame : Frame, frame.bytes = entry

theorem well_framed_step (w : Proxy n) (e : Event n) (holds : TxHolds IsFrame w.uart)
    (_ : (system n p).enabled w e) (nonempty : NonEmptyWrite w e) :
    TxHolds IsFrame ((system n p).next w e).uart := by
  refine tx_holds_step documented w e holds (fun entry produced _ short => ?_)
  have positive := List.length_pos_iff.mpr (produced_nonempty documented blank produced nonempty)
  exact ⟨⟨entry, positive, short⟩, rfl⟩

/-- Sender and receiver of the framing agree about a payload exactly where it is
not empty; and while no phone writes an empty ToRadio, every frame on the wire is
one that the framing hands on. -/
theorem framing_agrees_unless_empty (n : Nat) :
    (∀ (u : UartTx) (sm : RxSm) (payload : Bytes), u.txMsgq.length < TX_QUEUE_DEPTH →
      sm.Boundary → (FramingAgrees u sm payload ↔ payload ≠ [])) ∧
      ∀ es : List (Event n), (system n p).Runs (.boot n) es →
        (system n p).Along NonEmptyWrite (.boot n) es →
        ∀ bytes ∈ ((system n p).run (.boot n) es).uart.outstanding,
          ∀ sm : RxSm, sm.Boundary → ∃ payload, bytes = framed payload ∧
            rxParser.output sm bytes = [payload] := by
  refine ⟨fun u sm payload room boundary => framing_agrees_iff u room boundary payload, ?_⟩
  intro es runs nonempty bytes onWire sm boundary
  have holds : TxHolds IsFrame ((system n p).run (.boot n) es).uart :=
    Machine.invariant_along (well_framed_step documented blank) es tx_holds_zero runs nonempty
  obtain ⟨_, ⟨frame, rfl⟩, rfl⟩ := holds.outstanding bytes onWire
  exact ⟨frame.bytes, rfl, (frame_received boundary frame).1⟩

end

/-- A phone's write of one byte and its way onto the wire. -/
def shortWrite : List (Event 1) :=
  [.connected 7 false, .toradioWrite 7 [0xff] 0, .txWork false]

theorem short_write_framed :
    FramingAgrees .zero .zero [0xff] ∧ ∀ sm : RxSm, sm.Boundary → ∃ payload,
      framed [0xff] = framed payload ∧ rxParser.output sm (framed [0xff]) = [payload] := by
  obtain ⟨agrees, wire⟩ := framing_agrees_unless_empty wire_documented (by decide) 1
  exact ⟨(agrees .zero .zero [0xff] (by decide) (.inl rfl)).mpr (by decide),
    wire shortWrite (by decide) (by decide) (framed [0xff]) (by decide)⟩

/-- An empty write, which the transmit queue takes and the wire carries. -/
def emptyWrite : List (Event 1) :=
  [.connected 7 false, .toradioWrite 7 [] 0, .txWork false]

/-- The receiver refuses the frame of an empty payload, which the sender builds. -/
theorem empty_write_refused :
    ¬ FramingAgrees .zero .zero [] ∧ (system 1 .wire).Runs (.boot 1) emptyWrite ∧
      ((system 1 .wire).run (.boot 1) emptyWrite).uart.outstanding =
        some [0x94, 0xC3, 0x00, 0x00] ∧
      rxParser.output .zero [0x94, 0xC3, 0x00, 0x00] = [] ∧
      (rxParser.state .zero [0x94, 0xC3, 0x00, 0x00]).state = .waitMagic1 := by
  refine ⟨?_, by decide, by decide, by decide, by decide⟩
  intro agrees
  exact (framing_agrees_iff .zero (by decide) (.inl rfl) []).mp agrees rfl

end MeshPbx
