import MeshPbx.FramingAgreement
import MeshPbx.Lib.Trace

/-! The uplink from end to end. What the proxy accepts for the node, from phones and of
its own, is claimed by the work item in the order of its acceptance, and what of it is
handed to the UART is what the node's own parser reads off the line. -/
namespace MeshPbx
variable {n : Nat} {p : Platform} {w w' : Proxy n}

/-- A message is accepted into the transmit queue; the work item claims it, and the UART
takes the frame built for it, or reports an error. -/
inductive Uplink where
  | accept (payload : Bytes)
  | start (payload frame : Bytes)
  | refuse (payload : Bytes)
  deriving DecidableEq, Repr

namespace Uplink

def out (p : Platform) (w : Proxy n) (e : Event n) : List Uplink :=
  match e with
  | .txWork _ =>
    if w.uart.txInProgress then []
    else w.uart.txMsgq.head?.toList.map fun payload =>
      match (w.apply p e).uart.outstanding with
      | some frame => .start payload frame
      | none => .refuse payload
  | e => ((w.apply p e).uart.txMsgq.drop w.uart.txMsgq.length).map .accept

def accepted (t : List Uplink) : List Bytes :=
  t.filterMap fun
    | .accept payload => some payload
    | .start _ _ | .refuse _ => none

/-- What the work item has taken out of the queue. -/
def claimed (t : List Uplink) : List Bytes :=
  t.filterMap fun
    | .accept _ => none
    | .start payload _ | .refuse payload => some payload

/-- What it has taken out and the UART has taken over. -/
def sent (t : List Uplink) : List Bytes :=
  t.filterMap fun
    | .start payload _ => some payload
    | .accept _ | .refuse _ => none

/-- The bytes handed to the UART. -/
def wire (t : List Uplink) : Bytes :=
  t.flatMap fun
    | .start _ frame => frame
    | .accept _ | .refuse _ => []

variable (t t' : List Uplink)

@[simp] theorem accepted_append : accepted (t ++ t') = accepted t ++ accepted t' :=
  List.filterMap_append

@[simp] theorem claimed_append : claimed (t ++ t') = claimed t ++ claimed t' :=
  List.filterMap_append

@[simp] theorem sent_append : sent (t ++ t') = sent t ++ sent t' := List.filterMap_append

@[simp] theorem wire_append : wire (t ++ t') = wire t ++ wire t' := List.flatMap_append

/-- Acceptance alone puts nothing on the wire. -/
theorem accept_only (payloads : List Bytes) :
    accepted (payloads.map .accept) = payloads ∧ claimed (payloads.map .accept) = [] ∧
      sent (payloads.map .accept) = [] ∧ wire (payloads.map .accept) = [] := by
  induction payloads with
  | nil => exact ⟨rfl, rfl, rfl, rfl⟩
  | cons payload payloads ih => exact ⟨congrArg (payload :: ·) ih.1, ih.2⟩

end Uplink

/-- Messages that are not empty. -/
def nonEmpty (payloads : List Bytes) : List Bytes :=
  payloads.filter fun payload => decide (payload ≠ [])

/-- The frame of any message the queue takes is read back as that message, and an empty
one as nothing; either way the parser is at a frame boundary again. -/
theorem any_frame_received {sm : RxSm} (idle : sm.state = .waitMagic1) {payload : Bytes}
    (short : payload.length ≤ MESHTASTIC_MAX_PAYLOAD) :
    rxParser.output sm (framed payload) = nonEmpty [payload] ∧
      (rxParser.state sm (framed payload)).state = .waitMagic1 := by
  cases payload with
  | nil =>
    have header : framed [] = [MESHTASTIC_MAGIC1, MESHTASTIC_MAGIC2, 0, 0] := rfl
    constructor
    · simp [header, rxParser, rxProcessByte, idle, nonEmpty]
    · simp [header, rxParser, rxProcessByte, idle]
  | cons byte rest =>
    have read := frame_received (.inl idle) ⟨byte :: rest, Nat.succ_pos _, short⟩
    exact read

/-- What the work item finds and what it has done before. -/
structure Uplinked (w : Proxy n) (t : List Uplink) : Prop where
  flagged : w.uart.txInProgress = w.uart.outstanding.isSome
  short : ∀ entry ∈ w.uart.txMsgq, entry.length ≤ MESHTASTIC_MAX_PAYLOAD
  fifo : Uplink.accepted t = Uplink.claimed t ++ w.uart.txMsgq
  read : rxParser.output .zero (Uplink.wire t) = nonEmpty (Uplink.sent t)
  boundary : (rxParser.state .zero (Uplink.wire t)).state = .waitMagic1

variable {t : List Uplink}

theorem uplinked_boot : Uplinked (Proxy.boot n) [] :=
  ⟨rfl, List.forall_mem_nil _, rfl, rfl, rfl⟩

/-- A step that only lets messages in. -/
theorem uplinked_accepting (uplinked : Uplinked w t) {more : List Bytes}
    (flag : w'.uart.txInProgress = w.uart.txInProgress)
    (outstanding : w'.uart.outstanding = w.uart.outstanding)
    (queue : w'.uart.txMsgq = w.uart.txMsgq ++ more)
    (short : ∀ entry ∈ more, entry.length ≤ MESHTASTIC_MAX_PAYLOAD) :
    Uplinked w' (t ++ more.map .accept) := by
  obtain ⟨flagged, shortQueue, fifo, read, boundary⟩ := uplinked
  obtain ⟨accepted, unclaimed, unsent, silent⟩ := Uplink.accept_only more
  refine ⟨by rw [flag, outstanding, flagged], ?_, ?_, ?_, ?_⟩
  · intro entry member
    rw [queue] at member
    rcases List.mem_append.mp member with old | new
    · exact shortQueue entry old
    · exact short entry new
  · rw [Uplink.accepted_append, Uplink.claimed_append, accepted, unclaimed, fifo, queue,
      List.append_nil, List.append_assoc]
  · rw [Uplink.wire_append, Uplink.sent_append, silent, unsent, List.append_nil, List.append_nil,
      read]
  · rw [Uplink.wire_append, silent, List.append_nil, boundary]

theorem uplinked_offered (uplinked : Uplinked w t) {entry : Bytes}
    (tx : w'.uart = (uartMeshtasticTx w.uart entry).1) :
    Uplinked w' (t ++ (w'.uart.txMsgq.drop w.uart.txMsgq.length).map .accept) := by
  unfold uartMeshtasticTx at tx
  split_ifs at tx with long full
  · have nothing : w'.uart.txMsgq.drop w.uart.txMsgq.length = [] := by simp [tx]
    rw [nothing]
    exact uplinked_accepting uplinked (by rw [tx]) (by rw [tx]) (by rw [tx]; simp)
      (List.forall_mem_nil _)
  · have nothing : w'.uart.txMsgq.drop w.uart.txMsgq.length = [] := by simp [tx]
    rw [nothing]
    exact uplinked_accepting uplinked (by rw [tx]) (by rw [tx]) (by rw [tx]; simp)
      (List.forall_mem_nil _)
  · have joined : w'.uart.txMsgq.drop w.uart.txMsgq.length = [entry] := by simp [tx]
    rw [joined]
    refine uplinked_accepting uplinked (by rw [tx]) (by rw [tx]) (by rw [tx]) ?_
    intro other member
    rw [List.mem_singleton.mp member]
    exact Nat.not_lt.mp long

/-- One run of the work item. -/
theorem uplinked_work (uplinked : Uplinked w t) (failed : Bool) :
    Uplinked (w.apply p (.txWork failed)) (t ++ Uplink.out p w (.txWork failed)) := by
  obtain ⟨flagged, short, fifo, read, boundary⟩ := uplinked
  by_cases busy : w.uart.txInProgress = true
  · simp only [Uplink.out, if_pos busy, List.append_nil, Proxy.apply, txWorkHandler]
    exact ⟨flagged, short, fifo, read, boundary⟩
  · have free : w.uart.outstanding = none := by
      cases outstanding : w.uart.outstanding with
      | none => rfl
      | some frame => simp [flagged, outstanding] at busy
    cases queued : w.uart.txMsgq with
    | nil =>
      simp only [Uplink.out, if_neg busy, queued, List.head?_nil, Option.toList_none, List.map_nil,
        List.append_nil, Proxy.apply, txWorkHandler]
      exact ⟨flagged, by simp, by rw [fifo, queued], read, boundary⟩
    | cons entry rest =>
      have later : ∀ other ∈ rest, other.length ≤ MESHTASTIC_MAX_PAYLOAD :=
        fun other member => short other (queued ▸ List.mem_cons_of_mem entry member)
      cases failed with
      | true =>
        simp only [Uplink.out, if_neg busy, queued, List.head?_cons, Option.toList_some,
          List.map_cons, List.map_nil, Proxy.apply, txWorkHandler, if_true, free]
        refine ⟨rfl, later, ?_, ?_, ?_⟩
        · rw [Uplink.accepted_append, Uplink.claimed_append, fifo, queued]
          simp [Uplink.accepted, Uplink.claimed]
        · rw [Uplink.wire_append, Uplink.sent_append]
          simpa [Uplink.wire, Uplink.sent] using read
        · rw [Uplink.wire_append]
          simpa [Uplink.wire] using boundary
      | false =>
        simp only [Uplink.out, if_neg busy, queued, List.head?_cons, Option.toList_some,
          List.map_cons, List.map_nil, Proxy.apply, txWorkHandler, Bool.false_eq_true,
          if_false, frame_built]
        obtain ⟨handed, restart⟩ :=
          any_frame_received boundary (short entry (queued ▸ List.mem_cons_self))
        refine ⟨rfl, later, ?_, ?_, ?_⟩
        · rw [Uplink.accepted_append, Uplink.claimed_append, fifo, queued]
          simp [Uplink.accepted, Uplink.claimed]
        · have line : Uplink.wire [.start entry (framed entry)] = framed entry :=
            List.append_nil _
          rw [Uplink.wire_append, Uplink.sent_append, line, Transducer.output_append, read, handed]
          exact (List.filter_append ..).symm
        · have line : Uplink.wire [.start entry (framed entry)] = framed entry :=
            List.append_nil _
          rw [Uplink.wire_append, line, Transducer.state_append]
          exact restart

theorem uplinked_end (uplinked : Uplinked w t) (aborted : Bool) :
    Uplinked (w.apply p (.txEnd aborted)) (t ++ Uplink.out p w (.txEnd aborted)) := by
  obtain ⟨_, short, fifo, read, boundary⟩ := uplinked
  have silent : Uplink.out p w (.txEnd aborted) = [] := by
    simp [Uplink.out, Proxy.apply, uartCbTxEnd]
  rw [silent, List.append_nil]
  exact ⟨rfl, short, fifo, read, boundary⟩

theorem uplinked_step (documented : p.Documented) (w : Proxy n) (t : List Uplink) (e : Event n)
    (uplinked : Uplinked w t) : Uplinked (w.apply p e) (t ++ Uplink.out p w e) := by
  have offers (other : e.ofUart = false) :
      Uplinked (w.apply p e)
        (t ++ ((w.apply p e).uart.txMsgq.drop w.uart.txMsgq.length).map .accept) := by
    have effect := tx_effect documented w e
    generalize w.apply p e = after at effect ⊢
    cases effect with
    | quiet _ same =>
      rw [same, List.drop_length]
      exact uplinked_accepting uplinked (by rw [same]) (by rw [same]) (by rw [same]; simp)
        (List.forall_mem_nil _)
    | offered _ entry _ tx => exact uplinked_offered uplinked tx
    | worked => exact Bool.noConfusion other
    | ended => exact Bool.noConfusion other
  cases e with
  | txWork failed => exact uplinked_work uplinked failed
  | txEnd aborted => exact uplinked_end uplinked aborted
  | _ => exact offers rfl

/-- The UART reports an error from `uart_tx`. -/
def UartFails (_ : Proxy n) (e : Event n) : Prop := e = .txWork true

instance (w : Proxy n) (e : Event n) : Decidable (UartFails w e) :=
  match e with
  | .txWork true => isTrue rfl
  | .txWork false => isFalse nofun
  | .sessionStart _ | .fromradio _ _ | .toradioWrite _ _ _ | .fromradioRead _ _ _
  | .fromnumRead _ _ _ | .nodeRegWrite _ _ _ | .connected _ _ | .disconnected _ | .keepalive
  | .fetchRetry | .liveness _ | .teardown _ | .txEnd _ => isFalse nofun

/-- Without an error, what is claimed is sent. -/
theorem out_sent (w : Proxy n) (e : Event n) (works : ¬ UartFails w e) :
    Uplink.sent (Uplink.out p w e) = Uplink.claimed (Uplink.out p w e) := by
  have accepts (payloads : List Bytes) :
      Uplink.sent (payloads.map .accept) = Uplink.claimed (payloads.map .accept) := by
    obtain ⟨_, unclaimed, unsent, _⟩ := Uplink.accept_only payloads
    rw [unclaimed, unsent]
  cases e with
  | txWork failed =>
    cases failed with
    | true => exact absurd rfl works
    | false =>
      simp only [Uplink.out]
      split_ifs with busy
      · rfl
      · cases queued : w.uart.txMsgq with
        | nil => rfl
        | cons entry rest =>
          simp only [List.head?_cons, Option.toList_some, List.map_cons, List.map_nil, Proxy.apply,
            txWorkHandler, queued, if_neg busy, Bool.false_eq_true, if_false]
          rfl
  | _ => exact accepts _

theorem sent_claimed (es : List (Event n)) (runs : (system n p).Runs w es)
    (works : (system n p).Along (fun w e => ¬ UartFails w e) w es) :
    Uplink.sent ((system n p).trace (Uplink.out p) w es) =
      Uplink.claimed ((system n p).trace (Uplink.out p) w es) := by
  have preserves : ∀ (w : Proxy n) t e, Uplink.sent t = Uplink.claimed t →
      (system n p).enabled w e → ¬ UartFails w e →
      Uplink.sent (t ++ Uplink.out p w e) = Uplink.claimed (t ++ Uplink.out p w e) := by
    intro w t e same _ works
    rw [Uplink.sent_append, Uplink.claimed_append, same, out_sent w e works]
  exact Machine.trace_invariant_along preserves es rfl runs works

/-- The want_config of the start goes out while a phone writes an empty message and one
of a byte. -/
def mixedUplink : List (Event 1) :=
  [.sessionStart 5, .connected 7 false, .txWork false, .toradioWrite 7 [] 0,
    .toradioWrite 7 [0xff] 0, .txEnd false, .txWork false, .txEnd false]

end MeshPbx
