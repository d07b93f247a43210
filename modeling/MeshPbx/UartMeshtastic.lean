import MeshPbx.Platform

/-! UART transmit path: a bounded message queue drained one frame at a time by
a work item that the completion interrupt resubmits. -/
namespace MeshPbx

def MESHTASTIC_MAX_PAYLOAD : Nat := 512
def MESHTASTIC_MAGIC1 : UInt8 := 0x94
def MESHTASTIC_MAGIC2 : UInt8 := 0xC3
def TX_QUEUE_DEPTH : Nat := 4

/-- A payload handed on by the receive state machine, which accepts no other
length. -/
structure Frame where
  bytes : Bytes
  pos : 0 < bytes.length
  le : bytes.length ≤ MESHTASTIC_MAX_PAYLOAD

/-- A frame given by its bytes, cut to the maximum. -/
def Frame.of (first : UInt8) (rest : Bytes) : Frame where
  bytes := first :: rest.take (MESHTASTIC_MAX_PAYLOAD - 1)
  pos := Nat.succ_pos _
  le := Nat.succ_le_of_lt (Nat.lt_succ_of_le (List.length_take_le _ _))

/-- `txWork` is the pending flag of the work item; `outstanding` is the frame
the UART driver owns between a successful `uart_tx` and its completion event. -/
structure UartTx where
  txMsgq : List Bytes
  txFrameBuf : ByteBuffer
  txInProgress : Bool
  txWork : Bool
  outstanding : Option Bytes

def UartTx.zero : UartTx where
  txMsgq := []
  txFrameBuf := .zero
  txInProgress := false
  txWork := false
  outstanding := none

def uartMeshtasticTx (u : UartTx) (payload : Bytes) : UartTx × Rc :=
  if payload.length > MESHTASTIC_MAX_PAYLOAD then (u, some .emsgsize)
  else if u.txMsgq.length ≥ TX_QUEUE_DEPTH then (u, some .enomem)
  else ({ u with txMsgq := u.txMsgq ++ [payload], txWork := true }, none)

/-- A payload within the maximum is refused only by a full queue. -/
theorem uart_tx_sent (u : UartTx) {payload : Bytes}
    (short : payload.length ≤ MESHTASTIC_MAX_PAYLOAD) :
    (uartMeshtasticTx u payload).2 = none ↔ u.txMsgq.length < TX_QUEUE_DEPTH := by
  have notLong : ¬ payload.length > MESHTASTIC_MAX_PAYLOAD := Nat.not_lt_of_le short
  simp only [uartMeshtasticTx, if_neg notLong]
  split_ifs with full
  · simp only [false_iff]
    omega
  · simpa using full

/-- An accepted message joins the back of the transmit queue. -/
theorem uart_tx_queue (u : UartTx) (payload : Bytes) :
    (uartMeshtasticTx u payload).1.txMsgq = u.txMsgq ∨
      (uartMeshtasticTx u payload).1.txMsgq = u.txMsgq ++ [payload] := by
  unfold uartMeshtasticTx
  split_ifs
  · exact .inl rfl
  · exact .inl rfl
  · exact .inr rfl

/-- The four framing bytes before a payload. -/
def frameHeader (len : Nat) : Bytes :=
  [MESHTASTIC_MAGIC1, MESHTASTIC_MAGIC2, UInt8.ofNat (len / 256), UInt8.ofNat (len % 256)]

/-- One run of the work item; `failed` is whether `uart_tx` reports an error. -/
def txWorkHandler (u : UartTx) (failed : Bool) : UartTx :=
  if u.txInProgress then u
  else match u.txMsgq with
    | [] => u
    | entry :: rest =>
      let buf := (u.txFrameBuf.write 0 (frameHeader entry.length)).write 4 entry
      if failed then
        { u with txMsgq := rest, txFrameBuf := buf, txInProgress := false, txWork := true }
      else
        { u with
          txMsgq := rest
          txFrameBuf := buf
          txInProgress := true
          outstanding := some (buf.read 0 (entry.length + 4)) }

/-- UART_TX_DONE and UART_TX_ABORTED differ only in what is logged: both clear
the flag and resubmit the work item. -/
def uartCbTxEnd (u : UartTx) : UartTx :=
  { u with txInProgress := false, txWork := true, outstanding := none }

end MeshPbx
