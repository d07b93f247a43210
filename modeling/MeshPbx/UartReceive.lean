import MeshPbx.UartMeshtastic
import MeshPbx.Lib.Transducer
import MeshPbx.Lib.Machine

/-! UART receive path: the interrupt puts received bytes into a ring buffer, a
work item drains the ring into the framing state machine, and a delayed work
item resets a frame that has stalled. The interrupt may run between any two
turns of the draining loop. -/
namespace MeshPbx

def RING_BUF_SIZE : Nat := 2048
def RX_RESYNC_TIMEOUT_MS : Nat := 250

inductive RxState where
  | waitMagic1 | waitMagic2 | waitLenHi | waitLenLo | waitPayload
  deriving DecidableEq, Repr

/-- `rx_sm`. -/
structure RxSm where
  state : RxState
  expectedLen : UInt16
  receivedLen : UInt16
  payload : ByteBuffer

def RxSm.zero : RxSm where
  state := .waitMagic1
  expectedLen := 0
  receivedLen := 0
  payload := .zero

/-- One byte through the state machine, with the frames it hands to
`fromradio_cb`; `cb` is whether the callback is set. -/
def rxProcessByte (cb : Bool) (sm : RxSm) (byte : UInt8) : RxSm × List Bytes :=
  match sm.state with
  | .waitMagic1 =>
    (if byte = MESHTASTIC_MAGIC1 then { sm with state := .waitMagic2 } else sm, [])
  | .waitMagic2 =>
    (if byte = MESHTASTIC_MAGIC2 then { sm with state := .waitLenHi }
      else { sm with state := if byte = MESHTASTIC_MAGIC1 then .waitMagic2 else .waitMagic1 }, [])
  | .waitLenHi => ({ sm with expectedLen := byte.toUInt16 <<< 8, state := .waitLenLo }, [])
  | .waitLenLo =>
    let expected := sm.expectedLen ||| byte.toUInt16
    (if expected = 0 ∨ expected.toNat > MESHTASTIC_MAX_PAYLOAD then
        { sm with expectedLen := expected, state := .waitMagic1 }
      else { sm with expectedLen := expected, receivedLen := 0, state := .waitPayload }, [])
  | .waitPayload =>
    let sm := { sm with
      payload := sm.payload.write sm.receivedLen.toNat [byte]
      receivedLen := sm.receivedLen + 1 }
    if sm.receivedLen = sm.expectedLen then
      ({ sm with state := .waitMagic1 },
        if cb then [sm.payload.read 0 sm.receivedLen.toNat] else [])
    else (sm, [])

/-- The framing state machine with the callback set. -/
def rxParser : Transducer RxSm UInt8 Bytes := ⟨rxProcessByte true⟩

@[simp] theorem rxParser_step (sm : RxSm) (byte : UInt8) :
    rxParser.step sm byte = rxProcessByte true sm byte := rfl

/-- Where the run of `rx_work_handler` in progress stands: at the head of its
loop, or between `ring_buf_get` and `rx_process_byte`. -/
inductive RxWork where
  | idle
  | looping
  | holding (byte : UInt8)
  deriving DecidableEq, Repr

/-- The receive statics. `rxWork` is the pending flag of the work item and
`frames` logs the calls of `fromradio_cb`. -/
structure UartRx where
  rxSm : RxSm
  rxRingBuf : Bytes
  rxOverrunBytes : Nat
  rxWork : Bool
  resyncDwork : Delayable
  fromradioCb : Bool
  handler : RxWork
  frames : List Bytes

/-- The statics once `uart_meshtastic_init` has set the callback. -/
def UartRx.init : UartRx where
  rxSm := .zero
  rxRingBuf := []
  rxOverrunBytes := 0
  rxWork := false
  resyncDwork := none
  fromradioCb := true
  handler := .idle
  frames := []

/-- The ring takes what fits and returns how much that was. -/
def ringBufPut (ring data : Bytes) : Bytes × Nat :=
  (ring ++ data.take (RING_BUF_SIZE - ring.length), min data.length (RING_BUF_SIZE - ring.length))

/-- UART_RX_RDY. -/
def uartCbRxRdy (u : UartRx) (data : Bytes) : UartRx :=
  let (ring, put) := ringBufPut u.rxRingBuf data
  { u with
    rxRingBuf := ring
    rxOverrunBytes := u.rxOverrunBytes + (data.length - put)
    rxWork := true }

/-- UART_RX_DISABLED: whatever `uart_rx_enable` returns, the state machine is
reset; the ring is left as it is. -/
def uartCbRxDisabled (u : UartRx) : UartRx :=
  { u with rxSm := { u.rxSm with state := .waitMagic1 } }

def rxResyncHandler (u : UartRx) : UartRx :=
  if u.rxSm.state ≠ .waitMagic1 then
    { u with rxSm := { u.rxSm with state := .waitMagic1, receivedLen := 0, expectedLen := 0 } }
  else u

/-- One call of `rx_process_byte`, with its calls of `fromradio_cb`. -/
def UartRx.process (u : UartRx) (byte : UInt8) : UartRx :=
  let (sm, handed) := rxProcessByte u.fromradioCb u.rxSm byte
  { u with rxSm := sm, frames := u.frames ++ handed }

/-- What `rx_work_handler` does once the ring is empty. -/
def rxWorkFinish (u : UartRx) : UartRx :=
  { u with
    resyncDwork :=
      if u.rxSm.state ≠ .waitMagic1 then some RX_RESYNC_TIMEOUT_MS else none
    rxOverrunBytes := 0 }

/-- An undisturbed run of the work item. -/
def rxWorkHandler (u : UartRx) : UartRx :=
  rxWorkFinish { u.rxRingBuf.foldl UartRx.process u with rxRingBuf := [] }

/-! The receive path as a machine. -/

inductive RxEvent where
  | rdy (data : Bytes)
  | disabled
  | resync
  | work
  | get
  | process
  deriving DecidableEq, Repr

namespace UartRx

/-- `rx_work_handler` and `rx_resync_handler` run on one work queue, each only
while its item is due and no other runs. -/
def enabled (u : UartRx) : RxEvent → Prop
  | .rdy _ | .disabled => True
  | .resync => u.handler = .idle ∧ u.resyncDwork.isSome
  | .work => u.handler = .idle ∧ u.rxWork = true
  | .get => u.handler = .looping
  | .process => u.handler ≠ .idle ∧ u.handler ≠ .looping

instance (u : UartRx) : (e : RxEvent) → Decidable (u.enabled e)
  | .rdy _ | .disabled => isTrue trivial
  | .resync | .work | .process => inferInstanceAs (Decidable (_ ∧ _))
  | .get => inferInstanceAs (Decidable (_ = _))

/-- A work item stops being pending when its handler starts. -/
def apply (u : UartRx) : RxEvent → UartRx
  | .rdy data => uartCbRxRdy u data
  | .disabled => uartCbRxDisabled u
  | .resync => rxResyncHandler { u with resyncDwork := none }
  | .work => { u with rxWork := false, handler := .looping }
  | .get => match u.rxRingBuf with
    | [] => { rxWorkFinish u with handler := .idle }
    | byte :: rest => { u with rxRingBuf := rest, handler := .holding byte }
  | .process => match u.handler with
    | .holding byte => { u.process byte with handler := .looping }
    | .idle | .looping => u

end UartRx

def receiver : Machine UartRx RxEvent where
  enabled := UartRx.enabled
  next := UartRx.apply

instance (u : UartRx) (e : RxEvent) : Decidable (receiver.enabled u e) :=
  inferInstanceAs (Decidable (u.enabled e))

/-- The steps of `rx_work_handler`. -/
def RxEvent.Turn : RxEvent → Prop
  | .rdy _ | .disabled | .resync => False
  | .work | .get | .process => True

instance : (e : RxEvent) → Decidable e.Turn
  | .rdy _ | .disabled | .resync => isFalse id
  | .work | .get | .process => isTrue trivial

theorem turn_cases {e : RxEvent} (turn : e.Turn) : e = .work ∨ e = .get ∨ e = .process := by
  cases e with
  | rdy => exact turn.elim
  | disabled => exact turn.elim
  | resync => exact turn.elim
  | work => exact .inl rfl
  | get => exact .inr (.inl rfl)
  | process => exact .inr (.inr rfl)

/-- The turns that take a ring through the draining loop, up to the one that
finds it empty. -/
def drain (ring : Bytes) : List RxEvent :=
  ring.flatMap (fun _ => [.get, .process]) ++ [.get]

theorem drain_turns (ring : Bytes) : ∀ e ∈ drain ring, e.Turn := by
  intro e member
  simp only [drain, List.mem_append, List.mem_flatMap, List.mem_cons, List.not_mem_nil,
    or_false] at member
  rcases member with ⟨_, _, rfl | rfl⟩ | rfl <;> trivial

/-- Processing bytes leaves the ring alone. -/
theorem process_loop (u : UartRx) (bytes ring : Bytes) :
    bytes.foldl UartRx.process { u with rxRingBuf := ring } =
      { bytes.foldl UartRx.process u with rxRingBuf := ring } := by
  induction bytes generalizing u with
  | nil => rfl
  | cons byte bytes ih => exact ih (u.process byte)

/-- Left undisturbed, the turns of the loop amount to the handler. -/
theorem drain_run (u : UartRx) (ring : Bytes) :
    receiver.Runs { u with rxRingBuf := ring, handler := .looping } (drain ring) ∧
      receiver.run { u with rxRingBuf := ring, handler := .looping } (drain ring) =
        { rxWorkHandler { u with rxRingBuf := ring } with handler := .idle } := by
  induction ring generalizing u with
  | nil => exact ⟨⟨rfl, trivial⟩, rfl⟩
  | cons byte rest ih =>
    obtain ⟨runs, finished⟩ := ih (u.process byte)
    refine ⟨⟨rfl, ⟨RxWork.noConfusion, RxWork.noConfusion⟩, runs⟩, finished.trans ?_⟩
    have processed : UartRx.process { u with rxRingBuf := byte :: rest } byte =
        { u.process byte with rxRingBuf := byte :: rest } := rfl
    simp only [rxWorkHandler, List.foldl_cons, processed, process_loop]

end MeshPbx
