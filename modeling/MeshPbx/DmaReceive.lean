import MeshPbx.ReceiveAccounting
import Mathlib.Logic.Function.Basic

/-! Reception down to the DMA buffers. The driver fills the two buffers in turn while
`uart_cb` copies out what it reports of them; a buffer that the callback answers a
request with must be free. The driver's side follows the asynchronous UART interface:
it reports and releases its buffers in the order it was given them, asks for the next
one while it holds a single one, and gives all of them back when it stops. -/
namespace MeshPbx

def UART_DMA_BUF_SIZE : Nat := 256

/-- A buffer in the hands of the driver: which one, and how much of it has been filled
and reported. -/
structure DmaSpan where
  buf : UInt8
  filled : Nat
  reported : Nat
  deriving DecidableEq, Repr

namespace DmaSpan

def fresh (buf : UInt8) : DmaSpan := ⟨buf, 0, 0⟩

/-- The bytes in it that are not yet reported. -/
def unreported (dmaBuf : UInt8 → ByteBuffer) (span : DmaSpan) : Bytes :=
  (dmaBuf span.buf).read span.reported (span.filled - span.reported)

end DmaSpan

/-- `dma_buf` and `active_buf`, the buffers that the driver owns, oldest first, and the
receive path behind the callback. `line` logs the bytes received, but for those that
the driver stopped without reporting. -/
structure DmaRx where
  dmaBuf : UInt8 → ByteBuffer
  activeBuf : UInt8
  owned : List DmaSpan
  line : Bytes
  rx : UartRx
  tally : RxTally

namespace DmaRx

/-- `uart_rx_buf_rsp` is refused by a driver that is off or has its next buffer. -/
def uartRxBufRsp (s : DmaRx) (buf : UInt8) : DmaRx :=
  if s.owned.length = 1 then { s with owned := s.owned ++ [.fresh buf] } else s

/-- `uart_rx_enable`, which may fail. -/
def uartRxEnable (s : DmaRx) (buf : UInt8) (rerr : Bool) : DmaRx :=
  if rerr then s else { s with owned := [.fresh buf] }

/-- The statics once `uart_meshtastic_init` has enabled reception. -/
def init : DmaRx :=
  let s : DmaRx := ⟨fun _ => .zero, 0, [], [], .init, .zero⟩
  uartRxEnable { s with activeBuf := 0 } 0 false

/-- The bytes received and not yet reported. -/
def unreported (s : DmaRx) : Bytes :=
  s.owned.flatMap (DmaSpan.unreported s.dmaBuf)

/-- UART_RX_BUF_REQUEST. -/
def uartCbRxBufRequest (s : DmaRx) : DmaRx :=
  let activeBuf := s.activeBuf ^^^ 1
  uartRxBufRsp { s with activeBuf := activeBuf } activeBuf

/-- A step of the receive path behind the callback. -/
def receive (s : DmaRx) (e : RxEvent) : DmaRx :=
  { s with rx := s.rx.apply e, tally := s.tally.after s.rx e }

/-- UART_RX_DISABLED. -/
def uartCbRxDisabled (s : DmaRx) (rerr : Bool) : DmaRx :=
  (uartRxEnable { s with activeBuf := 0 } 0 rerr).receive .disabled

/-- A byte off the line goes into the oldest buffer that has room. -/
def fill (byte : UInt8) : List DmaSpan → (UInt8 → ByteBuffer) → List DmaSpan × (UInt8 → ByteBuffer)
  | [], dmaBuf => ([], dmaBuf)
  | span :: spans, dmaBuf =>
    if span.filled < UART_DMA_BUF_SIZE then
      ({ span with filled := span.filled + 1 } :: spans,
        Function.update dmaBuf span.buf ((dmaBuf span.buf).write span.filled [byte]))
    else
      let (later, dmaBuf) := fill byte spans dmaBuf
      (span :: later, dmaBuf)

end DmaRx

inductive DmaEvent where
  | byte (byte : UInt8)
  | rdy
  | released
  | request
  | stopped
  | disabled (rerr : Bool)
  | work (e : RxEvent)
  deriving DecidableEq, Repr

/-- A step of the receive path that the driver makes it take. -/
def RxEvent.Interrupt : RxEvent → Prop
  | .rdy _ | .disabled => True
  | .resync | .work | .get | .process => False

instance : (e : RxEvent) → Decidable e.Interrupt
  | .rdy _ | .disabled => isTrue trivial
  | .resync | .work | .get | .process => isFalse id

namespace DmaRx

/-- What holds of the oldest buffer that the driver owns. -/
def oldest (s : DmaRx) (P : DmaSpan → Prop) : Prop :=
  match s.owned with
  | [] => False
  | span :: _ => P span

instance (s : DmaRx) (P : DmaSpan → Prop) [DecidablePred P] : Decidable (s.oldest P) := by
  unfold oldest
  split <;> infer_instance

def enabled (s : DmaRx) : DmaEvent → Prop
  | .byte _ => ∃ span ∈ s.owned, span.filled < UART_DMA_BUF_SIZE
  | .rdy => s.oldest fun span => span.reported < span.filled
  | .released => s.oldest fun span => span.reported = UART_DMA_BUF_SIZE
  | .request => s.owned.length = 1
  | .stopped | .disabled _ => s.owned ≠ []
  | .work e => s.rx.enabled e ∧ ¬ e.Interrupt

instance (s : DmaRx) : (e : DmaEvent) → Decidable (s.enabled e)
  | .byte _ => inferInstanceAs (Decidable (∃ span ∈ s.owned, _))
  | .rdy | .released => inferInstanceAs (Decidable (s.oldest _))
  | .request => inferInstanceAs (Decidable (_ = _))
  | .stopped | .disabled _ => inferInstanceAs (Decidable (_ ≠ _))
  | .work _ => inferInstanceAs (Decidable (_ ∧ _))

def apply (s : DmaRx) : DmaEvent → DmaRx
  | .byte byte =>
    let (owned, dmaBuf) := fill byte s.owned s.dmaBuf
    { s with owned := owned, dmaBuf := dmaBuf, line := s.line ++ [byte] }
  | .rdy => match s.owned with
    | [] => s
    | span :: spans =>
      { s with owned := { span with reported := span.filled } :: spans }.receive
        (.rdy (span.unreported s.dmaBuf))
  | .released => { s with owned := s.owned.tail }
  | .request => s.uartCbRxBufRequest
  | .stopped => s
  | .disabled rerr =>
    uartCbRxDisabled
      { s with owned := [], line := s.line.take (s.line.length - s.unreported.length) } rerr
  | .work e => s.receive e

end DmaRx

def dmaReceiver : Machine DmaRx DmaEvent where
  enabled := DmaRx.enabled
  next := DmaRx.apply

instance (s : DmaRx) (e : DmaEvent) : Decidable (dmaReceiver.enabled s e) :=
  inferInstanceAs (Decidable (s.enabled e))

/-! The buffers. -/

def DmaSpan.Within (span : DmaSpan) : Prop :=
  span.reported ≤ span.filled ∧ span.filled ≤ UART_DMA_BUF_SIZE

/-- The buffers in the driver's hands are the two of `dma_buf`, in turn, the one given
last being `active_buf`; the second is not written to before the first is full. -/
inductive Owning (active : UInt8) : List DmaSpan → Prop
  | off : Owning active []
  | single (span : DmaSpan) (within : span.Within) (buf : span.buf = active) :
      Owning active [span]
  | double (span next : DmaSpan) (within : span.Within) (follows : next.Within)
      (buf : span.buf = active ^^^ 1) (given : next.buf = active)
      (turn : span.filled = UART_DMA_BUF_SIZE ∨ next.filled = 0) : Owning active [span, next]

theorem fresh_within (buf : UInt8) : (DmaSpan.fresh buf).Within := ⟨Nat.le_refl 0, Nat.zero_le _⟩

/-- The receive side between two steps. -/
structure Receiving (s : DmaRx) : Prop where
  active : s.activeBuf = 0 ∨ s.activeBuf = 1
  owning : Owning s.activeBuf s.owned
  line : s.line = s.tally.arrived ++ s.unreported

variable {s : DmaRx} {dmaBuf : UInt8 → ByteBuffer} {span other : DmaSpan}

theorem toggle_ne (active : UInt8) (known : active = 0 ∨ active = 1) :
    active ^^^ 1 ≠ active ∧ (active ^^^ 1 = 0 ∨ active ^^^ 1 = 1) ∧ active ^^^ 1 ^^^ 1 = active := by
  rcases known with rfl | rfl <;> decide

/-- A span of which all that is filled has been reported. -/
theorem unreported_done (done : span.filled ≤ span.reported) : span.unreported dmaBuf = [] := by
  rw [DmaSpan.unreported, Nat.sub_eq_zero_of_le done, ByteBuffer.read_zero]

/-- A byte written behind the filled part is the next of the unreported ones. -/
theorem unreported_filled (byte : UInt8) (within : span.Within) :
    { span with filled := span.filled + 1 }.unreported
        (Function.update dmaBuf span.buf ((dmaBuf span.buf).write span.filled [byte])) =
      span.unreported dmaBuf ++ [byte] := by
  have ordered := within.1
  have split : span.filled + 1 - span.reported = (span.filled - span.reported) + 1 := by omega
  have place : span.reported + (span.filled - span.reported) = span.filled := by omega
  have before := ByteBuffer.read_write_disjoint (dmaBuf span.buf) span.filled span.reported
    (span.filled - span.reported) [byte] (.inl (by omega))
  have written := ByteBuffer.read_write_same (dmaBuf span.buf) span.filled [byte]
  simp only [DmaSpan.unreported, Function.update_self]
  rw [split, ByteBuffer.read_add, before, place]
  exact congrArg _ written

/-- A write to one buffer leaves what is unreported of another. -/
theorem unreported_other (apart : other.buf ≠ span.buf) (buffer : ByteBuffer) :
    other.unreported (Function.update dmaBuf span.buf buffer) = other.unreported dmaBuf := by
  rw [DmaSpan.unreported, Function.update_of_ne apart, DmaSpan.unreported]

theorem filled_within (within : span.Within) (free : span.filled < UART_DMA_BUF_SIZE) :
    { span with filled := span.filled + 1 }.Within :=
  ⟨Nat.le_succ_of_le within.1, free⟩

theorem receiving_init : Receiving .init := by
  refine ⟨.inl rfl, ?_, rfl⟩
  exact .single (.fresh 0) (fresh_within 0) rfl

theorem receiving_byte (byte : UInt8) (receiving : Receiving s)
    (room : ∃ span ∈ s.owned, span.filled < UART_DMA_BUF_SIZE) :
    Receiving (s.apply (.byte byte)) := by
  obtain ⟨active, owning, line⟩ := receiving
  have apart := (toggle_ne s.activeBuf active).1
  rw [DmaRx.unreported] at line
  generalize held : s.owned = owned at owning line room
  cases owning with
  | off =>
    obtain ⟨span, member, _⟩ := room
    exact absurd member List.not_mem_nil
  | single span within buf =>
    have free : span.filled < UART_DMA_BUF_SIZE := by simpa using room
    simp only [DmaRx.apply, held, DmaRx.fill, if_pos free]
    refine ⟨active, .single _ (filled_within within free) buf, ?_⟩
    simp only [DmaRx.unreported, List.flatMap_singleton] at line ⊢
    rw [unreported_filled byte within, line, List.append_assoc]
  | double span next within follows buf given turn =>
    have others : next.buf ≠ span.buf := by
      rw [given, buf]
      exact apart.symm
    simp only [List.flatMap_cons, List.flatMap_nil, List.append_nil] at line
    by_cases free : span.filled < UART_DMA_BUF_SIZE
    · have unused : next.filled = 0 := turn.resolve_left (Nat.ne_of_lt free)
      have nothing : next.unreported s.dmaBuf = [] := unreported_done (by omega)
      simp only [DmaRx.apply, held, DmaRx.fill, if_pos free]
      refine ⟨active, .double _ _ (filled_within within free) follows buf given (.inr unused), ?_⟩
      simp only [DmaRx.unreported, List.flatMap_cons, List.flatMap_nil, List.append_nil]
      rw [unreported_filled byte within, unreported_other others, line, nothing, List.append_nil,
        List.append_nil, List.append_assoc]
    · have full : span.filled = UART_DMA_BUF_SIZE := by
        have bound := within.2
        omega
      have free_next : next.filled < UART_DMA_BUF_SIZE := by simpa [full] using room
      simp only [DmaRx.apply, held, DmaRx.fill, if_neg free, if_pos free_next]
      refine ⟨active, .double _ _ within (filled_within follows free_next) buf given (.inl full), ?_⟩
      simp only [DmaRx.unreported, List.flatMap_cons, List.flatMap_nil, List.append_nil]
      rw [unreported_other others.symm, unreported_filled byte follows, line, List.append_assoc,
        List.append_assoc]

/-- What a report leaves unreported follows what it reports. -/
theorem receiving_rdy (receiving : Receiving s) (ahead : s.oldest fun span =>
    span.reported < span.filled) : Receiving (s.apply .rdy) := by
  obtain ⟨active, owning, line⟩ := receiving
  have reported (span : DmaSpan) :
      { span with reported := span.filled }.unreported s.dmaBuf = [] :=
    unreported_done (Nat.le_refl _)
  rw [DmaRx.unreported] at line
  generalize held : s.owned = owned at owning line
  cases owning with
  | off => simp [DmaRx.oldest, held] at ahead
  | single span within buf =>
    simp only [DmaRx.apply, held, DmaRx.receive]
    refine ⟨active, .single _ ⟨Nat.le_refl _, within.2⟩ buf, ?_⟩
    simp only [DmaRx.unreported, List.flatMap_singleton, RxTally.after] at line ⊢
    rw [reported, List.append_nil, line]
  | double span next within follows buf given turn =>
    simp only [DmaRx.apply, held, DmaRx.receive]
    refine ⟨active, .double _ _ ⟨Nat.le_refl _, within.2⟩ follows buf given turn, ?_⟩
    simp only [DmaRx.unreported, List.flatMap_cons, RxTally.after] at line ⊢
    rw [reported, List.nil_append, line, List.append_assoc]

/-- A buffer is given back when all of it has been reported. -/
theorem receiving_released (receiving : Receiving s) (done : s.oldest fun span =>
    span.reported = UART_DMA_BUF_SIZE) : Receiving (s.apply .released) := by
  obtain ⟨active, owning, line⟩ := receiving
  rw [DmaRx.unreported] at line
  generalize held : s.owned = owned at owning line
  simp only [DmaRx.apply, held]
  cases owning with
  | off => simp [DmaRx.oldest, held] at done
  | single span within buf =>
    have whole : span.reported = UART_DMA_BUF_SIZE := by simpa [DmaRx.oldest, held] using done
    refine ⟨active, .off, ?_⟩
    simp only [DmaRx.unreported, List.flatMap_singleton] at line ⊢
    rw [line, unreported_done (whole ▸ within.2)]
    rfl
  | double span next within follows buf given turn =>
    have whole : span.reported = UART_DMA_BUF_SIZE := by simpa [DmaRx.oldest, held] using done
    refine ⟨active, .single next follows given, ?_⟩
    simp only [DmaRx.unreported, List.flatMap_cons, List.tail_cons] at line ⊢
    rw [line, unreported_done (whole ▸ within.2), List.nil_append]

/-- The callback answers a request with the buffer that the driver does not hold. -/
theorem request_answered (known : s.activeBuf = 0 ∨ s.activeBuf = 1)
    (owning : Owning s.activeBuf s.owned) (single : s.owned.length = 1) :
    (∀ span ∈ s.owned, span.buf ≠ s.activeBuf ^^^ 1) ∧ s.apply .request = { s with
      activeBuf := s.activeBuf ^^^ 1
      owned := s.owned ++ [.fresh (s.activeBuf ^^^ 1)] } := by
  obtain ⟨apart, _, _⟩ := toggle_ne s.activeBuf known
  constructor
  · intro held member
    generalize s.owned = owned at owning single member
    cases owning with
    | off => exact absurd member List.not_mem_nil
    | single span within buf =>
      rw [List.mem_singleton.mp member, buf]
      exact apart.symm
    | double => simp at single
  · simp only [DmaRx.apply, DmaRx.uartCbRxBufRequest, DmaRx.uartRxBufRsp, if_pos single]

theorem receiving_request (receiving : Receiving s) (single : s.owned.length = 1) :
    Receiving (s.apply .request) := by
  obtain ⟨active, owning, line⟩ := receiving
  obtain ⟨_, known, back⟩ := toggle_ne s.activeBuf active
  rw [(request_answered active owning single).2]
  refine ⟨known, ?_, ?_⟩
  · generalize s.owned = owned at owning single ⊢
    cases owning with
    | off => simp at single
    | single span within buf =>
      exact .double span _ within (fresh_within _) (buf.trans back.symm) rfl (.inr rfl)
    | double => simp at single
  · simp only [DmaRx.unreported, List.flatMap_append, List.flatMap_singleton] at line ⊢
    have none_yet : (DmaSpan.fresh (s.activeBuf ^^^ 1)).unreported s.dmaBuf = [] :=
      unreported_done (Nat.le_refl 0)
    rw [none_yet, List.append_nil, line]

/-- A stop gives all buffers back, and reception starts over with the first. -/
theorem receiving_disabled (rerr : Bool) (receiving : Receiving s) :
    Receiving (s.apply (.disabled rerr)) := by
  have reported : s.line.take (s.line.length - s.unreported.length) = s.tally.arrived := by
    rw [receiving.line, List.length_append, Nat.add_sub_cancel, List.take_left]
  simp only [DmaRx.apply, DmaRx.uartCbRxDisabled, DmaRx.uartRxEnable]
  cases rerr with
  | true =>
    refine ⟨.inl rfl, .off, ?_⟩
    exact reported.trans (List.append_nil _).symm
  | false =>
    refine ⟨.inl rfl, .single _ (fresh_within 0) rfl, ?_⟩
    exact reported.trans (List.append_nil _).symm

/-- Only a report adds to the bytes that the callback has been given. -/
theorem work_arrived {e : RxEvent} {t : RxTally} {u : UartRx} (quiet : ¬ e.Interrupt) :
    (t.after u e).arrived = t.arrived := by
  cases e with
  | rdy => exact absurd trivial quiet
  | get =>
    simp only [RxTally.after]
    split <;> rfl
  | _ => rfl

theorem receiving_step (s : DmaRx) (e : DmaEvent) (receiving : Receiving s)
    (enabled : s.enabled e) : Receiving (s.apply e) := by
  cases e with
  | byte byte => exact receiving_byte byte receiving enabled
  | rdy => exact receiving_rdy receiving enabled
  | released => exact receiving_released receiving enabled
  | request => exact receiving_request receiving enabled
  | stopped => exact receiving
  | disabled rerr => exact receiving_disabled rerr receiving
  | work e =>
    have arrived : (s.tally.after s.rx e).arrived = s.tally.arrived := work_arrived enabled.2
    refine ⟨receiving.active, receiving.owning, ?_⟩
    show s.line = (s.tally.after s.rx e).arrived ++ s.unreported
    rw [arrived, receiving.line]

/-- Three bytes, of which the first two are reported, with the next buffer on hand. -/
def threeBytes : List DmaEvent :=
  [.request, .byte 0x94, .byte 0xC3, .rdy, .byte 7]

/-- The step behind the callback that an event leads to. -/
def DmaRx.passed (s : DmaRx) : DmaEvent → Option RxEvent
  | .rdy => s.owned.head?.map fun span => .rdy (span.unreported s.dmaBuf)
  | .disabled _ => some .disabled
  | .work e => some e
  | .byte _ | .released | .request | .stopped => none

/-- What an event does behind the callback is a step of the receive path, or nothing. -/
theorem passed_step (s : DmaRx) (e : DmaEvent) (enabled : s.enabled e) :
    match s.passed e with
    | none => ((s.apply e).rx, (s.apply e).tally) = (s.rx, s.tally)
    | some e' => tallied.enabled (s.rx, s.tally) e' ∧
        ((s.apply e).rx, (s.apply e).tally) = tallied.next (s.rx, s.tally) e' := by
  cases e with
  | byte => rfl
  | rdy =>
    cases held : s.owned with
    | nil => simp [DmaRx.enabled, DmaRx.oldest, held] at enabled
    | cons span spans =>
      simp only [DmaRx.passed, DmaRx.apply, held, List.head?_cons, Option.map_some]
      exact ⟨trivial, rfl⟩
  | released => rfl
  | request =>
    simp only [DmaRx.passed, DmaRx.apply, DmaRx.uartCbRxBufRequest, DmaRx.uartRxBufRsp]
    split_ifs <;> rfl
  | stopped => rfl
  | disabled rerr => exact ⟨trivial, by cases rerr <;> rfl⟩
  | work e => exact ⟨enabled.1, rfl⟩

/-- The event resets the parser. -/
def DmaEvent.Resets : DmaEvent → Prop
  | .disabled _ => True
  | .work e => e.Resets
  | .byte _ | .rdy | .released | .request | .stopped => False

theorem passed_unbroken {e : DmaEvent} {e' : RxEvent} (unbroken : ¬ e.Resets)
    (passed : s.passed e = some e') : ¬ e'.Resets := by
  cases e with
  | rdy =>
    obtain ⟨_, _, rfl⟩ := Option.map_eq_some_iff.mp passed
    exact id
  | disabled => exact absurd trivial unbroken
  | work e => exact Option.some.inj passed ▸ unbroken
  | _ => exact (Option.some_ne_none _ passed.symm).elim

instance : (e : DmaEvent) → Decidable e.Resets
  | .disabled _ => isTrue trivial
  | .work e => inferInstanceAs (Decidable e.Resets)
  | .byte _ | .rdy | .released | .request | .stopped => isFalse id

/-- What holds of the bytes all the way while the parser is not reset. -/
structure Lined (s : DmaRx) : Prop where
  receiving : Receiving s
  tallied : Tallied s.rx s.tally
  parsing : Parsing (s.rx, s.tally)

theorem lined_step (s : DmaRx) (e : DmaEvent) (lined : Lined s) (enabled : s.enabled e)
    (unbroken : ¬ e.Resets) : Lined (s.apply e) := by
  have receiving := receiving_step s e lined.receiving enabled
  have step := passed_step s e enabled
  cases passed : s.passed e with
  | none =>
    simp only [passed] at step
    obtain ⟨rx, tally⟩ := Prod.mk.inj step
    exact ⟨receiving, by rw [rx, tally]; exact lined.tallied, by rw [step]; exact lined.parsing⟩
  | some e' =>
    simp only [passed] at step
    obtain ⟨due, moved⟩ := step
    obtain ⟨rx, tally⟩ := Prod.mk.inj moved
    refine ⟨receiving, ?_, ?_⟩
    · rw [rx, tally]
      exact tallied_step e' lined.tallied due
    · rw [moved]
      exact parsing_step _ e' lined.parsing due (passed_unbroken unbroken passed)

theorem lined_run (es : List DmaEvent) (runs : dmaReceiver.Runs .init es)
    (unbroken : ∀ e ∈ es, ¬ e.Resets) : Lined (dmaReceiver.run .init es) :=
  Machine.invariant_along lined_step es ⟨receiving_init, tallied_init, parsing_init⟩ runs
    (Machine.along_of_forall es unbroken)

/-- The frames handed on, against the bytes kept and those off the line. -/
structure LineFramed (s : DmaRx) : Prop where
  kept : s.rx.frames <+: rxParser.output .zero s.tally.kept
  ordered : (s.tally.kept ++ s.unreported).Sublist s.line
  counted : s.line.length = s.tally.kept.length + s.tally.lost + s.unreported.length
  whole : s.tally.lost = 0 → s.rx.frames <+: rxParser.output .zero s.line ∧
    (s.unreported = [] → s.rx.Settled → s.rx.frames = rxParser.output .zero s.line)

theorem Lined.framed {s : DmaRx} (lined : Lined s) : LineFramed s := by
  obtain ⟨⟨_, _, line⟩, tallied, parsing⟩ := lined
  have promised : s.rx.promised [] = rxParser.output .zero s.tally.kept := by
    have parsed := parsing.promised []
    rwa [List.append_nil] at parsed
  have handed : s.rx.frames <+: rxParser.output .zero s.tally.kept :=
    promised ▸ UartRx.frames_promised []
  refine ⟨handed, ?_, ?_, fun none_lost => ?_⟩
  · rw [line]
    exact tallied.sublist.append (List.Sublist.refl _)
  · rw [line, List.length_append, tallied.arrived]
  · have all_kept : s.tally.kept = s.tally.arrived :=
      tallied.sublist.eq_of_length (by rw [tallied.arrived, none_lost, Nat.add_zero])
    refine ⟨?_, fun reported settled => ?_⟩
    · rw [line, Transducer.output_append, ← all_kept]
      exact handed.trans (List.prefix_append _ _)
    · rw [line, reported, List.append_nil, ← all_kept, ← promised,
        UartRx.settled_promised parsing.watched settled]

/-- While neither a stop nor the resync timer resets the parser, the frames handed on are
those of the bytes kept, which are the bytes off the line, in order, less the ones
counted as dropped and the ones still in the driver's buffers. With none dropped and
nothing left to do, they are the frames of the line. -/
theorem line_frames_handed_on (es : List DmaEvent) (runs : dmaReceiver.Runs .init es)
    (unbroken : ∀ e ∈ es, ¬ e.Resets) :
    let s := dmaReceiver.run .init es
    s.rx.frames <+: rxParser.output .zero s.tally.kept ∧
      (s.tally.kept ++ s.unreported).Sublist s.line ∧
      s.line.length = s.tally.kept.length + s.tally.lost + s.unreported.length ∧
      (s.tally.lost = 0 → s.rx.frames <+: rxParser.output .zero s.line ∧
        (s.unreported = [] → s.rx.Settled → s.rx.frames = rxParser.output .zero s.line)) := by
  intro s
  obtain ⟨kept, ordered, counted, whole⟩ : LineFramed s := (lined_run es runs unbroken).framed
  exact ⟨kept, ordered, counted, whole⟩

/-- A frame in two reports, the second from where the first left off. -/
def splitReport : List DmaEvent :=
  [.request, .byte 0x94, .byte 0xC3, .byte 0, .rdy, .byte 1, .byte 7, .rdy, .work .work] ++
    (drain [0x94, 0xC3, 0, 1, 7]).map .work

theorem split_report_handed_on :
    (dmaReceiver.run .init splitReport).rx.frames = [[7]] := by
  obtain ⟨_, _, _, whole⟩ := line_frames_handed_on splitReport (by decide) (by decide)
  exact ((whole (by decide)).2 (by decide) ⟨by decide, by decide⟩).trans (by decide)

end MeshPbx
