import MeshPbx.Reception

/-! What becomes of the bytes received. The interrupt drops what the ring has no room
for and counts it; the handler takes the rest out byte by byte and reports the count. A
tally is kept beside the receive path, and every byte is in it. -/
namespace MeshPbx

/-- The bytes of all UART_RX_RDY, what the ring took of them, what has been taken out
again, and how many were dropped and how many of those reported. -/
structure RxTally where
  arrived : Bytes
  kept : Bytes
  taken : Bytes
  lost : Nat
  warned : Nat
  deriving DecidableEq, Repr

namespace RxTally

def zero : RxTally := ⟨[], [], [], 0, 0⟩

/-- The tally after a step of the receive path. -/
def after (t : RxTally) (u : UartRx) : RxEvent → RxTally
  | .rdy data =>
    { t with
      arrived := t.arrived ++ data
      kept := t.kept ++ data.take (RING_BUF_SIZE - u.rxRingBuf.length)
      lost := t.lost + (data.length - (RING_BUF_SIZE - u.rxRingBuf.length)) }
  | .get => match u.rxRingBuf with
    | [] => { t with warned := t.warned + u.rxOverrunBytes }
    | byte :: _ => { t with taken := t.taken ++ [byte] }
  | .disabled | .resync | .work | .process => t

end RxTally

/-- The receive path with its tally. -/
def tallied : Machine (UartRx × RxTally) RxEvent where
  enabled s e := s.1.enabled e
  next s e := (s.1.apply e, s.2.after s.1 e)

instance (s : UartRx × RxTally) (e : RxEvent) : Decidable (tallied.enabled s e) :=
  inferInstanceAs (Decidable (s.1.enabled e))

/-- Every byte received is in the parser, in the ring or in the count of the dropped,
and the handler is due while there is any to take out or to report. -/
structure Tallied (u : UartRx) (t : RxTally) : Prop where
  kept : t.kept = t.taken ++ u.rxRingBuf
  sublist : t.kept.Sublist t.arrived
  arrived : t.arrived.length = t.kept.length + t.lost
  lost : t.lost = t.warned + u.rxOverrunBytes
  bounded : u.rxRingBuf.length ≤ RING_BUF_SIZE
  woken : u.rxRingBuf ≠ [] ∨ 0 < u.rxOverrunBytes → ¬ u.Settled

variable {u : UartRx} {t : RxTally}

theorem tallied_init : Tallied .init .zero := by
  refine ⟨rfl, List.Sublist.refl [], rfl, rfl, Nat.zero_le _, ?_⟩
  rintro (waiting | dropped)
  · exact absurd rfl waiting
  · exact absurd dropped (Nat.lt_irrefl 0)

/-- A chunk is split where the ring is full. -/
theorem tallied_rdy (data : Bytes) (holds : Tallied u t) :
    Tallied (u.apply (.rdy data)) (t.after u (.rdy data)) := by
  obtain ⟨kept, sublist, arrived, lost, bounded, _⟩ := holds
  have part : (data.take (RING_BUF_SIZE - u.rxRingBuf.length)).length =
      min (RING_BUF_SIZE - u.rxRingBuf.length) data.length := List.length_take
  refine ⟨?_, ?_, ?_, ?_, ?_, ?_⟩
  · show t.kept ++ data.take _ = t.taken ++ (u.rxRingBuf ++ data.take _)
    rw [kept, List.append_assoc]
  · exact sublist.append (List.take_sublist _ _)
  · show (t.arrived ++ data).length = (t.kept ++ data.take _).length + (t.lost + _)
    rw [List.length_append, List.length_append, part, arrived]
    omega
  · show t.lost + _ = t.warned + (u.rxOverrunBytes + (data.length - min data.length _))
    rw [lost]
    omega
  · show (u.rxRingBuf ++ data.take _).length ≤ _
    rw [List.length_append, part]
    omega
  · intro _ settled
    have pending : true = false := settled.rxWork
    contradiction

theorem tallied_get (holds : Tallied u t) :
    Tallied (u.apply .get) (t.after u .get) := by
  obtain ⟨kept, sublist, arrived, lost, bounded, woken⟩ := holds
  cases ring : u.rxRingBuf with
  | nil =>
    simp only [UartRx.apply, RxTally.after, ring]
    refine ⟨by rw [kept, ring]; simp [rxWorkFinish, ring], sublist, arrived, lost,
      by simp [rxWorkFinish, ring], ?_⟩
    rintro (waiting | dropped)
    · exact absurd (by simp [rxWorkFinish, ring]) waiting
    · exact absurd dropped (Nat.lt_irrefl 0)
  | cons byte rest =>
    simp only [UartRx.apply, RxTally.after, ring]
    refine ⟨?_, sublist, arrived, lost, ?_, fun _ settled => RxWork.noConfusion settled.handler⟩
    · rw [kept, ring, List.append_assoc]
      rfl
    · rw [ring, List.length_cons] at bounded
      exact Nat.le_of_succ_le bounded

/-- Steps that leave ring, count and wake-up alone. -/
theorem tallied_aside {u' : UartRx} (holds : Tallied u t) (ring : u'.rxRingBuf = u.rxRingBuf)
    (overrun : u'.rxOverrunBytes = u.rxOverrunBytes) (wakes : u'.Settled → u.Settled) :
    Tallied u' t := by
  obtain ⟨kept, sublist, arrived, lost, bounded, woken⟩ := holds
  refine ⟨by rw [ring, kept], sublist, arrived, by rw [overrun, lost], by rw [ring]; exact bounded, ?_⟩
  rw [ring, overrun]
  exact fun due settled => woken due (wakes settled)

theorem tallied_step (e : RxEvent) (holds : Tallied u t) (enabled : u.enabled e) :
    Tallied (u.apply e) (t.after u e) := by
  cases e with
  | rdy data => exact tallied_rdy data holds
  | disabled => exact tallied_aside holds rfl rfl (fun settled => ⟨settled.handler, settled.rxWork⟩)
  | resync =>
    have aside : Tallied (rxResyncHandler { u with resyncDwork := none }) t := by
      unfold rxResyncHandler
      split_ifs
      · exact tallied_aside holds rfl rfl (fun settled => ⟨settled.handler, settled.rxWork⟩)
      · exact tallied_aside holds rfl rfl (fun settled => ⟨settled.handler, settled.rxWork⟩)
    exact aside
  | work => exact tallied_aside holds rfl rfl (fun settled => RxWork.noConfusion settled.handler)
  | get => exact tallied_get holds
  | process =>
    obtain ⟨busy, notLooping⟩ := enabled
    simp only [UartRx.apply, RxTally.after]
    split
    · exact tallied_aside holds rfl rfl (fun settled => RxWork.noConfusion settled.handler)
    · exact holds
    · exact holds

theorem tallied_run (es : List RxEvent) (runs : tallied.Runs (.init, .zero) es) :
    Tallied (tallied.run (.init, .zero) es).1 (tallied.run (.init, .zero) es).2 := by
  have preserves : ∀ s e, Tallied s.1 s.2 → tallied.enabled s e →
      Tallied (tallied.next s e).1 (tallied.next s e).2 :=
    fun _ e holds enabled => tallied_step e holds enabled
  exact Machine.invariant preserves es tallied_init runs

/-- A chunk arrives while the handler holds the byte of the one before. -/
def secondChunk : List RxEvent :=
  [.rdy [0x94], .work, .get, .rdy [0xC3, 0], .process, .get, .process]

/-- The event resets the parser. -/
def RxEvent.Resets : RxEvent → Prop
  | .disabled | .resync => True
  | .rdy _ | .work | .get | .process => False

instance : (e : RxEvent) → Decidable e.Resets
  | .disabled | .resync => isTrue trivial
  | .rdy _ | .work | .get | .process => isFalse id

/-- What a full ring keeps of a chunk is all that matters of it. -/
theorem rdy_promises_kept (data later : Bytes) :
    (u.apply (.rdy data)).promised later =
      u.promised (data.take (RING_BUF_SIZE - u.rxRingBuf.length) ++ later) := by
  have fed := Transducer.Buffered.promised_feed (t := rxParser) u.buffered
    (data.take (RING_BUF_SIZE - u.rxRingBuf.length)) later
  simp only [Transducer.Buffered.feed, UartRx.buffered, UartRx.undrained, List.append_assoc] at fed
  simp only [UartRx.promised, UartRx.buffered, UartRx.undrained, UartRx.held, UartRx.apply,
    uartCbRxRdy, ringBufPut] at fed ⊢
  exact fed

/-- The receive path will hand on the parse of the bytes kept. -/
structure Parsing (s : UartRx × RxTally) : Prop where
  watched : s.1.Watched
  promised : ∀ later, s.1.promised later = rxParser.output .zero (s.2.kept ++ later)

theorem parsing_init : Parsing (.init, .zero) :=
  ⟨UartRx.rest_watched ⟨rfl, rfl, rfl, rfl⟩, fun _ => rfl⟩

theorem parsing_step (s : UartRx × RxTally) (e : RxEvent) (parsing : Parsing s)
    (enabled : tallied.enabled s e) (unbroken : ¬ e.Resets) : Parsing (tallied.next s e) := by
  obtain ⟨u, t⟩ := s
  refine ⟨UartRx.watched_step e parsing.watched, fun later => ?_⟩
  have turn (turn : e.Turn) (kept : (t.after u e).kept = t.kept) :
      (u.apply e).promised later = rxParser.output .zero ((t.after u e).kept ++ later) := by
    rw [UartRx.turn_promised turn enabled parsing.watched, parsing.promised, kept]
  cases e with
  | rdy data =>
    have parsed := parsing.promised (data.take (RING_BUF_SIZE - u.rxRingBuf.length) ++ later)
    rw [← List.append_assoc] at parsed
    exact (rdy_promises_kept data later).trans parsed
  | disabled => exact absurd trivial unbroken
  | resync => exact absurd trivial unbroken
  | work => exact turn trivial rfl
  | get =>
    refine turn trivial ?_
    simp only [RxTally.after]
    split <;> rfl
  | process => exact turn trivial rfl

theorem parsing_run (es : List RxEvent) (runs : tallied.Runs (.init, .zero) es)
    (unbroken : ∀ e ∈ es, ¬ e.Resets) : Parsing (tallied.run (.init, .zero) es) :=
  Machine.invariant_along parsing_step es parsing_init runs (Machine.along_of_forall es unbroken)

end MeshPbx
