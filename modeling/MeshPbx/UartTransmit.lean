import MeshPbx.Framing

/-! The transmit path step by step. Callers, the work item and the completion
interrupt share the queue, the frame buffer and the guard flag, and any of them
may run between two program points of the others. -/
namespace MeshPbx

/-- Where the run of `tx_work_handler` in progress stands. -/
inductive TxWork where
  | idle
  | entered
  | cleared
  | taken (entry : Bytes)
  | built (entry : Bytes)
  | claimed (entry : Bytes)
  | failed
  | dropped
  deriving DecidableEq, Repr

namespace TxWork

/-- The entry taken from the queue and not yet handed to `uart_tx`. -/
def inHand : TxWork → List Bytes
  | .taken entry | .built entry | .claimed entry => [entry]
  | .idle | .entered | .cleared | .failed | .dropped => []

/-- The program points at which the handler itself holds the guard flag. -/
def claiming : TxWork → Bool
  | .claimed _ | .failed => true
  | .idle | .entered | .cleared | .taken _ | .built _ | .dropped => false

/-- The program points before the guard flag has been read. -/
def outside : TxWork → Bool
  | .idle | .entered => true
  | .cleared | .taken _ | .built _ | .claimed _ | .failed | .dropped => false

/-- The program points at which the frame of an entry stands in the buffer. -/
def framing : TxWork → List Bytes
  | .built entry | .claimed entry => [entry]
  | .idle | .entered | .cleared | .taken _ | .failed | .dropped => []

end TxWork

/-- `putting` counts the callers of `uart_meshtastic_tx` between `k_msgq_put` and
`k_work_submit`; `accepted` and `started` log the payloads put into the queue and
the buffers handed to `uart_tx`. -/
structure TxPath where
  uart : UartTx
  handler : TxWork
  putting : Nat
  accepted : List Bytes
  started : List Bytes

/-- `ended` is UART_TX_DONE or UART_TX_ABORTED; `failed` is what `uart_tx` reports
where the turn of the handler calls it. -/
inductive TxEvent where
  | put (payload : Bytes)
  | submit
  | work
  | turn (failed : Bool)
  | ended
  deriving DecidableEq, Repr

namespace TxPath

def init : TxPath := ⟨.zero, .idle, 0, [], []⟩

/-- `uart_meshtastic_tx` up to its `k_msgq_put`. -/
def put (s : TxPath) (payload : Bytes) : TxPath :=
  if payload.length > MESHTASTIC_MAX_PAYLOAD then s
  else if s.uart.txMsgq.length ≥ TX_QUEUE_DEPTH then s
  else { s with
    uart := { s.uart with txMsgq := s.uart.txMsgq ++ [payload] }
    putting := s.putting + 1
    accepted := s.accepted ++ [payload] }

/-- `tx_work_handler` from one program point to the next. -/
def turn (s : TxPath) (failed : Bool) : TxPath :=
  match s.handler with
  | .idle => s
  | .entered => { s with handler := if s.uart.txInProgress then .idle else .cleared }
  | .cleared => match s.uart.txMsgq with
    | [] => { s with handler := .idle }
    | entry :: rest => { s with uart := { s.uart with txMsgq := rest }, handler := .taken entry }
  | .taken entry =>
    { s with
      uart := { s.uart with
        txFrameBuf := (s.uart.txFrameBuf.write 0 (frameHeader entry.length)).write 4 entry }
      handler := .built entry }
  | .built entry =>
    { s with uart := { s.uart with txInProgress := true }, handler := .claimed entry }
  | .claimed entry =>
    let frame := s.uart.txFrameBuf.read 0 (entry.length + 4)
    if failed then { s with handler := .failed, started := s.started ++ [frame] }
    else { s with
      uart := { s.uart with outstanding := some frame }
      handler := .idle
      started := s.started ++ [frame] }
  | .failed => { s with uart := { s.uart with txInProgress := false }, handler := .dropped }
  | .dropped => { s with uart := { s.uart with txWork := true }, handler := .idle }

/-- The driver reports one completion for each successful `uart_tx`. -/
def enabled (s : TxPath) : TxEvent → Prop
  | .put _ => True
  | .submit => 0 < s.putting
  | .work => s.handler = .idle ∧ s.uart.txWork = true
  | .turn _ => s.handler ≠ .idle
  | .ended => s.uart.outstanding.isSome

def next (s : TxPath) : TxEvent → TxPath
  | .put payload => s.put payload
  | .submit =>
    { s with uart := { s.uart with txWork := true }, putting := s.putting - 1 }
  | .work => { s with uart := { s.uart with txWork := false }, handler := .entered }
  | .turn failed => s.turn failed
  | .ended => { s with uart := uartCbTxEnd s.uart }

instance (s : TxPath) : (e : TxEvent) → Decidable (s.enabled e)
  | .put _ => isTrue trivial
  | .submit => inferInstanceAs (Decidable (_ < _))
  | .work => inferInstanceAs (Decidable (_ ∧ _))
  | .turn _ => inferInstanceAs (Decidable (_ ≠ _))
  | .ended => inferInstanceAs (Decidable (_ = true))

end TxPath

def transmitter : Machine TxPath TxEvent where
  enabled := TxPath.enabled
  next := TxPath.next

instance (s : TxPath) (e : TxEvent) : Decidable (transmitter.enabled s e) :=
  inferInstanceAs (Decidable (s.enabled e))

variable {s : TxPath}

/-! Left undisturbed, the steps amount to the functions they are steps of. -/

theorem put_submitted (payload : Bytes) (accepted : (uartMeshtasticTx s.uart payload).2 = none) :
    (transmitter.run s [.put payload, .submit]).uart = (uartMeshtasticTx s.uart payload).1 := by
  unfold uartMeshtasticTx at accepted ⊢
  show ((s.put payload).next .submit).uart = _
  unfold TxPath.put
  split_ifs at accepted ⊢ with long full
  rfl

theorem put_refused (payload : Bytes) (refused : (uartMeshtasticTx s.uart payload).2 ≠ none) :
    s.put payload = s ∧ (uartMeshtasticTx s.uart payload).1 = s.uart := by
  unfold uartMeshtasticTx at refused ⊢
  unfold TxPath.put
  split_ifs at refused ⊢ with long full
  · exact ⟨rfl, rfl⟩
  · exact ⟨rfl, rfl⟩
  · exact (refused rfl).elim

/-- The steps of a run of the handler that nothing comes between. -/
def handlerRun (turns : Nat) (failed : Bool) : List TxEvent :=
  .work :: List.replicate turns (.turn failed)

theorem handler_run (idle : s.handler = .idle) (due : s.uart.txWork = true) (failed : Bool) :
    ∃ turns, transmitter.Runs s (handlerRun turns failed) ∧
      (transmitter.run s (handlerRun turns failed)).handler = .idle ∧
      (transmitter.run s (handlerRun turns failed)).uart =
        txWorkHandler { s.uart with txWork := false } failed := by
  obtain ⟨⟨msgq, buf, flag, pending, outstanding⟩, handler, putting, accepted, started⟩ := s
  obtain rfl : handler = .idle := idle
  obtain rfl : pending = true := due
  cases flag with
  | true => exact ⟨1, ⟨⟨rfl, rfl⟩, TxWork.noConfusion, trivial⟩, rfl, rfl⟩
  | false =>
    cases msgq with
    | nil => exact ⟨2, ⟨⟨rfl, rfl⟩, TxWork.noConfusion, TxWork.noConfusion, trivial⟩, rfl, rfl⟩
    | cons entry rest =>
      cases failed with
      | false =>
        exact ⟨5, ⟨⟨rfl, rfl⟩, TxWork.noConfusion, TxWork.noConfusion, TxWork.noConfusion,
          TxWork.noConfusion, TxWork.noConfusion, trivial⟩, rfl, rfl⟩
      | true =>
        exact ⟨7, ⟨⟨rfl, rfl⟩, TxWork.noConfusion, TxWork.noConfusion, TxWork.noConfusion,
          TxWork.noConfusion, TxWork.noConfusion, TxWork.noConfusion, TxWork.noConfusion, trivial⟩,
          rfl, rfl⟩

/-! The invariant of the path. -/

/-- The buffer holds the frame of an entry, header first. -/
theorem frame_built (buf : ByteBuffer) (entry : Bytes) :
    ((buf.write 0 (frameHeader entry.length)).write 4 entry).read 0 (entry.length + 4) =
      framed entry := by
  have header : (buf.write 0 (frameHeader entry.length)).read 0 4 = frameHeader entry.length :=
    ByteBuffer.read_write_same buf 0 (frameHeader entry.length)
  rw [Nat.add_comm, ByteBuffer.read_write_next, header, framed]

/-- The guard flag is set exactly while a transmission is outstanding or the
handler is about to make one, the buffer holds the frame it is to hold, and
every accepted payload is in exactly one place. -/
structure Transmitting (s : TxPath) : Prop where
  flagged : s.uart.txInProgress = (s.uart.outstanding.isSome || s.handler.claiming)
  exclusive : s.uart.outstanding.isSome → s.handler.outside = true
  stable : ∀ frame, s.uart.outstanding = some frame →
    s.uart.txFrameBuf.read 0 frame.length = frame
  framing : ∀ entry ∈ s.handler.framing,
    s.uart.txFrameBuf.read 0 (entry.length + 4) = framed entry
  accounted : s.started ++ (s.handler.inHand ++ s.uart.txMsgq).map framed = s.accepted.map framed
  woken : s.uart.txMsgq ≠ [] → s.uart.outstanding = none →
    s.uart.txWork = true ∨ 0 < s.putting ∨ s.handler ≠ .idle

theorem transmitting_init : Transmitting .init where
  flagged := rfl
  exclusive := fun busy => (Bool.false_ne_true busy).elim
  stable := fun _ held => (Option.some_ne_none _ held.symm).elim
  framing := List.forall_mem_nil _
  accounted := rfl
  woken := fun waiting => (waiting rfl).elim

theorem transmitting_put (inv : Transmitting s) (payload : Bytes) :
    Transmitting (s.put payload) := by
  unfold TxPath.put
  split_ifs with long full
  · exact inv
  · exact inv
  · refine { inv with accounted := ?_, woken := ?_ }
    · have before := inv.accounted
      simp only [List.map_append, ← List.append_assoc] at before ⊢
      rw [before]
    · intro _ _
      exact .inr (.inl (Nat.succ_pos _))

/-- Past the check of the guard flag nothing is outstanding. -/
theorem none_outstanding (inv : Transmitting s) (inside : s.handler.outside = false) :
    s.uart.outstanding = none := by
  cases outstanding : s.uart.outstanding with
  | none => rfl
  | some frame =>
    have out := inv.exclusive (by rw [outstanding]; rfl)
    rw [inside] at out
    contradiction

/-- The check of the guard flag. -/
theorem transmitting_check (inv : Transmitting s) (position : s.handler = .entered) :
    Transmitting { s with handler := if s.uart.txInProgress then .idle else .cleared } := by
  obtain ⟨flagged, exclusive, stable, framing, accounted, woken⟩ := inv
  simp only [position, TxWork.claiming, Bool.or_false] at flagged
  rw [position] at accounted
  cases flag : s.uart.txInProgress with
  | true =>
    have busy : s.uart.outstanding.isSome = true := flagged ▸ flag
    refine ⟨?_, fun _ => rfl, stable, List.forall_mem_nil _, accounted, ?_⟩
    · simp only [if_true, TxWork.claiming, Bool.or_false, flagged]
    · intro _ (idle : s.uart.outstanding = none)
      rw [idle] at busy
      contradiction
  | false =>
    have idle : s.uart.outstanding.isSome = false := flagged ▸ flag
    refine ⟨?_, ?_, stable, List.forall_mem_nil _, accounted,
      fun _ _ => .inr (.inr TxWork.noConfusion)⟩
    · simp only [Bool.false_eq_true, if_false, TxWork.claiming, Bool.or_false, flagged]
    · intro (busy : s.uart.outstanding.isSome = true)
      rw [idle] at busy
      contradiction

/-- The call of `uart_tx`. -/
theorem transmitting_call {entry : Bytes} (inv : Transmitting s)
    (position : s.handler = .claimed entry) (failed : Bool) : Transmitting (s.turn failed) := by
  have idle := none_outstanding inv (by rw [position]; rfl)
  obtain ⟨flagged, _, stable, framing, accounted, _⟩ := inv
  rw [position] at flagged framing accounted
  have frame := framing entry (List.mem_singleton_self entry)
  have moved : s.started ++ [framed entry] ++ ([] ++ s.uart.txMsgq).map framed =
      s.accepted.map framed := by
    rw [← accounted]
    simp only [TxWork.inHand, List.map_append, List.map_cons, List.map_nil, List.append_assoc,
      List.nil_append]
  simp only [TxPath.turn, position, frame]
  cases failed with
  | true =>
    refine ⟨flagged, ?_, stable, List.forall_mem_nil _, moved,
      fun _ _ => .inr (.inr TxWork.noConfusion)⟩
    intro (busy : s.uart.outstanding.isSome = true)
    rw [idle] at busy
    contradiction
  | false =>
    refine ⟨?_, fun _ => rfl, ?_, List.forall_mem_nil _, moved,
      fun _ free => (Option.some_ne_none _ free).elim⟩
    · rw [TxWork.claiming, Bool.or_true] at flagged
      exact flagged
    · intro other same
      obtain rfl : framed entry = other := Option.some.inj same
      rw [length_framed]
      exact frame

theorem transmitting_turn (inv : Transmitting s) (failed : Bool) :
    Transmitting (s.turn failed) := by
  have free := none_outstanding inv
  have never : s.handler.outside = false → ¬ s.uart.outstanding.isSome = true := by
    intro inside
    simp [free inside]
  have ⟨flagged, _, stable, framing, accounted, _⟩ := inv
  cases position : s.handler with
  | idle =>
    simp only [TxPath.turn, position]
    exact inv
  | entered =>
    simp only [TxPath.turn, position]
    exact transmitting_check inv position
  | cleared =>
    rw [position] at flagged accounted never
    simp only [TxPath.turn, position]
    cases waiting : s.uart.txMsgq with
    | nil =>
      rw [waiting] at accounted
      refine ⟨flagged, fun _ => rfl, stable, List.forall_mem_nil _, ?_,
        fun some _ => (some waiting).elim⟩
      show s.started ++ s.uart.txMsgq.map framed = _
      rw [waiting]
      exact accounted
    | cons entry rest =>
      rw [waiting] at accounted
      exact ⟨flagged, fun busy => (never rfl busy).elim, stable, List.forall_mem_nil _, accounted,
        fun _ _ => .inr (.inr TxWork.noConfusion)⟩
  | taken entry =>
    have idle := free (by rw [position]; rfl)
    rw [position] at flagged accounted never
    simp only [TxPath.turn, position]
    refine ⟨flagged, fun busy => (never rfl busy).elim, ?_, ?_, accounted,
      fun _ _ => .inr (.inr TxWork.noConfusion)⟩
    · intro frame (outstanding : s.uart.outstanding = some frame)
      rw [idle] at outstanding
      contradiction
    · intro other member
      obtain rfl := List.mem_singleton.mp member
      exact frame_built _ _
  | built entry =>
    rw [position] at framing accounted never
    simp only [TxPath.turn, position]
    refine ⟨?_, fun busy => (never rfl busy).elim, stable, framing, accounted,
      fun _ _ => .inr (.inr TxWork.noConfusion)⟩
    simp only [TxWork.claiming, Bool.or_true]
  | claimed entry => exact transmitting_call inv position failed
  | failed =>
    have idle := free (by rw [position]; rfl)
    rw [position] at accounted never
    simp only [TxPath.turn, position]
    refine ⟨?_, fun busy => (never rfl busy).elim, stable, List.forall_mem_nil _, accounted,
      fun _ _ => .inr (.inr TxWork.noConfusion)⟩
    simp only [idle, Option.isSome_none, TxWork.claiming, Bool.or_false]
  | dropped =>
    rw [position] at flagged accounted
    simp only [TxPath.turn, position]
    exact ⟨flagged, fun _ => rfl, stable, List.forall_mem_nil _, accounted, fun _ _ => .inl rfl⟩

theorem transmitting_step (s : TxPath) (e : TxEvent) (inv : Transmitting s)
    (enabled : transmitter.enabled s e) : Transmitting (transmitter.next s e) := by
  cases e with
  | put payload => exact transmitting_put inv payload
  | submit => exact { inv with woken := fun _ _ => .inl rfl }
  | work =>
    have idle : s.handler = .idle := enabled.1
    obtain ⟨flagged, _, stable, _, accounted, _⟩ := inv
    rw [idle] at flagged accounted
    exact ⟨flagged, fun _ => rfl, stable, List.forall_mem_nil _, accounted,
      fun _ _ => .inr (.inr TxWork.noConfusion)⟩
  | turn failed => exact transmitting_turn inv failed
  | ended =>
    have outside := inv.exclusive enabled
    have idle : s.handler.claiming = false := by
      cases position : s.handler <;> simp [position, TxWork.outside] at outside <;> rfl
    refine { inv with
      flagged := ?_
      exclusive := fun busy => (Bool.false_ne_true busy).elim
      stable := fun _ held => (Option.some_ne_none _ held.symm).elim
      woken := fun _ _ => .inl rfl }
    exact (Bool.or_false false).symm.trans (congrArg (false || ·) idle.symm)

/-! Steps other than a new payload, and how many of them there can be. -/

/-- Every step but the arrival of a payload. -/
def TxEvent.Own : TxEvent → Prop
  | .put _ => False
  | .submit | .work | .turn _ | .ended => True

instance : (e : TxEvent) → Decidable e.Own
  | .put _ => isFalse id
  | .submit | .work | .turn _ | .ended => isTrue trivial

/-- How many turns from a program point, at most, before the handler is idle with
its work item due again. -/
def TxWork.rank : TxWork → Nat
  | .idle => 0
  | .cleared => 1
  | .entered => 2
  | .dropped => 4
  | .failed => 5
  | .claimed _ => 6
  | .built _ => 7
  | .taken _ => 8

/-- A bound on the steps left without a new payload. -/
def TxPath.stepsLeft (s : TxPath) : Nat :=
  8 * s.uart.txMsgq.length + 4 * s.putting + 3 * s.uart.txWork.toNat +
    4 * s.uart.outstanding.isSome.toNat + s.handler.rank

theorem turn_spends (inv : Transmitting s) (inside : s.handler ≠ .idle) (failed : Bool) :
    (s.turn failed).stepsLeft < s.stepsLeft := by
  have free := none_outstanding inv
  have due : s.uart.txWork.toNat ≤ 1 := Bool.toNat_le s.uart.txWork
  unfold TxPath.turn
  cases position : s.handler with
  | idle => exact (inside position).elim
  | entered =>
    simp only [TxPath.stepsLeft, position, TxWork.rank]
    cases s.uart.txInProgress with
    | true => simp only [if_true]; omega
    | false => simp only [Bool.false_eq_true, if_false]; omega
  | cleared =>
    cases waiting : s.uart.txMsgq with
    | nil =>
      simp only [TxPath.stepsLeft, position, waiting, TxWork.rank]
      omega
    | cons entry rest =>
      simp only [TxPath.stepsLeft, position, waiting, TxWork.rank, List.length_cons]
      omega
  | taken entry =>
    simp only [TxPath.stepsLeft, position, TxWork.rank]
    omega
  | built entry =>
    simp only [TxPath.stepsLeft, position, TxWork.rank]
    omega
  | claimed entry =>
    have idle := free (by rw [position]; rfl)
    cases failed with
    | true =>
      simp only [TxPath.stepsLeft, position, if_true, TxWork.rank]
      omega
    | false =>
      simp only [TxPath.stepsLeft, position, idle, Bool.false_eq_true, if_false, Option.isSome_none,
        Option.isSome_some, Bool.toNat_true, Bool.toNat_false, TxWork.rank]
      omega
  | failed =>
    simp only [TxPath.stepsLeft, position, TxWork.rank]
    omega
  | dropped =>
    simp only [TxPath.stepsLeft, position, Bool.toNat_true, TxWork.rank]
    omega

/-- Every step but a new payload uses up part of the bound. -/
theorem own_step_spends (inv : Transmitting s) {e : TxEvent} (enabled : s.enabled e)
    (own : e.Own) : (s.next e).stepsLeft < s.stepsLeft := by
  cases e with
  | put => exact own.elim
  | submit =>
    have calling : 0 < s.putting := enabled
    simp only [TxPath.next, TxPath.stepsLeft, Bool.toNat_true]
    omega
  | work =>
    obtain ⟨idle, due⟩ := (enabled : _ ∧ _)
    simp only [TxPath.next, TxPath.stepsLeft, idle, due, Bool.toNat_true, Bool.toNat_false,
      TxWork.rank]
    omega
  | turn failed => exact turn_spends inv enabled failed
  | ended =>
    have busy : s.uart.outstanding.isSome = true := enabled
    simp only [TxPath.next, TxPath.stepsLeft, uartCbTxEnd, busy, Option.isSome_none,
      Bool.toNat_true, Bool.toNat_false]
    omega

/-- A path that can take none of its own steps has handed on all it accepted. -/
theorem stuck_drained (inv : Transmitting s) (stuck : ∀ e : TxEvent, e.Own → ¬ s.enabled e) :
    s.uart.txMsgq = [] ∧ s.started = s.accepted.map framed := by
  have idle : s.handler = .idle := by
    by_contra running
    exact stuck (.turn false) trivial running
  have notDue : ¬ s.uart.txWork = true := fun due => stuck .work trivial ⟨idle, due⟩
  have returned : ¬ 0 < s.putting := stuck .submit trivial
  have free : s.uart.outstanding = none := by
    have notBusy : ¬ s.uart.outstanding.isSome := stuck .ended trivial
    simpa using notBusy
  have empty : s.uart.txMsgq = [] := by
    by_contra waiting
    rcases inv.woken waiting free with due | calling | running
    · exact notDue due
    · exact returned calling
    · exact running idle
  refine ⟨empty, ?_⟩
  have accounted := inv.accounted
  rw [idle, empty] at accounted
  simpa [TxWork.inHand] using accounted

theorem turn_accepts_nothing (failed : Bool) : (s.turn failed).accepted = s.accepted := by
  unfold TxPath.turn
  cases s.handler with
  | cleared => cases s.uart.txMsgq <;> rfl
  | claimed => cases failed <;> rfl
  | idle => rfl
  | entered => rfl
  | taken => rfl
  | built => rfl
  | failed => rfl
  | dropped => rfl

/-- An accepted payload pays for the steps it takes to hand it on. -/
theorem put_pays (payload : Bytes) :
    (s.put payload).stepsLeft + 12 * s.accepted.length ≤
      s.stepsLeft + 12 * (s.put payload).accepted.length := by
  unfold TxPath.put
  split_ifs with long full
  · exact Nat.le_refl _
  · exact Nat.le_refl _
  · simp only [TxPath.stepsLeft, List.length_append, List.length_cons, List.length_nil]
    omega

/-- Twelve steps for each accepted payload are the most there can be. -/
theorem steps_bounded (es : List TxEvent) (inv : Transmitting s) (runs : transmitter.Runs s es) :
    es.countP (fun e => decide e.Own) + (transmitter.run s es).stepsLeft + 12 * s.accepted.length ≤
      s.stepsLeft + 12 * (transmitter.run s es).accepted.length := by
  induction es generalizing s with
  | nil => simp
  | cons e es ih =>
    have later := ih (transmitting_step s e inv runs.1) runs.2
    by_cases own : e.Own
    · have spent := own_step_spends inv runs.1 own
      have same : (s.next e).accepted = s.accepted := by
        cases e with
        | put => exact own.elim
        | turn failed => exact turn_accepts_nothing failed
        | submit => rfl
        | work => rfl
        | ended => rfl
      rw [List.countP_cons_of_pos (by simpa using own), Machine.run_cons]
      simp only [transmitter, same] at later ⊢
      omega
    · have paid : (s.next e).stepsLeft + 12 * s.accepted.length ≤
          s.stepsLeft + 12 * (s.next e).accepted.length := by
        cases e with
        | put payload => exact put_pays payload
        | submit => exact (own trivial).elim
        | work => exact (own trivial).elim
        | turn => exact (own trivial).elim
        | ended => exact (own trivial).elim
      rw [List.countP_cons_of_neg (by simpa using own), Machine.run_cons]
      simp only [transmitter] at later ⊢
      omega

/-- While a transmission is outstanding `uart_tx` is not called and the buffer is
left alone. -/
def Exclusive (s : TxPath) (e : TxEvent) : Prop :=
  s.uart.outstanding.isSome →
    (s.next e).started = s.started ∧ (s.next e).uart.txFrameBuf = s.uart.txFrameBuf

theorem exclusive_step (s : TxPath) (e : TxEvent) (inv : Transmitting s) : Exclusive s e := by
  intro busy
  have outside := inv.exclusive busy
  cases e with
  | put payload =>
    simp only [TxPath.next, TxPath.put]
    split_ifs <;> exact ⟨rfl, rfl⟩
  | submit => exact ⟨rfl, rfl⟩
  | work => exact ⟨rfl, rfl⟩
  | ended => exact ⟨rfl, rfl⟩
  | turn failed =>
    simp only [TxPath.next, TxPath.turn]
    cases position : s.handler with
    | idle => exact ⟨rfl, rfl⟩
    | entered => exact ⟨rfl, rfl⟩
    | cleared => rw [position] at outside; contradiction
    | taken => rw [position] at outside; contradiction
    | built => rw [position] at outside; contradiction
    | claimed => rw [position] at outside; contradiction
    | failed => rw [position] at outside; contradiction
    | dropped => rw [position] at outside; contradiction

/-- The transmit path is a FIFO with a single server: one transmission at a time,
every accepted payload handed on once and in order, and the work item due
wherever a payload waits for it. -/
theorem transmit_path_fifo (es : List TxEvent) (runs : transmitter.Runs .init es) :
    let s := transmitter.run .init es
    transmitter.Along Exclusive .init es ∧
      s.started ++ (s.handler.inHand ++ s.uart.txMsgq).map framed = s.accepted.map framed ∧
      (s.uart.txMsgq ≠ [] → s.uart.outstanding = none →
        s.uart.txWork = true ∨ 0 < s.putting ∨ s.handler ≠ .idle) ∧
      es.countP (fun e => decide e.Own) ≤ 12 * s.accepted.length ∧
      ((∀ e : TxEvent, e.Own → ¬ s.enabled e) →
        s.uart.txMsgq = [] ∧ s.started = s.accepted.map framed) := by
  intro s
  have inv : Transmitting s := Machine.invariant transmitting_step es transmitting_init runs
  refine ⟨?_, inv.accounted, inv.woken, ?_, stuck_drained inv⟩
  · exact Machine.along_of_invariant transmitting_step
      (fun s e inv _ => exclusive_step s e inv) es transmitting_init runs
  · have bound : es.countP (fun e => decide e.Own) + s.stepsLeft + 0 ≤ 0 + 12 * s.accepted.length :=
      steps_bounded es transmitting_init runs
    omega

/-- Two callers, a failed transmission, and a payload that arrives while the one
before it is outstanding. -/
def contendedSchedule : List TxEvent :=
  [.put [0x01], .put [0x02], .submit] ++ handlerRun 6 true ++ [.submit, .turn true] ++
    handlerRun 5 false ++ [.put [0x03], .submit] ++ handlerRun 1 false ++ [.ended] ++
    handlerRun 5 false ++ [.ended] ++ handlerRun 2 false

theorem contended_schedule_done (e : TxEvent) (own : e.Own) :
    ¬ (transmitter.run .init contendedSchedule).enabled e := by
  cases e with
  | put => exact own.elim
  | turn failed =>
    intro running
    exact running (by decide)
  | submit => decide
  | work => decide
  | ended => decide

theorem contended_schedule_drained :
    (transmitter.run .init contendedSchedule).started = [[0x01], [0x02], [0x03]].map framed := by
  obtain ⟨_, _, _, _, drained⟩ := transmit_path_fifo contendedSchedule (by decide)
  exact (drained contended_schedule_done).2

end MeshPbx
