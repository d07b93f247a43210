import MeshPbx.ReceptionRestart

/-! Recovery from a frame that stalls. A frame under way always has the resync
work scheduled behind it, and what a reset parser still holds of the frame it
gave up can never be told from the zeros it started with. -/
namespace MeshPbx

/-- Parsers in the same state that hold the same of the frame under way; what an
earlier frame left in the fields that are not in use may differ. -/
structure RxSm.Agree (a b : RxSm) : Prop where
  state : a.state = b.state
  expectedLen : a.state = .waitLenLo ∨ a.state = .waitPayload → a.expectedLen = b.expectedLen
  receivedLen : a.state = .waitPayload → a.receivedLen = b.receivedLen
  payload : a.state = .waitPayload →
    a.payload.read 0 a.receivedLen.toNat = b.payload.read 0 a.receivedLen.toNat

variable {a b : RxSm}

/-- Before the length has begun to arrive, only the state is in use. -/
theorem agree_unused (same : a.state = b.state) (noLength : a.state ≠ .waitLenLo)
    (noPayload : a.state ≠ .waitPayload) : a.Agree b where
  state := same
  expectedLen := fun used => (used.elim noLength noPayload).elim
  receivedLen := fun used => (noPayload used).elim
  payload := fun used => (noPayload used).elim

/-- What has been stored of a payload grows by the byte that arrives. -/
theorem stored_payload (buffer : ByteBuffer) (len : UInt16) (byte : UInt8) :
    (buffer.write len.toNat [byte]).read 0 (len + 1).toNat =
      if len = 65535 then [] else buffer.read 0 len.toNat ++ [byte] := by
  split_ifs with last
  · subst last
    rfl
  · have counted : (len + 1).toNat = len.toNat + 1 := by
      have below : len.toNat ≠ 65535 := fun same => last (UInt16.toNat_inj.mp same)
      have bound : len.toNat < 65536 := len.toNat_lt
      rw [UInt16.toNat_add]
      exact Nat.mod_eq_of_lt (by simp; omega)
    rw [counted]
    exact ByteBuffer.read_write_next buffer len.toNat [byte]

/-- A byte takes agreeing parsers to agreeing parsers, and they hand on the same. -/
theorem agree_byte (cb : Bool) (agree : a.Agree b) (byte : UInt8) :
    (rxProcessByte cb a byte).2 = (rxProcessByte cb b byte).2 ∧
      (rxProcessByte cb a byte).1.Agree (rxProcessByte cb b byte).1 := by
  obtain ⟨state, expectedLen, receivedLen, payload⟩ := agree
  cases position : a.state with
  | waitMagic1 =>
    have positionB : b.state = .waitMagic1 := state.symm.trans position
    simp only [rxProcessByte, position, positionB, true_and]
    split_ifs with magic
    · exact agree_unused rfl RxState.noConfusion RxState.noConfusion
    · exact agree_unused state (by simp [position]) (by simp [position])
  | waitMagic2 =>
    have positionB : b.state = .waitMagic2 := state.symm.trans position
    simp only [rxProcessByte, position, positionB, true_and]
    split_ifs with second first
    · exact agree_unused rfl RxState.noConfusion RxState.noConfusion
    · exact agree_unused rfl RxState.noConfusion RxState.noConfusion
    · exact agree_unused rfl RxState.noConfusion RxState.noConfusion
  | waitLenHi =>
    have positionB : b.state = .waitLenHi := state.symm.trans position
    simp only [rxProcessByte, position, positionB, true_and]
    exact ⟨rfl, fun _ => rfl, RxState.noConfusion, RxState.noConfusion⟩
  | waitLenLo =>
    have positionB : b.state = .waitLenLo := state.symm.trans position
    have sameHigh := expectedLen (.inl position)
    simp only [rxProcessByte, position, positionB, sameHigh, true_and]
    split_ifs with refused
    · exact agree_unused rfl RxState.noConfusion RxState.noConfusion
    · exact ⟨rfl, fun _ => rfl, fun _ => rfl, fun _ => rfl⟩
  | waitPayload =>
    have positionB : b.state = .waitPayload := state.symm.trans position
    have sameExpected := expectedLen (.inr position)
    have sameReceived := receivedLen position
    have stored : (a.payload.write a.receivedLen.toNat [byte]).read 0 (a.receivedLen + 1).toNat =
        (b.payload.write b.receivedLen.toNat [byte]).read 0 (b.receivedLen + 1).toNat := by
      rw [stored_payload, stored_payload, ← sameReceived, payload position]
    simp only [rxProcessByte, position, positionB]
    simp only [sameExpected, sameReceived] at stored ⊢
    split_ifs with last called
    · exact ⟨by rw [← last, stored], agree_unused rfl RxState.noConfusion RxState.noConfusion⟩
    · exact ⟨rfl, agree_unused rfl RxState.noConfusion RxState.noConfusion⟩
    · exact ⟨rfl, rfl, fun _ => rfl, fun _ => rfl, fun _ => stored⟩

/-- Agreement is all the framing state machine can see. -/
theorem parser_bisimulation : rxParser.Bisimulation RxSm.Agree where
  output := fun agree byte => (agree_byte true agree byte).1
  next := fun agree byte => (agree_byte true agree byte).2

/-- A parser at the head of a frame is as good as a fresh one. -/
theorem idle_parser_fresh (idle : a.state = .waitMagic1) (stream : Bytes) :
    rxParser.output a stream = rxParser.output .zero stream :=
  parser_bisimulation.output_eq
    (agree_unused idle (by simp [idle]) (by simp [idle])) stream

namespace UartRx

/-- A frame under way has the resync work behind it. -/
def Guarded (u : UartRx) : Prop :=
  u.handler = .idle → u.rxSm.state ≠ .waitMagic1 → u.resyncDwork.isSome

theorem guarded_step (u : UartRx) (e : RxEvent) (guarded : u.Guarded) (enabled : u.enabled e) :
    (u.apply e).Guarded := by
  cases e with
  | rdy => exact guarded
  | disabled => exact fun _ open_ => (open_ rfl).elim
  | resync =>
    intro _ midFrame
    simp only [apply, rxResyncHandler] at midFrame
    split_ifs at midFrame with stalled
    · exact (midFrame rfl).elim
    · exact (stalled midFrame).elim
  | work => exact fun idle => RxWork.noConfusion idle
  | get =>
    intro idle midFrame
    cases waiting : u.rxRingBuf with
    | nil =>
      simp only [apply, waiting, rxWorkFinish] at midFrame ⊢
      rw [if_pos midFrame]
      rfl
    | cons byte rest =>
      simp only [apply, waiting] at idle
      exact RxWork.noConfusion idle
  | process =>
    intro idle
    cases position : u.handler with
    | idle => exact (enabled.1 position).elim
    | looping => exact (enabled.2 position).elim
    | holding byte =>
      simp only [apply, position] at idle
      exact RxWork.noConfusion idle

/-- Receive paths that differ in nothing but what their parsers have done with. -/
def Twin (u v : UartRx) : Prop :=
  v = { u with rxSm := v.rxSm } ∧ u.rxSm.Agree v.rxSm

theorem twin_enabled (u v : UartRx) (e : RxEvent) (twin : u.Twin v) :
    u.enabled e ↔ v.enabled e := by
  rw [twin.1]
  cases e <;> exact Iff.rfl

/-- Twins stay twins whatever happens to both. -/
theorem twin_step (u v : UartRx) (e : RxEvent) (twin : u.Twin v) (enabled : u.enabled e) :
    (u.apply e).Twin (v.apply e) := by
  obtain ⟨same, agree⟩ := twin
  generalize v.rxSm = sm at same agree
  subst same
  cases e with
  | rdy => exact ⟨rfl, agree⟩
  | disabled => exact ⟨rfl, agree_unused rfl RxState.noConfusion RxState.noConfusion⟩
  | resync =>
    simp only [apply, rxResyncHandler, ← agree.state]
    split_ifs with stalled
    · exact ⟨rfl, agree_unused rfl RxState.noConfusion RxState.noConfusion⟩
    · exact ⟨rfl, agree⟩
  | work => exact ⟨rfl, agree⟩
  | get =>
    cases waiting : u.rxRingBuf with
    | nil =>
      simp only [apply, waiting, rxWorkFinish, ← agree.state]
      exact ⟨rfl, agree⟩
    | cons byte rest =>
      simp only [apply, waiting]
      exact ⟨rfl, agree⟩
  | process =>
    cases position : u.handler with
    | idle => exact (enabled.1 position).elim
    | looping => exact (enabled.2 position).elim
    | holding byte =>
      obtain ⟨handed, after⟩ := agree_byte u.fromradioCb agree byte
      simp only [apply, position, process, ← handed]
      exact ⟨rfl, after⟩

end UartRx

/-- A frame that stalls is given up, and nothing of it is left: between handlers a
frame under way has the resync work scheduled, and once that has fired, what will
be handed on of any later stream, and over any later course of the receive path,
is what a fresh parser would hand on. -/
theorem stalled_frame_recovers (es : List RxEvent) (runs : receiver.Runs .init es) :
    let u := receiver.run .init es
    (u.handler = .idle → u.rxSm.state ≠ .waitMagic1 → u.resyncDwork.isSome) ∧
      (receiver.enabled u .resync →
        let v := receiver.next u .resync
        (∀ stream, rxParser.output v.rxSm stream = rxParser.output .zero stream) ∧
          ∀ later, (receiver.Runs v later ↔ receiver.Runs { v with rxSm := .zero } later) ∧
            (receiver.Runs v later → (receiver.run v later).frames =
              (receiver.run { v with rxSm := .zero } later).frames)) := by
  intro u
  refine ⟨Machine.invariant UartRx.guarded_step es (fun _ open_ => (open_ rfl).elim) runs, ?_⟩
  intro _ v
  have idle : v.rxSm.state = .waitMagic1 := by
    simp only [v, receiver, UartRx.apply, rxResyncHandler]
    split_ifs with stalled
    · rfl
    · exact not_not.mp stalled
  refine ⟨idle_parser_fresh idle, fun later => ?_⟩
  have twin : v.Twin { v with rxSm := .zero } :=
    ⟨rfl, agree_unused idle (by simp [idle]) (by simp [idle])⟩
  obtain ⟨sameRuns, related⟩ :=
    Machine.related_run (m := receiver) UartRx.twin_enabled UartRx.twin_step later twin
  refine ⟨sameRuns, fun runs => ?_⟩
  rw [(related runs).1]

/-- A frame that breaks off after the first of its two payload bytes. -/
def stalledRun : List RxEvent :=
  [.rdy [0x94, 0xC3, 0x00, 0x02, 0x94], .work] ++ drain [0x94, 0xC3, 0x00, 0x02, 0x94]

theorem stalled_run_recovers :
    let u := receiver.run .init stalledRun
    u.resyncDwork.isSome ∧ rxParser.output (receiver.next u .resync).rxSm (framed [0x07]) = [[0x07]] := by
  have recovery := stalled_frame_recovers stalledRun (by decide)
  exact ⟨recovery.1 (by decide) (by decide),
    ((recovery.2 (by decide)).1 (framed [0x07])).trans (by decide)⟩

end MeshPbx
