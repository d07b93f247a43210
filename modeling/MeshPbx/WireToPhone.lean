import MeshPbx.DmaReceive
import MeshPbx.Inbox
import MeshPbx.Pipeline

/-! From the UART line to the phones. The driver's DMA buffers, the ring buffer, the
framing state machine, the router and the queues of the phones run together; every frame
that the framing completes is delivered before the next byte is looked at. -/
namespace MeshPbx
variable {n : Nat} {p : Platform} {conn : BtConn}

/-- The receive path from the driver on, and the proxy behind it. -/
structure Downlink (n : Nat) where
  rx : DmaRx
  proxy : Proxy n

/-- An event of the driver or the receive path, with the random number a handler behind it
may draw, or an event of the proxy. -/
inductive DownlinkEvent (n : Nat) where
  | line (e : DmaEvent) (rand : UInt32)
  | proxy (e : Event n)

/-- The payloads that `fromradio_cb` is called with. -/
def DmaRx.handedOn (s : DmaRx) (e : DmaEvent) : List Bytes :=
  match s.passed e with
  | some e => s.rx.handedOn e
  | none => []

namespace Downlink

def boot (n : Nat) : Downlink n := ⟨.init, .boot n⟩

def enabled (s : Downlink n) : DownlinkEvent n → Prop
  | .line e _ => s.rx.enabled e
  | .proxy e => s.proxy.enabled e ∧ ¬ e.Delivers (fun _ => True)

instance (s : Downlink n) : (e : DownlinkEvent n) → Decidable (s.enabled e)
  | .line e _ => inferInstanceAs (Decidable (s.rx.enabled e))
  | .proxy _ => inferInstanceAs (Decidable (_ ∧ _))

def apply (p : Platform) (s : Downlink n) : DownlinkEvent n → Downlink n
  | .line e rand => ⟨s.rx.apply e, (delivery n p rand).run s.proxy (s.rx.handedOn e)⟩
  | .proxy e => { s with proxy := s.proxy.apply p e }

end Downlink

def downlink (n : Nat) (p : Platform) : Machine (Downlink n) (DownlinkEvent n) where
  enabled := Downlink.enabled
  next := Downlink.apply p

instance (s : Downlink n) (e : DownlinkEvent n) : Decidable ((downlink n p).enabled s e) :=
  inferInstanceAs (Decidable (s.enabled e))

/-! The frames in the payloads. -/

def Frame.ofPayload (payload : Bytes) : Option Frame :=
  if h : 0 < payload.length ∧ payload.length ≤ MESHTASTIC_MAX_PAYLOAD then
    some ⟨payload, h.1, h.2⟩
  else none

theorem frame_of_payload (frame : Frame) : Frame.ofPayload frame.bytes = some frame := by
  rw [Frame.ofPayload, dif_pos ⟨frame.pos, frame.le⟩]

/-- The events of the proxy that a step is. -/
def Downlink.label (s : Downlink n) : DownlinkEvent n → List (Event n)
  | .line e rand => (s.rx.handedOn e).filterMap fun payload =>
    (Frame.ofPayload payload).map (Event.fromradio · rand)
  | .proxy e => [e]

/-- The frames of the node among the events of the proxy. -/
def nodeFrames (es : List (Event n)) : List Bytes :=
  es.filterMap fun
    | .fromradio frame _ => some frame.bytes
    | _ => none

/-- Frames delivered one after the other are events of the proxy. -/
theorem delivered_events {payloads : List Bytes} (rand : UInt32)
    (frames : ∀ payload ∈ payloads, IsFrame payload) (w : Proxy n) :
    let made := payloads.filterMap fun payload =>
      (Frame.ofPayload payload).map (Event.fromradio (n := n) · rand)
    (system n p).Runs w made ∧ (system n p).run w made = (delivery n p rand).run w payloads ∧
      nodeFrames made = payloads := by
  induction payloads generalizing w with
  | nil => exact ⟨trivial, rfl, rfl⟩
  | cons payload payloads ih =>
    obtain ⟨frame, rfl⟩ := frames payload List.mem_cons_self
    obtain ⟨runs, reached, named⟩ := ih (fun other among => frames other (List.mem_cons_of_mem _ among))
      (w.apply p (.fromradio frame rand))
    simp only [List.filterMap_cons, frame_of_payload, Option.map_some]
    refine ⟨⟨trivial, runs⟩, reached, ?_⟩
    exact congrArg (frame.bytes :: ·) named

/-- The receive path stays sound, and logs what it hands on. -/
theorem line_sound_step (s : DmaRx) (e : DmaEvent) (sound : s.rx.Sound) (enabled : s.enabled e) :
    (s.apply e).rx.Sound ∧ (s.apply e).rx.frames = s.rx.frames ++ s.handedOn e ∧
      ∀ payload ∈ s.handedOn e, IsFrame payload := by
  have step := passed_step s e enabled
  unfold DmaRx.handedOn
  cases passed : s.passed e with
  | none =>
    simp only [passed] at step
    rw [(Prod.mk.inj step).1]
    exact ⟨sound, (List.append_nil _).symm, List.forall_mem_nil _⟩
  | some e' =>
    simp only [passed] at step
    have moved : (s.apply e).rx = s.rx.apply e' := (Prod.mk.inj step.2).1
    rw [moved]
    exact ⟨receive_sound_step e' sound, frames_handed_on s.rx e', handed_on_frames e' sound⟩

theorem label_events {s : Downlink n} (sound : s.rx.rx.Sound) (e : DownlinkEvent n)
    (enabled : s.enabled e) :
    (system n p).Runs s.proxy (s.label e) ∧
      (system n p).run s.proxy (s.label e) = (s.apply p e).proxy ∧
      (s.apply p e).rx.rx.Sound ∧
      (s.apply p e).rx.rx.frames = s.rx.rx.frames ++ nodeFrames (s.label e) := by
  cases e with
  | line e rand =>
    obtain ⟨after, logged, frames⟩ := line_sound_step s.rx e sound enabled
    obtain ⟨runs, reached, named⟩ := delivered_events (p := p) rand frames s.proxy
    refine ⟨runs, reached, after, ?_⟩
    rw [Downlink.label, named]
    exact logged
  | proxy e =>
    have quiet : nodeFrames [e] = [] := by
      cases e with
      | fromradio frame rand => exact absurd trivial enabled.2
      | _ => rfl
    refine ⟨⟨enabled.1, trivial⟩, rfl, sound, ?_⟩
    rw [Downlink.label, quiet, List.append_nil]
    rfl

/-- The composed system against the proxy's own machine. -/
def downlinkOnProxy (n : Nat) (p : Platform) : (downlink n p).Refinement (system n p) where
  Inv s := s.rx.rx.Sound
  view := Downlink.proxy
  label := Downlink.label
  keeps _ e sound enabled := (label_events (p := p) sound e enabled).2.2.1
  step _ e sound enabled :=
    have made := label_events (p := p) sound e enabled
    ⟨made.1, made.2.1⟩

/-- The composed system against the receive path alone. -/
def downlinkOnLine (n : Nat) (p : Platform) : (downlink n p).Refinement dmaReceiver where
  Inv _ := True
  view := Downlink.rx
  label
    | _, .line e _ => [e]
    | _, .proxy _ => []
  keeps _ _ _ _ := trivial
  step s e _ enabled := by
    cases e with
    | line e rand => exact ⟨⟨enabled, trivial⟩, rfl⟩
    | proxy e => exact ⟨trivial, rfl⟩

/-- The frames delivered so far are those that the receive path has logged. -/
structure Delivered (s : Downlink n) (made : List (Event n)) : Prop where
  sound : s.rx.rx.Sound
  frames : nodeFrames made = s.rx.rx.frames

theorem delivered_step (s : Downlink n) (made : List (Event n)) (e : DownlinkEvent n)
    (delivered : Delivered s made) (enabled : s.enabled e) :
    Delivered (s.apply p e) (made ++ s.label e) := by
  obtain ⟨_, _, sound, frames⟩ := label_events (p := p) delivered.sound e enabled
  refine ⟨sound, ?_⟩
  rw [frames, ← delivered.frames]
  exact List.filterMap_append

theorem delivered_run (es : List (DownlinkEvent n)) (runs : (downlink n p).Runs (.boot n) es) :
    Delivered ((downlink n p).run (.boot n) es) ((downlinkOnProxy n p).abstract (.boot n) es) :=
  Machine.trace_invariant delivered_step es ⟨receive_sound_init, rfl⟩ runs

/-- The events of the line are those of the receive path's own run. -/
theorem line_events (es : List (DownlinkEvent n)) {s : Downlink n} {e : DmaEvent}
    (member : e ∈ (downlinkOnLine n p).abstract s es) : ∃ rand, DownlinkEvent.line e rand ∈ es := by
  obtain ⟨_, step, among, made⟩ := Machine.mem_trace member
  cases step with
  | line e' rand =>
    obtain rfl := List.mem_singleton.mp made
    exact ⟨rand, among⟩
  | proxy e' => exact absurd made List.not_mem_nil

/-- The event resets the parser. -/
def DownlinkEvent.Resets : DownlinkEvent n → Prop
  | .line e _ => e.Resets
  | .proxy _ => False

instance : (e : DownlinkEvent n) → Decidable e.Resets
  | .line e _ => inferInstanceAs (Decidable e.Resets)
  | .proxy _ => isFalse id

/-- A phone connects, a frame comes in two reports, and the phone reads it. -/
def framedToPhone : List (DownlinkEvent 1) :=
  [.proxy (.connected 7 false)] ++ splitReport.map (.line · 0) ++ [.proxy (.fromradioRead 7 8 0)]

end MeshPbx
