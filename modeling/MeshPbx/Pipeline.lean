import MeshPbx.FramingAgreement
import MeshPbx.Contents

/-! Node data on its way from the UART to the phones: the receive path, and behind
it the proxy, which the framing state machine calls with every payload it completes.
The interrupt and the handlers of the proxy may run between any two turns of the
draining loop. -/
namespace MeshPbx
variable {n : Nat} {p : Platform}

/-- The statics of the receive path and those of the modules behind it. -/
structure Pipeline (n : Nat) where
  rx : UartRx
  proxy : Proxy n

/-- A step of the receive path, with the random number a handler behind it may draw,
or a step of the proxy. -/
inductive PipelineEvent (n : Nat) where
  | rx (e : RxEvent) (rand : UInt32)
  | proxy (e : Event n)

/-- The payloads that `fromradio_cb` is called with in one step. -/
def UartRx.handedOn (u : UartRx) : RxEvent → List Bytes
  | .process => match u.handler with
    | .holding byte => (rxProcessByte u.fromradioCb u.rxSm byte).2
    | .idle | .looping => []
  | .rdy _ | .disabled | .resync | .work | .get => []

/-- The calls of `fromradio_cb` as steps of the proxy. -/
def delivery (n : Nat) (p : Platform) (rand : UInt32) : Machine (Proxy n) Bytes where
  enabled _ _ := True
  next w payload := onFromradioUart p w payload rand

namespace Pipeline

def boot (n : Nat) : Pipeline n where
  rx := .init
  proxy := .boot n

/-- Frames reach the proxy from the receive path alone. -/
def enabled (s : Pipeline n) : PipelineEvent n → Prop
  | .rx e _ => s.rx.enabled e
  | .proxy e => s.proxy.enabled e ∧ ¬ e.Delivers (fun _ => True)

instance (s : Pipeline n) : (e : PipelineEvent n) → Decidable (s.enabled e)
  | .rx e _ => inferInstanceAs (Decidable (s.rx.enabled e))
  | .proxy _ => inferInstanceAs (Decidable (_ ∧ _))

/-- An interrupt that falls inside `rx_process_byte` is not a step of its own: the
byte goes through the branch it has entered, and the reset of UART_RX_DISABLED either
stands when it is done or has been overwritten. -/
def apply (p : Platform) (s : Pipeline n) : PipelineEvent n → Pipeline n
  | .rx e rand => ⟨s.rx.apply e, (delivery n p rand).run s.proxy (s.rx.handedOn e)⟩
  | .proxy e => { s with proxy := s.proxy.apply p e }

end Pipeline

def pipeline (n : Nat) (p : Platform) : Machine (Pipeline n) (PipelineEvent n) where
  enabled := Pipeline.enabled
  next := Pipeline.apply p

instance (s : Pipeline n) (e : PipelineEvent n) : Decidable ((pipeline n p).enabled s e) :=
  inferInstanceAs (Decidable (s.enabled e))

/-! The receive path. -/

section
variable {u : UartRx}

/-- The payloads handed on are those the receive path logs. -/
theorem frames_handed_on (u : UartRx) (e : RxEvent) :
    (u.apply e).frames = u.frames ++ u.handedOn e := by
  cases e with
  | resync =>
    simp only [UartRx.apply, rxResyncHandler, UartRx.handedOn, List.append_nil]
    split_ifs <;> rfl
  | get =>
    simp only [UartRx.apply, UartRx.handedOn, List.append_nil]
    split <;> rfl
  | process =>
    simp only [UartRx.apply, UartRx.handedOn]
    cases u.handler with
    | holding byte => rfl
    | _ => exact (List.append_nil _).symm
  | _ => exact (List.append_nil _).symm

/-- The parser has room for what is missing, the callback is set, and what has been
handed on are frames. -/
structure UartRx.Sound (u : UartRx) : Prop where
  bounded : u.rxSm.Bounded
  fromradioCb : u.fromradioCb = true
  frames : ∀ payload ∈ u.frames, IsFrame payload

theorem receive_sound_init : UartRx.init.Sound :=
  ⟨boundary_bounded (.inl rfl), rfl, List.forall_mem_nil _⟩

/-- Whatever the step, what it hands on is a frame. -/
theorem handed_on_frames (e : RxEvent) (sound : u.Sound) :
    ∀ payload ∈ u.handedOn e, IsFrame payload := by
  intro payload member
  cases e with
  | process =>
    simp only [UartRx.handedOn] at member
    split at member
    · rename_i byte _
      rw [sound.fromradioCb] at member
      exact bounded_handed u.rxSm byte sound.bounded payload member
    · exact absurd member List.not_mem_nil
    · exact absurd member List.not_mem_nil
  | _ => exact absurd member List.not_mem_nil

/-- A step leaves the parser with room and the callback set. -/
theorem receive_bounded_step (e : RxEvent) (sound : u.Sound) :
    (u.apply e).rxSm.Bounded ∧ (u.apply e).fromradioCb = true := by
  obtain ⟨bounded, fromradioCb, _⟩ := sound
  cases e with
  | rdy => exact ⟨bounded, fromradioCb⟩
  | disabled => exact ⟨boundary_bounded (.inl rfl), fromradioCb⟩
  | resync =>
    simp only [UartRx.apply, rxResyncHandler]
    split_ifs
    · exact ⟨boundary_bounded (.inl rfl), fromradioCb⟩
    · exact ⟨bounded, fromradioCb⟩
  | work => exact ⟨bounded, fromradioCb⟩
  | get =>
    simp only [UartRx.apply]
    split <;> exact ⟨bounded, fromradioCb⟩
  | process =>
    simp only [UartRx.apply]
    split
    · rename_i byte _
      have next := bounded_byte u.rxSm byte bounded
      rw [← fromradioCb] at next
      exact ⟨next, fromradioCb⟩
    · exact ⟨bounded, fromradioCb⟩
    · exact ⟨bounded, fromradioCb⟩

theorem receive_sound_step (e : RxEvent) (sound : u.Sound) : (u.apply e).Sound := by
  obtain ⟨bounded, fromradioCb⟩ := receive_bounded_step e sound
  refine ⟨bounded, fromradioCb, fun payload member => ?_⟩
  rw [frames_handed_on, List.mem_append] at member
  rcases member with earlier | now
  · exact sound.frames payload earlier
  · exact handed_on_frames e sound payload now

end

/-! The pipeline against the proxy. -/

/-- Frames handed on one after the other are frames delivered to the proxy. -/
theorem delivered_reachable {w : Proxy n} {payloads : List Bytes} (rand : UInt32)
    (frames : ∀ payload ∈ payloads, IsFrame payload) (reached : Reachable p w) :
    Reachable p ((delivery n p rand).run w payloads) := by
  induction payloads generalizing w with
  | nil => exact reached
  | cons payload payloads ih =>
    obtain ⟨frame, rfl⟩ := frames payload List.mem_cons_self
    have delivered : Reachable p (w.apply p (.fromradio frame rand)) :=
      Machine.Reachable.step (e := .fromradio frame rand) reached trivial
    exact ih (fun other among => frames other (List.mem_cons_of_mem _ among)) delivered

/-- The receive path is sound, and the proxy behind it is in a state that it can
reach. -/
structure Pipeline.Sound (p : Platform) (s : Pipeline n) : Prop where
  rx : s.rx.Sound
  proxy : Reachable p s.proxy

theorem pipeline_sound_boot : (Pipeline.boot n).Sound p :=
  ⟨receive_sound_init, Machine.Reachable.refl⟩

theorem pipeline_sound_step (s : Pipeline n) (e : PipelineEvent n) (sound : s.Sound p)
    (enabled : s.enabled e) : (s.apply p e).Sound p := by
  cases e with
  | rx e rand =>
    have frames := handed_on_frames e sound.rx
    exact ⟨receive_sound_step e sound.rx, delivered_reachable rand frames sound.proxy⟩
  | proxy e => exact ⟨sound.rx, Machine.Reachable.step sound.proxy enabled.1⟩

end MeshPbx
