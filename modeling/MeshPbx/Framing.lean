import MeshPbx.UartReceive

/-! What the framing state machine makes of a byte stream. A parser at a frame
boundary skips noise, hands on every whole frame once and says nothing about a
frame that has not ended. -/
namespace MeshPbx

/-- The frame that carries a payload. -/
def framed (payload : Bytes) : Bytes :=
  frameHeader payload.length ++ payload

@[simp] theorem length_framed (payload : Bytes) : (framed payload).length = payload.length + 4 := by
  simp only [framed, frameHeader, List.length_append, List.length_cons, List.length_nil]
  omega

/-- The length announced by the two length bytes of a header. -/
def lengthField (hi lo : UInt8) : Nat :=
  hi.toNat * 256 + lo.toNat

/-- Byte strings in which a parser at a frame boundary finds no frame: the only
headers in them announce a length that no frame has. -/
inductive Noise : Bytes → Prop
  | nil : Noise []
  | skip {byte : UInt8} {rest : Bytes} :
      byte ≠ MESHTASTIC_MAGIC1 → Noise rest → Noise (byte :: rest)
  | lone : Noise [MESHTASTIC_MAGIC1]
  | again {rest : Bytes} :
      Noise (MESHTASTIC_MAGIC1 :: rest) → Noise (MESHTASTIC_MAGIC1 :: MESHTASTIC_MAGIC1 :: rest)
  | stray {byte : UInt8} {rest : Bytes} :
      byte ≠ MESHTASTIC_MAGIC1 → byte ≠ MESHTASTIC_MAGIC2 → Noise rest →
      Noise (MESHTASTIC_MAGIC1 :: byte :: rest)
  | badLength {hi lo : UInt8} {rest : Bytes} :
      lengthField hi lo = 0 ∨ lengthField hi lo > MESHTASTIC_MAX_PAYLOAD → Noise rest →
      Noise (MESHTASTIC_MAGIC1 :: MESHTASTIC_MAGIC2 :: hi :: lo :: rest)

/-- Byte strings that hold the given payloads, each in a frame of its own, with
nothing but noise before the frames and nothing behind the last. -/
inductive Reads : Bytes → List Bytes → Prop
  | nil : Reads [] []
  | frame {noise rest : Bytes} {payloads : List Bytes} (frame : Frame) :
      Noise noise → Reads rest payloads →
      Reads (noise ++ (framed frame.bytes ++ rest)) (frame.bytes :: payloads)

/-- Bytes among which the magic pair does not stand. -/
def Quiet (bytes : Bytes) : Prop :=
  ¬ [MESHTASTIC_MAGIC1, MESHTASTIC_MAGIC2] <:+: bytes

theorem quiet_tail {byte : UInt8} {bytes : Bytes} (quiet : Quiet (byte :: bytes)) : Quiet bytes := by
  intro inside
  exact quiet (inside.trans (List.suffix_cons byte bytes).isInfix)

theorem quiet_noise {bytes : Bytes} (quiet : Quiet bytes) : Noise bytes := by
  induction bytes using List.twoStepInduction with
  | nil => exact .nil
  | singleton byte =>
    by_cases magic : byte = MESHTASTIC_MAGIC1
    · exact magic ▸ .lone
    · exact .skip magic .nil
  | cons_cons first second rest ihRest ihTail =>
    have tailNoise : Noise (second :: rest) := ihTail second (quiet_tail quiet)
    by_cases magic : first = MESHTASTIC_MAGIC1
    · subst magic
      by_cases repeated : second = MESHTASTIC_MAGIC1
      · subst repeated
        exact .again tailNoise
      · have other : second ≠ MESHTASTIC_MAGIC2 := by
          rintro rfl
          exact quiet ⟨[], rest, rfl⟩
        exact .stray repeated other (ihRest (quiet_tail (quiet_tail quiet)))
    · exact .skip magic tailNoise

/-! The bytes of a header. -/

/-- The two length bytes, assembled as the state machine assembles them. -/
theorem length_assembled (hi lo : UInt8) :
    (hi.toUInt16 <<< 8 ||| lo.toUInt16).toNat = lengthField hi lo := by
  have small : lo.toNat < 2 ^ 8 := lo.toNat_lt
  have bound : hi.toNat < 256 := hi.toNat_lt
  have shifted : (hi.toUInt16 <<< 8).toNat = hi.toNat <<< 8 := by
    rw [UInt16.toNat_shiftLeft]
    simp only [UInt8.toNat_toUInt16, Nat.shiftLeft_eq]
    exact Nat.mod_eq_of_lt (by simp; omega)
  rw [UInt16.toNat_or, shifted, UInt8.toNat_toUInt16, ← Nat.shiftLeft_add_eq_or_of_lt small]
  simp only [lengthField, Nat.shiftLeft_eq]

theorem length_announced {len : Nat} (short : len ≤ MESHTASTIC_MAX_PAYLOAD) :
    lengthField (UInt8.ofNat (len / 256)) (UInt8.ofNat (len % 256)) = len := by
  have bound : len ≤ 512 := short
  simp only [lengthField, UInt8.toNat_ofNat']
  omega

/-! The state machine on the pieces of a stream. -/

namespace RxSm

/-- The states in which no header is under way. -/
def Boundary (sm : RxSm) : Prop :=
  sm.state = .waitMagic1 ∨ sm.state = .waitMagic2

/-- A frame whose payload has begun to arrive. -/
structure Receiving (sm : RxSm) (got missing : Bytes) : Prop where
  state : sm.state = .waitPayload
  receivedLen : sm.receivedLen.toNat = got.length
  expectedLen : sm.expectedLen.toNat = got.length + missing.length
  payload : sm.payload.read 0 got.length = got

end RxSm

variable {sm : RxSm}

/-- A header at a frame boundary announces the frame that follows. -/
theorem header_received (boundary : sm.Boundary) (frame : Frame) :
    rxParser.output sm (frameHeader frame.bytes.length) = [] ∧
      (rxParser.state sm (frameHeader frame.bytes.length)).Receiving [] frame.bytes := by
  have announced := length_announced frame.le
  have assembled := length_assembled (UInt8.ofNat (frame.bytes.length / 256))
    (UInt8.ofNat (frame.bytes.length % 256))
  rw [announced] at assembled
  have nonzero : ¬ ((UInt8.ofNat (frame.bytes.length / 256)).toUInt16 <<< 8 |||
      (UInt8.ofNat (frame.bytes.length % 256)).toUInt16 = 0) := by
    intro zero
    have empty : frame.bytes.length = 0 := by
      rw [← assembled, zero]
      rfl
    exact absurd empty (Nat.ne_of_gt frame.pos)
  have short : ¬ frame.bytes.length > MESHTASTIC_MAX_PAYLOAD := Nat.not_lt_of_le frame.le
  have started : rxProcessByte true sm MESHTASTIC_MAGIC1 =
      ({ sm with state := .waitMagic2 }, []) := by
    rcases boundary with idle | started
    · simp only [rxProcessByte, idle, if_true]
    · have different : MESHTASTIC_MAGIC1 ≠ MESHTASTIC_MAGIC2 := by decide
      simp only [rxProcessByte, started, if_neg different, if_true]
  simp only [frameHeader, Transducer.output_cons, Transducer.state_cons, Transducer.output_nil,
    Transducer.state_nil, rxParser, started]
  simp only [rxProcessByte, if_true, assembled, nonzero, short, or_self, if_false,
    List.append_nil, true_and]
  exact ⟨rfl, rfl, by simpa using assembled, rfl⟩

/-- A payload byte that is not the last is stored. -/
theorem payload_byte_stored {got rest : Bytes} {byte : UInt8}
    (receiving : sm.Receiving got (byte :: rest))
    (short : got.length + (byte :: rest).length ≤ MESHTASTIC_MAX_PAYLOAD) (pending : rest ≠ []) :
    (rxProcessByte true sm byte).2 = [] ∧
      (rxProcessByte true sm byte).1.Receiving (got ++ [byte]) rest := by
  obtain ⟨state, receivedLen, expectedLen, payload⟩ := receiving
  have positive : 0 < rest.length := List.length_pos_of_ne_nil pending
  have bound : got.length + (rest.length + 1) ≤ 512 := short
  have counted : (sm.receivedLen + 1).toNat = got.length + 1 := by
    rw [UInt16.toNat_add, receivedLen]
    exact Nat.mod_eq_of_lt (by simp; omega)
  have unfinished : ¬ sm.receivedLen + 1 = sm.expectedLen := by
    intro finished
    have lengths := congrArg UInt16.toNat finished
    rw [counted, expectedLen, List.length_cons] at lengths
    omega
  simp only [rxProcessByte, state, unfinished, if_false, true_and]
  refine ⟨rfl, by simpa using counted, ?_, ?_⟩
  · simp only [expectedLen, List.length_append, List.length_cons, List.length_nil]
    omega
  · have stored := ByteBuffer.read_write_next sm.payload got.length [byte]
    rw [payload] at stored
    simpa only [receivedLen, List.length_append] using stored

/-- The last payload byte hands the payload on. -/
theorem payload_byte_last {got : Bytes} {byte : UInt8} (receiving : sm.Receiving got [byte])
    (short : got.length + 1 ≤ MESHTASTIC_MAX_PAYLOAD) :
    (rxProcessByte true sm byte).2 = [got ++ [byte]] ∧
      (rxProcessByte true sm byte).1.state = .waitMagic1 := by
  obtain ⟨state, receivedLen, expectedLen, payload⟩ := receiving
  have bound : got.length + 1 ≤ 512 := short
  have counted : (sm.receivedLen + 1).toNat = got.length + 1 := by
    rw [UInt16.toNat_add, receivedLen]
    exact Nat.mod_eq_of_lt (by simp; omega)
  have finished : sm.receivedLen + 1 = sm.expectedLen :=
    UInt16.toNat_inj.mp (counted.trans expectedLen.symm)
  have stored := ByteBuffer.read_write_next sm.payload got.length [byte]
  rw [payload] at stored
  simp only [rxProcessByte, state, finished, if_true, and_true]
  simp only [← finished, counted, receivedLen]
  exact congrArg (fun payload => [payload]) stored

/-- Payload bytes short of the last hand nothing on. -/
theorem payload_stored {got arrived later : Bytes} (receiving : sm.Receiving got (arrived ++ later))
    (short : got.length + (arrived ++ later).length ≤ MESHTASTIC_MAX_PAYLOAD)
    (pending : later ≠ []) :
    rxParser.output sm arrived = [] ∧ (rxParser.state sm arrived).Receiving (got ++ arrived) later := by
  induction arrived generalizing sm got with
  | nil => exact ⟨rfl, by simpa using receiving⟩
  | cons byte arrived ih =>
    have unfinished : arrived ++ later ≠ [] := List.append_ne_nil_of_right_ne_nil _ pending
    obtain ⟨silent, stored⟩ := payload_byte_stored receiving short unfinished
    have shorter : (got ++ [byte]).length + (arrived ++ later).length ≤ MESHTASTIC_MAX_PAYLOAD := by
      simp only [List.length_append, List.cons_append, List.length_cons, List.length_nil] at short ⊢
      omega
    obtain ⟨rest, received⟩ := ih stored shorter
    refine ⟨?_, by simpa using received⟩
    rw [Transducer.output_cons, rxParser_step, silent, rest]
    rfl

/-- The last of the payload bytes hands the payload on. -/
theorem payload_received {got missing : Bytes} (receiving : sm.Receiving got missing)
    (short : got.length + missing.length ≤ MESHTASTIC_MAX_PAYLOAD) (pending : missing ≠ []) :
    rxParser.output sm missing = [got ++ missing] ∧
      (rxParser.state sm missing).state = .waitMagic1 := by
  obtain ⟨arrived, last, rfl⟩ := (List.eq_nil_or_concat' missing).resolve_left pending
  obtain ⟨silent, stored⟩ := payload_stored receiving short (List.cons_ne_nil last [])
  have within : (got ++ arrived).length + 1 ≤ MESHTASTIC_MAX_PAYLOAD := by
    simp only [List.length_append, List.length_cons, List.length_nil] at short ⊢
    omega
  obtain ⟨handed, idle⟩ := payload_byte_last stored within
  constructor
  · rw [Transducer.output_append, silent]
    simpa [rxParser] using handed
  · rw [Transducer.state_append]
    exact idle

/-- A frame at a frame boundary hands on its payload, and nothing else. -/
theorem frame_received (boundary : sm.Boundary) (frame : Frame) :
    rxParser.output sm (framed frame.bytes) = [frame.bytes] ∧
      (rxParser.state sm (framed frame.bytes)).state = .waitMagic1 := by
  obtain ⟨silent, receiving⟩ := header_received boundary frame
  have within : ([] : Bytes).length + frame.bytes.length ≤ MESHTASTIC_MAX_PAYLOAD := by
    simpa using frame.le
  obtain ⟨handed, idle⟩ :=
    payload_received receiving within (List.ne_nil_of_length_pos frame.pos)
  constructor
  · rw [framed, Transducer.output_append, silent, handed]
    rfl
  · rw [framed, Transducer.state_append]
    exact idle

/-- A frame that has not ended has handed nothing on. -/
theorem partial_frame_silent (boundary : sm.Boundary) (frame : Frame) {head later : Bytes}
    (cut : head ++ later = framed frame.bytes) (unfinished : later ≠ []) :
    rxParser.output sm head = [] := by
  obtain ⟨silent, receiving⟩ := header_received boundary frame
  rcases List.append_eq_append_iff.mp cut with ⟨rest, header, _⟩ | ⟨arrived, split, payload⟩
  · rw [header, Transducer.output_append] at silent
    exact (List.append_eq_nil_iff.mp silent).1
  · have within : ([] : Bytes).length + (arrived ++ later).length ≤ MESHTASTIC_MAX_PAYLOAD := by
      rw [← payload]
      simpa using frame.le
    have remaining : (rxParser.state sm (frameHeader frame.bytes.length)).Receiving []
        (arrived ++ later) := by
      rw [← payload]
      exact receiving
    obtain ⟨stored, _⟩ := payload_stored remaining within unfinished
    rw [split, Transducer.output_append, silent, stored]
    rfl

/-- Noise at a frame boundary hands nothing on and leads to a frame boundary. -/
theorem noise_skipped {bytes : Bytes} (noise : Noise bytes) (idle : sm.state = .waitMagic1) :
    rxParser.output sm bytes = [] ∧ (rxParser.state sm bytes).Boundary := by
  have different : MESHTASTIC_MAGIC1 ≠ MESHTASTIC_MAGIC2 := by decide
  induction noise generalizing sm with
  | nil => exact ⟨rfl, .inl idle⟩
  | skip other _ ih =>
    simpa only [Transducer.output_cons, Transducer.state_cons, rxParser_step, rxProcessByte, idle,
      if_neg other, List.nil_append] using ih idle
  | lone =>
    simp only [Transducer.output_cons, Transducer.state_cons, rxParser_step, rxProcessByte, idle,
      if_true, Transducer.output_nil, Transducer.state_nil, List.append_nil, true_and]
    exact .inr rfl
  | again _ ih =>
    simpa only [Transducer.output_cons, Transducer.state_cons, rxParser_step, rxProcessByte, idle,
      if_neg different, if_true, List.nil_append] using ih idle
  | stray other notSecond _ ih =>
    simpa only [Transducer.output_cons, Transducer.state_cons, rxParser_step, rxProcessByte, idle,
      if_neg other, if_neg notSecond, if_true, List.nil_append] using ih rfl
  | @badLength hi lo rest bad _ ih =>
    have assembled := length_assembled hi lo
    have refused : hi.toUInt16 <<< 8 ||| lo.toUInt16 = 0 ∨
        (hi.toUInt16 <<< 8 ||| lo.toUInt16).toNat > MESHTASTIC_MAX_PAYLOAD := by
      rw [assembled]
      exact bad.imp_left (fun zero => UInt16.toNat_inj.mp (assembled.trans zero))
    simpa only [Transducer.output_cons, Transducer.state_cons, rxParser_step, rxProcessByte, idle,
      if_true, if_pos refused, List.nil_append] using ih rfl

/-- Noise that has not ended has handed nothing on either. -/
theorem partial_noise_silent {arrived later : Bytes} (noise : Noise (arrived ++ later))
    (idle : sm.state = .waitMagic1) : rxParser.output sm arrived = [] := by
  have silent := (noise_skipped noise idle).1
  rw [Transducer.output_append] at silent
  exact (List.append_eq_nil_iff.mp silent).1

/-- What a byte string reads as is what the state machine hands on from a frame
boundary, and it ends at one. -/
theorem reading_received {bytes : Bytes} {payloads : List Bytes} (reads : Reads bytes payloads)
    (idle : sm.state = .waitMagic1) :
    rxParser.output sm bytes = payloads ∧ (rxParser.state sm bytes).state = .waitMagic1 := by
  induction reads generalizing sm with
  | nil => exact ⟨rfl, idle⟩
  | frame frame noise _ ih =>
    obtain ⟨silent, boundary⟩ := noise_skipped noise idle
    obtain ⟨handed, restart⟩ := frame_received boundary frame
    obtain ⟨rest, ending⟩ := ih restart
    constructor
    · rw [Transducer.output_append, Transducer.output_append, silent, handed, rest]
      rfl
    · rw [Transducer.state_append, Transducer.state_append]
      exact ending

/-- The payloads of the frames that lie wholly in the first `len` bytes of a
sequence of frames. -/
def arrived : List Frame → Nat → List Bytes
  | [], _ => []
  | frame :: frames, len =>
    if (framed frame.bytes).length ≤ len then
      frame.bytes :: arrived frames (len - (framed frame.bytes).length)
    else []

/-- However much of a sequence of frames and of the beginning of one more has
arrived, the frames that are whole have been handed on, and nothing else. -/
theorem frames_received (frames : List Frame) {next : Frame} {head later bytes : Bytes}
    (boundary : sm.Boundary) (cut : head ++ later = framed next.bytes) (unfinished : later ≠ [])
    (begun : bytes <+: frames.flatMap (fun frame => framed frame.bytes) ++ head) :
    rxParser.output sm bytes = arrived frames bytes.length := by
  induction frames generalizing sm bytes with
  | nil =>
    obtain ⟨rest, split⟩ := begun
    have whole : bytes ++ (rest ++ later) = framed next.bytes := by
      rw [← cut, ← List.append_assoc, split]
      rfl
    exact partial_frame_silent boundary next whole (List.append_ne_nil_of_right_ne_nil _ unfinished)
  | cons frame frames ih =>
    rw [List.flatMap_cons, List.append_assoc] at begun
    rw [arrived]
    split_ifs with complete
    · obtain ⟨rest, rfl⟩ : framed frame.bytes <+: bytes :=
        List.prefix_of_prefix_length_le (List.prefix_append _ _) begun complete
      have more := (List.prefix_append_right_inj (framed frame.bytes)).mp begun
      obtain ⟨handed, idle⟩ := frame_received boundary frame
      rw [Transducer.output_append, handed, ih (.inl idle) more, List.length_append,
        Nat.add_sub_cancel_left]
      rfl
    · have short : bytes.length ≤ (framed frame.bytes).length := by omega
      obtain ⟨missing, whole⟩ : bytes <+: framed frame.bytes :=
        List.prefix_of_prefix_length_le begun (List.prefix_append _ _) short
      refine partial_frame_silent boundary frame whole ?_
      rintro rfl
      rw [← whole, List.append_nil] at complete
      exact complete (Nat.le_refl _)

end MeshPbx
