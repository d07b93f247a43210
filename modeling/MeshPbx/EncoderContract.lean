import MeshPbx.ProtoHandler
import MeshPbx.WireFormat

/-! The return contract of the encoders. nanopb refuses a write that does not fit
and keeps what it had written before, so a failed call has filled its buffer only
where the buffer ends between two writes; elsewhere the failure is reported as
something other than a small buffer. -/
namespace MeshPbx

/-- The contract in the header, for a message of `size` bytes and a buffer of
`bufSize`: the return code, and `*out_len` before and after. -/
structure EncoderContract (size : Nat) (bufSize : UInt16) (rc : Rc) (outLen after : UInt16) :
    Prop where
  success : rc = none ↔ size ≤ bufSize.toNat
  length : rc = none → after.toNat = size
  tooSmall : rc = some .enomem ↔ bufSize.toNat < size
  untouched : rc ≠ none → after = outLen
  neverInvalid : rc ≠ some .einval

/-- The buffer ends between two writes of the message, or before the first. -/
def EndsAtWrite (chunks : List Bytes) (bufSize : Nat) : Prop :=
  ∃ writes, ((chunks.take writes).flatten).length = bufSize

/-! The encoder's stream. -/

/-- A message that does not fit fails, and has filled the stream only when the
stream ends between two of its writes. -/
theorem pb_encode_over {size : Nat} {written : Bytes} {chunks : List Bytes}
    (within : written.length ≤ size) (exceeds : size < written.length + chunks.flatten.length) :
    (pbEncode size written chunks).1 = false ∧
      (size ≤ (pbEncode size written chunks).2.length ↔
        ∃ writes, written.length + ((chunks.take writes).flatten).length = size) := by
  induction chunks generalizing written with
  | nil =>
    simp only [List.flatten_nil, List.length_nil] at exceeds
    omega
  | cons chunk chunks ih =>
    by_cases fits : written.length + chunk.length ≤ size
    · have longer : (written ++ chunk).length = written.length + chunk.length :=
        List.length_append
      have rest : size < (written ++ chunk).length + chunks.flatten.length := by
        rw [List.flatten_cons, List.length_append] at exceeds
        omega
      obtain ⟨failed, filled⟩ := ih (longer ▸ fits) rest
      rw [pbEncode, if_pos fits]
      refine ⟨failed, filled.trans ⟨?_, ?_⟩⟩
      · rintro ⟨writes, ends⟩
        refine ⟨writes + 1, ?_⟩
        rw [List.take_succ_cons, List.flatten_cons, List.length_append]
        omega
      · rintro ⟨writes, ends⟩
        cases writes with
        | zero =>
          simp only [List.take_zero, List.flatten_nil, List.length_nil] at ends
          exact ⟨0, by simp only [List.take_zero, List.flatten_nil, List.length_nil]; omega⟩
        | succ writes =>
          rw [List.take_succ_cons, List.flatten_cons, List.length_append] at ends
          exact ⟨writes, by omega⟩
    · rw [pbEncode, if_neg fits]
      refine ⟨rfl, fun full => ⟨0, ?_⟩, ?_⟩
      · simp only [List.take_zero, List.flatten_nil, List.length_nil]
        exact Nat.le_antisymm within full
      · rintro ⟨writes, ends⟩
        cases writes with
        | zero =>
          simp only [List.take_zero, List.flatten_nil, List.length_nil] at ends
          exact Nat.le_of_eq ends.symm
        | succ writes =>
          rw [List.take_succ_cons, List.flatten_cons, List.length_append] at ends
          omega

/-- The contract, by the writes of the message. -/
theorem encode_contract_iff (chunks : List Bytes) (bufSize outLen : UInt16) :
    let result := encodeResult bufSize.toNat (pbEncode bufSize.toNat [] chunks)
    EncoderContract chunks.flatten.length bufSize result.1 outLen (outLenAfter outLen result) ↔
      chunks.flatten.length ≤ bufSize.toNat ∨ EndsAtWrite chunks bufSize.toNat := by
  by_cases fits : chunks.flatten.length ≤ bufSize.toNat
  · have length : (UInt16.ofNat chunks.flatten.length).toNat = chunks.flatten.length := by
      have bound := bufSize.toNat_lt
      rw [UInt16.toNat_ofNat', Nat.mod_eq_of_lt (by omega)]
    rw [encodeResult_fits bufSize.toNat chunks fits]
    refine iff_of_true ⟨?_, fun _ => length, ?_, fun failed => absurd rfl failed, nofun⟩ (Or.inl fits)
    · exact iff_of_true rfl fits
    · exact iff_of_false nofun (Nat.not_lt_of_le fits)
  · have exceeds := Nat.lt_of_not_le fits
    have whole : bufSize.toNat < ([] : Bytes).length + chunks.flatten.length := by
      rw [List.length_nil, Nat.zero_add]
      exact exceeds
    obtain ⟨failed, filled⟩ := pb_encode_over (Nat.zero_le _) whole
    simp only [List.length_nil, Nat.zero_add] at filled
    have ends : EndsAtWrite chunks bufSize.toNat ↔
        bufSize.toNat ≤ (pbEncode bufSize.toNat [] chunks).2.length := filled.symm
    rw [ends]
    generalize pbEncode bufSize.toNat [] chunks = outcome at failed
    obtain ⟨ok, written⟩ := outcome
    obtain rfl : ok = false := failed
    by_cases full : written.length ≥ bufSize.toNat
    · have result : encodeResult bufSize.toNat (false, written) = (some .enomem, written) :=
        if_pos full
      rw [result]
      refine iff_of_true ⟨?_, nofun, ?_, fun _ => rfl, nofun⟩ (Or.inr full)
      · exact iff_of_false nofun fits
      · exact iff_of_true rfl exceeds
    · have result : encodeResult bufSize.toNat (false, written) = (some .einval, written) :=
        if_neg full
      rw [result]
      exact iff_of_false (fun contract => contract.neverInvalid rfl)
        (fun small => small.elim fits full)

/-! Where the writes of a message end. -/

theorem ends_at_write_nil (size : Nat) : EndsAtWrite [] size ↔ size = 0 := by
  constructor
  · rintro ⟨writes, ends⟩
    rw [List.take_nil] at ends
    exact ends.symm
  · rintro rfl
    exact ⟨0, rfl⟩

theorem ends_at_write_cons (chunk : Bytes) (chunks : List Bytes) (size : Nat) :
    EndsAtWrite (chunk :: chunks) size ↔
      size = 0 ∨ chunk.length ≤ size ∧ EndsAtWrite chunks (size - chunk.length) := by
  constructor
  · rintro ⟨writes, ends⟩
    cases writes with
    | zero => exact Or.inl ends.symm
    | succ writes =>
      rw [List.take_succ_cons, List.flatten_cons, List.length_append] at ends
      exact Or.inr ⟨by omega, writes, by omega⟩
  · rintro (rfl | ⟨inside, writes, ends⟩)
    · exact ⟨0, rfl⟩
    · refine ⟨writes + 1, ?_⟩
      rw [List.take_succ_cons, List.flatten_cons, List.length_append]
      omega

/-! The three messages. -/

section
variable (p : Platform) (nonce : UInt32) (bufSize outLen : UInt16)

def ConfigCompleteContract : Prop :=
  let result := protoEncodeConfigComplete p nonce bufSize.toNat
  EncoderContract (p.fromRadioBytes (.configComplete nonce)).length bufSize result.1 outLen
    (outLenAfter outLen result)

def HeartbeatContract : Prop :=
  let result := protoEncodeHeartbeat p nonce bufSize.toNat
  EncoderContract (p.toRadioBytes (.heartbeat nonce)).length bufSize result.1 outLen
    (outLenAfter outLen result)

def QueueStatusContract : Prop :=
  let result := protoEncodeQueueStatus p bufSize.toNat
  EncoderContract (p.fromRadioBytes .syntheticQueueStatus).length bufSize result.1 outLen
    (outLenAfter outLen result)

end

/-- A tag and a varint: the tag's end is the one place inside. -/
theorem wire_config_complete_iff (nonce : UInt32) (bufSize outLen : UInt16) :
    ConfigCompleteContract .wire nonce bufSize outLen ↔ bufSize.toNat ≤ 1 ∨
      (Platform.wire.fromRadioBytes (.configComplete nonce)).length ≤ bufSize.toNat := by
  have chunks : Platform.wire.fromRadioChunks (.configComplete nonce) =
      [[0x38], Protobuf.varint nonce] := rfl
  have contract := encode_contract_iff (Platform.wire.fromRadioChunks (.configComplete nonce))
    bufSize outLen
  refine Iff.trans contract ?_
  rw [Platform.fromRadioBytes, chunks, ends_at_write_cons, ends_at_write_cons, ends_at_write_nil]
  simp only [List.flatten_cons, List.flatten_nil, List.length_append, List.length_cons,
    List.length_nil]
  omega

/-- A tag, a length and a body: the ends of the tag and of the length lie inside. -/
theorem ends_at_write_field (key : UInt8) (body : Bytes) (size : Nat) :
    (WireFormat.lenField key body).flatten.length ≤ size ∨
        EndsAtWrite (WireFormat.lenField key body) size ↔
      size ≤ 2 ∨ (WireFormat.lenField key body).flatten.length ≤ size := by
  rw [WireFormat.lenField, ends_at_write_cons, ends_at_write_cons, ends_at_write_cons,
    ends_at_write_nil]
  simp only [List.flatten_cons, List.flatten_nil, List.length_append, List.length_cons,
    List.length_nil]
  omega

theorem wire_heartbeat_iff (nonce : UInt32) (bufSize outLen : UInt16) :
    HeartbeatContract .wire nonce bufSize outLen ↔ bufSize.toNat ≤ 2 ∨
      (Platform.wire.toRadioBytes (.heartbeat nonce)).length ≤ bufSize.toNat :=
  (encode_contract_iff (Platform.wire.toRadioChunks (.heartbeat nonce)) bufSize outLen).trans
    (ends_at_write_field ..)

theorem wire_queue_status_iff (bufSize outLen : UInt16) :
    QueueStatusContract .wire bufSize outLen ↔ bufSize.toNat ≤ 2 ∨
      (Platform.wire.fromRadioBytes .syntheticQueueStatus).length ≤ bufSize.toNat :=
  (encode_contract_iff (Platform.wire.fromRadioChunks .syntheticQueueStatus) bufSize outLen).trans
    (ends_at_write_field ..)

/-- Each encoder keeps its contract exactly when the message fits or the buffer ends
between two of its writes; with the writes of the wire format, that is a buffer of
at most one byte for config_complete and at most two for the other messages. -/
theorem encoder_contract_exact (p : Platform) (nonce : UInt32) (bufSize outLen : UInt16) :
    ((ConfigCompleteContract p nonce bufSize outLen ↔
        (p.fromRadioBytes (.configComplete nonce)).length ≤ bufSize.toNat ∨
          EndsAtWrite (p.fromRadioChunks (.configComplete nonce)) bufSize.toNat) ∧
      (HeartbeatContract p nonce bufSize outLen ↔
        (p.toRadioBytes (.heartbeat nonce)).length ≤ bufSize.toNat ∨
          EndsAtWrite (p.toRadioChunks (.heartbeat nonce)) bufSize.toNat) ∧
      (QueueStatusContract p bufSize outLen ↔
        (p.fromRadioBytes .syntheticQueueStatus).length ≤ bufSize.toNat ∨
          EndsAtWrite (p.fromRadioChunks .syntheticQueueStatus) bufSize.toNat)) ∧
    (ConfigCompleteContract .wire nonce bufSize outLen ↔ bufSize.toNat ≤ 1 ∨
        (Platform.wire.fromRadioBytes (.configComplete nonce)).length ≤ bufSize.toNat) ∧
      (HeartbeatContract .wire nonce bufSize outLen ↔ bufSize.toNat ≤ 2 ∨
        (Platform.wire.toRadioBytes (.heartbeat nonce)).length ≤ bufSize.toNat) ∧
      (QueueStatusContract .wire bufSize outLen ↔ bufSize.toNat ≤ 2 ∨
        (Platform.wire.fromRadioBytes .syntheticQueueStatus).length ≤ bufSize.toNat) := by
  constructor
  · exact ⟨encode_contract_iff (p.fromRadioChunks (.configComplete nonce)) bufSize outLen,
      encode_contract_iff (p.toRadioChunks (.heartbeat nonce)) bufSize outLen,
      encode_contract_iff (p.fromRadioChunks .syntheticQueueStatus) bufSize outLen⟩
  · exact ⟨wire_config_complete_iff nonce bufSize outLen, wire_heartbeat_iff nonce bufSize outLen,
      wire_queue_status_iff bufSize outLen⟩

/-- Three bytes are needed for nonce 128, two are given, and the code returned is
that of a structural failure. -/
theorem config_complete_small_invalid :
    (Platform.wire.fromRadioBytes (.configComplete 128)).length = 3 ∧
      (protoEncodeConfigComplete .wire 128 2).1 = some .einval ∧
        ¬ ConfigCompleteContract .wire 128 2 0 := by
  have invalid : (protoEncodeConfigComplete .wire 128 2).1 = some .einval := by decide
  exact ⟨by decide, invalid, fun contract => contract.neverInvalid invalid⟩

end MeshPbx
