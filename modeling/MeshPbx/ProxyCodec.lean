import MeshPbx.ProxyProtocol

/-! The wire form of a proxied message. The parser accepts exactly the strings of
this form; the builder writes it and, unlike the parser, caps the content. -/
namespace MeshPbx

/-- `[version][src][dst][content]` as it stands in a payload. -/
def proxyPayload (hdr : ProxyHeader) : Bytes :=
  PROXY_VERSION :: (hdr.src.toList ++ (hdr.dst.toList ++ hdr.content))

variable {payload content : Bytes} {hdr : ProxyHeader} {src dst : ProxyId}
  {contentLen dstBufSize : UInt16}

theorem length_proxy_payload (hdr : ProxyHeader) :
    (proxyPayload hdr).length = PROXY_HEADER_SIZE + hdr.content.length := by
  simp only [proxyPayload, List.length_cons, List.length_append, Vector.length_toList,
    PROXY_HEADER_SIZE, PROXY_ID_SIZE]
  omega

/-! The parser. -/

theorem ProxyId.list_of_bytes {offset : Nat} (inside : offset + PROXY_ID_SIZE ≤ payload.length) :
    (ProxyId.ofBytes payload offset).toList = (payload.drop offset).take PROXY_ID_SIZE := by
  apply List.ext_getElem
  · simp only [Vector.length_toList, List.length_take, List.length_drop]
    simp only [PROXY_ID_SIZE] at inside ⊢
    omega
  · intro i below _
    have read : offset + i < payload.length := by
      rw [Vector.length_toList] at below
      simp only [PROXY_ID_SIZE] at inside
      omega
    simp [ProxyId.ofBytes, read]

/-- An identifier is what is read where its bytes were put. -/
theorem ProxyId.of_bytes_eq {offset : Nat} {id : ProxyId} {rest : Bytes}
    (placed : payload.drop offset = id.toList ++ rest) (inside : offset ≤ payload.length) :
    ProxyId.ofBytes payload offset = id := by
  have length : (payload.drop offset).length = PROXY_ID_SIZE + rest.length := by
    rw [placed, List.length_append, Vector.length_toList]
    rfl
  rw [List.length_drop] at length
  apply Vector.toList_inj.mp
  rw [ProxyId.list_of_bytes (by omega), placed]
  exact List.take_left' (Vector.length_toList ..)

theorem parse_proxy_payload (hdr : ProxyHeader) : proxyHeaderParse (proxyPayload hdr) = some hdr := by
  have long : ¬ (proxyPayload hdr).length < PROXY_HEADER_SIZE := by
    rw [length_proxy_payload]
    omega
  have version : (proxyPayload hdr)[PROXY_OFF_VERSION]? = some PROXY_VERSION := rfl
  have behindSrc : (proxyPayload hdr).drop PROXY_OFF_DST = hdr.dst.toList ++ hdr.content :=
    List.drop_left' (Vector.length_toList ..)
  have behindDst : (proxyPayload hdr).drop PROXY_OFF_CONTENT = hdr.content := by
    have split : PROXY_OFF_CONTENT = PROXY_OFF_DST + PROXY_ID_SIZE := rfl
    rw [split, ← List.drop_drop, behindSrc]
    exact List.drop_left' (Vector.length_toList ..)
  have bounds := length_proxy_payload hdr
  have srcRead : ProxyId.ofBytes (proxyPayload hdr) PROXY_OFF_SRC = hdr.src :=
    ProxyId.of_bytes_eq rfl (by rw [bounds]; exact Nat.le_add_right_of_le (by decide))
  have dstRead : ProxyId.ofBytes (proxyPayload hdr) PROXY_OFF_DST = hdr.dst :=
    ProxyId.of_bytes_eq behindSrc (by rw [bounds]; exact Nat.le_add_right_of_le (by decide))
  rw [proxyHeaderParse, if_neg long, if_neg (not_not.mpr version), srcRead, dstRead, behindDst]

/-- What the parser accepts, the wire form gives back. -/
theorem proxy_payload_of_parse (parsed : proxyHeaderParse payload = some hdr) :
    payload = proxyPayload hdr := by
  rw [proxyHeaderParse] at parsed
  split_ifs at parsed with short version
  have srcInside : PROXY_OFF_SRC + PROXY_ID_SIZE ≤ payload.length :=
    le_trans (by decide) (Nat.le_of_not_lt short)
  have dstInside : PROXY_OFF_DST + PROXY_ID_SIZE ≤ payload.length :=
    le_trans (by decide) (Nat.le_of_not_lt short)
  have first : payload = PROXY_VERSION :: payload.drop PROXY_OFF_SRC := by
    rw [not_not] at version
    cases payload with
    | nil => exact absurd version nofun
    | cons byte rest => exact congrArg (· :: rest) (Option.some.inj version)
  obtain rfl := Option.some.inj parsed
  have behind (offset : Nat) : payload.drop offset =
      (payload.drop offset).take PROXY_ID_SIZE ++ payload.drop (offset + PROXY_ID_SIZE) := by
    rw [← List.drop_drop, List.take_append_drop]
  rw [proxyPayload, ProxyId.list_of_bytes srcInside, ProxyId.list_of_bytes dstInside]
  calc payload = PROXY_VERSION :: payload.drop PROXY_OFF_SRC := first
    _ = PROXY_VERSION :: ((payload.drop PROXY_OFF_SRC).take PROXY_ID_SIZE ++
          payload.drop PROXY_OFF_DST) := congrArg _ (behind PROXY_OFF_SRC)
    _ = _ := congrArg (fun rest => PROXY_VERSION :: (_ ++ rest)) (behind PROXY_OFF_DST)

theorem proxy_parse_iff : proxyHeaderParse payload = some hdr ↔ payload = proxyPayload hdr :=
  ⟨proxy_payload_of_parse, fun same => same ▸ parse_proxy_payload hdr⟩

/-- Acceptance looks at the length and the version byte only. -/
theorem proxy_parse_accepts_iff (payload : Bytes) : (proxyHeaderParse payload).isSome ↔
    PROXY_HEADER_SIZE ≤ payload.length ∧ payload[PROXY_OFF_VERSION]? = some PROXY_VERSION := by
  rw [proxyHeaderParse]
  split_ifs with short version
  · simp only [Option.isSome_none, Bool.false_eq_true, false_iff]
    exact fun accepted => Nat.not_le_of_lt short accepted.1
  · simp only [Option.isSome_none, Bool.false_eq_true, false_iff]
    exact fun accepted => version accepted.2
  · simp only [Option.isSome_some, true_iff]
    exact ⟨Nat.le_of_not_lt short, not_not.mp version⟩

/-! The builder. -/

/-- Under the cap the 16-bit total does not wrap. -/
theorem header_total (short : contentLen.toNat ≤ PROXY_CONTENT_MAX) :
    (UInt16.ofNat (PROXY_HEADER_SIZE + contentLen.toNat)).toNat =
      PROXY_HEADER_SIZE + contentLen.toNat := by
  rw [UInt16.toNat_ofNat']
  simp only [PROXY_CONTENT_MAX, PROXY_PRACTICAL_MAX, PROXY_HEADER_SIZE, PROXY_ID_SIZE] at short ⊢
  omega

/-- The builder refuses what is over the cap and what the buffer cannot hold. -/
def ProxyHeaderRefused (contentLen dstBufSize : UInt16) : Prop :=
  PROXY_CONTENT_MAX < contentLen.toNat ∨
    dstBufSize.toNat < PROXY_HEADER_SIZE + contentLen.toNat

theorem header_build_refused (refused : ProxyHeaderRefused contentLen dstBufSize)
    (src dst : ProxyId) (content : Option Bytes) (dstBuf : ByteBuffer) :
    proxyHeaderBuild src dst content contentLen dstBuf dstBufSize = (0, dstBuf) := by
  rw [proxyHeaderBuild]
  by_cases long : contentLen.toNat > PROXY_CONTENT_MAX
  · rw [if_pos long]
  · have total := header_total (Nat.le_of_not_lt long)
    have small : UInt16.ofNat (PROXY_HEADER_SIZE + contentLen.toNat) > dstBufSize := by
      rw [gt_iff_lt, UInt16.lt_iff_toNat_lt, total]
      exact refused.resolve_left long
    rw [if_neg long]
    exact if_pos small

/-- The builder's three fixed writes, one behind the other. -/
theorem header_fields_read (dstBuf : ByteBuffer) (src dst : ProxyId) :
    (((dstBuf.write PROXY_OFF_VERSION [PROXY_VERSION]).write PROXY_OFF_SRC src.toList).write
      PROXY_OFF_DST dst.toList).read 0 PROXY_HEADER_SIZE =
        PROXY_VERSION :: (src.toList ++ dst.toList) := by
  have srcEnd : PROXY_OFF_DST = PROXY_OFF_SRC + src.toList.length := by
    rw [Vector.length_toList]
    rfl
  have dstEnd : PROXY_HEADER_SIZE = PROXY_OFF_DST + dst.toList.length := by
    rw [Vector.length_toList]
    rfl
  have version := ByteBuffer.read_write_next dstBuf PROXY_OFF_VERSION [PROXY_VERSION]
  rw [dstEnd, ByteBuffer.read_write_next, srcEnd, ByteBuffer.read_write_next]
  have first : (dstBuf.write PROXY_OFF_VERSION [PROXY_VERSION]).read 0 PROXY_OFF_SRC =
      [PROXY_VERSION] := version
  rw [first, List.append_assoc, List.singleton_append]

theorem header_fields_outside (dstBuf : ByteBuffer) (src dst : ProxyId) {i : Nat}
    (outside : PROXY_HEADER_SIZE ≤ i) :
    (((dstBuf.write PROXY_OFF_VERSION [PROXY_VERSION]).write PROXY_OFF_SRC src.toList).write
      PROXY_OFF_DST dst.toList) i = dstBuf i := by
  have bound : 9 ≤ i := outside
  rw [ByteBuffer.write_behind, ByteBuffer.write_behind, ByteBuffer.write_behind] <;>
    simp only [List.length_singleton, Vector.length_toList, PROXY_OFF_DST, PROXY_OFF_SRC,
      PROXY_ID_SIZE, PROXY_OFF_VERSION] <;> omega

theorem header_build_fits (taken : ¬ ProxyHeaderRefused contentLen dstBufSize) :
    ¬ UInt16.ofNat (PROXY_HEADER_SIZE + contentLen.toNat) > dstBufSize := by
  obtain ⟨short, room⟩ := not_or.mp taken
  rw [gt_iff_lt, UInt16.lt_iff_toNat_lt, header_total (Nat.le_of_not_lt short)]
  exact room

/-- What the builder takes, it reports at its full length. -/
theorem header_build_length (taken : ¬ ProxyHeaderRefused contentLen dstBufSize)
    (src dst : ProxyId) (content : Option Bytes) (dstBuf : ByteBuffer) :
    (proxyHeaderBuild src dst content contentLen dstBuf dstBufSize).1.toNat =
      PROXY_HEADER_SIZE + contentLen.toNat := by
  obtain ⟨short, _⟩ := not_or.mp taken
  have fits := header_build_fits taken
  have total := header_total (Nat.le_of_not_lt short)
  rw [proxyHeaderBuild, if_neg short]
  dsimp only
  rw [if_neg fits]
  cases content with
  | none => exact total
  | some content =>
    dsimp only
    split_ifs <;> exact total

theorem header_build_zero_iff (src dst : ProxyId) (content : Option Bytes) (dstBuf : ByteBuffer) :
    (proxyHeaderBuild src dst content contentLen dstBuf dstBufSize).1 = 0 ↔
      ProxyHeaderRefused contentLen dstBufSize := by
  constructor
  · intro zero
    by_contra taken
    have length := header_build_length taken src dst content dstBuf
    rw [zero, UInt16.toNat_zero, PROXY_HEADER_SIZE] at length
    omega
  · intro refused
    rw [header_build_refused refused]

/-- What the builder takes, it writes in the wire form at the start of the buffer
and nothing behind. -/
theorem header_build_writes (taken : ¬ ProxyHeaderRefused contentLen dstBufSize)
    (length : content.length = contentLen.toNat) (src dst : ProxyId) (dstBuf : ByteBuffer) :
    (proxyHeaderBuild src dst (some content) contentLen dstBuf dstBufSize).2.read 0
        (PROXY_HEADER_SIZE + content.length) = proxyPayload ⟨src, dst, content⟩ ∧
      ∀ i, PROXY_HEADER_SIZE + content.length ≤ i →
        (proxyHeaderBuild src dst (some content) contentLen dstBuf dstBufSize).2 i = dstBuf i := by
  obtain ⟨short, _⟩ := not_or.mp taken
  have fits := header_build_fits taken
  have fields := header_fields_read dstBuf src dst
  rw [proxyHeaderBuild, if_neg short]
  dsimp only
  rw [if_neg fits]
  by_cases filled : contentLen > 0
  · have whole : content.take contentLen.toNat = content :=
      List.take_of_length_le (Nat.le_of_eq length)
    rw [if_pos filled, whole]
    dsimp only
    rw [PROXY_OFF_CONTENT]
    refine ⟨?_, fun i outside => ?_⟩
    · rw [ByteBuffer.read_write_next, fields]
      exact List.append_assoc (PROXY_VERSION :: src.toList) dst.toList content
    · rw [ByteBuffer.write_behind _ _ _ _ outside]
      exact header_fields_outside dstBuf src dst (Nat.le_of_add_right_le outside)
  · have zero : contentLen.toNat = 0 := by
      simpa only [gt_iff_lt, UInt16.lt_iff_toNat_lt, UInt16.toNat_zero, Nat.not_lt,
        Nat.le_zero] using filled
    have none : content = [] := List.eq_nil_of_length_eq_zero (length.trans zero)
    rw [if_neg filled, none]
    refine ⟨?_, fun i outside => header_fields_outside dstBuf src dst outside⟩
    rw [List.length_nil, Nat.add_zero, proxyPayload, List.append_nil]
    exact fields

/-! The codec. -/

/-- A length the builder is given as 16 bits, for contents under the cap. -/
theorem content_length_word (short : content.length ≤ PROXY_CONTENT_MAX) :
    (UInt16.ofNat content.length).toNat = content.length := by
  rw [UInt16.toNat_ofNat']
  simp only [PROXY_CONTENT_MAX, PROXY_PRACTICAL_MAX, PROXY_HEADER_SIZE, PROXY_ID_SIZE] at short
  omega

theorem content_not_refused (short : content.length ≤ PROXY_CONTENT_MAX)
    (room : PROXY_HEADER_SIZE + content.length ≤ dstBufSize.toNat) :
    ¬ ProxyHeaderRefused (UInt16.ofNat content.length) dstBufSize := by
  rw [ProxyHeaderRefused, content_length_word short]
  omega

/-- The header codec, both ways: what is built parses to the same fields, the
builder refuses exactly the contents over the cap and the buffers too small, the
parser accepts by length and version alone, and what it accepts of a practical
length is rebuilt from its fields. -/
theorem proxy_header_codec :
    (∀ (src dst : ProxyId) (content : Bytes) (dstBuf : ByteBuffer) (dstBufSize : UInt16),
      content.length ≤ PROXY_CONTENT_MAX →
      PROXY_HEADER_SIZE + content.length ≤ dstBufSize.toNat →
      let result := proxyHeaderBuild src dst (some content) (UInt16.ofNat content.length)
        dstBuf dstBufSize
      result.1.toNat = PROXY_HEADER_SIZE + content.length ∧
        (∀ i, result.1.toNat ≤ i → result.2 i = dstBuf i) ∧
          proxyHeaderParse (result.2.read 0 result.1.toNat) = some ⟨src, dst, content⟩) ∧
    (∀ (src dst : ProxyId) (content : Option Bytes) (contentLen : UInt16) (dstBuf : ByteBuffer)
      (dstBufSize : UInt16),
      let result := proxyHeaderBuild src dst content contentLen dstBuf dstBufSize
      let refused := PROXY_CONTENT_MAX < contentLen.toNat ∨
        dstBufSize.toNat < PROXY_HEADER_SIZE + contentLen.toNat
      (result.1 = 0 ↔ refused) ∧ (refused → result.2 = dstBuf)) ∧
    (∀ payload : Bytes, (proxyHeaderParse payload).isSome ↔
      PROXY_HEADER_SIZE ≤ payload.length ∧ payload[PROXY_OFF_VERSION]? = some PROXY_VERSION) ∧
    (∀ (payload : Bytes) (hdr : ProxyHeader) (dstBuf : ByteBuffer) (dstBufSize : UInt16),
      proxyHeaderParse payload = some hdr → payload.length ≤ PROXY_PRACTICAL_MAX →
      payload.length ≤ dstBufSize.toNat →
      let result := proxyHeaderBuild hdr.src hdr.dst (some hdr.content)
        (UInt16.ofNat hdr.content.length) dstBuf dstBufSize
      result.2.read 0 result.1.toNat = payload) := by
  refine ⟨?_, ?_, proxy_parse_accepts_iff, ?_⟩
  · intro src dst content dstBuf dstBufSize short room
    have word := content_length_word short
    have taken := content_not_refused short room
    have length := header_build_length taken src dst (some content) dstBuf
    obtain ⟨frame, behind⟩ := header_build_writes taken word.symm src dst dstBuf
    rw [word] at length
    refine ⟨length, ?_, ?_⟩
    · rw [length]
      exact behind
    · rw [length, frame]
      exact parse_proxy_payload _
  · intro src dst content contentLen dstBuf dstBufSize
    refine ⟨header_build_zero_iff src dst content dstBuf, fun refused => ?_⟩
    rw [header_build_refused refused]
  · intro payload hdr dstBuf dstBufSize parsed short room
    have framed := proxy_payload_of_parse parsed
    have total : payload.length = PROXY_HEADER_SIZE + hdr.content.length := by
      rw [framed, length_proxy_payload]
    have capped : hdr.content.length ≤ PROXY_CONTENT_MAX := by
      rw [total] at short
      exact Nat.le_sub_of_add_le' short
    have word := content_length_word capped
    have taken := content_not_refused capped (total ▸ room)
    have length := header_build_length taken hdr.src hdr.dst (some hdr.content) dstBuf
    have frame := (header_build_writes taken word.symm hdr.src hdr.dst dstBuf).1
    rw [word] at length
    dsimp only
    rw [length, frame, framed]

/-- Two bytes from the phone 942756818, in a buffer of 64. -/
theorem proxy_header_codec_two_bytes :
    proxyHeaderParse ((proxyHeaderBuild #v[56, 49, 83, 210] #v[0, 0, 0, 1] (some [104, 105])
      (UInt16.ofNat 2) .zero 64).2.read 0 11) =
        some ⟨#v[56, 49, 83, 210], #v[0, 0, 0, 1], [104, 105]⟩ := by
  have built := proxy_header_codec.1 #v[56, 49, 83, 210] #v[0, 0, 0, 1] [104, 105] .zero 64
    (by decide) (by decide)
  have parsed := built.2.2
  rw [built.1] at parsed
  exact parsed

end MeshPbx
