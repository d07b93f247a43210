import MeshPbx.ProxyCodec
import Mathlib.Data.List.TakeDrop

/-! The header as one line of text. The two identifiers pass through arrays of
PROXY_ID_SIZE bytes on the way, and a numeral is longer than that from four digits
on; the line then shows the first three. -/
namespace MeshPbx

open CText

/-- The number the four bytes stand for, most significant first. -/
def ProxyId.bigEndian (id : ProxyId) : Nat :=
  (id.get 0).toNat * 2 ^ 24 + (id.get 1).toNat * 2 ^ 16 + (id.get 2).toNat * 2 ^ 8 +
    (id.get 3).toNat

/-- `[v01][src=S][dst=D][content=N B]` for the given S and D. -/
def proxyHeaderLine (src dst : Bytes) (contentLen : Nat) : Bytes :=
  ascii "[v01][src=" ++ (src ++ (ascii "][dst=" ++ (dst ++ (ascii "][content=" ++
    (decimal contentLen ++ ascii " B]")))))

/-- The line with both identifiers in full. -/
def proxyHeaderText (hdr : ProxyHeader) : Bytes :=
  proxyHeaderLine (decimal hdr.src.bigEndian) (decimal hdr.dst.bigEndian) hdr.content.length

/-- What the identifier's array has room for. -/
def proxyIdShown (id : ProxyId) : Bytes := (decimal id.bigEndian).take (PROXY_ID_SIZE - 1)

/-- The line that is written. -/
def proxyHeaderShown (hdr : ProxyHeader) : Bytes :=
  proxyHeaderLine (proxyIdShown hdr.src) (proxyIdShown hdr.dst) hdr.content.length

variable {hdr : ProxyHeader} {id : ProxyId} {size : Nat}

/-! The identifiers. -/

/-- A byte shifted above a number adds to it. -/
theorem or_shifted_byte {low places : Nat} (byte : UInt8) (below : low < 2 ^ places) :
    low ||| byte.toNat <<< places = low + byte.toNat * 2 ^ places := by
  rw [Nat.or_comm, ← Nat.shiftLeft_add_eq_or_of_lt below, Nat.shiftLeft_eq, Nat.add_comm]

theorem shifted_byte {places : UInt32} (byte : UInt8) (small : places.toNat ≤ 24) :
    (byte.toUInt32 <<< places).toNat = byte.toNat <<< places.toNat := by
  have bound : byte.toNat * 2 ^ places.toNat < 2 ^ 32 :=
    calc byte.toNat * 2 ^ places.toNat
        < 2 ^ 8 * 2 ^ places.toNat :=
          Nat.mul_lt_mul_of_pos_right byte.toNat_lt (Nat.two_pow_pos _)
      _ ≤ 2 ^ 8 * 2 ^ 24 := Nat.mul_le_mul_left _ (Nat.pow_le_pow_right (by decide) small)
  rw [UInt32.toNat_shiftLeft, UInt8.toNat_toUInt32, Nat.mod_eq_of_lt (by omega : _ < 32),
    Nat.shiftLeft_eq, Nat.mod_eq_of_lt bound]

theorem proxy_id_value_eq (id : ProxyId) : (proxyIdValue id).toNat = id.bigEndian := by
  have b1 := id[1].toNat_lt
  have b2 := id[2].toNat_lt
  have b3 := id[3].toNat_lt
  have second : (id[2].toUInt32 <<< 8).toNat = id[2].toNat <<< 8 := shifted_byte _ (by decide)
  have third : (id[1].toUInt32 <<< 16).toNat = id[1].toNat <<< 16 := shifted_byte _ (by decide)
  have fourth : (id[0].toUInt32 <<< 24).toNat = id[0].toNat <<< 24 := shifted_byte _ (by decide)
  have low : id[3].toNat ||| id[2].toNat <<< 8 = id[3].toNat + id[2].toNat * 2 ^ 8 :=
    or_shifted_byte _ b3
  have middle : id[3].toNat + id[2].toNat * 2 ^ 8 ||| id[1].toNat <<< 16 =
      id[3].toNat + id[2].toNat * 2 ^ 8 + id[1].toNat * 2 ^ 16 := or_shifted_byte _ (by omega)
  have value : id.bigEndian =
      id[0].toNat * 2 ^ 24 + id[1].toNat * 2 ^ 16 + id[2].toNat * 2 ^ 8 + id[3].toNat := rfl
  rw [proxyIdValue, UInt32.toNat_or, UInt32.toNat_or, UInt32.toNat_or, UInt8.toNat_toUInt32,
    second, third, fourth, low, middle, or_shifted_byte _ (by omega), value]
  omega

theorem not_mem_shown {byte : UInt8} (other : isDigit byte = false) (id : ProxyId) :
    byte ∉ proxyIdShown id :=
  fun member => not_mem_decimal other _ (List.mem_of_mem_take member)

theorem id_rendered (id : ProxyId) (out : ByteBuffer) :
    cString (proxyIdToStr (some id) out PROXY_ID_SIZE) PROXY_ID_SIZE = proxyIdShown id := by
  have written : proxyIdToStr (some id) out PROXY_ID_SIZE =
      (snprintf out 0 PROXY_ID_SIZE (decimal (proxyIdValue id).toNat)).1 := rfl
  rw [written, c_string_snprintf (not_mem_decimal rfl _) (by decide), proxy_id_value_eq]
  rfl

/-- An identifier is shown in full exactly below 1000. -/
theorem id_shown_iff (id : ProxyId) : proxyIdShown id = decimal id.bigEndian ↔ id.bigEndian < 1000 := by
  have width : (decimal id.bigEndian).length ≤ PROXY_ID_SIZE - 1 ↔ id.bigEndian < 10 ^ 3 :=
    length_decimal_le_iff (by decide)
  rw [proxyIdShown, List.take_eq_self_iff]
  exact width

/-- Of a longer numeral three digits are shown and a fourth is not. -/
theorem id_shown_cut (wide : 1000 ≤ id.bigEndian) : ∃ digit rest,
    decimal id.bigEndian = proxyIdShown id ++ digit :: rest ∧ isDigit digit ∧
      (proxyIdShown id).length = 3 := by
  have long : 3 < (decimal id.bigEndian).length := by
    by_contra short
    have small : id.bigEndian < 10 ^ 3 :=
      (length_decimal_le_iff (by decide)).mp (Nat.le_of_not_lt short)
    omega
  have joined := List.take_append_drop 3 (decimal id.bigEndian)
  cases behind : (decimal id.bigEndian).drop 3 with
  | nil => exact absurd (List.drop_eq_nil_iff.mp behind) (Nat.not_le_of_lt long)
  | cons digit rest =>
    have member : digit ∈ decimal id.bigEndian :=
      List.mem_of_mem_drop (behind ▸ List.mem_cons_self)
    rw [behind] at joined
    exact ⟨digit, rest, joined.symm, is_digit_decimal member,
      List.length_take_of_le (Nat.le_of_lt long)⟩

/-- A cut numeral agrees with the full one up to its third digit. -/
theorem cut_take_iff (wide : 1000 ≤ id.bigEndian) (before after after' : Bytes) (len : Nat) :
    (before ++ (proxyIdShown id ++ 93 :: after)).take len =
        (before ++ (decimal id.bigEndian ++ after')).take len ↔ len ≤ before.length + 3 := by
  obtain ⟨digit, rest, split, isDigit, shown⟩ := id_shown_cut wide
  have part : 93 ≠ digit := by
    rintro rfl
    exact absurd isDigit (by decide)
  have cut : before ++ (proxyIdShown id ++ 93 :: after) =
      (before ++ proxyIdShown id) ++ 93 :: after := (List.append_assoc ..).symm
  have full : before ++ (decimal id.bigEndian ++ after') =
      (before ++ proxyIdShown id) ++ digit :: (rest ++ after') := by
    rw [split]
    simp only [List.append_assoc, List.cons_append]
  rw [cut, full, take_eq_iff_of_parting part, List.length_append, shown]

/-! The line. -/

/-- The separators, each with the bracket that ends the numeral before it. -/
theorem header_line_eq (src dst : Bytes) (contentLen : Nat) :
    proxyHeaderLine src dst contentLen =
      ascii "[v01][src=" ++ (src ++ 93 :: (ascii "[dst=" ++ (dst ++ 93 :: (ascii "[content=" ++
        (decimal contentLen ++ 32 :: ascii "B]"))))) := by
  have srcEnd : ascii "][dst=" = 93 :: ascii "[dst=" := by decide
  have dstEnd : ascii "][content=" = 93 :: ascii "[content=" := by decide
  have countEnd : ascii " B]" = 32 :: ascii "B]" := by decide
  rw [proxyHeaderLine, srcEnd, dstEnd, countEnd]
  rfl

theorem header_line_printable {src dst : Bytes} (srcPrintable : 0 ∉ src) (dstPrintable : 0 ∉ dst)
    (contentLen : Nat) : 0 ∉ proxyHeaderLine src dst contentLen := by
  have opening : 0 ∉ ascii "[v01][src=" := by decide
  have srcEnd : 0 ∉ ascii "][dst=" := by decide
  have dstEnd : 0 ∉ ascii "][content=" := by decide
  have count : 0 ∉ decimal contentLen := not_mem_decimal rfl contentLen
  have countEnd : 0 ∉ ascii " B]" := by decide
  simp only [proxyHeaderLine, List.mem_append, opening, srcPrintable, srcEnd, dstPrintable, dstEnd,
    count, countEnd, or_self, not_false_eq_true]

theorem shown_printable (hdr : ProxyHeader) : 0 ∉ proxyHeaderShown hdr :=
  header_line_printable (not_mem_shown rfl _) (not_mem_shown rfl _) _

theorem text_printable (hdr : ProxyHeader) : 0 ∉ proxyHeaderText hdr :=
  header_line_printable (not_mem_decimal rfl _) (not_mem_decimal rfl _) _

/-- A line of two numerals and a count tells all three. -/
theorem header_line_inj {src dst src' dst' : Bytes} {contentLen contentLen' : Nat}
    (srcDigits : ∀ byte ∈ src, isDigit byte) (dstDigits : ∀ byte ∈ dst, isDigit byte)
    (srcDigits' : ∀ byte ∈ src', isDigit byte) (dstDigits' : ∀ byte ∈ dst', isDigit byte) :
    proxyHeaderLine src dst contentLen = proxyHeaderLine src' dst' contentLen' ↔
      src = src' ∧ dst = dst' ∧ contentLen = contentLen' := by
  constructor
  · intro same
    rw [header_line_eq, header_line_eq] at same
    obtain ⟨sameSrc, same⟩ := digits_split srcDigits srcDigits' rfl (List.append_cancel_left same)
    obtain ⟨sameDst, same⟩ := digits_split dstDigits dstDigits' rfl (List.append_cancel_left same)
    have counts := digits_split (fun _ => is_digit_decimal) (fun _ => is_digit_decimal) rfl
      (List.append_cancel_left same)
    exact ⟨sameSrc, sameDst, decimal_injective counts.1⟩
  · rintro ⟨rfl, rfl, rfl⟩
    rfl

/-- What is written, for every size that is not 0. -/
theorem header_rendered (hdr : ProxyHeader) (src dst out : ByteBuffer) (room : 0 < size) :
    proxyHeaderToStr (some hdr) src dst out size =
      (snprintf out 0 size (proxyHeaderShown hdr)).1 := by
  have opening : ascii "[v" ++ hex02 PROXY_VERSION.toNat ++ ascii "][src=" =
      ascii "[v01][src=" := by decide
  rw [proxyHeaderToStr, if_neg (Nat.ne_of_gt room)]
  dsimp only
  rw [id_rendered, id_rendered, opening, proxyHeaderShown, proxyHeaderLine]
  simp only [List.append_assoc]

/-- How many bytes of the line are those of the full text. -/
theorem shown_take_iff (hdr : ProxyHeader) (len : Nat) :
    (proxyHeaderShown hdr).take len = (proxyHeaderText hdr).take len ↔
      len ≤ 13 ∨ hdr.src.bigEndian < 1000 ∧
        (len ≤ 19 + (decimal hdr.src.bigEndian).length ∨ hdr.dst.bigEndian < 1000) := by
  have opening : (ascii "[v01][src=").length = 10 := by decide
  rw [proxyHeaderShown, proxyHeaderText, header_line_eq, header_line_eq]
  by_cases srcWide : 1000 ≤ hdr.src.bigEndian
  · have narrow : ¬ hdr.src.bigEndian < 1000 := Nat.not_lt_of_le srcWide
    rw [cut_take_iff srcWide, opening]
    simp only [narrow, false_and, or_false]
  · have srcNarrow := Nat.lt_of_not_le srcWide
    rw [(id_shown_iff hdr.src).mpr srcNarrow]
    by_cases dstWide : 1000 ≤ hdr.dst.bigEndian
    · have narrow : ¬ hdr.dst.bigEndian < 1000 := Nat.not_lt_of_le dstWide
      have prefixed (rest : Bytes) :
          ascii "[v01][src=" ++ (decimal hdr.src.bigEndian ++ 93 :: (ascii "[dst=" ++ rest)) =
            (ascii "[v01][src=" ++ (decimal hdr.src.bigEndian ++ 93 :: ascii "[dst=")) ++ rest := by
        simp only [List.append_assoc, List.cons_append]
      have between : (ascii "[dst=").length = 5 := by decide
      rw [prefixed, prefixed, cut_take_iff dstWide]
      simp only [List.length_append, List.length_cons, opening, between, narrow, or_false,
        srcNarrow, true_and]
      omega
    · have dstNarrow := Nat.lt_of_not_le dstWide
      rw [(id_shown_iff hdr.dst).mpr dstNarrow]
      simp only [srcNarrow, dstNarrow, or_true, and_self]

/-! What the rendering promises, and when it keeps it. -/

/-- As much of the full text as leaves room for the null byte is what the buffer
holds afterwards, whatever it and the local arrays held before. -/
def HeaderRendered (hdr : ProxyHeader) (size : Nat) : Prop :=
  ∀ src dst out, proxyHeaderToStr (some hdr) src dst out size =
    out.write 0 ((proxyHeaderText hdr).take (size - 1) ++ [0])

/-- Each identifier is below 1000, or the buffer ends at its third digit. -/
def HeaderFits (hdr : ProxyHeader) (size : Nat) : Prop :=
  size ≤ 14 ∨ hdr.src.bigEndian < 1000 ∧
    (size ≤ 20 + (decimal hdr.src.bigEndian).length ∨ hdr.dst.bigEndian < 1000)

instance (hdr : ProxyHeader) (size : Nat) : Decidable (HeaderFits hdr size) :=
  inferInstanceAs (Decidable (_ ∨ _ ∧ (_ ∨ _)))

theorem header_rendered_iff (room : 0 < size) : HeaderRendered hdr size ↔ HeaderFits hdr size := by
  have written (out : ByteBuffer) (text : Bytes) :
      (snprintf out 0 size text).1 = out.write 0 (text.take (size - 1) ++ [0]) :=
    if_neg (Nat.ne_of_gt room)
  have same : HeaderRendered hdr size ↔
      (proxyHeaderShown hdr).take (size - 1) = (proxyHeaderText hdr).take (size - 1) := by
    constructor
    · intro rendered
      have buffers := rendered .zero .zero .zero
      rw [header_rendered hdr _ _ _ room, ← written] at buffers
      have texts := congrArg (fun buffer => cString buffer size) buffers
      simp only [c_string_snprintf (shown_printable hdr) room,
        c_string_snprintf (text_printable hdr) room] at texts
      exact texts
    · intro texts src dst out
      rw [header_rendered hdr src dst out room, written, texts]
  rw [same, shown_take_iff, HeaderFits]
  omega

/-- In every size exactly when both identifiers are below 1000. -/
theorem header_rendered_all_iff : (∀ size, 0 < size → HeaderRendered hdr size) ↔
    hdr.src.bigEndian < 1000 ∧ hdr.dst.bigEndian < 1000 := by
  constructor
  · intro rendered
    have wide := (header_rendered_iff (by omega)).mp
      (rendered (21 + (decimal hdr.src.bigEndian).length) (by omega))
    rw [HeaderFits] at wide
    omega
  · intro narrow size room
    exact (header_rendered_iff room).mpr (Or.inr ⟨narrow.1, Or.inr narrow.2⟩)

/-- The string a buffer of `size` bytes holds after a header is rendered into it. -/
def renderedHeader (hdr : ProxyHeader) (src dst out : ByteBuffer) (size : Nat) : Bytes :=
  cString (proxyHeaderToStr (some hdr) src dst out size) size

theorem ProxyId.big_endian_inj {left right : ProxyId} (same : left.bigEndian = right.bigEndian) :
    left = right := by
  have below (id : ProxyId) (k : Fin 4) : (id.get k).toNat < 256 := (id.get k).toNat_lt
  have b1 := below left 1
  have b2 := below left 2
  have b3 := below left 3
  have c1 := below right 1
  have c2 := below right 2
  have c3 := below right 3
  rw [bigEndian, bigEndian] at same
  have bytes (k : Fin 4) : left.get k = right.get k := by
    apply UInt8.toNat_inj.mp
    match k with
    | 0 => omega
    | 1 => omega
    | 2 => omega
    | 3 => omega
  exact Vector.ext fun i inside => bytes ⟨i, inside⟩

theorem shown_length_le (hdr : ProxyHeader) :
    (proxyHeaderShown hdr).length ≤ (proxyHeaderText hdr).length := by
  have src : (proxyIdShown hdr.src).length ≤ (decimal hdr.src.bigEndian).length :=
    List.length_take_le' ..
  have dst : (proxyIdShown hdr.dst).length ≤ (decimal hdr.dst.bigEndian).length :=
    List.length_take_le' ..
  simp only [proxyHeaderShown, proxyHeaderText, proxyHeaderLine, List.length_append]
  omega

theorem header_rendered_string (room : (proxyHeaderText hdr).length < size)
    (src dst out : ByteBuffer) : renderedHeader hdr src dst out size = proxyHeaderShown hdr := by
  have some_room : 0 < size := Nat.zero_lt_of_lt room
  have short := shown_length_le hdr
  rw [renderedHeader, header_rendered hdr src dst out some_room,
    c_string_snprintf (shown_printable hdr) some_room]
  exact List.take_of_length_le (by omega)

/-- Rendered in full, two headers read the same exactly when the shown digits of
their identifiers and their content lengths are the same. -/
theorem header_rendered_same_iff {a b : ProxyHeader} {sizeA sizeB : Nat}
    (roomA : (proxyHeaderText a).length < sizeA) (roomB : (proxyHeaderText b).length < sizeB)
    (src dst out src' dst' out' : ByteBuffer) :
    renderedHeader a src dst out sizeA = renderedHeader b src' dst' out' sizeB ↔
      proxyIdShown a.src = proxyIdShown b.src ∧ proxyIdShown a.dst = proxyIdShown b.dst ∧
        a.content.length = b.content.length := by
  have digits (id : ProxyId) : ∀ byte ∈ proxyIdShown id, isDigit byte :=
    fun _ member => is_digit_decimal (List.mem_of_mem_take member)
  rw [header_rendered_string roomA, header_rendered_string roomB]
  exact header_line_inj (digits a.src) (digits a.dst) (digits b.src) (digits b.dst)

theorem id_shown_inj {left right : ProxyId} (leftNarrow : left.bigEndian < 1000)
    (rightNarrow : right.bigEndian < 1000) : proxyIdShown left = proxyIdShown right ↔ left = right := by
  rw [(id_shown_iff left).mpr leftNarrow, (id_shown_iff right).mpr rightNarrow]
  exact ⟨fun same => ProxyId.big_endian_inj (decimal_injective same), fun same => same ▸ rfl⟩

/-- The rendering is faithful in every buffer exactly for the headers whose two
identifiers are below 1000, and in one buffer exactly when it fits there; headers
of such identifiers are told apart by it, others by three digits of each. -/
theorem header_to_str_exact (hdr : ProxyHeader) :
    ((∀ size, 0 < size → HeaderRendered hdr size) ↔
      hdr.src.bigEndian < 1000 ∧ hdr.dst.bigEndian < 1000) ∧
    (∀ size, 0 < size → (HeaderRendered hdr size ↔ HeaderFits hdr size)) ∧
    (∀ (other : ProxyHeader) (size size' : Nat) (src dst out src' dst' out' : ByteBuffer),
      (proxyHeaderText hdr).length < size → (proxyHeaderText other).length < size' →
      (renderedHeader hdr src dst out size = renderedHeader other src' dst' out' size' ↔
        proxyIdShown hdr.src = proxyIdShown other.src ∧
          proxyIdShown hdr.dst = proxyIdShown other.dst ∧
          hdr.content.length = other.content.length) ∧
      (hdr.src.bigEndian < 1000 → hdr.dst.bigEndian < 1000 →
        other.src.bigEndian < 1000 → other.dst.bigEndian < 1000 →
        (renderedHeader hdr src dst out size = renderedHeader other src' dst' out' size' ↔
          hdr.src = other.src ∧ hdr.dst = other.dst ∧
            hdr.content.length = other.content.length))) := by
  refine ⟨header_rendered_all_iff, fun _ room => header_rendered_iff room, ?_⟩
  intro other size size' src dst out src' dst' out' room otherRoom
  have same := header_rendered_same_iff room otherRoom src dst out src' dst' out'
  refine ⟨same, fun srcNarrow dstNarrow otherSrc otherDst => ?_⟩
  rw [same, id_shown_inj srcNarrow otherSrc, id_shown_inj dstNarrow otherDst]

/-- A message of two bytes from the phone 942756818 to the phone 1. -/
def phoneHeader : ProxyHeader := ⟨#v[56, 49, 83, 210], #v[0, 0, 0, 1], [104, 105]⟩

/-- Two small identifiers in a buffer of 64 bytes. -/
theorem header_to_str_exact_small :
    HeaderRendered ⟨#v[0, 0, 3, 231], #v[0, 0, 0, 1], [104, 105]⟩ 64 :=
  ((header_to_str_exact ⟨#v[0, 0, 3, 231], #v[0, 0, 0, 1], [104, 105]⟩).2.1 64 (by decide)).mpr
    (by decide)

theorem phone_header_cut :
    proxyHeaderText phoneHeader = ascii "[v01][src=942756818][dst=1][content=2 B]" ∧
      renderedHeader phoneHeader .zero .zero .zero 64 =
        ascii "[v01][src=942][dst=1][content=2 B]" ∧ ¬ HeaderRendered phoneHeader 64 := by
  refine ⟨by decide +kernel, by decide +kernel, fun rendered => ?_⟩
  exact absurd ((header_rendered_iff (by decide)).mp rendered) (by decide +kernel)

end MeshPbx
