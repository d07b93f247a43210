import MeshPbx.Lib.ByteBuffer

/-! Text as C handles it: ASCII bytes, decimal and hexadecimal numerals, strings
that end at a null byte inside an array, and the bounded formatter that cuts what
does not fit and reports the length it wanted. -/
namespace CText

/-- The bytes of a literal in the source. -/
def ascii (text : String) : Bytes := text.toList.map fun c => UInt8.ofNat c.toNat

/-- A number as `%u` writes it. -/
def decimal (value : Nat) : Bytes :=
  (Nat.toDigits 10 value).map fun c => UInt8.ofNat c.toNat

/-- A number as `%02x` writes it. -/
def hex02 (value : Nat) : Bytes :=
  let digits := (Nat.toDigits 16 value).map fun c => UInt8.ofNat c.toNat
  List.replicate (2 - digits.length) 48 ++ digits

def isDigit (byte : UInt8) : Bool := 48 ≤ byte.toNat && byte.toNat ≤ 57

/-- The number a decimal numeral stands for. -/
def readDecimal (text : Bytes) : Option Nat :=
  if text ≠ [] ∧ text.all isDigit then
    some (text.foldl (fun value byte => 10 * value + (byte.toNat - 48)) 0)
  else none

/-- The string an array of `size` bytes holds from its start. -/
def cString (buffer : ByteBuffer) (size : Nat) : Bytes :=
  (buffer.read 0 size).takeWhile (· ≠ 0)

/-- `snprintf` to `size` bytes at an offset: as much of the text as leaves room for
the null byte, and the length of the whole text. -/
def snprintf (buffer : ByteBuffer) (offset size : Nat) (text : Bytes) : ByteBuffer × Nat :=
  (if size = 0 then buffer else buffer.write offset (text.take (size - 1) ++ [0]), text.length)

/-! Numerals. -/

theorem is_digit_decimal {value : Nat} {byte : UInt8} (member : byte ∈ decimal value) :
    isDigit byte := by
  obtain ⟨c, digit, rfl⟩ := List.mem_map.mp member
  have range := Nat.isDigit_of_mem_toDigits (by decide) (by decide) digit
  obtain ⟨low, high⟩ := Char.isDigit_iff_toNat.mp range
  simp only [isDigit, Bool.and_eq_true, decide_eq_true_eq, UInt8.toNat_ofNat']
  simp only [Char.reduceToNat] at low high
  omega

theorem decimal_ne_nil (value : Nat) : decimal value ≠ [] := by
  simp [decimal]

theorem length_decimal_le_iff {value width : Nat} (some_width : 0 < width) :
    (decimal value).length ≤ width ↔ value < 10 ^ width := by
  rw [decimal, List.length_map]
  exact Nat.length_toDigits_le_iff (by decide) some_width

/-- No byte outside the digits occurs in a numeral. -/
theorem not_mem_decimal {byte : UInt8} (other : isDigit byte = false) (value : Nat) :
    byte ∉ decimal value :=
  fun member => Bool.false_ne_true (other.symm.trans (is_digit_decimal member))

/-- A numeral reads back as the number it was written for. -/
theorem read_decimal (value : Nat) : readDecimal (decimal value) = some value := by
  have digits : (decimal value).all isDigit :=
    List.all_eq_true.mpr fun _ member => is_digit_decimal member
  have folded : (decimal value).foldl (fun value byte => 10 * value + (byte.toNat - 48)) 0 =
      Nat.ofDigitChars 10 (Nat.toDigits 10 value) 0 := by
    rw [decimal, List.foldl_map, Nat.ofDigitChars_eq_foldl]
    refine List.foldl_ext _ _ _ (fun total c member => ?_)
    have range := Nat.isDigit_of_mem_toDigits (by decide) (by decide) member
    obtain ⟨low, high⟩ := Char.isDigit_iff_toNat.mp range
    simp only [Char.reduceToNat] at low high
    simp only [UInt8.toNat_ofNat', Char.reduceToNat]
    omega
  rw [readDecimal, if_pos ⟨decimal_ne_nil value, digits⟩, folded, Nat.ofDigitChars_ten_toDigits]

theorem decimal_injective {left right : Nat} (same : decimal left = decimal right) :
    left = right := by
  have read := congrArg readDecimal same
  rw [read_decimal, read_decimal] at read
  exact Option.some.inj read

/-- A run of digits and the byte behind it are told apart from what follows. -/
theorem digits_split {left right restLeft restRight : Bytes} {stop : UInt8}
    (leftDigits : ∀ byte ∈ left, isDigit byte) (rightDigits : ∀ byte ∈ right, isDigit byte)
    (stops : isDigit stop = false) (same : left ++ stop :: restLeft = right ++ stop :: restRight) :
    left = right ∧ restLeft = restRight := by
  have scan (digits rest : Bytes) (run : ∀ byte ∈ digits, isDigit byte) :
      (digits ++ stop :: rest).takeWhile isDigit = digits := by
    rw [List.takeWhile_append_of_pos run,
      List.takeWhile_cons_of_neg (ne_true_of_eq_false stops), List.append_nil]
  have runs : left = right := by
    rw [← scan left restLeft leftDigits, same, scan right restRight rightDigits]
  rw [runs] at same
  exact ⟨runs, (List.cons.inj (List.append_cancel_left same)).2⟩

/-- Two texts that part at a byte agree up to that byte and no further. -/
theorem take_eq_iff_of_parting {common restLeft restRight : Bytes} {left right : UInt8}
    (part : left ≠ right) (len : Nat) :
    (common ++ left :: restLeft).take len = (common ++ right :: restRight).take len ↔
      len ≤ common.length := by
  constructor
  · intro same
    by_contra long
    have parting := congrArg (fun text => text[common.length]?) same
    simp only [List.getElem?_take_of_lt (Nat.lt_of_not_le long),
      List.getElem?_append_right (Nat.le_refl _), Nat.sub_self, List.getElem?_cons_zero,
      Option.some.injEq] at parting
    exact part parting
  · intro short
    rw [List.take_append_of_le_length short, List.take_append_of_le_length short]

/-! Words. -/

/-- Words each written behind a separator split apart again at it. -/
theorem split_words {separator : UInt8} {first : Bytes} {words : List Bytes}
    (clean : ∀ word ∈ first :: words, separator ∉ word) :
    (first ++ (words.map (separator :: ·)).flatten).splitOn separator = first :: words := by
  have joined : ∀ (first : Bytes) (words : List Bytes),
      [separator].intercalate (first :: words) =
        first ++ (words.map (separator :: ·)).flatten := by
    intro first words
    induction words generalizing first with
    | nil => simp only [List.intercalate_singleton, List.map_nil, List.flatten_nil, List.append_nil]
    | cons word words ih =>
      rw [List.intercalate_cons_cons, ih, List.map_cons, List.flatten_cons]
      simp only [List.append_assoc, List.cons_append, List.nil_append]
  rw [← joined, List.splitOn_intercalate separator clean (List.cons_ne_nil _ _)]

/-! Strings in arrays. -/

theorem take_while_zero {text : Bytes} (printable : 0 ∉ text) (rest : Bytes) :
    (text ++ 0 :: rest).takeWhile (· ≠ 0) = text := by
  rw [List.takeWhile_append_of_pos, List.takeWhile_cons_of_neg (by simp), List.append_nil]
  intro byte member
  exact decide_eq_true fun zero => printable (zero ▸ member)

/-- An array whose first bytes are a text and its null byte holds that text. -/
theorem c_string_eq {buffer : ByteBuffer} {size : Nat} {text : Bytes} (printable : 0 ∉ text)
    (inside : text.length < size) (ended : buffer.read 0 (text.length + 1) = text ++ [0]) :
    cString buffer size = text := by
  obtain ⟨rest, rfl⟩ := Nat.exists_eq_add_of_le (Nat.succ_le_of_lt inside)
  rw [cString, ByteBuffer.read_add, ended, List.append_assoc]
  exact take_while_zero printable _

/-- A formatted array holds as much of the text as leaves room for the null byte. -/
theorem c_string_snprintf {text : Bytes} (printable : 0 ∉ text) {size : Nat} (room : 0 < size)
    (buffer : ByteBuffer) : cString (snprintf buffer 0 size text).1 size = text.take (size - 1) := by
  have cut : (text.take (size - 1)).length ≤ size - 1 := List.length_take_le _ _
  have written : (snprintf buffer 0 size text).1 =
      buffer.write 0 (text.take (size - 1) ++ [0]) := if_neg (Nat.ne_of_gt room)
  have ended := ByteBuffer.read_write_same buffer 0 (text.take (size - 1) ++ [0])
  rw [List.length_append, List.length_singleton] at ended
  rw [written]
  exact c_string_eq (fun member => printable (List.mem_of_mem_take member)) (by omega) ended

/-- Formatting behind a text at the start of an array extends it by what is
formatted, when that fits with its null byte. -/
theorem snprintf_extends {buffer : ByteBuffer} {before text : Bytes} {size : Nat}
    (held : buffer.read 0 before.length = before) (fits : text.length < size) :
    (snprintf buffer before.length size text).1.read 0 ((before ++ text).length + 1) =
      before ++ text ++ [0] := by
  have whole : text.take (size - 1) = text := List.take_of_length_le (by omega)
  have written : (snprintf buffer before.length size text).1 =
      buffer.write before.length (text ++ [0]) := by
    rw [snprintf, if_neg (by omega), whole]
  have next := ByteBuffer.read_write_next buffer before.length (text ++ [0])
  rw [held, List.length_append, List.length_singleton] at next
  rw [written, List.length_append, Nat.add_assoc, next, List.append_assoc]

end CText
