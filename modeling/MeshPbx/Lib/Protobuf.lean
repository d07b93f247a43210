import MeshPbx.Lib.ByteBuffer

/-! Protobuf wire format: base-128 varints, field keys and the flat list of
fields of one message. Submessages stay byte strings until the reader of the
enclosing message asks for their fields. -/
namespace Protobuf

/-- Base-128 encoding, least significant group first, in at most `fuel` bytes. -/
def varintWithin : Nat → Nat → Bytes
  | 0, _ => []
  | fuel + 1, n =>
    if n < 128 then [UInt8.ofNat n]
    else UInt8.ofNat (n % 128 + 128) :: varintWithin fuel (n / 128)

def varint (n : UInt32) : Bytes := varintWithin 5 n.toNat

def readVarint : Nat → Bytes → Option (Nat × Bytes)
  | 0, _ => none
  | _ + 1, [] => none
  | fuel + 1, byte :: rest =>
    if byte.toNat < 128 then some (byte.toNat, rest)
    else (readVarint fuel rest).map (fun (high, rest) => (byte.toNat - 128 + 128 * high, rest))

inductive Value where
  | varint (n : Nat)
  | fixed32 (bytes : Bytes)
  | bytes (bytes : Bytes)
  deriving DecidableEq, Repr

/-- One key and its value; wire types 0, 2 and 5. -/
def readField (input : Bytes) : Option ((Nat × Value) × Bytes) := do
  let (key, rest) ← readVarint 10 input
  match key % 8 with
  | 0 =>
    let (n, rest) ← readVarint 10 rest
    some ((key / 8, .varint n), rest)
  | 2 =>
    let (len, rest) ← readVarint 10 rest
    if len ≤ rest.length then some ((key / 8, .bytes (rest.take len)), rest.drop len) else none
  | 5 =>
    if 4 ≤ rest.length then some ((key / 8, .fixed32 (rest.take 4)), rest.drop 4) else none
  | _ => none

def fieldsWithin : Nat → Bytes → Option (List (Nat × Value))
  | _, [] => some []
  | 0, _ :: _ => none
  | fuel + 1, input => do
    let (field, rest) ← readField input
    let fields ← fieldsWithin fuel rest
    some (field :: fields)

/-- Every field takes at least one byte, so the length bounds their number. -/
def fields (input : Bytes) : Option (List (Nat × Value)) :=
  fieldsWithin input.length input

theorem length_varintWithin (fuel n : Nat) : (varintWithin fuel n).length ≤ fuel := by
  induction fuel generalizing n with
  | zero => exact Nat.le_refl _
  | succ fuel ih =>
    unfold varintWithin
    split
    · simp
    · simpa using ih (n / 128)

theorem length_varint (n : UInt32) : (varint n).length ≤ 5 := length_varintWithin 5 n.toNat

theorem toNat_byte {n : Nat} (small : n < 256) : (UInt8.ofNat n).toNat = n := by
  rw [UInt8.toNat_ofNat']
  exact Nat.mod_eq_of_lt small

theorem readVarint_within (fuel n : Nat) (rest : Bytes) (bound : n < 128 ^ (fuel + 1)) (more : Nat) :
    readVarint (fuel + 1 + more) (varintWithin (fuel + 1) n ++ rest) = some (n, rest) := by
  have unfolded : fuel + 1 + more = (fuel + more) + 1 := by omega
  induction fuel generalizing n with
  | zero =>
    have small : n < 128 := by simpa using bound
    have byte := toNat_byte (n := n) (by omega)
    simp only [unfolded, varintWithin, if_pos small, List.singleton_append, readVarint, byte]
  | succ fuel ih =>
    rw [unfolded]
    unfold varintWithin
    split
    · rename_i small
      have byte := toNat_byte (n := n) (by omega)
      simp only [List.singleton_append, readVarint, byte, if_pos small]
    · rename_i large
      have byte := toNat_byte (n := n % 128 + 128) (by omega)
      have high : n / 128 < 128 ^ (fuel + 1) := by
        rw [Nat.pow_succ] at bound
        exact Nat.div_lt_of_lt_mul (by omega)
      have large' : ¬ n % 128 + 128 < 128 := by omega
      have split : n % 128 + 128 - 128 + 128 * (n / 128) = n := by omega
      rw [List.cons_append, readVarint, byte, if_neg large', ih (n / 128) high (by omega)]
      exact congrArg (fun value => some (value, rest)) split

theorem readVarint_varint (n : UInt32) (rest : Bytes) :
    readVarint 10 (varint n ++ rest) = some (n.toNat, rest) := by
  have bound := n.toNat_lt
  exact readVarint_within 4 n.toNat rest (by omega) 5

/-- A message holding one varint field with a one-byte key reads back as that
field alone. -/
theorem fields_varint (key : UInt8) (n : UInt32) (short : key.toNat < 128)
    (wire : key.toNat % 8 = 0) :
    fields (key :: varint n) = some [(key.toNat / 8, .varint n.toNat)] := by
  have value := readVarint_varint n []
  rw [List.append_nil] at value
  have one : readField (key :: varint n) = some ((key.toNat / 8, .varint n.toNat), []) := by
    simp only [readField, readVarint, if_pos short, bind, Option.bind_some, wire, value]
  simp only [fields, List.length_cons, fieldsWithin, one, bind, Option.bind_some]

end Protobuf
