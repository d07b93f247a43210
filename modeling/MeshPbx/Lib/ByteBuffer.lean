import Mathlib.Algebra.Ring.Nat
import Mathlib.Data.List.Basic

/-! Statically allocated byte arrays as total maps from offsets to bytes. Writes
and reads move whole byte strings, as memcpy does; a write leaves every byte
outside its range as it was, so stale contents stay visible in the model. -/

abbrev Bytes := List UInt8

def ByteBuffer := Nat → UInt8

namespace ByteBuffer

def zero : ByteBuffer := fun _ => 0

def write (buffer : ByteBuffer) (offset : Nat) (bytes : Bytes) : ByteBuffer := fun i =>
  if offset ≤ i then (bytes[i - offset]?).getD (buffer i) else buffer i

def read (buffer : ByteBuffer) (offset len : Nat) : Bytes :=
  (List.range len).map (fun i => buffer (offset + i))

@[simp] theorem length_read (buffer : ByteBuffer) (offset len : Nat) :
    (buffer.read offset len).length = len := by
  simp [read]

@[simp] theorem read_zero (buffer : ByteBuffer) (offset : Nat) : buffer.read offset 0 = [] := rfl

/-- A range is what its first part holds and what its rest holds. -/
theorem read_add (buffer : ByteBuffer) (offset m n : Nat) :
    buffer.read offset (m + n) = buffer.read offset m ++ buffer.read (offset + m) n := by
  simp only [read, List.range_add, List.map_append, List.map_map, Function.comp_def, Nat.add_assoc]

theorem read_write_same (buffer : ByteBuffer) (offset : Nat) (bytes : Bytes) :
    (buffer.write offset bytes).read offset bytes.length = bytes := by
  apply List.ext_getElem
  · simp
  · intro i _ bound
    simp [read, write, bound]

theorem write_behind (buffer : ByteBuffer) (offset : Nat) (bytes : Bytes) (i : Nat)
    (behind : offset + bytes.length ≤ i) : buffer.write offset bytes i = buffer i := by
  unfold write
  rw [List.getElem?_eq_none (by omega)]
  exact ite_self _

/-- A write leaves what lies wholly before or behind it readable as before. -/
theorem read_write_disjoint (buffer : ByteBuffer) (offset start len : Nat) (bytes : Bytes)
    (disjoint : start + len ≤ offset ∨ offset + bytes.length ≤ start) :
    (buffer.write offset bytes).read start len = buffer.read start len := by
  apply List.map_congr_left
  intro i member
  have bound := List.mem_range.mp member
  unfold write
  rcases disjoint with before | behind
  · rw [if_neg (by omega)]
  · rw [List.getElem?_eq_none (by omega)]
    simp

/-- Reading a range that a write extends by the bytes that follow it. -/
theorem read_write_next (buffer : ByteBuffer) (len : Nat) (bytes : Bytes) :
    (buffer.write len bytes).read 0 (len + bytes.length) = buffer.read 0 len ++ bytes := by
  have before : (buffer.write len bytes).read 0 len = buffer.read 0 len :=
    read_write_disjoint buffer len 0 len bytes (Or.inl (by omega))
  have after := read_write_same buffer len bytes
  simp only [read, Nat.zero_add] at before after ⊢
  rw [List.range_add, List.map_append, before, List.map_map]
  exact congrArg _ after

end ByteBuffer
