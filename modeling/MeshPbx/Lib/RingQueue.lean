import Mathlib.Data.List.Basic
import Mathlib.Data.Nat.ModEq
import Mathlib.Logic.Function.Basic

/-! Circular FIFO over a fixed array, with the read index, the write index and
the fill count stored separately. The relation between the three is a field, so
every queue that can be built is well formed; `contents` is the abstract FIFO. -/

structure RingQueue (α : Type) (capacity : Nat) where
  slots : Nat → α
  head : Nat
  tail : Nat
  count : Nat
  head_lt : head < capacity
  count_le : count ≤ capacity
  tail_eq : tail = (head + count) % capacity

namespace RingQueue
variable {α : Type} {capacity : Nat}

def empty [NeZero capacity] (slots : Nat → α) : RingQueue α capacity where
  slots := slots
  head := 0
  tail := 0
  count := 0
  head_lt := Nat.pos_of_neZero capacity
  count_le := Nat.zero_le _
  tail_eq := by simp

/-- Store at the write index and advance it. -/
def push (q : RingQueue α capacity) (room : q.count < capacity) (x : α) : RingQueue α capacity where
  slots := Function.update q.slots q.tail x
  head := q.head
  tail := (q.tail + 1) % capacity
  count := q.count + 1
  head_lt := q.head_lt
  count_le := room
  tail_eq := by rw [q.tail_eq, Nat.mod_add_mod]; rfl

/-- Advance the read index past the oldest entry. -/
def pop (q : RingQueue α capacity) (filled : 0 < q.count) : RingQueue α capacity where
  slots := q.slots
  head := (q.head + 1) % capacity
  tail := q.tail
  count := q.count - 1
  head_lt := Nat.mod_lt _ (Nat.lt_of_lt_of_le filled q.count_le)
  count_le := Nat.le_trans (Nat.sub_le _ _) q.count_le
  tail_eq := by
    rw [q.tail_eq, Nat.mod_add_mod]
    congr 1
    omega

/-- The queued entries, oldest first. -/
def contents (q : RingQueue α capacity) : List α :=
  (List.range q.count).map (fun i => q.slots ((q.head + i) % capacity))

@[simp] theorem length_contents (q : RingQueue α capacity) : q.contents.length = q.count := by
  simp [contents]

@[simp] theorem contents_empty [NeZero capacity] (slots : Nat → α) :
    (empty slots : RingQueue α capacity).contents = [] := rfl

theorem contents_eq_nil_iff (q : RingQueue α capacity) : q.contents = [] ↔ q.count = 0 := by
  rw [← List.length_eq_zero_iff, length_contents]

private theorem index_injective {head i j : Nat} (hi : i < capacity) (hj : j < capacity)
    (same : (head + i) % capacity = (head + j) % capacity) : i = j := by
  have congruent : i ≡ j [MOD capacity] := Nat.ModEq.add_left_cancel' head same
  exact Nat.ModEq.eq_of_lt_of_lt congruent hi hj

theorem contents_push (q : RingQueue α capacity) (room : q.count < capacity) (x : α) :
    (q.push room x).contents = q.contents ++ [x] := by
  have older : ∀ i ∈ List.range q.count,
      Function.update q.slots q.tail x ((q.head + i) % capacity) =
        q.slots ((q.head + i) % capacity) := by
    intro i member
    have bound := List.mem_range.mp member
    apply Function.update_of_ne
    intro same
    rw [q.tail_eq] at same
    have := index_injective (by omega) room same
    omega
  simp only [contents, push, List.range_succ, List.map_append, List.map_cons, List.map_nil,
    List.map_congr_left older]
  rw [← q.tail_eq, Function.update_self]

theorem contents_pop (q : RingQueue α capacity) (filled : 0 < q.count) :
    q.contents = q.slots q.head :: (q.pop filled).contents := by
  obtain ⟨k, count⟩ : ∃ k, q.count = k + 1 := ⟨q.count - 1, by omega⟩
  simp only [contents, pop, count, List.range_succ_eq_map, List.map_cons, List.map_map,
    Nat.add_zero, Nat.mod_eq_of_lt q.head_lt, Nat.add_sub_cancel]
  congr 1
  apply List.map_congr_left
  intro i _
  simp only [Function.comp_apply, Nat.mod_add_mod, Nat.succ_eq_add_one]
  congr 2
  omega

end RingQueue
