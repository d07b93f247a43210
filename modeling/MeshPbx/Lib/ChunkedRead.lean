import Mathlib.Algebra.Ring.Nat
import Mathlib.Data.List.Basic

/-! A value read in chunks. The reader asks at offsets 0, `chunk`, 2 · `chunk` and so
on, and takes the first answer that is shorter than a chunk for the last one. The
server answers each request from its state, which may change with the request and
between two of them; what has to hold is that every answer comes from one value. -/

structure ChunkedRead (S α : Type) where
  chunk : Nat
  request : S → Nat → S × Option (List α)
  between : Nat → S → S

namespace ChunkedRead
variable {S α : Type} (r : ChunkedRead S α)

/-- What the reader collects from request `k` on, and the state it leaves; `none`
where a request fails or more than `fuel` requests are made. -/
def collect : Nat → Nat → S → Option (List α × S)
  | 0, _, _ => none
  | fuel + 1, k, s =>
    match r.request s (k * r.chunk) with
    | (_, none) => none
    | (s, some answer) =>
      if answer.length < r.chunk then some (answer, s)
      else (collect fuel (k + 1) (r.between k s)).map fun (rest, s) => (answer ++ rest, s)

/-- The requests that the value takes behind the first one. -/
def later (value : List α) : Nat := value.length / r.chunk

/-- The state each request is made in, and its answer as a piece of the value. -/
structure Serves (value : List α) (state : Nat → S) : Prop where
  chunk_pos : 0 < r.chunk
  answers : ∀ k ≤ r.later value, (r.request (state k) (k * r.chunk)).2 =
    some ((value.drop (k * r.chunk)).take r.chunk)
  follows : ∀ k < r.later value,
    state (k + 1) = r.between k (r.request (state k) (k * r.chunk)).1

variable {r} {value : List α} {state : Nat → S}

/-- Every request before the last one is answered in full. -/
theorem length_piece {k : Nat} (before : k < r.later value) :
    ((value.drop (k * r.chunk)).take r.chunk).length = r.chunk := by
  have inside : (k + 1) * r.chunk ≤ value.length :=
    Nat.le_trans (Nat.mul_le_mul_right _ before) (Nat.div_mul_le_self _ _)
  rw [Nat.add_mul, Nat.one_mul] at inside
  rw [List.length_take, List.length_drop]
  omega

/-- The last one is not. -/
theorem length_last (chunk_pos : 0 < r.chunk) :
    (value.drop (r.later value * r.chunk)).length < r.chunk := by
  have split := Nat.div_add_mod' value.length r.chunk
  have rest := Nat.mod_lt value.length chunk_pos
  rw [List.length_drop, later]
  omega

/-- From request `k` on the reader collects the rest of the value from there. -/
theorem collect_rest (serves : r.Serves value state) {k : Nat} (inside : k ≤ r.later value)
    {fuel : Nat} (enough : r.later value - k < fuel) :
    r.collect fuel k (state k) = some (value.drop (k * r.chunk),
      (r.request (state (r.later value)) (r.later value * r.chunk)).1) := by
  induction fuel generalizing k with
  | zero => exact absurd enough (Nat.not_lt_zero _)
  | succ fuel ih =>
    have answer := serves.answers k inside
    rw [collect]
    rcases Nat.lt_or_eq_of_le inside with before | rfl
    · have next := ih before (by omega)
      have piece := length_piece before
      rw [serves.follows k before] at next
      generalize r.request (state k) (k * r.chunk) = outcome at answer next
      obtain ⟨s, result⟩ := outcome
      obtain rfl : result = _ := answer
      dsimp only
      rw [if_neg (by omega), next, Option.map_some, Nat.succ_mul, ← List.drop_drop,
        List.take_append_drop]
    · have short : (value.drop (r.later value * r.chunk)).length < r.chunk :=
        length_last serves.chunk_pos
      have whole := List.take_of_length_le (Nat.le_of_lt short)
      rw [whole] at answer
      generalize r.request (state (r.later value)) (r.later value * r.chunk) = outcome at answer ⊢
      obtain ⟨s, result⟩ := outcome
      obtain rfl : result = _ := answer
      exact if_pos short

/-- The reader collects exactly the value, also where its length is a multiple of
the chunk, and leaves the state of the last request. -/
theorem collect_value (serves : r.Serves value state) {fuel : Nat}
    (enough : r.later value < fuel) :
    r.collect fuel 0 (state 0) = some (value,
      (r.request (state (r.later value)) (r.later value * r.chunk)).1) := by
  have all : r.later value - 0 < fuel := enough
  have collected := collect_rest serves (Nat.zero_le _) all
  rw [Nat.zero_mul, List.drop_zero] at collected
  exact collected

end ChunkedRead
