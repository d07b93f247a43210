import Mathlib.Data.List.Basic

/-! Deterministic stream transducers: an item of input may produce any number of
outputs. Where the input passes through a FIFO buffer that is filled in chunks
and drained item by item, what comes out depends on the stream alone. -/

structure Transducer (S I O : Type) where
  step : S → I → S × List O

namespace Transducer
variable {S I O : Type} (t : Transducer S I O)

/-- The state after a stream. -/
def state (s : S) : List I → S
  | [] => s
  | x :: xs => state (t.step s x).1 xs

/-- Everything a stream makes come out. -/
def output (s : S) : List I → List O
  | [] => []
  | x :: xs => (t.step s x).2 ++ output (t.step s x).1 xs

variable {t} {s : S}

@[simp] theorem state_nil : t.state s [] = s := rfl

@[simp] theorem state_cons (x : I) (xs : List I) :
    t.state s (x :: xs) = t.state (t.step s x).1 xs := rfl

@[simp] theorem output_nil : t.output s [] = [] := rfl

@[simp] theorem output_cons (x : I) (xs : List I) :
    t.output s (x :: xs) = (t.step s x).2 ++ t.output (t.step s x).1 xs := rfl

theorem state_append (xs ys : List I) : t.state s (xs ++ ys) = t.state (t.state s xs) ys := by
  induction xs generalizing s with
  | nil => rfl
  | cons x xs ih => exact ih

theorem output_append (xs ys : List I) :
    t.output s (xs ++ ys) = t.output s xs ++ t.output (t.state s xs) ys := by
  induction xs generalizing s with
  | nil => rfl
  | cons x xs ih => simp only [List.cons_append, output_cons, state_cons, ih, List.append_assoc]

/-- What every step from a state of an invariant makes come out, a whole stream
makes come out. -/
theorem output_forall {Inv : S → Prop} {Q : O → Prop}
    (keeps : ∀ s x, Inv s → Inv (t.step s x).1)
    (each : ∀ s x, Inv s → ∀ o ∈ (t.step s x).2, Q o) (xs : List I) (initial : Inv s) :
    ∀ o ∈ t.output s xs, Q o := by
  induction xs generalizing s with
  | nil => exact List.forall_mem_nil _
  | cons x xs ih =>
    intro o member
    rcases List.mem_append.mp member with now | later
    · exact each s x initial o now
    · exact ih (keeps s x initial) o later

/-- Related states answer every item alike and stay related. -/
structure Bisimulation (t : Transducer S I O) (R : S → S → Prop) : Prop where
  output : ∀ {a b : S}, R a b → ∀ x, (t.step a x).2 = (t.step b x).2
  next : ∀ {a b : S}, R a b → ∀ x, R (t.step a x).1 (t.step b x).1

/-- Related states cannot be told apart by any stream. -/
theorem Bisimulation.output_eq {R : S → S → Prop} (bisimulation : t.Bisimulation R) {a b : S}
    (related : R a b) (xs : List I) : t.output a xs = t.output b xs := by
  induction xs generalizing a b with
  | nil => rfl
  | cons x xs ih =>
    rw [output_cons, output_cons, bisimulation.output related x, ih (bisimulation.next related x)]

/-- A transducer with the buffer before it and what has come out of it. -/
structure Buffered (S I O : Type) where
  state : S
  buffer : List I
  out : List O

namespace Buffered

def feed (b : Buffered S I O) (chunk : List I) : Buffered S I O :=
  { b with buffer := b.buffer ++ chunk }

def take (t : Transducer S I O) (b : Buffered S I O) : Buffered S I O :=
  match b.buffer with
  | [] => b
  | x :: rest => ⟨(t.step b.state x).1, rest, b.out ++ (t.step b.state x).2⟩

/-- What has come out and what the buffered input, and `later` after it, will
still make come out. -/
def promised (t : Transducer S I O) (b : Buffered S I O) (later : List I) : List O :=
  b.out ++ t.output b.state (b.buffer ++ later)

theorem promised_feed (b : Buffered S I O) (chunk later : List I) :
    (b.feed chunk).promised t later = b.promised t (chunk ++ later) := by
  simp only [promised, feed, List.append_assoc]

theorem promised_take (b : Buffered S I O) (later : List I) :
    (b.take t).promised t later = b.promised t later := by
  unfold take
  split
  · rfl
  · rename_i x rest buffered
    simp only [promised, buffered, List.cons_append, output_cons, List.append_assoc]

theorem promised_empty {b : Buffered S I O} (drained : b.buffer = []) : b.promised t [] = b.out := by
  simp only [promised, drained, List.append_nil, output_nil]

theorem out_prefix (b : Buffered S I O) (later : List I) : b.out <+: b.promised t later :=
  List.prefix_append _ _

end Buffered
end Transducer
