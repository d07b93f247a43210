import MeshPbx.Lib.Machine
import Mathlib.Algebra.BigOperators.Group.Finset.Basic
import Mathlib.Algebra.GroupWithZero.Nat
import Mathlib.Algebra.Order.BigOperators.Group.Finset
import Mathlib.Data.Set.Finite.Range
import Mathlib.Order.Preorder.Finite

/-! Code that runs under locks. A thread is a stack of program points: the top one runs
next, and those below have called out of the code and wait for a callback to return.
Locks are taken in one order, all are given back before a call out of the code, and every
point has a bound on the points after it. Then threads exclude each other, they never
deadlock, and every call returns. -/

/-- The locks held after a point that takes one and drops one. -/
def heldAfter {L : Type} (holds : Set L) (takes drops : Option L) : Set L :=
  {l | (l ∈ holds ∨ takes = some l) ∧ drops ≠ some l}

/-- `act` runs a point; no next point is a return. At the points that `calls` names a
callback may run first. -/
structure LockCode (P L M : Type) [LT L] where
  act : P → M → M × Option P
  entry : P → Prop
  calls : P → Prop
  takes : P → Option L
  drops : P → Option L
  holds : P → Set L
  left : P → Nat
  entry_free : ∀ p, entry p → holds p = ∅
  calls_free : ∀ p, calls p → holds p = ∅
  takes_above : ∀ p l, takes p = some l → ∀ held ∈ holds p, held < l
  drops_held : ∀ p l, drops p = some l → l ∈ holds p
  next_holds : ∀ p m q, (act p m).2 = some q → holds q = heldAfter (holds p) (takes p) (drops p)
  last_holds : ∀ p m, (act p m).2 = none → heldAfter (holds p) (takes p) (drops p) = ∅
  left_lt : ∀ p m q, (act p m).2 = some q → left q < left p

structure Threads (T P L M : Type) where
  memory : M
  owner : L → Option T
  stack : T → List P

/-- `enter` is a call into the code, from outside or as a callback. -/
inductive ThreadEvent (T P : Type) where
  | enter (t : T) (p : P)
  | step (t : T)

def ThreadEvent.IsStep {T P : Type} : ThreadEvent T P → Prop
  | .enter _ _ => False
  | .step _ => True

namespace LockCode
variable {T P L M : Type}

section Definitions
variable [LT L] (code : LockCode P L M)

/-- The thread can run its top point: the lock it takes is free. -/
def Ready (s : Threads T P L M) (t : T) : Prop :=
  ∃ p ∈ (s.stack t).head?, ∀ l ∈ code.takes p, s.owner l = none

/-- A lock's owner is the thread whose top point holds it, and a point below another has
called out of the code. -/
structure Sound (s : Threads T P L M) : Prop where
  owned : ∀ t l, s.owner l = some t ↔ ∃ p ∈ (s.stack t).head?, l ∈ code.holds p
  waiting : ∀ t, ∀ p ∈ (s.stack t).tail, code.calls p

/-- A call run to its end with nothing in between. -/
def finish : Nat → P → M → M
  | 0, _, memory => memory
  | fuel + 1, p, memory =>
    (code.act p memory).2.elim (code.act p memory).1 fun q => finish fuel q (code.act p memory).1

variable [DecidableEq T] [DecidableEq L]

/-- The thread runs `p`, below which its stack is `below`. -/
def ran (s : Threads T P L M) (t : T) (p : P) (below : List P) : Threads T P L M where
  memory := (code.act p s.memory).1
  owner l :=
    if code.drops p = some l then none
    else if code.takes p = some l then some t
    else s.owner l
  stack := Function.update s.stack t ((code.act p s.memory).2.toList ++ below)

/-- Any number of threads that run the code. -/
def threads (T : Type) [DecidableEq T] : Machine (Threads T P L M) (ThreadEvent T P) where
  enabled s
    | .enter t p => code.entry p ∧ ∀ top ∈ (s.stack t).head?, code.calls top
    | .step t => code.Ready s t
  next s
    | .enter t p => { s with stack := Function.update s.stack t (p :: s.stack t) }
    | .step t => match s.stack t with
      | [] => s
      | p :: below => code.ran s t p below

instance (s : Threads T P L M) (t : T) : Decidable (code.Ready s t) :=
  inferInstanceAs (Decidable (∃ p ∈ _, ∀ l ∈ _, _))

instance [∀ p, Decidable (code.entry p)] [∀ p, Decidable (code.calls p)]
    (s : Threads T P L M) : (e : ThreadEvent T P) → Decidable ((code.threads T).enabled s e)
  | .enter _ _ => inferInstanceAs (Decidable (_ ∧ ∀ top ∈ _, _))
  | .step t => inferInstanceAs (Decidable (code.Ready s t))

end Definitions

section Soundness
variable [Preorder L] {code : LockCode P L M} {s : Threads T P L M} {t u : T} {p q : P} {l : L}
variable {below : List P}

theorem sound_start (memory : M) : code.Sound (T := T) ⟨memory, fun _ => none, fun _ => []⟩ where
  owned t l := by simp
  waiting t p member := by simp at member

/-- No two threads are at points that hold one lock. -/
theorem exclusive (sound : code.Sound s) (here : p ∈ (s.stack t).head?)
    (there : q ∈ (s.stack u).head?) (held : l ∈ code.holds p) (also : l ∈ code.holds q) : t = u := by
  have mine := (sound.owned t l).mpr ⟨p, here, held⟩
  have theirs := (sound.owned u l).mpr ⟨q, there, also⟩
  exact Option.some.inj (mine.symm.trans theirs)

/-- Nothing is held across a call out of the code. -/
theorem called_free (sound : code.Sound s) (here : p ∈ (s.stack t).head?) (calls : code.calls p)
    (l : L) : s.owner l ≠ some t := by
  intro owns
  obtain ⟨q, first, held⟩ := (sound.owned t l).mp owns
  obtain rfl : p = q := Option.mem_unique here first
  rw [code.calls_free p calls] at held
  exact held

/-- A thread that is not ready waits for a lock that some thread holds. -/
theorem blocked (first : p ∈ (s.stack t).head?) (stuck : ¬ code.Ready s t) :
    ∃ l, code.takes p = some l ∧ ∃ u, s.owner l = some u := by
  by_contra free
  refine stuck ⟨p, first, fun l takes => ?_⟩
  by_contra taken
  obtain ⟨u, owner⟩ := Option.ne_none_iff_exists'.mp taken
  exact free ⟨l, takes, u, owner⟩

/-- The locks of the top point after a step. -/
theorem top_after (waiting : ∀ q ∈ below, code.calls q) (memory : M) :
    (∃ q ∈ ((code.act p memory).2.toList ++ below).head?, l ∈ code.holds q) ↔
      l ∈ heldAfter (code.holds p) (code.takes p) (code.drops p) := by
  cases after : (code.act p memory).2 with
  | some q => simp [code.next_holds p memory q after]
  | none =>
    rw [code.last_holds p memory after]
    simp only [Option.toList_none, List.nil_append, Set.mem_empty_iff_false, iff_false]
    rintro ⟨q, first, held⟩
    rw [code.calls_free q (waiting q (List.mem_of_mem_head? first))] at held
    exact held

variable [DecidableEq T] [DecidableEq L]

@[simp] theorem ran_memory : (code.ran s t p below).memory = (code.act p s.memory).1 := rfl

@[simp] theorem ran_owner (l : L) : (code.ran s t p below).owner l =
    if code.drops p = some l then none
    else if code.takes p = some l then some t
    else s.owner l := rfl

@[simp] theorem ran_stack : (code.ran s t p below).stack =
    Function.update s.stack t ((code.act p s.memory).2.toList ++ below) := rfl

/-- A point on a stack after a step is the next one or was there before. -/
theorem mem_ran (runs : s.stack t = p :: below) (member : q ∈ (code.ran s t p below).stack u) :
    (u = t ∧ (code.act p s.memory).2 = some q) ∨ q ∈ s.stack u := by
  rw [ran_stack] at member
  by_cases mine : u = t
  · subst mine
    rw [Function.update_self] at member
    rcases List.mem_append.mp member with next | waiting
    · exact .inl ⟨rfl, Option.mem_toList.mp next⟩
    · exact .inr (by simp [runs, waiting])
  · rw [Function.update_of_ne mine] at member
    exact .inr member

theorem stays_on_stack (runs : s.stack t = p :: below) (member : q ∈ s.stack u) :
    (u = t ∧ q = p) ∨ q ∈ (code.ran s t p below).stack u := by
  rw [ran_stack]
  by_cases mine : u = t
  · subst mine
    rw [runs] at member
    rcases List.mem_cons.mp member with here | waiting
    · exact .inl ⟨rfl, here⟩
    · exact .inr (by simp [waiting])
  · rw [Function.update_of_ne mine]
    exact .inr member

@[simp] theorem next_enter : (code.threads T).next s (.enter t p) =
    { s with stack := Function.update s.stack t (p :: s.stack t) } := rfl

theorem next_step (runs : s.stack t = p :: below) :
    (code.threads T).next s (.step t) = code.ran s t p below := by
  simp only [threads, runs]

/-- A callback finds no lock held by its thread, and takes none by being called. -/
theorem sound_enter (sound : code.Sound s) (enters : code.entry p)
    (called : ∀ top ∈ (s.stack t).head?, code.calls top) :
    code.Sound ((code.threads T).next s (.enter t p)) where
  owned u l := by
    by_cases mine : u = t
    · subst mine
      have before : s.owner l ≠ some u := by
        intro owns
        obtain ⟨top, first, held⟩ := (sound.owned u l).mp owns
        rw [code.calls_free top (called top first)] at held
        exact held
      simp [code.entry_free p enters, before]
    · simpa [mine] using sound.owned u l
  waiting u q member := by
    by_cases mine : u = t
    · subst mine
      simp only [next_enter, Function.update_self, List.tail_cons] at member
      cases stack : s.stack u with
      | nil => simp [stack] at member
      | cons top rest =>
        rw [stack] at member
        rcases List.mem_cons.mp member with rfl | deeper
        · exact called q (by simp [stack])
        · exact sound.waiting u q (by simpa [stack] using deeper)
    · simp only [next_enter, Function.update_of_ne mine] at member
      exact sound.waiting u q member

theorem sound_ran (sound : code.Sound s) (runs : s.stack t = p :: below)
    (free : ∀ l ∈ code.takes p, s.owner l = none) : code.Sound (code.ran s t p below) where
  owned u l := by
    have holder := sound.owned t l
    simp only [runs, List.head?_cons, Option.mem_some_iff, exists_eq_left'] at holder
    rw [ran_owner, ran_stack]
    by_cases mine : u = t
    · subst mine
      have waits : ∀ q ∈ below, code.calls q := fun q member =>
        sound.waiting u q (by simpa [runs] using member)
      rw [Function.update_self, top_after waits s.memory]
      by_cases drops : code.drops p = some l
      · simp [heldAfter, drops]
      · by_cases takes : code.takes p = some l
        · simp [heldAfter, drops, takes]
        · simp [heldAfter, drops, takes, holder]
    · rw [Function.update_of_ne mine, ← sound.owned u l]
      by_cases drops : code.drops p = some l
      · -- what it drops it owned, so nobody else did
        rw [if_pos drops, holder.mpr (code.drops_held p l drops)]
        simp [Ne.symm mine]
      · by_cases takes : code.takes p = some l
        · rw [if_neg drops, if_pos takes, free l takes]
          simp [Ne.symm mine]
        · rw [if_neg drops, if_neg takes]
  waiting u q member := by
    rw [ran_stack] at member
    by_cases mine : u = t
    · subst mine
      have before := sound.waiting u q
      rw [runs, List.tail_cons] at before
      rw [Function.update_self] at member
      cases after : (code.act p s.memory).2 with
      | some r => exact before (by simpa [after] using member)
      | none =>
        simp only [after, Option.toList_none, List.nil_append] at member
        exact before (List.mem_of_mem_tail member)
    · rw [Function.update_of_ne mine] at member
      exact sound.waiting u q member

theorem sound_step (s : Threads T P L M) (e : ThreadEvent T P) (sound : code.Sound s)
    (enabled : (code.threads T).enabled s e) : code.Sound ((code.threads T).next s e) := by
  cases e with
  | enter t p => exact sound_enter sound enabled.1 enabled.2
  | step t =>
    obtain ⟨p, first, free⟩ := enabled
    obtain ⟨below, runs⟩ := List.head?_eq_some_iff.mp first
    rw [next_step runs]
    exact sound_ran sound runs free

/-- What a thread does while no other thread runs or holds a lock. -/
theorem run_alone (fuel : Nat) (enough : code.left p < fuel) (sound : code.Sound s)
    (runs : s.stack t = p :: below) (alone : ∀ l u, s.owner l = some u → u = t) :
    ∃ k, (code.threads T).Runs s (.replicate k (.step t)) ∧
      ((code.threads T).run s (.replicate k (.step t))).memory = code.finish fuel p s.memory ∧
      ((code.threads T).run s (.replicate k (.step t))).stack = Function.update s.stack t below := by
  induction fuel generalizing s p with
  | zero => omega
  | succ fuel ih =>
    have free : ∀ l ∈ code.takes p, s.owner l = none := by
      intro l takes
      by_contra taken
      obtain ⟨u, owner⟩ := Option.ne_none_iff_exists'.mp taken
      obtain rfl := alone l u owner
      obtain ⟨q, top, held⟩ := (sound.owned u l).mp owner
      obtain rfl : p = q := by simpa [runs] using top
      exact lt_irrefl l (code.takes_above p l takes l held)
    have ready : code.Ready s t := ⟨p, by simp [runs], free⟩
    have stepped : (code.threads T).next s (.step t) = code.ran s t p below := next_step runs
    cases acted : (code.act p s.memory).2 with
    | none =>
      refine ⟨1, ⟨ready, trivial⟩, ?_, ?_⟩
      · simp [stepped, finish, acted]
      · simp [stepped, acted]
    | some q =>
      have fewer := code.left_lt p s.memory q acted
      have stack : (code.ran s t p below).stack t = q :: below := by simp [acted]
      have own : ∀ l u, (code.ran s t p below).owner l = some u → u = t := by
        intro l u owner
        rw [ran_owner] at owner
        split_ifs at owner
        · exact (Option.some.inj owner).symm
        · exact alone l u owner
      obtain ⟨k, further, memory, reached⟩ := ih (by omega) (sound_ran sound runs free) stack own
      refine ⟨k + 1, ⟨ready, ?_⟩, ?_, ?_⟩
      · rw [stepped]
        exact further
      · simp only [List.replicate_succ, Machine.run_cons, stepped, memory, finish, acted,
          Option.elim_some, ran_memory]
      · simp only [List.replicate_succ, Machine.run_cons, stepped, reached, ran_stack,
          Function.update_idem]

end Soundness

section Progress
variable [PartialOrder L] {code : LockCode P L M} {s : Threads T P L M} {t : T} {p : P}
variable {below : List P}

/-- No deadlock: of the locks that threads wait for, a greatest one is held by a thread
that waits for none. -/
theorem some_ready [Finite T] (sound : code.Sound s) (busy : s.stack t ≠ []) :
    ∃ u, code.Ready s u := by
  by_contra none_ready
  have stuck : ∀ u, ¬ code.Ready s u := fun u ready => none_ready ⟨u, ready⟩
  let wanted : Set L := {l | ∃ u, ∃ p ∈ (s.stack u).head?, code.takes p = some l}
  have finite : wanted.Finite := by
    have wants := Set.finite_range fun u => (s.stack u).head?.bind code.takes
    refine (wants.preimage (Option.some_injective L).injOn).subset ?_
    rintro l ⟨u, p, first, takes⟩
    exact ⟨u, Option.bind_eq_some_iff.mpr ⟨p, first, takes⟩⟩
  have nonempty : wanted.Nonempty := by
    obtain ⟨p, below, runs⟩ := List.exists_cons_of_ne_nil busy
    have first : p ∈ (s.stack t).head? := by simp [runs]
    obtain ⟨l, takes, _⟩ := blocked first (stuck t)
    exact ⟨l, t, p, first, takes⟩
  obtain ⟨l, greatest⟩ := finite.exists_maximal nonempty
  obtain ⟨u, p, first, takes⟩ := greatest.prop
  obtain ⟨l', takes', v, owner⟩ := blocked first (stuck u)
  obtain rfl : l = l' := Option.some.inj (takes.symm.trans takes')
  obtain ⟨q, top, held⟩ := (sound.owned v l).mp owner
  obtain ⟨higher, wants, _⟩ := blocked top (stuck v)
  have above : l < higher := code.takes_above q higher wants l held
  exact above.not_ge (greatest.le_of_ge ⟨v, q, top, wants⟩ above.le)

/-- A bound on the steps still ahead of all threads. -/
def ahead [Fintype T] (code : LockCode P L M) (s : Threads T P L M) : Nat :=
  ∑ t, ((s.stack t).map fun p => code.left p + 1).sum

variable [DecidableEq T] [DecidableEq L]

theorem ran_spends [Fintype T] (runs : s.stack t = p :: below) :
    code.ahead (code.ran s t p below) < code.ahead s := by
  have less : (((code.act p s.memory).2.toList ++ below).map fun p => code.left p + 1).sum <
      ((p :: below).map fun p => code.left p + 1).sum := by
    cases after : (code.act p s.memory).2 with
    | none => simp
    | some q =>
      have fewer := code.left_lt p s.memory q after
      simp only [Option.toList_some, List.cons_append, List.nil_append, List.map_cons, List.sum_cons]
      omega
  simp only [ahead, ran_stack]
  refine Finset.sum_lt_sum (fun u _ => ?_) ⟨t, Finset.mem_univ t, ?_⟩
  · by_cases mine : u = t
    · subst mine
      rw [Function.update_self, runs]
      exact less.le
    · rw [Function.update_of_ne mine]
  · rw [Function.update_self, runs]
    exact less

theorem step_spends [Fintype T] {e : ThreadEvent T P} (enabled : (code.threads T).enabled s e)
    (steps : e.IsStep) : code.ahead ((code.threads T).next s e) < code.ahead s := by
  cases e with
  | enter t p => exact steps.elim
  | step t =>
    obtain ⟨p, first, _⟩ := enabled
    obtain ⟨below, runs⟩ := List.head?_eq_some_iff.mp first
    rw [next_step runs]
    exact ran_spends runs

/-- However the threads are scheduled, the calls under way take no more steps than that. -/
theorem steps_le_ahead [Fintype T] (es : List (ThreadEvent T P)) (runs : (code.threads T).Runs s es)
    (steps : ∀ e ∈ es, e.IsStep) : es.length ≤ code.ahead s := by
  induction es generalizing s with
  | nil => exact Nat.zero_le _
  | cons e es ih =>
    have spent := step_spends runs.1 (steps e List.mem_cons_self)
    have rest := ih runs.2 fun later among => steps later (List.mem_cons_of_mem _ among)
    rw [List.length_cons]
    omega

/-- Nor can they stop before every call has returned. -/
theorem schedule_returns [Fintype T] (sound : code.Sound s) (es : List (ThreadEvent T P))
    (runs : (code.threads T).Runs s es) (steps : ∀ e ∈ es, e.IsStep) :
    es.length ≤ code.ahead s ∧
      ((∀ t, ((code.threads T).run s es).stack t = []) ∨
        ∃ u, code.Ready ((code.threads T).run s es) u) := by
  refine ⟨steps_le_ahead es runs steps, ?_⟩
  by_cases idle : ∀ t, ((code.threads T).run s es).stack t = []
  · exact .inl idle
  · obtain ⟨t, busy⟩ := not_forall.mp idle
    have after : code.Sound ((code.threads T).run s es) := Machine.invariant sound_step es sound runs
    exact .inr (some_ready after busy)

end Progress

end LockCode
