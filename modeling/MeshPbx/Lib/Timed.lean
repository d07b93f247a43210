import MeshPbx.Lib.Machine

/-! Machines in time. A timer is the number of units left until it runs out, `none`
while it is idle. Time passes a unit at a time and never past a timer that has run
out, so that what a timer governs happens when it is due. An observer follows a
machine in time without taking part in it. -/

abbrev Timer := Option Nat

namespace Timer
variable {t : Timer} {watch bound : Nat}

def elapse (t : Timer) : Timer := t.map (· - 1)

/-- The timer runs, and will have run out by the time the watch shows the bound. -/
def Within (t : Timer) (watch bound : Nat) : Prop :=
  ∃ left, t = some left ∧ watch + left ≤ bound

@[simp] theorem elapse_none : elapse none = none := rfl

@[simp] theorem isSome_elapse (t : Timer) : t.elapse.isSome = t.isSome := Option.isSome_map

theorem within_some {left : Nat} : Within (some left) watch bound ↔ watch + left ≤ bound := by
  simp [Within]

theorem Within.le (within : t.Within watch bound) : watch ≤ bound := by
  obtain ⟨left, _, sum⟩ := within
  omega

/-- Time takes from the timer what it adds to the watch. -/
theorem Within.tick (within : t.Within watch bound) (running : t ≠ some 0) :
    t.elapse.Within (watch + 1) bound := by
  obtain ⟨left, rfl, sum⟩ := within
  have positive : left ≠ 0 := fun out => running (by rw [out])
  exact ⟨left - 1, rfl, by omega⟩

theorem Within.mono (within : t.Within watch bound) {watch' bound' : Nat}
    (slack : watch' + bound ≤ watch + bound') : t.Within watch' bound' := by
  obtain ⟨left, running, sum⟩ := within
  exact ⟨left, running, by omega⟩

/-- The timer will run out in the unit in which the watch shows the bound. -/
def Meets (t : Timer) (watch bound : Nat) : Prop :=
  ∃ left, t = some left ∧ watch + left = bound

theorem meets_set (bound : Nat) : Meets (some bound) 0 bound := ⟨bound, rfl, Nat.zero_add bound⟩

theorem Meets.within (meets : t.Meets watch bound) : t.Within watch bound := by
  obtain ⟨left, running, sum⟩ := meets
  exact ⟨left, running, Nat.le_of_eq sum⟩

theorem Meets.tick (meets : t.Meets watch bound) (running : t ≠ some 0) :
    t.elapse.Meets (watch + 1) bound := by
  obtain ⟨left, rfl, sum⟩ := meets
  have positive : left ≠ 0 := fun out => running (by rw [out])
  exact ⟨left - 1, rfl, by omega⟩

/-- A timer that has met its watch has run out when the watch shows the bound. -/
theorem Meets.out (meets : t.Meets watch bound) (out : t = some 0) : watch = bound := by
  obtain ⟨left, running, sum⟩ := meets
  have zero : left = 0 := Option.some.inj (running.symm.trans out)
  omega

end Timer

/-- What happens to a machine in time. -/
inductive Ticked (E : Type) where
  | tick
  | act (e : E)

/-- How time acts on the states of a machine: what a unit of it does, in which states a
timer has run out, and which labels the timers hold back. -/
structure Clockwork (S E : Type) where
  elapse : S → S
  Due : S → Prop
  Timely : S → E → Prop

/-- Something followed along the steps of a machine and the passing of time. -/
structure Observer (S E O : Type) where
  tick : O → O
  act : O → S → E → O

namespace Machine
variable {S E O : Type}

/-- The machine in time, with an observer of it. -/
def timed (m : Machine S E) (c : Clockwork S E) (watch : Observer S E O) :
    Machine (S × O) (Ticked E) where
  enabled
    | (s, _), .tick => ¬ c.Due s
    | (s, _), .act e => m.enabled s e ∧ c.Timely s e
  next
    | (s, o), .tick => (c.elapse s, watch.tick o)
    | (s, o), .act e => (m.next s e, watch.act o s e)

variable {m : Machine S E} {c : Clockwork S E} {watch : Observer S E O} {s : S} {o : O}

@[simp] theorem timed_enabled_tick : (m.timed c watch).enabled (s, o) .tick ↔ ¬ c.Due s := Iff.rfl

@[simp] theorem timed_enabled_act {e : E} :
    (m.timed c watch).enabled (s, o) (.act e) ↔ m.enabled s e ∧ c.Timely s e := Iff.rfl

@[simp] theorem timed_next_tick :
    (m.timed c watch).next (s, o) .tick = (c.elapse s, watch.tick o) := rfl

@[simp] theorem timed_next_act (e : E) :
    (m.timed c watch).next (s, o) (.act e) = (m.next s e, watch.act o s e) := rfl

/-- A condition on the steps of a machine, asked of its steps in time. -/
def Acting (P : S → E → Prop) : S × O → Ticked E → Prop
  | _, .tick => True
  | (s, _), .act e => P s e

/-- What the passing of time preserves, and every timely step that meets a condition,
a run in time whose steps all meet the condition preserves. -/
theorem timed_invariant_along {Inv : S × O → Prop} {P : S → E → Prop}
    (ticks : ∀ s o, Inv (s, o) → ¬ c.Due s → Inv (c.elapse s, watch.tick o))
    (acts : ∀ s o e, Inv (s, o) → m.enabled s e → c.Timely s e → P s e →
      Inv (m.next s e, watch.act o s e))
    (es : List (Ticked E)) (initial : Inv (s, o)) (runs : (m.timed c watch).Runs (s, o) es)
    (meets : (m.timed c watch).Along (Acting P) (s, o) es) :
    Inv ((m.timed c watch).run (s, o) es) := by
  refine invariant_along (P := Acting P) ?_ es initial runs meets
  rintro ⟨s, o⟩ (_ | e) inv enabled meets
  · exact ticks s o inv enabled
  · exact acts s o e inv enabled.1 enabled.2 meets

theorem timed_invariant {Inv : S × O → Prop}
    (ticks : ∀ s o, Inv (s, o) → ¬ c.Due s → Inv (c.elapse s, watch.tick o))
    (acts : ∀ s o e, Inv (s, o) → m.enabled s e → c.Timely s e →
      Inv (m.next s e, watch.act o s e))
    (es : List (Ticked E)) (initial : Inv (s, o)) (runs : (m.timed c watch).Runs (s, o) es) :
    Inv ((m.timed c watch).run (s, o) es) := by
  refine invariant ?_ es initial runs
  rintro ⟨s, o⟩ (_ | e) inv enabled
  · exact ticks s o inv enabled
  · exact acts s o e inv enabled.1 enabled.2

end Machine
