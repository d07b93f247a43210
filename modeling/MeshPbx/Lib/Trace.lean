import MeshPbx.Lib.Machine

/-! What a run of a machine puts out. Each step has its outputs, and the trace of a run
is those of its steps, one after the other. An invariant may relate the state to the
trace that led to it. -/

namespace Machine
variable {S E O : Type} {m : Machine S E} {out : S → E → List O} {s : S}

def trace (m : Machine S E) (out : S → E → List O) (s : S) : List E → List O
  | [] => []
  | e :: es => out s e ++ m.trace out (m.next s e) es

@[simp] theorem trace_nil : m.trace out s [] = [] := rfl

@[simp] theorem trace_cons (e : E) (es : List E) :
    m.trace out s (e :: es) = out s e ++ m.trace out (m.next s e) es := rfl

theorem trace_append (es fs : List E) :
    m.trace out s (es ++ fs) = m.trace out s es ++ m.trace out (m.run s es) fs := by
  induction es generalizing s with
  | nil => rfl
  | cons e es ih => simp only [List.cons_append, trace_cons, ih, run_cons, List.append_assoc]

/-- A relation between the state and what has been put out so far, kept by every step
that meets a condition. -/
theorem trace_invariant_from {Inv : S → List O → Prop} {P : S → E → Prop}
    (preserves : ∀ s before e, Inv s before → m.enabled s e → P s e →
      Inv (m.next s e) (before ++ out s e))
    (es : List E) (before : List O) (initial : Inv s before) (runs : m.Runs s es)
    (meets : m.Along P s es) : Inv (m.run s es) (before ++ m.trace out s es) := by
  induction es generalizing s before with
  | nil => simpa using initial
  | cons e es ih =>
    have next := preserves s before e initial runs.1 meets.1
    have rest := ih _ next runs.2 meets.2
    rwa [List.append_assoc] at rest

theorem trace_invariant_along {Inv : S → List O → Prop} {P : S → E → Prop}
    (preserves : ∀ s before e, Inv s before → m.enabled s e → P s e →
      Inv (m.next s e) (before ++ out s e))
    (es : List E) (initial : Inv s []) (runs : m.Runs s es) (meets : m.Along P s es) :
    Inv (m.run s es) (m.trace out s es) :=
  trace_invariant_from preserves es [] initial runs meets

theorem trace_invariant {Inv : S → List O → Prop}
    (preserves : ∀ s before e, Inv s before → m.enabled s e →
      Inv (m.next s e) (before ++ out s e))
    (es : List E) (initial : Inv s []) (runs : m.Runs s es) :
    Inv (m.run s es) (m.trace out s es) :=
  trace_invariant_along (P := fun _ _ => True)
    (fun s before e inv enabled _ => preserves s before e inv enabled) es initial runs (along_true es)

/-! What an observer makes of a run: each step is noted in the state it is taken from. -/

section
variable {G : Type} {note : S → E → G → G} {g : G}

def noted (m : Machine S E) (note : S → E → G → G) (s : S) (g : G) : List E → G
  | [] => g
  | e :: es => m.noted note (m.next s e) (note s e g) es

@[simp] theorem noted_nil : m.noted note s g [] = g := rfl

@[simp] theorem noted_cons (e : E) (es : List E) :
    m.noted note s g (e :: es) = m.noted note (m.next s e) (note s e g) es := rfl

theorem noted_append (es fs : List E) :
    m.noted note s g (es ++ fs) = m.noted note (m.run s es) (m.noted note s g es) fs := by
  induction es generalizing s g with
  | nil => rfl
  | cons e es ih => simp only [List.cons_append, noted_cons, ih, run_cons]

/-- A relation between the state and the notes, kept by every step that meets a
condition. -/
theorem noted_invariant_along {Inv : S → G → Prop} {P : S → E → Prop}
    (preserves : ∀ s g e, Inv s g → m.enabled s e → P s e → Inv (m.next s e) (note s e g))
    (es : List E) (initial : Inv s g) (runs : m.Runs s es) (meets : m.Along P s es) :
    Inv (m.run s es) (m.noted note s g es) := by
  induction es generalizing s g with
  | nil => exact initial
  | cons e es ih => exact ih (preserves s g e initial runs.1 meets.1) runs.2 meets.2

end

/-- Each output is one of a step of the run. -/
theorem mem_trace {o : O} {es : List E} (member : o ∈ m.trace out s es) :
    ∃ t, ∃ e ∈ es, o ∈ out t e := by
  induction es generalizing s with
  | nil => exact absurd member List.not_mem_nil
  | cons e es ih =>
    rcases List.mem_append.mp member with here | later
    · exact ⟨s, e, List.mem_cons_self, here⟩
    · obtain ⟨t, f, among, there⟩ := ih later
      exact ⟨t, f, List.mem_cons_of_mem _ among, there⟩

end Machine
