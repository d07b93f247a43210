import Mathlib.Data.List.Induction

/-! Deterministic machines driven by an external schedule of labels. All
nondeterminism is in the schedule, so a run is a list of labels and both the
run and the conditions along it are computed by recursion on that list. -/

structure Machine (S E : Type) where
  enabled : S → E → Prop
  next : S → E → S

namespace Machine
variable {S E : Type} (m : Machine S E)

def run (s : S) (es : List E) : S :=
  es.foldl m.next s

/-- Every label of the schedule is enabled where it is taken. -/
def Runs (s : S) : List E → Prop
  | [] => True
  | e :: es => m.enabled s e ∧ Runs (m.next s e) es

/-- Every step of the schedule meets `P` in the state it is taken from. -/
def Along (P : S → E → Prop) (s : S) : List E → Prop
  | [] => True
  | e :: es => P s e ∧ Along P (m.next s e) es

def Reachable (init s : S) : Prop :=
  ∃ es, m.Runs init es ∧ m.run init es = s

instance decidableRuns [∀ s e, Decidable (m.enabled s e)] (s : S) (es : List E) :
    Decidable (m.Runs s es) :=
  match es with
  | [] => isTrue trivial
  | e :: es =>
    have := decidableRuns (m.next s e) es
    inferInstanceAs (Decidable (_ ∧ _))

instance decidableAlong (P : S → E → Prop) [∀ s e, Decidable (P s e)] (s : S) (es : List E) :
    Decidable (m.Along P s es) :=
  match es with
  | [] => isTrue trivial
  | e :: es =>
    have := decidableAlong P (m.next s e) es
    inferInstanceAs (Decidable (_ ∧ _))

variable {m} {P : S → E → Prop} {Inv : S → Prop} {s : S}

@[simp] theorem run_nil : m.run s [] = s := rfl

@[simp] theorem run_cons (e : E) (es : List E) : m.run s (e :: es) = m.run (m.next s e) es := rfl

@[simp] theorem run_append (es fs : List E) : m.run s (es ++ fs) = m.run (m.run s es) fs := by
  simp only [run, List.foldl_append]

theorem runs_append (es fs : List E) :
    m.Runs s (es ++ fs) ↔ m.Runs s es ∧ m.Runs (m.run s es) fs := by
  induction es generalizing s with
  | nil => simp [Runs]
  | cons e es ih => simp only [List.cons_append, Runs, ih, run_cons, and_assoc]

theorem along_append (es fs : List E) :
    m.Along P s (es ++ fs) ↔ m.Along P s es ∧ m.Along P (m.run s es) fs := by
  induction es generalizing s with
  | nil => simp [Along]
  | cons e es ih => simp only [List.cons_append, Along, ih, run_cons, and_assoc]

theorem runs_snoc (es : List E) (e : E) :
    m.Runs s (es ++ [e]) ↔ m.Runs s es ∧ m.enabled (m.run s es) e := by
  simp only [runs_append, Runs, and_true]

theorem along_snoc (es : List E) (e : E) :
    m.Along P s (es ++ [e]) ↔ m.Along P s es ∧ P (m.run s es) e := by
  simp only [along_append, Along, and_true]

theorem along_mono {R : S → E → Prop} (weaker : ∀ s e, P s e → R s e) (es : List E)
    (meets : m.Along P s es) : m.Along R s es := by
  induction es generalizing s with
  | nil => trivial
  | cons e es ih => exact ⟨weaker s e meets.1, ih meets.2⟩

/-- What one step preserves under a condition on the step, a whole run whose
steps all meet the condition preserves. -/
theorem invariant_along
    (preserves : ∀ s e, Inv s → m.enabled s e → P s e → Inv (m.next s e))
    (es : List E) (initial : Inv s) (runs : m.Runs s es) (meets : m.Along P s es) :
    Inv (m.run s es) := by
  induction es generalizing s with
  | nil => exact initial
  | cons e es ih => exact ih (preserves s e initial runs.1 meets.1) runs.2 meets.2

/-- Along such a run every step meets what the condition gives in a state of the
invariant. -/
theorem along_of_invariant_along {R : S → E → Prop}
    (preserves : ∀ s e, Inv s → m.enabled s e → P s e → Inv (m.next s e))
    (each : ∀ s e, Inv s → m.enabled s e → P s e → R s e)
    (es : List E) (initial : Inv s) (runs : m.Runs s es) (meets : m.Along P s es) :
    m.Along R s es := by
  induction es generalizing s with
  | nil => trivial
  | cons e es ih =>
    refine ⟨each s e initial runs.1 meets.1, ?_⟩
    exact ih (preserves s e initial runs.1 meets.1) runs.2 meets.2

/-- Where an invariant that is enough for `Good` is kept by every step that
meets `P`, and `Good` is lost at once by every step that does not, a run is
`Good` in every state exactly when each of its steps meets `P`. -/
theorem prefixes_iff (Good : S → Prop) (sound : ∀ s, Inv s → Good s)
    (keeps : ∀ s e, Inv s → m.enabled s e → P s e → Inv (m.next s e))
    (breaks : ∀ s e, Inv s → m.enabled s e → Good (m.next s e) → P s e)
    (es : List E) (initial : Inv s) (runs : m.Runs s es) :
    (∀ k, Good (m.run s (es.take k))) ↔ m.Along P s es := by
  induction es generalizing s with
  | nil => simpa [Along] using sound s initial
  | cons e es ih =>
    constructor
    · intro always
      have after : Good (m.next s e) := by simpa using always 1
      have meets := breaks s e initial runs.1 after
      have rest := ih (keeps s e initial runs.1 meets) runs.2
      exact ⟨meets, rest.mp (fun k => by simpa using always (k + 1))⟩
    · rintro ⟨meets, later⟩ k
      have rest := ih (keeps s e initial runs.1 meets) runs.2
      cases k with
      | zero => simpa using sound s initial
      | succ k => simpa using rest.mpr later k

/-- The case of a condition that one step keeps exactly under `P`. -/
theorem prefixes_iff_of_exact_step (Good : S → Prop)
    (preserves : ∀ s e, Inv s → m.enabled s e → Inv (m.next s e))
    (exact_step : ∀ s e, Inv s → Good s → m.enabled s e → (Good (m.next s e) ↔ P s e))
    (es : List E) (initial : Inv s) (good : Good s) (runs : m.Runs s es) :
    (∀ k, Good (m.run s (es.take k))) ↔ m.Along P s es := by
  have sound : ∀ s, Inv s ∧ Good s → Good s := fun _ inv => inv.2
  have keeps : ∀ s e, Inv s ∧ Good s → m.enabled s e → P s e →
      Inv (m.next s e) ∧ Good (m.next s e) := fun s e inv enabled meets =>
    ⟨preserves s e inv.1 enabled, (exact_step s e inv.1 inv.2 enabled).mpr meets⟩
  have breaks : ∀ s e, Inv s ∧ Good s → m.enabled s e → Good (m.next s e) → P s e :=
    fun s e inv enabled => (exact_step s e inv.1 inv.2 enabled).mp
  exact prefixes_iff Good sound keeps breaks es ⟨initial, good⟩ runs

/-- Two conditions that agree on every step from a state of the invariant agree
on every run. -/
theorem along_iff {R : S → E → Prop}
    (preserves : ∀ s e, Inv s → m.enabled s e → Inv (m.next s e))
    (agree : ∀ s e, Inv s → m.enabled s e → (P s e ↔ R s e))
    (es : List E) (initial : Inv s) (runs : m.Runs s es) : m.Along P s es ↔ m.Along R s es := by
  induction es generalizing s with
  | nil => exact Iff.rfl
  | cons e es ih =>
    have rest := ih (preserves s e initial runs.1) runs.2
    exact and_congr (agree s e initial runs.1) rest

theorem along_true (es : List E) : m.Along (fun _ _ => True) s es := by
  induction es generalizing s with
  | nil => trivial
  | cons e es ih => exact ⟨trivial, ih⟩

/-- A condition on the labels alone. -/
theorem along_of_forall {R : E → Prop} (es : List E) (each : ∀ e ∈ es, R e) :
    m.Along (fun _ e => R e) s es := by
  induction es generalizing s with
  | nil => trivial
  | cons e es ih =>
    exact ⟨each e List.mem_cons_self, ih fun later member => each later (List.mem_cons_of_mem _ member)⟩

/-- What every step from a state of the invariant meets, every step of a run
meets. -/
theorem along_of_invariant (preserves : ∀ s e, Inv s → m.enabled s e → Inv (m.next s e))
    (each : ∀ s e, Inv s → m.enabled s e → P s e)
    (es : List E) (initial : Inv s) (runs : m.Runs s es) : m.Along P s es :=
  (along_iff preserves (fun s e inv enabled => iff_of_true trivial (each s e inv enabled))
    es initial runs).mp (along_true es)

theorem invariant (preserves : ∀ s e, Inv s → m.enabled s e → Inv (m.next s e))
    (es : List E) (initial : Inv s) (runs : m.Runs s es) : Inv (m.run s es) :=
  invariant_along (P := fun _ _ => True) (fun s e inv enabled _ => preserves s e inv enabled)
    es initial runs (along_true es)

/-- Where related states take the same steps and stay related, they have the same
runs and every run leaves them related. -/
theorem related_run {R : S → S → Prop} (same : ∀ s t e, R s t → (m.enabled s e ↔ m.enabled t e))
    (keeps : ∀ s t e, R s t → m.enabled s e → R (m.next s e) (m.next t e)) {s t : S}
    (es : List E) (related : R s t) :
    (m.Runs s es ↔ m.Runs t es) ∧ (m.Runs s es → R (m.run s es) (m.run t es)) := by
  induction es generalizing s t with
  | nil => exact ⟨Iff.rfl, fun _ => related⟩
  | cons e es ih =>
    have first := same s t e related
    refine ⟨?_, fun runs => (ih (keeps s t e related runs.1)).2 runs.2⟩
    constructor
    · intro runs
      exact ⟨first.mp runs.1, (ih (keeps s t e related runs.1)).1.mp runs.2⟩
    · intro runs
      have enabled := first.mpr runs.1
      exact ⟨enabled, (ih (keeps s t e related enabled)).1.mpr runs.2⟩

/-- Invariants that speak about the schedule taken so far as well as the state
it leads to. -/
theorem history_invariant (Hist : List E → S → Prop) (initial : Hist [] s)
    (grows : ∀ es e, Hist es (m.run s es) → m.enabled (m.run s es) e →
      Hist (es ++ [e]) (m.next (m.run s es) e))
    (es : List E) (runs : m.Runs s es) : Hist es (m.run s es) := by
  induction es using List.reverseRecOn with
  | nil => exact initial
  | append_singleton es e ih =>
    obtain ⟨before, enabled⟩ := (runs_snoc es e).mp runs
    have step := grows es e (ih before) enabled
    simpa only [run_append, run_cons, run_nil] using step

namespace Reachable
variable {init t : S}

theorem refl : m.Reachable s s := ⟨[], trivial, rfl⟩

theorem step (reached : m.Reachable init s) {e : E} (enabled : m.enabled s e) :
    m.Reachable init (m.next s e) := by
  obtain ⟨es, runs, rfl⟩ := reached
  exact ⟨es ++ [e], (runs_snoc es e).mpr ⟨runs, enabled⟩, by simp⟩

theorem runs (reached : m.Reachable init s) {es : List E} (runs : m.Runs s es) :
    m.Reachable init (m.run s es) := by
  obtain ⟨fs, first, rfl⟩ := reached
  exact ⟨fs ++ es, (runs_append fs es).mpr ⟨first, runs⟩, by simp⟩

theorem invariant (preserves : ∀ s e, Inv s → m.enabled s e → Inv (m.next s e))
    (initial : Inv init) (reached : m.Reachable init s) : Inv s := by
  obtain ⟨es, runs, rfl⟩ := reached
  exact Machine.invariant preserves es initial runs

end Reachable
end Machine
