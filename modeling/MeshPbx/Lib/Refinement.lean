import MeshPbx.Lib.Trace

/-! Refinement of one machine by another. Every state of the concrete machine has a view,
every step the labels of the abstract steps that it takes, and what the abstract machine
keeps in its runs holds of the views. Refinements compose. -/

namespace Machine
variable {S E T F U G : Type}

structure Refinement (m : Machine S E) (a : Machine T F) where
  Inv : S → Prop
  view : S → T
  label : S → E → List F
  keeps : ∀ s e, Inv s → m.enabled s e → Inv (m.next s e)
  step : ∀ s e, Inv s → m.enabled s e →
    a.Runs (view s) (label s e) ∧ a.run (view s) (label s e) = view (m.next s e)

namespace Refinement
variable {m : Machine S E} {a : Machine T F} {b : Machine U G} {s : S}

/-- The abstract run that a concrete run takes. -/
def abstract (r : m.Refinement a) (s : S) (es : List E) : List F := m.trace r.label s es

theorem run (r : m.Refinement a) (es : List E) (initial : r.Inv s) (runs : m.Runs s es) :
    a.Runs (r.view s) (r.abstract s es) ∧ a.run (r.view s) (r.abstract s es) = r.view (m.run s es) := by
  induction es generalizing s with
  | nil => exact ⟨trivial, rfl⟩
  | cons e es ih =>
    obtain ⟨enabled, later⟩ := runs
    obtain ⟨taken, reached⟩ := r.step s e initial enabled
    obtain ⟨rest, final⟩ := ih (r.keeps s e initial enabled) later
    rw [← reached] at rest final
    exact ⟨(runs_append _ _).mpr ⟨taken, rest⟩, (run_append _ _).trans final⟩

/-- Where the abstract steps of each concrete step meet a condition, those of a run do. -/
theorem along (r : m.Refinement a) {P : T → F → Prop} {Q : S → E → Prop}
    (each : ∀ s e, r.Inv s → m.enabled s e → Q s e → a.Along P (r.view s) (r.label s e))
    (es : List E) (initial : r.Inv s) (runs : m.Runs s es) (meets : m.Along Q s es) :
    a.Along P (r.view s) (r.abstract s es) := by
  induction es generalizing s with
  | nil => trivial
  | cons e es ih =>
    have first := each s e initial runs.1 meets.1
    have rest := ih (r.keeps s e initial runs.1) runs.2 meets.2
    rw [← (r.step s e initial runs.1).2] at rest
    exact (along_append _ _).mpr ⟨first, rest⟩

/-- What holds of the abstract machine in all its runs holds of the views. -/
theorem transfers (r : m.Refinement a) {P : List F → T → Prop} (es : List E) (initial : r.Inv s)
    (runs : m.Runs s es) (holds : ∀ fs, a.Runs (r.view s) fs → P fs (a.run (r.view s) fs)) :
    P (r.abstract s es) (r.view (m.run s es)) := by
  obtain ⟨taken, reached⟩ := r.run es initial runs
  exact reached ▸ holds _ taken

def comp (r : m.Refinement a) (q : a.Refinement b) : m.Refinement b where
  Inv s := r.Inv s ∧ q.Inv (r.view s)
  view s := q.view (r.view s)
  label s e := q.abstract (r.view s) (r.label s e)
  keeps s e both enabled := by
    obtain ⟨taken, reached⟩ := r.step s e both.1 enabled
    exact ⟨r.keeps s e both.1 enabled, reached ▸ Machine.invariant q.keeps _ both.2 taken⟩
  step s e both enabled := by
    obtain ⟨taken, reached⟩ := r.step s e both.1 enabled
    obtain ⟨made, arrived⟩ := q.run _ both.2 taken
    exact ⟨made, reached ▸ arrived⟩

end Refinement
end Machine
