import MeshPbx.Lib.Machine

/-! Memories with a record of the accesses made to them. A record accounts for a
change of state when every cell that changed is covered by an access in it. Where
the accesses of every step of a run are safe, a cell that no safe access covers
holds at the end what it held at the start. -/

structure Footprint (S C : Type) (V : C → Type) (A : Type) where
  read : S → (c : C) → V c
  covers : A → C → Prop

namespace Footprint
variable {S C A E : Type} {V : C → Type} (f : Footprint S C V A)

/-- The two states agree in every cell that no access of the record covers. -/
def Accounts (record : List A) (s t : S) : Prop :=
  ∀ c, (∀ a ∈ record, ¬ f.covers a c) → f.read t c = f.read s c

/-- The memory seen through a part of its state, the rest being fixed. -/
def comap {S' : Type} (whole : S' → S) : Footprint S' C V A where
  read s c := f.read (whole s) c
  covers := f.covers

variable {f} {s t u : S} {first later record : List A}

theorem accounts_of_same (same : ∀ c, f.read t c = f.read s c) : f.Accounts record s t :=
  fun c _ => same c

theorem accounts_append (before : f.Accounts first s t) (after : f.Accounts later t u) :
    f.Accounts (first ++ later) s u := by
  intro c uncovered
  have earlier := before c (fun a member => uncovered a (List.mem_append_left later member))
  have rest := after c (fun a member => uncovered a (List.mem_append_right first member))
  exact rest.trans earlier

/-- The accesses of a schedule, each step making those its record lists. -/
def trail (m : Machine S E) (record : S → E → List A) : S → List E → List A
  | _, [] => []
  | s, e :: es => record s e ++ trail m record (m.next s e) es

variable {m : Machine S E} {records : S → E → List A} {Safe : A → Prop}

/-- Where each step's accesses account for it, those of a schedule account for the
whole run. -/
theorem trail_accounts (each : ∀ s e, f.Accounts (records s e) s (m.next s e)) (es : List E) :
    f.Accounts (trail m records s es) s (m.run s es) := by
  induction es generalizing s with
  | nil => exact accounts_of_same fun _ => rfl
  | cons e es ih => exact accounts_append (each s e) ih

/-- Accesses that are safe in every state are safe along every schedule. -/
theorem trail_forall {es : List E} (each : ∀ e ∈ es, ∀ s, ∀ a ∈ records s e, Safe a) :
    ∀ a ∈ trail m records s es, Safe a := by
  induction es generalizing s with
  | nil => exact List.forall_mem_nil _
  | cons e es ih =>
    intro a member
    rcases List.mem_append.mp member with now | rest
    · exact each e List.mem_cons_self s a now
    · exact ih (fun other among => each other (List.mem_cons_of_mem e among)) a rest

/-- A cell out of reach of every safe access is never changed by safe steps. -/
theorem untouched_run {c : C} (outOfReach : ∀ a, Safe a → ¬ f.covers a c) (es : List E)
    (along : m.Along (fun s e => (∀ a ∈ records s e, Safe a) ∧
      f.Accounts (records s e) s (m.next s e)) s es) : f.read (m.run s es) c = f.read s c := by
  induction es generalizing s with
  | nil => rfl
  | cons e es ih =>
    obtain ⟨⟨safe, accounts⟩, rest⟩ := along
    have step := accounts c (fun a member => outOfReach a (safe a member))
    exact (ih rest).trans step

end Footprint
