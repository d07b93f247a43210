import Mathlib.Data.List.Basic

/-! Greedy packing under two caps. Items are offered one by one to a store that
keeps an item where the number of items and their total size stay within the
caps, and refuses it otherwise. No decision is taken back, so what is kept
depends on the order in which the items come. -/

structure Packing (α : Type) where
  size : α → Nat
  maxCount : Nat
  maxSize : Nat

namespace Packing
variable {α : Type} (k : Packing α)

def total : List α → Nat
  | [] => 0
  | x :: xs => k.size x + total xs

/-- The items lie within both caps. -/
def Fits (items : List α) : Prop :=
  items.length ≤ k.maxCount ∧ k.total items ≤ k.maxSize

instance (items : List α) : Decidable (k.Fits items) :=
  inferInstanceAs (Decidable (_ ∧ _))

/-- What is kept of the items, offered in order behind what is kept already. -/
def taken (kept : List α) : List α → List α
  | [] => []
  | x :: xs => if k.Fits (kept ++ [x]) then x :: taken (kept ++ [x]) xs else taken kept xs

variable {k} {kept items : List α} {x : α}

theorem taken_accepted (fits : k.Fits (kept ++ [x])) (items : List α) :
    k.taken kept (x :: items) = x :: k.taken (kept ++ [x]) items :=
  if_pos fits

theorem taken_refused (full : ¬ k.Fits (kept ++ [x])) (items : List α) :
    k.taken kept (x :: items) = k.taken kept items :=
  if_neg full

theorem total_append (first second : List α) :
    k.total (first ++ second) = k.total first + k.total second := by
  induction first with
  | nil => exact (Nat.zero_add _).symm
  | cons x first ih => simp only [List.cons_append, total, ih, Nat.add_assoc]

theorem total_replicate (count : Nat) (x : α) :
    k.total (List.replicate count x) = count * k.size x := by
  induction count with
  | zero => exact (Nat.zero_mul _).symm
  | succ count ih => rw [List.replicate_succ, total, ih, Nat.succ_mul, Nat.add_comm]

theorem total_sublist {part whole : List α} (sublist : part.Sublist whole) :
    k.total part ≤ k.total whole := by
  induction sublist with
  | slnil => exact Nat.le_refl _
  | cons x _ ih => exact Nat.le_trans ih (Nat.le_add_left _ _)
  | cons_cons x _ ih => exact Nat.add_le_add_left ih _

theorem fits_sublist {part whole : List α} (sublist : part.Sublist whole) (fits : k.Fits whole) :
    k.Fits part :=
  ⟨Nat.le_trans sublist.length_le fits.1, Nat.le_trans (total_sublist sublist) fits.2⟩

theorem taken_sublist (kept items : List α) : (k.taken kept items).Sublist items := by
  induction items generalizing kept with
  | nil => exact List.Sublist.slnil
  | cons x items ih =>
    by_cases fits : k.Fits (kept ++ [x])
    · rw [taken_accepted fits]
      exact (ih (kept ++ [x])).cons_cons x
    · rw [taken_refused fits]
      exact (ih kept).cons x

theorem taken_append (kept first second : List α) :
    k.taken kept (first ++ second) =
      k.taken kept first ++ k.taken (kept ++ k.taken kept first) second := by
  induction first generalizing kept with
  | nil => simp only [taken, List.nil_append, List.append_nil]
  | cons x first ih =>
    by_cases fits : k.Fits (kept ++ [x])
    · rw [List.cons_append, taken_accepted fits, taken_accepted fits, ih]
      simp only [List.append_assoc, List.cons_append, List.nil_append]
    · rw [List.cons_append, taken_refused fits, taken_refused fits, ih]

/-- The caps are never exceeded. -/
theorem taken_fits (items : List α) (fits : k.Fits kept) : k.Fits (kept ++ k.taken kept items) := by
  induction items generalizing kept with
  | nil => simpa only [taken, List.append_nil] using fits
  | cons x items ih =>
    by_cases room : k.Fits (kept ++ [x])
    · rw [taken_accepted room]
      simpa only [List.append_assoc, List.singleton_append] using ih room
    · rw [taken_refused room]
      exact ih fits

/-- Items that fit all together are all kept. -/
theorem taken_of_fits (fits : k.Fits (kept ++ items)) : k.taken kept items = items := by
  induction items generalizing kept with
  | nil => rfl
  | cons x items ih =>
    have split : kept ++ x :: items = kept ++ [x] ++ items := by simp
    rw [split] at fits
    have room : k.Fits (kept ++ [x]) := fits_sublist (List.sublist_append_left _ _) fits
    rw [taken_accepted room, ih fits]

/-- An item kept later would have fitted before as well. -/
theorem taken_fits_now (fits : k.Fits kept) (member : x ∈ k.taken kept items) :
    k.Fits (kept ++ [x]) := by
  have single : [x].Sublist (k.taken kept items) := List.singleton_sublist.mpr member
  exact fits_sublist (single.append_left kept) (taken_fits items fits)

/-- What is kept found room when it was offered. -/
theorem taken_offered (member : x ∈ k.taken kept items) :
    ∃ before after, items = before ++ x :: after ∧
      k.Fits (kept ++ k.taken kept before ++ [x]) := by
  induction items generalizing kept with
  | nil => exact absurd member List.not_mem_nil
  | cons y items ih =>
    by_cases room : k.Fits (kept ++ [y])
    · rw [taken_accepted room] at member
      rcases List.mem_cons.mp member with rfl | later
      · exact ⟨[], items, rfl, by simpa [taken] using room⟩
      · obtain ⟨before, after, rfl, offered⟩ := ih later
        refine ⟨y :: before, after, rfl, ?_⟩
        rw [taken_accepted room]
        simpa only [List.append_assoc, List.singleton_append] using offered
    · rw [taken_refused room] at member
      obtain ⟨before, after, rfl, offered⟩ := ih member
      refine ⟨y :: before, after, rfl, ?_⟩
      rwa [taken_refused room]

/-! Items of which some are optional. -/

section
variable (k) (optional : α → Bool)

/-- The items that are not optional. -/
def needed (items : List α) : List α :=
  items.filter (fun x => !optional x)

/-- What is kept is every needed item and the first optional ones. -/
structure KeepsNeeded (items : List α) : Prop where
  needed : needed optional (k.taken [] items) = needed optional items
  optional : (k.taken [] items).filter optional <+: items.filter optional

/-- The items can be cut in two so that all before the cut and the needed behind it
fit, and no optional item behind the cut fits behind what is kept before it. -/
def CutsCleanly (kept items : List α) : Prop :=
  ∃ head tail, items = head ++ tail ∧ k.Fits (kept ++ head ++ needed optional tail) ∧
    ∀ before x after, tail = before ++ x :: after → optional x = true →
      ¬ k.Fits (kept ++ head ++ needed optional before ++ [x])

end

section
variable {optional : α → Bool}

theorem needed_append (first second : List α) :
    needed optional (first ++ second) = needed optional first ++ needed optional second :=
  List.filter_append ..

theorem needed_needed (items : List α) :
    needed optional (needed optional items) = needed optional items := by
  simp only [needed, List.filter_filter, Bool.and_self]

theorem optional_needed (items : List α) : (needed optional items).filter optional = [] := by
  simp [needed, List.filter_filter]

theorem needed_of_none (none : items.filter optional = []) : needed optional items = items := by
  rw [List.filter_eq_nil_iff] at none
  exact List.filter_eq_self.mpr (fun x member => by simpa using none x member)

/-- Behind a clean cut exactly the needed items are kept. -/
theorem taken_clean (fits : k.Fits (kept ++ needed optional items))
    (refused : ∀ before x after, items = before ++ x :: after → optional x = true →
      ¬ k.Fits (kept ++ needed optional before ++ [x])) :
    k.taken kept items = needed optional items := by
  induction items generalizing kept with
  | nil => rfl
  | cons x items ih =>
    cases extra : optional x with
    | true =>
      have skip : ∀ later, needed optional (x :: later) = needed optional later :=
        fun later => List.filter_cons_of_neg (by simp [extra])
      have full : ¬ k.Fits (kept ++ [x]) := by
        simpa [needed] using refused [] x items rfl extra
      rw [skip] at fits ⊢
      rw [taken_refused full]
      refine ih fits (fun before y after split => ?_)
      have behind := refused (x :: before) y after (by rw [split, List.cons_append])
      rwa [skip] at behind
    | false =>
      have keep : ∀ later, needed optional (x :: later) = x :: needed optional later :=
        fun later => List.filter_cons_of_pos (by simp [extra])
      have moved : ∀ later, kept ++ x :: later = kept ++ [x] ++ later := fun later => by simp
      rw [keep, moved] at fits
      have room : k.Fits (kept ++ [x]) := fits_sublist (List.sublist_append_left _ _) fits
      rw [keep, taken_accepted room, ih fits]
      intro before y after split
      have behind := refused (x :: before) y after (by rw [split, List.cons_append])
      rwa [keep, moved] at behind

/-- Where no needed item is lost, none is lost among the first items either. -/
theorem needed_taken_first {first second : List α}
    (all : needed optional (k.taken kept (first ++ second)) = needed optional (first ++ second)) :
    needed optional (k.taken kept first) = needed optional first := by
  rw [taken_append, needed_append, needed_append] at all
  have lengths := congrArg List.length all
  rw [List.length_append, List.length_append] at lengths
  have firstPart : (needed optional (k.taken kept first)).Sublist (needed optional first) :=
    (taken_sublist kept first).filter _
  have secondPart : (needed optional (k.taken (kept ++ k.taken kept first) second)).Sublist
      (needed optional second) := (taken_sublist _ second).filter _
  have shorter := secondPart.length_le
  exact firstPart.eq_of_length_le (by omega)

/-- No optional item is kept exactly where each is refused when it is offered. -/
theorem none_taken_iff : (k.taken kept items).filter optional = [] ↔
    ∀ before x after, items = before ++ x :: after → optional x = true →
      ¬ k.Fits (kept ++ k.taken kept before ++ [x]) := by
  constructor
  · rintro none before x after rfl extra room
    rw [taken_append, taken_accepted room, List.filter_append, List.filter_cons_of_pos extra] at none
    exact List.append_ne_nil_of_right_ne_nil _ (List.cons_ne_nil _ _) none
  · intro refused
    refine List.filter_eq_nil_iff.mpr (fun x member extra => ?_)
    obtain ⟨before, after, split, room⟩ := taken_offered member
    exact refused before x after split extra room

/-- A store that keeps all needed items and no other refuses every optional one
behind the needed items before it. -/
theorem refused_of_none (all : needed optional (k.taken kept items) = needed optional items)
    (none : (k.taken kept items).filter optional = []) {before after : List α}
    (split : items = before ++ x :: after) (extra : optional x = true) :
    ¬ k.Fits (kept ++ needed optional before ++ [x]) := by
  have refused := none_taken_iff.mp none before x after split extra
  rw [split] at all none
  rw [taken_append, List.filter_append, List.append_eq_nil_iff] at none
  rwa [← needed_taken_first all, needed_of_none none.1]

/-- A store that loses no needed item and keeps the first optional ones cuts its
items cleanly. -/
theorem cuts_of_keeps (fits : k.Fits kept)
    (all : needed optional (k.taken kept items) = needed optional items)
    (first : (k.taken kept items).filter optional <+: items.filter optional) :
    k.CutsCleanly optional kept items := by
  induction items generalizing kept with
  | nil =>
    refine ⟨[], [], rfl, by simpa [needed] using fits, ?_⟩
    intro before x after split
    simp at split
  | cons x items ih =>
    by_cases room : k.Fits (kept ++ [x])
    · rw [taken_accepted room] at all first
      have moved : ∀ later, kept ++ x :: later = kept ++ [x] ++ later := fun later => by simp
      obtain ⟨head, tail, rfl, within, refused⟩ : k.CutsCleanly optional (kept ++ [x]) items := by
        cases extra : optional x with
        | true =>
          rw [List.filter_cons_of_pos extra, List.filter_cons_of_pos extra,
            List.cons_prefix_cons] at first
          simp only [needed, List.filter_cons, extra, Bool.not_true, Bool.false_eq_true,
            if_false] at all
          exact ih room all first.2
        | false =>
          have passed : ¬ optional x = true := by simp [extra]
          rw [List.filter_cons_of_neg passed, List.filter_cons_of_neg passed] at first
          simp only [needed, List.filter_cons, extra, Bool.not_false, if_true,
            List.cons.injEq, true_and] at all
          exact ih room all first
      refine ⟨x :: head, tail, rfl, ?_, ?_⟩
      · rwa [moved]
      · intro before y after split extra
        rw [moved]
        exact refused before y after split extra
    · rw [taken_refused room] at all first
      have shorter := (taken_sublist (k := k) kept items).filter (fun y => !optional y)
      have extra : optional x = true := by
        by_contra needs
        have lengths := congrArg List.length all
        have longer : (needed optional (x :: items)).length =
            (needed optional items).length + 1 := by
          rw [needed, List.filter_cons_of_pos (by simpa using needs)]
          rfl
        have bound := shorter.length_le
        simp only [needed] at lengths longer bound
        omega
      have same : needed optional (x :: items) = needed optional items := by
        simp [needed, extra]
      -- Nothing optional is kept any more: the first such item would be `x` itself.
      have none : (k.taken kept items).filter optional = [] := by
        cases kept_optional : (k.taken kept items).filter optional with
        | nil => rfl
        | cons y later =>
          rw [kept_optional, List.filter_cons_of_pos extra, List.cons_prefix_cons] at first
          have member : x ∈ (k.taken kept items).filter optional := by
            rw [kept_optional, first.1]
            exact List.mem_cons_self
          exact absurd (taken_fits_now fits (List.mem_filter.mp member).1) room
      rw [same] at all
      refine ⟨[], x :: items, rfl, ?_, ?_⟩
      · have whole := taken_fits items fits
        rw [← needed_of_none none, all] at whole
        rwa [same, List.append_nil]
      · intro before y after split extraY
        rw [List.append_nil]
        cases before with
        | nil =>
          obtain ⟨rfl, _⟩ := List.cons.inj split
          simpa [needed] using room
        | cons z before =>
          obtain ⟨rfl, later⟩ := List.cons.inj split
          have skip : needed optional (x :: before) = needed optional before := by
            simp [needed, extra]
          rw [skip]
          exact refused_of_none all none later extraY

/-- A store keeps every needed item and the first optional ones exactly where its
items can be cut cleanly. -/
theorem keeps_needed_iff (items : List α) :
    k.KeepsNeeded optional items ↔ k.CutsCleanly optional [] items := by
  constructor
  · intro keeps
    have empty : k.Fits [] := ⟨Nat.zero_le _, Nat.zero_le _⟩
    exact cuts_of_keeps empty keeps.needed keeps.optional
  · rintro ⟨head, tail, rfl, fits, refused⟩
    have within : k.Fits ([] ++ head) := fits_sublist (List.sublist_append_left _ _) fits
    have kept : k.taken [] (head ++ tail) = head ++ needed optional tail := by
      rw [taken_append, taken_of_fits within, taken_clean fits refused]
    refine ⟨?_, ?_⟩
    · rw [kept, needed_append, needed_append, needed_needed]
    · rw [kept, List.filter_append, List.filter_append, optional_needed, List.append_nil]
      exact List.prefix_append _ _

/-- The first optional item kept is the first one offered, exactly where that one
finds room or no later one does. -/
theorem first_optional_iff (items : List α) :
    (∀ y, (k.taken [] items).find? optional = some y → items.find? optional = some y) ↔
      ∀ before own after, items = before ++ own :: after → before.find? optional = none →
        optional own = true → k.Fits (k.taken [] before ++ [own]) ∨
          ∀ mid x rest, after = mid ++ x :: rest → optional x = true →
            ¬ k.Fits (k.taken [] (before ++ own :: mid) ++ [x]) := by
  have empty : k.Fits [] := ⟨Nat.zero_le _, Nat.zero_le _⟩
  have plain : ∀ {before : List α}, before.find? optional = none →
      (k.taken [] before).find? optional = none := by
    intro before none
    rw [List.find?_eq_none] at none ⊢
    exact fun x member => none x ((taken_sublist [] before).subset member)
  have split_own : ∀ (before : List α) (own : α) (after : List α),
      ¬ k.Fits (k.taken [] before ++ [own]) →
      k.taken [] (before ++ own :: after) =
        k.taken [] before ++ k.taken (k.taken [] before) after := by
    intro before own after full
    rw [taken_append, List.nil_append, taken_refused full]
  constructor
  · rintro first before own after rfl none extra
    by_cases room : k.Fits (k.taken [] before ++ [own])
    · exact .inl room
    · right
      rintro mid x rest rfl extraX offered
      rw [split_own before own mid room] at offered
      have stored := split_own before own (mid ++ x :: rest) room
      have member : x ∈ k.taken (k.taken [] before) (mid ++ x :: rest) := by
        rw [taken_append, taken_accepted offered]
        exact List.mem_append_right _ List.mem_cons_self
      cases found : (k.taken [] (before ++ own :: (mid ++ x :: rest))).find? optional with
      | none =>
        rw [stored, List.find?_append, plain none, Option.none_or, List.find?_eq_none] at found
        exact found x member extraX
      | some y =>
        have same := first y found
        rw [List.find?_append, none, Option.none_or, List.find?_cons_of_pos extra] at same
        obtain rfl := Option.some.inj same
        rw [stored, List.find?_append, plain none, Option.none_or] at found
        have kept : k.Fits ([] ++ k.taken [] before) := taken_fits before empty
        exact room (taken_fits_now kept (List.mem_of_find?_eq_some found))
  · intro condition y found
    obtain ⟨extraY, _⟩ := List.find?_eq_some_iff_append.mp found
    have member := (taken_sublist [] items).subset (List.mem_of_find?_eq_some found)
    cases offered : items.find? optional with
    | none => exact absurd extraY (List.find?_eq_none.mp offered y member)
    | some own =>
      obtain ⟨extra, before, after, rfl, others⟩ := List.find?_eq_some_iff_append.mp offered
      have none : before.find? optional = none :=
        List.find?_eq_none.mpr (fun x inside => by simpa using others x inside)
      by_cases room : k.Fits (k.taken [] before ++ [own])
      · rw [taken_append, List.nil_append, taken_accepted room, List.find?_append, plain none,
          Option.none_or, List.find?_cons_of_pos extra] at found
        exact found
      · have refused := (condition before own after rfl none extra).resolve_left room
        have nothing : (k.taken (k.taken [] before) after).filter optional = [] := by
          refine none_taken_iff.mpr (fun mid x rest split extraX => ?_)
          have behind := refused mid x rest split extraX
          rwa [split_own before own mid room] at behind
        rw [split_own before own after room, List.find?_append, plain none, Option.none_or] at found
        have inside := List.mem_filter.mpr ⟨List.mem_of_find?_eq_some found, extraY⟩
        rw [nothing] at inside
        exact absurd inside List.not_mem_nil

end
end Packing
