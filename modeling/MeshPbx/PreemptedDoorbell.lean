import MeshPbx.Doorbell
import MeshPbx.SlotLocks

/-! The doorbell under preemption. A packet is queued under the slot's mutex and the phone
is notified after it, so between the two another thread may answer the phone, queue more,
or notify it first. Still no wakeup is lost, as long as a slot is not freed under a
function that has looked it up for a phone. -/
namespace MeshPbx
variable {n : Nat} {p : Platform} {g g' : Gatt n} {i j : Fin n} {conn : BtConn} {l l' : Link}

/-! What the sections and the points stand for. -/

namespace LockedSection

/-- The phone that the function has looked the slot up for. -/
def phone : LockedSection → Option BtConn
  | .enqueue conn _ | .serve conn _ _ | .arm conn _ => some conn
  | .leave | .claim | .free => none

/-- The section queues no empty packet, arms no empty config_complete_id and is not served
an empty frame. -/
def Filled : LockedSection → Prop
  | .enqueue _ data => data ≠ []
  | .serve _ cache _ => ∀ k < cacheFrameCount cache, (cache.entry k).1 ≠ []
  | .arm _ ccLen => 0 < ccLen
  | .leave | .claim | .free => True

end LockedSection

/-- No packet of the call is empty, nor any frame of the cache it is served from. -/
def GattCall.Nonempty : GattCall n → Prop
  | .enqueue _ data => data ≠ []
  | .read cache _ _ _ => ∀ k < cacheFrameCount cache, (cache.entry k).1 ≠ []
  | .encodeReply | .replay _ _ | .park _ _ | .register _ _ | .requestTeardown _ | .teardown _
  | .connected _ _ | .disconnected _ => True

instance : (call : GattCall n) → Decidable call.Nonempty
  | .enqueue _ _ => inferInstanceAs (Decidable (_ ≠ _))
  | .read _ _ _ _ => inferInstanceAs (Decidable (∀ k < _, _))
  | .encodeReply | .replay _ _ | .park _ _ | .register _ _ | .requestTeardown _ | .teardown _
  | .connected _ _ | .disconnected _ => isTrue trivial

namespace GattPoint

/-- The section that the thread has looked a slot up for. -/
def due : GattPoint n → Option (Fin n × LockedSection)
  | .lock slot sec | .inside slot sec => some (slot, sec)
  | .start _ | .unlock _ _ | .after _ _ => none

/-- The phone still holds the slot that was looked up for it. -/
def Placed (g : Gatt n) (point : GattPoint n) : Prop :=
  ∀ slot sec, point.due = some (slot, sec) →
    sec.Filled ∧ ∀ conn ∈ sec.phone, (g.conns slot).conn = some conn

/-- The thread has looked this slot up for a phone. -/
def Heads (slot : Fin n) : GattPoint n → Prop
  | .lock target sec | .inside target sec => target = slot ∧ sec.phone ≠ none
  | .start _ | .unlock _ _ | .after _ _ => False

instance (slot : Fin n) : (point : GattPoint n) → Decidable (point.Heads slot)
  | .lock _ _ | .inside _ _ => inferInstanceAs (Decidable (_ ∧ _))
  | .start _ | .unlock _ _ | .after _ _ => isFalse id

def pending : GattPoint n → List (Deed n)
  | .unlock _ deeds => deeds
  | .after deed deeds => deed :: deeds
  | .start _ | .lock _ _ | .inside _ _ => []

/-- The thread is still to notify the phone. -/
def Rings (conn : BtConn) (point : GattPoint n) : Prop :=
  ∃ value, .stack (.notifyFromnum conn value) ∈ point.pending

end GattPoint

/-! What a phone hears. -/

/-- `due` is whether the phone has been notified since its last empty answer, `passedOver`
whether that answer closed a replay while packets waited. -/
structure Wakeup where
  due : Bool
  passedOver : Bool

namespace Wakeup

def none : Wakeup := ⟨false, false⟩

def hear (h : Wakeup) (c : ConfigCache) (l : Link) : Wakeup :=
  if (l.fetch c).staged = [] then ⟨false, decide (l.state = .replaying ∧ l.queue ≠ [])⟩ else h

/-- What running a point lets the phone hear. -/
def after (conn : BtConn) (g : Gatt n) (h : Wakeup) : GattPoint n → Wakeup
  | .after (.stack (.notifyFromnum target _)) _ => if target = conn then { h with due := true } else h
  | .inside slot (.serve reader cache offset) =>
    if reader = conn ∧ offset = 0 then h.hear cache (Link.of (g.conns slot)) else h
  | .start (.connected target false) => if target = conn then none else h
  | _ => h

end Wakeup

/-! Steps that bring a phone nothing new. -/

/-- Nothing waits that did not wait before. -/
structure Link.Calm (l l' : Link) : Prop where
  queue : l'.queue = l.queue
  state : l'.state = .replaying → l.state = .replaying
  complete : l'.state = .replaying → l.complete ≠ [] → l'.complete ≠ []

theorem Link.Calm.refl (l : Link) : l.Calm l := ⟨rfl, id, fun _ => id⟩

theorem Link.Calm.waits (calm : l.Calm l') (waits : l'.Waits) : l.Waits :=
  waits.imp (calm.queue ▸ ·) calm.state

theorem Link.Calm.stocked (calm : l.Calm l') (stocked : l.Stocked) : l'.Stocked where
  packets := calm.queue ▸ stocked.packets
  complete replaying := calm.complete replaying (stocked.complete (calm.state replaying))

/-- Every slot keeps its phone, and brings it nothing new. -/
def Gatt.Calm (g g' : Gatt n) : Prop :=
  ∀ j, (g'.conns j).conn = (g.conns j).conn ∧ (Link.of (g.conns j)).Calm (Link.of (g'.conns j))

theorem calm_of_conns (same : g'.conns = g.conns) : g.Calm g' := by
  intro j
  rw [same]
  exact ⟨rfl, .refl _⟩

theorem calm_setConn {pc : ProxyConn} (holder : pc.conn = (g.conns i).conn)
    (calm : (Link.of (g.conns i)).Calm (Link.of pc)) : g.Calm (g.setConn i pc) := by
  intro j
  by_cases here : j = i
  · subst here
    rw [Gatt.conns_setConn_same]
    exact ⟨holder, calm⟩
  · rw [Gatt.conns_setConn_ne pc here]
    exact ⟨rfl, .refl _⟩

/-- The points that may bring a phone something, or change whose a slot is. -/
def GattPoint.Stirs : GattPoint n → Prop
  | .start (.connected _ false) => True
  | .inside _ (.serve _ _ offset) => offset = 0
  | .inside _ (.enqueue _ _) | .inside _ (.arm _ _) | .inside _ .free => True
  | _ => False

theorem complete_filled (pc : ProxyConn) (replaying : pc.state = .replaying) :
    (Link.of pc).complete ≠ [] ↔ 0 < pc.ccLen := by
  have length : pc.ccBytes.length = pc.ccLen := ByteBuffer.length_read _ _ _
  simp only [Link.of, if_pos replaying]
  rw [← length, List.length_pos_iff]

theorem begin_calm (p : Platform) (g : Gatt n) (call : GattCall n)
    (aside : ¬ (GattPoint.start call).Stirs) : g.Calm (call.begin p g).1 := by
  cases call with
  | enqueue conn data =>
    simp only [GattCall.begin]
    split_ifs
    · exact calm_of_conns rfl
    · exact calm_of_conns rfl
  | replay conn nonce =>
    simp only [GattCall.begin]
    split
    · exact calm_of_conns rfl
    · rename_i slot found
      refine calm_setConn rfl ⟨rfl, id, fun replaying filled => ?_⟩
      have length : 0 < (g.conns slot).ccLen := (complete_filled _ replaying).mp filled
      refine (complete_filled _ ?_).mpr length
      exact replaying
  | park conn nonce =>
    simp only [GattCall.begin, parkSlot]
    split
    · exact calm_of_conns rfl
    · refine calm_setConn rfl ⟨rfl, fun replaying => ?_, fun replaying => ?_⟩
      · cases replaying
      · cases replaying
  | register conn proxyId =>
    simp only [GattCall.begin, bleGattRegisterProxyId]
    split
    · exact calm_of_conns rfl
    · exact calm_setConn rfl ⟨rfl, id, fun _ => id⟩
  | teardown slot => exact calm_setConn rfl ⟨rfl, id, fun _ => id⟩
  | connected conn err =>
    cases err with
    | true => exact calm_of_conns rfl
    | false => exact absurd trivial aside
  | disconnected conn =>
    simp only [GattCall.begin]
    split
    · exact calm_of_conns rfl
    · exact calm_setConn rfl ⟨rfl, id, fun _ => id⟩
  | read cache conn len offset => exact calm_of_conns rfl
  | requestTeardown conn => exact calm_of_conns rfl
  | encodeReply => exact calm_of_conns rfl

theorem act_calm (p : Platform) (g : Gatt n) (point : GattPoint n) (aside : ¬ point.Stirs) :
    g.Calm (point.act p g).1 := by
  cases point with
  | start call => exact begin_calm p g call aside
  | lock slot sec => exact calm_of_conns rfl
  | unlock slot deeds => exact calm_of_conns rfl
  | inside slot sec =>
    cases sec with
    | serve conn cache offset =>
      simp only [GattPoint.act, LockedSection.run, if_neg (show ¬ offset = 0 from aside)]
      exact calm_setConn rfl (.refl _)
    | leave => exact calm_setConn rfl ⟨rfl, id, fun _ => id⟩
    | claim => exact calm_of_conns rfl
    | enqueue conn data => exact absurd trivial aside
    | arm conn ccLen => exact absurd trivial aside
    | free => exact absurd trivial aside
  | after deed deeds =>
    cases deed with
    | stack call => exact calm_of_conns rfl
    | reschedule slot => exact calm_setConn rfl ⟨rfl, id, fun _ => id⟩
    | countDown => exact calm_of_conns rfl

/-! The invariant. -/

variable {T : Type} [DecidableEq T]

/-- Whoever calls the server offers no empty packet and reports a connection once, and a
slot is not freed while another thread has looked it up for a phone. -/
def GattPoint.Respects (s : Threads T (GattPoint n) (Fin n) (Gatt n)) (t : T) : GattPoint n → Prop
  | .start call => call.enabled s.memory ∧ call.Nonempty
  | .inside slot .free => ∀ u, u ≠ t → ∀ other ∈ (s.stack u).head?, ¬ other.Heads slot
  | _ => True

instance [Fintype T] (s : Threads T (GattPoint n) (Fin n) (Gatt n)) (t : T) :
    (point : GattPoint n) → Decidable (point.Respects s t)
  | .start _ => inferInstanceAs (Decidable (_ ∧ _))
  | .inside _ .free => inferInstanceAs (Decidable (∀ u, u ≠ t → ∀ other ∈ _, ¬ _))
  | .inside _ (.enqueue _ _) | .inside _ (.serve _ _ _) | .inside _ (.arm _ _) | .inside _ .leave
  | .inside _ .claim | .lock _ _ | .unlock _ _ | .after _ _ => isTrue trivial

def Respects (s : Threads T (GattPoint n) (Fin n) (Gatt n)) : ThreadEvent T (GattPoint n) → Prop
  | .enter _ _ => True
  | .step t => ∀ point ∈ (s.stack t).head?, point.Respects s t

instance [Fintype T] (s : Threads T (GattPoint n) (Fin n) (Gatt n)) :
    (e : ThreadEvent T (GattPoint n)) → Decidable (Respects s e)
  | .enter _ _ => isTrue trivial
  | .step _ => inferInstanceAs (Decidable (∀ point ∈ _, _))

/-- Slots are where the threads that have looked them up expect them. -/
structure Settling (s : Threads T (GattPoint n) (Fin n) (Gatt n)) : Prop where
  distinct : s.memory.Distinct
  placed : ∀ t, ∀ point ∈ s.stack t, point.Placed s.memory

/-- What waits for a phone has been announced to it, or a thread is about to. -/
structure Announced (conn : BtConn) (s : Threads T (GattPoint n) (Fin n) (Gatt n)) (h : Wakeup) :
    Prop where
  stocked : ∀ i, (s.memory.conns i).conn = some conn → (Link.of (s.memory.conns i)).Stocked
  waiting : ∀ i, (s.memory.conns i).conn = some conn → (Link.of (s.memory.conns i)).Waits →
    h.due = true ∨ h.passedOver = true ∨ ∃ t, ∃ point ∈ s.stack t, point.Rings conn

/-! Whose the slots are. -/

inductive HolderTurn (g g' : Gatt n) (point : GattPoint n) : Prop
  | kept (stays : ∀ slot, point ≠ .inside slot .free)
      (same : ∀ j, (g'.conns j).conn = (g.conns j).conn)
  | opened (slot : Fin n) (conn : BtConn) (call : point = .start (.connected conn false))
      (vacant : (g.conns slot).conn = none)
      (table : g'.conns = Function.update g.conns slot ((g.conns slot).reset (some conn)))
  | freed (slot : Fin n) (frees : point = .inside slot .free)
      (table : g'.conns = Function.update g.conns slot ((g.conns slot).reset none))

/-- A connected phone gets a vacant slot, or none is left. -/
theorem connects (p : Platform) (g : Gatt n) (conn : BtConn) :
    ((GattCall.connected conn false).begin p g).1.conns = g.conns ∨
      ∃ slot, (g.conns slot).conn = none ∧ ((GattCall.connected conn false).begin p g).1.conns =
        Function.update g.conns slot ((g.conns slot).reset (some conn)) := by
  simp only [GattCall.begin, Bool.false_eq_true, if_false, allocSlot]
  cases found : (List.finRange n).find? (fun slot => (g.conns slot).conn = none) with
  | none => exact .inl rfl
  | some slot =>
    have vacant : (g.conns slot).conn = none := by simpa using List.find?_some found
    exact .inr ⟨slot, vacant, rfl⟩

/-- A slot changes hands only when it is allocated or freed. -/
theorem holder_turn (p : Platform) (g : Gatt n) (point : GattPoint n) :
    HolderTurn g (point.act p g).1 point := by
  have calm : ∀ aside : ¬ point.Stirs, (∀ slot, point ≠ .inside slot .free) →
      HolderTurn g (point.act p g).1 point :=
    fun aside stays => .kept stays fun j => (act_calm p g point aside j).1
  cases point with
  | start call =>
    cases call with
    | connected conn err =>
      cases err with
      | true => exact calm id fun slot => by simp
      | false =>
        rcases connects p g conn with same | ⟨slot, vacant, table⟩
        · exact .kept (fun slot => by simp) fun j => by rw [GattPoint.act, same]
        · exact .opened slot conn rfl vacant table
    | _ => exact calm id fun slot => by simp
  | inside slot sec =>
    cases sec with
    | enqueue conn data =>
      refine .kept (fun slot => by simp) fun j => ?_
      simp only [GattPoint.act, LockedSection.run]
      split_ifs
      · rfl
      · refine Gatt.holder_setConn ?_ j
        rfl
      · rfl
    | serve conn cache offset =>
      refine .kept (fun slot => by simp) fun j => Gatt.holder_setConn ?_ j
      split_ifs
      · exact stage_next_conn cache _
      · rfl
    | arm conn ccLen =>
      refine .kept (fun slot => by simp) fun j => Gatt.holder_setConn ?_ j
      rfl
    | free => exact .freed slot rfl rfl
    | leave => exact calm id fun slot => by simp
    | claim => exact calm id fun slot => by simp
  | lock slot sec => exact calm id fun slot => by simp
  | unlock slot deeds => exact calm id fun slot => by simp
  | after deed deeds => exact calm id fun slot => by simp

theorem HolderTurn.distinct {point : GattPoint n} (turn : HolderTurn g g' point)
    (distinct : g.Distinct)
    (fresh : ∀ conn, point = .start (.connected conn false) → findSlot g conn = none) :
    g'.Distinct := by
  cases turn with
  | kept stays same => exact distinct.of_holders same
  | opened slot conn call vacant table =>
    have untracked := find_slot_none.mp (fresh conn call)
    intro i j other here there
    rw [table] at here there
    by_cases first : i = slot
    · by_cases second : j = slot
      · rw [first, second]
      · rw [first, Function.update_self] at here
        rw [Function.update_of_ne second] at there
        cases here
        exact absurd ⟨j, there⟩ untracked
    · rw [Function.update_of_ne first] at here
      by_cases second : j = slot
      · rw [second, Function.update_self] at there
        cases there
        exact absurd ⟨i, here⟩ untracked
      · rw [Function.update_of_ne second] at there
        exact distinct i j other here there
  | freed slot frees table =>
    intro i j other here there
    rw [table] at here there
    by_cases first : i = slot
    · rw [first, Function.update_self] at here
      cases here
    · by_cases second : j = slot
      · rw [second, Function.update_self] at there
        cases there
      · rw [Function.update_of_ne first] at here
        rw [Function.update_of_ne second] at there
        exact distinct i j other here there

/-- A thread finds the slot as before, unless it was freed. -/
theorem GattPoint.Placed.after {point other : GattPoint n} (placed : other.Placed g)
    (turn : HolderTurn g g' point)
    (undisturbed : ∀ slot, point = .inside slot .free → ¬ other.Heads slot) : other.Placed g' := by
  intro slot sec due
  obtain ⟨filled, home⟩ := placed slot sec due
  refine ⟨filled, fun conn phone => ?_⟩
  have holds := home conn phone
  cases turn with
  | kept stays same => rw [same, holds]
  | opened target fresh call vacant table =>
    have elsewhere : slot ≠ target := by
      rintro rfl
      rw [vacant] at holds
      cases holds
    rw [table, Function.update_of_ne elsewhere, holds]
  | freed target frees table =>
    have elsewhere : slot ≠ target := by
      rintro rfl
      refine undisturbed slot frees ?_
      cases other with
      | lock _ _ =>
        cases due
        exact ⟨rfl, by simp [Option.mem_def.mp phone]⟩
      | inside _ _ =>
        cases due
        exact ⟨rfl, by simp [Option.mem_def.mp phone]⟩
      | _ => cases due
    rw [table, Function.update_of_ne elsewhere, holds]

theorem GattPoint.placed_of_due {point : GattPoint n} (nothing : point.due = none) :
    point.Placed g := by
  intro slot sec due
  rw [nothing] at due
  cases due

theorem looked_up {sec : LockedSection} (filled : sec.Filled)
    (home : ∀ conn ∈ sec.phone, (g.conns i).conn = some conn) : (GattPoint.lock i sec).Placed g := by
  rintro slot other ⟨⟩
  exact ⟨filled, home⟩

/-- A lookup finds the phone's own slot. -/
theorem begin_placed (documented : p.Documented) {call : GattCall n} (nonempty : call.Nonempty)
    {q : GattPoint n} (goes : (call.begin p g).2 = some q) : q.Placed (call.begin p g).1 := by
  cases call with
  | enqueue conn data =>
    simp only [GattCall.begin] at goes ⊢
    split_ifs at goes ⊢
    obtain ⟨slot, found, rfl⟩ := Option.map_eq_some_iff.mp goes
    refine looked_up nonempty ?_
    rintro target ⟨⟩
    exact find_slot_some found
  | replay conn nonce =>
    simp only [GattCall.begin] at goes ⊢
    cases found : findSlot g conn with
    | none =>
      rw [found] at goes
      cases goes
    | some slot =>
      simp only [found, encode_config_complete documented, ne_eq, not_true_eq_false, if_false,
        Option.some.injEq] at goes ⊢
      subst goes
      refine looked_up (documented.complete_pos _) ?_
      rintro target ⟨⟩
      rw [Gatt.conns_setConn_same]
      exact find_slot_some found
  | read cache conn len offset =>
    obtain ⟨slot, found, rfl⟩ := Option.map_eq_some_iff.mp goes
    refine looked_up nonempty ?_
    rintro target ⟨⟩
    exact find_slot_some found
  | requestTeardown conn =>
    obtain ⟨slot, _, rfl⟩ := Option.map_eq_some_iff.mp goes
    exact looked_up trivial (by simp [LockedSection.phone])
  | teardown slot =>
    cases goes
    exact looked_up trivial (by simp [LockedSection.phone])
  | connected conn err =>
    have deed : ∀ deed : Deed n, (GattPoint.after deed []).Placed
        ((GattCall.connected conn err).begin p g).1 := fun _ => GattPoint.placed_of_due rfl
    simp only [GattCall.begin] at goes
    split_ifs at goes
    split at goes
    · cases goes
      exact deed _
    · simp only at goes
      split_ifs at goes
      cases goes
      exact deed _
  | disconnected conn =>
    cases found : findSlot g conn with
    | none =>
      simp only [GattCall.begin, found] at goes
      cases goes
      exact GattPoint.placed_of_due rfl
    | some slot =>
      simp only [GattCall.begin, found] at goes ⊢
      cases goes
      exact looked_up trivial (by simp [LockedSection.phone])
  | encodeReply => cases goes
  | park conn nonce => cases goes
  | register conn proxyId => cases goes

theorem next_placed (documented : p.Documented) {point q : GattPoint n} (placed : point.Placed g)
    (nonempty : ∀ call, point = .start call → call.Nonempty)
    (goes : (point.act p g).2 = some q) : q.Placed (point.act p g).1 := by
  cases point with
  | start call => exact begin_placed documented (nonempty call rfl) goes
  | lock slot sec =>
    cases goes
    exact placed
  | inside slot sec =>
    cases goes
    exact GattPoint.placed_of_due rfl
  | unlock slot deeds =>
    cases deeds with
    | nil => cases goes
    | cons deed deeds =>
      cases goes
      exact GattPoint.placed_of_due rfl
  | after deed deeds =>
    cases deeds with
    | nil => cases goes
    | cons deed deeds =>
      cases goes
      exact GattPoint.placed_of_due rfl

variable {s : Threads T (GattPoint n) (Fin n) (Gatt n)} {t : T} {point : GattPoint n}
variable {below : List (GattPoint n)}

omit [DecidableEq T] in
/-- A caller that waits for a callback has unlocked. -/
theorem waiting_heads (sound : (gattCode n p).Sound s) {u : T} {other : GattPoint n}
    (waits : other ∈ (s.stack u).tail) (slot : Fin n) : ¬ other.Heads slot := by
  have calls : other.Calls := sound.waiting u other waits
  intro heads
  cases other with
  | after deed deeds => exact heads
  | _ => exact calls

theorem settling_ran (documented : p.Documented) (sound : (gattCode n p).Sound s)
    (settling : Settling s) (runs : s.stack t = point :: below)
    (respects : Respects s (.step t)) : Settling ((gattCode n p).ran s t point below) := by
  have meets := respects point (by simp [runs])
  have turn : HolderTurn s.memory (point.act p s.memory).1 point := holder_turn p s.memory point
  constructor
  · refine turn.distinct settling.distinct ?_
    rintro conn rfl
    exact meets.1
  · intro u other member
    rcases LockCode.mem_ran runs member with ⟨_, goes⟩ | before
    · refine next_placed documented (settling.placed t point (by simp [runs])) ?_ goes
      rintro call rfl
      exact meets.2
    · refine (settling.placed u other before).after turn ?_
      rintro slot rfl heads
      obtain ⟨top, rest, stack⟩ := List.exists_cons_of_ne_nil (List.ne_nil_of_mem before)
      rw [stack] at before
      rcases List.mem_cons.mp before with rfl | waits
      · by_cases mine : u = t
        · subst mine
          rw [runs] at stack
          cases stack
          exact heads.2 rfl
        · exact meets u mine other (by simp [stack]) heads
      · exact waiting_heads (u := u) sound (by simpa [stack] using waits) slot heads

/-! What the phone hears. -/

theorem after_calm (conn : BtConn) (g : Gatt n) (h : Wakeup) (aside : ¬ point.Stirs) :
    h.after conn g point = h ∨ (h.after conn g point).due = true := by
  cases point with
  | start call =>
    cases call with
    | connected target err =>
      cases err with
      | true => exact .inl rfl
      | false => exact absurd trivial aside
    | _ => exact .inl rfl
  | inside slot sec =>
    cases sec with
    | serve reader cache offset => exact .inl (if_neg fun fresh => aside fresh.2)
    | _ => exact .inl rfl
  | after deed deeds =>
    cases deed with
    | stack call =>
      cases call with
      | notifyFromnum target value =>
        by_cases own : target = conn
        · exact .inr (by simp [Wakeup.after, own])
        · exact .inl (if_neg own)
      | _ => exact .inl rfl
    | _ => exact .inl rfl
  | lock slot sec => exact .inl rfl
  | unlock slot deeds => exact .inl rfl

/-- A notification that is due stays due until it is made. -/
theorem rings_next (p : Platform) (g : Gatt n) (h : Wakeup) (rings : point.Rings conn) :
    (h.after conn g point).due = true ∨ ∃ q, (point.act p g).2 = some q ∧ q.Rings conn := by
  obtain ⟨value, pending⟩ := rings
  cases point with
  | unlock slot deeds =>
    cases deeds with
    | nil => cases pending
    | cons deed deeds => exact .inr ⟨.after deed deeds, rfl, value, pending⟩
  | after deed deeds =>
    rcases List.mem_cons.mp pending with rfl | later
    · exact .inl (by simp [Wakeup.after])
    · cases deeds with
      | nil => cases later
      | cons next deeds => exact .inr ⟨.after next deeds, rfl, value, later⟩
  | _ => cases pending

/-- Once `point` has run the phone has been told that something waits, or the thread is
about to tell it, or it waited before. -/
def Alerted (p : Platform) (conn : BtConn) (g : Gatt n) (h : Wakeup) (point : GattPoint n)
    (i : Fin n) : Prop :=
  (h.after conn g point).due = true ∨ (h.after conn g point).passedOver = true ∨
    (∃ q, (point.act p g).2 = some q ∧ q.Rings conn) ∨
      ((g.conns i).conn = some conn ∧ (Link.of (g.conns i)).Waits ∧ h.after conn g point = h)

/-- What a step does to the link of the phone that holds slot `i` after it. -/
structure Brought (p : Platform) (conn : BtConn) (g : Gatt n) (h : Wakeup) (point : GattPoint n)
    (i : Fin n) : Prop where
  stocked : (Link.of ((point.act p g).1.conns i)).Stocked
  told : (Link.of ((point.act p g).1.conns i)).Waits → Alerted p conn g h point i

theorem brought_nothing {h : Wakeup} (same : (point.act p g).1.conns i = g.conns i)
    (stocked : (g.conns i).conn = some conn → (Link.of (g.conns i)).Stocked)
    (holds : ((point.act p g).1.conns i).conn = some conn)
    (silent : h.after conn g point = h) : Brought p conn g h point i := by
  rw [same] at holds
  constructor
  · rw [same]
    exact stocked holds
  · rw [same]
    exact fun waits => .inr (.inr (.inr ⟨holds, waits, silent⟩))

theorem brought_calm {h : Wakeup} (aside : ¬ point.Stirs)
    (stocked : (g.conns i).conn = some conn → (Link.of (g.conns i)).Stocked)
    (holds : ((point.act p g).1.conns i).conn = some conn) : Brought p conn g h point i := by
  obtain ⟨same, calm⟩ := act_calm p g point aside i
  have before : (g.conns i).conn = some conn := same.symm.trans holds
  refine ⟨calm.stocked (stocked before), fun waits => ?_⟩
  rcases after_calm conn g h aside with silent | due
  · exact .inr (.inr (.inr ⟨before, calm.waits waits, silent⟩))
  · exact .inl due

/-- The phone's own section. -/
theorem brought_enqueue {h : Wakeup} {data : Bytes} (filled : data ≠ [])
    (stocked : (Link.of (g.conns i)).Stocked) (holds : (g.conns i).conn = some conn) :
    Brought p conn g h (.inside i (.enqueue conn data)) i := by
  by_cases leaving : (g.conns i).leaving = true
  · refine brought_nothing ?_ (fun _ => stocked) ?_ rfl
    · simp [GattPoint.act, LockedSection.run, leaving]
    · simpa [GattPoint.act, LockedSection.run, leaving] using holds
  · by_cases room : (g.conns i).queue.count < FROMRADIO_QUEUE_DEPTH
    · have queued : ((GattPoint.inside i (.enqueue conn data)).act p g).1.conns i =
          (g.conns i).append room data := by
        simp [GattPoint.act, LockedSection.run, leaving, room, ProxyConn.append]
      have link : (Link.of ((g.conns i).append room data)).queue =
          (Link.of (g.conns i)).queue ++ [data] := ProxyConn.queued_append _ _ _
      constructor
      · rw [queued]
        refine ⟨fun packet among => ?_, stocked.complete⟩
        rw [link] at among
        rcases List.mem_append.mp among with older | newer
        · exact stocked.packets packet older
        · exact List.mem_singleton.mp newer ▸ filled
      · intro _
        refine .inr (.inr (.inl ⟨_, rfl, (g.conns i).fromnum + 1, ?_⟩))
        simp [LockedSection.run, leaving, room, GattPoint.pending]
    · refine brought_nothing ?_ (fun _ => stocked) ?_ rfl
      · simp [GattPoint.act, LockedSection.run, leaving, room]
      · simpa [GattPoint.act, LockedSection.run, leaving, room] using holds

theorem brought_serve {h : Wakeup} {cache : ConfigCache}
    (filled : ∀ k < cacheFrameCount cache, (cache.entry k).1 ≠ [])
    (stocked : (Link.of (g.conns i)).Stocked) (holds : (g.conns i).conn = some conn) :
    Brought p conn g h (.inside i (.serve conn cache 0)) i := by
  have link : Link.of (((GattPoint.inside i (.serve conn cache 0)).act p g).1.conns i) =
      (Link.of (g.conns i)).fetch cache := by
    simp [GattPoint.act, LockedSection.run, link_stage]
  have heard : h.after conn g (.inside i (.serve conn cache 0)) =
      h.hear cache (Link.of (g.conns i)) := if_pos ⟨rfl, rfl⟩
  have frames : ∀ nonce cursor, ∀ k ∈ segment cache nonce cursor, (cache.entry k).1 ≠ [] :=
    fun nonce cursor k inside => filled k (in_segment_variant (List.mem_filter.mp inside).2).1
  cases fetched stocked frames with
  | served waited answer state complete queue =>
    constructor
    · rw [link]
      exact ⟨fun data among => stocked.packets data (queue.subset among), by
        rw [state, complete]
        exact stocked.complete⟩
    · intro _
      refine .inr (.inr (.inr ⟨holds, waited, ?_⟩))
      rw [heard, Wakeup.hear, if_neg answer]
  | empty answer state queue idle =>
    constructor
    · rw [link]
      exact ⟨by
        rw [queue]
        exact stocked.packets, fun replaying => absurd replaying state⟩
    · rw [link]
      rintro (queued | replaying)
      · rw [queue] at queued
        have replayed : (Link.of (g.conns i)).state = .replaying := by
          by_contra other
          exact queued (idle other)
        refine .inr (.inl ?_)
        rw [heard, Wakeup.hear, if_pos answer]
        exact decide_eq_true ⟨replayed, queued⟩
      · exact absurd replaying state

theorem brought_arm {h : Wakeup} {ccLen : Nat} (filled : 0 < ccLen)
    (stocked : (Link.of (g.conns i)).Stocked) :
    Brought p conn g h (.inside i (.arm conn ccLen)) i := by
  have armed : ((GattPoint.inside i (.arm conn ccLen)).act p g).1.conns i =
      { g.conns i with
        ccLen := ccLen
        replayCursor := 0
        state := .replaying
        fromnum := (g.conns i).fromnum + 1 } := by
    simp [GattPoint.act, LockedSection.run]
  constructor
  · rw [armed]
    exact ⟨stocked.packets, fun replaying => (complete_filled _ replaying).mpr filled⟩
  · intro _
    refine .inr (.inr (.inl ⟨_, rfl, (g.conns i).fromnum + 1, ?_⟩))
    simp [LockedSection.run, GattPoint.pending]

/-- A section leaves the other slots alone. -/
theorem section_aside (p : Platform) (g : Gatt n) {slot : Fin n} (sec : LockedSection)
    (other : i ≠ slot) : ((GattPoint.inside slot sec).act p g).1.conns i = g.conns i := by
  cases sec with
  | enqueue target data =>
    simp only [GattPoint.act, LockedSection.run]
    split_ifs
    · rfl
    · exact Gatt.conns_setConn_ne _ other
    · rfl
  | claim => rfl
  | _ => exact Gatt.conns_setConn_ne _ other

theorem brought_aside {h : Wakeup} {slot : Fin n} {sec : LockedSection} (distinct : g.Distinct)
    (home : ∀ target ∈ sec.phone, (g.conns slot).conn = some target) (other : i ≠ slot)
    (stocked : (g.conns i).conn = some conn → (Link.of (g.conns i)).Stocked)
    (holds : (((GattPoint.inside slot sec).act p g).1.conns i).conn = some conn) :
    Brought p conn g h (.inside slot sec) i := by
  have same := section_aside p g sec other
  refine brought_nothing same stocked holds ?_
  rw [same] at holds
  cases sec with
  | serve target cache offset =>
    refine if_neg ?_
    rintro ⟨rfl, _⟩
    exact other (distinct i slot target holds (home target rfl))
  | _ => rfl

theorem brought_section {h : Wakeup} {sec : LockedSection} (filled : sec.Filled)
    (home : ∀ target ∈ sec.phone, (g.conns i).conn = some target)
    (stocked : (g.conns i).conn = some conn → (Link.of (g.conns i)).Stocked)
    (holds : (((GattPoint.inside i sec).act p g).1.conns i).conn = some conn) :
    Brought p conn g h (.inside i sec) i := by
  have owns : sec ≠ .free → (g.conns i).conn = some conn := by
    intro stays
    cases holder_turn p g (.inside i sec) with
    | kept _ same => rw [← same, holds]
    | opened _ _ call => cases call
    | freed _ frees => cases frees; exact absurd rfl stays
  have own : ∀ target ∈ sec.phone, sec ≠ .free → target = conn := fun target phone stays =>
    Option.some.inj ((home target phone).symm.trans (owns stays))
  cases sec with
  | enqueue target data =>
    have held := owns (by simp)
    obtain rfl := own target rfl (by simp)
    exact brought_enqueue filled (stocked held) held
  | serve target cache offset =>
    have held := owns (by simp)
    obtain rfl := own target rfl (by simp)
    by_cases fresh : offset = 0
    · subst fresh
      exact brought_serve filled (stocked held) held
    · exact brought_calm fresh stocked holds
  | arm target ccLen =>
    have held := owns (by simp)
    obtain rfl := own target rfl (by simp)
    exact brought_arm filled (stocked held)
  | free =>
    simp [GattPoint.act, LockedSection.run, releaseSlot] at holds
  | leave => exact brought_calm id stocked holds
  | claim => exact brought_calm id stocked holds

theorem brought_connected {h : Wakeup} {target : BtConn} (fresh : findSlot g target = none)
    (stocked : (g.conns i).conn = some conn → (Link.of (g.conns i)).Stocked)
    (holds : (((GattPoint.start (.connected target false)).act p g).1.conns i).conn = some conn) :
    Brought p conn g h (.start (.connected target false)) i := by
  have untracked := find_slot_none.mp fresh
  have silent : (g.conns i).conn = some conn →
      h.after conn g (.start (.connected target false)) = h := by
    intro holds
    refine if_neg ?_
    rintro rfl
    exact untracked ⟨i, holds⟩
  have kept : ((GattPoint.start (.connected target false)).act p g).1.conns i = g.conns i →
      Brought p conn g h (.start (.connected target false)) i := fun same =>
    brought_nothing same stocked holds (silent (same ▸ holds))
  rcases connects p g target with same | ⟨slot, vacant, table⟩
  · exact kept (congrFun same i)
  · by_cases here : i = slot
    · subst here
      have opened : Link.of (((GattPoint.start (.connected target false)).act p g).1.conns i) =
          .fresh := by
        rw [GattPoint.act, table, Function.update_self, link_reset]
      constructor
      · rw [opened]
        exact ⟨List.forall_mem_nil _, fun replaying => by cases replaying⟩
      · rw [opened]
        rintro (queued | replaying)
        · exact absurd rfl queued
        · cases replaying
    · refine kept ?_
      rw [GattPoint.act, table, Function.update_of_ne here]

theorem brought {h : Wakeup} (distinct : g.Distinct) (placed : point.Placed g)
    (fresh : ∀ target, point = .start (.connected target false) → findSlot g target = none)
    (stocked : (g.conns i).conn = some conn → (Link.of (g.conns i)).Stocked)
    (holds : ((point.act p g).1.conns i).conn = some conn) : Brought p conn g h point i := by
  cases point with
  | start call =>
    cases call with
    | connected target err =>
      cases err with
      | true => exact brought_calm id stocked holds
      | false => exact brought_connected (fresh target rfl) stocked holds
    | _ => exact brought_calm id stocked holds
  | inside slot sec =>
    obtain ⟨filled, home⟩ := placed slot sec rfl
    by_cases here : i = slot
    · subst here
      exact brought_section filled home stocked holds
    · exact brought_aside distinct home here stocked holds
  | lock slot sec => exact brought_calm id stocked holds
  | unlock slot deeds => exact brought_calm id stocked holds
  | after deed deeds => exact brought_calm id stocked holds

theorem announced_ran {h : Wakeup} (settling : Settling s) (announced : Announced conn s h)
    (runs : s.stack t = point :: below) (respects : Respects s (.step t)) :
    Announced conn ((gattCode n p).ran s t point below) (h.after conn s.memory point) := by
  have meets := respects point (by simp [runs])
  have each : ∀ i, ((point.act p s.memory).1.conns i).conn = some conn →
      Brought p conn s.memory h point i := by
    intro i holds
    refine brought settling.distinct (settling.placed t point (by simp [runs])) ?_
      (announced.stocked i) holds
    rintro target rfl
    exact meets.1
  have on_stack : ∀ q, (point.act p s.memory).2 = some q →
      q ∈ ((gattCode n p).ran s t point below).stack t := by
    intro q goes
    have next : ((gattCode n p).act point s.memory).2 = some q := goes
    simp [next]
  refine ⟨fun i holds => (each i holds).stocked, fun i holds waits => ?_⟩
  rcases (each i holds).told waits with due | passed | ⟨q, goes, rings⟩ | ⟨held, waited, silent⟩
  · exact .inl due
  · exact .inr (.inl passed)
  · exact .inr (.inr ⟨t, q, on_stack q goes, rings⟩)
  · rcases announced.waiting i held waited with due | passed | ⟨u, other, member, rings⟩
    · rw [silent]
      exact .inl due
    · rw [silent]
      exact .inr (.inl passed)
    · have kept : (u = t ∧ other = point) ∨
          other ∈ ((gattCode n p).ran s t point below).stack u :=
        LockCode.stays_on_stack runs member
      rcases kept with ⟨rfl, rfl⟩ | later
      · rcases rings_next p s.memory h rings with due | ⟨q, goes, next⟩
        · exact .inl due
        · exact .inr (.inr ⟨u, q, on_stack q goes, next⟩)
      · exact .inr (.inr ⟨u, other, later, rings⟩)

/-- What the step of a thread lets the phone hear. -/
def Wakeup.note (conn : BtConn) (s : Threads T (GattPoint n) (Fin n) (Gatt n))
    (e : ThreadEvent T (GattPoint n)) (h : Wakeup) : Wakeup :=
  match e with
  | .enter _ _ => h
  | .step t => (s.stack t).head?.elim h (h.after conn s.memory)

theorem announced_step (documented : p.Documented) (conn : BtConn)
    (s : Threads T (GattPoint n) (Fin n) (Gatt n)) (h : Wakeup) (e : ThreadEvent T (GattPoint n))
    (holds : (gattCode n p).Sound s ∧ Settling s ∧ Announced conn s h)
    (enabled : ((gattCode n p).threads T).enabled s e) (respects : Respects s e) :
    let s' := ((gattCode n p).threads T).next s e
    (gattCode n p).Sound s' ∧ Settling s' ∧ Announced conn s' (h.note conn s e) := by
  obtain ⟨sound, settling, announced⟩ := holds
  refine ⟨LockCode.sound_step s e sound enabled, ?_⟩
  cases e with
  | enter t point =>
    -- the thread stands before a call: it heads nothing and owes no notification
    obtain ⟨call, rfl⟩ : ∃ call, point = .start call := by
      cases point with
      | start call => exact ⟨call, rfl⟩
      | _ => exact enabled.1.elim
    have onto : ∀ u other, other ∈ (Function.update s.stack t (.start call :: s.stack t)) u →
        other = .start call ∨ other ∈ s.stack u := by
      intro u other member
      by_cases mine : u = t
      · subst mine
        simpa using member
      · rw [Function.update_of_ne mine] at member
        exact .inr member
    have keeps : ∀ u other, other ∈ s.stack u →
        other ∈ (Function.update s.stack t (.start call :: s.stack t)) u := by
      intro u other member
      by_cases mine : u = t
      · subst mine
        simp [member]
      · rwa [Function.update_of_ne mine]
    refine ⟨⟨settling.distinct, fun u other member => ?_⟩, announced.stocked, fun i holds waits => ?_⟩
    · rcases onto u other member with rfl | before
      · exact GattPoint.placed_of_due rfl
      · exact settling.placed u other before
    · refine (announced.waiting i holds waits).imp id (Or.imp id ?_)
      rintro ⟨u, other, member, rings⟩
      exact ⟨u, other, keeps u other member, rings⟩
  | step t =>
    obtain ⟨point, first, _⟩ := enabled
    obtain ⟨below, runs⟩ := List.head?_eq_some_iff.mp first
    have heard : h.note conn s (.step t) = h.after conn s.memory point := by
      simp [Wakeup.note, runs]
    simp only [LockCode.next_step runs, heard]
    exact ⟨settling_ran documented sound settling runs respects,
      announced_ran settling announced runs respects⟩

/-- The first packet is notified last, after the phone has read it, found nothing more, and
been notified of the second. -/
def lateNotice : List (ThreadEvent Bool (GattPoint 1)) :=
  [.enter false (.start (.connected 7 false)), .step false,
    .enter false (.start (.enqueue 7 [1])), .step false, .step false, .step false, .step false] ++
  [.enter true (.start (.read .zero 7 22 0)), .step true, .step true, .step true, .step true,
    .enter true (.start (.read .zero 7 22 0)), .step true, .step true, .step true, .step true,
    .enter true (.start (.enqueue 7 [2])), .step true, .step true, .step true, .step true,
    .step true] ++ [.step false]

/-- A packet looked up for one phone waits for the next one unannounced. -/
example :
    let es : List (ThreadEvent Bool (GattPoint 1)) :=
      [.enter false (.start (.connected 7 false)), .step false,
        .enter false (.start (.enqueue 7 [1])), .step false,
        .enter true (.start (.disconnected 7)), .step true, .step true, .step true, .step true,
        .step true, .step true, .enter true (.start (.connected 8 false)), .step true,
        .step false, .step false, .step false, .step false]
    let s := ((gattCode 1 .wire).threads Bool).run (gattThreads Bool 1) es
    let heard := ((gattCode 1 .wire).threads Bool).noted (Wakeup.note 8) (gattThreads Bool 1) .none es
    ((s.memory.conns 0).conn = some 8 ∧ 0 < (s.memory.conns 0).queue.count) ∧
      heard.due = false ∧ heard.passedOver = false := by
  decide

end MeshPbx
