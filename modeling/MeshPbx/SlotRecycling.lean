import MeshPbx.Lib.Machine
import MeshPbx.SlotEffect
import MeshPbx.WireFormat

/-! An enqueue between its two atomic steps. The lookup resolves a slot before
the slot's lock is taken, and the section under the lock does not look again
whose slot it is. -/
namespace MeshPbx
variable {n : Nat}

/-- An enqueue whose lookup has returned and whose locked section has not run.
`tenancy` counts the connections its slot had been given by then. -/
structure InFlight (n : Nat) where
  slot : Fin n
  conn : BtConn
  tenancy : Nat
  data : Bytes

/-- The slot table, how many connections each slot has been given, and the
enqueues between their two steps. -/
structure Race (n : Nat) where
  gatt : Gatt n
  tenancy : Fin n → Nat
  flights : List (InFlight n)

def Race.boot (n : Nat) : Race n := ⟨.zero n, fun _ => 0, []⟩

inductive RaceEvent where
  | lookup (conn : BtConn) (data : Bytes)
  | locked (k : Nat)
  | connected (conn : BtConn) (err : Bool)
  | disconnected (conn : BtConn)
  | read (conn : BtConn) (len offset : Nat)
  | requestTeardown (conn : BtConn)

namespace Race

def lookup (s : Race n) (conn : BtConn) (data : Bytes) : Race n :=
  if data.length > FROMRADIO_MAX_PKT_SIZE then s
  else match findSlot s.gatt conn with
    | none => s
    | some i => { s with flights := s.flights ++ [⟨i, conn, s.tenancy i, data⟩] }

def append (s : Race n) (f : InFlight n) : Gatt n :=
  (enqueueLocked s.gatt f.slot f.conn f.data).1

def locked (s : Race n) (k : Nat) : Race n :=
  match s.flights[k]? with
  | none => s
  | some f => { s with gatt := s.append f, flights := s.flights.eraseIdx k }

/-- The connection callback counts a new tenancy of the slot it allocates. -/
def connected (s : Race n) (conn : BtConn) (err : Bool) : Race n :=
  { s with
    gatt := onConnected s.gatt conn err
    tenancy := match if err then none else allocSlot s.gatt conn with
      | none => s.tenancy
      | some (i, _) => Function.update s.tenancy i (s.tenancy i + 1) }

def enabled (s : Race n) : RaceEvent → Prop
  | .locked k => k < s.flights.length
  | .connected conn _ => findSlot s.gatt conn = none
  | _ => True

def next (p : Platform) (c : ConfigCache) (s : Race n) : RaceEvent → Race n
  | .lookup conn data => s.lookup conn data
  | .locked k => s.locked k
  | .connected conn err => s.connected conn err
  | .disconnected conn => { s with gatt := onDisconnected s.gatt conn }
  | .read conn len offset => { s with gatt := (fromradioRead p c s.gatt conn len offset).1 }
  | .requestTeardown conn => { s with gatt := (bleGattRequestTeardown s.gatt conn).1 }

def machine (n : Nat) (p : Platform) (c : ConfigCache) : Machine (Race n) RaceEvent where
  enabled := Race.enabled
  next := Race.next p c

instance (p : Platform) (c : ConfigCache) (s : Race n) (e : RaceEvent) :
    Decidable ((machine n p c).enabled s e) := by
  change Decidable (s.enabled e)
  cases e <;> unfold Race.enabled <;> infer_instance

/-- With nothing between its two steps an enqueue is the unsplit function. -/
theorem lookup_then_locked (s : Race n) (conn : BtConn) (data : Bytes) :
    ((s.lookup conn data).locked s.flights.length).gatt =
        (bleGattEnqueueFromradio s.gatt conn data).1 ∧
      ((s.lookup conn data).locked s.flights.length).flights = s.flights := by
  have past : s.locked s.flights.length = s := by simp [locked]
  unfold lookup bleGattEnqueueFromradio
  split_ifs with long
  · rw [past]
    exact ⟨rfl, rfl⟩
  · cases findSlot s.gatt conn with
    | none =>
      rw [past]
      exact ⟨rfl, rfl⟩
    | some i => simp [locked, append, List.eraseIdx_append_of_length_le]

/-- The connection the frame was enqueued for is the one that holds slot `j`. -/
def Belongs (s : Race n) (f : InFlight n) (j : Fin n) : Prop :=
  j = f.slot ∧ (s.gatt.conns j).conn = some f.conn ∧ s.tenancy j = f.tenancy

/-- Run now, the locked section of `f` changes the queue and the counter of no
connection but the frame's own. -/
def StaysHome (s : Race n) (f : InFlight n) : Prop :=
  ∀ j, ((s.append f).conns j).queued ≠ (s.gatt.conns j).queued ∨
    ((s.append f).conns j).fromnum ≠ (s.gatt.conns j).fromnum → s.Belongs f j

def AllStayHome (s : Race n) : Prop := ∀ f ∈ s.flights, s.StaysHome f

def AllBelong (s : Race n) : Prop := ∀ f ∈ s.flights, s.Belongs f f.slot

/-- The event disconnects the connection of a slot that an enqueue has looked
up and not yet locked. -/
def FreesInFlight (s : Race n) : RaceEvent → Prop
  | .disconnected conn => ∃ f ∈ s.flights, findSlot s.gatt conn = some f.slot
  | _ => False

instance (s : Race n) (e : RaceEvent) : Decidable (s.FreesInFlight e) := by
  cases e <;> unfold FreesInFlight <;> infer_instance

variable {s : Race n} {p : Platform} {c : ConfigCache} {f : InFlight n}

theorem Belongs.stays_home (home : s.Belongs f f.slot) : s.StaysHome f := by
  intro j changed
  by_cases here : j = f.slot
  · rw [here]
    exact home
  · have same : (s.append f).conns j = s.gatt.conns j := enqueue_locked_other here _ _
    simp [same] at changed

/-- A slot that no connection holds takes the packet all the same. -/
theorem vacant_slot_strays (vacant : (s.gatt.conns f.slot).conn = none)
    (stays : (s.gatt.conns f.slot).leaving = false)
    (room : (s.gatt.conns f.slot).queue.count < FROMRADIO_QUEUE_DEPTH) : ¬ s.StaysHome f := by
  intro home
  have after : (s.append f).conns f.slot = (s.gatt.conns f.slot).append room f.data := by
    simp [append, enqueue_locked_append stays room, notifyFromnum]
  have changed : ((s.append f).conns f.slot).queued ≠ (s.gatt.conns f.slot).queued := by
    rw [after, ProxyConn.queued_append]
    simp
  have holds := (home f.slot (.inl changed)).2.1
  rw [vacant] at holds
  contradiction

/-- Changing the table without changing whose the slots are. -/
theorem AllBelong.of_holders {g : Gatt n} (home : s.AllBelong)
    (holders : ∀ j, (g.conns j).conn = (s.gatt.conns j).conn) :
    AllBelong { s with gatt := g } := by
  intro f flying
  obtain ⟨same, holds, tenancy⟩ := home f flying
  exact ⟨same, by rw [holders, holds], tenancy⟩

theorem read_holders (c : ConfigCache) (g : Gatt n) (conn : BtConn) (len offset : Nat)
    (j : Fin n) : (((fromradioRead p c g conn len offset).1).conns j).conn = (g.conns j).conn := by
  unfold fromradioRead
  split
  · rfl
  · apply Gatt.holder_setConn
    split_ifs
    · exact stage_next_conn c _
    · rfl

theorem teardown_holders (g : Gatt n) (conn : BtConn) (j : Fin n) :
    ((bleGattRequestTeardown g conn).1.conns j).conn = (g.conns j).conn := by
  unfold bleGattRequestTeardown
  split
  · rfl
  · exact Gatt.holder_setConn (by rfl) j

/-- What the disconnect callback does to the slots. -/
theorem disconnected_conns (g : Gatt n) (conn : BtConn) (j : Fin n) :
    (onDisconnected g conn).conns j =
      if findSlot g conn = some j then { g.conns j with teardownWork := none }.reset none
      else g.conns j := by
  unfold onDisconnected
  cases found : findSlot g conn with
  | none => simp
  | some i =>
    by_cases here : j = i
    · subst here
      simp [freeSlot, ProxyConn.reset]
    · rw [if_neg (by simpa using Ne.symm here)]
      exact Gatt.conns_setConn_ne _ here

/-- The connection callback takes a slot that nobody holds and counts its
tenancy, or changes no slot. -/
theorem connected_slot (s : Race n) (conn : BtConn) (err : Bool) (j : Fin n)
    (held : (s.gatt.conns j).conn ≠ none) :
    ((s.connected conn err).gatt.conns j).conn = (s.gatt.conns j).conn ∧
      (s.connected conn err).tenancy j = s.tenancy j := by
  unfold connected onConnected
  cases err with
  | true => exact ⟨rfl, rfl⟩
  | false =>
    unfold allocSlot
    cases free : (List.finRange n).find? (fun i => (s.gatt.conns i).conn = none) with
    | none => exact ⟨rfl, rfl⟩
    | some i =>
      have vacant : (s.gatt.conns i).conn = none := by simpa using List.find?_some free
      have other : j ≠ i := fun same => held (by rw [same, vacant])
      simp only [Bool.false_eq_true, if_false, Option.map_some, Function.update_of_ne other,
        and_true]
      split_ifs
      · simp [Gatt.conns_setConn_ne _ other]
      · simp [Gatt.conns_setConn_ne _ other]

theorem all_belong_step {e : RaceEvent} (home : s.AllBelong)
    (keeps : ¬ s.FreesInFlight e) : (s.next p c e).AllBelong := by
  cases e with
  | lookup conn data =>
    simp only [next, lookup]
    split_ifs with long
    · exact home
    · cases found : findSlot s.gatt conn with
      | none => exact home
      | some i =>
        intro f flying
        rcases List.mem_append.mp flying with before | new
        · exact home f before
        · rw [List.mem_singleton.mp new]
          exact ⟨rfl, find_slot_some found, rfl⟩
  | locked k =>
    simp only [next, locked]
    cases s.flights[k]? with
    | none => exact home
    | some f =>
      intro other flying
      exact (home.of_holders (enqueue_locked_holder _ _)) other (List.mem_of_mem_eraseIdx flying)
  | connected conn err =>
    intro f flying
    obtain ⟨same, holds, tenancy⟩ := home f flying
    have kept := connected_slot s conn err f.slot (by simp [holds])
    exact ⟨same, by rw [next, kept.1, holds], by rw [next, kept.2, tenancy]⟩
  | disconnected conn =>
    intro f flying
    obtain ⟨same, holds, tenancy⟩ := home f flying
    have other : findSlot s.gatt conn ≠ some f.slot := fun freed => keeps ⟨f, flying, freed⟩
    refine ⟨same, ?_, tenancy⟩
    rw [next, disconnected_conns, if_neg other, holds]
  | read conn len offset => exact home.of_holders (read_holders c s.gatt conn len offset)
  | requestTeardown conn => exact home.of_holders (teardown_holders s.gatt conn)

/-- Freeing a slot under an enqueue leaves it to whoever holds the slot next. -/
theorem freed_in_flight_strays {e : RaceEvent} (frees : s.FreesInFlight e) :
    ¬ (s.next p c e).AllStayHome := by
  cases e with
  | disconnected conn =>
    obtain ⟨f, flying, found⟩ := frees
    intro home
    have freed := disconnected_conns s.gatt conn f.slot
    rw [if_pos found] at freed
    refine vacant_slot_strays ?_ ?_ ?_ (home f flying)
    · rw [next, freed]
      rfl
    · rw [next, freed]
      rfl
    · rw [next, freed]
      exact Nat.zero_lt_succ 15
  | _ => exact absurd frees id

/-- In every interleaving, whichever enqueue in flight runs its locked section
next changes no connection but its own, exactly when no connection is
disconnected between the two steps of an enqueue to it. -/
theorem frames_stay_home_iff (p : Platform) (c : ConfigCache) (es : List RaceEvent)
    (runs : (machine n p c).Runs (boot n) es) :
    (∀ k, ((machine n p c).run (boot n) (es.take k)).AllStayHome) ↔
      (machine n p c).Along (fun s e => ¬ s.FreesInFlight e) (boot n) es := by
  have sound : ∀ s : Race n, s.AllBelong → s.AllStayHome :=
    fun s home f flying => (home f flying).stays_home
  have breaks : ∀ (s : Race n) (e : RaceEvent), s.AllBelong → (machine n p c).enabled s e →
      ((machine n p c).next s e).AllStayHome → ¬ s.FreesInFlight e :=
    fun s e _ _ home frees => freed_in_flight_strays frees home
  exact Machine.prefixes_iff AllStayHome sound (fun s e home _ => all_belong_step home) breaks es
    (fun f flying => absurd flying (List.not_mem_nil)) runs

/-- Two phones, each receiving its own frame, and the slot of one recycled. -/
def orderlySchedule : List RaceEvent :=
  [.connected 7 false, .connected 8 false, .lookup 7 [1], .lookup 8 [2], .locked 1, .locked 0,
    .disconnected 7, .connected 9 false, .lookup 9 [3], .locked 0]

/-- With both enqueues in flight, and with the one into the recycled slot. -/
theorem orderly_frames_stay_home :
    ((machine 2 .wire .zero).run (boot 2) (orderlySchedule.take 4)).AllStayHome ∧
      ((machine 2 .wire .zero).run (boot 2) (orderlySchedule.take 9)).AllStayHome := by
  have always :=
    (frames_stay_home_iff (n := 2) .wire .zero orderlySchedule (by decide)).mpr (by decide)
  exact ⟨always 4, always 9⟩

/-- The phone leaves between the lookup and the lock, and another one connects
into its slot. -/
def recycledSchedule : List RaceEvent :=
  [.connected 7 false, .lookup 7 [1], .disconnected 7, .connected 8 false]

theorem recycled_slot_leaks :
    ∃ (s : Race 1) (f : InFlight 1), (machine 1 .wire .zero).Reachable (boot 1) s ∧
      f ∈ s.flights ∧ f.conn = 7 ∧ f.data = [1] ∧ f.slot = 0 ∧
      (s.gatt.conns 0).conn = some 8 ∧ (s.gatt.conns 0).queued = [] ∧
      ((s.append f).conns 0).conn = some 8 ∧ ((s.append f).conns 0).queued = [[1]] ∧
      ((s.append f).conns 0).fromnum = 1 :=
  ⟨(machine 1 .wire .zero).run (boot 1) recycledSchedule, ⟨0, 7, 1, [1]⟩,
    ⟨recycledSchedule, by decide, rfl⟩, List.mem_singleton.mpr rfl, rfl, rfl, rfl, by decide,
    by decide, by decide, by decide, by decide⟩

end Race
end MeshPbx
