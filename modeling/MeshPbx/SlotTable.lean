import MeshPbx.SlotAgreement
import Mathlib.Data.Fintype.Card

/-! The slot table over whole runs: who holds a slot, how many slots are taken and what
the eight-bit counter says of it. -/
namespace MeshPbx
variable {n : Nat} {p : Platform} {g g' : Gatt n} {i : Fin n} {conn : BtConn}

namespace Gatt

def taken (g : Gatt n) : Finset (Fin n) :=
  Finset.univ.filter fun i => (g.conns i).conn.isSome = true

/-- How many slots are taken. -/
def occupied (g : Gatt n) : Nat := g.taken.card

def Full (g : Gatt n) : Prop := ∀ i, (g.conns i).conn ≠ none

@[simp] theorem mem_taken : i ∈ g.taken ↔ (g.conns i).conn.isSome = true := by
  simp [taken]

/-- The eight-bit counter counts the taken slots, as far as eight bits can. -/
def Counted (g : Gatt n) : Prop := g.activeConnCount = g.occupied % 2 ^ 8

theorem occupied_le (g : Gatt n) : g.occupied ≤ n := by
  have within := Finset.card_le_univ g.taken
  simpa [occupied] using within

theorem occupied_zero : (Gatt.zero n).occupied = 0 := by
  simp [occupied, taken, Gatt.zero, ProxyConn.zero]

theorem occupied_pos (tracked : g.Tracks conn) : 0 < g.occupied := by
  obtain ⟨i, holds⟩ := tracked
  exact Finset.card_pos.mpr ⟨i, by simp [holds]⟩

end Gatt

/-- What a call does to the holders of the slots and to the counter. -/
inductive TableStep (g g' : Gatt n) (call : GattCall n) : Prop
  | kept (holders : ∀ j, (g'.conns j).conn = (g.conns j).conn)
      (count : g'.activeConnCount = g.activeConnCount)
  | opened (i : Fin n) (conn : BtConn) (connected : call = .connected conn false)
      (vacant : (g.conns i).conn = none) (holder : (g'.conns i).conn = some conn)
      (others : ∀ j ≠ i, g'.conns j = g.conns j)
      (count : g'.activeConnCount = (g.activeConnCount + 1) % 2 ^ 8)
  | closed (i : Fin n) (conn : BtConn) (disconnected : call = .disconnected conn)
      (held : (g.conns i).conn = some conn) (holder : (g'.conns i).conn = none)
      (others : ∀ j ≠ i, g'.conns j = g.conns j)
      (count : g'.activeConnCount = (g.activeConnCount + 255) % 2 ^ 8)

theorem alloc_none (g : Gatt n) (conn : BtConn) : allocSlot g conn = none ↔ g.Full := by
  simp [allocSlot, Gatt.Full]

/-- A connection that finds every slot taken is turned away. -/
theorem connected_full (full : g.Full) (conn : BtConn) :
    onConnected g conn false = g.call (.disconnect conn .connLimitExceeded) := by
  have none : (List.finRange n).find? (fun i => (g.conns i).conn = Option.none) = Option.none := by
    rw [List.find?_eq_none]
    intro i _
    simpa using full i
  simp only [onConnected, allocSlot, none, Option.map_none, Bool.false_eq_true, if_false]

/-- A connection that finds a vacant slot is given one. -/
theorem connected_opened (vacancy : ¬ g.Full) (conn : BtConn) :
    ∃ i, (g.conns i).conn = none ∧ ((onConnected g conn false).conns i).conn = some conn ∧
      (∀ j ≠ i, (onConnected g conn false).conns j = g.conns j) ∧
      (onConnected g conn false).activeConnCount = (g.activeConnCount + 1) % 2 ^ 8 := by
  unfold onConnected allocSlot
  cases found : (List.finRange n).find? (fun i => (g.conns i).conn = none) with
  | none =>
    rw [List.find?_eq_none] at found
    exact absurd (fun i => by simpa using found i (List.mem_finRange i)) vacancy
  | some i =>
    have vacant : (g.conns i).conn = none := by simpa using List.find?_some found
    simp only [Bool.false_eq_true, if_false, Option.map_some]
    refine ⟨i, vacant, ?_, ?_, ?_⟩
    · split_ifs <;> simp
    · intro j other
      split_ifs <;> exact Gatt.conns_setConn_ne _ other
    · split_ifs <;> rfl

theorem connected_table (g : Gatt n) (conn : BtConn) :
    TableStep g (onConnected g conn false) (.connected conn false) := by
  by_cases full : g.Full
  · rw [connected_full full]
    exact .kept (fun _ => rfl) rfl
  · obtain ⟨i, vacant, holder, others, count⟩ := connected_opened full conn
    exact .opened i conn rfl vacant holder others count

theorem disconnected_table (g : Gatt n) (conn : BtConn) :
    TableStep g (onDisconnected g conn) (.disconnected conn) := by
  unfold onDisconnected
  cases found : findSlot g conn with
  | none => exact .kept (fun _ => rfl) rfl
  | some i =>
    refine .closed i conn rfl (find_slot_some found) ?_ ?_ rfl
    · simp [freeSlot]
    · exact fun j other => Gatt.conns_setConn_ne _ other

theorem call_count (p : Platform) (g : Gatt n) (call : GattCall n) (place : call.InPlace) :
    (call.run p g).activeConnCount = g.activeConnCount := by
  cases call with
  | enqueue target data => exact (enqueue_rest g target data).1
  | encodeReply => rfl
  | replay target nonce =>
    simp only [GattCall.run, bleGattReplayCachedBurst]
    split
    · rfl
    · split_ifs <;> rfl
  | park target nonce =>
    exact (modify_rest g target fun pc => { pc with state := .pending, nonce := nonce }).1
  | read cache reader len offset => exact (read_rest cache g reader len offset).1
  | register target id =>
    rw [GattCall.run, register_conns]
    exact (modify_rest g target _).1
  | requestTeardown target =>
    rw [GattCall.run, request_teardown_conns]
    exact (modify_rest g target _).1
  | teardown slot =>
    simp only [GattCall.run, teardownWorkHandler]
    split
    · rfl
    · split_ifs <;> rfl
  | connected => exact place.elim
  | disconnected => exact place.elim

theorem call_table (documented : p.Documented) (g : Gatt n) (call : GattCall n) :
    TableStep g (call.run p g) call := by
  cases call with
  | connected conn err =>
    cases err with
    | true => exact .kept (fun _ => rfl) rfl
    | false => exact connected_table g conn
  | disconnected conn => exact disconnected_table g conn
  | _ => exact .kept (call_holder documented _ trivial) (call_count p g _ trivial)

theorem taken_kept (holders : ∀ j, (g'.conns j).conn = (g.conns j).conn) : g'.taken = g.taken := by
  ext j
  simp [holders j]

theorem occupied_opened (vacant : (g.conns i).conn = none) (holder : (g'.conns i).conn = some conn)
    (others : ∀ j ≠ i, g'.conns j = g.conns j) : g'.occupied = g.occupied + 1 := by
  have fresh : i ∉ g.taken := by simp [vacant]
  have slots : g'.taken = insert i g.taken := by
    ext j
    by_cases here : j = i
    · subst here
      simp [holder]
    · simp [here, others j here]
  rw [Gatt.occupied, slots, Finset.card_insert_of_notMem fresh, Gatt.occupied]

theorem TableStep.counted {call : GattCall n} (step : TableStep g g' call)
    (counted : g.Counted) : g'.Counted := by
  unfold Gatt.Counted at counted ⊢
  cases step with
  | kept holders count => rw [count, counted, Gatt.occupied, Gatt.occupied, taken_kept holders]
  | opened i conn _ vacant holder others count =>
    rw [count, counted, occupied_opened vacant holder others, Nat.mod_add_mod]
  | closed i conn _ held holder others count =>
    have back : g.occupied = g'.occupied + 1 :=
      occupied_opened holder held (fun j other => (others j other).symm)
    rw [count, counted, back]
    omega

theorem gatt_counted (documented : p.Documented)
    (reached : (gattSystem n p).Reachable (.zero n) g) : g.Counted := by
  refine Machine.Reachable.invariant (fun g call counted _ => ?_) ?_ reached
  · exact (call_table documented g call).counted counted
  · rw [Gatt.Counted, Gatt.occupied_zero]
    rfl

/-- With at most 255 slots the counter is the number of taken slots. -/
theorem Gatt.Counted.exact (counted : g.Counted) (small : n ≤ 255) :
    g.activeConnCount = g.occupied := by
  have within := g.occupied_le
  rw [counted, Nat.mod_eq_of_lt (by omega)]

/-- Each disconnection of a phone that holds a slot takes one off the counter. -/
theorem disconnected_count (counted : g.Counted) (small : n ≤ 255) (tracked : g.Tracks conn) :
    (onDisconnected g conn).activeConnCount + 1 = g.activeConnCount := by
  have exact := counted.exact small
  have positive := Gatt.occupied_pos tracked
  have within := g.occupied_le
  cases found : findSlot g conn with
  | none => exact absurd tracked (find_slot_none.mp found)
  | some i =>
    have count : (onDisconnected g conn).activeConnCount = (g.activeConnCount + 255) % 2 ^ 8 := by
      simp only [onDisconnected, found]
      rfl
    omega

/-- Phones that connect one after the other. -/
def arrivals (n k : Nat) : List (GattCall n) :=
  (List.range k).map fun conn => .connected conn false

theorem arrivals_fill (p : Platform) {k : Nat} (room : k ≤ n) :
    (gattSystem n p).Runs (.zero n) (arrivals n k) ∧
      ((gattSystem n p).run (.zero n) (arrivals n k)).occupied = k ∧
      ∀ conn, ((gattSystem n p).run (.zero n) (arrivals n k)).Tracks conn → conn < k := by
  induction k with
  | zero =>
    refine ⟨trivial, Gatt.occupied_zero, ?_⟩
    rintro conn ⟨i, holds⟩
    cases holds
  | succ k ih =>
    obtain ⟨runs, occupied, tracked⟩ := ih (Nat.le_of_succ_le room)
    have split : arrivals n (k + 1) = arrivals n k ++ [.connected k false] := by
      simp [arrivals, List.range_succ]
    rw [split, Machine.runs_snoc, Machine.run_append]
    generalize (gattSystem n p).run (.zero n) (arrivals n k) = g at occupied tracked ⊢
    have fresh : findSlot g k = none :=
      find_slot_none.mpr fun holds => Nat.lt_irrefl k (tracked k holds)
    have vacancy : ¬ g.Full := by
      intro full
      have all : g.taken = Finset.univ := by
        ext i
        simp [Option.isSome_iff_ne_none, full i]
      rw [Gatt.occupied, all, Finset.card_univ, Fintype.card_fin] at occupied
      omega
    obtain ⟨i, vacant, holder, others, _⟩ := connected_opened vacancy k
    refine ⟨⟨runs, fresh⟩, ?_, ?_⟩
    · have one := occupied_opened vacant holder others
      rwa [occupied] at one
    · rintro conn ⟨j, holds⟩
      by_cases here : j = i
      · subst here
        have same : k = conn := Option.some.inj (holder.symm.trans holds)
        exact same ▸ Nat.lt_succ_self k
      · have held : (g.conns j).conn = some conn := (others j here) ▸ holds
        exact Nat.lt_succ_of_lt (tracked conn ⟨j, held⟩)

end MeshPbx
