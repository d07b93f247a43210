import MeshPbx.TeardownExpiry

/-! References to connections. A slot holds one from alloc_slot to free_slot, and the
handler of a teardown takes its own under the slot's lock and gives it back when it has
entered the BLE stack, by when the slot may have been freed and the phone be gone. The
stack hands a bt_conn out again only when nobody holds a reference to it. -/
namespace MeshPbx
variable {n : Nat} {p : Platform} {g g' : Gatt n} {i : Fin n} {conn : BtConn}

/-! How many slots hold a connection. -/

def Gatt.holders (g : Gatt n) (conn : BtConn) : Nat :=
  (Finset.univ.filter fun i => (g.conns i).conn = some conn).card

theorem holders_pos (holds : (g.conns i).conn = some conn) : 0 < g.holders conn :=
  Finset.card_pos.mpr ⟨i, by simpa using holds⟩

theorem holders_kept (same : ∀ j, (g'.conns j).conn = (g.conns j).conn) (conn : BtConn) :
    g'.holders conn = g.holders conn := by
  simp only [Gatt.holders, same]

theorem holders_opened (vacant : (g.conns i).conn = none) (holder : (g'.conns i).conn = some conn)
    (others : ∀ j ≠ i, (g'.conns j).conn = (g.conns j).conn) :
    g'.holders = Function.update g.holders conn (g.holders conn + 1) := by
  funext other
  by_cases mine : other = conn
  · subst mine
    have fresh : i ∉ Finset.univ.filter fun j => (g.conns j).conn = some other := by simp [vacant]
    have slots : (Finset.univ.filter fun j => (g'.conns j).conn = some other) =
        insert i (Finset.univ.filter fun j => (g.conns j).conn = some other) := by
      ext j
      by_cases here : j = i
      · subst here
        simp [holder]
      · simp [here, others j here]
    rw [Function.update_self, Gatt.holders, slots, Finset.card_insert_of_notMem fresh, Gatt.holders]
  · rw [Function.update_of_ne mine, Gatt.holders, Gatt.holders]
    congr 1
    ext j
    by_cases here : j = i
    · subst here
      simp [holder, vacant, Ne.symm mine]
    · simp [others j here]

/-! The steps. -/

/-- The table, the references taken and not given back, those held by handlers that are
past their locked section, and the phones that have sent a disconnect since they were
last connected. -/
structure References (n : Nat) where
  table : Departures n
  refs : BtConn → Nat
  held : List BtConn
  asked : BtConn → Bool

/-- `grab` is the locked section of a teardown's handler, `hangUp` its call into the
stack and `release` its bt_conn_unref. -/
inductive RefStep (n : Nat) where
  | table (e : Departure n)
  | grab (k : Nat)
  | hangUp (h : Nat)
  | release (h : Nat)

/-- The phone that is reported connected. -/
def Departure.arrival : Departure n → Option BtConn
  | .call (.connected conn _) => some conn
  | _ => none

def Departure.isCheck : Departure n → Bool
  | .check _ => true
  | _ => false

namespace References

def boot (n : Nat) : References n := ⟨.boot n, fun _ => 0, [], fun _ => false⟩

/-- The references after a step of the table: bt_conn_ref in alloc_slot, bt_conn_unref in
free_slot. -/
def counted (s : References n) : Departure n → BtConn → Nat
  | .call (.connected conn false) =>
    if (allocSlot s.table.gatt conn).isSome then Function.update s.refs conn (s.refs conn + 1)
    else s.refs
  | .free slot => match (s.table.gatt.conns slot).conn with
    | some conn => Function.update s.refs conn (s.refs conn - 1)
    | none => s.refs
  | _ => s.refs

def requested (s : References n) : Departure n → BtConn → Bool
  | .call (.requestTeardown conn) => Function.update s.asked conn true
  | .call (.connected conn _) => Function.update s.asked conn false
  | _ => s.asked

def grab (s : References n) (k : Nat) : References n :=
  match s.table.dequeued[k]? with
  | none => s
  | some i =>
    let s := { s with table := { s.table with dequeued := s.table.dequeued.eraseIdx k } }
    match (s.table.gatt.conns i).conn with
    | none => s
    | some conn =>
      if (s.table.gatt.conns i).leaving then
        { s with refs := Function.update s.refs conn (s.refs conn + 1), held := s.held ++ [conn] }
      else s

def hangUp (s : References n) (h : Nat) : References n :=
  match s.held[h]? with
  | none => s
  | some conn =>
    { s with table := { s.table with gatt := s.table.gatt.call (.disconnect conn .remoteUserTermConn) } }

def release (s : References n) (h : Nat) : References n :=
  match s.held[h]? with
  | none => s
  | some conn =>
    { s with refs := Function.update s.refs conn (s.refs conn - 1), held := s.held.eraseIdx h }

/-- The check of the table is three steps here. -/
def enabled (s : References n) : RefStep n → Prop
  | .table e => s.table.enabled e ∧ e.isCheck = false ∧ ∀ conn ∈ e.arrival, s.refs conn = 0
  | .grab k => k < s.table.dequeued.length
  | .hangUp h | .release h => h < s.held.length

def next (p : Platform) (s : References n) : RefStep n → References n
  | .table e =>
    { s with table := s.table.next p e, refs := s.counted e, asked := s.requested e }
  | .grab k => s.grab k
  | .hangUp h => s.hangUp h
  | .release h => s.release h

instance (s : References n) : (e : RefStep n) → Decidable (s.enabled e)
  | .table _ => inferInstanceAs (Decidable (_ ∧ _ ∧ ∀ conn ∈ _, _))
  | .grab _ | .hangUp _ | .release _ => inferInstanceAs (Decidable (_ < _))

end References

def references (n : Nat) (p : Platform) : Machine (References n) (RefStep n) where
  enabled := References.enabled
  next := References.next p

instance (p : Platform) (s : References n) (e : RefStep n) :
    Decidable ((references n p).enabled s e) :=
  inferInstanceAs (Decidable (s.enabled e))

variable {s : References n} {e : Departure n}

/-- With nothing between them the three steps are the check of the table, and no
reference is left over. -/
theorem grab_then_release (s : References n) {k : Nat} (within : k < s.table.dequeued.length) :
    let grabbed := s.grab k
    let h := s.held.length
    ((grabbed.hangUp h).release h).table = s.table.check k ∧
      ((grabbed.hangUp h).release h).refs = s.refs ∧
      ((grabbed.hangUp h).release h).held = s.held := by
  intro grabbed h
  have idle : grabbed.held = s.held → (grabbed.hangUp h).release h = grabbed := by
    intro same
    have none_held : grabbed.held[h]? = none := by
      rw [same]
      exact List.getElem?_eq_none (Nat.le_refl _)
    simp only [References.hangUp, none_held, References.release]
  have due : s.table.dequeued[k]? = some (s.table.dequeued.get ⟨k, within⟩) :=
    List.getElem?_eq_getElem within
  generalize s.table.dequeued.get ⟨k, within⟩ = i at due
  cases holder : (s.table.gatt.conns i).conn with
  | none =>
    have grab : grabbed = { s with table :=
        { s.table with dequeued := s.table.dequeued.eraseIdx k } } := by
      simp only [grabbed, References.grab, due, holder]
    rw [idle (by rw [grab]), grab]
    simp only [Departures.check, due, teardownWorkHandler, holder, and_self]
  | some conn =>
    by_cases leaving : (s.table.gatt.conns i).leaving = true
    · have grab : grabbed = { s with
          table := { s.table with dequeued := s.table.dequeued.eraseIdx k }
          refs := Function.update s.refs conn (s.refs conn + 1)
          held := s.held ++ [conn] } := by
        simp only [grabbed, References.grab, due, holder, if_pos leaving]
      rw [grab]
      simp [References.hangUp, References.release, Departures.check, due, teardownWorkHandler,
        holder, leaving, h, List.eraseIdx_append_of_length_le]
    · have grab : grabbed = { s with table :=
          { s.table with dequeued := s.table.dequeued.eraseIdx k } } := by
        simp only [grabbed, References.grab, due, holder, if_neg leaving]
      rw [idle (by rw [grab]), grab]
      simp only [Departures.check, due, teardownWorkHandler, holder, if_neg leaving, and_self]

/-! The invariant. -/

/-- A reference is a slot's or a handler's, and whoever is to be dropped has asked. -/
structure Referenced (s : References n) : Prop where
  distinct : s.table.gatt.Distinct
  counted : ∀ conn, s.refs conn = s.table.gatt.holders conn + s.held.count conn
  slots : ∀ i conn, (s.table.gatt.conns i).conn = some conn →
    (s.table.gatt.conns i).leaving = true → s.asked conn = true
  handlers : ∀ conn ∈ s.held, s.asked conn = true

theorem referenced_boot : Referenced (References.boot n) where
  distinct i j conn held := by cases held
  counted conn := by simp [References.boot, Departures.boot, Gatt.zero, ProxyConn.zero, Gatt.holders]
  slots i conn held := by cases held
  handlers conn member := absurd member List.not_mem_nil

/-- A request stands until the phone is connected anew. -/
theorem requested_kept (asked : s.asked conn = true) (stays : conn ∉ e.arrival) :
    s.requested e conn = true := by
  cases e with
  | call call =>
    cases call with
    | requestTeardown other =>
      simp only [References.requested]
      by_cases mine : conn = other
      · rw [mine, Function.update_self]
      · rw [Function.update_of_ne mine, asked]
    | connected other err =>
      have apart : conn ≠ other := fun same => stays (by simp [Departure.arrival, same])
      simp only [References.requested, Function.update_of_ne apart, asked]
    | _ => exact asked
  | _ => exact asked

/-- A phone is connected anew only when no slot and no handler holds it. -/
theorem unreferenced (referenced : Referenced s) (enabled : s.enabled (.table e))
    (arrives : conn ∈ e.arrival) : s.table.gatt.holders conn = 0 ∧ conn ∉ s.held := by
  have none_left := enabled.2.2 conn arrives
  have parts := referenced.counted conn
  exact ⟨by omega, List.count_eq_zero.mp (by omega)⟩

theorem referenced_handlers (referenced : Referenced s) (enabled : s.enabled (.table e))
    (member : conn ∈ s.held) : s.requested e conn = true :=
  requested_kept (referenced.handlers conn member)
    fun arrives => (unreferenced referenced enabled arrives).2 member

/-- A step that neither gives a slot nor frees one takes no reference. -/
theorem counted_kept (referenced : Referenced s) (refs : s.counted e = s.refs)
    (same : ∀ j, ((s.table.next p e).gatt.conns j).conn = (s.table.gatt.conns j).conn)
    (conn : BtConn) :
    s.counted e conn = (s.table.next p e).gatt.holders conn + s.held.count conn := by
  rw [refs, holders_kept same]
  exact referenced.counted conn

/-- alloc_slot takes a reference for the slot it gives. -/
theorem counted_connected (referenced : Referenced s) (fresh : BtConn) (conn : BtConn) :
    s.counted (.call (.connected fresh false)) conn =
      (s.table.next p (.call (.connected fresh false))).gatt.holders conn + s.held.count conn := by
  by_cases full : s.table.gatt.Full
  · refine counted_kept referenced ?_ (fun j => ?_) conn
    · have refused := (alloc_none s.table.gatt fresh).mpr full
      simp only [References.counted, refused, Option.isSome_none, Bool.false_eq_true, if_false]
    · simp only [Departures.next, GattCall.run, connected_full full]
      rfl
  · obtain ⟨i, vacant, holder, others, _⟩ := connected_opened full fresh
    have given : (allocSlot s.table.gatt fresh).isSome = true := by
      rw [Option.isSome_iff_ne_none]
      exact fun refused => full ((alloc_none s.table.gatt fresh).mp refused)
    have opened := holders_opened vacant holder fun j other => by rw [others j other]
    have parts := referenced.counted
    have after : (s.table.next p (.call (.connected fresh false))).gatt =
        onConnected s.table.gatt fresh false := rfl
    rw [after, opened]
    simp only [References.counted, given, if_true]
    by_cases mine : conn = fresh
    · rw [mine, Function.update_self, Function.update_self, parts]
      omega
    · rw [Function.update_of_ne mine, Function.update_of_ne mine, parts]

/-- free_slot gives the slot's reference back. -/
theorem counted_freed (referenced : Referenced s) (slot : Fin n) (conn : BtConn) :
    s.counted (.free slot) conn =
      (s.table.next p (.free slot)).gatt.holders conn + s.held.count conn := by
  have after : (s.table.next p (.free slot)).gatt.conns =
      (s.table.gatt.setConn slot ((s.table.gatt.conns slot).reset none)).conns := free_conns _ _
  have others : ∀ j ≠ slot, ((s.table.next p (.free slot)).gatt.conns j).conn =
      (s.table.gatt.conns j).conn := by
    intro j other
    rw [after, Gatt.conns_setConn_ne _ other]
  have vacant : ((s.table.next p (.free slot)).gatt.conns slot).conn = none := by
    rw [after, Gatt.conns_setConn_same]
    rfl
  cases holder : (s.table.gatt.conns slot).conn with
  | none =>
    refine counted_kept referenced (by simp only [References.counted, holder]) (fun j => ?_) conn
    by_cases here : j = slot
    · rw [here, vacant, holder]
    · exact others j here
  | some left =>
    have opened := holders_opened vacant holder fun j other => (others j other).symm
    have parts := referenced.counted
    simp only [opened] at parts
    simp only [References.counted, holder]
    by_cases mine : conn = left
    · have left_parts := parts left
      rw [Function.update_self] at left_parts
      rw [mine, Function.update_self]
      omega
    · have others_parts := parts conn
      rw [Function.update_of_ne mine] at others_parts
      rw [Function.update_of_ne mine]
      exact others_parts

section
variable (documented : p.Documented)
include documented

theorem referenced_counted (referenced : Referenced s) (enabled : s.enabled (.table e))
    (conn : BtConn) :
    s.counted e conn = (s.table.next p e).gatt.holders conn + s.held.count conn := by
  cases e with
  | call call =>
    cases call with
    | connected fresh err =>
      cases err with
      | true => exact counted_kept referenced rfl (fun j => rfl) conn
      | false => exact counted_connected referenced fresh conn
    | encodeReply => exact counted_kept referenced rfl (fun j => rfl) conn
    | disconnected left => exact enabled.1.2.elim
    | teardown slot => exact enabled.1.2.elim
    | _ =>
      refine counted_kept referenced rfl (fun j => ?_) conn
      exact call_holder documented _ (by exact trivial) j
  | locked slot target data =>
    refine counted_kept referenced rfl (fun j => ?_) conn
    exact (locked_face s.table.gatt slot target data j).conn
  | expire slot =>
    refine counted_kept referenced rfl (fun j => ?_) conn
    exact (cancel_slot s.table.gatt slot j).1
  | check k => exact absurd enabled.2.1 (by simp [Departure.isCheck])
  | cancel left =>
    refine counted_kept referenced rfl (fun j => ?_) conn
    simp only [Departures.next, Departures.cancel]
    split
    · rfl
    · exact (cancel_slot s.table.gatt _ j).1
  | free slot => exact counted_freed referenced slot conn

theorem referenced_slots (referenced : Referenced s) (enabled : s.enabled (.table e))
    (holds : ((s.table.next p e).gatt.conns i).conn = some conn)
    (leaving : ((s.table.next p e).gatt.conns i).leaving = true) : s.requested e conn = true := by
  cases slot_turn documented referenced.distinct enabled.1 i with
  | kept holder same =>
    have held := holder.symm.trans holds
    refine requested_kept (referenced.slots i conn held (same.symm.trans leaving)) fun arrives => ?_
    have positive := holders_pos held
    have absent := (unreferenced referenced enabled arrives).1
    omega
  | asked asker request _ holder =>
    obtain rfl : asker = conn := Option.some.inj (holder.symm.trans holds)
    simp only [request, References.requested, Function.update_self]
  | allocated _ _ _ _ stays => exact absurd (stays.symm.trans leaving) (by simp)
  | freed _ _ stays => exact absurd (stays.symm.trans leaving) (by simp)

theorem referenced_table (referenced : Referenced s) (enabled : s.enabled (.table e)) :
    Referenced (s.next p (.table e)) where
  distinct := departure_distinct documented referenced.distinct enabled.1
  counted := referenced_counted documented referenced enabled
  slots _ _ := referenced_slots documented referenced enabled
  handlers _ := referenced_handlers referenced enabled

end

/-- The handler finds its phone under the lock and takes a reference to it. -/
theorem referenced_grab (referenced : Referenced s) (k : Nat) : Referenced (s.grab k) := by
  obtain ⟨distinct, counted, slots, handlers⟩ := referenced
  unfold References.grab
  cases s.table.dequeued[k]? with
  | none => exact ⟨distinct, counted, slots, handlers⟩
  | some i =>
    cases holder : (s.table.gatt.conns i).conn with
    | none =>
      simp only [holder]
      exact ⟨distinct, counted, slots, handlers⟩
    | some conn =>
      simp only [holder]
      split_ifs with leaving
      · refine ⟨distinct, fun other => ?_, slots, fun other member => ?_⟩
        · have parts := counted other
          by_cases mine : other = conn
          · subst mine
            simp only [Function.update_self, List.count_append, List.count_singleton_self]
            omega
          · simp [Function.update_of_ne mine, Ne.symm mine, parts]
        · rcases List.mem_append.mp member with earlier | last
          · exact handlers other earlier
          · obtain rfl := List.mem_singleton.mp last
            exact slots i other holder leaving
      · exact ⟨distinct, counted, slots, handlers⟩

theorem referenced_hang_up (referenced : Referenced s) (h : Nat) : Referenced (s.hangUp h) := by
  obtain ⟨distinct, counted, slots, handlers⟩ := referenced
  unfold References.hangUp
  cases s.held[h]? with
  | none => exact ⟨distinct, counted, slots, handlers⟩
  | some conn => exact ⟨distinct, counted, slots, handlers⟩

theorem referenced_release (referenced : Referenced s) (h : Nat) : Referenced (s.release h) := by
  obtain ⟨distinct, counted, slots, handlers⟩ := referenced
  unfold References.release
  cases holds : s.held[h]? with
  | none => exact ⟨distinct, counted, slots, handlers⟩
  | some conn =>
    refine ⟨distinct, fun other => ?_, slots, fun other member => ?_⟩
    · obtain ⟨within, here⟩ := List.getElem?_eq_some_iff.mp holds
      have parts := counted other
      have split := (List.getElem_cons_eraseIdx_perm within).count_eq other
      rw [here] at split
      by_cases mine : other = conn
      · subst mine
        rw [List.count_cons_self] at split
        simp only [Function.update_self]
        omega
      · rw [List.count_cons_of_ne (Ne.symm mine)] at split
        simp only [Function.update_of_ne mine]
        omega
    · exact handlers other (List.mem_of_mem_eraseIdx member)

theorem referenced_step (documented : p.Documented) (s : References n) (e : RefStep n)
    (referenced : Referenced s) (enabled : (references n p).enabled s e) :
    Referenced ((references n p).next s e) := by
  cases e with
  | table e => exact referenced_table documented referenced enabled
  | grab k => exact referenced_grab referenced k
  | hangUp h => exact referenced_hang_up referenced h
  | release h => exact referenced_release referenced h

/-- In every interleaving each reference to a connection is a slot's or a handler's, so
that none is given back twice and none is left behind. A handler drops only a link that
is still referenced, and whose phone has asked for it since it was last connected, even
where the slot has been freed and given away meanwhile. -/
theorem references_balanced (documented : p.Documented) (es : List (RefStep n))
    (runs : (references n p).Runs (.boot n) es) :
    let s := (references n p).run (.boot n) es
    (∀ conn, s.refs conn = s.table.gatt.holders conn + s.held.count conn) ∧
      (∀ i conn, (s.table.gatt.conns i).conn = some conn → 0 < s.refs conn) ∧
      ∀ conn ∈ s.held, 0 < s.refs conn ∧ s.asked conn = true := by
  intro s
  have referenced : Referenced s :=
    Machine.invariant (referenced_step documented) es referenced_boot runs
  refine ⟨referenced.counted, fun i conn holds => ?_, fun conn member => ⟨?_, ?_⟩⟩
  · have positive := holders_pos holds
    have parts := referenced.counted conn
    omega
  · have positive := List.count_pos_iff.mpr member
    have parts := referenced.counted conn
    omega
  · exact referenced.handlers conn member

/-- A phone asks to be disconnected and hangs up by itself while the handler, past its
lock, still holds it: its slot goes to another phone before the handler lets go. -/
def lateRelease : List (RefStep 2) :=
  [.table (.call (.connected 7 false)), .table (.call (.requestTeardown 7)), .table (.expire 0),
    .grab 0, .table (.cancel 7), .table (.free 0), .table (.call (.connected 8 false)), .hangUp 0]

theorem late_release_balanced :
    ((references 2 .wire).run (.boot 2) lateRelease).refs 7 = 1 ∧
      ((references 2 .wire).run (.boot 2) lateRelease).asked 7 = true ∧
      ((references 2 .wire).run (.boot 2) lateRelease).table.gatt.btCalls.getLast? =
        some (.disconnect 7 .remoteUserTermConn) :=
  have balanced := references_balanced wire_documented lateRelease (by decide)
  ⟨by decide, (balanced.2.2 7 (by decide)).2, by decide⟩

end MeshPbx
