import MeshPbx.SlotTable
import MeshPbx.WireFormat

/-! A teardown between its two steps. The work item of a slot leaves the queue before its
handler takes the slot's lock, and a disconnection cancels it before it frees the slot.
Between these the slot may be freed and given to another phone. -/
namespace MeshPbx
variable {n : Nat} {p : Platform} {g : Gatt n} {i j : Fin n} {conn : BtConn}

/-- The first half of `free_slot`, before it takes the lock. -/
def cancelTeardown (g : Gatt n) (i : Fin n) : Gatt n :=
  g.setConn i { g.conns i with teardownWork := none }

/-- The half under the lock. -/
def releaseSlot (g : Gatt n) (i : Fin n) : Gatt n :=
  g.setConn i
    { g.conns i with
      conn := none
      proxyId := .zero
      fromnum := 0
      queue := .empty (g.conns i).queue.slots
      stagedLen := 0
      state := .connected
      leaving := false
      nonce := 0
      replayCursor := 0 }

/-- The server, the teardowns taken off the queue whose locked check is still to come,
and the slots that a disconnection has cancelled the teardown of and not yet freed. -/
structure Departures (n : Nat) where
  gatt : Gatt n
  dequeued : List (Fin n)
  freeing : Fin n → Bool

def Departures.boot (n : Nat) : Departures n := ⟨.zero n, [], fun _ => false⟩

/-- A call is any other function of the server, whole; `locked` is the locked section of
an enqueue whose lookup may be as old as one likes. -/
inductive Departure (n : Nat) where
  | call (call : GattCall n)
  | locked (slot : Fin n) (conn : BtConn) (data : Bytes)
  | expire (slot : Fin n)
  | check (k : Nat)
  | cancel (conn : BtConn)
  | free (slot : Fin n)

/-- The call is not one of the two that are split. -/
def GattCall.Entire : GattCall n → Prop
  | .teardown _ | .disconnected _ => False
  | .enqueue _ _ | .encodeReply | .replay _ _ | .park _ _ | .read _ _ _ _ | .register _ _
  | .requestTeardown _ | .connected _ _ => True

instance : (call : GattCall n) → Decidable call.Entire
  | .teardown _ | .disconnected _ => isFalse id
  | .enqueue _ _ | .encodeReply | .replay _ _ | .park _ _ | .read _ _ _ _ | .register _ _
  | .requestTeardown _ | .connected _ _ => isTrue trivial

namespace Departures

def expire (s : Departures n) (i : Fin n) : Departures n :=
  { s with
    gatt := s.gatt.setConn i { s.gatt.conns i with teardownWork := none }
    dequeued := s.dequeued ++ [i] }

def check (s : Departures n) (k : Nat) : Departures n :=
  match s.dequeued[k]? with
  | none => s
  | some i => { s with gatt := teardownWorkHandler s.gatt i, dequeued := s.dequeued.eraseIdx k }

def cancel (s : Departures n) (conn : BtConn) : Departures n :=
  match findSlot s.gatt conn with
  | none => { s with gatt := s.gatt.call .advStart }
  | some i =>
    { s with gatt := cancelTeardown s.gatt i, freeing := Function.update s.freeing i true }

def free (s : Departures n) (i : Fin n) : Departures n :=
  let g := releaseSlot s.gatt i
  { s with
    gatt := { g with activeConnCount := (g.activeConnCount + 255) % 2 ^ 8 }.call .advStart
    freeing := Function.update s.freeing i false }

def enabled (s : Departures n) : Departure n → Prop
  | .call call => call.enabled s.gatt ∧ call.Entire
  | .locked _ _ _ => True
  | .expire slot => (s.gatt.conns slot).teardownWork.isSome = true
  | .check k => k < s.dequeued.length
  | .cancel conn => ∀ i ∈ findSlot s.gatt conn, s.freeing i = false
  | .free slot => s.freeing slot = true

def next (p : Platform) (s : Departures n) : Departure n → Departures n
  | .call call => { s with gatt := call.run p s.gatt }
  | .locked slot conn data => { s with gatt := (enqueueLocked s.gatt slot conn data).1 }
  | .expire slot => s.expire slot
  | .check k => s.check k
  | .cancel conn => s.cancel conn
  | .free slot => s.free slot

instance (s : Departures n) : (e : Departure n) → Decidable (s.enabled e)
  | .call _ => inferInstanceAs (Decidable (_ ∧ _))
  | .locked _ _ _ => isTrue trivial
  | .expire _ => inferInstanceAs (Decidable (_ = true))
  | .check _ => inferInstanceAs (Decidable (_ < _))
  | .cancel _ => inferInstanceAs (Decidable (∀ i ∈ _, _))
  | .free _ => inferInstanceAs (Decidable (_ = true))

end Departures

def departures (n : Nat) (p : Platform) : Machine (Departures n) (Departure n) where
  enabled := Departures.enabled
  next := Departures.next p

instance (p : Platform) (s : Departures n) (e : Departure n) :
    Decidable ((departures n p).enabled s e) :=
  inferInstanceAs (Decidable (s.enabled e))

variable {s : Departures n} {e : Departure n}

/-- With nothing between its two steps a teardown is the unsplit handler. -/
theorem expire_then_check (p : Platform) (s : Departures n) (i : Fin n) :
    ((s.expire i).check s.dequeued.length).gatt = GattCall.run p s.gatt (.teardown i) ∧
      ((s.expire i).check s.dequeued.length).dequeued = s.dequeued := by
  simp [Departures.expire, Departures.check, GattCall.run, List.eraseIdx_append_of_length_le]

/-- Nor is a disconnection more than its two steps. -/
theorem cancel_then_free (found : findSlot s.gatt conn = some i) :
    ((s.cancel conn).free i).gatt = onDisconnected s.gatt conn := by
  simp only [Departures.cancel, found, Departures.free, cancelTeardown, releaseSlot, onDisconnected,
    freeSlot, Gatt.conns_setConn_same]
  simp [Gatt.setConn]

/-! What one step does to a slot's holder and to its `leaving` flag. -/

inductive SlotTurn (e : Departure n) (i : Fin n) (pc pc' : ProxyConn) : Prop
  | kept (holder : pc'.conn = pc.conn) (leaving : pc'.leaving = pc.leaving)
      (silent : ∀ conn, pc.conn = some conn → e ≠ .call (.requestTeardown conn))
      (held : e ≠ .free i)
  | asked (conn : BtConn) (request : e = .call (.requestTeardown conn))
      (holds : pc.conn = some conn) (holder : pc'.conn = some conn) (leaving : pc'.leaving = true)
  | allocated (conn : BtConn) (connected : e = .call (.connected conn false))
      (vacant : pc.conn = none) (holder : pc'.conn = some conn) (stays : pc'.leaving = false)
  | freed (free : e = .free i) (vacant : pc'.conn = none) (stays : pc'.leaving = false)

variable {pc pc' : ProxyConn}

/-- A step that no phone asks anything in and that frees no slot. -/
theorem SlotTurn.of_face (same : SameFace pc' pc)
    (silent : ∀ conn, e ≠ .call (.requestTeardown conn)) (held : e ≠ .free i) :
    SlotTurn e i pc pc' :=
  .kept same.conn same.leaving (fun conn _ => silent conn) held

theorem SlotTurn.of_eq (same : pc' = pc) (silent : ∀ conn, pc.conn = some conn →
    e ≠ .call (.requestTeardown conn)) (held : e ≠ .free i) : SlotTurn e i pc pc' :=
  .kept (by rw [same]) (by rw [same]) silent held

theorem locked_face (g : Gatt n) (slot : Fin n) (target : BtConn) (data : Bytes) (j : Fin n) :
    SameFace ((enqueueLocked g slot target data).1.conns j) (g.conns j) := by
  by_cases other : j = slot
  · subst other
    simp only [enqueueLocked]
    split_ifs
    · exact ⟨rfl, rfl, rfl, rfl⟩
    · exact ⟨rfl, rfl, rfl, rfl⟩
    · simp only [notifyFromnum, Gatt.conns_call, Gatt.conns_setConn_same]
      exact ⟨rfl, rfl, rfl, rfl⟩
  · rw [enqueue_locked_other other]
    exact ⟨rfl, rfl, rfl, rfl⟩

/-- Cancelling a teardown, or taking it off the queue, shows on no slot but in its work
item. -/
theorem cancel_slot (g : Gatt n) (slot j : Fin n) :
    ((cancelTeardown g slot).conns j).conn = (g.conns j).conn ∧
      ((cancelTeardown g slot).conns j).leaving = (g.conns j).leaving ∧
      ((cancelTeardown g slot).conns j).queued = (g.conns j).queued := by
  unfold cancelTeardown
  by_cases here : j = slot
  · subst here
    rw [Gatt.conns_setConn_same]
    exact ⟨rfl, rfl, rfl⟩
  · rw [Gatt.conns_setConn_ne _ here]
    exact ⟨rfl, rfl, rfl⟩

theorem check_conns (s : Departures n) (k : Nat) : (s.check k).gatt.conns = s.gatt.conns := by
  unfold Departures.check
  split
  · rfl
  · exact teardown_conns _ _

theorem free_conns (s : Departures n) (slot : Fin n) :
    (s.free slot).gatt.conns = (s.gatt.setConn slot ((s.gatt.conns slot).reset none)).conns := rfl

section
variable (documented : p.Documented)
include documented

theorem held_turn (distinct : g.Distinct) (holds : (g.conns i).conn = some conn)
    {call : GattCall n} (entire : call.Entire) :
    SlotTurn (.call call) i (g.conns i) ((call.run p g).conns i) := by
  rw [call_slot documented distinct holds]
  cases call with
  | enqueue target data =>
    simp only [ProxyConn.after]
    split_ifs
    · exact .of_face (offer_face data _) (by simp) (by simp)
    · exact .of_eq rfl (by simp) (by simp)
  | encodeReply => exact .of_eq rfl (by simp) (by simp)
  | replay target nonce =>
    simp only [ProxyConn.after]
    split_ifs <;> exact .kept rfl rfl (by simp) (by simp)
  | park target nonce =>
    simp only [ProxyConn.after]
    split_ifs <;> exact .kept rfl rfl (by simp) (by simp)
  | read cache reader len offset =>
    simp only [ProxyConn.after]
    split_ifs
    · exact .of_face (stage_face cache _) (by simp) (by simp)
    · exact .of_eq rfl (by simp) (by simp)
  | register target id =>
    simp only [ProxyConn.after]
    split_ifs <;> exact .kept rfl rfl (by simp) (by simp)
  | requestTeardown target =>
    simp only [ProxyConn.after]
    split_ifs with own
    · subst own
      exact .asked target rfl holds holds rfl
    · refine .of_eq rfl ?_ (by simp)
      rintro other held same
      rw [holds] at held
      cases same
      exact own (Option.some.inj held).symm
  | connected fresh err => exact .of_eq rfl (by simp) (by simp)
  | teardown slot => exact entire.elim
  | disconnected left => exact entire.elim

theorem vacant_turn (vacant : (g.conns i).conn = none) {call : GattCall n}
    (entire : call.Entire) : SlotTurn (.call call) i (g.conns i) ((call.run p g).conns i) := by
  have silent : ∀ conn, (g.conns i).conn = some conn →
      Departure.call call ≠ .call (.requestTeardown conn) := by simp [vacant]
  rcases call_change documented g call i with same | ⟨finds, changed⟩
  · exact .of_eq same silent (by simp)
  · cases call with
    | encodeReply => exact finds.elim
    | connected fresh err =>
      obtain ⟨rfl, _⟩ := finds
      rw [changed]
      exact .allocated fresh rfl vacant rfl rfl
    | teardown => exact entire.elim
    | disconnected => exact entire.elim
    | _ =>
      rw [GattCall.Finds, vacant] at finds
      cases finds

/-- All that one step can do to a slot's holder and to its `leaving` flag. -/
theorem slot_turn (distinct : s.gatt.Distinct) (enabled : s.enabled e) (i : Fin n) :
    SlotTurn e i (s.gatt.conns i) ((s.next p e).gatt.conns i) := by
  cases e with
  | call call =>
    cases holder : (s.gatt.conns i).conn with
    | some conn => exact held_turn documented distinct holder enabled.2
    | none => exact vacant_turn documented holder enabled.2
  | locked slot conn data =>
    exact .of_face (locked_face s.gatt slot conn data i) (by simp) (by simp)
  | expire slot =>
    obtain ⟨holder, leaving, _⟩ := cancel_slot s.gatt slot i
    exact .kept holder leaving (by simp) (by simp)
  | check k => exact .of_eq (by rw [Departures.next, check_conns]) (by simp) (by simp)
  | cancel conn =>
    simp only [Departures.next, Departures.cancel]
    split
    · exact .of_eq rfl (by simp) (by simp)
    · rename_i slot _
      obtain ⟨holder, leaving, _⟩ := cancel_slot s.gatt slot i
      exact .kept holder leaving (by simp) (by simp)
  | free slot =>
    rw [Departures.next, free_conns]
    by_cases here : i = slot
    · subst here
      rw [Gatt.conns_setConn_same]
      exact .freed rfl rfl rfl
    · rw [Gatt.conns_setConn_ne _ here]
      exact .of_eq rfl (by simp) (by simpa using Ne.symm here)

theorem departure_distinct (distinct : s.gatt.Distinct) (enabled : s.enabled e) :
    (s.next p e).gatt.Distinct := by
  by_cases call : ∃ call, e = .call call
  · obtain ⟨call, rfl⟩ := call
    exact call_distinct documented distinct call enabled.1
  · intro j k conn left right
    have holds : ∀ i, ((s.next p e).gatt.conns i).conn = some conn →
        (s.gatt.conns i).conn = some conn := by
      intro i held
      cases slot_turn documented distinct enabled i with
      | kept holder => rw [← holder, held]
      | asked conn request => exact absurd ⟨_, request⟩ call
      | allocated conn connected => exact absurd ⟨_, connected⟩ call
      | freed _ vacant => exact absurd (vacant.symm.trans held) (by simp)
    exact distinct j k conn (holds j left) (holds k right)

end

/-! What holds of a slot since its phone was given it. -/

/-- The slot is in the phone's hands after the step. -/
def HeldAfter (p : Platform) (i : Fin n) (conn : BtConn) (s : Departures n) (e : Departure n) :
    Prop :=
  ((s.next p e).gatt.conns i).conn = some conn

/-- The run gave the vacant slot to the phone, which has held it through `during`. -/
def Tenure (p : Platform) (es : List (Departure n)) (i : Fin n) (conn : BtConn)
    (during : List (Departure n)) : Prop :=
  ∃ before, es = before ++ .call (.connected conn false) :: during ∧
    (((departures n p).run (.boot n) before).gatt.conns i).conn = none ∧
    (departures n p).Along (HeldAfter p i conn) ((departures n p).run (.boot n) before)
      (.call (.connected conn false) :: during)

/-- The phone that holds the slot has sent its disconnect since it was given the slot. -/
def AskedSince (p : Platform) (es : List (Departure n)) (i : Fin n) (conn : BtConn) : Prop :=
  ∃ during, Tenure p es i conn during ∧ .call (.requestTeardown conn) ∈ during

theorem Tenure.extend {es during : List (Departure n)} (tenure : Tenure p es i conn during)
    (held : HeldAfter p i conn ((departures n p).run (.boot n) es) e) :
    Tenure p (es ++ [e]) i conn (during ++ [e]) := by
  obtain ⟨before, rfl, vacant, along⟩ := tenure
  refine ⟨before, by simp, vacant, ?_⟩
  rw [← List.cons_append, Machine.along_snoc]
  refine ⟨along, ?_⟩
  rwa [Machine.run_append] at held

/-- What `leaving` says: false in a vacant slot, and in a held one true exactly when its
phone has asked since it was given the slot. -/
structure Told (p : Platform) (es : List (Departure n)) (s : Departures n) : Prop where
  distinct : s.gatt.Distinct
  vacant : ∀ i, (s.gatt.conns i).conn = none → (s.gatt.conns i).leaving = false
  held : ∀ i conn, (s.gatt.conns i).conn = some conn → ∃ during, Tenure p es i conn during ∧
    ((s.gatt.conns i).leaving = true ↔ .call (.requestTeardown conn) ∈ during)

theorem told_boot : Told p [] (Departures.boot n) where
  distinct i j conn held := by cases held
  vacant _ _ := rfl
  held i conn holds := by cases holds

theorem told_step (documented : p.Documented) {es : List (Departure n)}
    (told : Told p es ((departures n p).run (.boot n) es))
    (enabled : (departures n p).enabled ((departures n p).run (.boot n) es) e) :
    Told p (es ++ [e]) ((departures n p).next ((departures n p).run (.boot n) es) e) := by
  have turn := slot_turn documented told.distinct enabled
  refine ⟨departure_distinct documented told.distinct enabled, ?_, ?_⟩
  · intro i vacant
    cases turn i with
    | kept holder leaving =>
      exact leaving.trans (told.vacant i (holder.symm.trans vacant))
    | asked conn _ _ holder => exact absurd (holder.symm.trans vacant) (by simp)
    | allocated conn _ _ holder => exact absurd (holder.symm.trans vacant) (by simp)
    | freed _ _ stays => exact stays
  · intro i conn holds
    cases turn i with
    | kept holder leaving silent =>
      have before := holder.symm.trans holds
      obtain ⟨during, tenure, asked⟩ := told.held i conn before
      refine ⟨during ++ [e], tenure.extend holds, ?_⟩
      have other : Departure.call (.requestTeardown conn) ≠ e := (silent conn before).symm
      have same : ((((departures n p).next _ e).gatt.conns i).leaving = true) ↔ _ :=
        (Bool.eq_iff_iff.mp leaving).trans asked
      rw [same]
      simp [other]
    | asked asker request held holder leaving =>
      obtain rfl : asker = conn := Option.some.inj (holder.symm.trans holds)
      obtain ⟨during, tenure, _⟩ := told.held i asker held
      exact ⟨during ++ [e], tenure.extend holds, iff_of_true leaving (by simp [request])⟩
    | allocated fresh connected vacant holder stays =>
      obtain rfl : fresh = conn := Option.some.inj (holder.symm.trans holds)
      subst connected
      refine ⟨[], ⟨es, by simp, vacant, holds, trivial⟩, ?_⟩
      exact iff_of_false (Bool.eq_false_iff.mp stays) (by simp)
    | freed _ vacant => exact absurd (vacant.symm.trans holds) (by simp)

theorem told_run (documented : p.Documented) (es : List (Departure n))
    (runs : (departures n p).Runs (.boot n) es) :
    Told p es ((departures n p).run (.boot n) es) :=
  Machine.history_invariant (Told p) told_boot
    (fun _ _ told enabled => told_step documented told enabled) es runs

/-! A slot that is being left. -/

theorem stage_shrinks (cache : ConfigCache) (pc : ProxyConn) :
    (stageNext cache pc).queued <:+ pc.queued := by
  cases source : stageSource cache pc with
  | cached k => rw [(stage_cached source).2]; exact List.suffix_refl _
  | complete => rw [(stage_complete source).2]; exact List.suffix_refl _
  | queued =>
    obtain ⟨_, filled, staged⟩ := stage_queued source
    rw [staged]
    simp only [ProxyConn.queued, RingQueue.contents_pop _ filled, List.map_cons]
    exact List.suffix_cons _ _
  | nothing =>
    rcases stage_nothing source with ⟨_, _, staged⟩ | ⟨_, _, staged⟩
    · rw [staged]; exact List.suffix_refl _
    · rw [staged]; exact List.suffix_refl _

theorem locked_leaving (leaving : (g.conns i).leaving = true) (target : BtConn) (data : Bytes) :
    enqueueLocked g i target data = (g, some .eshutdown) := by
  simp only [enqueueLocked, leaving, if_true]

theorem offer_leaving (leaving : pc.leaving = true) (data : Bytes) : pc.offer data = pc := by
  have closed : ¬ pc.Open := fun ready => by simp [ready.2.1] at leaving
  unfold ProxyConn.offer
  rw [deliver_closed closed, ite_self]

/-- No step adds a packet to the queue of such a slot. -/
theorem leaving_shrinks (documented : p.Documented) (distinct : s.gatt.Distinct)
    (enabled : s.enabled e) (holds : (s.gatt.conns i).conn = some conn)
    (leaving : (s.gatt.conns i).leaving = true) (held : e ≠ .free i) :
    ((s.next p e).gatt.conns i).queued <:+ (s.gatt.conns i).queued := by
  cases e with
  | call call =>
    simp only [Departures.next]
    rw [call_slot documented distinct holds]
    cases call with
    | enqueue target data =>
      simp only [ProxyConn.after, offer_leaving leaving, ite_self]
      exact List.suffix_refl _
    | read cache reader len offset =>
      simp only [ProxyConn.after]
      split_ifs
      · exact stage_shrinks cache _
      · exact List.suffix_refl _
    | disconnected left => exact enabled.2.elim
    | encodeReply => exact List.suffix_refl _
    | connected fresh err => exact List.suffix_refl _
    | _ =>
      simp only [ProxyConn.after]
      split_ifs <;> exact List.suffix_refl _
  | locked slot target data =>
    by_cases here : i = slot
    · subst here
      simp only [Departures.next, locked_leaving leaving]
      exact List.suffix_refl _
    · simp only [Departures.next, enqueue_locked_other here]
      exact List.suffix_refl _
  | expire slot =>
    have same : ((s.expire slot).gatt.conns i).queued = (s.gatt.conns i).queued :=
      (cancel_slot s.gatt slot i).2.2
    exact same ▸ List.suffix_refl _
  | check k => rw [Departures.next, check_conns]
  | cancel target =>
    simp only [Departures.next, Departures.cancel]
    split
    · exact List.suffix_refl _
    · rename_i slot _
      exact (cancel_slot s.gatt slot i).2.2 ▸ List.suffix_refl _
  | free slot =>
    have other : i ≠ slot := fun same => held (by rw [same])
    rw [Departures.next, free_conns, Gatt.conns_setConn_ne _ other]

/-- The phone holds the slot, is leaving it, and its queue has not grown. -/
structure LeavingSlot (i : Fin n) (conn : BtConn) (queue : List Bytes) (s : Departures n) : Prop where
  distinct : s.gatt.Distinct
  holds : (s.gatt.conns i).conn = some conn
  leaving : (s.gatt.conns i).leaving = true
  shrinks : (s.gatt.conns i).queued <:+ queue

theorem leaving_step (documented : p.Documented) {queue : List Bytes} (s : Departures n)
    (e : Departure n) (slot : LeavingSlot i conn queue s) (enabled : (departures n p).enabled s e)
    (held : e ≠ .free i) : LeavingSlot i conn queue ((departures n p).next s e) := by
  have shrinks := leaving_shrinks documented slot.distinct enabled slot.holds slot.leaving held
  have distinct := departure_distinct documented slot.distinct enabled
  cases slot_turn documented slot.distinct enabled i with
  | kept holder leaving =>
    exact ⟨distinct, holder.trans slot.holds, leaving.trans slot.leaving,
      shrinks.trans slot.shrinks⟩
  | asked asker _ holds holder leaving =>
    exact ⟨distinct, holder.trans (holds.symm.trans slot.holds), leaving,
      shrinks.trans slot.shrinks⟩
  | allocated _ _ vacant => exact absurd (vacant.symm.trans slot.holds) (by simp)
  | freed free => exact absurd free held

theorem request_leaving (documented : p.Documented) (distinct : s.gatt.Distinct)
    (enabled : s.enabled (.call (.requestTeardown conn))) (found : findSlot s.gatt conn = some i) :
    LeavingSlot i conn (s.gatt.conns i).queued (s.next p (.call (.requestTeardown conn))) := by
  have slots : (s.next p (.call (.requestTeardown conn))).gatt.conns i =
      { s.gatt.conns i with leaving := true, teardownWork := some TEARDOWN_DELAY_MS } := by
    simp only [Departures.next, GattCall.run, bleGattRequestTeardown, found,
      Gatt.conns_setConn_same]
  refine ⟨departure_distinct documented distinct enabled, ?_, ?_, ?_⟩
  · rw [slots]
    exact find_slot_some found
  · rw [slots]
  · rw [slots]
    exact List.suffix_refl _

/-- The slot that a step of a teardown or a disconnection is about. -/
def Departures.concerns (s : Departures n) : Departure n → Option (Fin n)
  | .call (.requestTeardown conn) => findSlot s.gatt conn
  | .expire slot | .free slot => some slot
  | .check k => s.dequeued[k]?
  | .cancel conn => findSlot s.gatt conn
  | .call _ | .locked _ _ _ => none

/-- Such a step leaves every other slot as it is. -/
theorem others_unaffected (concerned : s.concerns e = some i) (other : j ≠ i) :
    (s.next p e).gatt.conns j = s.gatt.conns j := by
  cases e with
  | call call =>
    cases call with
    | requestTeardown conn =>
      have found : findSlot s.gatt conn = some i := concerned
      simp only [Departures.next, GattCall.run, bleGattRequestTeardown, found]
      exact Gatt.conns_setConn_ne _ other
    | _ => cases concerned
  | locked => cases concerned
  | expire slot =>
    cases concerned
    exact Gatt.conns_setConn_ne _ other
  | check k => rw [Departures.next, check_conns]
  | cancel conn =>
    have found : findSlot s.gatt conn = some i := concerned
    simp only [Departures.next, Departures.cancel, found, cancelTeardown]
    exact Gatt.conns_setConn_ne _ other
  | free slot =>
    cases concerned
    rw [Departures.next, free_conns, Gatt.conns_setConn_ne _ other]

/-- The locked check drops the link of the slot's holder if that is leaving, and does
nothing else. -/
theorem check_calls {k : Nat} (found : s.dequeued[k]? = some i) :
    (s.check k).gatt.btCalls = s.gatt.btCalls ∨
      ∃ conn, (s.gatt.conns i).conn = some conn ∧ (s.gatt.conns i).leaving = true ∧
        (s.check k).gatt.btCalls = s.gatt.btCalls ++ [.disconnect conn .remoteUserTermConn] := by
  simp only [Departures.check, found, teardownWorkHandler]
  cases holder : (s.gatt.conns i).conn with
  | none => exact .inl rfl
  | some conn =>
    cases leaving : (s.gatt.conns i).leaving with
    | true => exact .inr ⟨conn, rfl, rfl, rfl⟩
    | false => exact .inl rfl

/-- A teardown hits only the phone that asked for it, in every interleaving of its two
steps with requests, disconnections and connections: the handler drops the link of no
phone but one that sent its disconnect since it was given the slot; from that request
until the slot is freed every enqueue there fails with -ESHUTDOWN and the queue only
shrinks; and no other slot is touched. -/
theorem teardown_hits_asker (documented : p.Documented) (es : List (Departure n))
    (runs : (departures n p).Runs (.boot n) es) :
    let s := (departures n p).run (.boot n) es
    (∀ k i, s.dequeued[k]? = some i → (s.next p (.check k)).gatt.btCalls = s.gatt.btCalls ∨
      ∃ conn, AskedSince p es i conn ∧ (s.gatt.conns i).conn = some conn ∧
        (s.next p (.check k)).gatt.btCalls =
          s.gatt.btCalls ++ [.disconnect conn .remoteUserTermConn]) ∧
      (∀ before conn i during, es = before ++ .call (.requestTeardown conn) :: during →
        let s₀ := (departures n p).run (.boot n) before
        findSlot s₀.gatt conn = some i → (∀ e ∈ during, e ≠ .free i) →
        (s.gatt.conns i).conn = some conn ∧
          (s.gatt.conns i).queued <:+ (s₀.gatt.conns i).queued ∧
          (∀ target data, enqueueLocked s.gatt i target data = (s.gatt, some .eshutdown)) ∧
          ∀ data : Bytes, data.length ≤ FROMRADIO_MAX_PKT_SIZE →
            bleGattEnqueueFromradio s.gatt conn data = (s.gatt, some .eshutdown)) ∧
      ∀ e i, s.concerns e = some i → ∀ j ≠ i, (s.next p e).gatt.conns j = s.gatt.conns j := by
  intro s
  have told := told_run documented es runs
  refine ⟨?_, ?_, fun e i concerned j other => others_unaffected concerned other⟩
  · intro k i found
    rcases check_calls found with silent | ⟨conn, holds, leaving, called⟩
    · exact .inl silent
    · obtain ⟨during, tenure, asked⟩ := told.held i conn holds
      exact .inr ⟨conn, ⟨during, tenure, asked.mp leaving⟩, holds, called⟩
  · rintro before conn i during rfl s₀ found held
    obtain ⟨first, enabled, rest⟩ := (Machine.runs_append _ _).mp runs
    have distinct := (told_run documented before first).distinct
    have start := request_leaving documented distinct enabled found
    have whole : s = (departures n p).run
        (s₀.next p (.call (.requestTeardown conn))) during := Machine.run_append before _
    have slot : LeavingSlot i conn (s₀.gatt.conns i).queued s := by
      rw [whole]
      exact Machine.invariant_along (leaving_step documented) during start rest
        (Machine.along_of_forall during held)
    have shut := locked_leaving slot.leaving
    refine ⟨slot.holds, slot.shrinks, shut, fun data short => ?_⟩
    have found := find_slot_of_distinct slot.distinct slot.holds
    simp only [bleGattEnqueueFromradio, if_neg (Nat.not_lt_of_le short), found, shut]

/-- A phone asks to leave, and its teardown leaves the queue while its disconnection is
under way. -/
def lateTeardown : List (Departure 1) :=
  [.call (.connected 7 false), .call (.requestTeardown 7), .expire (Fin.last 0), .cancel 7]

theorem late_teardown_asked :
    let s := (departures 1 .wire).run (.boot 1) lateTeardown
    AskedSince .wire lateTeardown 0 7 ∧
      bleGattEnqueueFromradio s.gatt 7 [1] = (s.gatt, some .eshutdown) := by
  obtain ⟨hits, leaving, _⟩ := teardown_hits_asker wire_documented lateTeardown (by decide)
  constructor
  · rcases hits 0 0 (by decide) with silent | ⟨conn, asked, holds, _⟩
    · exact absurd silent (by decide)
    · obtain rfl : conn = 7 := Option.some.inj (holds.symm.trans (by decide))
      exact asked
  · have shut := leaving [.call (.connected 7 false)] 7 0 [.expire (Fin.last 0), .cancel 7] rfl (by decide)
      (by simp)
    exact shut.2.2.2 [1] (by decide)

/-- The same teardown spares the phone that is given the slot before the locked check. -/
example :
    let s := (departures 1 .wire).run (.boot 1)
      (lateTeardown ++ [.free 0, .call (.connected 9 false)])
    s.dequeued = [0] ∧ (s.next .wire (.check 0)).gatt.btCalls = s.gatt.btCalls := by decide

end MeshPbx
