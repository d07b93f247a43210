import MeshPbx.CallLog
import MeshPbx.TimedSystem

/-! The grace period of a departing phone. From its ToRadio disconnect on, the phone's
link stays up for the teardown delay, so that the write can still be answered, and is
dropped by the end of it. -/
namespace MeshPbx
variable {n : Nat} {p : Platform} {w w' : Proxy n} {g : Gatt n} {i : Fin n} {conn : BtConn}

/-- The phone that asks to be disconnected. -/
def Event.leaver (p : Platform) : Event n → Option BtConn
  | .toradioWrite conn buf 0 =>
    (protoDecodeToradio p buf).bind fun info =>
      if info.hasWantConfig = false ∧ info.hasHeartbeat = false ∧ info.hasDisconnect = true then
        some conn
      else none
  | _ => none

/-- For each slot, the milliseconds since its phone last asked to be disconnected, and
how long the log of calls was then. -/
structure Notice (n : Nat) where
  since : Fin n → Nat
  mark : Fin n → Nat

def Notice.zero (n : Nat) : Notice n := ⟨fun _ => 0, fun _ => 0⟩

def notice (n : Nat) (p : Platform) : Observer (Proxy n) (Event n) (Notice n) where
  tick o := { o with since := fun i => o.since i + 1 }
  act o w e := match (e.leaver p).bind (findSlot w.gatt) with
    | none => o
    | some i =>
      ⟨Function.update o.since i 0, Function.update o.mark i w.gatt.btCalls.length⟩

/-- The slot's teardown is on its way, or the link has been dropped since. -/
def Departing (g : Gatt n) (i : Fin n) (since mark : Nat) : Prop :=
  (g.conns i).leaving = true → ∃ conn, (g.conns i).conn = some conn ∧
    (Timer.Meets (g.conns i).teardownWork since TEARDOWN_DELAY_MS ∨
      .disconnect conn .remoteUserTermConn ∈ g.btCalls.drop mark)

/-- A call that neither asks for a teardown nor runs one. -/
def GattCall.Aside (i : Fin n) : GattCall n → Prop
  | .requestTeardown _ => False
  | .teardown slot => slot ≠ i
  | _ => True

theorem mem_drop_of_extends {α : Type} {l l' : List α} {x : α} {k : Nat} (grown : l <+: l')
    (member : x ∈ l.drop k) : x ∈ l'.drop k := by
  obtain ⟨more, rfl⟩ := grown
  rw [List.drop_append]
  exact List.mem_append_left _ member

theorem stage_next_departure (c : ConfigCache) (pc : ProxyConn) :
    (stageNext c pc).leaving = pc.leaving ∧ (stageNext c pc).teardownWork = pc.teardownWork := by
  cases source : stageSource c pc with
  | cached i => rw [(stage_cached source).2]; exact ⟨rfl, rfl⟩
  | complete => rw [(stage_complete source).2]; exact ⟨rfl, rfl⟩
  | queued =>
    obtain ⟨_, filled, staged⟩ := stage_queued source
    rw [staged]
    exact ⟨rfl, rfl⟩
  | nothing =>
    rcases stage_nothing source with ⟨_, _, staged⟩ | ⟨_, _, staged⟩
    · rw [staged]; exact ⟨rfl, rfl⟩
    · rw [staged]; exact ⟨rfl, rfl⟩

theorem offer_departure (data : Bytes) (pc : ProxyConn) :
    (pc.offer data).leaving = pc.leaving ∧ (pc.offer data).teardownWork = pc.teardownWork := by
  unfold ProxyConn.offer ProxyConn.deliver
  split_ifs <;> exact ⟨rfl, rfl⟩

/-- Nothing but the request and the expiry touches a departure, until the slot is reset. -/
theorem change_departure (call : GattCall n) (pc : ProxyConn) (aside : call.Aside i)
    (finds : call.Finds g i) :
    (call.change p pc).leaving = false ∨
      ((call.change p pc).leaving = pc.leaving ∧ (call.change p pc).conn = pc.conn ∧
        (call.change p pc).teardownWork = pc.teardownWork) := by
  cases call with
  | enqueue target data =>
    obtain ⟨leaving, timer⟩ := offer_departure data pc
    exact .inr ⟨leaving, offer_conn data pc, timer⟩
  | read cache reader len offset =>
    rw [GattCall.change]
    split_ifs
    · obtain ⟨leaving, timer⟩ := stage_next_departure cache pc
      exact .inr ⟨leaving, stage_next_conn cache pc, timer⟩
    · exact .inr ⟨rfl, rfl, rfl⟩
  | requestTeardown => exact aside.elim
  | teardown slot => exact absurd finds.symm aside
  | connected => exact .inl rfl
  | disconnected => exact .inl rfl
  | _ => exact .inr ⟨rfl, rfl, rfl⟩

theorem Departing.kept {g' : Gatt n} {since mark : Nat} (departing : Departing g i since mark)
    (grown : g.btCalls <+: g'.btCalls) (leaving : (g'.conns i).leaving = (g.conns i).leaving)
    (holder : (g'.conns i).conn = (g.conns i).conn)
    (timer : (g'.conns i).teardownWork = (g.conns i).teardownWork) : Departing g' i since mark := by
  intro asked
  obtain ⟨conn, holds, ahead | dropped⟩ := departing (leaving ▸ asked)
  · exact ⟨conn, holder.trans holds, .inl (timer ▸ ahead)⟩
  · exact ⟨conn, holder.trans holds, .inr (mem_drop_of_extends grown dropped)⟩

theorem departing_aside (documented : p.Documented) (call : GattCall n) (aside : call.Aside i)
    {since mark : Nat} (departing : Departing g i since mark) :
    Departing (call.run p g) i since mark := by
  have grown := call_extends documented g call
  rcases call_change documented g call i with same | ⟨finds, changed⟩
  · exact departing.kept grown (by rw [same]) (by rw [same]) (by rw [same])
  · rcases change_departure (p := p) call (g.conns i) aside finds with stays | ⟨leaving, holder, timer⟩
    · intro asked
      rw [changed, stays] at asked
      contradiction
    · exact departing.kept grown (by rw [changed, leaving]) (by rw [changed, holder])
        (by rw [changed, timer])

/-- The expiry drops the link of a phone that is leaving. -/
theorem departing_expired (documented : p.Documented) {since mark : Nat}
    (logged : mark ≤ g.btCalls.length) (departing : Departing g i since mark) :
    Departing ((GattCall.teardown i).run p g) i since mark := by
  have said := call_said documented g (.teardown i)
  have conns : ((GattCall.teardown i).run p g).conns i =
      { g.conns i with teardownWork := none } := by
    rw [GattCall.run, teardown_conns, Gatt.conns_setConn_same]
  intro asked
  rw [conns] at asked
  have leaving : (g.conns i).leaving = true := asked
  obtain ⟨conn, holds, _⟩ := departing leaving
  refine ⟨conn, by rw [conns]; exact holds, .inr ?_⟩
  simp only [GattCall.said, holds, Option.elim_some, if_pos leaving] at said
  rw [said, List.drop_append_of_le_length logged]
  exact List.mem_append_right _ (List.mem_singleton_self _)

/-- The request starts the grace period of the slot that it finds. -/
theorem departing_requested (found : findSlot g conn = some i)
    (mark : Nat) : Departing ((GattCall.requestTeardown conn).run p g) i 0 mark := by
  intro _
  refine ⟨conn, ?_, .inl ?_⟩
  · rw [GattCall.run, request_teardown_conns, Gatt.modify, found]
    simpa using find_slot_some found
  · rw [GattCall.run, request_teardown_conns, Gatt.modify, found]
    simpa using Timer.meets_set TEARDOWN_DELAY_MS

/-! The calls of an event. -/

theorem calls_leaver {e : Event n} (asks : e.leaver p = some conn) :
    calls p w e = [.requestTeardown conn] := by
  cases e with
  | toradioWrite sender buf offset =>
    cases offset with
    | zero =>
      obtain ⟨info, decoded, asked⟩ := Option.bind_eq_some_iff.mp asks
      split_ifs at asked with variant
      obtain rfl := Option.some.inj asked
      obtain ⟨wants, heartbeat, disconnect⟩ := variant
      simp [calls, toradioCalls, decoded, wants, heartbeat, disconnect]
    | succ => exact (Option.some_ne_none _ asks.symm).elim
  | _ => exact (Option.some_ne_none _ asks.symm).elim

/-- A write that does not ask for it leads to no teardown. -/
theorem toradio_aside {buf : Bytes} (silent : (Event.toradioWrite conn buf 0 : Event n).leaver p = none)
    {call : GattCall n} (member : call ∈ toradioCalls p w conn buf) (i : Fin n) : call.Aside i := by
  unfold toradioCalls at member
  cases decoded : protoDecodeToradio p buf with
  | none =>
    simp only [decoded] at member
    exact absurd member List.not_mem_nil
  | some info =>
    simp only [decoded] at member
    split_ifs at member with wants ready heartbeat disconnect
    · rw [List.mem_singleton.mp member]
      trivial
    · exact absurd member List.not_mem_nil
    · unfold heartbeatCalls at member
      split_ifs at member
      · exact absurd member List.not_mem_nil
      · rcases List.mem_cons.mp member with rfl | later
        · trivial
        · rw [List.mem_singleton.mp later]
          trivial
      · rw [List.mem_singleton.mp member]
        trivial
    · simp [Event.leaver, decoded, wants, heartbeat, disconnect] at silent
    · exact absurd member List.not_mem_nil

theorem calls_aside {e : Event n} (silent : e.leaver p = none)
    (unexpired : ∀ slot, e ≠ .teardown slot) (i : Fin n) : ∀ call ∈ calls p w e, call.Aside i := by
  intro call member
  cases e with
  | fromradio frame rand =>
    cases frame_call member with
    | queued => trivial
    | served _ parked =>
      obtain ⟨_, _, rfl⟩ := serve_call parked
      trivial
  | toradioWrite conn buf offset =>
    simp only [calls] at member
    split_ifs at member with later
    · exact absurd member List.not_mem_nil
    · obtain rfl : offset = 0 := not_not.mp later
      exact toradio_aside silent member i
  | nodeRegWrite conn buf offset =>
    simp only [calls] at member
    split_ifs at member
    · exact absurd member List.not_mem_nil
    · rw [List.mem_singleton.mp member]
      trivial
  | teardown slot => exact absurd rfl (unexpired slot)
  | fromradioRead =>
    rw [List.mem_singleton.mp member]
    trivial
  | connected =>
    rw [List.mem_singleton.mp member]
    trivial
  | disconnected =>
    rw [List.mem_singleton.mp member]
    trivial
  | _ => exact absurd member List.not_mem_nil

theorem departing_calls (documented : p.Documented) (made : List (GattCall n))
    (aside : ∀ call ∈ made, call.Aside i) {since mark : Nat} (departing : Departing g i since mark) :
    Departing ((gattSystem n p).run g made) i since mark := by
  induction made generalizing g with
  | nil => exact departing
  | cons call made ih =>
    refine ih (fun later member => aside later (List.mem_cons_of_mem _ member)) ?_
    exact departing_aside documented call (aside call List.mem_cons_self) departing

/-- What is known of every departure, with the marks inside the log. -/
structure Noticed (s : Proxy n × Notice n) : Prop where
  departing : ∀ i, Departing s.1.gatt i (s.2.since i) (s.2.mark i)
  logged : ∀ i, s.2.mark i ≤ s.1.gatt.btCalls.length

theorem noticed_boot : Noticed (Proxy.boot n, Notice.zero n) :=
  ⟨fun _ leaving => Bool.noConfusion leaving, fun _ => Nat.zero_le _⟩

theorem noticed_tick (s : Proxy n) (o : Notice n) (noticed : Noticed (s, o)) (running : ¬ s.Due) :
    Noticed (s.elapse, (notice n p).tick o) := by
  refine ⟨fun i leaving => ?_, noticed.logged⟩
  obtain ⟨conn, holds, ahead | dropped⟩ := noticed.departing i leaving
  · have notOut : (s.gatt.conns i).teardownWork ≠ some 0 :=
      fun out => running (.inr (.inr (.inr ⟨i, out⟩)))
    exact ⟨conn, holds, .inl (ahead.tick notOut)⟩
  · exact ⟨conn, holds, .inr dropped⟩

theorem apply_logged (documented : p.Documented) (w : Proxy n) (e : Event n) :
    w.gatt.btCalls.length ≤ (w.apply p e).gatt.btCalls.length := by
  rw [apply_calls]
  exact (calls_extend documented w.gatt (calls p w e)).length_le

/-- A request concerns the slot of the phone that makes it. -/
theorem noticed_request (documented : p.Documented) (s : Proxy n) (o : Notice n) (e : Event n)
    (noticed : Noticed (s, o)) (asks : e.leaver p = some conn) :
    Noticed (s.apply p e, (notice n p).act o s e) := by
  have made := calls_leaver (w := s) asks
  have after : (s.apply p e).gatt = (GattCall.requestTeardown conn).run p s.gatt := by
    rw [apply_calls, made]
    rfl
  have grown := call_extends documented s.gatt (.requestTeardown conn)
  simp only [notice, asks, Option.bind_some]
  cases found : findSlot s.gatt conn with
  | none =>
    have same : (GattCall.requestTeardown conn).run p s.gatt = s.gatt := by
      rw [GattCall.run, request_teardown_conns, Gatt.modify, found]
    refine ⟨fun i => ?_, fun i => ?_⟩
    · rw [after, same]
      exact noticed.departing i
    · rw [after, same]
      exact noticed.logged i
  | some j =>
    dsimp only
    refine ⟨fun i => ?_, fun i => ?_⟩
    · show Departing (s.apply p e).gatt i (Function.update o.since j 0 i)
        (Function.update o.mark j s.gatt.btCalls.length i)
      rw [after]
      by_cases here : i = j
      · subst here
        rw [Function.update_self, Function.update_self]
        exact departing_requested found _
      · rw [Function.update_of_ne here, Function.update_of_ne here]
        have same : ((GattCall.requestTeardown conn).run p s.gatt).conns i = s.gatt.conns i := by
          rw [GattCall.run, request_teardown_conns, Gatt.modify, found]
          exact Gatt.conns_setConn_ne _ here
        exact (noticed.departing i).kept grown (by rw [same]) (by rw [same]) (by rw [same])
    · show Function.update o.mark j s.gatt.btCalls.length i ≤ (s.apply p e).gatt.btCalls.length
      rw [after]
      by_cases here : i = j
      · subst here
        rw [Function.update_self]
        exact grown.length_le
      · rw [Function.update_of_ne here]
        exact (noticed.logged i).trans grown.length_le

theorem noticed_act (documented : p.Documented) (s : Proxy n) (o : Notice n) (e : Event n)
    (noticed : Noticed (s, o)) : Noticed (s.apply p e, (notice n p).act o s e) := by
  cases asks : e.leaver p with
  | some conn => exact noticed_request documented s o e noticed asks
  | none =>
    have logged : ∀ i, o.mark i ≤ (s.apply p e).gatt.btCalls.length :=
      fun i => (noticed.logged i).trans (apply_logged documented s e)
    simp only [notice, asks, Option.bind_none]
    refine ⟨fun i => ?_, logged⟩
    rw [apply_calls]
    by_cases expiry : e = .teardown i
    · subst expiry
      exact departing_expired documented (noticed.logged i) (noticed.departing i)
    · refine departing_calls documented _ (fun call member => ?_) (noticed.departing i)
      by_cases other : ∃ slot, e = .teardown slot
      · obtain ⟨slot, rfl⟩ := other
        rw [List.mem_singleton.mp member]
        exact fun same => expiry (by rw [same])
      · exact calls_aside asks (not_exists.mp other) i call member

theorem noticed_run (documented : p.Documented) (es : List (Ticked (Event n)))
    (runs : (timedSystem n p (notice n p)).Runs (.boot n, .zero n) es) :
    Noticed ((timedSystem n p (notice n p)).run (.boot n, .zero n) es) :=
  Machine.timed_invariant noticed_tick
    (fun s o e noticed _ _ => noticed_act documented s o e noticed) es noticed_boot runs

/-- In every run in time, a phone that has asked to be disconnected and still holds its
slot asked at most the teardown delay ago, unless its link has been dropped since; and
the handler that drops it never runs before the whole delay has passed. -/
theorem departing_link_dropped_on_time (documented : p.Documented)
    (es : List (Ticked (Event n)))
    (runs : (timedSystem n p (notice n p)).Runs (.boot n, .zero n) es) (i : Fin n) :
    let s := (timedSystem n p (notice n p)).run (.boot n, .zero n) es
    (s.1.gatt.conns i).leaving = true → ∃ conn, (s.1.gatt.conns i).conn = some conn ∧
      (.disconnect conn .remoteUserTermConn ∈ s.1.gatt.btCalls.drop (s.2.mark i) ∨
        (s.2.since i ≤ TEARDOWN_DELAY_MS ∧
          ((timedSystem n p (notice n p)).enabled s (.act (.teardown i)) →
            s.2.since i = TEARDOWN_DELAY_MS))) := by
  intro s leaving
  obtain ⟨conn, holds, ahead | dropped⟩ := (noticed_run documented es runs).departing i leaving
  · exact ⟨conn, holds, .inr ⟨ahead.within.le, fun timely => ahead.out timely.2⟩⟩
  · exact ⟨conn, holds, .inl dropped⟩

/-- A phone connects, asks to be disconnected, and three milliseconds pass. -/
def askedToLeave : List (Ticked (Event 1)) :=
  [.act (.connected 7 false), .act (.toradioWrite 7 [0x20, 1] 0), .tick, .tick, .tick]

theorem asked_link_stands :
    let s := (timedSystem 1 .wire (notice 1 .wire)).run (.boot 1, .zero 1) askedToLeave
    (s.1.gatt.conns 0).leaving = true ∧ s.2.since 0 = 3 ∧
      s.1.gatt.btCalls.drop (s.2.mark 0) = [] ∧
      ¬ (timedSystem 1 .wire (notice 1 .wire)).enabled s (.act (.teardown 0)) := by
  intro s
  have leaving : (s.1.gatt.conns 0).leaving = true := by decide
  have since : s.2.since 0 = 3 := by decide
  have silent : s.1.gatt.btCalls.drop (s.2.mark 0) = [] := by decide
  obtain ⟨conn, _, dropped | ⟨_, early⟩⟩ := departing_link_dropped_on_time wire_documented
    askedToLeave (by decide) 0 leaving
  · rw [silent] at dropped
    exact absurd dropped List.not_mem_nil
  · refine ⟨leaving, since, silent, fun timely => ?_⟩
    have whole := early timely
    rw [since] at whole
    exact absurd whole (by decide)

end MeshPbx
