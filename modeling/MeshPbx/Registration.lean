import MeshPbx.DownlinkDisposition
import MeshPbx.GattCalls

/-! Routing by registration. The router finds the receiver of a packet by scanning the
slots for a proxy identifier; the slots are recycled and rewritten all the time. Over a
whole run the scan finds exactly the connections whose last NODE_REG write since they
connected is the destination. -/
namespace MeshPbx
variable {n : Nat} {p : Platform} {w : Proxy n} {g : Gatt n} {i : Fin n} {conn : BtConn}

/-- The identifier that a connection goes by: that of its last valid NODE_REG write since
it connected, zero before. -/
def rename (conn : BtConn) (id : ProxyId) : Event n → ProxyId
  | .nodeRegWrite target buf offset =>
    if target = conn ∧ offset = 0 ∧ buf.length = PROXY_ID_SIZE then .ofBytes buf 0 else id
  | .connected fresh err => if fresh = conn ∧ err = false then .zero else id
  | _ => id

def goesBy (conn : BtConn) (es : List (Event n)) : ProxyId := es.foldl (rename conn) .zero

/-- The call leaves every slot its identifier. -/
def GattCall.Nameless : GattCall n → Prop
  | .register _ _ | .connected _ _ | .disconnected _ => False
  | _ => True

theorem stage_next_name (c : ConfigCache) (pc : ProxyConn) :
    (stageNext c pc).proxyId = pc.proxyId := by
  cases source : stageSource c pc with
  | cached i => rw [(stage_cached source).2]
  | complete => rw [(stage_complete source).2]
  | queued =>
    obtain ⟨_, _, staged⟩ := stage_queued source
    rw [staged]
  | nothing =>
    rcases stage_nothing source with ⟨_, _, staged⟩ | ⟨_, _, staged⟩
    · rw [staged]
    · rw [staged]

theorem nameless_kept (documented : p.Documented) {call : GattCall n} (nameless : call.Nameless)
    (g : Gatt n) (i : Fin n) : ((call.run p g).conns i).proxyId = (g.conns i).proxyId := by
  rcases call_change documented g call i with same | ⟨_, changed⟩
  · rw [same]
  · rw [changed]
    cases call with
    | enqueue target data =>
      simp only [GattCall.change, ProxyConn.offer, ProxyConn.deliver]
      split_ifs <;> rfl
    | read cache reader len offset =>
      rw [GattCall.change]
      split_ifs
      · exact stage_next_name cache _
      · rfl
    | register target id => exact nameless.elim
    | connected fresh err => exact nameless.elim
    | disconnected left => exact nameless.elim
    | _ => rfl

theorem nameless_run (documented : p.Documented) (made : List (GattCall n))
    (nameless : ∀ call ∈ made, call.Nameless) (g : Gatt n) (i : Fin n) :
    (((gattSystem n p).run g made).conns i).conn = (g.conns i).conn ∧
      (((gattSystem n p).run g made).conns i).proxyId = (g.conns i).proxyId := by
  induction made generalizing g with
  | nil => exact ⟨rfl, rfl⟩
  | cons call made ih =>
    have first := nameless call List.mem_cons_self
    have place : call.InPlace := by
      cases call with
      | connected fresh err => exact first.elim
      | disconnected left => exact first.elim
      | _ => trivial
    obtain ⟨holder, name⟩ := ih (fun later member => nameless later (List.mem_cons_of_mem _ member))
      (call.run p g)
    exact ⟨holder.trans (call_holder documented call place i),
      name.trans (nameless_kept documented first g i)⟩

/-- Neither a frame nor a ToRadio write registers anyone. -/
theorem frame_nameless (w : Proxy n) (payload : Bytes) :
    ∀ call ∈ frameCalls p w payload, call.Nameless := by
  intro call member
  cases frame_call member with
  | queued => trivial
  | served _ parked =>
    obtain ⟨_, _, rfl⟩ := serve_call parked
    trivial

theorem toradio_nameless (w : Proxy n) (target : BtConn) (buf : Bytes) :
    ∀ call ∈ toradioCalls p w target buf, call.Nameless := by
  intro call member
  cases toradio_call member with
  | _ => trivial

/-- Everyone in the table goes by what the history says. -/
def Enrolled (es : List (Event n)) (g : Gatt n) : Prop :=
  ∀ i conn, (g.conns i).conn = some conn → (g.conns i).proxyId = goesBy conn es

theorem goes_by_snoc (es : List (Event n)) (e : Event n) :
    goesBy conn (es ++ [e]) = rename conn (goesBy conn es) e := by
  simp only [goesBy, List.foldl_append, List.foldl_cons, List.foldl_nil]

theorem enrolled_aside (documented : p.Documented) {es : List (Event n)} (enrolled : Enrolled es w.gatt)
    (e : Event n) (nameless : ∀ call ∈ calls p w e, call.Nameless)
    (same : ∀ conn id, rename conn id e = id) : Enrolled (es ++ [e]) (w.apply p e).gatt := by
  intro i conn holds
  rw [apply_calls] at holds ⊢
  obtain ⟨holder, name⟩ := nameless_run documented (calls p w e) nameless w.gatt i
  rw [name, goes_by_snoc, same]
  exact enrolled i conn (holder ▸ holds)

/-- A new connection goes by no identifier yet. -/
theorem enrolled_connected {es : List (Event n)} (enrolled : Enrolled es w.gatt) (fresh : BtConn)
    (err : Bool) (untracked : findSlot w.gatt fresh = none) :
    Enrolled (es ++ [.connected fresh err]) (onConnected w.gatt fresh err) := by
  intro i conn holds
  rw [goes_by_snoc, rename]
  have absent : (w.gatt.conns i).conn ≠ some fresh := fun tracked =>
    find_slot_none.mp untracked ⟨i, tracked⟩
  cases err with
  | true =>
    rw [if_neg fun both => Bool.noConfusion both.2]
    exact enrolled i conn holds
  | false =>
    have standing (same : (onConnected w.gatt fresh false).conns i = w.gatt.conns i) :
        ((onConnected w.gatt fresh false).conns i).proxyId =
          if fresh = conn ∧ false = false then .zero else goesBy conn es := by
      rw [same] at holds ⊢
      have other : fresh ≠ conn := by
        rintro rfl
        exact absent holds
      rw [if_neg fun both => other both.1]
      exact enrolled i conn holds
    rcases connected_conns w.gatt fresh with same | ⟨j, _, opened⟩
    · exact standing (congrFun same i)
    · by_cases here : i = j
      · subst here
        rw [opened, Gatt.conns_setConn_same] at holds ⊢
        cases holds
        rw [if_pos ⟨rfl, rfl⟩]
        rfl
      · exact standing ((congrFun opened i).trans (Gatt.conns_setConn_ne _ here))

theorem enrolled_step (documented : p.Documented) {es : List (Event n)} (distinct : w.gatt.Distinct)
    (enrolled : Enrolled es w.gatt) (e : Event n) (enabled : w.enabled e) :
    Enrolled (es ++ [e]) (w.apply p e).gatt := by
  cases e with
  | fromradio frame rand =>
    exact enrolled_aside documented enrolled _ (frame_nameless w frame.bytes) fun _ _ => rfl
  | toradioWrite target buf offset =>
    refine enrolled_aside documented enrolled _ ?_ fun _ _ => rfl
    simp only [calls]
    split_ifs
    · exact List.forall_mem_nil _
    · exact toradio_nameless w target buf
  | nodeRegWrite target buf offset =>
    intro i conn holds
    rw [goes_by_snoc]
    by_cases bad : offset ≠ 0 ∨ buf.length ≠ PROXY_ID_SIZE
    · have refused : ¬ (target = conn ∧ offset = 0 ∧ buf.length = PROXY_ID_SIZE) :=
        fun valid => bad.elim (absurd valid.2.1) (absurd valid.2.2)
      simp only [Proxy.apply, nodeRegWrite, if_pos bad] at holds ⊢
      rw [rename, if_neg refused]
      exact enrolled i conn holds
    · have valid : offset = 0 ∧ buf.length = PROXY_ID_SIZE := by
        obtain ⟨fresh, whole⟩ := not_or.mp bad
        exact ⟨not_not.mp fresh, not_not.mp whole⟩
      have run : (w.apply p (.nodeRegWrite target buf offset)).gatt =
          (GattCall.register target (.ofBytes buf 0)).run p w.gatt := by
        simp only [Proxy.apply, nodeRegWrite, if_neg bad, GattCall.run]
      rw [run] at holds ⊢
      have before := (call_holder documented (.register target (.ofBytes buf 0)) trivial i).symm.trans
        holds
      rw [call_slot documented distinct before, ProxyConn.after, rename]
      by_cases own : target = conn
      · rw [if_pos own, if_pos ⟨own, valid⟩]
      · rw [if_neg own, if_neg fun both => own both.1]
        exact enrolled i conn before
  | connected fresh err =>
    exact enrolled_connected enrolled fresh err enabled
  | disconnected left =>
    intro i conn holds
    have after : (w.apply p (.disconnected left)).gatt.conns =
        (w.gatt.modify left fun pc => { pc with teardownWork := none }.reset none).conns :=
      disconnected_conns w.gatt left
    have unnamed : goesBy conn (es ++ [.disconnected left]) = goesBy conn es := goes_by_snoc es _
    rw [unnamed, after]
    rw [after] at holds
    rcases Gatt.modify_cases w.gatt left
      (fun pc => { pc with teardownWork := none }.reset none) i with same | ⟨_, freed⟩
    · rw [same] at holds ⊢
      exact enrolled i conn holds
    · rw [freed] at holds
      cases holds
  | fromradioRead reader len offset =>
    exact enrolled_aside documented enrolled _ (by simp [calls, GattCall.Nameless]) fun _ _ => rfl
  | teardown slot =>
    exact enrolled_aside documented enrolled _ (by simp [calls, GattCall.Nameless]) fun _ _ => rfl
  | _ => exact enrolled_aside documented enrolled _ (List.forall_mem_nil _) fun _ _ => rfl

theorem enrolled_run (documented : p.Documented) (es : List (Event n))
    (runs : (system n p).Runs (.boot n) es) : Enrolled es ((system n p).run (.boot n) es).gatt := by
  have history : ((system n p).run (.boot n) es).gatt.Distinct ∧
      Enrolled es ((system n p).run (.boot n) es).gatt := by
    refine Machine.history_invariant (m := system n p)
      (fun es w => w.gatt.Distinct ∧ Enrolled es w.gatt) ⟨?_, ?_⟩ (fun es e both enabled => ?_) es runs
    · intro i j conn holds
      cases holds
    · intro i conn holds
      cases holds
    · refine ⟨?_, enrolled_step documented both.1 both.2 e enabled⟩
      have kept : ∀ (g : Gatt n) (call : GattCall n), g.Distinct → (gattSystem n p).enabled g call →
          ((gattSystem n p).next g call).Distinct :=
        fun g call distinct enabled => call_distinct documented distinct call enabled
      have after := Machine.invariant kept (calls p _ e) both.1 (calls_run e enabled)
      rw [← apply_calls] at after
      exact after
  exact history.2

/-- A packet for another phone follows the registrations: after every run a decoded packet
of the proxy's port with a valid header and a nonzero DST_ID is offered to one connected
phone that goes by it, and to no other; if none does, it is offered to every phone. -/
theorem packets_follow_registration (documented : p.Documented) (es : List (Event n))
    (runs : (system n p).Runs (.boot n) es) (frame : Frame) (rand : UInt32) (info : FromradioInfo)
    (hdr : ProxyHeader) (decoded : protoDecodeFromradio p frame.bytes = some info)
    (packet : info.whichVariant = .packet) (plain : info.isDecoded = true)
    (port : info.portnum = PROXY_PORTNUM) (header : proxyHeaderParse info.payloadBytes = some hdr)
    (nonzero : proxyIdIsZero hdr.dst = false) :
    let g := ((system n p).run (.boot n) es).gatt
    let g' := (((system n p).run (.boot n) es).apply p (.fromradio frame rand)).gatt
    (∃ i conn, (g.conns i).conn = some conn ∧ goesBy conn es = hdr.dst ∧
      ((g.conns i).Open → Appended g g' frame.bytes i) ∧
      (¬ (g.conns i).Open → (g'.conns i).queued = (g.conns i).queued) ∧
      ∀ j, j ≠ i → (g'.conns j).queued = (g.conns j).queued) ∨
    ((∀ i conn, (g.conns i).conn = some conn → goesBy conn es ≠ hdr.dst) ∧
      ToEveryone g g' frame.bytes) := by
  intro g g'
  have enrolled : Enrolled es g := enrolled_run documented es runs
  have distinct : g.Distinct := (reachable_run es runs).distinct documented
  have short : frame.bytes.length ≤ FROMRADIO_MAX_PKT_SIZE := frame.le
  by_cases registered : Registered g hdr.dst
  · have targeted : TargetedAt g info hdr := ⟨plain, port, header, nonzero, registered⟩
    obtain ⟨i, tracked, named, rest⟩ := targeted_unicast distinct short rand decoded packet targeted
    obtain ⟨conn, holds⟩ := Option.ne_none_iff_exists'.mp tracked
    exact .inl ⟨i, conn, holds, (enrolled i conn holds).symm.trans named, rest⟩
  · have untargeted : Untargeted g info := .inr (.inr (.inr ⟨hdr, header, .inr registered⟩))
    refine .inr ⟨fun i conn holds same => registered ⟨i, by simp [holds], ?_⟩, ?_⟩
    · exact (enrolled i conn holds).trans same
    · exact untargeted_broadcast distinct short rand decoded packet untargeted

/-- The phone that had registered the destination leaves and comes back without it, and
the other one takes it over. -/
def takenOver : List (Event 2) :=
  registeredSchedule ++ [.disconnected 8, .connected 8 false, .nodeRegWrite 7 [1, 2, 3, 4] 0]

theorem taken_over_reached :
    let g := ((system 2 .wire).run (.boot 2) takenOver).gatt
    let g' := (((system 2 .wire).run (.boot 2) takenOver).apply .wire (.fromradio proxyFrame 0)).gatt
    ∃ i, (g.conns i).conn = some 7 ∧ Appended g g' proxyFrame.bytes i := by
  intro g g'
  rcases packets_follow_registration wire_documented takenOver (by decide) proxyFrame 0 proxyInfo
    ⟨#v[9, 9, 9, 9], #v[1, 2, 3, 4], []⟩ (by decide) rfl rfl rfl (by decide) (by decide) with
    ⟨i, conn, holds, named, offered, _⟩ | ⟨nobody, _⟩
  · have unnamed : goesBy 8 takenOver ≠ (#v[1, 2, 3, 4] : ProxyId) := by decide
    have second : (g.conns 1).conn = some 8 := by decide
    match i with
    | 0 => exact ⟨0, by decide, offered (by decide)⟩
    | 1 =>
      obtain rfl := Option.some.inj (second.symm.trans holds)
      exact absurd named unnamed
  · exact absurd (nobody 0 7 (by decide)) (by decide)

end MeshPbx
