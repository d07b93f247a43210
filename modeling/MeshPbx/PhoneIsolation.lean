import MeshPbx.SlotAgreement
import MeshPbx.WireFormat

/-! Two runs of the proxy that differ only in what one phone reads, requests and
beats for itself. The session, the cache and the transmit path never look at the
slots, and the slots of the other phones see the same calls. -/
namespace MeshPbx
variable {n : Nat} {p : Platform} {w w' : Proxy n} {g : Gatt n} {e : Event n}
variable {mine : List BtConn} {conn : BtConn}

/-! The upstream side does not depend on the slots. -/

structure SameUpstream (w w' : Proxy n) : Prop where
  session : w.session = w'.session
  cache : w.cache = w'.cache
  uart : w.uart = w'.uart

theorem SameUpstream.symm (same : SameUpstream w w') : SameUpstream w' w :=
  ⟨same.session.symm, same.cache.symm, same.uart.symm⟩

theorem SameUpstream.trans {other : Proxy n} (first : SameUpstream w w')
    (second : SameUpstream w' other) : SameUpstream w other :=
  ⟨first.session.trans second.session, first.cache.trans second.cache,
    first.uart.trans second.uart⟩

theorem same_upstream_gatt (w : Proxy n) (g : Gatt n) : SameUpstream { w with gatt := g } w :=
  ⟨rfl, rfl, rfl⟩

theorem refetch_blind (p : Platform) (w : Proxy n) (g : Gatt n) (rand : UInt32) :
    SameUpstream (upstreamRefetch p { w with gatt := g } rand) (upstreamRefetch p w rand) := by
  simp only [upstreamRefetch]
  split_ifs <;> exact ⟨rfl, rfl, rfl⟩

theorem dispatch_packet_blind (w : Proxy n) (raw : Bytes) (info : FromradioInfo) :
    SameUpstream (dispatchPacket w raw info) w := by
  obtain ⟨g, routed⟩ := dispatch_packet_frame w raw info
  rw [routed]
  exact same_upstream_gatt w g

theorem dispatch_unconsumed_blind (p : Platform) (w : Proxy n) (g : Gatt n) (raw : Bytes)
    (info : FromradioInfo) (rand : UInt32) :
    SameUpstream (dispatchUnconsumed p { w with gatt := g } raw info rand)
      (dispatchUnconsumed p w raw info rand) := by
  simp only [dispatchUnconsumed]
  split_ifs
  · exact refetch_blind p w g rand
  · exact ⟨rfl, rfl, rfl⟩
  · exact ⟨rfl, rfl, rfl⟩
  · exact ⟨rfl, rfl, rfl⟩
  · exact ⟨rfl, rfl, rfl⟩
  · have kicked : SameUpstream { w with session := upstreamLivenessKick w.session, gatt := g }
        { w with session := upstreamLivenessKick w.session } := ⟨rfl, rfl, rfl⟩
    exact ((dispatch_packet_blind _ raw info).trans kicked).trans
      (dispatch_packet_blind _ raw info).symm

theorem terminator_blind (p : Platform) (w : Proxy n) (g : Gatt n) :
    SameUpstream (onTerminator p { w with gatt := g }) (onTerminator p w) := by
  simp only [onTerminator, closeFetch, serve_pending_phones]
  split_ifs <;> exact ⟨rfl, rfl, rfl⟩

theorem fromradio_blind (p : Platform) (w : Proxy n) (g : Gatt n) (payload : Bytes)
    (info : FromradioInfo) :
    (upstreamOnFromradio p { w with gatt := g } payload info).2 =
        (upstreamOnFromradio p w payload info).2 ∧
      SameUpstream (upstreamOnFromradio p { w with gatt := g } payload info).1
        (upstreamOnFromradio p w payload info).1 := by
  simp only [upstreamOnFromradio]
  split_ifs
  · exact ⟨rfl, rfl, rfl, rfl⟩
  · exact ⟨rfl, rfl, rfl, rfl⟩
  · cases decodeConfigCompleteNonce p payload with
    | none => exact ⟨rfl, rfl, rfl, rfl⟩
    | some gotNonce =>
      simp only
      split_ifs
      · exact ⟨rfl, rfl, rfl, rfl⟩
      · exact ⟨rfl, terminator_blind p { w with session := w.session.retryArmed } g⟩
  · exact ⟨rfl, rfl, rfl, rfl⟩
  · exact ⟨rfl, rfl, rfl, rfl⟩

/-- The same for any two states with the same upstream side. -/
theorem SameUpstream.lift (f : Proxy n → Proxy n)
    (blind : ∀ w g, SameUpstream (f { w with gatt := g }) (f w)) (same : SameUpstream w w') :
    SameUpstream (f w) (f w') := by
  have replaced : w = { w' with gatt := w.gatt } := by
    cases w
    cases w'
    obtain ⟨session, cache, uart⟩ := same
    cases session
    cases cache
    cases uart
    rfl
  rw [replaced]
  exact blind w' w.gatt

theorem frame_blind (p : Platform) (w : Proxy n) (g : Gatt n) (payload : Bytes) (rand : UInt32) :
    SameUpstream (onFromradioUart p { w with gatt := g } payload rand)
      (onFromradioUart p w payload rand) := by
  unfold onFromradioUart
  cases protoDecodeFromradio p payload with
  | none => exact ⟨rfl, rfl, rfl⟩
  | some info =>
    obtain ⟨consumed, same⟩ := fromradio_blind p w g payload info
    have direct := dispatch_unconsumed_blind p w g payload info rand
    have later : SameUpstream
        (dispatchUnconsumed p (upstreamOnFromradio p { w with gatt := g } payload info).1 payload
          info rand)
        (dispatchUnconsumed p (upstreamOnFromradio p w payload info).1 payload info rand) :=
      same.lift (dispatchUnconsumed p · payload info rand)
        (fun w g => dispatch_unconsumed_blind p w g payload info rand)
    have state : upstreamGetState { w with gatt := g } = upstreamGetState w := rfl
    simp only [routerDispatch, state, consumed]
    split_ifs
    · exact same
    · exact later
    · exact direct

theorem toradio_blind (p : Platform) (w : Proxy n) (g : Gatt n) (sender : BtConn) (buf : Bytes) :
    SameUpstream (onToradioBle p { w with gatt := g } sender buf) (onToradioBle p w sender buf) := by
  cases decoded : protoDecodeToradio p buf with
  | none =>
    simp only [onToradioBle, decoded]
    exact ⟨rfl, rfl, rfl⟩
  | some info =>
    by_cases wants : info.hasWantConfig = true
    · rw [toradio_want_config decoded wants, toradio_want_config decoded wants]
      split_ifs <;> exact ⟨rfl, rfl, rfl⟩
    · simp only [onToradioBle, decoded, if_neg wants]
      split_ifs <;> exact ⟨rfl, rfl, rfl⟩

theorem apply_blind (p : Platform) (w : Proxy n) (g : Gatt n) (e : Event n) :
    SameUpstream (({ w with gatt := g } : Proxy n).apply p e) (w.apply p e) := by
  cases e with
  | sessionStart rand =>
    simp only [Proxy.apply, upstreamSessionStart]
    split <;> exact ⟨rfl, rfl, rfl⟩
  | fromradio frame rand => exact frame_blind p w g frame.bytes rand
  | toradioWrite sender buf offset =>
    simp only [Proxy.apply, toradioWrite]
    split_ifs
    · exact ⟨rfl, rfl, rfl⟩
    · exact toradio_blind p w g sender buf
  | keepalive =>
    simp only [Proxy.apply, keepaliveWorkHandler]
    split_ifs <;> exact ⟨rfl, rfl, rfl⟩
  | fetchRetry =>
    simp only [Proxy.apply, fetchRetryHandler]
    split_ifs <;> exact ⟨rfl, rfl, rfl⟩
  | liveness rand =>
    simp only [Proxy.apply, livenessHandler]
    split_ifs
    · exact ⟨rfl, rfl, rfl⟩
    · exact refetch_blind p { w with session := { w.session with livenessWork := none } } g rand
  | _ => exact ⟨rfl, rfl, rfl⟩

/-! The calls of a handler run depend on who holds which slot. -/

theorem GattAgree.lookup {g g' : Gatt n} (agree : GattAgree mine g g') (id : ProxyId) :
    bleGattGetConnByProxyId g id = bleGattGetConnByProxyId g' id := by
  simp only [bleGattGetConnByProxyId, (agree.slots _).face.conn, (agree.slots _).face.proxyId]

theorem GattAgree.broadcasts {g g' : Gatt n} (agree : GattAgree mine g g') (data : Bytes) :
    broadcastCalls g data = broadcastCalls g' data := by
  simp only [broadcastCalls, (agree.slots _).face.conn]

theorem frame_calls_agree (same : SameUpstream w w') (agree : GattAgree mine w.gatt w'.gatt)
    (payload : Bytes) : frameCalls p w payload = frameCalls p w' payload := by
  simp only [frameCalls, packetCalls, same.session, agree.broadcasts, agree.lookup]

/-! Runs of calls. -/

structure Twins (mine : List BtConn) (g g' : Gatt n) : Prop where
  agree : GattAgree mine g g'
  distinct : g.Distinct
  distinct' : g'.Distinct

theorem calls_echo (documented : p.Documented) (made : List (GattCall n)) {g g' : Gatt n}
    (twins : Twins mine g g') (runs : (gattSystem n p).Runs g made)
    (runs' : (gattSystem n p).Runs g' made) :
    Echo mine g g' ((gattSystem n p).run g made) ((gattSystem n p).run g' made) := by
  induction made generalizing g g' with
  | nil => exact .refl twins.agree
  | cons call made ih =>
    have first := call_echo documented twins.agree call
    have next : Twins mine (call.run p g) (call.run p g') :=
      ⟨first.agree, call_distinct documented twins.distinct call runs.1,
        call_distinct documented twins.distinct' call runs'.1⟩
    exact first.trans (ih next runs.2 runs'.2)

theorem own_calls_echo (documented : p.Documented) (made : List (GattCall n)) {g g' : Gatt n}
    (twins : Twins mine g g') (runs : (gattSystem n p).Runs g made)
    (own : ∀ call ∈ made, call.Own mine) : Echo mine g g' ((gattSystem n p).run g made) g' := by
  induction made generalizing g with
  | nil => exact .refl twins.agree
  | cons call made ih =>
    have first := own_echo documented twins.agree call (own call List.mem_cons_self)
    have next : Twins mine (call.run p g) g' :=
      ⟨first.agree, call_distinct documented twins.distinct call runs.1, twins.distinct'⟩
    exact first.trans (ih next runs.2 (fun later member => own later (List.mem_cons_of_mem _ member)))

/-! Two runs side by side. -/

/-- A step of two runs: an event of both, a new connection of the one phone in
both, or something that phone does for itself in one of them. -/
inductive TwinStep (n : Nat) where
  | both (e : Event n)
  | join (conn : BtConn)
  | left (e : Event n)
  | right (e : Event n)

/-- `mine` are the connections of the one phone at the moment. -/
structure TwoRuns (n : Nat) where
  first : Proxy n
  second : Proxy n
  mine : List BtConn

/-- What a phone does for itself: reads, want_configs and heartbeats. -/
def Private (p : Platform) (mine : List BtConn) : Event n → Prop
  | .fromradioRead conn _ _ | .fromnumRead conn _ _ => conn ∈ mine
  | .toradioWrite conn buf _ => conn ∈ mine ∧
    ∃ info ∈ protoDecodeToradio p buf, info.hasWantConfig = true ∨ info.hasHeartbeat = true
  | _ => False

instance (p : Platform) (mine : List BtConn) : (e : Event n) → Decidable (Private p mine e)
  | .fromradioRead _ _ _ | .fromnumRead _ _ _ => inferInstanceAs (Decidable (_ ∈ _))
  | .toradioWrite _ _ _ => inferInstanceAs (Decidable (_ ∧ ∃ info ∈ _, _))
  | .sessionStart _ | .fromradio _ _ | .nodeRegWrite _ _ _ | .connected _ _ | .disconnected _
  | .keepalive | .fetchRetry | .liveness _ | .teardown _ | .txWork _ | .txEnd _ =>
    isFalse not_false

/-- The stack may hand a pointer of the phone to another one after a disconnect. -/
def mineAfter (mine : List BtConn) : Event n → List BtConn
  | .connected conn _ | .disconnected conn => mine.filter (· ≠ conn)
  | _ => mine

def twoRuns (n : Nat) (p : Platform) : Machine (TwoRuns n) (TwinStep n) where
  enabled s
    | .both e => s.first.enabled e ∧ s.second.enabled e
    | .join conn => s.first.enabled (.connected conn false) ∧ s.second.enabled (.connected conn false)
    | .left e => s.first.enabled e ∧ Private p s.mine e
    | .right e => s.second.enabled e ∧ Private p s.mine e
  next s
    | .both e => ⟨s.first.apply p e, s.second.apply p e, mineAfter s.mine e⟩
    | .join conn => ⟨s.first.apply p (.connected conn false),
        s.second.apply p (.connected conn false), conn :: s.mine⟩
    | .left e => { s with first := s.first.apply p e }
    | .right e => { s with second := s.second.apply p e }

instance (s : TwoRuns n) : (x : TwinStep n) → Decidable ((twoRuns n p).enabled s x)
  | .both _ | .join _ | .left _ | .right _ => inferInstanceAs (Decidable (_ ∧ _))

/-- Everything a connection that is not the phone's could be answered now. -/
structure SameView (p : Platform) (s : TwoRuns n) : Prop where
  upstream : SameUpstream s.first s.second
  fromnum : ∀ conn ∉ s.mine, ∀ len offset,
    fromnumRead p s.first.gatt conn len offset = fromnumRead p s.second.gatt conn len offset
  reads : ∀ conn ∉ s.mine, ∀ len offset,
    (fromradioRead p s.first.cache s.first.gatt conn len offset).2 =
      (fromradioRead p s.second.cache s.second.gatt conn len offset).2

/-- The calls into the BLE stack that a step adds. -/
def rung (before after : Gatt n) : List BtCall := after.btCalls.drop before.btCalls.length

/-- Before the step the others see the same in both runs, and the step makes the
same calls into the BLE stack but for the phone's own notifications. -/
structure Unaffected (p : Platform) (s : TwoRuns n) (x : TwinStep n) : Prop where
  view : SameView p s
  bells : (rung s.first.gatt ((twoRuns n p).next s x).first.gatt).filter
      (BtCall.elsewhere s.mine) =
    (rung s.second.gatt ((twoRuns n p).next s x).second.gatt).filter (BtCall.elsewhere s.mine)

structure Paired (p : Platform) (s : TwoRuns n) : Prop where
  first : Reachable p s.first
  second : Reachable p s.second
  upstream : SameUpstream s.first s.second
  agree : GattAgree s.mine s.first.gatt s.second.gatt

theorem SlotAgree.grow {pc pc' : ProxyConn} (agree : SlotAgree mine pc pc') (conn : BtConn) :
    SlotAgree (conn :: mine) pc pc' :=
  ⟨agree.face, fun others => agree.alike (fun a member => others a (List.mem_cons_of_mem _ member))⟩

theorem GattAgree.grow {g g' : Gatt n} (agree : GattAgree mine g g') (conn : BtConn) :
    GattAgree (conn :: mine) g g' :=
  ⟨fun i => (agree.slots i).grow conn, agree.active⟩

/-- A connection that holds no slot can be dropped from the exceptions. -/
theorem GattAgree.shrink {g g' : Gatt n} (agree : GattAgree mine g g') (gone : ¬ g.Tracks conn) :
    GattAgree (mine.filter (· ≠ conn)) g g' := by
  refine ⟨fun i => ⟨(agree.slots i).face, fun others => (agree.slots i).alike ?_⟩, agree.active⟩
  intro a member same
  by_cases left : a = conn
  · exact gone ⟨i, left ▸ same⟩
  · exact others a (List.mem_filter.mpr ⟨member, by simpa using left⟩) same

theorem Paired.view {s : TwoRuns n} (paired : Paired p s) : SameView p s := by
  refine ⟨paired.upstream, ?_, ?_⟩
  · intro conn others len offset
    exact fromnum_answer_agree paired.agree others len offset
  · intro conn others len offset
    rw [paired.upstream.cache]
    exact read_answer_agree paired.agree others _ len offset

theorem private_upstream (own : Private p mine e) : SameUpstream (w.apply p e) w := by
  cases e with
  | fromradioRead conn len offset => exact ⟨rfl, rfl, rfl⟩
  | fromnumRead conn len offset => exact ⟨rfl, rfl, rfl⟩
  | toradioWrite sender buf offset =>
    obtain ⟨member, info, decoded, variant⟩ := own
    have known : protoDecodeToradio p buf = some info := decoded
    simp only [Proxy.apply, toradioWrite]
    split_ifs
    · exact ⟨rfl, rfl, rfl⟩
    · by_cases wants : info.hasWantConfig = true
      · rw [toradio_want_config known wants]
        split_ifs <;> exact ⟨rfl, rfl, rfl⟩
      · simp only [onToradioBle, known, if_neg wants, if_pos (variant.resolve_left wants)]
        exact ⟨rfl, rfl, rfl⟩
  | _ => exact own.elim

/-! Each side is a run of the proxy by itself. -/

def TwinStep.first : TwinStep n → Option (Event n)
  | .both e | .left e => some e
  | .join conn => some (.connected conn false)
  | .right _ => none

def TwinStep.second : TwinStep n → Option (Event n)
  | .both e | .right e => some e
  | .join conn => some (.connected conn false)
  | .left _ => none

theorem two_runs (xs : List (TwinStep n)) (s : TwoRuns n) (runs : (twoRuns n p).Runs s xs) :
    ((system n p).Runs s.first (xs.filterMap TwinStep.first) ∧
      ((twoRuns n p).run s xs).first = (system n p).run s.first (xs.filterMap TwinStep.first)) ∧
    ((system n p).Runs s.second (xs.filterMap TwinStep.second) ∧
      ((twoRuns n p).run s xs).second = (system n p).run s.second (xs.filterMap TwinStep.second)) := by
  induction xs generalizing s with
  | nil => exact ⟨⟨trivial, rfl⟩, ⟨trivial, rfl⟩⟩
  | cons x xs ih =>
    obtain ⟨⟨first, left⟩, ⟨second, right⟩⟩ := ih _ runs.2
    cases x with
    | both e => exact ⟨⟨⟨runs.1.1, first⟩, left⟩, ⟨⟨runs.1.2, second⟩, right⟩⟩
    | join conn => exact ⟨⟨⟨runs.1.1, first⟩, left⟩, ⟨⟨runs.1.2, second⟩, right⟩⟩
    | left e => exact ⟨⟨⟨runs.1.1, first⟩, left⟩, ⟨second, right⟩⟩
    | right e => exact ⟨⟨first, left⟩, ⟨⟨runs.1.1, second⟩, right⟩⟩

theorem Paired.swap {s : TwoRuns n} (paired : Paired p s) :
    Paired p ⟨s.second, s.first, s.mine⟩ :=
  ⟨paired.second, paired.first, paired.upstream.symm, paired.agree.symm⟩

theorem paired_upstream {s : TwoRuns n} (paired : Paired p s) (x : TwinStep n)
    (enabled : (twoRuns n p).enabled s x) :
    SameUpstream ((twoRuns n p).next s x).first ((twoRuns n p).next s x).second := by
  have blind : ∀ e : Event n, SameUpstream (s.first.apply p e) (s.second.apply p e) :=
    fun e => paired.upstream.lift (fun w => w.apply p e) (fun w g => apply_blind p w g e)
  cases x with
  | both e => exact blind e
  | join conn => exact blind (.connected conn false)
  | left e => exact (private_upstream enabled.2).trans paired.upstream
  | right e => exact paired.upstream.trans (private_upstream enabled.2).symm

theorem paired_boot : Paired p (⟨.boot n, .boot n, []⟩ : TwoRuns n) := by
  refine ⟨.refl, .refl, ⟨rfl, rfl, rfl⟩, fun i => ⟨⟨rfl, rfl, rfl, rfl⟩, fun _ => ?_⟩, rfl⟩
  exact ⟨rfl, rfl, rfl, rfl, rfl, rfl, fun _ => rfl⟩

section
variable (documented : p.Documented)
include documented

theorem Paired.twins {s : TwoRuns n} (paired : Paired p s) :
    Twins s.mine s.first.gatt s.second.gatt :=
  ⟨paired.agree, paired.first.distinct documented, paired.second.distinct documented⟩

/-- A heartbeat's answer is the same enqueue whether or not the reply had to be
encoded first. -/
theorem heartbeat_calls_split (reached : Reachable p w) (sender : BtConn) :
    ∃ made, heartbeatCalls p w.gatt sender =
        made ++ [.enqueue sender (p.fromRadioBytes .syntheticQueueStatus)] ∧
      ∀ call ∈ made, call = .encodeReply := by
  have carries : Carries p (fun _ => True) w :=
    Reachable.carries documented trivial (fun _ => trivial) reached
  simp only [heartbeatCalls, encode_queue_status documented, ne_eq, not_true_eq_false, if_false]
  split_ifs with unset
  · exact ⟨[.encodeReply], rfl, by simp⟩
  · rcases carries.gatt.reply with empty | known
    · exact absurd (by rw [empty]; rfl) unset
    · exact ⟨[], by rw [known]; rfl, by simp⟩

theorem calls_distinct {g : Gatt n} (distinct : g.Distinct) (made : List (GattCall n))
    (runs : (gattSystem n p).Runs g made) : ((gattSystem n p).run g made).Distinct := by
  have kept : ∀ (g : Gatt n) (call : GattCall n), g.Distinct → (gattSystem n p).enabled g call →
      ((gattSystem n p).next g call).Distinct :=
    fun g call distinct enabled => call_distinct documented distinct call enabled
  exact Machine.invariant kept made distinct runs

/-- Calls that one side or the other makes for `mine` before both make the same. -/
theorem padded_echo {g g' : Gatt n} (twins : Twins mine g g') {made made' : List (GattCall n)}
    (runs : (gattSystem n p).Runs g made) (runs' : (gattSystem n p).Runs g' made')
    (own : ∀ call ∈ made, call.Own mine) (own' : ∀ call ∈ made', call.Own mine)
    (call : GattCall n) :
    Echo mine g g' ((gattSystem n p).run g (made ++ [call]))
      ((gattSystem n p).run g' (made' ++ [call])) := by
  have left := own_calls_echo documented made twins runs own
  have distinct := calls_distinct documented twins.distinct made runs
  have distinct' := calls_distinct documented twins.distinct' made' runs'
  have right := own_calls_echo documented made'
    ⟨left.agree.symm, twins.distinct', distinct⟩ runs' own'
  have last := call_echo documented right.symm.agree call
  rw [Machine.run_append, Machine.run_append]
  exact (left.trans right.symm).trans last

theorem heartbeat_echo {s : TwoRuns n} (paired : Paired p s) (sender : BtConn) :
    Echo s.mine s.first.gatt s.second.gatt
      ((gattSystem n p).run s.first.gatt (heartbeatCalls p s.first.gatt sender))
      ((gattSystem n p).run s.second.gatt (heartbeatCalls p s.second.gatt sender)) := by
  obtain ⟨made, split, encodes⟩ := heartbeat_calls_split documented paired.first sender
  obtain ⟨made', split', encodes'⟩ := heartbeat_calls_split documented paired.second sender
  have own : ∀ {made : List (GattCall n)}, (∀ call ∈ made, call = .encodeReply) →
      ∀ call ∈ made, call.Own s.mine := by
    intro made encodes call member
    rw [encodes call member]
    trivial
  have free : ∀ {made : List (GattCall n)}, (∀ call ∈ made, call = .encodeReply) →
      ∀ g : Gatt n, (gattSystem n p).Runs g made := by
    intro made encodes
    apply runs_of_unconditional
    intro call member g
    rw [encodes call member]
    trivial
  rw [split, split']
  exact padded_echo documented (paired.twins documented) (free encodes _) (free encodes' _)
    (own encodes) (own encodes') _

/-- An event of both runs. -/
theorem both_echo {s : TwoRuns n} (paired : Paired p s) (e : Event n) (first : s.first.enabled e)
    (second : s.second.enabled e) :
    Echo s.mine s.first.gatt s.second.gatt (s.first.apply p e).gatt (s.second.apply p e).gatt := by
  rw [apply_calls, apply_calls]
  have shared : calls p s.first e = calls p s.second e → Echo s.mine s.first.gatt s.second.gatt
      ((gattSystem n p).run s.first.gatt (calls p s.first e))
      ((gattSystem n p).run s.second.gatt (calls p s.second e)) := by
    intro same
    have runs := calls_run (p := p) e first
    have runs' := calls_run (p := p) e second
    rw [← same] at runs' ⊢
    exact calls_echo documented _ (paired.twins documented) runs runs'
  cases e with
  | fromradio frame rand => exact shared (frame_calls_agree paired.upstream paired.agree _)
  | fromradioRead conn len offset => exact shared (by simp only [calls, paired.upstream.cache])
  | toradioWrite sender buf offset =>
    by_cases skipped : offset ≠ 0
    · exact shared (by simp only [calls, if_pos skipped])
    · have fresh : ∀ w : Proxy n, calls p w (.toradioWrite sender buf offset) =
          toradioCalls p w sender buf := fun w => by simp only [calls, if_neg skipped]
      cases decoded : protoDecodeToradio p buf with
      | none => exact shared (by simp only [fresh, toradioCalls, decoded])
      | some info =>
        by_cases wants : info.hasWantConfig = true
        · exact shared (by simp only [fresh, toradioCalls, decoded, if_pos wants,
            paired.upstream.session])
        · by_cases heartbeat : info.hasHeartbeat = true
          · have beats : ∀ w : Proxy n, calls p w (.toradioWrite sender buf offset) =
                heartbeatCalls p w.gatt sender := fun w => by
              simp only [fresh, toradioCalls, decoded, if_neg wants, if_pos heartbeat]
            rw [beats, beats]
            exact heartbeat_echo documented paired sender
          · exact shared (by simp only [fresh, toradioCalls, decoded, if_neg wants,
              if_neg heartbeat])
  | _ => exact shared rfl

/-- What the phone does for itself in one run. -/
theorem private_calls (reached : Reachable p w) (own : Private p mine e) :
    ∀ call ∈ calls p w e, call.Own mine := by
  cases e with
  | fromradioRead conn len offset =>
    intro call made
    rw [calls, List.mem_singleton] at made
    rw [made]
    exact own
  | fromnumRead conn len offset => exact fun call made => absurd made List.not_mem_nil
  | toradioWrite sender buf offset =>
    obtain ⟨member, info, decoded, variant⟩ := own
    have known : protoDecodeToradio p buf = some info := decoded
    simp only [calls, toradioCalls, known]
    by_cases skipped : offset ≠ 0
    · simp [skipped]
    · rw [if_neg skipped]
      by_cases wants : info.hasWantConfig = true
      · rw [if_pos wants]
        split_ifs
        · simpa [GattCall.Own] using member
        · simp
      · rw [if_neg wants, if_pos (variant.resolve_left wants)]
        obtain ⟨made, split, encodes⟩ := heartbeat_calls_split documented reached sender
        rw [split]
        intro call listed
        rcases List.mem_append.mp listed with encoding | answer
        · rw [encodes call encoding]
          trivial
        · rw [List.mem_singleton.mp answer]
          exact member
  | _ => exact own.elim

theorem own_event_echo {s : TwoRuns n} (paired : Paired p s) (e : Event n)
    (enabled : s.first.enabled e) (own : Private p s.mine e) :
    Echo s.mine s.first.gatt s.second.gatt (s.first.apply p e).gatt s.second.gatt := by
  rw [apply_calls]
  exact own_calls_echo documented _ (paired.twins documented) (calls_run e enabled)
    (private_calls documented paired.first own)

/-- The tables of the two runs after a step, and the bells the step rings. -/
theorem paired_echo {s : TwoRuns n} (paired : Paired p s) (x : TwinStep n)
    (enabled : (twoRuns n p).enabled s x) :
    Echo s.mine s.first.gatt s.second.gatt ((twoRuns n p).next s x).first.gatt
      ((twoRuns n p).next s x).second.gatt := by
  cases x with
  | both e => exact both_echo documented paired e enabled.1 enabled.2
  | join conn => exact both_echo documented paired (.connected conn false) enabled.1 enabled.2
  | left e => exact own_event_echo documented paired e enabled.1 enabled.2
  | right e => exact (own_event_echo documented paired.swap e enabled.1 enabled.2).symm

/-- An event of both runs after which a pointer is dropped: a disconnect, or a
connection of another phone that got the pointer. -/
theorem dropped_agree {s : TwoRuns n} (paired : Paired p s) (e : Event n)
    (enabled : (twoRuns n p).enabled s (.both e)) :
    GattAgree (mineAfter s.mine e) (s.first.apply p e).gatt (s.second.apply p e).gatt := by
  have echo := both_echo documented paired e enabled.1 enabled.2
  cases e with
  | connected conn err =>
    have untracked := find_slot_none.mp enabled.1
    exact (connected_echo (paired.agree.shrink untracked) conn err).agree
  | disconnected conn =>
    exact echo.agree.shrink (disconnected_gone (paired.first.distinct documented) conn)
  | _ => exact echo.agree

theorem paired_step (s : TwoRuns n) (x : TwinStep n) (paired : Paired p s)
    (enabled : (twoRuns n p).enabled s x) : Paired p ((twoRuns n p).next s x) := by
  have echo := paired_echo documented paired x enabled
  have upstream := paired_upstream paired x enabled
  cases x with
  | both e =>
    exact ⟨paired.first.step enabled.1, paired.second.step enabled.2, upstream,
      dropped_agree documented paired e enabled⟩
  | join conn =>
    exact ⟨paired.first.step enabled.1, paired.second.step enabled.2, upstream,
      echo.agree.grow conn⟩
  | left e => exact ⟨paired.first.step enabled.1, paired.second, upstream, echo.agree⟩
  | right e => exact ⟨paired.first, paired.second.step enabled.1, upstream, echo.agree⟩

theorem unaffected_step (s : TwoRuns n) (x : TwinStep n) (paired : Paired p s)
    (enabled : (twoRuns n p).enabled s x) : Unaffected p s x := by
  refine ⟨paired.view, ?_⟩
  obtain ⟨new, new', first, second, same⟩ := (paired_echo documented paired x enabled).bells
  rw [rung, rung, first, second, List.drop_left, List.drop_left]
  exact same

/-- Two runs that differ only in what one phone does for itself: at every point
the upstream state and the cache are the same, every other phone would be
answered the same, and every step rings the others the same bells. -/
theorem phones_isolated (xs : List (TwinStep n))
    (runs : (twoRuns n p).Runs ⟨.boot n, .boot n, []⟩ xs) :
    (twoRuns n p).Along (Unaffected p) ⟨.boot n, .boot n, []⟩ xs ∧
      SameView p ((twoRuns n p).run ⟨.boot n, .boot n, []⟩ xs) := by
  constructor
  · exact Machine.along_of_invariant (paired_step documented) (unaffected_step documented) xs
      paired_boot runs
  · exact (Machine.invariant (paired_step documented) xs paired_boot runs).view

end

/-- In one run only, phone 7 asks for a replay and reads it; in the other it
beats. A packet goes to both phones and phone 8 reads it. -/
def twinSchedule : List (TwinStep 2) :=
  [.both (.sessionStart 5), .both (.fromradio (.of 0x38 [5]) 0), .join 7,
    .both (.connected 8 false), .left (.toradioWrite 7 [0x18, 9] 0), .left (.fromradioRead 7 64 0),
    .right (.toradioWrite 7 [0x3a, 0] 0), .both (.fromradio (.of 0x12 [0]) 0),
    .both (.fromradioRead 8 64 0), .both (.disconnected 7)]

theorem twin_phone_isolated :
    (twoRuns 2 .wire).Along (Unaffected .wire) ⟨.boot 2, .boot 2, []⟩ twinSchedule ∧
      SameView .wire ((twoRuns 2 .wire).run ⟨.boot 2, .boot 2, []⟩ twinSchedule) :=
  phones_isolated wire_documented twinSchedule (by decide)

end MeshPbx
