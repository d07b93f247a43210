import MeshPbx.Readiness
import MeshPbx.WantConfig

/-! What one handler run does to the replay of one phone. A replay is served
from four fields of the slot, and only the phone's own requests, its fresh
reads, its connection events and the closing of the boot fetch move them. -/
namespace MeshPbx
variable {n : Nat} {p : Platform} {w : Proxy n} {g : Gatt n} {i : Fin n} {conn : BtConn}
variable {e : Event n}

/-! Where a replay stands. -/

/-- The fields a replay is served from. -/
structure ReplayPosition where
  state : PhoneState
  nonce : UInt32
  cursor : Nat
  complete : Bytes
  deriving DecidableEq, Repr

def ProxyConn.position (pc : ProxyConn) : ReplayPosition :=
  ⟨pc.state, pc.nonce, pc.replayCursor, pc.ccBytes⟩

/-- The calls that move the replay of a phone. -/
def GattCall.Turns (conn : BtConn) : GattCall n → Prop
  | .replay target _ | .park target _ => target = conn
  | .read _ reader _ offset => reader = conn ∧ offset = 0
  | .disconnected left => left = conn
  | _ => False

instance (conn : BtConn) : (call : GattCall n) → Decidable (call.Turns conn)
  | .replay _ _ | .park _ _ | .disconnected _ => inferInstanceAs (Decidable (_ = _))
  | .read _ _ _ _ => inferInstanceAs (Decidable (_ ∧ _))
  | .enqueue _ _ | .encodeReply | .register _ _ | .requestTeardown _ | .teardown _
  | .connected _ _ => isFalse id

theorem stage_idle (cache : ConfigCache) {pc : ProxyConn} (idle : pc.state ≠ .replaying) :
    (stageNext cache pc).state = pc.state ∧ (stageNext cache pc).nonce = pc.nonce := by
  cases source : stageSource cache pc with
  | cached k => exact absurd (stage_cached source).1.1 idle
  | complete => exact absurd (stage_complete source).1.1 idle
  | queued =>
    obtain ⟨_, _, staged⟩ := stage_queued source
    rw [staged]
    exact ⟨rfl, rfl⟩
  | nothing =>
    rcases stage_nothing source with ⟨replaying, _, _⟩ | ⟨_, _, staged⟩
    · exact absurd replaying idle
    · rw [staged]
      exact ⟨rfl, rfl⟩

theorem position_offer (pc : ProxyConn) (data : Bytes) : (pc.offer data).position = pc.position := by
  unfold ProxyConn.offer ProxyConn.deliver
  split_ifs <;> rfl

theorem position_after (pc : ProxyConn) {call : GattCall n} (still : ¬ call.Turns conn) :
    (pc.after p i conn call).position = pc.position := by
  cases call with
  | enqueue target data =>
    simp only [ProxyConn.after]
    split_ifs
    · exact position_offer pc data
    · rfl
  | encodeReply => rfl
  | replay target nonce =>
    have same : pc.after p i conn (.replay target nonce) = pc := if_neg still
    rw [same]
  | park target nonce =>
    have same : pc.after p i conn (.park target nonce) = pc := if_neg still
    rw [same]
  | read cache reader len offset =>
    have same : pc.after p i conn (.read cache reader len offset) = pc := if_neg still
    rw [same]
  | register target id =>
    simp only [ProxyConn.after]
    split_ifs <;> rfl
  | requestTeardown target =>
    simp only [ProxyConn.after]
    split_ifs <;> rfl
  | teardown slot =>
    simp only [ProxyConn.after]
    split_ifs <;> rfl
  | connected => rfl
  | disconnected left =>
    have same : pc.after p i conn (.disconnected left) = pc := if_neg still
    rw [same]

theorem GattCall.spares_of_still {call : GattCall n} (still : ¬ call.Turns conn) :
    call.Spares conn := by
  cases call with
  | disconnected left => exact still
  | _ => trivial

/-- Calls that leave a phone's replay alone leave it where it stands. -/
theorem run_position (documented : p.Documented) (made : List (GattCall n)) (held : Held g i conn)
    (runs : (gattSystem n p).Runs g made) (still : ∀ call ∈ made, ¬ call.Turns conn) :
    Held ((gattSystem n p).run g made) i conn ∧
      (((gattSystem n p).run g made).conns i).position = (g.conns i).position := by
  induction made generalizing g with
  | nil => exact ⟨held, rfl⟩
  | cons call made ih =>
    have quiet := still call List.mem_cons_self
    have next := held.call documented call runs.1 (GattCall.spares_of_still quiet)
    obtain ⟨final, position⟩ := ih next runs.2
      (fun later member => still later (List.mem_cons_of_mem _ member))
    refine ⟨final, position.trans ?_⟩
    rw [call_slot documented held.distinct held.holds call, position_after _ quiet]

/-! A slot keeps its holder. -/

/-- Only a connection event gives a slot to a connection. -/
theorem call_origin (documented : p.Documented) {call : GattCall n}
    (older : ∀ err, call ≠ .connected conn err) (holds : ((call.run p g).conns i).conn = some conn) :
    (g.conns i).conn = some conn := by
  cases call with
  | connected fresh err =>
    have other : fresh ≠ conn := fun same => older err (by rw [same])
    cases err with
    | true => exact holds
    | false =>
      rcases connected_conns g fresh with same | ⟨j, _, opened⟩
      · rwa [GattCall.run, same] at holds
      · rw [GattCall.run, opened] at holds
        by_cases here : i = j
        · rw [here, Gatt.conns_setConn_same] at holds
          exact absurd (Option.some.inj holds) other
        · rwa [Gatt.conns_setConn_ne _ here] at holds
  | disconnected left =>
    rw [GattCall.run, disconnected_conns] at holds
    unfold Gatt.modify at holds
    cases found : findSlot g left with
    | none => rwa [found] at holds
    | some j =>
      rw [found] at holds
      by_cases here : i = j
      · rw [here, Gatt.conns_setConn_same] at holds
        cases holds
      · rwa [Gatt.conns_setConn_ne _ here] at holds
  | _ => exact (call_holder documented _ (by trivial) i).symm.trans holds

theorem run_origin (documented : p.Documented) (made : List (GattCall n))
    (older : ∀ call ∈ made, ∀ err, call ≠ .connected conn err)
    (holds : (((gattSystem n p).run g made).conns i).conn = some conn) :
    (g.conns i).conn = some conn := by
  induction made generalizing g with
  | nil => exact holds
  | cons call made ih =>
    have later := ih (fun call member => older call (List.mem_cons_of_mem _ member)) holds
    exact call_origin documented (older call List.mem_cons_self) later

/-! The phone's own events. -/

/-- The id of the want_config an event carries from the phone to a LIVE session. -/
def asked (p : Platform) (w : Proxy n) (conn : BtConn) : Event n → Option UInt32
  | .toradioWrite sender buf offset =>
    if sender = conn ∧ offset = 0 ∧ w.session.state = .live then
      (protoDecodeToradio p buf).bind fun info =>
        if info.hasWantConfig = true then some info.wantConfigId else none
    else none
  | _ => none

/-- The events that do not concern the replay of the phone. -/
structure Aside (p : Platform) (w : Proxy n) (conn : BtConn) (e : Event n) : Prop where
  asked : asked p w conn e = none
  read : ∀ len, e ≠ .fromradioRead conn len 0
  connected : ∀ err, e ≠ .connected conn err
  disconnected : e ≠ .disconnected conn

theorem aside_cases (unasked : asked p w conn e = none) :
    Aside p w conn e ∨ (∃ len, e = .fromradioRead conn len 0) ∨ (∃ err, e = .connected conn err) ∨
      e = .disconnected conn := by
  by_cases read : ∃ len, e = .fromradioRead conn len 0
  · exact .inr (.inl read)
  · by_cases connected : ∃ err, e = .connected conn err
    · exact .inr (.inr (.inl connected))
    · by_cases disconnected : e = .disconnected conn
      · exact .inr (.inr (.inr disconnected))
      · exact .inl ⟨unasked, fun len same => read ⟨len, same⟩,
          fun err same => connected ⟨err, same⟩, disconnected⟩

/-- A frame from the node moves replays only by closing the boot fetch. -/
theorem frame_still {payload : Bytes} {call : GattCall n} (member : call ∈ frameCalls p w payload) :
    (¬ call.Turns conn ∧ ∀ fresh err, call ≠ .connected fresh err) ∨
      (Closes p w payload ∧ call ∈ serveCalls w.session) := by
  cases frame_call member with
  | queued => exact .inl ⟨id, fun _ _ same => by cases same⟩
  | served _ parked fetching info decoded terminator ours =>
    exact .inr ⟨⟨fetching, info, decoded, terminator, ours⟩, parked⟩

theorem toradio_still {sender : BtConn} {buf : Bytes} (passing : w.session.state ≠ .cacheReady)
    (aside : asked p w conn (.toradioWrite sender buf 0) = none) {call : GattCall n}
    (member : call ∈ toradioCalls p w sender buf) :
    ¬ call.Turns conn ∧ ∀ fresh err, call ≠ .connected fresh err := by
  cases toradio_call member with
  | replay info decoded wants ready =>
    have live := ready.resolve_right passing
    refine ⟨fun mine => ?_, fun _ _ same => by cases same⟩
    have mine : sender = conn := mine
    simp [asked, mine, live, decoded, wants] at aside
  | _ => exact ⟨id, fun _ _ same => by cases same⟩

/-- The event closes the boot fetch. -/
def Closing (p : Platform) (w : Proxy n) (e : Event n) : Prop :=
  e.Delivers fun frame => Closes p w frame.bytes

instance : Decidable (Closing p w e) :=
  inferInstanceAs (Decidable (e.Delivers _))

theorem calls_still (quiet : w.session.pending = [] ∨ ¬ Closing p w e)
    (passing : w.session.state ≠ .cacheReady) (aside : Aside p w conn e) :
    ∀ call ∈ calls p w e, ¬ call.Turns conn ∧ ∀ err, call ≠ .connected conn err := by
  intro call member
  cases e with
  | fromradio frame rand =>
    rcases frame_still member with ⟨still, older⟩ | ⟨closes, served⟩
    · exact ⟨still, older conn⟩
    · rcases quiet with parked | outside
      · simp [serveCalls, parked] at served
      · exact absurd closes outside
  | toradioWrite sender buf offset =>
    simp only [calls] at member
    split_ifs at member with skipped
    · exact absurd member List.not_mem_nil
    · have first : offset = 0 := by simpa using skipped
      subst first
      obtain ⟨still, older⟩ := toradio_still passing aside.asked member
      exact ⟨still, older conn⟩
  | fromradioRead reader len offset =>
    rw [List.mem_singleton.mp member]
    refine ⟨?_, fun _ same => by cases same⟩
    rintro ⟨rfl, rfl⟩
    exact aside.read len rfl
  | nodeRegWrite sender buf offset =>
    simp only [calls] at member
    split_ifs at member
    · exact absurd member List.not_mem_nil
    · rw [List.mem_singleton.mp member]
      exact ⟨id, fun _ same => by cases same⟩
  | connected fresh err =>
    rw [List.mem_singleton.mp member]
    refine ⟨id, fun other same => ?_⟩
    cases same
    exact aside.connected err rfl
  | disconnected left =>
    rw [List.mem_singleton.mp member]
    refine ⟨?_, fun _ same => by cases same⟩
    rintro rfl
    exact aside.disconnected rfl
  | teardown slot =>
    rw [List.mem_singleton.mp member]
    exact ⟨id, fun _ same => by cases same⟩
  | _ => exact absurd member List.not_mem_nil

/-! What an event does to the slot that a connection holds after it. -/

inductive SlotMove (p : Platform) (w : Proxy n) (conn : BtConn) (i : Fin n) :
    Event n → ProxyConn → Prop
  | asked (e : Event n) (id : UInt32) (asks : asked p w conn e = some id)
      (held : Held w.gatt i conn) :
      SlotMove p w conn i e
        ((w.gatt.conns i).arm p (if id ≠ 0 then id else (w.gatt.conns i).nonce))
  | read (len : Nat) (held : Held w.gatt i conn) :
      SlotMove p w conn i (.fromradioRead conn len 0) (stageNext w.cache (w.gatt.conns i))
  | fresh : SlotMove p w conn i (.connected conn false) ((w.gatt.conns i).reset (some conn))
  | aside (e : Event n) (pc : ProxyConn) (aside : Aside p w conn e) (held : Held w.gatt i conn)
      (position : pc.position = (w.gatt.conns i).position) : SlotMove p w conn i e pc

section
variable (documented : p.Documented) (distinct : w.gatt.Distinct)
include documented distinct

theorem asked_move {id : UInt32} (asks : asked p w conn e = some id)
    (holds : ((w.apply p e).gatt.conns i).conn = some conn) :
    SlotMove p w conn i e ((w.apply p e).gatt.conns i) := by
  cases e with
  | toradioWrite sender buf offset =>
    have wanted := asks
    simp only [MeshPbx.asked] at wanted
    split_ifs at wanted with mine
    obtain ⟨rfl, rfl, live⟩ := mine
    obtain ⟨info, decoded, wants⟩ := Option.bind_eq_some_iff.mp wanted
    split_ifs at wants with want
    cases wants
    have armed : (w.apply p (.toradioWrite sender buf 0)).gatt =
        (GattCall.replay sender info.wantConfigId).run p w.gatt := by
      have write : w.apply p (.toradioWrite sender buf 0) = onToradioBle p w sender buf := rfl
      rw [write, want_config_armed decoded want live]
      rfl
    rw [armed] at holds ⊢
    have before := (call_holder documented (.replay sender info.wantConfigId) trivial i).symm.trans
      holds
    rw [call_slot documented distinct before]
    simp only [ProxyConn.after, if_true]
    exact .asked _ _ asks ⟨distinct, before⟩
  | _ => cases asks

theorem slot_move (enabled : w.enabled e) (passing : w.session.state ≠ .cacheReady)
    (quiet : w.session.pending = [] ∨ ¬ Closing p w e)
    (holds : ((w.apply p e).gatt.conns i).conn = some conn) :
    SlotMove p w conn i e ((w.apply p e).gatt.conns i) := by
  cases asks : asked p w conn e with
  | some id => exact asked_move documented distinct asks holds
  | none =>
    rcases aside_cases asks with aside | ⟨len, rfl⟩ | ⟨err, rfl⟩ | rfl
    · have still := calls_still quiet passing aside
      rw [apply_calls] at holds ⊢
      have held : Held w.gatt i conn :=
        ⟨distinct, run_origin documented _ (fun call member => (still call member).2) holds⟩
      obtain ⟨_, position⟩ := run_position documented _ held (calls_run e enabled)
        (fun call member => (still call member).1)
      exact .aside _ _ aside held position
    · have before : (w.gatt.conns i).conn = some conn :=
        (call_holder documented (.read w.cache conn len 0) trivial i).symm.trans holds
      have slot := call_slot documented distinct before (.read w.cache conn len 0)
      have staged : (w.apply p (.fromradioRead conn len 0)).gatt.conns i =
          if conn = conn ∧ 0 = 0 then stageNext w.cache (w.gatt.conns i) else w.gatt.conns i := slot
      rw [staged, if_pos ⟨rfl, rfl⟩]
      exact .read len ⟨distinct, before⟩
    · have absent := not_exists.mp (find_slot_none.mp enabled)
      cases err with
      | true => exact absurd holds (absent i)
      | false =>
        have later : (onConnected w.gatt conn false).Distinct :=
          call_distinct documented distinct (.connected conn false) enabled
        have opened := connected_reset enabled (find_slot_of_distinct later holds)
        have slot : (w.apply p (.connected conn false)).gatt.conns i =
            (w.gatt.conns i).reset (some conn) := opened
        rw [slot]
        exact .fresh
    · exact absurd ⟨i, holds⟩ (disconnected_gone distinct conn)

end

end MeshPbx
