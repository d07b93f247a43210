import MeshPbx.SessionInvariant
import MeshPbx.WireFormat

/-! A phone's want_config: either its replay is armed at once, or the phone is
parked until the cache is published. The early return on the upstream state
cuts the parking branch off. -/
namespace MeshPbx
variable {n : Nat} {p : Platform} {w : Proxy n} {g : Gatt n} {i : Fin n}
variable {conn : BtConn} {nonce : UInt32}

/-- The phone's replay for this nonce is armed and starts from the first frame. -/
def Armed (g : Gatt n) (conn : BtConn) (nonce : UInt32) : Prop :=
  ∃ i, findSlot g conn = some i ∧ (g.conns i).state = .replaying ∧
    (g.conns i).replayCursor = 0 ∧ (g.conns i).nonce = nonce

/-- The phone waits for the publication of the cache. -/
def Parked (w : Proxy n) (conn : BtConn) (nonce : UInt32) : Prop :=
  ∃ i, findSlot w.gatt conn = some i ∧ (w.gatt.conns i).state = .pending ∧
    (w.gatt.conns i).nonce = nonce ∧ conn ∈ w.session.pending

def Accepted (w : Proxy n) (conn : BtConn) (nonce : UInt32) : Prop :=
  (w.cache.ready = true ∧ (w.session.state = .cacheReady ∨ w.session.state = .live ∨
    w.session.state = .refetching) ∧ Armed w.gatt conn nonce) ∨
  (w.cache.ready = false ∧ w.session.state = .fetching ∧ Parked w conn nonce)

instance : Decidable (Armed g conn nonce) := inferInstanceAs (Decidable (∃ _, _))

instance : Decidable (Parked w conn nonce) := inferInstanceAs (Decidable (∃ _, _))

instance : Decidable (Accepted w conn nonce) := inferInstanceAs (Decidable (_ ∨ _))

theorem find_slot_replay (documented : p.Documented) (other : BtConn) :
    findSlot (bleGattReplayCachedBurst p g other nonce) conn = findSlot g conn := by
  cases found : findSlot g other with
  | none => simp only [bleGattReplayCachedBurst, found]
  | some j =>
    rw [replay_tracked documented found, find_slot_call]
    exact find_slot_setConn rfl

theorem replay_arms (documented : p.Documented) (tracked : findSlot g conn = some i)
    (asked : nonce ≠ 0) : Armed (bleGattReplayCachedBurst p g conn nonce) conn nonce := by
  refine ⟨i, by rw [find_slot_replay documented, tracked], ?_⟩
  rw [replay_tracked documented tracked, if_pos asked]
  refine ⟨?_, ?_, ?_⟩
  · simp [ProxyConn.arm]
  · simp [ProxyConn.arm]
  · simp [ProxyConn.arm]

/-! Publication serves the parked phones. -/

/-- The slot still holds the nonce the phone asked for. -/
def Remembers (g : Gatt n) (i : Fin n) (conn : BtConn) (nonce : UInt32) : Prop :=
  findSlot g conn = some i ∧ (g.conns i).nonce = nonce

theorem replay_remembers (documented : p.Documented) (remembers : Remembers g i conn nonce)
    (other : BtConn) : Remembers (bleGattReplayCachedBurst p g other 0) i conn nonce := by
  obtain ⟨tracked, stored⟩ := remembers
  refine ⟨by rw [find_slot_replay documented, tracked], ?_⟩
  cases found : findSlot g other with
  | none =>
    simp only [bleGattReplayCachedBurst, found]
    exact stored
  | some j =>
    rw [replay_tracked documented found]
    by_cases same : i = j
    · subst same
      simp [ProxyConn.arm, stored]
    · rw [Gatt.conns_call, Gatt.conns_setConn_ne _ same, stored]

theorem replay_keeps_armed (documented : p.Documented) (armed : Armed g conn nonce)
    (other : BtConn) : Armed (bleGattReplayCachedBurst p g other 0) conn nonce := by
  obtain ⟨i, tracked, replaying, start, stored⟩ := armed
  refine ⟨i, by rw [find_slot_replay documented, tracked], ?_⟩
  cases found : findSlot g other with
  | none =>
    simp only [bleGattReplayCachedBurst, found]
    exact ⟨replaying, start, stored⟩
  | some j =>
    rw [replay_tracked documented found]
    by_cases same : i = j
    · subst same
      simp [ProxyConn.arm, stored]
    · rw [Gatt.conns_call, Gatt.conns_setConn_ne _ same]
      exact ⟨replaying, start, stored⟩

/-- The closing terminator of the boot fetch arms the replay of every phone
that is still parked, with the nonce it parked with. -/
theorem parked_served (documented : p.Documented) (parked : Parked w conn nonce)
    (registered : w.session.serveCb = true) :
    Armed (servePendingGatt p w.session w.gatt) conn nonce := by
  obtain ⟨i, tracked, _, stored, waiting⟩ := parked
  have fold : ∀ (conns : List BtConn) (g : Gatt n), Remembers g i conn nonce →
      conn ∈ conns ∨ Armed g conn nonce →
      Armed (conns.foldl (fun g conn => bleGattReplayCachedBurst p g conn 0) g) conn nonce := by
    intro conns
    induction conns with
    | nil => exact fun g _ armed => armed.resolve_left (by simp)
    | cons other conns ih =>
      intro g remembers waiting
      apply ih _ (replay_remembers documented remembers other)
      by_cases same : conn = other
      · subst same
        refine .inr ⟨i, (replay_remembers documented remembers conn).1, ?_⟩
        rw [replay_tracked documented remembers.1]
        simp [ProxyConn.arm, remembers.2]
      · rcases waiting with member | armed
        · exact .inl ((List.mem_cons.mp member).resolve_left same)
        · exact .inr (replay_keeps_armed documented armed other)
  simp only [servePendingGatt, registered, if_true]
  exact fold _ _ ⟨tracked, stored⟩ (.inl waiting)

/-! What a want_config does in each upstream state. -/

theorem want_config_info {data : Bytes} {message : ToRadio}
    (decoded : p.decodeToRadio data = some message)
    (wants : message.whichPayloadVariant = .wantConfigId) :
    protoDecodeToradio p data =
      some { hasWantConfig := true, wantConfigId := message.wantConfigId } := by
  simp only [protoDecodeToradio, decoded, Option.map_some, wants]

theorem want_config_refused {data : Bytes} {info : ToradioInfo}
    (decoded : protoDecodeToradio p data = some info) (wants : info.hasWantConfig = true)
    (early : w.session.state ≠ .live ∧ w.session.state ≠ .cacheReady) :
    onToradioBle p w conn data = w := by
  rw [toradio_want_config decoded wants, if_neg (fun ready => ready.elim early.1 early.2)]

theorem want_config_armed {data : Bytes} {info : ToradioInfo}
    (decoded : protoDecodeToradio p data = some info) (wants : info.hasWantConfig = true)
    (live : w.session.state = .live) :
    onToradioBle p w conn data =
      { w with gatt := bleGattReplayCachedBurst p w.gatt conn info.wantConfigId } := by
  rw [toradio_want_config decoded wants, if_pos (.inl live)]

theorem want_config_accepted_iff (documented : p.Documented) (reached : Reachable p w)
    {data : Bytes} {message : ToRadio} (tracked : findSlot w.gatt conn = some i)
    (decoded : p.decodeToRadio data = some message)
    (wants : message.whichPayloadVariant = .wantConfigId) (asked : message.wantConfigId ≠ 0) :
    Accepted (onToradioBle p w conn data) conn message.wantConfigId ↔
      w.session.state = .live ∨
        (w.session.state = .refetching ∧ Armed w.gatt conn message.wantConfigId) := by
  have settled := reached.settled
  have info := want_config_info decoded wants
  by_cases live : w.session.state = .live
  · have ready := settled.published.mpr (.inl live)
    have armed := replay_arms documented tracked asked
    rw [want_config_armed info rfl live]
    exact iff_of_true (.inl ⟨ready, .inr (.inl live), armed⟩) (.inl live)
  · rw [want_config_refused info rfl ⟨live, settled.passing⟩]
    constructor
    · rintro (⟨_, states, armed⟩ | ⟨_, _, i, _, _, _, waiting⟩)
      · exact .inr ⟨(states.resolve_left settled.passing).resolve_left live, armed⟩
      · rw [settled.parked] at waiting
        exact absurd waiting (by simp)
    · rintro (isLive | ⟨refetching, armed⟩)
      · exact absurd isLive live
      · exact .inl ⟨settled.published.mpr (.inr refetching), .inr (.inr refetching), armed⟩

/-- A phone that asks once the session is LIVE is served. -/
def liveSchedule : List (Event 1) :=
  [.sessionStart 5, .fromradio (.of 0x38 [5]) 0, .connected 7 false]

theorem live_want_config_accepted :
    Accepted (onToradioBle .wire ((system 1 .wire).run (.boot 1) liveSchedule) 7 [0x18, 9]) 7 9 := by
  have decoded : Platform.wire.decodeToRadio [0x18, 9] = some (.wantConfig 9) := by decide
  have reached := reachable_run (p := .wire) liveSchedule (by decide)
  have tracked : findSlot ((system 1 .wire).run (.boot 1) liveSchedule).gatt 7 = some 0 := by decide
  exact (want_config_accepted_iff wire_documented reached tracked decoded rfl (by decide)).mpr
    (.inl (by decide))

/-- A phone that asks during the boot fetch gets neither a replay nor a place
among the parked phones. -/
theorem fetching_want_config_lost :
    ∃ w : Proxy 1, Reachable .wire w ∧ w.session.state = .fetching ∧
      findSlot w.gatt 7 = some 0 ∧
      Platform.wire.decodeToRadio [0x18, 9] = some (.wantConfig 9) ∧
      ¬ Accepted (onToradioBle .wire w 7 [0x18, 9]) 7 9 :=
  ⟨(system 1 .wire).run (.boot 1) [.sessionStart 5, .connected 7 false],
    reachable_run _ (by decide), by decide, by decide, by decide, by decide⟩

end MeshPbx
