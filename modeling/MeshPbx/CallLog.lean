import MeshPbx.SlotAgreement

/-! The calls into the BLE stack. Every function of the GATT server appends to their
log, and what it appends depends on the slot it finds alone. -/
namespace MeshPbx
variable {n : Nat} {p : Platform} {g : Gatt n} {conn : BtConn}

/-- The calls that one run of a function of the server makes into the stack. -/
def GattCall.said (g : Gatt n) : GattCall n → List BtCall
  | .enqueue conn data => (findSlot g conn).elim [] fun i => (g.conns i).bells conn data
  | .replay conn _ => (findSlot g conn).elim [] fun i =>
    [.notifyFromnum conn ((g.conns i).fromnum + 1)]
  | .teardown slot => (g.conns slot).conn.elim [] fun conn =>
    if (g.conns slot).leaving then [.disconnect conn .remoteUserTermConn] else []
  | .connected conn err =>
    if err then []
    else (allocSlot g conn).elim [.disconnect conn .connLimitExceeded] fun _ =>
      if (g.activeConnCount + 1) % 2 ^ 8 < n then [.advStart] else []
  | .disconnected _ => [.advStart]
  | .encodeReply | .park _ _ | .read _ _ _ _ | .register _ _ | .requestTeardown _ => []

theorem connected_said (g : Gatt n) (conn : BtConn) (err : Bool) :
    (onConnected g conn err).btCalls = g.btCalls ++ (GattCall.connected conn err).said g := by
  unfold onConnected GattCall.said
  cases err with
  | true => simp
  | false =>
    simp only [Bool.false_eq_true, if_false, allocSlot]
    cases (List.finRange n).find? fun i => (g.conns i).conn = none with
    | none => rfl
    | some i =>
      simp only [Option.map_some, Option.elim_some, Gatt.setConn]
      split_ifs
      · rfl
      · exact (List.append_nil _).symm

/-- The log after a call. -/
theorem call_said (documented : p.Documented) (g : Gatt n) (call : GattCall n) :
    (call.run p g).btCalls = g.btCalls ++ call.said g := by
  cases call with
  | enqueue conn data =>
    cases found : findSlot g conn with
    | none =>
      rw [GattCall.run, enqueue_untracked found, GattCall.said, found]
      exact (List.append_nil _).symm
    | some i =>
      rw [GattCall.run, enqueue_bells found data, GattCall.said, found]
      rfl
  | encodeReply => exact (List.append_nil _).symm
  | replay conn nonce =>
    cases found : findSlot g conn with
    | none =>
      simp only [GattCall.run, bleGattReplayCachedBurst, found, GattCall.said]
      exact (List.append_nil _).symm
    | some i =>
      rw [GattCall.run, replay_tracked documented found, GattCall.said, found]
      rfl
  | park conn nonce =>
    simp only [GattCall.run, parkSlot, GattCall.said, List.append_nil]
    split <;> rfl
  | read cache conn len offset =>
    rw [GattCall.run, (read_rest cache g conn len offset).2]
    exact (List.append_nil _).symm
  | register conn id =>
    simp only [GattCall.run, bleGattRegisterProxyId, GattCall.said, List.append_nil]
    split <;> rfl
  | requestTeardown conn =>
    simp only [GattCall.run, bleGattRequestTeardown, GattCall.said, List.append_nil]
    split <;> rfl
  | teardown slot =>
    simp only [GattCall.run, teardownWorkHandler, Gatt.conns_setConn_same, GattCall.said]
    cases (g.conns slot).conn with
    | none => exact (List.append_nil _).symm
    | some conn =>
      simp only [Option.elim_some]
      split_ifs
      · rfl
      · exact (List.append_nil _).symm
  | connected conn err => exact connected_said g conn err
  | disconnected conn =>
    simp only [GattCall.run, onDisconnected, GattCall.said]
    split <;> rfl

theorem call_extends (documented : p.Documented) (g : Gatt n) (call : GattCall n) :
    g.btCalls <+: (call.run p g).btCalls := by
  rw [call_said documented]
  exact List.prefix_append _ _

theorem calls_extend (documented : p.Documented) (g : Gatt n) (calls : List (GattCall n)) :
    g.btCalls <+: ((gattSystem n p).run g calls).btCalls := by
  induction calls generalizing g with
  | nil => exact List.prefix_refl _
  | cons call calls ih => exact (call_extends documented g call).trans (ih (call.run p g))

end MeshPbx
