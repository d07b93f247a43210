import MeshPbx.GattCalls
import MeshPbx.WireFormat

/-! Readiness. The publish flag of the cache, the state of the session and the
replays of the phones are kept by three modules; between handler runs they
agree, with phones parked at any moment as well. -/
namespace MeshPbx
variable {n : Nat} {p : Platform} {w : Proxy n} {g : Gatt n}

/-! Parked phones. -/

/-- A handler run of the proxy, or a phone parked through the entry point that
is there for it. -/
inductive Arrival (n : Nat) where
  | event (e : Event n)
  | park (conn : BtConn) (nonce : UInt32)

namespace Arrival

def enabled (w : Proxy n) : Arrival n → Prop
  | .event e => w.enabled e
  | .park _ _ => True

instance (w : Proxy n) : (x : Arrival n) → Decidable (x.enabled w)
  | .event _ => inferInstanceAs (Decidable (w.enabled _))
  | .park _ _ => isTrue trivial

def apply (p : Platform) (w : Proxy n) : Arrival n → Proxy n
  | .event e => w.apply p e
  | .park conn nonce => bleGattParkPending p w conn nonce

/-- The calls on the GATT server. -/
def calls (p : Platform) (w : Proxy n) : Arrival n → List (GattCall n)
  | .event e => MeshPbx.calls p w e
  | .park conn nonce =>
    .park conn nonce ::
      if cacheIsReady w.cache = true ∧ w.session.serveCb = true then [.replay conn 0] else []

end Arrival

def parking (n : Nat) (p : Platform) : Machine (Proxy n) (Arrival n) where
  enabled w x := x.enabled w
  next w x := x.apply p w

instance (w : Proxy n) (x : Arrival n) : Decidable ((parking n p).enabled w x) :=
  inferInstanceAs (Decidable (x.enabled w))

theorem park_gatt (p : Platform) (w : Proxy n) (conn : BtConn) (nonce : UInt32) :
    (bleGattParkPending p w conn nonce).gatt =
      (gattSystem n p).run w.gatt ((Arrival.park conn nonce).calls p w) := by
  have first : (gattSystem n p).run w.gatt ((Arrival.park conn nonce).calls p w) =
      (gattSystem n p).run (parkSlot w.gatt conn nonce)
        (if cacheIsReady w.cache = true ∧ w.session.serveCb = true then [.replay conn 0] else []) :=
    rfl
  rw [first]
  cases found : findSlot w.gatt conn with
  | none =>
    have lost : parkSlot w.gatt conn nonce = w.gatt := by simp only [parkSlot, found]
    have unheard : bleGattReplayCachedBurst p w.gatt conn 0 = w.gatt := by
      simp only [bleGattReplayCachedBurst, found]
    rw [lost]
    simp only [bleGattParkPending, found]
    split_ifs
    · exact unheard.symm
    · rfl
  | some i =>
    have parked : parkSlot w.gatt conn nonce =
        w.gatt.setConn i { w.gatt.conns i with state := .pending, nonce := nonce } := by
      simp only [parkSlot, found]
    rw [parked]
    simp only [bleGattParkPending, found, upstreamOnPendingPhone, serveOnePending]
    cases cacheIsReady w.cache with
    | true =>
      cases w.session.serveCb with
      | true => simp only [if_true, and_self]; rfl
      | false => simp only [Bool.false_eq_true, and_false, if_true, if_false]; rfl
    | false =>
      simp only [Bool.false_eq_true, false_and, if_false]
      split_ifs <;> rfl

/-- Parking touches nothing of the session but its list, which gains the
connection at most once and only before publication. -/
theorem park_upstream (p : Platform) (w : Proxy n) (conn : BtConn) (nonce : UInt32) :
    (bleGattParkPending p w conn nonce).cache = w.cache ∧
      (bleGattParkPending p w conn nonce).uart = w.uart ∧
      (bleGattParkPending p w conn nonce).session = { w.session with
        pending :=
          if findSlot w.gatt conn = none ∨ cacheIsReady w.cache = true ∨
            conn ∈ w.session.pending ∨ w.session.pending.length ≥ n then w.session.pending
          else w.session.pending ++ [conn] } := by
  cases found : findSlot w.gatt conn with
  | none => simp [bleGattParkPending, found]
  | some i =>
    simp only [bleGattParkPending, found, upstreamOnPendingPhone, serveOnePending, reduceCtorEq,
      false_or]
    cases cacheIsReady w.cache with
    | true =>
      simp only [if_true, true_or]
      split_ifs <;> exact ⟨rfl, rfl, rfl⟩
    | false =>
      simp only [Bool.false_eq_true, if_false, false_or]
      by_cases listed : conn ∈ w.session.pending
      · simp only [listed, if_true, true_or, and_self]
      · simp only [listed, if_false, false_or]
        split_ifs <;> exact ⟨rfl, rfl, rfl⟩

theorem arrival_calls (p : Platform) (w : Proxy n) (x : Arrival n) :
    (x.apply p w).gatt = (gattSystem n p).run w.gatt (x.calls p w) := by
  cases x with
  | event e => exact apply_calls p w e
  | park conn nonce => exact park_gatt p w conn nonce

theorem arrival_runs (x : Arrival n) (enabled : x.enabled w) :
    (gattSystem n p).Runs w.gatt (x.calls p w) := by
  cases x with
  | event e => exact calls_run e enabled
  | park conn nonce =>
    refine ⟨trivial, ?_⟩
    split_ifs
    · exact ⟨trivial, trivial⟩
    · trivial

/-! The session's moves. -/

/-- The edges the session's state machine has. -/
inductive Edge : UpstreamState → UpstreamState → Prop
  | opened : Edge .boot .fetching
  | published : Edge .fetching .cacheReady
  | served : Edge .cacheReady .live
  | refetched : Edge .live .refetching
  | resumed : Edge .refetching .live

/-- One handler run stays, follows one edge, or passes CACHE_READY on its way. -/
def Moves (a b : UpstreamState) : Prop :=
  b = a ∨ Edge a b ∨ (Edge a .cacheReady ∧ Edge .cacheReady b)

theorem Phase.Step.moves {a b : Phase} (step : Phase.Step a b) (consistent : a.Consistent) :
    Moves a.state b.state := by
  cases step with
  | stays => exact .inl rfl
  | unsent => exact .inl rfl
  | opened unarmed => exact .inr (.inl (consistent.unarmed unarmed ▸ .opened))
  | reopened => exact .inl rfl
  | published fetching =>
    rw [fetching]
    exact .inr (.inr ⟨.published, .served⟩)
  | refetched idle =>
    rw [idle.resolve_right consistent.passing]
    exact .inr (.inl .refetched)
  | resumed refetching =>
    rw [refetching]
    exact .inr (.inl .resumed)

/-- A published cache stays published. -/
theorem Phase.Step.ready_kept {a b : Phase} (step : Phase.Step a b) (consistent : a.Consistent)
    (ready : a.ready = true) : b.ready = true := by
  have state := consistent.published.mp ready
  cases step with
  | opened unarmed => simp [consistent.unarmed unarmed] at state
  | reopened fetching => simp [fetching] at state
  | published => rfl
  | _ => exact ready

theorem park_phase (p : Platform) (w : Proxy n) (conn : BtConn) (nonce : UInt32) :
    (bleGattParkPending p w conn nonce).phase =
      { w.phase with pending := (bleGattParkPending p w conn nonce).session.pending } := by
  obtain ⟨cache, _, session⟩ := park_upstream p w conn nonce
  simp only [Proxy.phase, cache]
  rw [session]

/-! Replays. -/

theorem stage_replaying_from {cache : ConfigCache} {pc : ProxyConn}
    (replaying : (stageNext cache pc).state = .replaying) : pc.state = .replaying := by
  by_contra idle
  cases source : stageSource cache pc with
  | cached k => exact idle (stage_cached source).1.1
  | complete => exact idle (stage_complete source).1.1
  | queued =>
    obtain ⟨_, _, staged⟩ := stage_queued source
    rw [staged] at replaying
    exact idle replaying
  | nothing =>
    rcases stage_nothing source with ⟨other, _, _⟩ | ⟨_, _, staged⟩
    · exact idle other
    · rw [staged] at replaying
      exact idle replaying

/-- Only arming a replay puts a phone in PHONE_REPLAYING. -/
theorem call_replaying (documented : p.Documented) {call : GattCall n}
    (other : ∀ conn nonce, call ≠ .replay conn nonce) {i : Fin n}
    (replaying : ((call.run p g).conns i).state = .replaying) : (g.conns i).state = .replaying := by
  rcases call_change documented g call i with same | ⟨finds, changed⟩
  · rwa [same] at replaying
  · rw [changed] at replaying
    cases call with
    | replay conn nonce => exact absurd rfl (other conn nonce)
    | enqueue target data =>
      simp only [GattCall.change, ProxyConn.offer, ProxyConn.deliver] at replaying
      split_ifs at replaying <;> exact replaying
    | encodeReply => exact finds.elim
    | read cache reader len offset =>
      rw [GattCall.change] at replaying
      split_ifs at replaying
      · exact stage_replaying_from replaying
      · exact replaying
    | park => cases replaying
    | connected => cases replaying
    | disconnected => cases replaying
    | register => exact replaying
    | requestTeardown => exact replaying
    | teardown => exact replaying

/-- The frames that close the boot fetch. -/
def Closes (p : Platform) (w : Proxy n) (payload : Bytes) : Prop :=
  w.session.state = .fetching ∧ ∃ info ∈ protoDecodeFromradio p payload,
    info.whichVariant = .configCompleteId ∧
      decodeConfigCompleteNonce p payload = some w.session.nonce

instance (payload : Bytes) : Decidable (Closes p w payload) :=
  inferInstanceAs (Decidable (_ ∧ ∃ info ∈ _, _))

theorem closes_frame {payload : Bytes} (closes : Closes p w payload) (rand : UInt32) :
    onFromradioUart p w payload rand =
      { w with
        cache := cacheMarkReady w.cache
        gatt := servePendingGatt p w.session w.gatt
        session := { w.session with pending := [] }.wentLive } := by
  obtain ⟨fetching, info, known, terminator, ours⟩ := closes
  have decoded : protoDecodeFromradio p payload = some info := known
  have effect := frame_effect p w payload rand
  generalize onFromradioUart p w payload rand = after at effect ⊢
  have window : w.session.Window := .inl fetching
  have same : ∀ {other}, protoDecodeFromradio p payload = some other → info = other :=
    fun found => Option.some.inj (decoded.symm.trans found)
  cases effect with
  | undecoded none =>
    rw [decoded] at none
    contradiction
  | fetched other found _ plain _ effect =>
    cases same found
    cases effect with
    | stored keeps =>
      rcases keeps with ⟨_, foreign⟩ | ⟨foreign, _⟩
      · exact absurd ours foreign
      · exact absurd terminator foreign
    | discarded _ foreign => exact absurd terminator foreign
    | published => rfl
    | resumed refetching =>
      rw [fetching] at refetching
      contradiction
  | rebooted _ _ outside => exact absurd window outside
  | swallowed _ _ outside => exact absurd window outside
  | live _ _ outside => exact absurd window outside
  | packet other found packet =>
    cases same found
    rw [terminator] at packet
    contradiction

/-- A frame arms replays only when it closes the boot fetch. -/
theorem frame_replay {payload : Bytes} {conn : BtConn} {nonce : UInt32}
    (armed : .replay conn nonce ∈ frameCalls p w payload) : Closes p w payload := by
  cases frame_call armed with
  | served _ _ fetching info decoded terminator ours =>
    exact ⟨fetching, info, decoded, terminator, ours⟩

theorem toradio_replay {sender conn : BtConn} {buf : Bytes} {nonce : UInt32}
    (armed : .replay conn nonce ∈ toradioCalls p w sender buf) :
    (w.session.state = .live ∨ w.session.state = .cacheReady) ∧
      (onToradioBle p w sender buf).cache = w.cache := by
  cases toradio_call armed with
  | replay info decoded wants ready =>
    rw [toradio_want_config decoded wants, if_pos ready]
    exact ⟨ready, rfl⟩

/-- Replays are armed only over a cache that the handler leaves published. -/
theorem replay_published (consistent : w.phase.Consistent) {x : Arrival n}
    {conn : BtConn} {nonce : UInt32} (armed : .replay conn nonce ∈ x.calls p w) :
    (x.apply p w).cache.ready = true := by
  cases x with
  | park parked id =>
    rcases List.mem_cons.mp armed with first | later
    · cases first
    · split_ifs at later with ready
      · rw [Arrival.apply, (park_upstream p w parked id).1]
        exact ready.1
      · exact absurd later List.not_mem_nil
  | event e =>
    cases e with
    | fromradio frame rand =>
      have closed := closes_frame (frame_replay armed) rand
      simp only [Arrival.apply, Proxy.apply, closed, cacheMarkReady]
    | toradioWrite sender buf offset =>
      simp only [Arrival.calls, calls] at armed
      split_ifs at armed with skipped
      · exact absurd armed List.not_mem_nil
      · obtain ⟨state, cache⟩ := toradio_replay armed
        have live := state.resolve_right consistent.passing
        simp only [Arrival.apply, Proxy.apply, toradioWrite, if_neg skipped, cache]
        exact consistent.published.mpr (.inl live)
    | nodeRegWrite sender buf offset =>
      simp only [Arrival.calls, calls] at armed
      split_ifs at armed <;> simp at armed
    | _ => simp [Arrival.calls, calls] at armed

/-! The invariant. -/

/-- The flag, the state and the replays agree. -/
structure Governed (w : Proxy n) : Prop where
  ready : cacheIsReady w.cache = true ↔ upstreamGetState w = .cacheReady ∨
    upstreamGetState w = .live ∨ upstreamGetState w = .refetching
  replaying : ∀ i, (w.gatt.conns i).state = .replaying → cacheIsReady w.cache = true

/-- One step moves along the state machine and never begins a published cache
again: it leaves it as it is or tries to add a frame. -/
structure Advance (p : Platform) (w : Proxy n) (x : Arrival n) : Prop where
  moves : Moves (upstreamGetState w) (upstreamGetState (x.apply p w))
  kept : cacheIsReady w.cache = true → (x.apply p w).cache = w.cache ∨
    ∃ raw variant, (x.apply p w).cache = (cacheAddFrame w.cache raw variant).1

structure Kept (w : Proxy n) : Prop where
  consistent : w.phase.Consistent
  distinct : w.gatt.Distinct
  replaying : ∀ i, (w.gatt.conns i).state = .replaying → w.cache.ready = true

theorem Kept.governed (kept : Kept w) : Governed w := by
  obtain ⟨⟨_, passing, published⟩, _, replaying⟩ := kept
  refine ⟨?_, replaying⟩
  constructor
  · exact fun ready => .inr (published.mp ready)
  · exact fun state => published.mpr (state.resolve_left passing)

theorem arrival_phase (w : Proxy n) (x : Arrival n) (enabled : x.enabled w)
    (consistent : w.phase.Consistent) :
    (x.apply p w).phase.Consistent ∧ Moves w.session.state (x.apply p w).session.state ∧
      (w.cache.ready = true → (x.apply p w).cache.ready = true) := by
  cases x with
  | event e =>
    have step := phase_step (p := p) w e enabled
    exact ⟨step.consistent consistent, step.moves consistent, step.ready_kept consistent⟩
  | park conn nonce =>
    obtain ⟨cache, _, session⟩ := park_upstream p w conn nonce
    have state : (bleGattParkPending p w conn nonce).session.state = w.session.state := by
      rw [session]
    simp only [Arrival.apply]
    rw [park_phase, state, cache]
    exact ⟨⟨consistent.unarmed, consistent.passing, consistent.published⟩, .inl rfl, id⟩

/-- What a list of calls leaves replaying was replaying before, or the list has
armed a replay. -/
theorem calls_replaying (documented : p.Documented) (made : List (GattCall n)) {i : Fin n}
    (replaying : (((gattSystem n p).run g made).conns i).state = .replaying) :
    (g.conns i).state = .replaying ∨ ∃ conn nonce, .replay conn nonce ∈ made := by
  induction made generalizing g with
  | nil => exact .inl replaying
  | cons call made ih =>
    by_cases armed : ∃ conn nonce, call = .replay conn nonce
    · obtain ⟨conn, nonce, rfl⟩ := armed
      exact .inr ⟨conn, nonce, List.mem_cons_self⟩
    · have other : ∀ conn nonce, call ≠ .replay conn nonce :=
        fun conn nonce same => armed ⟨conn, nonce, same⟩
      rcases ih replaying with before | ⟨conn, nonce, later⟩
      · exact .inl (call_replaying documented other before)
      · exact .inr ⟨conn, nonce, List.mem_cons_of_mem _ later⟩

theorem arrival_progress (w : Proxy n) (x : Arrival n) (kept : Kept w) (enabled : x.enabled w) :
    Advance p w x := by
  refine ⟨(arrival_phase w x enabled kept.consistent).2.1, fun ready => ?_⟩
  cases x with
  | park conn nonce => exact .inl (park_upstream p w conn nonce).1
  | event e =>
    have state := kept.consistent.published.mp ready
    have step := cache_step p e enabled
    simp only [Arrival.apply]
    generalize (w.apply p e).cache = after at step ⊢
    cases step with
    | same => exact .inl rfl
    | stored frame rand info => exact .inr ⟨_, _, rfl⟩
    | opened rand unarmed =>
      have boot : w.session.state = .boot := kept.consistent.unarmed unarmed
      simp [Proxy.phase, boot] at state
    | reopened fetching => simp [Proxy.phase, fetching] at state
    | published frame rand fetching => simp [Proxy.phase, fetching] at state

theorem kept_boot : Kept (Proxy.boot n) := by
  refine ⟨settled_boot.consistent, ?_, ?_⟩
  · intro i j conn held
    cases held
  · intro i replaying
    cases replaying

section
variable (documented : p.Documented)
include documented

theorem kept_step (w : Proxy n) (x : Arrival n) (kept : Kept w) (enabled : x.enabled w) :
    Kept (x.apply p w) := by
  obtain ⟨consistent, _, ready⟩ := arrival_phase (p := p) w x enabled kept.consistent
  have runs := arrival_runs (p := p) x enabled
  refine ⟨consistent, ?_, ?_⟩
  · rw [arrival_calls]
    have each : ∀ (g : Gatt n) (call : GattCall n), g.Distinct → (gattSystem n p).enabled g call →
        ((gattSystem n p).next g call).Distinct :=
      fun g call distinct enabled => call_distinct documented distinct call enabled
    exact Machine.invariant each _ kept.distinct runs
  · intro i replaying
    rw [arrival_calls] at replaying
    rcases calls_replaying documented _ replaying with before | ⟨_, _, armed⟩
    · exact ready (kept.replaying i before)
    · exact replay_published kept.consistent armed

/-- Every run of the handlers from boot, with phones parked at any moment: the
session moves along its state machine and a published cache is never begun
again, and in every state between two handler runs the flag, the state and the
replays agree. -/
theorem readiness_governed (xs : List (Arrival n))
    (runs : (parking n p).Runs (.boot n) xs) :
    (parking n p).Along (Advance p) (.boot n) xs ∧
      ∀ k, Governed ((parking n p).run (.boot n) (xs.take k)) := by
  have preserves : ∀ (w : Proxy n) (x : Arrival n), Kept w → (parking n p).enabled w x →
      Kept ((parking n p).next w x) := kept_step documented
  constructor
  · exact Machine.along_of_invariant preserves (fun w x kept enabled => arrival_progress w x kept enabled)
      xs kept_boot runs
  · intro k
    have early : (parking n p).Runs (.boot n) (xs.take k) := by
      rw [← List.take_append_drop k xs, Machine.runs_append] at runs
      exact runs.1
    exact (Machine.invariant preserves _ kept_boot early).governed

end

/-- A phone is parked and another served live, the node reboots, and the refetch
is closed in turn. -/
def readinessRun : List (Arrival 2) :=
  [.event (.connected 4 false), .event (.sessionStart 5), .park 4 9,
    .event (.fromradio (.of 0x1a [0]) 0), .event (.fromradio (.of 0x38 [5]) 0),
    .event (.connected 6 false), .event (.toradioWrite 6 [0x18, 7] 0),
    .event (.fromradio (.of 0x40 [1]) 8), .event (.fromradio (.of 0x38 [8]) 0)]

theorem readiness_run_governed :
    (parking 2 .wire).Along (Advance .wire) (.boot 2) readinessRun ∧
      (((parking 2 .wire).run (.boot 2) readinessRun).cache.ready = true ∧
        upstreamGetState ((parking 2 .wire).run (.boot 2) readinessRun) = .live ∧
        (((parking 2 .wire).run (.boot 2) readinessRun).gatt.conns 0).state = .replaying) :=
  have held := readiness_governed wire_documented readinessRun (by decide)
  ⟨held.1, by decide⟩

end MeshPbx
