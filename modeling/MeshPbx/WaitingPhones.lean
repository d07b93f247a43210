import MeshPbx.SlotHistory
import MeshPbx.DeliveryOrder
import Mathlib.Data.Fintype.Card

/-! Phones parked until the boot fetch closes. The list of them is keyed by
connection pointers in a module that knows nothing of the slots; on a run that
never leaves a stale pointer in it, it lists exactly the tracked PENDING phones
and closing the fetch serves exactly those. -/
namespace MeshPbx
variable {n : Nat} {p : Platform} {w : Proxy n} {g : Gatt n} {i : Fin n} {conn : BtConn}

/-! The latest request of each phone. -/

/-- The nonce a phone was last parked with, or the id of its last want_config
handled while LIVE, since it connected. -/
def request (p : Platform) (w : Proxy n) (latest : BtConn → Option UInt32) (x : Arrival n) :
    BtConn → Option UInt32 :=
  fun conn => match x with
    | .park target nonce => if target = conn then some nonce else latest conn
    | .event (.connected fresh _) => if fresh = conn then none else latest conn
    | .event (.disconnected left) => if left = conn then none else latest conn
    | .event e => (asked p w conn e).or (latest conn)

/-- The proxy with the latest request of every phone beside it. -/
def waiting (n : Nat) (p : Platform) :
    Machine (Proxy n × (BtConn → Option UInt32)) (Arrival n) where
  enabled s x := x.enabled s.1
  next s x := (x.apply p s.1, request p s.1 s.2 x)

instance (s : Proxy n × (BtConn → Option UInt32)) (x : Arrival n) :
    Decidable ((waiting n p).enabled s x) :=
  inferInstanceAs (Decidable (x.enabled s.1))

/-- From the one table to the other, every slot of a waiting phone is armed once
with the phone's latest request, and no other slot is touched. -/
structure ServedExactly (p : Platform) (latest : BtConn → Option UInt32) (g g' : Gatt n) :
    Prop where
  waiting : ∀ i conn, (g.conns i).conn = some conn → (g.conns i).state = .pending →
    ∃ id ∈ latest conn, g'.conns i = (g.conns i).arm p id
  others : ∀ i, (g.conns i).conn = none ∨ (g.conns i).state ≠ .pending → g'.conns i = g.conns i

/-- Serving the list during the boot fetch serves exactly the waiting phones, a
listed connection has asked since it connected, and so has a replaying one. -/
structure Waiting (p : Platform) (s : Proxy n × (BtConn → Option UInt32)) : Prop where
  served : s.1.session.state = .fetching →
    ServedExactly p s.2 s.1.gatt (servePendingPhones p s.1).gatt
  listed : ∀ conn ∈ s.1.session.pending, s.2 conn ≠ none
  asked : ∀ i conn, (s.1.gatt.conns i).conn = some conn →
    (s.1.gatt.conns i).state = .replaying → s.2 conn ≠ none

/-- The event that closes the boot fetch serves exactly the waiting phones. -/
def Handover (p : Platform) (s : Proxy n × (BtConn → Option UInt32)) : Arrival n → Prop
  | .event e => Closing p s.1 e → ServedExactly p s.2 s.1.gatt (s.1.apply p e).gatt
  | .park _ _ => True

/-- No listed connection is lost, and the session starts with nobody waiting. -/
def Tidy (s : Proxy n × (BtConn → Option UInt32)) : Arrival n → Prop
  | .event (.disconnected left) => left ∉ s.1.session.pending
  | .event (.sessionStart _) => s.1.session.pending = []
  | _ => True

instance (s : Proxy n × (BtConn → Option UInt32)) : (x : Arrival n) → Decidable (Tidy s x)
  | .event (.disconnected _) => inferInstanceAs (Decidable (_ ∉ _))
  | .event (.sessionStart _) => inferInstanceAs (Decidable (_ = _))
  | .event (.fromradio _ _) | .event (.toradioWrite _ _ _) | .event (.fromradioRead _ _ _)
  | .event (.fromnumRead _ _ _) | .event (.nodeRegWrite _ _ _) | .event (.connected _ _)
  | .event .keepalive | .event .fetchRetry | .event (.liveness _) | .event (.teardown _)
  | .event (.txWork _) | .event (.txEnd _) | .park _ _ => isTrue trivial

/-! The list and the callback. -/

@[simp] theorem serveCb_kick (s : Session) : (upstreamLivenessKick s).serveCb = s.serveCb := by
  rw [liveness_kick_eq]

@[simp] theorem serveCb_reschedule (s : Session) :
    (upstreamKeepaliveReschedule s).serveCb = s.serveCb := by
  rw [keepalive_reschedule_eq]

/-- The session's list with the callback it is served through. -/
def Session.roster (s : Session) : List BtConn × Bool := (s.pending, s.serveCb)

theorem RefetchEffect.roster {w' : Proxy n} {nonce : UInt32}
    (effect : RefetchEffect p w nonce w') : w'.session.roster = w.session.roster := by
  cases effect with
  | started => simp [Session.roster]
  | _ => rfl

theorem frame_roster {payload : Bytes} {rand : UInt32} (outside : ¬ Closes p w payload) :
    (onFromradioUart p w payload rand).session.roster = w.session.roster := by
  have effect := frame_effect p w payload rand
  generalize onFromradioUart p w payload rand = after at effect ⊢
  cases effect with
  | fetched info decoded _ _ _ effect =>
    cases effect with
    | stored => rfl
    | discarded => rfl
    | published fetching terminator ours =>
      exact absurd ⟨fetching, info, decoded, terminator, ours⟩ outside
    | resumed => rfl
  | rebooted => exact (refetch_effect p w rand).roster
  | live => simp [broadcast, Session.roster]
  | packet => simp [Session.roster]
  | _ => rfl

/-- Only starting the session and closing its fetch touch the list. -/
theorem event_roster (e : Event n) (begun : ∀ rand, e ≠ .sessionStart rand)
    (outside : ¬ Closing p w e) : (w.apply p e).session.roster = w.session.roster := by
  cases e with
  | sessionStart rand => exact absurd rfl (begun rand)
  | fromradio frame rand => exact frame_roster outside
  | toradioWrite sender buf offset =>
    simp only [Proxy.apply, toradioWrite]
    split_ifs
    · rfl
    · have effect := toradio_effect p w sender buf
      generalize onToradioBle p w sender buf = after at effect ⊢
      cases effect with
      | forwarded s session =>
        rcases session with rfl | rfl
        · rfl
        · simp [Session.roster]
      | _ => rfl
  | keepalive =>
    simp only [Proxy.apply, keepaliveWorkHandler]
    split_ifs <;> rfl
  | fetchRetry =>
    simp only [Proxy.apply, fetchRetryHandler]
    split_ifs <;> rfl
  | liveness rand =>
    simp only [Proxy.apply, livenessHandler]
    split_ifs
    · rfl
    · exact (refetch_effect p { w with session := { w.session with livenessWork := none } } rand).roster
  | _ => rfl

theorem park_roster (conn : BtConn) (nonce : UInt32) :
    (bleGattParkPending p w conn nonce).session.serveCb = w.session.serveCb := by
  rw [(park_upstream p w conn nonce).2.2]

/-! Serving the list. -/

theorem replay_slot (documented : p.Documented) (distinct : g.Distinct) (target : BtConn)
    (i : Fin n) :
    (bleGattReplayCachedBurst p g target 0).conns i =
      if (g.conns i).conn = some target then (g.conns i).arm p (g.conns i).nonce else g.conns i := by
  cases holds : (g.conns i).conn with
  | none =>
    rw [replay_conns documented]
    unfold Gatt.modify
    cases found : findSlot g target with
    | none => rfl
    | some j =>
      have other : i ≠ j := by
        rintro rfl
        rw [find_slot_some found] at holds
        cases holds
      simp only [reduceCtorEq, if_false]
      exact Gatt.conns_setConn_ne _ other
  | some conn =>
    have slot : (bleGattReplayCachedBurst p g target 0).conns i =
        if target = conn then (g.conns i).arm p (if (0 : UInt32) ≠ 0 then 0 else (g.conns i).nonce)
        else g.conns i := call_slot documented distinct holds (.replay target 0)
    rw [slot]
    simp only [ne_eq, not_true_eq_false, if_false, Option.some.injEq, eq_comm]

/-- A list without repetitions arms the slot of each of its connections once. -/
theorem serve_slot (documented : p.Documented) (targets : List BtConn) (nodup : targets.Nodup)
    (distinct : g.Distinct) (i : Fin n) :
    (targets.foldl (fun g conn => bleGattReplayCachedBurst p g conn 0) g).conns i =
      if ∃ conn ∈ targets, (g.conns i).conn = some conn then (g.conns i).arm p (g.conns i).nonce
      else g.conns i := by
  induction targets generalizing g with
  | nil => simp
  | cons target targets ih =>
    obtain ⟨fresh, rest⟩ := List.nodup_cons.mp nodup
    have later : (bleGattReplayCachedBurst p g target 0).Distinct :=
      call_distinct documented distinct (.replay target 0) trivial
    rw [List.foldl_cons, ih rest later, replay_slot documented distinct]
    by_cases mine : (g.conns i).conn = some target
    · have once : ¬ ∃ conn ∈ targets, ((g.conns i).arm p (g.conns i).nonce).conn = some conn := by
        rintro ⟨conn, member, same⟩
        have again : some target = some conn := mine.symm.trans same
        cases again
        exact fresh member
      rw [if_pos mine, if_neg once, if_pos ⟨target, List.mem_cons_self, mine⟩]
    · rw [if_neg mine]
      have same : (∃ conn ∈ target :: targets, (g.conns i).conn = some conn) ↔
          ∃ conn ∈ targets, (g.conns i).conn = some conn := by
        simp [mine]
      simp only [same]

/-! The invariant. -/

/-- The slot of a phone that waits. -/
def Waits (g : Gatt n) (i : Fin n) (conn : BtConn) : Prop :=
  (g.conns i).conn = some conn ∧ (g.conns i).state = .pending

structure Orderly (s : Proxy n × (BtConn → Option UInt32)) : Prop where
  kept : Kept s.1
  registered : s.1.session.serveCb = true
  nodup : s.1.session.pending.Nodup
  waiting : s.1.cache.ready = false →
    ∀ conn, conn ∈ s.1.session.pending ↔ ∃ i, Waits s.1.gatt i conn
  published : s.1.cache.ready = true → s.1.session.pending = []
  latest : ∀ i conn, Waits s.1.gatt i conn → s.2 conn = some (s.1.gatt.conns i).nonce
  asked : ∀ i conn, (s.1.gatt.conns i).conn = some conn →
    (s.1.gatt.conns i).state = .replaying → s.2 conn ≠ none

theorem orderly_boot : Orderly (Proxy.boot n, fun _ => none) := by
  refine ⟨kept_boot, rfl, List.nodup_nil, fun _ conn => ?_, fun _ => rfl, ?_, ?_⟩
  · constructor
    · exact fun member => absurd member List.not_mem_nil
    · rintro ⟨i, holds, _⟩
      cases holds
  · rintro i conn ⟨holds, _⟩
    cases holds
  · intro i conn holds
    cases holds

variable {s : Proxy n × (BtConn → Option UInt32)}

theorem Orderly.fetching (orderly : Orderly s) (fetching : s.1.session.state = .fetching) :
    s.1.cache.ready = false := by
  cases ready : s.1.cache.ready with
  | false => rfl
  | true =>
    have state := orderly.kept.consistent.published.mp ready
    simp [Proxy.phase, fetching] at state

/-- A phone that is not listed leaves room for itself: the listed ones hold other
slots. -/
theorem Orderly.room (orderly : Orderly s) (unready : s.1.cache.ready = false)
    (holds : (s.1.gatt.conns i).conn = some conn) (unlisted : conn ∉ s.1.session.pending) :
    s.1.session.pending.length < n := by
  have slots : ∀ other ∈ s.1.session.pending, ∃ j, (s.1.gatt.conns j).conn = some other :=
    fun other member =>
      (((orderly.waiting unready other).mp member).imp fun j waits => waits.1)
  choose slot holder using slots
  have injective : (i :: s.1.session.pending.attach.map fun other => slot other.1 other.2).Nodup := by
    rw [List.nodup_cons]
    constructor
    · intro member
      obtain ⟨⟨other, listed⟩, _, same⟩ := List.mem_map.mp member
      have taken := holder other listed
      rw [same, holds] at taken
      cases taken
      exact unlisted listed
    · refine List.Nodup.map_on ?_ (List.nodup_attach.mpr orderly.nodup)
      rintro ⟨a, first⟩ _ ⟨b, second⟩ _ same
      have taken := holder a first
      rw [same, holder b second] at taken
      cases taken
      rfl
  have bound := List.Nodup.length_le_card injective
  simp only [List.length_cons, List.length_map, List.length_attach, Fintype.card_fin] at bound
  exact bound

section
variable (documented : p.Documented)
include documented

theorem Orderly.served (orderly : Orderly s) (fetching : s.1.session.state = .fetching) :
    ServedExactly p s.2 s.1.gatt (servePendingPhones p s.1).gatt := by
  have unready := orderly.fetching fetching
  have table : ∀ i, (servePendingPhones p s.1).gatt.conns i =
      if ∃ conn ∈ s.1.session.pending, (s.1.gatt.conns i).conn = some conn then
        (s.1.gatt.conns i).arm p (s.1.gatt.conns i).nonce
      else s.1.gatt.conns i := by
    intro i
    rw [serve_pending_phones]
    simp only [servePendingGatt, orderly.registered, if_true]
    exact serve_slot documented _ orderly.nodup orderly.kept.distinct i
  constructor
  · intro i conn holds pending
    have listed := (orderly.waiting unready conn).mpr ⟨i, holds, pending⟩
    refine ⟨_, orderly.latest i conn ⟨holds, pending⟩, ?_⟩
    rw [table, if_pos ⟨conn, listed, holds⟩]
  · intro i idle
    have unlisted : ¬ ∃ conn ∈ s.1.session.pending, (s.1.gatt.conns i).conn = some conn := by
      rintro ⟨conn, listed, holds⟩
      obtain ⟨j, other, pending⟩ := (orderly.waiting unready conn).mp listed
      have same := orderly.kept.distinct i j conn holds other
      subst same
      rcases idle with vacant | awake
      · rw [holds] at vacant
        cases vacant
      · exact awake pending
    rw [table, if_neg unlisted]

theorem Orderly.good (orderly : Orderly s) : Waiting p s := by
  refine ⟨orderly.served documented, ?_, orderly.asked⟩
  intro conn listed
  cases ready : s.1.cache.ready with
  | true =>
    rw [orderly.published ready] at listed
    exact absurd listed List.not_mem_nil
  | false =>
    obtain ⟨i, waits⟩ := (orderly.waiting ready conn).mp listed
    rw [orderly.latest i conn waits]
    simp

end

/-! One step of the invariant. -/

/-- Publication empties the list, and nothing is listed afterwards. -/
theorem Phase.Step.drained {a b : Phase} (step : Phase.Step a b)
    (before : a.ready = true → a.pending = []) (ready : b.ready = true) : b.pending = [] := by
  cases step with
  | opened => rfl
  | reopened => cases ready
  | published => rfl
  | _ => exact before ready

theorem stage_pending {cache : ConfigCache} {pc : ProxyConn}
    (pending : (stageNext cache pc).state = .pending) : pc.state ≠ .replaying := by
  intro replaying
  cases source : stageSource cache pc with
  | cached k =>
    rw [(stage_cached source).2] at pending
    rw [pending] at replaying
    cases replaying
  | complete =>
    rw [(stage_complete source).2] at pending
    rw [pending] at replaying
    cases replaying
  | queued => exact (stage_queued source).1 replaying
  | nothing =>
    rcases stage_nothing source with ⟨_, _, staged⟩ | ⟨other, _, _⟩
    · rw [staged] at pending
      cases pending
    · exact other replaying

theorem Aside.request {e : Event n} (aside : Aside p w conn e) (latest : BtConn → Option UInt32) :
    request p w latest (.event e) conn = latest conn := by
  cases e with
  | connected fresh err =>
    have other : fresh ≠ conn := by
      rintro rfl
      exact aside.connected err rfl
    exact if_neg other
  | disconnected left =>
    have other : left ≠ conn := by
      rintro rfl
      exact aside.disconnected rfl
    exact if_neg other
  | _ =>
    have none := aside.asked
    simp only [MeshPbx.request, none, Option.none_or]

theorem asked_request {e : Event n} {id : UInt32} (asks : MeshPbx.asked p w conn e = some id)
    (latest : BtConn → Option UInt32) : request p w latest (.event e) conn = some id := by
  cases e with
  | toradioWrite sender buf offset => simp only [request, asks, Option.some_or]
  | _ => cases asks

theorem asked_live {e : Event n} {id : UInt32} (asks : MeshPbx.asked p w conn e = some id) :
    w.session.state = .live := by
  cases e with
  | toradioWrite sender buf offset =>
    simp only [MeshPbx.asked] at asks
    split_ifs at asks with mine
    exact mine.2.2
  | _ => cases asks

section
variable (documented : p.Documented)
include documented

/-- A connection keeps its slot over every event but its own end. -/
theorem held_event {e : Event n} (enabled : w.enabled e) (held : Held w.gatt i conn)
    (lasting : e ≠ .disconnected conn) : Held (w.apply p e).gatt i conn := by
  have spared : ∀ call ∈ calls p w e, call.Spares conn :=
    fun call member => (calls_carried documented w lasting call member).spares
  have run : ∀ (made : List (GattCall n)) (g : Gatt n), Held g i conn →
      (gattSystem n p).Runs g made → (∀ call ∈ made, call.Spares conn) →
      Held ((gattSystem n p).run g made) i conn := by
    intro made
    induction made with
    | nil => exact fun _ held _ _ => held
    | cons call made ih =>
      intro g held runs spared
      exact ih _ (held.call documented call runs.1 (spared call List.mem_cons_self)) runs.2
        (fun later member => spared later (List.mem_cons_of_mem _ member))
  rw [apply_calls]
  exact run _ _ held (calls_run e enabled) spared

theorem Orderly.move {e : Event n} (orderly : Orderly s) (enabled : s.1.enabled e)
    (outside : ¬ Closing p s.1 e)
    (holds : ((s.1.apply p e).gatt.conns i).conn = some conn) :
    SlotMove p s.1 conn i e ((s.1.apply p e).gatt.conns i) :=
  slot_move documented orderly.kept.distinct enabled orderly.kept.consistent.passing
    (.inr outside) holds

/-- A phone that waits after an event that closes nothing waited before it, for
the same. -/
theorem waits_back {e : Event n} (orderly : Orderly s) (enabled : s.1.enabled e)
    (outside : ¬ Closing p s.1 e) (waits : Waits (s.1.apply p e).gatt i conn) :
    Waits s.1.gatt i conn ∧ ((s.1.apply p e).gatt.conns i).nonce = (s.1.gatt.conns i).nonce ∧
      request p s.1 s.2 (.event e) conn = s.2 conn := by
  obtain ⟨holds, state⟩ := waits
  have step := orderly.move documented enabled outside holds
  generalize (s.1.apply p e).gatt.conns i = pc at step state ⊢
  cases step with
  | asked => cases state
  | read len held =>
    obtain ⟨same, nonce⟩ := stage_idle s.1.cache (stage_pending state)
    exact ⟨⟨held.holds, same.symm.trans state⟩, nonce, rfl⟩
  | fresh => cases state
  | aside _ _ aside held position =>
    have before := (congrArg ReplayPosition.state position).symm.trans state
    exact ⟨⟨held.holds, before⟩, congrArg ReplayPosition.nonce position, aside.request s.2⟩

/-- A phone that waits goes on waiting until the cache is published or it leaves. -/
theorem waits_kept {e : Event n} (orderly : Orderly s) (enabled : s.1.enabled e)
    (outside : ¬ Closing p s.1 e) (unready : s.1.cache.ready = false)
    (waits : Waits s.1.gatt i conn) (lasting : e ≠ .disconnected conn) :
    Waits (s.1.apply p e).gatt i conn := by
  obtain ⟨holds, state⟩ := waits
  have held := held_event documented enabled ⟨orderly.kept.distinct, holds⟩ lasting
  have step := orderly.move documented enabled outside held.holds
  suffices still : ((s.1.apply p e).gatt.conns i).state = .pending from ⟨held.holds, still⟩
  generalize (s.1.apply p e).gatt.conns i = pc at step ⊢
  cases step with
  | asked _ _ asks =>
    have live : s.1.cache.ready = true :=
      orderly.kept.consistent.published.mpr (.inl (asked_live asks))
    rw [unready] at live
    cases live
  | read len _ =>
    have idle : (s.1.gatt.conns i).state ≠ .replaying := by simp [state]
    exact (stage_idle _ idle).1.trans state
  | fresh =>
    have untracked : findSlot s.1.gatt conn = none := enabled
    exact absurd ⟨i, holds⟩ (find_slot_none.mp untracked)
  | aside _ _ _ _ position => exact (congrArg ReplayPosition.state position).trans state

/-- An event outside the two that touch the list. -/
theorem orderly_event {e : Event n} (orderly : Orderly s) (enabled : s.1.enabled e)
    (begun : ∀ rand, e ≠ .sessionStart rand) (outside : ¬ Closing p s.1 e)
    (tidy : Tidy s (.event e)) : Orderly ((waiting n p).next s (.event e)) := by
  have roster := event_roster (p := p) e begun outside
  have pending : (s.1.apply p e).session.pending = s.1.session.pending := congrArg Prod.fst roster
  have keeps := (arrival_phase (p := p) s.1 (.event e) enabled orderly.kept.consistent).2.2
  refine ⟨kept_step documented s.1 (.event e) orderly.kept enabled,
    (congrArg Prod.snd roster).trans orderly.registered, ?_, ?_, ?_, ?_, ?_⟩
  · have nodup := orderly.nodup
    rw [← pending] at nodup
    exact nodup
  · intro (unready : (s.1.apply p e).cache.ready = false) conn
    have before : s.1.cache.ready = false := by
      rw [← Bool.not_eq_true] at unready ⊢
      exact fun ready => unready (keeps ready)
    have list : conn ∈ ((waiting n p).next s (.event e)).1.session.pending ↔
        conn ∈ s.1.session.pending := by
      rw [← pending]
      rfl
    rw [list, orderly.waiting before]
    constructor
    · rintro ⟨i, waits⟩
      have listed := (orderly.waiting before conn).mpr ⟨i, waits⟩
      have lasting : e ≠ .disconnected conn := by
        rintro rfl
        exact tidy listed
      exact ⟨i, waits_kept documented orderly enabled outside before waits lasting⟩
    · rintro ⟨i, waits⟩
      exact ⟨i, (waits_back documented orderly enabled outside waits).1⟩
  · exact (phase_step (p := p) s.1 e enabled).drained orderly.published
  · intro i conn waits
    obtain ⟨earlier, nonce, same⟩ := waits_back documented orderly enabled outside waits
    have known := orderly.latest i conn earlier
    rw [← nonce] at known
    exact same.trans known
  · intro i conn holds (replaying : ((s.1.apply p e).gatt.conns i).state = .replaying)
    have step := orderly.move documented enabled outside holds
    suffices known : request p s.1 s.2 (.event e) conn ≠ none from known
    generalize (s.1.apply p e).gatt.conns i = pc at step replaying
    cases step with
    | asked _ id asks =>
      rw [asked_request asks]
      simp
    | read len held => exact orderly.asked i conn held.holds (stage_replaying_from replaying)
    | fresh => cases replaying
    | aside _ _ aside held position =>
      have before := (congrArg ReplayPosition.state position).symm.trans replaying
      rw [aside.request]
      exact orderly.asked i conn held.holds before

/-- Starting the session with nobody waiting. -/
theorem orderly_start {rand : UInt32} (orderly : Orderly s)
    (enabled : s.1.enabled (.sessionStart rand)) (tidy : s.1.session.pending = []) :
    Orderly ((waiting n p).next s (.event (.sessionStart rand))) := by
  have step := phase_step (p := p) s.1 (.sessionStart rand) enabled
  have table : (s.1.apply p (.sessionStart rand)).gatt = s.1.gatt :=
    apply_calls p s.1 (.sessionStart rand)
  have listed : (s.1.apply p (.sessionStart rand)).session.pending = [] :=
    step.parked.elim (fun same => same.trans tidy) id
  have unready : s.1.cache.ready = false := by
    have boot := orderly.kept.consistent.unarmed enabled
    cases ready : s.1.cache.ready with
    | false => rfl
    | true =>
      have state := orderly.kept.consistent.published.mp ready
      rw [boot] at state
      simp at state
  refine ⟨kept_step documented s.1 (.event (.sessionStart rand)) orderly.kept enabled, ?_, ?_, ?_,
    fun _ => listed, ?_, ?_⟩
  · have same : (upstreamSessionStart p s.1 rand).session.serveCb = s.1.session.serveCb := by
      simp only [upstreamSessionStart]
      split <;> rfl
    exact same.trans orderly.registered
  · have nodup : (s.1.apply p (.sessionStart rand)).session.pending.Nodup := by
      rw [listed]
      exact List.nodup_nil
    exact nodup
  · intro _ conn
    have before := orderly.waiting unready conn
    rw [tidy, ← listed, ← table] at before
    exact before
  · intro i conn waits
    have earlier : Waits (s.1.apply p (.sessionStart rand)).gatt i conn := waits
    rw [table] at earlier
    have known := orderly.latest i conn earlier
    rw [← table] at known
    exact known
  · intro i conn (holds : ((s.1.apply p (.sessionStart rand)).gatt.conns i).conn = some conn)
      (replaying : ((s.1.apply p (.sessionStart rand)).gatt.conns i).state = .replaying)
    rw [table] at holds replaying
    exact orderly.asked i conn holds replaying

/-- Closing the boot fetch serves the phones that wait. -/
theorem orderly_closing {frame : Frame} {rand : UInt32} (orderly : Orderly s)
    (closes : Closes p s.1 frame.bytes) :
    ServedExactly p s.2 s.1.gatt (s.1.apply p (.fromradio frame rand)).gatt ∧
      Orderly ((waiting n p).next s (.event (.fromradio frame rand))) := by
  have closed : s.1.apply p (.fromradio frame rand) = _ := closes_frame closes rand
  have served := orderly.served documented closes.1
  rw [serve_pending_phones] at served
  have slot : ∀ i conn, ((servePendingGatt p s.1.session s.1.gatt).conns i).conn = some conn →
      ((s.1.gatt.conns i).conn = some conn ∧ ∃ id ∈ s.2 conn,
          (servePendingGatt p s.1.session s.1.gatt).conns i = (s.1.gatt.conns i).arm p id) ∨
        (servePendingGatt p s.1.session s.1.gatt).conns i = s.1.gatt.conns i := by
    intro i conn holds
    by_cases idle : (s.1.gatt.conns i).conn = none ∨ (s.1.gatt.conns i).state ≠ .pending
    · exact .inr (served.others i idle)
    · obtain ⟨tracked, state⟩ := not_or.mp idle
      obtain ⟨other, held⟩ := Option.ne_none_iff_exists'.mp tracked
      obtain ⟨id, latest, armed⟩ := served.waiting i other held (not_not.mp state)
      have same : some other = some conn := by
        have kept : ((servePendingGatt p s.1.session s.1.gatt).conns i).conn =
            (s.1.gatt.conns i).conn := by rw [armed]; rfl
        rw [← held, ← kept, holds]
      cases same
      exact .inl ⟨held, id, latest, armed⟩
  have kept := kept_step documented s.1 (.event (.fromradio frame rand)) orderly.kept trivial
  simp only [waiting, Arrival.apply, closed] at kept ⊢
  refine ⟨served, kept, orderly.registered, List.nodup_nil, fun unready => ?_, fun _ => rfl, ?_, ?_⟩
  · cases unready
  · rintro i conn ⟨holds, pending⟩
    rcases slot i conn holds with ⟨_, id, _, armed⟩ | same
    · simp only [armed, ProxyConn.arm, reduceCtorEq] at pending
    · simp only [same] at holds pending ⊢
      exact orderly.latest i conn ⟨holds, pending⟩
  · intro i conn holds replaying
    rcases slot i conn holds with ⟨_, id, latest, _⟩ | same
    · have known : s.2 conn = some id := latest
      simp [request, asked, known]
    · simp only [same] at holds replaying
      exact orderly.asked i conn holds replaying

theorem park_slot (distinct : w.gatt.Distinct) (conn : BtConn) (nonce : UInt32) {other : BtConn}
    (holds : (w.gatt.conns i).conn = some other) :
    (bleGattParkPending p w conn nonce).gatt.conns i =
      if conn = other then
        let parked := { w.gatt.conns i with state := .pending, nonce := nonce }
        if cacheIsReady w.cache = true ∧ w.session.serveCb = true then parked.arm p nonce else parked
      else w.gatt.conns i := by
  have first := call_slot documented distinct holds (.park conn nonce)
  have later := call_distinct documented distinct (.park conn nonce) trivial
  have still := (call_holder documented (.park conn nonce) trivial i).trans holds
  rw [park_gatt, Arrival.calls, Machine.run_cons]
  split_ifs with ready mine mine
  · have second := call_slot documented later still (.replay conn 0)
    rw [Machine.run_cons, Machine.run_nil]
    refine second.trans ?_
    rw [first]
    simp only [ProxyConn.after, if_pos mine, ne_eq, not_true_eq_false, if_false]
  · have second := call_slot documented later still (.replay conn 0)
    rw [Machine.run_cons, Machine.run_nil]
    refine second.trans ?_
    rw [first]
    simp only [ProxyConn.after, if_neg mine]
  · rw [Machine.run_nil]
    refine first.trans ?_
    simp only [ProxyConn.after, if_pos mine]
  · rw [Machine.run_nil]
    refine first.trans ?_
    simp only [ProxyConn.after, if_neg mine]

theorem park_holder (conn : BtConn) (nonce : UInt32) (i : Fin n) :
    ((bleGattParkPending p w conn nonce).gatt.conns i).conn = (w.gatt.conns i).conn := by
  rw [park_gatt, Arrival.calls, Machine.run_cons]
  split_ifs
  · rw [Machine.run_cons, Machine.run_nil]
    exact (call_holder documented (.replay conn 0) trivial i).trans
      (call_holder documented (.park conn nonce) trivial i)
  · rw [Machine.run_nil]
    exact call_holder documented (.park conn nonce) trivial i

/-- A phone parked before publication waits, and so does who waited before. -/
theorem park_waits (distinct : w.gatt.Distinct) (conn : BtConn) (nonce : UInt32)
    (unready : w.cache.ready = false) (i : Fin n) (other : BtConn) :
    Waits (bleGattParkPending p w conn nonce).gatt i other ↔
      Waits w.gatt i other ∨ (conn = other ∧ (w.gatt.conns i).conn = some conn) := by
  have idle : ¬ (cacheIsReady w.cache = true ∧ w.session.serveCb = true) := by
    simp [cacheIsReady, unready]
  have holder := park_holder documented (w := w) conn nonce i
  constructor
  · rintro ⟨holds, state⟩
    rw [holder] at holds
    rw [park_slot documented distinct conn nonce holds] at state
    by_cases mine : conn = other
    · exact .inr ⟨mine, mine ▸ holds⟩
    · rw [if_neg mine] at state
      exact .inl ⟨holds, state⟩
  · rintro (⟨holds, state⟩ | ⟨rfl, holds⟩)
    · refine ⟨holder.trans holds, ?_⟩
      rw [park_slot documented distinct conn nonce holds]
      by_cases mine : conn = other
      · simp only [if_pos mine, if_neg idle]
      · rw [if_neg mine]
        exact state
    · refine ⟨holder.trans holds, ?_⟩
      rw [park_slot documented distinct conn nonce holds]
      simp only [if_true, if_neg idle]

omit documented in
/-- Parking before publication lists a connection that has a slot. -/
theorem park_listed (orderly : Orderly s) (conn : BtConn) (nonce : UInt32)
    (unready : s.1.cache.ready = false) (other : BtConn) :
    other ∈ (bleGattParkPending p s.1 conn nonce).session.pending ↔
      other ∈ s.1.session.pending ∨ (conn = other ∧ ∃ j, (s.1.gatt.conns j).conn = some conn) := by
  rw [congrArg Session.pending (park_upstream p s.1 conn nonce).2.2]
  cases found : findSlot s.1.gatt conn with
  | none =>
    have untracked := find_slot_none.mp found
    simp only [true_or, if_true]
    exact ⟨.inl, fun either => either.resolve_right fun mine => untracked mine.2⟩
  | some i =>
    have holds := find_slot_some found
    have ready : ¬ cacheIsReady s.1.cache = true := by simp [cacheIsReady, unready]
    by_cases listed : conn ∈ s.1.session.pending
    · simp only [reduceCtorEq, listed, true_or, or_true, if_true]
      exact ⟨.inl, fun either => either.elim id fun mine => mine.1 ▸ listed⟩
    · have room : ¬ s.1.session.pending.length ≥ n :=
        Nat.not_le_of_lt (orderly.room unready holds listed)
      simp only [reduceCtorEq, ready, listed, room, or_self, if_false, List.mem_append,
        List.mem_singleton]
      exact or_congr_right ⟨fun same => ⟨same.symm, i, holds⟩, fun mine => mine.1.symm⟩

theorem orderly_park (orderly : Orderly s) (nonce : UInt32) :
    Orderly ((waiting n p).next s (.park conn nonce)) := by
  obtain ⟨cache, _, session⟩ := park_upstream p s.1 conn nonce
  have pending := congrArg Session.pending session
  have holder := park_holder documented (w := s.1) conn nonce
  have slot (i : Fin n) (other : BtConn) (holds : (s.1.gatt.conns i).conn = some other) :=
    park_slot documented orderly.kept.distinct conn nonce holds
  have kept := kept_step documented s.1 (.park conn nonce) orderly.kept trivial
  simp only [waiting, Arrival.apply] at kept ⊢
  refine ⟨kept, ?_, ?_, ?_, ?_, ?_, ?_⟩
  · rw [park_roster]
    exact orderly.registered
  · rw [pending]
    split_ifs with listed
    · exact orderly.nodup
    · have fresh : conn ∉ s.1.session.pending := fun member => listed (.inr (.inr (.inl member)))
      simpa using List.Nodup.concat fresh orderly.nodup
  · intro unready other
    rw [cache] at unready
    rw [park_listed orderly conn nonce unready, orderly.waiting unready]
    simp only [park_waits documented orderly.kept.distinct conn nonce unready, exists_or,
      exists_and_left]
  · intro ready
    rw [cache] at ready
    rw [pending, if_pos (.inr (.inl ready))]
    exact orderly.published ready
  · rintro i other ⟨holds, state⟩
    rw [holder] at holds
    rw [slot i other holds] at state ⊢
    by_cases mine : conn = other
    · rw [if_pos mine] at state ⊢
      split_ifs at state ⊢
      · cases state
      · simp only [request, if_pos mine]
    · rw [if_neg mine] at state ⊢
      simp only [request, if_neg mine]
      exact orderly.latest i other ⟨holds, state⟩
  · intro i other holds replaying
    rw [holder] at holds
    rw [slot i other holds] at replaying
    by_cases mine : conn = other
    · simp [request, mine]
    · rw [if_neg mine] at replaying
      simp only [request, if_neg mine]
      exact orderly.asked i other holds replaying

theorem orderly_step (s : Proxy n × (BtConn → Option UInt32)) (x : Arrival n) (orderly : Orderly s)
    (enabled : (waiting n p).enabled s x) (tidy : Tidy s x) : Orderly ((waiting n p).next s x) := by
  cases x with
  | park conn nonce => exact orderly_park documented orderly nonce
  | event e =>
    by_cases closing : Closing p s.1 e
    · cases e with
      | fromradio frame rand => exact (orderly_closing documented orderly closing).2
      | _ => exact closing.elim
    · by_cases begun : ∃ rand, e = .sessionStart rand
      · obtain ⟨rand, rfl⟩ := begun
        exact orderly_start documented orderly enabled tidy
      · exact orderly_event documented orderly enabled (fun rand same => begun ⟨rand, same⟩) closing
          tidy

theorem handover_step (s : Proxy n × (BtConn → Option UInt32)) (x : Arrival n)
    (orderly : Orderly s) : Handover p s x := by
  cases x with
  | park conn nonce => trivial
  | event e =>
    intro closing
    cases e with
    | fromradio frame rand => exact (orderly_closing documented orderly closing).1
    | _ => exact closing.elim

/-- A stale pointer in the list, or a phone that the start of the session
forgets, shows at once. -/
theorem untidy_breaks (s : Proxy n × (BtConn → Option UInt32)) (x : Arrival n)
    (orderly : Orderly s) (enabled : (waiting n p).enabled s x)
    (good : Waiting p ((waiting n p).next s x)) : Tidy s x := by
  cases x with
  | park conn nonce => trivial
  | event e =>
    cases e with
    | disconnected left =>
      intro listed
      refine good.listed left listed ?_
      simp [waiting, request]
    | sessionStart rand =>
      by_contra listed
      obtain ⟨conn, member⟩ := List.exists_mem_of_ne_nil _ listed
      have unready : s.1.cache.ready = false := by
        cases ready : s.1.cache.ready with
        | false => rfl
        | true => exact absurd (orderly.published ready) listed
      obtain ⟨i, holds, state⟩ := (orderly.waiting unready conn).mp member
      have begun : s.1.apply p (.sessionStart rand) = upstreamSessionStart p s.1 rand := rfl
      simp only [upstreamSessionStart, want_config_encodes documented] at begun
      have served := good.served
      simp only [waiting, Arrival.apply, begun, serve_pending_phones, servePendingGatt,
        List.foldl_nil] at served
      obtain ⟨id, _, armed⟩ := (served trivial).waiting i conn holds state
      have replaying := congrArg ProxyConn.state armed
      rw [state] at replaying
      cases replaying
    | _ => trivial

/-- Every run of the handlers from boot, with phones parked at any moment: the
waiting phones, and only those, are there to be served in every state of the
run exactly when no listed connection ends and the session starts with nobody
waiting; and then the close of the fetch serves exactly those. -/
theorem waiting_served_iff (xs : List (Arrival n))
    (runs : (waiting n p).Runs (.boot n, fun _ => none) xs) :
    ((∀ k, Waiting p ((waiting n p).run (.boot n, fun _ => none) (xs.take k))) ↔
      (waiting n p).Along Tidy (.boot n, fun _ => none) xs) ∧
    ((waiting n p).Along Tidy (.boot n, fun _ => none) xs →
      (waiting n p).Along (Handover p) (.boot n, fun _ => none) xs) := by
  constructor
  · exact Machine.prefixes_iff (Waiting p) (fun s orderly => orderly.good documented)
      (orderly_step documented) (untidy_breaks documented) xs orderly_boot runs
  · exact Machine.along_of_invariant_along (orderly_step documented)
      (fun s x orderly _ _ => handover_step documented s x orderly) xs orderly_boot runs

end

/-- Phones 4 and 6 are parked, 4 for a second time with another nonce, phone 8
comes and goes, and the fetch closes. -/
def parkedRun : List (Arrival 3) :=
  [.event (.sessionStart 5), .event (.connected 4 false), .park 4 9, .event (.connected 6 false),
    .event (.connected 8 false), .park 6 69421, .park 4 10, .event (.disconnected 8),
    .event (.fromradio (.of 0x38 [5]) 0)]

theorem parked_phones_served :
    (∀ k, Waiting .wire ((waiting 3 .wire).run (.boot 3, fun _ => none) (parkedRun.take k))) ∧
      ((waiting 3 .wire).run (.boot 3, fun _ => none) parkedRun).2 4 = some 10 :=
  ⟨(waiting_served_iff wire_documented parkedRun (by decide)).1.mpr (by decide), by decide⟩

/-- Phone 4 is parked and leaves, and its pointer comes back as another phone
before the fetch closes. -/
def recycledPointer : List (Arrival 1) :=
  [.event (.sessionStart 5), .event (.connected 4 false), .park 4 9, .event (.disconnected 4),
    .event (.connected 4 false), .event (.fromradio (.of 0x38 [5]) 0)]

theorem recycled_pointer_served :
    ∃ xs : List (Arrival 1), (waiting 1 .wire).Runs (.boot 1, fun _ => none) xs ∧
      ¬ ∀ k, Waiting .wire ((waiting 1 .wire).run (.boot 1, fun _ => none) (xs.take k)) := by
  refine ⟨recycledPointer, by decide, fun always => ?_⟩
  exact (always 6).asked 0 4 (by decide) (by decide) (by decide)

end MeshPbx
