import MeshPbx.SessionInvariant

/-! What the packet queues and the cache hold over a run. A property of byte
strings that every frame meets when it is relayed to the phones or stored for
replay is met by everything a FROMRADIO read serves, the synthesized
config_complete apart. -/
namespace MeshPbx
variable {n : Nat} {p : Platform} {w w' : Proxy n} {g g' : Gatt n} {c : ConfigCache}
variable {Q : Bytes → Prop} {Offered : Bytes → Prop}

namespace Session

/-- Whether a frame from the node is relayed to the phones. -/
def Relays (p : Platform) (s : Session) (payload : Bytes) : Prop :=
  ∀ info, protoDecodeFromradio p payload = some info →
    info.whichVariant = .packet ∨ (¬ s.Window ∧ info.whichVariant ≠ .rebooted ∧
      (info.whichVariant = .queueStatus → s.keepalivePending = false))

end Session

/-- The packets one handler run may queue. -/
def Offers (p : Platform) (w : Proxy n) (e : Event n) (data : Bytes) : Prop :=
  match e with
  | .fromradio frame _ =>
    data = frame.bytes ∧ w.session.Relays p frame.bytes ∧ ∃ i, (w.gatt.conns i).Open
  | .toradioWrite _ _ _ => data = p.fromRadioBytes .syntheticQueueStatus
  | _ => False

theorem dispatch_packet_effects {raw : Bytes} {info : FromradioInfo}
    (offered : (∃ i, (w.gatt.conns i).Open) → Offered raw) :
    Effects p c Offered w.gatt (dispatchPacket w raw info).gatt := by
  unfold dispatchPacket
  split_ifs
  · exact broadcast_effects offered
  · split
    · exact broadcast_effects offered
    · split
      · exact enqueue_effects offered _
      · exact broadcast_effects offered
  · exact broadcast_effects offered

theorem serve_pending_effects (documented : p.Documented) (s : Session) (g : Gatt n) :
    Effects p c Offered g (servePendingGatt p s g) := by
  have fold : ∀ (conns : List BtConn) (g : Gatt n), Effects p c Offered g (conns.foldl (fun g conn =>
      if s.serveCb then bleGattReplayCachedBurst p g conn 0 else g) g) := by
    intro conns
    induction conns with
    | nil => exact fun g => .refl
    | cons conn conns ih =>
      intro g
      rw [List.foldl_cons]
      refine Relation.ReflTransGen.trans ?_ (ih _)
      split_ifs
      · exact replay_effects documented g conn 0
      · exact .refl
  exact fold s.pending g

/-- Refetches only touch the session and the UART. -/
theorem RefetchEffect.frame {nonce : UInt32} (effect : RefetchEffect p w nonce w') :
    w'.gatt = w.gatt ∧ w'.cache = w.cache := by
  cases effect <;> exact ⟨rfl, rfl⟩

theorem FetchEffect.gatt (documented : p.Documented) {payload : Bytes} {info : FromradioInfo}
    (effect : FetchEffect p w payload info w') : Effects p c Offered w.gatt w'.gatt := by
  cases effect with
  | stored => exact .refl
  | discarded => exact .refl
  | published => exact serve_pending_effects documented _ w.gatt
  | resumed => exact .refl

theorem FrameEffect.gatt (documented : p.Documented) {frame : Frame} {rand : UInt32}
    (effect : FrameEffect p w frame.bytes rand w') :
    Effects p c (Offers p w (.fromradio frame rand)) w.gatt w'.gatt := by
  cases effect with
  | undecoded decoded =>
    exact broadcast_effects (fun ready => ⟨rfl, fun info found => by simp [decoded] at found, ready⟩)
  | fetched _ _ _ _ _ effect => exact effect.gatt documented
  | rebooted =>
    rw [(refetch_effect p w rand).frame.1]
    exact .refl
  | swallowed => exact .refl
  | live info decoded outside plain noReboot genuine =>
    have relays : w.session.Relays p frame.bytes := by
      intro other found
      rw [decoded] at found
      cases found
      exact .inr ⟨outside, noReboot, genuine⟩
    exact broadcast_effects (fun ready => ⟨rfl, relays, ready⟩)
  | packet info decoded packet =>
    have relays : w.session.Relays p frame.bytes := by
      intro other found
      rw [decoded] at found
      cases found
      exact .inl packet
    exact dispatch_packet_effects (w := { w with session := upstreamLivenessKick w.session })
      (fun ready => ⟨rfl, relays, ready⟩)

theorem ToradioEffect.gatt (documented : p.Documented) {conn : BtConn} {data : Bytes}
    {offset : Nat} (effect : ToradioEffect p w conn data w')
    (kept : w.gatt.queueStatusReply = [] ∨
      w.gatt.queueStatusReply = p.fromRadioBytes .syntheticQueueStatus) :
    Effects p c (Offers p w (.toradioWrite conn data offset)) w.gatt w'.gatt := by
  cases effect with
  | forwarded => exact .refl
  | refused => exact .refl
  | armed => exact replay_effects documented _ _ _
  | heartbeat => exact reply_queuestatus_effects documented _ _ kept rfl
  | disconnect => exact request_teardown_effects _ _

theorem keepalive_frame (p : Platform) (w : Proxy n) :
    (keepaliveWorkHandler p w).gatt = w.gatt ∧ (keepaliveWorkHandler p w).cache = w.cache := by
  simp only [keepaliveWorkHandler]
  split_ifs <;> exact ⟨rfl, rfl⟩

theorem apply_effects (documented : p.Documented) (e : Event n) (enabled : w.enabled e)
    (kept : w.gatt.queueStatusReply = [] ∨
      w.gatt.queueStatusReply = p.fromRadioBytes .syntheticQueueStatus) :
    Effects p w.cache (Offers p w e) w.gatt (w.apply p e).gatt := by
  cases e with
  | sessionStart rand =>
    simp only [Proxy.apply, upstreamSessionStart]
    split <;> exact .refl
  | fromradio frame rand => exact (frame_effect p w frame.bytes rand).gatt documented
  | toradioWrite conn buf offset =>
    simp only [Proxy.apply, toradioWrite]
    split_ifs
    · exact .refl
    · exact (toradio_effect p w conn buf).gatt documented kept
  | fromradioRead conn len offset => exact read_effects _ _ _ _
  | fromnumRead => exact .refl
  | nodeRegWrite conn buf offset => exact node_reg_effects _ _ _ _
  | connected conn err => exact connected_effects enabled err
  | disconnected conn => exact disconnected_effects _ _
  | keepalive =>
    rw [Proxy.apply, (keepalive_frame p _).1]
    exact .refl
  | fetchRetry =>
    simp only [Proxy.apply, fetchRetryHandler]
    split_ifs <;> exact .refl
  | liveness rand =>
    simp only [Proxy.apply, livenessHandler]
    split_ifs
    · exact .refl
    · rw [(refetch_effect p _ rand).frame.1]
      exact .refl
  | teardown slot =>
    have expired : Effects p w.cache (Offers p w (.teardown slot)) w.gatt
        (w.gatt.setConn slot { w.gatt.conns slot with teardownWork := none }) :=
      .single (.slot _ _ _ (.expire _))
    exact expired.trans (teardown_effects _ _)
  | txWork => exact .refl
  | txEnd => exact .refl

/-- The steps that may change the cache: opening or reopening the boot fetch,
storing a frame of a fetch, and publishing. -/
inductive CacheStep (p : Platform) (w : Proxy n) : Event n → ConfigCache → Prop
  | same (e : Event n) : CacheStep p w e w.cache
  | opened (rand : UInt32) (unarmed : w.session.keepaliveArmed = false) :
      CacheStep p w (.sessionStart rand) (cacheBegin w.cache)
  | reopened (fetching : w.session.state = .fetching) :
      CacheStep p w .fetchRetry (cacheBegin w.cache)
  | stored (frame : Frame) (rand : UInt32) (info : FromradioInfo)
      (decoded : protoDecodeFromradio p frame.bytes = some info) (window : w.session.Window)
      (plain : info.whichVariant ≠ .packet) (keeps : w.session.Keeps p frame.bytes info) :
      CacheStep p w (.fromradio frame rand) (cacheAddFrame w.cache frame.bytes info.whichVariant).1
  | published (frame : Frame) (rand : UInt32) (fetching : w.session.state = .fetching) :
      CacheStep p w (.fromradio frame rand) (cacheMarkReady w.cache)

theorem FrameEffect.cache {frame : Frame} {rand : UInt32}
    (effect : FrameEffect p w frame.bytes rand w') :
    CacheStep p w (.fromradio frame rand) w'.cache := by
  cases effect with
  | undecoded => exact .same _
  | fetched info decoded window plain _ effect =>
    cases effect with
    | stored keeps => exact .stored frame rand info decoded window plain keeps
    | discarded => exact .same _
    | published fetching => exact .published frame rand fetching
    | resumed => exact .same _
  | rebooted =>
    rw [(refetch_effect p w rand).frame.2]
    exact .same _
  | swallowed => exact .same _
  | live => exact .same _
  | packet =>
    rw [cache_dispatchPacket]
    exact .same _

theorem cache_step (p : Platform) (e : Event n) (enabled : w.enabled e) :
    CacheStep p w e (w.apply p e).cache := by
  cases e with
  | sessionStart rand =>
    simp only [Proxy.apply, upstreamSessionStart]
    split
    · exact .same _
    · exact .opened rand enabled
  | fromradio frame rand => exact (frame_effect p w frame.bytes rand).cache
  | toradioWrite conn buf offset =>
    simp only [Proxy.apply, toradioWrite]
    split_ifs
    · exact .same _
    · have effect := toradio_effect p w conn buf
      generalize onToradioBle p w conn buf = after at effect
      cases effect <;> exact .same _
  | keepalive =>
    rw [Proxy.apply, (keepalive_frame p _).2]
    exact .same _
  | fetchRetry =>
    simp only [Proxy.apply, fetchRetryHandler]
    split_ifs with other fetching
    · exact .same _
    · exact .reopened fetching
    · exact .same _
  | liveness rand =>
    simp only [Proxy.apply, livenessHandler]
    split_ifs
    · exact .same _
    · rw [(refetch_effect p _ rand).frame.2]
      exact .same _
  | _ => exact .same _

/-! The contents of one slot. -/

structure SlotCarries (p : Platform) (Q : Bytes → Prop) (pc : ProxyConn) : Prop where
  queued : ∀ data ∈ pc.queued, Q data
  armed : pc.state = .replaying → pc.ccBytes = p.fromRadioBytes (.configComplete pc.nonce)

theorem slot_carries_reset (pc : ProxyConn) (conn : Option BtConn) :
    SlotCarries p Q (pc.reset conn) := by
  refine ⟨fun data member => ?_, fun replaying => ?_⟩
  · rw [ProxyConn.queued_reset] at member
    exact absurd member (by simp)
  · cases replaying

theorem SlotCarries.stage {pc : ProxyConn} (carries : SlotCarries p Q pc) (c : ConfigCache) :
    SlotCarries p Q (stageNext c pc) := by
  cases source : stageSource c pc with
  | cached i =>
    rw [(stage_cached source).2]
    exact ⟨carries.queued, carries.armed⟩
  | complete =>
    rw [(stage_complete source).2]
    exact ⟨carries.queued, carries.armed⟩
  | queued =>
    obtain ⟨_, filled, staged⟩ := stage_queued source
    rw [staged]
    refine ⟨fun data member => carries.queued data ?_, carries.armed⟩
    have contents := RingQueue.contents_pop pc.queue filled
    simp only [ProxyConn.queued, contents, List.map_cons]
    exact List.mem_cons_of_mem _ member
  | nothing =>
    rcases stage_nothing source with ⟨_, _, staged⟩ | ⟨_, _, staged⟩
    · rw [staged]
      exact ⟨carries.queued, fun replaying => by simp at replaying⟩
    · rw [staged]
      exact ⟨carries.queued, carries.armed⟩

theorem SlotStep.carries {pc pc' : ProxyConn} (step : SlotStep p c Offered pc pc')
    (admitted : ∀ data, Offered data → Q data) (carries : SlotCarries p Q pc) :
    SlotCarries p Q pc' := by
  cases step with
  | append data ready offered =>
    refine ⟨fun other member => ?_, carries.armed⟩
    rw [ProxyConn.queued_append, List.mem_append, List.mem_singleton] at member
    rcases member with older | rfl
    · exact carries.queued other older
    · exact admitted other offered
  | arm nonce => exact ⟨carries.queued, fun _ => ProxyConn.ccBytes_arm p pc nonce⟩
  | stage => exact carries.stage c
  | free => exact slot_carries_reset _ none
  | register => exact ⟨carries.queued, carries.armed⟩
  | leave => exact ⟨carries.queued, carries.armed⟩
  | expire => exact ⟨carries.queued, carries.armed⟩

structure GattCarries (p : Platform) (Q : Bytes → Prop) (g : Gatt n) : Prop where
  slots : ∀ i, SlotCarries p Q (g.conns i)
  distinct : g.Distinct
  reply : g.queueStatusReply = [] ∨ g.queueStatusReply = p.fromRadioBytes .syntheticQueueStatus

theorem GattStep.carries (step : GattStep p c Offered g g')
    (admitted : ∀ data, Offered data → Q data) (carries : GattCarries p Q g) :
    GattCarries p Q g' := by
  refine ⟨fun j => ?_, step.distinct carries.distinct, ?_⟩
  · cases step with
    | slot i pc step =>
      by_cases same : j = i
      · subst same
        rw [Gatt.conns_setConn_same]
        exact step.carries admitted (carries.slots j)
      · rw [Gatt.conns_setConn_ne pc same]
        exact carries.slots j
    | connect i conn =>
      by_cases same : j = i
      · subst same
        rw [Gatt.conns_setConn_same]
        exact slot_carries_reset _ _
      · rw [Gatt.conns_setConn_ne _ same]
        exact carries.slots j
    | _ => exact carries.slots j
  · cases step with
    | reply => exact .inr rfl
    | _ => exact carries.reply

theorem Effects.carries (effects : Effects p c Offered g g')
    (admitted : ∀ data, Offered data → Q data) (carries : GattCarries p Q g) :
    GattCarries p Q g' := by
  induction effects with
  | refl => exact carries
  | tail _ step ih => exact step.carries admitted ih

/-! The contents of the proxy. -/

structure Carries (p : Platform) (Q : Bytes → Prop) (w : Proxy n) : Prop where
  gatt : GattCarries p Q w.gatt
  packed : w.cache.Packed
  cached : ∀ frame ∈ w.cache.frames, frame.2 ≠ .configCompleteId → Q frame.1

/-- Every frame the step relays or stores for replay meets `Q`. -/
def Admits (p : Platform) (Q : Bytes → Prop) (w : Proxy n) (e : Event n) : Prop :=
  match e with
  | .fromradio frame _ =>
    (w.session.Relays p frame.bytes → (∃ i, (w.gatt.conns i).Open) → Q frame.bytes) ∧
    (∀ info, protoDecodeFromradio p frame.bytes = some info → w.session.state = .fetching →
      info.whichVariant ≠ .packet → info.whichVariant ≠ .configCompleteId → Q frame.bytes)
  | _ => True

theorem Admits.offered {e : Event n} (admits : Admits p Q w e)
    (synthetic : Q (p.fromRadioBytes .syntheticQueueStatus)) :
    ∀ data, Offers p w e data → Q data := by
  intro data offered
  cases e with
  | fromradio frame rand =>
    obtain ⟨rfl, relays, ready⟩ := offered
    exact admits.1 relays ready
  | toradioWrite conn buf offset =>
    cases offered
    exact synthetic
  | _ => exact offered.elim

theorem CacheStep.carries {e : Event n} {c : ConfigCache} (step : CacheStep p w e c)
    (admits : Admits p Q w e) (carries : Carries p Q w) :
    c.Packed ∧ ∀ frame ∈ c.frames, frame.2 ≠ .configCompleteId → Q frame.1 := by
  cases step with
  | same => exact ⟨carries.packed, carries.cached⟩
  | opened => exact ⟨ConfigCache.packed_begin _, by simp⟩
  | reopened => exact ⟨ConfigCache.packed_begin _, by simp⟩
  | published => exact ⟨carries.packed.mark_ready, by simpa using carries.cached⟩
  | stored frame rand info decoded window plain keeps =>
    refine ⟨carries.packed.add _ _, ?_⟩
    by_cases room : w.cache.Room frame.bytes
    · rw [ConfigCache.frames_add carries.packed room]
      intro stored member other
      rw [List.mem_append, List.mem_singleton] at member
      rcases member with older | rfl
      · exact carries.cached stored older other
      · rcases keeps with ⟨terminator, _⟩ | ⟨_, fetching⟩
        · exact absurd terminator other
        · exact admits.2 info decoded fetching plain other
    · rw [ConfigCache.add_full room]
      exact carries.cached

theorem carries_step (documented : p.Documented)
    (synthetic : Q (p.fromRadioBytes .syntheticQueueStatus)) (w : Proxy n) (e : Event n)
    (carries : Carries p Q w) (enabled : w.enabled e) (admits : Admits p Q w e) :
    Carries p Q (w.apply p e) := by
  have effects := apply_effects documented e enabled carries.gatt.reply
  have contents := (cache_step p e enabled).carries admits carries
  exact ⟨effects.carries (admits.offered synthetic) carries.gatt, contents.1, contents.2⟩

theorem carries_boot : Carries p Q (Proxy.boot n) := by
  refine ⟨⟨fun i => ?_, ?_, .inl rfl⟩, ConfigCache.packed_zero, ?_⟩
  · refine ⟨fun data member => ?_, fun replaying => by cases replaying⟩
    exact absurd member (by simp [Proxy.boot, upstreamSetServeCb, Gatt.zero, ProxyConn.zero,
      ProxyConn.queued])
  · intro i j conn held
    cases held
  · intro frame member
    exact absurd member (by simp [Proxy.boot, upstreamSetServeCb, ConfigCache.zero,
      ConfigCache.frames])

theorem carries_run (documented : p.Documented)
    (synthetic : Q (p.fromRadioBytes .syntheticQueueStatus)) (es : List (Event n))
    (runs : (system n p).Runs (.boot n) es)
    (admits : (system n p).Along (Admits p Q) (.boot n) es) :
    Carries p Q ((system n p).run (.boot n) es) :=
  Machine.invariant_along (carries_step documented synthetic) es carries_boot runs admits

/-- A property of every frame the UART can deliver is carried in every
reachable state. -/
theorem Reachable.carries (documented : p.Documented)
    (synthetic : Q (p.fromRadioBytes .syntheticQueueStatus)) (frames : ∀ frame : Frame, Q frame.bytes)
    (reached : Reachable p w) : Carries p Q w := by
  refine Machine.Reachable.invariant (fun w e carries enabled => ?_) carries_boot reached
  refine carries_step documented synthetic w e carries enabled ?_
  cases e with
  | fromradio frame => exact ⟨fun _ _ => frames frame, fun _ _ _ _ _ => frames frame⟩
  | _ => trivial

/-- The same, step by step. -/
theorem carries_along (documented : p.Documented)
    (synthetic : Q (p.fromRadioBytes .syntheticQueueStatus)) (frames : ∀ frame : Frame, Q frame.bytes)
    (es : List (Event n)) (runs : (system n p).Runs (.boot n) es) :
    (system n p).Along (fun w _ => Carries p Q w) (.boot n) es := by
  refine Machine.along_of_invariant (fun w e carries enabled => ?_) (fun _ _ carries _ => carries) es
    carries_boot runs
  refine carries_step documented synthetic w e carries enabled ?_
  cases e with
  | fromradio frame => exact ⟨fun _ _ => frames frame, fun _ _ _ _ _ => frames frame⟩
  | _ => trivial

theorem Reachable.distinct (documented : p.Documented) (reached : Reachable p w) :
    w.gatt.Distinct :=
  (Reachable.carries (Q := fun _ => True) documented trivial (fun _ => trivial) reached).gatt.distinct

/-! What a fresh read serves. -/

theorem in_segment_variant {i : Nat} {nonce : UInt32}
    (inside : cacheFrameInSegment c i nonce = true) :
    i < c.count ∧ (c.index i).variant ≠ .configCompleteId := by
  by_cases past : i ≥ c.count
  · simp [cacheFrameInSegment, past] at inside
  · refine ⟨Nat.lt_of_not_le past, fun terminator => ?_⟩
    simp [cacheFrameInSegment, terminator] at inside

/-- A fresh read stages nothing, or the config_complete synthesized for the
phone's own nonce, or bytes that meet `Q`. -/
theorem Carries.fresh_read (carries : Carries p Q w) (i : Fin n) :
    stageSource w.cache (w.gatt.conns i) = .nothing ∨
    (stageSource w.cache (w.gatt.conns i) = .complete ∧
      (stageNext w.cache (w.gatt.conns i)).stagedBytes =
        p.fromRadioBytes (.configComplete (w.gatt.conns i).nonce)) ∨
    Q (stageNext w.cache (w.gatt.conns i)).stagedBytes := by
  have slot := carries.gatt.slots i
  cases source : stageSource w.cache (w.gatt.conns i) with
  | nothing => exact .inl rfl
  | complete =>
    obtain ⟨⟨replaying, _⟩, staged⟩ := stage_complete source
    refine .inr (.inl ⟨rfl, ?_⟩)
    rw [staged, ProxyConn.stagedBytes, staged_write, slot.armed replaying]
  | cached k =>
    obtain ⟨⟨_, next, below⟩, staged⟩ := stage_cached source
    have inside : (w.gatt.conns i).replayCursor ≤ cacheFrameCount w.cache := by
      by_contra past
      have := replay_next_past (w.gatt.conns i) (Nat.lt_of_not_le past)
      omega
    have served := (replay_next_spec (w.gatt.conns i) inside).2.2
    rw [next] at served
    have frame := ConfigCache.mem_frames.mpr ⟨k, below, rfl⟩
    have other := (in_segment_variant (served below)).2
    refine .inr (.inr ?_)
    rw [staged, ProxyConn.stagedBytes, staged_write]
    exact carries.cached _ frame other
  | queued =>
    obtain ⟨_, filled, staged⟩ := stage_queued source
    have contents := RingQueue.contents_pop (w.gatt.conns i).queue filled
    refine .inr (.inr ?_)
    rw [staged, ProxyConn.stagedBytes, staged_write]
    exact slot.queued _ (by simp [ProxyConn.queued, contents])

theorem fresh_read_slot {conn : BtConn} {i : Fin n} {g : Gatt n} (len : Nat)
    (tracked : findSlot g conn = some i) :
    (fromradioRead p c g conn len 0).1.conns i = stageNext c (g.conns i) := by
  simp only [fromradioRead, tracked, if_true, Gatt.conns_setConn_same]

/-- A read into a nonempty buffer answers nothing only when nothing is staged. -/
theorem fresh_read_empty (documented : p.Documented) {conn : BtConn} {i : Fin n} {g : Gatt n}
    {len : Nat} (tracked : findSlot g conn = some i) (buffer : 0 < len)
    (empty : (fromradioRead p c g conn len 0).2 = .ok []) :
    (stageNext c (g.conns i)).stagedBytes = [] := by
  simp only [fromradioRead, tracked, if_true] at empty
  split_ifs at empty with staged
  · rw [documented.attrRead_inside _ _ _ (Nat.zero_le _), List.drop_zero] at empty
    have none := (Except.ok.inj empty)
    rw [List.take_eq_nil_iff] at none
    exact none.resolve_left (by omega)
  · have length : (stageNext c (g.conns i)).stagedLen = 0 := by omega
    rw [ProxyConn.stagedBytes, length, ByteBuffer.read_zero]

end MeshPbx
