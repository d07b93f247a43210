import MeshPbx.ToradioBoundary
import MeshPbx.FetchProtocol

/-! The fetch in flight. What a handler run can do to the state of the session, its
nonce and the retry timer is said once; that a fetch keeps its nonce, is always
retried and is closed by its own terminator follows for every run. -/
namespace MeshPbx
variable {n : Nat} {p : Platform} {w : Proxy n}

/-- The fetch in a session: its state, its nonce and whether a retry is scheduled. -/
structure Fetch where
  state : UpstreamState
  nonce : UInt32
  retry : Bool
  deriving DecidableEq, Repr

def Session.fetch (s : Session) : Fetch :=
  ⟨s.state, s.nonce, s.fetchRetryWork.isSome⟩

namespace Fetch

def Window (f : Fetch) : Prop := f.state = .fetching ∨ f.state = .refetching

def Idle (f : Fetch) : Prop := f.state = .live ∨ f.state = .cacheReady

/-- What one handler run can do to the fetch, given the random number it has at its
disposal. -/
inductive Step : Option UInt32 → Fetch → Fetch → Prop
  | stays (draw : Option UInt32) (f : Fetch) : Step draw f f
  | unsent (rand : UInt32) (f : Fetch) (boot : f.state = .boot) :
      Step (some rand) f ⟨.boot, sessionNonce rand, false⟩
  | began (rand : UInt32) (f : Fetch) (boot : f.state = .boot) :
      Step (some rand) f ⟨.fetching, sessionNonce rand, true⟩
  | rearmed (draw : Option UInt32) (f : Fetch) (window : f.Window) :
      Step draw f { f with retry := true }
  | closed (draw : Option UInt32) (f : Fetch) (window : f.Window) :
      Step draw f ⟨.live, f.nonce, false⟩
  | refused (rand : UInt32) (f : Fetch) (idle : f.Idle) :
      Step (some rand) f { f with nonce := sessionNonce rand }
  | reopened (rand : UInt32) (f : Fetch) (idle : f.Idle) :
      Step (some rand) f ⟨.refetching, sessionNonce rand, true⟩
  | expired (draw : Option UInt32) (f : Fetch) (outside : ¬ f.Window) :
      Step draw f { f with retry := false }

/-- A retry is scheduled in a fetch, and none in LIVE or before the first fetch. -/
structure Guarded (f : Fetch) : Prop where
  window : f.Window → f.retry = true
  live : f.state = .live → f.retry = false
  boot : f.state = .boot → f.retry = false

variable {f f' : Fetch} {draw : Option UInt32}

theorem Step.of_eq (same : f' = f) : Step draw f f' := same ▸ .stays draw f

theorem Window.not_live (window : f.Window) : f.state ≠ .live := by
  rcases window with fetching | refetching
  · simp [fetching]
  · simp [refetching]

theorem Window.not_boot (window : f.Window) : f.state ≠ .boot := by
  rcases window with fetching | refetching
  · simp [fetching]
  · simp [refetching]

theorem Idle.not_window (idle : f.Idle) : ¬ f.Window := by
  rintro (fetching | refetching)
  · rcases idle with live | ready
    · exact UpstreamState.noConfusion (live.symm.trans fetching)
    · exact UpstreamState.noConfusion (ready.symm.trans fetching)
  · rcases idle with live | ready
    · exact UpstreamState.noConfusion (live.symm.trans refetching)
    · exact UpstreamState.noConfusion (ready.symm.trans refetching)

theorem Step.guarded (step : Step draw f f') (guarded : f.Guarded) : f'.Guarded := by
  obtain ⟨window, live, boot⟩ := guarded
  cases step with
  | stays => exact ⟨window, live, boot⟩
  | unsent => exact ⟨fun inside => absurd rfl inside.not_boot, fun _ => rfl, fun _ => rfl⟩
  | began =>
    exact ⟨fun _ => rfl, fun live => UpstreamState.noConfusion live,
      fun boot => UpstreamState.noConfusion boot⟩
  | rearmed _ _ inside =>
    exact ⟨fun _ => rfl, fun live => absurd live inside.not_live,
      fun boot => absurd boot inside.not_boot⟩
  | closed => exact ⟨fun inside => absurd rfl inside.not_live, fun _ => rfl, fun _ => rfl⟩
  | refused => exact ⟨window, live, boot⟩
  | reopened =>
    exact ⟨fun _ => rfl, fun live => UpstreamState.noConfusion live,
      fun boot => UpstreamState.noConfusion boot⟩
  | expired _ _ outside => exact ⟨fun inside => absurd inside outside, fun _ => rfl, fun _ => rfl⟩

/-- A fetch that goes on keeps its nonce. -/
theorem Step.nonce_kept (step : Step draw f f') (before : f.Window) (after : f'.Window) :
    f'.nonce = f.nonce := by
  cases step with
  | stays => rfl
  | unsent _ _ boot => exact absurd boot before.not_boot
  | began _ _ boot => exact absurd boot before.not_boot
  | rearmed => rfl
  | closed => rfl
  | refused _ _ idle => exact absurd before idle.not_window
  | reopened _ _ idle => exact absurd before idle.not_window
  | expired _ _ outside => exact absurd before outside

end Fetch

/-! Which steps of the fetch each handler can take. -/

/-- The random number that the handler of an event has at its disposal. -/
def Event.draws : Event n → Option UInt32
  | .sessionStart rand | .fromradio _ rand | .liveness rand => some rand
  | _ => none

theorem RefetchEffect.fetch {w' : Proxy n} {rand : UInt32}
    (effect : RefetchEffect p w (sessionNonce rand) w') :
    Fetch.Step (some rand) w.session.fetch w'.session.fetch := by
  cases effect with
  | ignored => exact .stays _ _
  | failed idle => exact .refused rand _ idle
  | started idle =>
    have moved : Fetch.Step (some rand) w.session.fetch ⟨.refetching, sessionNonce rand, true⟩ :=
      .reopened rand _ idle
    simpa [Session.fetch] using moved

theorem refetch_fetch (p : Platform) (w : Proxy n) (rand : UInt32) :
    Fetch.Step (some rand) w.session.fetch (upstreamRefetch p w rand).session.fetch :=
  RefetchEffect.fetch (refetch_effect p w rand)

theorem FetchEffect.fetch {w' : Proxy n} {payload : Bytes} {info : FromradioInfo}
    {draw : Option UInt32} (window : w.session.Window) (effect : FetchEffect p w payload info w') :
    Fetch.Step draw w.session.fetch w'.session.fetch := by
  cases effect with
  | stored => exact .rearmed _ _ window
  | discarded => exact .rearmed _ _ window
  | published => exact .closed _ _ window
  | resumed => exact .closed _ _ window

theorem fetch_kick (s : Session) : (upstreamLivenessKick s).fetch = s.fetch := by
  simp [Session.fetch]

theorem FrameEffect.fetch {w' : Proxy n} {payload : Bytes} {rand : UInt32}
    (effect : FrameEffect p w payload rand w') :
    Fetch.Step (some rand) w.session.fetch w'.session.fetch := by
  cases effect with
  | undecoded => exact .stays _ _
  | fetched _ _ window _ _ effect => exact effect.fetch window
  | rebooted => exact refetch_fetch p w rand
  | swallowed => exact .stays _ _
  | live => exact .of_eq (fetch_kick w.session)
  | packet =>
    rw [session_dispatchPacket]
    exact .of_eq (fetch_kick w.session)

theorem ToradioEffect.fetch {w' : Proxy n} {conn : BtConn} {data : Bytes}
    (effect : ToradioEffect p w conn data w') : w'.session.fetch = w.session.fetch := by
  cases effect with
  | forwarded s session =>
    rcases session with rfl | rfl
    · rfl
    · simp [Session.fetch]
  | _ => rfl

theorem keepalive_fetch (p : Platform) (w : Proxy n) :
    (keepaliveWorkHandler p w).session.fetch = w.session.fetch := by
  simp only [keepaliveWorkHandler]
  split_ifs <;> rfl

theorem start_fetch (p : Platform) (w : Proxy n) (rand : UInt32) (boot : w.session.state = .boot) :
    Fetch.Step (some rand) w.session.fetch (upstreamSessionStart p w rand).session.fetch := by
  unfold upstreamSessionStart
  simp only
  split
  · have unsent : Fetch.Step (some rand) w.session.fetch ⟨.boot, sessionNonce rand, false⟩ :=
      .unsent rand _ boot
    simpa [Session.fetch, boot, sessionNonce] using unsent
  · exact .began rand _ boot

/-- The retry runs with its timer already idle; inside a fetch it sets it again. -/
theorem fetch_retry_fetch (p : Platform) (w : Proxy n) :
    Fetch.Step none w.session.fetch
      (fetchRetryHandler p
        { w with session := { w.session with fetchRetryWork := none } }).session.fetch := by
  unfold fetchRetryHandler
  by_cases window : w.session.Window
  · have inside : ¬ (w.session.state ≠ .fetching ∧ w.session.state ≠ .refetching) := by
      rintro ⟨notFetching, notRefetching⟩
      exact window.elim notFetching notRefetching
    rw [if_neg inside]
    exact .rearmed _ _ window
  · have outside : w.session.state ≠ .fetching ∧ w.session.state ≠ .refetching := not_or.mp window
    rw [if_pos outside]
    exact .expired _ _ window

theorem fetch_step (settled : Settled w) (e : Event n) (enabled : w.enabled e) :
    Fetch.Step e.draws w.session.fetch (w.apply p e).session.fetch := by
  cases e with
  | sessionStart rand => exact start_fetch p w rand (settled.unarmed enabled)
  | fromradio frame rand => exact (frame_effect p w frame.bytes rand).fetch
  | toradioWrite conn buf offset =>
    simp only [Proxy.apply, toradioWrite]
    split_ifs
    · exact .stays _ _
    · exact .of_eq (toradio_effect p w conn buf).fetch
  | keepalive => exact .of_eq (keepalive_fetch p _)
  | fetchRetry => exact fetch_retry_fetch p w
  | liveness rand =>
    simp only [Proxy.apply, livenessHandler]
    split_ifs
    · exact .stays _ _
    · exact refetch_fetch p { w with session := { w.session with livenessWork := none } } rand
  | _ => exact .stays _ _

/-! Runs. -/

theorem Reachable.guarded (reached : Reachable p w) : w.session.fetch.Guarded := by
  let held (w : Proxy n) : Prop := Settled w ∧ w.session.fetch.Guarded
  have keeps : ∀ w e, held w → w.enabled e → held (w.apply p e) := fun w e both enabled =>
    ⟨settled_step w e both.1 enabled, (fetch_step both.1 e enabled).guarded both.2⟩
  have initial : held (.boot n) := by
    refine ⟨settled_boot, ?_⟩
    exact ⟨fun window => absurd rfl window.not_boot, fun _ => rfl, fun _ => rfl⟩
  have both : held w := Machine.Reachable.invariant keeps initial reached
  exact both.2

/-- The nonce of an entry that the node reads as a want_config. -/
def wantConfigNonce (p : Platform) (entry : Bytes) : Option UInt32 :=
  (protoDecodeToradio p entry).bind fun info =>
    if info.hasWantConfig then some info.wantConfigId else none

/-- The nonces of the want_configs that one step hands to the UART. -/
def askedNonces (p : Platform) (w w' : Proxy n) : List UInt32 :=
  (w'.uart.txMsgq.drop w.uart.txMsgq.length).filterMap (wantConfigNonce p)

/-- The same of a schedule. -/
def asks (p : Platform) (w : Proxy n) : List (Event n) → List UInt32
  | [] => []
  | e :: es => askedNonces p w (w.apply p e) ++ asks p (w.apply p e) es

/-- The step leaves the session in a fetch. -/
def InFetch (p : Platform) (w : Proxy n) (e : Event n) : Prop :=
  (w.apply p e).session.Window

instance (w : Proxy n) (e : Event n) : Decidable (InFetch p w e) :=
  inferInstanceAs (Decidable (Session.Window _))

theorem asked_nonces (documented : p.Documented) (w : Proxy n) (e : Event n) :
    ∀ nonce ∈ askedNonces p w (w.apply p e), nonce = (w.apply p e).session.nonce := by
  intro nonce member
  rw [askedNonces] at member
  rcases (boundary_step documented w e).queue with same | ⟨_, _, taken⟩ | ⟨entry, placed, permitted⟩
  · simp [same] at member
  · have nothing : w.uart.txMsgq.tail.drop w.uart.txMsgq.length = [] :=
      List.drop_eq_nil_of_le (by simp)
    rw [taken, nothing] at member
    cases member
  · rw [placed, List.drop_left, List.filterMap_cons, List.filterMap_nil] at member
    cases decoded : protoDecodeToradio p entry with
    | none => simp [wantConfigNonce, decoded] at member
    | some info =>
      by_cases wants : info.hasWantConfig = true
      · obtain ⟨_, _, ours⟩ := permitted.wantConfig info decoded wants
        simp only [wantConfigNonce, decoded, Option.bind_some, if_pos wants,
          List.mem_singleton] at member
        rw [member, ours]
      · simp [wantConfigNonce, decoded, wants] at member

/-- Over a stretch in which every step leaves the session in a fetch, all
want_configs carry one nonce, which is the session's from the first step on. -/
theorem asks_nonce (documented : p.Documented) {w : Proxy n} (during : List (Event n))
    (settled : Settled w) (runs : (system n p).Runs w during)
    (fetching : (system n p).Along (InFetch p) w during) :
    (w.session.Window → w.session.nonce = ((system n p).run w during).session.nonce) ∧
      ∀ nonce ∈ asks p w during, nonce = ((system n p).run w during).session.nonce := by
  induction during generalizing w with
  | nil => exact ⟨fun _ => rfl, List.forall_mem_nil _⟩
  | cons e during ih =>
    obtain ⟨enabled, later⟩ := runs
    obtain ⟨entered, stays⟩ := fetching
    obtain ⟨kept, sent⟩ := ih (settled_step w e settled enabled) later stays
    have final : (w.apply p e).session.nonce =
        ((system n p).run w (e :: during)).session.nonce := kept entered
    constructor
    · intro window
      have same : (w.apply p e).session.nonce = w.session.nonce :=
        (fetch_step settled e enabled).nonce_kept window entered
      rw [← same, final]
    · intro nonce member
      rcases List.mem_append.mp member with first | rest
      · rw [asked_nonces documented w e nonce first, final]
      · exact sent nonce rest

/-- The terminator that echoes the session's nonce closes the fetch on arrival. -/
theorem terminator_closes {payload : Bytes} (rand : UInt32) (window : w.session.Window)
    (ours : decodeConfigCompleteNonce p payload = some w.session.nonce) :
    (onFromradioUart p w payload rand).session.state = .live := by
  obtain ⟨known, decodes, variant⟩ := terminator_info ours
  have effect := frame_effect p w payload rand
  generalize onFromradioUart p w payload rand = after at effect ⊢
  cases effect with
  | undecoded undecoded => simp [decodes] at undecoded
  | fetched info decoded _ _ _ effect =>
    have same : info.whichVariant = .configCompleteId := by
      rw [← Option.some.inj (decodes.symm.trans decoded), variant]
    cases effect with
    | stored keeps =>
      rcases keeps with ⟨_, foreign⟩ | ⟨other, _⟩
      · exact absurd ours foreign
      · exact absurd same other
    | discarded _ other => exact absurd same other
    | published => rfl
    | resumed => rfl
  | rebooted _ _ outside => exact absurd window outside
  | swallowed _ _ outside => exact absurd window outside
  | live _ _ outside => exact absurd window outside
  | packet info decoded packet =>
    rw [← Option.some.inj (decodes.symm.trans decoded), variant] at packet
    contradiction

theorem refetch_ignored (window : w.session.Window) (rand : UInt32) :
    upstreamRefetch p w rand = w := by
  have busy : w.session.state = .boot ∨ w.session.state = .fetching ∨
      w.session.state = .refetching := .inr window
  unfold upstreamRefetch
  rw [if_pos busy]

/-- A fetch in flight is always retried and can always be closed: in every run the
retry is scheduled inside a fetch and not in LIVE, a refetch inside a fetch does
nothing, and over any stretch of the run inside one fetch, its first step
included, the nonce stays and every want_config carries it. -/
theorem fetch_retried_and_closable (documented : p.Documented) (es : List (Event n))
    (runs : (system n p).Runs (.boot n) es) :
    let w := (system n p).run (.boot n) es
    (w.session.Window → w.session.fetchRetryWork.isSome) ∧
      (w.session.state = .live → w.session.fetchRetryWork = none) ∧
      (w.session.Window → ∀ rand, upstreamRefetch p w rand = w) ∧
      ∀ before during, es = before ++ during →
        (system n p).Along (InFetch p) ((system n p).run (.boot n) before) during →
        (((system n p).run (.boot n) before).session.Window →
          w.session.nonce = ((system n p).run (.boot n) before).session.nonce) ∧
        (∀ nonce ∈ asks p ((system n p).run (.boot n) before) during,
          nonce = w.session.nonce) ∧
        (w.session.Window → ∀ payload rand,
          (∃ nonce ∈ w.session.nonce :: asks p ((system n p).run (.boot n) before) during,
            decodeConfigCompleteNonce p payload = some nonce) →
          (onFromradioUart p w payload rand).session.state = .live) := by
  intro w
  have guarded := (reachable_run es runs).guarded
  refine ⟨guarded.window, fun live => ?_, refetch_ignored, ?_⟩
  · simpa [Session.fetch] using guarded.live live
  rintro before during rfl fetching
  obtain ⟨first, rest⟩ := (Machine.runs_append before during).mp runs
  have whole : w = (system n p).run ((system n p).run (.boot n) before) during :=
    Machine.run_append before during
  have settled := (reachable_run before first).settled
  obtain ⟨kept, sent⟩ := asks_nonce documented during settled rest fetching
  rw [← whole] at kept sent
  refine ⟨fun window => (kept window).symm, sent, ?_⟩
  rintro window payload rand ⟨nonce, member, echoed⟩
  have ours : nonce = w.session.nonce := by
    rcases List.mem_cons.mp member with own | sentNonce
    · exact own
    · exact sent nonce sentNonce
  exact terminator_closes rand window (ours ▸ echoed)

/-- The boot fetch with one retry, both want_configs in the queue. -/
def retriedFetch : List (Event 1) := [.sessionStart 5, .fetchRetry]

theorem retried_fetch_closes :
    asks .wire (.boot 1) retriedFetch = [5, 5] ∧
      (onFromradioUart .wire ((system 1 .wire).run (.boot 1) retriedFetch) [0x38, 5] 0).session.state
        = .live := by
  obtain ⟨_, _, _, stretch⟩ :=
    fetch_retried_and_closable wire_documented retriedFetch (by decide)
  obtain ⟨_, _, closes⟩ := stretch [] retriedFetch rfl (by decide)
  exact ⟨by decide, closes (by decide) [0x38, 5] 0 ⟨5, by decide, by decide⟩⟩

end MeshPbx
