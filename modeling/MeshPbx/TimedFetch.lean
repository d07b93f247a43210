import MeshPbx.FetchRetry
import MeshPbx.Liveness
import MeshPbx.TimedSystem

/-! The watchdogs of the session in time. A fetch that makes no progress is resent when
its retry interval is over, and a LIVE session that hears nothing genuine is taken for
dead when the liveness timeout is: neither handler runs early, and neither is late. -/
namespace MeshPbx
variable {n : Nat} {p : Platform} {w w' : Proxy n}

/-! The fetch in flight. -/

/-- A frame of a burst, as a fetch takes it: anything the decoder knows but a packet. -/
def ofBurst (p : Platform) (payload : Bytes) : Prop :=
  match protoDecodeFromradio p payload with
  | some info => info.whichVariant ≠ .packet
  | none => False

instance (payload : Bytes) : Decidable (ofBurst p payload) := by
  unfold ofBurst
  split <;> infer_instance

/-- What moves a fetch on: a frame of the burst, or a resend. -/
def Event.MovesOn (p : Platform) : Event n → Prop
  | .fromradio frame _ => ofBurst p frame.bytes
  | .fetchRetry => True
  | _ => False

instance : (e : Event n) → Decidable (e.MovesOn p)
  | .fromradio frame _ => inferInstanceAs (Decidable (ofBurst p frame.bytes))
  | .fetchRetry => isTrue trivial
  | .sessionStart _ | .toradioWrite _ _ _ | .fromradioRead _ _ _ | .fromnumRead _ _ _
  | .nodeRegWrite _ _ _ | .connected _ _ | .disconnected _ | .keepalive | .liveness _
  | .teardown _ | .txWork _ | .txEnd _ => isFalse id

/-- The event begins a fetch or moves it on. -/
def Advances (p : Platform) (w : Proxy n) (e : Event n) : Prop :=
  if w.session.Window then e.MovesOn p else (w.apply p e).session.Window

instance (w : Proxy n) (e : Event n) : Decidable (Advances p w e) :=
  inferInstanceAs (Decidable (if w.session.Window then e.MovesOn p else (w.apply p e).session.Window))

/-- What a handler run that ends inside a fetch has done to the retry timer. -/
structure Paced (p : Platform) (w : Proxy n) (e : Event n) : Prop where
  set : Advances p w e → (w.apply p e).session.fetchRetryWork = some UPSTREAM_FETCH_RETRY_MS
  kept : ¬ Advances p w e → w.session.Window ∧
    (w.apply p e).session.fetchRetryWork = w.session.fetchRetryWork

/-- The event leaves a fetch as it is. -/
theorem paced_idle {e : Event n} (idle : ¬ Advances p w e) (window : w.session.Window)
    (same : (w.apply p e).session.fetchRetryWork = w.session.fetchRetryWork) : Paced p w e :=
  ⟨fun advances => absurd advances idle, fun _ => ⟨window, same⟩⟩

theorem paced_set {e : Event n} (advances : Advances p w e)
    (set : (w.apply p e).session.fetchRetryWork = some UPSTREAM_FETCH_RETRY_MS) : Paced p w e :=
  ⟨fun _ => set, fun idle => absurd advances idle⟩

theorem advances_entering {e : Event n} (outside : ¬ w.session.Window)
    (entered : (w.apply p e).session.Window) : Advances p w e := by
  unfold Advances
  rw [if_neg outside]
  exact entered

/-- Events other than frames and resends neither begin a fetch nor touch its timer. -/
theorem paced_aside {e : Event n} (entered : (w.apply p e).session.Window)
    (state : (w.apply p e).session.state = w.session.state)
    (timer : (w.apply p e).session.fetchRetryWork = w.session.fetchRetryWork)
    (other : match e with
      | .fromradio _ _ => False
      | .fetchRetry => False
      | _ => True) : Paced p w e := by
  have window : w.session.Window := by
    unfold Session.Window at entered ⊢
    rwa [state] at entered
  refine paced_idle ?_ window timer
  unfold Advances
  rw [if_pos window]
  cases e with
  | fromradio => exact other.elim
  | fetchRetry => exact other.elim
  | _ => exact id

theorem RefetchEffect.enters {nonce : UInt32} (effect : RefetchEffect p w nonce w')
    (outside : ¬ w.session.Window) (entered : w'.session.Window) :
    w'.session.fetchRetryWork = some UPSTREAM_FETCH_RETRY_MS := by
  cases effect with
  | ignored => exact absurd entered outside
  | failed => exact absurd entered outside
  | started => simp

theorem FetchEffect.paces {payload : Bytes} {info : FromradioInfo}
    (effect : FetchEffect p w payload info w') (entered : w'.session.Window) :
    w'.session.fetchRetryWork = some UPSTREAM_FETCH_RETRY_MS := by
  cases effect with
  | stored => rfl
  | discarded => rfl
  | published => simp [Session.Window, Session.wentLive] at entered
  | resumed => simp [Session.Window, Session.wentLive] at entered

theorem frame_paced {frame : Frame} {rand : UInt32}
    (entered : (w.apply p (.fromradio frame rand)).session.Window) :
    Paced p w (.fromradio frame rand) := by
  have effect : FrameEffect p w frame.bytes rand (w.apply p (.fromradio frame rand)) :=
    frame_effect p w frame.bytes rand
  have burst (window : w.session.Window) :
      Advances p w (.fromradio frame rand) ↔ ofBurst p frame.bytes := by
    unfold Advances
    rw [if_pos window]
    rfl
  by_cases window : w.session.Window
  · generalize after : w.apply p (.fromradio frame rand) = next at effect entered
    cases effect with
    | undecoded decoded =>
      refine paced_idle ?_ window (by rw [after]; rfl)
      rw [burst window, ofBurst, decoded]
      exact id
    | fetched info decoded _ plain _ effect =>
      refine paced_set ?_ (after ▸ effect.paces entered)
      rw [burst window, ofBurst, decoded]
      exact plain
    | rebooted _ _ outside => exact absurd window outside
    | swallowed _ _ outside => exact absurd window outside
    | live _ _ outside => exact absurd window outside
    | packet info decoded packet =>
      refine paced_idle ?_ window (by rw [after, session_dispatchPacket]; simp)
      rw [burst window, ofBurst, decoded]
      exact fun plain => plain packet
  · refine paced_set (advances_entering window entered) ?_
    generalize w.apply p (.fromradio frame rand) = next at effect entered ⊢
    cases effect with
    | undecoded => exact absurd entered window
    | fetched _ _ inside => exact absurd inside window
    | rebooted => exact (refetch_effect p w rand).enters window entered
    | swallowed => exact absurd entered window
    | live => exact absurd (by simpa [Session.Window, broadcast] using entered) window
    | packet => exact absurd (by simpa [Session.Window] using entered) window

theorem toradio_paced {conn : BtConn} {buf : Bytes} {offset : Nat}
    (entered : (w.apply p (.toradioWrite conn buf offset)).session.Window) :
    Paced p w (.toradioWrite conn buf offset) := by
  have fetch : (w.apply p (.toradioWrite conn buf offset)).session.state = w.session.state ∧
      (w.apply p (.toradioWrite conn buf offset)).session.fetchRetryWork =
        w.session.fetchRetryWork := by
    simp only [Proxy.apply, toradioWrite]
    split_ifs
    · exact ⟨rfl, rfl⟩
    · have effect := toradio_effect p w conn buf
      generalize onToradioBle p w conn buf = after at effect ⊢
      cases effect with
      | forwarded s session =>
        rcases session with rfl | rfl
        · exact ⟨rfl, rfl⟩
        · simp
      | _ => exact ⟨rfl, rfl⟩
  exact paced_aside entered fetch.1 fetch.2 trivial

theorem fetch_retry_paced (entered : (w.apply p .fetchRetry).session.Window) :
    Paced p w .fetchRetry := by
  by_cases window : w.session.Window
  · have moves : Advances p w .fetchRetry := by
      unfold Advances
      rw [if_pos window]
      trivial
    refine paced_set moves ?_
    have inside : ¬ (w.session.state ≠ .fetching ∧ w.session.state ≠ .refetching) := by
      rintro ⟨notFetching, notRefetching⟩
      exact window.elim notFetching notRefetching
    simp only [Proxy.apply, fetchRetryHandler, if_neg inside]
  · have outside : w.session.state ≠ .fetching ∧ w.session.state ≠ .refetching := not_or.mp window
    simp only [Proxy.apply, fetchRetryHandler, if_pos outside] at entered
    exact absurd entered window

theorem fetch_paced (settled : Settled w) (e : Event n) (enabled : w.enabled e)
    (entered : (w.apply p e).session.Window) : Paced p w e := by
  cases e with
  | sessionStart rand =>
    have boot := settled.unarmed enabled
    have outside : ¬ w.session.Window := by simp [Session.Window, boot]
    refine paced_set (advances_entering outside entered) ?_
    simp only [Proxy.apply, upstreamSessionStart] at entered ⊢
    split at entered
    · simp [Session.Window, boot] at entered
    · rfl
  | fromradio frame rand => exact frame_paced entered
  | toradioWrite conn buf offset => exact toradio_paced entered
  | fetchRetry => exact fetch_retry_paced entered
  | keepalive =>
    have same := keepalive_fetch p { w with session := { w.session with keepaliveWork := none } }
    refine paced_aside entered (congrArg Fetch.state same) ?_ trivial
    simp only [Proxy.apply, keepaliveWorkHandler]
    split_ifs <;> rfl
  | liveness rand =>
    by_cases live : w.session.state = .live
    · have outside : ¬ w.session.Window := by simp [Session.Window, live]
      refine paced_set (advances_entering outside entered) ?_
      have notDown : ¬ w.session.state ≠ .live := by simpa using live
      simp only [Proxy.apply, livenessHandler, if_neg notDown] at entered ⊢
      exact (refetch_effect p { w with session := { w.session with livenessWork := none } }
        rand).enters outside entered
    · refine paced_aside entered ?_ ?_ trivial
      · simp only [Proxy.apply, livenessHandler, if_pos live]
      · simp only [Proxy.apply, livenessHandler, if_pos live]
  | _ => exact paced_aside entered rfl rfl trivial

/-- Milliseconds since the fetch in flight last moved on. -/
def stalled (n : Nat) (p : Platform) : Observer (Proxy n) (Event n) Nat where
  tick o := o + 1
  act o w e := if Advances p w e then 0 else o

/-- In a fetch, the retry runs out when the stall reaches the retry interval. -/
structure Pacing (s : Proxy n × Nat) : Prop where
  settled : Settled s.1
  meets : s.1.session.Window → Timer.Meets s.1.session.fetchRetryWork s.2 UPSTREAM_FETCH_RETRY_MS

theorem settled_elapse (settled : Settled w) : Settled w.elapse :=
  ⟨settled.unarmed, settled.passing, settled.published, settled.parked⟩

theorem pacing_boot : Pacing (Proxy.boot n, 0) :=
  ⟨settled_boot, fun window => by simp [Proxy.boot, upstreamSetServeCb, Session.zero,
    Session.Window] at window⟩

theorem pacing_tick (s : Proxy n) (o : Nat) (pacing : Pacing (s, o)) (running : ¬ s.Due) :
    Pacing (s.elapse, (stalled n p).tick o) := by
  refine ⟨settled_elapse pacing.settled, fun window => ?_⟩
  have notOut : s.session.fetchRetryWork ≠ some 0 := fun out => running (.inr (.inl out))
  exact (pacing.meets window).tick notOut

theorem pacing_act (s : Proxy n) (o : Nat) (e : Event n) (pacing : Pacing (s, o))
    (enabled : s.enabled e) : Pacing (s.apply p e, (stalled n p).act o s e) := by
  refine ⟨settled_step s e pacing.settled enabled, fun entered => ?_⟩
  have paced := fetch_paced pacing.settled e enabled entered
  simp only [stalled]
  by_cases advances : Advances p s e
  · rw [if_pos advances, paced.set advances]
    exact Timer.meets_set _
  · obtain ⟨window, same⟩ := paced.kept advances
    rw [if_neg advances, same]
    exact pacing.meets window

/-- In every run in time, a fetch in flight has moved on within the retry interval: its
last frame, its last resend or its beginning is never longer ago, and a resend comes
only when it is exactly that long ago. -/
theorem stalled_fetch_resent (es : List (Ticked (Event n)))
    (runs : (timedSystem n p (stalled n p)).Runs (.boot n, 0) es) :
    let s := (timedSystem n p (stalled n p)).run (.boot n, 0) es
    s.1.session.Window →
      s.2 ≤ UPSTREAM_FETCH_RETRY_MS ∧
        ((timedSystem n p (stalled n p)).enabled s (.act .fetchRetry) ↔
          s.2 = UPSTREAM_FETCH_RETRY_MS) := by
  intro s window
  have pacing : Pacing s := Machine.timed_invariant pacing_tick
    (fun s o e pacing enabled _ => pacing_act s o e pacing enabled) es pacing_boot runs
  obtain ⟨left, running, sum⟩ := pacing.meets window
  refine ⟨by omega, ?_⟩
  constructor
  · exact fun timely => (pacing.meets window).out timely.2
  · intro whole
    obtain rfl : left = 0 := by omega
    have pending : s.1.session.fetchRetryWork.isSome = true := by
      rw [running]
      rfl
    exact ⟨pending, running⟩

/-- The boot fetch, two milliseconds old, with a frame of the burst after the first. -/
def slowBurst : List (Ticked (Event 0)) :=
  [.act (.sessionStart 5), .tick, .act (.fromradio (.of 0x1a [0]) 0), .tick]

theorem slow_burst_waits :
    let s := (timedSystem 0 .wire (stalled 0 .wire)).run (.boot 0, 0) slowBurst
    s.1.session.state = .fetching ∧ s.2 = 1 ∧
      ¬ (timedSystem 0 .wire (stalled 0 .wire)).enabled s (.act .fetchRetry) := by
  intro s
  have moved : s.2 = 1 := by decide
  obtain ⟨_, resent⟩ := stalled_fetch_resent slowBurst (by decide) (by decide : s.1.session.Window)
  refine ⟨by decide, moved, fun early => ?_⟩
  have whole := resent.mp early
  rw [moved] at whole
  exact absurd whole (by decide)

/-! The session gone LIVE. -/

/-- A frame that shows the session alive: anything the decoder knows but the reboot
notice and the answer to a keepalive. -/
def Genuine (p : Platform) (w : Proxy n) (payload : Bytes) : Prop :=
  match protoDecodeFromradio p payload with
  | some info => info.whichVariant ≠ .rebooted ∧
    ¬ (info.whichVariant = .queueStatus ∧ w.session.keepalivePending = true)
  | none => False

instance (payload : Bytes) : Decidable (Genuine p w payload) := by
  unfold Genuine
  split <;> infer_instance

/-- The event shows the session alive, or brings it up. -/
def Kicks (p : Platform) (w : Proxy n) (e : Event n) : Prop :=
  if w.session.state = .live then e.Delivers fun frame => Genuine p w frame.bytes
  else (w.apply p e).session.state = .live

instance (w : Proxy n) (e : Event n) : Decidable (Kicks p w e) :=
  inferInstanceAs (Decidable (if w.session.state = .live
    then e.Delivers (fun frame => Genuine p w frame.bytes) else (w.apply p e).session.state = .live))

/-- What a handler run that ends in LIVE has done to the liveness timer. -/
structure Vigilant (p : Platform) (w : Proxy n) (e : Event n) : Prop where
  set : Kicks p w e → (w.apply p e).session.livenessWork = some UPSTREAM_LIVENESS_TIMEOUT_MS
  spent : StarvedExpiry w e → (w.apply p e).session.livenessWork = none
  kept : ¬ Kicks p w e → ¬ StarvedExpiry w e → w.session.state = .live ∧
    (w.apply p e).session.livenessWork = w.session.livenessWork

theorem kicks_entering {e : Event n} (down : w.session.state ≠ .live)
    (entered : (w.apply p e).session.state = .live) : Kicks p w e := by
  unfold Kicks
  rw [if_neg down]
  exact entered

theorem kicks_live {e : Event n} (live : w.session.state = .live) :
    Kicks p w e ↔ e.Delivers fun frame => Genuine p w frame.bytes := by
  unfold Kicks
  rw [if_pos live]

theorem vigilant_set {e : Event n} (fed : ¬ StarvedExpiry w e) (kicks : Kicks p w e)
    (set : (w.apply p e).session.livenessWork = some UPSTREAM_LIVENESS_TIMEOUT_MS) :
    Vigilant p w e :=
  ⟨fun _ => set, fun starved => absurd starved fed, fun idle _ => absurd kicks idle⟩

theorem vigilant_idle {e : Event n} (fed : ¬ StarvedExpiry w e) (idle : ¬ Kicks p w e)
    (live : w.session.state = .live)
    (same : (w.apply p e).session.livenessWork = w.session.livenessWork) : Vigilant p w e :=
  ⟨fun kicks => absurd kicks idle, fun starved => absurd starved fed, fun _ _ => ⟨live, same⟩⟩

/-- Events other than frames and expiries neither enter LIVE nor touch its timer. -/
theorem vigilant_aside {e : Event n} (entered : (w.apply p e).session.state = .live)
    (state : (w.apply p e).session.state = w.session.state)
    (timer : (w.apply p e).session.livenessWork = w.session.livenessWork)
    (other : match e with
      | .fromradio _ _ => False
      | .liveness _ => False
      | _ => True) : Vigilant p w e := by
  have live : w.session.state = .live := state ▸ entered
  have idle : ¬ Kicks p w e := by
    rw [kicks_live live]
    cases e with
    | fromradio => exact other.elim
    | _ => exact id
  have fed : ¬ StarvedExpiry w e := by
    cases e with
    | liveness => exact other.elim
    | _ => exact id
  exact vigilant_idle fed idle live timer

theorem FetchEffect.kicks {payload : Bytes} {info : FromradioInfo}
    (effect : FetchEffect p w payload info w') (window : w.session.Window)
    (entered : w'.session.state = .live) :
    w'.session.livenessWork = some UPSTREAM_LIVENESS_TIMEOUT_MS := by
  have down : w.session.state ≠ .live := Fetch.Window.not_live (f := w.session.fetch) window
  cases effect with
  | stored => exact absurd entered down
  | discarded => exact absurd entered down
  | published => rfl
  | resumed => rfl

theorem RefetchEffect.stays_live {nonce : UInt32} (effect : RefetchEffect p w nonce w')
    (entered : w'.session.state = .live) :
    w.session.state = .live ∧ w'.session.livenessWork = w.session.livenessWork := by
  cases effect with
  | ignored => exact ⟨entered, rfl⟩
  | failed => exact ⟨entered, rfl⟩
  | started => simp at entered

theorem frame_vigilant {frame : Frame} {rand : UInt32}
    (entered : (w.apply p (.fromradio frame rand)).session.state = .live) :
    Vigilant p w (.fromradio frame rand) := by
  have fed : ¬ StarvedExpiry w (.fromradio frame rand) := id
  have effect : FrameEffect p w frame.bytes rand (w.apply p (.fromradio frame rand)) :=
    frame_effect p w frame.bytes rand
  by_cases live : w.session.state = .live
  · have outside : ¬ w.session.Window := by simp [Session.Window, live]
    have shown : Kicks p w (.fromradio frame rand) ↔ Genuine p w frame.bytes := kicks_live live
    generalize after : w.apply p (.fromradio frame rand) = next at effect entered
    cases effect with
    | undecoded decoded =>
      refine vigilant_idle fed ?_ live (by rw [after]; rfl)
      rw [shown, Genuine, decoded]
      exact id
    | fetched _ _ window => exact absurd window outside
    | rebooted info decoded _ reboot =>
      have same := ((refetch_effect p w rand).stays_live entered).2
      refine vigilant_idle fed ?_ live (by rw [after, same])
      rw [shown, Genuine, decoded]
      exact fun genuine => genuine.1 reboot
    | swallowed info decoded _ status pending =>
      refine vigilant_idle fed ?_ live (by rw [after])
      rw [shown, Genuine, decoded]
      exact fun genuine => genuine.2 ⟨status, pending⟩
    | live info decoded _ plain noReboot genuine =>
      refine vigilant_set fed ?_ ?_
      · rw [shown, Genuine, decoded]
        refine ⟨noReboot, ?_⟩
        rintro ⟨status, pending⟩
        rw [genuine status] at pending
        contradiction
      · rw [after]
        show (upstreamLivenessKick w.session).livenessWork = _
        rw [liveness_kick_eq, if_pos live]
    | packet info decoded packet =>
      refine vigilant_set fed ?_ ?_
      · rw [shown, Genuine, decoded]
        simp [packet]
      · rw [after, session_dispatchPacket, liveness_kick_eq]
        exact if_pos live
  · refine vigilant_set fed (kicks_entering live entered) ?_
    generalize w.apply p (.fromradio frame rand) = next at effect entered ⊢
    cases effect with
    | undecoded => exact absurd entered live
    | fetched _ _ window _ _ effect => exact effect.kicks window entered
    | rebooted => exact absurd ((refetch_effect p w rand).stays_live entered).1 live
    | swallowed => exact absurd entered live
    | live => exact absurd (by simpa [broadcast] using entered) live
    | packet => exact absurd (by simpa using entered) live

/-- An expiry that leaves the session LIVE has met a full transmit queue, and its timer
is spent. -/
theorem expiry_vigilant (documented : p.Documented) (rand : UInt32)
    (entered : (w.apply p (.liveness rand)).session.state = .live) :
    Vigilant p w (.liveness rand) := by
  have live : w.session.state = .live := by
    by_contra down
    simp only [Proxy.apply, livenessHandler, if_pos down] at entered
    exact down entered
  have notDown : ¬ w.session.state ≠ .live := not_not_intro live
  have starved : StarvedExpiry w (.liveness rand) := by
    by_contra fed
    have unwatched := (expiry_watched_iff documented rand
      (w := { w with session := { w.session with livenessWork := none } }) rfl).mpr fed
    have watched : (w.apply p (.liveness rand)).session.livenessWork.isSome = true :=
      unwatched entered
    simp only [Proxy.apply, livenessHandler, if_neg notDown] at entered watched
    have same := ((refetch_effect p { w with session := { w.session with livenessWork := none } }
      rand).stays_live entered).2
    rw [same] at watched
    contradiction
  refine ⟨fun kicks => ?_, fun _ => ?_, fun _ fed => absurd starved fed⟩
  · rw [kicks_live live] at kicks
    exact kicks.elim
  · simp only [Proxy.apply, livenessHandler, if_neg notDown] at entered ⊢
    exact ((refetch_effect p { w with session := { w.session with livenessWork := none } }
      rand).stays_live entered).2

theorem toradio_vigilant {conn : BtConn} {buf : Bytes} {offset : Nat}
    (entered : (w.apply p (.toradioWrite conn buf offset)).session.state = .live) :
    Vigilant p w (.toradioWrite conn buf offset) := by
  have kept : (w.apply p (.toradioWrite conn buf offset)).session.state = w.session.state ∧
      (w.apply p (.toradioWrite conn buf offset)).session.livenessWork =
        w.session.livenessWork := by
    simp only [Proxy.apply, toradioWrite]
    split_ifs
    · exact ⟨rfl, rfl⟩
    · have effect := toradio_effect p w conn buf
      generalize onToradioBle p w conn buf = after at effect ⊢
      cases effect with
      | forwarded s session =>
        rcases session with rfl | rfl
        · exact ⟨rfl, rfl⟩
        · simp
      | _ => exact ⟨rfl, rfl⟩
  exact vigilant_aside entered kept.1 kept.2 trivial

theorem live_vigilant (documented : p.Documented) (settled : Settled w) (e : Event n)
    (enabled : w.enabled e) (entered : (w.apply p e).session.state = .live) :
    Vigilant p w e := by
  cases e with
  | sessionStart rand =>
    have boot := settled.unarmed enabled
    simp only [Proxy.apply, upstreamSessionStart] at entered
    split at entered
    · simp [boot] at entered
    · simp at entered
  | fromradio frame rand => exact frame_vigilant entered
  | toradioWrite conn buf offset => exact toradio_vigilant entered
  | fetchRetry =>
    have kept : (w.apply p .fetchRetry).session.state = w.session.state ∧
        (w.apply p .fetchRetry).session.livenessWork = w.session.livenessWork := by
      simp only [Proxy.apply, fetchRetryHandler]
      split_ifs <;> exact ⟨rfl, rfl⟩
    exact vigilant_aside entered kept.1 kept.2 trivial
  | keepalive =>
    have kept : (w.apply p .keepalive).session.state = w.session.state ∧
        (w.apply p .keepalive).session.livenessWork = w.session.livenessWork := by
      simp only [Proxy.apply, keepaliveWorkHandler]
      split_ifs <;> exact ⟨rfl, rfl⟩
    exact vigilant_aside entered kept.1 kept.2 trivial
  | liveness rand => exact expiry_vigilant documented rand entered
  | _ => exact vigilant_aside entered rfl rfl trivial

/-- Milliseconds since a frame last showed the session alive or brought it up, and
whether an expiry has found the transmit queue full since. -/
structure Vigil where
  quiet : Nat
  starved : Bool
  deriving DecidableEq, Repr

def Vigil.zero : Vigil := ⟨0, false⟩

def vigil (n : Nat) (p : Platform) : Observer (Proxy n) (Event n) Vigil where
  tick o := { o with quiet := o.quiet + 1 }
  act o w e :=
    if Kicks p w e then .zero
    else if StarvedExpiry w e then { o with starved := true }
    else o

/-- In LIVE, the watchdog runs out when the silence reaches its timeout, or is spent. -/
structure Attended (s : Proxy n × Vigil) : Prop where
  settled : Settled s.1
  watched : s.1.session.state = .live → s.2.starved = false →
    Timer.Meets s.1.session.livenessWork s.2.quiet UPSTREAM_LIVENESS_TIMEOUT_MS
  spent : s.1.session.state = .live → s.2.starved = true → s.1.session.livenessWork = none

theorem attended_boot : Attended (Proxy.boot n, .zero) := by
  have down : (Proxy.boot n).session.state ≠ .live := by
    simp [Proxy.boot, upstreamSetServeCb, Session.zero]
  exact ⟨settled_boot, fun live => absurd live down, fun live => absurd live down⟩

theorem attended_tick (s : Proxy n) (o : Vigil) (attended : Attended (s, o))
    (running : ¬ s.Due) : Attended (s.elapse, (vigil n p).tick o) := by
  refine ⟨settled_elapse attended.settled, fun live fed => ?_, fun live starved => ?_⟩
  · have notOut : s.session.livenessWork ≠ some 0 := fun out => running (.inr (.inr (.inl out)))
    exact (attended.watched live fed).tick notOut
  · show Timer.elapse s.session.livenessWork = none
    rw [attended.spent live starved]
    rfl

theorem attended_act (documented : p.Documented) (s : Proxy n) (o : Vigil) (e : Event n)
    (attended : Attended (s, o)) (enabled : s.enabled e) :
    Attended (s.apply p e, (vigil n p).act o s e) := by
  have settled := settled_step (p := p) s e attended.settled enabled
  have vigilant := live_vigilant documented attended.settled e enabled
  simp only [vigil]
  by_cases kicks : Kicks p s e
  · rw [if_pos kicks]
    refine ⟨settled, fun live _ => ?_, fun _ starved => Bool.noConfusion starved⟩
    show Timer.Meets (s.apply p e).session.livenessWork 0 _
    rw [(vigilant live).set kicks]
    exact Timer.meets_set _
  · rw [if_neg kicks]
    by_cases starved : StarvedExpiry s e
    · rw [if_pos starved]
      exact ⟨settled, fun _ fed => Bool.noConfusion fed, fun live _ => (vigilant live).spent starved⟩
    · rw [if_neg starved]
      refine ⟨settled, fun live fed => ?_, fun live spent => ?_⟩
      · obtain ⟨up, same⟩ := (vigilant live).kept kicks starved
        show Timer.Meets (s.apply p e).session.livenessWork o.quiet _
        rw [same]
        exact attended.watched up fed
      · obtain ⟨up, same⟩ := (vigilant live).kept kicks starved
        show (s.apply p e).session.livenessWork = none
        rw [same]
        exact attended.spent up spent

/-- In every run in time, a LIVE session has heard a genuine frame within the liveness
timeout and is taken for dead exactly when it has not, unless an expiry since that frame
found the transmit queue full: from then on nothing is scheduled to notice. -/
theorem live_session_heard (documented : p.Documented) (es : List (Ticked (Event n)))
    (runs : (timedSystem n p (vigil n p)).Runs (.boot n, .zero) es) :
    let s := (timedSystem n p (vigil n p)).run (.boot n, .zero) es
    s.1.session.state = .live →
      (s.2.starved = true ∧ s.1.session.livenessWork = none) ∨
        (s.2.starved = false ∧ s.2.quiet ≤ UPSTREAM_LIVENESS_TIMEOUT_MS ∧
          ∀ rand, (timedSystem n p (vigil n p)).enabled s (.act (.liveness rand)) ↔
            s.2.quiet = UPSTREAM_LIVENESS_TIMEOUT_MS) := by
  intro s live
  have attended : Attended s := Machine.timed_invariant attended_tick
    (fun s o e attended enabled _ => attended_act documented s o e attended enabled)
    es attended_boot runs
  cases starved : s.2.starved with
  | true => exact .inl ⟨rfl, attended.spent live starved⟩
  | false =>
    have meets := attended.watched live starved
    obtain ⟨left, running, sum⟩ := attended.watched live starved
    refine .inr ⟨rfl, by omega, fun rand => ?_⟩
    constructor
    · exact fun timely => meets.out timely.2
    · intro whole
      obtain rfl : left = 0 := by omega
      have pending : s.1.session.livenessWork.isSome = true := by
        rw [running]
        rfl
      exact ⟨pending, running⟩

/-- The session comes up and two milliseconds of silence follow. -/
def quietNode : List (Ticked (Event 0)) :=
  [.act (.sessionStart 5), .act (.txWork false), .act (.fromradio (.of 0x38 [5]) 0), .tick, .tick]

theorem quiet_node_attended :
    let s := (timedSystem 0 .wire (vigil 0 .wire)).run (.boot 0, .zero) quietNode
    s.1.session.state = .live ∧ s.2 = ⟨2, false⟩ ∧
      ¬ (timedSystem 0 .wire (vigil 0 .wire)).enabled s (.act (.liveness 8)) := by
  intro s
  have seen : s.2 = ⟨2, false⟩ := by decide
  have live : s.1.session.state = .live := by decide
  refine ⟨live, seen, fun early => ?_⟩
  rcases live_session_heard wire_documented quietNode (by decide) live with
    ⟨starved, _⟩ | ⟨_, _, expires⟩
  · rw [seen] at starved
    contradiction
  · have whole := (expires 8).mp early
    rw [seen] at whole
    exact absurd whole (by decide)

end MeshPbx
