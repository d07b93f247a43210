import MeshPbx.Masking

/-! The proxy's own heartbeat and the queueStatus the node answers it with. One
flag pairs the two: the keepalive sets it, the router clears it. The frames of a
fetch take another path, on which nobody looks at the flag. -/
namespace MeshPbx
variable {n : Nat} {p : Platform} {w : Proxy n}

/-- The mark the keepalive leaves: the reply to its heartbeat is still to come,
or the mark is orphaned because no reply will clear it any more. -/
inductive Mark where
  | idle | owed | orphaned
  deriving DecidableEq, Repr

/-- What happens at the proxy, with the node's part told apart. A keepalive
says whether the node will receive the heartbeat if it is queued. -/
inductive Exchange (n : Nat) where
  | beat (received : Bool)
  | answer (frame : Frame) (rand : UInt32)
  | other (e : Event n)

namespace Exchange

def event : Exchange n → Event n
  | .beat _ => .keepalive
  | .answer frame rand => .fromradio frame rand
  | .other e => e

end Exchange

def IsQueueStatus (p : Platform) (e : Event n) : Prop :=
  e.Delivers fun frame => DecodesAs p .queueStatus frame.bytes

instance (e : Event n) : Decidable (IsQueueStatus p e) :=
  inferInstanceAs (Decidable (e.Delivers _))

def isKeepalive : Event n → Bool
  | .keepalive => true
  | _ => false

/-- The node answers each heartbeat it receives with one queueStatus, before the
next keepalive and with no other queueStatus in between. -/
def Allowed (p : Platform) (mark : Mark) : Exchange n → Prop
  | .beat _ => mark ≠ .owed
  | .answer frame _ => mark = .owed ∧ DecodesAs p .queueStatus frame.bytes
  | .other e => isKeepalive e = false ∧ (IsQueueStatus p e → mark ≠ .owed)

instance (mark : Mark) : (x : Exchange n) → Decidable (Allowed p mark x)
  | .beat _ => inferInstanceAs (Decidable (_ ≠ _))
  | .answer _ _ => inferInstanceAs (Decidable (_ ∧ _))
  | .other _ => inferInstanceAs (Decidable (_ ∧ _))

/-- A queueStatus outside a fetch clears the mark, whichever it is; one inside a
fetch does not look at it. -/
def markAfter (p : Platform) (w : Proxy n) (mark : Mark) : Exchange n → Mark
  | .beat received =>
    if w.uart.txMsgq.length < TX_QUEUE_DEPTH then if received then .owed else .orphaned else .idle
  | .answer _ _ => if w.session.Window then .orphaned else .idle
  | .other e => if IsQueueStatus p e ∧ ¬ w.session.Window then .idle else mark

def answering (n : Nat) (p : Platform) : Machine (Proxy n × Mark) (Exchange n) where
  enabled s x := s.1.enabled x.event ∧ Allowed p s.2 x
  next s x := (s.1.apply p x.event, markAfter p s.1 s.2 x)

instance (s : Proxy n × Mark) (x : Exchange n) : Decidable ((answering n p).enabled s x) :=
  inferInstanceAs (Decidable (_ ∧ _))

/-! What a queueStatus does, and what else touches the flag. -/

/-- The four paths of a queueStatus. -/
theorem queue_status_frame {bytes : Bytes} (status : DecodesAs p .queueStatus bytes)
    (rand : UInt32) :
    onFromradioUart p w bytes rand =
      if w.session.state = .fetching then
        { w with
          cache := (cacheAddFrame w.cache bytes .queueStatus).1
          session := w.session.retryArmed }
      else if w.session.state = .refetching then { w with session := w.session.retryArmed }
      else if w.session.keepalivePending = true then
        { w with session := { w.session with keepalivePending := false } }
      else broadcast { w with session := upstreamLivenessKick w.session } bytes := by
  have effect := frame_effect p w bytes rand
  generalize onFromradioUart p w bytes rand = after at effect ⊢
  have variant : ∀ {info}, protoDecodeFromradio p bytes = some info →
      info.whichVariant = .queueStatus := fun decoded => (decodes_as_variant decoded).mp status
  cases effect with
  | undecoded none =>
    obtain ⟨info, decoded, _⟩ := decodes_as_info status
    simp [decoded] at none
  | fetched info decoded window plain after effect =>
    cases effect with
    | stored keeps =>
      rcases keeps with ⟨terminator, _⟩ | ⟨_, fetching⟩
      · simp [variant decoded] at terminator
      · rw [if_pos fetching, variant decoded]
    | discarded refetching =>
      rw [if_neg (by simp [refetching]), if_pos refetching]
    | published _ terminator => simp [variant decoded] at terminator
    | resumed _ terminator => simp [variant decoded] at terminator
  | rebooted info decoded _ reboot => simp [variant decoded] at reboot
  | swallowed info decoded outside _ pending =>
    obtain ⟨notFetching, notRefetching⟩ := not_or.mp outside
    rw [if_neg notFetching, if_neg notRefetching, if_pos pending]
  | live info decoded outside _ _ genuine =>
    obtain ⟨notFetching, notRefetching⟩ := not_or.mp outside
    have clear := genuine (variant decoded)
    rw [if_neg notFetching, if_neg notRefetching, if_neg (by simp [clear])]
  | packet info decoded packet => simp [variant decoded] at packet

theorem queue_status_pending {bytes : Bytes} (status : DecodesAs p .queueStatus bytes)
    (rand : UInt32) :
    (onFromradioUart p w bytes rand).session.keepalivePending =
      (w.session.keepalivePending && decide w.session.Window) := by
  rw [queue_status_frame status]
  split_ifs with fetching refetching pending
  · simp [Session.Window, Session.retryArmed, fetching]
  · simp [Session.Window, Session.retryArmed, refetching]
  · simp [Session.Window, fetching, refetching]
  · simp [broadcast, pending]

/-- Every other handler but the keepalive leaves the flag alone. -/
theorem keepalive_pending_kept {e : Event n} (beat : e ≠ .keepalive)
    (plain : ¬ IsQueueStatus p e) :
    (w.apply p e).session.keepalivePending = w.session.keepalivePending := by
  have refetch : ∀ (w : Proxy n) (rand : UInt32),
      (upstreamRefetch p w rand).session.keepalivePending = w.session.keepalivePending := by
    intro w rand
    have effect := refetch_effect p w rand
    generalize upstreamRefetch p w rand = after at effect ⊢
    cases effect with
    | started => simp
    | _ => rfl
  cases e with
  | keepalive => exact absurd rfl beat
  | sessionStart rand =>
    simp only [Proxy.apply, upstreamSessionStart]
    split <;> rfl
  | fromradio frame rand =>
    have effect := frame_effect p w frame.bytes rand
    change (onFromradioUart p w frame.bytes rand).session.keepalivePending = _
    generalize onFromradioUart p w frame.bytes rand = after at effect ⊢
    cases effect with
    | undecoded => rfl
    | fetched _ _ _ _ _ effect => cases effect <;> rfl
    | rebooted => exact refetch w rand
    | swallowed _ decoded _ status => exact absurd ((decodes_as_variant decoded).mpr status) plain
    | live => simp [broadcast]
    | packet => simp
  | toradioWrite conn buf offset =>
    simp only [Proxy.apply, toradioWrite]
    split_ifs
    · rfl
    · have effect := toradio_effect p w conn buf
      generalize onToradioBle p w conn buf = after at effect ⊢
      cases effect with
      | forwarded s session =>
        rcases session with rfl | rfl
        · rfl
        · simp
      | _ => rfl
  | fetchRetry =>
    simp only [Proxy.apply, fetchRetryHandler]
    split_ifs <;> rfl
  | liveness rand =>
    simp only [Proxy.apply, livenessHandler]
    split_ifs
    · rfl
    · exact refetch _ rand
  | _ => rfl

/-- The keepalive sets the flag exactly when the heartbeat is queued. -/
theorem keepalive_pending_beat (documented : p.Documented) :
    (w.apply p .keepalive).session.keepalivePending =
      decide (w.uart.txMsgq.length < TX_QUEUE_DEPTH) := by
  have short : (p.toRadioBytes (.heartbeat w.session.keepaliveNonce)).length ≤
      MESHTASTIC_MAX_PAYLOAD := (documented.heartbeat_fits _).trans (by decide)
  have sent := uart_tx_sent w.uart short
  have effect := keepalive_effect documented
    { w with session := { w.session with keepaliveWork := none } }
  simp only [Proxy.apply]
  generalize keepaliveWorkHandler p _ = after at effect ⊢
  cases effect with
  | sent _ queued => exact (decide_eq_true (sent.mp queued)).symm
  | failed _ _ refused => exact (decide_eq_false (fun room => refused (sent.mpr room))).symm

/-! The flag says what the mark says. -/

def Marked (s : Proxy n × Mark) : Prop := s.1.session.keepalivePending = true ↔ s.2 ≠ .idle

theorem marked_step (documented : p.Documented) (s : Proxy n × Mark) (x : Exchange n)
    (marked : Marked s) (enabled : (answering n p).enabled s x) :
    Marked ((answering n p).next s x) := by
  obtain ⟨w, mark⟩ := s
  have flag : w.session.keepalivePending = true ↔ mark ≠ .idle := marked
  cases x with
  | beat received =>
    change (w.apply p .keepalive).session.keepalivePending = true ↔ _
    rw [keepalive_pending_beat documented]
    simp only [answering, markAfter]
    split_ifs with room
    · simp [room]
    · simp [room]
    · simp [room]
  | answer frame rand =>
    have owed : mark = .owed := enabled.2.1
    have pending := flag.mpr (by simp [owed])
    change (onFromradioUart p w frame.bytes rand).session.keepalivePending = true ↔ _
    rw [queue_status_pending enabled.2.2, pending]
    simp only [answering, markAfter]
    split_ifs with window
    · simp [window]
    · simp [window]
  | other e =>
    by_cases status : IsQueueStatus p e
    · cases e with
      | fromradio frame rand =>
        change (onFromradioUart p w frame.bytes rand).session.keepalivePending = true ↔ _
        rw [queue_status_pending status]
        simp only [answering, markAfter, status, true_and]
        by_cases window : w.session.Window
        · simpa [window] using flag
        · simp [window]
      | _ => exact absurd status id
    · have beat : e ≠ .keepalive := by
        rintro rfl
        exact Bool.noConfusion enabled.2.1
      change (w.apply p e).session.keepalivePending = true ↔ _
      rw [keepalive_pending_kept beat status]
      simpa [answering, markAfter, status] using flag

theorem marked_boot : Marked (Proxy.boot n, .idle) := by
  simp [Marked, Proxy.boot, upstreamSetServeCb, Session.zero]

/-! Isolation. -/

def Proxy.withLiveness (w : Proxy n) (timer : Delayable) : Proxy n :=
  { w with session := { w.session with livenessWork := timer } }

/-- The frame changes no slot and no cached frame, and leaves the liveness
timer as it was, whatever it was. -/
structure Inert (p : Platform) (w : Proxy n) (frame : Frame) (rand : UInt32) : Prop where
  slots : (w.apply p (.fromradio frame rand)).gatt = w.gatt
  cached : (w.apply p (.fromradio frame rand)).cache = w.cache
  unkicked : ∀ timer,
    ((w.withLiveness timer).apply p (.fromradio frame rand)).session.livenessWork = timer

/-- A keepalive's reply is inert; any other queueStatus of a LIVE session kicks
the liveness timer and is broadcast. -/
def Isolated (p : Platform) (s : Proxy n × Mark) : Exchange n → Prop
  | .answer frame rand => Inert p s.1 frame rand
  | .other (.fromradio frame rand) =>
    s.1.session.state = .live → DecodesAs p .queueStatus frame.bytes →
      s.1.apply p (.fromradio frame rand) =
        broadcast { s.1 with session := upstreamLivenessKick s.1.session } frame.bytes
  | _ => True

/-- The boot fetch stores the reply, or an orphaned mark takes a LIVE session's
queueStatus for it. -/
def Mistaken (p : Platform) (s : Proxy n × Mark) : Exchange n → Prop
  | .beat _ => False
  | .answer frame _ => s.1.session.state = .fetching ∧ s.1.cache.Room frame.bytes
  | .other e => s.1.session.state = .live ∧ s.2 = .orphaned ∧ IsQueueStatus p e

instance (s : Proxy n × Mark) : (x : Exchange n) → Decidable (Mistaken p s x)
  | .beat _ => inferInstanceAs (Decidable False)
  | .answer _ _ => inferInstanceAs (Decidable (_ ∧ _))
  | .other _ => inferInstanceAs (Decidable (_ ∧ _))

theorem inert_iff {frame : Frame} (status : DecodesAs p .queueStatus frame.bytes)
    (pending : w.session.keepalivePending = true) (rand : UInt32) :
    Inert p w frame rand ↔ ¬ (w.session.state = .fetching ∧ w.cache.Room frame.bytes) := by
  constructor
  · rintro inert ⟨fetching, room⟩
    have count := congrArg ConfigCache.count inert.cached
    rw [Proxy.apply, queue_status_frame status, if_pos fetching, ConfigCache.add_room room] at count
    simp at count
  · intro dropped
    refine ⟨?_, ?_, fun timer => ?_⟩
    · rw [Proxy.apply, queue_status_frame status]
      split_ifs <;> rfl
    · rw [Proxy.apply, queue_status_frame status]
      split_ifs with fetching
      · rw [ConfigCache.add_full (fun room => dropped ⟨fetching, room⟩)]
      · rfl
      · rfl
    · have marked : (w.withLiveness timer).session.keepalivePending = true := pending
      rw [Proxy.apply, queue_status_frame status]
      split_ifs <;> rfl

/-- In LIVE the flag alone decides whether a queueStatus is relayed. -/
theorem relayed_iff {frame : Frame} (status : DecodesAs p .queueStatus frame.bytes)
    (live : w.session.state = .live) (rand : UInt32) :
    w.apply p (.fromradio frame rand) =
        broadcast { w with session := upstreamLivenessKick w.session } frame.bytes ↔
      w.session.keepalivePending = false := by
  rw [Proxy.apply, queue_status_frame status, if_neg (by simp [live]), if_neg (by simp [live])]
  cases pending : w.session.keepalivePending with
  | false => simp
  | true =>
    simp only [if_true, Bool.true_eq_false, iff_false]
    intro same
    have flags := congrArg (·.session.keepalivePending) same
    simp [broadcast, pending] at flags

theorem isolated_step (s : Proxy n × Mark) (x : Exchange n) (marked : Marked s)
    (enabled : (answering n p).enabled s x) : Isolated p s x ↔ ¬ Mistaken p s x := by
  obtain ⟨w, mark⟩ := s
  have flag : w.session.keepalivePending = true ↔ mark ≠ .idle := marked
  cases x with
  | beat received => exact iff_of_true trivial id
  | answer frame rand =>
    have owed : mark = .owed := enabled.2.1
    exact inert_iff enabled.2.2 (flag.mpr (by simp [owed])) rand
  | other e =>
    cases e with
    | fromradio frame rand =>
      constructor
      · rintro isolated ⟨live, orphaned, status⟩
        have clear := (relayed_iff status live rand).mp (isolated live status)
        have pending : w.session.keepalivePending = true :=
          flag.mpr (by rw [show mark = .orphaned from orphaned]; decide)
        rw [clear] at pending
        contradiction
      · intro clean live status
        apply (relayed_iff status live rand).mpr
        have notOwed : mark ≠ .owed := enabled.2.2 status
        have notOrphaned : mark ≠ .orphaned := fun orphaned => clean ⟨live, orphaned, status⟩
        have idle : mark = .idle := by
          cases mark with
          | idle => rfl
          | owed => exact absurd rfl notOwed
          | orphaned => exact absurd rfl notOrphaned
        simpa [idle] using flag
    | _ => exact iff_of_true trivial (fun mistaken => mistaken.2.2)

/-- In every run of an answering node, all replies are inert and every other
queueStatus of a LIVE session is relayed, exactly when no reply is stored by the
boot fetch and none of the others meets an orphaned mark. -/
theorem keepalive_isolated_iff (documented : p.Documented) (es : List (Exchange n))
    (runs : (answering n p).Runs (.boot n, .idle) es) :
    (answering n p).Along (Isolated p) (.boot n, .idle) es ↔
      (answering n p).Along (fun s x => ¬ Mistaken p s x) (.boot n, .idle) es :=
  Machine.along_iff (marked_step documented) isolated_step es marked_boot runs

/-- A heartbeat of a LIVE session and its reply, then a queueStatus that answers
a phone's packet. -/
def pairedSchedule : List (Exchange 1) :=
  [.other (.sessionStart 5), .other (.txWork false), .other (.txEnd false),
    .other (.fromradio (.of 0x38 [5]) 0), .other (.connected 7 false),
    .beat true, .other (.txWork false),
    .answer (.of 0x5a [4, 0x10, 16, 0x18, 16]) 0,
    .other (.fromradio (.of 0x5a [4, 0x10, 16, 0x18, 16]) 0)]

theorem live_reply_isolated :
    (answering 1 .wire).Along (Isolated .wire) (.boot 1, .idle) pairedSchedule :=
  (keepalive_isolated_iff wire_documented pairedSchedule (by decide)).mpr (by decide)

/-- The node is silent until the keepalive fires in the boot fetch: its reply is
cached, and the mark it leaves behind is still there when the session is LIVE. -/
def lateSchedule : List (Exchange 1) :=
  [.other (.sessionStart 5), .other (.txWork false), .other (.txEnd false), .beat true,
    .other (.txWork false), .answer (.of 0x5a [4, 0x10, 16, 0x18, 16]) 0,
    .other (.fromradio (.of 0x38 [5]) 0), .other (.connected 7 false),
    .other (.toradioWrite 7 [0x18, 9] 0)]

/-- The reply is replayed to the phone, and the next queueStatus is swallowed in
its place. -/
theorem fetching_reply_replayed :
    ∃ w mark, (answering 1 .wire).Reachable (.boot 1, .idle) (w, mark) ∧
      Served w 7 (.cached 0) [0x5a, 4, 0x10, 16, 0x18, 16] ∧ w.session.state = .live ∧
      (answering 1 .wire).enabled (w, mark)
        (.other (.fromradio (.of 0x5a [4, 0x10, 16, 0x18, 16]) 0)) ∧
      ((w.apply .wire (.fromradio (.of 0x5a [4, 0x10, 16, 0x18, 16]) 0)).gatt.conns
        0).queued = (w.gatt.conns 0).queued :=
  ⟨((answering 1 .wire).run (.boot 1, .idle) lateSchedule).1,
    ((answering 1 .wire).run (.boot 1, .idle) lateSchedule).2,
    ⟨lateSchedule, by decide, rfl⟩, by decide, by decide, by decide, by decide⟩

end MeshPbx
