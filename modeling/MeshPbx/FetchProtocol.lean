import MeshPbx.SessionInvariant
import MeshPbx.WireFormat

/-! The boot fetch as a message-passing protocol. The want_config and its
retries travel to the node, the bursts travel back, both in order and without
loss but with any delay; a retry reuses the nonce and empties the cache. -/
namespace MeshPbx
variable {n : Nat} {p : Platform}

/-- The node: the burst it answers every want_config with, and its encoding of
the closing config_complete. -/
structure Node (p : Platform) where
  burst : List Bytes
  terminator : UInt32 → Bytes
  frames : ∀ frame ∈ burst, ∃ info, protoDecodeFromradio p frame = some info ∧
    info.whichVariant ≠ .packet
  terminates : ∀ nonce, decodeConfigCompleteNonce p (terminator nonce) = some nonce

def Node.reply (node : Node p) (nonce : UInt32) : List Bytes :=
  node.burst ++ [node.terminator nonce]

/-- What the node sends back for one received message. -/
def Node.answer (node : Node p) (message : Bytes) : List Bytes :=
  match p.decodeToRadio message with
  | some toradio =>
    if toradio.whichPayloadVariant = .wantConfigId then node.reply toradio.wantConfigId else []
  | none => []

/-- The proxy, the messages on their way to the node and the frames on their
way back. -/
structure FetchNet (n : Nat) where
  proxy : Proxy n
  wire : List Bytes
  down : List Bytes

inductive FetchEvent where
  | start (rand : UInt32)
  | fetchRetry
  | txWork
  | txEnd
  | answer
  | deliver
  deriving DecidableEq, Repr

namespace FetchNet

def boot (n : Nat) : FetchNet n := { proxy := .boot n, wire := [], down := [] }

def enabled (s : FetchNet n) : FetchEvent → Prop
  | .start _ => s.proxy.session.keepaliveArmed = false
  | .fetchRetry => s.proxy.session.fetchRetryWork.isSome
  | .txWork => s.proxy.uart.txWork = true
  | .txEnd => s.proxy.uart.outstanding.isSome
  | .answer => s.wire ≠ []
  | .deliver => s.down ≠ []

instance (s : FetchNet n) (e : FetchEvent) : Decidable (s.enabled e) := by
  cases e <;> unfold enabled <;> infer_instance

/-- `upstream_on_fromradio` as the router calls it, on a frame that decodes. -/
def receive (p : Platform) (w : Proxy n) (frame : Bytes) : Proxy n :=
  match protoDecodeFromradio p frame with
  | none => w
  | some info => (upstreamOnFromradio p w frame info).1

def next (node : Node p) (s : FetchNet n) : FetchEvent → FetchNet n
  | .start rand => { s with proxy := upstreamSessionStart p s.proxy rand }
  | .fetchRetry =>
    let idle := { s.proxy.session with fetchRetryWork := none }
    { s with proxy := fetchRetryHandler p { s.proxy with session := idle } }
  | .txWork =>
    let uart := s.proxy.uart
    { s with
      proxy := { s.proxy with uart := txWorkHandler { uart with txWork := false } false }
      wire := s.wire ++ if uart.txInProgress then [] else uart.txMsgq.take 1 }
  | .txEnd => { s with proxy := { s.proxy with uart := uartCbTxEnd s.proxy.uart } }
  | .answer =>
    { s with wire := s.wire.tail, down := s.down ++ s.wire.head?.elim [] node.answer }
  | .deliver =>
    { s with proxy := s.down.head?.elim s.proxy (receive p s.proxy), down := s.down.tail }

/-- The frames still to arrive if no further want_config is sent. -/
def stream (node : Node p) (s : FetchNet n) : List Bytes :=
  s.down ++ (s.wire ++ s.proxy.uart.txMsgq).flatMap node.answer

end FetchNet

def fetchNet (n : Nat) (node : Node p) : Machine (FetchNet n) FetchEvent where
  enabled := FetchNet.enabled
  next := FetchNet.next node

instance (node : Node p) (s : FetchNet n) (e : FetchEvent) :
    Decidable ((fetchNet n node).enabled s e) :=
  inferInstanceAs (Decidable (s.enabled e))

/-- A retry that expires during the boot fetch finds nothing cached yet. -/
def RetryMeetsEmpty (s : FetchNet n) (e : FetchEvent) : Prop :=
  match e with
  | .fetchRetry => s.proxy.session.state = .fetching → cacheFrameCount s.proxy.cache = 0
  | _ => True

instance (s : FetchNet n) (e : FetchEvent) : Decidable (RetryMeetsEmpty s e) := by
  cases e <;> unfold RetryMeetsEmpty <;> infer_instance

/-! Streams of repeated bursts. -/

section
variable {α : Type} {burst rest : List α} {x : α} {t j : Nat}

def repeated (burst : List α) (t : Nat) : List α := (List.replicate t burst).flatten

theorem repeated_succ (burst : List α) (t : Nat) :
    repeated burst (t + 1) = repeated burst t ++ burst := by
  simp [repeated, List.replicate_succ']

/-- Behind the first `j` elements of a stream of bursts comes element `j`. -/
theorem next_of_repeated (inside : j < burst.length)
    (whole : burst.take j ++ x :: rest = repeated burst t) :
    burst[j]? = some x ∧ burst.take (j + 1) ++ rest = repeated burst t := by
  have position : (burst.take j ++ x :: rest)[j]? = some x := by
    rw [List.getElem?_append_right (by simp)]
    simp [Nat.min_eq_left (Nat.le_of_lt inside)]
  have first : burst[j]? = some x := by
    cases t with
    | zero => simp [repeated] at whole
    | succ t =>
      rw [whole, repeated, List.replicate_succ, List.flatten_cons,
        List.getElem?_append_left inside] at position
      exact position
  refine ⟨first, ?_⟩
  rw [← whole, List.take_add_one, first]
  simp

end

/-! How the handlers move the stream. -/

def sessionNonce (rand : UInt32) : UInt32 := if reservedNonce rand then 2 else rand

theorem answer_want_config (documented : p.Documented) (node : Node p) (nonce : UInt32) :
    node.answer (p.toRadioBytes (.wantConfig nonce)) = node.reply nonce := by
  rw [Node.answer, documented.wantConfig_decodes nonce]
  simp [ToRadio.wantConfig]

/-- Sending a want_config leaves the stream alone or appends one more reply. -/
theorem stream_want_config (documented : p.Documented) (node : Node p) (s s' : FetchNet n)
    (nonce : UInt32) (down : s'.down = s.down) (wire : s'.wire = s.wire)
    (uart : s'.proxy.uart = (uartMeshtasticTx s.proxy.uart (p.toRadioBytes (.wantConfig nonce))).1) :
    s'.stream node = s.stream node ∨ s'.stream node = s.stream node ++ node.reply nonce := by
  rcases uart_tx_queue s.proxy.uart (p.toRadioBytes (.wantConfig nonce)) with same | queued
  · refine .inl ?_
    simp only [FetchNet.stream, down, wire, uart, same]
  · refine .inr ?_
    simp only [FetchNet.stream, down, wire, uart, queued, List.flatMap_append,
      List.flatMap_singleton, answer_want_config documented, List.append_assoc]

theorem stream_tx_work (node : Node p) (s : FetchNet n) :
    ((fetchNet n node).next s .txWork).stream node = s.stream node := by
  simp only [fetchNet, FetchNet.next, FetchNet.stream, txWorkHandler]
  cases progress : s.proxy.uart.txInProgress with
  | true => simp
  | false =>
    cases queue : s.proxy.uart.txMsgq with
    | nil => simp
    | cons entry rest => simp

theorem stream_answer (node : Node p) (s : FetchNet n) :
    ((fetchNet n node).next s .answer).stream node = s.stream node := by
  cases wire : s.wire with
  | nil => simp [fetchNet, FetchNet.next, FetchNet.stream, wire]
  | cons message rest => simp [fetchNet, FetchNet.next, FetchNet.stream, wire]

/-! The fetch in progress. -/

/-- The session nonce is the one picked at the start. -/
def Drawn (es : List FetchEvent) (s : FetchNet n) : Prop :=
  ∃ rand, FetchEvent.start rand ∈ es ∧ s.proxy.session.nonce = sessionNonce rand

/-- `j` frames of the burst have arrived; the cache holds those behind the
first `d`, and has lost none exactly when every retry met it empty. -/
structure Collecting (node : Node p) (es : List FetchEvent) (s : FetchNet n) (j d t : Nat) :
    Prop where
  fetching : s.proxy.session.state = .fetching
  armed : s.proxy.session.keepaliveArmed = true
  unpublished : s.proxy.cache.ready = false
  drawn : Drawn es s
  packed : s.proxy.cache.Packed
  dropped : d ≤ j
  arrived : j ≤ node.burst.length
  held : s.proxy.cache.frames.map Prod.fst = (node.burst.take j).drop d
  coming : (node.reply s.proxy.session.nonce).take j ++ s.stream node =
    repeated (node.reply s.proxy.session.nonce) t
  clean : d = 0 ↔ (fetchNet n node).Along RetryMeetsEmpty (.boot n) es

/-- The cache is published with what is left behind the first `d` frames. -/
structure Published (node : Node p) (es : List FetchEvent) (s : FetchNet n) (d : Nat) : Prop where
  live : s.proxy.session.state = .live
  armed : s.proxy.session.keepaliveArmed = true
  dropped : d ≤ node.burst.length
  held : s.proxy.cache.frames.map Prod.fst = node.burst.drop d
  clean : d = 0 ↔ (fetchNet n node).Along RetryMeetsEmpty (.boot n) es

def Progress (node : Node p) (es : List FetchEvent) (s : FetchNet n) : Prop :=
  (es = [] ∧ s = .boot n) ∨ (∃ j d t, Collecting node es s j d t) ∨ ∃ d, Published node es s d

variable {node : Node p} {es : List FetchEvent} {s s' : FetchNet n} {j d t : Nat}

theorem Drawn.snoc (drawn : Drawn es s) (e : FetchEvent)
    (nonce : s'.proxy.session.nonce = s.proxy.session.nonce) : Drawn (es ++ [e]) s' := by
  obtain ⟨rand, member, same⟩ := drawn
  exact ⟨rand, List.mem_append_left _ member, by rw [nonce, same]⟩

/-- A step that leaves the session and the cache alone, and the stream as it
was. -/
theorem Collecting.quiet (collecting : Collecting node es s j d t) (e : FetchEvent)
    (meets : RetryMeetsEmpty s e) (ran : (fetchNet n node).run (.boot n) es = s)
    (session : ((fetchNet n node).next s e).proxy.session = s.proxy.session)
    (cache : ((fetchNet n node).next s e).proxy.cache = s.proxy.cache)
    (stream : ((fetchNet n node).next s e).stream node = s.stream node) :
    Collecting node (es ++ [e]) ((fetchNet n node).next s e) j d t := by
  have clean : d = 0 ↔ (fetchNet n node).Along RetryMeetsEmpty (.boot n) (es ++ [e]) := by
    rw [Machine.along_snoc, ran]
    exact collecting.clean.trans (and_iff_left meets).symm
  refine ⟨by rw [session, collecting.fetching], by rw [session, collecting.armed],
    by rw [cache, collecting.unpublished], collecting.drawn.snoc e (by rw [session]), ?_,
    collecting.dropped, collecting.arrived, by rw [cache, collecting.held], ?_, clean⟩
  · rw [cache]
    exact collecting.packed
  · rw [session, stream]
    exact collecting.coming

/-- A retry forgets everything that has arrived and asks again. -/
theorem Collecting.retry (documented : p.Documented) (collecting : Collecting node es s j d t)
    (ran : (fetchNet n node).run (.boot n) es = s) :
    ∃ t', Collecting node (es ++ [.fetchRetry]) ((fetchNet n node).next s .fetchRetry) j j t' := by
  have result : ((fetchNet n node).next s .fetchRetry).proxy =
      { s.proxy with
        cache := cacheBegin s.proxy.cache
        uart := (uartMeshtasticTx s.proxy.uart
          (p.toRadioBytes (.wantConfig s.proxy.session.nonce))).1
        session := s.proxy.session.retryArmed } :=
    fetch_retry_fetching documented collecting.fetching
  have count : cacheFrameCount s.proxy.cache = j - d := by
    have length := congrArg List.length collecting.held
    simpa [cacheFrameCount, Nat.min_eq_left collecting.arrived] using length
  have clean : j = 0 ↔ (fetchNet n node).Along RetryMeetsEmpty (.boot n) (es ++ [.fetchRetry]) := by
    rw [Machine.along_snoc, ran, ← collecting.clean]
    simp only [RetryMeetsEmpty, collecting.fetching, true_implies, count]
    have := collecting.dropped
    omega
  have stream := stream_want_config documented node s ((fetchNet n node).next s .fetchRetry)
    s.proxy.session.nonce rfl rfl (by rw [result])
  have coming : ∃ t', (node.reply s.proxy.session.nonce).take j ++
      ((fetchNet n node).next s .fetchRetry).stream node =
      repeated (node.reply s.proxy.session.nonce) t' := by
    rcases stream with same | longer
    · exact ⟨t, by rw [same, collecting.coming]⟩
    · exact ⟨t + 1, by rw [longer, ← List.append_assoc, collecting.coming, repeated_succ]⟩
  obtain ⟨t', coming⟩ := coming
  refine ⟨t', ?_, ?_, ?_, ?_, ?_, Nat.le_refl j, collecting.arrived, ?_, ?_, clean⟩
  · rw [result]
    exact collecting.fetching
  · rw [result]
    exact collecting.armed
  · rw [result]
    rfl
  · exact collecting.drawn.snoc _ (by rw [result]; rfl)
  · rw [result]
    exact ConfigCache.packed_begin _
  · rw [result]
    simp
  · rw [result]
    exact coming

theorem terminator_info {frame : Bytes} {nonce : UInt32}
    (terminates : decodeConfigCompleteNonce p frame = some nonce) :
    ∃ info, protoDecodeFromradio p frame = some info ∧ info.whichVariant = .configCompleteId := by
  obtain ⟨message, decoded, matched⟩ := Option.bind_eq_some_iff.mp terminates
  split_ifs at matched with variant
  have plain : message.whichPayloadVariant ≠ .packet := by simp [variant]
  refine ⟨{ whichVariant := message.whichPayloadVariant }, ?_, variant⟩
  simp only [protoDecodeFromradio, decoded, Option.map_some, if_pos plain]

/-- A burst frame that arrives in the fetch is stored. -/
theorem receive_frame {w : Proxy n} {frame : Bytes} (fetching : w.session.state = .fetching)
    (member : frame ∈ node.burst)
    (foreign : decodeConfigCompleteNonce p frame ≠ some w.session.nonce) :
    ∃ variant, FetchNet.receive p w frame =
      { w with
        cache := (cacheAddFrame w.cache frame variant).1
        session := w.session.retryArmed } := by
  obtain ⟨info, decoded, plain⟩ := node.frames frame member
  have effect := (fetch_effect p frame (.inl fetching) plain).2
  simp only [FetchNet.receive, decoded]
  generalize (upstreamOnFromradio p w frame info).1 = after at effect ⊢
  cases effect with
  | stored => exact ⟨info.whichVariant, rfl⟩
  | discarded refetching => simp [fetching] at refetching
  | published _ _ ours => exact absurd ours foreign
  | resumed _ _ ours => exact absurd ours foreign

/-- The session's own terminator publishes the cache as it stands. -/
theorem receive_terminator {w : Proxy n} {frame : Bytes}
    (fetching : w.session.state = .fetching)
    (ours : decodeConfigCompleteNonce p frame = some w.session.nonce) :
    (FetchNet.receive p w frame).session.state = .live ∧
      (FetchNet.receive p w frame).session.keepaliveArmed = w.session.keepaliveArmed ∧
      (FetchNet.receive p w frame).cache = cacheMarkReady w.cache := by
  obtain ⟨info, decoded, variant⟩ := terminator_info ours
  have plain : info.whichVariant ≠ .packet := by simp [variant]
  have effect := (fetch_effect p frame (.inl fetching) plain).2
  simp only [FetchNet.receive, decoded]
  generalize (upstreamOnFromradio p w frame info).1 = after at effect ⊢
  cases effect with
  | stored keeps =>
    rcases keeps with ⟨_, foreign⟩ | ⟨other, _⟩
    · exact absurd ours foreign
    · exact absurd variant other
  | discarded refetching => simp [fetching] at refetching
  | published => exact ⟨rfl, rfl, rfl⟩
  | resumed refetching => simp [fetching] at refetching

/-- What is cached of a burst that fits leaves room for its next frame. -/
theorem Collecting.room (collecting : Collecting node es s j d t)
    (count : node.burst.length ≤ CONFIG_CACHE_MAX_FRAMES)
    (bytes : (node.burst.map List.length).sum ≤ CONFIG_CACHE_ARENA_BYTES) {frame : Bytes}
    (next : node.burst[j]? = some frame) : s.proxy.cache.Room frame := by
  obtain ⟨inside, rfl⟩ := List.getElem?_eq_some_iff.mp next
  have held := congrArg List.length collecting.held
  have stored : s.proxy.cache.used = (((node.burst.take j).drop d).map List.length).sum := by
    rw [collecting.packed.used_eq, ← collecting.held, List.map_map]
    rfl
  have whole : (node.burst.map List.length).sum =
      ((node.burst.take j).map List.length).sum + ((node.burst.drop j).map List.length).sum := by
    rw [← List.sum_append, ← List.map_append, List.take_append_drop]
  have kept : ((node.burst.take j).map List.length).sum =
      (((node.burst.take j).take d).map List.length).sum +
        (((node.burst.take j).drop d).map List.length).sum := by
    rw [← List.sum_append, ← List.map_append, List.take_append_drop]
  have later : ((node.burst.drop j).map List.length).sum =
      node.burst[j].length + ((node.burst.drop (j + 1)).map List.length).sum := by
    rw [List.drop_eq_getElem_cons inside, List.map_cons, List.sum_cons]
  simp only [List.length_map, ConfigCache.length_frames, List.length_drop, List.length_take] at held
  have frames : s.proxy.cache.count ≤ j := by omega
  exact ⟨by omega, by omega⟩

theorem next_deliver (node : Node p) {frame : Bytes} {rest : List Bytes}
    (down : s.down = frame :: rest) :
    (fetchNet n node).next s .deliver =
      { s with proxy := FetchNet.receive p s.proxy frame, down := rest } := by
  simp [fetchNet, FetchNet.next, down]

/-- The frame at the head of the stream is the burst's next one, or closes it. -/
theorem Collecting.deliver (collecting : Collecting node es s j d t)
    (count : node.burst.length ≤ CONFIG_CACHE_MAX_FRAMES)
    (bytes : (node.burst.map List.length).sum ≤ CONFIG_CACHE_ARENA_BYTES)
    (foreign : ∀ frame ∈ node.burst,
      decodeConfigCompleteNonce p frame ≠ some s.proxy.session.nonce)
    (ran : (fetchNet n node).run (.boot n) es = s) {frame : Bytes} {rest : List Bytes}
    (down : s.down = frame :: rest) :
    (∃ j', Collecting node (es ++ [.deliver]) ((fetchNet n node).next s .deliver) j' d t) ∨
      Published node (es ++ [.deliver]) ((fetchNet n node).next s .deliver) d := by
  have clean : d = 0 ↔ (fetchNet n node).Along RetryMeetsEmpty (.boot n) (es ++ [.deliver]) := by
    rw [Machine.along_snoc, ran, ← collecting.clean]
    exact (and_iff_left trivial).symm
  have coming := collecting.coming
  rw [FetchNet.stream, down, List.cons_append] at coming
  have within : j < (node.reply s.proxy.session.nonce).length := by
    have := collecting.arrived
    simp only [Node.reply, List.length_append, List.length_singleton]
    omega
  obtain ⟨first, remaining⟩ := next_of_repeated within coming
  rcases Nat.lt_or_eq_of_le collecting.arrived with more | last
  · have next : node.burst[j]? = some frame := by
      rwa [Node.reply, List.getElem?_append_left more] at first
    have member : frame ∈ node.burst := List.mem_of_getElem? next
    obtain ⟨variant, received⟩ := receive_frame collecting.fetching member (foreign frame member)
    have room := collecting.room count bytes next
    have taken : node.burst.take (j + 1) = node.burst.take j ++ [frame] := by
      rw [List.take_add_one, next]
      rfl
    have within : d ≤ (node.burst.take j).length := by
      rw [List.length_take, Nat.min_eq_left collecting.arrived]
      exact collecting.dropped
    rw [next_deliver node down, received]
    refine .inl ⟨j + 1, collecting.fetching, collecting.armed, ?_, collecting.drawn.snoc _ rfl,
      collecting.packed.add _ _, Nat.le_succ_of_le collecting.dropped, more, ?_, remaining, clean⟩
    · rw [ready_add]
      exact collecting.unpublished
    · rw [ConfigCache.frames_add collecting.packed room, List.map_append, collecting.held, taken,
        List.drop_append_of_le_length within]
      rfl
  · have closing : frame = node.terminator s.proxy.session.nonce := by
      rw [Node.reply, last, List.getElem?_append_right (Nat.le_refl _)] at first
      simpa using first.symm
    have ours : decodeConfigCompleteNonce p frame = some s.proxy.session.nonce := by
      rw [closing, node.terminates]
    obtain ⟨live, armed, cache⟩ := receive_terminator collecting.fetching ours
    rw [next_deliver node down]
    refine .inr ⟨live, by rw [armed, collecting.armed], last ▸ collecting.dropped, ?_, clean⟩
    rw [cache, ConfigCache.frames_mark_ready, collecting.held, last, List.take_length]

theorem receive_live {w : Proxy n} (live : w.session.state = .live) (frame : Bytes) :
    FetchNet.receive p w frame = w := by
  unfold FetchNet.receive
  split
  · rfl
  · simp [upstreamOnFromradio, live]

/-- Nothing this protocol does after publication touches the cache. -/
theorem Published.step (published : Published node es s d) {e : FetchEvent}
    (enabled : s.enabled e) (ran : (fetchNet n node).run (.boot n) es = s) :
    Published node (es ++ [e]) ((fetchNet n node).next s e) d := by
  have meets : RetryMeetsEmpty s e := by
    cases e with
    | fetchRetry => exact fun fetching => by simp [published.live] at fetching
    | _ => trivial
  have clean : d = 0 ↔ (fetchNet n node).Along RetryMeetsEmpty (.boot n) (es ++ [e]) := by
    rw [Machine.along_snoc, ran, ← published.clean]
    exact (and_iff_left meets).symm
  cases e with
  | start rand =>
    have unarmed : s.proxy.session.keepaliveArmed = false := enabled
    simp [published.armed] at unarmed
  | fetchRetry =>
    have idle : (fetchNet n node).next s .fetchRetry = { s with proxy := { s.proxy with
        session := { s.proxy.session with fetchRetryWork := none } } } := by
      simp [fetchNet, FetchNet.next, fetchRetryHandler, published.live]
    rw [idle]
    exact ⟨published.live, published.armed, published.dropped, published.held, clean⟩
  | deliver =>
    obtain ⟨frame, rest, down⟩ := List.exists_cons_of_ne_nil enabled
    rw [next_deliver node down, receive_live published.live]
    exact ⟨published.live, published.armed, published.dropped, published.held, clean⟩
  | _ => exact ⟨published.live, published.armed, published.dropped, published.held, clean⟩

theorem progress_start (documented : p.Documented) (node : Node p) (rand : UInt32) :
    ∃ t, Collecting node [.start rand] ((fetchNet n node).next (.boot n) (.start rand)) 0 0 t := by
  have result : ((fetchNet n node).next (.boot n) (.start rand)).proxy =
      { Proxy.boot n with
        cache := cacheBegin .zero
        uart := (uartMeshtasticTx .zero (p.toRadioBytes (.wantConfig (sessionNonce rand)))).1
        session := { (Proxy.boot n).session with
          fetchRetryWork := some UPSTREAM_FETCH_RETRY_MS
          livenessWork := none
          keepaliveArmed := true
          keepaliveWork := some UPSTREAM_KEEPALIVE_MS
          nonce := sessionNonce rand
          pending := []
          state := .fetching } } := by
    simp only [fetchNet, FetchNet.next, FetchNet.boot, upstreamSessionStart, sessionNonce,
      want_config_encodes documented]
    rfl
  have nothing : (FetchNet.boot n).stream node = [] := rfl
  have stream := stream_want_config documented node (.boot n)
    ((fetchNet n node).next (.boot n) (.start rand)) (sessionNonce rand) rfl rfl
    (by rw [result]; rfl)
  have coming : ∃ t, (node.reply (sessionNonce rand)).take 0 ++
      ((fetchNet n node).next (.boot n) (.start rand)).stream node =
      repeated (node.reply (sessionNonce rand)) t := by
    rcases stream with same | longer
    · exact ⟨0, by rw [same, nothing]; rfl⟩
    · exact ⟨1, by rw [longer, nothing]; simp [repeated]⟩
  obtain ⟨t, coming⟩ := coming
  refine ⟨t, ?_, ?_, ?_, ?_, ?_, Nat.le_refl 0, Nat.zero_le _, ?_, ?_, ?_⟩
  · rw [result]
  · rw [result]
  · rw [result]
    rfl
  · exact ⟨rand, by simp, by rw [result]⟩
  · rw [result]
    exact ConfigCache.packed_begin _
  · rw [result]
    simp
  · rw [result]
    exact coming
  · exact iff_of_true rfl ⟨trivial, trivial⟩

theorem progress_step (documented : p.Documented)
    (count : node.burst.length ≤ CONFIG_CACHE_MAX_FRAMES)
    (bytes : (node.burst.map List.length).sum ≤ CONFIG_CACHE_ARENA_BYTES)
    (foreign : ∀ rand, FetchEvent.start rand ∈ es → ∀ frame ∈ node.burst,
      decodeConfigCompleteNonce p frame ≠ some (sessionNonce rand))
    (progress : Progress node es s) {e : FetchEvent} (enabled : s.enabled e)
    (ran : (fetchNet n node).run (.boot n) es = s) :
    Progress node (es ++ [e]) ((fetchNet n node).next s e) := by
  rcases progress with ⟨rfl, rfl⟩ | ⟨j, d, t, collecting⟩ | ⟨d, published⟩
  · cases e with
    | start rand =>
      obtain ⟨t, collecting⟩ := progress_start (n := n) documented node rand
      exact .inr (.inl ⟨0, 0, t, collecting⟩)
    | fetchRetry => cases enabled
    | txWork => cases enabled
    | txEnd => cases enabled
    | answer => exact absurd rfl enabled
    | deliver => exact absurd rfl enabled
  · cases e with
    | start rand =>
      have unarmed : s.proxy.session.keepaliveArmed = false := enabled
      simp [collecting.armed] at unarmed
    | fetchRetry =>
      obtain ⟨t', later⟩ := collecting.retry documented ran
      exact .inr (.inl ⟨j, j, t', later⟩)
    | txWork =>
      have later := collecting.quiet .txWork trivial ran rfl rfl (stream_tx_work node s)
      exact .inr (.inl ⟨j, d, t, later⟩)
    | txEnd => exact .inr (.inl ⟨j, d, t, collecting.quiet .txEnd trivial ran rfl rfl rfl⟩)
    | answer =>
      have later := collecting.quiet .answer trivial ran rfl rfl (stream_answer node s)
      exact .inr (.inl ⟨j, d, t, later⟩)
    | deliver =>
      obtain ⟨frame, rest, down⟩ := List.exists_cons_of_ne_nil enabled
      obtain ⟨rand, member, nonce⟩ := collecting.drawn
      have others : ∀ frame ∈ node.burst,
          decodeConfigCompleteNonce p frame ≠ some s.proxy.session.nonce := by
        rw [nonce]
        exact foreign rand member
      rcases collecting.deliver count bytes others ran down with ⟨j', later⟩ | closed
      · exact .inr (.inl ⟨j', d, t, later⟩)
      · exact .inr (.inr ⟨d, closed⟩)
  · exact .inr (.inr ⟨d, published.step enabled ran⟩)

/-- In every run the published cache is the burst, whole and in order, exactly
when every retry that expired during the boot fetch found nothing cached. -/
theorem published_burst_complete_iff (documented : p.Documented) (node : Node p)
    (count : node.burst.length ≤ CONFIG_CACHE_MAX_FRAMES)
    (bytes : (node.burst.map List.length).sum ≤ CONFIG_CACHE_ARENA_BYTES)
    (es : List FetchEvent)
    (foreign : ∀ rand, FetchEvent.start rand ∈ es → ∀ frame ∈ node.burst,
      decodeConfigCompleteNonce p frame ≠ some (sessionNonce rand))
    (runs : (fetchNet n node).Runs (.boot n) es)
    (ready : ((fetchNet n node).run (.boot n) es).proxy.cache.ready = true) :
    ((fetchNet n node).run (.boot n) es).proxy.cache.frames.map Prod.fst = node.burst ↔
      (fetchNet n node).Along RetryMeetsEmpty (.boot n) es := by
  have progress : (∀ rand, FetchEvent.start rand ∈ es → ∀ frame ∈ node.burst,
      decodeConfigCompleteNonce p frame ≠ some (sessionNonce rand)) →
      Progress node es ((fetchNet n node).run (.boot n) es) := by
    refine Machine.history_invariant (fun es s => (∀ rand, FetchEvent.start rand ∈ es →
      ∀ frame ∈ node.burst, decodeConfigCompleteNonce p frame ≠ some (sessionNonce rand)) →
      Progress node es s) (fun _ => .inl ⟨rfl, rfl⟩) ?_ es runs
    intro es e before enabled foreign
    have earlier := fun rand member => foreign rand (List.mem_append_left _ member)
    exact progress_step documented count bytes earlier (before earlier) enabled rfl
  rcases progress foreign with ⟨_, same⟩ | ⟨j, d, t, collecting⟩ | ⟨d, published⟩
  · rw [same] at ready
    cases ready
  · simp [collecting.unpublished] at ready
  · rw [published.held, ← published.clean]
    constructor
    · intro whole
      have length := congrArg List.length whole
      have := published.dropped
      simp only [List.length_drop] at length
      omega
    · rintro rfl
      exact List.drop_zero

/-- A node whose burst is its my_info. -/
def myInfoNode : Node .wire where
  burst := [[0x1a, 0]]
  terminator nonce := 0x38 :: Protobuf.varint nonce
  frames frame member := by
    rw [List.mem_singleton] at member
    subst member
    exact ⟨{ whichVariant := .myInfo }, by decide, by decide⟩
  terminates nonce := by
    simp [decodeConfigCompleteNonce, WireFormat.decode_complete, FromRadio.configComplete]

theorem my_info_node_foreign (es : List FetchEvent) (rand : UInt32)
    (_started : FetchEvent.start rand ∈ es) :
    ∀ frame ∈ myInfoNode.burst,
      decodeConfigCompleteNonce .wire frame ≠ some (sessionNonce rand) := by
  intro frame member
  rw [myInfoNode, List.mem_singleton] at member
  subst member
  have none : decodeConfigCompleteNonce .wire [0x1a, 0] = Option.none := by decide
  simp [none]

/-- The retry expires while the want_config is still on its way, so the node
answers twice. -/
def earlyRetry : List FetchEvent :=
  [.start 5, .fetchRetry, .txWork, .answer, .deliver, .deliver]

theorem early_retry_complete :
    ((fetchNet 0 myInfoNode).run (.boot 0) earlyRetry).proxy.cache.frames.map Prod.fst =
      myInfoNode.burst :=
  (published_burst_complete_iff wire_documented myInfoNode (by decide) (by decide) earlyRetry
    (my_info_node_foreign earlyRetry) (by decide) (by decide)).mpr (by decide)

/-- The retry expires between the burst and its terminator: what had arrived is
forgotten and the terminator still closes the fetch. -/
theorem late_retry_publishes_hole :
    ∃ es : List FetchEvent, (fetchNet 0 myInfoNode).Runs (.boot 0) es ∧
      ((fetchNet 0 myInfoNode).run (.boot 0) es).proxy.cache.ready = true ∧
      ((fetchNet 0 myInfoNode).run (.boot 0) es).proxy.cache.frames.map Prod.fst ≠
        myInfoNode.burst :=
  ⟨[.start 5, .txWork, .answer, .deliver, .fetchRetry, .deliver], by decide, by decide, by decide⟩

end MeshPbx
