import MeshPbx.Framing

/-! The receive path between two restarts of reception: whatever the interrupt
and the work item do in turn, what is handed on depends only on the bytes put
into the ring. -/
namespace MeshPbx
namespace UartRx

/-- The byte taken out of the ring but not yet processed. -/
def held (u : UartRx) : Bytes :=
  match u.handler with
  | .idle | .looping => []
  | .holding byte => [byte]

/-- The bytes received that the state machine has not seen. -/
def undrained (u : UartRx) : Bytes :=
  u.held ++ u.rxRingBuf

/-- The receive path as a buffered transducer. -/
def buffered (u : UartRx) : Transducer.Buffered RxSm UInt8 Bytes :=
  ⟨u.rxSm, u.undrained, u.frames⟩

/-- What the receive path will have handed on once it has drained its bytes and
`later` after them. -/
def promised (u : UartRx) (later : Bytes) : List Bytes :=
  u.buffered.promised rxParser later

/-- No run of `rx_work_handler` is due or in progress. -/
structure Settled (u : UartRx) : Prop where
  handler : u.handler = .idle
  rxWork : u.rxWork = false

/-- Bytes wait in the ring only where a run of `rx_work_handler` will find them. -/
structure Watched (u : UartRx) : Prop where
  fromradioCb : u.fromradioCb = true
  woken : u.rxRingBuf ≠ [] → u.Settled → False

/-- The receive path at a frame boundary with nothing to do. -/
structure AtRest (u : UartRx) : Prop where
  state : u.rxSm.state = .waitMagic1
  rxRingBuf : u.rxRingBuf = []
  handler : u.handler = .idle
  fromradioCb : u.fromradioCb = true

variable {u : UartRx}

theorem settled_undrained (watched : u.Watched) (settled : u.Settled) : u.undrained = [] := by
  have empty : u.rxRingBuf = [] := by
    by_contra waiting
    exact watched.woken waiting settled
  simp only [undrained, held, settled.handler, empty, List.append_nil]

theorem settled_promised (watched : u.Watched) (settled : u.Settled) : u.promised [] = u.frames :=
  Transducer.Buffered.promised_empty (settled_undrained watched settled)

theorem frames_promised (later : Bytes) : u.frames <+: u.promised later :=
  Transducer.Buffered.out_prefix u.buffered later

theorem rest_watched (rest : u.AtRest) : u.Watched :=
  ⟨rest.fromradioCb, fun waiting _ => waiting rest.rxRingBuf⟩

theorem rest_undrained (rest : u.AtRest) : u.undrained = [] := by
  simp only [undrained, held, rest.handler, rest.rxRingBuf, List.append_nil]

/-- A turn of the handler changes nothing about what will have been handed on. -/
theorem turn_promised {e : RxEvent} (turn : e.Turn) (enabled : u.enabled e) (watched : u.Watched)
    (later : Bytes) : (u.apply e).promised later = u.promised later := by
  rcases turn_cases turn with rfl | rfl | rfl
  · have idle : u.handler = .idle := enabled.1
    simp only [promised, buffered, undrained, held, apply, idle]
  · have looping : u.handler = .looping := enabled
    cases waiting : u.rxRingBuf with
    | nil =>
      simp only [promised, buffered, undrained, held, apply, waiting, looping, rxWorkFinish]
    | cons byte rest =>
      simp only [promised, buffered, undrained, held, apply, waiting, looping,
        List.nil_append, List.singleton_append]
  · cases position : u.handler with
    | idle => exact (enabled.1 position).elim
    | looping => exact (enabled.2 position).elim
    | holding byte =>
      have taken := Transducer.Buffered.promised_take (t := rxParser) u.buffered later
      simp only [Transducer.Buffered.take, buffered, undrained, held, position,
        List.singleton_append, rxParser_step] at taken
      simp only [promised, buffered, undrained, held, apply, process, position,
        watched.fromradioCb, List.nil_append, List.singleton_append]
      exact taken

/-- A chunk that fits into the ring is all of it kept. -/
theorem rdy_promised {data : Bytes} (fits : u.rxRingBuf.length + data.length ≤ RING_BUF_SIZE)
    (later : Bytes) : (u.apply (.rdy data)).promised later = u.promised (data ++ later) := by
  have room : data.length ≤ RING_BUF_SIZE - u.rxRingBuf.length := by omega
  have fed := Transducer.Buffered.promised_feed (t := rxParser) u.buffered data later
  simp only [Transducer.Buffered.feed, buffered, undrained, List.append_assoc] at fed
  simp only [promised, buffered, undrained, held, apply, uartCbRxRdy, ringBufPut,
    List.take_of_length_le room] at fed ⊢
  exact fed

theorem watched_step (e : RxEvent) (watched : u.Watched) : (u.apply e).Watched := by
  obtain ⟨fromradioCb, woken⟩ := watched
  cases e with
  | rdy =>
    refine ⟨fromradioCb, fun _ settled => ?_⟩
    have pending : true = false := settled.rxWork
    contradiction
  | disabled => exact ⟨fromradioCb, fun waiting settled => woken waiting ⟨settled.1, settled.2⟩⟩
  | resync =>
    simp only [apply, rxResyncHandler]
    split_ifs
    all_goals exact ⟨fromradioCb, fun waiting settled => woken waiting ⟨settled.1, settled.2⟩⟩
  | work => exact ⟨fromradioCb, fun _ settled => RxWork.noConfusion settled.handler⟩
  | get =>
    simp only [apply]
    split
    · rename_i empty
      exact ⟨fromradioCb, fun waiting _ => waiting empty⟩
    · exact ⟨fromradioCb, fun _ settled => RxWork.noConfusion settled.handler⟩
  | process =>
    simp only [apply]
    split
    · exact ⟨fromradioCb, fun _ settled => RxWork.noConfusion settled.handler⟩
    · exact ⟨fromradioCb, woken⟩
    · exact ⟨fromradioCb, woken⟩

/-! Left to itself, the work item drains the ring and is done. -/

@[simp] theorem process_rxWork (bytes : Bytes) : (bytes.foldl process u).rxWork = u.rxWork := by
  induction bytes generalizing u with
  | nil => rfl
  | cons byte bytes ih => exact ih

theorem settles_idle (idle : u.handler = .idle) :
    ∃ turns, (∀ e ∈ turns, e.Turn) ∧ receiver.Runs u turns ∧ (receiver.run u turns).Settled := by
  cases pending : u.rxWork with
  | false => exact ⟨[], by simp, trivial, idle, pending⟩
  | true =>
    obtain ⟨runs, drained⟩ := drain_run { u with rxWork := false } u.rxRingBuf
    refine ⟨.work :: drain u.rxRingBuf, ?_, ⟨⟨idle, pending⟩, runs⟩, ?_⟩
    · intro e member
      rcases List.mem_cons.mp member with rfl | later
      · trivial
      · exact drain_turns _ e later
    · have settled : Settled { rxWorkHandler { u with rxWork := false } with handler := .idle } :=
        ⟨rfl, by simp [rxWorkHandler, rxWorkFinish]⟩
      exact drained ▸ settled

theorem settles_looping (looping : u.handler = .looping) :
    ∃ turns, (∀ e ∈ turns, e.Turn) ∧ receiver.Runs u turns ∧ (receiver.run u turns).Settled := by
  have position : u = { u with rxRingBuf := u.rxRingBuf, handler := .looping } := by rw [← looping]
  obtain ⟨runs, drained⟩ := drain_run u u.rxRingBuf
  rw [← position] at runs drained
  have idle : (receiver.run u (drain u.rxRingBuf)).handler = .idle := by rw [drained]
  obtain ⟨turns, allTurns, more, settled⟩ := settles_idle idle
  refine ⟨drain u.rxRingBuf ++ turns, ?_, (Machine.runs_append _ _).mpr ⟨runs, more⟩, ?_⟩
  · intro e member
    rcases List.mem_append.mp member with first | later
    · exact drain_turns _ e first
    · exact allTurns e later
  · rw [Machine.run_append]
    exact settled

theorem settles (u : UartRx) :
    ∃ turns, (∀ e ∈ turns, e.Turn) ∧ receiver.Runs u turns ∧ (receiver.run u turns).Settled := by
  cases position : u.handler with
  | idle => exact settles_idle position
  | looping => exact settles_looping position
  | holding byte =>
    have enabled : u.enabled .process := by
      constructor <;> simp [position]
    have looping : (u.apply .process).handler = .looping := by
      simp only [apply, position]
    obtain ⟨turns, allTurns, runs, settled⟩ := settles_looping looping
    refine ⟨.process :: turns, ?_, ⟨enabled, runs⟩, settled⟩
    intro e member
    rcases List.mem_cons.mp member with rfl | later
    · trivial
    · exact allTurns e later

end UartRx

/-! Reception without restarts. -/

/-- The bytes a schedule puts into the ring. -/
def fed : List RxEvent → Bytes
  | [] => []
  | .rdy data :: es => data ++ fed es
  | .disabled :: es | .resync :: es | .work :: es | .get :: es | .process :: es => fed es

/-- Steps of reception under way: chunks that fit into the ring, and turns of the
handler. -/
def Feeds (u : UartRx) : RxEvent → Prop
  | .rdy data => u.rxRingBuf.length + data.length ≤ RING_BUF_SIZE
  | .disabled | .resync => False
  | .work | .get | .process => True

instance (u : UartRx) : (e : RxEvent) → Decidable (Feeds u e)
  | .rdy _ => inferInstanceAs (Decidable (_ ≤ _))
  | .disabled | .resync => isFalse id
  | .work | .get | .process => isTrue trivial

/-- A step of reception under way only moves its bytes on. -/
theorem feeding_step {u : UartRx} {e : RxEvent} (watched : u.Watched) (enabled : u.enabled e)
    (feeds : Feeds u e) (later : Bytes) :
    (u.apply e).promised later = u.promised (fed [e] ++ later) := by
  cases e with
  | rdy data => simpa only [fed, List.append_nil] using UartRx.rdy_promised feeds later
  | disabled => exact feeds.elim
  | resync => exact feeds.elim
  | work => exact UartRx.turn_promised (e := .work) trivial enabled watched later
  | get => exact UartRx.turn_promised (e := .get) trivial enabled watched later
  | process => exact UartRx.turn_promised (e := .process) trivial enabled watched later

theorem fed_cons (e : RxEvent) (es : List RxEvent) : fed (e :: es) = fed [e] ++ fed es := by
  cases e <;> simp [fed]

theorem feeding_run {u : UartRx} (es : List RxEvent) (watched : u.Watched)
    (runs : receiver.Runs u es) (feeds : receiver.Along Feeds u es) (later : Bytes) :
    (receiver.run u es).Watched ∧
      (receiver.run u es).promised later = u.promised (fed es ++ later) := by
  induction es generalizing u with
  | nil => exact ⟨watched, rfl⟩
  | cons e es ih =>
    have next := UartRx.watched_step e watched
    obtain ⟨stays, moved⟩ := ih next runs.2 feeds.2
    refine ⟨stays, moved.trans ?_⟩
    rw [fed_cons, List.append_assoc]
    exact feeding_step watched runs.1 feeds.1 _

/-- The turns of the handler are steps of reception that feed nothing. -/
theorem turns_feed (u : UartRx) {turns : List RxEvent} (allTurns : ∀ e ∈ turns, e.Turn) :
    receiver.Along Feeds u turns ∧ fed turns = [] := by
  induction turns generalizing u with
  | nil => exact ⟨trivial, rfl⟩
  | cons e turns ih =>
    have turn := allTurns e (List.mem_cons_self ..)
    obtain ⟨feeds, nothing⟩ := ih (u.apply e) (fun f member => allTurns f (List.mem_cons_of_mem _ member))
    rcases turn_cases turn with rfl | rfl | rfl <;> exact ⟨⟨trivial, feeds⟩, nothing⟩

/-- The turns that are left hand on what has been promised. -/
theorem turns_deliver (u : UartRx) (watched : u.Watched) :
    ∃ turns, (∀ e ∈ turns, e.Turn) ∧ receiver.Runs u turns ∧
      (receiver.run u turns).Settled ∧ (receiver.run u turns).frames = u.promised [] := by
  obtain ⟨turns, allTurns, runs, settled⟩ := UartRx.settles u
  obtain ⟨feeds, nothing⟩ := turns_feed u allTurns
  obtain ⟨stays, moved⟩ := feeding_run turns watched runs feeds []
  refine ⟨turns, allTurns, runs, settled, ?_⟩
  rw [← UartRx.settled_promised stays settled, moved, nothing]
  rfl

/-- A stream of frames with line noise before each. -/
def noisyStream (stream : List (Bytes × Frame)) : Bytes :=
  stream.flatMap (fun piece => piece.1 ++ framed piece.2.bytes)

theorem noisy_stream_reads {stream : List (Bytes × Frame)}
    (quiet : ∀ piece ∈ stream, Quiet piece.1) :
    Reads (noisyStream stream) (stream.map (fun piece => piece.2.bytes)) := by
  induction stream with
  | nil => exact .nil
  | cons piece stream ih =>
    have rest := ih (fun other member => quiet other (List.mem_cons_of_mem _ member))
    have first := quiet_noise (quiet piece (List.mem_cons_self ..))
    simpa only [noisyStream, List.flatMap_cons, List.map_cons, List.append_assoc] using
      Reads.frame piece.2 first rest

/-- From a frame boundary the payloads of a noisy stream are handed on in order,
however the stream is cut into chunks and wherever the interrupt falls. -/
theorem noisy_stream_received (u : UartRx) (rest : u.AtRest) (stream : List (Bytes × Frame))
    (quiet : ∀ piece ∈ stream, Quiet piece.1) (es : List RxEvent) (runs : receiver.Runs u es)
    (feeds : receiver.Along Feeds u es) (chunks : fed es <+: noisyStream stream) :
    (receiver.run u es).frames <+: u.frames ++ stream.map (fun piece => piece.2.bytes) ∧
      (fed es = noisyStream stream → (receiver.run u es).Settled →
        (receiver.run u es).frames = u.frames ++ stream.map (fun piece => piece.2.bytes)) ∧
      (fed es = noisyStream stream → ∃ turns, (∀ e ∈ turns, e.Turn) ∧
        receiver.Runs (receiver.run u es) turns ∧
        (receiver.run u (es ++ turns)).frames =
          u.frames ++ stream.map (fun piece => piece.2.bytes)) := by
  have promised : u.promised (noisyStream stream) =
      u.frames ++ stream.map (fun piece => piece.2.bytes) := by
    have handed := (reading_received (noisy_stream_reads quiet) rest.state).1
    simp only [UartRx.promised, UartRx.buffered, Transducer.Buffered.promised,
      UartRx.rest_undrained rest, List.nil_append, handed]
  have moved := feeding_run es (UartRx.rest_watched rest) runs feeds
  have watched : (receiver.run u es).Watched := (moved []).1
  refine ⟨?_, ?_, ?_⟩
  · obtain ⟨later, split⟩ := chunks
    rw [← promised, ← split, ← (moved later).2]
    exact UartRx.frames_promised later
  · intro complete settled
    rw [← promised, ← complete, ← UartRx.settled_promised watched settled, (moved []).2,
      List.append_nil]
  · intro complete
    obtain ⟨turns, allTurns, more, _, delivered⟩ := turns_deliver _ watched
    refine ⟨turns, allTurns, more, ?_⟩
    rw [Machine.run_append, delivered, (moved []).2, List.append_nil, complete, promised]

/-- A parser with the lengths of an earlier frame left in it. -/
def stalePath : UartRx :=
  { UartRx.init with rxSm := { RxSm.zero with expectedLen := 7, receivedLen := 7 } }

/-- Noise that ends in half a magic pair, a payload that is the magic pair, and a
frame right behind it. -/
def overlappingStream : List (Bytes × Frame) :=
  [([0x00, 0x94], Frame.of 0x94 [0xC3]), ([], Frame.of 0x01 [])]

/-- The second chunk arrives while the handler holds the first byte of the first. -/
def splitSchedule : List RxEvent :=
  [.rdy [0x00, 0x94, 0x94], .work, .get,
    .rdy [0xC3, 0x00, 0x02, 0x94, 0xC3, 0x94, 0xC3, 0x00, 0x01, 0x01], .process] ++
  drain [0x94, 0x94, 0xC3, 0x00, 0x02, 0x94, 0xC3, 0x94, 0xC3, 0x00, 0x01, 0x01] ++
  .work :: drain []

theorem overlapping_stream_received :
    (receiver.run stalePath splitSchedule).frames = [[0x94, 0xC3], [0x01]] :=
  (noisy_stream_received stalePath ⟨rfl, rfl, rfl, rfl⟩ overlappingStream
    (by unfold Quiet; decide) splitSchedule (by decide) (by decide) (by decide)).2.1
    (by decide) ⟨by decide, by decide⟩

end MeshPbx
