import MeshPbx.Reception

/-! Restarts of reception. UART_RX_DISABLED puts the state machine back to a
frame boundary while bytes received before it may still wait in the ring. -/
namespace MeshPbx

/-- What arrives between two restarts: what still comes of an interrupted frame,
whole frames, and the beginning of the frame that the next restart interrupts. -/
structure Segment where
  tail : Bytes
  frames : List Frame
  head : Bytes
  unfinished : ∃ (frame : Frame) (later : Bytes), later ≠ [] ∧ head ++ later = framed frame.bytes

namespace Segment

def bytes (segment : Segment) : Bytes :=
  segment.tail ++ (segment.frames.flatMap (fun frame => framed frame.bytes) ++ segment.head)

def payloads (segment : Segment) : List Bytes :=
  segment.frames.map Frame.bytes

end Segment

/-- The receive path with the line: `put` counts the bytes of the current segment
that are in the ring or were, and `before` lists the payloads of the frames that
arrived whole before it. -/
structure Reception where
  rx : UartRx
  before : List Bytes
  current : Segment
  put : Nat
  upcoming : List Segment

namespace Reception

def start (u : UartRx) (first : Segment) (restarts : List Segment) : Reception :=
  ⟨u, u.frames, first, 0, restarts⟩

/-- The bytes of the current segment still on the line. -/
def left (r : Reception) : Bytes :=
  r.current.bytes.drop r.put

/-- The payloads of the frames all of whose bytes were put into the ring without
a restart between them. -/
def due (r : Reception) : List Bytes :=
  r.before ++ arrived r.current.frames (r.put - r.current.tail.length)

/-- Chunks come off the line in order and fit into the ring; a restart ends a
segment. -/
def enabled (r : Reception) : RxEvent → Prop
  | .rdy data => data <+: r.left ∧ r.rx.rxRingBuf.length + data.length ≤ RING_BUF_SIZE
  | .disabled => r.left = [] ∧ r.upcoming ≠ []
  | .resync => False
  | .work => r.rx.enabled .work
  | .get => r.rx.enabled .get
  | .process => r.rx.enabled .process

def next (r : Reception) : RxEvent → Reception
  | .rdy data => { r with rx := r.rx.apply (.rdy data), put := r.put + data.length }
  | .disabled => match r.upcoming with
    | [] => r
    | segment :: rest =>
      { rx := r.rx.apply .disabled, before := r.due, current := segment, put := 0, upcoming := rest }
  | .resync => { r with rx := r.rx.apply .resync }
  | .work => { r with rx := r.rx.apply .work }
  | .get => { r with rx := r.rx.apply .get }
  | .process => { r with rx := r.rx.apply .process }

instance (r : Reception) : (e : RxEvent) → Decidable (r.enabled e)
  | .rdy _ | .disabled => inferInstanceAs (Decidable (_ ∧ _))
  | .resync => isFalse id
  | .work => inferInstanceAs (Decidable (r.rx.enabled .work))
  | .get => inferInstanceAs (Decidable (r.rx.enabled .get))
  | .process => inferInstanceAs (Decidable (r.rx.enabled .process))

end Reception

def reception : Machine Reception RxEvent where
  enabled := Reception.enabled
  next := Reception.next

instance (r : Reception) (e : RxEvent) : Decidable (reception.enabled r e) :=
  inferInstanceAs (Decidable (r.enabled e))

/-- A restart that finds the state machine at a frame boundary of what it has not
seen: the undrained bytes are the frames received but not yet handed on, and what
is behind them and still to come of the interrupted frame holds no frame. -/
def CleanRestart (r : Reception) : RxEvent → Prop
  | .disabled => ∀ segment ∈ r.upcoming.head?, ∃ whole rest,
      r.rx.undrained = whole ++ rest ∧ Reads whole (r.due.drop r.rx.frames.length) ∧
        Noise (rest ++ segment.tail)
  | .rdy _ | .resync | .work | .get | .process => True

theorem arrived_whole (frames : List Frame) {len : Nat}
    (enough : (frames.flatMap (fun frame => framed frame.bytes)).length ≤ len) :
    arrived frames len = frames.map Frame.bytes := by
  induction frames generalizing len with
  | nil => rfl
  | cons frame frames ih =>
    rw [List.flatMap_cons, List.length_append] at enough
    rw [arrived, if_pos (by omega), ih (by omega), List.map_cons]

theorem arrived_zero (frames : List Frame) : arrived frames 0 = [] := by
  cases frames with
  | nil => rfl
  | cons frame frames =>
    have positive : ¬ (framed frame.bytes).length ≤ 0 := by
      simp
    rw [arrived, if_neg positive]

/-- What a state machine at a frame boundary hands on while a segment arrives
behind the bytes of a clean restart. -/
theorem segment_received {sm : RxSm} {whole rest more : Bytes} {owed : List Bytes}
    {segment : Segment} (idle : sm.state = .waitMagic1) (reads : Reads whole owed)
    (noise : Noise (rest ++ segment.tail)) (begun : more <+: segment.bytes) :
    rxParser.output sm (whole ++ rest ++ more) =
      owed ++ arrived segment.frames (more.length - segment.tail.length) := by
  obtain ⟨handed, boundary⟩ := reading_received reads idle
  rw [List.append_assoc, Transducer.output_append, handed]
  congr 1
  rcases Nat.le_total more.length segment.tail.length with within | beyond
  · obtain ⟨missing, split⟩ : more <+: segment.tail :=
      List.prefix_of_prefix_length_le begun (List.prefix_append _ _) within
    rw [Nat.sub_eq_zero_of_le within, arrived_zero]
    rw [← split, ← List.append_assoc] at noise
    exact partial_noise_silent noise boundary
  · obtain ⟨behind, rfl⟩ : segment.tail <+: more :=
      List.prefix_of_prefix_length_le (List.prefix_append _ _) begun beyond
    have framesBegun := (List.prefix_append_right_inj segment.tail).mp begun
    obtain ⟨frame, later, unfinished, cut⟩ := segment.unfinished
    obtain ⟨silent, resumed⟩ := noise_skipped noise boundary
    rw [← List.append_assoc, Transducer.output_append, silent, List.length_append,
      Nat.add_sub_cancel_left]
    exact frames_received segment.frames resumed cut unfinished framesBegun

/-- Whatever more of the segment arrives, what will have been handed on are the
payloads of the frames then whole. -/
structure Delivering (r : Reception) : Prop where
  watched : r.rx.Watched
  promised : ∀ more, more <+: r.left → r.rx.promised more =
    r.before ++ arrived r.current.frames (r.put + more.length - r.current.tail.length)

theorem delivering_due {r : Reception} (delivering : Delivering r) : r.rx.promised [] = r.due :=
  delivering.promised [] List.nil_prefix

theorem delivering_start (u : UartRx) (rest : u.AtRest) (first : Segment) (fresh : first.tail = [])
    (restarts : List Segment) : Delivering (.start u first restarts) := by
  refine ⟨UartRx.rest_watched rest, ?_⟩
  intro more begun
  have noise : Noise ([] ++ first.tail) := by
    rw [fresh]
    exact .nil
  have handed := segment_received rest.state .nil noise begun
  simpa only [Reception.start, UartRx.promised, UartRx.buffered, Transducer.Buffered.promised,
    UartRx.rest_undrained rest, List.nil_append, Nat.zero_add] using congrArg (u.frames ++ ·) handed

/-- A turn of the handler leaves the line alone. -/
theorem delivering_turn {r : Reception} {e : RxEvent} (delivering : Delivering r) (turn : e.Turn)
    (enabled : r.rx.enabled e) : Delivering { r with rx := r.rx.apply e } := by
  refine ⟨UartRx.watched_step e delivering.watched, ?_⟩
  intro more begun
  exact (UartRx.turn_promised turn enabled delivering.watched more).trans
    (delivering.promised more begun)

theorem delivering_step (r : Reception) (e : RxEvent) (delivering : Delivering r)
    (enabled : reception.enabled r e) (clean : CleanRestart r e) :
    Delivering (reception.next r e) := by
  cases e with
  | rdy data =>
    obtain ⟨⟨beyond, split⟩, fits⟩ := (enabled : _ ∧ _)
    refine ⟨UartRx.watched_step (.rdy data) delivering.watched, ?_⟩
    intro more begun
    have remaining : r.current.bytes.drop (r.put + data.length) = beyond := by
      rw [← List.drop_drop]
      exact (congrArg (List.drop data.length) split.symm).trans List.drop_left
    have further : data ++ more <+: r.left := by
      rw [← split]
      exact (List.prefix_append_right_inj data).mpr (remaining ▸ begun)
    have moved := delivering.promised (data ++ more) further
    rw [List.length_append, ← Nat.add_assoc] at moved
    exact (UartRx.rdy_promised fits more).trans moved
  | disabled =>
    obtain ⟨_, more⟩ := (enabled : _ ∧ _)
    obtain ⟨segment, rest, upcoming⟩ := List.exists_cons_of_ne_nil more
    obtain ⟨whole, behind, undrained, reads, noise⟩ := clean segment (by rw [upcoming]; rfl)
    have due := delivering_due delivering
    have handedOn : r.rx.frames <+: r.due := due ▸ UartRx.frames_promised []
    have split : r.rx.frames ++ r.due.drop r.rx.frames.length = r.due :=
      List.prefix_iff_eq_append.mp handedOn
    have applied : reception.next r .disabled =
        { rx := r.rx.apply .disabled, before := r.due, current := segment, put := 0,
          upcoming := rest } := by
      show r.next .disabled = _
      simp only [Reception.next, upcoming]
    rw [applied]
    refine ⟨UartRx.watched_step .disabled delivering.watched, ?_⟩
    intro later begun
    have idle : ({ r.rx.rxSm with state := .waitMagic1 } : RxSm).state = .waitMagic1 := rfl
    have handed := segment_received idle reads noise begun
    rw [← undrained] at handed
    have delivered := congrArg (r.rx.frames ++ ·) handed
    simp only [← List.append_assoc, split] at delivered
    show (r.rx.apply .disabled).promised later =
      r.due ++ arrived segment.frames (0 + later.length - segment.tail.length)
    rw [Nat.zero_add]
    exact delivered
  | resync => exact (enabled : False).elim
  | work => exact delivering_turn delivering (e := .work) trivial enabled
  | get => exact delivering_turn delivering (e := .get) trivial enabled
  | process => exact delivering_turn delivering (e := .process) trivial enabled

theorem delivering_run (u : UartRx) (rest : u.AtRest) (first : Segment) (fresh : first.tail = [])
    (restarts : List Segment) (es : List RxEvent)
    (runs : reception.Runs (.start u first restarts) es)
    (clean : reception.Along CleanRestart (.start u first restarts) es) :
    Delivering (reception.run (.start u first restarts) es) :=
  Machine.invariant_along delivering_step es (delivering_start u rest first fresh restarts) runs clean

/-- The turns of the handler, seen from the line. -/
theorem reception_turns (r : Reception) {turns : List RxEvent} (allTurns : ∀ e ∈ turns, e.Turn)
    (runs : receiver.Runs r.rx turns) :
    reception.Runs r turns ∧
      reception.run r turns = { r with rx := receiver.run r.rx turns } := by
  induction turns generalizing r with
  | nil => exact ⟨trivial, rfl⟩
  | cons e turns ih =>
    obtain ⟨rest, final⟩ := ih { r with rx := r.rx.apply e }
      (fun f member => allTurns f (List.mem_cons_of_mem _ member)) runs.2
    rcases turn_cases (allTurns e (List.mem_cons_self ..)) with rfl | rfl | rfl
    all_goals exact ⟨⟨runs.1, rest⟩, final⟩

/-- The payloads of all frames there will be. -/
def Reception.total (r : Reception) : List Bytes :=
  r.before ++ (r.current :: r.upcoming).flatMap Segment.payloads

/-- Where a segment has arrived, so have all its frames. -/
theorem due_ended {r : Reception} (ended : r.left = []) : r.due = r.before ++ r.current.payloads := by
  have enough : r.current.bytes.length ≤ r.put := List.drop_eq_nil_iff.mp ended
  simp only [Segment.bytes, List.length_append] at enough
  rw [Reception.due, arrived_whole _ (by omega), Segment.payloads]

theorem total_step (total : List Bytes) (r : Reception) (e : RxEvent) (same : r.total = total)
    (enabled : reception.enabled r e) : (reception.next r e).total = total := by
  cases e with
  | disabled =>
    obtain ⟨ended, more⟩ := (enabled : _ ∧ _)
    obtain ⟨segment, rest, upcoming⟩ := List.exists_cons_of_ne_nil more
    show (r.next .disabled).total = total
    rw [← same]
    simp only [Reception.next, Reception.total, upcoming, due_ended ended, List.flatMap_cons,
      List.append_assoc]
  | rdy => exact same
  | resync => exact same
  | work => exact same
  | get => exact same
  | process => exact same

theorem uninterrupted_clean (r : Reception) (es : List RxEvent) (uninterrupted : .disabled ∉ es) :
    reception.Along CleanRestart r es := by
  induction es generalizing r with
  | nil => trivial
  | cons e es ih =>
    obtain ⟨other, later⟩ := List.ne_and_not_mem_of_not_mem_cons uninterrupted
    refine ⟨?_, ih _ later⟩
    cases e with
    | disabled => exact (other rfl).elim
    | rdy => trivial
    | resync => trivial
    | work => trivial
    | get => trivial
    | process => trivial

theorem empty_head : ∃ (frame : Frame) (later : Bytes), later ≠ [] ∧ [] ++ later = framed frame.bytes :=
  ⟨.of 0 [], framed [0], List.cons_ne_nil _ _, rfl⟩

/-- A segment that ends with a whole frame. -/
def Segment.whole (tail : Bytes) (frames : List Frame) : Segment :=
  ⟨tail, frames, [], empty_head⟩

theorem magic_head :
    ∃ (frame : Frame) (later : Bytes), later ≠ [] ∧ [0x94] ++ later = framed frame.bytes :=
  ⟨.of 0x07 [], [0xC3, 0x00, 0x01, 0x07], List.cons_ne_nil _ _, rfl⟩

/-- A frame and the first byte of another, whose second is lost in the restart. -/
def interruptedSegment : Segment :=
  ⟨[], [.of 0x05 []], [0x94], magic_head⟩

def interruptedLine : Reception :=
  .start UartRx.init interruptedSegment [.whole [0x00, 0x01, 0x07] [.of 0x06 []]]

/-- The restart comes before the handler has run at all. -/
def undrainedRestart : List RxEvent :=
  [.rdy [0x94, 0xC3, 0x00, 0x01, 0x05, 0x94], .disabled, .work, .get,
    .rdy [0x00, 0x01, 0x07, 0x94, 0xC3, 0x00, 0x01, 0x06], .process] ++
  drain [0xC3, 0x00, 0x01, 0x05, 0x94, 0x00, 0x01, 0x07, 0x94, 0xC3, 0x00, 0x01, 0x06] ++
  .work :: drain []

theorem undrained_restart_clean : reception.Along CleanRestart interruptedLine undrainedRestart := by
  refine ⟨trivial, ?_, uninterrupted_clean _ _ (by decide)⟩
  intro segment member
  have same : Segment.whole [0x00, 0x01, 0x07] [.of 0x06 []] = segment := Option.some.inj member
  rw [← same]
  refine ⟨framed [0x05], [0x94], rfl, ?_, ?_⟩
  · exact (Reads.frame (.of 0x05 []) .nil .nil : Reads ([] ++ (framed [0x05] ++ [])) [[0x05]])
  · exact .stray (by decide) (by decide) (.skip (by decide) (.skip (by decide) .nil))

/-- The restart falls between the magic pair of a frame that is wholly in the
ring and the rest of it. -/
def splitRestart : List RxEvent :=
  [.rdy (framed [0x05]), .work, .get, .process, .get, .process, .disabled, .get, .process] ++
    drain [0x01, 0x05]

end MeshPbx
