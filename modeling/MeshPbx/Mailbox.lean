import MeshPbx.BleGatt
import MeshPbx.CacheBurst

/-! What a phone has coming to it, as an abstract mailbox: the rest of an armed
replay, then one closing empty answer, then the live queue. A fresh FROMRADIO
read of a slot is one read of its mailbox. -/
namespace MeshPbx

structure Mailbox where
  replay : List Bytes
  closing : Bool
  queue : List Bytes
  deriving DecidableEq, Repr

namespace Mailbox

/-- `none` is the empty answer. -/
def read : Mailbox → Option Bytes × Mailbox
  | ⟨frame :: rest, _, queue⟩ => (some frame, ⟨rest, rest.isEmpty, queue⟩)
  | ⟨[], true, queue⟩ => (none, ⟨[], false, queue⟩)
  | ⟨[], false, packet :: queue⟩ => (some packet, ⟨[], false, queue⟩)
  | ⟨[], false, []⟩ => (none, ⟨[], false, []⟩)

theorem read_owing (frame : Bytes) (rest : List Bytes) (closing : Bool) (queue : List Bytes) :
    read ⟨frame :: rest, closing, queue⟩ = (some frame, ⟨rest, rest.isEmpty, queue⟩) := rfl

theorem read_closing (queue : List Bytes) : read ⟨[], true, queue⟩ = (none, ⟨[], false, queue⟩) :=
  rfl

theorem read_live (queue : List Bytes) :
    read ⟨[], false, queue⟩ = (queue.head?, ⟨[], false, queue.tail⟩) := by
  cases queue <;> rfl

/-- Nothing is owed any more. -/
def Drained (mailbox : Mailbox) : Prop :=
  mailbox.replay = [] ∧ mailbox.queue = []

/-- An empty answer leaves packets behind exactly when it closes a replay. -/
theorem drained_of_empty {mailbox : Mailbox} (empty : mailbox.read.1 = none) :
    mailbox.read.2.Drained ↔ ¬ (mailbox.closing = true ∧ mailbox.queue ≠ []) := by
  match mailbox with
  | ⟨_ :: _, _, _⟩ => simp [read] at empty
  | ⟨[], true, queue⟩ => simp [read, Drained]
  | ⟨[], false, _ :: _⟩ => simp [read] at empty
  | ⟨[], false, []⟩ => simp [read, Drained]

end Mailbox

/-- Indices of the cached frames a replay from `cursor` still serves. -/
def segment (c : ConfigCache) (nonce : UInt32) (cursor : Nat) : List Nat :=
  (List.range' cursor (cacheFrameCount c - cursor)).filter (cacheFrameInSegment c · nonce)

namespace ProxyConn

def ccBytes (pc : ProxyConn) : Bytes := pc.ccFrame.read 0 pc.ccLen

def stagedBytes (pc : ProxyConn) : Bytes := pc.staged.read 0 pc.stagedLen

def queued (pc : ProxyConn) : List Bytes := pc.queue.contents.map PktEntry.bytes

def mailbox (c : ConfigCache) (pc : ProxyConn) : Mailbox where
  replay :=
    if pc.state = .replaying ∧ pc.replayCursor ≤ cacheFrameCount c then
      (segment c pc.nonce pc.replayCursor).map (fun i => (c.entry i).1) ++ [pc.ccBytes]
    else []
  closing := pc.state = .replaying ∧ cacheFrameCount c < pc.replayCursor
  queue := pc.queued

theorem mailbox_replaying {c : ConfigCache} {pc : ProxyConn} (replaying : pc.state = .replaying)
    (inside : pc.replayCursor ≤ cacheFrameCount c) :
    pc.mailbox c =
      ⟨(segment c pc.nonce pc.replayCursor).map (fun i => (c.entry i).1) ++ [pc.ccBytes], false,
        pc.queued⟩ := by
  have notPast : ¬ cacheFrameCount c < pc.replayCursor := Nat.not_lt_of_le inside
  simp only [mailbox, replaying, inside, notPast, and_self, and_false, if_true, decide_false]

end ProxyConn

variable {c : ConfigCache} {nonce : UInt32}

theorem segment_skip {cursor : Nat} (below : cursor < cacheFrameCount c)
    (outside : ¬ cacheFrameInSegment c cursor nonce) :
    segment c nonce cursor = segment c nonce (cursor + 1) := by
  obtain ⟨k, count⟩ : ∃ k, cacheFrameCount c - cursor = k + 1 := ⟨_, (Nat.succ_pred_eq_of_pos
    (Nat.sub_pos_of_lt below)).symm⟩
  have rest : cacheFrameCount c - (cursor + 1) = k := by omega
  simp only [segment, count, rest, List.range'_succ, List.filter_cons, if_neg outside]

theorem segment_serve {cursor : Nat} (below : cursor < cacheFrameCount c)
    (inside : cacheFrameInSegment c cursor nonce) :
    segment c nonce cursor = cursor :: segment c nonce (cursor + 1) := by
  obtain ⟨k, count⟩ : ∃ k, cacheFrameCount c - cursor = k + 1 := ⟨_, (Nat.succ_pred_eq_of_pos
    (Nat.sub_pos_of_lt below)).symm⟩
  have rest : cacheFrameCount c - (cursor + 1) = k := by omega
  simp only [segment, count, rest, List.range'_succ, List.filter_cons, if_pos inside]

theorem segment_end : segment c nonce (cacheFrameCount c) = [] := by
  simp [segment]

/-- The skip loop stops on a frame of the segment or on the frame count, and
passes over nothing that is owed. -/
theorem replay_skip_spec (fuel cursor : Nat) (enough : cacheFrameCount c - cursor ≤ fuel)
    (inside : cursor ≤ cacheFrameCount c) :
    replaySkip c nonce fuel cursor ≤ cacheFrameCount c ∧
      segment c nonce cursor = segment c nonce (replaySkip c nonce fuel cursor) ∧
      (replaySkip c nonce fuel cursor < cacheFrameCount c →
        cacheFrameInSegment c (replaySkip c nonce fuel cursor) nonce = true) := by
  induction fuel generalizing cursor with
  | zero =>
    unfold replaySkip
    exact ⟨inside, rfl, fun below => by omega⟩
  | succ fuel ih =>
    unfold replaySkip
    split
    · rename_i skips
      rw [segment_skip skips.1 skips.2]
      exact ih (cursor + 1) (by omega) (by omega)
    · rename_i stops
      refine ⟨inside, rfl, fun below => ?_⟩
      by_contra outside
      exact stops ⟨below, outside⟩

theorem replay_next_past (pc : ProxyConn) (past : cacheFrameCount c < pc.replayCursor) :
    replayNext c pc = pc.replayCursor := by
  have fuel : cacheFrameCount c - pc.replayCursor = 0 := by omega
  simp only [replayNext, fuel, replaySkip]

theorem replay_next_spec (pc : ProxyConn) (inside : pc.replayCursor ≤ cacheFrameCount c) :
    replayNext c pc ≤ cacheFrameCount c ∧
      segment c pc.nonce pc.replayCursor = segment c pc.nonce (replayNext c pc) ∧
      (replayNext c pc < cacheFrameCount c →
        cacheFrameInSegment c (replayNext c pc) pc.nonce = true) :=
  replay_skip_spec _ _ (Nat.le_refl _) inside

/-- Where a fresh read takes its answer from. -/
inductive Source where
  | cached (i : Nat)
  | complete
  | queued
  | nothing
  deriving DecidableEq, Repr

def stageSource (c : ConfigCache) (pc : ProxyConn) : Source :=
  if pc.state = .replaying then
    if replayNext c pc < cacheFrameCount c then .cached (replayNext c pc)
    else if replayNext c pc = cacheFrameCount c then .complete
    else .nothing
  else if 0 < pc.queue.count then .queued
  else .nothing

theorem stage_cached {pc : ProxyConn} {i : Nat} (source : stageSource c pc = .cached i) :
    (pc.state = .replaying ∧ replayNext c pc = i ∧ i < cacheFrameCount c) ∧
      stageNext c pc = { pc with
        staged := pc.staged.write 0 (c.entry i).1
        stagedLen := (c.entry i).1.length
        replayCursor := i + 1 } := by
  unfold stageSource at source
  split_ifs at source with replaying below
  cases source
  have present : cacheFrameAt c (replayNext c pc) = some (c.index (replayNext c pc)) :=
    if_neg (Nat.not_le_of_lt below)
  refine ⟨⟨replaying, rfl, below⟩, ?_⟩
  simp only [stageNext, if_pos replaying, if_pos below, present, ConfigCache.entry, cacheFrameBytes,
    ByteBuffer.length_read]

theorem stage_complete {pc : ProxyConn} (source : stageSource c pc = .complete) :
    (pc.state = .replaying ∧ replayNext c pc = cacheFrameCount c) ∧
      stageNext c pc = { pc with
        staged := pc.staged.write 0 pc.ccBytes
        stagedLen := pc.ccBytes.length
        replayCursor := cacheFrameCount c + 1 } := by
  unfold stageSource at source
  split_ifs at source with replaying below last
  refine ⟨⟨replaying, last⟩, ?_⟩
  have notBelow : ¬ cacheFrameCount c < cacheFrameCount c := Nat.lt_irrefl _
  simp only [stageNext, if_pos replaying, last, if_neg notBelow, if_true, ProxyConn.ccBytes,
    ByteBuffer.length_read]

theorem stage_queued {pc : ProxyConn} (source : stageSource c pc = .queued) :
    pc.state ≠ .replaying ∧ ∃ filled : 0 < pc.queue.count,
      stageNext c pc = { pc with
        staged := pc.staged.write 0 (pc.queue.slots pc.queue.head).bytes
        stagedLen := (pc.queue.slots pc.queue.head).bytes.length
        queue := pc.queue.pop filled } := by
  unfold stageSource at source
  split_ifs at source with replaying _ _ filled
  refine ⟨replaying, filled, ?_⟩
  simp only [stageNext, if_neg replaying, dif_pos filled, PktEntry.bytes, ByteBuffer.length_read]

/-- With nothing to serve a read either closes a drained replay or finds the
queue empty. -/
theorem stage_nothing {pc : ProxyConn} (source : stageSource c pc = .nothing) :
    (pc.state = .replaying ∧ cacheFrameCount c < pc.replayCursor ∧
      stageNext c pc = { pc with state := .active, stagedLen := 0 }) ∨
    (pc.state ≠ .replaying ∧ pc.queue.count = 0 ∧ stageNext c pc = { pc with stagedLen := 0 }) := by
  unfold stageSource at source
  split_ifs at source with replaying below last filled
  · have past : cacheFrameCount c < pc.replayCursor := by
      by_contra inside
      have := (replay_next_spec pc (Nat.le_of_not_lt inside)).1
      omega
    have stays := replay_next_past pc past
    refine .inl ⟨replaying, past, ?_⟩
    simp only [stageNext, if_pos replaying, if_neg below, if_neg last]
    rw [stays]
  · refine .inr ⟨replaying, by omega, ?_⟩
    simp only [stageNext, if_neg replaying, dif_neg filled]

theorem staged_write (pc : ProxyConn) (bytes : Bytes) :
    (pc.staged.write 0 bytes).read 0 bytes.length = bytes :=
  ByteBuffer.read_write_same _ _ _

/-- A fresh read is one read of the mailbox, and stages what that read returns. -/
theorem stage_next_mailbox (c : ConfigCache) (pc : ProxyConn) :
    (stageNext c pc).mailbox c = (pc.mailbox c).read.2 ∧
      (stageNext c pc).stagedBytes = (pc.mailbox c).read.1.getD [] := by
  cases source : stageSource c pc with
  | cached i =>
    obtain ⟨⟨replaying, next, below⟩, staged⟩ := stage_cached source
    have inside : pc.replayCursor ≤ cacheFrameCount c := by
      by_contra past
      have := replay_next_past pc (Nat.lt_of_not_le past)
      omega
    obtain ⟨_, skipped, served⟩ := replay_next_spec pc inside
    rw [next] at skipped served
    have owed : segment c pc.nonce pc.replayCursor = i :: segment c pc.nonce (i + 1) := by
      rw [skipped, segment_serve below (served below)]
    have before := ProxyConn.mailbox_replaying replaying inside
    rw [owed, List.map_cons, List.cons_append] at before
    rw [staged, before]
    constructor
    · rw [ProxyConn.mailbox_replaying]
      · simp [ProxyConn.queued, ProxyConn.ccBytes, Mailbox.read]
      · exact replaying
      · exact below
    · simp [ProxyConn.stagedBytes, Mailbox.read, staged_write]
  | complete =>
    obtain ⟨⟨replaying, next⟩, staged⟩ := stage_complete source
    have inside : pc.replayCursor ≤ cacheFrameCount c := by
      by_contra past
      have := replay_next_past pc (Nat.lt_of_not_le past)
      omega
    obtain ⟨_, skipped, _⟩ := replay_next_spec pc inside
    rw [next, segment_end] at skipped
    rw [staged]
    constructor
    · simp [ProxyConn.mailbox, ProxyConn.queued, ProxyConn.ccBytes, replaying, inside, skipped,
        Mailbox.read]
    · simp [ProxyConn.mailbox, ProxyConn.stagedBytes, replaying, inside, skipped, Mailbox.read,
        staged_write]
  | queued =>
    obtain ⟨replaying, filled, staged⟩ := stage_queued source
    have contents := RingQueue.contents_pop pc.queue filled
    rw [staged]
    constructor
    · simp [ProxyConn.mailbox, ProxyConn.queued, replaying, contents, Mailbox.read]
    · simp [ProxyConn.mailbox, ProxyConn.queued, ProxyConn.stagedBytes, replaying, contents,
        Mailbox.read, staged_write]
  | nothing =>
    rcases stage_nothing source with ⟨replaying, past, staged⟩ | ⟨replaying, empty, staged⟩
    · have notInside : ¬ pc.replayCursor ≤ cacheFrameCount c := by omega
      rw [staged]
      simp [ProxyConn.mailbox, ProxyConn.queued, ProxyConn.stagedBytes, replaying, past, notInside,
        Mailbox.read]
    · have contents := (RingQueue.contents_eq_nil_iff pc.queue).mpr empty
      rw [staged]
      simp [ProxyConn.mailbox, ProxyConn.queued, ProxyConn.stagedBytes, replaying, contents,
        Mailbox.read]

end MeshPbx
