import MeshPbx.CacheSegments

/-! The representation of the cache. The arena, the index and the two counters are
kept for speed of lookup; what they stand for is the list of the frames accepted
since the cache was begun, and every accessor reads that list. -/
namespace MeshPbx

/-- The frames of a burst that `cache_add_frame` accepts, in order. -/
def acceptedFrames (c : ConfigCache) : List (Bytes × FromRadioTag) → List (Bytes × FromRadioTag)
  | [] => []
  | frame :: rest =>
    let (next, rc) := cacheAddFrame c frame.1 frame.2
    if rc = none then frame :: acceptedFrames next rest else acceptedFrames next rest

/-- Entries lie back to back from the start of the arena to the bytes in use. -/
structure Contiguous (c : ConfigCache) : Prop where
  first : 0 < c.count → (c.index 0).offset = 0
  adjacent : ∀ i, i + 1 < c.count →
    (c.index (i + 1)).offset = (c.index i).offset + (c.index i).len
  last : ∀ i, i + 1 = c.count → c.used = (c.index i).offset + (c.index i).len
  empty : c.count = 0 → c.used = 0

/-- The cache stands for a list of accepted frames: its counters are within the
caps, its entries are contiguous, and each accessor reads the list. -/
structure Represents (c : ConfigCache) (accepted : List (Bytes × FromRadioTag)) : Prop where
  count_le : c.count ≤ CONFIG_CACHE_MAX_FRAMES
  used_le : c.used ≤ CONFIG_CACHE_ARENA_BYTES
  contiguous : Contiguous c
  count : cacheFrameCount c = accepted.length
  frame : ∀ i frame, accepted[i]? = some frame → ∃ ref, cacheFrameAt c i = some ref ∧
    cacheFrameBytes c ref = frame.1 ∧ ref.len = frame.1.length ∧ ref.variant = frame.2
  past : ∀ i, accepted.length ≤ i → cacheFrameAt c i = none
  queuestatus : cacheGetQueuestatus c =
    ((accepted.filter fun frame => frame.2 = .queueStatus).getLast?).map Prod.fst
  queuestatusIdx : ∀ k, c.queuestatusIdx = some k →
    ∃ raw, accepted[k]? = some (raw, .queueStatus)
  ownNodeinfoIdx : c.ownNodeinfoIdx = accepted.findIdx? fun frame => frame.2 = .nodeInfo

namespace ConfigCache
variable {c : ConfigCache} {raw : Bytes} {variant : FromRadioTag}

theorem add_accepted_iff (variant : FromRadioTag) :
    (cacheAddFrame c raw variant).2 = none ↔ c.Room raw := by
  by_cases frames : c.count ≥ CONFIG_CACHE_MAX_FRAMES
  · have full : ¬ c.Room raw := fun room => Nat.not_lt_of_le frames room.1
    simp [cacheAddFrame, frames, full]
  · by_cases bytes : c.used + raw.length > CONFIG_CACHE_ARENA_BYTES
    · have full : ¬ c.Room raw := fun room => Nat.not_lt_of_le room.2 bytes
      simp [cacheAddFrame, frames, bytes, full]
    · have room : c.Room raw := ⟨Nat.lt_of_not_le frames, Nat.le_of_not_lt bytes⟩
      simp [cacheAddFrame, frames, bytes, room]

/-! The index. -/

theorem contiguous_begin (c : ConfigCache) : Contiguous (cacheBegin c) where
  first := fun filled => absurd filled (Nat.lt_irrefl 0)
  adjacent := fun _ below => absurd below (Nat.not_lt_zero _)
  last := fun i same => absurd same (Nat.succ_ne_zero i)
  empty := fun _ => rfl

/-- The new entry starts at the bytes in use, which is where the last one ends. -/
theorem contiguous_add (contiguous : Contiguous c) (raw : Bytes) (variant : FromRadioTag) :
    Contiguous (cacheAddFrame c raw variant).1 := by
  by_cases room : c.Room raw
  · obtain ⟨first, adjacent, last, empty⟩ := contiguous
    rw [add_room room]
    refine ⟨fun _ => ?_, fun i below => ?_, fun i same => ?_, fun none => ?_⟩
    · by_cases filled : c.count = 0
      · simp only [filled, Function.update_self]
        exact empty filled
      · have old : 0 ≠ c.count := Ne.symm filled
        simp only [Function.update_of_ne old]
        exact first (Nat.pos_of_ne_zero filled)
    · have old : i ≠ c.count := by
        simp only at below
        omega
      by_cases newest : i + 1 = c.count
      · simp only [newest, Function.update_self, Function.update_of_ne old]
        exact last i newest
      · simp only [Function.update_of_ne old, Function.update_of_ne newest]
        refine adjacent i ?_
        simp only at below
        omega
    · have newest : i = c.count := by
        simp only at same
        omega
      simp only [newest, Function.update_self]
    · exact absurd none (Nat.succ_ne_zero c.count)
  · rw [add_full room]
    exact contiguous

/-! The remembered queueStatus. -/

def isQueuestatus (c : ConfigCache) (k : Nat) : Bool :=
  decide ((c.index k).variant = .queueStatus)

/-- The remembered queueStatus is the last one stored. -/
def StatusLast (c : ConfigCache) : Prop :=
  c.queuestatusIdx = ((List.range c.count).filter c.isQueuestatus).getLast?

theorem status_last_begin (c : ConfigCache) : (cacheBegin c).StatusLast := rfl

theorem status_last_add (status : c.StatusLast) (raw : Bytes) (variant : FromRadioTag) :
    (cacheAddFrame c raw variant).1.StatusLast := by
  by_cases room : c.Room raw
  · have older : (List.range c.count).filter (cacheAddFrame c raw variant).1.isQueuestatus =
        (List.range c.count).filter c.isQueuestatus := by
      refine List.filter_congr (fun i member => ?_)
      have old : i ≠ c.count := Nat.ne_of_lt (List.mem_range.mp member)
      simp only [add_room room, isQueuestatus, Function.update_of_ne old]
    have newest : (cacheAddFrame c raw variant).1.isQueuestatus c.count =
        decide (variant = .queueStatus) := by
      simp only [add_room room, isQueuestatus, Function.update_self]
    have remembered : (cacheAddFrame c raw variant).1.queuestatusIdx =
        if variant = .queueStatus then some c.count else c.queuestatusIdx := by
      rw [add_room room]
    have count : (cacheAddFrame c raw variant).1.count = c.count + 1 := by rw [add_room room]
    rw [StatusLast, remembered, count, List.range_succ, List.filter_append, older,
      List.filter_singleton, newest, List.getLast?_append, ← status]
    by_cases queueStatus : variant = .queueStatus
    · simp [queueStatus]
    · simp [queueStatus]
  · rw [add_full room]
    exact status

/-! The stored frames. -/

/-- The frames of one variant are those at the indices of that variant. -/
theorem frames_filter (c : ConfigCache) (tag : FromRadioTag) :
    c.frames.filter (fun frame => decide (frame.2 = tag)) =
      ((List.range c.count).filter fun k => decide ((c.index k).variant = tag)).map c.entry := by
  rw [frames, List.filter_map]
  rfl

theorem frames_get {i : Nat} {frame : Bytes × FromRadioTag} :
    c.frames[i]? = some frame ↔ i < c.count ∧ c.entry i = frame := by
  by_cases below : i < c.count
  · simp [frames, below]
  · simp [below]

theorem get_queuestatus_last (status : c.StatusLast) : cacheGetQueuestatus c =
    ((c.frames.filter fun frame => frame.2 = .queueStatus).getLast?).map Prod.fst := by
  rw [frames_filter, List.getLast?_map, cacheGetQueuestatus, status, Option.map_map]
  rfl

/-- In a list of indices each stands at its own place. -/
theorem range_find_index (count : Nat) (found : Nat → Bool) :
    (List.range count).findIdx? found = (List.range count).find? found := by
  induction count with
  | zero => rfl
  | succ count ih =>
    rw [List.range_succ, List.findIdx?_append, List.find?_append, ih, List.findIdx?_singleton,
      List.find?_singleton, List.length_range]
    cases found count <;> simp

/-- The first node_info by its index is the first by its frame. -/
theorem own_nodeinfo_first (own : c.OwnFirst) :
    c.ownNodeinfoIdx = c.frames.findIdx? fun frame => frame.2 = .nodeInfo := by
  rw [frames, List.findIdx?_map, range_find_index]
  exact own

/-- A cache with these invariants stands for the frames it stores. -/
theorem represents_frames (packed : c.Packed) (contiguous : Contiguous c) (status : c.StatusLast)
    (own : c.OwnFirst) : Represents c c.frames where
  count_le := packed.count_le
  used_le := packed.used_le
  contiguous := contiguous
  count := length_frames.symm
  frame := by
    intro i frame stored
    obtain ⟨below, rfl⟩ := frames_get.mp stored
    refine ⟨c.index i, if_neg (Nat.not_le_of_lt below), rfl, ?_, rfl⟩
    exact (ByteBuffer.length_read _ _ _).symm
  past := by
    intro i past
    rw [length_frames] at past
    exact if_pos past
  queuestatus := get_queuestatus_last status
  queuestatusIdx := by
    intro k remembered
    rw [status] at remembered
    have member := List.mem_filter.mp (List.mem_of_getLast? remembered)
    have below := List.mem_range.mp member.1
    have variant : (c.index k).variant = .queueStatus := by simpa [isQueuestatus] using member.2
    exact ⟨_, frames_get.mpr ⟨below, by rw [← variant]; rfl⟩⟩
  ownNodeinfoIdx := own_nodeinfo_first own

end ConfigCache

/-! The burst. -/

theorem accepted_cons (c : ConfigCache) (frame : Bytes × FromRadioTag)
    (rest : List (Bytes × FromRadioTag)) : acceptedFrames c (frame :: rest) =
      if (cacheAddFrame c frame.1 frame.2).2 = none then
        frame :: acceptedFrames (cacheAddFrame c frame.1 frame.2).1 rest
      else acceptedFrames (cacheAddFrame c frame.1 frame.2).1 rest := rfl

theorem accepted_append (c : ConfigCache) (frames later : List (Bytes × FromRadioTag)) :
    acceptedFrames c (frames ++ later) = acceptedFrames c frames ++
      acceptedFrames (frames.foldl (fun c frame => (cacheAddFrame c frame.1 frame.2).1) c) later := by
  induction frames generalizing c with
  | nil => rfl
  | cons frame frames ih =>
    rw [List.cons_append, accepted_cons, accepted_cons, ih, List.foldl_cons]
    split_ifs <;> rfl

/-- What the cache stores of a burst is what it has accepted of it. -/
theorem burst_accepted (c : ConfigCache) (frames : List (Bytes × FromRadioTag)) :
    (cacheBurst c frames).frames = acceptedFrames (cacheBegin c) frames := by
  induction frames using List.reverseRecOn with
  | nil => rfl
  | append_singleton frames frame ih =>
    have packed := (burst_stored c frames).packed
    have newest := accepted_cons (cacheBurst c frames) frame []
    have both : acceptedFrames (cacheBegin c) (frames ++ [frame]) =
        acceptedFrames (cacheBegin c) frames ++ acceptedFrames (cacheBurst c frames) [frame] :=
      accepted_append (cacheBegin c) frames [frame]
    rw [both, newest, ← ih, burst_snoc]
    split_ifs with taken
    · exact ConfigCache.frames_add packed ((ConfigCache.add_accepted_iff frame.2).mp taken) frame.2
    · rw [ConfigCache.add_full (fun room => taken ((ConfigCache.add_accepted_iff frame.2).mpr room))]
      exact (List.append_nil _).symm

theorem burst_contiguous (c : ConfigCache) (frames : List (Bytes × FromRadioTag)) :
    Contiguous (cacheBurst c frames) ∧ (cacheBurst c frames).StatusLast := by
  induction frames using List.reverseRecOn with
  | nil => exact ⟨ConfigCache.contiguous_begin c, ConfigCache.status_last_begin c⟩
  | append_singleton frames frame ih =>
    rw [burst_snoc]
    exact ⟨ConfigCache.contiguous_add ih.1 frame.1 frame.2,
      ConfigCache.status_last_add ih.2 frame.1 frame.2⟩

/-- After `cache_begin` and any frames offered, of any size and variant, the cache
stands for exactly the frames it has accepted, and a frame it refuses changes
nothing. -/
theorem cache_represents_accepted (c : ConfigCache) (frames : List (Bytes × FromRadioTag)) :
    Represents (cacheBurst c frames) (acceptedFrames (cacheBegin c) frames) ∧
      ∀ raw variant, (cacheAddFrame (cacheBurst c frames) raw variant).2 ≠ none →
        (cacheAddFrame (cacheBurst c frames) raw variant).1 = cacheBurst c frames := by
  obtain ⟨packed, _, own⟩ := burst_stored c frames
  obtain ⟨contiguous, status⟩ := burst_contiguous c frames
  constructor
  · rw [← burst_accepted]
    exact ConfigCache.represents_frames packed contiguous status own
  · intro raw variant refused
    exact ConfigCache.add_full (fun room => refused ((ConfigCache.add_accepted_iff variant).mpr room))
      variant

end MeshPbx
