import MeshPbx.ConfigCache
import Mathlib.Algebra.BigOperators.Group.List.Basic

/-! The config cache as the burst it stores: the list of frames with their
variants, in arrival order. Packing frames back to back keeps every stored
frame readable, so each cache operation is an operation on that list. -/
namespace MeshPbx
namespace ConfigCache

def entry (c : ConfigCache) (i : Nat) : Bytes × FromRadioTag :=
  (cacheFrameBytes c (c.index i), (c.index i).variant)

def frames (c : ConfigCache) : List (Bytes × FromRadioTag) :=
  (List.range c.count).map c.entry

def totalBytes (frames : List (Bytes × FromRadioTag)) : Nat :=
  (frames.map (fun frame => frame.1.length)).sum

/-- The two limits `cacheAddFrame` checks. -/
def Room (c : ConfigCache) (raw : Bytes) : Prop :=
  c.count < CONFIG_CACHE_MAX_FRAMES ∧ c.used + raw.length ≤ CONFIG_CACHE_ARENA_BYTES

instance (c : ConfigCache) (raw : Bytes) : Decidable (c.Room raw) :=
  inferInstanceAs (Decidable (_ ∧ _))

/-- Every indexed frame lies inside the used part of the arena. -/
structure Packed (c : ConfigCache) : Prop where
  count_le : c.count ≤ CONFIG_CACHE_MAX_FRAMES
  used_le : c.used ≤ CONFIG_CACHE_ARENA_BYTES
  inside : ∀ i < c.count, (c.index i).offset + (c.index i).len ≤ c.used
  used_eq : c.used = totalBytes c.frames

variable {c : ConfigCache} {raw : Bytes} {variant : FromRadioTag}

@[simp] theorem length_frames : c.frames.length = c.count := by
  simp [frames]

theorem mem_frames {frame : Bytes × FromRadioTag} :
    frame ∈ c.frames ↔ ∃ i < c.count, c.entry i = frame := by
  simp [frames]

/-- An accepted frame is stored behind the used bytes; neither 16-bit counter
wraps. -/
theorem add_room (room : c.Room raw) (variant : FromRadioTag) :
    (cacheAddFrame c raw variant).1 =
      { c with
        arena := c.arena.write c.used raw
        index := Function.update c.index c.count ⟨c.used, raw.length, variant⟩
        queuestatusIdx := if variant = .queueStatus then some c.count else c.queuestatusIdx
        ownNodeinfoIdx :=
          if variant = .nodeInfo ∧ c.ownNodeinfoIdx = none then some c.count else c.ownNodeinfoIdx
        used := c.used + raw.length
        count := c.count + 1 } := by
  obtain ⟨frames, bytes⟩ := room
  simp only [CONFIG_CACHE_MAX_FRAMES, CONFIG_CACHE_ARENA_BYTES] at frames bytes
  have used : (c.used + raw.length) % 2 ^ 16 = c.used + raw.length := Nat.mod_eq_of_lt (by omega)
  have count : (c.count + 1) % 2 ^ 16 = c.count + 1 := Nat.mod_eq_of_lt (by omega)
  have below : ¬ c.count ≥ 128 := by omega
  have inside : ¬ c.used + raw.length > 4096 := by omega
  simp only [cacheAddFrame, CONFIG_CACHE_MAX_FRAMES, CONFIG_CACHE_ARENA_BYTES, if_neg below,
    if_neg inside, used, count]

theorem add_full (full : ¬ c.Room raw) (variant : FromRadioTag) :
    (cacheAddFrame c raw variant).1 = c := by
  by_cases frames : c.count ≥ CONFIG_CACHE_MAX_FRAMES
  · simp only [cacheAddFrame, if_pos frames]
  · by_cases bytes : c.used + raw.length > CONFIG_CACHE_ARENA_BYTES
    · simp only [cacheAddFrame, if_neg frames, if_pos bytes]
    · exact absurd ⟨Nat.lt_of_not_le frames, Nat.le_of_not_lt bytes⟩ full

/-- A frame already stored reads back unchanged behind a later one. -/
theorem entry_add_old (packed : c.Packed) (room : c.Room raw) {i : Nat} (old : i < c.count) :
    (cacheAddFrame c raw variant).1.entry i = c.entry i := by
  have inside := packed.inside i old
  simp only [add_room room, entry, cacheFrameBytes, Function.update_of_ne (Nat.ne_of_lt old)]
  rw [ByteBuffer.read_write_disjoint _ _ _ _ _ (.inl inside)]

theorem entry_add_new (room : c.Room raw) :
    (cacheAddFrame c raw variant).1.entry c.count = (raw, variant) := by
  simp only [add_room room, entry, cacheFrameBytes, Function.update_self,
    ByteBuffer.read_write_same]

theorem frames_add (packed : c.Packed) (room : c.Room raw) (variant : FromRadioTag) :
    (cacheAddFrame c raw variant).1.frames = c.frames ++ [(raw, variant)] := by
  have count : (cacheAddFrame c raw variant).1.count = c.count + 1 := by rw [add_room room]
  have older : ∀ i ∈ List.range c.count,
      (cacheAddFrame c raw variant).1.entry i = c.entry i :=
    fun i member => entry_add_old packed room (List.mem_range.mp member)
  simp only [frames, count, List.range_succ, List.map_append, List.map_cons, List.map_nil,
    List.map_congr_left older, entry_add_new room]

theorem packed_zero : zero.Packed where
  count_le := Nat.zero_le _
  used_le := Nat.zero_le _
  inside i below := absurd below (Nat.not_lt_zero i)
  used_eq := rfl

theorem packed_begin (c : ConfigCache) : (cacheBegin c).Packed where
  count_le := Nat.zero_le _
  used_le := Nat.zero_le _
  inside i below := absurd below (Nat.not_lt_zero i)
  used_eq := rfl

@[simp] theorem frames_begin (c : ConfigCache) : (cacheBegin c).frames = [] := rfl

@[simp] theorem frames_mark_ready (c : ConfigCache) : (cacheMarkReady c).frames = c.frames := rfl

theorem Packed.mark_ready (packed : c.Packed) : (cacheMarkReady c).Packed :=
  ⟨packed.count_le, packed.used_le, packed.inside, packed.used_eq⟩

theorem Packed.add (packed : c.Packed) (raw : Bytes) (variant : FromRadioTag) :
    (cacheAddFrame c raw variant).1.Packed := by
  by_cases room : c.Room raw
  · have stored := frames_add packed room variant
    have total : totalBytes (cacheAddFrame c raw variant).1.frames = c.used + raw.length := by
      rw [stored, packed.used_eq]
      simp [totalBytes]
    refine ⟨?_, ?_, ?_, ?_⟩
    · rw [add_room room]
      exact room.1
    · rw [add_room room]
      exact room.2
    · intro i below
      rw [add_room room] at below ⊢
      rcases Nat.lt_succ_iff_lt_or_eq.mp below with old | rfl
      · have inside := packed.inside i old
        simp only [Function.update_of_ne (Nat.ne_of_lt old)]
        omega
      · simp only [Function.update_self]
        omega
    · rw [total, add_room room]
  · rw [add_full room]
    exact packed

end ConfigCache
end MeshPbx
