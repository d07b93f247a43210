import MeshPbx.CacheSegments
import MeshPbx.Lib.Packing

/-! A burst that is more than the cache can hold. Frames are admitted one by one
against two caps, so what is kept is a greedy packing of the burst, in which the
frames of the fixed part compete with the node_info frames that come before them. -/
namespace MeshPbx

/-- A stored frame with its variant, as the two caps count it. -/
def cachePacking : Packing (Bytes × FromRadioTag) where
  size := fun frame => frame.1.length
  maxCount := CONFIG_CACHE_MAX_FRAMES
  maxSize := CONFIG_CACHE_ARENA_BYTES

def isNodeinfoFrame (frame : Bytes × FromRadioTag) : Bool :=
  decide (frame.2 = .nodeInfo)

namespace ConfigCache
variable {c : ConfigCache} {raw : Bytes}

theorem total_bytes_packing (frames : List (Bytes × FromRadioTag)) :
    cachePacking.total frames = totalBytes frames := by
  induction frames with
  | nil => rfl
  | cons frame frames ih =>
    rw [Packing.total, ih]
    simp only [totalBytes, List.map_cons, List.sum_cons, cachePacking]

/-- The two checks of `cacheAddFrame` are the caps of the packing. -/
theorem room_iff_fits (packed : c.Packed) (variant : FromRadioTag) :
    c.Room raw ↔ cachePacking.Fits (c.frames ++ [(raw, variant)]) := by
  have total : cachePacking.total (c.frames ++ [(raw, variant)]) = c.used + raw.length := by
    rw [packed.used_eq, Packing.total_append, total_bytes_packing]
    rfl
  rw [Packing.Fits, total, List.length_append, length_frames]
  exact Iff.rfl

end ConfigCache

variable (c : ConfigCache) (frames : List (Bytes × FromRadioTag))

/-- What a burst leaves stored is its greedy packing. -/
theorem burst_frames : (cacheBurst c frames).frames = cachePacking.taken [] frames := by
  induction frames using List.reverseRecOn with
  | nil => rfl
  | append_singleton frames frame ih =>
    have packed := (burst_stored c frames).packed
    have fits : (cacheBurst c frames).Room frame.1 ↔
        cachePacking.Fits (cachePacking.taken [] frames ++ [frame]) := by
      rw [ConfigCache.room_iff_fits packed frame.2, ih]
    rw [burst_snoc, Packing.taken_append, List.nil_append]
    by_cases room : (cacheBurst c frames).Room frame.1
    · rw [ConfigCache.frames_add packed room, ih, Packing.taken_accepted (fits.mp room)]
      rfl
    · rw [ConfigCache.add_full room, ih, Packing.taken_refused (fun full => room (fits.mpr full))]
      exact (List.append_nil _).symm

theorem room_at (frame : Bytes × FromRadioTag) : (cacheBurst c frames).Room frame.1 ↔
    cachePacking.Fits (cachePacking.taken [] frames ++ [frame]) := by
  rw [ConfigCache.room_iff_fits (burst_stored c frames).packed frame.2, burst_frames]

/-- The frames of a burst that are not node_info. -/
def fixedPart (frames : List (Bytes × FromRadioTag)) : List (Bytes × FromRadioTag) :=
  frames.filter (fun frame => !isNodeinfoFrame frame)

def nodePart (frames : List (Bytes × FromRadioTag)) : List (Bytes × FromRadioTag) :=
  frames.filter isNodeinfoFrame

/-- What the overflow policy promises of a burst: all of the fixed part and the
first node_info frames are stored, in burst order. -/
structure OverflowKeeps : Prop where
  fixed : fixedPart (cacheBurst c frames).frames = fixedPart frames
  nodes : nodePart (cacheBurst c frames).frames <+: nodePart frames
  ordered : (cacheBurst c frames).frames.Sublist frames

theorem overflow_keeps_iff : OverflowKeeps c frames ↔
    cachePacking.KeepsNeeded isNodeinfoFrame frames := by
  have stored := burst_frames c frames
  constructor
  · intro keeps
    refine ⟨?_, ?_⟩
    · rw [← stored]
      exact keeps.fixed
    · rw [← stored]
      exact keeps.nodes
  · intro keeps
    refine ⟨?_, ?_, (burst_stored c frames).ordered⟩
    · rw [stored]
      exact keeps.needed
    · rw [stored]
      exact keeps.optional

/-- For a burst whose fixed part fits on its own, the policy is kept exactly where
the burst can be cut so that all before the cut fits with the fixed part behind it,
and no node_info behind the cut fits behind what is kept before it. -/
theorem fixed_part_kept_iff :
    (cachePacking.Fits (fixedPart frames) → OverflowKeeps c frames) ↔
      (cachePacking.Fits (fixedPart frames) →
        cachePacking.CutsCleanly isNodeinfoFrame [] frames) := by
  rw [overflow_keeps_iff, Packing.keeps_needed_iff]

/-- As many node_info frames as the index holds. -/
def crowd : List (Bytes × FromRadioTag) :=
  List.replicate CONFIG_CACHE_MAX_FRAMES ([0x22, 0x00], .nodeInfo)

/-- The crowd with a file_info behind it. -/
def crowdedBurst : List (Bytes × FromRadioTag) :=
  crowd ++ [([0x7a, 0x00], .fileInfo)]

/-- The node_info frames leave no entry for the file_info, which would have fitted. -/
theorem crowded_file_info_lost :
    cachePacking.Fits (fixedPart crowdedBurst) ∧ ¬ OverflowKeeps .zero crowdedBurst := by
  have count : crowd.length = CONFIG_CACHE_MAX_FRAMES := List.length_replicate
  have fits : cachePacking.Fits crowd := by
    refine ⟨Nat.le_of_eq count, ?_⟩
    rw [crowd, Packing.total_replicate]
    decide
  have full : ¬ cachePacking.Fits (crowd ++ [([0x7a, 0x00], .fileInfo)]) := by
    intro more
    have entries := more.1
    rw [List.length_append, count] at entries
    exact absurd entries (Nat.not_succ_le_self CONFIG_CACHE_MAX_FRAMES)
  have noneFixed : fixedPart crowd = [] := List.filter_replicate_of_neg (by decide)
  have fixed : fixedPart crowdedBurst = [([0x7a, 0x00], .fileInfo)] := by
    rw [fixedPart, crowdedBurst, List.filter_append]
    exact congrArg (· ++ [([0x7a, 0x00], FromRadioTag.fileInfo)]) noneFixed
  have stored : (cacheBurst .zero crowdedBurst).frames = crowd := by
    rw [burst_frames, crowdedBurst, Packing.taken_append, Packing.taken_of_fits fits,
      List.nil_append, Packing.taken_refused full]
    exact List.append_nil _
  constructor
  · rw [fixed]
    decide
  · intro keeps
    have lost := keeps.fixed
    rw [fixed, stored, noneFixed] at lost
    exact List.cons_ne_nil _ _ lost.symm

/-! The own node_info. -/

/-- The node_info frame in the segment of `MESH_NONCE_ONLY_CONFIG` is the first one
stored. -/
theorem only_config_nodeinfo (y : Bytes × FromRadioTag) :
    (∃ k ∈ segment (cacheBurst c frames) MESH_NONCE_ONLY_CONFIG 0,
        ((cacheBurst c frames).entry k).2 = .nodeInfo ∧ (cacheBurst c frames).entry k = y) ↔
      (cacheBurst c frames).frames.find? isNodeinfoFrame = some y := by
  have own : (cacheBurst c frames).frames.find? isNodeinfoFrame =
      (cacheBurst c frames).ownNodeinfoIdx.map (cacheBurst c frames).entry := by
    rw [(burst_stored c frames).ownFirst, ConfigCache.frames, List.find?_map]
    rfl
  rw [own, Option.map_eq_some_iff]
  constructor
  · rintro ⟨k, served, nodeInfo, same⟩
    have inside := in_segment_iff.mp (mem_segment.mp served)
    exact ⟨k, inside.2.2.2 rfl nodeInfo, same⟩
  · rintro ⟨k, first, same⟩
    have found := (burst_stored c frames).ownFirst.symm.trans first
    have below := List.mem_range.mp (List.mem_of_find?_eq_some found)
    have nodeInfo : ((cacheBurst c frames).index k).variant = .nodeInfo := by
      simpa [ConfigCache.isNodeinfo] using List.find?_some found
    have different : MESH_NONCE_ONLY_CONFIG ≠ MESH_NONCE_ONLY_NODES := by decide
    refine ⟨k, mem_segment.mpr (in_segment_iff.mpr ⟨below, ?_, ?_, fun _ _ => first⟩), nodeInfo, same⟩
    · rw [nodeInfo]
      exact FromRadioTag.noConfusion
    · exact fun nodes => absurd nodes different

/-- A phone that asks for the configuration alone is presented no other node than
the first of the burst. -/
def PresentsOwnOnly : Prop :=
  ∀ k ∈ segment (cacheBurst c frames) MESH_NONCE_ONLY_CONFIG 0,
    ((cacheBurst c frames).entry k).2 = .nodeInfo →
      frames.find? isNodeinfoFrame = some ((cacheBurst c frames).entry k)

/-- The first node_info of the burst finds room in the cache when it is offered, or
no later one does. -/
def FirstNodeHasRoom : Prop :=
  ∀ before own after, frames = before ++ own :: after →
    before.find? isNodeinfoFrame = none → isNodeinfoFrame own = true →
      (cacheBurst c before).Room own.1 ∨
        ∀ mid info rest, after = mid ++ info :: rest → isNodeinfoFrame info = true →
          ¬ (cacheBurst c (before ++ own :: mid)).Room info.1

theorem presents_own_iff : PresentsOwnOnly c frames ↔ ∀ y,
    (cachePacking.taken [] frames).find? isNodeinfoFrame = some y →
      frames.find? isNodeinfoFrame = some y := by
  simp only [← burst_frames c frames, ← only_config_nodeinfo]
  constructor
  · rintro presents y ⟨k, served, nodeInfo, rfl⟩
    exact presents k served nodeInfo
  · intro first k served nodeInfo
    exact first _ ⟨k, served, nodeInfo, rfl⟩

/-- The segment of `MESH_NONCE_ONLY_CONFIG` presents the first node of the burst and
no other, exactly where that one finds room or no later one does. -/
theorem own_node_presented_iff : PresentsOwnOnly c frames ↔ FirstNodeHasRoom c frames := by
  rw [presents_own_iff, Packing.first_optional_iff]
  simp only [FirstNodeHasRoom, room_at]

/-- Configuration frames that leave four bytes of the arena. -/
def tightConfig : List (Bytes × FromRadioTag) :=
  List.replicate 11 (List.replicate 372 0, .config)

/-- The own node in five bytes and another in four behind them. -/
def tightBurst : List (Bytes × FromRadioTag) :=
  tightConfig ++ [([0x22, 3, 8, 1, 0], .nodeInfo), ([0x22, 2, 8, 2], .nodeInfo)]

/-- The own node is refused, and the other one presented in its place. -/
theorem other_node_presented : ¬ PresentsOwnOnly .zero tightBurst := by
  have count : tightConfig.length = 11 := List.length_replicate
  have bytes : cachePacking.total tightConfig = 4092 := by
    rw [tightConfig, Packing.total_replicate]
    simp only [cachePacking, List.length_replicate]
  have fits : ∀ frame : Bytes × FromRadioTag,
      cachePacking.Fits (tightConfig ++ [frame]) ↔ frame.1.length ≤ 4 := by
    intro frame
    have total : cachePacking.total (tightConfig ++ [frame]) = 4092 + frame.1.length := by
      rw [Packing.total_append, bytes]
      rfl
    have entries : (tightConfig ++ [frame]).length ≤ 128 := by
      rw [List.length_append, count]
      exact Nat.le_of_ble_eq_true rfl
    rw [Packing.Fits, total]
    simp only [cachePacking, CONFIG_CACHE_MAX_FRAMES, CONFIG_CACHE_ARENA_BYTES, entries, true_and]
    omega
  have plain : tightConfig.find? isNodeinfoFrame = none := by
    rw [List.find?_eq_none]
    intro frame member
    rw [List.eq_of_mem_replicate member]
    decide
  have within : cachePacking.Fits tightConfig :=
    Packing.fits_sublist (List.sublist_append_left _ _) ((fits ([], .config)).mpr (Nat.zero_le _))
  have stored : cachePacking.taken [] tightBurst = tightConfig ++ [([0x22, 2, 8, 2], .nodeInfo)] := by
    rw [tightBurst, Packing.taken_append, Packing.taken_of_fits within, List.nil_append,
      Packing.taken_refused (fun room => absurd ((fits _).mp room) (by decide)),
      Packing.taken_accepted ((fits _).mpr (by decide))]
    rfl
  intro presents
  have first := (presents_own_iff .zero tightBurst).mp presents ([0x22, 2, 8, 2], .nodeInfo)
  rw [stored, List.find?_append, plain, tightBurst, List.find?_append, plain] at first
  exact absurd (first rfl) (by decide)

end MeshPbx
