import MeshPbx.Contents
import MeshPbx.ReplaySegment

/-! The replay segments of a cached burst. The two rounds of a phone's handshake
ask for the burst without the other nodes and for the nodes alone; together they
are the whole burst, and they share the node's own node_info. -/
namespace MeshPbx

/-- A burst offered to a cache that begins afresh, frame by frame. -/
def cacheBurst (c : ConfigCache) (frames : List (Bytes × FromRadioTag)) : ConfigCache :=
  frames.foldl (fun c frame => (cacheAddFrame c frame.1 frame.2).1) (cacheBegin c)

theorem burst_snoc (c : ConfigCache) (frames : List (Bytes × FromRadioTag))
    (frame : Bytes × FromRadioTag) : cacheBurst c (frames ++ [frame]) =
      (cacheAddFrame (cacheBurst c frames) frame.1 frame.2).1 := by
  simp only [cacheBurst, List.foldl_append, List.foldl_cons, List.foldl_nil]

namespace ConfigCache
variable {c : ConfigCache} {raw : Bytes} {variant : FromRadioTag}

def isNodeinfo (c : ConfigCache) (k : Nat) : Bool :=
  decide ((c.index k).variant = .nodeInfo)

/-- The remembered own node_info is the first node_info stored. -/
def OwnFirst (c : ConfigCache) : Prop :=
  c.ownNodeinfoIdx = (List.range c.count).find? c.isNodeinfo

theorem own_first_begin (c : ConfigCache) : (cacheBegin c).OwnFirst := rfl

/-- The indices in use keep their variants behind a frame that is added. -/
theorem find_old (room : c.Room raw) (variant : FromRadioTag) :
    (List.range c.count).find? (cacheAddFrame c raw variant).1.isNodeinfo =
      (List.range c.count).find? c.isNodeinfo := by
  rw [← List.head?_filter, ← List.head?_filter]
  refine congrArg List.head? (List.filter_congr (fun i member => ?_))
  have old : i ≠ c.count := Nat.ne_of_lt (List.mem_range.mp member)
  simp only [add_room room, isNodeinfo, Function.update_of_ne old]

theorem own_first_add (own : c.OwnFirst) (raw : Bytes) (variant : FromRadioTag) :
    (cacheAddFrame c raw variant).1.OwnFirst := by
  by_cases room : c.Room raw
  · have older := find_old room variant
    have newest : (cacheAddFrame c raw variant).1.isNodeinfo c.count =
        decide (variant = .nodeInfo) := by
      simp only [add_room room, isNodeinfo, Function.update_self]
    have count : (cacheAddFrame c raw variant).1.count = c.count + 1 := by rw [add_room room]
    rw [OwnFirst, count, List.range_succ, List.find?_append, older, ← own, List.find?_singleton,
      newest, add_room room]
    cases c.ownNodeinfoIdx with
    | none => simp
    | some first => simp
  · rw [add_full room]
    exact own

end ConfigCache

/-- What a burst leaves stored: the cache is packed, its frames are frames of the
burst in burst order, and it remembers the first node_info among them. -/
structure BurstStored (frames : List (Bytes × FromRadioTag)) (c : ConfigCache) : Prop where
  packed : c.Packed
  ordered : c.frames.Sublist frames
  ownFirst : c.OwnFirst

theorem burst_stored (c : ConfigCache) (frames : List (Bytes × FromRadioTag)) :
    BurstStored frames (cacheBurst c frames) := by
  induction frames using List.reverseRecOn with
  | nil => exact ⟨ConfigCache.packed_begin c, List.Sublist.slnil, ConfigCache.own_first_begin c⟩
  | append_singleton frames frame ih =>
    obtain ⟨packed, ordered, ownFirst⟩ := ih
    rw [burst_snoc]
    refine ⟨packed.add frame.1 frame.2, ?_, ConfigCache.own_first_add ownFirst frame.1 frame.2⟩
    by_cases room : (cacheBurst c frames).Room frame.1
    · rw [ConfigCache.frames_add packed room]
      exact ordered.append (List.Sublist.refl _)
    · rw [ConfigCache.add_full room]
      exact ordered.trans (List.sublist_append_left _ _)

/-! Which frames are in which segment. -/

section
variable {c : ConfigCache} {nonce : UInt32} {k : Nat}

theorem mem_segment : k ∈ segment c nonce 0 ↔ cacheFrameInSegment c k nonce = true := by
  simp only [segment, cacheFrameCount, List.mem_filter, List.mem_range'_1, Nat.zero_le, true_and,
    Nat.zero_add, Nat.sub_zero]
  refine and_iff_right_of_imp (fun inside => ?_)
  exact (in_segment_variant inside).1

/-- Past the stored frames, and at a terminator, no segment has anything. -/
theorem in_segment_iff : cacheFrameInSegment c k nonce = true ↔
    k < c.count ∧ (c.index k).variant ≠ .configCompleteId ∧
      (nonce = MESH_NONCE_ONLY_NODES → (c.index k).variant = .nodeInfo) ∧
      (nonce = MESH_NONCE_ONLY_CONFIG → (c.index k).variant = .nodeInfo →
        c.ownNodeinfoIdx = some k) := by
  have different : MESH_NONCE_ONLY_CONFIG ≠ MESH_NONCE_ONLY_NODES := by decide
  by_cases past : k ≥ c.count
  · have notBelow : ¬ k < c.count := Nat.not_lt_of_le past
    simp only [cacheFrameInSegment, if_pos past, notBelow, Bool.false_eq_true, false_and]
  · have below : k < c.count := Nat.lt_of_not_le past
    by_cases terminator : (c.index k).variant = .configCompleteId
    · simp [cacheFrameInSegment, past, terminator]
    · by_cases nodes : nonce = MESH_NONCE_ONLY_NODES
      · subst nodes
        simp [cacheFrameInSegment, past, terminator, below, different.symm]
      · by_cases config : nonce = MESH_NONCE_ONLY_CONFIG
        · subst config
          simp [cacheFrameInSegment, past, terminator, below, different, eq_comm (a := some k)]
          exact imp_iff_not_or.symm
        · simp [cacheFrameInSegment, past, terminator, below, nodes, config]

end

/-- The two rounds of the handshake, over any burst offered to a cache: together
they serve what an ordinary nonce is served, every stored frame but terminators;
they share the first node_info stored, if there is one; and every segment keeps
the order of the burst. -/
theorem rounds_serve_whole_burst (c : ConfigCache) (frames : List (Bytes × FromRadioTag))
    (nonce : UInt32) (notConfig : nonce ≠ MESH_NONCE_ONLY_CONFIG)
    (notNodes : nonce ≠ MESH_NONCE_ONLY_NODES) :
    let stored := cacheBurst c frames
    (∀ k, k ∈ segment stored MESH_NONCE_ONLY_CONFIG 0 ∨ k ∈ segment stored MESH_NONCE_ONLY_NODES 0 ↔
        k ∈ segment stored nonce 0) ∧
      (∀ k, k ∈ segment stored nonce 0 ↔
        k < stored.count ∧ (stored.entry k).2 ≠ .configCompleteId) ∧
      (∀ k, k ∈ segment stored MESH_NONCE_ONLY_CONFIG 0 ∧
          k ∈ segment stored MESH_NONCE_ONLY_NODES 0 ↔
        (List.range stored.count).find? (fun i => decide ((stored.entry i).2 = .nodeInfo)) =
          some k) ∧
      ∀ any : UInt32, (segment stored any 0).Pairwise (· < ·) ∧
        ((segment stored any 0).map stored.entry).Sublist stored.frames ∧
        stored.frames.Sublist frames := by
  intro stored
  obtain ⟨_, ordered, ownFirst⟩ := burst_stored c frames
  have different : MESH_NONCE_ONLY_CONFIG ≠ MESH_NONCE_ONLY_NODES := by decide
  have whole : ∀ k, k ∈ segment stored nonce 0 ↔
      k < stored.count ∧ (stored.index k).variant ≠ .configCompleteId := by
    intro k
    rw [mem_segment, in_segment_iff]
    exact and_congr_right fun _ => and_iff_left ⟨fun same => absurd same notNodes,
      fun same => absurd same notConfig⟩
  have config : ∀ k, k ∈ segment stored MESH_NONCE_ONLY_CONFIG 0 ↔
      k < stored.count ∧ (stored.index k).variant ≠ .configCompleteId ∧
        ((stored.index k).variant = .nodeInfo → stored.ownNodeinfoIdx = some k) := by
    intro k
    rw [mem_segment, in_segment_iff]
    refine and_congr_right fun _ => and_congr_right fun _ => ?_
    exact ⟨fun both => both.2 rfl, fun own => ⟨fun same => absurd same different, fun _ => own⟩⟩
  have nodes : ∀ k, k ∈ segment stored MESH_NONCE_ONLY_NODES 0 ↔
      k < stored.count ∧ (stored.index k).variant = .nodeInfo := by
    intro k
    rw [mem_segment, in_segment_iff]
    refine and_congr_right fun _ => ⟨fun all => all.2.1 rfl, fun nodeInfo => ?_⟩
    refine ⟨?_, fun _ => nodeInfo, fun same => absurd same.symm different⟩
    rw [nodeInfo]
    exact FromRadioTag.noConfusion
  refine ⟨?_, whole, ?_, ?_⟩
  · intro k
    rw [config, nodes, whole]
    constructor
    · rintro (⟨below, other, _⟩ | ⟨below, nodeInfo⟩)
      · exact ⟨below, other⟩
      · refine ⟨below, ?_⟩
        rw [nodeInfo]
        exact FromRadioTag.noConfusion
    · rintro ⟨below, other⟩
      by_cases nodeInfo : (stored.index k).variant = .nodeInfo
      · exact .inr ⟨below, nodeInfo⟩
      · exact .inl ⟨below, other, fun same => absurd same nodeInfo⟩
  · intro k
    rw [config, nodes]
    have own : stored.ownNodeinfoIdx = (List.range stored.count).find? stored.isNodeinfo := ownFirst
    constructor
    · rintro ⟨⟨_, _, first⟩, _, nodeInfo⟩
      exact own.symm.trans (first nodeInfo)
    · intro first
      have found : (List.range stored.count).find? stored.isNodeinfo = some k := first
      have below : k < stored.count := List.mem_range.mp (List.mem_of_find?_eq_some found)
      have nodeInfo : (stored.index k).variant = .nodeInfo := by
        simpa [ConfigCache.isNodeinfo] using List.find?_some found
      refine ⟨⟨below, ?_, fun _ => own.trans found⟩, below, nodeInfo⟩
      rw [nodeInfo]
      exact FromRadioTag.noConfusion
  · intro any
    have indices : (segment stored any 0).Sublist (List.range stored.count) := by
      rw [segment_start]
      exact List.filter_sublist
    exact ⟨List.pairwise_lt_range.sublist indices, indices.map stored.entry, ordered⟩

/-- A burst with the own node between two configuration frames, another node and
a terminator. -/
def twoRoundBurst : List (Bytes × FromRadioTag) :=
  [([0x2a, 0], .config), ([0x22, 1, 1], .nodeInfo), ([0x22, 1, 2], .nodeInfo),
    ([0x32, 0], .moduleConfig), ([0x38, 5], .configCompleteId)]

theorem two_rounds_served :
    let stored := cacheBurst .zero twoRoundBurst
    segment stored MESH_NONCE_ONLY_CONFIG 0 = [0, 1, 3] ∧
      segment stored MESH_NONCE_ONLY_NODES 0 = [1, 2] ∧
      ∀ k, k ∈ segment stored 7 0 ↔ k ∈ [0, 1, 3] ∨ k ∈ [1, 2] := by
  intro stored
  have config : segment stored MESH_NONCE_ONLY_CONFIG 0 = [0, 1, 3] := by decide
  have nodes : segment stored MESH_NONCE_ONLY_NODES 0 = [1, 2] := by decide
  have rounds := (rounds_serve_whole_burst .zero twoRoundBurst 7 (by decide) (by decide)).1
  refine ⟨config, nodes, fun k => ?_⟩
  rw [← rounds, config, nodes]

end MeshPbx
