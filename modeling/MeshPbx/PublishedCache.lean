import MeshPbx.Contents
import MeshPbx.WireFormat

/-! The cache after publication. A recovery refetch discards its burst, but a
terminator that is not the fetch's own still goes through the boot fetch's
storing path. -/
namespace MeshPbx
variable {n : Nat} {p : Platform} {w : Proxy n} {c d : ConfigCache}

/-- Nothing of the published burst has changed. -/
structure SameBurst (c d : ConfigCache) : Prop where
  count : d.count = c.count
  index : ∀ i, d.index i = c.index i
  arena : ∀ i, d.arena i = c.arena i
  used : d.used = c.used
  ready : d.ready = c.ready

theorem SameBurst.refl (c : ConfigCache) : SameBurst c c :=
  ⟨rfl, fun _ => rfl, fun _ => rfl, rfl, rfl⟩

/-- A config_complete frame that is not the refetch's own, while the cache has
room for it. -/
def StrayTerminator (p : Platform) (w : Proxy n) (e : Event n) : Prop :=
  e.Delivers fun frame =>
    w.session.state = .refetching ∧ w.cache.Room frame.bytes ∧
      (protoDecodeFromradio p frame.bytes).map (·.whichVariant) = some .configCompleteId ∧
      decodeConfigCompleteNonce p frame.bytes ≠ some w.session.nonce

instance (w : Proxy n) (e : Event n) : Decidable (StrayTerminator p w e) :=
  inferInstanceAs (Decidable (e.Delivers _))

theorem stray_terminator_stored {frame : Frame} {rand : UInt32}
    (stray : StrayTerminator p w (.fromradio frame rand)) :
    (onFromradioUart p w frame.bytes rand).cache =
      (cacheAddFrame w.cache frame.bytes .configCompleteId).1 := by
  obtain ⟨refetching, _, variant, foreign⟩ := stray
  obtain ⟨info, decoded, terminator⟩ := Option.map_eq_some_iff.mp variant
  have plain : info.whichVariant ≠ .packet := by simp [terminator]
  have routed : upstreamGetState w = .fetching ∨ upstreamGetState w = .refetching := .inr refetching
  obtain ⟨consumed, effect⟩ := fetch_effect p frame.bytes (.inr refetching) plain
  simp only [onFromradioUart, decoded, routerDispatch, if_pos routed, consumed, if_true]
  generalize (upstreamOnFromradio p w frame.bytes info).1 = after at effect ⊢
  cases effect with
  | stored => rw [terminator]
  | discarded _ other => exact absurd terminator other
  | published _ _ ours => exact absurd ours foreign
  | resumed _ _ ours => exact absurd ours foreign

/-- Over a published cache the only step that changes the burst stores a stray
terminator. -/
theorem published_step {e : Event n} (settled : Settled w) (published : w.cache.ready = true)
    (enabled : w.enabled e) :
    SameBurst w.cache (w.apply p e).cache ↔ ¬ StrayTerminator p w e := by
  constructor
  · intro same stray
    cases e with
    | fromradio frame rand =>
      have count := same.count
      rw [Proxy.apply, stray_terminator_stored stray, ConfigCache.add_room stray.2.1] at count
      simp at count
    | _ => exact stray
  · intro clean
    have states := settled.published.mp published
    have step := cache_step p e enabled
    generalize (w.apply p e).cache = after at step ⊢
    cases step with
    | same => exact SameBurst.refl _
    | opened rand unarmed =>
      have boot := settled.unarmed unarmed
      simp [boot] at states
    | reopened fetching => simp [fetching] at states
    | published frame rand fetching => simp [fetching] at states
    | stored frame rand info decoded window plain keeps =>
      have notFetching : w.session.state ≠ .fetching := by
        intro fetching
        simp [fetching] at states
      have refetching := window.resolve_left notFetching
      obtain ⟨terminator, foreign⟩ := keeps.resolve_right (fun other => notFetching other.2)
      by_cases room : w.cache.Room frame.bytes
      · have variant : (protoDecodeFromradio p frame.bytes).map (·.whichVariant) =
            some .configCompleteId := by simp [decoded, terminator]
        exact absurd ⟨refetching, room, variant, foreign⟩ clean
      · rw [ConfigCache.add_full room]
        exact SameBurst.refl _

/-- From the published cache of any reachable state, the burst stays as it is
in every later state exactly when no stray terminator arrives. -/
theorem published_cache_fixed_iff (reached : Reachable p w) (published : w.cache.ready = true)
    (es : List (Event n)) (runs : (system n p).Runs w es) :
    (∀ k, SameBurst w.cache ((system n p).run w (es.take k)).cache) ↔
      (system n p).Along (fun w e => ¬ StrayTerminator p w e) w es := by
  refine Machine.prefixes_iff_of_exact_step (fun v => SameBurst w.cache v.cache) settled_step
    ?_ es reached.settled (SameBurst.refl _) runs
  intro v e settled same enabled
  have ready : v.cache.ready = true := by rw [same.ready, published]
  have step := published_step (p := p) settled ready enabled
  rw [← step]
  constructor
  · intro later
    exact ⟨later.count.trans same.count.symm, fun i => (later.index i).trans (same.index i).symm,
      fun i => (later.arena i).trans (same.arena i).symm, later.used.trans same.used.symm,
      later.ready.trans same.ready.symm⟩
  · intro later
    exact ⟨later.count.trans same.count, fun i => (later.index i).trans (same.index i),
      fun i => (later.arena i).trans (same.arena i), later.used.trans same.used,
      later.ready.trans same.ready⟩

/-- Start, the terminator of the boot fetch, and a reboot that opens a refetch. -/
def refetchSchedule : List (Event 0) :=
  [.sessionStart 5, .fromradio (.of 0x38 [5]) 0,
    .fromradio (.of 0x40 [1]) 8]

/-- The refetch's own burst: my_info and its terminator. -/
def refetchBurst : List (Event 0) :=
  [.fromradio (.of 0x1a [0]) 0, .fromradio (.of 0x38 [8]) 0]

theorem refetch_burst_discarded :
    SameBurst ((system 0 .wire).run (.boot 0) refetchSchedule).cache
      ((system 0 .wire).run ((system 0 .wire).run (.boot 0) refetchSchedule)
        (refetchBurst.take 2)).cache :=
  (published_cache_fixed_iff (reachable_run refetchSchedule (by decide)) (by decide) refetchBurst
    (by decide)).mpr (by decide) 2

/-- A duplicate terminator of the boot fetch that arrives during the refetch is
appended to the published burst. -/
theorem duplicate_terminator_appended :
    ∃ (w : Proxy 0) (e : Event 0), Reachable .wire w ∧ w.cache.ready = true ∧ w.enabled e ∧
      ¬ SameBurst w.cache (w.apply .wire e).cache := by
  refine ⟨(system 0 .wire).run (.boot 0) refetchSchedule,
    .fromradio (.of 0x38 [5]) 0, reachable_run _ (by decide), by decide,
    trivial, ?_⟩
  intro same
  have count := same.count
  revert count
  decide

end MeshPbx
