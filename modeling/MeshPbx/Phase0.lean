import MeshPbx.CacheOverflow
import MeshPbx.SessionInvariant

/-! The measurement of the config burst. The session counts the bytes and frames of each
variant beside the cache and logs them when it publishes, to size the arena by. -/
namespace MeshPbx
variable {n : Nat} {p : Platform} {w : Proxy n}

structure Phase0Stats where
  totalBytes : UInt32
  myInfoBytes : UInt32
  deviceuiConfigBytes : UInt32
  nodeInfoBytes : UInt32
  nodeInfoCount : UInt16
  metadataBytes : UInt32
  channelBytes : UInt32
  channelCount : UInt16
  configBytes : UInt32
  configCount : UInt16
  moduleConfigBytes : UInt32
  moduleConfigCount : UInt16
  fileInfoBytes : UInt32
  fileInfoCount : UInt16
  queueStatusBytes : UInt32
  queueStatusCount : UInt16
  configCompleteId : UInt32
  otherBytes : UInt32
  otherCount : UInt16
  deriving DecidableEq, Repr

def phase0Reset : Phase0Stats := ⟨0, 0, 0, 0, 0, 0, 0, 0, 0, 0, 0, 0, 0, 0, 0, 0, 0, 0, 0⟩

def phase0Account (s : Phase0Stats) (variant : FromRadioTag) (len : Nat) : Phase0Stats :=
  let len := UInt32.ofNat len
  let s := { s with totalBytes := s.totalBytes + len }
  match variant with
  | .myInfo => { s with myInfoBytes := s.myInfoBytes + len }
  | .deviceuiConfig => { s with deviceuiConfigBytes := s.deviceuiConfigBytes + len }
  | .nodeInfo =>
    { s with nodeInfoBytes := s.nodeInfoBytes + len, nodeInfoCount := s.nodeInfoCount + 1 }
  | .metadata => { s with metadataBytes := s.metadataBytes + len }
  | .channel => { s with channelBytes := s.channelBytes + len, channelCount := s.channelCount + 1 }
  | .config => { s with configBytes := s.configBytes + len, configCount := s.configCount + 1 }
  | .moduleConfig =>
    { s with
      moduleConfigBytes := s.moduleConfigBytes + len
      moduleConfigCount := s.moduleConfigCount + 1 }
  | .fileInfo =>
    { s with fileInfoBytes := s.fileInfoBytes + len, fileInfoCount := s.fileInfoCount + 1 }
  | .queueStatus =>
    { s with
      queueStatusBytes := s.queueStatusBytes + len
      queueStatusCount := s.queueStatusCount + 1 }
  | _ => { s with otherBytes := s.otherBytes + len, otherCount := s.otherCount + 1 }

/-- The statistics, and the breakdown that was logged last. -/
structure Phase0 where
  stats : Phase0Stats
  logged : Option Phase0Stats
  deriving DecidableEq, Repr

namespace Phase0

def zero : Phase0 := ⟨phase0Reset, none⟩

def account (m : Phase0) (variant : FromRadioTag) (payload : Bytes) : Phase0 :=
  { m with stats := phase0Account m.stats variant payload.length }

/-- What `upstream_on_fromradio` does to the statistics. -/
def onFromradio (p : Platform) (s : Session) (m : Phase0) (payload : Bytes)
    (info : FromradioInfo) : Phase0 :=
  if s.state ≠ .fetching ∧ s.state ≠ .refetching then m
  else if info.whichVariant = .packet then m
  else if info.whichVariant = .configCompleteId then
    match decodeConfigCompleteNonce p payload with
    | none => m.account info.whichVariant payload
    | some gotNonce =>
      if gotNonce ≠ s.nonce then m.account info.whichVariant payload
      else
        let m := { m with stats := { m.stats with configCompleteId := gotNonce } }
        if s.state = .fetching then
          let m := m.account info.whichVariant payload
          { m with logged := some m.stats }
        else m
  else if s.state = .fetching then m.account info.whichVariant payload
  else m

/-- The statistics beside a handler run of the proxy. -/
def after (p : Platform) (w : Proxy n) (m : Phase0) : Event n → Phase0
  | .sessionStart rand =>
    match encodeWantConfig p (if reservedNonce rand then 2 else rand) with
    | none => m
    | some _ => { m with stats := phase0Reset }
  | .fromradio frame _ =>
    match protoDecodeFromradio p frame.bytes with
    | none => m
    | some info => m.onFromradio p w.session frame.bytes info
  | .fetchRetry => if w.session.state = .fetching then { m with stats := phase0Reset } else m
  | _ => m

end Phase0

/-- The frames offered to the cache since it was begun, and the one that closed the
fetch. -/
structure Offered where
  burst : List (Bytes × FromRadioTag)
  closing : List (Bytes × FromRadioTag)
  deriving DecidableEq, Repr

namespace Offered

def zero : Offered := ⟨[], []⟩

/-- A frame of a fetch is offered to the cache, closes the boot fetch or is dropped. -/
def onFromradio (p : Platform) (s : Session) (o : Offered) (payload : Bytes)
    (info : FromradioInfo) : Offered :=
  let offered := { o with burst := o.burst ++ [(payload, info.whichVariant)] }
  if info.whichVariant = .configCompleteId then
    if decodeConfigCompleteNonce p payload ≠ some s.nonce then offered
    else if s.state = .fetching then { o with closing := [(payload, info.whichVariant)] }
    else o
  else if s.state = .fetching then offered
  else o

def after (p : Platform) (w : Proxy n) (o : Offered) : Event n → Offered
  | .sessionStart rand =>
    match encodeWantConfig p (if reservedNonce rand then 2 else rand) with
    | none => o
    | some _ => zero
  | .fromradio frame _ =>
    match protoDecodeFromradio p frame.bytes with
    | none => o
    | some info =>
      if w.session.Window ∧ info.whichVariant ≠ .packet then o.onFromradio p w.session frame.bytes info
      else o
  | .fetchRetry => if w.session.state = .fetching then zero else o
  | _ => o

end Offered

/-- The proxy with its statistics, and beside them what they should be of. -/
def measured (n : Nat) (p : Platform) : Machine (Proxy n × Phase0 × Offered) (Event n) where
  enabled s e := s.1.enabled e
  next s e := (s.1.apply p e, s.2.1.after p s.1 e, s.2.2.after p s.1 e)

instance (p : Platform) (s : Proxy n × Phase0 × Offered) (e : Event n) :
    Decidable ((measured n p).enabled s e) :=
  inferInstanceAs (Decidable (s.1.enabled e))

/-! The rows of the breakdown. -/

inductive Phase0Row where
  | myInfo | deviceuiConfig | nodeInfo | metadata | channel | config | moduleConfig | fileInfo
  | queueStatus | other
  deriving DecidableEq, Repr

namespace Phase0Row

def all : List Phase0Row :=
  [.myInfo, .deviceuiConfig, .nodeInfo, .metadata, .channel, .config, .moduleConfig, .fileInfo,
    .queueStatus, .other]

/-- The row of a variant; a config_complete_id has none of its own. -/
def of : FromRadioTag → Phase0Row
  | .myInfo => .myInfo
  | .deviceuiConfig => .deviceuiConfig
  | .nodeInfo => .nodeInfo
  | .metadata => .metadata
  | .channel => .channel
  | .config => .config
  | .moduleConfig => .moduleConfig
  | .fileInfo => .fileInfo
  | .queueStatus => .queueStatus
  | _ => .other

def bytes (s : Phase0Stats) : Phase0Row → UInt32
  | .myInfo => s.myInfoBytes
  | .deviceuiConfig => s.deviceuiConfigBytes
  | .nodeInfo => s.nodeInfoBytes
  | .metadata => s.metadataBytes
  | .channel => s.channelBytes
  | .config => s.configBytes
  | .moduleConfig => s.moduleConfigBytes
  | .fileInfo => s.fileInfoBytes
  | .queueStatus => s.queueStatusBytes
  | .other => s.otherBytes

/-- Three variants come once, and only their bytes are counted. -/
def count (s : Phase0Stats) : Phase0Row → Option UInt16
  | .myInfo | .deviceuiConfig | .metadata => none
  | .nodeInfo => some s.nodeInfoCount
  | .channel => some s.channelCount
  | .config => some s.configCount
  | .moduleConfig => some s.moduleConfigCount
  | .fileInfo => some s.fileInfoCount
  | .queueStatus => some s.queueStatusCount
  | .other => some s.otherCount

/-- The frames of a burst that belong to a row. -/
def part (row : Phase0Row) (burst : List (Bytes × FromRadioTag)) : List (Bytes × FromRadioTag) :=
  burst.filter fun frame => decide (of frame.2 = row)

end Phase0Row

variable {s : Phase0Stats} {variant : FromRadioTag} {len : Nat}

theorem total_account : (phase0Account s variant len).totalBytes = s.totalBytes + UInt32.ofNat len := by
  cases variant <;> rfl

theorem bytes_account (row : Phase0Row) : row.bytes (phase0Account s variant len) =
    if .of variant = row then row.bytes s + UInt32.ofNat len else row.bytes s := by
  cases variant <;> cases row <;> rfl

theorem count_account (row : Phase0Row) : row.count (phase0Account s variant len) =
    if .of variant = row then (row.count s).map (· + 1) else row.count s := by
  cases variant <;> cases row <;> rfl

/-- The rows add up to the total. -/
def Phase0Stats.Balanced (s : Phase0Stats) : Prop :=
  s.totalBytes = Phase0Row.all.foldr (fun row sum => row.bytes s + sum) 0

theorem balanced_account (balanced : s.Balanced) : (phase0Account s variant len).Balanced := by
  unfold Phase0Stats.Balanced at balanced ⊢
  simp only [total_account, balanced, bytes_account, Phase0Row.all, List.foldr_cons, List.foldr_nil]
  generalize Phase0Row.of variant = row
  cases row <;> simp <;> ac_rfl

/-! The burst they measure. -/

/-- The statistics are those of a burst, as far as the counters reach. -/
structure Measures (burst : List (Bytes × FromRadioTag)) (s : Phase0Stats) : Prop where
  total : s.totalBytes = UInt32.ofNat (ConfigCache.totalBytes burst)
  bytes : ∀ row : Phase0Row, row.bytes s = UInt32.ofNat (ConfigCache.totalBytes (row.part burst))
  count : ∀ (row : Phase0Row) k, row.count s = some k → k = UInt16.ofNat (row.part burst).length
  balanced : s.Balanced

variable {burst burst' : List (Bytes × FromRadioTag)} {raw : Bytes} {c : ConfigCache}
variable {m : Phase0} {o : Offered}

theorem measures_reset : Measures [] phase0Reset where
  total := rfl
  bytes row := by cases row <;> rfl
  count row k read := by
    cases row <;> cases read <;> rfl
  balanced := rfl

theorem total_bytes_cons (frame : Bytes × FromRadioTag) (burst : List (Bytes × FromRadioTag)) :
    ConfigCache.totalBytes (frame :: burst) = frame.1.length + ConfigCache.totalBytes burst := by
  simp [ConfigCache.totalBytes]

theorem total_bytes_perm (perm : burst'.Perm burst) :
    ConfigCache.totalBytes burst' = ConfigCache.totalBytes burst :=
  (perm.map _).sum_eq

/-- One frame more, wherever it is put. -/
theorem Measures.account (measures : Measures burst s) (more : burst'.Perm ((raw, variant) :: burst)) :
    Measures burst' (phase0Account s variant raw.length) := by
  have part (row : Phase0Row) : (row.part burst').Perm (row.part ((raw, variant) :: burst)) :=
    more.filter _
  refine ⟨?_, fun row => ?_, fun row k read => ?_, balanced_account measures.balanced⟩
  · rw [total_account, measures.total, total_bytes_perm more, total_bytes_cons, UInt32.ofNat_add,
      UInt32.add_comm]
  · rw [bytes_account, total_bytes_perm (part row), measures.bytes]
    unfold Phase0Row.part
    by_cases mine : Phase0Row.of variant = row
    · rw [if_pos mine, List.filter_cons_of_pos (by simpa using mine), total_bytes_cons,
        UInt32.ofNat_add, UInt32.add_comm]
    · rw [if_neg mine, List.filter_cons_of_neg (by simpa using mine)]
  · rw [count_account] at read
    rw [(part row).length_eq]
    unfold Phase0Row.part
    by_cases mine : Phase0Row.of variant = row
    · rw [if_pos mine] at read
      obtain ⟨before, counted, rfl⟩ := Option.map_eq_some_iff.mp read
      rw [List.filter_cons_of_pos (by simpa using mine), List.length_cons, UInt16.ofNat_add,
        measures.count row before counted]
      rfl
    · rw [if_neg mine] at read
      rw [List.filter_cons_of_neg (by simpa using mine)]
      exact measures.count row k read

/-- The closing nonce is none of the counters. -/
theorem Measures.closed (measures : Measures burst s) (id : UInt32) :
    Measures burst { s with configCompleteId := id } where
  total := measures.total
  bytes row := by
    rw [← measures.bytes row]
    cases row <;> rfl
  count row k read := by
    refine measures.count row k ?_
    cases row <;> exact read
  balanced := measures.balanced

/-! The cache beside it. -/

/-- The cache has been begun and offered the burst; the statistics are of that burst and
of the frame that has closed it, and the logged ones of what there was of it then. -/
structure Metered (w : Proxy n) (m : Phase0) (o : Offered) : Prop where
  cache : ∃ c, w.cache = { cacheBurst c o.burst with ready := w.cache.ready }
  closed : o.closing.length = if w.cache.ready = true then 1 else 0
  terminator : ∀ frame ∈ o.closing, frame.2 = .configCompleteId
  measures : Measures (o.closing ++ o.burst) m.stats
  published : m.logged.isSome = w.cache.ready
  logged : ∀ b ∈ m.logged, ∃ published later, o.burst = published ++ later ∧
    Measures (o.closing ++ published) b

/-- A fetch that is begun, or begun anew, is measured from the start. -/
theorem metered_begin {w : Proxy n} (cache : w.cache = cacheBegin c) (unlogged : m.logged = none) :
    Metered w { m with stats := phase0Reset } .zero where
  cache := ⟨c, by rw [cache]; rfl⟩
  closed := by rw [cache]; rfl
  terminator := fun _ member => absurd member List.not_mem_nil
  measures := measures_reset
  published := by rw [cache, unlogged]; rfl
  logged b member := by rw [unlogged] at member; cases member

theorem Metered.kept {w' : Proxy n} (metered : Metered w m o) (same : w'.cache = w.cache) :
    Metered w' m o := by
  obtain ⟨cache, closed, terminator, measures, published, logged⟩ := metered
  exact ⟨by rw [same]; exact cache, by rw [same]; exact closed, terminator, measures,
    by rw [same]; exact published, logged⟩

/-- Nothing has been logged before the cache is published. -/
theorem Metered.unlogged (metered : Metered w m o) (settled : Settled w)
    (unpublished : ¬ (w.session.state = .live ∨ w.session.state = .refetching)) :
    w.cache.ready = false ∧ m.logged = none := by
  have unready : w.cache.ready = false := by
    rw [Bool.eq_false_iff, ne_eq, settled.published]
    exact unpublished
  exact ⟨unready, by simpa [unready] using metered.published⟩

theorem add_ready (c : ConfigCache) (ready : Bool) (raw : Bytes) (variant : FromRadioTag) :
    (cacheAddFrame { c with ready := ready } raw variant).1 =
      { (cacheAddFrame c raw variant).1 with ready := ready } := by
  unfold cacheAddFrame
  split_ifs <;> rfl

theorem Metered.stored {w' : Proxy n} (metered : Metered w m o)
    (added : w'.cache = (cacheAddFrame w.cache raw variant).1) :
    Metered w' (m.account variant raw) { o with burst := o.burst ++ [(raw, variant)] } := by
  obtain ⟨⟨c, cache⟩, closed, terminator, measures, published, logged⟩ := metered
  have ready : w'.cache.ready = w.cache.ready := by rw [added, ready_add]
  refine ⟨⟨c, ?_⟩, by rw [ready]; exact closed, terminator, measures.account ?_,
    by rw [ready]; exact published, fun b member => ?_⟩
  · rw [ready, added, burst_snoc]
    conv_lhs => rw [cache]
    exact add_ready _ _ _ _
  · rw [← List.append_assoc]
    exact List.perm_append_singleton _ _
  · obtain ⟨before, later, split, measured⟩ := logged b member
    exact ⟨before, later ++ [(raw, variant)], by rw [split, List.append_assoc], measured⟩

/-- The frame that closes the fetch is measured, logged with the rest and not stored. -/
theorem Metered.publish {w' : Proxy n} (metered : Metered w m o)
    (unready : w.cache.ready = false) (marked : w'.cache = cacheMarkReady w.cache) (id : UInt32) :
    let stats := phase0Account { m.stats with configCompleteId := id } .configCompleteId raw.length
    Metered w' ⟨stats, some stats⟩ { o with closing := [(raw, .configCompleteId)] } := by
  intro stats
  obtain ⟨⟨c, cache⟩, closed, _, measures, _, _⟩ := metered
  have none_yet : o.closing = [] := List.eq_nil_of_length_eq_zero (by simpa [unready] using closed)
  rw [none_yet, List.nil_append] at measures
  have whole : Measures ([(raw, .configCompleteId)] ++ o.burst) stats :=
    (measures.closed id).account (List.Perm.refl _)
  refine ⟨⟨c, ?_⟩, ?_, ?_, whole, ?_, ?_⟩
  · rw [marked, cacheMarkReady]
    conv_lhs => rw [cache]
  · rw [marked]
    rfl
  · intro frame member
    rw [List.mem_singleton.mp member]
  · rw [marked]
    rfl
  · intro b member
    obtain rfl := Option.some.inj member
    exact ⟨o.burst, [], (List.append_nil _).symm, whole⟩

/-! What a frame does to the statistics. -/

theorem on_fromradio_outside {payload : Bytes} {info : FromradioInfo}
    (outside : ¬ w.session.Window) : m.onFromradio p w.session payload info = m := by
  have idle : w.session.state ≠ .fetching ∧ w.session.state ≠ .refetching := not_or.mp outside
  rw [Phase0.onFromradio, if_pos idle]

theorem on_fromradio_inside {payload : Bytes} {info : FromradioInfo} (window : w.session.Window)
    (plain : info.whichVariant ≠ .packet) : m.onFromradio p w.session payload info =
      if info.whichVariant = .configCompleteId then
        if decodeConfigCompleteNonce p payload ≠ some w.session.nonce then
          m.account info.whichVariant payload
        else
          let m := { m with stats := { m.stats with configCompleteId := w.session.nonce } }
          if w.session.state = .fetching then
            let m := m.account info.whichVariant payload
            { m with logged := some m.stats }
          else m
      else if w.session.state = .fetching then m.account info.whichVariant payload
      else m := by
  have inside : ¬ (w.session.state ≠ .fetching ∧ w.session.state ≠ .refetching) := by
    rintro ⟨notFetching, notRefetching⟩
    exact window.elim notFetching notRefetching
  rw [Phase0.onFromradio, if_neg inside, if_neg plain]
  by_cases terminator : info.whichVariant = .configCompleteId
  · rw [if_pos terminator, if_pos terminator]
    cases decodeConfigCompleteNonce p payload with
    | none => simp
    | some gotNonce =>
      by_cases ours : gotNonce = w.session.nonce
      · subst ours
        simp
      · simp [ours]
  · rw [if_neg terminator, if_neg terminator]

/-- What a frame of a fetch does to the statistics it does to the burst. -/
theorem metered_fetched {payload : Bytes} {info : FromradioInfo} {w' : Proxy n}
    (settled : Settled w) (metered : Metered w m o) (window : w.session.Window)
    (plain : info.whichVariant ≠ .packet) (effect : FetchEffect p w payload info w') :
    Metered w' (m.onFromradio p w.session payload info)
      (o.onFromradio p w.session payload info) := by
  rw [on_fromradio_inside window plain, Offered.onFromradio]
  cases effect with
  | stored keeps =>
    rcases keeps with ⟨terminator, foreign⟩ | ⟨other, fetching⟩
    · simp only [if_pos terminator, if_pos foreign]
      exact metered.stored rfl
    · simp only [if_neg other, if_pos fetching]
      exact metered.stored rfl
  | discarded refetching other =>
    have notFetching : w.session.state ≠ .fetching := by simp [refetching]
    simp only [if_neg other, if_neg notFetching]
    exact metered.kept rfl
  | published fetching terminator ours =>
    have unready := (metered.unlogged settled (by simp [fetching])).1
    simp only [if_pos terminator, if_neg (not_not.mpr ours), if_pos fetching]
    rw [terminator]
    exact metered.publish unready rfl w.session.nonce
  | resumed refetching terminator ours =>
    have notFetching : w.session.state ≠ .fetching := by simp [refetching]
    simp only [if_pos terminator, if_neg (not_not.mpr ours), if_neg notFetching]
    have kept : Metered { w with session := w.session.wentLive } m o := metered.kept rfl
    exact ⟨kept.cache, kept.closed, kept.terminator, kept.measures.closed _, kept.published,
      kept.logged⟩

theorem metered_frame (settled : Settled w) (metered : Metered w m o) (frame : Frame)
    (rand : UInt32) : Metered (w.apply p (.fromradio frame rand))
      (m.after p w (.fromradio frame rand)) (o.after p w (.fromradio frame rand)) := by
  have effect : FrameEffect p w frame.bytes rand (w.apply p (.fromradio frame rand)) :=
    frame_effect p w frame.bytes rand
  generalize w.apply p (.fromradio frame rand) = next at effect
  simp only [Phase0.after, Offered.after]
  cases effect with
  | undecoded decoded =>
    rw [decoded]
    exact metered.kept rfl
  | fetched info decoded window plain _ effect =>
    simp only [decoded, if_pos (And.intro window plain)]
    exact metered_fetched settled metered window plain effect
  | rebooted info decoded outside =>
    have passed : ¬ (w.session.Window ∧ info.whichVariant ≠ .packet) := fun both => outside both.1
    simp only [decoded, on_fromradio_outside outside, if_neg passed]
    exact metered.kept (refetch_effect p w rand).frame.2
  | swallowed info decoded outside =>
    have passed : ¬ (w.session.Window ∧ info.whichVariant ≠ .packet) := fun both => outside both.1
    simp only [decoded, on_fromradio_outside outside, if_neg passed]
    exact metered.kept rfl
  | live info decoded outside =>
    have passed : ¬ (w.session.Window ∧ info.whichVariant ≠ .packet) := fun both => outside both.1
    simp only [decoded, on_fromradio_outside outside, if_neg passed]
    exact metered.kept rfl
  | packet info decoded packet =>
    have passed : ¬ (w.session.Window ∧ info.whichVariant ≠ .packet) := fun both => both.2 packet
    have same : m.onFromradio p w.session frame.bytes info = m := by
      unfold Phase0.onFromradio
      split_ifs <;> rfl
    simp only [decoded, same, if_neg passed]
    exact metered.kept (by rw [cache_dispatchPacket])

/-! Whole runs. -/

theorem CacheStep.aside {e : Event n} {c' : ConfigCache} (step : CacheStep p w e c')
    (start : ∀ rand, e ≠ .sessionStart rand) (frame : ∀ frame rand, e ≠ .fromradio frame rand)
    (retry : e ≠ .fetchRetry) : c' = w.cache := by
  cases step with
  | same => rfl
  | opened rand => exact absurd rfl (start rand)
  | reopened => exact absurd rfl retry
  | stored received rand => exact absurd rfl (frame received rand)
  | published received rand => exact absurd rfl (frame received rand)

theorem metered_start (settled : Settled w) (metered : Metered w m o) (rand : UInt32)
    (unarmed : w.session.keepaliveArmed = false) :
    Metered (w.apply p (.sessionStart rand)) (m.after p w (.sessionStart rand))
      (o.after p w (.sessionStart rand)) := by
  have boot := settled.unarmed unarmed
  simp only [Proxy.apply, upstreamSessionStart, Phase0.after, Offered.after]
  cases encodeWantConfig p (if reservedNonce rand then 2 else rand) with
  | none => exact metered.kept rfl
  | some buf => exact metered_begin rfl (metered.unlogged settled (by simp [boot])).2

theorem metered_retry (settled : Settled w) (metered : Metered w m o) :
    Metered (w.apply p .fetchRetry) (m.after p w .fetchRetry) (o.after p w .fetchRetry) := by
  simp only [Phase0.after, Offered.after]
  by_cases fetching : w.session.state = .fetching
  · have begun : (w.apply p .fetchRetry).cache = cacheBegin w.cache := by
      simp [Proxy.apply, fetchRetryHandler, fetching]
    rw [if_pos fetching, if_pos fetching]
    exact metered_begin begun (metered.unlogged settled (by simp [fetching])).2
  · have same : (w.apply p .fetchRetry).cache = w.cache := by
      simp only [Proxy.apply, fetchRetryHandler, if_neg fetching]
      split_ifs <;> rfl
    rw [if_neg fetching, if_neg fetching]
    exact metered.kept same

/-- The statistics and the cache stay beside each other. -/
structure Sized (s : Proxy n × Phase0 × Offered) : Prop where
  settled : Settled s.1
  metered : Metered s.1 s.2.1 s.2.2

theorem sized_boot : Sized (Proxy.boot n, .zero, .zero) where
  settled := settled_boot
  metered := metered_begin (c := .zero) (m := .zero) rfl rfl

theorem sized_step (s : Proxy n × Phase0 × Offered) (e : Event n) (sized : Sized s)
    (enabled : (measured n p).enabled s e) : Sized ((measured n p).next s e) := by
  obtain ⟨settled, metered⟩ := sized
  refine ⟨settled_step s.1 e settled enabled, ?_⟩
  have aside (start : ∀ rand, e ≠ .sessionStart rand) (frame : ∀ frame rand, e ≠ .fromradio frame rand)
      (retry : e ≠ .fetchRetry) : (s.1.apply p e).cache = s.1.cache :=
    (cache_step p e enabled).aside start frame retry
  cases e with
  | sessionStart rand => exact metered_start settled metered rand enabled
  | fromradio frame rand => exact metered_frame settled metered frame rand
  | fetchRetry => exact metered_retry settled metered
  | _ => exact metered.kept (aside (by simp) (by simp) (by simp))

/-- A burst as the cache keeps it takes no more than its bytes, and all of them when it
fits. -/
theorem burst_used (c : ConfigCache) (burst : List (Bytes × FromRadioTag)) :
    (cacheBurst c burst).used ≤ ConfigCache.totalBytes burst ∧
      (cachePacking.Fits burst → (cacheBurst c burst).used = ConfigCache.totalBytes burst) := by
  have used : (cacheBurst c burst).used = cachePacking.total (cachePacking.taken [] burst) := by
    rw [(burst_stored c burst).packed.used_eq, burst_frames, ConfigCache.total_bytes_packing]
  rw [used, ← ConfigCache.total_bytes_packing]
  refine ⟨Packing.total_sublist (Packing.taken_sublist [] burst), fun fits => ?_⟩
  rw [Packing.taken_of_fits fits]

/-- One my_info and the terminator. -/
def shortBurst : List (Event 0) :=
  [.sessionStart 5, .fromradio (.of 0x1a [2, 8, 1]) 0, .fromradio (.of 0x38 [5]) 0]

end MeshPbx
