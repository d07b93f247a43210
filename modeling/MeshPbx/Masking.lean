import MeshPbx.TargetedRouting

/-! Frames of the node that no phone should read: the terminator of the
proxy's own session, and the reboot signal. Both are kept away from a phone by
the state of the session at the moment they arrive. -/
namespace MeshPbx
variable {n : Nat} {p : Platform} {w : Proxy n}

/-- The bytes are a FromRadio message of this variant. -/
def DecodesAs (p : Platform) (tag : FromRadioTag) (bytes : Bytes) : Prop :=
  (p.decodeFromRadio bytes).map (·.whichPayloadVariant) = some tag

/-- A fresh read of the connection finds this frame, and where. -/
def Served (w : Proxy n) (conn : BtConn) (source : Source) (bytes : Bytes) : Prop :=
  ∃ i, findSlot w.gatt conn = some i ∧ stageSource w.cache (w.gatt.conns i) = source ∧
    source ≠ .nothing ∧ (stageNext w.cache (w.gatt.conns i)).stagedBytes = bytes

instance (tag : FromRadioTag) (bytes : Bytes) : Decidable (DecodesAs p tag bytes) :=
  inferInstanceAs (Decidable (_ = _))

instance (conn : BtConn) (source : Source) (bytes : Bytes) :
    Decidable (Served w conn source bytes) :=
  inferInstanceAs (Decidable (∃ _, _))

/-- Whatever a fresh read answers is the beginning of the frame it is served. -/
theorem fresh_answer_served (documented : p.Documented) {conn : BtConn} {len : Nat}
    {answer : Bytes} (answered : (fromradioRead p w.cache w.gatt conn len 0).2 = .ok answer)
    (filled : answer ≠ []) : ∃ source bytes, Served w conn source bytes ∧ answer = bytes.take len := by
  unfold fromradioRead at answered
  cases found : findSlot w.gatt conn with
  | none => simp [found] at answered
  | some i =>
    simp only [found, if_true] at answered
    split_ifs at answered with staged
    · refine ⟨_, _, ⟨i, found, rfl, ?_, rfl⟩, ?_⟩
      · intro nothing
        rcases stage_nothing nothing with ⟨_, _, result⟩ | ⟨_, _, result⟩
        · simp [result] at staged
        · simp [result] at staged
      · rw [documented.attrRead_inside _ _ _ (Nat.zero_le _), List.drop_zero] at answered
        exact (Except.ok.inj answered).symm
    · exact absurd (Except.ok.inj answered).symm filled

/-- A read at an offset continues the frame already staged and stages nothing. -/
theorem continuation_read (c : ConfigCache) {g : Gatt n} {conn : BtConn} {len offset : Nat}
    (later : offset ≠ 0) : (fromradioRead p c g conn len offset).1 = g := by
  unfold fromradioRead
  split
  · rfl
  · simp [later]

theorem decodes_as_variant {bytes : Bytes} {info : FromradioInfo} {tag : FromRadioTag}
    (decoded : protoDecodeFromradio p bytes = some info) :
    DecodesAs p tag bytes ↔ info.whichVariant = tag := by
  obtain ⟨message, found, variant⟩ := decode_fromradio_variant decoded
  simp [DecodesAs, found, variant]

theorem decodes_as_info {bytes : Bytes} {tag : FromRadioTag} (decodes : DecodesAs p tag bytes) :
    ∃ info, protoDecodeFromradio p bytes = some info ∧ info.whichVariant = tag := by
  cases decoded : protoDecodeFromradio p bytes with
  | none => simp [DecodesAs, decode_fromradio_none.mp decoded] at decodes
  | some info => exact ⟨info, rfl, (decodes_as_variant decoded).mp decodes⟩

theorem synthetic_not (documented : p.Documented) {tag : FromRadioTag} (other : tag ≠ .queueStatus) :
    ¬ DecodesAs p tag (p.fromRadioBytes .syntheticQueueStatus) := by
  intro decodes
  obtain ⟨message, decoded, variant⟩ := Option.map_eq_some_iff.mp decodes
  rw [documented.queueStatus_variant message decoded] at variant
  exact other variant.symm

/-! The terminator of the proxy's own session. -/

/-- A config_complete of the node arrives outside a fetch while some phone
could be sent a packet. -/
def LooseTerminator (p : Platform) (w : Proxy n) (e : Event n) : Prop :=
  e.Delivers fun frame =>
    ¬ w.session.Window ∧ DecodesAs p .configCompleteId frame.bytes ∧ ∃ i, (w.gatt.conns i).Open

instance (w : Proxy n) (e : Event n) : Decidable (LooseTerminator p w e) :=
  inferInstanceAs (Decidable (e.Delivers _))

theorem admits_no_terminator (e : Event n) (fetched : ¬ LooseTerminator p w e) :
    Admits p (fun bytes => ¬ DecodesAs p .configCompleteId bytes) w e := by
  cases e with
  | fromradio frame rand =>
    refine ⟨fun relays ready terminator => ?_, fun info decoded _ _ other terminator => ?_⟩
    · obtain ⟨info, decoded, variant⟩ := decodes_as_info terminator
      rcases relays info decoded with packet | ⟨outside, _⟩
      · rw [variant] at packet
        contradiction
      · exact fetched ⟨outside, terminator, ready⟩
    · exact other ((decodes_as_variant decoded).mp terminator)
  | _ => trivial

/-- In every run without a loose terminator, the only config_complete a phone
is served is the one synthesized for its own nonce. -/
theorem session_nonce_masked (documented : p.Documented) (es : List (Event n))
    (runs : (system n p).Runs (.boot n) es)
    (fetched : (system n p).Along (fun w e => ¬ LooseTerminator p w e) (.boot n) es)
    (conn : BtConn) (source : Source) (bytes : Bytes)
    (served : Served ((system n p).run (.boot n) es) conn source bytes)
    (terminator : DecodesAs p .configCompleteId bytes) :
    source = .complete ∧ ∃ i, findSlot ((system n p).run (.boot n) es).gatt conn = some i ∧
      bytes = p.fromRadioBytes
        (.configComplete (((system n p).run (.boot n) es).gatt.conns i).nonce) := by
  have admits : (system n p).Along (Admits p fun bytes => ¬ DecodesAs p .configCompleteId bytes)
      (.boot n) es :=
    Machine.along_mono (fun _ e => admits_no_terminator e) es fetched
  have carries := carries_run documented (synthetic_not documented (by simp)) es runs admits
  obtain ⟨i, tracked, taken, filled, staged⟩ := served
  rcases carries.fresh_read i with nothing | ⟨complete, synthesized⟩ | foreign
  · exact absurd (taken.symm.trans nothing) filled
  · exact ⟨taken.symm.trans complete, i, tracked, staged.symm.trans synthesized⟩
  · rw [staged] at foreign
    exact absurd terminator foreign

/-- A loose terminator is queued for every phone that could be sent a packet. -/
theorem loose_terminator_queued (distinct : w.gatt.Distinct) {frame : Frame} {rand : UInt32}
    (loose : LooseTerminator p w (.fromradio frame rand)) (i : Fin n)
    (ready : (w.gatt.conns i).Open) :
    Appended w.gatt (onFromradioUart p w frame.bytes rand).gatt frame.bytes i := by
  obtain ⟨outside, terminator, _⟩ := loose
  obtain ⟨info, decoded, variant⟩ := decodes_as_info terminator
  have effect := frame_effect p w frame.bytes rand
  generalize onFromradioUart p w frame.bytes rand = after at effect ⊢
  have known : ∀ {other}, protoDecodeFromradio p frame.bytes = some other →
      other.whichVariant = .configCompleteId := fun found => (decodes_as_variant found).mp terminator
  cases effect with
  | live =>
    change (((bleGattBroadcastFromradio w.gatt frame.bytes).1.conns i).queued) = _
    rw [broadcast_conns distinct frame.le, deliver_open ready]
  | undecoded none => simp [decoded] at none
  | fetched _ _ window => exact absurd window outside
  | rebooted _ found _ reboot => simp [known found] at reboot
  | swallowed _ found _ status => simp [known found] at status
  | packet _ found packet => simp [known found] at packet

/-! Runs of a node that only echoes. The credit of a nonce is the number of
want_config transmissions with it that the node has not answered yet. -/

def transmitted (p : Platform) (w : Proxy n) (e : Event n) : Option UInt32 :=
  match e, w.uart.txMsgq with
  | .txWork false, entry :: _ =>
    if w.uart.txInProgress then none
    else (p.decodeToRadio entry).bind fun toradio =>
      if toradio.whichPayloadVariant = .wantConfigId then some toradio.wantConfigId else none
  | _, _ => none

def echoed (p : Platform) (e : Event n) : Option UInt32 :=
  match e with
  | .fromradio frame _ => decodeConfigCompleteNonce p frame.bytes
  | _ => none

def OnCredit (p : Platform) (credit : UInt32 → Nat) (e : Event n) : Prop :=
  match echoed p e with
  | none => True
  | some nonce => 0 < credit nonce

instance (credit : UInt32 → Nat) (e : Event n) : Decidable (OnCredit p credit e) := by
  unfold OnCredit
  cases echoed p e with
  | none => exact isTrue trivial
  | some nonce => exact Nat.decLt 0 (credit nonce)

/-- A config_complete arrives only on credit and uses it up. -/
def echoing (n : Nat) (p : Platform) : Machine (Proxy n × (UInt32 → Nat)) (Event n) where
  enabled s e := s.1.enabled e ∧ OnCredit p s.2 e
  next s e :=
    (s.1.apply p e, fun nonce => s.2 nonce + (if transmitted p s.1 e = some nonce then 1 else 0) -
      (if echoed p e = some nonce then 1 else 0))

instance (s : Proxy n × (UInt32 → Nat)) (e : Event n) : Decidable ((echoing n p).enabled s e) :=
  inferInstanceAs (Decidable (_ ∧ _))

/-- The runs of an echoing node are runs of the proxy. -/
theorem echoing_runs (es : List (Event n)) (s : Proxy n × (UInt32 → Nat))
    (runs : (echoing n p).Runs s es) :
    (system n p).Runs s.1 es ∧ ((echoing n p).run s es).1 = (system n p).run s.1 es := by
  induction es generalizing s with
  | nil => exact ⟨trivial, rfl⟩
  | cons e es ih =>
    obtain ⟨rest, same⟩ := ih _ runs.2
    exact ⟨⟨runs.1.1, rest⟩, same⟩

/-- The terminator closes the boot fetch before a phone connects and asks. -/
def closedSchedule : List (Event 1) :=
  [.sessionStart 5, .txWork false, .fromradio (.of 0x38 [5]) 0,
    .connected 7 false, .toradioWrite 7 [0x18, 9] 0]

theorem phone_reads_own_nonce :
    Source.complete = .complete ∧ ∃ i, findSlot
      ((system 1 .wire).run (.boot 1) closedSchedule).gatt 7 = some i ∧
      [0x38, 9] = Platform.wire.fromRadioBytes (.configComplete
        (((system 1 .wire).run (.boot 1) closedSchedule).gatt.conns i).nonce) :=
  session_nonce_masked wire_documented closedSchedule (by decide) (by decide) 7 .complete [0x38, 9]
    (by decide) (by decide)

/-- The boot want_config is retried and both copies are answered: the second
terminator finds the session LIVE. -/
def answeredTwice : List (Event 1) :=
  [.sessionStart 5, .txWork false, .txEnd false, .fetchRetry, .txWork false,
    .fromradio (.of 0x38 [5]) 0, .connected 7 false,
    .fromradio (.of 0x38 [5]) 0]

theorem duplicate_terminator_served :
    (echoing 1 .wire).Runs (.boot 1, fun _ => 0) answeredTwice ∧
      Served ((echoing 1 .wire).run (.boot 1, fun _ => 0) answeredTwice).1 7 .queued [0x38, 5] ∧
      DecodesAs .wire .configCompleteId [0x38, 5] :=
  ⟨by decide, by decide, by decide⟩

/-! The reboot signal. -/

/-- The node reboots while the boot fetch is in progress. -/
def RebootInFetch (p : Platform) (w : Proxy n) (e : Event n) : Prop :=
  e.Delivers fun frame => w.session.state = .fetching ∧ DecodesAs p .rebooted frame.bytes

instance (w : Proxy n) (e : Event n) : Decidable (RebootInFetch p w e) :=
  inferInstanceAs (Decidable (e.Delivers _))

theorem admits_no_reboot (e : Event n) (outside : ¬ RebootInFetch p w e) :
    Admits p (fun bytes => ¬ DecodesAs p .rebooted bytes) w e := by
  cases e with
  | fromradio frame rand =>
    refine ⟨fun relays _ reboot => ?_, fun info _ fetching _ _ reboot => outside ⟨fetching, reboot⟩⟩
    obtain ⟨info, decoded, variant⟩ := decodes_as_info reboot
    rcases relays info decoded with packet | ⟨_, noReboot, _⟩
    · rw [variant] at packet
      contradiction
    · exact noReboot variant
  | _ => trivial

/-- A reboot frame is queued for nobody; only the boot fetch stores it. -/
theorem reboot_frame_effect {frame : Frame} (rand : UInt32)
    (reboot : DecodesAs p .rebooted frame.bytes) :
    (onFromradioUart p w frame.bytes rand).gatt = w.gatt ∧
      (onFromradioUart p w frame.bytes rand).cache =
        if w.session.state = .fetching then (cacheAddFrame w.cache frame.bytes .rebooted).1
        else w.cache := by
  obtain ⟨info, decoded, variant⟩ := decodes_as_info reboot
  have known : ∀ {other}, protoDecodeFromradio p frame.bytes = some other →
      other.whichVariant = .rebooted := fun found => (decodes_as_variant found).mp reboot
  have effect := frame_effect p w frame.bytes rand
  generalize onFromradioUart p w frame.bytes rand = after at effect ⊢
  cases effect with
  | undecoded none => simp [decoded] at none
  | fetched _ found _ _ _ effect =>
    cases effect with
    | stored keeps =>
      rcases keeps with ⟨terminator, _⟩ | ⟨_, fetching⟩
      · simp [known found] at terminator
      · rw [if_pos fetching, known found]
        exact ⟨rfl, rfl⟩
    | discarded refetching =>
      rw [if_neg (by simp [refetching])]
      exact ⟨rfl, rfl⟩
    | published _ terminator => simp [known found] at terminator
    | resumed _ terminator => simp [known found] at terminator
  | rebooted _ _ outside =>
    rw [if_neg (fun fetching => outside (.inl fetching))]
    exact (refetch_effect p w rand).frame
  | swallowed _ found _ status => simp [known found] at status
  | live _ found _ _ noReboot => exact absurd (known found) noReboot
  | packet _ found packet => simp [known found] at packet

/-- Outside the boot fetch a reboot frame reaches neither a queue nor the
cache, in it only the cache; a run without a reboot during the boot fetch never
serves one. -/
theorem reboot_masked (documented : p.Documented) (es : List (Event n))
    (runs : (system n p).Runs (.boot n) es) :
    (∀ (frame : Frame) (rand : UInt32), DecodesAs p .rebooted frame.bytes →
      (((system n p).run (.boot n) es).apply p (.fromradio frame rand)).gatt =
        ((system n p).run (.boot n) es).gatt ∧
      (((system n p).run (.boot n) es).apply p (.fromradio frame rand)).cache =
        if ((system n p).run (.boot n) es).session.state = .fetching then
          (cacheAddFrame ((system n p).run (.boot n) es).cache frame.bytes .rebooted).1
        else ((system n p).run (.boot n) es).cache) ∧
    ((system n p).Along (fun w e => ¬ RebootInFetch p w e) (.boot n) es →
      ∀ conn source bytes, Served ((system n p).run (.boot n) es) conn source bytes →
        ¬ DecodesAs p .rebooted bytes) := by
  refine ⟨fun frame rand reboot => reboot_frame_effect rand reboot, ?_⟩
  intro outside conn source bytes ⟨i, tracked, taken, filled, staged⟩ reboot
  have admits : (system n p).Along (Admits p fun bytes => ¬ DecodesAs p .rebooted bytes)
      (.boot n) es :=
    Machine.along_mono (fun _ e => admits_no_reboot e) es outside
  have carries := carries_run documented (synthetic_not documented (by simp)) es runs admits
  rcases carries.fresh_read i with nothing | ⟨_, synthesized⟩ | foreign
  · exact absurd (taken.symm.trans nothing) filled
  · obtain ⟨message, decoded, variant⟩ := Option.map_eq_some_iff.mp reboot
    rw [← staged, synthesized] at decoded
    rw [documented.complete_variant _ message decoded] at variant
    contradiction
  · rw [staged] at foreign
    exact foreign reboot

/-- A reboot of a LIVE session with a replay armed. -/
def rebootedSchedule : List (Event 1) :=
  closedSchedule ++ [.fromradio (.of 0x40 [1]) 8]

theorem live_reboot_masked :
    Served ((system 1 .wire).run (.boot 1) rebootedSchedule) 7 .complete [0x38, 9] ∧
      ¬ DecodesAs .wire .rebooted [0x38, 9] :=
  ⟨by decide, (reboot_masked wire_documented rebootedSchedule (by decide)).2 (by decide) 7 .complete
    [0x38, 9] (by decide)⟩

/-- A reboot during the boot fetch is replayed to a phone that asks later. -/
theorem fetching_reboot_served :
    ∃ w : Proxy 1, Reachable .wire w ∧ Served w 7 (.cached 0) [0x40, 1] ∧
      DecodesAs .wire .rebooted [0x40, 1] :=
  ⟨(system 1 .wire).run (.boot 1)
      [.sessionStart 5, .fromradio (.of 0x40 [1]) 0,
        .fromradio (.of 0x38 [5]) 0, .connected 7 false,
        .toradioWrite 7 [0x18, 9] 0],
    reachable_run _ (by decide), by decide, by decide⟩

end MeshPbx
