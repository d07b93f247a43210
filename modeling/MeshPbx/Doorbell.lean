import MeshPbx.Switchboard

/-! The FROMNUM doorbell. A phone reads FROMRADIO only after it has been rung, and until
an answer is empty; so whatever waits for it must have been announced since its last
empty answer. Stated on the switchboard, for what one phone has heard since it connected. -/
namespace MeshPbx
variable {n : Nat} {p : Platform} {w : Proxy n} {b : Switchboard} {l : Link} {i : Fin n}
variable {conn : BtConn}

/-- What a phone has heard. `announced` counts the packets queued for it and the replays
armed, `last` is the value of the last notification, `due` whether it came after the last
empty answer, and `passedOver` whether that answer closed a replay while packets waited. -/
structure Bell where
  announced : Nat
  last : Option UInt32
  due : Bool
  passedOver : Bool
  deriving DecidableEq

namespace Bell

def silent : Bell := ⟨0, none, false, false⟩

/-- The values notified to a phone. -/
def rings (conn : BtConn) (said : List BtCall) : List UInt32 :=
  said.filterMap fun
    | .notifyFromnum target value => if target = conn then some value else none
    | .disconnect _ _ | .advStart => none

def ring (s : Bell) (values : List UInt32) : Bell :=
  match values.getLast? with
  | some value => { s with last := some value, due := true }
  | none => s

/-- An answer to a fresh read: the phone stops at an empty one. -/
def hear (s : Bell) (c : ConfigCache) (l : Link) : Bell :=
  if (l.fetch c).staged = [] then
    { s with due := false, passedOver := decide (l.state = .replaying ∧ l.queue ≠ []) }
  else s

def note (n : Nat) (conn : BtConn) (b : Switchboard) (call : LinkCall) (s : Bell) : Bell :=
  match b.links conn with
  | none => if call.Opens n b conn then silent else s
  | some l =>
    let s := s.ring (rings conn (call.said n b))
    match call with
    | .enqueue target data =>
      if target = conn ∧ l.refusal data = none then { s with announced := s.announced + 1 } else s
    | .replay target _ => if target = conn then { s with announced := s.announced + 1 } else s
    | .read cache reader _ offset => if reader = conn ∧ offset = 0 then s.hear cache l else s
    | .encodeReply | .park _ _ | .register _ _ | .requestTeardown _ | .hangUp _ | .connected _ _
    | .disconnected _ => s

end Bell

/-- The call brings no empty packet and reads no empty frame. -/
def LinkCall.Filled : LinkCall → Prop
  | .enqueue _ data => data ≠ []
  | .read cache _ _ _ => ∀ nonce cursor, ∀ k ∈ segment cache nonce cursor, (cache.entry k).1 ≠ []
  | _ => True

/-- The link of a phone against what it has heard. -/
structure Rung (l : Link) (s : Bell) : Prop where
  packets : ∀ data ∈ l.queue, data ≠ []
  complete : l.state = .replaying → l.complete ≠ []
  counted : l.fromnum = UInt32.ofNat s.announced
  unrung : s.last = none → s.announced = 0 ∧ l.queue = [] ∧ l.state ≠ .replaying
  latest : ∀ value, s.last = some value → value = l.fromnum
  waiting : l.queue ≠ [] ∨ l.state = .replaying → s.due = true ∨ s.passedOver = true

theorem rung_fresh : Rung .fresh .silent := by
  constructor
  · exact List.forall_mem_nil _
  · intro replaying
    cases replaying
  · rfl
  · exact fun _ => ⟨rfl, rfl, by simp [Link.fresh]⟩
  · intro value last
    cases last
  · intro waiting
    simp [Link.fresh] at waiting

theorem rings_other {target : BtConn} (other : target ≠ conn) (value : UInt32) :
    Bell.rings conn [.notifyFromnum target value] = [] := by
  simp [Bell.rings, other]

theorem rings_own (value : UInt32) : Bell.rings conn [.notifyFromnum conn value] = [value] := by
  simp [Bell.rings]

theorem refusal_none {data : Bytes} : l.refusal data = none ↔
    data.length ≤ FROMRADIO_MAX_PKT_SIZE ∧ l.leaving = false ∧
      l.queue.length < FROMRADIO_QUEUE_DEPTH := by
  unfold Link.refusal
  split_ifs with long leaving full
  · exact iff_of_false (by simp) fun accepted => absurd accepted.1 (Nat.not_le_of_lt long)
  · exact iff_of_false (by simp) fun accepted => by simp [leaving] at accepted
  · exact iff_of_false (by simp) fun accepted => absurd accepted.2.2 (Nat.not_lt_of_le full)
  · exact iff_of_true rfl ⟨Nat.le_of_not_lt long, by simpa using leaving, Nat.lt_of_not_le full⟩

/-- Ringing with the current counter. -/
theorem Rung.again {s : Bell} (heard : Rung l s) :
    Rung l { s with last := some l.fromnum, due := true } := by
  constructor
  · exact heard.packets
  · exact heard.complete
  · exact heard.counted
  · simp
  · rintro value ⟨⟩
    rfl
  · exact fun _ => .inl rfl

/-- A packet for the phone: it is rung whether the packet is queued or the queue is full. -/
theorem rung_offer {s : Bell} (heard : Rung l s) {data : Bytes} (filled : data ≠ []) :
    let s' := s.ring (Bell.rings conn (l.bells conn data))
    Rung (l.offer data)
      (if l.refusal data = none then { s' with announced := s'.announced + 1 } else s') := by
  intro s'
  by_cases reached : data.length ≤ FROMRADIO_MAX_PKT_SIZE ∧ l.leaving = false
  · have rung : s' = { s with last := some (l.offer data).fromnum, due := true } := by
      simp only [s', Link.bells, if_pos reached, rings_own, Bell.ring, List.getLast?_singleton]
    rw [rung]
    by_cases accepted : l.refusal data = none
    · simp only [Link.offer, if_pos accepted]
      constructor
      · intro other member
        rcases List.mem_append.mp member with older | newer
        · exact heard.packets other older
        · exact List.mem_singleton.mp newer ▸ filled
      · exact heard.complete
      · simp only [heard.counted, UInt32.ofNat_add]
        rfl
      · simp
      · rintro value ⟨⟩
        rfl
      · exact fun _ => .inl rfl
    · simp only [Link.offer, if_neg accepted]
      exact heard.again
  · have silent : s' = s := by
      simp only [s', Link.bells, if_neg reached]
      rfl
    have refused : l.refusal data ≠ none := fun accepted =>
      reached ⟨(refusal_none.mp accepted).1, (refusal_none.mp accepted).2.1⟩
    simp only [Link.offer, if_neg refused, silent]
    exact heard

theorem rung_arm (documented : p.Documented) {s : Bell} (heard : Rung l s) (nonce : UInt32) :
    Rung (l.arm p nonce)
      { s with announced := s.announced + 1, last := some (l.fromnum + 1), due := true } := by
  constructor
  · exact heard.packets
  · exact fun _ => List.ne_nil_of_length_pos (documented.complete_pos _)
  · simp only [Link.arm, heard.counted, UInt32.ofNat_add]
    rfl
  · simp
  · rintro value ⟨⟩
    rfl
  · exact fun _ => .inl rfl

/-- A packet or a replay waits for the phone. -/
def Link.Waits (l : Link) : Prop := l.queue ≠ [] ∨ l.state = .replaying

/-- Nothing that waits is empty. -/
structure Link.Stocked (l : Link) : Prop where
  packets : ∀ data ∈ l.queue, data ≠ []
  complete : l.state = .replaying → l.complete ≠ []

/-- What a fresh read of a stocked link finds. -/
inductive Fetched (l l' : Link) : Prop
  | served (waited : l.Waits) (answer : l'.staged ≠ []) (state : l'.state = l.state)
      (complete : l'.complete = l.complete) (queue : l'.queue <:+ l.queue)
  | empty (answer : l'.staged = []) (state : l'.state ≠ .replaying) (queue : l'.queue = l.queue)
      (idle : l.state ≠ .replaying → l.queue = [])

/-- Only the closing answer of a replay is empty while anything waits. -/
theorem fetched (stocked : l.Stocked) {c : ConfigCache}
    (filled : ∀ nonce cursor, ∀ k ∈ segment c nonce cursor, (c.entry k).1 ≠ []) :
    Fetched l (l.fetch c) := by
  by_cases replaying : l.state = .replaying
  · cases part : segment c l.nonce l.cursor with
    | cons k rest =>
      have frame : (c.entry k).1 ≠ [] := filled l.nonce l.cursor k (by simp [part])
      have next : l.fetch c = { l with staged := (c.entry k).1, cursor := k + 1 } := by
        simp only [Link.fetch, if_pos replaying, part]
      rw [next]
      exact .served (.inr replaying) frame rfl rfl List.suffix_rfl
    | nil =>
      by_cases inside : l.cursor ≤ cacheFrameCount c
      · have next : l.fetch c = { l with staged := l.complete, cursor := cacheFrameCount c + 1 } := by
          simp only [Link.fetch, if_pos replaying, part, if_pos inside]
        rw [next]
        exact .served (.inr replaying) (stocked.complete replaying) rfl rfl List.suffix_rfl
      · have next : l.fetch c = { l with state := .active, staged := [], complete := [] } := by
          simp only [Link.fetch, if_pos replaying, part, if_neg inside]
        rw [next]
        exact .empty rfl (by simp) rfl fun idle => absurd replaying idle
  · have next : l.fetch c = { l with staged := l.queue.headD [], queue := l.queue.tail } := by
      simp only [Link.fetch, if_neg replaying]
    rw [next]
    cases queue : l.queue with
    | nil => exact .empty rfl replaying (by simp [queue]) fun _ => queue
    | cons data rest =>
      have packet : data ≠ [] := stocked.packets data (by simp [queue])
      exact .served (.inl (by simp [queue])) packet rfl rfl (by simp [queue])

theorem fetch_fromnum (l : Link) (c : ConfigCache) : (l.fetch c).fromnum = l.fromnum := by
  unfold Link.fetch
  split
  · split
    · rfl
    · split <;> rfl
  · rfl

theorem rung_fetch {s : Bell} (heard : Rung l s) {c : ConfigCache}
    (filled : ∀ nonce cursor, ∀ k ∈ segment c nonce cursor, (c.entry k).1 ≠ []) :
    Rung (l.fetch c) (s.hear c l) := by
  obtain ⟨packets, complete, counted, unrung, latest, waiting⟩ := heard
  rw [← fetch_fromnum l c] at counted latest
  cases fetched ⟨packets, complete⟩ filled with
  | served waited answer state same queue =>
    have unheard : s.hear c l = s := by rw [Bell.hear, if_neg answer]
    rw [unheard]
    refine ⟨fun data among => packets data (queue.subset among), ?_, counted, ?_, latest,
      fun _ => waiting waited⟩
    · rw [state, same]
      exact complete
    · intro last
      obtain ⟨none, nothing, idle⟩ := unrung last
      exact absurd waited (by simp [Link.Waits, nothing, idle])
  | empty answer state queue idle =>
    have heard : s.hear c l = { s with
        due := false
        passedOver := decide (l.state = .replaying ∧ l.queue ≠ []) } := by
      rw [Bell.hear, if_pos answer]
    rw [heard]
    refine ⟨?_, fun replaying => absurd replaying state, counted, ?_, latest, ?_⟩
    · rw [queue]
      exact packets
    · intro last
      obtain ⟨none, nothing, _⟩ := unrung last
      exact ⟨none, queue.trans nothing, state⟩
    · rintro (queued | replaying)
      · rw [queue] at queued
        have replayed : l.state = .replaying := by
          by_contra other
          exact queued (idle other)
        exact .inr (decide_eq_true ⟨replayed, queued⟩)
      · exact absurd replaying state

theorem Rung.parked {s : Bell} (heard : Rung l s) (nonce : UInt32) :
    Rung { l with state := .pending, nonce := nonce, complete := [] } s := by
  constructor
  · exact heard.packets
  · simp
  · exact heard.counted
  · intro last
    obtain ⟨none, empty, _⟩ := heard.unrung last
    exact ⟨none, empty, by simp⟩
  · exact heard.latest
  · rintro (queued | armed)
    · exact heard.waiting (.inl queued)
    · cases armed

/-- What a call says to other phones is not heard. -/
theorem rings_aside (call : LinkCall) (aside : ∀ data, call ≠ .enqueue conn data)
    (unarmed : ∀ nonce, call ≠ .replay conn nonce) : Bell.rings conn (call.said n b) = [] := by
  cases call with
  | enqueue target data =>
    have other : target ≠ conn := by
      rintro rfl
      exact aside data rfl
    simp only [LinkCall.said]
    cases b.links target with
    | none => rfl
    | some l =>
      simp only [Option.elim_some, Link.bells]
      split_ifs
      · exact rings_other other _
      · rfl
  | replay target nonce =>
    have other : target ≠ conn := by
      rintro rfl
      exact unarmed nonce rfl
    simp only [LinkCall.said]
    cases b.links target with
    | none => rfl
    | some l => exact rings_other other _
  | hangUp target =>
    simp only [LinkCall.said]
    cases b.links target with
    | none => rfl
    | some l =>
      simp only [Option.elim_some]
      split_ifs <;> rfl
  | connected fresh err =>
    simp only [LinkCall.said]
    split_ifs <;> rfl
  | _ => rfl

/-- One call, for the phone whose link it may or may not concern. -/
theorem rung_note (documented : p.Documented) {s : Bell} {call : LinkCall} (filled : call.Filled)
    (heard : ∀ l, b.links conn = some l → Rung l s) {l : Link}
    (standing : (call.run p n b).links conn = some l) : Rung l (Bell.note n conn b call s) := by
  simp only [LinkCall.run] at standing
  unfold Bell.note
  cases before : b.links conn with
  | none =>
    simp only [before] at standing ⊢
    split_ifs at standing ⊢
    · cases standing
      exact rung_fresh
  | some k =>
    have kept := heard k before
    simp only [before] at standing ⊢
    cases call with
    | enqueue target data =>
      by_cases own : target = conn
      · subst own
        cases standing
        simp only [if_true, true_and, LinkCall.said, before, Option.elim_some]
        exact rung_offer kept filled
      · have quiet : Bell.rings conn ((LinkCall.enqueue target data).said n b) = [] :=
          rings_aside _ (by simp [own]) (by simp)
        simp only [LinkCall.after, own, false_and, if_false, quiet] at standing ⊢
        cases standing
        exact kept
    | replay target nonce =>
      by_cases own : target = conn
      · subst own
        cases standing
        simp only [if_true, LinkCall.said, before, Option.elim_some, rings_own]
        exact rung_arm documented kept nonce
      · have quiet : Bell.rings conn ((LinkCall.replay target nonce).said n b) = [] :=
          rings_aside _ (by simp) (by simp [own])
        simp only [LinkCall.after, if_neg own, quiet] at standing ⊢
        cases standing
        exact kept
    | read cache reader len offset =>
      have quiet : Bell.rings conn ((LinkCall.read cache reader len offset).said n b) = [] := rfl
      simp only [quiet]
      by_cases fresh : reader = conn ∧ offset = 0
      · simp only [LinkCall.after, if_pos fresh] at standing ⊢
        cases standing
        exact rung_fetch kept filled
      · simp only [LinkCall.after, if_neg fresh] at standing ⊢
        cases standing
        exact kept
    | disconnected left =>
      simp only [LinkCall.after] at standing
      split_ifs at standing
      cases standing
      exact kept
    | park target nonce =>
      simp only [LinkCall.after] at standing
      split_ifs at standing
      · cases standing
        exact kept.parked nonce
      · cases standing
        exact kept
    | register target id =>
      simp only [LinkCall.after] at standing
      split_ifs at standing
      · cases standing
        exact ⟨kept.packets, kept.complete, kept.counted, kept.unrung, kept.latest, kept.waiting⟩
      · cases standing
        exact kept
    | requestTeardown target =>
      simp only [LinkCall.after] at standing
      split_ifs at standing
      · cases standing
        exact ⟨kept.packets, kept.complete, kept.counted, kept.unrung, kept.latest, kept.waiting⟩
      · cases standing
        exact kept
    | hangUp target =>
      have quiet : Bell.rings conn ((LinkCall.hangUp target).said n b) = [] :=
        rings_aside _ (by simp) (by simp)
      simp only [quiet]
      cases standing
      exact kept
    | connected fresh err =>
      have quiet : Bell.rings conn ((LinkCall.connected fresh err).said n b) = [] :=
        rings_aside _ (by simp) (by simp)
      simp only [quiet]
      cases standing
      exact kept
    | encodeReply =>
      cases standing
      exact kept

/-! The calls of the proxy. -/

/-- The switchboard's calls for a call on the table, none of them empty. -/
def GattCall.Filled (call : GattCall n) : Prop := ∀ g : Gatt n, ∀ step ∈ call.onBoard g, step.Filled

theorem enqueue_filled {data : Bytes} (nonempty : data ≠ []) (target : BtConn) :
    (GattCall.enqueue target data : GattCall n).Filled := by
  intro g step member
  rw [List.mem_singleton.mp member]
  exact nonempty

theorem frame_calls_filled (frame : Frame) (w : Proxy n) :
    ∀ call ∈ frameCalls p w frame.bytes, call.Filled := by
  intro call member
  cases frame_call member with
  | queued target => exact enqueue_filled (List.ne_nil_of_length_pos frame.pos) target
  | served _ parked =>
    obtain ⟨target, _, rfl⟩ := serve_call parked
    intro g step member
    rw [List.mem_singleton.mp member]
    trivial

theorem toradio_calls_filled (documented : p.Documented) (w : Proxy n) (target : BtConn)
    (buf : Bytes) : ∀ call ∈ toradioCalls p w target buf, call.Filled := by
  intro call member
  cases toradio_call member with
  | first =>
    rw [encode_queue_status documented]
    exact enqueue_filled (List.ne_nil_of_length_pos documented.queueStatus_pos) target
  | again kept => exact enqueue_filled (fun empty => kept (by simp [empty])) target
  | _ =>
    intro g step member
    rw [List.mem_singleton.mp member]
    trivial

theorem read_filled (carries : Carries p (fun data => data ≠ []) w) (reader : BtConn)
    (len offset : Nat) : (GattCall.read w.cache reader len offset : GattCall n).Filled := by
  intro g step member
  rw [List.mem_singleton.mp member]
  intro nonce cursor k inside
  have served := (List.mem_filter.mp inside).2
  obtain ⟨below, other⟩ := in_segment_variant served
  exact carries.cached _ (ConfigCache.mem_frames.mpr ⟨k, below, rfl⟩) other

theorem calls_filled (documented : p.Documented) (carries : Carries p (fun data => data ≠ []) w)
    (e : Event n) : ∀ call ∈ calls p w e, call.Filled := by
  cases e with
  | fromradio frame rand => exact frame_calls_filled frame w
  | toradioWrite target buf offset =>
    simp only [calls]
    split_ifs
    · exact List.forall_mem_nil _
    · exact toradio_calls_filled documented w target buf
  | fromradioRead reader len offset =>
    intro call member
    rw [List.mem_singleton.mp member]
    exact read_filled carries reader len offset
  | nodeRegWrite target buf offset =>
    simp only [calls]
    split_ifs
    · exact List.forall_mem_nil _
    · intro call member g step made
      rw [List.mem_singleton.mp member] at made
      rw [List.mem_singleton.mp made]
      trivial
  | teardown slot =>
    intro call member g step made
    rw [List.mem_singleton.mp member] at made
    obtain ⟨target, _, rfl⟩ := Option.map_eq_some_iff.mp (Option.mem_toList.mp made)
    trivial
  | connected fresh err =>
    intro call member g step made
    rw [List.mem_singleton.mp member] at made
    rw [List.mem_singleton.mp made]
    trivial
  | disconnected left =>
    intro call member g step made
    rw [List.mem_singleton.mp member] at made
    rw [List.mem_singleton.mp made]
    trivial
  | _ => exact List.forall_mem_nil _

/-- What a run lets a phone hear, through the calls that it makes on the switchboard. -/
def bellAfter (documented : p.Documented) (conn : BtConn) (es : List (Event n)) : Bell :=
  (switchboard n p).noted (Bell.note n conn) .zero .silent
    ((proxyOnBoard documented).abstract (.boot n) es)

theorem board_heard (documented : p.Documented) (es : List (Event n))
    (runs : (system n p).Runs (.boot n) es) (conn : BtConn) :
    ∀ l, ((system n p).run (.boot n) es).gatt.board.links conn = some l →
      Rung l (bellAfter documented conn es) := by
  obtain ⟨initial, zero⟩ := boot_on_board documented (n := n)
  obtain ⟨taken, reached⟩ := (proxyOnBoard documented).run es initial runs
  have carried := carries_along (Q := fun data => data ≠ []) documented
    (List.ne_nil_of_length_pos documented.queueStatus_pos)
    (fun frame => List.ne_nil_of_length_pos frame.pos) es runs
  have filled : (switchboard n p).Along (fun _ step => step.Filled)
      ((proxyOnBoard documented).view (.boot n)) ((proxyOnBoard documented).abstract (.boot n) es) := by
    refine (proxyOnBoard documented).along (fun w e _ _ carries => ?_) es initial runs carried
    refine Machine.along_of_forall _ fun step member => ?_
    obtain ⟨g, call, among, made⟩ := Machine.mem_trace member
    exact calls_filled documented carries e call among g step made
  rw [zero] at taken reached filled
  have each : ∀ (b : Switchboard) (s : Bell) (call : LinkCall),
      (∀ l, b.links conn = some l → Rung l s) → (switchboard n p).enabled b call → call.Filled →
        ∀ l, ((switchboard n p).next b call).links conn = some l → Rung l (Bell.note n conn b call s) :=
    fun b s call heard _ filled l => rung_note documented filled heard
  have silent : ∀ l, Switchboard.zero.links conn = some l → Rung l .silent := by
    simp [Switchboard.zero]
  have heard := Machine.noted_invariant_along each _ silent taken filled
  rw [reached] at heard
  exact heard

/-- The packet that came before the closing answer of an empty replay waits unannounced. -/
def closedOver : List (Event 1) :=
  [.sessionStart 5, .fromradio (.of 0x38 [5]) 0, .connected 7 false, .toradioWrite 7 [0x18, 9] 0,
    .fromradioRead 7 22 0, .fromradio (.of 0x12 [0]) 0, .fromradioRead 7 22 0]

end MeshPbx
