import MeshPbx.CallLog
import MeshPbx.SlotTable
import MeshPbx.Lib.Refinement

/-! The GATT server as its phones know it: a link for each connection, with a queue of
packets and a pointer into the cached burst, and no slots, ring buffers or staging
buffers. A call concerns one link, and each link takes what concerns it. The slot table
refines the switchboard. -/
namespace MeshPbx
variable {n : Nat} {p : Platform} {g : Gatt n} {i : Fin n} {conn : BtConn} {pc : ProxyConn}

/-- What the server keeps of a connected phone. `complete` is the config_complete_id of an
armed replay, and `staged` the packet that is being read. -/
structure Link where
  proxyId : ProxyId
  fromnum : UInt32
  state : PhoneState
  leaving : Bool
  nonce : UInt32
  cursor : Nat
  complete : Bytes
  queue : List Bytes
  staged : Bytes

namespace Link

def fresh : Link := ⟨.zero, 0, .connected, false, 0, 0, [], [], []⟩

/-- Why a packet is refused, if it is. -/
def refusal (l : Link) (data : Bytes) : Rc :=
  if data.length > FROMRADIO_MAX_PKT_SIZE then some .emsgsize
  else if l.leaving then some .eshutdown
  else if l.queue.length ≥ FROMRADIO_QUEUE_DEPTH then some .enomem
  else none

def offer (l : Link) (data : Bytes) : Link :=
  if l.refusal data = none then
    { l with queue := l.queue ++ [data], fromnum := l.fromnum + 1 }
  else l

/-- A full queue is rung for like a new packet. -/
def bells (l : Link) (conn : BtConn) (data : Bytes) : List BtCall :=
  if data.length ≤ FROMRADIO_MAX_PKT_SIZE ∧ l.leaving = false then
    [.notifyFromnum conn (l.offer data).fromnum]
  else []

def arm (p : Platform) (l : Link) (nonce : UInt32) : Link :=
  let nonce := if nonce ≠ 0 then nonce else l.nonce
  { l with
    nonce := nonce
    complete := p.fromRadioBytes (.configComplete nonce)
    cursor := 0
    state := .replaying
    fromnum := l.fromnum + 1 }

/-- A fresh read: the next frame of the phone's segment, then the config_complete_id,
then one empty answer; outside a replay the head of the queue. -/
def fetch (c : ConfigCache) (l : Link) : Link :=
  if l.state = .replaying then
    match segment c l.nonce l.cursor with
    | i :: _ => { l with staged := (c.entry i).1, cursor := i + 1 }
    | [] =>
      if l.cursor ≤ cacheFrameCount c then
        { l with staged := l.complete, cursor := cacheFrameCount c + 1 }
      else { l with state := .active, staged := [], complete := [] }
  else { l with staged := l.queue.headD [], queue := l.queue.tail }

def answer (p : Platform) (l : Link) (len offset : Nat) : Except AttError Bytes :=
  if l.staged.length > 0 then p.attrRead l.staged len offset else .ok []

end Link

/-- The calls on the switchboard name connections only. -/
inductive LinkCall where
  | enqueue (conn : BtConn) (data : Bytes)
  | encodeReply
  | replay (conn : BtConn) (nonce : UInt32)
  | park (conn : BtConn) (nonce : UInt32)
  | read (cache : ConfigCache) (conn : BtConn) (len offset : Nat)
  | register (conn : BtConn) (id : ProxyId)
  | requestTeardown (conn : BtConn)
  | hangUp (conn : BtConn)
  | connected (conn : BtConn) (err : Bool)
  | disconnected (conn : BtConn)

/-- The links, how many there are, the kept queueStatus reply and the calls made into the
BLE stack. -/
structure Switchboard where
  links : BtConn → Option Link
  count : Nat
  reply : Bytes
  said : List BtCall

namespace Switchboard

def zero : Switchboard := ⟨fun _ => none, 0, [], []⟩

end Switchboard

namespace LinkCall

/-- The link of a connection after a call; `none` when it has ended. -/
def after (p : Platform) (conn : BtConn) (l : Link) : LinkCall → Option Link
  | .enqueue target data => some (if target = conn then l.offer data else l)
  | .replay target nonce => some (if target = conn then l.arm p nonce else l)
  | .park target nonce =>
    some (if target = conn then { l with state := .pending, nonce := nonce, complete := [] } else l)
  | .read cache reader _ offset =>
    some (if reader = conn ∧ offset = 0 then l.fetch cache else l)
  | .register target id => some (if target = conn then { l with proxyId := id } else l)
  | .requestTeardown target => some (if target = conn then { l with leaving := true } else l)
  | .disconnected left => if left = conn then none else some l
  | .encodeReply | .hangUp _ | .connected _ _ => some l

/-- The call opens a link for the connection: a table of `n` has room. -/
def Opens (n : Nat) (b : Switchboard) (conn : BtConn) : LinkCall → Prop
  | .connected fresh err => fresh = conn ∧ err = false ∧ b.count < n
  | _ => False

instance (n : Nat) (b : Switchboard) (conn : BtConn) :
    (call : LinkCall) → Decidable (call.Opens n b conn)
  | .connected _ _ => inferInstanceAs (Decidable (_ ∧ _ ∧ _))
  | .enqueue _ _ | .encodeReply | .replay _ _ | .park _ _ | .read _ _ _ _ | .register _ _
  | .requestTeardown _ | .hangUp _ | .disconnected _ => isFalse id

/-- The calls into the BLE stack. The number of links is compared as an eight-bit one. -/
def said (n : Nat) (b : Switchboard) : LinkCall → List BtCall
  | .enqueue conn data => (b.links conn).elim [] fun l => l.bells conn data
  | .replay conn _ => (b.links conn).elim [] fun l => [.notifyFromnum conn (l.fromnum + 1)]
  | .hangUp conn => (b.links conn).elim [] fun l =>
    if l.leaving then [.disconnect conn .remoteUserTermConn] else []
  | .connected conn err =>
    if err then []
    else if b.count < n then if (b.count + 1) % 2 ^ 8 < n then [.advStart] else []
    else [.disconnect conn .connLimitExceeded]
  | .disconnected _ => [.advStart]
  | .encodeReply | .park _ _ | .read _ _ _ _ | .register _ _ | .requestTeardown _ => []

/-- How many links there are after a call. -/
def count (n : Nat) (b : Switchboard) : LinkCall → Nat
  | .connected conn err => if LinkCall.Opens n b conn (.connected conn err) then b.count + 1 else b.count
  | .disconnected left => if (b.links left).isSome then b.count - 1 else b.count
  | .enqueue _ _ | .encodeReply | .replay _ _ | .park _ _ | .read _ _ _ _ | .register _ _
  | .requestTeardown _ | .hangUp _ => b.count

def run (p : Platform) (n : Nat) (b : Switchboard) (call : LinkCall) : Switchboard where
  links conn := match b.links conn with
    | some l => call.after p conn l
    | none => if call.Opens n b conn then some .fresh else none
  count := call.count n b
  reply := match call with
    | .encodeReply => (protoEncodeQueueStatus p 16).2
    | _ => b.reply
  said := b.said ++ call.said n b

def enabled (b : Switchboard) : LinkCall → Prop
  | .connected conn _ => b.links conn = none
  | _ => True

end LinkCall

def switchboard (n : Nat) (p : Platform) : Machine Switchboard LinkCall where
  enabled b call := call.enabled b
  next b call := call.run p n b

/-! The view of a slot. -/

/-- The bytes behind the buffers, and a replay that is over, do not show. -/
def Link.of (pc : ProxyConn) : Link where
  proxyId := pc.proxyId
  fromnum := pc.fromnum
  state := pc.state
  leaving := pc.leaving
  nonce := pc.nonce
  cursor := pc.replayCursor
  complete := if pc.state = .replaying then pc.ccBytes else []
  queue := pc.queued
  staged := pc.stagedBytes

theorem length_queued (pc : ProxyConn) : pc.queued.length = pc.queue.count := by
  simp [ProxyConn.queued]

theorem link_open (tracked : pc.conn ≠ none) (data : Bytes) :
    (Link.of pc).refusal data = none ↔ data.length ≤ FROMRADIO_MAX_PKT_SIZE ∧ pc.Open := by
  have length : (Link.of pc).queue.length = pc.queue.count := length_queued pc
  have leaving : (Link.of pc).leaving = pc.leaving := rfl
  unfold Link.refusal ProxyConn.Open
  rw [length, leaving]
  split_ifs with long away full
  · simp [Nat.not_le_of_lt long]
  · simp [away]
  · simp [Nat.not_lt_of_le full]
  · simp [Nat.le_of_not_lt long, away, tracked, Nat.lt_of_not_le full]

theorem link_offer (tracked : pc.conn ≠ none) (data : Bytes) :
    Link.of (pc.offer data) = (Link.of pc).offer data := by
  have opens := link_open tracked data
  unfold Link.offer ProxyConn.offer ProxyConn.deliver
  by_cases accepted : (Link.of pc).refusal data = none
  · obtain ⟨short, ready⟩ := opens.mp accepted
    rw [if_pos accepted, if_pos short, dif_pos ready]
    simp only [Link.of, ProxyConn.queued_append]
    rfl
  · rw [if_neg accepted]
    split_ifs with short ready
    · exact absurd (opens.mpr ⟨short, ready⟩) accepted
    · rfl
    · rfl

theorem link_bells (tracked : pc.conn ≠ none) (data : Bytes) :
    pc.bells conn data = (Link.of pc).bells conn data := by
  have rung : (pc.offer data).fromnum = ((Link.of pc).offer data).fromnum :=
    congrArg Link.fromnum (link_offer tracked data)
  unfold ProxyConn.bells Link.bells
  rw [rung]
  rfl

theorem link_arm (p : Platform) (pc : ProxyConn) (nonce : UInt32) :
    Link.of (pc.arm p (if nonce ≠ 0 then nonce else pc.nonce)) = (Link.of pc).arm p nonce := by
  have complete := ProxyConn.ccBytes_arm p pc (if nonce ≠ 0 then nonce else pc.nonce)
  simp only [Link.of, Link.arm, complete]
  rfl

theorem link_reset (pc : ProxyConn) (holder : Option BtConn) : Link.of (pc.reset holder) = .fresh := by
  have queue := ProxyConn.queued_reset pc holder
  simp only [Link.of, queue]
  rfl

/-- A cached frame that is served is the first of the segment that is left. -/
theorem stage_cached_first {c : ConfigCache} {k : Nat} (source : stageSource c pc = .cached k) :
    segment c pc.nonce pc.replayCursor = k :: segment c pc.nonce (k + 1) := by
  obtain ⟨⟨_, next, below⟩, _⟩ := stage_cached source
  have inside : pc.replayCursor ≤ cacheFrameCount c := by
    by_contra past
    have stays := replay_next_past pc (Nat.lt_of_not_le past)
    omega
  obtain ⟨_, skipped, served⟩ := replay_next_spec pc inside
  rw [next] at skipped served
  rw [skipped, segment_serve below (served below)]

/-- The config_complete_id is served when nothing of the segment is left. -/
theorem stage_complete_last {c : ConfigCache} (source : stageSource c pc = .complete) :
    pc.replayCursor ≤ cacheFrameCount c ∧ segment c pc.nonce pc.replayCursor = [] := by
  obtain ⟨⟨_, next⟩, _⟩ := stage_complete source
  have inside : pc.replayCursor ≤ cacheFrameCount c := by
    by_contra past
    have stays := replay_next_past pc (Nat.lt_of_not_le past)
    omega
  obtain ⟨_, skipped, _⟩ := replay_next_spec pc inside
  rw [skipped, next, segment_end]
  exact ⟨inside, rfl⟩

theorem link_stage (c : ConfigCache) (pc : ProxyConn) :
    Link.of (stageNext c pc) = (Link.of pc).fetch c := by
  cases source : stageSource c pc with
  | cached k =>
    obtain ⟨⟨replaying, _⟩, staged⟩ := stage_cached source
    have owed : segment c (Link.of pc).nonce (Link.of pc).cursor = _ := stage_cached_first source
    have replays : (Link.of pc).state = .replaying := replaying
    rw [staged, Link.fetch, if_pos replays, owed]
    simp [Link.of, ProxyConn.stagedBytes, ProxyConn.queued, ProxyConn.ccBytes, staged_write]
  | complete =>
    obtain ⟨⟨replaying, _⟩, staged⟩ := stage_complete source
    obtain ⟨inside, nothing⟩ := stage_complete_last source
    have owed : segment c (Link.of pc).nonce (Link.of pc).cursor = [] := nothing
    have replays : (Link.of pc).state = .replaying := replaying
    have within : (Link.of pc).cursor ≤ cacheFrameCount c := inside
    rw [staged, Link.fetch, if_pos replays, owed]
    simp only [if_pos within]
    have whole := staged_write pc pc.ccBytes
    simpa [Link.of, ProxyConn.stagedBytes, ProxyConn.queued, ProxyConn.ccBytes, replaying]
      using whole
  | queued =>
    obtain ⟨idle, filled, staged⟩ := stage_queued source
    have rests : ¬ (Link.of pc).state = .replaying := idle
    have contents := RingQueue.contents_pop pc.queue filled
    rw [staged, Link.fetch, if_neg rests]
    simp [Link.of, ProxyConn.stagedBytes, ProxyConn.queued, ProxyConn.ccBytes, staged_write, contents]
  | nothing =>
    rcases stage_nothing source with ⟨replaying, past, staged⟩ | ⟨idle, empty, staged⟩
    · have replays : (Link.of pc).state = .replaying := replaying
      have behind : ¬ (Link.of pc).cursor ≤ cacheFrameCount c := Nat.not_le_of_lt past
      have owed : segment c (Link.of pc).nonce (Link.of pc).cursor = [] := by
        have beyond : cacheFrameCount c - (Link.of pc).cursor = 0 :=
          Nat.sub_eq_zero_of_le (Nat.le_of_lt past)
        rw [segment, beyond]
        rfl
      rw [staged, Link.fetch, if_pos replays, owed]
      simp only [if_neg behind]
      simp [Link.of, ProxyConn.stagedBytes, ProxyConn.queued]
    · have rests : ¬ (Link.of pc).state = .replaying := idle
      have contents := (RingQueue.contents_eq_nil_iff pc.queue).mpr empty
      rw [staged, Link.fetch, if_neg rests]
      simp [Link.of, ProxyConn.stagedBytes, ProxyConn.queued, contents, idle]

/-! The view of the table. -/

def Gatt.board (g : Gatt n) : Switchboard where
  links conn := (findSlot g conn).map fun i => Link.of (g.conns i)
  count := g.occupied
  reply := g.queueStatusReply
  said := g.btCalls

/-- The call as the switchboard knows it: an expiry concerns the phone in its slot. -/
def GattCall.onBoard (g : Gatt n) : GattCall n → List LinkCall
  | .enqueue conn data => [.enqueue conn data]
  | .encodeReply => [.encodeReply]
  | .replay conn nonce => [.replay conn nonce]
  | .park conn nonce => [.park conn nonce]
  | .read cache conn len offset => [.read cache conn len offset]
  | .register conn id => [.register conn id]
  | .requestTeardown conn => [.requestTeardown conn]
  | .teardown slot => ((g.conns slot).conn.map LinkCall.hangUp).toList
  | .connected conn err => [.connected conn err]
  | .disconnected conn => [.disconnected conn]

theorem link_held (held : Held g i conn) : g.board.links conn = some (Link.of (g.conns i)) := by
  simp only [Gatt.board, held.found, Option.map_some]

theorem link_none : g.board.links conn = none ↔ findSlot g conn = none := by
  simp [Gatt.board]

theorem link_changed (held : Held g i conn) {pc : ProxyConn} (slot : g.conns i = pc) :
    g.board.links conn = some (Link.of pc) := by
  rw [link_held held, slot]

/-- The link of a phone that holds a slot, while it does. -/
theorem link_kept (documented : p.Documented) (held : Held g i conn) (call : GattCall n)
    (enabled : call.enabled g) (spares : call.Spares conn) :
    (call.run p g).board.links conn = some (Link.of ((g.conns i).after p i conn call)) :=
  link_changed (held.call documented call enabled spares)
    (call_slot documented held.distinct held.holds call)

/-- A phone that holds a slot finds its link changed as the switchboard says. -/
theorem held_after (documented : p.Documented) (held : Held g i conn) (call : GattCall n)
    (enabled : call.enabled g) (step : LinkCall) (same : call.onBoard g = [step]) :
    (call.run p g).board.links conn = step.after p conn (Link.of (g.conns i)) := by
  have tracked : (g.conns i).conn ≠ none := by simp [held.holds]
  have kept := link_kept documented held call enabled
  cases call with
  | enqueue target data =>
    obtain rfl := List.singleton_injective same
    rw [kept trivial, LinkCall.after, ProxyConn.after]
    split_ifs
    · rw [link_offer tracked]
    · rfl
  | encodeReply =>
    obtain rfl := List.singleton_injective same
    exact kept trivial
  | replay target nonce =>
    obtain rfl := List.singleton_injective same
    rw [kept trivial, LinkCall.after, ProxyConn.after]
    by_cases mine : target = conn
    · rw [if_pos mine, if_pos mine, link_arm]
    · rw [if_neg mine, if_neg mine]
  | park target nonce =>
    obtain rfl := List.singleton_injective same
    rw [kept trivial, LinkCall.after, ProxyConn.after]
    split_ifs <;> rfl
  | read cache reader len offset =>
    obtain rfl := List.singleton_injective same
    rw [kept trivial, LinkCall.after, ProxyConn.after]
    split_ifs
    · rw [link_stage]
    · rfl
  | register target id =>
    obtain rfl := List.singleton_injective same
    rw [kept trivial, LinkCall.after, ProxyConn.after]
    split_ifs <;> rfl
  | requestTeardown target =>
    obtain rfl := List.singleton_injective same
    rw [kept trivial, LinkCall.after, ProxyConn.after]
    split_ifs <;> rfl
  | teardown slot =>
    rw [kept trivial, ProxyConn.after]
    simp only [GattCall.onBoard] at same
    cases holder : (g.conns slot).conn with
    | none => simp [holder] at same
    | some other =>
      simp only [holder, Option.map_some, Option.toList_some] at same
      obtain rfl := List.singleton_injective same
      split_ifs <;> rfl
  | connected fresh err =>
    obtain rfl := List.singleton_injective same
    exact kept trivial
  | disconnected left =>
    obtain rfl := List.singleton_injective same
    rw [LinkCall.after]
    split_ifs with mine
    · subst mine
      have gone := disconnected_gone held.distinct left
      exact link_none.mpr (find_slot_none.mpr gone)
    · rw [kept mine, ProxyConn.after, if_neg mine]

theorem full_iff : g.Full ↔ ¬ g.occupied < n := by
  constructor
  · intro full
    have all : g.taken = Finset.univ := by
      ext j
      have holds := Option.isSome_iff_ne_none.mpr (full j)
      simp [holds]
    have whole : g.occupied = n := by simp [Gatt.occupied, all]
    omega
  · intro many j
    have within := g.occupied_le
    have all : g.taken = Finset.univ := by
      refine Finset.eq_univ_of_card g.taken ?_
      have whole : g.taken.card = g.occupied := rfl
      rw [whole, Fintype.card_fin]
      omega
    have holds : j ∈ g.taken := all ▸ Finset.mem_univ j
    exact Option.isSome_iff_ne_none.mp (Gatt.mem_taken.mp holds)

/-- A connection event opens a link for the phone it reports, where the table has room. -/
theorem absent_connected (documented : p.Documented) (distinct : g.Distinct)
    (absent : findSlot g conn = none) (fresh : BtConn) (err : Bool)
    (enabled : findSlot g fresh = none) :
    (onConnected g fresh err).board.links conn =
      if (LinkCall.connected fresh err).Opens n g.board conn then some .fresh else none := by
  have untracked := find_slot_none.mp absent
  cases err with
  | true =>
    rw [if_neg (fun opens => Bool.noConfusion opens.2.1)]
    exact link_none.mpr absent
  | false =>
    by_cases full : g.Full
    · rw [if_neg (fun opens => full_iff.mp full opens.2.2), connected_full full]
      exact link_none.mpr absent
    · obtain ⟨i, vacant, holder, others, _⟩ := connected_opened full fresh
      by_cases mine : fresh = conn
      · subst mine
        have room : g.occupied < n := by
          by_contra many
          exact full (full_iff.mpr many)
        have accepted : findSlot (onConnected g fresh false) fresh = some i :=
          find_slot_of_distinct
            (call_distinct documented distinct (.connected fresh false) enabled) holder
        rw [if_pos ⟨rfl, rfl, room⟩,
          link_changed (held_connected documented distinct absent accepted)
            (connected_reset absent accepted), link_reset]
      · rw [if_neg (fun opens => mine opens.1)]
        refine link_none.mpr (find_slot_none.mpr ?_)
        rintro ⟨j, holds⟩
        by_cases here : j = i
        · subst here
          exact mine (Option.some.inj (holder.symm.trans holds))
        · rw [others j here] at holds
          exact untracked ⟨j, holds⟩

/-- A phone without a slot has no link after the call, unless the call opens one. -/
theorem absent_after (documented : p.Documented) (distinct : g.Distinct)
    (absent : findSlot g conn = none)
    (call : GattCall n) (enabled : call.enabled g) (step : LinkCall)
    (same : call.onBoard g = [step]) :
    (call.run p g).board.links conn = if step.Opens n g.board conn then some .fresh else none := by
  have stays (place : call.InPlace) : (call.run p g).board.links conn = none := by
    refine link_none.mpr (find_slot_none.mpr ?_)
    rintro ⟨j, holds⟩
    rw [call_holder documented call place] at holds
    exact find_slot_none.mp absent ⟨j, holds⟩
  cases call with
  | connected fresh err =>
    obtain rfl := List.singleton_injective same
    exact absent_connected documented distinct absent fresh err enabled
  | disconnected left =>
    obtain rfl := List.singleton_injective same
    refine link_none.mpr (find_slot_none.mpr ?_)
    rintro ⟨j, holds⟩
    have was : (g.conns j).conn = some conn := by
      cases disconnected_table g left with
      | kept holders => rw [← holders j, ← holds]; rfl
      | opened i other connected => cases connected
      | closed i other _ _ vacant others =>
        by_cases here : j = i
        · subst here
          rw [GattCall.run, vacant] at holds
          cases holds
        · rw [← others j here]
          exact holds
    exact find_slot_none.mp absent ⟨j, was⟩
  | teardown slot =>
    rw [stays trivial]
    simp only [GattCall.onBoard] at same
    cases holder : (g.conns slot).conn with
    | none => simp [holder] at same
    | some other =>
      simp only [holder, Option.map_some, Option.toList_some] at same
      obtain rfl := List.singleton_injective same
      exact (if_neg id).symm
  | _ =>
    obtain rfl := List.singleton_injective same
    rw [stays trivial]
    exact (if_neg id).symm

/-- What is said to a phone depends on its slot, or on its link. -/
theorem said_link (say : ProxyConn → List BtCall) (say' : Link → List BtCall)
    (agree : ∀ i, findSlot g conn = some i → say (g.conns i) = say' (Link.of (g.conns i))) :
    ((findSlot g conn).elim [] fun i => say (g.conns i)) = (g.board.links conn).elim [] say' := by
  cases found : findSlot g conn with
  | none => simp [Gatt.board, found]
  | some i => simp [Gatt.board, found, agree i found]

/-- The calls into the BLE stack are those of the switchboard. -/
theorem said_board (distinct : g.Distinct) (counted : g.Counted) (call : GattCall n)
    (step : LinkCall) (same : call.onBoard g = [step]) : call.said g = step.said n g.board := by
  cases call with
  | enqueue target data =>
    obtain rfl := List.singleton_injective same
    exact said_link (fun pc => pc.bells target data) (fun l => l.bells target data)
      fun i found => link_bells (by simp [find_slot_some found]) data
  | replay target nonce =>
    obtain rfl := List.singleton_injective same
    exact said_link (fun pc => [.notifyFromnum target (pc.fromnum + 1)])
      (fun l => [.notifyFromnum target (l.fromnum + 1)]) fun _ _ => rfl
  | teardown slot =>
    simp only [GattCall.onBoard] at same
    cases holder : (g.conns slot).conn with
    | none => simp [holder] at same
    | some other =>
      simp only [holder, Option.map_some, Option.toList_some] at same
      obtain rfl := List.singleton_injective same
      have held : Held g slot other := ⟨distinct, holder⟩
      simp only [GattCall.said, holder, Option.elim_some, LinkCall.said, link_held held]
      rfl
  | connected fresh err =>
    obtain rfl := List.singleton_injective same
    have exact : g.activeConnCount = g.board.count % 2 ^ 8 := counted
    simp only [GattCall.said, LinkCall.said]
    by_cases failed : err = true
    · rw [if_pos failed, if_pos failed]
    · rw [if_neg failed, if_neg failed]
      cases alloc : allocSlot g fresh with
      | none =>
        have full : ¬ g.board.count < n := full_iff.mp ((alloc_none g fresh).mp alloc)
        rw [if_neg full]
        rfl
      | some taken =>
        have room : g.board.count < n := by
          by_contra many
          have none_left := (alloc_none g fresh).mpr (full_iff.mpr many)
          rw [alloc] at none_left
          cases none_left
        rw [if_pos room, Option.elim_some, exact, Nat.mod_add_mod]
  | disconnected left =>
    obtain rfl := List.singleton_injective same
    rfl
  | _ =>
    obtain rfl := List.singleton_injective same
    rfl

theorem occupied_kept {g' : Gatt n} (holders : ∀ j, (g'.conns j).conn = (g.conns j).conn) :
    g'.occupied = g.occupied := by
  rw [Gatt.occupied, Gatt.occupied, taken_kept holders]

/-- The number of links is the number of taken slots. -/
theorem count_board (documented : p.Documented) (distinct : g.Distinct) (call : GattCall n)
    (step : LinkCall) (same : call.onBoard g = [step]) :
    (call.run p g).occupied = step.count n g.board := by
  have stays (place : call.InPlace) : (call.run p g).occupied = g.board.count :=
    occupied_kept (call_holder documented call place)
  cases call with
  | connected fresh err =>
    obtain rfl := List.singleton_injective same
    simp only [LinkCall.count, LinkCall.Opens, true_and]
    cases err with
    | true => exact (if_neg (fun opens => Bool.noConfusion opens.1)).symm
    | false =>
      by_cases full : g.Full
      · rw [if_neg (fun opens => full_iff.mp full opens.2), GattCall.run, connected_full full]
        rfl
      · have room : g.board.count < n := by
          by_contra many
          exact full (full_iff.mpr many)
        obtain ⟨i, vacant, holder, others, _⟩ := connected_opened full fresh
        rw [if_pos ⟨rfl, room⟩]
        exact occupied_opened vacant holder others
  | disconnected left =>
    obtain rfl := List.singleton_injective same
    simp only [LinkCall.count, GattCall.run]
    cases found : findSlot g left with
    | none =>
      have absent : g.board.links left = none := link_none.mpr found
      rw [absent]
      simp only [onDisconnected, found]
      rfl
    | some i =>
      have held : Held g i left := ⟨distinct, find_slot_some found⟩
      rw [link_held held, if_pos (by rfl)]
      cases disconnected_table g left with
      | kept holders =>
        have gone := disconnected_gone distinct left
        exact absurd ⟨i, (holders i).trans held.holds⟩ gone
      | opened j other connected => cases connected
      | closed j other _ holds vacant others =>
        have back : g.occupied = (onDisconnected g left).occupied + 1 :=
          occupied_opened vacant holds (fun k apart => (others k apart).symm)
        have count : g.board.count = g.occupied := rfl
        omega
  | teardown slot =>
    rw [stays trivial]
    simp only [GattCall.onBoard] at same
    cases holder : (g.conns slot).conn with
    | none => simp [holder] at same
    | some other =>
      simp only [holder, Option.map_some, Option.toList_some] at same
      obtain rfl := List.singleton_injective same
      rfl
  | _ =>
    obtain rfl := List.singleton_injective same
    exact stays trivial

theorem connected_reply (g : Gatt n) (fresh : BtConn) (err : Bool) :
    (onConnected g fresh err).queueStatusReply = g.queueStatusReply := by
  unfold onConnected allocSlot
  split_ifs
  · rfl
  · cases (List.finRange n).find? fun i => (g.conns i).conn = none with
    | none => rfl
    | some j =>
      simp only [Option.map_some]
      split_ifs <;> rfl

/-- Only a first heartbeat sets the kept reply. -/
theorem reply_board (call : GattCall n) (step : LinkCall) (same : call.onBoard g = [step]) :
    (call.run p g).queueStatusReply = (step.run p n g.board).reply := by
  cases call with
  | enqueue target data =>
    obtain rfl := List.singleton_injective same
    exact (enqueue_rest g target data).2
  | replay target nonce =>
    obtain rfl := List.singleton_injective same
    simp only [GattCall.run, bleGattReplayCachedBurst]
    split
    · rfl
    · split_ifs <;> rfl
  | teardown slot =>
    simp only [GattCall.onBoard] at same
    cases holder : (g.conns slot).conn with
    | none => simp [holder] at same
    | some other =>
      simp only [holder, Option.map_some, Option.toList_some] at same
      obtain rfl := List.singleton_injective same
      simp only [GattCall.run, teardownWorkHandler]
      split
      · rfl
      · split_ifs <;> rfl
  | connected fresh err =>
    obtain rfl := List.singleton_injective same
    exact connected_reply g fresh err
  | encodeReply =>
    obtain rfl := List.singleton_injective same
    rfl
  | park target nonce =>
    obtain rfl := List.singleton_injective same
    simp only [GattCall.run, parkSlot]
    split <;> rfl
  | read cache reader len offset =>
    obtain rfl := List.singleton_injective same
    simp only [GattCall.run, fromradioRead]
    split <;> rfl
  | register target id =>
    obtain rfl := List.singleton_injective same
    simp only [GattCall.run, bleGattRegisterProxyId]
    split <;> rfl
  | requestTeardown target =>
    obtain rfl := List.singleton_injective same
    simp only [GattCall.run, bleGattRequestTeardown]
    split <;> rfl
  | disconnected left =>
    obtain rfl := List.singleton_injective same
    simp only [GattCall.run, onDisconnected]
    split <;> rfl

/-- One call on the table is one call on the switchboard. -/
theorem call_on_board (documented : p.Documented) (distinct : g.Distinct) (counted : g.Counted)
    (call : GattCall n) (enabled : call.enabled g) (step : LinkCall)
    (same : call.onBoard g = [step]) : (call.run p g).board = step.run p n g.board := by
  have links : (call.run p g).board.links = (step.run p n g.board).links := by
    funext conn
    simp only [LinkCall.run]
    cases found : findSlot g conn with
    | none =>
      rw [link_none.mpr found]
      exact absent_after documented distinct found call enabled step same
    | some i =>
      have held : Held g i conn := ⟨distinct, find_slot_some found⟩
      rw [link_held held]
      exact held_after documented held call enabled step same
  have count := count_board documented distinct call step same
  have reply := reply_board (p := p) call step same
  have said : (call.run p g).btCalls = g.btCalls ++ step.said n g.board := by
    rw [call_said documented, said_board distinct counted call step same]
  have parts : (call.run p g).board =
      ⟨(call.run p g).board.links, (call.run p g).occupied, (call.run p g).queueStatusReply,
        (call.run p g).btCalls⟩ := rfl
  rw [parts, links, count, reply, said]
  rfl

/-- An expiry that finds its slot vacant does nothing. -/
theorem vacant_expiry (p : Platform) {slot : Fin n} (vacant : (g.conns slot).conn = none) :
    (GattCall.run p g (.teardown slot)).board = g.board := by
  have run : GattCall.run p g (.teardown slot) =
      g.setConn slot { g.conns slot with teardownWork := none } := by
    simp only [GattCall.run, teardownWorkHandler, Gatt.conns_setConn_same, vacant]
  have links : (GattCall.run p g (.teardown slot)).board.links = g.board.links := by
    funext conn
    rw [run]
    have disarmed : ({ g.conns slot with teardownWork := none } : ProxyConn).conn =
        (g.conns slot).conn := rfl
    simp only [Gatt.board, find_slot_setConn disarmed]
    cases found : findSlot g conn with
    | none => rfl
    | some i =>
      simp only [Option.map_some, Option.some.injEq]
      by_cases here : i = slot
      · subst here
        rw [Gatt.conns_setConn_same]
        rfl
      · rw [Gatt.conns_setConn_ne _ here]
  have count : (GattCall.run p g (.teardown slot)).occupied = g.occupied := by
    refine occupied_kept fun j => ?_
    rw [run]
    by_cases here : j = slot
    · subst here
      rw [Gatt.conns_setConn_same]
    · rw [Gatt.conns_setConn_ne _ here]
  have parts : (GattCall.run p g (.teardown slot)).board =
      ⟨(GattCall.run p g (.teardown slot)).board.links,
        (GattCall.run p g (.teardown slot)).occupied,
        (GattCall.run p g (.teardown slot)).queueStatusReply,
        (GattCall.run p g (.teardown slot)).btCalls⟩ := rfl
  rw [parts, links, count, run]
  rfl

/-- A call is one call on the switchboard, or the expiry of a vacant slot. -/
theorem on_board_cases (g : Gatt n) (call : GattCall n) :
    (∃ step, call.onBoard g = [step]) ∨
      ∃ slot, call = .teardown slot ∧ (g.conns slot).conn = none := by
  cases call with
  | teardown slot =>
    cases holder : (g.conns slot).conn with
    | none => exact .inr ⟨slot, rfl, holder⟩
    | some conn => exact .inl ⟨.hangUp conn, by simp [GattCall.onBoard, holder]⟩
  | _ => exact .inl ⟨_, rfl⟩

theorem enabled_on_board (call : GattCall n) (enabled : call.enabled g) (step : LinkCall)
    (same : call.onBoard g = [step]) : step.enabled g.board := by
  cases call with
  | connected fresh err =>
    obtain rfl := List.singleton_injective same
    exact link_none.mpr enabled
  | teardown slot =>
    cases holder : (g.conns slot).conn with
    | none => simp [GattCall.onBoard, holder] at same
    | some conn =>
      simp only [GattCall.onBoard, holder, Option.map_some, Option.toList_some] at same
      obtain rfl := List.singleton_injective same
      trivial
  | _ =>
    obtain rfl := List.singleton_injective same
    trivial

/-- The slot table as a switchboard. -/
def tableOnBoard (documented : p.Documented) : (gattSystem n p).Refinement (switchboard n p) where
  Inv g := g.Distinct ∧ g.Counted
  view := Gatt.board
  label g call := call.onBoard g
  keeps g call inv enabled :=
    ⟨call_distinct documented inv.1 call enabled, (call_table documented g call).counted inv.2⟩
  step g call inv enabled := by
    rcases on_board_cases g call with ⟨step, same⟩ | ⟨slot, rfl, vacant⟩
    · rw [same]
      exact ⟨⟨enabled_on_board call enabled step same, trivial⟩,
        (call_on_board documented inv.1 inv.2 call enabled step same).symm⟩
    · simp only [GattCall.onBoard, vacant, Option.map_none, Option.toList_none]
      exact ⟨trivial, (vacant_expiry p vacant).symm⟩

/-- The proxy as the calls it makes on the GATT server. -/
def proxyOnGatt (n : Nat) (p : Platform) : (system n p).Refinement (gattSystem n p) where
  Inv _ := True
  view := Proxy.gatt
  label := calls p
  keeps _ _ _ _ := trivial
  step w e _ enabled := ⟨calls_run e enabled, (apply_calls p w e).symm⟩

def proxyOnBoard (documented : p.Documented) : (system n p).Refinement (switchboard n p) :=
  (proxyOnGatt n p).comp (tableOnBoard documented)

theorem board_zero : (Gatt.zero n).board = .zero := by
  have links : (Gatt.zero n).board.links = Switchboard.zero.links := by
    funext conn
    have untracked : findSlot (Gatt.zero n) conn = none :=
      find_slot_none.mpr fun ⟨_, holds⟩ => by cases holds
    exact link_none.mpr untracked
  have parts : (Gatt.zero n).board = ⟨(Gatt.zero n).board.links, (Gatt.zero n).occupied, [], []⟩ := rfl
  rw [parts, links, Gatt.occupied_zero]
  rfl

theorem boot_on_board (documented : p.Documented) :
    (proxyOnBoard documented).Inv (Proxy.boot n) ∧
      (proxyOnBoard documented).view (Proxy.boot n) = .zero := by
  refine ⟨⟨trivial, ?_, ?_⟩, board_zero⟩
  · intro i j conn held
    cases held
  · show (Gatt.zero n).activeConnCount = (Gatt.zero n).occupied % 2 ^ 8
    rw [Gatt.occupied_zero]
    rfl

/-! What the server answers. -/

namespace Switchboard

def readAnswer (p : Platform) (b : Switchboard) (cache : ConfigCache) (conn : BtConn)
    (len offset : Nat) : Except AttError Bytes :=
  match b.links conn with
  | none => .error .unlikely
  | some l => (if offset = 0 then l.fetch cache else l).answer p len offset

def fromnumAnswer (p : Platform) (b : Switchboard) (conn : BtConn) (len offset : Nat) :
    Except AttError Bytes :=
  match b.links conn with
  | none => .error .unlikely
  | some l => p.attrRead (le32 l.fromnum) len offset

/-- The length is checked before the connection is looked up. -/
def enqueueResult (b : Switchboard) (conn : BtConn) (data : Bytes) : Rc :=
  if data.length > FROMRADIO_MAX_PKT_SIZE then some .emsgsize
  else match b.links conn with
    | none => some .enoent
    | some l => l.refusal data

end Switchboard

theorem link_answer (p : Platform) (pc : ProxyConn) (len offset : Nat) :
    pc.answer p len offset = (Link.of pc).answer p len offset := by
  have length : (Link.of pc).staged.length = pc.stagedLen := ByteBuffer.length_read _ _ _
  unfold ProxyConn.answer Link.answer
  rw [length]
  rfl

theorem read_on_board (p : Platform) (cache : ConfigCache) (g : Gatt n) (conn : BtConn)
    (len offset : Nat) :
    (fromradioRead p cache g conn len offset).2 = g.board.readAnswer p cache conn len offset := by
  cases found : findSlot g conn with
  | none => simp [fromradioRead, Switchboard.readAnswer, Gatt.board, found]
  | some i =>
    rw [read_answer found, Switchboard.readAnswer, Gatt.board]
    simp only [found, Option.map_some, link_answer]
    split_ifs
    · rw [link_stage]
    · rfl

theorem fromnum_on_board (p : Platform) (g : Gatt n) (conn : BtConn) (len offset : Nat) :
    fromnumRead p g conn len offset = g.board.fromnumAnswer p conn len offset := by
  cases found : findSlot g conn with
  | none => simp [fromnumRead, Switchboard.fromnumAnswer, Gatt.board, found]
  | some i => simp [fromnumRead, Switchboard.fromnumAnswer, Gatt.board, found, Link.of]

theorem enqueue_on_board (g : Gatt n) (conn : BtConn) (data : Bytes) :
    (bleGattEnqueueFromradio g conn data).2 = g.board.enqueueResult conn data := by
  simp only [bleGattEnqueueFromradio, Switchboard.enqueueResult, Gatt.board]
  by_cases long : data.length > FROMRADIO_MAX_PKT_SIZE
  · rw [if_pos long, if_pos long]
  · rw [if_neg long, if_neg long]
    cases findSlot g conn with
    | none => rfl
    | some i =>
      have length : (Link.of (g.conns i)).queue.length = (g.conns i).queue.count := length_queued _
      have leaving : (Link.of (g.conns i)).leaving = (g.conns i).leaving := rfl
      simp only [Option.map_some, Link.refusal, if_neg long, length, leaving, enqueueLocked]
      split_ifs <;> rfl

/-- A phone connects, its packet is queued and read, and it leaves. -/
def servedPhone : List (Event 1) :=
  [.connected 7 false, .fromradio (.of 0xff []) 0, .fromradioRead 7 8 0, .disconnected 7]

end MeshPbx
