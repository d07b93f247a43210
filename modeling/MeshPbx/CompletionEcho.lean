import MeshPbx.SlotHistory
import MeshPbx.DeliveryOrder

/-! Which request a completion answers: the nonce stored in the slot is the id
of the phone's latest request, and also what a request for id zero falls back
on. -/
namespace MeshPbx
variable {n : Nat} {p : Platform} {w : Proxy n} {g : Gatt n} {i : Fin n} {conn : BtConn}
variable {c : ConfigCache} {nonce : UInt32} {e : Event n}

/-! The segment of a growing cache. -/

/-- A terminator is in no segment, so storing one moves no segment. -/
theorem segment_add_terminator (raw : Bytes) (cursor : Nat) :
    segment (cacheAddFrame c raw .configCompleteId).1 nonce cursor = segment c nonce cursor := by
  by_cases room : c.Room raw
  · have older : ∀ k ∈ List.range' cursor (cacheFrameCount c - cursor),
        cacheFrameInSegment (cacheAddFrame c raw .configCompleteId).1 k nonce =
          cacheFrameInSegment c k nonce := by
      intro k member
      have old : k < c.count := by
        have := List.mem_range'_1.mp member
        simp only [cacheFrameCount] at this
        omega
      have grown : ¬ k ≥ c.count + 1 := by omega
      simp only [cacheFrameInSegment, ConfigCache.add_room room, if_neg (Nat.not_le_of_lt old),
        if_neg grown, Function.update_of_ne (Nat.ne_of_lt old), reduceCtorEq, false_and, if_false]
    have newest : cacheFrameInSegment (cacheAddFrame c raw .configCompleteId).1 c.count nonce =
        false := by
      simp [cacheFrameInSegment, ConfigCache.add_room room]
    have count : cacheFrameCount (cacheAddFrame c raw .configCompleteId).1 = c.count + 1 := by
      rw [cacheFrameCount, ConfigCache.add_room room]
    unfold segment
    rw [count]
    by_cases below : cursor ≤ c.count
    · have one : c.count + 1 - cursor = (cacheFrameCount c - cursor) + 1 := by
        simp only [cacheFrameCount]
        omega
      have last : cursor + 1 * (cacheFrameCount c - cursor) = c.count := by
        simp only [cacheFrameCount]
        omega
      rw [one, List.range'_concat, List.filter_append, last]
      simp only [List.filter_cons, newest, Bool.false_eq_true, if_false, List.filter_nil,
        List.append_nil]
      exact List.filter_congr older
    · have past : c.count + 1 - cursor = 0 := by omega
      have before : cacheFrameCount c - cursor = 0 := by
        simp only [cacheFrameCount]
        omega
      rw [past, before]
      rfl
  · rw [ConfigCache.add_full room]

theorem segment_past {cursor : Nat} (past : cacheFrameCount c ≤ cursor) :
    segment c nonce cursor = [] := by
  have none : cacheFrameCount c - cursor = 0 := by omega
  simp [segment, none]

/-- A published cache keeps every segment: it only ever gains terminators. -/
theorem segment_kept (kept : Kept w) (ready : w.cache.ready = true) (e : Event n)
    (enabled : w.enabled e) (cursor : Nat) :
    segment (w.apply p e).cache nonce cursor = segment w.cache nonce cursor := by
  have state := kept.consistent.published.mp ready
  have step := cache_step p e enabled
  generalize (w.apply p e).cache = after at step ⊢
  cases step with
  | same => rfl
  | stored frame rand info decoded window plain keeps =>
    have terminator : info.whichVariant = .configCompleteId := by
      rcases keeps with ⟨terminator, _⟩ | ⟨_, fetching⟩
      · exact terminator
      · simp [Proxy.phase, fetching] at state
    rw [terminator]
    exact segment_add_terminator _ _
  | opened rand unarmed =>
    have boot : w.session.state = .boot := kept.consistent.unarmed unarmed
    simp [Proxy.phase, boot] at state
  | reopened fetching => simp [Proxy.phase, fetching] at state
  | published frame rand fetching => simp [Proxy.phase, fetching] at state

/-! The phone's latest request. -/

/-- The id of a want_config and the cached frames the phone has read since. -/
structure Request where
  id : UInt32
  served : List Nat
  deriving DecidableEq, Repr

/-- Where a fresh read of the phone takes its answer from. -/
def readSource (w : Proxy n) (conn : BtConn) : Source :=
  match findSlot w.gatt conn with
  | none => .nothing
  | some i => stageSource w.cache (w.gatt.conns i)

def Request.read (r : Request) : Source → Request
  | .cached k => { r with served := r.served ++ [k] }
  | _ => r

/-- A connection starts and ends without a request. -/
def latest (p : Platform) (w : Proxy n) (conn : BtConn) (r : Option Request) (e : Event n) :
    Option Request :=
  match asked p w conn e, e with
  | some id, _ => some ⟨id, []⟩
  | none, .fromradioRead reader _ offset =>
    if reader = conn ∧ offset = 0 then r.map (·.read (readSource w conn)) else r
  | none, .connected fresh _ => if fresh = conn then none else r
  | none, .disconnected left => if left = conn then none else r
  | none, _ => r

/-- The proxy with the latest request of one phone beside it. -/
def echo (n : Nat) (p : Platform) (conn : BtConn) : Machine (Proxy n × Option Request) (Event n) where
  enabled s e := s.1.enabled e
  next s e := (s.1.apply p e, latest p s.1 conn s.2 e)

instance (s : Proxy n × Option Request) (e : Event n) : Decidable ((echo n p conn).enabled s e) :=
  inferInstanceAs (Decidable (s.1.enabled e))

/-- What a read of a replay returns: the next frame of the requested segment, or
after the last of them the completion with the requested id, or nothing. -/
def Request.Answered (p : Platform) (cache : ConfigCache) (r : Request) (len : Nat)
    (answer : Except AttError Bytes) : Source → Prop
  | .cached k => r.served ++ [k] <+: segment cache r.id 0 ∧
      answer = .ok ((cache.entry k).1.take len)
  | .complete => r.served = segment cache r.id 0 ∧
      answer = .ok ((p.fromRadioBytes (.configComplete r.id)).take len)
  | .queued => False
  | .nothing => answer = .ok []

/-- Every fresh read of a running replay is answered by the latest request. -/
def Echoed (p : Platform) (conn : BtConn) (s : Proxy n × Option Request) : Event n → Prop
  | .fromradioRead reader len offset =>
    reader = conn → offset = 0 → Replaying s.1.gatt conn →
      ∃ r ∈ s.2, r.Answered p s.1.cache len (fromradioRead p s.1.cache s.1.gatt conn len 0).2
        (readSource s.1 conn)
  | _ => True

instance (cache : ConfigCache) (r : Request) (len : Nat) (answer : Except AttError Bytes) :
    (source : Source) → Decidable (r.Answered p cache len answer source)
  | .cached _ | .complete => inferInstanceAs (Decidable (_ ∧ _))
  | .queued => isFalse id
  | .nothing => inferInstanceAs (Decidable (_ = _))

instance (s : Proxy n × Option Request) : (e : Event n) → Decidable (Echoed p conn s e)
  | .fromradioRead _ _ _ => inferInstanceAs (Decidable (_ → _ → _ → ∃ r ∈ _, _))
  | .sessionStart _ | .fromradio _ _ | .toradioWrite _ _ _ | .fromnumRead _ _ _
  | .nodeRegWrite _ _ _ | .connected _ _ | .disconnected _ | .keepalive | .fetchRetry
  | .liveness _ | .teardown _ | .txWork _ | .txEnd _ => isTrue trivial

/-- A request for id zero comes from a phone whose slot stores no other nonce. -/
def Heard (p : Platform) (conn : BtConn) (s : Proxy n × Option Request) (e : Event n) : Prop :=
  ∀ id ∈ asked p s.1 conn e, id ≠ 0 ∨ ∀ i ∈ findSlot s.1.gatt conn, (s.1.gatt.conns i).nonce = 0

instance (s : Proxy n × Option Request) (e : Event n) : Decidable (Heard p conn s e) :=
  Option.decidableForallMem (asked p s.1 conn e)

theorem Aside.latest (aside : Aside p w conn e) (r : Option Request) : latest p w conn r e = r := by
  unfold MeshPbx.latest
  rw [aside.asked]
  cases e with
  | fromradioRead reader len offset =>
    have other : ¬ (reader = conn ∧ offset = 0) := by
      rintro ⟨rfl, rfl⟩
      exact aside.read len rfl
    exact if_neg other
  | connected fresh err =>
    have other : fresh ≠ conn := by
      rintro rfl
      exact aside.connected err rfl
    exact if_neg other
  | disconnected left =>
    have other : left ≠ conn := by
      rintro rfl
      exact aside.disconnected rfl
    exact if_neg other
  | _ => rfl

/-! The invariant. -/

/-- The replay serves the request: its nonce, its completion, and what is left
of its segment. -/
structure Request.Serves (p : Platform) (cache : ConfigCache) (r : Request)
    (at_ : ReplayPosition) : Prop where
  nonce : at_.nonce = r.id
  complete : at_.complete = p.fromRadioBytes (.configComplete r.id)
  rest : r.served ++ segment cache r.id at_.cursor = segment cache r.id 0

structure Tuned (p : Platform) (conn : BtConn) (s : Proxy n × Option Request) : Prop where
  kept : Kept s.1
  parked : s.1.session.pending = []
  serves : ∀ i, (s.1.gatt.conns i).conn = some conn → (s.1.gatt.conns i).state = .replaying →
    ∃ r ∈ s.2, r.Serves p s.1.cache (s.1.gatt.conns i).position

theorem serves_armed (pc : ProxyConn) (id : UInt32) :
    Request.Serves p c ⟨id, []⟩ (pc.arm p id).position :=
  ⟨rfl, ProxyConn.ccBytes_arm p pc id, rfl⟩

/-- One fresh read of a replay: the position moves on by what the read serves,
and the read returns what the request owes. -/
theorem Request.Serves.read (documented : p.Documented) (held : Held g i conn)
    (replaying : (g.conns i).state = .replaying) {r : Request}
    (serves : r.Serves p c (g.conns i).position) (len : Nat) :
    r.Answered p c len (fromradioRead p c g conn len 0).2 (stageSource c (g.conns i)) ∧
      ((stageNext c (g.conns i)).state = .replaying →
        (r.read (stageSource c (g.conns i))).Serves p c (stageNext c (g.conns i)).position) := by
  obtain ⟨nonce, complete, rest⟩ := serves
  rw [fresh_answer documented held]
  have stored : (g.conns i).nonce = r.id := nonce
  have encoded : (g.conns i).ccBytes = p.fromRadioBytes (.configComplete r.id) := complete
  have owed : r.served ++ segment c r.id (g.conns i).replayCursor = segment c r.id 0 := rest
  cases source : stageSource c (g.conns i) with
  | cached k =>
    obtain ⟨⟨_, next, below⟩, staged⟩ := stage_cached source
    have inside : (g.conns i).replayCursor ≤ cacheFrameCount c := by
      by_contra past
      have := replay_next_past (g.conns i) (Nat.lt_of_not_le past)
      omega
    obtain ⟨_, skipped, chosen⟩ := replay_next_spec (g.conns i) inside
    rw [next, stored] at skipped chosen
    have taken : r.served ++ [k] ++ segment c r.id (k + 1) = segment c r.id 0 := by
      rw [← owed, skipped, segment_serve below (chosen below), List.append_assoc]
      rfl
    rw [staged]
    refine ⟨⟨⟨_, taken⟩, ?_⟩, fun _ => ⟨stored, encoded, taken⟩⟩
    simp only [ProxyConn.stagedBytes, staged_write]
  | complete =>
    obtain ⟨⟨_, next⟩, staged⟩ := stage_complete source
    have inside : (g.conns i).replayCursor ≤ cacheFrameCount c := by
      by_contra past
      have := replay_next_past (g.conns i) (Nat.lt_of_not_le past)
      omega
    obtain ⟨_, skipped, _⟩ := replay_next_spec (g.conns i) inside
    rw [next, stored, segment_end] at skipped
    rw [skipped, List.append_nil] at owed
    rw [staged]
    refine ⟨⟨owed, ?_⟩, fun _ => ⟨stored, encoded, ?_⟩⟩
    · simp only [ProxyConn.stagedBytes, staged_write, encoded]
    · have none : segment c r.id (cacheFrameCount c + 1) = [] := segment_past (Nat.le_succ _)
      have done : r.served ++ segment c r.id (cacheFrameCount c + 1) = segment c r.id 0 := by
        rw [none, List.append_nil]
        exact owed
      exact done
  | queued => exact absurd replaying (stage_queued source).1
  | nothing =>
    rcases stage_nothing source with ⟨_, _, staged⟩ | ⟨other, _, _⟩
    · rw [staged]
      refine ⟨?_, fun same => by cases same⟩
      simp [Request.Answered, ProxyConn.stagedBytes]
    · exact absurd replaying other

/-- A LIVE request arms a replay that serves it exactly when it is heard: a
request for id zero gets the stored nonce. -/
theorem asked_serves_iff {s : Proxy n × Option Request} {id : UInt32}
    (asks : asked p s.1 conn e = some id) (held : Held s.1.gatt i conn) :
    Request.Serves p c ⟨id, []⟩
        ((s.1.gatt.conns i).arm p (if id ≠ 0 then id else (s.1.gatt.conns i).nonce)).position ↔
      Heard p conn s e := by
  constructor
  · intro serves other known
    rw [asks] at known
    cases known
    by_cases zero : id = 0
    · have stored : (if id ≠ 0 then id else (s.1.gatt.conns i).nonce) = id := serves.nonce
      rw [if_neg (not_not.mpr zero), zero] at stored
      refine .inr fun j same => ?_
      rw [held.found] at same
      cases same
      exact stored
    · exact .inl zero
  · intro heard
    have stored : (if id ≠ 0 then id else (s.1.gatt.conns i).nonce) = id := by
      by_cases zero : id = 0
      · rw [if_neg (not_not.mpr zero), zero]
        exact ((heard _ asks).resolve_left (not_not.mpr zero)) i held.found
      · rw [if_pos zero]
    rw [stored]
    exact serves_armed _ _

section
variable (documented : p.Documented)
include documented

theorem tuned_step (s : Proxy n × Option Request) (e : Event n) (tuned : Tuned p conn s)
    (enabled : (echo n p conn).enabled s e) (heard : Heard p conn s e) :
    Tuned p conn ((echo n p conn).next s e) := by
  refine ⟨kept_step documented s.1 (.event e) tuned.kept enabled, ?_, ?_⟩
  · rcases (phase_step (p := p) s.1 e enabled).parked with same | none
    · exact same.trans tuned.parked
    · exact none
  · intro i holds replaying
    simp only [echo] at holds replaying ⊢
    have move := slot_move documented tuned.kept.distinct enabled tuned.kept.consistent.passing
      (.inl tuned.parked) holds
    generalize (s.1.apply p e).gatt.conns i = pc at move replaying ⊢
    cases move with
    | asked _ id asks held =>
      have fresh : latest p s.1 conn s.2 e = some ⟨id, []⟩ := by
        unfold latest
        rw [asks]
      rw [fresh]
      exact ⟨_, rfl, (asked_serves_iff asks held).mpr heard⟩
    | read len held =>
      have source : readSource s.1 conn = stageSource s.1.cache (s.1.gatt.conns i) := by
        simp only [readSource, held.found]
      have before := stage_replaying_from replaying
      obtain ⟨r, known, serves⟩ := tuned.serves i held.holds before
      have known : s.2 = some r := known
      refine ⟨r.read (readSource s.1 conn), ?_, ?_⟩
      · simp [latest, asked, known]
      · rw [source]
        exact (serves.read documented held before len).2 replaying
    | fresh => cases replaying
    | aside _ _ aside held position =>
      have before : (s.1.gatt.conns i).state = .replaying :=
        (congrArg ReplayPosition.state position).symm.trans replaying
      obtain ⟨r, known, nonce, complete, rest⟩ := tuned.serves i held.holds before
      have ready := tuned.kept.replaying i before
      refine ⟨r, ?_, ?_⟩
      · rw [aside.latest]
        exact known
      · rw [position]
        refine ⟨nonce, complete, ?_⟩
        rw [segment_kept tuned.kept ready e enabled, segment_kept tuned.kept ready e enabled]
        exact rest

theorem echoed_step {s : Proxy n × Option Request} (tuned : Tuned p conn s) (e : Event n) :
    Echoed p conn s e := by
  cases e with
  | fromradioRead reader len offset =>
    rintro rfl rfl ⟨i, found, replaying⟩
    have holds := find_slot_some found
    have held : Held s.1.gatt i reader := ⟨tuned.kept.distinct, holds⟩
    obtain ⟨r, known, serves⟩ := tuned.serves i holds replaying
    have served : readSource s.1 reader = stageSource s.1.cache (s.1.gatt.conns i) := by
      simp only [readSource, held.found]
    rw [served]
    exact ⟨r, known, (serves.read documented held replaying len).1⟩
  | _ => trivial

/-- Over every run of the proxy whose LIVE requests for id zero all come from
phones with nothing stored, every read of a replay is answered by the phone's
latest request. -/
theorem completion_echoes (conn : BtConn) (es : List (Event n))
    (runs : (echo n p conn).Runs (.boot n, none) es)
    (heard : (echo n p conn).Along (Heard p conn) (.boot n, none) es) :
    (echo n p conn).Along (Echoed p conn) (.boot n, none) es := by
  have boot : Tuned p conn (Proxy.boot n, none) := ⟨kept_boot, rfl, fun _ _ same => by cases same⟩
  exact Machine.along_of_invariant_along (tuned_step documented)
    (fun s e tuned _ _ => echoed_step documented tuned e) es boot runs heard

end

/-- The node's burst of a config and a node_info frame is published, and phone 7
asks twice: for everything, and in the middle of that replay for the nodes. -/
def echoRun : List (Event 1) :=
  [.sessionStart 5, .fromradio (.of 0x2a [0]) 0, .fromradio (.of 0x22 [0]) 0,
    .fromradio (.of 0x38 [5]) 0, .connected 7 false, .toradioWrite 7 [0x18, 9] 0,
    .fromradioRead 7 64 0, .toradioWrite 7 [0x18, 0xad, 0x9e, 4] 0, .fromradioRead 7 64 0,
    .fromradioRead 7 64 0, .fromradioRead 7 64 0]

theorem requests_echoed :
    (echo 1 .wire 7).Along (Echoed .wire 7) (.boot 1, none) echoRun ∧
      ((echo 1 .wire 7).run (.boot 1, none) (echoRun.take 10)).2 = some ⟨69421, [1]⟩ :=
  ⟨completion_echoes wire_documented 7 echoRun (by decide) (by decide), by decide⟩

/-- Phone 7 asks for id 9 and then for id 0, and reads the completion of 9. -/
def zeroRequestRun : List (Event 1) :=
  [.sessionStart 5, .fromradio (.of 0x38 [5]) 0, .connected 7 false, .toradioWrite 7 [0x18, 9] 0,
    .toradioWrite 7 [0x18, 0] 0, .fromradioRead 7 64 0]

theorem zero_request_unanswered :
    ∃ es : List (Event 1), (echo 1 .wire 7).Runs (.boot 1, none) es ∧
      ¬ (echo 1 .wire 7).Along (Echoed .wire 7) (.boot 1, none) es :=
  ⟨zeroRequestRun, by decide, by decide⟩

end MeshPbx
