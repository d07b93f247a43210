import MeshPbx.Lib.Locks
import MeshPbx.TeardownExpiry

/-! The mutexes of the slots. Any number of threads run the functions of the server, each
preempted between its lookup, its locked section and what it does after. A notification, a
disconnection or a start of advertising may run callbacks before it returns; what the
sections themselves call only counts references or copies bytes. A function takes the
mutex of one slot at a time and has given it back before it calls the stack. -/
namespace MeshPbx
variable {n : Nat} {p : Platform} {g : Gatt n} {i : Fin n}

/-- What a function does between k_mutex_lock and k_mutex_unlock. -/
inductive LockedSection where
  | enqueue (conn : BtConn) (data : Bytes)
  | serve (conn : BtConn) (cache : ConfigCache) (offset : Nat)
  | arm (conn : BtConn) (ccLen : Nat)
  | leave
  | claim
  | free

/-- What a function does once it has unlocked. -/
inductive Deed (n : Nat) where
  | stack (call : BtCall)
  | reschedule (slot : Fin n)
  | countDown

namespace LockedSection

def run (g : Gatt n) (i : Fin n) : LockedSection → Gatt n × List (Deed n)
  | .enqueue conn data =>
    let pc := g.conns i
    if pc.leaving then (g, [])
    else if room : pc.queue.count < FROMRADIO_QUEUE_DEPTH then
      let entry : PktEntry := ⟨(pc.queue.slots pc.queue.tail).data.write 0 data, data.length⟩
      (g.setConn i { pc with queue := pc.queue.push room entry, fromnum := pc.fromnum + 1 },
        [.stack (.notifyFromnum conn (pc.fromnum + 1))])
    else (g, [.stack (.notifyFromnum conn pc.fromnum)])
  | .serve _ cache offset =>
    (g.setConn i (if offset = 0 then stageNext cache (g.conns i) else g.conns i), [])
  | .arm conn ccLen =>
    (g.setConn i
      { g.conns i with
        ccLen := ccLen
        replayCursor := 0
        state := .replaying
        fromnum := (g.conns i).fromnum + 1 },
      [.stack (.notifyFromnum conn ((g.conns i).fromnum + 1))])
  | .leave => (g.setConn i { g.conns i with leaving := true }, [.reschedule i])
  -- the handler of a teardown copies the connection out
  | .claim =>
    (g, (g.conns i).conn.elim [] fun conn =>
      if (g.conns i).leaving then [.stack (.disconnect conn .remoteUserTermConn)] else [])
  | .free => (releaseSlot g i, [.countDown, .stack .advStart])

theorem deeds_le (g : Gatt n) (i : Fin n) (sec : LockedSection) : (sec.run g i).2.length ≤ 2 := by
  cases sec with
  | enqueue conn data =>
    simp only [run]
    split_ifs <;> simp
  | claim =>
    simp only [run]
    cases (g.conns i).conn with
    | none => simp
    | some conn =>
      simp only [Option.elim_some]
      split_ifs <;> simp
  | _ => simp [run]

end LockedSection

def Deed.run (g : Gatt n) : Deed n → Gatt n
  | .stack call => g.call call
  | .reschedule slot => g.setConn slot { g.conns slot with teardownWork := some TEARDOWN_DELAY_MS }
  | .countDown => { g with activeConnCount := (g.activeConnCount + 255) % 2 ^ 8 }

/-- Where a thread stands in a function: before it, at k_mutex_lock, in the section, at
k_mutex_unlock, or after that. -/
inductive GattPoint (n : Nat) where
  | start (call : GattCall n)
  | lock (slot : Fin n) (sec : LockedSection)
  | inside (slot : Fin n) (sec : LockedSection)
  | unlock (slot : Fin n) (deeds : List (Deed n))
  | after (deed : Deed n) (deeds : List (Deed n))

/-- A function up to its lock. Those that take none do all they do here. -/
def GattCall.begin (p : Platform) (g : Gatt n) : GattCall n → Gatt n × Option (GattPoint n)
  | .enqueue conn data =>
    if data.length > FROMRADIO_MAX_PKT_SIZE then (g, none)
    else (g, (findSlot g conn).map (.lock · (.enqueue conn data)))
  | .encodeReply => ({ g with queueStatusReply := (protoEncodeQueueStatus p 16).2 }, none)
  | .replay conn nonce => match findSlot g conn with
    | none => (g, none)
    | some i =>
      let nonce := if nonce ≠ 0 then nonce else (g.conns i).nonce
      let (enc, written) := protoEncodeConfigComplete p nonce 16
      (g.setConn i { g.conns i with nonce := nonce, ccFrame := (g.conns i).ccFrame.write 0 written },
        if enc ≠ none then none else some (.lock i (.arm conn written.length)))
  | .park conn nonce => (parkSlot g conn nonce, none)
  | .read cache conn _ offset => (g, (findSlot g conn).map (.lock · (.serve conn cache offset)))
  | .register conn id => ((bleGattRegisterProxyId g conn id).1, none)
  | .requestTeardown conn => (g, (findSlot g conn).map (.lock · .leave))
  | .teardown slot =>
    (g.setConn slot { g.conns slot with teardownWork := none }, some (.lock slot .claim))
  | .connected conn err =>
    if err then (g, none)
    else match allocSlot g conn with
      | none => (g, some (.after (.stack (.disconnect conn .connLimitExceeded)) []))
      | some (_, g) =>
        let g := { g with activeConnCount := (g.activeConnCount + 1) % 2 ^ 8 }
        (g, if g.activeConnCount < n then some (.after (.stack .advStart) []) else none)
  | .disconnected conn => match findSlot g conn with
    | none => (g, some (.after (.stack .advStart) []))
    | some i => (cancelTeardown g i, some (.lock i .free))

namespace GattPoint

def resume : List (Deed n) → Option (GattPoint n)
  | [] => none
  | deed :: deeds => some (.after deed deeds)

def act (p : Platform) (g : Gatt n) : GattPoint n → Gatt n × Option (GattPoint n)
  | .start call => call.begin p g
  | .lock slot sec => (g, some (.inside slot sec))
  | .inside slot sec => ((sec.run g slot).1, some (.unlock slot (sec.run g slot).2))
  | .unlock _ deeds => (g, resume deeds)
  | .after deed deeds => (deed.run g, resume deeds)

def Entry : GattPoint n → Prop
  | .start _ => True
  | .lock _ _ | .inside _ _ | .unlock _ _ | .after _ _ => False

/-- The thread is about to call the BLE stack. -/
def Calls : GattPoint n → Prop
  | .after (.stack _) _ => True
  | .start _ | .lock _ _ | .inside _ _ | .unlock _ _ | .after _ _ => False

def takes : GattPoint n → Option (Fin n)
  | .lock slot _ => some slot
  | .start _ | .inside _ _ | .unlock _ _ | .after _ _ => none

def drops : GattPoint n → Option (Fin n)
  | .unlock slot _ => some slot
  | .start _ | .lock _ _ | .inside _ _ | .after _ _ => none

def holds : GattPoint n → Set (Fin n)
  | .inside slot _ | .unlock slot _ => {slot}
  | .start _ | .lock _ _ | .after _ _ => ∅

def left : GattPoint n → Nat
  | .start _ => 5
  | .lock _ _ => 4
  | .inside _ _ => 3
  | .unlock _ deeds | .after _ deeds => deeds.length

instance : (point : GattPoint n) → Decidable point.Entry
  | .start _ => isTrue trivial
  | .lock _ _ | .inside _ _ | .unlock _ _ | .after _ _ => isFalse id

instance : (point : GattPoint n) → Decidable point.Calls
  | .after (.stack _) _ => isTrue trivial
  | .after (.reschedule _) _ | .after .countDown _ => isFalse id
  | .start _ | .lock _ _ | .inside _ _ | .unlock _ _ => isFalse id

/-- A function goes on to a lock or to a call, neither of which holds anything. -/
theorem began (p : Platform) (g : Gatt n) (call : GattCall n) (q : GattPoint n)
    (begins : (call.begin p g).2 = some q) : q.holds = ∅ ∧ q.left < 5 := by
  have locks : ∀ (slot : Fin n) (sec : LockedSection),
      (GattPoint.lock slot sec).holds = ∅ ∧ (GattPoint.lock slot sec).left < 5 :=
    fun _ _ => ⟨rfl, Nat.lt_succ_self 4⟩
  have afterwards : ∀ deed : Deed n,
      (GattPoint.after deed []).holds = ∅ ∧ (GattPoint.after deed []).left < 5 :=
    fun _ => ⟨rfl, Nat.succ_pos 4⟩
  cases call with
  | enqueue conn data =>
    simp only [GattCall.begin] at begins
    split_ifs at begins
    obtain ⟨slot, _, rfl⟩ := Option.map_eq_some_iff.mp begins
    exact locks slot _
  | replay conn nonce =>
    simp only [GattCall.begin] at begins
    split at begins
    · cases begins
    · simp only at begins
      split_ifs at begins
      · cases begins
        exact locks _ _
      · cases begins
        exact locks _ _
  | read cache conn len offset =>
    obtain ⟨slot, _, rfl⟩ := Option.map_eq_some_iff.mp begins
    exact locks slot _
  | requestTeardown conn =>
    obtain ⟨slot, _, rfl⟩ := Option.map_eq_some_iff.mp begins
    exact locks slot _
  | teardown slot =>
    cases begins
    exact locks slot _
  | connected conn err =>
    simp only [GattCall.begin] at begins
    split_ifs at begins
    split at begins
    · cases begins
      exact afterwards _
    · simp only at begins
      split_ifs at begins
      cases begins
      exact afterwards _
  | disconnected conn =>
    simp only [GattCall.begin] at begins
    split at begins
    · cases begins
      exact afterwards _
    · cases begins
      exact locks _ _
  | encodeReply => cases begins
  | park conn nonce => cases begins
  | register conn id => cases begins

theorem resumed (deeds : List (Deed n)) (q : GattPoint n) (goes : resume deeds = some q) :
    q.holds = ∅ ∧ q.left < deeds.length := by
  cases deeds with
  | nil => cases goes
  | cons deed deeds =>
    cases goes
    exact ⟨rfl, Nat.lt_succ_self _⟩

end GattPoint

/-- The functions of the server as code under the slots' mutexes. -/
def gattCode (n : Nat) (p : Platform) : LockCode (GattPoint n) (Fin n) (Gatt n) where
  act point g := point.act p g
  entry := GattPoint.Entry
  calls := GattPoint.Calls
  takes := GattPoint.takes
  drops := GattPoint.drops
  holds := GattPoint.holds
  left := GattPoint.left
  entry_free point enters := by
    cases point with
    | start call => rfl
    | _ => exact enters.elim
  calls_free point calls := by
    cases point with
    | after deed deeds => rfl
    | _ => exact calls.elim
  takes_above point slot takes held holds := by
    cases point with
    | lock _ _ => exact holds.elim
    | _ => cases takes
  drops_held point slot drops := by
    cases point with
    | unlock _ _ => exact (Option.some.inj drops).symm
    | _ => cases drops
  next_holds point g q goes := by
    cases point with
    | start call =>
      rw [(GattPoint.began p g call q goes).1]
      simp [heldAfter, GattPoint.holds, GattPoint.takes]
    | lock slot sec =>
      cases goes
      ext l
      simp [heldAfter, GattPoint.holds, GattPoint.takes, GattPoint.drops, eq_comm]
    | inside slot sec =>
      cases goes
      ext l
      simp [heldAfter, GattPoint.holds, GattPoint.takes, GattPoint.drops]
    | unlock slot deeds =>
      rw [(GattPoint.resumed deeds q goes).1]
      ext l
      simp [heldAfter, GattPoint.holds, GattPoint.takes, GattPoint.drops, eq_comm]
    | after deed deeds =>
      rw [(GattPoint.resumed deeds q goes).1]
      simp [heldAfter, GattPoint.holds, GattPoint.takes]
  last_holds point g returns := by
    cases point with
    | unlock slot deeds =>
      ext l
      simp [heldAfter, GattPoint.holds, GattPoint.takes, GattPoint.drops, eq_comm]
    | lock slot sec => cases returns
    | inside slot sec => cases returns
    | _ => simp [heldAfter, GattPoint.holds, GattPoint.takes]
  left_lt point g q goes := by
    cases point with
    | start call => exact (GattPoint.began p g call q goes).2
    | lock slot sec =>
      cases goes
      exact Nat.lt_succ_self 3
    | inside slot sec =>
      cases goes
      exact Nat.lt_succ_of_le (sec.deeds_le g slot)
    | unlock slot deeds => exact (GattPoint.resumed deeds q goes).2
    | after deed deeds => exact (GattPoint.resumed deeds q goes).2

instance (point : GattPoint n) : Decidable ((gattCode n p).entry point) :=
  inferInstanceAs (Decidable point.Entry)

instance (point : GattPoint n) : Decidable ((gattCode n p).calls point) :=
  inferInstanceAs (Decidable point.Calls)

/-! A function that nothing interrupts. -/

theorem deeds_finished (g : Gatt n) (deeds : List (Deed n)) (fuel : Nat)
    (enough : deeds.length ≤ fuel) :
    ((GattPoint.resume deeds).elim g fun q => (gattCode n p).finish fuel q g) =
      deeds.foldl Deed.run g := by
  induction deeds generalizing g fuel with
  | nil => rfl
  | cons deed deeds ih =>
    cases fuel with
    | zero => simp at enough
    | succ fuel => exact ih (deed.run g) fuel (Nat.le_of_succ_le_succ enough)

theorem section_finished (g : Gatt n) (i : Fin n) (sec : LockedSection) :
    (gattCode n p).finish 5 (.lock i sec) g = (sec.run g i).2.foldl Deed.run (sec.run g i).1 := by
  have enough : (sec.run g i).2.length ≤ 2 := sec.deeds_le g i
  exact deeds_finished (sec.run g i).1 (sec.run g i).2 2 enough

theorem begun (g : Gatt n) (call : GattCall n) : (gattCode n p).finish 6 (.start call) g =
    (call.begin p g).2.elim (call.begin p g).1 fun q =>
      (gattCode n p).finish 5 q (call.begin p g).1 := rfl

/-- It is the function of the server that is not split. -/
theorem call_finished (documented : p.Documented) (g : Gatt n) (call : GattCall n) :
    (gattCode n p).finish 6 (.start call) g = call.run p g := by
  rw [begun]
  cases call with
  | enqueue conn data =>
    simp only [GattCall.begin, GattCall.run, bleGattEnqueueFromradio]
    split_ifs with long
    · rfl
    · cases findSlot g conn with
      | none => rfl
      | some i =>
        simp only [Option.map_some, Option.elim_some, section_finished, LockedSection.run,
          enqueueLocked]
        by_cases room : (g.conns i).queue.count < FROMRADIO_QUEUE_DEPTH
        · simp only [room, Nat.not_le_of_lt room, dite_true, dite_false]
          split_ifs <;> rfl
        · simp only [room, Nat.le_of_not_lt room, dite_true, dite_false]
          split_ifs <;> rfl
  | replay conn nonce =>
    cases found : findSlot g conn with
    | none => simp only [GattCall.begin, GattCall.run, bleGattReplayCachedBurst, found, Option.elim_none]
    | some i =>
      simp [GattCall.begin, GattCall.run, bleGattReplayCachedBurst, found,
        encode_config_complete documented, section_finished, LockedSection.run, Deed.run,
        Gatt.setConn]
  | read cache conn len offset =>
    simp only [GattCall.begin, GattCall.run, fromradioRead]
    cases findSlot g conn with
    | none => rfl
    | some i => simp [section_finished, LockedSection.run]
  | requestTeardown conn =>
    simp only [GattCall.begin, GattCall.run, bleGattRequestTeardown]
    cases findSlot g conn with
    | none => rfl
    | some i => simp [section_finished, LockedSection.run, Deed.run, Gatt.setConn]
  | teardown slot =>
    simp only [GattCall.begin, GattCall.run, teardownWorkHandler, Option.elim_some,
      section_finished, LockedSection.run]
    cases ((g.setConn slot { g.conns slot with teardownWork := none }).conns slot).conn with
    | none => rfl
    | some conn =>
      simp only [Option.elim_some]
      split_ifs <;> rfl
  | connected conn err =>
    simp only [GattCall.begin, GattCall.run, onConnected]
    split_ifs with failed
    · rfl
    · cases allocSlot g conn with
      | none => rfl
      | some allocated =>
        simp only
        split_ifs <;> rfl
  | disconnected conn =>
    simp only [GattCall.begin, GattCall.run, onDisconnected]
    cases findSlot g conn with
    | none => rfl
    | some i =>
      simp [section_finished, LockedSection.run, Deed.run, cancelTeardown, releaseSlot, freeSlot,
        Gatt.setConn, Gatt.call]
  | encodeReply => rfl
  | park conn nonce => rfl
  | register conn id => rfl

/-! Any number of threads. -/

variable {T : Type} [DecidableEq T]

/-- Every slot is vacant and no thread is in the server. -/
def gattThreads (T : Type) (n : Nat) : Threads T (GattPoint n) (Fin n) (Gatt n) :=
  ⟨.zero n, fun _ => none, fun _ => []⟩

/-- A thread that calls a function while no other is in the server. -/
theorem call_undisturbed (documented : p.Documented) {s : Threads T (GattPoint n) (Fin n) (Gatt n)}
    {t : T} (sound : (gattCode n p).Sound s) (idle : ∀ u, s.stack u = []) (call : GattCall n) :
    ∃ k, ((gattCode n p).threads T).Runs s (.enter t (.start call) :: .replicate k (.step t)) ∧
      (((gattCode n p).threads T).run s (.enter t (.start call) :: .replicate k (.step t))).memory =
        call.run p s.memory := by
  have enters : ((gattCode n p).threads T).enabled s (.enter t (.start call)) :=
    ⟨trivial, by simp [idle]⟩
  have sound' := LockCode.sound_step s (.enter t (.start call)) sound enters
  have unowned : ∀ l u, s.owner l ≠ some u := by
    intro l u owner
    obtain ⟨point, first, _⟩ := (sound.owned u l).mp owner
    simp [idle] at first
  have entered : (((gattCode n p).threads T).next s (.enter t (.start call))).stack t =
      [.start call] := by simp [idle]
  obtain ⟨k, runs, memory, _⟩ := LockCode.run_alone 6 (Nat.lt_succ_self 5) sound' entered
    fun l u owner => absurd owner (unowned l u)
  refine ⟨k, ⟨enters, runs⟩, ?_⟩
  rw [Machine.run_cons, memory]
  exact call_finished documented s.memory call

/-- Whatever threads run and wherever they are preempted or called back: two are never in
one slot's locked section; none notifies, disconnects or advertises with a slot's mutex in
hand; and from there on, however they are scheduled, the calls under way take boundedly
many steps, and as long as one has not returned some thread can move. -/
theorem slots_never_deadlock [Fintype T] (es : List (ThreadEvent T (GattPoint n)))
    (runs : ((gattCode n p).threads T).Runs (gattThreads T n) es) :
    let s := ((gattCode n p).threads T).run (gattThreads T n) es
    (∀ t u slot sec other, (s.stack t).head? = some (.inside slot sec) →
      (s.stack u).head? = some (.inside slot other) → t = u) ∧
    (∀ t call deeds slot, (s.stack t).head? = some (.after (.stack call) deeds) →
      s.owner slot ≠ some t) ∧
    ∀ fs, ((gattCode n p).threads T).Runs s fs → (∀ e ∈ fs, e.IsStep) →
      fs.length ≤ (gattCode n p).ahead s ∧
        ((∀ t, (((gattCode n p).threads T).run s fs).stack t = []) ∨
          ∃ t, (gattCode n p).Ready (((gattCode n p).threads T).run s fs) t) := by
  intro s
  have sound : (gattCode n p).Sound s :=
    Machine.invariant LockCode.sound_step es (LockCode.sound_start (Gatt.zero n)) runs
  refine ⟨?_, ?_, ?_⟩
  · intro t u slot sec other here there
    exact LockCode.exclusive sound here there rfl rfl
  · intro t call deeds slot here
    exact LockCode.called_free sound here trivial slot
  · exact LockCode.schedule_returns sound

/-- A phone leaves while a packet for it is being queued by the other thread. -/
def contendedSlot : List (ThreadEvent Bool (GattPoint 1)) :=
  [.enter false (.start (.connected 7 false)), .step false,
    .enter false (.start (.enqueue 7 [1])), .step false, .step false,
    .enter true (.start (.disconnected 7)), .step true]

theorem contended_slot_goes_on :
    let s := ((gattCode 1 .wire).threads Bool).run (gattThreads Bool 1) contendedSlot
    ¬ (gattCode 1 .wire).Ready s true ∧ s.stack true ≠ [] ∧
      ((∀ t, s.stack t = []) ∨ ∃ t, (gattCode 1 .wire).Ready s t) :=
  ⟨by decide, by decide, ((slots_never_deadlock contendedSlot (by decide)).2.2 [] trivial (by simp)).2⟩

end MeshPbx
