import MeshPbx.Lib.ChunkedRead
import MeshPbx.DeliveryOrder

/-! Long reads. A phone whose MTU is smaller than a packet reads it in chunks, while
the server goes on with its other calls. The staged copy is what makes that one
packet: only the read at offset 0 writes it, and the others leave the server as it
was. -/
namespace MeshPbx
variable {n : Nat} {p : Platform} {g : Gatt n} {i : Fin n} {conn : BtConn} {packet : Bytes}
  {call : GattCall n}

/-- What may come between two requests of a long read of `conn`: everything but the
end of its connection and a fresh read of its own. -/
def GattCall.Between (conn : BtConn) : GattCall n → Prop
  | .disconnected left => left ≠ conn
  | .read _ reader _ offset => ¬ (reader = conn ∧ offset = 0)
  | _ => True

instance (conn : BtConn) : (call : GattCall n) → Decidable (call.Between conn)
  | .disconnected _ => inferInstanceAs (Decidable (_ ≠ _))
  | .read _ _ _ _ => inferInstanceAs (Decidable (¬ (_ ∧ _)))
  | .connected _ _ | .enqueue _ _ | .encodeReply | .replay _ _ | .park _ _
  | .register _ _ | .requestTeardown _ | .teardown _ => isTrue trivial

/-- A call that gives the phone another replay. -/
def GattCall.Rearms (conn : BtConn) : GattCall n → Prop
  | .replay target _ | .park target _ => target = conn
  | _ => False

/-- A phone's long read in requests of `chunk` bytes: the read at offset o is served
with the cache as it then is, and behind request k the server makes the calls
`between k`. -/
def longRead (p : Platform) (conn : BtConn) (chunk : Nat) (caches : Nat → ConfigCache)
    (between : Nat → List (GattCall n)) : ChunkedRead (Gatt n) UInt8 where
  chunk := chunk
  request g offset :=
    let (g, answer) := fromradioRead p (caches offset) g conn chunk offset
    (g, answer.toOption)
  between k g := (gattSystem n p).run g (between k)

/-! The slot between two requests. -/

theorem GattCall.Between.spares (between : call.Between conn) : call.Spares conn := by
  cases call with
  | disconnected => exact between
  | _ => trivial

theorem offer_cases (pc : ProxyConn) (data : Bytes) :
    pc.offer data = pc ∨ ∃ room, pc.offer data = pc.append room data := by
  unfold ProxyConn.offer
  split_ifs
  · by_cases ready : pc.Open
    · exact Or.inr ⟨ready.2.2, dif_pos ready⟩
    · exact Or.inl (deliver_closed ready data)
  · exact Or.inl rfl

/-- The staged copy stays, and packets already queued stay where they are. -/
structure Undisturbed (before after : ProxyConn) : Prop where
  staged : after.stagedBytes = before.stagedBytes
  queued : ∃ added, after.queued = before.queued ++ added

/-- What a phone has coming to it is what it had, with packets added at the end. -/
def Extends (cache : ConfigCache) (before after : ProxyConn) : Prop :=
  ∃ added, after.mailbox cache =
    { before.mailbox cache with queue := (before.mailbox cache).queue ++ added }

theorem Undisturbed.refl (pc : ProxyConn) : Undisturbed pc pc :=
  ⟨rfl, [], (List.append_nil _).symm⟩

theorem Undisturbed.trans {first second third : ProxyConn} (left : Undisturbed first second)
    (right : Undisturbed second third) : Undisturbed first third := by
  obtain ⟨added, queued⟩ := left.queued
  obtain ⟨more, later⟩ := right.queued
  refine ⟨right.staged.trans left.staged, added ++ more, ?_⟩
  rw [later, queued, List.append_assoc]

theorem Extends.refl (cache : ConfigCache) (pc : ProxyConn) : Extends cache pc pc := by
  refine ⟨[], ?_⟩
  rw [List.append_nil]

theorem Extends.trans {cache : ConfigCache} {first second third : ProxyConn}
    (left : Extends cache first second) (right : Extends cache second third) :
    Extends cache first third := by
  obtain ⟨added, mailbox⟩ := left
  obtain ⟨more, later⟩ := right
  refine ⟨added ++ more, ?_⟩
  rw [later, mailbox, List.append_assoc]

theorem undisturbed_append (pc : ProxyConn) (room : pc.queue.count < FROMRADIO_QUEUE_DEPTH)
    (data : Bytes) : Undisturbed pc (pc.append room data) :=
  ⟨rfl, [data], ProxyConn.queued_append pc room data⟩

theorem extends_append (cache : ConfigCache) (pc : ProxyConn)
    (room : pc.queue.count < FROMRADIO_QUEUE_DEPTH) (data : Bytes) :
    Extends cache pc (pc.append room data) := by
  refine ⟨[data], ?_⟩
  have queue : ((pc.append room data).mailbox cache).queue = pc.queued ++ [data] :=
    ProxyConn.queued_append pc room data
  exact congrArg (fun queue => { pc.mailbox cache with queue }) queue

theorem between_undisturbed (between : call.Between conn) (pc : ProxyConn) :
    Undisturbed pc (pc.after p i conn call) := by
  have same := Undisturbed.refl pc
  cases call with
  | enqueue target data =>
    simp only [ProxyConn.after]
    split_ifs
    · rcases offer_cases pc data with kept | ⟨room, appended⟩
      · rw [kept]
        exact same
      · rw [appended]
        exact undisturbed_append pc room data
    · exact same
  | read cache reader len offset =>
    rw [ProxyConn.after, if_neg between]
    exact same
  | disconnected left =>
    rw [ProxyConn.after, if_neg between]
    exact same
  | encodeReply => exact same
  | connected => exact same
  | replay target nonce =>
    by_cases mine : target = conn
    · rw [ProxyConn.after, if_pos mine]
      exact ⟨rfl, same.queued⟩
    · rw [ProxyConn.after, if_neg mine]
      exact same
  | _ =>
    simp only [ProxyConn.after]
    split_ifs
    · exact ⟨rfl, same.queued⟩
    · exact same

theorem between_extends (between : call.Between conn) (quiet : ¬ call.Rearms conn)
    (cache : ConfigCache) (pc : ProxyConn) : Extends cache pc (pc.after p i conn call) := by
  have same := Extends.refl cache pc
  cases call with
  | enqueue target data =>
    simp only [ProxyConn.after]
    split_ifs
    · rcases offer_cases pc data with kept | ⟨room, appended⟩
      · rw [kept]
        exact same
      · rw [appended]
        exact extends_append cache pc room data
    · exact same
  | replay target nonce =>
    have other : ¬ target = conn := quiet
    rw [ProxyConn.after, if_neg other]
    exact same
  | park target nonce =>
    have other : ¬ target = conn := quiet
    rw [ProxyConn.after, if_neg other]
    exact same
  | read _ reader len offset =>
    rw [ProxyConn.after, if_neg between]
    exact same
  | disconnected left =>
    rw [ProxyConn.after, if_neg between]
    exact same
  | encodeReply => exact same
  | connected => exact same
  | _ =>
    simp only [ProxyConn.after]
    split_ifs <;> exact same

/-! The calls between two requests. -/

section
variable (documented : p.Documented)
include documented

/-- What each call does to the slot, a list of calls does, where it composes. -/
theorem slot_run {R : ProxyConn → ProxyConn → Prop} (refl : ∀ pc, R pc pc)
    (trans : ∀ {first second third}, R first second → R second third → R first third)
    (made : List (GattCall n)) (held : Held g i conn) (runs : (gattSystem n p).Runs g made)
    (each : ∀ call ∈ made, call.Spares conn ∧ ∀ pc, R pc (pc.after p i conn call)) :
    Held ((gattSystem n p).run g made) i conn ∧
      R (g.conns i) (((gattSystem n p).run g made).conns i) := by
  induction made generalizing g with
  | nil => exact ⟨held, refl _⟩
  | cons call made ih =>
    obtain ⟨spares, step⟩ := each call List.mem_cons_self
    have slot := call_slot documented held.distinct held.holds call
    obtain ⟨later, relates⟩ := ih (held.call documented call runs.1 spares) runs.2
      (fun call member => each call (List.mem_cons_of_mem _ member))
    have first : R (g.conns i) ((call.run p g).conns i) := by
      rw [slot]
      exact step (g.conns i)
    exact ⟨later, trans first relates⟩

theorem between_run {made : List (GattCall n)} (held : Held g i conn)
    (runs : (gattSystem n p).Runs g made) (between : ∀ call ∈ made, call.Between conn) :
    Held ((gattSystem n p).run g made) i conn ∧
      Undisturbed (g.conns i) (((gattSystem n p).run g made).conns i) :=
  slot_run documented Undisturbed.refl Undisturbed.trans made held runs
    (fun call member => ⟨(between call member).spares, between_undisturbed (between call member)⟩)

theorem quiet_run {made : List (GattCall n)} (held : Held g i conn)
    (runs : (gattSystem n p).Runs g made) (between : ∀ call ∈ made, call.Between conn)
    (quiet : ∀ call ∈ made, ¬ call.Rearms conn) (cache : ConfigCache) :
    Extends cache (g.conns i) (((gattSystem n p).run g made).conns i) :=
  (slot_run documented (Extends.refl cache) Extends.trans made held runs (fun call member =>
    ⟨(between call member).spares,
      between_extends (between call member) (quiet call member) cache⟩)).2

/-! The requests. -/

/-- A read at a later offset leaves the server as it was, and is answered from the
staged copy. -/
theorem later_request (held : Held g i conn) (staged : (g.conns i).stagedBytes = packet)
    (filled : packet ≠ []) (cache : ConfigCache) (len : Nat) {offset : Nat} (later : offset ≠ 0)
    (inside : offset ≤ packet.length) :
    fromradioRead p cache g conn len offset = (g, .ok ((packet.drop offset).take len)) := by
  have length : (g.conns i).stagedLen = packet.length := by
    rw [← staged, ProxyConn.stagedBytes, ByteBuffer.length_read]
  have copied : (g.conns i).stagedLen > 0 := by
    rw [length]
    exact List.length_pos_of_ne_nil filled
  have read : (g.conns i).staged.read 0 (g.conns i).stagedLen = packet := staged
  simp only [fromradioRead, held.found, if_neg later, Gatt.setConn_eq, if_pos copied, read,
    documented.attrRead_inside _ _ _ inside]

/-- A fresh read stages the next item and moves the mailbox past it. -/
theorem fresh_request (held : Held g i conn) (cache : ConfigCache) (len : Nat)
    (item : ((g.conns i).mailbox cache).read.1 = some packet) :
    let first := (fromradioRead p cache g conn len 0).1
    Held first i conn ∧ (first.conns i).stagedBytes = packet ∧
      (first.conns i).mailbox cache = ((g.conns i).mailbox cache).read.2 ∧
        (fromradioRead p cache g conn len 0).2 = .ok (packet.take len) := by
  have next := stage_next_mailbox cache (g.conns i)
  rw [item, Option.getD_some] at next
  have slot : (fromradioRead p cache g conn len 0).1.conns i = stageNext cache (g.conns i) := by
    simp only [fromradioRead, held.found, if_true, Gatt.conns_setConn_same]
  have still := held.call documented (.read cache conn len 0) trivial trivial
  refine ⟨still, ?_, ?_, ?_⟩
  · rw [slot]
    exact next.2
  · rw [slot]
    exact next.1
  · rw [fresh_answer documented held, next.2]

/-! The whole read. -/

/-- The calls the server makes before request `k` and behind the first one. -/
def madeBefore (between : Nat → List (GattCall n)) (k : Nat) : List (GattCall n) :=
  (List.range k).flatMap between

omit documented in
theorem made_before_add (between : Nat → List (GattCall n)) (k more : Nat) :
    ∃ rest, madeBefore between (k + more) = madeBefore between k ++ rest :=
  ⟨_, by rw [madeBefore, List.range_add, List.flatMap_append, madeBefore]⟩

omit documented in
theorem made_before_succ (between : Nat → List (GattCall n)) (k : Nat) :
    madeBefore between (k + 1) = madeBefore between k ++ between k := by
  rw [madeBefore, List.range_succ, List.flatMap_append, List.flatMap_singleton, madeBefore]

/-- The server at each request of the read that starts in `g`. -/
def longReadState (p : Platform) (conn : BtConn) (chunk : Nat) (caches : Nat → ConfigCache)
    (between : Nat → List (GattCall n)) (g : Gatt n) : Nat → Gatt n
  | 0 => g
  | k + 1 => (gattSystem n p).run (fromradioRead p (caches 0) g conn chunk 0).1
      (madeBefore between (k + 1))

theorem long_read_serves (held : Held g i conn) {chunk : Nat} (chunk_pos : 0 < chunk)
    (caches : Nat → ConfigCache) (item : ((g.conns i).mailbox (caches 0)).read.1 = some packet)
    (filled : packet ≠ []) (between : Nat → List (GattCall n))
    (runs : (gattSystem n p).Runs (fromradioRead p (caches 0) g conn chunk 0).1
      (madeBefore between (packet.length / chunk)))
    (spared : ∀ call ∈ madeBefore between (packet.length / chunk), call.Between conn) :
    (longRead p conn chunk caches between).Serves packet
      (longReadState p conn chunk caches between g) ∧
    ((longRead p conn chunk caches between).request
      (longReadState p conn chunk caches between g (packet.length / chunk))
      (packet.length / chunk * chunk)).1 =
        (gattSystem n p).run (fromradioRead p (caches 0) g conn chunk 0).1
          (madeBefore between (packet.length / chunk)) := by
  obtain ⟨still, staged, _, answer⟩ := fresh_request documented held (caches 0) chunk item
  -- every later request finds the slot as the first one left it
  have later (k : Nat) (inside : k + 1 ≤ packet.length / chunk) :
      fromradioRead p (caches ((k + 1) * chunk))
          (longReadState p conn chunk caches between g (k + 1)) conn chunk ((k + 1) * chunk) =
        (longReadState p conn chunk caches between g (k + 1),
          .ok ((packet.drop ((k + 1) * chunk)).take chunk)) := by
    obtain ⟨more, all⟩ := Nat.exists_eq_add_of_le inside
    obtain ⟨rest, split⟩ := made_before_add between (k + 1) more
    rw [all, split] at runs spared
    have kept := between_run documented still ((Machine.runs_append _ _).mp runs).1
      (fun call member => spared call (List.mem_append_left _ member))
    have offset : (k + 1) * chunk ≠ 0 := Nat.mul_ne_zero (Nat.succ_ne_zero k) (Nat.ne_of_gt chunk_pos)
    have bound : (k + 1) * chunk ≤ packet.length :=
      Nat.le_trans (Nat.mul_le_mul_right _ inside) (Nat.div_mul_le_self _ _)
    exact later_request documented kept.1 (kept.2.staged.trans staged) filled _ _ offset bound
  have first : (longRead p conn chunk caches between).request g (0 * chunk) =
      ((fromradioRead p (caches 0) g conn chunk 0).1, some (packet.take chunk)) := by
    rw [Nat.zero_mul]
    exact Prod.ext rfl (congrArg Except.toOption answer)
  constructor
  · refine ⟨chunk_pos, fun k inside => ?_, fun k before => ?_⟩
    · cases k with
      | zero =>
        have whole : packet = packet.drop (0 * chunk) := by rw [Nat.zero_mul, List.drop_zero]
        exact (congrArg Prod.snd first).trans (congrArg (fun rest => some (rest.take chunk)) whole)
      | succ k => exact congrArg (fun outcome => outcome.2.toOption) (later k inside)
    · cases k with
      | zero =>
        have made : madeBefore between (0 + 1) = between 0 := made_before_succ between 0
        calc longReadState p conn chunk caches between g (0 + 1)
            = (gattSystem n p).run (fromradioRead p (caches 0) g conn chunk 0).1 (between 0) :=
              congrArg ((gattSystem n p).run _) made
          _ = _ := congrArg (fun outcome => (gattSystem n p).run outcome.1 (between 0)) first.symm
      | succ k =>
        have same := congrArg Prod.fst (later k (Nat.le_of_lt before))
        rw [longReadState, made_before_succ, Machine.run_append]
        exact congrArg (fun g => (gattSystem n p).run g (between (k + 1))) same.symm
  · cases last : packet.length / chunk with
    | zero => exact congrArg Prod.fst first
    | succ k => exact congrArg Prod.fst (later k (Nat.le_of_eq last.symm))

/-- A long read of any chunk size, with the server's other calls between its
requests, returns the one packet its first request opened, and changes nothing
behind that request; the next fresh read is answered with the next item. -/
theorem long_read_one_packet (reached : (gattSystem n p).Reachable (.zero n) g)
    (tracked : findSlot g conn = some i) {chunk : Nat} (chunk_pos : 0 < chunk)
    (caches : Nat → ConfigCache) (item : ((g.conns i).mailbox (caches 0)).read.1 = some packet)
    (filled : packet ≠ []) (between : Nat → List (GattCall n))
    (runs : (gattSystem n p).Runs (fromradioRead p (caches 0) g conn chunk 0).1
      (madeBefore between (packet.length / chunk)))
    (spared : ∀ call ∈ madeBefore between (packet.length / chunk), call.Between conn) :
    let first := (fromradioRead p (caches 0) g conn chunk 0).1
    let made := madeBefore between (packet.length / chunk)
    let final := (gattSystem n p).run first made
    (∀ fuel > packet.length / chunk,
      (longRead p conn chunk caches between).collect fuel 0 g = some (packet, final)) ∧
    (first.conns i).mailbox (caches 0) = ((g.conns i).mailbox (caches 0)).read.2 ∧
    (∃ added, (final.conns i).queued = (first.conns i).queued ++ added) ∧
    ((∀ call ∈ made, ¬ call.Rearms conn) →
      ∀ cache, Extends cache (first.conns i) (final.conns i)) ∧
    ∀ cache len, (fromradioRead p cache final conn len 0).2 =
      .ok ((((final.conns i).mailbox cache).read.1.getD []).take len) := by
  intro first made final
  have held : Held g i conn := ⟨gatt_distinct documented reached, find_slot_some tracked⟩
  obtain ⟨still, _, moved, _⟩ := fresh_request documented held (caches 0) chunk item
  obtain ⟨serves, settled⟩ :=
    long_read_serves documented held chunk_pos caches item filled between runs spared
  obtain ⟨last, undisturbed⟩ := between_run documented still runs spared
  refine ⟨fun fuel enough => ?_, moved, undisturbed.queued, ?_, ?_⟩
  · have collected := ChunkedRead.collect_value serves enough
    exact collected.trans (congrArg (fun g => some (packet, g)) settled)
  · exact fun quiet cache => quiet_run documented still runs spared quiet cache
  · intro cache len
    rw [fresh_answer documented last, (stage_next_mailbox cache (final.conns i)).2]

end

/-- One queued packet of two bytes. -/
def twoByteGatt : Gatt 1 :=
  (gattSystem 1 .wire).run (.zero 1) [.connected 7 false, .enqueue 7 [1, 2]]

/-- Another packet and a replay arrive behind the first request. -/
def twoByteBetween : Nat → List (GattCall 1)
  | 0 => [.enqueue 7 [3], .replay 7 9]
  | _ => []

/-- Read in chunks of one byte, which divide the packet. -/
theorem long_read_two_bytes :
    ((longRead .wire 7 1 (fun _ => .zero) twoByteBetween).collect 3 0 twoByteGatt).map Prod.fst =
      some [1, 2] := by
  have reached : (gattSystem 1 .wire).Reachable (.zero 1) twoByteGatt := ⟨_, by decide, rfl⟩
  have item : ((twoByteGatt.conns 0).mailbox .zero).read.1 = some [1, 2] := by decide
  have tracked : findSlot twoByteGatt 7 = some 0 := by decide
  have chunk_pos : 0 < 1 := by decide
  have read := long_read_one_packet wire_documented reached tracked chunk_pos (fun _ => .zero)
    item (by decide) twoByteBetween (by decide) (by decide)
  rw [read.1 3 (by decide)]
  rfl

end MeshPbx
