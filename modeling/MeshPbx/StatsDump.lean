import MeshPbx.PbxStats
import Mathlib.Data.List.Induction

/-! The dump, from the sizes of its entries to what the host reads in it. Every
entry is at most as long as the longest key and the widest number allow, so the
line never fills, and no key or number holds a separator, so the line splits back
into its entries. -/
namespace MeshPbx

open CText

/-! The counters. -/

/-- A call from anywhere in the firmware. -/
inductive StatCall where
  | inc (stat : UInt32)
  | add (stat delta : UInt32)
  deriving DecidableEq, Repr

def StatCall.apply (counters : PbxCounters) : StatCall → PbxCounters
  | .inc stat => pbxStatsInc counters stat
  | .add stat delta => pbxStatsAdd counters stat delta

/-- What a call adds to one counter. -/
def StatCall.amount (i : Nat) : StatCall → Nat
  | .inc stat => if stat.toNat = i then 1 else 0
  | .add stat delta => if stat.toNat = i then delta.toNat else 0

theorem counter_step (counters : PbxCounters) (call : StatCall) {i : Nat}
    (inside : i < PBX_STAT_COUNT) :
    (call.apply counters i).toNat = ((counters i).toNat + call.amount i) % 2 ^ 32 := by
  have kept : ((counters i).toNat + 0) % 2 ^ 32 = (counters i).toNat :=
    Nat.mod_eq_of_lt (counters i).toNat_lt
  cases call with
  | inc stat =>
    by_cases same : stat.toNat = i
    · subst same
      simp only [StatCall.apply, pbxStatsInc, if_pos inside, Function.update_self,
        StatCall.amount, if_true, UInt32.toNat_add]
      rfl
    · simp only [StatCall.apply, pbxStatsInc, StatCall.amount, if_neg same, kept]
      split_ifs
      · rw [Function.update_of_ne (Ne.symm same)]
      · rfl
  | add stat delta =>
    by_cases same : stat.toNat = i
    · subst same
      simp only [StatCall.apply, pbxStatsAdd, if_pos inside, Function.update_self,
        StatCall.amount, if_true, UInt32.toNat_add]
    · simp only [StatCall.apply, pbxStatsAdd, StatCall.amount, if_neg same, kept]
      split_ifs
      · rw [Function.update_of_ne (Ne.symm same)]
      · rfl

/-- A counter holds all that was added to it since boot, modulo its 32 bits. -/
theorem counter_total (calls : List StatCall) {i : Nat} (inside : i < PBX_STAT_COUNT) :
    ((calls.foldl StatCall.apply fun _ => 0) i).toNat =
      (calls.map (StatCall.amount i)).sum % 2 ^ 32 := by
  induction calls using List.reverseRecOn with
  | nil => rfl
  | append_singleton calls call ih =>
    rw [List.foldl_append, List.foldl_cons, List.foldl_nil, counter_step _ _ inside, ih,
      List.map_append, List.sum_append, List.map_singleton, List.sum_singleton, Nat.mod_add_mod]

/-! The entries. -/

/-- What one turn formats. -/
def statEntry (now : Nat → PbxCounters) (i : Nat) : Bytes :=
  ascii " " ++ sKeys i ++ ascii "=" ++ decimal (now i i).toNat

/-- What the first turns have formatted. -/
def statText (now : Nat → PbxCounters) (turns : Nat) : Bytes :=
  ((List.range turns).map (statEntry now)).flatten

theorem s_keys_of_stat (stat : PbxStat) : sKeys stat.value = ascii stat.key := by
  cases stat <;> rfl

/-- Every entry of `s_keys` is one of the enumerators' keys, or not there. -/
theorem s_keys_cases (i : Nat) : sKeys i = [] ∨ ∃ stat : PbxStat, sKeys i = ascii stat.key := by
  rw [sKeys]
  cases PbxStat.all[i]? with
  | none => exact Or.inl rfl
  | some stat => exact Or.inr ⟨stat, rfl⟩

theorem length_key (stat : PbxStat) : (ascii stat.key).length ≤ 12 := by
  cases stat <;> decide

/-- Keys hold neither a control character nor a separator. -/
theorem key_clean (stat : PbxStat) : ∀ byte ∈ ascii stat.key, 32 < byte.toNat ∧ byte ≠ 61 := by
  have clean : (ascii stat.key).all (fun byte => 32 < byte.toNat ∧ byte ≠ 61) = true := by
    cases stat <;> decide
  simpa only [List.all_eq_true, decide_eq_true_eq] using clean

theorem s_keys_clean (i : Nat) : ∀ byte ∈ sKeys i, 32 < byte.toNat ∧ byte ≠ 61 := by
  rcases s_keys_cases i with none | ⟨stat, same⟩
  · rw [none]
    exact fun _ member => absurd member List.not_mem_nil
  · rw [same]
    exact key_clean stat

theorem digit_clean {byte : UInt8} (digit : isDigit byte) : 32 < byte.toNat ∧ byte ≠ 61 := by
  simp only [isDigit, Bool.and_eq_true, decide_eq_true_eq] at digit
  refine ⟨by omega, ?_⟩
  rintro rfl
  exact absurd digit.2 (by decide)

theorem length_counter (value : UInt32) : (decimal value.toNat).length ≤ 10 :=
  (length_decimal_le_iff (by decide)).mpr (Nat.lt_trans value.toNat_lt (by decide))

/-- A space, a key, an equals sign and at most ten digits. -/
theorem length_stat_entry (now : Nat → PbxCounters) (i : Nat) : (statEntry now i).length ≤ 24 := by
  have key : (sKeys i).length ≤ 12 := by
    rcases s_keys_cases i with none | ⟨stat, same⟩
    · rw [none]
      exact Nat.zero_le _
    · rw [same]
      exact length_key stat
  have digits := length_counter (now i i)
  have space : (ascii " ").length = 1 := by decide
  have equals : (ascii "=").length = 1 := by decide
  rw [statEntry, List.length_append, List.length_append, List.length_append, space, equals]
  omega

theorem stat_text_succ (now : Nat → PbxCounters) (turns : Nat) :
    statText now (turns + 1) = statText now turns ++ statEntry now turns := by
  simp only [statText, List.range_succ, List.map_append, List.map_singleton, List.flatten_append,
    List.flatten_singleton]

/-- The size argument: what all turns format leaves room in the line. -/
theorem length_stat_text (now : Nat → PbxCounters) (turns : Nat) :
    (statText now turns).length ≤ 24 * turns := by
  induction turns with
  | zero => exact Nat.le_refl 0
  | succ turns ih =>
    have entry := length_stat_entry now turns
    rw [stat_text_succ, List.length_append]
    omega

theorem stat_text_printable (now : Nat → PbxCounters) (turns : Nat) :
    ∀ byte ∈ statText now turns, 32 ≤ byte.toNat := by
  have literal : ∀ byte ∈ ascii " " ++ ascii "=", 32 ≤ byte.toNat := by
    have visible : (ascii " " ++ ascii "=").all (fun byte => 32 ≤ byte.toNat) = true := by decide
    simpa only [List.all_eq_true, decide_eq_true_eq] using visible
  intro byte member
  obtain ⟨entry, listed, inside⟩ := List.mem_flatten.mp member
  obtain ⟨i, _, rfl⟩ := List.mem_map.mp listed
  simp only [statEntry, List.mem_append] at inside
  rcases inside with ((space | key) | equals) | digit
  · exact literal byte (List.mem_append_left _ space)
  · exact Nat.le_of_lt (s_keys_clean i byte key).1
  · exact literal byte (List.mem_append_right _ equals)
  · exact Nat.le_of_lt (digit_clean (is_digit_decimal digit)).1

theorem not_mem_stat_text {byte : UInt8} (control : byte.toNat < 32) (now : Nat → PbxCounters)
    (turns : Nat) : byte ∉ statText now turns :=
  fun member => Nat.not_le_of_lt control (stat_text_printable now turns byte member)

/-! The loop. -/

/-- After any number of turns the line holds what they formatted, with room left. -/
theorem dump_turns (now : Nat → PbxCounters) (line : ByteBuffer) {turns : Nat}
    (bound : turns ≤ PBX_STAT_COUNT) : ∃ written,
      pbxStatsDumpTurns now line turns = .ok (written, (statText now turns).length) ∧
      written.read 0 (statText now turns).length = statText now turns ∧
      (0 < turns → written.read 0 ((statText now turns).length + 1) = statText now turns ++ [0]) := by
  induction turns with
  | zero => exact ⟨line, rfl, rfl, fun some => absurd some (Nat.lt_irrefl 0)⟩
  | succ turns ih =>
    obtain ⟨written, ran, held, _⟩ := ih (Nat.le_of_succ_le bound)
    have before := length_stat_text now turns
    have entry := length_stat_entry now turns
    have limit : turns < 19 := bound
    have fits : (statEntry now turns).length < STATS_LINE_SIZE - (statText now turns).length := by
      rw [STATS_LINE_SIZE]
      omega
    have ended := snprintf_extends held fits
    rw [← stat_text_succ] at ended
    have length : (statText now turns).length + (statEntry now turns).length =
        (statText now (turns + 1)).length := by
      rw [stat_text_succ, List.length_append]
    refine ⟨_, ?_, ?_, fun _ => ended⟩
    · have ready : pbxStatsDumpTurn (now turns) turns (written, (statText now turns).length) = .ok
          ((snprintf written (statText now turns).length
            (STATS_LINE_SIZE - (statText now turns).length) (statEntry now turns)).1,
              (statText now (turns + 1)).length) := by
        rw [pbxStatsDumpTurn, ← length]
        exact if_neg (Nat.not_le_of_lt fits)
      rw [pbxStatsDumpTurns, ran]
      exact ready
    · rw [ByteBuffer.read_add] at ended
      exact (List.append_inj ended (ByteBuffer.length_read ..)).1

/-- The dump is the prefix of the format and everything the turns have formatted. -/
theorem stats_dump_eq (now : Nat → PbxCounters) (line : ByteBuffer) :
    pbxStatsDump now line = .ok (ascii "EVT stats v=1" ++ statText now PBX_STAT_COUNT) := by
  obtain ⟨written, ran, _, ended⟩ := dump_turns now line (Nat.le_refl PBX_STAT_COUNT)
  have room : (statText now PBX_STAT_COUNT).length < STATS_LINE_SIZE :=
    Nat.lt_of_le_of_lt (length_stat_text now PBX_STAT_COUNT) (by decide)
  have held := c_string_eq (not_mem_stat_text (by decide) now PBX_STAT_COUNT) room
    (ended (by decide))
  rw [pbxStatsDump, ran]
  exact congrArg (fun text => Except.ok (ascii "EVT stats v=1" ++ text)) held

/-! The host. -/

/-- An entry split at its equals sign, with the number read. -/
def readEntry : List Bytes → Option (Bytes × Nat)
  | [key, value] => (readDecimal value).map (key, ·)
  | _ => none

/-- A line split at spaces and equals signs: its entries, if it is a stats line of
this version. -/
def readStats (line : Bytes) : Option (List (Bytes × Nat)) :=
  match (line.splitOn 32).map (·.splitOn 61) with
  | [event] :: [kind] :: [v, version] :: entries =>
    if event = ascii "EVT" ∧ kind = ascii "stats" ∧ v = ascii "v" ∧ version = ascii "1" then
      entries.mapM readEntry
    else none
  | _ => none

/-- An entry without its space. -/
def statWord (now : Nat → PbxCounters) (i : Nat) : Bytes :=
  sKeys i ++ 61 :: decimal (now i i).toNat

theorem stat_entry_eq (now : Nat → PbxCounters) (i : Nat) :
    statEntry now i = 32 :: statWord now i := by
  have space : ascii " " = [32] := by decide
  have equals : ascii "=" = [61] := by decide
  rw [statEntry, statWord, space, equals]
  simp only [List.append_assoc, List.cons_append, List.nil_append]

theorem split_stat_word (now : Nat → PbxCounters) (i : Nat) :
    (statWord now i).splitOn 61 = [sKeys i, decimal (now i i).toNat] := by
  have key : 61 ∉ sKeys i := fun member => (s_keys_clean i 61 member).2 rfl
  have digits : 61 ∉ decimal (now i i).toNat :=
    fun member => (digit_clean (is_digit_decimal member)).2 rfl
  rw [statWord, List.splitOn_append_cons_self_of_not_mem key, List.splitOn_eq_singleton digits]

theorem not_mem_stat_word (now : Nat → PbxCounters) (i : Nat) : 32 ∉ statWord now i := by
  intro member
  rw [statWord, List.mem_append, List.mem_cons] at member
  rcases member with key | equals | digit
  · exact absurd (s_keys_clean i 32 key).1 (by decide)
  · exact absurd equals (by decide)
  · exact absurd (digit_clean (is_digit_decimal digit)).1 (by decide)

theorem split_stats_line (now : Nat → PbxCounters) (turns : Nat) :
    (ascii "EVT stats v=1" ++ statText now turns).splitOn 32 =
      ascii "EVT" :: ascii "stats" :: ascii "v=1" :: (List.range turns).map (statWord now) := by
  have opening : ascii "EVT stats v=1" =
      ascii "EVT" ++ ([ascii "stats", ascii "v=1"].map (32 :: ·)).flatten := by decide
  have entries : statText now turns =
      (((List.range turns).map (statWord now)).map (32 :: ·)).flatten := by
    rw [statText, List.map_map]
    exact congrArg List.flatten (List.map_congr_left fun i _ => stat_entry_eq now i)
  rw [opening, entries, List.append_assoc, ← List.flatten_append, ← List.map_append]
  refine split_words (fun word member => ?_)
  have fixed : ∀ word ∈ [ascii "EVT", ascii "stats", ascii "v=1"], 32 ∉ word := by decide
  rw [← List.cons_append, List.mem_append] at member
  rcases member with opening | entry
  · exact fixed word opening
  · obtain ⟨i, _, rfl⟩ := List.mem_map.mp entry
    exact not_mem_stat_word now i

theorem read_entries (now : Nat → PbxCounters) (indices : List Nat) :
    ((indices.map (statWord now)).map (·.splitOn 61)).mapM readEntry =
      some (indices.map fun i => (sKeys i, (now i i).toNat)) := by
  induction indices with
  | nil => rfl
  | cons i indices ih =>
    have entry : readEntry ((statWord now i).splitOn 61) = some (sKeys i, (now i i).toNat) := by
      rw [split_stat_word, readEntry, read_decimal]
      rfl
    rw [List.map_cons, List.map_cons, List.mapM_cons, entry, ih]
    rfl

theorem read_stats_line (now : Nat → PbxCounters) (turns : Nat) :
    readStats (ascii "EVT stats v=1" ++ statText now turns) =
      some ((List.range turns).map fun i => (sKeys i, (now i i).toNat)) := by
  have event : (ascii "EVT").splitOn 61 = [ascii "EVT"] :=
    List.splitOn_eq_singleton (by decide)
  have kind : (ascii "stats").splitOn 61 = [ascii "stats"] :=
    List.splitOn_eq_singleton (by decide)
  have version : (ascii "v=1").splitOn 61 = [ascii "v", ascii "1"] := by
    have split : ascii "v=1" = ascii "v" ++ 61 :: ascii "1" := by decide
    have v : 61 ∉ ascii "v" := by decide
    rw [split, List.splitOn_append_cons_self_of_not_mem v, List.splitOn_eq_singleton (by decide)]
  rw [readStats, split_stats_line, List.map_cons, List.map_cons, List.map_cons, event, kind, version]
  dsimp only
  rw [if_pos ⟨rfl, rfl, rfl, rfl⟩, read_entries]

theorem stat_values : PbxStat.all.map PbxStat.value = List.range PBX_STAT_COUNT := by decide

/-- The turns of the loop, by the enumerators. -/
theorem stats_by_enum (now : Nat → PbxCounters) :
    ((List.range PBX_STAT_COUNT).map fun i => (sKeys i, (now i i).toNat)) =
      PbxStat.all.map fun stat => (ascii stat.key, (now stat.value stat.value).toNat) := by
  rw [← stat_values, List.map_map]
  refine List.map_congr_left (fun stat _ => ?_)
  rw [Function.comp_apply, s_keys_of_stat]

/-- Whatever the counters hold at the turn that reads each, and whatever the array
held before, no turn runs out of the line, and the host reads in the one line that
is logged every key once, in the order of the enumeration, with that value. A
counter in turn holds the total of all calls since boot. -/
theorem stats_dump_recoverable :
    (∀ (now : Nat → PbxCounters) (line : ByteBuffer),
      (∀ turns ≤ PBX_STAT_COUNT, ∃ written used,
        pbxStatsDumpTurns now line turns = .ok (written, used) ∧ used < STATS_LINE_SIZE) ∧
      ∃ text, pbxStatsDump now line = .ok text ∧ 10 ∉ text ∧
        readStats text = some
          (PbxStat.all.map fun stat => (ascii stat.key, (now stat.value stat.value).toNat))) ∧
    ((PbxStat.all.map fun stat => ascii stat.key).Nodup ∧
      PbxStat.all.map PbxStat.value = List.range PBX_STAT_COUNT ∧ ∀ stat, stat ∈ PbxStat.all) ∧
    ∀ (calls : List StatCall) (stat : PbxStat),
      ((calls.foldl StatCall.apply fun _ => 0) stat.value).toNat =
        (calls.map (StatCall.amount stat.value)).sum % 2 ^ 32 := by
  refine ⟨fun now line => ⟨fun turns bound => ?_, ?_⟩, ⟨by decide, stat_values, ?_⟩, ?_⟩
  · obtain ⟨written, ran, _⟩ := dump_turns now line bound
    refine ⟨written, _, ran, ?_⟩
    have length := length_stat_text now turns
    have limit : turns ≤ 19 := bound
    rw [STATS_LINE_SIZE]
    omega
  · refine ⟨_, stats_dump_eq now line, ?_, ?_⟩
    · have opening : 10 ∉ ascii "EVT stats v=1" := by decide
      exact fun member => (List.mem_append.mp member).elim opening
        (not_mem_stat_text (by decide) now PBX_STAT_COUNT)
    · rw [read_stats_line, stats_by_enum]
  · intro stat
    cases stat <;> decide
  · intro calls stat
    have inside : stat.value < PBX_STAT_COUNT := by cases stat <;> decide
    exact counter_total calls inside

end MeshPbx
