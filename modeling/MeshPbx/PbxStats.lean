import MeshPbx.Lib.CText
import Mathlib.Logic.Function.Basic

/-! Cumulative counters, and the one log line that carries all of them. -/
namespace MeshPbx

open CText

/-- `enum pbx_stat`, in the order of its declaration. -/
inductive PbxStat where
  | txFwd | txDropTxq | txDropErr | txDecodeFail
  | rxFrames | rxOverrunB | rxResync | rxDecodeFail
  | routed | broadcast | bcastFallback | phoneQDrop
  | bleConnect | bleDisconnect | bleReject | nodeReg
  | nodeReboot | sessionRefetch | keepaliveFail
  deriving DecidableEq, Repr

def PbxStat.all : List PbxStat :=
  [.txFwd, .txDropTxq, .txDropErr, .txDecodeFail,
    .rxFrames, .rxOverrunB, .rxResync, .rxDecodeFail,
    .routed, .broadcast, .bcastFallback, .phoneQDrop,
    .bleConnect, .bleDisconnect, .bleReject, .nodeReg,
    .nodeReboot, .sessionRefetch, .keepaliveFail]

/-- The enumerator as an array index. -/
def PbxStat.value (stat : PbxStat) : Nat := stat.ctorIdx

def PBX_STAT_COUNT : Nat := 19

/-- The designated entries of `s_keys`. -/
def PbxStat.key : PbxStat → String
  | .txFwd => "tx_fwd"
  | .txDropTxq => "tx_drop_txq"
  | .txDropErr => "tx_drop_err"
  | .txDecodeFail => "tx_dec_fail"
  | .rxFrames => "rx_frames"
  | .rxOverrunB => "rx_ovr_b"
  | .rxResync => "rx_resync"
  | .rxDecodeFail => "rx_dec_fail"
  | .routed => "routed"
  | .broadcast => "bcast"
  | .bcastFallback => "bcast_fb"
  | .phoneQDrop => "phone_q_drop"
  | .bleConnect => "ble_conn"
  | .bleDisconnect => "ble_disc"
  | .bleReject => "ble_reject"
  | .nodeReg => "node_reg"
  | .nodeReboot => "node_reboot"
  | .sessionRefetch => "sess_refetch"
  | .keepaliveFail => "ka_fail"

def sKeys (i : Nat) : Bytes := (PbxStat.all[i]?).elim [] fun stat => ascii stat.key

/-- `s_counters`. -/
abbrev PbxCounters := Nat → UInt32

/-- `stat` is the argument after its cast to unsigned. -/
def pbxStatsInc (counters : PbxCounters) (stat : UInt32) : PbxCounters :=
  if stat.toNat < PBX_STAT_COUNT then
    Function.update counters stat.toNat (counters stat.toNat + 1)
  else counters

def pbxStatsAdd (counters : PbxCounters) (stat delta : UInt32) : PbxCounters :=
  if stat.toNat < PBX_STAT_COUNT then
    Function.update counters stat.toNat (counters stat.toNat + delta)
  else counters

/-- `sizeof(line)`. -/
def STATS_LINE_SIZE : Nat := 512

/-- One turn of the loop of `pbx_stats_dump`, on the line and the bytes used of it;
the error is the turn at which the line is found too short. -/
def pbxStatsDumpTurn (counters : PbxCounters) (i : Nat) (state : ByteBuffer × Nat) :
    Except Nat (ByteBuffer × Nat) :=
  let (line, used) := state
  let (line, n) := snprintf line used (STATS_LINE_SIZE - used)
    (ascii " " ++ sKeys i ++ ascii "=" ++ decimal (counters i).toNat)
  if n ≥ STATS_LINE_SIZE - used then .error i else .ok (line, used + n)

/-- The first turns of the loop. Interrupts may count on between two of them, so
each turn reads the counters as they are `now`. -/
def pbxStatsDumpTurns (now : Nat → PbxCounters) (line : ByteBuffer) :
    Nat → Except Nat (ByteBuffer × Nat)
  | 0 => .ok (line, 0)
  | i + 1 => do
    let state ← pbxStatsDumpTurns now line i
    pbxStatsDumpTurn (now i) i state

/-- What `pbx_stats_dump` logs: the whole line, or the turn at which it gave up.
`line` is what the array on the stack holds at entry. -/
def pbxStatsDump (now : Nat → PbxCounters) (line : ByteBuffer) : Except Nat Bytes := do
  let (line, _) ← pbxStatsDumpTurns now line PBX_STAT_COUNT
  .ok (ascii "EVT stats v=1" ++ cString line STATS_LINE_SIZE)

end MeshPbx
