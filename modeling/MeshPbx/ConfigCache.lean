import MeshPbx.Platform
import Mathlib.Logic.Function.Basic

/-! Boot-populated store of the node's config burst: frames packed back to back
in one arena, an index entry per frame, and a publish flag. -/
namespace MeshPbx

def CONFIG_CACHE_ARENA_BYTES : Nat := 4096
def CONFIG_CACHE_MAX_FRAMES : Nat := 128
def MESH_NONCE_ONLY_CONFIG : UInt32 := 69420
def MESH_NONCE_ONLY_NODES : UInt32 := 69421

structure CacheFrameRef where
  offset : Nat := 0
  len : Nat := 0
  variant : FromRadioTag := .unset
  deriving DecidableEq, Repr

/-- The module's statics. `used` and `count` are 16-bit counters; an index of
-1 is `none`. -/
structure ConfigCache where
  arena : ByteBuffer
  index : Nat → CacheFrameRef
  used : Nat
  count : Nat
  ready : Bool
  queuestatusIdx : Option Nat
  ownNodeinfoIdx : Option Nat

def ConfigCache.zero : ConfigCache where
  arena := .zero
  index := fun _ => {}
  used := 0
  count := 0
  ready := false
  queuestatusIdx := none
  ownNodeinfoIdx := none

def cacheBegin (c : ConfigCache) : ConfigCache :=
  { c with ready := false, used := 0, count := 0, queuestatusIdx := none, ownNodeinfoIdx := none }

def cacheAddFrame (c : ConfigCache) (raw : Bytes) (variant : FromRadioTag) : ConfigCache × Rc :=
  if c.count ≥ CONFIG_CACHE_MAX_FRAMES then (c, some .enomem)
  else if c.used + raw.length > CONFIG_CACHE_ARENA_BYTES then (c, some .enomem)
  else
    ({ c with
        arena := c.arena.write c.used raw
        index := Function.update c.index c.count ⟨c.used, raw.length, variant⟩
        queuestatusIdx := if variant = .queueStatus then some c.count else c.queuestatusIdx
        ownNodeinfoIdx :=
          if variant = .nodeInfo ∧ c.ownNodeinfoIdx = none then some c.count else c.ownNodeinfoIdx
        used := (c.used + raw.length) % 2 ^ 16
        count := (c.count + 1) % 2 ^ 16 }, none)

def cacheMarkReady (c : ConfigCache) : ConfigCache :=
  { c with ready := true }

def cacheIsReady (c : ConfigCache) : Bool := c.ready

def cacheFrameAt (c : ConfigCache) (idx : Nat) : Option CacheFrameRef :=
  if idx ≥ c.count then none else some (c.index idx)

/-- The `ref.len` bytes at the pointer the source returns. -/
def cacheFrameBytes (c : ConfigCache) (ref : CacheFrameRef) : Bytes :=
  c.arena.read ref.offset ref.len

def cacheFrameCount (c : ConfigCache) : Nat := c.count

def cacheGetQueuestatus (c : ConfigCache) : Option Bytes :=
  c.queuestatusIdx.map fun idx => cacheFrameBytes c (c.index idx)

def cacheFrameInSegment (c : ConfigCache) (idx : Nat) (nonce : UInt32) : Bool :=
  if idx ≥ c.count then false
  else
    let variant := (c.index idx).variant
    if variant = .configCompleteId then false
    else
      let isNodeinfo := decide (variant = .nodeInfo)
      if nonce = MESH_NONCE_ONLY_NODES then isNodeinfo
      else if nonce = MESH_NONCE_ONLY_CONFIG then
        if isNodeinfo ∧ some idx ≠ c.ownNodeinfoIdx then false else true
      else true

end MeshPbx
