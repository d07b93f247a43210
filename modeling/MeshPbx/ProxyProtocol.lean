import MeshPbx.Lib.CText

/-! The application-layer header inside PROXY_PORTNUM payloads. -/
namespace MeshPbx

open CText

def PROXY_PORTNUM : UInt32 := 256
def PROXY_PRACTICAL_MAX : Nat := 200
def PROXY_VERSION : UInt8 := 0x01
def PROXY_ID_SIZE : Nat := 4
def PROXY_HEADER_SIZE : Nat := 1 + 2 * PROXY_ID_SIZE
def PROXY_CONTENT_MAX : Nat := PROXY_PRACTICAL_MAX - PROXY_HEADER_SIZE
def PROXY_OFF_VERSION : Nat := 0
def PROXY_OFF_SRC : Nat := 1
def PROXY_OFF_DST : Nat := PROXY_OFF_SRC + PROXY_ID_SIZE
def PROXY_OFF_CONTENT : Nat := PROXY_HEADER_SIZE

/-- `proxy_id_t`: the four identifier bytes. -/
abbrev ProxyId := Vector UInt8 4

def ProxyId.zero : ProxyId := #v[0, 0, 0, 0]

/-- memcpy of PROXY_ID_SIZE bytes out of a payload long enough to hold them. -/
def ProxyId.ofBytes (bytes : Bytes) (offset : Nat) : ProxyId :=
  Vector.ofFn fun i => (bytes[offset + i.val]?).getD 0

def proxyIdValue (bytes : ProxyId) : UInt32 :=
  bytes[3].toUInt32 ||| (bytes[2].toUInt32 <<< 8) ||| (bytes[1].toUInt32 <<< 16) |||
    (bytes[0].toUInt32 <<< 24)

structure ProxyHeader where
  src : ProxyId
  dst : ProxyId
  content : Bytes
  deriving DecidableEq, Repr

def proxyHeaderParse (payload : Bytes) : Option ProxyHeader :=
  if payload.length < PROXY_HEADER_SIZE then none
  else if payload[PROXY_OFF_VERSION]? ≠ some PROXY_VERSION then none
  else some
    { src := .ofBytes payload PROXY_OFF_SRC
      dst := .ofBytes payload PROXY_OFF_DST
      content := payload.drop PROXY_OFF_CONTENT }

/-- Bytes written, and the buffer. A null `content` is `none`. -/
def proxyHeaderBuild (src dst : ProxyId) (content : Option Bytes) (contentLen : UInt16)
    (dstBuf : ByteBuffer) (dstBufSize : UInt16) : UInt16 × ByteBuffer :=
  if contentLen.toNat > PROXY_CONTENT_MAX then (0, dstBuf)
  else
    let total := UInt16.ofNat (PROXY_HEADER_SIZE + contentLen.toNat)
    if total > dstBufSize then (0, dstBuf)
    else
      let dstBuf := dstBuf.write PROXY_OFF_VERSION [PROXY_VERSION]
      let dstBuf := dstBuf.write PROXY_OFF_SRC src.toList
      let dstBuf := dstBuf.write PROXY_OFF_DST dst.toList
      match content with
      | some content =>
        if contentLen > 0 then
          (total, dstBuf.write PROXY_OFF_CONTENT (content.take contentLen.toNat))
        else (total, dstBuf)
      | none => (total, dstBuf)

def proxyIdEqual (a b : ProxyId) : Bool := a = b

def proxyIdIsZero (id : ProxyId) : Bool := id.toList.all (· = 0)

/-- Rendering of an identifier; a null pointer is `none`, a null `out` has size 0. -/
def proxyIdToStr (id : Option ProxyId) (out : ByteBuffer) (outSize : Nat) : ByteBuffer :=
  if outSize = 0 then out
  else
    match id with
    | none => (snprintf out 0 outSize (ascii "(null)")).1
    | some id => (snprintf out 0 outSize (decimal (proxyIdValue id).toNat)).1

/-- Rendering of a header. `src` and `dst` are the two local arrays of PROXY_ID_SIZE
bytes, with whatever the stack holds there at entry. -/
def proxyHeaderToStr (hdr : Option ProxyHeader) (src dst : ByteBuffer) (out : ByteBuffer)
    (outSize : Nat) : ByteBuffer :=
  if outSize = 0 then out
  else
    match hdr with
    | none => (snprintf out 0 outSize (ascii "(null)")).1
    | some hdr =>
      let src := proxyIdToStr (some hdr.src) src PROXY_ID_SIZE
      let dst := proxyIdToStr (some hdr.dst) dst PROXY_ID_SIZE
      (snprintf out 0 outSize
        (ascii "[v" ++ hex02 PROXY_VERSION.toNat ++ ascii "][src=" ++ cString src PROXY_ID_SIZE ++
          ascii "][dst=" ++ cString dst PROXY_ID_SIZE ++ ascii "][content=" ++
          decimal hdr.content.length ++ ascii " B]")).1

end MeshPbx
