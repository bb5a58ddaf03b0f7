/-
# `RemoteFramebuffer.Encoding.Streams` — the zlib streams of a connection

Zlib and ZRLE rectangles have one stream each and Tight rectangles have four.  A stream
goes on from rectangle to rectangle, so that none can be inflated on its own.
-/
import RemoteFramebuffer.Encoding.Error
import RemoteFramebuffer.StreamDecoder

namespace RemoteFramebuffer

variable [StreamDecoder]

structure Streams where
  zlib : StreamDecoder.State
  zrle : StreamDecoder.State
  tight : Vector StreamDecoder.State 4

namespace Streams

def fresh : Streams :=
  ⟨StreamDecoder.fresh, StreamDecoder.fresh, Vector.replicate 4 StreamDecoder.fresh⟩

instance : Inhabited Streams := ⟨fresh⟩

/-- Inflates a payload, marking errors with the name of the stream. -/
def inflate (name : String) (stream : StreamDecoder.State) (payload : Bytes) :
    Except DecodeError Bytes × StreamDecoder.State :=
  match StreamDecoder.inflate stream payload with
  | (.ok out, stream) => (.ok out, stream)
  | (.error offset, stream) =>
    (.error ⟨[.stream name, .inflating payload.length offset], .corrupt⟩, stream)

def atLeast (expected : Nat) (out : Except DecodeError Bytes) : Except DecodeError Bytes := do
  let out ← out
  if out.length < expected then throw (DecodeError.of (.inflatedShort out.length expected))
  return out

def inflateZlib (s : Streams) (payload : Bytes) (expected : Nat) :
    Except DecodeError Bytes × Streams :=
  let (out, zlib) := inflate "Zlib stream" s.zlib payload
  (atLeast expected out, { s with zlib })

def inflateZrle (s : Streams) (payload : Bytes) : Except DecodeError Bytes × Streams :=
  let (out, zrle) := inflate "ZRLE stream" s.zrle payload
  (out, { s with zrle })

/-- Starts the Tight streams afresh whose bit is set. -/
def resetTight (s : Streams) (mask : Nat) : Streams :=
  { s with tight := s.tight.mapIdx fun i stream =>
      if mask.testBit i then StreamDecoder.fresh else stream }

def inflateTight (s : Streams) (index : Fin 4) (payload : Bytes) (expected : Nat) :
    Except DecodeError Bytes × Streams :=
  let (out, stream) := inflate s!"Tight stream {index}" s.tight[index] payload
  (atLeast expected out, { s with tight := s.tight.set index stream })

end Streams

end RemoteFramebuffer
