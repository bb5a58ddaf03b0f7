/-
# `RemoteFramebuffer.Wire.Error` — why bytes cannot be read or written

A read fails when the stream ends too early or when what it holds breaks a limit;
a write fails when nobody is left to read.  `WireError.kind` sorts the causes and
`WireError.message` words them.
-/
import RemoteFramebuffer.Pixel.Format

namespace RemoteFramebuffer

inductive WireError
  | endOfStream (expected got : Nat)
  | brokenPipe
  | lengthLimit (length limit : Nat)
  | fencePayload (length : Nat)
  | pixelFormat (cause : PixelFormat.Invalid)
deriving DecidableEq, Repr

namespace WireError

inductive Kind
  | unexpectedEof
  | brokenPipe
  | invalidData
deriving DecidableEq, Repr

def kind : WireError → Kind
  | .endOfStream _ _ => .unexpectedEof
  | .brokenPipe => .brokenPipe
  | _ => .invalidData

def message : WireError → String
  | .endOfStream expected got => s!"expected {expected} bytes, got {got}"
  | .brokenPipe => "broken pipe"
  | .lengthLimit length limit => s!"length {length} exceeds limit of {limit} bytes"
  | .fencePayload length => s!"fence payload of {length} bytes exceeds 64"
  | .pixelFormat cause => cause.message

end WireError

end RemoteFramebuffer
