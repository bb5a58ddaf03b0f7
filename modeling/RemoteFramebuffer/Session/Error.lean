/-
# `RemoteFramebuffer.Session.Error` — why a session ends

A failed stream is worth another try; a breach of the protocol is not.  A peer that
simply went away is told apart from one that did something wrong.
-/
import RemoteFramebuffer.Encoding.Error
import RemoteFramebuffer.Handshake.Error

namespace RemoteFramebuffer

inductive ConfigFault
  | emptyHost
  | zeroPort
  | network (name : String)
  | zeroTimeout
  | noSecurity
  | noEncoding
  | zeroQueue
  | desktopFormat (cause : PixelFormat.Invalid)
  | forcedFormat (cause : PixelFormat.Invalid)
deriving DecidableEq, Repr

def ConfigFault.message : ConfigFault → String
  | .emptyHost => "Host cannot be empty"
  | .zeroPort => "Port cannot be 0"
  | .network name => "Unsupported network " ++ Text.quoted name
  | .zeroTimeout => "Timeout cannot be 0"
  | .noSecurity => "At least one security type must be configured"
  | .noEncoding => "At least one encoding must be specified"
  | .zeroQueue => "Queue capacity cannot be 0"
  | .desktopFormat cause => "Desktop pixel format: " ++ cause.message
  | .forcedFormat cause => "Forced pixel format: " ++ cause.message

/-- What is wrong with a recording; frames are counted from 1. -/
inductive RecordingFault
  | magic (found : Bytes)
  | frameType (number : Nat) (code : UInt8)
  | frame (number : Nat) (cause : DecodeError)
  | delay (number : Nat) (cause : WireError)
deriving DecidableEq, Repr

def RecordingFault.message : RecordingFault → String
  | .magic found => s!"not an RBS file (magic {Text.quoted (Text.decode found)})"
  | .frameType number code => s!"frame {number} has message type {code}"
  | .frame number cause => s!"frame {number}: {cause.message}"
  | .delay number cause => s!"frame {number} delay: {cause.message}"

inductive SessionError
  | transport (cause : WireError)
  | protocol (cause : ProtocolError)
  | unsupportedEncoding (value : Int32)
  | encoding (cause : DecodeError)
  | config (cause : ConfigFault)
  | recording (cause : RecordingFault)
  | connectionClosed
deriving DecidableEq, Repr

namespace SessionError

/-- Sorts a failure to read or draw an update: the stream failed, the encoding is not
accepted, or the data is corrupt. -/
def ofDecode (e : DecodeError) : SessionError :=
  match e.cause with
  | .unsupported value => .unsupportedEncoding value
  | .wire cause => .transport cause
  | _ => .encoding e

def message : SessionError → String
  | .transport cause => "Transport error: " ++ cause.message
  | .protocol cause => "Protocol error: " ++ cause.message
  | .unsupportedEncoding value => s!"Unsupported encoding: {value}"
  | .encoding cause => "Encoding error: " ++ cause.message
  | .config cause => "Configuration error: " ++ cause.message
  | .recording cause => "Recording error: " ++ cause.message
  | .connectionClosed => "Connection closed"

def isRetryable : SessionError → Bool
  | .transport _ => true
  | .protocol cause => cause.isTransport
  | _ => false

def isFatal (e : SessionError) : Bool := !e.isRetryable

def isDisconnect : SessionError → Bool
  | .transport cause | .protocol (.io cause) => cause.kind != .invalidData
  | .connectionClosed => true
  | _ => false

end SessionError

end RemoteFramebuffer
