/-
# `RemoteFramebuffer.Handshake.Error` — why a handshake or a message is given up

Every cause is a constructor; the wording is in `ProtocolError.message` alone.
-/
import RemoteFramebuffer.Security.Handler
import RemoteFramebuffer.Text.Printable
import RemoteFramebuffer.Wire.Error

namespace RemoteFramebuffer

/-- A breach of the rules by which a security type is agreed on. -/
inductive SecurityFault
  | noHandlers
  | chosenType (code : UInt32)
  | noPassword
  | serverVersion (major minor : UInt8)
  | versionRejected
  | noPlain (offered : List UInt32)
  | clientVersion (major minor : UInt8)
  | clientSubType (code : UInt32)
deriving DecidableEq, Repr

def showNumbers (numbers : List Nat) : String :=
  "[" ++ ", ".intercalate (numbers.map toString) ++ "]"

def SecurityFault.message : SecurityFault → String
  | .noHandlers => "no security types configured"
  | .chosenType code => s!"server chose security type {code}"
  | .noPassword => "VNC authentication requested but no password is configured"
  | .serverVersion major minor => s!"unsupported VeNCrypt version {major}.{minor}"
  | .versionRejected => "server rejected VeNCrypt version 0.2"
  | .noPlain offered =>
    s!"server offers no VeNCrypt Plain sub-type: {showNumbers (offered.map UInt32.toNat)}"
  | .clientVersion major minor => s!"client asked for VeNCrypt version {major}.{minor}"
  | .clientSubType code => s!"client chose VeNCrypt sub-type {code}"

inductive AuthFailure
  | byServer (reason : String)
  | byResult (code : UInt32)
  | ofClient (handler : SecurityHandler)
deriving DecidableEq, Repr

def AuthFailure.message : AuthFailure → String
  | .byServer reason => reason
  | .byResult code => s!"security result {code}"
  | .ofClient handler => s!"client failed {handler.label} authentication"

inductive ProtocolError
  | io (cause : WireError)
  | unsupportedVersion (raw : Bytes)
  | unsupportedSecurityType (code : UInt8)
  | noCommonSecurityType (offered : List UInt8)
  | refused (reason : String)
  | authFailed (cause : AuthFailure)
  | security (cause : SecurityFault)
  | unsupportedMessage (code : UInt8)
deriving DecidableEq, Repr

namespace ProtocolError

def message : ProtocolError → String
  | .io cause => "I/O error: " ++ cause.message
  | .unsupportedVersion raw => "unsupported protocol version " ++ Text.quoted (Text.decode raw)
  | .unsupportedSecurityType code => s!"unsupported security type {code}"
  | .noCommonSecurityType offered =>
    s!"unsupported security type: none of {showNumbers (offered.map UInt8.toNat)} is configured"
  | .refused reason => "connection refused by server: " ++ reason
  | .authFailed cause => "authentication failed: " ++ cause.message
  | .security cause => "security negotiation failed: " ++ cause.message
  | .unsupportedMessage code => s!"unsupported message type {code}"

def isTransport : ProtocolError → Bool
  | .io _ => true
  | _ => false

end ProtocolError

end RemoteFramebuffer
