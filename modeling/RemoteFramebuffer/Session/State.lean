/-
# `RemoteFramebuffer.Session.State` — what both ends of a session know of it

The handshake fills the state in; messages change it afterwards, at the side that sends
them and at the side that receives them alike.  Entries of the color map belong to the
pixel format that was current when they came.

`SessionOptions.connect` is the initiator's part of the handshake that opens a session
and `SessionOptions.accept` the acceptor's.  Each ends with the state that its session
starts in.
-/
import RemoteFramebuffer.Handshake.Init
import RemoteFramebuffer.Handshake.Security
import RemoteFramebuffer.Message
import RemoteFramebuffer.Session.Options

namespace RemoteFramebuffer

inductive Role
  | client
  | server
  | canvas
  | recorder
  | player
deriving DecidableEq, Repr

namespace Role

def label : Role → String
  | .client => "client"
  | .server => "server"
  | .canvas => "canvas"
  | .recorder => "recorder"
  | .player => "player"

/-- Whether rectangles are passed on as they came. -/
def isPassThrough : Role → Bool
  | .client | .server => true
  | _ => false

end Role

structure SessionState where
  role : Role
  version : Version
  security : SecurityHandler
  desktop : Desktop
  colors : ColorMap
  /-- The encodings that the session can read. -/
  encodings : EncodingSet
  /-- The encodings that the peer last asked for. -/
  peerEncodings : List Int32
deriving DecidableEq

namespace SessionState

/-- The state of a session with the standard desktop. -/
def make (role : Role) (version : Version) (security : SecurityHandler) (encodings : EncodingSet) :
    SessionState :=
  { role, version, security, encodings
    desktop := Desktop.standard
    colors := ColorMap.black
    peerEncodings := [] }

/-- Adopts a pixel format; the color map no longer means anything. -/
def setPixelFormat (s : SessionState) (format : PixelFormat) : SessionState :=
  { s with desktop.format := format, colors := ColorMap.black }

def setDesktop (s : SessionState) (desktop : Desktop) : SessionState :=
  { s with desktop, colors := ColorMap.black }

def setColors (s : SessionState) (first : UInt16) (colors : List Color) : SessionState :=
  { s with colors := s.colors.setEntries first.toNat colors }

def resize (s : SessionState) (width height : UInt16) : SessionState :=
  { s with desktop.width := width, desktop.height := height }

/-- Takes over the extent and the name that an update announces. -/
def afterUpdate (s : SessionState) (update : FramebufferUpdate) : SessionState :=
  let s := match update.desktopSize? with
    | some (width, height) => s.resize width height
    | none => s
  match update.desktopName? with
  | some name => { s with desktop.name := name }
  | none => s

/-- The state after a server message was sent or received. -/
def afterServer (s : SessionState) : ServerMessage → SessionState
  | .setColorMapEntries first colors => s.setColors first colors
  | .framebufferUpdate update => s.afterUpdate update
  | _ => s

/-- The state after a client message was sent. -/
def afterSending (s : SessionState) (m : ClientMessage) : SessionState :=
  match m.pixelFormatChange with
  | some format => s.setPixelFormat format
  | none => s

/-- The state after a client message was received. -/
def afterReceiving (s : SessionState) : ClientMessage → SessionState
  | .setPixelFormat format => s.setPixelFormat format
  | .setEncodings encodings => { s with peerEncodings := encodings }
  | _ => s

def afterSent (s : SessionState) : Message → SessionState
  | .client m => s.afterSending m
  | .server m => s.afterServer m

/-- The state after this side received a message. -/
def afterReceived (s : SessionState) : Message → SessionState
  | .client m => s.afterReceiving m
  | .server m => s.afterServer m

end SessionState

/-! ## Opening -/

namespace SessionOptions

variable [BlockCipher]

/-- The initiator's handshake; a forced format is asked for and adopted at its end. -/
def connect (o : SessionOptions) : Exchange SessionState := do
  let version ← Handshake.clientVersion
  let security ← Handshake.clientSecurity version o.security
  Handshake.clientInit (!o.exclusive)
  let desktop ← Handshake.clientServerInit o.aten
  let state := (SessionState.make .client version security o.encodings).setDesktop desktop
  match o.forcedFormat with
  | none => return state
  | some format =>
    let request := ClientMessage.setPixelFormat format
    Exchange.write request.encode
    return state.afterSending request

/-- The acceptor's handshake, describing a desktop; the initiator's wish to share it is void. -/
def accept (o : SessionOptions) (desktop : Desktop) : Exchange SessionState := do
  let version ← Handshake.serverVersion
  let security ← Handshake.serverSecurity version o.security
  let _shared ← Handshake.serverClientInit
  Handshake.serverInit desktop
  return (SessionState.make .server version security o.encodings).setDesktop desktop

end SessionOptions

end RemoteFramebuffer
