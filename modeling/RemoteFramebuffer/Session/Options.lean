/-
# `RemoteFramebuffer.Session.Options` — what is settled before a session starts

A `Target` says which server to reach and how.  `SessionOptions` says what a session
accepts and offers.  Both are checked before use; the first rule broken is reported.
-/
import RemoteFramebuffer.Encoding.Set
import RemoteFramebuffer.Handshake.Init
import RemoteFramebuffer.Session.Error

namespace RemoteFramebuffer

structure Target where
  network : String := "tcp"
  host : String := ""
  port : UInt16 := 5900
  password : Option String := none
  timeoutMs : UInt64 := 10000
deriving DecidableEq, Repr, Inhabited

namespace Target

def validate (t : Target) : Except SessionError Unit := do
  if t.host.isEmpty then throw (.config .emptyHost)
  if t.port = 0 then throw (.config .zeroPort)
  unless t.network ∈ ["tcp", "tcp4", "tcp6"] do throw (.config (.network t.network))
  if t.timeoutMs = 0 then throw (.config .zeroTimeout)

/-- Host and port; a host with a colon goes in brackets, unless it starts with one. -/
def address (t : Target) : String :=
  if t.host.contains ':' && !t.host.startsWith "[" then s!"[{t.host}]:{t.port}"
  else s!"{t.host}:{t.port}"

/-- Authentication by password first, if there is one, and none at all otherwise. -/
def securityHandlers (t : Target) : List SecurityHandler :=
  match t.password with
  | some password => [.vncAuth (Bytes.ofString password), .none]
  | none => [.none]

end Target

structure SessionOptions where
  /-- Security handlers, the preferred first. -/
  security : List SecurityHandler
  encodings : EncodingSet
  /-- Types of client messages that an acceptor reads. -/
  clientMessages : List UInt8
  /-- Types of server messages that an initiator reads. -/
  serverMessages : List UInt8
  /-- The desktop that an acceptor describes. -/
  desktop : Desktop
  /-- Whether an initiator wants the desktop for itself. -/
  exclusive : Bool
  /-- The pixel format that an initiator asks for at once. -/
  forcedFormat : Option PixelFormat
  /-- Whether an initiator expects an Aten board. -/
  aten : Bool
  /-- Messages that fit in the queue of a direction. -/
  queueCapacity : Nat
deriving DecidableEq

namespace SessionOptions

/-- The client messages that are read if nothing else is said. -/
def standardClientMessages : List UInt8 := [0, 2, 3, 4, 5, 6, 150, 248, 251]

/-- The server messages that are read if nothing else is said. -/
def standardServerMessages : List UInt8 := [0, 1, 2, 3, 150, 248]

def standard : SessionOptions :=
  { security := [.none]
    encodings := EncodingSet.standard
    clientMessages := standardClientMessages
    serverMessages := standardServerMessages
    desktop := Desktop.standard
    exclusive := false
    forcedFormat := none
    aten := false
    queueCapacity := 64 }

instance : Inhabited SessionOptions := ⟨standard⟩

def withExtendedKeys (o : SessionOptions) : SessionOptions :=
  if 255 ∈ o.clientMessages then o
  else { o with clientMessages := o.clientMessages ++ [255] }

def validate (o : SessionOptions) : Except SessionError Unit := do
  if o.security.isEmpty then throw (.config .noSecurity)
  if o.encodings.members.isEmpty then throw (.config .noEncoding)
  if o.queueCapacity = 0 then throw (.config .zeroQueue)
  o.desktop.format.validate.mapError fun cause => .config (.desktopFormat cause)
  match o.forcedFormat with
  | some format => format.validate.mapError fun cause => .config (.forcedFormat cause)
  | none => return ()

end SessionOptions

end RemoteFramebuffer
