/-
# `RemoteFramebuffer.Session.Router` — passing messages between a viewer and a server

A router owns two sessions: the front faces the viewer and the back the server.
Messages pass in both directions as they came, with three exceptions: a request for
encodings is narrowed to those that the back can read, types on the block list of a
direction are dropped, and pixel formats and encodings are never blocked, since both
sessions must agree on them.

A proxy has a front, where it accepts viewers, and a back, which reaches its target;
`ProxyOptions` says what it needs for a viewer.
-/
import RemoteFramebuffer.Session

namespace RemoteFramebuffer

structure Filter where
  blockedClient : List UInt8
  blockedServer : List UInt8
deriving DecidableEq, Repr

namespace Filter

/-- What goes to the server in place of a message of the viewer. -/
def toServer (f : Filter) (readable : EncodingSet) : ClientMessage → Option ClientMessage
  | .setEncodings wanted => some (.setEncodings (readable.intersect wanted))
  | .setPixelFormat format => some (.setPixelFormat format)
  | m => if m.code ∈ f.blockedClient then none else some m

/-- What goes to the viewer in place of a message of the server. -/
def toViewer (f : Filter) (m : ServerMessage) : Option ServerMessage :=
  if m.code ∈ f.blockedServer then none else some m

/-- What leaves at the back for what came in at the front. -/
def backward (f : Filter) (readable : EncodingSet) : Message → Option Message
  | .client m => (f.toServer readable m).map .client
  | .server m => some (.server m)

/-- What leaves at the front for what came in at the back. -/
def forward (f : Filter) : Message → Option Message
  | .client m => some (.client m)
  | .server m => (f.toViewer m).map .server

end Filter

/-- What comes of an attempt to pass a message on. -/
inductive Relayed
  | moved (source target : Session)
  | blocked
  | ended

def relay (convert : Message → Option Message) (source target : Session) : Relayed :=
  if target.isSending then
    if target.isWriting then .blocked else .ended
  else match source.recv with
    | (.message m, source) =>
      match convert m with
      | none => .moved source target
      | some m =>
        match target.send m with
        | some target => .moved source target
        | none => .ended
    | (.empty, _) => .blocked
    | (.closed, _) => .ended

namespace Router

inductive Phase
  | relaying
  /-- Both sessions are closed, and their loops are coming to an end. -/
  | closing
  | finished (result : Except SessionError Unit)

end Router

structure Router where
  filter : Filter
  phase : Router.Phase

namespace Router

def start (filter : Filter) : Router := ⟨filter, .relaying⟩

structure Joint where
  router : Router
  front : Session
  back : Session

namespace Joint

def relayBackward (j : Joint) : Relayed :=
  relay (j.router.filter.backward j.back.state.encodings) j.front j.back

def relayForward (j : Joint) : Relayed := relay j.router.filter.forward j.back j.front

def stop (j : Joint) : Joint :=
  { router := { j.router with phase := .closing }
    front := j.front.cancelSend.close
    back := j.back.cancelSend.close }

/-- The viewer's error counts before the server's. -/
def result (j : Joint) : Except SessionError Unit :=
  match j.front.errors ++ j.back.errors with
  | e :: _ => .error e
  | [] => .ok ()

def step (j : Joint) : Option Joint :=
  match j.router.phase with
  | .relaying =>
    if j.front.isClosed || j.back.isClosed then some j.stop
    else match j.relayBackward with
      | .moved front back => some { j with front, back }
      | .ended => some j.stop
      | .blocked =>
        match j.relayForward with
        | .moved back front => some { j with front, back }
        | .ended => some j.stop
        | .blocked => none
  | .closing =>
    if j.front.hasStopped && j.back.hasStopped then
      some { router := { j.router with phase := .finished j.result }
             front := j.front.release
             back := j.back.release }
    else none
  | .finished _ => none

end Joint
end Router

/-! ## Proxies -/

structure ProxyOptions where
  target : Target
  front : SessionOptions
  back : SessionOptions
  filter : Filter

namespace ProxyOptions

/-- Anybody may view, everything passes, and the server is made to send plain 32-bit pixels. -/
def standard (target : Target) : ProxyOptions :=
  { target
    front := SessionOptions.standard
    back :=
      { SessionOptions.standard with
        security := target.securityHandlers
        forcedFormat := some PixelFormat.rgb888 }
    filter := ⟨[], []⟩ }

def validate (o : ProxyOptions) : Except SessionError Unit := do
  o.target.validate
  o.front.validate
  o.back.validate

end ProxyOptions

end RemoteFramebuffer
