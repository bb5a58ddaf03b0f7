/-
# `RemoteFramebuffer.Session` — a connection once its handshake is over

Two loops share a session.  The reading loop takes messages from the stream and offers
them to the inbound queue; the writing loop takes messages from the outgoing queue and
puts them on the stream.  The owner stands at the other ends of the queues.  Each
function here is one indivisible move of a loop or of the owner, and is `none` where the
loop has to wait, so a run is any sequence of moves.

The first error of a loop closes the session, which ends both loops; the owner may
close it as well.  When both loops have ended the stream is let go.
-/
import RemoteFramebuffer.Session.Options
import RemoteFramebuffer.Session.Queue
import RemoteFramebuffer.Session.State
import RemoteFramebuffer.Wire.Transport

namespace RemoteFramebuffer

/-- Where the reading loop is. -/
inductive Inlet
  | awaiting
  | reading (body : Reader SessionError Message)
  /-- The last message waits for room in the inbound queue. -/
  | delivering
  | stopped

namespace Inlet

def isStopped : Inlet → Bool
  | .stopped => true
  | _ => false

end Inlet

structure Session where
  /-- Types of the messages that are read. -/
  accepted : List UInt8
  state : SessionState
  /-- Bytes drawn from the stream and not yet used. -/
  buffer : Bytes
  inlet : Inlet
  inbound : Queue Message
  outgoing : Queue Message
  /-- Whether the writing loop goes on. -/
  isWriting : Bool
  isClosed : Bool
  /-- Whether somebody still owns the session. -/
  isHeld : Bool
  /-- Whether somebody has waited for the loops to end. -/
  isAwaited : Bool
  /-- What the loops failed with and the owner has not asked for. -/
  errors : List SessionError

namespace Session

/-- A session in the state that its handshake ended in. -/
def start (o : SessionOptions) (state : SessionState) (buffer : Bytes) : Session :=
  { accepted := if state.role = .server then o.clientMessages else o.serverMessages
    state, buffer
    inlet := .awaiting
    inbound := Queue.empty o.queueCapacity
    outgoing := Queue.empty o.queueCapacity
    isWriting := true
    isClosed := false
    isHeld := true
    isAwaited := false
    errors := [] }

def close (s : Session) : Session := { s with isClosed := true }

/-- Closes the session for a reason; none is noted if it was closed before. -/
def fail (s : Session) (e : SessionError) : Session :=
  if s.isClosed then s else { s with isClosed := true, errors := s.errors ++ [e] }

def hasStopped (s : Session) : Bool := s.inlet.isStopped && !s.isWriting

/-! ## Reading loop -/

/-- How the body of a message is read in a state; an acceptor is sent client messages. -/
def bodyReader (state : SessionState) (code : UInt8) : Reader SessionError Message :=
  match state.role with
  | .server => Message.client <$> (ClientMessage.readBody code).mapError .protocol
  | _ => Message.server <$> ServerMessage.readBody state.desktop.format state.encodings code

/-- Ends the reading loop; a message still waiting for room is lost. -/
def stopReading (s : Session) : Session :=
  { s with inlet := .stopped, inbound := s.inbound.withdraw }

/-- Takes in a message: the state first, then the queue, unless nobody is there to take it. -/
def deliver (s : Session) (m : Message) : Session :=
  let s := { s with state := s.state.afterReceived m }
  if s.isHeld then
    let inbound := s.inbound.offer m
    { s with inbound, inlet := if inbound.isHeldUp then .delivering else .awaiting }
  else s.close.stopReading

/-- The pixel format is settled as soon as the type byte is there. -/
def readCode (s : Session) (code : UInt8) (rest : Bytes) : Session :=
  let s := { s with buffer := rest }
  if code ∈ s.accepted then { s with inlet := .reading (bodyReader s.state code) }
  else (s.fail (.protocol (.unsupportedMessage code))).stopReading

/-- One move of the reading loop of an open session. -/
def read (s : Session) (incoming : Pipe) : Option (Session × Pipe) :=
  let input := s.buffer ++ incoming.bytes
  match s.inlet with
  | .stopped => none
  | .delivering =>
    if !s.inbound.isHeldUp then some ({ s with inlet := .awaiting }, incoming)
    else if s.isHeld then none
    else some (s.close.stopReading, incoming)
  | .awaiting =>
    match input with
    | code :: rest => some (s.readCode code rest, incoming.drain)
    | [] =>
      if incoming.isClosed then some ((s.fail (.transport (.endOfStream 1 0))).stopReading, incoming)
      else none
  | .reading body =>
    match body.resume input with
    | (.done (.ok m), rest) => some ({ s with buffer := rest }.deliver m, incoming.drain)
    | (.done (.error e), rest) => some (({ s with buffer := rest }.fail e).stopReading, incoming.drain)
    | (.take count short next, rest) =>
      if incoming.isClosed then some ((s.fail (short rest.length)).stopReading, incoming.drain)
      else if incoming.bytes.isEmpty then none
      else some ({ s with buffer := rest, inlet := .reading (.take count short next) }, incoming.drain)

/-! ## Writing loop -/

/-- Ends the writing loop, and with it the session and the outward stream. -/
def stopWriting (s : Session) (outward : Pipe) : Session × Pipe :=
  ({ s.close with isWriting := false }, outward.close)

/-- One move of the writing loop of an open session: the state changes before the bytes leave. -/
def write (s : Session) (outward : Pipe) : Option (Session × Pipe) :=
  if !s.isWriting then none
  else match s.outgoing.take with
    | some (m, outgoing) =>
      let s := { s with outgoing, state := s.state.afterSent m }
      match outward.write m.encode with
      | some outward => some (s, outward)
      | none => some ((s.fail (.transport .brokenPipe)).stopWriting outward)
    | none => if s.isHeld then none else some (s.stopWriting outward)

/-! ## Owner -/

/-- What the owner finds in the inbound queue. -/
inductive Receipt
  | message (m : Message)
  | empty
  /-- Nothing more will come. -/
  | closed

def recv (s : Session) : Receipt × Session :=
  match s.inbound.take with
  | some (m, inbound) => (.message m, { s with inbound })
  | none => (if s.inlet.isStopped then .closed else .empty, s)

/-- Offers a message to the writing loop, unless the session is closed. -/
def send (s : Session) (m : Message) : Option Session :=
  if s.isClosed then none else some { s with outgoing := s.outgoing.offer m }

/-- Whether the owner's last message still waits for room. -/
def isSending (s : Session) : Bool := s.outgoing.isHeldUp

/-- Gives up sending the message that waits for room. -/
def cancelSend (s : Session) : Session := { s with outgoing := s.outgoing.withdraw }

def await (s : Session) : Session := { s with isAwaited := true }

def release (s : Session) : Session :=
  { s.close with isHeld := false, outgoing := s.outgoing.withdraw }

/-- The first error that the owner has not asked for. -/
def takeError (s : Session) : Option SessionError × Session :=
  (s.errors.head?, { s with errors := s.errors.tail })

/-- How a session that has stopped went: a peer that went away is no failure. -/
def outcome (s : Session) : Except SessionError Unit :=
  match s.errors.head? with
  | some e => if e.isDisconnect then .ok () else .error e
  | none => .ok ()

end Session

end RemoteFramebuffer
