/-
# `RemoteFramebuffer.Bench.Network` — sessions joined by pipes

A network has four seats, joined in pairs: the server with the back of a proxy, and the
proxy's front with the viewer.  Each seat has a leg, which is a session in some stage of
its life or nothing, and a pipe with what has been sent to it.  A chore owns some of the
sessions and runs beside their loops.

`Network.act` is one move of one actor.  Nothing else happens by itself but the passing
of time, which pauses wait for.
-/
import RemoteFramebuffer.Recording.Recorder
import RemoteFramebuffer.Recording.Playback
import RemoteFramebuffer.Session.State
import RemoteFramebuffer.Session.Picture
import RemoteFramebuffer.Session.Router

namespace RemoteFramebuffer
namespace Bench

variable [StreamDecoder] [BlockCipher]

inductive Seat
  | server
  | back
  | front
  | viewer
deriving DecidableEq, Repr

namespace Seat

def peer : Seat → Seat
  | .server => .back
  | .back => .server
  | .front => .viewer
  | .viewer => .front

def all : List Seat := [.server, .back, .front, .viewer]

end Seat

inductive Leg
  | vacant
  /-- The handshake is under way; it may be refused before it begins. -/
  | opening (options : SessionOptions) (exchange : Except SessionError (Exchange SessionState))
      (buffer : Bytes)
  | refused (cause : SessionError)
  | live (session : Session)

namespace Leg

def session? : Leg → Option Session
  | .live s => some s
  | _ => none

def refusal? : Leg → Option SessionError
  | .refused e => some e
  | _ => none

def isOpening : Leg → Bool
  | .opening _ _ _ => true
  | _ => false

/-- A leg that starts a handshake, if its options are sound. -/
def begin (options : SessionOptions) (exchange : Exchange SessionState) : Leg :=
  .opening options (options.validate.map fun _ => exchange) []

def connecting (options : SessionOptions) : Leg := begin options options.connect

def accepting (options : SessionOptions) (desktop : Desktop) : Leg :=
  begin options (options.accept desktop)

end Leg

structure Station where
  leg : Leg
  incoming : Pipe

namespace Station

def vacant : Station := ⟨.vacant, Pipe.fresh⟩

end Station

inductive Chore
  | idle
  /-- A router of the front and the back session. -/
  | routing (r : Router)
  /-- A playback to the server's session. -/
  | playing (p : Playback)
  /-- A recording of the back session. -/
  | recording (c : Consumer Recorder)
  /-- A picture of the back session. -/
  | rendering (c : Consumer Picture)

structure Network where
  server : Station
  back : Station
  front : Station
  viewer : Station
  chore : Chore
  /-- The time in nanoseconds. -/
  now : Nat
  /-- The time up to which pauses have ended. -/
  due : Nat

namespace Network

def vacant : Network := ⟨.vacant, .vacant, .vacant, .vacant, .idle, 0, 0⟩

def station (n : Network) : Seat → Station
  | .server => n.server
  | .back => n.back
  | .front => n.front
  | .viewer => n.viewer

def setStation (n : Network) (p : Station) : Seat → Network
  | .server => { n with server := p }
  | .back => { n with back := p }
  | .front => { n with front := p }
  | .viewer => { n with viewer := p }

def leg (n : Network) (seat : Seat) : Leg := (n.station seat).leg

def setLeg (n : Network) (seat : Seat) (leg : Leg) : Network :=
  n.setStation { n.station seat with leg } seat

def incoming (n : Network) (seat : Seat) : Pipe := (n.station seat).incoming

def setIncoming (n : Network) (seat : Seat) (incoming : Pipe) : Network :=
  n.setStation { n.station seat with incoming } seat

def outward (n : Network) (seat : Seat) : Pipe := n.incoming seat.peer

def setOutward (n : Network) (seat : Seat) (outward : Pipe) : Network :=
  n.setIncoming seat.peer outward

/-- A seat lets its stream go: nothing more comes out of it, and nothing can be sent to it. -/
def hangUp (n : Network) (seat : Seat) : Network :=
  let n := n.setIncoming seat (n.incoming seat).drain.close
  n.setOutward seat (n.outward seat).close

def session? (n : Network) (seat : Seat) : Option Session := (n.leg seat).session?

/-- A session after a move; one that has stopped lets its stream go. -/
def setSession (n : Network) (seat : Seat) (s : Session) : Network :=
  let n := n.setLeg seat (.live s)
  if s.hasStopped then n.hangUp seat else n

/-! ## Moves -/

def negotiate (nonce : Bytes) (n : Network) (seat : Seat) : Option Network :=
  match n.leg seat with
  | .opening _ (.error e) _ => some ((n.setLeg seat (.refused e)).hangUp seat)
  | .opening options (.ok exchange) buffer =>
    let incoming := n.incoming seat
    match exchange.resume nonce incoming.isClosed (buffer ++ incoming.bytes) (n.outward seat) with
    | (.done (.ok state), rest, outward) =>
      let n := (n.setIncoming seat incoming.drain).setOutward seat outward
      some (n.setLeg seat (.live (Session.start options state rest)))
    | (.done (.error e), _, outward) =>
      some (((n.setOutward seat outward).setLeg seat (.refused (.protocol e))).hangUp seat)
    | (exchange, rest, outward) =>
      if incoming.bytes.isEmpty && outward.bytes.length == (n.outward seat).bytes.length then none
      else
        let n := (n.setIncoming seat incoming.drain).setOutward seat outward
        some (n.setLeg seat (.opening options (.ok exchange) rest))
  | _ => none

/-- One move of a session's reading loop, which ends first of all if the session is closed. -/
def read (n : Network) (seat : Seat) : Option Network := do
  let s ← n.session? seat
  if s.isClosed then
    if s.inlet.isStopped then none else some (n.setSession seat s.stopReading)
  else
    let (s, incoming) ← s.read (n.incoming seat)
    some ((n.setIncoming seat incoming).setSession seat s)

/-- One move of a session's writing loop, which ends first of all if the session is closed. -/
def write (n : Network) (seat : Seat) : Option Network := do
  let s ← n.session? seat
  if s.isClosed then
    if !s.isWriting then none
    else
      let (s, outward) := s.stopWriting (n.outward seat)
      some ((n.setOutward seat outward).setSession seat s)
  else
    let (s, outward) ← s.write (n.outward seat)
    some ((n.setOutward seat outward).setSession seat s)

def work (n : Network) : Option Network :=
  match n.chore with
  | .idle => none
  | .routing router => do
    let front ← n.session? .front
    let back ← n.session? .back
    let j ← Router.Joint.step ⟨router, front, back⟩
    let n := (n.setSession .front j.front).setSession .back j.back
    some { n with chore := .routing j.router }
  | .playing p => do
    let s ← n.session? .server
    let (p, s) ← p.step n.now n.due s
    some { n.setSession .server s with chore := .playing p }
  | .recording c => do
    let s ← n.session? .back
    let (c, s) ← c.step (Recorder.use n.now) s
    some { n.setSession .back s with chore := .recording c }
  | .rendering c => do
    let s ← n.session? .back
    let (c, s) ← c.step Picture.use s
    some { n.setSession .back s with chore := .rendering c }

inductive Actor
  | negotiator (seat : Seat)
  | reader (seat : Seat)
  | writer (seat : Seat)
  | worker
deriving DecidableEq, Repr

def actors : List Actor :=
  Seat.all.flatMap (fun seat => [.negotiator seat, .reader seat, .writer seat]) ++ [.worker]

/-- One move of an actor, unless it has to wait. -/
def act (nonce : Bytes) (n : Network) : Actor → Option Network
  | .negotiator seat => n.negotiate nonce seat
  | .reader seat => n.read seat
  | .writer seat => n.write seat
  | .worker => n.work

def deadline? (n : Network) : Option Nat :=
  match n.chore with
  | .playing p => p.deadline?
  | _ => none

end Network
end Bench
end RemoteFramebuffer
