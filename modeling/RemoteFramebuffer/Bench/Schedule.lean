/-
# `RemoteFramebuffer.Bench.Schedule` — who moves next

Actors that can move stand in a queue, in the order in which they became able to.  The
first one moves until it has to wait, and then the next.  An observer who waits for
something lets all of them move until none can; only then does time pass, and only up
to the end of the next pause.
-/
import RemoteFramebuffer.Bench.Network

namespace RemoteFramebuffer
namespace Bench

variable [StreamDecoder] [BlockCipher]

structure Schedule where
  network : Network
  queue : List Network.Actor
  /-- Actors that the observer moves by himself. -/
  apart : List Network.Actor
  /-- The challenge that is drawn in every handshake. -/
  nonce : Bytes

namespace Schedule

/-- Puts every actor that can move, and does not queue yet, at the end of the queue. -/
def wake (s : Schedule) : Schedule :=
  let able := Network.actors.filter fun a =>
    a ∉ s.queue && a ∉ s.apart && (s.network.act s.nonce a).isSome
  { s with queue := s.queue ++ able }

/-- The schedule after somebody outside has changed the network. -/
def after (s : Schedule) (n : Network) : Schedule := { s with network := n }.wake

def step (s : Schedule) : Schedule :=
  match s.queue with
  | [] => s
  | a :: rest =>
    match s.network.act s.nonce a with
    | some n => s.after n
    | none => { s with queue := rest }

/-- The most moves that are made before an observer looks again. -/
def patience : Nat := 1000000

def steps : Nat → Schedule → Schedule
  | 0, s => s
  | limit + 1, s => if s.queue.isEmpty then s else steps limit s.step

def settle (s : Schedule) : Schedule := s.steps patience

/-- Moves the clock on; pauses that end by then are not over before everybody has moved. -/
def advance (s : Schedule) (time : Nat) : Schedule :=
  let s := { s with network.now := max s.network.now time }.settle
  s.after { s.network with due := s.network.now }

/-- Attempts something until it succeeds, letting the actors move and then up to `pauses` pauses
end; `none` if nothing can happen any more. -/
def await {α : Type} (attempt : Network → Option (α × Network)) :
    (pauses : Nat) → Schedule → Option α × Schedule
  | pauses, s =>
    match attempt s.network with
    | some (a, n) => (some a, s.after n)
    | none =>
      let s := s.settle
      match attempt s.network with
      | some (a, n) => (some a, s.after n)
      | none =>
        match pauses, s.network.deadline? with
        | pauses + 1, some time => await attempt pauses (s.advance time)
        | _, _ => (none, s)

/-! ## Handshakes -/

def run (nonce : Bytes) (a : Network.Actor) : (limit : Nat) → Network → Network
  | 0, n => n
  | limit + 1, n =>
    match n.act nonce a with
    | some n => run nonce a limit n
    | none => n

/-- Lets two ends negotiate in turns, the acceptor first and everybody else between the turns,
until both are done. -/
def negotiate (acceptor initiator : Network.Actor) (isDone : Network → Bool) :
    (turns : Nat) → Schedule → Schedule
  | 0, s => s
  | turns + 1, s =>
    let n := run s.nonce initiator patience (run s.nonce acceptor patience s.network)
    if isDone n then s.after n else negotiate acceptor initiator isDone turns (s.after n).settle

/-- No handshake takes more turns than this. -/
def maxTurns : Nat := 32

/-- The handshake between an acceptor's seat and its peer. -/
def handshake (s : Schedule) (acceptor : Seat) : Schedule :=
  let a : Network.Actor := .negotiator acceptor
  let i : Network.Actor := .negotiator acceptor.peer
  let isDone (n : Network) := !(n.leg acceptor).isOpening && !(n.leg acceptor.peer).isOpening
  { negotiate a i isDone maxTurns { s with apart := [a, i] } with apart := [] }

end Schedule
end Bench
end RemoteFramebuffer
