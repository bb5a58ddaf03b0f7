/-
# `RemoteFramebuffer.Handshake.Exchange` — one end of a conversation

An `Exchange` takes bytes as a `Reader` does, and it also sends bytes and draws
challenges.  What is sent leaves at once and in one run.  Who is at the other end is
left open: `Exchange.run` plays against a scripted peer, `Exchange.resume` over a pipe.
-/
import RemoteFramebuffer.Handshake.Error
import RemoteFramebuffer.Security.Handler
import RemoteFramebuffer.Wire.Transport
import RemoteFramebuffer.Wire.Reader

namespace RemoteFramebuffer

inductive Exchange (α : Type) where
  | done (result : Except ProtocolError α)
  | take (count : Nat) (short : Nat → ProtocolError) (next : Bytes → Exchange α)
  | send (bytes : Bytes) (next : Exchange α)
  | draw (next : Bytes → Exchange α)

namespace Exchange

variable {α β : Type}

def fail (e : ProtocolError) : Exchange α := .done (.error e)

def bind : Exchange α → (α → Exchange β) → Exchange β
  | .done (.ok a), f => f a
  | .done (.error e), _ => .done (.error e)
  | .take count short next, f => .take count short fun piece => (next piece).bind f
  | .send bytes next, f => .send bytes (next.bind f)
  | .draw next, f => .draw fun challenge => (next challenge).bind f

instance : Monad Exchange where
  pure a := .done (.ok a)
  bind := bind

def read : Reader WireError α → Exchange α
  | .done result => .done (result.mapError .io)
  | .take count short next => .take count (fun got => .io (short got)) fun piece => read (next piece)

def write (bytes : Bytes) : Exchange Unit := .send bytes (pure ())

def challenge : Exchange Bytes := .draw pure

def ofExcept : Except ProtocolError α → Exchange α := .done

end Exchange

/-! ## A peer at the other end of a pipe -/

/-- Goes on as far as the input allows, which is all there will be if it has `ended`; every
challenge drawn is `nonce`. -/
def Exchange.resume {α : Type} (nonce : Bytes) (ended : Bool) :
    Exchange α → (input : Bytes) → (outward : Pipe) → Exchange α × Bytes × Pipe
  | .done result, input, outward => (.done result, input, outward)
  | .take count short next, input, outward =>
    if count ≤ input.length then
      (next (input.take count)).resume nonce ended (input.drop count) outward
    else if ended then (.fail (short input.length), input, outward)
    else (.take count short next, input, outward)
  | .send bytes next, input, outward =>
    match outward.write bytes with
    | some outward => next.resume nonce ended input outward
    | none => (.fail (.io .brokenPipe), input, outward)
  | .draw next, input, outward => (next nonce).resume nonce ended input outward

/-! ## A scripted peer -/

/-- What a scripted peer sends next: given bytes, or what it makes of the last challenge. -/
inductive PeerMove
  | say (bytes : Bytes)
  | answer (respond : Bytes → Bytes)

/-- The state of a conversation with a scripted peer. -/
structure Dialogue where
  input : Bytes
  moves : List PeerMove
  /-- The runs sent so far, last first. -/
  sent : List Bytes

namespace Dialogue

/-- What a move puts into the input: an answer is to the last run of a challenge's length. -/
def bytesOf (d : Dialogue) : PeerMove → Bytes
  | .say bytes => bytes
  | .answer respond => ((d.sent.find? (·.length == Challenge.size)).map respond).getD []

/-- Lets the peer move until `count` bytes are there or its script ends. -/
def await (d : Dialogue) (count : Nat) : Dialogue :=
  go d.moves d.input
where
  go : List PeerMove → Bytes → Dialogue
    | [], input => { d with input := input, moves := [] }
    | move :: moves, input =>
      if count ≤ input.length then { d with input := input, moves := move :: moves }
      else go moves (input ++ d.bytesOf move)

def left (d : Dialogue) : Nat := d.input.length + (d.moves.flatMap d.bytesOf).length

end Dialogue

/-- Plays against a scripted peer; every challenge drawn is `nonce`. -/
def Exchange.run {α : Type} (nonce : Bytes) : Exchange α → Dialogue → Except ProtocolError α × Dialogue
  | .done result, d => (result, d)
  | .take count short next, d =>
    let d := d.await count
    let piece := d.input.take count
    if piece.length < count then (.error (short d.input.length), d)
    else (next piece).run nonce { d with input := d.input.drop count }
  | .send bytes next, d => next.run nonce { d with sent := bytes :: d.sent }
  | .draw next, d => (next nonce).run nonce d

end RemoteFramebuffer
