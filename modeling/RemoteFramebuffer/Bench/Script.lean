/-
# `RemoteFramebuffer.Bench.Script` — what an observer does with a network

An observer owns some of the legs, each under a name, and may sit at a seat himself and
speak to the session across in plain bytes.  A step either answers at once, and then
nobody else has moved, or waits until it can.
-/
import RemoteFramebuffer.Bench.Schedule
import RemoteFramebuffer.Session.Router

namespace RemoteFramebuffer

variable [StreamDecoder] [BlockCipher]

namespace Bench

/-! ## Steps and answers -/

inductive Step
  /-- The result of the handshake across. -/
  | openSession
  | send (leg : String) (m : Message)
  | recv (leg : String)
  | state (leg : String)
  | close (leg : String)
  | isClosed (leg : String)
  /-- Until both loops have ended. -/
  | wait (leg : String)
  | drop (leg : String)
  /-- The result of the chore. -/
  | join
  | advance (milliseconds : Nat)
  | canvas
  | write (bytes : Bytes)
  | read (count : Nat)
  | readChallenge
  | respond (password : Bytes)
  | shutdown

inductive ReadEnd
  | complete
  | endOfStream
  /-- Nothing more comes, but the stream is open. -/
  | stalled
deriving DecidableEq, Repr

inductive Answer
  | done
  /-- Nobody is left to read what was written. -/
  | broken
  /-- Nothing can happen any more. -/
  | stalled
  | noSuchLeg
  | message (m : Message)
  | failure (e : SessionError)
  | ended (error : Option SessionError)
  | opened (s : SessionState)
  | state (s : SessionState)
  | truth (b : Bool)
  | bytes (read : Bytes) (theEnd : ReadEnd)
  | challenge (length : Nat) (theEnd : ReadEnd)
  | file (written : Bytes)
  | raster (r : Raster)

inductive SetupError
  /-- What each side of a handshake failed with. -/
  | handshake (acceptor initiator : Option SessionError)
  | recording (e : SessionError)
  | stalled

end Bench

structure Bench where
  schedule : Bench.Schedule
  /-- The legs that the observer owns. -/
  legs : List (String × Bench.Seat)
  /-- Where the observer sits himself. -/
  rawSeat : Bench.Seat
  /-- The challenge that was read last. -/
  challenge : Bytes
  /-- The chore's result was not asked for yet. -/
  isWorking : Bool

namespace Bench

variable {α : Type}

def network (b : Bench) : Network := b.schedule.network

def after (b : Bench) (n : Network) : Bench := { b with schedule := b.schedule.after n }

def seat? (b : Bench) (leg : String) : Option Seat := b.legs.lookup leg

/-- How many pauses may end while a step waits. -/
def maxPauses : Nat := 100000

/-- Attempts something until it succeeds or nothing can happen any more. -/
def await (b : Bench) (attempt : Network → Option (α × Network)) : Option α × Bench :=
  let (result, schedule) := b.schedule.await attempt maxPauses
  (result, { b with schedule })

/-! ## Steps on a session -/

/-- Looks at a session, and perhaps changes it. -/
def onSession (seat : Seat) (f : Session → Option (α × Session)) (n : Network) :
    Option (α × Network) := do
  let s ← n.session? seat
  let (a, s) ← f s
  some (a, n.setSession seat s)

def update (b : Bench) (seat : Seat) (f : Session → Session) : Bench :=
  match b.network.session? seat with
  | some s => b.after (b.network.setSession seat (f s))
  | none => b

def received (s : Session) : Option (Answer × Session) :=
  match s.recv with
  | (.message m, s) => some (.message m, s)
  | (.empty, _) => none
  | (.closed, s) => some (.failure .connectionClosed, s)

/-- Whether the message that was sent is on its way. -/
def sent (s : Session) : Option (Answer × Session) :=
  if !s.isSending then some (.done, s)
  else if s.isWriting then none
  else some (.failure .connectionClosed, s.cancelSend)

/-- Whether both loops have ended, and the error that they ended with. -/
def ended (s : Session) : Option (Answer × Session) :=
  if s.hasStopped then
    let (e, s) := s.takeError
    some (.ended e, s)
  else none

def send (b : Bench) (seat : Seat) (s : Session) (m : Message) : Answer × Bench :=
  match s.send m with
  | none => (.failure .connectionClosed, b)
  | some s =>
    match (b.after (b.network.setSession seat s)).await (onSession seat sent) with
    | (some answer, b) => (answer, b)
    | (none, b) => (.stalled, b.update seat Session.cancelSend)

/-- Waits for a session; only the first who waits has to. -/
def wait (b : Bench) (seat : Seat) (s : Session) : Answer × Bench :=
  if s.isAwaited then
    let (e, s) := s.takeError
    (.ended e, b.after (b.network.setSession seat s))
  else
    let (answer, b) := (b.update seat Session.await).await (onSession seat ended)
    (answer.getD .stalled, b)

def stepSession (b : Bench) (seat : Seat) (s : Session) : Step → Answer × Bench
  | .send _ m => b.send seat s m
  | .recv _ =>
    let (answer, b) := b.await (onSession seat received)
    (answer.getD .stalled, b)
  | .state _ => (.state s.state, b)
  | .close _ => (.done, b.update seat Session.close)
  | .isClosed _ => (.truth s.isClosed, b)
  | .wait _ => b.wait seat s
  | .drop leg => (.done, { b.update seat Session.release with legs := b.legs.filter (·.1 != leg) })
  | _ => (.noSuchLeg, b)

def stepLeg (b : Bench) (leg : String) (step : Step) : Answer × Bench :=
  match b.seat? leg with
  | none => (.noSuchLeg, b)
  | some seat =>
    match b.network.session? seat with
    | none => (.noSuchLeg, b)
    | some s => b.stepSession seat s step

/-! ## Steps of the observer's own seat -/

/-- Takes bytes that have come up to a count, and says how that ended, if it did. -/
def takeBytes (seat : Seat) (count : Nat) (n : Network) : Option ((Bytes × ReadEnd) × Network) :=
  let incoming := n.incoming seat
  let taken := incoming.bytes.take count
  let n := n.setIncoming seat { incoming with bytes := incoming.bytes.drop count }
  if count ≤ incoming.bytes.length then some ((taken, .complete), n)
  else if incoming.isClosed then some ((taken, .endOfStream), n)
  else none

def readBytes (b : Bench) (count : Nat) : (Bytes × ReadEnd) × Bench :=
  match b.await (takeBytes b.rawSeat count) with
  | (some result, b) => (result, b)
  | (none, b) =>
    let incoming := b.network.incoming b.rawSeat
    ((incoming.bytes, .stalled), b.after (b.network.setIncoming b.rawSeat incoming.drain))

def writeBytes (b : Bench) (bytes : Bytes) : Answer × Bench :=
  if bytes.isEmpty then (.done, b)
  else match (b.network.outward b.rawSeat).write bytes with
    | some outward => (.done, b.after (b.network.setOutward b.rawSeat outward))
    | none => (.broken, b)

/-- The name of the session across from the observer. -/
def sessionName : String := "session"

/-- The result of the handshake across from the observer, as soon as there is one. -/
def opened (seat : Seat) (n : Network) : Option (Except SessionError SessionState × Network) :=
  match n.leg seat with
  | .refused e => some (.error e, n)
  | .live s => some (.ok s.state, n)
  | _ => none

def openSession (b : Bench) : Answer × Bench :=
  let seat := b.rawSeat.peer
  match b.await (opened seat) with
  | (some (.ok state), b) => (.opened state, { b with legs := [(sessionName, seat)] })
  | (some (.error e), b) => (.failure e, b)
  | (none, b) => (.stalled, b)

/-! ## Steps on the chore -/

/-- What the chore came to, if it has come to an end. -/
def choreResult (n : Network) : Option (Answer × Network) :=
  let ofResult (result : Except SessionError Unit) (answer : Answer) : Answer :=
    match result with
    | .ok () => answer
    | .error e => .failure e
  match n.chore with
  | .routing ⟨_, .finished result⟩ | .playing ⟨_, .finished result⟩
  | .rendering ⟨_, .finished result⟩ => some (ofResult result .done, n)
  | .recording ⟨recorder, .finished result⟩ => some (ofResult result (.file recorder.written), n)
  | _ => none

def join (b : Bench) : Answer × Bench :=
  if !b.isWorking then (.stalled, b)
  else match b.await choreResult with
    | (some answer, b) => (answer, { b with isWorking := false })
    | (none, b) => (.stalled, b)

def canvas (b : Bench) : Answer :=
  match b.network.chore with
  | .rendering c => .raster c.product.scene.canvas.raster
  | _ => .noSuchLeg

/-- Nanoseconds in a millisecond. -/
def millisecond : Nat := 1000000

def step (b : Bench) : Step → Answer × Bench
  | .openSession => b.openSession
  | .join => b.join
  | .advance ms => (.done, { b with schedule := b.schedule.advance (b.network.now + ms * millisecond) })
  | .canvas => (b.canvas, b)
  | .write bytes => b.writeBytes bytes
  | .read count =>
    let ((read, theEnd), b) := b.readBytes count
    (.bytes read theEnd, b)
  | .readChallenge =>
    let ((read, theEnd), b) := b.readBytes Challenge.size
    (.challenge read.length theEnd, { b with challenge := read })
  | .respond password => b.writeBytes (Challenge.response password b.challenge)
  | .shutdown =>
    (.done, b.after (b.network.setOutward b.rawSeat (b.network.outward b.rawSeat).close))
  | .send leg m => b.stepLeg leg (.send leg m)
  | .recv leg => b.stepLeg leg (.recv leg)
  | .state leg => b.stepLeg leg (.state leg)
  | .close leg => b.stepLeg leg (.close leg)
  | .isClosed leg => b.stepLeg leg (.isClosed leg)
  | .wait leg => b.stepLeg leg (.wait leg)
  | .drop leg => b.stepLeg leg (.drop leg)

def run : Bench → List Step → List Answer
  | _, [] => []
  | b, s :: steps =>
    let (answer, b) := b.step s
    answer :: run b steps

/-! ## Setting up -/

def ofNetwork (nonce : Bytes) (n : Network) : Bench :=
  { schedule := Schedule.after ⟨n, [], [], nonce⟩ n
    legs := []
    rawSeat := .viewer
    challenge := []
    isWorking := false }

def acceptor (nonce : Bytes) (o : SessionOptions) : Bench :=
  { ofNetwork nonce (Network.vacant.setLeg .server (.accepting o o.desktop)) with rawSeat := .back }

def initiator (nonce : Bytes) (o : SessionOptions) : Bench :=
  { ofNetwork nonce (Network.vacant.setLeg .back (.connecting o)) with rawSeat := .server }

/-- Joins an acceptor's seat and its peer by a handshake. -/
def connect (b : Bench) (seat : Seat) (server : SessionOptions) (desktop : Desktop)
    (client : SessionOptions) : Except SetupError (Bench × SessionState) :=
  let n := (b.network.setLeg seat (.accepting server desktop)).setLeg seat.peer (.connecting client)
  let b := { b with schedule := { b.schedule with network := n }.handshake seat }
  match b.network.leg seat, b.network.leg seat.peer with
  | .live _, .live s => .ok (b, s.state)
  | .opening _ _ _, .opening _ _ _ => .error .stalled
  | acceptor, initiator => .error (.handshake acceptor.refusal? initiator.refusal?)

/-- Two sessions, both of them the observer's. -/
def pair (nonce : Bytes) (server client : SessionOptions) : Except SetupError Bench := do
  let (b, _) ← (ofNetwork nonce .vacant).connect .server server server.desktop client
  return { b with legs := [("server", .server), ("client", .back)] }

/-- Gives the sessions that are not named to a chore. -/
def employ (b : Bench) (chore : Chore) (legs : List (String × Seat)) : Bench :=
  { b.after { b.network with chore } with legs, isWorking := true }

/-- A router between a server and a viewer, both of them the observer's. -/
def routing (nonce : Bytes) (server viewer front back : SessionOptions) (filter : Filter) :
    Except SetupError Bench := do
  let (b, state) ← (ofNetwork nonce .vacant).connect .server server server.desktop back
  let (b, _) ← b.connect .front front state.desktop viewer
  return b.employ (.routing (Router.start filter)) [("server", .server), ("viewer", .viewer)]

/-- A recording played to a viewer, who is the observer's. -/
def playing (nonce : Bytes) (file : Bytes) (viewer : SessionOptions) : Except SetupError Bench := do
  let player ← (Player.ofBytes file).mapError .recording
  let desktop := player.state.desktop
  let (b, _) ← (ofNetwork nonce .vacant).connect .server { SessionOptions.standard with desktop }
    desktop viewer
  return b.employ (.playing (Playback.start player)) [("viewer", .back)]

/-- A chore with a session of its own, across from a server that is the observer's. -/
def employing (nonce : Bytes) (server client : SessionOptions) (chore : SessionState → Chore) :
    Except SetupError Bench := do
  let (b, state) ← (ofNetwork nonce .vacant).connect .server server server.desktop client
  return b.employ (chore state) [("server", .server)]

end Bench
end RemoteFramebuffer
