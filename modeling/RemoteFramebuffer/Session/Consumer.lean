/-
# `RemoteFramebuffer.Session.Consumer` — somebody who uses what a server sends

A consumer owns an initiator's session.  It asks for something, uses each message that
comes, and answers with further requests.  When the session ends, or a message cannot
be used, the consumer is finished.
-/
import RemoteFramebuffer.Session

namespace RemoteFramebuffer

namespace Consumer

inductive Phase
  /-- Requests that are still to be sent. -/
  | sending (requests : List ClientMessage)
  | receiving
  /-- Nothing more comes, and the loops are coming to an end. -/
  | closing
  | finished (result : Except SessionError Unit)

end Consumer

/-- A consumer that keeps what it makes of the messages in a `σ`. -/
structure Consumer (σ : Type) where
  product : σ
  phase : Consumer.Phase

namespace Consumer

variable {σ : Type}

/-- What a message does to the product, and the requests that answer it. -/
abbrev Use (σ : Type) := σ → SessionState → ServerMessage → Except SessionError (List ClientMessage) × σ

def start (product : σ) (requests : List ClientMessage) : Consumer σ := ⟨product, .sending requests⟩

/-- The consumer is finished and lets its session go. -/
def finish (c : Consumer σ) (result : Except SessionError Unit) (s : Session) : Consumer σ × Session :=
  ({ c with phase := .finished result }, s.release)

def consume (use : Use σ) (c : Consumer σ) (s : Session) : Message → Consumer σ × Session
  | .client _ => (c, s)
  | .server m =>
    match use c.product s.state m with
    | (.ok requests, product) => ({ product, phase := .sending requests }, s)
    | (.error e, product) => { c with product }.finish (.error e) s

/-- Sends the next request once the one before it is on its way. -/
def sendNext (c : Consumer σ) (s : Session) (requests : List ClientMessage) :
    Option (Consumer σ × Session) :=
  if s.isSending then
    if s.isWriting then none else some (c.finish (.error .connectionClosed) s)
  else match requests with
    | [] => some ({ c with phase := .receiving }, s)
    | request :: requests =>
      match s.send (.client request) with
      | some s => some ({ c with phase := .sending requests }, s)
      | none => some (c.finish (.error .connectionClosed) s)

def step (use : Use σ) (c : Consumer σ) (s : Session) : Option (Consumer σ × Session) :=
  match c.phase with
  | .sending requests => c.sendNext s requests
  | .receiving =>
    match s.recv with
    | (.message m, s) => some (c.consume use s m)
    | (.empty, _) => none
    | (.closed, s) => some ({ c with phase := .closing }, s)
  | .closing => if s.hasStopped then some (c.finish s.outcome s) else none
  | .finished _ => none

end Consumer

end RemoteFramebuffer
