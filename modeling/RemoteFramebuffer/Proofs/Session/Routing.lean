/-
# `RemoteFramebuffer.Proofs.Session.Routing` — a router keeps the order and invents nothing

## What is proved

Of every block list, all options and all that the two peers send, let everything that moves move in
any order (`relays_in_order`).  Wherever that leads,

    written to the server    is a beginning of what was read from the viewer, without the messages
                             that are blocked, requests for encodings narrowed to those known
    written to the viewer    is a beginning of what was read from the server, without the messages
                             that are blocked

What was read stands at the front of what came, message by message, and what left is what is written
of the messages.

## How it is proved

A `Circuit` is a router with its two connections.  `Step` lets everything that moves move at any
time: the four loops, the two peers, the two directions of the router, and whoever closes a session
or the router.  The router's own schedule is one of these (`step_of_joint`).

For each direction the two halves of a session meet in `Direction`: what one session read is what
the router took and what is still in its queue; what the router offered to the other session is what
it took, converted.  Once the router has stopped it offers nothing any more.
-/
import RemoteFramebuffer.Proofs.Encoding.Set
import RemoteFramebuffer.Proofs.Session.Connection
import RemoteFramebuffer.Session.Router

namespace RemoteFramebuffer

/-! ## What passes -/

namespace Filter

/-- Whether a message of the viewer goes on to the server. -/
def keeps (f : Filter) : ClientMessage → Bool
  | .setEncodings _ | .setPixelFormat _ => true
  | m => m.code ∉ f.blockedClient

/-- A request for encodings without the numbers of those that cannot be read. -/
def narrow (readable : EncodingSet) : ClientMessage → ClientMessage
  | .setEncodings wanted => .setEncodings (wanted.filter (· ∈ readable.toWire))
  | m => m

theorem toServer_eq (f : Filter) (readable : EncodingSet) (m : ClientMessage) :
    f.toServer readable m = if f.keeps m then some (narrow readable m) else none := by
  cases m with
  | setEncodings wanted => simp [toServer, keeps, narrow, EncodingSet.intersect_eq]
  | setPixelFormat format => rfl
  | _ => simp [toServer, keeps, narrow]

theorem filterMap_backward (f : Filter) (readable : EncodingSet) (read : List ClientMessage) :
    (read.map .client).filterMap (f.backward readable) =
      ((read.filter f.keeps).map (narrow readable)).map .client := by
  rw [List.filterMap_map, List.map_map, ← List.filterMap_eq_map, List.filterMap_filter]
  refine congrArg (List.filterMap · read) (funext fun m => ?_)
  rw [Function.comp, backward, toServer_eq]
  by_cases kept : f.keeps m = true
  · simp [kept]
  · simp [kept]

theorem filterMap_forward (f : Filter) (read : List ServerMessage) :
    (read.map .server).filterMap f.forward =
      (read.filter (·.code ∉ f.blockedServer)).map .server := by
  rw [List.filterMap_map, ← List.filterMap_eq_map, List.filterMap_filter]
  refine congrArg (List.filterMap · read) (funext fun m => ?_)
  rw [Function.comp, forward, toViewer]
  by_cases blocked : m.code ∈ f.blockedServer
  · simp [blocked]
  · simp [blocked]

end Filter

/-! ## Passing a message on -/

theorem relay_moved {convert : Message → Option Message} {source target source' target' : Session}
    (moved : relay convert source target = .moved source' target') :
    target.outgoing.waiting = none ∧ ∃ m, source.recv = (.message m, source') ∧
      (convert m = none ∧ target' = target ∨
        ∃ m', convert m = some m' ∧ target.send m' = some target') := by
  unfold relay at moved
  split at moved
  · split at moved <;> cases moved
  · rename_i free
    refine ⟨by simpa [Session.isSending, Queue.isHeldUp] using free, ?_⟩
    split at moved
    · rename_i m source'' received
      split at moved
      · rename_i dropped
        cases moved
        exact ⟨m, received, .inl ⟨dropped, rfl⟩⟩
      · rename_i m' kept
        split at moved
        · rename_i target'' sent
          cases moved
          exact ⟨m, received, .inr ⟨m', kept, sent⟩⟩
        · cases moved
    · cases moved
    · cases moved

theorem relay_frame {convert : Message → Option Message} {source target source' target' : Session}
    (moved : relay convert source target = .moved source' target') :
    source' = { source with inbound := source'.inbound } ∧
      target' = { target with outgoing := target'.outgoing } := by
  obtain ⟨-, m, received, passed⟩ := relay_moved moved
  constructor
  · obtain ⟨inbound, -, rfl⟩ := Session.take_of_recv received
    rfl
  · rcases passed with ⟨-, rfl⟩ | ⟨m', -, sent⟩
    · rfl
    · obtain rfl := Session.offer_of_send sent
      rfl

/-- A message was taken at one end, and its conversion offered at the other. -/
def Direction (convert : Message → Option Message) (relaying : Prop) (source target : Connection) :
    Prop :=
  ∃ taken offered, source.session.Inflow source.heard taken ∧
    target.session.Outflow offered target.said ∧ offered <+: taken.filterMap convert ∧
    (relaying → offered = taken.filterMap convert)

namespace Direction

variable {convert : Message → Option Message} {relaying : Prop}
  {source target source' target' : Connection} {s t : Session}

theorem said_prefix (h : Direction convert relaying source target) :
    target.said <+: source.heard.filterMap convert := by
  obtain ⟨taken, offered, inflow, outflow, kept, -⟩ := h
  exact outflow.kept.trans (kept.trans (inflow.taken_prefix.filterMap convert))

theorem start (relaying : Prop) (heard : source.heard = []) (said : target.said = [])
    (inbound : ∃ capacity, source.session.inbound = Queue.empty capacity)
    (outgoing : ∃ capacity, target.session.outgoing = Queue.empty capacity) :
    Direction convert relaying source target := by
  obtain ⟨capacity, inbound⟩ := inbound
  obtain ⟨capacity', outgoing⟩ := outgoing
  refine ⟨[], [], ⟨?_, fun _ => ?_, fun _ => ?_⟩, ⟨?_, fun _ => ?_⟩, List.nil_prefix, fun _ => rfl⟩
  · rw [inbound]
    exact List.nil_prefix
  · rw [inbound, heard]
    rfl
  · rw [inbound]
    rfl
  · simp [said]
  · rw [said, outgoing]
    rfl

theorem source_step (h : Direction convert relaying source target) (step : source.Step source') :
    Direction convert relaying source' target := by
  obtain ⟨taken, offered, inflow, outflow, rest⟩ := h
  exact ⟨taken, offered, step.inflow inflow, outflow, rest⟩

theorem target_step (h : Direction convert relaying source target) (step : target.Step target') :
    Direction convert relaying source target' := by
  obtain ⟨taken, offered, inflow, outflow, rest⟩ := h
  exact ⟨taken, offered, inflow, step.outflow outflow, rest⟩

theorem passes (h : Direction convert relaying source target) (going : relaying)
    (moved : relay convert source.session target.session = .moved s t) :
    Direction convert relaying { source with session := s } { target with session := t } := by
  obtain ⟨taken, offered, inflow, outflow, -, all⟩ := h
  obtain rfl := all going
  obtain ⟨room, m, received, passed⟩ := relay_moved moved
  refine ⟨taken ++ [m], _, inflow.recv received, ?_, List.prefix_rfl, fun _ => rfl⟩
  rw [List.filterMap_append]
  rcases passed with ⟨dropped, rfl⟩ | ⟨m', kept, sent⟩
  · simpa [dropped] using outflow
  · simpa [kept] using outflow.send room sent

theorem stops {relaying' : Prop} (h : Direction convert relaying source target)
    (ended : ¬ relaying') (inbound : s.inbound = source.session.inbound)
    (inlet : s.inlet = source.session.inlet)
    (outgoing : t.outgoing = target.session.outgoing.withdraw)
    (isWriting : t.isWriting = target.session.isWriting) :
    Direction convert relaying' { source with session := s } { target with session := t } := by
  obtain ⟨taken, offered, inflow, outflow, kept, -⟩ := h
  obtain ⟨offered', fewer, outflow'⟩ := outflow.withdraw outgoing isWriting
  exact ⟨taken, offered', inflow.congr inbound inlet, outflow', fewer.trans kept,
    fun going => absurd going ended⟩

theorem congr (h : Direction convert relaying source target)
    (inbound : s.inbound = source.session.inbound) (inlet : s.inlet = source.session.inlet)
    (outgoing : t.outgoing = target.session.outgoing)
    (isWriting : t.isWriting = target.session.isWriting) :
    Direction convert relaying { source with session := s } { target with session := t } := by
  obtain ⟨taken, offered, inflow, outflow, rest⟩ := h
  exact ⟨taken, offered, inflow.congr inbound inlet, outflow.congr outgoing isWriting, rest⟩

end Direction

namespace Router

/-! ## Interleavings -/

structure Circuit where
  router : Router
  front : Connection
  back : Connection

namespace Circuit

def joint (c : Circuit) : Joint := ⟨c.router, c.front.session, c.back.session⟩

def withJoint (c : Circuit) (j : Joint) : Circuit :=
  { router := j.router
    front := { c.front with session := j.front }
    back := { c.back with session := j.back } }

/-- One move of anything in the circuit.  Relaying may be stopped, and the sessions let go, at any
time. -/
inductive Step : Circuit → Circuit → Prop
  | front {c : Circuit} {front : Connection} (step : c.front.Step front) : Step c { c with front }
  | back {c : Circuit} {back : Connection} (step : c.back.Step back) : Step c { c with back }
  | passesBackward {c : Circuit} {front back : Session} (going : c.router.phase = .relaying)
      (moved : c.joint.relayBackward = .moved front back) :
      Step c (c.withJoint { c.joint with front, back })
  | passesForward {c : Circuit} {front back : Session} (going : c.router.phase = .relaying)
      (moved : c.joint.relayForward = .moved back front) :
      Step c (c.withJoint { c.joint with front, back })
  | stops (c : Circuit) : Step c (c.withJoint c.joint.stop)
  | finishes (c : Circuit) (result : Except SessionError Unit) :
      Step c (c.withJoint
        { router := { c.router with phase := .finished result }
          front := c.front.session.release
          back := c.back.session.release })

inductive Reaches : Circuit → Circuit → Prop
  | refl (c : Circuit) : Reaches c c
  | step {c c' c'' : Circuit} (first : Step c c') (rest : Reaches c' c'') : Reaches c c''

theorem step_of_joint {c : Circuit} {j : Joint} (h : c.joint.step = some j) :
    Step c (c.withJoint j) := by
  unfold Joint.step at h
  split at h
  · rename_i going
    split at h
    · cases h
      exact .stops c
    · split at h
      · rename_i front back moved
        cases h
        exact .passesBackward going moved
      · cases h
        exact .stops c
      · split at h
        · rename_i back front moved
          cases h
          exact .passesForward going moved
        · cases h
          exact .stops c
        · cases h
  · split at h
    · cases h
      exact .finishes c _
    · cases h
  · cases h

/-! ## What stays true -/

/-- Where the messages of both directions are. -/
structure Orderly (filter : Filter) (viewer server : SessionState) (c : Circuit) : Prop where
  unchanged : c.router.filter = filter
  atFront : viewer.Alike c.front.session.state
  atBack : server.Alike c.back.session.state
  backward : Direction (filter.backward server.encodings) (c.router.phase = .relaying)
    c.front c.back
  forward : Direction filter.forward (c.router.phase = .relaying) c.back c.front
  front : c.front.Faithful
  back : c.back.Faithful

namespace Orderly

variable {filter : Filter} {viewer server : SessionState} {c c' : Circuit}

theorem start (filter : Filter) {front back : Connection}
    (front_eq : ∃ options drawn incoming outward,
      front = Connection.start options viewer drawn incoming outward)
    (back_eq : ∃ options drawn incoming outward,
      back = Connection.start options server drawn incoming outward) :
    Orderly filter viewer server ⟨Router.start filter, front, back⟩ := by
  obtain ⟨options, drawn, incoming, outward, rfl⟩ := front_eq
  obtain ⟨options', drawn', incoming', outward', rfl⟩ := back_eq
  exact ⟨rfl, .refl _, .refl _, .start _ rfl rfl ⟨_, rfl⟩ ⟨_, rfl⟩, .start _ rfl rfl ⟨_, rfl⟩ ⟨_, rfl⟩,
    .start _ _ _ _ _, .start _ _ _ _ _⟩

theorem step (h : Orderly filter viewer server c) (step : Step c c') :
    Orderly filter viewer server c' := by
  cases step with
  | front step =>
      exact ⟨h.unchanged, h.atFront.trans step.alike, h.atBack, h.backward.source_step step,
        h.forward.target_step step, step.faithful h.front, h.back⟩
  | back step =>
      exact ⟨h.unchanged, h.atFront, h.atBack.trans step.alike, h.backward.target_step step,
        h.forward.source_step step, h.front, step.faithful h.back⟩
  | @passesBackward front back going moved =>
      have moved : relay (filter.backward server.encodings) c.front.session c.back.session =
          .moved front back := by
        rw [← h.unchanged, ← h.atBack.2]
        exact moved
      obtain ⟨source, target⟩ := relay_frame moved
      have backward := h.backward.passes going moved
      rw [source, target] at backward ⊢
      exact ⟨h.unchanged, h.atFront, h.atBack, backward, h.forward.congr rfl rfl rfl rfl,
        h.front.congr rfl rfl rfl, h.back.congr rfl rfl rfl⟩
  | @passesForward front back going moved =>
      have moved : relay filter.forward c.back.session c.front.session = .moved back front := by
        rw [← h.unchanged]
        exact moved
      obtain ⟨source, target⟩ := relay_frame moved
      have forward := h.forward.passes going moved
      rw [source, target] at forward ⊢
      exact ⟨h.unchanged, h.atFront, h.atBack, h.backward.congr rfl rfl rfl rfl, forward,
        h.front.congr rfl rfl rfl, h.back.congr rfl rfl rfl⟩
  | stops =>
      have ended : Phase.closing ≠ .relaying := nofun
      exact ⟨h.unchanged, h.atFront, h.atBack, h.backward.stops ended rfl rfl rfl rfl,
        h.forward.stops ended rfl rfl rfl rfl, h.front.congr rfl rfl rfl, h.back.congr rfl rfl rfl⟩
  | finishes result =>
      have ended : Phase.finished result ≠ .relaying := nofun
      exact ⟨h.unchanged, h.atFront, h.atBack, h.backward.stops ended rfl rfl rfl rfl,
        h.forward.stops ended rfl rfl rfl rfl, h.front.congr rfl rfl rfl, h.back.congr rfl rfl rfl⟩

theorem reaches (h : Orderly filter viewer server c) (reached : Reaches c c') :
    Orderly filter viewer server c' := by
  induction reached with
  | refl c => exact h
  | step first _ ih => exact ih (h.step first)

end Orderly

/-- **A proxy keeps the order and invents nothing.**  Whatever the block lists, the encodings and the
queues are, and however the loops, the router and the peers take turns until any of them is closed:
what has been written to the server is a beginning of what was read from the viewer, without the
messages that are blocked and with requests for encodings narrowed to those that can be read; what
has been written to the viewer is a beginning of what was read from the server, without the messages
that are blocked.  What was read stands at the front of what came, message by message, and what left
is what is written of the messages. -/
theorem relays_in_order (filter : Filter) (viewerOptions serverOptions : SessionOptions)
    {viewer server : SessionState} (drawn drawn' : Bytes)
    (fromViewer toViewer fromServer toServer : Pipe)
    (facesViewer : viewer.role = .server) (facesServer : server.role = .client) {c : Circuit}
    (reached : Reaches
      ⟨Router.start filter, Connection.start viewerOptions viewer drawn fromViewer toViewer,
        Connection.start serverOptions server drawn' fromServer toServer⟩ c) :
    (∃ read : List ClientMessage, c.front.heard = read.map .client ∧
      (∃ rest, Part.Stand (read.flatMap ClientMessage.parts) c.front.arrived rest) ∧
      c.back.said <+: ((read.filter filter.keeps).map (Filter.narrow server.encodings)).map .client ∧
      c.back.left = c.back.said.flatMap Message.encode) ∧
    ∃ read : List ServerMessage, c.back.heard = read.map .server ∧
      (∃ rest, Part.Stand (read.flatMap ServerMessage.parts) c.back.arrived rest) ∧
      c.front.said <+: (read.filter (·.code ∉ filter.blockedServer)).map .server ∧
      c.front.left = c.front.said.flatMap Message.encode := by
  have orderly : Orderly filter viewer server c :=
    (Orderly.start filter ⟨_, _, _, _, rfl⟩ ⟨_, _, _, _, rfl⟩).reaches reached
  constructor
  · obtain ⟨rest, stand, -⟩ := orderly.front.stand
    have kind := orderly.front.kind
    rw [orderly.atFront.1, facesViewer] at kind
    obtain ⟨read, heard⟩ := Message.exists_client kind
    have said := orderly.backward.said_prefix
    rw [heard, Filter.filterMap_backward] at said
    rw [heard, List.flatMap_map] at stand
    exact ⟨read, heard, ⟨rest, stand⟩, said, orderly.back.left⟩
  · obtain ⟨rest, stand, -⟩ := orderly.back.stand
    have other : c.back.session.state.role ≠ .server := by
      rw [orderly.atBack.1, facesServer]
      nofun
    obtain ⟨read, heard⟩ := Message.exists_server other orderly.back.kind
    have said := orderly.forward.said_prefix
    rw [heard, Filter.filterMap_forward] at said
    rw [heard, List.flatMap_map] at stand
    exact ⟨read, heard, ⟨rest, stand⟩, said, orderly.front.left⟩

/-- The server rings: the byte comes, its type is read and then its body, which is empty; it is passed
on and written. -/
theorem relays_in_order_bell :
    let viewer := SessionState.make .server .v38 .none EncodingSet.empty
    let server := SessionState.make .client .v38 .none EncodingSet.empty
    viewer.role = .server ∧ server.role = .client ∧
      ∃ c, Reaches ⟨Router.start ⟨[], []⟩,
          Connection.start .standard viewer [] Pipe.fresh Pipe.fresh,
          Connection.start .standard server [] Pipe.fresh Pipe.fresh⟩ c ∧
        c.front.said = [.server .bell] ∧
        ∃ read : List ServerMessage, c.back.heard = read.map .server ∧
          c.front.said <+: (read.filter (·.code ∉ [])).map .server := by
  intro viewer server
  obtain ⟨c, reached, rings⟩ : ∃ c, Reaches ⟨Router.start ⟨[], []⟩,
      Connection.start .standard viewer [] Pipe.fresh Pipe.fresh,
      Connection.start .standard server [] Pipe.fresh Pipe.fresh⟩ c ∧
      c.front.said = [.server .bell] := by
    exact ⟨_, .step (.back (@Connection.Step.arrives _ [2] _ rfl))
      (.step (.back (.reads rfl)) (.step (.back (.reads rfl))
        (.step (.passesForward rfl rfl) (.step (.front (.writes rfl)) (.refl _))))), rfl⟩
  obtain ⟨-, read, heard, -, said, -⟩ :=
    relays_in_order ⟨[], []⟩ .standard .standard [] [] Pipe.fresh Pipe.fresh Pipe.fresh Pipe.fresh
      rfl rfl reached
  exact ⟨rfl, rfl, c, reached, rings, read, heard, said⟩

end Circuit
end Router

end RemoteFramebuffer
