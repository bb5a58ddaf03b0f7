/-
# `RemoteFramebuffer.Proofs.Session.Connection` — a session, its pipes and what went through them

A `Connection` is a session with its two pipes and a record of what came, what was read, what was
written and what left.  `Connection.Step` lets any of its loops move at any time, closed or not, and
lets the peer, and anybody who may close the session, act in between.

`Faithful` ties the messages to the bytes: the parts of those that were read stand at the front of
what came, one after another, whatever pieces it came in, and what left is those that were written.
-/
import RemoteFramebuffer.Proofs.Session.Loops

namespace RemoteFramebuffer

structure Connection where
  session : Session
  incoming : Pipe
  outward : Pipe
  /-- Every byte that has come from the peer. -/
  arrived : Bytes
  /-- The messages that were read of it. -/
  heard : List Message
  /-- The messages that were written. -/
  said : List Message
  /-- Every byte that has left for the peer. -/
  left : Bytes

namespace Connection

open Session (Inflow Outflow Reads Writes bodyReader)

/-- A session as its handshake left it, with some bytes drawn already. -/
def start (options : SessionOptions) (state : SessionState) (buffer : Bytes)
    (incoming outward : Pipe) : Connection :=
  { session := Session.start options state buffer
    incoming, outward
    arrived := buffer ++ incoming.bytes
    heard := []
    said := []
    left := [] }

variable {c c' : Connection}

/-! ## Moves -/

/-- One move of a loop, of the peer, or of anybody who ends the session. -/
inductive Step : Connection → Connection → Prop
  | arrives {c : Connection} {bytes : Bytes} {incoming : Pipe}
      (put : c.incoming.write bytes = some incoming) :
      Step c { c with incoming, arrived := c.arrived ++ bytes }
  | reads {c : Connection} {session : Session} {incoming : Pipe}
      (move : c.session.read c.incoming = some (session, incoming)) :
      Step c { c with
        session, incoming, heard := c.heard ++ (c.session.completes c.incoming).toList }
  | writes {c : Connection} {session : Session} {outward : Pipe}
      (move : c.session.write c.outward = some (session, outward)) :
      Step c { c with
        session, outward
        said := c.said ++ (c.session.puts c.outward).toList
        left := c.left ++ outward.bytes.drop c.outward.bytes.length }
  | stopsReading (c : Connection) : Step c { c with session := c.session.stopReading }
  | stopsWriting (c : Connection) :
      Step c { c with
        session := (c.session.stopWriting c.outward).1
        outward := (c.session.stopWriting c.outward).2 }
  | closes (c : Connection) : Step c { c with session := c.session.close }
  /-- The peer has said all. -/
  | ends (c : Connection) : Step c { c with incoming := c.incoming.close }
  /-- The peer draws what is there, or has gone. -/
  | draws (c : Connection) : Step c { c with outward := c.outward.drain }
  | leaves (c : Connection) : Step c { c with outward := c.outward.close }
  /-- Both loops have ended and the stream is let go. -/
  | hangsUp {c : Connection} (stopped : c.session.hasStopped = true) :
      Step c { c with incoming := c.incoming.drain.close, outward := c.outward.close }

namespace Step

theorem alike (step : Step c c') : c.session.state.Alike c'.session.state := by
  cases step with
  | reads move => exact (Session.reads_of_read move).alike
  | writes move => exact (Session.writes_of_write move).alike
  | _ => exact .refl _

theorem inflow {taken : List Message} (step : Step c c')
    (h : Inflow c.session c.heard taken) : Inflow c'.session c'.heard taken := by
  cases step with
  | reads move => exact h.reads (Session.reads_of_read move)
  | writes move =>
      obtain ⟨inbound, inlet, -⟩ := (Session.writes_of_write move).inbound
      exact h.congr inbound inlet
  | stopsReading => exact h.stopReading
  | _ => exact h.congr rfl rfl

theorem outflow {offered : List Message} (step : Step c c')
    (h : Outflow c.session offered c.said) : Outflow c'.session offered c'.said := by
  cases step with
  | reads move =>
      obtain ⟨outgoing, isWriting⟩ := (Session.reads_of_read move).outgoing
      exact h.congr outgoing isWriting
  | writes move => exact h.writes (Session.writes_of_write move)
  | stopsWriting => exact .of_stopped rfl h.kept
  | _ => exact h.congr rfl rfl

theorem left (step : Step c c') (h : c.left = c.said.flatMap Message.encode) :
    c'.left = c'.said.flatMap Message.encode := by
  cases step with
  | writes move =>
      have bytes := (Session.writes_of_write move).bytes
      rw [bytes, List.drop_left, h, ← List.flatMap_append]
  | _ => exact h

end Step

end Connection

/-! ## What is still to be read -/

/-- These bytes are still to be read; some of them may have been taken for the message that is being
read. -/
def Session.Pending (s : Session) (incoming : Pipe) (rest : Bytes) : Prop :=
  match s.inlet with
  | .awaiting | .delivering => rest = s.buffer ++ incoming.bytes
  | .reading body => ∃ state code taken, state.role = s.state.role ∧
      rest = code :: (taken ++ (s.buffer ++ incoming.bytes)) ∧
      ∀ more, (bodyReader state code).run (taken ++ more) = body.run more
  | .stopped => True

namespace Session.Pending

variable {s s' : Session} {incoming incoming' : Pipe} {rest : Bytes}

theorem of_stopped (stopped : s.inlet = .stopped) : s.Pending incoming rest := by
  rw [Session.Pending, stopped]
  trivial

theorem congr (h : s.Pending incoming rest) (inlet : s'.inlet = s.inlet)
    (buffer : s'.buffer = s.buffer) (role : s'.state.role = s.state.role)
    (bytes : incoming'.bytes = incoming.bytes) : s'.Pending incoming' rest := by
  unfold Session.Pending at h ⊢
  rw [inlet, buffer, role, bytes]
  exact h

theorem arrives (h : s.Pending incoming rest) {bytes : Bytes}
    (put : incoming'.bytes = incoming.bytes ++ bytes) : s.Pending incoming' (rest ++ bytes) := by
  unfold Session.Pending at h ⊢
  split
  · rename_i idle
    simp only [idle] at h
    rw [h, put, List.append_assoc]
  · rename_i held
    simp only [held] at h
    rw [h, put, List.append_assoc]
  · rename_i body busy
    simp only [busy] at h
    obtain ⟨state, code, taken, role, rfl, same⟩ := h
    refine ⟨state, code, taken, role, ?_, same⟩
    rw [put]
    simp
  · trivial

theorem of_idle (idle : s.inlet = .awaiting ∨ s.inlet = .delivering) :
    s.Pending incoming.drain s.buffer := by
  rcases idle with idle | idle
  · rw [Session.Pending, idle]
    exact (List.append_nil _).symm
  · rw [Session.Pending, idle]
    exact (List.append_nil _).symm

theorem deliver (s : Session) (m : Message) : (s.deliver m).Pending incoming.drain s.buffer := by
  unfold Session.deliver
  dsimp only
  split
  · refine of_idle ?_
    dsimp only
    split
    · exact .inr rfl
    · exact .inl rfl
  · exact of_stopped rfl

/-- A move of the reading loop leaves bytes to be read but for those of the message that it
completes. -/
theorem reads {m : Option Message} (h : s.Pending incoming rest)
    (move : Session.Reads s incoming m s' incoming') :
    (∀ a ∈ m.toList, a.IsReadBy s.state.role) ∧
      ∃ rest', Part.Stand (m.toList.flatMap Message.parts) rest rest' ∧
        s'.Pending incoming' rest' := by
  cases move with
  | resumes held room =>
      refine ⟨nofun, rest, rfl, ?_⟩
      rw [Session.Pending, held] at h
      exact h
  | @begins code rest' idle input =>
      refine ⟨nofun, rest, rfl, s.state, code, [], rfl, ?_, fun _ => rfl⟩
      rw [Session.Pending, idle] at h
      dsimp only at h
      rw [h, input]
      simp [Pipe.drain]
  | @goesOn body body' rest' busy waits =>
      simp only [Session.Pending, busy] at h
      obtain ⟨state, code, taken, role, rfl, same⟩ := h
      obtain ⟨used, split, goesOn⟩ := Reader.run_resume waits
      refine ⟨nofun, _, rfl, state, code, taken ++ used, role, ?_, fun more => ?_⟩
      · rw [split]
        simp [Pipe.drain]
      · rw [List.append_assoc, same, goesOn]
  | @completes body m rest' busy done =>
      simp only [Session.Pending, busy] at h
      obtain ⟨state, code, taken, role, rfl, same⟩ := h
      obtain ⟨used, split, goesOn⟩ := Reader.run_resume done
      have run : (Session.bodyReader state code).run (taken ++ (used ++ rest')) =
          (.ok m, rest') := by
        rw [same, goesOn]
        rfl
      obtain ⟨kind, stand⟩ := Session.stand_of_bodyReader run
      refine ⟨?_, rest', ?_, deliver _ m⟩
      · intro a mem
        obtain rfl := List.mem_singleton.mp mem
        exact role ▸ kind
      · rw [split]
        simpa using stand
  | stops stopped inbound outgoing isWriting state => exact ⟨nofun, rest, rfl, of_stopped stopped⟩

end Session.Pending

namespace Connection

open Session (Inflow Outflow)

variable {c c' : Connection}

/-- What came is the messages that were read, then what is still to be read; what left is the
messages that were written. -/
structure Faithful (c : Connection) : Prop where
  kind : ∀ m ∈ c.heard, m.IsReadBy c.session.state.role
  stand : ∃ rest, Part.Stand (c.heard.flatMap Message.parts) c.arrived rest ∧
    c.session.Pending c.incoming rest
  left : c.left = c.said.flatMap Message.encode

namespace Faithful

theorem start (options : SessionOptions) (state : SessionState) (buffer : Bytes)
    (incoming outward : Pipe) : (Connection.start options state buffer incoming outward).Faithful :=
  ⟨nofun, ⟨_, rfl, rfl⟩, rfl⟩

theorem congr {s : Session} (h : c.Faithful) (inlet : s.inlet = c.session.inlet)
    (buffer : s.buffer = c.session.buffer) (state : s.state = c.session.state) :
    Faithful { c with session := s } := by
  obtain ⟨rest, stand, pending⟩ := h.stand
  have role : s.state.role = c.session.state.role := congrArg SessionState.role state
  refine ⟨fun m mem => ?_, ⟨rest, stand, pending.congr inlet buffer role rfl⟩, h.left⟩
  rw [state]
  exact h.kind m mem

end Faithful

theorem Step.faithful (step : Step c c') (h : c.Faithful) : c'.Faithful := by
  obtain ⟨rest, stand, pending⟩ := h.stand
  have role := step.alike.1
  have left := step.left h.left
  cases step with
  | arrives put =>
      unfold Pipe.write at put
      split at put
      · cases put
      · cases put
        exact ⟨h.kind, ⟨rest ++ _, stand.append_right _, pending.arrives rfl⟩, left⟩
  | reads move =>
      obtain ⟨kind, rest', stand', pending'⟩ := pending.reads (Session.reads_of_read move)
      refine ⟨fun m mem => ?_, ⟨rest', ?_, pending'⟩, left⟩
      · rw [role]
        exact (List.mem_append.mp mem).elim (h.kind m) (kind m)
      · rw [List.flatMap_append]
        exact Part.stand_append.mpr ⟨rest, stand, stand'⟩
  | writes move =>
      obtain ⟨-, inlet, buffer⟩ := (Session.writes_of_write move).inbound
      refine ⟨fun m mem => ?_, ⟨rest, stand, pending.congr inlet buffer role rfl⟩, left⟩
      rw [role]
      exact h.kind m mem
  | stopsReading => exact ⟨h.kind, ⟨rest, stand, .of_stopped rfl⟩, left⟩
  | hangsUp stopped =>
      have inlet := Session.inlet_of_hasStopped stopped
      exact ⟨h.kind, ⟨rest, stand, .of_stopped inlet⟩, left⟩
  | _ => exact ⟨h.kind, ⟨rest, stand, pending.congr rfl rfl rfl rfl⟩, left⟩

end Connection

end RemoteFramebuffer
