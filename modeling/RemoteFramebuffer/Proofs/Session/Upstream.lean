/-
# `RemoteFramebuffer.Proofs.Session.Upstream` — the pixel format between a proxy and its server

## What is proved

However the viewer, the proxy, the streams and the server take turns while the stream to the server
is open (`formats_agree`):

    an update is encoded    after as much of what the back has written as the server had received
                            when it sent the update
    it is parsed            after as much of it as had been written when its type was read

and if what lies between holds no change of the format, for any update so far, both formats are the
same for each of them, and the back hears what the server has sent.

## How it is proved

An `Upstream` is a circuit whose back faces a server that encodes what it sends in the pixel format
of the last change that it has received.  The back adopts a change when it writes it, and settles
the format of an update when it reads its type.  Both go by the list of what the back has written.

`Sound` keeps account of both, and of where the back is in what the server sent (`Place`).  It knows
its place as long as what lies between holds no change, for any update so far (`Uncrossed`).

## What it is not

That formats agree.  Where a change has crossed an update they need not be the same, and the back may
take the end of the update for something else.
-/
import RemoteFramebuffer.Proofs.Session.Adoption
import RemoteFramebuffer.Proofs.Session.Routing

namespace RemoteFramebuffer

/-- Whether the type of a message is read between the one and the other. -/
def Inlet.begins : Inlet → Inlet → Bool
  | .awaiting, .reading _ => true
  | _, _ => false

@[simp] theorem Inlet.begins_self (inlet : Inlet) : inlet.begins inlet = false := by
  cases inlet with
  | _ => rfl

@[simp] theorem Inlet.begins_stopped (inlet : Inlet) : inlet.begins .stopped = false := by
  cases inlet with
  | _ => rfl

namespace Router

namespace Circuit

/-- A step is one of the back, or touches the back in its queues and flags at most. -/
theorem Step.back_cases {c c' : Circuit} (step : Step c c') :
    c.back.Step c'.back ∨ ∃ inbound outgoing isClosed isHeld, c'.back = { c.back with
      session := { c.back.session with inbound, outgoing, isClosed, isHeld } } := by
  cases step with
  | front step => exact .inr ⟨_, _, _, _, rfl⟩
  | back step => exact .inl step
  | passesBackward going moved =>
      obtain ⟨-, target⟩ := relay_frame moved
      simp only [withJoint, joint]
      rw [target]
      exact .inr ⟨_, _, _, _, rfl⟩
  | passesForward going moved =>
      obtain ⟨source, -⟩ := relay_frame moved
      simp only [withJoint, joint]
      rw [source]
      exact .inr ⟨_, _, _, _, rfl⟩
  | stops => exact .inr ⟨_, _, _, _, rfl⟩
  | finishes result => exact .inr ⟨_, _, _, _, rfl⟩

end Circuit

/-! ## A server at the back -/

structure Sent where
  message : ServerMessage
  bytes : Bytes
  /-- The pixel format in which it is encoded. -/
  format : PixelFormat
  /-- How many messages the server had received by then. -/
  received : Nat

def Sent.IsUpdate (s : Sent) : Prop := ∃ update, s.message = .framebufferUpdate update

/-- A message that the back has begun to read. -/
structure Begun where
  /-- The pixel format in which it is parsed. -/
  format : PixelFormat
  /-- How many messages had been written to the server by then. -/
  written : Nat

/-- A circuit whose back faces a server, and what is between them. -/
structure Upstream where
  circuit : Circuit
  /-- The pixel format that the server described first. -/
  first : PixelFormat
  /-- What was written to the server before the loops of the back started. -/
  before : List Message
  /-- What the server has sent and the back's stream does not have yet. -/
  coming : Bytes
  /-- How many of the messages that were written the server has received. -/
  received : Nat
  sent : List Sent
  begun : List Begun

namespace Upstream

def start (filter : Filter) (front : Connection) (options : SessionOptions) (state : SessionState)
    (first : PixelFormat) (before : List Message) : Upstream :=
  { circuit := ⟨Router.start filter, front, Connection.start options state [] Pipe.fresh Pipe.fresh⟩
    first, before
    coming := []
    received := 0
    sent := []
    begun := [] }

def session (u : Upstream) : Session := u.circuit.back.session

/-- Every message that was written to the server. -/
def written (u : Upstream) : List Message := u.before ++ u.circuit.back.said

/-- The format of the last change that the server has received. -/
def serverFormat (u : Upstream) : PixelFormat := u.first.after (u.written.take u.received)

/-- The message that the back begins to read, if it does, when the circuit moves on. -/
def begins (u : Upstream) (circuit : Circuit) : List Begun :=
  if u.session.inlet.begins circuit.back.session.inlet then
    [⟨u.session.state.desktop.format, u.written.length⟩]
  else []

/-- One move of anything: of the circuit, which gets its bytes from the server only as they arrive;
of the two streams; and of the server, which encodes a message in its format, so that the back would
read it in that format. -/
inductive Step : Upstream → Upstream → Prop
  | moves {u : Upstream} {circuit : Circuit} (step : u.circuit.Step circuit)
      (quiet : circuit.back.arrived = u.circuit.back.arrived) :
      Step u { u with circuit, begun := u.begun ++ u.begins circuit }
  | arrives {u : Upstream} {piece rest : Bytes} {incoming : Pipe}
      (split : u.coming = piece ++ rest)
      (put : u.circuit.back.incoming.write piece = some incoming) :
      Step u { u with
        circuit := { u.circuit with
          back := { u.circuit.back with incoming, arrived := u.circuit.back.arrived ++ piece } }
        coming := rest }
  | receives {u : Upstream} (more : u.received < u.written.length) :
      Step u { u with received := u.received + 1 }
  | sends {u : Upstream} {message : ServerMessage} {bytes : Bytes}
      (encoded : (u.session.readOneIn u.serverFormat).Takes bytes (.server message)) :
      Step u { u with
        coming := u.coming ++ bytes
        sent := u.sent ++ [⟨message, bytes, u.serverFormat, u.received⟩] }

inductive Reaches (u : Upstream) : Upstream → Prop
  | refl : Reaches u u
  | step {u' u'' : Upstream} (before : Reaches u u') (last : Step u' u'') : Reaches u u''

/-- The back's `b` is the reading of the server's `s`: both are the first, or the second, and so
on. -/
def Pairs (u : Upstream) (b : Begun) (s : Sent) : Prop :=
  ∃ k : Nat, u.begun[k]? = some b ∧ u.sent[k]? = some s

/-- No change of the format was on its way to the server when it sent an update and written before
the back began to read it. -/
def Uncrossed (u : Upstream) : Prop :=
  ∀ b s, u.Pairs b s → s.IsUpdate →
    ∀ m ∈ (u.written.take b.written).drop s.received, m.pixelFormatChange = none

/-! ## Where the back is in what the server sent -/

/-- The bytes ahead are these messages, each of them readable in its format. -/
def Ahead (read : PixelFormat → Reader SessionError Message) (later : List Sent) (bytes : Bytes) :
    Prop :=
  bytes = later.flatMap Sent.bytes ∧
    ∀ s ∈ later, (read s.format).Takes s.bytes (.server s.message)

def heardAs (sent : List Sent) : List Message := sent.map fun s => .server s.message

theorem heardAs_append (sent sent' : List Sent) :
    heardAs (sent ++ sent') = heardAs sent ++ heardAs sent' := List.map_append

/-- Where the reading loop is when it has begun to read `count` messages and has heard some: between
two messages that were sent, in the middle of one of them, or at its end. -/
inductive Place (read : PixelFormat → Reader SessionError Message) (sent : List Sent) (count : Nat)
    (heard : List Message) (ahead : Bytes) : Inlet → Prop
  | between {inlet : Inlet} {past later : List Sent}
      (idle : inlet = .awaiting ∨ inlet = .delivering) (split : sent = past ++ later)
      (begun : count = past.length) (same : heard = heardAs past) (next : Ahead read later ahead) :
      Place read sent count heard ahead inlet
  | within {body : Reader SessionError Message} {past later : List Sent} {s : Sent}
      {left rest : Bytes} (split : sent = past ++ s :: later) (begun : count = past.length + 1)
      (same : heard = heardAs past) (takes : body.Takes left (.server s.message))
      (whole : ahead = left ++ rest) (next : Ahead read later rest) :
      Place read sent count heard ahead (.reading body)
  | stopped (begun : count ≤ sent.length) (some : heard <+: heardAs sent) :
      Place read sent count heard ahead .stopped

namespace Place

variable {read : PixelFormat → Reader SessionError Message} {sent : List Sent} {count : Nat}
  {heard : List Message} {ahead : Bytes} {inlet : Inlet}

theorem count_le (h : Place read sent count heard ahead inlet) : count ≤ sent.length := by
  cases h with
  | between idle split begun same next =>
      rw [split, begun, List.length_append]
      omega
  | within split begun same takes whole next =>
      rw [split, begun, List.length_append, List.length_cons]
      omega
  | stopped begun some => exact begun

theorem heard_prefix (h : Place read sent count heard ahead inlet) : heard <+: heardAs sent := by
  cases h with
  | between idle split begun same next =>
      rw [split, same, heardAs_append]
      exact List.prefix_append _ _
  | within split begun same takes whole next =>
      rw [split, same, heardAs_append]
      exact List.prefix_append _ _
  | stopped begun some => exact some

theorem stop (h : Place read sent count heard ahead inlet) (bytes : Bytes) :
    Place read sent count heard bytes .stopped :=
  .stopped h.count_le h.heard_prefix

theorem sends (h : Place read sent count heard ahead inlet) {s : Sent}
    (takes : (read s.format).Takes s.bytes (.server s.message)) :
    Place read (sent ++ [s]) count heard (ahead ++ s.bytes) inlet := by
  have further {later : List Sent} {bytes : Bytes} (next : Ahead read later bytes) :
      Ahead read (later ++ [s]) (bytes ++ s.bytes) := by
    refine ⟨by simp [next.1], fun s' mem => ?_⟩
    rcases List.mem_append.mp mem with mem | mem
    · exact next.2 s' mem
    · obtain rfl := List.mem_singleton.mp mem
      exact takes
  cases h with
  | between idle split begun same next =>
      exact .between idle (by rw [split, List.append_assoc]) begun same (further next)
  | within split begun same takes whole next =>
      exact .within (by rw [split, List.append_assoc, List.cons_append]) begun same takes
        (by rw [whole, List.append_assoc]) (further next)
  | stopped begun some =>
      refine .stopped ?_ (some.trans ?_)
      · rw [List.length_append]
        omega
      · rw [heardAs_append]
        exact List.prefix_append _ _

/-- The type of the next message is read.  If it is an update, it has to be read in the format it
was encoded in. -/
theorem begins {s : Session} {incoming : Pipe} {coming rest : Bytes} {code : UInt8}
    (h : Place s.readOneIn sent count heard (s.buffer ++ incoming.bytes ++ coming) .awaiting)
    (input : s.buffer ++ incoming.bytes = code :: rest)
    (agrees : ∀ x, sent[count]? = some x → x.IsUpdate → s.state.desktop.format = x.format) :
    Place s.readOneIn sent (count + 1) heard (rest ++ coming)
      (.reading (Session.bodyReader s.state code)) := by
  cases h with
  | @between _ past later idle split begun same next =>
      obtain ⟨ahead, takes⟩ := next
      rw [input, List.cons_append] at ahead
      cases later with
      | nil => cases ahead
      | cons x later =>
          obtain ⟨code', body, bytes, bodyTakes⟩ :=
            Session.takes_readOne (takes x List.mem_cons_self)
          rw [List.flatMap_cons, bytes, List.cons_append] at ahead
          obtain ⟨rfl, whole⟩ := List.cons.inj ahead
          refine .within split (by rw [begun]) same ?_ whole
            ⟨rfl, fun s mem => takes s (List.mem_cons_of_mem _ mem)⟩
          by_cases update : x.IsUpdate
          · have agrees := agrees x (by simp [split, begun]) update
            have reads : Session.bodyReader s.state =
                Session.bodyReader (s.state.setPixelFormat x.format) :=
              Session.bodyReader_congr rfl (fun _ => agrees) rfl
            rw [reads]
            exact bodyTakes
          · have other : code ≠ 0 := by
              rintro rfl
              have zero := Session.code_of_bodyReader (bodyTakes [])
              exact update (ServerMessage.isUpdate_of_code zero)
            rw [← Session.bodyReader_of_ne_zero other x.format]
            exact bodyTakes

theorem of_reading {body : Reader SessionError Message}
    (h : Place read sent count heard ahead (.reading body)) :
    ∃ past s later left rest, sent = past ++ s :: later ∧ count = past.length + 1 ∧
      heard = heardAs past ∧ body.Takes left (.server s.message) ∧ ahead = left ++ rest ∧
      Ahead read later rest := by
  cases h with
  | between idle =>
      rcases idle with idle | idle
      · cases idle
      · cases idle
  | within split begun same takes whole next =>
      exact ⟨_, _, _, _, _, split, begun, same, takes, whole, next⟩

theorem goesOn {body body' : Reader SessionError Message} {input rest coming : Bytes}
    (h : Place read sent count heard (input ++ coming) (.reading body))
    (waits : body.resume input = (body', rest)) :
    Place read sent count heard (rest ++ coming) (.reading body') := by
  obtain ⟨past, s, later, left, after, split, begun, same, takes, whole, next⟩ := h.of_reading
  obtain ⟨left, takes, whole⟩ := takes.resume waits whole
  exact .within split begun same takes whole next

theorem completes {body : Reader SessionError Message} {m : Message} {input rest coming : Bytes}
    (h : Place read sent count heard (input ++ coming) (.reading body))
    (done : body.resume input = (.done (.ok m), rest)) :
    Place read sent count (heard ++ [m]) (rest ++ coming) .awaiting := by
  obtain ⟨past, s, later, left, after, split, begun, same, takes, whole, next⟩ :=
    (h.goesOn done).of_reading
  obtain ⟨rfl, rfl⟩ := Reader.takes_done takes
  have split : sent = (past ++ [s]) ++ later := by simp [split]
  refine .between (.inl rfl) split (by simp [begun]) ?_ ?_
  · rw [same, heardAs_append]
    rfl
  · rw [whole]
    exact next

/-- A move of the reading loop.  If it begins to read an update, it has to do so in the format it
was encoded in. -/
theorem reads {s s' : Session} {incoming incoming' : Pipe} {coming : Bytes} {m : Option Message}
    (move : Session.Reads s incoming m s' incoming')
    (h : Place s.readOneIn sent count heard (s.buffer ++ incoming.bytes ++ coming) s.inlet)
    (agrees : s.inlet.begins s'.inlet = true → ∀ x, sent[count]? = some x → x.IsUpdate →
      s.state.desktop.format = x.format) :
    Place s.readOneIn sent (count + (s.inlet.begins s'.inlet).toNat) (heard ++ m.toList)
      (s'.buffer ++ incoming'.bytes ++ coming) s'.inlet := by
  cases move with
  | resumes held room =>
      rw [held] at h ⊢
      cases h with
      | between _ split begun same next =>
          exact .between (.inl rfl) split begun (by simp [same]) next
  | begins idle input =>
      rw [idle] at h agrees ⊢
      have later := h.begins input (agrees rfl)
      simpa [Inlet.begins, Pipe.drain] using later
  | goesOn busy waits =>
      rw [busy] at h ⊢
      have later := h.goesOn waits
      simpa [Inlet.begins, Pipe.drain] using later
  | @completes body m rest busy done =>
      rw [busy] at h ⊢
      have later := h.completes done
      unfold Session.deliver
      dsimp only
      split
      · cases later with
        | between _ split begun same next =>
            refine .between ?_ split begun same (by simpa [Pipe.drain] using next)
            split
            · exact .inr rfl
            · exact .inl rfl
      · exact later.stop _
  | stops stopped inbound outgoing isWriting state =>
      simpa [stopped] using h.stop _

/-- A move of the connection, which brings nothing from the server. -/
theorem connection {c c' : Connection} {coming : Bytes} (step : c.Step c')
    (quiet : c'.arrived = c.arrived)
    (h : Place c.session.readOneIn sent count c.heard
      (c.session.buffer ++ c.incoming.bytes ++ coming) c.session.inlet)
    (agrees : c.session.inlet.begins c'.session.inlet = true → ∀ x, sent[count]? = some x →
      x.IsUpdate → c.session.state.desktop.format = x.format) :
    Place c.session.readOneIn sent (count + (c.session.inlet.begins c'.session.inlet).toNat)
      c'.heard (c'.session.buffer ++ c'.incoming.bytes ++ coming) c'.session.inlet := by
  cases step with
  | @arrives bytes incoming put =>
      have nothing : bytes = [] := by
        simpa using quiet
      unfold Pipe.write at put
      split at put
      · cases put
      · cases put
        simpa [nothing] using h
  | reads move => exact h.reads (Session.reads_of_read move) agrees
  | writes move =>
      obtain ⟨-, inlet, buffer⟩ := (Session.writes_of_write move).inbound
      simpa [inlet, buffer] using h
  | stopsReading => simpa [Session.stopReading] using h.stop _
  | hangsUp stopped =>
      have inlet := Session.inlet_of_hasStopped stopped
      rw [inlet] at h
      simpa [inlet] using h.stop _
  | _ => simpa [Session.stopWriting, Session.close, Pipe.close] using h

end Place

/-! ## What stays true -/

/-- What the two sides know, and where they are as long as no change has crossed an update. -/
structure Sound (u : Upstream) : Prop where
  role : u.session.state.role ≠ .server
  faithful : u.circuit.back.Faithful
  received : u.received ≤ u.written.length
  adopted : u.circuit.back.outward.isClosed = false →
    u.session.state.desktop.format = u.first.after u.written
  begun : ∀ b ∈ u.begun, b.written ≤ u.written.length ∧
    (u.circuit.back.outward.isClosed = false →
      b.format = u.first.after (u.written.take b.written))
  sent : ∀ s ∈ u.sent, s.received ≤ u.written.length ∧
    s.format = u.first.after (u.written.take s.received)
  place : u.circuit.back.outward.isClosed = false → u.Uncrossed →
    Place u.session.readOneIn u.sent u.begun.length u.circuit.back.heard
      (u.session.buffer ++ u.circuit.back.incoming.bytes ++ u.coming) u.session.inlet ∧
    ∀ b s, u.Pairs b s → s.IsUpdate → b.format = s.format

namespace Sound

variable {u u' : Upstream}

theorem start {filter : Filter} {front : Connection} {options : SessionOptions}
    {state : SessionState} {first : PixelFormat} {before : List Message}
    (faces : state.role = .client) (adopted : state.desktop.format = first.after before) :
    (Upstream.start filter front options state first before).Sound := by
  refine ⟨?_, .start _ _ _ _ _, Nat.zero_le _, fun _ => ?_, nofun, nofun, fun _ _ => ⟨?_, ?_⟩⟩
  · show state.role ≠ .server
    rw [faces]
    exact nofun
  · show state.desktop.format = first.after (before ++ [])
    rw [List.append_nil]
    exact adopted
  · exact .between (.inl rfl) (List.append_nil _).symm rfl rfl ⟨rfl, nofun⟩
  · rintro b s ⟨k, none, -⟩
    cases none

/-- The changes that had been written by then stay the same when more is written. -/
theorem take_written {u u' : Upstream} {more : List Message} {count : Nat}
    (grows : u'.written = u.written ++ more) (le : count ≤ u.written.length) :
    u'.written.take count = u.written.take count := by
  rw [grows, List.take_append_of_le_length le]

theorem uncrossed_of {more : List Message} {more' : List Begun} {more'' : List Sent}
    (h : u.Sound) (uncrossed : u'.Uncrossed) (written : u'.written = u.written ++ more)
    (begun : u'.begun = u.begun ++ more') (sent : u'.sent = u.sent ++ more'') : u.Uncrossed := by
  rintro b s ⟨k, hb, hs⟩ update m mem
  have pair : u'.Pairs b s := by
    refine ⟨k, ?_, ?_⟩
    · rw [begun, List.getElem?_append_left (List.getElem?_eq_some_iff.mp hb).1]
      exact hb
    · rw [sent, List.getElem?_append_left (List.getElem?_eq_some_iff.mp hs).1]
      exact hs
  refine uncrossed b s pair update m ?_
  rw [take_written written (h.begun b (List.mem_of_getElem? hb)).1]
  exact mem

theorem length_begins (u : Upstream) (circuit : Circuit) :
    (u.begins circuit).length = (u.session.inlet.begins circuit.back.session.inlet).toNat := by
  unfold begins
  split
  · rename_i begins
    rw [begins]
    rfl
  · rename_i none
    simp [none]

theorem begins_getElem? {circuit : Circuit} {k : Nat} {b : Begun}
    (h : (u.begins circuit)[k]? = some b) :
    k = 0 ∧ b ∈ u.begins circuit ∧ b = ⟨u.session.state.desktop.format, u.written.length⟩ := by
  have mem := List.mem_of_getElem? h
  have short : k < (u.begins circuit).length := (List.getElem?_eq_some_iff.mp h).1
  refine ⟨?_, mem, ?_⟩
  · unfold begins at short
    split at short
    · simpa using short
    · simp at short
  · unfold begins at mem
    split at mem
    · exact List.mem_singleton.mp mem
    · cases mem

/-- The circuit moves on; what is left to show is where the back is then. -/
theorem of_moves {circuit : Circuit} {more : List Message} (h : u.Sound)
    (alike : u.session.state.Alike circuit.back.session.state) (faithful : circuit.back.Faithful)
    (said : circuit.back.said = u.circuit.back.said ++ more)
    (adopts : circuit.back.outward.isClosed = false → u.circuit.back.outward.isClosed = false ∧
      circuit.back.session.state.desktop.format = u.session.state.desktop.format.after more)
    (place : u.circuit.back.outward.isClosed = false → u.Uncrossed →
      Upstream.Uncrossed { u with circuit, begun := u.begun ++ u.begins circuit } →
      Place circuit.back.session.readOneIn u.sent (u.begun ++ u.begins circuit).length
        circuit.back.heard
        (circuit.back.session.buffer ++ circuit.back.incoming.bytes ++ u.coming)
        circuit.back.session.inlet ∧
      ∀ b ∈ u.begins circuit, ∀ s, u.sent[u.begun.length]? = some s → s.IsUpdate →
        b.format = s.format) :
    Sound { u with circuit, begun := u.begun ++ u.begins circuit } := by
  have written : Upstream.written { u with circuit, begun := u.begun ++ u.begins circuit } =
      u.written ++ more := by
    simp [Upstream.written, said]
  have longer {count : Nat} (le : count ≤ u.written.length) :
      count ≤ (u.written ++ more).length := by
    rw [List.length_append]
    omega
  refine ⟨?_, faithful, ?_, fun isOpen => ?_, fun b mem => ?_, fun s mem => ?_,
    fun isOpen uncrossed => ?_⟩
  · show circuit.back.session.state.role ≠ .server
    rw [alike.1]
    exact h.role
  · rw [written]
    exact longer h.received
  · obtain ⟨wasOpen, format⟩ := adopts isOpen
    rw [written, PixelFormat.after_append, ← h.adopted wasOpen]
    exact format
  · rw [written]
    rcases List.mem_append.mp mem with mem | mem
    · obtain ⟨le, format⟩ := h.begun b mem
      rw [List.take_append_of_le_length le]
      exact ⟨longer le, fun isOpen => format (adopts isOpen).1⟩
    · obtain ⟨k, at'⟩ := List.mem_iff_getElem?.mp mem
      obtain ⟨-, -, rfl⟩ := begins_getElem? at'
      refine ⟨longer (Nat.le_refl _), fun isOpen => ?_⟩
      rw [List.take_append_of_le_length (Nat.le_refl _), List.take_length]
      exact h.adopted (adopts isOpen).1
  · rw [written, List.take_append_of_le_length (h.sent s mem).1]
    exact ⟨longer (h.sent s mem).1, (h.sent s mem).2⟩
  · have wasOpen := (adopts isOpen).1
    have before := h.uncrossed_of uncrossed written rfl (List.append_nil _).symm
    obtain ⟨place, agrees⟩ := place wasOpen before uncrossed
    refine ⟨place, ?_⟩
    rintro b s ⟨k, hb, hs⟩ update
    by_cases old : k < u.begun.length
    · rw [List.getElem?_append_left old] at hb
      exact (h.place wasOpen before).2 b s ⟨k, hb, hs⟩ update
    · rw [List.getElem?_append_right (by omega)] at hb
      obtain ⟨zero, mem, -⟩ := begins_getElem? hb
      obtain rfl : k = u.begun.length := by omega
      exact agrees b mem s hs update

/-- The format is that of the next update, if no change has crossed it. -/
theorem agrees (h : u.Sound) (isOpen : u.circuit.back.outward.isClosed = false) {s : Sent}
    (next : u.sent[u.begun.length]? = some s)
    (plain : ∀ m ∈ u.written.drop s.received, m.pixelFormatChange = none) :
    u.session.state.desktop.format = s.format := by
  have format := (h.sent s (List.mem_of_getElem? next)).2
  calc u.session.state.desktop.format
      = u.first.after u.written := h.adopted isOpen
    _ = u.first.after (u.written.take s.received ++ u.written.drop s.received) := by
        rw [List.take_append_drop]
    _ = s.format := by
        rw [PixelFormat.after_append, PixelFormat.after_of_unchanged plain, format]

/-- A move of the back's connection, which brings nothing from the server. -/
theorem connection (h : u.Sound) {circuit : Circuit} (step : u.circuit.back.Step circuit.back)
    (quiet : circuit.back.arrived = u.circuit.back.arrived) :
    Sound { u with circuit, begun := u.begun ++ u.begins circuit } := by
  obtain ⟨accepted, more, said, adopts⟩ := step.adopts h.faithful h.role
  refine h.of_moves step.alike (step.faithful h.faithful) said adopts
    fun wasOpen before uncrossed => ?_
  obtain ⟨place, -⟩ := h.place wasOpen before
  have read : circuit.back.session.readOneIn = u.session.readOneIn :=
    Session.readOneIn_congr accepted step.alike
  have agrees : u.session.inlet.begins circuit.back.session.inlet = true →
      ∀ s, u.sent[u.begun.length]? = some s → s.IsUpdate →
        u.session.state.desktop.format = s.format := by
    intro begins s next update
    refine h.agrees wasOpen next fun m mem => ?_
    refine uncrossed ⟨u.session.state.desktop.format, u.written.length⟩ s
      ⟨u.begun.length, ?_, next⟩ update m ?_
    · simp [Upstream.begins, begins]
    · have same : Upstream.written { u with circuit, begun := u.begun ++ u.begins circuit } =
          u.written ++ more := by
        simp [Upstream.written, said]
      rw [same, List.take_append_of_le_length (Nat.le_refl _), List.take_length]
      exact mem
  refine ⟨?_, fun b mem s next update => ?_⟩
  · rw [List.length_append, length_begins, read]
    exact place.connection step quiet agrees
  · unfold Upstream.begins at mem
    split at mem
    · rename_i begins
      obtain rfl := List.mem_singleton.mp mem
      exact agrees begins s next update
    · cases mem

/-- A move of the circuit that touches the back in its queues and flags at most. -/
theorem elsewhere (h : u.Sound) {circuit : Circuit} {inbound outgoing : Queue Message}
    {isClosed isHeld : Bool}
    (back : circuit.back = { u.circuit.back with
      session := { u.circuit.back.session with inbound, outgoing, isClosed, isHeld } }) :
    Sound { u with circuit, begun := u.begun ++ u.begins circuit } := by
  have none : u.begins circuit = [] := by
    have same : circuit.back.session.inlet = u.session.inlet := by rw [back]; rfl
    unfold Upstream.begins
    rw [same, Inlet.begins_self]
    rfl
  have said : circuit.back.said = u.circuit.back.said ++ [] := by
    rw [back]
    exact (List.append_nil _).symm
  refine h.of_moves ?_ ?_ said ?_ fun wasOpen before _ => ?_
  · rw [back]
    exact .refl _
  · rw [back]
    exact h.faithful.congr rfl rfl rfl
  · rw [back]
    exact fun isOpen => ⟨isOpen, rfl⟩
  · rw [none, List.append_nil, back]
    exact ⟨(h.place wasOpen before).1, nofun⟩

/-- **Every step keeps it.** -/
theorem step (h : u.Sound) (step : Step u u') : u'.Sound := by
  cases step with
  | moves step quiet =>
      rcases step.back_cases with step | ⟨_, _, _, _, back⟩
      · exact h.connection step quiet
      · exact h.elsewhere back
  | @arrives piece rest incoming split put =>
      have faithful := (Connection.Step.arrives put).faithful h.faithful
      unfold Pipe.write at put
      split at put
      · cases put
      · cases put
        refine { h with faithful, place := fun wasOpen before => ?_ }
        obtain ⟨place, agrees⟩ := h.place wasOpen before
        refine ⟨?_, agrees⟩
        rw [split] at place
        simpa [Upstream.session] using place
  | receives more => exact { h with received := more }
  | @sends message bytes encoded =>
      refine { h with sent := fun s mem => ?_, place := fun wasOpen uncrossed => ?_ }
      · rcases List.mem_append.mp mem with mem | mem
        · exact h.sent s mem
        · obtain rfl := List.mem_singleton.mp mem
          exact ⟨h.received, rfl⟩
      · have before := h.uncrossed_of uncrossed (List.append_nil _).symm
          (List.append_nil _).symm rfl
        obtain ⟨place, agrees⟩ := h.place wasOpen before
        refine ⟨?_, ?_⟩
        · have later := place.sends (s := ⟨message, bytes, u.serverFormat, u.received⟩) encoded
          rwa [List.append_assoc _ u.coming] at later
        · rintro b s ⟨k, hb, hs⟩ update
          have old : k < u.sent.length :=
            Nat.lt_of_lt_of_le (List.getElem?_eq_some_iff.mp hb).1 place.count_le
          rw [List.getElem?_append_left old] at hs
          exact agrees b s ⟨k, hb, hs⟩ update

theorem reaches (h : u.Sound) (reached : u.Reaches u') : u'.Sound := by
  induction reached with
  | refl => exact h
  | step _ last ih => exact ih.step last

end Sound

/-- **An update is parsed in the format it was encoded in, unless a change has crossed it.**

However the viewer, the proxy, the streams and the server take turns, as long as the stream to the
server is open: the back parses a message in the format of the last change that it had written when
it read the type, and the server encodes one in the format of the last change that it had received.
If no change was on its way to the server when it sent an update that the back has begun to read,
both are the same for all of these updates, and the back hears what the server has sent. -/
theorem formats_agree {filter : Filter} {front : Connection} {options : SessionOptions}
    {state : SessionState} {first : PixelFormat} {before : List Message}
    (faces : state.role = .client) (adopted : state.desktop.format = first.after before)
    {u : Upstream} (reached : (start filter front options state first before).Reaches u)
    (isOpen : u.circuit.back.outward.isClosed = false) :
    (∀ b ∈ u.begun, b.format = u.first.after (u.written.take b.written)) ∧
    (∀ s ∈ u.sent, s.format = u.first.after (u.written.take s.received)) ∧
    (u.Uncrossed →
      (∀ b s, u.Pairs b s → s.IsUpdate → b.format = s.format) ∧
      u.begun.length ≤ u.sent.length ∧ u.circuit.back.heard <+: heardAs u.sent) := by
  have sound : u.Sound := (Sound.start faces adopted).reaches reached
  refine ⟨fun b mem => (sound.begun b mem).2 isOpen, fun s mem => (sound.sent s mem).2,
    fun uncrossed => ?_⟩
  obtain ⟨place, agree⟩ := sound.place isOpen uncrossed
  exact ⟨agree, place.count_le, place.heard_prefix⟩

/-! ## A viewer that asks for a format -/

/-- A viewer, a proxy and a server whose format is the usual one. -/
def usual : Upstream :=
  start ⟨[], []⟩
    (Connection.start .standard (SessionState.make .server .v38 .none EncodingSet.standard) []
      Pipe.fresh Pipe.fresh)
    .standard (SessionState.make .client .v38 .none EncodingSet.standard) .rgb888 []

/-- The viewer has asked for one byte per pixel, and the proxy has written this to the server. -/
def asked : Upstream :=
  let change := ClientMessage.setPixelFormat .indexed8
  let front := usual.circuit.front
  let back := usual.circuit.back
  { usual with
    circuit := { usual.circuit with
      front := { front with
        session := { front.session with state := front.session.state.setPixelFormat .indexed8 }
        arrived := change.encode
        heard := [.client change] }
      back := { back with
        session := { back.session with state := back.session.state.setPixelFormat .indexed8 }
        outward := ⟨change.encode, false⟩
        said := [.client change]
        left := change.encode } } }

theorem reaches_asked : usual.Reaches asked := by
  have arrives : Connection.Step usual.circuit.front _ :=
    @Connection.Step.arrives _ (ClientMessage.setPixelFormat .indexed8).encode _ rfl
  exact .step (.step (.step (.step (.step .refl
    (.moves (.front arrives) rfl))
    (.moves (.front (.reads rfl)) rfl))
    (.moves (.front (.reads rfl)) rfl))
    (.moves (.passesBackward rfl rfl) rfl))
    (.moves (.back (.writes rfl)) rfl)

/-- An update of one pixel, with the bytes of the pixel. -/
def onePixel (bytes : Bytes) : FramebufferUpdate where
  count := 1
  rects := [⟨⟨⟨0, 0, 1, 1⟩, 0⟩, ⟨.raw, bytes⟩⟩]

/-- The server has received a change before it sends an update. -/
theorem formats_agree_received : ∃ u, usual.Reaches u ∧
    u.circuit.back.outward.isClosed = false ∧ u.Uncrossed ∧
    u.begun = [⟨.indexed8, 1⟩] ∧ u.circuit.back.heard <+: heardAs u.sent := by
  have takes : (asked.session.readOneIn .indexed8).Takes
      [0, 0, 0, 1, 0, 0, 0, 0, 0, 1, 0, 1, 0, 0, 0, 0, 17]
      (.server (.framebufferUpdate (onePixel [17]))) :=
    @Reader.run_append _ _ _ _ [] _ rfl
  obtain ⟨u, reached, isOpen, uncrossed, begun⟩ : ∃ u, usual.Reaches u ∧
      u.circuit.back.outward.isClosed = false ∧ u.Uncrossed ∧ u.begun = [⟨.indexed8, 1⟩] := by
    refine ⟨_, .step (.step (.step (.step (.step reaches_asked
      (.receives (Nat.lt_succ_self 0)))
      (.sends takes))
      (.arrives (List.append_nil _).symm rfl))
      (.moves (.back (.reads rfl)) rfl))
      (.moves (.back (.reads rfl)) rfl), rfl, ?_, rfl⟩
    rintro b s ⟨k, hb, hs⟩ -
    cases k with
    | zero =>
        cases hb
        cases hs
        nofun
    | succ k => cases hb
  obtain ⟨-, -, agree⟩ := formats_agree rfl rfl reached isOpen
  exact ⟨u, reached, isOpen, uncrossed, begun, (agree uncrossed).2.2⟩

/-- A change is on its way while the server sends an update: the back takes one byte for the pixel
and the rest of it for what follows. -/
theorem formats_differ : ∃ u, usual.Reaches u ∧ u.circuit.back.outward.isClosed = false ∧
    (∃ b s, u.Pairs b s ∧ s.IsUpdate ∧ b.format = .indexed8 ∧ s.format = .rgb888) ∧
    heardAs u.sent = [.server (.framebufferUpdate (onePixel [17, 34, 51, 68]))] ∧
    u.circuit.back.heard = [.server (.framebufferUpdate (onePixel [17]))] ∧
    u.session.buffer = [34, 51, 68] := by
  have takes : (asked.session.readOneIn .rgb888).Takes
      [0, 0, 0, 1, 0, 0, 0, 0, 0, 1, 0, 1, 0, 0, 0, 0, 17, 34, 51, 68]
      (.server (.framebufferUpdate (onePixel [17, 34, 51, 68]))) :=
    @Reader.run_append _ _ _ _ [] _ rfl
  refine ⟨_, .step (.step (.step (.step reaches_asked
    (.sends takes))
    (.arrives (List.append_nil _).symm rfl))
    (.moves (.back (.reads rfl)) rfl))
    (.moves (.back (.reads rfl)) rfl), rfl, ?_, rfl, rfl, rfl⟩
  exact ⟨_, _, ⟨0, rfl, rfl⟩, ⟨_, rfl⟩, rfl, rfl⟩

end Upstream

end Router

end RemoteFramebuffer
