/-
# `RemoteFramebuffer.Proofs.Session.Delivery` — the loops deliver everything, in order

## What is proved

Of every session, stream and script of messages that its owner sends (`delivers_in_order`):

    nobody but its loops closes it     every run ends, and the owner has received the messages of
                                       the stream in order, and then the error that it ends with
    anybody may close it, any time     what was flushed is what is written of the first so many of
                                       the messages that were accepted, in order

The messages of a stream are what its bytes are read as in the state at the start (`Carries`), so
that the script of the first line asks for no pixel format.

## How it is proved

While nobody but its loops closes a session, a message of the stream is in one of three places:

    received by the owner  ++  in the inbound queue  ++  still to be read (`Foretells`)

`Going` says this of a session that reads, and `Over` of one whose stream has failed: nothing is
left to be read then, and what is in the queue can still be received.  `Steady` holds after every
step, and where no step is left everything has been received (`Steady.over_of_isOver`).

What leaves needs no such care: `Said` holds whoever closes the session.
-/
import RemoteFramebuffer.Proofs.Session.Traffic

namespace RemoteFramebuffer

open Reader (Foretells)

namespace Session

variable {s s' : Session} {outward outward' : Pipe} {m : Message}

/-! ## Moves of an open session -/

theorem fail_of_open (isOpen : s.isClosed = false) (e : SessionError) :
    s.fail e = { s with isClosed := true, errors := s.errors ++ [e] } := by
  simp [fail, isOpen]

theorem deliver_of_held (held : s.isHeld = true) (m : Message) :
    s.deliver m = { s with
      state := s.state.afterReceived m
      inbound := s.inbound.offer m
      inlet := if (s.inbound.offer m).isHeldUp then .delivering else .awaiting } := by
  simp [deliver, held]

theorem idle_deliver (held : s.isHeld = true) (m : Message) :
    (s.deliver m).inlet = .awaiting ∧ (s.deliver m).inbound.waiting = none ∨
      (s.deliver m).inlet = .delivering := by
  rw [deliver_of_held held]
  dsimp only
  split
  · exact .inr rfl
  · rename_i free
    exact .inl ⟨rfl, by simpa [Queue.isHeldUp] using free⟩

/-- While the owner is there and the peer listens, the writing loop takes message by message. -/
theorem write_of_open (held : s.isHeld = true)
    (isOpen : s.isWriting = true → outward.isClosed = false)
    (h : s.write outward = some (s', outward')) :
    ∃ m outgoing, s.isWriting = true ∧ s.outgoing.take = some (m, outgoing) ∧
      s' = { s with outgoing, state := s.state.afterSent m } ∧
      outward' = { outward with bytes := outward.bytes ++ m.encode } := by
  cases stroke_of_write h with
  | puts goesOn next _ => exact ⟨_, _, goesOn, next, rfl, rfl⟩
  | breaks goesOn next closed => cases (isOpen goesOn).symm.trans closed
  | ends goesOn empty alone => cases held.symm.trans alone

/-! ## What the owner is told -/

theorem recv_eq_closed : s.recv.1 = .closed ↔ s.inbound.take = none ∧ s.inlet = .stopped := by
  unfold recv
  cases next : s.inbound.take with
  | some first =>
      obtain ⟨m, inbound⟩ := first
      simp
  | none =>
      cases inlet : s.inlet with
      | _ => simp [Inlet.isStopped]

theorem outgoing_recv (got : s.recv = (.message m, s')) :
    s'.outgoing = s.outgoing ∧ s'.isWriting = s.isWriting := by
  obtain ⟨inbound, -, rfl⟩ := take_of_recv got
  exact ⟨rfl, rfl⟩

end Session

namespace Traffic

variable {t t' : Traffic} {closing : Bool}

/-! ## Where the messages are -/

/-- The messages that the reading loop has read. -/
def seen (t : Traffic) : List Message := t.received ++ t.session.inbound.toList

def unread (t : Traffic) : Bytes := t.session.buffer ++ t.incoming.bytes ++ t.coming

def one (t : Traffic) : Reader SessionError Message :=
  Session.readOne t.session.accepted t.session.state

/-- The session reads, and what it has not seen of the messages is still to be read. -/
structure Going (messages : List Message) (stop : Bytes) (t : Traffic) : Prop where
  isOpen : t.session.isClosed = false
  errors : t.session.errors = []
  isWriting : t.session.isWriting = true
  moves : t.session.inlet ≠ .stopped
  room : t.session.inlet ≠ .delivering → t.session.inbound.waiting = none
  ahead : ∃ remaining, messages = t.seen ++ remaining ∧
    Foretells t.one stop t.session.next t.unread remaining

/-- The stream has failed, after all of the messages. -/
structure Over (messages : List Message) (stop : Bytes) (e : SessionError) (t : Traffic) :
    Prop where
  stopped : t.session.inlet = .stopped
  closed : t.session.isClosed = true
  errors : t.session.errors = [e]
  all : t.seen = messages
  unread : ∀ e' rest, t.one.resume stop = (.done (.error e'), rest) → t.unread = rest

/-- Nothing was sent, and the state is what the messages that were read have made of it. -/
structure Silent (state : SessionState) (t : Traffic) : Prop where
  script : t.script = []
  outgoing : t.session.outgoing.toList = []
  state : t.session.state = t.seen.foldl SessionState.afterReceived state

/-- What holds while nobody but the loops closes the session, and no pixel format is sent. -/
structure Steady (first : Traffic) (messages : List Message) (stop : Bytes) (e : SessionError)
    (t : Traffic) : Prop where
  isHeld : t.session.isHeld = true
  role : t.session.state.role = first.session.state.role
  same : t.one = first.one
  ends : t.ends = first.ends
  plain : ∀ format, .client (.setPixelFormat format) ∉ t.script ++ t.session.outgoing.toList
  outward : t.session.isWriting = true → t.outward.isClosed = false
  incoming : t.incoming.isClosed = true → t.coming = [] ∧ t.ends = true
  silent : first.script = [] → Silent first.session.state t
  phase : Going messages stop t ∨ Over messages stop e t

variable {first : Traffic} {messages : List Message} {stop : Bytes} {e : SessionError}
  {session : Session} {incoming outward : Pipe}

theorem Silent.congr {state : SessionState} (h : Silent state t) (script : t'.script = t.script)
    (outgoing : t'.session.outgoing = t.session.outgoing) (seen : t'.seen = t.seen)
    (same : t'.session.state = t.session.state) : Silent state t' := by
  refine ⟨script.trans h.script, ?_, ?_⟩
  · rw [outgoing]
    exact h.outgoing
  · rw [same, seen]
    exact h.state

theorem resume_unread {r : Reader SessionError Message} {rest : Bytes}
    (h : t.session.next.resume (t.session.buffer ++ t.incoming.bytes) = (r, rest)) :
    t.session.next.resume t.unread = r.resume (rest ++ [] ++ t.coming) := by
  rw [List.append_nil]
  exact Reader.resume_append h t.coming

/-- A step that leaves the reading loop where it is. -/
structure Unmoved (t t' : Traffic) : Prop where
  isClosed : t'.session.isClosed = t.session.isClosed
  errors : t'.session.errors = t.session.errors
  isWriting : t'.session.isWriting = t.session.isWriting
  inlet : t'.session.inlet = t.session.inlet
  one : t'.one = t.one
  seen : t'.seen = t.seen
  unread : t'.unread = t.unread
  room : t.session.inbound.waiting = none → t'.session.inbound.waiting = none

theorem Unmoved.phase (h : Going messages stop t ∨ Over messages stop e t)
    (same : Unmoved t t') : Going messages stop t' ∨ Over messages stop e t' := by
  rcases h with h | h
  · obtain ⟨remaining, split, foretold⟩ := h.ahead
    refine .inl ⟨same.isClosed.trans h.isOpen, same.errors.trans h.errors,
      same.isWriting.trans h.isWriting, ?_, ?_, remaining, ?_, ?_⟩
    · rw [same.inlet]
      exact h.moves
    · rw [same.inlet]
      exact fun stays => same.room (h.room stays)
    · rw [same.seen]
      exact split
    · rw [same.one, Session.next_congr same.inlet same.one, same.unread]
      exact foretold
  · refine .inr ⟨same.inlet.trans h.stopped, same.isClosed.trans h.closed,
      same.errors.trans h.errors, same.seen.trans h.all, ?_⟩
    rw [same.one, same.unread]
    exact h.unread

namespace Steady

theorem goesOn (h : Steady first messages stop e t) (going : Going messages stop t)
    {inlet : Inlet} {buffer : Bytes} (moves : inlet ≠ .stopped)
    (room : inlet ≠ .delivering → t.session.inbound.waiting = none)
    (closed : incoming.isClosed = t.incoming.isClosed)
    (same : t.session.next.resume t.unread =
      (Session.next { t.session with buffer, inlet }).resume
        (buffer ++ incoming.bytes ++ t.coming)) :
    Steady first messages stop e
      { t with session := { t.session with buffer, inlet }, incoming } := by
  obtain ⟨remaining, split, foretold⟩ := going.ahead
  exact { h with
    incoming := fun closes => h.incoming (closed.symm.trans closes)
    silent := fun quiet => (h.silent quiet).congr rfl rfl rfl rfl
    phase := .inl { going with
      moves, room, ahead := ⟨remaining, split, foretold.congr same⟩ } }

/-- A message is read: the state takes it in, and it is the next of those that were to come. -/
theorem completes (h : Steady first messages stop e t) (going : Going messages stop t)
    {m : Message} {remaining : List Message} {buffer : Bytes}
    (room : t.session.inbound.waiting = none) (kind : m.IsReadBy t.session.state.role)
    (split : messages = t.seen ++ m :: remaining)
    (closed : incoming.isClosed = t.incoming.isClosed)
    (later : Foretells t.one stop t.one (buffer ++ incoming.bytes ++ t.coming) remaining) :
    Steady first messages stop e
      { t with session := Session.deliver { t.session with buffer } m, incoming } := by
  have same : Session.readOne t.session.accepted (t.session.state.afterReceived m) = t.one :=
    Session.readOne_congr (Session.bodyReader_afterReceived kind)
  have taken : (t.session.inbound.offer m).toList = t.session.inbound.toList ++ [m] :=
    Queue.toList_offer room m
  have held : ({ t.session with buffer } : Session).isHeld = true := h.isHeld
  have idle := Session.idle_deliver held m
  rw [Session.deliver_of_held held] at idle ⊢
  refine { h with
    role := (SessionState.alike_afterReceived _ m).1.trans h.role
    same := same.trans h.same
    incoming := fun closes => h.incoming (closed.symm.trans closes)
    silent := fun quiet => ?_
    phase := .inl { going with
      moves := ?_
      room := ?_
      ahead := ⟨remaining, ?_, ?_⟩ } }
  · refine ⟨(h.silent quiet).script, (h.silent quiet).outgoing, ?_⟩
    simp only [seen, taken, ← List.append_assoc]
    rw [List.foldl_append, List.foldl_cons, List.foldl_nil]
    exact congrArg (SessionState.afterReceived · m) (h.silent quiet).state
  · rcases idle with ⟨idle, -⟩ | idle
    · rw [idle]
      exact nofun
    · rw [idle]
      exact nofun
  · rcases idle with ⟨-, room⟩ | idle
    · exact fun _ => room
    · exact fun stays => absurd idle stays
  · rw [split]
    simp [seen, taken]
  · rw [Session.next_of_idle (idle.imp_left And.left)]
    simp only [Traffic.one, same]
    exact later

theorem stops (h : Steady first messages stop e t) (going : Going messages stop t) {buffer : Bytes}
    (room : t.session.inbound.waiting = none) (all : t.seen = messages)
    (closed : incoming.isClosed = t.incoming.isClosed)
    (left : ∀ e' rest, t.one.resume stop = (.done (.error e'), rest) →
      buffer ++ incoming.bytes ++ t.coming = rest) :
    Steady first messages stop e
      { t with
        session := (Session.fail { t.session with buffer } e).stopReading
        incoming } := by
  have isOpen : ({ t.session with buffer } : Session).isClosed = false := going.isOpen
  have same := t.session.inbound.toList_withdraw room
  rw [Session.fail_of_open isOpen]
  refine { h with
    incoming := fun closes => h.incoming (closed.symm.trans closes)
    silent := fun quiet => (h.silent quiet).congr rfl rfl ?_ rfl
    phase := .inr ⟨rfl, rfl, ?_, ?_, left⟩ }
  · exact congrArg (t.received ++ ·) same
  · simp [Session.stopReading, going.errors]
  · rw [← all]
    exact congrArg (t.received ++ ·) same

theorem reads (h : Steady first messages stop e t) (going : Going messages stop t)
    (breaks : first.one.Breaks stop first.ends e)
    (kinds : ∀ m ∈ messages, m.IsReadBy first.session.state.role)
    (turn : t.session.Turn t.incoming session incoming) :
    Steady first messages stop e { t with session, incoming } := by
  obtain ⟨remaining, split, foretold⟩ := going.ahead
  have breaks : t.one.Breaks stop t.ends e := by
    rw [h.same, h.ends]
    exact breaks
  cases turn with
  | rests held room =>
      refine h.goesOn going (by simp) (fun _ => room) rfl ?_
      rw [Session.next_of_idle (.inr held), Session.next_of_idle (.inl rfl)]
      rfl
  | abandons held alone =>
      rw [h.isHeld] at alone
      cases alone
  | @begins code rest idle input known =>
      refine h.goesOn going (by simp) (fun _ => going.room (by simp [idle])) rfl ?_
      rw [Session.next_of_idle (.inl idle), unread, input, List.cons_append,
        Session.resume_readOne_cons, if_pos known]
      simp [Pipe.drain, Session.next]
  | goesOn busy waits came =>
      have next := Session.next_of_reading busy
      exact h.goesOn going (by simp) (fun _ => going.room (by simp [busy])) rfl
        (resume_unread (next ▸ waits))
  | @completes body m rest busy done =>
      have next := Session.next_of_reading busy
      obtain ⟨remaining, rfl, later⟩ := foretold.of_ok breaks (resume_unread (next ▸ done))
      refine h.completes going (going.room (by simp [busy])) ?_ split rfl later
      rw [h.role]
      exact kinds m (by simp [split])
  | @fails e' rest live failed =>
      have failed := resume_unread failed
      obtain ⟨rfl, last⟩ := foretold.of_not_ok (by simp [failed, Reader.resume])
      have fails := last.symm.trans failed
      obtain rfl : e = e' := by
        cases breaks with
        | fails fails' => cases fails.symm.trans fails'; rfl
        | short _ waits => cases fails.symm.trans waits
      refine h.stops going (going.room live.2) (by simp [split]) rfl fun e' left fails' => ?_
      cases fails.symm.trans fails'
      rfl
  | @runsOut count short next rest incoming live ended waits pipe =>
      obtain ⟨all, -⟩ := h.incoming ended
      have here : t.unread = t.session.buffer ++ t.incoming.bytes := by
        rw [unread, all, List.append_nil]
      rw [← here] at waits
      obtain ⟨rfl, last⟩ := foretold.of_not_ok (by simp [waits])
      have waits := last.symm.trans waits
      obtain rfl : e = short rest.length := by
        cases breaks with
        | fails fails => cases waits.symm.trans fails
        | short _ waits' => cases waits.symm.trans waits'; rfl
      have closed : incoming.isClosed = t.incoming.isClosed := by
        rcases pipe with rfl | rfl
        · rfl
        · rfl
      refine h.stops going (going.room live.2) (by simp [split]) closed fun e' left fails => ?_
      cases waits.symm.trans fails

theorem writes (h : Steady first messages stop e t)
    (move : t.session.write t.outward = some (session, outward)) (accepted : List Message) :
    Steady first messages stop e { t with session, outward, accepted } := by
  obtain ⟨m, outgoing, goesOn, next, rfl, rfl⟩ := Session.write_of_open h.isHeld h.outward move
  have content := Queue.take_eq_some next
  have plain : ∀ format, m ≠ .client (.setPixelFormat format) := by
    rintro format rfl
    exact h.plain format (by simp [content])
  have same : Session.readOne t.session.accepted (t.session.state.afterSent m) = t.one :=
    Session.readOne_congr (Session.bodyReader_afterSent plain)
  refine { h with
    role := (SessionState.alike_afterSent _ m).1.trans h.role
    same := same.trans h.same
    plain := fun format mem => h.plain format ?_
    outward := h.outward
    silent := fun quiet => ?_
    phase := ?_ }
  · rw [content]
    rw [List.mem_append] at mem ⊢
    exact mem.imp_right (List.mem_cons_of_mem _)
  · have empty := (h.silent quiet).outgoing
    rw [content] at empty
    cases empty
  · exact Unmoved.phase h.phase ⟨rfl, rfl, rfl, rfl, same, rfl, rfl, id⟩

theorem receives (h : Steady first messages stop e t) {m : Message}
    (got : t.session.recv = (.message m, session)) :
    Steady first messages stop e { t with session, received := t.received ++ [m] } := by
  obtain ⟨inbound, next, rfl⟩ := Session.take_of_recv got
  have seen : Traffic.seen { t with
      session := { t.session with inbound }, received := t.received ++ [m] } = t.seen := by
    simp [Traffic.seen, Queue.take_eq_some next]
  exact { h with
    silent := fun quiet => (h.silent quiet).congr rfl rfl seen rfl
    phase := Unmoved.phase h.phase ⟨rfl, rfl, rfl, rfl, rfl, seen, rfl,
      fun _ => Queue.waiting_take next⟩ }

/-- The owner's messages do not matter, as long as there are no new ones. -/
theorem outgoing (h : Steady first messages stop e t) {script accepted : List Message}
    {outgoing : Queue Message}
    (fewer : ∀ m ∈ script ++ outgoing.toList, m ∈ t.script ++ t.session.outgoing.toList) :
    Steady first messages stop e
      { t with session := { t.session with outgoing }, script, accepted } := by
  refine { h with
    plain := fun format mem => h.plain format (fewer _ mem)
    silent := fun quiet => ?_
    phase := Unmoved.phase h.phase ⟨rfl, rfl, rfl, rfl, rfl, rfl, rfl, id⟩ }
  have silent := h.silent quiet
  have none : script ++ outgoing.toList = [] := by
    refine List.eq_nil_iff_forall_not_mem.mpr fun m mem => ?_
    have old := fewer m mem
    rw [silent.script, silent.outgoing] at old
    cases old
  obtain ⟨script, outgoing⟩ := List.append_eq_nil_iff.mp none
  exact ⟨script, outgoing, silent.state⟩

/-- **Every step keeps it.** -/
theorem step (h : Steady first messages stop e t) (breaks : first.one.Breaks stop first.ends e)
    (kinds : ∀ m ∈ messages, m.IsReadBy first.session.state.role) (step : Step false t t') :
    Steady first messages stop e t' := by
  cases step with
  | @arrives piece rest incoming nonempty split put =>
      unfold Pipe.write at put
      split at put
      · cases put
      · rename_i isOpen
        cases put
        refine { h with
          incoming := fun closes => absurd closes isOpen
          silent := fun quiet => (h.silent quiet).congr rfl rfl rfl rfl
          phase := Unmoved.phase h.phase ⟨rfl, rfl, rfl, rfl, rfl, rfl, ?_, id⟩ }
        simp [unread, split]
  | ends all last isOpen =>
      exact { h with
        incoming := fun _ => ⟨all, last⟩
        silent := fun quiet => (h.silent quiet).congr rfl rfl rfl rfl
        phase := Unmoved.phase h.phase ⟨rfl, rfl, rfl, rfl, rfl, rfl, rfl, id⟩ }
  | reads move =>
      rcases h.phase with going | done
      · exact h.reads going breaks kinds (Session.turn_of_read move)
      · simp only [Session.read, done.stopped] at move
        cases move
  | writes move => exact h.writes move _
  | stopsReading closed going =>
      rcases h.phase with open' | done
      · rw [open'.isOpen] at closed
        cases closed
      · exact absurd done.stopped going
  | stopsWriting closed going =>
      rcases h.phase with open' | done
      · rw [open'.isOpen] at closed
        cases closed
      · exact { h with
          outward := nofun
          silent := fun quiet => (h.silent quiet).congr rfl rfl rfl rfl
          phase := .inr { done with closed := rfl } }
  | receives got => exact h.receives got
  | @sends m script session next free sent =>
      obtain rfl := Session.offer_of_send sent
      refine h.outgoing fun m' mem => ?_
      rw [Queue.toList_offer (by simpa [Session.isSending, Queue.isHeldUp] using free),
        ← List.append_assoc, List.mem_append, List.mem_singleton] at mem
      rw [next, List.cons_append]
      rcases mem with mem | rfl
      · exact List.mem_cons_of_mem _ mem
      · exact List.mem_cons_self
  | refused next free closed =>
      refine h.outgoing fun m' mem => ?_
      rw [next]
      exact List.mem_cons_of_mem _ mem
  | givesUp waits =>
      refine h.outgoing fun m mem => ?_
      rw [List.mem_append] at mem ⊢
      exact mem.imp_right (t.session.outgoing.toList_withdraw_prefix.subset ·)
  | closes allowed => cases allowed
  | leaves allowed => cases allowed
  | releases allowed => cases allowed

theorem start {o : SessionOptions} {state : SessionState} {buffer coming : Bytes} {ends : Bool}
    {script : List Message}
    (stream : Session.Carries (Traffic.start o state buffer coming ends script).session.accepted
      state (buffer ++ coming) ends messages stop e)
    (plain : ∀ format, .client (.setPixelFormat format) ∉ script) :
    Steady (Traffic.start o state buffer coming ends script) messages stop e
      (Traffic.start o state buffer coming ends script) := by
  refine ⟨rfl, rfl, rfl, rfl, fun format mem => plain format ?_, fun _ => rfl, nofun,
    fun quiet => ⟨quiet, rfl, rfl⟩,
    .inl ⟨rfl, rfl, rfl, nofun, fun _ => rfl, messages, rfl, ?_⟩⟩
  · rcases List.mem_append.mp mem with mem | mem
    · exact mem
    · cases mem
  · have whole : (Traffic.start o state buffer coming ends script).unread = buffer ++ coming := by
      simp [unread, Traffic.start, Session.start, Pipe.fresh]
    rw [whole]
    exact Foretells.of_values stream.reads

/-- **No run stops halfway**: the reader, the writer, the peer or the owner can move until the
stream has failed, both loops have ended and everything has been received. -/
theorem over_of_isOver (h : Steady first messages stop e t)
    (breaks : first.one.Breaks stop first.ends e) (isOver : t.IsOver) :
    Over messages stop e t ∧ t.session.isWriting = false ∧ t.session.inbound.take = none := by
  have empty : t.session.inbound.take = none := by
    cases next : t.session.inbound.take with
    | none => rfl
    | some found =>
        obtain ⟨m, inbound⟩ := found
        have got : t.session.recv = (.message m, { t.session with inbound }) := by
          simp only [Session.recv, next]
        exact absurd (.receives got) (isOver _)
  rcases h.phase with going | done
  · exfalso
    have waits : t.session.read t.incoming = none := by
      cases move : t.session.read t.incoming with
      | none => rfl
      | some after => exact absurd (.reads move) (isOver _)
    rcases Session.read_eq_none waits with stopped | ⟨-, full⟩ |
      ⟨-, listens, nothing, count, short, next, rest, waits⟩
    · exact going.moves stopped
    · have room := List.append_eq_nil_iff.mp (Queue.take_eq_none.mp empty)
      exact full (by simpa using room.2)
    · have all : t.coming = [] := by
        cases coming : t.coming with
        | nil => rfl
        | cons b more =>
            have put : t.incoming.write [b] =
                some { t.incoming with bytes := t.incoming.bytes ++ [b] } := by
              simp [Pipe.write, listens]
            exact absurd (.arrives (List.cons_ne_nil b []) coming put) (isOver _)
      have here : t.unread = t.session.buffer ++ t.incoming.bytes := by
        rw [unread, all, List.append_nil]
      obtain ⟨remaining, -, foretold⟩ := going.ahead
      rw [← here] at waits
      obtain ⟨-, last⟩ := foretold.of_not_ok (by rw [waits]; exact nofun)
      rw [h.same] at last
      cases breaks with
      | fails fails => cases (last.symm.trans waits).symm.trans fails
      | short ended _ => exact isOver _ (.ends all (h.ends.trans ended) listens)
  · refine ⟨done, ?_, empty⟩
    cases going : t.session.isWriting with
    | false => rfl
    | true => exact absurd (.stopsWriting done.closed going) (isOver _)

end Steady

/-- What the owner finds, wherever a run has got to. -/
structure Delivers (first : Traffic) (messages : List Message) (stop : Bytes) (e : SessionError)
    (t : Traffic) : Prop where
  inOrder : t.received <+: messages
  /-- The owner is told that nothing more will come when it has received everything. -/
  closed : t.session.recv.1 = .closed → t.received = messages
  /-- When both loops have ended, the owner is given what the read failed with. -/
  failure : t.session.hasStopped = true → t.session.takeError.1 = some e
  /-- A type that is not accepted is named, and what follows it is left alone. -/
  unsupported : ∀ code rest, stop = code :: rest → code ∉ first.session.accepted →
    e = .protocol (.unsupportedMessage code) ∧ (t.session.inlet = .stopped → t.unread = rest)
  /-- The state is the work of whole messages. -/
  state : first.script = [] → t.seen <+: messages ∧
    t.session.state = t.seen.foldl SessionState.afterReceived first.session.state
  /-- A run does not end before that. -/
  all : t.IsOver → t.received = messages ∧ t.session.recv.1 = .closed ∧
    t.session.hasStopped = true ∧
    (first.script = [] →
      t.session.state = messages.foldl SessionState.afterReceived first.session.state)

theorem Steady.delivers (h : Steady first messages stop e t)
    (breaks : first.one.Breaks stop first.ends e) : Delivers first messages stop e t := by
  have seen : t.seen <+: messages := by
    rcases h.phase with going | done
    · obtain ⟨remaining, split, -⟩ := going.ahead
      exact ⟨remaining, split.symm⟩
    · exact done.all ▸ List.prefix_rfl
  have over_of_stopped : t.session.inlet = .stopped → Over messages stop e t := by
    intro stopped
    rcases h.phase with going | done
    · exact absurd stopped going.moves
    · exact done
  have received_of_empty : t.session.inbound.take = none → t.seen = t.received := by
    intro empty
    rw [Traffic.seen, Queue.take_eq_none.mp empty, List.append_nil]
  refine ⟨(List.prefix_append _ _).trans seen, fun closed => ?_, fun stopped => ?_,
    fun code rest split unknown => ?_, fun quiet => ⟨seen, (h.silent quiet).state⟩,
    fun nothing => ?_⟩
  · obtain ⟨empty, stopped⟩ := Session.recv_eq_closed.mp closed
    rw [← received_of_empty empty]
    exact (over_of_stopped stopped).all
  · have done := over_of_stopped (Session.inlet_of_hasStopped stopped)
    simp [Session.takeError, done.errors]
  · subst split
    have fails : first.one.resume (code :: rest) =
        (.done (.error (.protocol (.unsupportedMessage code))), rest) := by
      rw [Traffic.one, Session.resume_readOne_cons, if_neg unknown]
    refine ⟨?_, fun stopped => (over_of_stopped stopped).unread _ _ (h.same ▸ fails)⟩
    cases breaks with
    | fails fails' => cases fails.symm.trans fails'; rfl
    | short _ waits => cases fails.symm.trans waits
  · obtain ⟨done, ended, empty⟩ := h.over_of_isOver breaks nothing
    have received := received_of_empty empty
    refine ⟨received.symm.trans done.all, Session.recv_eq_closed.mpr ⟨empty, done.stopped⟩, ?_,
      fun quiet => done.all ▸ (h.silent quiet).state⟩
    simp [Session.hasStopped, done.stopped, ended, Inlet.isStopped]

/-! ## What leaves -/

/-- What was flushed is messages that were written; these, and then what is in the queue, are those
that were accepted, until the writing loop stops. -/
structure Said (t : Traffic) (written : List Message) : Prop where
  bytes : t.outward.bytes = written.flatMap Message.encode
  kept : written <+: t.accepted
  all : t.session.isWriting = true → written ++ t.session.outgoing.items = t.accepted

namespace Said

variable {written : List Message}

theorem congr (h : t.Said written) (bytes : t'.outward.bytes = t.outward.bytes)
    (accepted : t'.accepted = t.accepted) (isWriting : t'.session.isWriting = t.session.isWriting)
    (items : t'.session.outgoing.items = t.session.outgoing.items) : t'.Said written := by
  refine ⟨bytes.trans h.bytes, accepted ▸ h.kept, fun goesOn => ?_⟩
  rw [items, accepted]
  exact h.all (isWriting.symm.trans goesOn)

theorem step (h : t.Said written) (step : Step closing t t') : ∃ written', t'.Said written' := by
  cases step with
  | reads move =>
      obtain ⟨outgoing, isWriting⟩ := (Session.reads_of_read move).outgoing
      exact ⟨written, h.congr rfl rfl isWriting (congrArg Queue.items outgoing)⟩
  | writes move =>
      have writes := Session.writes_of_write move
      generalize t.session.puts t.outward = put at writes
      cases writes with
      | @puts m outgoing goesOn next =>
          have whole : written ++ [m] ++ outgoing.items =
              t.accepted ++ t.session.outgoing.waiting.toList := by
            have content := Queue.take_eq_some next
            rw [Queue.toList, Queue.toList, Queue.waiting_take next, Option.toList_none,
              List.append_nil] at content
            rw [← h.all goesOn, List.append_assoc, List.append_assoc, content,
              List.singleton_append]
          refine ⟨written ++ [m], ?_, ⟨_, whole⟩, fun _ => whole⟩
          simp [h.bytes]
      | stops stopped inbound inlet buffer state bytes =>
          refine ⟨written, bytes.trans h.bytes, h.kept.trans (List.prefix_append _ _), ?_⟩
          intro goesOn
          rw [stopped] at goesOn
          cases goesOn
  | stopsWriting closed going =>
      refine ⟨written, h.bytes, h.kept, fun goesOn => ?_⟩
      cases goesOn
  | receives got =>
      obtain ⟨outgoing, isWriting⟩ := Session.outgoing_recv got
      exact ⟨written, h.congr rfl rfl isWriting (congrArg Queue.items outgoing)⟩
  | @sends m script session next free sent =>
      obtain rfl := Session.offer_of_send sent
      have room : t.session.outgoing.waiting = none := by
        simpa [Session.isSending, Queue.isHeldUp] using free
      refine ⟨written, h.bytes, h.kept.trans (List.prefix_append _ _), fun goesOn => ?_⟩
      rw [← h.all goesOn, List.append_assoc]
      exact congrArg (written ++ ·) (Queue.items_offer room m)
  | _ => exact ⟨written, h.congr rfl rfl rfl rfl⟩

theorem reaches (h : t.Said written) (reached : Reaches closing t t') :
    ∃ written', t'.Said written' :=
  reached.invariant (I := fun t => ∃ written, t.Said written) ⟨written, h⟩
    fun _ _ ⟨_, said⟩ step => said.step step

end Said

/-- **The loops deliver in order and keep the state in step.**

Let a session start with some bytes drawn from a stream that is made of messages, as they are read
in its state, and goes on with bytes on which the next read fails.  If nothing but its loops closes
it and no pixel format is sent, every run ends and delivers the messages (`Delivers`), however its
moves are interleaved.

Whatever is read, and whoever closes the session at any time, what was flushed is the wire forms of
the first so many of the messages that were accepted, in order. -/
theorem delivers_in_order (o : SessionOptions) (state : SessionState) (buffer coming : Bytes)
    (ends : Bool) (script : List Message) :
    (∀ messages stop e,
      Session.Carries (start o state buffer coming ends script).session.accepted state
        (buffer ++ coming) ends messages stop e →
      (∀ format, .client (.setPixelFormat format) ∉ script) →
        Acc (fun after before => Step false before after)
          (start o state buffer coming ends script) ∧
        ∀ t, Reaches false (start o state buffer coming ends script) t →
          Delivers (start o state buffer coming ends script) messages stop e t) ∧
    ∀ t, Reaches true (start o state buffer coming ends script) t →
      ∃ written, written <+: t.accepted ∧ t.outward.bytes = written.flatMap Message.encode := by
  constructor
  · intro messages stop e stream plain
    have kinds : ∀ m ∈ messages, m.IsReadBy state.role :=
      (Foretells.of_values stream.reads).forall_mem fun _ _ _ => Session.isReadBy_of_readOne
    refine ⟨acc_step _, fun t reached => ?_⟩
    have steady := reached.invariant (Steady.start stream plain) fun _ _ h step =>
      h.step stream.breaks kinds step
    exact steady.delivers stream.breaks
  · intro t reached
    have nothing : (start o state buffer coming ends script).Said [] :=
      ⟨rfl, List.nil_prefix, fun _ => rfl⟩
    obtain ⟨written, said⟩ := nothing.reaches reached
    exact ⟨written, said.kept, said.bytes⟩

/-- A bell comes, and then a type that is not accepted. -/
theorem delivers_in_order_bell :
    let first := start .standard (SessionState.make .client .v38 .none EncodingSet.empty)
      [2] [9, 7] false []
    let e : SessionError := .protocol (.unsupportedMessage 9)
    Session.Carries first.session.accepted first.session.state [2, 9, 7] false
        [.server .bell] [9, 7] e ∧
      (∀ format, .client (.setPixelFormat format) ∉ first.script) ∧
      ∃ t, Reaches false first t ∧ t.IsOver ∧ t.received = [.server .bell] ∧
        t.session.takeError.1 = some e ∧ t.unread = [7] := by
  intro first e
  have stream : Session.Carries first.session.accepted first.session.state [2, 9, 7] false
      [.server .bell] [9, 7] e := ⟨rfl, .fails rfl⟩
  have plain : ∀ format, .client (.setPixelFormat format) ∉ first.script := nofun
  obtain ⟨t, reached, isOver⟩ := exists_isOver first
  obtain ⟨delivered, -⟩ := delivers_in_order .standard
    (SessionState.make .client .v38 .none EncodingSet.empty) [2] [9, 7] false []
  have delivers := (delivered _ _ _ stream plain).2 t reached
  obtain ⟨received, closed, stopped, -⟩ := delivers.all isOver
  have unread := (delivers.unsupported 9 [7] rfl (by decide)).2 (Session.recv_eq_closed.mp closed).2
  exact ⟨stream, plain, t, reached, isOver, received, delivers.failure stopped, unread⟩

end Traffic

end RemoteFramebuffer
