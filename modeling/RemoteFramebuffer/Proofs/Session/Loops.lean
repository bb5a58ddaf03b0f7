/-
# `RemoteFramebuffer.Proofs.Session.Loops` — what the loops of a session do, move by move

`Turn` and `Stroke` say what one move of a loop can be.  From these follow `Reads` and `Writes`, what
a move does to the messages.  Two invariants say where the messages are:

    Inflow    what was read is what the owner took, then what is in the inbound queue
    Outflow   what the owner offered is what was written, then what is in the outgoing queue

Both hold in this form until the loop stops; from then on nothing more goes through it, and what
went through it is a prefix.
-/
import RemoteFramebuffer.Proofs.Message.Framing
import RemoteFramebuffer.Session

namespace RemoteFramebuffer

/-! ## Readers that wait -/

namespace Reader

variable {ε α β : Type} {r r' : Reader ε α} {input rest : Bytes}

theorem run_resume (h : r.resume input = (r', rest)) :
    ∃ used, input = used ++ rest ∧ ∀ more, r.run (used ++ more) = r'.run more := by
  induction r generalizing input with
  | done result =>
      cases h
      exact ⟨[], rfl, fun _ => rfl⟩
  | take count short next ih =>
      rw [resume] at h
      split at h
      · rename_i enough
        obtain ⟨used, split, same⟩ := ih _ h
        have whole : (input.take count).length = count := List.length_take_of_le enough
        refine ⟨input.take count ++ used, ?_, fun more => ?_⟩
        · rw [List.append_assoc, ← split, List.take_append_drop]
        · rw [List.append_assoc, run_take_of_le (by simp [whole]), List.take_left' whole,
            List.drop_left' whole, same]
      · cases h
        exact ⟨[], rfl, fun _ => rfl⟩

theorem resume_bind {a : α} {f : α → Reader ε β} (h : r.resume input = (.done (.ok a), rest)) :
    (r >>= f).resume input = (f a).resume rest := by
  show (r.bind f).resume input = _
  induction r generalizing input with
  | done result =>
      cases h
      rfl
  | take count short next ih =>
      rw [resume] at h
      split at h
      · rename_i enough
        rw [Reader.bind, resume, if_pos enough]
        exact ih _ h
      · cases h

theorem run_eq_ok_iff {a : α} :
    r.run input = (.ok a, rest) ↔ r.resume input = (.done (.ok a), rest) := by
  induction r generalizing input with
  | done result =>
      rw [run, resume]
      constructor
      · intro h
        cases h
        rfl
      · intro h
        cases h
        rfl
  | take count short next ih =>
      rw [resume]
      split
      · rename_i enough
        rw [run_take_of_le enough, ih]
      · rename_i few
        rw [run_take_of_lt (by omega)]
        constructor
        · intro h
          cases h
        · intro h
          cases h

end Reader

namespace Queue

variable {α : Type}

theorem toList_withdraw_prefix (q : Queue α) : q.withdraw.toList <+: q.toList := by
  refine ⟨q.waiting.toList, ?_⟩
  simp [withdraw, toList]

theorem toList_withdraw (q : Queue α) (room : q.waiting = none) : q.withdraw.toList = q.toList := by
  simp [withdraw, toList, room]

theorem waiting_take {q q' : Queue α} {a : α} (h : q.take = some (a, q')) : q'.waiting = none := by
  unfold take at h
  split at h
  · cases h
  · cases h
    rfl

end Queue

/-! ## States -/

namespace SessionState

/-- The same role and the same encodings that can be read. -/
def Alike (s s' : SessionState) : Prop := s'.role = s.role ∧ s'.encodings = s.encodings

namespace Alike

variable {s s' s'' : SessionState}

theorem refl (s : SessionState) : Alike s s := ⟨rfl, rfl⟩

theorem trans (h : Alike s s') (h' : Alike s' s'') : Alike s s'' :=
  ⟨h'.1.trans h.1, h'.2.trans h.2⟩

end Alike

theorem alike_afterUpdate (s : SessionState) (update : FramebufferUpdate) :
    Alike s (s.afterUpdate update) := by
  unfold afterUpdate
  split <;> split <;> exact ⟨rfl, rfl⟩

theorem alike_afterServer (s : SessionState) (m : ServerMessage) : Alike s (s.afterServer m) := by
  cases m with
  | framebufferUpdate update => exact alike_afterUpdate s update
  | _ => exact ⟨rfl, rfl⟩

theorem alike_afterSent (s : SessionState) (m : Message) : Alike s (s.afterSent m) := by
  cases m with
  | client m =>
      cases m with
      | _ => exact ⟨rfl, rfl⟩
  | server m => exact alike_afterServer s m

theorem alike_afterReceived (s : SessionState) (m : Message) : Alike s (s.afterReceived m) := by
  cases m with
  | client m =>
      cases m with
      | _ => exact ⟨rfl, rfl⟩
  | server m => exact alike_afterServer s m

end SessionState

namespace Message

def parts : Message → List Part
  | .client m => m.parts
  | .server m => m.parts

/-- The message is one that a session of this role reads. -/
def IsReadBy (role : Role) : Message → Prop
  | .client _ => role = .server
  | .server _ => role ≠ .server

theorem exists_eq_map {α β : Type} {f : α → β} {l : List β} (h : ∀ b ∈ l, ∃ a, b = f a) :
    ∃ values : List α, l = values.map f := by
  induction l with
  | nil => exact ⟨[], rfl⟩
  | cons b l ih =>
      obtain ⟨a, rfl⟩ := h _ List.mem_cons_self
      obtain ⟨values, rfl⟩ := ih fun b mem => h b (List.mem_cons_of_mem _ mem)
      exact ⟨a :: values, rfl⟩

theorem exists_client {l : List Message} (h : ∀ m ∈ l, m.IsReadBy .server) :
    ∃ read : List ClientMessage, l = read.map .client := by
  refine exists_eq_map fun m mem => ?_
  cases m with
  | client m => exact ⟨m, rfl⟩
  | server m => exact absurd rfl (h _ mem)

theorem exists_server {role : Role} (other : role ≠ .server) {l : List Message}
    (h : ∀ m ∈ l, m.IsReadBy role) : ∃ read : List ServerMessage, l = read.map .server := by
  refine exists_eq_map fun m mem => ?_
  cases m with
  | client m => exact absurd (h _ mem) other
  | server m => exact ⟨m, rfl⟩

end Message

namespace Session

variable {s s' : Session} {incoming incoming' : Pipe}

/-! ## One message -/

theorem stand_of_bodyReader {state : SessionState} {code : UInt8} {m : Message}
    {input rest : Bytes} (h : (bodyReader state code).run input = (.ok m, rest)) :
    m.IsReadBy state.role ∧ Part.Stand m.parts (code :: input) rest := by
  unfold bodyReader at h
  split at h
  · rename_i role
    obtain ⟨m, run, rfl⟩ := Reader.run_map_ok.mp h
    obtain ⟨rfl, -, stand⟩ := ClientMessage.stand_of_readBody (Reader.run_mapError_ok.mp run)
    exact ⟨role, input, Part.at_content.mpr rfl, stand⟩
  · rename_i role
    obtain ⟨m, run, rfl⟩ := Reader.run_map_ok.mp h
    obtain ⟨rfl, -, stand⟩ := ServerMessage.stand_of_readBody run
    exact ⟨role, input, Part.at_content.mpr rfl, stand⟩

/-- One message: its type byte, and then its body as it is read in a state. -/
def readOne (accepted : List UInt8) (state : SessionState) : Reader SessionError Message := do
  let code ← Reader.u8.mapError SessionError.transport
  if code ∈ accepted then bodyReader state code
  else Reader.fail (.protocol (.unsupportedMessage code))

theorem resume_readOne_cons (accepted : List UInt8) (state : SessionState) (code : UInt8)
    (rest : Bytes) :
    (readOne accepted state).resume (code :: rest) =
      if code ∈ accepted then (bodyReader state code).resume rest
      else (.done (.error (.protocol (.unsupportedMessage code))), rest) := by
  have first : (Reader.u8.mapError SessionError.transport).resume (code :: rest) =
      (.done (.ok code), rest) :=
    Reader.run_eq_ok_iff.mp (Reader.run_mapError_ok.mpr (Reader.run_u8_ok.mpr rfl))
  rw [readOne, Reader.resume_bind first]
  split <;> rfl

theorem resume_readOne_nil (accepted : List UInt8) (state : SessionState) :
    ∃ next, (readOne accepted state).resume [] =
      (.take 1 (fun got => .transport (.endOfStream 1 got)) next, []) := ⟨_, rfl⟩

/-- The reader that is under way, or the one that comes next. -/
def next (s : Session) : Reader SessionError Message :=
  match s.inlet with
  | .reading body => body
  | _ => readOne s.accepted s.state

theorem next_of_reading {body : Reader SessionError Message} (busy : s.inlet = .reading body) :
    s.next = body := by
  rw [Session.next, busy]

theorem next_of_idle (idle : s.inlet = .awaiting ∨ s.inlet = .delivering) :
    s.next = readOne s.accepted s.state := by
  rcases idle with idle | idle
  · rw [Session.next, idle]
  · rw [Session.next, idle]

theorem resume_next_of_empty (idle : s.inlet = .awaiting)
    (empty : s.buffer ++ incoming.bytes = []) :
    ∃ next, s.next.resume (s.buffer ++ incoming.bytes) =
      (.take 1 (fun got => .transport (.endOfStream 1 got)) next, []) := by
  rw [next_of_idle (.inl idle), empty]
  exact resume_readOne_nil s.accepted s.state

/-! ## Moves of the reading loop -/

/-- What a move of the reading loop can be, with what it does to the stream. -/
inductive Turn (s : Session) (incoming : Pipe) : Session → Pipe → Prop
  | rests (held : s.inlet = .delivering) (room : s.inbound.waiting = none) :
      Turn s incoming { s with inlet := .awaiting } incoming
  | abandons (held : s.inlet = .delivering) (alone : s.isHeld = false) :
      Turn s incoming s.close.stopReading incoming
  | begins {code : UInt8} {rest : Bytes} (idle : s.inlet = .awaiting)
      (input : s.buffer ++ incoming.bytes = code :: rest) (known : code ∈ s.accepted) :
      Turn s incoming { s with buffer := rest, inlet := .reading (bodyReader s.state code) }
        incoming.drain
  | goesOn {body : Reader SessionError Message} {count : Nat} {short : Nat → SessionError}
      {next : Bytes → Reader SessionError Message} {rest : Bytes} (busy : s.inlet = .reading body)
      (waits : body.resume (s.buffer ++ incoming.bytes) = (.take count short next, rest))
      (came : incoming.bytes ≠ []) :
      Turn s incoming { s with buffer := rest, inlet := .reading (.take count short next) }
        incoming.drain
  | completes {body : Reader SessionError Message} {m : Message} {rest : Bytes}
      (busy : s.inlet = .reading body)
      (done : body.resume (s.buffer ++ incoming.bytes) = (.done (.ok m), rest)) :
      Turn s incoming ({ s with buffer := rest }.deliver m) incoming.drain
  | fails {e : SessionError} {rest : Bytes} (going : s.inlet ≠ .stopped ∧ s.inlet ≠ .delivering)
      (failed : s.next.resume (s.buffer ++ incoming.bytes) = (.done (.error e), rest)) :
      Turn s incoming ({ s with buffer := rest }.fail e).stopReading incoming.drain
  | runsOut {count : Nat} {short : Nat → SessionError} {next : Bytes → Reader SessionError Message}
      {rest : Bytes} {incoming' : Pipe} (going : s.inlet ≠ .stopped ∧ s.inlet ≠ .delivering)
      (ended : incoming.isClosed = true)
      (waits : s.next.resume (s.buffer ++ incoming.bytes) = (.take count short next, rest))
      (pipe : incoming' = incoming ∨ incoming' = incoming.drain) :
      Turn s incoming (s.fail (short rest.length)).stopReading incoming'

theorem turn_of_read (h : s.read incoming = some (s', incoming')) :
    Turn s incoming s' incoming' := by
  unfold read at h
  dsimp only at h
  split at h
  · cases h
  · rename_i held
    split at h
    · rename_i room
      cases h
      exact .rests held (by simpa [Queue.isHeldUp] using room)
    · split at h
      · cases h
      · rename_i alone
        cases h
        exact .abandons held (by simpa using alone)
  · rename_i idle
    have going : s.inlet ≠ .stopped ∧ s.inlet ≠ .delivering := by rw [idle]; exact ⟨nofun, nofun⟩
    have next : s.next = readOne s.accepted s.state := next_of_idle (.inl idle)
    split at h
    · rename_i code rest input
      cases h
      unfold readCode
      dsimp only
      split
      · rename_i known
        exact .begins idle input known
      · rename_i unknown
        refine .fails going ?_
        rw [next, input, resume_readOne_cons, if_neg unknown]
    · rename_i empty
      split at h
      · rename_i ended
        cases h
        obtain ⟨_, waits⟩ := resume_next_of_empty idle empty
        exact .runsOut going ended waits (.inl rfl)
      · cases h
  · rename_i body busy
    have going : s.inlet ≠ .stopped ∧ s.inlet ≠ .delivering := by rw [busy]; exact ⟨nofun, nofun⟩
    have next := next_of_reading busy
    split at h
    · rename_i m rest done
      cases h
      exact .completes busy done
    · rename_i e rest failed
      cases h
      exact .fails going (next ▸ failed)
    · rename_i count short goesOn rest waits
      split at h
      · rename_i ended
        cases h
        exact .runsOut going ended (next ▸ waits) (.inr rfl)
      · split at h
        · cases h
        · rename_i came
          cases h
          exact .goesOn busy waits (by simpa using came)

/-- The message that the next move of the reading loop completes. -/
def completes (s : Session) (incoming : Pipe) : Option Message :=
  match s.inlet with
  | .reading body =>
    match (body.resume (s.buffer ++ incoming.bytes)).1 with
    | .done (.ok m) => some m
    | _ => none
  | _ => none

theorem completes_eq_none
    (never : ∀ m rest, s.next.resume (s.buffer ++ incoming.bytes) ≠ (.done (.ok m), rest)) :
    s.completes incoming = none := by
  unfold completes
  split
  · rename_i body busy
    split
    · rename_i m done
      refine absurd ?_ (never m (body.resume (s.buffer ++ incoming.bytes)).2)
      rw [next_of_reading busy]
      exact Prod.ext done rfl
    · rfl
  · rfl

/-- What a move of the reading loop can be: the message that it completes, if it does, and what the
session and its pipe are then. -/
inductive Reads (s : Session) (incoming : Pipe) : Option Message → Session → Pipe → Prop
  | resumes (held : s.inlet = .delivering) (room : s.inbound.waiting = none) :
      Reads s incoming none { s with inlet := .awaiting } incoming
  | begins {code : UInt8} {rest : Bytes} (idle : s.inlet = .awaiting)
      (input : s.buffer ++ incoming.bytes = code :: rest) :
      Reads s incoming none
        { s with buffer := rest, inlet := .reading (bodyReader s.state code) } incoming.drain
  | goesOn {body body' : Reader SessionError Message} {rest : Bytes} (busy : s.inlet = .reading body)
      (waits : body.resume (s.buffer ++ incoming.bytes) = (body', rest)) :
      Reads s incoming none { s with buffer := rest, inlet := .reading body' } incoming.drain
  | completes {body : Reader SessionError Message} {m : Message} {rest : Bytes}
      (busy : s.inlet = .reading body)
      (done : body.resume (s.buffer ++ incoming.bytes) = (.done (.ok m), rest)) :
      Reads s incoming (some m) ({ s with buffer := rest }.deliver m) incoming.drain
  | stops {s' : Session} {incoming' : Pipe} (stopped : s'.inlet = .stopped)
      (inbound : s'.inbound = s.inbound.withdraw) (outgoing : s'.outgoing = s.outgoing)
      (isWriting : s'.isWriting = s.isWriting) (state : s'.state = s.state) :
      Reads s incoming none s' incoming'

theorem inlet_of_hasStopped (stopped : s.hasStopped = true) : s.inlet = .stopped := by
  unfold hasStopped Inlet.isStopped at stopped
  split at stopped
  · rename_i inlet
    exact inlet
  · cases stopped

/-- A failure closes the session and may be noted; nothing else changes. -/
theorem fail_eq (s : Session) (e : SessionError) :
    ∃ errors, s.fail e = { s with isClosed := true, errors } := by
  unfold fail
  split
  · rename_i closed
    exact ⟨s.errors, by rw [← closed]⟩
  · exact ⟨_, rfl⟩

theorem reads_stop (buffer : Bytes) (e : SessionError) (incoming' : Pipe) :
    Reads s incoming none ({ s with buffer := buffer }.fail e).stopReading incoming' := by
  obtain ⟨errors, failed⟩ := fail_eq { s with buffer := buffer } e
  rw [failed]
  exact .stops rfl rfl rfl rfl rfl

theorem reads_of_read (h : s.read incoming = some (s', incoming')) :
    Reads s incoming (s.completes incoming) s' incoming' := by
  cases turn_of_read h with
  | rests held room =>
      rw [completes, held]
      exact .resumes held room
  | abandons held alone =>
      rw [completes, held]
      exact .stops rfl rfl rfl rfl rfl
  | begins idle input known =>
      rw [completes, idle]
      exact .begins idle input
  | goesOn busy waits came =>
      rw [completes, busy]
      dsimp only
      rw [waits]
      exact .goesOn busy waits
  | completes busy done =>
      rw [completes, busy]
      dsimp only
      rw [done]
      exact .completes busy done
  | fails going failed =>
      rw [completes_eq_none fun _ _ done => nomatch failed.symm.trans done]
      exact reads_stop _ _ _
  | runsOut going ended waits pipe =>
      rw [completes_eq_none fun _ _ done => nomatch waits.symm.trans done]
      exact reads_stop s.buffer _ _

theorem outgoing_deliver (s : Session) (m : Message) :
    (s.deliver m).outgoing = s.outgoing ∧ (s.deliver m).isWriting = s.isWriting := by
  unfold deliver
  dsimp only
  split
  · exact ⟨rfl, rfl⟩
  · exact ⟨rfl, rfl⟩

theorem state_deliver (s : Session) (m : Message) :
    (s.deliver m).state = s.state.afterReceived m := by
  unfold deliver
  dsimp only
  split
  · rfl
  · rfl

namespace Reads

variable {m : Option Message}

theorem outgoing (move : Reads s incoming m s' incoming') :
    s'.outgoing = s.outgoing ∧ s'.isWriting = s.isWriting := by
  cases move with
  | completes busy done => exact outgoing_deliver _ _
  | stops stopped inbound outgoing isWriting state => exact ⟨outgoing, isWriting⟩
  | _ => exact ⟨rfl, rfl⟩

theorem alike (move : Reads s incoming m s' incoming') : s.state.Alike s'.state := by
  cases move with
  | completes busy done =>
      rw [state_deliver]
      exact SessionState.alike_afterReceived _ _
  | stops stopped inbound outgoing isWriting state => exact state ▸ .refl _
  | _ => exact .refl _

end Reads

/-! ## Moves of the writing loop -/

/-- What a move of the writing loop can be. -/
inductive Stroke (s : Session) (outward : Pipe) : Session × Pipe → Prop
  | puts {m : Message} {outgoing : Queue Message} (goesOn : s.isWriting = true)
      (next : s.outgoing.take = some (m, outgoing)) (isOpen : outward.isClosed = false) :
      Stroke s outward ({ s with outgoing, state := s.state.afterSent m },
        { outward with bytes := outward.bytes ++ m.encode })
  | breaks {m : Message} {outgoing : Queue Message} (goesOn : s.isWriting = true)
      (next : s.outgoing.take = some (m, outgoing)) (closed : outward.isClosed = true) :
      Stroke s outward (({ s with outgoing, state := s.state.afterSent m }.fail
        (.transport .brokenPipe)).stopWriting outward)
  | ends (goesOn : s.isWriting = true) (empty : s.outgoing.take = none) (alone : s.isHeld = false) :
      Stroke s outward (s.stopWriting outward)

theorem stroke_of_write {outward : Pipe} {after : Session × Pipe}
    (h : s.write outward = some after) : Stroke s outward after := by
  unfold write at h
  split at h
  · cases h
  · rename_i goesOn
    have goesOn : s.isWriting = true := by simpa using goesOn
    split at h
    · rename_i m outgoing next
      dsimp only at h
      unfold Pipe.write at h
      by_cases closed : outward.isClosed = true
      · rw [if_pos closed] at h
        cases h
        exact .breaks goesOn next closed
      · rw [if_neg closed] at h
        cases h
        exact .puts goesOn next (by simpa using closed)
    · rename_i empty
      split at h
      · cases h
      · rename_i alone
        cases h
        exact .ends goesOn empty (by simpa using alone)

/-- The message that the next move of the writing loop puts on the stream. -/
def puts (s : Session) (outward : Pipe) : Option Message :=
  match s.outgoing.take with
  | some (m, _) => if outward.isClosed then none else some m
  | none => none

/-- What a move of the writing loop can be: the message that it puts on the stream, if it does, and
what the session and its pipe are then. -/
inductive Writes (s : Session) (outward : Pipe) : Option Message → Session → Pipe → Prop
  | puts {m : Message} {outgoing : Queue Message} (goesOn : s.isWriting = true)
      (next : s.outgoing.take = some (m, outgoing)) :
      Writes s outward (some m) { s with outgoing, state := s.state.afterSent m }
        { outward with bytes := outward.bytes ++ m.encode }
  | stops {s' : Session} {outward' : Pipe} (stopped : s'.isWriting = false)
      (inbound : s'.inbound = s.inbound) (inlet : s'.inlet = s.inlet)
      (buffer : s'.buffer = s.buffer) (state : s.state.Alike s'.state)
      (bytes : outward'.bytes = outward.bytes) : Writes s outward none s' outward'

theorem writes_of_write {outward outward' : Pipe} (h : s.write outward = some (s', outward')) :
    Writes s outward (s.puts outward) s' outward' := by
  cases stroke_of_write h with
  | @puts m outgoing goesOn next isOpen =>
      have put : s.puts outward = some m := by simp [puts, next, isOpen]
      rw [put]
      exact .puts goesOn next
  | @breaks m outgoing goesOn next closed =>
      have put : s.puts outward = none := by simp [puts, next, closed]
      obtain ⟨errors, failed⟩ := fail_eq
        { s with outgoing, state := s.state.afterSent m } (.transport .brokenPipe)
      rw [put, failed]
      exact .stops rfl rfl rfl rfl (SessionState.alike_afterSent s.state m) rfl
  | ends goesOn empty alone =>
      have put : s.puts outward = none := by simp [puts, empty]
      rw [put]
      exact .stops rfl rfl rfl rfl (.refl _) rfl

namespace Writes

variable {outward outward' : Pipe} {m : Option Message}

theorem inbound (move : Writes s outward m s' outward') :
    s'.inbound = s.inbound ∧ s'.inlet = s.inlet ∧ s'.buffer = s.buffer := by
  cases move with
  | puts goesOn next => exact ⟨rfl, rfl, rfl⟩
  | stops stopped inbound inlet buffer state bytes => exact ⟨inbound, inlet, buffer⟩

theorem alike (move : Writes s outward m s' outward') : s.state.Alike s'.state := by
  cases move with
  | puts goesOn next => exact SessionState.alike_afterSent _ _
  | stops stopped inbound inlet buffer state bytes => exact state

theorem bytes (move : Writes s outward m s' outward') :
    outward'.bytes = outward.bytes ++ m.toList.flatMap Message.encode := by
  cases move with
  | puts goesOn next => simp
  | stops stopped inbound inlet buffer state bytes => simpa using bytes

end Writes

/-! ## Moves of the owner -/

theorem take_of_recv {m : Message} (got : s.recv = (.message m, s')) :
    ∃ inbound, s.inbound.take = some (m, inbound) ∧ s' = { s with inbound } := by
  unfold recv at got
  split at got
  · rename_i next
    cases got
    exact ⟨_, next, rfl⟩
  · split at got <;> cases got

theorem offer_of_send {m : Message} (sent : s.send m = some s') :
    s' = { s with outgoing := s.outgoing.offer m } := by
  unfold send at sent
  split at sent
  · cases sent
  · cases sent
    rfl

theorem send_of_open (isOpen : s.isClosed = false) (m : Message) :
    s.send m = some { s with outgoing := s.outgoing.offer m } := by
  rw [Session.send, isOpen, if_neg Bool.false_ne_true]

/-! ## What is on its way to the owner -/

/-- What was read is what the owner took, then what is in the inbound queue, until the reading
loop stops.  Nothing waits while a message is read. -/
structure Inflow (s : Session) (heard taken : List Message) : Prop where
  kept : taken ++ s.inbound.toList <+: heard
  all : s.inlet.isStopped = false → taken ++ s.inbound.toList = heard
  room : s.inlet = .awaiting ∨ (∃ body, s.inlet = .reading body) → s.inbound.waiting = none

namespace Inflow

variable {heard taken : List Message}

theorem congr (h : Inflow s heard taken) (inbound : s'.inbound = s.inbound)
    (inlet : s'.inlet = s.inlet) : Inflow s' heard taken := by
  refine ⟨?_, ?_, ?_⟩
  · rw [inbound]
    exact h.kept
  · rw [inbound, inlet]
    exact h.all
  · rw [inbound, inlet]
    exact h.room

/-- Once the loop has stopped, what is in the queue is all that will be there. -/
theorem of_stopped (stopped : s'.inlet = .stopped) (kept : taken ++ s'.inbound.toList <+: heard) :
    Inflow s' heard taken := by
  refine ⟨kept, ?_, ?_⟩
  · rw [stopped]
    exact nofun
  · rw [stopped]
    rintro (eq | ⟨body, eq⟩)
    · cases eq
    · cases eq

theorem withdraw_prefix (h : Inflow s heard taken) :
    taken ++ s.inbound.withdraw.toList <+: heard :=
  ((List.prefix_append_right_inj _).mpr s.inbound.toList_withdraw_prefix).trans h.kept

theorem stopReading (h : Inflow s heard taken) : Inflow s.stopReading heard taken :=
  of_stopped rfl h.withdraw_prefix

theorem deliver {body : Reader SessionError Message} (h : Inflow s heard taken)
    (busy : s.inlet = .reading body) (m : Message) : Inflow (s.deliver m) (heard ++ [m]) taken := by
  have whole : taken ++ s.inbound.toList = heard := h.all (by rw [busy]; rfl)
  have room : s.inbound.waiting = none := h.room (.inr ⟨body, busy⟩)
  unfold Session.deliver
  dsimp only
  split
  · have offered : taken ++ (s.inbound.offer m).toList = heard ++ [m] := by
      rw [Queue.toList_offer room, ← List.append_assoc, whole]
    refine ⟨offered ▸ List.prefix_rfl, fun _ => offered, ?_⟩
    dsimp only
    split
    · rintro (eq | ⟨body, eq⟩)
      · cases eq
      · cases eq
    · rename_i free
      intro _
      simpa [Queue.isHeldUp] using free
  · exact of_stopped rfl (h.withdraw_prefix.trans (List.prefix_append _ _))

theorem reads {m : Option Message} (h : Inflow s heard taken)
    (move : Reads s incoming m s' incoming') : Inflow s' (heard ++ m.toList) taken := by
  cases move with
  | resumes held room =>
      rw [Option.toList_none, List.append_nil]
      exact ⟨h.kept, fun _ => h.all (by rw [held]; rfl), fun _ => room⟩
  | begins idle input =>
      rw [Option.toList_none, List.append_nil]
      exact ⟨h.kept, fun _ => h.all (by rw [idle]; rfl), fun _ => h.room (.inl idle)⟩
  | goesOn busy waits =>
      rw [Option.toList_none, List.append_nil]
      exact ⟨h.kept, fun _ => h.all (by rw [busy]; rfl), fun _ => h.room (.inr ⟨_, busy⟩)⟩
  | @completes body m rest busy done =>
      have used : Inflow { s with buffer := rest } heard taken := h.congr rfl rfl
      exact used.deliver busy m
  | stops stopped inbound outgoing isWriting state =>
      rw [Option.toList_none, List.append_nil]
      exact of_stopped stopped (inbound ▸ h.withdraw_prefix)

theorem recv {m : Message} (h : Inflow s heard taken) (got : s.recv = (.message m, s')) :
    Inflow s' heard (taken ++ [m]) := by
  obtain ⟨inbound, next, rfl⟩ := take_of_recv got
  have same : taken ++ [m] ++ inbound.toList = taken ++ s.inbound.toList := by
    rw [Queue.take_eq_some next, List.append_assoc, List.singleton_append]
  refine ⟨?_, fun going => ?_, fun _ => Queue.waiting_take next⟩
  · rw [same]
    exact h.kept
  · rw [same]
    exact h.all going

theorem taken_prefix (h : Inflow s heard taken) : taken <+: heard :=
  (List.prefix_append _ _).trans h.kept

end Inflow

/-! ## What is on its way to the peer -/

/-- What the owner offered is what was written, then what is in the outgoing queue, until the
writing loop stops. -/
structure Outflow (s : Session) (offered said : List Message) : Prop where
  kept : said <+: offered
  all : s.isWriting = true → said ++ s.outgoing.toList = offered

namespace Outflow

variable {offered said : List Message} {outward outward' : Pipe}

theorem congr (h : Outflow s offered said) (outgoing : s'.outgoing = s.outgoing)
    (isWriting : s'.isWriting = s.isWriting) : Outflow s' offered said := by
  refine ⟨h.kept, ?_⟩
  rw [outgoing, isWriting]
  exact h.all

theorem of_stopped (stopped : s'.isWriting = false) (kept : said <+: offered) :
    Outflow s' offered said := by
  refine ⟨kept, ?_⟩
  rw [stopped]
  exact nofun

theorem writes {m : Option Message} (h : Outflow s offered said)
    (move : Writes s outward m s' outward') : Outflow s' offered (said ++ m.toList) := by
  cases move with
  | @puts m outgoing goesOn next =>
      have whole : said ++ [m] ++ outgoing.toList = offered := by
        rw [List.append_assoc, List.singleton_append, ← Queue.take_eq_some next, h.all goesOn]
      exact ⟨⟨_, whole⟩, fun _ => whole⟩
  | stops stopped inbound inlet buffer state bytes =>
      rw [Option.toList_none, List.append_nil]
      exact of_stopped stopped h.kept

/-- The owner offers a message, if none of its messages waits for room. -/
theorem send {m : Message} (h : Outflow s offered said) (room : s.outgoing.waiting = none)
    (sent : s.send m = some s') : Outflow s' (offered ++ [m]) said := by
  obtain rfl := offer_of_send sent
  refine ⟨h.kept.trans (List.prefix_append _ _), fun goesOn => ?_⟩
  rw [Queue.toList_offer room, ← List.append_assoc, h.all goesOn]

theorem withdraw (h : Outflow s offered said) (outgoing : s'.outgoing = s.outgoing.withdraw)
    (isWriting : s'.isWriting = s.isWriting) :
    ∃ offered', offered' <+: offered ∧ Outflow s' offered' said := by
  cases goesOn : s.isWriting with
  | true =>
      refine ⟨said ++ s.outgoing.withdraw.toList, ?_, List.prefix_append _ _, fun _ => ?_⟩
      · rw [← h.all goesOn]
        exact (List.prefix_append_right_inj _).mpr s.outgoing.toList_withdraw_prefix
      · rw [outgoing]
  | false => exact ⟨offered, List.prefix_rfl, of_stopped (isWriting.trans goesOn) h.kept⟩

end Outflow

end Session

end RemoteFramebuffer
