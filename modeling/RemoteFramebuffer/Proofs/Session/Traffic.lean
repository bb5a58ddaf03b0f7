/-
# `RemoteFramebuffer.Proofs.Session.Traffic` — a session between its peer and its owner

A `Traffic` is a session with its pipes, what its peer has still to send and what its owner has
still to say.  `Step` lets the two loops, the peer and the owner move in any order; with `closing`,
anybody may also close the session at any time.

As long as nobody does, every step lowers `weight`, so that a run ends.  A byte has its price: it
pays for being taken over from the peer, for being drawn, and for the message that it may complete.
-/
import RemoteFramebuffer.Proofs.Session.Inlet

namespace RemoteFramebuffer

namespace Queue

variable {α : Type}

theorem length_offer_le (q : Queue α) (a : α) :
    (q.offer a).toList.length ≤ q.toList.length + 1 := by
  unfold offer
  split
  · simp only [toList, List.length_append, List.length_singleton]
    omega
  · simp [toList]

theorem items_offer {q : Queue α} (room : q.waiting = none) (a : α) :
    (q.offer a).items = q.items ++ if (q.offer a).isHeldUp then [] else [a] := by
  unfold offer
  split
  · simp [isHeldUp, room]
  · simp [isHeldUp]

end Queue

namespace Inlet

/-- What the reading loop has to do before it needs more bytes, and a little more while it reads a
message, which costs a byte. -/
def weight : Inlet → Nat
  | .awaiting => 1
  | .reading _ => 5
  | .delivering => 2
  | .stopped => 0

theorem weight_pos (inlet : Inlet) (going : inlet ≠ .stopped) : 0 < inlet.weight := by
  cases inlet with
  | stopped => exact absurd rfl going
  | _ => simp [weight]

end Inlet

namespace Session

variable {s s' : Session} {incoming incoming' outward outward' : Pipe} {m : Message}

/-! ## What is left to do -/

/-- A bound on what the reading loop and its queue have still to do. -/
def readingWeight (s : Session) (incoming : Pipe) : Nat :=
  6 * incoming.bytes.length + 5 * s.buffer.length + 2 * s.inbound.toList.length + s.inlet.weight

/-- A bound on what the writing loop and its queue have still to do. -/
def writingWeight (s : Session) : Nat :=
  2 * s.outgoing.toList.length + if s.isWriting then 1 else 0

theorem readingWeight_stopReading (s : Session) (incoming : Pipe) :
    s.stopReading.readingWeight incoming ≤
      6 * incoming.bytes.length + 5 * s.buffer.length + 2 * s.inbound.toList.length := by
  have shorter := s.inbound.toList_withdraw_prefix.length_le
  simp only [stopReading, readingWeight, Inlet.weight]
  omega

theorem readingWeight_deliver (s : Session) (m : Message) (incoming : Pipe) :
    (s.deliver m).readingWeight incoming ≤
      6 * incoming.bytes.length + 5 * s.buffer.length + 2 * s.inbound.toList.length + 4 := by
  have longer := s.inbound.length_offer_le m
  unfold deliver
  dsimp only
  split
  · simp only [readingWeight]
    split
    · simp only [Inlet.weight]
      omega
    · simp only [Inlet.weight]
      omega
  · exact Nat.le_add_right_of_le (readingWeight_stopReading _ incoming)

theorem readingWeight_fail (s : Session) (e : SessionError) (incoming : Pipe) :
    (s.fail e).stopReading.readingWeight incoming ≤
      6 * incoming.bytes.length + 5 * s.buffer.length + 2 * s.inbound.toList.length := by
  obtain ⟨errors, failed⟩ := fail_eq s e
  rw [failed]
  exact readingWeight_stopReading _ incoming

theorem Turn.weight_lt (turn : Turn s incoming s' incoming') :
    s'.readingWeight incoming' < s.readingWeight incoming := by
  cases turn with
  | rests held room =>
      simp only [readingWeight, held, Inlet.weight]
      omega
  | abandons held alone =>
      have stopped := readingWeight_stopReading s.close incoming
      refine Nat.lt_of_le_of_lt stopped ?_
      simp only [readingWeight, held, Inlet.weight, close]
      omega
  | @begins code rest idle input known =>
      have used : s.buffer.length + incoming.bytes.length = rest.length + 1 := by
        rw [← List.length_append, input, List.length_cons]
      simp only [readingWeight, idle, Inlet.weight, Pipe.drain, List.length_nil]
      omega
  | @goesOn body count short next rest busy waits came =>
      have fewer := Reader.length_resume waits
      have some := List.length_pos_iff.mpr came
      rw [List.length_append] at fewer
      simp only [readingWeight, busy, Inlet.weight, Pipe.drain, List.length_nil]
      omega
  | @completes body m rest busy done =>
      have fewer := Reader.length_resume done
      rw [List.length_append] at fewer
      refine Nat.lt_of_le_of_lt (readingWeight_deliver _ m incoming.drain) ?_
      simp only [readingWeight, busy, Inlet.weight, Pipe.drain, List.length_nil]
      omega
  | @fails e rest going failed =>
      have fewer := Reader.length_resume failed
      have moves := s.inlet.weight_pos going.1
      rw [List.length_append] at fewer
      refine Nat.lt_of_le_of_lt (readingWeight_fail _ e incoming.drain) ?_
      simp only [readingWeight, Pipe.drain, List.length_nil]
      omega
  | runsOut going ended waits pipe =>
      have moves := s.inlet.weight_pos going.1
      have fewer : incoming'.bytes.length ≤ incoming.bytes.length := by
        rcases pipe with rfl | rfl
        · exact Nat.le_refl _
        · exact Nat.zero_le _
      refine Nat.lt_of_le_of_lt (readingWeight_fail s _ incoming') ?_
      simp only [readingWeight]
      omega

theorem Turn.isClosed (turn : Turn s incoming s' incoming') :
    incoming'.isClosed = incoming.isClosed := by
  cases turn with
  | runsOut going ended waits pipe =>
      rcases pipe with rfl | rfl
      · rfl
      · rfl
  | _ => rfl

theorem writingWeight_congr (outgoing : s'.outgoing = s.outgoing)
    (isWriting : s'.isWriting = s.isWriting) : s'.writingWeight = s.writingWeight := by
  simp only [writingWeight, outgoing, isWriting]

theorem writingWeight_of_stopped (stopped : s.isWriting = false) :
    s.writingWeight = 2 * s.outgoing.toList.length := by
  simp [writingWeight, stopped]

theorem writingWeight_of_writing (goesOn : s.isWriting = true) :
    s.writingWeight = 2 * s.outgoing.toList.length + 1 := by
  simp [writingWeight, goesOn]

theorem writingWeight_write (h : s.write outward = some (s', outward')) :
    s'.writingWeight < s.writingWeight := by
  cases stroke_of_write h with
  | @puts m outgoing goesOn next isOpen =>
      have fewer : s.outgoing.toList.length = outgoing.toList.length + 1 := by
        rw [Queue.take_eq_some next, List.length_cons]
      rw [writingWeight_of_writing goesOn]
      refine Nat.lt_of_le_of_lt (Nat.le_of_eq (writingWeight_of_writing goesOn)) ?_
      dsimp only
      omega
  | @breaks m outgoing goesOn next closed =>
      have fewer : s.outgoing.toList.length = outgoing.toList.length + 1 := by
        rw [Queue.take_eq_some next, List.length_cons]
      obtain ⟨errors, failed⟩ := fail_eq
        { s with outgoing, state := s.state.afterSent m } (.transport .brokenPipe)
      rw [failed, writingWeight_of_writing goesOn]
      refine Nat.lt_of_le_of_lt (Nat.le_of_eq (writingWeight_of_stopped rfl)) ?_
      simp only [close]
      omega
  | ends goesOn empty alone =>
      rw [writingWeight_of_writing goesOn]
      refine Nat.lt_of_le_of_lt (Nat.le_of_eq (writingWeight_of_stopped rfl)) ?_
      simp only [close]
      omega

theorem writingWeight_cancelSend (waits : s.isSending = true) :
    s.cancelSend.writingWeight < s.writingWeight := by
  have fewer : s.outgoing.withdraw.toList.length < s.outgoing.toList.length := by
    obtain ⟨m, held⟩ := Option.isSome_iff_exists.mp waits
    simp [Queue.withdraw, Queue.toList, held]
  show 2 * s.outgoing.withdraw.toList.length + (if s.isWriting then 1 else 0) <
    2 * s.outgoing.toList.length + if s.isWriting then 1 else 0
  omega

end Session

/-! ## Runs -/

/-- A session, its pipes, and what its peer and its owner have still to do.  Nobody draws from the
outward pipe here, so that it holds all that was flushed. -/
structure Traffic where
  session : Session
  incoming : Pipe
  outward : Pipe
  /-- What the peer has still to send. -/
  coming : Bytes
  /-- Whether the peer ends its stream then. -/
  ends : Bool
  /-- What the owner has still to send. -/
  script : List Message
  /-- The messages that the owner received. -/
  received : List Message
  /-- The messages that were accepted when the owner sent them. -/
  accepted : List Message

namespace Traffic

/-- A session as its handshake left it, with some bytes drawn already. -/
def start (o : SessionOptions) (state : SessionState) (buffer coming : Bytes) (ends : Bool)
    (script : List Message) : Traffic :=
  { session := Session.start o state buffer
    incoming := Pipe.fresh
    outward := Pipe.fresh
    coming, ends, script
    received := []
    accepted := [] }

/-- One move of a loop, of the owner or of the peer.  With `closing`, anybody may end the session as
well.  A message that has to wait for room is accepted when the writing loop has made room. -/
inductive Step (closing : Bool) : Traffic → Traffic → Prop
  | arrives {t : Traffic} {piece rest : Bytes} {incoming : Pipe} (nonempty : piece ≠ [])
      (split : t.coming = piece ++ rest) (put : t.incoming.write piece = some incoming) :
      Step closing t { t with incoming, coming := rest }
  | ends {t : Traffic} (all : t.coming = []) (last : t.ends = true)
      (isOpen : t.incoming.isClosed = false) :
      Step closing t { t with incoming := t.incoming.close }
  | reads {t : Traffic} {session : Session} {incoming : Pipe}
      (move : t.session.read t.incoming = some (session, incoming)) :
      Step closing t { t with session, incoming }
  | writes {t : Traffic} {session : Session} {outward : Pipe}
      (move : t.session.write t.outward = some (session, outward)) :
      Step closing t { t with
        session, outward, accepted := t.accepted ++ t.session.outgoing.waiting.toList }
  | stopsReading {t : Traffic} (closed : t.session.isClosed = true)
      (going : t.session.inlet ≠ .stopped) :
      Step closing t { t with session := t.session.stopReading }
  | stopsWriting {t : Traffic} (closed : t.session.isClosed = true)
      (going : t.session.isWriting = true) :
      Step closing t { t with
        session := (t.session.stopWriting t.outward).1
        outward := (t.session.stopWriting t.outward).2 }
  | receives {t : Traffic} {m : Message} {session : Session}
      (got : t.session.recv = (.message m, session)) :
      Step closing t { t with session, received := t.received ++ [m] }
  | sends {t : Traffic} {m : Message} {script : List Message} {session : Session}
      (next : t.script = m :: script) (free : t.session.isSending = false)
      (sent : t.session.send m = some session) :
      Step closing t { t with
        session, script, accepted := t.accepted ++ if session.isSending then [] else [m] }
  | refused {t : Traffic} {m : Message} {script : List Message} (next : t.script = m :: script)
      (free : t.session.isSending = false) (closed : t.session.send m = none) :
      Step closing t { t with script }
  | givesUp {t : Traffic} (waits : t.session.isSending = true) :
      Step closing t { t with session := t.session.cancelSend }
  | closes (t : Traffic) (allowed : closing = true) :
      Step closing t { t with session := t.session.close }
  | leaves (t : Traffic) (allowed : closing = true) :
      Step closing t { t with outward := t.outward.close }
  | releases (t : Traffic) (allowed : closing = true) :
      Step closing t { t with session := t.session.release }

/-- What a run leads to. -/
inductive Reaches (closing : Bool) (t : Traffic) : Traffic → Prop
  | refl : Reaches closing t t
  | step {t' t'' : Traffic} (before : Reaches closing t t') (last : Step closing t' t'') :
      Reaches closing t t''

def IsOver (t : Traffic) : Prop := ∀ t', ¬ Step false t t'

variable {t t' : Traffic} {closing : Bool}

theorem Reaches.invariant {I : Traffic → Prop} (reached : Reaches closing t t') (first : I t)
    (keeps : ∀ t t', I t → Step closing t t' → I t') : I t' := by
  induction reached with
  | refl => exact first
  | step _ last ih => exact keeps _ _ ih last

/-! ## Every run ends -/

def weight (t : Traffic) : Nat :=
  7 * t.coming.length + (if t.incoming.isClosed then 0 else 1) +
    t.session.readingWeight t.incoming + t.session.writingWeight + 3 * t.script.length

theorem Step.weight_lt (step : Step false t t') : t'.weight < t.weight := by
  cases step with
  | @arrives piece rest incoming nonempty split put =>
      have some := List.length_pos_iff.mpr nonempty
      unfold Pipe.write at put
      split at put
      · cases put
      · cases put
        simp only [weight, Session.readingWeight, split, List.length_append]
        omega
  | ends all last isOpen =>
      simp only [weight, Session.readingWeight, Pipe.close, isOpen]
      simp
  | reads move =>
      have turn := Session.turn_of_read move
      have less := turn.weight_lt
      obtain ⟨outgoing, isWriting⟩ := (Session.reads_of_read move).outgoing
      simp only [weight, turn.isClosed, Session.writingWeight_congr outgoing isWriting]
      omega
  | writes move =>
      have less := Session.writingWeight_write move
      obtain ⟨inbound, inlet, buffer⟩ := (Session.writes_of_write move).inbound
      simp only [weight, Session.readingWeight, inbound, inlet, buffer]
      omega
  | stopsReading closed going =>
      have less := t.session.readingWeight_stopReading t.incoming
      have moves := t.session.inlet.weight_pos going
      have same : t.session.stopReading.writingWeight = t.session.writingWeight := rfl
      simp only [weight, same]
      simp only [Session.readingWeight] at less ⊢
      omega
  | stopsWriting closed going =>
      have less := Session.writingWeight_of_writing going
      have stopped : (t.session.stopWriting t.outward).1.writingWeight =
          2 * t.session.outgoing.toList.length := Session.writingWeight_of_stopped rfl
      have same : (t.session.stopWriting t.outward).1.readingWeight t.incoming =
          t.session.readingWeight t.incoming := rfl
      simp only [weight, same]
      omega
  | receives got =>
      obtain ⟨inbound, next, rfl⟩ := Session.take_of_recv got
      have fewer : t.session.inbound.toList.length = inbound.toList.length + 1 := by
        rw [Queue.take_eq_some next, List.length_cons]
      have same : { t.session with inbound }.writingWeight = t.session.writingWeight := rfl
      simp only [weight, Session.readingWeight, same]
      omega
  | @sends m script session next free sent =>
      obtain rfl := Session.offer_of_send sent
      have longer := t.session.outgoing.length_offer_le m
      simp only [weight, Session.readingWeight, Session.writingWeight, next, List.length_cons]
      omega
  | refused next free closed =>
      simp only [weight, next, List.length_cons]
      omega
  | givesUp waits =>
      have less := Session.writingWeight_cancelSend waits
      have same : t.session.cancelSend.readingWeight t.incoming =
          t.session.readingWeight t.incoming := rfl
      simp only [weight, same]
      omega
  | closes allowed => cases allowed
  | leaves allowed => cases allowed
  | releases allowed => cases allowed

/-- **No run goes on forever**, unless somebody closes the session over and over. -/
theorem acc_step (t : Traffic) : Acc (fun after before => Step false before after) t := by
  have smaller := (measure weight).wf.apply t
  exact Subrelation.accessible (fun step => Step.weight_lt step) smaller

theorem Reaches.head {t'' : Traffic} (first : Step closing t t') (rest : Reaches closing t' t'') :
    Reaches closing t t'' := by
  induction rest with
  | refl => exact .step .refl first
  | step _ last ih => exact .step ih last

theorem exists_isOver (t : Traffic) : ∃ t', Reaches false t t' ∧ t'.IsOver := by
  induction acc_step t with
  | intro t _ ih =>
      by_cases goes : ∃ t', Step false t t'
      · obtain ⟨t', step⟩ := goes
        obtain ⟨t'', reached, isOver⟩ := ih t' step
        exact ⟨t'', reached.head step, isOver⟩
      · exact ⟨t, .refl, fun t' step => goes ⟨t', step⟩⟩

end Traffic

end RemoteFramebuffer
