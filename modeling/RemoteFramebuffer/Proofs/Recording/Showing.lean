/-
# `RemoteFramebuffer.Proofs.Recording.Showing` — one frame for each request

## What is proved

Of every recording that plays to its end, every acceptor's session and whatever a viewer sends, let
the loops, the viewer, the playback and whoever closes the session move in any order
(`one_frame_per_request`).  Wherever that leads,

    the updates that were sent     are the first ones of the recording, in its order, as they are
    their number                   is at most that of the requests that were taken
    while the session is open      they are on the stream or in the queue, and as many as the
                                   requests, or all there are; during a pause one is missing
    once the pause is over         the playback's next move sends it

## How it is proved

A `Showing` is a playback with the connection of its session, what the playback took from the queue
and which updates it sent.  `Step` lets the loops, the viewer and anybody who closes the session
move in any order, and the playback at any time.

Where the playback stands says how many requests it took beside the updates that it sent:

    seeking, awaiting, sending    as many
    pausing                       one more, which the frame at hand is to answer
    draining and later            as many or more; if the session is open, no frame is left

`Course` is this and what of the recording is still to come.  Every move of the playback keeps it
(`Course.moves`), and whatever else moves has a say in it only by closing the session.

## What it is not

That a pause has the length that was recorded: the clock is whoever moves the playback, and a pause
is over when it says so.
-/
import RemoteFramebuffer.Proofs.Recording.Replay
import RemoteFramebuffer.Proofs.Session.Connection
import RemoteFramebuffer.Recording.Playback

namespace RemoteFramebuffer

/-! ## Open sessions -/

namespace Session

variable {s : Session}

/-- Nobody has closed the session, and both loops go on. -/
structure IsOpen (s : Session) : Prop where
  notClosed : s.isClosed = false
  reading : s.inlet.isStopped = false
  writing : s.isWriting = true

/-- A session that is open after a message was taken in was not closed before. -/
theorem isClosed_of_deliver {m : Message} (h : (s.deliver m).isClosed = false) :
    s.isClosed = false := by
  unfold deliver at h
  dsimp only at h
  split at h
  · exact h
  · cases h

theorem recv_cases (s : Session) : (∃ m inbound, s.recv = (.message m, { s with inbound })) ∨
    s.recv = (.empty, s) ∨ s.recv = (.closed, s) ∧ s.inlet.isStopped = true := by
  unfold recv
  split
  · exact .inl ⟨_, _, rfl⟩
  · split
    · rename_i stopped
      exact .inr (.inr ⟨rfl, stopped⟩)
    · exact .inr (.inl rfl)

end Session

namespace Connection

variable {c c' : Connection}

theorem Step.was_open (step : Step c c') (h : c'.session.IsOpen) : c.session.IsOpen := by
  cases step with
  | reads move =>
      cases Session.turn_of_read move with
      | rests held room => exact ⟨h.notClosed, by rw [held]; rfl, h.writing⟩
      | abandons held alone => cases h.notClosed
      | begins idle input known => exact ⟨h.notClosed, by rw [idle]; rfl, h.writing⟩
      | goesOn busy waits came => exact ⟨h.notClosed, by rw [busy]; rfl, h.writing⟩
      | completes busy done =>
          have notClosed := Session.isClosed_of_deliver h.notClosed
          have writing := h.writing
          rw [(Session.outgoing_deliver _ _).2] at writing
          exact ⟨notClosed, by rw [busy]; rfl, writing⟩
      | fails going failed => cases h.reading
      | runsOut going ended waits pipe => cases h.reading
  | writes move =>
      cases Session.stroke_of_write move with
      | puts goesOn next isOpen => exact ⟨h.notClosed, h.reading, goesOn⟩
      | breaks goesOn next closed => cases h.writing
      | ends goesOn empty alone => cases h.writing
  | stopsReading => cases h.reading
  | stopsWriting => cases h.writing
  | closes => cases h.notClosed
  | _ => exact h

theorem Step.room (step : Step c c') (room : c.session.outgoing.waiting = none) :
    c'.session.outgoing.waiting = none := by
  cases step with
  | reads move =>
      rw [(Session.reads_of_read move).outgoing.1]
      exact room
  | writes move =>
      cases Session.stroke_of_write move with
      | puts goesOn next => exact Queue.waiting_take next
      | @breaks m outgoing goesOn next closed =>
          obtain ⟨errors, failed⟩ := Session.fail_eq
            { c.session with outgoing, state := c.session.state.afterSent m } (.transport .brokenPipe)
          rw [failed]
          exact Queue.waiting_take next
      | ends goesOn empty alone => exact room
  | _ => exact room

end Connection

namespace Player.Plays

variable {player : Player} {frames : List Frame} {f : Frame} {e : SessionError}

theorem of_frame (plays : player.Plays frames (.ok ())) (next : player.next.1 = .ok (some f)) :
    ∃ later, frames = f :: later ∧ player.next.2.Plays later (.ok ()) := by
  cases plays with
  | ends next' => cases next.symm.trans next'
  | frame next' later =>
      cases next.symm.trans next'
      exact ⟨_, rfl, later⟩

theorem of_end (plays : player.Plays frames (.ok ())) (next : player.next.1 = .ok none) :
    frames = [] := by
  cases plays with
  | ends next' => rfl
  | frame next' later => cases next.symm.trans next'

theorem next_ne_error (plays : player.Plays frames (.ok ())) : player.next.1 ≠ .error e := by
  intro next
  cases plays with
  | ends next' => cases next.symm.trans next'
  | frame next' later => cases next.symm.trans next'

end Player.Plays

namespace Playback

/-! ## Moves of the playback -/

def message (update : FramebufferUpdate) : Message := .server (.framebufferUpdate update)

variable {p p' : Playback} {s s' : Session}

/-- The message that the next move takes from the queue. -/
def takes (p : Playback) (s : Session) : Option Message :=
  match p.phase, s.recv.1 with
  | .awaiting _, .message m | .draining, .message m => some m
  | _, _ => none

def sends (p : Playback) (s : Session) : Option FramebufferUpdate :=
  match p.phase with
  | .pausing _ frame => if s.isClosed then none else some frame.update
  | _ => none

/-- What a move of the playback can be: the message that it takes, the update that it sends, and
what the playback and its session are then. -/
inductive Moves (p : Playback) (s : Session) :
    Option Message → Option FramebufferUpdate → Playback → Session → Prop
  | finds {frame : Frame} (seeking : p.phase = .seeking)
      (next : p.player.next.1 = .ok (some frame)) :
      Moves p s none none ⟨p.player.next.2, .awaiting frame⟩ s
  | runsOut (seeking : p.phase = .seeking) (next : p.player.next.1 = .ok none) :
      Moves p s none none ⟨p.player.next.2, .draining⟩ s
  | breaksOff {e : SessionError} (seeking : p.phase = .seeking)
      (next : p.player.next.1 = .error e) :
      Moves p s none none ⟨p.player.next.2, .finished (.error e)⟩ s.release
  | answers {frame : Frame} {m : Message} {inbound : Queue Message} (now : Nat)
      (awaiting : p.phase = .awaiting frame) (got : s.recv = (.message m, { s with inbound }))
      (asked : isRequest m = true) :
      Moves p s (some m) none ⟨p.player, .pausing (deadlineAfter now frame.delay) frame⟩
        { s with inbound }
  | ignores {frame : Frame} {m : Message} {inbound : Queue Message}
      (awaiting : p.phase = .awaiting frame) (got : s.recv = (.message m, { s with inbound }))
      (other : isRequest m = false) : Moves p s (some m) none p { s with inbound }
  | deserted {frame : Frame} (awaiting : p.phase = .awaiting frame)
      (stopped : s.inlet.isStopped = true) : Moves p s none none ⟨p.player, .draining⟩ s
  | sends {deadline : Nat} {frame : Frame} (pausing : p.phase = .pausing deadline frame)
      (isOpen : s.isClosed = false) :
      Moves p s none (some frame.update) ⟨p.player, .sending⟩
        { s with outgoing := s.outgoing.offer (message frame.update) }
  | refused {deadline : Nat} {frame : Frame} (pausing : p.phase = .pausing deadline frame)
      (closed : s.isClosed = true) : Moves p s none none ⟨p.player, .draining⟩ s
  | resumes (sending : p.phase = .sending) (room : s.outgoing.waiting = none) :
      Moves p s none none ⟨p.player, .seeking⟩ s
  | givesUp (sending : p.phase = .sending) (stopped : s.isWriting = false) :
      Moves p s none none ⟨p.player, .draining⟩ s.cancelSend
  | drops {m : Message} {inbound : Queue Message} (draining : p.phase = .draining)
      (got : s.recv = (.message m, { s with inbound })) :
      Moves p s (some m) none p { s with inbound }
  | leaves (draining : p.phase = .draining) : Moves p s none none ⟨p.player, .closing⟩ s
  | finishes (closing : p.phase = .closing) (stopped : s.hasStopped = true) :
      Moves p s none none ⟨p.player, .finished s.outcome⟩ s.release

theorem moves_of_seek (seeking : p.phase = .seeking) (h : p.seek s = (p', s')) :
    Moves p s none none p' s' := by
  unfold seek at h
  split at h
  · rename_i e after next
    obtain rfl : p.player.next.2 = after := congrArg Prod.snd next
    cases h
    exact .breaksOff seeking (congrArg Prod.fst next)
  · rename_i after next
    obtain rfl : p.player.next.2 = after := congrArg Prod.snd next
    cases h
    exact .runsOut seeking (congrArg Prod.fst next)
  · rename_i frame after next
    obtain rfl : p.player.next.2 = after := congrArg Prod.snd next
    cases h
    exact .finds seeking (congrArg Prod.fst next)

theorem moves_of_step {now due : Nat} (h : p.step now due s = some (p', s')) :
    Moves p s (p.takes s) (p.sends s) p' s' := by
  obtain ⟨player, phase⟩ := p
  cases phase with
  | seeking => exact moves_of_seek rfl (Option.some.inj h)
  | awaiting frame =>
      unfold step takes at *
      rcases s.recv_cases with ⟨m, inbound, got⟩ | got | ⟨got, stopped⟩ <;> rw [got] at h ⊢
      · dsimp only at h
        cases asked : isRequest m with
        | true =>
            rw [asked] at h
            cases h
            exact .answers now rfl got asked
        | false =>
            rw [asked] at h
            cases h
            exact .ignores rfl got asked
      · cases h
      · cases h
        exact .deserted rfl stopped
  | pausing deadline frame =>
      unfold step Session.send at h
      unfold Playback.sends
      dsimp only at h ⊢
      split at h
      · cases h
      · by_cases closed : s.isClosed = true
        · rw [if_pos closed] at h ⊢
          cases h
          exact .refused rfl closed
        · rw [if_neg closed] at h ⊢
          cases h
          exact .sends rfl (by simpa using closed)
  | sending =>
      unfold step at h
      dsimp only at h
      split at h
      · rename_i free
        cases h
        exact .resumes rfl (by simpa [Session.isSending, Queue.isHeldUp] using free)
      · split at h
        · cases h
        · rename_i stopped
          cases h
          exact .givesUp rfl (by simpa using stopped)
  | draining =>
      unfold step takes at *
      rcases s.recv_cases with ⟨m, inbound, got⟩ | got | ⟨got, stopped⟩ <;> rw [got] at h ⊢
      · cases h
        exact .drops rfl got
      · cases h
      · cases h
        exact .leaves rfl
  | closing =>
      unfold step at h
      dsimp only at h
      split at h
      · rename_i stopped
        cases h
        exact .finishes rfl stopped
      · cases h
  | finished result => cases h

theorem phase_of_deadline {deadline : Nat} (h : p.deadline? = some deadline) :
    ∃ frame, p.phase = .pausing deadline frame := by
  unfold deadline? at h
  split at h
  · rename_i time frame pausing
    cases h
    exact ⟨frame, pausing⟩
  · cases h

theorem step_of_pausing {deadline due : Nat} {frame : Frame}
    (pausing : p.phase = .pausing deadline frame) (isOpen : s.isClosed = false) (now : Nat)
    (le : deadline ≤ due) :
    p.step now due s = some (⟨p.player, .sending⟩,
      { s with outgoing := s.outgoing.offer (message frame.update) }) := by
  rw [step, pausing]
  dsimp only [message]
  rw [if_neg (Nat.not_lt.mpr le), Session.send_of_open isOpen]

/-! ## Interleavings -/

/-- A playback with its connection, the messages that it took and the updates that it sent. -/
structure Showing where
  playback : Playback
  connection : Connection
  taken : List Message
  sent : List FramebufferUpdate

namespace Showing

/-- A player whose session is as its handshake left it. -/
def start (player : Player) (connection : Connection) : Showing :=
  ⟨Playback.start player, connection, [], []⟩

def move (now due : Nat) (x : Showing) : Option Showing :=
  (x.playback.step now due x.connection.session).map fun (playback, session) =>
    { playback
      connection := { x.connection with session }
      taken := x.taken ++ (x.playback.takes x.connection.session).toList
      sent := x.sent ++ (x.playback.sends x.connection.session).toList }

inductive Step : Showing → Showing → Prop
  | connection {x : Showing} {c : Connection} (step : x.connection.Step c) :
      Step x { x with connection := c }
  | playback {x x' : Showing} {now due : Nat} (moved : x.move now due = some x') : Step x x'

inductive Reaches : Showing → Showing → Prop
  | refl (x : Showing) : Reaches x x
  | step {x x' x'' : Showing} (first : Step x x') (rest : Reaches x' x'') : Reaches x x''

/-- How many of the messages taken were requests. -/
def requests (x : Showing) : Nat := x.taken.countP isRequest

end Showing

/-! ## What stays true -/

/-- Some frames of the recording were sent, and the others are still to come: where the playback
stands says how many requests it took for them. -/
def Course (frames : List Frame) (isOpen : Prop) (p : Playback) (requests : Nat)
    (sent : List FramebufferUpdate) : Prop :=
  ∃ shown rest, frames = shown ++ rest ∧ sent = shown.map Frame.update ∧
    match p.phase with
    | .seeking | .sending => p.player.Plays rest (.ok ()) ∧ requests = shown.length
    | .awaiting frame =>
      ∃ later, rest = frame :: later ∧ p.player.Plays later (.ok ()) ∧ requests = shown.length
    | .pausing _ frame =>
      ∃ later, rest = frame :: later ∧ p.player.Plays later (.ok ()) ∧ requests = shown.length + 1
    | .draining | .closing | .finished _ => shown.length ≤ requests ∧ (isOpen → rest = [])

variable {frames : List Frame} {isOpen isOpen' : Prop} {requests : Nat}
  {sent : List FramebufferUpdate} {took : Option Message} {gave : Option FramebufferUpdate}

theorem Course.mono (h : Course frames isOpen p requests sent) (le : isOpen' → isOpen) :
    Course frames isOpen' p requests sent := by
  obtain ⟨shown, rest, split, same, stands⟩ := h
  refine ⟨shown, rest, split, same, ?_⟩
  generalize p.phase = phase at stands ⊢
  cases phase with
  | seeking | awaiting frame | pausing deadline frame | sending => exact stands
  | draining | closing | finished result => exact ⟨stands.1, fun h => stands.2 (le h)⟩

namespace Course

/-- Every move keeps the course: a request that is taken is for the frame at hand, and a session
that stays open is not given up before the recording ends. -/
theorem moves (h : Course frames s.IsOpen p requests sent) (moves : Moves p s took gave p' s') :
    Course frames s'.IsOpen p' (requests + took.toList.countP isRequest)
      (sent ++ gave.toList) := by
  obtain ⟨shown, rest, split, same, stands⟩ := h
  have unsent : sent ++ (none : Option FramebufferUpdate).toList = shown.map Frame.update :=
    (List.append_nil sent).trans same
  cases moves with
  | finds seeking next =>
      rw [seeking] at stands
      obtain ⟨later, rfl, plays⟩ := stands.1.of_frame next
      exact ⟨shown, _, split, unsent, later, rfl, plays, stands.2⟩
  | runsOut seeking next =>
      rw [seeking] at stands
      obtain rfl := stands.1.of_end next
      exact ⟨shown, [], split, unsent, Nat.le_of_eq stands.2.symm, fun _ => rfl⟩
  | breaksOff seeking next =>
      rw [seeking] at stands
      exact absurd next stands.1.next_ne_error
  | @answers frame m _ now awaiting got asked =>
      rw [awaiting] at stands
      obtain ⟨later, rfl, plays, counted⟩ := stands
      have one : [m].countP isRequest = 1 := by rw [List.countP_singleton, if_pos asked]
      exact ⟨shown, _, split, unsent, later, rfl, plays, by rw [counted, Option.toList_some, one]⟩
  | @ignores frame m _ awaiting got other =>
      rw [awaiting] at stands
      have zero : [m].countP isRequest = 0 := by
        rw [List.countP_singleton, other, if_neg Bool.false_ne_true]
      refine ⟨shown, rest, split, unsent, ?_⟩
      rw [awaiting, Option.toList_some, zero]
      exact stands
  | deserted awaiting stopped =>
      rw [awaiting] at stands
      obtain ⟨later, rfl, -, counted⟩ := stands
      refine ⟨shown, _, split, unsent, Nat.le_of_eq counted.symm, fun isOpen => ?_⟩
      exact absurd (stopped.symm.trans isOpen.reading) nofun
  | @sends deadline frame pausing isOpen =>
      rw [pausing] at stands
      obtain ⟨later, rfl, plays, counted⟩ := stands
      refine ⟨shown ++ [frame], later, ?_, ?_, plays, ?_⟩
      · rw [split, List.append_assoc, List.singleton_append]
      · rw [same, List.map_append]
        rfl
      · rw [counted, List.length_append]
        rfl
  | refused pausing closed =>
      rw [pausing] at stands
      obtain ⟨later, rfl, -, counted⟩ := stands
      refine ⟨shown, _, split, unsent, counted ▸ Nat.le_succ _, fun isOpen => ?_⟩
      exact absurd (closed.symm.trans isOpen.notClosed) nofun
  | resumes sending room =>
      rw [sending] at stands
      exact ⟨shown, rest, split, unsent, stands⟩
  | givesUp sending stopped =>
      rw [sending] at stands
      refine ⟨shown, rest, split, unsent, Nat.le_of_eq stands.2.symm, fun isOpen => ?_⟩
      exact absurd (stopped.symm.trans isOpen.writing) nofun
  | drops draining got =>
      rw [draining] at stands
      refine ⟨shown, rest, split, unsent, ?_⟩
      rw [draining]
      refine ⟨Nat.le_add_right_of_le stands.1, fun isOpen => ?_⟩
      exact stands.2 ⟨isOpen.notClosed, isOpen.reading, isOpen.writing⟩
  | leaves draining =>
      rw [draining] at stands
      exact ⟨shown, rest, split, unsent, stands⟩
  | finishes closing stopped =>
      rw [closing] at stands
      exact ⟨shown, rest, split, unsent, stands.1, fun isOpen => nomatch isOpen.notClosed⟩

theorem sent_prefix (h : Course frames isOpen p requests sent) :
    sent <+: frames.map Frame.update := by
  obtain ⟨shown, rest, rfl, rfl, -⟩ := h
  rw [List.map_append]
  exact List.prefix_append _ _

theorem length_sent_le (h : Course frames isOpen p requests sent) : sent.length ≤ requests := by
  obtain ⟨shown, rest, -, rfl, stands⟩ := h
  rw [List.length_map]
  generalize p.phase = phase at stands
  cases phase with
  | seeking | sending => exact Nat.le_of_eq stands.2.symm
  | awaiting frame =>
      obtain ⟨later, -, -, counted⟩ := stands
      exact Nat.le_of_eq counted.symm
  | pausing deadline frame =>
      obtain ⟨later, -, -, counted⟩ := stands
      exact counted ▸ Nat.le_succ _
  | draining | closing | finished result => exact stands.1

/-- But for a frame that is about to be sent, every request was answered while there were frames. -/
theorem sent_eq (h : Course frames isOpen p requests sent) (opened : isOpen)
    (rested : p.deadline? = none) : sent = (frames.map Frame.update).take requests := by
  obtain ⟨shown, rest, rfl, rfl, stands⟩ := h
  have some_left (counted : requests = shown.length) :
      shown.map Frame.update = ((shown ++ rest).map Frame.update).take requests := by
    rw [counted, ← List.map_take, List.take_left]
  have none_left (ended : shown.length ≤ requests ∧ (isOpen → rest = [])) :
      shown.map Frame.update = ((shown ++ rest).map Frame.update).take requests := by
    rw [ended.2 opened, List.append_nil, ← List.map_take, List.take_of_length_le ended.1]
  unfold deadline? at rested
  generalize p.phase = phase at stands rested
  cases phase with
  | seeking | sending => exact some_left stands.2
  | awaiting frame =>
      obtain ⟨later, -, -, counted⟩ := stands
      exact some_left counted
  | pausing deadline frame => cases rested
  | draining | closing | finished result => exact none_left stands

end Course

namespace Moves

variable {heard taken offered said : List Message}

theorem frame (moves : Moves p s took gave p' s') :
    s'.inlet = s.inlet ∧ s'.buffer = s.buffer ∧ s'.state = s.state := by
  cases moves with
  | _ => exact ⟨rfl, rfl, rfl⟩

theorem inflow (moves : Moves p s took gave p' s') (h : s.Inflow heard taken) :
    s'.Inflow heard (taken ++ took.toList) := by
  cases moves with
  | answers now awaiting got asked => exact h.recv got
  | ignores awaiting got other => exact h.recv got
  | drops draining got => exact h.recv got
  | _ =>
      rw [Option.toList_none, List.append_nil]
      exact h.congr rfl rfl

theorem room (moves : Moves p s took gave p' s')
    (room : p.phase ≠ .sending → s.outgoing.waiting = none) (other : p'.phase ≠ .sending) :
    s'.outgoing.waiting = none := by
  cases moves with
  | finds seeking next => exact room (by rw [seeking]; nofun)
  | runsOut seeking next => exact room (by rw [seeking]; nofun)
  | breaksOff seeking next => rfl
  | answers now awaiting got asked => exact room (by rw [awaiting]; nofun)
  | ignores awaiting got asked => exact room other
  | deserted awaiting stopped => exact room (by rw [awaiting]; nofun)
  | sends pausing isOpen => exact absurd rfl other
  | refused pausing closed => exact room (by rw [pausing]; nofun)
  | resumes sending free => exact free
  | givesUp sending stopped => rfl
  | drops draining got => exact room other
  | leaves draining => exact room (by rw [draining]; nofun)
  | finishes closing stopped => rfl

theorem outflow (moves : Moves p s took gave p' s') (h : s.Outflow offered said)
    (room : p.phase ≠ .sending → s.outgoing.waiting = none) :
    s'.Outflow (offered ++ gave.toList.map message) said := by
  cases moves with
  | @sends deadline frame pausing isOpen =>
      exact h.send (room (by rw [pausing]; nofun)) (Session.send_of_open isOpen _)
  | breaksOff seeking next =>
      rw [Option.toList_none, List.map_nil, List.append_nil]
      have free := room (by rw [seeking]; nofun)
      refine ⟨h.kept, fun goesOn => ?_⟩
      rw [Session.release, Queue.toList_withdraw _ free]
      exact h.all goesOn
  | givesUp sending stopped =>
      rw [Option.toList_none, List.map_nil, List.append_nil]
      exact .of_stopped stopped h.kept
  | finishes closing stopped =>
      rw [Option.toList_none, List.map_nil, List.append_nil]
      have ended : s.isWriting = false := by
        simpa using (Bool.and_eq_true_iff.mp stopped).2
      exact .of_stopped ended h.kept
  | _ =>
      rw [Option.toList_none, List.map_nil, List.append_nil]
      exact h.congr rfl rfl

end Moves

namespace Showing

/-- Where the messages and the frames are. -/
structure Progress (frames : List Frame) (x : Showing) : Prop where
  faithful : x.connection.Faithful
  role : x.connection.session.state.role = .server
  inflow : x.connection.session.Inflow x.connection.heard x.taken
  outflow : x.connection.session.Outflow (x.sent.map message) x.connection.said
  room : x.playback.phase ≠ .sending → x.connection.session.outgoing.waiting = none
  course : Course frames x.connection.session.IsOpen x.playback x.requests x.sent

variable {x x' : Showing} {player : Player} {now due : Nat}

theorem moves_of_move (moved : x.move now due = some x') :
    Moves x.playback x.connection.session (x.playback.takes x.connection.session)
        (x.playback.sends x.connection.session) x'.playback x'.connection.session ∧
      x' =
        { playback := x'.playback
          connection := { x.connection with session := x'.connection.session }
          taken := x.taken ++ (x.playback.takes x.connection.session).toList
          sent := x.sent ++ (x.playback.sends x.connection.session).toList } := by
  obtain ⟨⟨playback, session⟩, step, rfl⟩ := Option.map_eq_some_iff.mp moved
  exact ⟨moves_of_step step, rfl⟩

namespace Progress

theorem start (plays : player.Plays frames (.ok ())) (options : SessionOptions)
    {state : SessionState} (acceptor : state.role = .server) (drawn : Bytes)
    (incoming outward : Pipe) :
    Progress frames
      (Showing.start player (Connection.start options state drawn incoming outward)) where
  faithful := .start options state drawn incoming outward
  role := acceptor
  inflow := ⟨List.prefix_rfl, fun _ => rfl, fun _ => rfl⟩
  outflow := ⟨List.prefix_rfl, fun _ => rfl⟩
  room := fun _ => rfl
  course := ⟨[], frames, rfl, rfl, plays, rfl⟩

theorem playback (h : Progress frames x) (moved : x.move now due = some x') :
    Progress frames x' := by
  obtain ⟨moves, after⟩ := moves_of_move moved
  obtain ⟨inlet, buffer, state⟩ := moves.frame
  have inflow := moves.inflow h.inflow
  have outflow := moves.outflow h.outflow h.room
  have room := moves.room h.room
  have course := h.course.moves moves
  rw [after]
  rw [← List.map_append] at outflow
  refine ⟨h.faithful.congr inlet buffer state, ?_, inflow, outflow, room, ?_⟩
  · rw [← h.role]
    exact congrArg SessionState.role state
  · rw [requests, List.countP_append]
    exact course

theorem step (h : Progress frames x) (step : Step x x') : Progress frames x' := by
  cases step with
  | connection step =>
      exact ⟨step.faithful h.faithful, step.alike.1.trans h.role, step.inflow h.inflow,
        step.outflow h.outflow, fun other => step.room (h.room other),
        h.course.mono step.was_open⟩
  | playback moved => exact h.playback moved

theorem reaches (h : Progress frames x) (reached : Reaches x x') : Progress frames x' := by
  induction reached with
  | refl x => exact h
  | step first _ ih => exact ih (h.step first)

/-- Once the pause is over, the request that was taken is answered. -/
theorem answers (h : Progress frames x) (isOpen : x.connection.session.IsOpen)
    {deadline : Nat} (pausing : x.playback.deadline? = some deadline) (now : Nat)
    (le : deadline ≤ due) :
    ∃ x', x.move now due = some x' ∧ x'.taken = x.taken ∧
      x'.sent = (frames.map Frame.update).take x.requests := by
  obtain ⟨frame, phase⟩ := phase_of_deadline pausing
  have nothing : x.playback.takes x.connection.session = none := by rw [takes, phase]
  obtain ⟨x', moved, sending, stillOpen, taken⟩ : ∃ x', x.move now due = some x' ∧
      x'.playback.phase = .sending ∧ x'.connection.session.IsOpen ∧ x'.taken = x.taken := by
    rw [move, step_of_pausing phase isOpen.notClosed now le, nothing]
    exact ⟨_, rfl, rfl, ⟨isOpen.notClosed, isOpen.reading, isOpen.writing⟩, List.append_nil _⟩
  have rested : x'.playback.deadline? = none := by rw [deadline?, sending]
  have sent := (h.playback moved).course.sent_eq stillOpen rested
  rw [requests, taken] at sent
  exact ⟨x', moved, taken, sent⟩

end Progress

/-- **A recording is shown with one frame for each request.**  Whatever the viewer sends and however
the loops, the playback and the viewer take turns: the updates that were sent are the first ones of
the recording, in its order and unchanged, and no more than the requests that were taken from the
queue.  As long as the session is open they are on the stream or in the queue, and are as many as
the requests, or all that were recorded; during a pause one is missing, and it is sent as soon as
the pause is over.  Messages that are no requests do not matter. -/
theorem one_frame_per_request (plays : player.Plays frames (.ok ())) (options : SessionOptions)
    {state : SessionState} (acceptor : state.role = .server) (drawn : Bytes)
    (incoming outward : Pipe)
    (reached : Reaches
      (start player (Connection.start options state drawn incoming outward)) x) :
    (∃ read : List ClientMessage, x.connection.heard = read.map .client ∧
      ∃ rest, Part.Stand (read.flatMap ClientMessage.parts) x.connection.arrived rest) ∧
    x.taken <+: x.connection.heard ∧
    x.sent <+: frames.map Frame.update ∧
    x.sent.length ≤ x.requests ∧
    x.connection.said <+: x.sent.map message ∧
    x.connection.left = x.connection.said.flatMap Message.encode ∧
    (x.connection.session.IsOpen →
      x.connection.said ++ x.connection.session.outgoing.toList = x.sent.map message ∧
      (x.playback.deadline? = none → x.sent = (frames.map Frame.update).take x.requests) ∧
      ∀ deadline, x.playback.deadline? = some deadline → ∀ now due, deadline ≤ due →
        ∃ x', x.move now due = some x' ∧ x'.taken = x.taken ∧
          x'.sent = (frames.map Frame.update).take x.requests) := by
  have progress : Progress frames x :=
    (Progress.start plays options acceptor drawn incoming outward).reaches reached
  refine ⟨?_, progress.inflow.taken_prefix, progress.course.sent_prefix,
    progress.course.length_sent_le, progress.outflow.kept, progress.faithful.left, fun isOpen => ?_⟩
  · obtain ⟨rest, stand, -⟩ := progress.faithful.stand
    have kind := progress.faithful.kind
    rw [progress.role] at kind
    obtain ⟨read, heard⟩ := Message.exists_client kind
    rw [heard, List.flatMap_map] at stand
    exact ⟨read, heard, rest, stand⟩
  · exact ⟨progress.outflow.all isOpen.writing, progress.course.sent_eq isOpen,
      fun deadline pausing now due le => progress.answers isOpen pausing now le⟩

/-- A player of what is left of a recording, with some frames read already. -/
def playerOf (input : Bytes) (read : Nat) : Player :=
  { input
    header := Player.onePixel
    state := SessionState.make .player .v38 .none EncodingSet.all
    frames := read }

/-- Two frames are recorded.  The viewer presses a key and asks for an update, and has the first
frame; the other one waits. -/
theorem one_frame_per_request_key :
    let earlier : Bytes := [0, 0, 0, 0, 0, 0, 0, 0, 0, 0, 0, 7]
    let later : Bytes := [0, 0, 0, 0, 0, 0, 0, 0, 0, 0, 0, 9]
    let player := playerOf (earlier ++ later) 0
    let frames : List Frame := [⟨⟨0, []⟩, 7⟩, ⟨⟨0, []⟩, 9⟩]
    let state := SessionState.make .server .v38 .none EncodingSet.empty
    player.Plays frames (.ok ()) ∧ state.role = .server ∧
      ∃ x, Reaches (start player (Connection.start .standard state [] Pipe.fresh Pipe.fresh)) x ∧
        x.taken.length = 2 ∧ x.requests = 1 ∧ x.sent = (frames.map Frame.update).take 1 := by
  intro earlier later player frames state
  let between := playerOf later 1
  have first : player.next = (.ok (some ⟨⟨0, []⟩, 7⟩), between) := by rfl
  have second : between.next = (.ok (some ⟨⟨0, []⟩, 9⟩), playerOf [] 2) := by rfl
  have plays : player.Plays frames (.ok ()) := by
    refine .frame (by rw [first]) ?_
    rw [first]
    refine .frame (by rw [second]) ?_
    rw [second]
    exact .ends rfl
  let opened := start player (Connection.start .standard state [] Pipe.fresh Pipe.fresh)
  have sought : opened.move 0 0 =
      some { opened with playback := ⟨between, .awaiting ⟨⟨0, []⟩, 7⟩⟩ } := by
    unfold move step seek
    dsimp only [opened, start, Playback.start]
    rw [first]
    rfl
  obtain ⟨x, reached, rested, isOpen, both, one⟩ : ∃ x, Reaches opened x ∧
      x.playback.deadline? = none ∧ x.connection.session.IsOpen ∧
      x.taken.length = 2 ∧ x.requests = 1 := by
    exact ⟨_, .step (.playback sought) (.step (.connection (@Connection.Step.arrives _
        [4, 1, 0, 0, 0, 0, 0, 97, 3, 0, 0, 0, 0, 0, 0, 1, 0, 1] _ rfl))
      (.step (.connection (.reads rfl))
      (.step (.connection (.reads rfl))
      (.step (.connection (.reads rfl))
      (.step (.connection (.reads rfl))
      (.step (@Step.playback _ _ 0 0 rfl)
      (.step (@Step.playback _ _ 0 0 rfl)
      (.step (@Step.playback _ _ 0 tick rfl) (.refl _))))))))), rfl, ⟨rfl, rfl, rfl⟩, rfl, rfl⟩
  obtain ⟨-, -, -, -, -, -, answered⟩ :=
    one_frame_per_request plays .standard rfl [] Pipe.fresh Pipe.fresh reached
  have sent := (answered isOpen).2.1 rested
  rw [one] at sent
  exact ⟨plays, rfl, x, reached, both, one, sent⟩

end Showing

end Playback

end RemoteFramebuffer
