/-
# `RemoteFramebuffer.Recording.Playback` — a recording shown to a viewer

Playback owns an acceptor's session.  It answers every request for an update with the
next frame, after the pause that was recorded, and ignores what else the viewer says.
After the last frame it waits for the viewer to leave.
-/
import RemoteFramebuffer.Recording.Player
import RemoteFramebuffer.Session

namespace RemoteFramebuffer

namespace Playback

inductive Phase
  /-- The next frame is to be read. -/
  | seeking
  /-- A frame waits for a request. -/
  | awaiting (frame : Frame)
  /-- A frame waits until a time. -/
  | pausing (deadline : Nat) (frame : Frame)
  /-- A frame was offered to the session. -/
  | sending
  /-- There is nothing more to show. -/
  | draining
  /-- The viewer has left, and the loops are coming to an end. -/
  | closing
  | finished (result : Except SessionError Unit)

/-- Pauses end on whole milliseconds. -/
def tick : Nat := 1000000

def deadlineAfter (now delay : Nat) : Nat := (now + delay + (tick - 1)) / tick * tick

end Playback

structure Playback where
  player : Player
  phase : Playback.Phase

namespace Playback

def start (player : Player) : Playback := ⟨player, .seeking⟩

def deadline? (p : Playback) : Option Nat :=
  match p.phase with
  | .pausing deadline _ => some deadline
  | _ => none

/-- The playback is finished and lets its session go. -/
def finish (p : Playback) (result : Except SessionError Unit) (s : Session) : Playback × Session :=
  ({ p with phase := .finished result }, s.release)

def seek (p : Playback) (s : Session) : Playback × Session :=
  match p.player.next with
  | (.error e, player) => { p with player }.finish (.error e) s
  | (.ok none, player) => ({ player, phase := .draining }, s)
  | (.ok (some frame), player) => ({ player, phase := .awaiting frame }, s)

/-- Whether a message is a request for an update. -/
def isRequest : Message → Bool
  | .client (.framebufferUpdateRequest _ _) => true
  | _ => false

/-- One move of the playback at a time; pauses that end by `due` are over. -/
def step (now due : Nat) (p : Playback) (s : Session) : Option (Playback × Session) :=
  match p.phase with
  | .seeking => some (p.seek s)
  | .awaiting frame =>
    match s.recv with
    | (.message m, s) =>
      let phase := if isRequest m then .pausing (deadlineAfter now frame.delay) frame else p.phase
      some ({ p with phase }, s)
    | (.empty, _) => none
    | (.closed, s) => some ({ p with phase := .draining }, s)
  | .pausing deadline frame =>
    if due < deadline then none
    else match s.send (.server (.framebufferUpdate frame.update)) with
      | some s => some ({ p with phase := .sending }, s)
      | none => some ({ p with phase := .draining }, s)
  | .sending =>
    if !s.isSending then some ({ p with phase := .seeking }, s)
    else if s.isWriting then none
    else some ({ p with phase := .draining }, s.cancelSend)
  | .draining =>
    match s.recv with
    | (.message _, s) => some (p, s)
    | (.empty, _) => none
    | (.closed, s) => some ({ p with phase := .closing }, s)
  | .closing => if s.hasStopped then some (p.finish s.outcome s) else none
  | .finished _ => none

end Playback

end RemoteFramebuffer
