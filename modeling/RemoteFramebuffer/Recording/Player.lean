/-
# `RemoteFramebuffer.Recording.Player` — reading a recording frame by frame

A frame is an update message and a delay in nanoseconds; a negative delay counts as
none.  A recording may end only between frames.
-/
import RemoteFramebuffer.Recording.Header

namespace RemoteFramebuffer

structure Frame where
  update : FramebufferUpdate
  /-- The pause before the frame, in nanoseconds. -/
  delay : Nat
deriving DecidableEq, Repr

structure Player where
  input : Bytes
  header : RecordingHeader
  state : SessionState
  /-- Frames read so far. -/
  frames : Nat

namespace Player

def ofBytes (file : Bytes) : Except SessionError Player :=
  match RecordingHeader.read.run file with
  | (.error e, _) => .error e
  | (.ok header, input) =>
    let state := SessionState.make .player header.version .none EncodingSet.all
    .ok { input, header, state := state.setDesktop header.desktop, frames := 0 }

/-- Reads a frame whose type byte has been read, as the one of a number. -/
def readFrame (format : PixelFormat) (accepted : EncodingSet) (number : Nat) (code : UInt8) :
    Reader SessionError Frame := do
  if code ≠ 0 then Reader.fail (.recording (.frameType number code))
  else
    let update ← (FramebufferUpdate.readBody format accepted).mapError fun cause =>
      .recording (.frame number cause)
    let delay ← Reader.i64.mapError fun cause => .recording (.delay number cause)
    return { update, delay := delay.toInt.toNat }

/-- The next frame, or none at the end of the recording. -/
def next (p : Player) : Except SessionError (Option Frame) × Player :=
  match Reader.u8.run p.input with
  | (.error _, input) => (.ok none, { p with input })
  | (.ok code, input) =>
    let format := p.state.desktop.format
    match (readFrame format p.state.encodings (p.frames + 1) code).run input with
    | (.error e, input) => (.error e, { p with input })
    | (.ok frame, input) =>
      let state := match frame.update.desktopSize? with
        | some (width, height) => p.state.resize width height
        | none => p.state
      (.ok (some frame), { p with input, state, frames := p.frames + 1 })

end Player

end RemoteFramebuffer
