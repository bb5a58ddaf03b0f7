/-
# `RemoteFramebuffer.Recording.Recorder` — writing a recording frame by frame

The first frame has no delay; every other carries the time since the one before it.

Recording a session asks for its encodings and for the whole desktop, writes every update
down as a frame, and then asks for what has changed.  Other messages are not recorded.

A recording is kept under the name that is wanted, or with the time in it if there is a file of
that name.
-/
import RemoteFramebuffer.Recording.Header
import RemoteFramebuffer.Session.Consumer
import RemoteFramebuffer.Session.Options

namespace RemoteFramebuffer

structure Recorder where
  /-- The file so far. -/
  written : Bytes
  state : SessionState
  /-- When the last frame was written, in nanoseconds. -/
  lastFrame : Option Nat
  frames : Nat

namespace Recorder

/-- The encodings that a recording session asks for, the preferred first. -/
def encodings : List Encoding :=
  [.cursor, .pointerPos, .copyRect, .tight, .zrle, .hextile, .zlib, .rre]

/-- The options of a session with a target that is to be recorded. -/
def options (target : Target) : SessionOptions :=
  { SessionOptions.standard with
    security := target.securityHandlers
    encodings := encodings.foldl EncodingSet.insert EncodingSet.standard
    forcedFormat := some PixelFormat.rgb888 }

def make (header : RecordingHeader) : Recorder :=
  { written := header.encode
    state := (SessionState.make .recorder header.version .none EncodingSet.all).setDesktop header.desktop
    lastFrame := none
    frames := 0 }

/-- The delay of a frame at a time, at most what the file can state. -/
def delayAt (r : Recorder) (now : Nat) : Int64 :=
  match r.lastFrame with
  | some previous => Int64.ofNat (min (now - previous) 0x7FFFFFFFFFFFFFFF)
  | none => 0

def encodeFrame (update : FramebufferUpdate) (delay : Int64) : Bytes :=
  (ServerMessage.framebufferUpdate update).encode ++ Bytes.ofInt64 delay

def writeFrame (r : Recorder) (now : Nat) (update : FramebufferUpdate) : Recorder :=
  { written := r.written ++ encodeFrame update (r.delayAt now)
    state := match update.desktopSize? with
      | some (width, height) => r.state.resize width height
      | none => r.state
    lastFrame := some now
    frames := r.frames + 1 }

/-! ## Recording a session -/

def request (r : Recorder) (incremental : Bool) : ClientMessage :=
  .fullUpdateRequest incremental r.state.desktop.width r.state.desktop.height

/-- Writes an update down at a time and asks for more. -/
def use (now : Nat) : Consumer.Use Recorder := fun r _ m =>
  match m with
  | .framebufferUpdate update =>
    let r := r.writeFrame now update
    (.ok [r.request true], r)
  | _ => (.ok [], r)

def recording (state : SessionState) : Consumer Recorder :=
  let r := make (RecordingHeader.ofState state)
  Consumer.start r [.setEncodings (encodings.map Encoding.wire), r.request false]

/-! ## Files -/

/-- The files of a directory by their names, the last written first. -/
abbrev Directory := List (String × Bytes)

/-- The stem of a file's name, and the extension behind the last dot.  A dot that a name begins
with belongs to the stem. -/
def splitName (name : List Char) : List Char × Option (List Char) :=
  match name.reverse.dropWhile (· ≠ '.') with
  | _ :: stem@(_ :: _) => (stem.reverse, some (name.reverse.takeWhile (· ≠ '.')).reverse)
  | _ => (name, none)

/-- The name with a time behind its stem, in seconds. -/
def timestamped (name : List Char) (time : Nat) : List Char :=
  let (stem, extension) := splitName name
  stem ++ '_' :: Nat.toDigits 10 time ++ (extension.map ('.' :: ·)).getD []

/-- Where a recording is kept that is wanted under a name. -/
def fileName (files : Directory) (name : String) (time : Nat) : String :=
  if (files.lookup name).isSome then String.ofList (timestamped name.toList time) else name

def save (r : Recorder) (files : Directory) (name : String) (time : Nat) : Directory :=
  (fileName files name time, r.written) :: files

end Recorder

end RemoteFramebuffer
