/-
# `RemoteFramebuffer.Session.Picture` — a session that decodes what it is sent

A picture is a canvas, the streams that its rectangles go on with, and the state that
says how to read them.  Applying an update draws its rectangles and the cursor over
them; every applied message gives the blocks that changed.

Rendering keeps a picture up to date: it asks for the whole desktop once and then, after
every update, for what has changed.
-/
import RemoteFramebuffer.Encoding.Render
import RemoteFramebuffer.Session.Consumer
import RemoteFramebuffer.Session.State

namespace RemoteFramebuffer

variable [StreamDecoder]

structure Picture where
  scene : Scene
  state : SessionState

namespace Picture

def make (desktop : Desktop) : Picture :=
  { scene := ⟨Canvas.make desktop.width.toNat desktop.height.toNat, Streams.fresh⟩
    state := (SessionState.make .canvas .v38 .none EncodingSet.all).setDesktop desktop }

/-- A black picture of a live session's desktop. -/
def ofSession (s : SessionState) : Picture :=
  let picture := make s.desktop
  { picture with state := { picture.state with version := s.version, colors := s.colors } }

/-- Reads later rectangles in a pixel format; the current one changes nothing. -/
def setPixelFormat (p : Picture) (format : PixelFormat) : Picture :=
  if format = p.state.desktop.format then p
  else { p with state := p.state.setPixelFormat format }

def style (p : Picture) : Style := ⟨p.state.desktop.format, p.state.colors⟩

/-- Draws an update and the cursor; a failed update leaves what it drew. -/
def drawUpdate (p : Picture) (update : FramebufferUpdate) : Except SessionError Unit × Picture :=
  match update.render p.style p.scene with
  | (.ok (), scene) => (.ok (), { p with scene := { scene with canvas := scene.canvas.showCursor } })
  | (.error e, scene) => (.error (.ofDecode e), { p with scene })

/-- Applies a server message and gives the blocks that changed. -/
def apply (p : Picture) (m : ServerMessage) : Except SessionError (List Rect) × Picture :=
  let (result, p) := match m with
    | .framebufferUpdate update => p.drawUpdate update
    | _ => (.ok (), p)
  match result with
  | .error e => (.error e, p)
  | .ok () =>
    let (blocks, canvas) := p.scene.canvas.takeDirty
    (.ok blocks, { scene := { p.scene with canvas }, state := p.state.afterServer m })

/-! ## Rendering -/

def request (p : Picture) (incremental : Bool) : ClientMessage :=
  .fullUpdateRequest incremental p.state.desktop.width p.state.desktop.height

/-- Applies a message, read in the session's pixel format, and asks for more after an update. -/
def use : Consumer.Use Picture := fun p session m =>
  let (result, p) := (p.setPixelFormat session.desktop.format).apply m
  match result, m with
  | .error e, _ => (.error e, p)
  | .ok _, .framebufferUpdate _ => (.ok [p.request true], p)
  | .ok _, _ => (.ok [], p)

def rendering (state : SessionState) : Consumer Picture :=
  let p := ofSession state
  Consumer.start p [p.request false]

end Picture

end RemoteFramebuffer
