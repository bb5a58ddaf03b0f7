/-
# `RemoteFramebuffer.Proofs.Canvas.Call` — the calls of a canvas, and the same on a plain raster

A canvas changes by its calls only, so a run of calls on a fresh canvas reaches every canvas
there is.  On a plain raster, which has no cursor and records no changes, the calls that draw
do what they do on a canvas and the others do nothing.
-/
import RemoteFramebuffer.Canvas

namespace RemoteFramebuffer.Canvas

/-- The calls that change a canvas. -/
inductive Call
  | fill (rect : Rect) (color : Rgba)
  | copy (dest : Rect) (offset : Point)
  | image (dest : Rect) (data : Bytes) (stride : Nat)
  | setPixel (x y : Nat) (color : Rgba)
  | resize (width height : Nat)
  | markDirty (rect : Rect)
  | takeDirty
  | setCursor (shape : Option CursorShape)
  | moveCursor (position : Point)
  | hideCursor
  | showCursor

namespace Call

/-- What a call returns, apart from any blocks, and the canvas after it. -/
def onCanvas (c : Canvas) : Call → Except DrawError Unit × Canvas
  | .fill rect color => c.fill rect color
  | .copy dest offset => c.copy dest offset
  | .image dest data stride => c.image dest (Rgba.unpack data).toArray stride data.length
  | .setPixel x y color => (.ok (), c.setPixel x y color)
  | .resize width height => (.ok (), c.resize width height)
  | .markDirty rect => (.ok (), c.markDirty rect)
  | .takeDirty => (.ok (), c.takeDirty.2)
  | .setCursor shape => (.ok (), c.setCursor shape)
  | .moveCursor position => (.ok (), c.moveCursor position)
  | .hideCursor => (.ok (), c.hideCursor)
  | .showCursor => (.ok (), c.showCursor)

/-- The raster after a drawing operation; a refused one leaves it as it was. -/
def drawn (r : Raster) : Except DrawError Raster → Except DrawError Unit × Raster
  | .ok r => (.ok (), r)
  | .error e => (.error e, r)

/-- What the call returns on a plain raster, and the raster after it. -/
def onRaster (r : Raster) : Call → Except DrawError Unit × Raster
  | .fill rect color => drawn r (r.fill rect color)
  | .copy dest offset => drawn r (r.copy dest offset)
  | .image dest data stride => drawn r (r.image dest (Rgba.unpack data).toArray stride data.length)
  | .setPixel x y color =>
    (.ok (), (r.recolorSlice? ⟨signed32 x, signed32 y, 1, 1⟩ fun _ _ => color).getD r)
  | .resize width height => (.ok (), Raster.black width height)
  | _ => (.ok (), r)

/-- One call after another: what they return, and what they leave. -/
def runAll {σ : Type} (step : σ → Call → Except DrawError Unit × σ) :
    σ → List Call → List (Except DrawError Unit) × σ
  | s, [] => ([], s)
  | s, call :: calls =>
    let (answer, s) := step s call
    let (answers, s) := runAll step s calls
    (answer :: answers, s)

theorem runAll_cons {σ : Type} (step : σ → Call → Except DrawError Unit × σ) (s : σ) (call : Call)
    (calls : List Call) :
    runAll step s (call :: calls) =
      ((step s call).1 :: (runAll step (step s call).2 calls).1,
        (runAll step (step s call).2 calls).2) := rfl

/-- The extents of a call fit their types, and those of a canvas are at most 65535. -/
def Fits : Call → Prop
  | .resize width height => width ≤ 65535 ∧ height ≤ 65535
  | .setCursor (some shape) => shape.width < 0x100000000 ∧ shape.height < 0x100000000
  | _ => True

end Call

/-- Calls lead from a fresh canvas to this one. -/
def Reached (c : Canvas) : Prop :=
  ∃ width height calls, (width ≤ 65535 ∧ height ≤ 65535) ∧ (∀ call ∈ calls, Call.Fits call) ∧
    (Call.runAll Call.onCanvas (make width height) calls).2 = c

/-! ## Marking blocks changes nothing else -/

section

variable (c : Canvas) (rect : Rect)

@[simp] theorem raster_markDirty : (c.markDirty rect).raster = c.raster := by
  unfold markDirty
  split <;> rfl

@[simp] theorem cursor_markDirty : (c.markDirty rect).cursor = c.cursor := by
  unfold markDirty
  split <;> rfl

@[simp] theorem saved_markDirty : (c.markDirty rect).saved = c.saved := by
  unfold markDirty
  split <;> rfl

end

end RemoteFramebuffer.Canvas
