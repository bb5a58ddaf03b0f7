/-
# `RemoteFramebuffer.Proofs.Encoding.Drawing` — how drawing on a well-formed canvas ends

`Draw.Sat P Q d` says that `d` leaves well-formed canvases well formed and ends in an error with
`P` or a value with `Q`.  Every step that draws is clean in this sense: what it touches is there,
and the errors that are left are those of the operation itself.
-/
import RemoteFramebuffer.Encoding.Render
import RemoteFramebuffer.Proofs.Canvas.Access

namespace RemoteFramebuffer

open Guarded (Safe)

/-! ## Errors -/

namespace DecodeError

def Faultless (e : DecodeError) : Prop := ∀ kind, e.cause ≠ .fault kind

structure Clean (e : DecodeError) : Prop where
  faultless : e.Faultless
  complete : ∀ need left, e.cause ≠ .payloadEnd need left

theorem clean_of {cause : DecodeCause} (step : ∀ kind, cause ≠ .fault kind)
    (data : ∀ need left, cause ≠ .payloadEnd need left) : (of cause).Clean := ⟨step, data⟩

theorem Clean.within {e : DecodeError} (h : e.Clean) (context : DecodeContext) :
    (e.within context).Clean := ⟨h.faultless, h.complete⟩

/-- Not of a step that could not be taken, and of data that ended too early only in a tile. -/
structure CleanOutsideTiles (e : DecodeError) : Prop where
  faultless : e.Faultless
  complete : ∀ need left, e.cause = .payloadEnd need left → ∃ tile, .tile tile ∈ e.contexts

theorem Clean.outsideTiles {e : DecodeError} (h : e.Clean) : e.CleanOutsideTiles :=
  ⟨h.faultless, fun need left eq => absurd eq (h.complete need left)⟩

theorem Faultless.within_tile {e : DecodeError} (h : e.Faultless) (tile : Rect) :
    (e.within (.tile tile)).CleanOutsideTiles := ⟨h, fun _ _ _ => ⟨tile, List.mem_cons_self⟩⟩

end DecodeError

open DecodeError (Clean clean_of)

variable {α β : Type} {P : DecodeError → Prop}

theorem Guarded.Safe.orFault {Q : α → Prop} {g : Guarded α} (h : Safe Q g) :
    Outcome P Q g.orFault := h.mapError fun _ => False.elim

/-! ## Drawing on well-formed canvases -/

variable [StreamDecoder]

namespace Draw

/-- On a well-formed canvas, ends in an error with `P` or a value with `Q` and leaves a
well-formed canvas behind. -/
def Sat (P : DecodeError → Prop) (Q : α → Prop) (d : Draw α) : Prop :=
  ∀ scene, scene.canvas.WellFormed →
    (d scene).2.canvas.WellFormed ∧ Outcome P Q (d scene).1

variable {Q : α → Prop} {R : β → Prop}

theorem sat_ofExcept {result : Except DecodeError α} (h : Outcome P Q result) :
    Sat P Q (ofExcept result) := fun _ wf => ⟨wf, h⟩

theorem sat_pure {a : α} (h : Q a) : Sat P Q (pure a) := fun _ wf => ⟨wf, h⟩

theorem sat_fail {cause : DecodeCause} (h : P (DecodeError.of cause)) :
    Sat P Q (fail cause : Draw α) := fun _ wf => ⟨wf, h⟩

theorem sat_guarded {g : Guarded α} (h : Safe Q g) : Sat P Q (guarded g) :=
  sat_ofExcept h.orFault

namespace Sat

theorem mono {d : Draw α} {P' : DecodeError → Prop} {Q' : α → Prop} (h : Sat P Q d)
    (hP : ∀ e, P e → P' e) (hQ : ∀ a, Q a → Q' a) : Sat P' Q' d := fun scene wf =>
  ⟨(h scene wf).1, (h scene wf).2.mono hP hQ⟩

theorem bind {d : Draw α} {f : α → Draw β} (hd : Sat P Q d) (hf : ∀ a, Q a → Sat P R (f a)) :
    Sat P R (d >>= f) := by
  intro scene wf
  obtain ⟨wf', outcome⟩ := hd scene wf
  show Canvas.WellFormed (ExceptT.bindCont f (d scene).1 (d scene).2).2.canvas ∧
    Outcome P R (ExceptT.bindCont f (d scene).1 (d scene).2).1
  cases h : (d scene).1 with
  | error e =>
      rw [h] at outcome
      exact ⟨wf', outcome⟩
  | ok a =>
      rw [h] at outcome
      exact hf a outcome _ wf'

theorem within {d : Draw α} {P' : DecodeError → Prop} {context : DecodeContext} (h : Sat P Q d)
    (hP : ∀ e, P e → P' (e.within context)) : Sat P' Q (Draw.within context d) := fun scene wf =>
  ⟨(h scene wf).1, (h scene wf).2.mapError hP⟩

end Sat

/-- What a change of the canvas touches has to be there, and the canvas has to stay well
formed. -/
theorem sat_paint {touch : Canvas → Guarded Unit}
    {change : Canvas → Except DrawError Unit × Canvas}
    (safe : ∀ {c : Canvas}, c.WellFormed → Safe (fun _ => True) (touch c))
    (keeps : ∀ {c : Canvas}, c.WellFormed → (change c).2.WellFormed) :
    Sat Clean (fun _ => True) (paint touch change) := by
  rintro ⟨canvas, streams⟩ wf
  obtain ⟨_, touched, -⟩ := (safe wf).eq_ok
  simp only [paint, touched]
  refine ⟨keeps wf, ?_⟩
  cases (change canvas).1 with
  | error cause => exact clean_of nofun nofun
  | ok => trivial

theorem sat_fill (rect : Rect) (color : Rgba) : Sat Clean (fun _ => True) (fill rect color) :=
  sat_paint (fun wf => Canvas.safe_touchDraw wf.tracked _ fun r => r.safe_touchFill rect)
    (·.fill rect color)

theorem sat_image (rect : Rect) (pixels : Array Rgba) :
    Sat Clean (fun _ => True) (image rect pixels) :=
  sat_paint (fun wf => Canvas.safe_touchDraw wf.tracked _ fun r => r.safe_touchImage rect _ _)
    (·.image rect pixels 0 _)

theorem sat_copy (dest : Rect) (offset : Point) : Sat Clean (fun _ => True) (copy dest offset) :=
  sat_paint (fun wf => Canvas.safe_touchDraw wf.tracked _ fun r => r.safe_touchCopy dest offset)
    (·.copy dest offset)

theorem sat_resize {width height : Nat} (hw : width ≤ 65535) (hh : height ≤ 65535) :
    Sat Clean (fun _ => True) (resize width height) :=
  sat_paint (fun _ => .pure trivial) fun {c} _ => Canvas.WellFormed.resize c hw hh

theorem sat_setCursor (shape : Option CursorShape) :
    Sat Clean (fun _ => True) (setCursor shape) :=
  sat_paint (Canvas.safe_touchSetCursor ·.tracked shape) (·.setCursor shape)

theorem sat_moveCursor (position : Point) : Sat Clean (fun _ => True) (moveCursor position) :=
  sat_paint (Canvas.safe_touchMoveCursor ·.tracked position) (·.moveCursor position)

theorem sat_inflate {use : Streams → Except DecodeError Bytes × Streams} {Q : Bytes → Prop}
    (h : ∀ streams, Outcome P Q (use streams).1) : Sat P Q (inflate use) := fun scene wf =>
  ⟨wf, h scene.streams⟩

theorem sat_changeStreams (f : Streams → Streams) : Sat P (fun _ => True) (changeStreams f) :=
  fun _ wf => ⟨wf, trivial⟩

end Draw

/-! ## Streams -/

namespace Streams

theorem outcome_inflate (name : String) (stream : StreamDecoder.State) (payload : Bytes) :
    Outcome Clean (fun _ => True) (inflate name stream payload).1 := by
  rw [inflate]
  split
  · trivial
  · exact ⟨nofun, nofun⟩

omit [StreamDecoder] in
theorem outcome_atLeast {expected : Nat} {out : Except DecodeError Bytes}
    (h : Outcome Clean (fun _ => True) out) :
    Outcome Clean (fun out => expected ≤ out.length) (atLeast expected out) := by
  refine Outcome.bind h fun out _ => ?_
  split
  · exact clean_of nofun nofun
  · exact Outcome.pure (by omega)

end Streams

end RemoteFramebuffer
