/-
# `RemoteFramebuffer.Proofs.Encoding.Alike` — drawing does not see whether the cursor is drawn

Two canvases are alike that show the same plain raster under the same cursor.  On one of them the
cursor may be drawn and on the other hidden, and different blocks may be marked; a stroke comes out
alike all the same, because it first puts back what the cursor covers.

    c   ──stroke──▸  d            Alike c c'  →  the answers are equal and Alike d d'
    c'  ──stroke──▸  d'

So does whatever is made of strokes.  Only what it touches on the way may differ, and with it
whether it could be taken at all; hence two drawings are compared that both succeed.
-/
import RemoteFramebuffer.Proofs.Canvas.Overlay
import RemoteFramebuffer.Proofs.Encoding.Frame

namespace RemoteFramebuffer

/-! ## Canvases -/

namespace Canvas

variable {c c' c'' : Canvas} {plain : Raster}

def Shown (c : Canvas) : Prop := ∃ plain, c.Shows plain

/-- The same plain raster under the same cursor. -/
structure Alike (c c' : Canvas) : Prop where
  cursor : c.cursor = c'.cursor
  position : c.position = c'.position
  shows : ∃ plain, c.Shows plain ∧ c'.Shows plain

theorem Shown.alike (h : c.Shown) : c.Alike c := by
  obtain ⟨plain, shows⟩ := h
  exact ⟨rfl, rfl, plain, shows, shows⟩

theorem Shows.unique {plain' : Raster} (h : c.Shows plain) (h' : c.Shows plain') : plain = plain' :=
  h.overlaid.raster_hideCursor.symm.trans h'.overlaid.raster_hideCursor

namespace Alike

theorem symm (h : c.Alike c') : c'.Alike c := by
  obtain ⟨plain, shows, shows'⟩ := h.shows
  exact ⟨h.cursor.symm, h.position.symm, plain, shows', shows⟩

theorem trans (h : c.Alike c') (h' : c'.Alike c'') : c.Alike c'' := by
  obtain ⟨plain, shows, same⟩ := h.shows
  obtain ⟨_, same', shows'⟩ := h'.shows
  obtain rfl := same.unique same'
  exact ⟨h.cursor.trans h'.cursor, h.position.trans h'.position, plain, shows, shows'⟩

theorem shown (h : c.Alike c') : c.Shown := by
  obtain ⟨plain, shows, -⟩ := h.shows
  exact ⟨plain, shows⟩

end Alike

@[simp] theorem position_showCursor (c : Canvas) : c.showCursor.position = c.position := by
  unfold showCursor
  split
  · dsimp only
    split <;> simp
  · rfl

@[simp] theorem width_showCursor (c : Canvas) : c.showCursor.raster.width = c.raster.width := by
  unfold showCursor
  split
  · dsimp only
    split <;> simp
  · rfl

@[simp] theorem height_showCursor (c : Canvas) :
    c.showCursor.raster.height = c.raster.height := by
  unfold showCursor
  split
  · dsimp only
    split <;> simp
  · rfl

/-- Showing the cursor and draining the marks leaves what is shown. -/
theorem Shown.alike_takeDirty_showCursor (h : c.Shown) : c.Alike c.showCursor.takeDirty.2 := by
  obtain ⟨plain, shows⟩ := h
  refine ⟨c.cursor_showCursor.symm, c.position_showCursor.symm, plain, shows, ?_⟩
  exact shows.showCursor.of_overlaid rfl (shows.showCursor.overlaid.of_dirty _)

theorem Shown.alike_takeDirty (h : c.Shown) : c.Alike c.takeDirty.2 := by
  obtain ⟨plain, shows⟩ := h
  exact ⟨rfl, rfl, plain, shows, shows.of_overlaid rfl (shows.overlaid.of_dirty _)⟩

/-! ## What is seen -/

/-- What is seen of a plain raster with a cursor drawn over it. -/
def seen (plain : Raster) (cursor : Option CursorShape) (position : Point) : Raster :=
  match cursor with
  | none => plain
  | some shape =>
    let area := shape.areaAt ⟨position.x - shape.hotspot.x, position.y - shape.hotspot.y⟩
    match plain.bounds.intersect area with
    | none => plain
    | some visible => plain.overlay visible (compose shape area visible (plain.block visible)) 0

theorem Overlaid.raster_showCursor (h : Overlaid plain c) :
    c.showCursor.raster = seen plain c.cursor c.position := by
  cases h with
  | drawn cursor saved meets raster =>
      have same : c.showCursor = c := by
        unfold Canvas.showCursor
        rw [saved]
      rw [same, raster, cursor, seen]
      simp only [cursorOrigin] at meets ⊢
      rw [meets]
  | hidden saved raster =>
      subst raster
      unfold Canvas.showCursor
      rw [saved]
      cases cursor : c.cursor with
      | none => rfl
      | some shape =>
          have area : shape.areaAt ⟨c.position.x - shape.hotspot.x,
              c.position.y - shape.hotspot.y⟩ = c.cursorArea shape := rfl
          simp only [seen, area]
          cases meets : c.raster.bounds.intersect (c.cursorArea shape) with
          | none =>
              rw [show c.bounds.intersect (c.cursorArea shape) = none from meets]
          | some visible =>
              rw [show c.bounds.intersect (c.cursorArea shape) = some visible from meets]
              exact raster_markDirty _ _

def Complete (c : Canvas) : Prop :=
  ∃ plain, c.Shows plain ∧ c.raster = seen plain c.cursor c.position

theorem Shown.complete_takeDirty_showCursor (h : c.Shown) : c.showCursor.takeDirty.2.Complete := by
  obtain ⟨plain, shows⟩ := h
  refine ⟨plain, shows.showCursor.of_overlaid rfl (shows.showCursor.overlaid.of_dirty _), ?_⟩
  rw [show c.showCursor.takeDirty.2.cursor = c.cursor from c.cursor_showCursor,
    show c.showCursor.takeDirty.2.position = c.position from c.position_showCursor]
  exact shows.overlaid.raster_showCursor

theorem Alike.raster_eq (h : c.Alike c') (complete : c.Complete) (complete' : c'.Complete) :
    c.raster = c'.raster := by
  obtain ⟨plain, shows, raster⟩ := complete
  obtain ⟨plain', shows', raster'⟩ := complete'
  obtain ⟨_, same, same'⟩ := h.shows
  obtain rfl := shows.unique same
  obtain rfl := shows'.unique same'
  rw [raster, raster', h.cursor, h.position]

/-! ## Strokes -/

section

variable {area : Rect} {check : Raster → Except DrawError Unit} {op : Raster → Raster}

theorem cursor_draw : (c.draw area check op).2.cursor = c.cursor := by
  unfold draw
  dsimp only
  split <;> simp

theorem position_draw : (c.draw area check op).2.position = c.position := by
  unfold draw
  dsimp only
  split <;> simp

end

end Canvas

namespace Stroke

/-- Comes out alike on canvases that are alike. -/
def Steady (change : Stroke) : Prop :=
  ∀ c c' : Canvas, c.Alike c' → (change c).1 = (change c').1 ∧ (change c).2.Alike (change c').2

theorem steady_draw (area : Rect) (check : Raster → Except DrawError Unit) {op : Raster → Raster}
    (keeps : ∀ r, (op r).width = r.width ∧ (op r).height = r.height) :
    Steady (·.draw area check op) := by
  intro c c' alike
  obtain ⟨plain, shows, shows'⟩ := alike.shows
  obtain ⟨answer, after⟩ := @Canvas.Shows.draw c plain shows area check op (keeps plain)
  obtain ⟨answer', after'⟩ := @Canvas.Shows.draw c' plain shows' area check op (keeps plain)
  refine ⟨answer.trans answer'.symm, ?_, ?_, _, after, after'⟩
  · rw [Canvas.cursor_draw, Canvas.cursor_draw, alike.cursor]
  · rw [Canvas.position_draw, Canvas.position_draw, alike.position]

theorem strokes_steady (rect : Rect) : Strokes Steady rect where
  fill _ _ := steady_draw _ _ fun r => ⟨r.width_paint _ _, r.height_paint _ _⟩
  image _ _ := steady_draw _ _ fun r => ⟨r.width_overlay _ _ _, r.height_overlay _ _ _⟩
  copy _ := steady_draw _ _ fun r => ⟨r.width_copyBlock _ _, r.height_copyBlock _ _⟩

theorem cursorStrokes_steady : CursorStrokes Steady where
  setCursor shape small := by
    intro c c' alike
    obtain ⟨plain, shows, shows'⟩ := alike.shows
    have fits (s : CursorShape) (eq : shape = some s) :
        s.width < 0x100000000 ∧ s.height < 0x100000000 :=
      ⟨Nat.lt_of_le_of_lt (small s eq).1 (by decide), Nat.lt_of_le_of_lt (small s eq).2 (by decide)⟩
    refine ⟨rfl, ?_, ?_, plain, shows.setCursor fits, shows'.setCursor fits⟩
    · simp [Canvas.setCursor]
    · simpa [Canvas.setCursor] using alike.position
  moveCursor position := by
    intro c c' alike
    obtain ⟨plain, shows, shows'⟩ := alike.shows
    refine ⟨rfl, ?_, ?_, plain, shows.moveCursor position, shows'.moveCursor position⟩
    · simpa [Canvas.moveCursor] using alike.cursor
    · simp [Canvas.moveCursor]

theorem steady_resize {width height : Nat} (hw : width ≤ 65535) (hh : height ≤ 65535) :
    Steady fun c => (.ok (), c.resize width height) := by
  intro c c' alike
  obtain ⟨plain, shows, shows'⟩ := alike.shows
  exact ⟨rfl, alike.cursor, alike.position, _, shows.resize hw hh, shows'.resize hw hh⟩

def KeepsSize (change : Stroke) : Prop :=
  ∀ c, (change c).2.raster.width = c.raster.width ∧ (change c).2.raster.height = c.raster.height

theorem strokes_keepsSize (rect : Rect) : Strokes KeepsSize rect where
  fill within color c := ⟨((strokes_staysIn rect).fill within color c).width,
    ((strokes_staysIn rect).fill within color c).height⟩
  image within pixels c := ⟨((strokes_staysIn rect).image within pixels c).width,
    ((strokes_staysIn rect).image within pixels c).height⟩
  copy offset c := ⟨((strokes_staysIn rect).copy offset c).width,
    ((strokes_staysIn rect).copy offset c).height⟩

theorem cursorStrokes_keepsSize : CursorStrokes KeepsSize where
  setCursor shape _ c := by simp [Canvas.setCursor]
  moveCursor position c := by simp [Canvas.moveCursor]

end Stroke

/-! ## Drawing -/

variable [StreamDecoder]

/-- Canvases that are alike, and the same streams. -/
structure Scene.Alike (s s' : Scene) : Prop where
  canvas : s.canvas.Alike s'.canvas
  streams : s.streams = s'.streams

namespace Draw

variable {α β : Type} {d : Draw α} {s s' t t' : Scene} {a a' : α}

theorem run_bind_ok {f : α → Draw β} {b : β} :
    (d >>= f) s = (.ok b, t) ↔ ∃ a mid, d s = (.ok a, mid) ∧ f a mid = (.ok b, t) := by
  show (ExceptT.bindCont f (d s).1 (d s).2 : Except DecodeError β × Scene) = _ ↔ _
  rcases d s with ⟨_ | a, mid⟩
  · constructor
    · nofun
    · rintro ⟨_, _, h, -⟩
      cases h
  · constructor
    · intro h
      exact ⟨a, mid, rfl, h⟩
    · rintro ⟨_, _, h, hf⟩
      cases h
      exact hf

theorem run_within_ok {context : DecodeContext} :
    Draw.within context d s = (.ok a, t) ↔ d s = (.ok a, t) := by
  unfold Draw.within
  rcases d s with ⟨_ | a, mid⟩
  · exact ⟨nofun, nofun⟩
  · exact Iff.rfl

theorem Made.shown (h : Made Stroke.Steady d) (s : Scene) (shown : s.canvas.Shown) :
    (d s).2.canvas.Shown := by
  induction h generalizing s with
  | ofExcept result => exact shown
  | inflate use => exact shown
  | changeStreams f => exact shown
  | @paint touch change steady =>
      obtain ⟨canvas, streams⟩ := s
      rw [Draw.paint]
      cases touch canvas with
      | error fault => exact shown
      | ok => exact (steady canvas canvas shown.alike).2.shown
  | @bind α β d f _ _ first second =>
      show (ExceptT.bindCont f (d s).1 (d s).2 : Except DecodeError β × Scene).2.canvas.Shown
      have mid := first s shown
      cases (d s).1 with
      | error e => exact mid
      | ok a => exact second a _ mid
  | within context _ ih => exact ih s shown

/-- **Drawing does not see whether the cursor is drawn.**  From scenes that are alike, two drawings
of the same that both succeed have the same result and leave scenes that are alike. -/
theorem Made.alike (h : Made Stroke.Steady d) (alike : s.Alike s') (run : d s = (.ok a, t))
    (run' : d s' = (.ok a', t')) : a = a' ∧ t.Alike t' := by
  induction h generalizing s s' t t' with
  | ofExcept result =>
      cases run
      cases run'
      exact ⟨rfl, alike⟩
  | inflate use =>
      obtain ⟨canvas, streams⟩ := s
      obtain ⟨canvas', streams'⟩ := s'
      obtain ⟨alike, rfl : streams = streams'⟩ := alike
      rw [Draw.inflate] at run run'
      generalize use streams = outcome at run run'
      obtain ⟨result, after⟩ := outcome
      cases run
      cases run'
      exact ⟨rfl, alike, rfl⟩
  | changeStreams f =>
      cases run
      cases run'
      exact ⟨rfl, alike.canvas, congrArg f alike.streams⟩
  | @paint touch change steady =>
      obtain ⟨answer, after⟩ := steady _ _ alike.canvas
      obtain ⟨canvas, streams⟩ := s
      obtain ⟨canvas', streams'⟩ := s'
      rw [Draw.paint] at run run'
      cases touched : touch canvas with
      | error fault =>
          rw [touched] at run
          cases run
      | ok =>
          cases touched' : touch canvas' with
          | error fault =>
              rw [touched'] at run'
              cases run'
          | ok =>
              rw [touched] at run
              rw [touched'] at run'
              cases congrArg Prod.snd run
              cases congrArg Prod.snd run'
              exact ⟨rfl, after, alike.streams⟩
  | bind _ _ first second =>
      obtain ⟨a, mid, run, rest⟩ := run_bind_ok.mp run
      obtain ⟨a', mid', run', rest'⟩ := run_bind_ok.mp run'
      obtain ⟨rfl, alike⟩ := first alike run run'
      exact second a alike rest rest'
  | within context _ ih => exact ih alike (run_within_ok.mp run) (run_within_ok.mp run')

/-- Strokes that keep the size of the canvas make up drawing that does. -/
theorem Made.keepsSize (h : Made Stroke.KeepsSize d) (s : Scene) :
    (d s).2.canvas.raster.width = s.canvas.raster.width ∧
      (d s).2.canvas.raster.height = s.canvas.raster.height := by
  induction h generalizing s with
  | ofExcept result => exact ⟨rfl, rfl⟩
  | inflate use => exact ⟨rfl, rfl⟩
  | changeStreams f => exact ⟨rfl, rfl⟩
  | @paint touch change keeps =>
      obtain ⟨canvas, streams⟩ := s
      rw [Draw.paint]
      cases touch canvas with
      | error fault => exact ⟨rfl, rfl⟩
      | ok => exact keeps canvas
  | @bind α β d f _ _ first second =>
      have start := first s
      have split : (d >>= f) s = ExceptT.bindCont f (d s).1 (d s).2 := rfl
      rw [split]
      cases (d s).1 with
      | error e => exact start
      | ok a =>
          obtain ⟨width, height⟩ := second a (d s).2
          exact ⟨width.trans start.1, height.trans start.2⟩
  | within context _ ih => exact ih s

end Draw

/-! ## Rectangles -/

namespace Codec

variable (c : Codec) (style : Style) (area : Area)

theorem made_steady : (c.render style area).Made Stroke.Steady :=
  c.made_render style area (Stroke.strokes_steady _) Stroke.cursorStrokes_steady fun _ =>
    Stroke.steady_resize (Nat.le_of_lt_succ area.width.toNat_lt)
      (Nat.le_of_lt_succ area.height.toNat_lt)

theorem made_keepsSize
    (keeps : ¬ (c.encoding = .desktopSize ∨ c.encoding = .extendedDesktopSize)) :
    (c.render style area).Made Stroke.KeepsSize :=
  c.made_render style area (Stroke.strokes_keepsSize _) Stroke.cursorStrokes_keepsSize
    fun resizes => absurd resizes keeps

/-- A rectangle that resizes the desktop makes the canvas as large as itself. -/
theorem render_resize (resizes : c.encoding = .desktopSize ∨ c.encoding = .extendedDesktopSize)
    (scene : Scene) :
    c.render style area scene =
      (.ok (), ⟨scene.canvas.resize area.width.toNat area.height.toNat, scene.streams⟩) := by
  obtain ⟨encoding, payload⟩ := c
  obtain rfl | rfl := resizes <;> rfl

end Codec

end RemoteFramebuffer
