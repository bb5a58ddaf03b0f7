/-
# `RemoteFramebuffer.Proofs.Encoding.Dry` — drawing that leaves the streams alone

Most of what is drawn does not concern the streams.  A drawing is `Dry` if it comes out the same
whatever they are and leaves them as they are.  Painting is dry, and so is all that is made of it:
every encoding but Zlib, ZRLE and Tight, and what those three draw once their data is inflated.
-/
import RemoteFramebuffer.Encoding.Codec
import RemoteFramebuffer.Proofs.Geometry

namespace RemoteFramebuffer

variable [StreamDecoder] {α β : Type}

/-! ## Drawing without streams -/

namespace Draw

/-- Neither looks at the streams nor changes them. -/
def Dry (d : Draw α) : Prop := ∀ canvas streams streams',
  d ⟨canvas, streams⟩ = ((d ⟨canvas, streams'⟩).1, ⟨(d ⟨canvas, streams'⟩).2.canvas, streams⟩)

theorem dry_ofExcept (result : Except DecodeError α) : (ofExcept result).Dry := fun _ _ _ => rfl

theorem dry_pure (a : α) : (pure a : Draw α).Dry := fun _ _ _ => rfl

theorem dry_fail (cause : DecodeCause) : (fail cause : Draw α).Dry := fun _ _ _ => rfl

theorem dry_paint (touch : Canvas → Guarded Unit)
    (change : Canvas → Except DrawError Unit × Canvas) : (paint touch change).Dry := by
  intro canvas streams streams'
  simp only [paint]
  cases touch canvas <;> rfl

theorem dry_change (touch : Canvas → Guarded Unit) (f : Canvas → Canvas) : (change touch f).Dry :=
  dry_paint _ _

theorem run_bind (d : Draw α) (f : α → Draw β) (scene : Scene) :
    (d >>= f) scene = match (d scene).1 with
      | .ok a => f a (d scene).2
      | .error e => (.error e, (d scene).2) := by
  show (ExceptT.bindCont f (d scene).1 (d scene).2 : Except DecodeError β × Scene) = _
  cases (d scene).1 <;> rfl

namespace Dry

variable {d : Draw α} {f : α → Draw β}

theorem bind (hd : d.Dry) (hf : ∀ a, (f a).Dry) : (d >>= f).Dry := by
  intro canvas streams streams'
  have same := hd canvas streams streams'
  have kept := hd canvas streams' streams'
  obtain ⟨⟨result, canvas', after⟩, eq⟩ : ∃ o, d ⟨canvas, streams'⟩ = o := ⟨_, rfl⟩
  rw [eq] at same kept
  cases kept
  rw [run_bind, run_bind, same, eq]
  cases result with
  | error e => rfl
  | ok a => exact hf a canvas' streams streams'

theorem within (h : d.Dry) (context : DecodeContext) : (Draw.within context d).Dry := by
  intro canvas streams streams'
  unfold Draw.within
  rw [h canvas streams streams']
  rfl

end Dry

end Draw

namespace Render

def Dry (r : Render α) : Prop := ∀ data, Draw.Dry (r data)

theorem dry_pure (a : α) : Dry (pure a) := fun _ => Draw.dry_pure _

theorem dry_read (p : Payload α) : Dry (read p) := fun data => Draw.dry_ofExcept (p data)

theorem dry_draw {d : Draw α} (h : d.Dry) : Dry (draw d) := fun _ => h.bind fun _ => Draw.dry_pure _

theorem dry_fail (cause : DecodeCause) : Dry (draw (Draw.fail cause) : Render α) :=
  dry_draw (Draw.dry_fail cause)

theorem dry_fill (rect : Rect) (color : Rgba) : Dry (draw (Draw.fill rect color)) :=
  dry_draw (Draw.dry_paint _ _)

theorem dry_image (rect : Rect) (pixels : Array Rgba) : Dry (draw (Draw.image rect pixels)) :=
  dry_draw (Draw.dry_paint _ _)

theorem dry_guarded (g : Guarded α) : Dry (guarded g) := dry_draw (Draw.dry_ofExcept _)

theorem dry_get {f : Bytes → Render α} (h : ∀ data, Dry (f data)) : Dry (get >>= f) :=
  fun data => h data data

theorem dry_whole {r : Render α} (h : Dry r) (data : Bytes) : (r.whole data).Dry :=
  (h data).bind fun _ => Draw.dry_pure _

theorem Dry.bind {r : Render α} {f : α → Render β} (hr : Dry r) (hf : ∀ a, Dry (f a)) :
    Dry (r >>= f) := fun data => (hr data).bind fun out => hf out.1 out.2

theorem Dry.within {r : Render α} (h : Dry r) (context : DecodeContext) :
    Dry (Render.within context r) := fun data => (h data).within context

theorem dry_loop {loop : (left index : Nat) → Render Unit} {step : Nat → Render Unit}
    (none : ∀ index, loop 0 index = pure ())
    (some : ∀ left index, loop (left + 1) index = (do step index; loop left (index + 1)))
    (h : ∀ index, Dry (step index)) (left index : Nat) : Dry (loop left index) := by
  induction left generalizing index with
  | zero =>
      rw [none]
      exact dry_pure ()
  | succ left ih =>
      rw [some]
      exact (h index).bind fun _ => ih (index + 1)

theorem dry_foldTiles {σ : Type} (rect : Rect) (side : Nat) {body : σ → Rect → Render σ}
    (h : ∀ s tile, Dry (body s tile)) (s : σ) : Dry (foldTiles rect side body s) :=
  Rect.foldTiles_of_closed dry_pure Dry.bind
    (fun s _ _ => (dry_guarded _).bind fun _ => h s _) s

end Render

open Render

/-! ## Encodings -/

theorem Raw.dry_render (style : Style) (area : Area) : Dry (Raw.render style area) := by
  refine dry_get fun data => ?_
  dsimp only
  split
  · exact dry_fail _
  split
  · exact dry_pure ()
  · exact dry_image _ _

theorem CopyRect.dry_render (area : Area) : Dry (CopyRect.render area) := by
  refine (dry_read _).bind fun x => (dry_read _).bind fun y => ?_
  split
  · exact dry_pure ()
  · exact dry_draw (Draw.dry_paint _ _)

theorem Subrects.dry_render (kind : Subrects) (style : Style) (area : Area) :
    Dry (kind.render style area) := by
  have one (index : Nat) : Dry (kind.renderOne style area index) := by
    refine (dry_read _).bind fun pixel => (dry_read _).bind fun sub => ?_
    split
    · exact dry_fail _
    · exact dry_fill _ _
  refine (dry_read _).bind fun count => (dry_read _).bind fun background => ?_
  exact (dry_fill _ _).bind fun _ => dry_loop (fun _ => rfl) (fun _ _ => rfl) one count 0

theorem Hextile.dry_render (style : Style) (area : Area) : Dry (Hextile.render style area) := by
  have subrect (tile : Rect) (colored : Bool) (foreground : Option Rgba) (index : Nat) :
      Dry (renderSubrect style tile colored foreground index) := by
    refine (dry_read _).bind fun color => (dry_read _).bind fun sub => ?_
    split
    · exact dry_fail _
    · exact dry_draw (Draw.Dry.within (Draw.dry_paint _ _) _)
  have tile (carried : Carried) (tile : Rect) : Dry (renderTile style carried tile) := by
    refine (dry_read _).bind fun flags => ?_
    dsimp only
    split
    · exact (dry_read _).bind fun pixels => (dry_image _ _).bind fun _ => dry_pure _
    · refine (dry_read _).bind fun background => ?_
      cases background with
      | none => exact dry_fail _
      | some background =>
          refine (dry_fill _ _).bind fun _ => (dry_read _).bind fun foreground => ?_
          split
          · refine (dry_read _).bind fun count => Dry.bind ?_ fun _ => dry_pure _
            exact dry_loop (fun _ => rfl) (fun _ _ => rfl) (subrect tile _ _) _ 0
          · exact dry_pure _
  exact (dry_foldTiles _ _ tile _).bind fun _ => dry_pure ()

theorem Zrle.dry_renderTiles (style : Style) (area : Area) : Dry (renderTiles style area) := by
  have tile (pixel : Payload Rgba) (tile : Rect) : Dry (renderTile pixel tile) := by
    refine Dry.within ?_ _
    refine (dry_read _).bind fun shown => dry_draw ?_
    cases shown with
    | solid color => exact Draw.dry_paint _ _
    | pixels colors => exact Draw.dry_paint _ _
  refine (dry_foldTiles _ _ (fun _ => tile _) ()).bind fun _ => dry_get fun rest => ?_
  split
  · exact dry_pure ()
  · exact dry_fail _

namespace Cursor

theorem dry_setShape (area : Area) (pixels : Array Rgba) (mask : Array Bool) :
    (setShape area pixels mask).Dry := by
  unfold setShape
  split
  · exact Draw.dry_change _ _
  · exact Draw.dry_fail _

theorem dry_render (style : Style) (area : Area) : Dry (render style area) := by
  unfold render
  split
  · exact dry_draw (Draw.dry_change _ _)
  · refine (dry_read _).bind fun pixels => (dry_read _).bind fun mask => ?_
    exact dry_draw (dry_setShape area _ mask)

theorem dry_renderTwoColor (area : Area) : Dry (renderTwoColor area) := by
  unfold renderTwoColor
  split
  · exact dry_draw (Draw.dry_change _ _)
  · refine (dry_read _).bind fun colors => (dry_read _).bind fun picture => ?_
    exact (dry_read _).bind fun mask => dry_draw (dry_setShape area _ mask)

theorem dry_renderAlpha (area : Area) : Dry (renderAlpha area) := by
  refine (dry_read _).bind fun inner => ?_
  split
  · exact dry_draw (Draw.dry_change _ _)
  · exact (dry_read _).bind fun colors => dry_draw (dry_setShape area _ _)

end Cursor

end RemoteFramebuffer
