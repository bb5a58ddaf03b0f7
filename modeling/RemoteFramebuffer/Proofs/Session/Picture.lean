/-
# `RemoteFramebuffer.Proofs.Session.Picture` — a picture depends on the order of rectangles alone

## What is proved

Of every picture that a session can have come to, let two runs of messages be the same pieces in the
same order, both end in an update and both succeed (`regrouping_invisible`).  Then what is seen, the
cursor's shape and position, the streams and the state are the same, but for the name.

After a message that succeeds the canvas is as large as the state says, if no message has failed or
none since one succeeded that announces a size.  A failed update is why (`size_of_failed_update`).

## How it is proved

Messages come in pieces: an update is its rectangles, one after another, and any other message is a
piece by itself.  Between the rectangles of an update nothing happens; between updates the cursor is
shown, the marks are drained and the state takes over what the update announced.

    ⟦r₁, r₂⟧ ⟦r₃⟧   draws r₁, r₂, shows, notes both, draws r₃, shows, notes it
    ⟦r₁⟧ ⟦r₂, r₃⟧   draws r₁, shows, notes it, draws r₂, r₃, shows, notes both

Neither is seen by the drawing of a rectangle, so both runs follow one course over the pieces
(`Course`), which settles everything but the name, the marks, and whether the cursor is drawn; and
after an update it is.

A failed update leaves what it drew, a new size of the canvas too, and is not noted.  So the canvas
is as large as the state says only as long as no update fails (`Reached`).
-/
import RemoteFramebuffer.Deflate.Decoder
import RemoteFramebuffer.Proofs.Encoding.Alike
import RemoteFramebuffer.Proofs.Session.Bookkeeping
import RemoteFramebuffer.Session.Picture

namespace RemoteFramebuffer

open EncodedRect (lastSize? lastSize?_append)

/-! ## Pieces -/

/-- A rectangle of an update, or a message that is none. -/
abbrev Piece := EncodedRect ⊕ ServerMessage

def ServerMessage.pieces : ServerMessage → List Piece
  | .framebufferUpdate update => update.rects.map .inl
  | m => [.inr m]

def ServerMessage.IsOther (m : ServerMessage) : Prop := ∀ update, m ≠ .framebufferUpdate update

theorem ServerMessage.isOther_or (m : ServerMessage) :
    (∃ update, m = .framebufferUpdate update) ∨ m.IsOther ∧ m.pieces = [.inr m] := by
  cases m with
  | framebufferUpdate update => exact .inl ⟨update, rfl⟩
  | _ => exact .inr ⟨fun _ same => (nomatch same), rfl⟩

def EndsInUpdate (messages : List ServerMessage) : Prop :=
  ∃ update, messages.getLast? = some (.framebufferUpdate update)

def ServerMessage.Resizes : ServerMessage → Prop
  | .framebufferUpdate update => update.desktopSize?.isSome
  | _ => False

/-! ## States but for their names -/

namespace SessionState

/-- The state without the name of its desktop. -/
def nameless (s : SessionState) : SessionState := { s with desktop.name := "" }

variable {s s' : SessionState}

theorem nameless_noted (name : Option String) (size : Option (UInt16 × UInt16)) :
    (s.noted name size).nameless = s.nameless.noted none size := rfl

theorem nameless_eq_iff : s.nameless = s'.nameless ↔
    s' = { s with desktop.name := s'.desktop.name } := by
  constructor
  · intro h
    have back : s' = { s'.nameless with desktop.name := s'.desktop.name } := rfl
    rw [← h] at back
    exact back
  · intro h
    rw [h]
    rfl

theorem nameless_afterServer {m : ServerMessage} (other : m.IsOther) :
    (s.afterServer m).nameless = s.nameless.afterServer m := by
  cases m with
  | framebufferUpdate update => exact absurd rfl (other update)
  | _ => rfl

end SessionState

theorem FramebufferUpdate.made_steady [StreamDecoder] (u : FramebufferUpdate) (style : Style) :
    (u.render style).Made Stroke.Steady := by
  have all (rects : List EncodedRect) : Draw.Made Stroke.Steady
      (rects.forM fun r => r.codec.render style r.header.area) := by
    induction rects with
    | nil => exact Draw.made_pure _
    | cons r rects ih => exact .bind (r.codec.made_steady style r.header.area) fun _ => ih
  exact all u.rects

open SessionState (nameless_noted nameless_afterServer nameless_eq_iff noted_noted)

namespace Picture

section

variable [StreamDecoder] {p p' p'' q q' : Picture} {pieces : List Piece}

/-! ## Courses -/

/-- Scenes that are alike, and the same state but for the name. -/
structure Alike (p p' : Picture) : Prop where
  scene : p.scene.Alike p'.scene
  state : p.state.nameless = p'.state.nameless

def Shown (p : Picture) : Prop := p.scene.canvas.Shown

theorem Shown.alike (h : p.Shown) : p.Alike p := ⟨⟨Canvas.Shown.alike h, rfl⟩, rfl⟩

namespace Alike

theorem symm (h : p.Alike p') : p'.Alike p :=
  ⟨⟨h.scene.canvas.symm, h.scene.streams.symm⟩, h.state.symm⟩

theorem trans (h : p.Alike p') (h' : p'.Alike p'') : p.Alike p'' :=
  ⟨⟨h.scene.canvas.trans h'.scene.canvas, h.scene.streams.trans h'.scene.streams⟩,
    h.state.trans h'.state⟩

theorem shown (h : p.Alike p') : p.Shown := h.scene.canvas.shown

theorem style_eq (h : p.Alike p') : p.style = p'.style := by
  have format : p.state.desktop.format = p'.state.desktop.format :=
    congrArg (·.desktop.format) h.state
  have colors : p.state.colors = p'.state.colors := congrArg (·.colors) h.state
  rw [style, style, format, colors]

end Alike

/-- Pieces lead from one picture to another, each drawn and noted in turn; before each, and after
the last, the picture may give way to one that is alike. -/
inductive Course : Picture → List Piece → Picture → Prop
  | ends {p q : Picture} : p.Alike q → Course p [] q
  | rect {p p' q : Picture} {r : EncodedRect} {scene : Scene} {pieces : List Piece} :
      p.Alike p' → r.codec.render p'.style r.header.area p'.scene = (.ok (), scene) →
      Course ⟨scene, p'.state.noted none (lastSize? [r])⟩ pieces q →
      Course p (.inl r :: pieces) q
  | other {p p' q : Picture} {m : ServerMessage} {pieces : List Piece} :
      p.Alike p' → m.IsOther → Course ⟨p'.scene, p'.state.afterServer m⟩ pieces q →
      Course p (.inr m :: pieces) q

namespace Course

theorem of_alike (alike : p.Alike p') (h : Course p' pieces q) : Course p pieces q := by
  cases h with
  | ends same => exact .ends (alike.trans same)
  | rect same drawn rest => exact .rect (alike.trans same) drawn rest
  | other same kind rest => exact .other (alike.trans same) kind rest

theorem append {later : List Piece} (h : Course p pieces q) (h' : Course q later q') :
    Course p (pieces ++ later) q' := by
  induction h with
  | ends alike => exact h'.of_alike alike
  | rect alike drawn _ ih => exact .rect alike drawn (ih h')
  | other alike kind _ ih => exact .other alike kind (ih h')

/-- **The pieces settle the course.**  From pictures that are alike, the same pieces lead to
pictures that are alike. -/
theorem alike (start : p.Alike p') (h : Course p pieces q) (h' : Course p' pieces q') :
    q.Alike q' := by
  induction h generalizing p' with
  | ends same =>
      cases h' with
      | ends same' => exact same.symm.trans (start.trans same')
  | @rect p before q r scene pieces same drawn _ ih =>
      cases h' with
      | @rect _ before' _ _ scene' _ same' drawn' rest' =>
          have between : before.Alike before' := same.symm.trans (start.trans same')
          rw [← between.style_eq] at drawn'
          obtain ⟨-, scenes⟩ := (r.codec.made_steady _ _).alike between.scene drawn drawn'
          refine ih ⟨scenes, ?_⟩ rest'
          rw [nameless_noted, nameless_noted, between.state]
  | @other p before q m pieces same kind _ ih =>
      cases h' with
      | @other _ before' _ _ _ same' _ rest' =>
          have between : before.Alike before' := same.symm.trans (start.trans same')
          have after : Picture.Alike ⟨before.scene, before.state.afterServer m⟩
              ⟨before'.scene, before'.state.afterServer m⟩ := by
            refine ⟨between.scene, ?_⟩
            rw [nameless_afterServer kind, nameless_afterServer kind, between.state]
          exact ih after rest'

theorem of_forM {style : Style} {rects : List EncodedRect} {scene : Scene} (shown : p.Shown)
    (same : p.style = style)
    (drawn : (rects.forM fun r => r.codec.render style r.header.area) p.scene = (.ok (), scene)) :
    Course p (rects.map .inl) ⟨scene, p.state.noted none (lastSize? rects)⟩ ∧
      scene.canvas.Shown := by
  induction rects generalizing p with
  | nil =>
      cases drawn
      exact ⟨.ends shown.alike, shown⟩
  | cons r rects ih =>
      obtain ⟨_, mid, first, others⟩ := Draw.run_bind_ok.mp drawn
      have between : mid.canvas.Shown := by
        have kept := (r.codec.made_steady style r.header.area).shown p.scene shown
        rwa [show r.codec.render style r.header.area p.scene = _ from first] at kept
      obtain ⟨course, after⟩ :=
        ih (p := ⟨mid, p.state.noted none (lastSize? [r])⟩) between same others
      refine ⟨.rect shown.alike (by rw [same]; exact first) ?_, after⟩
      rw [noted_noted, ← lastSize?_append] at course
      exact course

end Course

/-! ## Messages -/

/-- The picture after some messages, all of which have to succeed. -/
def applyAll (p : Picture) : List ServerMessage → Except SessionError Picture
  | [] => .ok p
  | m :: messages =>
    match p.apply m with
    | (.ok _, p) => p.applyAll messages
    | (.error e, _) => .error e

theorem apply_update_ok {update : FramebufferUpdate} {blocks : List Rect}
    (ok : p.apply (.framebufferUpdate update) = (.ok blocks, q)) :
    ∃ scene, update.render p.style p.scene = (.ok (), scene) ∧
      q = ⟨⟨scene.canvas.showCursor.takeDirty.2, scene.streams⟩, p.state.afterUpdate update⟩ := by
  unfold apply drawUpdate at ok
  rcases drawn : update.render p.style p.scene with ⟨_ | _, scene⟩
  · simp only [drawn] at ok
    cases ok
  · simp only [drawn] at ok
    cases ok
    exact ⟨scene, rfl, rfl⟩

theorem apply_other {m : ServerMessage} (kind : m.IsOther) :
    (p.apply m).2 = ⟨⟨p.scene.canvas.takeDirty.2, p.scene.streams⟩, p.state.afterServer m⟩ := by
  cases m with
  | framebufferUpdate update => exact absurd rfl (kind update)
  | _ => rfl

theorem course_apply {m : ServerMessage} {blocks : List Rect} (shown : p.Shown)
    (ok : p.apply m = (.ok blocks, q)) : Course p m.pieces q := by
  obtain ⟨update, rfl⟩ | ⟨kind, pieces⟩ := m.isOther_or
  · obtain ⟨scene, drawn, rfl⟩ := apply_update_ok ok
    obtain ⟨course, after⟩ := Course.of_forM shown rfl drawn
    have settled : Picture.Alike ⟨scene, p.state.noted none (lastSize? update.rects)⟩
        ⟨⟨scene.canvas.showCursor.takeDirty.2, scene.streams⟩, p.state.afterUpdate update⟩ := by
      refine ⟨⟨after.alike_takeDirty_showCursor, rfl⟩, ?_⟩
      rw [SessionState.afterUpdate_eq, nameless_noted, nameless_noted]
    have all := course.append (.ends settled)
    rwa [List.append_nil] at all
  · have eq := apply_other (p := p) kind
    rw [ok] at eq
    subst eq
    rw [pieces]
    refine .other shown.alike kind (.ends ⟨⟨?_, rfl⟩, rfl⟩)
    exact Canvas.Shown.alike_takeDirty shown

theorem course_applyAll {messages : List ServerMessage} (shown : p.Shown)
    (ok : p.applyAll messages = .ok q) : Course p (messages.flatMap ServerMessage.pieces) q := by
  induction messages generalizing p with
  | nil =>
      cases ok
      exact .ends shown.alike
  | cons m messages ih =>
      rw [applyAll] at ok
      rcases applied : p.apply m with ⟨_ | blocks, mid⟩
      · rw [applied] at ok
        cases ok
      · rw [applied] at ok
        have first := course_apply shown applied
        have between : mid.Shown := ((first.alike shown.alike first).shown)
        exact first.append (ih between ok)

theorem complete_apply_update {update : FramebufferUpdate} {blocks : List Rect} (shown : p.Shown)
    (ok : p.apply (.framebufferUpdate update) = (.ok blocks, q)) : q.scene.canvas.Complete := by
  obtain ⟨scene, drawn, rfl⟩ := apply_update_ok ok
  exact (Course.of_forM shown rfl drawn).2.complete_takeDirty_showCursor

theorem complete_applyAll {messages : List ServerMessage} (shown : p.Shown)
    (last : EndsInUpdate messages) (ok : p.applyAll messages = .ok q) :
    q.scene.canvas.Complete := by
  obtain ⟨update, last⟩ := last
  induction messages generalizing p with
  | nil => cases last
  | cons m messages ih =>
      rw [applyAll] at ok
      rcases applied : p.apply m with ⟨_ | blocks, mid⟩
      · rw [applied] at ok
        cases ok
      · rw [applied] at ok
        have first := course_apply shown applied
        cases messages with
        | nil =>
            cases last
            cases ok
            exact complete_apply_update shown applied
        | cons m' messages =>
            rw [List.getLast?_cons_cons] at last
            exact ih (first.alike shown.alike first).shown ok last

/-! ## Sizes -/

def Sized (p : Picture) : Prop :=
  p.scene.canvas.raster.width = p.state.desktop.width.toNat ∧
    p.scene.canvas.raster.height = p.state.desktop.height.toNat

/-- Drawing rectangles leaves the canvas as large as the last that resizes the desktop says, or as
large as it was. -/
theorem size_forM {style : Style} {rects : List EncodedRect} {before after : Scene}
    (drawn : (rects.forM fun r => r.codec.render style r.header.area) before = (.ok (), after)) :
    match lastSize? rects with
    | some size => after.canvas.raster.width = size.1.toNat ∧
        after.canvas.raster.height = size.2.toNat
    | none => after.canvas.raster.width = before.canvas.raster.width ∧
        after.canvas.raster.height = before.canvas.raster.height := by
  induction rects generalizing before with
  | nil =>
      cases drawn
      exact ⟨rfl, rfl⟩
  | cons r rects ih =>
      obtain ⟨_, mid, first, others⟩ := Draw.run_bind_ok.mp drawn
      have first : r.codec.render style r.header.area before = (.ok (), mid) := first
      have rest := ih others
      rw [show r :: rects = [r] ++ rects from rfl, lastSize?_append]
      cases later : lastSize? rects with
      | some size =>
          rw [later] at rest
          exact rest
      | none =>
          rw [later] at rest
          by_cases resizes : FramebufferUpdate.resizesDesktop r
          · have size : lastSize? [r] = some (r.header.area.width, r.header.area.height) := by
              simp [lastSize?, resizes]
            have kind : r.codec.encoding = .desktopSize ∨
                r.codec.encoding = .extendedDesktopSize := by
              simpa [FramebufferUpdate.resizesDesktop] using resizes
            rw [Codec.render_resize _ _ _ kind] at first
            cases first
            rw [size]
            exact rest
          · have size : lastSize? [r] = none := by simp [lastSize?, resizes]
            have kind : ¬ (r.codec.encoding = .desktopSize ∨
                r.codec.encoding = .extendedDesktopSize) := by
              simpa [FramebufferUpdate.resizesDesktop] using resizes
            have kept := (r.codec.made_keepsSize style r.header.area kind).keepsSize before
            rw [first] at kept
            rw [size]
            exact ⟨rest.1.trans kept.1, rest.2.trans kept.2⟩

/-- After a message that succeeds, the canvas is as large as the state says if it was before or if
the message announces a size. -/
theorem sized_apply {m : ServerMessage} {blocks : List Rect} (ok : p.apply m = (.ok blocks, q))
    (sized : p.Sized ∨ m.Resizes) : q.Sized := by
  obtain ⟨update, rfl⟩ | ⟨kind, -⟩ := m.isOther_or
  · obtain ⟨scene, drawn, rfl⟩ := apply_update_ok ok
    have size := size_forM drawn
    rw [SessionState.afterUpdate_eq]
    show scene.canvas.showCursor.raster.width = _ ∧ scene.canvas.showCursor.raster.height = _
    rw [Canvas.width_showCursor, Canvas.height_showCursor]
    cases announced : lastSize? update.rects with
    | some extent =>
        rw [announced] at size
        exact size
    | none =>
        rw [announced] at size
        obtain same | some := sized
        · exact ⟨size.1.trans same.1, size.2.trans same.2⟩
        · have none : update.desktopSize? = none := announced
          simp [ServerMessage.Resizes, none] at some
  · have eq := apply_other (p := p) kind
    rw [ok] at eq
    subst eq
    obtain same | some := sized
    · cases m with
      | framebufferUpdate update => exact absurd rfl (kind update)
      | _ => exact same
    · cases m with
      | framebufferUpdate update => exact absurd rfl (kind update)
      | _ => exact some.elim

/-! ## Sessions -/

/-- The pictures that a session can have.  It is `settled` if no message has failed, or none since
one succeeded that announces a size. -/
inductive Reached : (settled : Prop) → Picture → Prop
  | make (desktop : Desktop) : Reached True (make desktop)
  | ofSession (s : SessionState) : Reached True (ofSession s)
  | setPixelFormat {settled : Prop} {p : Picture} (format : PixelFormat) :
      Reached settled p → Reached settled (p.setPixelFormat format)
  | applied {settled : Prop} {p q : Picture} {m : ServerMessage} {blocks : List Rect} :
      Reached settled p → p.apply m = (.ok blocks, q) → Reached (settled ∨ m.Resizes) q
  | failed {settled : Prop} {p q : Picture} {m : ServerMessage} {e : SessionError} :
      Reached settled p → p.apply m = (.error e, q) → Reached False q

theorem shown_apply_error {m : ServerMessage} {e : SessionError} (shown : p.Shown)
    (failed : p.apply m = (.error e, q)) : q.Shown := by
  obtain ⟨update, rfl⟩ | ⟨kind, -⟩ := m.isOther_or
  · have drawn := (update.made_steady p.style).shown p.scene shown
    unfold apply drawUpdate at failed
    rcases outcome : update.render p.style p.scene with ⟨_ | _, scene⟩
    · rw [outcome] at drawn
      simp only [outcome] at failed
      cases failed
      exact drawn
    · simp only [outcome] at failed
      cases failed
  · cases m with
    | framebufferUpdate update => exact absurd rfl (kind update)
    | _ => cases failed

theorem shown_make (desktop : Desktop) : (make desktop).Shown :=
  ⟨Raster.black desktop.width.toNat desktop.height.toNat,
    Nat.le_of_lt_succ desktop.width.toNat_lt, Nat.le_of_lt_succ desktop.height.toNat_lt, nofun,
    .hidden rfl rfl⟩

theorem setPixelFormat_scene (format : PixelFormat) :
    (p.setPixelFormat format).scene = p.scene := by
  unfold setPixelFormat
  split <;> rfl

theorem Reached.shown {settled : Prop} (h : Reached settled p) : p.Shown := by
  induction h with
  | make desktop => exact shown_make desktop
  | ofSession s => exact shown_make s.desktop
  | setPixelFormat format _ ih =>
      rw [Shown, setPixelFormat_scene]
      exact ih
  | applied _ ok ih =>
      have course := course_apply ih ok
      exact (course.alike ih.alike course).shown
  | failed _ failed ih => exact shown_apply_error ih failed

theorem Reached.sized {settled : Prop} (h : Reached settled p) (clean : settled) : p.Sized := by
  induction h with
  | make desktop => exact ⟨rfl, rfl⟩
  | ofSession s => exact ⟨rfl, rfl⟩
  | @setPixelFormat _ p format _ ih =>
      have same := ih clean
      unfold Picture.setPixelFormat
      split
      · exact same
      · exact same
  | applied _ ok ih => exact sized_apply ok (clean.imp_left ih)
  | failed => exact clean.elim

/-- **A picture depends on the order of rectangles alone.**  Of a session that has come to any
picture, let two runs of messages be the same pieces in the same order, the rectangles dealt out to
updates in any way, and let both end in an update and succeed.  Then what is seen, the size of the
canvas with it, the cursor's shape and position, the streams and the state are the same, but for the
name.  After a message that succeeds the canvas is as large as the state says, if the message
announces a size or the session was settled. -/
theorem regrouping_invisible {settled : Prop} (reached : Reached settled p) :
    (∀ messages messages' q q',
      messages.flatMap ServerMessage.pieces = messages'.flatMap ServerMessage.pieces →
      EndsInUpdate messages → EndsInUpdate messages' →
      p.applyAll messages = .ok q → p.applyAll messages' = .ok q' →
        q.scene.canvas.raster = q'.scene.canvas.raster ∧
        q.scene.canvas.cursor = q'.scene.canvas.cursor ∧
        q.scene.canvas.position = q'.scene.canvas.position ∧
        q.scene.streams = q'.scene.streams ∧
        q'.state = { q.state with desktop.name := q'.state.desktop.name }) ∧
    ∀ m blocks q, p.apply m = (.ok blocks, q) → settled ∨ m.Resizes →
      q.scene.canvas.raster.width = q.state.desktop.width.toNat ∧
        q.scene.canvas.raster.height = q.state.desktop.height.toNat := by
  have shown := reached.shown
  refine ⟨fun messages messages' q q' same last last' ok ok' => ?_, fun m blocks q ok clean => ?_⟩
  · have course := course_applyAll shown ok
    have course' := course_applyAll shown ok'
    rw [← same] at course'
    have alike := course.alike shown.alike course'
    refine ⟨?_, alike.scene.canvas.cursor, alike.scene.canvas.position, alike.scene.streams,
      nameless_eq_iff.mp alike.state⟩
    exact alike.scene.canvas.raster_eq (complete_applyAll shown last ok)
      (complete_applyAll shown last' ok')
  · exact (reached.applied ok).sized clean

end

/-- A cursor of one pixel, and a pixel under it. -/
def pointed : EncodedRect := ⟨⟨⟨0, 0, 1, 1⟩, Encoding.cursor.wire⟩, ⟨.cursor, [9, 9, 9, 0, 0x80]⟩⟩

def leftPixel : EncodedRect := ⟨⟨⟨0, 0, 1, 1⟩, Encoding.raw.wire⟩, ⟨.raw, [1, 2, 3, 0]⟩⟩

def rightPixel : EncodedRect := ⟨⟨⟨1, 0, 1, 1⟩, Encoding.raw.wire⟩, ⟨.raw, [4, 5, 6, 0]⟩⟩

/-- The same three rectangles and a bell, dealt out in two ways. -/
theorem regrouping_invisible_pointed :
    let p := make ⟨"d", 2, 1, PixelFormat.rgb888⟩
    let messages : List ServerMessage := [.framebufferUpdate ⟨2, [pointed, leftPixel]⟩, .bell,
      .framebufferUpdate ⟨1, [rightPixel]⟩]
    let messages' : List ServerMessage := [.framebufferUpdate ⟨1, [pointed]⟩,
      .framebufferUpdate ⟨1, [leftPixel]⟩, .bell, .framebufferUpdate ⟨0, []⟩,
      .framebufferUpdate ⟨1, [rightPixel]⟩]
    ∃ q q', p.applyAll messages = .ok q ∧ p.applyAll messages' = .ok q' ∧
      q.scene.canvas.raster = q'.scene.canvas.raster ∧
      q.scene.canvas.raster.pixel? 0 0 = some ⟨9, 9, 9, 255⟩ := by
  intro p messages messages'
  have some {l : List ServerMessage} (succeeds : (p.applyAll l).isOk) :
      ∃ q, p.applyAll l = .ok q := by
    cases ok : p.applyAll l with
    | ok q => exact ⟨q, rfl⟩
    | error e =>
        rw [ok] at succeeds
        cases succeeds
  obtain ⟨q, ok⟩ := some (l := messages) (by decide +kernel)
  obtain ⟨q', ok'⟩ := some (l := messages') (by decide +kernel)
  refine ⟨q, q', ok, ok', ?_, ?_⟩
  · exact ((regrouping_invisible (.make _)).1 messages messages' q q' rfl ⟨_, rfl⟩ ⟨_, rfl⟩ ok
      ok').1
  · have seen : (match p.applyAll messages with
        | .ok q => q.scene.canvas.raster.pixel? 0 0
        | .error _ => none) = .some ⟨9, 9, 9, 255⟩ := by decide +kernel
    rwa [ok] at seen

/-- An update makes the desktop larger and then fails: the message after it succeeds, and the canvas
is larger than the state says. -/
theorem size_of_failed_update :
    let failing : ServerMessage := .framebufferUpdate ⟨2,
      [⟨⟨⟨0, 0, 2, 1⟩, Encoding.desktopSize.wire⟩, ⟨.desktopSize, []⟩⟩,
        ⟨⟨⟨0, 0, 3, 1⟩, Encoding.copyRect.wire⟩, ⟨.copyRect, [0, 0, 0, 0]⟩⟩]⟩
    let failed := (make ⟨"d", 1, 1, PixelFormat.rgb888⟩).apply failing
    let next := failed.2.apply .bell
    failed.1.isOk = false ∧ next.1.isOk = true ∧ next.2.scene.canvas.raster.width = 2 ∧
      next.2.state.desktop.width = 1 := by
  decide +kernel

end Picture

end RemoteFramebuffer
