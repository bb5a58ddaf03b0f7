/-
# `RemoteFramebuffer.Proofs.Encoding.Inflation` — six streams, each with a history of its own

## What is proved

Of every decoder of compressed streams, every run of rectangles and every state of the streams
(`Streams.continuous_and_independent`):

    a rectangle     is drawn from what is inflated for it, and looks at the streams for nothing else
    its bytes       are what its stream makes of all that it was given since it was started afresh

What the other streams are given makes no difference, nor what was drawn.

    restarted by the rectangle               fresh,           given its bytes alone
    restarted last by an earlier one         fresh,           given all since, and its bytes
    not restarted                            as at the start, given all so far, and its bytes

Inflating a payload comes to its end after so many calls of the decoder, whatever it does.  And if
the decoder is eager — it hands out all that its input so far determines — payloads one after another
come out as their bytes at once, from the start of a stream and from every state that payloads lead
to.

## What is asked of the decoder

To count down what can still come of its input (`StreamDecoder`), and to be eager, for the last part
alone.  `Eager` is told of one call of it and of the format that it follows; payloads and the loop
over calls do not come into it.  A decoder that keeps back what it could hand out is not eager, and
where payloads end may then be seen in what comes out of them.

## How it is proved

A rectangle may start Tight streams afresh and give compressed bytes to one stream; its `intake`
says which.  The streams come into drawing in no other way (`TakesIn`), so what happened to a stream
is told by the intakes of the rectangles (`history`).
-/
import RemoteFramebuffer.Encoding.Update
import RemoteFramebuffer.Proofs.Encoding.Alike
import RemoteFramebuffer.Proofs.Encoding.Dry
import RemoteFramebuffer.Proofs.Deflate

namespace RemoteFramebuffer

section

variable [StreamDecoder] {α β : Type}

/-! ## Streams by name -/

inductive StreamId
  | zlib
  | zrle
  | tight (index : Fin 4)
deriving DecidableEq, Repr

namespace Streams

def get (s : Streams) : StreamId → StreamDecoder.State
  | .zlib => s.zlib
  | .zrle => s.zrle
  | .tight index => s.tight.get index

def set (s : Streams) : StreamId → StreamDecoder.State → Streams
  | .zlib, f => { s with zlib := f }
  | .zrle, f => { s with zrle := f }
  | .tight ⟨i, inside⟩, f => { s with tight := s.tight.set i f inside }

@[simp] theorem get_zlib (s : Streams) : s.get .zlib = s.zlib := rfl

@[simp] theorem get_zrle (s : Streams) : s.get .zrle = s.zrle := rfl

@[simp] theorem get_tight (s : Streams) {i : Nat} (inside : i < 4) :
    s.get (.tight ⟨i, inside⟩) = s.tight[i] := rfl

theorem get_set (s : Streams) (id id' : StreamId) (f : StreamDecoder.State) :
    (s.set id f).get id' = if id' = id then f else s.get id' := by
  rcases id with _ | _ | ⟨i, inside⟩ <;> rcases id' with _ | _ | ⟨i', inside'⟩ <;>
    simp [set, Vector.getElem_set, eq_comm]

/-- Whether a stream is among those that are started afresh. -/
def Restarted (mask : Nat) : StreamId → Prop
  | .tight index => mask.testBit index
  | _ => False

instance (mask : Nat) (id : StreamId) : Decidable (Restarted mask id) := by
  cases id <;> unfold Restarted <;> infer_instance

theorem get_resetTight (s : Streams) (mask : Nat) (id : StreamId) :
    (s.resetTight mask).get id = if Restarted mask id then StreamDecoder.fresh else s.get id := by
  rcases id with _ | _ | ⟨i, inside⟩ <;> simp [resetTight, Restarted]

theorem resetTight_zero (s : Streams) : s.resetTight 0 = s := by
  have same : (s.tight.mapIdx fun i stream =>
      if Nat.testBit 0 i then StreamDecoder.fresh else stream) = s.tight :=
    Vector.ext fun i inside => by simp
  rw [resetTight, same]

end Streams

/-! ## What a rectangle takes in -/

/-- What a rectangle does to the streams. -/
structure Intake where
  /-- The Tight streams that it starts afresh, a bit each. -/
  restarts : Nat
  /-- The stream that it gives compressed bytes then, and these. -/
  given : Option (StreamId × Bytes)

namespace Intake

/-- Nothing is started afresh or given anything. -/
def none : Intake := ⟨0, .none⟩

/-- Bytes are given to a stream, if any were found. -/
def ofFound (id : StreamId) : Except DecodeError (Option Bytes × Bytes) → Intake
  | .ok (some bytes, _) => ⟨0, some (id, bytes)⟩
  | _ => none

/-- The bytes that `compressed` finds in data are given to a stream. -/
def ofData (id : StreamId) (compressed : Payload (Option Bytes)) (data : Bytes) : Intake :=
  ofFound id (compressed data)

/-- What becomes of the streams, and the bytes inflated; none if nothing is given. -/
def inflate (u : Intake) (s : Streams) : Except Nat Bytes × Streams :=
  let s := s.resetTight u.restarts
  match u.given with
  | .none => (.ok [], s)
  | some (id, bytes) =>
    let (out, f) := StreamDecoder.inflate (s.get id) bytes
    (out, s.set id f)

end Intake

/-- The compressed bytes of a Zlib or ZRLE rectangle. -/
def Zlib.compressed : Payload (Option Bytes) := do
  return some (← body)

/-- The compressed bytes of a Tight rectangle with filtered data, unless these are sent as they
are. -/
def Tight.compressed (style : Style) (area : Area) (explicit : Bool) : Payload (Option Bytes) := do
  let pixelSize := pixelSize style.format
  let filter ← readFilter explicit
  let palette ← readPalette style pixelSize filter
  if dataSize area filter palette.size pixelSize < minToCompress then return none
  else
    let length ← CompactLength.parse
    return some (← Payload.take length)

/-- What a Tight rectangle of a kind gives to the streams. -/
def Tight.kindIntake (style : Style) (area : Area) (data : Bytes) : Control → Intake
  | .basic stream explicit | .reserved stream explicit =>
    .ofData (.tight stream) (compressed style area explicit) data
  | _ => .none

def Tight.intake (style : Style) (area : Area) (payload : Bytes) : Intake :=
  match Payload.u8 payload with
  | .ok (control, data) =>
    { kindIntake style area data (Control.ofByte control) with restarts := control.toNat % 16 }
  | .error _ => .none

def Codec.intake (c : Codec) (style : Style) (area : Area) : Intake :=
  match c.encoding with
  | .zlib => .ofData .zlib Zlib.compressed c.payload
  | .zrle => .ofData .zrle Zlib.compressed c.payload
  | .tight | .tightPng => Tight.intake style area c.payload
  | _ => .none

/-! ## Drawing from what is inflated -/

namespace Draw

/-- Draws from the bytes inflated, or fails for want of them. -/
def finish (draw : Bytes → Draw α) (fail : Nat → DecodeError) : Except Nat Bytes → Draw α
  | .ok out => draw out
  | .error offset => ofExcept (.error (fail offset))

/-- Takes in what `u` says, and uses the streams for nothing else. -/
def TakesIn (u : Intake) (d : Draw α) : Prop := ∃ draw fail, (∀ out, Dry (draw out)) ∧
  ∀ canvas streams, d ⟨canvas, streams⟩ =
    finish draw fail (u.inflate streams).1 ⟨canvas, (u.inflate streams).2⟩

theorem Dry.takesIn {d : Draw α} (h : d.Dry) : d.TakesIn .none := by
  refine ⟨fun _ => d, fun _ => ⟨[], .corrupt⟩, fun _ => h, fun canvas streams => ?_⟩
  show d ⟨canvas, streams⟩ = d ⟨canvas, streams.resetTight 0⟩
  rw [Streams.resetTight_zero]

theorem takesIn_inflate {id : StreamId} {name : String} {bytes : Bytes}
    {use : Streams → Except DecodeError Bytes × Streams}
    (check : Except DecodeError Bytes → Except DecodeError Bytes)
    (passes : ∀ e, check (.error e) = .error e)
    (h : ∀ s, use s = (check (Streams.inflate name (s.get id) bytes).1,
      s.set id (Streams.inflate name (s.get id) bytes).2)) :
    (inflate use).TakesIn ⟨0, some (id, bytes)⟩ := by
  refine ⟨fun out => ofExcept (check (.ok out)),
    fun offset => ⟨[.stream name, .inflating bytes.length offset], .corrupt⟩,
    fun _ => dry_ofExcept _, fun canvas streams => ?_⟩
  have taken : (⟨0, some (id, bytes)⟩ : Intake).inflate streams =
      ((StreamDecoder.inflate (streams.get id) bytes).1, streams.set id (StreamDecoder.inflate (streams.get id) bytes).2) := by
    rw [Intake.inflate, Streams.resetTight_zero]
  simp only [taken, inflate, h, Streams.inflate]
  rcases StreamDecoder.inflate (streams.get id) bytes with ⟨offset | out, f⟩
  · simp only [passes, finish]
    rfl
  · rfl

namespace TakesIn

variable {u : Intake} {d : Draw α}

theorem bind {f : α → Draw β} (h : d.TakesIn u) (hf : ∀ a, (f a).Dry) : (d >>= f).TakesIn u := by
  obtain ⟨draw, fail, dry, eq⟩ := h
  refine ⟨fun out => draw out >>= f, fail, fun out => (dry out).bind hf, fun canvas streams => ?_⟩
  rw [run_bind, eq]
  cases (u.inflate streams).1 with
  | ok out =>
      show _ = (draw out >>= f) _
      rw [run_bind]
      rfl
  | error offset => rfl

theorem within (h : d.TakesIn u) (context : DecodeContext) : (Draw.within context d).TakesIn u := by
  obtain ⟨draw, fail, dry, eq⟩ := h
  refine ⟨fun out => Draw.within context (draw out), fun offset => (fail offset).within context,
    fun out => (dry out).within context, fun canvas streams => ?_⟩
  unfold Draw.within
  rw [eq]
  cases (u.inflate streams).1 <;> rfl

/-- The Tight streams are started afresh before anything is given to one. -/
theorem restart {mask : Nat} (h : d.TakesIn u) (first : u.restarts = 0) :
    (changeStreams (·.resetTight mask) >>= fun _ => d).TakesIn { u with restarts := mask } := by
  obtain ⟨draw, fail, dry, eq⟩ := h
  refine ⟨draw, fail, dry, fun canvas streams => ?_⟩
  have same : u.inflate (streams.resetTight mask) =
      ({ u with restarts := mask } : Intake).inflate streams := by
    simp only [Intake.inflate, first, Streams.resetTight_zero]
  rw [← same]
  exact eq canvas (streams.resetTight mask)

end TakesIn

end Draw

namespace Render

/-- Takes in the compressed bytes that a payload holds, for one stream. -/
def TakesIn (id : StreamId) (compressed : Payload (Option Bytes)) (r : Render α) : Prop :=
  ∀ data, (r data).TakesIn (.ofData id compressed data)

variable {id : StreamId} {compressed : Payload (Option Bytes)}

theorem Dry.takesIn {r : Render α} (h : Dry r) : TakesIn id (pure none) r := fun data =>
  (h data).takesIn

theorem takesIn_draw {d : Draw α} {bytes : Bytes} (h : d.TakesIn ⟨0, some (id, bytes)⟩) :
    TakesIn id (pure (some bytes)) (draw d) := fun _ => h.bind fun _ => Draw.dry_pure _

theorem read_bind_ok {p : Payload β} {f : β → Render α} {data rest : Bytes} {b : β}
    (parsed : p data = .ok (b, rest)) : (read p >>= f) data = f b rest := by
  funext scene
  show (ExceptT.bindCont (fun out => f out.1 out.2) (p data) : StateM Scene _) scene = _
  rw [parsed]
  rfl

theorem read_bind_error {p : Payload β} {f : β → Render α} {data : Bytes} {e : DecodeError}
    (parsed : p data = .error e) : (read p >>= f) data = Draw.ofExcept (.error e) := by
  funext scene
  show (ExceptT.bindCont (fun out => f out.1 out.2) (p data) : StateM Scene _) scene = _
  rw [parsed]
  rfl

theorem takesIn_read {p : Payload β} {q : β → Payload (Option Bytes)} {f : β → Render α}
    (h : ∀ b, TakesIn id (q b) (f b)) : TakesIn id (p >>= q) (read p >>= f) := by
  intro data
  show Draw.TakesIn (.ofFound id (p data >>= fun out => q out.1 out.2)) _
  cases parsed : p data with
  | error e =>
      rw [read_bind_error parsed]
      exact (Draw.dry_ofExcept _).takesIn
  | ok out =>
      obtain ⟨b, rest⟩ := out
      rw [read_bind_ok parsed]
      exact h b rest

theorem TakesIn.bind {r : Render α} {f : α → Render β} (h : TakesIn id compressed r)
    (hf : ∀ a, Dry (f a)) : TakesIn id compressed (r >>= f) := fun data =>
  (h data).bind fun out => hf out.1 out.2

theorem TakesIn.whole {r : Render α} (h : TakesIn id compressed r) (data : Bytes) :
    (r.whole data).TakesIn (.ofData id compressed data) := (h data).bind fun _ => Draw.dry_pure _

end Render

open Render

omit [StreamDecoder] in
theorem Streams.atLeast_error (expected : Nat) (e : DecodeError) :
    atLeast expected (.error e) = .error e := rfl

theorem Zlib.takesIn_render (style : Style) (area : Area) :
    TakesIn .zlib compressed (render style area) := by
  refine takesIn_read fun bytes => (takesIn_draw ?_).bind fun pixels => ?_
  · exact Draw.takesIn_inflate (Streams.atLeast _) (Streams.atLeast_error _) fun _ => rfl
  · split
    · exact dry_pure ()
    · exact (dry_guarded _).bind fun _ => dry_image _ _

theorem Zrle.takesIn_render (style : Style) (area : Area) :
    TakesIn .zrle Zlib.compressed (render style area) := by
  refine takesIn_read fun bytes => takesIn_draw (Draw.TakesIn.bind ?_ fun inflated => ?_)
  · exact Draw.takesIn_inflate id (fun _ => rfl) fun _ => rfl
  · exact dry_whole (dry_renderTiles style area) inflated

namespace Tight

variable (style : Style) (area : Area)

theorem takesIn_readData (stream : Fin 4) (size : Nat) :
    TakesIn (.tight stream)
      (if size < minToCompress then pure none
        else do
          let length ← CompactLength.parse
          return some (← Payload.take length))
      (readData stream size) := by
  unfold readData
  split
  · exact (dry_read _).takesIn
  · refine takesIn_read fun length => takesIn_read fun bytes => (takesIn_draw ?_).bind ?_
    · exact Draw.takesIn_inflate (Streams.atLeast _) (Streams.atLeast_error _) fun _ => rfl
    · exact fun inflated => (dry_guarded _).bind fun _ => dry_pure _

theorem takesIn_renderBasic (stream : Fin 4) (explicit : Bool) :
    TakesIn (.tight stream) (compressed style area explicit)
      (renderBasic style area stream explicit) := by
  refine takesIn_read fun filter => takesIn_read fun palette => ?_
  refine (takesIn_readData stream _).bind fun data => ?_
  split
  · exact dry_pure ()
  · exact dry_draw ((Draw.dry_ofExcept _).bind fun colors => Draw.dry_paint _ _)

theorem takesIn_renderKind (control : Control) (data : Bytes) :
    (renderKind style area control data).TakesIn (kindIntake style area data control) := by
  cases control with
  | fill =>
      refine Draw.Dry.takesIn (((dry_read _).bind fun pixel => ?_ : Dry (renderFill style area)) data)
      split
      · exact dry_pure ()
      · exact dry_fill _ _
  | jpeg | png =>
      exact Draw.Dry.takesIn (((dry_read _).bind fun _ => dry_pure () : Dry renderFile) data)
  | basic stream explicit | reserved stream explicit =>
      exact takesIn_renderBasic style area stream explicit data

omit [StreamDecoder] in
theorem restarts_kindIntake (control : Control) (data : Bytes) :
    (kindIntake style area data control).restarts = 0 := by
  cases control with
  | basic stream explicit | reserved stream explicit =>
      show (Intake.ofFound _ (compressed style area explicit data)).restarts = 0
      unfold Intake.ofFound
      split <;> rfl
  | _ => rfl

theorem takesIn_render (data : Bytes) :
    (render style area data).TakesIn (intake style area data) := by
  unfold render intake
  cases parsed : Payload.u8 data with
  | error e =>
      rw [read_bind_error parsed]
      exact (Draw.dry_ofExcept _).takesIn
  | ok out =>
      obtain ⟨control, rest⟩ := out
      rw [read_bind_ok parsed]
      exact (takesIn_renderKind style area _ rest).restart (restarts_kindIntake style area _ rest)

end Tight

/-- **A rectangle is drawn from what is inflated for it**, and the streams come into it in no other
way. -/
theorem Codec.takesIn_render (c : Codec) (style : Style) (area : Area) :
    (c.render style area).TakesIn (c.intake style area) := by
  obtain ⟨encoding, payload⟩ := c
  refine Draw.TakesIn.within ?_ _
  cases encoding with
  | zlib => exact (Zlib.takesIn_render style area).whole payload
  | zrle => exact (Zrle.takesIn_render style area).whole payload
  | tight | tightPng => exact (Tight.takesIn_render style area payload).bind fun _ => Draw.dry_pure _
  | raw => exact (dry_whole (Raw.dry_render style area) payload).takesIn
  | copyRect => exact (dry_whole (CopyRect.dry_render area) payload).takesIn
  | rre | coRre => exact (dry_whole (Subrects.dry_render _ style area) payload).takesIn
  | hextile => exact (dry_whole (Hextile.dry_render style area) payload).takesIn
  | cursor => exact (dry_whole (Cursor.dry_render style area) payload).takesIn
  | xCursor => exact (dry_whole (Cursor.dry_renderTwoColor area) payload).takesIn
  | cursorWithAlpha => exact (dry_whole (Cursor.dry_renderAlpha area) payload).takesIn
  | pointerPos | desktopSize | extendedDesktopSize =>
      exact (dry_whole (dry_draw (Draw.dry_change _ _)) payload).takesIn
  | _ => exact (dry_whole (dry_pure ()) payload).takesIn

/-! ## Histories -/

namespace Draw

variable {u : Intake} {d : Draw α} {a : α} {canvas : Canvas} {streams : Streams} {t : Scene}

theorem TakesIn.inflate_of_ok (h : d.TakesIn u) (run : d ⟨canvas, streams⟩ = (.ok a, t)) :
    ∃ out, u.inflate streams = (.ok out, t.streams) := by
  obtain ⟨draw, fail, dry, eq⟩ := h
  obtain ⟨⟨result, after⟩, taken⟩ : ∃ o, u.inflate streams = o := ⟨_, rfl⟩
  rw [eq, taken] at run
  cases result with
  | error offset => cases run
  | ok out =>
      have same := dry out canvas after after
      rw [show draw out ⟨canvas, after⟩ = (.ok a, t) from run] at same
      have kept : t.streams = after := congrArg (fun o => o.2.streams) same
      rw [taken, kept]
      exact ⟨out, rfl⟩

end Draw

/-- What a stream was when it was last started afresh, or at first, and what it has been given
since. -/
structure History where
  start : StreamDecoder.State
  given : List Bytes

namespace Intake

def givenTo (u : Intake) (id : StreamId) : List Bytes :=
  match u.given with
  | some (id', bytes) => if id' = id then [bytes] else []
  | .none => []

end Intake

namespace History

/-- The history of a stream begins anew where it is started afresh. -/
def restart (h : History) (id : StreamId) (u : Intake) : History :=
  if Streams.Restarted u.restarts id then ⟨StreamDecoder.fresh, []⟩ else h

def give (h : History) (payloads : List Bytes) : History := { h with given := h.given ++ payloads }

/-- A rectangle is added to the history of a stream. -/
def next (h : History) (id : StreamId) (u : Intake) : History :=
  (h.restart id u).give (u.givenTo id)

def output (h : History) : Option Bytes :=
  (StreamDecoder.inflateEach h.start h.given).bind fun result => result.1.getLast?

/-- The history leads to a stream as it is. -/
def LeadsTo (h : History) (f : StreamDecoder.State) : Prop :=
  ∃ outs, StreamDecoder.inflateEach h.start h.given = some (outs, f)

variable {id : StreamId} {h : History} {u : Intake} {s s' : Streams} {out : Bytes}

theorem LeadsTo.restart (leads : h.LeadsTo (s.get id)) :
    (h.restart id u).LeadsTo ((s.resetTight u.restarts).get id) := by
  rw [Streams.get_resetTight, History.restart]
  split
  · exact ⟨[], rfl⟩
  · exact leads

theorem give_nil : h.give [] = h := by
  rw [give, List.append_nil]

theorem LeadsTo.give {f g : StreamDecoder.State} {bytes : Bytes} (leads : h.LeadsTo f)
    (run : StreamDecoder.inflate f bytes = (.ok out, g)) :
    (h.give [bytes]).LeadsTo g ∧ (h.give [bytes]).output = some out := by
  obtain ⟨outs, before⟩ := leads
  have all : StreamDecoder.inflateEach (h.give [bytes]).start (h.give [bytes]).given =
      some (outs ++ [out], g) := by
    show StreamDecoder.inflateEach h.start (h.given ++ [bytes]) = _
    rw [StreamDecoder.inflateEach_append before, StreamDecoder.inflateEach_cons_ok run]
    rfl
  refine ⟨⟨_, all⟩, ?_⟩
  rw [output, all]
  exact List.getLast?_concat

/-- A rectangle adds to the histories of the streams that it concerns, and no other stream is
changed. -/
theorem LeadsTo.next (leads : h.LeadsTo (s.get id)) (run : u.inflate s = (.ok out, s')) :
    (h.next id u).LeadsTo (s'.get id) ∧
      ∀ bytes, u.given = some (id, bytes) → (h.next id u).output = some out := by
  have restarted : (h.restart id u).LeadsTo ((s.resetTight u.restarts).get id) := leads.restart
  unfold Intake.inflate at run
  unfold History.next Intake.givenTo
  cases given : u.given with
  | none =>
      rw [given] at run
      cases run
      rw [give_nil]
      exact ⟨restarted, nofun⟩
  | some gift =>
      obtain ⟨id', bytes⟩ := gift
      obtain ⟨⟨result, f⟩, inflated⟩ :
        ∃ o, StreamDecoder.inflate ((s.resetTight u.restarts).get id') bytes = o := ⟨_, rfl⟩
      simp only [given, inflated] at run ⊢
      cases run
      rw [Streams.get_set]
      by_cases same : id' = id
      · subst same
        rw [if_pos rfl, if_pos rfl]
        obtain ⟨leads', output⟩ := restarted.give inflated
        exact ⟨leads', fun _ _ => output⟩
      · rw [if_neg same, if_neg (Ne.symm same), give_nil]
        refine ⟨restarted, fun _ own => ?_⟩
        cases own
        exact absurd rfl same

end History

/-! ## Runs of rectangles -/

structure StyledRect where
  rect : EncodedRect
  style : Style

namespace StyledRect

def render (r : StyledRect) : Draw Unit := r.rect.codec.render r.style r.rect.header.area

def intake (r : StyledRect) : Intake := r.rect.codec.intake r.style r.rect.header.area

theorem takesIn_render (r : StyledRect) : r.render.TakesIn r.intake :=
  r.rect.codec.takesIn_render r.style r.rect.header.area

def renderAll (run : List StyledRect) : Draw Unit := run.forM render

def history (run : List StyledRect) (id : StreamId) (start : StreamDecoder.State) : History :=
  run.foldl (fun h r => h.next id r.intake) ⟨start, []⟩

variable {run after : List StyledRect} {r : StyledRect} {s t : Scene}

theorem renderAll_append_ok :
    renderAll (run ++ after) s = (.ok (), t) ↔
      ∃ mid, renderAll run s = (.ok (), mid) ∧ renderAll after mid = (.ok (), t) := by
  show (forM (run ++ after) render : Draw Unit) s = _ ↔ _
  rw [List.forM_append, Draw.run_bind_ok]
  constructor
  · rintro ⟨⟨⟩, mid, first, rest⟩
    exact ⟨mid, first, rest⟩
  · rintro ⟨mid, first, rest⟩
    exact ⟨(), mid, first, rest⟩

/-- Over rectangles that are drawn without an error, the history of every stream leads to it. -/
theorem leadsTo_of_ok {id : StreamId} {h : History} (leads : h.LeadsTo (s.streams.get id))
    (drawn : renderAll run s = (.ok (), t)) :
    (run.foldl (fun h r => h.next id r.intake) h).LeadsTo (t.streams.get id) := by
  induction run generalizing s h with
  | nil =>
      cases drawn
      exact leads
  | cons r run ih =>
      obtain ⟨⟨⟩, mid, first, rest⟩ := Draw.run_bind_ok.mp drawn
      obtain ⟨out, taken⟩ := r.takesIn_render.inflate_of_ok first
      exact ih (leads.next taken).1 rest

/-- What is inflated for a rectangle is what comes out at the end of its stream's history. -/
theorem inflate_of_ok (drawn : renderAll (run ++ r :: after) s = (.ok (), t)) :
    ∃ mid, renderAll run s = (.ok (), mid) ∧
      ∀ id bytes, r.intake.given = some (id, bytes) →
        ∃ out, (r.intake.inflate mid.streams).1 = .ok out ∧
          (history (run ++ [r]) id (s.streams.get id)).output = some out := by
  obtain ⟨mid, first, rest⟩ := renderAll_append_ok.mp drawn
  obtain ⟨⟨⟩, _, own, -⟩ := Draw.run_bind_ok.mp rest
  obtain ⟨out, taken⟩ := r.takesIn_render.inflate_of_ok own
  refine ⟨mid, first, fun id bytes given => ⟨out, by rw [taken], ?_⟩⟩
  have leads : (history run id (s.streams.get id)).LeadsTo (mid.streams.get id) :=
    leadsTo_of_ok ⟨[], rfl⟩ first
  rw [history, List.foldl_append]
  exact (leads.next taken).2 bytes given

end StyledRect

end

open StyledRect

/-- **The streams are independent of each other and continuous each.**  A rectangle is drawn from
what is inflated for it and looks at the streams for nothing else.  What is inflated for a rectangle
in a run of them is what its stream, as it was when it was last started afresh, makes of the payloads
it has been given since and of the rectangle's own.  A stream comes to the end of every payload.  If
the decoder hands out all that its input so far determines, then in every state that payloads lead to
it makes the same of payloads as of their bytes at once. -/
theorem Streams.continuous_and_independent [StreamDecoder] :
    (∀ r : StyledRect, r.render.TakesIn r.intake) ∧
    (∀ before r after s t, renderAll (before ++ r :: after) s = (.ok (), t) →
      ∃ mid, renderAll before s = (.ok (), mid) ∧
        ∀ id bytes, r.intake.given = some (id, bytes) →
          ∃ out, (r.intake.inflate mid.streams).1 = .ok out ∧
            (history (before ++ [r]) id (s.streams.get id)).output = some out) ∧
    (∀ f payload, ∃ calls ≤ payload.length + StreamDecoder.limit f payload + 1,
      StreamDecoder.Drains calls f payload 0 (StreamDecoder.inflate f payload).1
        (StreamDecoder.inflate f payload).2) ∧
    ∀ format, StreamDecoder.Eager format → ∀ before outs f,
      StreamDecoder.inflateEach StreamDecoder.fresh before = some (outs, f) → ∀ payloads out,
        (∃ g, StreamDecoder.inflate f payloads.flatten = (.ok out, g)) ↔
          ∃ outs g, StreamDecoder.inflateEach f payloads = some (outs, g) ∧ outs.flatten = out := by
  refine ⟨takesIn_render, fun _ _ _ _ _ => inflate_of_ok, StreamDecoder.drains_inflate, ?_⟩
  intro format eager before outs f run payloads out
  obtain ⟨failed, -⟩ | ⟨outs', f', run', stands⟩ :=
    (StreamDecoder.stands_fresh format).inflateEach eager before
  · cases run.symm.trans failed
  · cases run.symm.trans run'
    exact stands.inflateEach_iff eager payloads out

def StyledRect.ofTight (payload : Bytes) : StyledRect :=
  ⟨⟨⟨⟨0, 0, 4, 1⟩, Encoding.tight.wire⟩, ⟨.tight, payload⟩⟩, ⟨PixelFormat.rgb888, ColorMap.black⟩⟩

/-- The start of a stream: twelve bytes of one value, stored as they are. -/
def Deflate.storedTwelve (value : UInt8) : Bytes :=
  [0x78, 0x01, 0x00, 12, 0, 0xF3, 0xFF] ++ List.replicate 12 value

open Deflate StreamDecoder

/-- A fill starts a stream afresh between two rectangles that are given the start of one each; and
such a start, cut between its bytes. -/
theorem Streams.continuous_and_independent_restarted :
    letI := Deflate.format.decoder
    let scene : Scene := ⟨Canvas.make 4 1, Streams.fresh⟩
    let before := [ofTight (0x00 :: 19 :: storedTwelve 7), ofTight [0x81, 1, 2, 3]]
    let r := ofTight (0x00 :: 19 :: storedTwelve 9)
    (∃ mid t, renderAll before scene = (.ok (), mid) ∧
      renderAll (before ++ [r]) scene = (.ok (), t) ∧
      (r.intake.inflate mid.streams).1 = .ok (List.replicate 12 9)) ∧
    Eager Deflate.format ∧
    ∃ outs g g', inflateEach StreamDecoder.fresh [(storedTwelve 7).take 9, (storedTwelve 7).drop 9] =
        some (outs, g) ∧
      StreamDecoder.inflate StreamDecoder.fresh (storedTwelve 7) = (.ok outs.flatten, g') := by
  let decoder : StreamDecoder := Deflate.format.decoder
  intro scene before r
  obtain ⟨-, independent, -, continuous⟩ := Streams.continuous_and_independent
  have eager : Eager Deflate.format := Deflate.format.decoder_eager
  refine ⟨?_, eager, ?_⟩
  · have drawn : (renderAll (before ++ [r]) scene).1.toOption = some () := by decide +kernel
    have given : r.intake.given = some (.tight 0, storedTwelve 9) := by decide +kernel
    have output : (history (before ++ [r]) (.tight 0) (scene.streams.get (.tight 0))).output =
        some (List.replicate 12 9) := by decide +kernel
    obtain ⟨⟨e | ⟨⟩, t⟩, run⟩ : ∃ o, renderAll (before ++ [r]) scene = o := ⟨_, rfl⟩
    · rw [run] at drawn
      cases drawn
    · obtain ⟨mid, first, inflated⟩ := independent before r [] scene t run
      obtain ⟨out, eq, same⟩ := inflated _ _ given
      rw [output] at same
      cases same
      exact ⟨mid, t, first, run, eq⟩
  · have joined : (StreamDecoder.inflate StreamDecoder.fresh
        [(storedTwelve 7).take 9, (storedTwelve 7).drop 9].flatten).1.toOption =
        some (List.replicate 12 7) := by decide +kernel
    have whole : [(storedTwelve 7).take 9, (storedTwelve 7).drop 9].flatten = storedTwelve 7 := rfl
    obtain ⟨⟨e | out, g'⟩, run⟩ : ∃ o, StreamDecoder.inflate StreamDecoder.fresh
        [(storedTwelve 7).take 9, (storedTwelve 7).drop 9].flatten = o := ⟨_, rfl⟩
    · rw [run] at joined
      cases joined
    · obtain ⟨outs, g, each, rfl⟩ := (continuous _ eager [] [] _ rfl _ _).mp ⟨g', run⟩
      rw [whole] at run
      exact ⟨outs, g, g', each, run⟩

end RemoteFramebuffer
