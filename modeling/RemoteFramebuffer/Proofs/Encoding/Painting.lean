/-
# `RemoteFramebuffer.Proofs.Encoding.Painting` — what is drawn from which bytes

`p.Takes used a` says that a reader takes exactly `used` from whatever data begins with it and
gives `a`.  `Paints start before r used a after` says the same of a reader that draws, and what it
draws: on a canvas whose picture is `start` under the layer `before` it leaves `start` under
`after`.  Both judgements are closed under the operations that decoders are built with, so that
the bytes of a rectangle are put together as its decoder takes them apart:

    Takes p used a    and  Takes (f a) used' b     give  Takes (p >>= f) (used ++ used') b
    Paints of tile k from layer k to layer k + 1   give  Paints of the tiles from layer 0 to the last

`Extends` is about data of any kind: what is drawn from some data is drawn from more of it too.
-/
import RemoteFramebuffer.Encoding.Codec
import RemoteFramebuffer.Proofs.Canvas.Picture
import RemoteFramebuffer.Proofs.Encoding.Follows
import RemoteFramebuffer.Proofs.Pixel.Format

namespace RemoteFramebuffer

variable {α β ι : Type}

/-! ## Taking bytes -/

namespace Payload

/-- Takes exactly these bytes, whatever follows them. -/
def Takes (p : Payload α) (used : Bytes) (a : α) : Prop :=
  ∀ rest, p (used ++ rest) = .ok (a, rest)

theorem takes_pure (a : α) : Takes (pure a) [] a := fun _ => rfl

theorem takes_take {piece : Bytes} {n : Nat} (h : piece.length = n) : Takes (take n) piece piece :=
  fun _ => take_append h

theorem takes_word {piece : Bytes} {n : Nat} (h : piece.length = n) :
    Takes (word n) piece piece.toNat := fun _ => word_append h

theorem takes_number {width n : Nat} (small : n < Nat.pow 256 width) :
    Takes (word width) (Bytes.ofNat width n) n := by
  have takes := takes_word (Bytes.length_ofNat width n)
  rwa [Bytes.toNat_ofNat small] at takes

theorem takes_u32 {n : Nat} (small : n < 0x100000000) : Takes u32 (Bytes.ofNat 4 n) n :=
  takes_number small

theorem takes_u8 (b : UInt8) : Takes u8 [b] b := u8_cons b

theorem takes_guarded {g : Guarded α} {a : α} (h : g = .ok a) : Takes (guarded g) [] a := by
  subst h
  exact fun _ => rfl

namespace Takes

variable {p : Payload α} {used used' : Bytes} {a : α} {b : β}

theorem bind {f : α → Payload β} (hp : Takes p used a) (hf : Takes (f a) used' b) :
    Takes (p >>= f) (used ++ used') b := by
  intro rest
  show (p (used ++ used' ++ rest) >>= fun out => f out.1 out.2) = _
  rw [List.append_assoc, hp]
  exact hf rest

theorem bind_nil {f : α → Payload β} (hp : Takes p used a) (hf : Takes (f a) [] b) :
    Takes (p >>= f) used b := by
  have both := hp.bind hf
  rwa [List.append_nil] at both

theorem map (f : α → β) (hp : Takes p used a) : Takes (f <$> p) used (f a) := fun rest =>
  map_ok f (hp rest)

theorem values {item : Payload α} {l : List ι} {bytes : ι → Bytes} {value : ι → α}
    (h : ∀ i ∈ l, Takes item (bytes i) (value i)) :
    Takes (Payload.values item l.length) (l.flatMap bytes) (l.map value) := by
  have go : ∀ seen, Takes (valuesOnto item seen l.length) (l.flatMap bytes)
      (seen.reverse ++ l.map value) := by
    induction l with
    | nil =>
        intro seen
        rw [List.map_nil, List.append_nil]
        exact takes_pure _
    | cons i l ih =>
        intro seen
        have rest := ih (fun i mem => h i (List.mem_cons_of_mem _ mem)) (value i :: seen)
        rw [List.reverse_cons, List.append_assoc] at rest
        exact (h i List.mem_cons_self).bind rest
  exact go []

theorem mapM {f : ι → Payload α} {l : List ι} {bytes : ι → Bytes} {value : ι → α}
    (h : ∀ i ∈ l, Takes (f i) (bytes i) (value i)) :
    Takes (l.mapM f) (l.flatMap bytes) (l.map value) := by
  induction l with
  | nil => exact takes_pure _
  | cons i l ih =>
      rw [List.mapM_cons]
      refine (h i List.mem_cons_self).bind ?_
      exact (ih fun i mem => h i (List.mem_cons_of_mem _ mem)).bind_nil (takes_pure _)

end Takes

end Payload

theorem chunks_flatMap {size : Nat} (pos : 0 < size) {l : List ι} {piece : ι → Bytes}
    (sizes : ∀ i ∈ l, (piece i).length = size) : chunks size (l.flatMap piece) = l.map piece := by
  have cut : chunksOf size l.length (l.flatMap piece) = l.map piece := by
    induction l with
    | nil => rfl
    | cons i l ih =>
        obtain ⟨here, sizes⟩ := List.forall_mem_cons.mp sizes
        rw [List.flatMap_cons, List.length_cons, chunksOf, List.take_left' here,
          List.drop_left' here, ih sizes, List.map_cons]
  rw [chunks, Nat.max_eq_left pos, Bytes.length_flatMap_of_forall sizes, Nat.mul_div_cancel _ pos,
    cut]

theorem Style.unpack_flatMap {style : Style} (valid : style.format.validate = .ok ())
    (pixels : List style.format.Pixel) :
    style.unpack (pixels.flatMap PixelFormat.Pixel.bytes) =
      (pixels.map fun pixel => style.color pixel.bytes).toArray := by
  have pos : 0 < style.format.bytesPerPixel := by
    rcases PixelFormat.bytesPerPixel_of_validate valid with eq | eq | eq <;> omega
  rw [unpack, bytesPerPixel, chunks_flatMap pos fun pixel _ => pixel.length_bytes,
    List.map_map]
  rfl

/-! ## Painting from bytes -/

section

variable [StreamDecoder]

namespace Render

/-- Takes exactly these bytes, whatever follows them, and lays over the picture what `after` has
more than `before`. -/
def Paints (start : Raster) (before : Layer) (r : Render α) (used : Bytes) (a : α)
    (after : Layer) : Prop :=
  ∀ rest (c : Canvas) streams, c.Layered start before →
    ∃ c' : Canvas, r (used ++ rest) ⟨c, streams⟩ = (.ok (a, rest), ⟨c', streams⟩) ∧
      c'.Layered start after

variable {start : Raster} {before layer after : Layer}

theorem paints_pure (a : α) : Paints start layer (pure a) [] a layer := fun _ c _ h =>
  ⟨c, rfl, h⟩

theorem paints_read {p : Payload α} {used : Bytes} {a : α} (h : p.Takes used a) :
    Paints start layer (read p) used a layer := fun rest c streams layered =>
  ⟨c, congrArg (·, Scene.mk c streams) (h rest), layered⟩

theorem paints_guarded {g : Guarded α} {a : α} (h : g = .ok a) :
    Paints start layer (guarded g) [] a layer := by
  subst h
  exact fun _ c _ layered => ⟨c, rfl, layered⟩

theorem bind_of_ok {r : Render α} {data rest : Bytes} {scene after : Scene} {a : α}
    (h : r data scene = (.ok (a, rest), after)) (f : α → Render β) :
    (r >>= f) data scene = f a rest after := by
  show (ExceptT.bindCont (fun out => f out.1 out.2) (r data scene).1 : StateM Scene _)
    (r data scene).2 = _
  rw [h]
  rfl

theorem bind_of_error {r : Render α} {data : Bytes} {scene after : Scene} {e : DecodeError}
    (h : r data scene = (.error e, after)) (f : α → Render β) :
    (r >>= f) data scene = (.error e, after) := by
  show (ExceptT.bindCont (fun out => f out.1 out.2) (r data scene).1 : StateM Scene _)
    (r data scene).2 = _
  rw [h]
  rfl

theorem read_bind_of_takes {p : Payload α} {used : Bytes} {a : α} (h : p.Takes used a)
    (f : α → Render β) (rest : Bytes) (scene : Scene) :
    (read p >>= f) (used ++ rest) scene = f a rest scene :=
  bind_of_ok (congrArg (·, scene) (h rest)) f

theorem draw_of_ok {d : Draw α} {scene after : Scene} {a : α} (h : d scene = (.ok a, after))
    (data : Bytes) : draw d data scene = (.ok (a, data), after) := by
  show (ExceptT.bindCont (fun a => pure (a, data)) (d scene).1 : StateM Scene _) (d scene).2 = _
  rw [h]
  rfl

theorem whole_draw (d : Draw α) (data : Bytes) : (draw d).whole data = d := by
  funext scene
  rw [whole_eq]
  show (_ : Except DecodeError α × Scene) = _
  have cont : draw d data scene =
      (ExceptT.bindCont (fun a => pure (a, data)) (d scene).1 : StateM Scene _) (d scene).2 := rfl
  rw [cont]
  cases h : d scene with
  | mk result after => cases result <;> rfl

/-- A change of the canvas that touches what is there and succeeds. -/
theorem paints_paint {touch : Canvas → Guarded Unit}
    {change : Canvas → Except DrawError Unit × Canvas}
    (safe : ∀ {c : Canvas}, c.Tracked → Guarded.Safe (fun _ => True) (touch c))
    (h : ∀ {c : Canvas}, c.Layered start before →
      ∃ c', change c = (.ok (), c') ∧ c'.Layered start after) :
    Paints start before (draw (Draw.paint touch change)) [] () after := by
  intro rest c streams layered
  obtain ⟨_, touched, -⟩ := (safe layered.tracked).eq_ok
  obtain ⟨c', changed, layered'⟩ := h layered
  refine ⟨c', ?_, layered'⟩
  show (ExceptT.bindCont (fun a => pure (a, rest)) (Draw.paint touch change ⟨c, streams⟩).1 :
    StateM Scene _) (Draw.paint touch change ⟨c, streams⟩).2 = _
  simp only [Draw.paint, touched, changed]
  rfl

theorem paints_fill {rect : Rect} (held : start.holds rect = true) (color : Rgba) :
    Paints start layer (draw (Draw.fill rect color)) [] () (layer.paint rect fun _ _ => color) :=
  paints_paint (Canvas.safe_touchDraw · rect fun r => r.safe_touchFill rect) (·.fill held color)

theorem paints_image {rect : Rect} (held : start.holds rect = true) (color : Nat → Nat → Rgba) :
    Paints start layer (draw (Draw.image rect (Raster.valuesOf rect color).toArray)) [] ()
      (layer.paint rect color) :=
  paints_paint (Canvas.safe_touchDraw · rect fun r => r.safe_touchImage rect _ _)
    (·.image held color)

namespace Paints

variable {r : Render α} {used used' : Bytes} {a : α} {b : β}

theorem bind {f : α → Render β} (hr : Paints start before r used a layer)
    (hf : Paints start layer (f a) used' b after) :
    Paints start before (r >>= f) (used ++ used') b after := by
  intro rest c streams layered
  obtain ⟨c', first, layered'⟩ := hr (used' ++ rest) c streams layered
  obtain ⟨c'', second, layered''⟩ := hf rest c' streams layered'
  refine ⟨c'', ?_, layered''⟩
  show (ExceptT.bindCont (fun out => f out.1 out.2) (r (used ++ used' ++ rest) ⟨c, streams⟩).1 :
    StateM Scene _) (r (used ++ used' ++ rest) ⟨c, streams⟩).2 = _
  rw [List.append_assoc, first]
  exact second

theorem nil_bind {f : α → Render β} (hr : Paints start before r [] a layer)
    (hf : Paints start layer (f a) used b after) : Paints start before (r >>= f) used b after :=
  hr.bind hf

theorem bind_nil {f : α → Render β} (hr : Paints start before r used a layer)
    (hf : Paints start layer (f a) [] b after) : Paints start before (r >>= f) used b after := by
  have both := hr.bind hf
  rwa [List.append_nil] at both

theorem within (hr : Paints start before r used a after) (context : DecodeContext) :
    Paints start before (Render.within context r) used a after := by
  intro rest c streams layered
  obtain ⟨c', done, layered'⟩ := hr rest c streams layered
  refine ⟨c', ?_, layered'⟩
  show (((r (used ++ rest) ⟨c, streams⟩).1.mapError _, (r (used ++ rest) ⟨c, streams⟩).2) : _ × _) = _
  rw [done]
  rfl

end Paints

theorem draw_within (context : DecodeContext) (d : Draw α) :
    draw (Draw.within context d) = Render.within context (draw d) := by
  funext data scene
  have cont (d : Draw α) : draw d data scene =
      (ExceptT.bindCont (fun a => pure (a, data)) (d scene).1 : StateM Scene _) (d scene).2 := rfl
  show _ = (((draw d data scene).1.mapError _, (draw d data scene).2) : _ × _)
  rw [cont, cont, Draw.within]
  cases d scene with
  | mk result after => cases result <;> rfl

/-- **A walk over tiles.**  Before tile `k` the state is `state k` and the layer `layer k`; the
bytes of the walk are those of its tiles one after another. -/
theorem paints_foldTiles {σ : Type} {rect : Rect}
    (small : rect.width < 0x80000000 ∧ rect.height < 0x80000000) (side : Nat)
    {body : σ → Rect → Render σ} (state : Nat → σ) {data : Nat → Bytes} {layer : Nat → Layer}
    (h : ∀ k < rect.tileCount side side, Paints start (layer k)
      (body (state k) (rect.tileAt side side k)) (data k) (state (k + 1)) (layer (k + 1))) :
    Paints start (layer 0) (foldTiles rect side body (state 0))
      ((List.range (rect.tileCount side side)).flatMap data) (state (rect.tileCount side side))
      (layer (rect.tileCount side side)) := by
  have go (count index : Nat) (fits : index + count = rect.tileCount side side) :
      Paints start (layer index) (rect.foldTilesFrom side side
          (fun s tile => guarded (room rect tile) >>= fun _ => body s tile) count index (state index))
        ((List.range' index count).flatMap data) (state (index + count)) (layer (index + count)) := by
    induction count generalizing index with
    | zero => exact paints_pure _
    | succ count ih =>
        have inside : index < rect.tileCount side side := by omega
        obtain ⟨left, room, -⟩ := (safe_room small inside).eq_ok
        have tile : Paints start (layer index) (guarded (Render.room rect _) >>= fun _ =>
            body (state index) (rect.tileAt side side index)) (data index) (state (index + 1))
            (layer (index + 1)) :=
          (paints_guarded room).nil_bind (h index inside)
        have rest := ih (index + 1) (by omega)
        rw [Nat.add_assoc, Nat.add_comm 1 count] at rest
        rw [List.range'_succ, List.flatMap_cons]
        exact tile.bind rest
  have whole := go (rect.tileCount side side) 0 (by omega)
  rw [← List.range_eq_range', Nat.zero_add] at whole
  exact whole

end Render

/-- A rectangle is drawn as its payload is; an error says of which rectangle. -/
theorem Codec.render_eq {c : Codec} {style : Style} {area : Area} {scene after : Scene}
    {result : Except DecodeError (Unit × Bytes)}
    (h : renderPayload c.encoding style area c.payload scene = (result, after)) :
    c.render style area scene =
      ((result.map Prod.fst).mapError (DecodeError.within (.rendering c.encoding area)), after) := by
  rw [render, Draw.within, Render.whole_eq, h]

end

/-! ## More data -/

/-- What a reader makes of some data it makes of more, leaving what came in addition. -/
def Payload.Extends (p : Payload α) : Prop :=
  ∀ data rest a, p data = .ok (a, rest) → ∀ more, p (data ++ more) = .ok (a, rest ++ more)

namespace Payload

theorem extends_pure (a : α) : Extends (pure a) := by
  rintro data rest _ ⟨⟩ more
  rfl

theorem extends_fail (cause : DecodeCause) : Extends (fail cause : Payload α) := by
  rintro data rest a ⟨⟩

theorem extends_guarded (g : Guarded α) : Extends (guarded g) := by
  intro data rest a h more
  cases g with
  | error fault => cases h
  | ok a =>
      cases h
      rfl

theorem extends_take (n : Nat) : Extends (take n) := by
  intro data rest piece h more
  dsimp only [take] at h
  split at h
  · cases h
  · rename_i enough
    rw [List.length_take] at enough
    cases h
    have length : (data.take n).length = n := List.length_take_of_le (by omega)
    have whole : take n (data.take n ++ (data.drop n ++ more)) = _ := take_append length
    rwa [← List.append_assoc, List.take_append_drop] at whole

namespace Extends

variable {p : Payload α}

theorem bind {f : α → Payload β} (hp : Extends p) (hf : ∀ a, Extends (f a)) :
    Extends (p >>= f) := by
  intro data rest b h more
  cases first : p data with
  | error e =>
      have fails : (p >>= f) data = .error e := by
        show (p data >>= fun out => f out.1 out.2) = _
        rw [first]
        rfl
      rw [fails] at h
      cases h
  | ok out =>
      have goes : (p >>= f) data = f out.1 out.2 := by
        show (p data >>= fun out => f out.1 out.2) = _
        rw [first]
        rfl
      rw [goes] at h
      show (p (data ++ more) >>= fun out => f out.1 out.2) = _
      rw [hp _ _ _ first more]
      exact hf out.1 _ _ _ h more

theorem map (f : α → β) (hp : Extends p) : Extends (f <$> p) := hp.bind fun a => extends_pure (f a)

theorem values (hp : Extends p) (count : Nat) : Extends (Payload.values p count) := by
  have go : ∀ seen, Extends (valuesOnto p seen count) := by
    induction count with
    | zero => exact fun seen => extends_pure _
    | succ count ih => exact fun seen => hp.bind fun a => ih (a :: seen)
  exact go []

theorem mapM {f : ι → Payload α} (hf : ∀ i, Extends (f i)) (l : List ι) : Extends (l.mapM f) := by
  induction l with
  | nil => exact extends_pure _
  | cons i l ih =>
      rw [List.mapM_cons]
      exact (hf i).bind fun a => ih.bind fun as => extends_pure _

end Extends

theorem extends_word (n : Nat) : Extends (word n) :=
  (extends_take n).bind fun _ => (extends_guarded _).bind fun _ => extends_pure _

theorem extends_u8 : Extends u8 := (extends_word 1).map _

end Payload

namespace Render

variable [StreamDecoder]

/-- The same of a reader that draws: it draws no different. -/
def Extends (r : Render α) : Prop :=
  ∀ data rest a scene after, r data scene = (.ok (a, rest), after) → ∀ more,
    r (data ++ more) scene = (.ok (a, rest ++ more), after)

theorem extends_pure (a : α) : Extends (pure a : Render α) := by
  rintro data rest _ scene after ⟨⟩ more
  rfl

theorem extends_read {p : Payload α} (h : p.Extends) : Extends (read p) := by
  intro data rest a scene after eq more
  have first : p data = .ok (a, rest) := congrArg Prod.fst eq
  have same : scene = after := congrArg Prod.snd eq
  subst same
  exact congrArg (·, scene) (h _ _ _ first more)

theorem extends_draw (d : Draw α) : Extends (draw d) := by
  intro data rest a scene after eq more
  have cont (data : Bytes) : draw d data scene =
      (ExceptT.bindCont (fun a => pure (a, data)) (d scene).1 : StateM Scene _) (d scene).2 := rfl
  rw [cont] at eq ⊢
  cases h : (d scene).1 with
  | error e =>
      rw [h] at eq
      cases eq
  | ok b =>
      rw [h] at eq
      cases eq
      rfl

namespace Extends

variable {r : Render α}

theorem bind {f : α → Render β} (hr : Extends r) (hf : ∀ a, Extends (f a)) : Extends (r >>= f) := by
  intro data rest b scene after eq more
  have cont (data : Bytes) : (r >>= f) data scene = (ExceptT.bindCont (fun out => f out.1 out.2)
      (r data scene).1 : StateM Scene _) (r data scene).2 := rfl
  rw [cont] at eq ⊢
  cases first : r data scene with
  | mk result mid =>
      rw [first] at eq
      cases result with
      | error e => cases eq
      | ok out =>
          rw [hr _ _ _ _ _ first more]
          exact hf out.1 _ _ _ _ _ eq more

theorem within (hr : Extends r) (context : DecodeContext) : Extends (Render.within context r) := by
  intro data rest a scene after eq more
  have cont (data : Bytes) : Render.within context r data scene =
      ((r data scene).1.mapError (DecodeError.within context), (r data scene).2) := rfl
  rw [cont] at eq ⊢
  cases first : r data scene with
  | mk result mid =>
      rw [first] at eq
      cases result with
      | error e => cases eq
      | ok out =>
          cases eq
          rw [hr _ _ _ _ _ first more]
          rfl

theorem foldTiles {σ : Type} {body : σ → Rect → Render σ} (h : ∀ s tile, Extends (body s tile))
    (rect : Rect) (side : Nat) (s : σ) : Extends (Render.foldTiles rect side body s) :=
  Rect.foldTiles_of_closed extends_pure Extends.bind
    (fun s _ _ => (extends_draw _).bind fun _ => h s _) s

end Extends

end Render

end RemoteFramebuffer
