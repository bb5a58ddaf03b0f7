/-
# `RemoteFramebuffer.Proofs.Encoding.Follows` — drawing goes where capturing went

The data of a rectangle is read twice and in two ways: once from the stream, to find its end,
and once from the bytes captured, to draw it.  `Follows capture P Q render` ties the two
together.  Over data that `capture` gets through, `render` leaves the same bytes behind, with a
result that `Q` allows beside the captured one, unless it ends in an error with `P`.

The judgement is closed under the operations that both sides are built with.  A run that the
capture passes over whole is cut where the drawing reads it in parts (`skip_bind`, `follows_loop`),
and steps that read nothing stand on one side alone (`bind_draw`, `bind_after`).
-/
import RemoteFramebuffer.Encoding.Payload
import RemoteFramebuffer.Proofs.Encoding.Drawing
import RemoteFramebuffer.Proofs.Wire.Reader

namespace RemoteFramebuffer

variable {α β γ δ : Type} {P : DecodeError → Prop}

/-! ## Reading without drawing -/

namespace Payload

theorem take_append {n : Nat} {piece rest : Bytes} (h : piece.length = n) :
    take n (piece ++ rest) = .ok (piece, rest) := by
  dsimp only [take]
  rw [List.take_left' h, List.drop_left' h, if_neg (by omega)]

theorem word_append {n : Nat} {piece rest : Bytes} (h : piece.length = n) :
    word n (piece ++ rest) = .ok (piece.toNat, rest) := by
  obtain ⟨all, eq, rfl⟩ := (Guarded.safe_first (Nat.le_of_eq h.symm)).eq_ok
  show (take n (piece ++ rest) >>= fun out => _) = _
  rw [take_append h]
  show (guarded (Guarded.first n piece) >>= fun all => pure all.toNat) rest = _
  rw [eq, ← h, List.take_length]
  rfl

theorem map_ok {p : Payload α} {data rest : Bytes} {a : α} (f : α → β)
    (h : p data = .ok (a, rest)) : (f <$> p) data = .ok (f a, rest) := by
  show (p data >>= fun out => pure (f out.1, out.2)) = _
  rw [h]
  rfl

theorem u8_cons (b : UInt8) (rest : Bytes) : u8 (b :: rest) = .ok (b, rest) := by
  have one : word 1 ([b] ++ rest) = .ok (Bytes.toNat [b], rest) := word_append rfl
  rw [u8, show b :: rest = [b] ++ rest from rfl, map_ok _ one]
  simp [Bytes.toNat]

end Payload

variable [StreamDecoder]

namespace Render

theorem read_pure (a : α) : read (pure a) = pure a := rfl

theorem read_guarded (g : Guarded α) : read (Payload.guarded g) = guarded g := by
  funext data scene
  show (Payload.guarded g data, scene) =
    (Draw.guarded g >>= fun a => pure (a, data) : Draw (α × Bytes)) scene
  cases g <;> rfl

theorem read_bind (p : Payload α) (f : α → Payload β) :
    read (p >>= f) = read p >>= fun a => read (f a) := by
  funext data scene
  show ((p data >>= fun out => f out.1 out.2), scene) =
    (ExceptT.bindCont (fun out => read (f out.1) out.2) (p data) : StateM Scene _) scene
  cases p data <;> rfl

theorem read_map (f : α → β) (p : Payload α) : read (f <$> p) = f <$> read p := by
  funext data scene
  show ((p data >>= fun out => pure (f out.1, out.2)), scene) =
    (ExceptT.bindCont (fun out => pure (f out.1, out.2)) (p data) : StateM Scene _) scene
  cases p data <;> rfl

theorem sat_draw {d : Draw α} {Q : α → Prop} (h : d.Sat P Q) (data : Bytes) :
    Draw.Sat P (fun out => out.2 = data ∧ Q out.1) (draw d data) :=
  h.bind fun _ ha => Draw.sat_pure ⟨rfl, ha⟩

theorem sat_drawOnly {d : Draw Unit} (h : d.Sat P fun _ => True) (data : Bytes) :
    Draw.Sat P (fun _ => True) (draw d data) :=
  (sat_draw h data).mono (fun _ => id) fun _ _ => trivial

theorem sat_get {f : Bytes → Render α} {data : Bytes} {Q : α × Bytes → Prop}
    (h : Draw.Sat P Q (f data data)) : Draw.Sat P Q ((get >>= f) data) := h

theorem whole_eq (r : Render α) (data : Bytes) (scene : Scene) :
    r.whole data scene = ((r data scene).1.map Prod.fst, (r data scene).2) := by
  show (ExceptT.bindCont (fun out => pure out.1) (r data scene).1 : StateM Scene _)
    (r data scene).2 = _
  cases (r data scene).1 <;> rfl

theorem sat_whole {r : Render α} {data : Bytes} {Q : α → Prop}
    (h : Draw.Sat P (fun out => Q out.1) (r data)) : Draw.Sat P Q (r.whole data) :=
  h.bind fun _ ha => Draw.sat_pure ha

/-! ## Drawing that follows a capture -/

/-- Over data that the capture gets through, leaves what the capture leaves, with results
related by `Q`, or ends in an error with `P`. -/
def Follows (c : Capture α) (P : DecodeError → Prop) (Q : α → β → Prop) (r : Render β) : Prop :=
  ∀ data rest a, c.run data = (.ok a, rest) →
    Draw.Sat P (fun out => out.2 = rest ∧ Q a out.1) (r data)

variable {Q : α → β → Prop} {R : γ → δ → Prop} {c : Capture α} {f : α → Capture γ}
  {r : Render β} {g : β → Render δ}

theorem follows_draw {a : α} {d : Draw β} (h : d.Sat P (Q a)) :
    Follows (pure a) P Q (draw d) := by
  rintro data rest _ run
  cases run
  exact sat_draw h data

theorem follows_pure {a : α} {b : β} (h : Q a b) : Follows (pure a) P Q (pure b) := by
  rintro data rest _ run
  cases run
  exact Draw.sat_pure ⟨rfl, h⟩

theorem follows_captureFail {cause : DecodeCause} {Q : Unit → β → Prop} :
    Follows (Capture.fail cause) P Q r := by
  rintro data rest a ⟨⟩

theorem follows_fail {cause : DecodeCause} (h : P (DecodeError.of cause)) :
    Follows c P Q (draw (Draw.fail cause)) := by
  intro data rest a _
  have never : Draw.Sat P (fun _ => False) (Draw.fail cause : Draw β) := Draw.sat_fail h
  exact (sat_draw never data).mono (fun _ => id) fun _ out => out.2.elim

namespace Follows

theorem mono {P' : DecodeError → Prop} {Q' : α → β → Prop} (h : Follows c P Q r)
    (hP : ∀ e, P e → P' e) (hQ : ∀ a b, Q a b → Q' a b) : Follows c P' Q' r :=
  fun data rest a run => (h data rest a run).mono hP fun _ out => ⟨out.1, hQ _ _ out.2⟩

theorem of_run {c' : Capture α} (h : Follows c' P Q r)
    (le : ∀ {data rest a}, c.run data = (.ok a, rest) → c'.run data = (.ok a, rest)) :
    Follows c P Q r := fun data rest a run => h data rest a (le run)

theorem bind (hr : Follows c P Q r) (hg : ∀ a b, Q a b → Follows (f a) P R (g b)) :
    Follows (c >>= f) P R (r >>= g) := by
  intro data rest out run
  obtain ⟨a, mid, first, second⟩ := Reader.run_bind_ok.mp run
  refine Draw.Sat.bind (hr _ _ _ first) ?_
  rintro ⟨b, left⟩ ⟨rfl, hb⟩
  exact hg a b hb _ _ _ second

theorem bind_draw {S : β → Prop} {d : Draw β} {c : Capture γ} (hd : d.Sat P S)
    (hg : ∀ b, S b → Follows c P R (g b)) : Follows c P R (draw d >>= g) := by
  intro data rest out run
  refine Draw.Sat.bind (sat_draw hd data) ?_
  rintro ⟨b, left⟩ ⟨rfl, hb⟩
  exact hg b hb _ _ _ run

theorem bind_after {R : α → δ → Prop} (hr : Follows c P Q r)
    (hg : ∀ a b, Q a b → Follows (Pure.pure a) P R (g b)) : Follows c P R (r >>= g) :=
  of_run (hr.bind hg) fun run => Reader.run_bind_ok.mpr ⟨_, _, run, rfl⟩

theorem map {R : α → δ → Prop} {g : β → δ} (hr : Follows c P Q r)
    (hg : ∀ a b, Q a b → R a (g b)) : Follows c P R (g <$> r) :=
  hr.bind_after fun a b h => follows_pure (hg a b h)

end Follows

/-! ## Runs of bytes and words -/

omit [StreamDecoder] in
theorem run_skip_ok {n : Nat} {data rest : Bytes} {a : Unit} :
    (Capture.skip n).run data = (.ok a, rest) ↔
      ∃ piece : Bytes, piece.length = n ∧ data = piece ++ rest := by
  simp only [Capture.skip, Reader.run_map_ok, Reader.run_mapError_ok, Reader.run_pieces_ok]
  constructor
  · rintro ⟨_, ⟨le, rfl, rfl⟩, -⟩
    exact ⟨_, List.length_take_of_le le, (List.take_append_drop n data).symm⟩
  · rintro ⟨piece, rfl, rfl⟩
    exact ⟨_, ⟨by simp, rfl, List.drop_left.symm⟩, trivial⟩

omit [StreamDecoder] in
theorem run_skip_add {m n : Nat} {data rest : Bytes} {a : Unit}
    (run : (Capture.skip (m + n)).run data = (.ok a, rest)) :
    (Capture.skip m >>= fun _ => Capture.skip n).run data = (.ok a, rest) := by
  obtain ⟨piece, length, rfl⟩ := run_skip_ok.mp run
  refine Reader.run_bind_ok.mpr ⟨(), piece.drop m ++ rest, run_skip_ok.mpr ?_, run_skip_ok.mpr ?_⟩
  · exact ⟨piece.take m, by simp [length], by rw [← List.append_assoc, List.take_append_drop]⟩
  · exact ⟨piece.drop m, by simp [length], rfl⟩

theorem Follows.skip_bind {m n : Nat} {Q : Unit → β → Prop} {R : Unit → δ → Prop}
    (hr : Follows (Capture.skip m) P Q r) (hg : ∀ b, Q () b → Follows (Capture.skip n) P R (g b)) :
    Follows (Capture.skip (m + n)) P R (r >>= g) :=
  (hr.bind fun _ => hg).of_run run_skip_add

theorem Follows.of_skip_zero {Q : Unit → β → Prop} (h : Follows (pure ()) P Q r) :
    Follows (Capture.skip 0) P Q r :=
  h.of_run fun {data rest a} run => by
    obtain ⟨piece, length, rfl⟩ := run_skip_ok.mp run
    rw [List.length_eq_zero_iff.mp length]
    rfl

theorem follows_loop {size : Nat} {item : Nat → Render Unit} {loop : Nat → Nat → Render Unit}
    (stop : ∀ index, loop 0 index = pure ())
    (next : ∀ left index, loop (left + 1) index = item index >>= fun _ => loop left (index + 1))
    (h : ∀ index, Follows (Capture.skip size) P (fun _ _ => True) (item index)) (left : Nat) :
    ∀ index, Follows (Capture.skip (left * size)) P (fun _ _ => True) (loop left index) := by
  induction left with
  | zero =>
      intro index
      rw [stop, Nat.zero_mul]
      exact .of_skip_zero (follows_pure trivial)
  | succ left ih =>
      intro index
      rw [next, Nat.succ_mul, Nat.add_comm]
      exact .skip_bind (h index) fun _ _ => ih (index + 1)

theorem follows_read {Q : α → β → Prop} {p : Payload β}
    (h : ∀ data rest a, c.run data = (.ok a, rest) → ∃ b, p data = .ok (b, rest) ∧ Q a b) :
    Follows c P Q (read p) := by
  intro data rest a run
  obtain ⟨b, eq, hb⟩ := h data rest a run
  show Draw.Sat P _ (Draw.ofExcept (p data))
  rw [eq]
  exact Draw.sat_ofExcept ⟨rfl, hb⟩

theorem follows_take (n : Nat) :
    Follows (Capture.skip n) P (fun _ piece => piece.length = n) (read (Payload.take n)) :=
  follows_read fun _ _ _ run => by
    obtain ⟨piece, length, rfl⟩ := run_skip_ok.mp run
    exact ⟨piece, Payload.take_append length, length⟩

theorem follows_word (n : Nat) :
    Follows (Capture.skip n) P (fun _ _ => True) (read (Payload.word n)) :=
  follows_read fun _ _ _ run => by
    obtain ⟨piece, length, rfl⟩ := run_skip_ok.mp run
    exact ⟨_, Payload.word_append length, trivial⟩

theorem follows_values {Q : Unit → β → Prop} {item : Payload β} {size : Nat}
    (h : Follows (Capture.skip size) P Q (read item)) (count : Nat) :
    Follows (Capture.skip (count * size)) P (fun _ items => items.length = count)
      (read (Payload.values item count)) := by
  have go (count : Nat) : ∀ seen, Follows (Capture.skip (count * size)) P
      (fun _ items => items.length = seen.length + count)
      (read (Payload.valuesOnto item seen count)) := by
    induction count with
    | zero =>
        intro seen
        rw [Nat.zero_mul]
        exact .of_skip_zero (follows_pure List.length_reverse)
    | succ count ih =>
        intro seen
        rw [Nat.succ_mul, Nat.add_comm, Payload.valuesOnto, read_bind]
        refine .skip_bind h fun b _ => (ih (b :: seen)).mono (fun _ => id) fun _ items length => ?_
        rw [length, List.length_cons]
        omega
  exact (go count []).mono (fun _ => id) fun _ items length => by simpa using length

theorem follows_skip_u8 : Follows (Capture.skip 1) P (fun _ _ => True) (read Payload.u8) := by
  rw [Payload.u8, read_map]
  exact (follows_word 1).map fun _ _ _ => trivial

theorem follows_u8 : Follows Capture.u8 P (fun b b' => b' = b) (read Payload.u8) :=
  follows_read fun _ _ b run => by
    rw [Capture.u8, Reader.run_mapError_ok, Reader.run_u8_ok] at run
    exact ⟨b, run ▸ Payload.u8_cons b _, rfl⟩

theorem follows_u16 : Follows Capture.u16 P (fun w n => n = w.toNat) (read Payload.u16) :=
  follows_read fun _ _ w run => by
    rw [Capture.u16, Reader.run_mapError_ok, Reader.run_u16_ok] at run
    subst run
    exact ⟨_, Payload.word_append (Bytes.length_ofNat 2 _), Bytes.toNat_ofUInt16 w⟩

theorem follows_u32 : Follows Capture.u32 P (fun w n => n = w.toNat) (read Payload.u32) :=
  follows_read fun _ _ w run => by
    rw [Capture.u32, Reader.run_mapError_ok, Reader.run_u32_ok] at run
    subst run
    exact ⟨_, Payload.word_append (Bytes.length_ofNat 4 _), Bytes.toNat_ofUInt32 w⟩

theorem follows_i32 : Follows Capture.i32 P (fun _ _ => True) (read Payload.u32) :=
  follows_read fun _ _ w run => by
    rw [Capture.i32, Reader.run_mapError_ok, Reader.run_i32_ok] at run
    subst run
    exact ⟨_, Payload.word_append (Bytes.length_ofNat 4 _), trivial⟩

/-! ## Tiles -/

omit [StreamDecoder] in
theorem safe_room {rect : Rect} {side index : Nat}
    (small : rect.width < 0x80000000 ∧ rect.height < 0x80000000)
    (h : index < rect.tileCount side side) :
    Guarded.Safe (fun _ => True) (room rect (rect.tileAt side side index)) := by
  obtain ⟨right, below⟩ := Rect.tileAt_start_lt small h
  refine Outcome.bind (Guarded.safe_sub (Nat.le_of_lt right)) fun _ _ => ?_
  exact Outcome.bind (Guarded.safe_sub (Nat.le_of_lt below)) fun _ _ => .pure trivial

theorem sat_room {rect : Rect} {side index : Nat}
    (small : rect.width < 0x80000000 ∧ rect.height < 0x80000000)
    (h : index < rect.tileCount side side) :
    Draw.Sat P (fun _ => True) (Draw.guarded (room rect (rect.tileAt side side index))) :=
  Draw.sat_guarded (safe_room small h)

/-- A walk over tiles follows a walk over the same tiles that follows it on each of them. -/
theorem follows_foldTiles {σ : Type} {rect : Rect}
    (small : rect.width < 0x80000000 ∧ rect.height < 0x80000000) (side : Nat) {step : Rect → Capture Unit}
    {body : σ → Rect → Render σ}
    (h : ∀ s tile, Follows (step tile) P (fun _ _ => True) (body s tile)) (s : σ) :
    Follows (rect.foldTiles side side (fun _ => step) ()) P (fun _ _ => True)
      (foldTiles rect side body s) := by
  -- The induction is on the tiles that are left; their indices say that each starts in `rect`.
  have go (count index : Nat) (fits : index + count ≤ rect.tileCount side side) : ∀ s,
      Follows (rect.foldTilesFrom side side (fun _ => step) count index ()) P (fun _ _ => True)
        (rect.foldTilesFrom side side
          (fun s tile => guarded (room rect tile) >>= fun _ => body s tile) count index s) := by
    induction count generalizing index with
    | zero => exact fun s => follows_pure trivial
    | succ count ih =>
        intro s
        refine Follows.bind (.bind_draw (sat_room small (by omega)) fun _ _ => h s _) ?_
        exact fun _ s _ => ih (index + 1) (by omega) s
  exact go _ 0 (by omega) s

theorem sat_foldTiles {σ : Type} {rect : Rect}
    (small : rect.width < 0x80000000 ∧ rect.height < 0x80000000) (side : Nat)
    {body : σ → Rect → Render σ}
    (h : ∀ s tile data, Draw.Sat P (fun _ => True) (body s tile data)) (s : σ) (data : Bytes) :
    Draw.Sat P (fun _ => True) (foldTiles rect side body s data) := by
  refine Rect.foldTiles_of_closed
    (P := fun (r : Render σ) => ∀ data, Draw.Sat P (fun _ => True) (r data))
    (fun _ _ => Draw.sat_pure trivial) (fun first more data => ?_) (fun s index inside data => ?_)
    s data
  · exact (first data).bind fun out _ => more out.1 out.2
  · exact (sat_draw (sat_room small inside) data).bind fun out _ => h s _ out.2

end Render

end RemoteFramebuffer
