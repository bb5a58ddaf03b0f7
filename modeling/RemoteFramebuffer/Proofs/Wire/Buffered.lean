/-
# `RemoteFramebuffer.Proofs.Wire.Buffered` — buffering is invisible

## What is proved

Of every list of requests, all chunks that a source comes in and every capacity of the buffer, 0 with
them (`buffering_invisible`):

    the answers over the buffer             are those over a plain list of the same bytes, errors and
                                            their texts included
    what can still be read afterwards       is what is left of the list

A request that fails is followed by the others, so that what a failure leaves behind is told as well.

## How it is proved

However a source cuts its bytes into chunks and however large the buffer is, a reader over
`Buffered` gives what it gives over the plain bytes, errors included, and leaves the same bytes:

    r.runBuffered b   =   r.run b.rest              (`runBuffered_eq`)

The bytes that can still be read, `Buffered.rest`, carry the argument: drawing a chunk and making
space leave them alone, and a piece is missed only when they do not hold it.

A stream is asked for words and for runs of bytes, one `Request` after another, also after one that
failed.  `Request.overBytes` says what a plain list of bytes answers, without the readers.
-/
import RemoteFramebuffer.Proofs.Wire.Reader
import RemoteFramebuffer.Wire.Transport

namespace RemoteFramebuffer

namespace Buffered

/-! ## The bytes that can still be read -/

@[simp] theorem rest_ofChunks (chunks : List Bytes) (capacity : Nat) :
    (ofChunks chunks capacity).rest = chunks.flatten := by
  show [] ++ (chunks.filter (!·.isEmpty)).flatten = chunks.flatten
  rw [List.nil_append, List.flatten_filter_not_isEmpty]

theorem rest_draw (b : Buffered) : b.draw.rest = b.rest := by
  unfold draw
  split
  · rfl
  · rename_i chunk source chunks
    have cut : chunk.take b.room ++ chunk.drop b.room = chunk := List.take_append_drop _ _
    simp only [rest, chunks, List.flatten_cons]
    split
    · rename_i none
      rw [List.isEmpty_iff.mp none, List.append_nil] at cut
      rw [cut, List.append_assoc]
    · rw [List.flatten_cons, List.append_assoc, ← List.append_assoc (chunk.take _), cut]

theorem rest_fill (count : Nat) (b : Buffered) : (b.fill count).rest = b.rest := by
  induction b using fill.induct count with
  | case1 b few ended => rw [fill, if_pos few, dif_pos ended]
  | case2 b few going ih => rw [fill, if_pos few, dif_neg going, ih, rest_draw]
  | case3 b enough => rw [fill, if_neg enough]

/-- Filling stops short of what was asked for only at the end of the source. -/
theorem source_fill {count : Nat} {b : Buffered} (few : (b.fill count).buffer.length < count) :
    (b.fill count).source = [] := by
  induction b using fill.induct count with
  | case1 b few' ended => rwa [fill, if_pos few', dif_pos ended]
  | case2 b few' going ih =>
      rw [fill, if_pos few', dif_neg going] at few ⊢
      exact ih few
  | case3 b enough =>
      rw [fill, if_neg enough] at few
      exact absurd few enough

/-- What is buffered for a piece: all that is left, or at least the piece. -/
theorem buffer_fill (count : Nat) (b : Buffered) :
    (b.fill count).buffer = b.rest ∨ count ≤ (b.fill count).buffer.length := by
  refine (Nat.lt_or_ge _ count).imp (fun few => ?_) id
  rw [← rest_fill count b, rest, source_fill few, List.flatten_nil, List.append_nil]

theorem rest_consume {count : Nat} {b : Buffered} (enough : count ≤ b.buffer.length) :
    (b.consume count).rest = b.rest.drop count :=
  (List.drop_append_of_le_length enough).symm

end Buffered

namespace Reader

variable {ε α : Type}

/-- **A reader cannot tell a buffered stream from its bytes.** -/
theorem runBuffered_eq (r : Reader ε α) (b : Buffered) :
    Prod.map id Buffered.rest (r.runBuffered b) = r.run b.rest := by
  induction r generalizing b with
  | done result => rfl
  | take count short next ih =>
      have filled : ((b.reserve count).fill count).rest = b.rest := Buffered.rest_fill count _
      have buffered : ((b.reserve count).fill count).buffer = b.rest ∨
          count ≤ ((b.reserve count).fill count).buffer.length :=
        Buffered.buffer_fill count (b.reserve count)
      rw [runBuffered, ← filled]
      generalize (b.reserve count).fill count = c at filled buffered
      by_cases enough : count ≤ c.buffer.length
      · have piece : c.rest.take count = c.buffer.take count :=
          List.take_append_of_le_length enough
        have all : count ≤ c.rest.length := by
          rw [Buffered.rest, List.length_append]
          omega
        rw [run_take_of_le all, piece, ← Buffered.rest_consume enough]
        simp only [List.length_take_of_le enough, Nat.lt_irrefl, if_false]
        exact ih _ _
      · have whole : c.buffer = c.rest := by
          rw [filled]
          exact buffered.resolve_right enough
        rw [run_take_of_lt (by rw [← whole]; omega)]
        simp only [show (c.buffer.take count).length < count by rw [List.length_take]; omega,
          if_true, ← whole]
        exact congrArg (Prod.mk _) whole.symm

end Reader

namespace Stream

/-! ## Requests -/

inductive Word
  | u8
  | u16
  | i16
  | u32
  | i32
  | i64
deriving DecidableEq, Repr

inductive Request
  | word (kind : Word)
  | bytes (count : Nat)
  | vec (count : Nat)
  | vecLimited (count limit : Nat)
  | skip (count : Nat)
deriving DecidableEq, Repr

inductive Answer
  | number (n : Int)
  | bytes (all : Bytes)
  | skipped
deriving DecidableEq, Repr

abbrev Failure := WireError.Kind × String

/-- The answers to some requests, one after another, whether they fail or not. -/
def serve {σ : Type} (answer : Request → σ → Except Failure Answer × σ) :
    List Request → σ → List (Except Failure Answer) × σ
  | [], s => ([], s)
  | request :: requests, s =>
    let (first, s) := answer request s
    let (others, s) := serve answer requests s
    (first :: others, s)

/-! ## Answers of a stream -/

def Word.reader : Word → Reader WireError Int
  | .u8 => (fun w => w.toNat) <$> Reader.u8
  | .u16 => (fun w => w.toNat) <$> Reader.u16
  | .i16 => Int16.toInt <$> Reader.i16
  | .u32 => (fun w => w.toNat) <$> Reader.u32
  | .i32 => Int32.toInt <$> Reader.i32
  | .i64 => Int64.toInt <$> Reader.i64

namespace Request

def reader : Request → Reader WireError Answer
  | .word kind => .number <$> kind.reader
  | .bytes count => .bytes <$> Reader.bytes count
  | .vec count => .bytes <$> Reader.vec count
  | .vecLimited count limit => .bytes <$> Reader.vecLimited count limit
  | .skip count => (fun _ => .skipped) <$> Reader.skip count

/-- What a stream that arrives in chunks answers. -/
def overBuffer (request : Request) (b : Buffered) : Except Failure Answer × Buffered :=
  let (result, b) := request.reader.runBuffered b
  (result.mapError fun e => (e.kind, e.message), b)

end Request

/-! ## Answers of a plain list -/

namespace Plain

def missed (count got : Nat) : Failure := (.unexpectedEof, s!"expected {count} bytes, got {got}")

def piece (count : Nat) (input : Bytes) : Except Failure Bytes × Bytes :=
  if count ≤ input.length then (.ok (input.take count), input.drop count)
  else (.error (missed count input.length), input)

/-- A long run.  If it is not all there, the whole pieces that are there are gone and the next one
is missed. -/
def run (count : Nat) (input : Bytes) : Except Failure Bytes × Bytes :=
  if count ≤ input.length then (.ok (input.take count), input.drop count)
  else
    let gone := input.length / 65536 * 65536
    (.error (missed (min 65536 (count - gone)) (input.length - gone)), input.drop gone)

/-- The number that a word's bytes spell, most significant first. -/
def value (kind : Word) (piece : Bytes) : Int :=
  match kind with
  | .u8 | .u16 | .u32 => piece.toNat
  | .i16 => Int.bmod piece.toNat 0x10000
  | .i32 => Int.bmod piece.toNat 0x100000000
  | .i64 => Int.bmod piece.toNat 0x10000000000000000

def width : Word → Nat
  | .u8 => 1
  | .u16 | .i16 => 2
  | .u32 | .i32 => 4
  | .i64 => 8

end Plain

def Request.overBytes (request : Request) (input : Bytes) : Except Failure Answer × Bytes :=
  match request with
  | .word kind => (Plain.piece (Plain.width kind) input).map
      (Except.map fun piece => .number (Plain.value kind piece)) id
  | .bytes count => (Plain.piece count input).map (Except.map .bytes) id
  | .vec count => (Plain.run count input).map (Except.map .bytes) id
  | .vecLimited count limit =>
    if limit < count then
      (.error (.invalidData, s!"length {count} exceeds limit of {limit} bytes"), input)
    else (Plain.run count input).map (Except.map .bytes) id
  | .skip count => (Plain.run count input).map (Except.map fun _ => .skipped) id

/-! ## The answers are the same -/

/-- A result over a plain list, its error by kind and text. -/
def told {α : Type} (result : Except WireError α × Bytes) : Except Failure α × Bytes :=
  (result.1.mapError fun e => (e.kind, e.message), result.2)

section

variable {α β : Type} {input : Bytes}

theorem told_map (f : α → β) (r : Reader WireError α) :
    told ((f <$> r).run input) = (told (r.run input)).map (Except.map f) id := by
  rw [Reader.run_map]
  rcases r.run input with ⟨_ | _, rest⟩ <;> rfl

theorem told_bytes (count : Nat) : told ((Reader.bytes count).run input) = Plain.piece count input := by
  unfold Plain.piece
  split
  · rename_i enough
    rw [Reader.run_bytes_of_le enough]
    rfl
  · rename_i few
    rw [Reader.bytes, Reader.run_take_of_lt (Nat.lt_of_not_le few)]
    rfl

/-- A run that is not all there is missed at the first piece that is not. -/
theorem run_piecesOnto_short {size last whole : Nat} {seen : List Bytes} {input : Bytes}
    (small : last < size) (few : input.length < size * whole + last) :
    (Reader.piecesOnto size last seen whole).run input =
      (.error (.endOfStream (min size (size * whole + last - input.length / size * size))
        (input.length - input.length / size * size)), input.drop (input.length / size * size)) := by
  induction whole generalizing seen input with
  | zero =>
      rw [Nat.mul_zero, Nat.zero_add] at few
      have none : input.length / size = 0 := Nat.div_eq_of_lt (by omega)
      have missed : (Reader.bytes last).run input = (.error (.endOfStream last input.length), input) :=
        Reader.run_take_of_lt few
      rw [Reader.piecesOnto, Reader.run_map, missed, none, Nat.zero_mul, Nat.mul_zero, Nat.zero_add,
        Nat.sub_zero, Nat.sub_zero, Nat.min_eq_right (Nat.le_of_lt small)]
      rfl
  | succ whole ih =>
      rw [Reader.piecesOnto, Reader.run_bind]
      by_cases enough : size ≤ input.length
      · have fewer : (input.drop size).length < size * whole + last := by
          rw [Nat.mul_succ] at few
          rw [List.length_drop]
          omega
        have one : input.length / size = (input.length - size) / size + 1 :=
          Nat.div_eq_sub_div (by omega) enough
        have gone : ((input.length - size) / size + 1) * size =
            (input.length - size) / size * size + size := Nat.succ_mul _ _
        have total : size * (whole + 1) + last = size * whole + last + size := by
          rw [Nat.mul_succ]
          omega
        rw [Reader.run_bytes_of_le enough]
        simp only [ih fewer, List.length_drop, List.drop_drop]
        rw [one, gone, total, Nat.add_sub_add_right, Nat.add_comm size, Nat.sub_sub,
          Nat.add_comm size]
      · have none : input.length / size = 0 := Nat.div_eq_of_lt (by omega)
        have missed : (Reader.bytes size).run input = (.error (.endOfStream size input.length), input) :=
          Reader.run_take_of_lt (by omega)
        have first : size ≤ size * (whole + 1) + last := by
          rw [Nat.mul_succ]
          omega
        simp only [missed, none, Nat.zero_mul, Nat.sub_zero, Nat.min_eq_left first, List.drop_zero]

theorem told_vec (count : Nat) : told ((Reader.vec count).run input) = Plain.run count input := by
  unfold Plain.run
  split
  · rename_i enough
    have all : (Reader.vec count).run input = (.ok (input.take count), input.drop count) :=
      Reader.run_pieces_ok.mpr ⟨enough, rfl, rfl⟩
    rw [all]
    rfl
  · rename_i few
    have split : Reader.pieceSize * (count / Reader.pieceSize) + count % Reader.pieceSize = count :=
      Nat.div_add_mod _ _
    have short : (Reader.vec count).run input = _ :=
      run_piecesOnto_short (Nat.mod_lt count (by decide)) (by rw [split]; omega)
    rw [short, split]
    rfl

theorem told_word (kind : Word) : told (kind.reader.run input) =
    (Plain.piece (Plain.width kind) input).map (Except.map (Plain.value kind)) id := by
  have spelled {f : Bytes → Int} {width : Nat} (value : Bytes → Int)
      (same : ∀ piece, piece.length = width → f piece = value piece) :
      told ((f <$> Reader.bytes width).run input) =
        (Plain.piece width input).map (Except.map value) id := by
    rw [told_map, told_bytes]
    unfold Plain.piece
    split
    · rename_i enough
      exact congrArg (fun n => (Except.ok n, input.drop width))
        (same _ (List.length_take_of_le enough))
    · rfl
  cases kind with
  | u8 => exact spelled _ fun piece one =>
      congrArg Nat.cast (UInt8.toNat_ofNat_of_lt' (Bytes.toNat_lt one))
  | u16 => exact spelled _ fun piece two =>
      congrArg Nat.cast (UInt16.toNat_ofNat_of_lt' (Bytes.toNat_lt two))
  | i16 => exact spelled _ fun piece _ => Int16.toInt_ofNat
  | u32 => exact spelled _ fun piece four =>
      congrArg Nat.cast (UInt32.toNat_ofNat_of_lt' (Bytes.toNat_lt four))
  | i32 => exact spelled _ fun piece _ => Int32.toInt_ofNat
  | i64 => exact spelled _ fun piece _ => Int64.toInt_ofNat

end

/-- Over its bytes, a request's reader gives what a plain list answers. -/
theorem told_request (request : Request) (input : Bytes) :
    told (request.reader.run input) = request.overBytes input := by
  cases request with
  | word kind =>
      rw [Request.reader, told_map, told_word, Request.overBytes]
      rcases Plain.piece (Plain.width kind) input with ⟨_ | _, rest⟩ <;> rfl
  | bytes count => rw [Request.reader, told_map, told_bytes, Request.overBytes]
  | vec count => rw [Request.reader, told_map, told_vec, Request.overBytes]
  | vecLimited count limit =>
      rw [Request.reader, told_map, Reader.vecLimited, Request.overBytes]
      split
      · rfl
      · rw [told_vec]
  | skip count =>
      rw [Request.reader, told_map, Reader.skip, told_map, told_vec, Request.overBytes]
      rcases Plain.run count input with ⟨_ | _, rest⟩ <;> rfl

/-- One request makes no difference between a buffered stream and its bytes. -/
theorem overBuffer_eq (request : Request) (b : Buffered) :
    (request.overBuffer b).map id Buffered.rest = request.overBytes b.rest := by
  rw [← told_request, ← Reader.runBuffered_eq]
  rfl

theorem serve_overBuffer (requests : List Request) (b : Buffered) :
    (serve Request.overBuffer requests b).map id Buffered.rest =
      serve Request.overBytes requests b.rest := by
  induction requests generalizing b with
  | nil => rfl
  | cons request requests ih =>
      rw [serve, serve, ← overBuffer_eq]
      exact congrArg (Prod.map (List.cons _) id) (ih _)

/-- **Buffering is invisible.**  Whatever chunks a stream comes in and whatever the buffer can hold
at first, any sequence of requests, also behind those that fail, gets the answers of the plain list
of bytes, and leaves the bytes that it leaves there. -/
theorem buffering_invisible (requests : List Request) (chunks : List Bytes) (capacity : Nat) :
    (serve Request.overBuffer requests (Buffered.ofChunks chunks capacity)).map id Buffered.rest =
      serve Request.overBytes requests chunks.flatten := by
  rw [serve_overBuffer, Buffered.rest_ofChunks]

end Stream

end RemoteFramebuffer
