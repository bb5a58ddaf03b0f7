/-
# `RemoteFramebuffer.Proofs.Encoding.Tight.Length` — both readers of a length agree

## What is proved

Of every length up to the largest, and of every byte string (`readers_agree`):

    a length                 is written in one byte below 128, in two below 16384, and else in
                             three, no form of it being shorter; both readers read it back
    a byte string            begins with a length that both readers take alike, or both run out

## The forms

A length is one, two or three bytes, the top bit of the first two telling that more follow:

    0aaaaaaa                         a
    1aaaaaaa 0bbbbbbb                a + 128 b
    1aaaaaaa 1bbbbbbb cccccccc       a + 128 b + 16384 c

Every byte string begins with one of these or ends within one (`form_or_unfinished`).  A length may
have a longer form than it needs; it is written in the shortest (`length_encode_le`).

Data is captured and drawn by the same reader over two sources of bytes.  Whatever the source, it
takes a form where there is one (`takes_read`) and runs out where there is none (`fails_read`).
-/
import RemoteFramebuffer.Proofs.Encoding.Capture
import RemoteFramebuffer.Proofs.Encoding.Painting

namespace RemoteFramebuffer

/-! ## Captured bytes -/

/-- What a reader comes to on a byte string, the bytes that it took, and those that are left. -/
def Reader.captured {ε α : Type} (r : Reader ε α) (input : Bytes) : Except ε α × Bytes × Bytes :=
  match (r.recorded []).run input with
  | (.ok (a, pieces), rest) => (.ok a, pieces.reverse.flatten, rest)
  | (.error (e, pieces), rest) => (.error e, pieces.reverse.flatten, rest)

theorem Reader.captured_eq {ε α : Type} {r : Reader ε α} {used rest : Bytes} {result : Except ε α}
    (run : r.run (used ++ rest) = (result, rest)) :
    r.captured (used ++ rest) = (result, used, rest) := by
  obtain ⟨pieces, all, recorded⟩ := r.run_recorded [] (used ++ rest)
  rw [run] at all recorded
  have took : pieces.reverse.flatten = used := List.append_cancel_right all
  rw [captured, recorded, ← took]
  cases result <;> rfl

/-! ## Running out of bytes -/

/-- Takes all bytes and asks for one more. -/
def Capture.RunsOut {α : Type} (r : Capture α) (input : Bytes) : Prop :=
  r.run input = (.error (.wire (.endOfStream 1 0)), [])

theorem Capture.RunsOut.bind {α β : Type} {r : Capture α} {f : α → Capture β} {input : Bytes}
    (out : RunsOut r input) : RunsOut (r >>= f) input := by
  rw [RunsOut, Reader.run_bind, out]

theorem Capture.RunsOut.after {α : Type} {f : UInt8 → Capture α} {b : UInt8} {rest : Bytes}
    (out : RunsOut (f b) rest) : RunsOut (u8 >>= f) (b :: rest) :=
  ((takes_u8 b).run_bind f rest).trans out

/-- Takes all bytes and asks for one more. -/
def Payload.RunsOut {α : Type} (p : Payload α) (input : Bytes) : Prop :=
  p input = .error (DecodeError.of (.payloadEnd 1 0))

theorem Payload.RunsOut.bind {α β : Type} {p : Payload α} {f : α → Payload β} {input : Bytes}
    (out : RunsOut p input) : RunsOut (p >>= f) input := by
  show (p input >>= fun out => f out.1 out.2) = _
  rw [out]
  rfl

theorem Payload.RunsOut.after {α : Type} {f : UInt8 → Payload α} {b : UInt8} {rest : Bytes}
    (out : RunsOut (f b) rest) : RunsOut (u8 >>= f) (b :: rest) := by
  show (u8 (b :: rest) >>= fun out => f out.1 out.2) = _
  rw [u8_cons]
  exact out

namespace CompactLength

variable {used rest input : Bytes} {length : Nat}

/-! ## The forms of a length -/

/-- The bytes of a length, as they may be sent. -/
inductive Form : Bytes → Nat → Prop
  | one {first : UInt8} : first < 128 → Form [first] first.toNat
  | two {first second : UInt8} : 128 ≤ first → second < 128 →
      Form [first, second] (first.toNat % 128 + second.toNat % 128 * 128)
  | three {first second third : UInt8} : 128 ≤ first → 128 ≤ second →
      Form [first, second, third]
        (first.toNat % 128 + second.toNat % 128 * 128 + third.toNat * 16384)

/-- The bytes end where a length goes on. -/
inductive Unfinished : Bytes → Prop
  | none : Unfinished []
  | one {first : UInt8} : 128 ≤ first → Unfinished [first]
  | two {first second : UInt8} : 128 ≤ first → 128 ≤ second → Unfinished [first, second]

theorem form_or_unfinished (input : Bytes) :
    (∃ used rest length, input = used ++ rest ∧ Form used length) ∨ Unfinished input := by
  cases input with
  | nil => exact .inr .none
  | cons first rest =>
    by_cases last : first < 128
    · exact .inl ⟨[first], rest, _, rfl, .one last⟩
    have more := UInt8.not_lt.mp last
    cases rest with
    | nil => exact .inr (.one more)
    | cons second rest =>
      by_cases last : second < 128
      · exact .inl ⟨[first, second], rest, _, rfl, .two more last⟩
      have more' := UInt8.not_lt.mp last
      cases rest with
      | nil => exact .inr (.two more more')
      | cons third rest => exact .inl ⟨[first, second, third], rest, _, rfl, .three more more'⟩

theorem Form.le_max (form : Form used length) : length ≤ max := by
  unfold max
  cases form with
  | @one first =>
    have := first.toNat_lt
    omega
  | two => omega
  | @three first second third =>
    have := third.toNat_lt
    omega

theorem length_encode (length : Nat) :
    (encode length).length = if length < 128 then 1 else if length < 16384 then 2 else 3 := by
  rw [encode]
  split
  · rfl
  split <;> rfl

/-- No form of a length is shorter than the one that it is written in. -/
theorem Form.length_encode_le (form : Form used length) :
    (encode length).length ≤ used.length := by
  rw [length_encode]
  cases form with
  | @one first last =>
    have small : first.toNat < 128 := UInt8.lt_iff_toNat_lt.mp last
    rw [if_pos small]
    exact Nat.le_refl 1
  | two =>
    split
    · exact Nat.le_succ 1
    · rw [if_pos (by omega)]
      exact Nat.le_refl 2
  | three =>
    split
    · exact Nat.le_add_left 1 2
    split
    · exact Nat.le_succ 2
    · exact Nat.le_refl 3

theorem form_encode (le : length ≤ max) : Form (encode length) length := by
  have number {v : Nat} (lt : v < 256) : (UInt8.ofNat v).toNat = v := UInt8.toNat_ofNat_of_lt' lt
  have last {v : Nat} (lt : v < 128) : UInt8.ofNat v < 128 := by
    rw [UInt8.lt_iff_toNat_lt, number (by omega)]
    exact lt
  have goesOn {v : Nat} (lt : v < 128) : 128 ≤ UInt8.ofNat (v + 128) := by
    rw [UInt8.le_iff_toNat_le, number (by omega)]
    exact Nat.le_add_left 128 v
  unfold max at le
  rw [encode]
  split
  · rename_i small
    have form := Form.one (last small)
    rw [number (by omega)] at form
    rwa [Nat.mod_eq_of_lt small]
  split
  · have form := Form.two (goesOn (v := length % 128) (by omega))
      (last (v := length / 128 % 128) (by omega))
    have whole : (length % 128 + 128) % 128 + length / 128 % 128 % 128 * 128 = length := by omega
    rwa [number (by omega), number (by omega), whole] at form
  · have form : Form [_, _, UInt8.ofNat (length / 16384)] _ :=
      .three (goesOn (v := length % 128) (by omega)) (goesOn (v := length / 128 % 128) (by omega))
    have whole : (length % 128 + 128) % 128 + (length / 128 % 128 + 128) % 128 * 128 +
        length / 16384 * 16384 = length := by omega
    rwa [number (by omega), number (by omega), number (by omega), whole] at form

/-! ## Reading byte by byte -/

section Source

variable {m : Type → Type} [Monad m] {byte : m UInt8}

theorem takes_read {Takes : {α : Type} → m α → Bytes → α → Prop}
    (takes_pure : ∀ {α : Type} (a : α), Takes (pure a) [] a)
    (takes_bind : ∀ {α β : Type} {r : m α} {used used' : Bytes} {a : α} {b : β} {f : α → m β},
      Takes r used a → Takes (f a) used' b → Takes (r >>= f) (used ++ used') b)
    (takes_byte : ∀ b, Takes byte [b] b) (form : Form used length) :
    Takes (read byte) used length := by
  cases form with
  | one last =>
    refine takes_bind (takes_byte _) ?_
    rw [if_pos last]
    exact takes_pure _
  | two more last =>
    refine takes_bind (takes_byte _) ?_
    rw [if_neg (UInt8.not_lt.mpr more)]
    refine takes_bind (takes_byte _) ?_
    rw [if_pos last]
    exact takes_pure _
  | three more more' =>
    refine takes_bind (takes_byte _) ?_
    rw [if_neg (UInt8.not_lt.mpr more)]
    refine takes_bind (takes_byte _) ?_
    rw [if_neg (UInt8.not_lt.mpr more')]
    refine takes_bind (takes_byte _) ?_
    exact takes_pure _

/-- Where a length is unfinished, reading it fails as reading a byte at the end does. -/
theorem fails_read {Fails : {α : Type} → m α → Bytes → Prop}
    (fails_bind : ∀ {α β : Type} {r : m α} {input : Bytes} {f : α → m β},
      Fails r input → Fails (r >>= f) input)
    (fails_after : ∀ {α : Type} {b : UInt8} {rest : Bytes} {f : UInt8 → m α},
      Fails (f b) rest → Fails (byte >>= f) (b :: rest))
    (fails_byte : Fails byte []) (unfinished : Unfinished input) : Fails (read byte) input := by
  cases unfinished with
  | none => exact fails_bind fails_byte
  | one more =>
    refine fails_after ?_
    rw [if_neg (UInt8.not_lt.mpr more)]
    exact fails_bind fails_byte
  | two more more' =>
    refine fails_after ?_
    rw [if_neg (UInt8.not_lt.mpr more)]
    refine fails_after ?_
    rw [if_neg (UInt8.not_lt.mpr more')]
    exact fails_bind fails_byte

end Source

/-! ## The two readers -/

theorem takes_capture_of_form (form : Form used length) : Reader.Takes capture used length :=
  takes_read Reader.takes_pure Reader.Takes.bind Capture.takes_u8 form

theorem takes_parse_of_form (form : Form used length) : Payload.Takes parse used length :=
  takes_read Payload.takes_pure Payload.Takes.bind Payload.takes_u8 form

theorem takes_capture (le : length ≤ max) : Reader.Takes capture (encode length) length :=
  takes_capture_of_form (form_encode le)

theorem takes_parse (le : length ≤ max) : Payload.Takes parse (encode length) length :=
  takes_parse_of_form (form_encode le)

theorem runsOut_capture (unfinished : Unfinished input) : Capture.RunsOut capture input :=
  fails_read Capture.RunsOut.bind Capture.RunsOut.after rfl unfinished

theorem runsOut_parse (unfinished : Unfinished input) : Payload.RunsOut parse input :=
  fails_read Payload.RunsOut.bind Payload.RunsOut.after rfl unfinished

/-- Both readers find the length in these bytes and leave what follows, and the one that captures
has captured them. -/
structure Reads (used rest : Bytes) (length : Nat) : Prop where
  captured : capture.captured (used ++ rest) = (.ok length, used, rest)
  parsed : parse (used ++ rest) = .ok (length, rest)

/-- Both readers take all that is there and fail for want of a byte. -/
structure BothRunOut (input : Bytes) : Prop where
  captured : capture.captured input = (.error (.wire (.endOfStream 1 0)), input, [])
  parsed : parse input = .error (DecodeError.of (.payloadEnd 1 0))

theorem Form.reads (form : Form used length) (rest : Bytes) : Reads used rest length where
  captured := Reader.captured_eq (takes_capture_of_form form rest)
  parsed := takes_parse_of_form form rest

theorem Unfinished.bothRunOut (unfinished : Unfinished input) : BothRunOut input where
  captured := by
    have run := runsOut_capture unfinished
    rw [Capture.RunsOut, ← List.append_nil input] at run
    rw [← List.append_nil input, Reader.captured_eq run, List.append_nil]
  parsed := runsOut_parse unfinished

theorem form_of_parse (parsed : parse (used ++ rest) = .ok (length, rest)) : Form used length := by
  rcases form_or_unfinished (used ++ rest) with ⟨used', rest', length', split, form⟩ | unfinished
  · rw [split, takes_parse_of_form form rest', Except.ok.injEq, Prod.mk.injEq] at parsed
    obtain ⟨rfl, rfl⟩ := parsed
    exact List.append_cancel_right split ▸ form
  · rw [runsOut_parse unfinished] at parsed
    cases parsed

/-- **Lengths are read as they are written, by both readers alike**, and written as short as can be.
On any bytes the two come to the same length after the same bytes, or both run out. -/
theorem readers_agree :
    (∀ length ≤ max,
      ((encode length).length = if length < 128 then 1 else if length < 16384 then 2 else 3) ∧
      (∀ used rest, parse (used ++ rest) = .ok (length, rest) →
        (encode length).length ≤ used.length) ∧
      ∀ rest, Reads (encode length) rest length) ∧
    ∀ input, (∃ used rest length, input = used ++ rest ∧ length ≤ max ∧ Reads used rest length) ∨
      BothRunOut input := by
  refine ⟨fun length le => ⟨length_encode length, ?_, (form_encode le).reads⟩, fun input => ?_⟩
  · exact fun used rest parsed => (form_of_parse parsed).length_encode_le
  · rcases form_or_unfinished input with ⟨used, rest, length, rfl, form⟩ | unfinished
    · exact .inl ⟨used, rest, length, rfl, form.le_max, form.reads rest⟩
    · exact .inr unfinished.bothRunOut

/-- The first length of three bytes, and a longer form of none than it needs. -/
theorem readers_agree_three :
    (16384 ≤ max ∧ Reads [0x80, 0x80, 0x01] [7] 16384) ∧
      (parse ([0x80, 0x80, 0x00] ++ [7]) = .ok (0, [7]) ∧ (encode 0).length ≤ 3) := by
  have le : 16384 ≤ max := by decide
  have form : parse ([0x80, 0x80, 0x00] ++ [7]) = .ok (0, [7]) := rfl
  obtain ⟨written, -⟩ := readers_agree
  have three := (written 16384 le).2.2 [7]
  rw [show encode 16384 = [0x80, 0x80, 0x01] by decide] at three
  exact ⟨⟨le, three⟩, form, (written 0 (Nat.zero_le _)).2.1 _ _ form⟩

end CompactLength

end RemoteFramebuffer
