/-
# `RemoteFramebuffer.Proofs.Text.Utf8` — text that was written as UTF-8 is read back

A character is written in one to four bytes.  The first of them says how many are still due and
what the next one may be; the ranges it allows are just those that leave out the characters that
are written shorter, the surrogates, and what lies beyond the last character.  So each character
is completed by its own bytes, and the replacement character never appears.
-/
import RemoteFramebuffer.Proofs.Bytes
import RemoteFramebuffer.Text.Utf8

namespace RemoteFramebuffer.Text

deriving instance DecidableEq for Partial

/-! ## One byte -/

section

variable {b : UInt8} {p : Partial} {rest : Bytes}

theorem decodeFrom_ascii (small : b < 0x80) :
    decodeFrom none (b :: rest) = Char.ofNat b.toNat :: decodeFrom none rest := by
  rw [decodeFrom, step, first, if_pos small]
  rfl

theorem decodeFrom_begin (large : ¬ b < 0x80) (begun : Partial.begin? b = some p) :
    decodeFrom none (b :: rest) = decodeFrom (some p) rest := by
  rw [decodeFrom, step, first, if_neg large, begun]
  rfl

theorem decodeFrom_due {due : Nat} (more : p.due = due + 1) (admitted : p.admits b) :
    decodeFrom (some p) (b :: rest) =
      decodeFrom (some ⟨due, 0x80, 0xBF, p.bitsWith b⟩) rest := by
  rw [decodeFrom, step, if_pos admitted, more]
  rfl

theorem decodeFrom_last (last : p.due = 0) (admitted : p.admits b) :
    decodeFrom (some p) (b :: rest) = Char.ofNat (p.bitsWith b) :: decodeFrom none rest := by
  rw [decodeFrom, step, if_pos admitted, last]
  rfl

end

/-! ## The bytes of a character -/

/-- The byte of a character after its first that holds six bits. -/
def tail (n : Nat) : UInt8 := UInt8.ofNat (n % 64 + 128)

theorem toNat_tail (n : Nat) : (tail n).toNat = n % 64 + 128 :=
  UInt8.toNat_ofNat_of_lt' (show n % 64 + 128 < 256 by omega)

theorem Partial.admits_tail {p : Partial} {n : Nat} :
    p.admits (tail n) ↔ p.low.toNat ≤ n % 64 + 128 ∧ n % 64 + 128 ≤ p.high.toNat := by
  rw [admits, Bool.and_eq_true, decide_eq_true_iff, decide_eq_true_iff, UInt8.le_iff_toNat_le,
    UInt8.le_iff_toNat_le, toNat_tail]

theorem Partial.bitsWith_tail (p : Partial) (n : Nat) :
    p.bitsWith (tail n) = p.bits * 64 + n % 64 := by
  rw [bitsWith, toNat_tail]
  omega

/-- A byte after the first may be any, unless it comes right after the first. -/
theorem admits_any (due bits n : Nat) : (Partial.mk due 0x80 0xBF bits).admits (tail n) := by
  refine Partial.admits_tail.mpr ⟨?_, ?_⟩
  · show 128 ≤ n % 64 + 128
    omega
  · show n % 64 + 128 ≤ 191
    omega

theorem begin_two : ∀ a : Fin 32, 2 ≤ a.val →
    ¬ UInt8.ofNat (a.val + 192) < 0x80 ∧
      Partial.begin? (UInt8.ofNat (a.val + 192)) = some ⟨0, 0x80, 0xBF, a.val⟩ := by
  decide

theorem begin_three : ∀ a : Fin 16,
    ¬ UInt8.ofNat (a.val + 224) < 0x80 ∧
      Partial.begin? (UInt8.ofNat (a.val + 224)) =
        some ⟨1, if a.val = 0 then 0xA0 else 0x80, if a.val = 13 then 0x9F else 0xBF, a.val⟩ := by
  decide

theorem begin_four : ∀ a : Fin 5,
    ¬ UInt8.ofNat (a.val + 240) < 0x80 ∧
      Partial.begin? (UInt8.ofNat (a.val + 240)) =
        some ⟨2, if a.val = 0 then 0x90 else 0x80, if a.val = 4 then 0x8F else 0xBF, a.val⟩ := by
  decide

/-! ## Characters -/

section

variable {v : Nat} {rest : Bytes}

theorem decodeFrom_two (low : 0x80 ≤ v) (high : v ≤ 0x7FF) :
    decodeFrom none (UInt8.ofNat (v / 64 % 32 + 192) :: tail v :: rest) =
      Char.ofNat v :: decodeFrom none rest := by
  obtain ⟨large, begun⟩ := begin_two ⟨v / 64 % 32, by omega⟩ (show 2 ≤ v / 64 % 32 by omega)
  have bits : v / 64 % 32 * 64 + v % 64 = v := by omega
  rw [decodeFrom_begin large begun, decodeFrom_last rfl (admits_any _ _ _), Partial.bitsWith_tail,
    bits]

theorem decodeFrom_three (low : 0x800 ≤ v) (high : v ≤ 0xFFFF) (valid : Nat.isValidChar v) :
    decodeFrom none (UInt8.ofNat (v / 4096 % 16 + 224) :: tail (v / 64) :: tail v :: rest) =
      Char.ofNat v :: decodeFrom none rest := by
  obtain ⟨large, begun⟩ := begin_three ⟨v / 4096 % 16, by omega⟩
  have admitted : Partial.admits
      ⟨1, if v / 4096 % 16 = 0 then 0xA0 else 0x80, if v / 4096 % 16 = 13 then 0x9F else 0xBF,
        v / 4096 % 16⟩ (tail (v / 64)) := by
    refine Partial.admits_tail.mpr ⟨?_, ?_⟩
    · show UInt8.toNat (if v / 4096 % 16 = 0 then 0xA0 else 0x80) ≤ _
      split
      · show 160 ≤ v / 64 % 64 + 128
        omega
      · show 128 ≤ v / 64 % 64 + 128
        omega
    · show _ ≤ UInt8.toNat (if v / 4096 % 16 = 13 then 0x9F else 0xBF)
      -- the surrogates would start here
      unfold Nat.isValidChar at valid
      split
      · show v / 64 % 64 + 128 ≤ 159
        omega
      · show v / 64 % 64 + 128 ≤ 191
        omega
  have bits : (v / 4096 % 16 * 64 + v / 64 % 64) * 64 + v % 64 = v := by omega
  rw [decodeFrom_begin large begun, decodeFrom_due rfl admitted,
    decodeFrom_last rfl (admits_any _ _ _), Partial.bitsWith_tail, Partial.bitsWith_tail, bits]

theorem decodeFrom_four (low : 0x10000 ≤ v) (valid : Nat.isValidChar v) :
    decodeFrom none (UInt8.ofNat (v / 262144 % 8 + 240) :: tail (v / 4096) :: tail (v / 64) ::
      tail v :: rest) = Char.ofNat v :: decodeFrom none rest := by
  have high : v ≤ 0x10FFFF := by
    unfold Nat.isValidChar at valid
    omega
  obtain ⟨large, begun⟩ := begin_four ⟨v / 262144 % 8, by omega⟩
  have admitted : Partial.admits
      ⟨2, if v / 262144 % 8 = 0 then 0x90 else 0x80, if v / 262144 % 8 = 4 then 0x8F else 0xBF,
        v / 262144 % 8⟩ (tail (v / 4096)) := by
    refine Partial.admits_tail.mpr ⟨?_, ?_⟩
    · show UInt8.toNat (if v / 262144 % 8 = 0 then 0x90 else 0x80) ≤ _
      split
      · show 144 ≤ v / 4096 % 64 + 128
        omega
      · show 128 ≤ v / 4096 % 64 + 128
        omega
    · show _ ≤ UInt8.toNat (if v / 262144 % 8 = 4 then 0x8F else 0xBF)
      split
      · show v / 4096 % 64 + 128 ≤ 143
        omega
      · show v / 4096 % 64 + 128 ≤ 191
        omega
  have bits : ((v / 262144 % 8 * 64 + v / 4096 % 64) * 64 + v / 64 % 64) * 64 + v % 64 = v := by
    omega
  rw [decodeFrom_begin large begun, decodeFrom_due rfl admitted,
    decodeFrom_due rfl (admits_any _ _ _), decodeFrom_last rfl (admits_any _ _ _),
    Partial.bitsWith_tail, Partial.bitsWith_tail, Partial.bitsWith_tail, bits]

end

/-- The bytes of a character complete that character and begin no other. -/
theorem decodeFrom_utf8EncodeChar (c : Char) (rest : Bytes) :
    decodeFrom none (String.utf8EncodeChar c ++ rest) = c :: decodeFrom none rest := by
  unfold String.utf8EncodeChar
  extract_lets v
  have same : Char.ofNat v = c := Char.ofNat_toNat c
  have valid : Nat.isValidChar v := c.valid
  clear_value v
  subst same
  split
  · rename_i one
    have byte : (UInt8.ofNat v).toNat = v := UInt8.toNat_ofNat_of_lt' (show v < 256 by omega)
    have small : UInt8.ofNat v < 0x80 := by
      rw [UInt8.lt_iff_toNat_lt, byte]
      exact Nat.lt_succ_of_le one
    show decodeFrom none (UInt8.ofNat v :: rest) = _
    rw [decodeFrom_ascii small, byte]
  split
  · rename_i more two
    exact decodeFrom_two (by omega) two
  split
  · rename_i more three
    exact decodeFrom_three (by omega) three valid
  · rename_i more
    exact decodeFrom_four (by omega) valid

/-! ## Texts -/

/-- The loop that lists the bytes of an array goes over what is left of them. -/
theorem toList_loop_eq (a : ByteArray) (i : Nat) (seen : List UInt8) :
    ByteArray.toList.loop a i seen = seen.reverse ++ a.data.toList.drop i := by
  fun_induction ByteArray.toList.loop a i seen with
  | case1 i seen more ih =>
      have inside : i < a.data.toList.length := more
      rw [ih, List.drop_eq_getElem_cons inside, List.reverse_cons, List.append_assoc]
      simp [ByteArray.get!, more]
  | case2 i seen none =>
      have outside : a.data.toList.length ≤ i := Nat.le_of_not_lt none
      rw [List.drop_eq_nil_of_le outside, List.append_nil]

theorem ofString_eq (s : String) :
    Bytes.ofString s = s.toList.flatMap String.utf8EncodeChar := by
  have array : s.toByteArray = (s.toList.flatMap String.utf8EncodeChar).toByteArray := by
    conv => lhs; rw [← String.ofList_toList (s := s)]
    exact String.toByteArray_ofList
  show ByteArray.toList.loop s.toByteArray 0 [] = _
  rw [toList_loop_eq, array, List.data_toByteArray]
  rfl

/-- **Text that was written is read back.** -/
theorem decode_ofString (s : String) : decode (Bytes.ofString s) = s := by
  have read (l : List Char) : decodeFrom none (l.flatMap String.utf8EncodeChar) = l := by
    induction l with
    | nil => rfl
    | cons c l ih => rw [List.flatMap_cons, decodeFrom_utf8EncodeChar, ih]
  rw [decode, ofString_eq, read, String.ofList_toList]

/-! ## How much longer a text can get

Reading bytes that spell no character and writing the text again gives more bytes: three for each
byte that stands for none. -/

theorem length_utf8EncodeChar_le (c : Char) : (String.utf8EncodeChar c).length ≤ 4 := by
  rw [String.length_utf8EncodeChar]
  exact Char.utf8Size_le_four c

/-- What the characters that a first byte completes are written in, with room for one that it
begins. -/
theorem length_first_le (b : UInt8) :
    ((first b).1.flatMap String.utf8EncodeChar).length +
      3 * (first b).2.toList.length ≤ 3 := by
  unfold first
  split
  · rename_i small
    have ascii : ∀ n : Fin 128, (String.utf8EncodeChar (Char.ofNat n.val)).length ≤ 3 := by decide
    have := ascii ⟨b.toNat, UInt8.lt_iff_toNat_lt.mp small⟩
    simpa using this
  split
  · exact Nat.le_refl 3
  · decide

/-- What the characters that one more byte completes are written in: a character that was begun
before has left room for three bytes. -/
theorem length_step_le (p : Option Partial) (b : UInt8) :
    ((step p b).1.flatMap String.utf8EncodeChar).length + 3 * (step p b).2.toList.length ≤
      3 + 3 * p.toList.length := by
  cases p with
  | none => exact length_first_le b
  | some p =>
      rw [step]
      split
      · split
        · have one := length_utf8EncodeChar_le (Char.ofNat (p.bitsWith b))
          simp only [List.flatMap_cons, List.flatMap_nil, List.append_nil]
          exact Nat.le_trans one (show 4 ≤ 6 by decide)
        · exact Nat.le_add_left 3 3
      · -- the character that was begun is given up, and the byte is a first one
        have given : (String.utf8EncodeChar replacement).length = 3 := by decide
        have other := length_first_le b
        simp only [List.flatMap_cons, List.length_append, given, Option.toList_some,
          List.length_singleton]
        omega

/-- A text that was read from bytes is written in at most three times as many. -/
theorem length_ofString_decode_le (bytes : Bytes) :
    (Bytes.ofString (decode bytes)).length ≤ 3 * bytes.length := by
  have all (p : Option Partial) :
      ((decodeFrom p bytes).flatMap String.utf8EncodeChar).length ≤
        3 * bytes.length + 3 * p.toList.length := by
    induction bytes generalizing p with
    | nil =>
        cases p with
        | none => exact Nat.zero_le _
        | some p =>
            show (String.utf8EncodeChar replacement ++ []).length ≤ 3
            decide
    | cons b bytes ih =>
        have one := length_step_le p b
        have others := ih (step p b).2
        rw [decodeFrom, List.flatMap_append, List.length_append, List.length_cons]
        omega
  rw [ofString_eq, decode, String.toList_ofList]
  exact all none

theorem length_ofString_nothing (n : Nat) :
    (Bytes.ofString (decode (List.replicate n 0xFF))).length = n * 3 := by
  have read : decodeFrom none (List.replicate n 0xFF) = List.replicate n replacement := by
    induction n with
    | zero => rfl
    | succ n ih =>
        rw [List.replicate_succ, List.replicate_succ, ← ih]
        rfl
  have three (c : Char) (mem : c ∈ List.replicate n replacement) :
      (String.utf8EncodeChar c).length = 3 := by
    rw [List.eq_of_mem_replicate mem]
    decide
  rw [ofString_eq, decode, String.toList_ofList, read, Bytes.length_flatMap_of_forall three,
    List.length_replicate]

end RemoteFramebuffer.Text
