/-
# `RemoteFramebuffer.Proofs.Bytes` — words and the bytes that spell them

`Bytes.ofNat` and `Bytes.toNat` are inverse to each other between the byte strings of a width
and the numbers below 256 to that width.  The words of fixed width are the instances.
-/
import RemoteFramebuffer.Bytes

namespace RemoteFramebuffer.Bytes

theorem toNat_append_singleton (bytes : Bytes) (b : UInt8) :
    toNat (bytes ++ [b]) = toNat bytes * 256 + b.toNat := by
  simp [toNat, List.foldl_append]

/-- Every byte string ends in a byte or is empty; the digits are dealt from that end. -/
theorem eq_append_singleton {width : Nat} {bytes : Bytes} (h : bytes.length = width + 1) :
    ∃ front b, bytes = front ++ [b] ∧ front.length = width := by
  refine ⟨bytes.dropLast, bytes.getLast (by intro e; simp [e] at h), ?_, by simp [h]⟩
  exact (List.dropLast_concat_getLast _).symm

theorem toNat_lt {width : Nat} :
    ∀ {bytes : Bytes}, bytes.length = width → toNat bytes < Nat.pow 256 width := by
  induction width with
  | zero =>
      intro bytes h
      rw [List.length_eq_zero_iff.mp h]
      decide
  | succ width ih =>
      intro bytes h
      obtain ⟨front, b, rfl, hf⟩ := eq_append_singleton h
      have hb := b.toNat_lt
      have := ih hf
      rw [toNat_append_singleton]
      show toNat front * 256 + b.toNat < Nat.pow 256 width * 256
      omega

theorem ofNat_toNat {width : Nat} : ∀ {bytes : Bytes}, bytes.length = width →
    ofNat width (toNat bytes) = bytes := by
  induction width with
  | zero =>
      intro bytes h
      rw [List.length_eq_zero_iff.mp h]
      rfl
  | succ width ih =>
      intro bytes h
      obtain ⟨front, b, rfl, hf⟩ := eq_append_singleton h
      have hb : b.toNat < 256 := b.toNat_lt
      have high : (toNat front * 256 + b.toNat) / 256 = toNat front := by omega
      have low : UInt8.ofNat (toNat front * 256 + b.toNat) = b := by
        apply UInt8.toNat_inj.mp
        rw [UInt8.toNat_ofNat']
        omega
      rw [toNat_append_singleton, ofNat, high, low, ih hf]

theorem toNat_ofNat {width : Nat} :
    ∀ {n : Nat}, n < Nat.pow 256 width → toNat (ofNat width n) = n := by
  induction width with
  | zero =>
      intro n h
      have : n = 0 := Nat.lt_one_iff.mp h
      rw [this]
      rfl
  | succ width ih =>
      intro n h
      have whole : n < Nat.pow 256 width * 256 := h
      have high : n / 256 < Nat.pow 256 width := by omega
      rw [ofNat, toNat_append_singleton, ih high, UInt8.toNat_ofNat']
      omega

/-- Counted from the end, the bytes of a number hold eight bits each from the lowest on. -/
theorem getElem?_reverse_ofNat {width : Nat} :
    ∀ {n i : Nat}, i < width → (ofNat width n).reverse[i]? = some (UInt8.ofNat (n >>> (8 * i))) := by
  induction width with
  | zero => exact fun out => absurd out (Nat.not_lt_zero _)
  | succ width ih =>
      intro n i lt
      rw [ofNat, List.reverse_append, List.reverse_singleton, List.singleton_append]
      cases i with
      | zero => rfl
      | succ i =>
          rw [List.getElem?_cons_succ, ih (Nat.lt_of_succ_lt_succ lt), Nat.mul_succ, Nat.add_comm,
            Nat.shiftRight_add, Nat.shiftRight_eq_div_pow n 8]

theorem toNat_ofNat_le (width n : Nat) : toNat (ofNat width n) ≤ n := by
  induction width generalizing n with
  | zero => exact Nat.zero_le n
  | succ width ih =>
      have := ih (n / 256)
      rw [ofNat, toNat_append_singleton, UInt8.toNat_ofNat']
      omega

theorem ofNat_zero (width : Nat) : ofNat width 0 = zeros width := by
  induction width with
  | zero => rfl
  | succ width ih =>
      rw [ofNat, ih, zeros, zeros, List.replicate_succ']
      rfl

theorem ofNat_eq_zeros {width n : Nat} (small : n < Nat.pow 256 width) :
    ofNat width n = zeros width ↔ n = 0 := by
  constructor
  · intro h
    rw [← ofNat_zero] at h
    have zero : 0 < Nat.pow 256 width := Nat.lt_of_le_of_lt (Nat.zero_le n) small
    rw [← toNat_ofNat small, h, toNat_ofNat zero]
  · rintro rfl
    exact ofNat_zero width

theorem ofUInt16_toNat {bytes : Bytes} (h : bytes.length = 2) :
    ofUInt16 (UInt16.ofNat (toNat bytes)) = bytes := by
  have bound : toNat bytes < 2 ^ 16 := toNat_lt h
  rw [ofUInt16, UInt16.toNat_ofNat_of_lt' bound, ofNat_toNat h]

theorem toNat_ofUInt16 (w : UInt16) : toNat (ofUInt16 w) = w.toNat := toNat_ofNat w.toNat_lt

theorem ofUInt32_toNat {bytes : Bytes} (h : bytes.length = 4) :
    ofUInt32 (UInt32.ofNat (toNat bytes)) = bytes := by
  have bound : toNat bytes < 2 ^ 32 := toNat_lt h
  rw [ofUInt32, UInt32.toNat_ofNat_of_lt' bound, ofNat_toNat h]

theorem toNat_ofUInt32 (w : UInt32) : toNat (ofUInt32 w) = w.toNat := toNat_ofNat w.toNat_lt

theorem length_flatMap_of_forall {ι : Type} {l : List ι} {piece : ι → Bytes} {size : Nat}
    (h : ∀ i ∈ l, (piece i).length = size) : (l.flatMap piece).length = l.length * size := by
  induction l with
  | nil => exact (Nat.zero_mul _).symm
  | cons i l ih =>
      rw [List.flatMap_cons, List.length_append, h i List.mem_cons_self,
        ih fun i mem => h i (List.mem_cons_of_mem _ mem), List.length_cons, Nat.succ_mul,
        Nat.add_comm]

theorem exists_byte {n : Nat} (small : n < 0x100) : ∃ b : UInt8, ofNat 1 n = [b] ∧ b.toNat = n :=
  ⟨UInt8.ofNat n, rfl, UInt8.toNat_ofNat_of_lt' small⟩

theorem ofNat_one_toNat (b : UInt8) : ofNat 1 b.toNat = [b] := by
  show [UInt8.ofNat b.toNat] = [b]
  rw [UInt8.ofNat_toNat]

theorem exists_word16 {n : Nat} (small : n < 0x10000) :
    ∃ w : UInt16, ofNat 2 n = ofUInt16 w ∧ w.toNat = n := by
  have same : (UInt16.ofNat n).toNat = n := UInt16.toNat_ofNat_of_lt' small
  exact ⟨UInt16.ofNat n, by rw [ofUInt16, same], same⟩

/-- What is written of a number in four bytes is a word, cut if the number is too large. -/
theorem exists_word (n : Nat) :
    ∃ w : UInt32, ofNat 4 n = ofUInt32 w ∧ w.toNat ≤ n ∧ (n < 0x100000000 → w.toNat = n) := by
  have word : (UInt32.ofNat (toNat (ofNat 4 n))).toNat = toNat (ofNat 4 n) :=
    UInt32.toNat_ofNat_of_lt' (toNat_lt (length_ofNat 4 n))
  refine ⟨_, (ofUInt32_toNat (length_ofNat 4 n)).symm, ?_, fun small => ?_⟩
  · rw [word]
    exact toNat_ofNat_le 4 n
  · rw [word]
    exact toNat_ofNat small

theorem ofInt32_toInt32 (w : UInt32) : ofInt32 w.toInt32 = ofUInt32 w := by
  rw [ofInt32, UInt32.toUInt32_toInt32, ofUInt32]

end RemoteFramebuffer.Bytes
