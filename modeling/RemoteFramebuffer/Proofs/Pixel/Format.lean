/-
# `RemoteFramebuffer.Proofs.Pixel.Format` — what is known of a valid format
-/
import RemoteFramebuffer.Pixel.Format
import RemoteFramebuffer.Proofs.Bytes

namespace RemoteFramebuffer

/-! ## Fields -/

namespace Channel

/-- The bits of a pixel value that the channel holds. -/
def field (c : Channel) : Nat := c.max.toNat <<< c.shift.toNat

/-- The bits of the field stand at places from `low` on and before `high`. -/
def LiesIn (c : Channel) (low high : Nat) : Prop :=
  ∀ i, c.field.testBit i = true → low ≤ i ∧ i < high

theorem component_eq (c : Channel) (value : Nat) :
    c.component value = (value &&& c.max.toNat <<< c.shift.toNat) >>> c.shift.toNat := by
  rw [component, Nat.shiftRight_and_distrib, Nat.shiftLeft_shiftRight]

/-- The channel holds the numbers of some bits. -/
def IsFull (c : Channel) : Prop := ∃ bits, c.max.toNat + 1 = 1 <<< bits

/-- A component of a channel scaled to eight bits; a channel of maximum 0 is black. -/
def level (c : Channel) (component : Nat) : UInt8 :=
  if c.max = 0 then 0 else UInt8.ofNat (component * 255 / c.max.toNat)

theorem scale_eq_level (c : Channel) (value : Nat) : c.scale value = c.level (c.component value) :=
  rfl

theorem component_le (c : Channel) (value : Nat) : c.component value ≤ c.max.toNat :=
  Nat.and_le_right

/-- A level is no larger than eight bits can hold, so nothing of it is cut off. -/
theorem toNat_level {c : Channel} {v : Nat} (le : v ≤ c.max.toNat) : (c.level v).toNat = v * 255 / c.max.toNat := by
  rw [level]
  split
  · rename_i none
    rw [none]
    exact (Nat.div_zero _).symm
  · have most : v * 255 / c.max.toNat ≤ 255 :=
      Nat.div_le_of_le_mul (Nat.mul_le_mul_right 255 le)
    exact UInt8.toNat_ofNat_of_lt' (Nat.lt_succ_of_le most)

theorem and_full {max bits : Nat} (full : max + 1 = 1 <<< bits) (v : Nat) :
    v &&& max = v % (max + 1) := by
  rw [full, Nat.one_shiftLeft]
  rw [Nat.one_shiftLeft] at full
  rw [show max = Nat.pow 2 bits - 1 from (Nat.sub_eq_of_eq_add full.symm).symm]
  exact Nat.and_two_pow_sub_one_eq_mod v bits

variable {c d : Channel} {v w : Nat}

theorem shiftLeft_and_field (full : c.IsFull) (le : v ≤ c.max.toNat) :
    v <<< c.shift.toNat &&& c.field = v <<< c.shift.toNat := by
  obtain ⟨bits, full⟩ := full
  rw [field, ← Nat.shiftLeft_and_distrib, and_full full, Nat.mod_eq_of_lt (Nat.lt_succ_of_le le)]

theorem shiftLeft_and_field_of_disjoint (full : d.IsFull) (le : w ≤ d.max.toNat)
    (disjoint : d.field &&& c.field = 0) : w <<< d.shift.toNat &&& c.field = 0 := by
  rw [← shiftLeft_and_field full le, Nat.and_assoc, disjoint, Nat.and_zero]

theorem shiftLeft_lt_of_fits {bits : UInt8} (fits : c.fits bits = true) (le : v ≤ c.max.toNat) :
    v <<< c.shift.toNat < 1 <<< bits.toNat := by
  rw [Channel.fits, Bool.and_eq_true, decide_eq_true_eq, decide_eq_true_eq] at fits
  rw [Nat.shiftLeft_eq] at fits ⊢
  exact Nat.lt_of_le_of_lt (Nat.mul_le_mul_right _ le) fits.2

theorem component_or (full : c.IsFull) (le : v ≤ c.max.toNat) {others : Nat}
    (out : others &&& c.field = 0) : c.component (v <<< c.shift.toNat ||| others) = v := by
  have cut : (v <<< c.shift.toNat ||| others) &&& c.field = v <<< c.shift.toNat := by
    rw [Nat.and_or_distrib_right, shiftLeft_and_field full le, out, Nat.or_zero]
  rw [component_eq, ← field, cut, Nat.shiftLeft_shiftRight]

end Channel

namespace PixelFormat

def channels (pf : PixelFormat) : List Channel := [pf.red, pf.green, pf.blue]

/-! ## Valid formats -/

theorem validate_eq_ok {pf : PixelFormat} :
    pf.validate = .ok () ↔
      pf.bitsPerPixel ∈ [8, 16, 32] ∧ pf.depth ≤ pf.bitsPerPixel ∧
        (pf.isTrueColor = true → pf.red.fits pf.bitsPerPixel = true ∧
          pf.green.fits pf.bitsPerPixel = true ∧ pf.blue.fits pf.bitsPerPixel = true) := by
  have rule_then (rule : Prop) [Decidable rule] (e : Invalid) (next : Except Invalid Unit) :
      (if rule then next else do throw e; next) = .ok () ↔ rule ∧ next = .ok () := by
    by_cases h : rule
    · simp only [h, if_true, true_and]
    · simp only [h, if_false, false_and, iff_false]
      exact nofun
  have last_rule (rule : Prop) [Decidable rule] (e : Invalid) :
      (if rule then pure () else throw e : Except Invalid Unit) = .ok () ↔ rule := by
    by_cases h : rule
    · simp only [h, if_true, iff_true]
      rfl
    · simp only [h, if_false, iff_false]
      exact nofun
  simp only [validate, rule_then]
  refine and_congr_right fun _ => and_congr_right fun _ => ?_
  split
  · rename_i color
    simp only [rule_then, last_rule, color, forall_const]
  · rename_i color
    exact ⟨fun _ h => absurd h color, fun _ => rfl⟩

variable {pf : PixelFormat}

theorem bytesPerPixel_of_validate (h : pf.validate = .ok ()) :
    pf.bytesPerPixel = 1 ∨ pf.bytesPerPixel = 2 ∨ pf.bytesPerPixel = 4 := by
  have bits := (validate_eq_ok.mp h).1
  unfold bytesPerPixel
  simp only [List.mem_cons, List.not_mem_nil, or_false] at bits
  rcases bits with eq | eq | eq <;> rw [eq] <;> decide

theorem bytesPerPixel_le (h : pf.validate = .ok ()) : pf.bytesPerPixel ≤ 4 := by
  rcases bytesPerPixel_of_validate h with eq | eq | eq <;> omega

theorem pow_bytesPerPixel (h : pf.validate = .ok ()) :
    Nat.pow 256 pf.bytesPerPixel = 1 <<< pf.bitsPerPixel.toNat := by
  have bits := (validate_eq_ok.mp h).1
  simp only [List.mem_cons, List.not_mem_nil, or_false] at bits
  unfold bytesPerPixel
  rcases bits with eq | eq | eq <;> rw [eq] <;> rfl

theorem bitsPerPixel_le_of_validate (h : pf.validate = .ok ()) : pf.bitsPerPixel.toNat ≤ 32 := by
  have bits := (validate_eq_ok.mp h).1
  simp only [List.mem_cons, List.not_mem_nil, or_false] at bits
  rcases bits with eq | eq | eq <;> rw [eq] <;> decide

theorem shift_lt_of_validate (h : pf.validate = .ok ()) (color : pf.isTrueColor = true) :
    pf.red.shift.toNat < 32 ∧ pf.green.shift.toNat < 32 ∧ pf.blue.shift.toNat < 32 := by
  obtain ⟨-, -, channels⟩ := validate_eq_ok.mp h
  obtain ⟨red, green, blue⟩ := channels color
  have width := bitsPerPixel_le_of_validate h
  have before {c : Channel} (fits : c.fits pf.bitsPerPixel = true) : c.shift.toNat < 32 := by
    rw [Channel.fits, Bool.and_eq_true, decide_eq_true_eq, UInt8.lt_iff_toNat_lt] at fits
    omega
  exact ⟨before red, before green, before blue⟩

/-! ## Pixels -/

structure Pixel (pf : PixelFormat) where
  bytes : Bytes
  length_bytes : bytes.length = pf.bytesPerPixel

theorem length_flatMap_bytes (pixels : List pf.Pixel) :
    (pixels.flatMap Pixel.bytes).length = pixels.length * pf.bytesPerPixel :=
  Bytes.length_flatMap_of_forall fun pixel _ => pixel.length_bytes

theorem valueColor_congr (colors : ColorMap) (color : pf.isTrueColor = true) {v w : Nat}
    (red : pf.red.component v = pf.red.component w)
    (green : pf.green.component v = pf.green.component w)
    (blue : pf.blue.component v = pf.blue.component w) :
    pf.valueColor v colors = pf.valueColor w colors := by
  simp only [valueColor, color, if_true, Channel.scale, red, green, blue]

/-! ## Components put together -/

variable {r g b : Nat}

/-- The channels hold the numbers of some bits each, in fields of their own. -/
structure Regular (pf : PixelFormat) : Prop where
  full : ∀ c ∈ pf.channels, c.IsFull
  disjoint : pf.channels.Pairwise fun c d => c.field &&& d.field = 0

/-- The pixel value of three components. -/
def join (pf : PixelFormat) (red green blue : Nat) : Nat :=
  red <<< pf.red.shift.toNat ||| green <<< pf.green.shift.toNat ||| blue <<< pf.blue.shift.toNat

theorem component_join (regular : pf.Regular) (red : r ≤ pf.red.max.toNat)
    (green : g ≤ pf.green.max.toNat) (blue : b ≤ pf.blue.max.toNat) :
    pf.red.component (pf.join r g b) = r ∧ pf.green.component (pf.join r g b) = g ∧
      pf.blue.component (pf.join r g b) = b := by
  obtain ⟨full, disjoint⟩ := regular
  simp only [channels, List.forall_mem_cons] at full
  obtain ⟨fullRed, fullGreen, fullBlue, -⟩ := full
  simp only [channels, List.pairwise_cons, List.forall_mem_cons] at disjoint
  obtain ⟨⟨redGreen, redBlue, -⟩, ⟨greenBlue, -⟩, -⟩ := disjoint
  have greenRed := (Nat.and_comm _ _).trans redGreen
  have blueRed := (Nat.and_comm _ _).trans redBlue
  have blueGreen := (Nat.and_comm _ _).trans greenBlue
  have out {c d e : Channel} {v w : Nat} (fullC : c.IsFull) (fullD : d.IsFull)
      (leC : v ≤ c.max.toNat) (leD : w ≤ d.max.toNat) (disjointC : c.field &&& e.field = 0)
      (disjointD : d.field &&& e.field = 0) :
      (v <<< c.shift.toNat ||| w <<< d.shift.toNat) &&& e.field = 0 := by
    rw [Nat.and_or_distrib_right, Channel.shiftLeft_and_field_of_disjoint fullC leC disjointC,
      Channel.shiftLeft_and_field_of_disjoint fullD leD disjointD, Nat.or_zero]
  refine ⟨?_, ?_, ?_⟩
  · rw [join, Nat.or_assoc]
    exact Channel.component_or fullRed red (out fullGreen fullBlue green blue greenRed blueRed)
  · rw [join, Nat.or_comm (r <<< _), Nat.or_assoc]
    exact Channel.component_or fullGreen green (out fullRed fullBlue red blue redGreen blueGreen)
  · rw [join, Nat.or_comm]
    exact Channel.component_or fullBlue blue (out fullRed fullGreen red green redBlue greenBlue)

/-- Components at their places are below the pixel values of the format. -/
theorem placed_lt (valid : pf.validate = .ok ()) (color : pf.isTrueColor = true)
    (red : r ≤ pf.red.max.toNat) (green : g ≤ pf.green.max.toNat) (blue : b ≤ pf.blue.max.toNat) :
    r <<< pf.red.shift.toNat < 1 <<< pf.bitsPerPixel.toNat ∧
      g <<< pf.green.shift.toNat < 1 <<< pf.bitsPerPixel.toNat ∧
      b <<< pf.blue.shift.toNat < 1 <<< pf.bitsPerPixel.toNat := by
  obtain ⟨-, -, channels⟩ := validate_eq_ok.mp valid
  obtain ⟨fitsRed, fitsGreen, fitsBlue⟩ := channels color
  exact ⟨Channel.shiftLeft_lt_of_fits fitsRed red, Channel.shiftLeft_lt_of_fits fitsGreen green,
    Channel.shiftLeft_lt_of_fits fitsBlue blue⟩

theorem join_lt (valid : pf.validate = .ok ()) (color : pf.isTrueColor = true)
    (red : r ≤ pf.red.max.toNat) (green : g ≤ pf.green.max.toNat) (blue : b ≤ pf.blue.max.toNat) :
    pf.join r g b < 1 <<< pf.bitsPerPixel.toNat := by
  obtain ⟨smallRed, smallGreen, smallBlue⟩ := placed_lt valid color red green blue
  rw [Nat.one_shiftLeft] at *
  exact Nat.or_lt_two_pow (Nat.or_lt_two_pow smallRed smallGreen) smallBlue

theorem lt_of_validate (valid : pf.validate = .ok ()) {v : Nat}
    (small : v < 1 <<< pf.bitsPerPixel.toNat) : v < 0x100000000 := by
  have most : 1 <<< pf.bitsPerPixel.toNat ≤ 1 <<< 32 := by
    rw [Nat.one_shiftLeft, Nat.one_shiftLeft]
    exact Nat.pow_le_pow_right (by decide) (bitsPerPixel_le_of_validate valid)
  exact Nat.lt_of_lt_of_le small most

theorem length_valueBytes (pf : PixelFormat) (v : Nat) :
    (pf.valueBytes v).length = pf.bytesPerPixel := by
  unfold valueBytes
  dsimp only
  split
  · exact Bytes.length_ofNat _ _
  · rw [List.length_reverse, Bytes.length_ofNat]

theorem value_valueBytes (valid : pf.validate = .ok ()) {v : Nat}
    (small : v < 1 <<< pf.bitsPerPixel.toNat) : pf.value (pf.valueBytes v) = v := by
  have spelled : Bytes.toNat (Bytes.ofNat pf.bytesPerPixel v) = v := by
    refine Bytes.toNat_ofNat ?_
    rw [pow_bytesPerPixel valid]
    exact small
  have all : (pf.valueBytes v).take 4 = pf.valueBytes v := by
    refine List.take_of_length_le ?_
    rw [length_valueBytes]
    exact bytesPerPixel_le valid
  rw [value, all, valueBytes]
  split
  · exact spelled
  · rw [List.reverse_reverse, spelled]

end PixelFormat

end RemoteFramebuffer
