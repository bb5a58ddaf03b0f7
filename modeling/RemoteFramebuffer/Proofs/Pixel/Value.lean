/-
# `RemoteFramebuffer.Proofs.Pixel.Value` — a pixel value, its bytes and its levels

## What is proved

Of every valid format (`bytes_and_levels_exact`):

    value (valueBytes v) = v                  for the values below the width of a pixel
    valueBytes (value bytes) = bytes          for as many bytes as a pixel has
    byte i of v, counted from the lowest      stands at `place i`, for every v
    a channel's level                         component * 255 / maximum, rounded down, and 0 if the
                                              maximum is 0; no word of 32 bits wraps on the way

## How it is proved

The bytes of a pixel and its value are two forms of one thing (`value_valueBytes`,
`valueBytes_value`).  Byte `i` of the value, counted from the lowest, stands at

    place i                  if the lowest byte comes first
    place n - 1 - i          if the highest does, of n bytes

A channel's level is its component times 255 by its maximum, rounded down.  Words of 32 bits are
wide enough for that: a component has 16 bits, and 255 times as much has 24 (`toNat_wordLevel`).
-/
import RemoteFramebuffer.Proofs.Pixel.Format

namespace RemoteFramebuffer

/-! ## Levels -/

namespace Channel

variable {c : Channel} {v : Nat}

theorem toNat_scale (c : Channel) (v : Nat) :
    (c.scale v).toNat = c.component v * 255 / c.max.toNat := by
  rw [scale_eq_level, toNat_level (c.component_le v)]

theorem scale_eq_full_iff :
    c.scale v = 255 ↔ c.max ≠ 0 ∧ c.component v = c.max.toNat := by
  have le := c.component_le v
  rw [← UInt8.toNat_inj, toNat_scale, ne_eq, ← UInt16.toNat_inj]
  show _ / _ = 255 ↔ ¬ c.max.toNat = 0 ∧ _
  generalize c.component v = component at le ⊢
  by_cases none : c.max.toNat = 0
  · simp [none]
  have pos : 0 < c.max.toNat := Nat.pos_of_ne_zero none
  constructor
  · intro full
    refine ⟨none, Nat.le_antisymm le ?_⟩
    have least : 255 * c.max.toNat ≤ component * 255 :=
      calc 255 * c.max.toNat
        _ = component * 255 / c.max.toNat * c.max.toNat := by rw [full]
        _ ≤ component * 255 := Nat.div_mul_le_self _ _
    omega
  · rintro ⟨-, rfl⟩
    exact Nat.mul_div_cancel_left 255 pos

/-- The level of a channel, in words of 32 bits throughout. -/
def wordLevel (c : Channel) (value : UInt32) : UInt32 :=
  if c.max = 0 then 0
  else (value >>> c.shift.toUInt32 &&& c.max.toUInt32) * 255 / c.max.toUInt32

theorem component_mul_lt (c : Channel) (v : Nat) : c.component v * 255 < 0x1000000 := by
  have le := c.component_le v
  have lt := c.max.toNat_lt
  omega

theorem toNat_wordLevel (shift : c.shift.toNat < 32) (value : UInt32) :
    (c.wordLevel value).toNat = (c.scale value.toNat).toNat := by
  rw [toNat_scale, wordLevel]
  split
  · rename_i none
    rw [none]
    exact (Nat.div_zero _).symm
  · have small := c.component_mul_lt value.toNat
    have component : (value >>> c.shift.toUInt32 &&& c.max.toUInt32).toNat =
        c.component value.toNat := by
      rw [UInt32.toNat_and, UInt32.toNat_shiftRight, UInt8.toNat_toUInt32, UInt16.toNat_toUInt32,
        Nat.mod_eq_of_lt shift, Channel.component]
    rw [UInt32.toNat_div, UInt32.toNat_mul, component, UInt16.toNat_toUInt32]
    show c.component value.toNat * 255 % 0x100000000 / c.max.toNat = _
    rw [Nat.mod_eq_of_lt (by omega)]

/-- The level is what scaling the component is meant to give, and words of 32 bits suffice. -/
structure Scaled (c : Channel) (value : UInt32) (level : UInt8) : Prop where
  rounded_down : level.toNat =
    if c.max = 0 then 0
    else (value.toNat >>> c.shift.toNat &&& c.max.toNat) * 255 / c.max.toNat
  full_iff : level = 255 ↔
    c.max ≠ 0 ∧ value.toNat >>> c.shift.toNat &&& c.max.toNat = c.max.toNat
  product_lt : (value.toNat >>> c.shift.toNat &&& c.max.toNat) * 255 < 0x100000000
  in_words : (c.wordLevel value).toNat = level.toNat

theorem scaled_scale (shift : c.shift.toNat < 32) (value : UInt32) :
    c.Scaled value (c.scale value.toNat) where
  rounded_down := by
    rw [toNat_scale]
    split
    · rename_i none
      rw [none]
      exact Nat.div_zero _
    · rfl
  full_iff := scale_eq_full_iff
  product_lt := Nat.lt_trans (c.component_mul_lt _) (by decide)
  in_words := toNat_wordLevel shift value

end Channel

/-! ## Bytes -/

namespace PixelFormat

variable {pf : PixelFormat} {bytes : Bytes}

/-- Where the byte of a value stands that is `i`-th from the lowest. -/
def place (pf : PixelFormat) (i : Nat) : Nat :=
  if pf.isBigEndian then pf.bytesPerPixel - 1 - i else i

theorem getElem?_valueBytes {i : Nat} (lt : i < pf.bytesPerPixel) (v : Nat) :
    (pf.valueBytes v)[pf.place i]? = some (UInt8.ofNat (v >>> (8 * i))) := by
  have fromEnd := Bytes.getElem?_reverse_ofNat (n := v) lt
  rw [valueBytes, place]
  split
  · rwa [List.getElem?_reverse (by rwa [Bytes.length_ofNat]), Bytes.length_ofNat] at fromEnd
  · exact fromEnd

theorem value_eq (valid : pf.validate = .ok ()) (length : bytes.length = pf.bytesPerPixel) :
    pf.value bytes = Bytes.toNat (if pf.isBigEndian then bytes else bytes.reverse) := by
  have all : bytes.take 4 = bytes := by
    refine List.take_of_length_le ?_
    rw [length]
    exact bytesPerPixel_le valid
  rw [value, all]

theorem value_lt (valid : pf.validate = .ok ()) (length : bytes.length = pf.bytesPerPixel) :
    pf.value bytes < 1 <<< pf.bitsPerPixel.toNat := by
  rw [value_eq valid length, ← pow_bytesPerPixel valid]
  split
  · exact Bytes.toNat_lt length
  · exact Bytes.toNat_lt (List.length_reverse.trans length)

theorem valueBytes_value (valid : pf.validate = .ok ()) (length : bytes.length = pf.bytesPerPixel) :
    pf.valueBytes (pf.value bytes) = bytes := by
  rw [value_eq valid length, valueBytes]
  split
  · exact Bytes.ofNat_toNat length
  · rw [Bytes.ofNat_toNat (List.length_reverse.trans length), List.reverse_reverse]

/-- **Pixel bytes and levels are exact** in every valid format.  The bytes of a pixel and the values
below its width stand for each other one to one, in the format's byte order, and each channel of a
color is scaled as it is meant to be. -/
theorem bytes_and_levels_exact (valid : pf.validate = .ok ()) :
    (∀ v < 1 <<< pf.bitsPerPixel.toNat, pf.value (pf.valueBytes v) = v) ∧
      (∀ bytes, bytes.length = pf.bytesPerPixel →
        pf.value bytes < 1 <<< pf.bitsPerPixel.toNat ∧ pf.valueBytes (pf.value bytes) = bytes) ∧
      (∀ v, ∀ i < pf.bytesPerPixel,
        (pf.valueBytes v)[pf.place i]? = some (UInt8.ofNat (v >>> (8 * i)))) ∧
      (pf.isTrueColor = true → ∀ (v : UInt32) (colors : ColorMap),
        let color := pf.valueColor v.toNat colors
        pf.red.Scaled v color.red ∧ pf.green.Scaled v color.green ∧ pf.blue.Scaled v color.blue ∧
          color.alpha = 255) := by
  refine ⟨fun v small => value_valueBytes valid small, fun bytes length => ?_,
    fun v i lt => getElem?_valueBytes lt v, fun trueColor v colors => ?_⟩
  · exact ⟨value_lt valid length, valueBytes_value valid length⟩
  · obtain ⟨red, green, blue⟩ := shift_lt_of_validate valid trueColor
    rw [valueColor, if_pos trueColor]
    exact ⟨Channel.scaled_scale red v, Channel.scaled_scale green v, Channel.scaled_scale blue v, rfl⟩

/-- The lowest byte of two stands last if the highest comes first, and the highest red is full. -/
theorem bytes_and_levels_exact_rgb565 :
    let pf : PixelFormat := ⟨16, 16, 1, 1, ⟨31, 11⟩, ⟨63, 5⟩, ⟨31, 0⟩⟩
    (pf.validate = .ok () ∧ 0xFAA1 < 1 <<< pf.bitsPerPixel.toNat ∧
      ([0xFA, 0xA1] : Bytes).length = pf.bytesPerPixel ∧ pf.isTrueColor = true) ∧
    pf.value (pf.valueBytes 0xFAA1) = 0xFAA1 ∧
      pf.valueBytes (pf.value [0xFA, 0xA1]) = [0xFA, 0xA1] ∧
      (pf.valueBytes 0xFAA1)[1]? = some 0xA1 ∧ pf.red.Scaled 0xFAA1 255 := by
  intro pf
  have valid : pf.validate = .ok () := rfl
  obtain ⟨values, bytes, places, levels⟩ := bytes_and_levels_exact valid
  have two : ([0xFA, 0xA1] : Bytes).length = pf.bytesPerPixel := by decide
  have lowest := places 0xFAA1 0 (by decide)
  rw [show pf.place 0 = 1 by decide] at lowest
  have full : (pf.valueColor (0xFAA1 : UInt32).toNat .black).red = 255 := by decide
  have red := (levels rfl 0xFAA1 .black).1
  rw [full] at red
  exact ⟨⟨valid, by decide, two, rfl⟩, values 0xFAA1 (by decide), (bytes _ two).2,
    lowest.trans (by decide), red⟩

end PixelFormat

end RemoteFramebuffer
