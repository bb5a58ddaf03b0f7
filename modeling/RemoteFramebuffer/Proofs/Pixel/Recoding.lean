/-
# `RemoteFramebuffer.Proofs.Pixel.Recoding` — what is left of a pixel that was decoded and encoded

A component `v` of a channel of maximum `m` is scaled to `v * 255 / m` and that back to
`v * 255 / m * m / 255`, both rounded down.  What the first rounding takes away is below `m`, so
with a maximum of 255 at most it costs the second one step or none:

    m ∣ v * 255      v       nothing was rounded
    otherwise        v - 1

For fields of 1, 2, 4 and 8 bits the first row holds of every component, since `m` divides 255.
For those of 3, 5 and 7 bits it holds of the lowest and the highest component alone, and of 6 bits
of each that is a multiple of 21.
-/
import RemoteFramebuffer.Proofs.Pixel.Format

namespace RemoteFramebuffer

/-! ## One component -/

namespace Channel

variable {c : Channel} {v : Nat}

/-- The component that is left of one that was scaled to eight bits and back. -/
def kept (c : Channel) (component : Nat) : Nat :=
  if c.max.toNat ∣ component * 255 then component else component - 1

theorem kept_le (le : v ≤ c.max.toNat) : c.kept v ≤ c.max.toNat := by
  rw [kept]
  split <;> omega

theorem pos_of_rounded (rounded : ¬ c.max.toNat ∣ v * 255) : 0 < v := by
  refine Nat.pos_of_ne_zero fun zero => rounded ?_
  rw [zero, Nat.zero_mul]
  exact Nat.dvd_zero _

theorem kept_eq_self_iff : c.kept v = v ↔ c.max.toNat ∣ v * 255 := by
  rw [kept]
  split
  · rename_i exactly
    exact iff_of_true rfl exactly
  · rename_i rounded
    have pos := pos_of_rounded rounded
    exact iff_of_false (by omega) rounded

/-- **Two roundings cost one step at most.** -/
theorem scaled_back (le : v ≤ c.max.toNat) (small : c.max.toNat ≤ 255) :
    (c.level v).toNat * c.max.toNat / 255 = c.kept v := by
  rw [toNat_level le, kept]
  have whole := Nat.div_add_mod' (v * 255) c.max.toNat
  generalize v * 255 / c.max.toNat * c.max.toNat = scaled at whole ⊢
  split
  · rename_i exactly
    rw [Nat.mod_eq_zero_of_dvd exactly] at whole
    omega
  · rename_i rounded
    have lost : 0 < v * 255 % c.max.toNat :=
      Nat.pos_of_ne_zero fun none => rounded (Nat.dvd_of_mod_eq_zero none)
    have few : v * 255 % c.max.toNat < c.max.toNat :=
      Nat.mod_lt _ (Nat.lt_of_lt_of_le (pos_of_rounded rounded) le)
    omega

theorem place_level (le : v ≤ c.max.toNat) (small : c.max.toNat ≤ 255)
    (fits : c.kept v <<< c.shift.toNat < 0x100000000) :
    c.place (c.level v) = c.kept v <<< c.shift.toNat := by
  rw [place, scaled_back le small, Nat.mod_eq_of_lt fits]

theorem component_shiftLeft (c : Channel) (value : Nat) :
    c.component value <<< c.shift.toNat = value &&& c.field := by
  refine Nat.eq_of_testBit_eq fun i => ?_
  rw [component, field, Nat.testBit_shiftLeft, Nat.testBit_and, Nat.testBit_and,
    Nat.testBit_shiftRight, Nat.testBit_shiftLeft]
  by_cases high : c.shift.toNat ≤ i
  · rw [Nat.add_sub_cancel' high, decide_eq_true high, Bool.true_and, Bool.true_and]
  · rw [decide_eq_false high, Bool.false_and, Bool.false_and, Bool.and_false]

/-- Fields of so many bits keep every component, since their maximum is 0 or divides 255. -/
theorem dvd_of_mem (width : c.max ∈ ([0, 1, 3, 15, 255] : List UInt16)) (le : v ≤ c.max.toNat) :
    c.max.toNat ∣ v * 255 := by
  simp only [List.mem_cons, List.not_mem_nil, or_false] at width
  rcases width with eq | eq | eq | eq | eq <;> rw [eq] at le ⊢
  · rw [Nat.le_zero.mp le]
    decide
  all_goals exact Nat.dvd_mul_left_of_dvd (by decide) v

end Channel

/-! ## Pixels -/

namespace PixelFormat

variable {pf : PixelFormat} {v : Nat}

/-- The bits of a pixel value that belong to a channel. -/
def mask (pf : PixelFormat) : Nat := pf.red.field ||| pf.green.field ||| pf.blue.field

/-- The pixel value with what two roundings leave of each component. -/
def recoded (pf : PixelFormat) (value : Nat) : Nat :=
  pf.join (pf.red.kept (pf.red.component value)) (pf.green.kept (pf.green.component value))
    (pf.blue.kept (pf.blue.component value))

/-- A value of channel bits alone is put together from its components. -/
theorem join_component (only : v &&& pf.mask = v) :
    pf.join (pf.red.component v) (pf.green.component v) (pf.blue.component v) = v := by
  rw [join, Channel.component_shiftLeft, Channel.component_shiftLeft, Channel.component_shiftLeft,
    ← Nat.and_or_distrib_left, ← Nat.and_or_distrib_left]
  exact only

theorem valueBytes_inj (valid : pf.validate = .ok ()) {w : Nat}
    (hv : v < 1 <<< pf.bitsPerPixel.toNat) (hw : w < 1 <<< pf.bitsPerPixel.toNat) :
    pf.valueBytes v = pf.valueBytes w ↔ v = w := by
  refine ⟨fun same => ?_, congrArg pf.valueBytes⟩
  rw [← value_valueBytes valid hv, same, value_valueBytes valid hw]

theorem recoded_lt (valid : pf.validate = .ok ()) (color : pf.isTrueColor = true) (v : Nat) :
    pf.recoded v < 1 <<< pf.bitsPerPixel.toNat :=
  join_lt valid color (Channel.kept_le (Channel.component_le _ _))
    (Channel.kept_le (Channel.component_le _ _)) (Channel.kept_le (Channel.component_le _ _))

theorem encodeColor_valueColor (valid : pf.validate = .ok ()) (color : pf.isTrueColor = true)
    (small : ∀ c ∈ pf.channels, c.max.toNat ≤ 255) (colors : ColorMap) (v : Nat) :
    pf.encodeColor (pf.valueColor v colors) = pf.valueBytes (pf.recoded v) := by
  simp only [channels, List.forall_mem_cons] at small
  obtain ⟨smallRed, smallGreen, smallBlue, -⟩ := small
  have red := Channel.component_le pf.red v
  have green := Channel.component_le pf.green v
  have blue := Channel.component_le pf.blue v
  obtain ⟨fitsRed, fitsGreen, fitsBlue⟩ := placed_lt valid color (Channel.kept_le red)
    (Channel.kept_le green) (Channel.kept_le blue)
  rw [encodeColor, valueColor, if_pos color]
  dsimp only
  rw [Channel.scale_eq_level, Channel.scale_eq_level, Channel.scale_eq_level,
    Channel.place_level red smallRed (lt_of_validate valid fitsRed),
    Channel.place_level green smallGreen (lt_of_validate valid fitsGreen),
    Channel.place_level blue smallBlue (lt_of_validate valid fitsBlue), recoded, join]

/-- Nothing is lost of a pixel just if no component of it is rounded. -/
theorem recoded_eq_self_iff (regular : pf.Regular) (only : v &&& pf.mask = v) :
    pf.recoded v = v ↔ ∀ c ∈ pf.channels, c.max.toNat ∣ c.component v * 255 := by
  have red := Channel.component_le pf.red v
  have green := Channel.component_le pf.green v
  have blue := Channel.component_le pf.blue v
  simp only [channels, List.forall_mem_cons, List.not_mem_nil, false_implies, implies_true,
    and_true]
  rw [← Channel.kept_eq_self_iff, ← Channel.kept_eq_self_iff, ← Channel.kept_eq_self_iff]
  constructor
  · intro same
    obtain ⟨keptRed, keptGreen, keptBlue⟩ := component_join regular (Channel.kept_le red)
      (Channel.kept_le green) (Channel.kept_le blue)
    rw [← recoded, same] at keptRed keptGreen keptBlue
    exact ⟨keptRed.symm, keptGreen.symm, keptBlue.symm⟩
  · rintro ⟨keptRed, keptGreen, keptBlue⟩
    rw [recoded, keptRed, keptGreen, keptBlue, join_component only]

/-- **Decoding a pixel and encoding its color** gives each channel its component back, or the one
below if scaling rounded it.  So the bytes come back the same just if in each channel the maximum
divides 255 times the component, and for fields of 0, 1, 2, 4 and 8 bits they always do. -/
theorem recoding_exact (valid : pf.validate = .ok ()) (color : pf.isTrueColor = true)
    (regular : pf.Regular) (small : ∀ c ∈ pf.channels, c.max.toNat ≤ 255) (colors : ColorMap)
    (only : v &&& pf.mask = v) :
    let bytes := pf.valueBytes v
    pf.encodeColor (pf.color bytes colors) = pf.valueBytes (pf.recoded v) ∧
      (pf.encodeColor (pf.color bytes colors) = bytes ↔
        ∀ c ∈ pf.channels, c.max.toNat ∣ c.component v * 255) ∧
      ((∀ c ∈ pf.channels, c.max ∈ ([0, 1, 3, 15, 255] : List UInt16)) →
        pf.encodeColor (pf.color bytes colors) = bytes) := by
  intro bytes
  have within : v < 1 <<< pf.bitsPerPixel.toNat := by
    rw [← join_component only]
    exact join_lt valid color (Channel.component_le _ _) (Channel.component_le _ _)
      (Channel.component_le _ _)
  have recodes : pf.encodeColor (pf.color bytes colors) = pf.valueBytes (pf.recoded v) := by
    rw [PixelFormat.color, value_valueBytes valid within]
    exact encodeColor_valueColor valid color small colors v
  have stable : pf.encodeColor (pf.color bytes colors) = bytes ↔
      ∀ c ∈ pf.channels, c.max.toNat ∣ c.component v * 255 := by
    rw [recodes, valueBytes_inj valid (recoded_lt valid color v) within,
      recoded_eq_self_iff regular only]
  exact ⟨recodes, stable, fun widths => stable.mpr fun c mem =>
    Channel.dvd_of_mem (widths c mem) (Channel.component_le c v)⟩

theorem regular_of_bits {r g b : Nat} (red : pf.red.max.toNat + 1 = 1 <<< r)
    (green : pf.green.max.toNat + 1 = 1 <<< g) (blue : pf.blue.max.toNat + 1 = 1 <<< b)
    (disjoint : pf.channels.Pairwise fun c d => c.field &&& d.field = 0) : pf.Regular := by
  refine ⟨?_, disjoint⟩
  simp only [channels, List.forall_mem_cons, List.not_mem_nil, false_implies, implies_true,
    and_true]
  exact ⟨⟨r, red⟩, ⟨g, green⟩, ⟨b, blue⟩⟩

/-- Fields of five, six and five bits, red highest. -/
def rgb565 : PixelFormat := ⟨16, 16, 0, 1, ⟨31, 11⟩, ⟨63, 5⟩, ⟨31, 0⟩⟩

/-- The highest red and a green that is a multiple of 21 come back, and the lowest blue above 0
does not. -/
theorem recoding_exact_rgb565 :
    (rgb565.validate = .ok () ∧ rgb565.isTrueColor = true ∧ rgb565.Regular ∧
      (∀ c ∈ rgb565.channels, c.max.toNat ≤ 255) ∧ 0xFAA1 &&& rgb565.mask = 0xFAA1) ∧
    rgb565.valueBytes 0xFAA1 = [0xA1, 0xFA] ∧
      rgb565.encodeColor (rgb565.color [0xA1, 0xFA] .black) = [0xA0, 0xFA] := by
  have valid : rgb565.validate = .ok () := rfl
  have regular : rgb565.Regular :=
    regular_of_bits (show 31 + 1 = 1 <<< 5 from rfl) (show 63 + 1 = 1 <<< 6 from rfl)
      (show 31 + 1 = 1 <<< 5 from rfl) (by decide)
  have small : ∀ c ∈ rgb565.channels, c.max.toNat ≤ 255 := by decide
  have only : 0xFAA1 &&& rgb565.mask = 0xFAA1 := by decide
  have bytes : rgb565.valueBytes 0xFAA1 = [0xA1, 0xFA] := by decide
  have recodes := (recoding_exact valid rfl regular small .black only).1
  rw [bytes] at recodes
  exact ⟨⟨valid, rfl, regular, small, only⟩, bytes, recodes.trans (by decide)⟩

/-- The lowest blue above 0 of a format with fields of five bits comes back as black. -/
theorem one_step_lost :
    (aten.validate = .ok () ∧ aten.isTrueColor = true ∧ aten.Regular ∧
      (∀ c ∈ aten.channels, c.max.toNat ≤ 255) ∧ 1 &&& aten.mask = 1) ∧
    aten.encodeColor (aten.color (aten.valueBytes 1) .black) ≠ aten.valueBytes 1 := by
  have five : 31 + 1 = 1 <<< 5 := rfl
  have regular : aten.Regular := regular_of_bits five five five (by decide)
  exact ⟨⟨rfl, rfl, regular, by decide, by decide⟩, by decide⟩

end PixelFormat

end RemoteFramebuffer
