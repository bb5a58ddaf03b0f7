/-
# `RemoteFramebuffer.Proofs.Encoding.CompactPixel` — a byte that no channel uses can be left out

## What is proved

Of every valid format, color map and pixel, with `form` the compact form of the format
(`loses_nothing`):

    form.read over what is sent of the pixel     takes just that, and gives the pixel's color
    what is sent of it                           three bytes, or the pixel as it is
    three bytes                                  ⟺  a true-color format of four bytes and depth 24
                                                     at most, whose fields all lie in one of

    fields within bits 0 to 23    the highest byte is left out
    fields within bits 8 to 31    the lowest byte is left out

## How it is proved

The bits of every channel lie among the used bits, and those do not reach into the byte left out, so
that a pixel has the color of what was sent of it with 0 in place of that byte.  That fields within
the bounds leave a byte free is told of the mask of used bits (`usedBits_lieIn_iff`), in either byte
order.
-/
import RemoteFramebuffer.Encoding.Zrle
import RemoteFramebuffer.Proofs.Encoding.Painting
import RemoteFramebuffer.Proofs.Pixel.Format

namespace RemoteFramebuffer

namespace CompactPixel

/-! ## Used bits -/

theorem and_left_congr {used part v w : Nat} (within : used &&& part = part)
    (h : v &&& used = w &&& used) : v &&& part = w &&& part := by
  rw [← within, ← Nat.and_assoc, ← Nat.and_assoc, h]

theorem mod_and_used {used : Nat} (low : used < 0x1000000) (v : Nat) :
    v % 0x1000000 &&& used = v &&& used := by
  have cut := @Nat.and_mod_two_pow v used 24
  simp only [Nat.reducePow] at cut
  rw [Nat.mod_eq_of_lt low, Nat.mod_eq_of_lt (Nat.lt_of_le_of_lt Nat.and_le_right low)] at cut
  exact cut.symm

/-- Bits below a mask that leaves out the lowest eight do not matter to it. -/
theorem div_mul_and_used {used : Nat} (high : used % 256 = 0) (v : Nat) :
    v / 256 * 256 &&& used = v &&& used := by
  refine Nat.eq_of_testBit_eq fun i => ?_
  have clear := Nat.testBit_mod_two_pow used 8 i
  have kept := Nat.testBit_mul_two_pow (v / 256) i 8
  have moved := Nat.testBit_div_two_pow (n := 8) v (i - 8)
  simp only [Nat.reducePow] at clear kept moved
  rw [high, Nat.zero_testBit] at clear
  rw [Nat.testBit_and, Nat.testBit_and, kept, moved]
  by_cases below : i < 8
  · have unused : used.testBit i = false := by simpa [below] using clear.symm
    rw [unused, Bool.and_false, Bool.and_false]
  · have place : 8 + (i - 8) = i := by omega
    simp [Nat.le_of_not_lt below, Nat.sub_add_cancel (Nat.le_of_not_lt below)]

variable {pf : PixelFormat}

theorem channelBits_of_fits {c : Channel} {bits : UInt8} (width : bits.toNat ≤ 32)
    (fits : c.fits bits = true) : channelBits c = c.max.toNat <<< c.shift.toNat := by
  rw [Channel.fits, Bool.and_eq_true, decide_eq_true_eq, decide_eq_true_eq,
    UInt8.lt_iff_toNat_lt] at fits
  have whole : 1 <<< bits.toNat ≤ 0x100000000 := by
    rw [Nat.one_shiftLeft]
    exact Nat.pow_le_pow_right (by decide) width
  have shift : c.shift < 32 := UInt8.lt_iff_toNat_lt.mpr (Nat.lt_of_lt_of_le fits.1 width)
  rw [channelBits, if_pos shift, Nat.mod_eq_of_lt (Nat.lt_of_lt_of_le fits.2 whole)]

/-- **Colors come from the used bits.**  Values that agree on them have the same color. -/
theorem valueColor_eq_of_used (valid : pf.validate = .ok ()) (color : pf.isTrueColor = true)
    (colors : ColorMap) {v w : Nat} (h : v &&& usedBits pf = w &&& usedBits pf) :
    pf.valueColor v colors = pf.valueColor w colors := by
  obtain ⟨-, -, channels⟩ := PixelFormat.validate_eq_ok.mp valid
  obtain ⟨red, green, blue⟩ := channels color
  have width := PixelFormat.bitsPerPixel_le_of_validate valid
  have component {c : Channel} (fits : c.fits pf.bitsPerPixel = true)
      (within : usedBits pf &&& channelBits c = channelBits c) :
      c.component v = c.component w := by
    rw [c.component_eq, c.component_eq, ← channelBits_of_fits width fits, and_left_congr within h]
  refine pf.valueColor_congr colors color (component red ?_) (component green ?_)
    (component blue ?_)
  all_goals
    refine Nat.eq_of_testBit_eq fun i => ?_
    simp only [usedBits, Nat.testBit_and, Nat.testBit_or]
    grind

/-! ## What is sent of a pixel -/

def sent : CompactPixel → Bytes → Bytes
  | .full, bytes => bytes
  | .first, bytes => bytes.take 3
  | .last, bytes => bytes.drop 1

/-- The byte left out is the highest or the lowest, and the used bits are not in it. -/
theorem and_used_of_ofFormat {a b c d : UInt8} :
    (ofFormat pf = .first → pf.value [a, b, c, 0] &&& usedBits pf =
      pf.value [a, b, c, d] &&& usedBits pf) ∧
    (ofFormat pf = .last → pf.value [0, b, c, d] &&& usedBits pf =
      pf.value [a, b, c, d] &&& usedBits pf) := by
  have := a.toNat_lt
  have := b.toNat_lt
  have := c.toNat_lt
  have := d.toNat_lt
  have lowest {n : Nat} (high : usedBits pf % 256 = 0) {m : Nat} (eq : m = n / 256 * 256) :
      m &&& usedBits pf = n &&& usedBits pf := eq ▸ div_mul_and_used high n
  have highest {n : Nat} (low : usedBits pf < 0x1000000) {m : Nat} (eq : m = n % 0x1000000) :
      m &&& usedBits pf = n &&& usedBits pf := eq ▸ mod_and_used low n
  have value_big (big : pf.isBigEndian = true) (p q r s : UInt8) : pf.value [p, q, r, s] =
      ((p.toNat * 256 + q.toNat) * 256 + r.toNat) * 256 + s.toNat := by
    simp [PixelFormat.value, big, Bytes.toNat]
  have value_little (little : ¬ pf.isBigEndian = true) (p q r s : UInt8) :
      pf.value [p, q, r, s] =
        ((s.toNat * 256 + r.toNat) * 256 + q.toNat) * 256 + p.toNat := by
    simp [PixelFormat.value, little, Bytes.toNat]
  unfold ofFormat
  by_cases big : pf.isBigEndian = true
  · simp only [value_big big, big, UInt8.toNat_zero]
    grind
  · simp only [value_little big, big, UInt8.toNat_zero]
    grind

theorem ofFormat_compact {form : CompactPixel} (h : ofFormat pf = form) (ne : form ≠ .full) :
    pf.bytesPerPixel = 4 ∧ pf.isTrueColor = true := by
  by_cases compact : pf.bytesPerPixel = 4 ∧ pf.isTrueColor = true
  · exact compact
  · have full : ofFormat pf = .full := if_pos (by grind)
    exact absurd (h.symm.trans full) ne

theorem takes_three {bytes : Bytes} (h : bytes.length = 3) : read.three.Takes bytes bytes := by
  obtain ⟨all, eq, rfl⟩ := (Guarded.safe_first (Nat.le_of_eq h.symm)).eq_ok
  rw [List.take_of_length_le (Nat.le_of_eq h)] at eq
  refine (Payload.takes_take h).bind_nil ?_
  exact Payload.takes_guarded eq

/-- **A compact pixel has its color.**  It is read from what was sent of it. -/
theorem takes_read {style : Style} (valid : style.format.validate = .ok ())
    (pixel : style.format.Pixel) :
    ((ofFormat style.format).read style).Takes ((ofFormat style.format).sent pixel.bytes)
      (style.color pixel.bytes) := by
  obtain ⟨bytes, length⟩ := pixel
  have four (size : style.format.bytesPerPixel = 4) : ∃ a b c d, bytes = [a, b, c, d] := by
    rw [size] at length
    match bytes, length with
    | [a, b, c, d], _ => exact ⟨a, b, c, d, rfl⟩
  cases form : ofFormat style.format with
  | full => exact (Payload.takes_take length).map _
  | first =>
      obtain ⟨size, color⟩ := ofFormat_compact form nofun
      obtain ⟨a, b, c, d, rfl⟩ := four size
      have same : style.color ([a, b, c] ++ [0]) = style.color [a, b, c, d] :=
        valueColor_eq_of_used valid color style.colors (and_used_of_ofFormat.1 form)
      rw [← same]
      exact (takes_three rfl).map fun sent => style.color (sent ++ [0])
  | last =>
      obtain ⟨size, color⟩ := ofFormat_compact form nofun
      obtain ⟨a, b, c, d, rfl⟩ := four size
      have same : style.color (0 :: [b, c, d]) = style.color [a, b, c, d] :=
        valueColor_eq_of_used valid color style.colors (and_used_of_ofFormat.2 form)
      rw [← same]
      exact (takes_three rfl).map fun sent => style.color (0 :: sent)

/-! ## When a byte is left out -/

theorem lt_one_shiftLeft_iff {n k : Nat} : n < 1 <<< k ↔ ∀ i, n.testBit i = true → i < k := by
  rw [Nat.one_shiftLeft]
  constructor
  · intro small i set
    refine Nat.lt_of_not_le fun past => ?_
    have clear := Nat.testBit_lt_two_pow
      (Nat.lt_of_lt_of_le small (Nat.pow_le_pow_right (by decide) past))
    cases clear.symm.trans set
  · intro low
    refine Nat.lt_pow_two_of_testBit n fun i past => ?_
    rw [← Bool.not_eq_true]
    intro set
    exact absurd (low i set) (Nat.not_lt.mpr past)

/-- A number is a multiple of a power of two if none of its bits stands below. -/
theorem mod_one_shiftLeft_eq_zero_iff {n k : Nat} :
    n % 1 <<< k = 0 ↔ ∀ i, n.testBit i = true → k ≤ i := by
  rw [Nat.one_shiftLeft]
  constructor
  · intro clear i set
    have bit := Nat.testBit_mod_two_pow n k i
    rw [clear, Nat.zero_testBit, set, Bool.and_true] at bit
    simpa using bit.symm
  · intro high
    refine Nat.eq_of_testBit_eq fun i => ?_
    rw [Nat.testBit_mod_two_pow, Nat.zero_testBit, Bool.and_eq_false_imp]
    intro below
    rw [← Bool.not_eq_true]
    intro set
    exact absurd (high i set) (Nat.not_le.mpr (by simpa using below))

theorem usedBits_lieIn_iff (valid : pf.validate = .ok ()) (color : pf.isTrueColor = true)
    (low high : Nat) :
    (∀ i, (usedBits pf).testBit i = true → low ≤ i ∧ i < high) ↔
      ∀ c ∈ pf.channels, c.LiesIn low high := by
  obtain ⟨-, -, channels⟩ := PixelFormat.validate_eq_ok.mp valid
  obtain ⟨red, green, blue⟩ := channels color
  have width := PixelFormat.bitsPerPixel_le_of_validate valid
  have used (i : Nat) : (usedBits pf).testBit i = true ↔
      ∃ c ∈ pf.channels, c.field.testBit i = true := by
    rw [usedBits, channelBits_of_fits width red, channelBits_of_fits width green,
      channelBits_of_fits width blue]
    simp [PixelFormat.channels, Channel.field, or_assoc]
  constructor
  · intro within c mem i set
    exact within i ((used i).mpr ⟨c, mem, set⟩)
  · intro within i set
    obtain ⟨c, mem, set⟩ := (used i).mp set
    exact within c mem i set

theorem lt_of_usedBits (valid : pf.validate = .ok ()) (color : pf.isTrueColor = true) {i : Nat}
    (set : (usedBits pf).testBit i = true) : i < 32 := by
  obtain ⟨-, -, channels⟩ := PixelFormat.validate_eq_ok.mp valid
  obtain ⟨red, green, blue⟩ := channels color
  have width := PixelFormat.bitsPerPixel_le_of_validate valid
  have word {c : Channel} (fits : c.fits pf.bitsPerPixel = true) : c.LiesIn 0 32 := by
    rw [Channel.fits, Bool.and_eq_true, decide_eq_true_eq, decide_eq_true_eq] at fits
    intro i set
    exact ⟨Nat.zero_le i, Nat.lt_of_lt_of_le (lt_one_shiftLeft_iff.mp fits.2 i set) width⟩
  refine ((usedBits_lieIn_iff valid color 0 32).mpr ?_ i set).2
  simp only [PixelFormat.channels, List.forall_mem_cons]
  exact ⟨word red, word green, word blue, List.forall_mem_nil _⟩

/-- A byte is left out of a true-color pixel of four bytes and of depth 24 at most, if the fields
all lie in its low 24 bits or all in its high ones. -/
theorem ofFormat_ne_full_iff (valid : pf.validate = .ok ()) :
    ofFormat pf ≠ .full ↔ pf.isTrueColor = true ∧ pf.bytesPerPixel = 4 ∧ pf.depth ≤ 24 ∧
      ((∀ c ∈ pf.channels, c.LiesIn 0 24) ∨ ∀ c ∈ pf.channels, c.LiesIn 8 32) := by
  by_cases color : pf.isTrueColor = true
  · have low : usedBits pf < 0x1000000 ↔ ∀ c ∈ pf.channels, c.LiesIn 0 24 := by
      rw [← usedBits_lieIn_iff valid color, show 0x1000000 = 1 <<< 24 from rfl,
        lt_one_shiftLeft_iff]
      simp only [Nat.zero_le, true_and]
    have high : usedBits pf % 256 = 0 ↔ ∀ c ∈ pf.channels, c.LiesIn 8 32 := by
      rw [← usedBits_lieIn_iff valid color, show 256 = 1 <<< 8 from rfl,
        mod_one_shiftLeft_eq_zero_iff]
      exact forall_congr' fun i => ⟨fun above set => ⟨above set, lt_of_usedBits valid color set⟩,
        fun within set => (within set).1⟩
    rw [← low, ← high]
    unfold ofFormat
    grind
  · have full : ofFormat pf = .full := if_pos (.inr (.inr color))
    exact ⟨fun ne => absurd full ne, fun compact => absurd compact.1 color⟩

theorem length_sent {pixel : pf.Pixel} (compact : ofFormat pf ≠ .full) :
    ((ofFormat pf).sent pixel.bytes).length = 3 := by
  have length := pixel.length_bytes
  cases form : ofFormat pf with
  | full => exact absurd form compact
  | first =>
      rw [(ofFormat_compact form nofun).1] at length
      simp [sent, length]
  | last =>
      rw [(ofFormat_compact form nofun).1] at length
      simp [sent, length]

/-- **Compact pixels lose nothing.**  With any valid format and color map, reading what is sent of
a pixel takes just that, whatever follows, and gives the color of the whole pixel.  Three bytes
are sent of a true-color pixel of four bytes, of depth 24 at most, whose fields all lie in the
low 24 bits of its value or all in the high 24 bits; of any other pixel all bytes are sent. -/
theorem loses_nothing {style : Style} (valid : style.format.validate = .ok ())
    (pixel : style.format.Pixel) :
    let form := ofFormat style.format
    (form.read style).Takes (form.sent pixel.bytes) (style.color pixel.bytes) ∧
      (form = .full ∨ (form.sent pixel.bytes).length = 3) ∧
      (form ≠ .full ↔ style.format.isTrueColor = true ∧ style.format.bytesPerPixel = 4 ∧
        style.format.depth ≤ 24 ∧ ((∀ c ∈ style.format.channels, c.LiesIn 0 24) ∨
          ∀ c ∈ style.format.channels, c.LiesIn 8 32)) := by
  intro form
  refine ⟨takes_read valid pixel, ?_, ofFormat_ne_full_iff valid⟩
  by_cases full : form = .full
  · exact .inl full
  · exact .inr (length_sent full)

/-- Red highest, with the lowest byte unused and sent last. -/
def highFields : PixelFormat := ⟨32, 24, 1, 1, ⟨255, 24⟩, ⟨255, 16⟩, ⟨255, 8⟩⟩

theorem loses_nothing_highFields :
    highFields.validate = .ok () ∧ ofFormat highFields = .first ∧
      ((ofFormat highFields).read ⟨highFields, .black⟩).Takes [1, 2, 3]
        ((Style.mk highFields .black).color [1, 2, 3, 9]) := by
  have valid : (Style.mk highFields .black).format.validate = .ok () := rfl
  have length : ([1, 2, 3, 9] : Bytes).length = highFields.bytesPerPixel := rfl
  exact ⟨valid, by decide, (@loses_nothing ⟨highFields, .black⟩ valid ⟨[1, 2, 3, 9], length⟩).1⟩

end CompactPixel

end RemoteFramebuffer
