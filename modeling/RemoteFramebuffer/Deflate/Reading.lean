/-
# `RemoteFramebuffer.Deflate.Reading` — a step of a stream reads a piece and no further

What a step reads is at the front of the bits at hand, and bits behind it change nothing.

    step bits = next  p rest o    →    step (bits ++ more) = next p (rest ++ more) o
    step bits = invalid           →    step (bits ++ more) = invalid

So a step that is short waits for bits that it does need.  `Reads least step` says this of a step
together with how much it reads at least and what may come of it; it is closed under the ways in
which steps are built from numbers and symbols.  What is behind has to be whole bytes, for the
sake of the steps that go on from a byte boundary.
-/
import RemoteFramebuffer.Deflate.Block

namespace RemoteFramebuffer

variable {bits more rest : List Bool} {value : Nat}

/-! ## Symbols -/

namespace Huffman

/-- A symbol is spelled by the front of the bits, whatever is behind it. -/
theorem walk_found {tree : Huffman} (h : tree.walk bits = .found value rest) :
    ∃ word, bits = word ++ rest ∧ ∀ more, tree.walk (word ++ more) = .found value more := by
  induction tree generalizing bits with
  | dead => simp only [walk, reduceCtorEq] at h
  | symbol =>
      rw [walk] at h
      cases h
      exact ⟨[], rfl, fun more => by rw [List.nil_append, walk]⟩
  | fork zero one ihZero ihOne =>
      cases bits with
      | nil => cases h
      | cons b bits =>
          cases b
          · obtain ⟨word, rfl, spells⟩ := ihZero h
            exact ⟨false :: word, rfl, spells⟩
          · obtain ⟨word, rfl, spells⟩ := ihOne h
            exact ⟨true :: word, rfl, spells⟩

theorem walk_append_invalid {tree : Huffman} (h : tree.walk bits = .invalid) :
    tree.walk (bits ++ more) = .invalid := by
  induction tree generalizing bits with
  | dead => simp only [walk]
  | symbol =>
      rw [walk] at h
      cases h
  | fork zero one ihZero ihOne =>
      cases bits with
      | nil => cases h
      | cons b bits =>
          cases b
          · exact ihZero h
          · exact ihOne h

end Huffman

namespace PrefixCode

variable {code : PrefixCode}

theorem walk_found (h : code.walk bits = .found value rest) :
    ∃ word, bits = word ++ rest ∧ 1 ≤ word.length ∧
      ∀ more, code.walk (word ++ more) = .found value more := by
  cases bits with
  | nil => cases h
  | cons b bits =>
      obtain ⟨word, rfl, spells⟩ := Huffman.walk_found h
      exact ⟨b :: word, rfl, Nat.succ_pos _, spells⟩

theorem walk_append_invalid (h : code.walk bits = .invalid) :
    code.walk (bits ++ more) = .invalid := by
  cases bits with
  | nil => cases h
  | cons b bits => exact Huffman.walk_append_invalid h

end PrefixCode

namespace Deflate

/-! ## Numbers -/

theorem number_lt (bits : Bits) : number bits < 1 <<< bits.length := by
  induction bits with
  | nil => decide
  | cons b bits ih =>
      have bit : b.toNat ≤ 1 := Bool.toNat_le b
      show b.toNat + 2 * number bits < 1 <<< (bits.length + 1)
      rw [Nat.shiftLeft_succ]
      omega

theorem take?_append (piece rest : Bits) :
    take? piece.length (piece ++ rest) = some (number piece, rest) := by
  rw [take?, List.take_left, List.drop_left]
  exact if_neg (Nat.lt_irrefl _)

theorem take?_eq_some {width n : Nat} (h : take? width bits = some (n, rest)) :
    ∃ piece, bits = piece ++ rest ∧ piece.length = width ∧ number piece = n := by
  unfold take? at h
  dsimp only at h
  split at h
  · cases h
  · rename_i long
    cases h
    refine ⟨bits.take width, (List.take_append_drop ..).symm, ?_, rfl⟩
    exact Nat.le_antisymm (List.length_take_le ..) (Nat.le_of_not_lt long)

theorem align_append (whole : 8 ∣ more.length) : align (bits ++ more) = align bits ++ more := by
  obtain ⟨n, whole⟩ := whole
  have same : (bits ++ more).length % 8 = bits.length % 8 := by
    rw [List.length_append, whole, Nat.add_mul_mod_self_left]
  rw [align, same, List.drop_append_of_le_length (Nat.mod_le _ _), align]

/-! ## Pieces -/

def Output.size : Output → Nat
  | .literal _ => 1
  | .copy length _ => length

def maxMatch : Nat := 258

/-- Reads a piece of `least` bits or more from the front, whatever whole bytes are behind it. -/
structure Reads (least : Nat) (step : Bits → Step) : Prop where
  piece : ∀ {bits phase rest output}, step bits = .next phase rest output →
    ∃ piece, bits = piece ++ rest ∧ least ≤ piece.length
  small : ∀ {bits phase rest output}, step bits = .next phase rest (some output) →
    output.size ≤ maxMatch
  next_append : ∀ {bits more phase rest output}, 8 ∣ more.length →
    step bits = .next phase rest output → step (bits ++ more) = .next phase (rest ++ more) output
  invalid_append : ∀ {bits more}, 8 ∣ more.length → step bits = .invalid →
    step (bits ++ more) = .invalid

namespace Reads

variable {least least' width : Nat} {step : Bits → Step}

theorem mono (h : Reads least step) (le : least' ≤ least) : Reads least' step where
  piece eq :=
    let ⟨piece, split, long⟩ := h.piece eq
    ⟨piece, split, Nat.le_trans le long⟩
  small := h.small
  next_append := h.next_append
  invalid_append := h.invalid_append

theorem invalid : Reads least fun _ => .invalid where
  piece := nofun
  small := nofun
  next_append _ := nofun
  invalid_append _ _ := rfl

theorem short : Reads least fun _ => .short where
  piece := nofun
  small := nofun
  next_append _ := nofun
  invalid_append _ := nofun

theorem next {phase : Phase} {output : Option Output}
    (small : ∀ o, output = some o → o.size ≤ maxMatch) :
    Reads 0 fun rest => .next phase rest output where
  piece eq := by
    cases eq
    exact ⟨[], rfl, Nat.le_refl _⟩
  small eq := by
    cases eq
    exact small _ rfl
  next_append _ eq := by
    cases eq
    rfl
  invalid_append _ := nofun

theorem quiet {phase? : Option Phase} : Reads 0 (Phase.quiet phase?) := by
  cases phase? with
  | none => exact invalid
  | some phase => exact next nofun

theorem aligned (h : Reads least step) : Reads least fun bits => step (align bits) where
  piece {bits _ _ _} eq := by
    obtain ⟨piece, split, long⟩ := h.piece eq
    refine ⟨bits.take (bits.length % 8) ++ piece, ?_, ?_⟩
    · rw [List.append_assoc, ← split, align, List.take_append_drop]
    · rw [List.length_append]
      omega
  small := h.small
  next_append whole eq := by
    rw [align_append whole]
    exact h.next_append whole eq
  invalid_append whole eq := by
    rw [align_append whole]
    exact h.invalid_append whole eq

/-- A step that takes a piece of `width` bits or more, if one is there, and goes on as its value
says. -/
theorem of_piece {α : Type} (S : Bits → α → Prop) (goOn : α → Bits → Step)
    (long : ∀ {piece a}, S piece a → width ≤ piece.length)
    (taken : ∀ {piece a}, S piece a → ∀ mid, step (piece ++ mid) = goOn a mid)
    (first : ∀ bits, (∃ piece mid a, bits = piece ++ mid ∧ S piece a) ∨ step bits = .short ∨
      ∀ more, step (bits ++ more) = .invalid)
    (h : ∀ {piece a}, S piece a → Reads least (goOn a)) : Reads (width + least) step where
  piece {bits _ _ _} eq := by
    obtain ⟨piece, mid, a, rfl, spells⟩ | short | invalid := first bits
    · rw [taken spells] at eq
      obtain ⟨piece', rfl, long'⟩ := (h spells).piece eq
      refine ⟨piece ++ piece', (List.append_assoc ..).symm, ?_⟩
      rw [List.length_append]
      exact Nat.add_le_add (long spells) long'
    · cases short.symm.trans eq
    · cases (invalid []).symm.trans ((congrArg step (List.append_nil bits)).trans eq)
  small {bits _ _ _} eq := by
    obtain ⟨piece, mid, a, rfl, spells⟩ | short | invalid := first bits
    · exact (h spells).small ((taken spells mid).symm.trans eq)
    · cases short.symm.trans eq
    · cases (invalid []).symm.trans ((congrArg step (List.append_nil bits)).trans eq)
  next_append {bits more _ _ _} whole eq := by
    obtain ⟨piece, mid, a, rfl, spells⟩ | short | invalid := first bits
    · rw [List.append_assoc, taken spells]
      exact (h spells).next_append whole ((taken spells mid).symm.trans eq)
    · cases short.symm.trans eq
    · cases (invalid []).symm.trans ((congrArg step (List.append_nil bits)).trans eq)
  invalid_append {bits more} whole eq := by
    obtain ⟨piece, mid, a, rfl, spells⟩ | short | invalid := first bits
    · rw [List.append_assoc, taken spells]
      exact (h spells).invalid_append whole ((taken spells mid).symm.trans eq)
    · cases short.symm.trans eq
    · exact invalid more

theorem withNumber {next : Nat → Bits → Step} (h : ∀ n, n < 1 <<< width → Reads least (next n)) :
    Reads (width + least) fun bits => Phase.withNumber width bits next := by
  refine of_piece (fun piece n => piece.length = width ∧ number piece = n) next
    (fun spells => Nat.le_of_eq spells.1.symm) ?_ (fun bits => ?_) ?_
  · rintro piece _ ⟨rfl, rfl⟩ mid
    rw [Phase.withNumber, take?_append]
  · cases taken : take? width bits with
    | none => exact .inr (.inl (by rw [Phase.withNumber, taken]))
    | some out =>
        obtain ⟨piece, split, spells⟩ := take?_eq_some taken
        exact .inl ⟨piece, _, _, split, spells⟩
  · rintro piece _ ⟨rfl, rfl⟩
    exact h _ (number_lt piece)

theorem withSymbol {code : PrefixCode} {next : Nat → Bits → Step}
    (h : ∀ value, Reads 0 (next value)) :
    Reads 1 fun bits => Phase.withSymbol code bits next := by
  show Reads (1 + 0) _
  refine of_piece (fun word value => 1 ≤ word.length ∧
      ∀ more, code.walk (word ++ more) = .found value more) next
    (fun spells => spells.1) (fun spells mid => ?_) (fun bits => ?_) fun _ => h _
  · rw [Phase.withSymbol, spells.2 mid]
  · cases walked : code.walk bits with
    | found value mid =>
        obtain ⟨word, split, spells⟩ := PrefixCode.walk_found walked
        exact .inl ⟨word, mid, value, split, spells⟩
    | short => exact .inr (.inl (by rw [Phase.withSymbol, walked]))
    | invalid =>
        refine .inr (.inr fun more => ?_)
        rw [Phase.withSymbol, PrefixCode.walk_append_invalid walked]

end Reads

/-! ## Phases -/

namespace Phase

theorem reads_stepDistance {last : Bool} {codes : Codes} {length : Nat}
    (small : length ≤ maxMatch) : Reads 1 (stepDistance last codes length) := by
  refine Reads.withSymbol fun symbol => ?_
  cases matchDistances[symbol]? with
  | none => exact .invalid
  | some entry =>
      refine (Reads.withNumber fun more _ => Reads.next ?_).mono (Nat.zero_le _)
      rintro _ ⟨⟩
      exact small

theorem matchLengths_small {symbol least extra : Nat}
    (h : matchLengths[symbol]? = some (least, extra)) : least + 1 <<< extra ≤ maxMatch + 1 := by
  have every : ∀ entry ∈ matchLengths, entry.1 + 1 <<< entry.2 ≤ maxMatch + 1 := by decide
  exact every _ (List.mem_of_getElem? h)

theorem reads_stepSymbol (last : Bool) (codes : Codes) : Reads 1 (stepSymbol last codes) := by
  refine Reads.withSymbol fun symbol => ?_
  by_cases literal : symbol < 256
  · simp only [if_pos literal]
    refine .next ?_
    rintro _ ⟨⟩
    exact Nat.le_of_ble_eq_true rfl
  · by_cases last_symbol : symbol = 256
    · simp only [if_neg literal, if_pos last_symbol]
      exact .next nofun
    · simp only [if_neg literal, if_neg last_symbol]
      cases entry : matchLengths[symbol - 257]? with
      | none => exact .invalid
      | some entry =>
          refine (Reads.withNumber fun more few => reads_stepDistance ?_).mono (Nat.zero_le _)
          have := matchLengths_small entry
          omega

theorem reads_stepCodeLength (last : Bool) (sizes : CodeSizes) (code : PrefixCode)
    (lengths : List Nat) : Reads 1 (stepCodeLength last sizes code lengths) := by
  have run (width least value : Nat) : Reads 0 fun rest =>
      Phase.withNumber width rest fun more rest =>
        quiet (readCodeLengths last sizes code (List.replicate (least + more) value ++ lengths))
          rest :=
    (Reads.withNumber fun _ _ => .quiet).mono (Nat.zero_le _)
  refine Reads.withSymbol fun symbol => ?_
  dsimp only
  split
  · split
    · exact .invalid
    · exact run 2 3 _
  · exact run 3 3 0
  · exact run 7 11 0
  · exact .quiet

/-- **A step reads a bit at least, and nothing that is behind what it needs.** -/
theorem reads_step (phase : Phase) : Reads 1 phase.step := by
  cases phase with
  | header =>
      exact (Reads.withNumber fun method _ => Reads.withNumber fun flags _ => .quiet).mono
        (by decide)
  | blockHeader => exact (Reads.withNumber fun _ _ => .quiet).mono (by decide)
  | storedLength last =>
      refine (Reads.aligned (Reads.withNumber fun length _ => Reads.withNumber fun complement _ =>
        (?_ : Reads 0 _))).mono (by decide)
      split
      · exact .invalid
      · exact .next nofun
  | stored last left =>
      refine (Reads.withNumber fun byte _ => .next ?_).mono (by decide)
      rintro _ ⟨⟩
      exact Nat.le_of_ble_eq_true rfl
  | codeSizes last =>
      refine (Reads.withNumber fun literals _ => Reads.withNumber fun distances _ =>
        Reads.withNumber fun lengths _ => (?_ : Reads 0 _)).mono (by decide)
      dsimp only
      split
      · exact .invalid
      · exact .quiet
  | lengthCode last sizes left lengths =>
      exact (Reads.withNumber fun _ _ => .quiet).mono (by decide)
  | codeLengths last sizes code lengths => exact reads_stepCodeLength last sizes code lengths
  | symbols last codes => exact reads_stepSymbol last codes
  | checksum =>
      exact (Reads.aligned (Reads.withNumber fun _ _ =>
        @Reads.next (.finished _) none nofun)).mono (by decide)
  | finished sum => exact .short

end Phase

end Deflate

end RemoteFramebuffer
