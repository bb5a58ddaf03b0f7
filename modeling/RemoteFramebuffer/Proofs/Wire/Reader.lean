/-
# `RemoteFramebuffer.Proofs.Wire.Reader` — what every reader does to its stream

A reader is a tree of questions, so its laws are inductions over that tree, one case for
a reader that is done and one for a reader that asks for a piece:

    r.run (used ++ rest) = ok, rest left   ⟹   the same over used ++ other       (`run_consumes`)
    a proper prefix of `used`              ⟹   the error of a short stream       (`run_cut`)
    the pieces recorded, then what is left  =   the stream                       (`run_recorded`)

`run_cut` says no more than that the error is one of those that the tree holds for a short
stream.  `Shorts P` says that all of these satisfy `P`; it is closed under the operations
that readers are built with, so it is proved once for each reader of the library.
-/
import RemoteFramebuffer.Proofs.Bytes
import RemoteFramebuffer.Wire.Reader

namespace RemoteFramebuffer.Reader

variable {ε ε' α β : Type}

/-! ## Running composed readers -/

theorem run_take_of_le {count : Nat} {short : Nat → ε} {next : Bytes → Reader ε α} {input : Bytes}
    (h : count ≤ input.length) :
    (take count short next).run input = (next (input.take count)).run (input.drop count) := by
  simp [run, List.length_take, Nat.min_eq_left h]

theorem run_take_of_lt {count : Nat} {short : Nat → ε} {next : Bytes → Reader ε α} {input : Bytes}
    (h : input.length < count) :
    (take count short next).run input = (.error (short input.length), input) := by
  simp [run, List.length_take, Nat.min_eq_right (Nat.le_of_lt h), h]

@[simp] theorem run_pure (a : α) (input : Bytes) :
    (pure a : Reader ε α).run input = (.ok a, input) := rfl

theorem run_bind (r : Reader ε α) (f : α → Reader ε β) (input : Bytes) :
    (r >>= f).run input = match r.run input with
      | (.ok a, rest) => (f a).run rest
      | (.error e, rest) => (.error e, rest) := by
  show (r.bind f).run input = _
  induction r generalizing input with
  | done result =>
      cases result <;> rfl
  | take count short next ih =>
      by_cases h : count ≤ input.length
      · rw [Reader.bind, run_take_of_le h, run_take_of_le h]
        exact ih _ _
      · rw [Reader.bind, run_take_of_lt (by omega), run_take_of_lt (by omega)]

theorem run_map (f : α → β) (r : Reader ε α) (input : Bytes) :
    (f <$> r).run input = ((r.run input).1.map f, (r.run input).2) := by
  show (r >>= fun a => pure (f a)).run input = _
  rw [run_bind]
  rcases r.run input with ⟨_ | _, rest⟩ <;> rfl

theorem run_mapError (f : ε → ε') (r : Reader ε α) (input : Bytes) :
    (r.mapError f).run input = ((r.run input).1.mapError f, (r.run input).2) := by
  induction r generalizing input with
  | done result => rfl
  | take count short next ih =>
      by_cases h : count ≤ input.length
      · rw [mapError, run_take_of_le h, run_take_of_le h]
        exact ih _ _
      · rw [mapError, run_take_of_lt (by omega), run_take_of_lt (by omega)]
        rfl

theorem run_bind_ok {r : Reader ε α} {f : α → Reader ε β} {input rest : Bytes} {b : β} :
    (r >>= f).run input = (.ok b, rest) ↔
      ∃ a mid, r.run input = (.ok a, mid) ∧ (f a).run mid = (.ok b, rest) := by
  rw [run_bind]
  rcases r.run input with ⟨_ | a, mid⟩
  · simp
  · constructor
    · intro h
      exact ⟨a, mid, rfl, h⟩
    · rintro ⟨_, _, h, hf⟩
      cases h
      exact hf

theorem run_map_ok {f : α → β} {r : Reader ε α} {input rest : Bytes} {b : β} :
    (f <$> r).run input = (.ok b, rest) ↔ ∃ a, r.run input = (.ok a, rest) ∧ f a = b := by
  rw [run_map]
  rcases r.run input with ⟨_ | a, mid⟩
  · simp [Except.map]
  · constructor
    · intro h
      cases h
      exact ⟨a, rfl, rfl⟩
    · rintro ⟨_, h, rfl⟩
      cases h
      rfl

theorem run_mapError_ok {f : ε → ε'} {r : Reader ε α} {input rest : Bytes} {a : α} :
    (r.mapError f).run input = (.ok a, rest) ↔ r.run input = (.ok a, rest) := by
  rw [run_mapError]
  rcases r.run input with ⟨_ | a, mid⟩
  · exact ⟨nofun, nofun⟩
  · constructor
    · intro h
      cases h
      rfl
    · intro h
      cases h
      rfl

/-! ## What a successful reader consumes -/

/-- A reader that succeeds has consumed a prefix of its stream, and what follows that prefix
makes no difference. -/
theorem run_consumes {r : Reader ε α} {input rest : Bytes} {a : α}
    (h : r.run input = (.ok a, rest)) :
    ∃ used, input = used ++ rest ∧ ∀ other, r.run (used ++ other) = (.ok a, other) := by
  induction r generalizing input with
  | done result =>
      cases h
      exact ⟨[], rfl, fun _ => rfl⟩
  | take count short next ih =>
      by_cases le : count ≤ input.length
      · rw [run_take_of_le le] at h
        obtain ⟨used, split, again⟩ := ih _ h
        refine ⟨input.take count ++ used, ?_, fun other => ?_⟩
        · rw [List.append_assoc, ← split, List.take_append_drop]
        · have whole : (input.take count).length = count := List.length_take_of_le le
          rw [List.append_assoc, run_take_of_le (by simp [whole]),
            List.take_left' whole, List.drop_left' whole]
          exact again other
      · rw [run_take_of_lt (by omega)] at h
        cases h

theorem run_append {r : Reader ε α} {used rest : Bytes} {a : α}
    (h : r.run (used ++ rest) = (.ok a, rest)) (other : Bytes) :
    r.run (used ++ other) = (.ok a, other) := by
  obtain ⟨used', split, again⟩ := run_consumes h
  rw [List.append_cancel_right split]
  exact again other

/-! ## Short streams -/

/-- Every error that the reader holds for a short stream satisfies `P`. -/
inductive Shorts (P : ε → Prop) : Reader ε α → Prop
  | done {result : Except ε α} : Shorts P (.done result)
  | take {count : Nat} {short : Nat → ε} {next : Bytes → Reader ε α} :
      (∀ got, P (short got)) → (∀ piece, Shorts P (next piece)) → Shorts P (.take count short next)

namespace Shorts

variable {P : ε → Prop}

theorem pure (a : α) : Shorts P (Pure.pure a : Reader ε α) := .done

theorem fail (e : ε) : Shorts P (Reader.fail e : Reader ε α) := .done

theorem any (r : Reader ε α) : Shorts (fun _ => True) r := by
  induction r with
  | done => exact .done
  | take _ _ _ ih => exact .take (fun _ => trivial) ih

theorem bind {r : Reader ε α} {f : α → Reader ε β} (hr : Shorts P r) (hf : ∀ a, Shorts P (f a)) :
    Shorts P (r >>= f) := by
  show Shorts P (r.bind f)
  induction hr with
  | @done result =>
      cases result with
      | ok a => exact hf a
      | error e => exact .done
  | take hshort _ ih => exact .take hshort ih

theorem map {r : Reader ε α} (f : α → β) (hr : Shorts P r) : Shorts P (f <$> r) :=
  bind hr fun a => pure (f a)

theorem mapError {Q : ε' → Prop} {r : Reader ε α} {f : ε → ε'} (hr : Shorts P r)
    (hf : ∀ e, P e → Q (f e)) : Shorts Q (r.mapError f) := by
  induction hr with
  | done => exact .done
  | take hshort _ ih => exact .take (fun got => hf _ (hshort got)) ih

end Shorts

/-- A reader that succeeds fails on every proper prefix of what it consumed, for want of
bytes. -/
theorem run_cut {P : ε → Prop} {r : Reader ε α} (hr : Shorts P r) {used rest cut : Bytes} {a : α}
    (h : r.run (used ++ rest) = (.ok a, rest)) (le : cut <+: used) (ne : cut ≠ used) :
    ∃ e, (r.run cut).1 = .error e ∧ P e := by
  induction hr generalizing used cut with
  | @done result =>
      have none : used = [] := by
        have eq : used ++ rest = rest := congrArg Prod.snd h
        simpa using eq
      exact absurd (none ▸ List.prefix_nil.mp (none ▸ le)) ne
  | @take count short next hshort _ ih =>
      by_cases enough : count ≤ cut.length
      · obtain ⟨tail, rfl⟩ := le
        rw [run_take_of_le (by simp; omega), List.append_assoc,
          List.take_append_of_le_length enough, List.drop_append_of_le_length enough,
          ← List.append_assoc] at h
        rw [run_take_of_le enough]
        refine ih _ h (List.prefix_append _ _) fun eq => ne ?_
        rw [← List.take_append_drop count cut, List.append_assoc, ← eq]
      · rw [run_take_of_lt (by omega)]
        exact ⟨_, rfl, hshort _⟩

/-! ## Recorded readers -/

/-- What a reader recorded, whether it succeeded or not, is what it took from the stream. -/
theorem run_recorded (r : Reader ε α) (seen : List Bytes) (input : Bytes) :
    ∃ pieces : List Bytes,
      pieces.reverse.flatten ++ (r.run input).2 = seen.reverse.flatten ++ input ∧
      (r.recorded seen).run input =
        (((r.run input).1.map (·, pieces)).mapError (·, pieces), (r.run input).2) := by
  induction r generalizing seen input with
  | done result =>
      refine ⟨seen, rfl, ?_⟩
      cases result <;> rfl
  | take count short next ih =>
      by_cases h : count ≤ input.length
      · obtain ⟨pieces, all, eq⟩ :=
          ih (input.take count) (input.take count :: seen) (input.drop count)
        rw [recorded, run_take_of_le h, run_take_of_le h]
        refine ⟨pieces, ?_, eq⟩
        rw [all]
        simp
      · rw [recorded, run_take_of_lt (by omega), run_take_of_lt (by omega)]
        exact ⟨seen, rfl, rfl⟩

/-! ## Runs of bytes -/

theorem run_bytes_of_le {count : Nat} {input : Bytes} (h : count ≤ input.length) :
    (bytes count).run input = (.ok (input.take count), input.drop count) := run_take_of_le h

theorem run_bytes_ok {count : Nat} {input rest piece : Bytes}
    (h : (bytes count).run input = (.ok piece, rest)) :
    count ≤ input.length ∧ piece = input.take count ∧ rest = input.drop count := by
  by_cases le : count ≤ input.length
  · rw [run_bytes_of_le le] at h
    cases h
    exact ⟨le, rfl, rfl⟩
  · rw [bytes, run_take_of_lt (by omega)] at h
    cases h

theorem run_piecesOnto_ok {size last whole : Nat} {seen : List Bytes} {input rest all : Bytes} :
    (piecesOnto size last seen whole).run input = (.ok all, rest) ↔
      size * whole + last ≤ input.length ∧
        all = seen.reverse.flatten ++ input.take (size * whole + last) ∧
        rest = input.drop (size * whole + last) := by
  induction whole generalizing seen input with
  | zero =>
      rw [piecesOnto, run_map_ok, Nat.mul_zero, Nat.zero_add]
      constructor
      · rintro ⟨piece, h, rfl⟩
        obtain ⟨le, rfl, rfl⟩ := run_bytes_ok h
        exact ⟨le, by simp, rfl⟩
      · rintro ⟨le, rfl, rfl⟩
        exact ⟨_, run_bytes_of_le le, by simp⟩
  | succ whole ih =>
      have total : size * (whole + 1) + last = size + (size * whole + last) := by
        rw [Nat.mul_succ]; omega
      rw [piecesOnto, run_bind_ok, total]
      constructor
      · rintro ⟨piece, mid, h, hrest⟩
        obtain ⟨le, rfl, rfl⟩ := run_bytes_ok h
        obtain ⟨le', rfl, rfl⟩ := ih.mp hrest
        rw [List.length_drop] at le'
        refine ⟨by omega, ?_, List.drop_drop⟩
        simp [List.take_add]
      · rintro ⟨le, rfl, rfl⟩
        refine ⟨_, _, run_bytes_of_le (by omega), ih.mpr ⟨by rw [List.length_drop]; omega, ?_, ?_⟩⟩
        · simp [List.take_add]
        · rw [List.drop_drop]

theorem run_pieces_ok {size count : Nat} {input rest all : Bytes} :
    (pieces size count).run input = (.ok all, rest) ↔
      count ≤ input.length ∧ all = input.take count ∧ rest = input.drop count := by
  rw [pieces, run_piecesOnto_ok, Nat.div_add_mod]
  simp

theorem run_vec_ok {count : Nat} {input rest all : Bytes} :
    (vec count).run input = (.ok all, rest) ↔ all.length = count ∧ input = all ++ rest := by
  rw [vec, run_pieces_ok]
  constructor
  · rintro ⟨le, rfl, rfl⟩
    exact ⟨List.length_take_of_le le, (List.take_append_drop _ _).symm⟩
  · rintro ⟨rfl, rfl⟩
    exact ⟨by simp, List.take_left.symm, List.drop_left.symm⟩

theorem run_vecLimited_ok {count limit : Nat} {input rest all : Bytes} :
    (vecLimited count limit).run input = (.ok all, rest) ↔
      count ≤ limit ∧ all.length = count ∧ input = all ++ rest := by
  unfold vecLimited
  split
  · rename_i more
    exact ⟨nofun, fun few => absurd few.1 (Nat.not_le_of_lt more)⟩
  · rename_i few
    rw [run_vec_ok]
    exact ⟨fun h => ⟨Nat.le_of_not_lt few, h⟩, fun h => h.2⟩

/-! ## Words

A word is read exactly where the bytes that spell it stand. -/

theorem run_number_ok {width n : Nat} {input rest : Bytes} :
    (number width).run input = (.ok n, rest) ↔
      ∃ piece, piece.length = width ∧ n = piece.toNat ∧ input = piece ++ rest := by
  rw [number, run_map_ok]
  constructor
  · rintro ⟨piece, h, rfl⟩
    obtain ⟨le, rfl, rfl⟩ := run_bytes_ok h
    exact ⟨_, List.length_take_of_le le, rfl, (List.take_append_drop _ _).symm⟩
  · rintro ⟨piece, rfl, rfl, rfl⟩
    refine ⟨piece, ?_, rfl⟩
    rw [run_bytes_of_le (by simp), List.take_left, List.drop_left]

theorem run_u8_ok {input rest : Bytes} {b : UInt8} :
    u8.run input = (.ok b, rest) ↔ input = b :: rest := by
  simp only [u8, run_map_ok, run_number_ok]
  constructor
  · rintro ⟨_, ⟨piece, one, rfl, rfl⟩, rfl⟩
    obtain ⟨b, rfl⟩ := List.length_eq_one_iff.mp one
    simp [Bytes.toNat]
  · rintro rfl
    exact ⟨b.toNat, ⟨[b], rfl, by simp [Bytes.toNat], rfl⟩, UInt8.ofNat_toNat⟩

theorem run_u16_ok {input rest : Bytes} {w : UInt16} :
    u16.run input = (.ok w, rest) ↔ input = Bytes.ofUInt16 w ++ rest := by
  simp only [u16, run_map_ok, run_number_ok]
  constructor
  · rintro ⟨_, ⟨piece, two, rfl, rfl⟩, rfl⟩
    rw [Bytes.ofUInt16_toNat two]
  · rintro rfl
    exact ⟨w.toNat, ⟨_, Bytes.length_ofNat 2 _, (Bytes.toNat_ofUInt16 w).symm, rfl⟩, by simp⟩

theorem run_u32_ok {input rest : Bytes} {w : UInt32} :
    u32.run input = (.ok w, rest) ↔ input = Bytes.ofUInt32 w ++ rest := by
  simp only [u32, run_map_ok, run_number_ok]
  constructor
  · rintro ⟨_, ⟨piece, four, rfl, rfl⟩, rfl⟩
    rw [Bytes.ofUInt32_toNat four]
  · rintro rfl
    exact ⟨w.toNat, ⟨_, Bytes.length_ofNat 4 _, (Bytes.toNat_ofUInt32 w).symm, rfl⟩, by simp⟩

theorem run_i32_ok {input rest : Bytes} {w : Int32} :
    i32.run input = (.ok w, rest) ↔ input = Bytes.ofInt32 w ++ rest := by
  rw [i32, run_map_ok]
  constructor
  · rintro ⟨u, h, rfl⟩
    rw [Bytes.ofInt32_toInt32]
    exact run_u32_ok.mp h
  · rintro rfl
    exact ⟨w.toUInt32, run_u32_ok.mpr rfl, by simp⟩

theorem run_i64_ok {input rest : Bytes} {w : Int64} :
    i64.run input = (.ok w, rest) ↔ input = Bytes.ofInt64 w ++ rest := by
  simp only [i64, u64, run_map_ok, run_number_ok]
  constructor
  · rintro ⟨_, ⟨_, ⟨piece, eight, rfl, rfl⟩, rfl⟩, rfl⟩
    rw [Bytes.ofInt64, UInt64.toUInt64_toInt64, UInt64.toNat_ofNat_of_lt' (Bytes.toNat_lt eight),
      Bytes.ofNat_toNat eight]
  · rintro rfl
    have number : Bytes.toNat (Bytes.ofInt64 w) = w.toUInt64.toNat := Bytes.toNat_ofNat w.toUInt64.toNat_lt
    refine ⟨w.toUInt64, ⟨w.toUInt64.toNat, ⟨_, Bytes.length_ofNat 8 _, number.symm, rfl⟩, ?_⟩, ?_⟩
    · exact UInt64.ofNat_toNat
    · exact Int64.toInt64_toUInt64 w

theorem run_skip_ok {count : Nat} {input rest : Bytes} {a : Unit} :
    (skip count).run input = (.ok a, rest) ↔ count ≤ input.length ∧ rest = input.drop count := by
  rw [skip, run_map_ok]
  constructor
  · rintro ⟨all, h, -⟩
    obtain ⟨le, -, drop⟩ := run_pieces_ok.mp h
    exact ⟨le, drop⟩
  · rintro ⟨le, drop⟩
    exact ⟨_, run_pieces_ok.mpr ⟨le, rfl, drop⟩, rfl⟩

/-! ## Lists of values -/

theorem run_valuesOnto_ok {item : Reader ε α} {write : α → Bytes}
    (exact : ∀ {input rest a}, item.run input = (.ok a, rest) ↔ input = write a ++ rest)
    {seen all : List α} {count : Nat} {input rest : Bytes} :
    (valuesOnto item seen count).run input = (.ok all, rest) ↔
      ∃ l, all = seen.reverse ++ l ∧ l.length = count ∧ input = l.flatMap write ++ rest := by
  induction count generalizing seen input with
  | zero =>
      rw [valuesOnto, run_pure]
      constructor
      · intro h
        cases h
        exact ⟨[], (List.append_nil _).symm, rfl, rfl⟩
      · rintro ⟨l, rfl, none, rfl⟩
        obtain rfl := List.length_eq_zero_iff.mp none
        rw [List.append_nil]
        rfl
  | succ count ih =>
      rw [valuesOnto, run_bind_ok]
      constructor
      · rintro ⟨a, mid, first, others⟩
        obtain rfl := exact.mp first
        obtain ⟨l, rfl, rfl, rfl⟩ := ih.mp others
        exact ⟨a :: l, by simp, rfl, by simp⟩
      · rintro ⟨_ | ⟨a, l⟩, rfl, length, rfl⟩
        · cases length
        · refine ⟨a, l.flatMap write ++ rest, exact.mpr (by simp), ih.mpr ⟨l, by simp, ?_, rfl⟩⟩
          exact Nat.succ.inj length

/-- Values that are read exactly where they are written are so one after another. -/
theorem run_values_ok {item : Reader ε α} {write : α → Bytes}
    (exact : ∀ {input rest a}, item.run input = (.ok a, rest) ↔ input = write a ++ rest)
    {l : List α} {count : Nat} {input rest : Bytes} :
    (values item count).run input = (.ok l, rest) ↔
      l.length = count ∧ input = l.flatMap write ++ rest := by
  rw [values, run_valuesOnto_ok exact]
  constructor
  · rintro ⟨_, rfl, h⟩
    exact h
  · intro h
    exact ⟨l, rfl, h⟩

/-! ## Taking bytes -/

/-- Takes exactly these bytes, whatever follows them. -/
def Takes (r : Reader ε α) (used : Bytes) (a : α) : Prop :=
  ∀ rest, r.run (used ++ rest) = (.ok a, rest)

theorem takes_pure (a : α) : Takes (pure a : Reader ε α) [] a := fun _ => rfl

theorem takes_bytes {piece : Bytes} {count : Nat} (h : piece.length = count) :
    Takes (bytes count) piece piece := by
  intro rest
  subst h
  rw [run_bytes_of_le (by simp), List.take_left, List.drop_left]

theorem takes_pieces {size count : Nat} {all : Bytes} (h : all.length = count) :
    Takes (pieces size count) all all := by
  intro rest
  subst h
  exact run_pieces_ok.mpr ⟨by simp, List.take_left.symm, List.drop_left.symm⟩

theorem takes_vecLimited {count limit : Nat} {all : Bytes} (h : all.length = count)
    (few : count ≤ limit) : Takes (vecLimited count limit) all all := by
  rw [vecLimited, if_neg (Nat.not_lt_of_le few)]
  exact takes_pieces h

theorem takes_u8 (b : UInt8) : Takes u8 [b] b := fun _ => run_u8_ok.mpr rfl

theorem takes_u32 (w : UInt32) : Takes u32 (Bytes.ofUInt32 w) w := fun _ => run_u32_ok.mpr rfl

namespace Takes

variable {r : Reader ε α} {used used' : Bytes} {a : α} {b : β}

/-- Once its bytes are taken, what follows stands before what is left. -/
theorem run_bind (hr : Takes r used a) (f : α → Reader ε β) (rest : Bytes) :
    (r >>= f).run (used ++ rest) = (f a).run rest := by
  rw [Reader.run_bind, hr]

theorem bind {f : α → Reader ε β} (hr : Takes r used a) (hf : Takes (f a) used' b) :
    Takes (r >>= f) (used ++ used') b := by
  intro rest
  rw [List.append_assoc, hr.run_bind]
  exact hf rest

theorem bind_nil {f : α → Reader ε β} (hr : Takes r used a) (hf : Takes (f a) [] b) :
    Takes (r >>= f) used b := by
  have both := hr.bind hf
  rwa [List.append_nil] at both

theorem map (f : α → β) (hr : Takes r used a) : Takes (f <$> r) used (f a) := fun rest =>
  run_map_ok.mpr ⟨a, hr rest, rfl⟩

theorem mapError (f : ε → ε') (hr : Takes r used a) : Takes (r.mapError f) used a := fun rest =>
  run_mapError_ok.mpr (hr rest)

theorem valuesOnto {write : α → Bytes} {l : List α} (h : ∀ a ∈ l, Takes r (write a) a)
    (seen : List α) :
    Takes (Reader.valuesOnto r seen l.length) (l.flatMap write) (seen.reverse ++ l) := by
  induction l generalizing seen with
  | nil =>
      rw [List.append_nil]
      exact takes_pure _
  | cons a l ih =>
      have rest := ih (fun b mem => h b (List.mem_cons_of_mem _ mem)) (a :: seen)
      rw [List.reverse_cons, List.append_assoc] at rest
      exact (h a List.mem_cons_self).bind rest

theorem values {write : α → Bytes} {l : List α} (h : ∀ a ∈ l, Takes r (write a) a) :
    Takes (Reader.values r l.length) (l.flatMap write) l := valuesOnto h []

end Takes

/-! ## The errors of the library's readers -/

def IsEnd (e : WireError) : Prop := e.kind = .unexpectedEof

theorem shorts_bytes (count : Nat) : Shorts IsEnd (bytes count) :=
  .take (fun _ => rfl) fun _ => .done

theorem shorts_number (width : Nat) : Shorts IsEnd (number width) := (shorts_bytes width).map _

theorem shorts_u8 : Shorts IsEnd u8 := (shorts_number 1).map _

theorem shorts_u16 : Shorts IsEnd u16 := (shorts_number 2).map _

theorem shorts_u32 : Shorts IsEnd u32 := (shorts_number 4).map _

theorem shorts_i32 : Shorts IsEnd i32 := shorts_u32.map _

theorem shorts_piecesOnto (size last : Nat) (seen : List Bytes) (whole : Nat) :
    Shorts IsEnd (piecesOnto size last seen whole) := by
  induction whole generalizing seen with
  | zero => exact (shorts_bytes last).map _
  | succ whole ih => exact (shorts_bytes size).bind fun piece => ih (piece :: seen)

theorem shorts_pieces (size count : Nat) : Shorts IsEnd (pieces size count) :=
  shorts_piecesOnto _ _ _ _

end RemoteFramebuffer.Reader
