/-
# `RemoteFramebuffer.Proofs.Handshake.Version` — which announcements of a version pass

## What is proved

Of all twelve bytes (`recognized_exactly`): they are taken for a version just if they are one of
its four spellings, and otherwise refused as they stand.  Then the initiator has sent nothing, the
acceptor nothing beyond its own announcement, and neither they nor the reader of a recording have
taken a byte behind the twelve.

## The spellings

The two numbers of an announcement are read as numbers, each from three characters, and not
compared with the bytes of a version.  A number may open with a plus sign, so what passes is

    RFB 003.003⏎     RFB +03.003⏎     RFB 003.+03⏎     RFB +03.+03⏎        as 3.3
    RFB 003.007⏎     RFB +03.007⏎     RFB 003.+07⏎     RFB +03.+07⏎        as 3.7
    RFB 003.008⏎     RFB +03.008⏎     RFB 003.+08⏎     RFB +03.+08⏎        as 3.8

and nothing else.  Only the first column is what the three versions write themselves; the others
are taken for them all the same (`plus_sign_passes`).
-/
import RemoteFramebuffer.Proofs.Handshake.Exchange
import RemoteFramebuffer.Proofs.Recording.Replay

namespace RemoteFramebuffer

open Reader

/-! ## Three characters that are a number -/

namespace Decimal

theorem digit?_ofByte (b : UInt8) :
    digit? (Char.ofNat b.toNat) =
      if 0x30 ≤ b.toNat ∧ b.toNat ≤ 0x39 then some (b.toNat - 0x30) else none := by
  have each : ∀ n : Fin 256, digit? (Char.ofNat n) =
      if 0x30 ≤ n.val ∧ n.val ≤ 0x39 then some (n.val - 0x30) else none := by decide +kernel
  exact each ⟨b.toNat, b.toNat_lt⟩

theorem ofByte_eq_plus (b : UInt8) : Char.ofNat b.toNat = '+' ↔ b = 0x2B := by
  have each : ∀ n : Fin 256, Char.ofNat n = '+' ↔ n.val = 0x2B := by decide +kernel
  rw [each ⟨b.toNat, b.toNat_lt⟩, ← UInt8.toNat_inj]
  rfl

variable {limit value n : Nat} {b : UInt8} {rest : Bytes}

/-- The characters of a part of an announcement. -/
def chars (raw : Bytes) : List Char := raw.map fun b => Char.ofNat b.toNat

theorem digitsFrom_nil_ok : digitsFrom limit value (chars []) = .ok n ↔ value = n := by
  simp [chars, digitsFrom]

theorem digitsFrom_cons_ok :
    digitsFrom limit value (chars (b :: rest)) = .ok n ↔
      (0x30 ≤ b.toNat ∧ b.toNat ≤ 0x39) ∧ value * 10 + (b.toNat - 0x30) ≤ limit ∧
        digitsFrom limit (value * 10 + (b.toNat - 0x30)) (chars rest) = .ok n := by
  have digit := digit?_ofByte b
  rw [chars, List.map_cons, digitsFrom]
  by_cases isDigit : 0x30 ≤ b.toNat ∧ b.toNat ≤ 0x39
  · rw [if_pos isDigit] at digit
    simp only [digit, isDigit, and_self, true_and]
    split
    · rename_i large
      simp [Nat.not_le.mpr large]
    · rename_i fits
      exact ⟨fun h => ⟨Nat.le_of_not_lt fits, h⟩, fun h => h.2⟩
  · rw [if_neg isDigit] at digit
    simp [digit, isDigit]

theorem parse_cons (some_rest : rest ≠ []) :
    parse limit (chars (b :: rest)) =
      if b = 0x2B then digitsFrom limit 0 (chars rest)
      else digitsFrom limit 0 (chars (b :: rest)) := by
  by_cases plus : b = 0x2B
  · subst plus
    obtain ⟨c, rest, rfl⟩ := List.exists_cons_of_ne_nil some_rest
    rfl
  · have noPlus : Char.ofNat b.toNat ≠ '+' := fun h => plus ((ofByte_eq_plus b).mp h)
    rw [if_neg plus, chars, List.map_cons, parse]
    · exact List.cons_ne_nil _ _
    · exact fun rest h => noPlus (List.cons.inj h).1

end Decimal

namespace Version

/-- A part of an announcement is a number of one digit just if it is `00d` or `+0d`. -/
theorem part?_eq_some {a b c : UInt8} {d : Nat} (small : d < 10) :
    part? [a, b, c] = some d ↔ (a = 0x30 ∨ a = 0x2B) ∧ b = 0x30 ∧ c = UInt8.ofNat (0x30 + d) := by
  have number : part? [a, b, c] = some d ↔
      Decimal.parse 4294967295 (Decimal.chars [a, b, c]) = .ok d := by
    rw [part?, ← Decimal.chars]
    cases Decimal.parse 4294967295 (Decimal.chars [a, b, c]) <;> simp [Except.toOption]
  have last : c = UInt8.ofNat (0x30 + d) ↔ c.toNat = 0x30 + d := by
    rw [← UInt8.toNat_inj, UInt8.toNat_ofNat', Nat.mod_eq_of_lt (by omega)]
  have zero (x : UInt8) : x = 0x30 ↔ x.toNat = 0x30 := UInt8.toNat_inj.symm
  rw [number, Decimal.parse_cons (List.cons_ne_nil _ _), last, zero a, zero b]
  split
  · rename_i plus
    simp only [Decimal.digitsFrom_cons_ok, Decimal.digitsFrom_nil_ok, plus, or_true, true_and]
    omega
  · rename_i noPlus
    simp only [Decimal.digitsFrom_cons_ok, Decimal.digitsFrom_nil_ok, noPlus, or_false]
    omega

/-! ## Twelve bytes that are a version -/

/-- The announcements that are taken for a version: its own, and those with a plus sign in place
of the first zero of a number. -/
def spellings (v : Version) : List Bytes :=
  [v.bytes, v.bytes.set 4 0x2B, v.bytes.set 8 0x2B, (v.bytes.set 4 0x2B).set 8 0x2B]

def minor : Version → Nat
  | .v33 => 3
  | .v37 => 7
  | .v38 => 8

theorem parse_eq_ok {raw : Bytes} {v : Version} :
    parse raw = .ok v ↔
      (raw.take 4 = Bytes.ofString "RFB " ∧ raw[7]? = some 0x2E ∧ raw[11]? = some 0x0A) ∧
        part? ((raw.drop 4).take 3) = some 3 ∧ part? ((raw.drop 8).take 3) = some v.minor := by
  rw [parse]
  split
  · rename_i framed
    simp only [framed, and_self, true_and]
    split
    case h_4 not33 not37 not38 =>
      simp only [reduceCtorEq, false_iff]
      rintro ⟨major, minor⟩
      cases v with
      | v33 => exact absurd minor (not33 major)
      | v37 => exact absurd minor (not37 major)
      | v38 => exact absurd minor (not38 major)
    all_goals
      rename_i major minor
      rw [major, minor]
      cases v <;> simp [Version.minor]
  · rename_i unframed
    simp [unframed]

theorem parse_eq_error {raw : Bytes} {e : ProtocolError} (h : parse raw = .error e) :
    e = .unsupportedVersion raw := by
  rw [parse] at h
  split at h
  · split at h <;> cases h
    rfl
  · cases h
    rfl

theorem bytes_eq (v : Version) :
    v.bytes = [0x52, 0x46, 0x42, 0x20, 0x30, 0x30, 0x33, 0x2E, 0x30, 0x30,
      UInt8.ofNat (0x30 + v.minor), 0x0A] := by
  cases v <;> decide +kernel

variable {raw : Bytes}

theorem exists_four {n : Nat} (long : raw.length = 4 + n) :
    ∃ a b c d rest, raw = [a, b, c, d] ++ rest ∧ rest.length = n := by
  rcases raw with _ | ⟨a, _ | ⟨b, _ | ⟨c, _ | ⟨d, rest⟩⟩⟩⟩ <;> simp only [List.length] at long
  iterate 4 omega
  exact ⟨a, b, c, d, rest, rfl, by omega⟩

theorem parse_eq_ok_iff_mem {v : Version} (whole : raw.length = size) :
    parse raw = .ok v ↔ raw ∈ v.spellings := by
  have mark : Bytes.ofString "RFB " = [0x52, 0x46, 0x42, 0x20] := by decide +kernel
  have minor : v.minor < 10 := by cases v <;> decide
  obtain ⟨r, f, b, space, numbers, rfl, eight⟩ := exists_four (n := 8) whole
  obtain ⟨x, x', x'', dot, number, rfl, four⟩ := exists_four (n := 4) eight
  obtain ⟨y, y', y'', feed, nothing, rfl, zero⟩ := exists_four (n := 0) four
  obtain rfl := List.eq_nil_of_length_eq_zero zero
  have major : part? [x, x', x''] = some 3 ↔ _ := part?_eq_some (by decide)
  have minor : part? [y, y', y''] = some v.minor ↔ _ := part?_eq_some minor
  rw [parse_eq_ok, mark, spellings, bytes_eq]
  show ([r, f, b, space] = _ ∧ some dot = some 0x2E ∧ some feed = some 0x0A) ∧
    part? [x, x', x''] = some 3 ∧ part? [y, y', y''] = some v.minor ↔
    [r, f, b, space, x, x', x'', dot, y, y', y'', feed] ∈ _
  rw [major, minor]
  simp only [List.set, List.mem_cons, List.not_mem_nil, or_false, List.cons.injEq, and_true,
    Option.some.injEq]
  generalize UInt8.ofNat (0x30 + v.minor) = digit
  constructor
  · rintro ⟨⟨⟨rfl, rfl, rfl, rfl⟩, rfl, rfl⟩, ⟨rfl | rfl, rfl, rfl⟩, rfl | rfl, rfl, rfl⟩ <;> simp
  · rintro (h | h | h | h) <;> simp [h]

/-- What is no announcement of a version ends the exchange of either party, and the opening of a
recording, behind its twelve bytes. -/
theorem run_unsupported {nonce rest : Bytes} {said : List Bytes} (whole : raw.length = size)
    (refused : parse raw = .error (.unsupportedVersion raw)) :
    Handshake.clientVersion.run nonce ⟨raw ++ rest, [], said⟩ =
        (.error (.unsupportedVersion raw), ⟨rest, [], said⟩) ∧
      Handshake.serverVersion.run nonce ⟨raw ++ rest, [], said⟩ =
        (.error (.unsupportedVersion raw), ⟨rest, [], Version.v38.bytes :: said⟩) ∧
      RecordingHeader.read.run (RecordingHeader.magic ++ (raw ++ rest)) =
        (.error (.protocol (.unsupportedVersion raw)), rest) := by
  have taken : (Reader.bytes size).Takes raw raw := takes_bytes whole
  have mark : (Reader.bytes RecordingHeader.magic.length).Takes RecordingHeader.magic
      RecordingHeader.magic := takes_bytes rfl
  have announced : Exchange.Takes (Exchange.read (Reader.bytes size)) raw (.done (.ok raw)) :=
    Exchange.takes_read taken
  refine ⟨?_, ?_, ?_⟩
  · rw [Handshake.clientVersion, (announced.bind _).run]
    show (Exchange.ofExcept (parse raw) >>= _).run nonce _ = _
    rw [refused]
    rfl
  · show (Exchange.read (Reader.bytes size) >>= fun raw => Exchange.ofExcept (parse raw)).run nonce
      ⟨raw ++ rest, [], Version.v38.bytes :: said⟩ = _
    rw [(announced.bind _).run]
    show (Exchange.ofExcept (parse raw)).run nonce _ = _
    rw [refused]
    rfl
  · rw [RecordingHeader.read, (mark.mapError _).run_bind, if_neg (not_not_intro rfl),
      (taken.mapError _).run_bind, refused]
    rfl

/-- **An announcement is taken for a version just if it is one of the four spellings of it**, and
whatever else the twelve bytes are, they are refused as they stand: the initiator sends nothing in
return, the acceptor nothing beyond its own announcement, and neither of them nor the reader of a
recording takes a byte more. -/
theorem recognized_exactly (whole : raw.length = size) :
    (∀ v, parse raw = .ok v ↔ raw ∈ v.spellings) ∧
    ((∀ v : Version, raw ∉ v.spellings) →
      parse raw = .error (.unsupportedVersion raw) ∧
      ∀ nonce rest said,
        Handshake.clientVersion.run nonce ⟨raw ++ rest, [], said⟩ =
            (.error (.unsupportedVersion raw), ⟨rest, [], said⟩) ∧
          Handshake.serverVersion.run nonce ⟨raw ++ rest, [], said⟩ =
            (.error (.unsupportedVersion raw), ⟨rest, [], Version.v38.bytes :: said⟩) ∧
          RecordingHeader.read.run (RecordingHeader.magic ++ (raw ++ rest)) =
            (.error (.protocol (.unsupportedVersion raw)), rest)) := by
  refine ⟨fun v => parse_eq_ok_iff_mem whole, fun unknown => ?_⟩
  have refused : parse raw = .error (.unsupportedVersion raw) := by
    cases outcome : parse raw with
    | ok v => exact absurd ((parse_eq_ok_iff_mem whole).mp outcome) (unknown v)
    | error e => rw [parse_eq_error outcome]
  exact ⟨refused, fun _ _ _ => run_unsupported whole refused⟩

/-- A version that no one speaks, announced to the reader of a recording. -/
theorem recognized_exactly_v3889 :
    let raw := Bytes.ofString "RFB 003.889\n"
    raw.length = size ∧ (∀ v : Version, raw ∉ v.spellings) ∧
      RecordingHeader.read.run (RecordingHeader.magic ++ (raw ++ [1, 2])) =
        (.error (.protocol (.unsupportedVersion raw)), [1, 2]) := by
  intro raw
  have whole : raw.length = size := by decide +kernel
  have unknown (v : Version) : raw ∉ v.spellings := by cases v <;> decide +kernel
  exact ⟨whole, unknown, ((recognized_exactly whole).2 unknown).2 [] [1, 2] [] |>.2.2⟩

/-- The announcement `RFB +03.003` is not that of any version and passes as 3.3. -/
theorem plus_sign_passes :
    let raw := Bytes.ofString "RFB +03.003\n"
    raw.length = size ∧ (∀ v : Version, raw ≠ v.bytes) ∧ parse raw = .ok .v33 := by
  have foreign (v : Version) : Bytes.ofString "RFB +03.003\n" ≠ v.bytes := by
    cases v <;> decide +kernel
  exact ⟨by decide +kernel, foreign, by decide +kernel⟩

end Version

end RemoteFramebuffer
