/-
# `RemoteFramebuffer.Proofs.Config.Target` — the address of a target is read back

## What is proved

    parse t.address = .ok ⟨t.host, t.port⟩

for every target `t` whose host is not empty and has no brackets, and whose port is 100 at least
(`address_reads_back`); with the exact condition on the two in `parse_address_eq_self_iff`.

## How it is proved

A target prints its address with the port, and a host with a colon goes in brackets:

    host without a colon       host:port
    host with colons           [host]:port

Both are forms in which an address is written (`written_address`), and the port is written without
leading zeros or a sign.  What is read is the host and the port again, unless the host itself looks
like it had brackets, or the port is so low that it is taken for a display.
-/
import RemoteFramebuffer.Proofs.Config.Address
import RemoteFramebuffer.Session.Options

namespace RemoteFramebuffer

theorem Address.isNumber_toDigits (port : UInt16) :
    IsNumber (Nat.toDigits 10 port.toNat) port.toNat :=
  ⟨Decimal.spells_toDigits port.toNat, Nat.le_of_lt_succ port.toNat_lt⟩

/-- A port is meant to be itself, unless it is so low that it is taken for a display. -/
theorem Address.ofNat_meant_eq_iff {port : UInt16} :
    UInt16.ofNat (meant port.toNat) = port ↔ 100 ≤ port := by
  rw [ofNat_eq_iff (meant_lt (isNumber_toDigits port).2), UInt16.le_iff_toNat_le, meant]
  show _ ↔ 100 ≤ port.toNat
  split <;> omega

/-- What is read behind a bracket ends before the first that closes it. -/
theorem Address.split_bracket_eq_some {host rest : List Char} {number : Option (List Char)}
    (cut : split ('[' :: rest) = some (host, number)) :
    ']' ∉ host ∧ ∃ behind, rest = host ++ ']' :: behind := by
  by_cases closes : ']' ∈ rest
  · obtain ⟨front, behind, rfl, first⟩ := List.eq_append_cons_of_mem closes
    rw [← List.cons_append, split_bracketed first] at cut
    cases cut
    exact ⟨first, behind, rfl⟩
  · rw [split_unterminated closes] at cut
    cases cut

namespace Target

open Address

variable {t : Target}

/-! ## What is printed -/

def InBrackets (host : List Char) : Prop := ':' ∈ host ∧ host.head? ≠ some '['

theorem startsWith_bracket_iff (s : String) :
    s.startsWith "[" = true ↔ s.toList.head? = some '[' := by
  rw [String.startsWith_string_iff, List.head?_eq_some_iff]
  constructor
  · rintro ⟨rest, split⟩
    exact ⟨rest, split.symm⟩
  · rintro ⟨rest, split⟩
    exact ⟨rest, split.symm⟩

theorem inBrackets_iff (s : String) :
    (s.contains ':' && !s.startsWith "[") = true ↔ InBrackets s.toList := by
  rw [Bool.and_eq_true, Bool.not_eq_true', ← Bool.not_eq_true, startsWith_bracket_iff,
    String.contains_char_eq, decide_eq_true_eq, InBrackets]

theorem toList_port (t : Target) : (toString t.port).toList = Nat.toDigits 10 t.port.toNat :=
  Nat.toList_repr

theorem toList_address_of_inBrackets (h : InBrackets t.host.toList) :
    t.address.toList = '[' :: t.host.toList ++ ']' :: ':' :: Nat.toDigits 10 t.port.toNat := by
  rw [address, if_pos ((inBrackets_iff t.host).mpr h)]
  simp only [String.toList_append, toList_port, List.append_assoc]
  rfl

theorem toList_address_of_not_inBrackets (h : ¬ InBrackets t.host.toList) :
    t.address.toList = t.host.toList ++ ':' :: Nat.toDigits 10 t.port.toNat := by
  rw [address, if_neg fun inBrackets => h ((inBrackets_iff t.host).mp inBrackets)]
  simp only [String.toList_append, toList_port, List.append_assoc]
  rfl

/-! ## What is read -/

/-- The host does not look like it had brackets: it does not begin with one, and the one that it
is put in is not closed in its midst. -/
structure IsPrintable (host : List Char) : Prop where
  some_host : host ≠ []
  unbracketed : host.head? ≠ some '['
  closed : ':' ∈ host → ']' ∉ host

/-- A printable host is printed in one of the forms that are meant to be an address. -/
theorem written_address (printable : IsPrintable t.host.toList) :
    Written t.address.toList t.host.toList (meant t.port.toNat) := by
  obtain ⟨some_host, unbracketed, closed⟩ := printable
  by_cases colon : ':' ∈ t.host.toList
  · rw [toList_address_of_inBrackets ⟨colon, unbracketed⟩]
    exact .bracketedNumber ⟨some_host, closed colon⟩ (isNumber_toDigits t.port)
  · rw [toList_address_of_not_inBrackets fun inBrackets => colon inBrackets.1]
    exact .hostNumber ⟨some_host, unbracketed⟩ colon (isNumber_toDigits t.port)

theorem isPrintable_of_isCut {port : Nat} (cut : IsCut t.address.toList t.host.toList port) :
    IsPrintable t.host.toList := by
  obtain ⟨number, cut, some_host, -⟩ := cut
  have unbracketed : t.host.toList.head? ≠ some '[' := by
    intro bracket
    rw [toList_address_of_not_inBrackets fun inBrackets => inBrackets.2 bracket] at cut
    obtain ⟨rest, begins⟩ := List.head?_eq_some_iff.mp bracket
    rw [begins, List.cons_append] at cut
    obtain ⟨-, behind, same⟩ := split_bracket_eq_some cut
    -- The host has one opening bracket more than what is read behind the first.
    have digits : (Nat.toDigits 10 t.port.toNat).count '[' = 0 :=
      List.count_eq_zero.mpr ((Decimal.spells_toDigits _).not_mem rfl)
    have opened := congrArg (List.count '[') same
    simp only [List.cons_append, List.count_append, List.count_cons_self,
      List.count_cons_of_ne (show ':' ≠ '[' by decide), digits] at opened
    omega
  refine ⟨some_host, unbracketed, fun colon => ?_⟩
  rw [toList_address_of_inBrackets ⟨colon, unbracketed⟩, List.cons_append] at cut
  exact (split_bracket_eq_some cut).1

theorem parse_address (printable : IsPrintable t.host.toList) :
    parse t.address = .ok ⟨t.host, UInt16.ofNat (meant t.port.toNat)⟩ := by
  have small := meant_lt (isNumber_toDigits t.port).2
  rw [parse_eq_ok_iff_isCut, UInt16.toNat_ofNat_of_lt' small]
  exact isCut_of_written (written_address printable)

theorem parse_address_eq_self_iff :
    parse t.address = .ok ⟨t.host, t.port⟩ ↔ IsPrintable t.host.toList ∧ 100 ≤ t.port := by
  constructor
  · intro parsed
    have printable := isPrintable_of_isCut (parse_eq_ok_iff_isCut.mp parsed)
    rw [parse_address printable, Except.ok.injEq, Address.mk.injEq, ofNat_meant_eq_iff] at parsed
    exact ⟨printable, parsed.2⟩
  · rintro ⟨printable, port⟩
    rw [parse_address printable, ofNat_meant_eq_iff.mpr port]

/-- **A printed address is read back**: every host without brackets, however many colons it has, and
every port that is not so low as to be taken for a display. -/
theorem address_reads_back (t : Target) (some_host : t.host ≠ "")
    (noBracket : ∀ c ∈ t.host.toList, c ≠ '[' ∧ c ≠ ']') (port : 100 ≤ t.port) :
    parse t.address = .ok ⟨t.host, t.port⟩ := by
  have printable : IsPrintable t.host.toList :=
    { some_host := fun none => some_host (String.toList_eq_nil_iff.mp none)
      unbracketed := fun bracket => (noBracket _ (List.mem_of_head? bracket)).1 rfl
      closed := fun _ mem => (noBracket _ mem).2 rfl }
  exact parse_address_eq_self_iff.mpr ⟨printable, port⟩

/-- Brackets keep the colons of a host from the one before the port. -/
theorem address_reads_back_literal :
    let t : Target := { host := "fe80::1", port := 100 }
    t.host ≠ "" ∧ (∀ c ∈ t.host.toList, c ≠ '[' ∧ c ≠ ']') ∧ 100 ≤ t.port ∧
      parse t.address = .ok ⟨"fe80::1", 100⟩ := by
  intro t
  have some_host : t.host ≠ "" := by decide
  have noBracket : ∀ c ∈ t.host.toList, c ≠ '[' ∧ c ≠ ']' := by simp [t]
  have port : 100 ≤ t.port := by decide
  exact ⟨some_host, noBracket, port, address_reads_back t some_host noBracket port⟩

end Target
end RemoteFramebuffer
