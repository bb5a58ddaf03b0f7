/-
# `RemoteFramebuffer.Proofs.Text.Decimal` — which texts are read as a number

A text spells a number if it is one or more digits that have its value; leading zeros are digits
like any other.  What is read as a number within a limit is a spelling of one, or a plus sign and
a spelling of one (`parse_eq_ok_iff`).
-/
import RemoteFramebuffer.Text.Decimal

namespace RemoteFramebuffer
namespace Decimal

/-- The text is one or more digits, and they have this value. -/
def Spells (text : List Char) (n : Nat) : Prop :=
  text ≠ [] ∧ (∀ c ∈ text, c.isDigit = true) ∧ Nat.ofDigitChars 10 text 0 = n

variable {limit value n : Nat} {text : List Char}

theorem digit?_eq (c : Char) :
    digit? c = if c.isDigit = true then some (c.toNat - '0'.toNat) else none := rfl

theorem le_ofDigitChars (text : List Char) (value : Nat) :
    value ≤ Nat.ofDigitChars 10 text value := by
  induction text generalizing value with
  | nil => exact Nat.le_refl value
  | cons c rest ih =>
    rw [Nat.ofDigitChars_cons]
    exact Nat.le_trans (by omega) (ih _)

/-- Reading on behind digits that have a value.  The values on the way are no larger than the one
at the end, so it is enough that that one is within the limit. -/
theorem digitsFrom_eq_ok_iff :
    digitsFrom limit value text = .ok n ↔
      (∀ c ∈ text, c.isDigit = true) ∧ Nat.ofDigitChars 10 text value = n ∧
        (text ≠ [] → n ≤ limit) := by
  induction text generalizing value with
  | nil => simp [digitsFrom]
  | cons c rest ih =>
    have later := le_ofDigitChars rest (value * 10 + (c.toNat - '0'.toNat))
    rw [digitsFrom, digit?_eq, Nat.ofDigitChars_cons, Nat.mul_comm 10, List.forall_mem_cons]
    by_cases isDigit : c.isDigit = true
    · rw [if_pos isDigit]
      dsimp only
      split
      · rename_i large
        simp only [reduceCtorEq, false_iff]
        rintro ⟨-, rfl, within⟩
        exact Nat.not_le.mpr large (Nat.le_trans later (within (List.cons_ne_nil c rest)))
      · rename_i small
        rw [ih]
        constructor
        · rintro ⟨digits, rfl, within⟩
          refine ⟨⟨isDigit, digits⟩, rfl, fun _ => ?_⟩
          cases rest with
          | nil => exact Nat.le_of_not_lt small
          | cons c' rest => exact within (List.cons_ne_nil c' rest)
        · rintro ⟨⟨-, digits⟩, spelled, within⟩
          exact ⟨digits, spelled, fun _ => within (List.cons_ne_nil c rest)⟩
    · rw [if_neg isDigit]
      simp [isDigit]

theorem digitsFrom_zero_eq_ok_iff (some_text : text ≠ []) :
    digitsFrom limit 0 text = .ok n ↔ Spells text n ∧ n ≤ limit := by
  rw [digitsFrom_eq_ok_iff, Spells]
  constructor
  · rintro ⟨digits, spelled, within⟩
    exact ⟨⟨some_text, digits, spelled⟩, within some_text⟩
  · rintro ⟨⟨-, digits, spelled⟩, within⟩
    exact ⟨digits, spelled, fun _ => within⟩

theorem spells_toDigits (n : Nat) : Spells (Nat.toDigits 10 n) n :=
  ⟨Nat.toDigits_ne_nil,
    fun _ mem => Nat.isDigit_of_mem_toDigits (by decide) (Nat.le_refl 10) mem,
    Nat.ofDigitChars_ten_toDigits⟩

theorem Spells.not_mem (spells : Spells text n) {c : Char} (other : c.isDigit = false) :
    c ∉ text := fun mem => Bool.noConfusion (other.symm.trans (spells.2.1 c mem))

/-- **What is read as a number** within a limit spells it, or does so behind a plus sign. -/
theorem parse_eq_ok_iff :
    parse limit text = .ok n ↔
      ∃ digits, (text = digits ∨ text = '+' :: digits) ∧ Spells digits n ∧ n ≤ limit := by
  have plus_spells_nothing {rest : List Char} : ¬ Spells ('+' :: rest) n := fun spells =>
    spells.not_mem (c := '+') rfl (List.mem_cons_self ..)
  unfold parse
  split
  case h_1 =>
    refine iff_of_false nofun ?_
    rintro ⟨digits, rfl | plus, spells, -⟩
    · exact spells.1 rfl
    · exact List.cons_ne_nil _ _ plus.symm
  case h_2 rest =>
    by_cases alone : rest = []
    · subst alone
      simp only [List.isEmpty_nil, if_true, reduceCtorEq, false_iff]
      rintro ⟨digits, rfl | same, spells, -⟩
      · exact plus_spells_nothing spells
      · exact spells.1 (List.cons.inj same).2.symm
    · rw [List.isEmpty_eq_false_iff.mpr alone, if_neg Bool.false_ne_true,
        digitsFrom_zero_eq_ok_iff alone]
      constructor
      · exact fun read => ⟨rest, .inr rfl, read⟩
      · rintro ⟨digits, rfl | same, read⟩
        · exact absurd read.1 plus_spells_nothing
        · rw [(List.cons.inj same).2]
          exact read
  case h_3 some_text noPlus =>
    rw [digitsFrom_zero_eq_ok_iff some_text]
    constructor
    · exact fun read => ⟨text, .inl rfl, read⟩
    · rintro ⟨digits, rfl | plus, read⟩
      · exact read
      · exact absurd plus (noPlus digits)

end Decimal
end RemoteFramebuffer
