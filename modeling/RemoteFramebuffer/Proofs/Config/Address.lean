/-
# `RemoteFramebuffer.Proofs.Config.Address` — which texts are the address of a server

People write an address in one of four forms, with a number `n` of digits up to 65535:

    host             no bracket at the start, and no colon or more than one
    host:n           no bracket at the start, and no colon in the host
    [host]           no closing bracket in the host
    [host]:n         the same

The host is not empty.  Without a number the port is 5900, a number below 100 counts from there on,
and any other is the port itself.

All of these are read as they are meant.  Two more kinds of text are let pass (`Tolerated`): what
stands behind the closing bracket is dropped unless it begins with a colon, and a number may have a
plus sign.  Nothing else is taken for an address (`written_or_tolerated_of_isCut`).
-/
import RemoteFramebuffer.Config.Address
import RemoteFramebuffer.Proofs.Text.Decimal

namespace RemoteFramebuffer
namespace Address

/-! ## The forms of an address -/

def meant (number : Nat) : Nat := if number < 100 then 5900 + number else number

def IsNumber (text : List Char) (n : Nat) : Prop := Decimal.Spells text n ∧ n ≤ 65535

structure IsPlainHost (host : List Char) : Prop where
  some_host : host ≠ []
  unbracketed : host.head? ≠ some '['

structure IsInnerHost (host : List Char) : Prop where
  some_host : host ≠ []
  closed : ']' ∉ host

/-- The texts that are meant to be an address, with the host and port that they are meant to be. -/
inductive Written : List Char → List Char → Nat → Prop
  | host {host : List Char} : IsPlainHost host → ':' ∉ host ∨ 2 ≤ host.count ':' →
      Written host host 5900
  | hostNumber {host digits : List Char} {n : Nat} : IsPlainHost host → ':' ∉ host →
      IsNumber digits n → Written (host ++ ':' :: digits) host (meant n)
  | bracketed {host : List Char} : IsInnerHost host → Written ('[' :: host ++ [']']) host 5900
  | bracketedNumber {host digits : List Char} {n : Nat} : IsInnerHost host →
      IsNumber digits n → Written ('[' :: host ++ ']' :: ':' :: digits) host (meant n)

inductive Tolerated : List Char → List Char → Nat → Prop
  | behindBracket {host rest : List Char} : IsInnerHost host → rest ≠ [] →
      rest.head? ≠ some ':' → Tolerated ('[' :: host ++ ']' :: rest) host 5900
  | hostPlus {host digits : List Char} {n : Nat} : IsPlainHost host → ':' ∉ host →
      IsNumber digits n → Tolerated (host ++ ':' :: '+' :: digits) host (meant n)
  | bracketedPlus {host digits : List Char} {n : Nat} : IsInnerHost host →
      IsNumber digits n → Tolerated ('[' :: host ++ ']' :: ':' :: '+' :: digits) host (meant n)

/-! ## Cutting a text -/

variable {c : Char} {s front behind host digits : List Char} {n : Nat}

theorem splitAt_append (first : c ∉ front) :
    splitAt c (front ++ c :: behind) = some (front, behind) := by
  have before : ∀ d ∈ front, (d != c) = true := fun d mem =>
    bne_iff_ne.mpr fun same => first (same ▸ mem)
  rw [splitAt, List.dropWhile_append_of_pos before, List.takeWhile_append_of_pos before]
  simp

theorem splitAt_eq_none (absent : c ∉ s) : splitAt c s = none := by
  have all : ∀ d ∈ s, (d != c) = true := fun d mem => bne_iff_ne.mpr fun same => absent (same ▸ mem)
  rw [splitAt, ← List.append_nil s, List.dropWhile_append_of_pos all]
  rfl

/-- The number behind a closing bracket, if a colon comes first. -/
def numberBehind : List Char → Option (List Char)
  | ':' :: number => some number
  | _ => none

theorem numberBehind_of_head_ne (noColon : behind.head? ≠ some ':') : numberBehind behind = none := by
  unfold numberBehind
  split
  · exact absurd List.head?_cons noColon
  · rfl

theorem split_bracketed (closed : ']' ∉ host) :
    split ('[' :: host ++ ']' :: behind) = some (host, numberBehind behind) := by
  rw [List.cons_append, split, splitAt_append closed]
  show some (match behind with
    | ':' :: number => (host, some number)
    | _ => (host, none)) = some (host, numberBehind behind)
  split
  · rfl
  · rename_i noColon
    rw [numberBehind]
    exact noColon

theorem split_unterminated (open_end : ']' ∉ s) : split ('[' :: s) = none := by
  rw [split, splitAt_eq_none open_end, Option.map_none]

theorem split_unbracketed (unbracketed : s.head? ≠ some '[') :
    split s = if 1 < s.count ':' then some (s, none)
      else match splitAt ':' s with
        | some (host, number) => some (host, some number)
        | none => some (s, none) := by
  unfold split
  split
  · exact absurd List.head?_cons unbracketed
  · rfl

theorem split_host (unbracketed : s.head? ≠ some '[') (colons : ':' ∉ s ∨ 2 ≤ s.count ':') :
    split s = some (s, none) := by
  rw [split_unbracketed unbracketed]
  split
  · rfl
  · rename_i few
    rw [splitAt_eq_none (colons.resolve_right few)]

theorem split_hostNumber (unbracketed : (host ++ ':' :: behind).head? ≠ some '[')
    (first : ':' ∉ host) (last : ':' ∉ behind) :
    split (host ++ ':' :: behind) = some (host, some behind) := by
  have once : (host ++ ':' :: behind).count ':' = 1 := by
    rw [List.count_append, List.count_cons_self, List.count_eq_zero.mpr first,
      List.count_eq_zero.mpr last]
  rw [split_unbracketed unbracketed, once, if_neg (Nat.lt_irrefl 1), splitAt_append first]

theorem head_append (some_host : host ≠ []) : (host ++ behind).head? = host.head? := by
  obtain ⟨c, rest, rfl⟩ := List.exists_cons_of_ne_nil some_host
  rfl

/-- How a text is cut depends on whether it begins with a bracket, and then on whether that is
closed, or else on how many colons it has. -/
inductive Shape : List Char → Prop
  | unterminated {rest : List Char} : ']' ∉ rest → Shape ('[' :: rest)
  | bracketed {host behind : List Char} : ']' ∉ host → Shape ('[' :: host ++ ']' :: behind)
  | host {s : List Char} : s.head? ≠ some '[' → ':' ∉ s ∨ 2 ≤ s.count ':' → Shape s
  | hostNumber {host behind : List Char} : (host ++ ':' :: behind).head? ≠ some '[' → ':' ∉ host →
      ':' ∉ behind → Shape (host ++ ':' :: behind)

theorem exists_shape (s : List Char) : Shape s := by
  by_cases bracket : s.head? = some '['
  · obtain ⟨rest, rfl⟩ := List.head?_eq_some_iff.mp bracket
    by_cases closes : ']' ∈ rest
    · obtain ⟨host, behind, rfl, closed⟩ := List.eq_append_cons_of_mem closes
      exact .bracketed closed
    · exact .unterminated closes
  · by_cases colon : ':' ∈ s
    · obtain ⟨host, behind, rfl, first⟩ := List.eq_append_cons_of_mem colon
      by_cases again : ':' ∈ behind
      · refine .host bracket (.inr ?_)
        have more := List.count_pos_iff.mpr again
        rw [List.count_append, List.count_cons_self]
        omega
      · exact .hostNumber bracket first again
    · exact .host bracket (.inl colon)

/-! ## Reading -/

/-- The port that is read from the number of an address, if it has one. -/
def Reads : Option (List Char) → Nat → Prop
  | none, port => port = 5900
  | some text, port => ∃ digits n, (text = digits ∨ text = '+' :: digits) ∧ IsNumber digits n ∧
      port = meant n

theorem portOf_eq (n : Nat) : portOf n = meant n := rfl

theorem meant_lt (small : n ≤ 65535) : meant n < 65536 := by
  rw [meant]
  split <;> omega

theorem ofNat_eq_iff {port : UInt16} {p : Nat} (small : p < 65536) :
    UInt16.ofNat p = port ↔ port.toNat = p := by
  rw [← UInt16.toNat_inj, UInt16.toNat_ofNat_of_lt' small]
  exact eq_comm

theorem ofList_eq_iff {host : String} : String.ofList front = host ↔ host.toList = front := by
  rw [← String.toList_inj, String.toList_ofList]
  exact eq_comm

/-- The text is cut into a host and, if it has one, a number that is read as the port. -/
def IsCut (s host : List Char) (port : Nat) : Prop :=
  ∃ number, split s = some (host, number) ∧ host ≠ [] ∧ Reads number port

theorem parse_eq_ok_iff_isCut {text host : String} {port : UInt16} :
    parse text = .ok ⟨host, port⟩ ↔ IsCut text.toList host.toList port.toNat := by
  rw [parse, IsCut]
  cases split text.toList with
  | none =>
    refine iff_of_false nofun ?_
    rintro ⟨number, cut, -⟩
    cases cut
  | some found =>
    obtain ⟨front, number⟩ := found
    simp only [Option.some.injEq, Prod.mk.injEq]
    by_cases some_host : front = []
    · subst some_host
      refine iff_of_false nofun ?_
      rintro ⟨number', ⟨empty, -⟩, some_host, -⟩
      exact some_host empty.symm
    rw [List.isEmpty_eq_false_iff.mpr some_host, if_neg Bool.false_ne_true]
    -- Only one number was cut, so the host and what is read of the number are left to compare.
    have only : (∃ number', (front = host.toList ∧ number = number') ∧ host.toList ≠ [] ∧
        Reads number' port.toNat) ↔ host.toList = front ∧ Reads number port.toNat := by
      constructor
      · rintro ⟨number', ⟨same, rfl⟩, -, reads⟩
        exact ⟨same.symm, reads⟩
      · rintro ⟨same, reads⟩
        exact ⟨number, ⟨same.symm, rfl⟩, same ▸ some_host, reads⟩
    rw [only]
    cases number with
    | none =>
      rw [Except.ok.injEq, mk.injEq, ofList_eq_iff, ofNat_eq_iff (by decide)]
      rfl
    | some number =>
      cases read : Decimal.parse 65535 number with
      | ok n =>
        obtain ⟨digits, spelled, isNumber⟩ := Decimal.parse_eq_ok_iff.mp read
        simp only [read]
        rw [Except.ok.injEq, mk.injEq, ofList_eq_iff, portOf_eq, ofNat_eq_iff (meant_lt isNumber.2)]
        refine and_congr_right fun _ => ⟨fun p => ⟨digits, n, spelled, isNumber, p⟩, ?_⟩
        rintro ⟨digits', n', spelled', isNumber', p⟩
        have read' := Decimal.parse_eq_ok_iff.mpr ⟨digits', spelled', isNumber'⟩
        rw [read, Except.ok.injEq] at read'
        rw [p, read']
      | error e =>
        simp only [read]
        refine iff_of_false nofun ?_
        rintro ⟨-, digits, n, spelled, isNumber, -⟩
        have read' := Decimal.parse_eq_ok_iff.mpr ⟨digits, spelled, isNumber⟩
        rw [read] at read'
        cases read'

/-! ## The texts that are taken -/

variable {p : Nat}

theorem IsNumber.colon (isNumber : IsNumber digits n) : ':' ∉ digits := isNumber.1.not_mem rfl

theorem IsNumber.colon_plus (isNumber : IsNumber digits n) : ':' ∉ '+' :: digits := fun mem =>
  (List.mem_cons.mp mem).elim (fun plus => absurd plus (by decide)) isNumber.colon

theorem IsPlainHost.head (plain : IsPlainHost host) : (host ++ behind).head? ≠ some '[' :=
  head_append plain.some_host ▸ plain.unbracketed

theorem isCut_of_written (written : Written s host p) : IsCut s host p := by
  cases written with
  | host plain colons => exact ⟨none, split_host plain.unbracketed colons, plain.some_host, rfl⟩
  | hostNumber plain first isNumber =>
    exact ⟨_, split_hostNumber plain.head first isNumber.colon, plain.some_host, _, _, .inl rfl,
      isNumber, rfl⟩
  | bracketed inner => exact ⟨none, split_bracketed inner.closed, inner.some_host, rfl⟩
  | bracketedNumber inner isNumber =>
    exact ⟨_, split_bracketed inner.closed, inner.some_host, _, _, .inl rfl, isNumber, rfl⟩

theorem isCut_of_tolerated (tolerated : Tolerated s host p) : IsCut s host p := by
  cases tolerated with
  | behindBracket inner some_rest noColon =>
    exact ⟨none, (split_bracketed inner.closed).trans
      (by rw [numberBehind_of_head_ne noColon]), inner.some_host, rfl⟩
  | hostPlus plain first isNumber =>
    exact ⟨_, split_hostNumber plain.head first isNumber.colon_plus, plain.some_host, _, _,
      .inr rfl, isNumber, rfl⟩
  | bracketedPlus inner isNumber =>
    exact ⟨_, split_bracketed inner.closed, inner.some_host, _, _, .inr rfl, isNumber, rfl⟩

/-- What was cut and read is an address in one of its forms, or let pass.  Which it is depends on
the shape of the text. -/
theorem written_or_tolerated_of_isCut (isCut : IsCut s host p) :
    Written s host p ∨ Tolerated s host p := by
  obtain ⟨number, cut, some_host, reads⟩ := isCut
  cases exists_shape s with
  | unterminated open_end =>
    rw [split_unterminated open_end] at cut
    cases cut
  | @bracketed _ behind closed =>
    rw [split_bracketed closed] at cut
    cases cut
    have inner : IsInnerHost host := ⟨some_host, closed⟩
    by_cases colon : behind.head? = some ':'
    · obtain ⟨number, rfl⟩ := List.head?_eq_some_iff.mp colon
      obtain ⟨digits, n, rfl | rfl, isNumber, rfl⟩ := reads
      · exact .inl (.bracketedNumber inner isNumber)
      · exact .inr (.bracketedPlus inner isNumber)
    · rw [numberBehind_of_head_ne colon] at reads
      obtain rfl : p = 5900 := reads
      by_cases nothing : behind = []
      · subst nothing
        exact .inl (.bracketed inner)
      · exact .inr (.behindBracket inner nothing colon)
  | host unbracketed colons =>
    rw [split_host unbracketed colons] at cut
    cases cut
    obtain rfl : p = 5900 := reads
    exact .inl (.host ⟨some_host, unbracketed⟩ colons)
  | hostNumber unbracketed first last =>
    rw [split_hostNumber unbracketed first last] at cut
    cases cut
    have plain : IsPlainHost host := ⟨some_host, head_append some_host ▸ unbracketed⟩
    obtain ⟨digits, n, rfl | rfl, isNumber, rfl⟩ := reads
    · exact .inl (.hostNumber plain first isNumber)
    · exact .inr (.hostPlus plain first isNumber)

/-- What is cut from an address in one of its forms: a number if anything, and nothing stands behind
the bracket if there is none. -/
theorem Written.split_eq (written : Written s host p) :
    ∃ number, split s = some (host, number) ∧ (∀ text, number = some text → ∃ n, IsNumber text n) ∧
      (number = none → s.head? = some '[' → s = '[' :: host ++ [']']) := by
  cases written with
  | host plain colons =>
    exact ⟨none, split_host plain.unbracketed colons, nofun,
      fun _ bracket => absurd bracket plain.unbracketed⟩
  | hostNumber plain first isNumber =>
    refine ⟨_, split_hostNumber plain.head first isNumber.colon, ?_, nofun⟩
    rintro text ⟨⟩
    exact ⟨_, isNumber⟩
  | bracketed inner => exact ⟨none, split_bracketed inner.closed, nofun, fun _ _ => rfl⟩
  | bracketedNumber inner isNumber =>
    refine ⟨_, split_bracketed inner.closed, ?_, nofun⟩
    rintro text ⟨⟩
    exact ⟨_, isNumber⟩

theorem IsNumber.ne_plus : ¬ IsNumber ('+' :: digits) n := fun isNumber =>
  isNumber.1.not_mem (c := '+') rfl (List.mem_cons_self ..)

theorem Tolerated.not_written {host' : List Char} {p' : Nat} (tolerated : Tolerated s host p) :
    ¬ Written s host' p' := by
  intro written
  obtain ⟨number, cut, numbers, nothing⟩ := written.split_eq
  cases tolerated with
  | behindBracket inner some_rest noColon =>
    rw [split_bracketed inner.closed, numberBehind_of_head_ne noColon] at cut
    cases cut
    have same := nothing rfl rfl
    rw [List.append_cancel_left_eq, List.cons.injEq] at same
    exact some_rest same.2
  | hostPlus plain first isNumber =>
    rw [split_hostNumber plain.head first isNumber.colon_plus] at cut
    cases cut
    obtain ⟨n, signed⟩ := numbers _ rfl
    exact signed.ne_plus
  | bracketedPlus inner isNumber =>
    rw [split_bracketed inner.closed] at cut
    cases cut
    obtain ⟨n, signed⟩ := numbers _ rfl
    exact signed.ne_plus

/-- **The texts that are taken for an address** are the forms in which one is written and those that
are let pass beyond them, which are none of the former.  Any other text is refused. -/
theorem parse_accepts (text : String) :
    (∀ host port, parse text = .ok ⟨host, port⟩ ↔
      Written text.toList host.toList port.toNat ∨ Tolerated text.toList host.toList port.toNat) ∧
    (∀ host port host' port', Tolerated text.toList host port → ¬ Written text.toList host' port') ∧
    ((∀ host port, ¬ Written text.toList host port ∧ ¬ Tolerated text.toList host port) →
      ∃ e, parse text = .error e) := by
  have taken {host : String} {port : UInt16} : parse text = .ok ⟨host, port⟩ ↔
      Written text.toList host.toList port.toNat ∨
        Tolerated text.toList host.toList port.toNat := by
    rw [parse_eq_ok_iff_isCut]
    exact ⟨written_or_tolerated_of_isCut, fun form => form.elim isCut_of_written isCut_of_tolerated⟩
  refine ⟨fun host port => taken, fun _ _ _ _ tolerated => tolerated.not_written, fun no_form => ?_⟩
  cases outcome : parse text with
  | error e => exact ⟨e, rfl⟩
  | ok address =>
    obtain ⟨notWritten, notTolerated⟩ := no_form address.host.toList address.port.toNat
    exact ((taken.mp outcome).elim notWritten notTolerated).elim

/-- Text behind the closing bracket is dropped, and a plus sign is as good as none. -/
theorem undocumented_let_pass :
    (parse "[::1]junk" = .ok ⟨"::1", 5900⟩ ∧ ∀ host port, ¬ Written "[::1]junk".toList host port) ∧
      parse "localhost:+1" = .ok ⟨"localhost", 5901⟩ ∧
        ∀ host port, ¬ Written "localhost:+1".toList host port := by
  have inner : IsInnerHost "::1".toList := ⟨by decide, by decide⟩
  have plain : IsPlainHost "localhost".toList := ⟨by decide, by decide⟩
  have one : IsNumber ['1'] 1 :=
    ⟨⟨List.cons_ne_nil _ _, List.forall_mem_singleton.mpr rfl, rfl⟩, by decide⟩
  have junk : Tolerated ('[' :: "::1".toList ++ ']' :: "junk".toList) "::1".toList 5900 :=
    .behindBracket inner (by decide) (by decide)
  have plus : Tolerated "localhost:+1".toList "localhost".toList 5901 :=
    .hostPlus plain (by decide) one
  exact ⟨⟨parse_eq_ok_iff_isCut.mpr (isCut_of_tolerated junk), fun _ _ => junk.not_written⟩,
    parse_eq_ok_iff_isCut.mpr (isCut_of_tolerated plus), fun _ _ => plus.not_written⟩

end Address
end RemoteFramebuffer
