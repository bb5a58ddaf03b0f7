/-
# `RemoteFramebuffer.Deflate.Writing` — what a stream writes does not depend on when

An inflater decodes in runs that end for want of input or of space, and where they end depends on
how the input comes and how much is taken at a time.  `tick` is one step of it that is too small
for that: it writes a byte that is owed or reads a piece.  `Writes f out g` says that `f` comes to
`g` by ticks and writes `out` on the way.

    decode      Writes f piece g, and stands where it says it stopped
    feeding     Writes f out g  →  Writes (f.feed more) out (g.feed more)
    agreement   of two ways from f one is the start of the other

Every tick brings the end nearer: `size` counts what is still to be written and read, and no more
than that comes out.
-/
import RemoteFramebuffer.Deflate.Inflater
import RemoteFramebuffer.Deflate.Reading

namespace RemoteFramebuffer
namespace Deflate

theorem length_flatMap_bitsOfByte (input : Bytes) :
    (input.flatMap bitsOfByte).length = 8 * input.length := by
  induction input with
  | nil => rfl
  | cons b input ih =>
      rw [List.flatMap_cons, List.length_append, ih, List.length_cons]
      show 8 + _ = _
      omega

namespace Inflater

variable {f g h mid : Inflater} {out out' piece : Bytes} {input more : Bytes}

/-! ## Ticks -/

@[simp] theorem feed_nil (f : Inflater) : f.feed [] = f := by simp [feed]

theorem feed_append (f : Inflater) (input more : Bytes) :
    f.feed (input ++ more) = (f.feed input).feed more := by simp [feed]

def remaining (left distance : Nat) : Option Output :=
  if left = 0 then none else some (.copy left distance)

/-- Pays off a byte of what is owed; gives what was written. -/
def pay (f : Inflater) : Output → Bytes × Inflater
  | .literal byte => ([byte], { f.write byte with owed := none })
  | .copy 0 _ => ([], { f with owed := none })
  | .copy (left + 1) distance =>
    let byte := f.window.back distance
    ([byte], { f.write byte with owed := remaining left distance })

/-- Pays off what is owed or takes a step, if one can be taken; gives what was written. -/
def tick (f : Inflater) : Option (Bytes × Inflater) :=
  match f.owed with
  | some owed => some (f.pay owed)
  | none =>
    match f.phase.step f.bits with
    | .next phase rest owed => some ([], { f with phase, bits := rest, owed })
    | .short => none
    | .invalid => none

/-- Comes to `g` by ticks and writes `out` on the way. -/
inductive Writes : Inflater → Bytes → Inflater → Prop
  | refl {f : Inflater} : Writes f [] f
  | tick {f mid g : Inflater} {piece out : Bytes} : f.tick = some (piece, mid) →
      Writes mid out g → Writes f (piece ++ out) g

section

variable {owed : Output} {phase : Phase} {rest : Bits} {next : Option Output}

theorem tick_of_owed (eq : f.owed = some owed) : f.tick = some (f.pay owed) := by
  rw [tick, eq]

theorem tick_of_step (quiet : f.owed = none) (step : f.phase.step f.bits = .next phase rest next) :
    f.tick = some ([], { f with phase, bits := rest, owed := next }) := by
  rw [tick, quiet]
  simp only [step]

/-- A tick pays off what is owed, or takes a step where nothing is. -/
theorem tick_cases {P : Bytes → Inflater → Prop} (ticks : f.tick = some (piece, g))
    (pays : ∀ owed, f.owed = some owed → P (f.pay owed).1 (f.pay owed).2)
    (steps : ∀ phase rest owed, f.owed = none → f.phase.step f.bits = .next phase rest owed →
      P [] { f with phase, bits := rest, owed }) : P piece g := by
  unfold tick at ticks
  split at ticks
  · rename_i owed eq
    obtain rfl := congrArg Prod.fst (Option.some.inj ticks)
    obtain rfl := congrArg Prod.snd (Option.some.inj ticks)
    exact pays owed eq
  · split at ticks <;> cases ticks
    exact steps _ _ _ ‹_› ‹_›

theorem size_remaining {left distance : Nat} (h : remaining left distance = some owed) :
    owed.size = left := by
  unfold remaining at h
  split at h <;> cases h
  rfl

theorem length_pay (some_left : 0 < owed.size) : (f.pay owed).1.length = 1 := by
  unfold pay
  split
  · rfl
  · exact absurd some_left (Nat.lt_irrefl 0)
  · rfl

theorem length_pay_le : (f.pay owed).1.length ≤ owed.size := by
  unfold pay
  split
  · exact Nat.le_refl 1
  · exact Nat.le_refl 0
  · exact Nat.succ_pos _

theorem size_pay {rest : Output} (h : (f.pay owed).2.owed = some rest) :
    rest.size + 1 = owed.size := by
  unfold pay at h
  split at h
  · cases h
  · cases h
  · rw [size_remaining h]
    rfl

theorem bits_pay : (f.pay owed).2.bits = f.bits := by
  unfold pay
  split <;> rfl

theorem pay_feed : (f.feed more).pay owed = ((f.pay owed).1, (f.pay owed).2.feed more) := by
  unfold pay
  split <;> rfl

end

namespace Writes

theorem one (ticks : f.tick = some (piece, g)) : Writes f piece g := by
  rw [← List.append_nil piece]
  exact .tick ticks .refl

theorem trans (first : Writes f out mid) (second : Writes mid out' g) :
    Writes f (out ++ out') g := by
  induction first with
  | refl => exact second
  | tick ticks _ ih =>
      rw [List.append_assoc]
      exact .tick ticks (ih second)

/-- **There is one way to go on.** -/
theorem agree {g' : Inflater} (first : Writes f out g) (second : Writes f out' g') :
    (∃ late, out' = out ++ late ∧ Writes g late g') ∨
      ∃ late, out = out' ++ late ∧ Writes g' late g := by
  induction first generalizing out' with
  | refl => exact .inl ⟨out', rfl, second⟩
  | @tick f mid g piece out ticks rest ih =>
      cases second with
      | refl => exact .inr ⟨_, rfl, .tick ticks rest⟩
      | tick ticks' second =>
          obtain ⟨rfl, rfl⟩ := Prod.mk.inj (Option.some.inj (ticks.symm.trans ticks'))
          obtain ⟨late, rfl, writes⟩ | ⟨late, rfl, writes⟩ := ih second
          · exact .inl ⟨late, (List.append_assoc ..).symm, writes⟩
          · exact .inr ⟨late, (List.append_assoc ..).symm, writes⟩

theorem of_still (writes : Writes f out g) (still : f.tick = none) : out = [] ∧ f = g := by
  cases writes with
  | refl => exact ⟨rfl, rfl⟩
  | tick ticks => rw [still] at ticks; cases ticks

end Writes

/-! ## More input -/

/-- A step that can be taken is taken with more input at hand, too. -/
theorem tick_feed (ticks : f.tick = some (piece, g)) (more : Bytes) :
    (f.feed more).tick = some (piece, g.feed more) := by
  refine tick_cases (P := fun piece g => (f.feed more).tick = some (piece, g.feed more)) ticks
    (fun owed eq => ?_) fun phase rest owed quiet step => ?_
  · rw [← pay_feed]
    exact @tick_of_owed (f.feed more) owed eq
  · have whole : 8 ∣ (more.flatMap bitsOfByte).length := ⟨_, length_flatMap_bitsOfByte more⟩
    exact @tick_of_step (f.feed more) _ _ _ quiet ((Phase.reads_step _).next_append whole step)

theorem Writes.feed (writes : Writes f out g) (more : Bytes) :
    Writes (f.feed more) out (g.feed more) := by
  induction writes with
  | refl => exact .refl
  | tick ticks _ ih => exact .tick (tick_feed ticks more) ih

/-! ## What is left to do -/

/-- How much of an output there is still to do. -/
def sizeOwed : Option Output → Nat
  | none => 0
  | some owed => owed.size + 1

/-- How much there is still to write and read, at most. -/
def size (f : Inflater) : Nat := 260 * f.bits.length + sizeOwed f.owed

theorem size_tick (ticks : f.tick = some (piece, g)) :
    piece.length + g.size ≤ f.size := by
  refine tick_cases (P := fun piece g => piece.length + g.size ≤ f.size) ticks
    (fun owed eq => ?_) fun phase rest owed quiet step => ?_
  · have paid : (f.pay owed).1.length + sizeOwed (f.pay owed).2.owed ≤ owed.size + 1 := by
      have few : (f.pay owed).1.length ≤ owed.size := length_pay_le
      cases left : (f.pay owed).2.owed with
      | none => exact Nat.le_succ_of_le few
      | some rest =>
          have less := size_pay left
          have byte : (f.pay owed).1.length = 1 := length_pay (by omega)
          simp only [sizeOwed]
          omega
    simp only [size, bits_pay, eq]
    rw [show sizeOwed (some owed) = owed.size + 1 from rfl]
    omega
  · have reads := Phase.reads_step f.phase
    obtain ⟨front, split, long⟩ := reads.piece step
    have few : sizeOwed owed ≤ maxMatch + 1 := by
      cases owed with
      | none => exact Nat.zero_le _
      | some owed => exact Nat.succ_le_succ (reads.small step)
    simp only [size, quiet, split, List.length_append, List.length_nil, sizeOwed, maxMatch] at few ⊢
    omega

theorem Writes.size_le (writes : Writes f out g) : out.length + g.size ≤ f.size := by
  induction writes with
  | refl => simp
  | @tick f mid g piece out ticks _ later =>
      have first := size_tick ticks
      rw [List.length_append]
      omega

/-! ## Where decoding stops -/

/-- Nothing is owed, and the next step needs more input. -/
structure Waiting (f : Inflater) : Prop where
  quiet : f.owed = none
  step : f.phase.step f.bits = .short
  unfinished : ∀ sum, f.phase ≠ .finished sum

/-- At the end of the stream, with the checksum that it has. -/
structure Finished (f : Inflater) : Prop where
  quiet : f.owed = none
  phase : f.phase = .finished f.checksum.value

structure Broken (f : Inflater) : Prop where
  quiet : f.owed = none
  breach : f.phase.step f.bits = .invalid ∨ ∃ sum, f.phase = .finished sum ∧ sum ≠ f.checksum.value

theorem Waiting.still (h : f.Waiting) : f.tick = none := by
  rw [tick, h.quiet]
  simp only [h.step]

theorem Finished.still (h : f.Finished) : f.tick = none := by
  rw [tick, h.quiet]
  simp only [h.phase, Phase.step]

theorem Broken.still (h : f.Broken) : f.tick = none := by
  rw [tick, h.quiet]
  obtain invalid | ⟨sum, finished, -⟩ := h.breach
  · simp only [invalid]
  · simp only [finished, Phase.step]

theorem Broken.feed (h : f.Broken) (more : Bytes) : (f.feed more).Broken := by
  refine ⟨h.quiet, h.breach.imp_left fun invalid => ?_⟩
  exact (Phase.reads_step _).invalid_append
    ⟨more.length, length_flatMap_bitsOfByte more⟩ invalid

theorem Waiting.not_broken (h : f.Waiting) : ¬ f.Broken := by
  rintro ⟨-, invalid | ⟨sum, finished, -⟩⟩
  · cases h.step.symm.trans invalid
  · exact h.unfinished sum finished

theorem Finished.not_broken (h : f.Finished) : ¬ f.Broken := by
  rintro ⟨-, invalid | ⟨sum, finished, differs⟩⟩
  · rw [h.phase] at invalid
    cases invalid
  · exact differs (Phase.finished.inj (finished.symm.trans h.phase))

/-- What a stop says of the place, with `space` left. -/
inductive Stopped (f : Inflater) (space : Nat) : Stop → Prop
  | starved : f.Waiting → Stopped f space .starved
  | full : space = 0 → (∀ owed, f.owed = some owed → 0 < owed.size) →
      (f.owed = none → ∃ last left, f.phase = .stored last left) → Stopped f space .full
  | ended : f.Finished → Stopped f space .ended
  | broken : f.Broken → Stopped f space .broken

theorem copyBack_owed (owed : Option Output) (distance : Nat) (out : Bytes) (count : Nat) :
    ({ f with owed } : Inflater).copyBack distance out count =
      ({ (f.copyBack distance out count).1 with owed }, (f.copyBack distance out count).2) := by
  induction count generalizing f out with
  | zero => rfl
  | succ count ih => exact @ih (f.write (f.window.back distance)) _

theorem writes_copyBack {distance count left : Nat}
    (owed : f.owed = some (.copy (count + left) distance)) (out : Bytes) :
    ∃ piece, (f.copyBack distance out count).2 = piece.reverse ++ out ∧ piece.length = count ∧
      Writes f piece { (f.copyBack distance out count).1 with owed := remaining left distance } := by
  induction count generalizing f out with
  | zero =>
      refine ⟨[], rfl, rfl, ?_⟩
      rw [Nat.zero_add] at owed
      cases left with
      | zero =>
          refine .one ?_
          rw [tick_of_owed owed]
          rfl
      | succ left =>
          have same : ({ f with owed := remaining (left + 1) distance } : Inflater) = f := by
            rw [show remaining (left + 1) distance = f.owed from owed.symm]
          rw [copyBack, same]
          exact .refl
  | succ count ih =>
      let byte := f.window.back distance
      let mid : Inflater := { f.write byte with owed := remaining (count + left) distance }
      have ticks : f.tick = some ([byte], mid) := by
        rw [tick_of_owed owed, Nat.add_right_comm]
        rfl
      by_cases last : count + left = 0
      · obtain ⟨rfl, rfl⟩ := Nat.add_eq_zero_iff.mp last
        exact ⟨[byte], rfl, rfl, .one ticks⟩
      · obtain ⟨piece, eq, length, writes⟩ := ih (f := mid) (if_neg last) (byte :: out)
        rw [show mid = { f.write byte with owed := remaining (count + left) distance } from rfl,
          copyBack_owed] at eq writes
        refine ⟨byte :: piece, ?_, congrArg (· + 1) length, .tick ticks writes⟩
        rw [copyBack, eq, List.reverse_cons, List.append_assoc]
        rfl

theorem copyBack_same (distance : Nat) (out : Bytes) (count : Nat) :
    (f.copyBack distance out count).1.bits = f.bits ∧
      (f.copyBack distance out count).1.phase = f.phase := by
  induction count generalizing f out with
  | zero => exact ⟨rfl, rfl⟩
  | succ count ih => exact @ih (f.write (f.window.back distance)) _

theorem writes_settle (f : Inflater) (space : Nat) (out : Bytes) :
    ∃ piece g, f.settle space out = (g, space - piece.length, piece.reverse ++ out) ∧
      Writes f piece g ∧ piece.length ≤ space ∧ (g.bits = f.bits ∧ g.phase = f.phase) ∧
      ∀ owed, g.owed = some owed → piece.length = space ∧ 0 < owed.size := by
  unfold settle
  split
  · rename_i quiet
    refine ⟨[], f, rfl, .refl, Nat.zero_le _, ⟨rfl, rfl⟩, fun _ owed => ?_⟩
    cases quiet.symm.trans owed
  · rename_i byte owed
    split
    · rename_i none_left
      subst none_left
      refine ⟨[], f, rfl, .refl, Nat.zero_le _, ⟨rfl, rfl⟩, fun _ same => ⟨rfl, ?_⟩⟩
      cases owed.symm.trans same
      exact Nat.one_pos
    · rename_i some_left
      refine ⟨[byte], _, rfl, .one ?_, Nat.pos_of_ne_zero some_left, ⟨rfl, rfl⟩, nofun⟩
      rw [tick_of_owed owed]
      rfl
  · rename_i length distance owed
    have split : min space length + (length - min space length) = length :=
      Nat.add_sub_of_le (Nat.min_le_right ..)
    rw [← split] at owed
    obtain ⟨piece, eq, count, writes⟩ := writes_copyBack owed out
    refine ⟨piece, _, ?_, writes, ?_, copyBack_same distance out _, fun rest more => ?_⟩
    · dsimp only
      rw [eq, count]
      rfl
    · rw [count]
      exact Nat.min_le_left ..
    · have left : length - min space length ≠ 0 := by
        intro none_left
        rw [show remaining (length - min space length) distance = none from if_pos none_left]
          at more
        cases more
      rw [size_remaining more]
      omega

theorem stored_of_mustWait {space : Nat} (waits : f.mustWait space = true) :
    space = 0 ∧ ∃ last left, f.phase = .stored last left := by
  unfold mustWait at waits
  split at waits
  · exact ⟨of_decide_eq_true waits, _, _, ‹_›⟩
  · cases waits

theorem writes_decode {fuel space : Nat} {stop : Stop}
    (enough : f.bits.length < fuel) (run : decode fuel f space out = (g, stop, out')) :
    ∃ piece, out' = piece.reverse ++ out ∧ Writes f piece g ∧ piece.length ≤ space ∧
      Stopped g (space - piece.length) stop := by
  induction fuel generalizing f space out with
  | zero => exact absurd enough (Nat.not_lt_zero _)
  | succ fuel ih =>
      obtain ⟨piece, mid, settled, writes, fits, ⟨bits, phase⟩, paid⟩ := writes_settle f space out
      simp only [decode, settled] at run
      split at run
      · rename_i waits
        cases run
        refine ⟨piece, rfl, writes, fits, .full ?_ (fun owed eq => (paid owed eq).2) ?_⟩
        · rw [Bool.or_eq_true] at waits
          obtain owed | stored := waits
          · obtain ⟨owed, eq⟩ := Option.isSome_iff_exists.mp owed
            rw [(paid owed eq).1, Nat.sub_self]
          · exact (stored_of_mustWait stored).1
        · intro quiet
          rw [quiet, Option.isSome_none, Bool.false_or] at waits
          exact (stored_of_mustWait waits).2
      · rename_i goes
        have quiet : mid.owed = none := by
          rw [Bool.or_eq_true, not_or] at goes
          exact Option.not_isSome_iff_eq_none.mp goes.1
        split at run
        · rename_i sum finished
          cases run
          refine ⟨piece, rfl, writes, fits, ?_⟩
          split
          · rename_i same
            exact .ended ⟨quiet, finished.trans (congrArg _ same)⟩
          · rename_i differs
            exact .broken ⟨quiet, .inr ⟨sum, finished, differs⟩⟩
        · rename_i unfinished
          split at run
          · rename_i short
            cases run
            exact ⟨piece, rfl, writes, fits, .starved ⟨quiet, short, unfinished⟩⟩
          · rename_i invalid
            cases run
            exact ⟨piece, rfl, writes, fits, .broken ⟨quiet, .inl invalid⟩⟩
          · rename_i phase' rest owed step
            have ticks := tick_of_step quiet step
            obtain ⟨front, split, long⟩ := (Phase.reads_step _).piece step
            have fewer : rest.length < fuel := by
              rw [← bits, split, List.length_append] at enough
              omega
            obtain ⟨later, rfl, writes', fits', stopped⟩ := ih fewer run
            refine ⟨piece ++ later, ?_, writes.trans (.tick ticks writes'), ?_, ?_⟩
            · rw [List.reverse_append, List.append_assoc]
            · rw [List.length_append]
              omega
            · rw [List.length_append, ← Nat.sub_sub]
              exact stopped

end Inflater

end Deflate
end RemoteFramebuffer
