/-
# `RemoteFramebuffer.Proofs.Wire.Failure` — why a reader fails, told from its stream

A reader fails in one of two ways.  It asks for a piece that the stream no longer holds, or it
has read what it asked for and turns it down:

    r.run input = error, rest left        and   r.RunsOut input      an error of a short stream
    r.run input = error, rest left        and   ¬ r.RunsOut input    an error of its own

The second is settled by what was read: the same stream with more behind it fails the same
(`runsOut_iff_more`).  `Shorts P` bounds the errors of the first kind and `Refuses Q` those of the
second; both are read off the tree of questions, once for each reader.
-/
import RemoteFramebuffer.Proofs.Wire.Reader

namespace RemoteFramebuffer.Reader

variable {ε ε' α β : Type} {P Q : ε → Prop}

/-! ## Errors of a reader's own -/

/-- Every error that the reader gives for what it has read satisfies `Q`. -/
inductive Refuses (Q : ε → Prop) : Reader ε α → Prop
  | ok (a : α) : Refuses Q (.done (.ok a))
  | error {e : ε} : Q e → Refuses Q (.done (.error e))
  | take {count : Nat} {short : Nat → ε} {next : Bytes → Reader ε α} :
      (∀ piece, Refuses Q (next piece)) → Refuses Q (.take count short next)

namespace Refuses

theorem pure (a : α) : Refuses Q (Pure.pure a : Reader ε α) := .ok a

theorem fail {e : ε} (h : Q e) : Refuses Q (Reader.fail e : Reader ε α) := .error h

theorem imp {Q' : ε → Prop} {r : Reader ε α} (hr : Refuses Q r) (h : ∀ e, Q e → Q' e) :
    Refuses Q' r := by
  induction hr with
  | ok a => exact .ok a
  | error own => exact .error (h _ own)
  | take _ ih => exact .take ih

theorem bind {r : Reader ε α} {f : α → Reader ε β} (hr : Refuses Q r)
    (hf : ∀ a, Refuses Q (f a)) : Refuses Q (r >>= f) := by
  show Refuses Q (r.bind f)
  induction hr with
  | ok a => exact hf a
  | error h => exact .error h
  | take _ ih => exact .take ih

theorem map {r : Reader ε α} (f : α → β) (hr : Refuses Q r) : Refuses Q (f <$> r) :=
  bind hr fun a => pure (f a)

theorem mapError {Q' : ε' → Prop} {r : Reader ε α} {f : ε → ε'} (hr : Refuses Q r)
    (hf : ∀ e, Q e → Q' (f e)) : Refuses Q' (r.mapError f) := by
  induction hr with
  | ok a => exact .ok a
  | error h => exact .error (hf _ h)
  | take _ ih => exact .take ih

theorem recorded {r : Reader ε α} (hr : Refuses Q r) (seen : List Bytes) :
    Refuses (fun e : ε × List Bytes => Q e.1) (r.recorded seen) := by
  induction hr generalizing seen with
  | ok a => exact .ok _
  | error h => exact .error h
  | take _ ih => exact .take fun piece => ih piece _

end Refuses

theorem Shorts.recorded {r : Reader ε α} (hr : Shorts P r) (seen : List Bytes) :
    Shorts (fun e : ε × List Bytes => P e.1) (r.recorded seen) := by
  induction hr generalizing seen with
  | @done result => cases result <;> exact .done
  | take hshort _ ih => exact .take hshort fun piece => ih piece _

/-! ## Failing runs of composed readers -/

theorem run_bind_error {r : Reader ε α} {f : α → Reader ε β} {input rest : Bytes} {e : ε} :
    (r >>= f).run input = (.error e, rest) ↔
      r.run input = (.error e, rest) ∨
        ∃ a mid, r.run input = (.ok a, mid) ∧ (f a).run mid = (.error e, rest) := by
  rw [run_bind]
  rcases r.run input with ⟨_ | a, mid⟩
  · simp
  · constructor
    · intro h
      exact .inr ⟨a, mid, rfl, h⟩
    · rintro (h | ⟨_, _, h, hf⟩)
      · cases h
      · cases h
        exact hf

theorem run_mapError_error {f : ε → ε'} {r : Reader ε α} {input rest : Bytes} {e' : ε'} :
    (r.mapError f).run input = (.error e', rest) ↔
      ∃ e, r.run input = (.error e, rest) ∧ f e = e' := by
  rw [run_mapError]
  rcases r.run input with ⟨e | _, mid⟩
  · constructor
    · intro h
      cases h
      exact ⟨e, rfl, rfl⟩
    · rintro ⟨_, h, rfl⟩
      cases h
      rfl
  · exact ⟨nofun, fun ⟨_, h, _⟩ => nomatch h⟩

/-! ## The end of the stream -/

/-- The stream ends before the bytes that the reader needs next. -/
def RunsOut (r : Reader ε α) (input : Bytes) : Prop :=
  ∃ count short next left, r.resume input = (.take count short next, left) ∧ left.length < count

variable {r : Reader ε α} {input rest : Bytes} {e : ε}

theorem runsOut_take {count : Nat} {short : Nat → ε} {next : Bytes → Reader ε α} :
    (take count short next).RunsOut input ↔
      input.length < count ∨
        count ≤ input.length ∧ (next (input.take count)).RunsOut (input.drop count) := by
  by_cases enough : count ≤ input.length
  · have some_left := Nat.not_lt.mpr enough
    simp only [RunsOut, resume, some_left, enough, if_true, false_or, true_and]
  · have few := Nat.lt_of_not_le enough
    simp only [few, true_or, iff_true]
    refine ⟨count, short, next, input, ?_, few⟩
    rw [resume, if_neg enough]

/-- A reader that fails does so for want of bytes or for what it has read, and not for both. -/
theorem run_error (shorts : Shorts P r) (refuses : Refuses Q r)
    (failed : r.run input = (.error e, rest)) :
    r.RunsOut input ∧ P e ∨ ¬ r.RunsOut input ∧ Q e := by
  induction r generalizing input with
  | done result =>
      cases failed
      obtain _ | h := refuses
      refine .inr ⟨?_, h⟩
      rintro ⟨_, _, _, _, h, -⟩
      cases h
  | take count short next ih =>
      obtain _ | ⟨hshort, hnext⟩ := shorts
      obtain _ | _ | hrefuses := refuses
      by_cases enough : count ≤ input.length
      · rw [run_take_of_le enough] at failed
        have some_left := Nat.not_lt.mpr enough
        simp only [runsOut_take, some_left, enough, false_or, true_and]
        exact ih _ (hnext _) (hrefuses _) failed
      · have few := Nat.lt_of_not_le enough
        rw [run_take_of_lt few] at failed
        cases failed
        exact .inl ⟨runsOut_take.mpr (.inl few), hshort _⟩

/-- Whatever a reader comes to, what it leaves stands at the end of its stream. -/
theorem run_suffix (r : Reader ε α) (input : Bytes) : (r.run input).2 <:+ input := by
  induction r generalizing input with
  | done result => exact List.suffix_refl input
  | take count short next ih =>
      by_cases enough : count ≤ input.length
      · rw [run_take_of_le enough]
        exact (ih _ _).trans (List.drop_suffix _ _)
      · simp only [run_take_of_lt (Nat.lt_of_not_le enough), List.suffix_refl]

/-- A reader that fails has run out of bytes just if with more bytes it could come to something
else. -/
theorem runsOut_iff_more (failed : r.run input = (.error e, rest)) :
    r.RunsOut input ↔ ∃ more, r.run (input ++ more) ≠ (.error e, rest ++ more) := by
  induction r generalizing input with
  | done result =>
      cases failed
      constructor
      · rintro ⟨_, _, _, _, h, -⟩
        cases h
      · rintro ⟨more, differs⟩
        exact absurd rfl differs
  | take count short next ih =>
      by_cases enough : count ≤ input.length
      · rw [run_take_of_le enough] at failed
        have some_left := Nat.not_lt.mpr enough
        simp only [runsOut_take, some_left, enough, false_or, true_and, ih _ failed]
        refine exists_congr fun more => ?_
        rw [run_take_of_le (by rw [List.length_append]; omega),
          List.take_append_of_le_length enough, List.drop_append_of_le_length enough]
      · have few := Nat.lt_of_not_le enough
        rw [run_take_of_lt few] at failed
        cases failed
        refine ⟨fun _ => ⟨List.replicate count 0, fun same => ?_⟩,
          fun _ => runsOut_take.mpr (.inl few)⟩
        -- The piece asked for is there now, and so it is no longer among what is left.
        have all : count ≤ (rest ++ List.replicate count 0).length := by simp
        have shorter := (run_suffix (next ((rest ++ List.replicate count 0).take count))
          ((rest ++ List.replicate count 0).drop count)).length_le
        rw [run_take_of_le all] at same
        simp only [same, List.length_drop] at shorter
        omega

/-! ## The library's readers

Bytes and words are turned down by no one, so whatever is said of their own errors is true. -/

variable {W : WireError → Prop}

theorem refuses_bytes (count : Nat) : Refuses W (bytes count) := .take fun piece => .ok piece

theorem refuses_number (width : Nat) : Refuses W (number width) := (refuses_bytes width).map _

theorem refuses_u8 : Refuses W u8 := (refuses_number 1).map _

theorem refuses_u16 : Refuses W u16 := (refuses_number 2).map _

theorem refuses_u32 : Refuses W u32 := (refuses_number 4).map _

theorem refuses_i32 : Refuses W i32 := refuses_u32.map _

theorem refuses_piecesOnto (size last : Nat) (seen : List Bytes) (whole : Nat) :
    Refuses W (piecesOnto size last seen whole) := by
  induction whole generalizing seen with
  | zero => exact (refuses_bytes last).map _
  | succ whole ih => exact (refuses_bytes size).bind fun piece => ih (piece :: seen)

theorem refuses_pieces (size count : Nat) : Refuses W (pieces size count) :=
  refuses_piecesOnto _ _ _ _

theorem shorts_flag : Shorts IsEnd flag := shorts_u8.map _

theorem shorts_skip (count : Nat) : Shorts IsEnd (skip count) := (shorts_pieces _ _).map _

theorem shorts_vecLimited (count limit : Nat) : Shorts IsEnd (vecLimited count limit) := by
  unfold vecLimited
  split
  · exact .fail _
  · exact shorts_pieces _ _

theorem shorts_values {item : Reader ε α} (h : Shorts P item) (count : Nat) :
    Shorts P (values item count) := by
  have onto (seen : List α) : Shorts P (valuesOnto item seen count) := by
    induction count generalizing seen with
    | zero => exact .pure _
    | succ count ih => exact h.bind fun a => ih (a :: seen)
  exact onto []

end RemoteFramebuffer.Reader
