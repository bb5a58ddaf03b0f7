/-
# `RemoteFramebuffer.Deflate.Decoder` — the decoder of streams that the program runs with

What can come of an inflater is what it has ready, what it owes, and what the bits at hand
can stand for, which is less than 260 bytes each.
-/
import RemoteFramebuffer.Deflate.Writing

namespace RemoteFramebuffer
namespace Deflate
namespace Inflater

variable {f g : Inflater} {input rest output : Bytes} {room : Nat}

/-- What can come of an inflater and some more input, at most. -/
def limit (f : Inflater) (input : Bytes) : Nat := f.ready.length + (f.feed input).size

theorem size_feed (f : Inflater) (input : Bytes) :
    (f.feed input).size = f.size + 2080 * input.length := by
  simp only [size, feed, List.length_append, length_flatMap_bitsOfByte]
  omega

/-- Bytes that are given back count for no more than the bits they were. -/
theorem giveBack_le (f : Inflater) (stop : Stop) (input : Bytes) :
    (f.giveBack stop input).2.length ≤ input.length ∧
      ((f.giveBack stop input).1.feed (f.giveBack stop input).2).size ≤ f.size := by
  unfold giveBack
  split
  · exact ⟨Nat.zero_le _, Nat.le_of_eq (congrArg size (feed_nil f))⟩
  · rw [size_feed]
    simp only [size, List.length_drop, List.length_take]
    omega

theorem advance_le {stop : Stop} (run : f.advance input = (g, stop, rest)) :
    rest.length ≤ input.length ∧ g.limit rest ≤ (f.feed input).size := by
  obtain ⟨⟨h, stop', out⟩, decoded⟩ :
      ∃ result, decode ((f.feed input).bits.length + 2) (f.feed input)
        (Window.size - (f.feed input).window.position) [] = result := ⟨_, rfl⟩
  obtain ⟨piece, rfl, writes, -, -⟩ := writes_decode (Nat.lt_add_of_pos_right Nat.two_pos) decoded
  have size := writes.size_le
  have back := h.giveBack_le stop' input
  simp only [advance, decoded, List.append_nil, List.reverse_reverse] at run
  generalize h.giveBack stop' input = given at run back
  cases run
  exact ⟨back.1, Nat.le_trans (Nat.add_le_add_left back.2 _) size⟩

theorem handOut_le (f : Inflater) (room : Nat) (input : Bytes) :
    (f.handOut room).2.length + (f.handOut room).1.limit input ≤ f.limit input := by
  have split : (f.ready.take room).length + (f.ready.drop room).length = f.ready.length := by
    rw [← List.length_append, List.take_append_drop]
  show (f.ready.take room).length + ((f.ready.drop room).length + (f.feed input).size) ≤ _
  rw [← Nat.add_assoc, split]
  exact Nat.le_refl _

theorem callLoop_le {fuel : Nat} {portion : Portion} (empty : f.ready = [])
    (run : callLoop fuel f input room output = (some portion, g)) :
    portion.rest.length ≤ input.length ∧
      portion.output.length + g.limit portion.rest ≤ output.length + f.limit input := by
  induction fuel generalizing f input room output with
  | zero =>
      cases run
      exact ⟨Nat.le_refl _, Nat.le_refl _⟩
  | succ fuel ih =>
      obtain ⟨⟨mid, stop, rest⟩, advanced⟩ : ∃ result, f.advance input = result := ⟨_, rfl⟩
      obtain ⟨shorter, le⟩ := advance_le advanced
      have handed := mid.handOut_le room rest
      have all : f.limit input = (f.feed input).size := by
        rw [limit, empty, List.length_nil, Nat.zero_add]
      rw [callLoop, advanced] at run
      dsimp only at run
      split at run
      · cases run
      · split at run
        · cases run
          refine ⟨shorter, ?_⟩
          show (output ++ _).length + (mid.handOut room).1.limit rest ≤ _
          rw [List.length_append]
          omega
        · rename_i goes
          have none_left : (mid.handOut room).1.ready = [] := by
            simp only [not_or, Decidable.not_not] at goes
            exact List.isEmpty_iff.mp goes.2.2.2
          obtain ⟨shorter', le'⟩ := ih none_left run
          rw [List.length_append] at le'
          exact ⟨Nat.le_trans shorter' shorter, by omega⟩

theorem call_le {portion : Portion} (run : call room f input = (some portion, g)) :
    portion.rest.length ≤ input.length ∧
      portion.output.length + g.limit portion.rest ≤ f.limit input := by
  unfold call at run
  split at run
  · cases run
  · split at run
    · rename_i empty
      have := callLoop_le (List.isEmpty_iff.mp empty) run
      rwa [List.length_nil, Nat.zero_add] at this
    · cases run
      exact ⟨Nat.le_refl _, f.handOut_le room input⟩

end Inflater
end Deflate

instance : StreamDecoder where
  State := Deflate.Inflater
  fresh := Deflate.Inflater.fresh
  call := Deflate.Inflater.call
  limit := Deflate.Inflater.limit
  call_le := Deflate.Inflater.call_le

end RemoteFramebuffer
