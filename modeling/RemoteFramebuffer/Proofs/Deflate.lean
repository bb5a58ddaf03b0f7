/-
# `RemoteFramebuffer.Proofs.Deflate` — what the first bytes of a zlib stream determine

The grammar of zlib streams makes a format in the sense of `StreamDecoder.Format`: what some bytes
determine of the output is what an inflater with ample space writes over them, unless it comes to a
breach.  More bytes take nothing back (`Deflate.format`).

This is a format for decoders to follow.  That the inflater follows it promptly is not said, and it
does not: it may keep back what it has decoded where its window is full.
-/
import RemoteFramebuffer.Deflate.Writing
import RemoteFramebuffer.Proofs.StreamDecoder

namespace RemoteFramebuffer
namespace Deflate

open Inflater

/-- What is decoded from the start of a stream with more space than can be filled, unless the
stream is broken. -/
def output (taken : Bytes) : Option Bytes :=
  let f := fresh.feed taken
  match decode (f.bits.length + 1) f (f.size + 1) [] with
  | (_, stop, out) => if stop = .broken then none else some out.reverse

/-- Decoding comes to a stand, and what is written on the way is said unless the stand is at a
breach. -/
theorem output_spec (taken : Bytes) :
    ∃ out g, Writes (fresh.feed taken) out g ∧ g.tick = none ∧
      ((g.Broken ∧ output taken = none) ∨ (¬ g.Broken ∧ output taken = some out)) := by
  obtain ⟨⟨g, stop, out⟩, run⟩ : ∃ result, decode ((fresh.feed taken).bits.length + 1)
    (fresh.feed taken) ((fresh.feed taken).size + 1) [] = result := ⟨_, rfl⟩
  obtain ⟨out, rfl, writes, -, stopped⟩ := writes_decode (Nat.lt_succ_self _) run
  have said : output taken = if stop = .broken then none else some out := by
    simp only [output, run, List.append_nil, List.reverse_reverse]
  refine ⟨out, g, writes, ?_⟩
  cases stopped with
  | starved waiting => exact ⟨waiting.still, .inr ⟨waiting.not_broken, said⟩⟩
  | full none_left =>
      have := writes.size_le
      omega
  | ended finished => exact ⟨finished.still, .inr ⟨finished.not_broken, said⟩⟩
  | broken broken => exact ⟨broken.still, .inl ⟨broken, said⟩⟩

theorem Inflater.Writes.of_agree {f g h : Inflater} {out out' : Bytes} (first : Writes f out g)
    (second : Writes f out' h) (still : h.tick = none) :
    ∃ late, out' = out ++ late ∧ Writes g late h := by
  obtain agrees | ⟨late, rfl, writes⟩ := first.agree second
  · exact agrees
  · obtain ⟨rfl, rfl⟩ := writes.of_still still
    exact ⟨[], by simp, .refl⟩

/-- **Zlib streams.** -/
def format : StreamDecoder.Format where
  output := output
  nil := by decide +kernel
  grows {taken more out} said := by
    obtain ⟨early, g, writes, still, broken⟩ := output_spec taken
    obtain ⟨all, h, writes', still', broken'⟩ := output_spec (taken ++ more)
    obtain ⟨broken', nothing⟩ | ⟨sound, said'⟩ := broken'
    · cases said.symm.trans nothing
    cases said.symm.trans said'
    rw [feed_append] at writes'
    obtain ⟨late, rfl, onward⟩ := (writes.feed more).of_agree writes' still'
    obtain ⟨broken, nothing⟩ | ⟨-, said''⟩ := broken
    · -- a breach stays one, whatever comes after it
      have broken := broken.feed more
      obtain ⟨-, rfl⟩ := onward.of_still broken.still
      exact absurd broken sound
    · exact ⟨early, said'', List.prefix_append ..⟩

end Deflate
end RemoteFramebuffer
