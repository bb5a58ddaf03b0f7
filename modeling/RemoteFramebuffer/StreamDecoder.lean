/-
# `RemoteFramebuffer.StreamDecoder` — inflating payloads with a decoder that is not looked into

A compressed stream is decoded by calls.  A call is given some input and some room for
output; it takes in a part of the input and hands out a portion of what the stream says.
Which bytes these are is the decoder's business.  `inflate` is the loop of calls that
brings out what a whole payload has to say.

A decoder knows a limit to what can come yet of a stream and some more input, and no call
hands out more than the limit comes down by.  So each call that does anything brings the
loop nearer to its end.
-/
import RemoteFramebuffer.Bytes

namespace RemoteFramebuffer

/-- What one call of a stream decoder hands out, the input it leaves, and whether the stream
has ended. -/
structure Portion where
  output : Bytes
  rest : Bytes
  ended : Bool

class StreamDecoder where
  State : Type
  fresh : State
  /-- One call; nothing comes of a stream that is broken. -/
  call (room : Nat) (s : State) (input : Bytes) : Option Portion × State
  limit (s : State) (input : Bytes) : Nat
  call_le {room : Nat} {s s' : State} {input : Bytes} {portion : Portion} :
    call room s input = (some portion, s') →
      portion.rest.length ≤ input.length ∧
        portion.output.length + limit s' portion.rest ≤ limit s input

namespace StreamDecoder

/-- Room of one call. -/
def workSpace : Nat := 65536

/-- Nothing more comes of a payload after a portion: the payload is used up and room is left,
the stream has ended, or the call did nothing. -/
def isLast (payload : Bytes) (p : Portion) : Bool :=
  (p.rest.isEmpty && p.output.length < workSpace) || p.ended
    || (p.rest.length == payload.length && p.output.isEmpty)

variable [StreamDecoder]

instance : Inhabited State := ⟨fresh⟩

/-- What is left to come is less after a portion that is not the last. -/
theorem limit_lt {room : Nat} {s s' : State} {payload : Bytes} {p : Portion}
    (run : call room s payload = (some p, s')) (more : isLast payload p = false) :
    p.rest.length + limit s' p.rest < payload.length + limit s payload := by
  have le := call_le run
  have some_done : p.rest.length ≠ payload.length ∨ 0 < p.output.length := by
    simp only [isLast, Bool.or_eq_false_iff, Bool.and_eq_false_iff, beq_eq_false_iff_ne,
      List.isEmpty_eq_false_iff] at more
    exact more.2.imp_right List.length_pos_iff.mpr
  omega

/-- Inflates what is left of a payload; an error is the offset of the call that found the stream
broken. -/
def drain (s : State) (payload : Bytes) (offset : Nat) : Except Nat Bytes × State :=
  match _run : call workSpace s payload with
  | (none, s) => (.error offset, s)
  | (some p, s) =>
    if _more : isLast payload p = false then
      let (later, s) := drain s p.rest (offset + (payload.length - p.rest.length))
      (later.map (p.output ++ ·), s)
    else (.ok p.output, s)
termination_by payload.length + limit s payload
decreasing_by exact limit_lt ‹_› ‹_›

def inflate (s : State) (payload : Bytes) : Except Nat Bytes × State := drain s payload 0

end StreamDecoder

end RemoteFramebuffer
