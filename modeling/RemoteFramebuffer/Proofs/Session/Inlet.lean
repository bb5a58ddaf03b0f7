/-
# `RemoteFramebuffer.Proofs.Session.Inlet` — the reading loop reads one message after another

However a stream is cut into pieces, the reading loop does what one reader does on the whole of
it: `readOne`, the type byte and then the body.  `Session.next` is the reader that is under way,
and a move of the loop takes it some way on:

    next.resume (buffer ++ pipe ++ what is still to come)    stays the same

until it comes to a message or to an error.  `Foretells` says what the loop will come to, message
by message, and `Breaks` what it comes to when no more messages follow.
-/
import RemoteFramebuffer.Proofs.Session.Loops

namespace RemoteFramebuffer

namespace Reader

variable {ε α : Type} {r r' : Reader ε α} {input rest : Bytes}

/-! ## Going on -/

/-- What comes later is read by what is left of the reader, after what is left of the input. -/
theorem resume_append (h : r.resume input = (r', rest)) (more : Bytes) :
    r.resume (input ++ more) = r'.resume (rest ++ more) := by
  induction r generalizing input with
  | done result =>
      cases h
      rfl
  | take count short next ih =>
      rw [resume] at h
      split at h
      · rename_i enough
        rw [resume, if_pos (by rw [List.length_append]; omega),
          List.take_append_of_le_length enough, List.drop_append_of_le_length enough]
        exact ih _ h
      · cases h
        rfl

theorem length_resume (h : r.resume input = (r', rest)) : rest.length ≤ input.length := by
  obtain ⟨used, rfl, -⟩ := run_resume h
  rw [List.length_append]
  omega

/-- What a reader takes is taken by it and by what is left of it, wherever it waits in between. -/
theorem Takes.resume {a : α} {left coming later : Bytes} (takes : r.Takes left a)
    (h : r.resume input = (r', rest)) (whole : input ++ coming = left ++ later) :
    ∃ left', r'.Takes left' a ∧ rest ++ coming = left' ++ later := by
  obtain ⟨used, rfl, same⟩ := run_resume h
  rw [List.append_assoc] at whole
  rcases List.append_eq_append_iff.mp whole with ⟨left', rfl, behind⟩ | ⟨extra, rfl, behind⟩
  · refine ⟨left', fun other => ?_, behind⟩
    rw [← same, ← List.append_assoc]
    exact takes other
  · -- what was used up cannot reach beyond what is taken
    have nothing : r'.run [] = (.ok a, extra) := by
      rw [← same, List.append_nil]
      exact takes extra
    obtain ⟨_, empty, -⟩ := run_consumes nothing
    obtain rfl : extra = [] := (List.append_eq_nil_iff.mp empty.symm).2
    rw [List.append_nil] at same
    refine ⟨[], fun other => ?_, behind.symm⟩
    rw [List.nil_append, ← same]
    exact takes other

theorem takes_done {a b : α} {left : Bytes} (takes : (done (.ok b) : Reader ε α).Takes left a) :
    b = a ∧ left = [] := by
  have run := takes []
  rw [List.append_nil] at run
  cases run
  exact ⟨rfl, rfl⟩

/-! ## What a stream comes to -/

/-- The reader comes to an error: its own, or that of a short stream on a stream that has ended. -/
inductive Breaks (r : Reader ε α) (input : Bytes) (ended : Bool) : ε → Prop
  | fails {e : ε} {rest : Bytes} :
      r.resume input = (.done (.error e), rest) → Breaks r input ended e
  | short {count : Nat} {short : Nat → ε} {next : Bytes → Reader ε α} {rest : Bytes} :
      ended = true → r.resume input = (.take count short next, rest) →
        Breaks r input ended (short rest.length)

/-- On a stream that ends, a reader breaks just where reading the whole of it fails. -/
theorem breaks_ended_iff {e : ε} : r.Breaks input true e ↔ (r.run input).1 = .error e := by
  induction r generalizing input with
  | done result =>
      constructor
      · rintro (⟨⟨⟩⟩ | ⟨-, ⟨⟩⟩)
        rfl
      · intro h
        cases h
        exact .fails rfl
  | take count short next ih =>
      by_cases enough : count ≤ input.length
      · have resumes : (take count short next).resume input =
            (next (input.take count)).resume (input.drop count) := by
          rw [resume, if_pos enough]
        rw [run_take_of_le enough, ← ih]
        constructor
        · rintro (failed | ⟨ended, waits⟩)
          · exact .fails (resumes.symm.trans failed)
          · exact .short ended (resumes.symm.trans waits)
        · rintro (failed | ⟨ended, waits⟩)
          · exact .fails (resumes.trans failed)
          · exact .short ended (resumes.trans waits)
      · have waits : (take count short next).resume input = (take count short next, input) := by
          rw [resume, if_neg enough]
        rw [run_take_of_lt (by omega)]
        constructor
        · rintro (failed | ⟨-, waits'⟩)
          · cases waits.symm.trans failed
          · cases waits.symm.trans waits'
            rfl
        · intro h
          cases h
          exact .short rfl waits

/-- The reader, and after it `one` over and over, reads these values.  Then it does what `one`
does on `stop`. -/
def Foretells (one : Reader ε α) (stop : Bytes) : Reader ε α → Bytes → List α → Prop
  | r, input, [] => r.resume input = one.resume stop
  | r, input, a :: as =>
    ∃ rest, r.resume input = (.done (.ok a), rest) ∧ Foretells one stop one rest as

namespace Foretells

variable {one : Reader ε α} {stop : Bytes} {l : List α}

theorem of_valuesOnto {seen all : List α} {count : Nat} {whole : Bytes}
    (h : (valuesOnto one seen count).run whole = (.ok all, stop)) :
    ∃ l, all = seen.reverse ++ l ∧ Foretells one stop one whole l := by
  induction count generalizing seen whole with
  | zero =>
      cases h
      exact ⟨[], (List.append_nil _).symm, rfl⟩
  | succ count ih =>
      obtain ⟨a, mid, first, others⟩ := run_bind_ok.mp h
      obtain ⟨l, rfl, later⟩ := ih others
      exact ⟨a :: l, by simp, mid, run_eq_ok_iff.mp first, later⟩

theorem of_values {count : Nat} {whole : Bytes}
    (h : (values one count).run whole = (.ok l, stop)) : Foretells one stop one whole l := by
  obtain ⟨_, rfl, foretold⟩ := of_valuesOnto h
  exact foretold

/-- It depends on the reader and its input only through what they come to. -/
theorem congr {input' : Bytes} (h : Foretells one stop r input l)
    (same : r.resume input = r'.resume input') : Foretells one stop r' input' l := by
  cases l with
  | nil => exact same.symm.trans h
  | cons a l =>
      obtain ⟨rest, first, later⟩ := h
      exact ⟨rest, same.symm.trans first, later⟩

theorem of_ok {ended : Bool} {e : ε} (h : Foretells one stop r input l)
    (breaks : one.Breaks stop ended e) {a : α} (done : r.resume input = (.done (.ok a), rest)) :
    ∃ l', l = a :: l' ∧ Foretells one stop one rest l' := by
  cases l with
  | nil =>
      rw [Foretells, done] at h
      cases breaks with
      | fails failed => cases h.trans failed
      | short _ waits => cases h.trans waits
  | cons a' l =>
      obtain ⟨_, first, later⟩ := h
      cases done.symm.trans first
      exact ⟨l, rfl, later⟩

theorem of_not_ok (h : Foretells one stop r input l)
    (never : ∀ a rest, r.resume input ≠ (.done (.ok a), rest)) :
    l = [] ∧ r.resume input = one.resume stop := by
  cases l with
  | nil => exact ⟨rfl, h⟩
  | cons a l =>
      obtain ⟨rest, first, -⟩ := h
      exact absurd first (never a rest)

/-- What is true of each value that `one` reads is true of all of them. -/
theorem forall_mem {P : α → Prop} (h : Foretells one stop one input l)
    (each : ∀ input a rest, one.resume input = (.done (.ok a), rest) → P a) : ∀ a ∈ l, P a := by
  induction l generalizing input with
  | nil => exact nofun
  | cons a l ih =>
      obtain ⟨rest, first, later⟩ := h
      intro b mem
      rcases List.mem_cons.mp mem with rfl | mem
      · exact each _ _ _ first
      · exact ih later b mem

end Foretells

end Reader

namespace SessionState

theorem format_afterServer (s : SessionState) (m : ServerMessage) :
    (s.afterServer m).desktop.format = s.desktop.format := by
  cases m with
  | framebufferUpdate update =>
      simp only [afterServer, afterUpdate]
      split <;> split <;> rfl
  | _ => rfl

end SessionState

namespace Session

open Reader (Foretells)

variable {s s' : Session} {incoming incoming' : Pipe}

/-! ## One message -/

theorem takes_readOne {accepted : List UInt8} {state : SessionState} {bytes : Bytes} {m : Message}
    (takes : (readOne accepted state).Takes bytes m) :
    ∃ code body, bytes = code :: body ∧ (bodyReader state code).Takes body m := by
  cases bytes with
  | nil =>
      obtain ⟨next, waits⟩ := resume_readOne_nil accepted state
      cases waits.symm.trans (Reader.run_eq_ok_iff.mp (takes []))
  | cons code body =>
      refine ⟨code, body, rfl, fun rest => Reader.run_eq_ok_iff.mpr ?_⟩
      have read := Reader.run_eq_ok_iff.mp (takes rest)
      rw [List.cons_append, resume_readOne_cons] at read
      split at read
      · exact read
      · cases read

theorem read_eq_none (h : s.read incoming = none) :
    s.inlet = .stopped ∨
    (s.inlet = .delivering ∧ s.inbound.waiting ≠ none) ∨
    (s.inlet ≠ .delivering ∧ incoming.isClosed = false ∧ incoming.bytes = [] ∧
      ∃ count short next rest,
        s.next.resume (s.buffer ++ incoming.bytes) = (.take count short next, rest)) := by
  unfold read at h
  dsimp only at h
  split at h
  · rename_i stopped
    exact .inl stopped
  · rename_i held
    split at h
    · cases h
    · rename_i full
      exact .inr (.inl ⟨held, fun room => full (by simp [Queue.isHeldUp, room])⟩)
  · rename_i idle
    split at h
    · cases h
    · rename_i empty
      split at h
      · cases h
      · rename_i going
        obtain ⟨_, waits⟩ := resume_next_of_empty idle empty
        exact .inr (.inr ⟨by simp [idle], by simpa using going, (List.append_eq_nil_iff.mp empty).2,
          _, _, _, _, waits⟩)
  · rename_i body busy
    split at h
    · cases h
    · cases h
    · rename_i count short goesOn rest waits
      split at h
      · cases h
      · rename_i going
        split at h
        · rename_i nothing
          have next := next_of_reading busy
          exact .inr (.inr ⟨by simp [busy], by simpa using going, by simpa using nothing, _, _, _, _,
            next ▸ waits⟩)
        · cases h

variable {m : Message}

/-! ## What reading depends on -/

theorem bodyReader_congr {state state' : SessionState} (role : state'.role = state.role)
    (format : state.role ≠ .server → state'.desktop.format = state.desktop.format)
    (encodings : state'.encodings = state.encodings) : bodyReader state' = bodyReader state := by
  funext code
  unfold bodyReader
  rw [role]
  split
  · rfl
  · rename_i other
    rw [format other, encodings]

theorem bodyReader_afterReceived {state : SessionState} (kind : m.IsReadBy state.role) :
    bodyReader (state.afterReceived m) = bodyReader state := by
  obtain ⟨role, encodings⟩ := SessionState.alike_afterReceived state m
  refine bodyReader_congr role (fun other => ?_) encodings
  cases m with
  | client m => exact absurd kind other
  | server m => exact SessionState.format_afterServer state m

/-- Of the messages that it sends, only a change of the pixel format does. -/
theorem bodyReader_afterSent {state : SessionState}
    (plain : ∀ format, m ≠ .client (.setPixelFormat format)) :
    bodyReader (state.afterSent m) = bodyReader state := by
  obtain ⟨role, encodings⟩ := SessionState.alike_afterSent state m
  refine bodyReader_congr role (fun _ => ?_) encodings
  cases m with
  | client m =>
      cases m with
      | setPixelFormat format => exact absurd rfl (plain format)
      | _ => rfl
  | server m => exact SessionState.format_afterServer state m

theorem readOne_congr {accepted : List UInt8} {state state' : SessionState}
    (same : bodyReader state' = bodyReader state) :
    readOne accepted state' = readOne accepted state := by
  unfold readOne
  rw [same]

theorem next_congr (inlet : s'.inlet = s.inlet)
    (same : readOne s'.accepted s'.state = readOne s.accepted s.state) : s'.next = s.next := by
  unfold next
  rw [inlet]
  split
  · rfl
  · exact same

theorem isReadBy_of_readOne {accepted : List UInt8} {state : SessionState} {input rest : Bytes}
    (h : (readOne accepted state).resume input = (.done (.ok m), rest)) :
    m.IsReadBy state.role := by
  cases input with
  | nil =>
      obtain ⟨next, waits⟩ := resume_readOne_nil accepted state
      cases h.symm.trans waits
  | cons code input =>
      rw [resume_readOne_cons] at h
      split at h
      · exact (stand_of_bodyReader (Reader.run_eq_ok_iff.mpr h)).1
      · cases h

/-- What a session is to read: these messages one after another and then, at `stop`, a failure. -/
structure Carries (accepted : List UInt8) (state : SessionState) (stream : Bytes) (ends : Bool)
    (messages : List Message) (stop : Bytes) (e : SessionError) : Prop where
  reads : (Reader.values (readOne accepted state) messages.length).run stream = (.ok messages, stop)
  breaks : (readOne accepted state).Breaks stop ends e

end Session

end RemoteFramebuffer
