/-
# `RemoteFramebuffer.Proofs.Session.Adoption` — when a pixel format is adopted

The format is settled by the changes that a session sends, one after another
(`PixelFormat.after`).  It matters to the bodies of updates alone.  The writing loop adopts a change
with the message that it writes: what an initiator's connection has written and what it has adopted
are the same, as long as its outward stream is open (`Connection.Step.adopts`).
-/
import RemoteFramebuffer.Proofs.Session.Connection
import RemoteFramebuffer.Proofs.Session.Inlet

namespace RemoteFramebuffer

namespace Message

/-- The pixel format that the message asks for. -/
def pixelFormatChange : Message → Option PixelFormat
  | .client m => m.pixelFormatChange
  | .server _ => none

end Message

def PixelFormat.after (format : PixelFormat) (messages : List Message) : PixelFormat :=
  messages.foldl (fun format m => m.pixelFormatChange.getD format) format

theorem PixelFormat.after_append (format : PixelFormat) (messages more : List Message) :
    format.after (messages ++ more) = (format.after messages).after more := List.foldl_append

theorem PixelFormat.after_of_unchanged {format : PixelFormat} {messages : List Message}
    (plain : ∀ m ∈ messages, m.pixelFormatChange = none) : format.after messages = format := by
  induction messages with
  | nil => rfl
  | cons m messages ih =>
      have first : m.pixelFormatChange.getD format = format := by
        rw [plain m List.mem_cons_self]
        rfl
      rw [PixelFormat.after, List.foldl_cons, first]
      exact ih fun m mem => plain m (List.mem_cons_of_mem _ mem)

theorem ServerMessage.isUpdate_of_code {m : ServerMessage} (zero : m.code = 0) :
    ∃ update, m = .framebufferUpdate update := by
  cases m with
  | framebufferUpdate update => exact ⟨update, rfl⟩
  | _ => cases zero

namespace SessionState

theorem format_afterSent (s : SessionState) (m : Message) :
    (s.afterSent m).desktop.format = s.desktop.format.after [m] := by
  cases m with
  | client m =>
      cases m with
      | _ => rfl
  | server m => exact format_afterServer s m

end SessionState

namespace Session

variable {s s' : Session} {incoming incoming' outward outward' : Pipe} {m : Message}

/-- How the session would read a message if the pixel format were this one. -/
def readOneIn (s : Session) (format : PixelFormat) : Reader SessionError Message :=
  readOne s.accepted (s.state.setPixelFormat format)

theorem readOneIn_congr (accepted : s'.accepted = s.accepted) (alike : s.state.Alike s'.state) :
    s'.readOneIn = s.readOneIn := by
  funext format
  unfold readOneIn
  rw [accepted]
  exact readOne_congr (bodyReader_congr alike.1 (fun _ => rfl) alike.2)

theorem code_of_bodyReader {state : SessionState} {code : UInt8} {input rest : Bytes}
    (h : (bodyReader state code).run input = (.ok m, rest)) : m.code = code := by
  obtain ⟨-, stand⟩ := stand_of_bodyReader h
  cases m with
  | client m =>
      obtain ⟨_, first, -⟩ := stand
      cases Part.at_content.mp first
      rfl
  | server m =>
      obtain ⟨_, first, -⟩ := stand
      cases Part.at_content.mp first
      rfl

theorem bodyReader_of_ne_zero {state : SessionState} {code : UInt8} (other : code ≠ 0)
    (format : PixelFormat) :
    bodyReader (state.setPixelFormat format) code = bodyReader state code := by
  have same : ServerMessage.readBody format state.encodings code =
      ServerMessage.readBody state.desktop.format state.encodings code := by
    unfold ServerMessage.readBody
    split
    · exact absurd rfl other
    all_goals rfl
  unfold bodyReader
  simp only [SessionState.setPixelFormat]
  split
  · rfl
  · rw [same]

/-! ## What the moves leave alone -/

theorem Turn.accepted (turn : Turn s incoming s' incoming') : s'.accepted = s.accepted := by
  cases turn with
  | completes busy done =>
      unfold deliver
      dsimp only
      split <;> rfl
  | fails going failed =>
      unfold fail
      split <;> rfl
  | runsOut going ended waits pipe =>
      unfold fail
      split <;> rfl
  | _ => rfl

/-- What the writing loop puts on the stream it has adopted, and nothing else, as long as the stream
is open. -/
theorem adopts_of_write (h : s.write outward = some (s', outward')) :
    s'.accepted = s.accepted ∧
      (outward'.isClosed = false → outward.isClosed = false ∧
        s'.state.desktop.format = s.state.desktop.format.after (s.puts outward).toList) := by
  cases stroke_of_write h with
  | @puts m outgoing goesOn next isOpen =>
      have put : s.puts outward = some m := by simp [puts, next, isOpen]
      refine ⟨rfl, fun _ => ⟨isOpen, ?_⟩⟩
      rw [put]
      exact SessionState.format_afterSent s.state m
  | @breaks m outgoing goesOn next closed =>
      obtain ⟨errors, failed⟩ := fail_eq
        { s with outgoing, state := s.state.afterSent m } (.transport .brokenPipe)
      rw [failed]
      refine ⟨rfl, fun isOpen => ?_⟩
      cases isOpen
  | ends goesOn empty alone =>
      refine ⟨rfl, fun isOpen => ?_⟩
      cases isOpen

end Session

namespace Connection

variable {c c' : Connection}

/-- What a connection whose owner reads server messages writes it has adopted, and nothing else
changes the format, as long as the outward stream is open. -/
theorem Step.adopts (step : Step c c') (faithful : c.Faithful)
    (other : c.session.state.role ≠ .server) :
    c'.session.accepted = c.session.accepted ∧
      ∃ more, c'.said = c.said ++ more ∧
        (c'.outward.isClosed = false → c.outward.isClosed = false ∧
          c'.session.state.desktop.format = c.session.state.desktop.format.after more) := by
  have kind := (step.faithful faithful).kind
  rw [step.alike.1] at kind
  cases step with
  | reads move =>
      refine ⟨(Session.turn_of_read move).accepted, [], (List.append_nil _).symm,
        fun isOpen => ⟨isOpen, ?_⟩⟩
      have reads := Session.reads_of_read move
      dsimp only at kind ⊢
      generalize c.session.completes c.incoming = completed at reads kind
      cases reads with
      | @completes body m rest busy done =>
          have kind := kind m (List.mem_append_right _ List.mem_cons_self)
          rw [Session.state_deliver]
          cases m with
          | client m => exact absurd kind other
          | server m => exact SessionState.format_afterServer _ m
      | stops stopped inbound outgoing isWriting state => exact congrArg (·.desktop.format) state
      | _ => rfl
  | writes move =>
      obtain ⟨accepted, adopts⟩ := Session.adopts_of_write move
      exact ⟨accepted, _, rfl, adopts⟩
  | stopsWriting => exact ⟨rfl, [], (List.append_nil _).symm, nofun⟩
  | leaves => exact ⟨rfl, [], (List.append_nil _).symm, nofun⟩
  | hangsUp stopped => exact ⟨rfl, [], (List.append_nil _).symm, nofun⟩
  | _ => exact ⟨rfl, [], (List.append_nil _).symm, fun isOpen => ⟨isOpen, rfl⟩⟩

end Connection

end RemoteFramebuffer
