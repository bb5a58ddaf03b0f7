/-
# `RemoteFramebuffer.Proofs.Session.Palette` — the color map belongs to the pixel format

## What is proved

Of every session that starts in a state that a handshake by its options can end in, on either side,
and of every log of what its loops and its owner then do (`palette_current`):

    the format     that of the last message that changes it, else that of the handshake
    color i        that of the last message that writes to i since then, else black
    is valid       if the options are, and the session is made to send valid formats alone

## How it is proved

A state is what its handshake left and then what the messages that went through it made of it, sent
and received in the order in which the session's loops put them to the state.  Searched from its
end, this log says what the state holds (`SessionState.shown_by_log`).

A format that is received is read as valid, so a session whose options are valid, and that is made
to send valid formats alone, is at no time in a format that is not.

That a handshake leaves a black color map is told of whatever it can end in (`Exchange.EndsIn`), not
of one peer: whoever is at the other end, it is the last steps that make the state.
-/
import Mathlib.Data.List.Basic
import RemoteFramebuffer.Proofs.Recording.Reopening
import RemoteFramebuffer.Proofs.Session.Adoption
import RemoteFramebuffer.Proofs.Session.Opening

namespace RemoteFramebuffer

/-! ## Entries of a color map -/

namespace ColorMap

/-- The color that a list of colors, written from an index on, puts at an index. -/
def placed (first : Nat) (colors : List Color) (index : UInt8) : Option Color :=
  if first ≤ index.toNat then colors[index.toNat - first]? else none

theorem get_set (m : ColorMap) {first : Nat} (inside : first < 256) (c : Color) (index : UInt8) :
    get ⟨m.entries.set first c⟩ index = if first = index.toNat then c else m.get index :=
  Vector.getElem_set inside index.toNat_lt

theorem get_setEntries (m : ColorMap) (first : Nat) (colors : List Color) (index : UInt8) :
    (m.setEntries first colors).get index = (placed first colors index).getD (m.get index) := by
  have small : index.toNat < 256 := index.toNat_lt
  induction colors generalizing m first with
  | nil => simp [setEntries, placed]
  | cons c colors ih =>
      rw [setEntries]
      split
      · rename_i inside
        rw [ih, get_set]
        obtain below | rfl | above := Nat.lt_trichotomy index.toNat first
        · rw [placed, placed, if_neg (by omega), if_neg (by omega), if_neg (by omega)]
        · rw [placed, placed, if_neg (Nat.not_succ_le_self _), if_pos (Nat.le_refl _), Nat.sub_self,
            if_pos rfl]
          rfl
        · have next : index.toNat - first = index.toNat - (first + 1) + 1 := by omega
          simp only [placed, next, if_pos (Nat.succ_le_of_lt above), if_pos (Nat.le_of_lt above),
            if_neg (Nat.ne_of_lt above), List.getElem?_cons_succ]
      · rw [placed, if_neg (by omega)]
        rfl

@[simp] theorem get_black (index : UInt8) : black.get index = Color.black :=
  Vector.getElem_replicate index.toNat_lt

end ColorMap

/-! ## What a log of messages says -/

namespace Message

/-- The color that the message writes to an index. -/
def colorAt? (m : Message) (index : UInt8) : Option Color :=
  match m with
  | .server (.setColorMapEntries first colors) => ColorMap.placed first.toNat colors index
  | _ => none

/-- The pixel format that the last message asks for that asks for one. -/
def lastFormat? (log : List Message) : Option PixelFormat :=
  log.reverse.findSome? pixelFormatChange

/-- The color that was written to an index last, since a pixel format was asked for last. -/
def lastColor? (log : List Message) (index : UInt8) : Option Color :=
  (log.reverse.takeWhile (·.pixelFormatChange.isNone)).findSome? (·.colorAt? index)

variable {log : List Message} {m : Message}

theorem lastFormat?_concat :
    lastFormat? (log ++ [m]) = m.pixelFormatChange.or (lastFormat? log) := by
  rw [lastFormat?, List.reverse_append, List.reverse_singleton, List.singleton_append,
    List.findSome?_cons]
  cases m.pixelFormatChange <;> rfl

theorem lastColor?_concat (index : UInt8) :
    lastColor? (log ++ [m]) index =
      if m.pixelFormatChange.isNone then (m.colorAt? index).or (lastColor? log index) else none := by
  rw [lastColor?, List.reverse_append, List.reverse_singleton, List.singleton_append,
    List.takeWhile_cons]
  split
  · rw [List.findSome?_cons]
    cases m.colorAt? index <;> rfl
  · rfl

end Message

/-! ## What the state makes of it -/

namespace Session

/-- A message is put to the state of a session. -/
inductive Event
  | sent (m : Message)
  | received (m : Message)

def Event.message : Event → Message
  | .sent m | .received m => m

end Session

open Session (Event)

namespace SessionState

def after (s : SessionState) : Event → SessionState
  | .sent m => s.afterSent m
  | .received m => s.afterReceived m

variable {s : SessionState} {e : Event}

theorem after_change {format : PixelFormat} (h : e.message.pixelFormatChange = some format) :
    s.after e = s.setPixelFormat format := by
  obtain (m | m) | (m | m) := e <;> cases m <;> cases h <;> rfl

theorem colors_afterServer (s : SessionState) (m : ServerMessage) (index : UInt8) :
    (s.afterServer m).colors.get index =
      ((Message.server m).colorAt? index).getD (s.colors.get index) := by
  cases m with
  | setColorMapEntries first colors => exact ColorMap.get_setEntries _ _ _ _
  | framebufferUpdate update =>
      show (s.afterUpdate update).colors.get index = s.colors.get index
      unfold afterUpdate
      cases update.desktopSize? <;> cases update.desktopName? <;> rfl
  | _ => rfl

/-- Any other message leaves the format and what it does not write to. -/
theorem after_plain (h : e.message.pixelFormatChange = none) :
    (s.after e).desktop.format = s.desktop.format ∧ ∀ index,
      (s.after e).colors.get index = (e.message.colorAt? index).getD (s.colors.get index) := by
  cases e with
  | sent m =>
      cases m with
      | client m => cases m <;> cases h <;> exact ⟨rfl, fun _ => rfl⟩
      | server m => exact ⟨format_afterServer s m, s.colors_afterServer m⟩
  | received m =>
      cases m with
      | client m => cases m <;> cases h <;> exact ⟨rfl, fun _ => rfl⟩
      | server m => exact ⟨format_afterServer s m, s.colors_afterServer m⟩

/-- A state whose color map was black holds what the log of its messages says. -/
theorem shown_by_log (black : s.colors = ColorMap.black) (log : List Event) :
    (log.foldl after s).desktop.format =
        (Message.lastFormat? (log.map Event.message)).getD s.desktop.format ∧
      ∀ index, (log.foldl after s).colors.get index =
        (Message.lastColor? (log.map Event.message) index).getD Color.black := by
  induction log using List.reverseRecOn with
  | nil =>
      refine ⟨rfl, fun index => ?_⟩
      rw [List.foldl_nil, black, ColorMap.get_black]
      rfl
  | append_singleton log e ih =>
      obtain ⟨format, colors⟩ := ih
      rw [List.foldl_concat, List.map_append, List.map_singleton, Message.lastFormat?_concat]
      simp only [Message.lastColor?_concat]
      cases change : e.message.pixelFormatChange with
      | none =>
          obtain ⟨same, written⟩ := after_plain (s := log.foldl after s) change
          refine ⟨same.trans format, fun index => (written index).trans ?_⟩
          rw [colors index]
          cases e.message.colorAt? index <;> rfl
      | some format' =>
          rw [after_change change]
          exact ⟨rfl, fun index => ColorMap.get_black index⟩

end SessionState

/-! ## Runs of a session -/

namespace Session

variable {s s' : Session} {log events : List Event}

/-- One move of a loop, of whoever holds the session or of anybody who ends it, and what it puts to
the state.  What is on the pipes, and whether they are closed, is left open. -/
inductive Move : Session → List Event → Session → Prop
  | reads {s s' : Session} {incoming incoming' : Pipe}
      (move : s.read incoming = some (s', incoming')) :
      Move s ((s.completes incoming).toList.map .received) s'
  | writes {s s' : Session} {outward outward' : Pipe}
      (move : s.write outward = some (s', outward')) :
      Move s (s.outgoing.take.toList.map fun (m, _) => .sent m) s'
  | stopsReading (s : Session) : Move s [] s.stopReading
  | stopsWriting (s : Session) (outward : Pipe) : Move s [] (s.stopWriting outward).1
  | recvs (s : Session) : Move s [] s.recv.2
  | sends {s s' : Session} {m : Message} (sent : s.send m = some s') : Move s [] s'
  | cancels (s : Session) : Move s [] s.cancelSend
  | awaits (s : Session) : Move s [] s.await
  | takesError (s : Session) : Move s [] s.takeError.2
  | releases (s : Session) : Move s [] s.release
  | closes (s : Session) : Move s [] s.close

/-- Moves one after another, and the log of what they put to the state. -/
inductive Runs (s : Session) : List Event → Session → Prop
  | start : Runs s [] s
  | step {log events : List Event} {mid s' : Session} :
      Runs s log mid → Move mid events s' → Runs s (log ++ events) s'

theorem inlet_recv (s : Session) : s.recv.2.state = s.state ∧ s.recv.2.inlet = s.inlet := by
  unfold recv
  split <;> exact ⟨rfl, rfl⟩

theorem Move.state (move : Move s events s') : s'.state = events.foldl SessionState.after s.state := by
  cases move with
  | reads move =>
      have reads := reads_of_read move
      generalize s.completes _ = completed at reads ⊢
      cases reads with
      | completes busy done => exact state_deliver _ _
      | stops stopped inbound outgoing isWriting state => exact state
      | _ => rfl
  | writes move =>
      cases stroke_of_write move with
      | puts goesOn next isOpen =>
          rw [next]
          rfl
      | @breaks m outgoing goesOn next closed =>
          obtain ⟨errors, failed⟩ := fail_eq
            { s with outgoing, state := s.state.afterSent m } (.transport .brokenPipe)
          rw [next, failed]
          rfl
      | ends goesOn empty alone =>
          rw [empty]
          rfl
  | recvs => exact (inlet_recv s).1
  | sends sent =>
      obtain rfl := offer_of_send sent
      rfl
  | _ => rfl

theorem Runs.state (run : s.Runs log s') : s'.state = log.foldl SessionState.after s.state := by
  induction run with
  | start => rfl
  | step _ move ih => rw [List.foldl_append, ← ih, move.state]

end Session

/-! ## Formats that are valid -/

/-- A pixel format that the message asks for is valid. -/
def Message.AsksValid (m : Message) : Prop :=
  ∀ format, m.pixelFormatChange = some format → format.validate = .ok ()

namespace Session

variable {s s' : Session} {log events : List Event}

theorem asksValid_of_bodyReader {state : SessionState} {code : UInt8} {m : Message}
    {input rest : Bytes} (h : (bodyReader state code).run input = (.ok m, rest)) : m.AsksValid := by
  unfold bodyReader at h
  split at h
  · obtain ⟨m, run, rfl⟩ := Reader.run_map_ok.mp h
    obtain ⟨-, fits, -⟩ := ClientMessage.stand_of_readBody (Reader.run_mapError_ok.mp run)
    intro format change
    cases m <;> cases change
    exact fits.1
  · obtain ⟨m, -, rfl⟩ := Reader.run_map_ok.mp h
    nofun

/-- The message that is being read was begun as the body of one. -/
def Begun (s : Session) : Prop :=
  ∀ body, s.inlet = .reading body → ∃ state code taken,
    ∀ more, (bodyReader state code).run (taken ++ more) = body.run more

theorem begun_of_inlet (h : s.Begun) (inlet : s'.inlet = s.inlet) : s'.Begun := by
  intro body busy
  exact h body (inlet.symm.trans busy)

theorem begun_of_not_reading (idle : ∀ body, s.inlet ≠ .reading body) : s.Begun :=
  fun body busy => absurd busy (idle body)

theorem inlet_deliver (s : Session) (m : Message) (body : Reader SessionError Message) :
    (s.deliver m).inlet ≠ .reading body := by
  unfold deliver
  dsimp only
  split
  · dsimp only
    split <;> nofun
  · nofun

/-- What the reading loop completes was read as the body of a message. -/
theorem begun_of_reads {incoming incoming' : Pipe} {m : Option Message} (h : s.Begun)
    (move : Reads s incoming m s' incoming') : s'.Begun ∧ ∀ a ∈ m, a.AsksValid := by
  cases move with
  | resumes held room => exact ⟨begun_of_not_reading nofun, nofun⟩
  | @begins code rest idle input =>
      refine ⟨fun body busy => ?_, nofun⟩
      cases busy
      exact ⟨s.state, code, [], fun _ => rfl⟩
  | goesOn busy waits =>
      refine ⟨fun body busy' => ?_, nofun⟩
      cases busy'
      obtain ⟨state, code, taken, same⟩ := h _ busy
      obtain ⟨used, -, goesOn⟩ := Reader.run_resume waits
      refine ⟨state, code, taken ++ used, fun more => ?_⟩
      rw [List.append_assoc, same, goesOn]
  | @completes body m rest busy done =>
      refine ⟨begun_of_not_reading (inlet_deliver _ m), fun a mem => ?_⟩
      obtain rfl : m = a := Option.some.inj mem
      obtain ⟨state, code, taken, same⟩ := h body busy
      have run := Reader.run_eq_ok_iff.mpr done
      rw [← same] at run
      exact asksValid_of_bodyReader run
  | stops stopped inbound outgoing isWriting state =>
      refine ⟨begun_of_not_reading fun body busy => ?_, nofun⟩
      cases stopped.symm.trans busy

theorem Move.begun (move : Move s events s') (h : s.Begun) :
    s'.Begun ∧ ∀ m, .received m ∈ events → m.AsksValid := by
  cases move with
  | reads move =>
      obtain ⟨begun, valid⟩ := begun_of_reads h (reads_of_read move)
      refine ⟨begun, fun m mem => ?_⟩
      obtain ⟨a, completed, eq⟩ := List.mem_map.mp mem
      cases eq
      exact valid m (Option.mem_toList.mp completed)
  | writes move =>
      obtain ⟨-, inlet, -⟩ := (writes_of_write move).inbound
      refine ⟨begun_of_inlet h inlet, fun m mem => ?_⟩
      obtain ⟨_, -, eq⟩ := List.mem_map.mp mem
      cases eq
  | stopsReading => exact ⟨begun_of_not_reading nofun, nofun⟩
  | recvs => exact ⟨begun_of_inlet h (inlet_recv s).2, nofun⟩
  | sends sent =>
      obtain rfl := offer_of_send sent
      exact ⟨begun_of_inlet h rfl, nofun⟩
  | _ => exact ⟨begun_of_inlet h rfl, nofun⟩

theorem Runs.begun (run : s.Runs log s') (h : s.Begun) :
    s'.Begun ∧ ∀ m, .received m ∈ log → m.AsksValid := by
  induction run with
  | start => exact ⟨h, nofun⟩
  | step _ move ih =>
      obtain ⟨begun, valid⟩ := move.begun ih.1
      refine ⟨begun, fun m mem => ?_⟩
      exact (List.mem_append.mp mem).elim (ih.2 m) (valid m)

end Session

namespace Exchange

variable {α β : Type}

/-- The exchange can come to this result, for some bytes that it is sent and challenges that it
draws. -/
inductive EndsIn : Exchange α → α → Prop
  | done (a : α) : EndsIn (.done (.ok a)) a
  | take {count : Nat} {short : Nat → ProtocolError} {next : Bytes → Exchange α} {piece : Bytes}
      {a : α} : piece.length = count → EndsIn (next piece) a → EndsIn (.take count short next) a
  | send {bytes : Bytes} {next : Exchange α} {a : α} : EndsIn next a → EndsIn (.send bytes next) a
  | draw {next : Bytes → Exchange α} {challenge : Bytes} {a : α} :
      EndsIn (next challenge) a → EndsIn (.draw next) a

/-- What comes of playing against a scripted peer is such a result. -/
theorem endsIn_of_run {e : Exchange α} {nonce : Bytes} {d d' : Dialogue} {a : α}
    (h : e.run nonce d = (.ok a, d')) : e.EndsIn a := by
  induction e generalizing d with
  | done result =>
      cases h
      exact .done a
  | take count short next ih =>
      rw [run] at h
      split at h
      · cases h
      · rename_i whole
        refine .take ?_ (ih _ h)
        have most := List.length_take_le count (d.await count).input
        omega
  | send bytes next ih => exact .send (ih h)
  | draw next ih => exact .draw (ih _ h)

theorem endsIn_of_resume {e : Exchange α} {nonce input left : Bytes} {ended : Bool}
    {outward outward' : Pipe} {a : α}
    (h : e.resume nonce ended input outward = (.done (.ok a), left, outward')) : e.EndsIn a := by
  induction e generalizing input outward with
  | done result =>
      cases h
      exact .done a
  | take count short next ih =>
      rw [resume] at h
      split at h
      · rename_i enough
        exact .take (List.length_take_of_le enough) (ih _ h)
      · split at h <;> cases h
  | send bytes next ih =>
      rw [resume] at h
      split at h
      · exact .send (ih h)
      · cases h
  | draw next ih => exact .draw (ih _ h)

theorem endsIn_bind {e : Exchange α} {f : α → Exchange β} {b : β} (h : (e >>= f).EndsIn b) :
    ∃ a, e.EndsIn a ∧ (f a).EndsIn b := by
  change (e.bind f).EndsIn b at h
  induction e with
  | done result =>
      cases result with
      | ok a => exact ⟨a, .done a, h⟩
      | error e => cases h
  | take count short next ih =>
      obtain _ | ⟨length, h⟩ := h
      obtain ⟨a, first, second⟩ := ih _ h
      exact ⟨a, .take length first, second⟩
  | send bytes next ih =>
      cases h with
      | send h =>
          obtain ⟨a, first, second⟩ := ih h
          exact ⟨a, .send first, second⟩
  | draw next ih =>
      cases h with
      | draw h =>
          obtain ⟨a, first, second⟩ := ih _ h
          exact ⟨a, .draw first, second⟩

theorem EndsIn.bind {e : Exchange α} {f : α → Exchange β} {a : α} {b : β} (first : e.EndsIn a)
    (second : (f a).EndsIn b) : (e >>= f).EndsIn b := by
  show (e.bind f).EndsIn b
  induction first with
  | done a => exact second
  | take length _ ih => exact .take length (ih second)
  | send _ ih => exact .send (ih second)
  | draw _ ih => exact .draw (ih second)

theorem endsIn_pure {a b : α} (h : (pure a : Exchange α).EndsIn b) : b = a := by
  cases h
  rfl

theorem endsIn_read {r : Reader WireError α} {a : α} (h : (read r).EndsIn a) :
    ∃ input, r.run input = (.ok a, []) := by
  induction r with
  | done result =>
      cases result with
      | ok b =>
          cases h
          exact ⟨[], rfl⟩
      | error e => cases h
  | take count short next ih =>
      cases h with
      | @take _ _ _ piece _ length h =>
          obtain ⟨input, run⟩ := ih _ h
          refine ⟨piece ++ input, ?_⟩
          rw [Reader.run_take_of_le (by simp [length]), List.take_left' length,
            List.drop_left' length, run]

end Exchange

namespace SessionOptions

variable {o : SessionOptions} {state : SessionState} {desktop : Desktop}

/-- An initiator that was told of a desktop starts in its format, or in the one that it forces, and
with a black color map. -/
theorem endsIn_connect [BlockCipher] (h : o.connect.EndsIn state) :
    ∃ told : Desktop, told.format.validate = .ok () ∧
      state.desktop.format = o.forcedFormat.getD told.format ∧ state.colors = ColorMap.black := by
  rw [connect_eq] at h
  obtain ⟨version, -, h⟩ := Exchange.endsIn_bind h
  obtain ⟨security, -, h⟩ := Exchange.endsIn_bind h
  obtain ⟨-, -, h⟩ := Exchange.endsIn_bind h
  obtain ⟨told, described, h⟩ := Exchange.endsIn_bind h
  obtain ⟨input, run⟩ := Exchange.endsIn_read described
  have plain : told.format.Plain := by
    split at run
    · exact (Desktop.toldIn_readAten run).choose_spec.format
    · exact (Desktop.toldIn_read run).choose_spec.format
  refine ⟨told, plain.1, ?_⟩
  cases forced : o.forcedFormat with
  | none =>
      rw [wish, forced] at h
      obtain rfl := Exchange.endsIn_pure h
      exact ⟨rfl, rfl⟩
  | some format =>
      rw [wish, forced] at h
      obtain ⟨-, -, h⟩ := Exchange.endsIn_bind h
      obtain rfl := Exchange.endsIn_pure h
      exact ⟨rfl, rfl⟩

/-- An acceptor starts in the format of the desktop that it described, with a black color map. -/
theorem endsIn_accept [BlockCipher] (h : (o.accept desktop).EndsIn state) :
    state.desktop = desktop ∧ state.colors = ColorMap.black := by
  rw [accept_eq] at h
  obtain ⟨version, -, h⟩ := Exchange.endsIn_bind h
  obtain ⟨security, -, h⟩ := Exchange.endsIn_bind h
  obtain ⟨shared, -, h⟩ := Exchange.endsIn_bind h
  obtain ⟨-, -, h⟩ := Exchange.endsIn_bind h
  obtain rfl := Exchange.endsIn_pure h
  exact ⟨rfl, rfl⟩

/-- The states that a handshake by these options can end in, at either side.  An acceptor describes
the desktop of its options, or another one whose format is valid. -/
def Opens [BlockCipher] (o : SessionOptions) (state : SessionState) : Prop :=
  o.connect.EndsIn state ∨ ∃ desktop : Desktop,
    (desktop = o.desktop ∨ desktop.format.validate = .ok ()) ∧ (o.accept desktop).EndsIn state

theorem Opens.black [BlockCipher] (h : o.Opens state) : state.colors = ColorMap.black := by
  obtain h | ⟨desktop, -, h⟩ := h
  · obtain ⟨_, -, -, black⟩ := endsIn_connect h
    exact black
  · exact (endsIn_accept h).2

theorem Opens.valid [BlockCipher] (h : o.Opens state) (valid : o.validate = .ok ()) :
    state.desktop.format.validate = .ok () := by
  obtain ⟨-, -, -, own, forced⟩ := validate_eq_ok.mp valid
  obtain h | ⟨desktop, described, h⟩ := h
  · obtain ⟨told, received, format, -⟩ := endsIn_connect h
    rw [format]
    cases eq : o.forcedFormat with
    | none => exact received
    | some format => exact forced format eq
  · rw [(endsIn_accept h).1]
    obtain rfl | given := described
    · exact own
    · exact given

end SessionOptions

/-- **The color map belongs to the current pixel format.**  At any time, whatever its loops and its
owner have done, a session is in the format that the last message asked for that asked for one, sent
or received, or else in the one that its handshake ended in; and an entry of its color map is the
color that was written to it last since then, or black.  If its options are valid, and what it sent
asked for valid formats alone, then so is its own. -/
theorem palette_current [BlockCipher] {o : SessionOptions} {state : SessionState}
    {buffer : Bytes} {log : List Session.Event} {s : Session} (opened : o.Opens state)
    (run : (Session.start o state buffer).Runs log s) :
    s.state.desktop.format =
        (Message.lastFormat? (log.map Event.message)).getD state.desktop.format ∧
      (∀ index, s.state.colors.get index =
        (Message.lastColor? (log.map Event.message) index).getD Color.black) ∧
      (o.validate = .ok () → (∀ m, .sent m ∈ log → m.AsksValid) →
        s.state.desktop.format.validate = .ok ()) := by
  obtain ⟨format, colors⟩ := SessionState.shown_by_log opened.black log
  have current : s.state = log.foldl SessionState.after state := run.state
  rw [← current] at format
  simp only [← current] at colors
  refine ⟨format, colors, fun valid sent => ?_⟩
  have begun : (Session.start o state buffer).Begun := Session.begun_of_not_reading nofun
  have received := (run.begun begun).2
  rw [format]
  cases last : Message.lastFormat? (log.map Event.message) with
  | none => exact opened.valid valid
  | some asked =>
      obtain ⟨m, mem, asks⟩ := List.exists_of_findSome?_eq_some last
      obtain ⟨e, logged, rfl⟩ := List.mem_map.mp (List.mem_reverse.mp mem)
      cases e with
      | sent m => exact sent m logged asked asks
      | received m => exact received m logged asked asks

/-- The state of an acceptor with the standard options, at its start. -/
def SessionState.accepted : SessionState :=
  (make .server .v38 .none SessionOptions.standard.encodings).setDesktop
    SessionOptions.standard.desktop

/-- An acceptor with the standard options is asked for indexed pixels and then sends one color. -/
theorem palette_current_indexed :
    ∃ s, SessionOptions.standard.Opens SessionState.accepted ∧
      (Session.start SessionOptions.standard SessionState.accepted []).Runs
        [.received (.client (.setPixelFormat PixelFormat.indexed8)),
          .sent (.server (.setColorMapEntries 3 [⟨0xFFFF, 0, 0⟩]))] s ∧
      s.state.desktop.format = PixelFormat.indexed8 ∧
      s.state.colors.get 3 = ⟨0xFFFF, 0, 0⟩ ∧ s.state.colors.get 4 = Color.black ∧
      s.state.desktop.format.validate = .ok () := by
  have version : Handshake.serverVersion.EndsIn .v38 := by
    refine .send (.take Version.v38.length_bytes ?_)
    show (Exchange.ofExcept (Version.parse Version.v38.bytes)).EndsIn .v38
    rw [Version.parse_bytes]
    exact .done _
  have security : (Handshake.serverSecurity .v38 SessionOptions.standard.security).EndsIn .none :=
    .send (.take (rfl : [(1 : UInt8)].length = 1) (.send (.done _)))
  have shared : Handshake.serverClientInit.EndsIn true :=
    .take (rfl : [(1 : UInt8)].length = 1) (.done _)
  have accepts : (SessionOptions.standard.accept SessionOptions.standard.desktop).EndsIn
      SessionState.accepted := by
    rw [SessionOptions.accept_eq]
    exact version.bind (security.bind (shared.bind (.send (.done _))))
  have opened : SessionOptions.standard.Opens SessionState.accepted :=
    .inr ⟨_, .inl rfl, accepts⟩
  have begins := (@Session.Runs.start
    (Session.start SessionOptions.standard SessionState.accepted [])).step
    (@Session.Move.reads _ _ ⟨(ClientMessage.setPixelFormat PixelFormat.indexed8).encode, false⟩ _
      rfl)
  have completes := begins.step (@Session.Move.reads _ _ Pipe.fresh _ rfl)
  have sends := completes.step
    (@Session.Move.sends _ _ (.server (.setColorMapEntries 3 [⟨0xFFFF, 0, 0⟩])) rfl)
  have writes : Session.Runs _ [.received (.client (.setPixelFormat PixelFormat.indexed8)),
      .sent (.server (.setColorMapEntries 3 [⟨0xFFFF, 0, 0⟩]))] _ :=
    sends.step (@Session.Move.writes _ _ Pipe.fresh _ rfl)
  obtain ⟨format, colors, valid⟩ := palette_current opened writes
  refine ⟨_, opened, writes, format, colors 3, colors 4, valid (by rfl) ?_⟩
  intro m mem
  obtain rfl : m = .server (.setColorMapEntries 3 [⟨0xFFFF, 0, 0⟩]) := by simpa using mem
  nofun

end RemoteFramebuffer
