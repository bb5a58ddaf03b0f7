/-
# `RemoteFramebuffer.Proofs.Session.Opening` — both ends of the opening handshake agree

## What is proved

Of any two ends with valid options, of which the acceptor can tell its desktop and the initiator does
not expect the longer form of it, let them take their steps in any order (`opening_agrees`):

    always                         no run is endless; until both are done, one can go on
    the initiator has succeeded    so has the acceptor; both go by 3.8, hold handlers of one type and
                                   know the same desktop, but for the format that is forced
    what is left to be read        the wish for that format, as the acceptor's session will read it

The last line is for credentials whose lengths fit their words, and the flags of the format are read
as they are written: set or not.  More may be left, or less read of it, without this
(`opening_leaves_more`).

## How it is proved

Behind the security step the initiator says whether it shares the desktop, and the acceptor
tells of it.  The initiator's wish for a pixel format is the one thing that is left to be read:

    announce 3.8   security   share   desktop   | wish
    -----------------------------------------   | ----
    heard before the initiator succeeds         | the acceptor's first message

The acceptor writes nothing that the initiator does not wait for, so that one run stands for
all of them.
-/
import RemoteFramebuffer.Proofs.Handshake.Security
import RemoteFramebuffer.Proofs.Recording.Replay
import RemoteFramebuffer.Proofs.Session.Loops
import RemoteFramebuffer.Security.Des
import RemoteFramebuffer.Session.State

namespace RemoteFramebuffer

open Exchange (Takes takes_read takes_read_bind)
open Reader (takes_bytes run_bind_ok run_mapError_ok run_map_ok run_u8_ok)
open Conversation (Flow Ends start)
open Handshake (Concludes Chosen)

/-! ## The last part of the handshake -/

namespace SessionOptions

variable {nonce : Bytes} {o o' : SessionOptions} {h h' : SecurityHandler} {desktop : Desktop}

def wishes (o : SessionOptions) : List ClientMessage :=
  (o.forcedFormat.map ClientMessage.setPixelFormat).toList

theorem encode_wishes {format : PixelFormat} (forced : o.forcedFormat = some format) :
    o.wishes.flatMap ClientMessage.encode = (ClientMessage.setPixelFormat format).encode := by
  rw [wishes, forced, Option.map_some, Option.toList_some, List.flatMap_singleton]

/-- What an initiator does once it knows of the desktop. -/
def wish (o : SessionOptions) (state : SessionState) : Exchange SessionState :=
  match o.forcedFormat with
  | none => return state
  | some format => do
    let request := ClientMessage.setPixelFormat format
    Exchange.write request.encode
    return state.afterSending request

/-- The initiator's part behind the security step. -/
def introduce (o : SessionOptions) (version : Version) (security : SecurityHandler) :
    Exchange SessionState := do
  Handshake.clientInit (!o.exclusive)
  let desktop ← Handshake.clientServerInit o.aten
  o.wish ((SessionState.make .client version security o.encodings).setDesktop desktop)

/-- The acceptor's part behind the security step. -/
def describe (o : SessionOptions) (desktop : Desktop) (version : Version)
    (security : SecurityHandler) : Exchange SessionState := do
  let _shared ← Handshake.serverClientInit
  Handshake.serverInit desktop
  return (SessionState.make .server version security o.encodings).setDesktop desktop

theorem connect_eq [BlockCipher] (o : SessionOptions) :
    o.connect = Handshake.clientVersion >>= fun version =>
      Handshake.clientSecurity version o.security >>= o.introduce version := by
  rfl

theorem accept_eq [BlockCipher] (o : SessionOptions) (desktop : Desktop) :
    o.accept desktop = Handshake.serverVersion >>= fun version =>
      Handshake.serverSecurity version o.security >>= o.describe desktop version := by
  rfl

def initiated (o : SessionOptions) (security : SecurityHandler) (desktop : Desktop) :
    SessionState :=
  o.wishes.foldl SessionState.afterSending
    ((SessionState.make .client .v38 security o.encodings).setDesktop desktop)

def admitted (o : SessionOptions) (security : SecurityHandler) (desktop : Desktop) : SessionState :=
  (SessionState.make .server .v38 security o.encodings).setDesktop desktop

theorem initiated_eq (o : SessionOptions) (security : SecurityHandler) (desktop : Desktop) :
    (o.initiated security desktop).version = .v38 ∧
      (o.initiated security desktop).security = security ∧
      (o.initiated security desktop).desktop =
        { desktop with format := o.forcedFormat.getD desktop.format } := by
  unfold initiated wishes
  cases o.forcedFormat with
  | none => exact ⟨rfl, rfl, rfl⟩
  | some format => exact ⟨rfl, rfl, rfl⟩

/-! ## Runs -/

theorem flow_version [BlockCipher] (o o' : SessionOptions) (desktop : Desktop) :
    Flow nonce (start o.connect (o'.accept desktop))
      (start (Handshake.clientSecurity .v38 o.security >>= o.introduce .v38)
        (Handshake.serverSecurity .v38 o'.security >>= o'.describe desktop .v38)) := by
  have announced : Version.v38.bytes ≠ [] :=
    List.ne_nil_of_length_eq_add_one Version.v38.length_bytes
  have read := takes_read (takes_bytes Version.v38.length_bytes)
  have echoes : Takes Handshake.clientVersion Version.v38.bytes
      (Exchange.ofExcept (Version.parse Version.v38.bytes) >>= fun version =>
        .send version.bytes (pure version)) := read.bind _
  have learns : Takes (Exchange.read (Reader.bytes Version.size) >>= fun raw =>
      Exchange.ofExcept (Version.parse raw)) Version.v38.bytes
        (Exchange.ofExcept (Version.parse Version.v38.bytes)) := read.bind _
  rw [Version.parse_bytes] at echoes learns
  rw [connect_eq, accept_eq]
  refine .trans (.answers announced (echoes.bind _)) ?_
  exact .passes announced (learns.bind _)

theorem flow_wish {y : Exchange SessionState} {toServer : Bytes} (o : SessionOptions)
    (security : SecurityHandler) (desktop : Desktop) :
    Flow nonce
      ⟨o.wish ((SessionState.make .client .v38 security o.encodings).setDesktop desktop), y,
        toServer, []⟩
      ⟨.done (.ok (o.initiated security desktop)), y,
        toServer ++ o.wishes.flatMap ClientMessage.encode, []⟩ := by
  unfold wish initiated wishes
  cases o.forcedFormat with
  | none =>
      rw [Option.map_none, Option.toList_none, List.flatMap_nil, List.append_nil]
      exact .refl _
  | some format =>
      rw [Option.map_some, Option.toList_some, List.flatMap_cons, List.flatMap_nil, List.append_nil]
      exact .sends nofun

/-- What was not heard of the security step is taken for the initiator's first word, and the
desktop is told all the same. -/
theorem flow_desktop (plain : o.aten = false) (tellable : desktop.Tellable) (unheard : Bytes) :
    Flow nonce ⟨o.introduce .v38 h, o'.describe desktop .v38 h', unheard, []⟩
      ⟨.done (.ok (o.initiated h desktop)), .done (.ok (o'.admitted h' desktop)),
        (unheard ++ Bytes.ofBool (!o.exclusive)).tail ++ o.wishes.flatMap ClientMessage.encode,
        []⟩ := by
  have said : Bytes.ofBool (!o.exclusive) ≠ [] := by cases o.exclusive <;> decide
  obtain ⟨b, rest, heard⟩ : ∃ b rest, unheard ++ Bytes.ofBool (!o.exclusive) = b :: rest :=
    List.exists_cons_of_ne_nil fun none => said (List.append_eq_nil_iff.mp none).2
  have hears : Takes (o'.describe desktop .v38 h') [b]
      (.send desktop.encode (.done (.ok (o'.admitted h' desktop)))) :=
    (takes_read ((Reader.takes_u8 b).map (· != 0))).bind _
  have told : desktop.encode ≠ [] := by
    simp only [Desktop.encode, ne_eq, List.append_eq_nil_iff, not_and]
    exact fun none => absurd none.1.1 (List.ne_nil_of_length_eq_add_one (Bytes.length_ofNat 2 _))
  have learns : Takes
      (Handshake.clientServerInit o.aten >>= fun desktop =>
        o.wish ((SessionState.make .client .v38 h o.encodings).setDesktop desktop))
      desktop.encode
      (o.wish ((SessionState.make .client .v38 h o.encodings).setDesktop desktop)) := by
    rw [plain]
    exact (takes_read (Desktop.takes_read tellable)).bind _
  refine .trans (.sends said) ?_
  rw [heard]
  refine .trans (.hears hears) ?_
  refine .trans (.answers told learns) ?_
  exact flow_wish o h desktop

/-! ## Both ends -/

/-- What is true once the initiator has succeeded. -/
structure Opened (o o' : SessionOptions) (desktop : Desktop)
    (c : Conversation SessionState SessionState) (h h' : SecurityHandler) : Prop where
  client : c.client = .done (.ok (o.initiated h desktop))
  server : c.server = .done (.ok (o'.admitted h' desktop))
  same : h'.code = h.code
  toClient : c.toClient = []
  toServer : h.FitsWords → c.toServer = o.wishes.flatMap ClientMessage.encode

theorem opened_of_heard {unheard : Bytes} (same : h'.code = h.code)
    (heard : h.FitsWords → unheard = []) :
    Opened o o' desktop
      ⟨.done (.ok (o.initiated h desktop)), .done (.ok (o'.admitted h' desktop)),
        (unheard ++ Bytes.ofBool (!o.exclusive)).tail ++ o.wishes.flatMap ClientMessage.encode, []⟩
      h h' := by
  refine ⟨rfl, rfl, same, rfl, fun fits => ?_⟩
  rw [heard fits]
  cases o.exclusive <;> rfl

theorem flow_opening [BlockCipher] (nonempty : o'.security ≠ []) (few : o'.security.length ≤ 255)
    (tellable : desktop.Tellable) (plain : o.aten = false)
    (length : nonce.length = Challenge.size) :
    ∃ c, Flow nonce (start o.connect (o'.accept desktop)) c ∧ c.AtRest nonce ∧
      (∀ s, c.client = .done (.ok s) → ∃ h h', Opened o o' desktop c h h') ∧
      ∀ h h', Chosen .v38 o.security o'.security h h' → h.Presentable →
        h'.accepts nonce h = true → Opened o o' desktop c h h' := by
  obtain ⟨c, secures, concludes, settles⟩ :=
    @Handshake.flow_security nonce o'.security _ .v38 o.security nonempty few length
  have begun : Flow nonce (start o.connect (o'.accept desktop))
      (c.bind (o.introduce .v38) (o'.describe desktop .v38)) :=
    (flow_version o o' desktop).trans (secures.bind _ _)
  -- what a success of the security step comes to, if it comes to one
  have succeeds {h h' : SecurityHandler} (pair : Chosen .v38 o.security o'.security h h')
      (presentable : h.Presentable) (accepted : h'.accepts nonce h = true) :
      c = start (.done (.ok h)) (.done (.ok h')) := by
    rw [settles h h' pair presentable, accepted]
    rfl
  cases concludes with
  | fails failed =>
      obtain ⟨cause, failed⟩ := failed
      have stays : (c.bind (o.introduce .v38) (o'.describe desktop .v38)).client =
          .done (.error cause) := by
        rw [Conversation.bind, failed]
        rfl
      refine ⟨_, begun, .inl ⟨cause, stays⟩, fun s done => ?_, fun h h' pair present accepted => ?_⟩
      · cases stays.symm.trans done
      · rw [succeeds pair present accepted] at failed
        cases failed
  | waits h cause unheard =>
      refine ⟨_, begun, .inr ⟨⟨_, rfl⟩, rfl, rfl⟩, fun s done => ?_,
        fun h h' pair present accepted => ?_⟩
      · cases done
      · cases succeeds pair present accepted
  | @agrees h h' unheard same heard =>
      refine ⟨_, begun.trans (flow_desktop plain tellable unheard), .inr ⟨⟨_, rfl⟩, rfl, rfl⟩,
        fun s _ => ⟨h, h', opened_of_heard same heard⟩, fun k k' pair present accepted => ?_⟩
      cases succeeds pair present accepted
      exact opened_of_heard same heard

theorem ends_opening [BlockCipher] (nonempty : o'.security ≠ []) (few : o'.security.length ≤ 255)
    (tellable : desktop.Tellable) (plain : o.aten = false)
    (length : nonce.length = Challenge.size) :
    Ends nonce (fun c => ∀ s, c.client = .done (.ok s) → ∃ h h', Opened o o' desktop c h h')
      (start o.connect (o'.accept desktop)) := by
  obtain ⟨d, flow, rests, opened, -⟩ :=
    @flow_opening nonce o o' desktop _ nonempty few tellable plain length
  refine (Ends.of_flow flow rests).mono fun c ends s done => ?_
  rcases ends with rfl | ⟨cause, failed⟩
  · exact opened s done
  · cases failed.symm.trans done

/-- **The handshake can succeed.**  If the acceptor is content with what the initiator presents for
the handlers that they settle on, some run ends with both of them done. -/
theorem exists_opened [BlockCipher] (nonempty : o'.security ≠ []) (few : o'.security.length ≤ 255)
    (tellable : desktop.Tellable) (plain : o.aten = false)
    (length : nonce.length = Challenge.size) (pair : Chosen .v38 o.security o'.security h h')
    (presentable : h.Presentable) (accepted : h'.accepts nonce h = true) :
    ∃ c, Conversation.Reaches nonce (start o.connect (o'.accept desktop)) c ∧
      Opened o o' desktop c h h' := by
  obtain ⟨c, flow, -, -, opened⟩ :=
    @flow_opening nonce o o' desktop _ nonempty few tellable plain length
  exact ⟨c, flow.reaches, opened h h' pair presentable accepted⟩

end SessionOptions

/-! ## The initiator's wish -/

/-- A wish for a valid format is read as one for the format with its flags as they are written. -/
theorem ClientMessage.takes_wish {format : PixelFormat} (valid : format.validate = .ok ()) :
    ClientMessage.read.Takes (setPixelFormat format).encode (setPixelFormat format.stated) := by
  intro rest
  refine run_read_ok.mpr ⟨PixelFormat.plain_stated valid, ?_⟩
  exact ⟨_, Part.at_content.mpr rfl, _, ⟨Bytes.zeros 3, rfl, rfl⟩,
    PixelFormat.stand_encode format rest⟩

/-- An acceptor's session reads client messages of the types that it accepts. -/
theorem Session.takes_readOne_client {accepted : List UInt8} {state : SessionState}
    (role : state.role = .server) {code : UInt8} {body : Bytes} {m : ClientMessage}
    (known : code ∈ accepted) (takes : ClientMessage.read.Takes (code :: body) m) :
    (readOne accepted state).Takes (code :: body) (.client m) := by
  intro rest
  have read := takes rest
  simp only [ClientMessage.read, readOne, run_bind_ok, run_mapError_ok, run_u8_ok] at read ⊢
  obtain ⟨code, body, eq, read⟩ := read
  cases eq
  refine ⟨code, _, rfl, ?_⟩
  rw [if_pos known, bodyReader, role]
  exact run_map_ok.mpr ⟨m, run_mapError_ok.mpr read, rfl⟩

/-! ## Agreement -/

namespace SessionOptions

theorem validate_eq_ok {o : SessionOptions} :
    o.validate = .ok () ↔
      o.security ≠ [] ∧ o.encodings.members ≠ [] ∧ o.queueCapacity ≠ 0 ∧
        o.desktop.format.validate = .ok () ∧
        ∀ format, o.forcedFormat = some format → format.validate = .ok () := by
  have rule_then (broken : Prop) [Decidable broken] (e : SessionError)
      (next : Unit → Except SessionError Unit) :
      (if broken then throw e >>= next else next ()) = .ok () ↔ ¬ broken ∧ next () = .ok () := by
    by_cases h : broken
    · simp only [h, if_true, not_true, false_and, iff_false]
      exact nofun
    · simp only [h, if_false, not_false_eq_true, true_and]
  have fault_iff (pf : PixelFormat) (fault : PixelFormat.Invalid → SessionError) :
      pf.validate.mapError fault = .ok () ↔ pf.validate = .ok () := by
    cases pf.validate with
    | error e => exact ⟨nofun, nofun⟩
    | ok => exact ⟨fun _ => rfl, fun _ => rfl⟩
  have and_then (step next : Except SessionError Unit) :
      (step >>= fun _ => next) = .ok () ↔ step = .ok () ∧ next = .ok () := by
    cases step with
    | error e => exact ⟨nofun, nofun⟩
    | ok => exact ⟨fun h => ⟨rfl, h⟩, And.right⟩
  simp only [validate, rule_then, and_then, fault_iff, List.isEmpty_iff, ne_eq]
  cases o.forcedFormat with
  | none => simp only [pure, Except.pure, reduceCtorEq, false_implies, implies_true]
  | some format => simp only [fault_iff, Option.some.injEq, forall_eq']

/-- **Both ends of the opening handshake agree.**  Whoever moves when, no run is endless, and until
both ends are done one of them can go on.  If in the end the initiator has succeeded, the acceptor
has too; both go by 3.8 and hold handlers of one type, and both know of the acceptor's desktop, the
initiator with the format that it forces.  All was heard but this wish, if lengths of credentials
were stated as they are, and it is the first message that the acceptor's session reads, with its
flags as they are written. -/
theorem opening_agrees [BlockCipher] {nonce : Bytes} (o o' : SessionOptions)
    (valid : o.validate = .ok ()) (valid' : o'.validate = .ok ()) (few : o'.security.length ≤ 255)
    (name : (Bytes.ofString o'.desktop.name).length ≤ maxStringLength)
    (flags : o'.desktop.format.bigEndian ≤ 1 ∧ o'.desktop.format.trueColor ≤ 1)
    (plain : o.aten = false) (length : nonce.length = Challenge.size) :
    let start := Conversation.start o.connect (o'.accept o'.desktop)
    Acc (fun after before => Conversation.Step nonce before after) start ∧
      ∀ c, Conversation.Reaches nonce start c →
        (c.IsOver ∨ ∃ c', Conversation.Step nonce c c') ∧
        ∀ s rs, c.client = .done (.ok s) → c.server = .done rs →
          ∃ s', rs = .ok s' ∧ s.version = .v38 ∧ s'.version = .v38 ∧
            s'.security.code = s.security.code ∧
            s.desktop =
              { o'.desktop with format := o.forcedFormat.getD o'.desktop.format } ∧
            s'.desktop = o'.desktop ∧ c.toClient = [] ∧
            (s.security.FitsWords → c.toServer = o.wishes.flatMap ClientMessage.encode ∧
              ∀ format, o.forcedFormat = some format → 0 ∈ o'.clientMessages →
                (Session.start o' s' []).next.Takes c.toServer
                  (.client (.setPixelFormat format.stated))) := by
  obtain ⟨nonempty, -, -, valid', -⟩ := validate_eq_ok.mp valid'
  obtain ⟨-, -, -, -, forced⟩ := validate_eq_ok.mp valid
  have tellable : o'.desktop.Tellable := ⟨name, valid', flags⟩
  intro start
  refine ⟨Conversation.acc_step nonce start, fun c reached => ?_⟩
  have ends := (@ends_opening nonce o o' o'.desktop _ nonempty few tellable plain length).of_reaches
    reached
  obtain ⟨ended, goes, -⟩ := ends
  refine ⟨(Classical.em c.IsOver).imp_right goes, fun s rs client server => ?_⟩
  obtain ⟨h, h', opened⟩ := ended ⟨⟨_, client⟩, rs, server⟩ s client
  cases client.symm.trans opened.client
  cases server.symm.trans opened.server
  obtain ⟨version, security, desktop⟩ := o.initiated_eq h o'.desktop
  rw [security]
  refine ⟨_, rfl, version, rfl, opened.same, desktop, rfl, opened.toClient, ?_⟩
  intro fits
  have left := opened.toServer fits
  refine ⟨left, fun format eq known => ?_⟩
  rw [left, encode_wishes eq, Session.next_of_idle (.inl rfl)]
  exact Session.takes_readOne_client rfl known (ClientMessage.takes_wish (forced format eq))

/-- What an initiator with nothing to prove does if it forces a format. -/
def forcing (format : PixelFormat) : SessionOptions := { standard with forcedFormat := some format }

/-- What an acceptor does that admits everyone and reads messages of these types. -/
def reading (types : List UInt8) : SessionOptions := { standard with clientMessages := types }

theorem exists_opened_forcing [BlockCipher] (format : PixelFormat) (types : List UInt8) :
    ∃ c, Conversation.Reaches (Bytes.zeros 16)
        (start (forcing format).connect ((reading types).accept standard.desktop)) c ∧
      Opened (forcing format) (reading types) standard.desktop c .none .none := by
  have tellable : standard.desktop.Tellable := ⟨by decide +kernel, rfl, by decide, by decide⟩
  have few : [SecurityHandler.none].length ≤ 255 := by decide
  have pair : Chosen .v38 [.none] [.none] .none .none :=
    ⟨⟨[], [], rfl, by decide, nofun⟩, [], [], rfl, rfl, nofun⟩
  exact exists_opened (List.cons_ne_nil _ _) few tellable rfl rfl pair trivial rfl

/-- The initiator forces sixteen-bit pixels. -/
theorem opening_agrees_forcing :
    (forcing .rgb444).validate = .ok () ∧ standard.validate = .ok () ∧
      ∃ c s s', Conversation.Reaches (Bytes.zeros 16)
          (start (forcing .rgb444).connect (standard.accept standard.desktop)) c ∧
        c.client = .done (.ok s) ∧ c.server = .done (.ok s') ∧
        s.desktop = { Desktop.standard with format := .rgb444 } ∧
        c.toServer = (ClientMessage.setPixelFormat .rgb444).encode ∧
        (Session.start standard s' []).next.Takes c.toServer
          (.client (.setPixelFormat .rgb444)) := by
  have valid : (forcing .rgb444).validate = .ok () := rfl
  obtain ⟨c, reached, opened⟩ := exists_opened_forcing .rgb444 standardClientMessages
  obtain ⟨-, ends⟩ := @opening_agrees _ (Bytes.zeros 16) (forcing .rgb444) standard valid rfl
    (by decide) (by decide +kernel) ⟨by decide, by decide⟩ rfl rfl
  obtain ⟨s', server, -, -, -, desktop, -, -, heard⟩ :=
    (ends c reached).2 _ _ opened.client opened.server
  obtain ⟨left, reads⟩ := heard trivial
  cases server
  exact ⟨valid, rfl, c, _, _, reached, opened.client, opened.server, desktop, left,
    reads .rgb444 rfl (by decide)⟩

/-! ## What else may be left -/

/-- When both ends have succeeded just the initiator's wish is left, and the acceptor's session
reads it as it is. -/
def LeavesWish [BlockCipher] (nonce : Bytes) (o o' : SessionOptions) : Prop :=
  ∀ c s s', Conversation.Reaches nonce (start o.connect (o'.accept o'.desktop)) c →
    c.client = .done (.ok s) → c.server = .done (.ok s') →
      c.toServer = o.wishes.flatMap ClientMessage.encode ∧
        ∀ format, o.forcedFormat = some format →
          (Session.start o' s' []).next.Takes c.toServer (.client (.setPixelFormat format))

/-- A flag byte may be neither 0 nor 1 and is told as it is, but the acceptor reads it as 1. -/
theorem wish_read_as_written [BlockCipher] :
    ¬ LeavesWish (Bytes.zeros 16) (forcing { PixelFormat.rgb888 with trueColor := 2 })
      (reading standardClientMessages) := by
  intro exactly
  obtain ⟨c, reached, opened⟩ :=
    exists_opened_forcing { PixelFormat.rgb888 with trueColor := 2 } standardClientMessages
  obtain ⟨left, reads⟩ := exactly c _ _ reached opened.client opened.server
  have claimed := reads _ rfl
  rw [left, encode_wishes rfl, Session.next_of_idle (.inl rfl)] at claimed
  have valid : PixelFormat.validate { PixelFormat.rgb888 with trueColor := 2 } = .ok () := rfl
  have role : ((reading standardClientMessages).admitted .none standard.desktop).role = .server :=
    rfl
  have known : 0 ∈ standardClientMessages := by decide
  have reads := Session.takes_readOne_client role known (ClientMessage.takes_wish valid)
  have same := congrArg Prod.fst ((claimed []).symm.trans (reads []))
  exact absurd (ClientMessage.setPixelFormat.inj (Message.client.inj (Except.ok.inj same)))
    (by decide)

theorem wish_refused [BlockCipher] :
    ¬ LeavesWish (Bytes.zeros 16) (forcing .rgb444) (reading []) := by
  intro exactly
  obtain ⟨c, reached, opened⟩ := exists_opened_forcing .rgb444 []
  obtain ⟨left, reads⟩ := exactly c _ _ reached opened.client opened.server
  have claimed := reads _ rfl
  rw [left, encode_wishes rfl, Session.next_of_idle (.inl rfl)] at claimed
  cases claimed []

/-- What an end does that goes by one handler. -/
def proving (handler : SecurityHandler) : SessionOptions := { standard with security := [handler] }

/-- The length of a user name of 2 ^ 32 bytes is stated as 0, and the name is taken for what comes
behind the credentials. -/
theorem name_unheard [BlockCipher] {username : Bytes} (length : username.length = 0x100000000) :
    ¬ LeavesWish (Bytes.zeros 16) (proving (.vencryptPlain username []))
      (proving (.vencryptPlain [] [])) := by
  intro exactly
  have listed : Version.v38.usesSecurityList = true := rfl
  have secures : Flow (Bytes.zeros 16)
      (start (Handshake.clientSecurity .v38 [.vencryptPlain username []])
        (Handshake.serverSecurity .v38 [.vencryptPlain [] []]))
      ⟨.done (.ok (.vencryptPlain username [])), .done (.ok (.vencryptPlain [] [])), username,
        []⟩ := by
    rw [Handshake.clientSecurity_eq, Handshake.serverSecurity_eq, if_pos listed, if_pos listed]
    have settled := @Handshake.flow_chosen (Bytes.zeros 16) .v38 [.vencryptPlain username []]
      [.vencryptPlain [] []] _ _ _ (List.cons_ne_nil _ _) (by decide) rfl rfl
    exact settled.trans (Handshake.flow_unheard length)
  have tellable : standard.desktop.Tellable := ⟨by decide +kernel, rfl, by decide, by decide⟩
  have opens := (flow_version (proving (.vencryptPlain username []))
    (proving (.vencryptPlain [] [])) standard.desktop).trans
      ((secures.bind _ _).trans (flow_desktop rfl tellable username))
  obtain ⟨left, -⟩ := exactly _ _ _ opens.reaches rfl rfl
  have none : ((username ++ Bytes.ofBool true).tail ++ []).length = 0 := congrArg List.length left
  rw [List.append_nil, List.length_tail, List.length_append, length] at none
  cases none

/-- **More may be left to read, or less read of it.**  Valid options force a flag byte that is
neither 0 nor 1, or accept no messages, or hold a user name whose length does not fit its word. -/
theorem opening_leaves_more :
    ((forcing { PixelFormat.rgb888 with trueColor := 2 }).validate = .ok () ∧
      (reading standardClientMessages).validate = .ok () ∧
      ¬ LeavesWish (Bytes.zeros 16) (forcing { PixelFormat.rgb888 with trueColor := 2 })
        (reading standardClientMessages)) ∧
    ((forcing .rgb444).validate = .ok () ∧ (reading []).validate = .ok () ∧
      ¬ LeavesWish (Bytes.zeros 16) (forcing .rgb444) (reading [])) ∧
    ((proving (.vencryptPlain (List.replicate 0x100000000 0) [])).validate = .ok () ∧
      (proving (.vencryptPlain [] [])).validate = .ok () ∧
      ¬ LeavesWish (Bytes.zeros 16) (proving (.vencryptPlain (List.replicate 0x100000000 0) []))
        (proving (.vencryptPlain [] []))) := by
  refine ⟨⟨rfl, rfl, wish_read_as_written⟩, ⟨rfl, rfl, wish_refused⟩, rfl, rfl, ?_⟩
  exact name_unheard List.length_replicate

end SessionOptions

end RemoteFramebuffer
