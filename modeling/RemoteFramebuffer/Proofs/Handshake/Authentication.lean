/-
# `RemoteFramebuffer.Proofs.Handshake.Authentication` — a pair of handlers of one type

Behind the choice of a type the two ends authenticate and share the result.  What each of them
takes of what the other one says is stated as `Takes`, message by message; one run is put together
from these, to where the result is out or one end is done with the other.

A client that has no password to present fails at once.  One that states lengths which the server
will not take, or which do not fit their words, is cut off: the server is done before it has
said all, and the client succeeds only if it still reads that it was accepted.  What is left on the
way then is part of the credentials at most, and only where a length did not fit its word.
-/
import RemoteFramebuffer.Handshake.Security
import RemoteFramebuffer.Proofs.Handshake.Flow
import RemoteFramebuffer.Proofs.Message.Field

namespace RemoteFramebuffer

namespace SecurityHandler

/-- What an initiator with this handler can present in full. -/
def Presentable : SecurityHandler → Prop
  | .none => True
  | .vncAuth password => password ≠ []
  | .vencryptPlain username password =>
    username.length ≤ maxStringLength ∧ password.length ≤ maxStringLength

/-- The credentials have lengths that fit the words in which they are stated. -/
def FitsWords : SecurityHandler → Prop
  | .vencryptPlain username password =>
    username.length < 0x100000000 ∧ password.length < 0x100000000
  | _ => True

theorem Presentable.fitsWords {h : SecurityHandler} (presentable : h.Presentable) :
    h.FitsWords := by
  cases h with
  | none | vncAuth password => trivial
  | vencryptPlain username password =>
      exact ⟨Nat.lt_of_le_of_lt presentable.1 (by decide),
        Nat.lt_of_le_of_lt presentable.2 (by decide)⟩

/-- Whether an acceptor with one handler is content with what an initiator with the other one
presents. -/
def accepts [BlockCipher] (nonce : Bytes) : (acceptor initiator : SecurityHandler) → Bool
  | .none, .none => true
  | .vncAuth known, .vncAuth given =>
    Challenge.response given nonce = Challenge.response known nonce
  | .vencryptPlain username password, .vencryptPlain givenUsername givenPassword =>
    givenUsername = username && givenPassword = password
  | _, _ => false

end SecurityHandler

namespace Handshake

open Exchange (Takes takes_read takes_read_bind takes_u8_bind)
open Reader (takes_u32 takes_bytes takes_vecLimited)
open Conversation (Flow start)

variable {nonce : Bytes} {version : Version}

/-! ## Behind the choice -/

/-- The initiator's step behind the choice of a handler. -/
def prove [BlockCipher] (version : Version) (handler : SecurityHandler) :
    Exchange SecurityHandler := do
  authenticateClient handler
  if version.expectsSecurityResult handler then readSecurityResult version
  return handler

/-- The acceptor's step behind the choice of a handler. -/
def judge [BlockCipher] (version : Version) (handler : SecurityHandler) :
    Exchange SecurityHandler := do
  let accepted ← authenticateServer handler
  if version.expectsSecurityResult handler then
    Exchange.write (encodeSecurityResult version accepted)
  if accepted then return handler
  else Exchange.fail (.authFailed (.ofClient handler))

/-! ## The result -/

/-- How the initiator's step ends once its credentials were judged. -/
def clientEnd (version : Version) (handler : SecurityHandler) (accepted : Bool) :
    Except ProtocolError SecurityHandler :=
  if accepted then .ok handler
  else .error (.authFailed (if version.sendsFailureReason then
    .byServer (Text.decode (Bytes.ofString "authentication failed")) else .byResult 1))

def serverEnd (handler : SecurityHandler) (accepted : Bool) :
    Except ProtocolError SecurityHandler :=
  if accepted then .ok handler else .error (.authFailed (.ofClient handler))

def awaitResult (version : Version) (handler : SecurityHandler) : Exchange SecurityHandler := do
  readSecurityResult version
  return handler

def report (version : Version) (handler : SecurityHandler) (accepted : Bool) :
    Exchange SecurityHandler :=
  .send (encodeSecurityResult version accepted) (.done (serverEnd handler accepted))

theorem expectsSecurityResult_of_ne {handler : SecurityHandler} (h : handler ≠ .none) :
    version.expectsSecurityResult handler = true := by
  simp [Version.expectsSecurityResult, h]

theorem prove_eq [BlockCipher] (handler : SecurityHandler) (ne : handler ≠ .none) :
    prove version handler =
      authenticateClient handler >>= fun _ => awaitResult version handler := by
  simp only [prove, expectsSecurityResult_of_ne ne, if_true]
  rfl

theorem judge_eq [BlockCipher] (handler : SecurityHandler) (ne : handler ≠ .none) :
    judge version handler = authenticateServer handler >>= report version handler := by
  have verdict (accepted : Bool) : (if accepted then pure handler
      else Exchange.fail (.authFailed (.ofClient handler))) =
        (Exchange.done (serverEnd handler accepted) : Exchange SecurityHandler) := by
    cases accepted <;> rfl
  simp only [judge, expectsSecurityResult_of_ne ne, if_true, verdict]
  rfl

theorem takes_result (handler : SecurityHandler) (accepted : Bool) :
    Takes (awaitResult version handler) (encodeSecurityResult version accepted)
      (.done (clientEnd version handler accepted)) := by
  have word (code : UInt32) : Takes (readSecurityResult version) (Bytes.ofUInt32 code)
      (if code = 0 then pure ()
        else if version.sendsFailureReason then
          Exchange.read Name.read >>= fun reason => Exchange.fail (.authFailed (.byServer reason))
        else Exchange.fail (.authFailed (.byResult code))) := (takes_read (takes_u32 code)).bind _
  cases accepted with
  | true => exact (word 0).bind _
  | false =>
      have failed := word 1
      rw [encodeSecurityResult, clientEnd, if_neg Bool.false_ne_true, if_neg Bool.false_ne_true]
      rw [if_neg (by decide)] at failed
      by_cases explains : version.sendsFailureReason = true
      · rw [if_pos explains, if_pos explains]
        rw [if_pos explains] at failed
        have reason := @Name.takes_read "authentication failed" (by decide +kernel)
        exact (failed.trans ((takes_read reason).bind _)).bind _
      · rw [if_neg explains, if_neg explains]
        rw [if_neg explains] at failed
        exact failed.bind _

theorem encodeSecurityResult_ne_nil {accepted : Bool} :
    encodeSecurityResult version accepted ≠ [] := by
  cases accepted <;> cases version <;> decide +kernel

/-! ## How the security step ends -/

section

variable {h h' : SecurityHandler} {accepted : Bool} {unheard : Bytes}
  {c : Conversation SecurityHandler SecurityHandler}

/-- How both ends are done, with nothing left on the way. -/
def settled (version : Version) (h h' : SecurityHandler) (accepted : Bool) :
    Conversation SecurityHandler SecurityHandler :=
  start (.done (clientEnd version h accepted)) (.done (serverEnd h' accepted))

/-- How the security step can end: the initiator fails, or it waits for the result of an acceptor
that has failed, or both succeed, and then all was heard that was stated as it is. -/
inductive Concludes (version : Version) : Conversation SecurityHandler SecurityHandler → Prop
  | fails {c : Conversation SecurityHandler SecurityHandler} (failed : c.client.Failed) :
      Concludes version c
  | waits (h : SecurityHandler) (cause : ProtocolError) (unheard : Bytes) :
      Concludes version ⟨awaitResult version h, .done (.error cause), unheard, []⟩
  | agrees {h h' : SecurityHandler} {unheard : Bytes} (same : h'.code = h.code)
      (heard : h.FitsWords → unheard = []) :
      Concludes version ⟨.done (.ok h), .done (.ok h'), unheard, []⟩

/-- The initiator succeeds only if the acceptor does, with a handler of the same type. -/
def SameType (c : Conversation SecurityHandler SecurityHandler) : Prop :=
  ∀ h, c.client = .done (.ok h) → ∃ h', c.server = .done (.ok h') ∧ h'.code = h.code

theorem SameType.of_failed (failed : c.client.Failed) : SameType c := by
  intro h succeeded
  obtain ⟨cause, failed⟩ := failed
  cases failed.symm.trans succeeded

theorem Concludes.sameType (concludes : Concludes version c) : SameType c := by
  cases concludes with
  | fails failed => exact .of_failed failed
  | waits h cause unheard =>
      intro h succeeded
      cases succeeded
  | @agrees h h' unheard same heard =>
      rintro _ ⟨⟩
      exact ⟨h', rfl, same⟩

/-- Nothing more can happen then but that the initiator finds the acceptor gone. -/
theorem Concludes.atRest (concludes : Concludes version c) : c.AtRest nonce := by
  cases concludes with
  | fails failed => exact .inl failed
  | waits h cause unheard => exact .inr ⟨⟨_, rfl⟩, rfl, rfl⟩
  | agrees same heard => exact .inr ⟨⟨_, rfl⟩, rfl, rfl⟩

theorem concludes_result (same : h'.code = h.code) (heard : h.FitsWords → unheard = []) :
    Concludes version
      ⟨.done (clientEnd version h accepted), .done (serverEnd h' accepted), unheard, []⟩ := by
  cases accepted with
  | true => exact .agrees same heard
  | false => exact .fails ⟨_, rfl⟩

theorem flow_result (h h' : SecurityHandler) (accepted : Bool) (unheard : Bytes) :
    Flow nonce ⟨awaitResult version h, report version h' accepted, unheard, []⟩
      ⟨.done (clientEnd version h accepted), .done (serverEnd h' accepted), unheard, []⟩ :=
  .answers encodeSecurityResult_ne_nil (takes_result h accepted)

/-! ## Authentication -/

theorem flow_none [BlockCipher] :
    Flow nonce (start (prove version .none) (judge version .none))
      (settled version .none .none true) := by
  cases version with
  | v33 | v37 => exact .refl _
  | v38 => exact flow_result .none .none true []

theorem length_response [BlockCipher] (password challenge : Bytes) :
    (Challenge.response password challenge).length = Challenge.size := by
  simp [Challenge.response, BlockCipher.length_encrypt, Challenge.size]

theorem takes_answerChallenge [BlockCipher] {challenge password : Bytes}
    (length : challenge.length = Challenge.size) (present : password ≠ []) :
    Takes (authenticateClient (.vncAuth password)) challenge
      (.send (Challenge.response password challenge) (pure ())) := by
  rw [authenticateClient, answerChallenge, if_neg (by simpa using present)]
  exact (takes_read (takes_bytes length)).bind _

theorem takes_response [BlockCipher] (known challenge : Bytes) {response : Bytes}
    (length : response.length = Challenge.size) :
    Takes (Exchange.read (Reader.bytes Challenge.size) >>= fun response =>
        pure (decide (response = Challenge.response known challenge)))
      response (pure (decide (response = Challenge.response known challenge))) :=
  (takes_read (takes_bytes length)).bind _

theorem flow_vncAuth [BlockCipher] (length : nonce.length = Challenge.size) {password : Bytes}
    (present : password ≠ []) (known : Bytes) :
    Flow nonce (start (prove version (.vncAuth password)) (judge version (.vncAuth known)))
      (settled version (.vncAuth password) (.vncAuth known)
        ((SecurityHandler.vncAuth known).accepts nonce (.vncAuth password))) := by
  have presents := takes_answerChallenge length present
  have checks := takes_response known nonce (length_response password nonce)
  rw [prove_eq (.vncAuth password) nofun, judge_eq (.vncAuth known) nofun]
  refine .trans .draws ?_
  have answered := List.ne_nil_of_length_eq_add_one (length_response password nonce)
  refine .trans (.answers (List.ne_nil_of_length_eq_add_one length) (presents.bind _)) ?_
  refine .trans (.passes answered (checks.bind _)) ?_
  exact flow_result _ _ _ []

/-- What the acceptor asks for once the version is agreed on: the one sub-type. -/
def plainOffer : Bytes := [0, 1] ++ Bytes.ofUInt32 SecurityHandler.plainSubType

theorem takes_presentCredentials (username password : Bytes) :
    Takes (presentCredentials username password) vencryptVersion
      (.send vencryptVersion (presentPlain username password)) := by
  refine takes_u8_bind (takes_u8_bind ?_)
  rw [if_neg (by decide)]
  exact .nil _

theorem takes_presentPlain (username password : Bytes) :
    Takes (presentPlain username password) plainOffer
      (.send (plainCredentials username password) (pure ())) := by
  have one : (Reader.values Reader.u32 (1 : UInt8).toNat).Takes
      (Bytes.ofUInt32 SecurityHandler.plainSubType) [SecurityHandler.plainSubType] :=
    (takes_u32 _).bind_nil (Reader.takes_pure _)
  refine takes_u8_bind ?_
  rw [if_neg (by decide)]
  exact takes_u8_bind ((takes_read one).bind _)

theorem takes_checkCredentials (username password : Bytes) :
    ∃ next, checkCredentials username password = .send vencryptVersion next ∧
      Takes next vencryptVersion (.send plainOffer (checkPlain username password)) := by
  refine ⟨_, rfl, takes_u8_bind (takes_u8_bind ?_)⟩
  rw [if_neg (by decide)]
  exact .nil _

def plainHead (first second : UInt32) : Bytes :=
  Bytes.ofUInt32 SecurityHandler.plainSubType ++
    (Bytes.ofUInt32 first ++ (Bytes.ofUInt32 second ++ []))

theorem plainHead_ne_nil (first second : UInt32) : plainHead first second ≠ [] := by
  have word : (Bytes.ofUInt32 SecurityHandler.plainSubType).length = 4 := Bytes.length_ofNat 4 _
  exact fun none =>
    List.ne_nil_of_length_eq_add_one word (List.append_eq_nil_iff.mp none).1

theorem plainCredentials_eq (username password : Bytes) :
    ∃ first second : UInt32,
      plainCredentials username password = plainHead first second ++ (username ++ password) ∧
      first.toNat ≤ username.length ∧ second.toNat ≤ password.length ∧
      ((SecurityHandler.vencryptPlain username password).FitsWords →
        first.toNat = username.length ∧ second.toNat = password.length) := by
  obtain ⟨first, eq, le, same⟩ := Bytes.exists_word username.length
  obtain ⟨second, eq', le', same'⟩ := Bytes.exists_word password.length
  refine ⟨first, second, ?_, le, le', fun fits => ⟨same fits.1, same' fits.2⟩⟩
  rw [plainCredentials, plainHead, eq, eq']
  simp only [List.append_assoc, List.nil_append]

theorem plainCredentials_ne_nil (username password : Bytes) :
    plainCredentials username password ≠ [] := by
  obtain ⟨first, second, split, -⟩ := plainCredentials_eq username password
  rw [split]
  exact fun none => plainHead_ne_nil first second (List.append_eq_nil_iff.mp none).1

def compareGiven (username password : Bytes) (first second : UInt32) : Exchange Bool := do
  let givenUsername ← Exchange.read (Reader.vecLimited first.toNat maxStringLength)
  let givenPassword ← Exchange.read (Reader.vecLimited second.toNat maxStringLength)
  return givenUsername = username && givenPassword = password

theorem takes_lengths (username password : Bytes) (first second : UInt32) :
    Takes (checkPlain username password) (plainHead first second)
      (compareGiven username password first second) := by
  refine takes_read_bind (takes_u32 _) ?_
  rw [if_neg (by decide)]
  exact takes_read_bind (takes_u32 _) (takes_read_bind (takes_u32 _) (.nil _))

theorem takes_checkPlain (username password : Bytes) {givenUsername givenPassword : Bytes}
    (h : (SecurityHandler.vencryptPlain givenUsername givenPassword).Presentable) :
    Takes (checkPlain username password) (plainCredentials givenUsername givenPassword)
      (pure (givenUsername = username && givenPassword = password)) := by
  obtain ⟨first, second, split, -, -, same⟩ := plainCredentials_eq givenUsername givenPassword
  obtain ⟨same, same'⟩ := same h.fitsWords
  have all := (takes_lengths username password first second).trans
    (takes_read_bind (takes_vecLimited same.symm (same ▸ h.1))
      (takes_read_bind (takes_vecLimited same'.symm (same' ▸ h.2)) (.nil _)))
  rwa [List.append_nil, ← split] at all

/-- A beginning of these bytes is enough to be done. -/
def Finishes (e : Exchange Bool) (given : Bytes) : Prop :=
  ∃ used rest result, given = used ++ rest ∧ Takes e used (.done result)

theorem finishes_done (result : Except ProtocolError Bool) (given : Bytes) :
    Finishes (.done result) given := ⟨[], given, result, rfl, .nil _⟩

/-- A run of limited length is refused, or taken from bytes that are enough. -/
theorem finishes_limited {count : Nat} {given : Bytes} (enough : count ≤ given.length)
    {f : Bytes → Exchange Bool} (h : Finishes (f (given.take count)) (given.drop count)) :
    Finishes (Exchange.read (Reader.vecLimited count maxStringLength) >>= f) given := by
  by_cases few : count ≤ maxStringLength
  · obtain ⟨used, rest, result, split, taken⟩ := h
    refine ⟨given.take count ++ used, rest, result, ?_, ?_⟩
    · rw [List.append_assoc, ← split, List.take_append_drop]
    · exact takes_read_bind (takes_vecLimited (List.length_take_of_le enough) few) taken
  · rw [Reader.vecLimited, if_pos (Nat.lt_of_not_le few)]
    exact finishes_done _ given

/-- Of credentials of any lengths the acceptor takes part and is done with them. -/
theorem checkPlain_done (username password givenUsername givenPassword : Bytes) :
    ∃ used rest result, plainCredentials givenUsername givenPassword = used ++ rest ∧ used ≠ [] ∧
      Takes (checkPlain username password) used (.done result) := by
  obtain ⟨first, second, split, le, le', -⟩ := plainCredentials_eq givenUsername givenPassword
  have enough : first.toNat ≤ (givenUsername ++ givenPassword).length := by
    rw [List.length_append]
    omega
  have enough' : second.toNat ≤ ((givenUsername ++ givenPassword).drop first.toNat).length := by
    rw [List.length_drop, List.length_append]
    omega
  have parts : Finishes (compareGiven username password first second)
      (givenUsername ++ givenPassword) :=
    finishes_limited enough (finishes_limited enough' (finishes_done _ _))
  obtain ⟨used, rest, result, given, taken⟩ := parts
  refine ⟨_, rest, result, ?_, ?_, (takes_lengths username password first second).trans taken⟩
  · rw [split, given, List.append_assoc]
  · exact fun none => plainHead_ne_nil first second (List.append_eq_nil_iff.mp none).1

/-- Credentials that are stated as they are and are too long to be presented are refused. -/
theorem checkPlain_refuses (known secret : Bytes) {username password : Bytes}
    (fits : (SecurityHandler.vencryptPlain username password).FitsWords)
    (absent : ¬ (SecurityHandler.vencryptPlain username password).Presentable) :
    ∃ used rest cause, plainCredentials username password = used ++ rest ∧ used ≠ [] ∧
      Takes (checkPlain known secret) used (.done (.error cause)) := by
  obtain ⟨first, second, split, -, -, same⟩ := plainCredentials_eq username password
  obtain ⟨same, same'⟩ := same fits
  have lengths := takes_lengths known secret first second
  rw [compareGiven] at lengths
  have begun (more : Bytes) : plainHead first second ++ more ≠ [] := fun none =>
    plainHead_ne_nil first second (List.append_eq_nil_iff.mp none).1
  by_cases few : username.length ≤ maxStringLength
  · have many : maxStringLength < second.toNat :=
      Nat.lt_of_not_le fun few' => absent ⟨few, same' ▸ few'⟩
    rw [Reader.vecLimited.eq_def second.toNat, if_pos many] at lengths
    have given := takes_read (takes_vecLimited same.symm (same ▸ few))
    refine ⟨_, password, _, ?_, begun username, lengths.trans (given.bind _)⟩
    rw [split, List.append_assoc]
  · rw [Reader.vecLimited.eq_def first.toNat, if_pos (same ▸ Nat.lt_of_not_le few)] at lengths
    exact ⟨_, _, _, split, plainHead_ne_nil first second, lengths⟩

theorem flow_plain [BlockCipher] (username password known secret : Bytes) :
    Flow nonce
      (start (prove version (.vencryptPlain username password))
        (judge version (.vencryptPlain known secret)))
      (start
        (.send (plainCredentials username password)
          (awaitResult version (.vencryptPlain username password)))
        (checkPlain known secret >>= report version (.vencryptPlain known secret))) := by
  obtain ⟨next, begins, agrees⟩ := takes_checkCredentials known secret
  rw [prove_eq (.vencryptPlain username password) nofun,
    judge_eq (.vencryptPlain known secret) nofun, authenticateClient, authenticateServer, begins]
  have presents := takes_presentCredentials username password
  refine .trans (.answers (List.cons_ne_nil _ _) (presents.bind _)) ?_
  refine .trans (.passes (List.cons_ne_nil _ _) (agrees.bind _)) ?_
  exact .answers (List.cons_ne_nil _ _) ((takes_presentPlain username password).bind _)

theorem flow_cutOff {x : Exchange SecurityHandler} {check : Exchange Bool} {used rest : Bytes}
    {result : Except ProtocolError Bool} (nonempty : used ≠ [])
    (taken : Takes check used (.done result)) :
    Flow nonce (start (.send (used ++ rest) x) (check >>= report version h'))
      ⟨x, .done result >>= report version h', rest, []⟩ :=
  .trans (.sends fun none => nonempty (List.append_eq_nil_iff.mp none).1)
    (.hears (taken.bind _))

/-- The length of a user name that does not fit its word is cut: here it is stated to be empty, and
all of the name is left. -/
theorem flow_unheard [BlockCipher] {username : Bytes} (length : username.length = 0x100000000) :
    Flow nonce
      (start (prove version (.vencryptPlain username [])) (judge version (.vencryptPlain [] [])))
      ⟨.done (.ok (.vencryptPlain username [])), .done (.ok (.vencryptPlain [] [])), username,
        []⟩ := by
  have begun := @flow_plain nonce version _ username [] [] []
  have cut : Bytes.ofNat 4 username.length = Bytes.ofNat 4 0 := by
    rw [length]
    decide
  have split : plainCredentials username [] = plainCredentials [] [] ++ username := by
    simp only [plainCredentials, cut, List.length_nil, List.append_nil]
  have checks := @takes_checkPlain [] [] [] [] ⟨Nat.zero_le _, Nat.zero_le _⟩
  rw [split] at begun
  have cutOff := begun.trans (flow_cutOff (plainCredentials_ne_nil [] []) checks)
  exact cutOff.trans (flow_result _ _ true username)

theorem flow_credentials [BlockCipher] (username password known secret : Bytes) :
    ∃ c, Flow nonce
        (start (prove version (.vencryptPlain username password))
          (judge version (.vencryptPlain known secret))) c ∧ Concludes version c ∧
      ((SecurityHandler.vencryptPlain username password).Presentable →
        c = settled version (.vencryptPlain username password) (.vencryptPlain known secret)
          ((SecurityHandler.vencryptPlain known secret).accepts nonce
            (.vencryptPlain username password))) := by
  have begun := @flow_plain nonce version _ username password known secret
  by_cases presentable : (SecurityHandler.vencryptPlain username password).Presentable
  · have checks := takes_checkPlain known secret presentable
    have heard := begun.trans (.passes (plainCredentials_ne_nil _ _) (checks.bind _))
    exact ⟨_, heard.trans (flow_result _ _ _ []), concludes_result rfl fun _ => rfl, fun _ => rfl⟩
  by_cases fits : (SecurityHandler.vencryptPlain username password).FitsWords
  · obtain ⟨used, rest, cause, split, nonempty, taken⟩ :=
      checkPlain_refuses known secret fits presentable
    rw [split] at begun
    have cutOff := begun.trans (flow_cutOff nonempty taken)
    exact ⟨_, cutOff, .waits _ cause rest, fun h => absurd h presentable⟩
  · obtain ⟨used, rest, result, split, nonempty, taken⟩ :=
      checkPlain_done known secret username password
    rw [split] at begun
    have cutOff := begun.trans (flow_cutOff nonempty taken)
    cases result with
    | error cause => exact ⟨_, cutOff, .waits _ cause rest, fun h => absurd h presentable⟩
    | ok accepted =>
        exact ⟨_, cutOff.trans (flow_result _ _ accepted rest),
          concludes_result rfl fun h => absurd h fits, fun h => absurd h presentable⟩

/-! ## A pair of handlers -/

theorem flow_pair [BlockCipher] (length : nonce.length = Challenge.size) (same : h'.code = h.code) :
    ∃ c, Flow nonce (start (prove version h) (judge version h')) c ∧ Concludes version c ∧
      (h.Presentable → c = settled version h h' (h'.accepts nonce h)) := by
  cases h with
  | none =>
      cases h' <;> cases same
      exact ⟨_, flow_none, .agrees rfl fun _ => rfl, fun _ => rfl⟩
  | vncAuth password =>
      cases h' <;> cases same
      rename_i known
      by_cases present : password = []
      · subst present
        exact ⟨_, .refl _, .fails ⟨_, rfl⟩, fun presentable => absurd rfl presentable⟩
      · exact ⟨_, flow_vncAuth length present known, concludes_result rfl fun _ => rfl,
          fun _ => rfl⟩
  | vencryptPlain username password =>
      cases h' <;> cases same
      exact flow_credentials username password _ _

end

end Handshake

end RemoteFramebuffer
