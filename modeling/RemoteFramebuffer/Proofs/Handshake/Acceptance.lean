/-
# `RemoteFramebuffer.Proofs.Handshake.Acceptance` — nobody gets in without a proof

## What is proved

Of every version, list of handlers, challenge of sixteen bytes and byte stream, let the acceptor's
security step run over the stream (`serverSecurity_admits`):

    succeeds with h and leaves rest     ⟺  h is in the list, and the stream settles on h, goes on
                                            with what convinces h, and then with rest
    has sent the word 0                 ⟺  succeeds with a handler whose result is told
    complete credentials, but wrong      ⟹  fails for them, and says a word other than 0 last

What convinces a handler is nothing at all, the response to the challenge, or the name and the
password (`Convinces`).  So without a handler that asks for nothing there is no success but over a
stream that holds a proof.

## How it is proved

The acceptor's security step is a confrontation — a type is settled on and its mechanism judges
what is presented — and then a conclusion, which follows from the judgement alone:

    confront version servers   a handler, and whether the peer is right
    conclude version h right   the result word, and `h` or a failure

Which streams make the confrontation come to which judgement is an equivalence at each step, so
that nothing an acceptor can be sent is left out.

## What it is not

The response to a challenge is what the block cipher makes of it, whichever cipher that is.  That
nobody finds the response without the password is no part of this.
-/
import RemoteFramebuffer.Proofs.Handshake.Security

namespace RemoteFramebuffer.Handshake

open Exchange (Says)

variable {nonce : Bytes} {version : Version} {servers : List SecurityHandler} {h : SecurityHandler}
  {stream given rest : Bytes} {said : List Bytes} {right : Bool} {d : Dialogue}

/-! ## The mechanisms -/

/-- What a peer has to present to an acceptor that uses the handler. -/
def Convinces [BlockCipher] (nonce : Bytes) : SecurityHandler → Bytes → Prop
  | .none, given => given = []
  | .vncAuth password, given => given = Challenge.response password nonce
  | .vencryptPlain username password, given =>
    given = vencryptVersion ++ plainCredentials username password ∧
      username.length ≤ maxStringLength ∧ password.length ≤ maxStringLength

/-- What is presented is complete, and it is `right` or not. -/
def Presents [BlockCipher] (nonce : Bytes) :
    SecurityHandler → (given : Bytes) → (right : Bool) → Prop
  | .none, given, right => given = [] ∧ right = true
  | .vncAuth password, given, right =>
    given.length = Challenge.size ∧ right = decide (given = Challenge.response password nonce)
  | .vencryptPlain username password, given, right => ∃ givenUsername givenPassword,
    given = vencryptVersion ++ plainCredentials givenUsername givenPassword ∧
      givenUsername.length ≤ maxStringLength ∧ givenPassword.length ≤ maxStringLength ∧
      right = (givenUsername = username && givenPassword = password)

theorem presents_true [BlockCipher] : Presents nonce h given true ↔ Convinces nonce h given := by
  cases h with
  | none => simp [Presents, Convinces]
  | vncAuth password =>
      simp only [Presents, Convinces, eq_comm (a := true), decide_eq_true_eq]
      constructor
      · exact fun shown => shown.2
      · rintro rfl
        exact ⟨length_response _ _, rfl⟩
  | vencryptPlain username password =>
      constructor
      · rintro ⟨givenUsername, givenPassword, rfl, few, few', same⟩
        obtain ⟨rfl, rfl⟩ : givenUsername = username ∧ givenPassword = password := by
          simpa using same.symm
        exact ⟨rfl, few, few'⟩
      · rintro ⟨rfl, few, few'⟩
        exact ⟨username, password, rfl, few, few', by simp⟩

theorem Convinces.ne_nil [BlockCipher] (proof : Convinces nonce h given) (ne : h ≠ .none) :
    given ≠ [] := by
  rintro rfl
  cases h with
  | none => exact ne rfl
  | vncAuth password => cases (congrArg List.length proof).trans (length_response _ _)
  | vencryptPlain username password => cases proof.1

theorem run_checkPlain_ok {username password : Bytes} :
    (checkPlain username password).run nonce ⟨stream, [], said⟩ = (.ok right, d) ↔
      ∃ givenUsername givenPassword rest,
        stream = plainCredentials givenUsername givenPassword ++ rest ∧
        givenUsername.length ≤ maxStringLength ∧ givenPassword.length ≤ maxStringLength ∧
        right = (givenUsername = username && givenPassword = password) ∧ d = ⟨rest, [], said⟩ := by
  constructor
  · intro run
    obtain ⟨subType, behind, rfl, run₁⟩ := Exchange.run_u32_bind_ok.mp run
    split at run₁
    · cases run₁
    · rename_i plain
      obtain rfl := Decidable.not_not.mp plain
      obtain ⟨first, behind, rfl, run₂⟩ := Exchange.run_u32_bind_ok.mp run₁
      obtain ⟨second, behind, rfl, run₃⟩ := Exchange.run_u32_bind_ok.mp run₂
      obtain ⟨givenUsername, behind, read, run₄⟩ := Exchange.run_read_bind_ok.mp run₃
      obtain ⟨few, length, rfl⟩ := Reader.run_vecLimited_ok.mp read
      obtain ⟨givenPassword, rest, read', run₅⟩ := Exchange.run_read_bind_ok.mp run₄
      obtain ⟨few', length', rfl⟩ := Reader.run_vecLimited_ok.mp read'
      cases run₅
      refine ⟨givenUsername, givenPassword, rest, ?_, length ▸ few, length' ▸ few', rfl, rfl⟩
      simp only [plainCredentials, Bytes.ofUInt32, length, length', List.append_assoc]
  · rintro ⟨givenUsername, givenPassword, rest, rfl, few, few', rfl, rfl⟩
    rw [(takes_checkPlain username password ⟨few, few'⟩).run]
    rfl

theorem run_checkCredentials_ok {username password : Bytes} :
    (checkCredentials username password).run nonce ⟨stream, [], said⟩ = (.ok right, d) ↔
      ∃ behind, stream = vencryptVersion ++ behind ∧
        (checkPlain username password).run nonce
          ⟨behind, [], plainOffer :: vencryptVersion :: said⟩ = (.ok right, d) := by
  obtain ⟨next, begins, agrees⟩ := takes_checkCredentials username password
  constructor
  · intro run
    obtain ⟨major, behind, rfl, run₁⟩ := Exchange.run_u8_bind_ok.mp run
    obtain ⟨minor, behind, rfl, run₂⟩ := Exchange.run_u8_bind_ok.mp run₁
    split at run₂
    · cases run₂
    · rename_i version
      have version : [major, minor] = vencryptVersion := Decidable.not_not.mp version
      refine ⟨behind, ?_, run₂⟩
      rw [← version]
      rfl
  · rintro ⟨behind, rfl, run⟩
    rw [begins, Exchange.run, agrees.run]
    exact run

/-- What the acceptor says before it judges, last first. -/
def asked (nonce : Bytes) : SecurityHandler → List Bytes
  | .none => []
  | .vncAuth _ => [nonce]
  | .vencryptPlain _ _ => [plainOffer, vencryptVersion]

/-- An acceptor comes to a judgement just on what is presented in full. -/
theorem run_authenticateServer_ok [BlockCipher] :
    (authenticateServer h).run nonce ⟨stream, [], said⟩ = (.ok right, d) ↔
      ∃ given rest, stream = given ++ rest ∧ Presents nonce h given right ∧
        d = ⟨rest, [], asked nonce h ++ said⟩ := by
  cases h with
  | none =>
      constructor
      · intro run
        cases run
        exact ⟨[], stream, rfl, ⟨rfl, rfl⟩, rfl⟩
      · rintro ⟨given, rest, rfl, ⟨rfl, rfl⟩, rfl⟩
        rfl
  | vncAuth password =>
      show (Exchange.read (Reader.bytes Challenge.size) >>= _).run nonce _ = _ ↔ _
      rw [Exchange.run_read_bind_ok]
      constructor
      · rintro ⟨response, rest, read, run⟩
        obtain ⟨enough, rfl, rfl⟩ := Reader.run_bytes_ok read
        cases run
        exact ⟨_, _, (List.take_append_drop _ _).symm, ⟨List.length_take_of_le enough, rfl⟩, rfl⟩
      · rintro ⟨response, rest, rfl, ⟨length, rfl⟩, rfl⟩
        exact ⟨response, rest, Reader.takes_bytes length rest, rfl⟩
  | vencryptPlain username password =>
      rw [authenticateServer, run_checkCredentials_ok]
      constructor
      · rintro ⟨behind, rfl, run⟩
        obtain ⟨givenUsername, givenPassword, rest, rfl, few, few', same, rfl⟩ :=
          run_checkPlain_ok.mp run
        exact ⟨_, rest, (List.append_assoc _ _ _).symm,
          ⟨givenUsername, givenPassword, rfl, few, few', same⟩, rfl⟩
      · rintro ⟨_, rest, rfl, ⟨givenUsername, givenPassword, rfl, few, few', same⟩, rfl⟩
        exact ⟨_, List.append_assoc _ _ _, run_checkPlain_ok.mpr
          ⟨givenUsername, givenPassword, rest, rfl, few, few', same, rfl⟩⟩

/-! ## The choice of a handler -/

def select (version : Version) : List SecurityHandler → Exchange SecurityHandler
  | [] => .fail (.security .noHandlers)
  | first :: others =>
    if version.usesSecurityList then offerList (first :: others) else dictate (highest first others)

/-- The stream settles on the handler, with something left behind. -/
def Selects (version : Version) (servers : List SecurityHandler) (stream : Bytes)
    (h : SecurityHandler) (behind : Bytes) : Prop :=
  if version.usesSecurityList then
    stream = h.code :: behind ∧ First (·.code = h.code) servers h
  else behind = stream ∧ LastHighest servers h

/-- What the acceptor says before there is a handler. -/
def announced (version : Version) (servers : List SecurityHandler) (h : SecurityHandler) : Bytes :=
  if version.usesSecurityList then offer servers else Bytes.ofNat 4 h.code.toNat

theorem First.of_find? {α : Type} {p : α → Prop} [DecidablePred p] {l : List α} {a : α}
    (found : l.find? p = some a) : First p l a := by
  obtain ⟨holds, before, after, split, others⟩ := List.find?_eq_some_iff_append.mp found
  refine ⟨before, after, split, of_decide_eq_true holds, fun b mem => ?_⟩
  simpa using others b mem

theorem First.mem {α : Type} {p : α → Prop} {l : List α} {a : α} (h : First p l a) : a ∈ l := by
  obtain ⟨before, after, rfl, -⟩ := h
  simp

theorem LastHighest.mem (last : LastHighest servers h) : h ∈ servers := by
  obtain ⟨before, after, rfl, -⟩ := last
  simp

theorem LastHighest.le (last : LastHighest servers h) {b : SecurityHandler} (mem : b ∈ servers) :
    b.code ≤ h.code := by
  obtain ⟨before, after, rfl, below, lower⟩ := last
  rcases List.mem_append.mp mem with front | back
  · exact below b front
  · rcases List.mem_cons.mp back with rfl | back
    · exact UInt8.le_refl _
    · exact UInt8.le_of_lt (lower b back)

theorem lastHighest_highest (first : SecurityHandler) (others : List SecurityHandler) :
    LastHighest (first :: others) (highest first others) := by
  induction others generalizing first with
  | nil => exact ⟨[], [], rfl, nofun, nofun⟩
  | cons other others ih =>
      rw [highest]
      split
      · rename_i le
        have reached := UInt8.le_trans le ((ih other).le List.mem_cons_self)
        obtain ⟨before, after, split, below, lower⟩ := ih other
        refine ⟨first :: before, after, congrArg _ split, ?_, lower⟩
        rintro b (_ | ⟨_, mem⟩)
        · exact reached
        · exact below b mem
      · rename_i not
        have lt : other.code < first.code := UInt8.not_le.mp not
        have reached := (ih first).le List.mem_cons_self
        obtain ⟨before, after, split, below, lower⟩ := ih first
        -- `other` goes behind `first`, which is the highest itself or stands before it
        cases before with
        | nil =>
            obtain ⟨same, rfl⟩ := List.cons.inj split
            refine ⟨[], other :: others, by rw [← same]; rfl, nofun, ?_⟩
            rintro b (_ | ⟨_, mem⟩)
            · exact UInt8.lt_of_lt_of_le lt reached
            · exact lower b mem
        | cons b before =>
            obtain ⟨rfl, others⟩ := List.cons.inj split
            refine ⟨first :: other :: before, after, ?_, ?_, lower⟩
            · exact congrArg (first :: other :: ·) others
            · rintro b (_ | ⟨_, _ | ⟨_, mem⟩⟩)
              · exact reached
              · exact UInt8.le_of_lt (UInt8.lt_of_lt_of_le lt reached)
              · exact below b (List.mem_cons_of_mem _ mem)

theorem Selects.mem {behind : Bytes} (selects : Selects version servers stream h behind) :
    h ∈ servers := by
  unfold Selects at selects
  split at selects
  · exact selects.2.mem
  · exact selects.2.mem

/-- An acceptor chooses just the handler that its stream settles on. -/
theorem run_select_ok :
    (select version servers).run nonce ⟨stream, [], []⟩ = (.ok h, d) ↔
      ∃ behind, Selects version servers stream h behind ∧
        d = ⟨behind, [], [announced version servers h]⟩ := by
  cases servers with
  | nil =>
      refine ⟨nofun, ?_⟩
      rintro ⟨behind, selects, -⟩
      exact absurd selects.mem List.not_mem_nil
  | cons first others =>
      by_cases listed : version.usesSecurityList = true
      · simp only [select, Selects, announced, if_pos listed]
        show (Exchange.read Reader.u8 >>= _).run nonce _ = _ ↔ _
        rw [Exchange.run_u8_bind_ok]
        constructor
        · rintro ⟨code, behind, rfl, run⟩
          split at run
          · cases run
          · rename_i found
            cases run
            have same : h.code = code := by simpa using List.find?_some found
            subst same
            exact ⟨behind, ⟨rfl, .of_find? found⟩, rfl⟩
        · rintro ⟨behind, ⟨rfl, entry⟩, rfl⟩
          refine ⟨h.code, behind, rfl, ?_⟩
          rw [entry.find?]
          rfl
      · simp only [select, Selects, announced, if_neg listed]
        constructor
        · intro run
          cases run
          exact ⟨stream, ⟨rfl, lastHighest_highest first others⟩, rfl⟩
        · rintro ⟨behind, ⟨rfl, last⟩, rfl⟩
          rw [last.highest_eq]
          rfl

/-! ## The judgement -/

/-- A handler is settled on and the peer is judged. -/
def confront [BlockCipher] (version : Version) (servers : List SecurityHandler) :
    Exchange (SecurityHandler × Bool) := do
  let h ← select version servers
  let right ← authenticateServer h
  return (h, right)

def verdict (version : Version) (h : SecurityHandler) (right : Bool) : List Bytes :=
  if version.expectsSecurityResult h then [encodeSecurityResult version right] else []

/-- The judgement is reported, and what it says is done. -/
def conclude (version : Version) (h : SecurityHandler) (right : Bool) : Exchange SecurityHandler :=
  if version.expectsSecurityResult h then report version h right else .done (serverEnd h right)

theorem run_conclude :
    (conclude version h right).run nonce d =
      (serverEnd h right, { d with sent := verdict version h right ++ d.sent }) := by
  unfold conclude verdict
  split
  · rfl
  · rfl

theorem judge_conclude [BlockCipher] (version : Version) (h : SecurityHandler) :
    judge version h = authenticateServer h >>= conclude version h := by
  by_cases none : h = .none
  · subst none
    cases version <;> rfl
  · rw [judge_eq h none]
    refine congrArg _ (funext fun right => ?_)
    rw [conclude, if_pos (expectsSecurityResult_of_ne none)]

theorem serverSecurity_confront [BlockCipher] (version : Version) (servers : List SecurityHandler) :
    serverSecurity version servers =
      confront version servers >>= fun (h, right) => conclude version h right := by
  have behind (h : SecurityHandler) : judge version h =
      (authenticateServer h >>= fun right => pure (h, right)) >>= fun (h, right) =>
        conclude version h right := by
    rw [judge_conclude, Exchange.bind_assoc]
    rfl
  rw [confront, Exchange.bind_assoc, ← funext behind]
  cases servers with
  | nil => rfl
  | cons first others => exact serverSecurity_eq version first others

theorem run_confront_ok [BlockCipher] :
    (confront version servers).run nonce ⟨stream, [], []⟩ = (.ok (h, right), d) ↔
      ∃ given rest, Selects version servers stream h (given ++ rest) ∧
        Presents nonce h given right ∧
        d = ⟨rest, [], asked nonce h ++ [announced version servers h]⟩ := by
  rw [confront, Exchange.run_bind_ok]
  constructor
  · rintro ⟨h', _, choice, run⟩
    obtain ⟨right', _, judged, done⟩ := Exchange.run_bind_ok.mp run
    cases done
    obtain ⟨behind, selects, rfl⟩ := run_select_ok.mp choice
    obtain ⟨given, rest, rfl, presents, rfl⟩ := run_authenticateServer_ok.mp judged
    exact ⟨given, rest, selects, presents, rfl⟩
  · rintro ⟨given, rest, selects, presents, rfl⟩
    refine ⟨h, _, run_select_ok.mpr ⟨_, selects, rfl⟩, Exchange.run_bind_ok.mpr ?_⟩
    exact ⟨right, _, run_authenticateServer_ok.mpr ⟨given, rest, rfl, presents, rfl⟩, rfl⟩

theorem run_of_presents [BlockCipher] (selects : Selects version servers stream h (given ++ rest))
    (presents : Presents nonce h given right) :
    (serverSecurity version servers).run nonce ⟨stream, [], []⟩ =
      (serverEnd h right, ⟨rest, [], verdict version h right ++ asked nonce h ++
        [announced version servers h]⟩) := by
  have judged := run_confront_ok.mpr ⟨given, rest, selects, presents, rfl⟩
  rw [serverSecurity_confront, Exchange.run_bind, judged, List.append_assoc]
  exact run_conclude

/-! ## The result word

Nothing that is said before the judgement can be taken for the result word of a success. -/

theorem ne_zero_of_length {bytes : Bytes} (length : bytes.length ≠ 4) :
    bytes ≠ Bytes.ofUInt32 0 := by
  rintro rfl
  exact length (Bytes.length_ofNat 4 _)

theorem offer_ne_zero : offer servers ≠ Bytes.ofUInt32 0 := by
  intro zero
  have three : servers.length = 3 := by
    have length := congrArg List.length zero
    rw [offer, List.length_append, List.length_map, Bytes.length_ofNat] at length
    have word : (Bytes.ofUInt32 0).length = 4 := Bytes.length_ofNat 4 _
    omega
  have count : Bytes.ofNat 1 3 = [3] := by decide
  have word : Bytes.ofUInt32 0 = [0, 0, 0, 0] := by decide
  rw [offer, three, count, word] at zero
  cases zero

theorem dictated_ne_zero : Bytes.ofNat 4 h.code.toNat ≠ Bytes.ofUInt32 0 := by
  cases h <;> simp only [SecurityHandler.code] <;> decide

theorem says_select : Says nonce (· ≠ Bytes.ofUInt32 0) (select version servers) := by
  cases servers with
  | nil => trivial
  | cons first others =>
      rw [select]
      split
      · refine ⟨offer_ne_zero, (Says.read _).bind fun code => ?_⟩
        split
        · trivial
        · trivial
      · exact ⟨dictated_ne_zero, trivial⟩

theorem says_checkPlain {username password : Bytes} {P : Bytes → Prop} :
    Says nonce P (checkPlain username password) := by
  refine (Says.read _).bind fun subType => ?_
  split
  · trivial
  · exact (Says.read _).bind fun _ => (Says.read _).bind fun _ => (Says.read _).bind fun _ =>
      (Says.read _).bind fun _ => trivial

theorem says_authenticateServer [BlockCipher] (length : nonce.length = Challenge.size) :
    Says nonce (· ≠ Bytes.ofUInt32 0) (authenticateServer h) := by
  cases h with
  | none => trivial
  | vncAuth password =>
      have challenge : nonce.length ≠ 4 := by
        rw [length]
        decide
      exact ⟨ne_zero_of_length challenge, (Says.read _).bind fun _ => trivial⟩
  | vencryptPlain username password =>
      refine ⟨ne_zero_of_length (by decide), (Says.read _).bind fun major =>
        (Says.read _).bind fun minor => ?_⟩
      split
      · exact ⟨ne_zero_of_length (by decide), trivial⟩
      · exact ⟨ne_zero_of_length (by decide), says_checkPlain⟩

theorem says_confront [BlockCipher] (length : nonce.length = Challenge.size) :
    Says nonce (· ≠ Bytes.ofUInt32 0) (confront version servers) :=
  says_select.bind fun _ => (says_authenticateServer length).bind fun _ => trivial

theorem mem_verdict :
    Bytes.ofUInt32 0 ∈ verdict version h right ↔
      right = true ∧ version.expectsSecurityResult h = true := by
  have zero : Bytes.ofUInt32 0 = encodeSecurityResult version right ↔ right = true := by
    cases right with
    | true => exact ⟨fun _ => rfl, fun _ => rfl⟩
    | false => cases version <;> decide +kernel
  rw [verdict]
  split
  · rename_i expects
    rw [List.mem_singleton, zero]
    exact ⟨fun right => ⟨right, expects⟩, And.left⟩
  · rename_i silent
    exact ⟨nofun, fun both => absurd both.2 silent⟩

theorem verdict_false (ne : h ≠ .none) :
    ∃ word text, word ≠ 0 ∧ verdict version h false = [Bytes.ofUInt32 word ++ text] := by
  rw [verdict, if_pos (expectsSecurityResult_of_ne ne), encodeSecurityResult,
    if_neg Bool.false_ne_true]
  split
  · exact ⟨1, _, by decide, rfl⟩
  · exact ⟨1, [], by decide, by rw [List.append_nil]⟩

/-! ## What an acceptor admits -/

/-- A run that comes to no judgement fails, with no result word; one that does is settled by it. -/
theorem run_serverSecurity_cases [BlockCipher] (length : nonce.length = Challenge.size)
    {result : Except ProtocolError SecurityHandler}
    (run : (serverSecurity version servers).run nonce ⟨stream, [], []⟩ = (result, d)) :
    (∃ error, result = .error error) ∧ Bytes.ofUInt32 0 ∉ d.sent ∨
      ∃ h right given rest, Selects version servers stream h (given ++ rest) ∧
        Presents nonce h given right ∧ result = serverEnd h right ∧ d.input = rest ∧
        (Bytes.ofUInt32 0 ∈ d.sent ↔ Bytes.ofUInt32 0 ∈ verdict version h right) := by
  have silent := (@says_confront nonce version servers _ length).run ⟨stream, [], []⟩ nofun
  rw [serverSecurity_confront, Exchange.run_bind] at run
  rcases judged : (confront version servers).run nonce ⟨stream, [], []⟩ with ⟨error | ⟨h, right⟩, mid⟩
  · rw [judged] at run silent
    cases run
    exact .inl ⟨⟨error, rfl⟩, fun zero => silent _ zero rfl⟩
  · rw [judged] at run silent
    obtain ⟨given, rest, selects, presents, rfl⟩ := run_confront_ok.mp judged
    cases run_conclude.symm.trans run
    refine .inr ⟨h, right, given, rest, selects, presents, rfl, rfl, ?_⟩
    rw [List.mem_append]
    exact ⟨fun zero => zero.resolve_right fun earlier => silent _ earlier rfl, .inl⟩

theorem serverEnd_eq_ok {h' : SecurityHandler} :
    serverEnd h' right = .ok h ↔ right = true ∧ h' = h := by
  cases right with
  | true => exact ⟨fun eq => ⟨rfl, by cases eq; rfl⟩, by rintro ⟨-, rfl⟩; rfl⟩
  | false => exact ⟨nofun, nofun⟩

theorem run_serverSecurity_ok [BlockCipher] (length : nonce.length = Challenge.size)
    {result : Except ProtocolError SecurityHandler}
    (run : (serverSecurity version servers).run nonce ⟨stream, [], []⟩ = (result, d)) :
    result = .ok h ∧ d.input = rest ↔
      h ∈ servers ∧ ∃ given, Selects version servers stream h (given ++ rest) ∧
        Convinces nonce h given := by
  constructor
  · rintro ⟨success, left⟩
    rcases run_serverSecurity_cases length run with ⟨⟨error, failed⟩, -⟩ | judged
    · cases failed.symm.trans success
    · obtain ⟨h', right, given, rest', selects, presents, settled, left', -⟩ := judged
      obtain ⟨rfl, rfl⟩ := serverEnd_eq_ok.mp (settled.symm.trans success)
      obtain rfl := left'.symm.trans left
      exact ⟨selects.mem, given, selects, presents_true.mp presents⟩
  · rintro ⟨-, given, selects, proof⟩
    cases (run_of_presents selects (presents_true.mpr proof)).symm.trans run
    exact ⟨rfl, rfl⟩

theorem Selects.suffix {behind : Bytes} (selects : Selects version servers stream h behind) :
    behind <:+ stream := by
  unfold Selects at selects
  split at selects
  · exact ⟨[h.code], selects.1.symm⟩
  · exact ⟨[], selects.1⟩

/-- **Nobody gets in without a proof.**  Whatever is sent, the acceptor succeeds with a handler of
its list just when the stream settles on it and goes on with what that handler asks for; so without
a handler that asks for nothing there has to be a proof in the stream.  It reports success only if
it succeeds.  Credentials that are complete and wrong are told so and turned down. -/
theorem serverSecurity_admits [BlockCipher] (version : Version) (servers : List SecurityHandler)
    (stream : Bytes) (length : nonce.length = Challenge.size)
    {result : Except ProtocolError SecurityHandler}
    (run : (serverSecurity version servers).run nonce ⟨stream, [], []⟩ = (result, d)) :
    (∀ h rest, result = .ok h ∧ d.input = rest ↔
      h ∈ servers ∧ ∃ given, Selects version servers stream h (given ++ rest) ∧
        Convinces nonce h given) ∧
    (.none ∉ servers → ∀ h, result = .ok h →
      ∃ given, given ≠ [] ∧ given <:+: stream ∧ Convinces nonce h given) ∧
    (Bytes.ofUInt32 0 ∈ d.sent ↔
      ∃ h, result = .ok h ∧ version.expectsSecurityResult h = true) ∧
    ∀ h given rest, Selects version servers stream h (given ++ rest) →
      Presents nonce h given false →
      result = .error (.authFailed (.ofClient h)) ∧ d.input = rest ∧
        ∃ word text, word ≠ 0 ∧ d.sent.head? = some (Bytes.ofUInt32 word ++ text) := by
  refine ⟨fun h rest => run_serverSecurity_ok length run, fun absent h success => ?_, ?_,
    fun h given rest selects wrong => ?_⟩
  · obtain ⟨mem, given, selects, proof⟩ :=
      (run_serverSecurity_ok length run).mp ⟨success, rfl⟩
    have asks : h ≠ .none := by
      rintro rfl
      exact absent mem
    have shown : given <:+: given ++ d.input := (List.prefix_append _ _).isInfix
    exact ⟨given, proof.ne_nil asks, shown.trans selects.suffix.isInfix, proof⟩
  · rcases run_serverSecurity_cases length run with ⟨⟨error, rfl⟩, silent⟩ | judged
    · exact ⟨fun zero => absurd zero silent, nofun⟩
    · obtain ⟨h, right, given, rest, -, -, rfl, -, zero⟩ := judged
      rw [zero, mem_verdict]
      simp only [serverEnd_eq_ok]
      constructor
      · rintro ⟨rfl, expects⟩
        exact ⟨h, ⟨rfl, rfl⟩, expects⟩
      · rintro ⟨_, ⟨rfl, rfl⟩, expects⟩
        exact ⟨rfl, expects⟩
  · cases (run_of_presents selects wrong).symm.trans run
    have asks : h ≠ .none := by
      rintro rfl
      cases wrong.2
    obtain ⟨word, text, failure, said⟩ := @verdict_false version h asks
    refine ⟨rfl, rfl, word, text, failure, ?_⟩
    rw [said]
    rfl

/-- Under 3.8 the type is named, and then the challenge is sent back as it came. -/
theorem serverSecurity_admits_echo :
    (Bytes.zeros 16).length = Challenge.size ∧
      ∃ result d, (serverSecurity .v38 [.none, .vncAuth [1]]).run (Bytes.zeros 16)
          ⟨2 :: Bytes.zeros 16, [], []⟩ = (result, d) ∧
        result = .error (.authFailed (.ofClient (.vncAuth [1]))) ∧
        Bytes.ofUInt32 0 ∉ d.sent := by
  have length : (Bytes.zeros 16).length = Challenge.size := rfl
  have selects : Selects .v38 [.none, .vncAuth [1]] (2 :: Bytes.zeros 16) (.vncAuth [1])
      (Bytes.zeros 16 ++ []) := ⟨rfl, [.none], [], rfl, rfl, by decide⟩
  have wrong : Presents (Bytes.zeros 16) (.vncAuth [1]) (Bytes.zeros 16) false :=
    ⟨rfl, by decide +kernel⟩
  obtain ⟨-, -, word, refuses⟩ := serverSecurity_admits .v38 [.none, .vncAuth [1]]
    (2 :: Bytes.zeros 16) length (Prod.eta _).symm
  have refused := (refuses _ _ _ selects wrong).1
  refine ⟨length, _, _, (Prod.eta _).symm, refused, fun zero => ?_⟩
  obtain ⟨h, success, -⟩ := word.mp zero
  cases refused.symm.trans success

end RemoteFramebuffer.Handshake
