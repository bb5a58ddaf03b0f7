/-
# `RemoteFramebuffer.Proofs.Handshake.Security` — both ends of the security step agree

## What is proved

Of every version, any handlers of the initiator and from one to 255 of the acceptor, let both ends
take their steps in any order (`security_agrees`):

    always                            no run is endless; until both are done, one can go on
    the initiator has succeeded       so has the acceptor, with a handler of the same type
    they settle on h and h'           all is heard, and both succeed or both turn the other down,
                                      as h' is content with h or not

The last line is for handlers that are there (`Chosen`) and credentials that can be presented
(`Presentable`): a name or a password whose length does not fit its word is not heard as it was
said.

## How it is proved

The two ends settle on a pair of handlers of one type, or the client finds none and fails.  The
messages of the choice are passed on like those of authentication, and the run goes on with the
conversation of the pair (`flow_security`).  This one run stands for all of them, since a step of one
end and a step of the other can change places (`Ends.of_flow`).
-/
import RemoteFramebuffer.Proofs.Handshake.Authentication
import RemoteFramebuffer.Security.Des

namespace RemoteFramebuffer.Handshake

open Exchange (Takes takes_read takes_read_bind takes_u8_bind)
open Reader (takes_u32 takes_pieces)
open Conversation (Flow Ends start)

variable {nonce : Bytes} {version : Version} {clients servers : List SecurityHandler}
  {h h' : SecurityHandler}

/-! ## The choice -/

theorem clientSecurity_eq [BlockCipher] (version : Version) (handlers : List SecurityHandler) :
    clientSecurity version handlers =
      (if version.usesSecurityList then chooseListed handlers else acceptDictated handlers) >>=
        prove version := by
  rw [clientSecurity]
  split <;> rfl

theorem serverSecurity_eq [BlockCipher] (version : Version) (first : SecurityHandler)
    (others : List SecurityHandler) :
    serverSecurity version (first :: others) =
      (if version.usesSecurityList then offerList (first :: others)
        else dictate (highest first others)) >>= judge version := by
  rw [serverSecurity]
  split <;> rfl

def offer (servers : List SecurityHandler) : Bytes :=
  Bytes.ofNat 1 servers.length ++ servers.map (·.code)

/-- What the initiator does once it has the list of types. -/
def choose (handlers : List SecurityHandler) (offered : List UInt8) : Exchange SecurityHandler :=
  match handlers.find? (·.code ∈ offered) with
  | none => .fail (.noCommonSecurityType offered)
  | some handler => .send [handler.code] (pure handler)

theorem takes_chooseListed (nonempty : servers ≠ []) (few : servers.length ≤ 255) :
    Takes (chooseListed clients) (offer servers) (choose clients (servers.map (·.code))) := by
  have count : (UInt8.ofNat servers.length).toNat = servers.length :=
    UInt8.toNat_ofNat_of_lt' (show _ < 256 by omega)
  have listed : UInt8.ofNat servers.length ≠ 0 := by
    intro zero
    rw [zero] at count
    exact nonempty (List.length_eq_zero_iff.mp count.symm)
  have codes : (Reader.vec (UInt8.ofNat servers.length).toNat).Takes (servers.map (·.code))
      (servers.map (·.code)) := takes_pieces (by rw [count, List.length_map])
  refine takes_u8_bind ?_
  rw [if_neg listed]
  exact (takes_read codes).bind (choose clients)

/-- What the acceptor does once it is told a type. -/
def find (handlers : List SecurityHandler) (code : UInt8) : Exchange SecurityHandler :=
  match handlers.find? (·.code = code) with
  | none => .fail (.unsupportedSecurityType code)
  | some handler => pure handler

theorem offerList_eq (handlers : List SecurityHandler) :
    ∃ next, offerList handlers = .send (offer handlers) next ∧
      ∀ code, Takes next [code] (find handlers code) :=
  ⟨_, rfl, fun _ => takes_u8_bind (.nil _)⟩

theorem offer_ne_nil : offer servers ≠ [] := nofun

theorem takes_acceptDictated (clients : List SecurityHandler) (h' : SecurityHandler) :
    Takes (acceptDictated clients) (Bytes.ofNat 4 h'.code.toNat) (find clients h'.code) := by
  have word : Bytes.ofNat 4 h'.code.toNat = Bytes.ofUInt32 h'.code.toUInt32 := by
    rw [Bytes.ofUInt32, UInt8.toNat_toUInt32]
  obtain ⟨dictated, small, same⟩ : h'.code.toUInt32 ≠ 0 ∧ ¬ 256 ≤ h'.code.toUInt32 ∧
      h'.code.toUInt32.toUInt8 = h'.code := by
    cases h' <;> simp only [SecurityHandler.code] <;> decide
  rw [word, ← List.append_nil (Bytes.ofUInt32 _)]
  refine takes_read_bind (takes_u32 _) ?_
  rw [if_neg dictated, if_neg small, same]
  exact .nil _

theorem dictated_ne_nil : Bytes.ofNat 4 h'.code.toNat ≠ [] :=
  List.ne_nil_of_length_eq_add_one (Bytes.length_ofNat 4 _)

/-! ## Both ends agree -/

def First {α : Type} (p : α → Prop) (l : List α) (a : α) : Prop :=
  ∃ before after, l = before ++ a :: after ∧ p a ∧ ∀ b ∈ before, ¬ p b

/-- The last of the handlers with the highest type. -/
def LastHighest (handlers : List SecurityHandler) (h : SecurityHandler) : Prop :=
  ∃ before after, handlers = before ++ h :: after ∧ (∀ b ∈ before, b.code ≤ h.code) ∧
    ∀ b ∈ after, b.code < h.code

/-- The handlers that the initiator and the acceptor settle on. -/
def Chosen (version : Version) (clients servers : List SecurityHandler)
    (h h' : SecurityHandler) : Prop :=
  if version.usesSecurityList then
    First (fun b => b.code ∈ servers.map (·.code)) clients h ∧ First (·.code = h.code) servers h'
  else LastHighest servers h' ∧ First (·.code = h'.code) clients h

theorem First.find? {α : Type} {p : α → Prop} [DecidablePred p] {l : List α} {a : α}
    (h : First p l a) : l.find? p = some a := by
  obtain ⟨before, after, split, holds, others⟩ := h
  refine List.find?_eq_some_iff_append.mpr ⟨decide_eq_true holds, before, after, split, ?_⟩
  intro b mem
  simp [others b mem]

theorem highest_append (best : SecurityHandler) (front back : List SecurityHandler) :
    highest best (front ++ back) = highest (highest best front) back := by
  induction front generalizing best with
  | nil => rfl
  | cons h front ih => exact ih _

theorem code_highest_le {best bound : SecurityHandler} {handlers : List SecurityHandler}
    (first : best.code ≤ bound.code) (others : ∀ b ∈ handlers, b.code ≤ bound.code) :
    (highest best handlers).code ≤ bound.code := by
  induction handlers generalizing best with
  | nil => exact first
  | cons h handlers ih =>
      have rest : ∀ b ∈ handlers, b.code ≤ bound.code := fun b mem =>
        others b (List.mem_cons_of_mem _ mem)
      rw [highest]
      split
      · exact ih (others h List.mem_cons_self) rest
      · exact ih first rest

theorem highest_of_lt {best : SecurityHandler} {handlers : List SecurityHandler}
    (others : ∀ b ∈ handlers, b.code < best.code) : highest best handlers = best := by
  induction handlers with
  | nil => rfl
  | cons h handlers ih =>
      have lower := others h List.mem_cons_self
      rw [highest, if_neg (by simpa using lower)]
      exact ih fun b mem => others b (List.mem_cons_of_mem _ mem)

theorem LastHighest.highest_eq {first h : SecurityHandler} {others : List SecurityHandler}
    (last : LastHighest (first :: others) h) : highest first others = h := by
  obtain ⟨before, after, split, below, lower⟩ := last
  cases before with
  | nil =>
      cases split
      exact highest_of_lt lower
  | cons b before =>
      rw [List.cons_append] at split
      obtain ⟨rfl, rfl⟩ := List.cons.inj split
      have reached : (highest first before).code ≤ h.code :=
        code_highest_le (below first List.mem_cons_self) fun b mem =>
          below b (List.mem_cons_of_mem _ mem)
      rw [highest_append, highest, if_pos reached]
      exact highest_of_lt lower

theorem Chosen.of_list (pair : Chosen version clients servers h h')
    (listed : version.usesSecurityList = true) :
    clients.find? (·.code ∈ servers.map (·.code)) = some h ∧
      servers.find? (·.code = h.code) = some h' := by
  rw [Chosen, if_pos listed] at pair
  exact ⟨pair.1.find?, pair.2.find?⟩

theorem Chosen.of_dictated {first : SecurityHandler} {others : List SecurityHandler}
    (pair : Chosen version clients (first :: others) h h')
    (dictated : ¬ version.usesSecurityList = true) :
    highest first others = h' ∧
      clients.find? (·.code = (highest first others).code) = some h := by
  rw [Chosen, if_neg dictated] at pair
  obtain ⟨last, pair⟩ := pair
  obtain rfl := last.highest_eq
  exact ⟨rfl, pair.find?⟩

theorem exists_listed (chosen : clients.find? (·.code ∈ servers.map (·.code)) = some h) :
    ∃ h', servers.find? (·.code = h.code) = some h' ∧ h'.code = h.code := by
  have among : h.code ∈ servers.map (·.code) := by
    simpa only [decide_eq_true_eq] using List.find?_some chosen
  obtain ⟨s, mem, same⟩ := List.mem_map.mp among
  have some : (servers.find? (·.code = h.code)).isSome :=
    List.find?_isSome.mpr ⟨s, mem, decide_eq_true same⟩
  obtain ⟨h', found⟩ := Option.isSome_iff_exists.mp some
  exact ⟨h', found, by simpa using List.find?_some found⟩

theorem flow_offered [BlockCipher] (nonempty : servers ≠ []) (few : servers.length ≤ 255) :
    ∃ next, (∀ code, Takes next [code] (find servers code)) ∧
      Flow nonce
        (start (chooseListed clients >>= prove version) (offerList servers >>= judge version))
        (start (choose clients (servers.map (·.code)) >>= prove version)
          (next >>= judge version)) := by
  have takes := @takes_chooseListed clients servers nonempty few
  obtain ⟨next, offers, finds⟩ := offerList_eq servers
  rw [offers]
  exact ⟨next, finds, .answers offer_ne_nil (takes.bind _)⟩

theorem flow_chosen [BlockCipher] (nonempty : servers ≠ []) (few : servers.length ≤ 255)
    (chosen : clients.find? (·.code ∈ servers.map (·.code)) = some h)
    (found : servers.find? (·.code = h.code) = some h') :
    Flow nonce
      (start (chooseListed clients >>= prove version) (offerList servers >>= judge version))
      (start (prove version h) (judge version h')) := by
  obtain ⟨next, finds, offered⟩ := @flow_offered nonce version clients servers _ nonempty few
  have finds := finds h.code
  rw [find, found] at finds
  rw [choose, chosen] at offered
  exact offered.trans (.passes (List.cons_ne_nil _ _) (finds.bind _))

theorem flow_listed [BlockCipher] (nonempty : servers ≠ []) (few : servers.length ≤ 255)
    (length : nonce.length = Challenge.size) :
    ∃ c, Flow nonce
        (start (chooseListed clients >>= prove version) (offerList servers >>= judge version)) c ∧
      Concludes version c ∧
      ∀ h h', clients.find? (·.code ∈ servers.map (·.code)) = some h →
        servers.find? (·.code = h.code) = some h' → h.Presentable →
          c = settled version h h' (h'.accepts nonce h) := by
  cases chosen : clients.find? (·.code ∈ servers.map (·.code)) with
  | none =>
      obtain ⟨next, -, offered⟩ := @flow_offered nonce version clients servers _ nonempty few
      rw [choose, chosen] at offered
      refine ⟨_, offered, .fails ⟨_, rfl⟩, fun h h' among => ?_⟩
      cases among
  | some k =>
      obtain ⟨k', found, same⟩ := exists_listed chosen
      obtain ⟨c, flow, concludes, settles⟩ := @flow_pair nonce version k k' _ length same
      have settled := @flow_chosen nonce version _ _ _ _ _ nonempty few chosen found
      refine ⟨c, settled.trans flow, concludes, fun h h' among found' => ?_⟩
      cases among
      cases found.symm.trans found'
      exact settles

theorem flow_dictated [BlockCipher] (length : nonce.length = Challenge.size) :
    ∃ c, Flow nonce
        (start (acceptDictated clients >>= prove version) (dictate h' >>= judge version)) c ∧
      Concludes version c ∧
      ∀ h, clients.find? (·.code = h'.code) = some h → h.Presentable →
        c = settled version h h' (h'.accepts nonce h) := by
  have told : Flow nonce
      (start (acceptDictated clients >>= prove version) (dictate h' >>= judge version))
      (start (find clients h'.code >>= prove version) (judge version h')) :=
    .answers dictated_ne_nil ((takes_acceptDictated clients h').bind _)
  cases found : clients.find? (·.code = h'.code) with
  | none =>
      rw [find, found] at told
      refine ⟨_, told, .fails ⟨_, rfl⟩, fun h among => ?_⟩
      cases among
  | some k =>
      have same : k.code = h'.code := by simpa using List.find?_some found
      rw [find, found] at told
      obtain ⟨c, flow, concludes, settles⟩ := @flow_pair nonce version k h' _ length same.symm
      refine ⟨c, told.trans flow, concludes, fun h among => ?_⟩
      cases among
      exact settles

theorem flow_security [BlockCipher] (version : Version) (clients : List SecurityHandler)
    (nonempty : servers ≠ []) (few : servers.length ≤ 255)
    (length : nonce.length = Challenge.size) :
    ∃ c, Flow nonce (start (clientSecurity version clients) (serverSecurity version servers)) c ∧
      Concludes version c ∧ ∀ h h', Chosen version clients servers h h' → h.Presentable →
        c = settled version h h' (h'.accepts nonce h) := by
  obtain ⟨first, others, rfl⟩ := List.exists_cons_of_ne_nil nonempty
  rw [clientSecurity_eq, serverSecurity_eq]
  by_cases listed : version.usesSecurityList = true
  · rw [if_pos listed, if_pos listed]
    obtain ⟨c, flow, concludes, settles⟩ :=
      @flow_listed nonce version clients _ _ nonempty few length
    refine ⟨c, flow, concludes, fun h h' pair => ?_⟩
    obtain ⟨chosen, found⟩ := pair.of_list listed
    exact settles h h' chosen found
  · rw [if_neg listed, if_neg listed]
    obtain ⟨c, flow, concludes, settles⟩ :=
      @flow_dictated nonce version clients (highest first others) _ length
    refine ⟨c, flow, concludes, fun h h' pair => ?_⟩
    obtain ⟨rfl, found⟩ := pair.of_dictated listed
    exact settles h found

theorem ends_security [BlockCipher] (nonempty : servers ≠ []) (few : servers.length ≤ 255)
    (length : nonce.length = Challenge.size) :
    Ends nonce (fun c => SameType c ∧ ∀ h h', Chosen version clients servers h h' →
        h.Presentable → c = settled version h h' (h'.accepts nonce h))
      (start (clientSecurity version clients) (serverSecurity version servers)) := by
  obtain ⟨d, flow, concludes, settles⟩ :=
    @flow_security nonce servers _ version clients nonempty few length
  by_cases pair : ∃ h h', Chosen version clients servers h h' ∧ h.Presentable
  · -- all is heard then, so that the initiator cannot find the acceptor gone
    obtain ⟨h, h', pair, presentable⟩ := pair
    have eq := settles h h' pair presentable
    rw [eq] at flow
    refine (Ends.of_heard flow).mono fun c last => ?_
    obtain rfl := last.trans eq.symm
    exact ⟨concludes.sameType, settles⟩
  · refine (Ends.of_flow flow concludes.atRest).mono fun c last => ⟨?_, ?_⟩
    · rcases last with rfl | failed
      · exact concludes.sameType
      · exact .of_failed failed
    · exact fun h h' chosen presentable => absurd ⟨h, h', chosen, presentable⟩ pair

/-- **Both ends of the security step agree.**  Whoever moves when, no run is endless, and until
both ends are done one of them can go on.  In the end the initiator has succeeded only if the
acceptor has, with the same type.  If the handlers that they settle on are there and the
initiator's credentials can be presented, everything said was heard: both ends succeed if the
acceptor is content with the credentials, and both turn them down if it is not. -/
theorem security_agrees [BlockCipher] (version : Version) (clients : List SecurityHandler)
    (nonempty : servers ≠ []) (few : servers.length ≤ 255)
    (length : nonce.length = Challenge.size) :
    let start :=
      Conversation.start (clientSecurity version clients) (serverSecurity version servers)
    Acc (fun after before => Conversation.Step nonce before after) start ∧
      ∀ c, Conversation.Reaches nonce start c →
        (c.IsOver ∨ ∃ c', Conversation.Step nonce c c') ∧
        ∀ rc rs, c.client = .done rc → c.server = .done rs →
          (∀ h, rc = .ok h → ∃ h', rs = .ok h' ∧ h'.code = h.code) ∧
          ∀ h h', Chosen version clients servers h h' → h.Presentable →
            c.toServer = [] ∧ c.toClient = [] ∧
            (h'.accepts nonce h = true → rc = .ok h ∧ rs = .ok h') ∧
            (h'.accepts nonce h = false → (∃ cause, rc = .error (.authFailed cause)) ∧
              rs = .error (.authFailed (.ofClient h'))) := by
  intro start
  refine ⟨Conversation.acc_step nonce start, fun c reached => ?_⟩
  have ends := (@ends_security nonce version clients servers _ nonempty few length).of_reaches reached
  obtain ⟨ended, goes, -⟩ := ends
  refine ⟨(Classical.em c.IsOver).imp_right goes, fun rc rs client server => ?_⟩
  obtain ⟨sameType, settles⟩ := ended ⟨⟨rc, client⟩, rs, server⟩
  refine ⟨fun h eq => ?_, fun h h' pair presentable => ?_⟩
  · subst eq
    obtain ⟨h', eq, same⟩ := sameType h client
    cases server.symm.trans eq
    exact ⟨h', rfl, same⟩
  · obtain rfl := settles h h' pair presentable
    cases client
    cases server
    refine ⟨rfl, rfl, fun accepted => ?_, fun refused => ?_⟩
    · rw [accepted]
      exact ⟨rfl, rfl⟩
    · rw [refused]
      exact ⟨⟨_, rfl⟩, rfl⟩

/-- Under 3.3 the higher type is dictated, and the passwords differ. -/
theorem security_agrees_wrongPassword :
    [SecurityHandler.none, .vencryptPlain [1] [2]] ≠ [] ∧
      [SecurityHandler.none, .vencryptPlain [1] [2]].length ≤ 255 ∧
      (Bytes.zeros 16).length = Challenge.size ∧
      ∀ c rc rs, Conversation.Reaches (Bytes.zeros 16)
          (start (clientSecurity .v33 [.vencryptPlain [1] [3]])
            (serverSecurity .v33 [.none, .vencryptPlain [1] [2]])) c →
        c.client = .done rc → c.server = .done rs →
          (∃ cause, rc = .error (.authFailed cause)) ∧
            rs = .error (.authFailed (.ofClient (.vencryptPlain [1] [2]))) := by
  have length : (Bytes.zeros 16).length = Challenge.size := rfl
  have pair : Chosen .v33 [.vencryptPlain [1] [3]] [.none, .vencryptPlain [1] [2]]
      (.vencryptPlain [1] [3]) (.vencryptPlain [1] [2]) :=
    ⟨⟨[.none], [], rfl, by decide, nofun⟩, [], [], rfl, rfl, nofun⟩
  have presentable : (SecurityHandler.vencryptPlain [1] [3]).Presentable :=
    ⟨show 1 ≤ 65536 by decide, show 1 ≤ 65536 by decide⟩
  refine ⟨nofun, by decide, length, fun c rc rs reached client server => ?_⟩
  obtain ⟨-, ends⟩ := @security_agrees (Bytes.zeros 16) [.none, .vencryptPlain [1] [2]] _ .v33
    [.vencryptPlain [1] [3]] nofun (by decide) length
  obtain ⟨-, -, verdict⟩ := (ends c reached).2 rc rs client server |>.2 _ _ pair presentable
  exact verdict.2 (by decide)

end RemoteFramebuffer.Handshake
