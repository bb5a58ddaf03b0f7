/-
# `RemoteFramebuffer.Proofs.Handshake.Flow` — one run stands for all of them

Each end of a conversation takes the bytes that it is sent in order, whenever it comes to them, so
a step of one end and a step of the other can change places.  `Flow` is a run in which no end makes
use of the other one's being gone.  A step that strays from it either comes later in it or is
one that could still be taken at its end (`Flow.strip`), so if there is none, every run ends there:

    Flow c d,  all is said and heard at d  gives  every run from c ends at d   (`Ends.of_heard`)
    Flow c d,  nothing left to do at d     gives  every run from c ends at d,
                                                  or the client fails          (`Ends.of_flow`)

The client can fail on what it says last, since the server may be done, and gone, before.  So what
is left to show of two ends is one run, chosen as one likes, and runs of steps one after another are
put together (`Flow.bind`).
-/
import RemoteFramebuffer.Proofs.Handshake.Conversation

namespace RemoteFramebuffer

namespace Exchange

variable {α β : Type} {nonce : Bytes} {gone : Bool} {e e' : Exchange α} {input left sent : Bytes}

/-- Done without success. -/
def Failed (e : Exchange α) : Prop := ∃ cause, e = .done (.error cause)

theorem Failed.isDone (h : e.Failed) : e.IsDone := ⟨_, h.choose_spec⟩

theorem act_of_isDone (h : e.IsDone) : e.act nonce gone input = none := by
  obtain ⟨result, rfl⟩ := h
  rfl

/-- An end that finds the other one gone goes on as it would have, or it fails. -/
theorem act_gone (step : e.act nonce gone input = some (e', left, sent)) :
    e.act nonce false input = some (e', left, sent) ∨ e'.Failed ∧ gone = true := by
  cases gone with
  | false => exact .inl step
  | true =>
      cases e with
      | done result => cases step
      | take count short next =>
          simp only [act] at step
          split at step
          · rename_i enough
            rw [act, if_pos enough]
            exact .inl step
          · cases step
            exact .inr ⟨⟨_, rfl⟩, rfl⟩
      | send bytes next =>
          cases step
          exact .inr ⟨⟨_, rfl⟩, rfl⟩
      | draw next => exact .inl step

/-- The steps of an exchange are those of a longer one that begins with it. -/
theorem act_bind (step : e.act nonce gone input = some (e', left, sent)) (f : α → Exchange β) :
    (e >>= f).act nonce gone input = some (e' >>= f, left, sent) := by
  cases e with
  | done result => cases step
  | take count short next =>
      show (take count short fun piece => next piece >>= f).act nonce gone input = _
      simp only [act] at step ⊢
      split at step
      · rename_i enough
        cases step
        rw [if_pos enough]
      · rename_i few
        rw [if_neg few]
        split at step
        · rename_i ended
          cases step
          rw [if_pos ended]
          rfl
        · cases step
  | send bytes next =>
      show (send bytes (next >>= f)).act nonce gone input = _
      simp only [act] at step ⊢
      split at step
      · rename_i ended
        cases step
        rw [if_pos ended]
        rfl
      · rename_i present
        cases step
        rw [if_neg present]
        unfold sending
        split
        · rfl
        · rfl
  | draw next =>
      cases step
      rfl

/-- A step for which it does not matter whether the other end is gone, unless it says something. -/
def Flows (nonce : Bytes) (e : Exchange α) (input : Bytes) (e' : Exchange α)
    (left sent : Bytes) : Prop :=
  e.act nonce false input = some (e', left, sent) ∧
    (sent = [] → e.act nonce true input = some (e', left, []))

namespace Flows

theorem append (h : e.Flows nonce input e' left sent) (more : Bytes) :
    e.Flows nonce (input ++ more) e' (left ++ more) sent := by
  refine ⟨act_append h.1 more, fun silent => ?_⟩
  subst silent
  have step := act_append h.1 more
  have alone := h.2 rfl
  cases e with
  | done result => cases step
  | take count short next =>
      simp only [act] at step ⊢
      split at step
      · rename_i enough
        rwa [if_pos enough]
      · cases step
  | send bytes next =>
      cases alone
      rfl
  | draw next => exact step

theorem bind (h : e.Flows nonce input e' left sent) (f : α → Exchange β) :
    (e >>= f).Flows nonce input (e' >>= f) left sent :=
  ⟨act_bind h.1 f, fun silent => act_bind (h.2 silent) f⟩

end Flows

end Exchange

namespace Conversation

open Exchange (Takes act sending)

variable {α β γ δ : Type} {nonce : Bytes} {c c' d : Conversation α β}

/-! ## Runs in which nobody is gone -/

/-- A run in which no end makes use of the other one's being gone. -/
inductive Flow (nonce : Bytes) : Conversation α β → Conversation α β → Prop
  | refl (c : Conversation α β) : Flow nonce c c
  | client {x x' : Exchange α} {y : Exchange β} {toServer toClient left sent : Bytes}
      {d : Conversation α β} (step : x.Flows nonce toClient x' left sent)
      (rest : Flow nonce ⟨x', y, toServer ++ sent, left⟩ d) :
      Flow nonce ⟨x, y, toServer, toClient⟩ d
  | server {x : Exchange α} {y y' : Exchange β} {toServer toClient left sent : Bytes}
      {d : Conversation α β} (step : y.Flows nonce toServer y' left sent)
      (rest : Flow nonce ⟨x, y', left, toClient ++ sent⟩ d) :
      Flow nonce ⟨x, y, toServer, toClient⟩ d

/-- The conversation in which each end goes on as its result says. -/
def bind (c : Conversation α β) (f : α → Exchange γ) (g : β → Exchange δ) : Conversation γ δ :=
  ⟨c.client >>= f, c.server >>= g, c.toServer, c.toClient⟩

namespace Flow

variable {x x' : Exchange α} {y y' : Exchange β} {toServer toClient left sent : Bytes}

theorem trans {d' : Conversation α β} (h : Flow nonce c d) (h' : Flow nonce d d') :
    Flow nonce c d' := by
  induction h with
  | refl c => exact h'
  | client step _ ih => exact .client step (ih h')
  | server step _ ih => exact .server step (ih h')

theorem swap (h : Flow nonce c d) : Flow nonce c.swap d.swap := by
  induction h with
  | refl c => exact .refl _
  | client step _ ih => exact .server step ih
  | server step _ ih => exact .client step ih

theorem reaches (h : Flow nonce c d) : Reaches nonce c d := by
  induction h with
  | refl c => exact .refl c
  | client step _ ih => exact .step (.client step.1) ih
  | server step _ ih => exact .step (.server step.1) ih

/-- An end that is done stays as it is, and what it is sent stays where it is. -/
theorem of_isDone (h : Flow nonce c d) (done : c.client.IsDone) :
    d.client = c.client ∧ ∃ more, d.toClient = c.toClient ++ more := by
  induction h with
  | refl c => exact ⟨rfl, [], (List.append_nil _).symm⟩
  | client step _ ih => cases step.1.symm.trans (Exchange.act_of_isDone done)
  | server step _ ih =>
      obtain ⟨same, more, eq⟩ := ih done
      exact ⟨same, _, eq.trans (List.append_assoc _ _ _)⟩

/-- **Strays.**  A step of the client that strays from a run leads to where the run goes on; or the
run does without the client, who could still take the step at its end. -/
theorem strip (h : Flow nonce ⟨x, y, toServer, toClient⟩ d)
    (step : x.act nonce false toClient = some (x', left, sent)) :
    Flow nonce ⟨x', y, toServer ++ sent, left⟩ d ∨
      d.client = x ∧ ∃ more, d.toClient = toClient ++ more ∧
        Flow nonce ⟨x', y, toServer ++ sent, left⟩
          ⟨x', d.server, d.toServer ++ sent, left ++ more⟩ := by
  generalize eq : Conversation.mk x y toServer toClient = c at h
  induction h generalizing y toServer toClient left with
  | refl c =>
      subst eq
      refine .inr ⟨rfl, [], (List.append_nil _).symm, ?_⟩
      rw [List.append_nil]
      exact .refl _
  | client own rest =>
      cases eq
      cases step.symm.trans own.1
      exact .inl rest
  | server other rest ih =>
      cases eq
      -- the other end's step can be taken after this one, and finds what it would have found
      have later := other.append sent
      rcases ih (Exchange.act_append step _) rfl with goes | ⟨same, more, eq, goes⟩
      · exact .inl (.server later goes)
      · rw [List.append_assoc] at eq goes
        exact .inr ⟨same, _, eq, .server later goes⟩

/-- Where all is said and heard no step strays, whether the other end is gone or not. -/
theorem keeps {gone : Bool} (h : Flow nonce ⟨x, y, toServer, toClient⟩ d) (done : d.client.IsDone)
    (heard : d.toServer = []) (ended : gone = true → y.IsDone)
    (step : x.act nonce gone toClient = some (x', left, sent)) :
    Flow nonce ⟨x', y, toServer ++ sent, left⟩ d := by
  cases gone with
  | false =>
      rcases h.strip step with goes | ⟨same, -⟩
      · exact goes
      · rw [same] at done
        cases step.symm.trans (Exchange.act_of_isDone done)
  | true =>
      have finished := ended rfl
      cases h with
      | refl => cases step.symm.trans (Exchange.act_of_isDone done)
      | server own rest => cases own.1.symm.trans (Exchange.act_of_isDone finished)
      | @client _ x₁ _ _ _ left₁ sent₁ _ own rest =>
          -- nothing that this end says now would be heard
          obtain ⟨-, more, eq⟩ := rest.swap.of_isDone finished
          have unheard : [] = toServer ++ sent₁ ++ more := heard.symm.trans eq
          have silent : sent₁ = [] :=
            (List.append_eq_nil_iff.mp (List.append_eq_nil_iff.mp unheard.symm).1).2
          subst silent
          cases step.symm.trans (own.2 rfl)
          exact rest

/-! ## Putting runs together -/

theorem sends {message : Bytes} (nonempty : message ≠ []) :
    Flow nonce ⟨.send message x, y, toServer, toClient⟩ ⟨x, y, toServer ++ message, toClient⟩ := by
  induction message generalizing toServer with
  | nil => exact absurd rfl nonempty
  | cons b rest ih =>
      refine .client ⟨rfl, nofun⟩ ?_
      by_cases last : rest = []
      · subst last
        exact .refl _
      · rw [List.tail_cons, sending, if_neg (by simpa using last), List.append_cons]
        exact ih last

theorem takes {used rest : Bytes} (taken : Takes x used x') :
    Flow nonce ⟨x, y, toServer, used ++ rest⟩ ⟨x', y, toServer, rest⟩ := by
  induction taken with
  | nil x => exact .refl _
  | take length _ ih =>
      refine .client ⟨Exchange.act_take length, fun _ => Exchange.act_take length⟩ ?_
      rw [List.append_nil]
      exact ih

theorem hears {used rest : Bytes} (taken : Takes y used y') :
    Flow nonce ⟨x, y, used ++ rest, toClient⟩ ⟨x, y', rest, toClient⟩ := (takes taken).swap

theorem draws {next : Bytes → Exchange β} :
    Flow nonce ⟨x, .draw next, toServer, toClient⟩ ⟨x, next nonce, toServer, toClient⟩ := by
  refine .server ⟨rfl, fun _ => rfl⟩ ?_
  rw [List.append_nil]
  exact .refl _

theorem passes {message : Bytes} (nonempty : message ≠ []) (taken : Takes y message y') :
    Flow nonce ⟨.send message x, y, [], toClient⟩ ⟨x, y', [], toClient⟩ := by
  have said : Flow nonce ⟨.send message x, y, [], toClient⟩ ⟨x, y, message ++ [], toClient⟩ := by
    rw [List.append_nil]
    exact sends nonempty
  exact said.trans (hears taken)

theorem answers {message : Bytes} (nonempty : message ≠ []) (taken : Takes x message x') :
    Flow nonce ⟨x, .send message y, toServer, []⟩ ⟨x', y, toServer, []⟩ :=
  (passes nonempty taken).swap

theorem bind (h : Flow nonce c d) (f : α → Exchange γ) (g : β → Exchange δ) :
    Flow nonce (c.bind f g) (d.bind f g) := by
  induction h with
  | refl c => exact .refl _
  | client step _ ih => exact .client (step.bind f) ih
  | server step _ ih => exact .server (step.bind g) ih

end Flow

/-! ## All runs -/

/-- The client has failed; or the server is done and the client has all that it said and waits for
more. -/
def AtRest (nonce : Bytes) (c : Conversation α β) : Prop :=
  c.client.Failed ∨
    c.server.IsDone ∧ c.toClient = [] ∧ c.client.act nonce false [] = none

/-- The run goes on to `d`, or to a failure of the client. -/
def Heads (nonce : Bytes) (d c : Conversation α β) : Prop :=
  ∃ d', Flow nonce c d' ∧ (d' = d ∨ d'.client.Failed)

section

variable {x x' : Exchange α} {y y' : Exchange β} {toServer toClient left sent : Bytes} {gone : Bool}

theorem heads_client (rests : AtRest nonce d) (flow : Flow nonce ⟨x, y, toServer, toClient⟩ d)
    (step : x.act nonce gone toClient = some (x', left, sent)) :
    Heads nonce d ⟨x', y, toServer ++ sent, left⟩ := by
  rcases Exchange.act_gone step with quiet | ⟨failed, -⟩
  · rcases flow.strip quiet with goes | ⟨rfl, more, eq, -⟩
    · exact ⟨d, goes, .inl rfl⟩
    · -- at the end of the run the client has no step to take
      rcases rests with failed | ⟨-, heard, waits⟩
      · cases quiet.symm.trans (Exchange.act_of_isDone failed.isDone)
      · obtain rfl := (List.append_eq_nil_iff.mp (eq.symm.trans heard)).1
        cases quiet.symm.trans waits
  · exact ⟨_, .refl _, .inr failed⟩

/-- Whatever the server does, who may notice that the client is done. -/
theorem heads_server (rests : AtRest nonce d) (flow : Flow nonce ⟨x, y, toServer, toClient⟩ d)
    (ended : gone = true → x.IsDone)
    (step : y.act nonce gone toServer = some (y', left, sent)) :
    Heads nonce d ⟨x, y', left, toClient ++ sent⟩ := by
  rcases rests with failed | ⟨done, heard, -⟩
  · cases gone with
    | false =>
        rcases flow.swap.strip step with goes | ⟨-, more, -, goes⟩
        · exact ⟨d, goes.swap, .inl rfl⟩
        · exact ⟨_, goes.swap, .inr failed⟩
    | true =>
        obtain rfl := (flow.of_isDone (ended rfl)).1
        exact ⟨_, .refl _, .inr failed⟩
  · exact ⟨d, (flow.swap.keeps done heard ended step).swap, .inl rfl⟩

end

theorem Flow.goesOn (flow : Flow nonce c d) : c = d ∨ ∃ c', Step nonce c c' := by
  cases flow with
  | refl => exact .inl rfl
  | client own rest => exact .inr ⟨_, .client own.1⟩
  | server own rest => exact .inr ⟨_, .server own.1⟩

theorem Flow.eq_of_isOver (flow : Flow nonce c d) (ended : c.IsOver) : d = c := by
  cases flow with
  | refl => rfl
  | client own rest => cases own.1.symm.trans (Exchange.act_of_isDone ended.1)
  | server own rest => cases own.1.symm.trans (Exchange.act_of_isDone ended.2)

/-- **One run stands for all of them.**  If one run ends with all that was said heard, every run
does, and in the same way. -/
theorem Ends.of_heard {rx : Except ProtocolError α} {ry : Except ProtocolError β}
    (flow : Flow nonce c (start (.done rx) (.done ry))) :
    Ends nonce (· = start (.done rx) (.done ry)) c := by
  refine of_invariant (Flow nonce · (start (.done rx) (.done ry))) ?keeps ?stops ?goes flow
  case keeps =>
    rintro ⟨x, y, toServer, toClient⟩ c' flow h
    obtain ⟨gone, x', left, sent, ended, step, rfl⟩ | ⟨gone, y', left, sent, ended, step, rfl⟩ :=
      h.cases
    · exact flow.keeps ⟨rx, rfl⟩ rfl ended step
    · exact (flow.swap.keeps ⟨ry, rfl⟩ rfl ended step).swap
  case stops => exact fun c flow ended => (flow.eq_of_isOver ended).symm
  case goes =>
    rintro c flow going
    rcases flow.goesOn with rfl | goes
    · exact absurd ⟨⟨rx, rfl⟩, ry, rfl⟩ going
    · exact goes

/-- **One run stands for all of them.**  If one run comes to rest, every run ends there, or it ends
with the failure of the client. -/
theorem Ends.of_flow (flow : Flow nonce c d) (rests : AtRest nonce d) :
    Ends nonce (fun c => c = d ∨ c.client.Failed) c := by
  refine of_invariant (Heads nonce d) ?keeps ?stops ?goes ⟨d, flow, .inl rfl⟩
  case keeps =>
    rintro ⟨x, y, toServer, toClient⟩ c' ⟨d', flow, sort⟩ h
    have rests : AtRest nonce d' := by
      rcases sort with rfl | failed
      · exact rests
      · exact .inl failed
    have heads : Heads nonce d' c' := by
      obtain ⟨gone, x', left, sent, -, step, rfl⟩ | ⟨gone, y', left, sent, ended, step, rfl⟩ :=
        h.cases
      · exact heads_client rests flow step
      · exact heads_server rests flow ended step
    obtain ⟨d'', flow', rfl | failed⟩ := heads
    · exact ⟨d'', flow', sort⟩
    · exact ⟨d'', flow', .inr failed⟩
  case stops =>
    rintro c ⟨d', flow, sort⟩ ended
    obtain rfl := flow.eq_of_isOver ended
    exact sort
  case goes =>
    rintro c ⟨d', flow, sort⟩ going
    rcases flow.goesOn with rfl | goes
    · refine exists_step ?_ going
      rcases sort with rfl | failed
      · exact rests.imp Exchange.Failed.isDone And.left
      · exact .inl failed.isDone
    · exact goes

end Conversation

end RemoteFramebuffer
