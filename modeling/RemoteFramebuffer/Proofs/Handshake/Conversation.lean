/-
# `RemoteFramebuffer.Proofs.Handshake.Conversation` — two exchanges that talk to each other

Two ends are joined by two streams of bytes.  `Step` lets either end take a step; which one does,
and whether an end notices that the other is done, is open.  No conversation goes on forever.

`Ends nonce P c` says that every run from `c` ends with both ends done and `P` true.  What an
invariant gives for a conversation that is over is true in the end, if no run is stuck
(`Ends.of_invariant`).
-/
import RemoteFramebuffer.Proofs.Handshake.Exchange

namespace RemoteFramebuffer

open Exchange (act)

/-- Two ends, and what is on its way to each of them. -/
structure Conversation (α β : Type) where
  client : Exchange α
  server : Exchange β
  toServer : Bytes
  toClient : Bytes

namespace Conversation

variable {α β : Type} {nonce : Bytes} {c c' : Conversation α β}

/-- A conversation in which nothing has been said. -/
def start (client : Exchange α) (server : Exchange β) : Conversation α β := ⟨client, server, [], []⟩

/-- The same conversation seen from the other end. -/
def swap (c : Conversation α β) : Conversation β α := ⟨c.server, c.client, c.toClient, c.toServer⟩

def IsOver (c : Conversation α β) : Prop := c.client.IsDone ∧ c.server.IsDone

/-! ## Steps -/

/-- The client takes a step.  It may, and need not, notice that the server is done. -/
inductive Moves (nonce : Bytes) : Conversation α β → Conversation α β → Prop
  | intro {x x' : Exchange α} {y : Exchange β} {toServer toClient left sent : Bytes} {gone : Bool}
      (ended : gone = true → y.IsDone) (step : x.act nonce gone toClient = some (x', left, sent)) :
      Moves nonce ⟨x, y, toServer, toClient⟩ ⟨x', y, toServer ++ sent, left⟩

def Step (nonce : Bytes) (c c' : Conversation α β) : Prop :=
  Moves nonce c c' ∨ Moves nonce c.swap c'.swap

namespace Step

variable {x x' : Exchange α} {y y' : Exchange β} {toServer toClient left sent : Bytes}

theorem client (step : x.act nonce false toClient = some (x', left, sent)) :
    Step nonce ⟨x, y, toServer, toClient⟩ ⟨x', y, toServer ++ sent, left⟩ :=
  .inl (.intro (fun h => absurd h Bool.false_ne_true) step)

theorem server (step : y.act nonce false toServer = some (y', left, sent)) :
    Step nonce ⟨x, y, toServer, toClient⟩ ⟨x, y', left, toClient ++ sent⟩ :=
  .inr (.intro (fun h => absurd h Bool.false_ne_true) step)

theorem cases (h : Step nonce ⟨x, y, toServer, toClient⟩ c) :
    (∃ gone x' left sent, (gone = true → y.IsDone) ∧
      x.act nonce gone toClient = some (x', left, sent) ∧ c = ⟨x', y, toServer ++ sent, left⟩) ∨
    ∃ gone y' left sent, (gone = true → x.IsDone) ∧
      y.act nonce gone toServer = some (y', left, sent) ∧ c = ⟨x, y', left, toClient ++ sent⟩ := by
  obtain ⟨x', y', toServer', toClient'⟩ := c
  rcases h with h | h
  · cases h with
    | intro ended step => exact .inl ⟨_, _, _, _, ended, step, rfl⟩
  · cases h with
    | intro ended step => exact .inr ⟨_, _, _, _, ended, step, rfl⟩

end Step

inductive Reaches (nonce : Bytes) : Conversation α β → Conversation α β → Prop
  | refl (c : Conversation α β) : Reaches nonce c c
  | step {c c' c'' : Conversation α β} (first : Step nonce c c') (rest : Reaches nonce c' c'') :
      Reaches nonce c c''

/-- **No conversation goes on forever.** -/
theorem acc_step (nonce : Bytes) (c : Conversation α β) :
    Acc (fun after before : Conversation α β => Step nonce before after) c := by
  obtain ⟨x, y, toServer, toClient⟩ := c
  induction Exchange.acc_act nonce x generalizing y toServer toClient with
  | intro x _ ihx =>
      induction Exchange.acc_act nonce y generalizing toServer toClient with
      | intro y _ ihy =>
          refine ⟨_, fun after h => ?_⟩
          obtain ⟨_, _, _, _, -, step, rfl⟩ | ⟨_, _, _, _, -, step, rfl⟩ := h.cases
          · exact ihx _ ⟨_, _, _, _, step⟩ _ _ _
          · exact ihy _ ⟨_, _, _, _, step⟩ _ _

theorem exists_step (done : c.client.IsDone ∨ c.server.IsDone) (going : ¬ c.IsOver) :
    ∃ c', Step nonce c c' := by
  obtain ⟨x, y, toServer, toClient⟩ := c
  rcases done with done | done
  · cases step : y.act nonce true toServer with
    | none => exact absurd ⟨done, Exchange.isDone_of_act_gone step⟩ going
    | some after =>
        obtain ⟨y', left, sent⟩ := after
        exact ⟨⟨x, y', left, toClient ++ sent⟩, .inr (.intro (fun _ => done) step)⟩
  · cases step : x.act nonce true toClient with
    | none => exact absurd ⟨Exchange.isDone_of_act_gone step, done⟩ going
    | some after => exact ⟨_, .inl (.intro (fun _ => done) step)⟩

/-! ## Runs that end well -/

/-- Every run ends with both ends done and `P` true. -/
inductive Ends (nonce : Bytes) (P : Conversation α β → Prop) : Conversation α β → Prop
  | intro {c : Conversation α β} (stops : c.IsOver → P c)
      (goes : ¬ c.IsOver → ∃ c', Step nonce c c')
      (next : ∀ c', Step nonce c c' → Ends nonce P c') : Ends nonce P c

namespace Ends

variable {P Q : Conversation α β → Prop}

theorem mono (h : Ends nonce P c) (weaker : ∀ c, P c → Q c) : Ends nonce Q c := by
  induction h with
  | intro stops goes _ ih => exact .intro (fun o => weaker _ (stops o)) goes ih

theorem of_reaches (h : Ends nonce P c) (reached : Reaches nonce c c') : Ends nonce P c' := by
  induction reached with
  | refl c => exact h
  | step first _ ih =>
      cases h with
      | intro _ _ next => exact ih (next _ first)

/-- **Invariants.**  No run is endless, so that nothing is left to show but that it is not
stuck. -/
theorem of_invariant (I : Conversation α β → Prop)
    (keeps : ∀ c c', I c → Step nonce c c' → I c')
    (stops : ∀ c, I c → c.IsOver → P c) (goes : ∀ c, I c → ¬ c.IsOver → ∃ c', Step nonce c c')
    (h : I c) : Ends nonce P c := by
  induction acc_step nonce c with
  | intro c _ ih => exact .intro (stops c h) (goes c h) fun c' step => ih c' step (keeps c c' h step)

end Ends

end Conversation

end RemoteFramebuffer
