/-
# `RemoteFramebuffer.Proofs.Handshake.Exchange` — an exchange one step at a time

`Exchange.act` is one step: a piece is taken if it is there, one byte is sent, or a challenge is
drawn.  `Exchange.resume` takes steps until it has to wait.

`Takes e used e'` says what an exchange does with bytes that it is sent, whenever they come: it
takes just these, sends nothing, and is `e'` then.  Facing a stream that ends, `Exchange.run` gives
what the readers on the way give; `Says` bounds what is sent on the way.
-/
import RemoteFramebuffer.Handshake.Exchange
import RemoteFramebuffer.Proofs.Wire.Reader

namespace RemoteFramebuffer.Exchange

variable {α β : Type} {nonce : Bytes} {gone : Bool}

/-! ## Steps -/

def IsDone (e : Exchange α) : Prop := ∃ result, e = .done result

def sending (bytes : Bytes) (next : Exchange α) : Exchange α :=
  if bytes.isEmpty then next else .send bytes next

/-- One step, which leaves some of the input and sends some bytes; `none` if it has to wait or is
done.  If the peer has `gone`, nothing more will come and nothing can be sent. -/
def act (nonce : Bytes) (gone : Bool) : Exchange α → Bytes → Option (Exchange α × Bytes × Bytes)
  | .done _, _ => none
  | .take count short next, input =>
    if count ≤ input.length then some (next (input.take count), input.drop count, [])
    else if gone then some (.fail (short input.length), input, [])
    else none
  | .send bytes next, input =>
    if gone then some (.fail (.io .brokenPipe), input, [])
    else some (sending bytes.tail next, input, bytes.take 1)
  | .draw next, input => some (next nonce, input, [])

variable {e e' : Exchange α} {input left sent : Bytes}

theorem resume_of_act {outward : Pipe} (closed : outward.isClosed = gone)
    (h : e.act nonce gone input = some (e', left, sent)) :
    e.resume nonce gone input outward =
      e'.resume nonce gone left { outward with bytes := outward.bytes ++ sent } := by
  subst closed
  cases e with
  | done result => cases h
  | take count short next =>
      simp only [act] at h
      rw [resume]
      split at h
      · rename_i enough
        cases h
        rw [if_pos enough, List.append_nil]
      · rename_i few
        rw [if_neg few]
        split at h
        · rename_i closed
          cases h
          rw [if_pos closed, List.append_nil]
          rfl
        · cases h
  | send bytes next =>
      simp only [act] at h
      rw [resume, Pipe.write]
      split at h
      · rename_i closed
        cases h
        rw [if_pos closed, List.append_nil]
        rfl
      · rename_i isOpen
        cases h
        rw [if_neg isOpen]
        match bytes with
        | [] => rfl
        | [b] => rfl
        | b :: b' :: bytes =>
            show _ = (Exchange.send (b' :: bytes) next).resume _ _ _ _
            rw [resume, Pipe.write, if_neg isOpen]
            simp
  | draw next =>
      cases h
      rw [resume, List.append_nil]

theorem resume_of_waits {outward : Pipe} (h : e.act nonce gone input = none) :
    e.resume nonce gone input outward = (e, input, outward) := by
  cases e with
  | done result => rfl
  | take count short next =>
      simp only [act] at h
      rw [resume]
      split at h
      · cases h
      · rename_i few
        rw [if_neg few]
        split at h
        · cases h
        · rename_i isOpen
          rw [if_neg isOpen]
  | send bytes next =>
      simp only [act] at h
      split at h <;> cases h
  | draw next => cases h

/-- With its peer gone, an exchange can take steps until it is done. -/
theorem isDone_of_act_gone (h : e.act nonce true input = none) : e.IsDone := by
  cases e with
  | done result => exact ⟨result, rfl⟩
  | take count short next =>
      simp only [act] at h
      split at h <;> cases h
  | send bytes next => cases h
  | draw next => cases h

theorem act_append (h : e.act nonce false input = some (e', left, sent)) (more : Bytes) :
    e.act nonce false (input ++ more) = some (e', left ++ more, sent) := by
  cases e with
  | done result => cases h
  | take count short next =>
      simp only [act] at h ⊢
      split at h
      · rename_i enough
        cases h
        rw [if_pos (by rw [List.length_append]; omega), List.take_append_of_le_length enough,
          List.drop_append_of_le_length enough]
      · cases h
  | send bytes next =>
      cases h
      rfl
  | draw next =>
      cases h
      rfl

/-- **Every exchange comes to an end**, whatever it gets and whenever its peer goes. -/
theorem acc_act (nonce : Bytes) (e : Exchange α) :
    Acc (fun after before : Exchange α =>
      ∃ gone input left sent, before.act nonce gone input = some (after, left, sent)) e := by
  have done (result : Except ProtocolError α) : Acc (fun after before : Exchange α =>
      ∃ gone input left sent, before.act nonce gone input = some (after, left, sent))
        (.done result) := by
    refine ⟨_, ?_⟩
    rintro _ ⟨_, _, _, _, ⟨⟩⟩
  induction e with
  | done result => exact done result
  | take count short next ih =>
      refine ⟨_, ?_⟩
      rintro after ⟨gone, input, left, sent, h⟩
      simp only [act] at h
      split at h
      · cases h
        exact ih _
      · split at h
        · cases h
          exact done _
        · cases h
  | send bytes next ih =>
      induction bytes with
      | nil =>
          refine ⟨_, ?_⟩
          rintro after ⟨gone, input, left, sent, h⟩
          simp only [act] at h
          split at h
          · cases h
            exact done _
          · cases h
            exact ih
      | cons b bytes shorter =>
          refine ⟨_, ?_⟩
          rintro after ⟨gone, input, left, sent, h⟩
          simp only [act] at h
          split at h
          · cases h
            exact done _
          · cases h
            rw [List.tail_cons, sending]
            split
            · exact ih
            · exact shorter
  | draw next ih =>
      refine ⟨_, ?_⟩
      rintro after ⟨gone, input, left, sent, h⟩
      cases h
      exact ih _

/-! ## Taking bytes -/

/-- Takes just these bytes, sending nothing, and is `e'` then. -/
inductive Takes : Exchange α → Bytes → Exchange α → Prop
  | nil (e : Exchange α) : Takes e [] e
  | take {count : Nat} {short : Nat → ProtocolError} {next : Bytes → Exchange α}
      {piece used : Bytes} {e' : Exchange α} (length : piece.length = count)
      (rest : Takes (next piece) used e') : Takes (.take count short next) (piece ++ used) e'

theorem act_take {count : Nat} {short : Nat → ProtocolError} {next : Bytes → Exchange α}
    {piece used rest : Bytes} (length : piece.length = count) :
    (take count short next).act nonce gone (piece ++ used ++ rest) =
      some (next piece, used ++ rest, []) := by
  have enough : count ≤ (piece ++ (used ++ rest)).length := by
    rw [List.length_append]
    omega
  rw [List.append_assoc, act, if_pos enough, List.take_left' length, List.drop_left' length]

namespace Takes

variable {e'' : Exchange α} {used used' : Bytes}

theorem trans (h : Takes e used e') (h' : Takes e' used' e'') : Takes e (used ++ used') e'' := by
  induction h with
  | nil e => exact h'
  | take length _ ih =>
      rw [List.append_assoc]
      exact .take length (ih h')

theorem bind (h : Takes e used e') (f : α → Exchange β) : Takes (e >>= f) used (e' >>= f) := by
  induction h with
  | nil e => exact .nil _
  | take length _ ih => exact .take length ih

end Takes

theorem takes_read {r : Reader WireError α} {used : Bytes} {a : α} (h : r.Takes used a) :
    Takes (read r) used (pure a) := by
  induction r generalizing used with
  | done result =>
      have all := h []
      have none : used ++ [] = [] := congrArg Prod.snd all
      rw [List.append_nil] at none
      have eq : result = .ok a := congrArg Prod.fst all
      subst none eq
      exact .nil _
  | take count short next ih =>
      have enough : count ≤ used.length := by
        refine Nat.le_of_not_lt fun few => ?_
        have all := h []
        rw [Reader.run_take_of_lt (by simpa using few)] at all
        cases all
      have rest : (next (used.take count)).Takes (used.drop count) a := by
        intro more
        have all := h more
        rw [Reader.run_take_of_le (by rw [List.length_append]; omega),
          List.take_append_of_le_length enough, List.drop_append_of_le_length enough] at all
        exact all
      have both : Takes (read (.take count short next)) (used.take count ++ used.drop count)
          (pure a) := .take (List.length_take_of_le enough) (ih _ rest)
      rw [List.take_append_drop] at both
      exact both

theorem takes_read_bind {r : Reader WireError β} {f : β → Exchange α} {used used' : Bytes} {b : β}
    (h : r.Takes used b) (hf : Takes (f b) used' e') :
    Takes (read r >>= f) (used ++ used') e' := ((takes_read h).bind f).trans hf

theorem takes_u8_bind {b : UInt8} {f : UInt8 → Exchange α} {used : Bytes}
    (h : Takes (f b) used e') : Takes (read Reader.u8 >>= f) (b :: used) e' :=
  takes_read_bind (Reader.takes_u8 b) h

/-! ## Facing a stream

A peer that sends some bytes and then ends, whatever it is told. -/

section

variable {stream : Bytes} {said : List Bytes} {d d' : Dialogue}

theorem run_take_of_le {count : Nat} {short : Nat → ProtocolError} {next : Bytes → Exchange α}
    (enough : count ≤ stream.length) :
    (take count short next).run nonce ⟨stream, [], said⟩ =
      (next (stream.take count)).run nonce ⟨stream.drop count, [], said⟩ := by
  rw [run]
  simp only [Dialogue.await, Dialogue.await.go, List.length_take_of_le enough, Nat.lt_irrefl,
    if_false]

theorem run_take_of_lt {count : Nat} {short : Nat → ProtocolError} {next : Bytes → Exchange α}
    (few : stream.length < count) :
    (take count short next).run nonce ⟨stream, [], said⟩ =
      (.error (short stream.length), ⟨stream, [], said⟩) := by
  have cut : (stream.take count).length < count := by
    rw [List.length_take]
    omega
  rw [run]
  simp only [Dialogue.await, Dialogue.await.go, cut, if_true]

theorem Takes.run {used rest : Bytes} (h : Takes e used e') :
    e.run nonce ⟨used ++ rest, [], said⟩ = e'.run nonce ⟨rest, [], said⟩ := by
  induction h with
  | nil e => rfl
  | @take count short next piece used e' length later ih =>
      have enough : count ≤ (piece ++ (used ++ rest)).length := by
        rw [List.length_append]
        omega
      rw [List.append_assoc, run_take_of_le enough, List.take_left' length, List.drop_left' length]
      exact ih

theorem run_read (r : Reader WireError α) :
    (read r).run nonce ⟨stream, [], said⟩ =
      ((r.run stream).1.mapError .io, ⟨(r.run stream).2, [], said⟩) := by
  induction r generalizing stream with
  | done result => rfl
  | take count short next ih =>
      rw [read]
      by_cases enough : count ≤ stream.length
      · rw [run_take_of_le enough, Reader.run_take_of_le enough, ih]
      · rw [run_take_of_lt (Nat.lt_of_not_le enough), Reader.run_take_of_lt (Nat.lt_of_not_le enough)]
        rfl

theorem run_bind (e : Exchange α) (f : α → Exchange β) (d : Dialogue) :
    (e >>= f).run nonce d = match e.run nonce d with
      | (.ok a, d) => (f a).run nonce d
      | (.error error, d) => (.error error, d) := by
  show (e.bind f).run nonce d = _
  induction e generalizing d with
  | done result => cases result <;> rfl
  | take count short next ih =>
      simp only [Exchange.bind, run]
      split
      · rfl
      · exact ih _ _
  | send bytes next ih => exact ih _
  | draw next ih => exact ih _ _

theorem bind_assoc {γ : Type} (e : Exchange α) (f : α → Exchange β) (g : β → Exchange γ) :
    e >>= f >>= g = e >>= fun a => f a >>= g := by
  show (e.bind f).bind g = e.bind fun a => (f a).bind g
  induction e with
  | done result => cases result <;> rfl
  | take count short next ih =>
      simp only [Exchange.bind]
      exact congrArg _ (funext ih)
  | send bytes next ih =>
      simp only [Exchange.bind]
      rw [ih]
  | draw next ih =>
      simp only [Exchange.bind]
      exact congrArg _ (funext ih)

theorem run_bind_ok {f : α → Exchange β} {b : β} :
    (e >>= f).run nonce d = (.ok b, d') ↔
      ∃ a mid, e.run nonce d = (.ok a, mid) ∧ (f a).run nonce mid = (.ok b, d') := by
  rw [run_bind]
  rcases e.run nonce d with ⟨_ | a, mid⟩
  · simp
  · constructor
    · intro h
      exact ⟨a, mid, rfl, h⟩
    · rintro ⟨_, _, h, hf⟩
      cases h
      exact hf

theorem run_read_bind_ok {r : Reader WireError α} {f : α → Exchange β} {b : β} :
    (read r >>= f).run nonce ⟨stream, [], said⟩ = (.ok b, d') ↔
      ∃ a rest, r.run stream = (.ok a, rest) ∧ (f a).run nonce ⟨rest, [], said⟩ = (.ok b, d') := by
  rw [run_bind, run_read]
  rcases r.run stream with ⟨_ | a, rest⟩
  · constructor
    · nofun
    · rintro ⟨_, _, h, -⟩
      cases h
  · constructor
    · intro h
      exact ⟨a, rest, rfl, h⟩
    · rintro ⟨_, _, h, hf⟩
      cases h
      exact hf

theorem run_u8_bind_ok {f : UInt8 → Exchange α} {a : α} :
    (read Reader.u8 >>= f).run nonce ⟨stream, [], said⟩ = (.ok a, d') ↔
      ∃ b rest, stream = b :: rest ∧ (f b).run nonce ⟨rest, [], said⟩ = (.ok a, d') := by
  simp only [run_read_bind_ok, Reader.run_u8_ok]

theorem run_u32_bind_ok {f : UInt32 → Exchange α} {a : α} :
    (read Reader.u32 >>= f).run nonce ⟨stream, [], said⟩ = (.ok a, d') ↔
      ∃ w rest, stream = Bytes.ofUInt32 w ++ rest ∧
        (f w).run nonce ⟨rest, [], said⟩ = (.ok a, d') := by
  simp only [run_read_bind_ok, Reader.run_u32_ok]

end

/-! ## What is said -/

/-- Every run that it sends has the property, whatever it takes. -/
def Says (nonce : Bytes) (P : Bytes → Prop) : Exchange α → Prop
  | .done _ => True
  | .take _ _ next => ∀ piece, Says nonce P (next piece)
  | .send bytes next => P bytes ∧ Says nonce P next
  | .draw next => Says nonce P (next nonce)

namespace Says

variable {P : Bytes → Prop}

theorem read (r : Reader WireError α) : Says nonce P (read r) := by
  induction r with
  | done result => exact trivial
  | take count short next ih => exact ih

theorem bind {f : α → Exchange β} (h : Says nonce P e) (hf : ∀ a, Says nonce P (f a)) :
    Says nonce P (e >>= f) := by
  show Says nonce P (e.bind f)
  induction e with
  | done result =>
      cases result with
      | ok a => exact hf a
      | error error => exact trivial
  | take count short next ih => exact fun piece => ih piece (h piece)
  | send bytes next ih => exact ⟨h.1, ih h.2⟩
  | draw next ih => exact ih _ h

theorem sent_await (count : Nat) (d : Dialogue) : (d.await count).sent = d.sent := by
  have go (moves : List PeerMove) (input : Bytes) :
      (Dialogue.await.go d count moves input).sent = d.sent := by
    induction moves generalizing input with
    | nil => rfl
    | cons move moves ih =>
        rw [Dialogue.await.go]
        split
        · rfl
        · exact ih _
  exact go _ _

theorem run (h : Says nonce P e) (d : Dialogue) (before : ∀ bytes ∈ d.sent, P bytes) :
    ∀ bytes ∈ (e.run nonce d).2.sent, P bytes := by
  induction e generalizing d with
  | done result => exact before
  | take count short next ih =>
      simp only [Exchange.run]
      split
      · rwa [sent_await]
      · exact ih _ (h _) _ (by rwa [sent_await])
  | send bytes next ih =>
      refine ih h.2 _ ?_
      rintro _ (_ | ⟨_, mem⟩)
      · exact h.1
      · exact before _ mem
  | draw next ih => exact ih _ h _ before

end Says

end RemoteFramebuffer.Exchange
