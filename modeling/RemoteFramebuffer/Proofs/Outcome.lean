/-
# `RemoteFramebuffer.Proofs.Outcome` — what a computation that may fail ends with

`Outcome P Q x` says that `x` is an error with `P` or a value with `Q`.  It is closed under
the operations that such computations are built with.  A guarded computation is safe if its
errors satisfy nothing at all: every step that it tests can be taken.
-/
import RemoteFramebuffer.Fault

namespace RemoteFramebuffer

variable {ε ε' α β γ : Type}

/-- An error with `P` or a value with `Q`. -/
def Outcome (P : ε → Prop) (Q : α → Prop) : Except ε α → Prop
  | .error e => P e
  | .ok a => Q a

namespace Outcome

variable {P : ε → Prop} {P' : ε' → Prop} {Q : α → Prop} {R : β → Prop}

theorem pure {a : α} (h : Q a) : Outcome P Q (Pure.pure a : Except ε α) := h

theorem mono {x : Except ε α} {P₁ : ε → Prop} {Q₁ : α → Prop} (h : Outcome P Q x)
    (hP : ∀ e, P e → P₁ e) (hQ : ∀ a, Q a → Q₁ a) : Outcome P₁ Q₁ x := by
  cases x with
  | error e => exact hP e h
  | ok a => exact hQ a h

theorem bind {x : Except ε α} {f : α → Except ε β} (hx : Outcome P Q x)
    (hf : ∀ a, Q a → Outcome P R (f a)) : Outcome P R (x >>= f) := by
  cases x with
  | error e => exact hx
  | ok a => exact hf a hx

theorem map {x : Except ε α} {f : α → β} (hx : Outcome P Q x) (hf : ∀ a, Q a → R (f a)) :
    Outcome P R (f <$> x) := by
  cases x with
  | error e => exact hx
  | ok a => exact hf a hx

theorem mapError {x : Except ε α} {f : ε → ε'} (hx : Outcome P Q x)
    (hf : ∀ e, P e → P' (f e)) : Outcome P' Q (x.mapError f) := by
  cases x with
  | error e => exact hf e hx
  | ok a => exact hx

theorem eq_ok_of_isOk {x : Except ε Unit} (h : x.isOk = true) : x = .ok () := by
  cases x with
  | error e => cases h
  | ok => rfl

theorem eq_ok_of_toOption {x : Except ε α} {a : α} (h : x.toOption = some a) : x = .ok a := by
  cases x with
  | error e => cases h
  | ok b => exact congrArg Except.ok (Option.some.inj h)

theorem mapM_congr {f g : α → Except ε β} {l : List α} (h : ∀ a ∈ l, f a = g a) :
    l.mapM f = l.mapM g := by
  induction l with
  | nil => rfl
  | cons a l ih =>
      rw [List.mapM_cons, List.mapM_cons, h a List.mem_cons_self,
        ih fun a mem => h a (List.mem_cons_of_mem _ mem)]

theorem mapM_eq_ok {f : α → Except ε β} {g : α → β} {l : List α} (h : ∀ a ∈ l, f a = .ok (g a)) :
    l.mapM f = .ok (l.map g) := (mapM_congr h).trans List.mapM_pure

theorem mapM_eq_error {f : α → Except ε β} {l : List α} {a : α} (mem : a ∈ l) {e : ε}
    (h : f a = .error e) : ∃ b ∈ l, ∃ e, f b = .error e ∧ l.mapM f = .error e := by
  induction l with
  | nil => cases mem
  | cons b l ih =>
      cases first : f b with
      | error e =>
          refine ⟨b, List.mem_cons_self, e, first, ?_⟩
          rw [List.mapM_cons, first]
          rfl
      | ok b' =>
          have later : a ∈ l := by
            rcases List.mem_cons.mp mem with rfl | later
            · rw [h] at first
              cases first
            · exact later
          obtain ⟨c, mem, e, fails, all⟩ := ih later
          refine ⟨c, List.mem_cons_of_mem _ mem, e, fails, ?_⟩
          rw [List.mapM_cons, first, all]
          rfl

theorem mapM_flatMap (f : β → Except ε γ) (row : α → List β) (l : List α) :
    l.mapM (fun a => (row a).mapM f) >>= (fun rows => .ok rows.flatten) =
      (l.flatMap row).mapM f := by
  induction l with
  | nil => rfl
  | cons a l ih =>
      rw [List.flatMap_cons, List.mapM_append, ← ih, List.mapM_cons]
      cases (row a).mapM f with
      | error e => rfl
      | ok first =>
          cases l.mapM fun a => (row a).mapM f <;> rfl

theorem mapM {f : α → Except ε β} {l : List α} (hf : ∀ a ∈ l, Outcome P R (f a)) :
    Outcome P (fun bs => bs.length = l.length ∧ ∀ b ∈ bs, R b) (l.mapM f) := by
  induction l with
  | nil => exact pure ⟨rfl, nofun⟩
  | cons a l ih =>
      rw [List.mapM_cons]
      refine bind (hf a List.mem_cons_self) fun b hb => ?_
      refine bind (ih fun a mem => hf a (List.mem_cons_of_mem _ mem)) fun bs hbs => ?_
      refine pure ⟨by simp [hbs.1], fun b' mem => ?_⟩
      rcases List.mem_cons.mp mem with rfl | mem
      · exact hb
      · exact hbs.2 b' mem

theorem forM {f : α → Except ε Unit} {l : List α}
    (hf : ∀ a ∈ l, Outcome P (fun _ => True) (f a)) : Outcome P (fun _ => True) (l.forM f) := by
  induction l with
  | nil => exact pure trivial
  | cons a l ih =>
      exact bind (hf a List.mem_cons_self) fun _ _ =>
        ih fun a mem => hf a (List.mem_cons_of_mem _ mem)

end Outcome

/-! ## Steps that can be taken -/

namespace Guarded

/-- Every step can be taken, and what comes of them satisfies `Q`. -/
def Safe (Q : α → Prop) (g : Guarded α) : Prop := Outcome (fun _ => False) Q g

theorem Safe.eq_ok {Q : α → Prop} {g : Guarded α} (h : Safe Q g) : ∃ a, g = .ok a ∧ Q a := by
  cases g with
  | error e => exact h.elim
  | ok a => exact ⟨a, rfl, h⟩

theorem Safe.eq_unit {Q : Unit → Prop} {g : Guarded Unit} (h : Safe Q g) : g = .ok () := by
  obtain ⟨_, eq, -⟩ := h.eq_ok
  exact eq

theorem Safe.forget {Q : α → Prop} {g : Guarded α} (h : Safe Q g) : Safe (fun _ => True) g :=
  h.mono (fun _ => id) fun _ _ => trivial

theorem safe_require {can : Bool} {fault : Fault} (h : can = true) :
    Safe (fun _ => True) (require can fault) := by
  rw [require, if_pos h]
  trivial

theorem safe_index {i size : Nat} (h : i < size) : Safe (fun _ => True) (index i size) :=
  safe_require (by simpa using h)

theorem safe_slice {start stop size : Nat} (h : start ≤ stop) (h' : stop ≤ size) :
    Safe (fun _ => True) (slice start stop size) :=
  safe_require (by simp [h, h'])

theorem safe_shift {amount bits : Nat} (h : amount < bits) :
    Safe (fun _ => True) (shift amount bits) :=
  safe_require (by simpa using h)

theorem safe_pieces {size : Nat} (h : size ≠ 0) : Safe (fun _ => True) (pieces size) :=
  safe_require (by simpa using h)

theorem safe_sub {a b : Nat} (h : b ≤ a) : Safe (· = a - b) (sub a b) :=
  Outcome.bind (safe_require (by simpa using h)) fun _ _ => .pure rfl

theorem sub_of_le {a b : Nat} (h : b ≤ a) : sub a b = .ok (a - b) := by
  obtain ⟨_, eq, rfl⟩ := (safe_sub h).eq_ok
  exact eq

theorem safe_get [Inhabited α] {elements : Array α} {i : Nat} (h : i < elements.size) :
    Safe (· = elements[i]) (get elements i) :=
  Outcome.bind (safe_index h) fun _ _ => .pure (by simp [h])

theorem safe_extract {elements : Array α} {start stop : Nat} (h : start ≤ stop)
    (h' : stop ≤ elements.size) :
    Safe (fun part => part.size = stop - start) (extract elements start stop) :=
  Outcome.bind (safe_slice h h') fun _ _ => .pure (by
    rw [Array.size_extract]
    omega)

theorem safe_first {count : Nat} {piece : Bytes} (h : count ≤ piece.length) :
    Safe (· = piece.take count) (first count piece) :=
  Outcome.bind (safe_require (by simpa using h)) fun _ _ => .pure rfl

end Guarded

end RemoteFramebuffer
