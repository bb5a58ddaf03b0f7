/-
# `RemoteFramebuffer.Session.Queue` — a bounded queue with one sender

A queue holds as many items as it has capacity for.  One more may wait at its end: the
sender is held up until there is room.  Items leave in the order in which they came,
the one that waits last.
-/

namespace RemoteFramebuffer

structure Queue (α : Type) where
  capacity : Nat
  items : List α
  /-- What the sender could not put in yet. -/
  waiting : Option α
deriving DecidableEq, Repr

namespace Queue

variable {α : Type}

def empty (capacity : Nat) : Queue α := ⟨capacity, [], none⟩

/-- Everything that was offered and not taken, in order. -/
def toList (q : Queue α) : List α := q.items ++ q.waiting.toList

/-- Puts an item in if there is room, and lets it wait otherwise. -/
def offer (q : Queue α) (a : α) : Queue α :=
  if q.items.length < q.capacity then { q with items := q.items ++ [a] }
  else { q with waiting := some a }

/-- The first item; what waits moves into the room that it leaves. -/
def take (q : Queue α) : Option (α × Queue α) :=
  match q.toList with
  | [] => none
  | a :: rest => some (a, { q with items := rest, waiting := none })

def withdraw (q : Queue α) : Queue α := { q with waiting := none }

def isHeldUp (q : Queue α) : Bool := q.waiting.isSome

theorem toList_empty (capacity : Nat) : (empty capacity : Queue α).toList = [] := rfl

theorem toList_offer {q : Queue α} (h : q.waiting = none) (a : α) :
    (q.offer a).toList = q.toList ++ [a] := by
  unfold offer
  split <;> simp [toList, h]

theorem take_eq_some {q r : Queue α} {a : α} (h : q.take = some (a, r)) :
    q.toList = a :: r.toList := by
  unfold take at h
  split at h
  · simp at h
  · rename_i b rest contents
    simp only [Option.some.injEq, Prod.mk.injEq] at h
    obtain ⟨rfl, rfl⟩ := h
    simpa [toList] using contents

theorem take_eq_none {q : Queue α} : q.take = none ↔ q.toList = [] := by
  unfold take
  split <;> simp_all

end Queue

end RemoteFramebuffer
