/-
# `RemoteFramebuffer.Proofs.Session.Bookkeeping` — what a session notes of the updates it sees

## What is proved

Of every state, all lists of rectangles and all runs of updates, sent or received
(`bookkeeping_regroups`):

    one update of `first ++ second`          leaves the state of an update of `first` and one of
                                             `second`, but for the name
    the name as well                         ⟺  not both carry a name, or they carry the same
    the extent after a run of updates        is that of the last rectangle of all that resizes
    the name after a run of updates          is the first one in the last update that carries any

## How it is proved

Of an update a session notes the extent that it announces and the name that it carries, and nothing
else.  Each is found by a search of its own over the rectangles of the update, for the extent from
the last and for the name from the first.  What was noted last stands.

So the extent does not depend on how the rectangles are dealt out to updates.  The name does, as soon
as an update carries two names that differ.
-/
import RemoteFramebuffer.Session.State

namespace RemoteFramebuffer

/-! ## What rectangles announce -/

namespace EncodedRect

variable {first second : List EncodedRect}

/-- The extent of the last of some rectangles that resizes the desktop. -/
def lastSize? (rects : List EncodedRect) : Option (UInt16 × UInt16) :=
  (rects.reverse.find? FramebufferUpdate.resizesDesktop).map fun rect =>
    (rect.header.area.width, rect.header.area.height)

/-- The name that the first of some rectangles with a name carries. -/
def firstName? (rects : List EncodedRect) : Option String := rects.findSome? (·.codec.desktopName?)

/-- The name that the last of some rectangles with a name carries. -/
def lastName? (rects : List EncodedRect) : Option String :=
  rects.reverse.findSome? (·.codec.desktopName?)

theorem lastSize?_append :
    lastSize? (first ++ second) = (lastSize? second).or (lastSize? first) := by
  simp only [lastSize?, List.reverse_append, List.find?_append, Option.map_or]

theorem firstName?_append :
    firstName? (first ++ second) = (firstName? first).or (firstName? second) :=
  List.findSome?_append

theorem lastName?_append :
    lastName? (first ++ second) = (lastName? second).or (lastName? first) := by
  simp only [lastName?, List.reverse_append, List.findSome?_append]

end EncodedRect

open EncodedRect (lastSize? firstName? lastName? lastSize?_append firstName?_append
  lastName?_append)

/-! ## What is noted -/

namespace SessionState

variable (s : SessionState)

/-- The state with a name and an extent noted, where there are any. -/
def noted (name : Option String) (size : Option (UInt16 × UInt16)) : SessionState :=
  { s with
    desktop.name := name.getD s.desktop.name
    desktop.width := (size.getD (s.desktop.width, s.desktop.height)).1
    desktop.height := (size.getD (s.desktop.width, s.desktop.height)).2 }

theorem noted_noted (name name' : Option String) (size size' : Option (UInt16 × UInt16)) :
    (s.noted name size).noted name' size' = s.noted (name'.or name) (size'.or size) := by
  cases name' <;> cases size' <;> rfl

theorem noted_eq_noted_iff {name name' : Option String} {size : Option (UInt16 × UInt16)} :
    s.noted name size = s.noted name' size ↔ name.getD s.desktop.name = name'.getD s.desktop.name :=
  ⟨fun h => congrArg (·.desktop.name) h, fun h => by rw [noted, noted, h]⟩

theorem afterUpdate_eq (u : FramebufferUpdate) :
    s.afterUpdate u = s.noted (firstName? u.rects) (lastSize? u.rects) := by
  show s.afterUpdate u = s.noted u.desktopName? u.desktopSize?
  unfold afterUpdate
  cases u.desktopName? <;> cases u.desktopSize? <;> rfl

/-- The state after an update was sent, or after it was received. -/
def afterSeen (sent : Bool) (u : FramebufferUpdate) : SessionState :=
  if sent then s.afterSent (.server (.framebufferUpdate u))
  else s.afterReceived (.server (.framebufferUpdate u))

theorem afterSeen_eq (sent : Bool) (u : FramebufferUpdate) :
    s.afterSeen sent u = s.noted (firstName? u.rects) (lastSize? u.rects) := by
  rw [← afterUpdate_eq]
  cases sent <;> rfl

theorem foldl_afterSeen (sent : Bool) (updates : List FramebufferUpdate) :
    updates.foldl (·.afterSeen sent ·) s =
      s.noted (updates.reverse.findSome? (firstName? ·.rects))
        (lastSize? (updates.flatMap (·.rects))) := by
  induction updates generalizing s with
  | nil => rfl
  | cons u updates ih =>
      rw [List.foldl_cons, ih, afterSeen_eq, noted_noted, List.reverse_cons, List.findSome?_append,
        List.flatMap_cons, lastSize?_append]
      cases named : firstName? u.rects <;> simp [named]

/-- Where no update carries names that differ, the name of the last that carries one is that of the
last rectangle that does. -/
theorem findSome?_firstName? {updates : List FramebufferUpdate}
    (plain : ∀ u ∈ updates, firstName? u.rects = lastName? u.rects) :
    updates.reverse.findSome? (firstName? ·.rects) = lastName? (updates.flatMap (·.rects)) := by
  induction updates with
  | nil => rfl
  | cons u updates ih =>
      rw [List.reverse_cons, List.findSome?_append,
        ih fun u mem => plain u (List.mem_cons_of_mem _ mem), List.flatMap_cons, lastName?_append,
        ← plain u List.mem_cons_self]
      cases named : firstName? u.rects <;> simp [named]

/-- **How rectangles are dealt out to updates is seen in the name alone.**  An update with some
rectangles and then others leaves the same state as an update with the ones and an update with the
others, but for the name; and the same name too, unless both carry a name and these differ.  After
a run of updates the extent is that of the last rectangle of all that resizes the desktop, and the
name is the first in the last update that carries one: the last of all if no update carries names
that differ. -/
theorem bookkeeping_regroups (sent : Bool) (s : SessionState) (first second : List EncodedRect)
    (count count' count'' : UInt16) (updates : List FramebufferUpdate) :
    let whole := s.afterSeen sent ⟨count, first ++ second⟩
    let parts := (s.afterSeen sent ⟨count', first⟩).afterSeen sent ⟨count'', second⟩
    let final := updates.foldl (·.afterSeen sent ·) s
    let rects := updates.flatMap (·.rects)
    whole = { parts with desktop.name := whole.desktop.name } ∧
    (whole = parts ↔ ∀ name name', firstName? first = some name → firstName? second = some name' →
      name = name') ∧
    (final.desktop.width, final.desktop.height) =
      (lastSize? rects).getD (s.desktop.width, s.desktop.height) ∧
    final.desktop.name = (updates.reverse.findSome? (firstName? ·.rects)).getD s.desktop.name ∧
    ((∀ u ∈ updates, firstName? u.rects = lastName? u.rects) →
      final.desktop.name = (lastName? rects).getD s.desktop.name) := by
  intro whole parts final rects
  have whole_eq : whole = s.noted ((firstName? first).or (firstName? second))
      ((lastSize? second).or (lastSize? first)) := by
    rw [← firstName?_append, ← lastSize?_append]
    exact s.afterSeen_eq sent _
  have parts_eq : parts = s.noted ((firstName? second).or (firstName? first))
      ((lastSize? second).or (lastSize? first)) := by
    rw [← noted_noted, ← afterSeen_eq s sent ⟨count', first⟩]
    exact afterSeen_eq _ sent _
  have final_eq := s.foldl_afterSeen sent updates
  refine ⟨?_, ?_, congrArg (fun s : SessionState => (s.desktop.width, s.desktop.height)) final_eq,
    congrArg (·.desktop.name) final_eq, fun plain => ?_⟩
  · rw [parts_eq, whole_eq]
    rfl
  · rw [whole_eq, parts_eq, noted_eq_noted_iff]
    cases firstName? first <;> cases firstName? second <;> simp
  · rw [← findSome?_firstName? plain]
    exact congrArg (·.desktop.name) final_eq

def naming (letter : UInt8) : EncodedRect :=
  { header := ⟨⟨0, 0, 0, 0⟩, Encoding.desktopName.wire⟩
    codec := ⟨.desktopName, [0, 0, 0, 1, letter]⟩ }

/-- Two names that come in one update: the first is noted.  Had they come in two updates it would be
the last. -/
theorem names_told_together :
    let s := make .client .v38 .none EncodingSet.empty
    let whole := s.afterSeen false ⟨2, [naming 0x41] ++ [naming 0x42]⟩
    let parts := (s.afterSeen false ⟨1, [naming 0x41]⟩).afterSeen false ⟨1, [naming 0x42]⟩
    whole ≠ parts ∧ whole.desktop.name = "A" ∧ parts.desktop.name = "B" ∧
      lastName? ([naming 0x41] ++ [naming 0x42]) = some "B" := by
  intro s whole parts
  have first : whole.desktop.name = "A" := congrArg (·.desktop.name) (s.afterSeen_eq false _)
  have last : parts.desktop.name = "B" := congrArg (·.desktop.name) (afterSeen_eq _ false _)
  refine ⟨fun same => ?_, first, last, rfl⟩
  have names := first.symm.trans ((congrArg (·.desktop.name) same).trans last)
  exact absurd names (by decide)

end SessionState

end RemoteFramebuffer
