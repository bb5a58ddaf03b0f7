/-
# `RemoteFramebuffer.Encoding.Set` — the encodings that a session accepts

The order is that of preference, and no encoding occurs twice.
-/
import RemoteFramebuffer.Encoding.Basic

namespace RemoteFramebuffer

structure EncodingSet where
  members : List Encoding
  nodup : members.Nodup
deriving DecidableEq

namespace EncodingSet

def empty : EncodingSet := ⟨[], List.nodup_nil⟩

def contains (s : EncodingSet) (e : Encoding) : Bool := s.members.contains e

/-- Adds an encoding at the end, unless it is there already. -/
def insert (s : EncodingSet) (e : Encoding) : EncodingSet :=
  if h : e ∈ s.members then s
  else
    { members := s.members ++ [e]
      nodup := by
        rw [List.nodup_append]
        refine ⟨s.nodup, by simp, ?_⟩
        intro a ha b hb eq
        rw [List.mem_singleton.mp hb] at eq
        exact h (eq ▸ ha) }

def erase (s : EncodingSet) (e : Encoding) : EncodingSet :=
  ⟨s.members.filter (· ≠ e), s.nodup.sublist List.filter_sublist⟩

/-- The members of a list, each where it comes first. -/
def ofList (encodings : List Encoding) : EncodingSet := encodings.foldl insert empty

/-- The encodings of a list of numbers; numbers that are not known are left out. -/
def ofWire (values : List Int32) : EncodingSet := ofList (values.filterMap Encoding.ofWire?)

def toWire (s : EncodingSet) : List Int32 := s.members.map (·.wire)

/-- What a session accepts if it is not told otherwise. -/
def standard : EncodingSet :=
  ofList [.zrle, .hextile, .copyRect, .raw, .cursor, .desktopName, .desktopSize, .pointerPos,
    .extendedDesktopSize, .cursorWithAlpha, .ledState, .xCursor, .lastRect]

instance : Inhabited EncodingSet := ⟨standard⟩

def all : EncodingSet :=
  [.tight, .tightPng, .zlib, .coRre, .rre, .h264].foldl insert standard

/-- The encoding of a rectangle with this number, if such rectangles are accepted. -/
def codecFor? (s : EncodingSet) (value : Int32) : Option Encoding :=
  (Encoding.ofWire? value).filter fun e => s.contains e && e.carriesRectangle

/-- The numbers among `requested` whose encodings are in the set, in their order. -/
def intersect (s : EncodingSet) (requested : List Int32) : List Int32 :=
  requested.filter fun value => (Encoding.ofWire? value).any s.contains

end EncodingSet

end RemoteFramebuffer
