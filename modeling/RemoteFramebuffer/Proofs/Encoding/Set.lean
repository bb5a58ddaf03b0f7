/-
# `RemoteFramebuffer.Proofs.Encoding.Set` — encodings and their numbers, in order and each once

An encoding and its number are the same thing: every encoding is found by its number, and what is
found by a number has it (`ofWire?_eq_some_iff`).  So a set can be told by its numbers, and all
questions that are asked of it by a number are questions about that list:

    numbers to a set       the known ones, each where it comes first      (`listsFirst_ofWire`)
    a set to numbers       gives the set again                            (`ofWire_toWire`)
    is there a codec       the number is listed and carries rectangles    (`codecFor?_eq_some_iff`)
    what is left of        the numbers that are listed                    (`intersect_eq`)

Sets come about by adding and removing.  What is in the end is what was added and not removed
afterwards, or was there from the start and never removed (`mem_edited`).
-/
import Mathlib.Data.List.Induction
import RemoteFramebuffer.Encoding.Set

namespace RemoteFramebuffer

/-! ## Numbers -/

namespace Encoding

theorem ofWire?_wire (e : Encoding) : ofWire? e.wire = some e := by
  cases e with
  | compressLevel level => revert level; decide
  | qualityLevel level => revert level; decide
  | _ => decide

theorem ofWire?_eq_some_iff {value : Int32} {e : Encoding} :
    ofWire? value = some e ↔ e.wire = value := by
  constructor
  · intro found
    simpa using List.find?_some found
  · rintro rfl
    exact e.ofWire?_wire

theorem wire_injective {d e : Encoding} (same : d.wire = e.wire) : d = e := by
  have found := d.ofWire?_wire
  rw [same, e.ofWire?_wire] at found
  exact (Option.some.inj found).symm

def IsKnown (value : Int32) : Prop := ∃ e : Encoding, e.wire = value

theorem not_isKnown {value : Int32} (unknown : ofWire? value = none) : ¬ IsKnown value := by
  rintro ⟨e, rfl⟩
  rw [e.ofWire?_wire] at unknown
  cases unknown

end Encoding

namespace EncodingSet

open Encoding

variable {s : EncodingSet} {d e : Encoding} {value : Int32}

/-! ## Members -/

theorem eq_of_members_eq {t : EncodingSet} (same : s.members = t.members) : s = t := by
  cases s
  cases t
  cases same
  rfl

theorem members_insert_of_mem (mem : e ∈ s.members) : (s.insert e).members = s.members := by
  rw [insert, dif_pos mem]

theorem members_insert_of_not_mem (new : e ∉ s.members) :
    (s.insert e).members = s.members ++ [e] := by
  rw [insert, dif_neg new]

theorem mem_insert : d ∈ (s.insert e).members ↔ d ∈ s.members ∨ d = e := by
  by_cases mem : e ∈ s.members
  · rw [members_insert_of_mem mem, or_iff_left_of_imp]
    rintro rfl
    exact mem
  · rw [members_insert_of_not_mem mem, List.mem_append, List.mem_singleton]

theorem mem_erase : d ∈ (s.erase e).members ↔ d ∈ s.members ∧ d ≠ e := by
  rw [erase, List.mem_filter, decide_eq_true_eq]

theorem mem_toWire : value ∈ s.toWire ↔ ∃ e ∈ s.members, e.wire = value := List.mem_map

theorem wire_mem_toWire : e.wire ∈ s.toWire ↔ e ∈ s.members := by
  rw [mem_toWire]
  constructor
  · rintro ⟨d, mem, same⟩
    exact wire_injective same ▸ mem
  · exact fun mem => ⟨e, mem, rfl⟩

theorem nodup_toWire (s : EncodingSet) : s.toWire.Nodup :=
  List.Pairwise.map Encoding.wire (fun _ _ other same => other (wire_injective same)) s.nodup

/-! ## Adding and removing -/

inductive Edit
  | insert (e : Encoding)
  | erase (e : Encoding)

def Edit.apply : Edit → EncodingSet → EncodingSet
  | .insert e, s => s.insert e
  | .erase e, s => s.erase e

def edited (s : EncodingSet) (edits : List Edit) : EncodingSet :=
  edits.foldl (fun s edit => edit.apply s) s

/-- The encoding is added and not removed afterwards. -/
def PutIn (e : Encoding) (edits : List Edit) : Prop :=
  ∃ before after, edits = before ++ .insert e :: after ∧ .erase e ∉ after

theorem putIn_cons {edit : Edit} {edits : List Edit} :
    PutIn e (edit :: edits) ↔ (edit = .insert e ∧ .erase e ∉ edits) ∨ PutIn e edits := by
  constructor
  · rintro ⟨before, after, split, kept⟩
    cases before with
    | nil =>
      cases split
      exact .inl ⟨rfl, kept⟩
    | cons first before =>
      cases split
      exact .inr ⟨before, after, rfl, kept⟩
  · rintro (⟨rfl, kept⟩ | ⟨before, after, rfl, kept⟩)
    · exact ⟨[], edits, rfl, kept⟩
    · exact ⟨edit :: before, after, rfl, kept⟩

/-- **What is in a set in the end.** -/
theorem mem_edited {edits : List Edit} :
    e ∈ (s.edited edits).members ↔ PutIn e edits ∨ e ∈ s.members ∧ .erase e ∉ edits := by
  induction edits generalizing s with
  | nil =>
    have nothing : ¬ PutIn e [] := by
      rintro ⟨before, after, split, -⟩
      exact List.append_ne_nil_of_right_ne_nil before (List.cons_ne_nil _ after) split.symm
    simp [edited, nothing]
  | cons edit edits ih =>
    have rest : e ∈ (s.edited (edit :: edits)).members ↔
        PutIn e edits ∨ e ∈ (edit.apply s).members ∧ .erase e ∉ edits := ih
    rw [rest, putIn_cons, List.mem_cons, not_or]
    cases edit with
    | insert d =>
      rw [Edit.apply, mem_insert, Edit.insert.injEq, eq_comm (a := d)]
      simp only [reduceCtorEq, not_false_eq_true, true_and]
      tauto
    | erase d =>
      rw [Edit.apply, mem_erase, Edit.erase.injEq]
      simp only [reduceCtorEq, false_and, false_or, and_assoc]

/-! ## Lists of numbers -/

theorem ofList_append (encodings : List Encoding) :
    ofList (encodings ++ [e]) = (ofList encodings).insert e := by
  rw [ofList, List.foldl_append]
  rfl

theorem members_ofList {encodings : List Encoding} (nodup : encodings.Nodup) :
    (ofList encodings).members = encodings := by
  induction encodings using List.reverseRecOn with
  | nil => rfl
  | append_singleton encodings e ih =>
    obtain ⟨front, -, apart⟩ := List.nodup_append.mp nodup
    have new : e ∉ (ofList encodings).members := by
      rw [ih front]
      exact fun mem => apart e mem e (List.mem_singleton_self e) rfl
    rw [ofList_append, members_insert_of_not_mem new, ih front]

theorem ofWire_toWire (s : EncodingSet) : ofWire s.toWire = s := by
  have known : s.toWire.filterMap ofWire? = s.members := by
    have back : ofWire? ∘ Encoding.wire = some := funext ofWire?_wire
    rw [toWire, List.filterMap_map, back, List.filterMap_some]
  refine eq_of_members_eq ?_
  rw [ofWire, known, members_ofList s.nodup]

theorem ofWire_append_of_none {values : List Int32} (unknown : ofWire? value = none) :
    ofWire (values ++ [value]) = ofWire values := by
  rw [ofWire, List.filterMap_append, List.filterMap_cons_none unknown, List.filterMap_nil,
    List.append_nil, ofWire]

theorem ofWire_append_wire {values : List Int32} :
    ofWire (values ++ [e.wire]) = (ofWire values).insert e := by
  rw [ofWire, List.filterMap_append, List.filterMap_cons_some e.ofWire?_wire, List.filterMap_nil,
    ofList_append, ofWire]

/-- The known ones of some numbers, each where it comes first. -/
structure ListsFirst (values found : List Int32) : Prop where
  mem_iff : ∀ value, value ∈ found ↔ value ∈ values ∧ IsKnown value
  in_order : found.Pairwise fun v w => values.idxOf v < values.idxOf w

namespace ListsFirst

variable {values found : List Int32}

theorem in_order_append (lists : ListsFirst values found) (value : Int32) :
    found.Pairwise fun v w => (values ++ [value]).idxOf v < (values ++ [value]).idxOf w := by
  refine lists.in_order.imp_of_mem fun {v w} memV memW before => ?_
  rw [List.idxOf_append, List.idxOf_append, if_pos ((lists.mem_iff v).mp memV).1,
    if_pos ((lists.mem_iff w).mp memW).1]
  exact before

/-- A number that is not known, or listed already, changes nothing. -/
theorem append_of_old (lists : ListsFirst values found) (old : IsKnown value → value ∈ values) :
    ListsFirst (values ++ [value]) found where
  mem_iff v := by
    rw [lists.mem_iff, List.mem_append, List.mem_singleton]
    refine and_congr_left fun known => ?_
    rw [or_iff_left_of_imp]
    rintro rfl
    exact old known
  in_order := lists.in_order_append value

theorem append_of_new (lists : ListsFirst values found) (known : IsKnown value)
    (new : value ∉ values) : ListsFirst (values ++ [value]) (found ++ [value]) where
  mem_iff v := by
    rw [List.mem_append, List.mem_append, List.mem_singleton, lists.mem_iff, or_and_right]
    refine or_congr_right ⟨?_, And.left⟩
    rintro rfl
    exact ⟨rfl, known⟩
  in_order := by
    refine List.pairwise_append.mpr ⟨lists.in_order_append value, List.pairwise_singleton _ _, ?_⟩
    intro v memV w memW
    obtain rfl := List.mem_singleton.mp memW
    have memV := ((lists.mem_iff v).mp memV).1
    rw [List.idxOf_append, List.idxOf_append, if_pos memV, if_neg new]
    exact Nat.lt_of_lt_of_le (List.idxOf_lt_length_of_mem memV) (Nat.le_add_left _ _)

end ListsFirst

/-- **The set of a list of numbers** lists the known ones, each where it comes first. -/
theorem listsFirst_ofWire (values : List Int32) : ListsFirst values (ofWire values).toWire := by
  induction values using List.reverseRecOn with
  | nil => exact ⟨fun _ => iff_of_false List.not_mem_nil (List.not_mem_nil ·.1), .nil⟩
  | append_singleton values value ih =>
    cases found : ofWire? value with
    | none =>
      rw [ofWire_append_of_none found]
      exact ih.append_of_old fun known => absurd known (not_isKnown found)
    | some e =>
      obtain rfl := ofWire?_eq_some_iff.mp found
      have listed : e ∈ (ofWire values).members ↔ e.wire ∈ values := by
        rw [← wire_mem_toWire, ih.mem_iff]
        exact and_iff_left ⟨e, rfl⟩
      rw [ofWire_append_wire]
      by_cases old : e.wire ∈ values
      · rw [toWire, members_insert_of_mem (listed.mpr old)]
        exact ih.append_of_old fun _ => old
      · rw [toWire, members_insert_of_not_mem (fun mem => old (listed.mp mem)), List.map_append]
        exact ih.append_of_new ⟨e, rfl⟩ old

/-! ## Questions by number -/

theorem codecFor?_eq_some_iff :
    s.codecFor? value = some e ↔
      e ∈ s.members ∧ e.wire = value ∧ e.carriesRectangle = true := by
  rw [codecFor?, Option.filter_eq_some_iff, ofWire?_eq_some_iff, Bool.and_eq_true, contains,
    List.contains_iff_mem, and_left_comm]

theorem wire_of_codecFor? (found : s.codecFor? value = some e) : e.wire = value :=
  (codecFor?_eq_some_iff.mp found).2.1

theorem carriesRectangle_of_codecFor? (found : s.codecFor? value = some e) :
    e.carriesRectangle = true :=
  (codecFor?_eq_some_iff.mp found).2.2

/-- An encoding that some set takes for a number is taken for it by the set of all. -/
theorem codecFor?_all (found : s.codecFor? value = some e) : all.codecFor? value = some e := by
  obtain ⟨-, wire, carries⟩ := codecFor?_eq_some_iff.mp found
  have complete : e ∈ all.members := by
    cases e with
    | compressLevel level => cases carries
    | qualityLevel level => cases carries
    | qemuExtendedKeyEvent => cases carries
    | fence => cases carries
    | continuousUpdates => cases carries
    | _ => decide
  exact codecFor?_eq_some_iff.mpr ⟨complete, wire, carries⟩

theorem intersect_eq (s : EncodingSet) (requested : List Int32) :
    s.intersect requested = requested.filter (· ∈ s.toWire) := by
  refine List.filter_congr fun value _ => ?_
  rw [Bool.eq_iff_iff, decide_eq_true_eq, Option.any_eq_true, mem_toWire]
  constructor
  · rintro ⟨e, found, mem⟩
    exact ⟨e, List.contains_iff_mem.mp mem, ofWire?_eq_some_iff.mp found⟩
  · rintro ⟨e, mem, rfl⟩
    exact ⟨e, e.ofWire?_wire, List.contains_iff_mem.mpr mem⟩

/-- **An encoding set is an ordered set of numbers**, whatever it was at first and however it was
changed since: it has none twice, it is read back from its numbers, and it answers by them. -/
theorem ordered_without_duplicates (origin : EncodingSet) (edits : List Edit) :
    let s := origin.edited edits
    (s.members.Nodup ∧ s.toWire.Nodup) ∧
      (∀ e, e ∈ s.members ↔ PutIn e edits ∨ e ∈ origin.members ∧ .erase e ∉ edits) ∧
      ofWire s.toWire = s ∧
      (∀ values, ListsFirst values (ofWire values).toWire) ∧
      (∀ value e, s.codecFor? value = some e ↔
        value ∈ s.toWire ∧ e.wire = value ∧ e.carriesRectangle = true) ∧
      ∀ requested, s.intersect requested = requested.filter (· ∈ s.toWire) := by
  intro s
  refine ⟨⟨s.nodup, s.nodup_toWire⟩, fun e => mem_edited, s.ofWire_toWire, listsFirst_ofWire,
    fun value e => ?_, s.intersect_eq⟩
  rw [codecFor?_eq_some_iff]
  refine and_congr_left ?_
  rintro ⟨rfl, -⟩
  exact wire_mem_toWire.symm

end EncodingSet

end RemoteFramebuffer
