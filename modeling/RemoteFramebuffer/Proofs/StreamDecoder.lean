/-
# `RemoteFramebuffer.Proofs.StreamDecoder` — where payloads end is not seen in what comes out

## The loop

For every decoder, `inflate` is a run of finitely many calls (`drains_inflate`): a call that is not
the last brings down the limit of what can come, or the payload.

## Continuity

A decoder is `Eager` for a format if it hands out every byte that its input so far determines: a
call fails on a broken stream only, and leaves room only once all is handed out.  Payloads that are
inflated one after the other then come out as the same bytes inflated at once,

    s ──payload──▸ ──payload──▸ ⋯ ──payload──▸        outputs  o₁ o₂ ⋯ oₙ
    s ──────────── all at once ─────────────▸         output   o₁ ++ o₂ ++ ⋯ ++ oₙ

and the one fails where the other does (`inflateEach_iff`).  This is so from the start of a stream
and from every state that payloads lead to.  Neither the number of payloads nor the lengths of their
outputs matter: a call that fills its room is never the last but at the end of the stream, and one
that leaves room always is.

What this is *not*: a statement about how a compressed stream is read.  The format is whatever the
decoder follows, and the loop is told nothing about it.
-/
import RemoteFramebuffer.StreamDecoder

namespace RemoteFramebuffer
namespace StreamDecoder

variable [StreamDecoder] {s s' t : State} {payload out taken handed : Bytes}
  {result : Except Nat Bytes}

/-! ## The loop -/

/-- So many calls inflate what is left of a payload. -/
inductive Drains : (calls : Nat) → State → Bytes → (offset : Nat) → Except Nat Bytes → State → Prop
  | fails {s t : State} {payload : Bytes} {offset : Nat} :
      call workSpace s payload = (none, t) → Drains 1 s payload offset (.error offset) t
  | last {s t : State} {payload : Bytes} {offset : Nat} {p : Portion} :
      call workSpace s payload = (some p, t) → isLast payload p = true →
        Drains 1 s payload offset (.ok p.output) t
  | more {s mid t : State} {payload : Bytes} {offset calls : Nat} {p : Portion}
      {result : Except Nat Bytes} :
      call workSpace s payload = (some p, mid) → isLast payload p = false →
        Drains calls mid p.rest (offset + (payload.length - p.rest.length)) result t →
          Drains (calls + 1) s payload offset (result.map (p.output ++ ·)) t

theorem drains_drain (s : State) (payload : Bytes) (offset : Nat) :
    ∃ calls ≤ payload.length + limit s payload + 1,
      Drains calls s payload offset (drain s payload offset).1 (drain s payload offset).2 := by
  fun_induction drain s payload offset with
  | case1 s payload offset t fails => exact ⟨1, Nat.succ_pos _, .fails fails⟩
  | case2 s payload offset p mid run more later t drained ih =>
      obtain ⟨calls, few, drains⟩ := ih
      rw [drained] at drains
      have nearer := limit_lt run more
      exact ⟨calls + 1, by omega, .more run more drains⟩
  | case3 s payload offset p t run last =>
      exact ⟨1, Nat.succ_pos _, .last run (eq_true_of_ne_false last)⟩

/-- **The loop comes to its end.** -/
theorem drains_inflate (s : State) (payload : Bytes) :
    ∃ calls ≤ payload.length + limit s payload + 1,
      Drains calls s payload 0 (inflate s payload).1 (inflate s payload).2 :=
  drains_drain s payload 0

/-! ## Payloads one after the other -/

/-- Inflates payloads one after the other; gives the outputs. -/
def inflateEach : State → List Bytes → Option (List Bytes × State)
  | s, [] => some ([], s)
  | s, payload :: payloads =>
    match inflate s payload with
    | (.error _, _) => none
    | (.ok out, t) => (inflateEach t payloads).map (Prod.map (out :: ·) id)

theorem inflateEach_cons_ok (run : inflate s payload = (.ok out, t)) (payloads : List Bytes) :
    inflateEach s (payload :: payloads) = (inflateEach t payloads).map (Prod.map (out :: ·) id) := by
  rw [inflateEach, run]

theorem inflateEach_cons_error {offset : Nat} (run : inflate s payload = (.error offset, t))
    (payloads : List Bytes) : inflateEach s (payload :: payloads) = none := by
  rw [inflateEach, run]

theorem inflateEach_append {payloads outs : List Bytes}
    (run : inflateEach s payloads = some (outs, t)) (later : List Bytes) :
    inflateEach s (payloads ++ later) = (inflateEach t later).map (Prod.map (outs ++ ·) id) := by
  induction payloads generalizing s outs with
  | nil =>
      cases run
      show inflateEach t later = _
      cases inflateEach t later <;> rfl
  | cons payload payloads ih =>
      obtain ⟨⟨offset | out, mid⟩, first⟩ : ∃ result, inflate s payload = result := ⟨_, rfl⟩
      · rw [inflateEach_cons_error first] at run
        cases run
      · rw [inflateEach_cons_ok first] at run
        obtain ⟨⟨outs', t'⟩, rest, eq⟩ := Option.map_eq_some_iff.mp run
        cases eq
        rw [List.cons_append, inflateEach_cons_ok first, ih rest, Option.map_map]
        rfl

/-! ## What a decoder hands out -/

/-- What the bytes of a stream say. -/
structure Format where
  /-- What the first bytes determine of the output; nothing if they break the stream. -/
  output : Bytes → Option Bytes
  nil : output [] = some []
  /-- What is determined stays so. -/
  grows {taken more out : Bytes} :
    output (taken ++ more) = some out → ∃ early, output taken = some early ∧ early <+: out

/-- The bytes that calls have taken in and handed out on the way to a state. -/
inductive Reaches : State → (taken handed : Bytes) → Prop
  | fresh : Reaches fresh [] []
  | call {s t : State} {room : Nat} {taken handed used : Bytes} {p : Portion} :
      Reaches s taken handed → call room s (used ++ p.rest) = (some p, t) →
        Reaches t (taken ++ used) (handed ++ p.output)

/-- What a call may answer. -/
inductive Answer (format : Format) (room : Nat) (taken handed input : Bytes) : Option Portion → Prop
  | broken : format.output (taken ++ input) = none → Answer format room taken handed input none
  /-- The room is filled, and there may be more. -/
  | full {p : Portion} {used : Bytes} : input = used ++ p.rest → room ≤ p.output.length →
      p.ended = false → Answer format room taken handed input (some p)
  /-- All that has come is taken in, and what it determines handed out. -/
  | waits {p : Portion} : p.rest = [] → p.ended = false →
      format.output (taken ++ input) = some (handed ++ p.output) →
        Answer format room taken handed input (some p)
  /-- What comes after the end of the stream says nothing. -/
  | ends {p : Portion} {used : Bytes} : input = used ++ p.rest → p.ended = true →
      (∀ more, format.output (taken ++ used ++ more) = some (handed ++ p.output)) →
        Answer format room taken handed input (some p)

/-- Every output byte that the input so far determines is handed out, as far as there is room. -/
def Eager (format : Format) : Prop :=
  ∀ {room : Nat} {s t : State} {taken handed input : Bytes} {result : Option Portion},
    0 < room → Reaches s taken handed → call room s input = (result, t) →
      Answer format room taken handed input result

/-! ## Between payloads -/

variable {format : Format}

/-- All that has been taken in, and ignored after the end of the stream, is handed out. -/
inductive Stands (format : Format) (s : State) (taken handed : Bytes) : Prop
  | waits : Reaches s taken handed → format.output taken = some handed → Stands format s taken handed
  | ended {first : Bytes} : Reaches s first handed →
      (∀ more, format.output (first ++ more) = some handed) →
        (∀ more, format.output (taken ++ more) = some handed) → Stands format s taken handed

theorem stands_fresh (format : Format) : Stands format fresh [] [] := .waits .fresh format.nil

theorem Stands.output_eq (stands : Stands format s taken handed) : format.output taken = some handed := by
  cases stands with
  | waits _ told => exact told
  | ended _ _ told =>
      rw [← List.append_nil taken]
      exact told []

inductive Inflated (format : Format) (taken handed : Bytes) : Except Nat Bytes → State → Prop
  | broken {offset : Nat} {t : State} : format.output taken = none →
      Inflated format taken handed (.error offset) t
  | stands {out : Bytes} {t : State} : Stands format t taken (handed ++ out) →
      Inflated format taken handed (.ok out) t

theorem Inflated.after {taken handed early : Bytes} (later : Inflated format taken (handed ++ early) result t) :
    Inflated format taken handed (result.map (early ++ ·)) t := by
  cases later with
  | broken none => exact .broken none
  | stands stands =>
      rw [List.append_assoc] at stands
      exact .stands stands

/-- The last call has handed out all there is: room that is left, or nothing done, says so. -/
theorem inflated_of_last {p : Portion} (eager : Eager format) (reaches : Reaches s taken handed)
    (run : call workSpace s payload = (some p, t)) (last : isLast payload p = true) :
    Inflated format (taken ++ payload) handed (.ok p.output) t := by
  cases eager (by decide) reaches run with
  | @full _ used split filled going =>
      rw [isLast, going, decide_eq_false (Nat.not_lt_of_le filled)] at last
      have some_output : p.output.isEmpty = false :=
        List.isEmpty_eq_false_iff.mpr (List.ne_nil_of_length_pos (Nat.lt_of_lt_of_le (by decide) filled))
      simp [some_output] at last
  | waits used_up _ told =>
      have all : call workSpace s (payload ++ p.rest) = (some p, t) := by
        rwa [used_up, List.append_nil]
      exact .stands (.waits (reaches.call all) told)
  | @ends _ used split _ told =>
      subst split
      refine .stands (.ended (reaches.call run) told fun more => ?_)
      rw [← List.append_assoc taken, List.append_assoc]
      exact told _

theorem inflated_drain (eager : Eager format) (offset : Nat) (reaches : Reaches s taken handed) :
    Inflated format (taken ++ payload) handed (drain s payload offset).1 (drain s payload offset).2 := by
  fun_induction drain s payload offset generalizing taken handed with
  | case1 s payload offset t run =>
      cases eager (by decide) reaches run with
      | broken none => exact .broken none
  | case2 s payload offset p mid run more later t drained ih =>
      have split : ∃ used, payload = used ++ p.rest := by
        cases eager (by decide) reaches run with
        | full split | ends split => exact ⟨_, split⟩
        | waits used_up => exact ⟨payload, by rw [used_up, List.append_nil]⟩
      obtain ⟨used, rfl⟩ := split
      have inflated := ih (reaches.call run)
      rw [drained, List.append_assoc] at inflated
      exact inflated.after
  | case3 s payload offset p t run last =>
      exact inflated_of_last eager reaches run (eq_true_of_ne_false last)

/-- **One payload.**  It is inflated to what its stream then says beyond what was handed out. -/
theorem Stands.inflate (eager : Eager format) (stands : Stands format s taken handed)
    (payload : Bytes) :
    Inflated format (taken ++ payload) handed (inflate s payload).1 (inflate s payload).2 := by
  cases stands with
  | waits reaches told => exact inflated_drain eager 0 reaches
  | @ended first reaches told told' =>
      -- the stream goes on from its end, after which nothing is said
      have inflated : Inflated format (first ++ payload) handed (StreamDecoder.inflate s payload).1
          (StreamDecoder.inflate s payload).2 := inflated_drain eager 0 reaches
      generalize (StreamDecoder.inflate s payload).1 = result at inflated ⊢
      cases inflated with
      | broken none => cases none.symm.trans (told payload)
      | @stands out t stands =>
          have nothing : handed ++ out = handed := Option.some.inj (stands.output_eq.symm.trans (told _))
          rw [nothing] at stands
          have always (more : Bytes) : format.output (taken ++ payload ++ more) = some handed := by
            rw [List.append_assoc]
            exact told' _
          refine .stands ?_
          rw [nothing]
          cases stands with
          | waits reaches' _ =>
              refine .ended reaches' (fun more => ?_) always
              rw [List.append_assoc]
              exact told _
          | ended reaches' told'' _ => exact .ended reaches' told'' always

/-- **Payloads one after the other**, by induction on them. -/
theorem Stands.inflateEach (eager : Eager format) (stands : Stands format s taken handed)
    (payloads : List Bytes) :
    (StreamDecoder.inflateEach s payloads = none ∧ format.output (taken ++ payloads.flatten) = none) ∨
      ∃ outs t, StreamDecoder.inflateEach s payloads = some (outs, t) ∧
        Stands format t (taken ++ payloads.flatten) (handed ++ outs.flatten) := by
  induction payloads generalizing s taken handed with
  | nil =>
      refine .inr ⟨[], s, rfl, ?_⟩
      simpa using stands
  | cons payload payloads ih =>
      have first := stands.inflate eager payload
      obtain ⟨⟨result, mid⟩, run⟩ : ∃ o, StreamDecoder.inflate s payload = o := ⟨_, rfl⟩
      rw [run] at first
      rw [List.flatten_cons, ← List.append_assoc]
      cases first with
      | broken none =>
          refine .inl ⟨inflateEach_cons_error run payloads, ?_⟩
          cases later : format.output (taken ++ payload ++ payloads.flatten) with
          | none => rfl
          | some out =>
              obtain ⟨_, early, -⟩ := format.grows later
              cases none.symm.trans early
      | @stands out _ stands =>
          rw [inflateEach_cons_ok run]
          obtain ⟨rest, none⟩ | ⟨outs, t, rest, stands'⟩ := ih stands
          · exact .inl ⟨by rw [rest]; rfl, none⟩
          · refine .inr ⟨out :: outs, t, by rw [rest]; rfl, ?_⟩
            rwa [List.flatten_cons, ← List.append_assoc]

/-- **Where payloads end is not seen in what comes out of them.** -/
theorem Stands.inflateEach_iff (eager : Eager format) (stands : Stands format s taken handed)
    (payloads : List Bytes) (out : Bytes) :
    (∃ t, StreamDecoder.inflate s payloads.flatten = (.ok out, t)) ↔
      ∃ outs t, StreamDecoder.inflateEach s payloads = some (outs, t) ∧ outs.flatten = out := by
  have joined := stands.inflate eager payloads.flatten
  obtain ⟨⟨result, t⟩, run⟩ : ∃ o, StreamDecoder.inflate s payloads.flatten = o := ⟨_, rfl⟩
  rw [run] at joined
  rw [run]
  obtain ⟨each, none⟩ | ⟨outs, t', each, stands'⟩ := stands.inflateEach eager payloads
  · rw [each]
    cases joined with
    | broken => exact ⟨nofun, nofun⟩
    | stands stands' => cases none.symm.trans stands'.output_eq
  · rw [each]
    cases joined with
    | broken none => cases none.symm.trans stands'.output_eq
    | @stands out' _ stands'' =>
        have same : out' = outs.flatten :=
          List.append_cancel_left (Option.some.inj (stands''.output_eq.symm.trans stands'.output_eq))
        subst same
        constructor
        · rintro ⟨_, eq⟩
          cases eq
          exact ⟨outs, t', rfl, rfl⟩
        · rintro ⟨_, _, eq, rfl⟩
          cases eq
          exact ⟨t, rfl⟩

end StreamDecoder

/-! ## A decoder for every format -/

namespace StreamDecoder.Format

variable (format : Format)

/-- Hands out what all that was given says, from where it stopped before. -/
def reply (room : Nat) (s : Bytes × Nat) (input : Bytes) : Option Portion × (Bytes × Nat) :=
  match format.output (s.1 ++ input) with
  | none => (none, s)
  | some out =>
    let output := (out.drop s.2).take room
    (some ⟨output, [], false⟩, (s.1 ++ input, s.2 + output.length))

variable {format}

theorem reply_none {room : Nat} {s t : Bytes × Nat} {input : Bytes}
    (run : format.reply room s input = (none, t)) : format.output (s.1 ++ input) = none := by
  unfold reply at run
  split at run
  · assumption
  · cases run

theorem reply_some {room : Nat} {s t : Bytes × Nat} {input : Bytes} {p : Portion}
    (run : format.reply room s input = (some p, t)) :
    ∃ out, format.output (s.1 ++ input) = some out ∧ p = ⟨(out.drop s.2).take room, [], false⟩ ∧
      t = (s.1 ++ input, s.2 + p.output.length) := by
  unfold reply at run
  split at run
  · cases run
  · cases run
    exact ⟨_, ‹_›, rfl, rfl⟩

variable (format)

/-- Keeps all that it is given, and how much of what this says it has handed out. -/
@[reducible] def decoder : StreamDecoder where
  State := Bytes × Nat
  fresh := ([], 0)
  call := format.reply
  limit s input := ((format.output (s.1 ++ input)).getD []).length - s.2
  call_le {room s s' input portion} run := by
    obtain ⟨out, told, rfl, rfl⟩ := reply_some run
    refine ⟨Nat.zero_le _, ?_⟩
    simp only [List.append_nil, told, Option.getD_some, List.length_take, List.length_drop]
    omega

theorem prefix_of_take {handed out : Bytes} (before : handed <+: out) (room : Nat) :
    handed ++ (out.drop handed.length).take room <+: out := by
  obtain ⟨late, rfl⟩ := before
  rw [List.drop_left, List.prefix_append_right_inj]
  exact List.take_prefix ..

/-- It has kept what it took in, and has handed out the start of what this says. -/
theorem decoder_reaches {s : format.decoder.State} {taken handed : Bytes}
    (reaches : @Reaches format.decoder s taken handed) :
    s = (taken, handed.length) ∧ ∃ out, format.output taken = some out ∧ handed <+: out := by
  induction reaches with
  | fresh => exact ⟨rfl, [], format.nil, List.prefix_rfl⟩
  | @call s t room taken handed used p _ run ih =>
      obtain ⟨rfl, early, told, before⟩ := ih
      obtain ⟨out, told', rfl, rfl⟩ := reply_some run
      rw [List.append_nil] at told' ⊢
      obtain ⟨early', same, grown⟩ := format.grows told'
      cases told.symm.trans same
      exact ⟨by rw [List.length_append], out, told', prefix_of_take (before.trans grown) room⟩

/-- **Every format has an eager decoder.** -/
theorem decoder_eager : @Eager format.decoder format := by
  intro room s t taken handed input result positive reaches run
  obtain ⟨rfl, early, told, before⟩ := format.decoder_reaches reaches
  cases result with
  | none => exact .broken (reply_none run)
  | some p =>
      obtain ⟨out, told', rfl, rfl⟩ := reply_some run
      obtain ⟨early', same, grown⟩ := format.grows told'
      cases told.symm.trans same
      obtain ⟨late, rfl⟩ := before.trans grown
      dsimp only at told' ⊢
      rw [List.drop_left]
      obtain full | room_left := Nat.lt_or_ge late.length room
      · refine .waits rfl rfl ?_
        rw [List.take_of_length_le (Nat.le_of_lt full)]
        exact told'
      · refine .full (List.append_nil input).symm ?_ rfl
        exact Nat.le_of_eq (List.length_take_of_le room_left).symm

end StreamDecoder.Format

end RemoteFramebuffer
