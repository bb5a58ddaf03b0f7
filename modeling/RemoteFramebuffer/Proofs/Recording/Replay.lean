/-
# `RemoteFramebuffer.Proofs.Recording.Replay` — a recording is played as it was recorded

## What is proved

Of every header that can be told and every list of frames that were read in its format, however long
(`replay_exact`):

    the whole file                          the header, the frames in order, and the end
    a part that ends between frames         the header, the frames that lie in it, and the end
    a part that ends within a frame         the header, the frames that lie in it, and an error

A part is any front of the file that holds the header.

## How it is proved

A recording is a header and frames one after another, with nothing that says where a frame
ends: the player finds the end of each by reading its update anew.

    header ++ frame ++ frame ++ … ++ frame        plays every frame, then the end
    header ++ frame ++ frame ++ part of a frame   plays the frames before, then an error

It reads with every encoding there is, whatever the session accepted that was recorded, so
each update is read back (`takes_encodeBody`); and what succeeds on a frame fails on every
proper part of it (`run_cut`), so a recording that was cut is never taken for a shorter one.
-/
import Mathlib.Algebra.Group.Nat.Defs
import RemoteFramebuffer.Proofs.Encoding.Relay
import RemoteFramebuffer.Proofs.Text.Utf8
import RemoteFramebuffer.Recording.Player
import RemoteFramebuffer.Recording.Recorder

namespace RemoteFramebuffer

open Reader

/-! ## The header -/

theorem PixelFormat.takes_read {pf : PixelFormat} (plain : pf.Plain) :
    PixelFormat.read.Takes pf.encode pf := by
  intro rest
  rw [PixelFormat.encode_eq plain]
  exact PixelFormat.run_read_ok.mpr ⟨plain, Part.stand_written pf.parts rest⟩

/-- The desktop can be told to a peer, who then knows of the same desktop. -/
structure Desktop.Tellable (d : Desktop) : Prop where
  name : (Bytes.ofString d.name).length ≤ maxStringLength
  format : d.format.Plain

theorem Desktop.takes_read {d : Desktop} (tellable : d.Tellable) :
    Desktop.read.Takes d.encode d := by
  intro rest
  have format := PixelFormat.takes_read tellable.format
  have name := Name.takes_read tellable.name
  rw [Text.decode_ofString] at name
  simp only [Desktop.read, run_bind_ok, run_u16_ok, run_pure]
  exact ⟨d.width, _, by simp [Desktop.encode], d.height, _, rfl, d.format, _, format _, d.name, _,
    name rest, rfl⟩

theorem Version.length_bytes (v : Version) : v.bytes.length = Version.size := by
  cases v <;> decide +kernel

theorem Version.parse_bytes (v : Version) : Version.parse v.bytes = .ok v := by
  cases v <;> decide +kernel

theorem RecordingHeader.takes_read {h : RecordingHeader} (tellable : h.desktop.Tellable) :
    RecordingHeader.read.Takes h.encode h := by
  intro rest
  have mark : (bytes magic.length).Takes magic magic := takes_bytes rfl
  have version := takes_bytes h.version.length_bytes
  have desktop := Desktop.takes_read tellable
  simp only [RecordingHeader.read, run_bind_ok, run_mapError_ok]
  rw [encode, List.append_assoc, List.append_assoc, List.append_assoc]
  refine ⟨magic, _, mark _, ?_⟩
  rw [if_neg (not_not_intro rfl), run_bind_ok]
  refine ⟨h.version.bytes, _, run_mapError_ok.mpr (version _), ?_⟩
  rw [Version.parse_bytes]
  simp only [run_bind_ok, run_mapError_ok, run_i32_ok, run_pure]
  exact ⟨h.securityType, _, rfl, h.desktop, _, desktop rest, rfl⟩

/-! ## One frame -/

namespace Frame

def encode (f : Frame) : Bytes := Recorder.encodeFrame f.update (Int64.ofNat f.delay)

/-- The frame can stand in a recording: some session read its update in this format, and the
delay is one that can be stated. -/
structure Recordable (format : PixelFormat) (f : Frame) : Prop where
  update : ∃ accepted input rest,
    (FramebufferUpdate.readBody format accepted).run input = (.ok f.update, rest)
  delay : f.delay < 2 ^ 63

theorem encode_eq (f : Frame) :
    f.encode = 0 :: (f.update.encodeBody ++ Bytes.ofInt64 (Int64.ofNat f.delay)) := rfl

end Frame

namespace Player

variable {format : PixelFormat} {number : Nat} {f : Frame}

theorem takes_readFrame (ok : f.Recordable format) :
    (readFrame format EncodingSet.all number 0).Takes
      (f.update.encodeBody ++ Bytes.ofInt64 (Int64.ofNat f.delay)) f := by
  intro rest
  obtain ⟨accepted, input, left, read⟩ := ok.update
  have update := FramebufferUpdate.takes_encodeBody read
  have delay : (Int64.ofNat f.delay).toInt.toNat = f.delay := by
    rw [Int64.toInt_ofNat_of_lt ok.delay, Int.toNat_natCast]
  rw [readFrame, if_neg (not_not_intro rfl)]
  simp only [run_bind_ok, run_mapError_ok, run_i64_ok, run_pure]
  refine ⟨f.update, _, ?_, Int64.ofNat f.delay, rest, rfl, ?_⟩
  · rw [List.append_assoc]
    exact update _
  · rw [delay]

def Damaged (e : SessionError) : Prop := ∃ fault, e = .recording fault

theorem shorts_readFrame (code : UInt8) :
    Shorts Damaged (readFrame format EncodingSet.all number code) := by
  rw [readFrame]
  split
  · exact .fail _
  · refine (Shorts.any _).mapError (fun e _ => ⟨_, rfl⟩) |>.bind fun update => ?_
    refine (Shorts.any _).mapError (fun e _ => ⟨_, rfl⟩) |>.bind fun delay => ?_
    exact .pure _

/-- Reads on with every encoding in the format of the recording. -/
structure Reads (format : PixelFormat) (p : Player) : Prop where
  format : p.state.desktop.format = format
  encodings : p.state.encodings = EncodingSet.all

variable {p : Player} {rest : Bytes}

/-- A frame may resize the desktop, and changes nothing else of the state. -/
theorem next_frame (reads : p.Reads format) (ok : f.Recordable format)
    (stands : p.input = f.encode ++ rest) :
    ∃ after, p.next = (.ok (some f), after) ∧ after.Reads format ∧ after.input = rest ∧
      after.header = p.header ∧ after.frames = p.frames + 1 := by
  have code : u8.run p.input =
      (.ok 0, f.update.encodeBody ++ Bytes.ofInt64 (Int64.ofNat f.delay) ++ rest) :=
    run_u8_ok.mpr stands
  have frame : (readFrame format EncodingSet.all (p.frames + 1) 0).Takes _ f := takes_readFrame ok
  rw [next, code]
  simp only [reads.format, reads.encodings, frame rest]
  refine ⟨_, rfl, ⟨?_, ?_⟩, rfl, rfl, rfl⟩
  · cases f.update.desktopSize? <;> exact reads.format
  · cases f.update.desktopSize? <;> exact reads.encodings

theorem next_cut (reads : p.Reads format) (ok : f.Recordable format) (part : p.input <+: f.encode)
    (begun : p.input ≠ []) (unfinished : p.input ≠ f.encode) :
    ∃ fault, p.next.1 = .error (.recording fault) := by
  obtain ⟨code, cut, eq⟩ := List.exists_cons_of_ne_nil begun
  rw [eq, f.encode_eq, List.cons_prefix_cons] at part
  obtain ⟨rfl, part⟩ := part
  have short : cut ≠ f.update.encodeBody ++ Bytes.ofInt64 (Int64.ofNat f.delay) := by
    rintro rfl
    exact unfinished eq
  have frame : (readFrame format EncodingSet.all (p.frames + 1) 0).Takes _ f := takes_readFrame ok
  obtain ⟨_, error, fault, rfl⟩ := run_cut (shorts_readFrame 0) (frame []) part short
  refine ⟨fault, ?_⟩
  rw [next, run_u8_ok.mpr eq]
  simp only [reads.format, reads.encodings]
  generalize (readFrame format EncodingSet.all (p.frames + 1) 0).run cut = outcome at error
  obtain ⟨_, left⟩ := outcome
  subst error
  rfl

theorem next_end (none : p.input = []) : p.next.1 = .ok .none := by
  rw [next, none]
  rfl

/-! ## The whole recording -/

/-- Asked for one frame after another, the player gives these, and then it comes to the end of
the recording or to an error. -/
inductive Plays : Player → List Frame → Except SessionError Unit → Prop
  | ends {p : Player} : p.next.1 = .ok none → Plays p [] (.ok ())
  | fails {p : Player} {e : SessionError} : p.next.1 = .error e → Plays p [] (.error e)
  | frame {p : Player} {f : Frame} {frames : List Frame} {result : Except SessionError Unit} :
      p.next.1 = .ok (some f) → Plays p.next.2 frames result → Plays p (f :: frames) result

theorem Plays.unique {p : Player} {frames frames' : List Frame}
    {result result' : Except SessionError Unit} (h : Plays p frames result)
    (h' : Plays p frames' result') : frames = frames' ∧ result = result' := by
  induction h generalizing frames' with
  | ends next =>
      cases h' with
      | ends => exact ⟨rfl, rfl⟩
      | fails next' => cases next.symm.trans next'
      | frame next' => cases next.symm.trans next'
  | fails next =>
      cases h' with
      | ends next' => cases next.symm.trans next'
      | fails next' =>
          cases next.symm.trans next'
          exact ⟨rfl, rfl⟩
      | frame next' => cases next.symm.trans next'
  | frame next _ ih =>
      cases h' with
      | ends next' => cases next.symm.trans next'
      | fails next' => cases next.symm.trans next'
      | frame next' others =>
          cases next.symm.trans next'
          obtain ⟨rfl, rfl⟩ := ih others
          exact ⟨rfl, rfl⟩

/-- Of frames that were cut somewhere, the player gives those before the cut.  It comes to an
error just if the cut is not between frames. -/
theorem plays_cut {frames : List Frame} (reads : p.Reads format)
    (ok : ∀ f ∈ frames, f.Recordable format) (part : p.input <+: frames.flatMap Frame.encode) :
    ∃ k ≤ frames.length,
      (∀ m ≤ frames.length, (frames.take m).flatMap Frame.encode <+: p.input ↔ m ≤ k) ∧
      ((∃ m, p.input = (frames.take m).flatMap Frame.encode) → Plays p (frames.take k) (.ok ())) ∧
      ((∀ m, p.input ≠ (frames.take m).flatMap Frame.encode) →
        ∃ fault, Plays p (frames.take k) (.error (.recording fault))) := by
  induction frames generalizing p with
  | nil =>
      have none : p.input = [] := List.prefix_nil.mp part
      refine ⟨0, Nat.le_refl 0, ?_, fun _ => .ends (next_end none), fun off => ?_⟩
      · intro m le
        simpa using le
      · exact absurd none (off 0)
  | cons f frames ih =>
      rw [List.flatMap_cons] at part
      have first := ok f List.mem_cons_self
      by_cases whole : f.encode <+: p.input
      · obtain ⟨rest, stands⟩ := whole
        rw [← stands, List.prefix_append_right_inj] at part
        obtain ⟨after, next, reads, input, -, -⟩ := next_frame reads first stands.symm
        obtain ⟨k, few, inside, between, within⟩ :=
          ih reads (fun f mem => ok f (List.mem_cons_of_mem _ mem)) (by rwa [input])
        rw [input] at inside between within
        rw [← stands]
        have given {result : Except SessionError Unit} (plays : Plays after (frames.take k) result) :
            Plays p ((f :: frames).take (k + 1)) result :=
          .frame (by rw [next]) (by rw [next]; exact plays)
        refine ⟨k + 1, Nat.succ_le_succ few, ?_, ?_, ?_⟩
        · rintro (_ | m) le
          · simp
          · rw [List.take_succ_cons, List.flatMap_cons, List.prefix_append_right_inj,
              inside m (Nat.le_of_succ_le_succ le), Nat.succ_le_succ_iff]
        · rintro ⟨_ | m, eq⟩
          · cases eq
          · rw [List.take_succ_cons, List.flatMap_cons, List.append_cancel_left_eq] at eq
            exact given (between ⟨m, eq⟩)
        · intro off
          obtain ⟨fault, plays⟩ := within fun m eq => off (m + 1) (by simp [eq])
          exact ⟨fault, given plays⟩
      · -- the cut is before the end of the first frame
        have inside : p.input <+: f.encode :=
          (List.prefix_or_prefix_of_prefix part (List.prefix_append _ _)).resolve_right whole
        have outside (m : Nat) : ¬ ((f :: frames).take (m + 1)).flatMap Frame.encode <+: p.input := by
          intro le
          rw [List.take_succ_cons, List.flatMap_cons] at le
          exact whole ((List.prefix_append _ _).trans le)
        refine ⟨0, Nat.zero_le _, ?_, ?_, ?_⟩
        · rintro (_ | m) -
          · simp
          · exact ⟨fun le => absurd le (outside m), nofun⟩
        · rintro ⟨_ | m, eq⟩
          · exact .ends (next_end eq)
          · exact absurd (eq ▸ List.prefix_rfl) (outside m)
        · intro off
          have unfinished : p.input ≠ f.encode := fun eq => whole (eq ▸ List.prefix_rfl)
          obtain ⟨fault, next⟩ := next_cut reads first inside (off 0) unfinished
          exact ⟨fault, .fails next⟩

end Player

/-! ## Recordings -/

def RecordingHeader.recording (h : RecordingHeader) (frames : List Frame) : Bytes :=
  h.encode ++ frames.flatMap Frame.encode

namespace Recorder

/-- The delay of a frame is one that can be stated, however long the pause. -/
theorem exists_delayAt (r : Recorder) (now : Nat) :
    ∃ delay < 2 ^ 63, r.delayAt now = Int64.ofNat delay := by
  rw [delayAt]
  split
  · exact ⟨_, Nat.lt_succ_of_le (Nat.min_le_right _ _), rfl⟩
  · exact ⟨0, by decide, rfl⟩

/-- What a recorder appends, at whatever times, are the updates as frames of a recording. -/
theorem written_foldl (shots : List (Nat × FramebufferUpdate)) (r : Recorder) :
    ∃ frames : List Frame,
      (shots.foldl (fun r shot => r.writeFrame shot.1 shot.2) r).written =
        r.written ++ frames.flatMap Frame.encode ∧
      frames.map Frame.update = shots.map Prod.snd ∧ ∀ f ∈ frames, f.delay < 2 ^ 63 := by
  induction shots generalizing r with
  | nil => exact ⟨[], (List.append_nil _).symm, rfl, nofun⟩
  | cons shot shots ih =>
      obtain ⟨delay, small, stated⟩ := r.exists_delayAt shot.1
      obtain ⟨frames, written, updates, delays⟩ := ih (r.writeFrame shot.1 shot.2)
      refine ⟨⟨shot.2, delay⟩ :: frames, ?_, ?_, ?_⟩
      · rw [List.foldl_cons, written, List.flatMap_cons, ← List.append_assoc]
        simp only [writeFrame, stated, Frame.encode]
      · rw [List.map_cons, updates]
        rfl
      · rintro f (_ | ⟨_, mem⟩)
        · exact small
        · exact delays f mem

/-- What a recorder has written is a recording of what it was given. -/
theorem written_make (h : RecordingHeader) (shots : List (Nat × FramebufferUpdate)) :
    ∃ frames : List Frame,
      (shots.foldl (fun r shot => r.writeFrame shot.1 shot.2) (make h)).written =
        h.recording frames ∧
      frames.map Frame.update = shots.map Prod.snd ∧ ∀ f ∈ frames, f.delay < 2 ^ 63 :=
  written_foldl shots (make h)

end Recorder

namespace Player

variable {h : RecordingHeader} {frames : List Frame}

theorem ofBytes_header (tellable : h.desktop.Tellable) (rest : Bytes) :
    ∃ p, ofBytes (h.encode ++ rest) = .ok p ∧ p.header = h ∧ p.input = rest ∧
      p.Reads h.desktop.format := by
  rw [ofBytes, RecordingHeader.takes_read tellable rest]
  exact ⟨_, rfl, rfl, rfl, rfl, rfl⟩

/-- Of a part that holds the header, the player gives the frames that lie in it. -/
theorem plays_part (tellable : h.desktop.Tellable)
    (ok : ∀ f ∈ frames, f.Recordable h.desktop.format) {part : Bytes} (opens : h.encode <+: part)
    (le : part <+: h.recording frames) :
    ∃ p k, ofBytes part = .ok p ∧ p.header = h ∧ k ≤ frames.length ∧
      (∀ m ≤ frames.length, h.recording (frames.take m) <+: part ↔ m ≤ k) ∧
      ((∃ m, part = h.recording (frames.take m)) → Plays p (frames.take k) (.ok ())) ∧
      ((∀ m, part ≠ h.recording (frames.take m)) →
        ∃ fault, Plays p (frames.take k) (.error (.recording fault))) := by
  obtain ⟨rest, rfl⟩ := opens
  obtain ⟨p, opened, header, rfl, reads⟩ := ofBytes_header tellable rest
  simp only [RecordingHeader.recording, List.prefix_append_right_inj, ne_eq,
    List.append_cancel_left_eq] at le ⊢
  obtain ⟨k, few, inside, between, within⟩ := plays_cut reads ok le
  exact ⟨p, k, opened, header, few, inside, between, within⟩

/-- **A recording is played as it was recorded, and a cut is never silent.**  A player of the
whole file has its header, gives its frames in order, and comes to the end.  A player of a part
of it that holds the header gives just those frames that lie in the part, and comes to the end
if the part ends between frames, and otherwise to an error about the recording. -/
theorem replay_exact (tellable : h.desktop.Tellable)
    (ok : ∀ f ∈ frames, f.Recordable h.desktop.format) :
    (∃ p, ofBytes (h.recording frames) = .ok p ∧ p.header = h ∧ Plays p frames (.ok ())) ∧
    ∀ part, h.encode <+: part → part <+: h.recording frames →
      ∃ p k, ofBytes part = .ok p ∧ p.header = h ∧ k ≤ frames.length ∧
        (∀ m ≤ frames.length, h.recording (frames.take m) <+: part ↔ m ≤ k) ∧
        ((∃ m, part = h.recording (frames.take m)) → Plays p (frames.take k) (.ok ())) ∧
        ((∀ m, part ≠ h.recording (frames.take m)) →
          ∃ fault, Plays p (frames.take k) (.error (.recording fault))) := by
  refine ⟨?_, fun part opens le => plays_part tellable ok opens le⟩
  obtain ⟨p, k, opened, header, few, inside, between, -⟩ :=
    plays_part tellable ok (List.prefix_append _ _) List.prefix_rfl
  have all : frames.take frames.length = frames := List.take_length
  have most := inside frames.length (Nat.le_refl _)
  rw [all] at most
  have every : k = frames.length := Nat.le_antisymm few (most.mp List.prefix_rfl)
  have plays := between ⟨frames.length, by rw [all]; rfl⟩
  rw [every, all] at plays
  exact ⟨p, opened, header, plays⟩

/-- A desktop of one pixel, recorded for one frame that came with some set of encodings. -/
def onePixel : RecordingHeader := RecordingHeader.make .v38 ⟨"é", 1, 1, PixelFormat.rgb888⟩

theorem replay_exact_onePixel :
    let frames : List Frame := [⟨FramebufferUpdate.copiedThenLast, 7⟩]
    onePixel.desktop.Tellable ∧ (∀ f ∈ frames, f.Recordable onePixel.desktop.format) ∧
      ∃ p, ofBytes (onePixel.recording frames) = .ok p ∧ p.header = onePixel ∧
        Plays p frames (.ok ()) := by
  intro frames
  have tellable : onePixel.desktop.Tellable := by
    refine ⟨?_, ?_⟩
    · show (Bytes.ofString "é").length ≤ 65536
      rw [Text.ofString_eq]
      decide
    · exact ⟨by rfl, by decide, by decide⟩
  have ok : ∀ f ∈ frames, f.Recordable onePixel.desktop.format := by
    intro f mem
    obtain rfl := List.mem_singleton.mp mem
    refine ⟨⟨EncodingSet.ofList [.copyRect, .lastRect], ?_⟩, by decide⟩
    exact ⟨(FramebufferUpdate.copiedThenLast).encodeBody, [], by rfl⟩
  exact ⟨tellable, ok, (replay_exact tellable ok).1⟩

end Player

/-! ## The file

A recording that is wanted under the name of a file is kept beside it. -/

namespace Recorder

theorem length_lt_timestamped (name : List Char) (time : Nat) :
    name.length < (timestamped name time).length := by
  have parts := congrArg List.length
    (List.takeWhile_append_dropWhile (p := fun c => decide (c ≠ '.')) (l := name.reverse))
  rw [List.length_append, List.length_reverse] at parts
  unfold timestamped splitName
  generalize name.reverse.dropWhile _ = rest at parts ⊢
  match rest with
  | [] => simp
  | [dot] => simp
  | dot :: c :: stem =>
      simp at parts ⊢
      omega

variable {files : Directory} {name : String} {old : Bytes}

theorem fileName_ne (taken : files.lookup name = some old) (time : Nat) :
    fileName files name time ≠ name := by
  intro same
  rw [fileName, taken, Option.isSome_some, if_pos rfl] at same
  have longer := length_lt_timestamped name.toList time
  rw [← String.toList_ofList (l := timestamped _ _), same] at longer
  exact Nat.lt_irrefl _ longer

theorem lookup_save (r : Recorder) (taken : files.lookup name = some old) (time : Nat) :
    (r.save files name time).lookup name = some old := by
  have other : (name == fileName files name time) = false :=
    beq_false_of_ne (fileName_ne taken time).symm
  rw [save, List.lookup_cons, other]
  exact taken

end Recorder

end RemoteFramebuffer
