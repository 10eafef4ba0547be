import Mathlib.Data.Int.GCD
import Mathlib.Data.List.Rotate
import Unimoc.Ebike.DisplayStream

/-! The decoder of the display on a line that repeats one frame, and on a line with one damaged
frame. -/
namespace Unimoc.Ebike.Kunteng

open DisplayDecoder

theorem eq_replicate_of_rotate {α : Type} [Nonempty α] {list : List α} {k : Nat}
    (coprime : Nat.Coprime k list.length) (long : 1 < list.length) (same : list.rotate k = list) :
    ∃ a, list = List.replicate list.length a := by
  have often (n : Nat) : list.rotate (k * n) = list := by
    induction n with
    | zero => rw [Nat.mul_zero, List.rotate_zero]
    | succ n ih => rw [Nat.mul_succ, ← List.rotate_rotate, ih, same]
  obtain ⟨n, -, inverse⟩ := Nat.exists_mul_mod_eq_one_of_coprime coprime long
  apply List.rotate_one_eq_self_iff_eq_replicate.mp
  rw [← inverse, List.rotate_mod]
  exact often n

theorem RequestFrame.rotate_ne {seed : UInt8} (frame : RequestFrame seed) {k : Nat} (some : 0 < k)
    (part : k < displayFrameSize) : frame.bytes.rotate k ≠ frame.bytes := by
  intro same
  have coprime : ∀ k < displayFrameSize, 0 < k → Nat.Coprime k displayFrameSize := by decide
  have apart := coprime k part some
  rw [← frame.size] at apart
  obtain ⟨a, all⟩ := eq_replicate_of_rotate apart (by rw [frame.size]; decide) same
  have ends := frame.ends
  rw [all, frame.size, isEnd] at ends
  simp [displayFrameSize] at ends
  obtain ⟨marker, rfl⟩ := ends
  revert marker
  decide

/-- The display repeats the frame, heard from an offset on. -/
def repetition (frame : List UInt8) (offset n : Nat) : List UInt8 :=
  frame.drop offset ++ (List.replicate n frame).flatten

/-- Nothing but the frame is reported, and from its first start on every time. -/
structure DisplayDecoder.Synchronises {seed : UInt8} (decoder : DisplayDecoder) (frame : RequestFrame seed) :
    Prop where
  own : ∀ offset n request, offset < displayFrameSize →
    some request ∈ decoder.reports (repetition frame.bytes offset n) → request = decode frame.bytes
  every : ∀ offset n, offset < displayFrameSize →
    (decoder.after (repetition frame.bytes offset n)).reports frame.bytes = frameReport frame.bytes

theorem mem_frameReport {request : DisplayRequest} {frame : List UInt8} :
    some request ∈ frameReport frame ↔ request = decode frame := by
  simp [frameReport]

theorem hear_part {seed : UInt8} {decoder : DisplayDecoder} (waiting : decoder.Waiting seed)
    (fresh : decoder.count = 0) {frame : RequestFrame seed} (clean : frame.Clean) {offset : Nat}
    (inside : offset < displayFrameSize) :
    (∀ request, some request ∈ decoder.reports (frame.bytes.drop offset) → request = decode frame.bytes) ∧
      (decoder.after (frame.bytes.drop offset)).Waiting seed := by
  cases offset with
  | zero =>
    obtain ⟨reported, left⟩ := waiting.run_frame clean
    rw [List.drop_zero, reported, left]
    exact ⟨fun request listed => mem_frameReport.mp listed, waiting.accepted frame⟩
  | succ offset =>
    have few : decoder.count + (frame.bytes.drop (offset + 1)).length < displayFrameSize := by
      rw [fresh, List.length_drop, frame.size, displayFrameSize]
      omega
    obtain ⟨silent, moved⟩ := run_quiet waiting.sized (quiet_of_few few)
    obtain ⟨body, marker, last, shape, size, ends⟩ := split_frame frame
    have kept : frame.bytes.drop (offset + 1) = (body ++ [marker]).drop (offset + 1) ++ [last] := by
      rw [shape, List.drop_append_of_le_length]
      rw [List.length_append, size]
      exact Nat.le_of_lt_succ inside
    constructor
    · intro request listed
      rw [silent] at listed
      cases List.eq_of_mem_replicate listed
    · rw [moved]
      refine ⟨waiting.sized.slideAll _, waiting.known, .inr ?_⟩
      intro next
      rw [kept, waiting.sized.newest_slideAll, isEnd_last ends]

theorem synchronises_of_clean {seed : UInt8} {decoder : DisplayDecoder} (waiting : decoder.Waiting seed)
    (fresh : decoder.count = 0) {frame : RequestFrame seed} (clean : frame.Clean) :
    decoder.Synchronises frame := by
  have again (n : Nat) : ∀ copy ∈ List.replicate n frame, copy.Clean := by
    intro copy listed
    rw [List.eq_of_mem_replicate listed]
    exact clean
  have copies (n : Nat) : (List.replicate n frame.bytes).flatten = line (List.replicate n frame) := by
    rw [line, List.flatMap_def, List.map_replicate]
  constructor
  · intro offset n request inside listed
    obtain ⟨own, left⟩ := hear_part waiting fresh clean inside
    rw [repetition, reports_append, List.mem_append, copies, (left.run_line (again n)).1] at listed
    cases listed with
    | inl part => exact own request part
    | inr whole =>
      obtain ⟨copy, listed, reported⟩ := List.mem_flatMap.mp whole
      rw [List.eq_of_mem_replicate listed] at reported
      exact mem_frameReport.mp reported
  · intro offset n inside
    obtain ⟨-, left⟩ := hear_part waiting fresh clean inside
    rw [repetition, after_append, copies]
    exact ((left.run_line (again n)).2.run_frame clean).1

theorem RequestFrame.length_rotate {seed : UInt8} (frame : RequestFrame seed) (k : Nat) :
    (frame.bytes.rotate k).length = displayFrameSize := by
  rw [List.length_rotate, frame.size]

theorem RequestFrame.checksum_rotate {seed : UInt8} (frame : RequestFrame seed) (k : Nat) :
    checksumSeed (frame.bytes.rotate k) = seed := by
  rw [checksumSeed_eq (frame.length_rotate k), (List.rotate_perm _ _).foldl_eq, ← checksumSeed_eq frame.size,
    frame.checksum]

theorem RequestFrame.isEnd_rotate {seed : UInt8} (frame : RequestFrame seed) {i : Nat} (inside : i < displayFrameSize - 2)
    (ends : isEnd (frame.bytes.getD i 0) (frame.bytes.getD (i + 1) 0) = true) :
    isEnd ((frame.bytes.rotate (i + 2)).getD (displayFrameSize - 2) 0)
      ((frame.bytes.rotate (i + 2)).getD (displayFrameSize - 1) 0) = true := by
  have marker : (displayFrameSize - 2 + (i + 2)) % displayFrameSize = i := by
    rw [displayFrameSize] at *
    omega
  have last : (displayFrameSize - 1 + (i + 2)) % displayFrameSize = i + 1 := by
    rw [displayFrameSize] at *
    omega
  rw [List.getD_eq_getElem?_getD, List.getD_eq_getElem?_getD, List.getElem?_rotate, List.getElem?_rotate,
    frame.size, marker, last, ← List.getD_eq_getElem?_getD, ← List.getD_eq_getElem?_getD, ends]
  all_goals
    rw [frame.size]
    decide

/-- The frame rotated to an end inside it is valid too. -/
def RequestFrame.straddle {seed : UInt8} (frame : RequestFrame seed) (i : Nat) (inside : i < displayFrameSize - 2)
    (ends : isEnd (frame.bytes.getD i 0) (frame.bytes.getD (i + 1) 0) = true) : RequestFrame seed where
  bytes := frame.bytes.rotate (i + 2)
  size := frame.length_rotate (i + 2)
  ends := frame.isEnd_rotate inside ends
  checksum := frame.checksum_rotate (i + 2)

theorem clean_of_synchronises {seed : UInt8} {decoder : DisplayDecoder} (waiting : decoder.Waiting seed)
    (fresh : decoder.count = 0) {frame : RequestFrame seed} (locks : decoder.Synchronises frame) :
    frame.Clean := by
  intro i inside
  by_contra found
  have ends := Bool.eq_true_of_not_eq_false found
  obtain ⟨sized, rfl, -⟩ := waiting
  have short : i + 2 < displayFrameSize := Nat.add_lt_of_lt_sub inside
  have part : i + 2 < frame.bytes.length := by rwa [frame.size]
  let straddle := frame.straddle i inside ends
  have few : decoder.count + straddle.bytes.dropLast.length < displayFrameSize := by
    rw [fresh, List.length_dropLast, straddle.size]
    decide
  have reported := (DisplayDecoder.run_frame sized straddle (quiet_of_few few)).1
  have heard : repetition frame.bytes (i + 2) 1 = straddle.bytes ++ frame.bytes.drop (i + 2) := by
    change _ = frame.bytes.rotate (i + 2) ++ _
    rw [List.rotate_eq_drop_append_take (Nat.le_of_lt part), List.append_assoc, List.take_append_drop]
    simp [repetition]
  have wrong := locks.own (i + 2) 1 (decode straddle.bytes) short
    (by rw [heard, reports_append, reported]; exact List.mem_append_left _ (mem_frameReport.mpr rfl))
  exact frame.rotate_ne (Nat.succ_pos _) short (congrArg DisplayRequest.raw wrong)

/-- The decoder finds the frames of a repeated request from every offset exactly when the frame has
no end inside it. -/
theorem synchronises_iff {seed : UInt8} {decoder : DisplayDecoder} (sized : decoder.Sized)
    (known : decoder.seed = seed) (fresh : decoder.count = 0) (frame : RequestFrame seed) :
    decoder.Synchronises frame ↔ frame.Clean := by
  have waiting : decoder.Waiting seed := ⟨sized, known, .inl fresh⟩
  constructor
  · exact clean_of_synchronises waiting fresh
  · exact synchronises_of_clean waiting fresh

def markedRequest : RequestFrame defaultChecksumSeed where
  bytes := [0, 3, 0, 0, 0, 0x09, 0, 0, 0x37, 0x0E, 0, 0x37, 0x0E]
  size := rfl
  ends := rfl
  checksum := by decide

/-- Heard from the tenth byte on, the request comes out shifted. -/
theorem locks_inside : ¬∀ (seed : UInt8) (decoder : DisplayDecoder) (frame : RequestFrame seed),
    decoder.Sized → decoder.seed = seed → decoder.count = 0 → decoder.Synchronises frame := by
  intro always
  have locks := always defaultChecksumSeed initial markedRequest ⟨rfl, Nat.zero_le _⟩ rfl rfl
  have wrong := locks.own 10 1 (decode (markedRequest.bytes.rotate 10)) (by decide) (by decide)
  revert wrong
  decide

theorem synchronises_level : initial.Synchronises markedRequest ↔ markedRequest.Clean :=
  @synchronises_iff _ initial ⟨rfl, Nat.zero_le _⟩ rfl rfl markedRequest

/-! ### One damaged frame -/

namespace DisplayDecoder

/-- The constant stays at every byte. -/
def Keeps (seed : UInt8) (decoder : DisplayDecoder) (bytes : List UInt8) : Prop :=
  ∀ heard, heard <+: bytes → (decoder.after heard).seed = seed

theorem keeps_cons {seed : UInt8} {decoder : DisplayDecoder} {byte : UInt8} {bytes : List UInt8} :
    decoder.Keeps seed (byte :: bytes) ↔ decoder.seed = seed ∧ (decoder.push byte).2.Keeps seed bytes := by
  constructor
  · intro keeps
    refine ⟨keeps [] List.nil_prefix, ?_⟩
    intro heard early
    exact keeps (byte :: heard) (List.cons_prefix_cons.mpr ⟨rfl, early⟩)
  · rintro ⟨now, later⟩ heard early
    cases heard with
    | nil => exact now
    | cons first heard =>
      obtain ⟨rfl, rest⟩ := List.cons_prefix_cons.mp early
      exact later heard rest

theorem keeps_nil {seed : UInt8} {decoder : DisplayDecoder} (known : decoder.seed = seed) :
    decoder.Keeps seed [] := by
  intro heard early
  rw [List.prefix_nil.mp early]
  exact known

theorem keeps_append {seed : UInt8} {decoder : DisplayDecoder} {first second : List UInt8}
    (early : decoder.Keeps seed first) (late : (decoder.after first).Keeps seed second) :
    decoder.Keeps seed (first ++ second) := by
  induction first generalizing decoder with
  | nil => exact late
  | cons byte first ih =>
    obtain ⟨now, later⟩ := keeps_cons.mp early
    exact keeps_cons.mpr ⟨now, ih later late⟩

@[simp] theorem learnSeed_window (seed : UInt8) (decoder : DisplayDecoder) :
    (decoder.learnSeed seed).window = decoder.window := by
  unfold learnSeed
  split
  · rfl
  · split <;> dsimp only <;> split <;> rfl

@[simp] theorem learnSeed_count (seed : UInt8) (decoder : DisplayDecoder) :
    (decoder.learnSeed seed).count = decoder.count := by
  unfold learnSeed
  split
  · rfl
  · split <;> dsimp only <;> split <;> rfl

theorem learnSeed_calm {decoder : DisplayDecoder} (calm : decoder.candidateCount = 0) (seed : UInt8) :
    (decoder.learnSeed seed).seed = decoder.seed := by
  unfold learnSeed
  split
  · rfl
  · simp [calm, seedFrames]

theorem push_cases (decoder : DisplayDecoder) (byte : UInt8) :
    (decoder.push byte).2 = decoder.slide byte ∨
      ∃ learned, (learned = decoder.slide byte ∨ checksumSeed (decoder.slide byte).window ≠ decoder.seed ∧
          learned = (decoder.slide byte).learnSeed (checksumSeed (decoder.slide byte).window)) ∧
        ((decoder.push byte).2 = learned ∨
          (decoder.push byte).2 = { learned with candidateCount := 0, count := 0 }) := by
  let slid := decoder.slide byte
  let seed := checksumSeed slid.window
  let learned := if seed ≠ slid.seed then slid.learnSeed seed else slid
  have whole : decoder.push byte =
      if (decide (slid.count < displayFrameSize) || !slid.hasEndMarker) = true then (none, slid)
      else if seed ≠ learned.seed then (none, learned)
      else (some (decode slid.window), { learned with candidateCount := 0, count := 0 }) := rfl
  have either : learned = slid ∨ seed ≠ slid.seed ∧ learned = slid.learnSeed seed := by
    by_cases other : seed ≠ slid.seed
    · exact .inr ⟨other, if_pos other⟩
    · exact .inl (if_neg other)
  rw [whole]
  split
  · exact .inl rfl
  · refine .inr ⟨learned, either, ?_⟩
    split
    · exact .inl rfl
    · exact .inr rfl

theorem window_push (decoder : DisplayDecoder) (byte : UInt8) :
    (decoder.push byte).2.window = (decoder.slide byte).window := by
  obtain quiet | ⟨learned, rfl | ⟨-, rfl⟩, silent | reported⟩ := push_cases decoder byte
  · rw [quiet]
  · rw [silent]
  · rw [reported]
  · rw [silent, learnSeed_window]
  · rw [reported, learnSeed_window]

theorem Sized.push {decoder : DisplayDecoder} (sized : decoder.Sized) (byte : UInt8) :
    (decoder.push byte).2.Sized := by
  have counted := (sized.slide byte).counted
  refine ⟨by rw [window_push]; exact (sized.slide byte).size, ?_⟩
  obtain quiet | ⟨learned, rfl | ⟨-, rfl⟩, silent | reported⟩ := push_cases decoder byte
  · rwa [quiet]
  · rwa [silent]
  · rw [reported]
    exact Nat.zero_le _
  · rwa [silent, learnSeed_count]
  · rw [reported]
    exact Nat.zero_le _

theorem run_push {decoder : DisplayDecoder} (sized : decoder.Sized) (bytes : List UInt8) :
    (decoder.after bytes).Sized ∧ (decoder.after bytes).window = (decoder.slideAll bytes).window := by
  induction bytes generalizing decoder with
  | nil =>
    refine ⟨sized, ?_⟩
    simp [after, slideAll]
  | cons byte bytes ih =>
    obtain ⟨left, moved⟩ := ih (sized.push byte)
    refine ⟨left, moved.trans ?_⟩
    rw [← sized.slideAll_slide, slideAll, window_push]
    rfl

theorem newest_after {decoder : DisplayDecoder} (sized : decoder.Sized) (bytes : List UInt8) (byte : UInt8) :
    (decoder.after (bytes ++ [byte])).newest = byte := by
  rw [newest, (run_push sized _).2]
  exact sized.newest_slideAll bytes byte

theorem seed_push_of_calm {decoder : DisplayDecoder} (calm : decoder.candidateCount = 0) (byte : UInt8) :
    (decoder.push byte).2.seed = decoder.seed := by
  have kept := @learnSeed_calm (decoder.slide byte) calm
  obtain quiet | ⟨learned, rfl | ⟨-, rfl⟩, silent | reported⟩ := push_cases decoder byte
  · rw [quiet]
    rfl
  · rw [silent]
    rfl
  · rw [reported]
    rfl
  · rw [silent, kept]
    rfl
  · rw [reported]
    exact kept _

theorem seed_push_of_known {decoder : DisplayDecoder} {byte : UInt8}
    (known : checksumSeed (decoder.slide byte).window = decoder.seed) :
    (decoder.push byte).2.seed = decoder.seed := by
  obtain quiet | ⟨learned, rfl | ⟨other, -⟩, silent | reported⟩ := push_cases decoder byte
  · rw [quiet]
    rfl
  · rw [silent]
    rfl
  · rw [reported]
    rfl
  all_goals exact absurd known other

theorem keeps_concat {seed : UInt8} {decoder : DisplayDecoder} {bytes : List UInt8} {byte : UInt8}
    (keeps : decoder.Keeps seed bytes) (kept : (decoder.after (bytes ++ [byte])).seed = seed) :
    decoder.Keeps seed (bytes ++ [byte]) := by
  rw [after_append] at kept
  exact keeps_append keeps (keeps_cons.mpr ⟨keeps bytes List.prefix_rfl, keeps_nil kept⟩)

/-- The decoder between frames of the constant, with no other in sight. -/
structure Ready (seed : UInt8) (decoder : DisplayDecoder) : Prop where
  sized : decoder.Sized
  known : decoder.seed = seed
  fresh : decoder.count = 0
  calm : decoder.candidateCount = 0

theorem Ready.waiting {seed : UInt8} {decoder : DisplayDecoder} (ready : decoder.Ready seed) :
    decoder.Waiting seed :=
  ⟨ready.sized, ready.known, .inl ready.fresh⟩

theorem Ready.accepted {seed : UInt8} {decoder : DisplayDecoder} (waiting : decoder.Waiting seed)
    (frame : RequestFrame seed) : (decoder.accepted frame.bytes).Ready seed :=
  ⟨⟨frame.size, Nat.zero_le _⟩, waiting.known, rfl, rfl⟩

theorem keeps_quiet {decoder : DisplayDecoder} (sized : decoder.Sized) {bytes : List UInt8}
    (quiet : Quiet decoder.count decoder.newest bytes) : decoder.Keeps decoder.seed bytes := by
  induction bytes generalizing decoder with
  | nil => exact keeps_nil rfl
  | cons byte bytes ih =>
    obtain ⟨first, rest⟩ := quiet
    rw [← sized.newest_slide byte] at rest
    refine keeps_cons.mpr ⟨rfl, ?_⟩
    rw [push_quiet sized first]
    exact ih (sized.slide byte) rest

theorem Waiting.keeps_frame {seed : UInt8} {decoder : DisplayDecoder} (waiting : decoder.Waiting seed)
    {frame : RequestFrame seed} (clean : frame.Clean) : decoder.Keeps seed frame.bytes := by
  have left := (waiting.run_frame clean).2
  obtain ⟨body, marker, last, shape, -, -⟩ := split_frame frame
  have quiet := keeps_quiet waiting.sized (waiting.quiet clean)
  rw [waiting.known] at quiet
  rw [shape, List.dropLast_concat] at quiet
  rw [shape] at left ⊢
  refine keeps_concat quiet ?_
  rw [left]
  exact waiting.known

theorem Waiting.keeps_line {seed : UInt8} {decoder : DisplayDecoder} (waiting : decoder.Waiting seed)
    {frames : List (RequestFrame seed)} (clean : ∀ frame ∈ frames, frame.Clean) :
    decoder.Keeps seed (line frames) := by
  induction frames generalizing decoder with
  | nil => exact keeps_nil waiting.known
  | cons frame frames ih =>
    have here := clean frame (.head _)
    refine keeps_append (waiting.keeps_frame here) ?_
    rw [(waiting.run_frame here).2]
    exact ih (waiting.accepted frame) (fun later listed => clean later (.tail _ listed))

/-- The decoder after a damaged frame. -/
structure Steady (seed : UInt8) (decoder : DisplayDecoder) : Prop where
  sized : decoder.Sized
  known : decoder.seed = seed
  safe : decoder.candidateCount = 0 ∨ ∀ last, isEnd decoder.newest last = false

theorem Ready.run_damaged {seed : UInt8} {decoder : DisplayDecoder} (ready : decoder.Ready seed)
    {damaged : List UInt8} (size : damaged.length = displayFrameSize) :
    decoder.Keeps seed damaged ∧ (decoder.after damaged).Steady seed := by
  have sized := ready.sized
  obtain rfl | ⟨bytes, last, rfl⟩ := List.eq_nil_or_concat' damaged
  · cases size
  have few : decoder.count + bytes.length < displayFrameSize := by
    rw [ready.fresh, ← size, List.length_append]
    simp
  obtain ⟨-, moved⟩ := run_quiet sized (quiet_of_few few)
  have calm : (decoder.after bytes).candidateCount = 0 := by
    rw [moved]
    exact ready.calm
  have known : (decoder.after (bytes ++ [last])).seed = seed := by
    rw [after_append]
    refine (seed_push_of_calm calm last).trans ?_
    rw [moved]
    exact ready.known
  have keeps := keeps_quiet sized (quiet_of_few few)
  rw [ready.known] at keeps
  refine ⟨keeps_concat keeps known, (run_push sized _).1, known, ?_⟩
  cases ends : isEnd (decoder.after bytes).newest last with
  | true =>
    right
    intro next
    rw [newest_after sized]
    exact isEnd_last ends
  | false =>
    left
    rw [after_append]
    change ((decoder.after bytes).push last).2.candidateCount = 0
    rw [push_quiet (run_push sized bytes).1 (.inr ends)]
    exact calm

theorem Steady.keeps_chain {seed : UInt8} {decoder : DisplayDecoder} (steady : decoder.Steady seed)
    {bytes : List UInt8} (chain : bytes.IsChain (fun marker last => isEnd marker last = false)) :
    decoder.Keeps seed bytes := by
  cases bytes with
  | nil => exact keeps_nil steady.known
  | cons first bytes =>
    have sized := steady.sized
    have known : (decoder.push first).2.seed = seed := by
      cases steady.safe with
      | inl calm => exact (seed_push_of_calm calm first).trans steady.known
      | inr free =>
        rw [push_quiet sized (.inr (free first))]
        exact steady.known
    have newest : (decoder.push first).2.newest = first := newest_after sized [] first
    refine keeps_cons.mpr ⟨steady.known, ?_⟩
    rw [← known]
    apply keeps_quiet (sized.push first)
    rw [newest]
    exact quiet_of_chain chain

/-- After a damaged frame one frame may be lost, and then the decoder waits again. -/
theorem Steady.run_frame {seed : UInt8} {decoder : DisplayDecoder} (steady : decoder.Steady seed)
    {frame : RequestFrame seed} (clean : frame.Clean) :
    decoder.Keeps seed frame.bytes ∧ (decoder.after frame.bytes).Waiting seed := by
  have sized := steady.sized
  have chain := chain_of_clean clean
  obtain ⟨body, marker, last, shape, size, ends⟩ := split_frame frame
  have replaced : (decoder.after frame.bytes).window = frame.bytes := by
    rw [(run_push sized _).2]
    exact sized.window_slideAll frame.size
  rw [shape, List.dropLast_concat] at chain
  have keeps := steady.keeps_chain chain
  have known : (decoder.after frame.bytes).seed = seed := by
    have before := keeps _ List.prefix_rfl
    rw [shape, after_append] at replaced ⊢
    have right : checksumSeed ((decoder.after (body ++ [marker])).slide last).window =
        (decoder.after (body ++ [marker])).seed := by
      rw [← window_push, before, ← frame.checksum, shape]
      exact congrArg checksumSeed replaced
    exact (seed_push_of_known right).trans before
  refine ⟨?_, (run_push sized _).1, known, .inr ?_⟩
  · rw [shape] at known ⊢
    exact keeps_concat keeps known
  · intro next
    rw [shape, newest_after sized]
    exact isEnd_last ends

theorem Ready.run_line {seed : UInt8} {decoder : DisplayDecoder} (ready : decoder.Ready seed)
    {frames : List (RequestFrame seed)} (clean : ∀ frame ∈ frames, frame.Clean) :
    (decoder.after (line frames)).Ready seed := by
  induction frames generalizing decoder with
  | nil => exact ready
  | cons frame frames ih =>
    rw [line, List.flatMap_cons, after_append, (ready.waiting.run_frame (clean frame (.head _))).2]
    exact ih (.accepted ready.waiting frame) (fun later listed => clean later (.tail _ listed))

end DisplayDecoder

/-- One damaged frame among frames of the known constant changes no constant, and costs at most
the frame after it. -/
theorem seed_robust {seed : UInt8} {decoder : DisplayDecoder} (ready : decoder.Ready seed)
    (before later : List (RequestFrame seed)) (clean : ∀ frame ∈ before ++ later, frame.Clean)
    (damaged : List UInt8) (size : damaged.length = displayFrameSize) :
    decoder.Keeps seed (line before ++ damaged ++ line later) ∧
      ∀ first between frame rest, later = first :: between ++ frame :: rest →
        (decoder.after (line before ++ damaged ++ line (first :: between))).reports frame.bytes =
          frameReport frame.bytes := by
  have early (frame) (listed : frame ∈ before) := clean frame (List.mem_append_left _ listed)
  have late (frame) (listed : frame ∈ later) := clean frame (List.mem_append_right _ listed)
  obtain ⟨shaken, steady⟩ := (ready.run_line early).run_damaged size
  have keeps := keeps_append (ready.waiting.keeps_line early) shaken
  rw [← after_append] at steady
  constructor
  · cases later with
    | nil => exact keeps_append keeps (keeps_nil steady.known)
    | cons first later =>
      obtain ⟨kept, waiting⟩ := steady.run_frame (late first (.head _))
      have rest := waiting.keeps_line (fun frame listed => late frame (.tail _ listed))
      exact keeps_append keeps (keeps_append kept rest)
  · rintro first between frame rest rfl
    obtain ⟨-, waiting⟩ := steady.run_frame (late first (.head _))
    have among (other) (listed : other ∈ between) : other.Clean :=
      late other (List.mem_append_left _ (.tail _ listed))
    rw [after_append, line, List.flatMap_cons, after_append]
    exact ((waiting.run_line among).2.run_frame (late frame (by simp))).1

def plainRequest : RequestFrame defaultChecksumSeed where
  bytes := encodeDisplayRequest { DisplayRequest.initial with assistLevel := 3, maxSpeed := 25 } defaultChecksumSeed
  size := rfl
  ends := rfl
  checksum := by decide

theorem plain_clean : plainRequest.Clean := by
  unfold RequestFrame.Clean
  decide

theorem seed_robust_marker :
    initial.Keeps defaultChecksumSeed (line [plainRequest] ++ List.replicate 13 displayEndMarkerA ++
      line [plainRequest, plainRequest]) ∧
    (initial.after (line [plainRequest] ++ List.replicate 13 displayEndMarkerA ++ line [plainRequest])).reports
      plainRequest.bytes = frameReport plainRequest.bytes := by
  have clean (frame) (listed : frame ∈ [plainRequest] ++ [plainRequest, plainRequest]) :
      frame.Clean := by
    have same : frame = plainRequest := by simpa using listed
    rw [same]
    exact plain_clean
  have robust := @seed_robust _ initial ⟨⟨rfl, Nat.zero_le _⟩, rfl, rfl, rfl⟩ [plainRequest]
    [plainRequest, plainRequest] clean (List.replicate 13 displayEndMarkerA) rfl
  exact ⟨robust.1, robust.2 plainRequest [] plainRequest [] rfl⟩

end Unimoc.Ebike.Kunteng
