import Mathlib.Data.List.Chain
import Mathlib.Data.List.Perm.Basic
import Unimoc.Ebike.Kunteng

/-! The decoder of the display along a stream: a quiet stretch only moves the window, and a whole
frame is reported where nothing before its end passes for one. -/
namespace Unimoc.Ebike.Kunteng

/-- The constant that makes the checksum of the window right. -/
def checksumSeed (window : List UInt8) : UInt8 :=
  xorExcept window displayChecksumIndex ^^^ window.getD displayChecksumIndex 0

theorem foldl_xor_start (bytes : List UInt8) (start extra : UInt8) :
    bytes.foldl (· ^^^ ·) (start ^^^ extra) = bytes.foldl (· ^^^ ·) start ^^^ extra := by
  induction bytes generalizing start with
  | nil => rfl
  | cons byte bytes ih =>
    rw [List.foldl_cons, List.foldl_cons, ← ih, UInt8.xor_assoc, UInt8.xor_assoc, UInt8.xor_comm extra]

theorem checksumSeed_eq {window : List UInt8} (size : window.length = displayFrameSize) :
    checksumSeed window = window.foldl (· ^^^ ·) 0 := by
  have inside : displayChecksumIndex < window.length := by
    rw [size]
    decide
  have shuffled := List.getElem_cons_eraseIdx_perm inside
  unfold checksumSeed xorExcept
  rw [← shuffled.foldl_eq, List.foldl_cons, foldl_xor_start, List.getD_eq_getElem?_getD,
    List.getElem?_eq_getElem inside]
  rfl

/-- Two bytes that end a frame. -/
def isEnd (marker last : UInt8) : Bool :=
  (marker = displayEndMarkerA || marker = displayEndMarkerB) && last = displayEnd

theorem isEnd_last {marker last next : UInt8} (ends : isEnd marker last = true) : isEnd last next = false := by
  have closing : last = displayEnd := by
    rw [isEnd, Bool.and_eq_true] at ends
    exact of_decide_eq_true ends.2
  rw [closing]
  rfl

/-- A valid frame of the display with the given constant. -/
structure RequestFrame (seed : UInt8) where
  bytes : List UInt8
  size : bytes.length = displayFrameSize
  ends : isEnd (bytes.getD (displayFrameSize - 2) 0) (bytes.getD (displayFrameSize - 1) 0) = true
  checksum : checksumSeed bytes = seed

/-- No end but the frame's own. -/
def RequestFrame.Clean {seed : UInt8} (frame : RequestFrame seed) : Prop :=
  ∀ i < displayFrameSize - 2, isEnd (frame.bytes.getD i 0) (frame.bytes.getD (i + 1) 0) = false

namespace DisplayDecoder

def after (bytes : List UInt8) (decoder : DisplayDecoder) : DisplayDecoder :=
  bytes.foldl (fun decoder byte => (decoder.push byte).2) decoder

def reports (decoder : DisplayDecoder) : List UInt8 → List (Option DisplayRequest)
  | [] => []
  | byte :: bytes => (decoder.push byte).1 :: (decoder.push byte).2.reports bytes

theorem after_append (decoder : DisplayDecoder) (first second : List UInt8) :
    decoder.after (first ++ second) = (decoder.after first).after second :=
  List.foldl_append

theorem reports_append (decoder : DisplayDecoder) (first second : List UInt8) :
    decoder.reports (first ++ second) = decoder.reports first ++ (decoder.after first).reports second := by
  induction first generalizing decoder with
  | nil => rfl
  | cons byte first ih => exact congrArg _ (ih _)

/-- The array of the window and the count of it. -/
structure Sized (decoder : DisplayDecoder) : Prop where
  size : decoder.window.length = displayFrameSize
  counted : decoder.count ≤ displayFrameSize

def slide (byte : UInt8) (decoder : DisplayDecoder) : DisplayDecoder :=
  { decoder with
    window := decoder.window.tail ++ [byte]
    count := min (decoder.count + 1) displayFrameSize }

def newest (decoder : DisplayDecoder) : UInt8 := decoder.window.getD (displayFrameSize - 1) 0

theorem Sized.slide {decoder : DisplayDecoder} (sized : decoder.Sized) (byte : UInt8) :
    (decoder.slide byte).Sized := by
  refine ⟨?_, Nat.min_le_right _ _⟩
  simp [DisplayDecoder.slide, sized.size, displayFrameSize]

theorem Sized.newest_slide {decoder : DisplayDecoder} (sized : decoder.Sized) (byte : UInt8) :
    (decoder.slide byte).newest = byte := by
  have tail : decoder.window.tail.length = displayFrameSize - 1 := by rw [List.length_tail, sized.size]
  simp only [newest, DisplayDecoder.slide, List.getD_eq_getElem?_getD]
  rw [List.getElem?_append_right (Nat.le_of_eq tail), tail]
  rfl

theorem Sized.hasEndMarker_slide {decoder : DisplayDecoder} (sized : decoder.Sized) (byte : UInt8) :
    (decoder.slide byte).hasEndMarker = isEnd decoder.newest byte := by
  have tail : decoder.window.tail.length = displayFrameSize - 1 := by rw [List.length_tail, sized.size]
  have marker : (decoder.slide byte).window.getD (displayFrameSize - 2) 0 = decoder.newest := by
    simp only [newest, DisplayDecoder.slide, List.getD_eq_getElem?_getD]
    rw [List.getElem?_append_left (by rw [tail]; decide), List.getElem?_tail]
    rfl
  have last : (decoder.slide byte).window.getD (displayFrameSize - 1) 0 = byte := sized.newest_slide byte
  unfold hasEndMarker
  rw [marker, last]
  rfl

/-- A byte that ends nothing: too few since the last frame, or no end marker. -/
def QuietAt (count : Nat) (newest byte : UInt8) : Prop :=
  count + 1 < displayFrameSize ∨ isEnd newest byte = false

theorem push_quiet {decoder : DisplayDecoder} (sized : decoder.Sized) {byte : UInt8}
    (quiet : QuietAt decoder.count decoder.newest byte) : decoder.push byte = (none, decoder.slide byte) := by
  have waits : (decide ((decoder.slide byte).count < displayFrameSize) ||
      !(decoder.slide byte).hasEndMarker) = true := by
    rw [sized.hasEndMarker_slide]
    cases quiet with
    | inl few => simp [DisplayDecoder.slide, few]
    | inr none => simp [none]
  exact if_pos waits

theorem push_full {decoder : DisplayDecoder} (sized : decoder.Sized) {byte : UInt8}
    (full : displayFrameSize ≤ decoder.count + 1) (ends : isEnd decoder.newest byte = true) :
    decoder.push byte =
      let slid := decoder.slide byte
      let seed := checksumSeed slid.window
      let learned := if seed ≠ slid.seed then slid.learnSeed seed else slid
      if seed ≠ learned.seed then (none, learned)
      else (some (decode slid.window), { learned with candidateCount := 0, count := 0 }) := by
  have waits : ¬(decide ((decoder.slide byte).count < displayFrameSize) ||
      !(decoder.slide byte).hasEndMarker) = true := by
    rw [sized.hasEndMarker_slide, ends]
    simp [DisplayDecoder.slide, full]
  exact if_neg waits

theorem push_accepts {decoder : DisplayDecoder} (sized : decoder.Sized) {byte : UInt8}
    (full : displayFrameSize ≤ decoder.count + 1) (ends : isEnd decoder.newest byte = true)
    (known : checksumSeed (decoder.slide byte).window = decoder.seed) :
    decoder.push byte =
      (some (decode (decoder.slide byte).window),
        { decoder.slide byte with candidateCount := 0, count := 0 }) := by
  have kept : (decoder.slide byte).seed = decoder.seed := rfl
  rw [push_full sized full ends]
  simp [known, kept]

theorem frame_of_push {decoder : DisplayDecoder} (sized : decoder.Sized) {byte : UInt8} {request : DisplayRequest}
    (reported : (decoder.push byte).1 = some request) :
    ∃ frame : RequestFrame (decoder.push byte).2.seed, request = decode frame.bytes := by
  by_cases quiet : QuietAt decoder.count decoder.newest byte
  · rw [push_quiet sized quiet] at reported
    cases reported
  · obtain ⟨full, marked⟩ := not_or.mp quiet
    have ends := Bool.eq_true_of_not_eq_false marked
    let slid := decoder.slide byte
    let seed := checksumSeed slid.window
    let learned := if seed ≠ slid.seed then slid.learnSeed seed else slid
    have whole : decoder.push byte = if seed ≠ learned.seed then (none, learned)
        else (some (decode slid.window), { learned with candidateCount := 0, count := 0 }) :=
      push_full sized (Nat.le_of_not_lt full) ends
    rw [whole] at reported ⊢
    by_cases other : seed ≠ learned.seed
    · rw [if_pos other] at reported
      cases reported
    · rw [if_neg other] at reported ⊢
      cases reported
      have marker := (sized.hasEndMarker_slide byte).trans ends
      exact ⟨⟨slid.window, (sized.slide byte).size, marker, Decidable.not_not.mp other⟩, rfl⟩

/-- Bytes of which none ends anything. -/
def Quiet : Nat → UInt8 → List UInt8 → Prop
  | _, _, [] => True
  | count, newest, byte :: bytes =>
    QuietAt count newest byte ∧ Quiet (min (count + 1) displayFrameSize) byte bytes

theorem quiet_of_few {count : Nat} {newest : UInt8} {bytes : List UInt8}
    (few : count + bytes.length < displayFrameSize) : Quiet count newest bytes := by
  induction bytes generalizing count newest with
  | nil => trivial
  | cons byte bytes ih =>
    rw [List.length_cons] at few
    exact ⟨.inl (by omega), ih (by omega)⟩

theorem quiet_of_chain {count : Nat} {newest : UInt8} {bytes : List UInt8}
    (unmarked : (newest :: bytes).IsChain (fun marker last => isEnd marker last = false)) :
    Quiet count newest bytes := by
  induction bytes generalizing count newest with
  | nil => trivial
  | cons byte bytes ih =>
    rw [List.isChain_cons_cons] at unmarked
    exact ⟨.inr unmarked.1, ih unmarked.2⟩

def slideAll (bytes : List UInt8) (decoder : DisplayDecoder) : DisplayDecoder :=
  { decoder with
    window := (decoder.window ++ bytes).drop bytes.length
    count := min (decoder.count + bytes.length) displayFrameSize }

theorem Sized.slideAll_slide {decoder : DisplayDecoder} (sized : decoder.Sized) (byte : UInt8)
    (bytes : List UInt8) : (decoder.slide byte).slideAll bytes = decoder.slideAll (byte :: bytes) := by
  have count : min (min (decoder.count + 1) displayFrameSize + bytes.length) displayFrameSize =
      min (decoder.count + (bytes.length + 1)) displayFrameSize := by omega
  cases shape : decoder.window with
  | nil =>
    have size := sized.size
    rw [shape] at size
    cases size
  | cons oldest window => simp [slideAll, DisplayDecoder.slide, shape, count]

theorem run_quiet {decoder : DisplayDecoder} (sized : decoder.Sized) {bytes : List UInt8}
    (quiet : Quiet decoder.count decoder.newest bytes) :
    decoder.reports bytes = List.replicate bytes.length none ∧
      decoder.after bytes = decoder.slideAll bytes := by
  induction bytes generalizing decoder with
  | nil =>
    refine ⟨rfl, ?_⟩
    simp [after, slideAll, sized.counted]
  | cons byte bytes ih =>
    obtain ⟨first, rest⟩ := quiet
    have pushed := push_quiet sized first
    rw [← sized.newest_slide byte] at rest
    obtain ⟨silent, moved⟩ := ih (sized.slide byte) rest
    constructor
    · rw [reports, pushed, silent]
      rfl
    · rw [after, List.foldl_cons, pushed, ← sized.slideAll_slide]
      exact moved

theorem Sized.slideAll {decoder : DisplayDecoder} (sized : decoder.Sized) (bytes : List UInt8) :
    (decoder.slideAll bytes).Sized := by
  refine ⟨?_, Nat.min_le_right _ _⟩
  simp [DisplayDecoder.slideAll, sized.size]

theorem Sized.window_slideAll {decoder : DisplayDecoder} (sized : decoder.Sized) {bytes : List UInt8}
    (whole : bytes.length = displayFrameSize) : (decoder.slideAll bytes).window = bytes := by
  simp [DisplayDecoder.slideAll, whole, ← sized.size]

theorem Sized.slide_slideAll {decoder : DisplayDecoder} (sized : decoder.Sized) (bytes : List UInt8)
    (byte : UInt8) : (decoder.slideAll bytes).slide byte = decoder.slideAll (bytes ++ [byte]) := by
  have count : min (min (decoder.count + bytes.length) displayFrameSize + 1) displayFrameSize =
      min (decoder.count + (bytes.length + 1)) displayFrameSize := by omega
  have window : bytes.length + 1 ≤ (decoder.window ++ bytes).length := by
    rw [List.length_append, sized.size, displayFrameSize]
    omega
  simp [DisplayDecoder.slideAll, DisplayDecoder.slide, count, ← List.append_assoc,
    List.drop_append_of_le_length window]

theorem Sized.newest_slideAll {decoder : DisplayDecoder} (sized : decoder.Sized) (bytes : List UInt8)
    (byte : UInt8) : (decoder.slideAll (bytes ++ [byte])).newest = byte := by
  rw [← sized.slide_slideAll]
  exact (sized.slideAll bytes).newest_slide byte

/-- The reports of a whole frame: the request with its last byte. -/
def frameReport (frame : List UInt8) : List (Option DisplayRequest) :=
  List.replicate (displayFrameSize - 1) none ++ [some (decode frame)]

def accepted (frame : List UInt8) (decoder : DisplayDecoder) : DisplayDecoder :=
  { decoder with window := frame, count := 0, candidateCount := 0 }

theorem split_frame {seed : UInt8} (frame : RequestFrame seed) :
    ∃ (body : List UInt8) (marker last : UInt8), frame.bytes = body ++ [marker] ++ [last] ∧
      body.length = displayFrameSize - 2 ∧ isEnd marker last = true := by
  have marker : displayFrameSize - 2 < frame.bytes.length := by
    rw [frame.size]
    decide
  have last : displayFrameSize - 1 < frame.bytes.length := by
    rw [frame.size]
    decide
  have ends := frame.ends
  rw [List.getD_eq_getElem?_getD, List.getD_eq_getElem?_getD, List.getElem?_eq_getElem marker,
    List.getElem?_eq_getElem last] at ends
  refine ⟨frame.bytes.take (displayFrameSize - 2), _, _, ?_, ?_, ends⟩
  · change _ = _ ++ [frame.bytes[displayFrameSize - 2]] ++ [frame.bytes[displayFrameSize - 1]]
    rw [List.take_append_getElem marker]
    exact ((List.take_append_getElem last).trans (List.take_of_length_le (Nat.le_of_eq frame.size))).symm
  · rw [List.length_take, frame.size]
    rfl

/-- A frame whose other bytes end nothing is reported. -/
theorem run_frame {decoder : DisplayDecoder} (sized : decoder.Sized) (frame : RequestFrame decoder.seed)
    (quiet : Quiet decoder.count decoder.newest frame.bytes.dropLast) :
    decoder.reports frame.bytes = frameReport frame.bytes ∧
      decoder.after frame.bytes = decoder.accepted frame.bytes := by
  obtain ⟨body, marker, last, shape, size, ends⟩ := split_frame frame
  rw [shape, List.dropLast_concat] at quiet
  obtain ⟨silent, moved⟩ := run_quiet sized quiet
  have length : (body ++ [marker]).length = displayFrameSize - 1 := by
    rw [List.length_append, size]
    rfl
  have full : displayFrameSize ≤ (decoder.slideAll (body ++ [marker])).count + 1 := by
    simp only [slideAll, length, displayFrameSize]
    omega
  have window : ((decoder.slideAll (body ++ [marker])).slide last).window = frame.bytes := by
    rw [sized.slide_slideAll, ← shape]
    exact sized.window_slideAll frame.size
  rw [← sized.newest_slideAll body marker] at ends
  have pushed := push_accepts (sized.slideAll _) full ends (by rw [window]; exact frame.checksum)
  rw [window] at pushed
  constructor
  · rw [shape, reports_append, silent, moved, reports, pushed, ← shape, length]
    rfl
  · rw [shape, after_append, moved, ← shape, accepted, ← window]
    exact congrArg Prod.snd pushed

/-- The decoder knows the constant, and the next byte ends nothing. -/
structure Waiting (seed : UInt8) (decoder : DisplayDecoder) : Prop where
  sized : decoder.Sized
  known : decoder.seed = seed
  free : decoder.count = 0 ∨ ∀ last, isEnd decoder.newest last = false

theorem chain_of_clean {seed : UInt8} {frame : RequestFrame seed} (clean : frame.Clean) :
    frame.bytes.dropLast.IsChain (fun marker last => isEnd marker last = false) := by
  apply List.isChain_iff_getElem.mpr
  intro i inside
  rw [List.length_dropLast, frame.size, displayFrameSize] at inside
  have here := clean i (by rw [displayFrameSize]; omega)
  have next : i + 1 < frame.bytes.length := by
    rw [frame.size, displayFrameSize]
    omega
  rw [List.getD_eq_getElem?_getD, List.getD_eq_getElem?_getD, List.getElem?_eq_getElem (by omega),
    List.getElem?_eq_getElem next] at here
  simpa using here

theorem quiet_of_clean {seed : UInt8} {frame : RequestFrame seed} (clean : frame.Clean) {count : Nat}
    {newest : UInt8} (free : ∀ last, isEnd newest last = false) :
    Quiet count newest frame.bytes.dropLast :=
  quiet_of_chain (List.isChain_cons.mpr ⟨fun last _ => free last, chain_of_clean clean⟩)

theorem Waiting.quiet {seed : UInt8} {decoder : DisplayDecoder} (waiting : decoder.Waiting seed)
    {frame : RequestFrame seed} (clean : frame.Clean) :
    Quiet decoder.count decoder.newest frame.bytes.dropLast := by
  cases waiting.free with
  | inl fresh =>
    apply quiet_of_few
    rw [fresh, List.length_dropLast, frame.size]
    decide
  | inr free => exact quiet_of_clean clean free

theorem Waiting.run_frame {seed : UInt8} {decoder : DisplayDecoder} (waiting : decoder.Waiting seed)
    {frame : RequestFrame seed} (clean : frame.Clean) :
    decoder.reports frame.bytes = frameReport frame.bytes ∧
      decoder.after frame.bytes = decoder.accepted frame.bytes := by
  have quiet := waiting.quiet clean
  obtain ⟨sized, rfl, -⟩ := waiting
  exact DisplayDecoder.run_frame sized frame quiet

theorem Waiting.accepted {seed : UInt8} {decoder : DisplayDecoder} (waiting : decoder.Waiting seed)
    (frame : RequestFrame seed) : (decoder.accepted frame.bytes).Waiting seed :=
  ⟨⟨frame.size, Nat.zero_le _⟩, waiting.known, .inl rfl⟩

def line {seed : UInt8} (frames : List (RequestFrame seed)) : List UInt8 := frames.flatMap (·.bytes)

theorem Waiting.run_line {seed : UInt8} {decoder : DisplayDecoder} (waiting : decoder.Waiting seed)
    {frames : List (RequestFrame seed)} (clean : ∀ frame ∈ frames, frame.Clean) :
    decoder.reports (line frames) = frames.flatMap (fun frame => frameReport frame.bytes) ∧
      (decoder.after (line frames)).Waiting seed := by
  induction frames generalizing decoder with
  | nil => exact ⟨rfl, waiting⟩
  | cons frame frames ih =>
    obtain ⟨reported, left⟩ := waiting.run_frame (clean frame (.head _))
    obtain ⟨rest, kept⟩ := ih (waiting.accepted frame) (fun later listed => clean later (.tail _ listed))
    constructor
    · rw [line, List.flatMap_cons, reports_append, reported, left, List.flatMap_cons]
      exact congrArg _ rest
    · rw [line, List.flatMap_cons, after_append, left]
      exact kept

end DisplayDecoder

end Unimoc.Ebike.Kunteng
