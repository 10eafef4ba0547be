import Mathlib.Data.List.Induction
import Mathlib.Logic.Function.Basic
import Unimoc.Sim.SlcanMedia

/-! What the tools say: the frames the adapter takes from a port are those of the text it has read
there, whatever comes from the other ports in between. -/
namespace Unimoc.Sim

open Slcan

/-- The complete lines of a text, and the line begun after them. -/
def splitLines (text : Text) : List Text × Text :=
  text.foldl (fun (lines, begun) char =>
    if char ≠ carriageReturn ∧ char ≠ lineFeed then (lines, begun ++ [char]) else (lines ++ [begun], [])) ([], [])

/-- The frames of a text; an empty line has none, nor has one that is longer than any frame. -/
def textFrames (text : Text) : List CanFrame :=
  (splitLines text).1.flatMap fun line =>
    if line.length ≠ 0 ∧ line.length ≤ maxLine then (parseLine line).frame.toList else []

/-- What a port has of the text it has read. -/
structure Hearing where
  line : Text
  overflow : Bool
  heard : Text

namespace Hearing

def take (char : Char) (hearing : Hearing) : Hearing :=
  let heard := hearing.heard ++ [char]
  if char ≠ carriageReturn ∧ char ≠ lineFeed then
    if hearing.line.length < maxLine then ⟨hearing.line ++ [char], hearing.overflow, heard⟩
    else ⟨hearing.line, true, heard⟩
  else ⟨[], false, heard⟩

/-- The frames of the line that a character ends. -/
def completed (char : Char) (hearing : Hearing) : List CanFrame :=
  if char ≠ carriageReturn ∧ char ≠ lineFeed then []
  else if !hearing.overflow && 0 < hearing.line.length then (parseLine hearing.line).frame.toList
  else []

/-- The line is the one begun as far as it fits, and `frames` are those of the text. -/
structure Follows (hearing : Hearing) (frames : List CanFrame) : Prop where
  line : hearing.line = (splitLines hearing.heard).2.take maxLine
  overflow : hearing.overflow = decide (maxLine < (splitLines hearing.heard).2.length)
  frames : frames = textFrames hearing.heard

theorem splitLines_concat (text : Text) (char : Char) :
    splitLines (text ++ [char]) =
      if char ≠ carriageReturn ∧ char ≠ lineFeed then ((splitLines text).1, (splitLines text).2 ++ [char])
      else ((splitLines text).1 ++ [(splitLines text).2], []) :=
  List.foldl_concat ..

theorem Follows.take {hearing : Hearing} {frames : List CanFrame} (follows : hearing.Follows frames) (char : Char) :
    (hearing.take char).Follows (frames ++ hearing.completed char) := by
  obtain ⟨line, overflow, same⟩ := follows
  have split := splitLines_concat hearing.heard char
  by_cases inner : char ≠ carriageReturn ∧ char ≠ lineFeed
  · rw [if_pos inner] at split
    have kept : textFrames (hearing.heard ++ [char]) = textFrames hearing.heard := by
      unfold textFrames
      rw [split]
    simp only [Hearing.take, completed, if_pos inner, List.append_nil]
    by_cases room : (splitLines hearing.heard).2.length < maxLine
    · have whole : hearing.line = (splitLines hearing.heard).2 := line.trans (List.take_of_length_le (Nat.le_of_lt room))
      rw [whole, if_pos room]
      constructor
      · rw [split, List.take_of_length_le]
        rw [List.length_append]
        exact room
      · rw [split, overflow, List.length_append, List.length_singleton]
        apply decide_eq_decide.mpr
        omega
      · rw [kept, same]
    · have full : ¬hearing.line.length < maxLine := by
        rw [line, List.length_take]
        omega
      rw [if_neg full]
      constructor
      · rw [split, List.take_append_of_le_length (Nat.le_of_not_lt room)]
        exact line
      · rw [split, List.length_append, List.length_singleton, eq_comm, decide_eq_true_eq]
        omega
      · rw [kept, same]
  · rw [if_neg inner] at split
    simp only [Hearing.take, completed, if_neg inner]
    refine ⟨by rw [split]; rfl, by rw [split]; rfl, ?_⟩
    have listed : textFrames (hearing.heard ++ [char]) = textFrames hearing.heard ++
        if (splitLines hearing.heard).2.length ≠ 0 ∧ (splitLines hearing.heard).2.length ≤ maxLine then
          (parseLine (splitLines hearing.heard).2).frame.toList else [] := by
      unfold textFrames
      rw [split, List.flatMap_append, List.flatMap_singleton]
    rw [listed, same, overflow]
    congr 1
    by_cases long : maxLine < (splitLines hearing.heard).2.length
    · simp [long, Nat.not_le.mpr long]
    · have whole : hearing.line = (splitLines hearing.heard).2 :=
        line.trans (List.take_of_length_le (Nat.le_of_not_lt long))
      simp [whole, long, Nat.le_of_not_lt long, List.length_pos_iff]

end Hearing

namespace Port

def hearing (port : Port) : Hearing := ⟨port.line, port.lineOverflow, port.uart.heard⟩

@[simp] theorem hearing_flush (port : Port) : port.flush.2.hearing = port.hearing := by
  unfold flush
  split <;> rfl

@[simp] theorem hearing_start (text : Text) (port : Port) : (port.start text).hearing = port.hearing := by
  unfold start
  dsimp only
  split <;> rfl

@[simp] theorem hearing_write (text : Text) (port : Port) : (port.write text).hearing = port.hearing := by
  have noted := hearing_flush { port with written := port.written ++ [text] }
  unfold write
  dsimp only
  split
  · rfl
  · split
    · exact (hearing_start text _).trans noted
    · exact noted

@[simp] theorem hearing_send (frame : CanFrame) (port : Port) : (port.send frame).hearing = port.hearing := by
  unfold send
  split
  · exact hearing_write _ port
  · rfl

theorem hearing_added (char : Char) (port : Port) :
    (if port.line.length < maxLine then { port with line := port.line ++ [char] }
      else { port with lineOverflow := true }).hearing =
    if port.line.length < maxLine then ⟨port.line ++ [char], port.lineOverflow, port.uart.heard⟩
    else ⟨port.line, true, port.uart.heard⟩ := by
  split <;> rfl

end Port

namespace SlcanMedia

def hearing (media : SlcanMedia) (index : Nat) : Option Hearing := media.ports[index]?.map Port.hearing

/-- The frames of the lines of a port. -/
def framesFrom (media : SlcanMedia) (index : Nat) : List CanFrame :=
  (media.parsed.filter (·.1 = index)).map (·.2)

/-- Every port follows its text. -/
def Attentive (media : SlcanMedia) : Prop :=
  ∀ index hearing, media.hearing index = some hearing → hearing.Follows (media.framesFrom index)

theorem hearing_modified {media : SlcanMedia} {index : Nat} {port : Port} (present : media.ports[index]? = some port)
    (change : Port → Port) :
    (media.modifyPort index change).hearing = Function.update media.hearing index (some (change port).hearing) := by
  funext other
  unfold hearing
  rw [ports_modifyPort]
  by_cases here : index = other
  · subst here
    rw [if_pos rfl, Function.update_self, present]
    rfl
  · rw [if_neg here, Function.update_of_ne (Ne.symm here)]

theorem hearing_modifyPort {change : Port → Port} (keeps : ∀ port, (change port).hearing = port.hearing)
    (media : SlcanMedia) (index : Nat) : (media.modifyPort index change).hearing = media.hearing := by
  funext other
  unfold hearing
  rw [ports_modifyPort]
  split
  · rw [Option.map_map]
    exact congrArg (Option.map · _) (funext keeps)
  · rfl

@[simp] theorem hearing_send (index : Nat) (frame : CanFrame) (media : SlcanMedia) :
    (media.send index frame).hearing = media.hearing :=
  hearing_modifyPort (Port.hearing_send frame) media index

theorem forward_kept (index : Nat) (frame : CanFrame) (media : SlcanMedia) :
    (media.forward index frame).hearing = media.hearing ∧ (media.forward index frame).parsed = media.parsed := by
  unfold forward
  induction List.range media.ports.length generalizing media with
  | nil => exact ⟨rfl, rfl⟩
  | cons other others ih =>
    rw [List.foldl_cons]
    split
    · obtain ⟨hearing, parsed⟩ := ih (media.send other frame)
      exact ⟨hearing.trans (hearing_send other frame media), parsed⟩
    · exact ih media

theorem push_kept (frame : CanFrame) (media : SlcanMedia) :
    (media.push frame).hearing = media.hearing ∧ (media.push frame).parsed = media.parsed := by
  unfold push
  induction List.range media.ports.length generalizing media with
  | nil => exact ⟨rfl, rfl⟩
  | cons i others ih =>
    obtain ⟨hearing, parsed⟩ := ih (media.send i frame)
    exact ⟨hearing.trans (hearing_send i frame media), parsed⟩

theorem complete_kept (index : Nat) (line : Text) (media : SlcanMedia) :
    (media.complete index line).hearing = media.hearing ∧
      (media.complete index line).parsed = media.parsed ++ (parseLine line).frame.toList.map (index, ·) := by
  have replied := hearing_modifyPort
    (fun port => Port.hearing_write (parseLine line).reply { port with opened := (parseLine line).opened.getD port.opened })
    media index
  unfold complete
  dsimp only
  cases (parseLine line).frame with
  | none => exact ⟨replied, rfl⟩
  | some frame =>
    obtain ⟨hearing, parsed⟩ := forward_kept index frame (receive frame
      (modifyPort index (fun port => Port.write (parseLine line).reply
        { port with opened := (parseLine line).opened.getD port.opened })
        { media with parsed := media.parsed ++ [(index, frame)] }))
    exact ⟨hearing.trans replied, parsed⟩

/-- A character that a port has read. -/
theorem hearing_take {media : SlcanMedia} {index : Nat} {port : Port} (present : media.ports[index]? = some port)
    {char : Char} (read : port.uart.pollIn.1 = some char) :
    ((media.modifyPort index Port.polled).take index char port).hearing =
        Function.update media.hearing index (some (port.hearing.take char)) ∧
      ((media.modifyPort index Port.polled).take index char port).parsed =
        media.parsed ++ (port.hearing.completed char).map (index, ·) := by
  have after : (media.modifyPort index Port.polled).ports[index]? = some port.polled := by
    rw [ports_modifyPort, if_pos rfl, present]
    rfl
  have heard : port.polled.uart.heard = port.uart.heard ++ [char] := by
    unfold Uart.pollIn at read
    unfold Port.polled Uart.pollIn
    split at read
    · cases read
    · cases read
      rfl
  have marked := hearing_modified present Port.polled
  have same : (media.modifyPort index Port.polled).parsed = media.parsed := rfl
  generalize media.modifyPort index Port.polled = reading at after marked same
  rw [← same]
  unfold SlcanMedia.take
  by_cases inner : char ≠ carriageReturn ∧ char ≠ lineFeed
  · rw [if_pos inner, hearing_modified after, marked, Function.update_idem]
    simp only [Hearing.completed, Hearing.take, if_pos inner, List.map_nil, List.append_nil]
    refine ⟨congrArg (fun said => Function.update media.hearing index (some said)) ?_, rfl⟩
    rw [Port.hearing_added, heard]
    rfl
  · rw [if_neg inner]
    have completed : (if !port.lineOverflow && 0 < port.line.length then reading.complete index port.line
          else reading).hearing = reading.hearing ∧
        (if !port.lineOverflow && 0 < port.line.length then reading.complete index port.line
          else reading).parsed = reading.parsed ++ (port.hearing.completed char).map (index, ·) := by
      rw [Hearing.completed, if_neg inner]
      change _ ∧ _ = reading.parsed ++ (if !port.lineOverflow && 0 < port.line.length then _ else []).map _
      split
      · exact complete_kept index port.line reading
      · rw [List.map_nil, List.append_nil]
        exact ⟨rfl, rfl⟩
    generalize (if !port.lineOverflow && 0 < port.line.length then reading.complete index port.line
      else reading) = answered at *
    obtain ⟨hearing, parsed⟩ := completed
    refine ⟨?_, parsed⟩
    have ended : answered.hearing index = some port.polled.hearing := by
      rw [hearing, SlcanMedia.hearing, after]
      rfl
    obtain ⟨last, present, said⟩ := Option.map_eq_some_iff.mp ended
    rw [hearing_modified present, hearing, marked, Function.update_idem]
    refine congrArg (fun said => Function.update media.hearing index (some said)) ?_
    have text : last.uart.heard = port.uart.heard ++ [char] := (congrArg Hearing.heard said).trans heard
    rw [Hearing.take, if_neg inner, Port.hearing, text]
    rfl

theorem Attentive.kept {before after : SlcanMedia} (attentive : before.Attentive)
    (hearing : after.hearing = before.hearing) (parsed : after.parsed = before.parsed) : after.Attentive := by
  intro index said listed
  rw [hearing] at listed
  unfold framesFrom
  rw [parsed]
  exact attentive index said listed

theorem Attentive.take {media : SlcanMedia} (attentive : media.Attentive) {index : Nat} {port : Port}
    (present : media.ports[index]? = some port) {char : Char} (read : port.uart.pollIn.1 = some char) :
    ((media.modifyPort index Port.polled).take index char port).Attentive := by
  obtain ⟨hearing, parsed⟩ := hearing_take present read
  intro other said listed
  rw [hearing] at listed
  unfold framesFrom
  rw [parsed, List.filter_append, List.map_append]
  by_cases here : other = index
  · subst here
    rw [Function.update_self] at listed
    cases listed
    have own : (((port.hearing.completed char).map (other, ·)).filter (·.1 = other)).map (·.2) =
        port.hearing.completed char := by
      rw [List.filter_eq_self.mpr (by simp), List.map_map]
      exact List.map_id _
    rw [own]
    exact (attentive other port.hearing (by rw [SlcanMedia.hearing, present]; rfl)).take char
  · rw [Function.update_of_ne here] at listed
    have none : ((port.hearing.completed char).map (index, ·)).filter (·.1 = other) = [] := by
      rw [List.filter_eq_nil_iff]
      simp [Ne.symm here]
    rw [none, List.map_nil, List.append_nil]
    exact attentive other said listed

theorem Attentive.takeAll {media : SlcanMedia} (attentive : media.Attentive) (index count : Nat) :
    (media.takeAll count index).Attentive := by
  induction count generalizing media with
  | zero => exact attentive
  | succ count ih =>
    unfold SlcanMedia.takeAll
    split
    · split
      · exact attentive
      · rename_i port present
        split
        · exact attentive
        · rename_i char read
          exact ih (attentive.take present read)
    · exact attentive

theorem Attentive.poll {media : SlcanMedia} (attentive : media.Attentive) (index : Nat) :
    (media.poll index).Attentive := by
  have flushed : (media.modifyPort index fun port => port.flush.2).Attentive :=
    attentive.kept (hearing_modifyPort Port.hearing_flush media index) rfl
  exact flushed.takeAll index maxCharsPerPop

theorem Attentive.pop {media : SlcanMedia} (attentive : media.Attentive) : media.pop.2.Attentive := by
  have polled : ((List.range media.ports.length).foldl (fun media i => media.poll i) media).Attentive := by
    induction List.range media.ports.length generalizing media with
    | nil => exact attentive
    | cons i others ih => exact ih (attentive.poll i)
  unfold SlcanMedia.pop deliver
  split
  · exact polled
  · exact polled.kept rfl rfl

theorem Attentive.step {media : SlcanMedia} (attentive : media.Attentive) (event : Event) :
    (media.step event).2.Attentive := by
  cases event with
  | push frame => exact attentive.kept (push_kept frame media).1 (push_kept frame media).2
  | pop => exact attentive.pop
  | type index text => exact attentive.kept (@hearing_modifyPort (Port.typed text) (fun _ => rfl) media index) rfl

theorem attentive_run {start : SlcanMedia} (attentive : start.Attentive) (events : List Event) :
    (start.run events).2.Attentive := by
  induction events using List.reverseRecOn with
  | nil => exact attentive
  | append_singleton events event ih =>
    unfold run at ih ⊢
    rw [List.foldl_concat]
    exact ih.step event

theorem attentive_init (uarts : List (Option Uart)) (fresh : ∀ uart, some uart ∈ uarts → uart.heard = []) :
    (init uarts).Attentive := by
  intro index said listed
  obtain ⟨port, present, rfl⟩ := Option.map_eq_some_iff.mp listed
  obtain ⟨uart, ready, rfl⟩ := List.mem_map.mp (List.mem_of_getElem? present)
  have quiet := fresh uart (by simpa using List.mem_of_mem_take ready)
  constructor
  · rw [Port.hearing, Port.initial, quiet]
    rfl
  · rw [Port.hearing, Port.initial, quiet]
    rfl
  · rw [Port.hearing, Port.initial, quiet]
    rfl

end SlcanMedia

end Unimoc.Sim
