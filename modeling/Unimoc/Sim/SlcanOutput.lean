import Mathlib.Data.List.Induction
import Unimoc.Lib.CountedRing
import Unimoc.Sim.SlcanCodec
import Unimoc.Sim.SlcanInput

/-! What the terminals get: over any use of the adapter whole lines in the order they were written,
and every frame of a tool once from the queue. -/
namespace Unimoc.Sim

open Slcan

theorem Uart.done_eq (written : Int) : Uart.done written = written.toNat := by
  unfold done
  split
  · rfl
  · omega

namespace Port

/-- A reply or the line of a frame. -/
def WholeLine (text : Text) : Prop :=
  text = ok ∨ text = error ∨ ∃ frame, text = formatFrame frame maxFrameText

/-- What the terminal has taken and still gets is lines that were written, each of them whole and in
their order. -/
structure Framed (port : Port) : Prop where
  whole : ∀ text ∈ port.written, WholeLine text
  lines : ∃ lines : List Text, lines.Sublist port.written ∧ port.uart.sent ++ port.pending = lines.flatten

theorem WholeLine.length_le {text : Text} (whole : WholeLine text) : text.length ≤ maxLine := by
  obtain rfl | rfl | ⟨frame, rfl⟩ := whole
  · decide
  · decide
  · have short := keptSize_le frame
    rw [formatFrame_eq frame (Nat.le_refl _), frameLine]
    simp only [List.length_append, length_flatMap_byteDigits, length_keptData, List.length_cons, List.length_nil,
      idDigits, List.length_map]
    unfold canClassicMtu at short
    unfold maxLine
    omega

theorem flush_sent (port : Port) :
    port.flush.2.uart.sent ++ port.flush.2.pending = port.uart.sent ++ port.pending := by
  unfold flush
  split
  · rfl
  · simp [Uart.fifoFill, Uart.done_eq]

theorem flush_clear {port : Port} (clear : port.flush.1 = true) : port.flush.2.pending = [] := by
  unfold flush at clear ⊢
  split
  · assumption
  · rename_i some
    rw [if_neg some] at clear
    exact of_decide_eq_true clear

theorem Framed.flush {port : Port} (framed : port.Framed) : port.flush.2.Framed := by
  obtain ⟨whole, lines, listed, sent⟩ := framed
  rw [← written_flush] at whole listed
  exact ⟨whole, lines, listed, (flush_sent port).trans sent⟩

theorem start_sent {port : Port} (clear : port.pending = []) {text : Text} (fits : text.length ≤ maxLine) :
    (port.start text).uart.sent ++ (port.start text).pending = port.uart.sent ∨
      (port.start text).uart.sent ++ (port.start text).pending = port.uart.sent ++ text := by
  have rest (n : Nat) : (text.drop n).length ≤ maxLine := by
    rw [List.length_drop]
    omega
  unfold start Uart.fifoFill
  simp only [Uart.done_eq, clear, List.nil_append]
  split
  · rename_i none
    left
    simp [none]
  · right
    rw [List.take_of_length_le (rest _), List.append_assoc, List.take_append_drop]

theorem Framed.write {port : Port} (framed : port.Framed) {text : Text} (whole : text = [] ∨ WholeLine text) :
    (port.write text).Framed := by
  by_cases some : text = []
  · rwa [Port.write, if_pos some]
  have line := whole.resolve_left some
  obtain ⟨all, lines, listed, sent⟩ := framed
  let noted : Port := { port with written := port.written ++ [text] }
  have flushed : noted.flush.2.uart.sent ++ noted.flush.2.pending = lines.flatten :=
    (flush_sent noted).trans sent
  constructor
  · intro other among
    rw [written_write some] at among
    obtain early | last := List.mem_append.mp among
    · exact all other early
    · rw [List.mem_singleton.mp last]
      exact line
  · rw [written_write some, Port.write, if_neg some]
    change ∃ lines : List Text, lines.Sublist _ ∧
      (if noted.flush.1 then noted.flush.2.start text else noted.flush.2).uart.sent ++
        (if noted.flush.1 then noted.flush.2.start text else noted.flush.2).pending = lines.flatten
    have dropped := listed.trans (List.sublist_append_left port.written [text])
    split
    · rename_i clear
      rw [flush_clear clear, List.append_nil] at flushed
      obtain none | taken := start_sent (flush_clear clear) line.length_le
      · exact ⟨lines, dropped, none.trans flushed⟩
      · refine ⟨lines ++ [text], listed.append_right [text], taken.trans ?_⟩
        rw [flushed, List.flatten_append, List.flatten_singleton]
    · exact ⟨lines, dropped, flushed⟩

theorem Framed.polled {port : Port} (framed : port.Framed) : port.polled.Framed := by
  have same : port.polled.uart.sent = port.uart.sent := by
    unfold Port.polled Uart.pollIn
    split <;> rfl
  obtain ⟨whole, lines, listed, sent⟩ := framed
  rw [← same] at sent
  exact ⟨whole, lines, listed, sent⟩

theorem Framed.send {port : Port} (framed : port.Framed) (frame : CanFrame) : (port.send frame).Framed := by
  unfold Port.send
  split
  · exact framed.write (.inr (.inr (.inr ⟨frame, rfl⟩)))
  · exact framed

end Port

namespace SlcanMedia

/-- The frames in the queue, oldest first. -/
def queue (media : SlcanMedia) : List CanFrame :=
  CountedRing.contents .initial media.rx media.rxHead media.rxCount

/-- Every port is framed, and what the lines gave has been popped or waits within the queue. -/
structure Orderly (popped : List CanFrame) (media : SlcanMedia) : Prop where
  framed : ∀ port ∈ media.ports, port.Framed
  slots : media.rx.length = rxQueueLength
  head : media.rxHead < rxQueueLength
  room : media.rxCount ≤ rxQueueLength
  conserved : popped ++ media.queue = media.parsed.map (·.2)

theorem Orderly.modifyPort {popped : List CanFrame} {media : SlcanMedia} (orderly : media.Orderly popped)
    (index : Nat) (change : Port → Port) (keeps : ∀ port, port.Framed → (change port).Framed) :
    (media.modifyPort index change).Orderly popped := by
  refine { orderly with framed := ?_ }
  intro port listed
  obtain ⟨i, found⟩ := List.mem_iff_getElem?.mp listed
  rw [ports_modifyPort] at found
  split at found
  · obtain ⟨before, present, rfl⟩ := Option.map_eq_some_iff.mp found
    exact keeps before (orderly.framed before (List.mem_of_getElem? present))
  · exact orderly.framed port (List.mem_of_getElem? found)

theorem Orderly.send {popped : List CanFrame} {media : SlcanMedia} (orderly : media.Orderly popped) (index : Nat)
    (frame : CanFrame) : (media.send index frame).Orderly popped :=
  orderly.modifyPort index _ fun _ framed => framed.send frame

theorem queue_receive {media : SlcanMedia} (slots : media.rx.length = rxQueueLength)
    (room : media.rxCount < rxQueueLength) (frame : CanFrame) :
    (media.receive frame).queue = media.queue ++ [frame] := by
  rw [← slots] at room
  unfold queue receive
  rw [← slots]
  exact CountedRing.contents_store room frame

/-- The frame of a line is noted, then it is put into the queue. -/
theorem Orderly.receive {popped : List CanFrame} {media : SlcanMedia} (orderly : media.Orderly popped)
    (room : media.rxCount < rxQueueLength) (index : Nat) (frame : CanFrame) :
    ({ media with parsed := media.parsed ++ [(index, frame)] }.receive frame).Orderly popped where
  framed := orderly.framed
  slots := (List.length_set ..).trans orderly.slots
  head := orderly.head
  room := room
  conserved := by
    change popped ++ (media.receive frame).queue = (media.parsed ++ [(index, frame)]).map (·.2)
    rw [queue_receive orderly.slots room, ← List.append_assoc, orderly.conserved, List.map_append]
    rfl

theorem Orderly.forward {popped : List CanFrame} {media : SlcanMedia} (orderly : media.Orderly popped) (index : Nat)
    (frame : CanFrame) : (media.forward index frame).Orderly popped := by
  unfold SlcanMedia.forward
  induction List.range media.ports.length generalizing media with
  | nil => exact orderly
  | cons other others ih =>
    rw [List.foldl_cons]
    split
    · exact ih (orderly.send other frame)
    · exact ih orderly

theorem reply_whole (line : Text) : (parseLine line).reply = [] ∨ Port.WholeLine (parseLine line).reply := by
  unfold parseLine
  split
  · exact .inr (.inl rfl)
  split
  · exact .inr (.inl rfl)
  split
  · exact .inr (.inl rfl)
  split
  · split
    · exact .inl rfl
    · exact .inr (.inr (.inl rfl))
  split
  · exact .inl rfl
  · exact .inr (.inl rfl)

theorem Orderly.complete {popped : List CanFrame} {media : SlcanMedia} (orderly : media.Orderly popped)
    (room : media.rxCount < rxQueueLength) (index : Nat) (line : Text) :
    (media.complete index line).Orderly popped := by
  have replied := orderly.modifyPort index
    (fun port => { port with opened := (parseLine line).opened.getD port.opened }.write (parseLine line).reply)
    fun port framed => by
      have opened : Port.Framed { port with opened := (parseLine line).opened.getD port.opened } :=
        ⟨framed.whole, framed.lines⟩
      exact opened.write (reply_whole line)
  unfold SlcanMedia.complete
  dsimp only
  cases (parseLine line).frame with
  | none =>
    rw [Option.toList_none, List.map_nil, List.append_nil]
    exact replied
  | some frame => exact (replied.receive room index frame).forward index frame

theorem Orderly.take {popped : List CanFrame} {media : SlcanMedia} (orderly : media.Orderly popped)
    (room : media.rxCount < rxQueueLength) (index : Nat) (char : Char) (port : Port) :
    (media.take index char port).Orderly popped := by
  unfold SlcanMedia.take
  split
  · apply orderly.modifyPort
    intro port framed
    split
    · exact ⟨framed.whole, framed.lines⟩
    · exact ⟨framed.whole, framed.lines⟩
  · have completed : (if !port.lineOverflow && 0 < port.line.length then media.complete index port.line
        else media).Orderly popped := by
      split
      · exact orderly.complete room index port.line
      · exact orderly
    exact completed.modifyPort index _ fun port framed => ⟨framed.whole, framed.lines⟩

theorem Orderly.takeAll {popped : List CanFrame} {media : SlcanMedia} (orderly : media.Orderly popped) (index : Nat)
    (count : Nat) : (media.takeAll count index).Orderly popped := by
  induction count generalizing media with
  | zero => exact orderly
  | succ count ih =>
    unfold SlcanMedia.takeAll
    split
    · rename_i room
      split
      · exact orderly
      · rename_i port _
        split
        · exact orderly
        · rename_i char _
          have read := orderly.modifyPort index Port.polled fun _ framed => framed.polled
          exact ih (read.take room index char port)
    · exact orderly

theorem Orderly.push {popped : List CanFrame} {media : SlcanMedia} (orderly : media.Orderly popped)
    (frame : CanFrame) : (media.push frame).Orderly popped := by
  unfold SlcanMedia.push
  induction List.range media.ports.length generalizing media with
  | nil => exact orderly
  | cons i others ih => exact ih (orderly.send i frame)

theorem Orderly.poll {popped : List CanFrame} {media : SlcanMedia} (orderly : media.Orderly popped) (index : Nat) :
    (media.poll index).Orderly popped := by
  have flushed := orderly.modifyPort index (fun port => port.flush.2) fun _ framed => framed.flush
  exact flushed.takeAll index maxCharsPerPop

theorem queue_deliver {media : SlcanMedia} (slots : media.rx.length = rxQueueLength)
    (head : media.rxHead < rxQueueLength) :
    media.queue = media.deliver.1.toList ++ media.deliver.2.queue := by
  rw [← slots] at head
  unfold deliver
  split
  · rfl
  rename_i some
  obtain ⟨count, more⟩ := Nat.exists_eq_succ_of_ne_zero some
  unfold queue
  rw [more, CountedRing.contents_take head, ← slots, List.getElem?_eq_getElem head, List.getD_eq_getElem?_getD,
    List.getElem?_eq_getElem head]
  rfl

theorem Orderly.deliver {popped : List CanFrame} {media : SlcanMedia} (orderly : media.Orderly popped) :
    media.deliver.2.Orderly (popped ++ media.deliver.1.toList) := by
  have taken := queue_deliver orderly.slots orderly.head
  have same : media.deliver.2.parsed = media.parsed := by
    unfold SlcanMedia.deliver
    split <;> rfl
  have conserved : popped ++ media.deliver.1.toList ++ media.deliver.2.queue =
      media.deliver.2.parsed.map (·.2) := by
    rw [List.append_assoc, ← taken, orderly.conserved, same]
  have room := orderly.room
  revert conserved
  unfold SlcanMedia.deliver
  split
  · intro conserved
    exact { orderly with conserved := conserved }
  · intro conserved
    exact
      { framed := orderly.framed
        slots := orderly.slots
        head := Nat.mod_lt _ (by decide)
        room := Nat.le_trans (Nat.sub_le _ _) room
        conserved := conserved }

theorem Orderly.pop {popped : List CanFrame} {media : SlcanMedia} (orderly : media.Orderly popped) :
    (media.pop).2.Orderly (popped ++ media.pop.1.toList) := by
  have polled : ((List.range media.ports.length).foldl (fun media i => media.poll i) media).Orderly popped := by
    induction List.range media.ports.length generalizing media with
    | nil => exact orderly
    | cons i others ih => exact ih (orderly.poll i)
  exact polled.deliver

theorem Orderly.step {popped : List CanFrame} {media : SlcanMedia} (orderly : media.Orderly popped) (event : Event) :
    (media.step event).2.Orderly (popped ++ (media.step event).1.toList) := by
  cases event with
  | push frame => simpa [SlcanMedia.step] using orderly.push frame
  | pop => exact orderly.pop
  | type index text =>
    have typed := orderly.modifyPort index (Port.typed text) fun _ framed => ⟨framed.whole, framed.lines⟩
    simpa [SlcanMedia.step] using typed

theorem orderly_init (uarts : List (Option Uart)) (fresh : ∀ uart, some uart ∈ uarts → uart.sent = []) :
    (init uarts).Orderly [] where
  framed := by
    intro port listed
    obtain ⟨uart, ready, rfl⟩ := List.mem_map.mp listed
    have taken := List.mem_of_mem_take ready
    have quiet := fresh uart (by simpa using taken)
    refine ⟨fun text none => absurd none List.not_mem_nil, [], List.nil_sublist _, ?_⟩
    rw [Port.initial, quiet]
    rfl
  slots := rfl
  head := Nat.succ_pos _
  room := Nat.zero_le _
  conserved := rfl

theorem orderly_run (uarts : List (Option Uart)) (fresh : ∀ uart, some uart ∈ uarts → uart.sent = [])
    (events : List Event) : ((init uarts).run events).2.Orderly ((init uarts).run events).1 := by
  induction events using List.reverseRecOn with
  | nil => exact orderly_init uarts fresh
  | append_singleton events event ih =>
    unfold run at ih ⊢
    rw [List.foldl_concat]
    exact ih.step event

end SlcanMedia

/-- Over any use of the adapter each terminal has taken the beginning of whole lines, replies and
frames, in the order in which they were written; the queue stays within its capacity, the frames of
a port are those of the text read from it, and the node pops every one of them once and in order. -/
theorem output_framing (uarts : List (Option Uart))
    (fresh : ∀ uart, some uart ∈ uarts → uart.sent = [] ∧ uart.heard = []) (events : List SlcanMedia.Event) :
    let (popped, media) := (SlcanMedia.init uarts).run events
    (∀ port ∈ media.ports, ∃ lines : List Text, lines.Sublist port.written ∧
      (∀ line ∈ lines, Port.WholeLine line) ∧ port.uart.sent ++ port.pending = lines.flatten) ∧
    media.rxCount ≤ rxQueueLength ∧
    (∀ index port, media.ports[index]? = some port → media.framesFrom index = textFrames port.uart.heard) ∧
    popped ++ media.queue = media.parsed.map (·.2) := by
  have orderly := SlcanMedia.orderly_run uarts (fun uart ready => (fresh uart ready).1) events
  have attentive := SlcanMedia.attentive_run
    (SlcanMedia.attentive_init uarts fun uart ready => (fresh uart ready).2) events
  refine ⟨?_, orderly.room, ?_, orderly.conserved⟩
  · intro port listed
    obtain ⟨whole, lines, written, sent⟩ := orderly.framed port listed
    exact ⟨lines, written, fun line among => whole line (written.subset among), sent⟩
  · intro index port present
    exact (attentive index port.hearing (congrArg (Option.map Port.hearing) present)).frames

def slowTerminal : Uart := ⟨fun _ => 3, 0, [], [], []⟩

/-- A tool opens its port, the node sends two frames, of which the second one is dropped, and the
tool sends one. -/
theorem output_framing_slow :
    let (popped, media) := (SlcanMedia.init [some slowTerminal]).run
      [.type 0 "O\r".toList, .pop, .push .initial, .push .initial, .type 0 "T0000002A0\r".toList, .pop]
    media.ports.map (·.uart.sent) = ["\rT00000000".toList] ∧ popped.map (·.extendedCanId) = [42] ∧
      popped ++ media.queue = media.parsed.map (·.2) ∧
      (∀ index port, media.ports[index]? = some port → media.framesFrom index = textFrames port.uart.heard) ∧
      ∀ port ∈ media.ports, ∃ lines : List Text, lines.Sublist port.written ∧
        (∀ line ∈ lines, Port.WholeLine line) ∧ port.uart.sent ++ port.pending = lines.flatten := by
  have framing := output_framing [some slowTerminal] (by simp [slowTerminal])
    [.type 0 "O\r".toList, .pop, .push .initial, .push .initial, .type 0 "T0000002A0\r".toList, .pop]
  exact ⟨by decide, by decide, framing.2.2.2, framing.2.2.1, framing.1⟩

end Unimoc.Sim
