import Unimoc.Sim.Slcan

/-! The terminals of the serial-line CAN adapter as one bus: each line goes out whole or not at
all, and the frames of the tools wait in one queue. -/
namespace Unimoc.Sim

open Slcan

/-- The driver of a terminal: how much it takes at each call, what it has taken, what the host has
typed and is not read yet, what was read. -/
structure Uart where
  answers : Nat → Int
  calls : Nat
  sent : Text
  typed : Text
  heard : Text

namespace Uart

/-- The driver takes no more than it is offered; a negative answer is an error. -/
def fifoFill (text : Text) (uart : Uart) : Int × Uart :=
  let taken := min (uart.answers uart.calls) text.length
  (taken, { uart with calls := uart.calls + 1, sent := uart.sent ++ text.take taken.toNat })

/-- An error takes nothing. -/
def done (written : Int) : Nat := if 0 < written then written.toNat else 0

def pollIn (uart : Uart) : Option Char × Uart :=
  match uart.typed with
  | [] => (none, uart)
  | char :: typed => (some char, { uart with typed := typed, heard := uart.heard ++ [char] })

end Uart

structure Port where
  uart : Uart
  opened : Bool
  line : Text
  lineOverflow : Bool
  /-- Rest of a line the terminal did not take; sent before anything else. -/
  pending : Text
  /-- The lines given to `write`, which the code does not keep. -/
  written : List Text

structure SlcanMedia where
  ports : List Port
  rx : List CanFrame
  rxHead : Nat
  rxCount : Nat
  /-- The frames of the complete lines, each with its port; the code does not keep them. -/
  parsed : List (Nat × CanFrame)

def maxPorts : Nat := 4

def rxQueueLength : Nat := 16

/-- Longest line: `D`, 8 digits, the length code, 128 digits. -/
def maxLine : Nat := 140

def maxCharsPerPop : Nat := 1024

namespace Port

def initial (uart : Uart) : Port := ⟨uart, false, [], false, [], []⟩

/-- Sends the rest of a line; false while some of it is left. -/
def flush (port : Port) : Bool × Port :=
  if port.pending = [] then (true, port)
  else
    let (written, uart) := port.uart.fifoFill port.pending
    let pending := port.pending.drop (Uart.done written)
    (pending = [], { port with uart := uart, pending := pending })

/-- The rest of a line that went out in part waits. -/
def start (text : Text) (port : Port) : Port :=
  let (written, uart) := port.uart.fifoFill text
  if Uart.done written = 0 then { port with uart := uart }
  else { port with uart := uart, pending := (port.pending ++ text.drop (Uart.done written)).take maxLine }

/-- A full terminal drops the next lines, never a part of one. -/
def write (text : Text) (port : Port) : Port :=
  if text = [] then port
  else
    let (clear, port) := { port with written := port.written ++ [text] }.flush
    if clear then port.start text else port

/-- Nobody listens at a closed port. -/
def send (frame : CanFrame) (port : Port) : Port :=
  if port.opened then port.write (formatFrame frame maxFrameText) else port

def polled (port : Port) : Port := { port with uart := port.uart.pollIn.2 }

def typed (text : Text) (port : Port) : Port :=
  { port with uart := { port.uart with typed := port.uart.typed ++ text } }

/-! ### What the terminal has and will get -/

@[simp] theorem written_flush (port : Port) : port.flush.2.written = port.written := by
  unfold flush
  split <;> rfl

@[simp] theorem written_start (text : Text) (port : Port) : (port.start text).written = port.written := by
  unfold start
  dsimp only
  split <;> rfl

theorem written_write {text : Text} (some : text ≠ []) (port : Port) :
    (port.write text).written = port.written ++ [text] := by
  simp only [write, if_neg some]
  split <;> simp

end Port

namespace SlcanMedia

/-- Takes the terminals that are ready. -/
def init (uarts : List (Option Uart)) : SlcanMedia where
  ports := ((uarts.filterMap id).take maxPorts).map .initial
  rx := List.replicate rxQueueLength .initial
  rxHead := 0
  rxCount := 0
  parsed := []

def modifyPort (index : Nat) (change : Port → Port) (media : SlcanMedia) : SlcanMedia :=
  { media with ports := media.ports.modify index change }

def send (index : Nat) (frame : CanFrame) (media : SlcanMedia) : SlcanMedia :=
  media.modifyPort index (Port.send frame)

/-- The ports form one bus: the other tools see the frame too. -/
def forward (index : Nat) (frame : CanFrame) (media : SlcanMedia) : SlcanMedia :=
  (List.range media.ports.length).foldl
    (fun media other => if other ≠ index then media.send other frame else media) media

def receive (frame : CanFrame) (media : SlcanMedia) : SlcanMedia :=
  { media with
    rx := media.rx.set ((media.rxHead + media.rxCount) % rxQueueLength) frame
    rxCount := media.rxCount + 1 }

/-- The reply, the open state and the frame of the complete line of a port. -/
def complete (index : Nat) (line : Text) (media : SlcanMedia) : SlcanMedia :=
  let result := parseLine line
  let media := { media with parsed := media.parsed ++ result.frame.toList.map (index, ·) }
  let media := media.modifyPort index fun port =>
    { port with opened := result.opened.getD port.opened }.write result.reply
  match result.frame with
  | none => media
  | some frame => (media.receive frame).forward index frame

def take (index : Nat) (char : Char) (port : Port) (media : SlcanMedia) : SlcanMedia :=
  if char ≠ carriageReturn ∧ char ≠ lineFeed then
    media.modifyPort index fun port =>
      if port.line.length < maxLine then { port with line := port.line ++ [char] }
      else { port with lineOverflow := true }
  else
    let media :=
      if !port.lineOverflow && 0 < port.line.length then media.complete index port.line else media
    media.modifyPort index fun port => { port with line := [], lineOverflow := false }

/-- The characters of a port, while the queue has room. -/
def takeAll : Nat → Nat → SlcanMedia → SlcanMedia
  | 0, _, media => media
  | count + 1, index, media =>
    if media.rxCount < rxQueueLength then
      match media.ports[index]? with
      | none => media
      | some port =>
        match port.uart.pollIn.1 with
        | none => media
        | some char => ((media.modifyPort index Port.polled).take index char port).takeAll count index
    else media

def poll (index : Nat) (media : SlcanMedia) : SlcanMedia :=
  (media.modifyPort index fun port => port.flush.2).takeAll maxCharsPerPop index

def deliver (media : SlcanMedia) : Option CanFrame × SlcanMedia :=
  if media.rxCount = 0 then (none, media)
  else
    (media.rx[media.rxHead]?,
      { media with rxHead := (media.rxHead + 1) % rxQueueLength, rxCount := media.rxCount - 1 })

def pop (media : SlcanMedia) : Option CanFrame × SlcanMedia :=
  ((List.range media.ports.length).foldl (fun media i => media.poll i) media).deliver

def push (frame : CanFrame) (media : SlcanMedia) : SlcanMedia :=
  (List.range media.ports.length).foldl (fun media i => media.send i frame) media

/-- The node sends a frame, asks for one, or the host types at a terminal. -/
inductive Event
  | push (frame : CanFrame)
  | pop
  | type (index : Nat) (text : Text)

def step (event : Event) (media : SlcanMedia) : Option CanFrame × SlcanMedia :=
  match event with
  | .push frame => (none, media.push frame)
  | .pop => media.pop
  | .type index text => (none, media.modifyPort index (Port.typed text))

/-- The frames the node has popped, and the adapter after the events. -/
def run (start : SlcanMedia) (events : List Event) : List CanFrame × SlcanMedia :=
  events.foldl (fun (popped, media) event =>
    (popped ++ (media.step event).1.toList, (media.step event).2)) ([], start)

/-! ### One port at a time -/

theorem ports_modifyPort (media : SlcanMedia) (index other : Nat) (change : Port → Port) :
    (media.modifyPort index change).ports[other]? =
      if index = other then media.ports[other]?.map change else media.ports[other]? := by
  rw [modifyPort, List.getElem?_modify]
  split <;> simp

@[simp] theorem length_modifyPort (media : SlcanMedia) (index : Nat) (change : Port → Port) :
    (media.modifyPort index change).ports.length = media.ports.length :=
  List.length_modify ..

theorem ports_sends (media : SlcanMedia) (frame : CanFrame) (chosen : Nat → Prop) [DecidablePred chosen]
    (count other : Nat) :
    ((List.range count).foldl (fun media i => if chosen i then media.send i frame else media) media).ports[other]? =
      if other < count ∧ chosen other then media.ports[other]?.map (Port.send frame) else media.ports[other]? := by
  induction count with
  | zero => simp
  | succ count ih =>
    rw [List.range_succ, List.foldl_concat]
    by_cases picked : chosen count
    · rw [if_pos picked, send, ports_modifyPort, ih]
      by_cases here : count = other
      · subst here
        simp [picked]
      · have apart : other < count + 1 ↔ other < count := by omega
        rw [if_neg here]
        simp only [apart]
    · rw [if_neg picked, ih]
      by_cases here : count = other
      · subst here
        simp [picked]
      · have apart : other < count + 1 ↔ other < count := by omega
        simp only [apart]

end SlcanMedia

end Unimoc.Sim
