import Unimoc.CurrentControl.WellDefined
import Unimoc.Lib.Runs

/-! The hand-over between the control cycle and the observer. The cycle runs to completion;
it may come between any two accesses of the observer to what they share. -/
namespace Unimoc.CurrentControl

open Settings Runs

/-- Sine or cosine of a sample (`sc`) or of a duty entry (`sc_out`). -/
structure AnglePlace where
  out : Bool
  k : Fin numSubSteps
  cosine : Bool
deriving DecidableEq

inductive Author where
  | start
  | observer (run : Nat)
deriving DecidableEq

structure Cell (F : Type) where
  value : F
  author : Author

/-- The `cycle` that wrote the samples, the mean current, the voltage demand and the timestamp
is kept beside them. -/
structure SubStepBuffer (F : Type) where
  angles : AnglePlace → Cell F
  iAbSamples : Vector (Stator F) numSubSteps
  iDqMean : Rotor F
  uDq : Rotor F
  timestamp : UInt32
  cycle : Nat

/-- What the observer reads of a cycle. -/
inductive CycleField where
  | currentD
  | currentQ
  | voltageD
  | voltageQ
  | timestamp
  | alpha (k : Fin numSubSteps)
  | beta (k : Fin numSubSteps)
deriving DecidableEq

inductive Access where
  | field (field : CycleField)
  | angle (place : AnglePlace)
deriving DecidableEq

/-- A value the observer has read: the cycle that wrote it, and how many had run by then. -/
structure Taken where
  field : CycleField
  cycle : Nat
  after : Nat
deriving DecidableEq

/-- How far a run of the observer is: before the choice of the buffer, in its reads, in its
writes to the other buffer, between the flip and the end. -/
inductive Phase (F : Type) where
  | idle
  | called
  | reading (finished : Fin 2) (todo : List Access) (taken : List Taken)
  | writing (finished : Fin 2) (todo : List (AnglePlace × F)) (taken : List Taken)
  | flipped (taken : List Taken)
deriving DecidableEq

/-- `cycles` counts the cycles that ran the loop, `runs` the runs of the observer. -/
structure HandOver (F : Type) where
  buf : Fin 2 → SubStepBuffer F
  active : Fin 2
  observerBuffer : Fin 2
  observerPending : Bool
  observerOverruns : UInt32
  cycles : Nat
  runs : Nat
  phase : Phase F

/-- What a run of the observer depends on besides the buffers, and the angles it arrives at. -/
structure Surroundings (F : Type) where
  released : Bool
  hallEnabled : Bool
  hfiActive : Bool
  angles : AngleSet F

section Model

variable {F : Type} [Arithmetic F]

def SubStepBuffer.angleSet (buffer : SubStepBuffer F) : AngleSet F :=
  let entry (out : Bool) (k : Fin numSubSteps) : SinCos F :=
    ⟨(buffer.angles ⟨out, k, false⟩).value, (buffer.angles ⟨out, k, true⟩).value⟩
  ⟨Vector.ofFn (entry false), Vector.ofFn (entry true)⟩

/-- A sample is read by reference, once for each rotor component. -/
def sampleAccesses (k : Fin numSubSteps) : List Access :=
  [.angle ⟨false, k, false⟩, .angle ⟨false, k, true⟩, .field (.alpha k), .field (.beta k),
    .field (.alpha k), .field (.beta k)]

def accesses (meets : Surroundings F) : List Access :=
  [.field .currentD, .field .currentQ]
    ++ (if meets.released then [.field .voltageD, .field .voltageQ] else [])
    ++ (if meets.hallEnabled then [.field .timestamp] else [])
    ++ (if meets.hfiActive then (List.finRange numSubSteps).flatMap sampleAccesses else [])

def angleWrites (angles : AngleSet F) : List (AnglePlace × F) :=
  (List.finRange numSubSteps).flatMap fun k =>
    [(⟨false, k, false⟩, (angles.sc.get k).sin), (⟨false, k, true⟩, (angles.sc.get k).cos),
      (⟨true, k, false⟩, (angles.scOut.get k).sin), (⟨true, k, true⟩, (angles.scOut.get k).cos)]

namespace HandOver

/-- Both buffers at the zero angle. -/
def prefilled (s : HandOver F) : HandOver F :=
  let (sin, cos) := Arithmetic.sinCos (Scalar.zero : F)
  { s with
    buf := fun b =>
      { s.buf b with angles := fun place => ⟨if place.cosine then cos else sin, .start⟩ }
    active := 0
    observerPending := false
    observerOverruns := 0 }

def init (settings : NvmSettings) (s : HandOver F) : HandOver F :=
  if pwmHertz F settings = 0 then s else s.prefilled

/-- A control cycle; one that does not run the loop touches nothing of this. -/
def onControlCycle (isr : CurrentControlIsr F) (loop : ControlLoop F) (raw : ControlCycleSamples F)
    (timestamp : UInt32) (s : HandOver F) : HandOver F :=
  let buffer := s.buf s.active
  let result : CurrentControlIsr.CycleResult F :=
    isr.controlCycle plainDivision raw buffer.angleSet loop
  match result.output with
  | none => s
  | some output =>
    { s with
      buf := Function.update s.buf s.active
        { buffer with
          iAbSamples := output.iAbSamples, iDqMean := output.iDqMean, uDq := output.uDq
          timestamp := timestamp, cycle := s.cycles + 1 }
      observerBuffer := s.active
      observerPending := true
      observerOverruns := if s.observerPending then s.observerOverruns + 1 else s.observerOverruns
      cycles := s.cycles + 1 }

def take (finished : Fin 2) (taken : List Taken) (s : HandOver F) : Access → List Taken
  | .angle _ => taken
  | .field field => ⟨field, (s.buf finished).cycle, s.cycles⟩ :: taken

/-- The next access of the observer, or the call when it is idle. -/
def runOnce (meets : Surroundings F) (s : HandOver F) : HandOver F :=
  match s.phase with
  | .idle => if s.observerPending then { s with phase := .called, runs := s.runs + 1 } else s
  | .called => { s with phase := .reading s.observerBuffer (accesses meets) [] }
  | .reading finished (access :: todo) taken =>
    { s with phase := .reading finished todo (s.take finished taken access) }
  | .reading finished [] taken => { s with phase := .writing finished (angleWrites meets.angles) taken }
  | .writing finished ((place, value) :: todo) taken =>
    let next := s.buf (1 - finished)
    { s with
      buf := Function.update s.buf (1 - finished)
        { next with angles := Function.update next.angles place ⟨value, .observer s.runs⟩ }
      phase := .writing finished todo taken }
  | .writing finished [] taken => { s with active := 1 - finished, phase := .flipped taken }
  | .flipped _ => { s with observerPending := false, phase := .idle }

end HandOver

inductive HandOverEvent (F : Type) where
  | start (settings : NvmSettings)
  | cycle (isr : CurrentControlIsr F) (loop : ControlLoop F) (raw : ControlCycleSamples F)
      (timestamp : UInt32)
  | observer (meets : Surroundings F)

/-- Runs after a start that has filled the buffers. A start finds no observer under way: it has
stopped the motor, and the observer interrupts the context that starts. -/
def handOver (before : HandOver F) : Machine (HandOver F) (HandOverEvent F) where
  start := { before with phase := .idle }.prefilled
  next s
    | .start settings => s.init settings
    | .cycle isr loop raw timestamp => s.onControlCycle isr loop raw timestamp
    | .observer meets => s.runOnce meets
  admits s
    | .start _ => s.phase = .idle
    | _ => True

namespace HandOver

variable {s : HandOver F}

/-- All angles of the buffer come from one start or one run. -/
def Complete (buffer : SubStepBuffer F) : Prop := ∃ author, ∀ place, (buffer.angles place).author = author

/-- The buffer was written by the last cycle that ran the loop. -/
def Latest (s : HandOver F) (b : Fin 2) : Prop := b = s.active ∧ (s.buf b).cycle = s.cycles

/-- Each value comes from the last cycle before its access. -/
def Fresh (taken : List Taken) : Prop := ∀ value ∈ taken, value.cycle = value.after

/-- What holds between two accesses, by how far the observer is. -/
def Consistent (s : HandOver F) : Phase F → Prop
  | .idle => s.observerPending = true → s.Latest s.observerBuffer
  | .called => s.Latest s.observerBuffer
  | .reading finished _ taken => s.Latest finished ∧ Fresh taken
  | .writing finished todo taken =>
    finished = s.active ∧ Fresh taken ∧
      ∀ place, (∀ value, (place, value) ∉ todo) →
        ((s.buf (1 - finished)).angles place).author = .observer s.runs
  | .flipped taken => Fresh taken

structure Sound (s : HandOver F) : Prop where
  complete : Complete (s.buf s.active)
  consistent : s.Consistent s.phase

theorem prefilled_complete (s : HandOver F) (b : Fin 2) : Complete (s.prefilled.buf b) :=
  ⟨.start, fun _ => rfl⟩

theorem prefilled_sound (idle : s.phase = .idle) : Sound s.prefilled := by
  refine ⟨prefilled_complete s _, ?_⟩
  have still : s.prefilled.phase = .idle := idle
  rw [still]
  intro pending
  cases pending

theorem init_sound (settings : NvmSettings) (sound : Sound s) (idle : s.phase = .idle) :
    Sound (s.init settings) := by
  unfold init
  split
  · exact sound
  · exact prefilled_sound idle

theorem other_buffer (b : Fin 2) : 1 - b ≠ b := by
  revert b
  decide

omit [Arithmetic F] in
/-- What a cycle that runs the loop does to the buffers: the active one is written whole but
for its angles. -/
theorem written_consistent {written : SubStepBuffer F} {overruns : UInt32} (number : written.cycle = s.cycles + 1)
    (angles : written.angles = (s.buf s.active).angles) (sound : Sound s) :
    Sound
      { s with
        buf := Function.update s.buf s.active written
        observerBuffer := s.active, observerPending := true, observerOverruns := overruns
        cycles := s.cycles + 1 } := by
  obtain ⟨complete, consistent⟩ := sound
  constructor
  · obtain ⟨author, all⟩ := complete
    refine ⟨author, fun place => ?_⟩
    show ((Function.update s.buf s.active written s.active).angles place).author = author
    rw [Function.update_self, angles]
    exact all place
  · have latest : (Function.update s.buf s.active written s.active).cycle = s.cycles + 1 := by
      rw [Function.update_self, number]
    cases found : s.phase with
    | idle => exact fun _ => ⟨rfl, latest⟩
    | called => exact ⟨rfl, latest⟩
    | reading finished todo taken =>
      rw [found] at consistent
      obtain ⟨⟨same, -⟩, fresh⟩ := consistent
      exact ⟨⟨same, same ▸ latest⟩, fresh⟩
    | writing finished todo taken =>
      rw [found] at consistent
      obtain ⟨same, fresh, others⟩ := consistent
      refine ⟨same, fresh, fun place absent => ?_⟩
      have apart : 1 - finished ≠ s.active := same ▸ other_buffer finished
      show ((Function.update s.buf s.active written (1 - finished)).angles place).author = _
      rw [Function.update_of_ne apart]
      exact others place absent
    | flipped taken =>
      rw [found] at consistent
      exact consistent

theorem onControlCycle_sound (isr : CurrentControlIsr F) (loop : ControlLoop F)
    (raw : ControlCycleSamples F) (timestamp : UInt32) (sound : Sound s) :
    Sound (s.onControlCycle isr loop raw timestamp) := by
  unfold onControlCycle
  dsimp only
  generalize CurrentControlIsr.CycleResult.output _ = output
  cases output with
  | none => exact sound
  | some output => exact written_consistent rfl rfl sound

omit [Arithmetic F] in
theorem mem_angleWrites (angles : AngleSet F) (place : AnglePlace) :
    ∃ value, (place, value) ∈ angleWrites angles := by
  obtain ⟨out, k, cosine⟩ := place
  unfold angleWrites
  cases out <;> cases cosine <;> simp

omit [Arithmetic F] in
theorem take_fresh {finished : Fin 2} {taken : List Taken} (latest : s.Latest finished)
    (fresh : Fresh taken) (access : Access) : Fresh (s.take finished taken access) := by
  cases access with
  | angle place => exact fresh
  | field field =>
    intro value listed
    rcases List.mem_cons.mp listed with rfl | earlier
    · exact latest.2
    · exact fresh value earlier

omit [Arithmetic F] in
theorem runOnce_sound (meets : Surroundings F) (sound : Sound s) : Sound (s.runOnce meets) := by
  obtain ⟨complete, consistent⟩ := sound
  unfold runOnce
  split <;> rename_i found <;> rw [found] at consistent
  · split
    · rename_i pending
      exact ⟨complete, consistent pending⟩
    · rename_i waiting
      exact ⟨complete, found ▸ fun pending => absurd pending waiting⟩
  · exact ⟨complete, consistent, fun value listed => by cases listed⟩
  · exact ⟨complete, consistent.1, take_fresh consistent.1 consistent.2 _⟩
  · refine ⟨complete, consistent.1.1, consistent.2, fun place absent => ?_⟩
    obtain ⟨value, listed⟩ := mem_angleWrites meets.angles place
    exact absurd listed (absent value)
  · rename_i finished place value todo taken
    obtain ⟨same, fresh, written⟩ := consistent
    have apart : s.active ≠ 1 - finished := fun merged =>
      other_buffer finished (merged.symm.trans same.symm)
    refine ⟨?_, same, fresh, fun other absent => ?_⟩
    · show Complete (Function.update s.buf (1 - finished) _ s.active)
      rw [Function.update_of_ne apart]
      exact complete
    · show ((Function.update s.buf (1 - finished) _ (1 - finished)).angles other).author = _
      rw [Function.update_self]
      show (Function.update (s.buf (1 - finished)).angles place ⟨value, .observer s.runs⟩ other).author = _
      by_cases here : other = place
      · rw [here, Function.update_self]
      · rw [Function.update_of_ne here]
        refine written other fun value listed => ?_
        rcases List.mem_cons.mp listed with same | later
        · exact here (congrArg Prod.fst same)
        · exact absent value later
  · rename_i finished taken
    obtain ⟨same, fresh, written⟩ := consistent
    exact ⟨⟨.observer s.runs, fun place => written place fun value => List.not_mem_nil⟩, fresh⟩
  · exact ⟨complete, fun pending => by cases pending⟩

end HandOver

theorem handOver_sound {before : HandOver F} {trace : List (HandOverEvent F)}
    (legal : (handOver before).Legal trace) : ((handOver before).replay trace).Sound := by
  refine Machine.invariant (fun s _ => s.Sound) (HandOver.prefilled_sound rfl) ?_ trace legal
  intro e past sound admitted
  cases e with
  | start settings => exact HandOver.init_sound settings sound admitted
  | cycle isr loop raw timestamp => exact HandOver.onControlCycle_sound isr loop raw timestamp sound
  | observer meets => exact HandOver.runOnce_sound meets sound

/-- Every angle set a cycle uses comes whole from one start or one run; what a run took that is
about to end comes from one cycle exactly when no cycle ran the loop between its accesses. -/
theorem handOver_consistent (before : HandOver F) {trace : List (HandOverEvent F)}
    (legal : (handOver before).Legal trace) :
    let s := (handOver before).replay trace
    (∃ author, ∀ place, ((s.buf s.active).angles place).author = author) ∧
      ∀ taken, s.phase = .flipped taken →
        ((∃ cycle, ∀ value ∈ taken, value.cycle = cycle) ↔
          ∀ first ∈ taken, ∀ second ∈ taken, first.after = second.after) := by
  intro s
  obtain ⟨complete, consistent⟩ := handOver_sound legal
  refine ⟨complete, fun taken ending => ?_⟩
  have fresh : HandOver.Fresh taken := by
    have held : s.Consistent s.phase := consistent
    rw [ending] at held
    exact held
  constructor
  · rintro ⟨cycle, same⟩ first listed second chosen
    rw [← fresh first listed, ← fresh second chosen, same first listed, same second chosen]
  · intro quiet
    cases taken with
    | nil => exact ⟨0, fun value listed => by cases listed⟩
    | cons first rest =>
      refine ⟨first.cycle, fun value listed => ?_⟩
      have head : first ∈ first :: rest := List.mem_cons_self
      rw [fresh value listed, fresh first head]
      exact quiet value listed first head

end Model

section Bench

def deadBus : CurrentControlIsr Binary32 := { CurrentControlIsr.powerOn with hardware := true }

def deadLoop : ControlLoop Binary32 :=
  ⟨⟨.zero, .zero, .zero, .zero, .zero, .zero, .zero, .zero⟩, .init .default, .zero, false, .zero, .zero⟩

def deadCycle : HandOverEvent Binary32 :=
  .cycle deadBus deadLoop ⟨Vector.replicate numSubSteps .zero, .zero, false⟩ 0

def emptyBuffers : HandOver Binary32 where
  buf _ :=
    ⟨fun _ => ⟨.zero, .start⟩, Vector.replicate numSubSteps ⟨.zero, .zero⟩, .zero, .zero, 0, 0⟩
  active := 0
  observerBuffer := 0
  observerPending := false
  observerOverruns := 0
  cycles := 0
  runs := 0
  phase := .idle

def plainDrive : Surroundings Binary32 where
  released := true
  hallEnabled := false
  hfiActive := false
  angles := ⟨Vector.replicate numSubSteps ⟨.zero, .zero⟩, Vector.replicate numSubSteps ⟨.zero, .zero⟩⟩

/-- A cycle and a run of the observer to its flip. -/
def onTime : List (HandOverEvent Binary32) := List.replicate 24 (.observer plainDrive) ++ [deadCycle]

theorem onTime_legal : (handOver emptyBuffers).Legal onTime := by
  simp [onTime, deadCycle, handOver, List.replicate]

theorem onTime_taken : ((handOver emptyBuffers).replay onTime).phase =
    .flipped [⟨.voltageQ, 1, 1⟩, ⟨.voltageD, 1, 1⟩, ⟨.currentQ, 1, 1⟩, ⟨.currentD, 1, 1⟩] := by
  decide +kernel

theorem handOver_consistent_onTime : ∃ taken,
    ((handOver emptyBuffers).replay onTime).phase = .flipped taken ∧ taken.length = 4 ∧
      ∃ cycle, ∀ value ∈ taken, value.cycle = cycle :=
  ⟨_, onTime_taken, rfl,
    ((handOver_consistent emptyBuffers onTime_legal).2 _ onTime_taken).mpr (by decide)⟩

def overtaken : List (HandOverEvent Binary32) :=
  List.replicate 20 (.observer plainDrive) ++ deadCycle :: List.replicate 4 (.observer plainDrive) ++ [deadCycle]

theorem overtaken_legal : (handOver emptyBuffers).Legal overtaken := by
  simp [overtaken, deadCycle, handOver, List.replicate]

theorem overtaken_taken : ((handOver emptyBuffers).replay overtaken).phase =
    .flipped [⟨.voltageQ, 2, 2⟩, ⟨.voltageD, 2, 2⟩, ⟨.currentQ, 1, 1⟩, ⟨.currentD, 1, 1⟩] := by
  decide +kernel

/-- The run that the second cycle overtakes is about to end with values of both. -/
theorem late_run_mixes : (handOver emptyBuffers).Legal overtaken ∧ ∃ taken,
    ((handOver emptyBuffers).replay overtaken).phase = .flipped taken ∧
      ¬∃ cycle, ∀ value ∈ taken, value.cycle = cycle := by
  refine ⟨overtaken_legal, _, overtaken_taken, ?_⟩
  rintro ⟨cycle, same⟩
  have late : 2 = cycle := same ⟨.voltageQ, 2, 2⟩ (by decide)
  have early : 1 = cycle := same ⟨.currentQ, 1, 1⟩ (by decide)
  omega

end Bench

end Unimoc.CurrentControl
