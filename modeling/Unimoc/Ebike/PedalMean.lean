import Unimoc.Ebike.PedalObserver
import Unimoc.Lib.Recent
import Unimoc.Lib.Runs
import Unimoc.Units.Exact

/-! The pedal torque is the mean over the intervals of the last half revolution. -/
namespace Unimoc.Ebike

open CurrentControl

/-- What the crank has done since it last stood still. -/
structure PedalHistory where
  /-- Time since the last pulse; none while the crank stands still. -/
  sincePulse : Option ℝ
  /-- The closed intervals, newest first. -/
  intervals : List ℝ
  samples : List ℝ

namespace PedalHistory

def still : PedalHistory := ⟨none, [], []⟩

noncomputable def passes (timeout dt : ℝ) (history : PedalHistory) : PedalHistory :=
  match history.sincePulse with
  | none => history
  | some since => if timeout < since + dt then still else { history with sincePulse := some (since + dt) }

/-- The mean of the samples of an interval, or the fast torque at its end. -/
noncomputable def interval (fast : ℝ) (samples : List ℝ) : ℝ :=
  if samples = [] then fast else samples.sum / samples.length

/-- The first pulse opens an interval, each further one closes it and opens the next. -/
noncomputable def pulse (fast : ℝ) (history : PedalHistory) : PedalHistory :=
  match history.sincePulse with
  | none => ⟨some 0, [], []⟩
  | some _ => ⟨some 0, interval fast history.samples :: history.intervals, []⟩

def sample (torque : ℝ) (history : PedalHistory) : PedalHistory :=
  match history.sincePulse with
  | none => history
  | some _ => { history with samples := torque :: history.samples }

/-- A pulse of an age comes within the step and not before the pulses that came earlier. -/
noncomputable def pulseTime (dt elapsed age : ℝ) : ℝ := min (max (dt - age) elapsed) dt

noncomputable def edge (timeout fast dt : ℝ) (progress : ℝ × PedalHistory) (age : ℝ) : ℝ × PedalHistory :=
  let time := pulseTime dt progress.1 age
  (time, (progress.2.passes timeout (time - progress.1)).pulse fast)

noncomputable def edges (timeout fast dt : ℝ) (ages : List ℝ) (history : PedalHistory) : ℝ × PedalHistory :=
  ages.foldl (edge timeout fast dt) (0, history)

/-- A step ends with its sample. -/
noncomputable def step (timeout fast dt torque : ℝ) (ages : List ℝ) (history : PedalHistory) : PedalHistory :=
  let (elapsed, history) := history.edges timeout fast dt ages
  (history.passes timeout (dt - elapsed)).sample torque

/-- The mean over the newest intervals. -/
noncomputable def mean (window : Nat) (history : PedalHistory) : ℝ :=
  (history.intervals.take window).sum / (min history.intervals.length window : Nat)

theorem passes_samples (timeout dt : ℝ) (history : PedalHistory) :
    (history.passes timeout dt).samples.length ≤ history.samples.length := by
  unfold passes
  cases history.sincePulse with
  | none => exact le_rfl
  | some since =>
    dsimp only
    split_ifs
    · exact Nat.zero_le _
    · exact le_rfl

theorem pulse_samples (fast : ℝ) (history : PedalHistory) : (history.pulse fast).samples = [] := by
  unfold pulse
  cases history.sincePulse with
  | none => rfl
  | some since => rfl

end PedalHistory

def pulsesOf (config : PedalObserverConfig ℝ) : Nat := min (max config.pulsesPerRev.toNat 2) maxPedalPulses

def windowOf (config : PedalObserverConfig ℝ) : Nat := max (pulsesOf config / 2) 1

theorem pulsesOf_bounds (config : PedalObserverConfig ℝ) :
    2 ≤ pulsesOf config ∧ pulsesOf config ≤ 64 ∧ windowOf config ≤ 32 ∧ windowOf config ≤ pulsesOf config := by
  have large : maxPedalPulses = 64 := rfl
  unfold windowOf pulsesOf
  omega

namespace PedalObserver

variable {config : PedalObserverConfig ℝ}

/-- The observer knows the pulses of the history. -/
structure Follows (config : PedalObserverConfig ℝ) (obs : PedalObserver ℝ) (history : PedalHistory) : Prop where
  tuned : obs.config = config
  pulses : obs.pulsesPerRev = pulsesOf config
  since : history.sincePulse = if obs.pulsesSeen = 0 then none else some obs.timeSincePulse
  later : 0 ≤ obs.timeSincePulse
  single : obs.pulsesSeen ≤ 1 ↔ history.intervals = []
  seen : obs.pedaling = true ↔ history.intervals ≠ []

/-- It has counted and averaged the samples of the history. -/
structure Averaging (config : PedalObserverConfig ℝ) (obs : PedalObserver ℝ) (history : PedalHistory) : Prop where
  sum : obs.binSum = history.samples.sum
  samples : obs.binCount = UInt32.ofNat history.samples.length
  kept : obs.completedBins = min history.intervals.length (windowOf config)
  ring : Recent.Holds (pulsesOf config) obs.binIndex obs.completedBins obs.bins history.intervals
  mean : history.intervals ≠ [] → obs.meanTorque = history.mean (windowOf config)

structure Matches (config : PedalObserverConfig ℝ) (obs : PedalObserver ℝ) (history : PedalHistory) : Prop
    extends Follows config obs history, Averaging config obs history

theorem Follows.create : Follows config (create config) .still := by
  refine ⟨rfl, rfl, rfl, Scalar.zero_exact.ge, iff_of_true (Nat.zero_le 1) rfl, ?_⟩
  exact ⟨fun pedaling => (by cases pedaling), fun turning => (turning rfl).elim⟩

theorem Matches.create : Matches config (create config) .still := by
  have bounds := pulsesOf_bounds config
  have large : maxPedalPulses = 64 := rfl
  refine ⟨.create, Scalar.zero_exact, rfl, rfl, ⟨?_, ?_, Nat.zero_le _, ?_⟩, fun turning => (turning rfl).elim⟩
  · show pulsesOf config ≤ (List.replicate maxPedalPulses Scalar.zero).length
    rw [List.length_replicate]
    omega
  · show 0 < pulsesOf config
    omega
  · intro age young
    exact absurd young (Nat.not_lt_zero age)

section Operations

variable {obs : PedalObserver ℝ} {history : PedalHistory} (wrap : ℝ → ℝ)

theorem Follows.sincePulse_none (follows : Follows config obs history) (still : obs.pulsesSeen = 0) :
    history.sincePulse = none := follows.since.trans (if_pos still)

theorem Follows.sincePulse_some (follows : Follows config obs history) (turning : obs.pulsesSeen ≠ 0) :
    history.sincePulse = some obs.timeSincePulse := follows.since.trans (if_neg turning)

theorem Follows.predict (follows : Follows config obs history) {dt : ℝ} (forward : 0 ≤ dt) :
    Follows config (obs.predict wrap dt) (history.passes config.stopTimeout dt) := by
  obtain ⟨rfl, pulses, since, later, single, seen⟩ := id follows
  unfold PedalHistory.passes
  by_cases still : obs.pulsesSeen = 0
  · rw [follows.sincePulse_none still, predict_still wrap dt obs still]
    exact ⟨rfl, pulses, since, later, single, seen⟩
  · rw [follows.sincePulse_some still]
    dsimp only
    split_ifs with long
    · rw [predict_stops wrap dt obs still long]
      refine ⟨rfl, pulses, rfl, Scalar.zero_exact.ge, iff_of_true (Nat.zero_le 1) rfl, ?_⟩
      exact ⟨fun pedaling => (by cases pedaling), fun turning => (turning rfl).elim⟩
    · obtain ⟨omega, turned⟩ := predict_turns wrap dt obs still long
      rw [turned]
      exact ⟨rfl, pulses, (if_neg still).symm, add_nonneg later forward, single, seen⟩

theorem Matches.predict (matched : Matches config obs history) {dt : ℝ} (forward : 0 ≤ dt) :
    Matches config (obs.predict wrap dt) (history.passes config.stopTimeout dt) := by
  refine ⟨matched.toFollows.predict wrap forward, ?_⟩
  obtain ⟨⟨rfl, -⟩, ⟨sum, samples, kept, ring, mean⟩⟩ := id matched
  unfold PedalHistory.passes
  by_cases still : obs.pulsesSeen = 0
  · rw [matched.sincePulse_none still, predict_still wrap dt obs still]
    exact ⟨sum, samples, kept, ring, mean⟩
  · rw [matched.sincePulse_some still]
    dsimp only
    split_ifs with long
    · rw [predict_stops wrap dt obs still long]
      refine ⟨Scalar.zero_exact, rfl, (Nat.zero_min _).symm, ?_, fun turning => (turning rfl).elim⟩
      refine ⟨ring.room, (Nat.zero_le _).trans_lt ring.inside, Nat.zero_le _, ?_⟩
      exact fun age young => absurd young (Nat.not_lt_zero age)
    · obtain ⟨omega, turned⟩ := predict_turns wrap dt obs still long
      rw [turned]
      exact ⟨sum, samples, kept, ring, mean⟩

theorem count_eq {n : Nat} (small : n < 2 ^ 32) : (count n : ℝ) = n := by
  show ((UInt64.ofNat n).toNat : ℝ) = n
  rw [UInt64.toNat_ofNat_of_lt' (small.trans (by decide))]

theorem Matches.interval (matched : Matches config obs history) (few : history.samples.length < 2 ^ 32) :
    (if 0 < obs.binCount then obs.binSum / Scalar.ofUInt64 obs.binCount.toUInt64 else obs.torqueFast) =
      PedalHistory.interval obs.torqueFast history.samples := by
  have counted : obs.binCount.toNat = history.samples.length := by
    rw [matched.samples, UInt32.toNat_ofNat_of_lt' few]
  have number : (Scalar.ofUInt64 obs.binCount.toUInt64 : ℝ) = history.samples.length := by
    rw [← counted]
    rfl
  have present : 0 < obs.binCount ↔ history.samples ≠ [] := by
    rw [UInt32.lt_iff_toNat_lt, counted]
    exact List.length_pos_iff
  unfold PedalHistory.interval
  rw [number, matched.sum]
  by_cases none : history.samples = []
  · rw [if_pos none, if_neg (mt present.mp (not_not.mpr none))]
  · rw [if_neg none, if_pos (present.mpr none)]

theorem Follows.first (follows : Follows config obs history) (still : obs.pulsesSeen = 0) :
    Follows config (obs.onPulse wrap) (history.pulse obs.torqueFast) := by
  unfold PedalHistory.pulse
  rw [follows.sincePulse_none still, onPulse_first wrap obs still]
  refine ⟨follows.tuned, follows.pulses, congrArg some Scalar.zero_exact.symm, Scalar.zero_exact.ge,
    iff_of_true le_rfl rfl, ?_⟩
  exact ⟨fun pedaling => (by cases pedaling), fun turning => (turning rfl).elim⟩

theorem Follows.next (follows : Follows config obs history) (turning : obs.pulsesSeen ≠ 0) :
    Follows config (obs.onPulse wrap) (history.pulse obs.torqueFast) := by
  obtain ⟨angle, omega, p, counted⟩ := onPulse_next wrap obs turning
  unfold PedalHistory.pulse
  rw [follows.sincePulse_some turning, counted]
  refine ⟨follows.tuned, follows.pulses, congrArg some Scalar.zero_exact.symm, Scalar.zero_exact.ge,
    iff_of_false (by simp [pulsed]) (by simp), ?_⟩
  exact iff_of_true rfl (by simp)

theorem Follows.onPulse (follows : Follows config obs history) :
    Follows config (obs.onPulse wrap) (history.pulse obs.torqueFast) := by
  by_cases still : obs.pulsesSeen = 0
  · exact follows.first wrap still
  · exact follows.next wrap still

theorem Matches.first (matched : Matches config obs history) (still : obs.pulsesSeen = 0) :
    Matches config (obs.onPulse wrap) (history.pulse obs.torqueFast) := by
  refine ⟨matched.toFollows.first wrap still, ?_⟩
  have none := matched.single.mp (by omega)
  have empty : obs.completedBins = 0 := by rw [matched.kept, none, List.length_nil, Nat.zero_min]
  unfold PedalHistory.pulse
  rw [matched.sincePulse_none still, onPulse_first wrap obs still]
  refine ⟨Scalar.zero_exact, rfl, empty.trans (Nat.zero_min _).symm, ?_, fun turning => (turning rfl).elim⟩
  refine ⟨matched.ring.room, (Nat.zero_le _).trans_lt matched.ring.inside, matched.ring.within, ?_⟩
  intro age young
  exact absurd young (empty ▸ Nat.not_lt_zero age)

theorem closed_sum {kept : Nat} {bins intervals : List ℝ} {index pulses : Nat} (inside : index < pulses)
    (ring : Recent.Holds pulses ((index + 1) % pulses) kept bins intervals) (known : kept ≤ intervals.length) :
    (List.range kept).foldl (fun total i => total + bins.getD ((index + pulses - i) % pulses) Scalar.zero) Scalar.zero =
      (intervals.take kept).sum := by
  have within := ring.within
  have newest := Recent.slot_newest inside
  rw [Scalar.zero_exact, ← ring.sum known]
  apply List.foldl_ext
  intro total age young
  have recent : age < pulses := (List.mem_range.mp young).trans_le within
  have back := Recent.slot_back ring.inside recent
  rw [newest] at back
  rw [back]

theorem Matches.closed (matched : Matches config obs history) (few : history.samples.length < 2 ^ 32) :
    let after := { obs with binIndex := (obs.binIndex + 1) % obs.pulsesPerRev }.finishBin
    let intervals := PedalHistory.interval obs.torqueFast history.samples :: history.intervals
    after.completedBins = min intervals.length (windowOf config) ∧
      Recent.Holds (pulsesOf config) after.binIndex after.completedBins after.bins intervals ∧
      after.meanTorque = (intervals.take (windowOf config)).sum / (min intervals.length (windowOf config) : Nat) := by
  obtain ⟨-, most, small, window⟩ := pulsesOf_bounds config
  intro after intervals
  let value := PedalHistory.interval obs.torqueFast history.samples
  have ring := matched.ring.push value window
  have completed : min (obs.completedBins + 1) (windowOf config) = min intervals.length (windowOf config) := by
    have before := matched.kept
    simp only [intervals, List.length_cons]
    omega
  rw [completed] at ring
  have closed : ((obs.binIndex + 1) % pulsesOf config + pulsesOf config - 1) % pulsesOf config = obs.binIndex :=
    Recent.slot_newest matched.ring.inside
  have total := closed_sum matched.ring.inside ring (min_le_left ..)
  have counted : (count (min intervals.length (windowOf config)) : ℝ) = (min intervals.length (windowOf config) : Nat) :=
    count_eq (by omega)
  have half : max (pulsesOf config / 2) 1 = windowOf config := rfl
  have fold : after = { obs with
      binIndex := (obs.binIndex + 1) % pulsesOf config, bins := obs.bins.set obs.binIndex value
      binSum := Scalar.zero, binCount := 0, completedBins := min intervals.length (windowOf config)
      meanTorque := (intervals.take (min intervals.length (windowOf config))).sum /
        (min intervals.length (windowOf config) : Nat) } := by
    show finishBin _ = _
    unfold finishBin
    dsimp only
    rw [matched.pulses, closed, matched.interval few, half, completed, counted, total]
  rw [fold]
  refine ⟨rfl, ring, ?_⟩
  dsimp only
  rw [min_comm, ← List.take_eq_take_min]

theorem Matches.next (matched : Matches config obs history) (few : history.samples.length < 2 ^ 32)
    (turning : obs.pulsesSeen ≠ 0) : Matches config (obs.onPulse wrap) (history.pulse obs.torqueFast) := by
  refine ⟨matched.toFollows.next wrap turning, ?_⟩
  obtain ⟨kept, ring, mean⟩ := matched.closed few
  obtain ⟨angle, omega, p, counted⟩ := onPulse_next wrap obs turning
  unfold PedalHistory.pulse
  rw [matched.sincePulse_some turning, counted]
  exact ⟨Scalar.zero_exact, rfl, kept, ring, fun _ => mean⟩

theorem Matches.onPulse (matched : Matches config obs history) (few : history.samples.length < 2 ^ 32) :
    Matches config (obs.onPulse wrap) (history.pulse obs.torqueFast) := by
  by_cases still : obs.pulsesSeen = 0
  · exact matched.first wrap still
  · exact matched.next wrap few still

theorem Follows.closeStep (follows : Follows config obs history) (dt torque : ℝ) :
    Follows config (obs.closeStep dt torque) (history.sample (torque - obs.zeroOffset)) := by
  obtain ⟨offset, trimmed⟩ :=
    trimZero_eq dt ((obs.filtered dt (torque - obs.zeroOffset)).sampled (torque - obs.zeroOffset)) torque
  unfold PedalObserver.closeStep
  rw [trimmed]
  unfold PedalHistory.sample sampled
  by_cases still : obs.pulsesSeen = 0
  · rw [follows.sincePulse_none still, if_neg (by simp [filtered, still])]
    exact ⟨follows.tuned, follows.pulses, follows.since, follows.later, follows.single, follows.seen⟩
  · rw [follows.sincePulse_some still, if_pos (by simpa [filtered] using Nat.pos_of_ne_zero still)]
    exact ⟨follows.tuned, follows.pulses, (if_neg still).symm, follows.later, follows.single, follows.seen⟩

theorem Matches.closeStep (matched : Matches config obs history) (dt torque : ℝ) :
    Matches config (obs.closeStep dt torque) (history.sample (torque - obs.zeroOffset)) := by
  refine ⟨matched.toFollows.closeStep dt torque, ?_⟩
  obtain ⟨offset, trimmed⟩ :=
    trimZero_eq dt ((obs.filtered dt (torque - obs.zeroOffset)).sampled (torque - obs.zeroOffset)) torque
  unfold PedalObserver.closeStep
  rw [trimmed]
  unfold PedalHistory.sample sampled
  by_cases still : obs.pulsesSeen = 0
  · rw [matched.sincePulse_none still, if_neg (by simp [filtered, still])]
    exact ⟨matched.sum, matched.samples, matched.kept, matched.ring, matched.mean⟩
  · rw [matched.sincePulse_some still, if_pos (by simpa [filtered] using Nat.pos_of_ne_zero still)]
    refine ⟨?_, ?_, matched.kept, matched.ring, matched.mean⟩
    · exact (congrArg (· + (torque - obs.zeroOffset)) matched.sum).trans (add_comm ..)
    · exact (congrArg (· + 1) matched.samples).trans (UInt32.ofNat_add _ 1).symm

end Operations

/-- The observer and the history after some pulses of a step. -/
structure Underway (config : PedalObserverConfig ℝ) (dt fast offset : ℝ) (progress : ℝ × PedalObserver ℝ)
    (history : ℝ × PedalHistory) : Prop where
  elapsed : progress.1 = history.1
  forward : 0 ≤ history.1
  within : history.1 ≤ dt
  follows : Follows config progress.2 history.2
  fast : progress.2.torqueFast = fast
  offset : progress.2.zeroOffset = offset

/-- The same, with fewer samples in the open interval than its count holds. -/
structure Counting (config : PedalObserverConfig ℝ) (dt fast offset : ℝ) (progress : ℝ × PedalObserver ℝ)
    (history : ℝ × PedalHistory) : Prop extends Underway config dt fast offset progress history where
  matched : Matches config progress.2 history.2
  few : history.2.samples.length < 2 ^ 32

section Runs

variable {dt fast offset : ℝ} (wrap : ℝ → ℝ) {progress : ℝ × PedalObserver ℝ} {history : ℝ × PedalHistory}

theorem Underway.time (underway : Underway config dt fast offset progress history) (age : ℝ) :
    Scalar.clamp (dt - age) progress.1 dt = PedalHistory.pulseTime dt history.1 age ∧
      history.1 ≤ PedalHistory.pulseTime dt history.1 age ∧ PedalHistory.pulseTime dt history.1 age ≤ dt := by
  refine ⟨?_, le_min (le_max_right ..) underway.within, min_le_right ..⟩
  rw [Scalar.clamp_exact, underway.elapsed]
  rfl

theorem Underway.waits (underway : Underway config dt fast offset progress history) (age : ℝ) :
    Follows config (before wrap dt progress age)
      (history.2.passes config.stopTimeout (PedalHistory.pulseTime dt history.1 age - history.1)) := by
  obtain ⟨clamped, later, -⟩ := underway.time age
  unfold before
  rw [clamped, underway.elapsed]
  exact underway.follows.predict wrap (sub_nonneg.mpr later)

theorem Underway.filtered (underway : Underway config dt fast offset progress history) (age : ℝ) :
    (before wrap dt progress age).torqueFast = fast :=
  (predict_keeps wrap (Scalar.clamp (dt - age) progress.1 dt - progress.1) progress.2).1.trans underway.fast

theorem Underway.edge (underway : Underway config dt fast offset progress history) (age : ℝ) :
    Underway config dt fast offset (edge wrap dt progress age)
      (PedalHistory.edge config.stopTimeout fast dt history age) := by
  obtain ⟨clamped, later, within⟩ := underway.time age
  have kept := (predict_keeps wrap (Scalar.clamp (dt - age) progress.1 dt - progress.1) progress.2).2
  have filtered := underway.filtered wrap age
  obtain ⟨fastKept, offsetKept⟩ := onPulse_keeps wrap (before wrap dt progress age)
  have counted := (underway.waits wrap age).onPulse wrap
  rw [filtered] at counted
  rw [edge_eq]
  exact ⟨clamped, underway.forward.trans later, within, counted, fastKept.trans filtered,
    offsetKept.trans (kept.trans underway.offset)⟩

theorem Counting.edge (counting : Counting config dt fast offset progress history) (age : ℝ) :
    Counting config dt fast offset (PedalObserver.edge wrap dt progress age)
      (PedalHistory.edge config.stopTimeout fast dt history age) := by
  obtain ⟨clamped, later, -⟩ := counting.time age
  have waiting : Matches config (before wrap dt progress age)
      (history.2.passes config.stopTimeout (PedalHistory.pulseTime dt history.1 age - history.1)) := by
    unfold before
    rw [clamped, counting.elapsed]
    exact counting.matched.predict wrap (sub_nonneg.mpr later)
  have counted := waiting.onPulse wrap ((PedalHistory.passes_samples ..).trans_lt counting.few)
  rw [counting.filtered wrap age] at counted
  refine ⟨counting.toUnderway.edge wrap age, counted, ?_⟩
  show (PedalHistory.pulse _ _).samples.length < 2 ^ 32
  rw [PedalHistory.pulse_samples]
  decide

theorem Follows.edges {obs : PedalObserver ℝ} {history : PedalHistory} (follows : Follows config obs history)
    (forward : 0 ≤ dt) (ages : List ℝ) :
    Underway config dt obs.torqueFast obs.zeroOffset (ages.foldl (PedalObserver.edge wrap dt) (Scalar.zero, obs))
      (history.edges config.stopTimeout obs.torqueFast dt ages) := by
  refine List.foldl_rel (r := Underway config dt obs.torqueFast obs.zeroOffset) ?_ ?_
  · exact ⟨Scalar.zero_exact, le_rfl, forward, follows, rfl, rfl⟩
  · exact fun age _ progress history underway => underway.edge wrap age

theorem Matches.edges {obs : PedalObserver ℝ} {history : PedalHistory} (matched : Matches config obs history)
    (few : history.samples.length < 2 ^ 32) (forward : 0 ≤ dt) (ages : List ℝ) :
    Counting config dt obs.torqueFast obs.zeroOffset (ages.foldl (PedalObserver.edge wrap dt) (Scalar.zero, obs))
      (history.edges config.stopTimeout obs.torqueFast dt ages) := by
  refine List.foldl_rel (r := Counting config dt obs.torqueFast obs.zeroOffset) ?_ ?_
  · exact ⟨⟨Scalar.zero_exact, le_rfl, forward, matched.toFollows, rfl, rfl⟩, matched, few⟩
  · exact fun age _ progress history counting => counting.edge wrap age

theorem Follows.step {obs : PedalObserver ℝ} {history : PedalHistory} (follows : Follows config obs history)
    (forward : 0 ≤ dt) (torque : ℝ) (ages : List ℝ) :
    Follows config (obs.step wrap dt torque ages)
      (history.step config.stopTimeout obs.torqueFast dt (torque - obs.zeroOffset) ages) := by
  have underway := follows.edges wrap forward ages
  rw [step_eq, underway.elapsed]
  unfold PedalHistory.step
  generalize ages.foldl (PedalObserver.edge wrap dt) (Scalar.zero, obs) = progress at underway
  generalize history.edges config.stopTimeout obs.torqueFast dt ages = past at underway
  obtain ⟨elapsed, past⟩ := past
  have closed := (underway.follows.predict wrap (sub_nonneg.mpr underway.within)).closeStep dt torque
  rw [(predict_keeps wrap (dt - elapsed) progress.2).2, underway.offset] at closed
  exact closed

theorem Matches.step {obs : PedalObserver ℝ} {history : PedalHistory} (matched : Matches config obs history)
    (few : history.samples.length < 2 ^ 32) (forward : 0 ≤ dt) (torque : ℝ) (ages : List ℝ) :
    Matches config (obs.step wrap dt torque ages)
      (history.step config.stopTimeout obs.torqueFast dt (torque - obs.zeroOffset) ages) := by
  have counting := matched.edges wrap few forward ages
  rw [step_eq, counting.elapsed]
  unfold PedalHistory.step
  generalize ages.foldl (PedalObserver.edge wrap dt) (Scalar.zero, obs) = progress at counting
  generalize history.edges config.stopTimeout obs.torqueFast dt ages = past at counting
  obtain ⟨elapsed, past⟩ := past
  have closed := (counting.matched.predict wrap (sub_nonneg.mpr counting.within)).closeStep dt torque
  rw [(predict_keeps wrap (dt - elapsed) progress.2).2, counting.offset] at closed
  exact closed

end Runs

end PedalObserver

structure PedalStep where
  dt : ℝ
  torque : ℝ
  pulseAges : List ℝ

namespace PedalObserver

/-- Runs of the pedal observer; time goes on in every step. -/
noncomputable def pedals (wrap : ℝ → ℝ) (config : PedalObserverConfig ℝ) : Runs.Machine (PedalObserver ℝ) PedalStep where
  start := create config
  next obs event := obs.step wrap event.dt event.torque event.pulseAges
  admits _ event := 0 < event.dt

variable (wrap : ℝ → ℝ) (config : PedalObserverConfig ℝ)

noncomputable def history : List PedalStep → PedalHistory
  | [] => .still
  | event :: past =>
    let obs := (pedals wrap config).replay past
    (history past).step config.stopTimeout obs.torqueFast event.dt (event.torque - obs.zeroOffset) event.pulseAges

/-- The observer after some pulses of the next step. -/
noncomputable def during (dt : ℝ) (pulseAges : List ℝ) (trace : List PedalStep) : PedalObserver ℝ :=
  (pulseAges.foldl (edge wrap dt) (Scalar.zero, (pedals wrap config).replay trace)).2

noncomputable def historyDuring (dt : ℝ) (pulseAges : List ℝ) (trace : List PedalStep) : PedalHistory :=
  ((history wrap config trace).edges config.stopTimeout ((pedals wrap config).replay trace).torqueFast dt pulseAges).2

/-- The open interval has fewer samples than a 32-bit count holds. -/
def FewSamples (event : PedalStep) (past : List PedalStep) : Prop :=
  (history wrap config (event :: past)).samples.length < 2 ^ 32

/-- The mean is that of the newest intervals, and the ring is used within its size. -/
structure Averages (obs : PedalObserver ℝ) (history : PedalHistory) : Prop where
  mean : history.intervals ≠ [] → obs.meanPedalTorque = history.mean (windowOf config)
  room : pulsesOf config ≤ obs.bins.length
  size : obs.pulsesPerRev = pulsesOf config
  index : obs.binIndex < pulsesOf config
  within : obs.completedBins ≤ pulsesOf config
  closed : (obs.binIndex + pulsesOf config - 1) % pulsesOf config < pulsesOf config
  read : ∀ i < obs.completedBins,
    ((obs.binIndex + pulsesOf config - 1) % pulsesOf config + pulsesOf config - i) % pulsesOf config < pulsesOf config

variable {wrap config}

theorem Matches.averages {obs : PedalObserver ℝ} {history : PedalHistory} (matched : Matches config obs history) :
    Averages config obs history := by
  have pulses : 0 < pulsesOf config := (Nat.zero_le _).trans_lt matched.ring.inside
  refine ⟨fun intervals => ?_, matched.ring.room, matched.pulses, matched.ring.inside, matched.ring.within,
    Nat.mod_lt _ pulses, fun i _ => Nat.mod_lt _ pulses⟩
  exact (if_pos (matched.seen.mpr intervals)).trans (matched.mean intervals)

theorem pedals_follow : ∀ trace, (pedals wrap config).Legal trace →
    Follows config ((pedals wrap config).replay trace) (history wrap config trace) := by
  refine Runs.Machine.invariant (fun obs trace => Follows config obs (history wrap config trace)) .create ?_
  exact fun event past follows forward => follows.step wrap (le_of_lt forward) event.torque event.pulseAges

theorem pedals_match : ∀ trace, (pedals wrap config).Legal trace → Runs.Throughout (FewSamples wrap config) trace →
    Matches config ((pedals wrap config).replay trace) (history wrap config trace) ∧
      (history wrap config trace).samples.length < 2 ^ 32 := by
  refine Runs.Machine.invariant_under (FewSamples wrap config) (fun obs trace =>
    Matches config obs (history wrap config trace) ∧ (history wrap config trace).samples.length < 2 ^ 32) ?_ ?_
  · exact ⟨.create, Nat.two_pow_pos 32⟩
  · rintro event past ⟨matched, few⟩ forward next
    exact ⟨matched.step wrap few (le_of_lt forward) event.torque event.pulseAges, next⟩

/-- After every pulse and every step of a run the mean torque is that of the last half revolution. -/
theorem mean_kept (trace : List PedalStep) (legal : (pedals wrap config).Legal trace)
    (few : Runs.Throughout (FewSamples wrap config) trace) (dt : ℝ) (forward : 0 ≤ dt) (pulseAges : List ℝ) :
    Averages config (during wrap config dt pulseAges trace) (historyDuring wrap config dt pulseAges trace) := by
  obtain ⟨matched, fewer⟩ := pedals_match trace legal few
  exact (matched.edges wrap fewer forward pulseAges).matched.averages

/-- Two pulses of the second step close an interval. -/
theorem mean_kept_second :
    (historyDuring id .default 0.02 [0.015, 0.005] [⟨0.02, 10, []⟩]).intervals.length = 1 ∧
      Averages .default (during id .default 0.02 [0.015, 0.005] [⟨0.02, 10, []⟩])
        (historyDuring id .default 0.02 [0.015, 0.005] [⟨0.02, 10, []⟩]) := by
  refine ⟨?_, mean_kept [⟨0.02, 10, []⟩] ⟨?_, trivial⟩ ?_ 0.02 (by norm_num) [0.015, 0.005]⟩
  · have turning : ¬(0.5 : ℝ) < 0.01 := by norm_num
    have between : min (max ((0.02 : ℝ) - 0.005) 0.005) 0.02 - 0.005 = 0.01 := by norm_num
    have first : min (max ((0.02 : ℝ) - 0.015) 0) 0.02 = 0.005 := by norm_num
    have timeout : (PedalObserverConfig.default : PedalObserverConfig ℝ).stopTimeout = 0.5 := rfl
    simp [historyDuring, history, PedalHistory.step, PedalHistory.edges, PedalHistory.edge, PedalHistory.pulseTime, PedalHistory.passes,
      PedalHistory.sample, PedalHistory.still, PedalHistory.pulse, first, between, timeout, turning]
  · show (0 : ℝ) < 0.02
    norm_num
  · refine (Runs.throughout_cons ..).mpr ⟨?_, Runs.throughout_nil _⟩
    simp [FewSamples, history, PedalHistory.step, PedalHistory.edges, PedalHistory.passes, PedalHistory.sample,
      PedalHistory.still]

end PedalObserver

end Unimoc.Ebike
