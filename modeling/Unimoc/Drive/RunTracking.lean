import Unimoc.Drive.Tracking

/-! The startup aid on a tracked board: a run holds the outputs until it ends, with them
off. -/
namespace Unimoc.Drive

open CurrentControl Firmware Hardware Settings Startup

variable {F : Type} [Arithmetic F] {start : Arming F} {p : Private F} {b : Board F}
  {fsm : HwStartup F}

/-- The thread is inside `RunOnce()` of a recorded run. -/
structure Stepping (p : Private F) : Prop where
  running : p.running = true
  recorded : p.startupActive = true
  calm : p.Calm

/-- The startup aid and the board after a call, with the run as it then is. -/
def Carried (start : Arming F) (p : Private F) (r : HwStartup F × Board F) : Prop :=
  Tracks start { p with running := r.1.isActive } r.2

namespace Tracks

theorem carried (t : Tracks start p b) (active : fsm.isActive = p.running) :
    Carried start p (fsm, b) := by
  unfold Carried
  rw [active]
  exact t

theorem neutral (t : Tracks start p b) (held : p.starting = true ∨ p.running = true) :
    Tracks start p (HwStartup.neutral b) := t.forceDuty _ _ _ held

/-- At its end a run is through with switching the outputs off. -/
theorem closed {running : Bool} (t : Tracks start { p with running := running, closing := false } b)
    (unclosed : p.closing = false) : Tracks start { p with running := running } b := by
  refine t.seen ?_
  rw [← unclosed]

theorem enterFault {reason : StartupFault} {closing : Bool}
    (t : Tracks start { p with closing := closing } b) (running : p.running = true)
    (free : p.engaging = false) (unclosed : p.closing = false)
    (cause : reason = .aborted ∨ p.startupActive = true ∨ p.emergencyStop = true) :
    Carried start p (fsm.enterFault reason b) := by
  have off := (t.neutral (.inr running)).disable
  have ended := off.note (e := .runEnded reason) (q := { p with running := false, closing := false })
    ⟨running, rfl, free, cause⟩ rfl
  exact ended.closed unclosed

theorem applyCalibration (calibration : AdcCalibration F) (t : Tracks start p b)
    (recorded : p.startupActive = true) (running : p.running = true) (untuned : p.tuning = false) :
    Tracks start p (b.change .calibration (b.store.applyAdcCalibration calibration)).2 := by
  have changed := t.change .calibration (b.store.applyAdcCalibration calibration) ?_
  · rw [Private.changed_calibration, ite_self] at changed
    exact changed
  · intro taken
    refine ⟨?_, fun _ => ⟨recorded, running⟩, nofun, untuned, fun written => lowered written⟩
    intro r untouched
    have committed := SettingsStore.commit_settings taken
    exact (congrFun committed r).trans (SettingsStore.withAdcCalibration_other _ _ untouched)

theorem runDone (t : Tracks start p b) (h : Stepping p) : Carried start p (fsm.runDone b) := by
  have released := t.disable.releaseForceDuty
  have off : b.disable.releaseForceDuty.stage.enabled = false :=
    Board.preempt_off (b := b.disable) rfl
  have applied := released.applyCalibration ⟨fsm.results.adcOffsetA, fsm.results.adcOffsetB,
    fsm.results.adcOffsetC, HwStartup.correction fsm.results.gainA, HwStartup.correction fsm.results.gainB,
    HwStartup.correction fsm.results.gainC, HwStartup.correction fsm.results.gainVdc⟩
    h.recorded h.running h.calm.tuning
  unfold HwStartup.runDone
  simp only [Board.change_status]
  split
  · exact applied.enterFault h.running h.calm.engaging h.calm.closing (.inr (.inl h.recorded))
  · have ended := applied.note (e := .runEnded .none) (q := { p with running := false, closing := false })
      ⟨h.running, by simpa [Board.outputs] using off, h.calm.engaging, .inr (.inl h.recorded)⟩ rfl
    exact ended.closed h.calm.closing

theorem advanceToNextState (t : Tracks start p b) (h : Stepping p) (active : fsm.isActive = true) :
    Carried start p (fsm.advanceToNextState b) := by
  unfold HwStartup.advanceToNextState
  simp only []
  split
  · exact t.runDone h
  · rename_i goesOn
    refine t.carried ?_
    rw [h.running]
    exact FsmState.next_active active goesOn

theorem continueWhenAsked (t : Tracks start p b) (h : Stepping p) (active : fsm.isActive = true) :
    Carried start p (fsm.continueWhenAsked b) := by
  unfold HwStartup.continueWhenAsked
  split
  · exact t.advanceToNextState h active
  · exact t.carried (active.trans h.running.symm)

theorem carriedActive (t : Tracks start p b) (h : Stepping p) (active : fsm.isActive = true) :
    Carried start p (fsm, b) := t.carried (active.trans h.running.symm)

theorem runPwmDisable (t : Tracks start p b) (h : Stepping p) (active : fsm.isActive = true) :
    Carried start p (fsm.runPwmDisable b) := by
  have neutral := t.neutral (.inr h.running)
  unfold HwStartup.runPwmDisable
  simp only []
  split
  · exact neutral.advanceToNextState h active
  · exact neutral.carriedActive h active

theorem runCalibration {finish : HwStartup F → HwStartup F} (t : Tracks start p b) (h : Stepping p)
    (active : fsm.isActive = true) (finished : ∀ fsm, (finish fsm).isActive = fsm.isActive) :
    Carried start p (fsm.runCalibration finish b) := by
  have neutral := t.neutral (.inr h.running)
  unfold HwStartup.runCalibration
  simp only []
  split
  · exact neutral.continueWhenAsked h active
  · refine neutral.readIsr.continueWhenAsked h ?_
    split
    · exact (finished _).trans active
    · exact active

theorem runDutyForce (duty : F) (t : Tracks start p b) (h : Stepping p) (active : fsm.isActive = true) :
    Carried start p (fsm.runDutyForce duty b) := by
  have forced := t.forceDuty duty duty duty (.inr h.running)
  unfold HwStartup.runDutyForce
  simp only []
  split
  · exact forced.continueWhenAsked h active
  · split
    · exact forced.carriedActive h active
    · exact forced.continueWhenAsked h active

theorem evaluateDcLink_active : fsm.evaluateDcLink.isActive = fsm.isActive := by
  unfold HwStartup.evaluateDcLink
  simp only []
  split
  · rfl
  · split <;> rfl

theorem runDcLinkVoltageCheck (t : Tracks start p b) (h : Stepping p) (active : fsm.isActive = true) :
    Carried start p (fsm.runDcLinkVoltageCheck b) := by
  have neutral := t.neutral (.inr h.running)
  unfold HwStartup.runDcLinkVoltageCheck
  simp only []
  split
  · exact neutral.continueWhenAsked h active
  · split
    · split
      · exact neutral.readIsr.carriedActive h active
      · exact neutral.readIsr.carriedActive h (evaluateDcLink_active.trans active)
    · exact neutral.carriedActive h (evaluateDcLink_active.trans active)

theorem runGateDriverEnableCheck (t : Tracks start p b) (h : Stepping p)
    (active : fsm.isActive = true) : Carried start p (fsm.runGateDriverEnableCheck b) := by
  unfold HwStartup.runGateDriverEnableCheck
  simp only []
  split
  · exact t.continueWhenAsked h active
  · split
    · have sampled := (t.neutral (.inr h.running)).readIsr
      split
      · exact sampled.carriedActive h active
      · exact sampled.carriedActive h active
    · have sampled := (t.forceDuty 0.55 0.45 0.45 (.inr h.running)).readIsr
      refine sampled.carriedActive h ?_
      split
      · exact active
      · exact active

theorem injectAlphaCurrent (t : Tracks start p b) (running : p.running = true) :
    Tracks start p (HwStartup.injectAlphaCurrent b) := t.forceDuty _ _ _ (.inr running)

theorem enterSweep (fsm : HwStartup F) (t : Tracks start p b) :
    Tracks start p (fsm.enterSweep b).2 ∧ (fsm.enterSweep b).1.isActive = fsm.isActive := by
  unfold HwStartup.enterSweep
  split
  · exact ⟨t.readIsr, rfl⟩
  · exact ⟨t, rfl⟩

theorem sweep (t : Tracks start p b) (h : Stepping p) (active : fsm.isActive = true) :
    Carried start p (fsm.sweep b) := by
  unfold HwStartup.sweep
  simp only []
  split
  · exact (t.setAdcTriggerOffset _).carriedActive h active
  · have sampled := t.readIsr
    split
    · exact (sampled.setAdcTriggerOffset _).carriedActive h active
    · exact sampled.carriedActive h active

theorem runPhaseAdcAlignment (t : Tracks start p b) (h : Stepping p) (active : fsm.isActive = true) :
    Carried start p (fsm.runPhaseAdcAlignment b) := by
  have injected := t.injectAlphaCurrent h.running
  unfold HwStartup.runPhaseAdcAlignment
  simp only []
  split
  · exact injected.continueWhenAsked h active
  · obtain ⟨entered, same⟩ := injected.enterSweep fsm
    exact entered.sweep h (same.trans active)

theorem awaitReading (t : Tracks start p b) (h : Stepping p) (active : fsm.isActive = true) :
    Carried start p (fsm.awaitReading b) := by
  unfold HwStartup.awaitReading
  split
  · exact t.carriedActive h active
  · exact t.continueWhenAsked h active

theorem runCurrentSenseCalibration (t : Tracks start p b) (h : Stepping p)
    (active : fsm.isActive = true) : Carried start p (fsm.runCurrentSenseCalibration b) := by
  have injected := t.injectAlphaCurrent h.running
  unfold HwStartup.runCurrentSenseCalibration
  simp only []
  split
  · exact injected.continueWhenAsked h active
  · split
    · have sampled := injected.readIsr
      split
      · exact sampled.carriedActive h active
      · exact sampled.awaitReading h active
    · exact injected.awaitReading h active

theorem enterBarrier (fsm : HwStartup F) (t : Tracks start p b) (h : Stepping p) :
    Tracks start p (fsm.enterBarrier b).2 ∧ (fsm.enterBarrier b).1.isActive = fsm.isActive := by
  unfold HwStartup.enterBarrier
  split
  · have awaited := t.disable.note (e := .motorAwaited) (q := { p with running := p.running, closing := false })
      h.running rfl
    exact ⟨awaited.closed h.calm.closing, rfl⟩
  · exact ⟨t, rfl⟩

theorem acknowledge (t : Tracks start p b) (held : p.starting = true ∨ p.running = true)
    (state : PowerStageState) :
    Tracks start p (if state = .fault then b.clearFault .startup else b) := by
  split
  · exact t.clearFault .startup held
  · exact t

theorem releaseMotor (t : Tracks start p b) (h : Stepping p) (active : fsm.isActive = true) :
    Carried start p (fsm.releaseMotor b) := by
  have acknowledged := t.getState.acknowledge (.inr h.running) b.getState.1
  obtain ⟨ready, released | refused⟩ := acknowledged.enable_cases
  · have on := ready.release (e := .motorReleased) ⟨h.running, h.calm.stopping⟩ rfl
    unfold HwStartup.releaseMotor
    simp only [released, Bool.not_true, Bool.false_eq_true, ↓reduceIte]
    exact on.advanceToNextState h active
  · unfold HwStartup.releaseMotor
    simp only [refused, Bool.not_false, ↓reduceIte]
    exact ready.enterFault h.running h.calm.engaging h.calm.closing (.inr (.inl h.recorded))

theorem runConnectMotorWait (t : Tracks start p b) (h : Stepping p) (active : fsm.isActive = true) :
    Carried start p (fsm.runConnectMotorWait b) := by
  obtain ⟨waiting, same⟩ := (t.neutral (.inr h.running)).enterBarrier fsm h
  unfold HwStartup.runConnectMotorWait
  simp only []
  split
  · exact waiting.releaseMotor h (same.trans active)
  · exact waiting.carriedActive h (same.trans active)

theorem runStep (t : Tracks start p b) (h : Stepping p) (active : fsm.isActive = true) :
    Carried start p (fsm.runStep b) := by
  unfold HwStartup.runStep
  split
  · exact t.carriedActive h active
  · exact t.carriedActive h active
  · exact t.carriedActive h active
  · exact t.runPwmDisable h active
  · exact t.runCalibration h active fun _ => rfl
  · exact t.runCalibration h active fun _ => rfl
  · exact t.runDutyForce _ h active
  · exact t.runDutyForce _ h active
  · exact t.runDutyForce _ h active
  · exact t.runDcLinkVoltageCheck h active
  · exact t.runGateDriverEnableCheck h active
  · exact t.runConnectMotorWait h active
  · exact t.runPhaseAdcAlignment h active
  · exact t.runCurrentSenseCalibration h active

theorem stageLost (fsm : HwStartup F) (t : Tracks start p b) : Tracks start p (fsm.stageLost b).2 := by
  unfold HwStartup.stageLost
  simp only []
  split
  · split
    · exact t.getState.tripName
    · exact t.getState
  · exact t

theorem runOnce (t : Tracks start p b) (h : Stepping p) (active : fsm.isActive = true) :
    Carried start p (fsm.runOnce b) := by
  unfold HwStartup.runOnce
  simp only []
  split
  · exact t.takeSamplesReady.carriedActive h active
  · have looked := t.takeSamplesReady.stageLost fsm
    split
    · exact looked.enterFault h.running h.calm.engaging h.calm.closing (.inr (.inl h.recorded))
    · split
      · exact looked.readIsr.enterFault h.running h.calm.engaging h.calm.closing (.inr (.inl h.recorded))
      · exact looked.readIsr.runStep h active

/-! ### Requests -/

theorem requestAbort {reason : StartupFault} (t : Tracks start p b) (current : fsm.isActive = p.running)
    (free : p.engaging = false) (unclosed : p.closing = false)
    (cause : reason = .aborted ∨ p.startupActive = true ∨ p.emergencyStop = true) :
    Carried start p (fsm.requestAbort reason b) := by
  unfold HwStartup.requestAbort
  split
  · exact t.carried current
  · rename_i active
    exact t.enterFault (by simpa [current] using active) free unclosed cause

theorem prepareRun (t : Tracks start p b) (idle : p.running = false) (calm : p.Calm)
    (engaged : p.engaged = false) (stopped : p.emergencyStop = false) :
    Tracks start { p with starting := true }
      (HwStartup.prepareRun b) := by
  have attempted : Tracks start { p with starting := true } (b.record .startAttempted) :=
    t.note ⟨engaged, stopped, idle, calm⟩ rfl
  have acknowledged := attempted.getState.acknowledge (.inl rfl) (b.record .startAttempted).getState.1
  exact (acknowledged.clearTrips .startup (.inl rfl)).neutral (.inl rfl)

theorem requestRun (t : Tracks start p b) (current : fsm.isActive = p.running)
    (calm : p.Calm) (engaged : p.engaged = false) (stopped : p.emergencyStop = false) :
    Carried start p (fsm.requestRun b).2 := by
  unfold HwStartup.requestRun
  split
  · exact t.carried current
  · rename_i idle
    have idle : p.running = false := by simpa [current] using idle
    have prepared := t.prepareRun idle calm engaged stopped
    obtain ⟨ready, released | refused⟩ := prepared.enable_cases
    · simp only [released, Bool.not_true, Bool.false_eq_true, ↓reduceIte]
      have on := ready.release (e := .runStarted) (q := { p with starting := false, running := true })
        ⟨rfl, engaged, stopped⟩ rfl
      rw [Private.startOver calm.starting] at on
      exact on
    · simp only [refused, Bool.not_false, ↓reduceIte]
      have off := ready.releaseForceDuty.note (e := .startRefused)
        (q := { p with starting := false, running := p.running }) ⟨rfl, rfl⟩ rfl
      rw [Private.startOver calm.starting, idle] at off
      exact off

/-! ### Commands -/

theorem continueStep_active (confirmation : List UInt8) (fsm : HwStartup F) :
    (Commissioning.continueStep confirmation fsm).2.isActive = fsm.isActive := by
  unfold Commissioning.continueStep HwStartup.requestNextStep
  simp only []
  split
  · rfl
  · split
    · rfl
    · split
      · rfl
      · rfl
      · split
        · rfl
        · split <;> rfl
      · split
        · rfl
        · split <;> rfl

theorem setReading_active (reading : List UInt8) (fsm : HwStartup F) :
    (Commissioning.setReading reading fsm).2.isActive = fsm.isActive := by
  unfold Commissioning.setReading
  simp only []
  split
  · rfl
  · split
    · rfl
    · split
      · rfl
      · split
        · rfl
        · split <;> rfl

theorem startAid (t : Tracks start p b) (current : fsm.isActive = p.running)
    (calm : p.Calm) :
    Carried start p (Commissioning.start p.engaged p.emergencyStop fsm b).2 := by
  unfold Commissioning.start
  split
  · exact t.carried current
  · rename_i disengaged
    split
    · exact t.carried current
    · rename_i unstopped
      have run := t.requestRun current calm (by simpa using disengaged) (by simpa using unstopped)
      simp only []
      split <;> exact run

theorem commission (fsm : HwStartup F) (command : UInt16) (parameter : List UInt8) (t : Tracks start p b)
    (current : fsm.isActive = p.running) (calm : p.Calm) :
    Carried start p
      (Commissioning.onCommand p.engaged p.emergencyStop command parameter fsm b).2 := by
  unfold Commissioning.onCommand
  simp only []
  split
  · exact t.startAid current calm
  · split
    · exact t.carried ((continueStep_active parameter fsm).trans current)
    · split
      · exact t.carried ((setReading_active parameter fsm).trans current)
      · split
        · exact t.requestAbort current calm.engaging calm.closing (.inl rfl)
        · exact t.carried current

end Tracks

end Unimoc.Drive
