import Unimoc.Ebike.EbikeControl
import Unimoc.Lib.Runs

/-! The latch of the e-bike control: after an inhibit, or a fault while the drive was engaged or
wanted, no engagement until the pedals have stood still. Between two steps the last result is
returned, and an inhibit does not reach it. -/
namespace Unimoc.Ebike

open Drive Runs

variable {F : Type} [Arithmetic F]

/-- The calls of the drive; an update finds what the hardware has collected. -/
inductive ControlEvent (F : Type)
  | update (nowUs : UInt64) (vehicle : EbikeVehicle F) (reading : EbikeReading F)
  | inhibit

namespace EbikeControl

variable (functions : EbikeFunctions F) (parameters : EbikeParameters F)

def next (c : EbikeControl F) : ControlEvent F → EbikeControl F
  | .update nowUs vehicle reading => (c.update functions nowUs vehicle reading).2
  | .inhibit => c.inhibit

/-- Any order of calls, at any times. -/
def machine : Machine (EbikeControl F) (ControlEvent F) where
  start := create.configure parameters
  next := next functions
  admits _ _ := True

/-- The control after the calls. -/
def after (past : List (ControlEvent F)) : EbikeControl F := (machine functions parameters).replay past

/-! ### What the calls say -/

/-- Since when the pedals stand still: the last step that saw them turn, or the first step. -/
def stillSince (past : List (ControlEvent F)) : UInt64 :=
  latest
    (fun e past =>
      let c := after functions parameters past
      match e with
      | .update nowUs vehicle reading =>
        let observed := (c.observe functions nowUs vehicle reading).2
        if c.due nowUs && (observed.pedal.pedaling || !c.started) then some nowUs else none
      | .inhibit => none)
    0 past

/-- The pedals have stood still for the re-arm time. -/
def stood (nowUs : UInt64) (past : List (ControlEvent F)) : Bool :=
  toMicroseconds parameters.rearmPedalStop ≤ nowUs - stillSince functions parameters past

/-- The drive was engaged at the last step. -/
def engagedBefore (past : List (ControlEvent F)) : Bool :=
  latest
    (fun e past =>
      match e with
      | .update nowUs vehicle _ =>
        if (after functions parameters past).due nowUs then some vehicle.engaged else none
      | .inhibit => none)
    false past

/-- An inhibit came after the last step. -/
def inhibitedSince (past : List (ControlEvent F)) : Bool :=
  latest
    (fun e past =>
      match e with
      | .update nowUs _ _ => if (after functions parameters past).due nowUs then some false else none
      | .inhibit => some true)
    false past

/-- The drive was engaged at the last step, the last result asks for it, or in a step the rider
does. -/
def wanted (nowUs : UInt64) (vehicle : EbikeVehicle F) (reading : EbikeReading F)
    (past : List (ControlEvent F)) : Bool :=
  let c := after functions parameters past
  engagedBefore functions parameters past || c.output.engage ||
    c.due nowUs && (c.observe functions nowUs vehicle reading).2.wants

/-- An update sees a fault while the drive is engaged or wanted. -/
def seesFault (nowUs : UInt64) (vehicle : EbikeVehicle F) (reading : EbikeReading F)
    (past : List (ControlEvent F)) : Bool :=
  vehicle.faulted && (vehicle.engaged || wanted functions parameters nowUs vehicle reading past)

/-- The drive is to stay off: an inhibit came, or an update saw a fault while the drive was engaged
or wanted, and no step since has found that the pedals stood still for the re-arm time. -/
def held (past : List (ControlEvent F)) : Bool :=
  latest
    (fun e past =>
      match e with
      | .update nowUs vehicle reading =>
        if stood functions parameters nowUs (e :: past) then
          if (after functions parameters past).due nowUs then some false else none
        else if seesFault functions parameters nowUs vehicle reading past then some true
        else none
      | .inhibit => some true)
    false past

section History

variable (nowUs : UInt64) (vehicle : EbikeVehicle F) (reading : EbikeReading F)
  (past : List (ControlEvent F))

theorem stillSince_update :
    stillSince functions parameters (.update nowUs vehicle reading :: past) =
      if (after functions parameters past).due nowUs &&
          (((after functions parameters past).observe functions nowUs vehicle reading).2.pedal.pedaling ||
            !(after functions parameters past).started) then nowUs
      else stillSince functions parameters past := by
  unfold stillSince
  rw [latest_cons]
  simp only
  split <;> rfl

theorem engagedBefore_update :
    engagedBefore functions parameters (.update nowUs vehicle reading :: past) =
      if (after functions parameters past).due nowUs then vehicle.engaged
      else engagedBefore functions parameters past := by
  unfold engagedBefore
  rw [latest_cons]
  simp only
  split <;> rfl

theorem inhibitedSince_update :
    inhibitedSince functions parameters (.update nowUs vehicle reading :: past) =
      (!(after functions parameters past).due nowUs && inhibitedSince functions parameters past) := by
  unfold inhibitedSince
  rw [latest_cons]
  simp only
  cases (after functions parameters past).due nowUs <;> rfl

theorem held_update :
    held functions parameters (.update nowUs vehicle reading :: past) =
      if stood functions parameters nowUs (.update nowUs vehicle reading :: past) then
        !(after functions parameters past).due nowUs && held functions parameters past
      else seesFault functions parameters nowUs vehicle reading past || held functions parameters past := by
  unfold held
  rw [latest_cons]
  simp only
  split
  · cases (after functions parameters past).due nowUs <;> rfl
  · cases seesFault functions parameters nowUs vehicle reading past <;> rfl

end History

/-- While the drive is to stay off no update returns an engagement, but for a step that finds that
the pedals have stood still. -/
def KeepsOff (e : ControlEvent F) (past : List (ControlEvent F)) : Prop :=
  match e with
  | .update nowUs vehicle reading =>
    held functions parameters past = true →
      ((after functions parameters past).due nowUs && stood functions parameters nowUs (e :: past)) = false →
        ((after functions parameters past).update functions nowUs vehicle reading).2.output.engage = false
  | .inhibit => True

/-- Less than a step period after a step that engages. -/
def Remembers (nowUs : UInt64) (c : EbikeControl F) : Prop :=
  c.due nowUs = false ∧ c.output.engage = true

/-- No update that only repeats an engagement comes after an inhibit; and an update that sees the
first fault before the pedals stand still is a step, and the drive was engaged before it or is
wanted. -/
def Heeded (e : ControlEvent F) (past : List (ControlEvent F)) : Prop :=
  match e with
  | .update nowUs vehicle reading =>
    ¬(Remembers nowUs (after functions parameters past) ∧ inhibitedSince functions parameters past = true) ∧
      (seesFault functions parameters nowUs vehicle reading past = true →
        stood functions parameters nowUs (e :: past) = false → held functions parameters past = false →
          (after functions parameters past).due nowUs = true ∧
            wanted functions parameters nowUs vehicle reading past = true)
  | .inhibit => True

instance decidableRemembers (nowUs : UInt64) (c : EbikeControl F) : Decidable (Remembers nowUs c) :=
  inferInstanceAs (Decidable (_ ∧ _))

instance decidableHeeded (e : ControlEvent F) (past : List (ControlEvent F)) :
    Decidable (Heeded functions parameters e past) :=
  match e with
  | .update _ _ _ => inferInstanceAs (Decidable (_ ∧ _))
  | .inhibit => inferInstanceAs (Decidable True)

/-! ### A step -/

/-- What the display does not touch. -/
structure Apart (c c' : EbikeControl F) : Prop where
  parameters : c'.parameters = c.parameters
  pedal : c'.pedal = c.pedal
  wanting : c'.wanting = c.wanting
  latched : c'.latched = c.latched
  pedalStillSinceUs : c'.pedalStillSinceUs = c.pedalStillSinceUs
  wasEngaged : c'.wasEngaged = c.wasEngaged

omit [Arithmetic F] in
theorem Apart.trans {c c' c'' : EbikeControl F} (first : Apart c c') (second : Apart c' c'') :
    Apart c c'' where
  parameters := second.parameters.trans first.parameters
  pedal := second.pedal.trans first.pedal
  wanting := second.wanting.trans first.wanting
  latched := second.latched.trans first.latched
  pedalStillSinceUs := second.pedalStillSinceUs.trans first.pedalStillSinceUs
  wasEngaged := second.wasEngaged.trans first.wasEngaged

variable (nowUs : UInt64) (vehicle : EbikeVehicle F) (reading : EbikeReading F)

theorem takeByte_apart (state : List (List UInt8) × EbikeControl F) (byte : UInt8) :
    Apart state.2 (takeByte nowUs vehicle state byte).2 := by
  obtain ⟨sent, c⟩ := state
  unfold takeByte
  simp only
  split <;> exact ⟨rfl, rfl, rfl, rfl, rfl, rfl⟩

theorem takeBytes_apart (bytes : List UInt8) (state : List (List UInt8) × EbikeControl F) :
    Apart state.2 (bytes.foldl (takeByte nowUs vehicle) state).2 := by
  induction bytes generalizing state with
  | nil => exact ⟨rfl, rfl, rfl, rfl, rfl, rfl⟩
  | cons byte bytes ih => exact (takeByte_apart nowUs vehicle state byte).trans (ih _)

theorem serviceDisplay_apart (bytes : List UInt8) (c : EbikeControl F) :
    Apart c (c.serviceDisplay nowUs vehicle bytes).2 := by
  have taken := takeBytes_apart nowUs vehicle (bytes.take maxDisplayBytes) ([], c)
  unfold serviceDisplay
  simp only
  split
  · exact taken.trans ⟨rfl, rfl, rfl, rfl, rfl, rfl⟩
  · exact taken

/-- The state of the latch as a step finds it. -/
structure Observed (c observed : EbikeControl F) : Prop where
  parameters : observed.parameters = c.parameters
  wanting : observed.wanting = c.wanting
  latched : observed.latched = c.latched
  pedalStillSinceUs : observed.pedalStillSinceUs = if c.started then c.pedalStillSinceUs else nowUs
  wasEngaged : observed.wasEngaged = c.wasEngaged

variable (c : EbikeControl F)

theorem observe_observed : Observed nowUs c (c.observe functions nowUs vehicle reading).2 := by
  have displayed := serviceDisplay_apart nowUs vehicle reading.displayBytes
    { c.begin nowUs with
      pedal := (c.begin nowUs).pedal.step functions.wrapAngle (c.elapsed nowUs) reading.crankTorque
        (reading.pulseAges.take maxPulsesPerUpdate) }
  exact ⟨displayed.parameters, displayed.wanting, displayed.latched, displayed.pedalStillSinceUs,
    displayed.wasEngaged⟩

section Engagement

omit [Arithmetic F] in
theorem watchPedals_stillSince : (c.watchPedals nowUs).pedalStillSinceUs =
    if c.pedal.pedaling then nowUs else c.pedalStillSinceUs := by
  unfold watchPedals
  split <;> rfl

omit [Arithmetic F] in
theorem watchPedals_parameters : (c.watchPedals nowUs).parameters = c.parameters := by
  unfold watchPedals
  split <;> rfl

omit [Arithmetic F] in
theorem watchPedals_latchFault (faulted : Bool) :
    ((c.watchPedals nowUs).latchFault faulted).latched =
      ((faulted && (c.wanting || c.wasEngaged || c.wants)) || c.latched) := by
  have same : (c.watchPedals nowUs).wants = c.wants ∧ (c.watchPedals nowUs).wanting = c.wanting ∧
      (c.watchPedals nowUs).wasEngaged = c.wasEngaged ∧ (c.watchPedals nowUs).latched = c.latched := by
    unfold watchPedals
    split <;> exact ⟨rfl, rfl, rfl, rfl⟩
  obtain ⟨wants, wanting, wasEngaged, latched⟩ := same
  unfold latchFault
  rw [wants, wanting, wasEngaged]
  split
  · rename_i fault
    rw [fault]
    rfl
  · rename_i calm
    rw [Bool.eq_false_iff.mpr calm, latched]
    rfl

theorem latchFault_rearmed (faulted : Bool) :
    (c.latchFault faulted).rearmed nowUs = c.rearmed nowUs := by
  unfold latchFault
  split <;> rfl

theorem rearm_latched : (c.rearm nowUs).latched = (c.latched && !c.rearmed nowUs) := by
  unfold rearm
  cases latched : c.latched <;> cases rearmed : c.rearmed nowUs <;> simp [latched]

theorem demand_latched : (c.demand nowUs).latched = c.latched := by
  unfold demand
  split_ifs <;> rfl

/-- A latched control wants nothing after a step. -/
theorem demand_wanting : ((c.demand nowUs).wanting && (c.demand nowUs).latched) = false := by
  unfold demand
  cases latched : c.latched <;> cases c.wants <;> cases wanting : c.wanting <;> simp [latched, wanting]
  split <;> simp [latched]

/-- The latch after a step: set by the fault, and released by the pedals. -/
theorem engagement_latched : (c.engagement nowUs vehicle).latched =
    (((vehicle.faulted && (c.wanting || c.wasEngaged || c.wants)) || c.latched) &&
      !(c.watchPedals nowUs).rearmed nowUs) := by
  change ((((c.watchPedals nowUs).latchFault vehicle.faulted).rearm nowUs).demand nowUs).latched = _
  rw [demand_latched, rearm_latched, latchFault_rearmed, watchPedals_latchFault]

theorem engagement_stillSince : (c.engagement nowUs vehicle).pedalStillSinceUs =
    (c.watchPedals nowUs).pedalStillSinceUs := by
  unfold engagement demand rearm latchFault
  split_ifs <;> rfl

theorem engagement_parameters : (c.engagement nowUs vehicle).parameters = c.parameters := by
  rw [← watchPedals_parameters nowUs c]
  unfold engagement demand rearm latchFault
  split_ifs <;> rfl

end Engagement

/-! ### Runs -/

/-- The control knows what the calls say. -/
structure Latched (c : EbikeControl F) (past : List (ControlEvent F)) : Prop where
  configured : c.parameters = parameters
  latched : c.latched = held functions parameters past
  stillSince : c.pedalStillSinceUs = stillSince functions parameters past
  engaged : c.wasEngaged = engagedBefore functions parameters past
  wanting : c.wanting = (c.output.engage && !c.latched)
  inhibited : c.latched = true → c.output.engage = true → inhibitedSince functions parameters past = true

theorem update_idle (idle : c.due nowUs = false) :
    (c.update functions nowUs vehicle reading).2 = c := by
  unfold update
  rw [if_pos (by simp [idle])]

theorem update_due (due : c.due nowUs = true) :
    (c.update functions nowUs vehicle reading).2 = (c.advance functions nowUs vehicle reading).2 := by
  unfold update
  rw [if_neg (by simp [due])]

theorem advance_engage : (c.advance functions nowUs vehicle reading).2.output.engage =
    ((c.advance functions nowUs vehicle reading).2.wanting &&
      !(c.advance functions nowUs vehicle reading).2.latched) := rfl

section Step

variable {functions parameters} {c} {past : List (ControlEvent F)}

theorem advance_latched (same : c = after functions parameters past)
    (known : Latched functions parameters c past) (due : c.due nowUs = true)
    (heeded : Heeded functions parameters (.update nowUs vehicle reading) past) :
    Latched functions parameters (c.advance functions nowUs vehicle reading).2
      (.update nowUs vehicle reading :: past) := by
  have found := observe_observed functions nowUs vehicle reading c
  have still : ((c.observe functions nowUs vehicle reading).2.watchPedals nowUs).pedalStillSinceUs =
      stillSince functions parameters (.update nowUs vehicle reading :: past) := by
    rw [watchPedals_stillSince, found.pedalStillSinceUs, known.stillSince, stillSince_update, ← same, due]
    cases (c.observe functions nowUs vehicle reading).2.pedal.pedaling <;> cases c.started <;> rfl
  have rearmed : ((c.observe functions nowUs vehicle reading).2.watchPedals nowUs).rearmed nowUs =
      stood functions parameters nowUs (.update nowUs vehicle reading :: past) := by
    unfold rearmed stood
    rw [still, watchPedals_parameters, found.parameters, known.configured]
  have latched : (c.advance functions nowUs vehicle reading).2.latched =
      held functions parameters (.update nowUs vehicle reading :: past) := by
    change ((c.observe functions nowUs vehicle reading).2.engagement nowUs vehicle).latched = _
    have remembered := heeded.2
    unfold seesFault wanted at remembered
    dsimp only at remembered
    rw [engagement_latched, rearmed, held_update, found.wanting, found.wasEngaged, found.latched,
      known.wanting, known.engaged, known.latched]
    unfold seesFault wanted
    dsimp only
    subst same
    rw [due, Bool.true_and] at remembered ⊢
    generalize stood functions parameters nowUs _ = stands at remembered ⊢
    generalize held functions parameters past = holds at remembered ⊢
    generalize engagedBefore functions parameters past = before at remembered ⊢
    generalize ((after functions parameters past).observe functions nowUs vehicle reading).2.wants = rider
      at remembered ⊢
    cases stands with
    | true => simp
    | false =>
      cases holds with
      | true => simp
      | false =>
        simp only [Bool.or_false, Bool.not_false, Bool.and_true]
        grind
  have off : ((c.advance functions nowUs vehicle reading).2.wanting &&
      (c.advance functions nowUs vehicle reading).2.latched) = false := demand_wanting nowUs _
  refine ⟨?_, latched, ?_, ?_, ?_, ?_⟩
  · change ((c.observe functions nowUs vehicle reading).2.engagement nowUs vehicle).parameters = parameters
    rw [engagement_parameters, found.parameters, known.configured]
  · change ((c.observe functions nowUs vehicle reading).2.engagement nowUs vehicle).pedalStillSinceUs = _
    rw [engagement_stillSince, still]
  · rw [engagedBefore_update, ← same, due]
    rfl
  · rw [advance_engage]
    revert off
    cases (c.advance functions nowUs vehicle reading).2.wanting <;> simp
  · intro holds engages
    rw [advance_engage, holds, Bool.not_true, Bool.and_false] at engages
    cases engages

theorem update_latched (same : c = after functions parameters past)
    (known : Latched functions parameters c past)
    (heeded : Heeded functions parameters (.update nowUs vehicle reading) past) :
    Latched functions parameters (c.update functions nowUs vehicle reading).2
      (.update nowUs vehicle reading :: past) := by
  cases due : c.due nowUs with
  | true =>
    rw [update_due functions nowUs vehicle reading c due]
    exact advance_latched nowUs vehicle reading same known due heeded
  | false =>
    rw [update_idle functions nowUs vehicle reading c due]
    subst same
    refine ⟨known.configured, ?_, ?_, ?_, known.wanting, ?_⟩
    · rw [held_update, known.latched, due]
      split
      · rfl
      · rename_i moving
        cases holds : held functions parameters past with
        | true => simp
        | false =>
          cases sees : seesFault functions parameters nowUs vehicle reading past with
          | false => rfl
          | true =>
            have step := (heeded.2 sees (Bool.eq_false_iff.mpr moving) holds).1
            exact absurd step (by simp [due])
    · rw [stillSince_update, due]
      exact known.stillSince
    · rw [engagedBefore_update, due]
      exact known.engaged
    · rw [inhibitedSince_update, due]
      exact known.inhibited

theorem Latched.of_calls {past : List (ControlEvent F)} (heeded : Throughout (Heeded functions parameters) past) :
    Latched functions parameters (after functions parameters past) past := by
  induction past with
  | nil => exact ⟨rfl, rfl, rfl, rfl, rfl, nofun⟩
  | cons e past ih =>
    obtain ⟨heeded, before⟩ := (throughout_cons ..).mp heeded
    have known := ih before
    cases e with
    | update nowUs vehicle reading => exact update_latched nowUs vehicle reading rfl known heeded
    | inhibit =>
      refine ⟨known.configured, rfl, known.stillSince, known.engaged, ?_, fun _ _ => rfl⟩
      exact (Bool.and_false _).symm

/-- A step keeps the drive off while it is to stay off; a repeated result does unless an inhibit came
since. -/
theorem Latched.keepsOff (known : Latched functions parameters (after functions parameters past) past)
    (e : ControlEvent F) (heeded : Heeded functions parameters e past) : KeepsOff functions parameters e past := by
  cases e with
  | inhibit => trivial
  | update nowUs vehicle reading =>
    intro holds moving
    cases due : (after functions parameters past).due nowUs with
    | true =>
      have next := advance_latched nowUs vehicle reading rfl known due heeded
      rw [due, Bool.true_and] at moving
      have latched := next.latched
      rw [held_update, moving, holds, Bool.or_true] at latched
      rw [update_due functions nowUs vehicle reading _ due, advance_engage, latched]
      simp
    | false =>
      rw [update_idle functions nowUs vehicle reading _ due]
      cases engages : (after functions parameters past).output.engage with
      | false => rfl
      | true => exact absurd ⟨⟨due, engages⟩, known.inhibited (known.latched.trans holds) engages⟩ heeded.1

end Step

/-- The control keeps the drive off throughout the calls when every one is heeded. -/
theorem throughout_keepsOff {past : List (ControlEvent F)} (heeded : Throughout (Heeded functions parameters) past) :
    Throughout (KeepsOff functions parameters) past := by
  induction past with
  | nil => exact throughout_nil _
  | cons e past ih =>
    obtain ⟨heeded, before⟩ := (throughout_cons ..).mp heeded
    exact (throughout_cons ..).mpr ⟨(Latched.of_calls before).keepsOff e heeded, ih before⟩

/-! ### After an inhibit -/

section Inhibited

theorem engagement_unwanted (idle : c.wanting = false) (unwanted : c.wants = false) :
    (c.engagement nowUs vehicle).wanting = false := by
  have same (d : EbikeControl F) (wanting : d.wanting = c.wanting) (wants : d.wants = c.wants) :
      (d.demand nowUs).wanting = false := by
    unfold demand
    rw [wants, unwanted, wanting, idle]
    exact wanting.trans idle
  apply same
  · unfold rearm latchFault watchPedals
    split_ifs <;> rfl
  · unfold rearm latchFault watchPedals
    split_ifs <;> rfl

theorem watchPedals_turning (turning : c.pedal.pedaling = true)
    (slow : 0 < toMicroseconds c.parameters.rearmPedalStop) :
    (c.watchPedals nowUs).rearmed nowUs = false := by
  unfold rearmed
  rw [watchPedals_stillSince, if_pos turning, watchPedals_parameters, UInt64.sub_self]
  exact decide_eq_false (UInt64.not_le.mpr slow)

/-- With a re-arm time an update right after an inhibit only returns an old request. -/
theorem update_inhibited (latched : c.latched = true) (idle : c.wanting = false)
    (slow : 0 < toMicroseconds c.parameters.rearmPedalStop) :
    (c.update functions nowUs vehicle reading).2.output.engage = (!c.due nowUs && c.output.engage) := by
  cases due : c.due nowUs with
  | false =>
    rw [update_idle functions nowUs vehicle reading c due]
    rfl
  | true =>
    have found := observe_observed functions nowUs vehicle reading c
    rw [update_due functions nowUs vehicle reading c due, advance_engage]
    change (((c.observe functions nowUs vehicle reading).2.engagement nowUs vehicle).wanting &&
      !((c.observe functions nowUs vehicle reading).2.engagement nowUs vehicle).latched) = false
    generalize (c.observe functions nowUs vehicle reading).2 = observed at found ⊢
    cases wants : observed.wants with
    | false => rw [engagement_unwanted nowUs vehicle observed (found.wanting.trans idle) wants, Bool.false_and]
    | true =>
      have turning : observed.pedal.pedaling = true := by
        unfold EbikeControl.wants at wants
        simp only [Bool.and_eq_true] at wants
        exact wants.2
      rw [engagement_latched, watchPedals_turning nowUs observed turning (found.parameters ▸ slow),
        found.latched, latched]
      simp

end Inhibited

end EbikeControl

end Unimoc.Ebike
