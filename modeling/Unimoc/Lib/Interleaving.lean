import Unimoc.Lib.Resumption
import Unimoc.Lib.Runs
import Mathlib.Logic.Function.Basic

/-! Threads that interleave their accesses to shared state. A thread is in a mode, which says
what it may rely on; two threads are never both in modes that exclude each other. -/

/-- What holds of the state in a mode, and which modes two threads may be in at once. -/
structure Discipline (S Mode : Type) where
  sound : Mode → S → Prop
  together : Mode → Mode → Prop

namespace Resumption

variable {S Mode A B : Type} (d : Discipline S Mode)

/-- Every access made in a mode leads to a mode again and leaves the other threads theirs. -/
def Follows (post : A → Mode → Prop) : Resumption S A → Mode → Prop
  | done answer, m => post answer m
  | access write next, m => ∀ s, d.sound m s → ∃ m', d.sound m' (write s) ∧
      (∀ n, d.sound n s → d.together m n → d.sound n (write s) ∧ d.together m' n) ∧
      (next s).Follows post m'

variable {d} {post : A → Mode → Prop} {m : Mode}

theorem follows_pure {answer : A} (holds : post answer m) :
    (pure answer : Resumption S A).Follows d post m := holds

theorem Follows.bind (middle : A → Mode → Prop) {post : B → Mode → Prop} {first : Resumption S A}
    {rest : A → Resumption S B} (follows : first.Follows d middle m)
    (later : ∀ answer m', middle answer m' → (rest answer).Follows d post m') :
    (first >>= rest).Follows d post m := by
  induction first generalizing m with
  | done answer => exact later answer m follows
  | access write next ih =>
    intro s sound
    obtain ⟨m', sound', others, follows'⟩ := follows s sound
    exact ⟨m', sound', others, ih s follows'⟩

theorem Follows.mono {weaker : A → Mode → Prop} {r : Resumption S A} (follows : r.Follows d post m)
    (weaken : ∀ answer m, post answer m → weaker answer m) : r.Follows d weaker m := by
  induction r generalizing m with
  | done answer => exact weaken answer m follows
  | access write next ih =>
    intro s sound
    obtain ⟨m', sound', others, follows'⟩ := follows s sound
    exact ⟨m', sound', others, ih s follows'⟩

theorem follows_exchange {look : S → A} {write : S → S} (mode : S → Mode)
    (sound' : ∀ s, d.sound m s → d.sound (mode s) (write s))
    (others : ∀ s, d.sound m s → ∀ n, d.sound n s → d.together m n →
      d.sound n (write s) ∧ d.together (mode s) n)
    (holds : ∀ s, d.sound m s → post (look s) (mode s)) : (exchange look write).Follows d post m :=
  fun s sound => ⟨mode s, sound' s sound, others s sound, holds s sound⟩

theorem follows_foldlM {C : Type} {I : B → Mode → Prop} {body : B → C → Resumption S B}
    (each : ∀ b c m, I b m → (body b c).Follows d I m) (cs : List C) {b : B} (holds : I b m) :
    (cs.foldlM body b).Follows d I m := by
  induction cs generalizing b m with
  | nil => exact follows_pure holds
  | cons c cs ih =>
    rw [List.foldlM_cons]
    exact Follows.bind I (each b c m holds) fun b' m' holds' => ih holds'

end Resumption

/-! ### Any number of threads -/

/-- The shared state and what is left of each thread's call. -/
structure Threads (ι S : Type) where
  shared : S
  running : ι → Option (Resumption S Unit)

/-- A thread calls, or makes its next access; anything else that happens to the state comes
from outside. -/
inductive ThreadEvent (ι C V : Type)
  | call (thread : ι) (function : C)
  | access (thread : ι)
  | outside (what : V)

namespace Threads

variable {ι S C V Mode : Type} [DecidableEq ι]

/-- A call returns with its last access. -/
def rest : Resumption S Unit → Option (Resumption S Unit)
  | .done _ => none
  | r => some r

def step (t : Threads ι S) (i : ι) : Threads ι S :=
  match t.running i with
  | some (.access write next) =>
    ⟨write t.shared, Function.update t.running i (rest (next t.shared))⟩
  | _ => t

variable (routine : C → Resumption S Unit) (outside : V → S → S)

def next (t : Threads ι S) : ThreadEvent ι C V → Threads ι S
  | .call i function => { t with running := Function.update t.running i (rest (routine function)) }
  | .access i => t.step i
  | .outside what => { t with shared := outside what t.shared }

def machine (start : S) : Runs.Machine (Threads ι S) (ThreadEvent ι C V) where
  start := ⟨start, fun _ => none⟩
  next := next routine outside
  admits t
    | .call i _ => t.running i = none
    | .access i => t.running i ≠ none
    | .outside _ => True

instance (start : S) (t : Threads ι S) : ∀ e, Decidable ((machine routine outside start).admits t e)
  | .call i _ => inferInstanceAs (Decidable (t.running i = none))
  | .access i => inferInstanceAs (Decidable (t.running i ≠ none))
  | .outside _ => inferInstanceAs (Decidable True)

/-! ### The rule of interleavings -/

variable (d : Discipline S Mode) (idle : Mode)

/-- Each thread is in a mode that holds, with modes that go together. -/
def Kept (t : Threads ι S) : Prop :=
  d.sound idle t.shared ∧ ∃ modes : ι → Mode, (∀ i, d.sound (modes i) t.shared) ∧
    (∀ i j, i ≠ j → d.together (modes i) (modes j)) ∧
    ∀ i, match t.running i with
      | none => modes i = idle
      | some r => r.Follows d (fun _ m => m = idle) (modes i)

variable {d idle routine outside}

theorem follows_rest {r : Resumption S Unit} {m : Mode} (follows : r.Follows d (fun _ m => m = idle) m) :
    match rest r with
    | none => m = idle
    | some r => r.Follows d (fun _ m => m = idle) m := by
  cases r with
  | done answer => exact follows
  | access write next => exact follows

theorem kept_call {t : Threads ι S} {i : ι} {function : C} (kept : t.Kept d idle)
    (free : t.running i = none) (follows : (routine function).Follows d (fun _ m => m = idle) idle) :
    Kept d idle { t with running := Function.update t.running i (rest (routine function)) } := by
  obtain ⟨quiet, modes, sound, apart, running⟩ := kept
  refine ⟨quiet, modes, sound, apart, ?_⟩
  intro j
  by_cases same : j = i
  · subst same
    have mode := running j
    rw [free] at mode
    change modes j = idle at mode
    simp only [Function.update_self]
    rw [mode]
    exact follows_rest follows
  · simp only [Function.update_of_ne same]
    exact running j

theorem kept_step (symm : ∀ m n, d.together m n → d.together n m) (alone : ∀ m, d.together m idle)
    {t : Threads ι S} (kept : t.Kept d idle) (i : ι) : (t.step i).Kept d idle := by
  obtain ⟨shared, threads⟩ := t
  obtain ⟨quiet, modes, sound, apart, running⟩ := kept
  have mine := running i
  unfold step
  simp only at mine quiet sound ⊢
  rcases thread : threads i with _ | answer | ⟨write, next⟩
  · exact ⟨quiet, modes, sound, apart, running⟩
  · exact ⟨quiet, modes, sound, apart, running⟩
  · rw [thread] at mine
    obtain ⟨m', sound', others, follows⟩ := mine shared (sound i)
    refine ⟨(others idle quiet (alone _)).1, Function.update modes i m', ?_, ?_, ?_⟩
    · intro j
      by_cases same : j = i
      · subst same
        simpa using sound'
      · simpa [Function.update_of_ne same] using
          (others (modes j) (sound j) (apart i j (Ne.symm same))).1
    · intro j k differ
      by_cases first : j = i
      · subst first
        rw [Function.update_self, Function.update_of_ne (Ne.symm differ)]
        exact (others (modes k) (sound k) (apart j k differ)).2
      · rw [Function.update_of_ne first]
        by_cases second : k = i
        · subst second
          rw [Function.update_self]
          exact symm _ _ (others (modes j) (sound j) (apart k j (Ne.symm first))).2
        · rw [Function.update_of_ne second]
          exact apart j k differ
    · intro j
      by_cases same : j = i
      · subst same
        simp only [Function.update_self]
        exact follows_rest follows
      · simp only [Function.update_of_ne same]
        exact running j

/-- When every call follows the discipline from the idle mode and nothing from outside breaks
what a mode says, the idle mode holds of the state after every run. -/
theorem sound_of_follows (d : Discipline S Mode) (idle : Mode) (symm : ∀ m n, d.together m n → d.together n m)
    (alone : ∀ m, d.together m idle)
    (calls : ∀ function, (routine function).Follows d (fun _ m => m = idle) idle)
    (stable : ∀ what m s, d.sound m s → d.sound m (outside what s)) {start : S}
    (initial : d.sound idle start) (trace : List (ThreadEvent ι C V))
    (legal : (machine routine outside start).Legal trace) :
    d.sound idle ((machine routine outside start).replay trace).shared := by
  have kept : ((machine routine outside start).replay trace).Kept d idle := by
    refine Runs.Machine.invariant (fun t _ => t.Kept d idle) ?_ ?_ trace legal
    · exact ⟨initial, fun _ => idle, fun _ => initial, fun _ _ _ => alone idle, fun _ => rfl⟩
    · intro e past kept admitted
      cases e with
      | call i function => exact kept_call kept admitted (calls function)
      | access i => exact kept_step symm alone kept i
      | outside what =>
        obtain ⟨quiet, modes, sound, apart, running⟩ := kept
        exact ⟨stable what idle _ quiet, modes, fun i => stable what _ _ (sound i), apart, running⟩
  exact kept.1

end Threads
