import Mathlib.Logic.Basic

/-! Routines as the accesses they make to shared state. An access is one step; between two of
them anything else may happen to the state. -/

inductive Resumption (S A : Type)
  | done (answer : A)
  /-- What the rest does rests on the state the access found. -/
  | access (write : S → S) (next : S → Resumption S A)

namespace Resumption

variable {S A B : Type}

def bind : Resumption S A → (A → Resumption S B) → Resumption S B
  | done answer, rest => rest answer
  | access write next, rest => access write fun s => (next s).bind rest

instance : Monad (Resumption S) where
  pure := done
  bind := bind

def read (look : S → A) : Resumption S A := access id fun s => done (look s)

def modify (write : S → S) : Resumption S Unit := access write fun _ => done ()

/-- One access that reads and writes. -/
def exchange (look : S → A) (write : S → S) : Resumption S A := access write fun s => done (look s)

/-- With nothing in between. -/
def run : Resumption S A → S → A × S
  | done answer, s => (answer, s)
  | access write next, s => (next s).run (write s)

@[simp] theorem run_pure (answer : A) (s : S) : (pure answer : Resumption S A).run s = (answer, s) := rfl

@[simp] theorem run_read (look : S → A) (s : S) : (read look).run s = (look s, s) := rfl

@[simp] theorem run_modify (write : S → S) (s : S) : (modify write).run s = ((), write s) := rfl

@[simp] theorem run_exchange (look : S → A) (write : S → S) (s : S) :
    (exchange look write).run s = (look s, write s) := rfl

@[simp] theorem run_bind (first : Resumption S A) (rest : A → Resumption S B) (s : S) :
    (first >>= rest).run s = (rest (first.run s).1).run (first.run s).2 := by
  induction first generalizing s with
  | done answer => rfl
  | access write next ih => exact ih s (write s)

/-! ### What every access keeps -/

/-- An invariant that no access breaks, whatever the accesses before it found. -/
def Preserves (I : S → Prop) : Resumption S A → Prop
  | done _ => True
  | access write next => (∀ s, I s → I (write s)) ∧ ∀ s, (next s).Preserves I

/-- An invariant that no access breaks when the accesses before it found it to hold. -/
def Keeps (I : S → Prop) : Resumption S A → Prop
  | done _ => True
  | access write next => ∀ s, I s → I (write s) ∧ (next s).Keeps I

section Keeps

variable {I : S → Prop}

theorem preserves_pure (answer : A) : (pure answer : Resumption S A).Preserves I := trivial

theorem preserves_read (look : S → A) : (read look).Preserves I := ⟨fun _ holds => holds, fun _ => trivial⟩

theorem preserves_modify {write : S → S} (kept : ∀ s, I s → I (write s)) : (modify write).Preserves I :=
  ⟨kept, fun _ => trivial⟩

theorem Preserves.bind {first : Resumption S A} {rest : A → Resumption S B} (kept : first.Preserves I)
    (later : ∀ answer, (rest answer).Preserves I) : (first >>= rest).Preserves I := by
  induction first with
  | done answer => exact later answer
  | access write next ih => exact ⟨kept.1, fun s => ih s (kept.2 s)⟩

theorem Preserves.and {J : S → Prop} {r : Resumption S A} (first : r.Preserves I)
    (second : r.Preserves J) : r.Preserves fun s => I s ∧ J s := by
  induction r with
  | done answer => trivial
  | access write next ih =>
    exact ⟨fun s holds => ⟨first.1 s holds.1, second.1 s holds.2⟩, fun s => ih s (first.2 s) (second.2 s)⟩

theorem Preserves.keeps {r : Resumption S A} (kept : r.Preserves I) : r.Keeps I := by
  induction r with
  | done answer => trivial
  | access write next ih => exact fun s holds => ⟨kept.1 s holds, ih s (kept.2 s)⟩

theorem keeps_read {look : S → A} {rest : A → Resumption S B}
    (later : ∀ s, I s → (rest (look s)).Keeps I) : (read look >>= rest).Keeps I :=
  fun s holds => ⟨holds, later s holds⟩

theorem Keeps.bind {first : Resumption S A} {rest : A → Resumption S B} (kept : first.Keeps I)
    (later : ∀ answer, (rest answer).Keeps I) : (first >>= rest).Keeps I := by
  induction first with
  | done answer => exact later answer
  | access write next ih =>
    intro s holds
    obtain ⟨still, others⟩ := kept s holds
    exact ⟨still, ih s others⟩

end Keeps

theorem Preserves.run {I : S → Prop} {r : Resumption S A} (kept : r.Preserves I) {s : S} (holds : I s) :
    I (r.run s).2 := by
  induction r generalizing s with
  | done answer => exact holds
  | access write next ih => exact ih s (kept.2 s) (kept.1 s holds)

/-! ### What a routine ensures whatever comes in between -/

/-- `Between` relates the state before and after whatever comes in between two accesses. -/
def Ensures (Between : S → S → Prop) (post : A → S → Prop) : Resumption S A → S → Prop
  | done answer, s => ∀ t, Between s t → post answer t
  | access write next, s => ∀ t, Between s t → (next t).Ensures Between post (write t)

section Ensures

variable {Between : S → S → Prop} {post : A → S → Prop}

theorem ensures_pure {answer : A} {s : S} (holds : ∀ t, Between s t → post answer t) :
    (pure answer : Resumption S A).Ensures Between post s := holds

theorem ensures_read {look : S → A} {rest : A → Resumption S B} {post : B → S → Prop} {s : S}
    (later : ∀ t, Between s t → (rest (look t)).Ensures Between post t) :
    (read look >>= rest).Ensures Between post s := later

theorem Ensures.bind (refl : ∀ s, Between s s) {first : Resumption S A} {rest : A → Resumption S B}
    {post : B → S → Prop} {s : S}
    (ensures : first.Ensures Between (fun answer t => (rest answer).Ensures Between post t) s) :
    (first >>= rest).Ensures Between post s := by
  induction first generalizing s with
  | done answer => exact ensures s (refl s)
  | access write next ih => exact fun t between => ih t (ensures t between)

theorem Ensures.mono {weaker : A → S → Prop} (weaken : ∀ answer s, post answer s → weaker answer s)
    {r : Resumption S A} {s : S} (ensures : r.Ensures Between post s) : r.Ensures Between weaker s := by
  induction r generalizing s with
  | done answer => exact fun t between => weaken answer t (ensures t between)
  | access write next ih => exact fun t between => ih t (ensures t between)

theorem Ensures.run (refl : ∀ s, Between s s) {r : Resumption S A} {s : S}
    (ensures : r.Ensures Between post s) : post (r.run s).1 (r.run s).2 := by
  induction r generalizing s with
  | done answer => exact ensures s (refl s)
  | access write next ih => exact ih s (ensures s (refl s))

/-- An invariant that neither the routine nor what comes in between breaks. -/
theorem Preserves.ensures {I : S → Prop} (stable : ∀ {s t}, I s → Between s t → I t)
    {r : Resumption S A} (kept : r.Preserves I) {s : S} (holds : I s) :
    r.Ensures Between (fun _ => I) s := by
  induction r generalizing s with
  | done answer => exact fun t between => stable holds between
  | access write next ih =>
    intro t between
    exact ih t (kept.2 t) (kept.1 t (stable holds between))

theorem Ensures.later (trans : ∀ {a b c}, Between a b → Between b c → Between a c)
    {r : Resumption S A} {s t : S} (ensures : r.Ensures Between post s) (between : Between s t) :
    r.Ensures Between post t := by
  cases r with
  | done answer => exact fun u after => ensures u (trans between after)
  | access write next => exact fun u after => ensures u (trans between after)

end Ensures

end Resumption
