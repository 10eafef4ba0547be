import Unimoc.Lib.Resumption
import Mathlib.Logic.Function.Basic

/-! Values of several words, moved one access a word. -/

/-- The order in which a copy moves the words of a value. It leaves none out. -/
structure Layout (Word : Type) where
  order : List Word
  complete : ∀ word, word ∈ order

namespace Resumption

variable {S Word W A : Type}

def copyIn (put : Word → W → S → S) (value : Word → W) : List Word → Resumption S Unit
  | [] => pure ()
  | word :: rest => do
    modify (put word (value word))
    copyIn put value rest

/-- The words moved so far agree with the source. -/
def Agrees (rest : List Word) (copy value : Word → W) : Prop :=
  ∀ word, word ∉ rest → copy word = value word

theorem agrees_start (layout : Layout Word) (copy value : Word → W) :
    Agrees layout.order copy value := fun word unmoved => absurd (layout.complete word) unmoved

theorem Agrees.finished {copy value : Word → W} (agrees : Agrees [] copy value) : copy = value :=
  funext fun word => agrees word List.not_mem_nil

variable [DecidableEq Word]

/-- Into the memory `copy`, which holds anything at first. -/
def copyOut (get : S → Word → W) : List Word → (Word → W) → Resumption S (Word → W)
  | [], copy => pure copy
  | word :: rest, copy => do
    let found ← read fun s => get s word
    copyOut get rest (Function.update copy word found)

theorem run_copyIn (put : Word → W → S → S) (get : S → Word → W)
    (puts : ∀ word w s, get (put word w s) = Function.update (get s) word w) (value : Word → W)
    (words : List Word) (s : S) :
    get ((copyIn put value words).run s).2 =
      fun word => if word ∈ words then value word else get s word := by
  induction words generalizing s with
  | nil => rfl
  | cons first rest ih =>
    simp only [copyIn, run_bind, run_modify, ih, puts]
    funext word
    by_cases same : word = first
    · subst same
      simp
    · simp [same]

theorem Agrees.move {first : Word} {rest : List Word} {copy value : Word → W}
    (agrees : Agrees (first :: rest) copy value) :
    Agrees rest (Function.update copy first (value first)) value := by
  intro word moved
  by_cases same : word = first
  · subst same
    simp
  · rw [Function.update_of_ne same]
    exact agrees word (by simp [same, moved])

end Resumption
