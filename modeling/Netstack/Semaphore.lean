import Mathlib.Tactic.Common

/-!
Signal semaphores of exec, obtained exclusively. A semaphore that is held knows
its owner and how often the owner has obtained it; the owner may obtain it again.
What a release by another task does is not documented and is a parameter.
-/

namespace Netstack.Semaphore

variable {Task : Type} [DecidableEq Task]

/-- `more` counts the obtains after the first. -/
inductive SignalSemaphore (Task : Type) where
  | free
  | held (owner : Task) (more : Nat)

/-- What exec leaves open: the result of an attempt that succeeds, and the effect
of a release by a task that is not the owner. -/
structure Exec (Task : Type) where
  granted : Int
  nonzero : granted ≠ 0
  stray : Task → SignalSemaphore Task → SignalSemaphore Task

def nest (sem : SignalSemaphore Task) (t : Task) : Nat :=
  match sem with
  | .free => 0
  | .held owner more => if owner = t then more + 1 else 0

/-- `none` is a task that blocks. -/
def obtainSemaphore (t : Task) : SignalSemaphore Task → Option (SignalSemaphore Task)
  | .free => some (.held t 0)
  | .held owner more => if owner = t then some (.held t (more + 1)) else none

def attemptSemaphore (exec : Exec Task) (t : Task) (sem : SignalSemaphore Task) :
    Int × SignalSemaphore Task :=
  match obtainSemaphore t sem with
  | some taken => (exec.granted, taken)
  | none => (0, sem)

def releaseSemaphore (exec : Exec Task) (t : Task) (sem : SignalSemaphore Task) :
    SignalSemaphore Task :=
  match sem with
  | .free => exec.stray t sem
  | .held owner more =>
      if owner = t then
        match more with
        | 0 => .free
        | fewer + 1 => .held t fewer
      else exec.stray t sem

variable {t u : Task} {sem taken : SignalSemaphore Task}

theorem nest_exclusive (mine : 0 < nest sem t) (other : u ≠ t) : nest sem u = 0 := by
  cases sem with
  | free => rfl
  | held owner more =>
      by_cases same : owner = t
      · simp [nest, same, Ne.symm other]
      · simp [nest, same] at mine

theorem nest_obtain (obtained : obtainSemaphore t sem = some taken) :
    nest taken t = nest sem t + 1 ∧ ∀ u, u ≠ t → nest taken u = nest sem u := by
  cases sem with
  | free =>
      cases obtained
      refine ⟨by simp [nest], ?_⟩
      intro u other
      simp [nest, Ne.symm other]
  | held owner more =>
      simp only [obtainSemaphore] at obtained
      split_ifs at obtained with same
      cases obtained
      subst same
      refine ⟨by simp [nest], ?_⟩
      intro u other
      simp [nest, Ne.symm other]

theorem nest_release (exec : Exec Task) (mine : 0 < nest sem t) :
    nest sem t = nest (releaseSemaphore exec t sem) t + 1 ∧
      ∀ u, u ≠ t → nest (releaseSemaphore exec t sem) u = nest sem u := by
  cases sem with
  | free => cases mine
  | held owner more =>
      by_cases same : owner = t
      · subst same
        cases more with
        | zero =>
            refine ⟨by simp [nest, releaseSemaphore], ?_⟩
            intro u other
            simp [nest, releaseSemaphore, Ne.symm other]
        | succ fewer =>
            refine ⟨by simp [nest, releaseSemaphore], ?_⟩
            intro u other
            simp [nest, releaseSemaphore, Ne.symm other]
      · simp [nest, same] at mine

theorem attempt_cases (exec : Exec Task) (t : Task) (sem : SignalSemaphore Task) :
    (∃ taken, obtainSemaphore t sem = some taken ∧
        attemptSemaphore exec t sem = (exec.granted, taken)) ∨
      attemptSemaphore exec t sem = (0, sem) := by
  rw [attemptSemaphore]
  cases obtained : obtainSemaphore t sem with
  | some taken => exact .inl ⟨taken, rfl, rfl⟩
  | none => exact .inr rfl

end Netstack.Semaphore
