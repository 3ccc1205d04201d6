import Mathlib.Logic.Function.Basic
import Netstack.Transition

/-!
Retry loops around a compare-and-swap. A task reads the word, computes the new value
from what it read, and swaps it in if the word still has the value it read; else it
reads again. The word may have changed any number of times in between and have come
back. Loads and swaps of any number of tasks interleave in any order. The operations
take effect in the order of the swaps that succeed, one for each call, and a call
returns in its next step.
-/

namespace Netstack.CasLoop

open Transition

variable {Task Op Word Value : Type}

/-- The body of one loop: what it writes and what it returns, both from the value
it has read. -/
structure Body (Word Value : Type) where
  next : Word → Word
  value : Word → Value

/-- The loops of a program and the swap they use, which gives the word after it and
returns the word before it. -/
structure Loops (Op Word Value : Type) where
  body : Op → Body Word Value
  cas : Word → Word → Word → Word × Word
  swaps : ∀ word new, cas word word new = (new, word)
  keeps : ∀ word old new, word ≠ old → cas word old new = (word, word)

theorem swapped_word {loops : Loops Op Word Value} {word old : Word} {op : Op}
    (same : (loops.cas word old ((loops.body op).next old)).2 = old) :
    word = old ∧ (loops.cas word old ((loops.body op).next old)).1 = (loops.body op).next word := by
  by_cases equal : word = old
  · rw [equal, loops.swaps]
    exact ⟨rfl, rfl⟩
  · rw [loops.keeps _ _ _ equal] at same
    exact absurd same equal

theorem retried_word {loops : Loops Op Word Value} {word old : Word} {op : Op}
    (differs : (loops.cas word old ((loops.body op).next old)).2 ≠ old) :
    (loops.cas word old ((loops.body op).next old)).1 = word := by
  by_cases equal : word = old
  · rw [equal, loops.swaps] at differs
    exact absurd rfl differs
  · rw [loops.keeps _ _ _ equal]

inductive Pc (Op Word : Type) where
  | idle
  | load (op : Op)
  | cas (op : Op) (old : Word)
  | ret (op : Op) (old : Word)

structure State (Task Op Word : Type) where
  word : Word
  pc : Task → Pc Op Word

def boot (word : Word) : State Task Op Word := ⟨word, fun _ => .idle⟩

inductive Label (Task Op Value : Type) where
  | call (t : Task) (op : Op)
  | load (t : Task)
  | cas (t : Task) (op : Op) (succeeds : Bool)
  | ret (t : Task) (op : Op) (value : Value)

def Label.task : Label Task Op Value → Task
  | .call t _ => t
  | .load t => t
  | .cas t _ _ => t
  | .ret t _ _ => t

abbrev History (Task Op Word Value : Type) :=
  List (Move (State Task Op Word) (Label Task Op Value))

/-- The operations whose swap succeeded, in the order of these swaps. -/
def successes (history : History Task Op Word Value) : List Op :=
  history.filterMap fun move =>
    match move.label with
    | .cas _ op true => some op
    | _ => none

theorem successes_snoc (history : History Task Op Word Value)
    (move : Move (State Task Op Word) (Label Task Op Value)) :
    successes (history ++ [move]) = successes history ++ successes [move] := by
  simp [successes]

/-- A swap that succeeded, with the word before and after it. -/
structure Applied (Op Word : Type) where
  op : Op
  before : Word
  after : Word

variable [DecidableEq Task]

/-- The successful swap of the call that each task is in. -/
def ownSwap (own : Task → Option (Applied Op Word))
    (move : Move (State Task Op Word) (Label Task Op Value)) : Task → Option (Applied Op Word) :=
  match move.label with
  | .cas t op true => Function.update own t (some ⟨op, move.before.word, move.after.word⟩)
  | .ret t _ _ => Function.update own t none
  | _ => own

def State.goto (s : State Task Op Word) (t : Task) (pc : Pc Op Word) : State Task Op Word :=
  { s with pc := Function.update s.pc t pc }

variable (loops : Loops Op Word Value)

inductive Step : State Task Op Word → Label Task Op Value → State Task Op Word → Prop where
  | call {s : State Task Op Word} {t : Task} {op : Op} (here : s.pc t = .idle) :
      Step s (.call t op) (s.goto t (.load op))
  | load {s : State Task Op Word} {t : Task} {op : Op} (here : s.pc t = .load op) :
      Step s (.load t) (s.goto t (.cas op s.word))
  -- The loop ends where the swap returns what the load had read.
  | swapped {s : State Task Op Word} {t : Task} {op : Op} {old : Word} (here : s.pc t = .cas op old)
      (same : (loops.cas s.word old ((loops.body op).next old)).2 = old) :
      Step s (.cas t op true)
        ({ s with word := (loops.cas s.word old ((loops.body op).next old)).1 }.goto t
          (.ret op old))
  | retried {s : State Task Op Word} {t : Task} {op : Op} {old : Word} (here : s.pc t = .cas op old)
      (differs : (loops.cas s.word old ((loops.body op).next old)).2 ≠ old) :
      Step s (.cas t op false)
        ({ s with word := (loops.cas s.word old ((loops.body op).next old)).1 }.goto t (.load op))
  | ret {s : State Task Op Word} {t : Task} {op : Op} {old : Word} (here : s.pc t = .ret op old) :
      Step s (.ret t op ((loops.body op).value old)) (s.goto t .idle)

/-- What the program counter of a task tells of its own swap. -/
def Pc.applied : Pc Op Word → Option (Applied Op Word)
  | .ret op old => some ⟨op, old, (loops.body op).next old⟩
  | _ => none

/-- A call has one successful swap, its own operation on the word, and returns in the
next step of its task. -/
structure Once (own : Task → Option (Applied Op Word))
    (move : Move (State Task Op Word) (Label Task Op Value)) : Prop where
  effect : ∀ t a, own t = some a → a.after = (loops.body a.op).next a.before
  returns : ∀ t a, own t = some a → move.label.task = t →
    move.label = .ret t a.op ((loops.body a.op).value a.before)
  earned : ∀ t op value, move.label = .ret t op value → ∃ a, own t = some a ∧ a.op = op

section Steps

variable {loops}

/-- A step changes the word only as a swap that succeeds. -/
theorem step_word {s s' : State Task Op Word} {label : Label Task Op Value}
    (step : Step loops s label s') :
    s'.word = (successes [⟨s, label, s'⟩]).foldl (fun w op => (loops.body op).next w) s.word := by
  cases step with
  | call here => rfl
  | load here => rfl
  | swapped here same => exact (swapped_word same).2
  | retried here differs => exact retried_word differs
  | ret here => rfl

theorem word_of_successes {history : History Task Op Word Value} {start s : State Task Op Word}
    (trace : Trace (Step loops) start history s) :
    s.word = (successes history).foldl (fun w op => (loops.body op).next w) start.word := by
  induction trace with
  | nil => rfl
  | snoc past taken ih =>
      rw [successes_snoc, List.foldl_append, ← ih]
      exact step_word taken

/-- A step of `t` to a place with no swap of its own, from such a place. -/
theorem applied_goto {s : State Task Op Word} {t : Task} {pc : Pc Op Word}
    (before : (s.pc t).applied loops = none) (after : pc.applied loops = none) :
    Pc.applied loops ∘ Function.update s.pc t pc = Pc.applied loops ∘ s.pc := by
  rw [Function.comp_update, after, ← before]
  exact Function.update_eq_self ..

theorem applied_step {s s' : State Task Op Word} {label : Label Task Op Value}
    (step : Step loops s label s') :
    ownSwap (Pc.applied loops ∘ s.pc) ⟨s, label, s'⟩ = Pc.applied loops ∘ s'.pc := by
  cases step with
  | call here => exact (applied_goto (by rw [here]; rfl) rfl).symm
  | load here => exact (applied_goto (by rw [here]; rfl) rfl).symm
  | @swapped t op old here same =>
      obtain ⟨equal, new⟩ := swapped_word same
      simp only [ownSwap, State.goto, Function.comp_update, Pc.applied, new]
      rw [equal]
  | retried here differs => exact (applied_goto (by rw [here]; rfl) rfl).symm
  | ret here =>
      simp only [ownSwap, State.goto, Function.comp_update, Pc.applied]

theorem step_once {s s' : State Task Op Word} {label : Label Task Op Value}
    (step : Step loops s label s') : Once loops (Pc.applied loops ∘ s.pc) ⟨s, label, s'⟩ := by
  have known : ∀ t a, (s.pc t).applied loops = some a →
      s.pc t = .ret a.op a.before ∧ a.after = (loops.body a.op).next a.before := by
    intro t a own
    cases at_ : s.pc t with
    | ret op old =>
        rw [at_] at own
        cases own
        exact ⟨rfl, rfl⟩
    | _ =>
        rw [at_] at own
        cases own
  constructor
  · intro t a own
    exact (known t a own).2
  · rintro t a own rfl
    obtain ⟨at_, -⟩ := known _ a own
    cases step with
    | ret here =>
        have same := here.symm.trans at_
        cases same
        rfl
    | call here => exact absurd (here.symm.trans at_) (by simp)
    | load here => exact absurd (here.symm.trans at_) (by simp)
    | swapped here _ => exact absurd (here.symm.trans at_) (by simp)
    | retried here _ => exact absurd (here.symm.trans at_) (by simp)
  · rintro t op value call
    cases step with
    | @ret t op old here =>
        cases call
        exact ⟨⟨op, old, (loops.body op).next old⟩, by simp [here, Pc.applied], rfl⟩
    | _ => contradiction

/-- Along every history a call swaps once and returns right after it. -/
theorem once_along {history : History Task Op Word Value} {word : Word} {s : State Task Op Word}
    (trace : Trace (Step loops) (boot word) history s) :
    Along ownSwap (Once loops) (fun _ => none) history := by
  refine (observed_invariant (fun own s => own = Pc.applied loops ∘ s.pc) (fun _ _ => True) ?_ ?_ ?_
    trace (along_of_forall _ fun _ _ => trivial)).2
  · rfl
  · rintro own before label after rfl step -
    exact applied_step step
  · rintro own before label after rfl step -
    exact step_once step

end Steps

end Netstack.CasLoop
