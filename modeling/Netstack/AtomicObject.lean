import Mathlib.Logic.Function.Basic
import Netstack.Transition

/-!
An object that any number of tasks use and whose operations take effect at one point of
time each: a task calls an operation, the operation takes effect on the value in one
step, and the task returns with what it gave. A program that refines this object with
the same calls and returns in the same order is linearizable.
-/

namespace Netstack.AtomicObject

open Transition

variable {Task Op Word Value : Type}

inductive Phase (Op Value : Type) where
  | idle
  | pending (op : Op)
  | done (op : Op) (value : Value)

structure State (Task Op Word Value : Type) where
  word : Word
  phase : Task → Phase Op Value

def boot (word : Word) : State Task Op Word Value := ⟨word, fun _ => .idle⟩

inductive Label (Task Op Value : Type) where
  | call (t : Task) (op : Op)
  | effect (t : Task) (op : Op)
  | ret (t : Task) (op : Op) (value : Value)

/-- What the callers see. -/
inductive Event (Task Op Value : Type) where
  | call (t : Task) (op : Op)
  | ret (t : Task) (op : Op) (value : Value)
  deriving DecidableEq

def Label.event : Label Task Op Value → Option (Event Task Op Value)
  | .call t op => some (.call t op)
  | .effect _ _ => none
  | .ret t op value => some (.ret t op value)

abbrev History (Task Op Word Value : Type) :=
  List (Move (State Task Op Word Value) (Label Task Op Value))

def events (history : History Task Op Word Value) : List (Event Task Op Value) :=
  history.filterMap fun move => move.label.event

variable [DecidableEq Task]

def State.goto (s : State Task Op Word Value) (t : Task) (phase : Phase Op Value) :
    State Task Op Word Value :=
  { s with phase := Function.update s.phase t phase }

variable (apply : Op → Word → Word × Value)

inductive Step :
    State Task Op Word Value → Label Task Op Value → State Task Op Word Value → Prop where
  | call {s : State Task Op Word Value} {t : Task} {op : Op} (here : s.phase t = .idle) :
      Step s (.call t op) (s.goto t (.pending op))
  | effect {s : State Task Op Word Value} {t : Task} {op : Op} (here : s.phase t = .pending op) :
      Step s (.effect t op)
        ({ s with word := (apply op s.word).1 }.goto t (.done op (apply op s.word).2))
  | ret {s : State Task Op Word Value} {t : Task} {op : Op} {value : Value}
      (here : s.phase t = .done op value) : Step s (.ret t op value) (s.goto t .idle)

end Netstack.AtomicObject
