import Mathlib.Data.List.Basic
import Mathlib.Data.List.TakeDrop
import Mathlib.Tactic.Common

/-!
A bounded FIFO queue as a list. An offer is refused only by a full queue and
otherwise takes the longest prefix that fits; a poll removes a prefix of the
queue. The ledger of a queue holds all that went in and all that came out since
it was empty, and it balances after any sequence of offers and polls.
-/

namespace Netstack.BoundedFifo

variable {α : Type}

/-- The number of items an offer takes, if it takes any. -/
def offer (capacity : Nat) (queue : List α) (items : List α) : Option Nat :=
  if capacity ≤ queue.length then none else some (min items.length (capacity - queue.length))

def push (queue items : List α) (count : Nat) : List α := queue ++ items.take count

def poll (queue : List α) (limit : Nat) : Nat := min queue.length limit

structure Ledger (α : Type) where
  accepted : List α
  removed : List α

def Ledger.empty : Ledger α := ⟨[], []⟩

def Ledger.accept (ledger : Ledger α) (items : List α) : Ledger α :=
  { ledger with accepted := ledger.accepted ++ items }

def Ledger.remove (ledger : Ledger α) (items : List α) : Ledger α :=
  { ledger with removed := ledger.removed ++ items }

/-- What came out, followed by what is still queued, is what went in. -/
def Balanced (ledger : Ledger α) (queue : List α) : Prop :=
  ledger.removed ++ queue = ledger.accepted

theorem balanced_empty : Balanced (Ledger.empty : Ledger α) [] := rfl

theorem balanced_accept {ledger : Ledger α} {queue : List α} (balanced : Balanced ledger queue)
    (items : List α) : Balanced (ledger.accept items) (queue ++ items) := by
  unfold Balanced Ledger.accept at *
  rw [← List.append_assoc, balanced]

theorem balanced_remove {ledger : Ledger α} {queue : List α} (balanced : Balanced ledger queue)
    (count : Nat) : Balanced (ledger.remove (queue.take count)) (queue.drop count) := by
  unfold Balanced Ledger.remove at *
  rw [List.append_assoc, List.take_append_drop, balanced]

end Netstack.BoundedFifo
