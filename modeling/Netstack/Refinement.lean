import Netstack.Transition

/-!
A machine that refines another one step by step. `view` gives the state of the upper
machine and `shown` the step of it that a move of the lower machine is; a move that is
none leaves the view as it was. Every history of the lower machine is then a history of
the upper one, with its moves at the same places.
-/

namespace Netstack.Refinement

open Transition

variable {Low High LowLabel HighLabel : Type}

def image (view : Low → High) (shown : Move Low LowLabel → Option HighLabel)
    (history : List (Move Low LowLabel)) : List (Move High HighLabel) :=
  history.filterMap fun move =>
    (shown move).map fun label => ⟨view move.before, label, view move.after⟩

/-- What one move of the lower machine is for the upper one. -/
def Matches (high : High → HighLabel → High → Prop) (view : Low → High)
    (shown : Move Low LowLabel → Option HighLabel) (move : Move Low LowLabel) : Prop :=
  match shown move with
  | some label => high (view move.before) label (view move.after)
  | none => view move.after = view move.before

variable {low : Low → LowLabel → Low → Prop} {high : High → HighLabel → High → Prop}
variable {view : Low → High} {shown : Move Low LowLabel → Option HighLabel}

theorem image_snoc (history : List (Move Low LowLabel)) (move : Move Low LowLabel) :
    image view shown (history ++ [move]) =
      image view shown history ++ image view shown [move] := by
  simp [image]

theorem image_trace (inv : Low → Prop) {start now : Low} {history : List (Move Low LowLabel)}
    (base : inv start)
    (kept : ∀ before label after, inv before → low before label after → inv after)
    (simulates : ∀ before label after, inv before → low before label after →
      Matches high view shown ⟨before, label, after⟩)
    (trace : Trace low start history now) :
    Trace high (view start) (image view shown history) (view now) := by
  induction trace with
  | nil => exact .nil
  | @snoc history now next label past taken ih =>
      have matched := simulates _ _ _ (trace_invariant inv base kept past) taken
      rw [image_snoc]
      unfold Matches at matched
      cases seen : shown ⟨now, label, next⟩ with
      | none =>
          simp only [seen] at matched
          simpa [image, seen, matched] using ih
      | some label' =>
          simp only [seen] at matched
          simpa [image, seen] using ih.snoc matched

/-- Moves of the two machines that mean the same to an onlooker are in the same order. -/
theorem image_labels {Event : Type} (lowEvent : Move Low LowLabel → Option Event)
    (highEvent : HighLabel → Option Event) {history : List (Move Low LowLabel)}
    (agree : ∀ move ∈ history, (shown move).bind highEvent = lowEvent move) :
    (image view shown history).filterMap (fun move => highEvent move.label) =
      history.filterMap lowEvent := by
  rw [image, List.filterMap_filterMap]
  apply List.filterMap_congr
  intro move member
  rw [← agree move member]
  cases shown move <;> rfl

end Netstack.Refinement
