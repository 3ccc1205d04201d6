import Mathlib.Data.List.Basic
import Mathlib.Data.List.TakeDrop
import Mathlib.Logic.Function.Basic

/-!
A circular buffer as the list of its occupied slots. The cells are addressed by
integers and every index is taken modulo the capacity, so the list starts at
the read index and wraps. A push writes the slot one past the list, a pop moves
the read index, and both are the list operations of a FIFO.
-/

namespace Netstack.Ring

variable {α : Type}

def contents (capacity : Int) (cells : Int → α) (start : Int) (count : Nat) : List α :=
  (List.range count).map fun k : Nat => cells ((start + (k : Int)) % capacity)

@[simp] theorem contents_length (capacity : Int) (cells : Int → α) (start : Int) (count : Nat) :
    (contents capacity cells start count).length = count := by
  simp [contents]

theorem contents_succ (capacity : Int) (cells : Int → α) (start : Int) (count : Nat) :
    contents capacity cells start (count + 1) =
      contents capacity cells start count ++ [cells ((start + (count : Int)) % capacity)] := by
  simp [contents, List.range_succ]

-- The slot a push writes is not one of the slots in use.
theorem slot_ne {capacity start : Int} {k count : Nat} (before : k < count)
    (room : (count : Int) < capacity) :
    (start + (k : Int)) % capacity ≠ (start + (count : Int)) % capacity := by
  intro same
  have zero : (start + (count : Int) - (start + (k : Int))) % capacity = 0 := by
    rw [Int.sub_emod, same, Int.sub_self, Int.zero_emod]
  have difference : start + (count : Int) - (start + (k : Int)) = (count : Int) - k := by omega
  rw [difference, Int.emod_eq_of_lt (by omega) (by omega)] at zero
  omega

theorem contents_push {capacity : Int} (cells : Int → α) (start : Int) {count : Nat}
    (room : (count : Int) < capacity) (item : α) :
    contents capacity (Function.update cells ((start + (count : Int)) % capacity) item) start
        (count + 1) = contents capacity cells start count ++ [item] := by
  rw [contents_succ, Function.update_self]
  congr 1
  apply List.map_congr_left
  intro k member
  exact Function.update_of_ne (slot_ne (List.mem_range.mp member) room) ..

theorem contents_pop {capacity : Int} (cells : Int → α) (start : Int) (count : Nat) :
    contents capacity cells start (count + 1) =
      cells (start % capacity) :: contents capacity cells ((start + 1) % capacity) count := by
  simp only [contents, List.range_succ_eq_map, List.map_cons, List.map_map]
  congr 1
  · simp
  · apply List.map_congr_left
    intro k _
    have slot : (start + ((k + 1 : Nat) : Int)) % capacity =
        ((start + 1) % capacity + (k : Int)) % capacity := by
      rw [Int.emod_add_emod]
      congr 1
      push_cast
      omega
    exact congrArg cells slot

theorem contents_getElem {capacity : Int} {cells : Int → α} {start : Int} {count k : Nat}
    (inside : k < count) :
    (contents capacity cells start count)[k]? = some (cells ((start + (k : Int)) % capacity)) := by
  simp [contents, inside]

/-- Every item from place `j` on moves one place towards the start, over
`steps` places. -/
def closeGap (capacity start : Int) (cells : Int → α) (j : Int) : Nat → Int → α
  | 0 => cells
  | steps + 1 =>
      let a := (start + j) % capacity
      let b := (a + 1) % capacity
      closeGap capacity start (Function.update cells a (cells b)) (j + 1) steps

/-- What a closed gap leaves at place `k`. -/
theorem closeGap_slot {capacity start : Int} {cells : Int → α} {j k steps : Nat}
    (fits : ((j + steps : Nat) : Int) < capacity) (inside : (k : Int) < capacity) :
    closeGap capacity start cells j steps ((start + (k : Int)) % capacity) =
      if j ≤ k ∧ k < j + steps then cells ((start + ((k + 1 : Nat) : Int)) % capacity)
      else cells ((start + (k : Int)) % capacity) := by
  induction steps generalizing cells j with
  | zero =>
      rw [closeGap, if_neg (by omega)]
  | succ steps ih =>
      have next : ((start + (j : Int)) % capacity + 1) % capacity =
          (start + ((j + 1 : Nat) : Int)) % capacity := by
        rw [Int.emod_add_emod]
        push_cast
        congr 1
        omega
      have start_ : closeGap capacity start cells j (steps + 1) =
          closeGap capacity start (Function.update cells ((start + (j : Int)) % capacity)
            (cells ((start + ((j + 1 : Nat) : Int)) % capacity))) ((j + 1 : Nat) : Int) steps := by
        rw [closeGap]
        simp only [next]
        push_cast
        rfl
      rw [start_, ih (by omega)]
      have slots : ∀ m : Nat, (m : Int) < capacity → m ≠ j →
          (start + (m : Int)) % capacity ≠ (start + (j : Int)) % capacity := by
        intro m below apart
        rcases Nat.lt_or_gt_of_ne apart with less | more
        · exact slot_ne less (by omega)
        · exact (slot_ne more below).symm
      by_cases here : k = j
      · subst here
        rw [if_neg (by omega), if_pos (by omega), Function.update_self]
      · have kept : Function.update cells ((start + (j : Int)) % capacity)
            (cells ((start + ((j + 1 : Nat) : Int)) % capacity)) ((start + (k : Int)) % capacity) =
            cells ((start + (k : Int)) % capacity) :=
          Function.update_of_ne (slots k inside here) ..
        by_cases within : j + 1 ≤ k ∧ k < j + 1 + steps
        · have later := slots (k + 1) (by push_cast; omega) (by omega)
          rw [if_pos within, if_pos (by omega), Function.update_of_ne later]
        · rw [if_neg within, if_neg (by omega), kept]

theorem contents_closeGap {capacity start : Int} {cells : Int → α} {i count : Nat}
    (fits : (count : Int) ≤ capacity) (inside : i < count) :
    contents capacity (closeGap capacity start cells i (count - 1 - i)) start (count - 1) =
      (contents capacity cells start count).eraseIdx i := by
  apply List.ext_getElem?
  intro k
  rcases Nat.lt_or_ge k (count - 1) with below | above
  · rw [contents_getElem below, closeGap_slot (by omega) (by omega)]
    by_cases moved : i ≤ k
    · rw [if_pos (by omega), List.getElem?_eraseIdx_of_ge moved, contents_getElem (by omega)]
    · rw [if_neg (by omega), List.getElem?_eraseIdx_of_lt (by omega), contents_getElem (by omega)]
  · have short : ((contents capacity cells start count).eraseIdx i).length = count - 1 := by
      rw [List.length_eraseIdx_of_lt (by simpa using inside), contents_length]
    rw [List.getElem?_eq_none (by simpa using above), List.getElem?_eq_none (by omega)]

end Netstack.Ring
