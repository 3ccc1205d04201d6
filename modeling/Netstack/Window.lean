import Mathlib.Data.List.Basic
import Mathlib.Data.List.TakeDrop
import Mathlib.Logic.Function.Basic

/-!
Storage addressed by integers, and the lists that stand in a window of it.
`blit` has the meaning of C's `memcpy` and `memmove`: a source read before any
cell is written. A window starts at an integer and spans a natural number of
cells, so a queue kept between two indices is one window.
-/

namespace Netstack.Window

variable {α : Type}

def window (cells : Int → α) (start : Int) (count : Nat) : List α :=
  (List.range count).map fun k : Nat => cells (start + (k : Int))

def blit (target source : Int → α) (dst src count : Int) : Int → α :=
  fun i => if dst ≤ i ∧ i < dst + count then source (src + (i - dst)) else target i

@[simp] theorem window_length (cells : Int → α) (start : Int) (count : Nat) :
    (window cells start count).length = count := by
  simp [window]

@[simp] theorem window_zero (cells : Int → α) (start : Int) :
    window cells start 0 = [] := rfl

theorem window_congr {left right : Int → α} {a b : Int} {count : Nat}
    (same : ∀ k : Nat, k < count → left (a + k) = right (b + k)) :
    window left a count = window right b count := by
  apply List.map_congr_left
  intro k member
  exact same k (List.mem_range.mp member)

theorem window_append (cells : Int → α) (start : Int) (first second : Nat) :
    window cells start (first + second) =
      window cells start first ++ window cells (start + first) second := by
  simp only [window, List.range_add, List.map_append, List.map_map]
  congr 1
  apply List.map_congr_left
  intro k _
  simp [Function.comp, Int.add_assoc]

theorem window_take (cells : Int → α) (start : Int) {part count : Nat} (within : part ≤ count) :
    (window cells start count).take part = window cells start part := by
  obtain ⟨rest, rfl⟩ := Nat.exists_eq_add_of_le within
  rw [window_append]
  simp

theorem window_drop (cells : Int → α) (start : Int) {part count : Nat} (within : part ≤ count) :
    (window cells start count).drop part = window cells (start + part) (count - part) := by
  obtain ⟨rest, rfl⟩ := Nat.exists_eq_add_of_le within
  rw [window_append]
  simp

-- The copied cells hold the source window.
theorem window_blit_copied (target source : Int → α) (dst src : Int) (count : Nat) :
    window (blit target source dst src count) dst count = window source src count := by
  apply window_congr
  intro k within
  have inside : dst ≤ dst + (k : Int) ∧ dst + (k : Int) < dst + count := by omega
  have offset : dst + (k : Int) - dst = k := by omega
  simp only [blit, inside, and_self, if_true, offset]

-- A window that the copy does not meet is unchanged.
theorem window_blit_before (target source : Int → α) (dst src copied start : Int) (count : Nat)
    (clear : start + count ≤ dst) :
    window (blit target source dst src copied) start count = window target start count := by
  apply window_congr
  intro k within
  have outside : ¬ (dst ≤ start + (k : Int) ∧ start + (k : Int) < dst + copied) := by omega
  simp [blit, outside]

/-! A loop that writes one cell after the other. -/

def store (cells : Int → α) (start : Int) : List α → Int → α
  | [] => cells
  | item :: rest => store (Function.update cells start item) (start + 1) rest

theorem store_outside (cells : Int → α) (start : Int) (items : List α) {i : Int}
    (outside : i < start ∨ start + items.length ≤ i) : store cells start items i = cells i := by
  induction items generalizing cells start with
  | nil => rfl
  | cons item rest ih =>
      rw [List.length_cons] at outside
      have apart : i ≠ start := by omega
      rw [store, ih _ _ (by omega), Function.update_of_ne apart]

end Netstack.Window
