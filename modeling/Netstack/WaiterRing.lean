import Mathlib.Tactic.Common
import Netstack.Ring

/-!
The waiter list of a condition variable in `osal_lock.c`: a ring of 32 slots
with a write index, a read index and a count. Its queue is the list of the
counted slots from the read index on. An enqueue appends, a pop takes the head,
and the removal of a waiter that timed out closes the gap slot by slot and is
the removal of its first entry from the list.
-/

namespace Netstack.WaiterRing

variable {α : Type}

def osalCvMaxWaiters : Int := 32

/-- `struct osal_cv` without its guard. -/
structure OsalCv (α : Type) where
  waiters : Int → α
  head : Int
  tail : Int
  count : Int

/-- `osal_cv_new`; the slots hold whatever the allocation held. -/
def osalCvNew (memory : Int → α) : OsalCv α := ⟨memory, 0, 0, 0⟩

def enqueue (cv : OsalCv α) (w : α) : OsalCv α :=
  { cv with
    waiters := Function.update cv.waiters cv.head w
    head := (cv.head + 1) % osalCvMaxWaiters
    count := cv.count + 1 }

/-- The waiter a signal takes, and the ring without it. -/
def pop (cv : OsalCv α) : α × OsalCv α :=
  (cv.waiters cv.tail,
    { cv with tail := (cv.tail + 1) % osalCvMaxWaiters, count := cv.count - 1 })

def removeAt (cv : OsalCv α) (i : Int) : OsalCv α :=
  { cv with
    waiters := Ring.closeGap osalCvMaxWaiters cv.tail cv.waiters i (cv.count - 1 - i).toNat
    head := (cv.head - 1 + osalCvMaxWaiters) % osalCvMaxWaiters
    count := cv.count - 1 }

/-- The search loop: `i` counts the entries passed and `idx` is the next slot. -/
def cancelFrom (cv : OsalCv α) (mine : α → Bool) : Nat → Int → Int → OsalCv α
  | 0, _, _ => cv
  | remaining + 1, i, idx =>
      if mine (cv.waiters idx) then removeAt cv i
      else cancelFrom cv mine remaining (i + 1) ((idx + 1) % osalCvMaxWaiters)

def cancel (cv : OsalCv α) (mine : α → Bool) : OsalCv α :=
  cancelFrom cv mine cv.count.toNat 0 cv.tail

structure RingSound (cv : OsalCv α) : Prop where
  tail_range : 0 ≤ cv.tail ∧ cv.tail < 32
  count_range : 0 ≤ cv.count ∧ cv.count ≤ 32
  head : cv.head = (cv.tail + cv.count) % 32

/-- The waiters in the order they came. -/
def queue (cv : OsalCv α) : List α :=
  Ring.contents osalCvMaxWaiters cv.waiters cv.tail cv.count.toNat

theorem queue_length (cv : OsalCv α) : (queue cv).length = cv.count.toNat :=
  Ring.contents_length ..

theorem new_sound (memory : Int → α) : RingSound (osalCvNew memory) := by
  constructor <;> simp [osalCvNew]

theorem new_queue (memory : Int → α) : queue (osalCvNew memory) = [] := rfl

theorem enqueue_sound {cv : OsalCv α} (sound : RingSound cv) (room : cv.count < 32) (w : α) :
    RingSound (enqueue cv w) := by
  obtain ⟨tail, count, head⟩ := sound
  refine ⟨tail, ?_, ?_⟩ <;> simp only [enqueue, osalCvMaxWaiters] <;> omega

theorem enqueue_queue {cv : OsalCv α} (sound : RingSound cv) (room : cv.count < 32) (w : α) :
    queue (enqueue cv w) = queue cv ++ [w] := by
  obtain ⟨tail, count, head⟩ := sound
  have next : (cv.count + 1).toNat = cv.count.toNat + 1 := by omega
  have fits : ((cv.count.toNat : Nat) : Int) < 32 := by omega
  have pushed := Ring.contents_push cv.waiters cv.tail fits w
  rw [show ((cv.count.toNat : Nat) : Int) = cv.count by omega, ← head] at pushed
  simp only [queue, enqueue, next, osalCvMaxWaiters]
  exact pushed

theorem pop_sound {cv : OsalCv α} (sound : RingSound cv) (some_ : 0 < cv.count) :
    RingSound (pop cv).2 := by
  obtain ⟨tail, count, head⟩ := sound
  refine ⟨?_, ?_, ?_⟩ <;> simp only [pop, osalCvMaxWaiters] <;> omega

theorem pop_queue {cv : OsalCv α} (sound : RingSound cv) (some_ : 0 < cv.count) :
    queue cv = (pop cv).1 :: queue (pop cv).2 := by
  obtain ⟨tail, count, head⟩ := sound
  have next : cv.count.toNat = (cv.count - 1).toNat + 1 := by omega
  have start : cv.tail % 32 = cv.tail := by omega
  simp only [queue, pop, osalCvMaxWaiters]
  rw [next, Ring.contents_pop, start]

theorem removeAt_sound {cv : OsalCv α} (sound : RingSound cv) (some_ : 0 < cv.count) (i : Int) :
    RingSound (removeAt cv i) := by
  obtain ⟨tail, count, head⟩ := sound
  refine ⟨tail, ?_, ?_⟩ <;> simp only [removeAt, osalCvMaxWaiters] <;> omega

theorem removeAt_queue {cv : OsalCv α} (sound : RingSound cv) {i : Nat}
    (inside : (i : Int) < cv.count) : queue (removeAt cv i) = (queue cv).eraseIdx i := by
  obtain ⟨tail, count, head⟩ := sound
  have rest : (cv.count - 1).toNat = cv.count.toNat - 1 := by omega
  have steps : (cv.count - 1 - i).toNat = cv.count.toNat - 1 - i := by omega
  simp only [queue, removeAt, rest, steps, osalCvMaxWaiters]
  exact Ring.contents_closeGap (by omega) (by omega)

/-- The loop finds the first entry that is the caller's, if there is one. -/
theorem cancelFrom_cases {cv : OsalCv α} (sound : RingSound cv) (mine : α → Bool) {i : Nat}
    {remaining : Nat} (left : i + remaining = cv.count.toNat)
    (passed : ∀ w ∈ (queue cv).take i, mine w = false) :
    RingSound (cancelFrom cv mine remaining i ((cv.tail + (i : Int)) % 32)) ∧
      queue (cancelFrom cv mine remaining i ((cv.tail + (i : Int)) % 32)) =
        (queue cv).eraseP mine := by
  obtain ⟨lower, upper⟩ := sound.count_range
  induction remaining generalizing i with
  | zero =>
      have none : ∀ w ∈ queue cv, mine w = false := by
        have all : (queue cv).take i = queue cv := by
          rw [List.take_of_length_le]
          rw [queue_length]
          omega
        rw [all] at passed
        exact passed
      refine ⟨sound, ?_⟩
      rw [List.eraseP_of_forall_not]
      · rfl
      · simpa using none
  | succ remaining ih =>
      have inside : i < (queue cv).length := by
        rw [queue_length]
        omega
      have here : (queue cv)[i]? = some (cv.waiters ((cv.tail + (i : Int)) % 32)) :=
        Ring.contents_getElem (by omega)
      rw [cancelFrom]
      by_cases found : mine (cv.waiters ((cv.tail + (i : Int)) % 32)) = true
      · rw [if_pos found]
        refine ⟨removeAt_sound sound (by omega) _, ?_⟩
        rw [removeAt_queue sound (by omega)]
        have split : queue cv = (queue cv).take i ++
            cv.waiters ((cv.tail + (i : Int)) % 32) :: (queue cv).drop (i + 1) := by
          obtain ⟨_, same⟩ := List.getElem?_eq_some_iff.mp here
          rw [← same, ← List.drop_eq_getElem_cons inside, List.take_append_drop]
        have short : ((queue cv).take i).length = i := by
          rw [List.length_take]
          omega
        rw [split]
        rw [List.eraseP_append_right _ (by simpa using passed), List.eraseP_cons_of_pos found]
        rw [List.eraseIdx_append_of_length_le (by omega), short, Nat.sub_self]
        rfl
      · have missed : mine (cv.waiters ((cv.tail + (i : Int)) % 32)) = false := by
          simpa using found
        have next : ((cv.tail + (i : Int)) % 32 + 1) % osalCvMaxWaiters =
            (cv.tail + ((i + 1 : Nat) : Int)) % 32 := by
          simp only [osalCvMaxWaiters]
          omega
        rw [if_neg found, next]
        refine ih (i := i + 1) (by omega) ?_
        intro w member
        rw [List.take_add_one, here] at member
        rcases List.mem_append.mp member with earlier | last
        · exact passed w earlier
        · rw [List.mem_singleton.mp last]
          exact missed

theorem cancel_cases {cv : OsalCv α} (sound : RingSound cv) (mine : α → Bool) :
    RingSound (cancel cv mine) ∧ queue (cancel cv mine) = (queue cv).eraseP mine := by
  have start : (cv.tail + ((0 : Nat) : Int)) % 32 = cv.tail := by
    have range := sound.tail_range
    omega
  have ran := cancelFrom_cases sound mine (Nat.zero_add _) (by simp)
  rw [start] at ran
  exact ran

theorem cancel_sound {cv : OsalCv α} (sound : RingSound cv) (mine : α → Bool) :
    RingSound (cancel cv mine) :=
  (cancel_cases sound mine).1

/-- Only the first entry of the caller goes; the others keep their order. -/
theorem cancel_queue {cv : OsalCv α} (sound : RingSound cv) (mine : α → Bool) :
    queue (cancel cv mine) = (queue cv).eraseP mine :=
  (cancel_cases sound mine).2

end Netstack.WaiterRing
