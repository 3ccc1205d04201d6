import Mathlib.Logic.Function.Basic
import Mathlib.Data.List.Basic

/-!
The reply ports of `socket_ipc.c`: a table of sixteen slots, each with the task
it serves and that task's port. A task keeps its slot, so it keeps its port, and
ports are allocated fresh, so no two tasks share one. Ports are numbered in the
order of their allocation; number zero is the request port of the engine.
-/

namespace Netstack.ReplyPorts

variable {Task : Type}

def replySlotMax : Nat := 16

-- A free slot has both pointers NULL.
structure ReplySlot (Task : Type) where
  owner : Option Task := none
  port : Option Nat := none

/-- `port` is the reply port of `task`. -/
def Serves (slots : Nat → ReplySlot Task) (task : Task) (port : Nat) : Prop :=
  ∃ i < replySlotMax, slots i = ⟨some task, some port⟩

/-- Every used slot has a port below `limit`, and no two have the same one. -/
structure SlotsSound (slots : Nat → ReplySlot Task) (limit : Nat) : Prop where
  ported : ∀ i < replySlotMax, ∀ task, (slots i).owner = some task →
    ∃ port, slots i = ⟨some task, some port⟩ ∧ 0 < port ∧ port < limit
  exclusive : ∀ task other port, Serves slots task port → Serves slots other port → task = other

theorem serves_range {slots : Nat → ReplySlot Task} {limit : Nat} (sound : SlotsSound slots limit)
    {task : Task} {port : Nat} (serves : Serves slots task port) : 0 < port ∧ port < limit := by
  obtain ⟨i, inside, slot⟩ := serves
  obtain ⟨found, same, range⟩ := sound.ported i inside task (by rw [slot])
  rw [slot] at same
  cases same
  exact range

theorem slotsSound_empty (limit : Nat) : SlotsSound (fun _ => ({} : ReplySlot Task)) limit := by
  constructor
  · intro i _ task owner
    contradiction
  · rintro task other port ⟨i, _, slot⟩
    cases slot

theorem slotsSound_mono {slots : Nat → ReplySlot Task} {limit limit' : Nat}
    (sound : SlotsSound slots limit) (grows : limit ≤ limit') : SlotsSound slots limit' := by
  refine ⟨?_, sound.exclusive⟩
  intro i inside task owner
  obtain ⟨port, slot, lower, upper⟩ := sound.ported i inside task owner
  exact ⟨port, slot, lower, Nat.lt_of_lt_of_le upper grows⟩

theorem serves_update {slots : Nat → ReplySlot Task} {i : Nat} (inside : i < replySlotMax)
    (free : (slots i).owner = none) (me : Task) (fresh : Nat) (task : Task) (port : Nat) :
    Serves (Function.update slots i ⟨some me, some fresh⟩) task port ↔
      (task = me ∧ port = fresh) ∨ Serves slots task port := by
  constructor
  · rintro ⟨j, below, slot⟩
    by_cases here : j = i
    · subst j
      rw [Function.update_self] at slot
      cases slot
      exact Or.inl ⟨rfl, rfl⟩
    · rw [Function.update_of_ne here] at slot
      exact Or.inr ⟨j, below, slot⟩
  · rintro (⟨rfl, rfl⟩ | ⟨j, below, slot⟩)
    · exact ⟨i, inside, Function.update_self ..⟩
    · have apart : j ≠ i := by
        rintro rfl
        rw [slot] at free
        contradiction
      exact ⟨j, below, by rw [Function.update_of_ne apart]; exact slot⟩

theorem slotsSound_update {slots : Nat → ReplySlot Task} {limit i : Nat}
    (sound : SlotsSound slots limit) (positive : 0 < limit) (inside : i < replySlotMax)
    (free : (slots i).owner = none) (me : Task) :
    SlotsSound (Function.update slots i ⟨some me, some limit⟩) (limit + 1) := by
  have serves := serves_update inside free me limit
  constructor
  · intro j below task owner
    by_cases here : j = i
    · subst j
      rw [Function.update_self] at owner ⊢
      cases owner
      exact ⟨limit, rfl, positive, Nat.lt_succ_self limit⟩
    · rw [Function.update_of_ne here] at owner ⊢
      exact (slotsSound_mono sound (Nat.le_succ limit)).ported j below task owner
  · intro task other p left right
    rcases (serves task p).mp left with ⟨isMe, fresh⟩ | old
    · rcases (serves other p).mp right with ⟨too, -⟩ | used
      · rw [isMe, too]
      · have below := (serves_range sound used).2
        omega
    · rcases (serves other p).mp right with ⟨-, fresh⟩ | used
      · have below := (serves_range sound old).2
        omega
      · exact sound.exclusive task other p old used

variable [DecidableEq Task]

def findSlot (slots : Nat → ReplySlot Task) (owner : Option Task) : Option Nat :=
  (List.range replySlotMax).find? fun i => (slots i).owner = owner

/-- `alloc` is what `AllocSysObjectTags` would return if it is asked. -/
def ensureReplyPort (slots : Nat → ReplySlot Task) (me : Task) (alloc : Option Nat) :
    (Nat → ReplySlot Task) × Option Nat :=
  match findSlot slots (some me) with
  | some i => (slots, (slots i).port)
  | none =>
      match findSlot slots none with
      | none => (slots, none)
      | some i =>
          match alloc with
          | none => (slots, none)
          | some p => (Function.update slots i ⟨some me, some p⟩, some p)

theorem findSlot_some {slots : Nat → ReplySlot Task} {owner : Option Task} {i : Nat}
    (found : findSlot slots owner = some i) : i < replySlotMax ∧ (slots i).owner = owner := by
  have passed := List.find?_some found
  exact ⟨List.mem_range.mp (List.mem_of_find?_eq_some found), by simpa using passed⟩

/-- What a task gets: nothing, the port it has, or a fresh one. -/
theorem ensureReplyPort_cases {slots after : Nat → ReplySlot Task} {limit : Nat} {me : Task}
    {granted : Bool} {port : Option Nat} (sound : SlotsSound slots limit) (positive : 0 < limit)
    (ran : ensureReplyPort slots me (if granted then some limit else none) = (after, port)) :
    SlotsSound after (limit + 1) ∧
      (∀ task p, Serves after task p → Serves slots task p ∨ (task = me ∧ p = limit)) ∧
      (∀ task p, Serves slots task p → Serves after task p) ∧
      ∀ p, port = some p → Serves after me p := by
  have grown := slotsSound_mono sound (Nat.le_succ limit)
  unfold ensureReplyPort at ran
  cases mine : findSlot slots (some me) with
  | some i =>
      simp only [mine] at ran
      cases ran
      refine ⟨grown, fun _ _ => Or.inl, fun _ _ => id, ?_⟩
      intro p known
      obtain ⟨inside, owner⟩ := findSlot_some mine
      obtain ⟨found, slot, -⟩ := sound.ported i inside me owner
      rw [slot] at known
      cases known
      exact ⟨i, inside, slot⟩
  | none =>
      simp only [mine] at ran
      cases free : findSlot slots none with
      | none =>
          simp only [free] at ran
          cases ran
          exact ⟨grown, fun _ _ => Or.inl, fun _ _ => id, fun p known => by contradiction⟩
      | some i =>
          simp only [free] at ran
          obtain ⟨inside, unowned⟩ := findSlot_some free
          cases granted with
          | false =>
              simp only [Bool.false_eq_true, if_false] at ran
              cases ran
              exact ⟨grown, fun _ _ => Or.inl, fun _ _ => id, fun p known => by contradiction⟩
          | true =>
              simp only [if_true] at ran
              cases ran
              have serves := serves_update inside unowned me limit
              refine ⟨slotsSound_update sound positive inside unowned me, ?_, ?_, ?_⟩
              · intro task p known
                exact ((serves task p).mp known).symm
              · intro task p known
                exact (serves task p).mpr (Or.inr known)
              · intro p known
                cases known
                exact (serves me limit).mpr (Or.inl ⟨rfl, rfl⟩)

end Netstack.ReplyPorts
