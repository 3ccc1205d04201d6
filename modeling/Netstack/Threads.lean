import Mathlib.Data.Finset.Card
import Mathlib.Data.Fintype.Card
import Netstack.Signals
import Netstack.Transition

/-!
The thread hypercalls of `osal_thread.c`. A thread record takes a signal bit of the
task that creates it and gives it back when that task joins it; a thread ends by
returning from its function, which the trampoline notes in `done`, or in
`rumpuser_thread_exit`, which notes nothing. `rumpuser_thread_create` drops its
argument `mustjoin`, so a thread that nobody will join takes a bit as well.
-/

namespace Netstack.Threads

open Signals Transition

variable {Root : Type}

/-- The tasks: those there are from the start, and one for each thread created. -/
inductive Task (Root : Type) where
  | root (name : Root)
  | thread (n : Nat)
  deriving DecidableEq

/-- `struct osal_thread`, with what its creator asked for and whether it has ended, which the
code does not keep. The mask is that of the bit; `fn` and `arg` are behind the events. -/
structure Thread (Root : Type) where
  task : Nat
  joiner : Task Root
  joinSigbit : Fin 32
  done : Bool
  mustjoin : Bool
  ended : Bool

structure State (Root : Type) where
  -- The records that are allocated, the newest first.
  threads : List (Thread Root)
  created : Nat
  sigAlloc : Task Root → Finset (Fin 32)
  -- The thread for which a task polls inside osal_thread_join.
  joining : Task Root → Option Nat

def boot (held : Task Root → Finset (Fin 32)) : State Root where
  threads := []
  created := 0
  sigAlloc := held
  joining _ := none

/-- A create with what it gets: the two allocations, the result of AllocSignal, and whether
CreateTaskTags makes a task. -/
inductive Event (Root : Type) where
  | create (t : Task Root) (mustjoin wrap record : Bool) (bit : Option (Fin 32)) (spawned : Bool)
  | returns (n : Nat)
  | exits (n : Nat)
  | join (t : Task Root) (n : Nat)
  | poll (t : Task Root)

def State.find (s : State Root) (n : Nat) : Option (Thread Root) :=
  s.threads.find? fun thread => thread.task = n

/-- The thread reaches its last loop, and sets `done` before or does not. -/
def State.finish (s : State Root) (n : Nat) (noted : Bool) : State Root :=
  { s with threads := s.threads.map fun thread =>
      if thread.task = n then { thread with done := thread.done || noted, ended := true }
      else thread }

def osalThreadTrampoline (s : State Root) (n : Nat) : State Root := s.finish n true

def rumpuserThreadExit (s : State Root) (n : Nat) : State Root := s.finish n false

variable [DecidableEq Root]

def State.ran (s : State Root) (acts : List (Act (Task Root))) : State Root :=
  { s with sigAlloc := run s.sigAlloc acts }

def osalThreadCreate (s : State Root) (t : Task Root) (mustjoin record : Bool)
    (bit : Option (Fin 32)) (spawned : Bool) : State Root × Int :=
  if !record then (s, -1)
  else
    match bit with
    | none => (s, -1)
    | some b =>
        if !spawned then (s.ran [.allocSignal t b, .freeSignal t b], -1)
        else
          ({ s.ran [.allocSignal t b] with
              threads := ⟨s.created, t, b, false, mustjoin, false⟩ :: s.threads
              created := s.created + 1 }, 0)

def enomem : Int := 12

def rumpuserThreadCreate (s : State Root) (t : Task Root) (mustjoin wrap record : Bool)
    (bit : Option (Fin 32)) (spawned : Bool) : State Root × Int :=
  if !wrap then (s, enomem)
  else
    let made := osalThreadCreate s t mustjoin record bit spawned
    if made.2 ≠ 0 then (made.1, enomem) else (made.1, 0)

/-- What follows the polling loop of osal_thread_join. -/
def osalThreadReap (s : State Root) (t : Task Root) (thread : Thread Root) : State Root :=
  { s.ran [.freeSignal t thread.joinSigbit] with
    threads := s.threads.filter fun other => other.task ≠ thread.task
    joining := Function.update s.joining t none }

/-- One look at `done`. -/
def osalThreadPoll (s : State Root) (t : Task Root) (thread : Thread Root) : State Root :=
  if thread.done then osalThreadReap s t thread else s

def Running (s : State Root) (n : Nat) : Prop :=
  ∃ thread ∈ s.threads, thread.task = n ∧ thread.ended = false

/-- A task that can make a call: it is not in a join, and a thread has not ended. -/
def Active (s : State Root) : Task Root → Prop
  | .root name => s.joining (.root name) = none
  | .thread n => s.joining (.thread n) = none ∧ Running s n

/-- AllocSignal returns a bit the task does not hold, or -1 when there is none. -/
def Allocates (s : State Root) (t : Task Root) : Option (Fin 32) → Prop
  | some b => b ∉ s.sigAlloc t
  | none => s.sigAlloc t = Finset.univ

/-- A join that may be called: of a thread that has ended, by the task that created it to
be joined. -/
def Joinable (s : State Root) (t : Task Root) (n : Nat) : Prop :=
  ∃ thread ∈ s.threads, thread.task = n ∧ thread.joiner = t ∧ thread.mustjoin = true ∧
    thread.ended = true

instance (s : State Root) (n : Nat) : Decidable (Running s n) :=
  inferInstanceAs (Decidable (∃ thread ∈ s.threads, _))

instance (s : State Root) : (t : Task Root) → Decidable (Active s t)
  | .root _ => inferInstanceAs (Decidable (_ = _))
  | .thread _ => inferInstanceAs (Decidable (_ ∧ _))

instance (s : State Root) (t : Task Root) : (bit : Option (Fin 32)) → Decidable (Allocates s t bit)
  | some _ => inferInstanceAs (Decidable (¬ _))
  | none => inferInstanceAs (Decidable (_ = _))

instance (s : State Root) (t : Task Root) (n : Nat) : Decidable (Joinable s t n) :=
  inferInstanceAs (Decidable (∃ thread ∈ s.threads, _))

def step (s : State Root) : Event Root → Option (State Root)
  | .create t mustjoin wrap record bit spawned =>
      if Active s t ∧ Allocates s t bit then
        some (rumpuserThreadCreate s t mustjoin wrap record bit spawned).1
      else none
  | .returns n => if Active s (.thread n) then some (osalThreadTrampoline s n) else none
  | .exits n => if Active s (.thread n) then some (rumpuserThreadExit s n) else none
  | .join t n =>
      if Active s t ∧ Joinable s t n then
        some { s with joining := Function.update s.joining t (some n) }
      else none
  | .poll t =>
      match (s.joining t).bind s.find with
      | some thread => some (osalThreadPoll s t thread)
      | none => none

def Steps (s : State Root) (e : Event Root) (s' : State Root) : Prop := step s e = some s'

/-! What the accounts should be. -/

/-- A thread that its creator has to count with: it runs, or it waits to be joined. -/
def Outstanding (t : Task Root) (thread : Thread Root) : Prop :=
  thread.joiner = t ∧ (thread.ended = false ∨ thread.mustjoin = true)

instance (t : Task Root) (thread : Thread Root) : Decidable (Outstanding t thread) :=
  inferInstanceAs (Decidable (_ ∧ _))

def outstanding (s : State Root) (t : Task Root) : Nat :=
  s.threads.countP fun thread => Outstanding t thread

/-- The thread's creator can join it, no task holds more join bits than it has threads to
count with, and a task with few enough of them gets a bit from AllocSignal. -/
structure Balanced (held : Task Root → Finset (Fin 32)) (s : State Root) : Prop where
  done : ∀ thread ∈ s.threads, thread.ended = true → thread.done = true
  leaves : ∀ t, (s.joining t).isSome → ∃ s', step s (.poll t) = some s' ∧ s'.joining t = none
  bits : ∀ t, (s.sigAlloc t \ held t).card ≤ outstanding s t
  room : ∀ t, (held t).card + outstanding s t < 32 → ¬ Allocates s t none

/-- A thread ends as the code provides for: by returning, and to be joined. -/
def EndsJoinable (s : State Root) : Event Root → Prop
  | .returns n => ∃ thread ∈ s.threads, thread.task = n ∧ thread.mustjoin = true
  | .exits _ => False
  | .create .. | .join _ _ | .poll _ => True

instance (s : State Root) : (e : Event Root) → Decidable (EndsJoinable s e)
  | .returns _ => inferInstanceAs (Decidable (∃ thread ∈ s.threads, _))
  | .exits _ => isFalse id
  | .create .. | .join _ _ | .poll _ => isTrue trivial

/-! What every run keeps. -/

def Thread.entry (thread : Thread Root) : Task Root × Fin 32 := (thread.joiner, thread.joinSigbit)

/-- Each record has a task of its own and one bit of its creator, and the tasks hold no
other bits than these and those they held before. -/
structure Kept (held : Task Root → Finset (Fin 32)) (s : State Root) : Prop where
  tasks : (s.threads.map Thread.task).Nodup
  below : ∀ thread ∈ s.threads, thread.task < s.created
  undone : ∀ thread ∈ s.threads, thread.ended = false → thread.done = false
  books : Books held (s.threads.map Thread.entry) s.sigAlloc
  joins : ∀ t n, s.joining t = some n → Joinable s t n

omit [DecidableEq Root] in
theorem same_thread {threads : List (Thread Root)} (tasks : (threads.map Thread.task).Nodup)
    {first second : Thread Root} (here : first ∈ threads) (there : second ∈ threads)
    (same : first.task = second.task) : first = second :=
  List.inj_on_of_nodup_map tasks here there same

omit [DecidableEq Root] in
theorem kept_boot (held : Task Root → Finset (Fin 32)) : Kept held (boot held) :=
  ⟨List.nodup_nil, nofun, nofun, books_start held, nofun⟩

section Finish

variable {held : Task Root → Finset (Fin 32)} {s : State Root} {n : Nat} {noted : Bool}

omit [DecidableEq Root] in
theorem finish_map {α : Type} (f : Thread Root → α)
    (same : ∀ thread, f { thread with done := thread.done || noted, ended := true } = f thread) :
    (s.finish n noted).threads.map f = s.threads.map f := by
  simp only [State.finish, List.map_map]
  refine List.map_congr_left fun thread _ => ?_
  simp only [Function.comp_apply]
  split
  · exact same thread
  · rfl

omit [DecidableEq Root] in
theorem mem_finish {thread : Thread Root} : thread ∈ (s.finish n noted).threads ↔
    (thread ∈ s.threads ∧ thread.task ≠ n) ∨ ∃ old ∈ s.threads, old.task = n ∧
      thread = { old with done := old.done || noted, ended := true } := by
  constructor
  · intro member
    obtain ⟨old, earlier, rfl⟩ := List.mem_map.mp member
    by_cases here : old.task = n
    · exact .inr ⟨old, earlier, here, if_pos here⟩
    · rw [if_neg here]
      exact .inl ⟨earlier, here⟩
  · rintro (⟨earlier, other⟩ | ⟨old, earlier, here, rfl⟩)
    · exact List.mem_map.mpr ⟨thread, earlier, if_neg other⟩
    · exact List.mem_map.mpr ⟨old, earlier, if_pos here⟩

omit [DecidableEq Root] in
theorem finish_kept (kept : Kept held s) : Kept held (s.finish n noted) := by
  constructor
  · rw [finish_map _ fun _ => rfl]
    exact kept.tasks
  · intro thread member
    rcases mem_finish.mp member with ⟨earlier, -⟩ | ⟨old, earlier, -, rfl⟩
    · exact kept.below thread earlier
    · exact kept.below old earlier
  · intro thread member running
    rcases mem_finish.mp member with ⟨earlier, -⟩ | ⟨old, -, -, rfl⟩
    · exact kept.undone thread earlier running
    · contradiction
  · rw [finish_map _ fun _ => rfl]
    exact kept.books
  · intro t m polls
    obtain ⟨thread, member, isTask, creator, must, ended⟩ := kept.joins t m polls
    by_cases here : thread.task = n
    · exact ⟨_, mem_finish.mpr (.inr ⟨thread, member, here, rfl⟩), isTask, creator, must, rfl⟩
    · exact ⟨thread, mem_finish.mpr (.inl ⟨member, here⟩), isTask, creator, must, ended⟩

end Finish

section Create

variable {held : Task Root → Finset (Fin 32)} {s : State Root} {t : Task Root}
variable {mustjoin wrap record spawned : Bool} {bit : Option (Fin 32)}

def State.grown (s : State Root) (t : Task Root) (b : Fin 32) (mustjoin : Bool) : State Root :=
  { s.ran [.allocSignal t b] with
    threads := ⟨s.created, t, b, false, mustjoin, false⟩ :: s.threads
    created := s.created + 1 }

/-- A create that fails has given back what it took. -/
theorem create_cases (allocates : Allocates s t bit) :
    (rumpuserThreadCreate s t mustjoin wrap record bit spawned).1 = s ∨
      ∃ b, b ∉ s.sigAlloc t ∧
        (rumpuserThreadCreate s t mustjoin wrap record bit spawned).1 = s.grown t b mustjoin := by
  have outer : (rumpuserThreadCreate s t mustjoin wrap record bit spawned).1 =
      if wrap then (osalThreadCreate s t mustjoin record bit spawned).1 else s := by
    cases wrap with
    | false => rfl
    | true =>
        simp only [rumpuserThreadCreate, Bool.not_true, Bool.false_eq_true, if_false, if_true]
        split <;> rfl
  rw [outer]
  cases wrap with
  | false => exact .inl rfl
  | true =>
      cases record with
      | false => exact .inl rfl
      | true =>
          cases bit with
          | none => exact .inl rfl
          | some b =>
              cases spawned with
              | false =>
                  refine .inl ?_
                  show s.ran [.allocSignal t b, .freeSignal t b] = s
                  rw [State.ran, run_alloc_free allocates]
              | true => exact .inr ⟨b, allocates, rfl⟩

theorem grown_kept (kept : Kept held s) {b : Fin 32} (unheld : b ∉ s.sigAlloc t) :
    Kept held (s.grown t b mustjoin) := by
  constructor
  · refine List.nodup_cons.mpr ⟨?_, kept.tasks⟩
    intro taken
    obtain ⟨thread, member, same⟩ := List.mem_map.mp taken
    exact absurd same (Nat.ne_of_lt (kept.below thread member))
  · intro thread member
    rcases List.mem_cons.mp member with rfl | old
    · exact Nat.lt_succ_self _
    · exact Nat.lt_succ_of_lt (kept.below thread old)
  · intro thread member running
    rcases List.mem_cons.mp member with rfl | old
    · rfl
    · exact kept.undone thread old running
  · exact kept.books.alloc unheld
  · intro u m polls
    obtain ⟨thread, member, rest⟩ := kept.joins u m polls
    exact ⟨thread, List.mem_cons_of_mem _ member, rest⟩

end Create

section Join

variable {held : Task Root → Finset (Fin 32)} {s : State Root} {t : Task Root}
variable {thread : Thread Root}

theorem mem_reap {other : Thread Root} : other ∈ (osalThreadReap s t thread).threads ↔
    other ∈ s.threads ∧ other.task ≠ thread.task := by
  simp [osalThreadReap]

theorem reap_kept (kept : Kept held s) (member : thread ∈ s.threads) (creator : thread.joiner = t)
    (polls : s.joining t = some thread.task) : Kept held (osalThreadReap s t thread) := by
  have fewer : (osalThreadReap s t thread).threads.Sublist s.threads := List.filter_sublist
  constructor
  · exact (fewer.map _).nodup kept.tasks
  · exact fun other earlier => kept.below other (mem_reap.mp earlier).1
  · exact fun other earlier => kept.undone other (mem_reap.mp earlier).1
  · have owned : (t, thread.joinSigbit) ∈ s.threads.map Thread.entry :=
      List.mem_map.mpr ⟨thread, member, by rw [← creator]; rfl⟩
    refine (kept.books.free owned).congr ((fewer.map _).nodup kept.books.nodup) fun entry => ?_
    rw [kept.books.nodup.mem_erase_iff, ← creator]
    constructor
    · intro left
      obtain ⟨other, remains, rfl⟩ := List.mem_map.mp left
      obtain ⟨earlier, apart⟩ := mem_reap.mp remains
      refine ⟨?_, List.mem_map.mpr ⟨other, earlier, rfl⟩⟩
      intro same
      rw [List.inj_on_of_nodup_map kept.books.nodup earlier member same] at apart
      exact apart rfl
    · rintro ⟨apart, earlier⟩
      obtain ⟨other, remains, rfl⟩ := List.mem_map.mp earlier
      refine List.mem_map.mpr ⟨other, mem_reap.mpr ⟨remains, ?_⟩, rfl⟩
      intro same
      rw [same_thread kept.tasks remains member same] at apart
      exact apart rfl
  · intro u m still
    simp only [osalThreadReap, State.ran] at still
    have different : u ≠ t := by
      rintro rfl
      simp at still
    rw [Function.update_of_ne different] at still
    obtain ⟨other, remains, isTask, creator', rest⟩ := kept.joins u m still
    refine ⟨other, mem_reap.mpr ⟨remains, ?_⟩, isTask, creator', rest⟩
    intro same
    rw [same_thread kept.tasks remains member same, creator] at creator'
    exact different creator'.symm

omit [DecidableEq Root] in
/-- The thread a join polls for is there, has ended, and is the caller's. -/
theorem polled {n : Nat} (kept : Kept held s) (polls : s.joining t = some n) :
    ∃ thread ∈ s.threads, s.find n = some thread ∧ thread.task = n ∧ thread.joiner = t ∧
      thread.mustjoin = true ∧ thread.ended = true := by
  obtain ⟨thread, member, isTask, rest⟩ := kept.joins t n polls
  cases found : s.find n with
  | none =>
      have missed := List.find?_eq_none.mp found thread member
      simp [isTask] at missed
  | some first =>
      have passed := List.find?_some found
      have same := same_thread kept.tasks (List.mem_of_find?_eq_some found) member
        ((of_decide_eq_true passed).trans isTask.symm)
      subst same
      exact ⟨first, member, rfl, isTask, rest⟩

end Join

/-! One step. -/

/-- Every step there is. -/
inductive Effect (s : State Root) : Event Root → State Root → Prop where
  | refused {t : Task Root} {mustjoin wrap record : Bool} {bit : Option (Fin 32)}
      {spawned : Bool} : Effect s (.create t mustjoin wrap record bit spawned) s
  | grew {t : Task Root} {mustjoin wrap record : Bool} {bit : Option (Fin 32)} {spawned : Bool}
      {b : Fin 32} (unheld : b ∉ s.sigAlloc t) :
      Effect s (.create t mustjoin wrap record bit spawned) (s.grown t b mustjoin)
  | returned {n : Nat} (running : Running s n) : Effect s (.returns n) (s.finish n true)
  | exited {n : Nat} (running : Running s n) : Effect s (.exits n) (s.finish n false)
  | joined {t : Task Root} {n : Nat} (joinable : Joinable s t n) :
      Effect s (.join t n) { s with joining := Function.update s.joining t (some n) }
  | slept {t : Task Root} : Effect s (.poll t) s
  | reaped {t : Task Root} {n : Nat} {thread : Thread Root} (polls : s.joining t = some n)
      (found : s.find n = some thread) : Effect s (.poll t) (osalThreadReap s t thread)

theorem effect_of_step {s s' : State Root} {e : Event Root} (taken : Steps s e s') :
    Effect s e s' := by
  rw [Steps] at taken
  cases e with
  | create t mustjoin wrap record bit spawned =>
      rw [step] at taken
      split_ifs at taken with enabled
      cases taken
      rcases create_cases enabled.2 with same | ⟨b, unheld, grown⟩
      · rw [same]
        exact .refused
      · rw [grown]
        exact .grew unheld
  | returns n =>
      rw [step] at taken
      split_ifs at taken with active
      cases taken
      exact .returned active.2
  | exits n =>
      rw [step] at taken
      split_ifs at taken with active
      cases taken
      exact .exited active.2
  | join t n =>
      rw [step] at taken
      split_ifs at taken with enabled
      cases taken
      exact .joined enabled.2
  | poll t =>
      rw [step] at taken
      split at taken
      · rename_i thread looked
        obtain ⟨n, polls, found⟩ := Option.bind_eq_some_iff.mp looked
        cases taken
        cases done : thread.done with
        | true =>
            rw [osalThreadPoll, if_pos done]
            exact .reaped polls found
        | false =>
            rw [osalThreadPoll, if_neg (by simp [done])]
            exact .slept
      · contradiction

theorem effect_kept {held : Task Root → Finset (Fin 32)} {s s' : State Root} {e : Event Root}
    (kept : Kept held s) (effect : Effect s e s') : Kept held s' := by
  cases effect with
  | refused => exact kept
  | grew unheld => exact grown_kept kept unheld
  | returned running => exact finish_kept kept
  | exited running => exact finish_kept kept
  | @joined t n joinable =>
      refine ⟨kept.tasks, kept.below, kept.undone, kept.books, ?_⟩
      intro u m polls
      dsimp only at polls
      by_cases here : u = t
      · subst u
        rw [Function.update_self, Option.some.injEq] at polls
        subst m
        exact joinable
      · rw [Function.update_of_ne here] at polls
        exact kept.joins u m polls
  | slept => exact kept
  | reaped polls found =>
      obtain ⟨thread, member, again, isTask, creator, -⟩ := polled kept polls
      rw [found] at again
      cases again
      exact reap_kept kept member creator (by rw [isTask]; exact polls)

theorem run_kept {held : Task Root → Finset (Fin 32)}
    {history : List (Move (State Root) (Event Root))} {s : State Root}
    (run : Trace Steps (boot held) history s) : Kept held s := by
  refine trace_invariant (Kept held) (kept_boot held) ?_ run
  exact fun before e after kept taken => effect_kept kept (effect_of_step taken)

/-- Every thread that has ended has said so and waits for its join. -/
def Tidy (s : State Root) : Prop :=
  ∀ thread ∈ s.threads, thread.ended = true → thread.done = true ∧ thread.mustjoin = true

omit [DecidableEq Root] in
theorem finish_tidy_iff {held : Task Root → Finset (Fin 32)} {s : State Root} {n : Nat}
    {noted : Bool} (kept : Kept held s) (tidy : Tidy s) (running : Running s n) :
    Tidy (s.finish n noted) ↔
      noted = true ∧ ∃ thread ∈ s.threads, thread.task = n ∧ thread.mustjoin = true := by
  obtain ⟨thread, member, isTask, runs⟩ := running
  have undone := kept.undone thread member runs
  constructor
  · intro after
    have told := after _ (mem_finish.mpr (.inr ⟨thread, member, isTask, rfl⟩)) rfl
    simp only [undone, Bool.false_or] at told
    exact ⟨told.1, thread, member, isTask, told.2⟩
  · rintro ⟨rfl, other, there, same, must⟩
    intro ended now isEnded
    rcases mem_finish.mp now with ⟨earlier, -⟩ | ⟨old, earlier, isOld, rfl⟩
    · exact tidy ended earlier isEnded
    · rw [same_thread kept.tasks earlier there (isOld.trans same.symm)]
      exact ⟨Bool.or_true _, must⟩

theorem effect_tidy_iff {held : Task Root → Finset (Fin 32)} {s s' : State Root} {e : Event Root}
    (kept : Kept held s) (tidy : Tidy s) (effect : Effect s e s') :
    Tidy s' ↔ EndsJoinable s e := by
  cases effect with
  | refused => exact iff_of_true tidy trivial
  | grew unheld =>
      refine iff_of_true ?_ trivial
      intro thread member ended
      rcases List.mem_cons.mp member with rfl | old
      · contradiction
      · exact tidy thread old ended
  | returned running =>
      rw [finish_tidy_iff kept tidy running]
      exact and_iff_right rfl
  | exited running =>
      rw [finish_tidy_iff kept tidy running]
      simp [EndsJoinable]
  | joined joinable => exact iff_of_true tidy trivial
  | slept => exact iff_of_true tidy trivial
  | reaped polls found =>
      exact iff_of_true (fun thread member => tidy thread (mem_reap.mp member).1) trivial

/-! The accounts balance exactly in tidy states. -/

theorem countP_le_iff {α : Type} {p q : α → Bool} (implies : ∀ x, q x = true → p x = true)
    (list : List α) : list.countP p ≤ list.countP q ↔ ∀ x ∈ list, p x = true → q x = true := by
  constructor
  · intro fewer x member passes
    have split := list.countP_eq_countP_filter_add p q
    have inner : (list.filter q).countP p = list.countP q := by
      rw [List.countP_filter]
      exact List.countP_congr fun y _ => by simpa using implies y
    have none : (list.filter fun y => !q y).countP p = 0 := by omega
    by_contra missed
    have kept : x ∈ list.filter fun y => !q y :=
      List.mem_filter.mpr ⟨member, by simpa using missed⟩
    exact List.countP_eq_zero.mp none x kept passes
  · exact fun all => List.countP_mono_left all

theorem join_bits {held : Task Root → Finset (Fin 32)} {s : State Root} (kept : Kept held s)
    (t : Task Root) :
    (s.sigAlloc t \ held t).card = s.threads.countP fun thread => thread.joiner = t := by
  rw [kept.books.card, List.countP_map]
  rfl

theorem bits_iff {held : Task Root → Finset (Fin 32)} {s : State Root} (kept : Kept held s) :
    (∀ t, (s.sigAlloc t \ held t).card ≤ outstanding s t) ↔
      ∀ thread ∈ s.threads, thread.ended = true → thread.mustjoin = true := by
  have each (t : Task Root) : (s.sigAlloc t \ held t).card ≤ outstanding s t ↔
      ∀ thread ∈ s.threads, thread.joiner = t → Outstanding t thread := by
    rw [join_bits kept, outstanding, countP_le_iff]
    · simp only [decide_eq_true_eq]
    · intro thread counts
      exact decide_eq_true (of_decide_eq_true counts).1
  simp only [each]
  constructor
  · intro all thread member ended
    rcases (all thread.joiner thread member rfl).2 with running | must
    · rw [ended] at running
      contradiction
    · exact must
  · rintro must t thread member rfl
    refine ⟨rfl, ?_⟩
    cases ended : thread.ended with
    | false => exact .inl rfl
    | true => exact .inr (must thread member ended)

theorem poll_leaves {held : Task Root → Finset (Fin 32)} {s : State Root} (kept : Kept held s)
    (tidy : Tidy s) {t : Task Root} {n : Nat} (polls : s.joining t = some n) :
    ∃ s', step s (.poll t) = some s' ∧ s'.joining t = none := by
  obtain ⟨thread, member, found, -, -, -, ended⟩ := polled kept polls
  have looked : (s.joining t).bind s.find = some thread := by rw [polls]; exact found
  refine ⟨osalThreadReap s t thread, ?_, Function.update_self ..⟩
  simp only [step, looked, osalThreadPoll, (tidy thread member ended).1, if_true]

omit [DecidableEq Root] in
/-- All 32 bits taken are the bits held before and the join bits. -/
theorem exhausted_card (held : Task Root → Finset (Fin 32)) {s : State Root} {t : Task Root}
    (exhausted : s.sigAlloc t = Finset.univ) :
    32 ≤ (held t).card + (s.sigAlloc t \ held t).card := by
  have all : (s.sigAlloc t).card = 32 := by
    rw [exhausted, Finset.card_univ, Fintype.card_fin]
  have split := Finset.card_le_card_sdiff_add_card (s := s.sigAlloc t) (t := held t)
  omega

theorem balanced_iff_tidy {held : Task Root → Finset (Fin 32)} {s : State Root}
    (kept : Kept held s) : Balanced held s ↔ Tidy s := by
  constructor
  · intro balanced thread member ended
    exact ⟨balanced.done thread member ended,
      (bits_iff kept).mp balanced.bits thread member ended⟩
  · intro tidy
    have bits := (bits_iff kept).mpr fun thread member ended => (tidy thread member ended).2
    refine ⟨fun thread member ended => (tidy thread member ended).1, ?_, bits, ?_⟩
    · intro t polls
      obtain ⟨n, polls⟩ := Option.isSome_iff_exists.mp polls
      exact poll_leaves kept tidy polls
    · intro t few exhausted
      have full := exhausted_card held exhausted
      have fewer := bits t
      omega

/-- In every run the accounts balance in all states exactly when every thread that ends was
created to be joined and ends by returning. -/
theorem threads_balanced_exactly_when_joinable (held : Task Root → Finset (Fin 32))
    (history : List (Move (State Root) (Event Root))) (s : State Root)
    (run : Trace Steps (boot held) history s) :
    (∀ state ∈ visited (boot held) history, Balanced held state) ↔
      ∀ move ∈ history, EndsJoinable move.before move.label := by
  refine guarded_exact EndsJoinable (Kept held) (Balanced held) run_kept ?_ ?_ run
  · rw [balanced_iff_tidy (kept_boot held)]
    exact nofun
  · intro before e after kept balanced taken
    have effect := effect_of_step taken
    rw [balanced_iff_tidy (effect_kept kept effect)]
    exact effect_tidy_iff kept ((balanced_iff_tidy kept).mp balanced) effect

def mainTask : Task Unit := .root ()

/-- A worker that is created, returns and is joined. -/
def joinedWorker : List (Event Unit) :=
  [.create mainTask true true true (some (signalBit 16)) true, .returns 0, .join mainTask 0,
    .poll mainTask]

theorem joined_worker_balances :
    ∃ (history : List (Move (State Unit) (Event Unit))) (s : State Unit),
      Trace Steps (boot fun _ => ∅) history s ∧ history.length = 4 ∧ s.threads.length = 0 ∧
      ∀ state ∈ visited (boot fun _ => ∅) history, Balanced (fun _ => ∅) state := by
  have done : ((follow step [] (boot fun _ => ∅) joinedWorker).map fun out =>
      (decide (out.1.length = 4 ∧ out.2.threads.length = 0),
        decide (∀ move ∈ out.1, EndsJoinable move.before move.label))) = some (true, true) := by
    decide +kernel
  obtain ⟨⟨history, s⟩, followed, facts⟩ := Option.map_eq_some_iff.mp done
  obtain ⟨shape, joinable⟩ := Prod.ext_iff.mp facts
  have run := follow_trace .nil followed
  exact ⟨history, s, run, (of_decide_eq_true shape).1, (of_decide_eq_true shape).2,
    (threads_balanced_exactly_when_joinable _ history s run).mpr (of_decide_eq_true joinable)⟩

/-- A worker that nobody is to join. -/
def detachedWorker : List (Event Unit) :=
  [.create mainTask false true true (some (signalBit 16)) true, .returns 0]

theorem detached_worker_keeps_bit :
    ∃ (history : List (Move (State Unit) (Event Unit))) (s : State Unit),
      Trace Steps (boot fun _ => ∅) history s ∧ (s.sigAlloc mainTask).card = 1 ∧
      outstanding s mainTask = 0 ∧ ¬ Balanced (fun _ => ∅) s := by
  have done : ((follow step [] (boot fun _ => ∅) detachedWorker).map fun out =>
      (decide ((out.2.sigAlloc mainTask).card = 1), decide (outstanding out.2 mainTask = 0),
        decide ((out.2.sigAlloc mainTask \ ∅).card = 1))) = some (true, true, true) := by
    decide +kernel
  obtain ⟨⟨history, s⟩, followed, facts⟩ := Option.map_eq_some_iff.mp done
  simp only [Prod.mk.injEq, decide_eq_true_eq] at facts
  obtain ⟨bits, counted, beyond⟩ := facts
  refine ⟨history, s, follow_trace .nil followed, bits, counted, ?_⟩
  intro balanced
  have fewer := balanced.bits mainTask
  rw [counted, beyond] at fewer
  omega

end Netstack.Threads
