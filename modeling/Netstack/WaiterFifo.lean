import Netstack.CondVar

/-!
The waiter list as the callers of `osal_lock.c` see it. Each operation runs under
the guard from its first access to its last, so a run is a list of operations. The
list of tasks it stands for is a FIFO from which a task may withdraw: a wait
appends, a signal takes the first task, a broadcast takes all of them in order, and
a wait that timed out removes its first entry wherever the ring has it. The rings of
the interleaved system of tasks are rings of this machine.
-/

namespace Netstack.WaiterFifo

open WaiterRing
open CondVar (Waiter sigfSingle isMine)

variable {Task : Type}

inductive GuardedOp (Task : Type) where
  | enqueue (t : Task) (stamp : Nat)
  | cancel (t : Task)
  | signal
  | broadcast

/-- The calls of the exec function Signal, in order, and whether the task panics. -/
structure Effect (Task : Type) where
  signals : List (Task × UInt32) := []
  panicked : Bool := false

def callOf (w : Waiter Task) : Task × UInt32 := (w.task, w.sigmask)

/-- The guarded section at the start of `osal_cv_wait` and `osal_cv_timedwait`. -/
def enlist (cv : OsalCv (Waiter Task)) (t : Task) (stamp : Nat) :
    OsalCv (Waiter Task) × Effect Task :=
  if osalCvMaxWaiters ≤ cv.count then (cv, { panicked := true })
  else (enqueue cv ⟨t, sigfSingle, stamp⟩, {})

def osalCvSignal (cv : OsalCv (Waiter Task)) : OsalCv (Waiter Task) × Effect Task :=
  if 0 < cv.count then ((pop cv).2, { signals := [callOf (pop cv).1] }) else (cv, {})

/-- The loop of `osal_cv_broadcast`. A pass takes one waiter off the count. -/
def broadcastLoop : Nat → OsalCv (Waiter Task) → OsalCv (Waiter Task) × List (Task × UInt32)
  | 0, cv => (cv, [])
  | passes + 1, cv =>
      if 0 < cv.count then
        ((broadcastLoop passes (pop cv).2).1,
          callOf (pop cv).1 :: (broadcastLoop passes (pop cv).2).2)
      else (cv, [])

def osalCvBroadcast (cv : OsalCv (Waiter Task)) : OsalCv (Waiter Task) × Effect Task :=
  let ran := broadcastLoop cv.count.toNat cv
  (ran.1, { signals := ran.2 })

/-! The list that a ring stands for. -/

def waiting (cv : OsalCv (Waiter Task)) : List Task := (queue cv).map Waiter.task

def signalOf (t : Task) : Task × UInt32 := (t, sigfSingle)

/-- Every entry was made by one of the waits, and so names their signal. -/
structure FifoSound (cv : OsalCv (Waiter Task)) : Prop where
  ring : RingSound cv
  masks : ∀ w ∈ queue cv, w.sigmask = sigfSingle

theorem waiting_length {cv : OsalCv (Waiter Task)} (sound : RingSound cv) :
    ((waiting cv).length : Int) = cv.count := by
  have range := sound.count_range
  rw [waiting, List.length_map, queue_length]
  omega

theorem callOf_eq {w : Waiter Task} (mask : w.sigmask = sigfSingle) :
    callOf w = signalOf w.task := by
  rw [callOf, signalOf, mask]

theorem new_fifoSound (memory : Int → Waiter Task) : FifoSound (osalCvNew memory) := by
  refine ⟨new_sound memory, ?_⟩
  rw [new_queue]
  exact List.forall_mem_nil _

section Operations

variable {cv : OsalCv (Waiter Task)}

theorem enlist_spec (sound : FifoSound cv) (t : Task) (stamp : Nat) :
    FifoSound (enlist cv t stamp).1 ∧
      (waiting (enlist cv t stamp).1, (enlist cv t stamp).2) =
        if (waiting cv).length < 32 then (waiting cv ++ [t], {})
        else (waiting cv, { panicked := true }) := by
  have length := waiting_length sound.ring
  rw [enlist]
  by_cases full : osalCvMaxWaiters ≤ cv.count
  · have none : ¬ (waiting cv).length < 32 := by
      rw [osalCvMaxWaiters] at full
      omega
    rw [if_pos full, if_neg none]
    exact ⟨sound, rfl⟩
  · have room : cv.count < 32 := by
      rw [osalCvMaxWaiters] at full
      omega
    rw [if_neg full, if_pos (by omega)]
    have grown := enqueue_queue sound.ring room ⟨t, sigfSingle, stamp⟩
    refine ⟨⟨enqueue_sound sound.ring room _, ?_⟩, ?_⟩
    · rw [grown]
      simp only [List.forall_mem_append, List.forall_mem_singleton]
      exact ⟨sound.masks, trivial⟩
    · simp [waiting, grown]

/-- What a pop takes, for the signal and for a pass of the broadcast. -/
theorem pop_spec (sound : FifoSound cv) (some_ : 0 < cv.count) :
    FifoSound (pop cv).2 ∧ callOf (pop cv).1 = signalOf (pop cv).1.task ∧
      waiting cv = (pop cv).1.task :: waiting (pop cv).2 := by
  have taken := pop_queue sound.ring some_
  have masks := sound.masks
  rw [taken] at masks
  simp only [List.forall_mem_cons] at masks
  refine ⟨⟨pop_sound sound.ring some_, masks.2⟩, callOf_eq masks.1, ?_⟩
  rw [waiting, taken, List.map_cons, waiting]

theorem waiting_nil (sound : RingSound cv) (none : ¬ 0 < cv.count) : waiting cv = [] := by
  have length := waiting_length sound
  exact List.length_eq_zero_iff.mp (by omega)

/-- Enough passes empty the ring. -/
theorem broadcastLoop_spec {passes : Nat} (sound : FifoSound cv)
    (enough : cv.count.toNat ≤ passes) :
    FifoSound (broadcastLoop passes cv).1 ∧ waiting (broadcastLoop passes cv).1 = [] ∧
      (broadcastLoop passes cv).2 = (waiting cv).map signalOf := by
  induction passes generalizing cv with
  | zero =>
      have empty := waiting_nil sound.ring (by omega)
      refine ⟨sound, empty, ?_⟩
      rw [empty]
      rfl
  | succ passes ih =>
      rw [broadcastLoop]
      by_cases some_ : 0 < cv.count
      · obtain ⟨still, call, split⟩ := pop_spec sound some_
        have fewer : (pop cv).2.count.toNat ≤ passes := by
          simp only [pop]
          omega
        obtain ⟨last, empty, sent⟩ := ih still fewer
        rw [if_pos some_]
        refine ⟨last, empty, ?_⟩
        rw [sent, call, split, List.map_cons]
      · have empty := waiting_nil sound.ring some_
        rw [if_neg some_]
        refine ⟨sound, empty, ?_⟩
        rw [empty]
        rfl

end Operations

/-! The machine of all four operations, and the list machine it refines. -/

variable [DecidableEq Task]

def perform (cv : OsalCv (Waiter Task)) : GuardedOp Task → OsalCv (Waiter Task) × Effect Task
  | .enqueue t stamp => enlist cv t stamp
  | .cancel t => (cancel cv (isMine t), {})
  | .signal => osalCvSignal cv
  | .broadcast => osalCvBroadcast cv

def performAll (cv : OsalCv (Waiter Task)) (ops : List (GuardedOp Task)) : OsalCv (Waiter Task) :=
  ops.foldl (fun cv op => (perform cv op).1) cv

/-- A bounded FIFO of tasks with withdrawal. -/
def fifo (tasks : List Task) : GuardedOp Task → List Task × Effect Task
  | .enqueue t _ =>
      if tasks.length < 32 then (tasks ++ [t], {}) else (tasks, { panicked := true })
  | .cancel t => (tasks.erase t, {})
  | .signal =>
      match tasks with
      | [] => ([], {})
      | t :: rest => (rest, { signals := [signalOf t] })
  | .broadcast => ([], { signals := tasks.map signalOf })

variable {cv : OsalCv (Waiter Task)}

theorem osalCvSignal_spec (sound : FifoSound cv) :
    FifoSound (osalCvSignal cv).1 ∧
      fifo (waiting cv) .signal = (waiting (osalCvSignal cv).1, (osalCvSignal cv).2) := by
  rw [osalCvSignal]
  by_cases some_ : 0 < cv.count
  · obtain ⟨still, call, split⟩ := pop_spec sound some_
    rw [if_pos some_, split, call]
    exact ⟨still, rfl⟩
  · rw [if_neg some_, waiting_nil sound.ring some_]
    exact ⟨sound, rfl⟩

/-- Where every mask is the one the waits use, an entry is the caller's by its task. -/
theorem erase_tasks {entries : List (Waiter Task)} (t : Task)
    (masks : ∀ w ∈ entries, w.sigmask = sigfSingle) :
    (entries.eraseP (isMine t)).map Waiter.task = (entries.map Waiter.task).erase t := by
  induction entries with
  | nil => rfl
  | cons w rest ih =>
      obtain ⟨mask, others⟩ := List.forall_mem_cons.mp masks
      by_cases same : w.task = t
      · have found : isMine t w = true := by simp [isMine, same, mask]
        rw [List.eraseP_cons_of_pos found, List.map_cons, same, List.erase_cons_head]
      · have passed : ¬ isMine t w = true := by simp [isMine, same]
        rw [List.eraseP_cons_of_neg passed, List.map_cons, List.map_cons, ih others,
          List.erase_cons_tail (by simpa using same)]

theorem cancel_spec (sound : FifoSound cv) (t : Task) :
    FifoSound (cancel cv (isMine t)) ∧ waiting (cancel cv (isMine t)) = (waiting cv).erase t := by
  have left := cancel_queue sound.ring (isMine t)
  refine ⟨⟨cancel_sound sound.ring _, ?_⟩, ?_⟩
  · intro w member
    rw [left] at member
    exact sound.masks w (List.mem_of_mem_eraseP member)
  · rw [waiting, left]
    exact erase_tasks t sound.masks

theorem perform_refines (sound : FifoSound cv) (op : GuardedOp Task) :
    FifoSound (perform cv op).1 ∧
      fifo (waiting cv) op = (waiting (perform cv op).1, (perform cv op).2) := by
  cases op with
  | enqueue t stamp =>
      obtain ⟨still, same⟩ := enlist_spec sound t stamp
      exact ⟨still, same.symm⟩
  | cancel t =>
      obtain ⟨still, left⟩ := cancel_spec sound t
      refine ⟨still, ?_⟩
      simp only [perform, fifo, left]
  | signal => exact osalCvSignal_spec sound
  | broadcast =>
      obtain ⟨still, empty, sent⟩ := broadcastLoop_spec sound (Nat.le_refl _)
      refine ⟨still, ?_⟩
      simp only [perform, osalCvBroadcast, fifo, empty, sent]

theorem performAll_sound (sound : FifoSound cv)
    (ops : List (GuardedOp Task)) : FifoSound (performAll cv ops) := by
  induction ops generalizing cv with
  | nil => exact sound
  | cons op rest ih => exact ih (perform_refines sound op).1

/-- After any operations on a new condition variable its indices agree with its
count, and the next operation does to the ring, and signals, what it does to the
list of the waiting tasks. -/
theorem waiter_ring_is_fifo (memory : Int → Waiter Task) (ops : List (GuardedOp Task)) :
    let cv := performAll (osalCvNew memory) ops
    cv.head = (cv.tail + cv.count) % 32 ∧ (0 ≤ cv.count ∧ cv.count ≤ 32) ∧
      ∀ op, fifo (waiting cv) op = (waiting (perform cv op).1, (perform cv op).2) := by
  intro cv
  have sound : FifoSound cv := performAll_sound (new_fifoSound memory) ops
  exact ⟨sound.ring.head, sound.ring.count_range, fun op => (perform_refines sound op).2⟩

/-! The rings of the interleaved system are rings of this machine: what a step does
to one of them is one of its operations, and a pass of a broadcast is a signal. -/

section System

open Transition

variable {Cv : Type} {s s' : CondVar.State Task Cv} {e : CondVar.Event Task Cv}

theorem signal_rings (w : Waiter Task) : (s.signal w).cvs = s.cvs := by
  rw [CondVar.State.signal]
  split <;> rfl

variable [DecidableEq Cv]

theorem update_ring {cvs : Cv → OsalCv (Waiter Task)} {c : Cv} {ring : OsalCv (Waiter Task)}
    (op : GuardedOp Task) (same : (perform (cvs c) op).1 = ring) (cv : Cv) :
    Function.update cvs c ring cv = cvs cv ∨
      ∃ op, Function.update cvs c ring cv = (perform (cvs cv) op).1 := by
  by_cases here : cv = c
  · refine Or.inr ⟨op, ?_⟩
    rw [here, Function.update_self, same]
  · exact Or.inl (Function.update_of_ne here ..)

theorem enlist_room {cv : OsalCv (Waiter Task)} (room : cv.count < 32) (t : Task) (stamp : Nat) :
    (perform cv (.enqueue t stamp)).1 = enqueue cv ⟨t, sigfSingle, stamp⟩ := by
  have below : ¬ osalCvMaxWaiters ≤ cv.count := by
    rw [osalCvMaxWaiters]
    omega
  rw [perform, enlist, if_neg below]

theorem signal_some {cv : OsalCv (Waiter Task)} (some_ : 0 < cv.count) :
    (perform cv .signal).1 = (pop cv).2 := by
  rw [perform, osalCvSignal, if_pos some_]

theorem effect_ring (effect : CondVar.Effect s e s') (cv : Cv) :
    s'.cvs cv = s.cvs cv ∨ ∃ op, s'.cvs cv = (perform (s.cvs cv) op).1 := by
  cases effect with
  | @enqueued t c _ _ room =>
      exact update_ring (.enqueue t s.nextStamp) (enlist_room room t _) cv
  | @timedEnqueued t c _ _ _ room =>
      exact update_ring (.enqueue t s.nextStamp) (enlist_room room t _) cv
  | @removed t w _ _ => exact update_ring (.cancel t) rfl cv
  | signalled _ _ some_ => exact update_ring .signal (signal_some some_) cv
  | drawn _ some_ => exact update_ring .signal (signal_some some_) cv
  | @sent t w _ => exact Or.inl (congrFun (signal_rings w) cv)
  | @broadcastSent t c w _ => exact Or.inl (congrFun (signal_rings w) cv)
  | _ => exact Or.inl rfl

/-- Every condition variable of a run is in a state that some operations lead to. -/
theorem ring_of_run {memory : Cv → Int → Waiter Task}
    {history : List (Move (CondVar.State Task Cv) (CondVar.Event Task Cv))}
    (trace : Trace CondVar.Steps (CondVar.boot memory) history s) (cv : Cv) :
    ∃ ops, s.cvs cv = performAll (osalCvNew (memory cv)) ops := by
  refine trace_invariant (fun s => ∃ ops, s.cvs cv = performAll (osalCvNew (memory cv)) ops)
    ⟨[], rfl⟩ ?_ trace
  rintro before e after ⟨ops, reached⟩ stepped
  rcases effect_ring (CondVar.effect_of_step stepped) cv with same | ⟨op, performed⟩
  · exact ⟨ops, same.trans reached⟩
  · refine ⟨ops ++ [op], ?_⟩
    rw [performed, reached, performAll, performAll, List.foldl_append]
    rfl

end System

end Netstack.WaiterFifo
