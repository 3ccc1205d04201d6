import Mathlib.Data.List.Basic
import Netstack.Transition
import Netstack.WaiterRing

/-!
The condition variables of `osal_lock.c` as a system of tasks. A step is one
section under the guard of a condition variable, one exec call on the signal bit
of a task, one sleep or one operation on the caller's mutex. A signal releases
the guard before it calls Signal; a broadcast keeps it through its loop. Of the
signals of a task only `SIGF_SINGLE` is kept, and no other code sets it. The
mutex is not kept: a task may take it at any time, which allows more
interleavings than the lock does. An entry carries the number of the wait that
made it, for the proofs; no branch reads it.
-/

namespace Netstack.CondVar

open Transition WaiterRing

variable {Task Cv : Type}

def sigfSingle : UInt32 := 0x10

@[ext]
structure Waiter (Task : Type) where
  task : Task
  sigmask : UInt32
  stamp : Nat
  deriving DecidableEq

def pollNs : UInt64 := 10000000

def etimedout : Int := -60

/-- The local variables of `osal_cv_timedwait` once it is on the ring. -/
structure TimedWait (Cv : Type) where
  cv : Cv
  stamp : Nat
  timeout : UInt64
  elapsed : UInt64 := 0

def TimedWait.slept (w : TimedWait Cv) : TimedWait Cv :=
  { w with elapsed := w.elapsed + pollNs }

@[simp] theorem TimedWait.slept_cv (w : TimedWait Cv) : w.slept.cv = w.cv := by
  rw [slept]

@[simp] theorem TimedWait.slept_stamp (w : TimedWait Cv) : w.slept.stamp = w.stamp := by
  rw [slept]

@[simp] theorem TimedWait.slept_timeout (w : TimedWait Cv) : w.slept.timeout = w.timeout := by
  rw [slept]

inductive Pc (Task Cv : Type) where
  | idle
  | panicked
  | waitEnqueue (cv : Cv)
  | waitUnlock (cv : Cv) (stamp : Nat)
  | waitSignal (cv : Cv) (stamp : Nat)
  | waitRelock
  | timedEnqueue (cv : Cv) (timeout : UInt64)
  | timedUnlock (w : TimedWait Cv)
  | timedTest (w : TimedWait Cv)
  | timedPoll (w : TimedWait Cv)
  | timedClear (w : TimedWait Cv)
  | timedSleep (w : TimedWait Cv)
  | timedRemove (w : TimedWait Cv)
  | timedRelock (stamp : Nat) (rv : Int)
  | signalSend (waiter : Waiter Task)
  | broadcastNext (cv : Cv)
  | broadcastSend (cv : Cv) (waiter : Waiter Task)

structure State (Task Cv : Type) where
  pc : Task → Pc Task Cv
  cvs : Cv → OsalCv (Waiter Task)
  guarded : Cv → Bool
  single : Task → Bool
  nextStamp : Nat

/-- Every condition variable is new, on memory of any contents. -/
def boot (memory : Cv → Int → Waiter Task) : State Task Cv where
  pc _ := .idle
  cvs cv := osalCvNew (memory cv)
  guarded _ := false
  single _ := false
  nextStamp := 0

inductive Event (Task Cv : Type) where
  | wait (t : Task) (cv : Cv)
  | timedwait (t : Task) (cv : Cv) (timeout : UInt64)
  | enqueue (t : Task)
  | unlock (t : Task)
  | wake (t : Task)
  | test (t : Task)
  | poll (t : Task)
  | clear (t : Task)
  | sleep (t : Task)
  | remove (t : Task)
  | relock (t : Task)
  | signal (t : Task) (cv : Cv)
  | broadcast (t : Task) (cv : Cv)
  | next (t : Task)
  | send (t : Task)

variable [DecidableEq Task] [DecidableEq Cv]

def State.goto (s : State Task Cv) (t : Task) (pc : Pc Task Cv) : State Task Cv :=
  { s with pc := Function.update s.pc t pc }

def State.setSingle (s : State Task Cv) (t : Task) (bit : Bool) : State Task Cv :=
  { s with single := Function.update s.single t bit }

def State.setCv (s : State Task Cv) (cv : Cv) (ring : OsalCv (Waiter Task)) : State Task Cv :=
  { s with cvs := Function.update s.cvs cv ring }

/-- The guarded section of both waits. A full ring panics and does not return. -/
def State.register (s : State Task Cv) (t : Task) (cv : Cv) (next : Nat → Pc Task Cv) :
    Option (State Task Cv) :=
  if s.guarded cv then none
  else if osalCvMaxWaiters ≤ (s.cvs cv).count then some (s.goto t .panicked)
  else some ({ s.setCv cv (enqueue (s.cvs cv) ⟨t, sigfSingle, s.nextStamp⟩) with
    nextStamp := s.nextStamp + 1 }.goto t (next s.nextStamp))

def isMine (t : Task) (w : Waiter Task) : Bool := w.task = t ∧ w.sigmask = sigfSingle

/-- The exec call Signal on a waiter that was popped. -/
def State.signal (s : State Task Cv) (w : Waiter Task) : State Task Cv :=
  if w.sigmask &&& sigfSingle = 0 then s else s.setSingle w.task true

omit [DecidableEq Cv] in
@[simp] theorem signal_pc (s : State Task Cv) (w : Waiter Task) : (s.signal w).pc = s.pc := by
  rw [State.signal]
  split <;> rfl

def step (s : State Task Cv) : Event Task Cv → Option (State Task Cv)
  -- Both waits clear the bit before they enqueue.
  | .wait t cv =>
      match s.pc t with
      | .idle => some ((s.setSingle t false).goto t (.waitEnqueue cv))
      | _ => none
  | .timedwait t cv timeout =>
      match s.pc t with
      | .idle => some ((s.setSingle t false).goto t (.timedEnqueue cv timeout))
      | _ => none
  | .enqueue t =>
      match s.pc t with
      | .waitEnqueue cv => s.register t cv (.waitUnlock cv)
      | .timedEnqueue cv timeout =>
          s.register t cv fun stamp => .timedUnlock { cv := cv, stamp := stamp, timeout := timeout }
      | _ => none
  | .unlock t =>
      match s.pc t with
      | .waitUnlock cv stamp => some (s.goto t (.waitSignal cv stamp))
      | .timedUnlock w => some (s.goto t (.timedTest w))
      | _ => none
  | .wake t =>
      match s.pc t with
      | .waitSignal _ _ =>
          if s.single t then some ((s.setSingle t false).goto t .waitRelock) else none
      | _ => none
  | .test t =>
      match s.pc t with
      | .timedTest w =>
          some (s.goto t (if w.elapsed < w.timeout then .timedPoll w else .timedRemove w))
      | _ => none
  | .poll t =>
      match s.pc t with
      | .timedPoll w => some (s.goto t (if s.single t then .timedClear w else .timedSleep w))
      | _ => none
  | .clear t =>
      match s.pc t with
      | .timedClear w => some ((s.setSingle t false).goto t (.timedRelock w.stamp 0))
      | _ => none
  | .sleep t =>
      match s.pc t with
      | .timedSleep w => some (s.goto t (.timedTest w.slept))
      | _ => none
  | .remove t =>
      match s.pc t with
      | .timedRemove w =>
          if s.guarded w.cv then none
          else some ((s.setCv w.cv (cancel (s.cvs w.cv) (isMine t))).goto t
            (.timedRelock w.stamp etimedout))
      | _ => none
  | .relock t =>
      match s.pc t with
      | .waitRelock => some (s.goto t .idle)
      | .timedRelock _ _ => some (s.goto t .idle)
      | _ => none
  | .signal t cv =>
      match s.pc t with
      | .idle =>
          if s.guarded cv then none
          else if 0 < (s.cvs cv).count then
            some ((s.setCv cv (pop (s.cvs cv)).2).goto t (.signalSend (pop (s.cvs cv)).1))
          else some s
      | _ => none
  | .broadcast t cv =>
      match s.pc t with
      | .idle =>
          if s.guarded cv then none
          else some ({ s with guarded := Function.update s.guarded cv true }.goto t
            (.broadcastNext cv))
      | _ => none
  | .next t =>
      match s.pc t with
      | .broadcastNext cv =>
          if 0 < (s.cvs cv).count then
            some ((s.setCv cv (pop (s.cvs cv)).2).goto t (.broadcastSend cv (pop (s.cvs cv)).1))
          else some ({ s with guarded := Function.update s.guarded cv false }.goto t .idle)
      | _ => none
  | .send t =>
      match s.pc t with
      | .signalSend w => some ((s.signal w).goto t .idle)
      | .broadcastSend cv w => some ((s.signal w).goto t (.broadcastNext cv))
      | _ => none

def Steps (s : State Task Cv) (e : Event Task Cv) (s' : State Task Cv) : Prop := step s e = some s'

/-- Every step there is, one constructor for each way through `step`. -/
inductive Effect (s : State Task Cv) : Event Task Cv → State Task Cv → Prop where
  | waited {t : Task} {cv : Cv} (pc : s.pc t = .idle) :
      Effect s (.wait t cv) ((s.setSingle t false).goto t (.waitEnqueue cv))
  | timedWaited {t : Task} {cv : Cv} {timeout : UInt64} (pc : s.pc t = .idle) :
      Effect s (.timedwait t cv timeout)
        ((s.setSingle t false).goto t (.timedEnqueue cv timeout))
  | overflowed {t : Task} {cv : Cv}
      (pc : s.pc t = .waitEnqueue cv ∨ ∃ timeout, s.pc t = .timedEnqueue cv timeout) :
      Effect s (.enqueue t) (s.goto t .panicked)
  | enqueued {t : Task} {cv : Cv} (pc : s.pc t = .waitEnqueue cv) (free : s.guarded cv = false)
      (room : (s.cvs cv).count < 32) :
      Effect s (.enqueue t)
        ({ s.setCv cv (enqueue (s.cvs cv) ⟨t, sigfSingle, s.nextStamp⟩) with
          nextStamp := s.nextStamp + 1 }.goto t (.waitUnlock cv s.nextStamp))
  | timedEnqueued {t : Task} {cv : Cv} {timeout : UInt64} (pc : s.pc t = .timedEnqueue cv timeout)
      (free : s.guarded cv = false) (room : (s.cvs cv).count < 32) :
      Effect s (.enqueue t)
        ({ s.setCv cv (enqueue (s.cvs cv) ⟨t, sigfSingle, s.nextStamp⟩) with
          nextStamp := s.nextStamp + 1 }.goto t
            (.timedUnlock { cv := cv, stamp := s.nextStamp, timeout := timeout }))
  | unlocked {t : Task} {cv : Cv} {stamp : Nat} (pc : s.pc t = .waitUnlock cv stamp) :
      Effect s (.unlock t) (s.goto t (.waitSignal cv stamp))
  | timedUnlocked {t : Task} {w : TimedWait Cv} (pc : s.pc t = .timedUnlock w) :
      Effect s (.unlock t) (s.goto t (.timedTest w))
  | woken {t : Task} {cv : Cv} {stamp : Nat} (pc : s.pc t = .waitSignal cv stamp)
      (bit : s.single t = true) :
      Effect s (.wake t) ((s.setSingle t false).goto t .waitRelock)
  | inTime {t : Task} {w : TimedWait Cv} (pc : s.pc t = .timedTest w)
      (more : w.elapsed < w.timeout) : Effect s (.test t) (s.goto t (.timedPoll w))
  | timedOut {t : Task} {w : TimedWait Cv} (pc : s.pc t = .timedTest w)
      (expired : ¬ w.elapsed < w.timeout) : Effect s (.test t) (s.goto t (.timedRemove w))
  | seen {t : Task} {w : TimedWait Cv} (pc : s.pc t = .timedPoll w) (bit : s.single t = true) :
      Effect s (.poll t) (s.goto t (.timedClear w))
  | unseen {t : Task} {w : TimedWait Cv} (pc : s.pc t = .timedPoll w)
      (bit : s.single t = false) : Effect s (.poll t) (s.goto t (.timedSleep w))
  | cleared {t : Task} {w : TimedWait Cv} (pc : s.pc t = .timedClear w) :
      Effect s (.clear t) ((s.setSingle t false).goto t (.timedRelock w.stamp 0))
  | slept {t : Task} {w : TimedWait Cv} (pc : s.pc t = .timedSleep w) :
      Effect s (.sleep t) (s.goto t (.timedTest w.slept))
  | removed {t : Task} {w : TimedWait Cv} (pc : s.pc t = .timedRemove w)
      (free : s.guarded w.cv = false) :
      Effect s (.remove t)
        ((s.setCv w.cv (cancel (s.cvs w.cv) (isMine t))).goto t (.timedRelock w.stamp etimedout))
  | relocked {t : Task} (pc : s.pc t = .waitRelock) : Effect s (.relock t) (s.goto t .idle)
  | timedRelocked {t : Task} {stamp : Nat} {rv : Int} (pc : s.pc t = .timedRelock stamp rv) :
      Effect s (.relock t) (s.goto t .idle)
  | signalled {t : Task} {cv : Cv} (pc : s.pc t = .idle) (free : s.guarded cv = false)
      (some_ : 0 < (s.cvs cv).count) :
      Effect s (.signal t cv)
        ((s.setCv cv (pop (s.cvs cv)).2).goto t (.signalSend (pop (s.cvs cv)).1))
  | nobody {t : Task} {cv : Cv} (pc : s.pc t = .idle) (free : s.guarded cv = false)
      (none_ : ¬ 0 < (s.cvs cv).count) : Effect s (.signal t cv) s
  | guardTaken {t : Task} {cv : Cv} (pc : s.pc t = .idle) (free : s.guarded cv = false) :
      Effect s (.broadcast t cv)
        ({ s with guarded := Function.update s.guarded cv true }.goto t (.broadcastNext cv))
  | drawn {t : Task} {cv : Cv} (pc : s.pc t = .broadcastNext cv)
      (some_ : 0 < (s.cvs cv).count) :
      Effect s (.next t)
        ((s.setCv cv (pop (s.cvs cv)).2).goto t (.broadcastSend cv (pop (s.cvs cv)).1))
  | drained {t : Task} {cv : Cv} (pc : s.pc t = .broadcastNext cv)
      (none_ : ¬ 0 < (s.cvs cv).count) :
      Effect s (.next t)
        ({ s with guarded := Function.update s.guarded cv false }.goto t .idle)
  | sent {t : Task} {w : Waiter Task} (pc : s.pc t = .signalSend w) :
      Effect s (.send t) ((s.signal w).goto t .idle)
  | broadcastSent {t : Task} {cv : Cv} {w : Waiter Task} (pc : s.pc t = .broadcastSend cv w) :
      Effect s (.send t) ((s.signal w).goto t (.broadcastNext cv))

theorem register_cases {s s' : State Task Cv} {t : Task} {cv : Cv} {next : Nat → Pc Task Cv}
    (registered : s.register t cv next = some s') :
    s' = s.goto t .panicked ∨
      (s.guarded cv = false ∧ (s.cvs cv).count < 32 ∧
        s' = { s.setCv cv (enqueue (s.cvs cv) ⟨t, sigfSingle, s.nextStamp⟩) with
          nextStamp := s.nextStamp + 1 }.goto t (next s.nextStamp)) := by
  simp only [State.register] at registered
  split_ifs at registered with busy full
  · cases registered
    exact .inl rfl
  · cases registered
    exact .inr ⟨by simpa using busy, by simpa [osalCvMaxWaiters] using full, rfl⟩

theorem effect_of_step {s s' : State Task Cv} {e : Event Task Cv}
    (stepped : step s e = some s') : Effect s e s' := by
  cases e with
  | wait t cv =>
      simp only [step] at stepped
      split at stepped
      · rename_i pc
        cases stepped
        exact .waited pc
      · contradiction
  | timedwait t cv timeout =>
      simp only [step] at stepped
      split at stepped
      · rename_i pc
        cases stepped
        exact .timedWaited pc
      · contradiction
  | enqueue t =>
      simp only [step] at stepped
      split at stepped
      · rename_i cv pc
        rcases register_cases stepped with rfl | ⟨free, room, rfl⟩
        · exact .overflowed (.inl pc)
        · exact .enqueued pc free room
      · rename_i cv timeout pc
        rcases register_cases stepped with rfl | ⟨free, room, rfl⟩
        · exact .overflowed (.inr ⟨timeout, pc⟩)
        · exact .timedEnqueued pc free room
      · contradiction
  | unlock t =>
      simp only [step] at stepped
      split at stepped
      · rename_i pc
        cases stepped
        exact .unlocked pc
      · rename_i pc
        cases stepped
        exact .timedUnlocked pc
      · contradiction
  | wake t =>
      simp only [step] at stepped
      split at stepped
      · rename_i pc
        split at stepped
        · rename_i bit
          cases stepped
          exact .woken pc bit
        · contradiction
      · contradiction
  | test t =>
      simp only [step] at stepped
      split at stepped
      · rename_i pc
        split_ifs at stepped with more
        · cases stepped
          exact .inTime pc more
        · cases stepped
          exact .timedOut pc more
      · contradiction
  | poll t =>
      simp only [step] at stepped
      split at stepped
      · rename_i pc
        split_ifs at stepped with bit
        · cases stepped
          exact .seen pc bit
        · cases stepped
          exact .unseen pc (by simpa using bit)
      · contradiction
  | clear t =>
      simp only [step] at stepped
      split at stepped
      · rename_i pc
        cases stepped
        exact .cleared pc
      · contradiction
  | sleep t =>
      simp only [step] at stepped
      split at stepped
      · rename_i pc
        cases stepped
        exact .slept pc
      · contradiction
  | remove t =>
      simp only [step] at stepped
      split at stepped
      · rename_i pc
        split_ifs at stepped with busy
        cases stepped
        exact .removed pc (by simpa using busy)
      · contradiction
  | relock t =>
      simp only [step] at stepped
      split at stepped
      · rename_i pc
        cases stepped
        exact .relocked pc
      · rename_i pc
        cases stepped
        exact .timedRelocked pc
      · contradiction
  | signal t cv =>
      simp only [step] at stepped
      split at stepped
      · rename_i pc
        split_ifs at stepped with busy some_
        · cases stepped
          exact .signalled pc (by simpa using busy) some_
        · cases stepped
          exact .nobody pc (by simpa using busy) some_
      · contradiction
  | broadcast t cv =>
      simp only [step] at stepped
      split at stepped
      · rename_i pc
        split_ifs at stepped with busy
        cases stepped
        exact .guardTaken pc (by simpa using busy)
      · contradiction
  | next t =>
      simp only [step] at stepped
      split at stepped
      · rename_i pc
        split_ifs at stepped with some_
        · cases stepped
          exact .drawn pc some_
        · cases stepped
          exact .drained pc some_
      · contradiction
  | send t =>
      simp only [step] at stepped
      split at stepped
      · rename_i pc
        cases stepped
        exact .sent pc
      · rename_i pc
        cases stepped
        exact .broadcastSent pc
      · contradiction

end Netstack.CondVar
