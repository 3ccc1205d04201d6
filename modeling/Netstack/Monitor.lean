import Netstack.HypercallLocks
import Netstack.UntimedWakeup

/-!
Condition variables together with the mutexes their callers hold. The machine of the
condition variables runs unchanged inside: its unlock and relock steps act on the
semaphore that the wait was given, so a relock blocks while another task is the owner,
and a task outside of the condition variables may lock and unlock mutexes. A wait puts
its entry on the ring before it lets go of the mutex; therefore a task that holds the
mutex finds every wait with that mutex on the ring or past it.
-/

namespace Netstack.Monitor

open CondVar HypercallLocks Semaphore Transition WaiterRing

variable {Task Cv Mtx : Type}

structure State (Task Cv Mtx : Type) where
  core : CondVar.State Task Cv
  mutexes : Mtx → SignalSemaphore Task
  -- The mutex of the wait a task is in.
  mtx : Task → Option Mtx

inductive Event (Task Cv Mtx : Type) where
  | lock (t : Task) (m : Mtx)
  | trylock (t : Task) (m : Mtx)
  | unlock (t : Task) (m : Mtx)
  | wait (t : Task) (cv : Cv) (m : Mtx)
  | timedwait (t : Task) (cv : Cv) (m : Mtx) (timeout : UInt64)
  | inside (e : CondVar.Event Task Cv)

def boot (memory : Cv → Int → Waiter Task) : State Task Cv Mtx where
  core := CondVar.boot memory
  mutexes _ := .free
  mtx _ := none

def Pc.isIdle : Pc Task Cv → Bool
  | .idle => true
  | _ => false

theorem idle_of {pc : Pc Task Cv} (idle : Pc.isIdle pc = true) : pc = .idle := by
  cases pc <;> first | rfl | cases idle

def Event.untimed : Event Task Cv Mtx → Bool
  | .timedwait _ _ _ _ => false
  | _ => true

section Machine

variable [DecidableEq Task] [DecidableEq Cv] [DecidableEq Mtx]

def State.setMutex (s : State Task Cv Mtx) (m : Mtx) (sem : SignalSemaphore Task) :
    State Task Cv Mtx :=
  { s with mutexes := Function.update s.mutexes m sem }

def State.setMtx (s : State Task Cv Mtx) (t : Task) (arg : Option Mtx) : State Task Cv Mtx :=
  { s with mtx := Function.update s.mtx t arg }

def step (exec : Exec Task) (s : State Task Cv Mtx) :
    Event Task Cv Mtx → Option (State Task Cv Mtx)
  | .lock t m =>
      if Pc.isIdle (s.core.pc t) then (osalMutexLock t (s.mutexes m)).map (s.setMutex m) else none
  | .trylock t m =>
      if Pc.isIdle (s.core.pc t) then some (s.setMutex m (osalMutexTrylock exec t (s.mutexes m)).2)
      else none
  | .unlock t m =>
      if Pc.isIdle (s.core.pc t) then some (s.setMutex m (osalMutexUnlock exec t (s.mutexes m)))
      else none
  | .wait t cv m =>
      (CondVar.step s.core (.wait t cv)).map fun core =>
        { s.setMtx t (some m) with core := core }
  | .timedwait t cv m timeout =>
      (CondVar.step s.core (.timedwait t cv timeout)).map fun core =>
        { s.setMtx t (some m) with core := core }
  | .inside e =>
      (CondVar.step s.core e).bind fun core =>
        match e with
        | .wait _ _ | .timedwait _ _ _ => none
        | .unlock t =>
            (s.mtx t).map fun m =>
              { s.setMutex m (osalMutexUnlock exec t (s.mutexes m)) with core := core }
        | .relock t =>
            (s.mtx t).bind fun m => (osalMutexLock t (s.mutexes m)).map fun sem =>
              { (s.setMutex m sem).setMtx t none with core := core }
        | _ => some { s with core := core }

def Steps (exec : Exec Task) (s : State Task Cv Mtx) (e : Event Task Cv Mtx)
    (s' : State Task Cv Mtx) : Prop :=
  step exec s e = some s'

end Machine

/-! Where a task stands towards the mutex of its wait. -/

inductive Stage where
  | outside
  | entering
  | away
  deriving DecidableEq

/-- A task that enters has not let go of the mutex, one that is away has not taken it
again. A panicked task stays where it is and takes no step. -/
def stage : Pc Task Cv → Stage
  | .waitEnqueue _ | .waitUnlock _ _ | .timedEnqueue _ _ | .timedUnlock _ => .entering
  | .waitSignal _ _ | .waitRelock | .timedTest _ | .timedPoll _ | .timedClear _ | .timedSleep _
  | .timedRemove _ | .timedRelock _ _ => .away
  | .idle | .panicked | .signalSend _ | .broadcastNext _ | .broadcastSend _ _ => .outside

/-- The condition variable that the entry of an untimed wait is for. -/
def waitsFor : Pc Task Cv → Option Cv
  | .waitEnqueue cv | .waitUnlock cv _ | .waitSignal cv _ => some cv
  | _ => none

theorem waitsFor_cases {pc : Pc Task Cv} {cv : Cv} (waits : waitsFor pc = some cv) :
    stage pc = .entering ∨ ∃ stamp, pc = .waitSignal cv stamp := by
  cases pc <;> simp_all [waitsFor, stage]

/-- Task `t` alone moves, from one stage to another. -/
structure Passes (before after : Task → Pc Task Cv) (t : Task) (source target : Stage) :
    Prop where
  source : stage (before t) = source
  target : stage (after t) = target
  others : ∀ u, u ≠ t → stage (after u) = stage (before u)

theorem Passes.stays {before after : Task → Pc Task Cv} {t : Task} {at_ : Stage}
    (passes : Passes before after t at_ at_) (u : Task) :
    stage (after u) = stage (before u) := by
  by_cases mine : u = t
  · subst mine
    rw [passes.source, passes.target]
  · exact passes.others u mine

/-- Task `t` is in a wait on `cv` with mutex `m` and has not been woken. -/
def WaitsOn (s : State Task Cv Mtx) (t : Task) (cv : Cv) (m : Mtx) : Prop :=
  waitsFor (s.core.pc t) = some cv ∧ s.mtx t = some m

/-- The Signal of `t` has been called or is about to be. -/
def Notified (s : State Task Cv Mtx) (t : Task) : Prop :=
  s.core.single t = true ∨ ∃ u, AboutToSignal s.core u t

/-- A task whose entry is on no ring has been notified. -/
theorem notified_of_empty {place : Task → Place Task Cv} {s : State Task Cv Mtx}
    (located : LocatedIn place s.core) {t : Task} {cv : Cv} {stamp : Nat}
    (asleep : s.core.pc t = .waitSignal cv stamp) (empty : (s.core.cvs cv).count = 0) : Notified s t := by
  have known := located.known t
  rw [CondVar.State.registered, asleep] at known
  cases placed : place t with
  | away =>
      rw [placed] at known
      cases known
  | ring cv' stamp' =>
      rw [placed] at known
      cases known
      have member := List.length_pos_of_mem ((located.ring cv t stamp).mpr placed)
      rw [queue_length, empty] at member
      cases member
  | flight u cv' stamp' => exact .inr ⟨u, located.signaller.mpr ⟨cv', stamp', placed⟩⟩
  | bit cv' stamp' => exact .inl ((located.bit t).mpr ⟨cv', stamp', placed⟩)

variable [DecidableEq Task]

theorem passes_update (before : Task → Pc Task Cv) {t : Task} {source : Stage}
    (here : stage (before t) = source) (pc : Pc Task Cv) :
    Passes before (Function.update before t pc) t source (stage pc) := by
  refine ⟨here, by rw [Function.update_self], ?_⟩
  intro u other
  rw [Function.update_of_ne other]

/-! What a task holds. -/

variable [DecidableEq Mtx]

/-- One while the wait of `t` with mutex `m` has let go of it. -/
def lent (s : State Task Cv Mtx) (t : Task) (m : Mtx) : Nat :=
  if stage (s.core.pc t) = .away ∧ s.mtx t = some m then 1 else 0

abbrev Depths (Task Mtx : Type) := Task → Mtx → Nat

def Depths.set (depths : Depths Task Mtx) (t : Task) (m : Mtx) (depth : Nat) : Depths Task Mtx :=
  Function.update depths t (Function.update (depths t) m depth)

/-- How often each task has locked each mutex more than it has unlocked it, by the calls
of the callers alone. -/
def Depths.record (exec : Exec Task) (depths : Depths Task Mtx)
    (move : Move (State Task Cv Mtx) (Event Task Cv Mtx)) : Depths Task Mtx :=
  match move.label with
  | .lock t m => depths.set t m (depths t m + 1)
  | .trylock t m =>
      if (osalMutexTrylock exec t (move.before.mutexes m)).1 = 0 then depths
      else depths.set t m (depths t m + 1)
  | .unlock t m => depths.set t m (depths t m - 1)
  | _ => depths

structure Kept (depths : Depths Task Mtx) (s : State Task Cv Mtx) : Prop where
  holding : ∀ t m, stage (s.core.pc t) = .entering → s.mtx t = some m →
    0 < nest (s.mutexes m) t
  level : ∀ t m, nest (s.mutexes m) t + lent s t m = depths t m

/-- Callers unlock what they hold and wait with a mutex they hold. -/
def Proper (s : State Task Cv Mtx) : Event Task Cv Mtx → Prop
  | .unlock t m | .wait t _ m | .timedwait t _ m _ => 0 < nest (s.mutexes m) t
  | _ => True

instance (s : State Task Cv Mtx) : DecidablePred (Proper s)
  | .unlock t m | .wait t _ m | .timedwait t _ m _ =>
      inferInstanceAs (Decidable (0 < nest (s.mutexes m) t))
  | .lock _ _ | .trylock _ _ | .inside _ => isTrue trivial

variable {s s' : State Task Cv Mtx} {depths depths' : Depths Task Mtx}

/-- Nothing changes but what task `t` has of mutex `m`. -/
theorem Kept.change (kept : Kept depths s) (t : Task) (m : Mtx)
    (stages : ∀ u, u ≠ t → stage (s'.core.pc u) = stage (s.core.pc u))
    (args : ∀ u, u ≠ t → s'.mtx u = s.mtx u)
    (nests : ∀ u k, u ≠ t ∨ k ≠ m → nest (s'.mutexes k) u = nest (s.mutexes k) u)
    (same : ∀ u k, u ≠ t ∨ k ≠ m → depths' u k = depths u k)
    (rest : ∀ k, k ≠ m → lent s' t k = lent s t k)
    (holding : ∀ k, stage (s'.core.pc t) = .entering → s'.mtx t = some k →
      0 < nest (s'.mutexes k) t)
    (level : nest (s'.mutexes m) t + lent s' t m = depths' t m) : Kept depths' s' := by
  constructor
  · intro u k entering arg
    by_cases mine : u = t
    · subst mine
      exact holding k entering arg
    · rw [stages u mine] at entering
      rw [args u mine] at arg
      rw [nests u k (.inl mine)]
      exact kept.holding u k entering arg
  · intro u k
    by_cases mine : u = t
    · subst mine
      by_cases here : k = m
      · subst here
        exact level
      · rw [nests u k (.inr here), rest k here, same u k (.inr here)]
        exact kept.level u k
    · have lent_ : lent s' u k = lent s u k := by
        rw [lent, lent, stages u mine, args u mine]
      rw [nests u k (.inl mine), lent_, same u k (.inl mine)]
      exact kept.level u k

theorem boot_kept (memory : Cv → Int → Waiter Task) :
    Kept (fun _ _ => 0) (boot memory : State Task Cv Mtx) := by
  refine ⟨?_, ?_⟩
  · intro t m entering _
    cases entering
  · intro t m
    rfl

theorem Kept.outside (kept : Kept depths s) {t : Task} (outside : stage (s.core.pc t) = .outside)
    (m : Mtx) : nest (s.mutexes m) t = depths t m := by
  have level := kept.level t m
  rwa [lent, outside, if_neg (by simp), Nat.add_zero] at level

theorem setMutex_nests {t : Task} {m : Mtx} {sem : SignalSemaphore Task}
    (others : ∀ u, u ≠ t → nest sem u = nest (s.mutexes m) u) (u : Task) (k : Mtx)
    (apart : u ≠ t ∨ k ≠ m) : nest ((s.setMutex m sem).mutexes k) u = nest (s.mutexes k) u := by
  by_cases here : k = m
  · subst here
    simp only [State.setMutex, Function.update_self]
    exact others u (apart.resolve_right (not_not_intro rfl))
  · simp only [State.setMutex, Function.update_of_ne here]

theorem set_apart {t : Task} {m : Mtx} {depth : Nat} (u : Task) (k : Mtx)
    (apart : u ≠ t ∨ k ≠ m) : depths.set t m depth u k = depths u k := by
  rw [Depths.set]
  by_cases mine : u = t
  · subst mine
    rw [Function.update_self, Function.update_of_ne (apart.resolve_left (not_not_intro rfl))]
  · rw [Function.update_of_ne mine]

/-- A call of a mutex function by a task that is in no wait. -/
theorem Kept.call (kept : Kept depths s) {t : Task} (outside : stage (s.core.pc t) = .outside)
    (m : Mtx) {sem : SignalSemaphore Task}
    (others : ∀ u, u ≠ t → nest sem u = nest (s.mutexes m) u) :
    Kept (depths.set t m (nest sem t)) (s.setMutex m sem) := by
  refine kept.change t m (fun _ _ => rfl) (fun _ _ => rfl) (setMutex_nests others) set_apart
    (fun _ _ => rfl) ?_ ?_
  · intro k entering _
    exact absurd (outside.symm.trans entering) (by decide)
  · have unlent : lent (s.setMutex m sem) t m = 0 := by
      rw [lent, if_neg]
      rintro ⟨away, _⟩
      exact absurd (outside.symm.trans away) (by decide)
    rw [unlent]
    simp [State.setMutex, Depths.set]

theorem Kept.enter (kept : Kept depths s) {t : Task} {m : Mtx} {core : CondVar.State Task Cv}
    (passes : Passes s.core.pc core.pc t .outside .entering) (held : 0 < nest (s.mutexes m) t) :
    Kept depths { s.setMtx t (some m) with core := core } := by
  have unlent : ∀ k, lent { s.setMtx t (some m) with core := core } t k = lent s t k := by
    intro k
    rw [lent, lent, if_neg, if_neg]
    · rintro ⟨away, _⟩
      exact absurd (passes.source.symm.trans away) (by decide)
    · rintro ⟨away, _⟩
      exact absurd (passes.target.symm.trans away) (by decide)
  refine kept.change t m passes.others ?_ (fun _ _ _ => rfl) (fun _ _ _ => rfl)
    (fun k _ => unlent k) ?_ ?_
  · intro u other
    exact Function.update_of_ne other ..
  · intro k _ arg
    have same : m = k := by simpa [State.setMtx] using arg
    rw [← same]
    exact held
  · rw [unlent]
    exact kept.level t m

theorem Kept.release (kept : Kept depths s) (exec : Exec Task) {t : Task} {m : Mtx}
    {core : CondVar.State Task Cv} (passes : Passes s.core.pc core.pc t .entering .away)
    (arg : s.mtx t = some m) :
    Kept depths { s.setMutex m (osalMutexUnlock exec t (s.mutexes m)) with core := core } := by
  have held := kept.holding t m passes.source arg
  obtain ⟨own, others⟩ := nest_release exec held
  refine kept.change t m passes.others (fun _ _ => rfl) (setMutex_nests others)
    (fun _ _ _ => rfl) ?_ ?_ ?_
  · intro k other
    have apart : ¬ s.mtx t = some k := by
      rw [arg]
      intro same
      exact other (Option.some.inj same).symm
    rw [lent, lent, if_neg (fun both => apart both.2), if_neg (fun both => apart both.2)]
  · intro k entering _
    exact absurd (passes.target.symm.trans entering) (by decide)
  · have before := kept.level t m
    have unlent : lent s t m = 0 := by
      rw [lent, passes.source, if_neg (by simp)]
    have lent_ : lent { s.setMutex m (osalMutexUnlock exec t (s.mutexes m)) with core := core } t m
        = 1 := by
      rw [lent]
      exact if_pos ⟨passes.target, arg⟩
    rw [lent_, ← before, unlent, own]
    simp [State.setMutex, osalMutexUnlock]

theorem Kept.return (kept : Kept depths s) {t : Task} {m : Mtx} {sem : SignalSemaphore Task}
    {core : CondVar.State Task Cv} (passes : Passes s.core.pc core.pc t .away .outside)
    (arg : s.mtx t = some m) (obtained : osalMutexLock t (s.mutexes m) = some sem) :
    Kept depths { (s.setMutex m sem).setMtx t none with core := core } := by
  obtain ⟨own, others⟩ := nest_obtain obtained
  have unlent : ∀ k, lent { (s.setMutex m sem).setMtx t none with core := core } t k = 0 := by
    intro k
    rw [lent, if_neg]
    rintro ⟨away, _⟩
    exact absurd (passes.target.symm.trans away) (by decide)
  refine kept.change t m passes.others ?_ (setMutex_nests others) (fun _ _ _ => rfl) ?_ ?_ ?_
  · intro u other
    exact Function.update_of_ne other ..
  · intro k other
    have apart : ¬ s.mtx t = some k := by
      rw [arg]
      intro same
      exact other (Option.some.inj same).symm
    rw [unlent, lent, if_neg (fun both => apart both.2)]
  · intro k entering _
    exact absurd (passes.target.symm.trans entering) (by decide)
  · have before := kept.level t m
    have lent_ : lent s t m = 1 := by
      rw [lent]
      exact if_pos ⟨passes.source, arg⟩
    rw [unlent, ← before, lent_, ← own]
    simp [State.setMutex, State.setMtx]

variable [DecidableEq Cv]

/-- The steps of the condition variables that are no part of this machine's calls. -/
def isInner : CondVar.Event Task Cv → Bool
  | .wait _ _ | .timedwait _ _ _ | .unlock _ | .relock _ => false
  | _ => true

inductive Effect (exec : Exec Task) (s : State Task Cv Mtx) :
    Event Task Cv Mtx → State Task Cv Mtx → Prop where
  | locked {t : Task} {m : Mtx} {sem : SignalSemaphore Task} (idle : s.core.pc t = .idle)
      (obtained : osalMutexLock t (s.mutexes m) = some sem) :
      Effect exec s (.lock t m) (s.setMutex m sem)
  | tried {t : Task} {m : Mtx} (idle : s.core.pc t = .idle) :
      Effect exec s (.trylock t m) (s.setMutex m (osalMutexTrylock exec t (s.mutexes m)).2)
  | unlocked {t : Task} {m : Mtx} (idle : s.core.pc t = .idle) :
      Effect exec s (.unlock t m) (s.setMutex m (osalMutexUnlock exec t (s.mutexes m)))
  | waited {t : Task} {cv : Cv} {m : Mtx} {core : CondVar.State Task Cv}
      (taken : CondVar.step s.core (.wait t cv) = some core) :
      Effect exec s (.wait t cv m) { s.setMtx t (some m) with core := core }
  | timedWaited {t : Task} {cv : Cv} {m : Mtx} {timeout : UInt64} {core : CondVar.State Task Cv}
      (taken : CondVar.step s.core (.timedwait t cv timeout) = some core) :
      Effect exec s (.timedwait t cv m timeout) { s.setMtx t (some m) with core := core }
  | released {t : Task} {m : Mtx} {core : CondVar.State Task Cv} (arg : s.mtx t = some m)
      (taken : CondVar.step s.core (.unlock t) = some core) :
      Effect exec s (.inside (.unlock t))
        { s.setMutex m (osalMutexUnlock exec t (s.mutexes m)) with core := core }
  | returned {t : Task} {m : Mtx} {sem : SignalSemaphore Task} {core : CondVar.State Task Cv}
      (arg : s.mtx t = some m) (obtained : osalMutexLock t (s.mutexes m) = some sem)
      (taken : CondVar.step s.core (.relock t) = some core) :
      Effect exec s (.inside (.relock t)) { (s.setMutex m sem).setMtx t none with core := core }
  | moved {e : CondVar.Event Task Cv} {core : CondVar.State Task Cv} (inner : isInner e = true)
      (taken : CondVar.step s.core e = some core) :
      Effect exec s (.inside e) { s with core := core }

variable {exec : Exec Task} {e : Event Task Cv Mtx}

theorem effect_of_step (stepped : step exec s e = some s') : Effect exec s e s' := by
  cases e with
  | lock t m =>
      simp only [step] at stepped
      split at stepped
      · rename_i idle
        obtain ⟨sem, obtained, rfl⟩ := Option.map_eq_some_iff.mp stepped
        exact .locked (idle_of idle) obtained
      · cases stepped
  | trylock t m =>
      simp only [step] at stepped
      split at stepped
      · rename_i idle
        cases stepped
        exact .tried (idle_of idle)
      · cases stepped
  | unlock t m =>
      simp only [step] at stepped
      split at stepped
      · rename_i idle
        cases stepped
        exact .unlocked (idle_of idle)
      · cases stepped
  | wait t cv m =>
      obtain ⟨core, taken, rfl⟩ := Option.map_eq_some_iff.mp stepped
      exact .waited taken
  | timedwait t cv m timeout =>
      obtain ⟨core, taken, rfl⟩ := Option.map_eq_some_iff.mp stepped
      exact .timedWaited taken
  | inside e =>
      obtain ⟨core, taken, stepped⟩ := Option.bind_eq_some_iff.mp stepped
      cases e with
      | wait t cv => cases stepped
      | timedwait t cv timeout => cases stepped
      | unlock t =>
          obtain ⟨m, arg, rfl⟩ := Option.map_eq_some_iff.mp stepped
          exact .released arg taken
      | relock t =>
          obtain ⟨m, arg, stepped⟩ := Option.bind_eq_some_iff.mp stepped
          obtain ⟨sem, obtained, rfl⟩ := Option.map_eq_some_iff.mp stepped
          exact .returned arg obtained taken
      | _ =>
          cases stepped
          exact .moved rfl taken

/-- A step of this machine is a step of the condition variables or none. -/
theorem effect_core (effect : Effect exec s e s') :
    s'.core = s.core ∨ ∃ inner, CondVar.step s.core inner = some s'.core ∧
      (e.untimed = true → inner.untimed = true) := by
  cases effect with
  | locked | tried | unlocked => exact .inl rfl
  | waited taken => exact .inr ⟨_, taken, fun _ => rfl⟩
  | timedWaited taken => exact .inr ⟨_, taken, nofun⟩
  | released arg taken => exact .inr ⟨_, taken, fun _ => rfl⟩
  | returned arg obtained taken => exact .inr ⟨_, taken, fun _ => rfl⟩
  | @moved inner core kind taken =>
      refine .inr ⟨inner, taken, ?_⟩
      intro _
      cases inner <;> first | rfl | cases kind

/-! What a step of the condition variables does to the stages. -/

theorem wait_passes {core core' : CondVar.State Task Cv} {t : Task} {cv : Cv}
    (taken : CondVar.step core (.wait t cv) = some core') :
    Passes core.pc core'.pc t .outside .entering := by
  cases CondVar.effect_of_step taken with
  | waited pc => exact passes_update _ (by rw [pc]; rfl) _

theorem timedwait_passes {core core' : CondVar.State Task Cv} {t : Task} {cv : Cv}
    {timeout : UInt64} (taken : CondVar.step core (.timedwait t cv timeout) = some core') :
    Passes core.pc core'.pc t .outside .entering := by
  cases CondVar.effect_of_step taken with
  | timedWaited pc => exact passes_update _ (by rw [pc]; rfl) _

theorem unlock_passes {core core' : CondVar.State Task Cv} {t : Task}
    (taken : CondVar.step core (.unlock t) = some core') :
    Passes core.pc core'.pc t .entering .away := by
  cases CondVar.effect_of_step taken with
  | unlocked pc | timedUnlocked pc => exact passes_update _ (by rw [pc]; rfl) _

theorem relock_passes {core core' : CondVar.State Task Cv} {t : Task}
    (taken : CondVar.step core (.relock t) = some core') :
    Passes core.pc core'.pc t .away .outside := by
  cases CondVar.effect_of_step taken with
  | relocked pc | timedRelocked pc => exact passes_update _ (by rw [pc]; rfl) _

-- A full ring stops a wait that enters; every other inner step stays in its stage.
theorem inner_passes {core core' : CondVar.State Task Cv} {e : CondVar.Event Task Cv}
    (inner : isInner e = true) (taken : CondVar.step core e = some core') (u : Task) :
    stage (core'.pc u) = stage (core.pc u) ∨
      stage (core.pc u) = .entering ∧ stage (core'.pc u) = .outside := by
  cases CondVar.effect_of_step taken with
  | waited | timedWaited | unlocked | timedUnlocked | relocked | timedRelocked => cases inner
  | nobody => exact .inl rfl
  | @overflowed t cv pc =>
      have entering : stage (core.pc t) = .entering := by
        rcases pc with pc | ⟨timeout, pc⟩ <;> rw [pc] <;> rfl
      have passes := passes_update core.pc entering .panicked
      by_cases mine : u = t
      · subst mine
        exact .inr ⟨passes.source, passes.target⟩
      · exact .inl (passes.others u mine)
  | enqueued pc | timedEnqueued pc | woken pc | inTime pc | timedOut pc | seen pc | unseen pc
  | cleared pc | slept pc | removed pc | signalled pc | guardTaken pc | drawn pc | drained pc =>
      exact .inl (Passes.stays (passes_update core.pc (by rw [pc]; rfl) _) u)
  | sent pc | broadcastSent pc =>
      simp only [CondVar.State.goto, signal_pc]
      exact .inl (Passes.stays (passes_update core.pc (by rw [pc]; rfl) _) u)

theorem effect_kept (proper : Proper s e) (kept : Kept depths s) (effect : Effect exec s e s') :
    Kept (depths.record exec ⟨s, e, s'⟩) s' := by
  cases effect with
  | @locked t m sem idle obtained =>
      have outside : stage (s.core.pc t) = .outside := by rw [idle]; rfl
      obtain ⟨own, others⟩ := nest_obtain obtained
      have next := kept.call outside m others
      rwa [own, kept.outside outside] at next
  | @tried t m idle =>
      have outside : stage (s.core.pc t) = .outside := by rw [idle]; rfl
      rcases attempt_cases exec t (s.mutexes m) with ⟨sem, obtained, result⟩ | result
      · obtain ⟨own, others⟩ := nest_obtain obtained
        have next := kept.call outside m others
        rw [own, kept.outside outside] at next
        simp only [Depths.record, osalMutexTrylock, result, if_neg exec.nonzero]
        exact next
      · have same : s.setMutex m (s.mutexes m) = s := by
          rw [State.setMutex, Function.update_eq_self]
        simp only [Depths.record, osalMutexTrylock, result, if_true, same]
        exact kept
  | @unlocked t m idle =>
      have outside : stage (s.core.pc t) = .outside := by rw [idle]; rfl
      obtain ⟨own, others⟩ := nest_release exec proper
      have next := kept.call outside m others
      have fewer : nest (releaseSemaphore exec t (s.mutexes m)) t = depths t m - 1 := by
        rw [← kept.outside outside, own]
        rfl
      rwa [fewer] at next
  | waited taken => exact kept.enter (wait_passes taken) proper
  | timedWaited taken => exact kept.enter (timedwait_passes taken) proper
  | released arg taken => exact kept.release exec (unlock_passes taken) arg
  | returned arg obtained taken => exact kept.return (relock_passes taken) arg obtained
  | @moved inner core kind taken =>
      constructor
      · intro u k entering arg
        rcases inner_passes kind taken u with same | ⟨_, outside⟩
        · rw [same] at entering
          exact kept.holding u k entering arg
        · exact absurd (outside.symm.trans entering) (by decide)
      · intro u k
        have lent_ : lent { s with core := core } u k = lent s u k := by
          rcases inner_passes kind taken u with same | ⟨entering, outside⟩
          · rw [lent, lent, same]
          · rw [lent, lent, outside, entering, if_neg (by simp), if_neg (by simp)]
        rw [lent_]
        exact kept.level u k

/-! Notifications. -/

theorem effect_wakeups_untimed (wakeups : Wakeups s.core) (quiet : Untimed s.core)
    (untimed : e.untimed = true) (effect : Effect exec s e s') :
    Wakeups s'.core ∧ Untimed s'.core := by
  rcases effect_core effect with same | ⟨inner, taken, allowed⟩
  · rw [same]
    exact ⟨wakeups, quiet⟩
  · have moved := CondVar.effect_of_step taken
    exact ⟨effect_wakeups (prompt_of_untimed quiet inner) wakeups moved,
      effect_untimed quiet (allowed untimed) moved⟩

/-- The waits of a monitor. In every run in which callers unlock what they hold and wait
with a mutex they hold, a wait leaves its caller's hold of every mutex as it found it and
gives up one level of its own mutex on the way. A task that holds a mutex meets no other
wait with that mutex before its entry is on the ring and the mutex released; so, as long
as nobody uses a timeout, whenever the ring is empty while the mutex is held (a broadcast
has ended, a signal would find nobody) every task waiting there has been notified. -/
theorem monitor_waits_atomic (exec : Exec Task) (memory : Cv → Int → Waiter Task)
    {history : List (Move (State Task Cv Mtx) (Event Task Cv Mtx))} {now : State Task Cv Mtx}
    (trace : Trace (Steps exec) (boot memory) history now)
    (proper : ∀ move ∈ history, Proper move.before move.label) :
    (∀ t m, nest (now.mutexes m) t + lent now t m =
        history.foldl (Depths.record exec) (fun _ _ => 0) t m) ∧
      (∀ t u m, u ≠ t → 0 < nest (now.mutexes m) u → now.mtx t = some m →
        stage (now.core.pc t) ≠ .entering) ∧
      ((∀ move ∈ history, move.label.untimed = true) → ∀ u m cv, 0 < nest (now.mutexes m) u →
        (now.core.cvs cv).count = 0 → ∀ t, u ≠ t → WaitsOn now t cv m → Notified now t) := by
  have run : Kept (history.foldl (Depths.record exec) fun _ _ => 0) now ∧
      Along (Depths.record exec) (fun _ _ => True) (fun _ _ => 0) history := by
    refine observed_invariant Kept (fun _ move => Proper move.before move.label)
      (boot_kept memory) ?_ (fun _ _ _ _ _ _ _ => trivial) trace (along_of_forall _ proper)
    intro depths before label after kept taken allowed
    exact effect_kept allowed kept (effect_of_step taken)
  obtain ⟨kept, -⟩ := run
  have apart : ∀ t u m, u ≠ t → 0 < nest (now.mutexes m) u → now.mtx t = some m →
      stage (now.core.pc t) ≠ .entering := by
    intro t u m other held arg entering
    have mine := kept.holding t m entering arg
    rw [nest_exclusive mine other] at held
    cases held
  refine ⟨kept.level, apart, ?_⟩
  intro untimed u m cv held empty t other waits
  have wakeups : Wakeups now.core ∧ Untimed now.core := by
    refine guarded_invariant (fun _ label => label.untimed = true)
      (fun s => Wakeups s.core ∧ Untimed s.core) ⟨boot_wakeups memory, fun _ => rfl⟩ ?_ trace
      untimed
    rintro before label after ⟨wakeups, quiet⟩ allowed taken
    exact effect_wakeups_untimed wakeups quiet allowed (effect_of_step taken)
  obtain ⟨⟨place, located, -⟩, -⟩ := wakeups
  rcases waitsFor_cases waits.1 with entering | ⟨stamp, asleep⟩
  · exact absurd entering (apart t u m other held waits.2)
  · exact notified_of_empty located asleep empty

/-- A wait lets the other task in, which broadcasts under the mutex. -/
def waitAndBroadcast : List (Event Bool Unit Unit) :=
  [.lock false (), .wait false () (), .inside (.enqueue false), .inside (.unlock false),
    .lock true (), .inside (.broadcast true ()), .inside (.next true), .inside (.send true),
    .inside (.next true)]

theorem broadcast_under_mutex_notifies :
    ∃ history now,
      Trace (Steps plainExec) (boot blank) history now ∧
      nest (now.mutexes ()) true = 1 ∧ WaitsOn now false () () ∧
      history.foldl (Depths.record plainExec) (fun _ _ => 0) false () = 1 ∧ Notified now false := by
  have done : ((follow (step plainExec) [] (boot blank) waitAndBroadcast).map fun out =>
      decide ((∀ move ∈ out.1, Proper move.before move.label) ∧
        (∀ move ∈ out.1, move.label.untimed = true) ∧ nest (out.2.mutexes ()) true = 1 ∧
        (out.2.core.cvs ()).count = 0 ∧ waitsFor (out.2.core.pc false) = some () ∧
        out.2.mtx false = some () ∧
        out.1.foldl (Depths.record plainExec) (fun _ _ => 0) false () = 1)) = some true := by
    decide +kernel
  obtain ⟨⟨history, now⟩, followed, checks⟩ := Option.map_eq_some_iff.mp done
  obtain ⟨proper, untimed, held, empty, waits, arg, depth⟩ := of_decide_eq_true checks
  have trace : Trace (Steps plainExec) (boot blank) history now := follow_trace .nil followed
  obtain ⟨-, -, notified⟩ := monitor_waits_atomic plainExec blank trace proper
  refine ⟨history, now, trace, held, ⟨waits, arg⟩, depth, ?_⟩
  exact notified untimed true () () (by rw [held]; decide) empty false (by decide) ⟨waits, arg⟩

end Netstack.Monitor
