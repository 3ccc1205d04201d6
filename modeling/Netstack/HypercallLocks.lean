import Mathlib.Data.Fintype.Basic
import Mathlib.Tactic.Common
import Netstack.Semaphore
import Netstack.Transition

/-!
The mutex and rwlock hypercalls of `osal_lock.c`. The state has two levels: the
semaphores, and what the rump kernel was told, a list of acquisitions for each
task and lock. The kernel takes a zero result for success. The two try shims
report the opposite of what exec did, or do nothing and report success, so a
single call of either parts the two levels; without them the levels agree.
-/

namespace Netstack.HypercallLocks

open Transition Semaphore

variable {Task Mtx Rw : Type}

inductive RwType where
  | reader
  | writer
  deriving DecidableEq

inductive Lock (Mtx Rw : Type) where
  | mutex (mtx : Mtx)
  | rw (rw : Rw)
  deriving DecidableEq

section Shims

variable [DecidableEq Task]

def osalMutexLock (t : Task) (m : SignalSemaphore Task) : Option (SignalSemaphore Task) :=
  obtainSemaphore t m

def osalMutexTrylock (exec : Exec Task) (t : Task) (m : SignalSemaphore Task) :
    Int × SignalSemaphore Task := attemptSemaphore exec t m

def osalMutexUnlock (exec : Exec Task) (t : Task) (m : SignalSemaphore Task) :
    SignalSemaphore Task := releaseSemaphore exec t m

def osalRwlockWlock (t : Task) (rw : SignalSemaphore Task) : Option (SignalSemaphore Task) :=
  obtainSemaphore t rw

def osalRwlockUnlock (exec : Exec Task) (t : Task) (rw : SignalSemaphore Task) :
    SignalSemaphore Task := releaseSemaphore exec t rw

def rumpuserMutexEnter (t : Task) (mtx : SignalSemaphore Task) : Option (SignalSemaphore Task) :=
  osalMutexLock t mtx

def rumpuserMutexEnterNowrap (t : Task) (mtx : SignalSemaphore Task) :
    Option (SignalSemaphore Task) := osalMutexLock t mtx

def rumpuserMutexTryenter (exec : Exec Task) (t : Task) (mtx : SignalSemaphore Task) :
    Int × SignalSemaphore Task := osalMutexTrylock exec t mtx

def rumpuserMutexExit (exec : Exec Task) (t : Task) (mtx : SignalSemaphore Task) :
    SignalSemaphore Task := osalMutexUnlock exec t mtx

/-- Readers and writers both lock exclusively. -/
def rumpuserRwEnter (t : Task) (_type : RwType) (rw : SignalSemaphore Task) :
    Option (SignalSemaphore Task) := osalRwlockWlock t rw

def rumpuserRwTryenter (_t : Task) (_type : RwType) (rw : SignalSemaphore Task) :
    Int × SignalSemaphore Task := (0, rw)

def rumpuserRwTryupgrade (_t : Task) (rw : SignalSemaphore Task) :
    Int × SignalSemaphore Task := (0, rw)

def rumpuserRwDowngrade (_t : Task) (rw : SignalSemaphore Task) : SignalSemaphore Task := rw

def rumpuserRwExit (exec : Exec Task) (t : Task) (rw : SignalSemaphore Task) :
    SignalSemaphore Task := osalRwlockUnlock exec t rw

end Shims

/-- `reported` is what each task was told it acquired and has not exited yet, the
latest first; a mutex counts as a writer. -/
structure State (Task Mtx Rw : Type) where
  sem : Lock Mtx Rw → SignalSemaphore Task
  reported : Task → Lock Mtx Rw → List RwType

def boot : State Task Mtx Rw where
  sem _ := .free
  reported _ _ := []

inductive Event (Task Mtx Rw : Type) where
  | mutexEnter (t : Task) (mtx : Mtx)
  | mutexEnterNowrap (t : Task) (mtx : Mtx)
  | mutexTryenter (t : Task) (mtx : Mtx)
  | mutexExit (t : Task) (mtx : Mtx)
  | rwEnter (t : Task) (type : RwType) (rw : Rw)
  | rwTryenter (t : Task) (type : RwType) (rw : Rw)
  | rwTryupgrade (t : Task) (rw : Rw)
  | rwDowngrade (t : Task) (rw : Rw)
  | rwExit (t : Task) (rw : Rw)
  deriving DecidableEq

def Event.tries : Event Task Mtx Rw → Bool
  | .mutexTryenter _ _ | .rwTryenter _ _ _ => true
  | _ => false

variable [DecidableEq Task]

/-- What the kernel was told and what the semaphores record. -/
def Agrees (s : State Task Mtx Rw) : Prop :=
  ∀ t lock, (s.reported t lock).length = nest (s.sem lock) t

/-- The levels agree, no two tasks were told that they hold one mutex, and no
writer was reported beside another holder. -/
structure Sound (s : State Task Mtx Rw) : Prop where
  agrees : Agrees s
  mutex : ∀ t u mtx, s.reported t (.mutex mtx) ≠ [] → s.reported u (.mutex mtx) ≠ [] → t = u
  writer : ∀ t u rw, .writer ∈ s.reported t (.rw rw) → s.reported u (.rw rw) ≠ [] → t = u

theorem sound_of_agrees {s : State Task Mtx Rw} (agrees : Agrees s) : Sound s := by
  have alone : ∀ t u lock, s.reported t lock ≠ [] → s.reported u lock ≠ [] → t = u := by
    intro t u lock mine other
    by_contra apart
    have holds : 0 < nest (s.sem lock) t := by
      rw [← agrees t lock]
      exact List.length_pos_iff.mpr mine
    have none_ := nest_exclusive holds (Ne.symm apart)
    rw [← agrees u lock] at none_
    exact other (List.length_eq_zero_iff.mp none_)
  exact ⟨agrees, fun t u mtx => alone t u (.mutex mtx),
    fun t u rw writes => alone t u (.rw rw) (List.ne_nil_of_mem writes)⟩

variable [DecidableEq Mtx] [DecidableEq Rw]

def State.setSem (s : State Task Mtx Rw) (lock : Lock Mtx Rw) (sem : SignalSemaphore Task) :
    State Task Mtx Rw :=
  { s with sem := Function.update s.sem lock sem }

def State.setReported (s : State Task Mtx Rw) (t : Task) (lock : Lock Mtx Rw)
    (modes : List RwType) : State Task Mtx Rw :=
  { s with reported := Function.update s.reported t (Function.update (s.reported t) lock modes) }

def State.acquired (s : State Task Mtx Rw) (t : Task) (lock : Lock Mtx Rw) (type : RwType) :
    State Task Mtx Rw :=
  s.setReported t lock (type :: s.reported t lock)

/-- The kernel takes the new mode for the latest acquisition, if there is one. -/
def State.retyped (s : State Task Mtx Rw) (t : Task) (lock : Lock Mtx Rw) (type : RwType) :
    State Task Mtx Rw :=
  s.setReported t lock ((s.reported t lock).modifyHead fun _ => type)

/-- A call that returns nothing and reports an acquisition. -/
def State.enter (s : State Task Mtx Rw) (t : Task) (lock : Lock Mtx Rw) (type : RwType)
    (shim : SignalSemaphore Task → Option (SignalSemaphore Task)) : Option (State Task Mtx Rw) :=
  (shim (s.sem lock)).map fun sem => (s.setSem lock sem).acquired t lock type

/-- A call whose result the kernel reads: zero is an acquisition. -/
def State.try_ (s : State Task Mtx Rw) (t : Task) (lock : Lock Mtx Rw) (type : RwType)
    (out : Int × SignalSemaphore Task) : State Task Mtx Rw :=
  if out.1 = 0 then (s.setSem lock out.2).acquired t lock type else s.setSem lock out.2

/-- A task exits only what it was told it acquired. -/
def State.exit (s : State Task Mtx Rw) (t : Task) (lock : Lock Mtx Rw)
    (shim : SignalSemaphore Task → SignalSemaphore Task) : Option (State Task Mtx Rw) :=
  match s.reported t lock with
  | [] => none
  | _ :: rest => some ((s.setSem lock (shim (s.sem lock))).setReported t lock rest)

def step (exec : Exec Task) (s : State Task Mtx Rw) :
    Event Task Mtx Rw → Option (State Task Mtx Rw)
  | .mutexEnter t mtx => s.enter t (.mutex mtx) .writer (rumpuserMutexEnter t)
  | .mutexEnterNowrap t mtx => s.enter t (.mutex mtx) .writer (rumpuserMutexEnterNowrap t)
  | .mutexTryenter t mtx =>
      some (s.try_ t (.mutex mtx) .writer (rumpuserMutexTryenter exec t (s.sem (.mutex mtx))))
  | .mutexExit t mtx => s.exit t (.mutex mtx) (rumpuserMutexExit exec t)
  | .rwEnter t type rw => s.enter t (.rw rw) type (rumpuserRwEnter t type)
  | .rwTryenter t type rw =>
      some (s.try_ t (.rw rw) type (rumpuserRwTryenter t type (s.sem (.rw rw))))
  | .rwTryupgrade t rw =>
      let out := rumpuserRwTryupgrade t (s.sem (.rw rw))
      some (if out.1 = 0 then (s.setSem (.rw rw) out.2).retyped t (.rw rw) .writer
        else s.setSem (.rw rw) out.2)
  | .rwDowngrade t rw =>
      some ((s.setSem (.rw rw) (rumpuserRwDowngrade t (s.sem (.rw rw)))).retyped t (.rw rw) .reader)
  | .rwExit t rw => s.exit t (.rw rw) (rumpuserRwExit exec t)

def Steps (exec : Exec Task) (s : State Task Mtx Rw) (e : Event Task Mtx Rw)
    (s' : State Task Mtx Rw) : Prop := step exec s e = some s'

section Steps

variable {exec : Exec Task} {s s' : State Task Mtx Rw} {e : Event Task Mtx Rw}
variable {t : Task} {lock : Lock Mtx Rw} {sem : SignalSemaphore Task} {modes : List RwType}

theorem setReported_same : (s.setReported t lock modes).reported t lock = modes := by
  simp [State.setReported]

theorem setReported_other {u : Task} {other : Lock Mtx Rw} (apart : u ≠ t ∨ other ≠ lock) :
    (s.setReported t lock modes).reported u other = s.reported u other := by
  by_cases mine : u = t
  · subst mine
    have elsewhere : other ≠ lock := by simpa using apart
    simp [State.setReported, elsewhere]
  · simp [State.setReported, mine]

/-- One task and one lock change. -/
theorem agrees_change (agrees : Agrees s) (own : modes.length = nest sem t)
    (others : ∀ u, u ≠ t → nest sem u = nest (s.sem lock) u) :
    Agrees ((s.setSem lock sem).setReported t lock modes) := by
  intro u other
  by_cases here : other = lock
  · subst here
    by_cases mine : u = t
    · subst mine
      rw [setReported_same]
      simpa [State.setReported, State.setSem] using own
    · rw [setReported_other (.inl mine)]
      simpa [State.setReported, State.setSem, others u mine] using agrees u other
  · rw [setReported_other (.inr here)]
    simpa [State.setReported, State.setSem, here] using agrees u other

theorem enter_agrees {type : RwType} (agrees : Agrees s)
    (entered : s.enter t lock type (obtainSemaphore t) = some s') : Agrees s' := by
  obtain ⟨taken, obtained, rfl⟩ := Option.map_eq_some_iff.mp entered
  obtain ⟨own, others⟩ := nest_obtain obtained
  refine agrees_change agrees ?_ others
  rw [own, ← agrees t lock]
  rfl

theorem exit_held (agrees : Agrees s) {shim : SignalSemaphore Task → SignalSemaphore Task}
    (left : s.exit t lock shim = some s') : 0 < nest (s.sem lock) t := by
  rw [← agrees t lock]
  simp only [State.exit] at left
  split at left
  · cases left
  · rename_i modes
    rw [modes]
    exact Nat.succ_pos _

theorem exit_agrees (agrees : Agrees s)
    (left : s.exit t lock (releaseSemaphore exec t) = some s') : Agrees s' := by
  obtain ⟨own, others⟩ := nest_release exec (exit_held agrees left)
  simp only [State.exit] at left
  split at left
  · cases left
  · rename_i modes
    cases left
    refine agrees_change agrees ?_ others
    have before := agrees t lock
    rw [modes, own, List.length_cons] at before
    exact Nat.succ.inj before

theorem retype_agrees (agrees : Agrees s) (t : Task) (lock : Lock Mtx Rw) (type : RwType) :
    Agrees ((s.setSem lock (s.sem lock)).retyped t lock type) := by
  refine agrees_change agrees ?_ fun u _ => rfl
  rw [List.length_modifyHead]
  exact agrees t lock

/-- A report of success for a lock that was not taken. -/
theorem untaken_disagrees (agrees : Agrees s) (t : Task) (lock : Lock Mtx Rw) (type : RwType) :
    ¬ Agrees ((s.setSem lock (s.sem lock)).acquired t lock type) := by
  intro after
  have there := after t lock
  rw [State.acquired, setReported_same] at there
  have before := agrees t lock
  simp [State.setReported, State.setSem] at there
  omega

/-- A report of failure for a lock that was taken. -/
theorem unreported_disagrees (agrees : Agrees s)
    (obtained : obtainSemaphore t (s.sem lock) = some sem) :
    ¬ Agrees (s.setSem lock sem) := by
  intro after
  have there := after t lock
  have own := (nest_obtain obtained).1
  have before := agrees t lock
  simp only [State.setSem, Function.update_self] at there
  omega

theorem mutexTryenter_disagrees (agrees : Agrees s) (exec : Exec Task) (t : Task) (mtx : Mtx) :
    ¬ Agrees (s.try_ t (.mutex mtx) .writer
      (rumpuserMutexTryenter exec t (s.sem (.mutex mtx)))) := by
  rcases attempt_cases exec t (s.sem (.mutex mtx)) with ⟨taken, obtained, result⟩ | result
  · rw [State.try_, rumpuserMutexTryenter, osalMutexTrylock, result, if_neg exec.nonzero]
    exact unreported_disagrees agrees obtained
  · rw [State.try_, rumpuserMutexTryenter, osalMutexTrylock, result, if_pos rfl]
    exact untaken_disagrees agrees t (.mutex mtx) .writer

/-- The levels stay together in a step exactly when it is not one of the two tries. -/
theorem step_agrees_iff (agrees : Agrees s) (stepped : step exec s e = some s') :
    Agrees s' ↔ e.tries = false := by
  cases e with
  | mutexEnter t mtx | mutexEnterNowrap t mtx | rwEnter t type rw =>
      exact iff_of_true (enter_agrees agrees stepped) rfl
  | mutexExit t mtx | rwExit t rw => exact iff_of_true (exit_agrees agrees stepped) rfl
  | mutexTryenter t mtx =>
      cases stepped
      exact iff_of_false (mutexTryenter_disagrees agrees exec t mtx) nofun
  | rwTryenter t type rw =>
      cases stepped
      exact iff_of_false (untaken_disagrees agrees t (.rw rw) type) nofun
  | rwTryupgrade t rw =>
      cases stepped
      exact iff_of_true (retype_agrees agrees t (.rw rw) .writer) rfl
  | rwDowngrade t rw =>
      cases stepped
      exact iff_of_true (retype_agrees agrees t (.rw rw) .reader) rfl

end Steps

/-- Whoever calls ReleaseSemaphore holds the semaphore. -/
def ReleasesOwn (move : Move (State Task Mtx Rw) (Event Task Mtx Rw)) : Prop :=
  match move.label with
  | .mutexExit t mtx => 0 < nest (move.before.sem (.mutex mtx)) t
  | .rwExit t rw => 0 < nest (move.before.sem (.rw rw)) t
  | _ => True

theorem releases_own {exec : Exec Task} {s s' : State Task Mtx Rw} {e : Event Task Mtx Rw}
    (agrees : Agrees s) (stepped : step exec s e = some s') : ReleasesOwn ⟨s, e, s'⟩ := by
  cases e with
  | mutexExit t mtx | rwExit t rw => exact exit_held agrees stepped
  | mutexEnter | mutexEnterNowrap | mutexTryenter | rwEnter | rwTryenter | rwTryupgrade
  | rwDowngrade => trivial

/-- A history keeps what the kernel was told in step with the semaphores, and its
tasks release only what they hold, exactly when nobody calls a try. -/
theorem locks_agree_exactly_without_tries (exec : Exec Task)
    {history : List (Move (State Task Mtx Rw) (Event Task Mtx Rw))} {now : State Task Mtx Rw}
    (trace : Trace (Steps exec) boot history now) :
    ((∀ s ∈ visited boot history, Sound s) ∧ ∀ move ∈ history, ReleasesOwn move) ↔
      ∀ move ∈ history, move.label.tries = false := by
  have initially : Agrees (boot : State Task Mtx Rw) := fun t lock => rfl
  have decided := guarded_exact (fun _ e => e.tries = false) (fun _ => True) Agrees
    (fun _ => trivial) initially
    (fun before label after _ agrees taken => step_agrees_iff agrees taken) trace
  constructor
  · rintro ⟨sound, -⟩
    exact decided.mp fun s member => (sound s member).agrees
  · intro untried
    refine ⟨fun s member => sound_of_agrees (decided.mpr untried s member), ?_⟩
    intro move member
    obtain ⟨agrees, taken, -⟩ := guarded_moves (fun _ e => e.tries = false) Agrees initially
      (fun before label after agrees meets taken => (step_agrees_iff agrees taken).mpr meets)
      trace untried move member
    exact releases_own agrees taken

/-- An attempt that succeeds returns TRUE; a stray release does nothing. -/
def plainExec : Exec Bool := ⟨1, by decide, fun _ sem => sem⟩

/-- Nested mutexes, a read lock that is upgraded, and a second task afterwards. -/
def nested : List (Event Bool Unit Unit) :=
  [.mutexEnter true (), .mutexEnterNowrap true (), .rwEnter true .reader (),
    .rwTryupgrade true (), .rwExit true (), .mutexExit true (), .mutexExit true (),
    .mutexEnter false ()]

theorem nested_locks_agree :
    ∃ history now, Trace (Steps plainExec) boot history now ∧
      history.map Move.label = nested ∧ ∀ s ∈ visited boot history, Sound s := by
  have done : ((follow (step plainExec) [] boot nested).map fun out =>
      (decide (∀ move ∈ out.1, move.label.tries = false), out.1.map Move.label)) =
      some (true, nested) := by
    decide +kernel
  obtain ⟨⟨history, now⟩, followed, checks⟩ := Option.map_eq_some_iff.mp done
  obtain ⟨untried, labels⟩ := Prod.ext_iff.mp checks
  have trace : Trace (Steps plainExec) boot history now := follow_trace .nil followed
  have sound := (locks_agree_exactly_without_tries plainExec trace).mpr (of_decide_eq_true untried)
  exact ⟨history, now, trace, labels, sound.1⟩

/-- The second task is told that it got the mutex the first task holds, and exits it. -/
def contended : List (Event Bool Unit Unit) :=
  [.mutexEnter true (), .mutexTryenter false (), .mutexExit false ()]

theorem contended_tryenter_misreports :
    ∃ history now, Trace (Steps plainExec) (boot : State Bool Unit Unit) history now ∧
      (∃ s ∈ visited boot history, s.reported true (.mutex ()) ≠ [] ∧
        s.reported false (.mutex ()) ≠ []) ∧
      ∃ move ∈ history, move.label = .mutexExit false () ∧
        nest (move.before.sem (.mutex ())) false = 0 := by
  have done : ((follow (step plainExec) [] boot contended).map fun
        (out : List (Move (State Bool Unit Unit) (Event Bool Unit Unit)) × State Bool Unit Unit) =>
      (decide (∃ s ∈ visited boot out.1, s.reported true (.mutex ()) ≠ [] ∧
          s.reported false (.mutex ()) ≠ []),
        decide (∃ move ∈ out.1, move.label = .mutexExit false () ∧
          nest (move.before.sem (.mutex ())) false = 0))) = some (true, true) := by
    decide +kernel
  obtain ⟨⟨history, now⟩, followed, checks⟩ := Option.map_eq_some_iff.mp done
  obtain ⟨shared, stray⟩ := Prod.ext_iff.mp checks
  exact ⟨history, now, follow_trace .nil followed, of_decide_eq_true shared,
    of_decide_eq_true stray⟩

end Netstack.HypercallLocks
