import Mathlib.Data.Fintype.Sum
import Mathlib.Tactic.DeriveFintype
import Netstack.Monitor

/-!
The producers and consumers of `tests/phase1/test_cv.c`, on the mutexes and condition
variables of `osal_lock.c`. A step is one step of one task: inside a call of a condition
variable the next step of that call, otherwise the next statement of the task's function.
The statements that change the queue run under `g_lock` and are one step. Creating and
joining a thread are one step each; a join waits until the thread's function has returned,
and the sleeps in which it does so are left out.
Where the source would do what C leaves undefined, an overflow of an `int` or a join
through a pointer that no create has set, there is no step.
-/

namespace Netstack.TestCv

open HypercallLocks Semaphore Transition WaiterRing

structure Setup where
  nProd : Nat
  nCons : Nat
  items : Nat
  qSize : Nat

/-- `N_PROD`, `N_CONS`, `ITEMS` and `Q_SIZE` of the source. -/
def testCv : Setup := ⟨3, 2, 50, 4⟩

variable {c : Setup}

inductive Task (c : Setup) where
  | main
  | producer (i : Fin c.nProd)
  | consumer (j : Fin c.nCons)
  deriving DecidableEq, Fintype

/-- `g_notempty` and `g_notfull`. -/
inductive Cond where
  | notempty
  | notfull
  deriving DecidableEq

/-- The globals under `g_lock`. -/
structure Vars where
  q : Int → Int := fun _ => 0
  qhead : Int := 0
  qtail : Int := 0
  qcount : Nat := 0
  produced : Nat := 0
  consumed : Nat := 0
  sumPushed : Int := 0
  sumPopped : Int := 0

/-- An `int` can hold it. -/
def IsInt (x : Int) : Prop := -2147483648 ≤ x ∧ x ≤ 2147483647

instance (x : Int) : Decidable (IsInt x) := inferInstanceAs (Decidable (_ ∧ _))

def Vars.push (v : Vars) (c : Setup) (item : Int) : Vars :=
  { v with
    q := Function.update v.q v.qhead item
    qhead := (v.qhead + 1) % c.qSize
    qcount := v.qcount + 1
    produced := v.produced + 1
    sumPushed := v.sumPushed + item }

def Vars.pop (v : Vars) (c : Setup) : Vars :=
  { v with
    qtail := (v.qtail + 1) % c.qSize
    qcount := v.qcount - 1
    consumed := v.consumed + 1
    sumPopped := v.sumPopped + v.q v.qtail }

/-- No `int` overflows when `item` is pushed. -/
def Vars.CanPush (v : Vars) (item : Int) : Prop :=
  IsInt item ∧ IsInt (v.qhead + 1) ∧ IsInt (v.qcount + 1) ∧ IsInt (v.produced + 1) ∧
    IsInt (v.sumPushed + item)

instance (v : Vars) (item : Int) : Decidable (v.CanPush item) :=
  inferInstanceAs (Decidable (_ ∧ _))

def Vars.CanPop (v : Vars) : Prop :=
  IsInt (v.qtail + 1) ∧ IsInt (v.consumed + 1) ∧ IsInt (v.sumPopped + v.q v.qtail)

instance (v : Vars) : Decidable v.CanPop := inferInstanceAs (Decidable (_ ∧ _))

/-- The statement a task is at. A task inside a call is at the statement after it. -/
inductive Pc where
  | unborn
  | done
  -- A producer, with its `n`.
  | loop (n : Nat)
  | lock (n : Nat)
  | whileFull (n : Nat)
  | push (n : Nat)
  | signalNotempty (n : Nat)
  | unlock (n : Nat)
  -- A consumer.
  | enter
  | whileEmpty
  | pop
  | signalNotfull
  | leave
  | exit
  -- The main task.
  | create (k : Nat)
  | joinProducers (i : Nat)
  | lockAtEnd
  | broadcast
  | unlockAtEnd
  | joinConsumers (j : Nat)

inductive Action (c : Setup) where
  | goto (next : Pc)
  | start (child : Task c) (next : Pc)
  | join (next : Pc)
  | lock (next : Pc)
  | unlock (next : Pc)
  | wait (cv : Cond) (next : Pc)
  | signal (cv : Cond) (next : Pc)
  | broadcast (cv : Cond) (next : Pc)
  | push (item : Int) (next : Pc)
  | pop (next : Pc)

/-- The number of items the consumers wait for. -/
def Setup.target (c : Setup) : Nat := c.nProd * c.items

def producer (c : Setup) (id : Nat) (v : Vars) : Pc → Option (Action c)
  | .loop n => some (.goto (if n < c.items then .lock n else .done))
  | .lock n => some (.lock (.whileFull n))
  | .whileFull n =>
      if v.qcount = c.qSize then some (.wait .notfull (.whileFull n)) else some (.goto (.push n))
  | .push n => some (.push (id * 10000 + n) (.signalNotempty n))
  | .signalNotempty n => some (.signal .notempty (.unlock n))
  | .unlock n => some (.unlock (.loop (n + 1)))
  | _ => none

def consumer (c : Setup) (v : Vars) : Pc → Option (Action c)
  | .enter => some (.lock .whileEmpty)
  | .whileEmpty =>
      if v.qcount = 0 ∧ v.consumed < c.target then some (.wait .notempty .whileEmpty)
      else if v.qcount = 0 ∧ c.target ≤ v.consumed then some (.goto .exit)
      else some (.goto .pop)
  | .pop => some (.pop .signalNotfull)
  | .signalNotfull => some (.signal .notfull .leave)
  | .leave => some (.unlock .enter)
  | .exit => some (.unlock .done)
  | _ => none

/-- The threads in the order they are created and joined. -/
def thread (c : Setup) (k : Nat) : Option (Task c) :=
  if first : k < c.nProd then some (.producer ⟨k, first⟩)
  else if second : k - c.nProd < c.nCons then some (.consumer ⟨k - c.nProd, second⟩)
  else none

def main (c : Setup) (returned : Task c → Bool) : Pc → Option (Action c)
  | .create k =>
      match thread c k with
      | some child => some (.start child (.create (k + 1)))
      | none => some (.goto (.joinProducers 0))
  | .joinProducers i =>
      if inside : i < c.nProd then
        if returned (.producer ⟨i, inside⟩) then some (.join (.joinProducers (i + 1))) else none
      else some (.goto .lockAtEnd)
  | .lockAtEnd => some (.lock .broadcast)
  | .broadcast => some (.broadcast .notempty .unlockAtEnd)
  | .unlockAtEnd => some (.unlock (.joinConsumers 0))
  | .joinConsumers j =>
      if inside : j < c.nCons then
        if returned (.consumer ⟨j, inside⟩) then some (.join (.joinConsumers (j + 1))) else none
      else some (.goto .done)
  | _ => none

def Task.entry : Task c → Pc
  | .main => .create 0
  | .producer _ => .loop 0
  | .consumer _ => .enter

def Pc.isDone : Pc → Bool
  | .done => true
  | _ => false

structure State (c : Setup) where
  monitor : Monitor.State (Task c) Cond Unit
  vars : Vars
  pc : Task c → Pc
  /-- The signal bits that the main task can still allocate. -/
  signals : Nat
  /-- There are memory and a task for a thread when it is created. -/
  grants : Task c → Bool

def boot (c : Setup) (memory : Cond → Int → CondVar.Waiter (Task c)) (signals : Nat)
    (grants : Task c → Bool) : State c where
  monitor := Monitor.boot memory
  vars := {}
  pc := Function.update (fun _ => .unborn) .main (.create 0)
  signals := signals
  grants := grants

abbrev State.core (s : State c) : CondVar.State (Task c) Cond := s.monitor.core

def program (s : State c) : Task c → Option (Action c)
  | .main => main c (fun t => (s.pc t).isDone) (s.pc .main)
  | .producer i => producer c (i + 1) s.vars (s.pc (.producer i))
  | .consumer j => consumer c s.vars (s.pc (.consumer j))

def State.goto (s : State c) (t : Task c) (next : Pc) : State c :=
  { s with pc := Function.update s.pc t next }

@[simp] theorem goto_self (s : State c) (t : Task c) (next : Pc) :
    (s.goto t next).pc t = next := by
  rw [State.goto]
  exact Function.update_self ..

theorem goto_other (s : State c) {t u : Task c} (other : u ≠ t) (next : Pc) :
    (s.goto t next).pc u = s.pc u := by
  rw [State.goto]
  exact Function.update_of_ne other ..

def State.inner (s : State c) (monitor : Monitor.State (Task c) Cond Unit) : State c :=
  { s with monitor := monitor }

/-- A call of the monitor, after which the task is at `next`. -/
def State.call (exec : Exec (Task c)) (s : State c) (t : Task c)
    (e : Monitor.Event (Task c) Cond Unit) (next : Pc) : Option (State c) :=
  (Monitor.step exec s.monitor e).map fun monitor => (s.inner monitor).goto t next

def State.perform (exec : Exec (Task c)) (s : State c) (t : Task c) :
    Action c → Option (State c)
  | .goto next => some (s.goto t next)
  -- Nobody looks at what `osal_thread_create` returns.
  | .start child next =>
      if 0 < s.signals ∧ s.grants child = true then
        some (({ s with signals := s.signals - 1 }.goto child child.entry).goto t next)
      else some (s.goto t next)
  | .join next => some ({ s with signals := s.signals + 1 }.goto t next)
  | .lock next => s.call exec t (.lock t ()) next
  | .unlock next => s.call exec t (.unlock t ()) next
  | .wait cv next => s.call exec t (.wait t cv ()) next
  | .signal cv next => s.call exec t (.inside (.signal t cv)) next
  | .broadcast cv next => s.call exec t (.inside (.broadcast t cv)) next
  | .push item next =>
      if s.vars.CanPush item then some ({ s with vars := s.vars.push c item }.goto t next)
      else none
  | .pop next =>
      if s.vars.CanPop then some ({ s with vars := s.vars.pop c }.goto t next) else none

/-- The next step of a call that has begun; there is none outside of one or after a panic. -/
def resume (t : Task c) : CondVar.Pc (Task c) Cond → Option (CondVar.Event (Task c) Cond)
  | .idle | .panicked => none
  | .waitEnqueue _ | .timedEnqueue _ _ => some (.enqueue t)
  | .waitUnlock _ _ | .timedUnlock _ => some (.unlock t)
  | .waitSignal _ _ => some (.wake t)
  | .waitRelock | .timedRelock _ _ => some (.relock t)
  | .timedTest _ => some (.test t)
  | .timedPoll _ => some (.poll t)
  | .timedClear _ => some (.clear t)
  | .timedSleep _ => some (.sleep t)
  | .timedRemove _ => some (.remove t)
  | .signalSend _ | .broadcastSend _ _ => some (.send t)
  | .broadcastNext _ => some (.next t)

/-- Task `t` takes its next step, if it is not blocked. -/
def step (exec : Exec (Task c)) (s : State c) (t : Task c) : Option (State c) :=
  if Monitor.Pc.isIdle (s.core.pc t) then (program s t).bind (s.perform exec t)
  else (resume t (s.core.pc t)).bind fun e =>
    (Monitor.step exec s.monitor (.inside e)).map s.inner

def Steps (exec : Exec (Task c)) (s : State c) (t : Task c) (s' : State c) : Prop :=
  step exec s t = some s'

/-- What `main` returns. -/
def exitCode (s : State c) : Int :=
  if s.vars.produced = c.nProd * c.items ∧ s.vars.consumed = c.nProd * c.items ∧
    s.vars.sumPopped = s.vars.sumPushed then 0 else 20

/-! What a step can be. -/

/-- The statements: where a task of each kind stands and what it does there. -/
inductive Told (s : State c) : Task c → Pc → Action c → Prop where
  | again {i : Fin c.nProd} {n : Nat} (more : n < c.items) :
      Told s (.producer i) (.loop n) (.goto (.lock n))
  | runsOut {i : Fin c.nProd} {n : Nat} (all : c.items ≤ n) :
      Told s (.producer i) (.loop n) (.goto .done)
  | producerLocks {i : Fin c.nProd} {n : Nat} :
      Told s (.producer i) (.lock n) (.lock (.whileFull n))
  | full {i : Fin c.nProd} {n : Nat} (full : s.vars.qcount = c.qSize) :
      Told s (.producer i) (.whileFull n) (.wait .notfull (.whileFull n))
  | room {i : Fin c.nProd} {n : Nat} (room : s.vars.qcount ≠ c.qSize) :
      Told s (.producer i) (.whileFull n) (.goto (.push n))
  | pushes {i : Fin c.nProd} {n : Nat} :
      Told s (.producer i) (.push n)
        (.push ((i + 1 : Nat) * 10000 + n) (.signalNotempty n))
  | signalsNotempty {i : Fin c.nProd} {n : Nat} :
      Told s (.producer i) (.signalNotempty n) (.signal .notempty (.unlock n))
  | producerUnlocks {i : Fin c.nProd} {n : Nat} :
      Told s (.producer i) (.unlock n) (.unlock (.loop (n + 1)))
  | consumerLocks {j : Fin c.nCons} : Told s (.consumer j) .enter (.lock .whileEmpty)
  | empty {j : Fin c.nCons} (empty : s.vars.qcount = 0) (more : s.vars.consumed < c.target) :
      Told s (.consumer j) .whileEmpty (.wait .notempty .whileEmpty)
  | finished {j : Fin c.nCons} (empty : s.vars.qcount = 0) (all : c.target ≤ s.vars.consumed) :
      Told s (.consumer j) .whileEmpty (.goto .exit)
  | filled {j : Fin c.nCons} (some_ : 0 < s.vars.qcount) :
      Told s (.consumer j) .whileEmpty (.goto .pop)
  | pops {j : Fin c.nCons} : Told s (.consumer j) .pop (.pop .signalNotfull)
  | signalsNotfull {j : Fin c.nCons} :
      Told s (.consumer j) .signalNotfull (.signal .notfull .leave)
  | consumerUnlocks {j : Fin c.nCons} : Told s (.consumer j) .leave (.unlock .enter)
  | consumerExits {j : Fin c.nCons} : Told s (.consumer j) .exit (.unlock .done)
  | creates {k : Nat} {child : Task c} (next : thread c k = some child) :
      Told s .main (.create k) (.start child (.create (k + 1)))
  | created {k : Nat} (all : thread c k = none) :
      Told s .main (.create k) (.goto (.joinProducers 0))
  | joinsProducer {i : Nat} (inside : i < c.nProd)
      (returned : s.pc (.producer ⟨i, inside⟩) = .done) :
      Told s .main (.joinProducers i) (.join (.joinProducers (i + 1)))
  | joinedProducers {i : Nat} (all : c.nProd ≤ i) :
      Told s .main (.joinProducers i) (.goto .lockAtEnd)
  | mainLocks : Told s .main .lockAtEnd (.lock .broadcast)
  | broadcasts : Told s .main .broadcast (.broadcast .notempty .unlockAtEnd)
  | mainUnlocks : Told s .main .unlockAtEnd (.unlock (.joinConsumers 0))
  | joinsConsumer {j : Nat} (inside : j < c.nCons)
      (returned : s.pc (.consumer ⟨j, inside⟩) = .done) :
      Told s .main (.joinConsumers j) (.join (.joinConsumers (j + 1)))
  | joinedConsumers {j : Nat} (all : c.nCons ≤ j) :
      Told s .main (.joinConsumers j) (.goto .done)

theorem done_of {pc : Pc} (isDone : pc.isDone = true) : pc = .done := by
  cases pc <;> first | rfl | cases isDone

theorem told_producer {s : State c} {i : Fin c.nProd} {pc : Pc} {action : Action c}
    (told : producer c (i + 1) s.vars pc = some action) : Told s (.producer i) pc action := by
  cases pc with
  | loop n =>
      simp only [producer] at told
      cases told
      split
      · rename_i more
        exact .again more
      · rename_i all
        exact .runsOut (Nat.le_of_not_lt all)
  | whileFull n =>
      simp only [producer] at told
      split at told
      · rename_i full
        cases told
        exact .full full
      · rename_i room
        cases told
        exact .room room
  | lock n => cases told; exact .producerLocks
  | push n => cases told; exact .pushes
  | signalNotempty n => cases told; exact .signalsNotempty
  | unlock n => cases told; exact .producerUnlocks
  | _ => cases told

theorem told_consumer {s : State c} {j : Fin c.nCons} {pc : Pc} {action : Action c}
    (told : consumer c s.vars pc = some action) : Told s (.consumer j) pc action := by
  cases pc with
  | whileEmpty =>
      simp only [consumer] at told
      split_ifs at told with waits exits
      · cases told
        exact .empty waits.1 waits.2
      · cases told
        exact .finished exits.1 exits.2
      · cases told
        exact .filled (by omega)
  | enter => cases told; exact .consumerLocks
  | pop => cases told; exact .pops
  | signalNotfull => cases told; exact .signalsNotfull
  | leave => cases told; exact .consumerUnlocks
  | exit => cases told; exact .consumerExits
  | _ => cases told

theorem told_main {s : State c} {pc : Pc} {action : Action c}
    (told : main c (fun t => (s.pc t).isDone) pc = some action) : Told s .main pc action := by
  cases pc with
  | create k =>
      simp only [main] at told
      split at told
      · rename_i child next
        cases told
        exact .creates next
      · rename_i all
        cases told
        exact .created all
  | joinProducers i =>
      simp only [main] at told
      split_ifs at told with inside returned
      · cases told
        exact .joinsProducer inside (done_of returned)
      · cases told
        exact .joinedProducers (Nat.le_of_not_lt inside)
  | joinConsumers j =>
      simp only [main] at told
      split_ifs at told with inside returned
      · cases told
        exact .joinsConsumer inside (done_of returned)
      · cases told
        exact .joinedConsumers (Nat.le_of_not_lt inside)
  | lockAtEnd => cases told; exact .mainLocks
  | broadcast => cases told; exact .broadcasts
  | unlockAtEnd => cases told; exact .mainUnlocks
  | _ => cases told

theorem told_of_program {s : State c} {t : Task c} {action : Action c}
    (told : program s t = some action) : Told s t (s.pc t) action := by
  cases t with
  | main => exact told_main told
  | producer i => exact told_producer told
  | consumer j => exact told_consumer told

theorem told_start {s : State c} {t : Task c} {pc : Pc} {child : Task c} {next : Pc}
    (told : Told s t pc (.start child next)) :
    t = .main ∧ ∃ k, pc = .create k ∧ thread c k = some child ∧ next = .create (k + 1) := by
  cases told with
  | creates next => exact ⟨rfl, _, rfl, next, rfl⟩

/-! The threads. -/

/-- The place of a thread in the order of creation. -/
def number : Task c → Nat
  | .main => 0
  | .producer i => i
  | .consumer j => c.nProd + j

/-- How many threads have been created. -/
def created (c : Setup) : Pc → Nat
  | .create k => k
  | _ => c.nProd + c.nCons

theorem thread_number {k : Nat} {child : Task c} (next : thread c k = some child) :
    child ≠ .main ∧ number child = k := by
  rw [thread] at next
  split_ifs at next with first second
  · cases next
    exact ⟨nofun, rfl⟩
  · cases next
    refine ⟨nofun, ?_⟩
    simp only [number]
    omega

theorem thread_of_number {child : Task c} (thread_ : child ≠ .main) :
    thread c (number child) = some child := by
  cases child with
  | main => exact absurd rfl thread_
  | producer i => simp [thread, number]
  | consumer j => simp [thread, number]

theorem number_lt {child : Task c} (thread_ : child ≠ .main) :
    number child < c.nProd + c.nCons := by
  cases child with
  | main => exact absurd rfl thread_
  | producer i => exact Nat.lt_add_right _ i.isLt
  | consumer j => exact Nat.add_lt_add_left j.isLt _

theorem thread_none {k : Nat} (all : thread c k = none) : c.nProd + c.nCons ≤ k := by
  rw [thread] at all
  split_ifs at all with first second
  omega

theorem thread_lt {k : Nat} {child : Task c} (next : thread c k = some child) :
    k < c.nProd + c.nCons := by
  obtain ⟨thread_, place⟩ := thread_number next
  exact place ▸ number_lt thread_

/-- Every thread can still be created. -/
structure Supplied (s : State c) : Prop where
  granted : ∀ t, s.grants t = true
  bits : c.nProd + c.nCons ≤ s.signals + created c (s.pc .main)

theorem Supplied.creates {s : State c} (supplied : Supplied s) {k : Nat} {child : Task c}
    (at_ : s.pc .main = .create k) (next : thread c k = some child) :
    0 < s.signals ∧ s.grants child = true := by
  refine ⟨?_, supplied.granted child⟩
  have bits := supplied.bits
  have below := thread_lt next
  rw [at_, created] at bits
  omega

/-- The steps where every thread can be created. -/
inductive Effect (exec : Exec (Task c)) (s : State c) (t : Task c) : State c → Prop where
  | resumed {e : CondVar.Event (Task c) Cond} {monitor : Monitor.State (Task c) Cond Unit}
      (busy : resume t (s.core.pc t) = some e)
      (taken : Monitor.step exec s.monitor (.inside e) = some monitor) :
      Effect exec s t (s.inner monitor)
  | went {pc next : Pc} (idle : s.core.pc t = .idle) (at_ : s.pc t = pc)
      (told : Told s t pc (.goto next)) :
      Effect exec s t (s.goto t next)
  | started {child : Task c} {pc next : Pc} (idle : s.core.pc t = .idle)
      (at_ : s.pc t = pc) (told : Told s t pc (.start child next)) :
      Effect exec s t (({ s with signals := s.signals - 1 }.goto child child.entry).goto t next)
  | joined {pc next : Pc} (idle : s.core.pc t = .idle) (at_ : s.pc t = pc)
      (told : Told s t pc (.join next)) :
      Effect exec s t ({ s with signals := s.signals + 1 }.goto t next)
  | pushed {item : Int} {pc next : Pc} (idle : s.core.pc t = .idle)
      (at_ : s.pc t = pc) (told : Told s t pc (.push item next)) :
      Effect exec s t ({ s with vars := s.vars.push c item }.goto t next)
  | popped {pc next : Pc} (idle : s.core.pc t = .idle) (at_ : s.pc t = pc)
      (told : Told s t pc (.pop next)) :
      Effect exec s t ({ s with vars := s.vars.pop c }.goto t next)
  | locked {pc next : Pc} {sem : SignalSemaphore (Task c)} (idle : s.core.pc t = .idle)
      (at_ : s.pc t = pc) (told : Told s t pc (.lock next))
      (obtained : osalMutexLock t (s.monitor.mutexes ()) = some sem) :
      Effect exec s t ((s.inner (s.monitor.setMutex () sem)).goto t next)
  | unlocked {pc next : Pc} (idle : s.core.pc t = .idle) (at_ : s.pc t = pc)
      (told : Told s t pc (.unlock next)) :
      Effect exec s t ((s.inner (s.monitor.setMutex ()
        (osalMutexUnlock exec t (s.monitor.mutexes ())))).goto t next)
  | waited {cv : Cond} {pc next : Pc} (idle : s.core.pc t = .idle) (at_ : s.pc t = pc)
      (told : Told s t pc (.wait cv next)) :
      Effect exec s t ((s.inner { s.monitor.setMtx t (some ()) with
        core := (s.core.setSingle t false).goto t (.waitEnqueue cv) }).goto t next)
  | signalled {cv : Cond} {pc next : Pc} (idle : s.core.pc t = .idle) (at_ : s.pc t = pc)
      (told : Told s t pc (.signal cv next)) (free : s.core.guarded cv = false)
      (some_ : 0 < (s.core.cvs cv).count) :
      Effect exec s t ((s.inner { s.monitor with
        core := (s.core.setCv cv (pop (s.core.cvs cv)).2).goto t
          (.signalSend (pop (s.core.cvs cv)).1) }).goto t next)
  | nobody {cv : Cond} {pc next : Pc} (idle : s.core.pc t = .idle) (at_ : s.pc t = pc)
      (told : Told s t pc (.signal cv next)) (none_ : ¬ 0 < (s.core.cvs cv).count) :
      Effect exec s t (s.goto t next)
  | broadcast {cv : Cond} {pc next : Pc} (idle : s.core.pc t = .idle) (at_ : s.pc t = pc)
      (told : Told s t pc (.broadcast cv next)) (free : s.core.guarded cv = false) :
      Effect exec s t ((s.inner { s.monitor with
        core := { s.core with guarded := Function.update s.core.guarded cv true }.goto t
          (.broadcastNext cv) }).goto t next)

theorem effect_of_step {exec : Exec (Task c)} {s s' : State c} {t : Task c}
    (supplied : Supplied s) (stepped : step exec s t = some s') : Effect exec s t s' := by
  rw [step] at stepped
  split at stepped
  · rename_i idle
    have idle := Monitor.idle_of idle
    obtain ⟨action, told, performed⟩ := Option.bind_eq_some_iff.mp stepped
    have told := told_of_program told
    cases action with
    | goto next =>
        cases performed
        exact .went idle rfl told
    | start child next =>
        obtain ⟨rfl, k, at_, following, -⟩ := told_start told
        rw [State.perform, if_pos (supplied.creates at_ following)] at performed
        cases performed
        exact .started idle rfl told
    | join next =>
        cases performed
        exact .joined idle rfl told
    | push item next =>
        simp only [State.perform] at performed
        split_ifs at performed
        cases performed
        exact .pushed idle rfl told
    | pop next =>
        simp only [State.perform] at performed
        split_ifs at performed
        cases performed
        exact .popped idle rfl told
    | lock next =>
        obtain ⟨monitor, taken, rfl⟩ := Option.map_eq_some_iff.mp performed
        cases Monitor.effect_of_step taken with
        | locked _ obtained => exact .locked idle rfl told obtained
    | unlock next =>
        obtain ⟨monitor, taken, rfl⟩ := Option.map_eq_some_iff.mp performed
        cases Monitor.effect_of_step taken with
        | unlocked _ => exact .unlocked idle rfl told
    | wait cv next =>
        obtain ⟨monitor, taken, rfl⟩ := Option.map_eq_some_iff.mp performed
        cases Monitor.effect_of_step taken with
        | waited inside =>
            cases CondVar.effect_of_step inside with
            | waited _ => exact .waited idle rfl told
    | signal cv next =>
        obtain ⟨monitor, taken, rfl⟩ := Option.map_eq_some_iff.mp performed
        cases Monitor.effect_of_step taken with
        | moved _ inside =>
            cases CondVar.effect_of_step inside with
            | signalled _ free some_ => exact .signalled idle rfl told free some_
            | nobody _ free none_ => exact .nobody idle rfl told none_
    | broadcast cv next =>
        obtain ⟨monitor, taken, rfl⟩ := Option.map_eq_some_iff.mp performed
        cases Monitor.effect_of_step taken with
        | moved _ inside =>
            cases CondVar.effect_of_step inside with
            | guardTaken _ free => exact .broadcast idle rfl told free
  · obtain ⟨e, busy, stepped⟩ := Option.bind_eq_some_iff.mp stepped
    obtain ⟨monitor, taken, rfl⟩ := Option.map_eq_some_iff.mp stepped
    exact .resumed busy taken

end Netstack.TestCv
