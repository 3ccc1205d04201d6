import Mathlib.Algebra.BigOperators.Fin
import Netstack.TestCv

/-!
How the tasks of the test use the monitor: each holds `g_lock` exactly between its lock and
its unlock, except inside a wait, and a call that has begun is the one its statement makes.
Since every wait on a condition variable is by another thread, its ring never overflows.
-/

namespace Netstack.TestCv

open HypercallLocks Semaphore Transition WaiterRing

variable {c : Setup} {s s' : State c} {t : Task c}

def Plays : Task c → Pc → Bool
  | .main, .create _ | .main, .joinProducers _ | .main, .lockAtEnd | .main, .broadcast
  | .main, .unlockAtEnd | .main, .joinConsumers _ | .main, .done => true
  | .producer _, .unborn | .producer _, .loop _ | .producer _, .lock _ | .producer _, .whileFull _
  | .producer _, .push _ | .producer _, .signalNotempty _ | .producer _, .unlock _
  | .producer _, .done => true
  | .consumer _, .unborn | .consumer _, .enter | .consumer _, .whileEmpty | .consumer _, .pop
  | .consumer _, .signalNotfull | .consumer _, .leave | .consumer _, .exit
  | .consumer _, .done => true
  | _, _ => false

/-- How often a task at a statement has locked `g_lock` and not unlocked it. -/
def owes : Pc → Nat
  | .whileFull _ | .push _ | .signalNotempty _ | .unlock _ | .whileEmpty | .pop | .signalNotfull
  | .leave | .exit | .broadcast | .unlockAtEnd => 1
  | _ => 0

def Pc.awaits : Pc → Option Cond
  | .whileFull _ => some .notfull
  | .whileEmpty => some .notempty
  | _ => none

def Pc.sends : Pc → Bool
  | .unlock _ | .leave => true
  | _ => false

/-- The call in which a task at a statement can be. -/
def Fits (pc : Pc) : CondVar.Pc (Task c) Cond → Prop
  | .idle => True
  | .waitEnqueue cv | .waitUnlock cv _ | .waitSignal cv _ => pc.awaits = some cv
  | .waitRelock => pc.awaits.isSome = true
  | .signalSend _ => pc.sends = true
  | .broadcastNext cv | .broadcastSend cv _ => cv = .notempty ∧ pc = .unlockAtEnd
  | _ => False

def guards : CondVar.Pc (Task c) Cond → Option Cond
  | .broadcastNext cv | .broadcastSend cv _ => some cv
  | _ => none

def Action.next : Action c → Pc
  | .goto next | .start _ next | .join next | .lock next | .unlock next | .wait _ next
  | .signal _ next | .broadcast _ next | .push _ next | .pop next => next

def Action.locks : Action c → Nat
  | .lock _ => 1
  | _ => 0

def Action.unlocks : Action c → Nat
  | .unlock _ => 1
  | _ => 0

/-! The statements. -/

section Statements

variable {pc : Pc} {action : Action c}

theorem told_plays (told : Told s t pc action) : Plays t action.next = true := by
  cases told <;> rfl

theorem told_owes (told : Told s t pc action) :
    owes action.next + action.unlocks = owes pc + action.locks := by
  cases told <;> simp [owes, Action.next, Action.unlocks, Action.locks]

theorem told_wait {cv : Cond} {next : Pc} (told : Told s t pc (.wait cv next)) :
    next = pc ∧ pc.awaits = some cv := by
  cases told <;> exact ⟨rfl, rfl⟩

theorem told_signal {cv : Cond} {next : Pc} (told : Told s t pc (.signal cv next)) :
    next.sends = true := by
  cases told <;> rfl

theorem told_broadcast {cv : Cond} {next : Pc} (told : Told s t pc (.broadcast cv next)) :
    t = .main ∧ cv = .notempty ∧ next = .unlockAtEnd := by
  cases told
  exact ⟨rfl, rfl, rfl⟩

theorem told_alive (told : Told s t pc action) : pc ≠ .unborn ∧ action.next ≠ .unborn := by
  cases told <;> exact ⟨nofun, nofun⟩

-- A statement of the main task that creates no thread.
theorem told_created (told : Told s .main pc action)
    (same : ∀ child next, action ≠ .start child next) {u : Task c} (thread_ : u ≠ .main) :
    created c action.next ≤ number u ↔ created c pc ≤ number u := by
  cases told with
  | creates next => exact absurd rfl (same _ _)
  | @created k all =>
      have past := thread_none all
      have below := number_lt thread_
      simp only [Action.next, TestCv.created]
      omega
  | _ => rfl

theorem told_all_created (told : Told s .main pc action)
    (same : ∀ child next, action ≠ .start child next) :
    created c action.next = c.nProd + c.nCons := by
  cases told with
  | creates => exact absurd rfl (same _ _)
  | _ => rfl

end Statements

/-! The steps inside a call. -/

inductive Resumed (exec : Exec (Task c)) (m : Monitor.State (Task c) Cond Unit) (t : Task c) :
    Monitor.State (Task c) Cond Unit → Prop where
  | overflowed {cv : Cond} (at_ : m.core.pc t = .waitEnqueue cv)
      (full : 32 ≤ (m.core.cvs cv).count) :
      Resumed exec m t { m with core := m.core.goto t .panicked }
  | enqueued {cv : Cond} (at_ : m.core.pc t = .waitEnqueue cv)
      (free : m.core.guarded cv = false) (room : (m.core.cvs cv).count < 32) :
      Resumed exec m t { m with
        core := { m.core.setCv cv
            (enqueue (m.core.cvs cv) ⟨t, CondVar.sigfSingle, m.core.nextStamp⟩) with
          nextStamp := m.core.nextStamp + 1 }.goto t (.waitUnlock cv m.core.nextStamp) }
  | released {cv : Cond} {stamp : Nat} (at_ : m.core.pc t = .waitUnlock cv stamp) :
      Resumed exec m t { m.setMutex () (osalMutexUnlock exec t (m.mutexes ())) with
        core := m.core.goto t (.waitSignal cv stamp) }
  | woken {cv : Cond} {stamp : Nat} (at_ : m.core.pc t = .waitSignal cv stamp)
      (bit : m.core.single t = true) :
      Resumed exec m t { m with core := (m.core.setSingle t false).goto t .waitRelock }
  | returned {sem : SignalSemaphore (Task c)} (at_ : m.core.pc t = .waitRelock)
      (obtained : osalMutexLock t (m.mutexes ()) = some sem) :
      Resumed exec m t { (m.setMutex () sem).setMtx t none with core := m.core.goto t .idle }
  | sent {w : CondVar.Waiter (Task c)} (at_ : m.core.pc t = .signalSend w) :
      Resumed exec m t { m with core := (m.core.signal w).goto t .idle }
  | drawn {cv : Cond} (at_ : m.core.pc t = .broadcastNext cv)
      (some_ : 0 < (m.core.cvs cv).count) :
      Resumed exec m t { m with
        core := (m.core.setCv cv (pop (m.core.cvs cv)).2).goto t
          (.broadcastSend cv (pop (m.core.cvs cv)).1) }
  | drained {cv : Cond} (at_ : m.core.pc t = .broadcastNext cv)
      (none_ : ¬ 0 < (m.core.cvs cv).count) :
      Resumed exec m t { m with
        core := { m.core with guarded := Function.update m.core.guarded cv false }.goto t .idle }
  | broadcastSent {cv : Cond} {w : CondVar.Waiter (Task c)}
      (at_ : m.core.pc t = .broadcastSend cv w) :
      Resumed exec m t { m with core := (m.core.signal w).goto t (.broadcastNext cv) }

theorem resumed_of_step {exec : Exec (Task c)} {m m' : Monitor.State (Task c) Cond Unit}
    {e : CondVar.Event (Task c) Cond} {pc : Pc} (fits : Fits pc (m.core.pc t))
    (busy : resume t (m.core.pc t) = some e)
    (taken : Monitor.step exec m (.inside e) = some m') : Resumed exec m t m' := by
  have effect := Monitor.effect_of_step taken
  cases at_ : m.core.pc t with
  | idle | panicked =>
      rw [at_] at busy
      cases busy
  | waitEnqueue cv =>
      rw [at_] at busy
      cases busy
      cases effect with
      | moved kind inside =>
          simp only [CondVar.step, at_, CondVar.State.register] at inside
          split_ifs at inside with guarded full
          · cases inside
            exact .overflowed at_ full
          · cases inside
            exact .enqueued at_ (by simpa using guarded) (not_le.mp full)
  | waitUnlock cv stamp =>
      rw [at_] at busy
      cases busy
      cases effect with
      | released arg inside =>
          simp only [CondVar.step, at_] at inside
          cases inside
          exact .released at_
      | moved kind inside => cases kind
  | waitSignal cv stamp =>
      rw [at_] at busy
      cases busy
      cases effect with
      | moved kind inside =>
          simp only [CondVar.step, at_] at inside
          split_ifs at inside with bit
          cases inside
          exact .woken at_ bit
  | waitRelock =>
      rw [at_] at busy
      cases busy
      cases effect with
      | returned arg obtained inside =>
          simp only [CondVar.step, at_] at inside
          cases inside
          exact .returned at_ obtained
      | moved kind inside => cases kind
  | signalSend w =>
      rw [at_] at busy
      cases busy
      cases effect with
      | moved kind inside =>
          simp only [CondVar.step, at_] at inside
          cases inside
          exact .sent at_
  | broadcastNext cv =>
      rw [at_] at busy
      cases busy
      cases effect with
      | moved kind inside =>
          simp only [CondVar.step, at_] at inside
          split_ifs at inside with some_
          · cases inside
            exact .drawn at_ some_
          · cases inside
            exact .drained at_ some_
  | broadcastSend cv w =>
      rw [at_] at busy
      cases busy
      cases effect with
      | moved kind inside =>
          simp only [CondVar.step, at_] at inside
          cases inside
          exact .broadcastSent at_
  | _ =>
      rw [at_] at fits
      cases fits

/-! Who holds the lock, and which calls are under way. -/

structure Orderly (s : State c) : Prop where
  plays : ∀ t, Plays t (s.pc t) = true
  fits : ∀ t, Fits (s.pc t) (s.core.pc t)
  kept : Monitor.Kept (fun t _ => owes (s.pc t)) s.monitor
  wakeups : CondVar.Wakeups s.core
  untimed : CondVar.Untimed s.core
  given : ∀ t, Monitor.stage (s.core.pc t) ≠ .outside → s.monitor.mtx t = some ()
  guarded : ∀ cv, s.core.guarded cv = true ↔ guards (s.core.pc .main) = some cv
  born : ∀ t, t ≠ .main → (s.pc t = .unborn ↔ created c (s.pc .main) ≤ number t)

theorem main_of_plays {pc : Pc} (plays : Plays t pc = true) (at_ : pc = .unlockAtEnd) :
    t = .main := by
  subst at_
  cases t <;> first | rfl | cases plays

theorem idle_of_fits {pc : Pc} (unused : pc.awaits = none ∧ pc.sends = false ∧ pc ≠ .unlockAtEnd)
    {core : CondVar.Pc (Task c) Cond} (fits : Fits pc core) : core = .idle := by
  cases core <;> simp_all [Fits]

/-- A task in a step of a broadcast is the main task. -/
theorem Orderly.broadcaster (orderly : Orderly s) {cv : Cond}
    (broadcasts : guards (s.core.pc t) = some cv) : t = .main ∧ cv = .notempty := by
  have fits := orderly.fits t
  cases at_ : s.core.pc t with
  | broadcastNext cv' | broadcastSend cv' w =>
      rw [at_] at fits broadcasts
      cases broadcasts
      exact ⟨main_of_plays (orderly.plays t) fits.2, fits.1⟩
  | _ =>
      rw [at_] at broadcasts
      cases broadcasts

theorem awaits_owes {pc : Pc} {cv : Cond} (awaits : pc.awaits = some cv) : owes pc = 1 := by
  cases pc <;> simp_all [Pc.awaits, owes]

/-- Outside of a call a task holds the lock as its statement has it. -/
theorem Orderly.held (orderly : Orderly s) (idle : s.core.pc t = .idle) :
    nest (s.monitor.mutexes ()) t = owes (s.pc t) :=
  orderly.kept.outside (by rw [← State.core, idle]; rfl) ()

/-! Only the task that moves changes its statement and its call. -/

theorem resumed_others {exec : Exec (Task c)} {m m' : Monitor.State (Task c) Cond Unit}
    (resumed : Resumed exec m t m') {u : Task c} (other : u ≠ t) :
    m'.core.pc u = m.core.pc u ∧ m'.mtx u = m.mtx u := by
  cases resumed with
  | returned at_ obtained =>
      exact ⟨Function.update_of_ne other .., Function.update_of_ne other ..⟩
  | sent | broadcastSent =>
      simp only [CondVar.State.goto, CondVar.signal_pc]
      exact ⟨Function.update_of_ne other .., trivial⟩
  | _ => exact ⟨Function.update_of_ne other .., rfl⟩

theorem forall_goto {P : Task c → Pc → Prop} (all : ∀ u, P u (s.pc u)) {next : Pc}
    (here : P t next) (u : Task c) : P u ((s.goto t next).pc u) := by
  by_cases mine : u = t
  · subst mine
    rw [goto_self]
    exact here
  · rw [goto_other s mine]
    exact all u

variable {exec : Exec (Task c)}

theorem entry_plays {child : Task c} (thread_ : child ≠ .main) :
    Plays child child.entry = true := by
  cases child with
  | main => exact absurd rfl thread_
  | producer | consumer => rfl

theorem entry_owes (child : Task c) : owes child.entry = 0 := by
  cases child <;> rfl

theorem effect_plays (orderly : Orderly s) (effect : Effect exec s t s') :
    ∀ u, Plays u (s'.pc u) = true := by
  have before := orderly.plays
  cases effect with
  | resumed => exact before
  | started idle at_ told =>
      obtain ⟨-, k, -, next, -⟩ := told_start told
      have first := forall_goto (P := fun u pc => Plays u pc = true) before
        (entry_plays (thread_number next).1)
      exact forall_goto (P := fun u pc => Plays u pc = true) first (told_plays told)
  | went idle at_ told | joined idle at_ told | pushed idle at_ told | popped idle at_ told
  | locked idle at_ told
  | unlocked idle at_ told | waited idle at_ told | signalled idle at_ told
  | nobody idle at_ told | broadcast idle at_ told =>
      exact forall_goto (P := fun u pc => Plays u pc = true) before (told_plays told)

-- The started thread was unborn, and now one more has been created.
theorem effect_born (orderly : Orderly s) (effect : Effect exec s t s') :
    ∀ u, u ≠ .main → (s'.pc u = .unborn ↔ created c (s'.pc .main) ≤ number u) := by
  have before := orderly.born
  have plain : ∀ {pc : Pc} {action : Action c}, s.pc t = pc → Told s t pc action →
      (∀ child next, action ≠ .start child next) → ∀ u, u ≠ .main →
      ((s.goto t action.next).pc u = .unborn ↔
        created c ((s.goto t action.next).pc .main) ≤ number u) := by
    intro pc action at_ told same u thread_
    obtain ⟨was, is⟩ := told_alive told
    by_cases leads : t = .main
    · subst leads
      rw [goto_self, goto_other s thread_, told_created told same thread_, ← at_]
      exact before u thread_
    · rw [goto_other s (Ne.symm leads)]
      by_cases mine : u = t
      · subst mine
        rw [goto_self, ← before u thread_, at_]
        exact iff_of_false is was
      · rw [goto_other s mine]
        exact before u thread_
  cases effect with
  | resumed => exact before
  | @started child pc next idle at_ told =>
      obtain ⟨rfl, k, rfl, following, rfl⟩ := told_start told
      obtain ⟨thread_, place⟩ := thread_number following
      intro u other
      rw [goto_self, goto_other _ other]
      have was := before u other
      rw [at_] at was
      simp only [created] at was ⊢
      by_cases mine : u = child
      · subst mine
        rw [goto_self, place]
        refine iff_of_false ?_ (Nat.not_succ_le_self k)
        cases u <;> rintro ⟨⟩
      · rw [goto_other _ mine]
        refine was.trans ?_
        have apart : number u ≠ k := by
          intro same
          have found := thread_of_number other
          rw [same, following] at found
          exact mine (Option.some.inj found).symm
        omega
  | went idle at_ told | joined idle at_ told | pushed idle at_ told | popped idle at_ told
  | locked idle at_ told
  | unlocked idle at_ told | waited idle at_ told | signalled idle at_ told
  | nobody idle at_ told | broadcast idle at_ told =>
      exact plain at_ told (by rintro _ _ ⟨⟩)

/-- A thread that is about to be created is not born yet. -/
theorem Orderly.unborn (orderly : Orderly s) {k : Nat} {child : Task c}
    (at_ : s.pc .main = .create k) (next : thread c k = some child) : s.pc child = .unborn := by
  obtain ⟨thread_, place⟩ := thread_number next
  rw [orderly.born child thread_, at_, place]
  exact Nat.le_refl k

theorem owes_same {next : Pc} (here : owes next = owes (s.pc t)) :
    (fun u (_ : Unit) => owes ((s.goto t next).pc u)) = fun u _ => owes (s.pc u) := by
  funext u _
  by_cases mine : u = t
  · subst mine
    rw [goto_self, here]
  · rw [goto_other s mine]

theorem owes_set {next : Pc} {depth : Nat} (here : owes next = depth) :
    (fun u (_ : Unit) => owes ((s.goto t next).pc u)) =
      Monitor.Depths.set (fun u _ => owes (s.pc u)) t () depth := by
  funext u m
  by_cases mine : u = t
  · subst mine
    rw [goto_self, here, Monitor.Depths.set, Function.update_self, Function.update_self]
  · rw [goto_other s mine, Monitor.set_apart u m (.inl mine)]

theorem owes_started (orderly : Orderly s) {k : Nat} {child : Task c}
    (at_ : s.pc .main = .create k) (following : thread c k = some child) :
    (fun u (_ : Unit) => owes ((({ s with signals := s.signals - 1 }.goto child
        child.entry).goto .main (.create (k + 1))).pc u)) =
      fun u _ => owes (s.pc u) := by
  rw [owes_same, owes_same]
  · refine (entry_owes child).trans ?_
    change 0 = owes (s.pc child)
    rw [orderly.unborn at_ following]
    rfl
  · rw [goto_other _ (Ne.symm (thread_number following).1)]
    change _ = owes (s.pc .main)
    rw [at_]
    rfl

theorem wait_effect (exec : Exec (Task c)) (idle : s.core.pc t = .idle) (cv : Cond) :
    Monitor.Effect exec s.monitor (.wait t cv ()) { s.monitor.setMtx t (some ()) with
      core := (s.core.setSingle t false).goto t (.waitEnqueue cv) } := by
  refine .waited ?_
  simp only [State.core] at idle ⊢
  simp only [CondVar.step, idle]

theorem signal_effect (exec : Exec (Task c)) (idle : s.core.pc t = .idle) {cv : Cond}
    (free : s.core.guarded cv = false) (some_ : 0 < (s.core.cvs cv).count) :
    Monitor.Effect exec s.monitor (.inside (.signal t cv)) { s.monitor with
      core := (s.core.setCv cv (pop (s.core.cvs cv)).2).goto t
        (.signalSend (pop (s.core.cvs cv)).1) } := by
  refine .moved rfl ?_
  simp only [State.core] at idle free some_ ⊢
  simp only [CondVar.step, idle, free, Bool.false_eq_true, if_false, some_, if_true]

theorem broadcast_effect (exec : Exec (Task c)) (idle : s.core.pc t = .idle) {cv : Cond}
    (free : s.core.guarded cv = false) :
    Monitor.Effect exec s.monitor (.inside (.broadcast t cv)) { s.monitor with
      core := { s.core with guarded := Function.update s.core.guarded cv true }.goto t
        (.broadcastNext cv) } := by
  refine .moved rfl ?_
  simp only [State.core] at idle free ⊢
  simp only [CondVar.step, idle, free, Bool.false_eq_true, if_false]

theorem effect_kept (orderly : Orderly s) (effect : Effect exec s t s') :
    Monitor.Kept (fun u _ => owes (s'.pc u)) s'.monitor := by
  have before := orderly.kept
  cases effect with
  | @resumed e monitor busy taken =>
      exact Monitor.effect_kept (e := .inside e) trivial before (Monitor.effect_of_step taken)
  | went idle at_ told | joined idle at_ told | pushed idle at_ told | popped idle at_ told
  | nobody idle at_ told =>
      have balance := told_owes told
      rw [← at_] at balance
      rw [← owes_same balance] at before
      exact before
  | started idle at_ told =>
      obtain ⟨rfl, k, rfl, following, rfl⟩ := told_start told
      rw [← owes_started orderly at_ following] at before
      exact before
  | @locked pc next sem idle at_ told obtained =>
      have balance : owes next = owes (s.pc t) + 1 := by
        rw [at_]
        exact told_owes told
      have moved : Monitor.Effect exec s.monitor (.lock t ()) (s.monitor.setMutex () sem) :=
        .locked idle obtained
      have after := Monitor.effect_kept (e := .lock t ()) trivial before moved
      simp only [Monitor.Depths.record] at after
      rw [← owes_set balance] at after
      exact after
  | @unlocked pc next idle at_ told =>
      have balance : owes next + 1 = owes (s.pc t) := by
        rw [at_]
        exact told_owes told
      have proper : Monitor.Proper s.monitor (.unlock t () : Monitor.Event (Task c) Cond Unit) := by
        rw [Monitor.Proper, orderly.held idle, ← balance]
        exact Nat.succ_pos _
      have moved : Monitor.Effect exec s.monitor (.unlock t ()) (s.monitor.setMutex ()
          (osalMutexUnlock exec t (s.monitor.mutexes ()))) := .unlocked idle
      have after := Monitor.effect_kept proper before moved
      simp only [Monitor.Depths.record] at after
      rw [← owes_set (Nat.eq_sub_of_add_eq balance)] at after
      exact after
  | @waited cv pc next idle at_ told =>
      obtain ⟨rfl, awaits⟩ := told_wait told
      have proper : Monitor.Proper s.monitor (.wait t cv ()) := by
        rw [Monitor.Proper, orderly.held idle, at_, awaits_owes awaits]
        exact Nat.one_pos
      have after := Monitor.effect_kept proper before (wait_effect exec idle cv)
      simp only [Monitor.Depths.record] at after
      rw [← owes_same (congrArg owes at_.symm)] at after
      exact after
  | @signalled cv pc next idle at_ told free some_ =>
      have balance := told_owes told
      rw [← at_] at balance
      have after := Monitor.effect_kept (e := .inside (.signal t cv)) trivial before
        (signal_effect exec idle free some_)
      simp only [Monitor.Depths.record] at after
      rw [← owes_same balance] at after
      exact after
  | @broadcast cv pc next idle at_ told free =>
      have balance := told_owes told
      rw [← at_] at balance
      have after := Monitor.effect_kept (e := .inside (.broadcast t cv)) trivial before
        (broadcast_effect exec idle free)
      simp only [Monitor.Depths.record] at after
      rw [← owes_same balance] at after
      exact after

/-- A step of a task is one of the monitor, or leaves it as it is. -/
theorem effect_monitor (effect : Effect exec s t s') :
    s'.monitor = s.monitor ∨
      ∃ e, e.untimed = true ∧ Monitor.Effect exec s.monitor e s'.monitor := by
  cases effect with
  | went | started | joined | pushed | popped | nobody => exact .inl rfl
  | resumed busy taken => exact .inr ⟨_, rfl, Monitor.effect_of_step taken⟩
  | locked idle at_ told obtained => exact .inr ⟨.lock t (), rfl, .locked idle obtained⟩
  | unlocked idle => exact .inr ⟨.unlock t (), rfl, .unlocked idle⟩
  | waited idle => exact .inr ⟨_, rfl, wait_effect exec idle _⟩
  | signalled idle at_ told free some_ => exact .inr ⟨_, rfl, signal_effect exec idle free some_⟩
  | broadcast idle at_ told free => exact .inr ⟨_, rfl, broadcast_effect exec idle free⟩

theorem effect_wakeups (orderly : Orderly s) (effect : Effect exec s t s') :
    CondVar.Wakeups s'.core ∧ CondVar.Untimed s'.core := by
  rcases effect_monitor effect with same | ⟨e, untimed, moved⟩
  · rw [State.core, same]
    exact ⟨orderly.wakeups, orderly.untimed⟩
  · exact Monitor.effect_wakeups_untimed orderly.wakeups orderly.untimed untimed moved

theorem effect_others (orderly : Orderly s) (effect : Effect exec s t s') {u : Task c}
    (other : u ≠ t) :
    s'.core.pc u = s.core.pc u ∧ s'.monitor.mtx u = s.monitor.mtx u := by
  cases effect with
  | resumed busy taken =>
      exact resumed_others (resumed_of_step (orderly.fits t) busy taken) other
  | went | started | joined | pushed | popped | nobody | locked | unlocked => exact ⟨rfl, rfl⟩
  | waited => exact ⟨Function.update_of_ne other .., Function.update_of_ne other ..⟩
  | signalled | broadcast => exact ⟨Function.update_of_ne other .., rfl⟩

theorem effect_given (orderly : Orderly s) (effect : Effect exec s t s') :
    ∀ u, Monitor.stage (s'.core.pc u) ≠ .outside → s'.monitor.mtx u = some () := by
  intro u inside
  by_cases mine : u = t
  · subst mine
    have before := orderly.given u
    cases effect with
    | went idle | started idle | joined idle | pushed idle | popped idle | nobody idle | locked idle
    | unlocked idle => exact before inside
    | waited idle => exact Function.update_self ..
    | signalled | broadcast =>
        refine absurd ?_ inside
        simp only [State.core, State.inner, State.goto, CondVar.State.goto, Function.update_self]
        rfl
    | resumed busy taken =>
        cases resumed_of_step (orderly.fits u) busy taken with
        | overflowed at_ | returned at_ | drained at_ | sent at_ | drawn at_ | broadcastSent at_ =>
            refine absurd ?_ inside
            simp only [State.core, State.inner, CondVar.State.goto, Function.update_self]
            rfl
        | enqueued at_ | released at_ | woken at_ =>
            refine before ?_
            rw [State.core, at_]
            simp [Monitor.stage]
  · obtain ⟨same, arg⟩ := effect_others orderly effect mine
    rw [same] at inside
    rw [arg]
    exact orderly.given u inside

theorem signal_rest (core : CondVar.State (Task c) Cond) (w : CondVar.Waiter (Task c)) :
    (core.signal w).guarded = core.guarded ∧ (core.signal w).cvs = core.cvs ∧
      (core.signal w).pc = core.pc := by
  rw [CondVar.State.signal]
  split
  · exact ⟨rfl, rfl, rfl⟩
  · exact ⟨rfl, rfl, rfl⟩

theorem guards_goto {core : CondVar.State (Task c) Cond} {pc : CondVar.Pc (Task c) Cond}
    (same : guards pc = guards (core.pc t)) :
    guards ((core.goto t pc).pc .main) = guards (core.pc .main) := by
  rw [CondVar.State.goto]
  by_cases mine : .main = t
  · subst mine
    simp only [Function.update_self]
    exact same
  · simp only [Function.update_of_ne mine]

theorem effect_guarded (orderly : Orderly s) (effect : Effect exec s t s') :
    ∀ cv, s'.core.guarded cv = true ↔ guards (s'.core.pc .main) = some cv := by
  have before := orderly.guarded
  cases effect with
  | went | started | joined | pushed | popped | nobody | locked | unlocked => exact before
  | waited idle | signalled idle =>
      intro cv
      refine (before cv).trans (Eq.congr_left (Eq.symm (guards_goto ?_)))
      exact (congrArg guards idle).symm
  | @broadcast cv pc next idle at_ told free =>
      obtain ⟨rfl, rfl, -⟩ := told_broadcast told
      intro other
      have unguarded := before other
      rw [idle] at unguarded
      simp only [State.core, State.inner, State.goto, CondVar.State.goto, Function.update_self,
        guards]
      cases other with
      | notempty => simp
      | notfull => simpa [State.core, guards] using unguarded
  | resumed busy taken =>
      cases resumed_of_step (orderly.fits t) busy taken with
      | overflowed at_ | enqueued at_ | released at_ | woken at_ | returned at_ | drawn at_ =>
          intro cv
          refine (before cv).trans (Eq.congr_left (Eq.symm (guards_goto ?_)))
          exact (congrArg guards at_).symm
      | sent at_ | broadcastSent at_ =>
          intro cv
          obtain ⟨same, -, pcs⟩ := signal_rest s.core _
          have still := before cv
          rw [← same, ← pcs] at still
          refine still.trans (Eq.congr_left (Eq.symm (guards_goto ?_)))
          rw [pcs]
          exact (congrArg guards at_).symm
      | @drained cv at_ none_ =>
          obtain ⟨rfl, rfl⟩ := orderly.broadcaster (congrArg guards at_)
          intro other
          have unguarded := before other
          rw [State.core, at_] at unguarded
          simp only [State.core, State.inner, CondVar.State.goto, Function.update_self, guards]
          cases other with
          | notempty => simp
          | notfull => simpa [State.core, guards] using unguarded

/-! The rings. -/

/-- The threads that wait on a condition variable. -/
def waiters (c : Setup) : Cond → Finset (Task c)
  | .notempty => Finset.univ.image .consumer
  | .notfull => Finset.univ.image .producer

/-- The sum of the first `n` items of a producer. -/
def itemSum (id : Nat) : Nat → Nat
  | 0 => 0
  | n + 1 => itemSum id n + (id * 10000 + n)

/-- The sum of all items. -/
def Setup.total (c : Setup) : Nat := ∑ i : Fin c.nProd, itemSum (i + 1) c.items

/-- The queue and all sums are within an `int`, and each thread fits on a ring. -/
structure Setup.Sized (c : Setup) : Prop where
  threads : c.nProd + c.nCons ≤ 32
  served : 0 < c.nCons
  roomy : 0 < c.qSize
  queue : c.qSize ≤ 2147483647
  sums : c.total ≤ 2147483647

example : testCv.Sized := ⟨by decide, by decide, by decide, by decide, by decide +kernel⟩

theorem waiters_card (sized : c.Sized) (cv : Cond) : (waiters c cv).card ≤ 32 := by
  cases cv with
  | notempty =>
      refine Finset.card_image_le.trans ?_
      rw [Finset.card_univ, Fintype.card_fin]
      exact Nat.le_trans (Nat.le_add_left ..) sized.threads
  | notfull =>
      refine Finset.card_image_le.trans ?_
      rw [Finset.card_univ, Fintype.card_fin]
      exact Nat.le_trans (Nat.le_add_right ..) sized.threads

theorem waiter_of_awaits {pc : Pc} {cv : Cond} (plays : Plays t pc = true)
    (awaits : pc.awaits = some cv) : t ∈ waiters c cv := by
  cases t with
  | main => cases pc <;> cases awaits <;> cases plays
  | producer i => cases pc <;> cases awaits <;> first | cases plays; done | simp [waiters]
  | consumer j => cases pc <;> cases awaits <;> first | cases plays; done | simp [waiters]

/-- An entry on a ring is of a thread whose wait is on it. -/
theorem Orderly.entry (orderly : Orderly s) {cv : Cond} {w : CondVar.Waiter (Task c)}
    (member : w ∈ queue (s.core.cvs cv)) :
    (s.pc w.task).awaits = some cv ∧ (s.core.pc w.task).registered = some (cv, w.stamp) := by
  obtain ⟨place, located, -⟩ := orderly.wakeups
  have known := located.known w.task
  rw [CondVar.Located.entry located member] at known
  have inside : (s.core.pc w.task).registered = some (cv, w.stamp) := known
  refine ⟨?_, inside⟩
  have fits := orderly.fits w.task
  rcases CondVar.waiting_cases (orderly.untimed w.task) inside with at_ | at_
  · rw [at_] at fits
    exact fits
  · rw [at_] at fits
    exact fits

/-- There is room on a ring for one who waits and is not on it yet. -/
theorem Orderly.room (orderly : Orderly s) (sized : c.Sized) {cv : Cond}
    (at_ : s.core.pc t = .waitEnqueue cv) : (s.core.cvs cv).count < 32 := by
  obtain ⟨place, located, -⟩ := orderly.wakeups
  have tidy := located.tidy cv
  have absent : t ∉ (queue (s.core.cvs cv)).map CondVar.Waiter.task := by
    intro member
    obtain ⟨w, inside, rfl⟩ := List.mem_map.mp member
    have known := (orderly.entry inside).2
    rw [at_] at known
    cases known
  have fits := orderly.fits t
  rw [at_] at fits
  have all : (t :: (queue (s.core.cvs cv)).map CondVar.Waiter.task).toFinset ⊆ waiters c cv := by
    intro u member
    rw [List.mem_toFinset, List.mem_cons] at member
    rcases member with rfl | member
    · exact waiter_of_awaits (orderly.plays u) fits
    · obtain ⟨w, inside, rfl⟩ := List.mem_map.mp member
      exact waiter_of_awaits (orderly.plays w.task) (orderly.entry inside).1
  have bound := (Finset.card_le_card all).trans (waiters_card sized cv)
  rw [List.toFinset_card_of_nodup (List.nodup_cons.mpr ⟨absent, tidy.nodup⟩), List.length_cons,
    List.length_map, queue_length] at bound
  have range := tidy.sound.count_range
  omega

theorem fits_idle {pc : Pc} {core : CondVar.Pc (Task c) Cond} (idle : core = .idle) :
    Fits pc core := by
  rw [idle]
  trivial

theorem resumed_fits (orderly : Orderly s) (sized : c.Sized)
    {monitor : Monitor.State (Task c) Cond Unit} (resumed : Resumed exec s.monitor t monitor) :
    Fits (s.pc t) (monitor.core.pc t) := by
  have before := orderly.fits t
  cases resumed with
  | overflowed at_ full => exact absurd (orderly.room sized at_) (not_lt.mpr full)
  | returned at_ obtained =>
      apply fits_idle
      exact Function.update_self ..
  | drained at_ none_ =>
      apply fits_idle
      exact Function.update_self ..
  | sent at_ =>
      apply fits_idle
      exact Function.update_self ..
  | enqueued at_ | released at_ | drawn at_ | broadcastSent at_ =>
      rw [State.core, at_] at before
      simp only [CondVar.State.goto, Function.update_self]
      exact before
  | woken at_ bit =>
      rw [State.core, at_] at before
      simp only [CondVar.State.goto, Function.update_self, Fits]
      exact Option.isSome_of_mem before

theorem effect_fits (orderly : Orderly s) (sized : c.Sized) (effect : Effect exec s t s') :
    ∀ u, Fits (s'.pc u) (s'.core.pc u) := by
  intro u
  have before := orderly.fits u
  by_cases mine : u = t
  · subst mine
    cases effect with
    | resumed busy taken =>
        exact resumed_fits orderly sized (resumed_of_step before busy taken)
    | went idle | started idle | joined idle | pushed idle | popped idle | nobody idle | locked idle
    | unlocked idle => exact fits_idle idle
    | waited idle at_ told =>
        obtain ⟨rfl, awaits⟩ := told_wait told
        simp only [State.core, State.inner, State.goto, CondVar.State.goto,
          Function.update_self, Fits]
        exact awaits
    | signalled idle at_ told =>
        simp only [State.core, State.inner, State.goto, CondVar.State.goto,
          Function.update_self, Fits]
        exact told_signal told
    | broadcast idle at_ told =>
        simp only [State.core, State.inner, State.goto, CondVar.State.goto,
          Function.update_self, Fits]
        exact (told_broadcast told).2
  · rw [(effect_others orderly effect mine).1]
    cases effect with
    | resumed => exact before
    | @started child pc next idle at_ told =>
        rw [goto_other _ mine]
        by_cases new : u = child
        · subst new
          obtain ⟨rfl, k, rfl, following, -⟩ := told_start told
          rw [orderly.unborn at_ following] at before
          have unused : Pc.unborn.awaits = none ∧ Pc.unborn.sends = false ∧
              Pc.unborn ≠ .unlockAtEnd := ⟨rfl, rfl, Pc.noConfusion⟩
          exact fits_idle (idle_of_fits unused before)
        · rw [goto_other _ new]
          exact before
    | _ =>
        rw [goto_other _ mine]
        exact before

theorem effect_orderly (sized : c.Sized) (orderly : Orderly s) (effect : Effect exec s t s') :
    Orderly s' :=
  ⟨effect_plays orderly effect, effect_fits orderly sized effect, effect_kept orderly effect,
    (effect_wakeups orderly effect).1, (effect_wakeups orderly effect).2,
    effect_given orderly effect, effect_guarded orderly effect, effect_born orderly effect⟩

theorem effect_supplied (supplied : Supplied s) (effect : Effect exec s t s') : Supplied s' := by
  have bits := supplied.bits
  have plain : ∀ {pc : Pc} {action : Action c}, Told s t pc action →
      (∀ child next, action ≠ .start child next) →
      c.nProd + c.nCons ≤ s.signals + created c ((s.goto t action.next).pc .main) := by
    intro pc action told same
    by_cases leads : t = .main
    · subst leads
      rw [goto_self, told_all_created told same]
      exact Nat.le_add_left ..
    · rw [goto_other s (Ne.symm leads)]
      exact bits
  cases effect with
  | resumed => exact ⟨supplied.granted, bits⟩
  | @started child pc next idle at_ told =>
      obtain ⟨rfl, k, rfl, following, rfl⟩ := told_start told
      have some_ := (supplied.creates at_ following).1
      refine ⟨supplied.granted, ?_⟩
      rw [at_, created] at bits
      rw [goto_self, created]
      simp only [State.goto]
      omega
  | joined idle at_ told =>
      refine ⟨supplied.granted, Nat.le_trans (plain told (by rintro _ _ ⟨⟩)) ?_⟩
      exact Nat.add_le_add_right (Nat.le_succ _) _
  | went idle at_ told | pushed idle at_ told | popped idle at_ told
  | locked idle at_ told | unlocked idle at_ told | waited idle at_ told
  | signalled idle at_ told | nobody idle at_ told | broadcast idle at_ told =>
      exact ⟨supplied.granted, plain told (by rintro _ _ ⟨⟩)⟩

theorem boot_supplied (memory : Cond → Int → CondVar.Waiter (Task c)) {signals : Nat}
    {grants : Task c → Bool} (bits : c.nProd + c.nCons ≤ signals)
    (granted : ∀ t, grants t = true) : Supplied (boot c memory signals grants) := by
  refine ⟨granted, ?_⟩
  have first : (boot c memory signals grants).pc .main = .create 0 := by simp [boot]
  rw [first]
  exact bits

theorem boot_orderly (c : Setup) (memory : Cond → Int → CondVar.Waiter (Task c)) (signals : Nat)
    (grants : Task c → Bool) : Orderly (boot c memory signals grants) := by
  have statement : ∀ u : Task c, u ≠ .main → (boot c memory signals grants).pc u = .unborn := by
    intro u thread_
    simp [boot, thread_]
  have first : (boot c memory signals grants).pc .main = .create 0 := by simp [boot]
  refine ⟨?_, fun _ => trivial, ?_, CondVar.boot_wakeups memory, fun _ => rfl, ?_, ?_, ?_⟩
  · intro u
    cases u with
    | main => rw [first]; rfl
    | producer i => rw [statement (.producer i) nofun]; rfl
    | consumer j => rw [statement (.consumer j) nofun]; rfl
  · have none_ : (fun (u : Task c) (_ : Unit) => owes ((boot c memory signals grants).pc u)) =
        fun _ _ => 0 := by
      funext u _
      by_cases leads : u = .main
      · rw [leads, first]
        rfl
      · rw [statement u leads]
        rfl
    rw [none_]
    exact Monitor.boot_kept memory
  · intro u inside
    exact absurd rfl inside
  · intro cv
    exact iff_of_false nofun nofun
  · intro u thread_
    rw [first, statement u thread_]
    exact iff_of_true rfl (Nat.zero_le _)

end Netstack.TestCv
