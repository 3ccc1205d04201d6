import Mathlib.Algebra.Order.BigOperators.Group.Finset
import Netstack.TestCvQueue

/-!
Every run of the test ends, and with `PASS`. A task is blocked only at the lock, at a join
or asleep on a ring; were all of them blocked, the one condition that nobody waits for in
vain and the other would contradict each other. And each step spends some of a budget that
the pushes and pops still to come provide.
-/

namespace Netstack.TestCv

open HypercallLocks Semaphore Transition WaiterRing

variable {c : Setup} {s s' : State c} {t : Task c} {exec : Exec (Task c)}
variable {pc : Pc} {action : Action c}

structure Inv (s : State c) : Prop where
  orderly : Orderly s
  counted : Counted s
  covered : ∀ cv, Covered s cv
  emptied : Emptied s
  supplied : Supplied s

theorem effect_inv (sized : c.Sized) (inv : Inv s) (effect : Effect exec s t s') : Inv s' :=
  ⟨effect_orderly sized inv.orderly effect, effect_counted inv.orderly inv.counted effect,
    fun cv => effect_covered sized.roomy inv.orderly inv.counted cv (inv.covered cv) effect,
    effect_emptied inv.orderly inv.counted inv.emptied effect,
    effect_supplied inv.supplied effect⟩

theorem boot_inv (sized : c.Sized) (memory : Cond → Int → CondVar.Waiter (Task c))
    {signals : Nat} {grants : Task c → Bool} (bits : c.nProd + c.nCons ≤ signals)
    (granted : ∀ t, grants t = true) : Inv (boot c memory signals grants) := by
  refine ⟨boot_orderly c memory signals grants, boot_counted sized.roomy memory signals grants,
    ?_, ?_, boot_supplied memory bits granted⟩
  · intro cv _ waits
    exact absurd (new_queue _) waits
  · intro _
    exact new_queue _

/-! The numbers stay within an `int`. -/

theorem pushes_le (within : Within c pc) : pushes c pc ≤ c.items := by
  cases pc <;> first | exact within | exact Nat.le_of_lt within | exact Nat.zero_le _ |
    exact Nat.le_refl _

theorem Counted.produced_le (counted : Counted s) : s.vars.produced ≤ c.target := by
  rw [counted.tally]
  have most : ∑ k, pushes c (s.pc (.producer k)) ≤ ∑ _k : Fin c.nProd, c.items :=
    Finset.sum_le_sum fun k _ => pushes_le (counted.within _)
  simpa [Setup.target] using most

-- As long as a producer has an item left, not all items have been pushed.
theorem Counted.unfinished (counted : Counted s) {i : Fin c.nProd}
    (left : pushes c (s.pc (.producer i)) < c.items) : s.vars.produced < c.target := by
  rw [counted.tally]
  have less : ∑ k, pushes c (s.pc (.producer k)) < ∑ _k : Fin c.nProd, c.items :=
    Finset.sum_lt_sum (fun k _ => pushes_le (counted.within _)) ⟨i, Finset.mem_univ i, left⟩
  simpa [Setup.target] using less

theorem Counted.push_left (counted : Counted s) {i : Fin c.nProd} {n : Nat}
    (at_ : s.pc (.producer i) = .push n) : s.vars.produced < c.target := by
  have within := counted.within (.producer i)
  rw [at_] at within
  exact counted.unfinished (i := i) (by rw [at_]; exact within)

theorem Counted.pop_left (counted : Counted s) {j : Fin c.nCons}
    (at_ : s.pc (.consumer j) = .pop) : s.vars.consumed < c.target := by
  have secured := counted.secured (.consumer j)
  rw [at_] at secured
  have some_ : 0 < s.vars.qcount := secured
  have flow := counted.sound.flow
  have most := counted.produced_le
  omega

theorem itemSum_mono (id : Nat) {m n : Nat} (le : m ≤ n) : itemSum id m ≤ itemSum id n :=
  monotone_nat_of_le_succ (fun _ => Nat.le_add_right ..) le

theorem itemSum_large (id n : Nat) : 10000 * n ≤ itemSum (id + 1) n := by
  induction n with
  | zero => exact Nat.zero_le _
  | succ n ih =>
      simp only [itemSum]
      omega

theorem target_le (c : Setup) : 10000 * c.target ≤ c.total := by
  have each : ∑ _i : Fin c.nProd, 10000 * c.items ≤ c.total :=
    Finset.sum_le_sum fun i _ => itemSum_large i c.items
  simp only [Finset.sum_const, Finset.card_univ, Fintype.card_fin, smul_eq_mul] at each
  rwa [Setup.target, Nat.mul_left_comm]

/-- The item of a producer is part of the sum of all items, beside those already pushed. -/
theorem Counted.push_sum (counted : Counted s) {i : Fin c.nProd} {n : Nat}
    (at_ : s.pc (.producer i) = .push n) :
    s.vars.sumPushed + ((i + 1) * 10000 + n : Nat) ≤ c.total := by
  have within := counted.within (.producer i)
  rw [at_] at within
  have mine : itemSum (i + 1) n + ((i + 1) * 10000 + n) ≤ itemSum (i + 1) c.items :=
    itemSum_mono (i + 1) (Nat.succ_le_of_lt within)
  have rest : ∑ k ∈ Finset.univ.erase i, itemSum (k + 1) (pushes c (s.pc (.producer k))) ≤
      ∑ k ∈ Finset.univ.erase i, itemSum (k + 1) c.items :=
    Finset.sum_le_sum fun k _ => itemSum_mono (k + 1) (pushes_le (counted.within _))
  have pushed : pushes c (s.pc (.producer i)) = n := by
    rw [at_]
    rfl
  have all : (∑ k : Fin c.nProd, itemSum (k + 1) (pushes c (s.pc (.producer k)))) +
      ((i + 1) * 10000 + n) ≤ c.total := by
    rw [Setup.total, ← Finset.add_sum_erase _ _ (Finset.mem_univ i),
      ← Finset.add_sum_erase Finset.univ (fun k : Fin c.nProd => itemSum (k + 1) c.items)
        (Finset.mem_univ i), pushed]
    omega
  rw [counted.sum]
  omega

theorem Counted.pushed_le (counted : Counted s) : s.vars.sumPushed ≤ c.total := by
  have all : ∑ k : Fin c.nProd, itemSum (k + 1) (pushes c (s.pc (.producer k))) ≤ c.total :=
    Finset.sum_le_sum fun k _ => itemSum_mono (k + 1) (pushes_le (counted.within _))
  rw [counted.sum]
  omega

theorem Vars.Sound.head_range {v : Vars} (sound : v.Sound c) :
    0 ≤ v.qhead ∧ v.qhead < c.qSize := by
  have positive : (0 : Int) < c.qSize := by
    have tail := sound.tail
    omega
  rw [sound.head]
  exact ⟨Int.emod_nonneg _ positive.ne', Int.emod_lt_of_pos _ positive⟩

theorem Counted.can_push (counted : Counted s) (sized : c.Sized) {i : Fin c.nProd} {n : Nat}
    (at_ : s.pc (.producer i) = .push n) :
    s.vars.CanPush ((i + 1 : Nat) * 10000 + n) := by
  have total := counted.push_sum at_
  have nonneg : 0 ≤ s.vars.sumPushed := by
    rw [counted.sum]
    exact Int.natCast_nonneg _
  have more := counted.push_left at_
  have most := target_le c
  have head := counted.sound.head_range
  have room : s.vars.qcount < c.qSize := by
    have secured := counted.secured (.producer i)
    rw [at_] at secured
    exact secured
  have queue := sized.queue
  have sums := sized.sums
  simp only [Vars.CanPush, IsInt]
  omega

theorem Counted.can_pop (counted : Counted s) (sized : c.Sized) {j : Fin c.nCons}
    (at_ : s.pc (.consumer j) = .pop) : s.vars.CanPop := by
  have some_ : 0 < s.vars.qcount := by
    have secured := counted.secured (.consumer j)
    rw [at_] at secured
    exact secured
  have item := counted.sound.pop_le some_
  have popped := counted.sound.popped
  have pushed := counted.pushed_le
  have more := counted.pop_left at_
  have most := target_le c
  have tail := counted.sound.tail
  have queue := sized.queue
  have sums := sized.sums
  simp only [Vars.CanPop, IsInt]
  omega

/-! Which steps are there. -/

/-- No task can take a step. -/
def Stuck (exec : Exec (Task c)) (s : State c) : Prop := ∀ t, step exec s t = none

theorem step_busy {e : CondVar.Event (Task c) Cond} (busy : resume t (s.core.pc t) = some e) :
    step exec s t = (Monitor.step exec s.monitor (.inside e)).map s.inner := by
  have active : Monitor.Pc.isIdle (s.core.pc t) = false := by
    cases at_ : s.core.pc t <;> first | rfl | (rw [at_] at busy; cases busy)
  rw [step, active, busy]
  rfl

theorem step_idle (idle : s.core.pc t = .idle) (told : program s t = some action) :
    step exec s t = s.perform exec t action := by
  rw [step, idle, told]
  rfl

theorem Stuck.moved (stuck : Stuck exec s) {e : CondVar.Event (Task c) Cond}
    (busy : resume t (s.core.pc t) = some e)
    (taken : (Monitor.step exec s.monitor (.inside e)).isSome = true) : False := by
  have none_ := stuck t
  rw [step_busy busy, Option.map_eq_none_iff] at none_
  rw [none_] at taken
  cases taken

theorem Stuck.unguarded (stuck : Stuck exec s) (orderly : Orderly s) (cv : Cond) :
    s.core.guarded cv = false := by
  rw [Bool.eq_false_iff]
  intro guarded
  have broadcasts := (orderly.guarded cv).mp guarded
  cases at_ : s.core.pc .main with
  | broadcastNext cv' =>
      have busy : resume .main (s.core.pc .main) = some (.next .main) := by rw [at_]; rfl
      refine stuck.moved busy ?_
      by_cases some_ : 0 < (s.core.cvs cv').count <;> simp [Monitor.step, CondVar.step, at_, some_]
  | broadcastSend cv' w =>
      have busy : resume .main (s.core.pc .main) = some (.send .main) := by rw [at_]; rfl
      refine stuck.moved busy ?_
      simp [Monitor.step, CondVar.step, at_]
  | _ =>
      rw [at_] at broadcasts
      cases broadcasts

/-- Inside a call a task is asleep or waits for the lock. -/
theorem Stuck.call (stuck : Stuck exec s) (orderly : Orderly s) (t : Task c) :
    s.core.pc t = .idle ∨
      (∃ cv stamp, s.core.pc t = .waitSignal cv stamp ∧ s.core.single t = false) ∨
      s.core.pc t = .waitRelock ∧ osalMutexLock t (s.monitor.mutexes ()) = none := by
  have fits := orderly.fits t
  cases at_ : s.core.pc t with
  | idle => exact .inl rfl
  | waitEnqueue cv =>
      have busy : resume t (s.core.pc t) = some (.enqueue t) := by rw [at_]; rfl
      refine absurd (stuck.moved busy ?_) id
      have free := stuck.unguarded orderly cv
      by_cases full : osalCvMaxWaiters ≤ (s.core.cvs cv).count <;>
        simp [Monitor.step, CondVar.step, CondVar.State.register, at_, free, full]
  | waitUnlock cv stamp =>
      have busy : resume t (s.core.pc t) = some (.unlock t) := by rw [at_]; rfl
      refine absurd (stuck.moved busy ?_) id
      have given : s.monitor.mtx t = some () := orderly.given t (by simp [at_, Monitor.stage])
      simp [Monitor.step, CondVar.step, at_, given]
  | waitSignal cv stamp =>
      refine .inr (.inl ⟨cv, stamp, rfl, ?_⟩)
      rw [Bool.eq_false_iff]
      intro bit
      have busy : resume t (s.core.pc t) = some (.wake t) := by rw [at_]; rfl
      refine stuck.moved busy ?_
      simp [Monitor.step, CondVar.step, at_, bit]
  | waitRelock =>
      refine .inr (.inr ⟨rfl, ?_⟩)
      by_contra obtained
      obtain ⟨sem, obtained⟩ := Option.ne_none_iff_exists'.mp obtained
      have busy : resume t (s.core.pc t) = some (.relock t) := by rw [at_]; rfl
      refine stuck.moved busy ?_
      have given : s.monitor.mtx t = some () := orderly.given t (by simp [at_, Monitor.stage])
      simp [Monitor.step, CondVar.step, at_, given, obtained]
  | signalSend w =>
      have busy : resume t (s.core.pc t) = some (.send t) := by rw [at_]; rfl
      refine absurd (stuck.moved busy ?_) id
      simp [Monitor.step, CondVar.step, at_]
  | broadcastNext cv =>
      have guarded := stuck.unguarded orderly cv
      have broadcasts : guards (s.core.pc t) = some cv := by rw [at_]; rfl
      obtain ⟨rfl, -⟩ := orderly.broadcaster broadcasts
      rw [(orderly.guarded cv).mpr broadcasts] at guarded
      cases guarded
  | broadcastSend cv w =>
      have guarded := stuck.unguarded orderly cv
      have broadcasts : guards (s.core.pc t) = some cv := by rw [at_]; rfl
      obtain ⟨rfl, -⟩ := orderly.broadcaster broadcasts
      rw [(orderly.guarded cv).mpr broadcasts] at guarded
      cases guarded
  | _ =>
      rw [at_] at fits
      cases fits

/-- Outside of a call a task has no statement left to run or waits for the lock. -/
theorem Stuck.statement (stuck : Stuck exec s) (sized : c.Sized) (inv : Inv s)
    (idle : s.core.pc t = .idle) :
    program s t = none ∨ ∃ next, program s t = some (.lock next) ∧
      osalMutexLock t (s.monitor.mutexes ()) = none := by
  have orderly := inv.orderly
  have isIdle : Monitor.Pc.isIdle (s.monitor.core.pc t) = true := by
    rw [idle]
    rfl
  cases told : program s t with
  | none => exact .inl rfl
  | some action =>
      have none_ := stuck t
      rw [step_idle idle told] at none_
      cases action with
      | lock next =>
          refine .inr ⟨next, rfl, ?_⟩
          simp only [State.perform, State.call, Option.map_eq_none_iff, Monitor.step, isIdle,
            if_true] at none_
          exact none_
      | goto next | join next => cases none_
      | start child next =>
          simp only [State.perform] at none_
          split_ifs at none_
      | push item next =>
          have told := told_of_program told
          generalize at_ : s.pc t = pc at told
          cases told with
          | pushes =>
              rw [State.perform, if_pos (inv.counted.can_push sized at_)] at none_
              cases none_
      | pop next =>
          have told := told_of_program told
          generalize at_ : s.pc t = pc at told
          cases told with
          | pops =>
              rw [State.perform, if_pos (inv.counted.can_pop sized at_)] at none_
              cases none_
      | unlock next =>
          simp [State.perform, State.call, Monitor.step, isIdle] at none_
      | wait cv next =>
          simp [State.perform, State.call, Monitor.step, CondVar.step, idle] at none_
      | signal cv next =>
          have free := stuck.unguarded orderly cv
          by_cases some_ : 0 < (s.core.cvs cv).count <;>
            simp [State.perform, State.call, Monitor.step, CondVar.step, idle, free, some_] at none_
      | broadcast cv next =>
          have free := stuck.unguarded orderly cv
          simp [State.perform, State.call, Monitor.step, CondVar.step, idle, free] at none_

theorem owes_le (pc : Pc) : owes pc ≤ 1 := by
  cases pc <;> first | exact Nat.le_refl _ | exact Nat.zero_le _

/-- Where a task has no statement to run. -/
inductive Halted (s : State c) : Task c → Pc → Prop where
  | unborn {t : Task c} : Halted s t .unborn
  | done {t : Task c} : Halted s t .done
  | joinsProducer {i : Nat} (inside : i < c.nProd)
      (runs : s.pc (.producer ⟨i, inside⟩) ≠ .done) : Halted s .main (.joinProducers i)
  | joinsConsumer {j : Nat} (inside : j < c.nCons)
      (runs : s.pc (.consumer ⟨j, inside⟩) ≠ .done) : Halted s .main (.joinConsumers j)

theorem halted_producer {i : Fin c.nProd} (plays : Plays (.producer i) pc = true)
    (none_ : producer c (i + 1) s.vars pc = none) : Halted s (.producer i) pc := by
  cases pc with
  | unborn => exact .unborn
  | done => exact .done
  | whileFull n =>
      simp only [producer] at none_
      split at none_ <;> cases none_
  | loop | lock | push | signalNotempty | unlock => cases none_
  | _ => cases plays

theorem halted_consumer {j : Fin c.nCons} (plays : Plays (.consumer j) pc = true)
    (none_ : consumer c s.vars pc = none) : Halted s (.consumer j) pc := by
  cases pc with
  | unborn => exact .unborn
  | done => exact .done
  | whileEmpty =>
      simp only [consumer] at none_
      split_ifs at none_
  | enter | pop | signalNotfull | leave | exit => cases none_
  | _ => cases plays

theorem halted_main (plays : Plays (.main : Task c) pc = true)
    (none_ : main c (fun t => (s.pc t).isDone) pc = none) : Halted s .main pc := by
  cases pc with
  | done => exact .done
  | create k =>
      simp only [main] at none_
      split at none_ <;> cases none_
  | joinProducers i =>
      simp only [main] at none_
      split_ifs at none_ with inside returned
      refine .joinsProducer inside ?_
      intro done_
      exact returned (by rw [done_]; rfl)
  | joinConsumers j =>
      simp only [main] at none_
      split_ifs at none_ with inside returned
      refine .joinsConsumer inside ?_
      intro done_
      exact returned (by rw [done_]; rfl)
  | lockAtEnd | broadcast | unlockAtEnd => cases none_
  | _ => cases plays

theorem halted_of_none (plays : Plays t (s.pc t) = true) (none_ : program s t = none) :
    Halted s t (s.pc t) := by
  cases t with
  | main => exact halted_main plays none_
  | producer i => exact halted_producer plays none_
  | consumer j => exact halted_consumer plays none_

theorem Halted.unlocked (halted : Halted s t pc) : owes pc = 0 := by
  cases halted <;> rfl

theorem Halted.silent (halted : Halted s t pc) {cv : Cond} :
    ¬ (Announces cv pc ∨ Ready c cv pc) := by
  rintro (announces | ready)
  · cases halted <;> cases cv <;> cases announces
  · cases halted <;> cases cv <;> cases ready

/-- Nobody has the lock: its owner could go on. -/
theorem Stuck.unlocked (stuck : Stuck exec s) (sized : c.Sized) (inv : Inv s) (t : Task c) :
    nest (s.monitor.mutexes ()) t = 0 := by
  have orderly := inv.orderly
  by_contra holds
  have level := orderly.kept.level t ()
  have most := owes_le (s.pc t)
  have owned : owes (s.pc t) = 1 ∧ Monitor.lent s.monitor t () = 0 := by omega
  rcases stuck.call orderly t with idle | ⟨cv, stamp, at_, -⟩ | ⟨at_, -⟩
  · rcases stuck.statement sized inv idle with none_ | ⟨next, told, -⟩
    · have free := (halted_of_none (orderly.plays t) none_).unlocked
      omega
    · have balance := told_owes (told_of_program told)
      have twice := owes_le next
      simp only [Action.next, Action.unlocks, Action.locks] at balance
      omega
  · have given : s.monitor.mtx t = some () := orderly.given t (by simp [at_, Monitor.stage])
    have lent := owned.2
    rw [Monitor.lent, at_, if_pos ⟨rfl, given⟩] at lent
    cases lent
  · have given : s.monitor.mtx t = some () := orderly.given t (by simp [at_, Monitor.stage])
    have lent := owned.2
    rw [Monitor.lent, at_, if_pos ⟨rfl, given⟩] at lent
    cases lent

theorem Stuck.lockable (stuck : Stuck exec s) (sized : c.Sized) (inv : Inv s) (t : Task c) :
    osalMutexLock t (s.monitor.mutexes ()) ≠ none := by
  cases at_ : s.monitor.mutexes () with
  | free => exact Option.some_ne_none _
  | held owner more =>
      have unowned := stuck.unlocked sized inv owner
      rw [at_, nest, if_pos rfl] at unowned
      cases unowned

/-- A task that cannot go on has nothing left to do, or is asleep on a ring. -/
theorem Stuck.halted (stuck : Stuck exec s) (sized : c.Sized) (inv : Inv s) (t : Task c) :
    Halted s t (s.pc t) ∨ ∃ cv, (s.pc t).awaits = some cv ∧ OnRing s cv t := by
  have orderly := inv.orderly
  rcases stuck.call orderly t with idle | ⟨cv, stamp, at_, dark⟩ | ⟨-, blocked⟩
  · rcases stuck.statement sized inv idle with none_ | ⟨next, -, blocked⟩
    · exact .inl (halted_of_none (orderly.plays t) none_)
    · exact absurd blocked (stuck.lockable sized inv t)
  · obtain ⟨place, located, -⟩ := orderly.wakeups
    have fits := orderly.fits t
    rw [at_] at fits
    have unsent : ∀ sender, ∀ w ∈ s.core.sending sender, w.task ≠ t := by
      intro sender w sends
      rcases stuck.call orderly sender with idle | ⟨_, _, asleep, -⟩ | ⟨relocks, -⟩
      · rw [CondVar.State.sending, idle] at sends
        cases sends
      · rw [CondVar.State.sending, asleep] at sends
        cases sends
      · rw [CondVar.State.sending, relocks] at sends
        cases sends
    have placed := located.on_ring (by rw [at_]; rfl) dark unsent
    exact .inr ⟨cv, fits, _, (located.ring cv t stamp).mpr placed, rfl⟩
  · exact absurd blocked (stuck.lockable sized inv t)

/-- Nobody is asleep on what is there. -/
theorem Stuck.unstocked (stuck : Stuck exec s) (sized : c.Sized) (inv : Inv s) {cv : Cond}
    (waits : queue (s.core.cvs cv) ≠ []) : ¬ Stocked s.vars cv := by
  intro stocked
  obtain ⟨u, awake⟩ := inv.covered cv stocked waits
  rcases stuck.halted sized inv u with halted | ⟨cv', awaits, asleep⟩
  · exact halted.silent (awake.imp_right fun both => both.1)
  · rcases awake with announces | ⟨ready, off⟩
    · cases at_ : s.pc u <;> rw [at_] at awaits announces <;> cases awaits <;> cases cv <;>
        cases announces
    · have same : cv = cv' := by
        cases at_ : s.pc u <;> rw [at_] at awaits ready <;> cases awaits <;> cases cv <;>
          first | rfl | cases ready
      subst same
      exact off asleep

theorem Stuck.main (stuck : Stuck exec s) (sized : c.Sized) (inv : Inv s) :
    Halted s .main (s.pc .main) := by
  have orderly := inv.orderly
  rcases stuck.halted sized inv .main with halted | ⟨cv, awaits, -⟩
  · exact halted
  · have waits := waiter_of_awaits (orderly.plays .main) awaits
    cases cv <;> simp [waiters] at waits

/-- A thread that cannot go on has returned or is asleep. -/
theorem Stuck.thread (stuck : Stuck exec s) (sized : c.Sized) (inv : Inv s) (thread_ : t ≠ .main) :
    s.pc t = .done ∨ ∃ cv, (s.pc t).awaits = some cv ∧ OnRing s cv t := by
  have orderly := inv.orderly
  have halted := stuck.main sized inv
  have born := orderly.born t thread_
  have below := number_lt thread_
  rcases stuck.halted sized inv t with halts | asleep
  · refine .inl ?_
    generalize at_ : s.pc t = pc at halts born
    generalize leads : s.pc .main = first at halted born
    cases halts with
    | done => rfl
    | joinsProducer | joinsConsumer => exact absurd rfl thread_
    | unborn =>
        have late := born.mp rfl
        cases halted <;> exact absurd late (Nat.not_le.mpr below)
  · exact .inr asleep

theorem OnRing.waits {cv : Cond} (asleep : OnRing s cv t) : queue (s.core.cvs cv) ≠ [] := by
  obtain ⟨w, member, -⟩ := asleep
  exact List.ne_nil_of_mem member

theorem Stuck.producer (stuck : Stuck exec s) (sized : c.Sized) (inv : Inv s) (i : Fin c.nProd) :
    s.pc (.producer i) = .done ∨
      ∃ n, s.pc (.producer i) = .whileFull n ∧ queue (s.core.cvs .notfull) ≠ [] := by
  have orderly := inv.orderly
  refine (stuck.thread sized inv (t := .producer i) nofun).imp_right ?_
  rintro ⟨cv, awaits, asleep⟩
  have waits := waiter_of_awaits (orderly.plays (.producer i)) awaits
  cases cv with
  | notempty => simp [waiters] at waits
  | notfull =>
      cases at_ : s.pc (.producer i) with
      | whileFull n => exact ⟨n, rfl, asleep.waits⟩
      | _ =>
          rw [at_] at awaits
          cases awaits

theorem Stuck.consumer (stuck : Stuck exec s) (sized : c.Sized) (inv : Inv s) (j : Fin c.nCons) :
    s.pc (.consumer j) = .done ∨ queue (s.core.cvs .notempty) ≠ [] := by
  have orderly := inv.orderly
  refine (stuck.thread sized inv (t := .consumer j) nofun).imp_right ?_
  rintro ⟨cv, awaits, asleep⟩
  have waits := waiter_of_awaits (orderly.plays (.consumer j)) awaits
  cases cv with
  | notempty => exact asleep.waits
  | notfull => simp [waiters] at waits

theorem Stuck.produced (stuck : Stuck exec s) (sized : c.Sized) (inv : Inv s) (i : Fin c.nProd) :
    s.pc (.producer i) = .done := by
  rcases stuck.producer sized inv i with done_ | ⟨n, at_, crowded⟩
  · exact done_
  · exfalso
    have filled : s.vars.qcount ≠ 0 := stuck.unstocked sized inv crowded
    rcases stuck.consumer sized inv ⟨0, sized.served⟩ with done_ | starved
    · have all := inv.counted.exits _ (.inr done_)
      have within := inv.counted.within (.producer i)
      rw [at_] at within
      have less := inv.counted.unfinished (i := i) (by rw [at_]; exact within)
      have flow := inv.counted.sound.flow
      omega
    · have empty : ¬ 0 < s.vars.qcount := stuck.unstocked sized inv starved
      omega

/-- Where nothing can go on any more, the main task has returned. -/
theorem Stuck.done (stuck : Stuck exec s) (sized : c.Sized) (inv : Inv s) :
    s.pc .main = .done := by
  have halted := stuck.main sized inv
  have emptied := inv.emptied
  have plays := inv.orderly.plays .main
  generalize at_ : s.pc .main = pc at halted plays
  cases halted with
  | done => rfl
  | unborn => cases plays
  | joinsProducer inside runs => exact absurd (stuck.produced sized inv _) runs
  | @joinsConsumer j inside runs =>
      rcases stuck.consumer sized inv ⟨j, inside⟩ with returned | starved
      · exact absurd returned runs
      · exact absurd (emptied (.inr (.inl ⟨j, at_⟩))) starved

/-- The main task returns only when everything has been pushed and popped. -/
theorem Inv.passes (inv : Inv s) (sized : c.Sized) (done_ : s.pc .main = .done) :
    exitCode s = 0 ∧ ∀ t, s.pc t = .done := by
  have threads : ∀ u, u ≠ .main → s.pc u = .done := by
    intro u thread_
    refine inv.counted.joins u thread_ ?_
    rw [done_]
    exact number_lt thread_
  have produced := inv.counted.all_produced fun i => threads (.producer i) nofun
  have consumed := inv.counted.exits ⟨0, sized.served⟩ (.inr (threads (.consumer _) nofun))
  have flow := inv.counted.sound.flow
  have sums := inv.counted.sound.sums
  have empty : s.vars.qcount = 0 := by omega
  rw [empty] at sums flow
  refine ⟨?_, ?_⟩
  · rw [exitCode, if_pos]
    refine ⟨produced, flow.trans produced, ?_⟩
    simpa [Ring.contents] using sums
  · intro u
    by_cases leads : u = .main
    · rw [leads]
      exact done_
    · exact threads u leads

/-! The budget. -/

/-- What a task may spend until its next push, pop or sleep. -/
def allowance (c : Setup) : Pc → Nat
  | .unborn => 6
  | .done => 0
  | .loop _ => 5
  | .lock _ | .enter => 4
  | .whileFull _ | .whileEmpty => 3
  | .push _ | .pop | .exit => 2
  | .signalNotempty _ | .signalNotfull => 13
  | .unlock _ | .leave => 6
  | .create k => (c.nProd + c.nCons - k) + c.nProd + c.nCons + 232
  | .joinProducers i => (c.nProd - i) + c.nCons + 231
  | .lockAtEnd => c.nCons + 230
  | .broadcast => c.nCons + 229
  | .unlockAtEnd => c.nCons + 2
  | .joinConsumers j => (c.nCons - j) + 1

/-- The same inside a call, where `waiting` are on the ring of `g_notempty`. -/
def budget (c : Setup) (waiting : Nat) (pc : Pc) : CondVar.Pc (Task c) Cond → Nat
  | .idle => allowance c pc
  | .waitEnqueue _ => 2
  | .waitUnlock _ _ => 6
  | .waitSignal _ _ => 5
  | .waitRelock => 4
  | .signalSend _ => allowance c pc + 1
  | .broadcastNext _ => allowance c pc + 1 + 7 * waiting
  | .broadcastSend _ _ => allowance c pc + 2 + 7 * waiting
  | _ => 0

def onRing (s : State c) (cv : Cond) : Nat := (queue (s.core.cvs cv)).length

/-- Each push and each pop to come pays for a signal, and each free place on a ring for
the wakeup that freed it. -/
def funds (s : State c) : Nat :=
  12 * ((c.target - s.vars.produced) + (c.target - s.vars.consumed)) +
    ∑ t, budget c (onRing s .notempty) (s.pc t) (s.core.pc t) +
    5 * ((32 - onRing s .notempty) + (32 - onRing s .notfull))

theorem sum_move {f g : Task c → Nat} (t : Task c) (others : ∀ u, u ≠ t → f u ≤ g u) :
    (∑ u, f u) + g t ≤ (∑ u, g u) + f t := by
  rw [← Finset.add_sum_erase _ f (Finset.mem_univ t),
    ← Finset.add_sum_erase _ g (Finset.mem_univ t)]
  have rest : ∑ u ∈ Finset.univ.erase t, f u ≤ ∑ u ∈ Finset.univ.erase t, g u :=
    Finset.sum_le_sum fun u member => others u (Finset.ne_of_mem_erase member)
  omega

/-- It is enough to compare the budgets of the task that moves. -/
theorem funds_lt (others : ∀ u, u ≠ t →
      budget c (onRing s' .notempty) (s'.pc u) (s'.core.pc u) ≤
        budget c (onRing s .notempty) (s.pc u) (s.core.pc u))
    (mine : 12 * ((c.target - s'.vars.produced) + (c.target - s'.vars.consumed)) +
        budget c (onRing s' .notempty) (s'.pc t) (s'.core.pc t) +
        5 * ((32 - onRing s' .notempty) + (32 - onRing s' .notfull)) <
      12 * ((c.target - s.vars.produced) + (c.target - s.vars.consumed)) +
        budget c (onRing s .notempty) (s.pc t) (s.core.pc t) +
        5 * ((32 - onRing s .notempty) + (32 - onRing s .notfull))) :
    funds s' < funds s := by
  have moved := sum_move t others
  rw [funds, funds]
  omega

theorem budget_still {n m : Nat} {core : CondVar.Pc (Task c) Cond}
    (same : n = m ∨ guards core = none) : budget c n pc core = budget c m pc core := by
  rcases same with rfl | unguarded
  · rfl
  · cases core <;> first | rfl | cases unguarded

/-- The statements that only go on. -/
theorem told_allowance (told : Told s t pc action)
    (plain : (∃ next, action = .goto next) ∨ (∃ next, action = .lock next) ∨
      (∃ next, action = .unlock next) ∨ (∃ child next, action = .start child next) ∨
      (∃ next, action = .join next)) :
    allowance c action.next < allowance c pc := by
  cases told with
  | creates next =>
      have below := (thread_number next).2 ▸ number_lt (thread_number next).1
      simp only [Action.next, allowance]
      omega
  | created | joinsProducer | joinedProducers | joinsConsumer | joinedConsumers | mainLocks
  | mainUnlocks =>
      simp only [Action.next, allowance]
      omega
  | full | empty | pushes | pops | signalsNotempty | signalsNotfull | broadcasts =>
      rcases plain with ⟨_, same⟩ | ⟨_, same⟩ | ⟨_, same⟩ | ⟨_, _, same⟩ | ⟨_, same⟩ <;>
        cases same
  | _ =>
      simp only [Action.next, allowance]
      omega

theorem Orderly.unguarded (orderly : Orderly s) (free : s.core.guarded .notempty = false)
    (u : Task c) : guards (s.core.pc u) = none := by
  cases broadcasts : guards (s.core.pc u) with
  | none => rfl
  | some cv =>
      obtain ⟨rfl, rfl⟩ := orderly.broadcaster broadcasts
      rw [(orderly.guarded .notempty).mpr broadcasts] at free
      cases free

theorem onRing_set {cv : Cond} {ring : WaiterRing.OsalCv (CondVar.Waiter (Task c))}
    (set : s'.core.cvs = Function.update s.core.cvs cv ring) :
    onRing s' cv = (queue ring).length ∧
      ∀ other, other ≠ cv → onRing s' other = onRing s other := by
  refine ⟨?_, ?_⟩
  · rw [onRing, set, Function.update_self]
  · intro other apart
    rw [onRing, set, Function.update_of_ne apart, onRing]

/-- One more is on the ring, where there was room. -/
theorem enqueued_funds (orderly : Orderly s) {cv : Cond} {w : CondVar.Waiter (Task c)}
    (room : (s.core.cvs cv).count < 32)
    (set : s'.core.cvs = Function.update s.core.cvs cv (enqueue (s.core.cvs cv) w)) :
    (32 - onRing s' .notempty) + (32 - onRing s' .notfull) + 1 =
      (32 - onRing s .notempty) + (32 - onRing s .notfull) := by
  obtain ⟨here, there⟩ := onRing_set (s := s) set
  have range := (orderly.tidy cv).sound.count_range
  have grown : onRing s' cv = onRing s cv + 1 := by
    rw [here, enqueue_queue (orderly.tidy cv).sound room, List.length_append]
    rfl
  have below : onRing s cv < 32 := by
    rw [onRing, queue_length]
    omega
  cases cv with
  | notempty =>
      have same := there .notfull nofun
      omega
  | notfull =>
      have same := there .notempty nofun
      omega

theorem popped_funds (orderly : Orderly s) {cv : Cond} (some_ : 0 < (s.core.cvs cv).count)
    (set : s'.core.cvs = Function.update s.core.cvs cv (pop (s.core.cvs cv)).2) :
    onRing s cv = onRing s' cv + 1 ∧
      (32 - onRing s' .notempty) + (32 - onRing s' .notfull) ≤
        (32 - onRing s .notempty) + (32 - onRing s .notfull) + 1 := by
  obtain ⟨here, there⟩ := onRing_set (s := s) set
  have shrunk : onRing s cv = onRing s' cv + 1 := by
    rw [here, onRing, pop_queue (orderly.tidy cv).sound some_]
    rfl
  refine ⟨shrunk, ?_⟩
  cases cv with
  | notempty =>
      have same := there .notfull nofun
      omega
  | notfull =>
      have same := there .notempty nofun
      omega

theorem onRing_congr_cvs (same : s'.core.cvs = s.core.cvs) (cv : Cond) :
    onRing s' cv = onRing s cv := by
  rw [onRing, same, onRing]

/-- A step of a call that touches no ring. -/
theorem quiet_lowers (rings : s'.core.cvs = s.core.cvs) (vars : s'.vars = s.vars)
    (others : ∀ u, u ≠ t → s'.pc u = s.pc u ∧ s'.core.pc u = s.core.pc u)
    (less : budget c (onRing s .notempty) (s'.pc t) (s'.core.pc t) <
      budget c (onRing s .notempty) (s.pc t) (s.core.pc t)) : funds s' < funds s := by
  refine funds_lt ?_ ?_ (t := t)
  · intro u other
    rw [onRing_congr_cvs rings, (others u other).1, (others u other).2]
  · rw [onRing_congr_cvs rings, onRing_congr_cvs rings, vars]
    omega

theorem entering_lowers (orderly : Orderly s) {cv : Cond} {w : CondVar.Waiter (Task c)}
    {stamp : Nat} (at_ : s.core.pc t = .waitEnqueue cv) (free : s.core.guarded cv = false)
    (room : (s.core.cvs cv).count < 32)
    (set : s'.core.cvs = Function.update s.core.cvs cv (enqueue (s.core.cvs cv) w))
    (vars : s'.vars = s.vars)
    (others : ∀ u, u ≠ t → s'.pc u = s.pc u ∧ s'.core.pc u = s.core.pc u)
    (after : s'.core.pc t = .waitUnlock cv stamp) : funds s' < funds s := by
  have grown := enqueued_funds orderly room set
  refine funds_lt ?_ ?_ (t := t)
  · intro u other
    rw [(others u other).1, (others u other).2]
    refine (budget_still ?_).le
    cases cv with
    | notempty => exact .inr (orderly.unguarded free u)
    | notfull => exact .inl ((onRing_set set).2 .notempty nofun)
  · rw [vars, after, at_]
    simp only [budget]
    omega

theorem drawing_lowers (orderly : Orderly s) {cv : Cond} {w : CondVar.Waiter (Task c)}
    (at_ : s.core.pc t = .broadcastNext cv) (some_ : 0 < (s.core.cvs cv).count)
    (set : s'.core.cvs = Function.update s.core.cvs cv (pop (s.core.cvs cv)).2)
    (vars : s'.vars = s.vars) (statement : s'.pc t = s.pc t)
    (others : ∀ u, u ≠ t → s'.pc u = s.pc u ∧ s'.core.pc u = s.core.pc u)
    (after : s'.core.pc t = .broadcastSend cv w) : funds s' < funds s := by
  obtain ⟨shrunk, freed⟩ := popped_funds orderly some_ set
  have broadcasts : guards (s.core.pc t) = some cv := by rw [at_]; rfl
  obtain ⟨rfl, rfl⟩ := orderly.broadcaster broadcasts
  refine funds_lt ?_ ?_ (t := .main)
  · intro u other
    rw [(others u other).1, (others u other).2]
    refine (budget_still (.inr ?_)).le
    cases theirs : guards (s.core.pc u) with
    | none => rfl
    | some cv => exact absurd (orderly.broadcaster theirs).1 other
  · rw [vars, after, at_, statement]
    simp only [budget]
    omega

theorem resumed_lowers (orderly : Orderly s) (sized : c.Sized)
    {monitor : Monitor.State (Task c) Cond Unit} (resumed : Resumed exec s.monitor t monitor) :
    funds (s.inner monitor) < funds s := by
  have others : ∀ u, u ≠ t → (s.inner monitor).pc u = s.pc u ∧
      (s.inner monitor).core.pc u = s.core.pc u :=
    fun u other => ⟨rfl, (resumed_others resumed other).1⟩
  have fits := orderly.fits t
  cases resumed with
  | overflowed at_ full => exact absurd (orderly.room sized at_) (not_lt.mpr full)
  | enqueued at_ free room =>
      exact entering_lowers orderly at_ free room rfl rfl others (Function.update_self ..)
  | drawn at_ some_ =>
      exact drawing_lowers orderly at_ some_ rfl rfl rfl others (Function.update_self ..)
  | released at_ | woken at_ =>
      refine quiet_lowers rfl rfl others ?_
      rw [State.core, at_]
      simp [State.inner, CondVar.State.goto, budget]
  | returned at_ =>
      refine quiet_lowers rfl rfl others ?_
      rw [at_] at fits
      rw [State.core, at_]
      simp only [State.inner, CondVar.State.goto, Function.update_self, budget]
      cases statement : s.pc t <;> rw [statement] at fits <;>
        first | (cases fits; done) | exact Nat.lt_succ_self 3
  | drained at_ =>
      refine quiet_lowers rfl rfl others ?_
      rw [State.core, at_]
      simp only [State.inner, CondVar.State.goto, Function.update_self, budget]
      omega
  | @sent w at_ | @broadcastSent _ w at_ =>
      refine quiet_lowers (signal_rest s.core w).2.1 rfl others ?_
      rw [State.core, at_]
      simp [State.inner, CondVar.State.goto, budget]

theorem goto_others {u : Task c} (other : u ≠ t) {next : Pc} :
    (s.goto t next).pc u = s.pc u ∧ (s.goto t next).core.pc u = s.core.pc u :=
  ⟨goto_other s other next, rfl⟩

/-- A statement that touches neither a ring nor the queue. -/
theorem plain_lowers (idle : s.core.pc t = .idle) (told : Told s t pc action) (at_ : s.pc t = pc)
    (plain : (∃ next, action = .goto next) ∨ (∃ next, action = .lock next) ∨
      (∃ next, action = .unlock next) ∨ (∃ child next, action = .start child next) ∨
      (∃ next, action = .join next))
    (core : s'.core = s.core) (vars : s'.vars = s.vars) (next : s'.pc t = action.next)
    (others : ∀ u, u ≠ t → s'.pc u = s.pc u) : funds s' < funds s := by
  refine quiet_lowers (t := t) (by rw [core]) vars
    (fun u other => ⟨others u other, by rw [core]⟩) ?_
  rw [core, idle, next, at_]
  exact told_allowance told plain

theorem signal_lowers (orderly : Orderly s) {cv : Cond} {w : CondVar.Waiter (Task c)}
    (idle : s.core.pc t = .idle) (free : s.core.guarded cv = false)
    (some_ : 0 < (s.core.cvs cv).count)
    (set : s'.core.cvs = Function.update s.core.cvs cv (pop (s.core.cvs cv)).2)
    (vars : s'.vars = s.vars) (less : allowance c (s'.pc t) + 7 ≤ allowance c (s.pc t))
    (others : ∀ u, u ≠ t → s'.pc u = s.pc u ∧ s'.core.pc u = s.core.pc u)
    (after : s'.core.pc t = .signalSend w) : funds s' < funds s := by
  obtain ⟨-, freed⟩ := popped_funds orderly some_ set
  refine funds_lt ?_ ?_ (t := t)
  · intro u other
    rw [(others u other).1, (others u other).2]
    refine (budget_still ?_).le
    cases cv with
    | notempty => exact .inr (orderly.unguarded free u)
    | notfull => exact .inl ((onRing_set set).2 .notempty nofun)
  · rw [vars, after, idle]
    simp only [budget]
    omega

/-- The budget of a signal is what the push or the pop before it has paid. -/
theorem paid_lowers (core : s'.core = s.core) (idle : s.core.pc t = .idle)
    (others : ∀ u, u ≠ t → s'.pc u = s.pc u)
    (paid : (c.target - s'.vars.produced) + (c.target - s'.vars.consumed) + 1 =
      (c.target - s.vars.produced) + (c.target - s.vars.consumed))
    (more : allowance c (s'.pc t) < allowance c (s.pc t) + 12) : funds s' < funds s := by
  have rings : s'.core.cvs = s.core.cvs := by rw [core]
  refine funds_lt ?_ ?_ (t := t)
  · intro u other
    rw [onRing_congr_cvs rings, others u other, core]
  · rw [onRing_congr_cvs rings, onRing_congr_cvs rings, core, idle]
    simp only [budget]
    omega

theorem Orderly.onRing_le (orderly : Orderly s) (cv : Cond) : onRing s cv ≤ 32 := by
  have range := (orderly.tidy cv).sound.count_range
  rw [onRing, queue_length]
  omega

theorem started_lowers {k : Nat} {child : Task c} (idle : s.core.pc .main = .idle)
    (at_ : s.pc .main = .create k) (following : thread c k = some child)
    (unborn : s.pc child = .unborn) (asleep : s.core.pc child = .idle) :
    funds ((s.goto child child.entry).goto .main (.create (k + 1))) < funds s := by
  have thread_ := (thread_number following).1
  have first : funds (s.goto child child.entry) < funds s := by
    refine quiet_lowers rfl rfl (fun u other => goto_others other) ?_ (t := child)
    rw [goto_self, unborn]
    change budget c _ _ (s.core.pc child) < _
    rw [asleep]
    cases child with
    | main => exact absurd rfl thread_
    | producer | consumer => simp [budget, allowance, Task.entry]
  have begun : (s.goto child child.entry).pc .main = .create k := by
    rw [goto_other s (Ne.symm thread_), at_]
  refine Nat.lt_trans ?_ first
  exact plain_lowers (t := .main) idle (.creates following) begun
    (.inr (.inr (.inr (.inl ⟨child, _, rfl⟩)))) rfl rfl (goto_self ..)
    fun u other => goto_other _ other _

theorem effect_lowers (sized : c.Sized) (inv : Inv s) (effect : Effect exec s t s') :
    funds s' < funds s := by
  have orderly := inv.orderly
  cases effect with
  | resumed busy taken =>
      exact resumed_lowers orderly sized (resumed_of_step (orderly.fits t) busy taken)
  | went idle at_ told =>
      exact plain_lowers idle told at_ (.inl ⟨_, rfl⟩) rfl rfl (goto_self ..)
        fun u other => goto_other s other _
  | locked idle at_ told =>
      exact plain_lowers idle told at_ (.inr (.inl ⟨_, rfl⟩)) rfl rfl (goto_self ..)
        fun u other => goto_other s other _
  | unlocked idle at_ told =>
      exact plain_lowers idle told at_ (.inr (.inr (.inl ⟨_, rfl⟩))) rfl rfl (goto_self ..)
        fun u other => goto_other s other _
  | joined idle at_ told =>
      exact plain_lowers idle told at_ (.inr (.inr (.inr (.inr ⟨_, rfl⟩)))) rfl rfl
        (goto_self ..) fun u other => goto_other _ other _
  | @started child pc next idle at_ told =>
      obtain ⟨rfl, k, rfl, following, rfl⟩ := told_start told
      have unborn := orderly.unborn at_ following
      have fits := orderly.fits child
      rw [unborn] at fits
      have unused : Pc.unborn.awaits = none ∧ Pc.unborn.sends = false ∧
          Pc.unborn ≠ .unlockAtEnd := ⟨rfl, rfl, Pc.noConfusion⟩
      exact started_lowers idle at_ following unborn (idle_of_fits unused fits)
  | pushed idle at_ told =>
      refine paid_lowers (t := t) rfl idle (fun u other => goto_other _ other _) ?_ ?_
      · cases told with
        | @pushes i n =>
            have left_ := inv.counted.push_left at_
            simp only [State.goto, Vars.push]
            omega
      · cases told
        rw [at_, goto_self]
        exact Nat.lt_succ_self 13
  | popped idle at_ told =>
      refine paid_lowers (t := t) rfl idle (fun u other => goto_other _ other _) ?_ ?_
      · cases told with
        | @pops j =>
            have left_ := inv.counted.pop_left at_
            simp only [State.goto, Vars.pop]
            omega
      · cases told
        rw [at_, goto_self]
        exact Nat.lt_succ_self 13
  | @waited cv pc next idle at_ told =>
      refine quiet_lowers (t := t) rfl rfl ?_ ?_
      · intro u other
        exact ⟨goto_other _ other _, Function.update_of_ne other ..⟩
      · rw [idle, at_]
        simp only [State.core, State.inner, State.goto, CondVar.State.goto, Function.update_self,
          budget]
        cases told <;> exact Nat.lt_succ_self 2
  | @signalled cv pc next idle at_ told free some_ =>
      refine signal_lowers (t := t) orderly idle free some_ rfl rfl ?_ ?_ (Function.update_self ..)
      · rw [at_, goto_self]
        cases told <;> exact Nat.le_refl 13
      · intro u other
        exact ⟨goto_other _ other _, Function.update_of_ne other ..⟩
  | @nobody cv pc next idle at_ told none_ =>
      refine quiet_lowers (t := t) rfl rfl (fun u other => goto_others other) ?_
      rw [at_, goto_self]
      change budget c _ _ (s.core.pc t) < _
      rw [idle]
      cases told <;> simp [budget, allowance]
  | @broadcast cv pc next idle at_ told free =>
      refine quiet_lowers (t := t) rfl rfl ?_ ?_
      · intro u other
        exact ⟨goto_other _ other _, Function.update_of_ne other ..⟩
      · rw [idle, at_, goto_self]
        have most := orderly.onRing_le .notempty
        simp only [State.core, State.inner, State.goto, CondVar.State.goto, Function.update_self,
          budget]
        cases told
        simp only [allowance]
        omega

/-- The run lemma: the funds bound how many steps there are. -/
theorem run_bounded {history : List (Move (State c) (Task c))} {now : State c}
    (sized : c.Sized) {start : State c} (base : Inv start)
    (trace : Trace (Steps exec) start history now) :
    Inv now ∧ history.length + funds now ≤ funds start := by
  have kept : ∀ before t after, Inv before → Steps exec before t after → Inv after :=
    fun _ _ _ inv taken => effect_inv sized inv (effect_of_step inv.supplied taken)
  have lowers : ∀ before t after, Inv before → Steps exec before t after →
      funds after < funds before :=
    fun _ _ _ inv taken => effect_lowers sized inv (effect_of_step inv.supplied taken)
  exact ⟨trace_invariant Inv base kept trace, trace_ranked Inv funds base kept lowers trace⟩

theorem threads_card (c : Setup) :
    (Finset.univ.erase (.main : Task c)).card ≤ c.nProd + c.nCons := by
  have inside := Finset.card_le_card_of_injOn (s := Finset.univ.erase (.main : Task c))
    (t := Finset.range (c.nProd + c.nCons)) number ?_ ?_
  · rwa [Finset.card_range] at inside
  · intro u member
    exact Finset.mem_range.mpr (number_lt (Finset.ne_of_mem_erase member))
  · intro u first v second same
    have found := thread_of_number (Finset.ne_of_mem_erase first)
    rw [same, thread_of_number (Finset.ne_of_mem_erase second)] at found
    exact (Option.some.inj found).symm

theorem boot_funds (c : Setup) (memory : Cond → Int → CondVar.Waiter (Task c)) (signals : Nat)
    (grants : Task c → Bool) : funds (boot c memory signals grants) ≤
      24 * (c.nProd * c.items) + 8 * (c.nProd + c.nCons) + 552 := by
  have rings : ∀ cv, onRing (boot c memory signals grants) cv = 0 := fun cv => by
    rw [onRing, List.length_eq_zero_iff]
    exact new_queue _
  have threads : ∑ u ∈ Finset.univ.erase (.main : Task c),
      budget c 0 ((boot c memory signals grants).pc u) ((boot c memory signals grants).core.pc u) =
        (Finset.univ.erase (.main : Task c)).card * 6 := by
    rw [Finset.sum_eq_card_nsmul (b := 6)]
    · rfl
    · intro u member
      have statement : (boot c memory signals grants).pc u = .unborn := by
        simp [boot, Finset.ne_of_mem_erase member]
      rw [statement]
      rfl
  have first : (boot c memory signals grants).pc .main = .create 0 := by simp [boot]
  have leads : budget c 0 ((boot c memory signals grants).pc .main)
      ((boot c memory signals grants).core.pc .main) = allowance c (.create 0) := by
    rw [first]
    rfl
  have card := threads_card c
  rw [funds, rings, rings, ← Finset.add_sum_erase _ _ (Finset.mem_univ .main), threads, leads]
  simp only [allowance, boot, Setup.target]
  omega

/-- Where every thread can be created and no `int` overflows, `test_cv` passes under every
schedule: no run of it is longer than the bound, and one that cannot go on has ended with exit
code 0 and every thread returned. -/
theorem test_cv_passes (exec : Exec (Task c)) (sized : c.Sized)
    (memory : Cond → Int → CondVar.Waiter (Task c)) {signals : Nat} {grants : Task c → Bool}
    (bits : c.nProd + c.nCons ≤ signals) (granted : ∀ t, grants t = true)
    {history : List (Move (State c) (Task c))} {now : State c}
    (trace : Trace (Steps exec) (boot c memory signals grants) history now) :
    history.length ≤ 24 * (c.nProd * c.items) + 8 * (c.nProd + c.nCons) + 552 ∧
      ((∃ t next, Steps exec now t next) ∨ exitCode now = 0 ∧ ∀ t, now.pc t = .done) := by
  obtain ⟨inv, spent⟩ := run_bounded sized (boot_inv sized memory bits granted) trace
  have funds_ := boot_funds c memory signals grants
  refine ⟨by omega, ?_⟩
  by_cases stuck : Stuck exec now
  · exact .inr (inv.passes sized (stuck.done sized inv))
  · refine .inl ?_
    simp only [Stuck, not_forall] at stuck
    obtain ⟨t, some_⟩ := stuck
    obtain ⟨next, taken⟩ := Option.ne_none_iff_exists'.mp some_
    exact ⟨t, next, taken⟩

/-- One producer and one consumer with one item, on a queue of one place. -/
def oneEach : Setup := ⟨1, 1, 1, 1⟩

def theProducer : Task oneEach := .producer ⟨0, Nat.one_pos⟩

def theConsumer : Task oneEach := .consumer ⟨0, Nat.one_pos⟩

/-- The consumer finds the queue empty and waits, until the producer has pushed. -/
def consumerFirst : List (Task oneEach) :=
  List.replicate 2 .main ++ List.replicate 4 theConsumer ++ List.replicate 8 theProducer ++
    List.replicate 9 theConsumer ++ List.replicate 9 .main

def plain : Exec (Task oneEach) := ⟨1, Int.one_ne_zero, fun _ sem => sem⟩

def anyMemory : Cond → Int → CondVar.Waiter (Task oneEach) := fun _ _ => ⟨.main, 0, 0⟩

/-- Two signal bits are free and memory is enough. -/
def ready : State oneEach := boot oneEach anyMemory 2 fun _ => true

theorem consumer_first_passes :
    ∃ history now, Trace (Steps plain) ready history now ∧
      history.length = 32 ∧ exitCode now = 0 ∧ now.pc theConsumer = .done := by
  have ran : ((follow (step plain) [] ready consumerFirst).map fun out =>
      decide (out.1.length = 32 ∧ ∀ t, (step plain out.2 t).isNone = true)) = some true := by
    decide +kernel
  obtain ⟨⟨history, now⟩, followed, checks⟩ := Option.map_eq_some_iff.mp ran
  obtain ⟨length, stuck⟩ := of_decide_eq_true checks
  have trace : Trace (Steps plain) ready history now := follow_trace .nil followed
  have sized : oneEach.Sized :=
    ⟨by decide, by decide, by decide, by decide, by decide +kernel⟩
  refine ⟨history, now, trace, length, ?_⟩
  have passes := test_cv_passes plain sized anyMemory (by decide) (fun _ => rfl) trace
  rcases passes.2 with ⟨t, next, taken⟩ | ⟨code, returned⟩
  · have none_ := stuck t
    rw [show step plain now t = some next from taken] at none_
    cases none_
  · exact ⟨code, returned theConsumer⟩

end Netstack.TestCv
