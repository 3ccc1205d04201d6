import Mathlib.Algebra.BigOperators.Fin
import Mathlib.Algebra.BigOperators.Group.List.Basic
import Mathlib.Algebra.Order.BigOperators.Group.List
import Mathlib.Data.Fintype.BigOperators
import Netstack.TestCvCalls

/-!
The queue of the test and who waits for it. What a task has tested under the lock stays
true while it holds the lock. No wakeup is lost: while the queue has an item and a consumer
is asleep on the ring, some consumer is awake or a producer is about to signal; and the
same of an empty queue and the producers.
-/

namespace Netstack.TestCv

open HypercallLocks Semaphore Transition WaiterRing

variable {c : Setup} {s s' : State c} {t : Task c} {exec : Exec (Task c)}
variable {pc : Pc} {action : Action c}

/-! The queue. -/

structure Vars.Sound (v : Vars) (c : Setup) : Prop where
  head : v.qhead = (v.qtail + v.qcount) % c.qSize
  tail : 0 ≤ v.qtail ∧ v.qtail < c.qSize
  room : v.qcount ≤ c.qSize
  flow : v.consumed + v.qcount = v.produced
  items : ∀ item ∈ Ring.contents c.qSize v.q v.qtail v.qcount, 0 ≤ item
  popped : 0 ≤ v.sumPopped
  sums : v.sumPopped + (Ring.contents c.qSize v.q v.qtail v.qcount).sum = v.sumPushed

theorem init_sound (roomy : 0 < c.qSize) : Vars.Sound {} c := by
  refine ⟨?_, ?_, Nat.zero_le _, rfl, ?_, Int.le_refl 0, rfl⟩
  · simp
  · simp only [le_refl, true_and]
    omega
  · rintro item ⟨⟩

theorem push_sound {v : Vars} (sound : v.Sound c) (room : v.qcount < c.qSize) {item : Int}
    (positive : 0 ≤ item) : (v.push c item).Sound c := by
  have fits : ((v.qcount : Nat) : Int) < c.qSize := by omega
  have pushed := Ring.contents_push v.q v.qtail fits item
  refine ⟨?_, sound.tail, room, ?_, ?_, sound.popped, ?_⟩
  · simp only [Vars.push, sound.head]
    rw [Int.emod_add_emod]
    push_cast
    congr 1
    omega
  · have flow := sound.flow
    simp only [Vars.push]
    omega
  · simp only [Vars.push, sound.head, pushed, List.forall_mem_append, List.forall_mem_singleton]
    exact ⟨sound.items, positive⟩
  · have sums := sound.sums
    simp only [Vars.push, sound.head, pushed, List.sum_append, List.sum_singleton]
    omega

theorem contents_some {v : Vars} (sound : v.Sound c) (some_ : 0 < v.qcount) :
    Ring.contents c.qSize v.q v.qtail v.qcount = v.q v.qtail ::
      Ring.contents c.qSize v.q ((v.qtail + 1) % c.qSize) (v.qcount - 1) := by
  obtain ⟨n, more⟩ : ∃ n, v.qcount = n + 1 := Nat.exists_eq_add_one.mpr some_
  have popped : Ring.contents c.qSize v.q v.qtail (n + 1) =
      v.q (v.qtail % c.qSize) :: Ring.contents c.qSize v.q ((v.qtail + 1) % c.qSize) n :=
    Ring.contents_pop ..
  have start : v.qtail % c.qSize = v.qtail := Int.emod_eq_of_lt sound.tail.1 sound.tail.2
  rw [more, popped, start, Nat.add_sub_cancel]

theorem pop_sound {v : Vars} (sound : v.Sound c) (some_ : 0 < v.qcount) : (v.pop c).Sound c := by
  have popped := contents_some sound some_
  have items := sound.items
  rw [popped, List.forall_mem_cons] at items
  have positive : (0 : Int) < c.qSize := by
    have tail := sound.tail
    omega
  refine ⟨?_, ⟨Int.emod_nonneg _ positive.ne', Int.emod_lt_of_pos _ positive⟩, ?_, ?_, items.2,
    Int.add_nonneg sound.popped items.1, ?_⟩
  · have head := sound.head
    simp only [Vars.pop, head, Int.emod_add_emod]
    congr 1
    omega
  · have room := sound.room
    simp only [Vars.pop]
    omega
  · have flow := sound.flow
    simp only [Vars.pop]
    omega
  · have sums := sound.sums
    rw [popped, List.sum_cons] at sums
    simp only [Vars.pop]
    omega

/-- What is popped is at most what has been pushed. -/
theorem Vars.Sound.pop_le {v : Vars} (sound : v.Sound c) (some_ : 0 < v.qcount) :
    0 ≤ v.q v.qtail ∧ v.sumPopped + v.q v.qtail ≤ v.sumPushed := by
  have popped := contents_some sound some_
  have items := sound.items
  have sums := sound.sums
  rw [popped] at items sums
  rw [List.forall_mem_cons] at items
  rw [List.sum_cons] at sums
  have rest := List.sum_nonneg items.2
  exact ⟨items.1, by omega⟩

/-! What one step does to all of this. -/

def Action.vars (action : Action c) (v : Vars) : Vars :=
  match action with
  | .push item _ => v.push c item
  | .pop _ => v.pop c
  | _ => v

/-- Task `t` does what its statement says. -/
structure Acted (s s' : State c) (t : Task c) (pc : Pc) (action : Action c) : Prop where
  idle : s.core.pc t = .idle
  at_ : s.pc t = pc
  told : Told s t pc action
  next : s'.pc t = action.next
  others : ∀ u, u ≠ t → s'.pc u = s.pc u ∨ s.pc u = .unborn ∧ u ≠ .main ∧ s'.pc u = u.entry
  vars : s'.vars = action.vars s.vars
  enters : Monitor.stage (s'.core.pc t) = .entering → ∃ cv, action = .wait cv action.next
  calls : ∀ cv, action = .broadcast cv action.next → s'.core.pc t ≠ .idle
  rings : ∀ cv, (∃ w, queue (s.core.cvs cv) = w :: queue (s'.core.cvs cv)) ∨
    s'.core.cvs cv = s.core.cvs cv ∧
      ∀ next, action = .signal cv next → queue (s.core.cvs cv) = []

theorem Orderly.tidy (orderly : Orderly s) (cv : Cond) : CondVar.Tidy (s.core.cvs cv) := by
  obtain ⟨place, located, -⟩ := orderly.wakeups
  exact located.tidy cv

theorem queue_nil {ring : WaiterRing.OsalCv (CondVar.Waiter (Task c))}
    (tidy : CondVar.Tidy ring) (none_ : ¬ 0 < ring.count) : queue ring = [] := by
  have range := tidy.sound.count_range
  rw [← List.length_eq_zero_iff, queue_length]
  omega

theorem popped_ring {cvs : Cond → WaiterRing.OsalCv (CondVar.Waiter (Task c))} {cv : Cond}
    (other : Cond) (tidy : CondVar.Tidy (cvs cv)) (some_ : 0 < (cvs cv).count) :
    (other = cv ∧ ∃ w, queue (cvs other) =
        w :: queue (Function.update cvs cv (pop (cvs cv)).2 other)) ∨
      other ≠ cv ∧ Function.update cvs cv (pop (cvs cv)).2 other = cvs other := by
  by_cases same : other = cv
  · subst same
    refine .inl ⟨rfl, (pop (cvs other)).1, ?_⟩
    rw [Function.update_self]
    exact pop_queue tidy.sound some_
  · exact .inr ⟨same, Function.update_of_ne same ..⟩

/-- A step goes on with a call or does what the statement says. -/
theorem effect_cases (orderly : Orderly s) (effect : Effect exec s t s') :
    (∃ monitor, Resumed exec s.monitor t monitor ∧ s' = s.inner monitor) ∨
      ∃ pc action, Acted s s' t pc action := by
  have still : ∀ {u : Task c} {next : Pc}, u ≠ t → (s.goto t next).pc u = s.pc u ∨
      s.pc u = .unborn ∧ u ≠ .main ∧ (s.goto t next).pc u = u.entry :=
    fun other => .inl (goto_other s other _)
  have out : s.core.pc t = .idle → Monitor.stage (s.core.pc t) ≠ .entering := by
    intro idle
    rw [idle]
    exact Monitor.Stage.noConfusion
  cases effect with
  | resumed busy taken =>
      exact .inl ⟨_, resumed_of_step (orderly.fits t) busy taken, rfl⟩
  | went idle at_ told | joined idle at_ told | pushed idle at_ told | popped idle at_ told
  | locked idle at_ told | unlocked idle at_ told =>
      exact .inr ⟨_, _, idle, at_, told, goto_self .., fun _ => still, rfl,
        fun inside => absurd inside (out idle), by rintro _ ⟨⟩,
        fun _ => .inr ⟨rfl, by rintro _ ⟨⟩⟩⟩
  | @started child pc next idle at_ told =>
      obtain ⟨rfl, k, rfl, following, -⟩ := told_start told
      refine .inr ⟨_, _, idle, at_, told, goto_self .., ?_, rfl,
        fun inside => absurd inside (out idle), by rintro _ ⟨⟩,
        fun _ => .inr ⟨rfl, by rintro _ ⟨⟩⟩⟩
      intro u other
      rw [goto_other _ other]
      by_cases new : u = child
      · subst new
        rw [goto_self]
        exact .inr ⟨orderly.unborn at_ following, other, rfl⟩
      · exact .inl (goto_other _ new _)
  | waited idle at_ told =>
      exact .inr ⟨_, _, idle, at_, told, goto_self .., fun _ => still, rfl, fun _ => ⟨_, rfl⟩,
        by rintro _ ⟨⟩, fun _ => .inr ⟨rfl, by rintro _ ⟨⟩⟩⟩
  | @nobody cv pc next idle at_ told none_ =>
      refine .inr ⟨_, _, idle, at_, told, goto_self .., fun _ => still, rfl,
        fun inside => absurd inside (out idle), by rintro _ ⟨⟩, ?_⟩
      intro other
      refine .inr ⟨rfl, ?_⟩
      rintro _ same
      cases same
      exact queue_nil (orderly.tidy cv) none_
  | @signalled cv pc next idle at_ told free some_ =>
      refine .inr ⟨_, _, idle, at_, told, goto_self .., fun _ => still, rfl, ?_,
        by rintro _ ⟨⟩, ?_⟩
      · intro inside
        simp [State.inner, State.goto, CondVar.State.goto, Monitor.stage] at inside
      · intro other
        rcases popped_ring other (orderly.tidy cv) some_ with
          ⟨-, popped⟩ | ⟨apart, same⟩
        · exact .inl popped
        · refine .inr ⟨same, ?_⟩
          rintro _ same
          cases same
          exact absurd rfl apart
  | broadcast idle at_ told =>
      refine .inr ⟨_, _, idle, at_, told, goto_self .., fun _ => still, rfl, ?_, ?_,
        fun _ => .inr ⟨rfl, by rintro _ ⟨⟩⟩⟩
      · intro inside
        simp [State.inner, State.goto, CondVar.State.goto, Monitor.stage] at inside
      · intro _ _
        simp [State.inner, State.goto, CondVar.State.goto]

/-- The rings in a step of a call: they stay, the task enters one, or one is popped. -/
theorem resumed_rings (orderly : Orderly s) {monitor : Monitor.State (Task c) Cond Unit}
    (resumed : Resumed exec s.monitor t monitor) (cv : Cond) :
    monitor.core.cvs cv = s.core.cvs cv ∨
      (s.core.pc t = .waitEnqueue cv ∧
        ∃ w, queue (monitor.core.cvs cv) = queue (s.core.cvs cv) ++ [w]) ∨
      ∃ w, queue (s.core.cvs cv) = w :: queue (monitor.core.cvs cv) := by
  cases resumed with
  | overflowed | released | woken | returned | drained => exact .inl rfl
  | @sent w at_ | @broadcastSent _ w at_ =>
      refine .inl ?_
      simp only [CondVar.State.goto]
      rw [(signal_rest s.core w).2.1]
  | @enqueued other at_ free room =>
      by_cases same : cv = other
      · subst same
        refine .inr (.inl ⟨at_, ⟨t, CondVar.sigfSingle, s.core.nextStamp⟩, ?_⟩)
        simp only [CondVar.State.goto, CondVar.State.setCv, Function.update_self]
        exact enqueue_queue (orderly.tidy cv).sound room _
      · exact .inl (Function.update_of_ne same ..)
  | @drawn other at_ some_ =>
      rcases popped_ring cv (orderly.tidy other) some_ with ⟨-, popped⟩ | ⟨-, same⟩
      · exact .inr (.inr popped)
      · exact .inl same

theorem resumed_enters {monitor : Monitor.State (Task c) Cond Unit}
    (resumed : Resumed exec s.monitor t monitor)
    (inside : Monitor.stage (monitor.core.pc t) = .entering) :
    Monitor.stage (s.core.pc t) = .entering := by
  cases resumed with
  | enqueued at_ =>
      rw [State.core, at_]
      rfl
  | _ => simp [CondVar.State.goto, Monitor.stage] at inside

/-! What is known of the queue under the lock. -/

def Secured (c : Setup) (v : Vars) (stage : Monitor.Stage) : Pc → Prop
  | .push _ => v.qcount < c.qSize
  | .pop => 0 < v.qcount
  | .whileFull _ => stage = .entering → v.qcount = c.qSize
  | .whileEmpty => stage = .entering → v.qcount = 0 ∧ v.consumed < c.target
  | _ => True

-- Whoever has something secured holds the lock, so no other task changes the queue.
theorem Orderly.secures (orderly : Orderly s) {v : Vars}
    (unsound : ¬ Secured c v (Monitor.stage (s.core.pc t)) (s.pc t)) :
    0 < nest (s.monitor.mutexes ()) t := by
  have fits := orderly.fits t
  cases at_ : s.pc t with
  | push n | pop =>
      rw [at_] at fits
      rw [orderly.held (idle_of_fits ⟨rfl, rfl, Pc.noConfusion⟩ fits), at_]
      exact Nat.one_pos
  | whileFull n | whileEmpty =>
      have entering : Monitor.stage (s.core.pc t) = .entering := by
        by_contra outside
        refine unsound ?_
        rw [at_]
        exact fun inside => absurd inside outside
      refine orderly.kept.holding t () entering (orderly.given t ?_)
      rw [entering]
      exact Monitor.Stage.noConfusion
  | _ =>
      rw [at_] at unsound
      exact absurd trivial unsound

theorem vars_cases (told : Told s t pc action) (v : Vars) :
    action.vars v = v ∨ owes pc = 1 := by
  cases told <;> first | exact .inl rfl | exact .inr rfl

theorem acted_secured (told : Told s t pc action) (room : s.vars.qcount ≤ c.qSize)
    {stage : Monitor.Stage} (enters : stage = .entering → ∃ cv, action = .wait cv action.next) :
    Secured c (action.vars s.vars) stage action.next := by
  cases told with
  | full full => exact fun _ => full
  | empty empty more => exact fun _ => ⟨empty, more⟩
  | room unfull => exact Nat.lt_of_le_of_ne room unfull
  | filled some_ => exact some_
  | producerLocks | consumerLocks =>
      intro inside
      obtain ⟨cv, same⟩ := enters inside
      cases same
  | _ => trivial

theorem effect_secured (orderly : Orderly s) (sound : s.vars.Sound c)
    (secured : ∀ u, Secured c s.vars (Monitor.stage (s.core.pc u)) (s.pc u))
    (effect : Effect exec s t s') :
    ∀ u, Secured c s'.vars (Monitor.stage (s'.core.pc u)) (s'.pc u) := by
  intro u
  by_cases mine : u = t
  · subst mine
    rcases effect_cases orderly effect with ⟨monitor, resumed, rfl⟩ | ⟨pc, action, acted⟩
    · have before := secured u
      change Secured c s.vars (Monitor.stage (monitor.core.pc u)) (s.pc u)
      cases at_ : s.pc u with
      | whileFull n | whileEmpty =>
          rw [at_] at before
          exact fun inside => before (resumed_enters resumed inside)
      | _ =>
          rw [at_] at before
          exact before
    · rw [acted.next, acted.vars]
      exact acted_secured acted.told sound.room acted.enters
  · have before := secured u
    rw [(effect_others orderly effect mine).1]
    rcases effect_cases orderly effect with ⟨monitor, resumed, rfl⟩ | ⟨pc, action, acted⟩
    · exact before
    · rcases acted.others u mine with same | ⟨-, -, same⟩
      · rw [same, acted.vars]
        rcases vars_cases acted.told s.vars with kept | holds
        · rw [kept]
          exact before
        · by_contra unsound
          have theirs := orderly.secures unsound
          have ours : 0 < nest (s.monitor.mutexes ()) t := by
            rw [orderly.held acted.idle, acted.at_, holds]
            exact Nat.one_pos
          rw [nest_exclusive ours mine] at theirs
          cases theirs
      · rw [same]
        cases u <;> trivial

/-! What the tasks have done. -/

/-- The items a producer has pushed. -/
def pushes (c : Setup) : Pc → Nat
  | .loop n | .lock n | .whileFull n | .push n => n
  | .signalNotempty n | .unlock n => n + 1
  | .done => c.items
  | _ => 0

def Within (c : Setup) : Pc → Prop
  | .loop n => n ≤ c.items
  | .lock n | .whileFull n | .push n | .signalNotempty n | .unlock n => n < c.items
  | _ => True

/-- The threads the main task has joined. -/
def joined (c : Setup) : Pc → Nat
  | .joinProducers i => i
  | .lockAtEnd | .broadcast | .unlockAtEnd => c.nProd
  | .joinConsumers j => c.nProd + j
  | .done => c.nProd + c.nCons
  | _ => 0

structure Counted (s : State c) : Prop where
  sound : s.vars.Sound c
  secured : ∀ t, Secured c s.vars (Monitor.stage (s.core.pc t)) (s.pc t)
  within : ∀ t, Within c (s.pc t)
  tally : s.vars.produced = ∑ i, pushes c (s.pc (.producer i))
  sum : s.vars.sumPushed =
    (∑ i : Fin c.nProd, itemSum (i + 1) (pushes c (s.pc (.producer i))) : Nat)
  exits : ∀ j, s.pc (.consumer j) = .exit ∨ s.pc (.consumer j) = .done →
    c.target ≤ s.vars.consumed
  joins : ∀ t, t ≠ .main → number t < joined c (s.pc .main) → s.pc t = .done

theorem effect_sound (counted : Counted s) (effect : Effect exec s t s') :
    s'.vars.Sound c := by
  have secured := counted.secured t
  cases effect with
  | @pushed item pc next idle at_ told =>
      cases told
      rw [at_] at secured
      exact push_sound counted.sound secured (by omega)
  | popped idle at_ told =>
      cases told
      rw [at_] at secured
      exact pop_sound counted.sound secured
  | _ => exact counted.sound

theorem told_within (told : Told s t pc action) (within : Within c pc) : Within c action.next := by
  cases told with
  | again more => exact more
  | producerUnlocks => exact within
  | _ => first | exact within | trivial

theorem effect_within (counted : Counted s) (orderly : Orderly s)
    (effect : Effect exec s t s') : ∀ u, Within c (s'.pc u) := by
  intro u
  have before := counted.within u
  rcases effect_cases orderly effect with ⟨monitor, resumed, rfl⟩ | ⟨pc, action, acted⟩
  · exact before
  · by_cases mine : u = t
    · subst mine
      rw [acted.at_] at before
      rw [acted.next]
      exact told_within acted.told before
    · rcases acted.others u mine with same | ⟨-, -, same⟩
      · rw [same]
        exact before
      · rw [same]
        cases u <;> first | trivial | exact Nat.zero_le _

/-- Both the number and the sum of the items grow with what the producer has pushed. -/
theorem told_pushes {i : Fin c.nProd} (told : Told s (.producer i) pc action)
    (within : Within c pc) (v : Vars) :
    (action.vars v).produced + pushes c pc = v.produced + pushes c action.next ∧
      (action.vars v).sumPushed + itemSum (i + 1) (pushes c pc) =
        v.sumPushed + itemSum (i + 1) (pushes c action.next) := by
  cases told with
  | again | producerLocks | full | room | signalsNotempty | producerUnlocks => exact ⟨rfl, rfl⟩
  | runsOut all =>
      have end_ : _ = c.items := Nat.le_antisymm within all
      exact ⟨congrArg _ end_, congrArg (fun n => v.sumPushed + (itemSum (i + 1) n : Nat)) end_⟩
  | pushes =>
      refine ⟨Nat.add_right_comm .., ?_⟩
      simp only [Action.vars, Vars.push, Action.next, TestCv.pushes, itemSum]
      push_cast
      omega

theorem told_produced (told : Told s t pc action) (other : ∀ i, t ≠ .producer i) (v : Vars) :
    (action.vars v).produced = v.produced ∧ (action.vars v).sumPushed = v.sumPushed := by
  cases told <;> first | exact ⟨rfl, rfl⟩ | exact absurd rfl (other _)

theorem acted_others (acted : Acted s s' t pc action) {i : Fin c.nProd}
    (other : .producer i ≠ t) :
    pushes c (s'.pc (.producer i)) = pushes c (s.pc (.producer i)) := by
  rcases acted.others _ other with same | ⟨was, -, same⟩
  · rw [same]
  · rw [was, same]
    rfl

/-- A sum over the producers changes as that of the task that moves. -/
theorem acted_sum (value : Fin c.nProd → Nat → Nat) {i : Fin c.nProd}
    (acted : Acted s s' (.producer i) pc action) :
    (∑ k, value k (pushes c (s'.pc (.producer k)))) + value i (pushes c pc) =
      (∑ k, value k (pushes c (s.pc (.producer k)))) + value i (pushes c action.next) := by
  rw [← Finset.add_sum_erase _ _ (Finset.mem_univ i),
    ← Finset.add_sum_erase Finset.univ (fun k => value k (pushes c (s.pc (.producer k))))
      (Finset.mem_univ i)]
  have rest : ∑ k ∈ Finset.univ.erase i, value k (pushes c (s'.pc (.producer k))) =
      ∑ k ∈ Finset.univ.erase i, value k (pushes c (s.pc (.producer k))) := by
    refine Finset.sum_congr rfl ?_
    intro k member
    rw [acted_others acted]
    intro same
    cases same
    exact Finset.notMem_erase _ _ member
  rw [rest, acted.next, acted.at_]
  omega

theorem acted_sum_other (value : Fin c.nProd → Nat → Nat) (acted : Acted s s' t pc action)
    (other : ∀ i, t ≠ .producer i) :
    ∑ k, value k (pushes c (s'.pc (.producer k))) =
      ∑ k, value k (pushes c (s.pc (.producer k))) := by
  refine Finset.sum_congr rfl ?_
  intro k _
  rw [acted_others acted fun same => other k same.symm]

theorem effect_tally (counted : Counted s) (orderly : Orderly s) (effect : Effect exec s t s') :
    s'.vars.produced = ∑ i, pushes c (s'.pc (.producer i)) ∧
      s'.vars.sumPushed =
        (∑ i : Fin c.nProd, itemSum (i + 1) (pushes c (s'.pc (.producer i))) : Nat) := by
  have tally := counted.tally
  have sum := counted.sum
  rcases effect_cases orderly effect with ⟨monitor, resumed, rfl⟩ | ⟨pc, action, acted⟩
  · exact ⟨tally, sum⟩
  rw [acted.vars]
  by_cases producer_ : ∃ i, t = .producer i
  · obtain ⟨i, rfl⟩ := producer_
    obtain ⟨number_, total⟩ := told_pushes acted.told (acted.at_ ▸ counted.within _) s.vars
    have numbers := acted_sum (fun _ n => n) acted
    have totals := acted_sum (fun k n => itemSum (k + 1) n) acted
    omega
  · have other : ∀ i, t ≠ .producer i := fun i same => producer_ ⟨i, same⟩
    obtain ⟨number_, total⟩ := told_produced acted.told other s.vars
    rw [number_, total, acted_sum_other (fun _ n => n) acted other,
      acted_sum_other (fun k n => itemSum (k + 1) n) acted other]
    exact ⟨tally, sum⟩

theorem consumed_grows (told : Told s t pc action) (v : Vars) :
    v.consumed ≤ (action.vars v).consumed := by
  cases told <;> first | exact Nat.le_refl _ | exact Nat.le_succ _

theorem effect_exits (counted : Counted s) (orderly : Orderly s) (effect : Effect exec s t s') :
    ∀ j, s'.pc (.consumer j) = .exit ∨ s'.pc (.consumer j) = .done →
      c.target ≤ s'.vars.consumed := by
  intro j exited
  have before := counted.exits j
  rcases effect_cases orderly effect with ⟨monitor, resumed, rfl⟩ | ⟨pc, action, acted⟩
  · exact before exited
  rw [acted.vars]
  refine Nat.le_trans ?_ (consumed_grows acted.told s.vars)
  by_cases mine : .consumer j = t
  · subst mine
    rw [acted.next] at exited
    rw [acted.at_] at before
    have told := acted.told
    cases told with
    | finished empty all => exact all
    | consumerExits => exact before (.inl rfl)
    | _ => rcases exited with exited | exited <;> cases exited
  · rcases acted.others _ mine with same | ⟨-, -, same⟩
    · rw [same] at exited
      exact before exited
    · rw [same] at exited
      rcases exited with exited | exited <;> cases exited

theorem told_done (told : Told s t .done action) : False := by
  cases told

-- The main task has joined one more thread only if that thread is done.
theorem told_joins (told : Told s .main pc action) {u : Task c} (thread_ : u ≠ .main)
    (before : number u < joined c pc → s.pc u = .done)
    (counted : number u < joined c action.next) : s.pc u = .done := by
  cases told with
  | joinsProducer inside returned =>
      rcases Nat.lt_succ_iff_lt_or_eq.mp counted with less | same
      · exact before less
      · have found := thread_of_number thread_
        rw [same, thread, dif_pos inside] at found
        cases found
        exact returned
  | @joinsConsumer j inside returned =>
      rcases Nat.lt_succ_iff_lt_or_eq.mp counted with less | same
      · exact before less
      · have found := thread_of_number thread_
        have past : ¬ c.nProd + j < c.nProd := by omega
        have last : number u = c.nProd + j := same
        rw [last, thread, dif_neg past, dif_pos (by omega)] at found
        have place : c.nProd + j - c.nProd = j := by omega
        simp only [place] at found
        rw [← Option.some.inj found]
        exact returned
  | created | creates => cases counted
  | joinedProducers all => exact before (Nat.lt_of_lt_of_le counted all)
  | joinedConsumers all => exact before (Nat.lt_of_lt_of_le counted (Nat.add_le_add_left all _))
  | mainLocks | broadcasts | mainUnlocks => exact before counted

theorem effect_joins (counted : Counted s) (orderly : Orderly s) (effect : Effect exec s t s') :
    ∀ u, u ≠ .main → number u < joined c (s'.pc .main) → s'.pc u = .done := by
  intro u thread_ below
  have before := counted.joins u thread_
  rcases effect_cases orderly effect with ⟨monitor, resumed, rfl⟩ | ⟨pc, action, acted⟩
  · exact before below
  have was : s.pc u = .done := by
    by_cases leads : t = .main
    · subst leads
      rw [acted.next] at below
      rw [acted.at_] at before
      exact told_joins acted.told thread_ before below
    · rcases acted.others .main (Ne.symm leads) with same | ⟨-, other, -⟩
      · rw [same] at below
        exact before below
      · exact absurd rfl other
  by_cases mine : u = t
  · subst mine
    have told := acted.told
    rw [← acted.at_, was] at told
    exact absurd told told_done
  · rcases acted.others u mine with same | ⟨unborn, -, -⟩
    · rw [same]
      exact was
    · rw [was] at unborn
      cases unborn

theorem effect_counted (orderly : Orderly s) (counted : Counted s)
    (effect : Effect exec s t s') : Counted s' :=
  ⟨effect_sound counted effect, effect_secured orderly counted.sound counted.secured effect,
    effect_within counted orderly effect, (effect_tally counted orderly effect).1,
    (effect_tally counted orderly effect).2,
    effect_exits counted orderly effect, effect_joins counted orderly effect⟩

theorem boot_counted (roomy : 0 < c.qSize) (memory : Cond → Int → CondVar.Waiter (Task c))
    (signals : Nat) (grants : Task c → Bool) : Counted (boot c memory signals grants) := by
  have statement : ∀ u : Task c, u ≠ .main → (boot c memory signals grants).pc u = .unborn := by
    intro u thread_
    simp [boot, thread_]
  have first : (boot c memory signals grants).pc .main = .create 0 := by simp [boot]
  have start : ∀ u, (boot c memory signals grants).pc u = .unborn ∨
      (boot c memory signals grants).pc u = .create 0 := by
    intro u
    by_cases leads : u = .main
    · rw [leads]
      exact .inr first
    · exact .inl (statement u leads)
  have none_ : ∀ i, pushes c ((boot c memory signals grants).pc (.producer i)) = 0 := by
    intro i
    rw [statement (.producer i) (by simp)]
    rfl
  refine ⟨init_sound roomy, ?_, ?_, ?_, ?_, ?_, ?_⟩
  · intro u
    rcases start u with at_ | at_ <;> rw [at_] <;> trivial
  · intro u
    rcases start u with at_ | at_ <;> rw [at_] <;> trivial
  · exact (Finset.sum_eq_zero fun i _ => none_ i).symm
  · simp only [none_]
    exact (congrArg Int.ofNat (Finset.sum_eq_zero fun i _ => rfl)).symm
  · intro j exited
    rw [statement (.consumer j) (by simp)] at exited
    rcases exited with exited | exited <;> cases exited
  · intro u _ below
    rw [first] at below
    cases below

/-! Wakeups. -/

/-- There is what a waiter on the condition variable waits for. -/
def Stocked (v : Vars) : Cond → Prop
  | .notempty => 0 < v.qcount
  | .notfull => v.qcount = 0

/-- A task that will test the queue before it sleeps or leaves. -/
def Ready (c : Setup) : Cond → Pc → Prop
  | .notempty, .enter | .notempty, .whileEmpty | .notempty, .pop | .notempty, .signalNotfull
  | .notempty, .leave => True
  | .notfull, .loop n => n < c.items
  | .notfull, .lock _ | .notfull, .whileFull _ | .notfull, .push _ => True
  | _, _ => False

def Announces : Cond → Pc → Prop
  | .notempty, .signalNotempty _ => True
  | .notfull, .signalNotfull => True
  | _, _ => False

def OnRing (s : State c) (cv : Cond) (t : Task c) : Prop :=
  ∃ w ∈ queue (s.core.cvs cv), w.task = t

/-- Nobody sleeps on what is there without another being awake for it. -/
def Covered (s : State c) (cv : Cond) : Prop :=
  Stocked s.vars cv → queue (s.core.cvs cv) ≠ [] →
    ∃ t, Announces cv (s.pc t) ∨ Ready c cv (s.pc t) ∧ ¬ OnRing s cv t

theorem told_ready {cv : Cond} (told : Told s t pc action) (ready : Ready c cv pc)
    (stocked : Stocked (action.vars s.vars) cv) : Ready c cv action.next := by
  cases told with
  | runsOut all =>
      cases cv with
      | notempty => exact ready
      | notfull => exact absurd ready (Nat.not_lt.mpr all)
  | finished empty all =>
      cases cv with
      | notempty => exact absurd stocked (by simp [Stocked, Action.vars, empty])
      | notfull => exact ready
  | pushes =>
      cases cv with
      | notempty => exact ready
      | notfull => exact absurd stocked (Nat.succ_ne_zero _)
  | _ => cases cv <;> first | exact ready | trivial

-- Only a push fills the queue and only a pop empties it.
theorem told_stocked {cv : Cond} (told : Told s t pc action) (stocked : ¬ Stocked s.vars cv)
    (after : Stocked (action.vars s.vars) cv) : Announces cv action.next := by
  cases told with
  | pushes =>
      cases cv with
      | notempty => trivial
      | notfull => exact absurd after (Nat.succ_ne_zero _)
  | pops =>
      cases cv with
      | notempty => exact absurd (Nat.lt_of_lt_of_le after (Nat.sub_le _ _)) stocked
      | notfull => trivial
  | _ => exact absurd after stocked

theorem told_announces {cv : Cond} (told : Told s t pc action) (announces : Announces cv pc) :
    action = .signal cv action.next := by
  cases told <;> cases cv <;> first | rfl | cases announces

theorem ready_of_awaits {cv : Cond} (awaits : pc.awaits = some cv) : Ready c cv pc := by
  cases pc <;> cases awaits <;> trivial

/-- The task whose entry is popped is awake again. -/
theorem Orderly.popped (orderly : Orderly s) {cv : Cond} {w : CondVar.Waiter (Task c)}
    (popped : queue (s.core.cvs cv) = w :: queue (s'.core.cvs cv))
    (same : s'.pc w.task = s.pc w.task) :
    Ready c cv (s'.pc w.task) ∧ ¬ OnRing s' cv w.task := by
  have first : w ∈ queue (s.core.cvs cv) := by
    rw [popped]
    exact List.mem_cons_self
  refine ⟨?_, ?_⟩
  · rw [same]
    exact ready_of_awaits (orderly.entry first).1
  · rintro ⟨v, member, owner⟩
    have distinct := (orderly.tidy cv).nodup
    rw [popped, List.map_cons, List.nodup_cons, ← owner] at distinct
    exact distinct.1 (List.mem_map.mpr ⟨v, member, rfl⟩)

theorem Orderly.registered (orderly : Orderly s) {cv : Cond} {w : CondVar.Waiter (Task c)}
    (member : w ∈ queue (s.core.cvs cv)) : s.core.pc w.task ≠ .idle := by
  have known := (orderly.entry member).2
  intro idle
  rw [idle] at known
  cases known

theorem onRing_congr {cv : Cond} (same : s'.core.cvs cv = s.core.cvs cv) {u : Task c}
    (off : ¬ OnRing s cv u) : ¬ OnRing s' cv u := by
  rw [OnRing, same]
  exact off

/-- Who finds this under the lock must wait. -/
def Vars.Blocks (v : Vars) (c : Setup) : Cond → Prop
  | .notempty => v.qcount = 0 ∧ v.consumed < c.target
  | .notfull => v.qcount = c.qSize

theorem Vars.Blocks.unstocked {cv : Cond} (blocks : s.vars.Blocks c cv) (roomy : 0 < c.qSize) :
    ¬ Stocked s.vars cv := by
  intro stocked
  cases cv with
  | notempty =>
      have some_ : 0 < s.vars.qcount := stocked
      have none_ : s.vars.qcount = 0 := blocks.1
      omega
  | notfull =>
      have none_ : s.vars.qcount = 0 := stocked
      have full : s.vars.qcount = c.qSize := blocks
      omega

/-- The test of a task that enters a ring still holds. -/
theorem Counted.entering (counted : Counted s) (orderly : Orderly s) {cv : Cond}
    (at_ : s.core.pc t = .waitEnqueue cv) : s.vars.Blocks c cv := by
  have secured := counted.secured t
  have awaits := orderly.fits t
  rw [at_] at secured awaits
  cases statement : s.pc t with
  | whileFull n =>
      rw [statement] at secured awaits
      cases awaits
      exact secured rfl
  | whileEmpty =>
      rw [statement] at secured awaits
      cases awaits
      exact secured rfl
  | _ =>
      rw [statement] at awaits
      cases awaits

theorem resumed_covered (roomy : 0 < c.qSize) (orderly : Orderly s) (counted : Counted s)
    {cv : Cond} (covered : Covered s cv) {monitor : Monitor.State (Task c) Cond Unit}
    (resumed : Resumed exec s.monitor t monitor) : Covered (s.inner monitor) cv := by
  intro stocked waits
  rcases resumed_rings orderly resumed cv with same | ⟨at_, -⟩ | ⟨w, popped⟩
  · have before : queue (s.core.cvs cv) ≠ [] := by
      rw [← same]
      exact waits
    obtain ⟨u, announces | ⟨ready, off⟩⟩ := covered stocked before
    · exact ⟨u, .inl announces⟩
    · exact ⟨u, .inr ⟨ready, onRing_congr same off⟩⟩
  · exact absurd stocked ((counted.entering orderly at_).unstocked roomy)
  · exact ⟨w.task, .inr (orderly.popped popped rfl)⟩

theorem Acted.still (acted : Acted s s' t pc action) {u : Task c} (other : u ≠ t)
    (born : s.pc u ≠ .unborn) : s'.pc u = s.pc u := by
  rcases acted.others u other with same | ⟨unborn, -, -⟩
  · exact same
  · exact absurd unborn born

theorem awake_born {cv : Cond} {off : Prop} (awake : Announces cv pc ∨ Ready c cv pc ∧ off) :
    pc ≠ .unborn := by
  rintro rfl
  rcases awake with announces | ⟨ready, -⟩
  · cases cv <;> cases announces
  · cases cv <;> cases ready

theorem acted_covered (orderly : Orderly s) {cv : Cond} (covered : Covered s cv)
    (acted : Acted s s' t pc action) : Covered s' cv := by
  intro stocked waits
  rcases acted.rings cv with ⟨w, popped⟩ | ⟨same, silent⟩
  · have first : w ∈ queue (s.core.cvs cv) := by
      rw [popped]
      exact List.mem_cons_self
    have other : w.task ≠ t := by
      intro mine
      have busy := orderly.registered first
      rw [mine] at busy
      exact busy acted.idle
    have born : s.pc w.task ≠ .unborn := by
      intro unborn
      have awaits := (orderly.entry first).1
      rw [unborn] at awaits
      cases awaits
    exact ⟨w.task, .inr (orderly.popped popped (acted.still other born))⟩
  · have before : queue (s.core.cvs cv) ≠ [] := by
      rw [← same]
      exact waits
    rw [acted.vars] at stocked
    by_cases old : Stocked s.vars cv
    · obtain ⟨u, awake⟩ := covered old before
      by_cases mine : u = t
      · subst mine
        rw [acted.at_] at awake
        rcases awake with announces | ⟨ready, off⟩
        · exact absurd (silent _ (told_announces acted.told announces)) before
        · refine ⟨u, .inr ⟨?_, onRing_congr same off⟩⟩
          rw [acted.next]
          exact told_ready acted.told ready stocked
      · rw [← acted.still mine (awake_born awake)] at awake
        rcases awake with announces | ⟨ready, off⟩
        · exact ⟨u, .inl announces⟩
        · exact ⟨u, .inr ⟨ready, onRing_congr same off⟩⟩
    · refine ⟨t, .inl ?_⟩
      rw [acted.next]
      exact told_stocked acted.told old stocked

theorem effect_covered (roomy : 0 < c.qSize) (orderly : Orderly s) (counted : Counted s) (cv : Cond)
    (covered : Covered s cv) (effect : Effect exec s t s') : Covered s' cv := by
  rcases effect_cases orderly effect with ⟨monitor, resumed, rfl⟩ | ⟨pc, action, acted⟩
  · exact resumed_covered roomy orderly counted covered resumed
  · exact acted_covered orderly covered acted

/-! The end. -/

theorem Counted.done (counted : Counted s) (past : c.nProd ≤ joined c (s.pc .main))
    (i : Fin c.nProd) : s.pc (.producer i) = .done :=
  counted.joins (.producer i) nofun (Nat.lt_of_lt_of_le i.isLt past)

/-- Once the producers are joined all items have been pushed. -/
theorem Counted.all_produced (counted : Counted s) (past : ∀ i, s.pc (.producer i) = .done) :
    s.vars.produced = c.target := by
  rw [counted.tally]
  simp only [past, pushes, Finset.sum_const, Finset.card_univ, Fintype.card_fin, smul_eq_mul]
  rfl

/-- The broadcast of the main task is over. -/
def Ended (s : State c) : Prop :=
  (s.pc .main = .unlockAtEnd ∧ s.core.pc .main = .idle) ∨ (∃ j, s.pc .main = .joinConsumers j) ∨
    s.pc .main = .done

theorem Ended.joined (ended : Ended s) : c.nProd ≤ joined c (s.pc .main) := by
  rcases ended with ⟨at_, -⟩ | ⟨j, at_⟩ | at_ <;> rw [at_]
  · exact Nat.le_refl _
  · exact Nat.le_add_right _ _
  · exact Nat.le_add_right _ _

/-- After the broadcast no consumer waits, since there is no item left to wait for. -/
def Emptied (s : State c) : Prop := Ended s → queue (s.core.cvs .notempty) = []

theorem told_ended (told : Told s .main pc action)
    (ended : action.next = .unlockAtEnd ∨ (∃ j, action.next = .joinConsumers j) ∨
      action.next = .done) :
    action = .broadcast .notempty action.next ∨ pc = .unlockAtEnd ∨
      ∃ j, pc = .joinConsumers j := by
  cases told with
  | broadcasts => exact .inl rfl
  | mainUnlocks => exact .inr (.inl rfl)
  | joinsConsumer | joinedConsumers => exact .inr (.inr ⟨_, rfl⟩)
  | _ => rcases ended with ended | ⟨j, ended⟩ | ended <;> cases ended

/-- The broadcast ends when the ring is empty. -/
theorem broadcast_ends (orderly : Orderly s) {monitor : Monitor.State (Task c) Cond Unit}
    (resumed : Resumed exec s.monitor t monitor) (before : ¬ Ended s)
    (ended : Ended (s.inner monitor)) : queue (s.core.cvs .notempty) = [] := by
  obtain ⟨at_, idle⟩ : s.pc .main = .unlockAtEnd ∧ monitor.core.pc .main = .idle := by
    rcases ended with here | other | other
    · exact here
    · exact absurd (.inr (.inl other)) before
    · exact absurd (.inr (.inr other)) before
  have busy : s.core.pc .main ≠ .idle := fun still => before (.inl ⟨at_, still⟩)
  have leads : .main = t := by
    by_contra other
    rw [(resumed_others resumed other).1] at idle
    exact busy idle
  subst leads
  have fits := orderly.fits .main
  rw [at_] at fits
  cases resumed with
  | @drained cv from_ none_ =>
      rw [from_] at fits
      obtain ⟨rfl, -⟩ := fits
      exact queue_nil (orderly.tidy .notempty) none_
  | sent from_ | returned from_ =>
      rw [from_] at fits
      cases fits
  | _ => simp [CondVar.State.goto] at idle

theorem resumed_emptied (orderly : Orderly s) (counted : Counted s) (emptied : Emptied s)
    {monitor : Monitor.State (Task c) Cond Unit} (resumed : Resumed exec s.monitor t monitor) :
    Emptied (s.inner monitor) := by
  intro ended
  have none_ : queue (s.core.cvs .notempty) = [] := by
    by_cases before : Ended s
    · exact emptied before
    · exact broadcast_ends orderly resumed before ended
  rcases resumed_rings orderly resumed .notempty with same | ⟨at_, -⟩ | ⟨w, popped⟩
  · rw [← same] at none_
    exact none_
  · -- Nobody waits for more once all has been produced.
    have produced := counted.all_produced (counted.done (Ended.joined (s := s.inner monitor) ended))
    have waits : s.vars.qcount = 0 ∧ s.vars.consumed < c.target := counted.entering orderly at_
    have flow := counted.sound.flow
    omega
  · rw [none_] at popped
    cases popped

/-- No statement ends the broadcast. -/
theorem acted_ended (orderly : Orderly s) (effect : Effect exec s t s')
    (acted : Acted s s' t pc action) (ended : Ended s') : Ended s := by
  by_cases leads : t = .main
  · subst leads
    have ends : action.next = .unlockAtEnd ∨ (∃ j, action.next = .joinConsumers j) ∨
        action.next = .done := by
      rw [← acted.next]
      exact ended.imp_left And.left
    rcases told_ended acted.told ends with broadcast | at_ | ⟨j, at_⟩
    · exfalso
      have told := acted.told
      rw [broadcast] at told
      have after : action.next = .unlockAtEnd := (told_broadcast told).2.2
      rcases ended with ⟨-, idle⟩ | ⟨j, other⟩ | other
      · exact acted.calls _ broadcast idle
      · rw [acted.next, after] at other
        cases other
      · rw [acted.next, after] at other
        cases other
    · exact .inl ⟨acted.at_.trans at_, acted.idle⟩
    · exact .inr (.inl ⟨j, acted.at_.trans at_⟩)
  · have same : s'.pc .main = s.pc .main := by
      rcases acted.others .main (Ne.symm leads) with same | ⟨-, other, -⟩
      · exact same
      · exact absurd rfl other
    have call := (effect_others orderly effect (Ne.symm leads)).1
    rw [Ended, same, call] at ended
    exact ended

theorem effect_emptied (orderly : Orderly s) (counted : Counted s) (emptied : Emptied s)
    (effect : Effect exec s t s') : Emptied s' := by
  rcases effect_cases orderly effect with ⟨monitor, resumed, rfl⟩ | ⟨pc, action, acted⟩
  · exact resumed_emptied orderly counted emptied resumed
  · intro ended
    have none_ := emptied (acted_ended orderly effect acted ended)
    rcases acted.rings .notempty with ⟨w, popped⟩ | ⟨same, -⟩
    · rw [none_] at popped
      cases popped
    · rw [same]
      exact none_

end Netstack.TestCv
