import Mathlib.Data.List.Nodup
import Mathlib.Data.Fintype.Basic
import Mathlib.Logic.Relation
import Netstack.TimedReturn

/-!
Untimed condition variables neither lose nor duplicate a wakeup. Without a timed
wait every step is prompt, so every task between its enqueue and the return of
its Wait is in one of the three places of a wakeup. An onlooker writes down the
waits that signals and broadcasts pop and the waits that end: the books differ by
the waits whose wakeup is on its way, and each of these can still end.
-/

namespace Netstack.CondVar

open Transition WaiterRing

variable {Task Cv : Type}

def Event.untimed : Event Task Cv → Bool
  | .timedwait _ _ _ => false
  | _ => true

def Pc.untimed : Pc Task Cv → Bool
  | .timedEnqueue _ _ | .timedUnlock _ | .timedTest _ | .timedPoll _ | .timedClear _
  | .timedSleep _ | .timedRemove _ | .timedRelock _ _ => false
  | _ => true

/-- Between the enqueue of `osal_cv_wait` and the return of its Wait. -/
def Pc.waiting : Pc Task Cv → Bool
  | .waitUnlock _ _ | .waitSignal _ _ => true
  | _ => false

/-- Nobody is inside a timed wait. -/
def Untimed (s : State Task Cv) : Prop := ∀ t, (s.pc t).untimed = true

theorem waiting_of_registered {pc : Pc Task Cv} (untimed : pc.untimed = true) :
    pc.waiting = pc.registered.isSome := by
  cases pc <;> simp_all [Pc.untimed, Pc.waiting, Pc.registered]

theorem Untimed.elsewhere {s : State Task Cv} (untimed : Untimed s) {t : Task} {pc : Pc Task Cv}
    (at_ : s.pc t = pc) (timed : pc.untimed = false) : False := by
  have here := untimed t
  rw [at_, timed] at here
  cases here

theorem waiting_cases {pc : Pc Task Cv} {cv : Cv} {stamp : Nat} (untimed : pc.untimed = true)
    (inside : pc.registered = some (cv, stamp)) :
    pc = .waitUnlock cv stamp ∨ pc = .waitSignal cv stamp := by
  cases pc <;> simp_all [Pc.untimed, Pc.registered]

section Situations

variable {place : Task → Place Task Cv} {s : State Task Cv} {t : Task}

/-- `u` has popped an entry of `t` and has not called Signal on it yet. -/
def AboutToSignal (s : State Task Cv) (u t : Task) : Prop := ∃ w ∈ s.sending u, w.task = t

theorem LocatedIn.signaller (located : LocatedIn place s) {u : Task} :
    AboutToSignal s u t ↔ ∃ cv stamp, place t = .flight u cv stamp := by
  constructor
  · rintro ⟨w, held, rfl⟩
    obtain ⟨-, cv, placed⟩ := (located.flight u w).mp held
    exact ⟨cv, w.stamp, placed⟩
  · rintro ⟨cv, stamp, placed⟩
    exact ⟨⟨t, sigfSingle, stamp⟩, (located.flight u _).mpr ⟨rfl, cv, placed⟩, rfl⟩

theorem LocatedIn.dark (located : LocatedIn place s)
    (elsewhere : ∀ cv stamp, place t ≠ .bit cv stamp) : s.single t = false := by
  cases lit : s.single t with
  | false => rfl
  | true =>
      obtain ⟨cv, stamp, placed⟩ := (located.bit t).mp lit
      exact absurd placed (elsewhere cv stamp)

variable [DecidableEq Task]

/-- How many entries `t` has on the ring of `cv`. -/
def entries (s : State Task Cv) (cv : Cv) (t : Task) : Nat :=
  (queue (s.cvs cv)).countP fun w => w.task = t

def OneEntry (s : State Task Cv) (t : Task) : Prop :=
  ∃ cv, entries s cv t = 1 ∧ ∀ other, other ≠ cv → entries s other t = 0

def NoEntry (s : State Task Cv) (t : Task) : Prop := ∀ cv, entries s cv t = 0

def OneSignaller (s : State Task Cv) (t : Task) : Prop := ∃! u, AboutToSignal s u t

def NoSignaller (s : State Task Cv) (t : Task) : Prop := ∀ u, ¬ AboutToSignal s u t

/-- The wakeup of a waiting task is in exactly one place, that of any other task
in none. -/
def Situated (s : State Task Cv) (t : Task) : Prop :=
  if (s.pc t).waiting then
    OneEntry s t ∧ NoSignaller s t ∧ s.single t = false ∨
      NoEntry s t ∧ OneSignaller s t ∧ s.single t = false ∨
      NoEntry s t ∧ NoSignaller s t ∧ s.single t = true
  else NoEntry s t ∧ NoSignaller s t ∧ s.single t = false

theorem entries_zero_iff {cv : Cv} :
    entries s cv t = 0 ↔ ∀ w ∈ queue (s.cvs cv), w.task ≠ t := by
  simp [entries, List.countP_eq_zero]

theorem entries_one {cv : Cv} {w : Waiter Task} (tidy : Tidy (s.cvs cv))
    (member : w ∈ queue (s.cvs cv)) : entries s cv w.task = 1 := by
  have counted : entries s cv w.task = ((queue (s.cvs cv)).map Waiter.task).count w.task := by
    rw [List.count, List.countP_map]
    rfl
  rw [counted]
  exact List.count_eq_one_of_mem tidy.nodup (List.mem_map.mpr ⟨w, member, rfl⟩)

theorem LocatedIn.entries_zero (located : LocatedIn place s) {cv : Cv}
    (elsewhere : ∀ stamp, place t ≠ .ring cv stamp) : entries s cv t = 0 := by
  refine entries_zero_iff.mpr ?_
  rintro w member rfl
  exact elsewhere _ (Located.entry located member)

theorem situated_of_located (located : LocatedIn place s) (untimed : Untimed s) (t : Task) :
    Situated s t := by
  have known : (s.pc t).registered = (place t).registered := located.known t
  rw [Situated, waiting_of_registered (untimed t), known]
  have unqueued : (∀ cv stamp, place t ≠ .ring cv stamp) → NoEntry s t := fun elsewhere cv =>
    located.entries_zero (elsewhere cv)
  have unhunted : (∀ u cv stamp, place t ≠ .flight u cv stamp) → NoSignaller s t := by
    intro elsewhere u aims
    obtain ⟨cv, stamp, placed⟩ := located.signaller.mp aims
    exact elsewhere u cv stamp placed
  cases placed : place t with
  | away =>
      rw [placed] at unqueued unhunted
      exact ⟨unqueued nofun, unhunted nofun, located.dark (by rw [placed]; nofun)⟩
  | ring cv stamp =>
      rw [placed] at unhunted
      have member := (located.ring cv t stamp).mpr placed
      refine .inl ⟨⟨cv, entries_one (located.tidy cv) member, ?_⟩, unhunted nofun,
        located.dark (by rw [placed]; nofun)⟩
      intro other apart
      refine located.entries_zero ?_
      intro number there
      rw [placed] at there
      injection there with same
      exact apart same.symm
  | flight u cv stamp =>
      rw [placed] at unqueued
      refine .inr (.inl ⟨unqueued nofun, ⟨u, ?_, ?_⟩, located.dark (by rw [placed]; nofun)⟩)
      · exact located.signaller.mpr ⟨cv, stamp, placed⟩
      · intro v aims
        obtain ⟨_, _, there⟩ := located.signaller.mp aims
        rw [placed] at there
        injection there with same
        exact same.symm
  | bit cv stamp =>
      rw [placed] at unqueued unhunted
      exact .inr (.inr ⟨unqueued nofun, unhunted nofun, (located.bit t).mpr ⟨cv, stamp, placed⟩⟩)

end Situations

/-- The waits that were popped and the waits that ended, by task and number. -/
structure Wakes (Task : Type) where
  popped : List (Task × Nat)
  ended : List (Task × Nat)

def Wakes.empty : Wakes Task := ⟨[], []⟩

/-- The wait that ends as its Wait returns. -/
def awaking (s : State Task Cv) : Event Task Cv → Option (Task × Nat)
  | .wake t =>
      match s.pc t with
      | .waitSignal _ stamp => some (t, stamp)
      | _ => none
  | _ => none

def Wakes.record (wakes : Wakes Task) (move : Move (State Task Cv) (Event Task Cv)) :
    Wakes Task where
  popped := wakes.popped ++
    ((popping move.before move.label).map fun w => (w.task, w.stamp)).toList
  ended := wakes.ended ++ (awaking move.before move.label).toList

/-- The wait is registered and its entry is off the ring. -/
def Owed (registered : Task → Option (Cv × Nat)) (cvs : Cv → OsalCv (Waiter Task)) (t : Task)
    (stamp : Nat) : Prop :=
  ∃ cv, registered t = some (cv, stamp) ∧ ⟨t, sigfSingle, stamp⟩ ∉ queue (cvs cv)

structure Settled (wakes : Wakes Task) (registered : Task → Option (Cv × Nat))
    (cvs : Cv → OsalCv (Waiter Task)) (next : Nat) : Prop where
  bounded : ∀ t cv stamp, registered t = some (cv, stamp) → stamp < next
  fresh : ∀ wait ∈ wakes.popped, wait.2 < next
  waiting : ∀ cv, ∀ w ∈ queue (cvs cv), (w.task, w.stamp) ∉ wakes.popped
  once : wakes.popped.Nodup
  ended : wakes.ended.Nodup ∧ wakes.ended ⊆ wakes.popped
  owed : ∀ t stamp, Owed registered cvs t stamp ↔
    (t, stamp) ∈ wakes.popped ∧ (t, stamp) ∉ wakes.ended

section Settled

variable {wakes : Wakes Task} {registered : Task → Option (Cv × Nat)}
variable {cvs : Cv → OsalCv (Waiter Task)} {next : Nat} {t : Task} {cv : Cv}

theorem Settled.enter [DecidableEq Task] [DecidableEq Cv]
    (settled : Settled wakes registered cvs next) {ring : OsalCv (Waiter Task)}
    (outside : registered t = none)
    (appended : queue ring = queue (cvs cv) ++ [⟨t, sigfSingle, next⟩]) :
    Settled wakes (Function.update registered t (some (cv, next))) (Function.update cvs cv ring)
      (next + 1) := by
  have unpopped : (t, next) ∉ wakes.popped := fun early =>
    Nat.lt_irrefl next (settled.fresh _ early)
  refine ⟨?_, ?_, ?_, settled.once, settled.ended, ?_⟩
  · intro u other stamp inside
    by_cases mine : u = t
    · rw [mine, Function.update_self] at inside
      cases inside
      exact Nat.lt_succ_self next
    · rw [Function.update_of_ne mine] at inside
      exact Nat.lt_succ_of_lt (settled.bounded u other stamp inside)
  · intro wait member
    exact Nat.lt_succ_of_lt (settled.fresh wait member)
  · rw [Function.forall_update_iff cvs fun _ ring => ∀ w ∈ queue ring,
      (w.task, w.stamp) ∉ wakes.popped]
    refine ⟨?_, fun other _ => settled.waiting other⟩
    rw [appended]
    simp only [List.forall_mem_append, List.forall_mem_singleton]
    exact ⟨settled.waiting cv, unpopped⟩
  · intro u stamp
    rw [← settled.owed]
    by_cases mine : u = t
    · -- The new wait has its entry and the old one is over.
      subst mine
      constructor
      · rintro ⟨other, inside, missing⟩
        rw [Function.update_self] at inside
        cases inside
        rw [Function.update_self, appended] at missing
        simp at missing
      · rintro ⟨other, inside, missing⟩
        rw [outside] at inside
        cases inside
    · refine exists_congr fun other => ?_
      rw [Function.update_of_ne mine]
      by_cases here : other = cv
      · subst here
        rw [Function.update_self, appended]
        simp [mine]
      · rw [Function.update_of_ne here]

theorem Settled.pop [DecidableEq Cv] (settled : Settled wakes registered cvs next)
    {ring : OsalCv (Waiter Task)} {w : Waiter Task} (split : queue (cvs cv) = w :: queue ring)
    (inside : registered w.task = some (cv, w.stamp))
    (gone : ∀ v ∈ queue ring, v.task ≠ w.task)
    (known : ∀ other, ∀ v ∈ queue (cvs other), registered v.task = some (other, v.stamp)) :
    Settled { wakes with popped := wakes.popped ++ [(w.task, w.stamp)] } registered
      (Function.update cvs cv ring) next := by
  have unpopped : (w.task, w.stamp) ∉ wakes.popped := by
    refine settled.waiting cv w ?_
    rw [split]
    exact List.mem_cons_self
  have left : ∀ other, ∀ v ∈ queue (cvs other), v.task ≠ w.task →
      (v.task, v.stamp) ∉ wakes.popped ++ [(w.task, w.stamp)] := by
    intro other v member apart early
    rcases List.mem_append.mp early with earlier | now
    · exact settled.waiting other v member earlier
    · exact apart (congrArg Prod.fst (List.mem_singleton.mp now))
  refine ⟨settled.bounded, ?_, ?_, ?_, ?_, ?_⟩
  · simp only [List.forall_mem_append, List.forall_mem_singleton]
    exact ⟨settled.fresh, settled.bounded _ _ _ inside⟩
  · rw [Function.forall_update_iff cvs fun _ ring => ∀ w ∈ queue ring, (w.task, w.stamp) ∉ _]
    constructor
    · intro v member
      refine left cv v ?_ (gone v member)
      rw [split]
      exact List.mem_cons_of_mem _ member
    · intro other apart v member
      refine left other v member ?_
      intro same
      have there := known other v member
      rw [same, inside] at there
      exact apart (congrArg Prod.fst (Option.some.inj there)).symm
  · rw [← List.concat_eq_append]
    exact settled.once.concat unpopped
  · exact ⟨settled.ended.1, List.subset_append_of_subset_left _ settled.ended.2⟩
  · intro u stamp
    by_cases mine : u = w.task ∧ stamp = w.stamp
    · obtain ⟨rfl, rfl⟩ := mine
      refine iff_of_true ⟨cv, inside, ?_⟩ ⟨by simp, fun early => unpopped (settled.ended.2 early)⟩
      rw [Function.update_self]
      exact fun member => gone _ member rfl
    · have other : (u, stamp) ∈ wakes.popped ++ [(w.task, w.stamp)] ↔
          (u, stamp) ∈ wakes.popped := by
        simp [mine]
      rw [other, ← settled.owed]
      refine exists_congr fun other => ?_
      by_cases here : other = cv
      · subst here
        rw [Function.update_self, split, List.mem_cons, or_iff_right]
        rintro rfl
        exact mine ⟨rfl, rfl⟩
      · rw [Function.update_of_ne here]

/-- The wait whose wakeup has arrived ends. -/
theorem Settled.wake [DecidableEq Task] (settled : Settled wakes registered cvs next) {stamp : Nat}
    (inside : registered t = some (cv, stamp))
    (off : ⟨t, sigfSingle, stamp⟩ ∉ queue (cvs cv)) :
    Settled { wakes with ended := wakes.ended ++ [(t, stamp)] }
      (Function.update registered t none) cvs next := by
  obtain ⟨popped, unended⟩ := (settled.owed t stamp).mp ⟨cv, inside, off⟩
  refine ⟨?_, settled.fresh, settled.waiting, settled.once, ?_, ?_⟩
  · intro u other number still
    by_cases mine : u = t
    · rw [mine, Function.update_self] at still
      cases still
    · rw [Function.update_of_ne mine] at still
      exact settled.bounded u other number still
  · rw [← List.concat_eq_append]
    refine ⟨settled.ended.1.concat unended, ?_⟩
    rw [List.concat_eq_append]
    exact List.append_subset.mpr ⟨settled.ended.2, by simpa using popped⟩
  · intro u number
    by_cases mine : u = t
    · subst mine
      refine iff_of_false ?_ ?_
      · rintro ⟨other, still, -⟩
        rw [Function.update_self] at still
        cases still
      · -- Any wait of the task that is owed is the one that ends now.
        rintro ⟨early, open_⟩
        simp only [List.mem_append, List.mem_singleton, not_or] at open_
        obtain ⟨other, same, -⟩ := (settled.owed u number).mpr ⟨early, open_.1⟩
        rw [inside] at same
        cases same
        exact open_.2 rfl
    · have same : (u, number) ∈ wakes.ended ++ [(t, stamp)] ↔ (u, number) ∈ wakes.ended := by
        simp [mine]
      rw [same, ← settled.owed, Owed, Owed, Function.update_of_ne mine]

end Settled

section Steps

variable {wakes : Wakes Task} {s s' : State Task Cv} {e : Event Task Cv} {t : Task}

def SettledIn (wakes : Wakes Task) (s : State Task Cv) : Prop :=
  Settled wakes s.registered s.cvs s.nextStamp

theorem boot_settled (memory : Cv → Int → Waiter Task) : SettledIn Wakes.empty (boot memory) := by
  constructor <;> simp [boot, Wakes.empty, State.registered, Pc.registered, Owed, new_queue]

theorem prompt_of_untimed (untimed : Untimed s) (e : Event Task Cv) : Prompt s e := by
  refine ⟨?_, ?_⟩
  · intro w _
    have here := untimed w.task
    cases pc : s.pc w.task <;> simp_all [Pc.untimed, Pc.pollAhead]
  · intro t last
    have here := untimed t
    cases e with
    | poll u =>
        simp only [lastPoll] at last
        split at last
        · rename_i w pc
          have there := untimed u
          rw [pc] at there
          cases there
        · cases last
    | _ => cases last

theorem wakes_quiet (unpopped : popping s e = none) (asleep : awaking s e = none) :
    wakes.record ⟨s, e, s'⟩ = wakes := by
  simp [Wakes.record, unpopped, asleep]

theorem wakes_popped {w : Waiter Task} (taken : popping s e = some w)
    (asleep : awaking s e = none) :
    wakes.record ⟨s, e, s'⟩ =
      { wakes with popped := wakes.popped ++ [(w.task, w.stamp)] } := by
  simp [Wakes.record, taken, asleep]

variable [DecidableEq Task]

theorem untimed_goto (untimed : Untimed s) {pc : Pc Task Cv} (here : pc.untimed = true) :
    Untimed (s.goto t pc) := by
  intro other
  by_cases mine : other = t
  · subst mine
    simpa [State.goto] using here
  · simpa [State.goto, mine] using untimed other

theorem SettledIn.goto (settled : SettledIn wakes s) {pc : Pc Task Cv}
    (same : pc.registered = (s.pc t).registered) : SettledIn wakes (s.goto t pc) := by
  rw [SettledIn, goto_keeps_registered same]
  exact settled

variable [DecidableEq Cv]

theorem effect_untimed (untimed : Untimed s) (allowed : e.untimed = true)
    (effect : Effect s e s') : Untimed s' := by
  cases effect with
  | waited | overflowed | enqueued | unlocked | woken | relocked | signalled | drawn
  | guardTaken | drained => exact untimed_goto untimed rfl
  | nobody => exact untimed
  | sent | broadcastSent =>
      refine untimed_goto ?_ rfl
      rw [State.signal]
      split
      · exact untimed
      · exact untimed
  | timedWaited => cases allowed
  | timedEnqueued pc | timedUnlocked pc | inTime pc | timedOut pc | seen pc | unseen pc
  | cleared pc | slept pc | removed pc | timedRelocked pc => exact (untimed.elsewhere pc rfl).elim

theorem SettledIn.pop {place : Task → Place Task Cv} (settled : SettledIn wakes s)
    (located : LocatedIn place s) {cv : Cv} {pc : Pc Task Cv} (some_ : 0 < (s.cvs cv).count)
    (same : pc.registered = (s.pc t).registered) :
    SettledIn { wakes with popped := wakes.popped ++
        [((pop (s.cvs cv)).1.task, (pop (s.cvs cv)).1.stamp)] }
      ((s.setCv cv (pop (s.cvs cv)).2).goto t pc) := by
  have known := Located.entries located
  have split := pop_queue (located.tidy cv).sound some_
  have inside := known cv (WaiterRing.pop (s.cvs cv)).1 (by rw [split]; exact List.mem_cons_self)
  have gone := ((located.tidy cv).pop some_).2.1
  rw [SettledIn, goto_keeps_registered]
  · exact Settled.pop settled split inside gone known
  · exact same

theorem effect_settled (wakeups : Wakeups s) (untimed : Untimed s) (settled : SettledIn wakes s)
    (effect : Effect s e s') : SettledIn (wakes.record ⟨s, e, s'⟩) s' := by
  obtain ⟨place, located, timely⟩ := wakeups
  cases effect with
  | waited pc | timedWaited pc | unlocked pc | relocked pc | guardTaken pc =>
      rw [wakes_quiet rfl rfl]
      exact settled.goto (by rw [pc]; rfl)
  | overflowed pc =>
      rw [wakes_quiet rfl rfl]
      refine settled.goto ?_
      rcases pc with pc | ⟨timeout, pc⟩
      · rw [pc]
        rfl
      · rw [pc]
        rfl
  | @enqueued t cv pc free room =>
      have outside : s.registered t = none := by
        rw [State.registered, pc]
        rfl
      rw [wakes_quiet rfl rfl, SettledIn, goto_registered]
      exact Settled.enter settled outside (enqueue_queue (located.tidy cv).sound room _)
  | @woken t cv stamp pc bit =>
      have inside : s.registered t = some (cv, stamp) := by
        rw [State.registered, pc]
        rfl
      have off : ⟨t, sigfSingle, stamp⟩ ∉ queue (s.cvs cv) := by
        obtain ⟨other, number, placed⟩ := (located.bit t).mp bit
        rw [located.ring, placed]
        simp
      have ended : wakes.record ⟨s, .wake t, (s.setSingle t false).goto t .waitRelock⟩ =
          { wakes with ended := wakes.ended ++ [(t, stamp)] } := by
        simp [Wakes.record, popping, awaking, pc]
      rw [ended, SettledIn, goto_registered]
      exact Settled.wake settled inside off
  | @signalled t cv pc free some_ =>
      have taken : popping s (.signal t cv) = some (WaiterRing.pop (s.cvs cv)).1 := by
        simp only [popping, if_pos some_]
      rw [wakes_popped taken rfl]
      exact settled.pop located some_ (by rw [pc]; rfl)
  | nobody pc free none_ =>
      rw [wakes_quiet (by simp [popping, none_]) rfl]
      exact settled
  | @drawn t cv pc some_ =>
      have taken : popping s (.next t) = some (WaiterRing.pop (s.cvs cv)).1 := by
        simp only [popping, pc, if_pos some_]
      rw [wakes_popped taken rfl]
      exact settled.pop located some_ (by rw [pc]; rfl)
  | drained pc none_ =>
      rw [wakes_quiet (by simp [popping, pc, none_]) rfl]
      exact SettledIn.goto (s := { s with guarded := _ }) settled (by rw [pc]; rfl)
  | sent pc | broadcastSent pc =>
      rw [wakes_quiet rfl rfl, located.signal (by rw [pc]; rfl)]
      exact SettledIn.goto (s := s.setSingle _ true) settled (by simp [State.setSingle, pc]; rfl)
  | timedEnqueued pc | timedUnlocked pc | inTime pc | timedOut pc | seen pc | unseen pc
  | cleared pc | slept pc | removed pc | timedRelocked pc => exact (untimed.elsewhere pc rfl).elim

/-- A Signal that is due, or the unlock of the waiting task. -/
def Advances (t : Task) (s s' : State Task Cv) : Prop :=
  (∃ u, AboutToSignal s u t ∧ step s (.send u) = some s') ∨ step s (.unlock t) = some s'

/-- The wait ends once its Signal and its own steps are taken. -/
def Ends (s : State Task Cv) (t : Task) (stamp : Nat) : Prop :=
  ∃ before after, Relation.ReflTransGen (Advances t) s before ∧
    step before (.wake t) = some after ∧ awaking before (.wake t) = some (t, stamp)

theorem lit_ends {cv : Cv} {stamp : Nat} (untimed : (s.pc t).untimed = true)
    (inside : (s.pc t).registered = some (cv, stamp)) (bit : s.single t = true) :
    Ends s t stamp := by
  have asleep : ∀ s : State Task Cv, s.pc t = .waitSignal cv stamp → s.single t = true →
      Ends s t stamp := by
    intro s pc bit
    refine ⟨s, (s.setSingle t false).goto t .waitRelock, .refl, ?_, ?_⟩
    · simp only [step, pc, bit, if_true]
    · simp only [awaking, pc]
  rcases waiting_cases untimed inside with pc | pc
  · have taken : step s (.unlock t) = some (s.goto t (.waitSignal cv stamp)) := by
      simp only [step, pc]
    obtain ⟨before, after, path, woken⟩ :=
      asleep (s.goto t (.waitSignal cv stamp)) (by simp [State.goto]) bit
    exact ⟨before, after, .head (.inr taken) path, woken⟩
  · exact asleep s pc bit

theorem flight_ends {u : Task} {cv : Cv} {stamp : Nat} (untimed : (s.pc t).untimed = true)
    (inside : (s.pc t).registered = some (cv, stamp))
    (held : (s.pc u).sending = some ⟨t, sigfSingle, stamp⟩) : Ends s t stamp := by
  have apart := sending_apart held inside
  obtain ⟨pc, taken⟩ := send_taken held
  have same : ((s.setSingle t true).goto u pc).pc t = s.pc t := by
    simp [State.goto, State.setSingle, apart]
  rw [← same] at inside untimed
  obtain ⟨before, after, path, woken⟩ :=
    lit_ends untimed inside (by simp [State.goto, State.setSingle])
  exact ⟨before, after, .head (.inl ⟨u, ⟨_, held, rfl⟩, taken⟩) path, woken⟩

theorem owed_ends {place : Task → Place Task Cv} (located : LocatedIn place s)
    (untimed : Untimed s) {stamp : Nat} (owed : Owed s.registered s.cvs t stamp) :
    Ends s t stamp := by
  obtain ⟨cv, inside, off⟩ := owed
  have known := located.known t
  rw [inside] at known
  cases placed : place t with
  | away =>
      rw [placed] at known
      cases known
  | ring cv' stamp' =>
      rw [placed] at known
      cases known
      exact absurd ((located.ring cv t stamp).mpr placed) off
  | flight u cv' stamp' =>
      rw [placed] at known
      cases known
      have held := (located.flight u ⟨t, sigfSingle, stamp⟩).mpr ⟨rfl, cv, placed⟩
      exact flight_ends (untimed t) inside held
  | bit cv' stamp' =>
      exact lit_ends (untimed t) inside ((located.bit t).mpr ⟨cv', stamp', placed⟩)

end Steps

variable [DecidableEq Task] [DecidableEq Cv]

/-- In every history without a timed wait the wakeup of every task is situated.
No wait is popped twice or ends twice, the waits that ended were popped, and a
popped wait that has not ended is the one its task is in and can still end. -/
theorem untimed_wakeups_conserved (memory : Cv → Int → Waiter Task)
    {history : List (Move (State Task Cv) (Event Task Cv))} {now : State Task Cv}
    (trace : Trace Steps (boot memory) history now)
    (untimed : ∀ move ∈ history, move.label.untimed = true) :
    (∀ t, Situated now t) ∧
      (history.foldl Wakes.record Wakes.empty).popped.Nodup ∧
      (history.foldl Wakes.record Wakes.empty).ended.Nodup ∧
      (history.foldl Wakes.record Wakes.empty).ended ⊆
        (history.foldl Wakes.record Wakes.empty).popped ∧
      ∀ t stamp, (t, stamp) ∈ (history.foldl Wakes.record Wakes.empty).popped →
        (t, stamp) ∉ (history.foldl Wakes.record Wakes.empty).ended →
          (∃ cv, (now.pc t).registered = some (cv, stamp)) ∧ Ends now t stamp := by
  have run : ((Wakeups now ∧ Untimed now) ∧
      SettledIn (history.foldl Wakes.record Wakes.empty) now) ∧
      Along Wakes.record (fun _ _ => True) Wakes.empty history := by
    refine observed_invariant (fun wakes s => (Wakeups s ∧ Untimed s) ∧ SettledIn wakes s)
      (fun _ move => move.label.untimed = true)
      ⟨⟨boot_wakeups memory, fun _ => rfl⟩, boot_settled memory⟩ ?_ (fun _ _ _ _ _ _ _ => trivial)
      trace (along_of_forall _ untimed)
    rintro wakes before label after ⟨⟨wakeups, quiet⟩, settled⟩ taken allowed
    have effect := effect_of_step taken
    exact ⟨⟨effect_wakeups (prompt_of_untimed quiet label) wakeups effect,
      effect_untimed quiet allowed effect⟩, effect_settled wakeups quiet settled effect⟩
  obtain ⟨⟨⟨⟨place, located, -⟩, quiet⟩, settled⟩, -⟩ := run
  refine ⟨situated_of_located located quiet, settled.once, settled.ended.1, settled.ended.2, ?_⟩
  intro t stamp popped unended
  have owed := (settled.owed t stamp).mpr ⟨popped, unended⟩
  refine ⟨?_, owed_ends located quiet owed⟩
  obtain ⟨cv, inside, -⟩ := owed
  exact ⟨cv, inside⟩

/-- A wait that is signalled before it unlocks, and a second wait that a
broadcast has popped and not signalled yet. -/
def signalThenBroadcast : List (Event Bool Bool) :=
  [.wait false true, .enqueue false, .signal true true, .send true, .unlock false, .wake false,
    .relock false, .wait false false, .enqueue false, .broadcast true false, .next true]

theorem second_wait_can_still_end :
    ∃ history now,
      Trace Steps (boot fun _ : Bool => blank ()) history now ∧
      (history.foldl Wakes.record Wakes.empty).popped = [(false, 0), (false, 1)] ∧
      (history.foldl Wakes.record Wakes.empty).ended = [(false, 0)] ∧
      Situated now false ∧ Ends now false 1 := by
  have done : ((follow step [] (boot fun _ : Bool => blank ()) signalThenBroadcast).map fun out =>
      (decide (∀ move ∈ out.1, move.label.untimed = true),
        (out.1.foldl Wakes.record Wakes.empty).popped,
        (out.1.foldl Wakes.record Wakes.empty).ended)) =
      some (true, [(false, 0), (false, 1)], [(false, 0)]) := by
    decide +kernel
  obtain ⟨⟨history, now⟩, followed, checks⟩ := Option.map_eq_some_iff.mp done
  obtain ⟨untimed, popped, ended⟩ : _ ∧ _ ∧ _ := by simpa using checks
  have trace : Trace Steps (boot fun _ : Bool => blank ()) history now := follow_trace .nil followed
  obtain ⟨situated, -, -, -, ends⟩ :=
    untimed_wakeups_conserved _ trace (by simpa using untimed)
  refine ⟨history, now, trace, popped, ended, situated false, (ends false 1 ?_ ?_).2⟩
  · simp [popped]
  · simp [ended]

end Netstack.CondVar
