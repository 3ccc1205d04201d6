import Mathlib.Data.Fintype.Basic
import Mathlib.Logic.Relation
import Netstack.Wakeup

/-!
What `osal_cv_timedwait` returns. An onlooker writes down the number of every
entry a signal or a broadcast pops and of every entry a timed wait takes off the
ring itself. The wait decides on its timeout without the guard, so the book can
show a pop for a wait that reports a timeout; in a prompt history it cannot.
-/

namespace Netstack.CondVar

open Transition WaiterRing

variable {Task Cv : Type}

structure Log where
  popped : List Nat
  cancelled : List Nat

def Log.empty : Log := ⟨[], []⟩

/-- The entry a wait that timed out finds as its own. -/
def withdrawn [DecidableEq Task] (s : State Task Cv) : Event Task Cv → Option (Waiter Task)
  | .remove t =>
      match s.pc t with
      | .timedRemove w => (queue (s.cvs w.cv)).find? (isMine t)
      | _ => none
  | _ => none

def Log.record [DecidableEq Task] (log : Log) (move : Move (State Task Cv) (Event Task Cv)) :
    Log where
  popped := log.popped ++ ((popping move.before move.label).map Waiter.stamp).toList
  cancelled := log.cancelled ++ ((withdrawn move.before move.label).map Waiter.stamp).toList

/-- The number and the result of the timed wait that returns. -/
def timedResult (s : State Task Cv) : Event Task Cv → Option (Nat × Int)
  | .relock t =>
      match s.pc t with
      | .timedRelock stamp rv => some (stamp, rv)
      | _ => none
  | _ => none

/-- A timed wait that was popped returns zero, and one that reports a timeout
has removed its own entry. -/
def TimedReturn (log : Log) (move : Move (State Task Cv) (Event Task Cv)) : Prop :=
  ∀ call ∈ timedResult move.before move.label,
    (call.1 ∈ log.popped → call.2 = 0) ∧ (call.2 = etimedout → call.1 ∈ log.cancelled)

def Pc.stamp : Pc Task Cv → Option Nat
  | .timedRelock stamp _ => some stamp
  | pc => pc.registered.map Prod.snd

structure Ledger (log : Log) (pc : Task → Pc Task Cv) (cvs : Cv → OsalCv (Waiter Task))
    (next : Nat) : Prop where
  bounded : ∀ t stamp, (pc t).stamp = some stamp → stamp < next
  unique : ∀ t u stamp, (pc t).stamp = some stamp → (pc u).stamp = some stamp → t = u
  popped : ∀ stamp ∈ log.popped, stamp < next
  waiting : ∀ cv, ∀ w ∈ queue (cvs cv), w.stamp ∉ log.popped
  returning : ∀ t stamp rv, pc t = .timedRelock stamp rv →
    rv = 0 ∨ (stamp ∈ log.cancelled ∧ stamp ∉ log.popped)

section Ledger

variable {log : Log} {pc : Task → Pc Task Cv} {cvs : Cv → OsalCv (Waiter Task)} {next : Nat}
variable {t : Task} {target : Pc Task Cv}

theorem stamp_of_registered {pc : Pc Task Cv} {cv : Cv} {stamp : Nat}
    (inside : pc.registered = some (cv, stamp)) : pc.stamp = some stamp := by
  cases pc <;> simp_all [Pc.stamp, Pc.registered]

theorem Ledger.cancel [DecidableEq Cv] (ledger : Ledger log pc cvs next) {cv : Cv}
    {ring : OsalCv (Waiter Task)} (fewer : queue ring ⊆ queue (cvs cv)) (stamps : List Nat) :
    Ledger { log with cancelled := log.cancelled ++ stamps } pc (Function.update cvs cv ring)
      next := by
  refine ⟨ledger.bounded, ledger.unique, ledger.popped, ?_, ?_⟩
  · rw [Function.forall_update_iff cvs fun _ ring => ∀ v ∈ queue ring, v.stamp ∉ log.popped]
    exact ⟨fun v member => ledger.waiting cv v (fewer member), fun other _ => ledger.waiting other⟩
  · intro u stamp rv at_
    rcases ledger.returning u stamp rv at_ with zero | ⟨cancelled, early⟩
    · exact .inl zero
    · exact .inr ⟨List.mem_append_left _ cancelled, early⟩

/-- A pop writes down the number of a task that still waits; no other entry and
no task on its way back has that number. -/
theorem Ledger.pop [DecidableEq Cv] (ledger : Ledger log pc cvs next) {cv : Cv} {w : Waiter Task}
    {ring : OsalCv (Waiter Task)} (split : queue (cvs cv) = w :: queue ring)
    (entries : ∀ other, ∀ w ∈ queue (cvs other),
      (pc w.task).registered = some (other, w.stamp))
    (distinct : ((queue (cvs cv)).map Waiter.task).Nodup) :
    Ledger { log with popped := log.popped ++ [w.stamp] } pc (Function.update cvs cv ring)
      next := by
  have head : w ∈ queue (cvs cv) := by
    rw [split]
    exact List.mem_cons_self
  have mine := entries cv w head
  have numbered := stamp_of_registered mine
  have others : ∀ other, ∀ v ∈ queue (cvs other), v.task ≠ w.task → v.stamp ≠ w.stamp := by
    intro other v member apart same
    have has := stamp_of_registered (entries other v member)
    rw [same] at has
    exact apart (ledger.unique _ _ _ has numbered)
  have unpopped : ∀ other, ∀ v ∈ queue (cvs other), v.task ≠ w.task →
      v.stamp ∉ log.popped ++ [w.stamp] := by
    intro other v member apart early
    rcases List.mem_append.mp early with earlier | now
    · exact ledger.waiting other v member earlier
    · exact others other v member apart (List.mem_singleton.mp now)
  refine ⟨ledger.bounded, ledger.unique, ?_, ?_, ?_⟩
  · intro stamp member
    rcases List.mem_append.mp member with earlier | now
    · exact ledger.popped stamp earlier
    · rw [List.mem_singleton.mp now]
      exact ledger.bounded _ _ numbered
  · rw [Function.forall_update_iff cvs fun _ ring => ∀ v ∈ queue ring, v.stamp ∉ _]
    rw [split, List.map_cons, List.nodup_cons] at distinct
    constructor
    · intro v member
      refine unpopped cv v ?_ ?_
      · rw [split]
        exact List.mem_cons_of_mem _ member
      · intro same
        rw [← same] at distinct
        exact distinct.1 (List.mem_map.mpr ⟨v, member, rfl⟩)
    · intro other apart v member
      refine unpopped other v member ?_
      intro same
      have there := entries other v member
      rw [same, mine] at there
      exact apart (congrArg Prod.fst (Option.some.inj there)).symm
  · intro u stamp rv at_
    rcases ledger.returning u stamp rv at_ with zero | ⟨cancelled, early⟩
    · exact .inl zero
    · refine .inr ⟨cancelled, ?_⟩
      intro member
      rcases List.mem_append.mp member with earlier | now
      · exact early earlier
      · -- The numbers agree only if the returning task is the popped one.
        have has : (pc u).stamp = some w.stamp := by
          rw [at_, ← List.mem_singleton.mp now]
          rfl
        obtain rfl := ledger.unique _ _ _ has numbered
        rw [at_] at mine
        cases mine

variable [DecidableEq Task]

/-- The task keeps its number or drops it. -/
theorem Ledger.goto (ledger : Ledger log pc cvs next)
    (same : target.stamp = none ∨ target.stamp = (pc t).stamp)
    (returning : ∀ stamp rv, target = .timedRelock stamp rv →
      rv = 0 ∨ (stamp ∈ log.cancelled ∧ stamp ∉ log.popped)) :
    Ledger log (Function.update pc t target) cvs next := by
  have kept : ∀ u stamp, (Function.update pc t target u).stamp = some stamp →
      (pc u).stamp = some stamp := by
    intro u stamp has
    by_cases mine : u = t
    · subst mine
      rw [Function.update_self] at has
      rcases same with ended | kept
      · rw [ended] at has
        cases has
      · rw [← kept]
        exact has
    · rwa [Function.update_of_ne mine] at has
  refine ⟨?_, ?_, ledger.popped, ledger.waiting, ?_⟩
  · intro u stamp has
    exact ledger.bounded u stamp (kept u stamp has)
  · intro u v stamp hasU hasV
    exact ledger.unique u v stamp (kept u stamp hasU) (kept v stamp hasV)
  · intro u stamp rv at_
    by_cases mine : u = t
    · subst mine
      rw [Function.update_self] at at_
      exact returning stamp rv at_
    · rw [Function.update_of_ne mine] at at_
      exact ledger.returning u stamp rv at_

/-- A step to a place outside any wait. -/
theorem Ledger.leave (ledger : Ledger log pc cvs next) (ended : target.stamp = none) :
    Ledger log (Function.update pc t target) cvs next := by
  refine ledger.goto (.inl ended) ?_
  rintro stamp rv rfl
  cases ended

/-- A step inside a wait that has registered. -/
theorem Ledger.stay (ledger : Ledger log pc cvs next) {cv : Cv} {stamp : Nat}
    (before : (pc t).registered = some (cv, stamp)) (after : target.registered = some (cv, stamp)) :
    Ledger log (Function.update pc t target) cvs next := by
  refine ledger.goto (.inr ?_) ?_
  · rw [stamp_of_registered before, stamp_of_registered after]
  · rintro number rv rfl
    cases after

theorem Ledger.enter [DecidableEq Cv] (ledger : Ledger log pc cvs next) {cv : Cv}
    {ring : OsalCv (Waiter Task)}
    (appended : queue ring = queue (cvs cv) ++ [⟨t, sigfSingle, next⟩])
    (registered : target.registered = some (cv, next)) :
    Ledger log (Function.update pc t target) (Function.update cvs cv ring) (next + 1) := by
  have old : ∀ u stamp, u ≠ t → (Function.update pc t target u).stamp = some stamp →
      (pc u).stamp = some stamp ∧ stamp < next := by
    intro u stamp others has
    rw [Function.update_of_ne others] at has
    exact ⟨has, ledger.bounded u stamp has⟩
  have own : ∀ stamp, (Function.update pc t target t).stamp = some stamp → stamp = next := by
    intro stamp has
    rw [Function.update_self, stamp_of_registered registered] at has
    cases has
    rfl
  refine ⟨?_, ?_, ?_, ?_, ?_⟩
  · intro u stamp has
    by_cases mine : u = t
    · rw [mine] at has
      rw [own stamp has]
      exact Nat.lt_succ_self next
    · exact Nat.lt_succ_of_lt (old u stamp mine has).2
  · intro u v stamp hasU hasV
    by_cases mineU : u = t
    · by_cases mineV : v = t
      · rw [mineU, mineV]
      · rw [mineU] at hasU
        have fresh := (old v stamp mineV hasV).2
        rw [own stamp hasU] at fresh
        exact absurd fresh (Nat.lt_irrefl next)
    · by_cases mineV : v = t
      · rw [mineV] at hasV
        have fresh := (old u stamp mineU hasU).2
        rw [own stamp hasV] at fresh
        exact absurd fresh (Nat.lt_irrefl next)
      · exact ledger.unique u v stamp (old u stamp mineU hasU).1 (old v stamp mineV hasV).1
  · intro stamp member
    exact Nat.lt_succ_of_lt (ledger.popped stamp member)
  · rw [Function.forall_update_iff cvs fun _ ring => ∀ w ∈ queue ring, w.stamp ∉ log.popped]
    refine ⟨?_, fun other _ => ledger.waiting other⟩
    intro w member
    rw [appended] at member
    rcases List.mem_append.mp member with inside | last
    · exact ledger.waiting cv w inside
    · rw [List.mem_singleton.mp last]
      intro early
      exact absurd (ledger.popped next early) (Nat.lt_irrefl next)
  · intro u stamp rv at_
    by_cases mine : u = t
    · subst mine
      rw [Function.update_self] at at_
      rw [at_] at registered
      cases registered
    · rw [Function.update_of_ne mine] at at_
      exact ledger.returning u stamp rv at_

end Ledger

section Steps

variable {log : Log} {s s' : State Task Cv} {e : Event Task Cv} {t : Task}

theorem record_quiet [DecidableEq Task] (unpopped : popping s e = none)
    (kept : withdrawn s e = none) : log.record ⟨s, e, s'⟩ = log := by
  simp [Log.record, unpopped, kept]

theorem record_popped [DecidableEq Task] {w : Waiter Task} (taken : popping s e = some w)
    (kept : withdrawn s e = none) :
    log.record ⟨s, e, s'⟩ = { log with popped := log.popped ++ [w.stamp] } := by
  simp [Log.record, taken, kept]

theorem record_withdrawn [DecidableEq Task] {w : Waiter Task} (unpopped : popping s e = none)
    (own : withdrawn s e = some w) :
    log.record ⟨s, e, s'⟩ = { log with cancelled := log.cancelled ++ [w.stamp] } := by
  simp [Log.record, unpopped, own]

def LedgerIn (log : Log) (s : State Task Cv) : Prop := Ledger log s.pc s.cvs s.nextStamp

theorem boot_ledger (memory : Cv → Int → Waiter Task) : LedgerIn Log.empty (boot memory) := by
  refine ⟨?_, ?_, ?_, ?_, ?_⟩ <;> simp [boot, Log.empty, Pc.stamp, Pc.registered, new_queue]

theorem Located.entries {place : Task → Place Task Cv} (located : LocatedIn place s) :
    ∀ cv, ∀ w ∈ queue (s.cvs cv), (s.pc w.task).registered = some (cv, w.stamp) := by
  intro cv w member
  have placed := Located.entry located member
  have known := located.known w.task
  rw [placed] at known
  exact known

theorem LedgerIn.popped [DecidableEq Cv] {place : Task → Place Task Cv} (ledger : LedgerIn log s)
    (located : LocatedIn place s) {cv : Cv} (some_ : 0 < (s.cvs cv).count) :
    Ledger { log with popped := log.popped ++ [(pop (s.cvs cv)).1.stamp] } s.pc
      (Function.update s.cvs cv (pop (s.cvs cv)).2) s.nextStamp :=
  Ledger.pop ledger (pop_queue (located.tidy cv).sound some_) (Located.entries located)
    (located.tidy cv).nodup

theorem LocatedIn.find [DecidableEq Task] {place : Task → Place Task Cv}
    (located : LocatedIn place s) {cv : Cv} {w : Waiter Task} (member : w ∈ queue (s.cvs cv)) :
    (queue (s.cvs cv)).find? (isMine w.task) = some w := by
  have mask := (located.tidy cv).masks w member
  cases found : (queue (s.cvs cv)).find? (isMine w.task) with
  | none =>
      have missing := List.find?_eq_none.mp found w member
      simp [isMine, mask] at missing
  | some v =>
      have same : v.task = w.task ∧ v.sigmask = sigfSingle := by
        simpa [isMine] using List.find?_some found
      have first := Located.entry located (List.mem_of_find?_eq_some found)
      rw [same.1, Located.entry located member] at first
      injection first with _ number
      rw [Waiter.ext same.1 (same.2.trans mask.symm) number.symm]

theorem effect_ledger [DecidableEq Task] [DecidableEq Cv] (wakeups : Wakeups s)
    (ledger : LedgerIn log s) (effect : Effect s e s') : LedgerIn (log.record ⟨s, e, s'⟩) s' := by
  obtain ⟨place, located, timely⟩ := wakeups
  cases effect with
  | waited pc | timedWaited pc | overflowed pc | woken pc bit | relocked pc | timedRelocked pc
  | guardTaken pc free =>
      rw [record_quiet rfl rfl]
      exact ledger.leave rfl
  | sent pc | broadcastSent pc =>
      rw [record_quiet rfl rfl, located.signal (by rw [pc]; rfl)]
      exact ledger.leave rfl
  | unlocked pc | timedUnlocked pc | inTime pc more | timedOut pc expired | seen pc bit
  | unseen pc bit =>
      rw [record_quiet rfl rfl]
      exact ledger.stay (by rw [pc]; rfl) rfl
  | @slept t w pc =>
      rw [record_quiet rfl rfl]
      refine ledger.stay (by rw [pc]; rfl) ?_
      rw [Pc.registered, w.slept_cv, w.slept_stamp]
  | enqueued pc free room | timedEnqueued pc free room =>
      rw [record_quiet rfl rfl]
      exact ledger.enter (enqueue_queue (located.tidy _).sound room _) rfl
  | cleared pc =>
      rw [record_quiet rfl rfl]
      refine ledger.goto (.inr (by rw [pc]; rfl)) ?_
      intro stamp rv same
      cases same
      exact .inl rfl
  | @removed t w pc free =>
      have placed := located.entry pc ((timely t).late (by rw [pc]; rfl))
      have member := (located.ring w.cv t w.stamp).mpr placed
      have found : withdrawn s (.remove t) = some ⟨t, sigfSingle, w.stamp⟩ := by
        simp only [withdrawn, pc]
        exact located.find member
      have fewer : queue (cancel (s.cvs w.cv) (isMine t)) ⊆ queue (s.cvs w.cv) := by
        rw [cancel_queue (located.tidy w.cv).sound]
        exact List.eraseP_subset
      rw [record_withdrawn rfl found]
      have numbered : (s.pc t).stamp = some w.stamp := by
        rw [pc]
        rfl
      refine Ledger.goto (ledger.cancel fewer [w.stamp]) (.inr numbered.symm) ?_
      intro stamp rv same
      cases same
      exact .inr ⟨List.mem_append_right _ (List.mem_singleton_self _), ledger.waiting _ _ member⟩
  | @signalled t cv pc free some_ =>
      have taken : popping s (.signal t cv) = some (WaiterRing.pop (s.cvs cv)).1 := by
        simp [popping, some_]
      rw [record_popped taken rfl]
      exact (ledger.popped located some_).leave rfl
  | nobody pc free none_ =>
      rw [record_quiet (by simp [popping, none_]) rfl]
      exact ledger
  | @drawn t cv pc some_ =>
      have taken : popping s (.next t) = some (WaiterRing.pop (s.cvs cv)).1 := by
        simp [popping, pc, some_]
      rw [record_popped taken rfl]
      exact (ledger.popped located some_).leave rfl
  | drained pc none_ =>
      rw [record_quiet (by simp [popping, pc, none_]) rfl]
      exact ledger.leave rfl

theorem timedResult_cases {stamp : Nat} {rv : Int} (returned : timedResult s e = some (stamp, rv)) :
    ∃ t, s.pc t = .timedRelock stamp rv := by
  cases e with
  | relock t =>
      simp only [timedResult] at returned
      split at returned
      · rename_i pc
        cases returned
        exact ⟨t, pc⟩
      · cases returned
  | _ => cases returned

theorem timedReturn_of_ledger (ledger : LedgerIn log s) (label : Event Task Cv)
    (after : State Task Cv) : TimedReturn log ⟨s, label, after⟩ := by
  rintro ⟨stamp, rv⟩ returned
  obtain ⟨t, pc⟩ := timedResult_cases returned
  rcases ledger.returning t stamp rv pc with rfl | ⟨cancelled, early⟩
  · exact ⟨fun _ => rfl, nofun⟩
  · exact ⟨fun popped => absurd popped early, fun _ => cancelled⟩

/-- The number of a timed wait from its enqueue to its return. -/
def Pc.timed : Pc Task Cv → Option Nat
  | .timedUnlock w | .timedTest w | .timedPoll w | .timedClear w | .timedSleep w
  | .timedRemove w => some w.stamp
  | .timedRelock stamp _ => some stamp
  | _ => none

theorem timed_cases {pc : Pc Task Cv} {stamp : Nat} (timed : pc.timed = some stamp) :
    (∃ cv, pc.registered = some (cv, stamp)) ∨ ∃ rv, pc = .timedRelock stamp rv := by
  cases pc with
  | timedUnlock w | timedTest w | timedPoll w | timedClear w | timedSleep w | timedRemove w =>
      cases timed
      exact .inl ⟨w.cv, rfl⟩
  | timedRelock number rv =>
      cases timed
      exact .inr ⟨rv, rfl⟩
  | idle | panicked | waitEnqueue | waitUnlock | waitSignal | waitRelock | timedEnqueue
  | signalSend | broadcastNext | broadcastSend => cases timed

theorem sending_apart {sender : Task} {w : Waiter Task} {place : Cv × Nat}
    (held : (s.pc sender).sending = some w) (inside : (s.pc t).registered = some place) :
    t ≠ sender := by
  rintro rfl
  cases pc : s.pc t <;> simp_all [Pc.sending, Pc.registered]

variable [DecidableEq Task] [DecidableEq Cv]

/-- The steps of some tasks lead `s` to a state where the wait returns zero. -/
def ReturnsZero (s : State Task Cv) (t : Task) (stamp : Nat) : Prop :=
  ∃ after, Relation.ReflTransGen (fun s s' => ∃ e, step s e = some s') s after ∧
    after.pc t = .timedRelock stamp 0

theorem ReturnsZero.step {stamp : Nat} (taken : CondVar.step s e = some s')
    (rest : ReturnsZero s' t stamp) : ReturnsZero s t stamp := by
  obtain ⟨after, reached, returned⟩ := rest
  exact ⟨after, .head ⟨e, taken⟩ reached, returned⟩

theorem clear_returns {w : TimedWait Cv} (pc : s.pc t = .timedClear w) :
    ReturnsZero s t w.stamp := by
  have taken : step s (.clear t) =
      some ((s.setSingle t false).goto t (.timedRelock w.stamp 0)) := by
    simp only [step, pc]
  exact .step taken ⟨_, .refl, by simp [State.goto]⟩

theorem poll_returns {w : TimedWait Cv} (pc : s.pc t = .timedPoll w) (bit : s.single t = true) :
    ReturnsZero s t w.stamp := by
  have taken : step s (.poll t) = some (s.goto t (.timedClear w)) := by
    simp only [step, pc, bit, if_true]
  exact .step taken (clear_returns (by simp [State.goto]))

theorem test_returns {w : TimedWait Cv} (pc : s.pc t = .timedTest w) (bit : s.single t = true)
    (more : w.elapsed < w.timeout) : ReturnsZero s t w.stamp := by
  have taken : step s (.test t) = some (s.goto t (.timedPoll w)) := by
    simp only [step, pc, more, if_true]
  exact .step taken (poll_returns (by simp [State.goto]) bit)

/-- A wait whose bit is set and that polls again returns zero by its own steps. -/
theorem signalled_returns {cv : Cv} {stamp : Nat} (inside : (s.pc t).registered = some (cv, stamp))
    (timed : (s.pc t).timed = some stamp) (ahead : (s.pc t).pollAhead = true)
    (bit : s.single t = true) : ReturnsZero s t stamp := by
  cases pc : s.pc t with
  | timedUnlock w =>
      rw [pc] at timed ahead
      cases timed
      have taken : step s (.unlock t) = some (s.goto t (.timedTest w)) := by
        simp only [step, pc]
      refine .step taken (test_returns (by simp [State.goto]) bit ?_)
      simpa [Pc.pollAhead] using ahead
  | timedTest w =>
      rw [pc] at timed ahead
      cases timed
      exact test_returns pc bit (by simpa [Pc.pollAhead] using ahead)
  | timedPoll w =>
      rw [pc] at timed
      cases timed
      exact poll_returns pc bit
  | timedClear w =>
      rw [pc] at timed
      cases timed
      exact clear_returns pc
  | timedSleep w =>
      rw [pc] at timed ahead
      cases timed
      have taken : step s (.sleep t) = some (s.goto t (.timedTest w.slept)) := by
        simp only [step, pc]
      have rest := test_returns (s := s.goto t (.timedTest w.slept)) (t := t) (w := w.slept)
        (by simp [State.goto]) bit (by simpa [Pc.pollAhead] using ahead)
      rw [w.slept_stamp] at rest
      exact .step taken rest
  | timedRemove w =>
      rw [pc] at ahead
      cases ahead
  | idle | panicked | waitEnqueue | waitUnlock | waitSignal | waitRelock | timedEnqueue
  | signalSend | broadcastNext | broadcastSend =>
      rw [pc] at timed
      cases timed
  | timedRelock stamp rv =>
      rw [pc] at inside
      cases inside

theorem send_taken {sender : Task} {stamp : Nat}
    (held : (s.pc sender).sending = some ⟨t, sigfSingle, stamp⟩) :
    ∃ pc, step s (.send sender) = some ((s.setSingle t true).goto sender pc) := by
  cases pc : s.pc sender with
  | signalSend w =>
      rw [pc] at held
      cases held
      exact ⟨.idle, by simp only [step, pc, signal_masked]⟩
  | broadcastSend other w =>
      rw [pc] at held
      cases held
      exact ⟨.broadcastNext other, by simp only [step, pc, signal_masked]⟩
  | _ =>
      rw [pc] at held
      cases held

theorem sent_returns {sender : Task} {cv : Cv} {stamp : Nat}
    (held : (s.pc sender).sending = some ⟨t, sigfSingle, stamp⟩)
    (inside : (s.pc t).registered = some (cv, stamp)) (timed : (s.pc t).timed = some stamp)
    (ahead : (s.pc t).pollAhead = true) : ReturnsZero s t stamp := by
  have apart := sending_apart held inside
  obtain ⟨pc, taken⟩ := send_taken held
  have same : ((s.setSingle t true).goto sender pc).pc t = s.pc t := by
    simp [State.goto, State.setSingle, apart]
  rw [← same] at inside timed ahead
  refine .step taken (signalled_returns inside timed ahead ?_)
  simp [State.goto, State.setSingle]

theorem popped_returns {stamp : Nat} (wakeups : Wakeups s) (ledger : LedgerIn log s)
    (timed : (s.pc t).timed = some stamp) (popped : stamp ∈ log.popped) :
    ReturnsZero s t stamp := by
  obtain ⟨place, located, timely⟩ := wakeups
  rcases timed_cases timed with ⟨cv, inside⟩ | ⟨rv, returning⟩
  · have known : (place t).registered = some (cv, stamp) := by
      rw [← located.known t]
      exact inside
    have ahead : (∀ cv' stamp', place t ≠ .ring cv' stamp') → (s.pc t).pollAhead = true := by
      intro elsewhere
      by_contra late
      obtain ⟨cv', stamp', placed⟩ := (timely t).late (by simpa using late)
      exact elsewhere cv' stamp' placed
    cases placed : place t with
    | away => rw [placed] at known; cases known
    | ring cv' stamp' =>
        rw [placed] at known
        cases known
        have member := (located.ring cv t stamp).mpr placed
        exact absurd popped (ledger.waiting cv _ member)
    | flight sender cv' stamp' =>
        rw [placed] at known ahead
        cases known
        have held := (located.flight sender ⟨t, sigfSingle, stamp⟩).mpr ⟨rfl, cv, placed⟩
        exact sent_returns held inside timed (ahead nofun)
    | bit cv' stamp' =>
        rw [placed] at ahead
        have lit := (located.bit t).mpr ⟨cv', stamp', placed⟩
        exact signalled_returns inside timed (ahead nofun) lit
  · rcases ledger.returning t stamp rv returning with rfl | ⟨-, early⟩
    · exact ⟨s, .refl, returning⟩
    · exact absurd popped early

end Steps

variable [DecidableEq Task] [DecidableEq Cv]

/-- In every history whose steps are prompt, a timed wait that was popped
returns zero, and one that returns a timeout took its own entry off the ring.
A popped wait is never left behind: from wherever the history stands, the Signal
of its sender and its own steps end it with zero. -/
theorem prompt_timed_waits_return (memory : Cv → Int → Waiter Task)
    {history : List (Move (State Task Cv) (Event Task Cv))} {now : State Task Cv}
    (trace : Trace Steps (boot memory) history now)
    (prompt : ∀ move ∈ history, Prompt move.before move.label) :
    Along Log.record TimedReturn Log.empty history ∧
      ∀ t stamp, (now.pc t).timed = some stamp →
        stamp ∈ (history.foldl Log.record Log.empty).popped → ReturnsZero now t stamp := by
  have run : (Wakeups now ∧ LedgerIn (history.foldl Log.record Log.empty) now) ∧
      Along Log.record TimedReturn Log.empty history := by
    refine observed_invariant (fun log s => Wakeups s ∧ LedgerIn log s)
      (fun _ move => Prompt move.before move.label)
      ⟨boot_wakeups memory, boot_ledger memory⟩ ?_ ?_ trace (along_of_forall _ prompt)
    · rintro log before label after ⟨wakeups, ledger⟩ taken guard
      have effect := effect_of_step taken
      exact ⟨effect_wakeups guard wakeups effect, effect_ledger wakeups ledger effect⟩
    · rintro log before label after ⟨wakeups, ledger⟩ taken guard
      exact timedReturn_of_ledger ledger label after
  obtain ⟨⟨wakeups, ledger⟩, along⟩ := run
  exact ⟨along, fun t stamp timed popped => popped_returns wakeups ledger timed popped⟩

instance [Fintype Task] (s : State Task Cv) (e : Event Task Cv) : Decidable (Prompt s e) :=
  inferInstanceAs (Decidable (_ ∧ _))

instance (log : Log) (move : Move (State Task Cv) (Event Task Cv)) :
    Decidable (TimedReturn log move) :=
  inferInstanceAs (Decidable (∀ _ ∈ timedResult _ _, _))

def blank : Unit → Int → Waiter Bool := fun _ _ => ⟨false, 0, 0⟩

/-- One wait of 20 ms that is signalled while it sleeps, and one that nobody signals. -/
def signalledThenLate : List (Event Bool Unit) :=
  [.timedwait false () 20000000, .enqueue false, .unlock false, .test false, .poll false,
    .signal true (), .send true, .sleep false, .test false, .poll false, .clear false,
    .relock false, .timedwait false () 0, .enqueue false, .unlock false, .test false,
    .remove false, .relock false]

theorem signalled_wait_returns_zero :
    ∃ history now, Trace Steps (boot blank) history now ∧
      (∀ move ∈ history, Prompt move.before move.label) ∧
      history.filterMap (fun move => timedResult move.before move.label) =
        [(0, 0), (1, etimedout)] ∧
      (history.foldl Log.record Log.empty).popped = [0] ∧
      Along Log.record TimedReturn Log.empty history := by
  have done : ((follow step [] (boot blank) signalledThenLate).map fun out =>
      (decide (∀ move ∈ out.1, Prompt move.before move.label),
        out.1.filterMap (fun move => timedResult move.before move.label),
        (out.1.foldl Log.record Log.empty).popped)) =
      some (true, [(0, 0), (1, etimedout)], [0]) := by
    decide +kernel
  obtain ⟨⟨history, now⟩, followed, checks⟩ := Option.map_eq_some_iff.mp done
  obtain ⟨prompt, results, popped⟩ : _ ∧ _ ∧ _ := by simpa using checks
  have trace : Trace Steps (boot blank) history now := follow_trace .nil followed
  refine ⟨history, now, trace, ?_, results, popped, ?_⟩
  · simpa using prompt
  · exact (prompt_timed_waits_return blank trace (by simpa using prompt)).1

/-- A wait of zero nanoseconds is popped between its test and its removal. -/
def signalAfterLastPoll : List (Event Bool Unit) :=
  [.timedwait false () 0, .enqueue false, .unlock false, .test false, .signal true (),
    .send true, .remove false, .relock false]

theorem late_signal_is_absorbed :
    ∃ history now, Trace Steps (boot blank) history now ∧
      history.filterMap (fun move => timedResult move.before move.label) = [(0, etimedout)] ∧
      (history.foldl Log.record Log.empty).popped = [0] ∧
      ¬ Along Log.record TimedReturn Log.empty history := by
  have done : ((follow step [] (boot blank) signalAfterLastPoll).map fun out =>
      (out.1.filterMap (fun move => timedResult move.before move.label),
        (out.1.foldl Log.record Log.empty).popped,
        decide (Along Log.record TimedReturn Log.empty out.1))) =
      some ([(0, etimedout)], [0], false) := by
    decide +kernel
  obtain ⟨⟨history, now⟩, followed, checks⟩ := Option.map_eq_some_iff.mp done
  obtain ⟨results, popped, absorbed⟩ : _ ∧ _ ∧ _ := by simpa using checks
  exact ⟨history, now, follow_trace .nil followed, results, popped, absorbed⟩

end Netstack.CondVar
