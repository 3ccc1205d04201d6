import Netstack.OsalClock
import Netstack.TimedReturn

/-!
The timed waits of `osal_lock.c` against the time that passes. A timed wait reads no
clock: it counts its sleeps of 10 ms in a variable of 64 bits, whose wraps are kept. Each
of these sleeps is a call of `osal_sleep_ns`, as is the hypercall `rumpuser_clock_sleep`,
and ends at the earliest when its nap may. Tasks act one step at a time, and any time may
pass between two steps.
-/

namespace Netstack.OsalClock

open CondVar Transition

variable {Task Cv : Type}

structure Clocked (Task Cv : Type) where
  core : State Task Cv
  now : Nat
  /-- When the nap that a task is in may end. -/
  due : Task → Option Nat

def started (memory : Cv → Int → Waiter Task) : Clocked Task Cv := ⟨boot memory, 0, fun _ => none⟩

inductive Deed (Task Cv : Type) where
  | core (e : Event Task Cv)
  -- The poll of a timed wait calls `osal_sleep_ns`. The wait goes on with `core (.sleep t)`.
  | doze (t : Task) (slot : Bool)
  | clockSleep (t : Task) (sec : Int64) (nsec : Int32) (slot : Bool)
  | clockReturn (t : Task)
  | pass (ns : Nat)

/-- The call of a task that enters `rumpuser_cv_timedwait`. -/
def rumpuserCvTimedwait (t : Task) (cv : Cv) (sec nsec : Int64) : Deed Task Cv :=
  .core (.timedwait t cv (shimNs sec nsec))

def actor : Event Task Cv → Task
  | .wait t _ | .timedwait t _ _ | .enqueue t | .unlock t | .wake t | .test t | .poll t
  | .clear t | .sleep t | .remove t | .relock t | .signal t _ | .broadcast t _ | .next t
  | .send t => t

/-- What an onlooker knows of the timed wait or the clock sleep that a task is in, or was
in last: what it was asked for, when, and how often it has slept, and how often with a slot. -/
structure Watch where
  timeout : UInt64 := 0
  called : Nat := 0
  sleeps : Nat := 0
  slotted : Nat := 0

/-- The time that the sleeps were asked to take. -/
def Watch.asked (watch : Watch) : Nat := watch.sleeps * pollNs.toNat

def Watch.slept (watch : Watch) (slot : Bool) : Watch :=
  { watch with
    sleeps := watch.sleeps + 1
    slotted := watch.slotted + if slot then 1 else 0 }

/-- The last timeout that the count of elapsed nanoseconds reaches without a wrap. -/
def longest : Nat := 18446744073700000000

/-- A timed wait of the timeout in `watch` may return `rv` now. -/
structure InTime (watch : Watch) (rv : Int) (now : Nat) : Prop where
  polls : (rv = 0 ∧ watch.asked < watch.timeout.toNat) ∨
    (rv = etimedout ∧ watch.timeout.toNat ≤ watch.asked ∧
      watch.asked < watch.timeout.toNat + pollNs.toNat)
  lasted : watch.called + watch.slotted * pollNs.toNat ≤ now
  waited : rv = etimedout → watch.slotted = watch.sleeps →
    watch.called + watch.timeout.toNat ≤ now

/-- A clock sleep has taken its time, in whole microseconds and at least one. -/
def Rested (watch : Watch) (now : Nat) : Prop :=
  watch.slotted = 1 → watch.timeout.toNat < 4294967296000000000 →
    watch.called + max 1 (watch.timeout.toNat / 1000) * 1000 ≤ now

/-- What the local variables of a timed wait say of its sleeps. The last of them began
before the timeout. -/
structure Counted (watch : Watch) (w : TimedWait Cv) : Prop where
  timeout : w.timeout = watch.timeout
  elapsed : watch.timeout.toNat ≤ longest → w.elapsed.toNat = watch.asked
  begun : watch.timeout.toNat ≤ longest → watch.asked < watch.timeout.toNat + pollNs.toNat

/-- As long as the sleeps with a slot. -/
structure Lasted (watch : Watch) (now : Nat) : Prop where
  part : watch.slotted ≤ watch.sleeps
  time : watch.called + watch.slotted * pollNs.toNat ≤ now

def PcCounted (watch : Watch) (now : Nat) (due : Option Nat) : Pc Task Cv → Prop
  | .idle => ∀ end_, due = some end_ → Rested watch end_
  | .timedEnqueue _ timeout =>
      watch.timeout = timeout ∧ watch.sleeps = 0 ∧ Lasted watch now
  | .timedUnlock w | .timedTest w => Counted watch w ∧ Lasted watch now
  | .timedPoll w | .timedClear w => Counted watch w ∧ Lasted watch now ∧ w.elapsed < w.timeout
  | .timedSleep w =>
      match due with
      | none => Counted watch w ∧ Lasted watch now ∧ w.elapsed < w.timeout
      | some end_ => Counted watch w.slept ∧ Lasted watch end_
  | .timedRemove w => Counted watch w ∧ Lasted watch now ∧ ¬ w.elapsed < w.timeout
  | .timedRelock _ rv => watch.timeout.toNat ≤ longest → InTime watch rv now
  | _ => True

def AllCounted (known : Task → Watch) (s : Clocked Task Cv) : Prop :=
  ∀ t, PcCounted (known t) s.now (s.due t) (s.core.pc t)

theorem pollNs_toNat : pollNs.toNat = 10000000 := by
  decide

theorem least_poll : (osalSleepNs true pollNs).least = pollNs.toNat := by
  rw [least_request (by rw [pollNs_toNat]; decide), pollNs_toNat]
  rfl

variable {watch : Watch} {w : TimedWait Cv} {now later : Nat}

/-! One task. -/

theorem Counted.in_time (counted : Counted watch w) (more : w.elapsed < w.timeout)
    (short : watch.timeout.toNat ≤ longest) : watch.asked < watch.timeout.toNat := by
  rw [UInt64.lt_iff_toNat_lt, counted.timeout, counted.elapsed short] at more
  exact more

theorem Counted.expired (counted : Counted watch w) (late : ¬ w.elapsed < w.timeout)
    (short : watch.timeout.toNat ≤ longest) : watch.timeout.toNat ≤ watch.asked := by
  rw [UInt64.lt_iff_toNat_lt, counted.timeout, counted.elapsed short] at late
  exact Nat.le_of_not_lt late

theorem counted_start {timeout : UInt64} (called : watch.timeout = timeout)
    (none_ : watch.sleeps = 0) (cv : Cv) (stamp : Nat) :
    Counted watch { cv := cv, stamp := stamp, timeout := timeout } where
  timeout := called.symm
  elapsed := by
    intro short
    rw [Watch.asked, none_, Nat.zero_mul]
    rfl
  begun := by
    intro short
    rw [Watch.asked, none_, Nat.zero_mul, pollNs_toNat]
    omega

-- `longest` is a multiple of a poll, so the sum that first reaches it does not pass it.
theorem asked_fits (before : watch.asked < watch.timeout.toNat)
    (short : watch.timeout.toNat ≤ longest) : watch.asked + pollNs.toNat ≤ longest := by
  rw [Watch.asked, pollNs_toNat] at *
  rw [longest] at *
  omega

theorem Counted.slept (counted : Counted watch w) (more : w.elapsed < w.timeout) (slot : Bool) :
    Counted (watch.slept slot) w.slept := by
  have asked : (watch.slept slot).asked = watch.asked + pollNs.toNat := by
    rw [Watch.asked, Watch.asked, Watch.slept, Nat.succ_mul]
  refine ⟨?_, ?_, ?_⟩
  · rw [w.slept_timeout]
    exact counted.timeout
  · intro short
    have fits := asked_fits (counted.in_time more short) short
    have bound : longest < 2 ^ 64 := by
      simp [longest]
    rw [asked, TimedWait.slept, UInt64.toNat_add, counted.elapsed short,
      Nat.mod_eq_of_lt (Nat.lt_of_le_of_lt fits bound)]
  · intro short
    rw [asked]
    exact Nat.add_lt_add_right (counted.in_time more short) _

theorem Lasted.mono (lasted : Lasted watch now) (le : now ≤ later) : Lasted watch later :=
  ⟨lasted.part, Nat.le_trans lasted.time le⟩

theorem Lasted.slept (lasted : Lasted watch now) (slot : Bool) :
    Lasted (watch.slept slot) (now + (osalSleepNs slot pollNs).least) := by
  have part := lasted.part
  have time := lasted.time
  cases slot with
  | false =>
      refine ⟨?_, Nat.le_trans time (Nat.le_add_right _ _)⟩
      exact Nat.le_trans part (Nat.le_succ _)
  | true =>
      refine ⟨?_, ?_⟩
      · simp only [Watch.slept, if_true]
        omega
      · rw [least_poll]
        simp only [Watch.slept, if_true, Nat.succ_mul]
        omega

theorem InTime.mono {rv : Int} (inTime : InTime watch rv now) (le : now ≤ later) :
    InTime watch rv later :=
  ⟨inTime.polls, Nat.le_trans inTime.lasted le,
    fun out all => Nat.le_trans (inTime.waited out all) le⟩

theorem in_time_woken (counted : Counted watch w) (lasted : Lasted watch now)
    (more : w.elapsed < w.timeout) (short : watch.timeout.toNat ≤ longest) :
    InTime watch 0 now := by
  refine ⟨.inl ⟨rfl, counted.in_time more short⟩, lasted.time, ?_⟩
  intro out
  cases out

theorem in_time_expired (counted : Counted watch w) (lasted : Lasted watch now)
    (late : ¬ w.elapsed < w.timeout) (short : watch.timeout.toNat ≤ longest) :
    InTime watch etimedout now := by
  have expired := counted.expired late short
  refine ⟨.inr ⟨rfl, expired, counted.begun short⟩, lasted.time, ?_⟩
  intro _ all
  have time := lasted.time
  rw [Watch.asked, ← all] at expired
  omega

theorem PcCounted.mono {due : Option Nat} {pc : Pc Task Cv}
    (counted : PcCounted watch now due pc) (le : now ≤ later) : PcCounted watch later due pc := by
  cases pc with
  | timedEnqueue cv timeout => exact ⟨counted.1, counted.2.1, counted.2.2.mono le⟩
  | timedUnlock w | timedTest w => exact ⟨counted.1, counted.2.mono le⟩
  | timedPoll w | timedClear w | timedRemove w =>
      exact ⟨counted.1, counted.2.1.mono le, counted.2.2⟩
  | timedSleep w =>
      cases due with
      | none => exact ⟨counted.1, counted.2.1.mono le, counted.2.2⟩
      | some end_ => exact counted
  | timedRelock stamp rv => exact fun short => (counted short).mono le
  | _ => exact counted

/-! A step. -/

variable [DecidableEq Task] {known known' : Task → Watch} {s s' : Clocked Task Cv} {t : Task}

def Clocked.nap (s : Clocked Task Cv) (t : Task) (nap : Nap) : Clocked Task Cv :=
  { s with due := Function.update s.due t (some (s.now + nap.least)) }

def Clocked.rise (s : Clocked Task Cv) (t : Task) : Clocked Task Cv :=
  { s with due := Function.update s.due t none }

def observe (known : Task → Watch) (move : Move (Clocked Task Cv) (Deed Task Cv)) :
    Task → Watch :=
  match move.label with
  | .core (.timedwait t _ timeout) =>
      Function.update known t { timeout := timeout, called := move.before.now }
  | .doze t slot => Function.update known t ((known t).slept slot)
  | .clockSleep t sec nsec slot =>
      let watch : Watch := { timeout := shimNs sec nsec.toInt64, called := move.before.now }
      Function.update known t (watch.slept slot)
  | _ => known

/-- The result with which a timed wait of the task returns. -/
def returning (s : Clocked Task Cv) (t : Task) : Option Int :=
  match s.core.pc t with
  | .timedRelock _ rv => some rv
  | _ => none

def Punctual (known : Task → Watch) (move : Move (Clocked Task Cv) (Deed Task Cv)) : Prop :=
  match move.label with
  | .core (.relock t) => (known t).timeout.toNat ≤ longest →
      ∀ rv ∈ returning move.before t, InTime (known t) rv move.before.now
  | .clockReturn t => Rested (known t) move.before.now
  | _ => True

/-- Only what a task does itself, and time, touches what is known of it. -/
theorem AllCounted.frame (all : AllCounted known s) (later : s.now ≤ s'.now)
    (others : ∀ u, u ≠ t → known' u = known u ∧ s'.due u = s.due u ∧
      s'.core.pc u = s.core.pc u)
    (mine : PcCounted (known' t) s'.now (s'.due t) (s'.core.pc t)) : AllCounted known' s' := by
  intro u
  by_cases same : u = t
  · rw [same]
    exact mine
  · obtain ⟨watch, due, pc⟩ := others u same
    rw [watch, due, pc]
    exact (all u).mono later

/-- A step of the condition variables moves one task, which is not asleep. -/
theorem AllCounted.goto {after : State Task Cv} {pc : Pc Task Cv} (all : AllCounted known s)
    (awake : s.due t = none) (moved : after.pc = Function.update s.core.pc t pc)
    (counted : PcCounted (known t) s.now none pc) : AllCounted known { s with core := after } := by
  refine all.frame (t := t) (Nat.le_refl _) ?_ ?_
  · intro u other
    refine ⟨rfl, rfl, ?_⟩
    rw [moved]
    exact Function.update_of_ne other ..
  · rw [moved, Function.update_self, awake]
    exact counted

variable [DecidableEq Cv]

/-- The next state, if the task can take the step. -/
def Clocked.step (s : Clocked Task Cv) : Deed Task Cv → Option (Clocked Task Cv)
  | .core (.sleep t) =>
      match s.due t with
      | some due =>
          if due ≤ s.now then
            (CondVar.step s.core (.sleep t)).map fun core => { s.rise t with core := core }
          else none
      | none => none
  | .core e =>
      match s.due (actor e) with
      | some _ => none
      | none => (CondVar.step s.core e).map fun core => { s with core := core }
  | .doze t slot =>
      match s.core.pc t, s.due t with
      | .timedSleep _, none => some (s.nap t (osalSleepNs slot pollNs))
      | _, _ => none
  | .clockSleep t sec nsec slot =>
      match s.core.pc t, s.due t with
      | .idle, none => some (s.nap t (rumpuserClockSleep slot sec nsec))
      | _, _ => none
  | .clockReturn t =>
      match s.core.pc t, s.due t with
      | .idle, some due => if due ≤ s.now then some (s.rise t) else none
      | _, _ => none
  | .pass ns => some { s with now := s.now + ns }

def Runs (s : Clocked Task Cv) (deed : Deed Task Cv) (s' : Clocked Task Cv) : Prop :=
  s.step deed = some s'

inductive Done (s : Clocked Task Cv) : Deed Task Cv → Clocked Task Cv → Prop where
  | core {e : Event Task Cv} {after : State Task Cv} (awake : s.due (actor e) = none)
      (other : ∀ t, e ≠ .sleep t) (effect : Effect s.core e after) :
      Done s (.core e) { s with core := after }
  | woken {t : Task} {w : TimedWait Cv} {end_ : Nat} (pc : s.core.pc t = .timedSleep w)
      (due : s.due t = some end_) (past : end_ ≤ s.now) :
      Done s (.core (.sleep t)) { s.rise t with core := s.core.goto t (.timedTest w.slept) }
  | dozed {t : Task} {slot : Bool} {w : TimedWait Cv} (pc : s.core.pc t = .timedSleep w)
      (awake : s.due t = none) : Done s (.doze t slot) (s.nap t (osalSleepNs slot pollNs))
  | clockSlept {t : Task} {sec : Int64} {nsec : Int32} {slot : Bool} (pc : s.core.pc t = .idle)
      (awake : s.due t = none) :
      Done s (.clockSleep t sec nsec slot) (s.nap t (rumpuserClockSleep slot sec nsec))
  | clockReturned {t : Task} {end_ : Nat} (pc : s.core.pc t = .idle)
      (due : s.due t = some end_) (past : end_ ≤ s.now) : Done s (.clockReturn t) (s.rise t)
  | passed {ns : Nat} : Done s (.pass ns) { s with now := s.now + ns }

theorem done_of_awake {e : Event Task Cv} (other : ∀ t, e ≠ .sleep t)
    (stepped : (match s.due (actor e) with
      | some _ => none
      | none => (CondVar.step s.core e).map fun core => { s with core := core }) = some s') :
    Done s (.core e) s' := by
  split at stepped
  · contradiction
  · rename_i awake
    obtain ⟨after, taken, rfl⟩ := Option.map_eq_some_iff.mp stepped
    exact .core awake other (effect_of_step taken)

theorem done_of_step {deed : Deed Task Cv} (stepped : s.step deed = some s') :
    Done s deed s' := by
  cases deed with
  | core e =>
      cases e with
      | sleep t =>
          simp only [Clocked.step] at stepped
          split at stepped
          · rename_i due asleep
            split_ifs at stepped with past
            obtain ⟨after, taken, rfl⟩ := Option.map_eq_some_iff.mp stepped
            cases effect_of_step taken with
            | slept pc => exact .woken pc asleep past
          · contradiction
      | _ => exact done_of_awake (by rintro _ ⟨⟩) stepped
  | doze t slot =>
      simp only [Clocked.step] at stepped
      split at stepped
      · rename_i pc awake
        cases stepped
        exact .dozed pc awake
      · contradiction
  | clockSleep t sec nsec slot =>
      simp only [Clocked.step] at stepped
      split at stepped
      · rename_i pc awake
        cases stepped
        exact .clockSlept pc awake
      · contradiction
  | clockReturn t =>
      simp only [Clocked.step] at stepped
      split at stepped
      · rename_i due pc asleep
        split_ifs at stepped with past
        cases stepped
        exact .clockReturned pc asleep past
      · contradiction
  | pass ns =>
      cases stepped
      exact .passed

theorem core_counted {e : Event Task Cv} {after : State Task Cv} (all : AllCounted known s)
    (awake : s.due (actor e) = none) (other : ∀ t, e ≠ .sleep t)
    (effect : Effect s.core e after) :
    AllCounted (observe known ⟨s, .core e, { s with core := after }⟩)
      { s with core := after } := by
  have mine := all (actor e)
  rw [awake] at mine
  cases effect with
  | slept => exact absurd rfl (other _)
  | nobody => exact all
  | @timedWaited t cv timeout pc =>
      refine all.frame (t := t) (Nat.le_refl _) ?_ ?_
      · intro u apart
        exact ⟨Function.update_of_ne apart .., rfl, Function.update_of_ne apart ..⟩
      · simp only [observe, State.goto, Function.update_self]
        refine ⟨rfl, rfl, Nat.le_refl _, ?_⟩
        rw [Nat.zero_mul]
        exact Nat.le_refl _
  | waited | overflowed | enqueued | unlocked | woken | signalled | guardTaken | drawn =>
      exact all.goto awake rfl trivial
  | relocked | timedRelocked | drained =>
      refine all.goto awake rfl ?_
      rintro _ ⟨⟩
  | @sent t w pc =>
      have moved : ((s.core.signal w).goto t .idle).pc = Function.update s.core.pc t .idle := by
        rw [State.goto, signal_pc]
      refine all.goto awake moved ?_
      rintro _ ⟨⟩
  | @broadcastSent t cv w pc =>
      have moved : ((s.core.signal w).goto t (.broadcastNext cv)).pc =
          Function.update s.core.pc t (.broadcastNext cv) := by
        rw [State.goto, signal_pc]
      exact all.goto awake moved trivial
  | @timedEnqueued t cv timeout pc =>
      rw [actor, pc] at mine
      exact all.goto awake rfl ⟨counted_start mine.1 mine.2.1 cv _, mine.2.2⟩
  | timedUnlocked pc =>
      rw [actor, pc] at mine
      exact all.goto awake rfl mine
  | inTime pc more | timedOut pc more =>
      rw [actor, pc] at mine
      exact all.goto awake rfl ⟨mine.1, mine.2, more⟩
  | seen pc | unseen pc =>
      rw [actor, pc] at mine
      exact all.goto awake rfl mine
  | cleared pc =>
      rw [actor, pc] at mine
      exact all.goto awake rfl fun short => in_time_woken mine.1 mine.2.1 mine.2.2 short
  | removed pc =>
      rw [actor, pc] at mine
      exact all.goto awake rfl fun short => in_time_expired mine.1 mine.2.1 mine.2.2 short

theorem clock_sleep_rested {sec : Int64} {nsec : Int32} {slot : Bool} (called : Nat) :
    Rested (Watch.slept { timeout := shimNs sec nsec.toInt64, called := called } slot)
      (called + (rumpuserClockSleep slot sec nsec).least) := by
  intro once fits
  cases slot with
  | false => cases once
  | true =>
      have least : (osalSleepNs true (shimNs sec nsec.toInt64)).least = _ := least_request fits
      rw [rumpuserClockSleep, least]
      exact Nat.le_refl _

theorem done_counted {deed : Deed Task Cv} (all : AllCounted known s) (done : Done s deed s') :
    AllCounted (observe known ⟨s, deed, s'⟩) s' := by
  cases done with
  | core awake other effect => exact core_counted all awake other effect
  | @woken t w end_ pc due past =>
      have mine := all t
      rw [pc, due] at mine
      refine all.frame (t := t) (Nat.le_refl _) ?_ ?_
      · intro u other
        exact ⟨rfl, Function.update_of_ne other .., Function.update_of_ne other ..⟩
      · simp only [State.goto, Clocked.rise, Function.update_self]
        exact ⟨mine.1, mine.2.mono past⟩
  | @dozed t slot w pc awake =>
      have mine := all t
      rw [pc, awake] at mine
      refine all.frame (t := t) (Nat.le_refl _) ?_ ?_
      · intro u other
        exact ⟨Function.update_of_ne other .., Function.update_of_ne other .., rfl⟩
      · simp only [observe, Clocked.nap, Function.update_self, pc]
        exact ⟨mine.1.slept mine.2.2 slot, mine.2.1.slept slot⟩
  | @clockSlept t sec nsec slot pc awake =>
      refine all.frame (t := t) (Nat.le_refl _) ?_ ?_
      · intro u other
        exact ⟨Function.update_of_ne other .., Function.update_of_ne other .., rfl⟩
      · simp only [observe, Clocked.nap, Function.update_self, pc]
        rintro _ ⟨⟩
        exact clock_sleep_rested s.now
  | @clockReturned t end_ pc due past =>
      refine all.frame (t := t) (Nat.le_refl _) ?_ ?_
      · intro u other
        exact ⟨rfl, Function.update_of_ne other .., rfl⟩
      · simp only [Clocked.rise, Function.update_self, pc]
        rintro _ ⟨⟩
  | passed => exact fun t => (all t).mono (Nat.le_add_right _ _)

theorem punctual_of_counted {deed : Deed Task Cv} (all : AllCounted known s)
    (done : Done s deed s') : Punctual known ⟨s, deed, s'⟩ := by
  cases done with
  | core awake other effect =>
      cases effect with
      | @timedRelocked t stamp rv pc =>
          intro short result returned
          have mine := all t
          rw [pc] at mine
          rw [returning, pc] at returned
          cases returned
          exact mine short
      | @relocked t pc =>
          intro _ result returned
          rw [returning, pc] at returned
          cases returned
      | _ => trivial
  | @clockReturned t end_ pc due past =>
      have mine := all t
      rw [pc] at mine
      intro once fits
      exact Nat.le_trans (mine end_ due once fits) past
  | _ => trivial

/-- In every interleaving, and whatever time passes when: a timed wait that reports a
timeout has asked for sleeps as long as its timeout and less than a poll longer, and every
poll with a slot took its 10 ms, so that with a slot each time at least the timeout has
passed. One that reports a wakeup has asked for less than its timeout: with a timeout of
zero no wakeup is reported. A clock sleep with a slot takes its time down to a microsecond,
if its seconds fit the request. -/
theorem timed_waits_punctual (memory : Cv → Int → Waiter Task)
    {history : List (Move (Clocked Task Cv) (Deed Task Cv))} {now : Clocked Task Cv}
    (trace : Trace Runs (started memory) history now) :
    Along observe Punctual (fun _ => {}) history ∧
      (∀ (t : Task) (cv : Cv) (sec nsec : Nat), sec < 18446744073 → nsec < 1000000000 →
        ∃ timeout, rumpuserCvTimedwait t cv (Int64.ofNat sec) (Int64.ofNat nsec) =
          .core (.timedwait t cv timeout) ∧
          timeout.toNat = sec * 1000000000 + nsec ∧ timeout.toNat ≤ longest) ∧
      ∀ sec nsec : Nat, nsec < 1000000000 →
        ((rumpuserClockSleep true (Int64.ofNat sec) (Int32.ofNat nsec)).least =
          max 1 ((sec * 1000000000 + nsec) / 1000) * 1000 ↔ sec < 4294967296) := by
  refine ⟨?_, ?_, fun sec nsec nanos => clock_sleep_exact_iff nanos⟩
  · refine (observed_invariant AllCounted (fun _ _ => True) ?_ ?_ ?_ trace
      (along_of_forall _ fun _ _ => trivial)).2
    · rintro t _ ⟨⟩
    · intro known before label after all taken _
      exact done_counted all (done_of_step taken)
    · intro known before label after all taken _
      exact punctual_of_counted all (done_of_step taken)
  · intro t cv sec nsec small nanos
    have exact_ := shimNs_toNat small nanos
    refine ⟨_, rfl, exact_, ?_⟩
    rw [exact_, longest]
    omega

/-- A wait of 20 ms that is signalled in its second poll, one that is not, one without a
slot, for which no time passes, and a clock sleep. -/
def fourSleeps : List (Deed Bool Unit) :=
  let enter (t : Bool) : List (Deed Bool Unit) :=
    [rumpuserCvTimedwait t () 0 20000000, .core (.enqueue t), .core (.unlock t)]
  let poll (t slot : Bool) (ns : Nat) : List (Deed Bool Unit) :=
    [.core (.test t), .core (.poll t), .doze t slot, .pass ns, .core (.sleep t)]
  let expire (t : Bool) : List (Deed Bool Unit) :=
    [.core (.test t), .core (.remove t), .core (.relock t)]
  enter false ++ [.core (.signal true ()), .core (.test false), .core (.poll false),
    .doze false true, .core (.send true), .pass 11000000, .core (.sleep false),
    .core (.test false), .core (.poll false), .core (.clear false), .core (.relock false)] ++
  enter false ++ poll false true 10000000 ++ poll false true 10000000 ++ expire false ++
  enter true ++ poll true false 0 ++ poll true false 0 ++ expire true ++
  [.clockSleep true 0 1500 true, .pass 1000, .clockReturn true]

/-- What each wait returned, and when it was called and returned. -/
def returns (history : List (Move (Clocked Bool Unit) (Deed Bool Unit))) :
    List (Bool × Int × Nat) :=
  history.filterMap fun move =>
    match move.label with
    | .core (.relock t) => (returning move.before t).map fun rv => (t, rv, move.before.now)
    | _ => none

theorem four_sleeps_punctual :
    ∃ history now, Trace Runs (started blank) history now ∧
      returns history =
        [(false, 0, 11000000), (false, etimedout, 31000000), (true, etimedout, 31000000)] ∧
      now.now = 31001000 ∧ Along observe Punctual (fun _ => {}) history := by
  have done : ((follow Clocked.step [] (started blank) fourSleeps).map fun out =>
      (returns out.1, out.2.now)) =
      some ([(false, 0, 11000000), (false, etimedout, 31000000), (true, etimedout, 31000000)],
        31001000) := by
    decide +kernel
  obtain ⟨⟨history, now⟩, followed, checks⟩ := Option.map_eq_some_iff.mp done
  obtain ⟨results, time⟩ := Prod.mk.inj checks
  have trace : Trace Runs (started blank) history now := follow_trace .nil followed
  exact ⟨history, now, trace, results, time, (timed_waits_punctual blank trace).1⟩

end Netstack.OsalClock
