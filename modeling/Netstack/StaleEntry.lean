import Mathlib.Data.Fintype.Basic
import Netstack.UntimedWakeup

/-!
Stale entries on a waiter ring. All waits of a task share one signal bit, and a
signal calls Signal after it has released the guard. A timed wait can give up
between the two, and the bit then arrives in the next wait of the task, which
returns with its own entry still on the ring. `Current` says of a Signal that its
task has not begun another wait; in a history where every Signal is current, a
wait returns with no entry left on any ring.
-/

namespace Netstack.CondVar

open Transition WaiterRing

variable {Task Cv : Type}

/-- The waiter the step calls Signal on. -/
def signalling (s : State Task Cv) : Event Task Cv → Option (Waiter Task)
  | .send u => s.sending u
  | _ => none

/-- The bit is cleared for a wait and the entry is not on the ring yet. -/
def Pc.enqueueing : Pc Task Cv → Bool
  | .waitEnqueue _ | .timedEnqueue _ _ => true
  | _ => false

/-- The task of a Signal is still in the wait whose entry was popped, or in no wait. -/
def Current (s : State Task Cv) (e : Event Task Cv) : Prop :=
  ∀ w ∈ signalling s e, (s.pc w.task).enqueueing = false ∧
    ∀ wait ∈ s.registered w.task, wait.2 = w.stamp

/-- Every entry is that of the wait its task is in, and a task whose bit is set
has no entry. -/
structure Live (registered : Task → Option (Cv × Nat)) (sending : Task → Option (Waiter Task))
    (cvs : Cv → OsalCv (Waiter Task)) (single : Task → Bool) (next : Nat) : Prop where
  tidy : ∀ cv, Tidy (cvs cv)
  entry : ∀ cv, ∀ w ∈ queue (cvs cv), registered w.task = some (cv, w.stamp)
  bounded : ∀ t, ∀ wait ∈ registered t, wait.2 < next
  flight : ∀ u, ∀ w ∈ sending u, w.sigmask = sigfSingle ∧ w.stamp < next ∧
    ∀ cv, w ∉ queue (cvs cv)
  lit : ∀ t, single t = true → ∀ cv, ∀ w ∈ queue (cvs cv), w.task ≠ t

section Live

variable {registered : Task → Option (Cv × Nat)} {sending : Task → Option (Waiter Task)}
variable {cvs : Cv → OsalCv (Waiter Task)} {single : Task → Bool} {next : Nat}
variable {t : Task} {cv : Cv}

theorem Live.absent (live : Live registered sending cvs single next)
    (outside : registered t = none) : ∀ cv, ∀ w ∈ queue (cvs cv), w.task ≠ t := by
  intro cv w member mine
  have known := live.entry cv w member
  rw [mine, outside] at known
  cases known

/-- The popped wait of a task has no entry, so a task that is in it has none. -/
theorem Live.overtaken (live : Live registered sending cvs single next) {u : Task}
    {w : Waiter Task} (held : sending u = some w)
    (current : ∀ wait ∈ registered w.task, wait.2 = w.stamp) :
    ∀ cv, ∀ v ∈ queue (cvs cv), v.task ≠ w.task := by
  intro cv v member mine
  obtain ⟨masked, -, off⟩ := live.flight u w held
  have known := live.entry cv v member
  rw [mine] at known
  have number : v.stamp = w.stamp := current _ known
  have same : v = w := Waiter.ext mine (((live.tidy cv).masks v member).trans masked.symm) number
  rw [same] at member
  exact off cv member

variable [DecidableEq Task]

theorem Live.darken (live : Live registered sending cvs single next) (t : Task) :
    Live registered sending cvs (Function.update single t false) next := by
  refine ⟨live.tidy, live.entry, live.bounded, live.flight, ?_⟩
  intro u bit
  by_cases mine : u = t
  · rw [mine, Function.update_self] at bit
    cases bit
  · rw [Function.update_of_ne mine] at bit
    exact live.lit u bit

theorem Live.send (live : Live registered sending cvs single next) {u : Task} {w : Waiter Task}
    (held : sending u = some w) (current : ∀ wait ∈ registered w.task, wait.2 = w.stamp) :
    Live registered (Function.update sending u none) cvs (Function.update single w.task true)
      next := by
  refine ⟨live.tidy, live.entry, live.bounded, ?_, ?_⟩
  · intro other v still
    by_cases mine : other = u
    · rw [mine, Function.update_self] at still
      cases still
    · rw [Function.update_of_ne mine] at still
      exact live.flight other v still
  · intro other bit
    by_cases mine : other = w.task
    · rw [mine]
      exact live.overtaken held current
    · rw [Function.update_of_ne mine] at bit
      exact live.lit other bit

/-- A task that has no entry left leaves its wait. -/
theorem Live.leave (live : Live registered sending cvs single next)
    (gone : ∀ cv, ∀ w ∈ queue (cvs cv), w.task ≠ t) :
    Live (Function.update registered t none) sending cvs single next := by
  refine ⟨live.tidy, ?_, ?_, live.flight, live.lit⟩
  · intro cv w member
    rw [Function.update_of_ne (gone cv w member)]
    exact live.entry cv w member
  · rw [Function.forall_update_iff registered fun _ place => ∀ wait ∈ place, wait.2 < next]
    exact ⟨nofun, fun other _ => live.bounded other⟩

variable [DecidableEq Cv]

theorem Live.enter (live : Live registered sending cvs single next) (outside : registered t = none)
    (dark : single t = false) (room : (cvs cv).count < 32) :
    Live (Function.update registered t (some (cv, next))) sending
      (Function.update cvs cv (enqueue (cvs cv) ⟨t, sigfSingle, next⟩)) single (next + 1) := by
  have appended := enqueue_queue (live.tidy cv).sound room (⟨t, sigfSingle, next⟩ : Waiter Task)
  have absent := live.absent outside
  have members : ∀ other, ∀ w ∈ queue (Function.update cvs cv
      (enqueue (cvs cv) ⟨t, sigfSingle, next⟩) other),
      w ∈ queue (cvs other) ∨ other = cv ∧ w = ⟨t, sigfSingle, next⟩ := by
    intro other w member
    by_cases here : other = cv
    · rw [here, Function.update_self, appended] at member
      rw [here]
      rcases List.mem_append.mp member with inside | last
      · exact .inl inside
      · exact .inr ⟨rfl, List.mem_singleton.mp last⟩
    · rw [Function.update_of_ne here] at member
      exact .inl member
  refine ⟨?_, ?_, ?_, ?_, ?_⟩
  · rw [Function.forall_update_iff cvs fun _ ring => Tidy ring]
    exact ⟨(live.tidy cv).enqueue room (absent cv), fun other _ => live.tidy other⟩
  · intro other w member
    rcases members other w member with inside | ⟨rfl, rfl⟩
    · rw [Function.update_of_ne (absent other w inside)]
      exact live.entry other w inside
    · rw [Function.update_self]
  · rw [Function.forall_update_iff registered fun _ place => ∀ wait ∈ place, wait.2 < next + 1]
    refine ⟨?_, fun other _ wait inside => Nat.lt_succ_of_lt (live.bounded other wait inside)⟩
    rintro wait ⟨⟩
    exact Nat.lt_succ_self next
  · intro u w held
    obtain ⟨masked, older, off⟩ := live.flight u w held
    refine ⟨masked, Nat.lt_succ_of_lt older, ?_⟩
    intro other member
    rcases members other w member with inside | ⟨-, rfl⟩
    · exact off other inside
    · exact Nat.lt_irrefl next older
  · intro u bit other w member
    rcases members other w member with inside | ⟨-, rfl⟩
    · exact live.lit u bit other w inside
    · rintro rfl
      rw [dark] at bit
      cases bit

theorem Live.pop (live : Live registered sending cvs single next) (u : Task)
    (some_ : 0 < (cvs cv).count) :
    Live registered (Function.update sending u (some (pop (cvs cv)).1))
      (Function.update cvs cv (pop (cvs cv)).2) single next := by
  have split := pop_queue (live.tidy cv).sound some_
  obtain ⟨tidy, gone, mask⟩ := (live.tidy cv).pop some_
  generalize (WaiterRing.pop (cvs cv)).2 = rest at *
  generalize (WaiterRing.pop (cvs cv)).1 = w at *
  have inside : registered w.task = some (cv, w.stamp) := by
    refine live.entry cv w ?_
    rw [split]
    exact List.mem_cons_self
  have fewer : ∀ other, queue (Function.update cvs cv rest other) ⊆ queue (cvs other) := by
    intro other
    by_cases here : other = cv
    · rw [here, Function.update_self, split]
      exact List.subset_cons_self w _
    · rw [Function.update_of_ne here]
      exact List.Subset.refl _
  have off : ∀ other, w ∉ queue (Function.update cvs cv rest other) := by
    intro other member
    by_cases here : other = cv
    · rw [here, Function.update_self] at member
      exact gone w member rfl
    · rw [Function.update_of_ne here] at member
      have there := live.entry other w member
      rw [inside] at there
      exact here (congrArg Prod.fst (Option.some.inj there)).symm
  refine ⟨?_, ?_, live.bounded, ?_, ?_⟩
  · rw [Function.forall_update_iff cvs fun _ ring => Tidy ring]
    exact ⟨tidy, fun other _ => live.tidy other⟩
  · intro other v member
    exact live.entry other v (fewer other member)
  · intro sender v held
    by_cases mine : sender = u
    · rw [mine, Function.update_self] at held
      obtain rfl := Option.some.inj held
      exact ⟨mask, live.bounded _ _ inside, off⟩
    · rw [Function.update_of_ne mine] at held
      obtain ⟨masked, older, missing⟩ := live.flight sender v held
      exact ⟨masked, older, fun other member => missing other (fewer other member)⟩
  · intro other bit there v member
    exact live.lit other bit there v (fewer there member)

theorem Live.cancel (live : Live registered sending cvs single next) {stamp : Nat}
    (inside : registered t = some (cv, stamp)) :
    Live (Function.update registered t none) sending
      (Function.update cvs cv (WaiterRing.cancel (cvs cv) (isMine t))) single next := by
  obtain ⟨tidy, left⟩ := (live.tidy cv).cancel t
  generalize WaiterRing.cancel (cvs cv) (isMine t) = rest at *
  have members : ∀ other, ∀ w ∈ queue (Function.update cvs cv rest other),
      w ∈ queue (cvs other) ∧ w.task ≠ t := by
    intro other w member
    by_cases here : other = cv
    · rw [here, Function.update_self, left] at member
      rw [here]
      exact member
    · rw [Function.update_of_ne here] at member
      refine ⟨member, ?_⟩
      intro mine
      have there := live.entry other w member
      rw [mine, inside] at there
      exact here (congrArg Prod.fst (Option.some.inj there)).symm
  have fewer : Live registered sending (Function.update cvs cv rest) single next := by
    refine ⟨?_, ?_, live.bounded, ?_, ?_⟩
    · rw [Function.forall_update_iff cvs fun _ ring => Tidy ring]
      exact ⟨tidy, fun other _ => live.tidy other⟩
    · intro other w member
      exact live.entry other w (members other w member).1
    · intro u w held
      obtain ⟨masked, older, off⟩ := live.flight u w held
      exact ⟨masked, older, fun other member => off other (members other w member).1⟩
    · intro u bit other w member
      exact live.lit u bit other w (members other w member).1
  exact fewer.leave fun other w member => (members other w member).2

end Live

/-- The bit of a task that is about to enqueue is clear, and that of a task that
has seen it is set. -/
structure Aware (pc : Pc Task Cv) (bit : Bool) : Prop where
  enqueueing : pc.enqueueing = true → bit = false
  seen : ∀ w, pc = .timedClear w → bit = true

def LiveIn (s : State Task Cv) : Prop :=
  Live s.registered s.sending s.cvs s.single s.nextStamp ∧ ∀ t, Aware (s.pc t) (s.single t)

section Steps

variable {s s' : State Task Cv} {e : Event Task Cv} {t : Task}

theorem aware_idle {pc : Pc Task Cv} (idle : pc.enqueueing = false)
    (unseen : ∀ w, pc ≠ .timedClear w) (bit : Bool) : Aware pc bit := by
  refine ⟨fun busy => ?_, fun w same => absurd same (unseen w)⟩
  rw [idle] at busy
  cases busy

theorem boot_live (memory : Cv → Int → Waiter Task) : LiveIn (boot memory) := by
  refine ⟨⟨fun cv => new_tidy (memory cv), ?_, ?_, ?_, ?_⟩,
    fun t => aware_idle rfl (by simp [boot]) _⟩
  · simp [boot, new_queue]
  · simp [boot, State.registered, Pc.registered]
  · simp [boot, State.sending, Pc.sending]
  · simp [boot]

variable [DecidableEq Task]

theorem aware_goto (aware : ∀ t, Aware (s.pc t) (s.single t)) (t : Task) {pc : Pc Task Cv}
    (here : Aware pc (s.single t)) :
    ∀ other, Aware ((s.goto t pc).pc other) ((s.goto t pc).single other) := by
  intro other
  by_cases mine : other = t
  · subst mine
    simpa [State.goto] using here
  · simpa [State.goto, mine] using aware other

theorem aware_darken (aware : ∀ t, Aware (s.pc t) (s.single t)) (t : Task) {pc : Pc Task Cv}
    (unseen : ∀ w, pc ≠ .timedClear w) :
    ∀ other, Aware (((s.setSingle t false).goto t pc).pc other)
      (((s.setSingle t false).goto t pc).single other) := by
  intro other
  by_cases mine : other = t
  · subst mine
    refine ⟨fun _ => by simp [State.goto, State.setSingle], fun w same => ?_⟩
    exact absurd (by simpa [State.goto] using same) (unseen w)
  · simpa [State.goto, State.setSingle, mine] using aware other

theorem aware_signal (aware : ∀ t, Aware (s.pc t) (s.single t)) (t : Task) {w : Waiter Task}
    {pc : Pc Task Cv} (idle : pc.enqueueing = false)
    (elsewhere : (s.pc w.task).enqueueing = false) (unseen : ∀ w, pc ≠ .timedClear w) :
    ∀ other, Aware (((s.setSingle w.task true).goto t pc).pc other)
      (((s.setSingle w.task true).goto t pc).single other) := by
  intro other
  by_cases mine : other = t
  · subst mine
    refine ⟨fun busy => ?_, fun w same => absurd (by simpa [State.goto] using same) (unseen w)⟩
    simp [State.goto, idle] at busy
  · by_cases target : other = w.task
    · subst target
      refine ⟨fun busy => ?_, fun _ _ => by simp [State.goto, State.setSingle]⟩
      simp [State.goto, State.setSingle, mine, elsewhere] at busy
    · simpa [State.goto, State.setSingle, mine, target] using aware other

/-- A move of one task that keeps what it registered and what it holds. -/
theorem LiveIn.goto (live : LiveIn s) {pc : Pc Task Cv}
    (registered : pc.registered = (s.pc t).registered) (sending : pc.sending = (s.pc t).sending)
    (here : Aware pc (s.single t)) : LiveIn (s.goto t pc) := by
  refine ⟨?_, aware_goto live.2 t here⟩
  rw [goto_keeps_registered registered, goto_keeps_sending sending]
  exact live.1

/-- A task clears its bit and is in no wait, or in none any more. -/
theorem LiveIn.clear (live : LiveIn s) {pc : Pc Task Cv}
    (gone : ∀ cv, ∀ w ∈ queue (s.cvs cv), w.task ≠ t) (registered : pc.registered = none)
    (sending : pc.sending = (s.pc t).sending) (unseen : ∀ w, pc ≠ .timedClear w) :
    LiveIn ((s.setSingle t false).goto t pc) := by
  refine ⟨?_, aware_darken live.2 t unseen⟩
  rw [goto_registered, registered, goto_keeps_sending]
  · exact (live.1.darken t).leave gone
  · exact sending

theorem LiveIn.send (live : LiveIn s) {w : Waiter Task} {pc : Pc Task Cv}
    (held : (s.pc t).sending = some w) (elsewhere : (s.pc w.task).enqueueing = false)
    (current : ∀ wait ∈ s.registered w.task, wait.2 = w.stamp)
    (registered : pc.registered = (s.pc t).registered) (sending : pc.sending = none)
    (idle : pc.enqueueing = false) (unseen : ∀ w, pc ≠ .timedClear w) :
    LiveIn ((s.signal w).goto t pc) := by
  rw [signal_masked (live.1.flight t w held).1]
  refine ⟨?_, aware_signal live.2 t idle elsewhere unseen⟩
  rw [goto_sending, sending, goto_keeps_registered]
  · exact live.1.send held current
  · exact registered

theorem LiveIn.absent (live : LiveIn s) (outside : (s.pc t).registered = none) :
    NoEntry s t := fun cv => entries_zero_iff.mpr (live.1.absent outside cv)

/-- The entry of a task is the only one, on the ring of the wait it is in. -/
theorem LiveIn.oneEntry (live : LiveIn s) {cv : Cv} {w : Waiter Task}
    (member : w ∈ queue (s.cvs cv)) : OneEntry s w.task := by
  refine ⟨cv, entries_one (live.1.tidy cv) member, ?_⟩
  intro other apart
  refine entries_zero_iff.mpr ?_
  intro v there mine
  have here := live.1.entry cv w member
  have known := live.1.entry other v there
  rw [mine, here] at known
  exact apart (congrArg Prod.fst (Option.some.inj known)).symm

variable [DecidableEq Cv]

theorem LiveIn.enter (live : LiveIn s) {cv : Cv} {pc : Pc Task Cv}
    (enqueueing : (s.pc t).enqueueing = true) (room : (s.cvs cv).count < 32)
    (registered : pc.registered = some (cv, s.nextStamp)) (sending : pc.sending = none)
    (here : ∀ bit, Aware pc bit) :
    LiveIn ({ s.setCv cv (enqueue (s.cvs cv) ⟨t, sigfSingle, s.nextStamp⟩) with
      nextStamp := s.nextStamp + 1 }.goto t pc) := by
  have outside : (s.pc t).registered = none ∧ (s.pc t).sending = none := by
    cases pc : s.pc t <;> simp_all [Pc.enqueueing, Pc.registered, Pc.sending]
  refine ⟨?_, aware_goto live.2 t (here _)⟩
  rw [goto_registered, registered, goto_keeps_sending]
  · exact live.1.enter outside.1 ((live.2 t).enqueueing enqueueing) room
  · rw [sending]
    exact outside.2.symm

theorem LiveIn.pop (live : LiveIn s) {cv : Cv} {pc : Pc Task Cv} (some_ : 0 < (s.cvs cv).count)
    (registered : pc.registered = (s.pc t).registered)
    (sending : pc.sending = some (pop (s.cvs cv)).1) (here : ∀ bit, Aware pc bit) :
    LiveIn ((s.setCv cv (pop (s.cvs cv)).2).goto t pc) := by
  refine ⟨?_, aware_goto live.2 t (here _)⟩
  rw [goto_sending, sending, goto_keeps_registered]
  · exact live.1.pop t some_
  · exact registered

theorem LiveIn.remove (live : LiveIn s) {w : TimedWait Cv} (pc : s.pc t = .timedRemove w) :
    LiveIn ((s.setCv w.cv (cancel (s.cvs w.cv) (isMine t))).goto t
      (.timedRelock w.stamp etimedout)) := by
  refine ⟨?_, aware_goto live.2 t (aware_idle rfl (by simp) _)⟩
  rw [goto_registered, goto_keeps_sending]
  · have inside : s.registered t = some (w.cv, w.stamp) := by
      rw [State.registered, pc]
      rfl
    exact live.1.cancel inside
  · change none = (s.pc t).sending
    rw [pc]
    rfl

theorem effect_live (current : Current s e) (live : LiveIn s) (effect : Effect s e s') :
    LiveIn s' := by
  cases effect with
  | @waited t cv pc | @timedWaited t cv timeout pc =>
      refine live.clear (live.1.absent ?_) rfl (by rw [pc]; rfl) (by simp)
      rw [State.registered, pc]
      rfl
  | overflowed pc =>
      rcases pc with pc | ⟨timeout, pc⟩
      all_goals
        exact live.goto (by rw [pc]; rfl) (by rw [pc]; rfl) (aware_idle rfl (by simp) _)
  | enqueued pc free room | timedEnqueued pc free room =>
      exact live.enter (by rw [pc]; rfl) room rfl rfl (aware_idle rfl (by simp))
  | unlocked pc | timedUnlocked pc | inTime pc | timedOut pc | unseen pc | relocked pc
  | timedRelocked pc =>
      exact live.goto (by rw [pc]; rfl) (by rw [pc]; rfl) (aware_idle rfl (by simp) _)
  | @slept t w pc =>
      refine live.goto ?_ (by rw [pc]; rfl) (aware_idle rfl (by simp) _)
      simp [pc, Pc.registered]
  | seen pc bit =>
      exact live.goto (by rw [pc]; rfl) (by rw [pc]; rfl) ⟨by simp [Pc.enqueueing], fun _ _ => bit⟩
  | @woken t cv stamp pc bit =>
      exact live.clear (live.1.lit t bit) rfl (by rw [pc]; rfl) (by simp)
  | @cleared t w pc =>
      have bit := (live.2 t).seen w pc
      exact live.clear (live.1.lit t bit) rfl (by rw [pc]; rfl) (by simp)
  | removed pc free => exact live.remove pc
  | signalled pc free some_ | drawn pc some_ =>
      exact live.pop some_ (by rw [pc]; rfl) rfl (aware_idle rfl (by simp))
  | nobody pc free none_ => exact live
  | guardTaken pc | drained pc =>
      exact LiveIn.goto (s := { s with guarded := _ }) live (by rw [pc]; rfl) (by rw [pc]; rfl)
        (aware_idle rfl (by simp) _)
  | @sent t w pc | @broadcastSent t cv w pc =>
      have held : (s.pc t).sending = some w := by
        rw [pc]
        rfl
      obtain ⟨elsewhere, number⟩ := current w held
      exact live.send held elsewhere number (by rw [pc]; rfl) rfl rfl (by simp)

theorem relock_effect (effect : Effect s (.relock t) s') : (s'.pc t).registered = none := by
  cases effect with
  | relocked pc | timedRelocked pc =>
      simp [State.goto, Pc.registered]

end Steps

variable [DecidableEq Task] [DecidableEq Cv]

/-- In every history whose Signals are all current, a wait returns to its task
with no entry of the task on any ring. Whatever state such a history reaches, a
task has at most one entry, and every entry is that of a task which waits there. -/
theorem current_signals_leave_no_entry (memory : Cv → Int → Waiter Task)
    {history : List (Move (State Task Cv) (Event Task Cv))} {now : State Task Cv}
    (trace : Trace Steps (boot memory) history now)
    (current : ∀ move ∈ history, Current move.before move.label) :
    (∀ move ∈ history, ∀ t, move.label = .relock t → NoEntry move.after t) ∧
      (∀ t, NoEntry now t ∨ OneEntry now t) ∧
      ∀ cv, ∀ w ∈ queue (now.cvs cv), (now.pc w.task).registered = some (cv, w.stamp) := by
  have kept : ∀ (before : State Task Cv) label after, LiveIn before → Current before label →
      Steps before label after → LiveIn after := fun before label after live meets taken =>
    effect_live meets live (effect_of_step taken)
  have live : LiveIn now :=
    guarded_invariant Current LiveIn (boot_live memory) kept trace current
  refine ⟨?_, ?_, live.1.entry⟩
  · rintro ⟨before, label, after⟩ member t rfl
    obtain ⟨-, taken, returned⟩ :=
      guarded_moves Current LiveIn (boot_live memory) kept trace current _ member
    have effect : Effect before (.relock t) after := effect_of_step taken
    exact returned.absent (relock_effect effect)
  · intro t
    by_cases entered : ∃ cv, ∃ w ∈ queue (now.cvs cv), w.task = t
    · obtain ⟨cv, w, member, rfl⟩ := entered
      exact .inr (live.oneEntry member)
    · refine .inl fun cv => entries_zero_iff.mpr ?_
      intro w member mine
      exact entered ⟨cv, w, member, mine⟩

deriving instance DecidableEq for Event

instance (s : State Task Cv) (e : Event Task Cv) : Decidable (Current s e) :=
  inferInstanceAs (Decidable (∀ w ∈ signalling s e, (s.pc w.task).enqueueing = false ∧
    ∀ wait ∈ s.registered w.task, wait.2 = w.stamp))

theorem signalled_wait_leaves_no_entry :
    ∃ history now, Trace Steps (boot blank) history now ∧
      (∀ move ∈ history, Current move.before move.label) ∧
      ∃ move ∈ history, move.label = .relock false ∧ NoEntry move.after false := by
  have done : ((follow step [] (boot blank) signalledThenLate).map fun out =>
      (decide (∀ move ∈ out.1, Current move.before move.label),
        decide (∃ move ∈ out.1, move.label = .relock false))) = some (true, true) := by
    decide +kernel
  obtain ⟨⟨history, now⟩, followed, checks⟩ := Option.map_eq_some_iff.mp done
  obtain ⟨current, returned⟩ := Prod.ext_iff.mp checks
  have trace : Trace Steps (boot blank) history now := follow_trace .nil followed
  obtain ⟨move, member, label⟩ := of_decide_eq_true returned
  have meets := of_decide_eq_true current
  have left := (current_signals_leave_no_entry blank trace meets).1 move member false label
  exact ⟨history, now, trace, meets, move, member, label, left⟩

/-- A timed wait gives up between its pop and its Signal, and the Signal ends the
next wait of the task on the same condition variable. -/
def signalForAnotherWait : List (Event Bool Unit) :=
  [.timedwait false () 0, .enqueue false, .unlock false, .test false, .signal true (),
    .remove false, .relock false, .wait false (), .enqueue false, .send true, .unlock false,
    .wake false, .relock false]

/-- The second wait returns with its entry on the ring, and the next signal would
be spent on a task that waits for nothing. -/
theorem late_signal_leaves_entry :
    ∃ history now, Trace Steps (boot blank) history now ∧
      (∃ move ∈ history, move.label = .relock false ∧ ¬ entries move.after () false = 0) ∧
      (popping now (.signal true ())).map Waiter.task = some false ∧
      (now.pc false).registered = none := by
  have done : ((follow step [] (boot blank) signalForAnotherWait).map fun out =>
      (decide (∃ move ∈ out.1, move.label = .relock false ∧ ¬ entries move.after () false = 0),
        (popping out.2 (.signal true ())).map Waiter.task, (out.2.pc false).registered)) =
      some (true, some false, none) := by
    decide +kernel
  obtain ⟨⟨history, now⟩, followed, checks⟩ := Option.map_eq_some_iff.mp done
  obtain ⟨stale, rest⟩ := Prod.ext_iff.mp checks
  obtain ⟨spent, outside⟩ := Prod.ext_iff.mp rest
  exact ⟨history, now, follow_trace .nil followed, of_decide_eq_true stale, spent, outside⟩

end Netstack.CondVar
