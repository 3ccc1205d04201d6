import Mathlib.Data.List.Nodup
import Netstack.CondVar

/-!
Where the wakeup of a waiting task is. A wait that has registered has its entry
on the ring of its condition variable, or a signaller has popped the entry and
not called Signal yet, or the bit of the task is set. `Located` says that these
are the only cases, that they exclude each other, and that a task that has not
registered is in none of them. A timed wait leaves the protocol when it gives up
after a pop; `Prompt` is the condition under which it does not.
-/

namespace Netstack.CondVar

open Transition WaiterRing

variable {Task Cv : Type}

/-- Every place but the first names the wait by its condition variable and number. -/
inductive Place (Task Cv : Type) where
  | away
  | ring (cv : Cv) (stamp : Nat)
  | flight (sender : Task) (cv : Cv) (stamp : Nat)
  | bit (cv : Cv) (stamp : Nat)

def Place.registered : Place Task Cv → Option (Cv × Nat)
  | .away => none
  | .ring cv stamp | .flight _ cv stamp | .bit cv stamp => some (cv, stamp)

def Pc.registered : Pc Task Cv → Option (Cv × Nat)
  | .waitUnlock cv stamp | .waitSignal cv stamp => some (cv, stamp)
  | .timedUnlock w | .timedTest w | .timedPoll w | .timedClear w | .timedSleep w
  | .timedRemove w => some (w.cv, w.stamp)
  | _ => none

/-- The waiter that is popped and not signalled yet. -/
def Pc.sending : Pc Task Cv → Option (Waiter Task)
  | .signalSend w | .broadcastSend _ w => some w
  | _ => none

def State.registered (s : State Task Cv) (t : Task) : Option (Cv × Nat) := (s.pc t).registered

def State.sending (s : State Task Cv) (t : Task) : Option (Waiter Task) := (s.pc t).sending

/-- A sound ring with at most one entry for each task. -/
structure Tidy (ring : OsalCv (Waiter Task)) : Prop where
  sound : RingSound ring
  nodup : ((queue ring).map Waiter.task).Nodup
  masks : ∀ w ∈ queue ring, w.sigmask = sigfSingle

theorem new_tidy (memory : Int → Waiter Task) : Tidy (osalCvNew memory) :=
  ⟨new_sound memory, List.nodup_nil, nofun⟩

theorem Tidy.enqueue {ring : OsalCv (Waiter Task)} (tidy : Tidy ring) (room : ring.count < 32)
    {t : Task} {stamp : Nat} (absent : ∀ w ∈ queue ring, w.task ≠ t) :
    Tidy (enqueue ring ⟨t, sigfSingle, stamp⟩) := by
  have appended := enqueue_queue tidy.sound room (⟨t, sigfSingle, stamp⟩ : Waiter Task)
  refine ⟨enqueue_sound tidy.sound room _, ?_, ?_⟩
  · rw [appended, List.map_append, List.map_singleton, List.nodup_append]
    refine ⟨tidy.nodup, List.nodup_singleton _, ?_⟩
    intro task member last final same
    obtain ⟨w, inside, rfl⟩ := List.mem_map.mp member
    rw [List.mem_singleton.mp final] at same
    exact absent w inside same
  · intro w member
    rw [appended] at member
    rcases List.mem_append.mp member with inside | last
    · exact tidy.masks w inside
    · rw [List.mem_singleton.mp last]

theorem Tidy.pop {ring : OsalCv (Waiter Task)} (tidy : Tidy ring) (some_ : 0 < ring.count) :
    Tidy (pop ring).2 ∧ (∀ w ∈ queue (pop ring).2, w.task ≠ (pop ring).1.task) ∧
      (pop ring).1.sigmask = sigfSingle := by
  have split := pop_queue tidy.sound some_
  have distinct := tidy.nodup
  rw [split, List.map_cons, List.nodup_cons] at distinct
  have masks := tidy.masks
  rw [split, List.forall_mem_cons] at masks
  refine ⟨⟨pop_sound tidy.sound some_, distinct.2, masks.2⟩, ?_, masks.1⟩
  intro w member same
  rw [← same] at distinct
  exact distinct.1 (List.mem_map.mpr ⟨w, member, rfl⟩)

theorem Tidy.cancel [DecidableEq Task] {ring : OsalCv (Waiter Task)} (tidy : Tidy ring)
    (t : Task) : Tidy (cancel ring (isMine t)) ∧
      ∀ w, w ∈ queue (cancel ring (isMine t)) ↔ w ∈ queue ring ∧ w.task ≠ t := by
  have erased := cancel_queue tidy.sound (isMine t)
  have part : queue (WaiterRing.cancel ring (isMine t)) ⊆ queue ring := by
    rw [erased]
    exact List.eraseP_subset
  have distinct := tidy.nodup
  refine ⟨⟨cancel_sound tidy.sound _, ?_, fun w member => tidy.masks w (part member)⟩, ?_⟩
  · rw [erased]
    exact distinct.sublist (List.eraseP_sublist.map _)
  · intro w
    constructor
    · intro member
      refine ⟨part member, ?_⟩
      intro mine
      have own : isMine t w = true := by
        simp [isMine, mine, tidy.masks w (part member)]
      obtain ⟨v, front, back, -, found, split, left⟩ := List.exists_of_eraseP (part member) own
      have owner : v.task = t := by
        simp only [isMine, decide_eq_true_eq] at found
        exact found.1
      rw [split, List.map_append, List.map_cons, List.nodup_middle, List.nodup_cons] at distinct
      refine distinct.1 ?_
      rw [← List.map_append, owner, ← mine]
      rw [erased, left] at member
      exact List.mem_map.mpr ⟨w, member, rfl⟩
    · rintro ⟨member, others⟩
      rw [erased]
      refine (List.mem_eraseP_of_neg ?_).mpr member
      simp [isMine, others]

structure Located (place : Task → Place Task Cv) (registered : Task → Option (Cv × Nat))
    (sending : Task → Option (Waiter Task)) (cvs : Cv → OsalCv (Waiter Task))
    (single : Task → Bool) : Prop where
  tidy : ∀ cv, Tidy (cvs cv)
  known : ∀ t, registered t = (place t).registered
  ring : ∀ cv t stamp, ⟨t, sigfSingle, stamp⟩ ∈ queue (cvs cv) ↔ place t = .ring cv stamp
  flight : ∀ sender w, sending sender = some w ↔
    w.sigmask = sigfSingle ∧ ∃ cv, place w.task = .flight sender cv w.stamp
  bit : ∀ t, single t = true ↔ ∃ cv stamp, place t = .bit cv stamp

section Located

variable {place : Task → Place Task Cv} {registered : Task → Option (Cv × Nat)}
variable {sending sending' : Task → Option (Waiter Task)}
variable {cvs cvs' : Cv → OsalCv (Waiter Task)} {single single' : Task → Bool}

theorem Located.unsignalled (located : Located place registered sending cvs single) {t : Task}
    (outside : registered t = none) : single t = false := by
  rw [located.known] at outside
  cases lit : single t with
  | false => rfl
  | true =>
      obtain ⟨cv, stamp, placed⟩ := (located.bit t).mp lit
      rw [placed] at outside
      cases outside

theorem Located.entry (located : Located place registered sending cvs single) {cv : Cv}
    {w : Waiter Task} (member : w ∈ queue (cvs cv)) : place w.task = .ring cv w.stamp := by
  obtain ⟨t, mask, stamp⟩ := w
  obtain rfl : mask = sigfSingle := (located.tidy cv).masks _ member
  exact (located.ring cv t stamp).mp member

variable [DecidableEq Task]

/-- The wakeup of one task moves to `target`; those of the others stay. -/
theorem Located.move (located : Located place registered sending cvs single) (t : Task)
    (target : Place Task Cv) (tidy : ∀ cv, Tidy (cvs' cv))
    (ring : ∀ cv stamp, ⟨t, sigfSingle, stamp⟩ ∈ queue (cvs' cv) ↔ target = .ring cv stamp)
    (flight : ∀ sender w, w.task = t → (sending' sender = some w ↔
      w.sigmask = sigfSingle ∧ ∃ cv, target = .flight sender cv w.stamp))
    (bit : single' t = true ↔ ∃ cv stamp, target = .bit cv stamp)
    (rings : ∀ cv w, w.task ≠ t → (w ∈ queue (cvs' cv) ↔ w ∈ queue (cvs cv)))
    (flights : ∀ sender w, w.task ≠ t → (sending' sender = some w ↔ sending sender = some w))
    (bits : ∀ other, other ≠ t → single' other = single other) :
    Located (Function.update place t target) (Function.update registered t target.registered)
      sending' cvs' single' := by
  refine ⟨tidy, ?_, ?_, ?_, ?_⟩
  · intro other
    by_cases mine : other = t
    · rw [mine, Function.update_self, Function.update_self]
    · rw [Function.update_of_ne mine, Function.update_of_ne mine]
      exact located.known other
  · intro cv other stamp
    by_cases mine : other = t
    · rw [mine, Function.update_self]
      exact ring cv stamp
    · rw [Function.update_of_ne mine, rings cv _ mine]
      exact located.ring cv other stamp
  · intro sender w
    by_cases mine : w.task = t
    · rw [flight sender w mine, mine, Function.update_self]
    · rw [Function.update_of_ne mine, flights sender w mine]
      exact located.flight sender w
  · intro other
    by_cases mine : other = t
    · rw [mine, Function.update_self]
      exact bit
    · rw [Function.update_of_ne mine, bits other mine]
      exact located.bit other

theorem Located.send (located : Located place registered sending cvs single) {sender : Task}
    {w : Waiter Task} (holds : sending sender = some w) :
    ∃ cv, place w.task = .flight sender cv w.stamp ∧
      Located (Function.update place w.task (.bit cv w.stamp)) registered
        (Function.update sending sender none) cvs (Function.update single w.task true) := by
  obtain ⟨-, cv, placed⟩ := (located.flight sender w).mp holds
  refine ⟨cv, placed, ?_⟩
  have same : registered = Function.update registered w.task
      (Place.bit cv w.stamp : Place Task Cv).registered := by
    rw [eq_comm, Function.update_eq_self_iff, located.known, placed]
    rfl
  rw [same]
  refine located.move w.task (.bit cv w.stamp) located.tidy ?_ ?_ ?_ ?_ ?_ ?_
  · intro other number
    rw [located.ring, placed]
    simp
  · intro other v its
    by_cases mine : other = sender
    · rw [mine, Function.update_self]
      simp
    · rw [Function.update_of_ne mine, located.flight, its, placed]
      simp [Ne.symm mine]
  · simp
  · intro other v others
    rfl
  · intro other v others
    by_cases mine : other = sender
    · rw [mine, Function.update_self, holds]
      have apart : w ≠ v := by
        rintro rfl
        exact others rfl
      simp [apart]
    · rw [Function.update_of_ne mine]
  · intro other others
    rw [Function.update_of_ne others]

theorem Located.consume (located : Located place registered sending cvs single) {t : Task}
    {cv : Cv} {stamp : Nat} (placed : place t = .bit cv stamp) :
    Located (Function.update place t .away) (Function.update registered t none) sending cvs
      (Function.update single t false) := by
  refine located.move t .away located.tidy ?_ ?_ ?_ ?_ ?_ ?_
  · intro other number
    rw [located.ring, placed]
    simp
  · intro sender w its
    rw [located.flight, its, placed]
    simp
  · simp
  · intro other w others
    rfl
  · intro other w others
    rfl
  · intro other others
    rw [Function.update_of_ne others]

variable [DecidableEq Cv]

theorem Located.enter (located : Located place registered sending cvs single) {t : Task} {cv : Cv}
    {stamp : Nat} (outside : registered t = none) (room : (cvs cv).count < 32) :
    Located (Function.update place t (.ring cv stamp))
      (Function.update registered t (some (cv, stamp))) sending
      (Function.update cvs cv (enqueue (cvs cv) ⟨t, sigfSingle, stamp⟩)) single := by
  have appended := enqueue_queue (located.tidy cv).sound room (⟨t, sigfSingle, stamp⟩ : Waiter Task)
  have away : place t = .away := by
    rw [located.known] at outside
    cases placed : place t with
    | away => rfl
    | ring | flight | bit => rw [placed] at outside; cases outside
  have absent : ∀ other, ∀ w ∈ queue (cvs other), w.task ≠ t := by
    intro other w member mine
    have placed := located.entry member
    rw [mine, away] at placed
    cases placed
  have missing : ∀ other number, ⟨t, sigfSingle, number⟩ ∉ queue (cvs other) :=
    fun other number member => absent other _ member rfl
  refine located.move t (.ring cv stamp) ?_ ?_ ?_ ?_ ?_ ?_ ?_
  · rw [Function.forall_update_iff cvs fun _ ring => Tidy ring]
    exact ⟨(located.tidy cv).enqueue room (absent cv), fun other _ => located.tidy other⟩
  · intro other number
    by_cases here : other = cv
    · rw [here, Function.update_self, appended]
      simp [missing, eq_comm]
    · rw [Function.update_of_ne here]
      simp [missing, Ne.symm here]
  · intro sender w its
    rw [located.flight, its, away]
    simp
  · rw [located.bit, away]
    simp
  · intro other w others
    by_cases here : other = cv
    · rw [here, Function.update_self, appended, List.mem_append, List.mem_singleton, or_iff_left]
      rintro rfl
      exact others rfl
    · rw [Function.update_of_ne here]
  · intro sender w others
    rfl
  · intro other others
    rfl

/-- The head of a ring moves into the hands of a task that holds no waiter. -/
theorem Located.pop (located : Located place registered sending cvs single) {sender : Task}
    {cv : Cv} (some_ : 0 < (cvs cv).count) (idle : sending sender = none) :
    place (pop (cvs cv)).1.task = .ring cv (pop (cvs cv)).1.stamp ∧
      Located (Function.update place (pop (cvs cv)).1.task
          (.flight sender cv (pop (cvs cv)).1.stamp)) registered
        (Function.update sending sender (some (pop (cvs cv)).1))
        (Function.update cvs cv (pop (cvs cv)).2) single := by
  have split := pop_queue (located.tidy cv).sound some_
  obtain ⟨tidy, gone, mask⟩ := (located.tidy cv).pop some_
  generalize (WaiterRing.pop (cvs cv)).2 = rest at *
  generalize (WaiterRing.pop (cvs cv)).1 = w at *
  have placed : place w.task = .ring cv w.stamp := by
    refine located.entry ?_
    rw [split]
    exact List.mem_cons_self
  refine ⟨placed, ?_⟩
  have same : registered = Function.update registered w.task
      (Place.flight sender cv w.stamp).registered := by
    rw [eq_comm, Function.update_eq_self_iff, located.known, placed]
    rfl
  rw [same]
  refine located.move w.task (.flight sender cv w.stamp) ?_ ?_ ?_ ?_ ?_ ?_ ?_
  · rw [Function.forall_update_iff cvs fun _ ring => Tidy ring]
    exact ⟨tidy, fun other _ => located.tidy other⟩
  · intro other number
    by_cases here : other = cv
    · rw [here, Function.update_self]
      have left : ⟨w.task, sigfSingle, number⟩ ∉ queue rest := fun member => gone _ member rfl
      simp [left]
    · rw [Function.update_of_ne here, located.ring, placed]
      simp [Ne.symm here]
  · intro other v its
    by_cases mine : other = sender
    · rw [mine, Function.update_self]
      constructor
      · intro held
        cases held
        exact ⟨mask, cv, rfl⟩
      · rintro ⟨masked, other, landed⟩
        injection landed with _ _ number
        exact congrArg some (Waiter.ext its.symm (mask.trans masked.symm) number)
    · rw [Function.update_of_ne mine, located.flight, its, placed]
      simp [Ne.symm mine]
  · rw [located.bit, placed]
    simp
  · intro other v others
    by_cases here : other = cv
    · rw [here, Function.update_self, split, List.mem_cons, or_iff_right]
      rintro rfl
      exact others rfl
    · rw [Function.update_of_ne here]
  · intro other v others
    by_cases mine : other = sender
    · rw [mine, Function.update_self, idle]
      have apart : w ≠ v := by
        rintro rfl
        exact others rfl
      simp [apart]
    · rw [Function.update_of_ne mine]
  · intro other others
    rfl

theorem Located.cancel (located : Located place registered sending cvs single) {t : Task} {cv : Cv}
    {stamp : Nat} (placed : place t = .ring cv stamp) :
    Located (Function.update place t .away) (Function.update registered t none) sending
      (Function.update cvs cv (cancel (cvs cv) (isMine t))) single := by
  obtain ⟨tidy, left⟩ := (located.tidy cv).cancel t
  refine located.move t .away ?_ ?_ ?_ ?_ ?_ ?_ ?_
  · rw [Function.forall_update_iff cvs fun _ ring => Tidy ring]
    exact ⟨tidy, fun other _ => located.tidy other⟩
  · intro other number
    by_cases here : other = cv
    · rw [here, Function.update_self, left]
      simp
    · rw [Function.update_of_ne here, located.ring, placed]
      simp [Ne.symm here]
  · intro sender w its
    rw [located.flight, its, placed]
    simp
  · rw [located.bit, placed]
    simp
  · intro other w others
    by_cases here : other = cv
    · rw [here, Function.update_self, left]
      simp [others]
    · rw [Function.update_of_ne here]
  · intro sender w others
    rfl
  · intro other others
    rfl

end Located

/-- Whether the wait will look at the bit of its task again. -/
def Pc.pollAhead : Pc Task Cv → Bool
  | .timedUnlock w | .timedTest w => w.elapsed < w.timeout
  | .timedSleep w => w.slept.elapsed < w.timeout
  | .timedRemove _ => false
  | _ => true

structure Timely (place : Place Task Cv) (pc : Pc Task Cv) : Prop where
  late : pc.pollAhead = false → ∃ cv stamp, place = .ring cv stamp
  seen : ∀ w, pc = .timedClear w → ∃ cv stamp, place = .bit cv stamp

/-- The entry a signal or a round of a broadcast takes off the ring. -/
def popping (s : State Task Cv) : Event Task Cv → Option (Waiter Task)
  | .signal _ cv => if 0 < (s.cvs cv).count then some (pop (s.cvs cv)).1 else none
  | .next t =>
      match s.pc t with
      | .broadcastNext cv => if 0 < (s.cvs cv).count then some (pop (s.cvs cv)).1 else none
      | _ => none
  | _ => none

/-- The task whose last poll the step is, when that poll sees no bit. -/
def lastPoll (s : State Task Cv) : Event Task Cv → Option Task
  | .poll t =>
      match s.pc t with
      | .timedPoll w => if s.single t ∨ w.slept.elapsed < w.timeout then none else some t
      | _ => none
  | _ => none

/-- No pop meets a wait that polls no more, and no last poll comes between the
pop of the wait and its Signal. -/
def Prompt (s : State Task Cv) (e : Event Task Cv) : Prop :=
  (∀ w ∈ popping s e, (s.pc w.task).pollAhead = true) ∧
    ∀ t ∈ lastPoll s e, ∀ sender, ∀ w ∈ s.sending sender, w.task ≠ t

def LocatedIn (place : Task → Place Task Cv) (s : State Task Cv) : Prop :=
  Located place s.registered s.sending s.cvs s.single

def Wakeups (s : State Task Cv) : Prop :=
  ∃ place, LocatedIn place s ∧ ∀ t, Timely (place t) (s.pc t)

section Steps

variable {place : Task → Place Task Cv} {s s' : State Task Cv} {e : Event Task Cv} {t : Task}

theorem boot_wakeups (memory : Cv → Int → Waiter Task) : Wakeups (boot memory) := by
  refine ⟨fun _ => .away, ⟨?_, ?_, ?_, ?_, ?_⟩, ?_⟩
  · intro cv
    exact new_tidy (memory cv)
  · intro t
    rfl
  · intro cv t stamp
    simp [boot, new_queue]
  · intro sender w
    simp [State.sending, boot, Pc.sending]
  · intro t
    simp [boot]
  · intro t
    exact ⟨nofun, nofun⟩

theorem timely_of_ahead {place : Place Task Cv} {pc : Pc Task Cv} (ahead : pc.pollAhead = true)
    (unclear : ∀ w, pc ≠ .timedClear w) : Timely place pc := by
  refine ⟨?_, fun w same => absurd same (unclear w)⟩
  rw [ahead]
  intro late
  cases late

theorem Timely.popped {cv : Cv} {stamp : Nat} {place target : Place Task Cv} {pc : Pc Task Cv}
    (timely : Timely place pc) (placed : place = .ring cv stamp) (ahead : pc.pollAhead = true) :
    Timely target pc := by
  refine timely_of_ahead ahead ?_
  intro w clearing
  obtain ⟨cv, stamp, lit⟩ := timely.seen w clearing
  rw [placed] at lit
  cases lit

theorem Timely.sent {sender : Task} {cv : Cv} {stamp : Nat} {place : Place Task Cv}
    {pc : Pc Task Cv} (timely : Timely place pc) (placed : place = .flight sender cv stamp) :
    Timely (.bit cv stamp) pc := by
  refine ⟨?_, fun w clearing => ⟨cv, stamp, rfl⟩⟩
  intro late
  obtain ⟨cv, stamp, waiting⟩ := timely.late late
  rw [placed] at waiting
  cases waiting

/-- A registered wait whose bit is dark and whom nobody is about to signal has
its entry on the ring. -/
theorem LocatedIn.on_ring (located : LocatedIn place s) {t : Task} {cv : Cv} {stamp : Nat}
    (inside : (s.pc t).registered = some (cv, stamp)) (dark : s.single t = false)
    (unsent : ∀ sender, ∀ w ∈ s.sending sender, w.task ≠ t) : place t = .ring cv stamp := by
  have known : (place t).registered = some (cv, stamp) := by
    rw [← located.known t]
    exact inside
  cases placed : place t with
  | away => rw [placed] at known; cases known
  | ring cv' stamp' => rw [placed] at known; cases known; rfl
  | flight sender cv' stamp' =>
      have held := (located.flight sender ⟨t, sigfSingle, stamp'⟩).mpr ⟨rfl, cv', placed⟩
      exact absurd rfl (unsent sender _ held)
  | bit cv' stamp' =>
      have lit := (located.bit t).mpr ⟨cv', stamp', placed⟩
      rw [dark] at lit
      cases lit

theorem LocatedIn.entry (located : LocatedIn place s) {w : TimedWait Cv}
    (pc : s.pc t = .timedRemove w) (waiting : ∃ cv stamp, place t = .ring cv stamp) :
    place t = .ring w.cv w.stamp := by
  obtain ⟨cv, stamp, placed⟩ := waiting
  have known := located.known t
  rw [State.registered, pc, placed] at known
  cases known
  exact placed

variable [DecidableEq Task]

theorem goto_registered (s : State Task Cv) (t : Task) (pc : Pc Task Cv) :
    (s.goto t pc).registered = Function.update s.registered t pc.registered := by
  funext other
  exact Function.apply_update (fun _ => Pc.registered) s.pc t pc other

theorem goto_sending (s : State Task Cv) (t : Task) (pc : Pc Task Cv) :
    (s.goto t pc).sending = Function.update s.sending t pc.sending := by
  funext other
  exact Function.apply_update (fun _ => Pc.sending) s.pc t pc other

theorem goto_keeps_registered {s : State Task Cv} {t : Task} {pc : Pc Task Cv}
    (same : pc.registered = (s.pc t).registered) : (s.goto t pc).registered = s.registered := by
  rw [goto_registered, Function.update_eq_self_iff]
  exact same

theorem goto_keeps_sending {s : State Task Cv} {t : Task} {pc : Pc Task Cv}
    (same : pc.sending = (s.pc t).sending) : (s.goto t pc).sending = s.sending := by
  rw [goto_sending, Function.update_eq_self_iff]
  exact same

/-- A move of one task that keeps what it registered and what it holds. -/
theorem LocatedIn.goto (located : LocatedIn place s) {t : Task} {pc : Pc Task Cv}
    (registered : pc.registered = (s.pc t).registered) (sending : pc.sending = (s.pc t).sending) :
    LocatedIn place (s.goto t pc) := by
  rw [LocatedIn, goto_keeps_registered registered, goto_keeps_sending sending]
  exact located

theorem timely_goto {target : Place Task Cv} (t : Task) {pc : Pc Task Cv}
    (timely : ∀ t, Timely (place t) (s.pc t)) (here : Timely target pc) :
    ∀ other, Timely (Function.update place t target other) ((s.goto t pc).pc other) := by
  intro other
  by_cases mine : other = t
  · subst mine
    simpa [State.goto] using here
  · simpa [State.goto, mine] using timely other

theorem LocatedIn.enter [DecidableEq Cv] (located : LocatedIn place s) {t : Task} {cv : Cv}
    {pc : Pc Task Cv} {next : Nat} (outside : (s.pc t).registered = none)
    (empty : (s.pc t).sending = none) (room : (s.cvs cv).count < 32)
    (registered : pc.registered = some (cv, s.nextStamp)) (sending : pc.sending = none) :
    LocatedIn (Function.update place t (.ring cv s.nextStamp))
      ({ s.setCv cv (enqueue (s.cvs cv) ⟨t, sigfSingle, s.nextStamp⟩) with
        nextStamp := next }.goto t pc) := by
  rw [LocatedIn, goto_registered, registered, goto_keeps_sending]
  · exact Located.enter located outside room
  · rw [sending]
    exact empty.symm

theorem LocatedIn.pop [DecidableEq Cv] (located : LocatedIn place s) {t : Task} {cv : Cv}
    {pc : Pc Task Cv} (some_ : 0 < (s.cvs cv).count) (empty : (s.pc t).sending = none)
    (registered : pc.registered = (s.pc t).registered)
    (sending : pc.sending = some (pop (s.cvs cv)).1) :
    LocatedIn
      (Function.update place (pop (s.cvs cv)).1.task (.flight t cv (pop (s.cvs cv)).1.stamp))
      ((s.setCv cv (pop (s.cvs cv)).2).goto t pc) := by
  rw [LocatedIn, goto_sending, sending, goto_keeps_registered]
  · exact (Located.pop located some_ empty).2
  · exact registered

theorem signal_masked {w : Waiter Task} (masked : w.sigmask = sigfSingle) :
    s.signal w = s.setSingle w.task true := by
  rw [State.signal, masked, if_neg (by decide)]

theorem LocatedIn.signal (located : LocatedIn place s) {t : Task} {w : Waiter Task}
    (holds : (s.pc t).sending = some w) : s.signal w = s.setSingle w.task true :=
  signal_masked ((located.flight t w).mp holds).1

theorem LocatedIn.send (located : LocatedIn place s) {t : Task} {w : Waiter Task}
    (pc : Pc Task Cv) (holds : (s.pc t).sending = some w)
    (registered : pc.registered = (s.pc t).registered) (sending : pc.sending = none) :
    ∃ cv, place w.task = .flight t cv w.stamp ∧
      LocatedIn (Function.update place w.task (.bit cv w.stamp))
        ((s.setSingle w.task true).goto t pc) := by
  obtain ⟨cv, placed, moved⟩ := Located.send located holds
  refine ⟨cv, placed, ?_⟩
  rw [LocatedIn, goto_sending, sending, goto_keeps_registered]
  · exact moved
  · exact registered

theorem LocatedIn.consume (located : LocatedIn place s) {t : Task} {cv : Cv} {stamp : Nat}
    {pc : Pc Task Cv} (placed : place t = .bit cv stamp) (registered : pc.registered = none)
    (sending : pc.sending = (s.pc t).sending) :
    LocatedIn (Function.update place t .away) ((s.setSingle t false).goto t pc) := by
  rw [LocatedIn, goto_registered, registered, goto_keeps_sending]
  · exact Located.consume located placed
  · exact sending

theorem LocatedIn.cancel [DecidableEq Cv] (located : LocatedIn place s) {t : Task} {cv : Cv}
    {stamp : Nat} {pc : Pc Task Cv} (placed : place t = .ring cv stamp)
    (registered : pc.registered = none) (sending : pc.sending = (s.pc t).sending) :
    LocatedIn (Function.update place t .away)
      ((s.setCv cv (cancel (s.cvs cv) (isMine t))).goto t pc) := by
  rw [LocatedIn, goto_registered, registered, goto_keeps_sending]
  · exact Located.cancel located placed
  · exact sending

theorem Wakeups.goto (located : LocatedIn place s) (timely : ∀ t, Timely (place t) (s.pc t))
    {t : Task} {pc : Pc Task Cv} (registered : pc.registered = (s.pc t).registered)
    (sending : pc.sending = (s.pc t).sending) (here : Timely (place t) pc) :
    Wakeups (s.goto t pc) := by
  refine ⟨place, located.goto registered sending, ?_⟩
  have moved := timely_goto t timely here
  rwa [Function.update_eq_self] at moved

/-- The wakeup of `u` moves while `t`, which waits for nothing, goes on. -/
theorem timely_transfer {t u : Task} {pc : Pc Task Cv} {target : Place Task Cv}
    (timely : ∀ t, Timely (place t) (s.pc t)) (ahead : pc.pollAhead = true)
    (unclear : ∀ w, pc ≠ .timedClear w) (moved : Timely target (s.pc u)) :
    ∀ other, Timely (Function.update place u target other) ((s.goto t pc).pc other) := by
  intro other
  by_cases mine : other = t
  · rw [mine]
    refine timely_of_ahead ?_ ?_ <;> simpa [State.goto]
  · by_cases its : other = u
    · subst its
      simpa [State.goto, mine] using moved
    · simpa [State.goto, mine, its] using timely other

theorem Wakeups.pop [DecidableEq Cv] (located : LocatedIn place s)
    (timely : ∀ t, Timely (place t) (s.pc t)) {cv : Cv} {pc : Pc Task Cv}
    (some_ : 0 < (s.cvs cv).count) (aimed : (s.pc (pop (s.cvs cv)).1.task).pollAhead = true)
    (empty : (s.pc t).sending = none) (registered : pc.registered = (s.pc t).registered)
    (sending : pc.sending = some (pop (s.cvs cv)).1) (ahead : pc.pollAhead = true)
    (unclear : ∀ w, pc ≠ .timedClear w) :
    Wakeups ((s.setCv cv (pop (s.cvs cv)).2).goto t pc) := by
  have placed := (Located.pop located some_ empty).1
  refine ⟨_, located.pop some_ empty registered sending, ?_⟩
  exact timely_transfer timely ahead unclear ((timely _).popped placed aimed)

theorem Wakeups.send (located : LocatedIn place s) (timely : ∀ t, Timely (place t) (s.pc t))
    {w : Waiter Task} {pc : Pc Task Cv} (holds : (s.pc t).sending = some w)
    (registered : pc.registered = (s.pc t).registered) (sending : pc.sending = none)
    (ahead : pc.pollAhead = true) (unclear : ∀ w, pc ≠ .timedClear w) :
    Wakeups ((s.signal w).goto t pc) := by
  obtain ⟨cv, placed, moved⟩ := located.send pc holds registered sending
  rw [located.signal holds]
  refine ⟨_, moved, ?_⟩
  exact timely_transfer timely ahead unclear ((timely _).sent placed)

theorem setSingle_same (dark : s.single t = false) : s.setSingle t false = s := by
  have same : Function.update s.single t false = s.single :=
    Function.update_eq_self_iff.mpr dark.symm
  rw [State.setSingle, same]

theorem effect_wakeups [DecidableEq Cv] (prompt : Prompt s e) (wakeups : Wakeups s)
    (effect : Effect s e s') : Wakeups s' := by
  obtain ⟨place, located, timely⟩ := wakeups
  obtain ⟨aimed, met⟩ := prompt
  have dark : ∀ t, (s.pc t).registered = none → s.single t = false := fun t outside =>
    Located.unsignalled located outside
  cases effect with
  | waited pc | timedWaited pc =>
      rw [setSingle_same (dark _ (by rw [pc]; rfl))]
      refine .goto located timely (by rw [pc]; rfl) (by rw [pc]; rfl) ?_
      exact timely_of_ahead rfl nofun
  | overflowed pc =>
      rcases pc with pc | ⟨timeout, pc⟩
      all_goals
        refine .goto located timely (by rw [pc]; rfl) (by rw [pc]; rfl) ?_
        exact timely_of_ahead rfl nofun
  | enqueued pc free room | timedEnqueued pc free room =>
      refine ⟨_, located.enter (by rw [pc]; rfl) (by rw [pc]; rfl) room rfl rfl, ?_⟩
      exact timely_goto _ timely ⟨fun _ => ⟨_, _, rfl⟩, nofun⟩
  | unlocked pc | inTime pc more | relocked pc | timedRelocked pc =>
      refine .goto located timely (by rw [pc]; rfl) (by rw [pc]; rfl) ?_
      exact timely_of_ahead rfl nofun
  | @timedUnlocked t w pc =>
      refine .goto located timely (by rw [pc]; rfl) (by rw [pc]; rfl) ⟨?_, nofun⟩
      have here := (timely t).late
      rwa [pc] at here
  | @woken t cv stamp pc bit =>
      obtain ⟨cv, stamp, placed⟩ := (located.bit t).mp bit
      refine ⟨_, located.consume placed rfl (by rw [pc]; rfl), ?_⟩
      exact timely_goto t timely (timely_of_ahead rfl nofun)
  | @timedOut t w pc expired =>
      refine .goto located timely (by rw [pc]; rfl) (by rw [pc]; rfl) ⟨?_, nofun⟩
      intro _
      refine (timely t).late ?_
      rw [pc]
      simpa [Pc.pollAhead] using expired
  | @seen t w pc bit =>
      refine .goto located timely (by rw [pc]; rfl) (by rw [pc]; rfl) ⟨nofun, ?_⟩
      intro w' _
      exact (located.bit t).mp bit
  | @unseen t w pc bit =>
      refine .goto located timely (by rw [pc]; rfl) (by rw [pc]; rfl) ⟨?_, nofun⟩
      intro last
      have expired : lastPoll s (.poll t) = some t := by
        simpa [lastPoll, pc, bit, Pc.pollAhead] using last
      exact ⟨_, _, located.on_ring (by rw [pc]; rfl) bit (met t expired)⟩
  | @cleared t w pc =>
      obtain ⟨cv, stamp, placed⟩ := (timely t).seen w pc
      refine ⟨_, located.consume placed rfl (by rw [pc]; rfl), ?_⟩
      exact timely_goto t timely (timely_of_ahead rfl nofun)
  | @slept t w pc =>
      have registered : (Pc.timedTest w.slept : Pc Task Cv).registered = (s.pc t).registered := by
        simp [pc, Pc.registered]
      refine .goto located timely registered (by rw [pc]; rfl) ⟨?_, nofun⟩
      have here := (timely t).late
      rw [pc, Pc.pollAhead] at here
      rwa [Pc.pollAhead, w.slept_timeout]
  | @removed t w pc free =>
      have placed := located.entry pc ((timely t).late (by rw [pc]; rfl))
      refine ⟨_, located.cancel placed rfl (by rw [pc]; rfl), ?_⟩
      exact timely_goto t timely (timely_of_ahead rfl nofun)
  | @signalled t cv pc free some_ =>
      have ahead := aimed (WaiterRing.pop (s.cvs cv)).1 (by simp [popping, some_])
      exact .pop located timely some_ ahead (by rw [pc]; rfl) (by rw [pc]; rfl) rfl rfl nofun
  | nobody pc free none_ => exact ⟨place, located, timely⟩
  | guardTaken pc free =>
      refine Wakeups.goto (s := { s with guarded := _ }) located timely (by rw [pc]; rfl)
        (by rw [pc]; rfl) ?_
      exact timely_of_ahead rfl nofun
  | @drawn t cv pc some_ =>
      have ahead := aimed (WaiterRing.pop (s.cvs cv)).1 (by simp [popping, pc, some_])
      exact .pop located timely some_ ahead (by rw [pc]; rfl) (by rw [pc]; rfl) rfl rfl nofun
  | drained pc none_ =>
      refine Wakeups.goto (s := { s with guarded := _ }) located timely (by rw [pc]; rfl)
        (by rw [pc]; rfl) ?_
      exact timely_of_ahead rfl nofun
  | sent pc | broadcastSent pc =>
      exact .send located timely (by rw [pc]; rfl) (by rw [pc]; rfl) rfl rfl nofun

end Steps

end Netstack.CondVar
