import Netstack.AtomicObject
import Netstack.Atomics
import Netstack.Refinement

/-!
`rump_atomics.c` instruction by instruction: the loop `lwarx`, `cmpw`, `stwcx.` of
`atomic_cas_32`, the functions that call it once and those that call it in a loop, on
any number of words. A `lwarx` takes a reservation on its word, a store that succeeds
ends every reservation on the word it writes, and a reservation may be lost at any time
(a store beside the word, a task switch). A `stwcx.` stores exactly when its task still
has the reservation. `Atomics` took the swap as one step; here it is shown that a call
of any of the functions still takes effect at one instruction.
-/

namespace Netstack.Reservations

open Atomics Transition

variable {Task Ptr : Type}

/-- A function of the file: a loop around the swap, or the swap itself. -/
inductive Routine where
  | loop (call : Call)
  | cas (old new : UInt32)
  deriving DecidableEq

def atomicCasUint (old new : UInt32) : Routine := .cas old new

def atomicCasPtr (old new : UInt32) : Routine := .cas old new

/-- A call of `atomic_cas_32`. A loop passes what it has read and the new word it has
made of it. -/
inductive Attempt where
  | loop (call : Call) (old : UInt32)
  | direct (old new : UInt32)
  deriving DecidableEq

def Attempt.routine : Attempt → Routine
  | .loop call _ => .loop call
  | .direct old new => .cas old new

def Attempt.old : Attempt → UInt32
  | .loop _ old => old
  | .direct old _ => old

def Attempt.new : Attempt → UInt32
  | .loop call old => call.body.next old
  | .direct _ new => new

/-- What the function returns after a swap that has stored, with `prev` what it read. -/
def Attempt.value (prev : UInt32) : Attempt → Option UInt32
  | .loop call old => call.body.value old
  | .direct _ _ => some prev

inductive Pc (Ptr : Type) where
  | idle
  -- `old = *ptr`
  | load (ptr : Ptr) (call : Call)
  -- label `1:` of the assembler text
  | lwarx (ptr : Ptr) (attempt : Attempt)
  | cmpw (ptr : Ptr) (attempt : Attempt) (prev : UInt32)
  | stwcx (ptr : Ptr) (attempt : Attempt) (prev : UInt32)
  -- label `2:`, and the caller's test
  | out (ptr : Ptr) (attempt : Attempt) (prev : UInt32)
  | ret (ptr : Ptr) (routine : Routine) (value : Option UInt32)

structure State (Task Ptr : Type) where
  mem : Ptr → UInt32
  reserve : Task → Option Ptr
  pc : Task → Pc Ptr

def boot (mem : Ptr → UInt32) : State Task Ptr := ⟨mem, fun _ => none, fun _ => .idle⟩

inductive Label (Task Ptr : Type) where
  | call (t : Task) (ptr : Ptr) (routine : Routine)
  | load (t : Task)
  | lwarx (t : Task)
  | cmpw (t : Task)
  | stwcx (t : Task) (ptr : Ptr) (stored : Bool)
  | out (t : Task) (ptr : Ptr) (again : Bool)
  | ret (t : Task) (ptr : Ptr) (routine : Routine) (value : Option UInt32)
  -- a reservation that is lost without a store to its word
  | lose (t : Task)
  deriving DecidableEq

/-- Where a call starts. -/
def Routine.entry (ptr : Ptr) : Routine → Pc Ptr
  | .loop call => .load ptr call
  | .cas old new => .lwarx ptr (.direct old new)

/-- A loop goes on where the swap did not return what the loop had read. -/
def Attempt.again (prev : UInt32) : Attempt → Bool
  | .loop _ old => prev != old
  | .direct _ _ => false

/-- Where a call goes on after the swap. -/
def Attempt.exit (ptr : Ptr) (prev : UInt32) : Attempt → Pc Ptr
  | .loop call old => if prev ≠ old then .load ptr call
      else .ret ptr (.loop call) (call.body.value old)
  | .direct old new => .ret ptr (.cas old new) (some prev)

/-! What the functions mean. -/

/-- The word after the call and what it returns, from the word before. -/
def Routine.meaning : Routine → UInt32 → UInt32 × Option UInt32
  | .loop call, w =>
      let after := UInt32.ofNat (call.effect w.toNat).toNat
      (after, call.answer w after)
  | .cas old new, w => (if w = old then new else w, some w)

theorem meaning_loop (call : Call) (w : UInt32) :
    (Routine.loop call).meaning w = (call.body.next w, call.body.value w) := by
  have next : UInt32.ofNat (call.effect w.toNat).toNat = call.body.next w := by
    rw [← effect_eq, Int.toNat_natCast, UInt32.ofNat_toNat]
  simp only [Routine.meaning, next, answer_eq]

/-! While a task has its reservation, the word is what its `lwarx` read. -/

def Pc.Held (mem : Ptr → UInt32) (reserve : Option Ptr) : Pc Ptr → Prop
  | .cmpw ptr _ prev => reserve = some ptr → mem ptr = prev
  | .stwcx ptr attempt prev => prev = attempt.old ∧ (reserve = some ptr → mem ptr = prev)
  | _ => True

def Held (s : State Task Ptr) : Prop := ∀ t, (s.pc t).Held s.mem (s.reserve t)

theorem held_lost {mem : Ptr → UInt32} {reserve : Option Ptr} {pc : Pc Ptr}
    (held : pc.Held mem reserve) : pc.Held mem none := by
  cases pc with
  | stwcx ptr attempt prev => exact ⟨held.1, nofun⟩
  | cmpw ptr attempt prev => exact nofun
  | _ => trivial

/-! The phase of the object that each place is. A swap that fails takes effect where
`lwarx` reads the other word; the call of a loop is then still to take effect. -/

open AtomicObject (Phase)

def Attempt.missed (ptr : Ptr) (prev : UInt32) : Attempt → Phase (Ptr × Routine) (Option UInt32)
  | .loop call _ => .pending (ptr, .loop call)
  | .direct old new => .done (ptr, .cas old new) (some prev)

def Pc.phase : Pc Ptr → Phase (Ptr × Routine) (Option UInt32)
  | .idle => .idle
  | .load ptr call => .pending (ptr, .loop call)
  | .lwarx ptr attempt => .pending (ptr, attempt.routine)
  | .cmpw ptr attempt prev =>
      if prev = attempt.old then .pending (ptr, attempt.routine) else attempt.missed ptr prev
  | .stwcx ptr attempt _ => .pending (ptr, attempt.routine)
  | .out ptr attempt prev =>
      if prev = attempt.old then .done (ptr, attempt.routine) (attempt.value prev)
      else attempt.missed ptr prev
  | .ret ptr routine value => .done (ptr, routine) value

def view (s : State Task Ptr) :
    AtomicObject.State Task (Ptr × Routine) (Ptr → UInt32) (Option UInt32) :=
  ⟨s.mem, Pc.phase ∘ s.pc⟩

/-- The instruction at which a call takes effect: the `stwcx.` that stores, or for a swap
that fails the `lwarx` that reads the other word. -/
def shown (move : Move (State Task Ptr) (Label Task Ptr)) :
    Option (AtomicObject.Label Task (Ptr × Routine) (Option UInt32)) :=
  match move.label with
  | .call t ptr routine => some (.call t (ptr, routine))
  | .lwarx t =>
      match move.before.pc t with
      | .lwarx ptr (.direct old new) =>
          if move.before.mem ptr = old then none else some (.effect t (ptr, .cas old new))
      | _ => none
  | .stwcx t ptr true =>
      match move.before.pc t with
      | .stwcx _ attempt _ => some (.effect t (ptr, attempt.routine))
      | _ => none
  | .ret t ptr routine value => some (.ret t (ptr, routine) value)
  | _ => none

theorem phase_exit (ptr : Ptr) (attempt : Attempt) (prev : UInt32) :
    (attempt.exit ptr prev).phase = (Pc.out ptr attempt prev).phase := by
  cases attempt with
  | loop call old =>
      by_cases same : prev = old
      · simp [Attempt.exit, Pc.phase, Attempt.old, Attempt.routine, Attempt.value, same]
      · simp [Attempt.exit, Pc.phase, Attempt.old, Attempt.missed, same]
  | direct old new =>
      by_cases same : prev = old
      · simp [Attempt.exit, Pc.phase, Attempt.old, Attempt.routine, Attempt.value, same]
      · simp [Attempt.exit, Pc.phase, Attempt.old, Attempt.missed, same]

theorem missed_busy (ptr : Ptr) (attempt : Attempt) (prev : UInt32) :
    attempt.missed ptr prev ≠ .idle := by
  cases attempt <;> simp [Attempt.missed]

theorem phase_idle (pc : Pc Ptr) : pc.phase = .idle ↔ pc = .idle := by
  cases pc with
  | cmpw ptr attempt prev =>
      simp only [Pc.phase, reduceCtorEq, iff_false]
      split
      · nofun
      · exact missed_busy ptr attempt prev
  | out ptr attempt prev =>
      simp only [Pc.phase, reduceCtorEq, iff_false]
      split
      · nofun
      · exact missed_busy ptr attempt prev
  | _ => simp [Pc.phase]

variable [DecidableEq Task]

def State.goto (s : State Task Ptr) (t : Task) (pc : Pc Ptr) : State Task Ptr :=
  { s with pc := Function.update s.pc t pc }

def State.take (s : State Task Ptr) (t : Task) (ptr : Ptr) : State Task Ptr :=
  { s with reserve := Function.update s.reserve t (some ptr) }

def State.lose (s : State Task Ptr) (t : Task) : State Task Ptr :=
  { s with reserve := Function.update s.reserve t none }

theorem held_goto {s : State Task Ptr} {t : Task} {pc : Pc Ptr} (held : Held s)
    (own : pc.Held s.mem (s.reserve t)) : Held (s.goto t pc) := by
  intro u
  by_cases same : u = t
  · subst same
    simpa [State.goto] using own
  · simpa [State.goto, Function.update_of_ne same] using held u

theorem held_lose {s : State Task Ptr} (t : Task) (held : Held s) : Held (s.lose t) := by
  intro u
  by_cases same : u = t
  · subst same
    simpa [State.lose] using held_lost (held u)
  · simpa [State.lose, Function.update_of_ne same] using held u

theorem view_goto (s : State Task Ptr) (t : Task) (pc : Pc Ptr) :
    view (s.goto t pc) = (view s).goto t pc.phase := by
  simp only [view, State.goto, AtomicObject.State.goto, Function.comp_update]

theorem view_same {s : State Task Ptr} {t : Task} {pc : Pc Ptr}
    (same : pc.phase = (s.pc t).phase) : view (s.goto t pc) = view s := by
  rw [view_goto, same]
  change (⟨s.mem, Function.update (Pc.phase ∘ s.pc) t ((Pc.phase ∘ s.pc) t)⟩ :
    AtomicObject.State _ _ _ _) = view s
  rw [Function.update_eq_self]
  rfl

variable [DecidableEq Ptr]

def State.store (s : State Task Ptr) (ptr : Ptr) (new : UInt32) : State Task Ptr :=
  { s with
    mem := Function.update s.mem ptr new
    reserve := fun t => if s.reserve t = some ptr then none else s.reserve t }

inductive Step : State Task Ptr → Label Task Ptr → State Task Ptr → Prop where
  | call {s : State Task Ptr} {t : Task} {ptr : Ptr} {routine : Routine} (here : s.pc t = .idle) :
      Step s (.call t ptr routine) (s.goto t (routine.entry ptr))
  | load {s : State Task Ptr} {t : Task} {ptr : Ptr} {call : Call}
      (here : s.pc t = .load ptr call) :
      Step s (.load t) (s.goto t (.lwarx ptr (.loop call (s.mem ptr))))
  | lwarx {s : State Task Ptr} {t : Task} {ptr : Ptr} {attempt : Attempt}
      (here : s.pc t = .lwarx ptr attempt) :
      Step s (.lwarx t) ((s.take t ptr).goto t (.cmpw ptr attempt (s.mem ptr)))
  | equal {s : State Task Ptr} {t : Task} {ptr : Ptr} {attempt : Attempt} {prev : UInt32}
      (here : s.pc t = .cmpw ptr attempt prev) (same : prev = attempt.old) :
      Step s (.cmpw t) (s.goto t (.stwcx ptr attempt prev))
  -- `bne 2f`
  | unequal {s : State Task Ptr} {t : Task} {ptr : Ptr} {attempt : Attempt} {prev : UInt32}
      (here : s.pc t = .cmpw ptr attempt prev) (differs : prev ≠ attempt.old) :
      Step s (.cmpw t) (s.goto t (.out ptr attempt prev))
  | stored {s : State Task Ptr} {t : Task} {ptr : Ptr} {attempt : Attempt} {prev : UInt32}
      (here : s.pc t = .stwcx ptr attempt prev) (held : s.reserve t = some ptr) :
      Step s (.stwcx t ptr true) ((s.store ptr attempt.new).goto t (.out ptr attempt prev))
  -- `bne- 1b`
  | refused {s : State Task Ptr} {t : Task} {ptr : Ptr} {attempt : Attempt} {prev : UInt32}
      (here : s.pc t = .stwcx ptr attempt prev) (lost : s.reserve t ≠ some ptr) :
      Step s (.stwcx t ptr false) ((s.lose t).goto t (.lwarx ptr attempt))
  | out {s : State Task Ptr} {t : Task} {ptr : Ptr} {attempt : Attempt} {prev : UInt32}
      (here : s.pc t = .out ptr attempt prev) :
      Step s (.out t ptr (attempt.again prev)) (s.goto t (attempt.exit ptr prev))
  | ret {s : State Task Ptr} {t : Task} {ptr : Ptr} {routine : Routine} {value : Option UInt32}
      (here : s.pc t = .ret ptr routine value) :
      Step s (.ret t ptr routine value) (s.goto t .idle)
  | lose {s : State Task Ptr} {t : Task} : Step s (.lose t) (s.lose t)

abbrev History (Task Ptr : Type) := List (Move (State Task Ptr) (Label Task Ptr))

/-- A call of a function on one word of the memory. -/
def apply (op : Ptr × Routine) (mem : Ptr → UInt32) : (Ptr → UInt32) × Option UInt32 :=
  (Function.update mem op.1 (op.2.meaning (mem op.1)).1, (op.2.meaning (mem op.1)).2)

theorem apply_attempt (ptr : Ptr) (attempt : Attempt) (mem : Ptr → UInt32)
    (same : mem ptr = attempt.old) :
    apply (ptr, attempt.routine) mem =
      (Function.update mem ptr attempt.new, attempt.value (mem ptr)) := by
  cases attempt with
  | loop call old =>
      have read : mem ptr = old := same
      simp only [apply, Attempt.routine, meaning_loop, Attempt.new, Attempt.value, read]
  | direct old new =>
      have read : mem ptr = old := same
      simp only [apply, Attempt.routine, Routine.meaning, Attempt.new, Attempt.value, read,
        if_true]

theorem apply_missed (ptr : Ptr) (old new : UInt32) (mem : Ptr → UInt32)
    (differs : mem ptr ≠ old) : apply (ptr, .cas old new) mem = (mem, some (mem ptr)) := by
  simp only [apply, Routine.meaning, if_neg differs, Function.update_eq_self]

theorem held_store {mem : Ptr → UInt32} {reserve : Option Ptr} {pc : Pc Ptr} (ptr : Ptr)
    (new : UInt32) (held : pc.Held mem reserve) :
    pc.Held (Function.update mem ptr new) (if reserve = some ptr then none else reserve) := by
  by_cases taken : reserve = some ptr
  · rw [if_pos taken]
    have lost := held_lost held
    cases pc with
    | stwcx ptr attempt prev => exact ⟨lost.1, nofun⟩
    | cmpw ptr attempt prev => exact nofun
    | _ => trivial
  · rw [if_neg taken]
    have other : ∀ place, reserve = some place → Function.update mem ptr new place = mem place := by
      rintro place rfl
      apply Function.update_of_ne
      rintro rfl
      exact taken rfl
    cases pc with
    | stwcx place attempt prev =>
        exact ⟨held.1, fun has => (other place has).trans (held.2 has)⟩
    | cmpw place attempt prev => exact fun has => (other place has).trans (held has)
    | _ => trivial

theorem held_step {s s' : State Task Ptr} {label : Label Task Ptr} (held : Held s)
    (step : Step s label s') : Held s' := by
  cases step with
  | @call t ptr routine here =>
      apply held_goto held
      cases routine <;> trivial
  | load here => exact held_goto held trivial
  | @lwarx t ptr attempt here =>
      intro u
      by_cases same : u = t
      · subst same
        simp [State.goto, State.take, Pc.Held]
      · simpa [State.goto, State.take, Function.update_of_ne same] using held u
  | @equal t ptr attempt prev here same =>
      apply held_goto held
      have own := held t
      rw [here] at own
      exact ⟨same, own⟩
  | unequal here differs => exact held_goto held trivial
  | @stored t ptr attempt prev here has =>
      have kept : Held (s.store ptr attempt.new) := fun u => held_store ptr attempt.new (held u)
      exact held_goto kept trivial
  | @refused t ptr attempt prev here lost => exact held_goto (held_lose t held) trivial
  | @out t ptr attempt prev here =>
      apply held_goto held
      cases attempt with
      | loop call old =>
          by_cases differs : prev ≠ old
          · rw [Attempt.exit, if_pos differs]
            trivial
          · rw [Attempt.exit, if_neg differs]
            trivial
      | direct old new => trivial
  | ret here => exact held_goto held trivial
  | @lose t => exact held_lose t held

theorem effect_step {s : State Task Ptr} (after : State Task Ptr) {t : Task}
    {op : Ptr × Routine} {pc : Pc Ptr} {value : Option UInt32}
    (pending : (s.pc t).phase = .pending op)
    (applied : apply op s.mem = (after.mem, value)) (others : after.pc = s.pc)
    (done : pc.phase = .done op value) :
    AtomicObject.Step apply (view s) (.effect t op) (view (after.goto t pc)) := by
  have taken : AtomicObject.Step apply (view s) (.effect t op) _ := .effect pending
  change AtomicObject.Step apply (view s) (.effect t op)
    (AtomicObject.State.goto ⟨(apply op s.mem).1, Pc.phase ∘ s.pc⟩ t
      (.done op (apply op s.mem).2)) at taken
  rw [applied, ← others, ← done] at taken
  rwa [view_goto]

theorem simulates {s s' : State Task Ptr} {label : Label Task Ptr} (held : Held s)
    (step : Step s label s') :
    Refinement.Matches (AtomicObject.Step apply) view shown ⟨s, label, s'⟩ := by
  unfold Refinement.Matches
  cases step with
  | @call t ptr routine here =>
      have entered : (routine.entry ptr).phase = .pending (ptr, routine) := by
        cases routine <;> rfl
      simp only [shown, view_goto, entered]
      exact .call (by simp [view, here, Pc.phase])
  | load here =>
      simp only [shown]
      exact view_same (by rw [here]; rfl)
  | @lwarx t ptr attempt here =>
      have taken : view (s.take t ptr) = view s := rfl
      cases attempt with
      | loop call old =>
          simp only [shown, here]
          rw [view_goto, taken, ← view_goto]
          refine view_same ?_
          rw [here]
          simp only [Pc.phase, Attempt.missed, Attempt.routine, ite_self]
      | direct old new =>
          by_cases same : s.mem ptr = old
          · simp only [shown, here, if_pos same]
            rw [view_goto, taken, ← view_goto]
            refine view_same ?_
            rw [here]
            exact if_pos same
          · simp only [shown, here, if_neg same]
            apply effect_step (s.take t ptr)
            · rw [here]
              rfl
            · exact apply_missed ptr old new s.mem same
            · rfl
            · exact if_neg same
  | equal here same =>
      simp only [shown]
      refine view_same ?_
      rw [here]
      simp only [Pc.phase, if_pos same]
  | unequal here differs =>
      simp only [shown]
      refine view_same ?_
      rw [here]
      simp only [Pc.phase, if_neg differs]
  | @stored t ptr attempt prev here has =>
      have own := held t
      rw [here] at own
      have read : s.mem ptr = prev := own.2 has
      simp only [shown, here]
      apply effect_step (s.store ptr attempt.new)
      · rw [here]
        rfl
      · exact apply_attempt ptr attempt s.mem (read.trans own.1)
      · rfl
      · rw [read]
        exact if_pos own.1
  | @refused t ptr attempt prev here lost =>
      have kept : view (s.lose t) = view s := rfl
      simp only [shown]
      rw [view_goto, kept, ← view_goto]
      refine view_same ?_
      rw [here]
      rfl
  | @out t ptr attempt prev here =>
      simp only [shown]
      refine view_same ?_
      rw [here, phase_exit]
  | @ret t ptr routine value here =>
      simp only [shown, view_goto]
      exact .ret (by simp [view, here, Pc.phase])
  | lose => rfl

def Label.event : Label Task Ptr →
    Option (AtomicObject.Event Task (Ptr × Routine) (Option UInt32))
  | .call t ptr routine => some (.call t (ptr, routine))
  | .ret t ptr routine value => some (.ret t (ptr, routine) value)
  | _ => none

/-- The calls and returns of a history. -/
def events (history : History Task Ptr) :
    List (AtomicObject.Event Task (Ptr × Routine) (Option UInt32)) :=
  history.filterMap fun move => move.label.event

theorem shown_event {s s' : State Task Ptr} {label : Label Task Ptr} (step : Step s label s') :
    (shown ⟨s, label, s'⟩).bind AtomicObject.Label.event = label.event := by
  cases step with
  | @lwarx t ptr attempt here =>
      cases attempt with
      | loop call old => simp [shown, here, Label.event]
      | direct old new =>
          by_cases same : s.mem ptr = old
          · simp [shown, here, same, Label.event]
          · simp [shown, here, same, Label.event, AtomicObject.Label.event]
  | stored here has => simp [shown, here, Label.event, AtomicObject.Label.event]
  | _ => rfl

/-- In every interleaving of the instructions of any number of tasks, on any number of
words, the calls return what they would return from an object on which each of them
takes effect at one point between its call and its return. -/
theorem atomics_linearizable (mem : Ptr → UInt32) (history : History Task Ptr)
    (s : State Task Ptr) (trace : Trace Step (boot mem) history s) :
    ∃ (past : AtomicObject.History Task (Ptr × Routine) (Ptr → UInt32) (Option UInt32))
      (now : AtomicObject.State Task (Ptr × Routine) (Ptr → UInt32) (Option UInt32)),
      Trace (AtomicObject.Step apply) (AtomicObject.boot mem) past now ∧
      AtomicObject.events past = events history ∧ now.word = s.mem ∧
      ∀ t, now.phase t = .idle ↔ s.pc t = .idle := by
  have booted : Held (boot mem : State Task Ptr) := fun _ => trivial
  have refined := Refinement.image_trace Held booted (fun _ _ _ => held_step)
    (fun _ _ _ => simulates) trace
  refine ⟨_, _, refined, ?_, rfl, ?_⟩
  · apply Refinement.image_labels
    intro move member
    exact shown_event (trace_move trace member).2
  · intro t
    exact phase_idle (s.pc t)

/-- A swap of another task comes between the `lwarx` and the `stwcx.` of an increment. -/
theorem increment_refused_once :
    ∃ (past : AtomicObject.History Nat (Bool × Routine) (Bool → UInt32) (Option UInt32))
      (now : AtomicObject.State Nat (Bool × Routine) (Bool → UInt32) (Option UInt32)),
      Trace (AtomicObject.Step apply) (AtomicObject.boot fun _ => 5) past now ∧
      AtomicObject.events past = [.call 1 (true, .loop .incUintNv), .call 2 (true, .cas 5 9),
        .ret 2 (true, .cas 5 9) (some 5), .ret 1 (true, .loop .incUintNv) (some 10)] ∧
      now.word true = 10 := by
  have trace : Trace Step (boot fun _ => 5) _ _ :=
    .snoc (.snoc (.snoc (.snoc (.snoc (.snoc (.snoc (.snoc (.snoc (.snoc (.snoc (.snoc (.snoc (.snoc
      (.snoc (.snoc (.snoc (.snoc (.snoc (.snoc .nil
      (.call rfl : Step _ (.call 1 true (.loop .incUintNv)) _)) (.load (t := 1) rfl))
      (.lwarx (t := 1) rfl)) (.equal (t := 1) rfl rfl))
      (.call rfl : Step _ (.call 2 true (.cas 5 9)) _)) (.lwarx (t := 2) rfl))
      (.equal (t := 2) rfl rfl)) (.stored (t := 2) rfl rfl)) (.refused (t := 1) rfl (by decide)))
      (.lwarx (t := 1) rfl)) (.unequal (t := 1) rfl (by decide))) (.out (t := 2) rfl))
      (.ret (t := 2) rfl)) (.out (t := 1) rfl)) (.load (t := 1) rfl)) (.lwarx (t := 1) rfl))
      (.equal (t := 1) rfl rfl)) (.stored (t := 1) rfl rfl)) (.out (t := 1) rfl)) (.ret (t := 1) rfl)
  obtain ⟨past, now, refined, same, word, -⟩ := atomics_linearizable _ _ _ trace
  exact ⟨past, now, refined, same, congrFun word true⟩

/-! Progress. Every time a loop starts again or a `stwcx.` is refused, another task has
stored to the word in the meantime, or the reservation was lost. -/

def Label.task : Label Task Ptr → Task
  | .call t _ _ => t
  | .load t => t
  | .lwarx t => t
  | .cmpw t => t
  | .stwcx t _ _ => t
  | .out t _ _ => t
  | .ret t _ _ _ => t
  | .lose t => t

def Label.retries (t : Task) (ptr : Ptr) (label : Label Task Ptr) : Bool :=
  label = .out t ptr true

def Label.refused (t : Task) (ptr : Ptr) (label : Label Task Ptr) : Bool :=
  label = .stwcx t ptr false

def Label.storedByOther (t : Task) (ptr : Ptr) : Label Task Ptr → Bool
  | .stwcx u place true => u ≠ t ∧ place = ptr
  | _ => false

def Label.lost (t : Task) (label : Label Task Ptr) : Bool := label = .lose t

/-- The loop at this place is to start again as things stand. -/
def Pc.stale (mem : Ptr → UInt32) (ptr : Ptr) : Pc Ptr → Bool
  | .lwarx place attempt => place == ptr && attempt.again (mem ptr)
  | .cmpw place attempt prev => place == ptr && (attempt.again prev || attempt.again (mem ptr))
  | .stwcx place attempt prev => place == ptr && (attempt.again prev || attempt.again (mem ptr))
  | .out place attempt prev => place == ptr && attempt.again prev
  | _ => false

/-- The next `stwcx.` is to be refused as things stand. -/
def Pc.unreserved (reserve : Option Ptr) (ptr : Ptr) : Pc Ptr → Bool
  | .cmpw place _ _ => place == ptr && reserve != some ptr
  | .stwcx place _ _ => place == ptr && reserve != some ptr
  | _ => false

theorem step_other {s s' : State Task Ptr} {label : Label Task Ptr} {t : Task}
    (step : Step s label s') (other : label.task ≠ t) :
    s'.pc t = s.pc t ∧ ∀ ptr, label.storedByOther t ptr = false →
      s'.mem ptr = s.mem ptr ∧ (s'.reserve t = some ptr ↔ s.reserve t = some ptr) := by
  have apart : t ≠ label.task := fun same => other same.symm
  have kept : ∀ taken ptr,
      Function.update s.reserve label.task taken t = some ptr ↔ s.reserve t = some ptr := by
    intro taken ptr
    rw [Function.update_of_ne apart]
  cases step with
  | @stored u place attempt prev here has =>
      refine ⟨Function.update_of_ne apart .., ?_⟩
      intro ptr elsewhere
      have differs : ptr ≠ place := by
        rintro rfl
        simp only [Label.storedByOther, and_true, decide_eq_false_iff_not] at elsewhere
        exact elsewhere other
      refine ⟨Function.update_of_ne differs .., ?_⟩
      simp only [State.goto, State.store]
      by_cases taken : s.reserve t = some place
      · rw [if_pos taken, taken]
        simp [differs.symm]
      · rw [if_neg taken]
  | lwarx here => exact ⟨Function.update_of_ne apart .., fun ptr _ => ⟨rfl, kept _ ptr⟩⟩
  | refused here lost => exact ⟨Function.update_of_ne apart .., fun ptr _ => ⟨rfl, kept _ ptr⟩⟩
  | lose => exact ⟨rfl, fun ptr _ => ⟨rfl, kept _ ptr⟩⟩
  | _ => exact ⟨Function.update_of_ne apart .., fun _ _ => ⟨rfl, Iff.rfl⟩⟩

/-- Nothing its own task does makes a loop start again. -/
theorem stale_own {s s' : State Task Ptr} {label : Label Task Ptr} (ptr : Ptr)
    (step : Step s label s') (after : (s'.pc label.task).stale s'.mem ptr = true) :
    (s.pc label.task).stale s.mem ptr = true := by
  cases step with
  | @call t place routine here =>
      cases routine <;>
        simp [Label.task, State.goto, Routine.entry, Pc.stale, Attempt.again] at after
  | @load t place call here =>
      simp only [Label.task, State.goto, Function.update_self, Pc.stale, Attempt.again,
        Bool.and_eq_true, beq_iff_eq] at after
      obtain ⟨rfl, differs⟩ := after
      simp at differs
  | lwarx here =>
      simp only [Label.task, State.goto, State.take, Function.update_self, Pc.stale,
        Bool.and_eq_true, beq_iff_eq, Bool.or_eq_true] at after
      obtain ⟨rfl, again⟩ := after
      simp only [Label.task, here, Pc.stale, beq_self_eq_true, Bool.true_and]
      exact again.elim id id
  | equal here same =>
      simp only [Label.task, here]
      simpa [Label.task, State.goto, Pc.stale] using after
  | unequal here differs =>
      simp only [Label.task, State.goto, Function.update_self, Pc.stale, Bool.and_eq_true] at after
      simp [Label.task, here, Pc.stale, after]
  | stored here has =>
      simp only [Label.task, State.goto, Function.update_self, Pc.stale, Bool.and_eq_true] at after
      simp [Label.task, here, Pc.stale, after]
  | refused here lost =>
      simp only [Label.task, State.goto, State.lose, Function.update_self, Pc.stale,
        Bool.and_eq_true] at after
      simp [Label.task, here, Pc.stale, after]
  | @out t place attempt prev here =>
      have left : ∀ mem, (attempt.exit place prev).stale mem ptr = false := by
        intro mem
        cases attempt with
        | loop call old => by_cases same : prev = old <;> simp [Attempt.exit, Pc.stale, same]
        | direct old new => rfl
      simp [Label.task, State.goto, left] at after
  | ret here => simp [Label.task, State.goto, Pc.stale] at after
  | lose => exact after

/-- Its own task ends a reservation only where it leaves the loop. -/
theorem unreserved_own {s s' : State Task Ptr} {label : Label Task Ptr} (ptr : Ptr)
    (step : Step s label s') (kept : label.lost label.task = false)
    (after : (s'.pc label.task).unreserved (s'.reserve label.task) ptr = true) :
    (s.pc label.task).unreserved (s.reserve label.task) ptr = true := by
  cases step with
  | @call t place routine here =>
      cases routine <;> simp [Label.task, State.goto, Routine.entry, Pc.unreserved] at after
  | lwarx here =>
      simp only [Label.task, State.goto, State.take, Function.update_self, Pc.unreserved,
        Bool.and_eq_true, beq_iff_eq] at after
      obtain ⟨rfl, differs⟩ := after
      simp at differs
  | equal here same =>
      simp only [Label.task, here]
      simpa [Label.task, State.goto, Pc.unreserved] using after
  | @out t place attempt prev here =>
      have left : ∀ reserve, (attempt.exit place prev).unreserved reserve ptr = false := by
        intro reserve
        cases attempt with
        | loop call old => by_cases same : prev = old <;> simp [Attempt.exit, Pc.unreserved, same]
        | direct old new => rfl
      simp [Label.task, State.goto, left] at after
  | lose => simp [Label.lost, Label.task] at kept
  | _ => simp [Label.task, State.goto, Pc.unreserved] at after

theorem retries_stale {s s' : State Task Ptr} {label : Label Task Ptr} {t : Task} {ptr : Ptr}
    (step : Step s label s') (retried : label.retries t ptr = true) :
    (s.pc t).stale s.mem ptr = true ∧ (s'.pc t).stale s'.mem ptr = false := by
  simp only [Label.retries, decide_eq_true_eq] at retried
  cases step with
  | @out u place attempt prev here =>
      simp only [Label.out.injEq] at retried
      obtain ⟨rfl, rfl, again⟩ := retried
      constructor
      · simp [here, Pc.stale, again]
      · cases attempt with
        | loop call old =>
            by_cases same : prev = old <;> simp [State.goto, Attempt.exit, Pc.stale, same]
        | direct old new => simp [State.goto, Attempt.exit, Pc.stale]
  | _ => cases retried

theorem refused_unreserved {s s' : State Task Ptr} {label : Label Task Ptr} {t : Task} {ptr : Ptr}
    (step : Step s label s') (refused : label.refused t ptr = true) :
    (s.pc t).unreserved (s.reserve t) ptr = true ∧
      (s'.pc t).unreserved (s'.reserve t) ptr = false := by
  simp only [Label.refused, decide_eq_true_eq] at refused
  cases step with
  | @refused u place attempt prev here lost =>
      simp only [Label.stwcx.injEq, and_true] at refused
      obtain ⟨rfl, rfl⟩ := refused
      constructor
      · simp [here, Pc.unreserved, lost]
      · simp [State.goto, Pc.unreserved]
  | _ => cases refused

theorem stale_congr {mem mem' : Ptr → UInt32} {ptr : Ptr} (same : mem' ptr = mem ptr)
    (pc : Pc Ptr) : pc.stale mem' ptr = pc.stale mem ptr := by
  cases pc <;> simp [Pc.stale, same]

theorem unreserved_congr {reserve reserve' : Option Ptr} {ptr : Ptr}
    (same : reserve' = some ptr ↔ reserve = some ptr) (pc : Pc Ptr) :
    pc.unreserved reserve' ptr = pc.unreserved reserve ptr := by
  have alike : (reserve' != some ptr) = (reserve != some ptr) := by
    rw [Bool.eq_iff_iff]
    simp only [bne_iff_ne, ne_eq, same]
  cases pc <;> simp [Pc.unreserved, alike]

theorem stale_set {s s' : State Task Ptr} {label : Label Task Ptr} {t : Task} {ptr : Ptr}
    (step : Step s label s') (fresh : (s.pc t).stale s.mem ptr = false)
    (stale : (s'.pc t).stale s'.mem ptr = true) : label.storedByOther t ptr = true := by
  by_cases own : label.task = t
  · subst own
    rw [stale_own ptr step stale] at fresh
    cases fresh
  · by_contra elsewhere
    obtain ⟨place, frame⟩ := step_other step own
    obtain ⟨same, -⟩ := frame ptr (Bool.not_eq_true _ ▸ elsewhere)
    rw [place, stale_congr same, fresh] at stale
    cases stale

theorem unreserved_set {s s' : State Task Ptr} {label : Label Task Ptr} {t : Task} {ptr : Ptr}
    (step : Step s label s') (held : (s.pc t).unreserved (s.reserve t) ptr = false)
    (ended : (s'.pc t).unreserved (s'.reserve t) ptr = true) :
    (label.storedByOther t ptr || label.lost t) = true := by
  by_contra neither
  simp only [Bool.or_eq_true, not_or, Bool.not_eq_true] at neither
  obtain ⟨elsewhere, kept⟩ := neither
  by_cases own : label.task = t
  · subst own
    rw [unreserved_own ptr step kept ended] at held
    cases held
  · obtain ⟨place, frame⟩ := step_other step own
    rw [place, unreserved_congr (frame ptr elsewhere).2, held] at ended
    cases ended

/-- In every interleaving a loop of a task starts again at most as often as other tasks
store to its word, and its `stwcx.` is refused at most as often as that and as the
task's reservation is lost. -/
theorem retries_bounded (mem : Ptr → UInt32) (history : History Task Ptr) (s : State Task Ptr)
    (trace : Trace Step (boot mem) history s) (t : Task) (ptr : Ptr) :
    history.countP (fun move => move.label.retries t ptr) ≤
        history.countP (fun move => move.label.storedByOther t ptr) ∧
      history.countP (fun move => move.label.refused t ptr) ≤
        history.countP fun move => move.label.storedByOther t ptr || move.label.lost t := by
  constructor
  · have bound := charged (fun s => (s.pc t).stale s.mem ptr) (Label.storedByOther t ptr)
      (Label.retries t ptr) rfl (fun _ _ _ step => stale_set step)
      (fun _ _ _ step => retries_stale step) trace
    omega
  · have bound := charged (fun s => (s.pc t).unreserved (s.reserve t) ptr)
      (fun label => label.storedByOther t ptr || label.lost t) (Label.refused t ptr) rfl
      (fun _ _ _ step => unreserved_set step) (fun _ _ _ step => refused_unreserved step) trace
    omega

/-- An increment that reads before the swap of another task starts again once. -/
theorem increment_again_once :
    ∃ history : History Nat Bool,
      history.map Move.label = [.call 1 true (.loop .incUint), .load 1,
        .call 2 true (.cas 5 9), .lwarx 2, .cmpw 2, .stwcx 2 true true, .lwarx 1, .cmpw 1,
        .out 1 true true] ∧
      history.countP (fun move => move.label.retries 1 true) = 1 ∧
      history.countP (fun move => move.label.retries 1 true) ≤
        history.countP (fun move => move.label.storedByOther 1 true) ∧
      history.countP (fun move => move.label.refused 1 true) ≤
        history.countP fun move => move.label.storedByOther 1 true || move.label.lost 1 := by
  have trace : Trace Step (boot fun _ => 5) _ _ :=
    .snoc (.snoc (.snoc (.snoc (.snoc (.snoc (.snoc (.snoc (.snoc .nil
      (.call rfl : Step _ (.call 1 true (.loop .incUint)) _)) (.load (t := 1) rfl))
      (.call rfl : Step _ (.call 2 true (.cas 5 9)) _)) (.lwarx (t := 2) rfl))
      (.equal (t := 2) rfl rfl)) (.stored (t := 2) rfl rfl)) (.lwarx (t := 1) rfl))
      (.unequal (t := 1) rfl (by decide))) (.out (t := 1) rfl)
  exact ⟨_, rfl, rfl, retries_bounded _ _ _ trace 1 true⟩

end Netstack.Reservations
