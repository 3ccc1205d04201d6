import Mathlib.Data.Finset.Basic
import Mathlib.Data.Fintype.Basic
import Mathlib.Tactic.Common
import Netstack.Transition

/-!
The memory of `osal_thread.c` while threads run. A step is one access to a thread record
or to the argument of the shim, one exec call, or the section under Forbid that makes the
task. An access to memory that is not allocated crashes the task that makes it. Memory,
tasks and signal bits are given out again as soon as they are free. A thread finds its
record in `tc_UserData`, which nothing changes after the create.

Three things are kept for the proofs, and no branch reads them: the stage of a record, the
task that will free a wrap, and in `createCheck` and `start` a copy of what the record holds.
-/

namespace Netstack.ThreadRecords

open Transition

variable {Task Obj : Type}

/-- How far a record is: without a signal bit, with one, with a task that its creator does
not know of yet, known to the creator, handed to a join, and without its task. -/
inductive Stage where
  | bare
  | armed
  | spawned
  | returned
  | joining
  | reaped
  deriving DecidableEq

/-- `struct osal_thread`; `fn` is the shim where `arg` is a wrap. -/
structure Record (Task Obj : Type) where
  task : Option Task
  joiner : Task
  joinSigbit : Option (Fin 32)
  arg : Option Obj
  done : Bool
  stage : Stage

def Record.atStage (stage : Stage) (record : Record Task Obj) : Record Task Obj :=
  { record with stage := stage }

inductive Pc (Task Obj : Type) where
  | gone
  | crashed
  -- In code of its own, which for a thread is its function.
  | ready
  | createWrap
  | createRecord (rw : Option Obj)
  | createSignal (rw : Option Obj) (t : Obj)
  | createTask (rw : Option Obj) (t : Obj)
  | createCheck (rw : Option Obj) (t : Obj) (task : Option Task)
  | undoSignal (rw : Option Obj) (t : Obj)
  | undoRecord (rw : Option Obj) (t : Obj)
  | undoWrap (rw : Option Obj)
  | joinPoll (t : Obj)
  | joinRemove (t : Obj)
  | joinSignal (t : Obj)
  | joinFree (t : Obj)
  | start (arg : Option Obj)
  | shim (rw : Obj)
  | markDone
  | readSignal
  | send (joiner : Task) (bit : Option (Fin 32))
  | parked
  | exited

structure State (Task Obj : Type) where
  pc : Task → Pc Task Obj
  userData : Task → Option Obj
  records : Obj → Option (Record Task Obj)
  wraps : Obj → Option Task
  sigAlloc : Task → Finset (Fin 32)

/-- The tasks there are from the start hold the signal bits they hold. -/
def boot (roots : Task → Bool) (held : Task → Finset (Fin 32)) : State Task Obj where
  pc t := if roots t then .ready else .gone
  userData _ := none
  records _ := none
  wraps _ := none
  sigAlloc := held

/-- An allocation comes with its result, the making of a task with the task and the signal
bits that exec gives it. -/
inductive Event (Task Obj : Type) where
  | create (me : Task) (rump given : Bool)
  | malloc (me : Task) (got : Option Obj)
  | allocSignal (me : Task) (bit : Option (Fin 32))
  | createTask (me : Task) (made : Option (Task × Finset (Fin 32)))
  | check (me : Task)
  | undo (me : Task)
  | join (me : Task) (t : Option Obj)
  | poll (me : Task)
  | remTask (me : Task)
  | freeSignal (me : Task)
  | free (me : Task)
  | enter (me : Task)
  | unwrap (me : Task)
  | returns (me : Task)
  | exits (me : Task)
  | mark (me : Task)
  | look (me : Task)
  | signal (me : Task)

section Steps

variable [DecidableEq Task] [DecidableEq Obj]

def State.goto (s : State Task Obj) (t : Task) (pc : Pc Task Obj) : State Task Obj :=
  { s with pc := Function.update s.pc t pc }

def State.setRecord (s : State Task Obj) (t : Obj) (record : Option (Record Task Obj)) :
    State Task Obj :=
  { s with records := Function.update s.records t record }

def State.setWrap (s : State Task Obj) (rw : Obj) (holder : Option Task) : State Task Obj :=
  { s with wraps := Function.update s.wraps rw holder }

def State.setSignals (s : State Task Obj) (t : Task) (bits : Finset (Fin 32)) : State Task Obj :=
  { s with sigAlloc := Function.update s.sigAlloc t bits }

/-- What `me` does with the record at `t`, if there is one. -/
def State.access (s : State Task Obj) (me : Task) (t : Obj)
    (body : Record Task Obj → Option (State Task Obj)) : Option (State Task Obj) :=
  match s.records t with
  | some record => body record
  | none => some (s.goto me .crashed)

def State.osalFreeRecord (s : State Task Obj) (me : Task) (t : Obj) (next : Pc Task Obj) :
    Option (State Task Obj) :=
  s.access me t fun _ => some ((s.setRecord t none).goto me next)

def State.osalFreeWrap (s : State Task Obj) (me : Task) (rw : Obj) (next : Pc Task Obj) :
    Option (State Task Obj) :=
  match s.wraps rw with
  | some _ => some ((s.setWrap rw none).goto me next)
  | none => some (s.goto me .crashed)

/-- FreeSignal on the bit in a record. -/
def State.osalFreeSignal (s : State Task Obj) (me : Task) (record : Record Task Obj) :
    State Task Obj :=
  match record.joinSigbit with
  | some bit => s.setSignals me (s.sigAlloc me \ {bit})
  | none => s

def step (s : State Task Obj) : Event Task Obj → Option (State Task Obj)
  | .create me rump given =>
      match s.pc me with
      | .ready =>
          some (if rump then s.goto me .createWrap
            else if given then s.goto me (.createRecord none)
            else s)
      | _ => none
  | .malloc me got =>
      match s.pc me, got with
      | .createWrap, some rw =>
          if s.wraps rw = none then
            some ((s.setWrap rw (some me)).goto me (.createRecord (some rw)))
          else none
      | .createWrap, none => some (s.goto me .ready)
      | .createRecord rw, some t =>
          if (s.records t).isNone then
            some ((s.setRecord t (some ⟨none, me, none, rw, false, .bare⟩)).goto me
              (.createSignal rw t))
          else none
      | .createRecord rw, none => some (s.goto me (.undoWrap rw))
      | _, _ => none
  | .allocSignal me bit =>
      match s.pc me, bit with
      | .createSignal rw t, some b =>
          if b ∈ s.sigAlloc me then none
          else s.access me t fun record =>
            some (((s.setRecord t (some { record with
                joinSigbit := some b, stage := .armed })).setSignals me
              (insert b (s.sigAlloc me))).goto me (.createTask rw t))
      | .createSignal rw t, none => some (s.goto me (.undoRecord rw t))
      | _, _ => none
  -- Between Forbid and Permit: the new task is not run before tc_UserData is set.
  | .createTask me made =>
      match s.pc me, made with
      | .createTask rw t, some (child, bits) =>
          match s.pc child with
          | .gone =>
              s.access me t fun record =>
                let made := (s.setRecord t (some { record with
                  task := some child, stage := .spawned })).setSignals child bits
                let moved : State Task Obj :=
                  { made with
                    userData := Function.update s.userData child (some t)
                    wraps := fun w => if record.arg = some w then some child else s.wraps w }
                some ((moved.goto child (.start record.arg)).goto me
                  (.createCheck rw t (some child)))
          | _ => none
      | .createTask rw t, none =>
          s.access me t fun record =>
            some ((s.setRecord t (some { record with task := none })).goto me
              (.createCheck rw t none))
      | _, _ => none
  | .check me =>
      match s.pc me with
      | .createCheck rw t _ =>
          s.access me t fun record =>
            if record.task = none then some (s.goto me (.undoSignal rw t))
            else some ((s.setRecord t (some (record.atStage .returned))).goto me .ready)
      | _ => none
  | .undo me =>
      match s.pc me with
      | .undoSignal rw t =>
          s.access me t fun record =>
            some (((s.osalFreeSignal me record).setRecord t
              (some (record.atStage .bare))).goto me (.undoRecord rw t))
      | .undoRecord rw t => s.osalFreeRecord me t (.undoWrap rw)
      | .undoWrap (some rw) => s.osalFreeWrap me rw .ready
      | .undoWrap none => some (s.goto me .ready)
      | _ => none
  | .join me t =>
      match s.pc me, t with
      | .ready, some t =>
          some ((s.setRecord t ((s.records t).map (Record.atStage .joining))).goto me (.joinPoll t))
      | .ready, none => some s
      | _, _ => none
  | .poll me =>
      match s.pc me with
      | .joinPoll t =>
          s.access me t fun record =>
            some (s.goto me (if record.done then .joinRemove t else .joinPoll t))
      | _ => none
  | .remTask me =>
      match s.pc me with
      | .joinRemove t =>
          s.access me t fun record =>
            match record.task with
            | some child =>
                some (((s.setRecord t (some (record.atStage .reaped))).goto child
                  .gone).goto me (.joinSignal t))
            | none => some (s.goto me .crashed)
      | _ => none
  | .freeSignal me =>
      match s.pc me with
      | .joinSignal t =>
          s.access me t fun record =>
            some (((s.osalFreeSignal me record).setRecord t
              (some (record.atStage .bare))).goto me (.joinFree t))
      | _ => none
  | .free me =>
      match s.pc me with
      | .joinFree t => s.osalFreeRecord me t .ready
      | _ => none
  | .enter me =>
      match s.pc me, s.userData me with
      | .start _, some t =>
          s.access me t fun record => some (s.goto me (match record.arg with
            | some rw => .shim rw
            | none => .ready))
      | .start _, none => some (s.goto me .crashed)
      | _, _ => none
  | .unwrap me =>
      match s.pc me with
      | .shim rw => s.osalFreeWrap me rw .ready
      | _ => none
  | .returns me =>
      match s.pc me, s.userData me with
      | .ready, some _ => some (s.goto me .markDone)
      | _, _ => none
  | .exits me =>
      match s.pc me with
      | .ready => some (s.goto me .exited)
      | _ => none
  | .mark me =>
      match s.pc me, s.userData me with
      | .markDone, some t =>
          s.access me t fun record =>
            some ((s.setRecord t (some { record with done := true })).goto me .readSignal)
      | .markDone, none => some (s.goto me .crashed)
      | _, _ => none
  | .look me =>
      match s.pc me, s.userData me with
      | .readSignal, some t =>
          s.access me t fun record => some (s.goto me (.send record.joiner record.joinSigbit))
      | .readSignal, none => some (s.goto me .crashed)
      | _, _ => none
  | .signal me =>
      match s.pc me with
      | .send _ _ => some (s.goto me .parked)
      | _ => none

def Steps (s : State Task Obj) (e : Event Task Obj) (s' : State Task Obj) : Prop :=
  step s e = some s'

end Steps

/-! What a task holds. -/

/-- The record that is in the hands of a task, and the stage it is at. -/
@[simp] def Pc.record : Pc Task Obj → Option (Obj × Stage)
  | .createSignal _ t | .undoRecord _ t | .joinFree t => some (t, .bare)
  | .createTask _ t | .createCheck _ t none | .undoSignal _ t => some (t, .armed)
  | .createCheck _ t (some _) => some (t, .spawned)
  | .joinPoll t | .joinRemove t => some (t, .joining)
  | .joinSignal t => some (t, .reaped)
  | _ => none

/-- The wrap that a task will free or hand on. -/
@[simp] def Pc.wrap : Pc Task Obj → Option Obj
  | .createRecord rw | .createSignal rw _ | .createTask rw _ | .createCheck rw _ none
  | .undoSignal rw _ | .undoRecord rw _ | .undoWrap rw | .start rw => rw
  | .shim rw => some rw
  | _ => none

/-- What the pc of a creator says of the record in its hands. -/
@[simp] def Pc.Agrees (record : Record Task Obj) : Pc Task Obj → Prop
  | .createSignal rw _ | .createTask rw _ => record.arg = rw ∧ record.done = false
  | .createCheck _ _ task => record.task = task
  | .joinRemove _ => record.done = true
  | _ => True

/-- Whether a thread has set `done`. -/
@[simp] def Pc.noted : Pc Task Obj → Bool
  | .readSignal | .send _ _ | .parked => true
  | _ => false

/-- What the pc of a thread says of its record. -/
@[simp] def Pc.Knows (record : Record Task Obj) : Pc Task Obj → Prop
  | .start arg => record.arg = arg
  | .send joiner bit => record.joiner = joiner ∧ record.joinSigbit = bit
  | _ => True

@[simp] def Pc.trampoline : Pc Task Obj → Bool
  | .start _ | .markDone | .readSignal | .send _ _ => true
  | _ => false

def Stage.hasBit : Stage → Bool
  | .bare => false
  | _ => true

def Stage.hasTask : Stage → Bool
  | .spawned | .returned | .joining => true
  | _ => false

theorem hasBit_of_hasTask {stage : Stage} (task : stage.hasTask = true) :
    stage.hasBit = true := by
  cases stage with
  | bare => cases task
  | _ => rfl

structure SoundIn (pc : Task → Pc Task Obj) (userData : Task → Option Obj)
    (records : Obj → Option (Record Task Obj)) (wraps : Obj → Option Task)
    (sigAlloc : Task → Finset (Fin 32)) : Prop where
  uncrashed : ∀ t, pc t ≠ .crashed
  -- Every record is in somebody's hands, or its creator got it from the create.
  held : ∀ t record, records t = some record → pc record.joiner ≠ .gone ∧
    (record.stage = .returned ∨ (pc record.joiner).record = some (t, record.stage))
  holds : ∀ me t stage, (pc me).record = some (t, stage) → ∃ record,
    records t = some record ∧ record.joiner = me ∧ record.stage = stage ∧ (pc me).Agrees record
  armed : ∀ t record, records t = some record → record.stage.hasBit = true →
    ∃ bit, record.joinSigbit = some bit ∧ bit ∈ sigAlloc record.joiner
  apart : ∀ t other record record', records t = some record → records other = some record' →
    record.stage.hasBit = true → record'.stage.hasBit = true →
    record.joiner = record'.joiner → record.joinSigbit = record'.joinSigbit → t = other
  tasked : ∀ t record, records t = some record → record.stage.hasTask = true →
    ∃ child, record.task = some child ∧ pc child ≠ .gone ∧ userData child = some t
  thread : ∀ me t, pc me ≠ .gone → userData me = some t → ∃ record,
    records t = some record ∧ record.task = some me ∧ record.stage.hasTask = true ∧
      record.done = (pc me).noted ∧ (pc me).Knows record
  begun : ∀ me, (pc me).trampoline = true → ∃ t, userData me = some t
  wraps : ∀ rw me, wraps rw = some me ↔ (pc me).wrap = some rw

def Sound (s : State Task Obj) : Prop :=
  SoundIn s.pc s.userData s.records s.wraps s.sigAlloc

theorem boot_sound (roots : Task → Bool) (held : Task → Finset (Fin 32)) :
    Sound (boot roots held : State Task Obj) := by
  have pcs : ∀ t, (boot roots held : State Task Obj).pc t = .ready ∨
      (boot roots held : State Task Obj).pc t = .gone := by
    intro t
    simp only [boot]
    split
    · exact .inl rfl
    · exact .inr rfl
  constructor
  case uncrashed => grind
  case held => grind [boot]
  case holds => grind [Pc.record]
  case armed => grind [boot]
  case apart => grind [boot]
  case tasked => grind [boot]
  case thread => grind [boot]
  case begun => grind [Pc.trampoline]
  case wraps => grind [boot, Pc.wrap]

theorem Pc.Knows.congr {pc : Pc Task Obj} {record other : Record Task Obj}
    (knows : pc.Knows record) (arg : other.arg = record.arg) (joiner : other.joiner = record.joiner)
    (bit : other.joinSigbit = record.joinSigbit) : pc.Knows other := by
  cases pc with
  | start | send => simp_all [Pc.Knows]
  | _ => trivial

theorem Pc.Agrees.marked {pc : Pc Task Obj} {record other : Record Task Obj} {t : Obj}
    {stage : Stage} (agrees : pc.Agrees record) (hand : pc.record = some (t, stage))
    (task : stage.hasTask = true) (same : other.task = record.task) (done : other.done = true) :
    pc.Agrees other := by
  cases pc with
  | createSignal | createTask =>
      cases hand
      cases task
  | createCheck => exact same.trans agrees
  | joinRemove => exact done
  | _ => trivial

/-- A thread that has set `done` has nothing in its hands. -/
theorem noted_empty {pc : Pc Task Obj} (noted : pc.noted = true) :
    pc.record = none ∧ pc.wrap = none := by
  cases pc with
  | readSignal | send | parked => exact ⟨rfl, rfl⟩
  | _ => cases noted

section Kept

variable {pc : Task → Pc Task Obj} {userData : Task → Option Obj}
variable {records : Obj → Option (Record Task Obj)} {wraps : Obj → Option Task}
variable {sigAlloc : Task → Finset (Fin 32)} {me : Task} {next : Pc Task Obj}
variable [DecidableEq Task]

/-- A task may go from one to the other and keep what it has in its hands. -/
def Passes (pc next : Pc Task Obj) : Prop :=
  pc ≠ .gone ∧ next ≠ .gone ∧ next ≠ .crashed ∧ next.record = pc.record ∧ next.wrap = pc.wrap ∧
    next.noted = pc.noted

theorem SoundIn.quiet (sound : SoundIn pc userData records wraps sigAlloc)
    (passes : Passes (pc me) next)
    (agrees : ∀ t stage record, next.record = some (t, stage) → records t = some record →
      (pc me).Agrees record → next.Agrees record)
    (knows : ∀ t record, userData me = some t → records t = some record → next.Knows record)
    (begun : next.trampoline = true → ∃ t, userData me = some t) :
    SoundIn (Function.update pc me next) userData records wraps sigAlloc := by
  obtain ⟨alive, gone, crashed, record, wrap, noted⟩ := passes
  cases sound
  constructor
  case uncrashed => grind [Function.update_apply]
  case held => grind [Function.update_apply]
  case holds => grind [Function.update_apply]
  case armed => grind [Function.update_apply]
  case apart => grind [Function.update_apply]
  case tasked => grind [Function.update_apply]
  case thread => grind [Function.update_apply]
  case begun => grind [Function.update_apply]
  case wraps => grind [Function.update_apply]

variable [DecidableEq Obj] {t : Obj} {record : Record Task Obj}

/-- The creator of a record takes it to another stage. -/
theorem SoundIn.restage (next : Pc Task Obj) (task : Option Task) (bit : Option (Fin 32))
    (stage : Stage) (bits : Finset (Fin 32))
    (sound : SoundIn pc userData records wraps sigAlloc)
    (entry : records t = some record) (mine : record.joiner = me)
    (before : (pc me).record = some (t, record.stage) ∨
      record.stage = .returned ∧ (pc me).record = none)
    (after : next.record = some (t, stage) ∨ stage = .returned ∧ next.record = none)
    (gone : next ≠ .gone) (crashed : next ≠ .crashed) (wrap : next.wrap = (pc me).wrap)
    (noted : next.noted = (pc me).noted) (quiet : ∀ record, next.Knows record)
    (agrees : next.Agrees { record with task := task, joinSigbit := bit, stage := stage })
    (trampoline : next.trampoline = false) (tasked : stage.hasTask = record.stage.hasTask)
    (same : stage.hasTask = true → task = record.task ∧ bit = record.joinSigbit)
    (armed : stage.hasBit = true → ∃ b, bit = some b ∧ b ∈ bits ∧
      ∀ other record', other ≠ t → records other = some record' → record'.joiner = me →
        record'.stage.hasBit = true → record'.joinSigbit ≠ some b)
    (kept : ∀ other record' b, other ≠ t → records other = some record' → record'.joiner = me →
      record'.stage.hasBit = true → record'.joinSigbit = some b → b ∈ bits) :
    SoundIn (Function.update pc me next) userData
      (Function.update records t
        (some { record with task := task, joinSigbit := bit, stage := stage })) wraps
      (Function.update sigAlloc me bits) := by
  cases sound
  constructor
  case uncrashed => grind [Function.update_apply]
  case held => grind [Function.update_apply]
  case holds => grind [Function.update_apply]
  case armed => grind [Function.update_apply]
  case apart => grind [Function.update_apply]
  case tasked => grind [Function.update_apply]
  case thread => grind [Function.update_apply, Pc.Knows.congr]
  case begun => grind [Function.update_apply]
  case wraps => grind [Function.update_apply]

/-- The same where no signal bit changes hands. -/
theorem SoundIn.advance (next : Pc Task Obj) (task : Option Task) (stage : Stage)
    (sound : SoundIn pc userData records wraps sigAlloc)
    (entry : records t = some record) (mine : record.joiner = me)
    (before : (pc me).record = some (t, record.stage) ∨
      record.stage = .returned ∧ (pc me).record = none)
    (after : next.record = some (t, stage) ∨ stage = .returned ∧ next.record = none)
    (gone : next ≠ .gone) (crashed : next ≠ .crashed) (wrap : next.wrap = (pc me).wrap)
    (noted : next.noted = (pc me).noted) (quiet : ∀ record, next.Knows record)
    (agrees : next.Agrees { record with task := task, stage := stage })
    (trampoline : next.trampoline = false) (tasked : stage.hasTask = record.stage.hasTask)
    (same : stage.hasTask = true → task = record.task)
    (bit : stage.hasBit = record.stage.hasBit) :
    SoundIn (Function.update pc me next) userData
      (Function.update records t (some { record with task := task, stage := stage })) wraps
      sigAlloc := by
  have staged := sound.restage next task record.joinSigbit stage (sigAlloc me) entry mine before
    after gone crashed wrap noted quiet agrees trampoline tasked (fun has => ⟨same has, rfl⟩) ?_ ?_
  · rwa [Function.update_eq_self] at staged
  · intro has
    rw [bit] at has
    obtain ⟨b, known, held⟩ := sound.armed t record entry has
    rw [mine] at held
    refine ⟨b, known, held, ?_⟩
    intro other record' apart entry' mine' has' known'
    exact apart (sound.apart other t record' record entry' entry has' has
      (mine'.trans mine.symm) (known'.trans known.symm))
  · intro other record' b _ entry' mine' has' known'
    obtain ⟨b', known, held⟩ := sound.armed other record' entry' has'
    cases known.symm.trans known'
    rwa [mine'] at held

/-- The creator gives the signal bit of a record back. -/
theorem SoundIn.disarmed {bit : Fin 32} (sound : SoundIn pc userData records wraps sigAlloc)
    (entry : records t = some record) (mine : record.joiner = me)
    (known : record.joinSigbit = some bit) (has : record.stage.hasBit = true)
    (idle : record.stage.hasTask = false) (before : (pc me).record = some (t, record.stage))
    (after : next.record = some (t, .bare)) (gone : next ≠ .gone) (crashed : next ≠ .crashed)
    (wrap : next.wrap = (pc me).wrap) (noted : next.noted = (pc me).noted)
    (quiet : ∀ record, next.Knows record) (agrees : ∀ record, next.Agrees record)
    (trampoline : next.trampoline = false) :
    SoundIn (Function.update pc me next) userData
      (Function.update records t (some (record.atStage .bare))) wraps
      (Function.update sigAlloc me (sigAlloc me \ {bit})) := by
  refine sound.restage next record.task record.joinSigbit .bare _ entry mine (.inl before)
    (.inl after) gone crashed wrap noted quiet (agrees _) trampoline (by rw [idle]; rfl) nofun
    nofun ?_
  intro other record' b apart entry' mine' has' known'
  obtain ⟨b', known'', held⟩ := sound.armed other record' entry' has'
  cases known''.symm.trans known'
  rw [mine'] at held
  refine Finset.mem_sdiff.mpr ⟨held, ?_⟩
  intro same
  rw [Finset.mem_singleton] at same
  subst same
  exact apart (sound.apart other t record' record entry' entry has' has
    (mine'.trans mine.symm) (known'.trans known.symm))

theorem SoundIn.allocated {rw : Option Obj} (sound : SoundIn pc userData records wraps sigAlloc)
    (here : pc me = .createRecord rw) (fresh : records t = none) :
    SoundIn (Function.update pc me (.createSignal rw t)) userData
      (Function.update records t (some ⟨none, me, none, rw, false, .bare⟩)) wraps sigAlloc := by
  have before : (pc me).record = none ∧ (pc me).wrap = rw ∧ (pc me).noted = false := by
    simp [here]
  generalize made : (⟨none, me, none, rw, false, .bare⟩ : Record Task Obj) = record
  generalize there : (Pc.createSignal rw t : Pc Task Obj) = next
  have after : next.record = some (t, .bare) ∧ next.wrap = rw ∧ next.noted = false ∧
      next.trampoline = false ∧ next.Agrees record ∧ ∀ record, next.Knows record := by
    subst there made
    simp
  have bare : record.joiner = me ∧ record.stage = .bare := by
    subst made
    exact ⟨rfl, rfl⟩
  cases sound
  constructor
  case uncrashed => grind [Function.update_apply]
  case held => grind [Function.update_apply]
  case holds => grind [Function.update_apply]
  case armed => grind [Function.update_apply, Stage.hasBit]
  case apart => grind [Function.update_apply, Stage.hasBit]
  case tasked => grind [Function.update_apply, Stage.hasTask]
  case thread => grind [Function.update_apply]
  case begun => grind [Function.update_apply]
  case wraps => grind [Function.update_apply]

/-- The creator frees a record that has neither a bit nor a task. -/
theorem SoundIn.freed (sound : SoundIn pc userData records wraps sigAlloc)
    (before : (pc me).record = some (t, .bare)) (gone : next ≠ .gone) (crashed : next ≠ .crashed)
    (after : next.record = none) (wrap : next.wrap = (pc me).wrap)
    (noted : next.noted = (pc me).noted) (knows : ∀ record, next.Knows record)
    (trampoline : next.trampoline = false) :
    SoundIn (Function.update pc me next) userData (Function.update records t none) wraps
      sigAlloc := by
  cases sound
  constructor
  case uncrashed => grind [Function.update_apply]
  case held => grind [Function.update_apply]
  case holds => grind [Function.update_apply]
  case armed => grind [Function.update_apply]
  case apart => grind [Function.update_apply]
  case tasked => grind [Function.update_apply]
  case thread => grind [Function.update_apply, Stage.hasTask]
  case begun => grind [Function.update_apply]
  case wraps => grind [Function.update_apply]

/-- A task comes to hold a wrap, or frees the one it holds. -/
theorem SoundIn.rewrapped {rw : Obj} (next : Pc Task Obj) (holder : Option Task)
    (sound : SoundIn pc userData records wraps sigAlloc) (alive : pc me ≠ .gone)
    (gone : next ≠ .gone) (crashed : next ≠ .crashed)
    (record : (pc me).record = none) (after : next.record = none)
    (noted : next.noted = (pc me).noted) (knows : ∀ record, next.Knows record)
    (trampoline : next.trampoline = false)
    (wrap : holder = none ∧ (pc me).wrap = some rw ∧ next.wrap = none ∨
      holder = some me ∧ wraps rw = none ∧ (pc me).wrap = none ∧ next.wrap = some rw) :
    SoundIn (Function.update pc me next) userData records (Function.update wraps rw holder)
      sigAlloc := by
  cases sound
  constructor
  case uncrashed => grind [Function.update_apply]
  case held => grind [Function.update_apply]
  case holds => grind [Function.update_apply]
  case armed => grind [Function.update_apply]
  case apart => grind [Function.update_apply]
  case tasked => grind [Function.update_apply]
  case thread => grind [Function.update_apply]
  case begun => grind [Function.update_apply]
  case wraps => grind [Function.update_apply]

/-- A task is made, and the wrap goes over to it. -/
theorem SoundIn.spawned {rw : Option Obj} {child : Task} {bits : Finset (Fin 32)}
    (sound : SoundIn pc userData records wraps sigAlloc) (here : pc me = .createTask rw t)
    (new : pc child = .gone) (entry : records t = some record) :
    SoundIn (Function.update (Function.update pc child (.start record.arg)) me
        (.createCheck rw t (some child)))
      (Function.update userData child (some t))
      (Function.update records t (some { record with task := some child, stage := .spawned }))
      (fun w => if record.arg = some w then some child else wraps w)
      (Function.update sigAlloc child bits) := by
  have before : (pc me).record = some (t, .armed) ∧ (pc me).wrap = rw ∧ (pc me).noted = false ∧
      ∀ record, (pc me).Agrees record → record.arg = rw ∧ record.done = false := by
    simp [here]
  have apart : child ≠ me := by
    rintro rfl
    rw [here] at new
    cases new
  have absent : (pc child).record = none ∧ (pc child).wrap = none := by
    simp [new]
  generalize made : ({ record with task := some child, stage := .spawned } : Record Task Obj) =
    record'
  generalize there : (Pc.createCheck rw t (some child) : Pc Task Obj) = next
  generalize begins : (Pc.start record.arg : Pc Task Obj) = first
  have after : next.record = some (t, .spawned) ∧ next.wrap = none ∧ next.noted = false ∧
      next.trampoline = false ∧ next.Agrees record' ∧ (∀ record, next.Knows record) ∧
      next ≠ .gone ∧ next ≠ .crashed := by
    subst there made
    simp
  have child_ : first.record = none ∧ first.wrap = record.arg ∧ first.noted = false ∧
      first.Knows record' ∧ first ≠ .gone ∧ first ≠ .crashed := by
    subst begins made
    simp
  have bare : record'.joiner = record.joiner ∧ record'.stage = .spawned ∧
      record'.joinSigbit = record.joinSigbit ∧ record'.task = some child ∧
      record'.done = record.done ∧ record'.arg = record.arg := by
    subst made
    exact ⟨rfl, rfl, rfl, rfl, rfl, rfl⟩
  have agreed : record.arg = rw ∧ record.done = false ∧ record.stage.hasTask = false := by
    obtain ⟨same, entry', -, stage, agrees⟩ := sound.holds me t _ before.1
    cases entry.symm.trans entry'
    have values := before.2.2.2 record agrees
    exact ⟨values.1, values.2, by rw [stage]; rfl⟩
  have wrapped := sound.wraps
  cases sound
  constructor
  case uncrashed => grind [Function.update_apply]
  case held => grind [Function.update_apply]
  case holds => grind [Function.update_apply]
  case armed => grind [Function.update_apply, Stage.hasBit]
  case apart => grind [Function.update_apply, Stage.hasBit]
  case tasked => grind [Function.update_apply, Stage.hasTask]
  case thread => grind [Function.update_apply, Stage.hasTask]
  case begun =>
    intro other starts
    by_cases same : other = child
    · exact ⟨t, by rw [same, Function.update_self]⟩
    · rw [Function.update_of_ne same]
      grind [Function.update_apply]
  case wraps =>
    intro w other
    by_cases mine : other = me
    · rw [mine, Function.update_self, after.2.1]
      grind
    · by_cases same : other = child
      · rw [Function.update_of_ne mine, same, Function.update_self, child_.2.1]
        grind
      · rw [Function.update_of_ne mine, Function.update_of_ne same]
        have given := wrapped w me
        have kept := wrapped w other
        grind

/-- A thread that has set `done` is removed. It has joined what it created. -/
theorem SoundIn.removed {child : Task} (sound : SoundIn pc userData records wraps sigAlloc)
    (here : pc me = .joinRemove t) (entry : records t = some record)
    (task : record.task = some child)
    (settled : ∀ other record', records other = some record' → record'.joiner = child →
      record'.stage ≠ .returned) :
    SoundIn (Function.update (Function.update pc child .gone) me (.joinSignal t)) userData
      (Function.update records t (some (record.atStage .reaped))) wraps sigAlloc := by
  have before : (pc me).record = some (t, .joining) ∧ (pc me).wrap = none ∧
      (pc me).noted = false ∧ ∀ record, (pc me).Agrees record → record.done = true := by
    simp [here]
  generalize made : record.atStage .reaped = record'
  generalize there : (Pc.joinSignal t : Pc Task Obj) = next
  have after : next.record = some (t, .reaped) ∧ next.wrap = none ∧ next.noted = false ∧
      next.trampoline = false ∧ next.Agrees record' ∧ (∀ record, next.Knows record) ∧
      next ≠ .gone ∧ next ≠ .crashed := by
    subst there
    simp
  have absent : (Pc.gone : Pc Task Obj).record = none ∧ (Pc.gone : Pc Task Obj).wrap = none ∧
      (Pc.gone : Pc Task Obj).trampoline = false := by
    simp
  have bare : record'.joiner = record.joiner ∧ record'.stage = .reaped ∧
      record'.joinSigbit = record.joinSigbit := by
    subst made
    exact ⟨rfl, rfl, rfl⟩
  -- The record is the one the task to be removed finds, so this task has set `done`.
  have ended : (pc child).record = none ∧ (pc child).wrap = none ∧ userData child = some t ∧
      child ≠ me := by
    obtain ⟨same, entry', -, joining, agrees⟩ := sound.holds me t _ before.1
    cases entry.symm.trans entry'
    obtain ⟨other, task', alive, finds⟩ := sound.tasked t record entry (by rw [joining]; rfl)
    cases task.symm.trans task'
    obtain ⟨same, entry', -, -, done, -⟩ := sound.thread child t alive finds
    cases entry.symm.trans entry'
    rw [before.2.2.2 record agrees] at done
    obtain ⟨record_, wrap_⟩ := noted_empty done.symm
    refine ⟨record_, wrap_, finds, ?_⟩
    rintro rfl
    rw [before.2.2.1] at done
    cases done
  cases sound
  constructor
  case uncrashed => grind [Function.update_apply]
  case held => grind [Function.update_apply]
  case holds => grind [Function.update_apply]
  case armed => grind [Function.update_apply, Stage.hasBit]
  case apart => grind [Function.update_apply, Stage.hasBit]
  case tasked => grind [Function.update_apply, Stage.hasTask]
  case thread => grind [Function.update_apply, Stage.hasTask]
  case begun => grind [Function.update_apply]
  case wraps => grind [Function.update_apply]

theorem SoundIn.marked (sound : SoundIn pc userData records wraps sigAlloc)
    (here : pc me = .markDone) (mine : userData me = some t) (entry : records t = some record) :
    SoundIn (Function.update pc me .readSignal) userData
      (Function.update records t (some { record with done := true })) wraps sigAlloc := by
  have before : (pc me).record = none ∧ (pc me).wrap = none := by
    simp [here]
  have alive : pc me ≠ .gone := by
    simp [here]
  generalize made : ({ record with done := true } : Record Task Obj) = record'
  generalize there : (Pc.readSignal : Pc Task Obj) = next
  have after : next.record = none ∧ next.wrap = none ∧ next.noted = true ∧
      (∀ record, next.Knows record) ∧ next ≠ .gone ∧ next ≠ .crashed := by
    subst there
    simp
  have bare : record'.joiner = record.joiner ∧ record'.stage = record.stage ∧
      record'.joinSigbit = record.joinSigbit ∧ record'.task = record.task ∧
      record'.done = true ∧ record'.arg = record.arg := by
    subst made
    exact ⟨rfl, rfl, rfl, rfl, rfl, rfl⟩
  cases sound
  constructor
  case uncrashed => grind [Function.update_apply]
  case held => grind [Function.update_apply]
  case holds => grind [Function.update_apply, Pc.Agrees.marked]
  case armed => grind [Function.update_apply]
  case apart => grind [Function.update_apply]
  case tasked => grind [Function.update_apply]
  case thread => grind [Function.update_apply, Pc.Knows.congr]
  case begun => grind [Function.update_apply]
  case wraps => grind [Function.update_apply]

end Kept

/-! Steps. -/

section Proper

variable {s s' : State Task Obj} {me : Task}

/-- The record in the hands of a task is there. -/
theorem Sound.hand {t : Obj} {stage : Stage} {pc : Pc Task Obj} (sound : Sound s)
    (here : s.pc me = pc) (hand : pc.record = some (t, stage)) :
    ∃ record, s.records t = some record ∧ record.joiner = me ∧ record.stage = stage ∧
      pc.Agrees record := by
  subst here
  exact sound.holds me t stage hand

/-- The record of a thread is there. -/
theorem Sound.own {t : Obj} {pc : Pc Task Obj} (sound : Sound s) (here : s.pc me = pc)
    (alive : pc ≠ .gone) (finds : s.userData me = some t) :
    ∃ record, s.records t = some record ∧ pc.Knows record := by
  subst here
  obtain ⟨record, entry, -, -, -, knows⟩ := sound.thread me t alive finds
  exact ⟨record, entry, knows⟩

/-- A pc that needs `tc_UserData` finds it. -/
theorem Sound.finds {pc : Pc Task Obj} (sound : Sound s) (here : s.pc me = pc)
    (begun : pc.trampoline = true) (unset : s.userData me = none) : False := by
  subst here
  obtain ⟨t, finds⟩ := sound.begun me begun
  rw [unset] at finds
  cases finds

/-- No task is inside a hypercall, and every thread has begun its function. -/
def Idle (s : State Task Obj) : Prop :=
  ∀ t, s.pc t = .gone ∨ s.pc t = .ready ∨ s.pc t = .parked ∨ s.pc t = .exited

theorem idle_records (sound : Sound s) (idle : Idle s) :
    (∀ rw, s.wraps rw = none) ∧
      ∀ t record, s.records t = some record →
        record.stage = .returned ∧ s.pc record.joiner ≠ .gone := by
  have empty : ∀ t, (s.pc t).record = none ∧ (s.pc t).wrap = none := by
    intro t
    rcases idle t with here | here | here | here <;> rw [here] <;> exact ⟨rfl, rfl⟩
  constructor
  · intro rw
    cases held : s.wraps rw with
    | none => rfl
    | some holder =>
        have wrap := (sound.wraps rw holder).mp held
        rw [(empty holder).2] at wrap
        cases wrap
  · intro t record entry
    obtain ⟨alive, returned | hand⟩ := sound.held t record entry
    · exact ⟨returned, alive⟩
    · rw [(empty _).1] at hand
      cases hand

/-- A task that is removed has set `done` and is the one that finds the record joined, and
a thread that ends signals a task there is, on a bit this task holds. -/
def Careful (move : Move (State Task Obj) (Event Task Obj)) : Prop :=
  match move.label with
  | .remTask me =>
      match move.before.pc me with
      | .joinRemove t => ∃ record ∈ move.before.records t, ∃ child ∈ record.task,
          (move.before.pc child).noted = true ∧ move.before.userData child = some t
      | _ => True
  | .signal me =>
      match move.before.pc me with
      | .send joiner bit => move.before.pc joiner ≠ .gone ∧
          ∃ b ∈ bit, b ∈ move.before.sigAlloc joiner
      | _ => True
  | _ => True

theorem careful_of_sound (sound : Sound s) (label : Event Task Obj) (after : State Task Obj) :
    Careful ⟨s, label, after⟩ := by
  cases label with
  | remTask me =>
      simp only [Careful]
      split
      · rename_i t here
        obtain ⟨record, entry, mine, stage, done⟩ := sound.hand here rfl
        obtain ⟨child, task, alive, finds⟩ := sound.tasked t record entry (by rw [stage]; rfl)
        obtain ⟨record', entry', -, -, noted, -⟩ := sound.thread child t alive finds
        cases entry.symm.trans entry'
        exact ⟨record, entry, child, task, noted.symm.trans done, finds⟩
      · trivial
  | signal me =>
      simp only [Careful]
      split
      · rename_i joiner bit here
        cases finds : s.userData me with
        | none => exact (sound.finds here rfl finds).elim
        | some t =>
            obtain ⟨record, entry, -, task, -, knows⟩ :=
              sound.thread me t (by simp [here]) finds
            rw [here] at knows
            obtain ⟨rfl, rfl⟩ : record.joiner = joiner ∧ record.joinSigbit = bit := knows
            obtain ⟨b, known, holds⟩ := sound.armed t record entry (hasBit_of_hasTask task)
            exact ⟨(sound.held t record entry).1, b, known, holds⟩
      · trivial
  | _ => trivial

/-- The pc says nothing of a record. -/
def Plain (pc : Pc Task Obj) : Prop :=
  (∀ record, pc.Agrees record) ∧ (∀ record, pc.Knows record) ∧ pc.trampoline = false

variable [DecidableEq Task]

theorem Sound.goes {pc next : Pc Task Obj} (sound : Sound s) (here : s.pc me = pc)
    (passes : Passes pc next) (plain : Plain next) : Sound (s.goto me next) := by
  subst here
  refine sound.quiet passes (fun _ _ record _ _ _ => plain.1 record)
    (fun _ record _ _ => plain.2.1 record) ?_
  intro starts
  rw [plain.2.2] at starts
  cases starts

theorem access_eq {t : Obj} {record : Record Task Obj}
    {body : Record Task Obj → Option (State Task Obj)} (entry : s.records t = some record) :
    s.access me t body = body record := by
  rw [State.access, entry]

/-- The bit that a record in somebody's hands has. -/
theorem Sound.freeSignal {t : Obj} {record : Record Task Obj} (me : Task) (sound : Sound s)
    (entry : s.records t = some record) (has : record.stage.hasBit = true) :
    ∃ bit, record.joinSigbit = some bit ∧
      s.osalFreeSignal me record = s.setSignals me (s.sigAlloc me \ {bit}) := by
  obtain ⟨bit, known, -⟩ := sound.armed t record entry has
  exact ⟨bit, known, by rw [State.osalFreeSignal, known]⟩

variable [DecidableEq Obj]

/-- The threads that a task has created are joined. -/
def Settled (s : State Task Obj) (me : Task) : Prop :=
  ∀ t, ∀ record ∈ s.records t, record.joiner = me → record.stage ≠ .returned

/-- The thread that a call joins. -/
def Event.joins : Event Task Obj → Option (Task × Obj)
  | .join me (some t) => some (me, t)
  | _ => none

/-- The task that RemTask removes. -/
def removing (s : State Task Obj) : Event Task Obj → Option Task
  | .remTask me =>
      match s.pc me with
      | .joinRemove t => (s.records t).bind Record.task
      | _ => none
  | _ => none

/-- What the callers of the hypercalls see to: a task joins a thread that it created, and
only once, and a thread is not removed while threads that it created are not joined. -/
def Proper (s : State Task Obj) (e : Event Task Obj) : Prop :=
  (∀ call ∈ e.joins, ∃ record ∈ s.records call.2,
    record.joiner = call.1 ∧ record.stage = .returned) ∧
  ∀ child ∈ removing s e, Settled s child

theorem create_sound {rump given : Bool} (sound : Sound s)
    (taken : step s (.create me rump given) = some s') : Sound s' := by
  simp only [step] at taken
  split at taken
  · rename_i here
    split_ifs at taken
    · cases taken
      exact sound.goes here (by simp [Passes]) (by simp [Plain])
    · cases taken
      exact sound.goes here (by simp [Passes]) (by simp [Plain])
    · cases taken
      exact sound
  · cases taken

theorem malloc_sound {got : Option Obj} (sound : Sound s)
    (taken : step s (.malloc me got) = some s') : Sound s' := by
  simp only [step] at taken
  split at taken
  · rename_i rw here
    split_ifs at taken with fresh
    cases taken
    refine sound.rewrapped (.createRecord (some rw)) (some me) ?_ nofun nofun ?_ rfl ?_
      (fun _ => trivial) rfl ?_
    · simp [here]
    · rw [here]
      rfl
    · rw [here]
      rfl
    · exact .inr ⟨rfl, fresh, by rw [here]; rfl, rfl⟩
  · rename_i here
    cases taken
    exact sound.goes here (by simp [Passes]) (by simp [Plain])
  · rename_i rw t here
    split_ifs at taken with fresh
    cases taken
    exact sound.allocated here (by simpa using fresh)
  · rename_i rw here
    cases taken
    exact sound.goes here (by simp [Passes]) (by simp [Plain])
  · cases taken

theorem allocSignal_sound {bit : Option (Fin 32)} (sound : Sound s)
    (taken : step s (.allocSignal me bit) = some s') : Sound s' := by
  simp only [step] at taken
  split at taken
  · rename_i rw t b here
    obtain ⟨record, entry, mine, stage, agrees⟩ := sound.hand here rfl
    rw [access_eq entry] at taken
    split_ifs at taken with used
    cases taken
    refine sound.restage (.createTask rw t) record.task (some b) .armed _ entry mine ?_ (.inl rfl)
      nofun nofun ?_ ?_ (fun _ => trivial) agrees rfl ?_ nofun ?_ ?_
    · rw [here, stage]
      exact .inl rfl
    · rw [here]
      rfl
    · rw [here]
      rfl
    · rw [stage]
      rfl
    · intro _
      refine ⟨b, rfl, Finset.mem_insert_self b _, ?_⟩
      intro other record' _ entry' mine' hasBit same
      obtain ⟨b', known, held⟩ := sound.armed other record' entry' hasBit
      rw [mine'] at held
      cases same.symm.trans known
      exact used held
    · intro other record' b' _ entry' mine' hasBit known
      obtain ⟨b'', known', held⟩ := sound.armed other record' entry' hasBit
      cases known.symm.trans known'
      rw [mine'] at held
      exact Finset.mem_insert_of_mem held
  · rename_i rw t here
    cases taken
    exact sound.goes here (by simp [Passes]) (by simp [Plain])
  · cases taken

theorem createTask_sound {made : Option (Task × Finset (Fin 32))} (sound : Sound s)
    (taken : step s (.createTask me made) = some s') : Sound s' := by
  simp only [step] at taken
  split at taken
  · rename_i rw t child bits here
    obtain ⟨record, entry, mine, stage, agrees⟩ := sound.hand here rfl
    rw [access_eq entry] at taken
    split at taken
    · rename_i new
      cases taken
      exact sound.spawned here new entry
    · cases taken
  · rename_i rw t here
    obtain ⟨record, entry, mine, stage, agrees⟩ := sound.hand here rfl
    rw [access_eq entry] at taken
    cases taken
    refine sound.advance (.createCheck rw t none) none record.stage entry mine ?_ ?_ nofun nofun
      ?_ ?_ (fun _ => trivial) rfl rfl rfl ?_ rfl
    · rw [here, stage]
      exact .inl rfl
    · rw [stage]
      exact .inl rfl
    · rw [here]
      rfl
    · rw [here]
      rfl
    · rw [stage]
      nofun
  · cases taken

theorem check_sound (sound : Sound s) (taken : step s (.check me) = some s') : Sound s' := by
  simp only [step] at taken
  split at taken
  · rename_i rw t task here
    cases task with
    | none =>
        obtain ⟨record, entry, mine, stage, agrees⟩ := sound.hand here rfl
        have unmade : record.task = none := agrees
        rw [access_eq entry, if_pos unmade] at taken
        cases taken
        exact sound.goes here (by simp [Passes]) (by simp [Plain])
    | some child =>
        obtain ⟨record, entry, mine, stage, agrees⟩ := sound.hand here rfl
        have made : record.task = some child := agrees
        rw [access_eq entry, if_neg (by rw [made]; exact Option.some_ne_none child)] at taken
        cases taken
        refine sound.advance .ready record.task .returned entry mine ?_ (.inr ⟨rfl, rfl⟩) nofun
          nofun ?_ ?_ (fun _ => trivial) trivial rfl ?_ (fun _ => rfl) ?_
        · rw [here, stage]
          exact .inl rfl
        · rw [here]
          rfl
        · rw [here]
          rfl
        · rw [stage]
          rfl
        · rw [stage]
          rfl
  · cases taken

theorem freeWrap_sound {rw : Obj} {pc : Pc Task Obj} (sound : Sound s) (here : s.pc me = pc)
    (wrap : pc.wrap = some rw) (record : pc.record = none) (noted : pc.noted = false)
    (taken : s.osalFreeWrap me rw .ready = some s') : Sound s' := by
  subst here
  have held := (sound.wraps rw me).mpr wrap
  simp only [State.osalFreeWrap, held] at taken
  cases taken
  refine sound.rewrapped .ready none ?_ nofun nofun record rfl noted.symm (fun _ => trivial) rfl
    (.inl ⟨rfl, wrap, rfl⟩)
  intro gone
  rw [gone] at wrap
  cases wrap

theorem undo_sound (sound : Sound s) (taken : step s (.undo me) = some s') : Sound s' := by
  simp only [step] at taken
  split at taken
  · rename_i rw t here
    obtain ⟨record, entry, mine, stage, agrees⟩ := sound.hand here rfl
    obtain ⟨bit, known, freed⟩ := sound.freeSignal me entry (by rw [stage]; rfl)
    rw [access_eq entry, freed] at taken
    cases taken
    refine sound.disarmed entry mine known (by rw [stage]; rfl) (by rw [stage]; rfl) ?_ rfl
      nofun nofun ?_ ?_ (fun _ => trivial) (fun _ => trivial) rfl
    · rw [here, stage]
      rfl
    · rw [here]
      rfl
    · rw [here]
      rfl
  · rename_i rw t here
    obtain ⟨record, entry, -⟩ := sound.hand here rfl
    rw [State.osalFreeRecord, access_eq entry] at taken
    cases taken
    refine sound.freed (by rw [here]; rfl) nofun nofun rfl ?_ ?_ (fun _ => trivial) rfl
    · rw [here]
      rfl
    · rw [here]
      rfl
  · rename_i rw here
    exact freeWrap_sound sound here rfl rfl rfl taken
  · rename_i here
    cases taken
    exact sound.goes here (by simp [Passes]) (by simp [Plain])
  · cases taken

theorem join_sound {t : Option Obj} (sound : Sound s) (proper : Proper s (.join me t))
    (taken : step s (.join me t) = some s') : Sound s' := by
  simp only [step] at taken
  split at taken
  · rename_i t here
    obtain ⟨record, entry, mine, stage⟩ := proper.1 (me, t) rfl
    rw [Option.mem_def] at entry
    rw [entry] at taken
    cases taken
    refine sound.advance (.joinPoll t) record.task .joining entry mine ?_ (.inl rfl) nofun nofun
      ?_ ?_ (fun _ => trivial) trivial rfl ?_ (fun _ => rfl) ?_
    · rw [here]
      exact .inr ⟨stage, rfl⟩
    · rw [here]
      rfl
    · rw [here]
      rfl
    · rw [stage]
      rfl
    · rw [stage]
      rfl
  · cases taken
    exact sound
  · cases taken

theorem poll_sound (sound : Sound s) (taken : step s (.poll me) = some s') : Sound s' := by
  simp only [step] at taken
  split at taken
  · rename_i t here
    obtain ⟨record, entry, mine, stage, agrees⟩ := sound.hand here rfl
    rw [access_eq entry] at taken
    split_ifs at taken with done
    · cases taken
      refine sound.quiet (by simp [here, Passes]) ?_
        (fun _ _ _ _ => trivial) nofun
      intro t' stage' record' hand entry' _
      cases hand
      cases entry.symm.trans entry'
      exact done
    · cases taken
      exact sound.goes here (by simp [Passes]) (by simp [Plain])
  · cases taken

theorem remTask_sound (sound : Sound s) (proper : Proper s (.remTask me))
    (taken : step s (.remTask me) = some s') : Sound s' := by
  simp only [step] at taken
  split at taken
  · rename_i t here
    obtain ⟨record, entry, mine, stage, agrees⟩ := sound.hand here rfl
    obtain ⟨child, task, -⟩ := sound.tasked t record entry (by rw [stage]; rfl)
    have settled : Settled s child := by
      apply proper.2
      simp [removing, here, entry, task]
    simp only [access_eq entry, task] at taken
    cases taken
    exact sound.removed here entry task settled
  · cases taken

theorem freeSignal_sound (sound : Sound s) (taken : step s (.freeSignal me) = some s') :
    Sound s' := by
  simp only [step] at taken
  split at taken
  · rename_i t here
    obtain ⟨record, entry, mine, stage, agrees⟩ := sound.hand here rfl
    obtain ⟨bit, known, freed⟩ := sound.freeSignal me entry (by rw [stage]; rfl)
    rw [access_eq entry, freed] at taken
    cases taken
    refine sound.disarmed entry mine known (by rw [stage]; rfl) (by rw [stage]; rfl) ?_ rfl
      nofun nofun ?_ ?_ (fun _ => trivial) (fun _ => trivial) rfl
    · rw [here, stage]
      rfl
    · rw [here]
      rfl
    · rw [here]
      rfl
  · cases taken

theorem free_sound (sound : Sound s) (taken : step s (.free me) = some s') : Sound s' := by
  simp only [step] at taken
  split at taken
  · rename_i t here
    obtain ⟨record, entry, -⟩ := sound.hand here rfl
    rw [State.osalFreeRecord, access_eq entry] at taken
    cases taken
    refine sound.freed (by rw [here]; rfl) nofun nofun rfl ?_ ?_ (fun _ => trivial) rfl
    · rw [here]
      rfl
    · rw [here]
      rfl
  · cases taken

theorem enter_sound (sound : Sound s) (taken : step s (.enter me) = some s') : Sound s' := by
  simp only [step] at taken
  split at taken
  · rename_i arg t here finds
    obtain ⟨record, entry, knows⟩ := sound.own here nofun finds
    have known : record.arg = arg := knows
    rw [access_eq entry, known] at taken
    cases arg with
    | some rw =>
        cases taken
        exact sound.goes here (by simp [Passes]) (by simp [Plain])
    | none =>
        cases taken
        exact sound.goes here (by simp [Passes]) (by simp [Plain])
  · rename_i arg here unset
    exact (sound.finds here rfl unset).elim
  · cases taken

theorem unwrap_sound (sound : Sound s) (taken : step s (.unwrap me) = some s') : Sound s' := by
  simp only [step] at taken
  split at taken
  · rename_i rw here
    exact freeWrap_sound sound here rfl rfl rfl taken
  · cases taken

theorem returns_sound (sound : Sound s) (taken : step s (.returns me) = some s') : Sound s' := by
  simp only [step] at taken
  split at taken
  · rename_i t here finds
    cases taken
    exact sound.quiet (by simp [here, Passes])
      (fun _ _ _ _ _ _ => trivial) (fun _ _ _ _ => trivial) (fun _ => ⟨t, finds⟩)
  · cases taken

theorem exits_sound (sound : Sound s) (taken : step s (.exits me) = some s') : Sound s' := by
  simp only [step] at taken
  split at taken
  · rename_i here
    cases taken
    exact sound.goes here (by simp [Passes]) (by simp [Plain])
  · cases taken

theorem mark_sound (sound : Sound s) (taken : step s (.mark me) = some s') : Sound s' := by
  simp only [step] at taken
  split at taken
  · rename_i t here finds
    obtain ⟨record, entry, -⟩ := sound.own here nofun finds
    rw [access_eq entry] at taken
    cases taken
    exact sound.marked here finds entry
  · rename_i here unset
    exact (sound.finds here rfl unset).elim
  · cases taken

theorem look_sound (sound : Sound s) (taken : step s (.look me) = some s') : Sound s' := by
  simp only [step] at taken
  split at taken
  · rename_i t here finds
    obtain ⟨record, entry, -⟩ := sound.own here nofun finds
    rw [access_eq entry] at taken
    cases taken
    refine sound.quiet (by simp [here, Passes])
      (fun _ _ _ _ _ _ => trivial) ?_ (fun _ => ⟨t, finds⟩)
    intro t' record' finds' entry'
    cases finds.symm.trans finds'
    cases entry.symm.trans entry'
    exact ⟨rfl, rfl⟩
  · rename_i here unset
    exact (sound.finds here rfl unset).elim
  · cases taken

theorem signal_sound (sound : Sound s) (taken : step s (.signal me) = some s') : Sound s' := by
  simp only [step] at taken
  split at taken
  · rename_i here
    cases taken
    exact sound.goes here (by simp [Passes]) (by simp [Plain])
  · cases taken

theorem step_sound {e : Event Task Obj} (sound : Sound s) (proper : Proper s e)
    (taken : step s e = some s') : Sound s' := by
  cases e with
  | create me rump given => exact create_sound sound taken
  | malloc me got => exact malloc_sound sound taken
  | allocSignal me bit => exact allocSignal_sound sound taken
  | createTask me made => exact createTask_sound sound taken
  | check me => exact check_sound sound taken
  | undo me => exact undo_sound sound taken
  | join me t => exact join_sound sound proper taken
  | poll me => exact poll_sound sound taken
  | remTask me => exact remTask_sound sound proper taken
  | freeSignal me => exact freeSignal_sound sound taken
  | free me => exact free_sound sound taken
  | enter me => exact enter_sound sound taken
  | unwrap me => exact unwrap_sound sound taken
  | returns me => exact returns_sound sound taken
  | exits me => exact exits_sound sound taken
  | mark me => exact mark_sound sound taken
  | look me => exact look_sound sound taken
  | signal me => exact signal_sound sound taken

/-- In every interleaving of creates, joins and threads that end, by callers that join a
thread at most once, where they created it, and before its creator is removed: no task
touches memory that is not allocated, and none frees memory twice; a task is removed only
when its function has returned; a thread that ends signals a task there is, on the bit this
task holds for it; and when no call is under way, the failed creates and the joins have left
nothing, and the records there are belong to threads not joined. -/
theorem thread_records_safe (roots : Task → Bool) (held : Task → Finset (Fin 32))
    {history : List (Move (State Task Obj) (Event Task Obj))} {now : State Task Obj}
    (trace : Trace Steps (boot roots held) history now)
    (proper : ∀ move ∈ history, Proper move.before move.label) :
    (∀ t, now.pc t ≠ .crashed) ∧ (∀ move ∈ history, Careful move) ∧
      (Idle now → (∀ rw, now.wraps rw = none) ∧ ∀ t record, now.records t = some record →
        record.stage = .returned ∧ now.pc record.joiner ≠ .gone) := by
  have kept : ∀ before label after, Sound before → Proper before label →
      Steps before label after → Sound (after : State Task Obj) :=
    fun _ _ _ sound proper taken => step_sound sound proper taken
  have sound := guarded_invariant Proper Sound (boot_sound roots held) kept trace proper
  refine ⟨sound.uncrashed, ?_, idle_records sound⟩
  intro move member
  have before := guarded_moves Proper Sound (boot_sound roots held) kept trace proper move member
  exact careful_of_sound before.1 move.label move.after

instance [Fintype Obj] (s : State Task Obj) (me : Task) : Decidable (Settled s me) :=
  inferInstanceAs (Decidable (∀ t, ∀ record ∈ s.records t, _))

instance [Fintype Obj] (s : State Task Obj) (e : Event Task Obj) : Decidable (Proper s e) :=
  inferInstanceAs (Decidable ((∀ call ∈ e.joins, ∃ record ∈ s.records call.2, _) ∧
    ∀ child ∈ removing s e, _))

/-- A thread is made by the rump hypercall, begins before its create returns, and is joined;
another create does not get its record. -/
def createdAndJoined : List (Event (Fin 2) Bool) :=
  [.create 0 true true, .malloc 0 (some true), .malloc 0 (some false), .allocSignal 0 (some 16),
    .createTask 0 (some (1, ∅)), .enter 1, .unwrap 1, .check 0, .join 0 (some false), .poll 0,
    .returns 1, .mark 1, .poll 0, .look 1, .signal 1, .remTask 0, .freeSignal 0, .free 0,
    .create 0 true true, .malloc 0 (some true), .malloc 0 none, .undo 0]

/-- One task from the start. -/
def alone : State (Fin 2) Bool := boot (fun t => t = 0) fun _ => ∅

theorem created_and_joined_safe :
    ∃ history now, Trace Steps alone history now ∧ history.length = 22 ∧
      (∀ move ∈ history, Proper move.before move.label) ∧
      (∀ t, now.pc t ≠ .crashed) ∧ (∀ move ∈ history, Careful move) ∧
      (∀ rw, now.wraps rw = none) ∧ ∀ t, (now.records t).isNone := by
  have done : ((follow step [] alone createdAndJoined).map fun out =>
      (out.1.length, decide (∀ move ∈ out.1, Proper move.before move.label),
        decide (∀ rw, out.2.wraps rw = none), decide (∀ t, (out.2.records t).isNone))) =
      some (22, true, true, true) := by
    decide +kernel
  obtain ⟨⟨history, now⟩, followed, checks⟩ := Option.map_eq_some_iff.mp done
  obtain ⟨length, proper, wraps, records⟩ : _ ∧ _ ∧ _ ∧ _ := by simpa using checks
  have trace : Trace Steps alone history now := follow_trace .nil followed
  have proper : ∀ move ∈ history, Proper move.before move.label := by simpa using proper
  obtain ⟨uncrashed, careful, -⟩ := thread_records_safe _ _ trace proper
  refine ⟨history, now, trace, length, proper, uncrashed, careful, ?_, ?_⟩
  · simpa using wraps
  · simpa using records

end Proper

end Netstack.ThreadRecords
