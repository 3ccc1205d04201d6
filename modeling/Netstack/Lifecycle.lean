import Mathlib.Data.Finset.Basic
import Mathlib.Data.List.FinRange
import Netstack.Signals
import Netstack.Transition

/-!
`NetstackEngine_Start` and `NetstackEngine_Stop` of `engine_main.c`. The calls of
all tasks follow one another; a call lists the exec actions it runs and those the
engine runs meanwhile. The engine's own loop is reduced to its two ends: it
publishes its request port or fails to allocate it, and it frees the port and
signals the launcher. Which of its tasks the program's globals name is what the
proofs are about, so the globals are kept as they are.
-/

namespace Netstack.Lifecycle

open Signals Transition

variable {Task Port : Type}

structure State (Task Port : Type) where
  -- Whether g_engine_task is set.
  engineTask : Bool
  launcherTask : Option Task
  launcherReadyMask : UInt32
  launcherStoppedMask : UInt32
  engineReady : Bool
  requestPort : Option Port
  sigAlloc : Task → Finset (Fin 32)
  sigRecvd : Task → UInt32
  -- A task inside a Wait that nothing has ended.
  waiting : Task → Bool

def load (held : Task → Finset (Fin 32)) : State Task Port where
  engineTask := false
  launcherTask := none
  launcherReadyMask := 0
  launcherStoppedMask := 0
  engineReady := false
  requestPort := none
  sigAlloc := held
  sigRecvd _ := 0
  waiting _ := false

/-- A call with what exec answers to it. `ready` and `stopped` are the results of
the two AllocSignal calls, `created` that of CreateTaskTags, `port` that of the
allocation of the request port. `reply` is the bit of the reply port of a stop, if
that port can be allocated. -/
inductive Event (Task Port : Type) where
  | start (t : Task) (ready stopped : Option (Fin 32)) (created : Bool) (port : Option Port)
  | stop (t : Task) (reply : Option (Fin 32))
  deriving DecidableEq

/-- A call that is over: the state, the exec actions, and the value unless the
caller still waits. -/
structure Outcome (Task Port : Type) where
  state : State Task Port
  acts : List (Act Task)
  returned : Option Int

def freedBits (ready stopped : UInt32) : List (Fin 32) :=
  (List.finRange 32).flatMap fun b =>
    (if ready = sigMask b then [b] else []) ++ if stopped = sigMask b then [b] else []

variable [DecidableEq Task]

def State.signal (s : State Task Port) (t : Task) (mask : UInt32) : State Task Port :=
  { s with sigRecvd := Function.update s.sigRecvd t (s.sigRecvd t ||| mask) }

def State.clear (s : State Task Port) (t : Task) (mask : UInt32) : State Task Port :=
  { s with sigRecvd := Function.update s.sigRecvd t (s.sigRecvd t &&& ~~~ mask) }

def State.ran (s : State Task Port) (acts : List (Act Task)) : State Task Port :=
  { s with sigAlloc := run s.sigAlloc acts }

def netstackEngineStart (s : State Task Port) (t : Task) (ready stopped : Option (Fin 32))
    (created : Bool) (port : Option Port) : Outcome Task Port :=
  if s.engineTask then ⟨s, [], some (-1)⟩
  else
    let s := { s with launcherTask := some t }
    match ready, stopped with
    | none, none => ⟨s, [], some (-1)⟩
    | some r, none =>
        let acts := [.allocSignal t r, .freeSignal t r]
        ⟨(s.clear t (sigMask r)).ran acts, acts, some (-1)⟩
    | none, some b =>
        let acts := [.allocSignal t b, .freeSignal t b]
        ⟨(s.clear t (sigMask b)).ran acts, acts, some (-1)⟩
    | some r, some b =>
        let s := { (s.clear t (sigMask r)).clear t (sigMask b) with
          launcherReadyMask := sigMask r, launcherStoppedMask := sigMask b, engineReady := false }
        let taken := [.allocSignal t r, .allocSignal t b]
        let freed := [.freeSignal t r, .freeSignal t b]
        -- The engine signals the launcher that it is ready, with or without a port.
        let met := [.signal t (sigMask r), .wait t (sigMask r)]
        if !created then ⟨s.ran (taken ++ freed), taken ++ freed, some (-1)⟩
        else
          match port with
          | none => ⟨s.ran (taken ++ met ++ freed), taken ++ met ++ freed, some (-1)⟩
          | some p =>
              ⟨{ s with engineTask := true, engineReady := true, requestPort := some p }.ran
                (taken ++ met), taken ++ met, some 0⟩

/-- The engine leaves its loop, on a shutdown request or on CTRL_C. -/
def engineProcessEnd (s : State Task Port) : State Task Port × List (Act Task) :=
  let s := { s with requestPort := none, engineReady := false }
  match s.launcherTask with
  | some launcher =>
      (s.signal launcher s.launcherStoppedMask, [.signal launcher s.launcherStoppedMask])
  | none => (s, [])

/-- The first half of a stop: a shutdown request where a reply port can be had, or a
break. Without a request port there is no engine left that the break could reach. -/
def askEngine (s : State Task Port) (t : Task) (reply : Option (Fin 32)) :
    State Task Port × List (Act Task) :=
  match s.requestPort, reply with
  | some _, some bit =>
      let ended := engineProcessEnd (s.clear t (sigMask bit))
      (ended.1, .allocSignal t bit :: ended.2 ++ [.freeSignal t bit])
  | some _, none => engineProcessEnd s
  | none, _ => (s, [])

def awaitStopped (s : State Task Port) (t : Task) (asked : List (Act Task)) :
    Outcome Task Port :=
  if s.sigRecvd t &&& s.launcherStoppedMask = 0 then
    let acts := asked ++ [.wait t s.launcherStoppedMask]
    ⟨{ s with waiting := Function.update s.waiting t true }.ran acts, acts, none⟩
  else
    let acts := asked ++ .wait t s.launcherStoppedMask ::
      (freedBits s.launcherReadyMask s.launcherStoppedMask).map (.freeSignal t)
    ⟨{ s.clear t s.launcherStoppedMask with
      launcherReadyMask := 0, launcherStoppedMask := 0, engineTask := false }.ran acts,
      acts, some 0⟩

def netstackEngineStop (s : State Task Port) (t : Task) (reply : Option (Fin 32)) :
    Outcome Task Port :=
  if s.engineTask then awaitStopped (askEngine s t reply).1 t (askEngine s t reply).2
  else ⟨s, [], some 0⟩

def call (s : State Task Port) : Event Task Port → Outcome Task Port
  | .start t ready stopped created port => netstackEngineStart s t ready stopped created port
  | .stop t reply => netstackEngineStop s t reply

def Event.caller : Event Task Port → Task
  | .start t _ _ _ _ | .stop t _ => t

/-- A task that waits makes no calls, and exec allocates only free bits. -/
def step (s : State Task Port) (e : Event Task Port) : Option (State Task Port) :=
  if s.waiting e.caller = false ∧ fresh s.sigAlloc (call s e).acts = true then
    some (call s e).state
  else none

def Steps (s : State Task Port) (e : Event Task Port) (s' : State Task Port) : Prop :=
  step s e = some s'

theorem steps_cases {s s' : State Task Port} {e : Event Task Port} (taken : Steps s e s') :
    s.waiting e.caller = false ∧ fresh s.sigAlloc (call s e).acts = true ∧
      s' = (call s e).state := by
  rw [Steps, step] at taken
  split_ifs at taken with enabled
  cases taken
  exact ⟨enabled.1, enabled.2, rfl⟩

end Netstack.Lifecycle
