import Netstack.FdBounds
import Netstack.MsgPort
import Netstack.ReplyPorts

/-!
Clients and engine as tasks that meet only at message ports. A step is one exec
call of one task or one section under a semaphore: `netstack_ipc_call` from its
first line to the unpacking of the reply, `NetstackEngine_Stop`, the loop of
`engine_process_main`, and a break signal from outside. A message is the address
of the request record on its sender's stack; a task is in one call at a time, so
the task names the record, and a record a task gives up too early would be
overwritten by its next call. Signal bits of reply ports are left out: `WaitPort`
looks at the port, and nobody else waits for them.
-/

namespace Netstack.Rpc

open Ipc Client FdTable Transition ReplyPorts

variable {Task : Type}

inductive Job where
  | call (call : Call)
  | stop

/-- Where a client task is. The port arguments are the local variables
`engine` and `reply`. -/
inductive ClientPc where
  | idle
  | ensureEnginePort (call : Call)
  | ensureReplyPort (call : Call) (engine : Nat)
  | putMsg (job : Job) (engine reply : Nat)
  | waitPort (job : Job) (reply : Nat)
  | getMsg (job : Job) (reply : Nat)
  | unpack (call : Call)
  | awaitStopped

inductive EnginePc (Task : Type) where
  | wait
  | getMsg
  | dispatch (msg : Task)
  | replyMsg (msg : Task)
  | test
  | freePort
  | stopped
  deriving DecidableEq

structure Record where
  replyPort : Option Nat := none
  body : NetstackReq := {}

/-- The port the engine publishes; reply ports have numbers from one on. -/
def requestPort : Nat := 0

structure State (Task : Type) where
  client : Task → ClientPc
  mem : Task → Record
  slots : Nat → ReplySlot Task
  nextPort : Nat
  cachedPort : Option Nat
  published : Bool
  engineTask : Bool
  ports : Nat → List Task
  portSignal : Bool
  ctrlC : Bool
  engine : EnginePc Task
  core : Engine

/-- After `netstack_client_init` returned 0: the engine waits at its port and
its address is cached. `core` is what earlier requests made of the fd table. -/
def boot (core : Engine) : State Task where
  client _ := .idle
  mem _ := {}
  slots _ := {}
  nextPort := 1
  cachedPort := some requestPort
  published := true
  engineTask := true
  ports _ := []
  portSignal := false
  ctrlC := false
  engine := .wait
  core := { core with shutdown := false }

inductive Event (Task : Type) where
  | begin (task : Task) (call : Call)
  | ensureEnginePort (task : Task)
  | ensureReplyPort (task : Task) (granted : Bool)
  | putMsg (task : Task)
  | waitPort (task : Task)
  | getMsg (task : Task)
  | unpack (task : Task)
  | stop (task : Task) (granted : Bool)
  | stopped (task : Task)
  | breakSignal
  | engineWait
  | engineGetMsg
  | engineDispatch
  | engineReplyMsg
  | engineTest
  | engineFreePort

/-- The cached address, or else what `FindPort` finds under the public name. -/
def ensureEnginePort (cached : Option Nat) (published : Bool) : Option Nat :=
  match cached with
  | some port => some port
  | none => if published then some requestPort else none

variable [DecidableEq Task]

def State.goto (s : State Task) (t : Task) (pc : ClientPc) : State Task :=
  { s with client := Function.update s.client t pc }

def State.write (s : State Task) (t : Task) (record : Record) : State Task :=
  { s with mem := Function.update s.mem t record }

-- `PutMsg` appends and sets the signal of the port's owner.
def State.post (s : State Task) (port : Nat) (msg : Task) : State Task :=
  { s with
    ports := MsgPort.post s.ports port msg
    portSignal := if port = requestPort then true else s.portSignal }

def State.take (s : State Task) (port : Nat) : State Task :=
  { s with ports := MsgPort.take s.ports port }

def shutdownRequest : NetstackReq := { op := 0x0002 }

def step (s : State Task) : Event Task → Option (State Task)
  | .begin t call =>
      match s.client t, call.rejected with
      | .idle, some _ => some s
      | .idle, none => some ((s.write t ⟨none, call.request⟩).goto t (.ensureEnginePort call))
      | _, _ => none
  | .ensureEnginePort t =>
      match s.client t, ensureEnginePort s.cachedPort s.published with
      | .ensureEnginePort call, some port =>
          some ({ s with cachedPort := some port }.goto t (.ensureReplyPort call port))
      | .ensureEnginePort _, none => some (s.goto t .idle)
      | _, _ => none
  | .ensureReplyPort t granted =>
      match s.client t,
        ensureReplyPort s.slots t (if granted then some s.nextPort else none) with
      | .ensureReplyPort call engine, (slots, some reply) =>
          some (({ s with slots := slots, nextPort := s.nextPort + 1 }.write t
            { s.mem t with replyPort := some reply }).goto t (.putMsg (.call call) engine reply))
      | .ensureReplyPort _ _, (slots, none) =>
          some ({ s with slots := slots, nextPort := s.nextPort + 1 }.goto t .idle)
      | _, _ => none
  | .putMsg t =>
      match s.client t with
      | .putMsg job engine reply => some ((s.post engine t).goto t (.waitPort job reply))
      | _ => none
  | .waitPort t =>
      match s.client t with
      | .waitPort job reply =>
          if s.ports reply = [] then none else some (s.goto t (.getMsg job reply))
      | _ => none
  -- The client does not look at what `GetMsg` returned.
  | .getMsg t =>
      match s.client t with
      | .getMsg (.call call) reply => some ((s.take reply).goto t (.unpack call))
      | .getMsg .stop reply => some ((s.take reply).goto t .awaitStopped)
      | _ => none
  | .unpack t =>
      match s.client t with
      | .unpack _ => some (s.goto t .idle)
      | _ => none
  | .stop t granted =>
      match s.client t with
      | .idle =>
          if ¬ s.engineTask then some s
          else if s.published ∧ granted then
            some (({ s with nextPort := s.nextPort + 1 }.write t
              ⟨some s.nextPort, shutdownRequest⟩).goto t (.putMsg .stop requestPort s.nextPort))
          else some ({ s with ctrlC := true }.goto t .awaitStopped)
      | _ => none
  | .stopped t =>
      match s.client t, s.engine with
      | .awaitStopped, .stopped => some ({ s with engineTask := false }.goto t .idle)
      | _, _ => none
  | .breakSignal => some { s with ctrlC := true }
  | .engineWait =>
      match s.engine with
      | .wait =>
          if s.ctrlC then some { s with ctrlC := false, portSignal := false, engine := .freePort }
          else if s.portSignal then some { s with portSignal := false, engine := .getMsg }
          else none
      | _ => none
  | .engineGetMsg =>
      match s.engine, s.ports requestPort with
      | .getMsg, [] => some { s with engine := .test }
      | .getMsg, msg :: _ => some { s.take requestPort with engine := .dispatch msg }
      | _, _ => none
  | .engineDispatch =>
      match s.engine with
      | .dispatch msg =>
          match dispatchRequest s.core (s.mem msg).body with
          | .ok (core, reply) =>
              some { s.write msg { s.mem msg with body := reply } with
                core := core, engine := .replyMsg msg }
          | .error _ => none
      | _ => none
  | .engineReplyMsg =>
      match s.engine with
      | .replyMsg msg =>
          match (s.mem msg).replyPort with
          | some port => some { s.post port msg with engine := .getMsg }
          | none => some { s with engine := .getMsg }
      | _ => none
  | .engineTest =>
      match s.engine with
      | .test => some { s with engine := if s.core.shutdown then .freePort else .wait }
      | _ => none
  -- What is still linked to the port stays linked; nobody takes it off again.
  | .engineFreePort =>
      match s.engine with
      | .freePort => some { s with published := false, engine := .stopped }
      | _ => none

def Steps (s : State Task) (e : Event Task) (s' : State Task) : Prop := step s e = some s'

/-- What the wrapper of a finished call returns. -/
def returned (s : State Task) (t : Task) : Option Result :=
  match s.client t with
  | .unpack call => some (call.unpack (s.mem t).body)
  | _ => none

/-- Every step there is, one constructor for each way through `step`. -/
inductive Effect (s : State Task) : Event Task → State Task → Prop where
  | rejected {t : Task} {call : Call} {result : Result} (pc : s.client t = .idle)
      (early : call.rejected = some result) : Effect s (.begin t call) s
  | began {t : Task} {call : Call} (pc : s.client t = .idle) (passed : call.rejected = none) :
      Effect s (.begin t call)
        ((s.write t ⟨none, call.request⟩).goto t (.ensureEnginePort call))
  | located {t : Task} {call : Call} {port : Nat} (pc : s.client t = .ensureEnginePort call)
      (found : ensureEnginePort s.cachedPort s.published = some port) :
      Effect s (.ensureEnginePort t)
        ({ s with cachedPort := some port }.goto t (.ensureReplyPort call port))
  | unreachable {t : Task} {call : Call} (pc : s.client t = .ensureEnginePort call)
      (missing : ensureEnginePort s.cachedPort s.published = none) :
      Effect s (.ensureEnginePort t) (s.goto t .idle)
  | equipped {t : Task} {granted : Bool} {call : Call} {engine reply : Nat}
      {slots : Nat → ReplySlot Task} (pc : s.client t = .ensureReplyPort call engine)
      (ran : ensureReplyPort s.slots t (if granted then some s.nextPort else none) =
        (slots, some reply)) :
      Effect s (.ensureReplyPort t granted)
        (({ s with slots := slots, nextPort := s.nextPort + 1 }.write t
          { s.mem t with replyPort := some reply }).goto t (.putMsg (.call call) engine reply))
  | unequipped {t : Task} {granted : Bool} {call : Call} {engine : Nat}
      {slots : Nat → ReplySlot Task} (pc : s.client t = .ensureReplyPort call engine)
      (ran : ensureReplyPort s.slots t (if granted then some s.nextPort else none) =
        (slots, none)) :
      Effect s (.ensureReplyPort t granted)
        ({ s with slots := slots, nextPort := s.nextPort + 1 }.goto t .idle)
  | put {t : Task} {job : Job} {engine reply : Nat} (pc : s.client t = .putMsg job engine reply) :
      Effect s (.putMsg t) ((s.post engine t).goto t (.waitPort job reply))
  | woken {t : Task} {job : Job} {reply : Nat} (pc : s.client t = .waitPort job reply)
      (arrived : s.ports reply ≠ []) : Effect s (.waitPort t) (s.goto t (.getMsg job reply))
  | got {t : Task} {call : Call} {reply : Nat} (pc : s.client t = .getMsg (.call call) reply) :
      Effect s (.getMsg t) ((s.take reply).goto t (.unpack call))
  | gotStop {t : Task} {reply : Nat} (pc : s.client t = .getMsg .stop reply) :
      Effect s (.getMsg t) ((s.take reply).goto t .awaitStopped)
  | unpacked {t : Task} {call : Call} (pc : s.client t = .unpack call) :
      Effect s (.unpack t) (s.goto t .idle)
  | alreadyDown {t : Task} {granted : Bool} (pc : s.client t = .idle)
      (down : s.engineTask = false) : Effect s (.stop t granted) s
  | stopAsked {t : Task} (pc : s.client t = .idle) (up : s.published = true) :
      Effect s (.stop t true)
        (({ s with nextPort := s.nextPort + 1 }.write t
          ⟨some s.nextPort, shutdownRequest⟩).goto t (.putMsg .stop requestPort s.nextPort))
  | stopSignalled {t : Task} {granted : Bool} (pc : s.client t = .idle) :
      Effect s (.stop t granted) ({ s with ctrlC := true }.goto t .awaitStopped)
  | sawStopped {t : Task} (pc : s.client t = .awaitStopped) (gone : s.engine = .stopped) :
      Effect s (.stopped t) ({ s with engineTask := false }.goto t .idle)
  | broken : Effect s .breakSignal { s with ctrlC := true }
  | left (pc : s.engine = .wait) (signalled : s.ctrlC = true) :
      Effect s .engineWait { s with ctrlC := false, portSignal := false, engine := .freePort }
  | roused (pc : s.engine = .wait) (calm : s.ctrlC = false) (signalled : s.portSignal = true) :
      Effect s .engineWait { s with portSignal := false, engine := .getMsg }
  | drained (pc : s.engine = .getMsg) (empty : s.ports requestPort = []) :
      Effect s .engineGetMsg { s with engine := .test }
  | taken {msg : Task} {rest : List Task} (pc : s.engine = .getMsg)
      (line : s.ports requestPort = msg :: rest) :
      Effect s .engineGetMsg { s.take requestPort with engine := .dispatch msg }
  | dispatched {msg : Task} {core : Engine} {reply : NetstackReq} (pc : s.engine = .dispatch msg)
      (ran : dispatchRequest s.core (s.mem msg).body = .ok (core, reply)) :
      Effect s .engineDispatch
        { s.write msg { s.mem msg with body := reply } with core := core, engine := .replyMsg msg }
  | replied {msg : Task} {port : Nat} (pc : s.engine = .replyMsg msg)
      (address : (s.mem msg).replyPort = some port) :
      Effect s .engineReplyMsg { s.post port msg with engine := .getMsg }
  | unaddressed {msg : Task} (pc : s.engine = .replyMsg msg)
      (address : (s.mem msg).replyPort = none) :
      Effect s .engineReplyMsg { s with engine := .getMsg }
  | tested (pc : s.engine = .test) :
      Effect s .engineTest { s with engine := if s.core.shutdown then .freePort else .wait }
  | freed (pc : s.engine = .freePort) :
      Effect s .engineFreePort { s with published := false, engine := .stopped }

theorem effect_of_step {s s' : State Task} {e : Event Task} (stepped : step s e = some s') :
    Effect s e s' := by
  cases e with
  | begin t call =>
      simp only [step] at stepped
      split at stepped
      · rename_i pc early
        cases stepped
        exact .rejected pc early
      · rename_i pc passed
        cases stepped
        exact .began pc passed
      · contradiction
  | ensureEnginePort t =>
      simp only [step] at stepped
      split at stepped
      · rename_i pc found
        cases stepped
        exact .located pc found
      · rename_i pc missing
        cases stepped
        exact .unreachable pc missing
      · contradiction
  | ensureReplyPort t granted =>
      simp only [step] at stepped
      split at stepped
      · rename_i pc ran
        cases stepped
        exact .equipped pc ran
      · rename_i pc ran
        cases stepped
        exact .unequipped pc ran
      · contradiction
  | putMsg t =>
      simp only [step] at stepped
      split at stepped
      · rename_i pc
        cases stepped
        exact .put pc
      · contradiction
  | waitPort t =>
      simp only [step] at stepped
      split at stepped
      · rename_i pc
        split at stepped
        · contradiction
        · rename_i arrived
          cases stepped
          exact .woken pc arrived
      · contradiction
  | getMsg t =>
      simp only [step] at stepped
      split at stepped
      · rename_i pc
        cases stepped
        exact .got pc
      · rename_i pc
        cases stepped
        exact .gotStop pc
      · contradiction
  | unpack t =>
      simp only [step] at stepped
      split at stepped
      · rename_i pc
        cases stepped
        exact .unpacked pc
      · contradiction
  | stop t granted =>
      simp only [step] at stepped
      split at stepped
      · rename_i pc
        split_ifs at stepped with up both
        · cases stepped
          obtain ⟨open_, rfl⟩ := both
          exact .stopAsked pc open_
        · cases stepped
          exact .stopSignalled pc
        · cases stepped
          exact .alreadyDown pc (by simpa using up)
      · contradiction
  | stopped t =>
      simp only [step] at stepped
      split at stepped
      · rename_i pc gone
        cases stepped
        exact .sawStopped pc gone
      · contradiction
  | breakSignal =>
      cases stepped
      exact .broken
  | engineWait =>
      simp only [step] at stepped
      split at stepped
      · rename_i pc
        split_ifs at stepped with interrupted signalled
        · cases stepped
          exact .left pc interrupted
        · cases stepped
          exact .roused pc (by simpa using interrupted) signalled
      · contradiction
  | engineGetMsg =>
      simp only [step] at stepped
      split at stepped
      · rename_i pc empty
        cases stepped
        exact .drained pc empty
      · rename_i pc line
        cases stepped
        exact .taken pc line
      · contradiction
  | engineDispatch =>
      simp only [step] at stepped
      split at stepped
      · rename_i pc
        split at stepped
        · rename_i ran
          cases stepped
          exact .dispatched pc ran
        · contradiction
      · contradiction
  | engineReplyMsg =>
      simp only [step] at stepped
      split at stepped
      · rename_i pc
        split at stepped
        · rename_i address
          cases stepped
          exact .replied pc address
        · rename_i address
          cases stepped
          exact .unaddressed pc address
      · contradiction
  | engineTest =>
      simp only [step] at stepped
      split at stepped
      · rename_i pc
        cases stepped
        exact .tested pc
      · contradiction
  | engineFreePort =>
      simp only [step] at stepped
      split at stepped
      · rename_i pc
        cases stepped
        exact .freed pc
      · contradiction

end Netstack.Rpc
