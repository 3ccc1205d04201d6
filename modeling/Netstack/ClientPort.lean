import Mathlib.Tactic.Common
import Netstack.Client
import Netstack.Lifecycle
import Netstack.ReplyPorts

/-!
The request port as `socket_ipc.c` caches it. The engine allocates and frees the
port; the client looks it up by name once and keeps the pointer until
`netstack_client_shutdown`. An engine that is stopped and perhaps started again
leaves the pointer behind. The address of a later port may be the same, so what
matters is the address the cache was filled with and the one published now.
-/

namespace Netstack.ClientPort

open Client Ipc ReplyPorts Transition

variable {Task : Type}

structure State (Task : Type) where
  engine : Lifecycle.State Task Nat
  enginePort : Option Nat
  replySemInit : Bool
  replySlots : Nat → ReplySlot Task

def load (held : Task → Finset (Fin 32)) : State Task where
  engine := Lifecycle.load held
  enginePort := none
  replySemInit := false
  replySlots _ := {}

/-- `alloc` is the reply port that could be allocated, and `answer` the request as
the engine hands it back. -/
inductive Event (Task : Type) where
  | engine (e : Lifecycle.Event Task Nat)
  | clientInit (t : Task)
  | clientShutdown (t : Task)
  | rpc (t : Task) (call : Call) (alloc : Option Nat) (answer : NetstackReq)

def Event.caller : Event Task → Task
  | .engine e => e.caller
  | .clientInit t | .clientShutdown t | .rpc t _ _ _ => t

def ensureEnginePort (s : State Task) : State Task × Option Nat :=
  match s.enginePort with
  | some port => (s, some port)
  | none => ({ s with enginePort := s.engine.requestPort }, s.engine.requestPort)

def netstackClientInit (s : State Task) : State Task × Int :=
  let found := ensureEnginePort { s with replySemInit := true }
  (found.1, if found.2.isSome then 0 else -1)

/-- Nothing happens before the first use of the reply ports. -/
def netstackClientShutdown (s : State Task) : State Task :=
  if s.replySemInit then { s with replySlots := fun _ => {}, enginePort := none } else s

structure Sent (Task : Type) where
  state : State Task
  put : Option Nat
  result : Option Int

variable [DecidableEq Task]

/-- A message put on a port that no engine serves is not replied. -/
def netstackIpcCall (s : State Task) (t : Task) (alloc : Option Nat) : Sent Task :=
  let found := ensureEnginePort s
  match found.2 with
  | none => ⟨found.1, none, some (-1)⟩
  | some engine =>
      let slot := ensureReplyPort found.1.replySlots t alloc
      let s := { found.1 with replySemInit := true, replySlots := slot.1 }
      match slot.2 with
      | none => ⟨s, none, some (-1)⟩
      | some _ =>
          if s.engine.requestPort = some engine then ⟨s, some engine, some 0⟩
          else
            let stuck := { s.engine with waiting := Function.update s.engine.waiting t true }
            ⟨{ s with engine := stuck }, some engine, none⟩

def netstackCall (s : State Task) (t : Task) (call : Call) (alloc : Option Nat)
    (answer : NetstackReq) : State Task × Option Nat × Option Result :=
  match call.rejected with
  | some result => (s, none, some result)
  | none =>
      let sent := netstackIpcCall s t alloc
      (sent.state, sent.put, sent.result.map fun result =>
        if result ≠ 0 then { value := -1 } else call.unpack answer)

def step (s : State Task) (e : Event Task) : Option (State Task) :=
  if s.engine.waiting e.caller then none
  else
    match e with
    | .engine e => (Lifecycle.step s.engine e).map fun engine => { s with engine := engine }
    | .clientInit _ => some (netstackClientInit s).1
    | .clientShutdown _ => some (netstackClientShutdown s)
    | .rpc t call alloc answer => some (netstackCall s t call alloc answer).1

def Steps (s : State Task) (e : Event Task) (s' : State Task) : Prop := step s e = some s'

def target (move : Move (State Task) (Event Task)) : Option Nat :=
  match move.label with
  | .rpc t call alloc answer => (netstackCall move.before t call alloc answer).2.1
  | _ => none

/-- Every message goes to the port that the running engine has published, and a call
that finds no engine puts none and returns -1. A call that is refused for its length
asks for no engine. -/
def Reaches (move : Move (State Task) (Event Task)) : Prop :=
  (∀ port ∈ target move, move.before.engine.requestPort = some port) ∧
    match move.label with
    | .rpc t call alloc answer =>
        call.rejected = none → move.before.engine.requestPort = none → target move = none ∧
          (netstackCall move.before t call alloc answer).2.2 = some { value := -1 }
    | _ => True

/-- The port of the engine that the first initialisation or call since the last
shutdown of the client found. -/
def found (known : Option Nat) (move : Move (State Task) (Event Task)) : Option Nat :=
  match move.label with
  | .engine _ => known
  | .clientInit _ => known.or move.before.engine.requestPort
  | .clientShutdown _ => none
  | .rpc _ call _ _ =>
      if call.rejected.isSome then known else known.or move.before.engine.requestPort

def SameEngine (known : Option Nat) (move : Move (State Task) (Event Task)) : Prop :=
  match move.label with
  | .rpc t call alloc _ => call.rejected = none →
      (ensureReplyPort move.before.replySlots t alloc).2.isSome →
        ∀ port ∈ known, move.before.engine.requestPort = some port
  | _ => True

/-- The cache holds what was found first, and is set only after the reply ports are
in use. -/
structure Cached (known : Option Nat) (s : State Task) : Prop where
  cache : s.enginePort = known
  used : known.isSome = true → s.replySemInit = true

section Steps

variable {known : Option Nat} {s s' : State Task} {e : Event Task} {t : Task} {call : Call}
variable {alloc : Option Nat} {answer : NetstackReq}

omit [DecidableEq Task] in
theorem ensureEnginePort_eq (s : State Task) : ensureEnginePort s =
    ({ s with enginePort := s.enginePort.or s.engine.requestPort },
      s.enginePort.or s.engine.requestPort) := by
  cases s with
  | mk engine enginePort replySemInit replySlots =>
      cases enginePort with
      | none => rfl
      | some port => rfl

inductive IpcCall (s : State Task) (t : Task) (alloc : Option Nat) : Sent Task → Prop where
  | absent (none_ : s.enginePort.or s.engine.requestPort = none) :
      IpcCall s t alloc ⟨{ s with enginePort := none }, none, some (-1)⟩
  | unreplied {engine : Nat} (port : s.enginePort.or s.engine.requestPort = some engine)
      (none_ : (ensureReplyPort s.replySlots t alloc).2 = none) (state : State Task)
      (cache : state.enginePort = some engine) (used : state.replySemInit = true) :
      IpcCall s t alloc ⟨state, none, some (-1)⟩
  | sent {engine : Nat} (port : s.enginePort.or s.engine.requestPort = some engine)
      (reply : (ensureReplyPort s.replySlots t alloc).2.isSome = true) (state : State Task)
      (result : Option Int)
      (cache : state.enginePort = some engine) (used : state.replySemInit = true) :
      IpcCall s t alloc ⟨state, some engine, result⟩

theorem ipcCall_cases (s : State Task) (t : Task) (alloc : Option Nat) :
    IpcCall s t alloc (netstackIpcCall s t alloc) := by
  rw [netstackIpcCall, ensureEnginePort_eq]
  cases port : s.enginePort.or s.engine.requestPort with
  | none => exact .absent port
  | some engine =>
      cases slot : (ensureReplyPort s.replySlots t alloc).2 with
      | none =>
          simp only [slot]
          exact .unreplied port slot _ rfl rfl
      | some reply =>
          have granted : (ensureReplyPort s.replySlots t alloc).2.isSome = true := by
            rw [slot]
            rfl
          simp only [slot]
          split_ifs
          · exact .sent port granted _ _ rfl rfl
          · exact .sent port granted _ _ rfl rfl

theorem rpc_reaches_iff (cached : Cached known s) (after : State Task) :
    Reaches ⟨s, .rpc t call alloc answer, after⟩ ↔
      SameEngine known ⟨s, .rpc t call alloc answer, after⟩ := by
  simp only [Reaches, SameEngine, target, netstackCall]
  cases refused : call.rejected with
  | some result => simp
  | none =>
      generalize sent : netstackIpcCall s t alloc = out
      have way := ipcCall_cases s t alloc
      rw [sent] at way
      cases way with
      | absent none_ =>
          rw [cached.cache] at none_
          obtain ⟨rfl, -⟩ := Option.or_eq_none_iff.mp none_
          refine iff_of_true ⟨nofun, fun _ _ => ⟨rfl, rfl⟩⟩ nofun
      | unreplied port none_ state =>
          refine iff_of_true ⟨nofun, fun _ _ => ⟨rfl, rfl⟩⟩ fun _ granted => ?_
          rw [none_] at granted
          cases granted
      | @sent engine port reply state result =>
          rw [cached.cache] at port
          constructor
          · rintro ⟨published, -⟩ - - first rfl
            cases port
            exact published engine rfl
          · intro same
            have published : s.engine.requestPort = some engine := by
              cases known with
              | none => exact port
              | some first =>
                  cases port
                  exact same rfl reply engine rfl
            refine ⟨?_, fun _ absent => ?_⟩
            · rintro _ ⟨⟩
              exact published
            · rw [published] at absent
              cases absent

theorem step_reaches_iff (cached : Cached known s) :
    Reaches ⟨s, e, s'⟩ ↔ SameEngine known ⟨s, e, s'⟩ := by
  cases e with
  | engine | clientInit | clientShutdown => exact iff_of_true ⟨nofun, trivial⟩ trivial
  | rpc t call alloc answer => exact rpc_reaches_iff cached s'

theorem step_cached (cached : Cached known s) (taken : Steps s e s') :
    Cached (found known ⟨s, e, s'⟩) s' := by
  simp only [Steps, step] at taken
  split_ifs at taken
  cases e with
  | engine e =>
      obtain ⟨engine, -, rfl⟩ := Option.map_eq_some_iff.mp taken
      exact ⟨cached.cache, cached.used⟩
  | clientInit t =>
      cases taken
      rw [netstackClientInit, ensureEnginePort_eq]
      refine ⟨?_, fun _ => rfl⟩
      rw [← cached.cache]
      rfl
  | clientShutdown t =>
      cases taken
      rw [netstackClientShutdown]
      split_ifs with used
      · exact ⟨rfl, nofun⟩
      · -- Before the first use the cache is empty already.
        refine ⟨?_, nofun⟩
        rw [cached.cache]
        cases known with
        | none => rfl
        | some port => exact absurd (cached.used rfl) used
  | rpc t call alloc answer =>
      cases taken
      simp only [netstackCall, found]
      cases refused : call.rejected with
      | some result => exact cached
      | none =>
          have way := ipcCall_cases s t alloc
          generalize netstackIpcCall s t alloc = out at way
          rw [← cached.cache]
          cases way with
          | absent none_ => exact ⟨none_.symm, fun some_ => by simp [none_] at some_⟩
          | unreplied port none_ state cache used | sent port reply state result cache used =>
              exact ⟨cache.trans port.symm, fun _ => used⟩

end Steps

/-- Along every history of starts, stops, client calls and client shutdowns, every
message goes to the port of the running engine and calls without an engine fail,
exactly when no call is sent after its engine has gone without a shutdown of the
client between. -/
theorem calls_reach_exactly_the_same_engine (held : Task → Finset (Fin 32))
    {history : List (Move (State Task) (Event Task))} {now : State Task}
    (trace : Trace Steps (load held) history now) :
    (∀ move ∈ history, Reaches move) ↔ Along found SameEngine none history := by
  have initially : Cached none (load held : State Task) := ⟨rfl, nofun⟩
  have decided : Along found (fun _ => Reaches) none history ↔
      Along found SameEngine none history :=
    observed_exact Cached SameEngine initially
      (fun _ _ _ _ cached taken _ => step_cached cached taken)
      (fun _ _ _ _ cached _ => step_reaches_iff cached) trace
  constructor
  · intro reaches
    exact decided.mp (along_of_forall _ reaches)
  · intro same
    exact forall_of_along (decided.mpr same)

instance (known : Option Nat) :
    (move : Move (State Task) (Event Task)) → Decidable (SameEngine known move)
  | ⟨s, .rpc t call alloc _, _⟩ => inferInstanceAs (Decidable (call.rejected = none →
      (ensureReplyPort s.replySlots t alloc).2.isSome →
        ∀ port ∈ known, s.engine.requestPort = some port))
  | ⟨_, .engine _, _⟩ | ⟨_, .clientInit _, _⟩ | ⟨_, .clientShutdown _, _⟩ => isTrue trivial

def pinged (port : Nat) : Event Unit :=
  .rpc () (.ping 1 2) (some port) { op := 0x0001, err := 0 }

def started (port : Nat) : Event Unit :=
  .engine (.start () (some (Signals.signalBit 16)) (some (Signals.signalBit 17)) true (some port))

def orderlyRestart : List (Event Unit) :=
  [started 1, .clientInit (), pinged 2, .clientShutdown (),
    .engine (.stop () (some (Signals.signalBit 18))), pinged 2, started 3, pinged 2]

theorem orderly_restart_reaches :
    ∃ history now, Trace Steps (load fun _ : Unit => ∅) history now ∧
      history.filterMap target = [1, 3] ∧ ∀ move ∈ history, Reaches move := by
  have done : ((follow step [] (load fun _ : Unit => ∅) orderlyRestart).map fun out =>
      (decide (Along found SameEngine none out.1), out.1.filterMap target)) =
      some (true, [1, 3]) := by
    decide +kernel
  obtain ⟨⟨history, now⟩, followed, checks⟩ := Option.map_eq_some_iff.mp done
  obtain ⟨same, sent⟩ := Prod.ext_iff.mp checks
  have trace : Trace Steps (load fun _ : Unit => ∅) history now := follow_trace .nil followed
  have reaches :=
    (calls_reach_exactly_the_same_engine _ trace).mpr (of_decide_eq_true same)
  exact ⟨history, now, trace, sent, reaches⟩

/-- The client is not shut down, and the engine is stopped between two calls. -/
def staleCall : List (Event Unit) :=
  [started 1, pinged 2, .engine (.stop () (some (Signals.signalBit 18))), pinged 2]

/-- The second call puts its message on the port that was freed, and waits. -/
theorem stale_call_misses_engine :
    ∃ history now, Trace Steps (load fun _ : Unit => ∅) history now ∧
      history.filterMap target = [1, 1] ∧ now.engine.waiting () = true ∧
      ∃ move ∈ history, ¬ Reaches move := by
  have done : ((follow step [] (load fun _ : Unit => ∅) staleCall).map fun out =>
      (out.1.filterMap target, out.2.engine.waiting (), decide (∃ move ∈ out.1,
        ∃ port ∈ target move, move.before.engine.requestPort ≠ some port))) =
      some ([1, 1], true, true) := by
    decide +kernel
  obtain ⟨⟨history, now⟩, followed, checks⟩ := Option.map_eq_some_iff.mp done
  obtain ⟨sent, rest⟩ := Prod.ext_iff.mp checks
  obtain ⟨stuck, missed⟩ := Prod.ext_iff.mp rest
  obtain ⟨move, member, port, put, gone⟩ := of_decide_eq_true missed
  exact ⟨history, now, follow_trace .nil followed, sent, stuck, move, member,
    fun reaches => gone (reaches.1 port put)⟩

end Netstack.ClientPort
