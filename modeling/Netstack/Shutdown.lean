import Netstack.RpcOrder

/-!
What becomes of queued requests when the engine goes down. The loop of
`engine_process_main` has two exits: the break signal, which leaves without a
look at the port, and the shutdown flag, which is tested after the port has been
drained. Nothing is lost exactly when no break is taken over a queued request
and no request arrives between the last look at the port and its end.
-/

namespace Netstack.Rpc

open Ipc Client FdTable Transition

variable {Task : Type}

/-- Every message put on the request port has been dispatched and replied, once
each and in order, and no client waits for a reply that will not come. -/
structure AllAnswered (log : Log Task) (s : State Task) : Prop where
  dispatched : log.served.map Prod.fst = log.puts.map Prod.fst
  replied : log.answered = log.puts.map Prod.fst
  unblocked : ∀ t job reply, s.client t = .waitPort job reply → s.ports reply ≠ []

def PastDrain (s : State Task) : Prop :=
  s.engine = .freePort ∨ (s.engine = .test ∧ s.core.shutdown = true)

/-- No break signal is taken while requests are queued, and no request is put
once the engine has looked at its port for the last time. -/
def Orderly (s : State Task) : Event Task → Prop
  | .engineWait => s.engine = .wait → s.ctrlC = true → s.ports requestPort = []
  | .putMsg _ => ¬ PastDrain s
  | _ => True

instance (s : State Task) [DecidableEq Task] : Decidable (PastDrain s) :=
  inferInstanceAs (Decidable (_ ∨ _))

instance (s : State Task) [DecidableEq Task] : (e : Event Task) → Decidable (Orderly s e)
  | .engineWait => inferInstanceAs (Decidable (_ → _ → _))
  | .putMsg _ => inferInstanceAs (Decidable (¬ _))
  | .begin _ _ | .ensureEnginePort _ | .ensureReplyPort _ _ | .waitPort _ | .getMsg _ | .unpack _
  | .stop _ _ | .stopped _ | .breakSignal | .engineGetMsg | .engineDispatch | .engineReplyMsg
  | .engineTest | .engineFreePort => isTrue trivial

def NothingLeft (s : State Task) : Prop := PastDrain s → s.ports requestPort = []

theorem allAnswered_iff {core : Engine} {log : Log Task} {s : State Task}
    (inv : Inv core log s) (pc : s.engine = .freePort) :
    AllAnswered log s ↔ s.ports requestPort = [] := by
  have line := inv.ordered.line
  have names := inv.ordered.names
  have answered := inv.ordered.answered
  simp only [undispatched, replying, pc, List.append_nil] at line answered
  constructor
  · intro complete
    have lengths := congrArg List.length complete.dispatched
    have rest := congrArg List.length line
    simp only [List.length_map, List.length_drop] at lengths rest
    exact List.length_eq_zero_iff.mp (by omega)
  · intro empty
    rw [empty, List.map_nil] at line
    have all : log.puts.take log.served.length = log.puts := by
      have whole := List.take_append_drop log.served.length log.puts
      rw [line, List.append_nil] at whole
      exact whole
    rw [all] at names
    refine ⟨names, answered.trans names, ?_⟩
    intro t job reply waits
    rcases inv.places.waits t job reply waits with held | there
    · simp only [onEngine, replying, undispatched, pc, empty, List.append_nil] at held
      contradiction
    · exact List.ne_nil_of_mem there

variable [DecidableEq Task]

theorem effect_nothingLeft {s s' : State Task} {e : Event Task} (owned : PortsOwned s)
    (nothing : NothingLeft s) (effect : Effect s e s') : NothingLeft s' ↔ Orderly s e := by
  cases effect with
  | rejected | alreadyDown | began | located | unreachable | equipped | unequipped | woken |
    unpacked | stopAsked | stopSignalled | sawStopped | broken =>
      exact iff_of_true nothing trivial
  | @put t job engine reply pc =>
      have aim : engine = requestPort := owned.aimed t engine (by rw [pc]; rfl)
      subst aim
      have filled :
          ((s.post requestPort t).goto t (.waitPort job reply)).ports requestPort ≠ [] := by
        simp [State.goto, State.post]
      exact ⟨fun kept late => filled (kept late), fun early late => absurd late early⟩
  | got pc | gotStop pc =>
      refine iff_of_true ?_ trivial
      intro late
      exact (take_requests owned (congrArg ClientPc.reply pc)).trans (nothing late)
  | left pc signalled =>
      exact ⟨fun kept _ _ => kept (Or.inl rfl), fun empty _ => empty pc signalled⟩
  | roused pc calm signalled =>
      refine iff_of_true ?_ ?_
      · rintro (late | ⟨late, -⟩) <;> cases late
      · intro _ interrupted
        rw [calm] at interrupted
        contradiction
  | drained pc empty => exact iff_of_true (fun _ => empty) trivial
  | tested pc =>
      refine iff_of_true ?_ trivial
      intro late
      cases down : s.core.shutdown with
      | true => exact nothing (Or.inr ⟨pc, down⟩)
      | false =>
          rw [PastDrain] at late
          simp [down] at late
  | taken | dispatched | replied | unaddressed | freed =>
      refine iff_of_true ?_ trivial
      rintro (late | ⟨late, -⟩) <;> cases late

/-- Requests the engine will not look at again stay where they are. -/
def Doomed (s : State Task) : Prop :=
  (PastDrain s ∧ s.ports requestPort ≠ []) ∨ s.engine = .stopped

theorem effect_doomed {s s' : State Task} {e : Event Task} (owned : PortsOwned s)
    (doomed : Doomed s) (effect : Effect s e s') : Doomed s' := by
  -- A loop that looks at its port, or may look again, is not doomed.
  have elsewhere {pc : EnginePc Task} (here : s.engine = pc) (notFree : pc ≠ .freePort)
      (notTest : pc ≠ .test) (notStopped : pc ≠ .stopped) : Doomed s' := by
    rcases doomed with ⟨late | ⟨late, -⟩, -⟩ | gone
    · exact absurd (here.symm.trans late) notFree
    · exact absurd (here.symm.trans late) notTest
    · exact absurd (here.symm.trans gone) notStopped
  cases effect with
  | rejected | alreadyDown | began | located | unreachable | equipped | unequipped | woken |
    unpacked | stopAsked | stopSignalled | sawStopped | broken => exact doomed
  | @put t job engine reply pc =>
      have aim : engine = requestPort := owned.aimed t engine (by rw [pc]; rfl)
      subst aim
      refine doomed.imp (fun late => ⟨late.1, ?_⟩) id
      simp [State.goto, State.post]
  | got pc | gotStop pc =>
      refine doomed.imp (fun late => ⟨late.1, ?_⟩) id
      rw [← take_requests owned (congrArg ClientPc.reply pc)] at late
      exact late.2
  | tested pc =>
      rcases doomed with ⟨late | ⟨-, down⟩, queued⟩ | gone
      · rw [pc] at late
        contradiction
      · refine Or.inl ⟨Or.inl ?_, queued⟩
        simp [down]
      · rw [pc] at gone
        contradiction
  | freed pc => exact Or.inr rfl
  | left pc | roused pc | drained pc | taken pc | dispatched pc | replied pc | unaddressed pc =>
      exact elsewhere pc (by simp) (by simp) (by simp)

theorem run_owned {core : Engine} {history : List (Move (State Task) (Event Task))}
    {s : State Task} (trace : Trace Steps (boot core) history s) : PortsOwned s :=
  trace_invariant PortsOwned (portsOwned_boot core)
    (fun _ _ _ owned stepped => effect_owned owned (effect_of_step stepped)) trace

/-- When the engine frees its port, every request ever put on it has been
dispatched and replied exactly when the run up to there was orderly. -/
theorem shutdown_complete_exactly_when_orderly (core : Engine)
    (history : List (Move (State Task) (Event Task))) (s s' : State Task)
    (trace : Trace Steps (boot core) history s) (freed : Steps s .engineFreePort s') :
    AllAnswered (logOf history) s ↔ ∀ move ∈ history, Orderly move.before move.label := by
  have pc : s.engine = .freePort := by
    cases effect_of_step freed
    assumption
  have inv := (run_inv trace).1
  rw [allAnswered_iff inv pc]
  have exact_ := guarded_exact Orderly PortsOwned NothingLeft run_owned
    (by rintro (late | ⟨late, -⟩) <;> cases late)
    (fun _ _ _ owned nothing stepped =>
      effect_nothingLeft owned nothing (effect_of_step stepped)) trace
  constructor
  · -- A request left behind earlier would still be there.
    intro empty
    apply exact_.mp
    intro state member late
    by_contra queued
    have owned := visited_invariant PortsOwned (portsOwned_boot core)
      (fun _ _ _ owned stepped => effect_owned owned (effect_of_step stepped)) trace state member
    have ends := visited_stable (fun s => PortsOwned s ∧ Doomed s)
      (fun _ _ _ both stepped => ⟨effect_owned both.1 (effect_of_step stepped),
        effect_doomed both.1 both.2 (effect_of_step stepped)⟩)
      trace member ⟨owned, Or.inl ⟨late, queued⟩⟩
    rcases ends.2 with ⟨-, left⟩ | gone
    · exact left empty
    · rw [pc] at gone
      contradiction
  · intro orderly
    exact exact_.mpr orderly s (trace_end_visited trace) (Or.inl pc)

def orderlyStop : List (Event Unit) :=
  [.begin () (.ping 7 41), .ensureEnginePort (), .ensureReplyPort () true, .putMsg (),
    .engineWait, .engineGetMsg, .engineDispatch, .engineReplyMsg, .engineGetMsg, .engineTest,
    .waitPort (), .getMsg (), .unpack (), .stop () true, .putMsg (), .engineWait, .engineGetMsg,
    .engineDispatch, .engineReplyMsg, .engineGetMsg, .engineTest]

theorem orderly_stop_answers_all :
    ∃ history s s', Trace Steps (boot initial : State Unit) history s ∧
      Steps s .engineFreePort s' ∧ (logOf history).puts.length = 2 ∧
      AllAnswered (logOf history) s := by
  have done : ((follow step [] (boot initial) orderlyStop).map fun out =>
      ((step out.2 .engineFreePort).isSome, (logOf out.1).puts.length,
        decide (∀ move ∈ out.1, Orderly move.before move.label))) = some (true, 2, true) := by
    decide +kernel
  obtain ⟨⟨history, s⟩, followed, checks⟩ := Option.map_eq_some_iff.mp done
  obtain ⟨frees, puts, orderly⟩ : _ ∧ _ ∧ _ := by simpa using checks
  obtain ⟨s', freed⟩ := Option.isSome_iff_exists.mp frees
  have trace : Trace Steps (boot initial : State Unit) history s := follow_trace .nil followed
  refine ⟨history, s, s', trace, freed, puts, ?_⟩
  exact (shutdown_complete_exactly_when_orderly initial history s s' trace freed).mpr orderly

/-- A break signal arrives while a ping is queued. -/
def brokenPing : List (Event Unit) :=
  [.begin () (.ping 7 41), .ensureEnginePort (), .ensureReplyPort () true, .putMsg (),
    .breakSignal, .engineWait]

theorem broken_ping_is_lost :
    ∃ history s s', Trace Steps (boot initial : State Unit) history s ∧
      Steps s .engineFreePort s' ∧ ¬ AllAnswered (logOf history) s := by
  have done : ((follow step [] (boot initial) brokenPing).map fun out =>
      ((step out.2 .engineFreePort).isSome, (logOf out.1).puts.length,
        (logOf out.1).answered.length)) = some (true, 1, 0) := by
    decide +kernel
  obtain ⟨⟨history, s⟩, followed, checks⟩ := Option.map_eq_some_iff.mp done
  obtain ⟨frees, puts, answered⟩ : _ ∧ _ ∧ _ := by simpa using checks
  obtain ⟨s', freed⟩ := Option.isSome_iff_exists.mp frees
  refine ⟨history, s, s', follow_trace .nil followed, freed, ?_⟩
  intro all
  have lengths := congrArg List.length all.replied
  rw [List.length_map, puts, answered] at lengths
  contradiction

end Netstack.Rpc
