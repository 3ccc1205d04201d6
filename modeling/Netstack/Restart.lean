import Netstack.FdAccounting
import Netstack.FdAlike
import Netstack.StopSignals

/-!
Sessions of one program. `NetstackEngine_Start` and `NetstackEngine_Stop` come and
go as `Lifecycle` has them; between them `engine_process_main` serves what its port
holds. Of the statics that requests reach, a start sets `g_engine_shutdown` back and
nothing sets `g_fdtable` back, so the next session finds the table as the last one
left it. It answers as a newly loaded program does exactly when no entry is open.
-/

namespace Netstack.Restart

open Ipc Client FdTable Serving Signals Transition Lifecycle

variable {Task Port : Type}

structure Program (Task Port : Type) where
  life : Lifecycle.State Task Port
  core : Engine

def load (held : Task → Finset (Fin 32)) : Program Task Port := ⟨Lifecycle.load held, initial⟩

/-- What happens to a program: a call of Start or Stop, a round of the engine's loop
that serves all messages it finds, or a break signal that ends the loop. -/
inductive Event (Task Port : Type) where
  | call (e : Lifecycle.Event Task Port)
  | round (batch : List NetstackReq)
  | ctrlC

variable [DecidableEq Task]

/-- What a call makes the engine do to its statics: a start that succeeds clears the
shutdown flag, and a stop that gets a reply port is a shutdown request. -/
def coreAfter (p : Program Task Port) : Lifecycle.Event Task Port → Engine
  | .start t ready stopped created port =>
      if (netstackEngineStart p.life t ready stopped created port).returned = some 0 then
        { p.core with shutdown := false }
      else p.core
  | .stop _ reply =>
      if p.life.engineTask ∧ p.life.requestPort.isSome ∧ reply.isSome then
        (dispatchShutdown p.core { op := 0x0002 }).1
      else p.core

def step (p : Program Task Port) : Event Task Port → Option (Program Task Port)
  | .call e => (Lifecycle.step p.life e).map fun life => ⟨life, coreAfter p e⟩
  | .round batch =>
      if p.life.requestPort.isSome then
        match serveAll dispatchRequest p.core batch with
        -- The flag is tested after the port has been drained.
        | .ok (core, _) =>
            some ⟨if core.shutdown then (engineProcessEnd p.life).1 else p.life, core⟩
        | .error _ => none
      else none
  | .ctrlC =>
      if p.life.requestPort.isSome then some ⟨(engineProcessEnd p.life).1, p.core⟩ else none

def Steps (p : Program Task Port) (e : Event Task Port) (p' : Program Task Port) : Prop :=
  step p e = some p'

abbrev History (Task Port : Type) := List (Move (Program Task Port) (Event Task Port))

def Event.requests : Event Task Port → List NetstackReq
  | .round batch => batch
  | .call _ | .ctrlC => []

def repliesOf (move : Move (Program Task Port) (Event Task Port)) : List NetstackReq :=
  match serveAll dispatchRequest move.before.core move.label.requests with
  | .ok (_, replies) => replies
  | .error _ => []

def requests (history : History Task Port) : List NetstackReq :=
  history.flatMap fun move => move.label.requests

def replies (history : History Task Port) : List NetstackReq := history.flatMap repliesOf

def Event.isCall : Event Task Port → Bool
  | .call _ => true
  | .round _ | .ctrlC => false

/-- A stretch of one session: the engine's own moves, no Start and no Stop. -/
def InSession (p : Program Task Port) (history : History Task Port) (p' : Program Task Port) :
    Prop :=
  Trace Steps p history p' ∧ ∀ move ∈ history, move.label.isCall = false

/-- A call of `NetstackEngine_Start` that returns 0. -/
def Started (p p' : Program Task Port) : Prop :=
  ∃ t ready stopped created port, Steps p (.call (.start t ready stopped created port)) p' ∧
    (netstackEngineStart p.life t ready stopped created port).returned = some 0

/-- Whatever requests two sessions both serve, they answer alike. -/
def SameService (p q : Program Task Port) : Prop :=
  ∀ again first p' q', InSession p again p' → InSession q first q' →
    requests again = requests first → replies again = replies first

/-! Moves of the engine. -/

theorem round_served {p p' : Program Task Port} {batch : List NetstackReq}
    (taken : Steps p (.round batch) p') :
    ∃ answers, serveAll dispatchRequest p.core batch = .ok (p'.core, answers) := by
  rw [Steps, step] at taken
  split_ifs at taken with up
  cases ran : serveAll dispatchRequest p.core batch with
  | error fault => simp [ran] at taken
  | ok answer =>
      simp only [ran, Option.some.injEq] at taken
      subst taken
      exact ⟨answer.2, rfl⟩

theorem move_served {p p' : Program Task Port} {e : Event Task Port} (taken : Steps p e p')
    (own : e.isCall = false) :
    serveAll dispatchRequest p.core e.requests = .ok (p'.core, repliesOf ⟨p, e, p'⟩) := by
  cases e with
  | call e => contradiction
  | round batch =>
      obtain ⟨answers, ran⟩ := round_served taken
      simp only [repliesOf, Event.requests, ran]
  | ctrlC =>
      rw [Steps, step] at taken
      split_ifs at taken with up
      cases taken
      rfl

/-- The replies of a session are those the table it started on gives. -/
theorem session_served {p p' : Program Task Port} {history : History Task Port}
    (session : InSession p history p') :
    serveAll dispatchRequest p.core (requests history) = .ok (p'.core, replies history) := by
  obtain ⟨trace, own⟩ := session
  induction trace with
  | nil => rfl
  | snoc past taken ih =>
      simp only [List.forall_mem_append, List.forall_mem_singleton] at own
      have latest := move_served taken own.2
      simp only [requests, replies, List.flatMap_append, List.flatMap_singleton]
      exact serveAll_append (ih own.1) latest

theorem round_session {p : Program Task Port} (up : p.life.requestPort.isSome = true)
    {r reply : NetstackReq} {core : Engine} (ran : dispatchRequest p.core r = .ok (core, reply)) :
    ∃ history p', InSession p history p' ∧ requests history = [r] ∧ replies history = [reply] := by
  have served : serveAll dispatchRequest p.core [r] = .ok (core, [reply]) :=
    serveAll_cons ran rfl
  have taken : Steps p (.round [r])
      ⟨if core.shutdown then (engineProcessEnd p.life).1 else p.life, core⟩ := by
    rw [Steps, step, if_pos up, served]
  refine ⟨_, _, ⟨.snoc .nil taken, by simp [Event.isCall]⟩, rfl, ?_⟩
  simp [replies, repliesOf, Event.requests, served]

/-! Starts. -/

theorem started_core {p p' : Program Task Port} (started : Started p p') :
    p'.core = { p.core with shutdown := false } ∧ p'.life.requestPort.isSome = true := by
  obtain ⟨t, ready, stopped, created, port, taken, returned⟩ := started
  rw [Steps, step, Option.map_eq_some_iff] at taken
  obtain ⟨life, stepped, rfl⟩ := taken
  obtain ⟨-, -, rfl⟩ := steps_cases stepped
  refine ⟨if_pos returned, ?_⟩
  dsimp only [call]
  cases down : p.life.engineTask with
  | true =>
      simp [netstackEngineStart, down] at returned
  | false =>
      rcases start_cases down t ready stopped created port with failed | ⟨r, b, q, succeeded⟩
      · rw [failed.returned] at returned
        contradiction
      · rw [succeeded]
        rfl

theorem call_table (p : Program Task Port) (e : Lifecycle.Event Task Port) :
    (coreAfter p e).table = p.core.table := by
  cases e with
  | start t ready stopped created port =>
      simp only [coreAfter]
      split <;> rfl
  | stop t reply =>
      simp only [coreAfter]
      split <;> rfl

theorem run_table_bounded {held : Task → Finset (Fin 32)} {history : History Task Port}
    {p : Program Task Port} (run : Trace Steps (load held) history p) : Bounded p.core.table := by
  refine trace_invariant (fun p => Bounded p.core.table) initial_bounded ?_ run
  intro before e after bounded taken
  cases e with
  | call e =>
      rw [Steps, step, Option.map_eq_some_iff] at taken
      obtain ⟨life, -, rfl⟩ := taken
      rw [call_table]
      exact bounded
  | round batch =>
      obtain ⟨answers, ran⟩ := round_served taken
      refine serveAll_invariant (fun s => Bounded s.table) ?_ bounded ran
      intro s r s' reply inside served
      exact outcome_bounded inside (outcome_of_dispatch inside served)
  | ctrlC =>
      rw [Steps, step] at taken
      split_ifs at taken with up
      cases taken
      exact bounded

/-! A table without an open entry answers as the all-zero table does, and an open entry
shows in the reply to its close. -/

theorem closed_alike {t : Table} (none_open : openFds t = ∅) : AlikeAll t initial.table := by
  have free : ∀ fd, ¬ IsOpen t fd := by
    intro fd
    rw [← mem_openFds, none_open]
    exact Finset.notMem_empty fd
  constructor
  · intro fd inside
    by_contra used
    exact free fd ⟨inside, fun same => used same.symm⟩
  · exact fun fd _ valid => absurd valid (free fd)

theorem alike_service {p q : Program Task Port} (alike : AlikeAll p.core.table q.core.table)
    (flag : q.core.shutdown = p.core.shutdown) : SameService p q := by
  intro again first p' q' session fresh same
  have served := session_served session
  have servedFresh := session_served fresh
  have both := serveAll_paired
    (fun a b : Engine => AlikeAll a.table b.table ∧ b.shutdown = a.shutdown)
    (fun s u r related => dispatch_alike related.1 related.2 r) ⟨alike, flag⟩ (requests again)
  rw [served, same, servedFresh] at both
  exact both.2

theorem open_differs {p q : Program Task Port} (bounded : Bounded p.core.table)
    (boundedToo : Bounded q.core.table) (up : p.life.requestPort.isSome = true)
    (upToo : q.life.requestPort.isSome = true) {fd : Int} (valid : IsOpen p.core.table fd)
    (closed : ¬ IsOpen q.core.table fd) : ¬ SameService p q := by
  intro same
  have op : (Call.close fd).request.kind = .close := rfl
  obtain ⟨core, reply, ran, outcome⟩ := dispatch_outcome bounded (Call.close fd).request
  obtain ⟨core', reply', ran', outcome'⟩ := dispatch_outcome boundedToo (Call.close fd).request
  obtain ⟨again, p', session, asked, answered⟩ := round_session up ran
  obtain ⟨first, q', session', asked', answered'⟩ := round_session upToo ran'
  have equal := same again first p' q' session session' (asked.trans asked'.symm)
  rw [answered, answered'] at equal
  obtain rfl := List.singleton_inj.mp equal
  have ok : reply.ok := (close_accounted op outcome).mpr valid
  exact closed ((close_accounted op outcome').mp ok)

theorem restart_differs {held held' : Task → Finset (Fin 32)} {history : History Task Port}
    {p p' q' : Program Task Port} (run : Trace Steps (load held) history p)
    (restarted : Started p p') (fresh : Started (load held') q') {fd : Int}
    (valid : IsOpen p.core.table fd) : ¬ SameService p' q' := by
  obtain ⟨core, up⟩ := started_core restarted
  obtain ⟨core', up'⟩ := started_core fresh
  have still : IsOpen p'.core.table fd := by
    rw [core]
    exact valid
  refine open_differs ?_ ?_ up up' still ?_
  · rw [core]
    exact run_table_bounded run
  · rw [core']
    exact initial_bounded
  · rw [core']
    exact fun inside => absurd rfl inside.2

/-- A restarted engine answers every request sequence as a newly loaded one does exactly
when the sessions before left no descriptor open. -/
theorem restart_is_fresh_exactly_when_all_closed (held held' : Task → Finset (Fin 32))
    (history : History Task Port) (p p' q' : Program Task Port)
    (run : Trace Steps (load held) history p) (restarted : Started p p')
    (fresh : Started (load held') q') : SameService p' q' ↔ openFds p.core.table = ∅ := by
  constructor
  · intro same
    by_contra some_open
    obtain ⟨fd, member⟩ := Finset.nonempty_iff_ne_empty.mpr some_open
    exact restart_differs run restarted fresh (mem_openFds.mp member) same
  · intro none_open
    obtain ⟨core, -⟩ := started_core restarted
    obtain ⟨core', -⟩ := started_core fresh
    refine alike_service ?_ ?_
    · rw [core, core']
      exact closed_alike none_open
    · rw [core, core']

/-! One task that starts the engine, lets it serve a batch, stops it and starts it
again. -/

def unheld : Program Unit Unit := load fun _ => ∅

def startCall : Lifecycle.Event Unit Unit :=
  .start () (some (signalBit 16)) (some (signalBit 17)) true (some ())

def stopCall : Lifecycle.Event Unit Unit := .stop () (some (signalBit 18))

/-- The first session, the program after its stop, and the program restarted. -/
def restartAfter (batch : List NetstackReq) :
    Option (History Unit Unit × Program Unit Unit × Program Unit Unit) := do
  let first ← step unheld (.call startCall)
  let served ← step first (.round batch)
  let stopped ← step served (.call stopCall)
  let again ← step stopped (.call startCall)
  return ([⟨unheld, .call startCall, first⟩, ⟨first, .round batch, served⟩,
    ⟨served, .call stopCall, stopped⟩], stopped, again)

theorem restartAfter_run {batch : List NetstackReq} {history : History Unit Unit}
    {p p' : Program Unit Unit} (ran : restartAfter batch = some (history, p, p')) :
    Trace Steps unheld history p ∧ requests history = batch ∧ Steps p (.call startCall) p' := by
  simp only [restartAfter, Option.bind_eq_bind, Option.bind_eq_some_iff, Option.pure_def,
    Option.some.injEq, Prod.mk.injEq] at ran
  obtain ⟨first, taken₁, served, taken₂, stopped, taken₃, again, taken₄, rfl, rfl, rfl⟩ := ran
  refine ⟨.snoc (.snoc (.snoc .nil taken₁) taken₂) taken₃, ?_, taken₄⟩
  simp [requests, Event.requests]

theorem started_of_call {p p' : Program Unit Unit} (taken : Steps p (.call startCall) p')
    (returned : (Lifecycle.call p.life startCall).returned = some 0) : Started p p' :=
  ⟨(), _, _, _, _, taken, returned⟩

theorem unheld_starts : ∃ q, Started unheld q := by
  have done : (step unheld (.call startCall)).isSome = true := by decide +kernel
  obtain ⟨q, taken⟩ := Option.isSome_iff_exists.mp done
  exact ⟨q, started_of_call taken (by decide +kernel)⟩

-- The session closes what it opened.
theorem closed_session_restarts_fresh :
    ∃ (history : History Unit Unit) (p p' q' : Program Unit Unit),
      Trace Steps unheld history p ∧
      requests history = [(Call.socket 2 1 0).request, (Call.close 3).request] ∧
      Started p p' ∧ Started unheld q' ∧ SameService p' q' := by
  have done : ((restartAfter [(Call.socket 2 1 0).request, (Call.close 3).request]).map
      fun out => (decide ((Lifecycle.call out.2.1.life startCall).returned = some 0),
        decide (∀ fd ∈ tableFds, (out.2.1.core.table fd).kind = .free))) = some (true, true) := by
    decide +kernel
  obtain ⟨⟨history, p, p'⟩, ran, facts⟩ := Option.map_eq_some_iff.mp done
  simp only [Prod.mk.injEq, decide_eq_true_eq] at facts
  obtain ⟨returned, unused⟩ := facts
  have none_open : openFds p.core.table = ∅ := by
    rw [openFds, Finset.filter_eq_empty_iff]
    intro fd member
    exact not_not.mpr (unused fd (List.mem_toFinset.mp member))
  obtain ⟨run, asked, taken⟩ := restartAfter_run ran
  have restarted := started_of_call taken returned
  obtain ⟨q', fresh⟩ := unheld_starts
  exact ⟨history, p, p', q', run, asked, restarted, fresh,
    (restart_is_fresh_exactly_when_all_closed _ _ history p p' q' run restarted fresh).mpr
      none_open⟩

-- The session leaves socket 3 open: the restarted engine closes it, a new one has none.
theorem open_socket_survives_restart :
    ∃ (history : History Unit Unit) (p p' q' : Program Unit Unit),
      Trace Steps unheld history p ∧ requests history = [(Call.socket 2 1 0).request] ∧
      Started p p' ∧ Started unheld q' ∧ ¬ SameService p' q' := by
  have done : ((restartAfter [(Call.socket 2 1 0).request]).map
      fun out => (decide ((Lifecycle.call out.2.1.life startCall).returned = some 0),
        decide (IsOpen out.2.1.core.table 3))) = some (true, true) := by decide +kernel
  obtain ⟨⟨history, p, p'⟩, ran, facts⟩ := Option.map_eq_some_iff.mp done
  simp only [Prod.mk.injEq, decide_eq_true_eq] at facts
  obtain ⟨returned, valid⟩ := facts
  obtain ⟨run, asked, taken⟩ := restartAfter_run ran
  have restarted := started_of_call taken returned
  obtain ⟨q', fresh⟩ := unheld_starts
  exact ⟨history, p, p', q', run, asked, restarted, fresh,
    restart_differs run restarted fresh valid⟩

end Netstack.Restart
