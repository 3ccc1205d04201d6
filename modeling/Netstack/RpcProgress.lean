import Netstack.RpcOrder

/-!
Requests are served in turn. Once a request is on the engine's line the engine needs a
number of steps that the requests ahead of it fix, three for each: the message is taken,
dispatched and replied to. No step of a client makes it more, and until the reply is at
its port the engine always has a next step.
-/

namespace Netstack.Rpc

open FdTable Transition

variable {Task : Type}

/-- The engine will look at its port again before it leaves. -/
def Attends (s : State Task) : Prop :=
  match s.engine with
  | .test => s.core.shutdown = false
  | .freePort | .stopped => False
  | _ => True

/-- The steps of the engine to the reply of the request that has `k` others ahead. -/
def stepsTo (engine : EnginePc Task) (k : Nat) : Nat :=
  match engine with
  | .dispatch _ => 3 * k + 2
  | .getMsg => 3 * k + 3
  | .replyMsg _ | .wait => 3 * k + 4
  | .test => 3 * k + 5
  | .freePort | .stopped => 0

inductive Due (t : Task) : Nat → State Task → Prop where
  | line {s : State Task} {k : Nat} (place : (undispatched s)[k]? = some t) (attends : Attends s) :
      Due t (stepsTo s.engine k) s
  | reply {s : State Task} (pc : s.engine = .replyMsg t) : Due t 1 s

/-- The reply is at the port where its sender looks. -/
def Delivered (s : State Task) (t : Task) : Prop :=
  ∃ port, (s.client t).reply = some port ∧ s.ports port = [t]

/-- No break signal finds the engine in its Wait. -/
def Calm (s : State Task) : Prop := s.engine = .wait → s.ctrlC = false

structure Sound (s : State Task) : Prop where
  owned : PortsOwned s
  places : Places s
  watchful : Watchful s

theorem due_line {s : State Task} {t : Task} {m k : Nat} (place : (undispatched s)[k]? = some t)
    (attends : Attends s) (steps : m = stepsTo s.engine k) : Due t m s := by
  rw [steps]
  exact .line place attends

theorem due_positive {s : State Task} {t : Task} {n : Nat} (due : Due t n s) : 0 < n := by
  cases due with
  | reply pc => exact Nat.one_pos
  | line place attends =>
      rw [Attends] at attends
      cases pc : s.engine <;> simp_all [stepsTo]

theorem due_running {s : State Task} {t : Task} {n : Nat} (due : Due t n s) :
    s.engine ≠ .stopped := by
  intro pc
  cases due with
  | reply other => rw [pc] at other; cases other
  | line place attends => simp [Attends, pc] at attends

theorem due_signalled {s : State Task} {t : Task} {n : Nat} (sound : Sound s) (due : Due t n s)
    (asleep : s.engine = .wait) :
    s.portSignal = true := by
  cases due with
  | reply other => rw [asleep] at other; cases other
  | line place attends =>
      refine sound.watchful (.inl asleep) ?_
      intro empty
      simp [undispatched, asleep, empty] at place

theorem stepsTo_le (engine : EnginePc Task) (k : Nat) : stepsTo engine k ≤ 3 * k + 5 := by
  cases engine <;> simp [stepsTo]

variable [DecidableEq Task] {s s' : State Task} {e : Event Task} {t : Task} {n : Nat}

theorem sound_step (sound : Sound s) (effect : Effect s e s') : Sound s' :=
  ⟨effect_owned sound.owned effect, effect_places sound.owned sound.places effect,
    effect_watchful sound.owned sound.watchful effect⟩

theorem due_counted (sound : Sound s) (calm : Calm s) (due : Due t n s) (effect : Effect s e s')
    (engine : e.ofEngine = true) : Delivered s' t ∨ ∃ m, n = m + 1 ∧ Due t m s' := by
  have line := line_kept sound.owned sound.places effect
  cases effect with
  | left pc signalled =>
      rw [calm pc] at signalled
      cases signalled
  | roused pc =>
      cases due with
      | reply other => rw [pc] at other; cases other
      | @line _ k place attends =>
          refine .inr ⟨3 * k + 3, by rw [pc]; rfl, due_line ?_ trivial rfl⟩
          rwa [line rfl]
  | drained pc empty =>
      cases due with
      | reply other => rw [pc] at other; cases other
      | @line _ k place attends =>
          simp [undispatched, pc, empty] at place
  | taken pc head =>
      cases due with
      | reply other => rw [pc] at other; cases other
      | @line _ k place attends =>
          refine .inr ⟨3 * k + 2, by rw [pc]; rfl, due_line ?_ trivial rfl⟩
          rwa [line rfl]
  | @dispatched msg core reply pc ran =>
      cases due with
      | reply other => rw [pc] at other; cases other
      | @line _ k place attends =>
          rw [undispatched, pc] at place
          cases k with
          | zero =>
              obtain rfl : msg = t := by simpa using place
              exact .inr ⟨1, by rw [pc]; rfl, .reply rfl⟩
          | succ k =>
              refine .inr ⟨3 * k + 4, ?_, due_line ?_ trivial rfl⟩
              · rw [pc]
                simp only [stepsTo]
                omega
              · simpa [undispatched, State.write] using place
  | @replied msg port pc address =>
      cases due with
      | reply mine =>
          obtain rfl : msg = t := by simpa [pc] using mine
          refine .inl ?_
          obtain ⟨work, reply, waits, empty⟩ :=
            sound.places.held msg (by simp [onEngine, replying, pc])
          have known : (s.client msg).reply = some reply := by rw [waits]; rfl
          obtain rfl : port = reply := by
            rw [sound.places.addressed msg reply known] at address
            exact (Option.some.inj address).symm
          exact ⟨port, known, by simp [State.post, empty]⟩
      | @line _ k place attends =>
          refine .inr ⟨3 * k + 3, by rw [pc]; rfl, due_line ?_ trivial rfl⟩
          rwa [line rfl]
  | @unaddressed msg pc address =>
      obtain ⟨work, port, waits, -⟩ := sound.places.held msg (by simp [onEngine, replying, pc])
      rw [sound.places.addressed msg port (by rw [waits]; rfl)] at address
      cases address
  | tested pc =>
      cases due with
      | reply other => rw [pc] at other; cases other
      | @line _ k place attends =>
          have stays : s.core.shutdown = false := by simpa [Attends, pc] using attends
          have next : (if s.core.shutdown then EnginePc.freePort else EnginePc.wait) =
              (.wait : EnginePc Task) := by rw [stays]; rfl
          refine .inr ⟨3 * k + 4, by rw [pc]; rfl, due_line (k := k) ?_ ?_ ?_⟩
          · rwa [line rfl]
          · simp [Attends, next]
          · simp [next, stepsTo]
  | freed pc =>
      cases due with
      | reply other => rw [pc] at other; cases other
      | line place attends => simp [Attends, pc] at attends
  | _ => cases engine

theorem due_kept (sound : Sound s) (due : Due t n s) (effect : Effect s e s')
    (client : e.ofEngine = false) : Due t n s' := by
  have line := line_kept sound.owned sound.places effect
  cases effect with
  | rejected | alreadyDown => exact due
  | @put u work engine reply pc =>
      have aim : engine = requestPort := sound.owned.aimed u engine (by rw [pc]; rfl)
      subst aim
      have grown : undispatched ((s.post requestPort u).goto u (.waitPort work reply)) =
          undispatched s ++ [u] := undispatched_post rfl rfl
      cases due with
      | reply mine => exact .reply mine
      | @line _ k place attends =>
          obtain ⟨inside, -⟩ := List.getElem?_eq_some_iff.mp place
          refine due_line ?_ attends rfl
          rw [grown, List.getElem?_append_left inside]
          exact place
  | began | located | unreachable | equipped | unequipped | woken | got | gotStop | unpacked
  | stopAsked | stopSignalled | sawStopped | broken =>
      cases due with
      | reply mine => exact .reply mine
      | @line _ k place attends =>
          refine due_line ?_ attends rfl
          rwa [line rfl]
  | _ => cases client

/-- A request with `k` others ahead of it gets its reply within `3 * k + 5` steps of the
engine, whatever the clients do in between; and as long as it has not, the engine can take
a step. The engine must not be about to leave, and no break signal may reach its Wait. -/
theorem requests_served_in_turn (core : Engine) (reachable : Reachable core)
    {past history : List (Move (State Task) (Event Task))} {s now : State Task}
    (before : Trace Steps (boot core) past s) (after : Trace Steps s history now)
    {t : Task} {k : Nat} (place : (undispatched s)[k]? = some t) (attends : Attends s)
    (calm : ∀ state ∈ visited s history, Calm state) :
    (∃ state ∈ visited s history, Delivered state t) ∨
      (history.countP (fun move => move.label.ofEngine) < 3 * k + 5 ∧
        ∃ e next, e.ofEngine = true ∧ Steps now e next) := by
  have inv := (run_inv before).1
  have sound : Sound s := ⟨inv.owned, inv.places, inv.watchful⟩
  have base : (Sound s ∧ Calm s) ∧ Due t (stepsTo s.engine k) s :=
    ⟨⟨sound, calm s List.mem_cons_self⟩, .line place attends⟩
  have run : (∃ state ∈ visited s history, Delivered state t) ∨
      ∃ m, ((Sound now ∧ Calm now) ∧ Due t m now) ∧
        m + history.countP (fun move => move.label.ofEngine) = stepsTo s.engine k := by
    refine countdown (fun n state => (Sound state ∧ Calm state) ∧ Due t n state)
      (fun state => Delivered state t) Calm Event.ofEngine ?_ ?_ base after calm
    · rintro n before label after ⟨⟨sound, calm⟩, due⟩ calmly taken engine
      have effect := effect_of_step taken
      rcases due_counted sound calm due effect engine with delivered | ⟨m, less, rest⟩
      · exact .inl delivered
      · exact .inr ⟨m, less, ⟨sound_step sound effect, calmly⟩, rest⟩
    · rintro n before label after ⟨⟨sound, calm⟩, due⟩ calmly taken client
      have effect := effect_of_step taken
      exact ⟨⟨sound_step sound effect, calmly⟩, due_kept sound due effect client⟩
  rcases run with reached | ⟨m, ⟨⟨soundly, -⟩, due⟩, sum⟩
  · exact .inl reached
  · have positive := due_positive due
    have bound := stepsTo_le s.engine k
    refine .inr ⟨by omega, ?_⟩
    refine engine_never_stuck core reachable _ now (trace_join before after) (due_running due) ?_
    intro asleep
    exact .inr (due_signalled soundly due asleep)

/-- The second of two requests, once it is put: eight steps of the engine are enough. -/
theorem second_request_served :
    ∃ (history : List (Move (State Bool) (Event Bool))) (s now : State Bool),
      (undispatched s)[1]? = some true ∧ Trace Steps s history now ∧
      history.countP (fun move => move.label.ofEngine) = 8 ∧
      ∃ state ∈ visited s history, Delivered state true := by
  have first : ((follow step [] (boot initial) (twoCalls.take 10)).map
      fun (out : List (Move (State Bool) (Event Bool)) × State Bool) =>
        decide (out.2.engine = .dispatch false ∧ (undispatched out.2)[1]? = some true ∧
          ((follow step [] out.2 (twoCalls.drop 10 ++ [.engineTest, .engineWait])).map
            fun (next : List (Move (State Bool) (Event Bool)) × State Bool) =>
              decide (next.1.countP (fun move => move.label.ofEngine) = 8 ∧
                ∀ state ∈ visited out.2 next.1, state.engine = .wait → state.ctrlC = false)) =
            some true)) = some true := by
    decide +kernel
  obtain ⟨⟨past, s⟩, followed, checks⟩ := Option.map_eq_some_iff.mp first
  obtain ⟨busy, place, second⟩ := of_decide_eq_true checks
  obtain ⟨⟨history, now⟩, continued, more⟩ := Option.map_eq_some_iff.mp second
  obtain ⟨count, calm⟩ := of_decide_eq_true more
  have before : Trace Steps (boot initial : State Bool) past s := follow_trace .nil followed
  have after : Trace Steps s history now := follow_trace .nil continued
  have attends : Attends s := by
    rw [Attends, busy]
    trivial
  refine ⟨history, s, now, place, after, count, ?_⟩
  rcases requests_served_in_turn initial ⟨[], .nil⟩ before after place attends calm with
    delivered | ⟨few, -⟩
  · exact delivered
  · rw [show history.countP (fun move => move.label.ofEngine) = 8 from count] at few
    exact absurd few (by decide)

end Netstack.Rpc
