import Mathlib.Data.List.FinRange
import Mathlib.Tactic.Common
import Netstack.Lifecycle

/-!
Signals between the launcher and the engine. The bits for ready and stopped belong
to the task that called Start, and the engine signals that task; Stop waits in the
task that calls it and frees the bits there. The two agree exactly when a running
engine is stopped by the task that started it.
-/

namespace Netstack.Lifecycle

open Signals Transition

variable {Task Port : Type}

/-- What an onlooker knows: who started the engine that is up, which bits the calls
have allocated and not freed, and what the tasks held before that start. -/
structure Session (Task : Type) where
  starter : Option Task
  owned : List (Task × Fin 32)
  before : Task → Finset (Fin 32)

variable [DecidableEq Task]

def Session.record (session : Session Task) (move : Move (State Task Port) (Event Task Port)) :
    Session Task :=
  let out := call move.before move.label
  let owned := (settle session.owned out.acts).getD session.owned
  match move.label, out.returned with
  | .start t _ _ _ _, some 0 => ⟨some t, owned, move.before.sigAlloc⟩
  | .stop _ _, some 0 => ⟨none, owned, session.before⟩
  | _, _ => { session with owned := owned }

/-- Every wait of the call is for a signal that its own task gets, every free is of
a bit that its task has allocated and not freed, and a stop that returns or a start
that fails leaves the bits of all tasks as they were. -/
def Proper (session : Session Task) (move : Move (State Task Port) (Event Task Port)) : Prop :=
  let out := call move.before move.label
  (∀ t mask, .wait t mask ∈ out.acts → .signal t mask ∈ out.acts) ∧
    ∃ rest, settle session.owned out.acts = some rest ∧
      match move.label with
      | .start _ _ _ _ _ =>
          out.returned = some (-1) → move.before.engineTask = false →
            rest = session.owned ∧ move.after.sigAlloc = move.before.sigAlloc
      | .stop _ _ =>
          out.returned = some 0 → move.before.engineTask = true →
            rest = [] ∧ move.after.sigAlloc = session.before

/-- A stop of a running engine is called by the task that started it. -/
def Matched (session : Session Task) (move : Move (State Task Port) (Event Task Port)) : Prop :=
  match move.label with
  | .start _ _ _ _ _ => True
  | .stop t _ => ∀ starter ∈ session.starter, starter = t

structure Up (session : Session Task) (s : State Task Port) (task : Task) (r b : Fin 32) :
    Prop where
  starter : session.starter = some task
  launcher : s.launcherTask = some task
  ready : s.launcherReadyMask = sigMask r
  stopped : s.launcherStoppedMask = sigMask b
  port : s.requestPort.isSome = true
  owned : session.owned = [(task, b), (task, r)]
  books : Books session.before session.owned s.sigAlloc

structure Orderly (session : Session Task) (s : State Task Port) : Prop where
  up : s.engineTask = true → ∃ task r b, Up session s task r b
  down : s.engineTask = false → session.starter = none ∧ session.owned = []

section Start

variable {s : State Task Port}

/-- A start that fails frees what it allocated; the waits of a start are for the
signal that the engine sends its caller. -/
structure FailedStart (s : State Task Port) (out : Outcome Task Port) : Prop where
  returned : out.returned = some (-1)
  down : out.state.engineTask = false
  alloc : out.state.sigAlloc = run s.sigAlloc out.acts
  settled : ∀ owned, settle owned out.acts = some owned
  met : ∀ t mask, .wait t mask ∈ out.acts → .signal t mask ∈ out.acts

theorem settle_taken_freed (owned : List (Task × Fin 32)) (t : Task) (first second : Fin 32) :
    settle owned [.allocSignal t first, .allocSignal t second, .freeSignal t first,
      .freeSignal t second] = some owned := by
  by_cases same : first = second
  · subst same
    simp [settle]
  · simp [settle, same, Ne.symm same]

theorem start_cases (down : s.engineTask = false) (t : Task) (ready stopped : Option (Fin 32))
    (created : Bool) (port : Option Port) :
    FailedStart s (netstackEngineStart s t ready stopped created port) ∨
      ∃ r b p, netstackEngineStart s t ready stopped created port =
        ⟨{ (({ s with launcherTask := some t }.clear t (sigMask r)).clear t (sigMask b)).ran
            [.allocSignal t r, .allocSignal t b, .signal t (sigMask r), .wait t (sigMask r)] with
          launcherReadyMask := sigMask r, launcherStoppedMask := sigMask b, engineTask := true,
          engineReady := true, requestPort := some p },
        [.allocSignal t r, .allocSignal t b, .signal t (sigMask r), .wait t (sigMask r)],
        some 0⟩ := by
  rw [netstackEngineStart, if_neg (by simp [down])]
  cases ready with
  | none =>
      cases stopped with
      | none => exact .inl ⟨rfl, down, rfl, fun _ => rfl, by simp⟩
      | some b => exact .inl ⟨rfl, down, rfl, fun _ => by simp [settle], by simp⟩
  | some r =>
      cases stopped with
      | none => exact .inl ⟨rfl, down, rfl, fun _ => by simp [settle], by simp⟩
      | some b =>
          cases created with
          | false =>
              exact .inl ⟨rfl, down, rfl, fun owned => settle_taken_freed owned t r b, by simp⟩
          | true =>
              cases port with
              | none =>
                  refine .inl ⟨rfl, down, rfl, fun owned => ?_, by simp⟩
                  simpa [settle] using settle_taken_freed owned t r b
              | some p => exact .inr ⟨r, b, p, rfl⟩

end Start

section Stop

variable {s : State Task Port} {t launcher : Task} {r b : Fin 32} {reply : Option (Fin 32)}

omit [DecidableEq Task] in
theorem mem_freedBits {bit : Fin 32} :
    bit ∈ freedBits (sigMask r) (sigMask b) ↔ bit = r ∨ bit = b := by
  simp only [freedBits, List.mem_flatMap, List.mem_finRange, true_and, List.mem_append,
    sigMask_injective.eq_iff]
  constructor
  · rintro ⟨x, here | here⟩
    · split_ifs at here with same
      · exact .inl ((List.mem_singleton.mp here).trans same.symm)
      · cases here
    · split_ifs at here with same
      · exact .inr ((List.mem_singleton.mp here).trans same.symm)
      · cases here
  · rintro (rfl | rfl)
    · exact ⟨bit, .inl (by simp)⟩
    · exact ⟨bit, .inr (by simp)⟩

theorem freedBits_nodup (apart : r ≠ b) : (freedBits (sigMask r) (sigMask b)).Nodup := by
  rw [freedBits, List.nodup_flatMap]
  constructor
  · intro bit _
    by_cases first : r = bit
    · simp [first, sigMask_injective.eq_iff, first ▸ Ne.symm apart]
    · by_cases second : b = bit <;> simp [sigMask_injective.eq_iff, first, second]
  · refine (List.nodup_finRange 32).imp ?_
    intro left right different bit here there
    have same : ∀ x, bit ∈ ((if sigMask r = sigMask x then [x] else []) ++
        if sigMask b = sigMask x then [x] else []) → bit = x := by
      intro x
      by_cases first : sigMask r = sigMask x <;> by_cases second : sigMask b = sigMask x <;>
        simp [first, second]
    exact different ((same left here).symm.trans (same right there))

/-- How a stop ends the engine: with a break, or with a request over a reply port of
its own. The engine signals the launcher either way. -/
inductive Asks (t launcher : Task) (mask : UInt32) : List (Act Task) → Prop where
  | broken : Asks t launcher mask [.signal launcher mask]
  | messaged (q : Fin 32) : Asks t launcher mask
      [.allocSignal t q, .signal launcher mask, .freeSignal t q]

/-- A stop waits in its caller; if the caller is the launcher it returns and has
freed the bits of both masks. -/
structure StopOf (s : State Task Port) (t launcher : Task) (r b : Fin 32)
    (out : Outcome Task Port) : Prop where
  acts : ∃ asked rest, Asks t launcher (sigMask b) asked ∧
    out.acts = asked ++ .wait t (sigMask b) :: rest.map (.freeSignal t) ∧
      (t = launcher → rest = freedBits (sigMask r) (sigMask b))
  alloc : out.state.sigAlloc = run s.sigAlloc out.acts
  own : t = launcher → out.returned = some 0 ∧ out.state.engineTask = false

theorem or_and_absorb (signals mask : UInt32) : (signals ||| mask) &&& mask = mask := by
  apply UInt32.toBitVec_inj.mp
  ext i
  simp only [UInt32.toBitVec_and, UInt32.toBitVec_or, BitVec.getElem_and, BitVec.getElem_or]
  cases mask.toBitVec[i] <;> simp

/-- The engine has left, the launcher is signalled, and the bits are as the actions
of the request left them. -/
structure Asked (s : State Task Port) (t launcher : Task) (b : Fin 32)
    (asked : State Task Port × List (Act Task)) : Prop where
  asks : Asks t launcher (sigMask b) asked.2
  ready : asked.1.launcherReadyMask = s.launcherReadyMask
  stopped : asked.1.launcherStoppedMask = sigMask b
  alloc : asked.1.sigAlloc = s.sigAlloc
  arrived : asked.1.sigRecvd launcher &&& sigMask b = sigMask b

theorem ask_cases {session : Session Task} (up : Up session s launcher r b) :
    Asked s t launcher b (askEngine s t reply) := by
  obtain ⟨port, published⟩ := Option.isSome_iff_exists.mp up.port
  cases reply with
  | none =>
      simp only [askEngine, engineProcessEnd, published, up.launcher, up.stopped]
      refine ⟨.broken, rfl, rfl, rfl, ?_⟩
      simp [State.signal, or_and_absorb]
  | some q =>
      simp only [askEngine, engineProcessEnd, published, State.clear, up.launcher, up.stopped]
      refine ⟨.messaged q, rfl, rfl, rfl, ?_⟩
      simp [State.signal, or_and_absorb]

theorem stop_cases {session : Session Task} (running : s.engineTask = true)
    (up : Up session s launcher r b) : StopOf s t launcher r b (netstackEngineStop s t reply) := by
  have asked : Asked s t launcher b (askEngine s t reply) := ask_cases up
  rw [netstackEngineStop, if_pos running]
  generalize askEngine s t reply = pair at asked
  obtain ⟨s', acts⟩ := pair
  rw [awaitStopped, asked.stopped]
  split_ifs with silent
  · have other : t ≠ launcher := by
      rintro rfl
      rw [asked.arrived] at silent
      exact sigMask_ne_zero b silent
    refine ⟨⟨acts, [], asked.asks, rfl, fun same => absurd same other⟩, ?_,
      fun same => absurd same other⟩
    rw [← asked.alloc]
    rfl
  · refine ⟨⟨acts, _, asked.asks, rfl, fun _ => ?_⟩, ?_, fun _ => ⟨rfl, rfl⟩⟩
    · rw [asked.ready, up.ready]
    · rw [← asked.alloc]
      rfl

theorem Asks.settled {mask : UInt32} {acts : List (Act Task)} (asks : Asks t launcher mask acts)
    (owned : List (Task × Fin 32)) : settle owned acts = some owned := by
  cases asks with
  | broken => rfl
  | messaged q => simp [settle]

theorem StopOf.signalled {out : Outcome Task Port} (stop : StopOf s t launcher r b out) {u : Task}
    {mask : UInt32} (sent : .signal u mask ∈ out.acts) : u = launcher := by
  obtain ⟨asked, rest, asks, acts, -⟩ := stop.acts
  rw [acts] at sent
  cases asks <;> simp_all

theorem StopOf.waits {out : Outcome Task Port} (stop : StopOf s t launcher r b out) :
    .wait t (sigMask b) ∈ out.acts := by
  obtain ⟨asked, rest, -, acts, -⟩ := stop.acts
  rw [acts]
  simp

/-- A stop by the launcher waits for the signal the engine sends, and its frees
empty the books. -/
theorem StopOf.settled {session : Session Task} {out : Outcome Task Port}
    (stop : StopOf s launcher launcher r b out) (up : Up session s launcher r b) :
    (∀ u mask, .wait u mask ∈ out.acts → .signal u mask ∈ out.acts) ∧
      settle session.owned out.acts = some [] := by
  obtain ⟨asked, rest, asks, acts, own⟩ := stop.acts
  obtain rfl := own rfl
  have distinct := up.books.nodup
  rw [up.owned] at distinct
  have apart : r ≠ b := by
    rintro rfl
    simp at distinct
  rw [acts]
  constructor
  · intro u mask waits
    cases asks <;> simp_all
  · have mine : ∀ bit ∈ freedBits (sigMask r) (sigMask b),
        (launcher, bit) ∈ [(launcher, b), (launcher, r)] := by
      intro bit member
      rcases mem_freedBits.mp member with rfl | rfl <;> simp
    obtain ⟨left, settled, members⟩ := settle_frees distinct launcher (freedBits_nodup apart) mine
    have none_ : left = [] := by
      refine List.eq_nil_iff_forall_not_mem.mpr ?_
      intro entry member
      obtain ⟨inside, kept⟩ := (members entry).mp member
      simp only [List.mem_cons, List.not_mem_nil, or_false] at inside
      rcases inside with rfl | rfl
      · exact kept ⟨rfl, mem_freedBits.mpr (.inr rfl)⟩
      · exact kept ⟨rfl, mem_freedBits.mpr (.inl rfl)⟩
    rw [none_] at settled
    rw [settle_append, asks.settled, up.owned]
    exact settled

end Stop

section Steps

variable {session : Session Task} {s s' : State Task Port} {e : Event Task Port}

theorem run_balanced {held : Task → Finset (Fin 32)} {acts : List (Act Task)}
    (unheld : fresh held acts = true) (settled : settle [] acts = some []) : run held acts = held :=
  ((books_start held).settled unheld settled).balanced

theorem start_proper {t : Task} {ready stopped : Option (Fin 32)} {created : Bool}
    {port : Option Port} (taken : Steps s (.start t ready stopped created port) s') :
    Proper session ⟨s, .start t ready stopped created port, s'⟩ := by
  obtain ⟨-, unheld, rfl⟩ := steps_cases taken
  cases up : s.engineTask with
  | true =>
      have same : call s (.start t ready stopped created port) = ⟨s, [], some (-1)⟩ := by
        rw [call, netstackEngineStart, if_pos up]
      refine ⟨by simp [same], session.owned, by rw [same]; rfl, ?_⟩
      intro _ down
      rw [up] at down
      cases down
  | false =>
      rcases start_cases up t ready stopped created port with failed | ⟨r, b, p, started⟩
      · refine ⟨failed.met, session.owned, failed.settled _, ?_⟩
        intro _ _
        exact ⟨rfl, failed.alloc.trans (run_balanced unheld (failed.settled []))⟩
      · have same : call s (.start t ready stopped created port) = _ := started
        refine ⟨?_, (t, b) :: (t, r) :: session.owned, ?_, ?_⟩
        · rw [same]
          simp
        · rw [same]
          rfl
        · rw [same]
          nofun

theorem step_proper_iff (orderly : Orderly session s) (taken : Steps s e s') :
    Proper session ⟨s, e, s'⟩ ↔ Matched session ⟨s, e, s'⟩ := by
  cases e with
  | start t ready stopped created port => exact iff_of_true (start_proper taken) trivial
  | stop t reply =>
      obtain ⟨-, unheld, rfl⟩ := steps_cases taken
      cases running : s.engineTask with
      | false =>
          obtain ⟨unstarted, -⟩ := orderly.down running
          have same : call s (.stop t reply) = ⟨s, [], some 0⟩ := by
            rw [call, netstackEngineStop, if_neg (by simp [running])]
          refine iff_of_true ⟨by simp [same], session.owned, by rw [same]; rfl, ?_⟩ ?_
          · intro _ up
            rw [running] at up
            cases up
          · intro starter known
            rw [unstarted] at known
            cases known
      | true =>
          obtain ⟨launcher, r, b, up⟩ := orderly.up running
          have stop : StopOf s t launcher r b (call s (.stop t reply)) := stop_cases running up
          constructor
          · rintro ⟨met, -⟩ starter known
            rw [up.starter] at known
            cases known
            exact (stop.signalled (met t _ stop.waits)).symm
          · intro matched
            obtain rfl := matched launcher up.starter
            obtain ⟨met, settled⟩ := stop.settled up
            refine ⟨met, [], settled, ?_⟩
            intro _ _
            refine ⟨rfl, ?_⟩
            have books := up.books.settled unheld settled
            rw [← stop.alloc] at books
            exact books.balanced

theorem step_orderly (orderly : Orderly session s) (taken : Steps s e s')
    (matched : Matched session ⟨s, e, s'⟩) : Orderly (session.record ⟨s, e, s'⟩) s' := by
  obtain ⟨-, unheld, rfl⟩ := steps_cases taken
  cases e with
  | start t ready stopped created port =>
      cases running : s.engineTask with
      | true =>
          have same : call s (.start t ready stopped created port) = ⟨s, [], some (-1)⟩ := by
            rw [call, netstackEngineStart, if_pos running]
          simp only [Session.record, same, settle, Option.getD_some]
          exact orderly
      | false =>
          rcases start_cases running t ready stopped created port with failed | ⟨r, b, p, started⟩
          · have kept : ∀ after, session.record ⟨s, .start t ready stopped created port, after⟩ =
                session := by
              intro after
              simp only [Session.record, call, failed.returned, failed.settled, Option.getD_some]
            rw [kept]
            exact ⟨fun up => absurd up (by simp [call, failed.down]), fun _ => orderly.down running⟩
          · have same : call s (.start t ready stopped created port) = _ := started
            obtain ⟨-, none_⟩ := orderly.down running
            rw [same] at unheld
            have books := (books_start s.sigAlloc).settled unheld rfl
            simp only [Session.record, same, none_]
            exact ⟨fun _ => ⟨t, r, b, rfl, rfl, rfl, rfl, rfl, rfl, books⟩, by simp⟩
  | stop t reply =>
      cases running : s.engineTask with
      | false =>
          obtain ⟨-, none_⟩ := orderly.down running
          have same : call s (.stop t reply) = ⟨s, [], some 0⟩ := by
            rw [call, netstackEngineStop, if_neg (by simp [running])]
          simp only [Session.record, same, settle, Option.getD_some]
          exact ⟨fun up => absurd up (by simp [running]), fun _ => ⟨rfl, none_⟩⟩
      | true =>
          obtain ⟨launcher, r, b, up⟩ := orderly.up running
          obtain rfl := matched launcher up.starter
          have stop : StopOf s launcher launcher r b (call s (.stop launcher reply)) :=
            stop_cases running up
          obtain ⟨returned, down⟩ := stop.own rfl
          obtain ⟨-, settled⟩ := stop.settled up
          simp only [Session.record, returned, settled, Option.getD_some]
          exact ⟨fun still => absurd still (by simp [down]), fun _ => ⟨rfl, rfl⟩⟩

end Steps

def Session.first (held : Task → Finset (Fin 32)) : Session Task := ⟨none, [], held⟩

/-- Along every history of starts and stops the signals and the bits agree exactly
when every stop of a running engine is called by the task that started it. -/
theorem signals_agree_exactly_when_matched (held : Task → Finset (Fin 32))
    {history : List (Move (State Task Port) (Event Task Port))} {now : State Task Port}
    (trace : Trace Steps (load held) history now) :
    Along Session.record Proper (Session.first held) history ↔
      Along Session.record Matched (Session.first held) history := by
  have initially : Orderly (Session.first held) (load held : State Task Port) :=
    ⟨nofun, fun _ => ⟨rfl, rfl⟩⟩
  exact observed_exact Orderly Matched initially
    (fun _ _ _ _ orderly taken matched => step_orderly orderly taken matched)
    (fun _ _ _ _ orderly taken => step_proper_iff orderly taken) trace

instance (session : Session Task) :
    (move : Move (State Task Port) (Event Task Port)) → Decidable (Matched session move)
  | ⟨_, .start _ _ _ _ _, _⟩ => isTrue trivial
  | ⟨_, .stop t _, _⟩ => inferInstanceAs (Decidable (∀ starter ∈ session.starter, starter = t))

def reserved : Bool → Finset (Fin 32) := fun _ => Finset.univ.filter (·.val < 16)

/-- One task starts and stops the engine while the other tries to start it, and
then the other does, after a start that found no port. -/
def twoSessions : List (Event Bool Unit) :=
  [.start true (some (signalBit 16)) (some (signalBit 31)) true (some ()),
    .start false (some (signalBit 20)) (some (signalBit 21)) true (some ()),
    .stop true (some (signalBit 18)),
    .start false (some (signalBit 17)) (some (signalBit 16)) true none,
    .start false (some (signalBit 17)) (some (signalBit 16)) true (some ()), .stop false none]

theorem two_sessions_agree :
    ∃ history now, Trace Steps (load reserved : State Bool Unit) history now ∧
      history.map Move.label = twoSessions ∧
      Along Session.record Proper (Session.first reserved) history := by
  have done : ((follow step [] (load reserved) twoSessions).map fun out =>
      (decide (Along Session.record Matched (Session.first reserved) out.1),
        out.1.map Move.label)) = some (true, twoSessions) := by
    decide +kernel
  obtain ⟨⟨history, now⟩, followed, checks⟩ := Option.map_eq_some_iff.mp done
  obtain ⟨matched, labels⟩ := Prod.ext_iff.mp checks
  have trace : Trace Steps (load reserved : State Bool Unit) history now :=
    follow_trace .nil followed
  have proper := (signals_agree_exactly_when_matched reserved trace).mpr (of_decide_eq_true matched)
  exact ⟨history, now, trace, labels, proper⟩

def strangerStops : List (Event Bool Unit) :=
  [.start true (some (signalBit 16)) (some (signalBit 17)) true (some ()),
    .stop false (some (signalBit 16))]

/-- The stranger waits for a signal that the engine sends to the launcher. -/
theorem stranger_waits_in_vain :
    ∃ history now, Trace Steps (load reserved : State Bool Unit) history now ∧
      (∃ move ∈ history, (call move.before move.label).returned = none ∧
        .wait false (sigMask (signalBit 17)) ∈ (call move.before move.label).acts ∧
        .signal true (sigMask (signalBit 17)) ∈ (call move.before move.label).acts) ∧
      ¬ Along Session.record Proper (Session.first reserved) history := by
  have done : ((follow step [] (load reserved) strangerStops).map fun out =>
      decide (∃ move ∈ out.1, (call move.before move.label).returned = none ∧
        .wait false (sigMask (signalBit 17)) ∈ (call move.before move.label).acts ∧
        .signal true (sigMask (signalBit 17)) ∈ (call move.before move.label).acts ∧
        .signal false (sigMask (signalBit 17)) ∉ (call move.before move.label).acts)) =
      some true := by
    decide +kernel
  obtain ⟨⟨history, now⟩, followed, checks⟩ := Option.map_eq_some_iff.mp done
  obtain ⟨move, member, stuck, waits, elsewhere, unsent⟩ := of_decide_eq_true checks
  refine ⟨history, now, follow_trace .nil followed, ⟨move, member, stuck, waits, elsewhere⟩, ?_⟩
  intro proper
  have met := forall_of_along (along_mono (fun _ _ here => here.1) proper) move member
  exact unsent (met false _ waits)

end Netstack.Lifecycle
