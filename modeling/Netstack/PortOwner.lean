import Netstack.Client
import Netstack.FdBounds

/-!
Who listens on a port. `bind` asks `port_in_use`, which looks at listening and
connected sockets only, and `listen` does not ask again, so two sockets can bind
one port before either listens. The listeners of a run have different ports
exactly when no listen finds its port already listened on.
-/

namespace Netstack.FdTable

open Ipc Client Transition

def PortsExclusive (t : Table) : Prop :=
  ∀ a b, InTable a → InTable b → a ≠ b → (t a).kind = .listen → (t b).kind = .listen →
    (t a).localPort ≠ (t b).localPort

/-- A listen that will succeed. -/
structure Listening (t : Table) (r : NetstackReq) : Prop where
  op : r.kind = .listen
  valid : IsOpen t r.u.listen.sock
  kind : (t r.u.listen.sock).kind = .unbound
  port : (t r.u.listen.sock).localPort ≠ 0

def ListensAlone (t : Table) (r : NetstackReq) : Prop :=
  Listening t r → findListener t (t r.u.listen.sock).localPort = .ok (-1)

theorem findListener_none_iff (t : Table) (port : UInt16) :
    findListener t port = .ok (-1) ↔ NoHit t (isListener port) := by
  unfold findListener
  rcases firstFd_cases t (isListener port) with ⟨scanned, none⟩ | ⟨fd, scanned, first⟩
  · simp [scanned, none]
  · have found := first.2.1
    have nonneg := firstHit_nonneg first
    constructor
    · intro missed
      rw [scanned, Except.ok.injEq] at missed
      omega
    · intro none
      rw [none fd first.1] at found
      contradiction

-- Exclusivity survives a step that starts no listener and moves no port of one.
theorem exclusive_mono {t t' : Table} (exclusive : PortsExclusive t)
    (kept : ∀ fd, (t' fd).kind = .listen →
      (t fd).kind = .listen ∧ (t fd).localPort = (t' fd).localPort) : PortsExclusive t' := by
  intro a b insideA insideB apart listenA listenB same
  obtain ⟨oldA, portA⟩ := kept a listenA
  obtain ⟨oldB, portB⟩ := kept b listenB
  exact exclusive a b insideA insideB apart oldA oldB (portA.trans (same.trans portB.symm))

theorem exclusive_update {t : Table} (exclusive : PortsExclusive t) {fd : Int} {e : FdEntry}
    (kept : e.kind = .listen → (t fd).kind = .listen ∧ (t fd).localPort = e.localPort) :
    PortsExclusive (Function.update t fd e) := by
  apply exclusive_mono exclusive
  intro q listen
  by_cases here : q = fd
  · subst q
    rw [Function.update_self] at listen ⊢
    exact kept listen
  · rw [Function.update_of_ne here] at listen ⊢
    exact ⟨listen, rfl⟩

theorem listening_exclusive_iff {t : Table} (exclusive : PortsExclusive t) {fd : Int}
    (inside : InTable fd) (kind : (t fd).kind = .unbound) :
    PortsExclusive (Function.update t fd (listening (t fd))) ↔
      NoHit t (isListener (t fd).localPort) := by
  constructor
  · intro after other insideOther
    by_contra hit
    have listener : (t other).kind = .listen ∧ (t other).localPort = (t fd).localPort := by
      simpa [isListener] using hit
    have apart : other ≠ fd := by
      rintro rfl
      rw [kind] at listener
      exact absurd listener.1 (by decide)
    refine after other fd insideOther inside apart ?_ ?_ ?_
    · simpa [apart] using listener.1
    · simp [listening]
    · simpa [apart, listening] using listener.2
  · intro none a b insideA insideB apart listenA listenB
    have clear : ∀ other, InTable other → (t other).kind = .listen →
        (t other).localPort ≠ (t fd).localPort := by
      intro other insideOther listen same
      have missed := none other insideOther
      simp [isListener, listen, same] at missed
    by_cases isA : a = fd
    · subst a
      simp only [Function.update_self, Function.update_of_ne (Ne.symm apart)] at listenB ⊢
      exact (clear b insideB listenB).symm
    · by_cases isB : b = fd
      · subst b
        simp only [Function.update_self, Function.update_of_ne isA] at listenA ⊢
        exact clear a insideA listenA
      · simp only [Function.update_of_ne isA, Function.update_of_ne isB] at listenA listenB ⊢
        exact exclusive a b insideA insideB apart listenA listenB

theorem refused_not_listening {t : Table} {r : NetstackReq} {code : Int}
    (why : Refusal t r code) : ¬ Listening t r := by
  rintro ⟨op, valid, kind, port⟩
  cases why with
  | listenBad _ bad => exact bad valid
  | listenKind _ _ unfit => exact unfit.elim (fun other => other kind) port
  | _ => simp_all

theorem outcome_exclusive_iff {t t' : Table} {r reply : NetstackReq}
    (exclusive : PortsExclusive t) (outcome : Outcome t r t' reply) :
    PortsExclusive t' ↔ ListensAlone t r := by
  have other (op : r.kind ≠ .listen) (kept : PortsExclusive t') :
      PortsExclusive t' ↔ ListensAlone t r :=
    iff_of_true kept fun starts => absurd starts.op op
  cases outcome with
  | refused why err =>
      exact iff_of_true exclusive fun starts => absurd starts (refused_not_listening why)
  | passive op ok => exact other (by rcases op with op | op <;> simp [op]) exclusive
  | opened op first =>
      exact other (by simp [op]) (exclusive_update exclusive fun listen => by
        simp [socketEntry] at listen)
  | closed op valid =>
      refine other (by simp [op]) (exclusive_update ?_ fun listen => by
        simp [blankEntry, zeroEntry] at listen)
      unfold detach
      dsimp only
      split
      · exact exclusive_update exclusive fun listen => ⟨listen, rfl⟩
      · exact exclusive
  | bound op valid kind unused =>
      refine other (by simp [op]) (exclusive_update exclusive fun listen => ?_)
      simp [kind] at listen
  | listening op valid kind port =>
      rw [listening_exclusive_iff exclusive valid.1 kind, ← findListener_none_iff]
      exact ⟨fun none _ => none, fun alone => alone ⟨op, valid, kind, port⟩⟩
  | @queued lfd op valid kind route room =>
      refine other (by simp [op]) (exclusive_mono exclusive ?_)
      intro q listen
      by_cases isListener : q = lfd
      · subst q
        exact ⟨(listener_kind route).1, by simp [queued, pushBacklog]⟩
      · by_cases isClient : q = r.u.connect.sock
        · subst q
          simp [queued, isListener, connecting] at listen
        · simp only [queued, Function.update_of_ne isListener,
            Function.update_of_ne isClient] at listen ⊢
          exact ⟨listen, trivial⟩
  | @paired newFd op valid kind waiting first =>
      refine other (by simp [op]) (exclusive_mono exclusive ?_)
      intro q listen
      rw [paired_apply, minted_apply] at listen ⊢
      by_cases isNew : q = newFd
      · simp [isNew, acceptedEntry] at listen
      · by_cases isListener : q = r.u.accept.sock
        · subst q
          exact ⟨kind, by simp [isNew, popBacklog]⟩
        · simp only [isNew, isListener, if_false] at listen ⊢
          exact ⟨listen, trivial⟩
  | sent op valid kind peer lower upper room =>
      refine other (by simp [op]) (exclusive_update exclusive fun listen => ?_)
      rw [deposit_kind] at listen
      exact ⟨listen, (deposit_port ..).symm⟩
  | ended op valid kind empty peer => exact other (by simp [op]) exclusive
  | received op valid kind some_ =>
      refine other (by simp [op]) (exclusive_update exclusive fun listen => ?_)
      rw [withdraw_kind, kind] at listen
      contradiction

theorem initial_exclusive : PortsExclusive initial.table := by
  intro a b _ _ _ listen
  cases listen

/-- A run has one listener a port in every state it visits exactly when each
of its listens that succeeds finds no listener on its port. -/
theorem ports_exclusive_exactly_when_listens_alone (history : History) (s : Engine)
    (run : Run history s) :
    (∀ state ∈ visited initial history, PortsExclusive state.table) ↔
      ∀ move ∈ history, ListensAlone move.before.table move.label.req := by
  refine guarded_exact (fun s x => ListensAlone s.table x.req) (fun s => Bounded s.table)
    (fun s => PortsExclusive s.table) run_bounded initial_exclusive ?_ run
  intro before x after bounded exclusive served
  exact outcome_exclusive_iff exclusive (outcome_of_dispatch bounded served)

/-- Two servers on two ports. -/
def separateListens : List NetstackReq :=
  [Call.socket 2 1 0, .socket 2 1 0, .bind 3 80, .bind 4 81, .listen 3 4, .listen 4 4].map
    Call.request

theorem separate_listens_are_exclusive :
    Run (historyOf initial separateListens) (stateAfter initial separateListens) ∧
      ∀ state ∈ visited initial (historyOf initial separateListens),
        PortsExclusive state.table := by
  have run := run_from_initial separateListens
  refine ⟨run, ?_⟩
  apply (ports_exclusive_exactly_when_listens_alone _ _ run).mpr
  have alone : ∀ move ∈ historyOf initial separateListens, move.label.req.kind = .listen →
      (findListener move.before.table
        (move.before.table move.label.req.u.listen.sock).localPort).toOption = some (-1) := by
    decide +kernel
  intro move member starts
  have found := alone move member starts.op
  cases scanned : findListener move.before.table
      (move.before.table move.label.req.u.listen.sock).localPort with
  | error fault => simp [scanned, Except.toOption] at found
  | ok fd => simpa [scanned, Except.toOption] using found

/-- Both sockets bind port 80 before either listens. -/
def sharedBind : List NetstackReq :=
  [Call.socket 2 1 0, .socket 2 1 0, .bind 3 80, .bind 4 80, .listen 3 4, .listen 4 4].map
    Call.request

theorem shared_bind_breaks_exclusivity :
    Reachable (stateAfter initial sharedBind) ∧
      ¬ PortsExclusive (stateAfter initial sharedBind).table := by
  refine ⟨⟨_, run_from_initial sharedBind⟩, ?_⟩
  intro exclusive
  exact exclusive 3 4 (by decide) (by decide) (by decide) (by decide +kernel) (by decide +kernel)
    (by decide +kernel)

end Netstack.FdTable
