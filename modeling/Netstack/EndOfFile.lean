import Netstack.Backlog
import Netstack.RxQueue

/-!
When end of file is final. A receive reports it for an empty queue and a peer
that is missing, and `peer_fd = -1` is also what a client waiting in a backlog
has, so an accept may still revive it. End of file is final when it is reported
only to a settled socket: one that no backlog holds and no connected socket
names, so that nothing can link it or send to it again.
-/

namespace Netstack.FdTable

open Ipc Client Transition

/-- A receive on `fd` that asks for at least one byte. -/
structure Receive (r : NetstackReq) (fd : Int) : Prop where
  op : r.kind = .recv
  sock : r.u.recv.sock = fd
  wants : 0 < r.u.recv.lenIn

def RepliesEof (reply : NetstackReq) : Prop := reply.ok ∧ reply.u.recv.lenOut = 0

instance (reply : NetstackReq) : Decidable (RepliesEof reply) := inferInstanceAs (Decidable (_ ∧ _))

/-- The receive takes the end-of-file branch. -/
structure ReadsEnd (t : Table) (r : NetstackReq) (fd : Int) : Prop where
  receive : Receive r fd
  valid : IsOpen t fd
  kind : (t fd).kind = .connected
  empty : live (t fd) = 0
  peer : ¬ IsOpen t (t fd).peerFd

def Unnamed (t : Table) (fd : Int) : Prop :=
  ∀ q, IsOpen t q → (t q).kind = .connected → (t q).peerFd ≠ fd

structure Settled (t : Table) (fd : Int) : Prop where
  peer : (t fd).peerFd < 0
  idle : ¬ Pending t fd
  unnamed : Unnamed t fd

def EndsSettled (t : Table) (r : NetstackReq) : Prop := ∀ fd, ReadsEnd t r fd → Settled t fd

structure Ended (t : Table) (fd : Int) : Prop where
  valid : IsOpen t fd
  kind : (t fd).kind = .connected
  empty : live (t fd) = 0
  settled : Settled t fd

/-- After end of file on an fd every later receive on it says the same, until
it is closed. -/
def EofFinal (history : History) : Prop :=
  ∀ past eof between again future fd, history = past ++ eof :: (between ++ again :: future) →
    Receive eof.label.req fd → RepliesEof eof.label.reply →
    (∀ move ∈ between, ¬ Closes move.label.req fd) →
    Receive again.label.req fd → RepliesEof again.label.reply

/-- A connection that waits in a backlog never looks closed. -/
def WaitingNeverEnds (history : History) : Prop :=
  ∀ move ∈ history, ∀ fd, Receive move.label.req fd → RepliesEof move.label.reply →
    ¬ Pending move.before.table fd

theorem eof_outcome {t t' : Table} {r reply : NetstackReq} {fd : Int} (receive : Receive r fd)
    (outcome : Outcome t r t' reply) (eof : RepliesEof reply) : ReadsEnd t r fd ∧ t' = t := by
  obtain ⟨op, rfl, wants⟩ := receive
  cases outcome with
  | refused why err => exact absurd eof.1 (refused_not_ok why err)
  | ended _ valid kind empty peer => exact ⟨⟨⟨op, rfl, wants⟩, valid, kind, empty, peer⟩, rfl⟩
  | received _ valid kind some_ =>
      -- A receive that finds bytes and asks for some returns some.
      have length : readable (t r.u.recv.sock) r.u.recv.lenIn = 0 := eof.2
      simp only [readable, netstackMaxPayload] at length
      split_ifs at length <;> omega
  | passive other => simp_all
  | _ => simp_all

theorem readsEnd_outcome {t t' : Table} {r reply : NetstackReq} {fd : Int}
    (reads : ReadsEnd t r fd) (outcome : Outcome t r t' reply) : RepliesEof reply := by
  obtain ⟨⟨op, rfl, wants⟩, valid, kind, empty, peer⟩ := reads
  cases outcome with
  | refused why err =>
      cases why with
      | recvBad _ bad => exact absurd valid bad
      | recvKind _ _ other => exact absurd kind other
      | recvEmpty _ _ _ _ alive => exact absurd alive peer
      | _ => simp_all
  | ended => exact ⟨rfl, rfl⟩
  | received _ _ _ some_ => omega
  | passive other => simp_all
  | _ => simp_all

theorem ended_readsEnd {t : Table} {r : NetstackReq} {fd : Int} (ended : Ended t fd)
    (receive : Receive r fd) : ReadsEnd t r fd := by
  refine ⟨receive, ended.valid, ended.kind, ended.empty, ?_⟩
  intro alive
  have lower := ((inTable_iff _).mp alive.1).1
  have negative := ended.settled.peer
  omega

/-! The entries the next request may touch: an ended socket keeps its kind, its
peer and its empty queue, and no connected socket starts to name it. -/

theorem ended_of_unchanged {t t' : Table} {fd : Int} (ended : Ended t fd)
    (same : t' fd = t fd) (idle : ¬ Pending t' fd)
    (unnamed : Unnamed t' fd) : Ended t' fd := by
  refine ⟨⟨ended.valid.1, by rw [same]; exact ended.valid.2⟩, by rw [same]; exact ended.kind,
    by rw [same]; exact ended.empty, by rw [same]; exact ended.settled.peer, idle, unnamed⟩

theorem unnamed_update {t : Table} {fd : Int} (at_ : Int) {e : FdEntry} (unnamed : Unnamed t fd)
    (other : e.kind = .connected → e.peerFd ≠ fd) : Unnamed (Function.update t at_ e) fd := by
  intro q valid kind
  by_cases here : q = at_
  · subst q
    rw [Function.update_self] at kind ⊢
    exact other kind
  · rw [Function.update_of_ne here] at kind ⊢
    exact unnamed q ⟨valid.1, by rw [kind]; decide⟩ kind

theorem closed_ended {t : Table} {fd sock : Int} (ended : Ended t fd) (valid : IsOpen t sock)
    (apart : fd ≠ sock) (idle : ¬ Pending (closed t sock) fd) : Ended (closed t sock) fd := by
  have kept : closed t sock fd = t fd := by
    rw [closed, Function.update_of_ne apart]
    unfold detach
    dsimp only
    split
    · rename_i linked
      rw [Function.update_of_ne (Ne.symm (ended.settled.unnamed sock valid linked.1))]
    · rfl
  refine ended_of_unchanged ended kept idle ?_
  intro q open_ kind
  have notClosed : q ≠ sock := by
    rintro rfl
    simp [closed, blankEntry, zeroEntry] at kind
  rw [closed, Function.update_of_ne notClosed] at kind ⊢
  have old : (t q).kind = .connected := by rw [← detach_kind t sock q]; exact kind
  have named := ended.settled.unnamed q ⟨open_.1, by rw [old]; decide⟩ old
  have nonneg := inTable_nonneg ended.valid.1
  unfold detach
  dsimp only
  split
  · by_cases here : q = (t sock).peerFd
    · rw [here, Function.update_self]
      show (-1 : Int) ≠ fd
      omega
    · rw [Function.update_of_ne here]
      exact named
  · exact named

theorem paired_ended {t : Table} (bounded : Bounded t) {r : NetstackReq} {newFd fd : Int}
    (ended : Ended t fd) (valid : IsOpen t r.u.accept.sock)
    (kind : (t r.u.accept.sock).kind = .listen) (waiting : 0 < (t r.u.accept.sock).backlogCount)
    (first : FirstHit t isFree newFd) (idle : ¬ Pending (paired t r.u.accept.sock newFd) fd) :
    Ended (paired t r.u.accept.sock newFd) fd := by
  have notNew : fd ≠ newFd := by
    rintro rfl
    exact ended.valid.2 (firstFree_kind first)
  have notClient : fd ≠ nextClient (t r.u.accept.sock) := by
    intro same
    apply ended.settled.idle
    rw [same]
    exact nextClient_pending bounded valid kind waiting
  have notListener : fd ≠ r.u.accept.sock := kinds_apart ended.kind kind (by decide)
  have same : paired t r.u.accept.sock newFd fd = t fd := by
    rw [paired_apply, minted_apply]
    simp [notNew, notListener, notClient]
  refine ended_of_unchanged ended same idle ?_
  intro q open_ connected
  rw [paired_apply] at connected ⊢
  by_cases isClient : q = nextClient (t r.u.accept.sock)
  · simp only [isClient, if_true]
    exact Ne.symm notNew
  · simp only [isClient, if_false]
    by_cases isNew : q = newFd
    · rw [isNew, (minted_fresh ..).2]
      exact Ne.symm notClient
    · have old := minted_other t r.u.accept.sock isNew
      rw [old.2]
      have before : (t q).kind = .connected := old.1.symm.trans connected
      exact ended.settled.unnamed q ⟨open_.1, by rw [before]; decide⟩ before

theorem outcome_ended {t t' : Table} {r reply : NetstackReq} {fd : Int} (bounded : Bounded t)
    (ended : Ended t fd) (outcome : Outcome t r t' reply) (notClosed : ¬ Closes r fd) :
    Ended t' fd := by
  have idle : ¬ Pending t' fd := by
    intro after
    rcases outcome_pending bounded outcome after with before | ⟨op, sock⟩
    · exact ended.settled.idle before
    · -- Only an unbound socket connects, and the ended one is connected already.
      subst sock
      have connected := ended.kind
      cases outcome with
      | queued _ _ kind => rw [kind] at connected; contradiction
      | refused why err => exact ended.settled.idle after
      | passive other => simp_all
      | _ => simp_all
  have nonneg := inTable_nonneg ended.valid.1
  have unallocated : ∀ {newFd}, FirstHit t isFree newFd → fd ≠ newFd := by
    rintro newFd first rfl
    exact ended.valid.2 (firstFree_kind first)
  cases outcome with
  | refused why err => exact ended
  | passive op ok => exact ended
  | ended op valid kind empty peer => exact ended
  | opened op first =>
      refine ended_of_unchanged ended (Function.update_of_ne (unallocated first) ..) idle ?_
      refine unnamed_update _ ended.settled.unnamed ?_
      intro connected
      simp [socketEntry] at connected
  | closed op valid =>
      exact closed_ended ended valid (fun same => notClosed ⟨op, same.symm⟩) idle
  | bound op valid kind unused =>
      have apart := kinds_apart ended.kind kind (by decide)
      refine ended_of_unchanged ended (Function.update_of_ne apart ..) idle ?_
      exact unnamed_update _ ended.settled.unnamed fun connected => by simp [kind] at connected
  | listening op valid kind port =>
      have apart := kinds_apart ended.kind kind (by decide)
      refine ended_of_unchanged ended (Function.update_of_ne apart ..) idle ?_
      exact unnamed_update _ ended.settled.unnamed fun connected => by simp [listening] at connected
  | @queued lfd op valid kind route room =>
      have notListener : fd ≠ lfd := kinds_apart ended.kind (listener_kind route).1 (by decide)
      have notClient : fd ≠ r.u.connect.sock := kinds_apart ended.kind kind (by decide)
      have joined := unnamed_update r.u.connect.sock
        (e := connecting (t r.u.connect.sock) r.u.connect.port) ended.settled.unnamed
        fun _ => by simp only [connecting]; omega
      refine ended_of_unchanged ended ?_ idle (unnamed_update _ joined fun connected => ?_)
      · rw [queued, Function.update_of_ne notListener, Function.update_of_ne notClient]
      · have listen := (listener_kind route).1
        simp [pushBacklog, listen] at connected
  | paired op valid kind waiting first =>
      exact paired_ended bounded ended valid kind waiting first idle
  | sent op valid kind peer lower upper room =>
      have notPeer : fd ≠ (t r.u.send.sock).peerFd :=
        Ne.symm (ended.settled.unnamed r.u.send.sock valid kind)
      refine ended_of_unchanged ended (Function.update_of_ne notPeer ..) idle ?_
      refine unnamed_update _ ended.settled.unnamed fun connected => ?_
      rw [deposit_kind] at connected
      rw [deposit_peer]
      exact ended.settled.unnamed _ peer connected
  | received op valid kind some_ =>
      have apart : fd ≠ r.u.recv.sock := by
        rintro rfl
        have empty := ended.empty
        omega
      refine ended_of_unchanged ended (Function.update_of_ne apart ..) idle ?_
      refine unnamed_update _ ended.settled.unnamed fun _ => ?_
      rw [withdraw_peer]
      exact ended.settled.unnamed _ valid kind

theorem ended_at_eof {t t' : Table} {r reply : NetstackReq} {fd : Int}
    (settled : EndsSettled t r) (receive : Receive r fd) (outcome : Outcome t r t' reply)
    (eof : RepliesEof reply) : Ended t' fd := by
  obtain ⟨reads, same⟩ := eof_outcome receive outcome eof
  rw [same]
  exact ⟨reads.valid, reads.kind, reads.empty, settled fd reads⟩

theorem between_ended {between : History} {s s' : Engine} {fd : Int} (bounded : Bounded s.table)
    (ended : Ended s.table fd) (run : Trace Serves s between s')
    (notClosed : ∀ move ∈ between, ¬ Closes move.label.req fd) :
    Bounded s'.table ∧ Ended s'.table fd := by
  refine guarded_invariant (fun _ x => ¬ Closes x.req fd)
    (fun s => Bounded s.table ∧ Ended s.table fd) ⟨bounded, ended⟩ ?_ run notClosed
  rintro before x after ⟨inside, stays⟩ guard served
  have outcome := outcome_of_dispatch inside served
  exact ⟨outcome_bounded inside outcome, outcome_ended inside stays outcome guard⟩

/-- In a run that reports end of file to settled sockets only, every end of
file is final and no waiting connection sees one. -/
theorem end_of_file_final_when_settled (history : History) (s : Engine) (run : Run history s)
    (settled : ∀ move ∈ history, EndsSettled move.before.table move.label.req) :
    EofFinal history ∧ WaitingNeverEnds history := by
  constructor
  · rintro past eof between again future fd rfl receive ends notClosed receives
    obtain ⟨s₀, runPast, rest⟩ := trace_append _ run
    obtain ⟨begins, served, rest⟩ := trace_cons rest
    obtain ⟨s₁, runBetween, rest⟩ := trace_append _ rest
    obtain ⟨-, servedAgain, -⟩ := trace_cons rest
    have condition : EndsSettled s₀.table eof.label.req := begins ▸ settled eof (by simp)
    have outcome := run_outcome runPast served
    have ended := ended_at_eof condition receive outcome ends
    have bounded := outcome_bounded (run_bounded runPast) outcome
    obtain ⟨inside, still⟩ := between_ended bounded ended runBetween notClosed
    exact readsEnd_outcome (ended_readsEnd still receives) (outcome_of_dispatch inside servedAgain)
  · intro move member fd receive ends
    obtain ⟨⟨past, runPast⟩, served⟩ := trace_move run member
    obtain ⟨reads, -⟩ := eof_outcome receive (run_outcome runPast served) ends
    exact (settled move member fd reads).idle

/-- The accepted end closes, then the client receives twice. -/
def closedPeer : List NetstackReq :=
  [Call.socket 2 1 0, .bind 3 1234, .listen 3 4, .socket 2 1 0, .connect 4 1234, .accept 3,
    .close 5, .recv 4 16, .recv 4 16].map Call.request

theorem closed_peer_ends_finally :
    EofFinal (historyOf initial closedPeer) ∧ WaitingNeverEnds (historyOf initial closedPeer) ∧
      ∀ move ∈ (historyOf initial closedPeer).drop 7, RepliesEof move.label.reply := by
  have checked : ∀ move ∈ historyOf initial closedPeer, move.label.req.kind = .recv →
      (move.before.table move.label.req.u.recv.sock).peerFd < 0 ∧
        ∀ q ∈ tableFds,
          ((move.before.table q).kind = .connected →
            (move.before.table q).peerFd ≠ move.label.req.u.recv.sock) ∧
          ((move.before.table q).kind = .listen →
            move.label.req.u.recv.sock ∉ pending (move.before.table q)) := by
    decide +kernel
  have settled : ∀ move ∈ historyOf initial closedPeer,
      EndsSettled move.before.table move.label.req := by
    rintro move member fd ⟨⟨op, rfl, -⟩, -⟩
    obtain ⟨peer, others⟩ := checked move member op
    refine ⟨peer, ?_, ?_⟩
    · rintro ⟨lfd, ⟨inside, listen⟩, waits⟩
      exact (others lfd (mem_tableFds.mpr inside)).2 listen waits
    · intro q valid connected
      exact (others q (mem_tableFds.mpr valid.1)).1 connected
  obtain ⟨final, waiting⟩ :=
    end_of_file_final_when_settled _ _ (run_from_initial closedPeer) settled
  exact ⟨final, waiting, by decide +kernel⟩

/-- The client receives before it is accepted: end of file, and then none. -/
def earlyReceive : List NetstackReq :=
  [Call.socket 2 1 0, .bind 3 1234, .listen 3 4, .socket 2 1 0, .connect 4 1234, .recv 4 16,
    .accept 3, .recv 4 16].map Call.request

theorem early_receive_breaks_finality :
    Run (historyOf initial earlyReceive) (stateAfter initial earlyReceive) ∧
      ¬ EofFinal (historyOf initial earlyReceive) := by
  refine ⟨run_from_initial earlyReceive, ?_⟩
  intro final
  let early := earlyReceive.take 5
  let eof := serve (stateAfter initial early) (Call.recv 4 16).request
  let accepted := serve eof.after (Call.accept 3).request
  let again := serve accepted.after (Call.recv 4 16).request
  have split : historyOf initial earlyReceive =
      historyOf initial early ++ eof :: ([accepted] ++ again :: []) := rfl
  have answer := final _ eof [accepted] again [] 4 split
    ⟨by decide +kernel, by decide +kernel, by decide +kernel⟩
    ⟨by decide +kernel, by decide +kernel⟩
    (by
      intro move member closes
      rw [List.mem_singleton.mp member] at closes
      exact absurd closes.op (by decide +kernel))
    ⟨by decide +kernel, by decide +kernel, by decide +kernel⟩
  exact absurd answer.1 (by decide +kernel)

end Netstack.FdTable
