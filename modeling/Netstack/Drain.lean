import Netstack.Books
import Netstack.EndOfFile

/-!
The end of a connection that is left over. A close takes the peer number away
from the other end and leaves its queue. Receives on that end then hand out the
queue, each as much as it asks for, a payload holds and is there, and report the
end of the stream after that; sends on it are refused.
-/

namespace Netstack.FdTable

open Ipc Client Window Transition

/-- A connected socket whose peer has gone. -/
structure Severed (t : Table) (fd : Int) : Prop where
  valid : IsOpen t fd
  kind : (t fd).kind = .connected
  peer : (t fd).peerFd = -1

/-- Receives that ask for something, and any sends. -/
def OnEnd (fd : Int) (r : NetstackReq) : Prop :=
  Receive r fd ∨ (r.kind = .send ∧ r.u.send.sock = fd)

def receivedBytes (x : Exchange) : List UInt8 :=
  if x.req.kind = .recv then returnedBytes x else []

def delivered (history : History) : List UInt8 :=
  history.flatMap fun move => receivedBytes move.label

def receives (history : History) : Nat :=
  history.countP fun move => move.label.req.kind = .recv

/-- What a request on the left-over end is answered. -/
structure DrainStep (fd : Int) (move : Move Engine Exchange) : Prop where
  recv : move.label.req.kind = .recv → move.label.reply.err = netstackOk ∧
    move.label.reply.u.recv.lenOut =
      min (min move.label.req.u.recv.lenIn 1024) (rxQueue (move.before.table fd)).length ∧
    returnedBytes move.label =
      (rxQueue (move.before.table fd)).take move.label.reply.u.recv.lenOut.toNat
  send : move.label.req.kind = .send →
    move.label.reply.err = netstackEnotconn ∧ move.after = move.before

theorem severed_peer {t : Table} {fd : Int} (severed : Severed t fd) :
    ¬ IsOpen t (t fd).peerFd := by
  intro alive
  have lower := inTable_nonneg alive.1
  rw [severed.peer] at lower
  exact absurd lower (by decide)

theorem readable_wanted {e : FdEntry} (bounded : EntryBounded e) {len : Int} (wants : 0 < len) :
    readable e len = min (min len 1024) ((rxQueue e).length : Int) := by
  have range := live_range bounded
  rw [rxQueue_length]
  simp only [readable, netstackMaxPayload]
  split_ifs <;> omega

section Steps

variable {s s' : Engine} {x : Exchange} {fd : Int}

theorem severed_send (severed : Severed s.table fd) (op : x.req.kind = .send)
    (sock : x.req.u.send.sock = fd) (served : Serves s x s') :
    x.reply.err = netstackEnotconn ∧ s' = s := by
  have alone : (s.table fd).kind ≠ .connected ∨ (s.table fd).peerFd < 0 := by
    rw [severed.peer]
    exact Or.inr (by decide)
  have refused : fdtableDispatchSend s.table x.req =
      .ok (s.table, { x.req with err := netstackEnotconn }) := by
    unfold fdtableDispatchSend
    simp only [sock, fdValid_true severed.valid, ok_bind, entryAt_ok severed.valid.1,
      Bool.not_true, Bool.false_eq_true, if_false, if_pos alone]
    rfl
  have ran : dispatchRequest s x.req = .ok (s', x.reply) := served
  simp only [dispatchRequest, op, refused] at ran
  obtain ⟨rfl, same⟩ := Prod.ext_iff.mp (Except.ok.inj ran)
  exact ⟨(congrArg NetstackReq.err same).symm, rfl⟩

/-- Either bytes are taken off the queue, or the queue is empty and stays so. -/
theorem severed_receive (bounded : Bounded s.table) (severed : Severed s.table fd)
    (receive : Receive x.req fd) (outcome : Outcome s.table x.req s'.table x.reply) :
    x.reply.err = netstackOk ∧
      x.reply.u.recv.lenOut =
        min (min x.req.u.recv.lenIn 1024) ((rxQueue (s.table fd)).length : Int) ∧
      returnedBytes x = (rxQueue (s.table fd)).take x.reply.u.recv.lenOut.toNat ∧
      rxQueue (s'.table fd) = (rxQueue (s.table fd)).drop x.reply.u.recv.lenOut.toNat ∧
      Severed s'.table fd := by
  have entry := bounded.entries fd
  by_cases empty : rxQueue (s.table fd) = []
  · have none : live (s.table fd) = 0 := by
      have length := rxQueue_length (s.table fd)
      have range := live_range entry
      rw [empty, List.length_nil] at length
      omega
    have eof := readsEnd_outcome
      ⟨receive, severed.valid, severed.kind, none, severed_peer severed⟩ outcome
    have same := (eof_outcome receive outcome eof).2
    obtain ⟨ok, zero⟩ := eof
    have wants := receive.wants
    rw [same, zero, empty]
    refine ⟨ok, ?_, ?_, rfl, severed⟩
    · simp only [List.length_nil]
      omega
    · simp [returnedBytes, zero]
  · obtain ⟨ok, lenOut, data, after⟩ := receivesFrom_outcome
      ⟨receive.op, receive.sock, severed.valid, severed.kind, empty⟩ outcome
    have fits := readable_range entry x.req.u.recv.lenIn
    rw [after, lenOut]
    refine ⟨ok, readable_wanted entry receive.wants, ?_, ?_, ?_⟩
    · rw [returnedBytes, data, lenOut]
      exact withdrawn_bytes fits.1 fits.2.1 _
    · rw [Function.update_self]
      exact withdraw_queue entry fits.1 fits.2.1
    · refine ⟨⟨severed.valid.1, ?_⟩, ?_, ?_⟩ <;> rw [Function.update_self]
      · rw [withdraw_kind]
        exact severed.valid.2
      · rw [withdraw_kind]
        exact severed.kind
      · rw [withdraw_peer]
        exact severed.peer

theorem severed_step (bounded : Bounded s.table) (severed : Severed s.table fd)
    (onEnd : OnEnd fd x.req) (served : Serves s x s') :
    DrainStep fd ⟨s, x, s'⟩ ∧ Severed s'.table fd ∧
      receivedBytes x ++ rxQueue (s'.table fd) = rxQueue (s.table fd) := by
  rcases onEnd with receive | ⟨op, sock⟩
  · obtain ⟨ok, lenOut, bytes, rest, still⟩ :=
      severed_receive bounded severed receive (outcome_of_dispatch bounded served)
    have notSend : x.req.kind ≠ .send := by simp [receive.op]
    refine ⟨⟨fun _ => ⟨ok, lenOut, bytes⟩, fun op => absurd op notSend⟩, still, ?_⟩
    rw [receivedBytes, if_pos receive.op, bytes, rest, List.take_append_drop]
  · obtain ⟨err, same⟩ := severed_send severed op sock served
    have notRecv : x.req.kind ≠ .recv := by simp [op]
    refine ⟨⟨fun op => absurd op notRecv, fun _ => ⟨err, same⟩⟩, ?_, ?_⟩
    · rw [same]
      exact severed
    · rw [receivedBytes, if_neg notRecv, same, List.nil_append]

theorem drained_progress (drain : DrainStep fd ⟨s, x, s'⟩) (receive : Receive x.req fd)
    (some_ : rxQueue (s.table fd) ≠ []) : 1 ≤ (receivedBytes x).length := by
  obtain ⟨-, lenOut, bytes⟩ := drain.recv receive.op
  have wants := receive.wants
  have positive := List.length_pos_iff.mpr some_
  rw [receivedBytes, if_pos receive.op, bytes, List.length_take]
  dsimp only at lenOut ⊢
  omega

end Steps

/-- What was handed out and what is left is the queue there was, and every receive
has taken a byte as long as there was one. -/
structure Drained (queue : List UInt8) (fd : Int) (history : History) (s : Engine) : Prop where
  bounded : Bounded s.table
  severed : Severed s.table fd
  steps : ∀ move ∈ history, DrainStep fd move
  balance : delivered history ++ rxQueue (s.table fd) = queue
  progress : receives history ≤ (delivered history).length ∨ rxQueue (s.table fd) = []

theorem delivered_snoc (history : History) (move : Move Engine Exchange) :
    delivered (history ++ [move]) = delivered history ++ receivedBytes move.label := by
  simp [delivered]

theorem receives_snoc (history : History) (move : Move Engine Exchange) :
    receives (history ++ [move]) =
      receives history + if move.label.req.kind = .recv then 1 else 0 := by
  simp [receives, List.countP_append, List.countP_cons]

theorem drained_snoc {queue : List UInt8} {fd : Int} {history : History} {s s' : Engine}
    {x : Exchange} (drained : Drained queue fd history s) (onEnd : OnEnd fd x.req)
    (served : Serves s x s') : Drained queue fd (history ++ [⟨s, x, s'⟩]) s' := by
  obtain ⟨bounded, severed, steps, balance, progress⟩ := drained
  obtain ⟨drain, still, moved⟩ := severed_step bounded severed onEnd served
  refine ⟨outcome_bounded bounded (outcome_of_dispatch bounded served), still, ?_, ?_, ?_⟩
  · simp only [List.forall_mem_append, List.forall_mem_singleton]
    exact ⟨steps, drain⟩
  · rw [delivered_snoc, List.append_assoc, moved]
    exact balance
  · by_cases empty : rxQueue (s.table fd) = []
    · rw [empty] at moved
      exact Or.inr (List.append_eq_nil_iff.mp moved).2
    · rw [receives_snoc, delivered_snoc, List.length_append]
      have earlier := progress.resolve_right empty
      left
      rcases onEnd with receive | ⟨op, sock⟩
      · have taken := drained_progress drain receive empty
        rw [if_pos receive.op]
        dsimp only
        omega
      · rw [if_neg (by simp [op])]
        omega

theorem drained_run {queue : List UInt8} {fd : Int} {start s : Engine} {history : History}
    (initially : Drained queue fd [] start) (run : Trace Serves start history s)
    (onEnd : ∀ move ∈ history, OnEnd fd move.label.req) : Drained queue fd history s := by
  induction run with
  | nil => exact initially
  | snoc past served ih =>
      simp only [List.forall_mem_append, List.forall_mem_singleton] at onEnd
      exact drained_snoc (ih onEnd.1) onEnd.2 served

theorem closed_severs {t : Table} {a b : Int} (distinct : a ≠ b) (inside : InTable b)
    (first : (t a).kind = .connected) (second : (t b).kind = .connected)
    (peer : (t a).peerFd = b) :
    Severed (closed t a) b ∧ rxQueue (closed t a b) = rxQueue (t b) := by
  have alive : IsOpen t b := isOpen_of_kind inside second (by decide)
  have kept : closed t a b = { t b with peerFd := -1 } := by
    rw [closed, Function.update_of_ne (Ne.symm distinct)]
    simp [detach, first, peer, alive]
  refine ⟨⟨⟨inside, ?_⟩, ?_, ?_⟩, ?_⟩ <;> rw [kept]
  · exact alive.2
  · exact second
  · rfl

theorem close_served {s s' : Engine} {x : Exchange} {a : Int} (bounded : Bounded s.table)
    (valid : IsOpen s.table a) (closes : Closes x.req a) (served : Serves s x s') :
    x.reply.ok ∧ s'.table = closed s.table a := by
  obtain ⟨op, rfl⟩ := closes
  have outcome := outcome_of_dispatch bounded served
  obtain ⟨r, reply⟩ := x
  dsimp only at *
  generalize s'.table = after at outcome
  cases outcome with
  | refused why err =>
      cases why with
      | closeBad _ bad => exact absurd valid bad
      | _ => simp_all
  | closed => exact ⟨rfl, rfl⟩
  | passive other => simp_all
  | _ => simp_all

/-- One of two connected sockets that name each other is closed. Whatever receives
and sends follow on the other, the receives hand out the queue it had at the close,
in order and completely, then the end of the stream; the sends are refused and
change nothing; and no request is left unanswered. -/
theorem close_loses_no_data (s : Engine) (reachable : Reachable s) (a b : Int) (distinct : a ≠ b)
    (insideA : InTable a) (insideB : InTable b) (connectedA : (s.table a).kind = .connected)
    (connectedB : (s.table b).kind = .connected)
    (peers : (s.table a).peerFd = b ∧ (s.table b).peerFd = a)
    (x : Exchange) (s₁ : Engine) (closes : Closes x.req a) (served : Serves s x s₁)
    (history : History) (s₂ : Engine) (run : Trace Serves s₁ history s₂)
    (onEnd : ∀ move ∈ history, OnEnd b move.label.req) :
    x.reply.ok ∧ delivered history ++ rxQueue (s₂.table b) = rxQueue (s.table b) ∧
      ((rxQueue (s.table b)).length ≤ receives history →
        delivered history = rxQueue (s.table b)) ∧
      (∀ move ∈ history, DrainStep b move) ∧
      ∀ r, ∃ s₃ reply, dispatchRequest s₂ r = .ok (s₃, reply) := by
  obtain ⟨past, reached⟩ := reachable
  have bounded := run_bounded reached
  have valid : IsOpen s.table a := isOpen_of_kind insideA connectedA (by decide)
  obtain ⟨ok, after⟩ := close_served bounded valid closes served
  obtain ⟨severed, queue⟩ := closed_severs distinct insideB connectedA connectedB peers.1
  rw [← after] at severed queue
  have initially : Drained (rxQueue (s.table b)) b [] s₁ := by
    refine ⟨outcome_bounded bounded (outcome_of_dispatch bounded served), severed, by simp, ?_, ?_⟩
    · exact queue
    · exact Or.inl (Nat.zero_le _)
  obtain ⟨bounded₂, -, steps, balance, progress⟩ := drained_run initially run onEnd
  refine ⟨ok, balance, ?_, steps, ?_⟩
  · intro enough
    have empty : rxQueue (s₂.table b) = [] := by
      rcases progress with taken | empty
      · have length := congrArg List.length balance
        rw [List.length_append] at length
        exact List.length_eq_zero_iff.mp (by omega)
      · exact empty
    rw [empty, List.append_nil] at balance
    exact balance
  · intro r
    obtain ⟨s₃, reply, ran, -⟩ := dispatch_outcome bounded₂ r
    exact ⟨s₃, reply, ran⟩

def unreadGreeting : List NetstackReq :=
  servedConnect ++ [Call.send 4 (text [104, 105]) 2].map Call.request

/-- The server reads on after the client's close, one byte and then the rest. -/
def leftOverReads : List NetstackReq :=
  [Call.recv 5 1, .send 5 (text [111, 107]) 2, .recv 5 2000, .recv 5 16].map Call.request

theorem greeting_survives_close :
    let s := stateAfter initial unreadGreeting
    let closing := serve s (Call.close 4).request
    let history := historyOf closing.after leftOverReads
    closing.label.reply.ok ∧ delivered history = [104, 105] ∧
      ∀ move ∈ history, DrainStep 5 move := by
  intro s closing history
  have past := run_from_initial unreadGreeting
  have bounded := run_bounded past
  have closes : Serves s closing.label closing.after := by
    obtain ⟨x, s₁, same, served⟩ := serve_serves bounded (Call.close 4).request
    have moved : closing = ⟨s, x, s₁⟩ := same
    rw [moved]
    exact served
  have run : Trace Serves closing.after history (stateAfter closing.after leftOverReads) :=
    trace_of_requests .nil (outcome_bounded bounded (outcome_of_dispatch bounded closes))
      leftOverReads
  have requests : ∀ move ∈ history,
      (move.label.req.kind = .recv ∧ move.label.req.u.recv.sock = 5 ∧
        0 < move.label.req.u.recv.lenIn) ∨
      (move.label.req.kind = .send ∧ move.label.req.u.send.sock = 5) := by decide +kernel
  have queue : rxQueue (s.table 5) = [104, 105] := by decide +kernel
  have enough : receives history = 3 := by decide +kernel
  obtain ⟨ok, -, all, steps, -⟩ := close_loses_no_data s ⟨_, past⟩ 4 5 (by decide) (by decide)
    (by decide) (by decide +kernel) (by decide +kernel) (by decide +kernel) closing.label
    closing.after ⟨by decide +kernel, by decide +kernel⟩ closes history _ run
    (fun move mem => (requests move mem).imp_left fun ⟨op, sock, wants⟩ => ⟨op, sock, wants⟩)
  rw [queue, enough] at all
  exact ⟨ok, all (by decide), steps⟩

end Netstack.FdTable
