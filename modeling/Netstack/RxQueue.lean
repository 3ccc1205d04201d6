import Netstack.BoundedFifo
import Netstack.FdBounds

/-!
The receive buffer of a socket is a bounded FIFO of 4096 bytes. The queue of an
entry is the window between its head and its tail; compaction moves the window
and keeps the queue, a send appends the prefix that fits, a receive removes a
prefix, and nothing else touches the queue between the allocation of an fd and
its close.
-/

namespace Netstack.FdTable

open Ipc Client Window Transition BoundedFifo

def rxQueue (e : FdEntry) : List UInt8 := window e.rx e.rxHead (live e).toNat

theorem rxQueue_length (e : FdEntry) : (rxQueue e).length = (live e).toNat := window_length ..

theorem compacted_queue {e : FdEntry} (bounded : EntryBounded e) :
    window (compacted e).rx 0 (live e).toNat = rxQueue e := by
  unfold rxQueue
  by_cases start : e.rxHead = 0
  · simp [compacted, start]
  · have range := live_range bounded
    have count : live e = ((live e).toNat : Int) := by omega
    simp only [compacted, start, if_false]
    rw [count, Int.toNat_natCast, window_blit_copied]

/-- A deposit appends the copied bytes behind the compacted queue. -/
theorem deposit_queue {e : FdEntry} (bounded : EntryBounded e) (data : Int → UInt8)
    {count : Int} (lower : 0 ≤ count) :
    rxQueue (deposit e data count) = rxQueue e ++ window data 0 count.toNat := by
  have range := live_range bounded
  obtain ⟨n, rfl⟩ := Int.eq_ofNat_of_zero_le lower
  have length : (live (deposit e data n)).toNat = (live e).toNat + n := by
    have tail : live (deposit e data n) = live e + n := by
      simp only [live, deposit, compacted_rxHead, Int.sub_zero]
    omega
  have start : ((live e).toNat : Int) = live e := by omega
  calc rxQueue (deposit e data n)
      = window (blit (compacted e).rx data (live e) 0 n) 0 ((live e).toNat + n) := by
        rw [rxQueue, length]
        simp only [deposit, compacted_rxHead]
    _ = window (blit (compacted e).rx data (live e) 0 n) 0 (live e).toNat ++
          window (blit (compacted e).rx data (live e) 0 n) (live e) n := by
        rw [window_append, Int.zero_add, start]
    _ = rxQueue e ++ window data 0 n := by
        rw [window_blit_before _ _ _ _ _ _ _ (by omega), compacted_queue bounded,
          window_blit_copied]

theorem withdraw_queue {e : FdEntry} (bounded : EntryBounded e) {count : Int}
    (lower : 0 ≤ count) (upper : count ≤ live e) :
    rxQueue (withdraw e count) = (rxQueue e).drop count.toNat := by
  have order := bounded.rx_order
  obtain ⟨n, rfl⟩ := Int.eq_ofNat_of_zero_le lower
  rw [rxQueue, rxQueue, window_drop _ _ (by omega), Int.toNat_natCast]
  unfold withdraw
  split
  · rename_i drained
    have used : (live e).toNat - n = 0 := by
      simp only [live] at upper ⊢
      omega
    rw [used]
    rfl
  · have rest : (live { e with rxHead := e.rxHead + (n : Int) }).toNat = (live e).toNat - n := by
      simp only [live] at upper ⊢
      omega
    rw [rest]

theorem withdrawn_bytes {e : FdEntry} {count : Int} (lower : 0 ≤ count) (upper : count ≤ live e)
    (target : Int → UInt8) :
    window (blit target e.rx 0 e.rxHead count) 0 count.toNat = (rxQueue e).take count.toNat := by
  obtain ⟨n, rfl⟩ := Int.eq_ofNat_of_zero_le lower
  rw [rxQueue, window_take _ _ (by omega), Int.toNat_natCast, window_blit_copied]

/-! The requests that concern the queue of one fd. -/

/-- A well-formed send on a connected socket whose valid peer is `fd`. -/
structure SendsTo (t : Table) (r : NetstackReq) (fd : Int) : Prop where
  op : r.kind = .send
  valid : IsOpen t r.u.send.sock
  kind : (t r.u.send.sock).kind = .connected
  peer : (t r.u.send.sock).peerFd = fd
  peer_valid : IsOpen t fd
  lower : 0 ≤ r.u.send.lenIn
  upper : r.u.send.lenIn ≤ netstackMaxPayload

structure ReceivesFrom (t : Table) (r : NetstackReq) (fd : Int) : Prop where
  op : r.kind = .recv
  sock : r.u.recv.sock = fd
  valid : IsOpen t fd
  kind : (t fd).kind = .connected
  some_ : rxQueue (t fd) ≠ []

structure Closes (r : NetstackReq) (fd : Int) : Prop where
  op : r.kind = .close
  sock : r.u.close.sock = fd

def sentBytes (r : NetstackReq) : List UInt8 := window r.u.send.data 0 r.u.send.lenIn.toNat

/-- One request against the FIFO of one fd, with the queue before it and
after it. `clamp` is the receive length forced into the payload range. -/
structure FifoStep (t : Table) (r : NetstackReq) (t' : Table) (reply : NetstackReq) (fd : Int) :
    Prop where
  fresh : ¬ IsOpen t fd → IsOpen t' fd → rxQueue (t' fd) = []
  capacity : (rxQueue (t fd)).length ≤ 4096
  full : SendsTo t r fd → (reply.err = netstackEagain ↔ (rxQueue (t fd)).length = 4096)
  sends : SendsTo t r fd → ∀ count, offer 4096 (rxQueue (t fd)) (sentBytes r) = some count →
    reply.ok ∧ reply.u.send.lenOut = count ∧
      (count : Int) = min r.u.send.lenIn (4096 - (rxQueue (t fd)).length) ∧
      rxQueue (t' fd) = push (rxQueue (t fd)) (sentBytes r) count
  receives : ReceivesFrom t r fd → ∀ clamp, clamp = max 0 (min r.u.recv.lenIn 1024) →
    ∀ count, count = poll (rxQueue (t fd)) clamp.toNat →
      reply.ok ∧ reply.u.recv.lenOut = count ∧
        window reply.u.recv.data 0 count = (rxQueue (t fd)).take count ∧
        rxQueue (t' fd) = (rxQueue (t fd)).drop count
  kept : IsOpen t fd → ¬ Closes r fd → ¬ ReceivesFrom t r fd →
    (SendsTo t r fd → (rxQueue (t fd)).length = 4096) → rxQueue (t' fd) = rxQueue (t fd)

theorem sendsTo_outcome {t t' : Table} {r reply : NetstackReq} {fd : Int}
    (sends : SendsTo t r fd) (outcome : Outcome t r t' reply) :
    (live (t fd) = 4096 ∧ reply.err = netstackEagain ∧ t' = t) ∨
      (live (t fd) < 4096 ∧ reply.ok ∧
        reply.u.send.lenOut = acceptable (t fd) r.u.send.lenIn ∧
        t' = Function.update t fd
          (deposit (t fd) r.u.send.data (acceptable (t fd) r.u.send.lenIn))) := by
  obtain ⟨op, valid, kind, rfl, peer, lower, upper⟩ := sends
  cases outcome with
  | refused why err =>
      subst err
      generalize reply.err = code at why
      cases why with
      | sendFull _ _ full => exact Or.inl ⟨full, rfl, rfl⟩
      | sendBad _ bad => exact absurd valid bad
      | sendAlone _ _ alone => exact absurd alone (by simp [kind, peer])
      | sendSize _ _ size => omega
      | _ => simp_all
  | sent _ _ _ _ _ _ room => exact Or.inr ⟨room, rfl, rfl, rfl⟩
  | passive other => simp_all
  | _ => simp_all

theorem receivesFrom_outcome {t t' : Table} {r reply : NetstackReq} {fd : Int}
    (receives : ReceivesFrom t r fd) (outcome : Outcome t r t' reply) :
    reply.ok ∧ reply.u.recv.lenOut = readable (t fd) r.u.recv.lenIn ∧
      reply.u.recv.data = blit r.u.recv.data (t fd).rx 0 (t fd).rxHead
        (readable (t fd) r.u.recv.lenIn) ∧
      t' = Function.update t fd (withdraw (t fd) (readable (t fd) r.u.recv.lenIn)) := by
  obtain ⟨op, rfl, valid, kind, some_⟩ := receives
  have nonempty : live (t r.u.recv.sock) ≠ 0 := by
    intro zero
    apply some_
    simp [rxQueue, zero]
  cases outcome with
  | refused why err =>
      cases why with
      | recvBad _ bad => exact absurd valid bad
      | recvKind _ _ other => exact absurd kind other
      | recvEmpty _ _ _ empty => exact absurd empty nonempty
      | _ => simp_all
  | received => exact ⟨rfl, rfl, rfl, rfl⟩
  | ended _ _ _ empty => exact absurd empty nonempty
  | passive other => simp_all
  | _ => simp_all

theorem update_queue {t : Table} {at_ : Int} {e : FdEntry} (same : rxQueue e = rxQueue (t at_))
    (fd : Int) : rxQueue (Function.update t at_ e fd) = rxQueue (t fd) := by
  by_cases here : fd = at_
  · subst fd
    rw [Function.update_self, same]
  · rw [Function.update_of_ne here]

theorem detach_queue (t : Table) (fd other : Int) :
    rxQueue (detach t fd other) = rxQueue (t other) := by
  unfold detach
  dsimp only
  split
  · exact update_queue (by rfl) other
  · rfl

theorem queued_queue {t : Table} {fd lfd : Int} {port : UInt16} (apart : lfd ≠ fd) (other : Int) :
    rxQueue (queued t fd lfd port other) = rxQueue (t other) := by
  unfold queued
  rw [update_queue (by rw [Function.update_of_ne apart]; rfl)]
  exact update_queue (by rfl) other

theorem minted_queue {t : Table} {lfd newFd fd : Int} (apart : fd ≠ newFd) :
    rxQueue (minted t lfd newFd fd) = rxQueue (t fd) := by
  rw [minted, Function.update_of_ne apart]
  exact update_queue (by rfl) fd

theorem paired_queue (t : Table) (lfd newFd fd : Int) :
    rxQueue (paired t lfd newFd fd) = rxQueue (minted t lfd newFd fd) := by
  rw [paired_apply]
  rfl

theorem other_outcome {t t' : Table} {r reply : NetstackReq} {fd : Int}
    (outcome : Outcome t r t' reply) (valid : IsOpen t fd) (notClosed : ¬ Closes r fd)
    (notReceived : ¬ ReceivesFrom t r fd) (notSent : ¬ SendsTo t r fd) :
    rxQueue (t' fd) = rxQueue (t fd) := by
  have unallocated : ∀ {newFd}, FirstHit t isFree newFd → fd ≠ newFd := by
    rintro newFd first rfl
    have free := first.2.1
    simp only [isFree, beq_iff_eq] at free
    exact valid.2 free
  cases outcome with
  | refused why err => rfl
  | passive op ok => rfl
  | ended op open_ kind empty peer => rfl
  | opened op first => rw [Function.update_of_ne (unallocated first)]
  | closed op open_ =>
      have apart : fd ≠ r.u.close.sock := fun same => notClosed ⟨op, same.symm⟩
      rw [closed, Function.update_of_ne apart]
      exact detach_queue ..
  | bound op open_ kind unused => exact update_queue (by rfl) fd
  | listening op open_ kind port => exact update_queue (by rfl) fd
  | @queued lfd op open_ kind route room =>
      have apart : lfd ≠ r.u.connect.sock :=
        kinds_apart (listener_kind route).1 kind (by decide)
      exact queued_queue apart fd
  | paired op open_ kind waiting first =>
      rw [paired_queue]
      exact minted_queue (unallocated first)
  | sent op open_ kind peer lower upper room =>
      have apart : fd ≠ (t r.u.send.sock).peerFd := fun same =>
        notSent ⟨op, open_, kind, same.symm, valid, lower, upper⟩
      rw [Function.update_of_ne apart]
  | received op open_ kind some_ =>
      have apart : fd ≠ r.u.recv.sock := by
        rintro rfl
        refine notReceived ⟨op, rfl, valid, kind, ?_⟩
        intro empty
        have length := rxQueue_length (t r.u.recv.sock)
        rw [empty, List.length_nil] at length
        omega
      rw [Function.update_of_ne apart]

theorem fresh_outcome {t t' : Table} {r reply : NetstackReq} {fd : Int}
    (outcome : Outcome t r t' reply) (before : ¬ IsOpen t fd) (after : IsOpen t' fd) :
    rxQueue (t' fd) = [] := by
  -- An entry that was not open and is not the allocated one has kept its kind.
  have closed_stays {other : Table} (same : (other fd).kind = (t fd).kind) : ¬ IsOpen other fd :=
    fun valid => before ⟨valid.1, by rw [← same]; exact valid.2⟩
  have update_stays {at_ : Int} {e : FdEntry} (valid : IsOpen t at_) :
      ¬ IsOpen (Function.update t at_ e) fd := by
    apply closed_stays
    have apart : fd ≠ at_ := fun same => before (same ▸ valid)
    rw [Function.update_of_ne apart]
  cases outcome with
  | refused why err => exact absurd after before
  | passive op ok => exact absurd after before
  | ended op valid kind empty peer => exact absurd after before
  | @opened newFd op first =>
      by_cases here : fd = newFd
      · subst fd
        simp [rxQueue, socketEntry, blankEntry, zeroEntry, live]
      · exact absurd after (closed_stays (by rw [Function.update_of_ne here]))
  | closed op valid =>
      refine absurd after (closed_stays ?_)
      have apart : fd ≠ r.u.close.sock := fun same => before (same ▸ valid)
      rw [closed, Function.update_of_ne apart, detach_kind]
  | bound op valid kind unused => exact absurd after (update_stays valid)
  | listening op valid kind port => exact absurd after (update_stays valid)
  | @queued lfd op valid kind route room =>
      refine absurd after (closed_stays ?_)
      have notClient : fd ≠ r.u.connect.sock := fun same => before (same ▸ valid)
      have notListener : fd ≠ lfd := fun same =>
        before (same ▸ isOpen_of_kind route.1 (listener_kind route).1 (by decide))
      rw [queued, Function.update_of_ne notListener, Function.update_of_ne notClient]
  | @paired newFd op valid kind waiting first =>
      by_cases here : fd = newFd
      · subst fd
        rw [paired_queue]
        simp [minted, rxQueue, acceptedEntry, blankEntry, zeroEntry, live]
      · refine absurd after (closed_stays ?_)
        rw [paired_apply]
        exact (minted_other _ _ here).1
  | sent op valid kind peer lower upper room => exact absurd after (update_stays peer)
  | received op valid kind some_ => exact absurd after (update_stays valid)

theorem outcome_fifo {t t' : Table} {r reply : NetstackReq} (bounded : Bounded t)
    (outcome : Outcome t r t' reply) (fd : Int) : FifoStep t r t' reply fd := by
  have entry := bounded.entries fd
  have range := live_range entry
  have length := rxQueue_length (t fd)
  refine ⟨fresh_outcome outcome, by omega, ?_, ?_, ?_, ?_⟩
  · intro sends
    rcases sendsTo_outcome sends outcome with ⟨full, err, -⟩ | ⟨room, ok, -, -⟩
    · exact iff_of_true err (by omega)
    · refine iff_of_false ?_ (by omega)
      intro again
      rw [NetstackReq.ok, again] at ok
      exact absurd ok (by decide)
  · intro sends count offered
    rcases sendsTo_outcome sends outcome with ⟨full, -, -⟩ | ⟨room, ok, lenOut, after⟩
    · rw [offer, if_pos (by omega)] at offered
      contradiction
    · have fits := acceptable_range entry sends.lower
      have lower := sends.lower
      have taken : acceptable (t fd) r.u.send.lenIn = count := by
        rw [offer, if_neg (by omega), Option.some.injEq, sentBytes, window_length] at offered
        simp only [acceptable, rxbufSize]
        split_ifs <;> omega
      have short : (count : Int) = min r.u.send.lenIn (4096 - (rxQueue (t fd)).length) := by
        rw [← taken]
        simp only [acceptable, rxbufSize]
        split_ifs <;> omega
      refine ⟨ok, lenOut.trans taken, short, ?_⟩
      rw [after, Function.update_self, deposit_queue entry _ fits.1, push, sentBytes,
        window_take _ _ (by omega), taken, Int.toNat_natCast]
  · intro receives clamp clamped count polled
    obtain ⟨ok, lenOut, data, after⟩ := receivesFrom_outcome receives outcome
    have fits := readable_range entry r.u.recv.lenIn
    have read : readable (t fd) r.u.recv.lenIn = count := by
      rw [poll] at polled
      simp only [readable, netstackMaxPayload]
      split_ifs <;> omega
    have bytes := withdrawn_bytes fits.1 fits.2.1 r.u.recv.data
    have rest := withdraw_queue entry fits.1 fits.2.1
    rw [read, Int.toNat_natCast] at bytes rest
    refine ⟨ok, lenOut.trans read, ?_, ?_⟩
    · rw [data, read]
      exact bytes
    · rw [after, Function.update_self, read]
      exact rest
  · intro valid notClosed notReceived onlyFull
    by_cases sends : SendsTo t r fd
    · rcases sendsTo_outcome sends outcome with ⟨-, -, same⟩ | ⟨room, -, -, -⟩
      · rw [same]
      · have full := onlyFull sends
        omega
    · exact other_outcome outcome valid notClosed notReceived sends

/-! Whole runs. The ledger of an fd is opened when the fd is allocated and
records every byte a send put into its queue and every byte a receive took. -/

def rxAudit (fd : Int) (ledger : Ledger UInt8) (move : Move Engine Exchange) : Ledger UInt8 :=
  let req := move.label.req
  let reply := move.label.reply
  if ¬ IsOpen move.before.table fd ∧ IsOpen move.after.table fd then .empty
  else if req.kind = .send ∧ (move.before.table req.u.send.sock).peerFd = fd ∧ reply.ok then
    ledger.accept (window req.u.send.data 0 reply.u.send.lenOut.toNat)
  else if req.kind = .recv ∧ req.u.recv.sock = fd ∧ reply.ok then
    ledger.remove (window reply.u.recv.data 0 reply.u.recv.lenOut.toNat)
  else ledger

def rxLedger (fd : Int) (history : History) : Ledger UInt8 := history.foldl (rxAudit fd) .empty

theorem sendsTo_of_ok {t t' : Table} {r reply : NetstackReq} (outcome : Outcome t r t' reply)
    (op : r.kind = .send) (ok : reply.ok) : SendsTo t r (t r.u.send.sock).peerFd := by
  cases outcome with
  | refused why err => exact absurd ok (refused_not_ok why err)
  | sent _ valid kind peer lower upper _ => exact ⟨op, valid, kind, rfl, peer, lower, upper⟩
  | passive other => simp_all
  | _ => simp_all

-- A receive that replies OK took bytes, or it reported the end of the stream.
theorem ok_recv_cases {t t' : Table} {r reply : NetstackReq} (outcome : Outcome t r t' reply)
    (op : r.kind = .recv) (ok : reply.ok) :
    reply.u.recv.lenOut = 0 ∨ ReceivesFrom t r r.u.recv.sock := by
  cases outcome with
  | refused why err => exact absurd ok (refused_not_ok why err)
  | ended => exact Or.inl rfl
  | received _ valid kind some_ =>
      refine Or.inr ⟨op, rfl, valid, kind, ?_⟩
      intro empty
      have length := rxQueue_length (t r.u.recv.sock)
      rw [empty, List.length_nil] at length
      omega
  | passive other => simp_all
  | _ => simp_all

theorem closed_not_open {t t' : Table} {r reply : NetstackReq} {fd : Int}
    (outcome : Outcome t r t' reply) (valid : IsOpen t fd) (closes : Closes r fd) :
    ¬ IsOpen t' fd := by
  obtain ⟨op, rfl⟩ := closes
  cases outcome with
  | refused why err =>
      cases why with
      | closeBad _ bad => exact absurd valid bad
      | _ => simp_all
  | closed => simp [IsOpen, closed, blankEntry, zeroEntry]
  | passive other => simp_all
  | _ => simp_all

theorem audit_balanced {s s' : Engine} {x : Exchange} {fd : Int} {ledger : Ledger UInt8}
    (bounded : Bounded s.table) (outcome : Outcome s.table x.req s'.table x.reply)
    (balanced : IsOpen s.table fd → Balanced ledger (rxQueue (s.table fd)))
    (valid : IsOpen s'.table fd) :
    Balanced (rxAudit fd ledger ⟨s, x, s'⟩) (rxQueue (s'.table fd)) := by
  have fifo := outcome_fifo bounded outcome fd
  unfold rxAudit
  dsimp only
  by_cases before : IsOpen s.table fd
  · have notClosed : ¬ Closes x.req fd := fun closes => closed_not_open outcome before closes valid
    rw [if_neg (fun both => both.1 before)]
    by_cases sent : x.req.kind = .send ∧ (s.table x.req.u.send.sock).peerFd = fd ∧ x.reply.ok
    · obtain ⟨op, rfl, ok⟩ := sent
      have entry := bounded.entries (s.table x.req.u.send.sock).peerFd
      have sends := sendsTo_of_ok outcome op ok
      rw [if_pos ⟨op, rfl, ok⟩]
      rcases sendsTo_outcome sends outcome with ⟨-, err, -⟩ | ⟨-, -, lenOut, after⟩
      · rw [NetstackReq.ok, err] at ok
        exact absurd ok (by decide)
      · have fits := acceptable_range entry sends.lower
        rw [after, Function.update_self, deposit_queue entry _ fits.1, lenOut]
        exact balanced_accept (balanced before) _
    · rw [if_neg sent]
      have notSent : SendsTo s.table x.req fd → (rxQueue (s.table fd)).length = 4096 := by
        intro sends
        rcases sendsTo_outcome sends outcome with ⟨full, -, -⟩ | ⟨-, ok, -, -⟩
        · rw [rxQueue_length, full]
          rfl
        · exact absurd ⟨sends.op, sends.peer, ok⟩ sent
      by_cases received : x.req.kind = .recv ∧ x.req.u.recv.sock = fd ∧ x.reply.ok
      · rw [if_pos received]
        by_cases receives : ReceivesFrom s.table x.req fd
        · obtain ⟨-, lenOut, bytes, rest⟩ := fifo.receives receives _ rfl _ rfl
          rw [lenOut, Int.toNat_natCast, bytes, rest]
          exact balanced_remove (balanced before) _
        · -- End of file: nothing is taken and nothing is recorded.
          have same := fifo.kept before notClosed receives notSent
          have nothing : x.reply.u.recv.lenOut = 0 := by
            rcases ok_recv_cases outcome received.1 received.2.2 with ended | taken
            · exact ended
            · exact absurd (received.2.1 ▸ taken) receives
          rw [same, nothing]
          simpa [Ledger.remove] using balanced before
      · rw [if_neg received]
        have notReceived : ¬ ReceivesFrom s.table x.req fd := fun receives =>
          received ⟨receives.op, receives.sock, (receivesFrom_outcome receives outcome).1⟩
        rw [fifo.kept before notClosed notReceived notSent]
        exact balanced before
  · rw [if_pos ⟨before, valid⟩, fifo.fresh before valid]
    exact balanced_empty

theorem ledger_balanced {history : History} {s : Engine} (run : Run history s) (fd : Int)
    (valid : IsOpen s.table fd) : Balanced (rxLedger fd history) (rxQueue (s.table fd)) := by
  induction run with
  | nil => exact absurd rfl valid.2
  | snoc past served ih =>
      rw [rxLedger, List.foldl_append]
      exact audit_balanced (run_bounded past) (run_outcome past served) ih valid

/-- The receive buffer of every fd is a FIFO of 4096 bytes: each request moves
its queue as `FifoStep` says, and in every state of every run the bytes taken
since the allocation, followed by the queue, are the bytes accepted since. -/
theorem rx_queue_refines_fifo (history : History) (s : Engine) (run : Run history s) :
    (∀ x s', Serves s x s' → ∀ fd, FifoStep s.table x.req s'.table x.reply fd) ∧
      ∀ fd, IsOpen s.table fd → Balanced (rxLedger fd history) (rxQueue (s.table fd)) := by
  constructor
  · intro x s' served fd
    exact outcome_fifo (run_bounded run) (run_outcome run served) fd
  · intro fd valid
    exact ledger_balanced run fd valid

theorem echo_queue_balanced :
    Balanced (rxLedger 4 (historyOf initial echo)) (rxQueue ((stateAfter initial echo).table 4)) ∧
      (rxLedger 4 (historyOf initial echo)).removed = [111, 107] :=
  ⟨(rx_queue_refines_fifo _ _ (run_from_initial echo)).2 4 (by decide +kernel),
    by decide +kernel⟩

end Netstack.FdTable
