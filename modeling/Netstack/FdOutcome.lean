import Mathlib.Tactic.Common
import Netstack.FdTable

/-!
What one request can do. `Bounded` is the condition under which no access of a
handler leaves its array. Under it `dispatch_outcome` runs a handler once and
records the result as an `Outcome`: a refusal with its reason, or one of the
successes with the table it leaves. Every later invariant is an argument over
these outcomes and does not open a handler again.
-/

namespace Netstack.FdTable

open Ipc Window

/-! The indices a handler may use, and what the helpers return. -/

def InTable (fd : Int) : Prop := fdFirst ≤ fd ∧ fd < fdtableMax

instance (fd : Int) : Decidable (InTable fd) := inferInstanceAs (Decidable (_ ∧ _))

theorem inTable_iff (fd : Int) : InTable fd ↔ 3 ≤ fd ∧ fd < 128 := Iff.rfl

theorem inTable_nonneg {fd : Int} (inside : InTable fd) : 0 ≤ fd := by
  have lower := ((inTable_iff fd).mp inside).1
  omega

/-- The indices `InTable` admits. -/
def tableFds : List Int := (List.range 125).map fun n : Nat => (n : Int) + 3

theorem mem_tableFds {fd : Int} : fd ∈ tableFds ↔ InTable fd := by
  rw [inTable_iff, tableFds, List.mem_map]
  constructor
  · rintro ⟨n, member, rfl⟩
    have upper := List.mem_range.mp member
    omega
  · rintro ⟨lower, upper⟩
    refine ⟨(fd - 3).toNat, List.mem_range.mpr ?_, ?_⟩ <;> omega

def IsOpen (t : Table) (fd : Int) : Prop := InTable fd ∧ (t fd).kind ≠ .free

instance (t : Table) (fd : Int) : Decidable (IsOpen t fd) := inferInstanceAs (Decidable (_ ∧ _))

theorem isOpen_of_kind {t : Table} {fd : Int} (inside : InTable fd) {kind : FdKind}
    (known : (t fd).kind = kind) (used : kind ≠ .free) : IsOpen t fd :=
  ⟨inside, by rw [known]; exact used⟩

theorem kinds_apart {t : Table} {fd other : Int} {mine theirs : FdKind} (here : (t fd).kind = mine)
    (there : (t other).kind = theirs) (differ : mine ≠ theirs) : fd ≠ other := by
  rintro rfl
  exact differ (here.symm.trans there)

theorem ok_bind {α β : Type} (value : α) (next : α → Except Fault β) :
    (Except.ok value >>= next) = next value := rfl

theorem entryAt_ok {t : Table} {i : Int} (inside : InTable i) : entryAt t i = .ok (t i) :=
  if_pos inside

theorem setEntry_ok {t : Table} {i : Int} (e : FdEntry) (inside : InTable i) :
    setEntry t i e = .ok (Function.update t i e) :=
  if_pos inside

theorem backlogAt_ok {e : FdEntry} {i : Int} (lower : 0 ≤ i) (upper : i < 4) :
    backlogAt e i = .ok (e.backlog i) :=
  if_pos ⟨lower, upper⟩

theorem setBacklog_ok {e : FdEntry} {i : Int} (fd : Int) (lower : 0 ≤ i) (upper : i < 4) :
    setBacklog e i fd = .ok { e with backlog := Function.update e.backlog i fd } :=
  if_pos ⟨lower, upper⟩

theorem checkRx_ok {start count : Int} (lower : 0 ≤ start) (positive : 0 ≤ count)
    (upper : start + count ≤ 4096) : checkRx start count = .ok () :=
  if_pos ⟨lower, positive, upper⟩

theorem checkData_ok {count : Int} (positive : 0 ≤ count) (upper : count ≤ 1024) :
    checkData 0 count = .ok () := by
  apply if_pos
  exact ⟨Int.le_refl 0, positive, by rw [Int.zero_add]; exact upper⟩

theorem fdValid_eq (t : Table) (fd : Int) : fdValid t fd = .ok (decide (IsOpen t fd)) := by
  by_cases inside : InTable fd
  · have unfolded : fdValid t fd = .ok ((t fd).kind != .free) := by
      unfold fdValid
      rw [entryAt_ok inside]
      exact if_neg (not_not_intro inside)
    rw [unfolded]
    cases known : (t fd).kind <;> simp [IsOpen, inside, known]
  · have unfolded : fdValid t fd = .ok false := if_pos inside
    rw [unfolded]
    simp [IsOpen, inside]

/-- A scan found `j`: the first entry of the table that passes the test. -/
def FirstHit (t : Table) (hit : FdEntry → Bool) (j : Int) : Prop :=
  InTable j ∧ hit (t j) = true ∧ ∀ k, fdFirst ≤ k → k < j → hit (t k) = false

def NoHit (t : Table) (hit : FdEntry → Bool) : Prop :=
  ∀ k, InTable k → hit (t k) = false

theorem scanFd_cases (t : Table) (hit : FdEntry → Bool) (remaining : Nat) (i : Int)
    (lower : 3 ≤ i) (upper : i + remaining = 128) :
    (scanFd t hit remaining i = .ok (-1) ∧ ∀ k, i ≤ k → k < 128 → hit (t k) = false) ∨
      ∃ j, scanFd t hit remaining i = .ok j ∧ i ≤ j ∧ j < 128 ∧ hit (t j) = true ∧
        ∀ k, i ≤ k → k < j → hit (t k) = false := by
  induction remaining generalizing i with
  | zero =>
      refine Or.inl ⟨rfl, ?_⟩
      intro k above below
      omega
  | succ remaining ih =>
      have inside : InTable i := by rw [inTable_iff]; omega
      have unfolded : scanFd t hit (remaining + 1) i =
          if hit (t i) = true then .ok i else scanFd t hit remaining (i + 1) := by
        rw [scanFd, entryAt_ok inside]
        rfl
      rw [unfolded]
      by_cases found : hit (t i) = true
      · refine Or.inr ⟨i, if_pos found, Int.le_refl i, by omega, found, ?_⟩
        intro k above below
        omega
      · have missed : hit (t i) = false := by simpa using found
        rw [if_neg found]
        rcases ih (i + 1) (by omega) (by push_cast at upper ⊢; omega) with
          ⟨scanned, none⟩ | ⟨j, scanned, above, below, passed, earlier⟩
        · refine Or.inl ⟨scanned, ?_⟩
          intro k from_ to_
          by_cases first : k = i
          · rw [first]; exact missed
          · exact none k (by omega) to_
        · refine Or.inr ⟨j, scanned, by omega, below, passed, ?_⟩
          intro k from_ to_
          by_cases first : k = i
          · rw [first]; exact missed
          · exact earlier k (by omega) to_

theorem firstFd_cases (t : Table) (hit : FdEntry → Bool) :
    (firstFd t hit = .ok (-1) ∧ NoHit t hit) ∨
      ∃ j, firstFd t hit = .ok j ∧ FirstHit t hit j := by
  rcases scanFd_cases t hit 125 3 (by omega) (by omega) with
    ⟨scanned, none⟩ | ⟨j, scanned, above, below, passed, earlier⟩
  · exact Or.inl ⟨scanned, fun k inside => none k inside.1 inside.2⟩
  · exact Or.inr ⟨j, scanned, ⟨above, below⟩, passed, earlier⟩

theorem firstHit_unique {t : Table} {hit : FdEntry → Bool} {i j : Int}
    (left : FirstHit t hit i) (right : FirstHit t hit j) : i = j := by
  rcases Int.lt_trichotomy i j with less | same | more
  · have missed := right.2.2 i left.1.1 less
    rw [left.2.1] at missed
    contradiction
  · exact same
  · have missed := left.2.2 j right.1.1 more
    rw [right.2.1] at missed
    contradiction

/-! The bounds every reachable table keeps. `drained` makes the queue of a
buffer empty only at its start, which is what lets a full buffer be
recognised after compaction. -/

structure EntryBounded (e : FdEntry) : Prop where
  rx_head : 0 ≤ e.rxHead
  rx_order : e.rxHead ≤ e.rxTail
  rx_tail : e.rxTail ≤ rxbufSize
  drained : e.rxHead = e.rxTail → e.rxHead = 0 ∧ e.rxTail = 0
  head_range : 0 ≤ e.backlogHead ∧ e.backlogHead < backlogMax
  tail_range : 0 ≤ e.backlogTail ∧ e.backlogTail < backlogMax
  count_range : 0 ≤ e.backlogCount ∧ e.backlogCount ≤ backlogMax
  ring : e.backlogTail = (e.backlogHead + e.backlogCount) % backlogMax
  pending : ∀ k, 0 ≤ k → k < e.backlogCount →
    InTable (e.backlog ((e.backlogHead + k) % backlogMax))

structure Bounded (t : Table) : Prop where
  entries : ∀ fd, EntryBounded (t fd)
  peers : ∀ fd, IsOpen t fd → (t fd).peerFd = -1 ∨ InTable (t fd).peerFd
  reserved : ∀ fd, 0 ≤ fd → fd < fdFirst → (t fd).kind = .free

/-! What the successful requests do to the table. -/

def blankEntry : FdEntry := { zeroEntry with peerFd := -1 }

def socketEntry (b : SocketBody) : FdEntry :=
  { blankEntry with kind := .unbound, domain := b.domain, type := b.type, proto := b.proto }

def detach (t : Table) (fd : Int) : Table :=
  let peer := (t fd).peerFd
  if (t fd).kind = .connected ∧ IsOpen t peer then
    Function.update t peer { t peer with peerFd := -1 }
  else t

def closed (t : Table) (fd : Int) : Table := Function.update (detach t fd) fd blankEntry

def listening (e : FdEntry) : FdEntry :=
  { e with kind := .listen, backlogHead := 0, backlogTail := 0, backlogCount := 0 }

def connecting (e : FdEntry) (port : UInt16) : FdEntry :=
  { e with kind := .connected, peerFd := -1, peerPort := port }

def pushBacklog (e : FdEntry) (fd : Int) : FdEntry :=
  { e with
    backlog := Function.update e.backlog e.backlogTail fd
    backlogTail := (e.backlogTail + 1) % backlogMax
    backlogCount := e.backlogCount + 1 }

def popBacklog (e : FdEntry) : FdEntry :=
  { e with
    backlogHead := (e.backlogHead + 1) % backlogMax
    backlogCount := e.backlogCount - 1 }

/-- The client number the next accept on this entry takes. -/
def nextClient (e : FdEntry) : Int := e.backlog e.backlogHead

def acceptedEntry (lst : FdEntry) (clientFd : Int) : FdEntry :=
  { blankEntry with
    kind := .connected
    domain := lst.domain
    type := lst.type
    proto := lst.proto
    localPort := lst.localPort
    peerFd := clientFd
    peerPort := 0 }

def queued (t : Table) (fd lfd : Int) (port : UInt16) : Table :=
  Function.update (Function.update t fd (connecting (t fd) port)) lfd (pushBacklog (t lfd) fd)

def minted (t : Table) (lfd newFd : Int) : Table :=
  Function.update (Function.update t lfd (popBacklog (t lfd))) newFd
    (acceptedEntry (t lfd) (nextClient (t lfd)))

def paired (t : Table) (lfd newFd : Int) : Table :=
  let clientFd := nextClient (t lfd)
  Function.update (minted t lfd newFd) clientFd
    { minted t lfd newFd clientFd with peerFd := newFd }

def live (e : FdEntry) : Int := e.rxTail - e.rxHead

def compacted (e : FdEntry) : FdEntry :=
  if e.rxHead = 0 then e
  else { e with rx := blit e.rx e.rx 0 e.rxHead (live e), rxTail := live e, rxHead := 0 }

/-- The prefix of a send that fits the room left. -/
def acceptable (e : FdEntry) (len : Int) : Int :=
  if len < rxbufSize - live e then len else rxbufSize - live e

def deposit (e : FdEntry) (data : Int → UInt8) (count : Int) : FdEntry :=
  { compacted e with
    rx := blit (compacted e).rx data (live e) 0 count
    rxTail := live e + count }

/-- The length of a receive: the request clamped to the payload, cut to what
is there. -/
def readable (e : FdEntry) (len : Int) : Int :=
  let want := if len < 0 then 0 else len
  let want := if netstackMaxPayload < want then netstackMaxPayload else want
  if live e < want then live e else want

def withdraw (e : FdEntry) (count : Int) : FdEntry :=
  if e.rxHead + count = e.rxTail then { e with rxHead := 0, rxTail := 0 }
  else { e with rxHead := e.rxHead + count }

/-! Reasons a request is refused, each with the code of its reply. -/

inductive Refusal (t : Table) (r : NetstackReq) : Int → Prop where
  | unknown (op : r.kind = .unknown) : Refusal t r netstackEnosys
  | socketFull (op : r.kind = .socket) (full : NoHit t isFree) : Refusal t r emfile
  | closeBad (op : r.kind = .close) (bad : ¬ IsOpen t r.u.close.sock) : Refusal t r netstackEbadf
  | bindBad (op : r.kind = .bind) (bad : ¬ IsOpen t r.u.bind.sock) : Refusal t r netstackEbadf
  | bindKind (op : r.kind = .bind) (valid : IsOpen t r.u.bind.sock)
      (kind : (t r.u.bind.sock).kind ≠ .unbound) : Refusal t r netstackEinval
  | bindUsed (op : r.kind = .bind) (valid : IsOpen t r.u.bind.sock)
      (used : ¬ NoHit t (holdsPort r.u.bind.port)) : Refusal t r netstackEaddrinuse
  | listenBad (op : r.kind = .listen) (bad : ¬ IsOpen t r.u.listen.sock) :
      Refusal t r netstackEbadf
  | listenKind (op : r.kind = .listen) (valid : IsOpen t r.u.listen.sock)
      (unfit : (t r.u.listen.sock).kind ≠ .unbound ∨ (t r.u.listen.sock).localPort = 0) :
      Refusal t r netstackEinval
  | connectBad (op : r.kind = .connect) (bad : ¬ IsOpen t r.u.connect.sock) :
      Refusal t r netstackEbadf
  | connectKind (op : r.kind = .connect) (valid : IsOpen t r.u.connect.sock)
      (kind : (t r.u.connect.sock).kind ≠ .unbound) : Refusal t r netstackEinval
  | connectNone (op : r.kind = .connect) (valid : IsOpen t r.u.connect.sock)
      (none : NoHit t (isListener r.u.connect.port)) : Refusal t r netstackEconnrefused
  | connectFull (op : r.kind = .connect) (lfd : Int)
      (route : FirstHit t (isListener r.u.connect.port) lfd)
      (full : backlogMax ≤ (t lfd).backlogCount) : Refusal t r netstackEagain
  | acceptBad (op : r.kind = .accept) (bad : ¬ IsOpen t r.u.accept.sock) :
      Refusal t r netstackEbadf
  | acceptKind (op : r.kind = .accept) (valid : IsOpen t r.u.accept.sock)
      (kind : (t r.u.accept.sock).kind ≠ .listen) : Refusal t r netstackEinval
  | acceptEmpty (op : r.kind = .accept) (valid : IsOpen t r.u.accept.sock)
      (kind : (t r.u.accept.sock).kind = .listen)
      (empty : (t r.u.accept.sock).backlogCount = 0) : Refusal t r netstackEagain
  | acceptFull (op : r.kind = .accept) (valid : IsOpen t r.u.accept.sock)
      (kind : (t r.u.accept.sock).kind = .listen)
      (waiting : (t r.u.accept.sock).backlogCount ≠ 0) (full : NoHit t isFree) :
      Refusal t r emfile
  | sendBad (op : r.kind = .send) (bad : ¬ IsOpen t r.u.send.sock) : Refusal t r netstackEbadf
  | sendAlone (op : r.kind = .send) (valid : IsOpen t r.u.send.sock)
      (alone : (t r.u.send.sock).kind ≠ .connected ∨ ¬ IsOpen t (t r.u.send.sock).peerFd) :
      Refusal t r netstackEnotconn
  | sendSize (op : r.kind = .send) (valid : IsOpen t r.u.send.sock)
      (size : r.u.send.lenIn < 0 ∨ netstackMaxPayload < r.u.send.lenIn) :
      Refusal t r netstackEmsgsize
  | sendFull (op : r.kind = .send) (valid : IsOpen t r.u.send.sock)
      (full : live (t (t r.u.send.sock).peerFd) = rxbufSize) : Refusal t r netstackEagain
  | recvBad (op : r.kind = .recv) (bad : ¬ IsOpen t r.u.recv.sock) : Refusal t r netstackEbadf
  | recvKind (op : r.kind = .recv) (valid : IsOpen t r.u.recv.sock)
      (kind : (t r.u.recv.sock).kind ≠ .connected) : Refusal t r netstackEnotconn
  | recvEmpty (op : r.kind = .recv) (valid : IsOpen t r.u.recv.sock)
      (kind : (t r.u.recv.sock).kind = .connected) (empty : live (t r.u.recv.sock) = 0)
      (peer : IsOpen t (t r.u.recv.sock).peerFd) : Refusal t r netstackEagain

theorem refusal_not_ok {t : Table} {r : NetstackReq} {code : Int} (why : Refusal t r code) :
    code ≠ netstackOk := by
  cases why <;> decide

theorem refused_not_ok {t : Table} {r reply : NetstackReq} {code : Int}
    (why : Refusal t r code) (err : reply.err = code) : ¬ reply.ok := by
  rw [NetstackReq.ok, err]
  exact refusal_not_ok why

inductive Outcome (t : Table) (r : NetstackReq) : Table → NetstackReq → Prop where
  | refused {code : Int} {reply : NetstackReq} (why : Refusal t r code) (err : reply.err = code) :
      Outcome t r t reply
  | passive {reply : NetstackReq} (op : r.kind = .ping ∨ r.kind = .shutdown) (ok : reply.ok) :
      Outcome t r t reply
  | opened {fd : Int} (op : r.kind = .socket) (first : FirstHit t isFree fd) :
      Outcome t r (Function.update t fd (socketEntry r.u.socket))
        { r with err := netstackOk, u.socket.sock := fd }
  | closed (op : r.kind = .close) (valid : IsOpen t r.u.close.sock) :
      Outcome t r (closed t r.u.close.sock) { r with err := netstackOk }
  | bound (op : r.kind = .bind) (valid : IsOpen t r.u.bind.sock)
      (kind : (t r.u.bind.sock).kind = .unbound) (unused : NoHit t (holdsPort r.u.bind.port)) :
      Outcome t r
        (Function.update t r.u.bind.sock { t r.u.bind.sock with localPort := r.u.bind.port })
        { r with err := netstackOk }
  | listening (op : r.kind = .listen) (valid : IsOpen t r.u.listen.sock)
      (kind : (t r.u.listen.sock).kind = .unbound) (port : (t r.u.listen.sock).localPort ≠ 0) :
      Outcome t r (Function.update t r.u.listen.sock (listening (t r.u.listen.sock)))
        { r with err := netstackOk }
  | queued {lfd : Int} (op : r.kind = .connect) (valid : IsOpen t r.u.connect.sock)
      (kind : (t r.u.connect.sock).kind = .unbound)
      (route : FirstHit t (isListener r.u.connect.port) lfd)
      (room : (t lfd).backlogCount < backlogMax) :
      Outcome t r (queued t r.u.connect.sock lfd r.u.connect.port) { r with err := netstackOk }
  | paired {newFd : Int} (op : r.kind = .accept) (valid : IsOpen t r.u.accept.sock)
      (kind : (t r.u.accept.sock).kind = .listen)
      (waiting : 0 < (t r.u.accept.sock).backlogCount) (first : FirstHit t isFree newFd) :
      Outcome t r (paired t r.u.accept.sock newFd)
        { r with
          err := netstackOk
          u.accept.newSock := newFd
          u.accept.peerPort := (t r.u.accept.sock).localPort }
  | sent (op : r.kind = .send) (valid : IsOpen t r.u.send.sock)
      (kind : (t r.u.send.sock).kind = .connected) (peer : IsOpen t (t r.u.send.sock).peerFd)
      (lower : 0 ≤ r.u.send.lenIn) (upper : r.u.send.lenIn ≤ netstackMaxPayload)
      (room : live (t (t r.u.send.sock).peerFd) < rxbufSize) :
      Outcome t r
        (Function.update t (t r.u.send.sock).peerFd
          (deposit (t (t r.u.send.sock).peerFd) r.u.send.data
            (acceptable (t (t r.u.send.sock).peerFd) r.u.send.lenIn)))
        { r with
          err := netstackOk
          u.send.lenOut := acceptable (t (t r.u.send.sock).peerFd) r.u.send.lenIn }
  | ended (op : r.kind = .recv) (valid : IsOpen t r.u.recv.sock)
      (kind : (t r.u.recv.sock).kind = .connected) (empty : live (t r.u.recv.sock) = 0)
      (peer : ¬ IsOpen t (t r.u.recv.sock).peerFd) :
      Outcome t r t { r with err := netstackOk, u.recv.lenOut := 0 }
  | received (op : r.kind = .recv) (valid : IsOpen t r.u.recv.sock)
      (kind : (t r.u.recv.sock).kind = .connected) (some_ : 0 < live (t r.u.recv.sock)) :
      Outcome t r
        (Function.update t r.u.recv.sock
          (withdraw (t r.u.recv.sock) (readable (t r.u.recv.sock) r.u.recv.lenIn)))
        { r with
          err := netstackOk
          u.recv.data := blit r.u.recv.data (t r.u.recv.sock).rx 0 (t r.u.recv.sock).rxHead
            (readable (t r.u.recv.sock) r.u.recv.lenIn)
          u.recv.lenOut := readable (t r.u.recv.sock) r.u.recv.lenIn }

/-! Each handler runs to an outcome. -/

theorem fdValid_false {t : Table} {fd : Int} (bad : ¬ IsOpen t fd) : fdValid t fd = .ok false := by
  rw [fdValid_eq, decide_eq_false bad]

theorem fdValid_true {t : Table} {fd : Int} (valid : IsOpen t fd) : fdValid t fd = .ok true := by
  rw [fdValid_eq, decide_eq_true valid]

theorem allocFd_cases (t : Table) :
    (allocFd t = .ok (t, -1) ∧ NoHit t isFree) ∨
      ∃ fd, allocFd t = .ok (Function.update t fd blankEntry, fd) ∧ FirstHit t isFree fd := by
  rcases firstFd_cases t isFree with ⟨scanned, none⟩ | ⟨fd, scanned, first⟩
  · refine Or.inl ⟨?_, none⟩
    unfold allocFd
    rw [scanned]
    rfl
  · refine Or.inr ⟨fd, ?_, first⟩
    have nonneg : ¬ fd < 0 := by
      have := first.1.1
      rw [fdFirst] at this
      omega
    unfold allocFd
    rw [scanned, ok_bind, if_neg nonneg, setEntry_ok _ first.1]
    rfl

theorem firstHit_nonneg {t : Table} {hit : FdEntry → Bool} {fd : Int}
    (first : FirstHit t hit fd) : ¬ fd < 0 := by
  have lower := ((inTable_iff fd).mp first.1).1
  omega

theorem socket_outcome (t : Table) (r : NetstackReq) (op : r.kind = .socket) :
    ∃ t' reply, fdtableDispatchSocket t r = .ok (t', reply) ∧ Outcome t r t' reply := by
  unfold fdtableDispatchSocket
  rcases allocFd_cases t with ⟨allocated, full⟩ | ⟨fd, allocated, first⟩
  · rw [allocated]
    exact ⟨_, _, rfl, .refused (.socketFull op full) rfl⟩
  · rw [allocated, ok_bind]
    simp only [firstHit_nonneg first, if_false, entryAt_ok first.1, setEntry_ok _ first.1, ok_bind,
      Function.update_self, Function.update_idem]
    exact ⟨_, _, rfl, .opened op first⟩

theorem clearPeer_eq (t : Table) (fd : Int) : clearPeer t (t fd) = .ok (detach t fd) := by
  unfold clearPeer
  by_cases kind : (t fd).kind = .connected
  · rw [if_neg (not_not_intro kind)]
    by_cases peer : IsOpen t (t fd).peerFd
    · have nonneg : ¬ (t fd).peerFd < 0 := by
        have lower := ((inTable_iff _).mp peer.1).1
        omega
      rw [if_neg nonneg, fdValid_true peer, ok_bind, entryAt_ok peer.1]
      simp only [Bool.not_true, Bool.false_eq_true, if_false, ok_bind, setEntry_ok _ peer.1, detach,
        kind, peer, and_self, if_true]
    · have kept : detach t fd = t := by simp [detach, peer]
      rw [fdValid_false peer, kept]
      by_cases negative : (t fd).peerFd < 0
      · rw [if_pos negative]; rfl
      · rw [if_neg negative]; rfl
  · have kept : detach t fd = t := by simp [detach, kind]
    rw [if_pos kind, kept]
    rfl

theorem close_outcome (t : Table) (r : NetstackReq) (op : r.kind = .close) :
    ∃ t' reply, fdtableDispatchClose t r = .ok (t', reply) ∧ Outcome t r t' reply := by
  unfold fdtableDispatchClose
  by_cases valid : IsOpen t r.u.close.sock
  · simp only [fdValid_true valid, ok_bind, Bool.not_true, Bool.false_eq_true, if_false,
      entryAt_ok valid.1, clearPeer_eq, setEntry_ok _ valid.1]
    exact ⟨_, _, rfl, .closed op valid⟩
  · simp only [fdValid_false valid, ok_bind]
    exact ⟨_, _, rfl, .refused (.closeBad op valid) rfl⟩

theorem portInUse_eq (t : Table) (port : UInt16) :
    (portInUse t port = .ok true ∧ ¬ NoHit t (holdsPort port)) ∨
      (portInUse t port = .ok false ∧ NoHit t (holdsPort port)) := by
  unfold portInUse
  rcases firstFd_cases t (holdsPort port) with ⟨scanned, none⟩ | ⟨fd, scanned, first⟩
  · rw [scanned]
    exact Or.inr ⟨rfl, none⟩
  · have lower := ((inTable_iff fd).mp first.1).1
    have nonneg : (0 : Int) ≤ fd := by omega
    rw [scanned, ok_bind, decide_eq_true nonneg]
    refine Or.inl ⟨rfl, ?_⟩
    intro none
    have missed := none fd first.1
    rw [first.2.1] at missed
    contradiction

theorem bind_outcome (t : Table) (r : NetstackReq) (op : r.kind = .bind) :
    ∃ t' reply, fdtableDispatchBind t r = .ok (t', reply) ∧ Outcome t r t' reply := by
  unfold fdtableDispatchBind
  by_cases valid : IsOpen t r.u.bind.sock
  · simp only [fdValid_true valid, ok_bind, Bool.not_true, Bool.false_eq_true, if_false,
      entryAt_ok valid.1, setEntry_ok _ valid.1]
    by_cases kind : (t r.u.bind.sock).kind = .unbound
    · rcases portInUse_eq t r.u.bind.port with ⟨scanned, used⟩ | ⟨scanned, unused⟩
      · rw [if_neg (not_not_intro kind), scanned]
        exact ⟨_, _, rfl, .refused (.bindUsed op valid used) rfl⟩
      · rw [if_neg (not_not_intro kind), scanned]
        exact ⟨_, _, rfl, .bound op valid kind unused⟩
    · rw [if_pos kind]
      exact ⟨_, _, rfl, .refused (.bindKind op valid kind) rfl⟩
  · simp only [fdValid_false valid, ok_bind]
    exact ⟨_, _, rfl, .refused (.bindBad op valid) rfl⟩

theorem listen_outcome (t : Table) (r : NetstackReq) (op : r.kind = .listen) :
    ∃ t' reply, fdtableDispatchListen t r = .ok (t', reply) ∧ Outcome t r t' reply := by
  unfold fdtableDispatchListen
  by_cases valid : IsOpen t r.u.listen.sock
  · simp only [fdValid_true valid, ok_bind, Bool.not_true, Bool.false_eq_true, if_false,
      entryAt_ok valid.1, setEntry_ok _ valid.1]
    by_cases unfit : (t r.u.listen.sock).kind ≠ .unbound ∨ (t r.u.listen.sock).localPort = 0
    · rw [if_pos unfit]
      exact ⟨_, _, rfl, .refused (.listenKind op valid unfit) rfl⟩
    · rw [if_neg unfit]
      obtain ⟨kind, port⟩ := not_or.mp unfit
      exact ⟨_, _, rfl, .listening op valid (not_not.mp kind) port⟩
  · simp only [fdValid_false valid, ok_bind]
    exact ⟨_, _, rfl, .refused (.listenBad op valid) rfl⟩

theorem firstHit_congr {t t' : Table} {hit : FdEntry → Bool} (same : ∀ k, hit (t' k) = hit (t k))
    {fd : Int} : FirstHit t' hit fd ↔ FirstHit t hit fd := by
  simp only [FirstHit, same]

theorem noHit_congr {t t' : Table} {hit : FdEntry → Bool} (same : ∀ k, hit (t' k) = hit (t k)) :
    NoHit t' hit ↔ NoHit t hit := by
  simp only [NoHit, same]

theorem isFree_update {t : Table} {fd : Int} {e : FdEntry} (same : e.kind = (t fd).kind) (k : Int) :
    isFree (Function.update t fd e k) = isFree (t k) := by
  by_cases here : k = fd
  · subst k
    simp [isFree, same]
  · simp [here]

theorem listener_kind {t : Table} {port : UInt16} {lfd : Int}
    (route : FirstHit t (isListener port) lfd) :
    (t lfd).kind = .listen ∧ (t lfd).localPort = port := by
  simpa [isListener] using route.2.1

theorem connect_outcome {t : Table} (bounded : Bounded t) (r : NetstackReq)
    (op : r.kind = .connect) :
    ∃ t' reply, fdtableDispatchConnect t r = .ok (t', reply) ∧ Outcome t r t' reply := by
  unfold fdtableDispatchConnect
  by_cases valid : IsOpen t r.u.connect.sock
  · simp only [fdValid_true valid, ok_bind, Bool.not_true, Bool.false_eq_true, if_false,
      entryAt_ok valid.1, setEntry_ok _ valid.1]
    by_cases kind : (t r.u.connect.sock).kind = .unbound
    · rw [if_neg (not_not_intro kind)]
      unfold findListener
      rcases firstFd_cases t (isListener r.u.connect.port) with
        ⟨scanned, none⟩ | ⟨lfd, scanned, route⟩
      · rw [scanned]
        exact ⟨_, _, rfl, .refused (.connectNone op valid none) rfl⟩
      · rw [scanned, ok_bind, if_neg (firstHit_nonneg route), entryAt_ok route.1, ok_bind]
        by_cases full : backlogMax ≤ (t lfd).backlogCount
        · rw [if_pos full]
          exact ⟨_, _, rfl, .refused (.connectFull op lfd route full) rfl⟩
        · -- The listener is not the socket that connects: their kinds differ.
          have apart : lfd ≠ r.u.connect.sock :=
            kinds_apart (listener_kind route).1 kind (by decide)
          have tail := (bounded.entries lfd).tail_range
          rw [if_neg full]
          simp only [entryAt_ok route.1, ok_bind, Function.update_of_ne apart,
            setBacklog_ok _ tail.1 tail.2, setEntry_ok _ route.1]
          exact ⟨_, _, rfl, .queued op valid kind route (by omega)⟩
    · rw [if_pos kind]
      exact ⟨_, _, rfl, .refused (.connectKind op valid kind) rfl⟩
  · simp only [fdValid_false valid, ok_bind]
    exact ⟨_, _, rfl, .refused (.connectBad op valid) rfl⟩

/-- The undo of `fdtable_dispatch_accept`: the head steps back to where it was
and the slot it finds still holds the client. -/
theorem restored_head {e : FdEntry} (range : 0 ≤ e.backlogHead ∧ e.backlogHead < backlogMax) :
    ((popBacklog e).backlogHead + backlogMax - 1) % backlogMax = e.backlogHead := by
  simp only [popBacklog, backlogMax] at range ⊢
  omega

theorem restored_entry (e : FdEntry) :
    ({ popBacklog e with
        backlogHead := e.backlogHead
        backlog := Function.update (popBacklog e).backlog e.backlogHead (nextClient e)
        backlogCount := (popBacklog e).backlogCount + 1 } : FdEntry) = e := by
  simp [popBacklog, nextClient]

theorem nextClient_inTable {e : FdEntry} (bounded : EntryBounded e)
    (waiting : e.backlogCount ≠ 0) : InTable (nextClient e) := by
  obtain ⟨lower, upper⟩ := bounded.head_range
  have positive : 0 < e.backlogCount := by
    have := bounded.count_range.1
    omega
  have head : (e.backlogHead + 0) % backlogMax = e.backlogHead := by
    simp only [backlogMax] at upper ⊢
    omega
  have first := bounded.pending 0 (Int.le_refl 0) positive
  rw [head] at first
  exact first

theorem minted_apply (t : Table) (lfd newFd fd : Int) :
    minted t lfd newFd fd =
      if fd = newFd then acceptedEntry (t lfd) (nextClient (t lfd))
      else if fd = lfd then popBacklog (t lfd) else t fd := by
  simp only [minted, Function.update_apply]

-- The last write of an accept touches one field of one entry.
theorem paired_apply (t : Table) (lfd newFd fd : Int) :
    paired t lfd newFd fd =
      { minted t lfd newFd fd with
        peerFd := if fd = nextClient (t lfd) then newFd else (minted t lfd newFd fd).peerFd } := by
  by_cases here : fd = nextClient (t lfd)
  · subst fd
    simp [paired]
  · simp [paired, here]

theorem accept_outcome {t : Table} (bounded : Bounded t) (r : NetstackReq)
    (op : r.kind = .accept) :
    ∃ t' reply, fdtableDispatchAccept t r = .ok (t', reply) ∧ Outcome t r t' reply := by
  unfold fdtableDispatchAccept
  by_cases valid : IsOpen t r.u.accept.sock
  · simp only [fdValid_true valid, ok_bind, Bool.not_true, Bool.false_eq_true, if_false,
      entryAt_ok valid.1, setEntry_ok _ valid.1]
    by_cases kind : (t r.u.accept.sock).kind = .listen
    · rw [if_neg (not_not_intro kind)]
      by_cases empty : (t r.u.accept.sock).backlogCount = 0
      · rw [if_pos empty]
        exact ⟨_, _, rfl, .refused (.acceptEmpty op valid kind empty) rfl⟩
      · have entry := bounded.entries r.u.accept.sock
        have client := nextClient_inTable entry empty
        have waiting : 0 < (t r.u.accept.sock).backlogCount := by
          have := entry.count_range.1
          omega
        let popped := Function.update t r.u.accept.sock (popBacklog (t r.u.accept.sock))
        have sameFree : ∀ k, isFree (popped k) = isFree (t k) := isFree_update rfl
        rw [if_neg empty, backlogAt_ok entry.head_range.1 entry.head_range.2, ok_bind]
        change ∃ t' reply, (allocFd popped >>= _) = _ ∧ _
        rcases allocFd_cases popped with ⟨allocated, full⟩ | ⟨newFd, allocated, first⟩
        · -- The table is full: the pop is undone and the table is the old one.
          have noRoom := (noHit_congr sameFree).mp full
          have read : popped r.u.accept.sock = popBacklog (t r.u.accept.sock) :=
            Function.update_self ..
          have undone : Function.update popped r.u.accept.sock (t r.u.accept.sock) = t := by
            rw [Function.update_idem, Function.update_eq_self]
          have head : ((popBacklog (t r.u.accept.sock)).backlogHead + backlogMax - 1) % backlogMax =
              (t r.u.accept.sock).backlogHead := restored_head entry.head_range
          refine ⟨t, { r with err := emfile, u.accept.newSock := -1 }, ?_,
            .refused (.acceptFull op valid kind empty noRoom) rfl⟩
          have failed : (-1 : Int) < 0 := by decide
          simp only [allocated, ok_bind, read, head, failed, if_true,
            setBacklog_ok _ entry.head_range.1 entry.head_range.2]
          have whole := restored_entry (t r.u.accept.sock)
          simp only [nextClient] at whole
          rw [whole, undone]
          rfl
        · have fresh := (firstHit_congr sameFree).mp first
          have apart : r.u.accept.sock ≠ newFd := by
            intro same
            have free := fresh.2.1
            rw [← same] at free
            simp [isFree, kind] at free
          have listener : Function.update popped newFd blankEntry r.u.accept.sock =
              popBacklog (t r.u.accept.sock) := by
            rw [Function.update_of_ne apart]
            exact Function.update_self ..
          have port : (paired t r.u.accept.sock newFd r.u.accept.sock).localPort =
              (t r.u.accept.sock).localPort := by
            simp [paired_apply, minted_apply, apart, popBacklog]
          simp only [allocated, ok_bind, listener, firstHit_nonneg fresh, if_false,
            entryAt_ok fresh.1, setEntry_ok _ fresh.1, Function.update_self, Function.update_idem]
          rw [show entryAt _ ((t r.u.accept.sock).backlog (t r.u.accept.sock).backlogHead) = _ from
            entryAt_ok client, ok_bind, show setEntry _
            ((t r.u.accept.sock).backlog (t r.u.accept.sock).backlogHead) _ = _ from
            setEntry_ok _ client, ok_bind]
          refine ⟨paired t r.u.accept.sock newFd, _, ?_, .paired op valid kind waiting fresh⟩
          rw [← port]
          rfl
    · rw [if_pos kind]
      exact ⟨_, _, rfl, .refused (.acceptKind op valid kind) rfl⟩
  · simp only [fdValid_false valid, ok_bind]
    exact ⟨_, _, rfl, .refused (.acceptBad op valid) rfl⟩

theorem compacted_rxHead (e : FdEntry) : (compacted e).rxHead = 0 := by
  by_cases start : e.rxHead = 0 <;> simp [compacted, start]

theorem compacted_rxTail (e : FdEntry) : (compacted e).rxTail = live e := by
  by_cases start : e.rxHead = 0 <;> simp [compacted, start, live]

theorem live_range {e : FdEntry} (bounded : EntryBounded e) : 0 ≤ live e ∧ live e ≤ 4096 := by
  have head := bounded.rx_head
  have order := bounded.rx_order
  have tail := bounded.rx_tail
  simp only [live, rxbufSize] at *
  omega

/-- Only a buffer that starts at its first cell can be full, so a send that
finds no room has compacted nothing. -/
theorem compacted_full {e : FdEntry} (bounded : EntryBounded e) (full : live e = rxbufSize) :
    compacted e = e := by
  have head := bounded.rx_head
  have tail := bounded.rx_tail
  have start : e.rxHead = 0 := by
    simp only [live] at full
    omega
  simp [compacted, start]

theorem rxCompact_eq {e : FdEntry} (bounded : EntryBounded e) :
    rxCompact e = .ok (compacted e) := by
  unfold rxCompact compacted
  by_cases start : e.rxHead = 0
  · rw [if_pos start, if_pos start]
    rfl
  · have head := bounded.rx_head
    have order := bounded.rx_order
    have tail := bounded.rx_tail
    have undrained : e.rxHead ≠ e.rxTail := fun same => start (bounded.drained same).1
    have some_ : 0 < e.rxTail - e.rxHead := by omega
    simp only [rxbufSize] at tail
    rw [if_neg start, if_neg start]
    simp only [some_, if_true, ok_bind, checkRx_ok head (by omega : 0 ≤ e.rxTail - e.rxHead)
      (by omega), checkRx_ok (Int.le_refl 0) (by omega : 0 ≤ e.rxTail - e.rxHead) (by omega)]
    rfl

theorem acceptable_range {e : FdEntry} (bounded : EntryBounded e) {len : Int} (lower : 0 ≤ len) :
    0 ≤ acceptable e len ∧ acceptable e len ≤ len ∧ live e + acceptable e len ≤ 4096 := by
  have range := live_range bounded
  unfold acceptable
  simp only [rxbufSize]
  split_ifs <;> omega

theorem send_outcome {t : Table} (bounded : Bounded t) (r : NetstackReq) (op : r.kind = .send) :
    ∃ t' reply, fdtableDispatchSend t r = .ok (t', reply) ∧ Outcome t r t' reply := by
  unfold fdtableDispatchSend
  by_cases valid : IsOpen t r.u.send.sock
  · simp only [fdValid_true valid, ok_bind, Bool.not_true, Bool.false_eq_true, if_false,
      entryAt_ok valid.1]
    by_cases alone : (t r.u.send.sock).kind ≠ .connected ∨ (t r.u.send.sock).peerFd < 0
    · rw [if_pos alone]
      have reason : (t r.u.send.sock).kind ≠ .connected ∨ ¬ IsOpen t (t r.u.send.sock).peerFd := by
        refine alone.imp id ?_
        rintro negative ⟨inside, _⟩
        have lower := ((inTable_iff _).mp inside).1
        omega
      exact ⟨_, _, rfl, .refused (.sendAlone op valid reason) rfl⟩
    · rw [if_neg alone]
      have kind := not_not.mp (not_or.mp alone).1
      by_cases peer : IsOpen t (t r.u.send.sock).peerFd
      · simp only [fdValid_true peer, ok_bind, Bool.not_true, Bool.false_eq_true, if_false]
        by_cases size : r.u.send.lenIn < 0 ∨ netstackMaxPayload < r.u.send.lenIn
        · rw [if_pos size]
          exact ⟨_, _, rfl, .refused (.sendSize op valid size) rfl⟩
        · have entry := bounded.entries (t r.u.send.sock).peerFd
          have lower : 0 ≤ r.u.send.lenIn := by omega
          have upper : r.u.send.lenIn ≤ netstackMaxPayload := by omega
          rw [if_neg size]
          simp only [entryAt_ok peer.1, ok_bind, rxCompact_eq entry, compacted_rxTail,
            setEntry_ok _ peer.1]
          have range := live_range entry
          by_cases full : rxbufSize - live (t (t r.u.send.sock).peerFd) ≤ 0
          · have exactly : live (t (t r.u.send.sock).peerFd) = rxbufSize := by
              simp only [rxbufSize] at full ⊢
              omega
            rw [if_pos full, compacted_full entry exactly, Function.update_eq_self]
            exact ⟨_, _, rfl, .refused (.sendFull op valid exactly) rfl⟩
          · have room : live (t (t r.u.send.sock).peerFd) < rxbufSize := by omega
            have fits := acceptable_range entry lower
            have within := Int.le_trans fits.2.1 upper
            simp only [acceptable] at fits within
            rw [if_neg full, checkData_ok fits.1 within, ok_bind,
              checkRx_ok range.1 fits.1 fits.2.2, ok_bind]
            exact ⟨_, _, rfl, .sent op valid kind peer lower upper room⟩
      · simp only [fdValid_false peer, ok_bind]
        exact ⟨_, _, rfl, .refused (.sendAlone op valid (Or.inr peer)) rfl⟩
  · simp only [fdValid_false valid, ok_bind]
    exact ⟨_, _, rfl, .refused (.sendBad op valid) rfl⟩

theorem readable_range {e : FdEntry} (bounded : EntryBounded e) (len : Int) :
    0 ≤ readable e len ∧ readable e len ≤ live e ∧ readable e len ≤ 1024 := by
  have range := live_range bounded
  simp only [readable, netstackMaxPayload]
  split_ifs <;> omega

theorem recv_outcome {t : Table} (bounded : Bounded t) (r : NetstackReq) (op : r.kind = .recv) :
    ∃ t' reply, fdtableDispatchRecv t r = .ok (t', reply) ∧ Outcome t r t' reply := by
  unfold fdtableDispatchRecv
  by_cases valid : IsOpen t r.u.recv.sock
  · simp only [fdValid_true valid, ok_bind, Bool.not_true, Bool.false_eq_true, if_false,
      entryAt_ok valid.1]
    by_cases kind : (t r.u.recv.sock).kind = .connected
    · rw [if_neg (not_not_intro kind)]
      have entry := bounded.entries r.u.recv.sock
      have range := live_range entry
      by_cases empty : (t r.u.recv.sock).rxTail - (t r.u.recv.sock).rxHead ≤ 0
      · have nothing : live (t r.u.recv.sock) = 0 := by
          simp only [live] at range ⊢
          omega
        rw [if_pos empty]
        by_cases peer : IsOpen t (t r.u.recv.sock).peerFd
        · have nonneg : ¬ (t r.u.recv.sock).peerFd < 0 := by
            have lower := ((inTable_iff _).mp peer.1).1
            omega
          simp only [nonneg, if_false, fdValid_true peer, ok_bind]
          exact ⟨_, _, rfl, .refused (.recvEmpty op valid kind nothing peer) rfl⟩
        · simp only [fdValid_false peer, ok_bind]
          refine ⟨_, _, ?_, .ended op valid kind nothing peer⟩
          by_cases negative : (t r.u.recv.sock).peerFd < 0
          · rw [if_pos negative]; rfl
          · rw [if_neg negative]; rfl
      · have some_ : 0 < live (t r.u.recv.sock) := by
          simp only [live]
          omega
        have fits := readable_range entry r.u.recv.lenIn
        have inside :
            (t r.u.recv.sock).rxHead + readable (t r.u.recv.sock) r.u.recv.lenIn ≤ 4096 := by
          have tail := entry.rx_tail
          have short := fits.2.1
          simp only [live, rxbufSize] at tail short
          omega
        rw [if_neg empty]
        refine ⟨_, _, ?_, .received op valid kind some_⟩
        change (checkRx _ (readable (t r.u.recv.sock) r.u.recv.lenIn) >>= _) = _
        rw [checkRx_ok entry.rx_head fits.1 inside, ok_bind]
        change (checkData 0 (readable (t r.u.recv.sock) r.u.recv.lenIn) >>= _) = _
        rw [checkData_ok fits.1 fits.2.2, ok_bind, setEntry_ok _ valid.1]
        rfl
    · rw [if_pos kind]
      exact ⟨_, _, rfl, .refused (.recvKind op valid kind) rfl⟩
  · simp only [fdValid_false valid, ok_bind]
    exact ⟨_, _, rfl, .refused (.recvBad op valid) rfl⟩

/-- One call of `dispatch_request` on a bounded table makes no access outside
an array and ends in an outcome. -/
theorem dispatch_outcome {s : Engine} (bounded : Bounded s.table) (r : NetstackReq) :
    ∃ s' reply, dispatchRequest s r = .ok (s', reply) ∧ Outcome s.table r s'.table reply := by
  have lift : ∀ {result : Except Fault (Table × NetstackReq)},
      (∃ t' reply, result = .ok (t', reply) ∧ Outcome s.table r t' reply) →
      ∃ s' reply, s.onTable result = .ok (s', reply) ∧ Outcome s.table r s'.table reply := by
    rintro result ⟨t', reply, rfl, outcome⟩
    exact ⟨{ s with table := t' }, reply, rfl, outcome⟩
  unfold dispatchRequest
  cases op : r.kind with
  | ping => exact ⟨_, _, rfl, .passive (Or.inl op) rfl⟩
  | shutdown => exact ⟨_, _, rfl, .passive (Or.inr op) rfl⟩
  | socket => exact lift (socket_outcome s.table r op)
  | bind => exact lift (bind_outcome s.table r op)
  | connect => exact lift (connect_outcome bounded r op)
  | listen => exact lift (listen_outcome s.table r op)
  | accept => exact lift (accept_outcome bounded r op)
  | send => exact lift (send_outcome bounded r op)
  | recv => exact lift (recv_outcome bounded r op)
  | close => exact lift (close_outcome s.table r op)
  | unknown => exact ⟨_, _, rfl, .refused (.unknown op) rfl⟩

theorem outcome_of_dispatch {s s' : Engine} {r reply : NetstackReq} (bounded : Bounded s.table)
    (ran : dispatchRequest s r = .ok (s', reply)) : Outcome s.table r s'.table reply := by
  obtain ⟨found, answer, result, outcome⟩ := dispatch_outcome bounded r
  rw [ran] at result
  cases result
  exact outcome

end Netstack.FdTable
