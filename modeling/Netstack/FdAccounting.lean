import Mathlib.Data.Finset.Card
import Mathlib.Order.Bounds.Defs
import Netstack.FdBounds

/-!
Descriptor accounting. An onlooker who sees only requests and replies keeps a
set: a successful socket or accept adds the number it returned, a successful
close takes its number away. In every state of every run this set is the set of
open entries, so the numbers `alloc_fd` hands out are conserved although the
table recycles them and `accept` writes into an entry by a number that may be
stale.
-/

namespace Netstack.FdTable

open Ipc Client Transition

def openFds (t : Table) : Finset Int := tableFds.toFinset.filter fun fd => (t fd).kind ≠ .free

/-- The numbers handed out and not yet closed, as the replies tell them. -/
def outstanding (fds : Finset Int) (move : Move Engine Exchange) : Finset Int :=
  if move.label.reply.ok then
    match move.label.req.kind with
    | .socket => insert move.label.reply.u.socket.sock fds
    | .accept => insert move.label.reply.u.accept.newSock fds
    | .close => fds.erase move.label.req.u.close.sock
    | _ => fds
  else fds

/-- The reply fails exactly when every number is taken, and then with EMFILE. -/
def FailsWhenFull (t : Table) (reply : NetstackReq) : Prop :=
  (¬ reply.ok ↔ (openFds t).card = 125) ∧ (¬ reply.ok → reply.err = emfile)

/-- The number a reply returns: the smallest that is not open. -/
def LowestUnopened (t : Table) (fd : Int) : Prop := IsLeast {k | fdFirst ≤ k ∧ k ∉ openFds t} fd

/-- Nothing of an earlier use of the entry is left. -/
structure FreshSocket (e : FdEntry) : Prop where
  kind : e.kind = .unbound
  rx_empty : e.rxHead = 0 ∧ e.rxTail = 0
  no_peer : e.peerFd = -1
  no_port : e.localPort = 0 ∧ e.peerPort = 0
  no_pending : e.backlogCount = 0

structure Accounted (t : Table) (r : NetstackReq) (t' : Table) (reply : NetstackReq) : Prop where
  socket_full : r.kind = .socket → FailsWhenFull t reply
  socket_lowest : r.kind = .socket → reply.ok → LowestUnopened t reply.u.socket.sock
  socket_fresh : r.kind = .socket → reply.ok → FreshSocket (t' reply.u.socket.sock)
  accept_full : r.kind = .accept → r.u.accept.sock ∈ openFds t →
    (t r.u.accept.sock).kind = .listen → 0 < (t r.u.accept.sock).backlogCount →
    FailsWhenFull t reply
  accept_lowest : r.kind = .accept → reply.ok → LowestUnopened t reply.u.accept.newSock
  close_open : r.kind = .close → (reply.ok ↔ r.u.close.sock ∈ openFds t)

/-! The open entries as a set. -/

@[simp] theorem mem_openFds {t : Table} {fd : Int} : fd ∈ openFds t ↔ IsOpen t fd := by
  rw [openFds, Finset.mem_filter, List.mem_toFinset, mem_tableFds]
  rfl

theorem openFds_congr {t t' : Table} (same : ∀ fd, (t' fd).kind = (t fd).kind) :
    openFds t' = openFds t := by
  ext fd
  simp only [mem_openFds, IsOpen, same]

theorem openFds_insert {t : Table} {fd : Int} (inside : InTable fd) {e : FdEntry}
    (used : e.kind ≠ .free) : openFds (Function.update t fd e) = insert fd (openFds t) := by
  ext other
  rw [Finset.mem_insert, mem_openFds, mem_openFds]
  by_cases here : other = fd
  · subst other
    simpa [IsOpen, inside] using used
  · simp [IsOpen, here]

-- A write to an open entry that leaves it open changes no number.
theorem openFds_write {t : Table} {fd : Int} (valid : IsOpen t fd) {e : FdEntry}
    (used : e.kind ≠ .free) : openFds (Function.update t fd e) = openFds t := by
  rw [openFds_insert valid.1 used, Finset.insert_eq_of_mem (mem_openFds.mpr valid)]

theorem openFds_closed (t : Table) (fd : Int) :
    openFds (closed t fd) = (openFds t).erase fd := by
  ext other
  rw [Finset.mem_erase, mem_openFds, mem_openFds]
  by_cases here : other = fd
  · subst other
    simp [closed, IsOpen, blankEntry, zeroEntry]
  · simp [closed, IsOpen, here, detach_kind]

theorem openFds_queued {t : Table} {fd lfd : Int} {port : UInt16} (valid : IsOpen t fd)
    (route : FirstHit t (isListener port) lfd) : openFds (queued t fd lfd port) = openFds t := by
  have listens := (listener_kind route).1
  have joined : openFds (Function.update t fd (connecting (t fd) port)) = openFds t :=
    openFds_write valid (by simp [connecting])
  have listener : IsOpen t lfd := isOpen_of_kind route.1 listens (by decide)
  rw [← mem_openFds, ← joined, mem_openFds] at listener
  rw [queued, openFds_write listener (by simp [pushBacklog, listens]), joined]

/-- The client an accept names may be closed, or be the entry just minted: the
write gives it a peer and leaves its kind, so only the minted number is new. -/
theorem openFds_paired {t : Table} {lfd newFd : Int} (valid : IsOpen t lfd)
    (inside : InTable newFd) : openFds (paired t lfd newFd) = insert newFd (openFds t) := by
  have kinds : ∀ fd, (paired t lfd newFd fd).kind = (minted t lfd newFd fd).kind := by
    intro fd
    rw [paired_apply]
  have popped : openFds (Function.update t lfd (popBacklog (t lfd))) = openFds t :=
    openFds_write valid valid.2
  rw [openFds_congr kinds, minted, openFds_insert inside (by simp [acceptedEntry]), popped]

/-- What one request does to the open entries is what its reply says. -/
theorem outcome_outstanding {s s' : Engine} {x : Exchange}
    (outcome : Outcome s.table x.req s'.table x.reply) :
    outstanding (openFds s.table) ⟨s, x, s'⟩ = openFds s'.table := by
  obtain ⟨r, reply⟩ := x
  obtain ⟨t, halted⟩ := s
  obtain ⟨t', halted'⟩ := s'
  dsimp only at outcome ⊢
  have other (op : r.kind ≠ .socket ∧ r.kind ≠ .accept ∧ r.kind ≠ .close)
      (same : openFds t' = openFds t) :
      outstanding (openFds t) ⟨⟨t, halted⟩, ⟨r, reply⟩, ⟨t', halted'⟩⟩ = openFds t' := by
    rw [same]
    unfold outstanding
    dsimp only
    split
    · split <;> simp_all
    · rfl
  cases outcome with
  | refused why err => exact if_neg (refused_not_ok why err)
  | passive op ok => exact other (by rcases op with op | op <;> simp [op]) rfl
  | opened op first =>
      rw [openFds_insert first.1 (by simp [socketEntry])]
      simp [outstanding, NetstackReq.ok, op]
  | closed op valid =>
      rw [openFds_closed]
      simp [outstanding, NetstackReq.ok, op]
  | bound op valid kind unused =>
      exact other (by simp [op]) (openFds_write valid valid.2)
  | listening op valid kind port =>
      exact other (by simp [op]) (openFds_write valid (by simp [listening]))
  | queued op valid kind route room => exact other (by simp [op]) (openFds_queued valid route)
  | paired op valid kind waiting first =>
      rw [openFds_paired valid first.1]
      simp [outstanding, NetstackReq.ok, op]
  | sent op valid kind peer lower upper room =>
      exact other (by simp [op]) (openFds_write peer (by rw [deposit_kind]; exact peer.2))
  | ended op valid kind empty peer => exact other (by simp [op]) rfl
  | received op valid kind some_ =>
      exact other (by simp [op]) (openFds_write valid (by rw [withdraw_kind]; exact valid.2))

theorem run_outstanding {history : History} {s : Engine} (run : Run history s) :
    history.foldl outstanding ∅ = openFds s.table := by
  induction run with
  | nil =>
      have none : openFds initial.table = ∅ := by
        ext fd
        simp [IsOpen, initial, zeroEntry]
      exact none.symm
  | snoc past served ih =>
      rw [List.foldl_append, ih]
      exact outcome_outstanding (run_outcome past served)

/-! What the replies to socket, accept and close say about the open entries. -/

theorem tableFds_card : tableFds.toFinset.card = 125 := by
  have distinct : tableFds.Nodup := by
    refine List.nodup_range.map ?_
    intro first second same
    dsimp only at same
    omega
  rw [List.toFinset_card_of_nodup distinct, tableFds, List.length_map, List.length_range]

theorem noFree_iff_full (t : Table) : NoHit t isFree ↔ (openFds t).card = 125 := by
  constructor
  · intro full
    have whole : openFds t = tableFds.toFinset := by
      apply Finset.filter_true_of_mem
      intro fd member
      simpa [isFree] using full fd (mem_tableFds.mp (List.mem_toFinset.mp member))
    rw [whole, tableFds_card]
  · intro full fd inside
    have whole : openFds t = tableFds.toFinset :=
      Finset.eq_of_subset_of_card_le (Finset.filter_subset _ _) (by rw [full, tableFds_card])
    have member : fd ∈ openFds t := by
      rw [whole]
      exact List.mem_toFinset.mpr (mem_tableFds.mpr inside)
    simpa [isFree] using (mem_openFds.mp member).2

theorem firstFree_not_full {t : Table} {fd : Int} (first : FirstHit t isFree fd) :
    ¬ NoHit t isFree := by
  intro full
  have missed := full fd first.1
  rw [first.2.1] at missed
  contradiction

theorem firstFree_lowest {t : Table} {fd : Int} (first : FirstHit t isFree fd) :
    LowestUnopened t fd := by
  obtain ⟨inside, free, earlier⟩ := first
  refine ⟨⟨inside.1, ?_⟩, ?_⟩
  · rw [mem_openFds]
    rintro ⟨_, used⟩
    simp [isFree, used] at free
  · rintro other ⟨lower, unopened⟩
    by_contra below
    have smaller : other < fd := by omega
    have taken : (t other).kind ≠ .free := by simpa [isFree] using earlier other lower smaller
    have within : InTable other := ⟨lower, Int.lt_trans smaller inside.2⟩
    exact unopened (mem_openFds.mpr ⟨within, taken⟩)

theorem failsWhenFull_of_full {t : Table} {reply : NetstackReq} (full : NoHit t isFree)
    (err : reply.err = emfile) : FailsWhenFull t reply := by
  have failed : ¬ reply.ok := by
    rw [NetstackReq.ok, err]
    decide
  exact ⟨iff_of_true failed ((noFree_iff_full t).mp full), fun _ => err⟩

theorem failsWhenFull_of_first {t : Table} {reply : NetstackReq} {fd : Int}
    (first : FirstHit t isFree fd) (ok : reply.ok) : FailsWhenFull t reply := by
  have room : (openFds t).card ≠ 125 := fun full =>
    firstFree_not_full first ((noFree_iff_full t).mpr full)
  exact ⟨iff_of_false (not_not_intro ok) room, fun failed => absurd ok failed⟩

theorem socketEntry_fresh (b : SocketBody) : FreshSocket (socketEntry b) := by
  constructor <;> simp [socketEntry, blankEntry, zeroEntry]

theorem socket_accounted {t t' : Table} {r reply : NetstackReq} (op : r.kind = .socket)
    (outcome : Outcome t r t' reply) :
    FailsWhenFull t reply ∧ (reply.ok →
      LowestUnopened t reply.u.socket.sock ∧ FreshSocket (t' reply.u.socket.sock)) := by
  cases outcome with
  | refused why err =>
      cases why with
      | socketFull _ full =>
          have fails := failsWhenFull_of_full full err
          exact ⟨fails, fun ok => absurd ok (fails.1.mpr ((noFree_iff_full t).mp full))⟩
      | _ => simp_all
  | opened _ first =>
      refine ⟨failsWhenFull_of_first first rfl, fun _ => ⟨firstFree_lowest first, ?_⟩⟩
      dsimp only
      rw [Function.update_self]
      exact socketEntry_fresh _
  | _ => simp_all

theorem accept_accounted {t t' : Table} {r reply : NetstackReq} (op : r.kind = .accept)
    (outcome : Outcome t r t' reply) :
    (IsOpen t r.u.accept.sock → (t r.u.accept.sock).kind = .listen →
        0 < (t r.u.accept.sock).backlogCount → FailsWhenFull t reply) ∧
      (reply.ok → LowestUnopened t reply.u.accept.newSock) := by
  cases outcome with
  | refused why err =>
      have failed := refused_not_ok why err
      refine ⟨?_, fun ok => absurd ok failed⟩
      intro valid kind waiting
      cases why with
      | acceptFull _ _ _ _ full => exact failsWhenFull_of_full full err
      | acceptEmpty _ _ _ empty => omega
      | _ => simp_all
  | paired _ _ _ _ first =>
      exact ⟨fun _ _ _ => failsWhenFull_of_first first rfl, fun _ => firstFree_lowest first⟩
  | _ => simp_all

theorem close_accounted {t t' : Table} {r reply : NetstackReq} (op : r.kind = .close)
    (outcome : Outcome t r t' reply) : reply.ok ↔ IsOpen t r.u.close.sock := by
  cases outcome with
  | refused why err =>
      have failed := refused_not_ok why err
      cases why with
      | closeBad _ bad => exact iff_of_false failed bad
      | _ => simp_all
  | closed _ valid => exact iff_of_true rfl valid
  | _ => simp_all

theorem outcome_accounted {t t' : Table} {r reply : NetstackReq}
    (outcome : Outcome t r t' reply) : Accounted t r t' reply := by
  constructor
  · exact fun op => (socket_accounted op outcome).1
  · exact fun op ok => ((socket_accounted op outcome).2 ok).1
  · exact fun op ok => ((socket_accounted op outcome).2 ok).2
  · intro op member kind waiting
    exact (accept_accounted op outcome).1 (mem_openFds.mp member) kind waiting
  · exact fun op ok => (accept_accounted op outcome).2 ok
  · intro op
    rw [mem_openFds]
    exact close_accounted op outcome

/-- The numbers handed out and not closed are the open entries, and the next
request of any kind answers by them. -/
theorem descriptors_accounted (history : History) (s : Engine) (run : Run history s) :
    history.foldl outstanding ∅ = openFds s.table ∧
      ∀ r, ∃ s' reply, dispatchRequest s r = .ok (s', reply) ∧
        Accounted s.table r s'.table reply := by
  refine ⟨run_outstanding run, ?_⟩
  intro r
  obtain ⟨s', reply, ran, outcome⟩ := dispatch_outcome (run_bounded run) r
  exact ⟨s', reply, ran, outcome_accounted outcome⟩

-- Number 4 is closed while it waits, and the accept hands it out again.
theorem recycled_client_accounted :
    openFds (stateAfter initial abandonedConnect).table = {3, 4} ∧
      (historyOf initial abandonedConnect).foldl outstanding ∅ =
        openFds (stateAfter initial abandonedConnect).table := by
  have told : (historyOf initial abandonedConnect).foldl outstanding ∅ = {3, 4} := by
    decide +kernel
  have accounted := (descriptors_accounted _ _ (run_from_initial abandonedConnect)).1
  exact ⟨accounted.symm.trans told, accounted⟩

end Netstack.FdTable
