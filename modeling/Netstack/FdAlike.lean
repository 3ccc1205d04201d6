import Mathlib.Data.Set.Basic
import Netstack.FdOutcome
import Netstack.Serving

/-!
What the replies of the fd table depend on. Two tables are `Alike` on a set of
entries when they agree which entries are free and hold the same in every open
entry of the set: what a closed socket left behind is not compared. Served the
same request, alike tables give the same reply and stay alike. The handlers are
run side by side, and a write of the same entry to both needs no look at what is
written.
-/

namespace Netstack.FdTable

open Ipc Window Serving

structure Alike (cells : Set Int) (t u : Table) : Prop where
  kinds : ∀ fd, InTable fd → (u fd).kind = (t fd).kind
  entries : ∀ fd ∈ cells, IsOpen t fd → u fd = t fd

variable {cells : Set Int} {t u : Table}

theorem Alike.isOpen_iff (alike : Alike cells t u) (fd : Int) : IsOpen u fd ↔ IsOpen t fd := by
  refine and_congr_right fun inside => ?_
  rw [alike.kinds fd inside]

theorem Alike.fdValid (alike : Alike cells t u) (fd : Int) : fdValid u fd = fdValid t fd := by
  rw [fdValid_eq, fdValid_eq]
  simp only [alike.isOpen_iff]

/-- Both tables get entries of one kind, equal unless they are free. -/
theorem alike_update (alike : Alike cells t u) {fd : Int} {e e' : FdEntry} (kind : e'.kind = e.kind)
    (same : e.kind ≠ .free → e' = e) :
    Alike cells (Function.update t fd e) (Function.update u fd e') := by
  constructor
  · intro other inside
    by_cases here : other = fd
    · subst other
      simpa using kind
    · simpa [here] using alike.kinds other inside
  · intro other member used
    by_cases here : other = fd
    · subst other
      have taken : e.kind ≠ .free := by simpa using used.2
      simpa using same taken
    · have before : IsOpen t other := ⟨used.1, by simpa [here] using used.2⟩
      simpa [here] using alike.entries other member before

theorem setEntry_alike (alike : Alike cells t u) (fd : Int) (e : FdEntry) :
    Paired (Alike cells) (setEntry t fd e) (setEntry u fd e) := by
  unfold setEntry
  exact paired_ite (fun _ => alike_update alike rfl fun _ => rfl) fun _ => rfl

/-- How a handler takes up the entry its request names: `fd_valid` decides in both tables
alike, and an open entry of the set is one and the same. -/
theorem named_alike (alike : Alike cells t u) {fd : Int} (own : fd ∈ cells) {α : Type}
    {post : α → α → Prop} {bad bad' : Except Fault α} {next next' : FdEntry → Except Fault α}
    (refused : Paired post bad bad')
    (taken : IsOpen t fd → Paired post (next (t fd)) (next' (t fd))) :
    Paired post
      (fdValid t fd >>= fun valid => if !valid then bad else entryAt t fd >>= next)
      (fdValid u fd >>= fun valid => if !valid then bad' else entryAt u fd >>= next') := by
  rw [alike.fdValid]
  by_cases valid : IsOpen t fd
  · rw [fdValid_true valid, entryAt_ok valid.1, entryAt_ok valid.1, alike.entries fd own valid]
    exact taken valid
  · rw [fdValid_false valid]
    exact refused

/-! `send` and `recv` look at the entry they name and at its peer. -/

/-- The set holds the entry and, where there is one, its open peer. -/
structure Around (cells : Set Int) (t : Table) (fd : Int) : Prop where
  own : fd ∈ cells
  peer : IsOpen t fd → IsOpen t (t fd).peerFd → (t fd).peerFd ∈ cells

theorem send_alike (alike : Alike cells t u) (r : NetstackReq)
    (around : Around cells t r.u.send.sock) :
    Paired (Answers (Alike cells)) (fdtableDispatchSend t r) (fdtableDispatchSend u r) := by
  refine named_alike alike around.own ⟨alike, rfl⟩ fun valid => ?_
  refine paired_ite (fun _ => ⟨alike, rfl⟩) fun _ => ?_
  by_cases peer : IsOpen t (t r.u.send.sock).peerFd
  · have same := alike.entries _ (around.peer valid peer) peer
    simp only [alike.fdValid, fdValid_true peer, ok_bind, Bool.not_true, Bool.false_eq_true,
      if_false, entryAt_ok peer.1, same]
    refine paired_ite (fun _ => ⟨alike, rfl⟩) fun _ => paired_step _ fun pe => ?_
    refine paired_ite (fun _ => ?_) fun _ => ?_
    · refine paired_bind (setEntry_alike alike _ _) ?_
      exact fun _ _ after => ⟨after, rfl⟩
    · refine paired_step _ fun _ => paired_step _ fun _ => ?_
      refine paired_bind (setEntry_alike alike _ _) ?_
      exact fun _ _ after => ⟨after, rfl⟩
  · simp only [alike.fdValid, fdValid_false peer, ok_bind]
    exact ⟨alike, rfl⟩

theorem recv_alike (alike : Alike cells t u) (r : NetstackReq) (own : r.u.recv.sock ∈ cells) :
    Paired (Answers (Alike cells)) (fdtableDispatchRecv t r) (fdtableDispatchRecv u r) := by
  refine named_alike alike own ⟨alike, rfl⟩ fun valid => ?_
  refine paired_ite (fun _ => ⟨alike, rfl⟩) fun _ => ?_
  refine paired_ite (fun _ => ?_) fun _ => ?_
  · refine paired_ite (fun _ => ⟨alike, rfl⟩) fun _ => ?_
    rw [alike.fdValid]
    refine paired_step _ fun _ => ?_
    exact paired_ite (fun _ => ⟨alike, rfl⟩) fun _ => ⟨alike, rfl⟩
  · refine paired_step _ fun _ => paired_step _ fun _ => ?_
    refine paired_bind (setEntry_alike alike _ _) ?_
    exact fun _ _ after => ⟨after, rfl⟩

/-! The other handlers may look at any entry. -/

abbrev AlikeAll : Table → Table → Prop := Alike Set.univ

theorem Alike.same (alike : AlikeAll t u) {fd : Int} (valid : IsOpen t fd) : u fd = t fd :=
  alike.entries fd (Set.mem_univ fd) valid

theorem scanFd_congr {hit : FdEntry → Bool} (same : ∀ fd, InTable fd → hit (u fd) = hit (t fd))
    (remaining : Nat) (i : Int) : scanFd u hit remaining i = scanFd t hit remaining i := by
  induction remaining generalizing i with
  | zero => rfl
  | succ remaining ih =>
      by_cases inside : InTable i
      · simp only [scanFd, entryAt_ok inside, ok_bind, same i inside, ih]
      · simp only [scanFd, entryAt, show ¬ (fdFirst ≤ i ∧ i < fdtableMax) from inside, if_false]
        rfl

theorem firstFd_congr {hit : FdEntry → Bool} (same : ∀ fd, InTable fd → hit (u fd) = hit (t fd)) :
    firstFd u hit = firstFd t hit :=
  scanFd_congr same _ _

-- A test that no free entry passes sees the same in both tables.
theorem Alike.hit (alike : AlikeAll t u) {hit : FdEntry → Bool}
    (used : ∀ e, e.kind = .free → hit e = false) (fd : Int) (inside : InTable fd) :
    hit (u fd) = hit (t fd) := by
  by_cases free : (t fd).kind = .free
  · rw [used _ free, used _ ((alike.kinds fd inside).trans free)]
  · rw [alike.same ⟨inside, free⟩]

theorem Alike.findListener (alike : AlikeAll t u) (port : UInt16) :
    findListener u port = findListener t port :=
  firstFd_congr (alike.hit fun e free => by simp [isListener, free])

theorem Alike.portInUse (alike : AlikeAll t u) (port : UInt16) :
    portInUse u port = portInUse t port := by
  have scanned : firstFd u (holdsPort port) = firstFd t (holdsPort port) :=
    firstFd_congr (alike.hit fun e free => by simp [holdsPort, free])
  simp only [FdTable.portInUse, scanned]

theorem allocFd_alike (alike : AlikeAll t u) :
    (allocFd t = .ok (t, -1) ∧ allocFd u = .ok (u, -1)) ∨
      ∃ fd, allocFd t = .ok (Function.update t fd blankEntry, fd) ∧
        allocFd u = .ok (Function.update u fd blankEntry, fd) ∧ FirstHit t isFree fd := by
  have scanned : firstFd u isFree = firstFd t isFree :=
    firstFd_congr fun fd inside => by simp [isFree, alike.kinds fd inside]
  rcases firstFd_cases t isFree with ⟨missed, -⟩ | ⟨fd, found, first⟩
  · refine Or.inl ⟨?_, ?_⟩
    · simp only [allocFd, missed]
      rfl
    · simp only [allocFd, scanned, missed]
      rfl
  · refine Or.inr ⟨fd, ?_, ?_, first⟩
    · simp only [allocFd, found, ok_bind, firstHit_nonneg first, if_false, setEntry_ok _ first.1]
      rfl
    · simp only [allocFd, scanned, found, ok_bind, firstHit_nonneg first, if_false,
        setEntry_ok _ first.1]
      rfl

theorem socket_alike (alike : AlikeAll t u) (r : NetstackReq) :
    Paired (Answers AlikeAll) (fdtableDispatchSocket t r) (fdtableDispatchSocket u r) := by
  unfold fdtableDispatchSocket
  rcases allocFd_alike alike with ⟨allocated, allocatedToo⟩ | ⟨fd, allocated, allocatedToo, first⟩
  · rw [allocated, allocatedToo]
    exact ⟨alike, rfl⟩
  · rw [allocated, allocatedToo]
    simp only [ok_bind, firstHit_nonneg first, if_false, entryAt_ok first.1, Function.update_self]
    refine paired_bind (setEntry_alike (alike_update alike rfl fun _ => rfl) _ _) ?_
    exact fun _ _ after => ⟨after, rfl⟩

theorem clearPeer_alike (alike : AlikeAll t u) (e : FdEntry) :
    Paired AlikeAll (clearPeer t e) (clearPeer u e) := by
  unfold clearPeer
  refine paired_ite (fun _ => alike) fun _ => paired_ite (fun _ => alike) fun _ => ?_
  by_cases peer : IsOpen t e.peerFd
  · simp only [alike.fdValid, fdValid_true peer, ok_bind, Bool.not_true, Bool.false_eq_true,
      if_false, entryAt_ok peer.1, alike.same peer]
    exact setEntry_alike alike _ _
  · simp only [alike.fdValid, fdValid_false peer, ok_bind]
    exact alike

theorem close_alike (alike : AlikeAll t u) (r : NetstackReq) :
    Paired (Answers AlikeAll) (fdtableDispatchClose t r) (fdtableDispatchClose u r) := by
  refine named_alike alike trivial ⟨alike, rfl⟩ fun _ => ?_
  refine paired_bind (clearPeer_alike alike _) fun _ _ detached => ?_
  refine paired_bind (setEntry_alike detached _ _) ?_
  exact fun _ _ after => ⟨after, rfl⟩

theorem bind_alike (alike : AlikeAll t u) (r : NetstackReq) :
    Paired (Answers AlikeAll) (fdtableDispatchBind t r) (fdtableDispatchBind u r) := by
  refine named_alike alike trivial ⟨alike, rfl⟩ fun _ => ?_
  refine paired_ite (fun _ => ⟨alike, rfl⟩) fun _ => ?_
  rw [alike.portInUse]
  refine paired_step _ fun _ => paired_ite (fun _ => ⟨alike, rfl⟩) fun _ => ?_
  refine paired_bind (setEntry_alike alike _ _) ?_
  exact fun _ _ after => ⟨after, rfl⟩

theorem listen_alike (alike : AlikeAll t u) (r : NetstackReq) :
    Paired (Answers AlikeAll) (fdtableDispatchListen t r) (fdtableDispatchListen u r) := by
  refine named_alike alike trivial ⟨alike, rfl⟩ fun _ => ?_
  refine paired_ite (fun _ => ⟨alike, rfl⟩) fun _ => ?_
  refine paired_bind (setEntry_alike alike _ _) ?_
  exact fun _ _ after => ⟨after, rfl⟩

theorem isOpen_update {fd other : Int} {e : FdEntry} (valid : IsOpen t other)
    (used : other = fd → e.kind ≠ .free) : IsOpen (Function.update t fd e) other := by
  refine ⟨valid.1, ?_⟩
  by_cases here : other = fd
  · rw [here, Function.update_self]
    exact used here
  · rw [Function.update_of_ne here]
    exact valid.2

/-- A write of an entry that is not free leaves open what was open. -/
theorem overwrite_alike (alike : AlikeAll t u) (fd : Int) {e : FdEntry} (used : e.kind ≠ .free) :
    Paired (fun t' u' => AlikeAll t' u' ∧ ∀ other, IsOpen t other → IsOpen t' other)
      (setEntry t fd e) (setEntry u fd e) := by
  unfold setEntry
  refine paired_ite (fun _ => ⟨alike_update alike rfl fun _ => rfl, ?_⟩) fun _ => rfl
  exact fun other valid => isOpen_update valid fun _ => used

theorem connect_alike (alike : AlikeAll t u) (r : NetstackReq) :
    Paired (Answers AlikeAll) (fdtableDispatchConnect t r) (fdtableDispatchConnect u r) := by
  refine named_alike alike trivial ⟨alike, rfl⟩ fun valid => ?_
  refine paired_ite (fun _ => ⟨alike, rfl⟩) fun _ => ?_
  rw [alike.findListener]
  unfold findListener
  rcases firstFd_cases t (isListener r.u.connect.port) with ⟨scanned, -⟩ | ⟨lfd, scanned, route⟩
  · rw [scanned]
    exact ⟨alike, rfl⟩
  · have listener : IsOpen t lfd := isOpen_of_kind route.1 (listener_kind route).1 (by decide)
    simp only [scanned, ok_bind, firstHit_nonneg route, if_false, entryAt_ok route.1,
      alike.same listener]
    refine paired_ite (fun _ => ⟨alike, rfl⟩) fun _ => ?_
    refine paired_bind (overwrite_alike alike _ (by simp)) ?_
    rintro t₁ u₁ ⟨joined, kept⟩
    -- The listener is read again after the write to the client.
    rw [joined.same (kept lfd listener)]
    refine paired_step _ fun _ => ?_
    refine paired_bind (setEntry_alike joined _ _) ?_
    exact fun _ _ after => ⟨after, rfl⟩

/-- The last write of an accept. The client's number may be that of a closed
socket, whose remains are not alike. -/
theorem pairClient_alike (alike : AlikeAll t u) (clientFd newFd : Int) {α : Type}
    {post : α → α → Prop} {next next' : Table → Except Fault α}
    (after : ∀ t' u', AlikeAll t' u' → (∀ fd, IsOpen t fd → IsOpen t' fd) →
      Paired post (next t') (next' u')) :
    Paired post
      (entryAt t clientFd >>= fun client =>
        setEntry t clientFd { client with peerFd := newFd } >>= next)
      (entryAt u clientFd >>= fun client =>
        setEntry u clientFd { client with peerFd := newFd } >>= next') := by
  by_cases inside : InTable clientFd
  · simp only [entryAt_ok inside, ok_bind, setEntry_ok _ inside]
    apply after
    · refine alike_update alike (alike.kinds clientFd inside) fun used => ?_
      rw [alike.same ⟨inside, used⟩]
    · intro fd valid
      refine isOpen_update valid ?_
      rintro rfl
      exact valid.2
  · have fault : ¬ (fdFirst ≤ clientFd ∧ clientFd < fdtableMax) := inside
    simp only [entryAt, fault, if_false]
    exact rfl

theorem accept_alike (alike : AlikeAll t u) (r : NetstackReq) :
    Paired (Answers AlikeAll) (fdtableDispatchAccept t r) (fdtableDispatchAccept u r) := by
  refine named_alike alike trivial ⟨alike, rfl⟩ fun valid => ?_
  refine paired_ite (fun _ => ⟨alike, rfl⟩) fun _ => ?_
  refine paired_ite (fun _ => ⟨alike, rfl⟩) fun _ => paired_step _ fun clientFd => ?_
  refine paired_bind (overwrite_alike alike _ valid.2) ?_
  rintro t₁ u₁ ⟨popped, kept⟩
  have listener := kept _ valid
  rcases allocFd_alike popped with
    ⟨allocated, allocatedToo⟩ | ⟨newFd, allocated, allocatedToo, first⟩
  · have failed : (-1 : Int) < 0 := by decide
    simp only [allocated, allocatedToo, ok_bind, entryAt_ok valid.1, popped.same listener, failed,
      if_true]
    refine paired_step _ fun _ => ?_
    refine paired_bind (setEntry_alike popped _ _) ?_
    exact fun _ _ after => ⟨after, rfl⟩
  · have apart : r.u.accept.sock ≠ newFd := by
      intro same
      have free := first.2.1
      rw [← same] at free
      simp [isFree, listener.2] at free
    have wiped : AlikeAll (Function.update t₁ newFd blankEntry)
        (Function.update u₁ newFd blankEntry) := alike_update popped rfl fun _ => rfl
    have stays : IsOpen (Function.update t₁ newFd blankEntry) r.u.accept.sock :=
      isOpen_update listener fun same => absurd same apart
    simp only [allocated, allocatedToo, ok_bind, entryAt_ok valid.1, entryAt_ok first.1,
      Function.update_self, Function.update_of_ne apart, popped.same listener,
      firstHit_nonneg first, if_false]
    refine paired_bind (overwrite_alike wiped _ (by simp)) ?_
    rintro t₂ u₂ ⟨minted, stillOpen⟩
    refine pairClient_alike minted _ _ fun t₃ u₃ linked open_ => ?_
    rw [linked.same (open_ _ (stillOpen _ stays))]
    exact ⟨linked, rfl⟩

/-- `dispatch_request` as a whole. -/
theorem dispatch_alike {s s' : Engine} (alike : AlikeAll s.table s'.table)
    (flag : s'.shutdown = s.shutdown) (r : NetstackReq) :
    Paired (Answers fun a b : Engine => AlikeAll a.table b.table ∧ b.shutdown = a.shutdown)
      (dispatchRequest s r) (dispatchRequest s' r) := by
  have lift : ∀ {x y : Except Fault (Table × NetstackReq)}, Paired (Answers AlikeAll) x y →
      Paired (Answers fun a b : Engine => AlikeAll a.table b.table ∧ b.shutdown = a.shutdown)
        (s.onTable x) (s'.onTable y) := by
    intro x y both
    refine paired_bind both ?_
    rintro ⟨t, reply⟩ ⟨u, _⟩ ⟨after, rfl⟩
    exact ⟨⟨after, flag⟩, rfl⟩
  unfold dispatchRequest
  cases r.kind with
  | ping => exact ⟨⟨alike, flag⟩, rfl⟩
  | shutdown => exact ⟨⟨alike, rfl⟩, rfl⟩
  | socket => exact lift (socket_alike alike r)
  | bind => exact lift (bind_alike alike r)
  | connect => exact lift (connect_alike alike r)
  | listen => exact lift (listen_alike alike r)
  | accept => exact lift (accept_alike alike r)
  | send => exact lift (send_alike alike r ⟨trivial, fun _ _ => trivial⟩)
  | recv => exact lift (recv_alike alike r trivial)
  | close => exact lift (close_alike alike r)
  | unknown => exact ⟨⟨alike, flag⟩, rfl⟩

end Netstack.FdTable
