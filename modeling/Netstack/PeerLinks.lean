import Netstack.FdBounds

/-!
The links between connected sockets. `accept` takes a number out of a backlog
and links it to the socket it mints without asking whose number it is now. The
links of a run are in order exactly when every accept finds the client it pops
still connected and still without a peer.
-/

namespace Netstack.FdTable

open Ipc Client Transition

structure Linked (t : Table) (fd p : Int) : Prop where
  distinct : p ≠ fd
  valid : IsOpen t p
  peer_kind : (t p).kind = .connected
  kind : (t fd).kind = .connected
  back : (t p).peerFd = fd

def PeerLinks (t : Table) : Prop :=
  ∀ fd, IsOpen t fd → 0 ≤ (t fd).peerFd → Linked t fd (t fd).peerFd

/-- The client of a pending connect that no accept has linked yet. -/
def Waiting (t : Table) (fd : Int) : Prop :=
  IsOpen t fd ∧ (t fd).kind = .connected ∧ (t fd).peerFd < 0

instance (t : Table) (fd : Int) : Decidable (Waiting t fd) :=
  inferInstanceAs (Decidable (_ ∧ _ ∧ _))

/-- An accept that will succeed and mint `newFd`. -/
structure Accepting (t : Table) (r : NetstackReq) (newFd : Int) : Prop where
  op : r.kind = .accept
  valid : IsOpen t r.u.accept.sock
  kind : (t r.u.accept.sock).kind = .listen
  waiting : 0 < (t r.u.accept.sock).backlogCount
  first : FirstHit t isFree newFd

def AcceptsWaiting (t : Table) (r : NetstackReq) : Prop :=
  ∀ newFd, Accepting t r newFd → Waiting t (nextClient (t r.u.accept.sock))

theorem peerLinks_congr {t t' : Table} (links : PeerLinks t)
    (kinds : ∀ fd, (t' fd).kind = (t fd).kind) (peers : ∀ fd, (t' fd).peerFd = (t fd).peerFd) :
    PeerLinks t' := by
  intro fd valid linked
  rw [peers] at linked ⊢
  have old := links fd ⟨valid.1, by rw [← kinds]; exact valid.2⟩ linked
  exact ⟨old.distinct, ⟨old.valid.1, by rw [kinds]; exact old.valid.2⟩,
    by rw [kinds]; exact old.peer_kind, by rw [kinds]; exact old.kind,
    by rw [peers]; exact old.back⟩

/-- An entry that no link leaves is not the end of a link either, so it may
change in any way that starts none. -/
theorem peerLinks_update {t : Table} (links : PeerLinks t) {fd : Int} {e : FdEntry}
    (alone : IsOpen t fd → (t fd).peerFd < 0) (stays : e.kind ≠ .free → e.peerFd < 0) :
    PeerLinks (Function.update t fd e) := by
  intro q valid linked
  by_cases here : q = fd
  · subst q
    have used : e.kind ≠ .free := by simpa using valid.2
    have negative := stays used
    rw [Function.update_self] at linked
    omega
  · have old := links q ⟨valid.1, by simpa [here] using valid.2⟩ (by simpa [here] using linked)
    have apart : (t q).peerFd ≠ fd := by
      intro target
      have ends := alone (by rw [← target]; exact old.valid)
      have back := old.back
      rw [target] at back
      have := inTable_nonneg valid.1
      omega
    rw [Function.update_of_ne here]
    exact ⟨old.distinct, ⟨old.valid.1, by rw [Function.update_of_ne apart]; exact old.valid.2⟩,
      by rw [Function.update_of_ne apart]; exact old.peer_kind,
      by rw [Function.update_of_ne here]; exact old.kind,
      by rw [Function.update_of_ne apart]; exact old.back⟩

theorem unlinked_of_kind {t : Table} (links : PeerLinks t) {fd : Int} {kind : FdKind}
    (known : (t fd).kind = kind) (other : kind ≠ .connected) :
    IsOpen t fd → (t fd).peerFd < 0 := by
  intro valid
  by_contra nonneg
  have linked := links fd valid (by omega)
  exact other (known.symm.trans linked.kind)

theorem closed_links {t : Table} (links : PeerLinks t) {fd : Int} (valid : IsOpen t fd) :
    PeerLinks (closed t fd) := by
  by_cases nonneg : 0 ≤ (t fd).peerFd
  · -- Both ends of the link go: the peer loses its number, the closed entry its kind.
    have mine := links fd valid nonneg
    intro q other linked
    have detached : detach t fd =
        Function.update t (t fd).peerFd { t (t fd).peerFd with peerFd := -1 } := by
      simp [detach, mine.kind, mine.valid]
    simp only [closed, detached] at other linked ⊢
    have notSelf : q ≠ fd := by
      rintro rfl
      simp [IsOpen, blankEntry, zeroEntry] at other
    have notPeer : q ≠ (t fd).peerFd := by
      rintro same
      simp [notSelf, ← same] at linked
    simp only [Function.update_of_ne notSelf, Function.update_of_ne notPeer] at linked ⊢
    have old := links q ⟨other.1, by simpa [notSelf, notPeer] using other.2⟩ linked
    have clearSelf : (t q).peerFd ≠ fd := by
      intro target
      have back := old.back
      rw [target] at back
      exact notPeer back.symm
    have clearPeer : (t q).peerFd ≠ (t fd).peerFd := by
      intro target
      have back := old.back
      rw [target] at back
      exact notSelf (back.symm.trans mine.back)
    refine ⟨old.distinct, ⟨old.valid.1, ?_⟩, ?_, ?_, ?_⟩
    · simpa [clearSelf, clearPeer] using old.valid.2
    · simpa [clearSelf, clearPeer] using old.peer_kind
    · simpa [notSelf, notPeer] using old.kind
    · simpa [clearSelf, clearPeer] using old.back
  · have kept : detach t fd = t := by
      have gone : ¬ IsOpen t (t fd).peerFd := fun bad => nonneg (inTable_nonneg bad.1)
      simp [detach, gone]
    rw [closed, kept]
    exact peerLinks_update links (fun _ => by omega) fun used => absurd rfl used

theorem queued_links {t : Table} (links : PeerLinks t) {fd lfd : Int} {port : UInt16}
    (kind : (t fd).kind = .unbound) (route : FirstHit t (isListener port) lfd) :
    PeerLinks (queued t fd lfd port) := by
  have joined : PeerLinks (Function.update t fd (connecting (t fd) port)) :=
    peerLinks_update links (unlinked_of_kind links kind (by decide)) fun _ => by
      simp [connecting]
  have apart : lfd ≠ fd := kinds_apart (listener_kind route).1 kind (by decide)
  refine peerLinks_congr joined ?_ ?_ <;>
  · intro q
    by_cases here : q = lfd
    · subst q
      simp [queued, pushBacklog, apart]
    · simp [queued, here]

theorem paired_client {t : Table} {lfd newFd : Int} (apart : nextClient (t lfd) ≠ newFd) :
    (paired t lfd newFd (nextClient (t lfd))).kind = (t (nextClient (t lfd))).kind ∧
      (paired t lfd newFd (nextClient (t lfd))).peerFd = newFd := by
  rw [paired_apply]
  exact ⟨(minted_other _ _ apart).1, if_pos rfl⟩

theorem paired_fresh {t : Table} {lfd newFd : Int} (apart : nextClient (t lfd) ≠ newFd) :
    (paired t lfd newFd newFd).kind = .connected ∧
      (paired t lfd newFd newFd).peerFd = nextClient (t lfd) := by
  rw [paired_apply]
  have fresh := minted_fresh t lfd newFd
  exact ⟨fresh.1, by simp only [apart.symm, if_false]; exact fresh.2⟩

theorem paired_other {t : Table} {lfd newFd fd : Int} (notNew : fd ≠ newFd)
    (notClient : fd ≠ nextClient (t lfd)) :
    (paired t lfd newFd fd).kind = (t fd).kind ∧
      (paired t lfd newFd fd).peerFd = (t fd).peerFd := by
  rw [paired_apply]
  have other := minted_other t lfd notNew
  exact ⟨other.1, by simp only [notClient, if_false]; exact other.2⟩

theorem paired_links {t : Table} (links : PeerLinks t) {r : NetstackReq} {newFd : Int}
    (accepting : Accepting t r newFd)
    (waits : Waiting t (nextClient (t r.u.accept.sock))) :
    PeerLinks (paired t r.u.accept.sock newFd) := by
  obtain ⟨client, connected, alone⟩ := waits
  have free := firstFree_kind accepting.first
  have apart : nextClient (t r.u.accept.sock) ≠ newFd := by
    intro same
    rw [same, free] at connected
    contradiction
  obtain ⟨clientKind, clientPeer⟩ := paired_client apart
  obtain ⟨newKind, newPeer⟩ := paired_fresh apart
  have clientOpen := isOpen_of_kind client.1 (clientKind.trans connected) (by decide)
  have newOpen := isOpen_of_kind accepting.first.1 newKind (by decide)
  intro q valid linked
  by_cases isNew : q = newFd
  · subst q
    rw [newPeer]
    exact ⟨apart, clientOpen, clientKind.trans connected, newKind, clientPeer⟩
  · by_cases isClient : q = nextClient (t r.u.accept.sock)
    · subst q
      rw [clientPeer]
      exact ⟨apart.symm, newOpen, newKind, clientKind.trans connected, newPeer⟩
    · -- An older link: neither of its ends is one of the two sockets now linked.
      obtain ⟨sameKind, samePeer⟩ := paired_other (t := t) isNew isClient
      rw [samePeer] at linked ⊢
      have old := links q ⟨valid.1, by rw [← sameKind]; exact valid.2⟩ linked
      have clearNew : (t q).peerFd ≠ newFd := by
        intro target
        have connectedPeer := old.peer_kind
        rw [target, free] at connectedPeer
        contradiction
      have clearClient : (t q).peerFd ≠ nextClient (t r.u.accept.sock) := by
        intro target
        have back := old.back
        rw [target] at back
        have := inTable_nonneg valid.1
        omega
      obtain ⟨peerKind, peerBack⟩ := paired_other (t := t) clearNew clearClient
      exact ⟨old.distinct, isOpen_of_kind old.valid.1 (peerKind.trans old.peer_kind) (by decide),
        peerKind.trans old.peer_kind, sameKind.trans old.kind, peerBack.trans old.back⟩

theorem paired_links_waiting {t : Table} (bounded : Bounded t) (links : PeerLinks t)
    {r : NetstackReq} {newFd : Int} (accepting : Accepting t r newFd)
    (after : PeerLinks (paired t r.u.accept.sock newFd)) :
    Waiting t (nextClient (t r.u.accept.sock)) := by
  have waiting := accepting.waiting
  have inside := nextClient_inTable (bounded.entries r.u.accept.sock) (by omega)
  have nonneg := inTable_nonneg inside
  -- The minted socket is linked, so its link is not to itself.
  have apart : nextClient (t r.u.accept.sock) ≠ newFd := by
    intro same
    have self : (paired t r.u.accept.sock newFd newFd).peerFd = newFd := by
      rw [paired_apply, same]
      exact if_pos rfl
    have kind : (paired t r.u.accept.sock newFd newFd).kind = .connected := by
      rw [paired_apply]
      exact (minted_fresh ..).1
    have linked := after newFd (isOpen_of_kind accepting.first.1 kind (by decide))
      (by rw [self]; exact inTable_nonneg accepting.first.1)
    exact linked.distinct self
  obtain ⟨clientKind, clientPeer⟩ := paired_client apart
  obtain ⟨newKind, newPeer⟩ := paired_fresh apart
  have linked := after newFd (isOpen_of_kind accepting.first.1 newKind (by decide))
    (by rw [newPeer]; exact nonneg)
  rw [newPeer] at linked
  have connected := clientKind.symm.trans linked.peer_kind
  have client : IsOpen t (nextClient (t r.u.accept.sock)) :=
    isOpen_of_kind inside connected (by decide)
  refine ⟨client, connected, ?_⟩
  by_contra paired
  -- An older peer of the client would keep pointing at it.
  have old := links _ client (by omega)
  have notNew : (t (nextClient (t r.u.accept.sock))).peerFd ≠ newFd := by
    intro target
    have kind := old.peer_kind
    rw [target, firstFree_kind accepting.first] at kind
    contradiction
  obtain ⟨peerKind, peerBack⟩ := paired_other (t := t) notNew old.distinct
  have stale := after _ (isOpen_of_kind old.valid.1 (peerKind.trans old.peer_kind) (by decide))
    (by rw [peerBack, old.back]; exact nonneg)
  rw [peerBack, old.back] at stale
  exact notNew (stale.back.symm.trans clientPeer)

theorem refused_not_accepting {t : Table} {r : NetstackReq} {code newFd : Int}
    (why : Refusal t r code) : ¬ Accepting t r newFd := by
  rintro ⟨op, valid, kind, waiting, first⟩
  have hit := first.2.1
  cases why with
  | acceptBad _ bad => exact bad valid
  | acceptKind _ _ other => exact other kind
  | acceptEmpty _ _ _ empty => omega
  | acceptFull _ _ _ _ full =>
      rw [full newFd first.1] at hit
      contradiction
  | _ => simp_all

theorem outcome_links_iff {t t' : Table} {r reply : NetstackReq} (bounded : Bounded t)
    (links : PeerLinks t) (outcome : Outcome t r t' reply) :
    PeerLinks t' ↔ AcceptsWaiting t r := by
  -- Only an accept can fail the condition; for every other request both sides hold.
  have other (op : r.kind ≠ .accept) (kept : PeerLinks t') : PeerLinks t' ↔ AcceptsWaiting t r :=
    iff_of_true kept fun _ accepting => absurd accepting.op op
  cases outcome with
  | refused why err =>
      exact iff_of_true links fun _ accepting => absurd accepting (refused_not_accepting why)
  | passive op ok => exact other (by rcases op with op | op <;> simp [op]) links
  | opened op first =>
      refine other (by simp [op]) (peerLinks_update links ?_ fun _ => by
        simp [socketEntry, blankEntry])
      intro valid
      exact absurd (firstFree_kind first) valid.2
  | closed op valid => exact other (by simp [op]) (closed_links links valid)
  | bound op valid kind unused =>
      refine other (by simp [op]) (peerLinks_congr links ?_ ?_) <;>
      · intro q
        by_cases here : q = r.u.bind.sock
        · subst q; simp
        · simp [here]
  | listening op valid kind port =>
      exact other (by simp [op]) (peerLinks_update links
        (unlinked_of_kind links kind (by decide))
        fun _ => unlinked_of_kind links kind (by decide) valid)
  | queued op valid kind route room => exact other (by simp [op]) (queued_links links kind route)
  | @paired newFd op valid kind waiting first =>
      have accepting : Accepting t r newFd := ⟨op, valid, kind, waiting, first⟩
      constructor
      · intro after _ _
        exact paired_links_waiting bounded links accepting after
      · intro waits
        exact paired_links links accepting (waits newFd accepting)
  | sent op valid kind peer lower upper room =>
      refine other (by simp [op]) (peerLinks_congr links ?_ ?_) <;>
      · intro q
        by_cases here : q = (t r.u.send.sock).peerFd
        · subst q; simp [deposit_peer, deposit_kind]
        · simp [here]
  | ended op valid kind empty peer => exact other (by simp [op]) links
  | received op valid kind some_ =>
      refine other (by simp [op]) (peerLinks_congr links ?_ ?_) <;>
      · intro q
        by_cases here : q = r.u.recv.sock
        · subst q; simp [withdraw_peer, withdraw_kind]
        · simp [here]

theorem initial_links : PeerLinks initial.table := by
  intro fd valid
  exact absurd rfl valid.2

/-- A run keeps every peer link symmetric, between two connected sockets,
in every state it visits exactly when each of its accepts that succeeds pops a
client that is still connected and has no peer yet. -/
theorem links_exactly_when_accepts_wait (history : History) (s : Engine) (run : Run history s) :
    (∀ state ∈ visited initial history, PeerLinks state.table) ↔
      ∀ move ∈ history, AcceptsWaiting move.before.table move.label.req := by
  refine guarded_exact (fun s x => AcceptsWaiting s.table x.req) (fun s => Bounded s.table)
    (fun s => PeerLinks s.table) run_bounded initial_links ?_ run
  intro before x after bounded links served
  exact outcome_links_iff bounded links (outcome_of_dispatch bounded served)

theorem served_connect_keeps_links :
    Run (historyOf initial servedConnect) (stateAfter initial servedConnect) ∧
      ∀ state ∈ visited initial (historyOf initial servedConnect), PeerLinks state.table := by
  have run := run_from_initial servedConnect
  refine ⟨run, ?_⟩
  apply (links_exactly_when_accepts_wait _ _ run).mpr
  have waits : ∀ move ∈ historyOf initial servedConnect, move.label.req.kind = .accept →
      Waiting move.before.table (nextClient (move.before.table move.label.req.u.accept.sock)) := by
    decide +kernel
  intro move member newFd accepting
  exact waits move member accepting.op

theorem abandoned_connect_breaks_links :
    Reachable (stateAfter initial abandonedConnect) ∧
      ¬ PeerLinks (stateAfter initial abandonedConnect).table := by
  refine ⟨⟨_, run_from_initial abandonedConnect⟩, ?_⟩
  intro links
  have valid : IsOpen (stateAfter initial abandonedConnect).table 4 := by decide +kernel
  have self : ((stateAfter initial abandonedConnect).table 4).peerFd = 4 := by decide +kernel
  exact (links 4 valid (by rw [self]; decide)).distinct self

end Netstack.FdTable
