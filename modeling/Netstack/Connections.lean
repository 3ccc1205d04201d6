import Netstack.Backlog
import Netstack.Books
import Netstack.PeerLinks
import Netstack.RxQueue

/-!
Connection isolation. `Faithful` relates the books of an onlooker to the table:
the connected entries are the ends the books know, peer numbers join the two
ends of one connection, and a receive queue holds what the partner has sent and
the end has not received. It survives every request as long as accepts take
clients that have not been closed since they connected.
-/

namespace Netstack.FdTable

open Ipc Client Window Transition

/-- An accept takes a client that still is the socket that connected: its
number has not been closed, and so not recycled, since the connect. -/
def AcceptsConnected (b : Books) (t : Table) (r : NetstackReq) : Prop :=
  ∀ newFd, Accepting t r newFd → ∀ conn fd rest,
    b.waiting r.u.accept.sock = (conn, fd) :: rest → b.endpoint fd = some ⟨conn, .client⟩

/-- A receive returns the bytes that the one partner of its socket has sent
since the accept, in order and from where the receive before it stopped. -/
def ReceivesOwn (b : Books) (x : Exchange) : Prop :=
  x.req.kind = .recv → x.reply.ok → ∃ ep, b.endpoint x.req.u.recv.sock = some ep ∧
    b.received ep ++ returnedBytes x <+: b.sent ep.partner

/-! How the books stand to the table. -/

def IsConnected (t : Table) (fd : Int) : Prop := InTable fd ∧ (t fd).kind = .connected

structure Faithful (b : Books) (t : Table) : Prop where
  sound : Sound b
  connected : ∀ fd, (∃ ep, b.endpoint fd = some ep) ↔ IsConnected t fd
  linked : ∀ fd ep, b.endpoint fd = some ep → 0 ≤ (t fd).peerFd →
    b.endpoint (t fd).peerFd = some ep.partner
  balanced : ∀ fd ep, b.endpoint fd = some ep →
    b.received ep ++ rxQueue (t fd) = b.sent ep.partner
  silent : ∀ fd, InTable fd → (t fd).kind = .unbound → rxQueue (t fd) = []
  backlog : ∀ lfd, IsListener t lfd → (b.waiting lfd).map Prod.snd = pending (t lfd)

theorem faithful_initial : Faithful .blank initial.table := by
  refine ⟨sound_blank, ?_, ?_, ?_, ?_, ?_⟩ <;>
    simp [Books.blank, IsConnected, IsListener, initial, zeroEntry]

theorem faithful_tick {b : Books} {t : Table} (faithful : Faithful b t) : Faithful b.tick t :=
  { faithful with sound := sound_tick faithful.sound }

theorem connected_of_endpoint {b : Books} {t : Table} (faithful : Faithful b t) {fd : Int}
    {ep : Endpoint} (present : b.endpoint fd = some ep) : IsConnected t fd :=
  (faithful.connected fd).mp ⟨ep, present⟩

/-- The books see the connected sockets, their peers and queues, and the
backlogs of the listeners. A table that agrees in these agrees with them. -/
theorem faithful_congr {b : Books} {t t' : Table} (faithful : Faithful b t)
    (connected : ∀ fd, IsConnected t' fd ↔ IsConnected t fd)
    (peers : ∀ fd, IsConnected t fd → (t' fd).peerFd = (t fd).peerFd)
    (queues : ∀ fd, IsConnected t fd → rxQueue (t' fd) = rxQueue (t fd))
    (silent : ∀ fd, InTable fd → (t' fd).kind = .unbound → rxQueue (t' fd) = [])
    (backlogs : ∀ lfd, IsListener t' lfd → (b.waiting lfd).map Prod.snd = pending (t' lfd)) :
    Faithful b t' := by
  refine ⟨faithful.sound, ?_, ?_, ?_, silent, backlogs⟩
  · intro fd
    rw [connected]
    exact faithful.connected fd
  · intro fd ep present nonneg
    rw [peers fd (connected_of_endpoint faithful present)] at nonneg ⊢
    exact faithful.linked fd ep present nonneg
  · intro fd ep present
    rw [queues fd (connected_of_endpoint faithful present)]
    exact faithful.balanced fd ep present

/-- One entry that is not connected takes another form that is not. -/
theorem faithful_update {b : Books} {t : Table} (faithful : Faithful b t) {fd : Int} {e : FdEntry}
    (before : (t fd).kind ≠ .connected) (unconnected : e.kind ≠ .connected)
    (empty : e.kind = .unbound → rxQueue e = [])
    (line : e.kind = .listen → (b.waiting fd).map Prod.snd = pending e) :
    Faithful b (Function.update t fd e) := by
  have others : ∀ {q}, IsConnected t q → Function.update t fd e q = t q := by
    intro q connected
    apply Function.update_of_ne
    rintro rfl
    exact before connected.2
  refine faithful_congr faithful ?_ ?_ ?_ ?_ ?_
  · intro q
    by_cases here : q = fd
    · subst q
      simp [IsConnected, before, unconnected]
    · simp [IsConnected, here]
  · intro q connected
    rw [others connected]
  · intro q connected
    rw [others connected]
  · intro q inside kind
    by_cases here : q = fd
    · subst q
      rw [Function.update_self] at kind ⊢
      exact empty kind
    · rw [Function.update_of_ne here] at kind ⊢
      exact faithful.silent q inside kind
  · intro q listener
    by_cases here : q = fd
    · subst q
      rw [IsListener, Function.update_self] at listener
      rw [Function.update_self]
      exact line listener.2
    · rw [IsListener, Function.update_of_ne here] at listener
      rw [Function.update_of_ne here]
      exact faithful.backlog q listener

theorem faithful_listen {b : Books} {t : Table} (faithful : Faithful b t) {fd : Int}
    (kind : (t fd).kind = .unbound) :
    Faithful (b.listen fd) (Function.update t fd (listening (t fd))) := by
  -- The books may drop the line of a socket that does not listen yet.
  have cleared : Faithful (b.listen fd) t := by
    refine ⟨sound_listen faithful.sound fd, faithful.connected, faithful.linked,
      faithful.balanced, faithful.silent, ?_⟩
    intro lfd listener
    have apart : lfd ≠ fd := kinds_apart listener.2 kind (by decide)
    simpa [Books.listen, apart] using faithful.backlog lfd listener
  apply faithful_update cleared
  · simp [kind]
  · simp [listening]
  · simp [listening]
  · simp [listening, pending, Ring.contents, Books.listen]

theorem closed_other {t : Table} {fd q : Int} (apart : q ≠ fd) :
    (closed t fd q).kind = (t q).kind ∧ rxQueue (closed t fd q) = rxQueue (t q) ∧
      pending (closed t fd q) = pending (t q) := by
  have ring := detach_ring t fd q
  rw [closed, Function.update_of_ne apart]
  exact ⟨detach_kind t fd q, detach_queue t fd q, pending_congr ring.1 ring.2.1 ring.2.2⟩

/-- The peer of a closed socket loses its number; every other socket keeps the
number it has, which is not that of the closed one. -/
theorem detach_peer {t : Table} (links : PeerLinks t) {fd q : Int} (valid : IsOpen t q)
    (nonneg : 0 ≤ (detach t fd q).peerFd) :
    (detach t fd q).peerFd = (t q).peerFd ∧ (t q).peerFd ≠ fd := by
  unfold detach at nonneg ⊢
  dsimp only at nonneg ⊢
  split at nonneg
  · rename_i linked
    rw [if_pos linked]
    by_cases peer : q = (t fd).peerFd
    · simp [peer] at nonneg
    · rw [Function.update_of_ne peer] at nonneg ⊢
      refine ⟨rfl, ?_⟩
      rintro rfl
      exact peer (links q valid nonneg).back.symm
  · rename_i unlinked
    rw [if_neg unlinked]
    refine ⟨rfl, ?_⟩
    rintro rfl
    have mine := links q valid nonneg
    exact unlinked ⟨mine.peer_kind, by rw [mine.back]; exact valid⟩

theorem faithful_close {b : Books} {t : Table} (faithful : Faithful b t) (links : PeerLinks t)
    {fd : Int} : Faithful (b.close fd) (closed t fd) := by
  have freed : (closed t fd fd).kind = .free := by simp [closed, blankEntry, zeroEntry]
  refine ⟨sound_close faithful.sound fd, ?_, ?_, ?_, ?_, ?_⟩
  · intro q
    by_cases here : q = fd
    · subst q
      simp [Books.close, IsConnected, freed]
    · rw [IsConnected, (closed_other here).1]
      simpa [Books.close, here, IsConnected] using faithful.connected q
  · intro q ep present nonneg
    obtain ⟨here, known⟩ := close_endpoint present
    have valid := connected_of_endpoint faithful known
    rw [closed, Function.update_of_ne here] at nonneg ⊢
    obtain ⟨kept, notClosed⟩ :=
      detach_peer links (isOpen_of_kind valid.1 valid.2 (by decide)) nonneg
    rw [kept] at nonneg ⊢
    simpa [Books.close, notClosed] using faithful.linked q ep known nonneg
  · intro q ep present
    obtain ⟨here, known⟩ := close_endpoint present
    rw [(closed_other here).2.1]
    exact faithful.balanced q ep known
  · intro q inside kind
    have here : q ≠ fd := kinds_apart kind freed (by decide)
    rw [(closed_other here).1] at kind
    rw [(closed_other here).2.1]
    exact faithful.silent q inside kind
  · intro q listens
    have here : q ≠ fd := kinds_apart listens.2 freed (by decide)
    rw [(closed_other here).2.2]
    rw [IsListener, (closed_other here).1] at listens
    simpa [Books.close, here] using faithful.backlog q listens

theorem queued_apply (t : Table) (fd lfd : Int) (port : UInt16) (q : Int) :
    queued t fd lfd port q =
      if q = lfd then pushBacklog (t lfd) fd
      else if q = fd then connecting (t fd) port else t q := by
  simp only [queued, Function.update_apply]

section Connect

variable {b : Books} {t : Table} {fd lfd : Int} {port : UInt16}

/-- A connect writes to a socket that was unbound and to a listener. -/
theorem queued_connected (kind : (t fd).kind = .unbound) (listen : (t lfd).kind = .listen)
    {q : Int} (connected : IsConnected t q) : queued t fd lfd port q = t q := by
  rw [queued_apply, if_neg (kinds_apart connected.2 listen (by decide)),
    if_neg (kinds_apart connected.2 kind (by decide))]

theorem queued_client (apart : lfd ≠ fd) :
    queued t fd lfd port fd = connecting (t fd) port := by
  rw [queued_apply, if_neg (Ne.symm apart), if_pos rfl]

theorem connect_connected (faithful : Faithful b t) (valid : IsOpen t fd) (apart : lfd ≠ fd)
    (q : Int) : (∃ ep, (b.connect fd lfd).tick.endpoint q = some ep) ↔
      IsConnected (queued t fd lfd port) q := by
  by_cases here : q = fd
  · subst q
    simp [Books.connect, Books.tick, IsConnected, queued_client apart, connecting, valid.1]
  · have known : (b.connect fd lfd).tick.endpoint q = b.endpoint q := by
      simp [Books.connect, Books.tick, here]
    rw [known, faithful.connected q, IsConnected, IsConnected, queued_apply, if_neg here]
    by_cases isListener : q = lfd
    · subst q
      simp [pushBacklog]
    · rw [if_neg isListener]

theorem connect_linked (faithful : Faithful b t) (kind : (t fd).kind = .unbound)
    (listen : (t lfd).kind = .listen) {q : Int} {ep : Endpoint}
    (present : (b.connect fd lfd).tick.endpoint q = some ep)
    (nonneg : 0 ≤ (queued t fd lfd port q).peerFd) :
    (b.connect fd lfd).tick.endpoint (queued t fd lfd port q).peerFd = some ep.partner := by
  rcases connect_endpoint present with ⟨rfl, -⟩ | ⟨-, known⟩
  · rw [queued_client (kinds_apart listen kind (by decide))] at nonneg
    simp [connecting] at nonneg
  · rw [queued_connected kind listen (connected_of_endpoint faithful known)] at nonneg ⊢
    have peer := faithful.linked q ep known nonneg
    have notClient : (t q).peerFd ≠ fd :=
      kinds_apart (connected_of_endpoint faithful peer).2 kind (by decide)
    simpa [Books.connect, Books.tick, notClient] using peer

theorem connect_balanced (faithful : Faithful b t) (inside : InTable fd)
    (kind : (t fd).kind = .unbound) (listen : (t lfd).kind = .listen) {q : Int} {ep : Endpoint}
    (present : (b.connect fd lfd).tick.endpoint q = some ep) :
    b.received ep ++ rxQueue (queued t fd lfd port q) = b.sent ep.partner := by
  rcases connect_endpoint present with ⟨rfl, rfl⟩ | ⟨-, known⟩
  · -- A connection starts with nothing sent, and its client with an empty queue.
    have mine := faithful.sound.future ⟨b.clock, .client⟩ (Nat.le_refl _)
    have other := faithful.sound.future ⟨b.clock, .server⟩ (Nat.le_refl _)
    have empty : rxQueue (queued t q lfd port q) = [] := by
      rw [queued_queue (kinds_apart listen kind (by decide))]
      exact faithful.silent q inside kind
    rw [empty, mine.2.2]
    exact other.2.1.symm
  · rw [queued_connected kind listen (connected_of_endpoint faithful known)]
    exact faithful.balanced q ep known

theorem connect_backlog (bounded : Bounded t) (faithful : Faithful b t)
    (listener : IsListener t lfd) (room : (t lfd).backlogCount < backlogMax) (apart : lfd ≠ fd)
    {q : Int} (listens : IsListener (queued t fd lfd port) q) :
    ((b.connect fd lfd).tick.waiting q).map Prod.snd = pending (queued t fd lfd port q) := by
  by_cases isListener : q = lfd
  · subst q
    rw [queued_apply, if_pos rfl, pending_push (bounded.entries lfd) room]
    simpa [Books.connect, Books.tick] using faithful.backlog lfd listener
  · have notClient : q ≠ fd := by
      rintro rfl
      have other := listens.2
      rw [queued_client apart] at other
      simp [connecting] at other
    have same : queued t fd lfd port q = t q := by
      rw [queued_apply, if_neg isListener, if_neg notClient]
    rw [IsListener, same] at listens
    rw [same]
    simpa [Books.connect, Books.tick, isListener] using faithful.backlog q listens

theorem faithful_connect (bounded : Bounded t) (faithful : Faithful b t) (valid : IsOpen t fd)
    (kind : (t fd).kind = .unbound) (route : FirstHit t (isListener port) lfd)
    (room : (t lfd).backlogCount < backlogMax) :
    Faithful (b.connect fd lfd).tick (queued t fd lfd port) := by
  have listen := (listener_kind route).1
  have apart : lfd ≠ fd := kinds_apart listen kind (by decide)
  refine ⟨sound_connect faithful.sound fd lfd, connect_connected faithful valid apart, ?_, ?_, ?_,
    ?_⟩
  · intro q ep present nonneg
    exact connect_linked faithful kind listen present nonneg
  · intro q ep present
    exact connect_balanced faithful valid.1 kind listen present
  · intro q inside unbound
    rw [queued_queue apart]
    apply faithful.silent q inside
    rw [queued_apply] at unbound
    by_cases isListener : q = lfd
    · subst q
      simp [pushBacklog, listen] at unbound
    · by_cases here : q = fd
      · rw [here]
        exact kind
      · rw [if_neg isListener, if_neg here] at unbound
        exact unbound
  · intro q listens
    exact connect_backlog bounded faithful ⟨route.1, listen⟩ room apart listens

end Connect

/-- A client that waits in a line has no peer: its connection has no server
end yet. -/
theorem waiting_of_connected {b : Books} {t : Table} (faithful : Faithful b t) {lfd fd : Int}
    {conn : Nat} (member : (conn, fd) ∈ b.waiting lfd)
    (present : b.endpoint fd = some ⟨conn, .client⟩) : Waiting t fd := by
  have connected := connected_of_endpoint faithful present
  refine ⟨⟨connected.1, by rw [connected.2]; decide⟩, connected.2, ?_⟩
  by_contra nonneg
  have peer := faithful.linked fd _ present (by omega)
  exact (faithful.sound.unserved lfd conn fd member).1 _ peer

section Accept

variable {b : Books} {t : Table} {lfd newFd : Int} {conn : Nat} {rest : List (Nat × Int)}

theorem accept_kind (apart : nextClient (t lfd) ≠ newFd) {q : Int} (other : q ≠ newFd) :
    (paired t lfd newFd q).kind = (t q).kind := by
  by_cases isClient : q = nextClient (t lfd)
  · rw [isClient]
    exact (paired_client apart).1
  · exact (paired_other other isClient).1

theorem accept_queue {q : Int} (other : q ≠ newFd) :
    rxQueue (paired t lfd newFd q) = rxQueue (t q) := by
  rw [paired_queue]
  exact minted_queue other

theorem served_other {q : Int} (other : q ≠ newFd) :
    (b.served lfd newFd conn rest).endpoint q = b.endpoint q := by
  simp [Books.served, other]

/-- The client and the minted entry name each other, the others whom they did. -/
theorem accept_linked (faithful : Faithful b t) (free : (t newFd).kind = .free)
    (present : b.endpoint (nextClient (t lfd)) = some ⟨conn, .client⟩) {q : Int} {ep : Endpoint}
    (held : (b.served lfd newFd conn rest).endpoint q = some ep)
    (nonneg : 0 ≤ (paired t lfd newFd q).peerFd) :
    (b.served lfd newFd conn rest).endpoint (paired t lfd newFd q).peerFd = some ep.partner := by
  have notNew : ∀ {fd ep}, b.endpoint fd = some ep → fd ≠ newFd := by
    intro fd ep known
    exact kinds_apart (connected_of_endpoint faithful known).2 free (by decide)
  have apart := notNew present
  rcases served_endpoint held with ⟨rfl, rfl⟩ | ⟨here, old⟩
  · rw [(paired_fresh apart).2, served_other apart]
    exact present
  · by_cases isClient : q = nextClient (t lfd)
    · subst q
      rw [present] at old
      cases old
      rw [(paired_client apart).2]
      simp [Books.served, Endpoint.partner]
    · rw [(paired_other here isClient).2] at nonneg ⊢
      have peer := faithful.linked q ep old nonneg
      rw [served_other (notNew peer)]
      exact peer

theorem accept_balanced (faithful : Faithful b t)
    (unserved : ∀ q, b.endpoint q ≠ some ⟨conn, .server⟩)
    (unsent : b.sent ⟨conn, .server⟩ = []) (unreceived : b.received ⟨conn, .server⟩ = [])
    {q : Int} {ep : Endpoint} (held : (b.served lfd newFd conn rest).endpoint q = some ep) :
    b.received ep ++ rxQueue (paired t lfd newFd q) =
      (b.served lfd newFd conn rest).sent ep.partner := by
  rcases served_endpoint held with ⟨rfl, rfl⟩ | ⟨here, old⟩
  · have empty : rxQueue (paired t lfd q q) = [] := by
      rw [paired_queue]
      simp [minted, rxQueue, acceptedEntry, blankEntry, zeroEntry, live]
    rw [empty, unreceived]
    simp [Books.served, Endpoint.partner]
  · rw [accept_queue here, faithful.balanced q ep old]
    by_cases mine : ep.conn = conn
    · -- The accepted client: its partner has sent nothing yet.
      rcases endpoint_cases ep with isClient | isServer
      · rw [isClient, mine]
        simp [Books.served, Endpoint.partner, unsent]
      · rw [isServer, mine] at old
        exact absurd old (unserved q)
    · simp [Books.served, mine]

theorem accept_backlog (bounded : Bounded t) (faithful : Faithful b t)
    (waiting : 0 < (t lfd).backlogCount)
    (line : b.waiting lfd = (conn, nextClient (t lfd)) :: rest) {q : Int} (other : q ≠ newFd)
    (listens : IsListener t q) :
    ((b.served lfd newFd conn rest).waiting q).map Prod.snd = pending (paired t lfd newFd q) := by
  have ring : pending (paired t lfd newFd q) = pending (minted t lfd newFd q) := by
    rw [paired_apply]
    rfl
  have before := faithful.backlog q listens
  by_cases isListener : q = lfd
  · subst q
    rw [line, List.map_cons, pending_pop (bounded.entries lfd) waiting] at before
    rw [ring, minted_apply, if_neg other, if_pos rfl]
    simpa [Books.served] using (List.cons.inj before).2
  · rw [ring, minted_apply, if_neg other, if_neg isListener]
    simpa [Books.served, isListener] using before

theorem faithful_accept (bounded : Bounded t) (faithful : Faithful b t)
    (waiting : 0 < (t lfd).backlogCount) (first : FirstHit t isFree newFd)
    (line : b.waiting lfd = (conn, nextClient (t lfd)) :: rest)
    (present : b.endpoint (nextClient (t lfd)) = some ⟨conn, .client⟩) :
    Faithful (b.served lfd newFd conn rest) (paired t lfd newFd) := by
  have free := firstFree_kind first
  have member : (conn, nextClient (t lfd)) ∈ b.waiting lfd := by
    rw [line]
    exact List.mem_cons_self
  obtain ⟨unserved, unsent, unreceived⟩ := faithful.sound.unserved _ _ _ member
  have apart : nextClient (t lfd) ≠ newFd :=
    kinds_apart (connected_of_endpoint faithful present).2 free (by decide)
  have newKind := (paired_fresh apart).1
  refine ⟨sound_served faithful.sound line, ?_, ?_, ?_, ?_, ?_⟩
  · intro q
    by_cases here : q = newFd
    · subst q
      simp [Books.served, IsConnected, newKind, first.1]
    · rw [served_other here, IsConnected, accept_kind apart here]
      exact faithful.connected q
  · intro q ep held nonneg
    exact accept_linked faithful free present held nonneg
  · intro q ep held
    exact accept_balanced faithful unserved unsent unreceived held
  · intro q inside unbound
    have here : q ≠ newFd := kinds_apart unbound newKind (by decide)
    rw [accept_kind apart here] at unbound
    rw [accept_queue here]
    exact faithful.silent q inside unbound
  · intro q listens
    have here : q ≠ newFd := kinds_apart listens.2 newKind (by decide)
    rw [IsListener, accept_kind apart here] at listens
    exact accept_backlog bounded faithful waiting line here listens

end Accept

/-- A transfer changes the queue of one connected entry and the bytes entered
in the books, and nothing else that `Faithful` speaks of. -/
theorem faithful_transfer {b b' : Books} {t : Table} (faithful : Faithful b t) (sound : Sound b')
    (endpoints : b'.endpoint = b.endpoint) (lines : b'.waiting = b.waiting) {fd : Int}
    {e : FdEntry} (connected : IsConnected t fd) (kind : e.kind = (t fd).kind)
    (peer : e.peerFd = (t fd).peerFd)
    (balanced : ∀ q ep, b.endpoint q = some ep →
      b'.received ep ++ rxQueue (Function.update t fd e q) = b'.sent ep.partner) :
    Faithful b' (Function.update t fd e) := by
  have kinds : ∀ q, (Function.update t fd e q).kind = (t q).kind := by
    intro q
    by_cases here : q = fd
    · subst q
      simpa using kind
    · simp [here]
  have peers : ∀ q, (Function.update t fd e q).peerFd = (t q).peerFd := by
    intro q
    by_cases here : q = fd
    · subst q
      simpa using peer
    · simp [here]
  have elsewhere : ∀ {q other}, (t q).kind = other → other ≠ .connected →
      Function.update t fd e q = t q := by
    intro q other known apart
    apply Function.update_of_ne
    rintro rfl
    exact apart (known.symm.trans connected.2)
  refine ⟨sound, ?_, ?_, ?_, ?_, ?_⟩
  · intro q
    rw [endpoints, IsConnected, kinds]
    exact faithful.connected q
  · intro q ep present nonneg
    rw [peers] at nonneg ⊢
    rw [endpoints] at present ⊢
    exact faithful.linked q ep present nonneg
  · intro q ep present
    rw [endpoints] at present
    exact balanced q ep present
  · intro q inside unbound
    rw [kinds] at unbound
    rw [elsewhere unbound (by decide)]
    exact faithful.silent q inside unbound
  · intro q listener
    rw [IsListener, kinds] at listener
    rw [elsewhere listener.2 (by decide), lines]
    exact faithful.backlog q listener

theorem faithful_send {b : Books} {t : Table} (bounded : Bounded t) (faithful : Faithful b t)
    {fd : Int} (valid : IsOpen t fd) (kind : (t fd).kind = .connected)
    (peer : IsOpen t (t fd).peerFd) (data : Int → UInt8) {count : Int} (lower : 0 ≤ count) :
    Faithful (b.send fd (window data 0 count.toNat))
      (Function.update t (t fd).peerFd (deposit (t (t fd).peerFd) data count)) := by
  obtain ⟨ep, present⟩ := (faithful.connected fd).mpr ⟨valid.1, kind⟩
  have partner := faithful.linked fd ep present (inTable_nonneg peer.1)
  have books : b.send fd (window data 0 count.toNat) =
      { b with sent := Function.update b.sent ep (b.sent ep ++ window data 0 count.toNat) } := by
    simp [Books.send, present]
  rw [books]
  refine faithful_transfer faithful ?_ (by rfl) (by rfl) (connected_of_endpoint faithful partner)
    (deposit_kind ..) (deposit_peer ..) ?_
  · refine sound_entered faithful.sound present rfl rfl rfl ?_ fun _ _ => rfl
    intro other apart
    exact Function.update_of_ne apart ..
  · intro q end_ held
    have before := faithful.balanced q end_ held
    by_cases here : q = (t fd).peerFd
    · subst q
      rw [partner] at held
      cases held
      rw [Function.update_self, deposit_queue (bounded.entries _) _ lower]
      simp only [partner_partner, Function.update_self] at before ⊢
      rw [← List.append_assoc, before]
    · have apart : end_.partner ≠ ep := by
        rintro rfl
        rw [partner_partner] at partner
        exact here (faithful.sound.unique _ _ _ held partner)
      rw [Function.update_of_ne here]
      simpa [apart] using before

theorem faithful_receive {b : Books} {t : Table} (bounded : Bounded t) (faithful : Faithful b t)
    {fd : Int} (valid : IsOpen t fd) (kind : (t fd).kind = .connected) {count : Int}
    (lower : 0 ≤ count) (upper : count ≤ live (t fd)) :
    Faithful (b.receive fd ((rxQueue (t fd)).take count.toNat))
      (Function.update t fd (withdraw (t fd) count)) := by
  obtain ⟨ep, present⟩ := (faithful.connected fd).mpr ⟨valid.1, kind⟩
  have books : b.receive fd ((rxQueue (t fd)).take count.toNat) =
      { b with
        received := Function.update b.received ep
          (b.received ep ++ (rxQueue (t fd)).take count.toNat) } := by
    simp [Books.receive, present]
  rw [books]
  refine faithful_transfer faithful ?_ (by rfl) (by rfl) ⟨valid.1, kind⟩ (withdraw_kind ..)
    (withdraw_peer ..) ?_
  · refine sound_entered faithful.sound present rfl rfl rfl (fun _ _ => rfl) ?_
    intro other apart
    exact Function.update_of_ne apart ..
  · intro q end_ held
    have before := faithful.balanced q end_ held
    by_cases here : q = fd
    · subst q
      rw [present] at held
      cases held
      rw [Function.update_self, withdraw_queue (bounded.entries _) lower upper]
      simp only [Function.update_self]
      rw [List.append_assoc, List.take_append_drop, before]
    · have apart : end_ ≠ ep := by
        rintro rfl
        exact here (faithful.sound.unique _ _ _ held present)
      rw [Function.update_of_ne here]
      simpa [apart] using before

/-- Every request keeps the books faithful, an accept on the condition that it
takes a client that has not been closed since it connected. -/
theorem outcome_faithful {b : Books} {t t' : Table} {r reply : NetstackReq} (bounded : Bounded t)
    (faithful : Faithful b t) (links : PeerLinks t) (outcome : Outcome t r t' reply)
    (connected : AcceptsConnected b t r) :
    Faithful (b.settle t ⟨r, reply⟩).tick t' := by
  cases outcome with
  | refused why err =>
      have failed := refused_not_ok why err
      rw [Books.settle, if_neg failed]
      exact faithful_tick faithful
  | passive op ok =>
      rcases op with op | op <;>
      · rw [settle_eq (x := ⟨r, reply⟩) op ok]
        exact faithful_tick faithful
  | opened op first =>
      have free := firstFree_kind first
      rw [settle_eq (x := ⟨r, _⟩) op (by rfl)]
      refine faithful_tick (faithful_update faithful ?_ ?_ ?_ ?_)
      · simp [free]
      · simp [socketEntry]
      · simp [socketEntry, blankEntry, zeroEntry, rxQueue, live]
      · simp [socketEntry]
  | closed op valid =>
      rw [settle_eq (x := ⟨r, _⟩) op (by rfl)]
      exact faithful_tick (faithful_close faithful links)
  | bound op valid kind unused =>
      rw [settle_eq (x := ⟨r, _⟩) op (by rfl)]
      refine faithful_tick (faithful_update faithful ?_ ?_ ?_ ?_)
      · simp [kind]
      · simp [kind]
      · intro _
        exact faithful.silent _ valid.1 kind
      · simp [kind]
  | listening op valid kind port =>
      rw [settle_eq (x := ⟨r, _⟩) op (by rfl)]
      exact faithful_tick (faithful_listen faithful kind)
  | queued op valid kind route room =>
      rw [settle_eq (x := ⟨r, _⟩) op (by rfl)]
      rw [Books.enter, routed_eq route]
      exact faithful_connect bounded faithful valid kind route room
  | @paired newFd op valid kind waiting first =>
      -- The line of the books is the backlog, so its first client is the one popped.
      have line := faithful.backlog r.u.accept.sock ⟨valid.1, kind⟩
      rw [pending_pop (bounded.entries _) waiting] at line
      obtain ⟨⟨conn, fd⟩, rest, whole, rfl, -⟩ := List.map_eq_cons_iff.mp line
      have present := connected newFd ⟨op, valid, kind, waiting, first⟩ conn _ rest whole
      rw [settle_eq (x := ⟨r, _⟩) op (by rfl)]
      rw [Books.enter, Books.accept, whole]
      exact faithful_tick (faithful_accept bounded faithful waiting first whole present)
  | sent op valid kind peer lower upper room =>
      have fits := acceptable_range (bounded.entries (t r.u.send.sock).peerFd) lower
      rw [settle_eq (x := ⟨r, _⟩) op (by rfl)]
      exact faithful_tick (faithful_send bounded faithful valid kind peer _ fits.1)
  | ended op valid kind empty peer =>
      obtain ⟨ep, present⟩ := (faithful.connected r.u.recv.sock).mpr ⟨valid.1, kind⟩
      rw [settle_eq (x := ⟨r, _⟩) op (by rfl)]
      simpa [Books.enter, Books.receive, present, returnedBytes] using faithful_tick faithful
  | received op valid kind some_ =>
      have fits := readable_range (bounded.entries r.u.recv.sock) r.u.recv.lenIn
      rw [settle_eq (x := ⟨r, _⟩) op (by rfl)]
      simp only [Books.enter, returnedBytes]
      rw [withdrawn_bytes fits.1 fits.2.1]
      exact faithful_tick (faithful_receive bounded faithful valid kind fits.1 fits.2.1)

theorem accepts_waiting_of_connected {b : Books} {t : Table} {r : NetstackReq}
    (bounded : Bounded t) (faithful : Faithful b t) (connected : AcceptsConnected b t r) :
    AcceptsWaiting t r := by
  intro newFd accepting
  have line := faithful.backlog r.u.accept.sock ⟨accepting.valid.1, accepting.kind⟩
  rw [pending_pop (bounded.entries _) accepting.waiting] at line
  obtain ⟨⟨conn, fd⟩, rest, whole, same, -⟩ := List.map_eq_cons_iff.mp line
  have member : (conn, fd) ∈ b.waiting r.u.accept.sock := by
    rw [whole]
    exact List.mem_cons_self
  have waits := waiting_of_connected faithful member (connected newFd accepting conn fd rest whole)
  rw [← same]
  exact waits

theorem outcome_receives {b : Books} {t t' : Table} {r reply : NetstackReq} (bounded : Bounded t)
    (faithful : Faithful b t) (outcome : Outcome t r t' reply) : ReceivesOwn b ⟨r, reply⟩ := by
  intro op ok
  cases outcome with
  | refused why err => exact absurd ok (refused_not_ok why err)
  | ended _ valid kind empty peer =>
      obtain ⟨ep, present⟩ := (faithful.connected r.u.recv.sock).mpr ⟨valid.1, kind⟩
      refine ⟨ep, present, rxQueue (t r.u.recv.sock), ?_⟩
      rw [← faithful.balanced _ ep present]
      simp [returnedBytes]
  | received _ valid kind some_ =>
      have fits := readable_range (bounded.entries r.u.recv.sock) r.u.recv.lenIn
      obtain ⟨ep, present⟩ := (faithful.connected r.u.recv.sock).mpr ⟨valid.1, kind⟩
      refine ⟨ep, present, (rxQueue (t r.u.recv.sock)).drop
        (readable (t r.u.recv.sock) r.u.recv.lenIn).toNat, ?_⟩
      simp only [returnedBytes]
      rw [withdrawn_bytes fits.1 fits.2.1, List.append_assoc, List.take_append_drop]
      exact faithful.balanced _ ep present
  | passive other => simp_all
  | _ => simp_all

/-- In a run whose accepts all take clients that have not been closed since
they connected, every receive returns bytes of its own connection only: those
the socket paired with it by the accept has sent since, in order, none twice. -/
theorem receives_own_connection (history : History) (s : Engine) (run : Run history s)
    (connected : Along Books.record
      (fun b move => AcceptsConnected b move.before.table move.label.req) .blank history) :
    Along Books.record (fun b move => ReceivesOwn b move.label) .blank history := by
  refine (observed_invariant
    (fun b s => Bounded s.table ∧ PeerLinks s.table ∧ Faithful b s.table) _
    ⟨initial_bounded, initial_links, faithful_initial⟩ ?_ ?_ run connected).2
  · rintro b before x after ⟨bounded, links, faithful⟩ served guard
    have outcome := outcome_of_dispatch bounded served
    have waits := accepts_waiting_of_connected bounded faithful guard
    exact ⟨outcome_bounded bounded outcome, (outcome_links_iff bounded links outcome).mpr waits,
      outcome_faithful bounded faithful links outcome guard⟩
  · rintro b before x after ⟨bounded, -, faithful⟩ served -
    exact outcome_receives bounded faithful (outcome_of_dispatch bounded served)

theorem echo_receives_own :
    Along Books.record (fun b move => ReceivesOwn b move.label) .blank (historyOf initial echo) ∧
      ((historyOf initial echo).drop 7).map (fun move => returnedBytes move.label) =
        [[104, 105], [], [111], [107]] := by
  refine ⟨receives_own_connection _ _ (run_from_initial echo) ?_, by decide +kernel⟩
  have heads : Along Books.record (fun b move => move.label.req.kind = .accept →
      ∀ waits ∈ (b.waiting move.label.req.u.accept.sock).head?,
        b.endpoint waits.2 = some ⟨waits.1, .client⟩) .blank (historyOf initial echo) := by
    decide +kernel
  refine along_mono ?_ heads
  intro b move head newFd accepting conn fd rest line
  exact head accepting.op (conn, fd) (by simp [line])

/-- The client closes before it is accepted; the accept gives its number to the
server end, which then receives what it sends. -/
def abandonedEcho : List NetstackReq :=
  abandonedConnect ++ [Call.send 4 (text [104]) 1, .recv 4 16].map Call.request

theorem abandoned_echo_receives_itself :
    Run (historyOf initial abandonedEcho) (stateAfter initial abandonedEcho) ∧
      ¬ Along Books.record (fun b move => ReceivesOwn b move.label) .blank
        (historyOf initial abandonedEcho) := by
  refine ⟨run_from_initial abandonedEcho, ?_⟩
  intro along
  have heard : ¬ Along Books.record (fun b move => move.label.req.kind = .recv →
      move.label.reply.ok → ∀ ep ∈ b.endpoint move.label.req.u.recv.sock,
        b.received ep ++ returnedBytes move.label <+: b.sent ep.partner) .blank
      (historyOf initial abandonedEcho) := by
    decide +kernel
  refine heard (along_mono ?_ along)
  intro b move own op ok ep known
  obtain ⟨held, present, whole⟩ := own op ok
  rw [present, Option.mem_some_iff] at known
  rw [← known]
  exact whole

end Netstack.FdTable
