import Mathlib.Data.List.Find
import Netstack.Backlog
import Netstack.RxQueue
import Netstack.SocketNet

/-!
The fd table implements a network of sockets. The view of a table forgets the arrays: an
entry that is not free is a socket, its receive buffer and its backlog are the lists that
stand in them. Every request then does to the view what the network does, and the reply
says what the network answers.
-/

namespace Netstack.Network

open FdTable Ipc SocketNet Transition Window

abbrev Sockets := Net Int UInt16 UInt8

def limits : Limits Int UInt16 where
  names := tableFds
  unnamed := 0
  buffer := 4096
  depth := 4
  message := 1024

def peerName (e : FdEntry) : Option Int := if e.peerFd < 0 then none else some e.peerFd

def socketOf (e : FdEntry) : Option (Socket Int UInt16 UInt8) :=
  match e.kind with
  | .free => none
  | .unbound => some ⟨e.localPort, .unbound, rxQueue e⟩
  | .listen => some ⟨e.localPort, .listening (pending e), rxQueue e⟩
  | .connected => some ⟨e.localPort, .connected (peerName e), rxQueue e⟩

def view (t : Table) : Sockets := fun fd => if InTable fd then socketOf (t fd) else none

def errno : Failure → Int
  | .badName => netstackEbadf
  | .invalid => netstackEinval
  | .noNames => emfile
  | .portUsed => netstackEaddrinuse
  | .refused => netstackEconnrefused
  | .tryAgain => netstackEagain
  | .notConnected => netstackEnotconn
  | .tooLong => netstackEmsgsize

def failures : List Failure :=
  [.badName, .invalid, .noNames, .portUsed, .refused, .tryAgain, .notConnected, .tooLong]

/-- The bytes of a send, if its length is one. -/
def message (r : NetstackReq) : Option (List UInt8) :=
  if r.u.send.lenIn < 0 then none else some (sentBytes r)

/-- What a request asks of the network, if it concerns it. -/
def call (r : NetstackReq) : Option (Call Int UInt16 UInt8) :=
  match r.kind with
  | .socket => some .socket
  | .close => some (.close r.u.close.sock)
  | .bind => some (.bind r.u.bind.sock r.u.bind.port)
  | .listen => some (.listen r.u.listen.sock)
  | .connect => some (.connect r.u.connect.sock r.u.connect.port)
  | .accept => some (.accept r.u.accept.sock)
  | .send => some (.send r.u.send.sock (message r))
  | .recv => some (.receive r.u.recv.sock r.u.recv.lenIn.toNat)
  | .ping | .shutdown | .unknown => none

/-- What a reply says. -/
def response (r : NetstackReq) (reply : NetstackReq) : Option (Response Int UInt16 UInt8) :=
  if reply.err = netstackOk then
    some (match r.kind with
      | .socket => .opened reply.u.socket.sock
      | .accept => .accepted reply.u.accept.newSock reply.u.accept.peerPort
      | .send => .sent reply.u.send.lenOut.toNat
      | .recv => .received (window reply.u.recv.data 0 reply.u.recv.lenOut.toNat)
      | _ => .done)
  else (failures.find? fun why => errno why = reply.err).map .failed

theorem response_failed {r reply : NetstackReq} {why : Failure} (err : reply.err = errno why) :
    response r reply = some (.failed why) := by
  have wrong : errno why ≠ netstackOk := by
    cases why <;> decide
  have found : failures.find? (fun other => errno other = errno why) = some why := by
    cases why <;> rfl
  rw [response, err, if_neg wrong, found]
  rfl

/-! The view of a table. -/

variable {t : Table} {fd : Int} {e : FdEntry}

theorem view_update (inside : InTable fd) :
    view (Function.update t fd e) = Function.update (view t) fd (socketOf e) := by
  funext other
  by_cases same : other = fd
  · subst same
    rw [Function.update_self, view, if_pos inside, Function.update_self]
  · rw [Function.update_of_ne same, view, view, Function.update_of_ne same]

theorem view_closed (bad : ¬ IsOpen t fd) : view t fd = none := by
  rw [view]
  split
  · rename_i inside
    have kind : (t fd).kind = .free := by
      by_contra used
      exact bad ⟨inside, used⟩
    rw [socketOf, kind]
  · rfl

theorem view_open (valid : IsOpen t fd) : view t fd = socketOf (t fd) := by
  rw [view, if_pos valid.1]

theorem view_isSome : (view t fd).isSome = decide (IsOpen t fd) := by
  by_cases valid : IsOpen t fd
  · rw [view_open valid, decide_eq_true valid, socketOf]
    have used := valid.2
    cases kind : (t fd).kind with
    | free => exact absurd kind used
    | _ => rfl
  · rw [view_closed valid, decide_eq_false valid]
    rfl

theorem view_unbound (valid : IsOpen t fd) (kind : (t fd).kind = .unbound) :
    view t fd = some ⟨(t fd).localPort, .unbound, rxQueue (t fd)⟩ := by
  rw [view_open valid, socketOf, kind]

theorem view_listen (valid : IsOpen t fd) (kind : (t fd).kind = .listen) :
    view t fd = some ⟨(t fd).localPort, .listening (pending (t fd)), rxQueue (t fd)⟩ := by
  rw [view_open valid, socketOf, kind]

theorem view_connected (valid : IsOpen t fd) (kind : (t fd).kind = .connected) :
    view t fd = some ⟨(t fd).localPort, .connected (peerName (t fd)), rxQueue (t fd)⟩ := by
  rw [view_open valid, socketOf, kind]

/-! A scan of the table finds what a search of the names finds. -/

theorem tableFds_sorted : tableFds.Pairwise (· < ·) := by
  rw [tableFds, List.pairwise_map]
  refine List.Pairwise.imp ?_ List.pairwise_lt_range
  intro a b less
  omega

theorem find_noHit {hit : FdEntry → Bool} (none_ : NoHit t hit) :
    tableFds.find? (fun fd => hit (t fd)) = none := by
  rw [List.find?_eq_none]
  intro fd member
  simpa using none_ fd (mem_tableFds.mp member)

theorem find_firstHit {hit : FdEntry → Bool} (first : FirstHit t hit fd) :
    tableFds.find? (fun fd => hit (t fd)) = some fd := by
  obtain ⟨inside, passed, earlier⟩ := first
  obtain ⟨before, after, split⟩ := List.append_of_mem (mem_tableFds.mpr inside)
  have sorted := tableFds_sorted
  rw [split, List.pairwise_append] at sorted
  rw [List.find?_eq_some_iff_append]
  refine ⟨passed, before, after, split, ?_⟩
  intro other member
  have less := sorted.2.2 other member fd List.mem_cons_self
  have known : InTable other := by
    rw [← mem_tableFds, split]
    exact List.mem_append_left _ member
  simp [earlier other known.1 less]

theorem socketOf_isNone (e : FdEntry) : (socketOf e).isNone = isFree e := by
  rw [socketOf, isFree]
  cases e.kind <;> rfl

theorem socketOf_listensOn (port : UInt16) (e : FdEntry) :
    (socketOf e).any (Socket.listensOn port) = isListener port e := by
  rw [socketOf, isListener]
  cases e.kind <;> simp [Socket.listensOn, beq_eq_decide]

theorem socketOf_holdsPort (port : UInt16) (e : FdEntry) :
    (socketOf e).any (Socket.holdsPort port) = FdTable.holdsPort port e := by
  rw [socketOf, FdTable.holdsPort]
  cases e.kind <;> simp [Socket.holdsPort, beq_eq_decide]

/-- A search of the names looks at the entries of the table. -/
theorem find_view {hit : FdEntry → Bool} {test : Option (Socket Int UInt16 UInt8) → Bool}
    (same : ∀ e, test (socketOf e) = hit e) :
    tableFds.find? (fun fd => test (view t fd)) = tableFds.find? fun fd => hit (t fd) := by
  apply List.find?_congr
  intro fd member
  rw [view, if_pos (mem_tableFds.mp member), same]

theorem fresh_none (full : NoHit t isFree) : fresh limits (view t) = none :=
  (find_view socketOf_isNone).trans (find_noHit full)

theorem fresh_some (first : FirstHit t isFree fd) : fresh limits (view t) = some fd :=
  (find_view socketOf_isNone).trans (find_firstHit first)

theorem listener_none {port : UInt16} (none_ : NoHit t (isListener port)) :
    listener limits (view t) port = none :=
  (find_view (socketOf_listensOn port)).trans (find_noHit none_)

theorem listener_some {port : UInt16} (first : FirstHit t (isListener port) fd) :
    listener limits (view t) port = some fd :=
  (find_view (socketOf_listensOn port)).trans (find_firstHit first)

theorem used_iff {port : UInt16} :
    used limits (view t) port = true ↔ ¬ NoHit t (FdTable.holdsPort port) := by
  simp only [used, limits, List.any_eq_true, NoHit, not_forall]
  constructor
  · rintro ⟨fd, member, hit⟩
    rw [view, if_pos (mem_tableFds.mp member), socketOf_holdsPort] at hit
    exact ⟨fd, mem_tableFds.mp member, by simp [hit]⟩
  · rintro ⟨fd, inside, hit⟩
    refine ⟨fd, mem_tableFds.mpr inside, ?_⟩
    rw [view, if_pos inside, socketOf_holdsPort]
    simpa using hit

/-! Requests. -/

/-- The network answers the call with what the reply says, and is then the view of `t'`. -/
def Answers (t : Table) (r : NetstackReq) (c : Call Int UInt16 UInt8) (t' : Table)
    (reply : NetstackReq) : Prop :=
  ∃ said, response r reply = some said ∧ respond limits (view t) c = (view t', said)

theorem socket_answers {t t' : Table} {r reply : NetstackReq} (op : r.kind = .socket)
    (outcome : Outcome t r t' reply) : Answers t r .socket t' reply := by
  cases outcome with
  | refused why err =>
      subst err
      generalize known : reply.err = code at why
      cases why with
      | socketFull _ full =>
          refine ⟨.failed .noNames, response_failed known, ?_⟩
          simp only [respond, fresh_none full]
      | _ => simp_all
  | @opened fd _ first =>
      refine ⟨.opened fd, by simp [response, op], ?_⟩
      simp only [respond, fresh_some first, view_update first.1]
      rfl
  | passive other => simp_all
  | _ => simp_all

theorem socketOf_forsaken (e : FdEntry) :
    socketOf { e with peerFd := -1 } = (socketOf e).map Socket.forsake := by
  simp only [socketOf]
  cases e.kind <;> rfl

theorem socketOf_attached (e : FdEntry) {peer : Int} (inside : InTable peer) :
    socketOf { e with peerFd := peer } = (socketOf e).map (Socket.attach peer) := by
  have named : ¬ peer < 0 := by
    have lower := inTable_nonneg inside
    omega
  simp only [socketOf, peerName, if_neg named]
  cases e.kind <;> rfl

theorem amend_none {net : Sockets} {name : Int}
    {change : Socket Int UInt16 UInt8 → Socket Int UInt16 UInt8} (absent : net name = none) :
    amend net name change = net := by
  rw [amend, absent, Option.map_none, ← absent, Function.update_eq_self]

theorem view_detach (valid : IsOpen t fd) :
    ∃ socket, view t fd = some socket ∧ view (detach t fd) = leave (view t) socket := by
  by_cases kind : (t fd).kind = .connected
  · refine ⟨_, view_connected valid kind, ?_⟩
    by_cases peer : IsOpen t (t fd).peerFd
    · have named : ¬ (t fd).peerFd < 0 := by
        have lower := inTable_nonneg peer.1
        omega
      simp only [detach, kind, peer, and_self, if_true, leave, peerName, if_neg named, amend,
        view_update peer.1, view_open peer, socketOf_forsaken]
    · simp only [detach, kind, peer, and_false, if_false, leave, peerName]
      split
      · rename_i gone
        split at gone
        · cases gone
        · cases gone
          rw [amend_none (view_closed peer)]
      · rfl
  · have kept : detach t fd = t := by
      simp [detach, kind]
    rw [kept]
    cases known : (t fd).kind with
    | free => exact absurd known valid.2
    | unbound => exact ⟨_, view_unbound valid known, rfl⟩
    | listen => exact ⟨_, view_listen valid known, rfl⟩
    | connected => exact absurd known kind

theorem close_answers {t t' : Table} {r reply : NetstackReq} (op : r.kind = .close)
    (outcome : Outcome t r t' reply) : Answers t r (.close r.u.close.sock) t' reply := by
  cases outcome with
  | refused why err =>
      subst err
      generalize known : reply.err = code at why
      cases why with
      | closeBad _ bad =>
          refine ⟨.failed .badName, response_failed known, ?_⟩
          simp only [respond, onSocket, view_closed bad]
      | _ => simp_all
  | closed _ valid =>
      refine ⟨.done, by simp [response, op], ?_⟩
      obtain ⟨socket, known, left_⟩ := view_detach valid
      simp only [respond, onSocket, known, FdTable.closed, view_update valid.1, left_]
      rfl
  | passive other => simp_all
  | _ => simp_all

/-- A socket that is no longer unbound. -/
theorem view_settled (valid : IsOpen t fd) (kind : (t fd).kind ≠ .unbound) :
    ∃ socket, view t fd = some socket ∧ socket.role ≠ .unbound := by
  cases known : (t fd).kind with
  | free => exact absurd known valid.2
  | unbound => exact absurd known kind
  | listen => exact ⟨_, view_listen valid known, nofun⟩
  | connected => exact ⟨_, view_connected valid known, nofun⟩

-- A refusal does not say which of two reasons was looked at first, the handler does.
theorem bind_settled {t : Table} {r : NetstackReq} (valid : IsOpen t r.u.bind.sock)
    (kind : (t r.u.bind.sock).kind ≠ .unbound) :
    fdtableDispatchBind t r = .ok (t, { r with err := netstackEinval }) := by
  unfold fdtableDispatchBind
  simp only [fdValid_true valid, ok_bind, Bool.not_true, Bool.false_eq_true, if_false,
    entryAt_ok valid.1, if_pos kind]
  rfl

theorem bind_answers {t t' : Table} {r reply : NetstackReq} (op : r.kind = .bind)
    (ran : fdtableDispatchBind t r = .ok (t', reply)) (outcome : Outcome t r t' reply) :
    Answers t r (.bind r.u.bind.sock r.u.bind.port) t' reply := by
  cases outcome with
  | refused why err =>
      subst err
      generalize known : reply.err = code at why
      cases why with
      | bindBad _ bad =>
          refine ⟨.failed .badName, response_failed known, ?_⟩
          simp only [respond, onSocket, view_closed bad]
      | bindKind _ valid kind =>
          refine ⟨.failed .invalid, response_failed known, ?_⟩
          obtain ⟨socket, shown, settled⟩ := view_settled valid kind
          simp only [respond, onSocket, shown]
      | bindUsed _ valid busy =>
          by_cases kind : (t r.u.bind.sock).kind = .unbound
          · refine ⟨.failed .portUsed, response_failed known, ?_⟩
            simp only [respond, onSocket, view_unbound valid kind, if_pos (used_iff.mpr busy)]
          · rw [bind_settled valid kind] at ran
            cases ran
            exact absurd known (show netstackEinval ≠ netstackEaddrinuse by decide)
      | _ => simp_all
  | bound _ valid kind unused =>
      refine ⟨.done, by simp [response, op], ?_⟩
      have free : ¬ used limits (view t) r.u.bind.port = true := by
        rw [used_iff]
        exact not_not_intro unused
      simp only [respond, onSocket, view_unbound valid kind, if_neg free, view_update valid.1,
        socketOf, kind]
      rfl
  | passive other => simp_all
  | _ => simp_all

theorem listen_answers {t t' : Table} {r reply : NetstackReq} (op : r.kind = .listen)
    (outcome : Outcome t r t' reply) : Answers t r (.listen r.u.listen.sock) t' reply := by
  cases outcome with
  | refused why err =>
      subst err
      generalize known : reply.err = code at why
      cases why with
      | listenBad _ bad =>
          refine ⟨.failed .badName, response_failed known, ?_⟩
          simp only [respond, onSocket, view_closed bad]
      | listenKind _ valid unfit =>
          refine ⟨.failed .invalid, response_failed known, ?_⟩
          by_cases kind : (t r.u.listen.sock).kind = .unbound
          · have unnamed : (t r.u.listen.sock).localPort = limits.unnamed :=
              unfit.resolve_left (not_not_intro kind)
            simp only [respond, onSocket, view_unbound valid kind, if_pos unnamed]
          · obtain ⟨socket, shown, settled⟩ := view_settled valid kind
            simp only [respond, onSocket, shown]
      | _ => simp_all
  | listening _ valid kind port =>
      refine ⟨.done, by simp [response, op], ?_⟩
      have named : ¬ (t r.u.listen.sock).localPort = limits.unnamed := port
      simp only [respond, onSocket, view_unbound valid kind, if_neg named, view_update valid.1,
        socketOf]
      rfl
  | passive other => simp_all
  | _ => simp_all

theorem socketOf_pushed {e : FdEntry} (bounded : EntryBounded e) (kind : e.kind = .listen)
    (room : e.backlogCount < backlogMax) (client : Int) :
    socketOf (pushBacklog e client) =
      some ⟨e.localPort, .listening (pending e ++ [client]), rxQueue e⟩ := by
  have same : (pushBacklog e client).kind = .listen := kind
  rw [socketOf, same, pending_push bounded room]
  rfl

theorem connect_bad {t : Table} {r : NetstackReq} (bad : ¬ IsOpen t r.u.connect.sock) :
    fdtableDispatchConnect t r = .ok (t, { r with err := netstackEbadf }) := by
  unfold fdtableDispatchConnect
  simp only [fdValid_false bad, ok_bind]
  rfl

theorem connect_settled {t : Table} {r : NetstackReq} (valid : IsOpen t r.u.connect.sock)
    (kind : (t r.u.connect.sock).kind ≠ .unbound) :
    fdtableDispatchConnect t r = .ok (t, { r with err := netstackEinval }) := by
  unfold fdtableDispatchConnect
  simp only [fdValid_true valid, ok_bind, Bool.not_true, Bool.false_eq_true, if_false,
    entryAt_ok valid.1, if_pos kind]
  rfl

theorem connect_answers {t t' : Table} {r reply : NetstackReq} (bounded : Bounded t)
    (op : r.kind = .connect) (ran : fdtableDispatchConnect t r = .ok (t', reply))
    (outcome : Outcome t r t' reply) :
    Answers t r (.connect r.u.connect.sock r.u.connect.port) t' reply := by
  by_cases valid : IsOpen t r.u.connect.sock
  case neg =>
    rw [connect_bad valid] at ran
    cases ran
    refine ⟨.failed .badName, response_failed rfl, ?_⟩
    simp only [respond, onSocket, view_closed valid]
  by_cases kind : (t r.u.connect.sock).kind = .unbound
  case neg =>
    rw [connect_settled valid kind] at ran
    cases ran
    refine ⟨.failed .invalid, response_failed rfl, ?_⟩
    obtain ⟨socket, shown, settled⟩ := view_settled valid kind
    simp only [respond, onSocket, shown]
  have shown := view_unbound valid kind
  cases outcome with
  | refused why err =>
      subst err
      generalize known : reply.err = code at why
      cases why with
      | connectBad _ bad => exact absurd valid bad
      | connectKind _ _ settled => exact absurd kind settled
      | connectNone _ _ none_ =>
          refine ⟨.failed .refused, response_failed known, ?_⟩
          simp only [respond, onSocket, shown, listener_none none_]
      | connectFull _ lfd route full =>
          refine ⟨.failed .tryAgain, response_failed known, ?_⟩
          have listens := (listener_kind route).1
          have host := view_listen (isOpen_of_kind route.1 listens (by decide)) listens
          have deep : limits.depth ≤ (pending (t lfd)).length := by
            rw [pending_length]
            simp only [limits, backlogMax] at full ⊢
            omega
          simp only [respond, onSocket, shown, listener_some route, host, Option.elim,
            Socket.waiting, if_pos deep]
      | _ => simp_all
  | @queued lfd _ _ _ route room =>
      refine ⟨.done, by simp [response, op], ?_⟩
      have listens := (listener_kind route).1
      have host := view_listen (isOpen_of_kind route.1 listens (by decide)) listens
      have apart : lfd ≠ r.u.connect.sock := kinds_apart listens kind (by decide)
      have shallow : ¬ limits.depth ≤ (pending (t lfd)).length := by
        rw [pending_length]
        simp only [limits, backlogMax] at room ⊢
        omega
      simp only [respond, onSocket, shown, listener_some route, host, Option.elim, Socket.waiting,
        if_neg shallow, FdTable.queued, view_update route.1, view_update valid.1, amend,
        Function.update_of_ne apart, socketOf_pushed (bounded.entries lfd) listens room]
      rfl
  | passive other => simp_all
  | _ => simp_all

theorem pending_empty {e : FdEntry} (empty : e.backlogCount = 0) : pending e = [] := by
  apply List.eq_nil_of_length_eq_zero
  rw [pending_length, empty]
  rfl

theorem socketOf_popped {e : FdEntry} (kind : e.kind = .listen) :
    socketOf (popBacklog e) =
      some ⟨e.localPort, .listening (pending (popBacklog e)), rxQueue e⟩ := by
  have same : (popBacklog e).kind = .listen := kind
  rw [socketOf, same]
  rfl

theorem socketOf_accepted (lst : FdEntry) {client : Int} (inside : InTable client) :
    socketOf (acceptedEntry lst client) = some ⟨lst.localPort, .connected (some client), []⟩ := by
  have named : ¬ client < 0 := by
    have lower := inTable_nonneg inside
    omega
  have known : peerName (acceptedEntry lst client) = some client := if_neg named
  have connected : (acceptedEntry lst client).kind = .connected := rfl
  rw [socketOf, connected, known]
  rfl

/-- The table of an accept, the client last. -/
theorem view_paired {newFd : Int} (listener : InTable fd) (fresh : InTable newFd)
    (client : InTable (nextClient (t fd))) :
    view (paired t fd newFd) =
      amend (Function.update (Function.update (view t) fd (socketOf (popBacklog (t fd)))) newFd
        (socketOf (acceptedEntry (t fd) (nextClient (t fd)))))
        (nextClient (t fd)) (Socket.attach newFd) := by
  simp only [paired]
  rw [view_update client, socketOf_attached _ fresh, amend, minted, ← view_update listener,
    ← view_update fresh]
  congr 2
  rw [view, if_pos client]

theorem accept_answers {t t' : Table} {r reply : NetstackReq} (bounded : Bounded t)
    (op : r.kind = .accept) (outcome : Outcome t r t' reply) :
    Answers t r (.accept r.u.accept.sock) t' reply := by
  cases outcome with
  | refused why err =>
      subst err
      generalize known : reply.err = code at why
      cases why with
      | acceptBad _ bad =>
          refine ⟨.failed .badName, response_failed known, ?_⟩
          simp only [respond, onSocket, view_closed bad]
      | acceptKind _ valid kind =>
          refine ⟨.failed .invalid, response_failed known, ?_⟩
          cases role : (t r.u.accept.sock).kind with
          | free => exact absurd role valid.2
          | unbound => simp only [respond, onSocket, view_unbound valid role]
          | listen => exact absurd role kind
          | connected => simp only [respond, onSocket, view_connected valid role]
      | acceptEmpty _ valid kind empty =>
          refine ⟨.failed .tryAgain, response_failed known, ?_⟩
          simp only [respond, onSocket, view_listen valid kind, pending_empty empty]
      | acceptFull _ valid kind waiting full =>
          refine ⟨.failed .noNames, response_failed known, ?_⟩
          have entry := bounded.entries r.u.accept.sock
          have some_ : 0 < (t r.u.accept.sock).backlogCount := by
            have lower := entry.count_range.1
            omega
          simp only [respond, onSocket, view_listen valid kind, pending_pop entry some_,
            fresh_none full]
      | _ => simp_all
  | @paired newFd _ valid kind waiting first =>
      refine ⟨.accepted newFd (t r.u.accept.sock).localPort, by simp [response, op], ?_⟩
      have entry := bounded.entries r.u.accept.sock
      have client := nextClient_inTable entry (by omega)
      simp only [respond, onSocket, view_listen valid kind, pending_pop entry waiting,
        fresh_some first, view_paired valid.1 first.1 client, socketOf_popped kind,
        socketOf_accepted _ client]
  | passive other => simp_all
  | _ => simp_all

/-- The peer of a connected socket is there. -/
theorem peer_isSome : ((peerName (t fd)).bind (view t)).isSome =
    decide (IsOpen t (t fd).peerFd) := by
  rw [peerName]
  split
  · rename_i negative
    have closed : ¬ IsOpen t (t fd).peerFd := by
      rintro ⟨inside, _⟩
      have lower := inTable_nonneg inside
      omega
    rw [decide_eq_false closed]
    rfl
  · exact view_isSome

theorem rxQueue_empty {e : FdEntry} (empty : live e = 0) : rxQueue e = [] := by
  apply List.eq_nil_of_length_eq_zero
  rw [rxQueue_length, empty]
  rfl

/-- An entry whose receive buffer alone has changed. -/
theorem socketOf_buffer {e e' : FdEntry} (kind : e'.kind = e.kind)
    (port : e'.localPort = e.localPort) (peer : e'.peerFd = e.peerFd)
    (backlog : pending e' = pending e) :
    socketOf e' = (socketOf e).map fun socket => { socket with incoming := rxQueue e' } := by
  simp only [socketOf, peerName, kind, port, peer, backlog]
  cases e.kind <;> rfl

theorem socketOf_withdrawn {e : FdEntry} (bounded : EntryBounded e) {count : Int}
    (lower : 0 ≤ count) (upper : count ≤ live e) :
    socketOf (withdraw e count) = (socketOf e).map fun socket =>
      { socket with incoming := (rxQueue e).drop count.toNat } := by
  rw [← withdraw_queue bounded lower upper]
  apply socketOf_buffer <;> rw [withdraw] <;> split <;> rfl

theorem socketOf_deposited {e : FdEntry} (bounded : EntryBounded e) (data : Int → UInt8)
    {count : Int} (lower : 0 ≤ count) :
    socketOf (deposit e data count) = (socketOf e).map fun socket =>
      { socket with incoming := rxQueue e ++ window data 0 count.toNat } := by
  rw [← deposit_queue bounded data lower]
  apply socketOf_buffer <;> simp only [deposit, compacted, pending] <;> split <;> rfl

theorem recv_answers {t t' : Table} {r reply : NetstackReq} (bounded : Bounded t)
    (op : r.kind = .recv) (outcome : Outcome t r t' reply) :
    Answers t r (.receive r.u.recv.sock r.u.recv.lenIn.toNat) t' reply := by
  cases outcome with
  | refused why err =>
      subst err
      generalize known : reply.err = code at why
      cases why with
      | recvBad _ bad =>
          refine ⟨.failed .badName, response_failed known, ?_⟩
          simp only [respond, onSocket, view_closed bad]
      | recvKind _ valid kind =>
          refine ⟨.failed .notConnected, response_failed known, ?_⟩
          cases role : (t r.u.recv.sock).kind with
          | free => exact absurd role valid.2
          | unbound => simp only [respond, onSocket, view_unbound valid role]
          | listen => simp only [respond, onSocket, view_listen valid role]
          | connected => exact absurd role kind
      | recvEmpty _ valid kind empty peer =>
          refine ⟨.failed .tryAgain, response_failed known, ?_⟩
          have reached : ((peerName (t r.u.recv.sock)).bind (view t)).isSome = true := by
            rw [peer_isSome, decide_eq_true peer]
          simp only [respond, onSocket, view_connected valid kind, rxQueue_empty empty, if_true,
            if_pos reached]
      | _ => simp_all
  | ended _ valid kind empty peer =>
      refine ⟨.received [], by simp [response, op], ?_⟩
      have lost : ¬ ((peerName (t r.u.recv.sock)).bind (view t)).isSome = true := by
        rw [peer_isSome, decide_eq_false peer]
        exact Bool.false_ne_true
      simp only [respond, onSocket, view_connected valid kind, rxQueue_empty empty, if_true,
        if_neg lost]
  | received _ valid kind some_ =>
      have entry := bounded.entries r.u.recv.sock
      have fits := readable_range entry r.u.recv.lenIn
      refine ⟨.received ((rxQueue (t r.u.recv.sock)).take
        (readable (t r.u.recv.sock) r.u.recv.lenIn).toNat), ?_, ?_⟩
      · simp only [response, op, if_true]
        rw [withdrawn_bytes fits.1 fits.2.1]
      · have nonempty : rxQueue (t r.u.recv.sock) ≠ [] := by
          intro empty
          have length := rxQueue_length (t r.u.recv.sock)
          rw [empty, List.length_nil] at length
          omega
        have cut : (readable (t r.u.recv.sock) r.u.recv.lenIn).toNat =
            min (min r.u.recv.lenIn.toNat limits.message) (rxQueue (t r.u.recv.sock)).length := by
          rw [rxQueue_length]
          simp only [readable, netstackMaxPayload, limits]
          split_ifs <;> omega
        have known := view_connected valid kind
        have shown : socketOf (t r.u.recv.sock) = _ := (view_open valid).symm.trans known
        simp only [respond, onSocket, known, if_neg nonempty, view_update valid.1,
          socketOf_withdrawn entry fits.1 fits.2.1, shown, Option.map_some, cut,
          ← List.take_eq_take_min, ← List.drop_eq_drop_min]
  | passive other => simp_all
  | _ => simp_all

theorem view_some (valid : IsOpen t fd) :
    ∃ socket, view t fd = some socket ∧ socket.incoming = rxQueue (t fd) := by
  cases known : (t fd).kind with
  | free => exact absurd known valid.2
  | unbound => exact ⟨_, view_unbound valid known, rfl⟩
  | listen => exact ⟨_, view_listen valid known, rfl⟩
  | connected => exact ⟨_, view_connected valid known, rfl⟩

theorem send_alone {t : Table} {r : NetstackReq} (valid : IsOpen t r.u.send.sock)
    (alone : (t r.u.send.sock).kind ≠ .connected ∨ ¬ IsOpen t (t r.u.send.sock).peerFd) :
    fdtableDispatchSend t r = .ok (t, { r with err := netstackEnotconn }) := by
  unfold fdtableDispatchSend
  simp only [fdValid_true valid, ok_bind, Bool.not_true, Bool.false_eq_true, if_false,
    entryAt_ok valid.1]
  by_cases unpaired : (t r.u.send.sock).kind ≠ .connected ∨ (t r.u.send.sock).peerFd < 0
  · rw [if_pos unpaired]
    rfl
  · rw [if_neg unpaired]
    have gone : ¬ IsOpen t (t r.u.send.sock).peerFd :=
      alone.resolve_left fun kind => unpaired (.inl kind)
    simp only [fdValid_false gone, ok_bind]
    rfl

theorem send_size {t : Table} {r : NetstackReq} (valid : IsOpen t r.u.send.sock)
    (kind : (t r.u.send.sock).kind = .connected) (peer : IsOpen t (t r.u.send.sock).peerFd)
    (size : r.u.send.lenIn < 0 ∨ netstackMaxPayload < r.u.send.lenIn) :
    fdtableDispatchSend t r = .ok (t, { r with err := netstackEmsgsize }) := by
  unfold fdtableDispatchSend
  have paired : ¬ ((t r.u.send.sock).kind ≠ .connected ∨ (t r.u.send.sock).peerFd < 0) := by
    have lower := inTable_nonneg peer.1
    rw [not_or]
    exact ⟨not_not_intro kind, by omega⟩
  simp only [fdValid_true valid, ok_bind, Bool.not_true, Bool.false_eq_true, if_false,
    entryAt_ok valid.1, if_neg paired, fdValid_true peer, if_pos size]
  rfl

/-- A send brings as much of its message as there is room for. -/
theorem acceptable_part {e : FdEntry} (bounded : EntryBounded e) {r : NetstackReq}
    (lower : 0 ≤ r.u.send.lenIn) :
    (sentBytes r).take (limits.buffer - (rxQueue e).length) =
      window r.u.send.data 0 (acceptable e r.u.send.lenIn).toNat := by
  have range := live_range bounded
  rw [sentBytes, List.take_eq_take_min, window_length, window_take _ _ (Nat.min_le_right ..),
    rxQueue_length]
  congr 1
  simp only [acceptable, limits, rxbufSize]
  split_ifs <;> omega

theorem send_answers {t t' : Table} {r reply : NetstackReq} (bounded : Bounded t)
    (op : r.kind = .send) (ran : fdtableDispatchSend t r = .ok (t', reply))
    (outcome : Outcome t r t' reply) :
    Answers t r (.send r.u.send.sock (message r)) t' reply := by
  by_cases valid : IsOpen t r.u.send.sock
  case neg =>
    have bad : fdtableDispatchSend t r = .ok (t, { r with err := netstackEbadf }) := by
      unfold fdtableDispatchSend
      simp only [fdValid_false valid, ok_bind]
      rfl
    rw [bad] at ran
    cases ran
    refine ⟨.failed .badName, response_failed rfl, ?_⟩
    simp only [respond, onSocket, view_closed valid]
  by_cases kind : (t r.u.send.sock).kind = .connected
  case neg =>
    rw [send_alone valid (.inl kind)] at ran
    cases ran
    refine ⟨.failed .notConnected, response_failed rfl, ?_⟩
    cases role : (t r.u.send.sock).kind with
    | free => exact absurd role valid.2
    | unbound => simp only [respond, onSocket, view_unbound valid role]
    | listen => simp only [respond, onSocket, view_listen valid role]
    | connected => exact absurd role kind
  have shown := view_connected valid kind
  by_cases peer : IsOpen t (t r.u.send.sock).peerFd
  case neg =>
    rw [send_alone valid (.inr peer)] at ran
    cases ran
    refine ⟨.failed .notConnected, response_failed rfl, ?_⟩
    by_cases negative : (t r.u.send.sock).peerFd < 0
    · simp only [respond, onSocket, shown, peerName, if_pos negative]
    · simp only [respond, onSocket, shown, peerName, if_neg negative, view_closed peer]
  have named : ¬ (t r.u.send.sock).peerFd < 0 := by
    have lower := inTable_nonneg peer.1
    omega
  obtain ⟨other, known, bytes⟩ := view_some peer
  by_cases size : r.u.send.lenIn < 0 ∨ netstackMaxPayload < r.u.send.lenIn
  case pos =>
    rw [send_size valid kind peer size] at ran
    cases ran
    refine ⟨.failed .tooLong, response_failed rfl, ?_⟩
    by_cases negative : r.u.send.lenIn < 0
    · simp only [respond, onSocket, shown, peerName, if_neg named, known, message,
        if_pos negative]
    · have long : limits.message < (sentBytes r).length := by
        simp only [sentBytes, window_length, limits, netstackMaxPayload] at size ⊢
        omega
      simp only [respond, onSocket, shown, peerName, if_neg named, known, message,
        if_neg negative, if_pos long]
  have lower : ¬ r.u.send.lenIn < 0 := by omega
  have upper : r.u.send.lenIn ≤ netstackMaxPayload := by omega
  have entry := bounded.entries (t r.u.send.sock).peerFd
  have short : ¬ limits.message < (sentBytes r).length := by
    simp only [sentBytes, window_length, limits, netstackMaxPayload] at upper ⊢
    omega
  have sends : SendsTo t r (t r.u.send.sock).peerFd :=
    ⟨op, valid, kind, rfl, peer, not_lt.mp lower, upper⟩
  rcases sendsTo_outcome sends outcome with ⟨full, err, rfl⟩ | ⟨room, ok, count, rfl⟩
  · refine ⟨.failed .tryAgain, response_failed err, ?_⟩
    have filled : limits.buffer ≤ other.incoming.length := by
      rw [bytes, rxQueue_length, full]
      decide
    simp only [respond, onSocket, shown, peerName, if_neg named, known, message, if_neg lower,
      if_neg short, if_pos filled]
  · have fits := acceptable_range entry (not_lt.mp lower)
    have part := acceptable_part entry (not_lt.mp lower)
    have open_ : ¬ limits.buffer ≤ (rxQueue (t (t r.u.send.sock).peerFd)).length := by
      have range := live_range entry
      rw [rxQueue_length]
      simp only [limits]
      omega
    have same : socketOf (t (t r.u.send.sock).peerFd) = some other :=
      (view_open peer).symm.trans known
    refine ⟨.sent (acceptable (t (t r.u.send.sock).peerFd) r.u.send.lenIn).toNat, ?_, ?_⟩
    · have accepted : reply.err = netstackOk := ok
      rw [response, if_pos accepted, op, count]
    · simp only [respond, onSocket, shown, peerName, if_neg named, known, message, if_neg lower,
        if_neg short, bytes, if_neg open_, view_update peer.1, socketOf_deposited entry _ fits.1,
        same, Option.map_some, part, window_length]

/-! Whole runs. -/

theorem onTable_inv {s s' : Engine} {result : Except Fault (Table × NetstackReq)}
    {reply : NetstackReq} (ran : s.onTable result = .ok (s', reply)) :
    result = .ok (s'.table, reply) := by
  cases result with
  | error fault => contradiction
  | ok pair =>
      cases ran
      rfl

theorem serves_answers {s s' : Engine} {x : Exchange} (bounded : Bounded s.table)
    (served : Serves s x s') {c : Call Int UInt16 UInt8} (asked : call x.req = some c) :
    Answers s.table x.req c s'.table x.reply := by
  have outcome := outcome_of_dispatch bounded served
  unfold Serves dispatchRequest at served
  cases op : x.req.kind with
  | socket =>
      simp only [call, op, Option.some.injEq] at asked
      subst asked
      exact socket_answers op outcome
  | close =>
      simp only [call, op, Option.some.injEq] at asked
      subst asked
      exact close_answers op outcome
  | bind =>
      simp only [call, op, Option.some.injEq] at asked served
      subst asked
      exact bind_answers op (onTable_inv served) outcome
  | listen =>
      simp only [call, op, Option.some.injEq] at asked
      subst asked
      exact listen_answers op outcome
  | connect =>
      simp only [call, op, Option.some.injEq] at asked served
      subst asked
      exact connect_answers bounded op (onTable_inv served) outcome
  | accept =>
      simp only [call, op, Option.some.injEq] at asked
      subst asked
      exact accept_answers bounded op outcome
  | send =>
      simp only [call, op, Option.some.injEq] at asked served
      subst asked
      exact send_answers bounded op (onTable_inv served) outcome
  | recv =>
      simp only [call, op, Option.some.injEq] at asked
      subst asked
      exact recv_answers bounded op outcome
  | _ => simp [call, op] at asked

/-- A request that does not concern the network leaves the table. -/
theorem serves_silent {s s' : Engine} {x : Exchange} (served : Serves s x s')
    (silent : call x.req = none) : s'.table = s.table := by
  unfold Serves dispatchRequest at served
  cases op : x.req.kind with
  | ping =>
      simp only [op, Except.ok.injEq, Prod.mk.injEq] at served
      rw [← served.1]
  | shutdown =>
      simp only [op, Except.ok.injEq, dispatchShutdown, Prod.mk.injEq] at served
      rw [← served.1]
  | unknown =>
      simp only [op, Except.ok.injEq, Prod.mk.injEq] at served
      rw [← served.1]
  | _ => simp [call, op] at silent

def calls (history : History) : List (Call Int UInt16 UInt8) :=
  history.filterMap fun move => call move.label.req

/-- What the clients were told, by the replies to their calls. -/
def responses (history : History) : List (Response Int UInt16 UInt8) :=
  history.filterMap fun move =>
    (call move.label.req).bind fun _ => response move.label.req move.label.reply

theorem view_initial : view initial.table = fun _ => none := by
  funext fd
  apply view_closed
  rintro ⟨_, used⟩
  exact used rfl

/-- The fd table is the network. In every run the network that is asked the same calls
gives the answers that the replies say, one for each call, and ends as the view of the
table: arrays, compaction, the ring and the other fields of an entry do not show. -/
theorem fdtable_implements_network (history : History) (now : Engine) (run : Run history now) :
    replay limits (fun _ => none) (calls history) = (view now.table, responses history) := by
  induction run with
  | nil =>
      rw [view_initial]
      rfl
  | @snoc history now next x past served ih =>
      have bounded := run_bounded past
      cases asked : call x.req with
      | none =>
          have calls_ : calls (history ++ [⟨now, x, next⟩]) = calls history := by
            simp [calls, asked]
          have said_ : responses (history ++ [⟨now, x, next⟩]) = responses history := by
            simp [responses, asked]
          rw [calls_, said_, ih, serves_silent served asked]
      | some c =>
          obtain ⟨said, replied, answered⟩ := serves_answers bounded served asked
          have calls_ : calls (history ++ [⟨now, x, next⟩]) = calls history ++ [c] := by
            simp [calls, asked]
          have said_ : responses (history ++ [⟨now, x, next⟩]) = responses history ++ [said] := by
            simp [responses, asked, replied]
          rw [calls_, said_, replay_snoc, ih, answered]

theorem echo_implements_network :
    replay limits (fun _ => none) (calls (historyOf initial echo)) =
        (view (stateAfter initial echo).table, responses (historyOf initial echo)) ∧
      responses (historyOf initial echo) =
        [.opened 3, .done, .done, .opened 4, .done, .accepted 5 1234, .sent 2, .received [104, 105],
          .sent 2, .received [111], .received [107]] :=
  ⟨fdtable_implements_network _ _ (run_from_initial echo), by decide +kernel⟩

end Netstack.Network
