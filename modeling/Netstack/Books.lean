import Netstack.FdBounds

/-!
The connections a run makes, told by an onlooker who keeps books on the requests
and their replies. A successful connect opens a connection, numbered by its
place in the history; the accept that takes it off the backlog gives it a server
end. Each end keeps the bytes its socket has sent since the accept and the bytes
it has received. The engine keeps no such books: it only knows fd numbers.
-/

namespace Netstack.FdTable

open Ipc Window Transition

inductive Side where
  | client
  | server
  deriving DecidableEq, Repr

structure Endpoint where
  conn : Nat
  side : Side
  deriving DecidableEq, Repr

def Endpoint.partner : Endpoint → Endpoint
  | ⟨conn, .client⟩ => ⟨conn, .server⟩
  | ⟨conn, .server⟩ => ⟨conn, .client⟩

@[simp] theorem partner_partner (ep : Endpoint) : ep.partner.partner = ep := by
  obtain ⟨conn, side⟩ := ep
  cases side <;> rfl

@[simp] theorem partner_conn (ep : Endpoint) : ep.partner.conn = ep.conn := by
  obtain ⟨conn, side⟩ := ep
  cases side <;> rfl

theorem endpoint_cases (ep : Endpoint) : ep = ⟨ep.conn, .client⟩ ∨ ep = ⟨ep.conn, .server⟩ := by
  obtain ⟨conn, side⟩ := ep
  cases side
  · exact Or.inl rfl
  · exact Or.inr rfl

/-- `endpoint` says which end of which connection an fd is, since the connect
or accept that made it one and until its close; `waiting` the connections in
the backlog of a listener, each with the number that connected. -/
structure Books where
  clock : Nat
  endpoint : Int → Option Endpoint
  waiting : Int → List (Nat × Int)
  sent : Endpoint → List UInt8
  received : Endpoint → List UInt8

def Books.blank : Books := ⟨0, fun _ => none, fun _ => [], fun _ => [], fun _ => []⟩

def Books.connect (b : Books) (fd lfd : Int) : Books :=
  { b with
    endpoint := Function.update b.endpoint fd (some ⟨b.clock, .client⟩)
    waiting := Function.update b.waiting lfd (b.waiting lfd ++ [(b.clock, fd)]) }

-- Only what is sent after the accept counts for either end.
def Books.served (b : Books) (lfd newFd : Int) (conn : Nat) (rest : List (Nat × Int)) : Books :=
  { b with
    endpoint := Function.update b.endpoint newFd (some ⟨conn, .server⟩)
    waiting := Function.update b.waiting lfd rest
    sent := fun ep => if ep.conn = conn then [] else b.sent ep }

def Books.accept (b : Books) (lfd newFd : Int) : Books :=
  match b.waiting lfd with
  | [] => b
  | (conn, _) :: rest => b.served lfd newFd conn rest

def Books.listen (b : Books) (fd : Int) : Books :=
  { b with waiting := Function.update b.waiting fd [] }

def Books.close (b : Books) (fd : Int) : Books :=
  { b with
    endpoint := Function.update b.endpoint fd none
    waiting := Function.update b.waiting fd [] }

def Books.send (b : Books) (fd : Int) (bytes : List UInt8) : Books :=
  match b.endpoint fd with
  | none => b
  | some ep => { b with sent := Function.update b.sent ep (b.sent ep ++ bytes) }

def Books.receive (b : Books) (fd : Int) (bytes : List UInt8) : Books :=
  match b.endpoint fd with
  | none => b
  | some ep => { b with received := Function.update b.received ep (b.received ep ++ bytes) }

/-- The listener `find_listener` gives a connect. -/
def routed (t : Table) (port : UInt16) : Int :=
  match findListener t port with
  | .ok lfd => lfd
  | .error _ => -1

theorem routed_eq {t : Table} {port : UInt16} {lfd : Int}
    (route : FirstHit t (isListener port) lfd) : routed t port = lfd := by
  unfold routed findListener
  rcases firstFd_cases t (isListener port) with ⟨-, none⟩ | ⟨found, scanned, first⟩
  · have missed := none lfd route.1
    rw [route.2.1] at missed
    contradiction
  · rw [scanned]
    exact firstHit_unique first route

def acceptedBytes (x : Exchange) : List UInt8 :=
  window x.req.u.send.data 0 x.reply.u.send.lenOut.toNat

def returnedBytes (x : Exchange) : List UInt8 :=
  window x.reply.u.recv.data 0 x.reply.u.recv.lenOut.toNat

def Books.enter (b : Books) (op : NetstackOp) (t : Table) (x : Exchange) : Books :=
  match op with
  | .connect => b.connect x.req.u.connect.sock (routed t x.req.u.connect.port)
  | .accept => b.accept x.req.u.accept.sock x.reply.u.accept.newSock
  | .listen => b.listen x.req.u.listen.sock
  | .close => b.close x.req.u.close.sock
  | .send => b.send x.req.u.send.sock (acceptedBytes x)
  | .recv => b.receive x.req.u.recv.sock (returnedBytes x)
  | _ => b

def Books.settle (b : Books) (t : Table) (x : Exchange) : Books :=
  if x.reply.ok then b.enter x.req.kind t x else b

def Books.tick (b : Books) : Books := { b with clock := b.clock + 1 }

def Books.record (b : Books) (move : Move Engine Exchange) : Books :=
  (b.settle move.before.table move.label).tick

theorem settle_eq {b : Books} {t : Table} {x : Exchange} {op : NetstackOp}
    (kind : x.req.kind = op) (ok : x.reply.ok) : b.settle t x = b.enter op t x := by
  rw [Books.settle, if_pos ok, kind]

/-! The books by themselves: an end belongs to one fd, and a connection that
waits has no server end yet and waits in one place. -/

structure Sound (b : Books) : Prop where
  unique : ∀ x y ep, b.endpoint x = some ep → b.endpoint y = some ep → x = y
  unserved : ∀ lfd conn fd, (conn, fd) ∈ b.waiting lfd →
    (∀ x, b.endpoint x ≠ some ⟨conn, .server⟩) ∧
      b.sent ⟨conn, .server⟩ = [] ∧ b.received ⟨conn, .server⟩ = []
  once : ∀ lfd, ((b.waiting lfd).map Prod.fst).Nodup
  apart : ∀ lfd lfd' conn fd fd', (conn, fd) ∈ b.waiting lfd → (conn, fd') ∈ b.waiting lfd' →
    lfd = lfd'
  past : ∀ lfd conn fd, (conn, fd) ∈ b.waiting lfd → conn < b.clock
  future : ∀ ep, b.clock ≤ ep.conn → (∀ x, b.endpoint x ≠ some ep) ∧
    b.sent ep = [] ∧ b.received ep = []

theorem sound_blank : Sound .blank := by
  constructor <;> simp [Books.blank]

theorem sound_tick {b : Books} (sound : Sound b) : Sound b.tick :=
  { sound with
    past := fun lfd conn fd member => Nat.lt_succ_of_lt (sound.past lfd conn fd member)
    future := fun ep later => sound.future ep (Nat.le_of_succ_le later) }

theorem mem_cleared {b : Books} {fd lfd : Int} {pair : Nat × Int}
    (member : pair ∈ (b.listen fd).waiting lfd) : pair ∈ b.waiting lfd := by
  by_cases here : lfd = fd
  · subst lfd
    simp [Books.listen] at member
  · simpa [Books.listen, here] using member

theorem sound_listen {b : Books} (sound : Sound b) (fd : Int) : Sound (b.listen fd) := by
  refine ⟨sound.unique, ?_, ?_, ?_, ?_, sound.future⟩
  · intro lfd conn client member
    exact sound.unserved lfd conn client (mem_cleared member)
  · intro lfd
    by_cases here : lfd = fd
    · subst lfd
      simp [Books.listen]
    · simpa [Books.listen, here] using sound.once lfd
  · intro lfd lfd' conn client client' member member'
    exact sound.apart lfd lfd' conn client client' (mem_cleared member) (mem_cleared member')
  · intro lfd conn client member
    exact sound.past lfd conn client (mem_cleared member)

theorem close_endpoint {b : Books} {fd x : Int} {ep : Endpoint}
    (present : (b.close fd).endpoint x = some ep) : x ≠ fd ∧ b.endpoint x = some ep := by
  by_cases here : x = fd
  · subst x
    simp [Books.close] at present
  · exact ⟨here, by simpa [Books.close, here] using present⟩

-- A close clears the backlog as a listen does, and forgets the endpoint.
theorem sound_close {b : Books} (sound : Sound b) (fd : Int) : Sound (b.close fd) := by
  have cleared := sound_listen sound fd
  refine ⟨?_, ?_, cleared.once, cleared.apart, cleared.past, ?_⟩
  · intro x y ep left right
    exact sound.unique x y ep (close_endpoint left).2 (close_endpoint right).2
  · intro lfd conn client member
    obtain ⟨none, sent, received⟩ := cleared.unserved lfd conn client member
    exact ⟨fun x present => none x (close_endpoint present).2, sent, received⟩
  · intro ep later
    obtain ⟨none, sent, received⟩ := sound.future ep later
    exact ⟨fun x present => none x (close_endpoint present).2, sent, received⟩

theorem connect_endpoint {b : Books} {fd lfd x : Int} {ep : Endpoint}
    (present : (b.connect fd lfd).tick.endpoint x = some ep) :
    (x = fd ∧ ep = ⟨b.clock, .client⟩) ∨ (x ≠ fd ∧ b.endpoint x = some ep) := by
  by_cases here : x = fd
  · subst x
    refine Or.inl ⟨rfl, ?_⟩
    simpa [Books.connect, Books.tick, eq_comm] using present
  · exact Or.inr ⟨here, by simpa [Books.connect, Books.tick, here] using present⟩

theorem connect_waiting {b : Books} {fd lfd at_ : Int} {pair : Nat × Int}
    (member : pair ∈ (b.connect fd lfd).tick.waiting at_) :
    (at_ = lfd ∧ pair = (b.clock, fd)) ∨ pair ∈ b.waiting at_ := by
  by_cases here : at_ = lfd
  · subst at_
    have split : pair ∈ b.waiting lfd ∨ pair = (b.clock, fd) := by
      simpa [Books.connect, Books.tick] using member
    exact split.symm.imp (fun new => ⟨rfl, new⟩) id
  · exact Or.inr (by simpa [Books.connect, Books.tick, here] using member)

theorem sound_connect {b : Books} (sound : Sound b) (fd lfd : Int) :
    Sound (b.connect fd lfd).tick := by
  have unheard (ep : Endpoint) (new : ep.conn = b.clock) := sound.future ep (Nat.le_of_eq new.symm)
  constructor
  · intro x y ep left right
    rcases connect_endpoint left with ⟨rfl, rfl⟩ | ⟨-, oldLeft⟩
    · rcases connect_endpoint right with ⟨rfl, -⟩ | ⟨-, oldRight⟩
      · rfl
      · exact absurd oldRight ((unheard _ rfl).1 y)
    · rcases connect_endpoint right with ⟨rfl, rfl⟩ | ⟨-, oldRight⟩
      · exact absurd oldLeft ((unheard _ rfl).1 x)
      · exact sound.unique x y ep oldLeft oldRight
  · intro at_ conn client member
    rcases connect_waiting member with ⟨-, new⟩ | old
    · cases new
      obtain ⟨none, sent, received⟩ := unheard ⟨b.clock, .server⟩ rfl
      refine ⟨?_, sent, received⟩
      intro x present
      rcases connect_endpoint present with ⟨-, client⟩ | ⟨-, present⟩
      · simp at client
      · exact none x present
    · obtain ⟨none, sent, received⟩ := sound.unserved at_ conn client old
      refine ⟨?_, sent, received⟩
      intro x present
      rcases connect_endpoint present with ⟨-, client⟩ | ⟨-, present⟩
      · simp at client
      · exact none x present
  · intro at_
    by_cases here : at_ = lfd
    · subst at_
      have fresh : ∀ pair ∈ b.waiting lfd, pair.1 ≠ b.clock := fun pair member =>
        Nat.ne_of_lt (sound.past lfd pair.1 pair.2 member)
      simpa [Books.connect, Books.tick, List.nodup_append, sound.once lfd] using fresh
    · simpa [Books.connect, Books.tick, here] using sound.once at_
  · intro at_ at' conn client client' member member'
    rcases connect_waiting member with ⟨rfl, new⟩ | old
    · cases new
      rcases connect_waiting member' with ⟨rfl, -⟩ | old'
      · rfl
      · exact absurd (sound.past _ _ _ old') (Nat.lt_irrefl _)
    · rcases connect_waiting member' with ⟨rfl, new⟩ | old'
      · cases new
        exact absurd (sound.past _ _ _ old) (Nat.lt_irrefl _)
      · exact sound.apart at_ at' conn client client' old old'
  · intro at_ conn client member
    rcases connect_waiting member with ⟨-, new⟩ | old
    · cases new
      exact Nat.lt_succ_self _
    · exact Nat.lt_succ_of_lt (sound.past at_ conn client old)
  · intro ep later
    have beyond : b.clock < ep.conn := later
    obtain ⟨none, sent, received⟩ := sound.future ep (Nat.le_of_lt beyond)
    refine ⟨?_, sent, received⟩
    intro x present
    rcases connect_endpoint present with ⟨-, rfl⟩ | ⟨-, present⟩
    · exact absurd beyond (Nat.lt_irrefl _)
    · exact none x present

theorem served_endpoint {b : Books} {lfd newFd x : Int} {conn : Nat} {rest : List (Nat × Int)}
    {ep : Endpoint} (present : (b.served lfd newFd conn rest).endpoint x = some ep) :
    (x = newFd ∧ ep = ⟨conn, .server⟩) ∨ (x ≠ newFd ∧ b.endpoint x = some ep) := by
  by_cases here : x = newFd
  · subst x
    refine Or.inl ⟨rfl, ?_⟩
    simpa [Books.served, eq_comm] using present
  · exact Or.inr ⟨here, by simpa [Books.served, here] using present⟩

theorem served_waiting {b : Books} (sound : Sound b) {lfd newFd at_ : Int} {conn other : Nat}
    {client fd : Int} {rest : List (Nat × Int)} (line : b.waiting lfd = (conn, client) :: rest)
    (member : (other, fd) ∈ (b.served lfd newFd conn rest).waiting at_) :
    (other, fd) ∈ b.waiting at_ ∧ other ≠ conn := by
  have first : (conn, client) ∈ b.waiting lfd := by rw [line]; exact List.mem_cons_self
  by_cases here : at_ = lfd
  · subst at_
    have later : (other, fd) ∈ rest := by simpa [Books.served] using member
    refine ⟨by rw [line]; exact List.mem_cons_of_mem _ later, ?_⟩
    rintro rfl
    have distinct := sound.once lfd
    rw [line, List.map_cons, List.nodup_cons] at distinct
    exact distinct.1 (List.mem_map.mpr ⟨_, later, rfl⟩)
  · have old : (other, fd) ∈ b.waiting at_ := by simpa [Books.served, here] using member
    refine ⟨old, ?_⟩
    rintro rfl
    exact here (sound.apart _ _ _ _ _ old first)

theorem sound_served {b : Books} (sound : Sound b) {lfd newFd client : Int} {conn : Nat}
    {rest : List (Nat × Int)} (line : b.waiting lfd = (conn, client) :: rest) :
    Sound (b.served lfd newFd conn rest) := by
  have first : (conn, client) ∈ b.waiting lfd := by rw [line]; exact List.mem_cons_self
  obtain ⟨unserved, -, -⟩ := sound.unserved lfd conn client first
  constructor
  · intro x y ep left right
    rcases served_endpoint left with ⟨rfl, rfl⟩ | ⟨-, oldLeft⟩
    · rcases served_endpoint right with ⟨rfl, -⟩ | ⟨-, oldRight⟩
      · rfl
      · exact absurd oldRight (unserved y)
    · rcases served_endpoint right with ⟨rfl, rfl⟩ | ⟨-, oldRight⟩
      · exact absurd oldLeft (unserved x)
      · exact sound.unique x y ep oldLeft oldRight
  · intro at_ other fd member
    obtain ⟨old, apart⟩ := served_waiting sound line member
    obtain ⟨none, sent, received⟩ := sound.unserved at_ other fd old
    refine ⟨?_, by simpa [Books.served, apart] using sent, received⟩
    intro x present
    rcases served_endpoint present with ⟨-, same⟩ | ⟨-, present⟩
    · exact apart (congrArg Endpoint.conn same)
    · exact none x present
  · intro at_
    by_cases here : at_ = lfd
    · subst at_
      have distinct := sound.once lfd
      rw [line, List.map_cons, List.nodup_cons] at distinct
      simpa [Books.served] using distinct.2
    · simpa [Books.served, here] using sound.once at_
  · intro at_ at' other fd fd' member member'
    exact sound.apart _ _ _ _ _ (served_waiting sound line member).1
      (served_waiting sound line member').1
  · intro at_ other fd member
    exact sound.past at_ other fd (served_waiting sound line member).1
  · intro ep later
    obtain ⟨none, sent, received⟩ := sound.future ep later
    have before := sound.past lfd conn client first
    have apart : ep.conn ≠ conn := Nat.ne_of_gt (Nat.lt_of_lt_of_le before later)
    refine ⟨?_, by simpa [Books.served, apart] using sent, received⟩
    intro x present
    rcases served_endpoint present with ⟨-, same⟩ | ⟨-, present⟩
    · exact apart (congrArg Endpoint.conn same)
    · exact none x present

/-- Bytes sent or received are entered for an end that some fd is now, so they
touch neither a waiting connection nor a future one. -/
theorem sound_entered {b b' : Books} (sound : Sound b) {fd : Int} {ep : Endpoint}
    (present : b.endpoint fd = some ep) (clock : b'.clock = b.clock)
    (endpoints : b'.endpoint = b.endpoint) (lines : b'.waiting = b.waiting)
    (sent : ∀ other, other ≠ ep → b'.sent other = b.sent other)
    (received : ∀ other, other ≠ ep → b'.received other = b.received other) : Sound b' := by
  constructor
  · rw [endpoints]
    exact sound.unique
  · intro lfd conn client member
    rw [lines] at member
    obtain ⟨none, silent, deaf⟩ := sound.unserved lfd conn client member
    have apart : (⟨conn, .server⟩ : Endpoint) ≠ ep := by
      rintro rfl
      exact none fd present
    rw [endpoints, sent _ apart, received _ apart]
    exact ⟨none, silent, deaf⟩
  · rw [lines]
    exact sound.once
  · rw [lines]
    exact sound.apart
  · rw [lines, clock]
    exact sound.past
  · intro other later
    rw [clock] at later
    obtain ⟨none, silent, deaf⟩ := sound.future other later
    have apart : other ≠ ep := by
      rintro rfl
      exact none fd present
    rw [endpoints, sent _ apart, received _ apart]
    exact ⟨none, silent, deaf⟩

end Netstack.FdTable
