import Netstack.Client
import Netstack.FdOutcome
import Netstack.Transition

/-!
Runs of the engine, and the bounds they keep. A run starts from the all-zero
table and serves any requests in any order; one move of it is one call of
`dispatch_request`. Every outcome of a bounded table is bounded, so no request
of any run reads or writes outside an array, and a request that fails leaves
the table as it was.
-/

namespace Netstack.FdTable

open Ipc Client Window Transition

structure Exchange where
  req : NetstackReq
  reply : NetstackReq

def Serves (s : Engine) (x : Exchange) (s' : Engine) : Prop :=
  dispatchRequest s x.req = .ok (s', x.reply)

abbrev Run := Trace Serves initial

abbrev History := List (Move Engine Exchange)

def Reachable (s : Engine) : Prop := ∃ history : History, Run history s

/-! Entries. -/

theorem entryBounded_of_same {e e' : FdEntry} (bounded : EntryBounded e)
    (head : e'.rxHead = e.rxHead) (tail : e'.rxTail = e.rxTail) (ring : e'.backlog = e.backlog)
    (first : e'.backlogHead = e.backlogHead) (last : e'.backlogTail = e.backlogTail)
    (count : e'.backlogCount = e.backlogCount) : EntryBounded e' := by
  obtain ⟨lower, order, upper, drained, heads, tails, counts, wraps, pending⟩ := bounded
  constructor
  · rw [head]; exact lower
  · rw [head, tail]; exact order
  · rw [tail]; exact upper
  · rw [head, tail]; exact drained
  · rw [first]; exact heads
  · rw [last]; exact tails
  · rw [count]; exact counts
  · rw [first, last, count]; exact wraps
  · rw [ring, first, count]; exact pending

theorem zeroEntry_bounded : EntryBounded zeroEntry := by
  constructor <;> simp [zeroEntry, rxbufSize, backlogMax]
  intro k lower upper
  omega

theorem blankEntry_bounded : EntryBounded blankEntry :=
  entryBounded_of_same zeroEntry_bounded rfl rfl rfl rfl rfl rfl

theorem listening_bounded {e : FdEntry} (bounded : EntryBounded e) :
    EntryBounded (listening e) := by
  constructor
  · exact bounded.rx_head
  · exact bounded.rx_order
  · exact bounded.rx_tail
  · exact bounded.drained
  · simp [listening, backlogMax]
  · simp [listening, backlogMax]
  · simp [listening, backlogMax]
  · simp [listening, backlogMax]
  · intro k lower upper
    simp only [listening] at upper
    omega

theorem pushBacklog_bounded {e : FdEntry} (bounded : EntryBounded e)
    (room : e.backlogCount < backlogMax) {fd : Int} (inside : InTable fd) :
    EntryBounded (pushBacklog e fd) := by
  have head := bounded.head_range
  have tail := bounded.tail_range
  have count := bounded.count_range
  have wraps := bounded.ring
  have pending := bounded.pending
  simp only [backlogMax] at head tail count wraps pending room
  constructor
  · exact bounded.rx_head
  · exact bounded.rx_order
  · exact bounded.rx_tail
  · exact bounded.drained
  · exact bounded.head_range
  · simp only [pushBacklog, backlogMax]; omega
  · simp only [pushBacklog, backlogMax]; omega
  · simp only [pushBacklog, backlogMax]; omega
  · intro k lower upper
    simp only [pushBacklog, backlogMax] at upper ⊢
    by_cases new : (e.backlogHead + k) % 4 = e.backlogTail
    · rw [new, Function.update_self]
      exact inside
    · have old : k ≠ e.backlogCount := by
        intro same
        exact new (by rw [wraps, same])
      rw [Function.update_of_ne new]
      exact pending k lower (by omega)

theorem popBacklog_bounded {e : FdEntry} (bounded : EntryBounded e)
    (waiting : 0 < e.backlogCount) : EntryBounded (popBacklog e) := by
  have head := bounded.head_range
  have tail := bounded.tail_range
  have count := bounded.count_range
  have wraps := bounded.ring
  have pending := bounded.pending
  simp only [backlogMax] at head tail count wraps pending
  constructor
  · exact bounded.rx_head
  · exact bounded.rx_order
  · exact bounded.rx_tail
  · exact bounded.drained
  · simp only [popBacklog, backlogMax]; omega
  · exact bounded.tail_range
  · simp only [popBacklog, backlogMax]; omega
  · simp only [popBacklog, backlogMax]; omega
  · intro k lower upper
    simp only [popBacklog, backlogMax] at upper ⊢
    have slot : ((e.backlogHead + 1) % 4 + k) % 4 = (e.backlogHead + (k + 1)) % 4 := by omega
    rw [slot]
    exact pending (k + 1) (by omega) (by omega)

theorem acceptedEntry_bounded (lst : FdEntry) (clientFd : Int) :
    EntryBounded (acceptedEntry lst clientFd) :=
  entryBounded_of_same blankEntry_bounded rfl rfl rfl rfl rfl rfl

theorem deposit_bounded {e : FdEntry} (bounded : EntryBounded e) (data : Int → UInt8)
    {count : Int} (lower : 0 ≤ count) (upper : live e + count ≤ 4096) :
    EntryBounded (deposit e data count) := by
  have range := live_range bounded
  have head : (deposit e data count).rxHead = 0 := compacted_rxHead e
  have tail : (deposit e data count).rxTail = live e + count := rfl
  have same : (compacted e).backlog = e.backlog ∧ (compacted e).backlogHead = e.backlogHead ∧
      (compacted e).backlogTail = e.backlogTail ∧ (compacted e).backlogCount = e.backlogCount := by
    by_cases start : e.rxHead = 0 <;> simp [compacted, start]
  obtain ⟨ring, first, last, number⟩ := same
  have kept : EntryBounded { deposit e data count with rxHead := e.rxHead, rxTail := e.rxTail } :=
    entryBounded_of_same bounded rfl rfl ring first last number
  constructor
  · omega
  · omega
  · rw [tail]; exact upper
  · rw [head, tail]; omega
  · exact kept.head_range
  · exact kept.tail_range
  · exact kept.count_range
  · exact kept.ring
  · exact kept.pending

theorem withdraw_bounded {e : FdEntry} (bounded : EntryBounded e) {count : Int}
    (lower : 0 ≤ count) (upper : count ≤ live e) : EntryBounded (withdraw e count) := by
  have head := bounded.rx_head
  have order := bounded.rx_order
  have tail := bounded.rx_tail
  simp only [live] at upper
  unfold withdraw
  split
  · obtain ⟨-, -, -, -, heads, tails, counts, wraps, pending⟩ := bounded
    exact ⟨Int.le_refl 0, Int.le_refl 0, by simp [rxbufSize], fun _ => ⟨rfl, rfl⟩,
      heads, tails, counts, wraps, pending⟩
  · obtain ⟨-, -, -, -, heads, tails, counts, wraps, pending⟩ := bounded
    refine ⟨?_, ?_, tail, ?_, heads, tails, counts, wraps, pending⟩
    · show 0 ≤ e.rxHead + count
      omega
    · show e.rxHead + count ≤ e.rxTail
      omega
    · intro same
      contradiction

/-! Tables. -/

theorem bounded_update {t : Table} (bounded : Bounded t) {fd : Int} (inside : InTable fd)
    {e : FdEntry} (entry : EntryBounded e)
    (peer : e.kind ≠ .free → e.peerFd = -1 ∨ InTable e.peerFd) :
    Bounded (Function.update t fd e) := by
  constructor
  · intro other
    by_cases here : other = fd
    · subst other; simpa using entry
    · simpa [here] using bounded.entries other
  · intro other valid
    by_cases here : other = fd
    · subst other
      have used : e.kind ≠ .free := by simpa using valid.2
      simpa using peer used
    · have old : IsOpen t other := ⟨valid.1, by simpa [here] using valid.2⟩
      simpa [here] using bounded.peers other old
  · intro other lower upper
    have apart : other ≠ fd := by
      intro same
      have := inside.1
      omega
    simpa [apart] using bounded.reserved other lower upper

theorem initial_bounded : Bounded initial.table := by
  refine ⟨fun _ => zeroEntry_bounded, ?_, fun _ _ _ => rfl⟩
  intro fd valid
  exact absurd rfl valid.2

theorem detach_bounded {t : Table} (bounded : Bounded t) (fd : Int) : Bounded (detach t fd) := by
  unfold detach
  dsimp only
  split
  · rename_i both
    have entry : EntryBounded { t (t fd).peerFd with peerFd := -1 } :=
      entryBounded_of_same (bounded.entries (t fd).peerFd) rfl rfl rfl rfl rfl rfl
    exact bounded_update bounded both.2.1 entry fun _ => Or.inl rfl
  · exact bounded

theorem queued_bounded {t : Table} (bounded : Bounded t) {fd lfd : Int} {port : UInt16}
    (valid : IsOpen t fd) (route : FirstHit t (isListener port) lfd)
    (room : (t lfd).backlogCount < backlogMax) : Bounded (queued t fd lfd port) := by
  have joined : Bounded (Function.update t fd (connecting (t fd) port)) :=
    bounded_update bounded valid.1
      (entryBounded_of_same (bounded.entries fd) rfl rfl rfl rfl rfl rfl) fun _ => Or.inl rfl
  have listener : IsOpen t lfd := isOpen_of_kind route.1 (listener_kind route).1 (by decide)
  exact bounded_update joined route.1 (pushBacklog_bounded (bounded.entries lfd) room valid.1)
    fun _ => bounded.peers lfd listener

theorem paired_bounded {t : Table} (bounded : Bounded t) {lfd newFd : Int}
    (valid : IsOpen t lfd) (waiting : 0 < (t lfd).backlogCount) (inside : InTable newFd) :
    Bounded (paired t lfd newFd) := by
  have client := nextClient_inTable (bounded.entries lfd) (by omega)
  have popped : Bounded (Function.update t lfd (popBacklog (t lfd))) :=
    bounded_update bounded valid.1 (popBacklog_bounded (bounded.entries lfd) waiting)
      fun _ => bounded.peers lfd valid
  have mint : Bounded (minted t lfd newFd) :=
    bounded_update popped inside (acceptedEntry_bounded _ _) fun _ => Or.inr client
  exact bounded_update mint client
    (entryBounded_of_same (mint.entries (nextClient (t lfd))) rfl rfl rfl rfl rfl rfl)
    fun _ => Or.inr inside

theorem deposit_peer (e : FdEntry) (data : Int → UInt8) (count : Int) :
    (deposit e data count).peerFd = e.peerFd := by
  by_cases start : e.rxHead = 0 <;> simp [deposit, compacted, start]

theorem deposit_kind (e : FdEntry) (data : Int → UInt8) (count : Int) :
    (deposit e data count).kind = e.kind := by
  by_cases start : e.rxHead = 0 <;> simp [deposit, compacted, start]

theorem deposit_port (e : FdEntry) (data : Int → UInt8) (count : Int) :
    (deposit e data count).localPort = e.localPort := by
  by_cases start : e.rxHead = 0 <;> simp [deposit, compacted, start]

theorem deposit_ring (e : FdEntry) (data : Int → UInt8) (count : Int) :
    (deposit e data count).backlog = e.backlog ∧
      (deposit e data count).backlogHead = e.backlogHead ∧
      (deposit e data count).backlogCount = e.backlogCount := by
  by_cases start : e.rxHead = 0 <;> simp [deposit, compacted, start]

theorem withdraw_kind (e : FdEntry) (count : Int) : (withdraw e count).kind = e.kind := by
  unfold withdraw
  split <;> rfl

theorem withdraw_peer (e : FdEntry) (count : Int) : (withdraw e count).peerFd = e.peerFd := by
  unfold withdraw
  split <;> rfl

theorem detach_kind (t : Table) (fd other : Int) : (detach t fd other).kind = (t other).kind := by
  unfold detach
  dsimp only
  split
  · by_cases here : other = (t fd).peerFd
    · subst other; simp
    · simp [here]
  · rfl

theorem detach_ring (t : Table) (fd other : Int) :
    (detach t fd other).backlog = (t other).backlog ∧
      (detach t fd other).backlogHead = (t other).backlogHead ∧
      (detach t fd other).backlogCount = (t other).backlogCount := by
  unfold detach
  dsimp only
  split
  · by_cases here : other = (t fd).peerFd
    · subst other; simp
    · simp [here]
  · exact ⟨rfl, rfl, rfl⟩

theorem firstFree_kind {t : Table} {newFd : Int} (first : FirstHit t isFree newFd) :
    (t newFd).kind = .free := by
  simpa [isFree] using first.2.1

theorem minted_fresh (t : Table) (lfd newFd : Int) :
    (minted t lfd newFd newFd).kind = .connected ∧
      (minted t lfd newFd newFd).peerFd = nextClient (t lfd) := by
  simp [minted_apply, acceptedEntry]

-- Away from the minted entry an accept changes no kind and no peer but the client's.
theorem minted_other (t : Table) (lfd : Int) {newFd fd : Int} (apart : fd ≠ newFd) :
    (minted t lfd newFd fd).kind = (t fd).kind ∧
      (minted t lfd newFd fd).peerFd = (t fd).peerFd := by
  by_cases here : fd = lfd
  · subst fd
    simp [minted_apply, apart, popBacklog]
  · simp [minted_apply, apart, here]

theorem outcome_bounded {t t' : Table} {r reply : NetstackReq} (bounded : Bounded t)
    (outcome : Outcome t r t' reply) : Bounded t' := by
  cases outcome with
  | refused why err => exact bounded
  | passive op ok => exact bounded
  | opened op first =>
      exact bounded_update bounded first.1
        (entryBounded_of_same blankEntry_bounded rfl rfl rfl rfl rfl rfl) fun _ => Or.inl rfl
  | closed op valid =>
      exact bounded_update (detach_bounded bounded _) valid.1 blankEntry_bounded
        fun _ => Or.inl rfl
  | bound op valid kind unused =>
      exact bounded_update bounded valid.1
        (entryBounded_of_same (bounded.entries _) rfl rfl rfl rfl rfl rfl)
        fun _ => bounded.peers _ valid
  | listening op valid kind port =>
      exact bounded_update bounded valid.1 (listening_bounded (bounded.entries _))
        fun _ => bounded.peers _ valid
  | queued op valid kind route room => exact queued_bounded bounded valid route room
  | paired op valid kind waiting first => exact paired_bounded bounded valid waiting first.1
  | sent op valid kind peer lower upper room =>
      have fits := acceptable_range (bounded.entries (t r.u.send.sock).peerFd) lower
      refine bounded_update bounded peer.1
        (deposit_bounded (bounded.entries _) _ fits.1 fits.2.2) ?_
      intro _
      rw [deposit_peer]
      exact bounded.peers _ peer
  | ended op valid kind empty peer => exact bounded
  | received op valid kind some_ =>
      have fits := readable_range (bounded.entries r.u.recv.sock) r.u.recv.lenIn
      refine bounded_update bounded valid.1
        (withdraw_bounded (bounded.entries _) fits.1 fits.2.1) ?_
      intro _
      rw [withdraw_peer]
      exact bounded.peers _ valid

theorem run_bounded {history : History} {s : Engine} (run : Run history s) : Bounded s.table := by
  refine trace_invariant (fun s => Bounded s.table) initial_bounded ?_ run
  intro before x after bounded served
  exact outcome_bounded bounded (outcome_of_dispatch bounded served)

/-- What the newest move of a run did. -/
theorem run_outcome {history : History} {s s' : Engine} {x : Exchange} (run : Run history s)
    (served : Serves s x s') : Outcome s.table x.req s'.table x.reply :=
  outcome_of_dispatch (run_bounded run) served

/-! Executable runs, for concrete request lists. -/

def serve (s : Engine) (r : NetstackReq) : Move Engine Exchange :=
  match dispatchRequest s r with
  | .ok (s', reply) => ⟨s, ⟨r, reply⟩, s'⟩
  | .error _ => ⟨s, ⟨r, r⟩, s⟩

def historyOf (s : Engine) : List NetstackReq → History
  | [] => []
  | r :: rest => serve s r :: historyOf (serve s r).after rest

def stateAfter (s : Engine) : List NetstackReq → Engine
  | [] => s
  | r :: rest => stateAfter (serve s r).after rest

theorem serve_serves {s : Engine} (bounded : Bounded s.table) (r : NetstackReq) :
    ∃ x s', serve s r = ⟨s, x, s'⟩ ∧ Serves s x s' := by
  obtain ⟨s', reply, ran, -⟩ := dispatch_outcome bounded r
  exact ⟨⟨r, reply⟩, s', by simp only [serve, ran], ran⟩

theorem stateAfter_snoc (s : Engine) (reqs : List NetstackReq) (r : NetstackReq) :
    stateAfter s (reqs ++ [r]) = (serve (stateAfter s reqs) r).after := by
  induction reqs generalizing s with
  | nil => rfl
  | cons first rest ih => exact ih _

theorem historyOf_snoc (s : Engine) (reqs : List NetstackReq) (r : NetstackReq) :
    historyOf s (reqs ++ [r]) = historyOf s reqs ++ [serve (stateAfter s reqs) r] := by
  induction reqs generalizing s with
  | nil => rfl
  | cons first rest ih =>
      simp only [List.cons_append, historyOf, stateAfter, ih]

theorem trace_of_requests {start s : Engine} {past : History} (trace : Trace Serves start past s)
    (bounded : Bounded s.table) (reqs : List NetstackReq) :
    Trace Serves start (past ++ historyOf s reqs) (stateAfter s reqs) := by
  induction reqs generalizing past s with
  | nil => simpa [historyOf, stateAfter] using trace
  | cons r rest ih =>
      obtain ⟨x, s', same, served⟩ := serve_serves bounded r
      have next := outcome_bounded bounded (outcome_of_dispatch bounded served)
      have grown := ih (Trace.snoc trace served) next
      rw [List.append_assoc, List.singleton_append] at grown
      simpa only [historyOf, stateAfter, same] using grown

theorem run_from_initial (reqs : List NetstackReq) :
    Run (historyOf initial reqs) (stateAfter initial reqs) :=
  trace_of_requests .nil initial_bounded reqs

/-- A server and one client that is accepted while it waits. -/
def servedConnect : List NetstackReq :=
  [Call.socket 2 1 0, .bind 3 1234, .listen 3 4, .socket 2 1 0, .connect 4 1234,
    .accept 3].map Call.request

def text (bytes : List UInt8) : Int → UInt8 := fun i => bytes.getD i.toNat 0

/-- A client and a server that send to each other after the accept. -/
def echo : List NetstackReq :=
  servedConnect ++ [Call.send 4 (text [104, 105]) 2, .recv 5 16, .send 5 (text [111, 107]) 2,
    .recv 4 1, .recv 4 16].map Call.request

/-- The client closes before the accept, which then mints the client's own
number and links it to itself. -/
def abandonedConnect : List NetstackReq :=
  [Call.socket 2 1 0, .bind 3 1234, .listen 3 4, .socket 2 1 0, .connect 4 1234, .close 4,
    .accept 3].map Call.request

/-- No request of a run makes an access outside an array, whatever its fields
hold: `Bounded` is an invariant of every run, and it alone keeps the next
request inside. -/
theorem dispatch_never_faults :
    (∀ s, Reachable s →
      Bounded s.table ∧ ∀ r, ∃ s' reply, dispatchRequest s r = .ok (s', reply)) ∧
      ∀ s, Bounded s.table → ∀ r, ∃ s' reply, dispatchRequest s r = .ok (s', reply) := by
  have safe : ∀ s : Engine, Bounded s.table → ∀ r, ∃ s' reply,
      dispatchRequest s r = .ok (s', reply) := by
    intro s bounded r
    obtain ⟨s', reply, ran, -⟩ := dispatch_outcome bounded r
    exact ⟨s', reply, ran⟩
  refine ⟨?_, safe⟩
  rintro s ⟨history, run⟩
  exact ⟨run_bounded run, safe s (run_bounded run)⟩

-- The accept pops a number whose socket is closed.
theorem abandoned_accept_stays_inside :
    ∃ s' reply, dispatchRequest (stateAfter initial (abandonedConnect.take 6))
      (Call.accept 3).request = .ok (s', reply) :=
  (dispatch_never_faults.1 _ ⟨_, run_from_initial (abandonedConnect.take 6)⟩).2 _

/-- A request that does not reply OK leaves every field of every entry. -/
theorem failed_request_keeps_table (s : Engine) (reachable : Reachable s) (r : NetstackReq)
    (s' : Engine) (reply : NetstackReq) (ran : dispatchRequest s r = .ok (s', reply))
    (failed : reply.err ≠ netstackOk) : s'.table = s.table := by
  obtain ⟨history, run⟩ := reachable
  have outcome := outcome_of_dispatch (run_bounded run) ran
  generalize s'.table = after at outcome
  cases outcome with
  | refused why err => rfl
  | passive op ok => exact absurd ok failed
  | ended op valid kind empty peer => rfl
  | opened | closed | bound | listening | queued | paired | sent | received =>
      exact absurd rfl failed

/-- A second client waits, and the sockets opened after it take the last numbers. -/
def fullHouse : List NetstackReq :=
  servedConnect ++ [Call.socket 2 1 0, .connect 6 1234].map Call.request ++
    List.replicate 121 (Call.socket 2 1 0).request

-- The accept pops the client and has to put it back.
theorem full_table_keeps_backlog :
    ∃ s' reply, dispatchRequest (stateAfter initial fullHouse) (Call.accept 3).request =
        .ok (s', reply) ∧
      reply.err = emfile ∧ s'.table = (stateAfter initial fullHouse).table := by
  have run := run_from_initial fullHouse
  obtain ⟨s', reply, ran, -⟩ := dispatch_outcome (run_bounded run) (Call.accept 3).request
  have answer : (serve (stateAfter initial fullHouse)
      (Call.accept 3).request).label.reply.err = emfile := by
    decide +kernel
  rw [serve, ran] at answer
  refine ⟨s', reply, ran, answer, failed_request_keeps_table _ ⟨_, run⟩ _ _ _ ran ?_⟩
  rw [answer]
  decide

end Netstack.FdTable
