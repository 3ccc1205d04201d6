import Netstack.RxQueue

/-!
The socket functions of `bsdsocket_library.c` as their callers see them: buffers and
addresses in memory on one side, the requests of `socket_ipc.c` on the other. All tasks
share one memory, and between its steps a task may do with it what it likes. A call
reads its buffer from memory when it begins, its request is served at some later point,
and it writes its results when it returns, an accept after a look at `*addrlen`; these
steps of any number of tasks interleave in any order. That a posted request is served
once and comes back to its caller is shown with the ports (`RpcOrder`).
-/

namespace Netstack.Bsdsocket

open Ipc Client FdTable Window Transition

variable {Task : Type}

abbrev Memory := Int → UInt8

/-- The `LONG` at an address, the high byte first. -/
def loadLong (mem : Memory) (p : Int) : Int :=
  ((mem p).toBitVec ++ (mem (p + 1)).toBitVec ++ (mem (p + 2)).toBitVec ++
    (mem (p + 3)).toBitVec).toInt

def storeLong (mem : Memory) (p value : Int) : Memory :=
  let long := BitVec.ofInt 32 value
  store mem p [⟨long.extractLsb' 24 8⟩, ⟨long.extractLsb' 16 8⟩, ⟨long.extractLsb' 8 8⟩,
    ⟨long.extractLsb' 0 8⟩]

/-- A call of the "main" interface. A pointer that may be NULL is an `Option`. -/
inductive Api where
  | socket (domain type proto : Int)
  | bind (s : Int) (addr : Option Int) (addrlen : Int)
  | connect (s : Int) (addr : Option Int) (addrlen : Int)
  | listen (s backlog : Int)
  | accept (s : Int) (addr : Option Int) (addrlen : Option Int)
  | send (s buf len flags : Int)
  | recv (s : Int) (buf : Option Int) (len flags : Int)
  | closeSocket (s : Int)
  deriving DecidableEq

def extractPort (mem : Memory) (addr : Option Int) (addrlen : Int) : UInt16 :=
  match addr with
  | none => 0
  | some p =>
      if addrlen < 4 then 0
      else ((mem (p + 2)).toUInt16 <<< 8) ||| (mem (p + 3)).toUInt16

/-- The function of `socket_ipc.c` that each call ends in. -/
def Api.call (mem : Memory) : Api → Call
  | .socket domain type proto => .socket domain type proto
  | .bind s addr addrlen => .bind s (extractPort mem addr addrlen)
  | .connect s addr addrlen => .connect s (extractPort mem addr addrlen)
  | .listen s backlog => .listen s backlog
  | .accept s _ _ => .accept s
  | .send s buf len _ => .send s (fun i => mem (buf + i)) len
  | .recv s _ len _ => .recv s len
  | .closeSocket s => .close s

/-- What `bs_*` returns: every error is `-1`. -/
def Api.value (result : Result) : Api → Int
  | .socket _ _ _ | .accept _ _ _ =>
      if result.value ≠ netstackOk then -1 else result.outSock.getD (-1)
  | .bind _ _ _ | .connect _ _ _ | .listen _ _ | .closeSocket _ =>
      if result.value = netstackOk then 0 else -1
  | .send _ _ _ _ | .recv _ _ _ _ => if 0 ≤ result.value then result.value else -1

/-- The loop of `bs_accept` before its last `left` passes. Each pass reads `*addrlen`. -/
def zeroTail (addr addrlen : Int) : Nat → Memory → Memory
  | 0, mem => mem
  | left + 1, mem =>
      let i : Int := 15 - left
      if i < loadLong mem addrlen then
        zeroTail addr addrlen left (Function.update mem (addr + i) 0)
      else mem

def sockaddrIn (peerPort : UInt16) : List UInt8 :=
  [16, 2, (peerPort >>> 8).toUInt8, (peerPort &&& 0xff).toUInt8]

/-- What `bs_accept` writes: the address, zeros behind it, and the size of both. -/
def writeAddress (mem : Memory) (addr addrlen : Int) (peerPort : UInt16) : Memory :=
  storeLong (zeroTail addr addrlen 12 (store mem addr (sockaddrIn peerPort))) addrlen 16

def Api.writes (mem : Memory) (result : Result) : Api → Memory
  | .accept _ (some addr) (some addrlen) =>
      if result.value = netstackOk ∧ 8 ≤ loadLong mem addrlen then
        writeAddress mem addr addrlen (result.outPeerPort.getD 0)
      else mem
  | .recv _ (some p) _ _ => store mem p result.bytes
  | _ => mem

def unreached : Result := { value := -1 }

/-- Where a task is: its request waits to be served, or the wrapper has its result. -/
inductive Pc where
  | idle
  | request (api : Api) (call : Call)
  | result (api : Api) (result : Result)

structure State (Task : Type) where
  engine : Engine
  mem : Memory
  pc : Task → Pc

def boot (mem : Memory) : State Task := ⟨initial, mem, fun _ => .idle⟩

inductive Label (Task : Type) where
  -- `up` is what `ensure_engine` comes to.
  | begin (t : Task) (api : Api) (up : Bool)
  | serve (t : Task) (x : Exchange)
  -- No engine port or no reply port.
  | lost (t : Task)
  | finish (t : Task) (api : Api) (value : Int)
  -- What the callers do with their memory.
  | compute

/-- Where a call is after it has looked at its arguments. -/
def Api.entry (mem : Memory) (up : Bool) (api : Api) : Pc :=
  if up then
    match (api.call mem).rejected with
    | some result => .result api result
    | none => .request api (api.call mem)
  else .result api unreached

/-! What an onlooker knows of the calls that are under way: the bytes a send was given,
how the request of a call was served, and for every fd the bytes that went into its
queue and came out of it since it was allocated. -/

structure Known (Task : Type) where
  taken : Task → List UInt8
  own : Task → Option (Move Engine Exchange)
  ledger : Int → BoundedFifo.Ledger UInt8

def nothing : Known Task := ⟨fun _ => [], fun _ => none, fun _ => .empty⟩

/-- The bytes a call is given, as they stand in memory. -/
def Api.outgoing (mem : Memory) : Api → List UInt8
  | .send _ buf len _ => window mem buf len.toNat
  | _ => []

def incoming (x : Exchange) : List UInt8 :=
  if x.req.kind = .recv ∧ x.reply.ok then
    window x.reply.u.recv.data 0 x.reply.u.recv.lenOut.toNat
  else []

/-- The books of one fd, with what is sent counted as it stood in the caller's memory. -/
def book (fd : Int) (taken : List UInt8) (ledger : BoundedFifo.Ledger UInt8)
    (move : Move Engine Exchange) : BoundedFifo.Ledger UInt8 :=
  let req := move.label.req
  let reply := move.label.reply
  if ¬ IsOpen move.before.table fd ∧ IsOpen move.after.table fd then .empty
  else if req.kind = .send ∧ (move.before.table req.u.send.sock).peerFd = fd ∧ reply.ok then
    ledger.accept (taken.take reply.u.send.lenOut.toNat)
  else if req.kind = .recv ∧ req.u.recv.sock = fd ∧ reply.ok then
    ledger.remove (incoming move.label)
  else ledger

/-- How a call has come by its result. -/
inductive Finished (api : Api) : Option (Move Engine Exchange) → Result → Prop where
  | unreached : Finished api none unreached
  | rejected (mem : Memory) {result : Result} (early : (api.call mem).rejected = some result) :
      Finished api none result
  | served (mem : Memory) {before after : Engine} {reply : NetstackReq}
      (passed : (api.call mem).rejected = none) (bounded : Bounded before.table)
      (outcome : Outcome before.table (api.call mem).request after.table reply) :
      Finished api (some ⟨before, ⟨(api.call mem).request, reply⟩, after⟩)
        ((api.call mem).unpack reply)

def Pc.Linked (taken : List UInt8) (own : Option (Move Engine Exchange)) : Pc → Prop
  | .idle => True
  | .request api call =>
      own = none ∧ ∃ mem, call = api.call mem ∧ call.rejected = none ∧ api.outgoing mem = taken
  | .result api answer => Finished api own answer

structure Kept (known : Known Task) (s : State Task) : Prop where
  bounded : Bounded s.engine.table
  balanced : ∀ fd, IsOpen s.engine.table fd →
    BoundedFifo.Balanced (known.ledger fd) (rxQueue (s.engine.table fd))
  linked : ∀ t, (s.pc t).Linked (known.taken t) (known.own t)

theorem kept_boot (mem : Memory) : Kept (nothing : Known Task) (boot mem) := by
  refine ⟨initial_bounded, ?_, fun _ => trivial⟩
  intro fd valid
  exact absurd rfl valid.2

theorem payload_window (mem : Memory) (buf len : Int) {count : Nat} (within : (count : Int) ≤ len) :
    window (blit (fun _ => 0) (fun i => mem (buf + i)) 0 0 len) 0 count = window mem buf count := by
  apply window_congr
  intro k below
  have inside : (0 : Int) ≤ 0 + (k : Int) ∧ 0 + (k : Int) < 0 + len := by omega
  have offset : 0 + ((0 : Int) + k - 0) = k := by omega
  simp only [blit, if_pos inside, offset]

theorem sent_length {t t' : Table} {r reply : NetstackReq} (bounded : Bounded t)
    (outcome : Outcome t r t' reply) (op : r.kind = .send) (ok : reply.ok) :
    0 ≤ reply.u.send.lenOut ∧ reply.u.send.lenOut ≤ r.u.send.lenIn := by
  cases outcome with
  | refused why err => exact absurd ok (refused_not_ok why err)
  | sent _ valid kind peer lower upper room =>
      have fits := acceptable_range (bounded.entries (t r.u.send.sock).peerFd) lower
      exact ⟨fits.1, fits.2.1⟩
  | passive other => simp_all
  | _ => simp_all

/-- What a send takes is the front of what its caller's buffer held. -/
theorem outgoing_payload {api : Api} {mem : Memory} {t t' : Table} {reply : NetstackReq}
    (bounded : Bounded t) (outcome : Outcome t (api.call mem).request t' reply)
    (op : (api.call mem).request.kind = .send) (ok : reply.ok) :
    (api.outgoing mem).take reply.u.send.lenOut.toNat =
      window (api.call mem).request.u.send.data 0 reply.u.send.lenOut.toNat := by
  obtain ⟨lower, upper⟩ := sent_length bounded outcome op ok
  cases api with
  | send sock buf len flags =>
      have bound : reply.u.send.lenOut ≤ len := upper
      have within : ((reply.u.send.lenOut.toNat : Nat) : Int) ≤ len := by omega
      rw [Api.outgoing, window_take _ _ (by omega)]
      exact (payload_window mem buf len within).symm
  | _ => cases op

theorem book_eq {api : Api} {mem : Memory} {before after : Engine} {reply : NetstackReq}
    (bounded : Bounded before.table)
    (outcome : Outcome before.table (api.call mem).request after.table reply) (fd : Int)
    (ledger : BoundedFifo.Ledger UInt8) :
    book fd (api.outgoing mem) ledger ⟨before, ⟨(api.call mem).request, reply⟩, after⟩ =
      rxAudit fd ledger ⟨before, ⟨(api.call mem).request, reply⟩, after⟩ := by
  unfold book rxAudit
  dsimp only
  split_ifs with fresh sent received
  · rfl
  · rw [outgoing_payload bounded outcome sent.1 sent.2.2]
  · rw [incoming, if_pos ⟨received.1, received.2.2⟩]
  · rfl

theorem entry_linked (mem : Memory) (up : Bool) (api : Api) :
    (api.entry mem up).Linked (api.outgoing mem) none := by
  unfold Api.entry
  cases up with
  | false => exact .unreached
  | true =>
      rw [if_pos rfl]
      cases early : (api.call mem).rejected with
      | some result => exact .rejected mem early
      | none => exact ⟨rfl, mem, rfl, early, rfl⟩

variable [DecidableEq Task]

def State.goto (s : State Task) (t : Task) (pc : Pc) : State Task :=
  { s with pc := Function.update s.pc t pc }

inductive Step : State Task → Label Task → State Task → Prop where
  | begin {s : State Task} {t : Task} {api : Api} {up : Bool} (here : s.pc t = .idle) :
      Step s (.begin t api up) (s.goto t (api.entry s.mem up))
  | serve {s : State Task} {t : Task} {api : Api} {call : Call} {engine : Engine}
      {reply : NetstackReq} (here : s.pc t = .request api call)
      (served : dispatchRequest s.engine call.request = .ok (engine, reply)) :
      Step s (.serve t ⟨call.request, reply⟩)
        ({ s with engine := engine }.goto t (.result api (call.unpack reply)))
  | lost {s : State Task} {t : Task} {api : Api} {call : Call} (here : s.pc t = .request api call) :
      Step s (.lost t) (s.goto t (.result api unreached))
  | finish {s : State Task} {t : Task} {api : Api} {result : Result}
      (here : s.pc t = .result api result) :
      Step s (.finish t api (api.value result))
        ({ s with mem := api.writes s.mem result }.goto t .idle)
  | compute {s : State Task} (mem : Memory) : Step s .compute { s with mem := mem }

abbrev History (Task : Type) := List (Move (State Task) (Label Task))

def watch (known : Known Task) (move : Move (State Task) (Label Task)) : Known Task :=
  match move.label with
  | .begin t api _ =>
      { known with
        taken := Function.update known.taken t (api.outgoing move.before.mem)
        own := Function.update known.own t none }
  | .serve t x =>
      let exchange : Move Engine Exchange := ⟨move.before.engine, x, move.after.engine⟩
      { known with
        own := Function.update known.own t (some exchange)
        ledger := fun fd => book fd (known.taken t) (known.ledger fd) exchange }
  | _ => known

theorem linked_goto {s s' : State Task} {known known' : Known Task} (t : Task)
    (others : ∀ u, (s.pc u).Linked (known.taken u) (known.own u))
    (mine : (s'.pc t).Linked (known'.taken t) (known'.own t))
    (frame : ∀ u, u ≠ t → s'.pc u = s.pc u ∧ known'.taken u = known.taken u ∧
      known'.own u = known.own u) (u : Task) :
    (s'.pc u).Linked (known'.taken u) (known'.own u) := by
  by_cases same : u = t
  · rw [same]
    exact mine
  · obtain ⟨pc, taken, own⟩ := frame u same
    rw [pc, taken, own]
    exact others u

theorem kept_step {known : Known Task} {s s' : State Task} {label : Label Task}
    (kept : Kept known s) (step : Step s label s') : Kept (watch known ⟨s, label, s'⟩) s' := by
  obtain ⟨bounded, balanced, linked⟩ := kept
  cases step with
  | @begin t api up here =>
      refine ⟨bounded, balanced, linked_goto t linked ?_ ?_⟩
      · simpa [watch, State.goto] using entry_linked s.mem up api
      · intro u apart
        simp [watch, State.goto, apart]
  | @serve t api call engine reply here ran =>
      have mine := linked t
      rw [here] at mine
      obtain ⟨-, mem, rfl, passed, taken⟩ := mine
      have outcome := outcome_of_dispatch bounded ran
      refine ⟨outcome_bounded bounded outcome, ?_, linked_goto t linked ?_ ?_⟩
      · intro fd valid
        simp only [watch, State.goto, ← taken]
        rw [book_eq bounded outcome]
        exact audit_balanced bounded outcome (balanced fd) valid
      · simp only [watch, State.goto, Function.update_self]
        exact .served mem passed bounded outcome
      · intro u apart
        simp [watch, State.goto, apart]
  | @lost t api call here =>
      have mine := linked t
      rw [here] at mine
      refine ⟨bounded, balanced, linked_goto t linked ?_ ?_⟩
      · simp only [watch, State.goto, Function.update_self, mine.1]
        exact .unreached
      · intro u apart
        simp [watch, State.goto, apart]
  | @finish t api result here =>
      refine ⟨bounded, balanced, linked_goto t linked ?_ ?_⟩
      · simp only [watch, State.goto, Function.update_self]
        trivial
      · intro u apart
        simp [watch, State.goto, apart]
  | compute mem => exact ⟨bounded, balanced, linked⟩

/-! Calls that follow one another, for concrete lists of them. -/

/-- One call from its begin to its return, with nothing in between. -/
def alone (s : State Task) (t : Task) (api : Api) : History Task × State Task :=
  let begun := s.goto t (api.entry s.mem true)
  match api.entry s.mem true with
  | .request api call =>
      let exchange := serve s.engine call.request
      let answer := call.unpack exchange.label.reply
      let answered := { begun with engine := exchange.after }.goto t (.result api answer)
      let ended := { answered with mem := api.writes answered.mem answer }.goto t .idle
      ([⟨s, .begin t api true, begun⟩, ⟨begun, .serve t exchange.label, answered⟩,
        ⟨answered, .finish t api (api.value answer), ended⟩], ended)
  | .result api answer =>
      let ended := { begun with mem := api.writes begun.mem answer }.goto t .idle
      ([⟨s, .begin t api true, begun⟩,
        ⟨begun, .finish t api (api.value answer), ended⟩], ended)
  | .idle => ([], s)

def sequence (past : History Task) (s : State Task) : List (Task × Api) → History Task × State Task
  | [] => (past, s)
  | (t, api) :: rest => sequence (past ++ (alone s t api).1) (alone s t api).2 rest

theorem alone_trace {start s : State Task} {past : History Task} (t : Task) (api : Api)
    (trace : Trace Step start past s) (here : s.pc t = .idle) (bounded : Bounded s.engine.table) :
    Trace Step start (past ++ (alone s t api).1) (alone s t api).2 ∧
      Bounded (alone s t api).2.engine.table := by
  have begun : Trace Step start _ _ := trace.snoc (.begin here : Step s (.begin t api true) _)
  cases early : (api.call s.mem).rejected with
  | some result =>
      have entry : api.entry s.mem true = .result api result := by
        rw [Api.entry, if_pos rfl, early]
      have arrived : (s.goto t (api.entry s.mem true)).pc t = .result api result := by
        rw [entry]
        exact Function.update_self ..
      have ended := begun.snoc (.finish arrived)
      rw [List.append_assoc] at ended
      simp only [alone, entry] at ended ⊢
      exact ⟨ended, bounded⟩
  | none =>
      have entry : api.entry s.mem true = .request api (api.call s.mem) := by
        rw [Api.entry, if_pos rfl, early]
      have arrived : (s.goto t (api.entry s.mem true)).pc t = .request api (api.call s.mem) := by
        rw [entry]
        exact Function.update_self ..
      obtain ⟨engine, reply, ran, outcome⟩ := dispatch_outcome bounded (api.call s.mem).request
      have exchange : serve s.engine (api.call s.mem).request =
          ⟨s.engine, ⟨(api.call s.mem).request, reply⟩, engine⟩ := by
        simp only [serve, ran]
      have answered := begun.snoc (.serve arrived ran)
      have ended := answered.snoc (.finish (Function.update_self ..))
      rw [List.append_assoc, List.append_assoc] at ended
      simp only [alone, entry, exchange] at ended ⊢
      exact ⟨ended, outcome_bounded bounded outcome⟩

theorem alone_idle {s : State Task} (t : Task) (api : Api) {u : Task} (here : s.pc u = .idle) :
    (alone s t api).2.pc u = .idle := by
  unfold alone
  dsimp only
  split
  · by_cases same : u = t
    · subst same
      simp [State.goto]
    · simpa [State.goto, same] using here
  · by_cases same : u = t
    · subst same
      simp [State.goto]
    · simpa [State.goto, same] using here
  · exact here

theorem sequence_trace {start s : State Task} {past : History Task}
    (trace : Trace Step start past s) (here : ∀ u, s.pc u = .idle)
    (bounded : Bounded s.engine.table) (calls : List (Task × Api)) :
    Trace Step start (sequence past s calls).1 (sequence past s calls).2 := by
  induction calls generalizing past s with
  | nil => exact trace
  | cons call rest ih =>
      obtain ⟨longer, next⟩ := alone_trace call.1 call.2 trace (here call.1) bounded
      exact ih longer (fun u => alone_idle call.1 call.2 (here u)) next

/-- Port 1234 at address 100, a text at address 200 and a length of 16 at address 320. -/
def desk : Memory := fun i =>
  if i = 102 then 4 else if i = 103 then 210 else if i = 200 then 104 else if i = 201 then 105
  else if i = 323 then 16 else 0

def session : List (Nat × Api) :=
  [(1, .socket 2 1 0), (1, .bind 3 (some 100) 16), (1, .listen 3 4), (2, .socket 2 1 0),
    (2, .connect 4 (some 100) 16), (1, .accept 3 (some 300) (some 320)), (2, .send 4 200 2 0),
    (1, .recv 5 (some 400) 16 0), (2, .recv 9 (some 500) 16 0)]

theorem session_trace :
    Trace Step (boot desk) (sequence [] (boot desk) session).1
      (sequence [] (boot desk) session).2 :=
  sequence_trace .nil (fun _ => rfl) initial_bounded session

end Netstack.Bsdsocket
