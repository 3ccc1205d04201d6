import Netstack.RpcPlaces

/-!
Calls are linear. The log of a run holds the requests in the order of their
PutMsg and what `dispatch_request` made of each. The k-th dispatch is the one of
the k-th put, the replies and the fd table are those of a sequential run of the
requests in that order, and a call that returns unpacks the reply to the request
it put last.
-/

namespace Netstack.Rpc

open Ipc Client FdTable Transition ReplyPorts

variable {Task : Type}

structure Log (Task : Type) where
  puts : List (Task × NetstackReq) := []
  served : List (Task × NetstackReq) := []
  answered : List Task := []

def Log.record (log : Log Task) (move : Move (State Task) (Event Task)) : Log Task :=
  match move.label with
  | .putMsg t => { log with puts := log.puts ++ [(t, (move.before.mem t).body)] }
  | .engineDispatch =>
      match move.before.engine with
      | .dispatch msg => { log with served := log.served ++ [(msg, (move.after.mem msg).body)] }
      | _ => log
  | .engineReplyMsg =>
      match move.before.engine with
      | .replyMsg msg => { log with answered := log.answered ++ [msg] }
      | _ => log
  | _ => log

def logOf (history : List (Move (State Task) (Event Task))) : Log Task :=
  history.foldl Log.record {}

/-- The requests dispatched so far, in the order of their puts. -/
def Log.requests (log : Log Task) : List NetstackReq :=
  (log.puts.take log.served.length).map Prod.snd

/-- The latest put of `t` has place `k` in the order of puts and put `req`. -/
structure LatestPut (puts : List (Task × NetstackReq)) (t : Task) (req : NetstackReq) (k : Nat) :
    Prop where
  place : puts[k]? = some (t, req)
  last : ∀ j other, puts[j]? = some (t, other) → j ≤ k

theorem latestPut_unique {puts : List (Task × NetstackReq)} {t : Task} {req req' : NetstackReq}
    {k k' : Nat} (one : LatestPut puts t req k) (two : LatestPut puts t req' k') : k = k' :=
  Nat.le_antisymm (two.last k req one.place) (one.last k' req' two.place)

theorem latestPut_new {puts : List (Task × NetstackReq)} (t : Task) (req : NetstackReq) :
    LatestPut (puts ++ [(t, req)]) t req puts.length := by
  constructor
  · simp
  · intro j other found
    obtain ⟨below, -⟩ := List.getElem?_eq_some_iff.mp found
    simp only [List.length_append, List.length_singleton] at below
    omega

theorem latestPut_snoc {puts : List (Task × NetstackReq)} {t other : Task}
    {req new : NetstackReq} {k : Nat} (latest : LatestPut puts t req k) (apart : other ≠ t) :
    LatestPut (puts ++ [(other, new)]) t req k := by
  obtain ⟨inside, -⟩ := List.getElem?_eq_some_iff.mp latest.place
  constructor
  · rw [List.getElem?_append_left inside]
    exact latest.place
  · intro j found place
    rcases Nat.lt_or_ge j puts.length with below | above
    · rw [List.getElem?_append_left below] at place
      exact latest.last j found place
    · rw [List.getElem?_append_right above] at place
      obtain ⟨zero, same⟩ := List.getElem?_eq_some_iff.mp place
      simp only [List.length_singleton] at zero
      simp only [show j - puts.length = 0 by omega, List.getElem_cons_zero, Prod.mk.injEq] at same
      exact absurd same.1 apart

/-- The log tells a sequential run: each dispatch is the one of the put with
its number, and replies and table are those of serving the requests one after
the other. -/
structure Linear (core : Engine) (log : Log Task) (s : State Task) : Prop where
  order : log.served.map Prod.fst <+: log.puts.map Prod.fst
  replies : log.served.map Prod.snd =
    (historyOf core log.requests).map fun move => move.label.reply
  table : s.core = stateAfter core log.requests

/-- A call that returns after a put returns what the dispatch of its own
request wrote. -/
def ReturnsOwn (log : Log Task) (move : Move (State Task) (Event Task)) : Prop :=
  ∀ t call, move.label = .unpack t → move.before.client t = .unpack call →
    ∃ k reply, LatestPut log.puts t call.request k ∧ log.served[k]? = some (t, reply) ∧
      returned move.before t = some (call.unpack reply)

/-- The engine does not sleep on a message. -/
def Awake (s : State Task) : Prop :=
  s.engine = .wait → s.ports requestPort ≠ [] → s.portSignal = true

/-! What a client knows of its request before the put and after it. -/

def ClientPc.asks : ClientPc → Option Call
  | .ensureEnginePort call | .ensureReplyPort call _ | .putMsg (.call call) _ _ => some call
  | _ => none

def ClientPc.awaits : ClientPc → Option Call
  | .waitPort (.call call) _ | .getMsg (.call call) _ | .unpack call => some call
  | _ => none

/-- The request of `t` is dispatched and its call has not returned. -/
def Answered (s : State Task) (t : Task) : Prop :=
  t ∈ replying s ∨ (∃ port, port ≠ requestPort ∧ t ∈ s.ports port) ∨
    ∃ call, s.client t = .unpack call

structure Ordered (core : Engine) (log : Log Task) (s : State Task) : Prop where
  line : log.puts.drop log.served.length = (undispatched s).map fun t => (t, (s.mem t).body)
  names : log.served.map Prod.fst = (log.puts.take log.served.length).map Prod.fst
  answered : log.answered ++ replying s = log.served.map Prod.fst
  replies : log.served.map Prod.snd =
    (historyOf core log.requests).map fun move => move.label.reply
  table : s.core = stateAfter core log.requests
  turn : ∀ i t, (undispatched s)[i]? = some t →
    ∃ req, LatestPut log.puts t req (log.served.length + i)
  asked : ∀ t call, (s.client t).asks = some call → (s.mem t).body = call.request
  own : ∀ t call, (s.client t).awaits = some call → ∃ k, LatestPut log.puts t call.request k
  answer : ∀ t, Answered s t → ∃ k req, LatestPut log.puts t req k ∧
    log.served[k]? = some (t, (s.mem t).body)

theorem ordered_boot (core : Engine) :
    Ordered (boot core : State Task).core {} (boot core : State Task) := by
  constructor <;>
    simp [boot, undispatched, replying, Log.requests, historyOf, stateAfter, ClientPc.asks,
      ClientPc.awaits, Answered]

/-- A step that moves no message between the engine's line and its hands. -/
theorem ordered_frame {core : Engine} {log : Log Task} {s s' : State Task}
    (ordered : Ordered core log s) (line : undispatched s' = undispatched s)
    (hand : replying s' = replying s) (same : s'.core = s.core)
    (bodies : ∀ t ∈ undispatched s, (s'.mem t).body = (s.mem t).body)
    (asked : ∀ t call, (s'.client t).asks = some call → (s'.mem t).body = call.request)
    (awaits : ∀ t call, (s'.client t).awaits = some call → (s.client t).awaits = some call)
    (answers : ∀ t, Answered s' t → Answered s t ∧ (s'.mem t).body = (s.mem t).body) :
    Ordered core log s' := by
  constructor
  · rw [ordered.line, line]
    apply List.map_congr_left
    intro t member
    rw [bodies t member]
  · exact ordered.names
  · rw [hand]
    exact ordered.answered
  · exact ordered.replies
  · rw [same]
    exact ordered.table
  · rw [line]
    exact ordered.turn
  · exact asked
  · intro t call known
    exact ordered.own t call (awaits t call known)
  · intro t known
    obtain ⟨before, body⟩ := answers t known
    rw [body]
    exact ordered.answer t before

/-- The engine moves and no message changes its place but from the port into its hand. -/
theorem ordered_engine {core : Engine} {log : Log Task} {s s' : State Task}
    (ordered : Ordered core log s) (line : undispatched s' = undispatched s)
    (hand : replying s' = replying s) (same : s'.core = s.core) (client : s'.client = s.client)
    (mem : s'.mem = s.mem) (ports : ∀ port, port ≠ requestPort → s'.ports port = s.ports port) :
    Ordered core log s' := by
  refine ordered_frame ordered line hand same (fun t _ => by rw [mem]) ?_ ?_ ?_
  · rw [client, mem]
    exact ordered.asked
  · rw [client]
    exact fun _ _ => id
  · intro t known
    refine ⟨?_, by rw [mem]⟩
    rcases known with member | ⟨port, apart, there⟩ | unpacks
    · rw [hand] at member
      exact Or.inl member
    · rw [ports port apart] at there
      exact Or.inr (Or.inl ⟨port, apart, there⟩)
    · rw [client] at unpacks
      exact Or.inr (Or.inr unpacks)

theorem undispatched_onEngine {s : State Task} {t : Task} (member : t ∈ undispatched s) :
    t ∈ onEngine s :=
  List.mem_append_right _ member

theorem replying_onEngine {s : State Task} {t : Task} (member : t ∈ replying s) :
    t ∈ onEngine s :=
  List.mem_append_left _ member

theorem served_le_puts {core : Engine} {log : Log Task} {s : State Task}
    (ordered : Ordered core log s) : log.served.length ≤ log.puts.length := by
  have length := congrArg List.length ordered.names
  simp only [List.length_map, List.length_take] at length
  omega

/-- The put that follows those served is the one of the first message in line. -/
theorem next_put {core : Engine} {log : Log Task} {s : State Task} (ordered : Ordered core log s)
    {msg : Task} {rest : List Task} (line : undispatched s = msg :: rest) :
    log.puts.take (log.served.length + 1) =
      log.puts.take log.served.length ++ [(msg, (s.mem msg).body)] := by
  have first : log.puts[log.served.length]? = some (msg, (s.mem msg).body) := by
    rw [← List.head?_drop, ordered.line, line]
    rfl
  rw [List.take_add_one, first]
  rfl

/-- The last put is that of the message that joins the line, and every message
before it keeps its number. -/
theorem put_turn {core : Engine} {log : Log Task} {s : State Task} (ordered : Ordered core log s)
    {t : Task} (absent : t ∉ undispatched s) {i : Nat} {other : Task}
    (found : (undispatched s ++ [t])[i]? = some other) :
    ∃ req, LatestPut (log.puts ++ [(t, (s.mem t).body)]) other req (log.served.length + i) := by
  have length : log.puts.length - log.served.length = (undispatched s).length := by
    have length := congrArg List.length ordered.line
    simpa only [List.length_map, List.length_drop] using length
  rcases Nat.lt_or_ge i (undispatched s).length with below | above
  · rw [List.getElem?_append_left below] at found
    have apart : t ≠ other := by
      rintro rfl
      exact absent (List.mem_of_getElem? found)
    obtain ⟨req, latest⟩ := ordered.turn i other found
    exact ⟨req, latestPut_snoc latest apart⟩
  · rw [List.getElem?_append_right above] at found
    obtain ⟨zero, last⟩ := List.getElem?_eq_some_iff.mp found
    simp only [List.length_singleton] at zero
    have here : i = (undispatched s).length := by omega
    simp only [here, Nat.sub_self, List.getElem_cons_zero] at last
    have number : log.served.length + i = log.puts.length := by
      have short := served_le_puts ordered
      omega
    refine ⟨(s.mem t).body, ?_⟩
    rw [number, ← last]
    exact latestPut_new t _

/-- What a dispatch writes is the answer to the first in line; the answers
before it stay where they are. -/
theorem dispatched_answer {core : Engine} {log : Log Task} {s s' : State Task}
    (ordered : Ordered core log s) {msg : Task} {rest : List Task} {reply : NetstackReq}
    (line : undispatched s = msg :: rest) (body : (s'.mem msg).body = reply)
    (mem : ∀ other, other ≠ msg → s'.mem other = s.mem other) {t : Task}
    (answers : t ≠ msg → Answered s t) :
    ∃ k req, LatestPut log.puts t req k ∧
      (log.served ++ [(msg, reply)])[k]? = some (t, (s'.mem t).body) := by
  by_cases here : t = msg
  · obtain ⟨req, latest⟩ := ordered.turn 0 msg (by rw [line]; rfl)
    refine ⟨log.served.length, req, ?_, ?_⟩
    · rw [here]
      exact latest
    · rw [here, body, List.getElem?_append_right (Nat.le_refl _), Nat.sub_self]
      rfl
  · obtain ⟨k, req, latest, found⟩ := ordered.answer t (answers here)
    obtain ⟨inside, -⟩ := List.getElem?_eq_some_iff.mp found
    refine ⟨k, req, latest, ?_⟩
    rw [List.getElem?_append_left inside, mem t here]
    exact found

theorem ordered_dispatched {core after : Engine} {log : Log Task} {s s' : State Task}
    (places : Places s) (ordered : Ordered core log s) {msg : Task} {reply : NetstackReq}
    (pc : s.engine = .dispatch msg)
    (ran : dispatchRequest s.core (s.mem msg).body = .ok (after, reply))
    (client : s'.client = s.client) (ports : s'.ports = s.ports)
    (hand : s'.engine = .replyMsg msg) (same : s'.core = after) (body : (s'.mem msg).body = reply)
    (mem : ∀ other, other ≠ msg → s'.mem other = s.mem other) :
    Ordered core { log with served := log.served ++ [(msg, reply)] } s' := by
  have line : undispatched s = msg :: s.ports requestPort := by simp [undispatched, pc]
  have line' : undispatched s' = s.ports requestPort := by simp [undispatched, hand, ports]
  have idle : replying s = [] := by simp [replying, pc]
  have onHand : replying s' = [msg] := by simp [replying, hand]
  have distinct := places.distinct
  rw [onEngine, idle, line, List.nil_append, List.nodup_cons] at distinct
  have grown := next_put ordered line
  have requests : ({ log with served := log.served ++ [(msg, reply)] } : Log Task).requests =
      log.requests ++ [(s.mem msg).body] := by
    simp only [Log.requests, List.length_append, List.length_singleton, grown, List.map_append]
    rfl
  have served : serve (stateAfter core log.requests) (s.mem msg).body =
      ⟨s.core, ⟨(s.mem msg).body, reply⟩, after⟩ := by
    rw [← ordered.table, serve, ran]
  have waits : ∃ job port, s.client msg = .waitPort job port ∧ s.ports port = [] :=
    places.held msg (undispatched_onEngine (by rw [line]; exact List.mem_cons_self))
  obtain ⟨job, port, waiting, -⟩ := waits
  constructor
  · show log.puts.drop (log.served ++ [(msg, reply)]).length = _
    rw [List.length_append, List.length_singleton, ← List.tail_drop, ordered.line, line, line',
      List.map_cons, List.tail_cons]
    apply List.map_congr_left
    intro other member
    have apart : other ≠ msg := fun here => distinct.1 (here ▸ member)
    rw [mem other apart]
  · show (log.served ++ [(msg, reply)]).map Prod.fst =
      (log.puts.take (log.served ++ [(msg, reply)]).length).map Prod.fst
    rw [List.length_append, List.length_singleton, grown, List.map_append, List.map_append,
      ordered.names]
    rfl
  · show log.answered ++ _ = (log.served ++ [(msg, reply)]).map Prod.fst
    have before := ordered.answered
    rw [idle, List.append_nil] at before
    rw [onHand, List.map_append, before]
    rfl
  · show (log.served ++ [(msg, reply)]).map Prod.snd = _
    rw [requests, historyOf_snoc, served, List.map_append, List.map_append, ordered.replies]
    rfl
  · rw [requests, stateAfter_snoc, served]
    exact same
  · intro i other found
    rw [line'] at found
    have earlier : (undispatched s)[i + 1]? = some other := by rw [line]; exact found
    obtain ⟨req, latest⟩ := ordered.turn (i + 1) other earlier
    refine ⟨req, ?_⟩
    show LatestPut log.puts other req ((log.served ++ [(msg, reply)]).length + i)
    rw [List.length_append, List.length_singleton, Nat.add_assoc, Nat.add_comm 1 i]
    exact latest
  · intro other call known
    rw [client] at known
    have apart : other ≠ msg := by
      rintro rfl
      rw [waiting] at known
      cases known
    rw [mem other apart]
    exact ordered.asked other call known
  · intro other call known
    rw [client] at known
    exact ordered.own other call known
  · intro other known
    refine dispatched_answer ordered line body mem ?_
    intro here
    rcases known with member | there | unpacks
    · rw [onHand] at member
      exact absurd (List.mem_singleton.mp member) here
    · rw [ports] at there
      exact Or.inr (Or.inl there)
    · rw [client] at unpacks
      exact Or.inr (Or.inr unpacks)

theorem ordered_replied {core : Engine} {log : Log Task} {s s' : State Task}
    (ordered : Ordered core log s) {msg : Task} {port : Nat} (pc : s.engine = .replyMsg msg)
    (client : s'.client = s.client) (mem : s'.mem = s.mem) (same : s'.core = s.core)
    (apart : port ≠ requestPort) (ports : s'.ports = MsgPort.post s.ports port msg)
    (hand : s'.engine = .getMsg) :
    Ordered core { log with answered := log.answered ++ [msg] } s' := by
  have onHand : replying s = [msg] := by simp [replying, pc]
  have empty : replying s' = [] := by simp [replying, hand]
  have line : undispatched s' = undispatched s := by
    simp [undispatched, hand, pc, ports, MsgPort.post_other (Ne.symm apart)]
  have answers : ∀ t, Answered s' t → Answered s t := by
    rintro t (member | ⟨at_, notRequest, there⟩ | unpacks)
    · rw [empty] at member
      contradiction
    · by_cases here : at_ = port
      · rw [ports, here, MsgPort.post_self] at there
        rcases List.mem_append.mp there with old | new
        · exact Or.inr (Or.inl ⟨port, apart, old⟩)
        · exact Or.inl (by rw [onHand]; exact new)
      · rw [ports, MsgPort.post_other here] at there
        exact Or.inr (Or.inl ⟨at_, notRequest, there⟩)
    · rw [client] at unpacks
      exact Or.inr (Or.inr unpacks)
  refine ⟨?_, ordered.names, ?_, ordered.replies, ?_, ?_, ?_, ?_, ?_⟩
  · rw [line, mem]
    exact ordered.line
  · show (log.answered ++ [msg]) ++ _ = _
    rw [empty, List.append_nil, ← onHand]
    exact ordered.answered
  · rw [same]
    exact ordered.table
  · rw [line]
    exact ordered.turn
  · rw [client, mem]
    exact ordered.asked
  · rw [client]
    exact ordered.own
  · rw [mem]
    intro t known
    exact ordered.answer t (answers t known)

/-- A message that arrives after the last GetMsg leaves its signal pending
until the next Wait. -/
def Watchful (s : State Task) : Prop :=
  (s.engine = .wait ∨ s.engine = .test) → s.ports requestPort ≠ [] → s.portSignal = true

/-- What every step of every run keeps. -/
structure Inv (core : Engine) (log : Log Task) (s : State Task) : Prop where
  owned : PortsOwned s
  places : Places s
  ordered : Ordered core log s
  watchful : Watchful s

theorem inv_boot (core : Engine) :
    Inv (boot core : State Task).core {} (boot core : State Task) := by
  refine ⟨portsOwned_boot core, places_boot core, ordered_boot core, ?_⟩
  intro _ waiting
  exact absurd rfl waiting

theorem linear_of_ordered {core : Engine} {log : Log Task} {s : State Task}
    (ordered : Ordered core log s) : Linear core log s := by
  refine ⟨?_, ordered.replies, ordered.table⟩
  rw [ordered.names]
  exact (List.take_prefix ..).map _

theorem returnsOwn_of_ordered {core : Engine} {log : Log Task} {s s' : State Task}
    {e : Event Task} (ordered : Ordered core log s) : ReturnsOwn log ⟨s, e, s'⟩ := by
  intro t call _ unpacks
  have pc : s.client t = .unpack call := unpacks
  obtain ⟨k, mine⟩ := ordered.own t call (by rw [pc]; rfl)
  obtain ⟨k', req, latest, served⟩ := ordered.answer t (Or.inr (Or.inr ⟨call, pc⟩))
  rw [latestPut_unique latest mine] at served
  exact ⟨k, (s.mem t).body, mine, served, by simp [returned, pc]⟩

variable [DecidableEq Task]

/-- A step of one task that waits for no reply. -/
theorem ordered_local {core : Engine} {log : Log Task} {s s' : State Task} (places : Places s)
    (ordered : Ordered core log s) {t : Task} {pc : ClientPc}
    (client : s'.client = Function.update s.client t pc) (ports : s'.ports = s.ports)
    (engine : s'.engine = s.engine) (same : s'.core = s.core)
    (mem : ∀ other, other ≠ t → s'.mem other = s.mem other)
    (before : (s.client t).waiting = false)
    (asked : ∀ call, pc.asks = some call → (s'.mem t).body = call.request)
    (silent : pc.awaits = none) : Ordered core log s' := by
  have self : s'.client t = pc := by rw [client, Function.update_self]
  have others : ∀ {other}, other ≠ t → s'.client other = s.client other := by
    intro other apart
    rw [client, Function.update_of_ne apart]
  obtain ⟨notHeld, notThere⟩ := nowhere_of_idle places before
  refine ordered_frame ordered ?_ ?_ same ?_ ?_ ?_ ?_
  · simp only [undispatched, ports, engine]
  · simp only [replying, engine]
  · intro other member
    have apart : other ≠ t := fun here => notHeld (here ▸ undispatched_onEngine member)
    rw [mem other apart]
  · intro other call known
    by_cases here : other = t
    · rw [here] at known ⊢
      rw [self] at known
      exact asked call known
    · rw [others here] at known
      rw [mem other here]
      exact ordered.asked other call known
  · intro other call known
    by_cases here : other = t
    · rw [here, self, silent] at known
      contradiction
    · rw [others here] at known
      exact known
  · intro other known
    have apart : other ≠ t := by
      rintro rfl
      rcases known with hand | ⟨port, notRequest, there⟩ | ⟨call, unpacks⟩
      · rw [replying, engine] at hand
        exact notHeld (replying_onEngine hand)
      · rw [ports] at there
        exact notThere port notRequest there
      · rw [self] at unpacks
        rw [unpacks] at silent
        contradiction
    refine ⟨?_, by rw [mem other apart]⟩
    rw [Answered, others apart, ports] at known
    simpa only [Answered, replying, engine] using known

theorem ordered_put {core : Engine} {log : Log Task} {s s' : State Task} (places : Places s)
    (ordered : Ordered core log s) {t : Task} {job : Job} {engine reply : Nat}
    (pc : s.client t = .putMsg job engine reply)
    (client : s'.client = Function.update s.client t (.waitPort job reply)) (mem : s'.mem = s.mem)
    (ports : s'.ports = MsgPort.post s.ports requestPort t) (hand : s'.engine = s.engine)
    (same : s'.core = s.core) :
    Ordered core { log with puts := log.puts ++ [(t, (s.mem t).body)] } s' := by
  have self : s'.client t = .waitPort job reply := by rw [client, Function.update_self]
  have others : ∀ {other}, other ≠ t → s'.client other = s.client other := by
    intro other apart
    rw [client, Function.update_of_ne apart]
  obtain ⟨notHeld, notThere⟩ := nowhere_of_idle places (t := t) (by rw [pc]; rfl)
  have line := undispatched_post ports hand
  have short := served_le_puts ordered
  have requests : ({ log with puts := log.puts ++ [(t, (s.mem t).body)] } : Log Task).requests =
      log.requests := by
    simp only [Log.requests, List.take_append_of_le_length short]
  constructor
  · show (log.puts ++ _).drop _ = _
    rw [List.drop_append_of_le_length short, ordered.line, line, mem, List.map_append]
    rfl
  · show _ = List.map _ ((log.puts ++ _).take _)
    rw [List.take_append_of_le_length short]
    exact ordered.names
  · rw [replying, hand]
    exact ordered.answered
  · rw [requests]
    exact ordered.replies
  · rw [requests, same]
    exact ordered.table
  · intro i other found
    rw [line] at found
    exact put_turn ordered (fun member => notHeld (undispatched_onEngine member)) found
  · intro other call known
    rw [mem]
    by_cases here : other = t
    · rw [here, self] at known
      cases known
    · rw [others here] at known
      exact ordered.asked other call known
  · intro other call known
    by_cases here : other = t
    · rw [here, self] at known
      have request : (s.mem t).body = call.request := by
        apply ordered.asked t call
        rw [pc]
        cases job with
        | call c => exact known
        | stop => cases known
      rw [here, ← request]
      exact ⟨_, latestPut_new t _⟩
    · rw [others here] at known
      obtain ⟨k, latest⟩ := ordered.own other call known
      exact ⟨k, latestPut_snoc latest (Ne.symm here)⟩
  · intro other known
    have apart : other ≠ t := by
      rintro rfl
      rcases known with member | ⟨port, notRequest, there⟩ | ⟨call, unpacks⟩
      · rw [replying, hand] at member
        exact notHeld (replying_onEngine member)
      · rw [ports, MsgPort.post_other notRequest] at there
        exact notThere port notRequest there
      · rw [self] at unpacks
        cases unpacks
    have before : Answered s other := by
      rcases known with member | ⟨port, notRequest, there⟩ | unpacks
      · rw [replying, hand] at member
        exact Or.inl member
      · rw [ports, MsgPort.post_other notRequest] at there
        exact Or.inr (Or.inl ⟨port, notRequest, there⟩)
      · rw [others apart] at unpacks
        exact Or.inr (Or.inr unpacks)
    obtain ⟨k, req, latest, found⟩ := ordered.answer other before
    rw [mem]
    exact ⟨k, req, latestPut_snoc latest (Ne.symm apart), found⟩

/-- A client takes its message off its port: the reply it holds is unpacked next. -/
theorem ordered_got {core : Engine} {log : Log Task} {s s' : State Task} (owned : PortsOwned s)
    (places : Places s) (ordered : Ordered core log s) {t : Task} {job : Job} {reply : Nat}
    {next : ClientPc} (pc : s.client t = .getMsg job reply)
    (client : s'.client = Function.update s.client t next) (mem : s'.mem = s.mem)
    (ports : s'.ports = MsgPort.take s.ports reply) (hand : s'.engine = s.engine)
    (same : s'.core = s.core) (asks : next.asks = none)
    (awaits : ∀ call, next.awaits = some call → (s.client t).awaits = some call) :
    Ordered core log s' := by
  have self : s'.client t = next := by rw [client, Function.update_self]
  have others : ∀ {other}, other ≠ t → s'.client other = s.client other := by
    intro other apart
    rw [client, Function.update_of_ne apart]
  have apart : reply ≠ requestPort := reply_ne_request owned (t := t) (by rw [pc]; rfl)
  have arrived := places.gets t job reply pc
  refine ordered_frame ordered ?_ ?_ same (fun _ _ => by rw [mem]) ?_ ?_ ?_
  · simp [undispatched, hand, ports, MsgPort.take_other (Ne.symm apart)]
  · simp only [replying, hand]
  · intro other call known
    rw [mem]
    by_cases here : other = t
    · rw [here, self, asks] at known
      contradiction
    · rw [others here] at known
      exact ordered.asked other call known
  · intro other call known
    by_cases here : other = t
    · rw [here, self] at known
      rw [here]
      exact awaits call known
    · rw [others here] at known
      exact known
  · intro other known
    refine ⟨?_, by rw [mem]⟩
    rcases known with member | ⟨port, notRequest, there⟩ | ⟨call, unpacks⟩
    · rw [replying, hand] at member
      exact Or.inl member
    · by_cases here : port = reply
      · rw [ports, here, MsgPort.take_self] at there
        exact Or.inr (Or.inl ⟨reply, apart, List.mem_of_mem_tail there⟩)
      · rw [ports, MsgPort.take_other here] at there
        exact Or.inr (Or.inl ⟨port, notRequest, there⟩)
    · by_cases here : other = t
      · rw [here]
        exact Or.inr (Or.inl ⟨reply, apart, arrived⟩)
      · rw [others here] at unpacks
        exact Or.inr (Or.inr ⟨call, unpacks⟩)

theorem ordered_woken {core : Engine} {log : Log Task} {s : State Task}
    (ordered : Ordered core log s) {t : Task} {job : Job} {reply : Nat}
    (pc : s.client t = .waitPort job reply) :
    Ordered core log (s.goto t (.getMsg job reply)) := by
  refine ordered_frame ordered rfl rfl rfl (fun _ _ => rfl) ?_ ?_ ?_
  · intro other call known
    by_cases here : other = t
    · rw [here, goto_self] at known
      cases known
    · rw [goto_other here] at known
      exact ordered.asked other call known
  · intro other call known
    by_cases here : other = t
    · rw [here, goto_self] at known
      rw [here, pc]
      cases job <;> exact known
    · rw [goto_other here] at known
      exact known
  · intro other known
    refine ⟨known.imp id (Or.imp id ?_), rfl⟩
    rintro ⟨call, unpacks⟩
    by_cases here : other = t
    · rw [here, goto_self] at unpacks
      cases unpacks
    · rw [goto_other here] at unpacks
      exact ⟨call, unpacks⟩

theorem effect_ordered {core : Engine} {log : Log Task} {s s' : State Task} {e : Event Task}
    (owned : PortsOwned s) (places : Places s) (ordered : Ordered core log s)
    (effect : Effect s e s') : Ordered core (log.record ⟨s, e, s'⟩) s' := by
  have elsewhere {t other : Task} {record : Record} (apart : other ≠ t) :
      Function.update s.mem t record other = s.mem other := Function.update_of_ne apart ..
  cases effect with
  | rejected | alreadyDown => exact ordered
  | @began t call pc passed =>
      refine ordered_local places ordered rfl rfl rfl rfl (fun _ apart => elsewhere apart)
        (by rw [pc]; rfl) ?_ rfl
      intro other known
      cases known
      simp [State.write, State.goto]
  | @located t call port pc found =>
      refine ordered_local places ordered rfl rfl rfl rfl (fun _ _ => rfl) (by rw [pc]; rfl) ?_ rfl
      intro other known
      exact ordered.asked t other (by rw [pc]; exact known)
  | @equipped t granted call engine reply slots pc ran =>
      refine ordered_local places ordered rfl rfl rfl rfl (fun _ apart => elsewhere apart)
        (by rw [pc]; rfl) ?_ rfl
      intro other known
      have before := ordered.asked t other (by rw [pc]; exact known)
      simpa [State.write, State.goto] using before
  | unreachable pc | unequipped pc | unpacked pc | stopSignalled pc | sawStopped pc =>
      exact ordered_local places ordered rfl rfl rfl rfl (fun _ _ => rfl) (by rw [pc]; rfl)
        (fun call known => by cases known) rfl
  | stopAsked pc up =>
      exact ordered_local places ordered rfl rfl rfl rfl (fun _ apart => elsewhere apart)
        (by rw [pc]; rfl) (fun call known => by cases known) rfl
  | @put t job engine reply pc =>
      have aim : engine = requestPort := owned.aimed t engine (by rw [pc]; rfl)
      subst aim
      exact ordered_put places ordered pc rfl rfl rfl rfl rfl
  | woken pc arrived => exact ordered_woken ordered pc
  | got pc =>
      exact ordered_got owned places ordered pc rfl rfl rfl rfl rfl rfl fun call known => by
        rw [pc]
        exact known
  | gotStop pc =>
      exact ordered_got owned places ordered pc rfl rfl rfl rfl rfl rfl fun call known => by
        cases known
  | broken => exact ordered_engine ordered rfl rfl rfl rfl rfl fun _ _ => rfl
  | left pc | roused pc | drained pc | freed pc =>
      refine ordered_engine ordered ?_ ?_ rfl rfl rfl fun _ _ => rfl
      · simp [undispatched, pc]
      · simp [replying, pc]
  | tested pc =>
      refine ordered_engine ordered ?_ ?_ rfl rfl rfl fun _ _ => rfl
      · cases s.core.shutdown <;> simp [undispatched, pc]
      · cases s.core.shutdown <;> simp [replying, pc]
  | taken pc line =>
      refine ordered_engine ordered ?_ ?_ rfl rfl rfl fun _ apart => MsgPort.take_other apart
      · simp [undispatched, pc, line, State.take]
      · simp [replying, pc]
  | @dispatched msg after reply pc ran =>
      let next : State Task := { s.write msg { s.mem msg with body := reply } with
        core := after, engine := .replyMsg msg }
      have body : (next.mem msg).body = reply := by simp [next, State.write]
      have grown : Ordered core { log with served := log.served ++ [(msg, reply)] } next :=
        ordered_dispatched places ordered pc ran rfl rfl rfl rfl body fun _ apart =>
          elsewhere apart
      have recorded : log.record ⟨s, .engineDispatch, next⟩ =
          { log with served := log.served ++ [(msg, reply)] } := by
        simp [Log.record, pc, body]
      rw [recorded]
      exact grown
  | @replied msg port pc address =>
      obtain ⟨job, reply, waits, -⟩ := places.held msg (by simp [onEngine, replying, pc])
      have known : (s.client msg).reply = some reply := by rw [waits]; rfl
      have same : port = reply := by
        rw [places.addressed msg reply known] at address
        exact (Option.some.inj address).symm
      have recorded : log.record ⟨s, .engineReplyMsg, { s.post port msg with engine := .getMsg }⟩ =
          { log with answered := log.answered ++ [msg] } := by
        simp [Log.record, pc]
      rw [recorded]
      exact ordered_replied ordered pc rfl rfl rfl (same ▸ reply_ne_request owned known) rfl rfl
  | @unaddressed msg pc address =>
      obtain ⟨job, port, waits, -⟩ := places.held msg (by simp [onEngine, replying, pc])
      rw [places.addressed msg port (by rw [waits]; rfl)] at address
      contradiction

theorem effect_watchful {s s' : State Task} {e : Event Task} (owned : PortsOwned s)
    (watchful : Watchful s) (effect : Effect s e s') : Watchful s' := by
  cases effect with
  | rejected | alreadyDown | began | located | unreachable | equipped | unequipped | woken |
    unpacked | stopAsked | stopSignalled | sawStopped | broken => exact watchful
  | @put t job engine reply pc =>
      have aim : engine = requestPort := owned.aimed t engine (by rw [pc]; rfl)
      intro _ _
      simp [State.goto, State.post, aim]
  | got pc | gotStop pc =>
      intro at_ waiting
      refine watchful at_ ?_
      rw [← take_requests owned (congrArg ClientPc.reply pc)]
      exact waiting
  | drained pc empty =>
      intro _ waiting
      exact absurd empty waiting
  | tested pc =>
      intro _ waiting
      exact watchful (Or.inr pc) waiting
  | left | roused | taken | dispatched | replied | unaddressed | freed =>
      rintro (at_ | at_) _ <;> cases at_

theorem inv_step {core : Engine} {log : Log Task} {s s' : State Task} {e : Event Task}
    (inv : Inv core log s) (stepped : Steps s e s') : Inv core (log.record ⟨s, e, s'⟩) s' := by
  have effect := effect_of_step stepped
  exact ⟨effect_owned inv.owned effect, effect_places inv.owned inv.places effect,
    effect_ordered inv.owned inv.places inv.ordered effect,
    effect_watchful inv.owned inv.watchful effect⟩

theorem run_inv {core : Engine} {history : List (Move (State Task) (Event Task))} {s : State Task}
    (trace : Trace Steps (boot core) history s) :
    Inv (boot core : State Task).core (logOf history) s ∧
      Along Log.record ReturnsOwn {} history :=
  observed_invariant (Inv (boot core : State Task).core) (fun _ _ => True) (inv_boot core)
    (fun _ _ _ _ inv stepped _ => inv_step inv stepped)
    (fun _ _ _ _ inv _ _ => returnsOwn_of_ordered inv.ordered) trace
    (along_of_forall _ fun _ _ => trivial)

/-- For any number of tasks and any interleaving: the k-th dispatch is the one
of the k-th PutMsg, replies and fd table are those of serving the requests one
at a time in the order of their PutMsgs, every call that returns unpacks what
the dispatch of its own request wrote, and the engine never sleeps on a
message. -/
theorem calls_are_linear (core : Engine) (history : List (Move (State Task) (Event Task)))
    (s : State Task) (trace : Trace Steps (boot core) history s) :
    Linear (boot core : State Task).core (logOf history) s ∧ Awake s ∧
      Along Log.record ReturnsOwn {} history := by
  obtain ⟨inv, along⟩ := run_inv trace
  refine ⟨linear_of_ordered inv.ordered, ?_, along⟩
  intro waits
  exact inv.watchful (Or.inl waits)

def Event.ofEngine : Event Task → Bool
  | .engineWait | .engineGetMsg | .engineDispatch | .engineReplyMsg | .engineTest
  | .engineFreePort => true
  | _ => false

theorem core_bounded {core : Engine} (bounded : Bounded core.table)
    {history : List (Move (State Task) (Event Task))} {s : State Task}
    (trace : Trace Steps (boot core) history s) : Bounded s.core.table := by
  refine trace_invariant (fun s => Bounded s.core.table) bounded ?_ trace
  intro before e after inside stepped
  cases effect_of_step stepped with
  | dispatched pc ran => exact outcome_bounded inside (outcome_of_dispatch inside ran)
  | _ => exact inside

/-- The loop of the engine has a next step wherever it is, except in a Wait for
a signal that has not come. -/
theorem engine_never_stuck (core : Engine) (reachable : Reachable core)
    (history : List (Move (State Task) (Event Task))) (s : State Task)
    (trace : Trace Steps (boot core) history s) (running : s.engine ≠ .stopped)
    (signalled : s.engine = .wait → s.ctrlC = true ∨ s.portSignal = true) :
    ∃ e s', e.ofEngine = true ∧ Steps s e s' := by
  obtain ⟨past, run⟩ := reachable
  have bounded := core_bounded (run_bounded run) trace
  cases pc : s.engine with
  | wait =>
      refine ⟨.engineWait, ?_⟩
      cases interrupted : s.ctrlC with
      | true => exact ⟨_, rfl, by simp [Steps, step, pc, interrupted]; rfl⟩
      | false =>
          have woken : s.portSignal = true := by simpa [interrupted] using signalled pc
          exact ⟨_, rfl, by simp [Steps, step, pc, interrupted, woken]; rfl⟩
  | getMsg =>
      refine ⟨.engineGetMsg, ?_⟩
      cases line : s.ports requestPort with
      | nil => exact ⟨_, rfl, by simp [Steps, step, pc, line]; rfl⟩
      | cons msg rest => exact ⟨_, rfl, by simp [Steps, step, pc, line]; rfl⟩
  | dispatch msg =>
      obtain ⟨after, reply, ran, -⟩ := dispatch_outcome bounded (s.mem msg).body
      exact ⟨.engineDispatch, _, rfl, by simp [Steps, step, pc, ran]; rfl⟩
  | replyMsg msg =>
      refine ⟨.engineReplyMsg, ?_⟩
      cases address : (s.mem msg).replyPort with
      | none => exact ⟨_, rfl, by simp [Steps, step, pc, address]; rfl⟩
      | some port => exact ⟨_, rfl, by simp [Steps, step, pc, address]; rfl⟩
  | test => exact ⟨.engineTest, _, rfl, by simp [Steps, step, pc]; rfl⟩
  | freePort => exact ⟨.engineFreePort, _, rfl, by simp [Steps, step, pc]; rfl⟩
  | stopped => exact absurd pc running

/-- Two tasks whose calls overlap; the second to begin puts first. -/
def twoCalls : List (Event Bool) :=
  [.begin true (.socket 2 1 0), .begin false (.ping 7 41), .ensureEnginePort true,
    .ensureEnginePort false, .ensureReplyPort true true, .ensureReplyPort false true,
    .putMsg false, .engineWait, .engineGetMsg, .putMsg true, .engineDispatch, .engineReplyMsg,
    .waitPort false, .engineGetMsg, .engineDispatch, .getMsg false, .engineReplyMsg,
    .unpack false, .waitPort true, .getMsg true, .engineGetMsg, .unpack true]

theorem two_calls_are_linear :
    ∃ history s, Trace Steps (boot initial : State Bool) history s ∧
      (logOf history).served.map Prod.fst = [false, true] ∧
      (logOf history).served.map (fun x => (x.2.u.ping.payload, x.2.u.socket.sock)) =
        [(42, 0), (0, 3)] ∧
      Linear (boot initial : State Bool).core (logOf history) s ∧
      Along Log.record ReturnsOwn {} history := by
  have done : (follow step [] (boot initial) twoCalls).isSome = true := by decide +kernel
  obtain ⟨⟨history, s⟩, followed⟩ := Option.isSome_iff_exists.mp done
  have trace : Trace Steps (boot initial : State Bool) history s := follow_trace .nil followed
  have linear := calls_are_linear initial history s trace
  have order : ((follow step [] (boot initial) twoCalls).map fun out =>
      ((logOf out.1).served.map Prod.fst,
        (logOf out.1).served.map fun x => (x.2.u.ping.payload, x.2.u.socket.sock))) =
      some ([false, true], [(42, 0), (0, 3)]) := by decide +kernel
  rw [followed, Option.map_some, Option.some.injEq, Prod.mk.injEq] at order
  exact ⟨history, s, trace, order.1, order.2, linear.1, linear.2.2⟩

end Netstack.Rpc
