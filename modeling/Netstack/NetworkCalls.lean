import Netstack.AtomicObject
import Netstack.Network
import Netstack.Refinement
import Netstack.RpcOrder

/-!
The clients of the engine use one atomic network of sockets. Their calls travel as
messages, wait in ports and are served by another task, and the network is kept in
arrays; yet what the wrappers of `socket_ipc.c` return, in every interleaving, is what a
network returns on which each call takes effect at one point of time between its PutMsg
and its return. The point is the dispatch of its request.
-/

namespace Netstack.NetworkCalls

open Client FdTable Ipc Network Rpc SocketNet Transition Window

variable {Task : Type}

/-! What a call asks of the network, and what its result says. -/

def ask : Client.Call → Option (SocketNet.Call Int UInt16 UInt8)
  | .ping _ _ => none
  | .socket _ _ _ => some .socket
  | .close sock => some (.close sock)
  | .bind sock port => some (.bind sock port)
  | .listen sock _ => some (.listen sock)
  | .connect sock port => some (.connect sock port)
  | .accept sock => some (.accept sock)
  | .send sock buf len => some (.send sock (some (window buf 0 len.toNat)))
  | .recv sock max => some (.receive sock max.toNat)

inductive Seen where
  | pong (payload : UInt32)
  | answered (response : Response Int UInt16 UInt8)
  deriving DecidableEq

def failure (value : Int) : Option Seen :=
  (failures.find? fun why => errno why = value).map fun why => .answered (.failed why)

/-- A caller looks at the return value first, and through its pointers if that allows it. -/
def said (call : Client.Call) (result : Result) : Option Seen :=
  match call with
  | .ping _ _ => if result.value = netstackOk then result.outPayload.map .pong else none
  | .socket _ _ _ =>
      if result.value = netstackOk then result.outSock.map fun sock => .answered (.opened sock)
      else failure result.value
  | .close _ | .bind _ _ | .listen _ _ | .connect _ _ =>
      if result.value = netstackOk then some (.answered .done) else failure result.value
  | .accept _ =>
      if result.value = netstackOk then
        result.outSock.bind fun sock => result.outPeerPort.map fun port =>
          .answered (.accepted sock port)
      else failure result.value
  | .send _ _ _ =>
      if 0 ≤ result.value then some (.answered (.sent result.value.toNat))
      else failure result.value
  | .recv _ _ =>
      if 0 ≤ result.value then some (.answered (.received result.bytes))
      else failure result.value

/-- The call on the network, as one step. -/
def perform (call : Client.Call) (net : Sockets) : Sockets × Option Seen :=
  match call, ask call with
  | .ping _ payload, _ => (net, some (.pong (payload + 1)))
  | _, some asked =>
      ((respond limits net asked).1, some (.answered (respond limits net asked).2))
  | _, none => (net, none)

/-- The wrapper cuts a receive to the payload, and so does the network. -/
theorem respond_receive (net : Sockets) (name : Int) (most : Nat) :
    respond limits net (.receive name (min most limits.message)) =
      respond limits net (.receive name most) := by
  simp only [respond, Nat.min_assoc, Nat.min_self]

/-- The request of a call asks what the call asks. -/
theorem request_asks {call : Client.Call} {asked : SocketNet.Call Int UInt16 UInt8}
    (passed : call.rejected = none) (asks : ask call = some asked) :
    ∃ c, Network.call call.request = some c ∧
      ∀ net, respond limits net c = respond limits net asked := by
  cases call with
  | ping seq payload => cases asks
  | send sock buf len =>
      cases asks
      have fits : ¬ (len < 0 ∨ netstackMaxPayload < len) := by
        intro bad
        simp [Call.rejected, bad] at passed
      obtain ⟨n, rfl⟩ := Int.eq_ofNat_of_zero_le (show 0 ≤ len by omega)
      refine ⟨_, rfl, ?_⟩
      intro net
      have lower : ¬ ((n : Int) < 0) := by omega
      simp only [message, Call.request, if_neg lower, sentBytes, Int.toNat_natCast,
        window_blit_copied]
  | recv sock max =>
      cases asks
      have fits : ¬ max < 0 := by
        intro bad
        simp [Call.rejected, bad] at passed
      refine ⟨_, rfl, ?_⟩
      intro net
      rw [← respond_receive net sock max.toNat]
      congr 2
      simp only [Call.request, limits, netstackMaxPayload]
      split_ifs <;> omega
  | _ =>
      cases asks
      exact ⟨_, rfl, fun _ => rfl⟩

theorem errno_negative (why : Failure) : errno why < 0 := by
  cases why <;> decide

theorem failed_told {r reply : NetstackReq} {spoken : Response Int UInt16 UInt8}
    (bad : reply.err ≠ netstackOk) (told : response r reply = some spoken) :
    reply.err < 0 ∧ failure reply.err = some (.answered spoken) := by
  rw [response, if_neg bad] at told
  obtain ⟨why, found, rfl⟩ := Option.map_eq_some_iff.mp told
  have same : errno why = reply.err := by simpa using List.find?_some found
  refine ⟨same ▸ errno_negative why, ?_⟩
  rw [failure, found]
  rfl

/-- The number of bytes a reply reports. -/
def counted (call : Client.Call) (reply : NetstackReq) : Int :=
  match call with
  | .send _ _ _ => reply.u.send.lenOut
  | .recv _ _ => reply.u.recv.lenOut
  | _ => 0

theorem counted_nonneg {t t' : Table} {call : Client.Call} {reply : NetstackReq}
    (bounded : Bounded t) (outcome : Outcome t call.request t' reply) (ok : reply.ok) :
    0 ≤ counted call reply := by
  cases call with
  | send sock buf len =>
      have sends := sendsTo_of_ok outcome rfl ok
      rcases sendsTo_outcome sends outcome with ⟨-, err, -⟩ | ⟨-, -, count, -⟩
      · rw [NetstackReq.ok, err] at ok
        exact absurd ok (by decide)
      · rw [counted, count]
        exact (acceptable_range (bounded.entries _) sends.lower).1
  | recv sock max =>
      rcases ok_recv_cases outcome rfl ok with ended | receives
      · exact ended.ge
      · rw [counted, (receivesFrom_outcome receives outcome).2.1]
        exact (readable_range (bounded.entries _) _).1
  | _ => exact Int.le_refl 0

theorem result_told {call : Client.Call} {reply : NetstackReq}
    {asked : SocketNet.Call Int UInt16 UInt8} {spoken : Response Int UInt16 UInt8}
    (asks : ask call = some asked) (told : response call.request reply = some spoken)
    (count : reply.ok → 0 ≤ counted call reply) :
    said call (call.unpack reply) = some (.answered spoken) := by
  by_cases ok : reply.err = netstackOk
  · have number := count ok
    rw [response, if_pos ok, Option.some.injEq] at told
    subst told
    cases call with
    | ping seq payload => cases asks
    | send sock buf len =>
        simp only [said, Call.unpack, ok, ne_eq, not_true, if_false]
        exact if_pos number
    | recv sock max =>
        simp only [said, Call.unpack, ok, ne_eq, not_true, if_false]
        exact if_pos number
    | _ =>
        simp only [said, Call.unpack, ok, if_true]
        rfl
  · obtain ⟨negative, failed⟩ := failed_told ok told
    have below : ¬ 0 ≤ reply.err := by omega
    cases call with
    | ping seq payload => cases asks
    | send sock buf len =>
        simpa only [said, Call.unpack, ne_eq, ok, not_false_eq_true, if_true, below, if_false]
          using failed
    | recv sock max =>
        simpa only [said, Call.unpack, ne_eq, ok, not_false_eq_true, if_true, below, if_false]
          using failed
    | _ => simpa only [said, Call.unpack, ok, if_false] using failed

/-- The dispatch of the request of a call performs the call. -/
theorem dispatch_performs {s s' : Engine} {call : Client.Call} {reply : NetstackReq}
    (bounded : Bounded s.table) (passed : call.rejected = none)
    (ran : dispatchRequest s call.request = .ok (s', reply)) :
    perform call (view s.table) = (view s'.table, said call (call.unpack reply)) := by
  cases asks : ask call with
  | none =>
      cases call with
      | ping seq payload =>
          cases ran
          rfl
      | _ => cases asks
  | some asked =>
      have served : Serves s ⟨call.request, reply⟩ s' := ran
      obtain ⟨c, known, same⟩ := request_asks passed asks
      obtain ⟨spoken, told, responds⟩ := serves_answers bounded served known
      have result := result_told asks told
        (counted_nonneg bounded (outcome_of_dispatch bounded ran))
      have performs : perform call (view s.table) = ((respond limits (view s.table) asked).1,
          some (.answered (respond limits (view s.table) asked).2)) := by
        cases call <;> simp_all [perform, ask]
      rw [performs, result, ← same, responds]

/-! What stands in a request that the engine has not dispatched. -/

def jobRequest : Job → NetstackReq
  | .call call => call.request
  | .stop => shutdownRequest

def job : ClientPc → Option Job
  | .ensureEnginePort call | .ensureReplyPort call _ | .unpack call => some (.call call)
  | .putMsg job _ _ | .waitPort job _ | .getMsg job _ => some job
  | .idle | .awaitStopped => none

def unsent : ClientPc → Bool
  | .ensureEnginePort _ | .ensureReplyPort _ _ | .putMsg _ _ _ => true
  | _ => false

structure Faithful (s : Rpc.State Task) : Prop where
  bodies : ∀ t work, job (s.client t) = some work →
    unsent (s.client t) = true ∨ t ∈ undispatched s → (s.mem t).body = jobRequest work
  passed : ∀ t call, job (s.client t) = some (.call call) → call.rejected = none

variable {s s' : Rpc.State Task}

/-- Nothing changes but for one task. -/
theorem Faithful.frame (faithful : Faithful s) (t : Task)
    (client : ∀ u, u ≠ t → s'.client u = s.client u)
    (mem : ∀ u, u ≠ t → (s'.mem u).body = (s.mem u).body)
    (line : ∀ u, u ≠ t → u ∈ undispatched s' → u ∈ undispatched s)
    (body : ∀ work, job (s'.client t) = some work →
      unsent (s'.client t) = true ∨ t ∈ undispatched s' → (s'.mem t).body = jobRequest work)
    (passed : ∀ call, job (s'.client t) = some (.call call) → call.rejected = none) :
    Faithful s' := by
  constructor
  · intro u work working early
    by_cases mine : u = t
    · subst mine
      exact body work working early
    · rw [client u mine] at working early
      rw [mem u mine]
      exact faithful.bodies u work working (early.imp id (line u mine))
  · intro u call working
    by_cases mine : u = t
    · subst mine
      exact passed call working
    · rw [client u mine] at working
      exact faithful.passed u call working

/-- A step of the engine that writes no request still to be dispatched. -/
theorem Faithful.engine (faithful : Faithful s) (client : s'.client = s.client)
    (mem : ∀ u, unsent (s.client u) = true ∨ u ∈ undispatched s' →
      (s'.mem u).body = (s.mem u).body)
    (line : ∀ u, u ∈ undispatched s' → u ∈ undispatched s) : Faithful s' := by
  constructor
  · intro u work working early
    rw [client] at working early
    rw [mem u early]
    exact faithful.bodies u work working (early.imp id (line u))
  · intro u call working
    rw [client] at working
    exact faithful.passed u call working

theorem boot_faithful (core : Engine) : Faithful (boot core : Rpc.State Task) := by
  constructor
  · intro t work working
    cases working
  · intro t call working
    cases working

/-! What the clients see. -/

def shown (move : Move (Rpc.State Task) (Rpc.Event Task)) :
    Option (AtomicObject.Label Task Client.Call (Option Seen)) :=
  match move.label with
  | .putMsg t =>
      match move.before.client t with
      | .putMsg (.call call) _ _ => some (.call t call)
      | _ => none
  | .engineDispatch =>
      match move.before.engine with
      | .dispatch msg => ((move.before.client msg).awaits).map fun call => .effect msg call
      | _ => none
  | .unpack t =>
      match move.before.client t with
      | .unpack call => some (.ret t call (said call (call.unpack (move.before.mem t).body)))
      | _ => none
  | _ => none

/-- What the clients do and see: a PutMsg for a call, and the result of its wrapper. -/
def event (move : Move (Rpc.State Task) (Rpc.Event Task)) :
    Option (AtomicObject.Event Task Client.Call (Option Seen)) :=
  match move.label with
  | .putMsg t =>
      match move.before.client t with
      | .putMsg (.call call) _ _ => some (.call t call)
      | _ => none
  | .unpack t =>
      match move.before.client t, returned move.before t with
      | .unpack call, some result => some (.ret t call (said call result))
      | _, _ => none
  | _ => none

theorem shown_event (move : Move (Rpc.State Task) (Rpc.Event Task)) :
    (shown move).bind AtomicObject.Label.event = event move := by
  obtain ⟨before, label, after⟩ := move
  cases label with
  | putMsg t =>
      simp only [shown, event]
      split <;> rfl
  | engineDispatch =>
      simp only [shown, event]
      split
      · cases (before.client _).awaits <;> rfl
      · rfl
  | unpack t =>
      cases pc : before.client t <;> simp [shown, event, returned, pc, AtomicObject.Label.event]
  | _ => rfl

/-! Steps. -/

variable [DecidableEq Task] {e : Rpc.Event Task}

/-- A task goes on and leaves the engine's line as it is. -/
theorem Faithful.client (faithful : Faithful s) {t : Task} {pc : ClientPc}
    (client : s'.client = Function.update s.client t pc)
    (mem : ∀ u, u ≠ t → s'.mem u = s.mem u) (line : undispatched s' = undispatched s)
    (body : ∀ work, job pc = some work → unsent pc = true ∨ t ∈ undispatched s →
      (s'.mem t).body = jobRequest work)
    (passed : ∀ call, job pc = some (.call call) → call.rejected = none) : Faithful s' := by
  have here : s'.client t = pc := by rw [client, Function.update_self]
  refine faithful.frame t ?_ ?_ ?_ ?_ ?_
  · intro u other
    rw [client, Function.update_of_ne other]
  · intro u other
    rw [mem u other]
  · intro u _ member
    rwa [line] at member
  · rw [here, line]
    exact body
  · rw [here]
    exact passed

theorem effect_faithful (owned : PortsOwned s) (places : Places s) (faithful : Faithful s)
    (effect : Effect s e s') : Faithful s' := by
  have line := line_kept owned places effect
  cases effect with
  | rejected | alreadyDown => exact faithful
  | @began t call pc passed =>
      refine faithful.client rfl (fun u other => Function.update_of_ne other ..)
        (line rfl) ?_ ?_
      · intro work working _
        cases working
        simp [State.goto, State.write, jobRequest]
      · intro other working
        cases working
        exact passed
  | @located t call port pc found =>
      refine faithful.client rfl (fun _ _ => rfl) (line rfl) ?_ ?_
      · intro work working _
        exact faithful.bodies t work (by rw [pc]; exact working) (.inl (by rw [pc]; rfl))
      · intro other working
        exact faithful.passed t other (by rw [pc]; exact working)
  | @equipped t granted call engine reply slots pc ran =>
      refine faithful.client rfl (fun u other => Function.update_of_ne other ..)
        (line rfl) ?_ ?_
      · intro work working _
        have before := faithful.bodies t work (by rw [pc]; exact working) (.inl (by rw [pc]; rfl))
        simpa [State.goto, State.write] using before
      · intro other working
        exact faithful.passed t other (by rw [pc]; exact working)
  | unreachable | unequipped | unpacked | stopSignalled | sawStopped | gotStop =>
      refine faithful.client rfl (fun _ _ => rfl) (line rfl) ?_ ?_
      · intro work working
        cases working
      · intro call working
        cases working
  | @stopAsked t pc up =>
      refine faithful.client rfl (fun u other => Function.update_of_ne other ..)
        (line rfl) ?_ ?_
      · intro work working _
        cases working
        simp [State.goto, State.write, jobRequest]
      · intro call working
        cases working
  | @woken t work port pc arrived | @got t work port pc =>
      refine faithful.client rfl (fun _ _ => rfl) (line rfl) ?_ ?_
      · intro other working early
        refine faithful.bodies t other (by rw [pc]; exact working) (.inr ?_)
        exact early.resolve_left Bool.false_ne_true
      · intro other working
        exact faithful.passed t other (by rw [pc]; exact working)
  | @put t work engine reply pc =>
      have aim : engine = requestPort := owned.aimed t engine (by rw [pc]; rfl)
      subst aim
      have grown : undispatched ((s.post requestPort t).goto t (.waitPort work reply)) =
          undispatched s ++ [t] := undispatched_post rfl rfl
      refine faithful.frame t (fun _ => goto_other) (fun _ _ => rfl) ?_ ?_ ?_
      · intro u other member
        rw [grown, List.mem_append, List.mem_singleton] at member
        exact member.resolve_right other
      · intro other working _
        rw [goto_self] at working
        exact faithful.bodies t other (by rw [pc]; exact working) (.inl (by rw [pc]; rfl))
      · intro other working
        rw [goto_self] at working
        exact faithful.passed t other (by rw [pc]; exact working)
  | @dispatched msg core reply pc ran =>
      have first : undispatched s = msg :: s.ports requestPort := by simp [undispatched, pc]
      refine faithful.engine rfl ?_ ?_
      · intro u early
        have other : u ≠ msg := by
          rintro rfl
          rcases early with early | member
          · obtain ⟨work, port, waits⟩ := waits_of_line places (by rw [first]; exact List.mem_cons_self)
            rw [waits] at early
            cases early
          · have distinct := (List.nodup_append.mp places.distinct).2.1
            rw [first] at distinct
            exact (List.nodup_cons.mp distinct).1 member
        simp [State.write, other]
      · intro u member
        rw [first]
        exact List.mem_cons_of_mem _ member
  | broken | left | roused | drained | taken | tested | freed | replied | unaddressed =>
      refine faithful.engine rfl (fun _ _ => rfl) ?_
      intro u member
      rwa [line rfl] at member

/-! The machine as the atomic network. -/

def phase (s : Rpc.State Task) (t : Task) : AtomicObject.Phase Client.Call (Option Seen) :=
  match (s.client t).awaits with
  | none => .idle
  | some call =>
      if t ∈ undispatched s then .pending call
      else .done call (said call (call.unpack (s.mem t).body))

def network (s : Rpc.State Task) : AtomicObject.State Task Client.Call Sockets (Option Seen) :=
  ⟨view s.core.table, phase s⟩

structure Held (s : Rpc.State Task) : Prop where
  owned : PortsOwned s
  places : Places s
  faithful : Faithful s
  bounded : Bounded s.core.table

theorem held_step (held : Held s) (effect : Effect s e s') : Held s' := by
  refine ⟨effect_owned held.owned effect, effect_places held.owned held.places effect,
    effect_faithful held.owned held.places held.faithful effect, ?_⟩
  cases effect with
  | dispatched pc ran =>
      exact outcome_bounded held.bounded (outcome_of_dispatch held.bounded ran)
  | _ => exact held.bounded

theorem phase_congr {t : Task} (awaits : (s'.client t).awaits = (s.client t).awaits)
    (line : (s.client t).awaits ≠ none → (t ∈ undispatched s' ↔ t ∈ undispatched s))
    (body : (s.client t).awaits ≠ none → (s'.mem t).body = (s.mem t).body) :
    phase s' t = phase s t := by
  rw [phase, phase, awaits]
  cases known : (s.client t).awaits with
  | none => rfl
  | some call =>
      have some_ : (s.client t).awaits ≠ none := by
        rw [known]
        exact Option.some_ne_none call
      simp only [line some_, body some_]

/-- A step that no client sees. -/
theorem network_congr (table : s'.core.table = s.core.table)
    (awaits : ∀ t, (s'.client t).awaits = (s.client t).awaits)
    (line : ∀ t, (s.client t).awaits ≠ none → (t ∈ undispatched s' ↔ t ∈ undispatched s))
    (body : ∀ t, (s.client t).awaits ≠ none → (s'.mem t).body = (s.mem t).body) :
    network s' = network s := by
  rw [network, network, table]
  congr 1
  funext t
  exact phase_congr (awaits t) (line t) (body t)

theorem network_goto {t : Task} {p : AtomicObject.Phase Client.Call (Option Seen)}
    (mine : phase s' t = p) (others : ∀ u, u ≠ t → phase s' u = phase s u) :
    network s' =
      ({ network s with word := view s'.core.table } : AtomicObject.State ..).goto t p := by
  rw [network, network, AtomicObject.State.goto]
  congr 1
  funext u
  by_cases same : u = t
  · subst same
    rw [Function.update_self, mine]
  · rw [Function.update_of_ne same, others u same]

theorem goto_awaits {t : Task} {pc : ClientPc} (same : pc.awaits = (s.client t).awaits)
    (client : s'.client = Function.update s.client t pc) (u : Task) :
    (s'.client u).awaits = (s.client u).awaits := by
  rw [client]
  by_cases mine : u = t
  · subst mine
    rw [Function.update_self, same]
  · rw [Function.update_of_ne mine]

theorem write_body {t : Task} {record : Record} (idle : (s.client t).awaits = none) (u : Task)
    (waits : (s.client u).awaits ≠ none) :
    (Function.update s.mem t record u).body = (s.mem u).body := by
  have other : u ≠ t := by
    rintro rfl
    exact waits idle
  rw [Function.update_of_ne other]

theorem put_simulates (held : Held s) {t : Task} {work : Job} {engine reply : Nat}
    (pc : s.client t = .putMsg work engine reply) :
    Refinement.Matches (AtomicObject.Step perform) network shown
      ⟨s, .putMsg t, (s.post engine t).goto t (.waitPort work reply)⟩ := by
  have aim : engine = requestPort := held.owned.aimed t engine (by rw [pc]; rfl)
  subst aim
  have grown : undispatched ((s.post requestPort t).goto t (.waitPort work reply)) =
      undispatched s ++ [t] := undispatched_post rfl rfl
  have others : ∀ u, u ≠ t →
      (u ∈ undispatched ((s.post requestPort t).goto t (.waitPort work reply)) ↔
        u ∈ undispatched s) := by
    intro u other
    rw [grown, List.mem_append, List.mem_singleton, or_iff_left other]
  cases work with
  | stop =>
      simp only [Refinement.Matches, shown, pc]
      refine network_congr rfl (goto_awaits (by rw [pc]; rfl) rfl) ?_ (fun _ _ => rfl)
      intro u waits
      apply others
      rintro rfl
      rw [pc] at waits
      exact waits rfl
  | call call =>
      simp only [Refinement.Matches, shown, pc]
      have mine : phase ((s.post requestPort t).goto t (.waitPort (.call call) reply)) t =
          .pending call := by
        simp [phase, ClientPc.awaits, grown]
      have rest : ∀ u, u ≠ t →
          phase ((s.post requestPort t).goto t (.waitPort (.call call) reply)) u = phase s u := by
        intro u other
        refine phase_congr ?_ (fun _ => others u other) (fun _ => rfl)
        rw [goto_other other]
        rfl
      rw [network_goto mine rest]
      refine .call ?_
      simp [network, phase, pc, ClientPc.awaits]

theorem unpack_simulates (held : Held s) {t : Task} {call : Client.Call}
    (pc : s.client t = .unpack call) :
    Refinement.Matches (AtomicObject.Step perform) network shown
      ⟨s, .unpack t, s.goto t .idle⟩ := by
  simp only [Refinement.Matches, shown, pc]
  have served : t ∉ undispatched s := by
    intro member
    obtain ⟨work, port, waits⟩ := waits_of_line held.places member
    rw [pc] at waits
    cases waits
  have mine : phase (s.goto t .idle) t = .idle := by
    simp [phase, ClientPc.awaits]
  have rest : ∀ u, u ≠ t → phase (s.goto t .idle) u = phase s u := by
    intro u other
    refine phase_congr ?_ (fun _ => Iff.rfl) (fun _ => rfl)
    rw [goto_other other]
  rw [network_goto mine rest]
  refine .ret ?_
  simp [network, phase, pc, ClientPc.awaits, served]

/-- The engine's dispatch of a request is where its call takes effect. -/
theorem dispatch_simulates (held : Held s) {msg : Task} {core : Engine} {reply : NetstackReq}
    (pc : s.engine = .dispatch msg)
    (ran : dispatchRequest s.core (s.mem msg).body = .ok (core, reply)) :
    Refinement.Matches (AtomicObject.Step perform) network shown
      ⟨s, .engineDispatch, { s.write msg { s.mem msg with body := reply } with
        core := core, engine := .replyMsg msg }⟩ := by
  have first : undispatched s = msg :: s.ports requestPort := by simp [undispatched, pc]
  have distinct := (List.nodup_append.mp held.places.distinct).2.1
  rw [first] at distinct
  have gone := (List.nodup_cons.mp distinct).1
  obtain ⟨work, port, waits⟩ := waits_of_line held.places (by rw [first]; exact List.mem_cons_self)
  have body : (s.mem msg).body = jobRequest work := by
    refine held.faithful.bodies msg work (by rw [waits]; rfl) (.inr ?_)
    rw [first]
    exact List.mem_cons_self
  rw [body] at ran
  have others : ∀ u, u ≠ msg → (u ∈ s.ports requestPort ↔ u ∈ undispatched s) := by
    intro u other
    rw [first, List.mem_cons, or_iff_right other]
  cases work with
  | stop =>
      have asleep : (s.client msg).awaits = none := by rw [waits]; rfl
      have served : Serves s.core ⟨shutdownRequest, reply⟩ core := ran
      simp only [Refinement.Matches, shown, pc, asleep, Option.map_none]
      refine network_congr (serves_silent served rfl) (fun _ => rfl) ?_ ?_
      · intro u waiting
        refine others u ?_
        rintro rfl
        exact waiting asleep
      · exact write_body asleep
  | call call =>
      have awaits : (s.client msg).awaits = some call := by rw [waits]; rfl
      have passed := held.faithful.passed msg call (by rw [waits]; rfl)
      have performs := dispatch_performs held.bounded passed ran
      simp only [Refinement.Matches, shown, pc, awaits, Option.map_some]
      have here : (network s).phase msg = .pending call := by
        simp [network, phase, awaits, first]
      let next : Rpc.State Task := { s.write msg { s.mem msg with body := reply } with
        core := core, engine := .replyMsg msg }
      have mine : phase next msg = .done call (said call (call.unpack reply)) := by
        simp [next, phase, awaits, undispatched, gone, State.write]
      have rest : ∀ u, u ≠ msg → phase next u = phase s u := by
        intro u other
        refine phase_congr rfl (fun _ => others u other) ?_
        intro _
        simp [next, State.write, other]
      have effect : AtomicObject.Step perform (network s) (.effect msg call) _ := .effect here
      rw [show (network s).word = view s.core.table from rfl, performs] at effect
      rw [network_goto mine rest]
      exact effect

/-- What every step is for the atomic network. -/
theorem simulates (held : Held s) (stepped : Steps s e s') :
    Refinement.Matches (AtomicObject.Step perform) network shown ⟨s, e, s'⟩ := by
  have effect := effect_of_step stepped
  have line := line_kept held.owned held.places effect
  cases effect with
  | rejected | alreadyDown => rfl
  | began pc | stopAsked pc | equipped pc =>
      exact network_congr rfl (goto_awaits (by rw [pc]; rfl) rfl)
        (fun _ _ => by rw [line rfl]) (write_body (by rw [pc]; rfl))
  | @woken t work reply pc =>
      have same : (ClientPc.getMsg work reply).awaits = (s.client t).awaits := by
        rw [pc]
        cases work <;> rfl
      exact network_congr rfl (goto_awaits same rfl) (fun _ _ => by rw [line rfl])
        (fun _ _ => rfl)
  | located pc | unreachable pc | unequipped pc | stopSignalled pc | sawStopped pc | got pc
  | gotStop pc =>
      exact network_congr rfl (goto_awaits (by rw [pc]; rfl) rfl)
        (fun _ _ => by rw [line rfl]) (fun _ _ => rfl)
  | broken | left | roused | drained | taken | tested | freed | replied | unaddressed =>
      exact network_congr rfl (fun _ => rfl) (fun _ _ => by rw [line rfl])
        (fun _ _ => rfl)
  | put pc => exact put_simulates held pc
  | unpacked pc => exact unpack_simulates held pc
  | dispatched pc ran => exact dispatch_simulates held pc ran

theorem phase_idle_iff (s : Rpc.State Task) (t : Task) :
    phase s t = .idle ↔ (s.client t).awaits = none := by
  rw [phase]
  cases (s.client t).awaits with
  | none => simp
  | some call =>
      dsimp only
      split <;> simp

/-- The calls of the clients are linearizable on an atomic network of sockets, whatever
the engine served before: there is a history of the network with the same calls and the
same results in the same order, in which each call takes effect once, between its call
and its result; it ends as the network the fd table stands for, with the same calls still
open. -/
theorem clients_linearizable (core : Engine) (reachable : Reachable core)
    (history : List (Move (Rpc.State Task) (Rpc.Event Task))) (s : Rpc.State Task)
    (trace : Trace Steps (boot core) history s) :
    ∃ (past : AtomicObject.History Task Client.Call Sockets (Option Seen))
      (now : AtomicObject.State Task Client.Call Sockets (Option Seen)),
      Trace (AtomicObject.Step perform) (AtomicObject.boot (view core.table)) past now ∧
      AtomicObject.events past = history.filterMap event ∧
      now.word = view s.core.table ∧
      ∀ t, now.phase t = .idle ↔ (s.client t).awaits = none := by
  obtain ⟨earlier, run⟩ := reachable
  have bounded : Bounded core.table := run_bounded run
  have booted : Held (boot core : Rpc.State Task) :=
    ⟨portsOwned_boot core, places_boot core, boot_faithful core, bounded⟩
  have refined := Refinement.image_trace Held booted
    (fun _ _ _ held taken => held_step held (effect_of_step taken))
    (fun _ _ _ held taken => simulates held taken) trace
  have started : network (boot core : Rpc.State Task) = AtomicObject.boot (view core.table) := rfl
  rw [started] at refined
  refine ⟨_, _, refined, ?_, rfl, phase_idle_iff s⟩
  apply Refinement.image_labels
  intro move _
  exact shown_event move

/-- The results among what the clients see. -/
def results (events : List (AtomicObject.Event Task Client.Call (Option Seen))) :
    List (Task × Option Seen) :=
  events.filterMap fun seen =>
    match seen with
    | .ret t _ value => some (t, value)
    | .call _ _ => none

theorem two_clients_linearizable :
    ∃ (past : AtomicObject.History Bool Client.Call Sockets (Option Seen))
      (now : AtomicObject.State Bool Client.Call Sockets (Option Seen)),
      Trace (AtomicObject.Step perform) (AtomicObject.boot (view initial.table)) past now ∧
      results (AtomicObject.events past) =
        [(false, some (.pong 42)), (true, some (.answered (.opened 3)))] := by
  have done : ((follow step [] (boot initial) twoCalls).map fun out =>
      decide (results (out.1.filterMap event) =
        [(false, some (.pong 42)), (true, some (.answered (.opened 3)))])) = some true := by
    decide +kernel
  obtain ⟨⟨history, s⟩, followed, checks⟩ := Option.map_eq_some_iff.mp done
  have trace : Trace Steps (boot initial : Rpc.State Bool) history s := follow_trace .nil followed
  obtain ⟨past, now, refined, same, -⟩ := clients_linearizable initial ⟨[], .nil⟩ history s trace
  exact ⟨past, now, refined, by rw [same]; exact of_decide_eq_true checks⟩

end Netstack.NetworkCalls
