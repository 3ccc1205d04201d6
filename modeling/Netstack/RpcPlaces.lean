import Netstack.Rpc

/-!
Where the messages are. Every reply port belongs to one task, and the message of
a task in a call is in one place: in the line of the request port, in the hands
of the engine, or on the reply port its sender waits at. So what a client takes
off its reply port without looking at it is its own request.
-/

namespace Netstack.Rpc

open Ipc Client FdTable ReplyPorts

variable {Task : Type}

def ClientPc.engine : ClientPc → Option Nat
  | .ensureReplyPort _ engine | .putMsg _ engine _ => some engine
  | _ => none

def ClientPc.reply : ClientPc → Option Nat
  | .putMsg _ _ reply | .waitPort _ reply | .getMsg _ reply => some reply
  | _ => none

/-- The port that `NetstackEngine_Stop` allocates for itself. -/
def ClientPc.stopPort : ClientPc → Option Nat
  | .putMsg .stop _ reply | .waitPort .stop reply | .getMsg .stop reply => some reply
  | _ => none

def ClientPc.waiting : ClientPc → Bool
  | .waitPort _ _ | .getMsg _ _ => true
  | _ => false

def Owns (s : State Task) (t : Task) (port : Nat) : Prop :=
  Serves s.slots t port ∨ (s.client t).stopPort = some port

structure PortsOwned (s : State Task) : Prop where
  cached : s.cachedPort = some requestPort
  positive : 0 < s.nextPort
  slots : SlotsSound s.slots s.nextPort
  aimed : ∀ t engine, (s.client t).engine = some engine → engine = requestPort
  owned : ∀ t port, (s.client t).reply = some port → Owns s t port
  range : ∀ t port, Owns s t port → 0 < port ∧ port < s.nextPort
  exclusive : ∀ t other port, Owns s t port → Owns s other port → t = other

/-- The messages the engine has not dispatched, first in line first. -/
def undispatched (s : State Task) : List Task :=
  match s.engine with
  | .dispatch msg => msg :: s.ports requestPort
  | _ => s.ports requestPort

def replying (s : State Task) : List Task :=
  match s.engine with
  | .replyMsg msg => [msg]
  | _ => []

def onEngine (s : State Task) : List Task := replying s ++ undispatched s

structure Places (s : State Task) : Prop where
  distinct : (onEngine s).Nodup
  held : ∀ t ∈ onEngine s, ∃ job port, s.client t = .waitPort job port ∧ s.ports port = []
  addressed : ∀ t port, (s.client t).reply = some port → (s.mem t).replyPort = some port
  quiet : ∀ t job engine port, s.client t = .putMsg job engine port → s.ports port = []
  delivered : ∀ t port, port ≠ requestPort → t ∈ s.ports port → s.ports port = [t] ∧
    (s.client t).waiting = true ∧ (s.client t).reply = some port
  waits : ∀ t job port, s.client t = .waitPort job port → t ∈ onEngine s ∨ t ∈ s.ports port
  gets : ∀ t job port, s.client t = .getMsg job port → t ∈ s.ports port

theorem portsOwned_boot (core : Engine) : PortsOwned (boot core : State Task) := by
  have none : ∀ t port, ¬ Owns (boot core : State Task) t port := by
    rintro t port (⟨i, _, slot⟩ | stop)
    · cases slot
    · cases stop
  refine ⟨rfl, Nat.one_pos, slotsSound_empty 1, ?_, ?_, ?_, ?_⟩
  · intro t engine known
    cases known
  · intro t port known
    cases known
  · intro t port owns
    exact absurd owns (none t port)
  · intro t other port owns
    exact absurd owns (none t port)

theorem places_boot (core : Engine) : Places (boot core : State Task) := by
  constructor <;> simp [boot, onEngine, replying, undispatched, ClientPc.reply]

theorem portsOwned_congr {s s' : State Task} (owned : PortsOwned s) (client : s'.client = s.client)
    (slots : s'.slots = s.slots) (next : s'.nextPort = s.nextPort)
    (cached : s'.cachedPort = s.cachedPort) : PortsOwned s' := by
  have owns : ∀ t port, Owns s' t port ↔ Owns s t port := by
    intro t port
    rw [Owns, Owns, client, slots]
  constructor
  · rw [cached]
    exact owned.cached
  · rw [next]
    exact owned.positive
  · rw [slots, next]
    exact owned.slots
  · rw [client]
    exact owned.aimed
  · intro t port known
    rw [client] at known
    exact (owns t port).mpr (owned.owned t port known)
  · intro t port known
    rw [next]
    exact owned.range t port ((owns t port).mp known)
  · intro t other port left right
    exact owned.exclusive t other port ((owns t port).mp left) ((owns other port).mp right)

theorem reply_ne_request {s : State Task} (owned : PortsOwned s) {t : Task} {port : Nat}
    (known : (s.client t).reply = some port) : port ≠ requestPort := by
  have range := owned.range t port (owned.owned t port known)
  simp only [requestPort]
  omega

/-- A client that takes its reply leaves the requests alone. -/
theorem take_requests [DecidableEq Task] {s : State Task} {t : Task} {port : Nat}
    (owned : PortsOwned s) (known : (s.client t).reply = some port) :
    (s.take port).ports requestPort = s.ports requestPort :=
  MsgPort.take_other (Ne.symm (reply_ne_request owned known))

theorem reply_unique {s : State Task} (owned : PortsOwned s) {t other : Task} {port : Nat}
    (mine : (s.client t).reply = some port) (theirs : (s.client other).reply = some port) :
    t = other :=
  owned.exclusive t other port (owned.owned t port mine) (owned.owned other port theirs)

theorem held_waiting {s : State Task} (places : Places s) {t : Task} (member : t ∈ onEngine s) :
    (s.client t).waiting = true := by
  obtain ⟨job, port, pc, -⟩ := places.held t member
  rw [pc]
  rfl

/-- A task that the engine has still to serve waits for it. -/
theorem waits_of_line {s : State Task} (places : Places s) {t : Task}
    (member : t ∈ undispatched s) :
    ∃ work port, s.client t = .waitPort work port := by
  obtain ⟨work, port, waits, -⟩ := places.held t (List.mem_append_right _ member)
  exact ⟨work, port, waits⟩

/-- A task that does not wait has no message anywhere. -/
theorem nowhere_of_idle {s : State Task} (places : Places s) {t : Task}
    (idle : (s.client t).waiting = false) :
    t ∉ onEngine s ∧ ∀ port, port ≠ requestPort → t ∉ s.ports port := by
  constructor
  · intro member
    rw [held_waiting places member] at idle
    contradiction
  · intro port apart member
    rw [(places.delivered t port apart member).2.1] at idle
    contradiction

/-- A port whose only possible user has no message there is empty. -/
theorem empty_of_owner {s : State Task} (places : Places s) {t : Task} {port : Nat}
    (apart : port ≠ requestPort) (absent : t ∉ s.ports port)
    (only : ∀ other, (s.client other).reply = some port → other = t) : s.ports port = [] := by
  cases line : s.ports port with
  | nil => rfl
  | cons head rest =>
      have member : head ∈ s.ports port := by rw [line]; exact List.mem_cons_self
      have same := only head (places.delivered head port apart member).2.2
      exact absurd (same ▸ member) absent

theorem onEngine_congr {s s' : State Task} (ports : s'.ports = s.ports)
    (engine : s'.engine = s.engine) : onEngine s' = onEngine s := by
  simp only [onEngine, replying, undispatched, ports, engine]

/-! One task at a time: a step touches the messages and ports of few tasks. -/

/-- What `Places` says of one task. -/
structure Placed (s : State Task) (t : Task) : Prop where
  held : t ∈ onEngine s → ∃ job port, s.client t = .waitPort job port ∧ s.ports port = []
  addressed : ∀ port, (s.client t).reply = some port → (s.mem t).replyPort = some port
  quiet : ∀ job engine port, s.client t = .putMsg job engine port → s.ports port = []
  delivered : ∀ port, port ≠ requestPort → t ∈ s.ports port → s.ports port = [t] ∧
    (s.client t).waiting = true ∧ (s.client t).reply = some port
  waits : ∀ job port, s.client t = .waitPort job port → t ∈ onEngine s ∨ t ∈ s.ports port
  gets : ∀ job port, s.client t = .getMsg job port → t ∈ s.ports port

theorem Places.placed {s : State Task} (places : Places s) (t : Task) : Placed s t :=
  ⟨places.held t, places.addressed t, places.quiet t, places.delivered t, places.waits t,
    places.gets t⟩

theorem places_of_placed {s : State Task} (distinct : (onEngine s).Nodup)
    (placed : ∀ t, Placed s t) : Places s :=
  ⟨distinct, fun t => (placed t).held, fun t => (placed t).addressed, fun t => (placed t).quiet,
    fun t => (placed t).delivered, fun t => (placed t).waits, fun t => (placed t).gets⟩

/-- From `s` to `s'` nothing changes about `t`, its message or its port. -/
structure Untouched (s s' : State Task) (t : Task) : Prop where
  client : s'.client t = s.client t
  address : (s'.mem t).replyPort = (s.mem t).replyPort
  line : t ∈ onEngine s' ↔ t ∈ onEngine s
  reply : ∀ port, (s.client t).reply = some port → s'.ports port = s.ports port
  arrived : ∀ port, port ≠ requestPort → t ∈ s'.ports port → s'.ports port = s.ports port

theorem Placed.frame {s s' : State Task} {t : Task} (placed : Placed s t)
    (same : Untouched s s' t) : Placed s' t := by
  constructor
  · intro member
    obtain ⟨job, port, pc, empty⟩ := placed.held (same.line.mp member)
    refine ⟨job, port, same.client.trans pc, ?_⟩
    rw [same.reply port (by rw [pc]; rfl)]
    exact empty
  · intro port known
    rw [same.client] at known
    rw [same.address]
    exact placed.addressed port known
  · intro job engine port known
    rw [same.client] at known
    rw [same.reply port (by rw [known]; rfl)]
    exact placed.quiet job engine port known
  · intro port apart member
    have kept := same.arrived port apart member
    rw [kept] at member ⊢
    rw [same.client]
    exact placed.delivered port apart member
  · intro job port known
    rw [same.client] at known
    rw [same.line, same.reply port (by rw [known]; rfl)]
    exact placed.waits job port known
  · intro job port known
    rw [same.client] at known
    rw [same.reply port (by rw [known]; rfl)]
    exact placed.gets job port known

/-- A step that touches one task only. -/
theorem places_move {s s' : State Task} (places : Places s) (t : Task)
    (distinct : (onEngine s').Nodup) (mine : Placed s' t)
    (others : ∀ other, other ≠ t → Untouched s s' other) : Places s' := by
  refine places_of_placed distinct ?_
  intro other
  by_cases here : other = t
  · rw [here]
    exact mine
  · exact (places.placed other).frame (others other here)

/-- A task that waits for no reply, with its reply port empty where it has one. -/
theorem placed_idle {s : State Task} {t : Task} (idle : (s.client t).waiting = false)
    (absent : t ∉ onEngine s) (nowhere : ∀ port, port ≠ requestPort → t ∉ s.ports port)
    (addressed : ∀ port, (s.client t).reply = some port →
      (s.mem t).replyPort = some port ∧ s.ports port = []) : Placed s t := by
  constructor
  · exact fun member => absurd member absent
  · exact fun port known => (addressed port known).1
  · intro job engine port known
    exact (addressed port (by rw [known]; rfl)).2
  · exact fun port apart member => absurd member (nowhere port apart)
  · intro job port known
    rw [known] at idle
    contradiction
  · intro job port known
    rw [known] at idle
    contradiction

/-- A step of the engine that moves no message off it. -/
theorem places_engine {s s' : State Task} (owned : PortsOwned s) (places : Places s)
    (client : s'.client = s.client) (line : onEngine s' = onEngine s)
    (ports : ∀ port, port ≠ requestPort → s'.ports port = s.ports port)
    (mem : ∀ t, (s'.mem t).replyPort = (s.mem t).replyPort) : Places s' := by
  refine places_of_placed (by rw [line]; exact places.distinct) ?_
  intro t
  refine (places.placed t).frame ⟨by rw [client], mem t, by rw [line], ?_, ?_⟩
  · exact fun port known => ports port (reply_ne_request owned known)
  · exact fun port apart _ => ports port apart

theorem undispatched_post {s s' : State Task} {t : Task}
    (ports : s'.ports = MsgPort.post s.ports requestPort t) (same : s'.engine = s.engine) :
    undispatched s' = undispatched s ++ [t] := by
  cases pc : s.engine <;> simp [undispatched, ports, same, pc]

/-- What arrives at the port of a task is the task's own message. -/
theorem arrived_own {s : State Task} (owned : PortsOwned s) (places : Places s) {t : Task}
    {port : Nat} (reply : (s.client t).reply = some port) (arrived : s.ports port ≠ []) :
    s.ports port = [t] := by
  have apart := reply_ne_request owned reply
  obtain ⟨head, member⟩ := List.exists_mem_of_ne_nil _ arrived
  have found := places.delivered head port apart member
  rw [reply_unique owned reply found.2.2]
  exact found.1

/-- The engine replies to the port the sender waits at, which is empty. -/
theorem places_replied {s s' : State Task} (owned : PortsOwned s) (places : Places s) {msg : Task}
    {port : Nat} (pc : s.engine = .replyMsg msg) (address : (s.mem msg).replyPort = some port)
    (client : s'.client = s.client) (mem : s'.mem = s.mem)
    (ports : s'.ports = MsgPort.post s.ports port msg) (engine : s'.engine = .getMsg) :
    Places s' := by
  have line : onEngine s = msg :: s.ports requestPort := by
    simp [onEngine, replying, undispatched, pc]
  obtain ⟨job, reply, waits, empty⟩ := places.held msg (by rw [line]; exact List.mem_cons_self)
  have reply_ : (s.client msg).reply = some reply := by rw [waits]; rfl
  have same : port = reply := by
    rw [places.addressed msg reply reply_] at address
    exact (Option.some.inj address).symm
  subst same
  have apart := reply_ne_request owned reply_
  have mine : s'.ports port = [msg] := by
    rw [ports, MsgPort.post_self, empty]
    rfl
  have others : ∀ {at_}, at_ ≠ port → s'.ports at_ = s.ports at_ := by
    intro at_ notHere
    rw [ports, MsgPort.post_other notHere]
  have rest : onEngine s' = s.ports requestPort := by
    simp [onEngine, replying, undispatched, engine, others (Ne.symm apart)]
  have elsewhere : ∀ {other at_}, other ≠ msg → (s.client other).reply = some at_ →
      s'.ports at_ = s.ports at_ := by
    intro other at_ notMsg known
    apply others
    rintro rfl
    exact notMsg (reply_unique owned known reply_)
  have distinct := places.distinct
  rw [line, List.nodup_cons] at distinct
  refine places_move places msg (by rw [rest]; exact distinct.2) ⟨?_, ?_, ?_, ?_, ?_, ?_⟩ ?_
  · intro member
    rw [rest] at member
    exact absurd member distinct.1
  · rw [client, mem]
    exact places.addressed msg
  · intro job' engine' at_ known
    rw [client, waits] at known
    cases known
  · intro at_ notRequest member
    rw [client]
    by_cases here : at_ = port
    · rw [here]
      exact ⟨mine, by rw [waits]; rfl, reply_⟩
    · rw [others here] at member ⊢
      exact places.delivered msg at_ notRequest member
  · intro job' at_ known
    rw [client, waits] at known
    cases known
    rw [mine]
    exact Or.inr (List.mem_singleton_self msg)
  · intro job' at_ known
    rw [client, waits] at known
    cases known
  · intro other notMsg
    refine ⟨by rw [client], by rw [mem], ?_, fun at_ known => elsewhere notMsg known, ?_⟩
    · rw [rest, line, List.mem_cons]
      simp [notMsg]
    · intro at_ notRequest member
      apply others
      rintro rfl
      rw [mine] at member
      exact notMsg (List.mem_singleton.mp member)

variable [DecidableEq Task]

@[simp] theorem goto_self (s : State Task) (t : Task) (pc : ClientPc) :
    (s.goto t pc).client t = pc :=
  Function.update_self ..

theorem goto_other {s : State Task} {t other : Task} {pc : ClientPc} (apart : other ≠ t) :
    (s.goto t pc).client other = s.client other :=
  Function.update_of_ne apart ..

/-- A task moves on without getting a new port of its own. -/
theorem portsOwned_goto {s : State Task} (owned : PortsOwned s) {t : Task} {pc : ClientPc}
    (aimed : ∀ engine, pc.engine = some engine → engine = requestPort)
    (reply : ∀ port, pc.reply = some port → Serves s.slots t port ∨ pc.stopPort = some port)
    (stop : ∀ port, pc.stopPort = some port → (s.client t).stopPort = some port) :
    PortsOwned (s.goto t pc) := by
  have owns : ∀ other port, Owns (s.goto t pc) other port → Owns s other port := by
    rintro other port (slot | private_)
    · exact Or.inl slot
    · by_cases here : other = t
      · subst here
        rw [goto_self] at private_
        exact Or.inr (stop port private_)
      · rw [goto_other here] at private_
        exact Or.inr private_
  refine ⟨owned.cached, owned.positive, owned.slots, ?_, ?_, ?_, ?_⟩
  · intro other engine known
    by_cases here : other = t
    · subst here
      rw [goto_self] at known
      exact aimed engine known
    · rw [goto_other here] at known
      exact owned.aimed other engine known
  · intro other port known
    by_cases here : other = t
    · subst here
      rw [goto_self] at known
      exact (reply port known).imp id fun private_ => by rw [goto_self]; exact private_
    · rw [goto_other here] at known
      exact (owned.owned other port known).imp id fun private_ => by
        rw [goto_other here]; exact private_
  · intro other port known
    exact owned.range other port (owns other port known)
  · intro left right port one two
    exact owned.exclusive left right port (owns left port one) (owns right port two)

/-- A task that goes where it needs no port. -/
theorem portsOwned_leave {s : State Task} (owned : PortsOwned s) {t : Task} {pc : ClientPc}
    (engine : pc.engine = none) (reply : pc.reply = none) (stop : pc.stopPort = none) :
    PortsOwned (s.goto t pc) := by
  refine portsOwned_goto owned ?_ ?_ ?_
  · simp [engine]
  · simp [reply]
  · simp [stop]

/-- A task that keeps the reply port it holds. -/
theorem portsOwned_keep {s : State Task} (owned : PortsOwned s) {t : Task} {pc : ClientPc}
    (engine : pc.engine = none) (reply : pc.reply = (s.client t).reply)
    (stop : pc.stopPort = (s.client t).stopPort) : PortsOwned (s.goto t pc) := by
  refine portsOwned_goto owned (by simp [engine]) ?_ ?_
  · intro port known
    rw [reply] at known
    rw [stop]
    exact owned.owned t port known
  · intro port known
    rw [← stop]
    exact known

theorem portsOwned_slots {s : State Task} (owned : PortsOwned s) {t : Task} {granted : Bool}
    {slots : Nat → ReplySlot Task} {port : Option Nat}
    (ran : ensureReplyPort s.slots t (if granted then some s.nextPort else none) = (slots, port)) :
    PortsOwned { s with slots := slots, nextPort := s.nextPort + 1 } ∧
      ∀ reply, port = some reply → Serves slots t reply := by
  obtain ⟨sound, old, kept, mine⟩ := ensureReplyPort_cases owned.slots owned.positive ran
  have owns : ∀ other p, Owns { s with slots := slots, nextPort := s.nextPort + 1 } other p →
      Owns s other p ∨ (other = t ∧ p = s.nextPort) := by
    rintro other p (slot | private_)
    · exact (old other p slot).imp Or.inl id
    · exact Or.inl (Or.inr private_)
  refine ⟨⟨owned.cached, Nat.succ_pos _, sound, owned.aimed, ?_, ?_, ?_⟩, mine⟩
  · intro other p known
    exact (owned.owned other p known).imp (kept other p) id
  · intro other p known
    show 0 < p ∧ p < s.nextPort + 1
    have positive := owned.positive
    rcases owns other p known with before | ⟨-, rfl⟩
    · have range := owned.range other p before
      omega
    · omega
  · intro left right p one two
    rcases owns left p one with before | ⟨same, fresh⟩
    · rcases owns right p two with too | ⟨same, fresh⟩
      · exact owned.exclusive left right p before too
      · have range := owned.range left p before
        omega
    · rcases owns right p two with too | ⟨also, -⟩
      · have range := owned.range right p too
        omega
      · rw [same, also]

/-- `NetstackEngine_Stop` allocates a port that nobody else has. -/
theorem portsOwned_private {s : State Task} (owned : PortsOwned s) (t : Task) :
    PortsOwned ({ s with nextPort := s.nextPort + 1 }.goto t
      (.putMsg .stop requestPort s.nextPort)) := by
  have owns : ∀ other p, Owns ({ s with nextPort := s.nextPort + 1 }.goto t
      (.putMsg .stop requestPort s.nextPort)) other p →
      Owns s other p ∨ (other = t ∧ p = s.nextPort) := by
    rintro other p (slot | private_)
    · exact Or.inl (Or.inl slot)
    · by_cases here : other = t
      · subst here
        rw [goto_self] at private_
        exact Or.inr ⟨rfl, (Option.some.inj private_).symm⟩
      · rw [goto_other here] at private_
        exact Or.inl (Or.inr private_)
  refine ⟨owned.cached, Nat.succ_pos _, slotsSound_mono owned.slots (Nat.le_succ _), ?_, ?_, ?_, ?_⟩
  · intro other engine known
    by_cases here : other = t
    · subst here
      rw [goto_self] at known
      exact (Option.some.inj known).symm
    · rw [goto_other here] at known
      exact owned.aimed other engine known
  · intro other p known
    by_cases here : other = t
    · subst here
      rw [goto_self] at known
      refine Or.inr ?_
      rw [goto_self]
      exact known
    · rw [goto_other here] at known
      exact (owned.owned other p known).imp id fun private_ => by
        rw [goto_other here]; exact private_
  · intro other p known
    show 0 < p ∧ p < s.nextPort + 1
    have positive := owned.positive
    rcases owns other p known with before | ⟨-, rfl⟩
    · have range := owned.range other p before
      omega
    · omega
  · intro left right p one two
    rcases owns left p one with before | ⟨same, fresh⟩
    · rcases owns right p two with too | ⟨same, fresh⟩
      · exact owned.exclusive left right p before too
      · have range := owned.range left p before
        omega
    · rcases owns right p two with too | ⟨also, -⟩
      · have range := owned.range right p too
        omega
      · rw [same, also]

theorem effect_owned {s s' : State Task} {e : Event Task} (owned : PortsOwned s)
    (effect : Effect s e s') : PortsOwned s' := by
  cases effect with
  | rejected pc early => exact owned
  | began pc passed =>
      refine portsOwned_leave (portsOwned_congr owned ?_ ?_ ?_ ?_) ?_ ?_ ?_ <;> rfl
  | @located t call port pc found =>
      have same : port = requestPort := by
        rw [owned.cached] at found
        exact (Option.some.inj found).symm
      subst same
      have base : PortsOwned { s with cachedPort := some requestPort } :=
        portsOwned_congr owned rfl rfl rfl owned.cached.symm
      refine portsOwned_goto base ?_ ?_ ?_
      · intro engine known
        exact (Option.some.inj known).symm
      · intro port known
        cases known
      · intro port known
        cases known
  | unreachable pc missing => exact portsOwned_leave owned rfl rfl rfl
  | @equipped t granted call engine reply slots pc ran =>
      obtain ⟨grown, mine⟩ := portsOwned_slots owned ran
      have base : PortsOwned ({ s with slots := slots, nextPort := s.nextPort + 1 }.write t
          { s.mem t with replyPort := some reply }) := portsOwned_congr grown rfl rfl rfl rfl
      refine portsOwned_goto base ?_ ?_ ?_
      · intro port known
        cases known
        exact owned.aimed t engine (by rw [pc]; rfl)
      · intro port known
        cases known
        exact Or.inl (mine reply rfl)
      · intro port known
        cases known
  | unequipped pc ran =>
      exact portsOwned_leave (portsOwned_slots owned ran).1 rfl rfl rfl
  | @put t job engine reply pc =>
      have base : PortsOwned (s.post engine t) := portsOwned_congr owned rfl rfl rfl rfl
      refine portsOwned_keep base rfl ?_ ?_
      · show _ = (s.client t).reply
        rw [pc]
        rfl
      · show _ = (s.client t).stopPort
        rw [pc]
        cases job <;> rfl
  | @woken t job reply pc arrived =>
      refine portsOwned_keep owned rfl ?_ ?_
      · rw [pc]
        rfl
      · rw [pc]
        cases job <;> rfl
  | got | gotStop => refine portsOwned_leave (portsOwned_congr owned ?_ ?_ ?_ ?_) ?_ ?_ ?_ <;> rfl
  | unpacked pc => exact portsOwned_leave owned rfl rfl rfl
  | alreadyDown pc down => exact owned
  | stopAsked pc up => exact portsOwned_congr (portsOwned_private owned _) rfl rfl rfl rfl
  | stopSignalled pc =>
      refine portsOwned_leave (portsOwned_congr owned ?_ ?_ ?_ ?_) ?_ ?_ ?_ <;> rfl
  | sawStopped pc gone =>
      refine portsOwned_leave (portsOwned_congr owned ?_ ?_ ?_ ?_) ?_ ?_ ?_ <;> rfl
  | broken | left | roused | drained | taken | dispatched | replied | unaddressed | tested
  | freed =>
      exact portsOwned_congr owned rfl rfl rfl rfl

/-- A step of one task that waits for no reply, before and after. -/
theorem places_local {s s' : State Task} (places : Places s) {t : Task} {pc : ClientPc}
    (client : s'.client = Function.update s.client t pc) (ports : s'.ports = s.ports)
    (engine : s'.engine = s.engine) (mem : ∀ other, other ≠ t → s'.mem other = s.mem other)
    (before : (s.client t).waiting = false) (after : pc.waiting = false)
    (addressed : ∀ port, pc.reply = some port →
      (s'.mem t).replyPort = some port ∧ s.ports port = []) : Places s' := by
  have self : s'.client t = pc := by
    rw [client]
    exact Function.update_self ..
  have others : ∀ {other}, other ≠ t → s'.client other = s.client other := by
    intro other apart
    rw [client]
    exact Function.update_of_ne apart ..
  have line := onEngine_congr ports engine
  obtain ⟨notHeld, notThere⟩ := nowhere_of_idle places before
  refine places_move places t (by rw [line]; exact places.distinct) ?_ ?_
  · apply placed_idle
    · rw [self]
      exact after
    · rw [line]
      exact notHeld
    · rw [ports]
      exact notThere
    · rw [self, ports]
      exact addressed
  · intro other apart
    refine ⟨others apart, by rw [mem other apart], by rw [line], ?_, ?_⟩
    · exact fun port _ => by rw [ports]
    · exact fun port _ _ => by rw [ports]

theorem places_put {s s' : State Task} (owned : PortsOwned s) (places : Places s) {t : Task}
    {job : Job} {engine reply : Nat} (pc : s.client t = .putMsg job engine reply)
    (client : s'.client = Function.update s.client t (.waitPort job reply)) (mem : s'.mem = s.mem)
    (ports : s'.ports = MsgPort.post s.ports requestPort t) (same : s'.engine = s.engine) :
    Places s' := by
  have reply_ : (s.client t).reply = some reply := by rw [pc]; rfl
  obtain ⟨notHeld, notThere⟩ := nowhere_of_idle places (t := t) (by rw [pc]; rfl)
  have self : s'.client t = .waitPort job reply := by rw [client, Function.update_self]
  have others : ∀ {other}, other ≠ t → s'.client other = s.client other := by
    intro other apart
    rw [client, Function.update_of_ne apart]
  have line : onEngine s' = onEngine s ++ [t] := by
    rw [onEngine, undispatched_post ports same, replying, same, onEngine, List.append_assoc]
    rfl
  have elsewhere : ∀ other {port}, (s.client other).reply = some port →
      s'.ports port = s.ports port := by
    intro other port known
    rw [ports, MsgPort.post_other (reply_ne_request owned known)]
  refine places_move places t ?_ ⟨?_, ?_, ?_, ?_, ?_, ?_⟩ ?_
  · rw [line, List.nodup_append]
    refine ⟨places.distinct, by simp, ?_⟩
    rintro other member _ new rfl
    exact notHeld (List.mem_singleton.mp new ▸ member)
  · intro _
    refine ⟨job, reply, self, ?_⟩
    rw [elsewhere t reply_]
    exact places.quiet t job engine reply pc
  · intro port known
    rw [self] at known
    cases known
    rw [mem]
    exact places.addressed t reply reply_
  · intro job' engine' port known
    rw [self] at known
    cases known
  · intro port apart member
    rw [ports, MsgPort.post_other apart] at member
    exact absurd member (notThere port apart)
  · intro job' port _
    rw [line]
    exact Or.inl (List.mem_append_right _ (List.mem_singleton_self t))
  · intro job' port known
    rw [self] at known
    cases known
  · intro other apart
    refine ⟨others apart, by rw [mem], ?_, fun port known => elsewhere other known, ?_⟩
    · rw [line, List.mem_append, List.mem_singleton]
      simp [apart]
    · exact fun port notRequest _ => by rw [ports, MsgPort.post_other notRequest]

theorem places_woken {s : State Task} (owned : PortsOwned s) (places : Places s) {t : Task}
    {job : Job} {reply : Nat} (pc : s.client t = .waitPort job reply)
    (arrived : s.ports reply ≠ []) : Places (s.goto t (.getMsg job reply)) := by
  have reply_ : (s.client t).reply = some reply := by rw [pc]; rfl
  have mine := arrived_own owned places reply_ arrived
  have notHeld : t ∉ onEngine s := by
    intro member
    obtain ⟨job', port, waits, empty⟩ := places.held t member
    rw [pc] at waits
    cases waits
    exact arrived empty
  refine places_move places t places.distinct ⟨?_, ?_, ?_, ?_, ?_, ?_⟩ ?_
  · exact fun member => absurd member notHeld
  · intro port known
    rw [goto_self] at known
    cases known
    exact places.addressed t reply reply_
  · intro job' engine port known
    rw [goto_self] at known
    cases known
  · intro port apart member
    obtain ⟨alone, -, at_⟩ := places.delivered t port apart member
    rw [reply_] at at_
    cases at_
    rw [goto_self]
    exact ⟨alone, rfl, rfl⟩
  · intro job' port known
    rw [goto_self] at known
    cases known
  · intro job' port known
    rw [goto_self] at known
    cases known
    show t ∈ s.ports reply
    rw [mine]
    exact List.mem_singleton_self t
  · intro other apart
    exact ⟨goto_other apart, rfl, Iff.rfl, fun _ _ => rfl, fun _ _ _ => rfl⟩

theorem places_got {s s' : State Task} (owned : PortsOwned s) (places : Places s) {t : Task}
    {job : Job} {reply : Nat} {next : ClientPc} (pc : s.client t = .getMsg job reply)
    (idle : next.waiting = false) (none : next.reply = none)
    (client : s'.client = Function.update s.client t next) (mem : s'.mem = s.mem)
    (ports : s'.ports = MsgPort.take s.ports reply) (same : s'.engine = s.engine) :
    Places s' := by
  have reply_ : (s.client t).reply = some reply := by rw [pc]; rfl
  have apart := reply_ne_request owned reply_
  have mine := (places.delivered t reply apart (places.gets t job reply pc)).1
  have self : s'.client t = next := by rw [client, Function.update_self]
  have others : ∀ {other}, other ≠ t → s'.client other = s.client other := by
    intro other apart
    rw [client, Function.update_of_ne apart]
  have emptied : s'.ports reply = [] := by
    rw [ports, MsgPort.take_self, mine]
    rfl
  have kept : ∀ {port}, port ≠ reply → s'.ports port = s.ports port := by
    intro port other
    rw [ports, MsgPort.take_other other]
  have line : onEngine s' = onEngine s := by
    simp only [onEngine, replying, undispatched, same, kept (Ne.symm apart)]
  have elsewhere : ∀ {other port}, other ≠ t → (s.client other).reply = some port →
      s'.ports port = s.ports port := by
    intro other port notMe known
    apply kept
    rintro rfl
    exact notMe (reply_unique owned known reply_)
  refine places_move places t (by rw [line]; exact places.distinct) ?_ ?_
  · refine placed_idle (by rw [self]; exact idle) ?_ ?_ ?_
    · intro member
      rw [line] at member
      obtain ⟨job', port, waits, -⟩ := places.held t member
      rw [pc] at waits
      cases waits
    · intro port notRequest member
      by_cases here : port = reply
      · rw [here, emptied] at member
        contradiction
      · rw [kept here] at member
        have found := (places.delivered t port notRequest member).2.2
        rw [reply_] at found
        exact here (Option.some.inj found).symm
    · intro port known
      rw [self, none] at known
      contradiction
  · intro other notMe
    refine ⟨others notMe, by rw [mem], by rw [line], fun port known => elsewhere notMe known, ?_⟩
    intro port notRequest member
    apply kept
    rintro rfl
    rw [emptied] at member
    contradiction

theorem equipped_port_empty {s : State Task} (owned : PortsOwned s) (places : Places s) {t : Task}
    {granted : Bool} {slots : Nat → ReplySlot Task} {reply : Nat}
    (idle : (s.client t).waiting = false)
    (ran : ensureReplyPort s.slots t (if granted then some s.nextPort else none) =
      (slots, some reply)) : s.ports reply = [] := by
  obtain ⟨grown, mine⟩ := portsOwned_slots owned ran
  have serves := mine reply rfl
  have range := serves_range grown.slots serves
  have apart : reply ≠ requestPort := by
    simp only [requestPort]
    omega
  refine empty_of_owner places apart ((nowhere_of_idle places idle).2 reply apart) ?_
  intro other known
  exact grown.exclusive other t reply (grown.owned other reply known) (Or.inl serves)

theorem fresh_port_empty {s : State Task} (owned : PortsOwned s) (places : Places s) {t : Task}
    (idle : (s.client t).waiting = false) : s.ports s.nextPort = [] := by
  have positive := owned.positive
  have apart : s.nextPort ≠ requestPort := by
    simp only [requestPort]
    omega
  refine empty_of_owner places apart ((nowhere_of_idle places idle).2 s.nextPort apart) ?_
  intro other known
  have range := owned.range other _ (owned.owned other _ known)
  omega

theorem effect_places {s s' : State Task} {e : Event Task} (owned : PortsOwned s)
    (places : Places s) (effect : Effect s e s') : Places s' := by
  have elsewhere {t other : Task} {record : Record} (apart : other ≠ t) :
      Function.update s.mem t record other = s.mem other := Function.update_of_ne apart ..
  cases effect with
  | rejected | alreadyDown => exact places
  | began pc passed =>
      exact places_local places rfl rfl rfl (fun _ apart => elsewhere apart) (by rw [pc]; rfl) rfl
        fun port known => by cases known
  | located pc | unreachable pc | unequipped pc | unpacked pc | stopSignalled pc | sawStopped pc =>
      exact places_local places rfl rfl rfl (fun _ _ => rfl) (by rw [pc]; rfl) rfl
        fun port known => by cases known
  | @equipped t granted call engine reply slots pc ran =>
      have idle : (s.client t).waiting = false := by rw [pc]; rfl
      refine places_local places rfl rfl rfl (fun _ apart => elsewhere apart) idle rfl ?_
      intro port known
      cases known
      refine ⟨?_, equipped_port_empty owned places idle ran⟩
      simp [State.write, State.goto]
  | @stopAsked t pc up =>
      have idle : (s.client t).waiting = false := by rw [pc]; rfl
      refine places_local places rfl rfl rfl (fun _ apart => elsewhere apart) idle rfl ?_
      intro port known
      cases known
      refine ⟨?_, fresh_port_empty owned places idle⟩
      simp [State.write, State.goto]
  | @put t job engine reply pc =>
      have aim : engine = requestPort := owned.aimed t engine (by rw [pc]; rfl)
      subst aim
      exact places_put owned places pc rfl rfl rfl rfl
  | woken pc arrived => exact places_woken owned places pc arrived
  | got pc => exact places_got owned places pc rfl rfl rfl rfl rfl rfl
  | gotStop pc => exact places_got owned places pc rfl rfl rfl rfl rfl rfl
  | broken => exact places_engine owned places rfl rfl (fun _ _ => rfl) fun _ => rfl
  | left pc | roused pc | drained pc | freed pc =>
      refine places_engine owned places rfl ?_ (fun _ _ => rfl) fun _ => rfl
      simp [onEngine, replying, undispatched, pc]
  | tested pc =>
      refine places_engine owned places rfl ?_ (fun _ _ => rfl) fun _ => rfl
      cases s.core.shutdown <;> simp [onEngine, replying, undispatched, pc]
  | taken pc line =>
      refine places_engine owned places rfl ?_ (fun _ apart => MsgPort.take_other apart)
        fun _ => rfl
      simp [onEngine, replying, undispatched, pc, line, State.take]
  | @dispatched msg core reply pc ran =>
      refine places_engine owned places rfl ?_ (fun _ _ => rfl) ?_
      · simp [onEngine, replying, undispatched, pc, State.write]
      · intro t
        by_cases here : t = msg
        · subst here
          simp [State.write]
        · simp [State.write, here]
  | replied pc address => exact places_replied owned places pc address rfl rfl rfl rfl
  | @unaddressed msg pc address =>
      obtain ⟨job, port, waits, -⟩ := places.held msg (by simp [onEngine, replying, pc])
      rw [places.addressed msg port (by rw [waits]; rfl)] at address
      contradiction

/-- Only a PutMsg and a dispatch change the engine's line. -/
def Event.movesLine : Event Task → Bool
  | .putMsg _ | .engineDispatch => true
  | _ => false

theorem line_kept {s s' : State Task} {e : Event Task} (owned : PortsOwned s) (places : Places s)
    (effect : Effect s e s') (still : e.movesLine = false) :
    undispatched s' = undispatched s := by
  cases effect with
  | put | dispatched => cases still
  | got pc | gotStop pc =>
      have same := take_requests owned (congrArg ClientPc.reply pc)
      cases engine : s.engine <;> simp_all [undispatched, State.take, State.goto]
  | @replied msg port pc address =>
      obtain ⟨work, reply, waits, -⟩ := places.held msg (by simp [onEngine, replying, pc])
      have known : (s.client msg).reply = some reply := by rw [waits]; rfl
      have same : port = reply := by
        rw [places.addressed msg reply known] at address
        exact (Option.some.inj address).symm
      have apart := reply_ne_request owned known
      rw [same]
      simp [undispatched, pc, State.post, MsgPort.post_other (Ne.symm apart)]
  | taken pc line => simp [undispatched, pc, line, State.take]
  | tested pc => cases s.core.shutdown <;> simp [undispatched, pc]
  | left pc | roused pc | drained pc | freed pc | unaddressed pc => simp [undispatched, pc]
  | _ => rfl

end Netstack.Rpc
