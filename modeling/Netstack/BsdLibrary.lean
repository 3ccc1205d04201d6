import Netstack.ClientPort

/-!
The library base of `bsdsocket_library.c`: who has it open, when it is expunged, and
how that ties in with the engine that the first socket call starts. `OpenLibrary` and
`CloseLibrary` count in a 16-bit field; an expunge that finds the library open is put
off to the last close, unless somebody opens it again. An expunge stops the engine, and
if that never ends (a task that did not start the engine may wait for ever) the library
stays. The calls of all tasks follow one another.
-/

namespace Netstack.BsdLibrary

open Client Ipc Transition

variable {Task : Type}

def libfDelexp : UInt8 := 8

structure State (Task : Type) where
  client : ClientPort.State Task
  -- g_engine_started
  engineStarted : Bool
  openCnt : UInt16
  flags : UInt8
  seglist : Nat
  -- Whether the base is still in exec's list of libraries.
  present : Bool

/-- The base as exec loads it and `_bsd_Init` fills it in. -/
def bsdInit (held : Task → Finset (Fin 32)) (seglist : Nat) : State Task where
  client := ClientPort.load held
  engineStarted := false
  openCnt := 0
  -- LIBF_SUMUSED | LIBF_CHANGED
  flags := 6
  seglist := seglist
  present := true

def State.withEngine (s : State Task) (engine : Lifecycle.State Task Nat) : State Task :=
  { s with client := { s.client with engine := engine } }

def mgrOpen (s : State Task) : State Task :=
  { s with openCnt := s.openCnt + 1, flags := s.flags &&& ~~~ libfDelexp }

/-- What exec answers where an engine is started. -/
structure Boot where
  ready : Option (Fin 32)
  stopped : Option (Fin 32)
  created : Bool
  port : Option Nat
  deriving DecidableEq

inductive Event (Task : Type) where
  | openLibrary (t : Task)
  | closeLibrary (t : Task) (reply : Option (Fin 32))
  | expunge (t : Task) (reply : Option (Fin 32))
  | call (t : Task) (boot : Boot) (call : Call) (alloc : Option Nat) (answer : NetstackReq)

def Event.caller : Event Task → Task
  | .openLibrary t | .closeLibrary t _ | .expunge t _ | .call t _ _ _ _ => t

section Code

variable [DecidableEq Task]

/-- The state and the segment list that is handed back, if any. A call that waits for
ever hands nothing back. -/
def mgrExpunge (s : State Task) (t : Task) (reply : Option (Fin 32)) : State Task × Option Nat :=
  if 0 < s.openCnt then ({ s with flags := s.flags ||| libfDelexp }, none)
  else
    let s := { s with client := ClientPort.netstackClientShutdown s.client }
    let stop := Lifecycle.netstackEngineStop s.client.engine t reply
    match stop.returned with
    | some _ => ({ s.withEngine stop.state with present := false }, some s.seglist)
    | none => (s.withEngine stop.state, none)

def mgrClose (s : State Task) (t : Task) (reply : Option (Fin 32)) : State Task × Option Nat :=
  let s := { s with openCnt := s.openCnt - 1 }
  if s.openCnt = 0 ∧ s.flags &&& libfDelexp ≠ 0 then mgrExpunge s t reply else (s, none)

def ensureEngine (s : State Task) (t : Task) (boot : Boot) : State Task × Int :=
  if s.engineStarted then (s, 0)
  else
    let start := Lifecycle.netstackEngineStart s.client.engine t boot.ready boot.stopped boot.created
      boot.port
    let s := s.withEngine start.state
    if start.returned ≠ some 0 then (s, -1)
    else
      let init := ClientPort.netstackClientInit s.client
      let s := { s with client := init.1 }
      if init.2 ≠ 0 then (s, -1) else ({ s with engineStarted := true }, 0)

/-- A socket function: the state, and the port its request went to, if it was sent. -/
def bsCall (s : State Task) (t : Task) (boot : Boot) (call : Call) (alloc : Option Nat)
    (answer : NetstackReq) : State Task × Option Nat :=
  let up := ensureEngine s t boot
  if up.2 ≠ 0 then (up.1, none)
  else
    let sent := ClientPort.netstackCall up.1.client t call alloc answer
    ({ up.1 with client := sent.1 }, sent.2.1)

/-- What becomes of the library, and the segment list that exec may now unload. -/
def perform (s : State Task) : Event Task → State Task × Option Nat
  | .openLibrary _ => (mgrOpen s, none)
  | .closeLibrary t reply => mgrClose s t reply
  | .expunge t reply => mgrExpunge s t reply
  | .call t boot call alloc answer => ((bsCall s t boot call alloc answer).1, none)

/-- A task that waits makes no calls, and there are none without a library. -/
def step (s : State Task) (e : Event Task) : Option (State Task) :=
  if s.present ∧ s.client.engine.waiting e.caller = false then some (perform s e).1 else none

def Steps (s : State Task) (e : Event Task) (s' : State Task) : Prop := step s e = some s'

end Code

/-! What holds between the calls. -/

/-- What holds of the client and its engine whatever is called. -/
structure Tied (c : ClientPort.State Task) : Prop where
  port : c.engine.engineTask = false → c.engine.requestPort = none
  used : c.enginePort.isSome = true → c.replySemInit = true

theorem clientShutdown_spec {c : ClientPort.State Task} (tied : Tied c) :
    (ClientPort.netstackClientShutdown c).engine = c.engine ∧
      (ClientPort.netstackClientShutdown c).enginePort = none := by
  unfold ClientPort.netstackClientShutdown
  split_ifs with used
  · exact ⟨rfl, rfl⟩
  · refine ⟨rfl, ?_⟩
    cases cached : c.enginePort with
    | none => rfl
    | some p => exact absurd (tied.used (by rw [cached]; rfl)) used

/-- While no stop has failed to end, the library's flag says whether an engine runs. -/
structure Up (s : State Task) : Prop where
  started : s.engineStarted = true → s.client.engine.engineTask = true ∧
    ∃ p, s.client.engine.requestPort = some p ∧ s.client.enginePort = some p
  unstarted : s.engineStarted = false →
    s.client.engine.engineTask = false ∧ s.client.enginePort = none

/-- The ways through `ensure_engine`. Its client finds the port of an engine that has
just started, so the second test never fails. -/
inductive Ensured (s : State Task) : State Task → Int → Prop where
  | already (up : s.engineStarted = true) : Ensured s s 0
  | failed (engine : Lifecycle.State Task Nat) (down : s.engineStarted = false)
      (waiting : engine.waiting = s.client.engine.waiting)
      (task : engine.engineTask = s.client.engine.engineTask)
      (port : engine.requestPort = s.client.engine.requestPort) :
      Ensured s (s.withEngine engine) (-1)
  | started (engine : Lifecycle.State Task Nat) (down : s.engineStarted = false)
      (waiting : engine.waiting = s.client.engine.waiting) (task : engine.engineTask = true)
      {p : Nat} (port : engine.requestPort = some p) :
      Ensured s
        { s with
          engineStarted := true
          client := { s.client with
            engine := engine, enginePort := s.client.enginePort.or (some p), replySemInit := true } }
        0

theorem ensured_tied {s s' : State Task} {value : Int} (tied : Tied s.client)
    (way : Ensured s s' value) : Tied s'.client := by
  cases way with
  | already up => exact tied
  | failed engine down waiting task port =>
      refine ⟨?_, tied.used⟩
      intro stopped
      exact port.trans (tied.port (task.symm.trans stopped))
  | started engine down waiting task port =>
      refine ⟨?_, fun _ => rfl⟩
      intro stopped
      exact absurd (task.symm.trans stopped) (by decide)

theorem ensured_up {s s' : State Task} {value : Int} (up : Up s) (way : Ensured s s' value) :
    Up s' ∧ (value = 0 → s'.engineStarted = true) := by
  cases way with
  | already started => exact ⟨up, fun _ => started⟩
  | failed engine down waiting task port =>
      obtain ⟨stopped, unknown⟩ := up.unstarted down
      refine ⟨⟨?_, fun _ => ⟨task.trans stopped, unknown⟩⟩, fun zero => absurd zero (by decide)⟩
      intro started
      exact absurd (down.symm.trans started) (by decide)
  | @started engine down waiting task p port =>
      obtain ⟨stopped, unknown⟩ := up.unstarted down
      refine ⟨⟨fun _ => ⟨task, p, port, ?_⟩, nofun⟩, fun _ => rfl⟩
      dsimp only
      rw [unknown]
      rfl

theorem ensured_frame {s s' : State Task} {value : Int} (way : Ensured s s' value) :
    s'.openCnt = s.openCnt ∧ s'.flags = s.flags ∧ s'.present = s.present := by
  cases way <;> exact ⟨rfl, rfl, rfl⟩

/-! The books an onlooker keeps: how many have the library open, whether an expunge has
been put off since the last open, and whether a stop has failed to end. -/

structure Books where
  outstanding : Nat
  asked : Bool
  hung : Bool

/-- The call that is to delete the library. -/
def Books.due (books : Books) : Event Task → Bool
  | .closeLibrary _ _ => books.outstanding == 1 && books.asked
  | .expunge _ _ => books.outstanding == 0
  | _ => false

def audit (books : Books) (move : Move (State Task) (Event Task)) : Books where
  outstanding :=
    match move.label with
    | .openLibrary _ => books.outstanding + 1
    | .closeLibrary _ _ => books.outstanding - 1
    | _ => books.outstanding
  asked :=
    match move.label with
    | .openLibrary _ => false
    | .expunge _ _ => books.asked || books.outstanding != 0
    | _ => books.asked
  hung := books.hung || books.due move.label && move.after.present

/-- Nobody closes what is not open, and the count does not overflow. -/
def Proper (books : Books) (move : Move (State Task) (Event Task)) : Prop :=
  match move.label with
  | .openLibrary _ => books.outstanding + 1 < 65536
  | .closeLibrary _ _ => 0 < books.outstanding
  | _ => True

structure Kept (books : Books) (s : State Task) : Prop where
  count : s.openCnt.toNat = books.outstanding
  flag : s.flags &&& libfDelexp ≠ 0 ↔ books.asked = true
  tied : Tied s.client
  up : books.hung = false → s.present = true → Up s

theorem delexp_set (flags : UInt8) : (flags ||| libfDelexp) &&& libfDelexp ≠ 0 := by
  have absorbed : (flags ||| libfDelexp) &&& libfDelexp = libfDelexp := by
    apply UInt8.eq_of_toBitVec_eq
    ext i
    simp only [UInt8.toBitVec_and, UInt8.toBitVec_or, BitVec.getElem_and, BitVec.getElem_or]
    cases libfDelexp.toBitVec[i] <;> simp
  rw [absorbed]
  decide

theorem delexp_cleared (flags : UInt8) : (flags &&& ~~~ libfDelexp) &&& libfDelexp = 0 := by
  rw [UInt8.and_assoc]
  simp [libfDelexp]

theorem open_kept {books : Books} {s : State Task} {t : Task} (kept : Kept books s)
    (room : books.outstanding + 1 < 65536) :
    Kept (audit books ⟨s, .openLibrary t, mgrOpen s⟩) (mgrOpen s) := by
  obtain ⟨count, flag, tied, up⟩ := kept
  refine ⟨?_, ?_, tied, ?_⟩
  · simp only [mgrOpen, audit, UInt16.toNat_add, count]
    exact Nat.mod_eq_of_lt room
  · simp [mgrOpen, audit, delexp_cleared]
  · intro calm present
    have before := up (by simpa [audit, Books.due] using calm) present
    exact ⟨before.started, before.unstarted⟩

/-- The count as a close leaves it. -/
def State.dropped (s : State Task) : State Task := { s with openCnt := s.openCnt - 1 }

theorem dropped_count {books : Books} {s : State Task} (kept : Kept books s)
    (positive : 0 < books.outstanding) :
    s.dropped.openCnt.toNat = books.outstanding - 1 := by
  have range := s.openCnt.toNat_lt
  have count := kept.count
  have one : (1 : UInt16) ≤ s.openCnt := UInt16.le_iff_toNat_le.mpr (by simp; omega)
  rw [State.dropped, UInt16.toNat_sub_of_le _ _ one, count]
  rfl

theorem dropped_tied {s : State Task} (tied : Tied s.client) : Tied s.dropped.client := tied

theorem due_free {books : Books} {s : State Task} (kept : Kept books s) {t : Task}
    {reply : Option (Fin 32)} (due : books.due (.closeLibrary t reply) = true) :
    s.dropped.openCnt = 0 := by
  simp only [Books.due, Bool.and_eq_true, beq_iff_eq] at due
  apply UInt16.toNat_inj.mp
  rw [dropped_count kept (by omega), due.1]
  rfl

/-- Whether a call is one of a socket function. -/
def Event.calls : Event Task → Bool
  | .call _ _ _ _ _ => true
  | _ => false

variable [DecidableEq Task]

/-! The engine's side of a call. -/

/-- A start leaves an engine as it is, or there is none and it makes one, or it fails. -/
theorem start_spec (s : Lifecycle.State Task Nat) (t : Task) (boot : Boot) :
    let start := Lifecycle.netstackEngineStart s t boot.ready boot.stopped boot.created boot.port
    start.state.waiting = s.waiting ∧
      ((start.returned = some 0 ∧ s.engineTask = false ∧ start.state.engineTask = true ∧
          start.state.requestPort.isSome = true) ∨
        start.returned = some (-1) ∧ start.state.engineTask = s.engineTask ∧
          start.state.requestPort = s.requestPort) := by
  obtain ⟨ready, stopped, created, port⟩ := boot
  dsimp only
  unfold Lifecycle.netstackEngineStart
  by_cases up : s.engineTask = true
  · rw [if_pos up]
    exact ⟨rfl, Or.inr ⟨rfl, rfl, rfl⟩⟩
  · have down : s.engineTask = false := by simpa using up
    rw [if_neg up]
    cases ready with
    | none => cases stopped <;> exact ⟨rfl, Or.inr ⟨rfl, rfl, rfl⟩⟩
    | some r =>
        cases stopped with
        | none => exact ⟨rfl, Or.inr ⟨rfl, rfl, rfl⟩⟩
        | some b =>
            cases created with
            | false => exact ⟨rfl, Or.inr ⟨rfl, rfl, rfl⟩⟩
            | true =>
                cases port with
                | none => exact ⟨rfl, Or.inr ⟨rfl, rfl, rfl⟩⟩
                | some p => exact ⟨rfl, Or.inl ⟨rfl, down, rfl, rfl⟩⟩

theorem engineProcessEnd_spec (s : Lifecycle.State Task Nat) :
    (Lifecycle.engineProcessEnd s).1.requestPort = none ∧
      (Lifecycle.engineProcessEnd s).1.engineTask = s.engineTask ∧
      (Lifecycle.engineProcessEnd s).1.waiting = s.waiting := by
  unfold Lifecycle.engineProcessEnd
  cases s.launcherTask <;> exact ⟨rfl, rfl, rfl⟩

theorem askEngine_spec (s : Lifecycle.State Task Nat) (t : Task) (reply : Option (Fin 32)) :
    (Lifecycle.askEngine s t reply).1.requestPort = none ∧
      (Lifecycle.askEngine s t reply).1.engineTask = s.engineTask ∧
      (Lifecycle.askEngine s t reply).1.waiting = s.waiting := by
  unfold Lifecycle.askEngine
  cases port : s.requestPort with
  | none => exact ⟨port, rfl, rfl⟩
  | some p =>
      cases reply with
      | none => exact engineProcessEnd_spec s
      | some bit => exact engineProcessEnd_spec (s.clear t (Signals.sigMask bit))

/-- A stop ends without an engine, or its caller waits for ever. -/
theorem stop_spec (s : Lifecycle.State Task Nat) (t : Task) (reply : Option (Fin 32))
    (port : s.engineTask = false → s.requestPort = none) :
    let stop := Lifecycle.netstackEngineStop s t reply
    (stop.returned = some 0 ∧ stop.state.engineTask = false ∧ stop.state.requestPort = none ∧
        stop.state.waiting = s.waiting) ∨
      stop.returned = none ∧ stop.state.engineTask = true ∧ stop.state.waiting t = true := by
  dsimp only
  unfold Lifecycle.netstackEngineStop
  by_cases up : s.engineTask = true
  · obtain ⟨gone, task, waiting⟩ := askEngine_spec s t reply
    rw [if_pos up]
    unfold Lifecycle.awaitStopped
    split_ifs with silent
    · exact Or.inr ⟨rfl, task.trans up, Function.update_self ..⟩
    · exact Or.inl ⟨rfl, rfl, gone, waiting⟩
  · have down : s.engineTask = false := by simpa using up
    rw [if_neg up]
    exact Or.inl ⟨rfl, down, port down, rfl⟩

/-! The client's side. -/

theorem ipcCall_tied {c : ClientPort.State Task} (tied : Tied c) (t : Task) (alloc : Option Nat) :
    Tied (ClientPort.netstackIpcCall c t alloc).state := by
  rw [ClientPort.netstackIpcCall, ClientPort.ensureEnginePort_eq]
  cases port : c.enginePort.or c.engine.requestPort with
  | none =>
      refine ⟨tied.port, ?_⟩
      intro some_
      cases some_
  | some p =>
      dsimp only
      cases (ReplyPorts.ensureReplyPort c.replySlots t alloc).2 with
      | none => exact ⟨tied.port, fun _ => rfl⟩
      | some reply =>
          dsimp only
          split_ifs
          · exact ⟨tied.port, fun _ => rfl⟩
          · exact ⟨tied.port, fun _ => rfl⟩

theorem netstackCall_tied {c : ClientPort.State Task} (tied : Tied c) (t : Task) (call : Call)
    (alloc : Option Nat) (answer : NetstackReq) :
    Tied (ClientPort.netstackCall c t call alloc answer).1 := by
  unfold ClientPort.netstackCall
  cases call.rejected with
  | some result => exact tied
  | none => exact ipcCall_tied tied t alloc

/-- A client that knows the port of the running engine goes on knowing it, and sends
nowhere else. -/
theorem netstackCall_known {c : ClientPort.State Task} {p : Nat} (cached : c.enginePort = some p)
    (published : c.engine.requestPort = some p) (t : Task) (call : Call) (alloc : Option Nat)
    (answer : NetstackReq) :
    (ClientPort.netstackCall c t call alloc answer).1.engine = c.engine ∧
      (ClientPort.netstackCall c t call alloc answer).1.enginePort = some p ∧
      ∀ q, (ClientPort.netstackCall c t call alloc answer).2.1 = some q → q = p := by
  unfold ClientPort.netstackCall
  cases call.rejected with
  | some result =>
      refine ⟨rfl, cached, ?_⟩
      intro q sent
      cases sent
  | none =>
      rw [ClientPort.netstackIpcCall, ClientPort.ensureEnginePort_eq]
      simp only [cached, Option.some_or]
      cases (ReplyPorts.ensureReplyPort c.replySlots t alloc).2 with
      | none =>
          refine ⟨rfl, rfl, ?_⟩
          intro q sent
          cases sent
      | some reply =>
          dsimp only
          rw [if_pos published]
          refine ⟨rfl, rfl, ?_⟩
          intro q sent
          exact (Option.some.inj sent).symm

theorem ensureEngine_cases (s : State Task) (t : Task) (boot : Boot) :
    Ensured s (ensureEngine s t boot).1 (ensureEngine s t boot).2 := by
  unfold ensureEngine
  by_cases up : s.engineStarted = true
  · rw [if_pos up]
    exact .already up
  · have down : s.engineStarted = false := by simpa using up
    rw [if_neg up]
    dsimp only
    obtain ⟨waiting, way⟩ := start_spec s.client.engine t boot
    generalize Lifecycle.netstackEngineStart s.client.engine t boot.ready boot.stopped boot.created
      boot.port = start at waiting way
    rcases way with ⟨returned, -, task, port⟩ | ⟨returned, task, port⟩
    · obtain ⟨p, published⟩ := Option.isSome_iff_exists.mp port
      have found : ClientPort.netstackClientInit (s.withEngine start.state).client =
          ({ s.client with
            engine := start.state, enginePort := s.client.enginePort.or (some p),
            replySemInit := true }, 0) := by
        have some_ : (s.client.enginePort.or (some p)).isSome = true := by
          cases s.client.enginePort <;> rfl
        rw [ClientPort.netstackClientInit, ClientPort.ensureEnginePort_eq]
        simp only [State.withEngine, published, some_, if_true]
      rw [if_neg (not_not_intro returned), found, if_neg (not_not_intro rfl)]
      exact .started start.state down waiting task published
    · rw [if_pos (by rw [returned]; decide)]
      exact .failed start.state down waiting task port

/-- What a socket function does to the library's own state. -/
structure Called (s : State Task) (out : State Task × Option Nat) : Prop where
  tied : Tied out.1.client
  count : out.1.openCnt = s.openCnt
  flags : out.1.flags = s.flags
  present : out.1.present = s.present
  up : Up s → Up out.1 ∧ ∀ p, out.2 = some p → out.1.client.engine.requestPort = some p

theorem bsCall_spec {s : State Task} (tied : Tied s.client) (t : Task) (boot : Boot) (call : Call)
    (alloc : Option Nat) (answer : NetstackReq) :
    Called s (bsCall s t boot call alloc answer) := by
  have way := ensureEngine_cases s t boot
  unfold bsCall
  generalize ensureEngine s t boot = out at way
  obtain ⟨count, flags, present⟩ := ensured_frame way
  have after := ensured_tied tied way
  by_cases failed : out.2 ≠ 0
  · simp only [if_pos failed]
    exact ⟨after, count, flags, present, fun up => ⟨(ensured_up up way).1, nofun⟩⟩
  · simp only [if_neg failed]
    refine ⟨netstackCall_tied after t call alloc answer, count, flags, present, ?_⟩
    intro up
    obtain ⟨now, running⟩ := ensured_up up way
    have started := running (not_not.mp failed)
    obtain ⟨task, p, published, cached⟩ := now.started started
    obtain ⟨engine, kept, sent⟩ := netstackCall_known cached published t call alloc answer
    refine ⟨⟨fun _ => ?_, fun down => absurd (started.symm.trans down) (by decide)⟩, ?_⟩
    · rw [engine]
      exact ⟨task, p, published, kept⟩
    · intro q put
      rw [sent q put, engine]
      exact published

/-- The ways through `_mgr_Expunge`. -/
inductive Expunged (s : State Task) (t : Task) : State Task × Option Nat → Prop where
  | putOff (busy : 0 < s.openCnt) :
      Expunged s t ({ s with flags := s.flags ||| libfDelexp }, none)
  | deleted (client : ClientPort.State Task) (free : s.openCnt = 0) (tied : Tied client)
      (forgotten : client.enginePort = none) (down : client.engine.engineTask = false)
      (waiting : client.engine.waiting = s.client.engine.waiting) :
      Expunged s t ({ s with client := client, present := false }, some s.seglist)
  | stuck (client : ClientPort.State Task) (free : s.openCnt = 0) (tied : Tied client)
      (waiting : client.engine.waiting t = true) :
      Expunged s t ({ s with client := client }, none)

theorem mgrExpunge_cases {s : State Task} (tied : Tied s.client) (t : Task)
    (reply : Option (Fin 32)) : Expunged s t (mgrExpunge s t reply) := by
  unfold mgrExpunge
  by_cases busy : 0 < s.openCnt
  · rw [if_pos busy]
    exact .putOff busy
  · have free : s.openCnt = 0 := UInt16.le_zero_iff.mp (UInt16.not_lt.mp busy)
    rw [if_neg busy]
    obtain ⟨engine, forgotten⟩ := clientShutdown_spec tied
    generalize ClientPort.netstackClientShutdown s.client = client at engine forgotten
    dsimp only
    rw [engine]
    have way := stop_spec s.client.engine t reply tied.port
    dsimp only at way
    generalize Lifecycle.netstackEngineStop s.client.engine t reply = stop at way
    rcases way with ⟨returned, down, gone, waiting⟩ | ⟨returned, running, waiting⟩
    · rw [returned]
      refine .deleted { client with engine := stop.state } free ⟨fun _ => gone, ?_⟩ forgotten down
        waiting
      intro some_
      rw [forgotten] at some_
      cases some_
    · rw [returned]
      refine .stuck { client with engine := stop.state } free ⟨?_, ?_⟩ waiting
      · intro down
        rw [down] at running
        cases running
      · intro some_
        rw [forgotten] at some_
        cases some_

/-- What holds of every call. -/
structure Orderly (books : Books) (move : Move (State Task) (Event Task)) : Prop where
  -- The library goes with the last close after an expunge was put off, or with an expunge
  -- that finds it unused, unless the caller is left waiting.
  deletes : move.after.present = false ↔ books.due move.label = true ∧
    move.after.client.engine.waiting move.label.caller = false
  unloads : (perform move.before move.label).2 =
    if move.after.present then none else some move.before.seglist
  -- It leaves no engine and no client behind.
  quiet : move.after.present = false → move.after.client.engine.engineTask = false ∧
    move.after.client.engine.requestPort = none ∧ move.after.client.enginePort = none
  -- A request goes to the engine that runs.
  reaches : books.hung = false → ∀ t boot call alloc answer,
    move.label = .call t boot call alloc answer →
      ∀ p, (bsCall move.before t boot call alloc answer).2 = some p →
        move.after.client.engine.requestPort = some p

theorem call_kept {books : Books} {s : State Task} {t : Task} {boot : Boot} {call : Call}
    {alloc : Option Nat} {answer : NetstackReq} (kept : Kept books s) :
    Kept (audit books ⟨s, .call t boot call alloc answer, (bsCall s t boot call alloc answer).1⟩)
      (bsCall s t boot call alloc answer).1 := by
  obtain ⟨count, flag, tied, up⟩ := kept
  have called := bsCall_spec tied t boot call alloc answer
  refine ⟨?_, ?_, called.tied, ?_⟩
  · rw [called.count]
    exact count
  · rw [called.flags]
    exact flag
  · intro calm present
    rw [called.present] at present
    exact (called.up (up (by simpa [audit, Books.due] using calm) present)).1

theorem expunge_kept {books : Books} {s : State Task} {t : Task} {reply : Option (Fin 32)}
    (kept : Kept books s) (here : s.present = true) :
    Kept (audit books ⟨s, .expunge t reply, (mgrExpunge s t reply).1⟩)
      (mgrExpunge s t reply).1 := by
  obtain ⟨count, flag, tied, up⟩ := kept
  have way := mgrExpunge_cases tied t reply
  generalize mgrExpunge s t reply = out at way
  cases way with
  | putOff busy =>
      have some_ : books.outstanding ≠ 0 := by
        have positive : 0 < s.openCnt.toNat := UInt16.lt_iff_toNat_lt.mp busy
        omega
      refine ⟨count, ?_, tied, ?_⟩
      · simp [audit, delexp_set, some_]
      · intro calm present
        have before := up (by simpa [audit, Books.due, some_] using calm) present
        exact ⟨before.started, before.unstarted⟩
  | deleted client free tied' forgotten down waiting =>
      have none_ : books.outstanding = 0 := by rw [← count, free]; rfl
      refine ⟨count, ?_, tied', nofun⟩
      simpa [audit, none_] using flag
  | stuck client free tied' waiting =>
      have none_ : books.outstanding = 0 := by rw [← count, free]; rfl
      refine ⟨count, ?_, tied', ?_⟩
      · simpa [audit, none_] using flag
      · intro calm
        simp [audit, Books.due, none_, here] at calm

/-- A close ends in an expunge exactly where it is due. -/
theorem mgrClose_eq {books : Books} {s : State Task} (kept : Kept books s)
    (positive : 0 < books.outstanding) (t : Task) (reply : Option (Fin 32)) :
    mgrClose s t reply =
      if books.due (.closeLibrary t reply) then mgrExpunge s.dropped t reply
      else (s.dropped, none) := by
  have count := dropped_count kept positive
  have zero : s.dropped.openCnt = 0 ↔ books.outstanding = 1 := by
    rw [← UInt16.toNat_inj, count]
    simp
    omega
  have same : (s.dropped.openCnt = 0 ∧ s.flags &&& libfDelexp ≠ 0) ↔
      books.due (.closeLibrary t reply) = true := by
    rw [zero, kept.flag]
    simp [Books.due]
  unfold mgrClose
  exact if_congr same rfl rfl

theorem close_kept {books : Books} {s : State Task} {t : Task} {reply : Option (Fin 32)}
    (kept : Kept books s) (positive : 0 < books.outstanding) (here : s.present = true) :
    Kept (audit books ⟨s, .closeLibrary t reply, (mgrClose s t reply).1⟩)
      (mgrClose s t reply).1 := by
  have count := dropped_count kept positive
  rw [mgrClose_eq kept positive]
  by_cases due : books.due (.closeLibrary t reply) = true
  · rw [if_pos due]
    have free := due_free kept due
    have way := mgrExpunge_cases (dropped_tied kept.tied) t reply
    generalize mgrExpunge s.dropped t reply = out at way
    cases way with
    | putOff busy =>
        rw [free] at busy
        exact absurd busy (by decide)
    | deleted client _ tied forgotten down waiting => exact ⟨count, kept.flag, tied, nofun⟩
    | stuck client _ tied waiting =>
        refine ⟨count, kept.flag, tied, ?_⟩
        intro calm
        have stays : s.dropped.present = true := here
        simp [audit, due, stays] at calm
  · rw [if_neg due]
    refine ⟨count, kept.flag, kept.tied, ?_⟩
    intro calm present
    have before := kept.up (by simpa [audit, due] using calm) present
    exact ⟨before.started, before.unstarted⟩

/-- A call of the manager that is not due leaves the library where it is. -/
theorem orderly_of_present {books : Books} {s s' : State Task} {e : Event Task}
    (undue : books.due e = false) (present : s'.present = true)
    (returned : (perform s e).2 = none) (manages : e.calls = false) :
    Orderly books ⟨s, e, s'⟩ := by
  refine ⟨?_, ?_, ?_, ?_⟩
  · rw [present, undue]
    simp
  · rw [returned, present]
    rfl
  · intro gone
    rw [present] at gone
    cases gone
  · rintro _ t boot call alloc answer rfl
    cases manages

/-- An expunge of a library that is not in use. -/
theorem orderly_of_expunged {books : Books} {s : State Task} {e : Event Task}
    {out : State Task × Option Nat} {unused : State Task} (way : Expunged unused e.caller out)
    (free : unused.openCnt = 0) (here : unused.present = true) (due : books.due e = true)
    (returned : perform s e = out) (seglist : unused.seglist = s.seglist)
    (idle : unused.client.engine.waiting e.caller = false) (manages : e.calls = false) :
    Orderly books ⟨s, e, out.1⟩ := by
  have uncalled : ∀ t boot call alloc answer, e ≠ .call t boot call alloc answer := by
    rintro t boot call alloc answer rfl
    cases manages
  cases way with
  | putOff busy =>
      rw [free] at busy
      exact absurd busy (by decide)
  | deleted client _ tied forgotten down waiting =>
      refine ⟨?_, ?_, fun _ => ⟨down, tied.port down, forgotten⟩, ?_⟩
      · refine iff_of_true rfl ⟨due, ?_⟩
        rw [← idle]
        exact congrFun waiting e.caller
      · rw [returned, seglist]
        rfl
      · intro _ t boot call alloc answer label
        exact absurd label (uncalled t boot call alloc answer)
  | stuck client _ tied waiting =>
      refine ⟨?_, ?_, ?_, ?_⟩
      · refine iff_of_false ?_ ?_
        · rw [here]
          decide
        · rintro ⟨-, calm⟩
          rw [waiting] at calm
          cases calm
      · rw [returned]
        simp only [here, if_true]
      · intro gone
        rw [here] at gone
        cases gone
      · intro _ t boot call alloc answer label
        exact absurd label (uncalled t boot call alloc answer)

theorem step_orderly {books : Books} {s s' : State Task} {e : Event Task} (kept : Kept books s)
    (taken : Steps s e s') (proper : Proper books ⟨s, e, s'⟩) :
    Kept (audit books ⟨s, e, s'⟩) s' ∧ Orderly books ⟨s, e, s'⟩ := by
  rw [Steps, step] at taken
  split_ifs at taken with enabled
  obtain ⟨here, idle⟩ := enabled
  cases taken
  cases e with
  | openLibrary t =>
      exact ⟨open_kept kept proper, orderly_of_present rfl here rfl rfl⟩
  | call t boot call alloc answer =>
      have called := bsCall_spec kept.tied t boot call alloc answer
      have present : (bsCall s t boot call alloc answer).1.present = true :=
        called.present.trans here
      refine ⟨call_kept kept, ⟨?_, ?_, ?_, ?_⟩⟩
      · simp [perform, present, Books.due]
      · simp [perform, present]
      · intro gone
        exact absurd (present.symm.trans gone) (by decide)
      · intro calm _ _ _ _ _ label
        cases label
        exact (called.up (kept.up calm here)).2
  | expunge t reply =>
      refine ⟨expunge_kept kept here, ?_⟩
      by_cases busy : 0 < s.openCnt
      · have some_ : books.outstanding ≠ 0 := by
          have positive : 0 < s.openCnt.toNat := UInt16.lt_iff_toNat_lt.mp busy
          rw [kept.count] at positive
          omega
        have putOff : perform s (.expunge t reply) =
            ({ s with flags := s.flags ||| libfDelexp }, none) := if_pos busy
        rw [putOff]
        exact orderly_of_present (by simp [Books.due, some_]) here (by rw [putOff]) rfl
      · have free : s.openCnt = 0 := UInt16.le_zero_iff.mp (UInt16.not_lt.mp busy)
        have none_ : books.outstanding = 0 := by rw [← kept.count, free]; rfl
        exact orderly_of_expunged (mgrExpunge_cases kept.tied t reply) free here
          (by simp [Books.due, none_]) rfl rfl idle rfl
  | closeLibrary t reply =>
      have positive : 0 < books.outstanding := proper
      refine ⟨close_kept kept positive here, ?_⟩
      have closes := mgrClose_eq kept positive t reply
      by_cases due : books.due (.closeLibrary t reply) = true
      · rw [if_pos due] at closes
        have way := mgrExpunge_cases (dropped_tied kept.tied) t reply
        rw [← closes] at way
        exact orderly_of_expunged way (due_free kept due) here due rfl rfl idle rfl
      · rw [if_neg due] at closes
        have left : perform s (.closeLibrary t reply) = (s.dropped, none) := closes
        rw [left]
        exact orderly_of_present (by simpa using due) here (by rw [left]) rfl

/-- In every run in which nobody closes more than was opened and fewer than `2 ^ 16`
users have the library open: its count is the number of its users. It is deleted, and
its code handed back, by the last close after an expunge was put off or by an expunge
while nobody uses it, and by no other call; no engine is left then. As long as no stop
has failed to end, every request goes to the port of the running engine. -/
theorem library_orderly (held : Task → Finset (Fin 32)) (seglist : Nat)
    (history : List (Move (State Task) (Event Task))) (s : State Task)
    (trace : Trace Steps (bsdInit held seglist) history s)
    (proper : Along audit Proper ⟨0, false, false⟩ history) :
    s.openCnt.toNat = (history.foldl audit ⟨0, false, false⟩).outstanding ∧
      Along audit Orderly ⟨0, false, false⟩ history := by
  have initially : Kept ⟨0, false, false⟩ (bsdInit held seglist : State Task) := by
    refine ⟨rfl, ?_, ⟨fun _ => rfl, nofun⟩, fun _ _ => ⟨nofun, fun _ => ⟨rfl, rfl⟩⟩⟩
    simp only [bsdInit]
    decide
  obtain ⟨kept, along⟩ := observed_invariant Kept Proper initially
    (fun _ _ _ _ kept taken proper => (step_orderly kept taken proper).1)
    (fun _ _ _ _ kept taken proper => (step_orderly kept taken proper).2) trace proper
  exact ⟨kept.count, along⟩

instance (books : Books) :
    (move : Move (State Task) (Event Task)) → Decidable (Proper books move)
  | ⟨_, .openLibrary _, _⟩ => inferInstanceAs (Decidable (_ < _))
  | ⟨_, .closeLibrary _ _, _⟩ => inferInstanceAs (Decidable (_ < _))
  | ⟨_, .expunge _ _, _⟩ | ⟨_, .call _ _ _ _ _, _⟩ => isTrue trivial

/-- Two users, of whom the first starts the engine, and an expunge in between. -/
def twoUsers : List (Event Nat) :=
  [.openLibrary 1, .openLibrary 2,
    .call 1 ⟨some (Signals.signalBit 16), some (Signals.signalBit 17), true, some 7⟩ (.ping 1 2)
      (some 8) { op := 0x0001, err := 0 },
    .expunge 3 none, .closeLibrary 2 none, .closeLibrary 1 (some (Signals.signalBit 18))]

theorem two_users_orderly :
    ∃ history s, Trace Steps (bsdInit (fun _ : Nat => ∅) 42) history s ∧
      (history.map fun move => (perform move.before move.label).2) =
        [none, none, none, none, none, some 42] ∧
      Along audit Orderly ⟨0, false, false⟩ history := by
  have done : ((follow step [] (bsdInit (fun _ : Nat => ∅) 42) twoUsers).map fun out =>
      (decide (Along audit Proper ⟨0, false, false⟩ out.1),
        out.1.map fun move => (perform move.before move.label).2)) =
      some (true, [none, none, none, none, none, some 42]) := by
    decide +kernel
  obtain ⟨⟨history, s⟩, followed, checks⟩ := Option.map_eq_some_iff.mp done
  obtain ⟨proper, unloaded⟩ := Prod.ext_iff.mp checks
  have trace : Trace Steps (bsdInit (fun _ : Nat => ∅) 42) history s := follow_trace .nil followed
  exact ⟨history, s, trace, unloaded,
    (library_orderly _ _ _ _ trace (of_decide_eq_true proper)).2⟩

end Netstack.BsdLibrary
