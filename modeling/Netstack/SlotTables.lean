import Mathlib.Data.Finset.Basic
import Netstack.ReplyPorts
import Netstack.TaskSlots

/-!
The two tables of slots per task: the reply ports of `socket_ipc.c` and the timer
requests of `osal_timer.c`. Each call runs under the semaphore of its table. The
timer table builds a slot in three stages and writes its fields as it goes, with the
owner last; where a stage fails, the call frees what the stages before it made and
clears the fields again. Addresses are numbers.
-/

namespace Netstack.SlotTables

open ReplyPorts TaskSlots Transition

variable {Task : Type}

/-- `ASOT_PORT` and `ASOT_IOREQUEST`. -/
inductive SysObject where
  | port
  | ioRequest
  deriving DecidableEq

/-- A call on one of the tables. Both return a number: the address of a port, or the
index of a timer slot. -/
abbrev TableCall (Task : Type) := Label Task Nat SysObject Nat

/-! The reply ports. -/

def replyView : View Task (ReplySlot Task) Nat Nat where
  limit := replySlotMax
  owner := ReplySlot.owner
  objects slot := [slot.port]
  handle _ slot := slot.port
  handle_some := by
    intro i slot present
    exact Option.ne_none_iff_exists'.mp (present _ (List.mem_singleton_self _))
  handle_apart := by
    intro i j slot other port left right
    exact Or.inr ⟨port, by simp [left], by simp [right]⟩

/-- The loop of `netstack_client_shutdown`. -/
def freePorts : Nat → Nat → (Nat → ReplySlot Task) →
    (Nat → ReplySlot Task) × List (Act SysObject Nat)
  | 0, _, slots => (slots, [])
  | left + 1, i, slots =>
      match (slots i).port with
      | some p =>
          let rest :=
            freePorts left (i + 1) (Function.update slots i { port := none, owner := none })
          (rest.1, .free .port p :: rest.2)
      | none => freePorts left (i + 1) slots

def netstackClientShutdown (s : SlotState (ReplySlot Task) Nat) :
    SlotState (ReplySlot Task) Nat × List (Act SysObject Nat) :=
  if s.ready then
    let ran := freePorts replySlotMax 0 s.slots
    ({ s with slots := ran.1, live := liveAfter s.live ran.2 }, ran.2)
  else (s, [])

/-! The timer requests. -/

def timerSlotMax : Nat := 16

@[ext]
structure TimerSlot (Task : Type) where
  owner : Option Task := none
  port : Option Nat := none
  req : Option Nat := none

def timerView : View Task (TimerSlot Task) Nat Nat where
  limit := timerSlotMax
  owner := TimerSlot.owner
  objects slot := [slot.port, slot.req]
  handle i _ := some i
  handle_some := by
    intro i slot _
    exact ⟨i, rfl⟩
  handle_apart := by
    intro i j slot other r left right
    cases left
    exact Or.inl (Option.some.inj right).symm

/-- What the two allocations and `OpenDevice` answer if they are reached. -/
structure TimerAnswers where
  port : Option Nat
  req : Option Nat
  opened : Int

/-- The table after a call, the slot it returns and the exec calls it makes. -/
structure TimerCall (Task : Type) where
  slots : Nat → TimerSlot Task
  result : Option Nat
  acts : List (Act SysObject Nat)

/-- The three stages on the free slot `i`. -/
def buildSlot (slots : Nat → TimerSlot Task) (i : Nat) (me : Task) (answers : TimerAnswers) :
    TimerCall Task :=
  let s := { slots i with port := answers.port }
  match answers.port with
  | none => ⟨Function.update slots i s, none, [.alloc .port none]⟩
  | some p =>
      let s := { s with req := answers.req }
      match answers.req with
      | none =>
          ⟨Function.update slots i { s with port := none }, none,
            [.alloc .port (some p), .alloc .ioRequest none, .free .port p]⟩
      | some r =>
          if answers.opened ≠ 0 then
            ⟨Function.update slots i { s with req := none, port := none }, none,
              [.alloc .port (some p), .alloc .ioRequest (some r), .openDevice answers.opened,
                .free .ioRequest r, .free .port p]⟩
          else
            ⟨Function.update slots i { s with owner := some me }, some i,
              [.alloc .port (some p), .alloc .ioRequest (some r), .openDevice answers.opened]⟩

/-- A static table; the semaphore may have been set up before. -/
def noPorts (ready : Bool) : SlotState (ReplySlot Task) Nat := ⟨ready, fun _ => {}, ∅⟩

def noTimers (ready : Bool) : SlotState (TimerSlot Task) Nat := ⟨ready, fun _ => {}, ∅⟩

section Tables

/-- A pass clears its slot if that has a port, and leaves the slots before it alone. -/
theorem freePorts_slot {left i : Nat} (slots : Nat → ReplySlot Task) (j : Nat) :
    (freePorts left i slots).1 j =
      if i ≤ j ∧ j < i + left ∧ (slots j).port ≠ none then {} else slots j := by
  induction left generalizing i slots with
  | zero =>
      rw [if_neg (by omega)]
      rfl
  | succ left ih =>
      have later : j ≠ i → ((i + 1 ≤ j ∧ j < i + 1 + left ∧ (slots j).port ≠ none) ↔
          i ≤ j ∧ j < i + (left + 1) ∧ (slots j).port ≠ none) := by
        intro other
        rw [← and_assoc, ← and_assoc]
        exact and_congr_left fun _ => by omega
      rw [freePorts]
      split
      · rename_i p port
        dsimp only
        rw [ih]
        by_cases here : j = i
        · rw [if_neg (by omega), if_pos (by simp [here, port]), here, Function.update_self]
        · rw [Function.update_of_ne here]
          simp only [later here]
      · rename_i port
        rw [ih]
        by_cases here : j = i
        · rw [if_neg (by omega), if_neg (by simp [here, port])]
        · simp only [later here]

theorem shutdown_empties {s : SlotState (ReplySlot Task) Nat} (sound : Sound replyView s) :
    Emptied replyView (netstackClientShutdown s).1.slots := by
  have orderly := sound.orderly
  intro i inside
  rw [netstackClientShutdown]
  by_cases ready : s.ready = true
  · rw [if_pos ready]
    dsimp only
    rw [freePorts_slot]
    by_cases some_ : (s.slots i).port ≠ none
    · rw [if_pos ⟨Nat.zero_le i, by rwa [Nat.zero_add], some_⟩]
      simp [replyView]
    · rw [if_neg fun both => some_ both.2.2]
      have unowned : replyView.owner (s.slots i) = none := by
        by_contra occupied
        exact some_ (orderly.filled i inside occupied _ (List.mem_singleton_self _))
      exact ⟨unowned, orderly.free i inside unowned⟩
  · rw [if_neg ready]
    have unowned := sound.idle (by simpa using ready) i inside
    exact ⟨unowned, orderly.free i inside unowned⟩

theorem noPorts_emptied (ready : Bool) :
    Emptied replyView (noPorts ready : SlotState (ReplySlot Task) Nat).slots := by
  intro i inside
  simp [noPorts, replyView]

theorem noTimers_emptied (ready : Bool) :
    Emptied timerView (noTimers ready : SlotState (TimerSlot Task) Nat).slots := by
  intro i inside
  simp [noTimers, timerView]

theorem free_timer {slots : Nat → TimerSlot Task} (orderly : Orderly timerView slots) {i : Nat}
    (inside : i < timerSlotMax) (unowned : (slots i).owner = none) : slots i = {} := by
  have pointers := orderly.free i inside unowned
  have port : (slots i).port = none := pointers _ (by simp [timerView])
  have req : (slots i).req = none := pointers _ (by simp [timerView])
  exact TimerSlot.ext unowned port req

/-- A stage that fails leaves the slot as free as it was. -/
theorem buildSlot_ensured {slots : Nat → TimerSlot Task} (orderly : Orderly timerView slots)
    {me : Task} (unknown : Unknown timerView slots me) {i : Nat} (inside : i < timerSlotMax)
    (unowned : (slots i).owner = none) (answers : TimerAnswers) :
    Ensured timerView slots me (buildSlot slots i me answers).acts
      (buildSlot slots i me answers).slots (buildSlot slots i me answers).result := by
  have blank := free_timer orderly inside unowned
  have restored : Function.update slots i {} = slots := by
    rw [← blank, Function.update_eq_self]
  have room : ¬ Crowded timerView slots := fun crowded => crowded i inside unowned
  obtain ⟨port, req, opened⟩ := answers
  cases port with
  | none =>
      simp only [buildSlot, blank]
      rw [restored]
      refine .failed unknown room (by simp) (.refl _) ?_
      intro live _
      rfl
  | some p =>
      cases req with
      | none =>
          simp only [buildSlot, blank]
          rw [restored]
          refine .failed unknown room (by simp) (.refl _) ?_
          intro live fresh
          exact Finset.erase_insert (fresh.1 _ rfl)
      | some r =>
          by_cases refused : opened ≠ 0
          · simp only [buildSlot, blank, if_pos refused]
            rw [restored]
            refine .failed unknown room (by simp) (.swap _ _ _) ?_
            intro live fresh
            have newPort : p ∉ live := fresh.1 _ rfl
            have newReq : r ∉ insert p live := fresh.2.1 _ rfl
            change ((insert r (insert p live)).erase r).erase p = live
            rw [Finset.erase_insert newReq, Finset.erase_insert newPort]
          · simp only [buildSlot, if_neg refused]
            exact .filled unknown inside unowned (by simp) rfl rfl rfl

end Tables

variable [DecidableEq Task]

def timerSlotForCurrentTask (slots : Nat → TimerSlot Task) (me : Task) (answers : TimerAnswers) :
    TimerCall Task :=
  match findOwner timerView slots (some me) with
  | some i => ⟨slots, some i, []⟩
  | none =>
      match findOwner timerView slots none with
      | some i => buildSlot slots i me answers
      | none => ⟨slots, none, []⟩

/-- The call that `ensure_reply_port` makes for a free slot. -/
def replyActs (slots : Nat → ReplySlot Task) (me : Task) (alloc : Option Nat) :
    List (Act SysObject Nat) :=
  match findSlot slots (some me), findSlot slots none with
  | none, some _ => [.alloc .port alloc]
  | _, _ => []

/-! Calls in any order. An event carries what the allocator answers in it. -/

inductive ReplyEvent (Task : Type) where
  | ensure (me : Task) (alloc : Option Nat)
  | shutdown

def replyStep (s : SlotState (ReplySlot Task) Nat) :
    ReplyEvent Task → TableCall Task × SlotState (ReplySlot Task) Nat
  | .ensure me alloc =>
      let ran := ensureReplyPort s.slots me alloc
      let acts := replyActs s.slots me alloc
      (.ensure me ran.2 acts, ⟨true, ran.1, liveAfter s.live acts⟩)
  | .shutdown => (.shutdown (netstackClientShutdown s).2, (netstackClientShutdown s).1)

def ReplyStep (s : SlotState (ReplySlot Task) Nat) (label : TableCall Task)
    (s' : SlotState (ReplySlot Task) Nat) : Prop :=
  Fresh s.live label.acts ∧ ∃ event, replyStep s event = (label, s')

structure TimerEvent (Task : Type) where
  me : Task
  answers : TimerAnswers

def timerStep (s : SlotState (TimerSlot Task) Nat) (event : TimerEvent Task) :
    TableCall Task × SlotState (TimerSlot Task) Nat :=
  let ran := timerSlotForCurrentTask s.slots event.me event.answers
  (.ensure event.me ran.result ran.acts, ⟨true, ran.slots, liveAfter s.live ran.acts⟩)

def TimerStep (s : SlotState (TimerSlot Task) Nat) (label : TableCall Task)
    (s' : SlotState (TimerSlot Task) Nat) : Prop :=
  Fresh s.live label.acts ∧ ∃ event, timerStep s event = (label, s')

section Reply

theorem findSlot_eq (slots : Nat → ReplySlot Task) (who : Option Task) :
    findSlot slots who = findOwner replyView slots who := rfl

theorem reply_ensured (slots : Nat → ReplySlot Task) (me : Task) (alloc : Option Nat) :
    Ensured replyView slots me (replyActs slots me alloc) (ensureReplyPort slots me alloc).1
      (ensureReplyPort slots me alloc).2 := by
  rw [ensureReplyPort, replyActs, findSlot_eq, findSlot_eq]
  cases mine : findOwner replyView slots (some me) with
  | some i =>
      obtain ⟨inside, owner⟩ := findOwner_some mine
      exact .known inside owner
  | none =>
      have unknown : Unknown replyView slots me := findOwner_none mine
      cases free : findOwner replyView slots none with
      | none => exact .crowded unknown (findOwner_none free)
      | some i =>
          obtain ⟨inside, unowned⟩ := findOwner_some free
          cases alloc with
          | none =>
              refine .failed unknown ?_ (by simp) (.refl _) ?_
              · intro crowded
                exact crowded i inside unowned
              · intro live _
                rfl
          | some p => exact .filled unknown inside unowned (by simp) rfl rfl rfl

theorem reply_refines (s : SlotState (ReplySlot Task) Nat) (label : TableCall Task)
    (s' : SlotState (ReplySlot Task) Nat) (sound : Sound replyView s)
    (step : ReplyStep s label s') : SlotStep replyView s label s' := by
  obtain ⟨fresh, event, ran⟩ := step
  cases event with
  | ensure me alloc =>
      cases ran
      exact .ensured (reply_ensured s.slots me alloc) rfl fresh rfl
  | shutdown =>
      cases ran
      exact .shutdown (shutdown_empties sound)

end Reply

section Timer

theorem timer_ensured {slots : Nat → TimerSlot Task} (orderly : Orderly timerView slots)
    (me : Task) (answers : TimerAnswers) :
    Ensured timerView slots me (timerSlotForCurrentTask slots me answers).acts
      (timerSlotForCurrentTask slots me answers).slots
      (timerSlotForCurrentTask slots me answers).result := by
  rw [timerSlotForCurrentTask]
  cases mine : findOwner timerView slots (some me) with
  | some i =>
      obtain ⟨inside, owner⟩ := findOwner_some mine
      exact .known inside owner
  | none =>
      have unknown : Unknown timerView slots me := findOwner_none mine
      cases free : findOwner timerView slots none with
      | none => exact .crowded unknown (findOwner_none free)
      | some i =>
          obtain ⟨inside, unowned⟩ := findOwner_some free
          exact buildSlot_ensured orderly unknown inside unowned answers

theorem timer_refines (s : SlotState (TimerSlot Task) Nat) (label : TableCall Task)
    (s' : SlotState (TimerSlot Task) Nat) (sound : Sound timerView s)
    (step : TimerStep s label s') : SlotStep timerView s label s' := by
  obtain ⟨fresh, event, ran⟩ := step
  cases ran
  exact .ensured (timer_ensured sound.orderly event.me event.answers) rfl fresh rfl

end Timer

/-- A port is returned to one task only, through any shutdowns, if the allocator
hands out no address twice. -/
theorem reply_port_of_one_task {ready : Bool} {history : List (Move _ (TableCall Task))}
    {s : SlotState (ReplySlot Task) Nat} (trace : Trace ReplyStep (noPorts ready) history s)
    (once : ((grants history).map Prod.snd).Nodup) {m₁ m₂ : Move _ (TableCall Task)}
    (first : m₁ ∈ history) (second : m₂ ∈ history) {task other : Task} {port : Nat}
    {acts later : List (Act SysObject Nat)} (call : m₁.label = .ensure task (some port) acts)
    (again : m₂.label = .ensure other (some port) later) : task = other := by
  have direct : ∀ (i : Nat) (slot : ReplySlot Task) port, replyView.handle i slot = some port →
      some port ∈ replyView.objects slot := by
    intro i slot port handle
    exact List.mem_singleton.mpr handle.symm
  have granted := results_granted direct reply_refines (noPorts_emptied ready) trace
  have same := List.inj_on_of_nodup_map once (granted m₁ first task port acts call)
    (granted m₂ second other port later again) rfl
  exact congrArg Prod.fst same

/-- Both tables give each task one slot of its own, whatever the order of the calls
and whichever of their allocations fail. Until a shutdown no two tasks have one port;
after it an address may come back, and if none does, no two tasks ever get the same. -/
theorem slot_tables_are_safe :
    (∀ ready history (s : SlotState (ReplySlot Task) Nat),
      Trace ReplyStep (noPorts ready) history s → Guarantees replyView history s ∧
        (((grants history).map Prod.snd).Nodup → ∀ m₁ ∈ history, ∀ m₂ ∈ history,
          ∀ task other port acts later, m₁.label = .ensure task (some port) acts →
          m₂.label = .ensure other (some port) later → task = other)) ∧
    (∀ ready history (s : SlotState (TimerSlot Task) Nat),
      Trace TimerStep (noTimers ready) history s → Guarantees timerView history s) := by
  constructor
  · intro ready history s trace
    refine ⟨guarantees_of_steps reply_refines (emptied_sound (noPorts_emptied ready)) trace, ?_⟩
    intro once m₁ first m₂ second task other port acts later call again
    exact reply_port_of_one_task trace once first second call again
  · intro ready history s trace
    exact guarantees_of_steps timer_refines (emptied_sound (noTimers_emptied ready)) trace

/-- Two clients of which one is first refused a port, and a timer whose device does
not open at first. -/
theorem two_clients_and_a_timer :
    (∃ (history : List (Move _ (TableCall Nat))) (s : SlotState (ReplySlot Nat) Nat),
      Guarantees replyView history s ∧
      history.map Move.label = [.ensure 1 (some 10) [.alloc .port (some 10)],
        .ensure 2 none [.alloc .port none], .ensure 2 (some 11) [.alloc .port (some 11)],
        .ensure 1 (some 10) [], .shutdown [.free .port 10, .free .port 11]]) ∧
    (∃ (history : List (Move _ (TableCall Nat))) (s : SlotState (TimerSlot Nat) Nat),
      Guarantees timerView history s ∧
      history.map Move.label = [
        .ensure 1 none [.alloc .port (some 20), .alloc .ioRequest (some 21), .openDevice (-1),
          .free .ioRequest 21, .free .port 20],
        .ensure 1 (some 0) [.alloc .port (some 21), .alloc .ioRequest (some 20),
          .openDevice 0]]) := by
  obtain ⟨replies, timers⟩ := @slot_tables_are_safe Nat inferInstance
  constructor
  · refine ⟨_, _, (replies false _ _ (.snoc (.snoc (.snoc (.snoc (.snoc .nil
      ⟨?_, .ensure 1 (some 10), rfl⟩) ⟨?_, .ensure 2 none, rfl⟩) ⟨?_, .ensure 2 (some 11), rfl⟩)
      ⟨?_, .ensure 1 none, rfl⟩) ⟨?_, .shutdown, rfl⟩)).1, rfl⟩
    all_goals decide
  · refine ⟨_, _, timers false _ _ (.snoc (.snoc .nil
      ⟨?_, ⟨1, ⟨some 20, some 21, -1⟩⟩, rfl⟩) ⟨?_, ⟨1, ⟨some 21, some 20, 0⟩⟩, rfl⟩), rfl⟩
    all_goals decide

end Netstack.SlotTables
