import Mathlib.Data.Finset.Erase
import Mathlib.Data.Finset.Insert
import Mathlib.Logic.Function.Basic
import Netstack.Transition

/-!
Tables that give each task a slot of its own, with objects allocated for it. A call
finds the caller's slot, or fills a free one, or fails and puts back what it had
allocated; a shutdown empties the table. `View` says how a table's slots are read.
The guarantees of such a table follow from what one call and one shutdown do, over
every history and whatever the allocator answers, as long as it hands out no object
that the table still holds.
-/

namespace Netstack.TaskSlots

open Transition

variable {Task Slot Kind Obj Result : Type}

/-- A call to the allocator, or the opening of a device for an object. -/
inductive Act (Kind Obj : Type) where
  | alloc (kind : Kind) (got : Option Obj)
  | openDevice (rc : Int)
  | free (kind : Kind) (object : Obj)
  deriving DecidableEq

def Act.got : Act Kind Obj → Option (Kind × Obj)
  | .alloc kind (some object) => some (kind, object)
  | _ => none

def Act.gone : Act Kind Obj → Option (Kind × Obj)
  | .free kind object => some (kind, object)
  | _ => none

def allocated (acts : List (Act Kind Obj)) : List (Kind × Obj) := acts.filterMap Act.got

def freed (acts : List (Act Kind Obj)) : List (Kind × Obj) := acts.filterMap Act.gone

section Live

variable [DecidableEq Obj]

def Act.apply (live : Finset Obj) : Act Kind Obj → Finset Obj
  | .alloc _ (some object) => insert object live
  | .alloc _ none => live
  | .openDevice _ => live
  | .free _ object => live.erase object

def liveAfter (live : Finset Obj) (acts : List (Act Kind Obj)) : Finset Obj :=
  acts.foldl Act.apply live

/-- No allocation returns an object that is in use. -/
def Fresh : Finset Obj → List (Act Kind Obj) → Prop
  | _, [] => True
  | live, act :: rest => (∀ taken ∈ act.got, taken.2 ∉ live) ∧ Fresh (act.apply live) rest

instance decidableFresh : (live : Finset Obj) → (acts : List (Act Kind Obj)) →
    Decidable (Fresh live acts)
  | _, [] => .isTrue trivial
  | live, act :: rest =>
      have := decidableFresh (act.apply live) rest
      inferInstanceAs (Decidable ((∀ taken ∈ act.got, taken.2 ∉ live) ∧ _))

/-- Where nothing is freed, what was in use stays so and what was allocated was not. -/
theorem fresh_allocated {live : Finset Obj} {acts : List (Act Kind Obj)}
    (fresh : Fresh live acts) (kept : freed acts = []) :
    live ⊆ liveAfter live acts ∧
      ∀ taken ∈ allocated acts, taken.2 ∉ live ∧ taken.2 ∈ liveAfter live acts := by
  induction acts generalizing live with
  | nil => exact ⟨Finset.Subset.refl _, by simp [allocated]⟩
  | cons act rest ih =>
      obtain ⟨first, others⟩ := fresh
      rw [liveAfter, List.foldl_cons]
      cases act with
      | alloc kind got =>
          cases got with
          | none => exact ih others kept
          | some object =>
              obtain ⟨grows, rest_⟩ := ih others kept
              have before := Finset.Subset.trans (Finset.subset_insert object live) grows
              refine ⟨before, ?_⟩
              have split : allocated (.alloc kind (some object) :: rest) =
                  (kind, object) :: allocated rest := rfl
              rw [split, List.forall_mem_cons]
              refine ⟨⟨first _ rfl, grows (Finset.mem_insert_self _ _)⟩, ?_⟩
              intro taken member
              obtain ⟨new, now⟩ := rest_ taken member
              exact ⟨fun old => new (Finset.mem_insert_of_mem old), now⟩
      | openDevice rc => exact ih others kept
      | free kind object => simp [freed, Act.gone] at kept

end Live

/-- How the slots of a table are read, and what a call returns for one of them. Two
slots give the same handle only if they are one or share an object. -/
structure View (Task Slot Obj Result : Type) where
  limit : Nat
  owner : Slot → Option Task
  objects : Slot → List (Option Obj)
  handle : Nat → Slot → Option Result
  handle_some : ∀ i slot, (∀ o ∈ objects slot, o ≠ none) → ∃ r, handle i slot = some r
  handle_apart : ∀ i j slot other r, handle i slot = some r → handle j other = some r →
    i = j ∨ ∃ object, some object ∈ objects slot ∧ some object ∈ objects other

/-- `live` are the objects that were allocated for the table and not freed. -/
structure SlotState (Slot Obj : Type) where
  ready : Bool
  slots : Nat → Slot
  live : Finset Obj

inductive Label (Task Result Kind Obj : Type) where
  | ensure (me : Task) (result : Option Result) (acts : List (Act Kind Obj))
  | shutdown (acts : List (Act Kind Obj))

def Label.acts : Label Task Result Kind Obj → List (Act Kind Obj)
  | .ensure _ _ acts => acts
  | .shutdown acts => acts

def Label.grants : Label Task Result Kind Obj → List (Task × Obj)
  | .ensure me _ acts => (allocated acts).map fun taken => (me, taken.2)
  | .shutdown _ => []

/-- The objects that were allocated in a history, with the tasks that called. -/
def grants (history : List (Move (SlotState Slot Obj) (Label Task Result Kind Obj))) :
    List (Task × Obj) :=
  history.flatMap fun move => move.label.grants

theorem grants_snoc (history : List (Move (SlotState Slot Obj) (Label Task Result Kind Obj)))
    (move : Move (SlotState Slot Obj) (Label Task Result Kind Obj)) :
    grants (history ++ [move]) = grants history ++ move.label.grants := by
  simp [grants]

variable (view : View Task Slot Obj Result)

/-- The first slot with the given owner; a free slot where that is `none`. -/
def findOwner [DecidableEq Task] (slots : Nat → Slot) (who : Option Task) : Option Nat :=
  (List.range view.limit).find? fun i => view.owner (slots i) = who

/-- Occupied slots have different owners and different objects, none of them NULL;
free slots have no objects. -/
structure Orderly (slots : Nat → Slot) : Prop where
  owners : ∀ i < view.limit, ∀ j < view.limit, ∀ task, view.owner (slots i) = some task →
    view.owner (slots j) = some task → i = j
  filled : ∀ i < view.limit, view.owner (slots i) ≠ none → ∀ o ∈ view.objects (slots i), o ≠ none
  apart : ∀ i < view.limit, ∀ j < view.limit, ∀ object, some object ∈ view.objects (slots i) →
    some object ∈ view.objects (slots j) → i = j
  free : ∀ i < view.limit, view.owner (slots i) = none → ∀ o ∈ view.objects (slots i), o = none

/-- What holds between two calls. -/
structure Sound (s : SlotState Slot Obj) : Prop where
  orderly : Orderly view s.slots
  alive : ∀ i < view.limit, ∀ object, some object ∈ view.objects (s.slots i) → object ∈ s.live
  idle : s.ready = false → ∀ i < view.limit, view.owner (s.slots i) = none

def Unknown (slots : Nat → Slot) (me : Task) : Prop :=
  ∀ i < view.limit, view.owner (slots i) ≠ some me

def Crowded (slots : Nat → Slot) : Prop := ∀ i < view.limit, view.owner (slots i) ≠ none

def Emptied (slots : Nat → Slot) : Prop :=
  ∀ i < view.limit, view.owner (slots i) = none ∧ ∀ o ∈ view.objects (slots i), o = none

/-- `task` has slot `i`, and calls return `r` for it. -/
structure Held (slots : Nat → Slot) (task : Task) (i : Nat) (r : Result) : Prop where
  inside : i < view.limit
  owner : view.owner (slots i) = some task
  handle : view.handle i (slots i) = some r

/-- What the callers of a table can rely on. -/
structure Guarantees (history : List (Move (SlotState Slot Obj) (Label Task Result Kind Obj)))
    (s : SlotState Slot Obj) : Prop where
  orderly : Orderly view s.slots
  /-- Until a shutdown a result is returned to the task that got it first, whenever
  it calls, and to no other. -/
  lasting : ∀ first between rest m₁ m₂ task r acts other result later,
    history = first ++ m₁ :: (between ++ m₂ :: rest) → m₁.label = .ensure task (some r) acts →
    (∀ move ∈ between, ∀ acts, move.label ≠ .shutdown acts) →
    m₂.label = .ensure other result later → (result = some r ↔ other = task)
  /-- A call that fails changes nothing and keeps nothing. -/
  failing : ∀ move ∈ history, ∀ me acts, move.label = .ensure me none acts →
    move.after.slots = move.before.slots ∧ move.after.live = move.before.live ∧
      (freed acts).Perm (allocated acts)
  /-- A task without a slot is turned away, with no allocation tried, exactly where
  there is no free slot. -/
  space : ∀ move ∈ history, ∀ me result acts, move.label = .ensure me result acts →
    Unknown view move.before.slots me →
    ((result = none ∧ acts = []) ↔ Crowded view move.before.slots)

section Tables

variable {view} {s s' : SlotState Slot Obj}

theorem findOwner_some [DecidableEq Task] {slots : Nat → Slot} {who : Option Task} {i : Nat}
    (found : findOwner view slots who = some i) :
    i < view.limit ∧ view.owner (slots i) = who := by
  have passed := List.find?_some found
  exact ⟨List.mem_range.mp (List.mem_of_find?_eq_some found), by simpa using passed⟩

theorem findOwner_none [DecidableEq Task] {slots : Nat → Slot} {who : Option Task}
    (missed : findOwner view slots who = none) :
    ∀ i < view.limit, view.owner (slots i) ≠ who := by
  intro i inside same
  have passed := List.find?_eq_none.mp missed i (List.mem_range.mpr inside)
  simp [same] at passed

theorem emptied_sound (emptied : Emptied view s.slots) : Sound view s := by
  have none : ∀ i < view.limit, ∀ object, some object ∉ view.objects (s.slots i) := by
    intro i inside object member
    exact absurd ((emptied i inside).2 _ member) (Option.some_ne_none object)
  refine ⟨⟨?_, ?_, ?_, ?_⟩, ?_, ?_⟩
  · intro i inside j _ task owner
    rw [(emptied i inside).1] at owner
    contradiction
  · intro i inside occupied
    exact absurd (emptied i inside).1 occupied
  · intro i inside j _ object member
    exact absurd member (none i inside object)
  · intro i inside _
    exact (emptied i inside).2
  · intro i inside object member
    exact absurd member (none i inside object)
  · intro _ i inside
    exact (emptied i inside).1

theorem unchanged_sound (sound : Sound view s) (slots : s'.slots = s.slots)
    (ready : s'.ready = true) (live : s'.live = s.live) : Sound view s' := by
  refine ⟨?_, ?_, ?_⟩
  · rw [slots]
    exact sound.orderly
  · rw [slots, live]
    exact sound.alive
  · intro notReady
    rw [ready] at notReady
    contradiction

theorem held_once {slots : Nat → Slot} {task other : Task} {i j : Nat} {r : Result}
    (orderly : Orderly view slots) (held : Held view slots task i r)
    (too : Held view slots other j r) : task = other := by
  have same : i = j := by
    rcases view.handle_apart i j _ _ r held.handle too.handle with same | ⟨object, left, right⟩
    · exact same
    · exact orderly.apart i held.inside j too.inside object left right
  have owner := held.owner
  rw [same, too.owner] at owner
  exact (Option.some.inj owner).symm

/-- What no two slots have in common they do not have in common after a write of
something that no other slot has. -/
theorem exclusive_update {Item : Type} (has : Slot → Item → Prop) {limit i : Nat}
    {slots : Nat → Slot} {slot : Slot}
    (before : ∀ j < limit, ∀ k < limit, ∀ item, has (slots j) item → has (slots k) item → j = k)
    (new : ∀ j < limit, ∀ item, has slot item → ¬ has (slots j) item) :
    ∀ j < limit, ∀ k < limit, ∀ item, has (Function.update slots i slot j) item →
      has (Function.update slots i slot k) item → j = k := by
  intro j belowJ k belowK item hasJ hasK
  by_cases atJ : j = i <;> by_cases atK : k = i
  · rw [atJ, atK]
  · rw [atJ, Function.update_self] at hasJ
    rw [Function.update_of_ne atK] at hasK
    exact absurd hasK (new k belowK item hasJ)
  · rw [atK, Function.update_self] at hasK
    rw [Function.update_of_ne atJ] at hasJ
    exact absurd hasJ (new j belowJ item hasK)
  · rw [Function.update_of_ne atJ] at hasJ
    rw [Function.update_of_ne atK] at hasK
    exact before j belowJ k belowK item hasJ hasK

theorem filled_objects {slot : Slot} {acts : List (Act Kind Obj)}
    (objects : view.objects slot = (allocated acts).map fun taken => some taken.2) :
    ∀ o ∈ view.objects slot, o ≠ none := by
  intro o member null
  rw [objects, null] at member
  obtain ⟨taken, -, same⟩ := List.mem_map.mp member
  contradiction

end Tables

variable [DecidableEq Obj]

/-- What a call does: the calls it makes in turn, the table after it and its result. -/
inductive Ensured (slots : Nat → Slot) (me : Task) :
    List (Act Kind Obj) → (Nat → Slot) → Option Result → Prop where
  | known {i : Nat} (inside : i < view.limit) (mine : view.owner (slots i) = some me) :
      Ensured slots me [] slots (view.handle i (slots i))
  | crowded (unknown : Unknown view slots me) (crowded : Crowded view slots) :
      Ensured slots me [] slots none
  | failed {acts : List (Act Kind Obj)} (unknown : Unknown view slots me)
      (room : ¬ Crowded view slots) (asked : acts ≠ [])
      (balanced : (freed acts).Perm (allocated acts))
      (released : ∀ live : Finset Obj, Fresh live acts → liveAfter live acts = live) :
      Ensured slots me acts slots none
  | filled {acts : List (Act Kind Obj)} {i : Nat} {slot : Slot} (unknown : Unknown view slots me)
      (inside : i < view.limit) (free : view.owner (slots i) = none) (asked : acts ≠ [])
      (mine : view.owner slot = some me)
      (objects : view.objects slot = (allocated acts).map fun taken => some taken.2)
      (kept : freed acts = []) :
      Ensured slots me acts (Function.update slots i slot) (view.handle i slot)

inductive SlotStep : SlotState Slot Obj → Label Task Result Kind Obj → SlotState Slot Obj →
    Prop where
  | ensured {s s' : SlotState Slot Obj} {me : Task} {result : Option Result}
      {acts : List (Act Kind Obj)} (did : Ensured view s.slots me acts s'.slots result)
      (ready : s'.ready = true) (fresh : Fresh s.live acts)
      (live : s'.live = liveAfter s.live acts) : SlotStep s (.ensure me result acts) s'
  | shutdown {s s' : SlotState Slot Obj} {acts : List (Act Kind Obj)}
      (emptied : Emptied view s'.slots) : SlotStep s (.shutdown acts) s'

section Steps

variable {view} {s s' : SlotState Slot Obj} {me : Task} {result : Option Result}
variable {acts : List (Act Kind Obj)}

/-- A slot that is filled was free, and its objects are not those of another. -/
theorem filled_sound {i : Nat} {slot : Slot} (sound : Sound view s)
    (unknown : Unknown view s.slots me) (mine : view.owner slot = some me)
    (objects : view.objects slot = (allocated acts).map fun taken => some taken.2)
    (kept : freed acts = []) (slots : s'.slots = Function.update s.slots i slot)
    (ready : s'.ready = true) (fresh : Fresh s.live acts)
    (live : s'.live = liveAfter s.live acts) : Sound view s' := by
  obtain ⟨grows, new⟩ := fresh_allocated fresh kept
  have own : ∀ object, some object ∈ view.objects slot → object ∉ s.live ∧ object ∈ s'.live := by
    intro object member
    rw [objects] at member
    obtain ⟨taken, allocated_, same⟩ := List.mem_map.mp member
    cases same
    rw [live]
    exact new taken allocated_
  have here : s'.slots i = slot := by rw [slots, Function.update_self]
  have other : ∀ j, j ≠ i → s'.slots j = s.slots j := by
    intro j differs
    rw [slots, Function.update_of_ne differs]
  refine ⟨⟨?_, ?_, ?_, ?_⟩, ?_, ?_⟩
  · rw [slots]
    refine exclusive_update (fun slot task => view.owner slot = some task) sound.orderly.owners ?_
    intro j below task owner
    rw [mine] at owner
    cases owner
    exact unknown j below
  · intro j below occupied
    by_cases atJ : j = i
    · rw [atJ, here]
      exact filled_objects objects
    · rw [other j atJ] at occupied ⊢
      exact sound.orderly.filled j below occupied
  · rw [slots]
    refine exclusive_update (fun slot object => some object ∈ view.objects slot)
      sound.orderly.apart ?_
    intro j below object member held
    exact (own object member).1 (sound.alive j below object held)
  · intro j below unowned
    by_cases atJ : j = i
    · rw [atJ, here, mine] at unowned
      contradiction
    · rw [other j atJ] at unowned ⊢
      exact sound.orderly.free j below unowned
  · intro j below object member
    by_cases atJ : j = i
    · rw [atJ, here] at member
      exact (own object member).2
    · rw [other j atJ] at member
      rw [live]
      exact grows (sound.alive j below object member)
  · intro notReady
    rw [ready] at notReady
    contradiction

theorem ensured_sound (sound : Sound view s) (did : Ensured view s.slots me acts s'.slots result)
    (ready : s'.ready = true) (fresh : Fresh s.live acts)
    (live : s'.live = liveAfter s.live acts) : Sound view s' := by
  generalize after : s'.slots = slots at did
  cases did with
  | known inside mine => exact unchanged_sound sound after ready live
  | crowded unknown crowded => exact unchanged_sound sound after ready live
  | failed unknown room asked balanced released =>
      exact unchanged_sound sound after ready (live.trans (released _ fresh))
  | filled unknown inside free asked mine objects kept =>
      exact filled_sound sound unknown mine objects kept after ready fresh live

theorem slotStep_sound {label : Label Task Result Kind Obj} (sound : Sound view s)
    (step : SlotStep view s label s') : Sound view s' := by
  cases step with
  | ensured did ready fresh live => exact ensured_sound sound did ready fresh live
  | shutdown emptied => exact emptied_sound emptied

/-- The slot a call fills was free, so every other owner keeps its own. -/
theorem held_ensured {slots after : Nat → Slot} {task : Task} {i : Nat} {r : Result}
    (held : Held view slots task i r) (did : Ensured view slots me acts after result) :
    Held view after task i r := by
  cases did with
  | known inside mine => exact held
  | crowded unknown crowded => exact held
  | failed unknown room asked balanced released => exact held
  | @filled _ j slot unknown inside free asked mine objects kept =>
      have apart : i ≠ j := by
        rintro rfl
        rw [held.owner] at free
        contradiction
      refine ⟨held.inside, ?_, ?_⟩ <;> rw [Function.update_of_ne apart]
      · exact held.owner
      · exact held.handle

theorem ensured_held {slots after : Nat → Slot} {r : Result}
    (did : Ensured view slots me acts after (some r)) : ∃ i, Held view after me i r := by
  generalize answer : some r = result at did
  cases did with
  | known inside mine => exact ⟨_, inside, mine, answer.symm⟩
  | crowded unknown crowded => contradiction
  | failed unknown room asked balanced released => contradiction
  | filled unknown inside free asked mine objects kept =>
      refine ⟨_, inside, ?_, ?_⟩ <;> rw [Function.update_self]
      · exact mine
      · exact answer.symm

theorem held_again {slots after : Nat → Slot} {i : Nat} {r : Result}
    (orderly : Orderly view slots) (held : Held view slots me i r)
    (did : Ensured view slots me acts after result) : result = some r := by
  cases did with
  | @known j inside mine =>
      rw [orderly.owners j inside i held.inside me mine held.owner]
      exact held.handle
  | crowded unknown crowded => exact absurd held.owner (unknown i held.inside)
  | failed unknown room asked balanced released => exact absurd held.owner (unknown i held.inside)
  | filled unknown inside free asked mine objects kept =>
      exact absurd held.owner (unknown i held.inside)

theorem ensured_failing (sound : Sound view s) (did : Ensured view s.slots me acts s'.slots none)
    (fresh : Fresh s.live acts) (live : s'.live = liveAfter s.live acts) :
    s'.slots = s.slots ∧ s'.live = s.live ∧ (freed acts).Perm (allocated acts) := by
  generalize after : s'.slots = slots at did
  generalize answer : none = result at did
  cases did with
  | @known i inside mine =>
      have occupied : view.owner (s.slots i) ≠ none := by simp [mine]
      obtain ⟨r, some_⟩ := view.handle_some i _ (sound.orderly.filled i inside occupied)
      rw [some_] at answer
      contradiction
  | crowded unknown crowded => exact ⟨rfl, live, .refl _⟩
  | failed unknown room asked balanced released =>
      exact ⟨rfl, live.trans (released _ fresh), balanced⟩
  | filled unknown inside free asked mine objects kept =>
      obtain ⟨r, some_⟩ := view.handle_some _ _ (filled_objects objects)
      rw [some_] at answer
      contradiction

theorem ensured_space {slots after : Nat → Slot} (did : Ensured view slots me acts after result)
    (unknown : Unknown view slots me) : (result = none ∧ acts = []) ↔ Crowded view slots := by
  cases did with
  | @known i inside mine => exact absurd mine (unknown i inside)
  | crowded _ crowded => exact iff_of_true ⟨rfl, rfl⟩ crowded
  | failed _ room asked _ _ => exact iff_of_false (fun both => asked both.2) room
  | @filled _ i _ _ inside free asked _ _ _ =>
      exact iff_of_false (fun both => asked both.2) fun crowded => crowded i inside free

theorem ensured_of_step (step : SlotStep view s (.ensure me result acts) s') :
    Ensured view s.slots me acts s'.slots result ∧ Fresh s.live acts ∧
      s'.live = liveAfter s.live acts := by
  cases step with
  | ensured did ready fresh live => exact ⟨did, fresh, live⟩

end Steps

section Runs

variable {view} {start s : SlotState Slot Obj}
variable {step : SlotState Slot Obj → Label Task Result Kind Obj → SlotState Slot Obj → Prop}
variable {history : List (Move (SlotState Slot Obj) (Label Task Result Kind Obj))}

theorem run_sound
    (refines : ∀ s label s', Sound view s → step s label s' → SlotStep view s label s')
    (initially : Sound view start) (trace : Trace step start history s) : Sound view s := by
  refine trace_invariant (Sound view) initially ?_ trace
  intro before label after sound taken
  exact slotStep_sound sound (refines before label after sound taken)

/-- A task keeps its slot through calls of any tasks. -/
theorem held_run
    (refines : ∀ s label s', Sound view s → step s label s' → SlotStep view s label s')
    (sound : Sound view start) {task : Task} {i : Nat} {r : Result}
    (held : Held view start.slots task i r) (trace : Trace step start history s)
    (calls : ∀ move ∈ history, ∀ acts, move.label ≠ .shutdown acts) :
    Held view s.slots task i r := by
  have kept := guarded_invariant (fun _ label => ∀ acts, label ≠ .shutdown acts)
    (fun s => Sound view s ∧ Held view s.slots task i r) ⟨sound, held⟩ ?_ trace calls
  · exact kept.2
  · rintro before label after ⟨now, holds⟩ call taken
    have abstract := refines before label after now taken
    refine ⟨slotStep_sound now abstract, ?_⟩
    cases abstract with
    | ensured did ready fresh live => exact held_ensured holds did
    | shutdown emptied => exact absurd rfl (call _)

theorem guarantees_of_steps
    (refines : ∀ s label s', Sound view s → step s label s' → SlotStep view s label s')
    (initially : Sound view start) (trace : Trace step start history s) :
    Guarantees view history s := by
  have moves : ∀ move ∈ history, Sound view move.before ∧
      SlotStep view move.before move.label move.after := by
    intro move member
    obtain ⟨⟨past, reached⟩, taken⟩ := trace_move trace member
    have sound := run_sound refines initially reached
    exact ⟨sound, refines _ _ _ sound taken⟩
  refine ⟨(run_sound refines initially trace).orderly, ?_, ?_, ?_⟩
  · intro first between rest m₁ m₂ task r acts other result later split call calls again
    rw [split] at trace moves
    obtain ⟨sound₁, step₁⟩ := moves m₁ (by simp)
    obtain ⟨sound₂, step₂⟩ := moves m₂ (by simp)
    rw [call] at step₁
    rw [again] at step₂
    obtain ⟨i, held⟩ := ensured_held (ensured_of_step step₁).1
    -- The slot that `m₁` returned is still there when `m₂` is made.
    obtain ⟨middle, before, after⟩ := trace_append first trace
    obtain ⟨-, -, tail⟩ := trace_cons after
    obtain ⟨now, run, last⟩ := trace_append between tail
    have kept := held_run refines (slotStep_sound sound₁ step₁) held run calls
    rw [← (trace_cons last).1] at kept
    have did := (ensured_of_step step₂).1
    constructor
    · rintro rfl
      obtain ⟨j, too⟩ := ensured_held did
      exact held_once (slotStep_sound sound₂ step₂).orderly too (held_ensured kept did)
    · rintro rfl
      exact held_again sound₂.orderly kept did
  · intro move member me acts call
    obtain ⟨sound, abstract⟩ := moves move member
    rw [call] at abstract
    obtain ⟨did, fresh, live⟩ := ensured_of_step abstract
    exact ensured_failing sound did fresh live
  · intro move member me result acts call unknown
    obtain ⟨sound, abstract⟩ := moves move member
    rw [call] at abstract
    exact ensured_space (ensured_of_step abstract).1 unknown

/-- The objects of a slot were allocated in a call of its owner. -/
theorem objects_granted
    (refines : ∀ s label s', Sound view s → step s label s' → SlotStep view s label s')
    (initially : Emptied view start.slots) (trace : Trace step start history s) :
    ∀ i < view.limit, ∀ task object, view.owner (s.slots i) = some task →
      some object ∈ view.objects (s.slots i) → (task, object) ∈ grants history := by
  induction trace with
  | nil =>
      intro i inside task object owner
      rw [(initially i inside).1] at owner
      contradiction
  | @snoc history before after label past taken ih =>
      intro i inside task object owner member
      rw [grants_snoc, List.mem_append]
      have earlier := ih i inside task object
      have abstract := refines _ _ _ (run_sound refines (emptied_sound initially) past) taken
      cases abstract with
      | ensured did ready fresh live =>
          generalize after.slots = slots at did owner member
          cases did with
          | known inside mine => exact Or.inl (earlier owner member)
          | crowded unknown crowded => exact Or.inl (earlier owner member)
          | failed unknown room asked balanced released => exact Or.inl (earlier owner member)
          | @filled acts j slot unknown _ free asked mine objects kept =>
              by_cases here : i = j
              · rw [here, Function.update_self] at owner member
                rw [mine] at owner
                cases owner
                rw [objects] at member
                obtain ⟨got, listed, same⟩ := List.mem_map.mp member
                cases same
                exact Or.inr (List.mem_map.mpr ⟨got, listed, rfl⟩)
              · rw [Function.update_of_ne here] at owner member
                exact Or.inl (earlier owner member)
      | shutdown emptied =>
          rw [(emptied i inside).1] at owner
          contradiction

/-- Where calls return objects, one that is returned was allocated for the caller. -/
theorem results_granted {view : View Task Slot Obj Obj}
    {step : SlotState Slot Obj → Label Task Obj Kind Obj → SlotState Slot Obj → Prop}
    {history : List (Move (SlotState Slot Obj) (Label Task Obj Kind Obj))}
    (direct : ∀ i slot object, view.handle i slot = some object → some object ∈ view.objects slot)
    (refines : ∀ s label s', Sound view s → step s label s' → SlotStep view s label s')
    (initially : Emptied view start.slots) (trace : Trace step start history s) :
    ∀ move ∈ history, ∀ task object acts, move.label = .ensure task (some object) acts →
      (task, object) ∈ grants history := by
  induction trace with
  | nil => simp
  | @snoc history before after label past taken ih =>
      have whole := objects_granted refines initially (past.snoc taken)
      intro move member task object acts call
      rcases List.mem_append.mp member with old | new
      · rw [grants_snoc]
        exact List.mem_append_left _ (ih move old task object acts call)
      · rw [List.mem_singleton.mp new] at call
        cases call
        have abstract := refines _ _ _ (run_sound refines (emptied_sound initially) past) taken
        obtain ⟨i, held⟩ := ensured_held (ensured_of_step abstract).1
        exact whole i held.inside task object held.owner (direct i _ object held.handle)

end Runs

end Netstack.TaskSlots
