import Mathlib.Data.List.Basic
import Mathlib.Data.Nat.ModEq
import Mathlib.Tactic.Common
import Netstack.Transition

/-!
The descriptor ring of `netdev_ring.c`, with one producer and one consumer. Every
load and store of `head`, `tail` or a slot is a step of its own, on sequentially
consistent memory. The sequence numbers are 64 bits wide and wrap; the proofs
count what was published and consumed without a bound, and the ring size divides
2^64, so the slot of a number is the slot of its count.
-/

namespace Netstack.NetdevRing

open Transition

variable {Buf : Type}

/-- `struct NetDevRing`; an index at or past `ringSize` is outside the array. -/
structure NetDevRing (Buf : Type) where
  slots : Nat → Buf
  ringSize : UInt32
  head : UInt64
  tail : UInt64

/-- `memory` is what `osal_malloc` returned, with the contents it has. -/
def netdevRingInit (ringSize : UInt32) (memory : Option (Nat → Buf)) : Option (NetDevRing Buf) :=
  if ringSize = 0 ∨ ringSize &&& (ringSize - 1) ≠ 0 then none
  else memory.map fun slots => ⟨slots, ringSize, 0, 0⟩

/-- Where `netdev_ring_publish` is, with the values it has read. -/
inductive Producer (Buf : Type) where
  | idle
  | loadTail (b : Buf) (head : UInt64)
  | storeSlot (b : Buf) (head : UInt64)
  | storeHead (b : Buf) (head : UInt64)

/-- Where `netdev_ring_consume` is. -/
inductive Consumer (Buf : Type) where
  | idle
  | loadHead (tail : UInt64)
  | loadSlot (tail : UInt64)
  | storeTail (out : Buf) (tail : UInt64)

structure State (Buf : Type) where
  ring : NetDevRing Buf
  producer : Producer Buf
  consumer : Consumer Buf

inductive Event (Buf : Type) where
  | publish (b : Buf)
  | loadTail
  | storeSlot
  | storeHead
  | consume
  | loadHead
  | loadSlot
  | storeTail

def NetDevRing.index (ring : NetDevRing Buf) (seq : UInt64) : Nat :=
  (seq % ring.ringSize.toUInt64).toNat

def step (s : State Buf) : Event Buf → Option (State Buf)
  | .publish b =>
      match s.producer with
      | .idle => some { s with producer := .loadTail b s.ring.head }
      | _ => none
  -- The comparison follows the load; a full ring returns -1.
  | .loadTail =>
      match s.producer with
      | .loadTail b head =>
          if head - s.ring.tail ≥ s.ring.ringSize.toUInt64 then some { s with producer := .idle }
          else some { s with producer := .storeSlot b head }
      | _ => none
  | .storeSlot =>
      match s.producer with
      | .storeSlot b head => some { s with
          ring := { s.ring with slots := Function.update s.ring.slots (s.ring.index head) b }
          producer := .storeHead b head }
      | _ => none
  | .storeHead =>
      match s.producer with
      | .storeHead _ head =>
          some { s with ring := { s.ring with head := head + 1 }, producer := .idle }
      | _ => none
  | .consume =>
      match s.consumer with
      | .idle => some { s with consumer := .loadHead s.ring.tail }
      | _ => none
  -- An empty ring returns -1.
  | .loadHead =>
      match s.consumer with
      | .loadHead tail =>
          if tail = s.ring.head then some { s with consumer := .idle }
          else some { s with consumer := .loadSlot tail }
      | _ => none
  | .loadSlot =>
      match s.consumer with
      | .loadSlot tail =>
          some { s with consumer := .storeTail (s.ring.slots (s.ring.index tail)) tail }
      | _ => none
  | .storeTail =>
      match s.consumer with
      | .storeTail _ tail =>
          some { s with ring := { s.ring with tail := tail + 1 }, consumer := .idle }
      | _ => none

def Steps (s : State Buf) (e : Event Buf) (s' : State Buf) : Prop := step s e = some s'

/-- Every step there is, one constructor for each way through `step`. -/
inductive Effect (s : State Buf) : Event Buf → State Buf → Prop where
  | called {b : Buf} (pc : s.producer = .idle) :
      Effect s (.publish b) { s with producer := .loadTail b s.ring.head }
  | full {b : Buf} {head : UInt64} (pc : s.producer = .loadTail b head)
      (full : head - s.ring.tail ≥ s.ring.ringSize.toUInt64) :
      Effect s .loadTail { s with producer := .idle }
  | room {b : Buf} {head : UInt64} (pc : s.producer = .loadTail b head)
      (room : ¬ head - s.ring.tail ≥ s.ring.ringSize.toUInt64) :
      Effect s .loadTail { s with producer := .storeSlot b head }
  | stored {b : Buf} {head : UInt64} (pc : s.producer = .storeSlot b head) :
      Effect s .storeSlot { s with
        ring := { s.ring with slots := Function.update s.ring.slots (s.ring.index head) b }
        producer := .storeHead b head }
  | published {b : Buf} {head : UInt64} (pc : s.producer = .storeHead b head) :
      Effect s .storeHead { s with ring := { s.ring with head := head + 1 }, producer := .idle }
  | polled (pc : s.consumer = .idle) :
      Effect s .consume { s with consumer := .loadHead s.ring.tail }
  | empty {tail : UInt64} (pc : s.consumer = .loadHead tail) (empty : tail = s.ring.head) :
      Effect s .loadHead { s with consumer := .idle }
  | some_ {tail : UInt64} (pc : s.consumer = .loadHead tail) (some_ : ¬ tail = s.ring.head) :
      Effect s .loadHead { s with consumer := .loadSlot tail }
  | loaded {tail : UInt64} (pc : s.consumer = .loadSlot tail) :
      Effect s .loadSlot
        { s with consumer := .storeTail (s.ring.slots (s.ring.index tail)) tail }
  | consumed {out : Buf} {tail : UInt64} (pc : s.consumer = .storeTail out tail) :
      Effect s .storeTail { s with ring := { s.ring with tail := tail + 1 }, consumer := .idle }

theorem effect_of_step {s s' : State Buf} {e : Event Buf} (stepped : step s e = some s') :
    Effect s e s' := by
  cases e with
  | publish b =>
      simp only [step] at stepped
      split at stepped
      · rename_i pc
        cases stepped
        exact .called pc
      · contradiction
  | loadTail =>
      simp only [step] at stepped
      split at stepped
      · rename_i pc
        split_ifs at stepped with full
        · cases stepped
          exact .full pc full
        · cases stepped
          exact .room pc full
      · contradiction
  | storeSlot =>
      simp only [step] at stepped
      split at stepped
      · rename_i pc
        cases stepped
        exact .stored pc
      · contradiction
  | storeHead =>
      simp only [step] at stepped
      split at stepped
      · rename_i pc
        cases stepped
        exact .published pc
      · contradiction
  | consume =>
      simp only [step] at stepped
      split at stepped
      · rename_i pc
        cases stepped
        exact .polled pc
      · contradiction
  | loadHead =>
      simp only [step] at stepped
      split at stepped
      · rename_i pc
        split_ifs at stepped with empty
        · cases stepped
          exact .empty pc empty
        · cases stepped
          exact .some_ pc empty
      · contradiction
  | loadSlot =>
      simp only [step] at stepped
      split at stepped
      · rename_i pc
        cases stepped
        exact .loaded pc
      · contradiction
  | storeTail =>
      simp only [step] at stepped
      split at stepped
      · rename_i pc
        cases stepped
        exact .consumed pc
      · contradiction

/-- The buffers of the calls that returned zero, in order. -/
structure Traffic (Buf : Type) where
  published : List Buf
  consumed : List Buf

def Traffic.empty : Traffic Buf := ⟨[], []⟩

def publishing (s : State Buf) : Event Buf → Option Buf
  | .storeHead =>
      match s.producer with
      | .storeHead b _ => some b
      | _ => none
  | _ => none

def consuming (s : State Buf) : Event Buf → Option Buf
  | .storeTail =>
      match s.consumer with
      | .storeTail out _ => some out
      | _ => none
  | _ => none

def Traffic.record (traffic : Traffic Buf) (move : Move (State Buf) (Event Buf)) : Traffic Buf where
  published := traffic.published ++ (publishing move.before move.label).toList
  consumed := traffic.consumed ++ (consuming move.before move.label).toList

/-! Sequence numbers. -/

theorem distance {fewer more : Nat} (ordered : fewer ≤ more) (near : more - fewer < 2 ^ 64) :
    (UInt64.ofNat more - UInt64.ofNat fewer).toNat = more - fewer := by
  rw [UInt64.toNat_sub, UInt64.toNat_ofNat', UInt64.toNat_ofNat']
  omega

theorem ofNat_inj {fewer more : Nat} (ordered : fewer ≤ more) (near : more - fewer < 2 ^ 64)
    (same : UInt64.ofNat fewer = UInt64.ofNat more) : fewer = more := by
  have apart := distance ordered near
  rw [same, UInt64.sub_self] at apart
  simp only [UInt64.toNat_zero] at apart
  omega

theorem ofNat_succ (count : Nat) : UInt64.ofNat count + 1 = UInt64.ofNat (count + 1) := by
  rw [UInt64.ofNat_add]
  rfl

/-- What `netdev_ring_init` accepts. -/
structure SizeSound (size : UInt32) : Prop where
  positive : 0 < size.toNat
  divides : size.toNat ∣ 2 ^ 64

theorem size_sound {size : UInt32} (nonzero : size ≠ 0) (power : size &&& (size - 1) = 0) :
    SizeSound size := by
  have positive : size.toNat ≠ 0 := by
    intro zero
    exact nonzero (UInt32.toNat_inj.mp zero)
  have bits : size.toNat &&& (size.toNat - 1) = 0 := by
    have same := congrArg UInt32.toNat power
    rw [UInt32.toNat_and, UInt32.toNat_sub_of_le] at same
    · exact same
    · rw [UInt32.le_iff_toNat_le]
      exact Nat.one_le_iff_ne_zero.mpr positive
  obtain ⟨k, exact_⟩ := (Nat.and_sub_one_eq_zero_iff_isPowerOfTwo positive).mp bits
  refine ⟨Nat.pos_of_ne_zero positive, ?_⟩
  rw [exact_]
  refine Nat.pow_dvd_pow 2 ?_
  have small := size.toNat_lt
  rw [exact_, Nat.pow_lt_pow_iff_right (by decide)] at small
  omega

theorem index_ofNat {ring : NetDevRing Buf} (size : SizeSound ring.ringSize) (count : Nat) :
    ring.index (UInt64.ofNat count) = count % ring.ringSize.toNat := by
  rw [NetDevRing.index, UInt64.toNat_mod, UInt64.toNat_ofNat', UInt32.toNat_toUInt64]
  exact Nat.mod_mod_of_dvd count size.divides

/-- Two counts less than a ring apart have different slots. -/
theorem slot_injective {size first second : Nat} (ordered : first ≤ second)
    (near : second < first + size) (same : first % size = second % size) : first = second := by
  have multiple : size ∣ second - first := (Nat.modEq_iff_dvd' ordered).mp same
  have zero := Nat.eq_zero_of_dvd_of_lt multiple (by omega)
  omega

/-- What the producer has read still holds: its copy of `head` is exact, and the
room it saw can only have grown. -/
def Producer.Sound (ring : NetDevRing Buf) (published consumed : Nat) : Producer Buf → Prop
  | .idle => True
  | .loadTail _ head => head = UInt64.ofNat published
  | .storeSlot _ head =>
      head = UInt64.ofNat published ∧ published < consumed + ring.ringSize.toNat
  | .storeHead b head =>
      head = UInt64.ofNat published ∧ published < consumed + ring.ringSize.toNat ∧
        ring.slots (published % ring.ringSize.toNat) = b

/-- What the consumer has read still holds: its copy of `tail` is exact, and what
it saw published stays published. -/
def Consumer.Sound (published : List Buf) (consumed : Nat) : Consumer Buf → Prop
  | .idle => True
  | .loadHead tail => tail = UInt64.ofNat consumed
  | .loadSlot tail => tail = UInt64.ofNat consumed ∧ consumed < published.length
  | .storeTail out tail => tail = UInt64.ofNat consumed ∧ published[consumed]? = some out

theorem Producer.Sound.drained {ring : NetDevRing Buf} {published consumed : Nat}
    {producer : Producer Buf} (sound : producer.Sound ring published consumed) :
    producer.Sound ring published (consumed + 1) := by
  cases producer with
  | idle => trivial
  | loadTail b head => exact sound
  | storeSlot b head =>
      obtain ⟨copy, room⟩ := sound
      exact ⟨copy, by omega⟩
  | storeHead b head =>
      obtain ⟨copy, room, stored⟩ := sound
      exact ⟨copy, by omega, stored⟩

theorem Consumer.Sound.filled {published : List Buf} {consumed : Nat} {consumer : Consumer Buf}
    (sound : consumer.Sound published consumed) (b : Buf) :
    consumer.Sound (published ++ [b]) consumed := by
  cases consumer with
  | idle => trivial
  | loadHead tail => exact sound
  | loadSlot tail =>
      obtain ⟨copy, some_⟩ := sound
      refine ⟨copy, ?_⟩
      rw [List.length_append]
      exact Nat.lt_add_right _ some_
  | storeTail out tail =>
      obtain ⟨copy, there⟩ := sound
      obtain ⟨below, -⟩ := List.getElem?_eq_some_iff.mp there
      refine ⟨copy, ?_⟩
      rw [List.getElem?_append_left below]
      exact there

structure Flow (size : UInt32) (traffic : Traffic Buf) (s : State Buf) : Prop where
  sound : SizeSound s.ring.ringSize
  sized : s.ring.ringSize = size
  head : s.ring.head = UInt64.ofNat traffic.published.length
  tail : s.ring.tail = UInt64.ofNat traffic.consumed.length
  order : traffic.consumed <+: traffic.published
  room : traffic.published.length ≤ traffic.consumed.length + s.ring.ringSize.toNat
  slots : ∀ k b, traffic.consumed.length ≤ k → traffic.published[k]? = some b →
    s.ring.slots (k % s.ring.ringSize.toNat) = b
  producer : s.producer.Sound s.ring traffic.published.length traffic.consumed.length
  consumer : s.consumer.Sound traffic.published traffic.consumed.length

section Flow

variable {size : UInt32} {traffic : Traffic Buf} {s s' : State Buf} {b : Buf} {seq : UInt64}

theorem Flow.bounds (flow : Flow size traffic s) :
    traffic.consumed.length ≤ traffic.published.length ∧
      traffic.published.length - traffic.consumed.length < 2 ^ 64 := by
  have small := s.ring.ringSize.toNat_lt
  have room := flow.room
  have ordered := flow.order.length_le
  omega

/-- The difference of the two sequence numbers is the number of buffers queued. -/
theorem Flow.occupancy (flow : Flow size traffic s) :
    (s.ring.head - s.ring.tail).toNat =
      traffic.published.length - traffic.consumed.length := by
  rw [flow.head, flow.tail]
  exact distance flow.bounds.1 flow.bounds.2

theorem Flow.full_iff (flow : Flow size traffic s) :
    s.ring.head - s.ring.tail ≥ s.ring.ringSize.toUInt64 ↔
      traffic.published.length = traffic.consumed.length + s.ring.ringSize.toNat := by
  have room := flow.room
  have ordered := flow.bounds.1
  rw [ge_iff_le, UInt64.le_iff_toNat_le, flow.occupancy, UInt32.toNat_toUInt64]
  omega

theorem Flow.empty_iff (flow : Flow size traffic s) :
    s.ring.tail = s.ring.head ↔ traffic.consumed.length = traffic.published.length := by
  rw [flow.head, flow.tail]
  constructor
  · exact ofNat_inj flow.bounds.1 flow.bounds.2
  · exact congrArg UInt64.ofNat

/-- The copy a call has taken of its own sequence number is exact. -/
theorem Flow.head_copy (flow : Flow size traffic s) (pc : s.producer = .loadTail b seq) :
    seq = s.ring.head := by
  have sound := flow.producer
  rw [pc] at sound
  exact Eq.trans sound flow.head.symm

theorem Flow.tail_copy (flow : Flow size traffic s) (pc : s.consumer = .loadHead seq) :
    seq = s.ring.tail := by
  have sound := flow.consumer
  rw [pc] at sound
  exact Eq.trans sound flow.tail.symm

theorem Flow.loadTail (flow : Flow size traffic s) (pc : s.producer = .loadTail b seq)
    (room : ¬ seq - s.ring.tail ≥ s.ring.ringSize.toUInt64) :
    Flow size traffic { s with producer := .storeSlot b seq } := by
  have copy := flow.head_copy pc
  rw [copy, flow.full_iff] at room
  refine { flow with producer := ⟨copy.trans flow.head, ?_⟩ }
  have bound := flow.room
  change traffic.published.length < traffic.consumed.length + s.ring.ringSize.toNat
  omega

/-- The slot of the next number holds no buffer that is still queued. -/
theorem Flow.slot_free (flow : Flow size traffic s) (pc : s.producer = .storeSlot b seq) {k : Nat}
    (queued : traffic.consumed.length ≤ k) (below : k < traffic.published.length) :
    k % s.ring.ringSize.toNat ≠ s.ring.index seq := by
  have sound := flow.producer
  rw [pc] at sound
  obtain ⟨copy, room⟩ := sound
  rw [copy, index_ofNat flow.sound]
  intro same
  have equal := slot_injective (le_of_lt below) (by omega) same
  omega

theorem Flow.storeSlot (flow : Flow size traffic s) (pc : s.producer = .storeSlot b seq) :
    Flow size traffic { s with
      ring := { s.ring with slots := Function.update s.ring.slots (s.ring.index seq) b }
      producer := .storeHead b seq } := by
  have sound := flow.producer
  rw [pc] at sound
  obtain ⟨copy, room⟩ := sound
  refine { flow with slots := ?_, producer := ⟨copy, room, ?_⟩ }
  · intro k c queued there
    obtain ⟨below, -⟩ := List.getElem?_eq_some_iff.mp there
    have apart := flow.slot_free pc queued below
    exact (Function.update_of_ne apart b s.ring.slots).trans (flow.slots k c queued there)
  · rw [copy, index_ofNat flow.sound]
    exact Function.update_self ..

theorem Flow.storeHead (flow : Flow size traffic s) (pc : s.producer = .storeHead b seq) :
    Flow size { traffic with published := traffic.published ++ [b] }
      { s with ring := { s.ring with head := seq + 1 }, producer := .idle } := by
  have sound := flow.producer
  rw [pc] at sound
  obtain ⟨copy, room, stored⟩ := sound
  refine { flow with
    head := ?_, order := ?_, room := ?_, slots := ?_, producer := trivial, consumer := ?_ }
  · rw [List.length_append, List.length_singleton, ← ofNat_succ, copy]
  · exact flow.order.trans (List.prefix_append ..)
  · rw [List.length_append, List.length_singleton]
    exact room
  · intro k c queued there
    rcases Nat.lt_or_ge k traffic.published.length with old | new
    · rw [List.getElem?_append_left old] at there
      exact flow.slots k c queued there
    · rw [List.getElem?_append_right new] at there
      obtain ⟨small, -⟩ := List.getElem?_eq_some_iff.mp there
      rw [List.length_singleton] at small
      have last : k = traffic.published.length := by omega
      rw [last, Nat.sub_self] at there
      rw [last]
      exact stored.trans (Option.some.inj there)
  · exact flow.consumer.filled b

theorem Flow.loadHead (flow : Flow size traffic s) (pc : s.consumer = .loadHead seq)
    (some_ : seq ≠ s.ring.head) : Flow size traffic { s with consumer := .loadSlot seq } := by
  have copy := flow.tail_copy pc
  rw [copy, Ne, flow.empty_iff] at some_
  exact { flow with
    consumer := ⟨copy.trans flow.tail, Nat.lt_of_le_of_ne flow.bounds.1 some_⟩ }

theorem Flow.loadSlot (flow : Flow size traffic s) (pc : s.consumer = .loadSlot seq) :
    Flow size traffic { s with consumer := .storeTail (s.ring.slots (s.ring.index seq)) seq } := by
  have sound := flow.consumer
  rw [pc] at sound
  obtain ⟨copy, some_⟩ := sound
  refine { flow with consumer := ⟨copy, ?_⟩ }
  have there := List.getElem?_eq_getElem some_
  rw [copy, index_ofNat flow.sound, flow.slots _ _ (Nat.le_refl _) there]
  exact there

theorem Flow.storeTail (flow : Flow size traffic s) (pc : s.consumer = .storeTail b seq) :
    Flow size { traffic with consumed := traffic.consumed ++ [b] }
      { s with ring := { s.ring with tail := seq + 1 }, consumer := .idle } := by
  have sound := flow.consumer
  rw [pc] at sound
  obtain ⟨copy, there⟩ := sound
  have length : (traffic.consumed ++ [b]).length = traffic.consumed.length + 1 := by simp
  refine { flow with
    tail := ?_, order := ?_, room := ?_, slots := ?_, producer := ?_, consumer := trivial }
  · rw [length, ← ofNat_succ, copy]
  · obtain ⟨rest, split⟩ := flow.order
    rw [← split, List.getElem?_append_right (Nat.le_refl _), Nat.sub_self] at there
    obtain ⟨tail, rfl⟩ : ∃ tail, rest = b :: tail := List.head?_eq_some_iff.mp (by
      rw [List.head?_eq_getElem?]
      exact there)
    exact ⟨tail, by rw [← split, List.append_assoc, List.singleton_append]⟩
  · rw [length]
    exact Nat.le_trans flow.room (Nat.add_le_add_right (Nat.le_succ _) _)
  · intro k c queued inside
    rw [length] at queued
    exact flow.slots k c (Nat.le_of_succ_le queued) inside
  · rw [length]
    exact flow.producer.drained

/-- What a step may do besides keeping the flow: a store into a slot hits no queued
buffer and stays inside the array, and a call returns -1 exactly when the ring is
full or empty. -/
def Exact (traffic : Traffic Buf) (move : Move (State Buf) (Event Buf)) : Prop :=
  match move.label with
  | .storeSlot => ∀ b head, move.before.producer = .storeSlot b head →
      move.before.ring.index head < move.before.ring.ringSize.toNat ∧
        ∀ k, traffic.consumed.length ≤ k → k < traffic.published.length →
          k % move.before.ring.ringSize.toNat ≠ move.before.ring.index head
  | .loadTail => move.after.producer = .idle ↔ traffic.published.length =
      traffic.consumed.length + move.before.ring.ringSize.toNat
  | .loadHead => move.after.consumer = .idle ↔
      traffic.consumed.length = traffic.published.length
  | _ => True

theorem index_inside {ring : NetDevRing Buf} (size : SizeSound ring.ringSize) (seq : UInt64) :
    ring.index seq < ring.ringSize.toNat := by
  rw [NetDevRing.index, UInt64.toNat_mod, UInt32.toNat_toUInt64]
  exact Nat.mod_lt _ size.positive

theorem record_quiet (e : Event Buf) (unpublished : publishing s e = none)
    (unconsumed : consuming s e = none) : traffic.record ⟨s, e, s'⟩ = traffic := by
  simp [Traffic.record, unpublished, unconsumed]

theorem effect_flow {e : Event Buf} (flow : Flow size traffic s) (effect : Effect s e s') :
    Flow size (traffic.record ⟨s, e, s'⟩) s' := by
  cases effect with
  | called pc =>
      rw [record_quiet _ rfl rfl]
      exact { flow with producer := flow.head }
  | full pc full =>
      rw [record_quiet _ rfl rfl]
      exact { flow with producer := trivial }
  | room pc room =>
      rw [record_quiet _ rfl rfl]
      exact flow.loadTail pc room
  | stored pc =>
      rw [record_quiet _ rfl rfl]
      exact flow.storeSlot pc
  | published pc =>
      simpa [Traffic.record, publishing, consuming, pc] using flow.storeHead pc
  | polled pc =>
      rw [record_quiet _ rfl rfl]
      exact { flow with consumer := flow.tail }
  | empty pc empty =>
      rw [record_quiet _ rfl rfl]
      exact { flow with consumer := trivial }
  | some_ pc some_ =>
      rw [record_quiet _ rfl rfl]
      exact flow.loadHead pc some_
  | loaded pc =>
      rw [record_quiet _ rfl rfl]
      exact flow.loadSlot pc
  | consumed pc =>
      simpa [Traffic.record, publishing, consuming, pc] using flow.storeTail pc

theorem effect_exact {e : Event Buf} (flow : Flow size traffic s) (effect : Effect s e s') :
    Exact traffic ⟨s, e, s'⟩ := by
  cases effect with
  | stored pc =>
      intro b head pc
      exact ⟨index_inside flow.sound head, fun k queued below => flow.slot_free pc queued below⟩
  | full pc full =>
      rw [flow.head_copy pc] at full
      exact iff_of_true rfl (flow.full_iff.mp full)
  | room pc room =>
      rw [flow.head_copy pc] at room
      exact iff_of_false (by simp) (mt flow.full_iff.mpr room)
  | empty pc empty =>
      rw [flow.tail_copy pc] at empty
      exact iff_of_true rfl (flow.empty_iff.mp empty)
  | some_ pc some_ =>
      rw [flow.tail_copy pc] at some_
      exact iff_of_false (by simp) (mt flow.empty_iff.mpr some_)
  | called | published | polled | loaded | consumed => trivial

end Flow

theorem init_flow {size : UInt32} {memory : Option (Nat → Buf)} {ring : NetDevRing Buf}
    (started : netdevRingInit size memory = some ring) :
    Flow size Traffic.empty ⟨ring, .idle, .idle⟩ := by
  simp only [netdevRingInit] at started
  split_ifs at started with refused
  obtain ⟨nonzero, power⟩ := not_or.mp refused
  obtain ⟨slots, -, rfl⟩ := Option.map_eq_some_iff.mp started
  refine ⟨size_sound nonzero (not_not.mp power), rfl, rfl, rfl, List.prefix_refl _, ?_, ?_, trivial,
    trivial⟩
  · simp [Traffic.empty]
  · simp [Traffic.empty]

/-- The ring is a bounded queue in every interleaving of one producer and one
consumer, however often the sequence numbers wrap. What was consumed is a prefix
of what was published, the difference of the sequence numbers is the number of
buffers between, which never passes the ring size, every queued buffer is in its
slot, and no store into a slot hits a queued buffer. -/
theorem ring_is_bounded_queue {size : UInt32} {memory : Option (Nat → Buf)} {ring : NetDevRing Buf}
    (started : netdevRingInit size memory = some ring)
    {history : List (Move (State Buf) (Event Buf))} {now : State Buf}
    (trace : Trace Steps ⟨ring, .idle, .idle⟩ history now) :
    (history.foldl Traffic.record Traffic.empty).consumed <+:
        (history.foldl Traffic.record Traffic.empty).published ∧
      (now.ring.head - now.ring.tail).toNat =
        (history.foldl Traffic.record Traffic.empty).published.length -
          (history.foldl Traffic.record Traffic.empty).consumed.length ∧
      now.ring.head - now.ring.tail ≤ size.toUInt64 ∧
      (∀ k b, (history.foldl Traffic.record Traffic.empty).consumed.length ≤ k →
        (history.foldl Traffic.record Traffic.empty).published[k]? = some b →
          now.ring.slots (k % size.toNat) = b) ∧
      Along Traffic.record Exact Traffic.empty history := by
  have unguarded : Along Traffic.record (fun _ _ => True) Traffic.empty history :=
    along_of_forall _ fun _ _ => trivial
  obtain ⟨flow, along⟩ := observed_invariant (Flow size) (fun _ _ => True) (init_flow started)
    (fun _ _ _ _ flow taken _ => effect_flow flow (effect_of_step taken))
    (fun _ _ _ _ flow taken _ => effect_exact flow (effect_of_step taken)) trace unguarded
  have same := flow.sized
  subst same
  refine ⟨flow.order, flow.occupancy, ?_, flow.slots, along⟩
  rw [UInt64.le_iff_toNat_le, flow.occupancy, UInt32.toNat_toUInt64]
  have room := flow.room
  omega

/-- Two publishes and a refused third on a ring of two, with a consume between
the loads of the third and its stores. -/
def overlapping : List (Event Nat) :=
  [.publish 7, .loadTail, .storeSlot, .storeHead, .publish 8, .loadTail, .storeSlot, .storeHead,
    .publish 9, .consume, .loadTail, .loadHead, .loadSlot, .storeTail, .publish 9, .loadTail,
    .consume, .storeSlot, .loadHead, .loadSlot, .storeTail, .storeHead]

theorem overlapping_calls_keep_order :
    ∃ ring history now, netdevRingInit 2 (some fun _ => 0) = some ring ∧
      Trace Steps ⟨ring, .idle, .idle⟩ history now ∧
      (history.foldl Traffic.record Traffic.empty).published = [7, 8, 9] ∧
      (history.foldl Traffic.record Traffic.empty).consumed = [7, 8] ∧
      now.ring.slots 0 = 9 ∧ Along Traffic.record Exact Traffic.empty history := by
  have done : ((follow step [] ⟨⟨fun _ => 0, 2, 0, 0⟩, .idle, .idle⟩ overlapping).map fun out =>
      ((out.1.foldl Traffic.record Traffic.empty).published,
        (out.1.foldl Traffic.record Traffic.empty).consumed)) = some ([7, 8, 9], [7, 8]) := by
    decide +kernel
  obtain ⟨⟨history, now⟩, followed, checks⟩ := Option.map_eq_some_iff.mp done
  obtain ⟨published, consumed⟩ := Prod.ext_iff.mp checks
  have started : netdevRingInit 2 (some fun _ => 0) = some ⟨fun _ => 0, 2, 0, 0⟩ := by
    rw [netdevRingInit, if_neg (by decide)]
    rfl
  have trace : Trace Steps ⟨⟨fun _ => 0, 2, 0, 0⟩, .idle, .idle⟩ history now :=
    follow_trace .nil followed
  obtain ⟨-, -, -, slots, along⟩ := ring_is_bounded_queue started trace
  refine ⟨_, history, now, started, trace, published, consumed, slots 2 9 ?_ ?_, along⟩
  · simp only at consumed
    rw [consumed]
    decide
  · simp only at published
    rw [published]
    rfl

end Netstack.NetdevRing
