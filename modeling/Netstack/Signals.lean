import Mathlib.Data.Finset.Card
import Mathlib.Data.Fintype.Basic
import Mathlib.Data.List.Nodup
import Mathlib.Tactic.Common

/-!
Signal bits of exec tasks. A task has 32 of them; an action allocates a bit of the
task that runs it, frees one, sends signals or waits for them. The bits a piece of
code has allocated and not freed are written down task by task: `settle` follows a
list of actions and stops at a free of a bit that is not written down. The books
that `settle` keeps are what the tasks hold beyond what they held before.
-/

namespace Netstack.Signals

variable {Task : Type}

inductive Act (Task : Type) where
  | allocSignal (t : Task) (bit : Fin 32)
  | freeSignal (t : Task) (bit : Fin 32)
  | signal (t : Task) (mask : UInt32)
  | wait (t : Task) (mask : UInt32)
  deriving DecidableEq

/-- The bit of that number in the 32 of a task. -/
def signalBit (number : Nat) : Fin 32 := ⟨number % 32, Nat.mod_lt number (by decide)⟩

def sigMask (bit : Fin 32) : UInt32 := 1 <<< UInt32.ofNat bit

theorem sigMask_injective : Function.Injective sigMask := by
  have distinct : ∀ first second, sigMask first = sigMask second → first = second := by
    decide +kernel
  exact fun first second => distinct first second

theorem sigMask_ne_zero (bit : Fin 32) : sigMask bit ≠ 0 := by
  revert bit
  decide +kernel

/-- The tasks hold what they held in `base` and the bits on the books. -/
structure Books (base : Task → Finset (Fin 32)) (owned : List (Task × Fin 32))
    (held : Task → Finset (Fin 32)) : Prop where
  nodup : owned.Nodup
  apart : ∀ t bit, (t, bit) ∈ owned → bit ∉ base t
  holds : ∀ t bit, bit ∈ held t ↔ bit ∈ base t ∨ (t, bit) ∈ owned

theorem books_start (base : Task → Finset (Fin 32)) : Books base [] base :=
  ⟨List.nodup_nil, nofun, by simp⟩

/-- Empty books are balanced books. -/
theorem Books.balanced {base held : Task → Finset (Fin 32)} (books : Books base [] held) :
    held = base := by
  funext t
  ext bit
  rw [books.holds]
  simp

/-- The order on the books does not matter. -/
theorem Books.congr {base held : Task → Finset (Fin 32)} {owned other : List (Task × Fin 32)}
    (books : Books base owned held) (nodup : other.Nodup)
    (same : ∀ entry, entry ∈ other ↔ entry ∈ owned) : Books base other held :=
  ⟨nodup, fun t bit member => books.apart t bit ((same _).mp member),
    fun t bit => by rw [books.holds, same]⟩

variable [DecidableEq Task]

def Act.run (held : Task → Finset (Fin 32)) : Act Task → Task → Finset (Fin 32)
  | .allocSignal t bit => Function.update held t (insert bit (held t))
  | .freeSignal t bit => Function.update held t ((held t).erase bit)
  | .signal _ _ | .wait _ _ => held

def run (held : Task → Finset (Fin 32)) (acts : List (Act Task)) : Task → Finset (Fin 32) :=
  acts.foldl Act.run held

/-- AllocSignal returns a bit that the task does not hold. -/
def Act.fresh (held : Task → Finset (Fin 32)) : Act Task → Bool
  | .allocSignal t bit => bit ∉ held t
  | _ => true

def fresh (held : Task → Finset (Fin 32)) : List (Act Task) → Bool
  | [] => true
  | act :: rest => act.fresh held && fresh (act.run held) rest

/-- `none` is a free of a bit that the task has not allocated, or has freed before. -/
def settle : List (Task × Fin 32) → List (Act Task) → Option (List (Task × Fin 32))
  | owned, [] => some owned
  | owned, .allocSignal t bit :: rest => settle ((t, bit) :: owned) rest
  | owned, .freeSignal t bit :: rest =>
      if (t, bit) ∈ owned then settle (owned.erase (t, bit)) rest else none
  | owned, .signal _ _ :: rest | owned, .wait _ _ :: rest => settle owned rest

section Books

variable {base held : Task → Finset (Fin 32)} {owned rest : List (Task × Fin 32)}
variable {acts : List (Act Task)} {t : Task} {bit : Fin 32}

theorem Books.alloc (books : Books base owned held) (fresh : bit ∉ held t) :
    Books base ((t, bit) :: owned) (Act.run held (.allocSignal t bit)) := by
  rw [books.holds, not_or] at fresh
  refine ⟨List.nodup_cons.mpr ⟨fresh.2, books.nodup⟩, ?_, ?_⟩
  · intro u other member
    rcases List.mem_cons.mp member with new | old
    · cases new
      exact fresh.1
    · exact books.apart u other old
  · intro u other
    by_cases mine : u = t
    · subst mine
      simp only [Act.run, Function.update_self, Finset.mem_insert, books.holds, List.mem_cons,
        Prod.mk.injEq, true_and]
      tauto
    · simp [Act.run, mine, books.holds]

theorem Books.free (books : Books base owned held) (member : (t, bit) ∈ owned) :
    Books base (owned.erase (t, bit)) (Act.run held (.freeSignal t bit)) := by
  have unheld := books.apart t bit member
  refine ⟨books.nodup.erase _, fun u other left => books.apart u other (List.mem_of_mem_erase left),
    ?_⟩
  intro u other
  rw [books.nodup.mem_erase_iff]
  by_cases mine : u = t
  · subst mine
    simp only [Act.run, Function.update_self, Finset.mem_erase, books.holds, ne_eq, Prod.mk.injEq,
      true_and]
    constructor
    · rintro ⟨apart, old | new⟩
      · exact .inl old
      · exact .inr ⟨apart, new⟩
    · rintro (old | ⟨apart, new⟩)
      · refine ⟨?_, .inl old⟩
        rintro rfl
        exact unheld old
      · exact ⟨apart, .inr new⟩
  · simp [Act.run, mine, books.holds]

/-- How many bits a task holds beyond what it held before. -/
theorem Books.card (books : Books base owned held) (t : Task) :
    (held t \ base t).card = owned.countP fun entry => entry.1 = t := by
  have bits : held t \ base t =
      ((owned.filter fun entry => entry.1 = t).map Prod.snd).toFinset := by
    ext bit
    rw [Finset.mem_sdiff, books.holds, List.mem_toFinset, List.mem_map]
    constructor
    · rintro ⟨old | new, unheld⟩
      · exact absurd old unheld
      · exact ⟨(t, bit), List.mem_filter.mpr ⟨new, by simp⟩, rfl⟩
    · rintro ⟨⟨u, bit⟩, member, rfl⟩
      obtain ⟨new, mine⟩ := List.mem_filter.mp member
      obtain rfl : u = t := of_decide_eq_true mine
      exact ⟨.inr new, books.apart _ _ new⟩
  have distinct : ((owned.filter fun entry => entry.1 = t).map Prod.snd).Nodup := by
    refine (books.nodup.filter _).map_on ?_
    intro first here second there same
    have mine := of_decide_eq_true (List.mem_filter.mp here).2
    have mine' := of_decide_eq_true (List.mem_filter.mp there).2
    exact Prod.ext (mine.trans mine'.symm) same
  rw [bits, List.toFinset_card_of_nodup distinct, List.length_map, List.countP_eq_length_filter]

theorem run_alloc_free (unheld : bit ∉ held t) :
    run held [.allocSignal t bit, .freeSignal t bit] = held := by
  simp [run, Act.run, Finset.erase_insert unheld]

/-- Actions that settle keep the books. -/
theorem Books.settled (books : Books base owned held) (unheld : fresh held acts = true)
    (settled : settle owned acts = some rest) : Books base rest (run held acts) := by
  induction acts generalizing owned held with
  | nil =>
      cases settled
      exact books
  | cons act later ih =>
      obtain ⟨first, later⟩ := Bool.and_eq_true_iff.mp unheld
      cases act with
      | allocSignal t bit => exact ih (books.alloc (of_decide_eq_true first)) later settled
      | freeSignal t bit =>
          simp only [settle] at settled
          split_ifs at settled with member
          exact ih (books.free member) later settled
      | signal t mask => exact ih books later settled
      | wait t mask => exact ih books later settled

end Books

theorem settle_append (owned : List (Task × Fin 32)) (first second : List (Act Task)) :
    settle owned (first ++ second) = (settle owned first).bind fun rest => settle rest second := by
  induction first generalizing owned with
  | nil => rfl
  | cons act later ih =>
      cases act with
      | allocSignal t bit => exact ih _
      | freeSignal t bit =>
          simp only [List.cons_append, settle]
          split_ifs
          · exact ih _
          · rfl
      | signal t mask => exact ih _
      | wait t mask => exact ih _

/-- A task frees distinct bits of its own. -/
theorem settle_frees {owned : List (Task × Fin 32)} (nodup : owned.Nodup) (t : Task)
    {bits : List (Fin 32)} (distinct : bits.Nodup) (mine : ∀ bit ∈ bits, (t, bit) ∈ owned) :
    ∃ rest, settle owned (bits.map (.freeSignal t)) = some rest ∧
      ∀ entry, entry ∈ rest ↔ entry ∈ owned ∧ ¬ (entry.1 = t ∧ entry.2 ∈ bits) := by
  induction bits generalizing owned with
  | nil => exact ⟨owned, rfl, by simp⟩
  | cons bit later ih =>
      obtain ⟨new, distinct⟩ := List.nodup_cons.mp distinct
      obtain ⟨here, mine⟩ := List.forall_mem_cons.mp mine
      obtain ⟨rest, settled, members⟩ := ih (nodup.erase (t, bit)) distinct fun other member => by
        rw [nodup.mem_erase_iff]
        refine ⟨?_, mine other member⟩
        rintro same
        cases same
        exact new member
      refine ⟨rest, ?_, ?_⟩
      · rw [List.map_cons, settle, if_pos here]
        exact settled
      · rintro ⟨u, other⟩
        rw [members, nodup.mem_erase_iff]
        simp only [List.mem_cons, ne_eq, Prod.mk.injEq]
        tauto

end Netstack.Signals
