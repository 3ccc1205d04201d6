import Mathlib.Algebra.Ring.Int.Defs
import Netstack.CasLoop

/-!
The atomic operations of `rump_atomics.c` on one word. `atomic_cas_32` and an aligned
load are single steps; what each function does between them is its loop body. On this
machine `int` and `long` both have 32 bits and pointers too, so the functions for them
are the ones for words. What the operations mean is said on integers: additions are
modulo `2 ^ 32`, and a signed operand counts with its sign.
-/

namespace Netstack.Atomics

open CasLoop Transition

variable {Task : Type}

/-- The word after it, and the word it returns. -/
def atomicCas32 (word old new : UInt32) : UInt32 × UInt32 :=
  if word = old then (new, word) else (word, word)

/-! The loop bodies. A `void` function returns nothing. -/

def atomicAddInt (val : Int32) : Body UInt32 (Option UInt32) :=
  ⟨fun old => old + val.toUInt32, fun _ => none⟩

def atomicAddLong (val : Int32) : Body UInt32 (Option UInt32) := atomicAddInt val

def atomicAddLongNv (val : Int32) : Body UInt32 (Option UInt32) :=
  ⟨fun old => old + val.toUInt32, fun old => some (old + val.toUInt32)⟩

def atomicIncUint : Body UInt32 (Option UInt32) := atomicAddInt 1

def atomicIncUintNv : Body UInt32 (Option UInt32) := ⟨fun old => old + 1, fun old => some (old + 1)⟩

def atomicDecUint : Body UInt32 (Option UInt32) := atomicAddInt (-1)

def atomicDecUintNv : Body UInt32 (Option UInt32) := ⟨fun old => old - 1, fun old => some (old - 1)⟩

def atomicOr32 (val : UInt32) : Body UInt32 (Option UInt32) :=
  ⟨fun old => old ||| val, fun _ => none⟩

def atomicOrUint (val : UInt32) : Body UInt32 (Option UInt32) := atomicOr32 val

def atomicAnd32 (val : UInt32) : Body UInt32 (Option UInt32) :=
  ⟨fun old => old &&& val, fun _ => none⟩

def atomicAndUint (val : UInt32) : Body UInt32 (Option UInt32) := atomicAnd32 val

def atomicSwapUint (val : UInt32) : Body UInt32 (Option UInt32) := ⟨fun _ => val, some⟩

def atomicSwapPtr (val : UInt32) : Body UInt32 (Option UInt32) := atomicSwapUint val

inductive Call where
  | addInt (val : Int32)
  | addLong (val : Int32)
  | addLongNv (val : Int32)
  | incUint
  | incUintNv
  | decUint
  | decUintNv
  | or32 (val : UInt32)
  | orUint (val : UInt32)
  | and32 (val : UInt32)
  | andUint (val : UInt32)
  | swapUint (val : UInt32)
  | swapPtr (val : UInt32)
  deriving DecidableEq

def Call.body : Call → Body UInt32 (Option UInt32)
  | .addInt val => atomicAddInt val
  | .addLong val => atomicAddLong val
  | .addLongNv val => atomicAddLongNv val
  | .incUint => atomicIncUint
  | .incUintNv => atomicIncUintNv
  | .decUint => atomicDecUint
  | .decUintNv => atomicDecUintNv
  | .or32 val => atomicOr32 val
  | .orUint val => atomicOrUint val
  | .and32 val => atomicAnd32 val
  | .andUint val => atomicAndUint val
  | .swapUint val => atomicSwapUint val
  | .swapPtr val => atomicSwapPtr val

def atomics : Loops Call UInt32 (Option UInt32) where
  body := Call.body
  cas := atomicCas32
  swaps := by
    intro word new
    rw [atomicCas32, if_pos rfl]
  keeps := by
    intro word old new differs
    rw [atomicCas32, if_neg differs]

/-! What the operations mean. -/

/-- The value of the word after the operation, from its value before. -/
def Call.effect : Call → Int → Int
  | .addInt val, w => (w + val.toInt) % 2 ^ 32
  | .addLong val, w => (w + val.toInt) % 2 ^ 32
  | .addLongNv val, w => (w + val.toInt) % 2 ^ 32
  | .incUint, w => (w + 1) % 2 ^ 32
  | .incUintNv, w => (w + 1) % 2 ^ 32
  | .decUint, w => (w - 1) % 2 ^ 32
  | .decUintNv, w => (w - 1) % 2 ^ 32
  | .or32 val, w => ((w.toNat ||| val.toNat : Nat) : Int)
  | .orUint val, w => ((w.toNat ||| val.toNat : Nat) : Int)
  | .and32 val, w => ((w.toNat &&& val.toNat : Nat) : Int)
  | .andUint val, w => ((w.toNat &&& val.toNat : Nat) : Int)
  | .swapUint val, _ => val.toNat
  | .swapPtr val, _ => val.toNat

/-- What is returned, from the words around the operation. -/
def Call.answer (before after : UInt32) : Call → Option UInt32
  | .addLongNv _ => some after
  | .incUintNv => some after
  | .decUintNv => some after
  | .swapUint _ => some before
  | .swapPtr _ => some before
  | _ => none

theorem signed_operand (val : Int32) : (val.toUInt32.toNat : Int) = val.toInt % 2 ^ 32 := by
  have range := val.toBitVec.isLt
  have signed : val.toInt = val.toBitVec.toInt := rfl
  rw [← Int32.toNat_toBitVec, signed, BitVec.toInt_eq_toNat_cond]
  split_ifs <;> omega

theorem add_signed (w : UInt32) (val : Int32) :
    ((w + val.toUInt32).toNat : Int) = (w.toNat + val.toInt) % 2 ^ 32 := by
  have operand := signed_operand val
  rw [UInt32.toNat_add]
  omega

theorem effect_eq (call : Call) (w : UInt32) :
    ((call.body.next w).toNat : Int) = call.effect w.toNat := by
  cases call with
  | addInt val => exact add_signed w val
  | addLong val => exact add_signed w val
  | addLongNv val => exact add_signed w val
  | incUint => exact add_signed w 1
  | incUintNv => exact add_signed w 1
  | decUint => exact add_signed w (-1)
  | decUintNv =>
      have same : w - 1 = w + (-1 : Int32).toUInt32 := by rw [UInt32.sub_eq_add_neg]; rfl
      simp only [Call.body, atomicDecUintNv, same]
      exact add_signed w (-1)
  | or32 val => simp [Call.body, atomicOr32, Call.effect]
  | orUint val => simp [Call.body, atomicOrUint, atomicOr32, Call.effect]
  | and32 val => simp [Call.body, atomicAnd32, Call.effect]
  | andUint val => simp [Call.body, atomicAndUint, atomicAnd32, Call.effect]
  | swapUint val => rfl
  | swapPtr val => rfl

theorem answer_eq (call : Call) (old : UInt32) :
    call.body.value old = call.answer old (call.body.next old) := by
  cases call <;> rfl

/-- The operations on words and on integers agree along any list. -/
theorem effects_eq (calls : List Call) (w : UInt32) :
    ((calls.foldl (fun w call => call.body.next w) w).toNat : Int) =
      calls.foldl (fun w call => call.effect w) (w.toNat : Int) := by
  induction calls generalizing w with
  | nil => rfl
  | cons call rest ih =>
      rw [List.foldl_cons, List.foldl_cons, ih, effect_eq]

/-- `own` is the successful swap of the call that each task is in. -/
structure ReturnsOwn (own : Task → Option (Applied Call UInt32))
    (move : Move (State Task Call UInt32) (Label Task Call (Option UInt32))) : Prop where
  single : ∀ t call, move.label = .cas t call true → own t = none
  returns : ∀ t a, own t = some a → move.label.task = t →
    move.label = .ret t a.op (a.op.answer a.before a.after)
  earned : ∀ t call value, move.label = .ret t call value → ∃ a, own t = some a ∧ a.op = call

theorem returnsOwn_of_once {own : Task → Option (Applied Call UInt32)}
    {move : Move (State Task Call UInt32) (Label Task Call (Option UInt32))}
    (once : Once atomics own move) : ReturnsOwn own move := by
  obtain ⟨effect, returns, earned⟩ := once
  refine ⟨?_, ?_, earned⟩
  · intro t call swap
    by_contra some_
    obtain ⟨a, known⟩ := Option.ne_none_iff_exists'.mp some_
    have ret := returns t a known (by rw [swap]; rfl)
    rw [swap] at ret
    contradiction
  · intro t a known mine
    rw [returns t a known mine, effect t a known]
    exact congrArg (Label.ret t a.op) (answer_eq a.op a.before)

/-- In every interleaving the word is what the operations whose swap succeeded make
of its first value, in the order of these swaps. A call has at most one of them, its
task returns in its next step, and what it returns is the word just after its own
operation or just before it. -/
theorem atomics_apply_once [DecidableEq Task] (word : UInt32)
    (history : History Task Call UInt32 (Option UInt32)) (s : State Task Call UInt32)
    (trace : Trace (Step atomics) (boot word) history s) :
    (s.word.toNat : Int) =
        (successes history).foldl (fun w call => call.effect w) (word.toNat : Int) ∧
      Along ownSwap ReturnsOwn (fun _ => none) history := by
  constructor
  · rw [word_of_successes trace]
    exact effects_eq _ _
  · exact along_mono (fun _ _ => returnsOwn_of_once) (once_along trace)

/-- An increment that has read the word before another task swaps it reads again. -/
theorem increment_after_swap :
    ∃ (history : History Nat Call UInt32 (Option UInt32)) (s : State Nat Call UInt32),
      Along ownSwap ReturnsOwn (fun _ => none) history ∧ (s.word.toNat : Int) = 8 ∧
      history.map Move.label = [.call 1 .incUintNv, .load 1, .call 2 (.swapUint 7), .load 2,
        .cas 2 (.swapUint 7) true, .cas 1 .incUintNv false, .load 1,
        .ret 2 (.swapUint 7) (some 0xffffffff), .cas 1 .incUintNv true,
        .ret 1 .incUintNv (some 8)] := by
  have trace : Trace (Step atomics) (boot 0xffffffff) _ _ :=
    .snoc (.snoc (.snoc (.snoc (.snoc (.snoc (.snoc (.snoc (.snoc (.snoc .nil
      (.call rfl : Step atomics _ (.call 1 .incUintNv) _)) (.load (t := 1) rfl))
      (.call rfl : Step atomics _ (.call 2 (.swapUint 7)) _)) (.load (t := 2) rfl))
      (.swapped (t := 2) rfl rfl)) (.retried (t := 1) rfl (by decide)))
      (.load (t := 1) rfl)) (.ret (t := 2) rfl))
      (.swapped (t := 1) rfl rfl)) (.ret (t := 1) rfl)
  obtain ⟨value, along⟩ := atomics_apply_once _ _ _ trace
  exact ⟨_, _, along, value, rfl⟩

end Netstack.Atomics
