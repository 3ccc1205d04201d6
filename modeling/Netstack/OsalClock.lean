import Mathlib.Data.List.Basic
import Mathlib.Tactic.Common

/-!
Time in `osal_timer.c`: the time base register as a clock, a sleep as a request to
timer.device or as calls of `Wait(0)`, and the hypercalls that take or give seconds and
nanoseconds.
-/

namespace Netstack.OsalClock

structure TimeVal where
  seconds : UInt32
  microseconds : UInt32
  deriving DecidableEq

def TimeVal.micros (time : TimeVal) : Nat := time.seconds.toNat * 1000000 + time.microseconds.toNat

/-- How a task sleeps: in one request to timer.device, or in calls of `Wait(0)`. -/
inductive Nap where
  | request (time : TimeVal)
  | yields (times : UInt64)
  deriving DecidableEq

/-- `slot` tells whether the task has a slot in the table of requests. -/
def osalSleepNs (slot : Bool) (ns : UInt64) : Nap :=
  if slot then
    let us := ns / 1000
    let us := if us = 0 then 1 else us
    .request ⟨(us / 1000000).toUInt32, (us % 1000000).toUInt32⟩
  else .yields (ns / 100)

def shimNs (sec nsec : Int64) : UInt64 := sec.toUInt64 * 1000000000 + nsec.toUInt64

-- A `long` has 32 bits.
def rumpuserClockSleep (slot : Bool) (sec : Int64) (nsec : Int32) : Nap :=
  osalSleepNs slot (shimNs sec nsec.toInt64)

def osalClockMonotonicNs (tb : UInt32) : UInt64 := tb.toUInt64 * 10

def rumpuserClockGettime (tb : UInt32) : Int64 × Int32 :=
  let ns := osalClockMonotonicNs tb
  ((ns / 1000000000).toInt64, (ns % 1000000000).toUInt32.toInt32)

/-! Sleeps. -/

theorem sleep_request (ns : UInt64) :
    ∃ time, osalSleepNs true ns = .request time ∧
      time.seconds.toNat = max 1 (ns.toNat / 1000) / 1000000 % 4294967296 ∧
      time.microseconds.toNat = max 1 (ns.toNat / 1000) % 1000000 := by
  have us : (if ns / 1000 = 0 then 1 else ns / 1000 : UInt64).toNat = max 1 (ns.toNat / 1000) := by
    have quotient : (ns / 1000).toNat = ns.toNat / 1000 := UInt64.toNat_div ..
    by_cases none_ : ns / 1000 = 0
    · rw [if_pos none_]
      rw [none_] at quotient
      have zero : ns.toNat / 1000 = 0 := quotient.symm
      rw [zero]
      rfl
    · rw [if_neg none_, quotient]
      have some_ : ns.toNat / 1000 ≠ 0 := by
        rw [← quotient]
        exact fun zero => none_ (UInt64.toNat_inj.mp zero)
      omega
  refine ⟨_, rfl, ?_, ?_⟩
  · simp only [UInt64.toNat_toUInt32, UInt64.toNat_div, us]
    rfl
  · simp only [UInt64.toNat_toUInt32, UInt64.toNat_mod, us]
    have small : max 1 (ns.toNat / 1000) % 1000000 < 2 ^ 32 :=
      Nat.lt_of_lt_of_le (Nat.mod_lt _ (by decide)) (by decide)
    exact Nat.mod_eq_of_lt small

theorem shimNs_toNat {sec nsec : Nat} (small : sec < 18446744073) (nanos : nsec < 1000000000) :
    (shimNs (Int64.ofNat sec) (Int64.ofNat nsec)).toNat = sec * 1000000000 + nsec := by
  have billion : (1000000000 : UInt64).toNat = 1000000000 := rfl
  rw [shimNs, Int64.toUInt64_ofNat', Int64.toUInt64_ofNat', UInt64.toNat_add, UInt64.toNat_mul,
    UInt64.toNat_ofNat', UInt64.toNat_ofNat', billion]
  omega

theorem nsec_widened {nsec : Nat} (nanos : nsec < 1000000000) :
    (Int32.ofNat nsec).toInt64 = Int64.ofNat nsec := by
  apply Int32.toInt64_ofNat'
  rw [Int32.toInt_maxValue]
  omega

/-- How long a nap takes at least, in nanoseconds: timer.device answers a request when the
time in it has passed, and of `Wait(0)` nothing is known. -/
def Nap.least : Nap → Nat
  | .request time => time.micros * 1000
  | .yields _ => 0

/-- A sleep asks for its time in whole microseconds, at least one, as long as its seconds
fit the request. -/
theorem least_request {ns : UInt64} (fits : ns.toNat < 4294967296000000000) :
    (osalSleepNs true ns).least = max 1 (ns.toNat / 1000) * 1000 := by
  obtain ⟨time, requested, seconds, micros⟩ := sleep_request ns
  have small : max 1 (ns.toNat / 1000) / 1000000 < 4294967296 := by
    apply Nat.div_lt_of_lt_mul
    omega
  rw [requested, Nap.least, TimeVal.micros, seconds, micros, Nat.mod_eq_of_lt small,
    Nat.div_add_mod']

/-- The hypercall asks for less from the first second on that does not fit. -/
theorem clock_sleep_exact_iff {sec nsec : Nat} (nanos : nsec < 1000000000) :
    (rumpuserClockSleep true (Int64.ofNat sec) (Int32.ofNat nsec)).least =
      max 1 ((sec * 1000000000 + nsec) / 1000) * 1000 ↔ sec < 4294967296 := by
  rw [rumpuserClockSleep, nsec_widened nanos]
  constructor
  · intro exact_
    obtain ⟨time, requested, -, rest⟩ :=
      sleep_request (shimNs (Int64.ofNat sec) (Int64.ofNat nsec))
    rw [requested, Nap.least, TimeVal.micros] at exact_
    have seconds : time.seconds.toNat < 4294967296 := time.seconds.toNat_lt
    have micros : time.microseconds.toNat < 1000000 := by
      rw [rest]
      exact Nat.mod_lt _ (by decide)
    omega
  · intro small
    have asked : (shimNs (Int64.ofNat sec) (Int64.ofNat nsec)).toNat = sec * 1000000000 + nsec :=
      shimNs_toNat (by omega) nanos
    rw [least_request (by omega), asked]

/-! Readings of the clock. The register counts ticks modulo its width, and nothing keeps the
laps it has made. -/

def reading (ticks : Nat) : Int :=
  let time := rumpuserClockGettime (UInt32.ofNat ticks)
  time.1.toInt * 1000000000 + time.2.toInt

theorem gettime_parts (tb : UInt32) :
    (rumpuserClockGettime tb).1.toInt = (tb.toNat * 10 / 1000000000 : Nat) ∧
      (rumpuserClockGettime tb).2.toInt = (tb.toNat * 10 % 1000000000 : Nat) := by
  have fits : tb.toNat < 4294967296 := tb.toNat_lt
  have ns : (osalClockMonotonicNs tb).toNat = tb.toNat * 10 := by
    have ten : (10 : UInt64).toNat = 10 := rfl
    rw [osalClockMonotonicNs, UInt64.toNat_mul, UInt32.toNat_toUInt64, ten]
    omega
  have billion : (1000000000 : UInt64).toNat = 1000000000 := rfl
  constructor
  · have seconds : osalClockMonotonicNs tb / 1000000000 =
        UInt64.ofNat (tb.toNat * 10 / 1000000000) := by
      apply UInt64.toNat_inj.mp
      rw [UInt64.toNat_div, ns, billion, UInt64.toNat_ofNat']
      omega
    rw [rumpuserClockGettime, seconds, UInt64.toInt64_ofNat']
    exact Int64.toInt_ofNat_of_lt (by omega)
  · have nanos : (osalClockMonotonicNs tb % 1000000000).toUInt32 =
        UInt32.ofNat (tb.toNat * 10 % 1000000000) := by
      apply UInt32.toNat_inj.mp
      rw [UInt64.toNat_toUInt32, UInt64.toNat_mod, ns, billion, UInt32.toNat_ofNat']
    rw [rumpuserClockGettime, nanos, UInt32.toInt32_ofNat']
    exact Int32.toInt_ofNat_of_lt (by omega)

theorem reading_eq (ticks : Nat) : reading ticks = (ticks % 4294967296 : Nat) * 10 := by
  obtain ⟨seconds, nanos⟩ := gettime_parts (UInt32.ofNat ticks)
  have register : (UInt32.ofNat ticks).toNat = ticks % 4294967296 := UInt32.toNat_ofNat'
  rw [reading, seconds, nanos, register]
  omega

/-- How often the clock is read to be earlier than it was the time before. -/
def setbacks : List Nat → Nat
  | first :: second :: rest =>
      (if reading second < reading first then 1 else 0) + setbacks (second :: rest)
  | _ => 0

theorem reading_step {first second : Nat} (forward : first ≤ second)
    (soon : second < first + 4294967296) :
    (second : Int) * 10 = first * 10 + (reading second - reading first) +
      42949672960 * (if reading second < reading first then 1 else 0 : Nat) := by
  rw [reading_eq, reading_eq]
  split <;> omega

/-- Of readings that are less than a lap of the register apart, each that is earlier than
the one before stands for one lap: the time from the first reading to the last is their
difference and as many laps as there were setbacks. -/
theorem readings_measure_time (first : Nat) (rest : List Nat)
    (spaced : (first :: rest).IsChain fun a b => a ≤ b ∧ b < a + 4294967296) :
    ((first :: rest).getLast (List.cons_ne_nil _ _) : Int) * 10 = first * 10 +
      (reading ((first :: rest).getLast (List.cons_ne_nil _ _)) - reading first) +
      42949672960 * setbacks (first :: rest) := by
  induction rest generalizing first with
  | nil => simp [setbacks]
  | cons second rest ih =>
      rw [List.isChain_cons_cons] at spaced
      have later := ih second spaced.2
      have step := reading_step spaced.1.1 spaced.1.2
      rw [List.getLast_cons (List.cons_ne_nil _ _), setbacks]
      omega

theorem lapped_readings :
    [4294967290, 4294967295, 4294967300].IsChain (fun a b => a ≤ b ∧ b < a + 4294967296) ∧
      setbacks [4294967290, 4294967295, 4294967300] = 1 ∧
      (4294967300 : Int) * 10 = 4294967290 * 10 +
        (reading 4294967300 - reading 4294967290) + 42949672960 := by
  have spaced : [4294967290, 4294967295, 4294967300].IsChain
      (fun a b => a ≤ b ∧ b < a + 4294967296) := by
    simp
  have once : setbacks [4294967290, 4294967295, 4294967300] = 1 := by
    decide +kernel
  have measured := readings_measure_time _ _ spaced
  rw [once] at measured
  exact ⟨spaced, once, measured⟩

end Netstack.OsalClock
