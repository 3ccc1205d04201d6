import Mathlib.Data.Finmap
import Netstack.Serving

/-!
The driver registry of `netdev_registry.c`: sixteen slots and a count. A slot keeps
the pointer it was given for a name, and names are compared as strings. A removal
moves the last slot into the gap, so the order of the slots means nothing; that no
two of them have the same name is what makes the table a map. The map the callers
see has at most sixteen names.
-/

namespace Netstack.NetdevRegistry

open Serving

/-- The bytes of a C string in front of its terminator. -/
structure CString where
  bytes : List UInt8
  proper : 0 ∉ bytes
  deriving DecidableEq

/-- The bytes compared as `strcmp` does, with the terminator behind each. -/
def compareBytes : List UInt8 → List UInt8 → Int
  | [], [] => 0
  | [], b :: _ => -(b.toNat : Int)
  | a :: _, [] => a.toNat
  | a :: as, b :: bs => if a = b then compareBytes as bs else (a.toNat : Int) - b.toNat

def strcmp (s t : CString) : Int := compareBytes s.bytes t.bytes

theorem compareBytes_eq_zero {s t : List UInt8} (properS : 0 ∉ s) (properT : 0 ∉ t) :
    compareBytes s t = 0 ↔ s = t := by
  induction s generalizing t with
  | nil =>
      cases t with
      | nil => simp [compareBytes]
      | cons b bs =>
          have nonzero : b.toNat ≠ 0 := by
            intro zero
            exact properT (by simp [← UInt8.toNat_inj, zero])
          simp only [compareBytes, reduceCtorEq, iff_false]
          omega
  | cons a as ih =>
      cases t with
      | nil =>
          have nonzero : a.toNat ≠ 0 := by
            intro zero
            exact properS (by simp [← UInt8.toNat_inj, zero])
          simp only [compareBytes, reduceCtorEq, iff_false]
          omega
      | cons b bs =>
          rw [List.mem_cons, not_or] at properS properT
          by_cases same : a = b
          · rw [compareBytes, if_pos same, ih properS.2 properT.2, List.cons.injEq]
            exact (and_iff_right same).symm
          · have differ : a.toNat ≠ b.toNat := fun h => same (UInt8.toNat_inj.mp h)
            rw [compareBytes, if_neg same, List.cons.injEq]
            constructor
            · intro zero
              omega
            · intro equal
              exact absurd equal.1 same

theorem strcmp_eq_zero (s t : CString) : strcmp s t = 0 ↔ s = t := by
  rw [strcmp, compareBytes_eq_zero s.proper t.proper, CString.mk.injEq]

def netdevMaxRegistered : Nat := 16

/-- `struct netdev_slot`; `none` is NULL. -/
structure NetdevSlot (Name Iface : Type) where
  name : Option Name := none
  iface : Option Iface := none

structure Registry (Name Iface : Type) where
  slots : Nat → NetdevSlot Name Iface := fun _ => {}
  count : Nat := 0

/-- A NULL pointer handed to `strcmp`. -/
inductive NullName where
  | strcmp
  deriving DecidableEq

-- A name is a pointer, and `text` the string it points to, which its owner leaves
-- alone while the registry has the pointer.
variable {Name Iface : Type} (text : Name → CString)

def sameName : Option Name → Option Name → Except NullName Bool
  | some stored, some name => .ok (strcmp (text stored) (text name) = 0)
  | _, _ => .error .strcmp

/-- The loop that three of the functions share: the first slot that has the name. -/
def scan (slots : Nat → NetdevSlot Name Iface) (name : Option Name) :
    Nat → Nat → Except NullName (Option Nat)
  | 0, _ => .ok none
  | left + 1, i => do
      if ← sameName text (slots i).name name then return some i
      scan slots name left (i + 1)

def netDevRegister (g : Registry Name Iface) (name : Option Name) (iface : Option Iface) :
    Except NullName (Registry Name Iface × Int) :=
  match name, iface with
  | some name, some iface =>
      if netdevMaxRegistered ≤ g.count then .ok (g, -1)
      else do
        match ← scan text g.slots (some name) g.count 0 with
        | some _ => return (g, -1)
        | none =>
            return ({ slots := Function.update g.slots g.count ⟨some name, some iface⟩
                      count := g.count + 1 }, 0)
  | _, _ => .ok (g, -1)

def netDevUnregister (g : Registry Name Iface) (name : Option Name) :
    Except NullName (Registry Name Iface × Int) := do
  match ← scan text g.slots name g.count 0 with
  | some i =>
      return ({ slots := Function.update g.slots i (g.slots (g.count - 1))
                count := g.count - 1 }, 0)
  | none => return (g, -1)

def netDevLookup (g : Registry Name Iface) (name : Option Name) :
    Except NullName (Option Iface) := do
  match ← scan text g.slots name g.count 0 with
  | some i => return (g.slots i).iface
  | none => return none

/-- The returned number, and the pointers written to `out_names` from its start. -/
def netDevList (g : Registry Name Iface) (maxNames : Int) : Int × List (Option Name) :=
  let n := if (g.count : Int) < maxNames then (g.count : Int) else maxNames
  (n, (List.range n.toNat).map fun i => (g.slots i).name)

/-- A call with a name that is not NULL. -/
inductive Call (Name Iface : Type) where
  | register (name : Name) (iface : Option Iface)
  | unregister (name : Name)
  | lookup (name : Name)
  | list (maxNames : Int)

inductive Reply (Name Iface : Type) where
  | status (rv : Int)
  | iface (found : Option Iface)
  | names (n : Int) (out : List (Option Name))

def netDevCall (g : Registry Name Iface) :
    Call Name Iface → Except NullName (Registry Name Iface × Reply Name Iface)
  | .register name iface => do
      let (after, rv) ← netDevRegister text g (some name) iface
      return (after, .status rv)
  | .unregister name => do
      let (after, rv) ← netDevUnregister text g (some name)
      return (after, .status rv)
  | .lookup name => do
      let found ← netDevLookup text g (some name)
      return (g, .iface found)
  | .list maxNames => .ok (g, .names (netDevList g maxNames).1 (netDevList g maxNames).2)

/-! The map that the callers see. -/

/-- A map of names to interfaces with at most sixteen names. -/
structure NameMap (Iface : Type) where
  map : Finmap fun _ : CString => Iface
  capacity : map.keys.card ≤ 16

def NameMap.size (M : NameMap Iface) : Nat := M.map.keys.card

def NameMap.blank : NameMap Iface := ⟨∅, by simp⟩

/-- What the calls do to the map and what they answer. -/
inductive MapStep : NameMap Iface → Call Name Iface → Reply Name Iface → NameMap Iface → Prop where
  | registered {M M' : NameMap Iface} {name : Name} {iface : Iface} (new : text name ∉ M.map)
      (room : M.size < 16) (after : M'.map = M.map.insert (text name) iface) :
      MapStep M (.register name (some iface)) (.status 0) M'
  | registerRefused {M : NameMap Iface} {name : Name} {iface : Option Iface}
      (why : iface = none ∨ text name ∈ M.map ∨ M.size = 16) :
      MapStep M (.register name iface) (.status (-1)) M
  | unregistered {M M' : NameMap Iface} {name : Name} (known : text name ∈ M.map)
      (after : M'.map = M.map.erase (text name)) : MapStep M (.unregister name) (.status 0) M'
  | unregisterRefused {M : NameMap Iface} {name : Name} (unknown : text name ∉ M.map) :
      MapStep M (.unregister name) (.status (-1)) M
  | found {M : NameMap Iface} {name : Name} :
      MapStep M (.lookup name) (.iface (M.map.lookup (text name))) M
  | listed {M : NameMap Iface} {maxNames : Int} {names : List Name} (asked : 0 ≤ maxNames)
      (length : (names.length : Int) = min (M.size : Int) maxNames)
      (distinct : (names.map text).Nodup) (known : ∀ name ∈ names, text name ∈ M.map)
      (all : (M.size : Int) ≤ maxNames → ∀ key ∈ M.map, ∃ name ∈ names, text name = key) :
      MapStep M (.list maxNames) (.names names.length (names.map some)) M
  | listedNone {M : NameMap Iface} {maxNames : Int} (negative : maxNames < 0) :
      MapStep M (.list maxNames) (.names maxNames []) M

/-- The slots in use have different names and are the entries of the map. -/
structure Represents (g : Registry Name Iface) (M : NameMap Iface) : Prop where
  filled : ∀ i < g.count, ∃ name iface, g.slots i = ⟨some name, some iface⟩ ∧
    M.map.lookup (text name) = some iface
  distinct : ∀ i < g.count, ∀ j < g.count, ∀ name other, (g.slots i).name = some name →
    (g.slots j).name = some other → text name = text other → i = j
  onto : ∀ key ∈ M.map, ∃ i < g.count, ∃ name, (g.slots i).name = some name ∧ text name = key
  size : M.size = g.count

theorem represents_blank : Represents text ({} : Registry Name Iface) .blank := by
  constructor
  · intro i below
    contradiction
  · intro i below
    contradiction
  · intro key member
    exact absurd member Finmap.notMem_empty
  · rfl

section Scan

variable {text} {g : Registry Name Iface} {M : NameMap Iface}

/-- The scan reads the slots in use only; it stops at the name or passes them all. -/
theorem scan_from (represents : Represents text g M) (name : Name) {left i : Nat}
    (total : i + left = g.count)
    (passed : ∀ j < i, ∀ other, (g.slots j).name = some other → text other ≠ text name) :
    (∃ j < g.count, ∃ other, (g.slots j).name = some other ∧ text other = text name ∧
      scan text g.slots (some name) left i = .ok (some j)) ∨
    ((∀ j < g.count, ∀ other, (g.slots j).name = some other → text other ≠ text name) ∧
      scan text g.slots (some name) left i = .ok none) := by
  induction left generalizing i with
  | zero =>
      right
      refine ⟨?_, rfl⟩
      rw [Nat.add_zero] at total
      rw [← total]
      exact passed
  | succ left ih =>
      obtain ⟨stored, iface, slot, -⟩ := represents.filled i (by omega)
      have here : (g.slots i).name = some stored := by rw [slot]
      have test : sameName text (g.slots i).name (some name) =
          .ok (decide (text stored = text name)) := by
        rw [here, sameName, decide_eq_decide.mpr (strcmp_eq_zero _ _)]
      rw [scan, test]
      by_cases same : text stored = text name
      · left
        refine ⟨i, by omega, stored, here, same, ?_⟩
        rw [decide_eq_true same]
        rfl
      · rw [decide_eq_false same]
        change _ ∨ _ ∧ scan text g.slots (some name) left (i + 1) = _
        apply ih (by omega)
        intro j below other named
        by_cases last : j = i
        · rw [last, here] at named
          cases named
          exact same
        · exact passed j (by omega) other named

theorem scan_cases (represents : Represents text g M) (name : Name) :
    (∃ i < g.count, ∃ stored iface, scan text g.slots (some name) g.count 0 = .ok (some i) ∧
      g.slots i = ⟨some stored, some iface⟩ ∧ text stored = text name ∧
      M.map.lookup (text name) = some iface) ∨
    (scan text g.slots (some name) g.count 0 = .ok none ∧ text name ∉ M.map) := by
  rcases scan_from represents name (Nat.zero_add _) (fun j below => by contradiction) with
    ⟨i, below, other, named, same, ran⟩ | ⟨none, ran⟩
  · obtain ⟨stored, iface, slot, known⟩ := represents.filled i below
    have kept : stored = other := by
      rw [slot] at named
      exact Option.some.inj named
    rw [kept, same] at known
    exact Or.inl ⟨i, below, stored, iface, ran, slot, kept ▸ same, known⟩
  · refine Or.inr ⟨ran, ?_⟩
    intro member
    obtain ⟨i, below, stored, named, same⟩ := represents.onto _ member
    exact none i below stored named same

end Scan

section Changes

variable {text} {g : Registry Name Iface} {M : NameMap Iface}

theorem insert_card {key : CString} (new : key ∉ M.map) (iface : Iface) :
    (M.map.insert key iface).keys.card = M.size + 1 := by
  have keys : (M.map.insert key iface).keys = insert key M.map.keys := by
    ext other
    simp [Finmap.mem_keys, Finmap.mem_insert]
  rw [keys, Finset.card_insert_of_notMem (by rwa [Finmap.mem_keys]), NameMap.size]

theorem erase_card {key : CString} (known : key ∈ M.map) :
    (M.map.erase key).keys.card = M.size - 1 := by
  rw [Finmap.keys_erase, Finset.card_erase_of_mem (by rwa [Finmap.mem_keys]), NameMap.size]

def NameMap.added (M : NameMap Iface) {key : CString} (new : key ∉ M.map) (room : M.size < 16)
    (iface : Iface) : NameMap Iface where
  map := M.map.insert key iface
  capacity := by
    rw [insert_card new]
    omega

def NameMap.removed (M : NameMap Iface) (key : CString) : NameMap Iface where
  map := M.map.erase key
  capacity := by
    rw [Finmap.keys_erase]
    exact Nat.le_trans Finset.card_erase_le M.capacity

theorem key_of_slot (represents : Represents text g M) {i : Nat} (below : i < g.count)
    {name : Name} (named : (g.slots i).name = some name) : text name ∈ M.map := by
  obtain ⟨stored, iface, slot, known⟩ := represents.filled i below
  rw [slot] at named
  cases named
  exact Finmap.mem_of_lookup_eq_some known

/-- A name that is new goes into the first slot behind those in use. -/
theorem register_represents (represents : Represents text g M) {name : Name}
    (new : text name ∉ M.map) (room : M.size < 16) (iface : Iface) :
    Represents text
      { slots := Function.update g.slots g.count ⟨some name, some iface⟩, count := g.count + 1 }
      (M.added new room iface) := by
  have old : ∀ i < g.count, Function.update g.slots g.count ⟨some name, some iface⟩ i =
      g.slots i := by
    intro i below
    exact Function.update_of_ne (by omega) ..
  have other : ∀ i < g.count, ∀ stored, (g.slots i).name = some stored →
      text stored ≠ text name := by
    intro i below stored named same
    have member := key_of_slot represents below named
    rw [same] at member
    exact new member
  constructor
  · intro i below
    by_cases last : i = g.count
    · refine ⟨name, iface, ?_, Finmap.lookup_insert _⟩
      rw [last]
      exact Function.update_self ..
    · have earlier : i < g.count := by
        dsimp only at below
        omega
      obtain ⟨stored, held, slot, known⟩ := represents.filled i earlier
      refine ⟨stored, held, (old i earlier).trans slot, ?_⟩
      rw [← known]
      exact Finmap.lookup_insert_of_ne _ (other i earlier stored (by rw [slot]))
  · intro i belowI j belowJ left right namedI namedJ same
    dsimp only at belowI belowJ namedI namedJ
    by_cases lastI : i = g.count <;> by_cases lastJ : j = g.count
    · rw [lastI, lastJ]
    · rw [lastI, Function.update_self] at namedI
      cases namedI
      rw [old j (by omega)] at namedJ
      exact absurd same.symm (other j (by omega) right namedJ)
    · rw [lastJ, Function.update_self] at namedJ
      cases namedJ
      rw [old i (by omega)] at namedI
      exact absurd same (other i (by omega) left namedI)
    · rw [old i (by omega)] at namedI
      rw [old j (by omega)] at namedJ
      exact represents.distinct i (by omega) j (by omega) left right namedI namedJ same
  · intro key member
    rcases Finmap.mem_insert.mp member with rfl | before
    · exact ⟨g.count, Nat.lt_succ_self _, name, by simp, rfl⟩
    · obtain ⟨i, below, stored, named, same⟩ := represents.onto key before
      refine ⟨i, Nat.lt_succ_of_lt below, stored, ?_, same⟩
      dsimp only
      rw [old i below]
      exact named
  · rw [NameMap.size, NameMap.added, insert_card new, represents.size]

/-- The last slot fills the gap, and is the gap itself where the name was in it. -/
theorem unregister_represents (represents : Represents text g M) {i : Nat} (inside : i < g.count)
    {name : Name} (named : (g.slots i).name = some name) :
    Represents text
      { slots := Function.update g.slots i (g.slots (g.count - 1)), count := g.count - 1 }
      (M.removed (text name)) := by
  -- Slot `j` of the new table is a slot of the old one, and not slot `i`.
  have source : ∀ j < g.count - 1, ∃ k < g.count, k ≠ i ∧
      Function.update g.slots i (g.slots (g.count - 1)) j = g.slots k ∧
      k = if j = i then g.count - 1 else j := by
    intro j below
    by_cases here : j = i
    · refine ⟨g.count - 1, by omega, by omega, ?_, by rw [if_pos here]⟩
      rw [here, Function.update_self]
    · refine ⟨j, by omega, here, Function.update_of_ne here .., by rw [if_neg here]⟩
  have apart : ∀ k < g.count, k ≠ i → ∀ other, (g.slots k).name = some other →
      text other ≠ text name := by
    intro k below differs other held same
    exact differs (represents.distinct k below i inside other name held named same)
  constructor
  · intro j below
    obtain ⟨k, belowK, differs, from_, -⟩ := source j below
    obtain ⟨stored, iface, slot, known⟩ := represents.filled k belowK
    refine ⟨stored, iface, from_.trans slot, ?_⟩
    rw [← known]
    exact Finmap.lookup_erase_ne (apart k belowK differs stored (by rw [slot]))
  · intro j belowJ l belowL left right namedJ namedL same
    dsimp only at belowJ belowL namedJ namedL
    obtain ⟨k, belowK, -, from_, index⟩ := source j belowJ
    obtain ⟨k', belowK', -, from', index'⟩ := source l belowL
    rw [from_] at namedJ
    rw [from'] at namedL
    have equal := represents.distinct k belowK k' belowK' left right namedJ namedL same
    rw [index, index'] at equal
    split_ifs at equal <;> omega
  · intro key member
    obtain ⟨differs, before⟩ := Finmap.mem_erase.mp member
    obtain ⟨k, below, stored, held, same⟩ := represents.onto key before
    have notGap : k ≠ i := by
      rintro rfl
      rw [held] at named
      cases named
      exact differs same.symm
    by_cases last : k = g.count - 1
    · refine ⟨i, Nat.lt_sub_of_add_lt (by omega), stored, ?_, same⟩
      dsimp only
      rw [Function.update_self, ← last]
      exact held
    · refine ⟨k, Nat.lt_sub_of_add_lt (by omega), stored, ?_, same⟩
      dsimp only
      rw [Function.update_of_ne notGap]
      exact held
  · rw [NameMap.size, NameMap.removed, erase_card (key_of_slot represents inside named),
      represents.size]

end Changes

section Calls

variable {text} {g : Registry Name Iface} {M : NameMap Iface}

theorem mem_of_listed {k : Nat} {names : List Name}
    (listed : (List.range k).map (fun i => (g.slots i).name) = names.map some) {name : Name} :
    name ∈ names ↔ ∃ i < k, (g.slots i).name = some name := by
  have member : name ∈ names ↔ some name ∈ names.map some := by simp
  rw [member, ← listed]
  simp only [List.mem_map, List.mem_range]

theorem listed_names (represents : Represents text g M) {k : Nat} (fits : k ≤ g.count) :
    ∃ names : List Name, (List.range k).map (fun i => (g.slots i).name) = names.map some ∧
      (names.map text).Nodup := by
  induction k with
  | zero => exact ⟨[], rfl, List.nodup_nil⟩
  | succ k ih =>
      obtain ⟨names, listed, distinct⟩ := ih (by omega)
      obtain ⟨name, iface, slot, -⟩ := represents.filled k (by omega)
      have here : (g.slots k).name = some name := by rw [slot]
      refine ⟨names ++ [name], ?_, ?_⟩
      · rw [List.range_succ, List.map_append, listed, List.map_append, List.map_singleton, here]
        rfl
      · rw [List.map_append, List.map_singleton, List.nodup_append]
        refine ⟨distinct, List.nodup_singleton _, ?_⟩
        intro key member last only same
        rw [List.mem_singleton.mp only] at same
        obtain ⟨other, listedOther, rfl⟩ := List.mem_map.mp member
        obtain ⟨i, below, named⟩ := (mem_of_listed listed).mp listedOther
        have equal := represents.distinct i (by omega) k (by omega) other name named here same
        omega

theorem list_refines (represents : Represents text g M) (maxNames : Int) :
    MapStep text M (.list maxNames) (.names (netDevList g maxNames).1 (netDevList g maxNames).2)
      M := by
  have size := represents.size
  by_cases negative : maxNames < 0
  · have none : netDevList g maxNames = (maxNames, []) := by
      have count : ¬ (g.count : Int) < maxNames := by omega
      have empty : maxNames.toNat = 0 := by omega
      simp [netDevList, count, empty]
    rw [none]
    exact .listedNone negative
  · have amount : (if (g.count : Int) < maxNames then (g.count : Int) else maxNames) =
        min (M.size : Int) maxNames := by
      split_ifs <;> omega
    obtain ⟨names, listed, distinct⟩ :=
      listed_names represents (k := (min (M.size : Int) maxNames).toNat) (by omega)
    have length : (names.length : Int) = min (M.size : Int) maxNames := by
      have lengths := congrArg List.length listed
      rw [List.length_map, List.length_map, List.length_range] at lengths
      omega
    have reply : netDevList g maxNames = ((names.length : Int), names.map some) := by
      rw [netDevList, amount, listed, length]
    rw [reply]
    refine .listed (by omega) length distinct ?_ ?_
    · intro name member
      obtain ⟨i, below, named⟩ := (mem_of_listed listed).mp member
      exact key_of_slot represents (by omega) named
    · intro enough key member
      obtain ⟨i, below, name, named, same⟩ := represents.onto key member
      exact ⟨name, (mem_of_listed listed).mpr ⟨i, by omega, named⟩, same⟩

theorem register_refines (represents : Represents text g M) (name : Name) (iface : Option Iface) :
    ∃ g' reply M', netDevCall text g (.register name iface) = .ok (g', reply) ∧
      MapStep text M (.register name iface) reply M' ∧ Represents text g' M' := by
  have size := represents.size
  have capacity := M.capacity
  cases iface with
  | none => exact ⟨g, .status (-1), M, rfl, .registerRefused (Or.inl rfl), represents⟩
  | some iface =>
      by_cases full : netdevMaxRegistered ≤ g.count
      · have ran : netDevCall text g (.register name (some iface)) = .ok (g, .status (-1)) := by
          rw [netDevCall, netDevRegister, if_pos full]
          rfl
        have limit : M.size = 16 := by
          rw [netdevMaxRegistered] at full
          rw [NameMap.size] at size ⊢
          omega
        exact ⟨g, _, M, ran, .registerRefused (Or.inr (Or.inr limit)), represents⟩
      · rcases scan_cases represents name with ⟨i, below, stored, held, found, slot, same, known⟩ |
          ⟨missed, new⟩
        · have ran : netDevCall text g (.register name (some iface)) = .ok (g, .status (-1)) := by
            rw [netDevCall, netDevRegister, if_neg full, found]
            rfl
          have taken := Finmap.mem_of_lookup_eq_some known
          exact ⟨g, _, M, ran, .registerRefused (Or.inr (Or.inl taken)), represents⟩
        · have ran : netDevCall text g (.register name (some iface)) =
              .ok ({ slots := Function.update g.slots g.count ⟨some name, some iface⟩
                     count := g.count + 1 }, .status 0) := by
            rw [netDevCall, netDevRegister, if_neg full, missed]
            rfl
          have room : M.size < 16 := by
            rw [netdevMaxRegistered] at full
            omega
          exact ⟨_, _, M.added new room iface, ran, .registered new room rfl,
            register_represents represents new room iface⟩

theorem unregister_refines (represents : Represents text g M) (name : Name) :
    ∃ g' reply M', netDevCall text g (.unregister name) = .ok (g', reply) ∧
      MapStep text M (.unregister name) reply M' ∧ Represents text g' M' := by
  rcases scan_cases represents name with ⟨i, below, stored, held, found, slot, same, known⟩ |
    ⟨missed, unknown⟩
  · have ran : netDevCall text g (.unregister name) =
        .ok ({ slots := Function.update g.slots i (g.slots (g.count - 1))
               count := g.count - 1 }, .status 0) := by
      rw [netDevCall, netDevUnregister, found]
      rfl
    have named : (g.slots i).name = some stored := by rw [slot]
    have after := unregister_represents represents below named
    rw [same] at after
    exact ⟨_, _, M.removed (text name), ran,
      .unregistered (Finmap.mem_of_lookup_eq_some known) rfl, after⟩
  · have ran : netDevCall text g (.unregister name) = .ok (g, .status (-1)) := by
      rw [netDevCall, netDevUnregister, missed]
      rfl
    exact ⟨g, _, M, ran, .unregisterRefused unknown, represents⟩

theorem lookup_refines (represents : Represents text g M) (name : Name) :
    netDevCall text g (.lookup name) = .ok (g, .iface (M.map.lookup (text name))) := by
  rcases scan_cases represents name with ⟨i, below, stored, held, found, slot, same, known⟩ |
    ⟨missed, unknown⟩
  · rw [netDevCall, netDevLookup, found, known]
    change Except.ok (g, Reply.iface (g.slots i).iface) = _
    rw [slot]
  · rw [netDevCall, netDevLookup, missed, Finmap.lookup_eq_none.mpr unknown]
    rfl

theorem call_refines (represents : Represents text g M) (call : Call Name Iface) :
    ∃ g' reply M', netDevCall text g call = .ok (g', reply) ∧ MapStep text M call reply M' ∧
      Represents text g' M' := by
  cases call with
  | register name iface => exact register_refines represents name iface
  | unregister name => exact unregister_refines represents name
  | lookup name => exact ⟨g, _, M, lookup_refines represents name, .found, represents⟩
  | list maxNames => exact ⟨g, _, M, rfl, list_refines represents maxNames, represents⟩

theorem failed_call_unchanged {g' : Registry Name Iface} {call : Call Name Iface}
    (ran : netDevCall text g call = .ok (g', .status (-1))) : g' = g := by
  cases call with
  | register name iface =>
      cases iface with
      | none =>
          cases ran
          rfl
      | some iface =>
          rw [netDevCall, netDevRegister] at ran
          split_ifs at ran with full
          · cases ran
            rfl
          · generalize scan text g.slots (some name) g.count 0 = outcome at ran
            rcases outcome with fault | _ | i
            · cases ran
            · cases ran
            · cases ran
              rfl
  | unregister name =>
      rw [netDevCall, netDevUnregister] at ran
      generalize scan text g.slots (some name) g.count 0 = outcome at ran
      rcases outcome with fault | _ | i
      · cases ran
      · cases ran
        rfl
      · cases ran
  | lookup name =>
      rw [netDevCall] at ran
      generalize netDevLookup text g (some name) = outcome at ran
      rcases outcome with fault | found
      · cases ran
      · cases ran
  | list maxNames => cases ran

end Calls

/-- Whatever the calls, a map of at most sixteen names answers each of them as the
registry does, from the empty map on, and a call that fails leaves the table as it
was. -/
theorem registry_is_finite_map (calls : List (Call Name Iface)) :
    ∃ g replies M, serveAll (netDevCall text) {} calls = .ok (g, replies) ∧
      Follows (MapStep text) .blank calls replies M ∧
      ∀ call g', netDevCall text g call = .ok (g', .status (-1)) → g' = g := by
  have refines : ∀ (g : Registry Name Iface) (M : NameMap Iface) call, Represents text g M →
      ∃ g' reply M', netDevCall text g call = .ok (g', reply) ∧ MapStep text M call reply M' ∧
        Represents text g' M' := by
    intro g M call represents
    exact call_refines represents call
  obtain ⟨g, replies, M, ran, follows, -⟩ :=
    serveAll_refines (Represents text) refines (represents_blank text) calls
  exact ⟨g, replies, M, ran, follows, fun call g' => failed_call_unchanged⟩

end Netstack.NetdevRegistry
