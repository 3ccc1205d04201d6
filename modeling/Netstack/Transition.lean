import Mathlib.Data.List.Basic

/-!
Histories of a labelled transition system. A `Trace` grows at its end, so an
induction over it meets the newest move last, as the code does. The rules below
turn a step lemma into a statement about every history: an invariant of every
step, an invariant of the steps that meet a condition, and the exact case, in
which the condition on the steps is also necessary.
-/

namespace Netstack.Transition

variable {State Label : Type}

structure Move (State Label : Type) where
  before : State
  label : Label
  after : State

inductive Trace (step : State → Label → State → Prop) (start : State) :
    List (Move State Label) → State → Prop where
  | nil : Trace step start [] start
  | snoc {history : List (Move State Label)} {now next : State} {label : Label}
      (past : Trace step start history now) (taken : step now label next) :
      Trace step start (history ++ [⟨now, label, next⟩]) next

variable {step : State → Label → State → Prop} {start : State}
variable {history : List (Move State Label)} {now : State}

theorem trace_invariant (inv : State → Prop) (base : inv start)
    (kept : ∀ before label after, inv before → step before label after → inv after)
    (trace : Trace step start history now) : inv now := by
  induction trace with
  | nil => exact base
  | snoc _ taken ih => exact kept _ _ _ ih taken

/-- A rank that every step lowers bounds the length of a history. -/
theorem trace_ranked (inv : State → Prop) (rank : State → Nat) (base : inv start)
    (kept : ∀ before label after, inv before → step before label after → inv after)
    (lowers : ∀ before label after, inv before → step before label after →
      rank after < rank before)
    (trace : Trace step start history now) : history.length + rank now ≤ rank start := by
  induction trace with
  | nil => simp
  | snoc past taken ih =>
      have lower := lowers _ _ _ (trace_invariant inv base kept past) taken
      rw [List.length_append, List.length_singleton]
      omega

/-- Every move of a trace starts in a state that the trace reaches. -/
theorem trace_move (trace : Trace step start history now)
    {move : Move State Label} (member : move ∈ history) :
    (∃ past, Trace step start past move.before) ∧
      step move.before move.label move.after := by
  induction trace with
  | nil => simp at member
  | snoc past taken ih =>
      rcases List.mem_append.mp member with old | new
      · exact ih old
      · rw [List.mem_singleton.mp new]
        exact ⟨⟨_, past⟩, taken⟩

theorem trace_append (first : List (Move State Label)) {second : List (Move State Label)}
    (trace : Trace step start (first ++ second) now) :
    ∃ middle, Trace step start first middle ∧ Trace step middle second now := by
  generalize whole : first ++ second = all at trace
  induction trace generalizing second with
  | nil =>
      obtain ⟨rfl, rfl⟩ := List.append_eq_nil_iff.mp whole
      exact ⟨start, .nil, .nil⟩
  | @snoc history now next label past taken ih =>
      rcases List.eq_nil_or_concat second with rfl | ⟨front, last, rfl⟩
      · rw [List.append_nil] at whole
        subst whole
        exact ⟨next, .snoc past taken, .nil⟩
      · rw [List.concat_eq_append, ← List.append_assoc] at whole
        obtain ⟨same, ends⟩ := List.append_inj' whole rfl
        obtain rfl := List.singleton_inj.mp ends
        obtain ⟨middle, before, after⟩ := ih same
        rw [List.concat_eq_append]
        exact ⟨middle, before, .snoc after taken⟩

theorem trace_join {middle : State} {first second : List (Move State Label)}
    (before : Trace step start first middle) (after : Trace step middle second now) :
    Trace step start (first ++ second) now := by
  induction after with
  | nil =>
      rw [List.append_nil]
      exact before
  | snoc past taken ih =>
      rw [← List.append_assoc]
      exact ih.snoc taken

theorem trace_cons {move : Move State Label} {rest : List (Move State Label)}
    (trace : Trace step start (move :: rest) now) :
    move.before = start ∧ step start move.label move.after ∧ Trace step move.after rest now := by
  obtain ⟨middle, single, others⟩ := trace_append [move] trace
  generalize whole : [move] = all at single
  cases single with
  | nil => contradiction
  | @snoc history now next label past taken =>
      cases past with
      | nil =>
          cases whole
          exact ⟨rfl, taken, others⟩
      | snoc _ _ =>
          have length := congrArg List.length whole
          simp at length

/-- An invariant of the steps that meet `guard` holds after every history
whose moves all meet it. -/
theorem guarded_invariant (guard : State → Label → Prop) (inv : State → Prop) (base : inv start)
    (kept : ∀ before label after, inv before → guard before label →
      step before label after → inv after)
    (trace : Trace step start history now)
    (guarded : ∀ move ∈ history, guard move.before move.label) : inv now := by
  induction trace with
  | nil => exact base
  | snoc _ taken ih =>
      have earlier := ih fun move member => guarded move (List.mem_append_left _ member)
      have latest := guarded _ (List.mem_append_right _ (List.mem_singleton_self _))
      exact kept _ _ _ earlier latest taken

/-- Such an invariant holds around every move of the history. -/
theorem guarded_moves (guard : State → Label → Prop) (inv : State → Prop) (base : inv start)
    (kept : ∀ before label after, inv before → guard before label →
      step before label after → inv after)
    (trace : Trace step start history now)
    (guarded : ∀ move ∈ history, guard move.before move.label) :
    ∀ move ∈ history, inv move.before ∧ step move.before move.label move.after ∧
      inv move.after := by
  induction trace with
  | nil => simp
  | snoc past taken ih =>
      simp only [List.forall_mem_append, List.forall_mem_singleton] at guarded ⊢
      have before := guarded_invariant guard inv base kept past guarded.1
      exact ⟨ih guarded.1, before, taken, kept _ _ _ before guarded.2 taken⟩

/-- The history a list of labels makes where each next state is computed. -/
def follow (next : State → Label → Option State) (past : List (Move State Label)) (now : State) :
    List Label → Option (List (Move State Label) × State)
  | [] => some (past, now)
  | label :: rest =>
      match next now label with
      | some after => follow next (past ++ [⟨now, label, after⟩]) after rest
      | none => none

theorem follow_trace {next : State → Label → Option State} {labels : List Label}
    {past history : List (Move State Label)} {middle now : State}
    (trace : Trace (fun s e s' => next s e = some s') start past middle)
    (followed : follow next past middle labels = some (history, now)) :
    Trace (fun s e s' => next s e = some s') start history now := by
  induction labels generalizing past middle with
  | nil =>
      cases followed
      exact trace
  | cons label rest ih =>
      cases taken : next middle label with
      | none => simp [follow, taken] at followed
      | some after =>
          simp only [follow, taken] at followed
          exact ih (.snoc trace taken) followed

def visited (start : State) (history : List (Move State Label)) : List State :=
  start :: history.map Move.after

theorem trace_end_visited (trace : Trace step start history now) : now ∈ visited start history := by
  cases trace with
  | nil => exact List.mem_cons_self
  | snoc past taken => simp [visited]

theorem visited_snoc (history : List (Move State Label)) (move : Move State Label) :
    visited start (history ++ [move]) = visited start history ++ [move.after] := by
  simp [visited]

theorem visited_invariant (inv : State → Prop) (base : inv start)
    (kept : ∀ before label after, inv before → step before label after → inv after)
    (trace : Trace step start history now) : ∀ state ∈ visited start history, inv state := by
  induction trace with
  | nil => simpa [visited] using base
  | snoc past taken ih =>
      rw [visited_snoc]
      simp only [List.forall_mem_append, List.forall_mem_singleton]
      exact ⟨ih, kept _ _ _ (ih _ (trace_end_visited past)) taken⟩

/-- What no step ends and some visited state has, the last state has. -/
theorem visited_stable (bad : State → Prop)
    (stable : ∀ before label after, bad before → step before label after → bad after)
    (trace : Trace step start history now) {state : State}
    (member : state ∈ visited start history) (holds : bad state) : bad now := by
  induction trace with
  | nil => rw [List.mem_singleton.mp member] at holds; exact holds
  | snoc past taken ih =>
      rw [visited_snoc] at member
      rcases List.mem_append.mp member with earlier | latest
      · exact stable _ _ _ (ih earlier) taken
      · rw [List.mem_singleton.mp latest] at holds
        exact holds

/-- When `guard` decides a step, a history keeps the invariant in every state
it visits exactly when every move meets the guard. `base` is what holds of
every reachable state anyway. -/
theorem guarded_exact (guard : State → Label → Prop) (base inv : State → Prop)
    (reached : ∀ {history now}, Trace step start history now → base now)
    (initially : inv start)
    (decides : ∀ before label after, base before → inv before →
      step before label after → (inv after ↔ guard before label))
    (trace : Trace step start history now) :
    (∀ state ∈ visited start history, inv state) ↔
      ∀ move ∈ history, guard move.before move.label := by
  induction trace with
  | nil => simpa [visited] using initially
  | @snoc history now next label past taken ih =>
      rw [visited_snoc]
      simp only [List.forall_mem_append, List.forall_mem_singleton]
      constructor
      · rintro ⟨all, last⟩
        have holds := all now (trace_end_visited past)
        exact ⟨ih.mp all, (decides _ _ _ (reached past) holds taken).mp last⟩
      · rintro ⟨all, last⟩
        have earlier := ih.mpr all
        have holds := earlier now (trace_end_visited past)
        exact ⟨earlier, (decides _ _ _ (reached past) holds taken).mpr last⟩

/-- A flag that only a step of the one kind sets and that every step of the other kind
takes down: there are no more of the latter than of the former. -/
theorem charged (flag : State → Bool) (sets takes : Label → Bool) (down : flag start = false)
    (set : ∀ before label after, step before label after → flag before = false →
      flag after = true → sets label = true)
    (taken : ∀ before label after, step before label after → takes label = true →
      flag before = true ∧ flag after = false)
    (trace : Trace step start history now) :
    history.countP (fun move => takes move.label) + (flag now).toNat ≤
      history.countP fun move => sets move.label := by
  induction trace with
  | nil => simp [down]
  | @snoc history now next label past done ih =>
      have sets_ := set now label next done
      have takes_ := taken now label next done
      simp only [List.countP_append, List.countP_singleton]
      cases before : flag now <;> cases after : flag next <;> cases costs : takes label <;>
        cases pays : sets label <;> simp_all <;> omega

/-- A countdown that the steps of one kind move on and the others leave alone: either it
has reached its goal on the way, or it stands at what is left of it. -/
theorem countdown (due : Nat → State → Prop) (goal calm : State → Prop) (takes : Label → Bool)
    (counted : ∀ n before label after, due n before → calm after → step before label after →
      takes label = true → goal after ∨ ∃ m, n = m + 1 ∧ due m after)
    (kept : ∀ n before label after, due n before → calm after → step before label after →
      takes label = false → due n after)
    {n : Nat} (base : due n start) (trace : Trace step start history now)
    (calmly : ∀ state ∈ visited start history, calm state) :
    (∃ state ∈ visited start history, goal state) ∨
      ∃ m, due m now ∧ m + history.countP (fun move => takes move.label) = n := by
  induction trace with
  | nil => exact .inr ⟨n, base, rfl⟩
  | @snoc history now next label past taken ih =>
      rw [visited_snoc] at calmly ⊢
      simp only [List.forall_mem_append, List.forall_mem_singleton] at calmly
      rcases ih calmly.1 with ⟨state, member, reached⟩ | ⟨m, left_, sum⟩
      · exact .inl ⟨state, List.mem_append_left _ member, reached⟩
      · simp only [List.countP_append, List.countP_singleton]
        cases costs : takes label with
        | false => exact .inr ⟨m, kept m now label next left_ calmly.2 taken costs, sum⟩
        | true =>
            rcases counted m now label next left_ calmly.2 taken costs with reached | ⟨l, less, rest⟩
            · exact .inl ⟨next, List.mem_append_right _ (List.mem_singleton_self _), reached⟩
            · refine .inr ⟨l, rest, ?_⟩
              simp only [if_true]
              omega

/-! Observers. `observe` folds what an onlooker knows over a history, and
`Along` asks of every move a property of it and of what was known before it. -/

variable {Known : Type}

def Along (observe : Known → Move State Label → Known)
    (holds : Known → Move State Label → Prop) : Known → List (Move State Label) → Prop
  | _, [] => True
  | known, move :: rest => holds known move ∧ Along observe holds (observe known move) rest

variable {observe : Known → Move State Label → Known}
variable {holds : Known → Move State Label → Prop}

theorem along_snoc (known : Known) (history : List (Move State Label))
    (move : Move State Label) :
    Along observe holds known (history ++ [move]) ↔
      Along observe holds known history ∧ holds (history.foldl observe known) move := by
  induction history generalizing known with
  | nil => simp [Along]
  | cons first rest ih =>
      simp only [List.cons_append, Along, ih, List.foldl_cons, and_assoc]

theorem along_mono {weaker : Known → Move State Label → Prop}
    (implies : ∀ known move, holds known move → weaker known move) {known : Known}
    {history : List (Move State Label)} (along : Along observe holds known history) :
    Along observe weaker known history := by
  induction history generalizing known with
  | nil => trivial
  | cons first rest ih => exact ⟨implies known first along.1, ih along.2⟩

theorem along_of_forall {property : Move State Label → Prop} (known : Known)
    {history : List (Move State Label)} (all : ∀ move ∈ history, property move) :
    Along observe (fun _ => property) known history := by
  induction history generalizing known with
  | nil => trivial
  | cons first rest ih =>
      exact ⟨all first List.mem_cons_self, ih _ fun move member => all move (.tail _ member)⟩

theorem forall_of_along {property : Move State Label → Prop} {known : Known}
    {history : List (Move State Label)} (along : Along observe (fun _ => property) known history) :
    ∀ move ∈ history, property move := by
  induction history generalizing known with
  | nil => simp
  | cons first rest ih => exact List.forall_mem_cons.mpr ⟨along.1, ih along.2⟩

instance decidableAlong [∀ known move, Decidable (holds known move)] (known : Known) :
    (history : List (Move State Label)) → Decidable (Along observe holds known history)
  | [] => isTrue trivial
  | move :: rest =>
      have := decidableAlong (observe known move) rest
      inferInstanceAs (Decidable (_ ∧ _))

/-- An invariant of state and knowledge holds after every history whose moves
meet the guard, and so does what it implies of each move. -/
theorem observed_invariant (inv : Known → State → Prop)
    (guard : Known → Move State Label → Prop) {known : Known} (base : inv known start)
    (kept : ∀ known before label after, inv known before → step before label after →
      guard known ⟨before, label, after⟩ → inv (observe known ⟨before, label, after⟩) after)
    (implied : ∀ known before label after, inv known before → step before label after →
      guard known ⟨before, label, after⟩ → holds known ⟨before, label, after⟩)
    (trace : Trace step start history now) (guarded : Along observe guard known history) :
    inv (history.foldl observe known) now ∧ Along observe holds known history := by
  induction trace with
  | nil => exact ⟨base, trivial⟩
  | snoc past taken ih =>
      obtain ⟨earlier, latest⟩ := (along_snoc ..).mp guarded
      obtain ⟨invariant, along⟩ := ih earlier
      rw [List.foldl_append]
      exact ⟨kept _ _ _ _ invariant taken latest,
        (along_snoc ..).mpr ⟨along, implied _ _ _ _ invariant taken latest⟩⟩

/-- When the guard decides what is asked of a move, a history has the one along
it exactly when it has the other. -/
theorem observed_exact (inv : Known → State → Prop)
    (guard : Known → Move State Label → Prop) {known : Known} (base : inv known start)
    (kept : ∀ known before label after, inv known before → step before label after →
      guard known ⟨before, label, after⟩ → inv (observe known ⟨before, label, after⟩) after)
    (decides : ∀ known before label after, inv known before → step before label after →
      (holds known ⟨before, label, after⟩ ↔ guard known ⟨before, label, after⟩))
    (trace : Trace step start history now) :
    Along observe holds known history ↔ Along observe guard known history := by
  induction trace with
  | nil => exact Iff.rfl
  | snoc past taken ih =>
      rw [along_snoc, along_snoc, ih]
      refine and_congr_right fun guarded => ?_
      obtain ⟨invariant, -⟩ := observed_invariant inv guard base kept
        (fun _ _ _ _ _ _ met => met) past guarded
      exact decides _ _ _ _ invariant taken

end Netstack.Transition
