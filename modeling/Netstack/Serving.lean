import Mathlib.Data.List.Basic

/-!
Servers that answer one request at a time, and two runs of them side by side.
`Paired` relates two fallible computations that end alike, with a rule for each
way of building one. From a lemma about one request follow three facts about whole
lists: related states give the same replies, a server that refines a specification
answers as a run of it does, and in a list merged from several clients one of them
gets the replies it gets alone.
-/

namespace Netstack.Serving

variable {State Req Reply Fault Client : Type}

section Paired

variable {α β γ δ : Type}

/-- Both computations succeed with related results, or both fail with one fault. -/
def Paired (post : α → β → Prop) : Except Fault α → Except Fault β → Prop
  | .ok a, .ok b => post a b
  | .error e, .error f => e = f
  | _, _ => False

theorem paired_bind {mid : α → β → Prop} {post : γ → δ → Prop} {x : Except Fault α}
    {y : Except Fault β} {f : α → Except Fault γ} {g : β → Except Fault δ} (first : Paired mid x y)
    (next : ∀ a b, mid a b → Paired post (f a) (g b)) : Paired post (x >>= f) (y >>= g) := by
  cases x with
  | error e =>
      cases y with
      | error f => exact first
      | ok b => exact first.elim
  | ok a =>
      cases y with
      | error f => exact first.elim
      | ok b => exact next a b first

/-- A step that both sides take alike. -/
theorem paired_step {post : γ → δ → Prop} (x : Except Fault α) {f : α → Except Fault γ}
    {g : α → Except Fault δ} (next : ∀ a, Paired post (f a) (g a)) :
    Paired post (x >>= f) (x >>= g) := by
  cases x with
  | error e => exact rfl
  | ok a => exact next a

theorem paired_ite {post : α → β → Prop} {p : Prop} [Decidable p] {x x' : Except Fault α}
    {y y' : Except Fault β} (yes : p → Paired post x y) (no : ¬ p → Paired post x' y') :
    Paired post (if p then x else x') (if p then y else y') := by
  by_cases holds : p
  · rw [if_pos holds, if_pos holds]
    exact yes holds
  · rw [if_neg holds, if_neg holds]
    exact no holds

theorem paired_of_ok {post : α → β → Prop} {x : Except Fault α} {y : Except Fault β} {a : α}
    (both : Paired post x y) (ran : x = .ok a) : ∃ b, y = .ok b ∧ post a b := by
  subst ran
  cases y with
  | error f => exact both.elim
  | ok b => exact ⟨b, rfl, both⟩

end Paired

/-! Lists of requests. -/

def serveAll (serve : State → Req → Except Fault (State × Reply)) (s : State) :
    List Req → Except Fault (State × List Reply)
  | [] => .ok (s, [])
  | r :: rest => do
      let (next, reply) ← serve s r
      let (last, replies) ← serveAll serve next rest
      return (last, reply :: replies)

/-- Equal replies, related states. -/
def Answers (related : State → State → Prop) (left right : State × Reply) : Prop :=
  related left.1 right.1 ∧ left.2 = right.2

variable {serve : State → Req → Except Fault (State × Reply)}

theorem serveAll_cons {s next last : State} {r : Req} {reply : Reply} {rest : List Req}
    {replies : List Reply} (first : serve s r = .ok (next, reply))
    (others : serveAll serve next rest = .ok (last, replies)) :
    serveAll serve s (r :: rest) = .ok (last, reply :: replies) := by
  simp only [serveAll, first]
  change (serveAll serve next rest >>= _) = _
  rw [others]
  rfl

theorem serveAll_cons_ok {s last : State} {r : Req} {rest : List Req} {replies : List Reply}
    (ran : serveAll serve s (r :: rest) = .ok (last, replies)) :
    ∃ next reply others, serve s r = .ok (next, reply) ∧
      serveAll serve next rest = .ok (last, others) ∧ replies = reply :: others := by
  cases served : serve s r with
  | error fault =>
      simp only [serveAll, served] at ran
      contradiction
  | ok answer =>
      cases run : serveAll serve answer.1 rest with
      | error fault =>
          simp only [serveAll, served] at ran
          change (serveAll serve answer.1 rest >>= _) = _ at ran
          rw [run] at ran
          contradiction
      | ok result =>
          have whole := serveAll_cons served run
          rw [ran] at whole
          cases whole
          exact ⟨_, _, _, rfl, run, rfl⟩

theorem serveAll_paired (related : State → State → Prop)
    (alike : ∀ s u r, related s u → Paired (Answers related) (serve s r) (serve u r))
    {s u : State} (now : related s u) (reqs : List Req) :
    Paired (Answers related) (serveAll serve s reqs) (serveAll serve u reqs) := by
  induction reqs generalizing s u with
  | nil => exact ⟨now, rfl⟩
  | cons r rest ih =>
      refine paired_bind (alike s u r now) ?_
      rintro ⟨s₁, reply⟩ ⟨u₁, _⟩ ⟨next, rfl⟩
      refine paired_bind (ih next) ?_
      rintro ⟨s', replies⟩ ⟨u', _⟩ ⟨last, rfl⟩
      exact ⟨last, rfl⟩

theorem serveAll_append {s middle last : State} {first second : List Req}
    {replies others : List Reply} (begun : serveAll serve s first = .ok (middle, replies))
    (ended : serveAll serve middle second = .ok (last, others)) :
    serveAll serve s (first ++ second) = .ok (last, replies ++ others) := by
  induction first generalizing s replies with
  | nil =>
      cases begun
      exact ended
  | cons r rest ih =>
      obtain ⟨next, reply, tail, served, run, rfl⟩ := serveAll_cons_ok begun
      exact serveAll_cons served (ih run)

theorem serveAll_invariant (inv : State → Prop)
    (kept : ∀ s r s' reply, inv s → serve s r = .ok (s', reply) → inv s') {s s' : State}
    {reqs : List Req} {replies : List Reply} (now : inv s)
    (ran : serveAll serve s reqs = .ok (s', replies)) : inv s' := by
  induction reqs generalizing s replies with
  | nil =>
      cases ran
      exact now
  | cons r rest ih =>
      obtain ⟨next, reply, tail, served, run, rfl⟩ := serveAll_cons_ok ran
      exact ih (kept s r next reply now served) run

/-- A run of a specification that answers each request as given. -/
inductive Follows {Abs : Type} (spec : Abs → Req → Reply → Abs → Prop) :
    Abs → List Req → List Reply → Abs → Prop where
  | nil (a : Abs) : Follows spec a [] [] a
  | cons {a next last : Abs} {r : Req} {reply : Reply} {rest : List Req} {replies : List Reply}
      (first : spec a r reply next) (others : Follows spec next rest replies last) :
      Follows spec a (r :: rest) (reply :: replies) last

/-- A server that never fails and answers each request as a specification does,
with the states kept in relation, answers every list of them so. -/
theorem serveAll_refines {Abs : Type} {spec : Abs → Req → Reply → Abs → Prop}
    (rel : State → Abs → Prop)
    (refines : ∀ s a r, rel s a → ∃ s' reply a',
      serve s r = .ok (s', reply) ∧ spec a r reply a' ∧ rel s' a')
    {s : State} {a : Abs} (now : rel s a) (reqs : List Req) :
    ∃ s' replies a', serveAll serve s reqs = .ok (s', replies) ∧
      Follows spec a reqs replies a' ∧ rel s' a' := by
  induction reqs generalizing s a with
  | nil => exact ⟨s, [], a, rfl, .nil a, now⟩
  | cons r rest ih =>
      obtain ⟨s₁, reply, a₁, served, first, next⟩ := refines s a r now
      obtain ⟨s', replies, a', run, others, last⟩ := ih next
      exact ⟨s', reply :: replies, a', serveAll_cons served run, .cons first others, last⟩

/-! Several clients. A merged list carries the client of each request, and the
replies carry it back. -/

def tagged (serve : State → Req → Except Fault (State × Reply)) (s : State)
    (request : Client × Req) : Except Fault (State × (Client × Reply)) := do
  let (next, reply) ← serve s request.2
  return (next, (request.1, reply))

theorem tagged_ok {s next : State} {request : Client × Req} {reply : Reply}
    (served : serve s request.2 = .ok (next, reply)) :
    tagged serve s request = .ok (next, (request.1, reply)) := by
  simp only [tagged, served]
  rfl

section Part

variable [DecidableEq Client] {Item : Type}

/-- What one client has in a merged list, in its own order. -/
def part (who : Client) (merged : List (Client × Item)) : List Item :=
  merged.filterMap fun item => if item.1 = who then some item.2 else none

theorem part_cons_own (who : Client) (item : Item) (rest : List (Client × Item)) :
    part who ((who, item) :: rest) = item :: part who rest := by
  simp [part]

theorem part_cons_other {who client : Client} (apart : client ≠ who) (item : Item)
    (rest : List (Client × Item)) : part who ((client, item) :: rest) = part who rest := by
  simp [part, apart]

theorem mem_part {who : Client} {merged : List (Client × Item)} {item : Item} :
    item ∈ part who merged ↔ (who, item) ∈ merged := by
  simp only [part, List.mem_filterMap, Option.ite_none_right_eq_some, Option.some.injEq,
    Prod.exists]
  constructor
  · rintro ⟨client, other, member, rfl, rfl⟩
    exact member
  · intro member
    exact ⟨who, item, member, rfl, rfl⟩

end Part

/-- One client of a merged list. `agree` relates the state of the merged run
to that of the run in which this client is alone: its own requests keep it and
get the same reply on both sides, and a request of another client keeps it
while the lonely run stands still. -/
theorem merged_alone [DecidableEq Client] (allowed : Client → Req → Prop) (who : Client)
    (agree : State → State → Prop)
    (own : ∀ s u r, agree s u → allowed who r → ∃ s' u' reply,
      serve s r = .ok (s', reply) ∧ serve u r = .ok (u', reply) ∧ agree s' u')
    (foreign : ∀ s u client r, client ≠ who → agree s u → allowed client r → ∃ s' reply,
      serve s r = .ok (s', reply) ∧ agree s' u)
    {s u : State} (now : agree s u) (merged : List (Client × Req))
    (all : ∀ request ∈ merged, allowed request.1 request.2) :
    ∃ s' u' replies, serveAll (tagged serve) s merged = .ok (s', replies) ∧
      serveAll serve u (part who merged) = .ok (u', part who replies) ∧ agree s' u' := by
  induction merged generalizing s u with
  | nil => exact ⟨s, u, [], rfl, rfl, now⟩
  | cons request rest ih =>
      obtain ⟨client, r⟩ := request
      obtain ⟨latest, others⟩ := List.forall_mem_cons.mp all
      by_cases mine : client = who
      · subst client
        obtain ⟨s₁, u₁, reply, served, servedToo, next⟩ := own s u r now latest
        obtain ⟨s', u', replies, run, alone, last⟩ := ih next others
        refine ⟨s', u', (who, reply) :: replies, serveAll_cons (tagged_ok served) run, ?_, last⟩
        rw [part_cons_own, part_cons_own]
        exact serveAll_cons servedToo alone
      · obtain ⟨s₁, reply, served, next⟩ := foreign s u client r mine now latest
        obtain ⟨s', u', replies, run, alone, last⟩ := ih next others
        refine ⟨s', u', (client, reply) :: replies, serveAll_cons (tagged_ok served) run, ?_, last⟩
        rw [part_cons_other mine, part_cons_other mine]
        exact alone

end Netstack.Serving
