import Netstack.FdAlike
import Netstack.FdBounds

/-!
Connections that have no entry in common. A send or recv looks at the entry it
names and at that entry's peer, writes into one of the two, and changes neither
kinds nor peers. So two clients whose entries and peers are apart can be
interleaved in any way: each gets the replies it gets alone, and the table ends
the same.
-/

namespace Netstack.FdTable

open Ipc Client Serving

inductive Party where
  | first
  | second
  deriving DecidableEq

/-- The peers of the open sockets among `fds`; `-1` stands for none. -/
def peersOf (t : Table) (fds : Set Int) : Set Int :=
  {p | ∃ fd ∈ fds, IsOpen t fd ∧ (t fd).peerFd = p ∧ p ≠ -1}

def reach (t : Table) (fds : Set Int) : Set Int := fds ∪ peersOf t fds

theorem reach_subset {t : Table} {fds cells : Set Int} (own : fds ⊆ cells)
    (peers : ∀ fd ∈ fds, (t fd).peerFd ∈ cells) : reach t fds ⊆ cells := by
  rintro fd (member | ⟨source, member, -, rfl, -⟩)
  · exact own member
  · exact peers source member

/-- A send or a recv on one of `fds`. -/
def Transfers (fds : Set Int) (r : NetstackReq) : Prop :=
  (r.kind = .send ∧ r.u.send.sock ∈ fds) ∨ (r.kind = .recv ∧ r.u.recv.sock ∈ fds)

/-! What a transfer leaves as it is. -/

structure Confined (cells : Set Int) (s s' : Engine) : Prop where
  kinds : ∀ fd, (s'.table fd).kind = (s.table fd).kind
  peers : ∀ fd, (s'.table fd).peerFd = (s.table fd).peerFd
  frame : ∀ fd, ¬ (fd ∈ cells ∧ IsOpen s.table fd) → s'.table fd = s.table fd
  flag : s'.shutdown = s.shutdown

theorem confined_refl (cells : Set Int) (s : Engine) : Confined cells s s :=
  ⟨fun _ => rfl, fun _ => rfl, fun _ _ => rfl, rfl⟩

theorem Confined.isOpen_iff {cells : Set Int} {s s' : Engine} (confined : Confined cells s s')
    (fd : Int) : IsOpen s'.table fd ↔ IsOpen s.table fd := by
  simp only [IsOpen, confined.kinds]

theorem Confined.trans {cells : Set Int} {s s₁ s' : Engine} (left : Confined cells s s₁)
    (right : Confined cells s₁ s') : Confined cells s s' := by
  refine ⟨?_, ?_, ?_, right.flag.trans left.flag⟩
  · exact fun fd => (right.kinds fd).trans (left.kinds fd)
  · exact fun fd => (right.peers fd).trans (left.peers fd)
  · intro fd outside
    rw [right.frame fd (by rwa [left.isOpen_iff]), left.frame fd outside]

theorem Confined.mono {cells wider : Set Int} {s s' : Engine} (confined : Confined cells s s')
    (subset : cells ⊆ wider) : Confined wider s s' := by
  refine ⟨confined.kinds, confined.peers, ?_, confined.flag⟩
  intro fd outside
  exact confined.frame fd fun inside => outside ⟨subset inside.1, inside.2⟩

theorem Confined.reach_eq {cells : Set Int} {s s' : Engine} (confined : Confined cells s s')
    (fds : Set Int) : reach s'.table fds = reach s.table fds := by
  simp only [reach, peersOf, confined.isOpen_iff, confined.peers]

-- A write to an open entry of the set that keeps its kind and its peer.
theorem confined_write {cells : Set Int} {s : Engine} {fd : Int} {e : FdEntry}
    (member : fd ∈ cells) (valid : IsOpen s.table fd) (kind : e.kind = (s.table fd).kind)
    (peer : e.peerFd = (s.table fd).peerFd) :
    Confined cells s { s with table := Function.update s.table fd e } := by
  have apart : ∀ other, ¬ (other ∈ cells ∧ IsOpen s.table other) → other ≠ fd := by
    rintro other outside rfl
    exact outside ⟨member, valid⟩
  refine ⟨?_, ?_, ?_, rfl⟩
  · intro other
    by_cases here : other = fd
    · subst other; simpa using kind
    · simp [here]
  · intro other
    by_cases here : other = fd
    · subst other; simpa using peer
    · simp [here]
  · intro other outside
    simp [apart other outside]

theorem open_peer_mem {t : Table} {fds : Set Int} {fd : Int} (member : fd ∈ fds)
    (valid : IsOpen t fd) (peer : IsOpen t (t fd).peerFd) : (t fd).peerFd ∈ reach t fds := by
  refine Or.inr ⟨fd, member, valid, rfl, ?_⟩
  intro none
  have lower := inTable_nonneg peer.1
  omega

theorem onTable_ok {s s' : Engine} {result : Except Fault (Table × NetstackReq)}
    {reply : NetstackReq} (ran : s.onTable result = .ok (s', reply)) :
    s' = { s with table := s'.table } := by
  cases result with
  | error fault => contradiction
  | ok pair =>
      cases ran
      rfl

theorem transfer_flag {fds : Set Int} {s s' : Engine} {r reply : NetstackReq}
    (transfers : Transfers fds r) (ran : dispatchRequest s r = .ok (s', reply)) :
    s' = { s with table := s'.table } := by
  rcases transfers with ⟨op, -⟩ | ⟨op, -⟩
  · simp only [dispatchRequest, op] at ran
    exact onTable_ok ran
  · simp only [dispatchRequest, op] at ran
    exact onTable_ok ran

theorem transfer_confined {fds : Set Int} {s s' : Engine} {r reply : NetstackReq}
    (bounded : Bounded s.table) (transfers : Transfers fds r)
    (ran : dispatchRequest s r = .ok (s', reply)) : Confined (reach s.table fds) s s' := by
  have outcome := outcome_of_dispatch bounded ran
  rw [transfer_flag transfers ran]
  generalize s'.table = after at outcome
  cases outcome with
  | refused why err => exact confined_refl _ s
  | passive op ok => exact confined_refl _ s
  | ended op valid kind empty peer => exact confined_refl _ s
  | sent op valid kind peer lower upper room =>
      have member : r.u.send.sock ∈ fds := by simpa [Transfers, op] using transfers
      exact confined_write (open_peer_mem member valid peer) peer (deposit_kind ..)
        (deposit_peer ..)
  | received op valid kind some_ =>
      have member : r.u.recv.sock ∈ fds := by simpa [Transfers, op] using transfers
      exact confined_write (Or.inl member) valid (withdraw_kind ..) (withdraw_peer ..)
  | opened | closed | bound | listening | queued | paired => simp_all [Transfers]

theorem transfer_served {fds : Set Int} {s : Engine} {r : NetstackReq} (bounded : Bounded s.table)
    (transfers : Transfers fds r) : ∃ s' reply, dispatchRequest s r = .ok (s', reply) ∧
      Bounded s'.table ∧ Confined (reach s.table fds) s s' := by
  obtain ⟨s', reply, ran, outcome⟩ := dispatch_outcome bounded r
  exact ⟨s', reply, ran, outcome_bounded bounded outcome, transfer_confined bounded transfers ran⟩

theorem around_transfer {fds : Set Int} {t : Table} {fd : Int} (member : fd ∈ fds) :
    Around (reach t fds) t fd :=
  ⟨Or.inl member, fun valid peer => open_peer_mem member valid peer⟩

theorem transfer_alike {fds : Set Int} {s u : Engine} {r : NetstackReq}
    (alike : Alike (reach s.table fds) s.table u.table) (transfers : Transfers fds r) :
    Paired (Answers fun a b : Engine => Alike (reach s.table fds) a.table b.table)
      (dispatchRequest s r) (dispatchRequest u r) := by
  have lift : ∀ {x y : Except Fault (Table × NetstackReq)},
      Paired (Answers (Alike (reach s.table fds))) x y →
      Paired (Answers fun a b : Engine => Alike (reach s.table fds) a.table b.table)
        (s.onTable x) (u.onTable y) := by
    intro x y both
    refine paired_bind both ?_
    rintro ⟨t, reply⟩ ⟨t', _⟩ ⟨after, rfl⟩
    exact ⟨after, rfl⟩
  rcases transfers with ⟨op, member⟩ | ⟨op, member⟩
  · simp only [dispatchRequest, op]
    exact lift (send_alike alike r (around_transfer member))
  · simp only [dispatchRequest, op]
    exact lift (recv_alike alike r (Or.inl member))

/-! Two runs from one start: `s` serves both sequences merged, `u` only the
one on `fds`. `cells` is all that either sequence may write. -/

structure Agree (start : Engine) (cells fds : Set Int) (s u : Engine) : Prop where
  bounded : Bounded s.table
  boundedAlone : Bounded u.table
  confined : Confined cells start s
  confinedAlone : Confined (reach start.table fds) start u
  alike : Alike (reach start.table fds) s.table u.table

theorem agree_start {start : Engine} (bounded : Bounded start.table) (cells fds : Set Int) :
    Agree start cells fds start start :=
  ⟨bounded, bounded, confined_refl _ _, confined_refl _ _, fun _ _ => rfl, fun _ _ _ => rfl⟩

theorem agree_own {start s u : Engine} {cells fds : Set Int} {r : NetstackReq}
    (within : reach start.table fds ⊆ cells) (agree : Agree start cells fds s u)
    (transfers : Transfers fds r) : ∃ s' u' reply, dispatchRequest s r = .ok (s', reply) ∧
      dispatchRequest u r = .ok (u', reply) ∧ Agree start cells fds s' u' := by
  have sameReach := agree.confined.reach_eq fds
  have sameReachAlone := agree.confinedAlone.reach_eq fds
  obtain ⟨s', reply, ran, bounded, moved⟩ := transfer_served agree.bounded transfers
  have both := transfer_alike (by rw [sameReach]; exact agree.alike) transfers
  obtain ⟨⟨u', _⟩, ranAlone, alike, rfl⟩ := paired_of_ok both ran
  have boundedAlone := outcome_bounded agree.boundedAlone
    (outcome_of_dispatch agree.boundedAlone ranAlone)
  have movedAlone := transfer_confined agree.boundedAlone transfers ranAlone
  rw [sameReach] at moved alike
  rw [sameReachAlone] at movedAlone
  exact ⟨s', u', reply, ran, ranAlone, bounded, boundedAlone,
    agree.confined.trans (moved.mono within), agree.confinedAlone.trans movedAlone, alike⟩

/-- A transfer of the other sequence writes outside what this one looks at. -/
theorem agree_foreign {start s u : Engine} {cells fds others : Set Int} {r : NetstackReq}
    (within : reach start.table others ⊆ cells)
    (apart : ∀ fd ∈ reach start.table fds, fd ∉ reach start.table others)
    (agree : Agree start cells fds s u) (transfers : Transfers others r) :
    ∃ s' reply, dispatchRequest s r = .ok (s', reply) ∧ Agree start cells fds s' u := by
  obtain ⟨s', reply, ran, bounded, moved⟩ := transfer_served agree.bounded transfers
  rw [agree.confined.reach_eq others] at moved
  refine ⟨s', reply, ran, bounded, agree.boundedAlone, agree.confined.trans (moved.mono within),
    agree.confinedAlone, ?_, ?_⟩
  · intro fd inside
    rw [moved.kinds]
    exact agree.alike.kinds fd inside
  · intro fd member valid
    rw [moved.frame fd fun other => apart fd member other.1]
    exact agree.alike.entries fd member ((moved.isOpen_iff fd).mp valid)

theorem Agree.entry {start s u : Engine} {cells fds : Set Int} (agree : Agree start cells fds s u)
    {fd : Int} (member : fd ∈ reach start.table fds) (valid : IsOpen start.table fd) :
    s.table fd = u.table fd :=
  (agree.alike.entries fd member ((agree.confined.isOpen_iff fd).mpr valid)).symm

/-- Each entry is as one of the sequences leaves it alone, or as it was. -/
theorem agree_unique {start s s' aloneA aloneB : Engine} {A B : Set Int}
    (first : Agree start (reach start.table A ∪ reach start.table B) A s aloneA)
    (second : Agree start (reach start.table A ∪ reach start.table B) B s aloneB)
    (first' : Agree start (reach start.table A ∪ reach start.table B) A s' aloneA)
    (second' : Agree start (reach start.table A ∪ reach start.table B) B s' aloneB) : s = s' := by
  have table : s.table = s'.table := by
    funext fd
    by_cases written : fd ∈ reach start.table A ∪ reach start.table B ∧ IsOpen start.table fd
    · obtain ⟨member | member, valid⟩ := written
      · rw [first.entry member valid, first'.entry member valid]
      · rw [second.entry member valid, second'.entry member valid]
    · rw [first.confined.frame fd written, first'.confined.frame fd written]
  have flag : s.shutdown = s'.shutdown := first.confined.flag.trans first'.confined.flag.symm
  cases s
  cases s'
  cases table
  cases flag
  rfl

/-- Which of the two sets a sequence works on. -/
def Party.fds (A B : Set Int) : Party → Set Int
  | .first => A
  | .second => B

theorem merged_agree {start : Engine} (bounded : Bounded start.table) {A B : Set Int}
    (apart : ∀ fd ∈ reach start.table A, fd ∉ reach start.table B) (who : Party)
    (merged : List (Party × NetstackReq))
    (all : ∀ request ∈ merged, Transfers (request.1.fds A B) request.2) :
    ∃ s alone replies, serveAll (tagged dispatchRequest) start merged = .ok (s, replies) ∧
      serveAll dispatchRequest start (part who merged) = .ok (alone, part who replies) ∧
      Agree start (reach start.table A ∪ reach start.table B) (who.fds A B) s alone := by
  have within : ∀ party : Party,
      reach start.table (party.fds A B) ⊆ reach start.table A ∪ reach start.table B := by
    rintro (_ | _)
    · exact Set.subset_union_left
    · exact Set.subset_union_right
  have separate : ∀ party : Party, party ≠ who →
      ∀ fd ∈ reach start.table (who.fds A B), fd ∉ reach start.table (party.fds A B) := by
    intro party different
    cases party <;> cases who
    · contradiction
    · exact fun fd inside other => apart fd other inside
    · exact apart
    · contradiction
  refine merged_alone (fun party r => Transfers (party.fds A B) r) who _ ?_ ?_
    (agree_start bounded _ _) merged all
  · intro s u r agree transfers
    exact agree_own (within who) agree transfers
  · intro s u party r different agree transfers
    exact agree_foreign (within party) (separate party different) agree transfers

/-- Both sequences merged, each in its own order. -/
def Interleaves (xs ys : List NetstackReq) (merged : List (Party × NetstackReq)) : Prop :=
  part .first merged = xs ∧ part .second merged = ys

theorem interleaves_transfers {A B : Set Int} {xs ys : List NetstackReq}
    (onA : ∀ r ∈ xs, Transfers A r) (onB : ∀ r ∈ ys, Transfers B r)
    {merged : List (Party × NetstackReq)} (order : Interleaves xs ys merged) :
    ∀ request ∈ merged, Transfers (request.1.fds A B) request.2 := by
  rintro ⟨_ | _, r⟩ member
  · exact onA r (by rw [← order.1]; exact mem_part.mpr member)
  · exact onB r (by rw [← order.2]; exact mem_part.mpr member)

/-- Two interleavings of the same two sequences give every request the same
reply and leave the same table. -/
theorem independent_connections (s : Engine) (reachable : Reachable s) (A B : Set Int)
    (apart : ∀ fd ∈ reach s.table A, fd ∉ reach s.table B) (xs ys : List NetstackReq)
    (onA : ∀ r ∈ xs, Transfers A r) (onB : ∀ r ∈ ys, Transfers B r)
    (merged merged' : List (Party × NetstackReq))
    (order : Interleaves xs ys merged) (order' : Interleaves xs ys merged') :
    ∃ s' replies replies', serveAll (tagged dispatchRequest) s merged = .ok (s', replies) ∧
      serveAll (tagged dispatchRequest) s merged' = .ok (s', replies') ∧
      part .first replies = part .first replies' ∧
      part .second replies = part .second replies' := by
  obtain ⟨history, run⟩ := reachable
  have bounded := run_bounded run
  have runs (who : Party) :=
    merged_agree bounded apart who merged (interleaves_transfers onA onB order)
  have runs' (who : Party) :=
    merged_agree bounded apart who merged' (interleaves_transfers onA onB order')
  obtain ⟨s₁, aloneA, replies, ran, ranA, agreeA⟩ := runs .first
  obtain ⟨_, aloneB, _, again, ranB, agreeB⟩ := runs .second
  obtain ⟨s₂, aloneA', replies', ran', ranA', agreeA'⟩ := runs' .first
  obtain ⟨_, aloneB', _, again', ranB', agreeB'⟩ := runs' .second
  -- Each sequence alone is one run, whichever interleaving it was taken from.
  rw [ran] at again
  cases again
  rw [ran'] at again'
  cases again'
  rw [order.1, ← order'.1, ranA'] at ranA
  rw [order.2, ← order'.2, ranB'] at ranB
  simp only [Except.ok.injEq, Prod.mk.injEq] at ranA ranB
  obtain ⟨rfl, sameA⟩ := ranA
  obtain ⟨rfl, sameB⟩ := ranB
  obtain rfl := agree_unique agreeA agreeB agreeA' agreeB'
  exact ⟨s₁, replies, replies', ran, ran', sameA.symm, sameB.symm⟩

/-- Sockets 4 and 5 are connected, and so are 6 and 7. -/
def twoConnections : List NetstackReq :=
  servedConnect ++ [Call.socket 2 1 0, .connect 6 1234, .accept 3].map Call.request

def greeting : NetstackReq := (Call.send 4 (text [104, 105]) 2).request

def answer : NetstackReq := (Call.send 6 (text [111, 107]) 2).request

def fetch : NetstackReq := (Call.recv 7 16).request

-- The send on 4 before and between the transfers on 6 and 7.
theorem two_connections_interleave :
    ∃ s' replies replies',
      serveAll (tagged dispatchRequest) (stateAfter initial twoConnections)
        [(Party.first, greeting), (Party.second, answer), (Party.second, fetch)] =
          .ok (s', replies) ∧
      serveAll (tagged dispatchRequest) (stateAfter initial twoConnections)
        [(Party.second, answer), (Party.first, greeting), (Party.second, fetch)] =
          .ok (s', replies') ∧
      part Party.first replies = part .first replies' ∧
      part .second replies = part .second replies' := by
  have links : (((stateAfter initial twoConnections).table 4).peerFd,
      ((stateAfter initial twoConnections).table 6).peerFd,
      ((stateAfter initial twoConnections).table 7).peerFd) = (5, 7, 6) := by decide +kernel
  simp only [Prod.mk.injEq] at links
  obtain ⟨link4, link6, link7⟩ := links
  have left : reach (stateAfter initial twoConnections).table {4} ⊆ {4, 5} := by
    refine reach_subset (fun fd member => Or.inl member) ?_
    rintro fd rfl
    rw [link4]
    exact Or.inr rfl
  have right : reach (stateAfter initial twoConnections).table {6, 7} ⊆ {6, 7} := by
    refine reach_subset subset_rfl ?_
    rintro fd (rfl | rfl)
    · rw [link6]; exact Or.inr rfl
    · rw [link7]; exact Or.inl rfl
  have apart : ∀ fd ∈ reach (stateAfter initial twoConnections).table {4},
      fd ∉ reach (stateAfter initial twoConnections).table {6, 7} := by
    intro fd inside other
    rcases left inside with rfl | rfl <;> rcases right other with same | same <;> cases same
  refine independent_connections _ ⟨_, run_from_initial twoConnections⟩ {4} {6, 7}
    apart [greeting] [answer, fetch] ?_ ?_ _ _ ⟨rfl, rfl⟩ ⟨rfl, rfl⟩
  · simp only [List.forall_mem_singleton]
    exact Or.inl ⟨rfl, rfl⟩
  · simp only [List.forall_mem_cons]
    exact ⟨Or.inl ⟨rfl, Or.inl rfl⟩, Or.inr ⟨rfl, Or.inr rfl⟩, by simp⟩

end Netstack.FdTable
