import Netstack.Backlog
import Netstack.Books
import Netstack.BoundedFifo

/-!
The order of accepts. The ledger of a listening socket holds, since its listen,
the clients of the connects that `find_listener` routed to it and the clients its
accepts have taken off the ring. The ring is pushed by connect, popped by accept
and pushed back at its head by an accept that finds the table full; the ledger
balances with it at every wrap of the indices.
-/

namespace Netstack.FdTable

open Ipc Client Transition BoundedFifo

/-- A connect that passes its own checks and finds this listener. -/
structure RoutedTo (t : Table) (r : NetstackReq) (lfd : Int) : Prop where
  op : r.kind = .connect
  valid : IsOpen t r.u.connect.sock
  kind : (t r.u.connect.sock).kind = .unbound
  found : findListener t r.u.connect.port = .ok lfd
  listener : IsListener t lfd

structure AcceptsOn (t : Table) (r : NetstackReq) (lfd : Int) : Prop where
  op : r.kind = .accept
  sock : r.u.accept.sock = lfd
  listener : IsListener t lfd

/-- How full and empty backlogs are answered. -/
structure BacklogReplies (t : Table) (r : NetstackReq) (t' : Table) (reply : NetstackReq)
    (lfd : Int) : Prop where
  connect_full : RoutedTo t r lfd →
    (reply.err = netstackEagain ↔ (pending (t lfd)).length = 4)
  accept_empty : AcceptsOn t r lfd → (reply.err = netstackEagain ↔ pending (t lfd) = [])
  accept_emfile : AcceptsOn t r lfd → reply.err = emfile → pending (t' lfd) = pending (t lfd)

def backlogAudit (lfd : Int) (ledger : Ledger Int) (move : Move Engine Exchange) : Ledger Int :=
  let req := move.label.req
  if ¬ move.label.reply.ok then ledger
  else if req.kind = .listen ∧ req.u.listen.sock = lfd then .empty
  else if req.kind = .connect ∧ routed move.before.table req.u.connect.port = lfd then
    ledger.accept [req.u.connect.sock]
  else if req.kind = .accept ∧ req.u.accept.sock = lfd then
    ledger.remove [nextClient (move.before.table lfd)]
  else ledger

def backlogLedger (lfd : Int) (history : History) : Ledger Int :=
  history.foldl (backlogAudit lfd) .empty

theorem firstHit_of_found {t : Table} {port : UInt16} {lfd : Int}
    (found : findListener t port = .ok lfd) (inside : InTable lfd) :
    FirstHit t (isListener port) lfd := by
  unfold findListener at found
  rcases firstFd_cases t (isListener port) with ⟨scanned, -⟩ | ⟨j, scanned, first⟩
  · rw [scanned] at found
    cases found
    exact absurd (inTable_nonneg inside) (by decide)
  · rw [scanned] at found
    cases found
    exact first

theorem routedTo_outcome {t t' : Table} {r reply : NetstackReq} {lfd : Int}
    (routedTo : RoutedTo t r lfd) (outcome : Outcome t r t' reply) :
    (backlogMax ≤ (t lfd).backlogCount ∧ reply.err = netstackEagain) ∨
      ((t lfd).backlogCount < backlogMax ∧ reply.err = netstackOk) := by
  obtain ⟨op, valid, kind, found, listener⟩ := routedTo
  have first := firstHit_of_found found listener.1
  cases outcome with
  | refused why err =>
      subst err
      generalize reply.err = code at why
      cases why with
      | connectBad _ bad => exact absurd valid bad
      | connectKind _ _ other => exact absurd kind other
      | connectNone _ _ none =>
          have missed := none lfd first.1
          rw [first.2.1] at missed
          contradiction
      | connectFull _ other route full =>
          rw [firstHit_unique route first] at full
          exact Or.inl ⟨full, rfl⟩
      | _ => simp_all
  | queued _ _ _ route room =>
      rw [firstHit_unique route first] at room
      exact Or.inr ⟨room, rfl⟩
  | passive other => simp_all
  | _ => simp_all

theorem acceptsOn_outcome {t t' : Table} {r reply : NetstackReq} {lfd : Int}
    (accepts : AcceptsOn t r lfd) (outcome : Outcome t r t' reply) :
    ((t lfd).backlogCount = 0 ∧ reply.err = netstackEagain) ∨
      ((t lfd).backlogCount ≠ 0 ∧ reply.err = emfile ∧ t' = t) ∨
      ((t lfd).backlogCount ≠ 0 ∧ reply.err = netstackOk) := by
  obtain ⟨op, rfl, listener⟩ := accepts
  have valid : IsOpen t r.u.accept.sock := isOpen_of_kind listener.1 listener.2 (by decide)
  cases outcome with
  | refused why err =>
      subst err
      generalize reply.err = code at why
      cases why with
      | acceptBad _ bad => exact absurd valid bad
      | acceptKind _ _ other => exact absurd listener.2 other
      | acceptEmpty _ _ _ empty => exact Or.inl ⟨empty, rfl⟩
      | acceptFull _ _ _ waiting => exact Or.inr (Or.inl ⟨waiting, rfl, rfl⟩)
      | _ => simp_all
  | paired _ _ _ waiting => exact Or.inr (Or.inr ⟨by omega, rfl⟩)
  | passive other => simp_all
  | _ => simp_all

theorem outcome_replies {t t' : Table} {r reply : NetstackReq} (bounded : Bounded t)
    (outcome : Outcome t r t' reply) (lfd : Int) : BacklogReplies t r t' reply lfd := by
  have length : (pending (t lfd)).length = (t lfd).backlogCount.toNat := pending_length
  have count := (bounded.entries lfd).count_range
  simp only [backlogMax] at count
  refine ⟨?_, ?_, ?_⟩
  · intro routedTo
    rcases routedTo_outcome routedTo outcome with ⟨full, err⟩ | ⟨room, err⟩
    · simp only [backlogMax] at full
      exact iff_of_true err (by omega)
    · simp only [backlogMax] at room
      exact iff_of_false (by rw [err]; decide) (by omega)
  · intro accepts
    rw [← List.length_eq_zero_iff]
    rcases acceptsOn_outcome accepts outcome with
      ⟨empty, err⟩ | ⟨waiting, err, -⟩ | ⟨waiting, err⟩
    · exact iff_of_true err (by omega)
    · exact iff_of_false (by rw [err]; decide) (by omega)
    · exact iff_of_false (by rw [err]; decide) (by omega)
  · intro accepts full
    rcases acceptsOn_outcome accepts outcome with
      ⟨-, err⟩ | ⟨-, -, same⟩ | ⟨-, err⟩
    · rw [full] at err
      exact absurd err (by decide)
    · rw [same]
    · rw [full] at err
      exact absurd err (by decide)

/-! The ledger along a run. -/

theorem audit_kept {lfd : Int} {ledger : Ledger Int} {s s' : Engine} {x : Exchange}
    (unstarted : x.req.kind = .listen → x.reply.ok → x.req.u.listen.sock ≠ lfd)
    (unrouted : x.req.kind = .connect → x.reply.ok →
      routed s.table x.req.u.connect.port ≠ lfd)
    (unpopped : x.req.kind = .accept → x.reply.ok → x.req.u.accept.sock ≠ lfd) :
    backlogAudit lfd ledger ⟨s, x, s'⟩ = ledger := by
  unfold backlogAudit
  dsimp only
  by_cases ok : x.reply.ok
  · rw [if_neg (not_not_intro ok), if_neg fun both => unstarted both.1 ok both.2,
      if_neg fun both => unrouted both.1 ok both.2, if_neg fun both => unpopped both.1 ok both.2]
  · rw [if_pos ok]

theorem listen_ok_unbound {t t' : Table} {r reply : NetstackReq} (outcome : Outcome t r t' reply)
    (op : r.kind = .listen) (ok : reply.ok) : (t r.u.listen.sock).kind = .unbound := by
  cases outcome with
  | refused why err => exact absurd ok (refused_not_ok why err)
  | listening _ _ kind => exact kind
  | passive other => simp_all
  | _ => simp_all

theorem connect_ok_routed {t t' : Table} {r reply : NetstackReq} (outcome : Outcome t r t' reply)
    (op : r.kind = .connect) (ok : reply.ok) :
    FirstHit t (isListener r.u.connect.port) (routed t r.u.connect.port) := by
  cases outcome with
  | refused why err => exact absurd ok (refused_not_ok why err)
  | queued _ _ _ route =>
      rw [routed_eq route]
      exact route
  | passive other => simp_all
  | _ => simp_all

theorem backlogAudit_balanced {s s' : Engine} {x : Exchange} {lfd : Int} {ledger : Ledger Int}
    (bounded : Bounded s.table) (outcome : Outcome s.table x.req s'.table x.reply)
    (balanced : IsListener s.table lfd → Balanced ledger (pending (s.table lfd)))
    (listener : IsListener s'.table lfd) :
    Balanced (backlogAudit lfd ledger ⟨s, x, s'⟩) (pending (s'.table lfd)) := by
  cases outcome_backlog bounded outcome listener with
  | kept before same notRouted notPopped =>
      have kept : backlogAudit lfd ledger ⟨s, x, s'⟩ = ledger := by
        refine audit_kept ?_ ?_ notPopped
        · intro op ok
          exact kinds_apart (listen_ok_unbound outcome op ok) before.2 (by decide)
        · rintro op ok rfl
          exact notRouted op ok (connect_ok_routed outcome op ok)
      rw [kept, same]
      exact balanced before
  | started op ok sock before empty =>
      have cleared : backlogAudit lfd ledger ⟨s, x, s'⟩ = .empty := by
        simp [backlogAudit, op, ok, sock]
      rw [cleared, empty]
      exact balanced_empty
  | pushed op ok before route last =>
      have grown : backlogAudit lfd ledger ⟨s, x, s'⟩ = ledger.accept [x.req.u.connect.sock] := by
        simp [backlogAudit, op, ok, routed_eq route]
      rw [grown, last]
      exact balanced_accept (balanced before) _
  | popped op ok sock before first =>
      have taken : backlogAudit lfd ledger ⟨s, x, s'⟩ =
          ledger.remove [nextClient (s.table lfd)] := by
        simp [backlogAudit, op, ok, sock]
      have removed := balanced_remove (balanced before) 1
      rw [first] at removed
      rw [taken]
      exact removed

theorem backlogLedger_balanced {history : History} {s : Engine} (run : Run history s) {lfd : Int}
    (listener : IsListener s.table lfd) :
    Balanced (backlogLedger lfd history) (pending (s.table lfd)) := by
  induction run with
  | nil =>
      have kind := listener.2
      contradiction
  | snoc past served ih =>
      rw [backlogLedger, List.foldl_append]
      exact backlogAudit_balanced (run_bounded past) (run_outcome past served) ih listener

/-- The clients a listener's accepts have taken since its listen, followed by those
in its ring, are those of the connects routed to it, in order. A connect is put off
exactly by four pending clients, an accept exactly by none, and an accept that finds
the table full keeps the order. -/
theorem accepts_follow_connects (history : History) (s : Engine) (run : Run history s)
    (lfd : Int) :
    (IsListener s.table lfd → (backlogLedger lfd history).removed ++ pending (s.table lfd) =
      (backlogLedger lfd history).accepted) ∧
      ∀ x s', Serves s x s' → BacklogReplies s.table x.req s'.table x.reply lfd := by
  constructor
  · exact backlogLedger_balanced run
  · intro x s' served
    exact outcome_replies (run_bounded run) (run_outcome run served) lfd

/-- Two clients wait while the first is accepted. -/
def twoClients : List NetstackReq :=
  [Call.socket 2 1 0, .bind 3 1234, .listen 3 4, .socket 2 1 0, .connect 4 1234, .socket 2 1 0,
    .connect 5 1234, .accept 3].map Call.request

theorem two_clients_in_order :
    (backlogLedger 3 (historyOf initial twoClients)).removed = [4] ∧
      pending ((stateAfter initial twoClients).table 3) = [5] ∧
      (backlogLedger 3 (historyOf initial twoClients)).accepted = [4, 5] := by
  have taken : (backlogLedger 3 (historyOf initial twoClients)).removed = [4] := by
    decide +kernel
  have left : pending ((stateAfter initial twoClients).table 3) = [5] := by decide +kernel
  have listener : IsListener (stateAfter initial twoClients).table 3 :=
    ⟨by decide, by decide +kernel⟩
  have order := (accepts_follow_connects _ _ (run_from_initial twoClients) 3).1 listener
  rw [taken, left] at order
  exact ⟨taken, left, order.symm⟩

end Netstack.FdTable
