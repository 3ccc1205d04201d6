import Netstack.FdBounds
import Netstack.Ring

/-!
The backlog of a listener as a list of client numbers. A connect appends to the
backlog it is routed to, an accept takes the first number, a listen starts an
empty one. A number stays pending when its socket is closed: nothing but an
accept, or the end of the listener, removes it.
-/

namespace Netstack.FdTable

open Ipc Client Transition

def pending (e : FdEntry) : List Int :=
  Ring.contents backlogMax e.backlog e.backlogHead e.backlogCount.toNat

theorem pending_length {e : FdEntry} : (pending e).length = e.backlogCount.toNat :=
  Ring.contents_length ..

def IsListener (t : Table) (lfd : Int) : Prop := InTable lfd ∧ (t lfd).kind = .listen

/-- `fd` is in the backlog of a listening socket. -/
def Pending (t : Table) (fd : Int) : Prop := ∃ lfd, IsListener t lfd ∧ fd ∈ pending (t lfd)

theorem pending_push {e : FdEntry} (bounded : EntryBounded e)
    (room : e.backlogCount < backlogMax) (fd : Int) :
    pending (pushBacklog e fd) = pending e ++ [fd] := by
  have lower := bounded.count_range.1
  have count : (e.backlogCount + 1).toNat = e.backlogCount.toNat + 1 := by omega
  have size : ((e.backlogCount.toNat : Nat) : Int) = e.backlogCount := by omega
  have fits : ((e.backlogCount.toNat : Nat) : Int) < backlogMax := by omega
  have pushed := Ring.contents_push e.backlog e.backlogHead fits fd
  rw [size, ← bounded.ring] at pushed
  simp only [pending, pushBacklog, count]
  exact pushed

theorem pending_pop {e : FdEntry} (bounded : EntryBounded e) (waiting : 0 < e.backlogCount) :
    pending e = nextClient e :: pending (popBacklog e) := by
  obtain ⟨lower, upper⟩ := bounded.head_range
  have count : e.backlogCount.toNat = (e.backlogCount - 1).toNat + 1 := by omega
  have start : e.backlogHead % backlogMax = e.backlogHead := Int.emod_eq_of_lt lower upper
  simp only [pending, popBacklog, nextClient]
  rw [count, Ring.contents_pop, start]

theorem pending_congr {e e' : FdEntry} (ring : e'.backlog = e.backlog)
    (head : e'.backlogHead = e.backlogHead) (count : e'.backlogCount = e.backlogCount) :
    pending e' = pending e := by
  simp only [pending, ring, head, count]

theorem nextClient_pending {t : Table} (bounded : Bounded t) {r : NetstackReq}
    (valid : IsOpen t r.u.accept.sock) (kind : (t r.u.accept.sock).kind = .listen)
    (waiting : 0 < (t r.u.accept.sock).backlogCount) :
    Pending t (nextClient (t r.u.accept.sock)) := by
  refine ⟨r.u.accept.sock, ⟨valid.1, kind⟩, ?_⟩
  rw [pending_pop (bounded.entries _) waiting]
  exact List.mem_cons_self

/-- What a request did to the backlog of an entry that listens after it. -/
inductive BacklogChange (t : Table) (r : NetstackReq) (t' : Table) (reply : NetstackReq)
    (lfd : Int) : Prop where
  | kept (before : IsListener t lfd) (same : pending (t' lfd) = pending (t lfd))
      (notRouted : r.kind = .connect → reply.ok → ¬ FirstHit t (isListener r.u.connect.port) lfd)
      (notPopped : r.kind = .accept → reply.ok → r.u.accept.sock ≠ lfd)
  | started (op : r.kind = .listen) (ok : reply.ok) (sock : r.u.listen.sock = lfd)
      (before : ¬ IsListener t lfd) (empty : pending (t' lfd) = [])
  | pushed (op : r.kind = .connect) (ok : reply.ok) (before : IsListener t lfd)
      (route : FirstHit t (isListener r.u.connect.port) lfd)
      (last : pending (t' lfd) = pending (t lfd) ++ [r.u.connect.sock])
  | popped (op : r.kind = .accept) (ok : reply.ok) (sock : r.u.accept.sock = lfd)
      (before : IsListener t lfd)
      (first : pending (t lfd) = nextClient (t lfd) :: pending (t' lfd))

/-- Requests other than connect and accept: an entry that kept its kind and
its ring kept its backlog. -/
theorem backlog_kept {t t' : Table} {r reply : NetstackReq} {lfd : Int}
    (notConnect : r.kind ≠ .connect) (notAccept : r.kind ≠ .accept) (after : IsListener t' lfd)
    (kind : (t' lfd).kind = (t lfd).kind) (ring : (t' lfd).backlog = (t lfd).backlog)
    (head : (t' lfd).backlogHead = (t lfd).backlogHead)
    (count : (t' lfd).backlogCount = (t lfd).backlogCount) : BacklogChange t r t' reply lfd :=
  .kept ⟨after.1, kind.symm.trans after.2⟩ (pending_congr ring head count)
    (fun op => absurd op notConnect) (fun op => absurd op notAccept)

theorem refused_backlog {t : Table} {r reply : NetstackReq} {lfd code : Int}
    (why : Refusal t r code) (err : reply.err = code) (listener : IsListener t lfd) :
    BacklogChange t r t reply lfd := by
  have failed := refused_not_ok why err
  exact .kept listener rfl (fun _ ok => absurd ok failed) (fun _ ok => absurd ok failed)

theorem queued_backlog {t : Table} (bounded : Bounded t) {r : NetstackReq} {route lfd : Int}
    (op : r.kind = .connect)
    (routed : FirstHit t (isListener r.u.connect.port) route)
    (room : (t route).backlogCount < backlogMax)
    (after : IsListener (queued t r.u.connect.sock route r.u.connect.port) lfd) :
    BacklogChange t r (queued t r.u.connect.sock route r.u.connect.port)
      { r with err := netstackOk } lfd := by
  by_cases here : lfd = route
  · subst lfd
    refine .pushed op rfl ⟨routed.1, (listener_kind routed).1⟩ routed ?_
    rw [queued, Function.update_self]
    exact pending_push (bounded.entries route) room _
  · have notClient : lfd ≠ r.u.connect.sock := by
      rintro rfl
      have listen := after.2
      simp [queued, here, connecting] at listen
    have same : queued t r.u.connect.sock route r.u.connect.port lfd = t lfd := by
      rw [queued, Function.update_of_ne here, Function.update_of_ne notClient]
    rw [IsListener, same] at after
    refine .kept after (by rw [same]) ?_ ?_
    · intro _ _ first
      exact here (firstHit_unique first routed)
    · intro other
      rw [op] at other
      contradiction

theorem paired_backlog {t : Table} (bounded : Bounded t) {r : NetstackReq} {newFd lfd : Int}
    {reply : NetstackReq} (op : r.kind = .accept) (ok : reply.ok)
    (valid : IsOpen t r.u.accept.sock)
    (kind : (t r.u.accept.sock).kind = .listen) (waiting : 0 < (t r.u.accept.sock).backlogCount)
    (after : IsListener (paired t r.u.accept.sock newFd) lfd) :
    BacklogChange t r (paired t r.u.accept.sock newFd) reply lfd := by
  have notNew : lfd ≠ newFd := by
    rintro rfl
    have listen := after.2
    rw [paired_apply, minted_apply] at listen
    simp [acceptedEntry] at listen
  have ring : pending (paired t r.u.accept.sock newFd lfd) =
      pending (minted t r.u.accept.sock newFd lfd) := by
    rw [paired_apply]
    rfl
  by_cases here : lfd = r.u.accept.sock
  · subst lfd
    refine .popped op ok rfl ⟨valid.1, kind⟩ ?_
    rw [ring, minted_apply, if_neg notNew, if_pos rfl]
    exact pending_pop (bounded.entries _) waiting
  · have same : minted t r.u.accept.sock newFd lfd = t lfd := by
      rw [minted_apply, if_neg notNew, if_neg here]
    have before : IsListener t lfd := by
      refine ⟨after.1, ?_⟩
      have listen := after.2
      rw [paired_apply, same] at listen
      exact listen
    refine .kept before (by rw [ring, same]) ?_ fun _ _ => Ne.symm here
    intro other
    rw [op] at other
    contradiction

theorem outcome_backlog {t t' : Table} {r reply : NetstackReq} (bounded : Bounded t)
    (outcome : Outcome t r t' reply) {lfd : Int} (after : IsListener t' lfd) :
    BacklogChange t r t' reply lfd := by
  -- An update of one entry that cannot listen leaves every listener alone.
  have elsewhere {base : Table} {fd : Int} {e : FdEntry} (notConnect : r.kind ≠ .connect)
      (notAccept : r.kind ≠ .accept) (used : IsListener (Function.update base fd e) lfd)
      (silent : e.kind ≠ .listen) (same : lfd ≠ fd → (base lfd).kind = (t lfd).kind ∧
        (base lfd).backlog = (t lfd).backlog ∧ (base lfd).backlogHead = (t lfd).backlogHead ∧
        (base lfd).backlogCount = (t lfd).backlogCount) :
      BacklogChange t r (Function.update base fd e) reply lfd := by
    have apart : lfd ≠ fd := by
      rintro rfl
      exact silent (by simpa using used.2)
    obtain ⟨kind, ring, head, count⟩ := same apart
    apply backlog_kept notConnect notAccept used <;> rw [Function.update_of_ne apart] <;> assumption
  cases outcome with
  | refused why err => exact refused_backlog why err after
  | passive op ok =>
      rcases op with op | op <;>
        exact backlog_kept (by simp [op]) (by simp [op]) after rfl rfl rfl rfl
  | ended op valid kind empty peer =>
      exact backlog_kept (by simp [op]) (by simp [op]) after rfl rfl rfl rfl
  | opened op first =>
      exact elsewhere (by simp [op]) (by simp [op]) after (by simp [socketEntry])
        fun _ => ⟨rfl, rfl, rfl, rfl⟩
  | closed op valid =>
      refine elsewhere (by simp [op]) (by simp [op]) after (by simp [blankEntry, zeroEntry]) ?_
      intro _
      exact ⟨detach_kind .., detach_ring ..⟩
  | bound op valid kind unused =>
      exact elsewhere (by simp [op]) (by simp [op]) after (by simp [kind])
        fun _ => ⟨rfl, rfl, rfl, rfl⟩
  | listening op valid kind port =>
      by_cases here : lfd = r.u.listen.sock
      · subst lfd
        refine .started op rfl rfl ?_ ?_
        · rintro ⟨-, listen⟩
          rw [kind] at listen
          contradiction
        · rw [Function.update_self]
          rfl
      · refine backlog_kept (by simp [op]) (by simp [op]) after ?_ ?_ ?_ ?_ <;>
          rw [Function.update_of_ne here]
  | queued op valid kind route room => exact queued_backlog bounded op route room after
  | paired op valid kind waiting first =>
      exact paired_backlog bounded op rfl valid kind waiting after
  | sent op valid kind peer lower upper room =>
      by_cases here : lfd = (t r.u.send.sock).peerFd
      · subst lfd
        refine backlog_kept (by simp [op]) (by simp [op]) after ?_ ?_ ?_ ?_ <;>
          rw [Function.update_self]
        · exact deposit_kind ..
        · exact (deposit_ring ..).1
        · exact (deposit_ring ..).2.1
        · exact (deposit_ring ..).2.2
      · refine backlog_kept (by simp [op]) (by simp [op]) after ?_ ?_ ?_ ?_ <;>
          rw [Function.update_of_ne here]
  | received op valid kind some_ =>
      exact elsewhere (by simp [op]) (by simp [op]) after (by simp [withdraw_kind, kind])
        fun _ => ⟨rfl, rfl, rfl, rfl⟩

/-- A request makes a number pending only by connecting it. -/
theorem outcome_pending {t t' : Table} {r reply : NetstackReq} (bounded : Bounded t)
    (outcome : Outcome t r t' reply) {fd : Int} (after : Pending t' fd) :
    Pending t fd ∨ (r.kind = .connect ∧ r.u.connect.sock = fd) := by
  obtain ⟨lfd, listener, member⟩ := after
  cases outcome_backlog bounded outcome listener with
  | kept before same _ _ =>
      rw [same] at member
      exact Or.inl ⟨lfd, before, member⟩
  | started _ _ _ _ empty =>
      rw [empty] at member
      exact absurd member List.not_mem_nil
  | pushed op _ before _ last =>
      rw [last] at member
      rcases List.mem_append.mp member with old | new
      · exact Or.inl ⟨lfd, before, old⟩
      · exact Or.inr ⟨op, (List.mem_singleton.mp new).symm⟩
  | popped _ _ _ before first =>
      refine Or.inl ⟨lfd, before, ?_⟩
      rw [first]
      exact List.mem_cons_of_mem _ member

end Netstack.FdTable
