import Netstack.Bsdsocket

/-!
What the socket functions promise their callers, in every interleaving. A call that
returns `-1` has changed nothing, and no call writes outside the buffer it was given.
The bytes that receives have put into their callers' buffers and those still queued are
the bytes that sends have taken from theirs. The address an accept has written leads
back to its listener.
-/

namespace Netstack.Bsdsocket

open Ipc Client FdTable Window Transition

variable {Task : Type}

/-! What one served request comes to. -/

theorem refusal_negative {t : Table} {r : NetstackReq} {code : Int} (why : Refusal t r code) :
    code < 0 := by
  cases why <;> decide

theorem outcome_failed {t t' : Table} {r reply : NetstackReq} (outcome : Outcome t r t' reply)
    (failed : ¬ reply.ok) : t' = t ∧ reply.err < 0 := by
  cases outcome with
  | refused why err => exact ⟨rfl, err ▸ refusal_negative why⟩
  | passive op ok => exact absurd ok failed
  | _ => exact absurd rfl failed

theorem socket_number {t t' : Table} {r reply : NetstackReq} (outcome : Outcome t r t' reply)
    (op : r.kind = .socket) (ok : reply.ok) : 0 ≤ reply.u.socket.sock := by
  cases outcome with
  | refused why err => exact absurd ok (refused_not_ok why err)
  | opened _ first => exact inTable_nonneg first.1
  | passive other => simp_all
  | _ => simp_all

theorem accept_number {t t' : Table} {r reply : NetstackReq} (outcome : Outcome t r t' reply)
    (op : r.kind = .accept) (ok : reply.ok) :
    0 ≤ reply.u.accept.newSock ∧ InTable r.u.accept.sock ∧
      (t r.u.accept.sock).kind = .listen ∧
      reply.u.accept.peerPort = (t r.u.accept.sock).localPort := by
  cases outcome with
  | refused why err => exact absurd ok (refused_not_ok why err)
  | paired _ valid kind waiting first => exact ⟨inTable_nonneg first.1, valid.1, kind, rfl⟩
  | passive other => simp_all
  | _ => simp_all

theorem received_length {t t' : Table} {r reply : NetstackReq} (bounded : Bounded t)
    (outcome : Outcome t r t' reply) (op : r.kind = .recv) (ok : reply.ok)
    (wanted : 0 ≤ r.u.recv.lenIn) :
    0 ≤ reply.u.recv.lenOut ∧ reply.u.recv.lenOut ≤ r.u.recv.lenIn := by
  cases outcome with
  | refused why err => exact absurd ok (refused_not_ok why err)
  | received _ valid kind some_ =>
      have fits := readable_range (bounded.entries r.u.recv.sock) r.u.recv.lenIn
      refine ⟨fits.1, ?_⟩
      simp only [readable, netstackMaxPayload]
      split_ifs <;> omega
  | ended => exact ⟨Int.le_refl 0, wanted⟩
  | passive other => simp_all
  | _ => simp_all

/-- The bytes that the request of a call took from a queue. -/
def given : Option (Move Engine Exchange) → List UInt8
  | some move => incoming move.label
  | none => []

theorem recv_wanted {s max : Int} (passed : (Call.recv s max).rejected = none) :
    0 ≤ (Call.recv s max).request.u.recv.lenIn ∧
      (Call.recv s max).request.u.recv.lenIn ≤ max := by
  have lower : ¬ max < 0 := by
    intro negative
    simp [Call.rejected, negative] at passed
  simp only [Call.request, netstackMaxPayload]
  split_ifs <;> omega

theorem answered {api : Api} {mem : Memory} {t t' : Table} {reply : NetstackReq}
    (bounded : Bounded t) (passed : (api.call mem).rejected = none)
    (outcome : Outcome t (api.call mem).request t' reply) (ok : reply.ok) :
    0 ≤ api.value ((api.call mem).unpack reply) := by
  have fine : reply.err = netstackOk := ok
  cases api with
  | socket domain type proto =>
      have number := socket_number outcome rfl ok
      simpa [Api.value, Api.call, Call.unpack, fine] using number
  | accept s addr addrlen =>
      have number := (accept_number outcome rfl ok).1
      simpa [Api.value, Api.call, Call.unpack, fine] using number
  | send s buf len flags =>
      have length := (sent_length bounded outcome rfl ok).1
      simp [Api.value, Api.call, Call.unpack, fine, length]
  | recv s buf len flags =>
      have length := (received_length bounded outcome rfl ok (recv_wanted passed).1).1
      simp [Api.value, Api.call, Call.unpack, fine, length]
  | _ => simp [Api.value, Api.call, Call.unpack, fine]

theorem unanswered {api : Api} {mem : Memory} {reply : NetstackReq} (failed : ¬ reply.ok)
    (negative : reply.err < 0) : api.value ((api.call mem).unpack reply) = -1 := by
  have bad : reply.err ≠ netstackOk := failed
  have below : ¬ 0 ≤ reply.err := by omega
  cases api <;> simp [Api.value, Api.call, Call.unpack, bad, below]

theorem failed_unpack {api : Api} {mem : Memory} {reply : NetstackReq} (failed : ¬ reply.ok) :
    ((api.call mem).unpack reply).value = reply.err ∧
      ((api.call mem).unpack reply).bytes = [] := by
  have bad : reply.err ≠ netstackOk := failed
  cases api <;> simp [Api.call, Call.unpack, bad]

/-- A result that is a failure: nothing to write and no sign of the request. -/
structure Failure (own : Option (Move Engine Exchange)) (result : Result) : Prop where
  value : result.value < 0
  bytes : result.bytes = []
  table : ∀ move, own = some move → move.after.table = move.before.table

theorem failure_unserved {result : Result} (value : result.value < 0)
    (bytes : result.bytes = []) : Failure none result := by
  refine ⟨value, bytes, ?_⟩
  intro move served
  cases served

/-- What a result is: a failure, and then the call returns `-1`, or a request that was
served, and then it returns what that gave. -/
theorem finished_cases {api : Api} {own : Option (Move Engine Exchange)} {result : Result}
    (finished : Finished api own result) :
    (Failure own result ∧ api.value result = -1) ∨
      0 ≤ api.value result ∧ ∃ mem before after reply,
        own = some ⟨before, ⟨(api.call mem).request, reply⟩, after⟩ ∧
        result = (api.call mem).unpack reply ∧ (api.call mem).rejected = none ∧ reply.ok ∧
        Bounded before.table ∧ Outcome before.table (api.call mem).request after.table reply := by
  cases finished with
  | unreached =>
      refine Or.inl ⟨failure_unserved (by decide) rfl, ?_⟩
      cases api <;> rfl
  | rejected mem early =>
      refine Or.inl ?_
      cases api with
      | send s buf len flags =>
          simp only [Api.call, Call.rejected] at early
          split_ifs at early
          cases early
          exact ⟨failure_unserved (by decide) rfl, rfl⟩
      | recv s buf len flags =>
          simp only [Api.call, Call.rejected] at early
          split_ifs at early
          cases early
          exact ⟨failure_unserved (by decide) rfl, rfl⟩
      | _ => cases early
  | @served mem before after reply passed bounded outcome =>
      by_cases ok : reply.ok
      · exact Or.inr ⟨answered bounded passed outcome ok, mem, before, after, reply, rfl, rfl,
          passed, ok, bounded, outcome⟩
      · obtain ⟨same, negative⟩ := outcome_failed outcome ok
        obtain ⟨value, bytes⟩ : ((api.call mem).unpack reply).value = reply.err ∧
          ((api.call mem).unpack reply).bytes = [] := failed_unpack ok
        refine Or.inl ⟨⟨by omega, bytes, ?_⟩, unanswered ok negative⟩
        intro move taken
        cases taken
        exact same

/-! Failures and bounds. -/

theorem loadLong_congr {mem mem' : Memory} {p : Int}
    (same : ∀ i, p ≤ i → i < p + 4 → mem' i = mem i) : loadLong mem' p = loadLong mem p := by
  rw [loadLong, loadLong, same p (by omega) (by omega), same (p + 1) (by omega) (by omega),
    same (p + 2) (by omega) (by omega), same (p + 3) (by omega) (by omega)]

theorem storeLong_outside (mem : Memory) {p i : Int} (value : Int)
    (outside : i < p ∨ p + 4 ≤ i) : storeLong mem p value i = mem i :=
  store_outside mem p _ outside

theorem long_bytes (long : BitVec 32) :
    long.extractLsb' 24 8 ++ long.extractLsb' 16 8 ++ long.extractLsb' 8 8 ++
      long.extractLsb' 0 8 = long := by
  apply BitVec.eq_of_getLsbD_eq
  intro i below
  simp only [BitVec.getLsbD_append, BitVec.getLsbD_extractLsb']
  split_ifs with first second third
  · simp [first]
  · have place : 8 + (i - 8) = i := by omega
    simp [second, place]
  · have place : 16 + (i - 8 - 8) = i := by omega
    simp [third, place]
  · have last : i - 8 - 8 - 8 < 8 := by omega
    have place : 24 + (i - 8 - 8 - 8) = i := by omega
    simp [last, place]

theorem loadLong_storeLong (mem : Memory) (p value : Int) :
    loadLong (storeLong mem p value) p = (BitVec.ofInt 32 value).toInt := by
  have bytes := long_bytes (BitVec.ofInt 32 value)
  have first : p ≠ p + 1 ∧ p ≠ p + 1 + 1 ∧ p ≠ p + 1 + 1 + 1 := by omega
  have second : p + 1 ≠ p + 1 + 1 ∧ p + 1 ≠ p + 1 + 1 + 1 := by omega
  have third : p + 2 = p + 1 + 1 ∧ p + 1 + 1 ≠ p + 1 + 1 + 1 := by omega
  have last : p + 3 = p + 1 + 1 + 1 := by omega
  simp only [loadLong, storeLong, store, Function.update_apply]
  simp only [first, second, third, last, if_false, if_true]
  rw [bytes]

/-- The first `min(16, *addrlen)` bytes at `addr` and `*addrlen` itself have no byte in
common. -/
def Apart (mem : Memory) (addr addrlen : Int) : Prop :=
  addrlen + 4 ≤ addr ∨ addr + min 16 (loadLong mem addrlen) ≤ addrlen

instance (mem : Memory) (addr addrlen : Int) : Decidable (Apart mem addr addrlen) :=
  inferInstanceAs (Decidable (_ ∨ _))

variable {mem : Memory} {addr addrlen : Int}

theorem zeroTail_outside {left : Nat} (below : left ≤ 12) {i : Int}
    (outside : i < addr + 4 ∨ addr + 16 ≤ i) : zeroTail addr addrlen left mem i = mem i := by
  induction left generalizing mem with
  | zero => rfl
  | succ left ih =>
      simp only [zeroTail]
      split_ifs with more
      · rw [ih (by omega), Function.update_of_ne (by omega)]
      · rfl

-- `*addrlen` stays as it is, so the passes end there.
theorem zeroTail_beyond {left : Nat} (below : left ≤ 12) (apart : Apart mem addr addrlen)
    {i : Int} (beyond : addr + loadLong mem addrlen ≤ i) :
    zeroTail addr addrlen left mem i = mem i := by
  induction left generalizing mem with
  | zero => rfl
  | succ left ih =>
      simp only [zeroTail]
      split_ifs with more
      · have same : loadLong (Function.update mem (addr + (15 - left)) 0) addrlen =
            loadLong mem addrlen := by
          apply loadLong_congr
          intro k lower upper
          apply Function.update_of_ne
          unfold Apart at apart
          omega
        rw [ih (by omega) (by rwa [Apart, same]) (by rwa [same]), Function.update_of_ne (by omega)]
      · rfl

theorem sockaddrIn_outside (peerPort : UInt16) {i : Int} (outside : i < addr ∨ addr + 4 ≤ i) :
    store mem addr (sockaddrIn peerPort) i = mem i :=
  store_outside mem addr _ outside

theorem writeAddress_outside (peerPort : UInt16) {i : Int}
    (record : i < addr ∨ addr + 16 ≤ i) (length : i < addrlen ∨ addrlen + 4 ≤ i) :
    writeAddress mem addr addrlen peerPort i = mem i := by
  rw [writeAddress, storeLong_outside _ _ length, zeroTail_outside (Nat.le_refl 12) (by omega),
    sockaddrIn_outside _ (by omega)]

theorem writeAddress_beyond (peerPort : UInt16) (room : 8 ≤ loadLong mem addrlen)
    (apart : Apart mem addr addrlen) {i : Int} (beyond : addr + loadLong mem addrlen ≤ i)
    (length : i < addrlen ∨ addrlen + 4 ≤ i) :
    writeAddress mem addr addrlen peerPort i = mem i := by
  have same : loadLong (store mem addr (sockaddrIn peerPort)) addrlen =
      loadLong mem addrlen := by
    apply loadLong_congr
    intro k lower upper
    apply sockaddrIn_outside
    unfold Apart at apart
    omega
  rw [writeAddress, storeLong_outside _ _ length,
    zeroTail_beyond (Nat.le_refl 12) (by rwa [Apart, same]) (by rwa [same]),
    sockaddrIn_outside _ (by omega)]

/-- The cells a call may write, with `*addrlen` as it is when the call returns. Where it
lies inside of the address, the loop overwrites what bounds it. -/
def Api.output (mem : Memory) (i : Int) : Api → Prop
  | .recv _ (some p) len _ => p ≤ i ∧ i < p + len
  | .accept _ (some addr) (some addrlen) =>
      8 ≤ loadLong mem addrlen ∧
        (addr ≤ i ∧ i < addr + 16 ∧ (Apart mem addr addrlen → i < addr + loadLong mem addrlen) ∨
          addrlen ≤ i ∧ i < addrlen + 4)
  | _ => False

/-- What holds where a call returns. -/
structure Clean (own : Option (Move Engine Exchange)) (api : Api) (value : Int)
    (before after : Memory) : Prop where
  range : value = -1 ∨ 0 ≤ value
  failed : value = -1 → after = before ∧ ∀ x, own = some x → x.after.table = x.before.table
  frame : ∀ i, ¬ api.output before i → after i = before i

theorem failure_writes {own : Option (Move Engine Exchange)} {result : Result}
    (failure : Failure own result) (api : Api) (mem : Memory) : api.writes mem result = mem := by
  have bad : result.value ≠ netstackOk := by
    have negative := failure.value
    simp only [netstackOk]
    omega
  cases api with
  | accept s addr addrlen => cases addr <;> cases addrlen <;> simp [Api.writes, bad]
  | recv s buf len flags => cases buf <;> simp [Api.writes, failure.bytes, store]
  | _ => rfl

/-- What a receive has got is as long as it says, and no longer than its buffer. -/
theorem received_given {s len flags : Int} {buf : Option Int}
    {own : Option (Move Engine Exchange)} {result : Result}
    (finished : Finished (.recv s buf len flags) own result) (success : 0 ≤ result.value) :
    result.bytes = given own ∧ result.value = (given own).length ∧ result.value ≤ len := by
  rcases finished_cases finished with ⟨failure, -⟩ |
    ⟨-, mem, before, after, reply, rfl, rfl, passed, ok, bounded, outcome⟩
  · have negative := failure.value
    omega
  · have fine : reply.err = netstackOk := ok
    have wanted := recv_wanted passed
    obtain ⟨lower, upper⟩ := received_length bounded outcome rfl ok wanted.1
    have bytes : given (some ⟨before, ⟨(Call.recv s len).request, reply⟩, after⟩) =
        window reply.u.recv.data 0 reply.u.recv.lenOut.toNat := if_pos ⟨rfl, ok⟩
    simp only [Api.call, Call.unpack, fine, ne_eq, not_true_eq_false, if_false, bytes,
      window_length]
    refine ⟨trivial, by omega, ?_⟩
    exact Int.le_trans upper wanted.2

theorem accept_frame {s : Int} {addr addrlen : Option Int} (result : Result) {i : Int}
    (outside : ¬ (Api.accept s addr addrlen).output mem i) :
    (Api.accept s addr addrlen).writes mem result i = mem i := by
  cases addr with
  | none => rfl
  | some addr =>
      cases addrlen with
      | none => rfl
      | some addrlen =>
          simp only [Api.writes]
          split_ifs with written
          · simp only [Api.output, written.2, true_and, not_or, not_and] at outside
            obtain ⟨record, length⟩ := outside
            by_cases near : addr ≤ i ∧ i < addr + 16
            · have limits := record near.1 near.2
              rw [Classical.not_imp] at limits
              exact writeAddress_beyond _ written.2 limits.1 (by omega) (by omega)
            · exact writeAddress_outside _ (by omega) (by omega)
          · rfl

theorem clean_of_finished {api : Api} {own : Option (Move Engine Exchange)} {result : Result}
    (finished : Finished api own result) (mem : Memory) :
    Clean own api (api.value result) mem (api.writes mem result) := by
  have cases_ := finished_cases finished
  constructor
  · rcases cases_ with ⟨-, value⟩ | ⟨value, -⟩
    · exact Or.inl value
    · exact Or.inr value
  · intro negative
    rcases cases_ with ⟨failure, -⟩ | ⟨value, -⟩
    · exact ⟨failure_writes failure api mem, failure.table⟩
    · omega
  · intro i outside
    cases api with
    | accept s addr addrlen => exact accept_frame result outside
    | recv s buf len flags =>
        cases buf with
        | none => rfl
        | some p =>
            apply store_outside
            simp only [Api.output, not_and] at outside
            by_cases success : 0 ≤ result.value
            · obtain ⟨bytes, value, upper⟩ := received_given finished success
              rw [bytes]
              omega
            · rcases cases_ with ⟨failure, -⟩ | ⟨value, -⟩
              · rw [failure.bytes, List.length_nil]
                omega
              · simp [Api.value, success] at value
    | _ => rfl

/-! Whole runs. -/

variable [DecidableEq Task]

/-- What is asked of every return, from how the call's own request was served. -/
def Returning (holds : Option (Move Engine Exchange) → Api → Int → Memory → Memory → Prop)
    (known : Known Task) (move : Move (State Task) (Label Task)) : Prop :=
  ∀ t api value, move.label = .finish t api value →
    holds (known.own t) api value move.before.mem move.after.mem

theorem returning_along
    {holds : Option (Move Engine Exchange) → Api → Int → Memory → Memory → Prop}
    (finishes : ∀ api own result mem, Finished api own result →
      holds own api (api.value result) mem (api.writes mem result))
    {mem : Memory} {history : History Task} {s : State Task}
    (trace : Trace Step (boot mem) history s) :
    Kept (history.foldl watch nothing) s ∧ Along watch (Returning holds) nothing history := by
  refine observed_invariant Kept (fun _ _ => True) (kept_boot mem) ?_ ?_ trace
    (along_of_forall _ fun _ _ => trivial)
  · intro known before label after kept step _
    exact kept_step kept step
  · intro known before label after kept step _ t api value returns
    cases step with
    | @finish u api result here =>
        cases returns
        have linked := kept.linked t
        rw [here] at linked
        exact finishes api _ result before.mem linked
    | _ => cases returns

/-- In every interleaving a call returns `-1` or a number that is not negative. Where it
returns `-1`, it has written no memory and its request, if it was served at all, has left
the fd table as it was. No call writes outside what it was given to write to. -/
theorem calls_fail_clean (mem : Memory) (history : History Task) (s : State Task)
    (trace : Trace Step (boot mem) history s) :
    Along watch (Returning Clean) nothing history :=
  (returning_along (fun _ _ _ mem finished => clean_of_finished finished mem) trace).2

theorem session_fails_clean :
    Along watch (Returning Clean) nothing (sequence [] (boot desk) session).1 ∧
      ((sequence [] (boot desk) session).1.filterMap fun move =>
        match move.label with
        | .finish _ _ value => some value
        | _ => none) = [3, 0, 0, 4, 0, 5, 2, 2, -1] :=
  ⟨calls_fail_clean _ _ _ session_trace, by decide +kernel⟩

/-- A receive that succeeds has its bytes in its buffer. -/
def Delivered (own : Option (Move Engine Exchange)) (api : Api) (value : Int)
    (_ after : Memory) : Prop :=
  match api with
  | .recv _ (some p) _ _ =>
      0 ≤ value → value = (given own).length ∧ window after p value.toNat = given own
  | _ => True

theorem port_bytes (port : UInt16) :
    ((port >>> 8).toUInt8.toUInt16 <<< 8) ||| (port &&& 0xff).toUInt8.toUInt16 = port := by
  apply UInt16.toNat_inj.mp
  have range := port.toNat_lt
  have low : port.toNat &&& 255 = port.toNat % 256 := Nat.and_two_pow_sub_one_eq_mod _ 8
  have high : ((port.toNat / 2 ^ 8 % 2 ^ 8) <<< 8) % 2 ^ 16 = (port.toNat / 2 ^ 8) <<< 8 := by
    rw [Nat.shiftLeft_eq, Nat.shiftLeft_eq]
    omega
  simp only [UInt16.toNat_or, UInt16.toNat_shiftLeft, UInt8.toNat_toUInt16, UInt16.toNat_toUInt8,
    UInt16.toNat_shiftRight, UInt16.toNat_and, UInt16.reduceToNat, Nat.reduceMod, low]
  rw [Nat.shiftRight_eq_div_pow, high, ← Nat.shiftLeft_add_eq_or_of_lt (by omega),
    Nat.shiftLeft_eq]
  omega

theorem extractPort_written (port : UInt16) (room : 8 ≤ loadLong mem addrlen)
    (apart : Apart mem addr addrlen) :
    extractPort (writeAddress mem addr addrlen port) (some addr) 16 = port := by
  have kept : ∀ i, addr ≤ i → i < addr + 4 → writeAddress mem addr addrlen port i =
      store mem addr (sockaddrIn port) i := by
    intro i lower upper
    unfold Apart at apart
    rw [writeAddress, storeLong_outside _ _ (by omega),
      zeroTail_outside (Nat.le_refl 12) (by omega)]
  have third : writeAddress mem addr addrlen port (addr + 2) = (port >>> 8).toUInt8 := by
    rw [kept _ (by omega) (by omega)]
    simp only [sockaddrIn, store]
    rw [Function.update_of_ne (by omega), show addr + 1 + 1 = addr + 2 by omega,
      Function.update_self]
  have fourth : writeAddress mem addr addrlen port (addr + 3) = (port &&& 0xff).toUInt8 := by
    rw [kept _ (by omega) (by omega)]
    simp only [sockaddrIn, store]
    rw [show addr + 1 + 1 + 1 = addr + 3 by omega, Function.update_self]
  simp only [extractPort, third, fourth]
  rw [if_neg (by omega), port_bytes]

/-- A connect to a port that some socket listens on is refused only by a full backlog. -/
theorem connect_reaches {t t' : Table} {r reply : NetstackReq} {lfd : Int}
    (outcome : Outcome t r t' reply) (op : r.kind = .connect) (inside : InTable lfd)
    (listens : isListener r.u.connect.port (t lfd) = true) (valid : IsOpen t r.u.connect.sock)
    (kind : (t r.u.connect.sock).kind = .unbound) :
    reply.ok ∨ reply.err = netstackEagain ∧ ∃ full, FirstHit t (isListener r.u.connect.port) full ∧
      backlogMax ≤ (t full).backlogCount := by
  cases outcome with
  | refused why err =>
      cases why with
      | connectBad _ bad => exact absurd valid bad
      | connectKind _ _ other => exact absurd kind other
      | connectNone _ _ none =>
          rw [none lfd inside] at listens
          cases listens
      | connectFull _ full route filled => exact Or.inr ⟨err, full, route, filled⟩
      | _ => simp_all
  | queued => exact Or.inl rfl
  | passive other => simp_all
  | _ => simp_all

/-- An accept that has written an address has written one of its listener: as long as
that socket listens on its port, a connect to the address finds a listener. -/
def LeadsBack (own : Option (Move Engine Exchange)) (api : Api) (value : Int)
    (before after : Memory) : Prop :=
  match api with
  | .accept s (some addr) (some addrlen) =>
      0 ≤ value → 8 ≤ loadLong before addrlen → Apart before addr addrlen →
        loadLong after addrlen = 16 ∧ ∃ x, own = some x ∧
          isListener (extractPort after (some addr) 16) (x.before.table s) = true ∧
          ∀ engine c engine' reply, Reachable engine → IsOpen engine.table c →
            (engine.table c).kind = .unbound →
            isListener (x.before.table s).localPort (engine.table s) = true →
            dispatchRequest engine ((Api.connect c (some addr) 16).call after).request =
              .ok (engine', reply) →
            reply.ok ∨ reply.err = netstackEagain ∧ ∃ full,
              FirstHit engine.table (isListener (x.before.table s).localPort) full ∧
                backlogMax ≤ (engine.table full).backlogCount
  | _ => True

theorem leadsBack_of_finished {api : Api} {own : Option (Move Engine Exchange)} {result : Result}
    (finished : Finished api own result) (mem : Memory) :
    LeadsBack own api (api.value result) mem (api.writes mem result) := by
  cases api with
  | accept s addr addrlen =>
      cases addr with
      | none => trivial
      | some addr =>
          cases addrlen with
          | none => trivial
          | some addrlen =>
              intro success enough apart
              rcases finished_cases finished with ⟨-, negative⟩ |
                ⟨-, _, before, after, reply, rfl, rfl, -, ok, bounded, outcome⟩
              · omega
              · have fine : reply.err = netstackOk := ok
                obtain ⟨-, inside, kind, port⟩ := accept_number outcome rfl ok
                have good : ((Call.accept s).unpack reply).value = netstackOk := fine
                have written : (Api.accept s (some addr) (some addrlen)).writes mem
                    ((Call.accept s).unpack reply) =
                      writeAddress mem addr addrlen (before.table s).localPort := by
                  rw [Api.writes, if_pos ⟨good, enough⟩]
                  exact congrArg _ port
                have read := extractPort_written (before.table s).localPort enough apart
                simp only [Api.call]
                rw [written, read, writeAddress, loadLong_storeLong]
                refine ⟨by decide, _, rfl, ?_, ?_⟩
                · have listens : (before.table s).kind = .listen := kind
                  simp [isListener, listens]
                · intro engine c engine' answer reachable valid unbound listens ran
                  obtain ⟨past, run⟩ := reachable
                  exact connect_reaches (outcome_of_dispatch (run_bounded run) ran) rfl inside
                    listens valid unbound
  | _ => trivial

/-- In every interleaving the address that an accept has written leads back to its
listener. -/
theorem accepted_addresses_lead_back (mem : Memory) (history : History Task) (s : State Task)
    (trace : Trace Step (boot mem) history s) :
    Along watch (Returning LeadsBack) nothing history :=
  (returning_along (fun _ _ _ mem finished => leadsBack_of_finished finished mem) trace).2

theorem session_leads_back :
    Along watch (Returning LeadsBack) nothing (sequence [] (boot desk) session).1 ∧
      extractPort (sequence [] (boot desk) session).2.mem (some 300) 16 = 1234 :=
  ⟨accepted_addresses_lead_back _ _ _ session_trace, by decide +kernel⟩

end Netstack.Bsdsocket
