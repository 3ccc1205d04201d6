import Netstack.Ipc
import Netstack.Window

/-!
The fd table of `fdtable.c` and `dispatch_request` of `engine_main.c`. Every
access to `g_fdtable`, to a backlog ring, to an rx buffer or to a payload array
goes through a check; an access outside its array is a `Fault` and ends the
call, so a handler that returns a table made no such access. Entries 0 to 2 are
never handed out, and an access to them is a fault as well.
-/

namespace Netstack.FdTable

open Ipc Window

def fdtableMax : Int := 128
def fdFirst : Int := 3
def backlogMax : Int := 4
def rxbufSize : Int := 4096

inductive FdKind where
  | free
  | unbound
  | listen
  | connected
  deriving DecidableEq, Repr

structure FdEntry where
  kind : FdKind
  domain : Int
  type : Int
  proto : Int
  localPort : UInt16
  backlog : Int → Int
  backlogHead : Int
  backlogTail : Int
  backlogCount : Int
  peerFd : Int
  peerPort : UInt16
  rx : Int → UInt8
  rxHead : Int
  rxTail : Int

/-- The bytes `memset(e, 0, sizeof *e)` leaves. -/
def zeroEntry : FdEntry where
  kind := .free
  domain := 0
  type := 0
  proto := 0
  localPort := 0
  backlog := fun _ => 0
  backlogHead := 0
  backlogTail := 0
  backlogCount := 0
  peerFd := 0
  peerPort := 0
  rx := fun _ => 0
  rxHead := 0
  rxTail := 0

abbrev Table := Int → FdEntry

inductive Fault where
  | fdIndex (i : Int)
  | backlogIndex (i : Int)
  | rxRange (start count : Int)
  | dataRange (start count : Int)
  deriving DecidableEq, Repr

def entryAt (t : Table) (i : Int) : Except Fault FdEntry :=
  if fdFirst ≤ i ∧ i < fdtableMax then .ok (t i) else .error (.fdIndex i)

def setEntry (t : Table) (i : Int) (e : FdEntry) : Except Fault Table :=
  if fdFirst ≤ i ∧ i < fdtableMax then .ok (Function.update t i e) else .error (.fdIndex i)

def backlogAt (e : FdEntry) (i : Int) : Except Fault Int :=
  if 0 ≤ i ∧ i < backlogMax then .ok (e.backlog i) else .error (.backlogIndex i)

def setBacklog (e : FdEntry) (i : Int) (fd : Int) : Except Fault FdEntry :=
  if 0 ≤ i ∧ i < backlogMax then .ok { e with backlog := Function.update e.backlog i fd }
  else .error (.backlogIndex i)

def checkRx (start count : Int) : Except Fault Unit :=
  if 0 ≤ start ∧ 0 ≤ count ∧ start + count ≤ rxbufSize then .ok ()
  else .error (.rxRange start count)

def checkData (start count : Int) : Except Fault Unit :=
  if 0 ≤ start ∧ 0 ≤ count ∧ start + count ≤ netstackMaxPayload then .ok ()
  else .error (.dataRange start count)

/-! Helpers of `fdtable.c`. Its three scans are one loop over
`FD_FIRST .. FDTABLE_MAX` with different tests; `remaining` counts the
iterations left, and `-1` is the result when they are used up. -/

def scanFd (t : Table) (hit : FdEntry → Bool) : Nat → Int → Except Fault Int
  | 0, _ => .ok (-1)
  | remaining + 1, i => do
      let e ← entryAt t i
      if hit e then return i
      scanFd t hit remaining (i + 1)

def firstFd (t : Table) (hit : FdEntry → Bool) : Except Fault Int :=
  scanFd t hit (fdtableMax - fdFirst).toNat fdFirst

def isFree (e : FdEntry) : Bool := e.kind == .free

def isListener (port : UInt16) (e : FdEntry) : Bool :=
  e.kind == .listen && e.localPort == port

def holdsPort (port : UInt16) (e : FdEntry) : Bool :=
  (e.kind == .listen || e.kind == .connected) && e.localPort == port

def allocFd (t : Table) : Except Fault (Table × Int) := do
  let i ← firstFd t isFree
  if i < 0 then return (t, -1)
  let t ← setEntry t i { zeroEntry with peerFd := -1 }
  return (t, i)

-- `&&` stops at the first false conjunct: the entry is read only in range.
def fdValid (t : Table) (fd : Int) : Except Fault Bool := do
  if ¬ (fdFirst ≤ fd ∧ fd < fdtableMax) then return false
  let e ← entryAt t fd
  return e.kind != .free

def findListener (t : Table) (port : UInt16) : Except Fault Int :=
  firstFd t (isListener port)

def portInUse (t : Table) (port : UInt16) : Except Fault Bool := do
  let i ← firstFd t (holdsPort port)
  return decide (0 ≤ i)

def rxCompact (e : FdEntry) : Except Fault FdEntry := do
  if e.rxHead = 0 then return e
  let live := e.rxTail - e.rxHead
  if 0 < live then
    checkRx e.rxHead live
    checkRx 0 live
    return { e with rx := blit e.rx e.rx 0 e.rxHead live, rxTail := live, rxHead := 0 }
  return { e with rxTail := live, rxHead := 0 }

/-! Dispatchers. -/

def fdtableDispatchSocket (t : Table) (r : NetstackReq) :
    Except Fault (Table × NetstackReq) := do
  let (t, fd) ← allocFd t
  if fd < 0 then
    return (t, { r with err := emfile, u.socket.sock := -1 })
  let e ← entryAt t fd
  let t ← setEntry t fd
    { e with
      kind := .unbound
      domain := r.u.socket.domain
      type := r.u.socket.type
      proto := r.u.socket.proto }
  return (t, { r with err := netstackOk, u.socket.sock := fd })

-- The notice `fdtable_dispatch_close` gives the other end of a connection.
def clearPeer (t : Table) (e : FdEntry) : Except Fault Table := do
  if e.kind ≠ .connected then return t
  if e.peerFd < 0 then return t
  if !(← fdValid t e.peerFd) then return t
  let p ← entryAt t e.peerFd
  setEntry t e.peerFd { p with peerFd := -1 }

def fdtableDispatchClose (t : Table) (r : NetstackReq) :
    Except Fault (Table × NetstackReq) := do
  let fd := r.u.close.sock
  if !(← fdValid t fd) then return (t, { r with err := netstackEbadf })
  let e ← entryAt t fd
  let t ← clearPeer t e
  let t ← setEntry t fd { zeroEntry with peerFd := -1 }
  return (t, { r with err := netstackOk })

def fdtableDispatchBind (t : Table) (r : NetstackReq) :
    Except Fault (Table × NetstackReq) := do
  let fd := r.u.bind.sock
  if !(← fdValid t fd) then return (t, { r with err := netstackEbadf })
  let e ← entryAt t fd
  if e.kind ≠ .unbound then return (t, { r with err := netstackEinval })
  if ← portInUse t r.u.bind.port then return (t, { r with err := netstackEaddrinuse })
  let t ← setEntry t fd { e with localPort := r.u.bind.port }
  return (t, { r with err := netstackOk })

def fdtableDispatchListen (t : Table) (r : NetstackReq) :
    Except Fault (Table × NetstackReq) := do
  let fd := r.u.listen.sock
  if !(← fdValid t fd) then return (t, { r with err := netstackEbadf })
  let e ← entryAt t fd
  if e.kind ≠ .unbound ∨ e.localPort = 0 then return (t, { r with err := netstackEinval })
  let t ← setEntry t fd
    { e with kind := .listen, backlogHead := 0, backlogTail := 0, backlogCount := 0 }
  return (t, { r with err := netstackOk })

def fdtableDispatchConnect (t : Table) (r : NetstackReq) :
    Except Fault (Table × NetstackReq) := do
  let fd := r.u.connect.sock
  if !(← fdValid t fd) then return (t, { r with err := netstackEbadf })
  let e ← entryAt t fd
  if e.kind ≠ .unbound then return (t, { r with err := netstackEinval })
  let lfd ← findListener t r.u.connect.port
  if lfd < 0 then return (t, { r with err := netstackEconnrefused })
  let lst ← entryAt t lfd
  if backlogMax ≤ lst.backlogCount then return (t, { r with err := netstackEagain })
  let t ← setEntry t fd
    { e with kind := .connected, peerFd := -1, peerPort := r.u.connect.port }
  let lst ← entryAt t lfd
  let lst ← setBacklog lst lst.backlogTail fd
  let t ← setEntry t lfd
    { lst with
      backlogTail := (lst.backlogTail + 1) % backlogMax
      backlogCount := lst.backlogCount + 1 }
  return (t, { r with err := netstackOk })

def fdtableDispatchAccept (t : Table) (r : NetstackReq) :
    Except Fault (Table × NetstackReq) := do
  let fd := r.u.accept.sock
  if !(← fdValid t fd) then return (t, { r with err := netstackEbadf })
  let lst ← entryAt t fd
  if lst.kind ≠ .listen then return (t, { r with err := netstackEinval })
  if lst.backlogCount = 0 then
    return (t, { r with err := netstackEagain, u.accept.newSock := -1 })
  let clientFd ← backlogAt lst lst.backlogHead
  let t ← setEntry t fd
    { lst with
      backlogHead := (lst.backlogHead + 1) % backlogMax
      backlogCount := lst.backlogCount - 1 }
  let (t, newFd) ← allocFd t
  let lst ← entryAt t fd
  if newFd < 0 then
    -- The pending client goes back to the head of the ring.
    let head := (lst.backlogHead + backlogMax - 1) % backlogMax
    let lst ← setBacklog { lst with backlogHead := head } head clientFd
    let t ← setEntry t fd { lst with backlogCount := lst.backlogCount + 1 }
    return (t, { r with err := emfile, u.accept.newSock := -1 })
  let e ← entryAt t newFd
  let t ← setEntry t newFd
    { e with
      kind := .connected
      domain := lst.domain
      type := lst.type
      proto := lst.proto
      localPort := lst.localPort
      peerFd := clientFd
      peerPort := 0 }
  -- No check that `clientFd` is still the socket that connected.
  let client ← entryAt t clientFd
  let t ← setEntry t clientFd { client with peerFd := newFd }
  let lst ← entryAt t fd
  return (t, { r with
    err := netstackOk, u.accept.newSock := newFd, u.accept.peerPort := lst.localPort })

def fdtableDispatchSend (t : Table) (r : NetstackReq) :
    Except Fault (Table × NetstackReq) := do
  let fd := r.u.send.sock
  if !(← fdValid t fd) then return (t, { r with err := netstackEbadf })
  let e ← entryAt t fd
  if e.kind ≠ .connected ∨ e.peerFd < 0 then return (t, { r with err := netstackEnotconn })
  let peer := e.peerFd
  if !(← fdValid t peer) then return (t, { r with err := netstackEnotconn })
  let len := r.u.send.lenIn
  if len < 0 ∨ netstackMaxPayload < len then return (t, { r with err := netstackEmsgsize })
  let pe ← entryAt t peer
  let pe ← rxCompact pe
  let room := rxbufSize - pe.rxTail
  if room ≤ 0 then
    let t ← setEntry t peer pe
    return (t, { r with err := netstackEagain, u.send.lenOut := 0 })
  let toWrite := if len < room then len else room
  checkData 0 toWrite
  checkRx pe.rxTail toWrite
  let t ← setEntry t peer
    { pe with
      rx := blit pe.rx r.u.send.data pe.rxTail 0 toWrite
      rxTail := pe.rxTail + toWrite }
  return (t, { r with err := netstackOk, u.send.lenOut := toWrite })

def fdtableDispatchRecv (t : Table) (r : NetstackReq) :
    Except Fault (Table × NetstackReq) := do
  let fd := r.u.recv.sock
  if !(← fdValid t fd) then return (t, { r with err := netstackEbadf })
  let e ← entryAt t fd
  if e.kind ≠ .connected then return (t, { r with err := netstackEnotconn })
  let avail := e.rxTail - e.rxHead
  if avail ≤ 0 then
    if e.peerFd < 0 then
      return (t, { r with err := netstackOk, u.recv.lenOut := 0 })
    if !(← fdValid t e.peerFd) then
      return (t, { r with err := netstackOk, u.recv.lenOut := 0 })
    return (t, { r with err := netstackEagain, u.recv.lenOut := 0 })
  let want := r.u.recv.lenIn
  let want := if want < 0 then 0 else want
  let want := if netstackMaxPayload < want then netstackMaxPayload else want
  let toRead := if avail < want then avail else want
  checkRx e.rxHead toRead
  checkData 0 toRead
  let head := e.rxHead + toRead
  let t ← setEntry t fd
    (if head = e.rxTail then { e with rxHead := 0, rxTail := 0 } else { e with rxHead := head })
  return (t, { r with
    err := netstackOk
    u.recv.data := blit r.u.recv.data e.rx 0 e.rxHead toRead
    u.recv.lenOut := toRead })

/-! `dispatch_request` with the two globals it reaches: the table and the flag
`g_engine_shutdown`. -/

structure Engine where
  table : Table
  shutdown : Bool

def initial : Engine := ⟨fun _ => zeroEntry, false⟩

def dispatchPing (r : NetstackReq) : NetstackReq :=
  { r with err := netstackOk, u.ping.payload := r.u.ping.payload + 1 }

def dispatchShutdown (s : Engine) (r : NetstackReq) : Engine × NetstackReq :=
  ({ s with shutdown := true }, { r with err := netstackOk })

def Engine.onTable (s : Engine) (result : Except Fault (Table × NetstackReq)) :
    Except Fault (Engine × NetstackReq) := do
  let (t, r) ← result
  return ({ s with table := t }, r)

def dispatchRequest (s : Engine) (r : NetstackReq) : Except Fault (Engine × NetstackReq) :=
  match r.kind with
  | .ping => .ok (s, dispatchPing r)
  | .shutdown => .ok (dispatchShutdown s r)
  | .socket => s.onTable (fdtableDispatchSocket s.table r)
  | .close => s.onTable (fdtableDispatchClose s.table r)
  | .bind => s.onTable (fdtableDispatchBind s.table r)
  | .listen => s.onTable (fdtableDispatchListen s.table r)
  | .connect => s.onTable (fdtableDispatchConnect s.table r)
  | .accept => s.onTable (fdtableDispatchAccept s.table r)
  | .send => s.onTable (fdtableDispatchSend s.table r)
  | .recv => s.onTable (fdtableDispatchRecv s.table r)
  | .unknown => .ok (s, { r with err := netstackEnosys })

end Netstack.FdTable
