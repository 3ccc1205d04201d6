import Mathlib.Logic.Function.Basic

/-!
The request ABI of `netstack_ipc.h`: op codes, error codes and the request
record. Integers of the C type `int32` are `Int`; no modelled expression leaves
the int32 range, because every stored length, index and counter stays inside
its array (`FdBounds`). Every handler reads and writes one member of the union
`u` only, so the members stand side by side. The `struct Message` header is
kept by the message layer, which is the only code that reads it.
-/

namespace Netstack.Ipc

def netstackOk : Int := 0
def netstackEnosys : Int := -38
def netstackEbadf : Int := -9
def netstackEagain : Int := -11
def netstackEinval : Int := -22
def netstackEaddrinuse : Int := -48
def netstackEconnrefused : Int := -61
def netstackEnotconn : Int := -57
def netstackEmsgsize : Int := -40

-- fdtable.c writes this one as a bare number.
def emfile : Int := -24

def netstackMaxPayload : Int := 1024

inductive NetstackOp where
  | ping
  | shutdown
  | socket
  | bind
  | connect
  | listen
  | accept
  | send
  | recv
  | close
  | unknown
  deriving DecidableEq, Repr

/-- The `switch` of `dispatch_request`: every code it does not list reaches
the `default` branch. -/
def NetstackOp.ofCode (code : UInt16) : NetstackOp :=
  match code.toNat with
  | 0x0001 => .ping
  | 0x0002 => .shutdown
  | 0x0100 => .socket
  | 0x0101 => .bind
  | 0x0102 => .connect
  | 0x0103 => .listen
  | 0x0104 => .accept
  | 0x0105 => .send
  | 0x0106 => .recv
  | 0x0107 => .close
  | _ => .unknown

structure PingBody where
  seq : UInt32 := 0
  payload : UInt32 := 0

structure SocketBody where
  domain : Int := 0
  type : Int := 0
  proto : Int := 0
  sock : Int := 0

structure CloseBody where
  sock : Int := 0

structure BindBody where
  sock : Int := 0
  port : UInt16 := 0

structure ListenBody where
  sock : Int := 0
  backlog : Int := 0

structure ConnectBody where
  sock : Int := 0
  port : UInt16 := 0

structure AcceptBody where
  sock : Int := 0
  newSock : Int := 0
  peerPort : UInt16 := 0

/-- `u.send` and `u.recv` have one shape. Cells `0` to `1023` of `data` are the
array; the handlers check every range before they copy it. -/
structure TransferBody where
  sock : Int := 0
  lenIn : Int := 0
  lenOut : Int := 0
  data : Int → UInt8 := fun _ => 0

structure ReqUnion where
  ping : PingBody := {}
  socket : SocketBody := {}
  close : CloseBody := {}
  bind : BindBody := {}
  listen : ListenBody := {}
  connect : ConnectBody := {}
  accept : AcceptBody := {}
  send : TransferBody := {}
  recv : TransferBody := {}

-- The defaults are the `= {0}` of every request the clients build.
structure NetstackReq where
  op : UInt16 := 0
  err : Int := 0
  u : ReqUnion := {}

def NetstackReq.kind (r : NetstackReq) : NetstackOp := NetstackOp.ofCode r.op

def NetstackReq.ok (r : NetstackReq) : Prop := r.err = netstackOk

instance (r : NetstackReq) : Decidable r.ok := inferInstanceAs (Decidable (_ = _))

end Netstack.Ipc
