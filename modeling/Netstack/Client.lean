import Netstack.Ipc
import Netstack.Window

/-!
The client wrappers of `socket_ipc.c` without their transport: what each puts
into its request, when it answers before sending one, and what it makes of the
request after the reply. `netstack_ipc_call` itself is modelled with the ports.
-/

namespace Netstack.Client

open Ipc Window

inductive Call where
  | ping (seq payload : UInt32)
  | socket (domain type proto : Int)
  | close (sock : Int)
  | bind (sock : Int) (port : UInt16)
  | listen (sock backlog : Int)
  | connect (sock : Int) (port : UInt16)
  | accept (sock : Int)
  | send (sock : Int) (buf : Int → UInt8) (len : Int)
  | recv (sock max : Int)

structure Result where
  value : Int
  outPayload : Option UInt32 := none
  outSock : Option Int := none
  outPeerPort : Option UInt16 := none
  bytes : List UInt8 := []

/-- `netstack_send` and `netstack_recv` check the length before they build a
request. -/
def Call.rejected : Call → Option Result
  | .send _ _ len =>
      if len < 0 ∨ netstackMaxPayload < len then some { value := netstackEmsgsize } else none
  | .recv _ max => if max < 0 then some { value := netstackEmsgsize } else none
  | _ => none

def Call.request : Call → NetstackReq
  | .ping seq payload => { op := 0x0001, u := { ping := ⟨seq, payload⟩ } }
  | .socket domain type proto =>
      { op := 0x0100, u := { socket := { domain := domain, type := type, proto := proto } } }
  | .close sock => { op := 0x0107, u := { close := ⟨sock⟩ } }
  | .bind sock port => { op := 0x0101, u := { bind := ⟨sock, port⟩ } }
  | .listen sock backlog => { op := 0x0103, u := { listen := ⟨sock, backlog⟩ } }
  | .connect sock port => { op := 0x0102, u := { connect := ⟨sock, port⟩ } }
  | .accept sock => { op := 0x0104, u := { accept := { sock := sock } } }
  | .send sock buf len =>
      { op := 0x0105
        u := { send := { sock := sock, lenIn := len, data := blit (fun _ => 0) buf 0 0 len } } }
  | .recv sock max =>
      { op := 0x0106
        u := { recv := {
          sock := sock
          lenIn := if netstackMaxPayload < max then netstackMaxPayload else max } } }

def Call.unpack (call : Call) (req : NetstackReq) : Result :=
  match call with
  | .ping _ _ => { value := req.err, outPayload := some req.u.ping.payload }
  | .socket _ _ _ => { value := req.err, outSock := some req.u.socket.sock }
  | .close _ | .bind _ _ | .listen _ _ | .connect _ _ => { value := req.err }
  | .accept _ =>
      { value := req.err
        outSock := some req.u.accept.newSock
        outPeerPort := some req.u.accept.peerPort }
  | .send _ _ _ =>
      if req.err ≠ netstackOk then { value := req.err } else { value := req.u.send.lenOut }
  | .recv _ _ =>
      if req.err ≠ netstackOk then { value := req.err }
      else
        { value := req.u.recv.lenOut
          bytes := window req.u.recv.data 0 req.u.recv.lenOut.toNat }

end Netstack.Client
