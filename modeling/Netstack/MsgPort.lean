import Mathlib.Logic.Function.Basic
import Mathlib.Data.List.Basic

/-!
Message ports. A port is a FIFO of messages, a message is named by its address,
and the ports of a system are a function from names to queues. A post appends,
a take removes the head or finds none, and no other port is touched.
-/

namespace Netstack.MsgPort

variable {Name Msg : Type} [DecidableEq Name]

def post (ports : Name → List Msg) (port : Name) (msg : Msg) : Name → List Msg :=
  Function.update ports port (ports port ++ [msg])

def take (ports : Name → List Msg) (port : Name) : Name → List Msg :=
  Function.update ports port (ports port).tail

variable {ports : Name → List Msg} {port other : Name} {msg : Msg}

@[simp] theorem post_self : post ports port msg port = ports port ++ [msg] :=
  Function.update_self ..

theorem post_other (apart : other ≠ port) : post ports port msg other = ports other :=
  Function.update_of_ne apart ..

@[simp] theorem take_self : take ports port port = (ports port).tail := Function.update_self ..

theorem take_other (apart : other ≠ port) : take ports port other = ports other :=
  Function.update_of_ne apart ..

end Netstack.MsgPort
