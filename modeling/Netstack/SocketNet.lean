import Mathlib.Logic.Function.Basic

/-!
A network of stream sockets, as its users see it. Names come from a finite supply and the
first free one is given out; a listener queues the names of those who connect to its port,
and a socket queues the bytes that were sent to its name. Queues are lists with a limit.
A name in a queue and a peer are names only: what stands behind one may have changed.
-/

namespace Netstack.SocketNet

variable {Name Port Byte : Type}

inductive Role (Name : Type) where
  | unbound
  | listening (waiting : List Name)
  | connected (peer : Option Name)

structure Socket (Name Port Byte : Type) where
  port : Port
  role : Role Name
  incoming : List Byte

abbrev Net (Name Port Byte : Type) := Name → Option (Socket Name Port Byte)

structure Limits (Name Port : Type) where
  names : List Name
  -- The port of a socket that has none.
  unnamed : Port
  buffer : Nat
  depth : Nat
  message : Nat

/-- A send of a length that no message has brings no bytes. -/
inductive Call (Name Port Byte : Type) where
  | socket
  | close (name : Name)
  | bind (name : Name) (port : Port)
  | listen (name : Name)
  | connect (name : Name) (port : Port)
  | accept (name : Name)
  | send (name : Name) (bytes : Option (List Byte))
  | receive (name : Name) (most : Nat)

inductive Failure where
  | badName
  | invalid
  | noNames
  | portUsed
  | refused
  | tryAgain
  | notConnected
  | tooLong
  deriving DecidableEq

inductive Response (Name Port Byte : Type) where
  | done
  | opened (name : Name)
  | accepted (name : Name) (port : Port)
  | sent (count : Nat)
  | received (bytes : List Byte)
  | failed (why : Failure)
  deriving DecidableEq

def Socket.forsake (socket : Socket Name Port Byte) : Socket Name Port Byte :=
  match socket.role with
  | .connected _ => { socket with role := .connected none }
  | _ => socket

def Socket.attach (peer : Name) (socket : Socket Name Port Byte) : Socket Name Port Byte :=
  match socket.role with
  | .connected _ => { socket with role := .connected (some peer) }
  | _ => socket

def Socket.enqueue (client : Name) (socket : Socket Name Port Byte) : Socket Name Port Byte :=
  match socket.role with
  | .listening waiting => { socket with role := .listening (waiting ++ [client]) }
  | _ => socket

def Socket.waiting (socket : Socket Name Port Byte) : List Name :=
  match socket.role with
  | .listening waiting => waiting
  | _ => []

variable [DecidableEq Port]

def Socket.listensOn (port : Port) (socket : Socket Name Port Byte) : Bool :=
  match socket.role with
  | .listening _ => socket.port = port
  | _ => false

/-- A socket that was bound and neither listens nor is connected does not hold its port. -/
def Socket.holdsPort (port : Port) (socket : Socket Name Port Byte) : Bool :=
  match socket.role with
  | .unbound => false
  | _ => socket.port = port

variable (limits : Limits Name Port) (net : Net Name Port Byte)

def fresh : Option Name := limits.names.find? fun name => (net name).isNone

def listener (port : Port) : Option Name :=
  limits.names.find? fun name => (net name).any (Socket.listensOn port)

def used (port : Port) : Bool :=
  limits.names.any fun name => (net name).any (Socket.holdsPort port)

def onSocket (name : Name)
    (body : Socket Name Port Byte → Net Name Port Byte × Response Name Port Byte) :
    Net Name Port Byte × Response Name Port Byte :=
  match net name with
  | none => (net, .failed .badName)
  | some socket => body socket

variable [DecidableEq Name]

def amend (name : Name) (change : Socket Name Port Byte → Socket Name Port Byte) :
    Net Name Port Byte :=
  Function.update net name ((net name).map change)

/-- The peer of a connected socket learns that it is gone. -/
def leave (socket : Socket Name Port Byte) : Net Name Port Byte :=
  match socket.role with
  | .connected (some peer) => amend net peer Socket.forsake
  | _ => net

def respond : Call Name Port Byte → Net Name Port Byte × Response Name Port Byte
  | .socket =>
      match fresh limits net with
      | none => (net, .failed .noNames)
      | some name => (Function.update net name (some ⟨limits.unnamed, .unbound, []⟩), .opened name)
  | .close name =>
      onSocket net name fun socket => (Function.update (leave net socket) name none, .done)
  | .bind name port =>
      onSocket net name fun socket =>
        match socket.role with
        | .unbound =>
            if used limits net port then (net, .failed .portUsed)
            else (Function.update net name (some { socket with port := port }), .done)
        | _ => (net, .failed .invalid)
  | .listen name =>
      onSocket net name fun socket =>
        match socket.role with
        | .unbound =>
            if socket.port = limits.unnamed then (net, .failed .invalid)
            else (Function.update net name (some { socket with role := .listening [] }), .done)
        | _ => (net, .failed .invalid)
  | .connect name port =>
      onSocket net name fun socket =>
        match socket.role with
        | .unbound =>
            match listener limits net port with
            | none => (net, .failed .refused)
            | some host =>
                if limits.depth ≤ ((net host).elim [] Socket.waiting).length then
                  (net, .failed .tryAgain)
                else
                  (amend (Function.update net name (some { socket with role := .connected none }))
                    host (Socket.enqueue name), .done)
        | _ => (net, .failed .invalid)
  | .accept name =>
      onSocket net name fun socket =>
        match socket.role with
        | .listening [] => (net, .failed .tryAgain)
        | .listening (client :: rest) =>
            match fresh limits net with
            | none => (net, .failed .noNames)
            | some new =>
                let popped := Function.update net name (some { socket with role := .listening rest })
                let minted := Function.update popped new
                  (some ⟨socket.port, .connected (some client), []⟩)
                (amend minted client (Socket.attach new), .accepted new socket.port)
        | _ => (net, .failed .invalid)
  | .send name bytes =>
      onSocket net name fun socket =>
        match socket.role with
        | .connected (some peer) =>
            match net peer, bytes with
            | none, _ => (net, .failed .notConnected)
            | some _, none => (net, .failed .tooLong)
            | some other, some bytes =>
                if limits.message < bytes.length then (net, .failed .tooLong)
                else if limits.buffer ≤ other.incoming.length then (net, .failed .tryAgain)
                else
                  let part := bytes.take (limits.buffer - other.incoming.length)
                  (Function.update net peer (some { other with incoming := other.incoming ++ part }),
                    .sent part.length)
        | _ => (net, .failed .notConnected)
  | .receive name most =>
      onSocket net name fun socket =>
        match socket.role with
        | .connected peer =>
            if socket.incoming = [] then
              if (peer.bind net).isSome then (net, .failed .tryAgain) else (net, .received [])
            else
              let count := min most limits.message
              (Function.update net name (some { socket with incoming := socket.incoming.drop count }),
                .received (socket.incoming.take count))
        | _ => (net, .failed .notConnected)

/-- Calls answered one after another: the network they leave and what was answered. -/
def replay (calls : List (Call Name Port Byte)) :
    Net Name Port Byte × List (Response Name Port Byte) :=
  calls.foldl (fun past call =>
    ((respond limits past.1 call).1, past.2 ++ [(respond limits past.1 call).2])) (net, [])

theorem replay_snoc (calls : List (Call Name Port Byte)) (call : Call Name Port Byte) :
    replay limits net (calls ++ [call]) =
      ((respond limits (replay limits net calls).1 call).1,
        (replay limits net calls).2 ++ [(respond limits (replay limits net calls).1 call).2]) := by
  rw [replay, List.foldl_append]
  rfl

end Netstack.SocketNet
