/-
# The session socket and the frames in flight

One session of the node (`ZmqSessionManager`) has at most one socket at a time.  A bound
socket is one connection: frames travel in order in both directions, and closing the
socket loses those that are still in flight.

* `Choice` : how the surroundings resolve one operation (which fault, how much of a
  write reaches the disk);
* `Link` : the socket and its two queues, with the socket operations.
-/
import StorageNode.NodeOps

/-- How the surroundings resolve one operation of the node: the exception it raises, if
any; for a failing write the number of bytes it still takes in; for a write or a close the
number of buffered bytes that reach the disk; for a question to something outside the
model the answer. -/
structure Choice where
  fault : Option Exn := none
  keep : ℕ := 0
  flush : ℕ := 0
  answer : Bool := true

/-- The part of a chunk a write takes in: all of it, or up to `keep` elements when it
fails. -/
def Choice.taken {α : Type} (c : Choice) (b : List α) : List α :=
  match c.fault with
  | none => b
  | some _ => b.take c.keep

/-- The number of bytes a close flushes: all, or up to `flush` when it fails. -/
def Choice.closing (c : Choice) (f : OpenFile) : ℕ :=
  match c.fault with
  | none => f.buf.length
  | some _ => c.flush

/-- The socket of a session (`none` before `open` and after `close`, and whether it is
bound) and the frames in flight. -/
structure Link where
  bound : Option Bool := none
  toNode : List Raw := []
  toPeer : List Raw := []
  deriving DecidableEq

namespace Link

/-- The socket operations that succeed.  `recv` waits while nothing has arrived. -/
def perform (l : Link) : (o : NodeOp) → Option (Except Exn o.Res × Link)
  | .newSocket => some (.ok (), { bound := some false })
  | .bindSocket _ _ => some (.ok (), { bound := some true })
  | .closeSocket => some (.ok (), {})
  | .hasSocket => some (.ok l.bound.isSome, l)
  | .setTimeouts _ _ => some (.ok (), l)
  | .send raw =>
      if l.bound = some true then some (.ok (), { l with toPeer := l.toPeer ++ [raw] }) else none
  | .recv =>
      match l.toNode with
      | raw :: rest => some (.ok raw, { l with toNode := rest })
      | [] => none
  | _ => none

end Link

/-- The `type` entry of a frame, when there is one. -/
def Raw.type? : Raw → Option FrameField
  | .pickled o => (o.getItem "type").toOption
  | .garbage => none

/-- The `data` entry of a frame, when there is one. -/
def Raw.data? : Raw → Option FrameField
  | .pickled o => (o.getItem "data").toOption
  | .garbage => none

/-- The operations that touch neither the socket nor the files of the data directory. -/
def NodeOp.answerOnly (c : Choice) : (o : NodeOp) → Option (Except Exn o.Res)
  | .pickleLoads (.pickled obj) => some (.ok obj)
  | .isDir _ => some (.ok c.answer)
  | .makeDirs _ => some (.ok ())
  | .forwardPort _ => some (.ok c.answer)
  | .ledgerRegister _ => some (.ok c.answer)
  | .ledgerUnregister _ => some (.ok c.answer)
  | _ => none

/-- The operations of the session socket. -/
def NodeOp.onLink : NodeOp → Bool
  | .newSocket => true
  | .bindSocket _ _ => true
  | .closeSocket => true
  | .hasSocket => true
  | .setTimeouts _ _ => true
  | .send _ => true
  | .recv => true
  | _ => false

/-- The operations that neither read nor change the transfer and the disk. -/
def NodeOp.outside : NodeOp → Bool
  | .pickleLoads _ => true
  | .isDir _ => true
  | .makeDirs _ => true
  | .forwardPort _ => true
  | .ledgerRegister _ => true
  | .ledgerUnregister _ => true
  | _ => false
