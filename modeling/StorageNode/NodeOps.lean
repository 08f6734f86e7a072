/-
# The operations of the node's transfer code

What `chunk_transfer.py` and `request_dispatcher.py` call outside themselves: the ZMQ
socket of a session, the files of the data directory, the router, the backend and the
connection ledger.  `NodeOp.mayRaise` says which exceptions each library documents.

* `Exn` : the exceptions, with the classes that `except` names;
* `PyObj`, `Raw` : the objects `FrameCodec` pickles and what travels on a socket;
* `NodeOp`, `NodeOp.Res` : the operations and their answers;
* `Node` : the programs over them.
-/
import StorageNode.Prog
import StorageNode.Json
import StorageNode.FileStore

/-- The exceptions the modelled code raises or meets. -/
inductive Exn
  /-- `zmq.ZMQError`, also of a timed-out operation -/
  | zmqError
  | osError
  /-- `FileNotFoundError`, a subclass of `OSError` -/
  | fileNotFound
  /-- whatever `pickle.loads` raises on bytes that are no pickle -/
  | unpickling
  | jsonDecode
  | keyError
  | typeError
  | valueError
  | attributeError
  /-- `httpx.RequestError` -/
  | requestError
  /-- `httpx.InvalidURL`, which is no `RequestError` -/
  | invalidUrl
  /-- an exception outside `Exception`, such as the `SystemExit` of a pickle that calls
  `sys.exit` -/
  | systemExit
  deriving DecidableEq

/-- `except Exception`. -/
def Exn.isException (e : Exn) : Bool := e ≠ .systemExit

/-- `except OSError`, and so `except socket.error`. -/
def Exn.isOSError : Exn → Bool
  | .osError => true
  | .fileNotFound => true
  | _ => false

/-! ## Frames -/

/-- A value in a frame; `bytes` are what a binary file writes, a `bytearray` too. -/
inductive FrameField
  | str (s : String)
  | bytes (b : Bytes)
  | bool (b : Bool)
  | int (n : ℤ)
  | other
  deriving DecidableEq

/-- The offset `seek` takes a value for: `True` is 1. -/
def FrameField.offset : FrameField → Except Exn ℤ
  | .int n => .ok n
  | .bool b => .ok (boolToInt b)
  | _ => .error .typeError

/-- An unpickled object: a dictionary, or something `o["key"]` fails on. -/
inductive PyObj
  | dict (fields : List (String × FrameField))
  | other
  deriving DecidableEq

/-- `o[k]`. -/
def PyObj.getItem : PyObj → String → Except Exn FrameField
  | .dict fields, k =>
      match fields.lookup k with
      | some v => .ok v
      | none => .error .keyError
  | .other, _ => .error .typeError

/-- What a missing key raises is an `Exception`. -/
theorem PyObj.isException_of_getItem {o : PyObj} {k : String} {e : Exn}
    (h : o.getItem k = .error e) : e.isException = true := by
  cases o with
  | dict fields =>
      rw [PyObj.getItem] at h
      split at h
      · cases h
      · cases h
        rfl
  | other =>
      cases h
      rfl

theorem FrameField.isException_of_offset {v : FrameField} {e : Exn} (h : v.offset = .error e) :
    e.isException = true := by
  cases v with
  | int n => cases h
  | bool b => cases h
  | _ =>
      cases h
      rfl

/-- A message on a socket: the pickle of an object, or bytes that are none. -/
inductive Raw
  | pickled (o : PyObj)
  | garbage
  deriving DecidableEq

/-- `FrameCodec.encode`. -/
def FrameCodec.encode (frame : PyObj) : Raw := .pickled frame

/-- `{"type": "start"}` -/
def startFrame : PyObj := .dict [("type", .str "start")]

/-- `{"type": "resume", "data": byte_offset}` -/
def resumeFrame (byteOffset : ℕ) : PyObj :=
  .dict [("type", .str "resume"), ("data", .int byteOffset)]

/-- `{"type": "data", "data": chunk}` -/
def dataFrame (chunk : Bytes) : PyObj := .dict [("type", .str "data"), ("data", .bytes chunk)]

/-- `{"type": "ACK"}` -/
def ackFrame : PyObj := .dict [("type", .str "ACK")]

/-- `{"type": "END"}` -/
def endFrame : PyObj := .dict [("type", .str "END")]

/-! ## Configuration -/

/-- The fields of `NodeConfig` the transfers read, and which collaborators the
transfer objects were built with. -/
structure Config where
  dataDirectory : PyStr := "Data"
  isLocal : Bool := true
  hosted : Bool := false
  chunkSize : ℕ := 2 ^ 19
  localIp : String := ""
  chunkTimeout : ℕ := 8000
  disconnectedTimeout : ℕ := 60 * 60 * 1000
  router : Bool := true
  backend : Bool := true

/-- `os.path.join(a, b)`. -/
def osPathJoin (a b : PyStr) : PyStr :=
  if b.head? = some (.char '/') then b
  else if a = [] ∨ a.getLast? = some (.char '/') then a ++ b
  else a ++ ("/" : PyStr) ++ b

/-- The arguments of `RouterPortManager.forward_port` the callers vary. -/
structure PortMapping where
  port : Json
  lanip : Option String
  disable : Bool

/-! ## Operations -/

/-- The operations. -/
inductive NodeOp
  -- `ZmqSessionManager`
  | newSocket
  | bindSocket (address : String) (port : Json)
  | closeSocket
  | hasSocket
  | setTimeouts (sendMs recvMs : ℕ)
  | send (raw : Raw)
  | recv
  | pickleLoads (raw : Raw)
  -- the data directory
  | isDir (path : PyStr)
  | makeDirs (path : PyStr)
  | isFile (path : PyStr)
  | getSize (path : PyStr)
  | openFile (path : PyStr) (mode : FileMode)
  | read (fh : ℕ) (n : ℕ)
  | seek (fh : ℕ) (offset : ℤ)
  | write (fh : ℕ) (data : Bytes)
  | closeFile (fh : ℕ)
  -- collaborators
  | forwardPort (mapping : PortMapping)
  | doneUploading (shardId : Json)
  | ledgerRegister (entry : Dict)
  | ledgerUnregister (entry : Dict)

/-- What an operation answers with. -/
@[reducible] def NodeOp.Res : NodeOp → Type
  | .hasSocket => Bool
  | .recv => Raw
  | .pickleLoads _ => PyObj
  | .isDir _ => Bool
  | .isFile _ => Bool
  | .getSize _ => ℕ
  | .openFile _ _ => ℕ
  | .read _ _ => Bytes
  | .forwardPort _ => Bool
  | .ledgerRegister _ => Bool
  | .ledgerUnregister _ => Bool
  | _ => Unit

/-- `OSError`, or the `ValueError` of a path with a null or a surrogate that is no byte. -/
def Exn.ofPath (e : Exn) : Bool := e.isOSError || e = .valueError

/-- The exceptions an operation may raise: pyzmq raises `ZMQError`, and `bind` also
`ValueError`, for an endpoint with a surrogate; the file calls `OSError`, those that take a path
also `ValueError`, and `seek` too, for an offset that does not fit; the router's network code may
raise any exception, and unpickling runs the pickle.  `os.path.isfile` and `isdir` answer `False`
instead of raising, `register` and `unregister` catch every exception, and `done_uploading`
every network failure, but neither a URL nor a body that httpx cannot use. -/
def NodeOp.mayRaise : NodeOp → Exn → Bool
  | .newSocket, e => e = .zmqError
  | .bindSocket _ _, e => e = .zmqError || e = .valueError
  | .closeSocket, e => e = .zmqError
  | .setTimeouts _ _, e => e = .zmqError
  | .send _, e => e = .zmqError
  | .recv, e => e = .zmqError
  | .pickleLoads _, _ => true
  | .makeDirs _, e => e.ofPath
  | .getSize _, e => e.ofPath
  | .openFile _ _, e => e.ofPath
  | .read _ _, e => e.isOSError
  | .seek _ _, e => e.isOSError || e = .valueError
  | .write _ _, e => e.isOSError
  | .closeFile _, e => e.isOSError
  | .forwardPort _, e => e.isException
  | .doneUploading _, e => e = .valueError || e = .invalidUrl
  | _, _ => false

/-- Programs of the transfer code. -/
abbrev Node (α : Type) : Type := Prog NodeOp NodeOp.Res Exn α

/-- Call an operation. -/
abbrev op (o : NodeOp) : Node o.Res := Prog.perform o

/-- `request[key]`. -/
def Dict.getItem (request : Dict) (key : PyStr) : Except Exn Json :=
  match Dict.get? key request with
  | some v => .ok v
  | none => .error .keyError

/-- `os.path.join(directory, name)` for a value of any type. -/
def joinPath (directory : PyStr) : Json → Except Exn PyStr
  | .str name => .ok (osPathJoin directory name)
  | _ => .error .typeError
