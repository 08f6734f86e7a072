/-
# Dispatching a request (`request_dispatcher.py`)

`RequestDispatcher.dispatch` with what it calls, as programs over the node's operations
and those of the dispatcher: the port scanner, the client's connection and the read of an
audited shard.

* `DispatchOp` : the operations;
* `IntegrityVerifier.computeSaltedHash`, `RequestDispatcher.dispatch` : the methods;
* `OwnOp` : everything a transfer of a request can do, with `only_receiveData`,
  `only_sendData` and `only_dispatch`.

`_allocate_transfer_port` stores the port in the request it was given; here it returns the
changed request.
-/
import StorageNode.ChunkTransfer
import StorageNode.ProgLog

/-- The operations of the dispatcher. -/
inductive DispatchOp
  | node (o : NodeOp)
  /-- `PortScanner.find_available_port(is_primary=False)` -/
  | findAvailablePort
  /-- `fh.read()` -/
  | readAll (fh : ℕ)
  /-- `connection.send(bytes(text, "UTF-8"))` -/
  | sendReply (text : String)

/-- What an operation answers with. -/
@[reducible] def DispatchOp.Res : DispatchOp → Type
  | .node o => o.Res
  | .findAvailablePort => ℤ
  | .readAll _ => Bytes
  | .sendReply _ => Unit

/-- Every operation succeeds: no file is there, the peer sends END at once. -/
def plainAnswer : (o : DispatchOp) → Except Exn o.Res
  | .node .hasSocket => .ok true
  | .node .recv => .ok (FrameCodec.encode endFrame)
  | .node (.pickleLoads _) => .ok endFrame
  | .node (.isDir _) => .ok true
  | .node (.isFile _) => .ok false
  | .node (.getSize _) => .ok (0 : ℕ)
  | .node (.openFile _ _) => .ok (0 : ℕ)
  | .node (.read _ _) => .ok ([] : Bytes)
  | .node (.forwardPort _) => .ok true
  | .node (.ledgerRegister _) => .ok true
  | .node (.ledgerUnregister _) => .ok true
  | .node .newSocket => .ok ()
  | .node (.bindSocket _ _) => .ok ()
  | .node .closeSocket => .ok ()
  | .node (.setTimeouts _ _) => .ok ()
  | .node (.send _) => .ok ()
  | .node (.makeDirs _) => .ok ()
  | .node (.seek _ _) => .ok ()
  | .node (.write _ _) => .ok ()
  | .node (.closeFile _) => .ok ()
  | .node (.doneUploading _) => .ok ()
  | .findAvailablePort => .ok (50100 : ℤ)
  | .readAll _ => .ok ([] : Bytes)
  | .sendReply _ => .ok ()

/-- Programs of the dispatcher. -/
abbrev Dispatch (α : Type) : Type := Prog DispatchOp DispatchOp.Res Exn α

/-- Call an operation. -/
abbrev dispatchOp (o : DispatchOp) : Dispatch o.Res := Prog.perform o

/-- A transfer, run by the dispatcher. -/
def Node.run {α : Type} (p : Node α) : Dispatch α := p.inject DispatchOp.node fun _ r => r

namespace IntegrityVerifier

/-- `salt.encode()`: a surrogate raises `UnicodeEncodeError`, a `ValueError`. -/
def encodeSalt : Json → Except Exn Bytes
  | .str s =>
      match s.encode? with
      | some encoded => .ok encoded
      | none => .error .valueError
  | _ => .error .attributeError

/-- `compute_salted_hash`; `hexdigest` is that of the MD5 hash. -/
def computeSaltedHash (cfg : Config) (hexdigest : Bytes → String) (fragmentId salt : Json) :
    Dispatch String := do
  let filePath ← Prog.ofExcept (joinPath cfg.dataDirectory fragmentId)
  let fh ← dispatchOp (.node (.openFile filePath .rb))
  let content ← (dispatchOp (.readAll fh)).tryFinally (dispatchOp (.node (.closeFile fh)))
  let encoded ← Prog.ofExcept (encodeSalt salt)
  pure (hexdigest (content ++ encoded))

end IntegrityVerifier

namespace RequestDispatcher

/-- `_allocate_transfer_port`.  A failed registration is only logged. -/
def allocateTransferPort (request : Dict) (connected : Bool) : Dispatch Dict := do
  let port ← dispatchOp .findAvailablePort
  -- the port is in the request before it is registered
  let request := Dict.set "port" (.int port) request
  let _ ← dispatchOp (.node (.ledgerRegister request))
  (if connected then dispatchOp (.sendReply (toString port)) else pure ())
  pure request

/-- The end of `dispatch`: another type starts nothing. -/
def startTransfer (cfg : Config) (fuel : ℕ) (request : Dict) (isNew : Bool) :
    Dispatch Unit := do
  let type ← Prog.ofExcept (request.getItem "type")
  if type == .str "upload" then (FragmentReceiver.receiveData cfg fuel request).run
  else if type == .str "download" then (FragmentSender.sendData cfg fuel request isNew).run
  else pure ()

/-- `dispatch`. -/
def dispatch (cfg : Config) (hexdigest : Bytes → String) (fuel : ℕ) (request : Dict)
    (connected : Bool) : Dispatch Unit := do
  let type ← Prog.ofExcept (request.getItem "type")
  if type == .str "audit" then
    let fragmentId ← Prog.ofExcept (request.getItem "shard_id")
    let salt ← Prog.ofExcept (request.getItem "salt")
    let digest ← IntegrityVerifier.computeSaltedHash cfg hexdigest fragmentId salt
    if connected then dispatchOp (.sendReply digest) else pure ()
  else
    let port ← Prog.ofExcept (request.getItem "port")
    -- a request that names a port is taken for one from the ledger and not registered
    if port == .int 0 then
      let request ← allocateTransferPort request connected
      startTransfer cfg fuel request true
    else startTransfer cfg fuel request false

end RequestDispatcher

/-! ## What a transfer can do -/

/-- A path of the request's shard. -/
def OwnPath (cfg : Config) (request : Dict) (path : PyStr) : Prop :=
  ∃ id, request.getItem "shard_id" = .ok (.str id) ∧ path = osPathJoin cfg.dataDirectory id

/-- **The operations of a transfer**: its socket is bound to the port of the request, the
only mapping it touches is the one of that port, which it deletes, its files are those of
the shard, and the ledger is only asked to unregister the request. -/
def OwnOp (cfg : Config) (request : Dict) : NodeOp → Prop
  | .bindSocket address port => address = cfg.localIp ∧ request.getItem "port" = .ok port
  | .forwardPort mapping => request.getItem "port" = .ok mapping.port ∧ mapping.disable = true
  | .isFile path => OwnPath cfg request path
  | .getSize path => OwnPath cfg request path
  | .openFile path _ => OwnPath cfg request path
  | .ledgerRegister _ => False
  | .ledgerUnregister entry => entry = request
  | _ => True

/-- The same before the request is unregistered. -/
def BodyOp (cfg : Config) (request : Dict) : NodeOp → Prop
  | .ledgerUnregister _ => False
  | o => OwnOp cfg request o

theorem ownOp_of_bodyOp {cfg : Config} {request : Dict} (o : NodeOp) (h : BodyOp cfg request o) :
    OwnOp cfg request o := by
  cases o with
  | ledgerUnregister entry => exact h.elim
  | _ => exact h

/-- The operations of the dispatcher while a transfer runs. -/
def OwnDispatchOp (cfg : Config) (request : Dict) : DispatchOp → Prop
  | .node o => OwnOp cfg request o
  | _ => False

theorem ownPath_of_join {cfg : Config} {request : Dict} {shardId : Json} {path : PyStr}
    (hid : request.getItem "shard_id" = .ok shardId)
    (hpath : joinPath cfg.dataDirectory shardId = .ok path) : OwnPath cfg request path := by
  cases shardId with
  | str id =>
      obtain rfl := Except.ok.inj hpath
      exact ⟨id, hid, rfl⟩
  | _ => exact absurd hpath (by simp [joinPath])

section Transfers

variable {cfg : Config} {request : Dict} {port : Json} {path : PyStr}

open Prog

/-- `_close_router_port` of the request's own port. -/
theorem only_closeRouterPort (hport : request.getItem "port" = .ok port) :
    (closeRouterPort cfg port).Only (BodyOp cfg request) := by
  unfold closeRouterPort
  split
  · exact only_bind (only_perform ⟨hport, rfl⟩) fun _ => trivial
  · trivial

theorem only_openSocket (hport : request.getItem "port" = .ok port) :
    (ZmqSessionManager.openSocket cfg.localIp port).Only (BodyOp cfg request) := by
  apply only_bind
  · exact only_perform trivial
  · exact fun _ => only_perform ⟨rfl, hport⟩

theorem only_close : ZmqSessionManager.close.Only (BodyOp cfg request) := by
  apply only_bind
  · exact only_perform trivial
  · intro b
    split
    · exact only_perform trivial
    · trivial

theorem only_configureTimeouts (sendMs recvMs : ℕ) :
    (ZmqSessionManager.configureTimeouts sendMs recvMs).Only (BodyOp cfg request) := by
  apply only_bind
  · exact only_perform trivial
  · intro b
    split
    · exact only_perform trivial
    · trivial

theorem only_emitStartSignal : emitStartSignal.Only (BodyOp cfg request) :=
  only_perform trivial

/-! ### Uploads -/

/-- What a receive pass calls: it takes frames, answers them and writes them. -/
def PassOp (fh : ℕ) : NodeOp → Prop
  | .recv => True
  | .pickleLoads _ => True
  | .send _ => True
  | .write fh' _ => fh' = fh
  | _ => False

theorem only_receiveFrame (fh : ℕ) : (FragmentReceiver.receiveFrame fh).Only (PassOp fh) := by
  refine only_bind (only_perform trivial) fun raw => ?_
  refine only_bind (only_perform trivial) fun frame => ?_
  refine only_ofExcept_bind fun type _ => ?_
  split
  · refine only_bind (only_perform trivial) fun _ => ?_
    refine only_ofExcept_bind fun data _ => ?_
    cases data with
    | bytes b => exact only_bind (only_perform rfl) fun _ => trivial
    | _ => trivial
  · trivial

/-- **A receive pass** only handles frames. -/
theorem only_receivePass (fh fuel : ℕ) :
    (FragmentReceiver.receiveChunks fh fuel).Only (PassOp fh) := by
  induction fuel with
  | zero => trivial
  | succ fuel ih =>
      refine only_bind (only_tryExcept ?_ fun e => ?_) fun ended => ?_
      · exact only_bind (only_receiveFrame fh) fun _ => trivial
      · split <;> trivial
      · split
        · trivial
        · exact ih
        · trivial

theorem only_receiveChunks (fh fuel : ℕ) :
    (FragmentReceiver.receiveChunks fh fuel).Only (BodyOp cfg request) := by
  refine only_mono ?_ (only_receivePass fh fuel)
  intro o ho
  cases o <;> trivial

theorem only_attemptReconnect_receiver (hport : request.getItem "port" = .ok port)
    (hpath : OwnPath cfg request path) :
    (FragmentReceiver.attemptReconnect cfg port path).Only (BodyOp cfg request) := by
  apply only_tryExcept
  · refine only_bind (only_bind only_close fun _ => only_openSocket hport) fun _ => ?_
    refine only_bind (only_configureTimeouts _ _) fun _ => ?_
    refine only_bind only_emitStartSignal fun _ => ?_
    refine only_bind (only_configureTimeouts _ _) fun _ => ?_
    refine only_bind (only_perform hpath) fun currentSize => ?_
    refine only_bind (only_perform trivial) fun _ => ?_
    exact only_bind (only_perform hpath) fun _ => trivial
  · intro e
    split <;> trivial

theorem only_openShardFile (hpath : OwnPath cfg request path) :
    (FragmentReceiver.openShardFile path).Only (BodyOp cfg request) := by
  refine only_bind (only_perform hpath) fun found => ?_
  split
  · refine only_bind (only_perform hpath) fun currentSize => ?_
    exact only_bind (only_perform trivial) fun _ => only_perform hpath
  · exact only_perform hpath

theorem only_receivePasses (fuel fh : ℕ) (hport : request.getItem "port" = .ok port)
    (hpath : OwnPath cfg request path) :
    (FragmentReceiver.receivePasses cfg fuel port path fh).Only (BodyOp cfg request) := by
  refine only_bind (only_receiveChunks fh fuel) fun completed => ?_
  split
  · trivial
  · refine only_bind (only_perform trivial) fun _ => ?_
    refine only_bind (only_attemptReconnect_receiver hport hpath) fun result => ?_
    cases result with
    | none => trivial
    | some fh' => exact only_bind (only_receiveChunks fh' fuel) fun _ => trivial

/-- **What `receive_data` can do.** -/
theorem only_receiveData (cfg : Config) (fuel : ℕ) (request : Dict) :
    (FragmentReceiver.receiveData cfg fuel request).Only (OwnOp cfg request) := by
  have hbody : ∀ {α : Type} {p : Node α}, p.Only (BodyOp cfg request) →
      p.Only (OwnOp cfg request) := fun h => only_mono ownOp_of_bodyOp h
  refine only_bind (only_perform trivial) fun present => ?_
  refine only_bind ?_ fun _ => ?_
  · split
    · trivial
    · exact only_perform trivial
  refine only_ofExcept_bind fun shardId hid => ?_
  refine only_ofExcept_bind fun shardPath hjoin => ?_
  have hpath := ownPath_of_join hid hjoin
  refine only_ofExcept_bind fun port hport => ?_
  refine only_bind (hbody (only_openSocket hport)) fun _ => ?_
  refine only_bind (hbody only_emitStartSignal) fun _ => ?_
  refine only_bind (hbody (only_openShardFile hpath)) fun fh => ?_
  refine only_bind (hbody (only_configureTimeouts _ _)) fun _ => ?_
  refine only_bind (hbody (only_receivePasses fuel fh hport hpath)) fun r => ?_
  obtain ⟨completed, fh'⟩ := r
  refine only_bind (only_perform trivial) fun _ => ?_
  refine only_bind (hbody only_close) fun _ => ?_
  refine only_bind ?_ fun _ => ?_
  · split
    · exact only_perform trivial
    · trivial
  refine only_bind (hbody (only_closeRouterPort hport)) fun _ => ?_
  exact only_bind (only_perform rfl) fun _ => trivial

/-! ### Downloads -/

theorem only_negotiateResumePoint (fh : ℕ) :
    (FragmentSender.negotiateResumePoint fh).Only (BodyOp cfg request) := by
  refine only_bind (only_perform trivial) fun raw => ?_
  refine only_bind (only_perform trivial) fun resumeInfo => ?_
  refine only_ofExcept_bind fun data _ => ?_
  exact only_ofExcept_bind fun offset _ => only_perform trivial

theorem only_transmitLoop (fh fuel : ℕ) (chunk : Bytes) :
    (FragmentSender.transmitLoop cfg fh fuel chunk).Only (BodyOp cfg request) := by
  induction fuel generalizing chunk with
  | zero => trivial
  | succ fuel ih =>
      rw [FragmentSender.transmitLoop]
      split
      · trivial
      · refine only_bind (only_tryExcept ?_ fun e => ?_) fun next => ?_
        · refine only_bind ?_ fun _ => trivial
          refine only_bind (only_perform trivial) fun _ => ?_
          refine only_bind (only_perform trivial) fun ackRaw => ?_
          refine only_bind (only_perform trivial) fun _ => ?_
          exact only_perform trivial
        · split <;> trivial
        · cases next with
          | none => trivial
          | some chunk' => exact ih chunk'

theorem only_transmitChunks (fuel fh : ℕ) :
    (FragmentSender.transmitChunks cfg fuel fh).Only (BodyOp cfg request) :=
  only_bind (only_perform trivial) fun chunk => only_transmitLoop fh fuel chunk

theorem only_attemptReconnect_sender (fh : ℕ) (hport : request.getItem "port" = .ok port) :
    (FragmentSender.attemptReconnect cfg port fh).Only (BodyOp cfg request) := by
  apply only_tryExcept
  · refine only_bind (only_bind only_close fun _ => only_openSocket hport) fun _ => ?_
    refine only_bind (only_configureTimeouts _ _) fun _ => ?_
    refine only_bind only_emitStartSignal fun _ => ?_
    refine only_bind (only_negotiateResumePoint fh) fun _ => ?_
    exact only_bind (only_configureTimeouts _ _) fun _ => trivial
  · intro e
    split <;> trivial

theorem only_transmitPasses (fuel fh : ℕ) (hport : request.getItem "port" = .ok port) :
    (FragmentSender.transmitPasses cfg fuel port fh).Only (BodyOp cfg request) := by
  have hend : ∀ completed : Bool, (if completed then
      op .hasSocket >>= fun b =>
        if b then op (.send (FrameCodec.encode endFrame)) else pure ()
      else pure ()).Only (BodyOp cfg request) := by
    intro completed
    split
    · refine only_bind (only_perform trivial) fun b => ?_
      split
      · exact only_perform trivial
      · trivial
    · trivial
  refine only_bind (only_transmitChunks fuel fh) fun completed => ?_
  cases completed with
  | true => exact hend true
  | false =>
      refine only_bind (only_attemptReconnect_sender fh hport) fun connected => ?_
      cases connected with
      | true => exact only_bind (only_transmitChunks fuel fh) fun completed => hend completed
      | false => exact hend false

/-- **What `send_data` can do.** -/
theorem only_sendData (cfg : Config) (fuel : ℕ) (request : Dict) (isNewTransfer : Bool) :
    (FragmentSender.sendData cfg fuel request isNewTransfer).Only (OwnOp cfg request) := by
  have hbody : ∀ {α : Type} {p : Node α}, p.Only (BodyOp cfg request) →
      p.Only (OwnOp cfg request) := fun h => only_mono ownOp_of_bodyOp h
  refine only_ofExcept_bind fun shardId hid => ?_
  refine only_ofExcept_bind fun shardPath hjoin => ?_
  have hpath := ownPath_of_join hid hjoin
  refine only_bind (only_perform hpath) fun found => ?_
  split
  · refine only_ofExcept_bind fun port hport => ?_
    refine only_bind (hbody (only_openSocket hport)) fun _ => ?_
    refine only_bind (hbody only_emitStartSignal) fun _ => ?_
    refine only_bind (only_perform hpath) fun fh => ?_
    refine only_bind ?_ fun _ => ?_
    · split
      · trivial
      · exact hbody (only_negotiateResumePoint fh)
    refine only_bind (hbody (only_configureTimeouts _ _)) fun _ => ?_
    refine only_bind (hbody (only_transmitPasses fuel fh hport)) fun _ => ?_
    refine only_bind (only_perform trivial) fun _ => ?_
    refine only_bind (hbody only_close) fun _ => ?_
    refine only_bind (hbody (only_closeRouterPort hport)) fun _ => ?_
    exact only_bind (only_perform rfl) fun _ => trivial
  · trivial

end Transfers

/-- **What a transfer can do in `dispatch`.** -/
theorem only_startTransfer (cfg : Config) (fuel : ℕ) (request : Dict) (isNew : Bool) :
    (RequestDispatcher.startTransfer cfg fuel request isNew).Only
      (OwnDispatchOp cfg request) := by
  refine Prog.only_ofExcept_bind fun type _ => ?_
  split
  · exact Prog.only_inject (only_receiveData cfg fuel request)
  · split
    · exact Prog.only_inject (only_sendData cfg fuel request isNew)
    · trivial
