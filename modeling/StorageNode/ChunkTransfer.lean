/-
# The shard transfers (`chunk_transfer.py`)

`ZmqSessionManager`, `FragmentSender` and `FragmentReceiver`, method by method, as
programs over the node's operations.  The socket `sock` the methods hand around is the
session's current one, so the methods here take none.

The `while` loops of `_transmit_chunks` and `_receive_chunks` take the number of rounds
they may make (`fuel`); the statements of the later modules hold for every fuel.
-/
import StorageNode.NodeOps

/-! ## `ZmqSessionManager` -/

namespace ZmqSessionManager

/-- `open`. -/
def openSocket (address : String) (port : Json) : Node Unit := do
  op .newSocket
  op (.bindSocket address port)

def close : Node Unit := do
  if ← op .hasSocket then op .closeSocket else pure ()

def reset (address : String) (port : Json) : Node Unit := do
  close
  openSocket address port

def configureTimeouts (sendMs recvMs : ℕ) : Node Unit := do
  if ← op .hasSocket then op (.setTimeouts sendMs recvMs) else pure ()

end ZmqSessionManager

/-! ## What both directions share -/

/-- `_emit_start_signal`. -/
def emitStartSignal : Node Unit := op (.send (FrameCodec.encode startFrame))

/-- `_close_router_port`. -/
def closeRouterPort (cfg : Config) (port : Json) : Node Unit := do
  if !cfg.isLocal && !cfg.hosted && cfg.router then
    let _ ← op (.forwardPort { port := port, lanip := none, disable := true })
    pure ()
  else pure ()

/-! ## `FragmentSender` -/

namespace FragmentSender

/-- `_negotiate_resume_point`. -/
def negotiateResumePoint (fh : ℕ) : Node Unit := do
  let raw ← op .recv
  let resumeInfo ← op (.pickleLoads raw)
  let data ← Prog.ofExcept (resumeInfo.getItem "data")
  -- the offset is not checked against the file; `seek` refuses a negative one
  let offset ← Prog.ofExcept data.offset
  op (.seek fh offset)

/-- The body of the `try` in `_transmit_chunks`: send a chunk, wait for an answer that
unpickles, read the next chunk. -/
def transmitChunk (cfg : Config) (fh : ℕ) (chunk : Bytes) : Node Bytes := do
  op (.send (FrameCodec.encode (dataFrame chunk)))
  let ackRaw ← op .recv
  let _ ← op (.pickleLoads ackRaw)
  op (.read fh cfg.chunkSize)

/-- The loop of `_transmit_chunks`, with the chunk read last. -/
def transmitLoop (cfg : Config) (fh : ℕ) : ℕ → Bytes → Node Bool
  | 0, _ => .hang
  | fuel + 1, chunk => do
      if chunk = [] then pure true
      else
        -- `except Exception`: the pass is over, whatever failed
        let next ← ((transmitChunk cfg fh chunk).bind fun c => .ret (some c)).tryExcept
          fun e => if e.isException then pure none else Prog.raise e
        match next with
        | some chunk' => transmitLoop cfg fh fuel chunk'
        | none => pure false

/-- `_transmit_chunks`. -/
def transmitChunks (cfg : Config) (fuel fh : ℕ) : Node Bool := do
  let chunk ← op (.read fh cfg.chunkSize)
  transmitLoop cfg fh fuel chunk

/-- `_attempt_reconnect`: `false` for `None`. -/
def attemptReconnect (cfg : Config) (port : Json) (fh : ℕ) : Node Bool :=
  (do
    ZmqSessionManager.reset cfg.localIp port
    ZmqSessionManager.configureTimeouts cfg.disconnectedTimeout cfg.disconnectedTimeout
    emitStartSignal
    negotiateResumePoint fh
    ZmqSessionManager.configureTimeouts cfg.chunkTimeout cfg.chunkTimeout
    pure true).tryExcept fun e => if e.isException then pure false else Prog.raise e

/-- What `send_data` does between opening the file and closing it: the two transmit
passes and the END frame. -/
def transmitPasses (cfg : Config) (fuel : ℕ) (port : Json) (fh : ℕ) : Node Unit := do
  let completed ← transmitChunks cfg fuel fh
  let completed ←
    if completed then pure true
    else do
      -- one reconnect; a second failure ends the transfer without an END frame
      if ← attemptReconnect cfg port fh then transmitChunks cfg fuel fh else pure false
  if completed then
    if ← op .hasSocket then op (.send (FrameCodec.encode endFrame)) else pure ()
  else pure ()

/-- `send_data`. -/
def sendData (cfg : Config) (fuel : ℕ) (request : Dict) (isNewTransfer : Bool) : Node Unit := do
  let shardId ← Prog.ofExcept (request.getItem "shard_id")
  let shardPath ← Prog.ofExcept (joinPath cfg.dataDirectory shardId)
  if ← op (.isFile shardPath) then
    let port ← Prog.ofExcept (request.getItem "port")
    ZmqSessionManager.openSocket cfg.localIp port
    emitStartSignal
    let fh ← op (.openFile shardPath .rb)
    -- only a transfer that is resumed asks for an offset on the first connection
    (if isNewTransfer then pure () else negotiateResumePoint fh)
    ZmqSessionManager.configureTimeouts cfg.chunkTimeout cfg.chunkTimeout
    transmitPasses cfg fuel port fh
    op (.closeFile fh)
    ZmqSessionManager.close
    closeRouterPort cfg port
    let _ ← op (.ledgerUnregister request)
    pure ()
  -- the early return for a missing shard: the ledger and the router are not touched
  else pure ()

end FragmentSender

/-! ## `FragmentReceiver` -/

namespace FragmentReceiver

/-- `_send_resume_offset`. -/
def sendResumeOffset (byteOffset : ℕ) : Node Unit :=
  op (.send (FrameCodec.encode (resumeFrame byteOffset)))

/-- `_open_shard_file`. -/
def openShardFile (shardPath : PyStr) : Node ℕ := do
  if ← op (.isFile shardPath) then
    -- a part of the shard is already there: go on behind it
    let currentSize ← op (.getSize shardPath)
    sendResumeOffset currentSize
    op (.openFile shardPath .ab)
  else op (.openFile shardPath .wb)

/-- The body of the `try` in `_receive_chunks`: one frame is handled, and the answer is
whether it was the END frame. -/
def receiveFrame (fh : ℕ) : Node Bool := do
  let raw ← op .recv
  let frame ← op (.pickleLoads raw)
  let type ← Prog.ofExcept (frame.getItem "type")
  if type = .str "data" then
    -- the ACK goes out before the chunk is written
    op (.send (FrameCodec.encode ackFrame))
    let data ← Prog.ofExcept (frame.getItem "data")
    match data with
    | .bytes b => op (.write fh b)
    | _ => Prog.raise .typeError
    pure false
  -- a frame of any other type is passed over
  else pure (type = .str "END")

/-- `_receive_chunks`. -/
def receiveChunks (fh : ℕ) : ℕ → Node Bool
  | 0 => .hang
  | fuel + 1 => do
      let ended ← ((receiveFrame fh).bind fun b => .ret (some b)).tryExcept
        fun e => if e.isException then pure none else Prog.raise e
      match ended with
      | some true => pure true
      | some false => receiveChunks fh fuel
      | none => pure false

/-- `_attempt_reconnect`: the new file handle, or `none`.  Only `socket.error`, that is
`OSError`, is caught. -/
def attemptReconnect (cfg : Config) (port : Json) (shardPath : PyStr) : Node (Option ℕ) :=
  (do
    ZmqSessionManager.reset cfg.localIp port
    ZmqSessionManager.configureTimeouts cfg.disconnectedTimeout cfg.disconnectedTimeout
    emitStartSignal
    ZmqSessionManager.configureTimeouts cfg.chunkTimeout cfg.chunkTimeout
    let currentSize ← op (.getSize shardPath)
    sendResumeOffset currentSize
    let fh ← op (.openFile shardPath .ab)
    pure (some fh)).tryExcept fun e => if e.isOSError then pure none else Prog.raise e

/-- The two receive passes of `receive_data`: whether END arrived, and the handle that
is still open. -/
def receivePasses (cfg : Config) (fuel : ℕ) (port : Json) (shardPath : PyStr) (fh : ℕ) :
    Node (Bool × ℕ) := do
  let completed ← receiveChunks fh fuel
  if completed then pure (true, fh)
  else
    -- the buffer is in the file before its size is asked for
    op (.closeFile fh)
    let reconnectResult ← attemptReconnect cfg port shardPath
    match reconnectResult with
    | some fh' =>
        let completed ← receiveChunks fh' fuel
        pure (completed, fh')
    -- the first handle is closed a second time by `receive_data`
    | none => pure (false, fh)

/-- `receive_data`. -/
def receiveData (cfg : Config) (fuel : ℕ) (request : Dict) : Node Unit := do
  let present ← op (.isDir cfg.dataDirectory)
  (if present then pure () else op (.makeDirs cfg.dataDirectory))
  let shardId ← Prog.ofExcept (request.getItem "shard_id")
  let shardPath ← Prog.ofExcept (joinPath cfg.dataDirectory shardId)
  let port ← Prog.ofExcept (request.getItem "port")
  ZmqSessionManager.openSocket cfg.localIp port
  emitStartSignal
  let fh ← openShardFile shardPath
  ZmqSessionManager.configureTimeouts cfg.chunkTimeout cfg.chunkTimeout
  let (completed, fh) ← receivePasses cfg fuel port shardPath fh
  op (.closeFile fh)
  ZmqSessionManager.close
  -- an incomplete upload is cleaned up in the same way, but not reported
  (if completed && cfg.backend then op (.doneUploading shardId) else pure ())
  closeRouterPort cfg port
  let _ ← op (.ledgerUnregister request)
  pure ()

end FragmentReceiver
