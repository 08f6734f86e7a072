/-
# Bringing the node up (`storage_node.py`, `startup_interface.py`)

`main` with everything it calls: the first run, the sign-in, the configuration, one check of
the network, the primary port, the report to the backend, the recovery of recorded
transfers, and the threads that serve.

* `StartOp`, `StartExn` : the operations, and the exceptions that end the process;
* `CoordinationClient.login`, `AuthenticationPrompt.run`, `StorageNode.initializeNode`,
  `StorageNode.run`, `StorageNode.main` : the methods;
* `NodeStart` : the attributes of `NodeConfig`, the requests that were sent and the threads
  that were started;
* `NodeStart.starting` : a start, whatever the operations answer.

`NetworkWatcher.check_once` is called once; `run` starts no thread that calls it again.
-/
import StorageNode.ConfigRuns
import StorageNode.ConnectionLedger

/-! ## Operations -/

/-- What can end the process. -/
inductive StartExn
  | exn (e : Exn)
  /-- `read_config` on a file it cannot use -/
  | config (e : ConfigFault)
  /-- `NetworkError` of `backend_client.py` -/
  | network
  /-- `sys.exit(code)` -/
  | systemExit (code : ℤ)
  /-- `EOFError` or `KeyboardInterrupt` of `input` -/
  | noInput
  deriving DecidableEq

/-- The threads of `run`: the listener binds the address that `NodeConfig` holds. -/
inductive Worker
  | listener (localIp : String) (port : ℤ)
  | pulse
  | enforcer
  deriving DecidableEq

/-- The target of a thread of `run`. -/
inductive WorkerKind
  | listener
  | pulse
  | enforcer
  deriving DecidableEq

/-- The operations of a start. -/
inductive StartOp
  /-- `BannerRenderer.display()` -/
  | display
  | boot (o : BootOp)
  | watch (o : WatcherOp)
  | scan (o : ScanOp)
  | http (o : HttpOp)
  /-- `input(prompt)` -/
  | input (prompt : String)
  /-- `self._token_path.parent.mkdir(parents=True, exist_ok=True)` -/
  | makeTokenDir
  /-- `self._token_path.write_text(jwt)` -/
  | writeToken (jwt : PyStr)
  /-- the text of the configuration file, if there is one -/
  | readConfigFile
  | setLocalIp (ip : String)
  | setPort (port : ℤ)
  | publicIp
  | port
  /-- `open` and `json.load` of the connection ledger -/
  | loadLedger
  /-- a thread that dispatches a recorded transfer -/
  | startTransfer (task : Dict)
  | startWorker (kind : WorkerKind)
  | join (kind : WorkerKind)

@[reducible] def StartOp.Res : StartOp → Type
  | .boot o => o.Res
  | .watch o => o.Res
  | .scan o => o.Res
  | .http o => o.Res
  | .input _ => String
  | .readConfigFile => Option Text
  | .publicIp => String
  | .port => ℤ
  | .loadLedger => Json
  | _ => Unit

/-- Programs of a start. -/
abbrev Start (α : Type) : Type := Prog StartOp StartOp.Res StartExn α

/-- Call an operation. -/
abbrev startOp (o : StartOp) : Start o.Res := Prog.perform o

/-- What a part of the start is told of an operation: its own exceptions. -/
def partOf {α : Type} : Except StartExn α → Except StartExn (Except Exn α)
  | .ok a => .ok (.ok a)
  | .error (.exn e) => .ok (.error e)
  | .error e => .error e

section Parts

variable {α : Type}

def Boot.start (p : Boot α) : Start α := p.embed StartOp.boot .exn fun _ r => partOf r

def Watcher.start (p : Watcher α) : Start α := p.embed StartOp.watch .exn fun _ r => partOf r

def Scan.start (p : Scan α) : Start α := p.embed StartOp.scan .exn fun _ r => partOf r

def Http.start (p : Http α) : Start α := p.embed StartOp.http .exn fun _ r => partOf r

/-- A pure computation of a part. -/
def pureStart (x : Except Exn α) : Start α :=
  match x with
  | .ok a => .ret a
  | .error e => .raise (.exn e)

end Parts

/-! ## The sign-in -/

namespace CoordinationClient

/-- `_SIGNIN_ROUTE` -/
def signinRoute : PyStr := "/storage-nodes/signin"

/-- `_persist_token`: an `OSError` is only logged. -/
def persistToken (jwt : Json) : Start Unit :=
  (do
    startOp .makeTokenDir
    match jwt with
    | .str text => startOp (.writeToken text)
    -- `write_text` takes nothing else
    | _ => Prog.raise (.exn .typeError)).tryExcept fun e =>
      match e with
      | .exn err => if err.isOSError then pure () else Prog.raise e
      | _ => Prog.raise e

/-- What the header of the next request will hold: no header for `None`, and `httpx` takes
no other value than a string. -/
def tokenOf : Json → Except Exn (Option PyStr)
  | .str jwt => .ok (some jwt)
  | .null => .ok none
  | _ => .error .typeError

/-- `login`; the client comes back with its token. -/
def login (client : CoordinationClient) (username password : String) :
    Start (Bool × CoordinationClient) := do
  let credentials : Json := .obj [("username", .str username), ("password", .str password)]
  let response ← (startOp (.http (.request .post (client.buildUrl signinRoute) (some credentials)
    []))).tryExcept fun e => if e = .exn .requestError then Prog.raise .network else Prog.raise e
  if response.status = 200 then
    let body ← pureStart response.json
    let jwt ← match body with
      | .obj d => pureStart (Dict.getItem d "token")
      | _ => Prog.raise (.exn .typeError)
    persistToken jwt
    let token ← pureStart (tokenOf jwt)
    pure (true, { client with token := token })
  else pure (false, client)

end CoordinationClient

namespace AuthenticationPrompt

/-- `if username and password`. -/
def credentials : Option String → Option String → Option (String × String)
  | some username, some password =>
      if username = "" ∨ password = "" then none else some (username, password)
  | _, _ => none

/-- The `while not authenticated`. -/
def ask : ℕ → CoordinationClient → Start CoordinationClient
  | 0, _ => .hang
  | fuel + 1, client => do
      let username ← startOp (.input "Username: ")
      let password ← startOp (.input "Password: ")
      let (authenticated, client) ← client.login username password
      if authenticated then pure client else ask fuel client

/-- `run`. -/
def run (client : CoordinationClient) (username password : Option String) (fuel : ℕ) :
    Start CoordinationClient :=
  match credentials username password with
  | some (username, password) => do
      let (success, client) ← client.login username password
      if success then pure client else Prog.raise (.systemExit (-1))
  | none => ask fuel client

end AuthenticationPrompt

/-! ## The rest of the start -/

namespace SessionRecovery

/-- An element of a list that `dict` makes a dictionary of: two values, of which the first can
be hashed. -/
def pairOf (element : Json) : Except Exn (Json × Json) :=
  match pyIter element with
  | .ok [.arr _, _] => .error .typeError
  | .ok [.obj _, _] => .error .typeError
  | .ok [key, value] => .ok (key, value)
  | .ok _ => .error .valueError
  | .error e => .error e

/-- `dict(entry)`; a key that is no string is left out, since no transfer asks for it. -/
def task : Json → Except Exn Dict
  | .obj entry => .ok entry
  | entry => do
      let elements ← pyIter entry
      let pairs ← elements.mapM pairOf
      pure (pairs.foldl (fun d pair =>
        match pair.1 with
        | .str key => Dict.set key pair.2 d
        | _ => d) [])

/-- The loop of `resume_pending`. -/
def resumeAll : List Json → Start Unit
  | [] => pure ()
  | entry :: rest => do
      let task ← pureStart (task entry)
      startOp (.startTransfer task)
      resumeAll rest

/-- `resume_pending`; the transfers that were started go on after an exception. -/
def resumePending : Start Unit :=
  (do
    let data ← startOp .loadLedger
    let pending ← pureStart (ConnectionLedger.connections data)
    let entries ← pureStart (pyIter pending)
    resumeAll entries).tryExcept fun e =>
      match e with
      | .exn _ => pure ()
      | .config _ => pure ()
      | .network => pure ()
      -- no `Exception`
      | _ => Prog.raise e

end SessionRecovery

namespace StorageNode

/-- `read_config`, with the attributes it sets. -/
def readConfig : Start Unit := do
  let content ← startOp .readConfigFile
  match ConfigFileManager.readConfig content with
  | .ok (localIp, port) => do
      startOp (.setLocalIp (String.ofList localIp))
      startOp (.setPort port)
  | .error e => Prog.raise (.config e)

/-- `initialize`; the client comes back with its token. -/
def initializeNode (cfg : Config) (client : CoordinationClient) (startingPort : ℤ)
    (username password : Option String) (fuel : ℕ) : Start CoordinationClient := do
  startOp .display
  (NodeBootstrapper.firstRun cfg startingPort fuel).start
  let client ← AuthenticationPrompt.run client username password fuel
  readConfig
  let port ← startOp .port
  (NetworkWatcher.checkOnce cfg client port).start
  (NodeBootstrapper.verifyPrimaryPort cfg startingPort fuel).start
  let ip ← startOp .publicIp
  let port ← startOp .port
  -- `str(self._config.decentorage_port)`
  (client.updateConnection ip (.str (toString port))).start
  SessionRecovery.resumePending
  pure client

/-- `run`. -/
def run : Start Unit := do
  startOp (.startWorker .listener)
  startOp (.startWorker .pulse)
  startOp (.startWorker .enforcer)
  startOp (.join .listener)
  startOp (.join .pulse)
  startOp (.join .enforcer)

/-- `main`. -/
def main (cfg : Config) (client : CoordinationClient) (startingPort : ℤ)
    (username password : Option String) (fuel : ℕ) : Start Unit := do
  let _ ← initializeNode cfg client startingPort username password fuel
  run

end StorageNode

/-! ## The process and what it has sent -/

/-- A request to the backend. -/
structure SentRequest where
  method : HttpMethod
  url : PyStr
  body : Option Json
  headers : List (String × PyStr)

/-- The attributes of `NodeConfig` that change; and, as history, the requests to the backend,
the tokens that sign-ins were answered with, and the threads that were started. -/
structure NodeStart where
  publicIp : String := ""
  localIp : String := ""
  decentoragePort : ℤ := 0
  sent : List SentRequest := []
  granted : List (Option PyStr) := []
  transfers : List Dict := []
  workers : List Worker := []

/-- The request signs in. -/
def SentRequest.IsSignin (client : CoordinationClient) (q : SentRequest) : Prop :=
  q.method = .post ∧ q.url = client.buildUrl CoordinationClient.signinRoute

instance (client : CoordinationClient) (q : SentRequest) : Decidable (q.IsSignin client) :=
  inferInstanceAs (Decidable (_ ∧ _))

/-- The token in the answer to a sign-in. -/
def signinToken (response : Response) : Except Exn (Option PyStr) := do
  let body ← response.json
  match body with
  | .obj d => do
      let jwt ← Dict.getItem d "token"
      CoordinationClient.tokenOf jwt
  | _ => .error .typeError

namespace NodeStart

/-- A request and its answer. -/
def send (client : CoordinationClient) (q : SentRequest) (r : Except StartExn Response)
    (w : NodeStart) : NodeStart :=
  { w with
    sent := w.sent ++ [q]
    granted := w.granted ++ match r with
      | .ok response =>
          if q.IsSignin client ∧ response.status = 200 then (signinToken response).toOption.toList
          else []
      | .error _ => [] }

/-- A thread of `run`. -/
def worker (w : NodeStart) : WorkerKind → Worker
  | .listener => .listener w.localIp w.decentoragePort
  | .pulse => .pulse
  | .enforcer => .enforcer

/-- **One operation**, when the surroundings answer with `answer`.  The attributes are the
process's own; every other operation may answer anything. -/
def exec (client : CoordinationClient) (answer : (o : StartOp) → Except StartExn o.Res)
    (w : NodeStart) : (o : StartOp) → Except StartExn o.Res × NodeStart
  | .http (.request method url body headers) =>
      let r := answer (.http (.request method url body headers))
      (r, w.send client ⟨method, url, body, headers⟩ r)
  | .watch (.http (.request method url body headers)) =>
      let r := answer (.watch (.http (.request method url body headers)))
      (r, w.send client ⟨method, url, body, headers⟩ r)
  | .boot (.setPublicIp ip) => (.ok (), { w with publicIp := ip })
  | .boot (.scan (.setDecentoragePort p)) => (.ok (), { w with decentoragePort := p })
  | .boot (.scan .decentoragePort) => (.ok w.decentoragePort, w)
  | .scan (.setDecentoragePort p) => (.ok (), { w with decentoragePort := p })
  | .scan .decentoragePort => (.ok w.decentoragePort, w)
  | .watch .publicIp => (.ok w.publicIp, w)
  | .watch (.setPublicIp ip) => (.ok (), { w with publicIp := ip })
  | .watch .localIp => (.ok w.localIp, w)
  | .watch (.setLocalIp ip) => (.ok (), { w with localIp := ip })
  | .setLocalIp ip => (.ok (), { w with localIp := ip })
  | .setPort p => (.ok (), { w with decentoragePort := p })
  | .publicIp => (.ok w.publicIp, w)
  | .port => (.ok w.decentoragePort, w)
  -- `start` of a thread may fail, and then there is none
  | .startTransfer task =>
      let r := answer (.startTransfer task)
      (r, match r with
        | .ok _ => { w with transfers := w.transfers ++ [task] }
        | .error _ => w)
  | .startWorker kind =>
      let r := answer (.startWorker kind)
      (r, match r with
        | .ok _ => { w with workers := w.workers ++ [w.worker kind] }
        | .error _ => w)
  | o => (answer o, w)

/-- **A start of the node**, and whatever surrounds it. -/
def starting (client : CoordinationClient) :
    Pool Unit StartOp StartOp.Res StartExn ((o : StartOp) → Except StartExn o.Res) Empty
      NodeStart where
  exec _ o answer w := some (w.exec client answer o)
  env e _ := e.elim

end NodeStart
