/-
# The client of the coordination server (`backend_client.py`)

The requests of `CoordinationClient` the workers rely on, as programs over the HTTP client.

* `HttpOp`, `Response` : one request of `httpx.Client` and its answer;
* `safePost`, `safePatch`, `safeGet` : `httpx.RequestError` becomes `None`, everything else
  passes;
* `withdrawRequest`, `updateConnection`, `getActiveContracts` : the methods.

What `httpx` makes of a URL is left open: it may refuse any of them with `InvalidURL`.
-/
import StorageNode.NodeOps
import StorageNode.ProgLog

inductive HttpMethod
  | get
  | post
  | patch
  deriving DecidableEq

/-- A response: its status, and its body when that is JSON. -/
structure Response where
  status : ℕ
  body : Option Json

/-- `response.json()`. -/
def Response.json (r : Response) : Except Exn Json :=
  match r.body with
  | some v => .ok v
  | none => .error .jsonDecode

/-- One request. -/
inductive HttpOp
  | request (method : HttpMethod) (url : PyStr) (json : Option Json)
      (headers : List (String × PyStr))

@[reducible] def HttpOp.Res : HttpOp → Type
  | .request _ _ _ _ => Response

/-- Programs of the client. -/
abbrev Http (α : Type) : Type := Prog HttpOp HttpOp.Res Exn α

/-- Call an operation. -/
abbrev httpOp (o : HttpOp) : Http o.Res := Prog.perform o

/-- The client's settings; `serverUrl` is what `rstrip("/")` has left. -/
structure CoordinationClient where
  serverUrl : String := "http://localhost:5000"
  token : Option PyStr := none

/-- The body of a `ContractQueryResult`. -/
structure ContractQueryResult where
  shardIds : Json
  success : Bool

/-- `s.rstrip("/")`. -/
def rstripSlash (s : String) : String := String.ofList (s.toList.rdropWhile (· == '/'))

namespace CoordinationClient

/-- `__init__`; the token comes with a login. -/
def init (serverUrl : String) (token : Option PyStr) : CoordinationClient where
  serverUrl := rstripSlash serverUrl
  token := token

/-- `_auth_headers`. -/
def authHeaders (client : CoordinationClient) : List (String × PyStr) :=
  match client.token with
  | none => []
  | some token => [("token", token)]

/-- `_build_url`. -/
def buildUrl (client : CoordinationClient) (route : PyStr) : PyStr := client.serverUrl ++ route

/-- What `_safe_post`, `_safe_patch` and `_safe_get` share. -/
def safeRequest (client : CoordinationClient) (method : HttpMethod) (route : PyStr)
    (body : Option Json) : Http (Option Response) :=
  (do
    -- `InvalidURL` is no `RequestError`, so it passes
    let response ← httpOp (.request method (client.buildUrl route) body client.authHeaders)
    pure (some response)).tryExcept fun e =>
      if e = Exn.requestError then pure none else Prog.raise e

/-- `_safe_post`. -/
def safePost (client : CoordinationClient) (route : PyStr) (body : Json) :
    Http (Option Response) :=
  client.safeRequest .post route (some body)

/-- `_safe_patch`. -/
def safePatch (client : CoordinationClient) (route : PyStr) (body : Json) :
    Http (Option Response) :=
  client.safeRequest .patch route (some body)

/-- `_safe_get`. -/
def safeGet (client : CoordinationClient) (route : PyStr) : Http (Option Response) :=
  client.safeRequest .get route none

/-- `_UPDATE_CONN_ROUTE` -/
def updateConnRoute : PyStr := "/storage-nodes/me/connection"

/-- `_ACTIVE_CONTRACTS_ROUTE` -/
def activeContractsRoute : PyStr := "/storage-nodes/me/contracts"

/-- The route of `withdraw_request`. -/
def withdrawalRoute (shard : PyStr) : PyStr :=
  ("storage-nodes/me/contracts/" : PyStr) ++ shard ++ ("/withdrawal" : PyStr)

/-- `{"shard_id": shard}` -/
def shardBody (shard : PyStr) : Json := .obj [("shard_id", .str shard)]

/-- `withdraw_request`. -/
def withdrawRequest (client : CoordinationClient) (shard : PyStr) : Http Unit := do
  let _ ← client.safePost (withdrawalRoute shard) (shardBody shard)
  pure ()

/-- `update_connection`. -/
def updateConnection (client : CoordinationClient) (ipAddress : String) (port : Json) :
    Http Unit := do
  let _ ← client.safePatch updateConnRoute
    (.obj [("ip_address", .str ipAddress), ("port", port)])
  pure ()

/-- `get_active_contracts`. -/
def getActiveContracts (client : CoordinationClient) : Http ContractQueryResult := do
  let result ← client.safeGet activeContractsRoute
  match result with
  | some response =>
      if response.status = 200 then
        let body ← Prog.ofExcept response.json
        match body with
        -- a missing key stands for no contracts, and the value is not looked at
        | .obj d => pure ⟨(Dict.get? "shards" d).getD (.arr []), true⟩
        | _ => Prog.raise .attributeError
      else pure ⟨.arr [], false⟩
  | none => pure ⟨.arr [], false⟩

end CoordinationClient

/-! ## Requests that run alone -/

theorem total_safeRequest (client : CoordinationClient) (method : HttpMethod) (route : PyStr)
    (body : Option Json) : (client.safeRequest method route body).Total := by
  refine Prog.total_tryExcept (Prog.total_bind (Prog.total_perform _) fun _ => trivial) fun e => ?_
  split <;> trivial

section Eval

variable {W : Type} {f : (o : HttpOp) → W → Option (Except Exn o.Res × W)}

/-- **One safe request**: an answer, nothing for a `RequestError`, and any other exception. -/
theorem eval_safeRequest (client : CoordinationClient) (method : HttpMethod) (route : PyStr)
    (body : Option Json) (w : W) :
    (client.safeRequest method route body).eval f w =
      (f (.request method (client.buildUrl route) body client.authHeaders) w).map fun rw =>
        match rw.1 with
        | .ok response => (.ok (some response), rw.2)
        | .error e => (if e = Exn.requestError then .ok none else .error e, rw.2) := by
  simp only [CoordinationClient.safeRequest, Prog.eval_tryExcept, Prog.bind_eq, Prog.eval_bind,
    Prog.eval_perform]
  cases f (.request method (client.buildUrl route) body client.authHeaders) w with
  | none => rfl
  | some rw =>
      obtain ⟨r, w'⟩ := rw
      cases r with
      | ok response => rfl
      | error e =>
          by_cases he : e = Exn.requestError
          · simp [he, Prog.eval]
          · simp [he, Prog.eval]

/-- What a request's outcome means to `get_active_contracts`. -/
def contractsOf : Except Exn Response → Except Exn ContractQueryResult
  | .error e => if e = Exn.requestError then .ok ⟨.arr [], false⟩ else .error e
  | .ok response =>
      if response.status = 200 then
        match response.body with
        | some (.obj d) => .ok ⟨(Dict.get? "shards" d).getD (.arr []), true⟩
        | some _ => .error .attributeError
        | none => .error .jsonDecode
      else .ok ⟨.arr [], false⟩

theorem eval_getActiveContracts (client : CoordinationClient) (w : W) :
    client.getActiveContracts.eval f w =
      (f (.request .get (client.buildUrl CoordinationClient.activeContractsRoute) none
        client.authHeaders) w).map fun rw => (contractsOf rw.1, rw.2) := by
  simp only [CoordinationClient.getActiveContracts, CoordinationClient.safeGet, Prog.bind_eq,
    Prog.eval_bind, eval_safeRequest]
  cases f (.request .get (client.buildUrl CoordinationClient.activeContractsRoute) none
      client.authHeaders) w with
  | none => rfl
  | some rw =>
      obtain ⟨r, w'⟩ := rw
      cases r with
      | error e =>
          by_cases he : e = Exn.requestError
          · simp [he, contractsOf, Prog.eval]
          · simp [he, contractsOf]
      | ok response =>
          by_cases hstatus : response.status = 200
          · simp only [Option.map_some, contractsOf, if_pos hstatus]
            cases hbody : response.body with
            | none => simp [Response.json, hbody, Prog.ofExcept, Prog.eval]
            | some body =>
                cases body <;> simp [Response.json, hbody, Prog.ofExcept, Prog.eval]
          · simp [contractsOf, hstatus, Prog.eval]

/-- What a request's outcome means to `withdraw_request` and `update_connection`. -/
def reportedOf : Except Exn Response → Except Exn Unit
  | .error e => if e = Exn.requestError then .ok () else .error e
  | .ok _ => .ok ()

theorem eval_report {client : CoordinationClient} {method : HttpMethod} {route : PyStr}
    {body : Json} (w : W) :
    ((client.safeRequest method route (some body)).bind fun _ => .ret ()).eval f w =
      (f (.request method (client.buildUrl route) (some body) client.authHeaders) w).map
        fun rw => (reportedOf rw.1, rw.2) := by
  rw [Prog.eval_bind, eval_safeRequest]
  cases f (.request method (client.buildUrl route) (some body) client.authHeaders) w with
  | none => rfl
  | some rw =>
      obtain ⟨r, w'⟩ := rw
      cases r with
      | ok response => rfl
      | error e =>
          by_cases he : e = Exn.requestError
          · simp [he, reportedOf, Prog.eval]
          · simp [he, reportedOf]

end Eval
