/-
# Requests that cannot be served

`dispatch` allocates a port, opens its mapping and registers the request before it looks at
the type and the shard id.  So a request that cannot be served leaves no trace exactly when
it does not come as far as the allocation.

* `RouterLedger` : the ledger file and the open router mappings, and `serve`, one operation
  on them;
* `Complete` : the uploads, downloads and audits that name all they need;
* `NotAllocated` : the type is missing or `audit`, or the port is missing or not 0;
* `unserviceable_leaves_no_trace_iff` : an incomplete request leaves no trace exactly then;
* `unknown_type_leaves_trace` : a request of an unknown type stays in the ledger.
-/
import StorageNode.LedgerAlone
import StorageNode.RequestDispatcher

open ConnectionLedger RequestDispatcher

/-- What has to be as before: the ledger file and the open mappings of the router. -/
structure RouterLedger where
  ledger : Option (List Char)
  mappings : List Json

/-- How one operation turns out: its answer, the steps of a ledger call, and the mappings
the router is left with when it was asked. -/
structure ServeChoice where
  answer : (o : DispatchOp) → Except Exn o.Res
  ledger : List Choice := []
  mappings : List Json := []

/-- **One operation of `dispatch`.**  `find_available_port` asks the router to open the
mapping of the port it has found (unless the node is local or hosted, or has no router), and
`forward_port` to open or delete one; whether the router does so is up to the choice. -/
def serve (cfg : Config) (o : DispatchOp) (v : RouterLedger × List ServeChoice) :
    Option (Except Exn o.Res × (RouterLedger × List ServeChoice)) :=
  match v.2 with
  | [] => none
  | c :: cs =>
      match o with
      | .findAvailablePort =>
          if !cfg.isLocal && !cfg.hosted && cfg.router then
            some (c.answer .findAvailablePort, ({ v.1 with mappings := c.mappings }, cs))
          else some (c.answer .findAvailablePort, (v.1, cs))
      | .node (.forwardPort mapping) =>
          some (c.answer (.node (.forwardPort mapping)), ({ v.1 with mappings := c.mappings }, cs))
      | .node (.ledgerRegister entry) =>
          (runUpdate (.register entry) v.1.ledger c.ledger).map fun rw =>
            (rw.1, ({ v.1 with ledger := rw.2.file }, cs))
      | .node (.ledgerUnregister entry) =>
          (runUpdate (.unregister entry) v.1.ledger c.ledger).map fun rw =>
            (rw.1, ({ v.1 with ledger := rw.2.file }, cs))
      | o => some (c.answer o, (v.1, cs))

/-- The operations that touch neither the ledger nor the router. -/
def Traceless : DispatchOp → Prop
  | .findAvailablePort => False
  | .node (.forwardPort _) => False
  | .node (.ledgerRegister _) => False
  | .node (.ledgerUnregister _) => False
  | _ => True

theorem serve_traceless {cfg : Config} {o : DispatchOp} (ho : Traceless o)
    {v v' : RouterLedger × List ServeChoice} {r : Except Exn o.Res}
    (h : serve cfg o v = some (r, v')) : v'.1 = v.1 := by
  obtain ⟨w, cs⟩ := v
  have hother : ∀ {c : ServeChoice} {cs' : List ServeChoice} {o : DispatchOp}
      {r : Except Exn o.Res}, some (c.answer o, (w, cs')) = some (r, v') → v'.1 = w := by
    intro c cs' o r h
    simp only [Option.some.injEq, Prod.mk.injEq] at h
    rw [← h.2]
  cases cs with
  | nil => exact absurd h (by simp [serve])
  | cons c cs =>
      cases o with
      | findAvailablePort => exact ho.elim
      | node o =>
          cases o with
          | forwardPort mapping => exact ho.elim
          | ledgerRegister entry => exact ho.elim
          | ledgerUnregister entry => exact ho.elim
          | _ => exact hother h
      | _ => exact hother h

/-! ## Requests -/

/-- An upload or download with a shard id and a port, or an audit with a shard id and a
salt. -/
def Complete (request : Dict) : Prop :=
  (∃ id, request.getItem "shard_id" = .ok (.str id)) ∧
    ((request.getItem "type" = .ok (.str "audit") ∧ ∃ salt, request.getItem "salt" = .ok salt) ∨
      ((request.getItem "type" = .ok (.str "upload") ∨
          request.getItem "type" = .ok (.str "download")) ∧
        ∃ port, request.getItem "port" = .ok port))

/-- **`dispatch` does not come to the allocation of a port.** -/
def NotAllocated (request : Dict) : Prop :=
  ∀ type, request.getItem "type" = .ok type → type ≠ .str "audit" →
    ∀ port, request.getItem "port" = .ok port → (port == .int 0) = false

/-- Whatever the operations do, at the end the ledger and the mappings are as before. -/
def LeavesNoTrace (cfg : Config) (hexdigest : Bytes → String) (fuel : ℕ) (request : Dict)
    (connected : Bool) : Prop :=
  ∀ (w w' : RouterLedger) (cs cs' : List ServeChoice) (r : Except Exn Unit),
    (dispatch cfg hexdigest fuel request connected).eval (serve cfg) (w, cs) = some (r, (w', cs')) →
    w' = w

theorem beq_str_iff {v : Json} {s : String} : (v == .str s) = true ↔ v = .str s := by
  rw [beq_eq_pyEq]
  cases v <;> simp [Json.pyEq]

section Traceless

variable {cfg : Config} {request : Dict}

open Prog

/-- Without a proper shard id a transfer ends before it asks the router or the ledger. -/
theorem only_startTransfer_unnamed (fuel : ℕ) (isNew : Bool)
    (h : ∀ type id, request.getItem "type" = .ok type → type = .str "upload" ∨
      type = .str "download" → request.getItem "shard_id" ≠ .ok (.str id)) :
    (startTransfer cfg fuel request isNew).Only Traceless := by
  refine only_ofExcept_bind fun type htype => ?_
  have hjoin : type = .str "upload" ∨ type = .str "download" →
      ∀ {α : Type} {f : Json → PyStr → Node α}, (Prog.bind (ofExcept (request.getItem "shard_id"))
        fun shardId => (ofExcept (joinPath cfg.dataDirectory shardId)).bind (f shardId)).Only
          fun o => Traceless (.node o) := by
    intro ht α f
    refine only_ofExcept_bind fun shardId hid => only_ofExcept_bind fun path hpath => ?_
    cases shardId with
    | str id => exact absurd hid (h type id htype ht)
    | _ => exact absurd hpath (by simp [joinPath])
  split
  · next hup =>
      refine only_inject (only_bind (only_perform trivial) fun present => ?_)
      refine only_bind ?_ fun _ => hjoin (Or.inl (beq_str_iff.mp hup))
      split
      · trivial
      · exact only_perform trivial
  · split
    · next hdown => exact only_inject (hjoin (Or.inr (beq_str_iff.mp hdown)))
    · trivial

theorem only_reply (connected : Bool) (text : String) :
    (if connected then dispatchOp (.sendReply text) else pure ()).Only Traceless := by
  split
  · exact only_perform trivial
  · trivial

/-- An incomplete request names no shard when it is an upload or a download with a port. -/
theorem unnamed_of_incomplete (h : ¬ Complete request) {port : Json}
    (hport : request.getItem "port" = .ok port) (type : Json) (id : PyStr)
    (htype : request.getItem "type" = .ok type)
    (ht : type = .str "upload" ∨ type = .str "download") :
    request.getItem "shard_id" ≠ .ok (.str id) := by
  intro hid
  refine h ⟨⟨id, hid⟩, Or.inr ⟨?_, port, hport⟩⟩
  rw [htype]
  exact ht.imp (fun h => by rw [h]) fun h => by rw [h]

/-- **An incomplete request that is not allocated a port** touches neither the ledger nor the
router. -/
theorem only_dispatch_traceless (hexdigest : Bytes → String) (fuel : ℕ) (connected : Bool)
    (hincomplete : ¬ Complete request) (hnot : NotAllocated request) :
    (dispatch cfg hexdigest fuel request connected).Only Traceless := by
  refine only_ofExcept_bind fun type htype => ?_
  split
  · refine only_ofExcept_bind fun fragmentId _ => only_ofExcept_bind fun salt _ => ?_
    refine only_bind ?_ fun digest => only_reply connected digest
    refine only_ofExcept_bind fun filePath _ => ?_
    refine only_bind (only_perform trivial) fun fh => ?_
    refine only_bind (only_tryFinally (only_perform trivial) (only_perform trivial))
      fun content => ?_
    exact Prog.only_ofExcept_bind fun encoded _ => trivial
  · next haudit =>
      refine only_ofExcept_bind fun port hport => ?_
      have hnotAudit : type ≠ .str "audit" := fun h => haudit (beq_str_iff.mpr h)
      rw [if_neg (by rw [hnot type htype hnotAudit port hport]; decide)]
      exact only_startTransfer_unnamed fuel false (unnamed_of_incomplete hincomplete hport)

end Traceless

/-! ## A request that is allocated a port stays in the ledger -/

/-- Operations that all succeed, with the router's mappings as they were. -/
def plainChoice (mappings : List Json) : ServeChoice :=
  { answer := plainAnswer, mappings := mappings }

theorem getItem_setPort_of_ne {request : Dict} {port : Json} {key : PyStr} (h : key ≠ "port") :
    (Dict.set "port" port request).getItem key = request.getItem key := by
  unfold Dict.getItem
  rw [Dict.get?_set_of_ne h]

/-- The transfer of a request that names no shard ends, and nothing has changed. -/
theorem startTransfer_unnamed_ends (cfg : Config) (fuel : ℕ) {request : Dict} (isNew : Bool)
    {type : Json} (htype : request.getItem "type" = .ok type)
    (h : ∀ id, type = .str "upload" ∨ type = .str "download" →
      request.getItem "shard_id" ≠ .ok (.str id)) (w : RouterLedger) :
    ∃ cs r, (startTransfer cfg fuel request isNew).eval (serve cfg) (w, cs) = some (r, (w, [])) := by
  unfold startTransfer
  rw [htype]
  show ∃ cs r, (if type == .str "upload" then _ else _ : Dispatch Unit).eval (serve cfg) (w, cs) =
    some (r, (w, []))
  by_cases hup : (type == .str "upload") = true
  · refine ⟨[plainChoice []], ?_⟩
    rw [if_pos hup]
    have hnamed := fun id => h id (Or.inl (beq_str_iff.mp hup))
    cases hid : request.getItem "shard_id" with
    | error e =>
        refine ⟨.error e, ?_⟩
        simp [Node.run, FragmentReceiver.receiveData, hid, Prog.perform, Prog.bind, Prog.inject,
          Prog.eval, serve, plainChoice, plainAnswer, Prog.ofExcept]
    | ok shardId =>
        refine ⟨.error .typeError, ?_⟩
        cases shardId with
        | str id => exact absurd hid (hnamed id)
        | _ =>
            simp [Node.run, FragmentReceiver.receiveData, hid, Prog.perform, Prog.bind,
              Prog.inject, Prog.eval, serve, plainChoice, plainAnswer, Prog.ofExcept, joinPath]
  · rw [if_neg hup]
    refine ⟨[], ?_⟩
    by_cases hdown : (type == .str "download") = true
    · rw [if_pos hdown]
      have hnamed := fun id => h id (Or.inr (beq_str_iff.mp hdown))
      cases hid : request.getItem "shard_id" with
      | error e =>
          refine ⟨.error e, ?_⟩
          simp [Node.run, FragmentSender.sendData, hid, Prog.bind, Prog.inject, Prog.eval,
            Prog.ofExcept]
      | ok shardId =>
          refine ⟨.error .typeError, ?_⟩
          cases shardId with
          | str id => exact absurd hid (hnamed id)
          | _ =>
              simp [Node.run, FragmentSender.sendData, hid, Prog.bind, Prog.inject, Prog.eval,
                Prog.ofExcept, joinPath]
    · rw [if_neg hdown]
      exact ⟨.ok (), rfl⟩

/-- **Allocation with an empty ledger**: when every operation succeeds the request is
registered. -/
theorem allocate_ends (cfg : Config) (request : Dict) (connected : Bool) :
    ∃ cs text, ∀ cs', (allocateTransferPort request connected).eval (serve cfg)
      (⟨none, []⟩, cs ++ cs') =
        some (.ok (Dict.set "port" (.int 50100) request), (⟨some text, []⟩, cs')) := by
  obtain ⟨n, r, w, hrun⟩ :=
    exists_runUpdate (.register (Dict.set "port" (.int 50100) request)) none
  have hdone := runUpdate_faultless (show readFile none = .ok (.arr []) from rfl)
    (fun c hc => by rw [List.eq_of_mem_replicate hc]) hrun
  obtain ⟨rfl, hfile⟩ : r = .ok true ∧ w.file =
    some (ledgerText (.arr [Json.obj (Dict.set "port" (.int 50100) request)])) := hdone
  obtain ⟨text, htext⟩ : ∃ text, w.file = some text := ⟨_, hfile⟩
  let registering : ServeChoice := { plainChoice [] with ledger := List.replicate n {} }
  have hregister : ∀ cs', serve cfg
      (.node (.ledgerRegister (Dict.set "port" (.int 50100) request)))
      (⟨none, []⟩, registering :: cs') = some (.ok true, (⟨some text, []⟩, cs')) := by
    intro cs'
    simp only [serve, registering]
    rw [hrun, ← htext]
    rfl
  have hport : ∀ cs', serve cfg .findAvailablePort (⟨none, []⟩, plainChoice [] :: cs') =
      some (.ok 50100, (⟨none, []⟩, cs')) := by
    intro cs'
    simp only [serve]
    split <;> rfl
  cases connected with
  | false =>
      refine ⟨[plainChoice [], registering], text, fun cs' => ?_⟩
      simp only [allocateTransferPort, List.cons_append, List.nil_append, Prog.bind_eq,
        Prog.eval_bind, Prog.eval_perform, hport, hregister]
      rfl
  | true =>
      refine ⟨[plainChoice [], registering, plainChoice []], text, fun cs' => ?_⟩
      simp only [allocateTransferPort, List.cons_append, List.nil_append, Prog.bind_eq,
        Prog.eval_bind, Prog.eval_perform, hport, hregister]
      rfl

/-- **An incomplete request that is allocated a port stays in the ledger**: the transfer ends,
and nothing takes the entry back. -/
theorem allocated_leaves_trace {cfg : Config} {hexdigest : Bytes → String} {fuel : ℕ}
    {request : Dict} {connected : Bool} (hincomplete : ¬ Complete request) {type port : Json}
    (htype : request.getItem "type" = .ok type) (haudit : type ≠ .str "audit")
    (hport : request.getItem "port" = .ok port) (hzero : (port == .int 0) = true) :
    ¬ LeavesNoTrace cfg hexdigest fuel request connected := by
  intro htraceless
  obtain ⟨cs, text, halloc⟩ := allocate_ends cfg request connected
  have htype' : (Dict.set "port" (.int 50100) request).getItem "type" = .ok type :=
    (getItem_setPort_of_ne (by decide)).trans htype
  obtain ⟨cs', r, hend⟩ := startTransfer_unnamed_ends cfg fuel true htype'
    (fun id ht hid => unnamed_of_incomplete hincomplete hport type id htype ht
      ((getItem_setPort_of_ne (by decide)).symm.trans hid)) ⟨some text, []⟩
  have hdispatch : dispatch cfg hexdigest fuel request connected =
      (allocateTransferPort request connected).bind
        fun request => startTransfer cfg fuel request true := by
    unfold dispatch
    rw [htype]
    show (if (type == Json.str "audit") = true then _ else _ : Dispatch Unit) = _
    rw [if_neg fun h => haudit (beq_str_iff.mp h), hport]
    show (if (port == Json.int 0) = true then _ else _ : Dispatch Unit) = _
    rw [if_pos hzero]
    rfl
  have hrun : (dispatch cfg hexdigest fuel request connected).eval (serve cfg)
      (⟨none, []⟩, cs ++ cs') = some (r, (⟨some text, []⟩, [])) := by
    rw [hdispatch, Prog.eval_bind, halloc]
    exact hend
  exact absurd (htraceless _ _ _ _ _ hrun) (by simp)

/-- **A request leaves no trace exactly when it is not allocated a port**: an incomplete
request touches the ledger and the router only in `_allocate_transfer_port`, which runs for
every type but `audit`, and nothing is taken back when the transfer cannot start. -/
theorem unserviceable_leaves_no_trace_iff (cfg : Config) (hexdigest : Bytes → String) (fuel : ℕ)
    (request : Dict) (connected : Bool) (hincomplete : ¬ Complete request) :
    LeavesNoTrace cfg hexdigest fuel request connected ↔ NotAllocated request := by
  constructor
  · intro htraceless type htype haudit port hport
    by_contra hzero
    exact allocated_leaves_trace hincomplete htype haudit hport (by simpa using hzero) htraceless
  · intro hnot w w' cs cs' r hrun
    exact Prog.only_eval Prod.fst (fun _ _ _ _ ho h => serve_traceless ho h)
      (only_dispatch_traceless hexdigest fuel connected hincomplete hnot) hrun

/-- A request of a type that no branch of `dispatch` serves. -/
def backupRequest : Dict :=
  [("type", .str "backup"), ("shard_id", .str "s"), ("port", .int 0)]

theorem backupRequest_incomplete : ¬ Complete backupRequest := by
  rintro ⟨-, ⟨h, -⟩ | ⟨h | h, -⟩⟩ <;>
    exact absurd h (by simp [backupRequest, Dict.getItem, Dict.get?])

/-- An audit without a salt. -/
def saltlessAudit : Dict := [("type", .str "audit"), ("shard_id", .str "s")]

/-- It ends with a `KeyError` before anything is done. -/
theorem unserviceable_leaves_no_trace_saltless :
    LeavesNoTrace {} (fun _ => "") 0 saltlessAudit true := by
  refine (unserviceable_leaves_no_trace_iff {} (fun _ => "") 0 saltlessAudit true ?_).mpr ?_
  · rintro ⟨-, ⟨-, salt, h⟩ | ⟨h | h, -⟩⟩ <;>
      exact absurd h (by simp [saltlessAudit, Dict.getItem, Dict.get?])
  · intro type htype haudit
    exact absurd (Except.ok.inj htype).symm haudit

/-- **An entry nobody can serve.**  A request of the type `backup` is registered, and so
dispatched again at every restart. -/
theorem unknown_type_leaves_trace :
    ¬ Complete backupRequest ∧ ¬ LeavesNoTrace {} (fun _ => "") 0 backupRequest true :=
  ⟨backupRequest_incomplete,
    allocated_leaves_trace backupRequest_incomplete
      (show Dict.getItem backupRequest "type" = .ok (.str "backup") from rfl) (by simp)
      (show Dict.getItem backupRequest "port" = .ok (.int 0) from rfl) (by decide)⟩
