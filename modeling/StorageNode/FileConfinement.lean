/-
# Where the opened files are

Uploads, downloads and audits all open `os.path.join(data_directory, shard_id)`, and the
shard id comes from the request.

* `dispatchOpens` : `dispatch` opens paths of the request's shard only;
* `LeadsToChild` : the shard ids whose path is a direct child of the data directory;
* `opened_paths_confined_iff` : in every run of `dispatch`, and no shard id is refused before
  `open`;
* `parent_shard_escapes` : an audit of `../x` reads a file next to the data directory.
-/
import StorageNode.PosixPath
import StorageNode.RequestDispatcher

open RequestDispatcher

/-- `os.path.join` of the operations is that of the library. -/
theorem osPathJoin_eq (a b : PyStr) : osPathJoin a b = PosixPath.join a b := by
  unfold osPathJoin PosixPath.join
  split
  · rfl
  · split
    · rfl
    · rw [List.append_assoc]
      rfl

/-- An opened path is a path of the request's shard. -/
def OpensOwn (cfg : Config) (request : Dict) : DispatchOp → Prop
  | .node (.openFile path _) => OwnPath cfg request path
  | _ => True

/-- Storing the port does not change the shard. -/
theorem ownPath_setPort {cfg : Config} {request : Dict} {port : Json} {path : PyStr} :
    OwnPath cfg (Dict.set "port" port request) path ↔ OwnPath cfg request path := by
  unfold OwnPath Dict.getItem
  rw [Dict.get?_set_of_ne (by decide)]

theorem opensOwn_of_own {cfg : Config} {request request' : Dict}
    (h : ∀ path, OwnPath cfg request' path → OwnPath cfg request path) (o : DispatchOp)
    (ho : OwnDispatchOp cfg request' o) : OpensOwn cfg request o := by
  cases o with
  | node o =>
      cases o with
      | openFile path mode => exact h path ho
      | _ => trivial
  | _ => trivial

/-- **`dispatch` opens the request's shard and nothing else.** -/
theorem dispatchOpens (cfg : Config) (hexdigest : Bytes → String) (fuel : ℕ) (request : Dict)
    (connected : Bool) :
    (dispatch cfg hexdigest fuel request connected).Only (OpensOwn cfg request) := by
  have hreply : ∀ text, (if connected then dispatchOp (.sendReply text) else pure ()).Only
      (OpensOwn cfg request) := by
    intro text
    split
    · exact Prog.only_perform trivial
    · trivial
  refine Prog.only_ofExcept_bind fun type _ => ?_
  split
  · refine Prog.only_ofExcept_bind fun fragmentId hid => ?_
    refine Prog.only_ofExcept_bind fun salt _ => ?_
    refine Prog.only_bind ?_ fun digest => hreply digest
    refine Prog.only_ofExcept_bind fun filePath hpath => ?_
    refine Prog.only_bind (Prog.only_perform (ownPath_of_join hid hpath)) fun fh => ?_
    refine Prog.only_bind
      (Prog.only_tryFinally (Prog.only_perform trivial) (Prog.only_perform trivial))
      fun content => ?_
    exact Prog.only_ofExcept_bind fun encoded _ => trivial
  · refine Prog.only_ofExcept_bind fun port _ => ?_
    split
    · unfold allocateTransferPort
      rw [Prog.bind_eq, Prog.bind_eq, Prog.bind_assoc]
      refine Prog.only_bind (Prog.only_perform trivial) fun p => ?_
      simp only [Prog.bind_eq, Prog.bind_assoc, Prog.pure_eq, Prog.ret_bind]
      refine Prog.only_bind (Prog.only_perform trivial) fun _ => ?_
      refine Prog.only_bind (hreply _) fun _ => ?_
      exact Prog.only_mono (opensOwn_of_own fun path => ownPath_setPort.mp)
        (only_startTransfer cfg fuel _ true)
    · exact Prog.only_mono (opensOwn_of_own fun _ h => h)
        (only_startTransfer cfg fuel request false)

/-- **The shard ids that lead to a direct child of the directory**: an absolute path of one,
or a relative path that goes up and comes back (or never goes up) and ends with one name. -/
def LeadsToChild (directory id : PyStr) : Prop :=
  if id.head? = some PosixPath.slash then PosixPath.Child directory id
  else PosixPath.BackToChild directory id

theorem child_osPathJoin_iff (directory id : PyStr) :
    PosixPath.Child directory (osPathJoin directory id) ↔ LeadsToChild directory id := by
  rw [osPathJoin_eq]
  unfold LeadsToChild
  split
  · next h => rw [PosixPath.join_absolute h]
  · next h => exact PosixPath.child_join_iff h

/-- An audit of a shard. -/
def auditRequest (id : PyStr) : Dict :=
  [("type", .str "audit"), ("shard_id", .str id), ("salt", .str "")]

/-- **Where the opened files are.**  Whatever the request is and however its operations turn
out, every path `open` is called with is the data directory joined with the shard id, and it
is a direct child of the data directory exactly when the shard id leads to one.  No shard id
is refused before: an audit calls `open` with its path, whatever `open` then makes of it. -/
theorem opened_paths_confined_iff (cfg : Config) (hexdigest : Bytes → String) (fuel : ℕ)
    (connected : Bool) :
    (∀ (request : Dict) (log : List (Prog.Event DispatchOp DispatchOp.Res Exn))
        (rest : Dispatch Unit),
      (dispatch cfg hexdigest fuel request connected).Runs log rest →
      ∀ e ∈ log, ∀ path mode, e.1 = .node (.openFile path mode) →
        ∃ id, request.getItem "shard_id" = .ok (.str id) ∧
          path = osPathJoin cfg.dataDirectory id ∧
          (PosixPath.Child cfg.dataDirectory path ↔
            LeadsToChild cfg.dataDirectory id)) ∧
      ∀ id : PyStr, ∃ (log : List (Prog.Event DispatchOp DispatchOp.Res Exn))
        (rest : Dispatch Unit),
        (dispatch cfg hexdigest fuel (auditRequest id) connected).Runs log rest ∧
          ∃ e ∈ log, e.1 = .node (.openFile (osPathJoin cfg.dataDirectory id) .rb) := by
  constructor
  · intro request log rest hruns e he path mode hopen
    have hown := (Prog.only_runs (dispatchOpens cfg hexdigest fuel request connected) hruns).2 e he
    rw [hopen] at hown
    obtain ⟨id, hid, rfl⟩ := hown
    exact ⟨id, hid, rfl, child_osPathJoin_iff cfg.dataDirectory id⟩
  · intro id
    have hfirst : (dispatch cfg hexdigest fuel (auditRequest id) connected).Runs []
        (dispatch cfg hexdigest fuel (auditRequest id) connected) := .nil
    exact ⟨_, _, hfirst.snoc (o := .node (.openFile (osPathJoin cfg.dataDirectory id) .rb))
      (.ok (0 : ℕ)), _, List.mem_append_right _ List.mem_cons_self, rfl⟩

/-- The theorem at a shard with a plain name: the opened path is a direct child. -/
theorem opened_paths_confined_plain :
    ∃ (log : List (Prog.Event DispatchOp DispatchOp.Res Exn)) (rest : Dispatch Unit),
      (dispatch {} (fun _ => "") 0 (auditRequest "s") true).Runs log rest ∧
        ∃ e ∈ log, e.1 = .node (.openFile "Data/s" .rb) ∧
          PosixPath.Child "Data" "Data/s" := by
  have h := opened_paths_confined_iff {} (fun _ => "") 0 true
  obtain ⟨log, rest, hruns, e, he, hopen⟩ := h.2 "s"
  obtain ⟨id, hid, -, hiff⟩ := h.1 _ log rest hruns e he _ _ hopen
  have hs : id = "s" := by
    have hget : (auditRequest "s").getItem "shard_id" = .ok (.str "s") := rfl
    rw [hget, Except.ok.injEq, Json.str.injEq] at hid
    exact hid.symm
  subst hs
  have hleads : LeadsToChild "Data" "s" := by
    rw [LeadsToChild, if_neg (by decide)]
    exact ⟨0, "s", by decide, by decide, Or.inr (Nat.zero_le _), by decide⟩
  exact ⟨log, rest, hruns, e, he, hopen, hiff.mpr hleads⟩

/-- **A shard id that leaves the data directory.**  An audit of `../x` opens `Data/../x`,
which is no child of the data directory. -/
theorem parent_shard_escapes :
    ¬ ∀ (request : Dict) (log : List (Prog.Event DispatchOp DispatchOp.Res Exn))
        (rest : Dispatch Unit),
      (dispatch {} (fun _ => "") 0 request true).Runs log rest →
      ∀ e ∈ log, ∀ path mode, e.1 = .node (.openFile path mode) →
        PosixPath.Child "Data" path := by
  intro h
  have hfirst : (dispatch {} (fun _ => "") 0 (auditRequest "../x") true).Runs []
      (dispatch {} (fun _ => "") 0 (auditRequest "../x") true) := .nil
  obtain ⟨name, -, hname⟩ := h _ _ _
    (hfirst.snoc (o := .node (.openFile "Data/../x" .rb)) (.ok (0 : ℕ))) _
    (List.mem_append_right _ List.mem_cons_self) _ _ rfl
  have hlen : (PosixPath.normpath "Data/../x").2.length = 1 := by decide
  have hbase : (PosixPath.normpath "Data").2.length = 1 := by decide
  rw [hname, List.length_cons, hbase] at hlen
  exact absurd hlen (by decide)
