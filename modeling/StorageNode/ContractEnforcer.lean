/-
# The contract enforcer (`service_workers.py`)

One cycle of `ContractEnforcer`: the data directory is listed, the active contracts are
asked for, and every fragment is either unlinked or claimed.

* `ContractEnforcer.purgeAndClaim` : the cycle, as a program over `EnforcerOp`;
* `Listing`, `EnforcerWorld` : the directory, the backend's answers and what is posted;
* `purge_needs_evidence` : what a fragment is unlinked for;
* `cycle_complete_iff` : a cycle is complete exactly when it has nothing to claim.
-/
import StorageNode.CoordinationClient

/-- The operations of the enforcer. -/
inductive EnforcerOp
  /-- `os.listdir(path)` -/
  | listDir (path : PyStr)
  /-- `os.unlink(path)` -/
  | unlink (path : PyStr)
  | http (o : HttpOp)

@[reducible] def EnforcerOp.Res : EnforcerOp → Type
  | .listDir _ => List PyStr
  | .unlink _ => Unit
  | .http o => o.Res

/-- Programs of the enforcer. -/
abbrev Enforcer (α : Type) : Type := Prog EnforcerOp EnforcerOp.Res Exn α

/-- Call an operation. -/
abbrev enforcerOp (o : EnforcerOp) : Enforcer o.Res := Prog.perform o

/-- A request, made by the enforcer. -/
def Http.run {α : Type} (p : Http α) : Enforcer α := p.inject EnforcerOp.http fun _ r => r

/-- `a in b` for strings. -/
def isSubstring (a b : PyStr) : Bool := b.tails.any fun t => a.isPrefixOf t

/-- `fragment in ids`: `get_active_contracts` does not look at the type of what the backend
sends. -/
def pyIn (fragment : PyStr) : Json → Except Exn Bool
  | .arr ids => .ok (ids.any (· == .str fragment))
  | .str ids => .ok (isSubstring fragment ids)
  | .obj ids => .ok (decide (fragment ∈ Dict.keys ids))
  | _ => .error .typeError

namespace ContractEnforcer

/-- `_collect_stored_fragments`. -/
def collectStoredFragments (dataDirectory : PyStr) : Enforcer (List PyStr) :=
  (enforcerOp (.listDir dataDirectory)).tryExcept fun e =>
    -- without a data directory nothing is stored
    if e = Exn.fileNotFound then pure [] else Prog.raise e

/-- `query_ok and fragment not in active_ids`. -/
def isExpired (result : ContractQueryResult) (fragment : PyStr) : Except Exn Bool :=
  if result.success then
    match pyIn fragment result.shardIds with
    | .ok found => .ok (!found)
    | .error e => .error e
  else .ok false

/-- The body of the loop of `_purge_and_claim`. -/
def purgeOrClaim (dataDirectory : PyStr) (client : CoordinationClient)
    (result : ContractQueryResult) (fragment : PyStr) : Enforcer Unit := do
  let expired ← Prog.ofExcept (isExpired result fragment)
  if expired then enforcerOp (.unlink (osPathJoin dataDirectory fragment))
  -- a fragment that is kept is claimed, also when the query has failed
  else (client.withdrawRequest fragment).run

/-- The loop. -/
def purgeFragments (dataDirectory : PyStr) (client : CoordinationClient)
    (result : ContractQueryResult) : List PyStr → Enforcer Unit
  | [] => pure ()
  | fragment :: rest => do
      purgeOrClaim dataDirectory client result fragment
      purgeFragments dataDirectory client result rest

/-- `_purge_and_claim`; the result of `get_active_contracts` always has `shard_ids`. -/
def purgeAndClaim (dataDirectory : PyStr) (client : CoordinationClient) : Enforcer Unit := do
  let stored ← collectStoredFragments dataDirectory
  -- the directory may change between the listing and the query, and after it
  let result ← client.getActiveContracts.run
  purgeFragments dataDirectory client result stored

end ContractEnforcer

/-! ## The directory and the backend -/

/-- What `os.listdir` returns: distinct names. -/
structure Listing where
  names : List PyStr
  nodup : names.Nodup
  plain : ∀ n ∈ names, n.head? ≠ some (.char '/')

/-- The data directory (`none` when there is none), the backend's answers to the query and
to the posted requests, `none` for an `httpx.RequestError`, and what has been posted. -/
structure EnforcerWorld where
  files : Option (List PyStr)
  query : Option Response
  answers : ℕ → Option Response
  posts : List (PyStr × Option Json) := []

/-- How a request turns out. -/
def outcome : Option Response → Except Exn Response
  | some response => .ok response
  | none => .error .requestError

/-- What a URL raises that `httpx` sends no request for: one with a surrogate is not even
encoded. -/
def refusal (url : PyStr) : Exn := if url.encode?.isSome then .invalidUrl else .valueError

theorem refusal_ne (url : PyStr) : refusal url ≠ .requestError := by
  unfold refusal
  split <;> decide

/-- One operation; `accepts` are the URLs `httpx` sends a request for. -/
def EnforcerWorld.exec (accepts : PyStr → Bool) (dataDirectory : PyStr) (o : EnforcerOp)
    (w : EnforcerWorld) : Option (Except Exn o.Res × EnforcerWorld) :=
  match o with
  | .listDir _ =>
      match w.files with
      | some names => some (.ok names, w)
      | none => some (.error .fileNotFound, w)
  | .unlink path =>
      match w.files with
      | some names =>
          if names.any fun n => osPathJoin dataDirectory n = path then
            some (.ok (), { w with files := some (names.filter fun n => osPathJoin dataDirectory n ≠ path) })
          else some (.error .fileNotFound, w)
      | none => some (.error .fileNotFound, w)
  | .http (.request method url json _) =>
      if accepts url then
        if method = .get then some (outcome w.query, w)
        else some (outcome (w.answers w.posts.length), { w with posts := w.posts ++ [(url, json)] })
      else some (.error (refusal url), w)

/-- Before the cycle. -/
def EnforcerWorld.start (stored : Option Listing) (query : Option Response)
    (answers : ℕ → Option Response) : EnforcerWorld :=
  { files := stored.map Listing.names, query := query, answers := answers }

/-- The names of the files that are there. -/
def fileNames (files : Option (List PyStr)) : List PyStr := files.getD []

/-- Only `os.unlink` changes the directory. -/
theorem files_exec {accepts : PyStr → Bool} {dir : PyStr} {o : EnforcerOp} {w w' : EnforcerWorld}
    {r : Except Exn o.Res} (h : EnforcerWorld.exec accepts dir o w = some (r, w'))
    (ho : ∀ path, o ≠ .unlink path) : w'.files = w.files := by
  cases o with
  | listDir path =>
      simp only [EnforcerWorld.exec] at h
      split at h <;> (simp only [Option.some.injEq, Prod.mk.injEq] at h; rw [← h.2])
  | unlink path => exact absurd rfl (ho path)
  | http o =>
      cases o with
      | request method url json headers =>
          simp only [EnforcerWorld.exec] at h
          split at h
          · split at h <;> (simp only [Option.some.injEq, Prod.mk.injEq] at h; rw [← h.2])
          · simp only [Option.some.injEq, Prod.mk.injEq] at h
            rw [← h.2]

/-- Different names have different paths. -/
theorem osPathJoin_inj {dir a b : PyStr} (ha : a.head? ≠ some (.char '/'))
    (hb : b.head? ≠ some (.char '/')) (h : osPathJoin dir a = osPathJoin dir b) : a = b := by
  simp only [osPathJoin, if_neg ha, if_neg hb] at h
  split at h
  · exact List.append_cancel_left h
  · exact List.append_cancel_left h

/-! ## The parts of a cycle -/

section Parts

variable {accepts : PyStr → Bool} {dir : PyStr} {client : CoordinationClient}

theorem eval_run {α : Type} (p : Http α) (w : EnforcerWorld) :
    p.run.eval (EnforcerWorld.exec accepts dir) w =
      p.eval (fun o => EnforcerWorld.exec accepts dir (.http o)) w := by
  unfold Http.run
  induction p generalizing w with
  | ret a => rfl
  | raise e => rfl
  | hang => rfl
  | call o k ih =>
      simp only [Prog.inject, Prog.eval]
      cases EnforcerWorld.exec accepts dir (.http o) w with
      | none => rfl
      | some rw => exact ih rw.1 rw.2

/-- `_collect_stored_fragments` gives the names, and none when there is no directory. -/
theorem eval_collectStoredFragments (w : EnforcerWorld) :
    (ContractEnforcer.collectStoredFragments dir).eval (EnforcerWorld.exec accepts dir) w =
      some (.ok (fileNames w.files), w) := by
  simp only [ContractEnforcer.collectStoredFragments, Prog.eval_tryExcept, Prog.eval_perform,
    EnforcerWorld.exec]
  cases hfiles : w.files with
  | none => rfl
  | some names => rfl

/-- What the query of a cycle gives. -/
def queried (accepts : PyStr → Bool) (client : CoordinationClient) (query : Option Response) :
    Except Exn ContractQueryResult :=
  if accepts (client.buildUrl CoordinationClient.activeContractsRoute) then
    contractsOf (outcome query)
  else .error (refusal (client.buildUrl CoordinationClient.activeContractsRoute))

theorem eval_query (w : EnforcerWorld) :
    client.getActiveContracts.run.eval (EnforcerWorld.exec accepts dir) w =
      some (queried accepts client w.query, w) := by
  rw [eval_run, eval_getActiveContracts]
  simp only [EnforcerWorld.exec, queried]
  split
  · rfl
  · simp [contractsOf, refusal_ne]

/-- How a claim turns out. -/
theorem eval_withdrawRequest (fragment : PyStr) (w : EnforcerWorld) :
    (client.withdrawRequest fragment).run.eval (EnforcerWorld.exec accepts dir) w =
      if accepts (client.buildUrl (CoordinationClient.withdrawalRoute fragment)) then
        some (.ok (), { w with posts := w.posts ++
          [(client.buildUrl (CoordinationClient.withdrawalRoute fragment),
            some (CoordinationClient.shardBody fragment))] })
      else some (.error (refusal
        (client.buildUrl (CoordinationClient.withdrawalRoute fragment))), w) := by
  rw [eval_run]
  show ((client.safeRequest .post _ (some _)).bind fun _ => .ret ()).eval _ w = _
  rw [eval_report]
  simp only [EnforcerWorld.exec]
  split
  · cases w.answers w.posts.length with
    | none => simp [outcome, reportedOf]
    | some response => simp [outcome, reportedOf]
  · simp [reportedOf, refusal_ne]

/-- **A cycle** is its loop, with what the directory and the query give. -/
theorem eval_purgeAndClaim (w : EnforcerWorld) :
    (ContractEnforcer.purgeAndClaim dir client).eval (EnforcerWorld.exec accepts dir) w =
      match queried accepts client w.query with
      | .ok result => (ContractEnforcer.purgeFragments dir client result (fileNames w.files)).eval
          (EnforcerWorld.exec accepts dir) w
      | .error e => some (.error e, w) := by
  simp only [ContractEnforcer.purgeAndClaim, Prog.bind_eq, Prog.eval_bind,
    eval_collectStoredFragments, eval_query]
  cases queried accepts client w.query with
  | ok result => rfl
  | error e => rfl

/-- Every operation turns out somehow. -/
theorem exists_exec (o : EnforcerOp) (w : EnforcerWorld) :
    ∃ r w', EnforcerWorld.exec accepts dir o w = some (r, w') := by
  cases o with
  | listDir path =>
      simp only [EnforcerWorld.exec]
      split <;> exact ⟨_, _, rfl⟩
  | unlink path =>
      simp only [EnforcerWorld.exec]
      split
      · split <;> exact ⟨_, _, rfl⟩
      · exact ⟨_, _, rfl⟩
  | http o =>
      cases o with
      | request method url json headers =>
          simp only [EnforcerWorld.exec]
          split
          · split <;> exact ⟨_, _, rfl⟩
          · exact ⟨_, _, rfl⟩

theorem total_purgeFragments (result : ContractQueryResult) (stored : List PyStr) :
    (ContractEnforcer.purgeFragments dir client result stored).Total := by
  induction stored with
  | nil => trivial
  | cons fragment rest ih =>
      refine Prog.total_bind (Prog.total_bind (Prog.total_ofExcept _) fun expired => ?_) fun _ => ih
      cases expired with
      | true => exact Prog.total_perform _
      | false =>
          exact Prog.total_inject (Prog.total_bind (total_safeRequest _ _ _ _) fun _ => trivial)

/-- Whatever the query has given, a cycle comes to its end. -/
theorem exists_eval_purgeAndClaim (accepts : PyStr → Bool) (dir : PyStr)
    (client : CoordinationClient) (w : EnforcerWorld) :
    ∃ r w', (ContractEnforcer.purgeAndClaim dir client).eval (EnforcerWorld.exec accepts dir) w =
      some (r, w') := by
  rw [eval_purgeAndClaim]
  cases queried accepts client w.query with
  | ok result => exact Prog.exists_eval exists_exec (total_purgeFragments result _) w
  | error e => exact ⟨.error e, w, rfl⟩

end Parts

/-! ## What is unlinked -/

namespace ContractEnforcer

/-- The operations of the loop: it unlinks what has expired and posts withdrawals. -/
def PurgeOp (dir : PyStr) (client : CoordinationClient) (result : ContractQueryResult)
    (stored : List PyStr) : EnforcerOp → Prop
  | .listDir _ => False
  | .unlink path => ∃ fragment ∈ stored, path = osPathJoin dir fragment ∧
      isExpired result fragment = .ok true
  | .http (.request method url _ _) => method = .post ∧
      ∃ fragment, url = client.buildUrl (CoordinationClient.withdrawalRoute fragment)

theorem only_purgeFragments (dir : PyStr) (client : CoordinationClient)
    (result : ContractQueryResult) (stored : List PyStr) :
    (purgeFragments dir client result stored).Only (PurgeOp dir client result stored) := by
  have hsub : ∀ rest : List PyStr, rest ⊆ stored →
      (purgeFragments dir client result rest).Only (PurgeOp dir client result stored) := by
    intro rest hrest
    induction rest with
    | nil => trivial
    | cons fragment rest ih =>
        have hmem : fragment ∈ stored := hrest List.mem_cons_self
        refine Prog.only_bind ?_ fun _ => ih fun x hx => hrest (List.mem_cons_of_mem _ hx)
        refine Prog.only_ofExcept_bind fun expired hexpired => ?_
        cases expired with
        | true => exact Prog.only_perform ⟨fragment, hmem, rfl, hexpired⟩
        | false =>
            refine Prog.only_inject (Prog.only_bind ?_ fun _ => trivial)
            refine Prog.only_tryExcept ?_ fun e => ?_
            · exact Prog.only_bind (Prog.only_perform ⟨rfl, fragment, rfl⟩) fun _ => trivial
            · split <;> trivial
  exact hsub stored fun _ hx => hx

end ContractEnforcer

/-! ## Evidence -/

namespace ContractEnforcer

/-- **What a fragment is unlinked for**: a response with status 200 whose body is an object
without `shards`, or one whose `shards` is a list, a string or an object that does not
contain the fragment. -/
def Evidence (query : Option Response) (fragment : PyStr) : Prop :=
  ∃ d, query = some ⟨200, some (.obj d)⟩ ∧
    (Dict.get? "shards" d = none ∨
      ∃ ids, Dict.get? "shards" d = some ids ∧ pyIn fragment ids = .ok false)

/-- A fragment has expired only on evidence. -/
theorem evidence_of_isExpired {accepts : PyStr → Bool} {client : CoordinationClient}
    {query : Option Response} {result : ContractQueryResult} {fragment : PyStr}
    (hresult : queried accepts client query = .ok result)
    (hexpired : isExpired result fragment = .ok true) : Evidence query fragment := by
  obtain ⟨hsuccess, hfound⟩ : result.success = true ∧ pyIn fragment result.shardIds = .ok false := by
    unfold isExpired at hexpired
    split at hexpired
    · next hsuccess =>
        refine ⟨hsuccess, ?_⟩
        split at hexpired
        · next found hfound =>
            rw [hfound]
            simpa using hexpired
        · exact absurd hexpired (by simp)
    · exact absurd hexpired (by simp)
  unfold queried at hresult
  split at hresult
  swap
  · exact absurd hresult (by simp)
  cases query with
  | none =>
      simp only [outcome, contractsOf, if_true, Except.ok.injEq] at hresult
      rw [← hresult] at hsuccess
      exact absurd hsuccess (by simp)
  | some response =>
      obtain ⟨status, body⟩ := response
      simp only [outcome, contractsOf] at hresult
      split at hresult
      · next hstatus =>
          subst hstatus
          cases body with
          | none => exact absurd hresult (by simp)
          | some v =>
              cases v with
              | obj d =>
                  simp only [Except.ok.injEq] at hresult
                  subst hresult
                  refine ⟨d, rfl, ?_⟩
                  cases hids : Dict.get? "shards" d with
                  | none => exact Or.inl rfl
                  | some ids =>
                      rw [hids, Option.getD_some] at hfound
                      exact Or.inr ⟨ids, rfl, hfound⟩
              | _ => exact absurd hresult (by simp)
      · rw [Except.ok.injEq] at hresult
        rw [← hresult] at hsuccess
        exact absurd hsuccess (by simp)

/-- The directory before a cycle. -/
def storedNames (stored : Option Listing) : List PyStr := fileNames (stored.map Listing.names)

theorem plain_of_mem_storedNames {stored : Option Listing} {n : PyStr}
    (h : n ∈ storedNames stored) : n.head? ≠ some (.char '/') := by
  cases stored with
  | none => exact absurd h List.not_mem_nil
  | some listing => exact listing.plain n h

/-- **A fragment is unlinked only on evidence**, and without evidence against any fragment
the directory stays as it is, whatever the directory holds and however the query and the
requests of the cycle turn out. -/
theorem purge_needs_evidence (accepts : PyStr → Bool) (dir : PyStr)
    (client : CoordinationClient) (stored : Option Listing) (query : Option Response)
    (answers : ℕ → Option Response) :
    ∃ r w', (purgeAndClaim dir client).eval (EnforcerWorld.exec accepts dir)
        (EnforcerWorld.start stored query answers) = some (r, w') ∧
      (∀ fragment ∈ storedNames stored, fragment ∉ fileNames w'.files → Evidence query fragment) ∧
      ((∀ fragment, ¬ Evidence query fragment) → w'.files = stored.map Listing.names) := by
  obtain ⟨r, w', hrun⟩ := exists_eval_purgeAndClaim accepts dir client
    (EnforcerWorld.start stored query answers)
  refine ⟨r, w', hrun, ?_⟩
  rw [eval_purgeAndClaim] at hrun
  cases hresult : queried accepts client query with
  | error e =>
      simp only [EnforcerWorld.start, hresult, Option.some.injEq, Prod.mk.injEq] at hrun
      obtain ⟨-, rfl⟩ := hrun
      exact ⟨fun fragment hmem habsent => absurd hmem habsent, fun _ => rfl⟩
  | ok result =>
      simp only [EnforcerWorld.start, hresult] at hrun
      have honly := only_purgeFragments dir client result (storedNames stored)
      constructor
      · -- only what is unlinked disappears
        refine Prog.only_inv (I := fun w => ∀ fragment ∈ storedNames stored,
          fragment ∉ fileNames w.files → Evidence query fragment) ?_ honly ?_ hrun
        · intro o w r w' ho hw hx fragment hmem habsent
          cases o with
          | listDir path => exact ho.elim
          | http o =>
              rw [files_exec hx fun path => by simp] at habsent
              exact hw fragment hmem habsent
          | unlink path =>
              obtain ⟨expired, hexpired, rfl, hisExpired⟩ := ho
              by_cases heq : fragment = expired
              · rw [heq]
                exact evidence_of_isExpired hresult hisExpired
              · -- another fragment has another path
                refine hw fragment hmem fun hpresent => habsent ?_
                simp only [EnforcerWorld.exec] at hx
                cases hfiles : w.files with
                | none =>
                    rw [hfiles] at hpresent
                    exact absurd hpresent List.not_mem_nil
                | some names =>
                    simp only [hfiles] at hx
                    rw [hfiles] at hpresent
                    split at hx
                    · simp only [Option.some.injEq, Prod.mk.injEq] at hx
                      rw [← hx.2]
                      refine List.mem_filter.mpr ⟨hpresent, decide_eq_true fun hpath => heq ?_⟩
                      exact osPathJoin_inj (plain_of_mem_storedNames hmem)
                        (plain_of_mem_storedNames hexpired) hpath
                    · simp only [Option.some.injEq, Prod.mk.injEq] at hx
                      rw [← hx.2, hfiles]
                      exact hpresent
        · exact fun fragment hmem habsent => absurd hmem habsent
      · intro hnone
        have hkeep : (purgeFragments dir client result (storedNames stored)).Only fun o =>
            ∀ path, o ≠ .unlink path := by
          refine Prog.only_mono (fun o ho path hpath => ?_) honly
          subst hpath
          obtain ⟨fragment, -, -, hexpired⟩ := ho
          exact hnone fragment (evidence_of_isExpired hresult hexpired)
        refine Prog.only_eval EnforcerWorld.files ?_ hkeep hrun
        exact fun o w r w' ho hx => files_exec hx ho

/-- One stored shard. -/
def oneShard : Listing := ⟨["s"], by decide, by decide⟩

/-- The body is an object whose `shards` is a list of strings without the fragment. -/
def ListEvidence (query : Option Response) (fragment : PyStr) : Prop :=
  ∃ (d : Dict) (ids : List PyStr), query = some ⟨200, some (.obj d)⟩ ∧
    Dict.get? "shards" d = some (.arr (ids.map Json.str)) ∧ fragment ∉ ids

/-- With this body, a cycle unlinks the stored shard without such a list. -/
def UnlinksShard (body : Dict) : Prop :=
  ∃ r w', (purgeAndClaim "Data" {}).eval (EnforcerWorld.exec (fun _ => true) "Data")
      (EnforcerWorld.start (some oneShard) (some ⟨200, some (.obj body)⟩) fun _ => none) =
        some (r, w') ∧
    ("s" : PyStr) ∉ fileNames w'.files ∧ ¬ ListEvidence (some ⟨200, some (.obj body)⟩) "s"

theorem unlinksShard_of {body : Dict}
    (hrun : (purgeAndClaim "Data" {}).eval (EnforcerWorld.exec (fun _ => true) "Data")
      (EnforcerWorld.start (some oneShard) (some ⟨200, some (.obj body)⟩) fun _ => none) =
        some (.ok (), ⟨some [], some ⟨200, some (.obj body)⟩, fun _ => none, []⟩))
    (hids : ∀ ids : List PyStr, Dict.get? "shards" body ≠ some (.arr (ids.map Json.str))) :
    UnlinksShard body := by
  refine ⟨_, _, hrun, List.not_mem_nil, ?_⟩
  rintro ⟨d, ids, hbody, hd, -⟩
  simp only [Option.some.injEq, Response.mk.injEq, Json.obj.injEq, true_and] at hbody
  exact hids ids (hbody ▸ hd)

/-- **No list of strings.**  A missing key counts as an empty list of contracts; a string, an
object and a list of something else are asked whether they contain the shard. -/
theorem unchecked_shards_unlink :
    UnlinksShard [("other", .str "data")] ∧ UnlinksShard [("shards", .str "x")] ∧
      UnlinksShard [("shards", .obj [])] ∧ UnlinksShard [("shards", .arr [.null])] := by
  refine ⟨unlinksShard_of ?_ ?_, unlinksShard_of ?_ ?_, unlinksShard_of ?_ ?_,
    unlinksShard_of ?_ ?_⟩
  all_goals first
    | (rw [eval_purgeAndClaim]; rfl)
    | (intro ids; simp [Dict.get?]; try (cases ids <;> simp))

/-! ## Complete cycles -/

/-- The query succeeds, and `active` are the contracts. -/
def ListsContracts (accepts : PyStr → Bool) (client : CoordinationClient)
    (query : Option Response) (active : List PyStr) : Prop :=
  accepts (client.buildUrl CoordinationClient.activeContractsRoute) = true ∧
    ∃ d, query = some ⟨200, some (.obj d)⟩ ∧
      Dict.get? "shards" d = some (.arr (active.map Json.str))

/-- The query does not succeed. -/
def QueryFails (accepts : PyStr → Bool) (client : CoordinationClient)
    (query : Option Response) : Prop :=
  ∀ result, queried accepts client query = .ok result → result.success = false

/-- Where the backend takes withdrawals. -/
def withdrawalUrl (client : CoordinationClient) (fragment : PyStr) : PyStr :=
  client.buildUrl (("/storage-nodes/me/contracts/" : PyStr) ++ fragment ++ ("/withdrawal" : PyStr))

/-- **The cycle is complete**: after a successful query it returns, the directory holds the
listed fragments that are active, and one withdrawal has been posted for each of them and
none for another one; after a failed query the directory is as before. -/
def CycleComplete (accepts : PyStr → Bool) (dir : PyStr) (client : CoordinationClient)
    (stored : Option Listing) (query : Option Response) (answers : ℕ → Option Response) : Prop :=
  ∃ r w', (purgeAndClaim dir client).eval (EnforcerWorld.exec accepts dir)
      (EnforcerWorld.start stored query answers) = some (r, w') ∧
    (∀ active, ListsContracts accepts client query active → r = .ok () ∧
      w'.files = stored.map (fun listing => listing.names.filter (· ∈ active)) ∧
      w'.posts.Perm (((storedNames stored).filter (· ∈ active)).map fun fragment =>
        (withdrawalUrl client fragment, some (CoordinationClient.shardBody fragment)))) ∧
    (QueryFails accepts client query → w'.files = stored.map Listing.names)

theorem queried_of_lists {accepts : PyStr → Bool} {client : CoordinationClient}
    {query : Option Response} {active : List PyStr}
    (h : ListsContracts accepts client query active) :
    queried accepts client query = .ok ⟨.arr (active.map Json.str), true⟩ := by
  obtain ⟨hurl, d, rfl, hids⟩ := h
  simp [queried, hurl, outcome, contractsOf, hids]

/-- A fragment without a contract has expired, one with a contract has not. -/
theorem isExpired_iff (active : List PyStr) (fragment : PyStr) :
    isExpired ⟨.arr (active.map Json.str), true⟩ fragment = .ok (decide (fragment ∉ active)) := by
  have hfound : (active.map Json.str).any (· == .str fragment) = decide (fragment ∈ active) := by
    rw [List.any_map, Bool.eq_iff_iff, List.any_eq_true, decide_eq_true_iff]
    constructor
    · rintro ⟨x, hx, heq⟩
      have : x = fragment := by simpa [beq_eq_pyEq, Json.pyEq] using heq
      exact this ▸ hx
    · exact fun h => ⟨fragment, h, by simp [beq_eq_pyEq, Json.pyEq]⟩
  simp only [isExpired, if_true, pyIn, hfound, Except.ok.injEq]
  by_cases h : fragment ∈ active <;> simp [h]

/-- **Nothing to claim**: the loop unlinks one fragment after the other. -/
theorem eval_purgeFragments_expired {accepts : PyStr → Bool} {dir : PyStr}
    {client : CoordinationClient} {result : ContractQueryResult} {stored : List PyStr}
    (hnodup : stored.Nodup) (hplain : ∀ n ∈ stored, n.head? ≠ some (.char '/'))
    (hexpired : ∀ n ∈ stored, isExpired result n = .ok true) {w : EnforcerWorld}
    (hfiles : w.files = some stored) :
    (purgeFragments dir client result stored).eval (EnforcerWorld.exec accepts dir) w =
      some (.ok (), { w with files := some [] }) := by
  induction stored generalizing w with
  | nil =>
      rw [← hfiles]
      rfl
  | cons fragment rest ih =>
      obtain ⟨hfresh, hnodup⟩ := List.nodup_cons.mp hnodup
      have hrest : (fragment :: rest).filter
          (fun n => osPathJoin dir n ≠ osPathJoin dir fragment) = rest := by
        rw [List.filter_cons_of_neg (by simp)]
        refine List.filter_eq_self.mpr fun n hn => decide_eq_true fun hpath => ?_
        have := osPathJoin_inj (hplain n (List.mem_cons_of_mem _ hn)) (hplain _ List.mem_cons_self)
          hpath
        exact hfresh (this ▸ hn)
      have hunlink : EnforcerWorld.exec accepts dir (.unlink (osPathJoin dir fragment)) w =
          some (.ok (), { w with files := some rest }) := by
        simp only [EnforcerWorld.exec, hfiles, hrest, List.any_cons, decide_true, Bool.true_or,
          if_true]
      have hone : (purgeOrClaim dir client result fragment).eval (EnforcerWorld.exec accepts dir) w =
          some (.ok (), { w with files := some rest }) := by
        unfold purgeOrClaim
        rw [hexpired fragment List.mem_cons_self]
        show (Prog.perform _).eval _ w = _
        rw [Prog.eval_perform, hunlink]
      rw [purgeFragments, Prog.bind_eq, Prog.eval_bind, hone]
      exact ih hnodup (fun n hn => hplain n (List.mem_cons_of_mem _ hn))
        (fun n hn => hexpired n (List.mem_cons_of_mem _ hn)) rfl

/-- The route of `withdraw_request` lacks the slash. -/
theorem withdrawalUrl_ne (client : CoordinationClient) (fragment g : PyStr) :
    withdrawalUrl client fragment ≠ client.buildUrl (CoordinationClient.withdrawalRoute g) := by
  intro h
  have hroute := List.append_cancel_left h
  rw [CoordinationClient.withdrawalRoute, List.append_assoc, List.append_assoc] at hroute
  exact absurd (congrArg List.head? hroute) (by
    show some (CodePoint.char '/') ≠ some (CodePoint.char 's')
    decide)

/-- So no post reaches the withdrawals. -/
theorem posts_miss {accepts : PyStr → Bool} {dir : PyStr} {client : CoordinationClient}
    {result : ContractQueryResult} {stored : List PyStr} {w w' : EnforcerWorld}
    {r : Except Exn Unit} (hw : w.posts = [])
    (h : (purgeFragments dir client result stored).eval (EnforcerWorld.exec accepts dir) w =
      some (r, w')) (fragment : PyStr) (body : Option Json) :
    (withdrawalUrl client fragment, body) ∉ w'.posts := by
  have hposts : ∀ p ∈ w'.posts, ∃ g, p.1 = client.buildUrl (CoordinationClient.withdrawalRoute g) := by
    refine Prog.only_inv (I := fun w => ∀ p ∈ w.posts,
      ∃ g, p.1 = client.buildUrl (CoordinationClient.withdrawalRoute g)) ?_
      (only_purgeFragments dir client result stored) ?_ h
    · intro o w r w' ho hw hx p hp
      cases o with
      | listDir path => exact ho.elim
      | unlink path =>
          have hsame : w'.posts = w.posts := by
            simp only [EnforcerWorld.exec] at hx
            split at hx
            · split at hx <;> (simp only [Option.some.injEq, Prod.mk.injEq] at hx; rw [← hx.2])
            · simp only [Option.some.injEq, Prod.mk.injEq] at hx
              rw [← hx.2]
          exact hw p (hsame ▸ hp)
      | http o =>
          cases o with
          | request method url json headers =>
              obtain ⟨rfl, g, rfl⟩ := ho
              simp only [EnforcerWorld.exec] at hx
              split at hx
              · rw [if_neg (by decide)] at hx
                simp only [Option.some.injEq, Prod.mk.injEq] at hx
                rw [← hx.2] at hp
                rcases List.mem_append.mp hp with hp | hp
                · exact hw p hp
                · rw [List.mem_singleton.mp hp]
                  exact ⟨g, rfl⟩
              · simp only [Option.some.injEq, Prod.mk.injEq] at hx
                exact hw p (hx.2 ▸ hp)
    · rw [hw]
      exact fun p hp => absurd hp List.not_mem_nil
  intro hmem
  obtain ⟨g, hg⟩ := hposts _ hmem
  exact withdrawalUrl_ne client fragment g hg

/-- **A cycle is complete exactly when it has nothing to claim**: a successful query that
lists a stored fragment makes the cycle post to a URL without the slash, which either is no
URL or not that of the withdrawal. -/
theorem cycle_complete_iff (accepts : PyStr → Bool) (dir : PyStr)
    (client : CoordinationClient) (stored : Option Listing) (query : Option Response)
    (answers : ℕ → Option Response) :
    CycleComplete accepts dir client stored query answers ↔
      ∀ active, ListsContracts accepts client query active →
        ∀ fragment ∈ storedNames stored, fragment ∉ active := by
  constructor
  · rintro ⟨r, w', hrun, hcomplete, -⟩ active hlists fragment hmem hactive
    obtain ⟨-, -, hposts⟩ := hcomplete active hlists
    rw [eval_purgeAndClaim] at hrun
    simp only [EnforcerWorld.start, queried_of_lists hlists] at hrun
    refine posts_miss rfl hrun fragment (some (CoordinationClient.shardBody fragment)) ?_
    refine hposts.mem_iff.mpr (List.mem_map.mpr ⟨fragment, ?_, rfl⟩)
    exact List.mem_filter.mpr ⟨hmem, decide_eq_true hactive⟩
  · intro hnone
    obtain ⟨r, w', hrun⟩ := exists_eval_purgeAndClaim accepts dir client
      (EnforcerWorld.start stored query answers)
    refine ⟨r, w', hrun, fun active hlists => ?_, fun hfails => ?_⟩
    · have hexpired : ∀ n ∈ storedNames stored,
          isExpired ⟨.arr (active.map Json.str), true⟩ n = .ok true := by
        intro n hn
        rw [isExpired_iff, decide_eq_true (hnone active hlists n hn)]
      have hfilter : (storedNames stored).filter (· ∈ active) = [] :=
        List.filter_eq_nil_iff.mpr fun n hn => by simpa using hnone active hlists n hn
      rw [eval_purgeAndClaim] at hrun
      simp only [EnforcerWorld.start, queried_of_lists hlists] at hrun
      cases stored with
      | none =>
          obtain ⟨rfl, rfl⟩ : r = .ok () ∧ w' = _ := by
            simpa [fileNames, purgeFragments, Prog.eval, eq_comm] using hrun
          exact ⟨rfl, rfl, .refl _⟩
      | some listing =>
          rw [show fileNames ((some listing).map Listing.names) = listing.names from rfl,
            eval_purgeFragments_expired listing.nodup listing.plain hexpired rfl] at hrun
          simp only [Option.some.injEq, Prod.mk.injEq] at hrun
          obtain ⟨rfl, rfl⟩ := hrun
          have hnames : listing.names.filter (· ∈ active) = [] := hfilter
          refine ⟨rfl, ?_, ?_⟩
          · rw [Option.map_some, hnames]
          · rw [hfilter]
            exact .refl _
    · rw [eval_purgeAndClaim] at hrun
      cases hresult : queried accepts client query with
      | error e =>
          simp only [EnforcerWorld.start, hresult, Option.some.injEq, Prod.mk.injEq] at hrun
          rw [← hrun.2]
      | ok result =>
          simp only [EnforcerWorld.start, hresult] at hrun
          have hkeep : (purgeFragments dir client result (storedNames stored)).Only fun o =>
              ∀ path, o ≠ .unlink path := by
            refine Prog.only_mono (fun o ho path hpath => ?_)
              (only_purgeFragments dir client result (storedNames stored))
            subst hpath
            obtain ⟨fragment, -, -, hexpired⟩ := ho
            rw [isExpired, hfails result hresult] at hexpired
            exact absurd hexpired (by simp)
          refine Prog.only_eval EnforcerWorld.files ?_ hkeep hrun
          exact fun o w r w' ho hx => files_exec hx ho

/-- What follows the colon of a URL's host is a number. -/
def portIsNumber (url : PyStr) : Bool :=
  let ends : PyStr := "/?#"
  let authority := (url.drop 7).takeWhile fun c => decide (c ∉ ends)
  ((authority.dropWhile (· ≠ .char ':')).drop 1).all fun
    | .char c => c.isDigit
    | .surrogate _ => false

/-- Two stored shards. -/
def twoShards : Listing := ⟨["a", "b"], by decide, by decide⟩

/-- The contracts say that the first one is active. -/
def firstActive : Response := ⟨200, some (.obj [("shards", .arr [.str "a"])])⟩

theorem firstActive_lists : ListsContracts portIsNumber {} (some firstActive) ["a"] :=
  ⟨by decide +kernel, _, rfl, by simp [Dict.get?]⟩

/-- **An active shard ends the cycle**: the port of
`http://localhost:5000storage-nodes/me/contracts/a/withdrawal` is no number, the `InvalidURL`
passes `_safe_post`, and the expired shard behind it stays. -/
theorem active_shard_ends_cycle :
    (∃ w', (purgeAndClaim "Data" {}).eval (EnforcerWorld.exec portIsNumber "Data")
        (EnforcerWorld.start (some twoShards) (some firstActive) fun _ => none) =
          some (.error .invalidUrl, w') ∧ w'.files = some twoShards.names ∧ w'.posts = []) ∧
      ¬ CycleComplete portIsNumber "Data" {} (some twoShards) (some firstActive) fun _ => none := by
  have hrefused : portIsNumber (CoordinationClient.buildUrl {}
      (CoordinationClient.withdrawalRoute "a")) = false := by decide +kernel
  have hraises : refusal (CoordinationClient.buildUrl {}
      (CoordinationClient.withdrawalRoute "a")) = .invalidUrl := by decide +kernel
  have hrun : (purgeAndClaim "Data" {}).eval (EnforcerWorld.exec portIsNumber "Data")
      (EnforcerWorld.start (some twoShards) (some firstActive) fun _ => none) =
        some (.error .invalidUrl,
          EnforcerWorld.start (some twoShards) (some firstActive) fun _ => none) := by
    have hfirst : isExpired ⟨.arr ([("a" : PyStr)].map Json.str), true⟩ "a" = .ok false :=
      isExpired_iff [("a" : PyStr)] "a"
    have hone : ∀ w : EnforcerWorld, (purgeOrClaim "Data" {} ⟨.arr ([("a" : PyStr)].map Json.str), true⟩ "a").eval
        (EnforcerWorld.exec portIsNumber "Data") w = some (.error .invalidUrl, w) := by
      intro w
      unfold purgeOrClaim
      rw [hfirst]
      show (CoordinationClient.withdrawRequest {} "a").run.eval _ w = _
      rw [eval_withdrawRequest, hrefused, hraises]
      rfl
    rw [eval_purgeAndClaim]
    simp only [EnforcerWorld.start, queried_of_lists firstActive_lists]
    show (purgeFragments "Data" {} _ ["a", "b"]).eval _ _ = _
    rw [purgeFragments, Prog.bind_eq, Prog.eval_bind, hone]
  refine ⟨⟨_, hrun, rfl, rfl⟩, ?_⟩
  rintro ⟨r, w', hrun', hcomplete, -⟩
  rw [hrun, Option.some.injEq, Prod.mk.injEq] at hrun'
  have hok := (hcomplete ["a"] firstActive_lists).1
  rw [← hrun'.1] at hok
  exact absurd hok (by simp)

end ContractEnforcer
