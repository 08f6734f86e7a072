/-
# The cycles of the contract enforcer

`run_forever` of `ContractEnforcer`, and the local variables of a cycle: the names its loop
still has to come to, and what the query has given.

* `ContractEnforcer.runForever` : one cycle after the other;
* `Cycle`, `Cycle.after` : the local variables, followed along the operations;
* `Cycle.Dooms` : the paths the cycle is going to unlink;
* `Follows` : whatever is answered, a program unlinks only what its cycle dooms;
* `follows_runForever` : the enforcer does so.
-/
import StorageNode.ContractEnforcer

namespace ContractEnforcer

/-- `run_forever`, with at most `rounds` cycles; the `sleep` between them does nothing. -/
def runForever (dataDirectory : PyStr) (client : CoordinationClient) : ℕ → Enforcer Unit
  | 0 => .hang
  | rounds + 1 => do
      purgeAndClaim dataDirectory client
      runForever dataDirectory client rounds

/-! ## The local variables -/

/-- The local variables of `_purge_and_claim`: `stored`, from behind the last fragment that
was unlinked on, and what the query gave. -/
structure Cycle where
  stored : List PyStr := []
  result : Option ContractQueryResult := none

/-- The query of a cycle is its only GET request. -/
def isQuery : EnforcerOp → Bool
  | .http (.request .get _ _ _) => true
  | _ => false

/-- The names behind the first one that leads to `path`. -/
def behind (dir path : PyStr) (stored : List PyStr) : List PyStr :=
  (stored.dropWhile fun n => osPathJoin dir n ≠ path).tail

namespace Cycle

/-- The local variables after an operation. -/
def after (dir : PyStr) (cycle : Cycle) : (o : EnforcerOp) → Except Exn o.Res → Cycle
  | .listDir _, .ok names => { stored := names }
  | .listDir _, .error _ => {}
  | .unlink path, _ => { cycle with stored := behind dir path cycle.stored }
  | .http (.request .get _ _ _), r => { cycle with result := (contractsOf r).toOption }
  | .http (.request _ _ _ _), _ => cycle

/-- **The cycle is going to unlink the path**: the query has been answered, and the answer
leaves out a fragment the loop has still to come to. -/
def Dooms (dir : PyStr) (cycle : Cycle) (path : PyStr) : Prop :=
  ∃ result ∈ cycle.result, ∃ fragment ∈ cycle.stored,
    osPathJoin dir fragment = path ∧ isExpired result fragment = .ok true

instance (dir : PyStr) (cycle : Cycle) (path : PyStr) : Decidable (cycle.Dooms dir path) :=
  inferInstanceAs (Decidable (∃ _ ∈ _, _))

/-- Before the query nothing is doomed. -/
theorem not_dooms_of_none {dir path : PyStr} {cycle : Cycle} (h : cycle.result = none) :
    ¬ cycle.Dooms dir path := by
  rintro ⟨result, hresult, -⟩
  rw [h] at hresult
  exact absurd hresult (by simp)

/-- Fewer names doom fewer paths. -/
theorem Dooms.mono {dir path : PyStr} {cycle : Cycle} {stored : List PyStr}
    (hsub : stored ⊆ cycle.stored) (h : ({ cycle with stored := stored } : Cycle).Dooms dir path) :
    cycle.Dooms dir path := by
  obtain ⟨result, hresult, fragment, hmem, hrest⟩ := h
  exact ⟨result, hresult, fragment, hsub hmem, hrest⟩

end Cycle

theorem behind_subset (dir path : PyStr) (stored : List PyStr) :
    behind dir path stored ⊆ stored :=
  fun _ h => (List.dropWhile_sublist _).subset ((List.tail_sublist _).subset h)

/-- What follows a name still follows when that name is unlinked. -/
theorem suffix_behind {dir fragment : PyStr} {rest stored : List PyStr}
    (h : fragment :: rest <:+ stored) :
    rest <:+ behind dir (osPathJoin dir fragment) stored := by
  obtain ⟨skipped, rfl⟩ := h
  unfold behind
  induction skipped with
  | nil => simp
  | cons name skipped ih =>
      by_cases hname : osPathJoin dir name = osPathJoin dir fragment
      · refine ⟨skipped ++ [fragment], ?_⟩
        simp [hname]
      · simpa [hname] using ih

/-! ## What the enforcer unlinks -/

/-- Whatever is answered, an unlinked path is one the cycle has doomed. -/
def Follows (dir : PyStr) {α : Type} : Enforcer α → Cycle → Prop
  | .call o k, cycle =>
      (∀ path, o = .unlink path → cycle.Dooms dir path) ∧
        ∀ r, Follows dir (k r) (cycle.after dir o r)
  | _, _ => True

section Follows

variable {dir : PyStr} {client : CoordinationClient}

/-- `_collect_stored_fragments` is one listing. -/
theorem collectStoredFragments_eq (dir : PyStr) :
    collectStoredFragments dir = .call (.listDir dir) fun
      | .ok names => .ret names
      | .error e => if e = Exn.fileNotFound then .ret [] else .raise e := by
  unfold collectStoredFragments enforcerOp Prog.perform
  rw [Prog.tryExcept]
  refine congrArg (Prog.call (EnforcerOp.listDir dir)) (funext fun r => ?_)
  cases r with
  | ok names => rfl
  | error e => rfl

/-- `get_active_contracts` is one query. -/
theorem run_getActiveContracts (client : CoordinationClient) :
    client.getActiveContracts.run =
      .call (.http (.request .get (client.buildUrl CoordinationClient.activeContractsRoute) none
        client.authHeaders)) fun r => Prog.ofExcept (contractsOf r) := by
  refine congrArg (Prog.call _) (funext fun r => ?_)
  cases r with
  | error e =>
      by_cases he : e = Exn.requestError
      · subst he
        rfl
      · simp [Prog.tryExcept, Prog.bind, Prog.inject, contractsOf, he, Prog.ofExcept]
  | ok response =>
      obtain ⟨status, body⟩ := response
      by_cases hstatus : status = 200
      · subst hstatus
        cases body with
        | none => rfl
        | some v => cases v <;> rfl
      · simp [Prog.tryExcept, Prog.bind, Prog.inject, contractsOf, hstatus, Prog.ofExcept]

/-- `withdraw_request` is one request. -/
theorem run_withdrawRequest (client : CoordinationClient) (fragment : PyStr) :
    (client.withdrawRequest fragment).run =
      .call (.http (.request .post
        (client.buildUrl (CoordinationClient.withdrawalRoute fragment))
        (some (CoordinationClient.shardBody fragment)) client.authHeaders)) fun r =>
          Prog.ofExcept (reportedOf r) := by
  refine congrArg (Prog.call _) (funext fun r => ?_)
  cases r with
  | ok response => rfl
  | error e =>
      by_cases he : e = Exn.requestError
      · subst he
        rfl
      · simp [Prog.tryExcept, Prog.bind, Prog.inject, reportedOf, he, Prog.ofExcept]

/-- The loop, and what comes after it. -/
theorem follows_purgeFragments {result : ContractQueryResult} {p : Enforcer Unit}
    (hp : ∀ cycle, Follows dir p cycle) {rest : List PyStr} {cycle : Cycle}
    (hresult : cycle.result = some result) (hrest : rest <:+ cycle.stored) :
    Follows dir ((purgeFragments dir client result rest).bind fun _ => p) cycle := by
  induction rest generalizing cycle with
  | nil => exact hp cycle
  | cons fragment rest ih =>
      have htail : rest <:+ cycle.stored := (List.suffix_cons fragment rest).trans hrest
      rw [purgeFragments, Prog.bind_eq, Prog.bind_assoc, purgeOrClaim]
      cases hexpired : isExpired result fragment with
      | error e => trivial
      | ok expired =>
          cases expired with
          | true =>
              -- it is unlinked, and the loop goes on behind it
              refine ⟨fun path hpath => ?_, fun r => ?_⟩
              · obtain rfl := EnforcerOp.unlink.inj hpath
                exact ⟨result, hresult, fragment, hrest.subset List.mem_cons_self, rfl, hexpired⟩
              · cases r with
                | error e => trivial
                | ok u => exact ih hresult (suffix_behind hrest)
          | false =>
              show Follows dir (((client.withdrawRequest fragment).run).bind _) cycle
              rw [run_withdrawRequest]
              refine ⟨fun path hpath => absurd hpath (by simp), fun r => ?_⟩
              show Follows dir ((Prog.ofExcept (reportedOf r)).bind _) cycle
              cases reportedOf r with
              | error e => trivial
              | ok u => exact ih hresult htail

/-- One cycle, and what comes after it. -/
theorem follows_purgeAndClaim {p : Enforcer Unit} (hp : ∀ cycle, Follows dir p cycle)
    (cycle : Cycle) :
    Follows dir ((purgeAndClaim dir client).bind fun _ => p) cycle := by
  -- the query and the loop, from what was listed
  have hquery : ∀ stored, Follows dir
      ((client.getActiveContracts.run.bind fun result =>
        purgeFragments dir client result stored).bind fun _ => p) { stored := stored } := by
    intro stored
    rw [run_getActiveContracts]
    refine ⟨fun path hpath => absurd hpath (by simp), fun r => ?_⟩
    show Follows dir (((Prog.ofExcept (contractsOf r)).bind _).bind _)
      { stored := stored, result := (contractsOf r).toOption }
    cases contractsOf r with
    | error e => trivial
    | ok result => exact follows_purgeFragments hp rfl List.suffix_rfl
  simp only [purgeAndClaim, collectStoredFragments_eq, Prog.bind_eq]
  refine ⟨fun path hpath => absurd hpath (by simp), fun r => ?_⟩
  cases r with
  | ok names => exact hquery names
  | error e =>
      by_cases he : e = Exn.fileNotFound
      · subst he
        exact hquery []
      · show Follows dir (((if e = Exn.fileNotFound then Prog.ret [] else Prog.raise e).bind
          _).bind _) {}
        rw [if_neg he]
        trivial

/-- **The enforcer unlinks what its cycle dooms, and nothing else.** -/
theorem follows_runForever (dir : PyStr) (client : CoordinationClient) (rounds : ℕ)
    (cycle : Cycle) : Follows dir (runForever dir client rounds) cycle := by
  induction rounds generalizing cycle with
  | zero => trivial
  | succ rounds ih => exact follows_purgeAndClaim ih cycle

end Follows

end ContractEnforcer
