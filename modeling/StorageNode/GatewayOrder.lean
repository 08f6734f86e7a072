/-
# The order of the gateways

`forward_port`, `is_port_open` and the older `forward_port` fold the outcomes of the gateways
(success, failure, not applicable) into one value.

* `Gateway.result` : the outcome of a gateway, the same for every kind of request;
* `anySuccess_perm`, `lastOutcome_of_no_failure`, `lastOutcome_of_no_success` : the folds;
* `outcomes_combine_iff` : the three results are those of every permutation, and a reported
  mapping is seen, exactly when there are not both successes and failures;
* `mapped_port_taken_for_free` : a router that does not know the port hides one that does.
-/
import StorageNode.GatewayFaults

open RouterPortManager

/-! ## Outcomes -/

/-- The outcome of a gateway; it does not depend on what is asked for. -/
def Gateway.result (checks : UrlParse.UrlChecks) (args : PortArgs) (g : Text × Gateway) :
    Except RouterExn (Option Bool) :=
  (g.2.answer { checks, action := [], payload := fun _ _ => ⟨[], [], [], []⟩, args } g.1).1

theorem answer_eq_result (k : Gateway.Kind) (g : Text × Gateway) :
    (g.2.answer k g.1).1 = Gateway.result k.checks k.args g := by
  unfold Gateway.result Gateway.answer Gateway.request
  cases urlResult (UrlParse.urlparse k.checks g.1) with
  | error e => rfl
  | ok parsed =>
      simp only [ok_bind]
      cases g.2.service with
      | error e => rfl
      | ok service =>
          cases service with
          | none => rfl
          | some info =>
              simp only [ok_bind, Gateway.requestTo]
              split
              · rfl
              · cases g.2.target k.args with
                | error e => rfl
                | ok target =>
                    cases Gateway.requestUrl k.checks parsed info.controlPath with
                    | error e => rfl
                    | ok url => rfl

/-- The outcome of a gateway that does not raise. -/
def Gateway.fixed (checks : UrlParse.UrlChecks) (args : PortArgs) (g : Text × Gateway) :
    Option Bool :=
  (Gateway.result checks args g).toOption.getD none

/-- A loop over gateways that do not raise is a fold of their outcomes. -/
theorem runGateways_of_results {update : Bool → Option Bool → Bool} {k : Gateway.Kind}
    {gs : List (Text × Gateway)} {result : Bool}
    (h : ∀ g ∈ gs, ∃ o, Gateway.result k.checks k.args g = .ok o) :
    (runGateways update k result gs).1 =
      .ok ((gs.map (Gateway.fixed k.checks k.args)).foldl update result) := by
  induction gs generalizing result with
  | nil => rfl
  | cons g rest ih =>
      rw [List.forall_mem_cons] at h
      obtain ⟨⟨o, ho⟩, hrest⟩ := h
      have hfixed : Gateway.fixed k.checks k.args g = o := by
        rw [Gateway.fixed, ho]
        rfl
      rw [runGateways_cons, answer_eq_result, ho, List.map_cons, List.foldl_cons, hfixed]
      exact ih hrest

/-- A gateway with this outcome is listed. -/
theorem mem_fixed {checks : UrlParse.UrlChecks} {args : PortArgs} {gs : List (Text × Gateway)}
    {b : Bool} (h : ∀ g ∈ gs, ∃ o, Gateway.result checks args g = .ok o) :
    some b ∈ gs.map (Gateway.fixed checks args) ↔
      ∃ g ∈ gs, Gateway.result checks args g = .ok (some b) := by
  rw [List.mem_map]
  refine exists_congr fun g => and_congr_right fun hg => ?_
  obtain ⟨o, ho⟩ := h g hg
  rw [Gateway.fixed, ho, Except.ok.injEq]
  rfl

/-! ## The folds -/

instance : RightCommutative anySuccess where
  right_comm result o o' := by
    unfold anySuccess
    split <;> split <;> rfl

/-- **Any success**: the order of the outcomes does not matter. -/
theorem anySuccess_perm {os os' : List (Option Bool)} (h : os'.Perm os) (result : Bool) :
    os'.foldl anySuccess result = os.foldl anySuccess result :=
  h.foldl_eq result

theorem lastOutcome_of_no_failure {os : List (Option Bool)} (h : some false ∉ os) (result : Bool) :
    os.foldl lastOutcome result = os.foldl anySuccess result := by
  induction os generalizing result with
  | nil => rfl
  | cons o os ih =>
      rw [List.mem_cons, not_or] at h
      have hstep : lastOutcome result o = anySuccess result o := by
        unfold lastOutcome anySuccess
        rw [if_neg (Ne.symm h.1)]
      rw [List.foldl_cons, List.foldl_cons, hstep]
      exact ih h.2 _

theorem lastOutcome_of_no_success {os : List (Option Bool)} (h : some true ∉ os) :
    os.foldl lastOutcome false = false := by
  induction os with
  | nil => rfl
  | cons o os ih =>
      rw [List.mem_cons, not_or] at h
      have hstep : lastOutcome false o = false := by
        unfold lastOutcome
        rw [if_neg (Ne.symm h.1), ite_self]
      rw [List.foldl_cons, hstep]
      exact ih h.2

theorem anySuccess_of_mem {os : List (Option Bool)} (h : some true ∈ os) (result : Bool) :
    os.foldl anySuccess result = true := by
  obtain ⟨pre, post, rfl⟩ := List.append_of_mem h
  have hlater : ∀ os : List (Option Bool), os.foldl anySuccess true = true := by
    intro os
    induction os with
    | nil => rfl
    | cons o os ih =>
        have hstep : anySuccess true o = true := ite_self true
        rw [List.foldl_cons, hstep]
        exact ih
  rw [List.foldl_append, List.foldl_cons]
  exact hlater post

/-- **The last outcome**: the order does not matter unless there are successes and
failures. -/
theorem lastOutcome_perm {os os' : List (Option Bool)} (h : os'.Perm os)
    (hnot : ¬ (some true ∈ os ∧ some false ∈ os)) :
    os'.foldl lastOutcome false = os.foldl lastOutcome false := by
  by_cases hfail : some false ∈ os
  · have hsuccess : some true ∉ os := fun h' => hnot ⟨h', hfail⟩
    rw [lastOutcome_of_no_success hsuccess,
      lastOutcome_of_no_success fun h' => hsuccess (h.mem_iff.mp h')]
  · rw [lastOutcome_of_no_failure hfail,
      lastOutcome_of_no_failure fun h' => hfail (h.mem_iff.mp h')]
    exact anySuccess_perm h false

/-! ## The calls -/

/-- **A call does not depend on the order** of the gateways it finds. -/
def OrderFree (discover : Router (List Text)) (call : Router Bool) (gs : List (Text × Gateway)) :
    Prop :=
  ∀ gs', gs'.Perm gs → ∀ w w', Finds discover w gs → Finds discover w' gs' →
    ∃ b v v', call.eval Network.exec w = some (.ok b, v) ∧
      call.eval Network.exec w' = some (.ok b, v')

section Calls

variable {discover : Router (List Text)} {call : Router Bool} {update : Bool → Option Bool → Bool}
  {checks : UrlParse.UrlChecks} {args : PortArgs} {gs : List (Text × Gateway)}

/-- What a call comes to is the fold of the outcomes it finds. -/
def Folds (discover : Router (List Text)) (call : Router Bool) (checks : UrlParse.UrlChecks)
    (args : PortArgs) (update : Bool → Option Bool → Bool) : Prop :=
  ∀ gs w, Finds discover w gs → (∀ g ∈ gs, ∃ o, Gateway.result checks args g = .ok o) →
    ∃ w', call.eval Network.exec w =
      some (.ok ((gs.map (Gateway.fixed checks args)).foldl update false), w')

/-- A fold that no permutation changes makes a call that does not depend on the order. -/
theorem orderFree_of_perm (hfolds : Folds discover call checks args update)
    (hfixed : ∀ g ∈ gs, ∃ o, Gateway.result checks args g = .ok o)
    (hperm : ∀ os' : List (Option Bool), os'.Perm (gs.map (Gateway.fixed checks args)) →
      os'.foldl update false = (gs.map (Gateway.fixed checks args)).foldl update false) :
    OrderFree discover call gs := by
  intro gs' hgs w w' hw hw'
  obtain ⟨v, hv⟩ := hfolds gs w hw hfixed
  obtain ⟨v', hv'⟩ := hfolds gs' w' hw' fun g hg => hfixed g (hgs.mem_iff.mp hg)
  rw [hperm _ (hgs.map _)] at hv'
  exact ⟨_, v, v', hv, hv'⟩

theorem folds_forwardPort (manager : RouterPortManager) (fuel : ℕ) (eport iport : ℤ)
    (args : PortArgs) :
    Folds (manager.discoverGateways fuel) (manager.forwardPort fuel eport iport args)
      manager.checks args anySuccess := by
  intro gs w hfinds hfixed
  obtain ⟨w', heval, -⟩ := eval_forwardPort manager eport iport args hfinds
  refine ⟨w', ?_⟩
  rw [heval, runGateways_of_results
    (k := managerKind manager (forwardAction args) eport iport args) hfixed,
    managerKind_checks, managerKind_args]

theorem folds_isPortOpen (manager : RouterPortManager) (fuel : ℕ) (extPort : ℤ)
    (intPort : Option ℤ) (args : PortArgs) :
    Folds (manager.discoverGateways fuel) (manager.isPortOpen fuel extPort intPort args)
      manager.checks args lastOutcome := by
  intro gs w hfinds hfixed
  obtain ⟨w', heval⟩ := eval_isPortOpen manager extPort intPort args hfinds
  refine ⟨w', ?_⟩
  rw [heval, runGateways_of_results (k := managerKind manager queryAction extPort _ args) hfixed,
    managerKind_checks, managerKind_args]

theorem folds_legacyForwardPort (client : PortForwardingClient) (fuel : ℕ)
    (externalPort internalPort : ℤ) (args : PortArgs) :
    Folds (client.discoverWithRetry fuel) (client.forwardPort fuel externalPort internalPort args)
      client.checks args lastOutcome := by
  intro gs w hfinds hfixed
  obtain ⟨w', heval⟩ := eval_legacyForwardPort client externalPort internalPort args hfinds
  refine ⟨w', ?_⟩
  rw [heval, runGateways_of_results (k := clientKind client externalPort internalPort args) hfixed,
    clientKind_checks, clientKind_args]

/-- With a gateway of some outcome at the end, that outcome is the result. -/
theorem exists_perm_last {b : Bool} {g : Text × Gateway} (hg : g ∈ gs)
    (hb : Gateway.result checks args g = .ok (some b)) :
    ∃ gs', gs'.Perm gs ∧ gs' ≠ [] ∧
      (gs'.map (Gateway.fixed checks args)).foldl lastOutcome false = b := by
  obtain ⟨pre, post, rfl⟩ := List.append_of_mem hg
  refine ⟨(pre ++ post) ++ [g], ?_, List.concat_ne_nil g _, ?_⟩
  · rw [List.append_assoc]
    exact List.Perm.append_left pre List.perm_append_comm
  · have hfixed : Gateway.fixed checks args g = some b := by
      rw [Gateway.fixed, hb]
      rfl
    rw [List.map_append, List.foldl_append, List.map_singleton, List.foldl_cons, List.foldl_nil,
      hfixed]
    cases b <;> rfl

/-- **Both outcomes** make the last one decide. -/
theorem not_orderFree (hfolds : Folds discover call checks args lastOutcome)
    (hfinds : ∀ gs : List (Text × Gateway), gs ≠ [] → ∃ w, Finds discover w gs)
    (hfixed : ∀ g ∈ gs, ∃ o, Gateway.result checks args g = .ok o)
    (hsuccess : ∃ g ∈ gs, Gateway.result checks args g = .ok (some true))
    (hfailure : ∃ g ∈ gs, Gateway.result checks args g = .ok (some false)) :
    ¬ OrderFree discover call gs := by
  intro hfree
  obtain ⟨g₁, hg₁, h₁⟩ := hsuccess
  obtain ⟨g₂, hg₂, h₂⟩ := hfailure
  obtain ⟨w, hw⟩ := hfinds gs (List.ne_nil_of_mem hg₁)
  -- the call on `gs` itself is compared with one that ends in a success and one that ends in
  -- a failure
  have hvalue : ∀ (b : Bool) (g : Text × Gateway), g ∈ gs →
      Gateway.result checks args g = .ok (some b) →
      ∃ v, call.eval Network.exec w = some (.ok b, v) := by
    intro b g hg hb
    obtain ⟨gs', hperm, hne, hlast⟩ := exists_perm_last hg hb
    obtain ⟨w', hw'⟩ := hfinds gs' hne
    obtain ⟨b', v, v', hv, hv'⟩ := hfree gs' hperm w w' hw hw'
    obtain ⟨v₁, hv₁⟩ := hfolds gs' w' hw' fun g hg => hfixed g (hperm.mem_iff.mp hg)
    rw [hv', Option.some.injEq, Prod.mk.injEq, Except.ok.injEq, hlast] at hv₁
    rw [hv₁.1] at hv
    exact ⟨v, hv⟩
  obtain ⟨v₁, hv₁⟩ := hvalue true g₁ hg₁ h₁
  obtain ⟨v₂, hv₂⟩ := hvalue false g₂ hg₂ h₂
  rw [hv₁] at hv₂
  cases hv₂

end Calls

/-- **When the outcomes combine independently of their order.**  For gateways none of which
raises: `forward_port`, `is_port_open` and the older `forward_port` return the same for every
permutation, and `is_port_open` sees every reported mapping, exactly when the gateways do not
include both a success and a failure. -/
theorem outcomes_combine_iff (manager : RouterPortManager) (retryTimeout : ℤ) (fuel : ℕ)
    (eport iport extPort : ℤ) (intPort : Option ℤ) (args : PortArgs) (gs : List (Text × Gateway))
    (hfixed : ∀ g ∈ gs, ∃ o, Gateway.result manager.checks args g = .ok o) :
    (OrderFree (manager.discoverGateways (fuel + 1))
        (manager.forwardPort (fuel + 1) eport iport args) gs ∧
      OrderFree (manager.discoverGateways (fuel + 1))
        (manager.isPortOpen (fuel + 1) extPort intPort args) gs ∧
      OrderFree (PortForwardingClient.discoverWithRetry ⟨retryTimeout, manager.checks⟩ (fuel + 1))
        (PortForwardingClient.forwardPort ⟨retryTimeout, manager.checks⟩ (fuel + 1) eport iport
          args) gs ∧
      ((∃ g ∈ gs, Gateway.result manager.checks args g = .ok (some true)) →
        ∀ w, Finds (manager.discoverGateways (fuel + 1)) w gs →
          ∃ w', (manager.isPortOpen (fuel + 1) extPort intPort args).eval Network.exec w =
            some (.ok true, w'))) ↔
      ¬ ((∃ g ∈ gs, Gateway.result manager.checks args g = .ok (some true)) ∧
        ∃ g ∈ gs, Gateway.result manager.checks args g = .ok (some false)) := by
  constructor
  · rintro ⟨-, hopen, -, -⟩ ⟨hsuccess, hfailure⟩
    exact not_orderFree (folds_isPortOpen manager (fuel + 1) extPort intPort args)
      (fun gs hne => ⟨_, finds_scannedNetwork manager fuel hne⟩) hfixed hsuccess hfailure hopen
  · intro hnot
    have hnot' : ¬ (some true ∈ gs.map (Gateway.fixed manager.checks args) ∧
        some false ∈ gs.map (Gateway.fixed manager.checks args)) := by
      rw [mem_fixed hfixed, mem_fixed hfixed]
      exact hnot
    refine ⟨?_, ?_, ?_, ?_⟩
    · exact orderFree_of_perm (folds_forwardPort manager (fuel + 1) eport iport args) hfixed
        fun os' hos' => anySuccess_perm hos' false
    · exact orderFree_of_perm (folds_isPortOpen manager (fuel + 1) extPort intPort args) hfixed
        fun os' hos' => lastOutcome_perm hos' hnot'
    · exact orderFree_of_perm
        (folds_legacyForwardPort ⟨retryTimeout, manager.checks⟩ (fuel + 1) eport iport args) hfixed
        fun os' hos' => lastOutcome_perm hos' hnot'
    · intro hsuccess w hw
      obtain ⟨w', heval⟩ := folds_isPortOpen manager (fuel + 1) extPort intPort args gs w hw hfixed
      have hmem := (mem_fixed hfixed).mpr hsuccess
      rw [lastOutcome_of_no_failure fun hfail => hnot' ⟨hmem, hfail⟩, anySuccess_of_mem hmem]
        at heval
      exact ⟨w', heval⟩

/-! ## Two routers -/

/-- A router that answers 500, as one does that has no entry for the port. -/
def refusingGateway : Text × Gateway :=
  ("http://192.168.1.2:5000/rootDesc.xml".toList, { goodGateway.2 with post := .ok 500 })

/-- The theorem at a device that does not answer and a router that reports the mapping. -/
theorem outcomes_combine_silent :
    OrderFree (lenientManager.discoverGateways 1) (lenientManager.isPortOpen 1 6000 none {})
        [silentGateway, goodGateway] ∧
      ∃ w', (lenientManager.isPortOpen 1 6000 none {}).eval Network.exec
        (scannedNetwork [silentGateway, goodGateway]) = some (.ok true, w') := by
  have hresults : Gateway.result lenientManager.checks {} silentGateway = .ok none ∧
      Gateway.result lenientManager.checks {} goodGateway = .ok (some true) := ⟨rfl, rfl⟩
  obtain ⟨-, hopen, -, hsees⟩ := (outcomes_combine_iff lenientManager 10000 0 6000 6000 6000 none {}
    [silentGateway, goodGateway] (by
      intro g hg
      rcases List.mem_pair.mp hg with rfl | rfl
      · exact ⟨_, hresults.1⟩
      · exact ⟨_, hresults.2⟩)).mpr (by
      rintro ⟨-, g, hg, hfail⟩
      rcases List.mem_pair.mp hg with rfl | rfl
      · rw [hresults.1] at hfail
        cases hfail
      · rw [hresults.2] at hfail
        cases hfail)
  exact ⟨hopen, hsees ⟨goodGateway, List.mem_pair.mpr (Or.inr rfl), hresults.2⟩ _
    (finds_scannedNetwork lenientManager 0 (List.cons_ne_nil _ _))⟩

/-- **A mapped port is taken for free.**  The first router reports the mapping and the second
does not; `is_port_open` returns `False`, and `True` with the routers the other way round. -/
theorem mapped_port_taken_for_free :
    Gateway.result lenientManager.checks {} goodGateway = .ok (some true) ∧
      (∃ w', (lenientManager.isPortOpen 1 6000 none {}).eval Network.exec
        (scannedNetwork [goodGateway, refusingGateway]) = some (.ok false, w')) ∧
      ¬ OrderFree (lenientManager.discoverGateways 1) (lenientManager.isPortOpen 1 6000 none {})
        [goodGateway, refusingGateway] := by
  refine ⟨rfl, ⟨_, rfl⟩, fun hfree => ?_⟩
  obtain ⟨b, v, v', hv, hv'⟩ := hfree [refusingGateway, goodGateway] (List.Perm.swap _ _ _)
    (scannedNetwork [goodGateway, refusingGateway]) (scannedNetwork [refusingGateway, goodGateway])
    ⟨rfl, ⟨_, rfl⟩⟩ ⟨rfl, ⟨_, rfl⟩⟩
  have hfalse : ∃ w, (lenientManager.isPortOpen 1 6000 none {}).eval Network.exec
      (scannedNetwork [goodGateway, refusingGateway]) = some (.ok false, w) := ⟨_, rfl⟩
  have htrue : ∃ w, (lenientManager.isPortOpen 1 6000 none {}).eval Network.exec
      (scannedNetwork [refusingGateway, goodGateway]) = some (.ok true, w) := ⟨_, rfl⟩
  obtain ⟨w₁, hfalse⟩ := hfalse
  obtain ⟨w₂, htrue⟩ := htrue
  rw [hfalse, Option.some.injEq, Prod.mk.injEq, Except.ok.injEq] at hv
  rw [htrue, Option.some.injEq, Prod.mk.injEq, Except.ok.injEq] at hv'
  exact absurd (hv.1.trans hv'.1.symm) Bool.false_ne_true
