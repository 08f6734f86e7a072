/-
# The older port forwarder and the newer one

`PortForwardingClient.forward_port` next to `RouterPortManager.forward_port`, on the same
gateways: the requests differ in their action and description only, and the results in
whether the last gateway counts or any.

* `asLegacy` : the older request for a newer one;
* `answer_asLegacy` : one gateway is asked by both or by neither, and answers alike;
* `anySuccess_sent`, `lastOutcome_sent` : the results, from the requests that were made;
* `forwarders_agree` : the two calls.
-/
import StorageNode.GatewayOrder

open RouterPortManager

/-! ## Requests -/

/-- What the older forwarder sends where the newer one sends this: it always adds a mapping,
one that is not enabled when it is to be removed, and describes it in its own words. -/
def asLegacy (args : PortArgs) (r : SoapRequest) : SoapRequest where
  url := r.url
  content :=
    { r.content with
      action := "u:".toList ++ addAction
      fields := r.content.fields.map fun field =>
        if field.1 = "NewPortMappingDescription".toList then
          (field.1, args.description.getD SoapPortMapper.defaultLabel)
        else field }
  headers := (r.content.actionAttributes.map fun xmlns =>
    ("SOAPAction".toList, xmlns.2 ++ '#' :: addAction)) ++ r.headers.tail

/-- The older form of a request and what came of it. -/
def asLegacyPosted (args : PortArgs) (p : Posted) : Posted := (asLegacy args p.1, p.2)

/-- The request of a kind to a service. -/
def requestOf (k : Gateway.Kind) (serviceType : Text) (target : Option Text) (url : Text) :
    SoapRequest where
  url := url
  content := k.payload serviceType target
  headers := [("SOAPAction".toList, serviceType ++ '#' :: k.action),
    ("Content-Type".toList, "text/xml".toList)]

section One

variable {checks : UrlParse.UrlChecks} {manager : RouterPortManager}
  {client : PortForwardingClient} {action : Text} {eport iport : ℤ} {args : PortArgs}

/-- The requests are those of the two programs. -/
theorem requestOf_asLegacy (serviceType : Text) (target : Option Text) (url : Text) :
    requestOf (clientKind client eport iport args) serviceType target url =
      asLegacy args (requestOf (managerKind manager action eport iport args) serviceType target
        url) := by
  unfold asLegacy requestOf managerKind clientKind SoapPortMapper.buildAddMappingXml
    SoapRequestBuilder.buildPortMappingXml
  rfl

/-- Two kinds with the same arguments, whose requests correspond, are answered alike. -/
theorem answer_map {k k' : Gateway.Kind} {f : SoapRequest → SoapRequest}
    (hchecks : k'.checks = k.checks) (hargs : k'.args = k.args)
    (hf : ∀ serviceType target url, requestOf k' serviceType target url =
      f (requestOf k serviceType target url)) (g : Text × Gateway) :
    g.2.answer k' g.1 =
      ((g.2.answer k g.1).1, (g.2.answer k g.1).2.map fun p => (f p.1, p.2)) := by
  obtain ⟨checks, action, payload, args⟩ := k
  obtain ⟨checks', action', payload', args'⟩ := k'
  obtain rfl : checks' = checks := hchecks
  obtain rfl : args' = args := hargs
  unfold Gateway.answer Gateway.request
  dsimp only
  cases urlResult (UrlParse.urlparse checks' g.1) with
  | error e => rfl
  | ok parsed =>
      simp only [ok_bind]
      cases g.2.service with
      | error e => rfl
      | ok service =>
          cases service with
          | none => rfl
          | some info =>
              simp only [ok_bind, Gateway.requestTo]
              by_cases hfilter : filtered args' (routerIp parsed) = true
              · rw [if_pos hfilter, if_pos hfilter]
                rfl
              · rw [if_neg hfilter, if_neg hfilter]
                cases g.2.target args' with
                | error e => rfl
                | ok target =>
                    cases Gateway.requestUrl checks' parsed info.controlPath with
                    | error e => rfl
                    | ok url =>
                        exact Prod.ext rfl (congrArg (fun r => [(r, g.2.post)])
                          (hf info.serviceType target url))

/-- **One gateway** is asked by both forwarders or by neither, and answers alike. -/
theorem answer_asLegacy (hchecks : client.checks = manager.checks) (g : Text × Gateway) :
    g.2.answer (clientKind client eport iport args) g.1 =
      ((g.2.answer (managerKind manager action eport iport args) g.1).1,
        (g.2.answer (managerKind manager action eport iport args) g.1).2.map
          (asLegacyPosted args)) :=
  @answer_map (managerKind manager action eport iport args) (clientKind client eport iport args)
    (asLegacy args) hchecks rfl requestOf_asLegacy g

/-- A mapping that is added with a description of its own is requested alike. -/
theorem clientKind_eq (hchecks : client.checks = manager.checks) (hadd : args.disable = false)
    {label : Text} (hlabel : args.description = some label) :
    clientKind client eport iport args = managerKind manager (forwardAction args) eport iport args := by
  unfold clientKind managerKind forwardAction SoapPortMapper.buildAddMappingXml
    SoapRequestBuilder.buildPortMappingXml
  simp only [hchecks, hadd, hlabel, Bool.false_eq_true, if_false, Option.getD_some]

end One

/-! ## The loops -/

section Loops

variable {k k' : Gateway.Kind} {args : PortArgs} {gs : List (Text × Gateway)} {result b : Bool}

/-- Loops over gateways that are asked alike end alike, whatever they make of the outcomes. -/
theorem runGateways_map {update update' : Bool → Option Bool → Bool} {f : Posted → Posted}
    (h : ∀ g : Text × Gateway, g.2.answer k' g.1 =
      ((g.2.answer k g.1).1, (g.2.answer k g.1).2.map f)) (result result' : Bool) :
    (runGateways update' k' result' gs).2 = (runGateways update k result gs).2.map f ∧
      ∀ e, (runGateways update' k' result' gs).1 = .error e ↔
        (runGateways update k result gs).1 = .error e := by
  induction gs generalizing result result' with
  | nil => exact ⟨rfl, fun e => by simp [runGateways_nil]⟩
  | cons g rest ih =>
      rw [runGateways_cons, runGateways_cons, h g]
      cases (g.2.answer k g.1).1 with
      | error e => exact ⟨rfl, fun e' => Iff.rfl⟩
      | ok outcome =>
          obtain ⟨hsent, herror⟩ := ih (update result outcome) (update' result' outcome)
          refine ⟨?_, herror⟩
          rw [List.map_append, ← hsent]

/-- The outcome of a gateway, from the request that was made to it. -/
theorem outcome_eq {g : Text × Gateway} {outcome : Option Bool}
    (h : (g.2.answer k g.1).1 = .ok outcome) :
    ((g.2.answer k g.1).2 = [] ∧ outcome = none) ∨
      ∃ p, (g.2.answer k g.1).2 = [p] ∧ outcome = some (decide (p.2 = .ok 200)) := by
  revert h
  unfold Gateway.answer
  cases g.2.request k g.1 with
  | error e => exact fun h => absurd h (by simp [Gateway.outcome])
  | ok request =>
      cases request with
      | none => exact fun h => Or.inl ⟨rfl, (Except.ok.inj h).symm⟩
      | some request =>
          intro h
          refine Or.inr ⟨_, rfl, ?_⟩
          simp only [Gateway.outcome, Gateway.status] at h
          cases hpost : g.2.post with
          | ok status =>
              rw [hpost] at h
              rw [← Except.ok.inj h]
              simp
          | error e =>
              rw [hpost] at h
              by_cases he : e = RouterExn.requestError
              · simp only [he, if_true] at h
                rw [← Except.ok.inj h]
                simp
              · simp only [if_neg he] at h
                exact absurd h (by simp [Except.map])

/-- **Any success**: some request was answered 200. -/
theorem anySuccess_sent (h : (runGateways anySuccess k result gs).1 = .ok b) :
    b = true ↔ result = true ∨ ∃ p ∈ (runGateways anySuccess k result gs).2, p.2 = .ok 200 := by
  have hends : ∃ b, (runGateways anySuccess k result gs).1 = .ok b := ⟨b, h⟩
  rw [anySuccess_runGateways h, sent_runGateways (runGateways_ok_iff.mp hends)]
  simp only [answered_iff, List.mem_flatMap]
  refine or_congr_right ⟨?_, ?_⟩
  · rintro ⟨g, hg, p, hp, h200⟩
    exact ⟨p, ⟨g, hg, hp⟩, h200⟩
  · rintro ⟨p, ⟨g, hg, hp⟩, h200⟩
    exact ⟨g, hg, p, hp, h200⟩

/-- The result that the last of some requests gives. -/
def lastAnswer (result : Bool) (sent : List Posted) : Bool :=
  (sent.getLast?.map fun p => decide (p.2 = .ok 200)).getD result

theorem lastAnswer_append (result : Bool) (sent sent' : List Posted) :
    lastAnswer result (sent ++ sent') = lastAnswer (lastAnswer result sent) sent' := by
  unfold lastAnswer
  rw [List.getLast?_append]
  cases sent'.getLast? <;> rfl

/-- **The last outcome**: the last request was answered 200. -/
theorem lastOutcome_sent (h : (runGateways lastOutcome k result gs).1 = .ok b) :
    b = lastAnswer result (runGateways lastOutcome k result gs).2 := by
  induction gs generalizing result with
  | nil => exact (Except.ok.inj h).symm
  | cons g rest ih =>
      rw [runGateways_cons] at h ⊢
      cases hanswer : (g.2.answer k g.1).1 with
      | error e =>
          rw [hanswer] at h
          cases h
      | ok outcome =>
          rw [hanswer] at h
          have hupdate : lastOutcome result outcome = lastAnswer result (g.2.answer k g.1).2 := by
            rcases outcome_eq hanswer with ⟨hsent, rfl⟩ | ⟨p, hsent, rfl⟩
            · rw [hsent]
              rfl
            · rw [hsent]
              show lastOutcome result (some (decide (p.2 = .ok 200))) = decide (p.2 = .ok 200)
              unfold lastOutcome
              cases decide (p.2 = Except.ok 200) <;> rfl
          show b = lastAnswer result (_ ++ _)
          rw [lastAnswer_append, ← hupdate]
          exact ih h

end Loops

/-! ## The calls -/

/-- **The two forwarders agree on what they ask for.**  On the same gateways, whatever each of
them answers: the older `forward_port` makes the requests of the newer one in its own form,
the very same ones when a mapping is added with a description; it raises what the newer one
raises; the newer one returns whether some request was answered 200, the older one whether the
last one was. -/
theorem forwarders_agree (manager : RouterPortManager) (retryTimeout : ℤ) (fuel fuel' : ℕ)
    (eport iport : ℤ) (args : PortArgs) (gs : List (Text × Gateway)) (w w' : Network)
    (hfinds : Finds (manager.discoverGateways fuel) w gs)
    (hfinds' : Finds (PortForwardingClient.discoverWithRetry ⟨retryTimeout, manager.checks⟩ fuel')
      w' gs) (hw : w.sent = []) (hw' : w'.sent = []) :
    ∃ r r' v v',
      (manager.forwardPort fuel eport iport args).eval Network.exec w = some (r, v) ∧
      (PortForwardingClient.forwardPort ⟨retryTimeout, manager.checks⟩ fuel' eport iport
        args).eval Network.exec w' = some (r', v') ∧
      v'.sent = v.sent.map (asLegacyPosted args) ∧
      (args.disable = false → args.description ≠ none → v'.sent = v.sent) ∧
      (∀ e, r' = .error e ↔ r = .error e) ∧
      (∀ b, r = .ok b → (b = true ↔ ∃ p ∈ v.sent, p.2 = .ok 200)) ∧
      ∀ b, r' = .ok b → (b = true ↔ ∃ p, v'.sent.getLast? = some p ∧ p.2 = .ok 200) := by
  set client : PortForwardingClient := ⟨retryTimeout, manager.checks⟩ with hclient
  set k := managerKind manager (forwardAction args) eport iport args with hk
  set k' := clientKind client eport iport args with hk'
  obtain ⟨v, heval, hsent, -⟩ := eval_forwardPort manager eport iport args hfinds
  obtain ⟨v', heval', hsent', -⟩ := @eval_call lastOutcome _ _
    (answers_mapOnGateway client eport iport args) _ (only_discoverWithRetry client fuel') _ _
    hfinds'
  rw [hw, List.nil_append, ← hk] at hsent
  rw [hw', List.nil_append, ← hk'] at hsent'
  have hchecks : client.checks = manager.checks := rfl
  have halike : (runGateways lastOutcome k' false gs).2 =
        (runGateways anySuccess k false gs).2.map (asLegacyPosted args) ∧
      ∀ e, (runGateways lastOutcome k' false gs).1 = .error e ↔
        (runGateways anySuccess k false gs).1 = .error e :=
    runGateways_map (fun g => answer_asLegacy hchecks g) false false
  refine ⟨_, _, v, v', heval, heval', ?_, fun hadd hdescribed => ?_, halike.2, fun b hb => ?_,
    fun b hb => ?_⟩
  · rw [hsent, hsent']
    exact halike.1
  · obtain ⟨label, hlabel⟩ := Option.ne_none_iff_exists'.mp hdescribed
    have hkind : k' = k := clientKind_eq hchecks hadd hlabel
    have hsame : (runGateways lastOutcome k' false gs).2 =
        (runGateways anySuccess k false gs).2.map id :=
      (runGateways_map (fun g => by rw [hkind, List.map_id]) false false).1
    rw [hsent, hsent', hsame, List.map_id]
  · rw [anySuccess_sent hb, hsent]
    exact ⟨fun h => h.resolve_left Bool.false_ne_true, Or.inr⟩
  · rw [lastOutcome_sent hb, hsent', lastAnswer]
    cases (runGateways lastOutcome k' false gs).2.getLast? <;> simp

/-! ## Two gateways -/

/-- The router that accepts the mapping answers first, and the other one refuses it. -/
theorem forwarders_agree_refused :
    ∃ v v',
      (lenientManager.forwardPort 1 6000 6000 {}).eval Network.exec
        (scannedNetwork [goodGateway, refusingGateway]) = some (.ok true, v) ∧
      (PortForwardingClient.forwardPort ⟨10000, lenientManager.checks⟩ 1 6000 6000 {}).eval
        Network.exec (scannedNetwork [goodGateway, refusingGateway]) = some (.ok false, v') ∧
      v'.sent = v.sent.map (asLegacyPosted {}) := by
  obtain ⟨r, r', v, v', heval, heval', hsent, -⟩ := forwarders_agree lenientManager 10000 1 1 6000
    6000 {} [goodGateway, refusingGateway] (scannedNetwork [goodGateway, refusingGateway])
    (scannedNetwork [goodGateway, refusingGateway]) ⟨rfl, ⟨_, rfl⟩⟩ ⟨rfl, ⟨_, rfl⟩⟩ rfl rfl
  have hfirst : ∃ u, (lenientManager.forwardPort 1 6000 6000 {}).eval Network.exec
      (scannedNetwork [goodGateway, refusingGateway]) = some (.ok true, u) := ⟨_, rfl⟩
  have hsecond : ∃ u, (PortForwardingClient.forwardPort ⟨10000, lenientManager.checks⟩ 1 6000 6000
      {}).eval Network.exec (scannedNetwork [goodGateway, refusingGateway]) =
        some (.ok false, u) := ⟨_, rfl⟩
  obtain ⟨u, hu⟩ := hfirst
  obtain ⟨u', hu'⟩ := hsecond
  rw [heval, Option.some.injEq, Prod.mk.injEq] at hu
  rw [heval', Option.some.injEq, Prod.mk.injEq] at hu'
  exact ⟨v, v', by rw [heval, hu.1], by rw [heval', hu'.1], hsent⟩
