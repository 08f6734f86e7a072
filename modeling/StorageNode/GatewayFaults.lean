/-
# Faults of single gateways

`forward_port` goes through the discovered gateways and asks each of them for the mapping.
Only `httpx.RequestError` is handled on the way.

* `FaultsIsolated` : what one gateway does leaves the others alone;
* `Harmless` : the answers of a gateway that cannot harm, in terms of its description, its
  address and its reply;
* `answer_harmless_iff` : they are the gateways whose outcome is no exception and that are
  sent no unresolved address;
* `forward_port_isolates_faults_iff` : the faults are isolated exactly when every gateway is
  harmless;
* `malformed_profile_ends_call` : a description that is no XML takes the mapping of the next
  gateway with it.
-/
import StorageNode.GatewayNetwork

open RouterPortManager

/-- The internal client a request names. -/
def internalClient (request : SoapRequest) : Option Text :=
  request.content.fields.lookup "NewInternalClient".toList

/-- An address that was not resolved is written as `None`. -/
def unresolved : Text := "None".toList

/-- Wherever the discovery finds these gateways, the call returns and has posted `sent`. -/
def Posts (manager : RouterPortManager) (fuel : ℕ) (eport iport : ℤ) (args : PortArgs)
    (gs : List (Text × Gateway)) (sent : List Posted) : Prop :=
  ∀ v, Finds (manager.discoverGateways fuel) v gs →
    ∃ b v', (manager.forwardPort fuel eport iport args).eval Network.exec v = some (.ok b, v') ∧
      v'.sent = v.sent ++ sent

/-- **One gateway's fault does not affect the others**: the call returns; its requests are those
to the gateways before a gateway, the one to it if there is one and those to the gateways behind
it, each as they would be without the rest, and leaving the gateway out takes its own request
away; no request names an unresolved client; and the result tells whether some gateway answered
200. -/
def FaultsIsolated (manager : RouterPortManager) (fuel : ℕ) (eport iport : ℤ) (args : PortArgs)
    (w : Network) (gs : List (Text × Gateway)) : Prop :=
  ∃ b w' posted, (manager.forwardPort fuel eport iport args).eval Network.exec w =
      some (.ok b, w') ∧ w'.sent = w.sent ++ posted ∧
    (∀ pre g post, gs = pre ++ g :: post →
      ∃ before own after, posted = before ++ own ++ after ∧ own.length ≤ 1 ∧
        Posts manager fuel eport iport args pre before ∧
        Posts manager fuel eport iport args [g] own ∧
        Posts manager fuel eport iport args post after ∧
        Posts manager fuel eport iport args (pre ++ post) (before ++ after)) ∧
    (∀ p ∈ posted, internalClient p.1 ≠ some unresolved) ∧
    (b = true ↔ ∃ p ∈ posted, p.2 = .ok 200)

/-! ## Harmless gateways -/

/-- A description that can be read: every `serviceType` up to the first WAN service begins
with a text, and next to that one is a `controlURL` that begins with a text. -/
def WellDescribed : List XmlElement → Prop
  | [] => True
  | node :: rest =>
      ∃ type, firstData node.childNodes = .ok type ∧
        if GatewayProfileParser.isWan type then
          ∃ ctrl others path,
            getElementsByTagName node.siblings "controlURL".toList = ctrl :: others ∧
              firstData ctrl.childNodes = .ok path
        else WellDescribed rest

/-- A service that can be asked: the internal client is known, the service URL comes apart,
and the request is answered or fails as a `RequestError`. -/
def Askable (manager : RouterPortManager) (args : PortArgs) (parsed : UrlParse.ParseResult)
    (controlPath : Text) (g : Gateway) : Prop :=
  (match args.lanip with
    | some ip => ip ≠ unresolved
    | none => ∃ ip, g.localAddress = .ok ip ∧ ip ≠ unresolved) ∧
  (∃ service url, UrlParse.urlparse manager.checks (serviceUrl parsed controlPath) = .ok service ∧
    SoapTransport.fullUrl service = .ok url) ∧
  (g.post = .error .requestError ∨ ∃ status, g.post = .ok status)

/-- **A gateway that cannot harm**: its profile URL comes apart; its profile cannot be fetched,
or is XML that can be read and describes no WAN service that is asked for, or one that can be
asked. -/
def Harmless (manager : RouterPortManager) (args : PortArgs) (g : Text × Gateway) : Prop :=
  ∃ parsed, UrlParse.urlparse manager.checks g.1 = .ok parsed ∧
    (g.2.get = .error .requestError ∨
      ∃ dom, g.2.get = .ok (some dom) ∧
        WellDescribed (getElementsByTagName dom "serviceType".toList) ∧
        ∀ info, GatewayProfileParser.findService
            (getElementsByTagName dom "serviceType".toList) = .ok (some info) →
          filtered args (routerIp parsed) = false →
            Askable manager args parsed info.controlPath g.2)

theorem wellDescribed_iff (nodes : List XmlElement) :
    WellDescribed nodes ↔ ∃ service, GatewayProfileParser.findService nodes = .ok service := by
  induction nodes with
  | nil => exact ⟨fun _ => ⟨none, rfl⟩, fun _ => trivial⟩
  | cons node rest ih =>
      rw [WellDescribed, GatewayProfileParser.findService]
      cases firstData node.childNodes with
      | error e =>
          constructor
          · rintro ⟨type, htype, -⟩
            cases htype
          · rintro ⟨service, hservice⟩
            cases hservice
      | ok type =>
          rw [ok_bind]
          constructor
          · rintro ⟨_, htype, h⟩
            cases htype
            split at h
            · next hwan =>
                obtain ⟨ctrl, others, path, hctrl, hpath⟩ := h
                rw [if_pos hwan, hctrl]
                exact ⟨some ⟨path, type⟩, by simp only [hpath]; rfl⟩
            · next hwan =>
                rw [if_neg hwan]
                exact ih.mp h
          · rintro ⟨service, h⟩
            refine ⟨type, rfl, ?_⟩
            split at h
            · next hwan =>
                rw [if_pos hwan]
                cases hctrl : getElementsByTagName node.siblings "controlURL".toList with
                | nil =>
                    rw [hctrl] at h
                    cases h
                | cons ctrl others =>
                    rw [hctrl] at h
                    cases hpath : firstData ctrl.childNodes with
                    | error e =>
                        simp only [hpath, error_bind] at h
                        cases h
                    | ok path => exact ⟨ctrl, others, path, rfl, hpath⟩
            · next hwan =>
                rw [if_neg hwan]
                exact ih.mpr ⟨service, h⟩

/-- The request of `forward_port` names the internal client. -/
theorem internalClient_payload (url : Text) (headers : List (Text × Text)) (action wanService : Text)
    (eport iport : ℤ) (target : Option Text) (args : PortArgs) :
    internalClient
      { url, headers
        content := SoapRequestBuilder.buildPortMappingXml defaultLabel action wanService eport
          iport target args.protocol args.enabled args.duration args.description } =
      some (optionText target) := by
  rfl

section Askable

variable {manager : RouterPortManager} {action : Text} {eport iport : ℤ} {args : PortArgs}
  {parsed : UrlParse.ParseResult} {g : Gateway}

theorem target_iff :
    (match args.lanip with
      | some ip => ip ≠ unresolved
      | none => ∃ ip, g.localAddress = .ok ip ∧ ip ≠ unresolved) ↔
      ∃ target, g.target args = .ok target ∧ optionText target ≠ unresolved := by
  unfold Gateway.target
  cases args.lanip with
  | some ip =>
      constructor
      · exact fun h => ⟨some ip, rfl, h⟩
      · rintro ⟨target, htarget, h⟩
        cases htarget
        exact h
  | none =>
      cases g.localAddress with
      | ok ip =>
          constructor
          · rintro ⟨_, hip, h⟩
            cases hip
            exact ⟨some ip, rfl, h⟩
          · rintro ⟨target, htarget, h⟩
            cases htarget
            exact ⟨ip, rfl, h⟩
      | error e =>
          constructor
          · rintro ⟨_, hip, -⟩
            cases hip
          · rintro ⟨target, htarget, h⟩
            by_cases he : e = RouterExn.osError
            · simp only [if_pos he] at htarget
              cases htarget
              exact absurd rfl h
            · simp only [if_neg he] at htarget
              cases htarget

theorem requestUrl_iff {controlPath : Text} :
    (∃ service url, UrlParse.urlparse manager.checks (serviceUrl parsed controlPath) = .ok service ∧
      SoapTransport.fullUrl service = .ok url) ↔
      ∃ url, Gateway.requestUrl manager.checks parsed controlPath = .ok url := by
  unfold Gateway.requestUrl
  cases UrlParse.urlparse manager.checks (serviceUrl parsed controlPath) with
  | error e =>
      constructor
      · rintro ⟨_, _, h, -⟩
        cases h
      · rintro ⟨_, h⟩
        cases h
  | ok service =>
      constructor
      · rintro ⟨_, url, h, hurl⟩
        cases h
        exact ⟨url, by rw [urlResult, ok_bind, hurl]; rfl⟩
      · rintro ⟨url, h⟩
        rw [urlResult, ok_bind] at h
        cases hurl : SoapTransport.fullUrl service with
        | error e =>
            rw [hurl] at h
            cases h
        | ok url => exact ⟨service, url, rfl, hurl⟩

theorem status_iff :
    (g.post = .error .requestError ∨ ∃ status, g.post = .ok status) ↔
      ∃ status, g.status = .ok status := by
  unfold Gateway.status
  cases g.post with
  | ok status => exact ⟨fun _ => ⟨status, rfl⟩, fun _ => Or.inr ⟨status, rfl⟩⟩
  | error e =>
      by_cases he : e = RouterExn.requestError
      · subst he
        exact ⟨fun _ => ⟨500, rfl⟩, fun _ => Or.inl rfl⟩
      · simp [he]

/-- The outcome of a request that was made. -/
theorem outcome_request (request : SoapRequest) :
    ((∃ o, (g.outcome (.ok (some request))).1 = .ok o) ↔ ∃ status, g.status = .ok status) ∧
      (g.outcome (.ok (some request))).2 = [(request, g.post)] := by
  refine ⟨?_, rfl⟩
  show (∃ o, g.status.map (fun status => some (decide (status = 200))) = .ok o) ↔ _
  cases g.status with
  | ok status => exact ⟨fun _ => ⟨status, rfl⟩, fun _ => ⟨_, rfl⟩⟩
  | error e =>
      constructor
      · rintro ⟨_, h⟩
        cases h
      · rintro ⟨_, h⟩
        cases h

/-- **A service that is asked** can be asked when the outcome is no exception and the request
names a client. -/
theorem askable_iff {info : GatewayService} (hasked : filtered args (routerIp parsed) = false) :
    Askable manager args parsed info.controlPath g ↔
      (∃ o, (g.outcome (g.requestTo (managerKind manager action eport iport args) parsed
          info)).1 = .ok o) ∧
        ∀ p ∈ (g.outcome (g.requestTo (managerKind manager action eport iport args) parsed info)).2,
          internalClient p.1 ≠ some unresolved := by
  rw [Askable, target_iff, requestUrl_iff, status_iff, Gateway.requestTo, managerKind_args,
    if_neg (by rw [hasked]; exact Bool.false_ne_true)]
  cases g.target args with
  | error e =>
      constructor
      · rintro ⟨⟨_, h, -⟩, -⟩
        cases h
      · rintro ⟨⟨_, h⟩, -⟩
        cases h
  | ok target =>
      rw [ok_bind, managerKind_checks]
      cases Gateway.requestUrl manager.checks parsed info.controlPath with
      | error e =>
          constructor
          · rintro ⟨-, ⟨_, h⟩, -⟩
            cases h
          · rintro ⟨⟨_, h⟩, -⟩
            cases h
      | ok url =>
          rw [ok_bind]
          obtain ⟨hok, hposted⟩ := outcome_request (g := g)
            { url
              content := (managerKind manager action eport iport args).payload info.serviceType target
              headers := [("SOAPAction".toList, info.serviceType ++ '#' ::
                (managerKind manager action eport iport args).action),
                ("Content-Type".toList, "text/xml".toList)] }
          rw [show ∀ r : SoapRequest, (pure (some r) : Except RouterExn _) = .ok (some r) from
            fun _ => rfl, hok, hposted]
          have hclient := internalClient_payload url [("SOAPAction".toList, info.serviceType ++ '#' ::
            action), ("Content-Type".toList, "text/xml".toList)] action info.serviceType eport iport
            target args
          constructor
          · rintro ⟨⟨_, h, hne⟩, -, hstatus⟩
            cases h
            refine ⟨hstatus, fun p hp => ?_⟩
            rw [List.mem_singleton] at hp
            subst hp
            intro h
            exact hne (Option.some.inj (hclient.symm.trans h))
          · rintro ⟨hstatus, hnamed⟩
            refine ⟨⟨target, rfl, fun h => ?_⟩, ⟨url, rfl⟩, hstatus⟩
            exact hnamed _ (List.mem_singleton_self _) (hclient.trans (congrArg some h))

end Askable

/-- **Harmless gateways** are those whose outcome is no exception and that are sent no
unresolved address. -/
theorem answer_harmless_iff (manager : RouterPortManager) (action : Text) (eport iport : ℤ)
    (args : PortArgs) (g : Text × Gateway) :
    Harmless manager args g ↔
      (∃ o, (g.2.answer (managerKind manager action eport iport args) g.1).1 = .ok o) ∧
        ∀ p ∈ (g.2.answer (managerKind manager action eport iport args) g.1).2,
          internalClient p.1 ≠ some unresolved := by
  rw [Harmless, Gateway.answer, Gateway.request, managerKind_checks]
  cases UrlParse.urlparse manager.checks g.1 with
  | error e =>
      constructor
      · rintro ⟨_, h, -⟩
        cases h
      · rintro ⟨⟨_, h⟩, -⟩
        cases h
  | ok parsed =>
      rw [urlResult, ok_bind, Gateway.service]
      cases g.2.get with
      | error e =>
          by_cases he : e = RouterExn.requestError
          · subst he
            refine ⟨fun _ => ⟨⟨none, rfl⟩, fun p hp => absurd hp List.not_mem_nil⟩,
              fun _ => ⟨parsed, rfl, Or.inl rfl⟩⟩
          · simp only [if_neg he]
            constructor
            · rintro ⟨_, -, h | ⟨_, h, -⟩⟩
              · cases h
                exact absurd rfl he
              · cases h
            · rintro ⟨⟨_, h⟩, -⟩
              cases h
      | ok content =>
          cases content with
          | none =>
              constructor
              · rintro ⟨_, -, h | ⟨_, h, -⟩⟩
                · cases h
                · cases h
              · rintro ⟨⟨_, h⟩, -⟩
                cases h
          | some dom =>
              have hread : GatewayProfileParser.readProfile (some dom) =
                  GatewayProfileParser.findService
                    (getElementsByTagName dom "serviceType".toList) := rfl
              simp only [hread]
              constructor
              · rintro ⟨_, hparsed, h | ⟨_, hdom, hdescribed, hask⟩⟩
                · cases h
                cases hparsed
                cases hdom
                obtain ⟨service, hservice⟩ := (wellDescribed_iff _).mp hdescribed
                rw [hservice, ok_bind]
                cases service with
                | none => exact ⟨⟨none, rfl⟩, fun p hp => absurd hp List.not_mem_nil⟩
                | some info =>
                    cases hasked : filtered args (routerIp parsed) with
                    | false => exact (askable_iff hasked).mp (hask info hservice hasked)
                    | true =>
                        simp only [Gateway.requestTo]
                        rw [managerKind_args, if_pos hasked]
                        exact ⟨⟨none, rfl⟩, fun p hp => absurd hp List.not_mem_nil⟩
              · intro h
                refine ⟨parsed, rfl, Or.inr ⟨dom, rfl, ?_, ?_⟩⟩
                · rw [wellDescribed_iff]
                  cases hservice : GatewayProfileParser.findService
                      (getElementsByTagName dom "serviceType".toList) with
                  | ok service => exact ⟨service, rfl⟩
                  | error e =>
                      rw [hservice] at h
                      obtain ⟨⟨_, h⟩, -⟩ := h
                      cases h
                · intro info hservice hasked
                  rw [hservice, ok_bind] at h
                  exact (askable_iff hasked).mpr h

/-! ## The call -/

/-- A request that was answered 200 is a success of its gateway. -/
theorem answered_iff (k : Gateway.Kind) (url : Text) (g : Gateway) :
    (g.answer k url).1 = .ok (some true) ↔ ∃ p ∈ (g.answer k url).2, p.2 = .ok 200 := by
  unfold Gateway.answer
  cases g.request k url with
  | error e => simp [Gateway.outcome]
  | ok request =>
      cases request with
      | none => simp [Gateway.outcome]
      | some request =>
          simp only [Gateway.outcome, List.mem_singleton, exists_eq_left, Gateway.status]
          cases g.post with
          | ok status => simp [Except.map]
          | error e =>
              by_cases he : e = RouterExn.requestError
              · simp [he, Except.map]
              · simp [he, Except.map]

theorem length_answer_le (k : Gateway.Kind) (url : Text) (g : Gateway) :
    (g.answer k url).2.length ≤ 1 := by
  unfold Gateway.answer
  cases g.request k url with
  | error e => exact Nat.zero_le 1
  | ok request =>
      cases request with
      | none => exact Nat.zero_le 1
      | some request => exact le_rfl

/-- `any_success` is set by a success and stays. -/
theorem anySuccess_runGateways {k : Gateway.Kind} {gs : List (Text × Gateway)} {result b : Bool}
    (h : (runGateways anySuccess k result gs).1 = .ok b) :
    b = true ↔ result = true ∨ ∃ g ∈ gs, (g.2.answer k g.1).1 = .ok (some true) := by
  induction gs generalizing result with
  | nil =>
      cases h
      simp
  | cons g rest ih =>
      rw [runGateways_cons] at h
      cases hanswer : (g.2.answer k g.1).1 with
      | error e =>
          rw [hanswer] at h
          cases h
      | ok outcome =>
          rw [hanswer] at h
          rw [ih h, List.exists_mem_cons_iff, hanswer, anySuccess, Except.ok.injEq]
          by_cases hout : outcome = some true
          · simp [hout]
          · simp [hout]

/-- Gateways that raise nothing are each sent their own request. -/
theorem posts_of_ok {manager : RouterPortManager} {fuel : ℕ} {eport iport : ℤ} {args : PortArgs}
    {gs : List (Text × Gateway)} (hok : ∀ g ∈ gs, ∃ o, (g.2.answer
      (managerKind manager (forwardAction args) eport iport args) g.1).1 = .ok o) :
    Posts manager fuel eport iport args gs (gs.flatMap fun g =>
      (g.2.answer (managerKind manager (forwardAction args) eport iport args) g.1).2) := by
  intro v hv
  obtain ⟨v', heval, hsent, -⟩ := eval_forwardPort manager eport iport args hv
  have hends : ∃ b, (runGateways anySuccess
      (managerKind manager (forwardAction args) eport iport args) false gs).1 = .ok b :=
    runGateways_ok_iff.mpr hok
  obtain ⟨b, hb⟩ := hends
  rw [hb] at heval
  rw [sent_runGateways hok] at hsent
  exact ⟨b, v', heval, hsent⟩

/-- **Faults are isolated exactly when there are none but harmless ones.**  Whatever list of
gateways the discovery finds and however they answer, `forward_port` returns, makes to each
gateway the request it would make without any one of the others, none with an unresolved
client, and returns whether a gateway answered 200, exactly when every gateway is harmless. -/
theorem forward_port_isolates_faults_iff (manager : RouterPortManager) (fuel : ℕ)
    (eport iport : ℤ) (args : PortArgs) (w : Network) (gs : List (Text × Gateway))
    (hfinds : Finds (manager.discoverGateways fuel) w gs) :
    FaultsIsolated manager fuel eport iport args w gs ↔ ∀ g ∈ gs, Harmless manager args g := by
  set k := managerKind manager (forwardAction args) eport iport args with hk
  have hharm : ∀ g, Harmless manager args g ↔ (∃ o, (g.2.answer k g.1).1 = .ok o) ∧
      ∀ p ∈ (g.2.answer k g.1).2, internalClient p.1 ≠ some unresolved :=
    answer_harmless_iff manager (forwardAction args) eport iport args
  obtain ⟨w', heval, hsent, -⟩ := eval_forwardPort manager eport iport args hfinds
  rw [← hk] at heval hsent
  constructor
  · rintro ⟨b, w₁, posted, heval₁, hsent₁, -, hnamed, -⟩ g hg
    rw [heval, Option.some.injEq, Prod.mk.injEq] at heval₁
    obtain ⟨hb, rfl⟩ := heval₁
    have hok := runGateways_ok_iff.mp ⟨b, hb⟩
    rw [hsent, sent_runGateways hok, List.append_cancel_left_eq] at hsent₁
    subst hsent₁
    exact (hharm g).mpr ⟨hok g hg, fun p hp => hnamed p (List.mem_flatMap.mpr ⟨g, hg, hp⟩)⟩
  · intro hall
    have hok : ∀ g ∈ gs, ∃ o, (g.2.answer k g.1).1 = .ok o := fun g hg =>
      ((hharm g).mp (hall g hg)).1
    have hends : ∃ b, (runGateways anySuccess k false gs).1 = .ok b := runGateways_ok_iff.mpr hok
    obtain ⟨b, hb⟩ := hends
    rw [hb] at heval
    rw [sent_runGateways hok] at hsent
    refine ⟨b, w', _, heval, hsent, ?_, ?_, ?_⟩
    · rintro pre g post rfl
      rw [List.forall_mem_append, List.forall_mem_cons] at hok
      obtain ⟨hpre, hg, hpost⟩ := hok
      refine ⟨pre.flatMap fun g => (g.2.answer k g.1).2, (g.2.answer k g.1).2,
        post.flatMap fun g => (g.2.answer k g.1).2, ?_, length_answer_le k g.1 g.2,
        posts_of_ok hpre, ?_, posts_of_ok hpost, ?_⟩
      · rw [List.flatMap_append, List.flatMap_cons, List.append_assoc]
      · have hone : Posts manager fuel eport iport args [g] _ :=
          posts_of_ok (List.forall_mem_singleton.mpr hg)
        rwa [List.flatMap_singleton] at hone
      · have hboth : Posts manager fuel eport iport args (pre ++ post) _ :=
          posts_of_ok (List.forall_mem_append.mpr ⟨hpre, hpost⟩)
        rwa [List.flatMap_append] at hboth
    · intro p hp
      obtain ⟨g, hg, hp⟩ := List.mem_flatMap.mp hp
      exact ((hharm g).mp (hall g hg)).2 p hp
    · rw [anySuccess_runGateways hb]
      simp only [Bool.false_eq_true, false_or, List.mem_flatMap]
      constructor
      · rintro ⟨g, hg, hsuccess⟩
        obtain ⟨p, hp, h200⟩ := (answered_iff k g.1 g.2).mp hsuccess
        exact ⟨p, ⟨g, hg, hp⟩, h200⟩
      · rintro ⟨p, ⟨g, hg, hp⟩, h200⟩
        exact ⟨g, hg, (answered_iff k g.1 g.2).mpr ⟨p, hp, h200⟩⟩

/-! ## Two gateways -/

/-- A description with one WAN service. -/
def wanDocument (controlPath : Text) : List XmlNode :=
  [.element "root".toList [.element "service".toList
    [.element "serviceType".toList
      [.characterData "urn:schemas-upnp-org:service:WANIPConnection:1".toList],
    .element "controlURL".toList [.characterData controlPath]]]]

/-- A router that grants the mapping. -/
def goodGateway : Text × Gateway :=
  ("http://192.168.1.1:5000/rootDesc.xml".toList,
    { get := .ok (some (wanDocument "/ctl/IPConn".toList))
      localAddress := .ok "192.168.1.5".toList
      post := .ok 200 })

/-- A device whose profile cannot be fetched. -/
def silentGateway : Text × Gateway :=
  ("http://192.168.1.7:80/device".toList,
    { get := .error .requestError, localAddress := .error .osError, post := .error .requestError })

/-- A device whose profile is no XML. -/
def malformedGateway : Text × Gateway :=
  ("http://192.168.1.7:80/device".toList, { silentGateway.2 with get := .ok none })

/-- The theorem at a device that does not answer and a router that grants the mapping. -/
theorem forward_port_isolates_faults_silent :
    FaultsIsolated lenientManager 1 6000 6000 {}
      (scannedNetwork [silentGateway, goodGateway]) [silentGateway, goodGateway] := by
  refine (forward_port_isolates_faults_iff lenientManager 1 6000 6000 {} _ _
    ⟨rfl, ⟨_, rfl⟩⟩).mpr ?_
  intro g hg
  rcases List.mem_pair.mp hg with rfl | rfl
  · exact ⟨_, rfl, Or.inl rfl⟩
  · refine ⟨_, rfl, Or.inr ⟨_, rfl, ⟨_, rfl, ⟨_, _, _, rfl, rfl⟩⟩, ?_⟩⟩
    rintro info hinfo -
    have hpath : info =
        ⟨"/ctl/IPConn".toList, "urn:schemas-upnp-org:service:WANIPConnection:1".toList⟩ :=
      (Option.some.inj (Except.ok.inj hinfo)).symm
    subst hpath
    exact ⟨⟨_, rfl, by decide⟩, ⟨_, _, rfl, rfl⟩, Or.inr ⟨200, rfl⟩⟩

/-- **A device whose profile is no XML.**  It answers before the router; `forward_port` raises
`ExpatError`, and the router is never asked. -/
theorem malformed_profile_ends_call :
    Finds (lenientManager.discoverGateways 1) (scannedNetwork [malformedGateway, goodGateway])
        [malformedGateway, goodGateway] ∧
      ¬ FaultsIsolated lenientManager 1 6000 6000 {}
        (scannedNetwork [malformedGateway, goodGateway]) [malformedGateway, goodGateway] := by
  refine ⟨⟨rfl, ⟨_, rfl⟩⟩, ?_⟩
  rintro ⟨b, w', posted, heval, -⟩
  have hraise : ∃ w, (lenientManager.forwardPort 1 6000 6000 {}).eval Network.exec
      (scannedNetwork [malformedGateway, goodGateway]) = some (.error .expatError, w) := ⟨_, rfl⟩
  obtain ⟨w, hraise⟩ := hraise
  rw [hraise] at heval
  cases heval
