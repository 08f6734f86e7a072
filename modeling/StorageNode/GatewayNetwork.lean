/-
# One call on a network of gateways

The world in which the gateway code runs: what the scanner and the clock will answer, and how
each gateway answers when its turn comes.  A gateway is identified by its turn, so a URL that
is listed twice may answer differently.

* `Gateway`, `Network`, `Network.exec` : the answers and the operations;
* `Gateway.request`, `Gateway.answer` : what comes of one gateway;
* `eval_executeOnGateway`, `eval_mapOnGateway` : both programs come to that;
* `runGateways`, `eval_overGateways` : the loops;
* `Finds`, `eval_forwardPort`, `eval_isPortOpen`, `eval_legacyForwardPort` : the calls.
-/
import StorageNode.LegacyPortForwarder
import StorageNode.ProgLog

/-- How a gateway answers, with the node's own network on the way to it. -/
structure Gateway where
  get : Except RouterExn Content
  localAddress : Except RouterExn Text
  post : Except RouterExn ℕ

/-- A request that was made, and what came of it. -/
abbrev Posted : Type := SoapRequest × Except RouterExn ℕ

/-- The network during one call. -/
structure Network where
  /-- the results of the scans to come -/
  scans : List (Except RouterExn (List Text))
  /-- the readings of the clock to come -/
  clock : List ℤ
  /-- the gateways whose descriptions will be asked for -/
  pending : List Gateway
  /-- the one whose description was asked for last -/
  current : Gateway
  /-- the URLs of the descriptions that were asked for -/
  asked : List Text := []
  sent : List Posted

/-- One operation. -/
def Network.exec (o : RouterOp) (w : Network) : Option (Except RouterExn o.Res × Network) :=
  match o with
  | .scanForGateways =>
      match w.scans with
      | r :: rest => some (r, { w with scans := rest })
      | [] => none
  | .time =>
      match w.clock with
      | t :: rest => some (.ok t, { w with clock := rest })
      | [] => none
  | .get url =>
      match w.pending with
      | g :: rest =>
          some (g.get, { w with pending := rest, current := g, asked := w.asked ++ [url] })
      | [] => none
  | .localAddress _ => some (w.current.localAddress, w)
  | .newClient => some (.ok (), w)
  | .post request =>
      some (w.current.post, { w with sent := w.sent ++ [(request, w.current.post)] })
  | .closeClient => some (.ok (), w)

namespace Gateway

/-- `fetch_service_info` at a gateway. -/
def service (g : Gateway) : Except RouterExn (Option GatewayService) :=
  match g.get with
  | .ok content => GatewayProfileParser.readProfile content
  | .error e => if e = RouterExn.requestError then .ok none else .error e

/-- The internal client's address. -/
def target (g : Gateway) (args : PortArgs) : Except RouterExn (Option Text) :=
  match args.lanip with
  | some ip => .ok (some ip)
  | none =>
      match g.localAddress with
      | .ok ip => .ok (some ip)
      | .error e => if e = RouterExn.osError then .ok none else .error e

/-- The status code of a request. -/
def status (g : Gateway) : Except RouterExn ℕ :=
  match g.post with
  | .ok status => .ok status
  | .error e => if e = RouterExn.requestError then .ok 500 else .error e

/-- A kind of request: its action and its payload, from the service type and the internal
client. -/
structure Kind where
  checks : UrlParse.UrlChecks
  action : Text
  payload : Text → Option Text → SoapDocument
  args : PortArgs

/-- The URL of the request to a service. -/
def requestUrl (checks : UrlParse.UrlChecks) (parsed : UrlParse.ParseResult)
    (controlPath : Text) : Except RouterExn Text := do
  let service ← urlResult
    (UrlParse.urlparse checks (RouterPortManager.serviceUrl parsed controlPath))
  urlResult (SoapTransport.fullUrl service)

/-- The request to a service that was found, unless the gateway is not asked for. -/
def requestTo (k : Kind) (parsed : UrlParse.ParseResult) (info : GatewayService) (g : Gateway) :
    Except RouterExn (Option SoapRequest) :=
  if RouterPortManager.filtered k.args (RouterPortManager.routerIp parsed) then pure none
  else do
    let target ← g.target k.args
    let url ← requestUrl k.checks parsed info.controlPath
    pure (some
      { url, content := k.payload info.serviceType target
        headers := [("SOAPAction".toList, info.serviceType ++ '#' :: k.action),
          ("Content-Type".toList, "text/xml".toList)] })

/-- The request a gateway is sent, if any. -/
def request (k : Kind) (profileUrl : Text) (g : Gateway) :
    Except RouterExn (Option SoapRequest) := do
  let parsed ← urlResult (UrlParse.urlparse k.checks profileUrl)
  let service ← g.service
  match service with
  | none => pure none
  | some info => g.requestTo k parsed info

/-- What comes of a request. -/
def outcome (g : Gateway) :
    Except RouterExn (Option SoapRequest) → Except RouterExn (Option Bool) × List Posted
  | .error e => (.error e, [])
  | .ok none => (.ok none, [])
  | .ok (some request) =>
      (g.status.map fun status => some (decide (status = 200)), [(request, g.post)])

/-- **What comes of one gateway**: its outcome and the requests made to it. -/
def answer (k : Kind) (profileUrl : Text) (g : Gateway) :
    Except RouterExn (Option Bool) × List Posted :=
  g.outcome (g.request k profileUrl)

end Gateway

/-! ## One gateway -/

section One

variable {w : Network} {g : Gateway} {rest : List Gateway}

theorem eval_ofExcept {α : Type} (x : Except RouterExn α) (w : Network) :
    (Prog.ofExcept x).eval Network.exec w = some (x, w) := by
  cases x <;> rfl

theorem eval_fetchServiceInfo (profileUrl : Text) (hw : w.pending = g :: rest) :
    (GatewayProfileParser.fetchServiceInfo profileUrl).eval Network.exec w =
      some (g.service,
        { w with pending := rest, current := g, asked := w.asked ++ [profileUrl] }) := by
  have hget : Network.exec (.get profileUrl) w = some (g.get,
      { w with pending := rest, current := g, asked := w.asked ++ [profileUrl] }) := by
    simp only [Network.exec, hw]
  simp only [GatewayProfileParser.fetchServiceInfo, Prog.bind_eq, Prog.eval_bind,
    Prog.eval_tryExcept, Prog.eval_perform, hget, Gateway.service]
  cases g.get with
  | ok content => exact eval_ofExcept _ _
  | error e =>
      by_cases he : e = RouterExn.requestError
      · simp [he, Prog.eval]
      · simp [he, Prog.eval]

theorem eval_resolve (gatewayIp : Option Text) :
    (LANAddressResolver.resolve gatewayIp).eval Network.exec w =
      some (match w.current.localAddress with
        | .ok ip => .ok (some ip)
        | .error e => if e = RouterExn.osError then .ok none else .error e, w) := by
  have hask : Network.exec (.localAddress (gatewayIp.getD "8.8.8.8".toList)) w =
      some (w.current.localAddress, w) := rfl
  simp only [LANAddressResolver.resolve, Prog.eval_tryExcept, Prog.eval_bind, Prog.eval_perform,
    hask]
  cases w.current.localAddress with
  | ok ip => rfl
  | error e =>
      by_cases he : e = RouterExn.osError
      · simp [he, Prog.eval]
      · simp [he, Prog.eval]

theorem eval_targetAddress (args : PortArgs) (gwIp : Text) :
    (RouterPortManager.targetAddress args gwIp).eval Network.exec w =
      some (w.current.target args, w) := by
  unfold RouterPortManager.targetAddress Gateway.target
  cases args.lanip with
  | some ip => rfl
  | none => exact eval_resolve _

/-- URLs fail with `ValueError` only, which no handler names. -/
theorem eq_valueError {α : Type} {x : Except UrlError α} {e : RouterExn}
    (h : urlResult x = .error e) : e = .valueError := by
  cases x with
  | ok a => cases h
  | error e' =>
      cases e'
      cases h
      rfl

/-- The world after a request. -/
def Network.posted (w : Network) (url : Text) (wanService action : Text) (xml : SoapDocument) :
    Network :=
  { w with sent := w.sent ++
      [({ url, content := xml
          headers := [("SOAPAction".toList, wanService ++ '#' :: action),
            ("Content-Type".toList, "text/xml".toList)] }, w.current.post)] }

theorem exec_post (url wanService action : Text) (xml : SoapDocument) :
    Network.exec (.post
      { url, content := xml
        headers := [("SOAPAction".toList, wanService ++ '#' :: action),
          ("Content-Type".toList, "text/xml".toList)] }) w =
      some (w.current.post, w.posted url wanService action xml) := rfl

/-- **One request**: none when the service URL cannot be taken apart and put together. -/
theorem eval_sendRequest (checks : UrlParse.UrlChecks) (serviceUrl wanService action : Text)
    (xml : SoapDocument) :
    (SoapTransport.sendRequest checks serviceUrl wanService action xml).eval Network.exec w =
      match urlResult (UrlParse.urlparse checks serviceUrl) with
      | .error e => some (.error e, w)
      | .ok service =>
          match urlResult (SoapTransport.fullUrl service) with
          | .error e => some (.error e, w)
          | .ok url => some (w.current.status, w.posted url wanService action xml) := by
  simp only [SoapTransport.sendRequest, Prog.bind_eq, Prog.eval_bind, eval_ofExcept]
  cases urlResult (UrlParse.urlparse checks serviceUrl) with
  | error e => rfl
  | ok service =>
      have hclient : Network.exec .newClient w = some (.ok (), w) := rfl
      simp only [Prog.eval_tryExcept, Prog.eval_bind, Prog.eval_perform, hclient, Prog.eval,
        if_true, Prog.eval_tryFinally, SoapTransport.postRequest, Prog.bind_eq, eval_ofExcept]
      cases hurl : urlResult (SoapTransport.fullUrl service) with
      | error e =>
          rw [eq_valueError hurl]
          rfl
      | ok url =>
          simp only [exec_post, Gateway.status]
          cases w.current.post with
          | ok status => rfl
          | error e =>
              by_cases he : e = RouterExn.requestError
              · simp only [he, if_true]
                rfl
              · simp only [if_neg he]
                rfl

theorem eval_sendMappingRequest (checks : UrlParse.UrlChecks) (serviceUrl wanService : Text)
    (xml : SoapDocument) :
    (SoapPortMapper.sendMappingRequest checks wanService serviceUrl xml).eval Network.exec w =
      match urlResult (UrlParse.urlparse checks serviceUrl) with
      | .error e => some (.error e, w)
      | .ok service =>
          match urlResult (SoapTransport.fullUrl service) with
          | .error e => some (.error e, w)
          | .ok url =>
              some (w.current.status, w.posted url wanService RouterPortManager.addAction xml) := by
  simp only [SoapPortMapper.sendMappingRequest, Prog.bind_eq, Prog.eval_bind, eval_ofExcept]
  cases urlResult (UrlParse.urlparse checks serviceUrl) with
  | error e => rfl
  | ok service =>
      have hclient : Network.exec .newClient w = some (.ok (), w) := rfl
      simp only [Prog.eval_tryExcept, Prog.eval_bind, Prog.eval_perform, hclient,
        Prog.eval_tryFinally, eval_ofExcept]
      cases hurl : urlResult (SoapTransport.fullUrl service) with
      | error e =>
          rw [eq_valueError hurl]
          rfl
      | ok url =>
          simp only [exec_post, Gateway.status]
          cases w.current.post with
          | ok status => rfl
          | error e =>
              by_cases he : e = RouterExn.requestError
              · simp only [he, if_true]
                rfl
              · simp only [if_neg he]
                show (if e = RouterExn.requestError then pure 500 else Prog.raise e : Router ℕ).eval
                  Network.exec _ = _
                rw [if_neg he]
                rfl

/-- The requests of `_execute_on_gateway`. -/
def managerKind (manager : RouterPortManager) (action : Text) (extPort intPort : ℤ)
    (args : PortArgs) : Gateway.Kind where
  checks := manager.checks
  action := action
  payload wanService target :=
    SoapRequestBuilder.buildPortMappingXml RouterPortManager.defaultLabel action wanService
      extPort intPort target args.protocol args.enabled args.duration args.description
  args := args

/-- The requests of the older `forward_port`. -/
def clientKind (client : PortForwardingClient) (externalPort internalPort : ℤ)
    (args : PortArgs) : Gateway.Kind where
  checks := client.checks
  action := RouterPortManager.addAction
  payload wanService target :=
    SoapPortMapper.buildAddMappingXml wanService externalPort internalPort target args.protocol
      args.enabled args.duration args.description
  args := args

/-- What a program at one gateway comes to: its outcome, its requests and whose turn is
next. -/
structure Answers (k : Gateway.Kind) (execute : Text → Router (Option Bool)) : Prop where
  eval : ∀ (url : Text) (g : Gateway) (rest : List Gateway) (w : Network), w.pending = g :: rest →
    ∃ w', (execute url).eval Network.exec w = some ((g.answer k url).1, w') ∧
      w'.sent = w.sent ++ (g.answer k url).2 ∧
      ((∃ o, (g.answer k url).1 = .ok o) → w'.pending = rest ∧ w'.asked = w.asked ++ [url])

/-- The world after some requests. -/
def Network.after (w : Network) (posted : List Posted) : Network :=
  { w with sent := w.sent ++ posted }

theorem after_nil : w.after [] = w := by
  simp only [Network.after, List.append_nil]

/-- An exception is no outcome. -/
theorem not_ok_of_error {α : Type} {e : RouterExn} :
    ¬ ∃ a, (Except.error e : Except RouterExn α) = .ok a := by
  rintro ⟨a, h⟩
  cases h

/-- What both programs do with a service they have found. -/
theorem eval_mapping (k : Gateway.Kind) (send : Text → Text → SoapDocument → Router ℕ)
    (hsend : ∀ serviceUrl wanService xml, (send serviceUrl wanService xml).eval Network.exec w =
      match urlResult (UrlParse.urlparse k.checks serviceUrl) with
      | .error e => some (.error e, w)
      | .ok service =>
          match urlResult (SoapTransport.fullUrl service) with
          | .error e => some (.error e, w)
          | .ok url => some (w.current.status, w.posted url wanService k.action xml))
    (parsed : UrlParse.ParseResult) (info : GatewayService) :
    (if RouterPortManager.filtered k.args (RouterPortManager.routerIp parsed) then pure none
    else do
      let targetIp ← RouterPortManager.targetAddress k.args (RouterPortManager.routerIp parsed)
      let status ← send (RouterPortManager.serviceUrl parsed info.controlPath) info.serviceType
        (k.payload info.serviceType targetIp)
      if status = 200 then pure (some true) else pure (some false) :
        Router (Option Bool)).eval Network.exec w =
      some ((w.current.outcome (w.current.requestTo k parsed info)).1,
        w.after (w.current.outcome (w.current.requestTo k parsed info)).2) := by
  unfold Gateway.requestTo
  split
  · rw [show (pure none : Except RouterExn (Option SoapRequest)) = .ok none from rfl]
    rw [Gateway.outcome, after_nil]
    rfl
  simp only [Prog.bind_eq, Prog.eval_bind, eval_targetAddress]
  cases w.current.target k.args with
  | error e => rw [error_bind, Gateway.outcome, after_nil]
  | ok target =>
      simp only [hsend, Gateway.requestUrl, ok_bind]
      cases urlResult (UrlParse.urlparse k.checks
          (RouterPortManager.serviceUrl parsed info.controlPath)) with
      | error e => rw [error_bind, error_bind, Gateway.outcome, after_nil]
      | ok service =>
          simp only [ok_bind]
          cases urlResult (SoapTransport.fullUrl service) with
          | error e => simp only [error_bind, Gateway.outcome, after_nil]
          | ok url =>
              simp only [ok_bind]
              show _ = some ((w.current.status.map fun status => some (decide (status = 200))), _)
              cases w.current.status with
              | error e => rfl
              | ok status =>
                  by_cases hstatus : status = 200
                  · subst hstatus
                    rfl
                  · simp only [if_neg hstatus, Except.map, decide_eq_false hstatus]
                    rfl

theorem managerKind_checks (manager : RouterPortManager) (action : Text) (extPort intPort : ℤ)
    (args : PortArgs) : (managerKind manager action extPort intPort args).checks = manager.checks :=
  rfl

theorem managerKind_args (manager : RouterPortManager) (action : Text) (extPort intPort : ℤ)
    (args : PortArgs) : (managerKind manager action extPort intPort args).args = args := rfl

theorem clientKind_checks (client : PortForwardingClient) (externalPort internalPort : ℤ)
    (args : PortArgs) :
    (clientKind client externalPort internalPort args).checks = client.checks := rfl

theorem clientKind_args (client : PortForwardingClient) (externalPort internalPort : ℤ)
    (args : PortArgs) : (clientKind client externalPort internalPort args).args = args := rfl

/-- **A program at one gateway** that asks for the description and does what both programs do
with the service it finds. -/
theorem answers_of_mapping {k : Gateway.Kind} {execute : Text → Router (Option Bool)}
    {mapping : UrlParse.ParseResult → GatewayService → Router (Option Bool)}
    (hexecute : ∀ url, execute url =
      (Prog.ofExcept (urlResult (UrlParse.urlparse k.checks url))).bind fun parsed =>
        (GatewayProfileParser.fetchServiceInfo url).bind fun info =>
          match info with
          | none => .ret none
          | some info => mapping parsed info)
    (hmapping : ∀ parsed info (w : Network), (mapping parsed info).eval Network.exec w =
      some ((w.current.outcome (w.current.requestTo k parsed info)).1,
        w.after (w.current.outcome (w.current.requestTo k parsed info)).2)) :
    Answers k execute := by
  refine ⟨fun url g rest w hw => ?_⟩
  simp only [hexecute, Prog.eval_bind, eval_ofExcept, Gateway.answer, Gateway.request]
  cases urlResult (UrlParse.urlparse k.checks url) with
  | error e => exact ⟨w, rfl, (List.append_nil _).symm, fun h => absurd h not_ok_of_error⟩
  | ok parsed =>
      simp only [eval_fetchServiceInfo url hw, ok_bind]
      cases g.service with
      | error e => exact ⟨_, rfl, (List.append_nil _).symm, fun h => absurd h not_ok_of_error⟩
      | ok service =>
          cases service with
          | none => exact ⟨_, rfl, (List.append_nil _).symm, fun _ => ⟨rfl, rfl⟩⟩
          | some info => exact ⟨_, hmapping parsed info _, rfl, fun _ => ⟨rfl, rfl⟩⟩

/-- **`_execute_on_gateway`** comes to what the gateway answers. -/
theorem answers_executeOnGateway (manager : RouterPortManager) (action : Text)
    (extPort intPort : ℤ) (args : PortArgs) :
    Answers (managerKind manager action extPort intPort args)
      (manager.executeOnGateway action extPort intPort args) := by
  refine answers_of_mapping (fun url => ?_) fun parsed info w =>
    eval_mapping (managerKind manager action extPort intPort args)
      (fun serviceUrl wanService xml =>
        SoapTransport.sendRequest manager.checks serviceUrl wanService action xml)
      (fun serviceUrl wanService xml =>
        eval_sendRequest manager.checks serviceUrl wanService action xml) parsed info
  simp only [RouterPortManager.executeOnGateway, RouterPortManager.resolveService, Prog.bind_eq,
    Prog.bind_assoc, managerKind_checks]
  refine congrArg _ (funext fun parsed => congrArg _ (funext fun info => ?_))
  cases info with
  | none => rfl
  | some info => rfl

theorem legacy_targetAddress (args : PortArgs) (gatewayIp : Text) :
    PortForwardingClient.targetAddress args gatewayIp =
      RouterPortManager.targetAddress args gatewayIp := by
  unfold PortForwardingClient.targetAddress RouterPortManager.targetAddress
  cases args.lanip with
  | some ip => rfl
  | none => rfl

/-- The body of the older loop comes to what the gateway answers. -/
theorem answers_mapOnGateway (client : PortForwardingClient) (externalPort internalPort : ℤ)
    (args : PortArgs) :
    Answers (clientKind client externalPort internalPort args)
      (client.mapOnGateway externalPort internalPort args) := by
  refine answers_of_mapping (fun url => ?_) fun parsed info w =>
    eval_mapping (clientKind client externalPort internalPort args)
      (fun serviceUrl wanService xml =>
        SoapPortMapper.sendMappingRequest client.checks wanService serviceUrl xml)
      (fun serviceUrl wanService xml =>
        eval_sendMappingRequest client.checks serviceUrl wanService xml) parsed info
  simp only [PortForwardingClient.mapOnGateway, ServiceDescriptionParser.extractWanService,
    legacy_targetAddress, Prog.bind_eq, Prog.bind_assoc, clientKind_checks]
  refine congrArg _ (funext fun parsed => congrArg _ (funext fun info => ?_))
  cases info with
  | none => rfl
  | some info => rfl

end One

/-! ## The loops -/

/-- The loop over what the gateways answer; an exception ends it. -/
def runGateways (update : Bool → Option Bool → Bool) (k : Gateway.Kind) :
    Bool → List (Text × Gateway) → Except RouterExn Bool × List Posted
  | result, [] => (.ok result, [])
  | result, g :: rest =>
      match (g.2.answer k g.1).1 with
      | .error e => (.error e, (g.2.answer k g.1).2)
      | .ok outcome =>
          ((runGateways update k (update result outcome) rest).1,
            (g.2.answer k g.1).2 ++ (runGateways update k (update result outcome) rest).2)

section Loop

variable {update : Bool → Option Bool → Bool} {k : Gateway.Kind} {result : Bool}
  {gs : List (Text × Gateway)} {w : Network}

theorem runGateways_nil : runGateways update k result [] = (.ok result, []) := rfl

theorem runGateways_cons (g : Text × Gateway) (rest : List (Text × Gateway)) :
    runGateways update k result (g :: rest) =
      match (g.2.answer k g.1).1 with
      | .error e => (.error e, (g.2.answer k g.1).2)
      | .ok outcome =>
          ((runGateways update k (update result outcome) rest).1,
            (g.2.answer k g.1).2 ++ (runGateways update k (update result outcome) rest).2) := Eq.refl _

theorem eval_overGateways {execute : Text → Router (Option Bool)} (h : Answers k execute)
    (hw : w.pending = gs.map Prod.snd) :
    ∃ w', (RouterPortManager.overGateways update execute result (gs.map Prod.fst)).eval
        Network.exec w = some ((runGateways update k result gs).1, w') ∧
      w'.sent = w.sent ++ (runGateways update k result gs).2 ∧
      ((∃ b, (runGateways update k result gs).1 = .ok b) →
        w'.asked = w.asked ++ gs.map Prod.fst) := by
  induction gs generalizing result w with
  | nil => exact ⟨w, rfl, (List.append_nil _).symm, fun _ => (List.append_nil _).symm⟩
  | cons g rest ih =>
      obtain ⟨w₁, heval, hsent, hpending⟩ := h.eval g.1 g.2 (rest.map Prod.snd) w hw
      simp only [List.map_cons, RouterPortManager.overGateways, Prog.bind_eq, Prog.eval_bind,
        heval, runGateways_cons]
      cases hanswer : (g.2.answer k g.1).1 with
      | error e => exact ⟨w₁, rfl, hsent, fun h => absurd h not_ok_of_error⟩
      | ok outcome =>
          obtain ⟨hrest, hasked⟩ := hpending ⟨outcome, hanswer⟩
          obtain ⟨w₂, heval₂, hsent₂, hasked₂⟩ := @ih (update result outcome) _ hrest
          refine ⟨w₂, heval₂, ?_, fun h => ?_⟩
          · rw [hsent₂, hsent, List.append_assoc]
          · rw [hasked₂ h, hasked, List.append_assoc, List.singleton_append]

/-- **The loop comes to an end** exactly when no gateway raises. -/
theorem runGateways_ok_iff :
    (∃ b, (runGateways update k result gs).1 = .ok b) ↔
      ∀ g ∈ gs, ∃ o, (g.2.answer k g.1).1 = .ok o := by
  induction gs generalizing result with
  | nil => simp [runGateways_nil]
  | cons g rest ih =>
      rw [List.forall_mem_cons, runGateways_cons]
      cases hanswer : (g.2.answer k g.1).1 with
      | error e =>
          constructor
          · rintro ⟨b, hb⟩
            cases hb
          · rintro ⟨⟨o, ho⟩, -⟩
            cases ho
      | ok outcome =>
          simp only [ih]
          exact ⟨fun h => ⟨⟨outcome, rfl⟩, h⟩, fun h => h.2⟩

/-- Then every gateway is sent its own requests. -/
theorem sent_runGateways (h : ∀ g ∈ gs, ∃ o, (g.2.answer k g.1).1 = .ok o) :
    (runGateways update k result gs).2 = gs.flatMap fun g => (g.2.answer k g.1).2 := by
  induction gs generalizing result with
  | nil => rfl
  | cons g rest ih =>
      rw [List.forall_mem_cons] at h
      obtain ⟨⟨outcome, hanswer⟩, hrest⟩ := h
      rw [runGateways_cons, hanswer, List.flatMap_cons]
      simp only [ih hrest]

end Loop

/-! ## The calls -/

/-- The operations of a discovery. -/
def Discovers : RouterOp → Prop
  | .scanForGateways => True
  | .time => True
  | _ => False

theorem only_rescan (deadline : ℤ) (fuel : ℕ) (found : List Text) :
    (RouterPortManager.rescan deadline fuel found).Only Discovers := by
  induction fuel generalizing found with
  | zero => trivial
  | succ fuel ih =>
      unfold RouterPortManager.rescan
      split
      · refine Prog.only_bind (Prog.only_perform trivial) fun now => ?_
        split
        · exact Prog.only_bind (Prog.only_perform trivial) fun _ => ih _
        · trivial
      · trivial

theorem only_discoverGateways (manager : RouterPortManager) (fuel : ℕ) :
    (manager.discoverGateways fuel).Only Discovers := by
  refine Prog.only_bind (Prog.only_perform trivial) fun found => ?_
  refine Prog.only_bind (Prog.only_perform trivial) fun now => ?_
  refine Prog.only_bind (only_rescan _ fuel found) fun found => ?_
  split <;> trivial

theorem only_discoverWithRetry (client : PortForwardingClient) (fuel : ℕ) :
    (client.discoverWithRetry fuel).Only Discovers := by
  refine Prog.only_bind (Prog.only_perform trivial) fun found => ?_
  exact Prog.only_bind (Prog.only_perform trivial) fun now => only_rescan _ fuel found

/-- A discovery finds these gateways, whose turn comes next. -/
def Finds (discover : Router (List Text)) (w : Network) (gs : List (Text × Gateway)) : Prop :=
  w.pending = gs.map Prod.snd ∧
    ∃ w', discover.eval Network.exec w = some (.ok (gs.map Prod.fst), w')

theorem exec_discovers {o : RouterOp} {w w' : Network} {r : Except RouterExn o.Res}
    (ho : Discovers o) (h : w.exec o = some (r, w')) :
    (w'.pending, w'.asked, w'.sent) = (w.pending, w.asked, w.sent) := by
  cases o with
  | scanForGateways =>
      simp only [Network.exec] at h
      split at h
      · cases h
        rfl
      · cases h
  | time =>
      simp only [Network.exec] at h
      split at h
      · cases h
        rfl
      · cases h
  | _ => exact ho.elim

/-- A network on which the first scan finds the gateways. -/
def scannedNetwork (gs : List (Text × Gateway)) : Network where
  scans := [.ok (gs.map Prod.fst)]
  clock := [0, 0]
  pending := gs.map Prod.snd
  current := { get := .error .requestError, localAddress := .error .osError, post := .error .requestError }
  sent := []

/-- Every check of a URL passes. -/
def lenientManager : RouterPortManager where
  checks := ⟨fun _ => true, fun _ => true⟩

theorem rescan_of_found {deadline : ℤ} {fuel : ℕ} {found : List Text} (h : found ≠ []) :
    RouterPortManager.rescan deadline (fuel + 1) found = .ret found := by
  rw [RouterPortManager.rescan, if_neg h]
  rfl

theorem finds_scannedNetwork (manager : RouterPortManager) (fuel : ℕ)
    {gs : List (Text × Gateway)} (h : gs ≠ []) :
    Finds (manager.discoverGateways (fuel + 1)) (scannedNetwork gs) gs := by
  have hurls : gs.map Prod.fst ≠ [] := fun hnil => h (List.map_eq_nil_iff.mp hnil)
  refine ⟨rfl, { scannedNetwork gs with scans := [], clock := [0] }, ?_⟩
  simp only [RouterPortManager.discoverGateways, Prog.bind_eq, Prog.eval_bind, Prog.eval_perform,
    Network.exec, scannedNetwork, rescan_of_found hurls, Prog.eval, hurls, false_and, if_false]
  rfl

/-- **A call** is the loop over the gateways it has found. -/
theorem eval_call {update : Bool → Option Bool → Bool} {k : Gateway.Kind}
    {execute : Text → Router (Option Bool)} (h : Answers k execute) {discover : Router (List Text)}
    (hdiscover : discover.Only Discovers) {w : Network} {gs : List (Text × Gateway)}
    (hfinds : Finds discover w gs) :
    ∃ w', (discover.bind (RouterPortManager.overGateways update execute false)).eval Network.exec w =
        some ((runGateways update k false gs).1, w') ∧
      w'.sent = w.sent ++ (runGateways update k false gs).2 ∧
      ((∃ b, (runGateways update k false gs).1 = .ok b) →
        w'.asked = w.asked ++ gs.map Prod.fst) := by
  obtain ⟨hpending, w₁, heval⟩ := hfinds
  have hkept := Prog.only_eval (fun w : Network => (w.pending, w.asked, w.sent))
    (fun o w r w' ho hx => exec_discovers ho hx) hdiscover heval
  simp only [Prod.mk.injEq] at hkept
  obtain ⟨w₂, heval₂, hsent₂, hasked₂⟩ :=
    @eval_overGateways update k false gs w₁ execute h (hkept.1.trans hpending)
  refine ⟨w₂, ?_, hsent₂.trans (by rw [hkept.2.2]), fun hok => ?_⟩
  · rw [Prog.eval_bind, heval]
    exact heval₂
  · rw [hasked₂ hok, hkept.2.1]

section Calls

variable {w : Network} {gs : List (Text × Gateway)} {fuel : ℕ}

/-- The action of `forward_port`. -/
def forwardAction (args : PortArgs) : Text :=
  if args.disable then RouterPortManager.deleteAction else RouterPortManager.addAction

theorem eval_forwardPort (manager : RouterPortManager) (eport iport : ℤ) (args : PortArgs)
    (hfinds : Finds (manager.discoverGateways fuel) w gs) :
    ∃ w', (manager.forwardPort fuel eport iport args).eval Network.exec w =
        some ((runGateways RouterPortManager.anySuccess
          (managerKind manager (forwardAction args) eport iport args) false gs).1, w') ∧
      w'.sent = w.sent ++ (runGateways RouterPortManager.anySuccess
          (managerKind manager (forwardAction args) eport iport args) false gs).2 ∧
      ((∃ b, (runGateways RouterPortManager.anySuccess
          (managerKind manager (forwardAction args) eport iport args) false gs).1 = .ok b) →
        w'.asked = w.asked ++ gs.map Prod.fst) :=
  eval_call (answers_executeOnGateway manager (forwardAction args) eport iport args)
    (only_discoverGateways manager fuel) hfinds

theorem eval_isPortOpen (manager : RouterPortManager) (extPort : ℤ) (intPort : Option ℤ)
    (args : PortArgs) (hfinds : Finds (manager.discoverGateways fuel) w gs) :
    ∃ w', (manager.isPortOpen fuel extPort intPort args).eval Network.exec w =
      some ((runGateways RouterPortManager.lastOutcome
        (managerKind manager RouterPortManager.queryAction extPort
          (if intPort = none ∨ intPort = some 0 then extPort else intPort.getD extPort) args)
        false gs).1, w') := by
  obtain ⟨w', heval, -⟩ := @eval_call RouterPortManager.lastOutcome _ _
    (answers_executeOnGateway manager RouterPortManager.queryAction extPort
      (if intPort = none ∨ intPort = some 0 then extPort else intPort.getD extPort) args)
    _ (only_discoverGateways manager fuel) _ _ hfinds
  exact ⟨w', heval⟩

theorem eval_legacyForwardPort (client : PortForwardingClient) (externalPort internalPort : ℤ)
    (args : PortArgs) (hfinds : Finds (client.discoverWithRetry fuel) w gs) :
    ∃ w', (client.forwardPort fuel externalPort internalPort args).eval Network.exec w =
      some ((runGateways RouterPortManager.lastOutcome
        (clientKind client externalPort internalPort args) false gs).1, w') := by
  obtain ⟨w', heval, -⟩ := @eval_call RouterPortManager.lastOutcome _ _
    (answers_mapOnGateway client externalPort internalPort args)
    _ (only_discoverWithRetry client fuel) _ _ hfinds
  exact ⟨w', heval⟩

end Calls
