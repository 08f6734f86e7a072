/-
# Port mappings on the routers of the network (`router_gateway.py`)

`GatewayProfileParser`, `SoapRequestBuilder`, `SoapTransport`, `LANAddressResolver` and
`RouterPortManager`, method by method, as programs over what they call outside themselves.

* `XmlNode`, `getElementsByTagName` : a parsed device description;
* `RouterOp` : the scanner, the clock, the HTTP client and the UDP probe;
* `GatewayProfileParser.fetchServiceInfo`, `SoapTransport.sendRequest`,
  `RouterPortManager.executeOnGateway` : what is done with one gateway;
* `RouterPortManager.forwardPort`, `isPortOpen` : the loops over the discovered gateways.

Logging is left out.  `toxml` is left to the library: the payload of a request is the
document it is the text of.
-/
import StorageNode.Prog
import StorageNode.UrlParse

/-- The exceptions the gateway code raises or meets. -/
inductive RouterExn
  /-- `httpx.RequestError` -/
  | requestError
  /-- `httpx.InvalidURL`, which is no `RequestError` -/
  | invalidUrl
  /-- `xml.parsers.expat.ExpatError` -/
  | expatError
  | indexError
  | attributeError
  | valueError
  /-- `OSError`, also as `socket.error` -/
  | osError
  /-- anything else a library raises -/
  | other
  deriving DecidableEq

theorem ok_bind {α β : Type} (a : α) (f : α → Except RouterExn β) :
    (Except.ok a >>= f) = f a := rfl

theorem error_bind {α β : Type} (e : RouterExn) (f : α → Except RouterExn β) :
    (Except.error e >>= f) = .error e := rfl

/-- The exception of `urlparse`. -/
def UrlError.raised : UrlError → RouterExn
  | .valueError => .valueError

/-- A pure computation on URLs. -/
def urlResult {α : Type} (x : Except UrlError α) : Except RouterExn α :=
  match x with
  | .ok a => .ok a
  | .error e => .error e.raised

/-! ## Device descriptions -/

/-- A node of a parsed document: an element, or a node with a `data` attribute (a text, a
CDATA section, a comment or a processing instruction). -/
inductive XmlNode
  | element (tagName : Text) (childNodes : List XmlNode)
  | characterData (data : Text)

/-- An element in its document. -/
structure XmlElement where
  childNodes : List XmlNode
  /-- the children of its `parentNode` -/
  siblings : List XmlNode

mutual

/-- The elements of a name at a node and below it, in document order. -/
def XmlNode.named (name : Text) (siblings : List XmlNode) : XmlNode → List XmlElement
  | .characterData _ => []
  | .element tagName childNodes =>
      (if tagName = name then [⟨childNodes, siblings⟩] else []) ++
        namedAmong name childNodes childNodes

/-- The same for some of the children of a node. -/
def namedAmong (name : Text) (siblings : List XmlNode) : List XmlNode → List XmlElement
  | [] => []
  | node :: rest => node.named name siblings ++ namedAmong name siblings rest

end

/-- `getElementsByTagName`, called on the node with these children. -/
def getElementsByTagName (childNodes : List XmlNode) (name : Text) : List XmlElement :=
  namedAmong name childNodes childNodes

/-- `childNodes[0].data`. -/
def firstData : List XmlNode → Except RouterExn Text
  | [] => .error .indexError
  | .element _ _ :: _ => .error .attributeError
  | .characterData data :: _ => .ok data

/-- The content of a response: the children of the document when it is well-formed XML. -/
abbrev Content := Option (List XmlNode)

/-- `parseString`. -/
def parseString : Content → Except RouterExn (List XmlNode)
  | some document => .ok document
  | none => .error .expatError

/-! ## Requests -/

/-- `GatewayService` -/
structure GatewayService where
  controlPath : Text
  serviceType : Text
  deriving DecidableEq

/-- The document `build_port_mapping_xml` builds: the attributes of the envelope, the action
in its body with its attribute, and the text elements of the action. -/
structure SoapDocument where
  envelope : List (Text × Text)
  action : Text
  actionAttributes : List (Text × Text)
  fields : List (Text × Text)
  deriving DecidableEq

/-- A request of `conn.post`. -/
structure SoapRequest where
  url : Text
  content : SoapDocument
  headers : List (Text × Text)
  deriving DecidableEq

/-! ## Operations -/

/-- The operations of the gateway code. -/
inductive RouterOp
  /-- `self._scanner.scan_for_gateways()`, or `self._discovery.find_gateways()` -/
  | scanForGateways
  /-- `time.time()` -/
  | time
  /-- `httpx.get(profile_url).content` -/
  | get (url : Text)
  /-- the address of a UDP socket connected to a host -/
  | localAddress (host : Text)
  /-- `httpx.Client()` -/
  | newClient
  | post (request : SoapRequest)
  | closeClient

/-- What an operation answers with. -/
@[reducible] def RouterOp.Res : RouterOp → Type
  | .scanForGateways => List Text
  | .time => ℤ
  | .get _ => Content
  | .localAddress _ => Text
  | .post _ => ℕ
  | _ => Unit

/-- Programs of the gateway code. -/
abbrev Router (α : Type) : Type := Prog RouterOp RouterOp.Res RouterExn α

/-- Call an operation. -/
abbrev routerOp (o : RouterOp) : Router o.Res := Prog.perform o

/-- `str(n)`. -/
def intText (n : ℤ) : Text := (toString n).toList

/-- `str(x)` for an optional text. -/
def optionText : Option Text → Text
  | none => "None".toList
  | some s => s

namespace GatewayProfileParser

/-- The test of `fetch_service_info`. -/
def isWan (typeString : Text) : Bool :=
  "WANIPConnection".toList <:+: typeString || "WANPPPConnection".toList <:+: typeString

/-- The loop of `fetch_service_info`. -/
def findService : List XmlElement → Except RouterExn (Option GatewayService)
  | [] => .ok none
  | node :: rest => do
      let typeString ← firstData node.childNodes
      if isWan typeString then
        -- the first control URL anywhere below the parent, not only among its children
        match getElementsByTagName node.siblings "controlURL".toList with
        | [] => .error .indexError
        | ctrl :: _ => do
            let ctrlPath ← firstData ctrl.childNodes
            pure (some { controlPath := ctrlPath, serviceType := typeString })
      else findService rest

/-- What `fetch_service_info` does with the content it gets. -/
def readProfile (content : Content) : Except RouterExn (Option GatewayService) := do
  let dom ← parseString content
  findService (getElementsByTagName dom "serviceType".toList)

/-- `fetch_service_info`. -/
def fetchServiceInfo (profileUrl : Text) : Router (Option GatewayService) := do
  let rawXml ← ((routerOp (.get profileUrl)).bind fun content => .ret (some content)).tryExcept
    fun e => if e = RouterExn.requestError then pure none else Prog.raise e
  match rawXml with
  -- the description could not be fetched: the gateway is passed over
  | none => pure none
  | some content => Prog.ofExcept (readProfile content)

end GatewayProfileParser

namespace SoapRequestBuilder

/-- `_ENVELOPE_NS` and `_ENCODING_STYLE` -/
def envelopeAttributes : List (Text × Text) :=
  [("xmlns:s".toList, "http://schemas.xmlsoap.org/soap/envelope/".toList),
    ("s:encodingStyle".toList, "http://schemas.xmlsoap.org/soap/encoding/".toList)]

/-- `build_port_mapping_xml`; `defaultLabel` is the description of a mapping without one. -/
def buildPortMappingXml (defaultLabel actionName wanService : Text) (extPort intPort : ℤ)
    (targetHost : Option Text) (protocol : Text) (isEnabled leaseSeconds : ℤ)
    (label : Option Text) : SoapDocument :=
  -- a mapping that is not enabled gets a lease of one second
  let leaseSeconds := if isEnabled = 0 then 1 else leaseSeconds
  { envelope := envelopeAttributes
    action := "u:".toList ++ actionName
    actionAttributes := [("xmlns:u".toList, wanService)]
    fields :=
      [("NewRemoteHost".toList, []), ("NewExternalPort".toList, intText extPort),
        ("NewProtocol".toList, protocol), ("NewInternalPort".toList, intText intPort),
        ("NewInternalClient".toList, optionText targetHost),
        ("NewEnabled".toList, intText isEnabled),
        ("NewPortMappingDescription".toList, label.getD defaultLabel),
        ("NewLeaseDuration".toList, intText leaseSeconds)] }

end SoapRequestBuilder

namespace SoapTransport

/-- The URL of the request. -/
def fullUrl (parsed : UrlParse.ParseResult) : Except UrlError Text := do
  let port ← parsed.port
  pure (parsed.scheme ++ "://".toList ++ optionText parsed.hostname ++ ':' ::
    optionText (port.map fun p => intText p) ++ parsed.path)

/-- The request `send_request` makes once it has a client: the status code, 500 for a
`RequestError`. -/
def postRequest (parsed : UrlParse.ParseResult) (wanService actionName : Text)
    (xmlPayload : SoapDocument) : Router ℕ :=
  (do
    let url ← Prog.ofExcept (urlResult (fullUrl parsed))
    routerOp (.post
      { url, content := xmlPayload
        headers := [("SOAPAction".toList, wanService ++ '#' :: actionName),
          ("Content-Type".toList, "text/xml".toList)] })).tryExcept
    fun e => if e = RouterExn.requestError then pure 500 else Prog.raise e

/-- `send_request`: the status code of its result.  Without a client there is nothing to
close. -/
def sendRequest (checks : UrlParse.UrlChecks) (serviceUrl wanService actionName : Text)
    (xmlPayload : SoapDocument) : Router ℕ := do
  let parsed ← Prog.ofExcept (urlResult (UrlParse.urlparse checks serviceUrl))
  let opened ← ((routerOp .newClient).bind fun _ => .ret true).tryExcept
    fun e => if e = RouterExn.requestError then pure false else Prog.raise e
  -- `finally: conn.close()`, when there is a client
  if opened then
    (postRequest parsed wanService actionName xmlPayload).tryFinally (routerOp .closeClient)
  else pure 500

end SoapTransport

namespace LANAddressResolver

/-- `resolve`. -/
def resolve (gatewayIp : Option Text) : Router (Option Text) :=
  ((routerOp (.localAddress (gatewayIp.getD "8.8.8.8".toList))).bind fun a => .ret (some a)).tryExcept
    fun e => if e = RouterExn.osError then pure none else Prog.raise e

end LANAddressResolver

/-- The settings of a `RouterPortManager`, and the library's checks of URLs; times are
milliseconds. -/
structure RouterPortManager where
  fallbackPaths : List Text := []
  discoveryTimeout : ℤ := 5000
  checks : UrlParse.UrlChecks

/-- The optional arguments of `forward_port` and `is_port_open`. -/
structure PortArgs where
  router : Option Text := none
  lanip : Option Text := none
  disable : Bool := false
  protocol : Text := "TCP".toList
  duration : ℤ := 0
  description : Option Text := none

/-- `int(not disable)` -/
def PortArgs.enabled (args : PortArgs) : ℤ := if args.disable then 0 else 1

namespace RouterPortManager

/-- The `while` of `_discover_gateways`. -/
def rescan (deadline : ℤ) : ℕ → List Text → Router (List Text)
  | 0, _ => .hang
  | fuel + 1, found =>
      if found = [] then do
        let now ← routerOp .time
        if now < deadline then do
          let found ← routerOp .scanForGateways
          rescan deadline fuel found
        else pure found
      else pure found

/-- `_discover_gateways`. -/
def discoverGateways (manager : RouterPortManager) (fuel : ℕ) : Router (List Text) := do
  let found ← routerOp .scanForGateways
  let now ← routerOp .time
  let found ← rescan (now + manager.discoveryTimeout) fuel found
  -- the fallback paths are used only when nothing answered in time
  if found = [] ∧ manager.fallbackPaths ≠ [] then pure manager.fallbackPaths else pure found

/-- The service URL of `_resolve_service`. -/
def serviceUrl (parsed : UrlParse.ParseResult) (controlPath : Text) : Text :=
  parsed.scheme ++ "://".toList ++ parsed.netloc ++ controlPath

/-- The router's address of `_resolve_service`: `parsed.netloc.split(":")[0]`. -/
def routerIp (parsed : UrlParse.ParseResult) : Text := UrlParse.before ':' parsed.netloc

/-- `_resolve_service`: the service type, the service URL and the router's address. -/
def resolveService (manager : RouterPortManager) (profileUrl : Text) :
    Router (Option (Text × Text × Text)) := do
  -- a URL the library refuses raises out of the loop over the gateways
  let parsed ← Prog.ofExcept (urlResult (UrlParse.urlparse manager.checks profileUrl))
  let gatewayInfo ← GatewayProfileParser.fetchServiceInfo profileUrl
  match gatewayInfo with
  | none => pure none
  | some info =>
      pure (some (info.serviceType, serviceUrl parsed info.controlPath, routerIp parsed))

/-- `gw_ip not in router_filter`, when there is a filter. -/
def filtered (args : PortArgs) (gwIp : Text) : Bool :=
  match args.router with
  | none => false
  | some routerFilter => !(gwIp <:+: routerFilter)

/-- The internal client's address: the one given, or the one the network would use. -/
def targetAddress (args : PortArgs) (gwIp : Text) : Router (Option Text) :=
  match args.lanip with
  | some ip => pure (some ip)
  | none => LANAddressResolver.resolve (some gwIp)

/-- `"auto-generated-mapping"` -/
def defaultLabel : Text := "auto-generated-mapping".toList

/-- `_execute_on_gateway`. -/
def executeOnGateway (manager : RouterPortManager) (action : Text) (extPort intPort : ℤ)
    (args : PortArgs) (profileUrl : Text) : Router (Option Bool) := do
  let service ← manager.resolveService profileUrl
  match service with
  -- no WAN service: neither success nor failure
  | none => pure none
  | some (wanService, svcUrl, gwIp) =>
      if filtered args gwIp then pure none
      else do
        -- an address that could not be found out goes into the request as `None`
        let targetIp ← targetAddress args gwIp
        let xml := SoapRequestBuilder.buildPortMappingXml defaultLabel action wanService
          extPort intPort targetIp args.protocol args.enabled args.duration args.description
        let status ← SoapTransport.sendRequest manager.checks svcUrl wanService action xml
        if status = 200 then pure (some true) else pure (some false)

/-- `_ADD_ACTION`, `_DELETE_ACTION` and `_QUERY_ACTION` -/
def addAction : Text := "AddPortMapping".toList
def deleteAction : Text := "DeletePortMapping".toList
def queryAction : Text := "GetSpecificPortMappingEntry".toList

/-- The loop over the gateways, with how an outcome changes the result. -/
def overGateways (update : Bool → Option Bool → Bool) (execute : Text → Router (Option Bool)) :
    Bool → List Text → Router Bool
  | result, [] => pure result
  | result, url :: rest => do
      let outcome ← execute url
      overGateways update execute (update result outcome) rest

/-- `if outcome is True: any_success = True` -/
def anySuccess (result : Bool) (outcome : Option Bool) : Bool :=
  if outcome = some true then true else result

/-- `if outcome is True: mapped = True`, `elif outcome is False: mapped = False` -/
def lastOutcome (result : Bool) (outcome : Option Bool) : Bool :=
  if outcome = some true then true else if outcome = some false then false else result

/-- `forward_port` on the discovered gateways. -/
def forwardOn (manager : RouterPortManager) (eport iport : ℤ) (args : PortArgs)
    (gatewayUrls : List Text) : Router Bool :=
  overGateways anySuccess
    (manager.executeOnGateway (if args.disable then deleteAction else addAction) eport iport args)
    false gatewayUrls

/-- `forward_port`. -/
def forwardPort (manager : RouterPortManager) (fuel : ℕ) (eport iport : ℤ) (args : PortArgs) :
    Router Bool := do
  let gatewayUrls ← manager.discoverGateways fuel
  manager.forwardOn eport iport args gatewayUrls

/-- `is_port_open` on the discovered gateways. -/
def isOpenOn (manager : RouterPortManager) (extPort : ℤ) (intPort : Option ℤ) (args : PortArgs)
    (gatewayUrls : List Text) : Router Bool :=
  overGateways lastOutcome
    (manager.executeOnGateway queryAction extPort
      (if intPort = none ∨ intPort = some 0 then extPort else intPort.getD extPort) args)
    false gatewayUrls

/-- `is_port_open`. -/
def isPortOpen (manager : RouterPortManager) (fuel : ℕ) (extPort : ℤ) (intPort : Option ℤ)
    (args : PortArgs) : Router Bool := do
  let gatewayUrls ← manager.discoverGateways fuel
  manager.isOpenOn extPort intPort args gatewayUrls

/-- `get_my_ip`. -/
def getMyIp (gatewayIp : Option Text) : Router (Option Text) :=
  LANAddressResolver.resolve gatewayIp

end RouterPortManager
