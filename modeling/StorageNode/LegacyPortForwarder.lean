/-
# The older port forwarder (`legacy_port_forwarder.py`)

`PortForwardingClient` and its collaborators: what `router_gateway.py` does with one gateway,
with other texts and another loop.

* `ServiceDescriptionParser.extractWanService`, `SoapPortMapper.buildAddMappingXml`,
  `SoapPortMapper.sendMappingRequest`, `LanIpResolver.getLocalAddress` : the collaborators;
* `PortForwardingClient.mapOnGateway` : the body of the loop of `forward_port`;
* `PortForwardingClient.forwardPort` : the loop, whose last outcome is the result.
-/
import StorageNode.RouterGateway

namespace ServiceDescriptionParser

/-- `extract_wan_service`: the control path and the type. -/
def extractWanService (profileUrl : Text) : Router (Option (Text × Text)) := do
  let info ← GatewayProfileParser.fetchServiceInfo profileUrl
  pure (info.map fun service => (service.controlPath, service.serviceType))

end ServiceDescriptionParser

namespace SoapPortMapper

/-- `"generated by port-forward.py"` -/
def defaultLabel : Text := "generated by port-forward.py".toList

/-- `build_add_mapping_xml`. -/
def buildAddMappingXml (wanService : Text) (extPort intPort : ℤ) (targetIp : Option Text)
    (protocol : Text) (enabled lease : ℤ) (label : Option Text) : SoapDocument :=
  SoapRequestBuilder.buildPortMappingXml defaultLabel RouterPortManager.addAction wanService
    extPort intPort targetIp protocol enabled lease label

/-- `send_mapping_request`: the status code.  Closing the client belongs to the `try`. -/
def sendMappingRequest (checks : UrlParse.UrlChecks) (wanService serviceUrl : Text)
    (xmlPayload : SoapDocument) : Router ℕ := do
  let parsed ← Prog.ofExcept (urlResult (UrlParse.urlparse checks serviceUrl))
  (do
    routerOp .newClient
    (do
      let url ← Prog.ofExcept (urlResult (SoapTransport.fullUrl parsed))
      routerOp (.post
        { url, content := xmlPayload
          headers := [("SOAPAction".toList, wanService ++ '#' :: RouterPortManager.addAction),
            ("Content-Type".toList, "text/xml".toList)] })).tryFinally
      (routerOp .closeClient)).tryExcept
    fun e => if e = RouterExn.requestError then pure 500 else Prog.raise e

end SoapPortMapper

namespace LanIpResolver

/-- `get_local_address`. -/
def getLocalAddress (gatewayIp : Option Text) : Router (Option Text) :=
  LANAddressResolver.resolve gatewayIp

end LanIpResolver

/-- The settings of a `PortForwardingClient`. -/
structure PortForwardingClient where
  retryTimeout : ℤ := 10000
  checks : UrlParse.UrlChecks

namespace PortForwardingClient

/-- `_discover_with_retry`. -/
def discoverWithRetry (client : PortForwardingClient) (fuel : ℕ) : Router (List Text) := do
  let found ← routerOp .scanForGateways
  let now ← routerOp .time
  -- the deadline is counted from the end of the first search; there are no fallback paths
  RouterPortManager.rescan (now + client.retryTimeout) fuel found

/-- The internal client's address. -/
def targetAddress (args : PortArgs) (gatewayIp : Text) : Router (Option Text) :=
  match args.lanip with
  | some ip => pure (some ip)
  | none => LanIpResolver.getLocalAddress (some gatewayIp)

/-- The body of the loop of `forward_port`: nothing for a gateway that is passed over. -/
def mapOnGateway (client : PortForwardingClient) (externalPort internalPort : ℤ)
    (args : PortArgs) (profileUrl : Text) : Router (Option Bool) := do
  let parsedUrl ← Prog.ofExcept (urlResult (UrlParse.urlparse client.checks profileUrl))
  let serviceInfo ← ServiceDescriptionParser.extractWanService profileUrl
  match serviceInfo with
  -- no WAN service: the `continue` of the loop, `all_ok` stays what it was
  | none => pure none
  | some (servicePath, wanService) =>
      let serviceUrl := RouterPortManager.serviceUrl parsedUrl servicePath
      let gatewayIp := RouterPortManager.routerIp parsedUrl
      if RouterPortManager.filtered args gatewayIp then pure none
      else do
        -- as in `router_gateway.py`, an unknown address is sent as `None`
        let targetIp ← targetAddress args gatewayIp
        let xml := SoapPortMapper.buildAddMappingXml wanService externalPort internalPort
          targetIp args.protocol args.enabled args.duration args.description
        let status ← SoapPortMapper.sendMappingRequest client.checks wanService serviceUrl xml
        if status = 200 then pure (some true) else pure (some false)

/-- `forward_port` on the discovered gateways: `all_ok` is what the last one made of it. -/
def forwardOn (client : PortForwardingClient) (externalPort internalPort : ℤ) (args : PortArgs)
    (gatewayUrls : List Text) : Router Bool :=
  RouterPortManager.overGateways RouterPortManager.lastOutcome
    (client.mapOnGateway externalPort internalPort args) false gatewayUrls

/-- `forward_port`. -/
def forwardPort (client : PortForwardingClient) (fuel : ℕ) (externalPort internalPort : ℤ)
    (args : PortArgs) : Router Bool := do
  let gatewayUrls ← client.discoverWithRetry fuel
  client.forwardOn externalPort internalPort args gatewayUrls

end PortForwardingClient
