/-
# The search for gateways (`SSDPScanner`, `LegacyGatewayDiscovery`)

Both multicast a search request and read responses from the same UDP socket; the first takes
one datagram, the second up to ten.

* `decodeIgnore`, `findHeaders`, `extractLocation` : what is read out of a response;
* `SSDPScanner.scanForGateways`, `LegacyGatewayDiscovery.findGateways` : the two receive loops;
* `Udp.exec` : a socket on which some datagrams arrive before the first error;
* `eval_scanForGateways`, `eval_findGateways` : what the loops return.
-/
import StorageNode.RouterGateway
import StorageNode.FileStore

/-! ## Responses -/

/-- `data.decode("utf-8", errors="ignore")`: bytes that begin no character are passed over. -/
def decodeIgnoring : ℕ → Bytes → Text
  | 0, _ => []
  | fuel + 1, data =>
      if data = [] then []
      else
        match data.toByteArray.utf8DecodeChar? 0 with
        | some c => c :: decodeIgnoring fuel (data.drop c.utf8Size)
        -- a byte that begins no character is dropped alone
        | none => decodeIgnoring fuel (data.drop 1)

def decodeIgnore (data : Bytes) : Text := decodeIgnoring data.length data

/-- `(?P<value>.*?)\r\n` at the start of a text: the value and what follows.  The group grows
by one character as long as no line break has been met; a point does not match one. -/
def matchValue : Text → Option (Text × Text)
  | [] => none
  | '\r' :: '\n' :: rest => some ([], rest)
  | '\n' :: _ => none
  | c :: rest => (matchValue rest).map fun m => (c :: m.1, m.2)

/-- `(?P<name>.*?): (?P<value>.*?)\r\n` at the start of a text: when the value after one `: `
cannot be completed, the name goes on to the next. -/
def matchHeader : Text → Option ((Text × Text) × Text)
  | [] => none
  | c :: rest =>
      -- a lazy group: the shortest name comes first
      let here :=
        if c = ':' ∧ rest.head? = some ' ' then
          (matchValue (rest.drop 1)).map fun m => (([], m.1), m.2)
        else none
      match here with
      | some m => some m
      | none =>
          -- a point does not match the line feed, so no name goes beyond it
          if c = '\n' then none
          else (matchHeader rest).map fun m => ((c :: m.1.1, m.1.2), m.2)

/-- `re.findall`: each search begins where the last match ended, and moves on by one
character where there is no match. -/
def findHeaders : ℕ → Text → List (Text × Text)
  | 0, _ => []
  | fuel + 1, text =>
      match matchHeader text with
      | some (header, rest) => header :: findHeaders fuel rest
      | none =>
          match text with
          | [] => []
          | _ :: rest => findHeaders fuel rest

/-- The headers of a decoded response. -/
def headersOf (decoded : Text) : List (Text × Text) := findHeaders (decoded.length + 1) decoded

/-- What `_extract_location` and `_parse_location_header` do with a response. -/
def locationOf (raw : Bytes) : Option Text :=
  (((headersOf (decodeIgnore raw)).filter fun header =>
    UrlParse.lower header.1 = "location".toList).map Prod.snd).head?

/-! ## Operations -/

/-- The operations of a search. -/
inductive UdpOp
  | newSocket
  | sendTo (packet : Text)
  /-- `settimeout` or `setblocking` -/
  | setTimeout
  /-- `time.sleep` -/
  | sleep
  | recvFrom (bufsize : ℕ)
  | close

@[reducible] def UdpOp.Res : UdpOp → Type
  | .recvFrom _ => Bytes
  | _ => Unit

/-- Programs of a search. -/
abbrev Udp (α : Type) : Type := Prog UdpOp UdpOp.Res RouterExn α

/-- Call an operation. -/
abbrev udpOp (o : UdpOp) : Udp o.Res := Prog.perform o

/-- `"\r\n".join(lines)` -/
def joinLines (lines : List Text) : Text := List.intercalate "\r\n".toList lines

/-- `except socket.error` -/
def onSocketError {α : Type} (p : Udp α) (value : α) : Udp α :=
  p.tryExcept fun e => if e = RouterExn.osError then pure value else Prog.raise e

/-- `if location: discovered.append(location)` -/
def addLocation (discovered : List Text) (location : Option Text) : List Text :=
  match location with
  | none => discovered
  | some url => if url = [] then discovered else discovered ++ [url]

namespace SSDPScanner

/-- `_build_search_packet`. -/
def buildSearchPacket : Text :=
  joinLines (["M-SEARCH * HTTP/1.1", "HOST:239.255.255.250:1900", "ST:upnp:rootdevice", "MX:2",
    "MAN:\"ssdp:discover\"", "", ""].map String.toList)

/-- `_extract_location`. -/
def extractLocation (rawResponse : Bytes) : Option Text := locationOf rawResponse

/-- The `while True` of `scan_for_gateways`, which is left in its first round, by `break`
after a response or by the one after an error. -/
def receiveLoop (discoveredPaths : List Text) : Udp (List Text) :=
  onSocketError (do
    let rawData ← udpOp (.recvFrom 1024)
    pure (addLocation discoveredPaths (extractLocation rawData))) discoveredPaths

/-- `scan_for_gateways`. -/
def scanForGateways : Udp (List Text) := do
  udpOp .newSocket
  udpOp (.sendTo buildSearchPacket)
  udpOp .setTimeout
  let discoveredPaths ← receiveLoop []
  -- `close` is reached only when no other exception left the loop
  udpOp .close
  pure discoveredPaths

end SSDPScanner

namespace LegacyGatewayDiscovery

/-- `_build_search_message`. -/
def buildSearchMessage : Text :=
  joinLines (["M-SEARCH * HTTP/1.1", "HOST: 239.255.255.250:1900", "MAN: \"ssdp:discover\"",
    "MX: 2", "ST: urn:schemas-upnp-org:device:InternetGatewayDevice:1", ""].map String.toList)

/-- `_parse_location_header`. -/
def parseLocationHeader (rawData : Bytes) : Option Text := locationOf rawData

/-- The `for` of `find_gateways`. -/
def receiveLoop : ℕ → List Text → Udp (List Text)
  | 0, discovered => pure discovered
  | rounds + 1, discovered => do
      let next ← onSocketError (do
        let raw ← udpOp (.recvFrom 1024)
        pure (some (addLocation discovered (parseLocationHeader raw)))) none
      match next with
      | some discovered => receiveLoop rounds discovered
      -- an error ends the loop, what has been found stays
      | none => pure discovered

/-- `_MAX_RESPONSES` -/
def maxResponses : ℕ := 10

/-- `find_gateways`. -/
def findGateways : Udp (List Text) := do
  udpOp .newSocket
  udpOp .setTimeout
  udpOp (.sendTo buildSearchMessage)
  udpOp .sleep
  let discovered ← receiveLoop maxResponses []
  udpOp .close
  pure discovered

end LegacyGatewayDiscovery

/-! ## A socket with some responses -/

/-- The datagrams that arrive before the first error; each is cut off at the buffer's size. -/
def Udp.exec (o : UdpOp) (datagrams : List Bytes) :
    Option (Except RouterExn o.Res × List Bytes) :=
  match o with
  | .recvFrom bufsize =>
      match datagrams with
      | [] => some (.error .osError, [])
      | raw :: rest => some (.ok (raw.take bufsize), rest)
  | .newSocket => some (.ok (), datagrams)
  | .sendTo _ => some (.ok (), datagrams)
  | .setTimeout => some (.ok (), datagrams)
  | .sleep => some (.ok (), datagrams)
  | .close => some (.ok (), datagrams)

/-- The location a received datagram carries: what the parser of the program finds in the first
1024 bytes, which are all that `recvfrom` hands over. -/
def carried (raw : Bytes) : Option Text :=
  match locationOf (raw.take 1024) with
  | some [] => none
  | location => location

/-- The locations of all datagrams that carry one, in order. -/
def locations (datagrams : List Bytes) : List Text := datagrams.filterMap carried

theorem addLocation_locationOf (discovered : List Text) (raw : Bytes) :
    addLocation discovered (locationOf (raw.take 1024)) = discovered ++ (carried raw).toList := by
  unfold carried addLocation
  cases locationOf (raw.take 1024) with
  | none => exact (List.append_nil _).symm
  | some url =>
      cases url with
      | nil => exact (List.append_nil _).symm
      | cons c url => rfl

theorem locations_cons (raw : Bytes) (rest : List Bytes) :
    locations (raw :: rest) = (carried raw).toList ++ locations rest := by
  unfold locations
  rw [List.filterMap_cons]
  cases carried raw <;> rfl

/-- **`scan_for_gateways`** takes one datagram. -/
theorem eval_scanForGateways (datagrams : List Bytes) :
    SSDPScanner.scanForGateways.eval Udp.exec datagrams =
      some (.ok (locations (datagrams.take 1)), datagrams.drop 1) := by
  cases datagrams with
  | nil => rfl
  | cons raw rest =>
      have hraw := addLocation_locationOf [] raw
      show some (Except.ok (addLocation [] (locationOf (raw.take 1024))), rest) = _
      have hnil : locations [] = [] := rfl
      rw [hraw, List.take_succ_cons, List.take_zero, locations_cons, hnil, List.append_nil]
      rfl

theorem eval_receiveLoop (rounds : ℕ) (discovered : List Text) (datagrams : List Bytes) :
    (LegacyGatewayDiscovery.receiveLoop rounds discovered).eval Udp.exec datagrams =
      some (.ok (discovered ++ locations (datagrams.take rounds)), datagrams.drop rounds) := by
  induction rounds generalizing discovered datagrams with
  | zero =>
      rw [List.take_zero, List.drop_zero]
      simp only [LegacyGatewayDiscovery.receiveLoop, Prog.pure_eq, Prog.eval, locations,
        List.filterMap_nil, List.append_nil]
  | succ rounds ih =>
      cases datagrams with
      | nil =>
          have hnone : discovered ++ locations ([] : List Bytes) = discovered := List.append_nil _
          rw [List.take_nil, hnone]
          rfl
      | cons raw rest =>
          have hstep : (LegacyGatewayDiscovery.receiveLoop (rounds + 1) discovered).eval Udp.exec
              (raw :: rest) = (LegacyGatewayDiscovery.receiveLoop rounds
                (addLocation discovered (locationOf (raw.take 1024)))).eval Udp.exec rest := rfl
          rw [hstep, addLocation_locationOf, ih, List.take_succ_cons, locations_cons,
            List.append_assoc, List.drop_succ_cons]

/-- **`find_gateways`** takes ten. -/
theorem eval_findGateways (datagrams : List Bytes) :
    LegacyGatewayDiscovery.findGateways.eval Udp.exec datagrams =
      some (.ok (locations (datagrams.take 10)), datagrams.drop 10) := by
  simp only [LegacyGatewayDiscovery.findGateways, Prog.bind_eq, Prog.eval_bind, Prog.eval_perform,
    Udp.exec, eval_receiveLoop, LegacyGatewayDiscovery.maxResponses, List.nil_append, Prog.pure_eq,
    Prog.eval]
