/-
# Which gateways a scan finds

The search target of `scan_for_gateways` makes every UPnP root device answer, and the order in
which the answers arrive is the network's.

* `ScanComplete`, `ReachesAll` : a scan returns the locations of all datagrams that carry one,
  and `forward_port` goes to each of them;
* `no_gateway_hidden_iff` : this is so exactly when only the first datagram carries one;
* `media_server_hides_router` : a media server that answers first hides the router.
-/
import StorageNode.SsdpScan
import StorageNode.GatewayNetwork

/-- What a program on the socket returns. -/
def Udp.returns {α : Type} (p : Udp α) (datagrams : List Bytes) :
    Option (Except RouterExn α) :=
  (p.eval Udp.exec datagrams).map Prod.fst

/-- **A scan returns the locations of all responses**, as the older one does for ten. -/
def ScanComplete (datagrams : List Bytes) : Prop :=
  Udp.returns SSDPScanner.scanForGateways datagrams = some (.ok (locations datagrams)) ∧
    (datagrams.length ≤ 10 →
      Udp.returns LegacyGatewayDiscovery.findGateways datagrams = some (.ok (locations datagrams)))

/-- **`forward_port` reaches every response** of its first scan: when it returns, it has asked
each of the devices for its description, and has made the request to it that the description
and the other answers lead to. -/
def ReachesAll (datagrams : List Bytes) : Prop :=
  ∀ (manager : RouterPortManager) (fuel : ℕ) (eport iport : ℤ) (args : PortArgs) (w : Network)
    (gs : List (Text × Gateway)), w.scans.head? = Udp.returns SSDPScanner.scanForGateways datagrams →
    Finds (manager.discoverGateways fuel) w gs →
    ∀ b w', (manager.forwardPort fuel eport iport args).eval Network.exec w = some (.ok b, w') →
      ∀ url ∈ locations datagrams, url ∈ w'.asked ∧ ∃ g, (url, g) ∈ gs ∧
        ∀ p ∈ (g.answer (managerKind manager (forwardAction args) eport iport args) url).2,
          p ∈ w'.sent

/-- A discovery whose first scan finds something finds that. -/
theorem found_of_scan {manager : RouterPortManager} {fuel : ℕ} {w w' : Network}
    {first found : List Text} (hscan : w.scans.head? = some (.ok first)) (hfirst : first ≠ [])
    (h : (manager.discoverGateways fuel).eval Network.exec w = some (.ok found, w')) :
    found = first := by
  have hexec : Network.exec .scanForGateways w =
      some (.ok first, { w with scans := w.scans.tail }) := by
    cases hs : w.scans with
    | nil =>
        rw [hs] at hscan
        cases hscan
    | cons r rest =>
        rw [hs] at hscan
        cases hscan
        simp only [Network.exec, hs, List.tail_cons]
  simp only [RouterPortManager.discoverGateways, Prog.bind_eq, Prog.eval_bind, Prog.eval_perform,
    hexec] at h
  cases hclock : w.clock with
  | nil =>
      simp only [Network.exec, hclock] at h
      cases h
  | cons t rest =>
      simp only [Network.exec, hclock] at h
      cases fuel with
      | zero => cases h
      | succ fuel =>
          rw [rescan_of_found hfirst] at h
          simp only [Prog.eval, hfirst, false_and, if_false, Prog.pure_eq, Option.some.injEq,
            Prod.mk.injEq, Except.ok.injEq] at h
          exact h.1.symm

theorem locations_eq_nil_iff (datagrams : List Bytes) :
    locations datagrams = [] ↔ ∀ raw ∈ datagrams, carried raw = none :=
  List.filterMap_eq_nil_iff

/-- One datagram stands for all when no later one carries a location. -/
theorem locations_take_one_iff (datagrams : List Bytes) :
    locations (datagrams.take 1) = locations datagrams ↔
      ∀ raw ∈ datagrams.tail, carried raw = none := by
  cases datagrams with
  | nil => exact ⟨fun _ raw hraw => absurd hraw List.not_mem_nil, fun _ => rfl⟩
  | cons raw rest =>
      have hnil : locations [] = [] := rfl
      rw [List.take_succ_cons, List.take_zero, locations_cons, locations_cons, hnil,
        List.append_cancel_left_eq, eq_comm, locations_eq_nil_iff, List.tail_cons]

theorem returns_scanForGateways (datagrams : List Bytes) :
    Udp.returns SSDPScanner.scanForGateways datagrams =
      some (.ok (locations (datagrams.take 1))) := by
  rw [Udp.returns, eval_scanForGateways]
  rfl

theorem returns_findGateways {datagrams : List Bytes} (h : datagrams.length ≤ 10) :
    Udp.returns LegacyGatewayDiscovery.findGateways datagrams =
      some (.ok (locations datagrams)) := by
  rw [Udp.returns, eval_findGateways, List.take_of_length_le h]
  rfl

/-- **When no gateway is hidden.**  For every sequence of responses: a scan returns the
locations of all of them and `forward_port` goes to each, exactly when no response after the
first one carries a location. -/
theorem no_gateway_hidden_iff (datagrams : List Bytes) :
    ScanComplete datagrams ∧ ReachesAll datagrams ↔
      ∀ raw ∈ datagrams.tail, carried raw = none := by
  rw [← locations_take_one_iff]
  constructor
  · rintro ⟨⟨hscan, -⟩, -⟩
    rw [returns_scanForGateways] at hscan
    exact Except.ok.inj (Option.some.inj hscan)
  · intro hone
    have hscan : Udp.returns SSDPScanner.scanForGateways datagrams =
        some (.ok (locations datagrams)) := by
      rw [returns_scanForGateways, hone]
    refine ⟨⟨hscan, returns_findGateways⟩, ?_⟩
    intro manager fuel eport iport args w gs hfirst hfinds b w' heval url hurl
    rw [hscan] at hfirst
    obtain ⟨w₁, hdiscover⟩ := hfinds.2
    have hfound : gs.map Prod.fst = locations datagrams :=
      found_of_scan hfirst (List.ne_nil_of_mem hurl) hdiscover
    obtain ⟨w₂, heval₂, hsent, hasked⟩ := eval_forwardPort manager eport iport args hfinds
    rw [heval, Option.some.injEq, Prod.mk.injEq] at heval₂
    obtain ⟨hb, rfl⟩ := heval₂
    refine ⟨?_, ?_⟩
    · rw [hasked ⟨b, hb.symm⟩, hfound]
      exact List.mem_append_right _ hurl
    · rw [← hfound] at hurl
      obtain ⟨⟨url, g⟩, hg, rfl⟩ := List.mem_map.mp hurl
      refine ⟨g, hg, fun p hp => ?_⟩
      rw [hsent, sent_runGateways (runGateways_ok_iff.mp ⟨b, hb.symm⟩)]
      exact List.mem_append_right _ (List.mem_flatMap.mpr ⟨(url, g), hg, hp⟩)

/-! ## Two devices -/

/-- A response of a device with this location. -/
def response (location : String) : Bytes :=
  ("HTTP/1.1 200 OK\r\nLOCATION: " ++ location ++ "\r\n\r\n").toList.map fun c => c.toNat.toUInt8

/-- **A media server hides the router.**  It answers first; the scan returns its location
alone, although the older search returns both. -/
theorem media_server_hides_router :
    ¬ ScanComplete [response "http://192.168.1.9/d.xml", response "http://192.168.1.1/r.xml"] ∧
      Udp.returns LegacyGatewayDiscovery.findGateways
          [response "http://192.168.1.9/d.xml", response "http://192.168.1.1/r.xml"] =
        some (.ok ["http://192.168.1.9/d.xml".toList, "http://192.168.1.1/r.xml".toList]) := by
  have hall : locations [response "http://192.168.1.9/d.xml", response "http://192.168.1.1/r.xml"] =
      ["http://192.168.1.9/d.xml".toList, "http://192.168.1.1/r.xml".toList] := by
    decide +kernel
  have hone : locations [response "http://192.168.1.9/d.xml"] =
      ["http://192.168.1.9/d.xml".toList] := by
    decide +kernel
  constructor
  · rintro ⟨hscan, -⟩
    rw [returns_scanForGateways, List.take_succ_cons, List.take_zero, hone, hall] at hscan
    exact absurd (congrArg List.length (Except.ok.inj (Option.some.inj hscan))) (by decide)
  · rw [returns_findGateways (by decide), hall]
