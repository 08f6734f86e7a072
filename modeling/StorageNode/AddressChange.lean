/-
# A change of the local address (`request_dispatcher.py`, `service_workers.py`)

`check_once` on a node that is not local and has a router: the handler asks the router for a
mapping of the primary port and of every port in the ledger, one after the other, and stores
the address.  It reads none of the answers; only an exception stops it.

* `AddressCheck`, `AddressWorld` : how each call of a check turns out, and what the check
  changes;
* `readdress`, `eval_onLocalIpChanged` : the calls of the handler, up to the first exception;
* `AppliedOrKept` : the new address is taken only with every mapping, else the old one is kept;
* `address_change_iff` : when that is so;
* `kept_address_retried` : with the old address kept, the next check asks for the mappings
  again;
* `refused_mapping_applied` : a router that answers `False` is not noticed.
-/
import StorageNode.NetworkWatcher

/-- How the calls of one check turn out. -/
structure AddressCheck where
  fetch : Except Exn String
  update : Except Exn Response
  /-- the address that `get_my_ip` returns -/
  myIp : String
  /-- the outcome of each call of `forward_port`, in their order -/
  forward : ℕ → Except Exn Bool
  listAll : Except Exn Json
  writeConfig : Except Exn Unit
  /-- the address in the configuration file after a failed `write_config` -/
  leftBehind : Option String

/-- A call of `forward_port` and its outcome. -/
abbrev Forwarded : Type := PortMapping × Except Exn Bool

/-- The addresses of `NodeConfig` and of the configuration file, and the mappings the check has
asked for. -/
structure AddressWorld where
  publicIp : String
  localIp : String
  fileIp : Option String
  forwarded : List Forwarded := []

/-- One operation. -/
def AddressWorld.exec (c : AddressCheck) (o : WatcherOp) (w : AddressWorld) :
    Option (Except Exn o.Res × AddressWorld) :=
  match o with
  | .fetchPublicIp => some (c.fetch, w)
  | .getMyIp => some (.ok (some c.myIp), w)
  | .publicIp => some (.ok w.publicIp, w)
  | .setPublicIp ip => some (.ok (), { w with publicIp := ip })
  | .localIp => some (.ok w.localIp, w)
  | .setLocalIp ip => some (.ok (), { w with localIp := ip })
  | .forwardPort mapping => some (c.forward w.forwarded.length,
      { w with forwarded := w.forwarded ++ [(mapping, c.forward w.forwarded.length)] })
  | .listAll => some (c.listAll, w)
  | .writeConfig => some (c.writeConfig,
      { w with fileIp := match c.writeConfig with
                         | .ok _ => some w.localIp
                         | .error _ => c.leftBehind })
  | .http (.request _ _ _ _) => some (c.update, w)

namespace AddressCheck

/-- The mapping of a port to the new address. -/
def mapping (c : AddressCheck) (port : Json) : PortMapping :=
  { port := port, lanip := some c.myIp, disable := false }

/-- The entries of the ledger, as the handler goes through them. -/
def entries (c : AddressCheck) : Except Exn (List Json) :=
  match c.listAll with
  | .ok active => pyIter active
  | .error e => .error e

/-- The mappings of the entries, when `n` mappings have been asked for. -/
def forwardEntries (c : AddressCheck) : ℕ → List Json → Except Exn Unit × List Forwarded
  | _, [] => (.ok (), [])
  | n, conn :: rest =>
      match portOf conn with
      | .error e => (.error e, [])
      | .ok port =>
          match c.forward n with
          | .error e => (.error e, [(c.mapping port, .error e)])
          | .ok b =>
              ((c.forwardEntries (n + 1) rest).1,
                (c.mapping port, .ok b) :: (c.forwardEntries (n + 1) rest).2)

/-- **The calls of the handler.** -/
def readdress (c : AddressCheck) (decentoragePort : ℤ) : Except Exn Unit × List Forwarded :=
  match c.forward 0 with
  | .error e => (.error e, [(c.mapping (.int decentoragePort), .error e)])
  | .ok b =>
      match c.entries with
      | .error e => (.error e, [(c.mapping (.int decentoragePort), .ok b)])
      | .ok conns =>
          ((c.forwardEntries 1 conns).1,
            (c.mapping (.int decentoragePort), .ok b) :: (c.forwardEntries 1 conns).2)

end AddressCheck

/-! ## One check -/

section Check

variable {c : AddressCheck} {cfg : Config} {client : CoordinationClient} {decentoragePort : ℤ}

theorem eval_forwardAll (conns : List Json) (w : AddressWorld) :
    (NetworkChangeHandler.forwardAll c.myIp conns).eval (AddressWorld.exec c) w =
      some ((c.forwardEntries w.forwarded.length conns).1, { w with
        forwarded := w.forwarded ++ (c.forwardEntries w.forwarded.length conns).2 }) := by
  induction conns generalizing w with
  | nil =>
      simp only [AddressCheck.forwardEntries, List.append_nil]
      rfl
  | cons conn rest ih =>
      simp only [NetworkChangeHandler.forwardAll, AddressCheck.forwardEntries]
      cases portOf conn with
      | error e =>
          simp only [List.append_nil]
          rfl
      | ok port =>
          have hforward : AddressWorld.exec c
              (.forwardPort { port := port, lanip := some c.myIp, disable := false }) w =
              some (c.forward w.forwarded.length, { w with forwarded :=
                w.forwarded ++ [(c.mapping port, c.forward w.forwarded.length)] }) := rfl
          simp only [Prog.ofExcept, Prog.bind_eq, Prog.ret_bind, Prog.eval_bind,
            Prog.eval_perform, hforward]
          cases c.forward w.forwarded.length with
          | error e => rfl
          | ok b =>
              simp only [ih, List.length_append, List.length_singleton, List.append_assoc,
                List.singleton_append]

/-- **The handler**: the address is stored when nothing has raised. -/
theorem eval_onLocalIpChanged (c : AddressCheck) (decentoragePort : ℤ)
    (hlocal : cfg.isLocal = false) (hrouter : cfg.router = true) (w : AddressWorld)
    (hw : w.forwarded = []) :
    (NetworkChangeHandler.onLocalIpChanged cfg decentoragePort c.myIp).eval
        (AddressWorld.exec c) w =
      some ((c.readdress decentoragePort).1, { w with
        localIp := match (c.readdress decentoragePort).1 with
                   | .ok _ => c.myIp
                   | .error _ => w.localIp
        forwarded := (c.readdress decentoragePort).2 }) := by
  have hforward : AddressWorld.exec c
      (.forwardPort { port := .int decentoragePort, lanip := some c.myIp, disable := false }) w =
      some (c.forward 0, { w with forwarded :=
        [(c.mapping (.int decentoragePort), c.forward 0)] }) := by
    simp only [AddressWorld.exec, hw, List.length_nil, List.nil_append]
    rfl
  simp only [NetworkChangeHandler.onLocalIpChanged, hlocal, hrouter, Bool.not_false,
    Bool.true_and, if_true, Prog.bind_eq, Prog.eval_bind, Prog.eval_perform, hforward]
  unfold AddressCheck.readdress
  cases c.forward 0 with
  | error e => rfl
  | ok b =>
      have hlist : ∀ w, AddressWorld.exec c .listAll w = some (c.listAll, w) := fun _ => rfl
      simp only [hlist, AddressCheck.entries]
      cases c.listAll with
      | error e => rfl
      | ok active =>
          dsimp only
          cases pyIter active with
          | error e => rfl
          | ok conns =>
              simp only [Prog.ofExcept, Prog.eval, eval_forwardAll, List.length_singleton,
                List.singleton_append]
              cases (c.forwardEntries 1 conns).1 with
              | error e => rfl
              | ok u => rfl

/-- What comes before changes the public address at most. -/
theorem eval_checkPublicIp_address (c : AddressCheck) (client : CoordinationClient)
    (decentoragePort : ℤ) (w : AddressWorld) :
    ∃ ip, (NetworkWatcher.checkPublicIp client decentoragePort).eval (AddressWorld.exec c) w =
      some (.ok (), { w with publicIp := ip }) := by
  have hreport : ∀ w : AddressWorld,
      (NetworkChangeHandler.onPublicIpChanged client decentoragePort).eval
        (AddressWorld.exec c) w = some (reportedOf c.update, w) := by
    intro w
    have hip : AddressWorld.exec c .publicIp w = some (.ok w.publicIp, w) := rfl
    simp only [NetworkChangeHandler.onPublicIpChanged, Prog.bind_eq, Prog.eval_bind,
      Prog.eval_perform, hip, eval_watch]
    show ((client.safeRequest .patch _ (some _)).bind fun _ => .ret ()).eval _ _ = _
    rw [eval_report]
    rfl
  have hfetch : AddressWorld.exec c .fetchPublicIp w = some (c.fetch, w) := rfl
  have hip : AddressWorld.exec c .publicIp w = some (.ok w.publicIp, w) := rfl
  have hset : ∀ ip, AddressWorld.exec c (.setPublicIp ip) w =
      some (.ok (), { w with publicIp := ip }) := fun _ => rfl
  simp only [NetworkWatcher.checkPublicIp, Prog.eval_tryExcept, Prog.bind_eq, Prog.eval_bind,
    Prog.eval_perform, hfetch]
  cases c.fetch with
  | error e => exact ⟨w.publicIp, rfl⟩
  | ok ip =>
      simp only [hip]
      by_cases hnew : ip ≠ w.publicIp
      · refine ⟨ip, ?_⟩
        simp only [if_pos hnew, Prog.eval_bind, Prog.eval_perform, hset, hreport]
        cases reportedOf c.update with
        | ok u => rfl
        | error e => rfl
      · refine ⟨w.publicIp, ?_⟩
        rw [if_neg hnew]
        rfl

/-- The check sees a new local address. -/
def AddressCheck.SeesNew (c : AddressCheck) (w : AddressWorld) : Prop :=
  c.myIp ≠ "" ∧ c.myIp ≠ w.localIp

instance (c : AddressCheck) (w : AddressWorld) : Decidable (c.SeesNew w) :=
  inferInstanceAs (Decidable (_ ∧ _))

/-- A check, with no mapping asked for yet. -/
def AddressCheck.run (c : AddressCheck) (cfg : Config) (client : CoordinationClient)
    (decentoragePort : ℤ) (w : AddressWorld) : Option (Except Exn Unit × AddressWorld) :=
  (NetworkWatcher.checkOnce cfg client decentoragePort).eval (AddressWorld.exec c)
    { w with forwarded := [] }

/-- **The whole check** when it sees a new address. -/
theorem run_of_seesNew (hlocal : cfg.isLocal = false) (hrouter : cfg.router = true)
    {w : AddressWorld} (hnew : c.SeesNew w) :
    ∃ r ip, c.run cfg client decentoragePort w =
      some (r, match (c.readdress decentoragePort).1 with
        | .ok _ =>
            { publicIp := ip
              localIp := c.myIp
              fileIp := match c.writeConfig with
                        | .ok _ => some c.myIp
                        | .error _ => c.leftBehind
              forwarded := (c.readdress decentoragePort).2 }
        | .error _ =>
            { w with publicIp := ip, forwarded := (c.readdress decentoragePort).2 }) := by
  obtain ⟨ip, hpublic⟩ :=
    eval_checkPublicIp_address c client decentoragePort { w with forwarded := [] }
  have hmyIp : ∀ w, AddressWorld.exec c .getMyIp w = some (.ok (some c.myIp), w) := fun _ => rfl
  have hlocalIp : ∀ w, AddressWorld.exec c .localIp w = some (.ok w.localIp, w) := fun _ => rfl
  have hchange := eval_onLocalIpChanged c decentoragePort hlocal hrouter
    { w with publicIp := ip, forwarded := [] } rfl
  have hsees : c.myIp ≠ "" ∧ c.myIp ≠ w.localIp := hnew
  simp only [AddressCheck.run, NetworkWatcher.checkOnce, NetworkWatcher.checkLocalIp,
    NetworkWatcher.currentLocal, hlocal, hrouter, if_true, Bool.false_eq_true, if_false,
    Prog.bind_eq, Prog.eval_bind, Prog.eval_perform, hpublic, hmyIp, hlocalIp, if_pos hsees,
    hchange]
  cases (c.readdress decentoragePort).1 with
  | error e => exact ⟨.error e, ip, rfl⟩
  | ok u =>
      have hwrite : ∀ w, AddressWorld.exec c .writeConfig w = some (c.writeConfig,
          { w with fileIp := match c.writeConfig with
                             | .ok _ => some w.localIp
                             | .error _ => c.leftBehind }) := fun _ => rfl
      simp only [hwrite]
      cases c.writeConfig with
      | error e => exact ⟨.error e, ip, rfl⟩
      | ok u => exact ⟨.ok (), ip, rfl⟩

end Check

/-! ## Which mappings were made -/

section Mappings

variable {c : AddressCheck} {decentoragePort : ℤ}

/-- **Every mapping was made**: the calls of `forward_port` were those for the primary port and
for the port of every entry, and each of them returned `True`. -/
def AllForwarded (c : AddressCheck) (decentoragePort : ℤ) (forwarded : List Forwarded) : Prop :=
  ∃ conns ports, c.entries = .ok conns ∧ conns.map portOf = ports.map .ok ∧
    forwarded = (Json.int decentoragePort :: ports).map fun port => (c.mapping port, .ok true)

/-- Nothing raises: the ledger can be listed, every entry has a port, and every mapping is
answered. -/
def AddressCheck.Answered (c : AddressCheck) (conns : List Json) : Prop :=
  c.entries = .ok conns ∧ (∀ conn ∈ conns, ∃ port, portOf conn = .ok port) ∧
    ∀ i, i ≤ conns.length → ∃ b, c.forward i = .ok b

/-- The first call and the later ones. -/
theorem forall_lt_succ_iff {P : ℕ → Prop} {n m : ℕ} :
    (∀ i, i < m + 1 → P (n + i)) ↔ P n ∧ ∀ i, i < m → P (n + 1 + i) := by
  constructor
  · intro h
    refine ⟨h 0 (Nat.succ_pos m), fun i hi => ?_⟩
    have hnext := h (i + 1) (by omega)
    rwa [show n + (i + 1) = n + 1 + i by omega] at hnext
  · rintro ⟨hhead, hrest⟩ i hi
    cases i with
    | zero => exact hhead
    | succ i =>
        rw [show n + (i + 1) = n + 1 + i by omega]
        exact hrest i (by omega)

theorem forwardEntries_ok_iff (n : ℕ) (conns : List Json) :
    (c.forwardEntries n conns).1 = .ok () ↔
      (∀ conn ∈ conns, ∃ port, portOf conn = .ok port) ∧
        ∀ i, i < conns.length → ∃ b, c.forward (n + i) = .ok b := by
  induction conns generalizing n with
  | nil => simp [AddressCheck.forwardEntries]
  | cons conn rest ih =>
      have hcalls := forall_lt_succ_iff (P := fun k => ∃ b, c.forward k = .ok b) (n := n)
        (m := rest.length)
      rw [List.length_cons, hcalls, List.forall_mem_cons, AddressCheck.forwardEntries]
      cases portOf conn with
      | error e => simp
      | ok port =>
          cases c.forward n with
          | error e => simp
          | ok b => simp [ih]

/-- The calls that were made for the entries, when each entry has a port. -/
theorem forwardEntries_log {n : ℕ} {conns ports : List Json}
    (hports : conns.map portOf = ports.map .ok) :
    (c.forwardEntries n conns).2 = ports.map (fun port => (c.mapping port, .ok true)) ↔
      ∀ i, i < conns.length → c.forward (n + i) = .ok true := by
  induction conns generalizing n ports with
  | nil =>
      cases ports with
      | nil => simp [AddressCheck.forwardEntries]
      | cons port ports => simp at hports
  | cons conn rest ih =>
      cases ports with
      | nil => simp at hports
      | cons port ports =>
          rw [List.map_cons, List.map_cons, List.cons.injEq] at hports
          have hcalls := forall_lt_succ_iff (P := fun k => c.forward k = .ok true) (n := n)
            (m := rest.length)
          rw [List.length_cons, hcalls, AddressCheck.forwardEntries, hports.1]
          cases hn : c.forward n with
          | error e => simp
          | ok b => simp [ih hports.2]

/-- **The handler comes to its end** when nothing raises. -/
theorem readdress_ok_iff :
    (c.readdress decentoragePort).1 = .ok () ↔ ∃ conns, c.Answered conns := by
  have hshift : ∀ conns : List Json, (∀ i, i ≤ conns.length → ∃ b, c.forward i = .ok b) ↔
      (∃ b, c.forward 0 = .ok b) ∧ ∀ i, i < conns.length → ∃ b, c.forward (1 + i) = .ok b := by
    intro conns
    have hcalls := forall_lt_succ_iff (P := fun k => ∃ b, c.forward k = .ok b) (n := 0)
      (m := conns.length)
    simpa only [Nat.lt_succ_iff, Nat.zero_add] using hcalls
  unfold AddressCheck.readdress AddressCheck.Answered
  cases hfirst : c.forward 0 with
  | error e =>
      constructor
      · intro h
        cases h
      · rintro ⟨conns, -, -, hcalls⟩
        obtain ⟨b, hb⟩ := hcalls 0 (Nat.zero_le _)
        rw [hfirst] at hb
        cases hb
  | ok b =>
      cases c.entries with
      | error e =>
          constructor
          · intro h
            cases h
          · rintro ⟨conns, hconns, -⟩
            cases hconns
      | ok conns =>
          simp only [forwardEntries_ok_iff, Except.ok.injEq, hshift, exists_eq_left', hfirst,
            exists_eq', true_and]

/-- The ports of the entries. -/
theorem forall_ported_iff (conns : List Json) :
    (∃ ports : List Json, conns.map portOf = ports.map .ok) ↔
      ∀ conn ∈ conns, ∃ port, portOf conn = .ok port := by
  induction conns with
  | nil => exact ⟨fun _ _ h => absurd h List.not_mem_nil, fun _ => ⟨[], rfl⟩⟩
  | cons conn rest ih =>
      rw [List.forall_mem_cons, ← ih]
      constructor
      · rintro ⟨ports, hports⟩
        cases ports with
        | nil => cases hports
        | cons port ports =>
            rw [List.map_cons, List.map_cons, List.cons.injEq] at hports
            exact ⟨⟨port, hports.1⟩, ports, hports.2⟩
      · rintro ⟨⟨port, hport⟩, ports, hports⟩
        exact ⟨port :: ports, by rw [List.map_cons, List.map_cons, hport, hports]⟩

/-- **Every mapping was made** exactly when nothing raised and every answer was `True`. -/
theorem allForwarded_iff :
    AllForwarded c decentoragePort (c.readdress decentoragePort).2 ↔
      ∃ conns, c.Answered conns ∧ ∀ i, i ≤ conns.length → c.forward i = .ok true := by
  have hshift : ∀ conns : List Json, (∀ i, i ≤ conns.length → c.forward i = .ok true) ↔
      c.forward 0 = .ok true ∧ ∀ i, i < conns.length → c.forward (1 + i) = .ok true := by
    intro conns
    have hcalls := forall_lt_succ_iff (P := fun k => c.forward k = .ok true) (n := 0)
      (m := conns.length)
    simpa only [Nat.lt_succ_iff, Nat.zero_add] using hcalls
  constructor
  · rintro ⟨conns, ports, hconns, hports, hlog⟩
    rw [AddressCheck.readdress, hconns] at hlog
    cases hfirst : c.forward 0 with
    | error e =>
        rw [hfirst] at hlog
        simp at hlog
    | ok b =>
        rw [hfirst] at hlog
        simp only [List.map_cons, List.cons.injEq, Prod.mk.injEq, true_and, Except.ok.injEq,
          forwardEntries_log hports] at hlog
        have htrue := (hshift conns).mpr ⟨by rw [hfirst, hlog.1], hlog.2⟩
        exact ⟨conns, ⟨hconns, (forall_ported_iff conns).mp ⟨ports, hports⟩,
          fun i hi => ⟨true, htrue i hi⟩⟩, htrue⟩
  · rintro ⟨conns, ⟨hconns, hports, -⟩, htrue⟩
    obtain ⟨ports, hports⟩ := (forall_ported_iff conns).mpr hports
    have hcalls := (hshift conns).mp htrue
    refine ⟨conns, ports, hconns, hports, ?_⟩
    rw [AddressCheck.readdress, hcalls.1, hconns]
    simp only [List.map_cons, (forwardEntries_log hports).mpr hcalls.2]

end Mappings

/-! ## The property -/

/-- **Applied completely or retried**: after the check, the new address is stored, in the
configuration or its file, only with every mapping made, and otherwise the configuration keeps
the old one. -/
def AppliedOrKept (cfg : Config) (client : CoordinationClient) (decentoragePort : ℤ)
    (c : AddressCheck) (w : AddressWorld) : Prop :=
  ∃ r w', c.run cfg client decentoragePort w = some (r, w') ∧
    (w'.localIp = c.myIp ∨ (w'.fileIp ≠ w.fileIp ∧ w'.fileIp = some c.myIp) →
      AllForwarded c decentoragePort w'.forwarded) ∧
    (¬ AllForwarded c decentoragePort w'.forwarded → w'.localIp = w.localIp)

section Change

variable {c : AddressCheck} {cfg : Config} {client : CoordinationClient} {decentoragePort : ℤ}
  {w : AddressWorld}

theorem appliedOrKept_iff (hlocal : cfg.isLocal = false) (hrouter : cfg.router = true)
    (hnew : c.SeesNew w) :
    AppliedOrKept cfg client decentoragePort c w ↔
      ((c.readdress decentoragePort).1 = .ok () →
        AllForwarded c decentoragePort (c.readdress decentoragePort).2) := by
  have hcheck : ∃ r ip, c.run cfg client decentoragePort w = some (r, _) :=
    run_of_seesNew hlocal hrouter hnew
  obtain ⟨r, ip, hrun⟩ := hcheck
  unfold AppliedOrKept
  rw [hrun]
  cases (c.readdress decentoragePort).1 with
  | error e =>
      refine ⟨fun _ h => (by cases h), fun _ => ⟨_, _, rfl, ?_, fun _ => rfl⟩⟩
      rintro (h | ⟨h, -⟩)
      · exact absurd h.symm hnew.2
      · exact absurd rfl h
  | ok u =>
      constructor
      · rintro ⟨r', w', heq, happlied, -⟩ -
        obtain ⟨rfl, rfl⟩ := Prod.mk.inj (Option.some.inj heq)
        exact happlied (Or.inl rfl)
      · intro hall
        exact ⟨_, _, rfl, fun _ => hall rfl, fun hnot => absurd (hall rfl) hnot⟩

end Change

/-- **A local address change is applied completely or retried**, for a check that sees one, on
a node that is not local and has a router, exactly when nothing in the handler can return
`False` without something else in it raising: whenever every call is answered, every answer is
`True`. -/
theorem address_change_iff (cfg : Config) (client : CoordinationClient) (decentoragePort : ℤ)
    (c : AddressCheck) (w : AddressWorld) (hlocal : cfg.isLocal = false)
    (hrouter : cfg.router = true) (hnew : c.SeesNew w) :
    AppliedOrKept cfg client decentoragePort c w ↔
      ∀ conns, c.Answered conns → ∀ i, i ≤ conns.length → c.forward i = .ok true := by
  rw [appliedOrKept_iff hlocal hrouter hnew, readdress_ok_iff, allForwarded_iff]
  constructor
  · intro h conns hconns
    obtain ⟨conns', hconns', htrue⟩ := h ⟨conns, hconns⟩
    have heq : conns' = conns := Except.ok.inj (hconns'.1.symm.trans hconns.1)
    rw [← heq]
    exact htrue
  · rintro h ⟨conns, hconns⟩
    exact ⟨conns, hconns, h conns hconns⟩

/-- **A change that is not applied is retried**: the next check that sees the same address makes
every call of the handler again. -/
theorem kept_address_retried {cfg : Config} {client : CoordinationClient} {decentoragePort : ℤ}
    {c c' : AddressCheck} {w w' : AddressWorld} {r : Except Exn Unit}
    (hlocal : cfg.isLocal = false) (hrouter : cfg.router = true) (hnew : c.SeesNew w)
    (hkept : AppliedOrKept cfg client decentoragePort c w)
    (hrun : c.run cfg client decentoragePort w = some (r, w'))
    (hfailed : ¬ AllForwarded c decentoragePort w'.forwarded) (hsame : c'.myIp = c.myIp) :
    ∃ r' w'', c'.run cfg client decentoragePort w' = some (r', w'') ∧
      w''.forwarded = (c'.readdress decentoragePort).2 := by
  obtain ⟨r₁, w₁, hrun₁, -, hold⟩ := hkept
  rw [hrun, Option.some.injEq, Prod.mk.injEq] at hrun₁
  obtain ⟨rfl, rfl⟩ := hrun₁
  have hnew' : c'.SeesNew w' := by
    rw [AddressCheck.SeesNew, hsame, hold hfailed]
    exact hnew
  have hnext : ∃ r' ip, c'.run cfg client decentoragePort w' = some (r', _) :=
    run_of_seesNew hlocal hrouter hnew'
  obtain ⟨r', ip, hrun'⟩ := hnext
  rw [hrun']
  cases (c'.readdress decentoragePort).1 with
  | error e => exact ⟨_, _, rfl, rfl⟩
  | ok u => exact ⟨_, _, rfl, rfl⟩

/-- A node with one transfer, and a router that maps every port. -/
def mappedChange : AddressCheck where
  fetch := .error .requestError
  update := .error .requestError
  myIp := "192.168.1.9"
  forward _ := .ok true
  listAll := .ok (.arr [.obj [("port", .int 50200)]])
  writeConfig := .ok ()
  leftBehind := none

/-- The node before. -/
def formerAddress : AddressWorld where
  publicIp := "203.0.113.7"
  localIp := "192.168.1.5"
  fileIp := some "192.168.1.5"

theorem address_change_mapped :
    AppliedOrKept { isLocal := false } {} 50000 mappedChange formerAddress ↔
      ∀ conns, mappedChange.Answered conns → ∀ i, i ≤ conns.length → mappedChange.forward i = .ok true :=
  address_change_iff _ _ _ _ _ rfl rfl (by decide)

/-- **The router refuses the mapping of the transfer**, and the new address is stored all the
same. -/
theorem refused_mapping_applied :
    ¬ AppliedOrKept { isLocal := false } {} 50000
      { mappedChange with forward := fun i => .ok (decide (i = 0)) } formerAddress := by
  rw [appliedOrKept_iff rfl rfl (by decide)]
  intro h
  obtain ⟨conns, ⟨hconns, -⟩, htrue⟩ := allForwarded_iff.mp (h (by decide))
  obtain rfl := Except.ok.inj hconns
  exact absurd (htrue 1 (by decide)) (by decide)
