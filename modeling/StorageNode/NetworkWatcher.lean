/-
# The network watcher (`service_workers.py`, `request_dispatcher.py`)

`NetworkWatcher.check_once` with the handler it calls, and what the backend takes for the
address of the node.

* `NetworkWatcher.checkOnce`, `NetworkChangeHandler.onPublicIpChanged`,
  `onLocalIpChanged` : the methods, as programs over `WatcherOp`;
* `Check`, `WatcherState` : what a check meets, and the addresses the node and the backend
  hold;
* `WatcherState.Reaches` : the states after any number of checks;
* `address_current_when_reported` : the backend's address is current in every run in which
  each new address is reported, and a check that fails to is never made good.
-/
import StorageNode.CoordinationClient

/-- The operations of the watcher; the addresses of `NodeConfig` are shared and stay what
they are when a check raises. -/
inductive WatcherOp
  /-- `resolver.fetch_public_ip()` -/
  | fetchPublicIp
  /-- `router.get_my_ip()` -/
  | getMyIp
  | publicIp
  | setPublicIp (ip : String)
  | localIp
  | setLocalIp (ip : String)
  /-- `router.forward_port` -/
  | forwardPort (mapping : PortMapping)
  /-- `ledger.list_all()` -/
  | listAll
  /-- `cfg_manager.write_config()` -/
  | writeConfig
  | http (o : HttpOp)

@[reducible] def WatcherOp.Res : WatcherOp → Type
  | .fetchPublicIp => String
  | .getMyIp => Option String
  | .publicIp => String
  | .localIp => String
  | .forwardPort _ => Bool
  | .listAll => Json
  | .http o => o.Res
  | _ => Unit

/-- Programs of the watcher. -/
abbrev Watcher (α : Type) : Type := Prog WatcherOp WatcherOp.Res Exn α

/-- Call an operation. -/
abbrev watcherOp (o : WatcherOp) : Watcher o.Res := Prog.perform o

/-- A request, made by the watcher. -/
def Http.watch {α : Type} (p : Http α) : Watcher α := p.inject WatcherOp.http fun _ r => r

/-- What `for conn in active` goes through: the keys of a dictionary, the characters of a
string, and nothing else can be iterated. -/
def pyIter : Json → Except Exn (List Json)
  | .arr xs => .ok xs
  | .obj d => .ok ((Dict.keys d).map .str)
  | .str s => .ok (s.map fun c => .str [c])
  | _ => .error .typeError

/-- `conn["port"]`. -/
def portOf : Json → Except Exn Json
  | .obj conn => Dict.getItem conn "port"
  | _ => .error .typeError

namespace NetworkChangeHandler

/-- `on_public_ip_changed`. -/
def onPublicIpChanged (client : CoordinationClient) (decentoragePort : ℤ) : Watcher Unit := do
  let ip ← watcherOp .publicIp
  (client.updateConnection ip (.int decentoragePort)).watch

/-- The loop over the active transfers. -/
def forwardAll (newIp : String) : List Json → Watcher Unit
  | [] => pure ()
  | conn :: rest => do
      let port ← Prog.ofExcept (portOf conn)
      let _ ← watcherOp (.forwardPort { port := port, lanip := some newIp, disable := false })
      forwardAll newIp rest

/-- `on_local_ip_changed`. -/
def onLocalIpChanged (cfg : Config) (decentoragePort : ℤ) (newIp : String) : Watcher Unit := do
  (if !cfg.isLocal && cfg.router then do
    -- what `forward_port` returns is not looked at
    let _ ← watcherOp (.forwardPort
      { port := .int decentoragePort, lanip := some newIp, disable := false })
    let active ← watcherOp .listAll
    let conns ← Prog.ofExcept (pyIter active)
    forwardAll newIp conns
  else pure ())
  -- reached unless a call has raised
  watcherOp (.setLocalIp newIp)

end NetworkChangeHandler

namespace NetworkWatcher

/-- The `try` of `check_once`. -/
def checkPublicIp (client : CoordinationClient) (decentoragePort : ℤ) : Watcher Unit :=
  (do
    let currentPublic ← watcherOp .fetchPublicIp
    let publicIp ← watcherOp .publicIp
    (if currentPublic ≠ publicIp then do
      -- the address is stored before it is reported, so a report that fails is not repeated
      watcherOp (.setPublicIp currentPublic)
      NetworkChangeHandler.onPublicIpChanged client decentoragePort
    else pure ())).tryExcept fun _ => pure ()

/-- `self._router.get_my_ip() if self._router else self._config.local_ip` -/
def currentLocal (cfg : Config) : Watcher (Option String) :=
  if cfg.router then watcherOp .getMyIp
  else do
    let ip ← watcherOp .localIp
    pure (some ip)

/-- The middle of `check_once`. -/
def checkLocalIp (cfg : Config) (decentoragePort : ℤ) : Watcher Unit := do
  let current ← currentLocal cfg
  let localIp ← watcherOp .localIp
  match current with
  | some ip =>
      if ip ≠ "" ∧ ip ≠ localIp then do
        NetworkChangeHandler.onLocalIpChanged cfg decentoragePort ip
        watcherOp .writeConfig
      else pure ()
  -- the router could not tell the address
  | none => pure ()

/-- `check_once`. -/
def checkOnce (cfg : Config) (client : CoordinationClient) (decentoragePort : ℤ) :
    Watcher Unit := do
  (if cfg.isLocal then pure () else checkPublicIp client decentoragePort)
  checkLocalIp cfg decentoragePort
  (if cfg.isLocal then do
    let ip ← watcherOp .localIp
    watcherOp (.setPublicIp ip)
  else pure ())

end NetworkWatcher

/-! ## The node and the backend -/

/-- What one check meets: the outcome of each operation. -/
structure Check where
  fetch : Except Exn String
  myIp : Option String
  update : Except Exn Response
  forward : PortMapping → Except Exn Bool := fun _ => .ok true
  listAll : Except Exn Json := .ok (.arr [])
  writeConfig : Except Exn Unit := .ok ()

/-- The addresses of `NodeConfig`, and the one the backend has accepted last. -/
structure WatcherState where
  publicIp : String
  localIp : String
  recorded : PyStr
  deriving DecidableEq

/-- The backend accepts a request that it answers with a success. -/
def Accepted (update : Except Exn Response) : Prop :=
  ∃ response, update = .ok response ∧ 200 ≤ response.status ∧ response.status < 300

instance (update : Except Exn Response) : Decidable (Accepted update) :=
  match update with
  | .error _ => .isFalse fun h => by obtain ⟨_, h, -⟩ := h; exact absurd h (by simp)
  | .ok response =>
      if h : 200 ≤ response.status ∧ response.status < 300 then .isTrue ⟨response, rfl, h⟩
      else .isFalse fun h' => by
        obtain ⟨r, hr, hs⟩ := h'
        exact h (Except.ok.inj hr ▸ hs)

/-- The address an update reports. -/
def reportedIp (body : Option Json) : Option PyStr :=
  match body with
  | some (.obj d) =>
      match Dict.get? "ip_address" d with
      | some (.str ip) => some ip
      | _ => none
  | _ => none

/-- The backend's address after a request. -/
def recordedAfter (c : Check) (body : Option Json) (recorded : PyStr) : PyStr :=
  match reportedIp body with
  | some ip => if Accepted c.update then ip else recorded
  | none => recorded

/-- One operation of a check. -/
def WatcherState.exec (c : Check) (o : WatcherOp) (s : WatcherState) :
    Option (Except Exn o.Res × WatcherState) :=
  match o with
  | .fetchPublicIp => some (c.fetch, s)
  | .getMyIp => some (.ok c.myIp, s)
  | .publicIp => some (.ok s.publicIp, s)
  | .setPublicIp ip => some (.ok (), { s with publicIp := ip })
  | .localIp => some (.ok s.localIp, s)
  | .setLocalIp ip => some (.ok (), { s with localIp := ip })
  | .forwardPort mapping => some (c.forward mapping, s)
  | .listAll => some (c.listAll, s)
  | .writeConfig => some (c.writeConfig, s)
  | .http (.request _ _ body _) =>
      some (c.update, { s with recorded := recordedAfter c body s.recorded })

/-- `s'` is the state after the check `c`, whether it returns or raises. -/
def WatcherState.Checks (cfg : Config) (client : CoordinationClient) (decentoragePort : ℤ)
    (c : Check) (s s' : WatcherState) : Prop :=
  ∃ r, (NetworkWatcher.checkOnce cfg client decentoragePort).eval (WatcherState.exec c) s =
    some (r, s')

/-- The states after any number of checks that meet a condition. -/
def WatcherState.Reaches (cfg : Config) (client : CoordinationClient) (decentoragePort : ℤ)
    (meets : WatcherState → Check → Prop) : WatcherState → WatcherState → Prop :=
  Relation.ReflTransGen fun s s' => ∃ c, meets s c ∧ s.Checks cfg client decentoragePort c s'

/-! ## One check -/

section Check

variable {cfg : Config} {client : CoordinationClient} {decentoragePort : ℤ} {c : Check}

theorem exists_exec_watcher (o : WatcherOp) (s : WatcherState) :
    ∃ r s', WatcherState.exec c o s = some (r, s') := by
  cases o with
  | http o =>
      cases o with
      | request method url json headers => exact ⟨_, _, rfl⟩
  | _ => exact ⟨_, _, rfl⟩

theorem eval_watch {α W : Type} {f : (o : WatcherOp) → W → Option (Except Exn o.Res × W)}
    (p : Http α) (w : W) : p.watch.eval f w = p.eval (fun o => f (.http o)) w := by
  unfold Http.watch
  induction p generalizing w with
  | ret a => rfl
  | raise e => rfl
  | hang => rfl
  | call o k ih =>
      simp only [Prog.inject, Prog.eval]
      cases f (.http o) w with
      | none => rfl
      | some rw => exact ih rw.1 rw.2

/-- The report of the configured address. -/
theorem eval_onPublicIpChanged (s : WatcherState) :
    (NetworkChangeHandler.onPublicIpChanged client decentoragePort).eval (WatcherState.exec c) s =
      some (reportedOf c.update,
        { s with recorded := if Accepted c.update then s.publicIp else s.recorded }) := by
  simp only [NetworkChangeHandler.onPublicIpChanged, Prog.bind_eq, Prog.eval_bind,
    Prog.eval_perform, WatcherState.exec, eval_watch]
  show ((client.safeRequest .patch _ (some _)).bind fun _ => .ret ()).eval _ _ = _
  rw [eval_report]
  simp only [WatcherState.exec, Option.map_some, recordedAfter, reportedIp, Dict.get?, if_true]

/-- **The public address**: a new one is stored before it is reported, and however the
report turns out, the check goes on. -/
theorem eval_checkPublicIp (s : WatcherState) :
    (NetworkWatcher.checkPublicIp client decentoragePort).eval (WatcherState.exec c) s =
      some (.ok (), match c.fetch with
        | .ok ip =>
            if ip ≠ s.publicIp then
              { s with publicIp := ip
                       recorded := if Accepted c.update then ip else s.recorded }
            else s
        | .error _ => s) := by
  simp only [NetworkWatcher.checkPublicIp, Prog.eval_tryExcept, Prog.bind_eq, Prog.eval_bind,
    Prog.eval_perform, WatcherState.exec]
  cases hfetch : c.fetch with
  | error e => simp [Prog.eval]
  | ok ip =>
      by_cases hnew : ip ≠ s.publicIp
      · simp only [if_pos hnew, Prog.eval_bind, Prog.eval_perform, WatcherState.exec,
          eval_onPublicIpChanged]
        cases reportedOf c.update with
        | ok a => rfl
        | error e => rfl
      · simp only [if_neg hnew]
        rfl

/-- The rest of a check leaves the public address and the backend alone. -/
theorem only_checkLocalIp :
    (NetworkWatcher.checkLocalIp cfg decentoragePort).Only fun o =>
      (∀ ip, o ≠ .setPublicIp ip) ∧ ∀ h, o ≠ .http h := by
  have hforward : ∀ newIp conns, (NetworkChangeHandler.forwardAll newIp conns).Only fun o =>
      (∀ ip, o ≠ .setPublicIp ip) ∧ ∀ h, o ≠ .http h := by
    intro newIp conns
    induction conns with
    | nil => trivial
    | cons conn rest ih =>
        refine Prog.only_ofExcept_bind fun port _ => ?_
        exact Prog.only_bind (Prog.only_perform ⟨by simp, by simp⟩) fun _ => ih
  unfold NetworkWatcher.checkLocalIp
  refine Prog.only_bind ?_ fun current => ?_
  · unfold NetworkWatcher.currentLocal
    split
    · exact Prog.only_perform ⟨by simp, by simp⟩
    · exact Prog.only_bind (Prog.only_perform ⟨by simp, by simp⟩) fun _ => trivial
  refine Prog.only_bind (Prog.only_perform ⟨by simp, by simp⟩) fun localIp => ?_
  cases current with
  | none => trivial
  | some ip =>
      show (if ip ≠ "" ∧ ip ≠ localIp then _ else _ : Watcher Unit).Only _
      split
      · refine Prog.only_bind ?_ fun _ => Prog.only_perform ⟨by simp, by simp⟩
        refine Prog.only_bind ?_ fun _ => Prog.only_perform ⟨by simp, by simp⟩
        split
        · refine Prog.only_bind (Prog.only_perform ⟨by simp, by simp⟩) fun _ => ?_
          refine Prog.only_bind (Prog.only_perform ⟨by simp, by simp⟩) fun active => ?_
          exact Prog.only_ofExcept_bind fun conns _ => hforward ip conns
        · trivial
      · trivial

theorem total_checkLocalIp : (NetworkWatcher.checkLocalIp cfg decentoragePort).Total := by
  have hforward : ∀ newIp conns, (NetworkChangeHandler.forwardAll newIp conns).Total := by
    intro newIp conns
    induction conns with
    | nil => trivial
    | cons conn rest ih =>
        refine Prog.total_bind (Prog.total_ofExcept _) fun port => ?_
        exact Prog.total_bind (Prog.total_perform _) fun _ => ih
  unfold NetworkWatcher.checkLocalIp
  refine Prog.total_bind ?_ fun current => ?_
  · unfold NetworkWatcher.currentLocal
    split
    · exact Prog.total_perform _
    · exact Prog.total_bind (Prog.total_perform _) fun _ => trivial
  refine Prog.total_bind (Prog.total_perform _) fun localIp => ?_
  cases current with
  | none => trivial
  | some ip =>
      show (if ip ≠ "" ∧ ip ≠ localIp then _ else _ : Watcher Unit).Total
      split
      · refine Prog.total_bind ?_ fun _ => Prog.total_perform _
        refine Prog.total_bind ?_ fun _ => Prog.total_perform _
        split
        · refine Prog.total_bind (Prog.total_perform _) fun _ => ?_
          refine Prog.total_bind (Prog.total_perform _) fun active => ?_
          exact Prog.total_bind (Prog.total_ofExcept _) fun conns => hforward ip conns
        · trivial
      · trivial

/-- The local address a check finds: an empty or missing one counts as no change. -/
def newLocal (cfg : Config) (c : Check) (s : WatcherState) : String :=
  match (if cfg.router then c.myIp else some s.localIp) with
  | some ip => if ip ≠ "" then ip else s.localIp
  | none => s.localIp

/-- **The local address in local mode**: it is stored, and only writing the configuration
can fail. -/
theorem eval_checkLocalIp (decentoragePort : ℤ) (c : Check) (hlocal : cfg.isLocal = true)
    (s : WatcherState) :
    ∃ r, (NetworkWatcher.checkLocalIp cfg decentoragePort).eval (WatcherState.exec c) s =
        some (r, { s with localIp := newLocal cfg c s }) ∧
      (newLocal cfg c s = s.localIp → r = .ok ()) := by
  have hcurrent : (NetworkWatcher.currentLocal cfg).eval (WatcherState.exec c) s =
      some (.ok (if cfg.router then c.myIp else some s.localIp), s) := by
    unfold NetworkWatcher.currentLocal
    split
    · next hrouter => simp [Prog.eval_perform, WatcherState.exec]
    · next hrouter =>
        simp [Prog.eval_perform, Prog.eval_bind, WatcherState.exec, Prog.eval]
  simp only [NetworkWatcher.checkLocalIp, Prog.bind_eq, Prog.eval_bind, hcurrent,
    Prog.eval_perform, WatcherState.exec]
  unfold newLocal
  cases (if cfg.router then c.myIp else some s.localIp) with
  | none => exact ⟨.ok (), rfl, fun _ => rfl⟩
  | some ip =>
      by_cases hempty : ip ≠ ""
      · by_cases hnew : ip ≠ s.localIp
        · refine ⟨c.writeConfig, ?_, ?_⟩
          · simp only [if_pos (And.intro hempty hnew), if_pos hempty, Prog.eval_bind,
              Prog.eval_perform, NetworkChangeHandler.onLocalIpChanged, hlocal, Prog.bind_eq]
            simp [Prog.eval, WatcherState.exec]
          · intro hsame
            simp only [if_pos hempty] at hsame
            exact absurd hsame hnew
        · rw [not_not] at hnew
          refine ⟨.ok (), ?_, fun _ => rfl⟩
          simp only [hnew, ne_eq, not_true, and_false, if_false]
          simp [Prog.eval]
      · refine ⟨.ok (), ?_, fun _ => rfl⟩
        simp only [if_neg hempty, if_neg fun h : ip ≠ "" ∧ ip ≠ s.localIp => hempty h.1]
        rfl

/-- **A check outside local mode**: what becomes of the public address and of the backend's
is decided by the lookup and the report. -/
theorem checks_remote (hlocal : cfg.isLocal = false) {s s' : WatcherState}
    (h : s.Checks cfg client decentoragePort c s') :
    (∃ ip, c.fetch = .ok ip ∧ ip ≠ s.publicIp ∧ s'.publicIp = ip ∧
        s'.recorded = if Accepted c.update then (ip : PyStr) else s.recorded) ∨
      ((∀ ip, c.fetch = .ok ip → ip = s.publicIp) ∧ s'.publicIp = s.publicIp ∧
        s'.recorded = s.recorded) := by
  obtain ⟨r, h⟩ := h
  simp only [NetworkWatcher.checkOnce, hlocal, Bool.false_eq_true, if_false, Prog.bind_eq,
    Prog.eval_bind, eval_checkPublicIp] at h
  generalize hs₁ : (match c.fetch with
    | .ok ip =>
        if ip ≠ s.publicIp then
          { s with publicIp := ip, recorded := if Accepted c.update then ip else s.recorded }
        else s
    | .error _ => s : WatcherState) = s₁ at h
  have hkeep : s'.publicIp = s₁.publicIp ∧ s'.recorded = s₁.recorded := by
    have honly := Prog.only_eval (fun s : WatcherState => (s.publicIp, s.recorded))
      (f := WatcherState.exec c) (P := fun o => (∀ ip, o ≠ .setPublicIp ip) ∧ ∀ h, o ≠ .http h)
      (p := (NetworkWatcher.checkLocalIp cfg decentoragePort).bind fun _ => pure ()) ?_
      (Prog.only_bind only_checkLocalIp fun _ => trivial) (by rw [Prog.eval_bind]; exact h)
    · exact Prod.mk.inj honly
    · intro o s r s' ho hx
      cases o with
      | setPublicIp ip => exact absurd rfl (ho.1 ip)
      | http o => exact absurd rfl (ho.2 o)
      | _ =>
          simp only [WatcherState.exec, Option.some.injEq, Prod.mk.injEq] at hx
          rw [← hx.2]
  rw [hkeep.1, hkeep.2, ← hs₁]
  cases hfetch : c.fetch with
  | error e => exact Or.inr ⟨fun ip hip => absurd hip (by simp), rfl, rfl⟩
  | ok ip =>
      by_cases hnew : ip ≠ s.publicIp
      · refine Or.inl ⟨ip, rfl, hnew, ?_, ?_⟩ <;> simp only [if_pos hnew]
      · refine Or.inr ⟨fun ip' hip' => ?_, ?_, ?_⟩
        · rw [← Except.ok.inj hip']
          exact not_not.mp hnew
        · simp only [if_neg hnew]
        · simp only [if_neg hnew]

/-- **A check in local mode** reports nothing; the public address becomes the local one
unless the configuration cannot be written. -/
theorem checks_local (hlocal : cfg.isLocal = true) {s s' : WatcherState}
    (h : s.Checks cfg client decentoragePort c s') :
    s'.recorded = s.recorded ∧ s'.localIp = newLocal cfg c s ∧
      (s'.publicIp = newLocal cfg c s ∨ (s'.publicIp = s.publicIp ∧ newLocal cfg c s ≠ s.localIp)) := by
  obtain ⟨r, h⟩ := h
  obtain ⟨r₁, hmiddle, hok⟩ := eval_checkLocalIp decentoragePort c hlocal s
  simp only [NetworkWatcher.checkOnce, hlocal, if_true, Prog.bind_eq, Prog.eval_bind,
    Prog.pure_eq, Prog.eval, hmiddle] at h
  cases r₁ with
  | ok a =>
      simp only [Prog.eval_perform, WatcherState.exec, Option.some.injEq, Prod.mk.injEq] at h
      obtain ⟨-, rfl⟩ := h
      exact ⟨rfl, rfl, Or.inl rfl⟩
  | error e =>
      simp only [Option.some.injEq, Prod.mk.injEq] at h
      obtain ⟨-, rfl⟩ := h
      exact ⟨rfl, rfl, Or.inr ⟨rfl, fun hsame => absurd (hok hsame) (by simp)⟩⟩

/-- Every check ends in some state. -/
theorem exists_checks (cfg : Config) (client : CoordinationClient) (decentoragePort : ℤ)
    (c : Check) (s : WatcherState) : ∃ s', s.Checks cfg client decentoragePort c s' := by
  have htotal : (NetworkWatcher.checkOnce cfg client decentoragePort).Total := by
    unfold NetworkWatcher.checkOnce
    refine Prog.total_bind ?_ fun _ => Prog.total_bind total_checkLocalIp fun _ => ?_
    · split
      · trivial
      · refine Prog.total_tryExcept ?_ fun _ => trivial
        refine Prog.total_bind (Prog.total_perform _) fun current => ?_
        refine Prog.total_bind (Prog.total_perform _) fun publicIp => ?_
        show (if current ≠ publicIp then _ else _ : Watcher Unit).Total
        split
        · refine Prog.total_bind (Prog.total_perform _) fun _ => ?_
          refine Prog.total_bind (Prog.total_perform _) fun ip => ?_
          exact Prog.total_inject (Prog.total_bind (total_safeRequest _ _ _ _) fun _ => trivial)
        · trivial
    · split
      · exact Prog.total_bind (Prog.total_perform _) fun _ => Prog.total_perform _
      · trivial
  obtain ⟨r, s', h⟩ := Prog.exists_eval exists_exec_watcher htotal s
  exact ⟨s', r, h⟩

end Check

/-! ## Runs -/

/-- The backend's address of the node is the configured one. -/
def WatcherState.Current (s : WatcherState) : Prop := s.recorded = s.publicIp

/-- The address lookups succeed and the backend accepts requests. -/
def Check.Good (c : Check) : Prop :=
  (∃ ip, c.fetch = .ok ip) ∧ (∃ ip, c.myIp = some ip) ∧ Accepted c.update

/-- **A check that does not lose an address**: outside local mode, a new public address is
reported with success; in local mode, where nothing is reported, the local address is the
one the node already has for its public one. -/
def KeepsAddress (cfg : Config) (s : WatcherState) (c : Check) : Prop :=
  if cfg.isLocal then newLocal cfg c s = s.publicIp
  else ∀ ip, c.fetch = .ok ip → ip ≠ s.publicIp → Accepted c.update

variable {cfg : Config} {client : CoordinationClient} {decentoragePort : ℤ}

/-- One check. -/
theorem current_of_checks {c : Check} {s s' : WatcherState} (hs : s.Current)
    (hkeeps : KeepsAddress cfg s c) (h : s.Checks cfg client decentoragePort c s') :
    s'.Current := by
  unfold KeepsAddress at hkeeps
  unfold WatcherState.Current at hs ⊢
  cases hlocal : cfg.isLocal with
  | true =>
      rw [hlocal, if_pos rfl] at hkeeps
      obtain ⟨hrecorded, -, hpublic⟩ := checks_local hlocal h
      rw [hrecorded, hs]
      rcases hpublic with hpublic | ⟨hpublic, -⟩
      · rw [hpublic, hkeeps]
      · rw [hpublic]
  | false =>
      rw [hlocal, if_neg Bool.false_ne_true] at hkeeps
      rcases checks_remote hlocal h with ⟨ip, hfetch, hnew, hpublic, hrecorded⟩ |
        ⟨-, hpublic, hrecorded⟩
      · rw [hrecorded, hpublic, if_pos (hkeeps ip hfetch hnew)]
      · rw [hrecorded, hpublic, hs]

/-- A good check that finds what another one has found. -/
def goodCheck (publicIp localIp : String) : Check :=
  { fetch := .ok publicIp, myIp := some localIp, update := .ok ⟨200, none⟩ }

theorem goodCheck_good (publicIp localIp : String) : (goodCheck publicIp localIp).Good :=
  ⟨⟨publicIp, rfl⟩, ⟨localIp, rfl⟩, ⟨200, none⟩, rfl, by decide, by decide⟩

/-- **An address that is lost once is not reported again**: the next good check finds
nothing new. -/
theorem stale_after_lost (cfg : Config) (client : CoordinationClient) (decentoragePort : ℤ)
    (c : Check) {s : WatcherState} (hs : s.Current)
    (hloses : ¬ KeepsAddress cfg s c) :
    ∃ s' c' s'', s.Checks cfg client decentoragePort c s' ∧ c'.Good ∧
      s'.Checks cfg client decentoragePort c' s'' ∧ ¬ s''.Current := by
  obtain ⟨s', hfirst⟩ := exists_checks cfg client decentoragePort c s
  have hgood := goodCheck_good s'.publicIp s'.localIp
  obtain ⟨s'', hsecond⟩ := exists_checks cfg client decentoragePort
    (goodCheck s'.publicIp s'.localIp) s'
  refine ⟨s', _, s'', hfirst, hgood, hsecond, ?_⟩
  unfold KeepsAddress at hloses
  unfold WatcherState.Current at hs ⊢
  cases hlocal : cfg.isLocal with
  | true =>
      rw [hlocal, if_pos rfl] at hloses
      obtain ⟨hrecorded, hlocalIp, -⟩ := checks_local hlocal hfirst
      obtain ⟨hrecorded', -, hpublic'⟩ := checks_local hlocal hsecond
      -- the second check finds the local address the first one has stored
      have hfound : newLocal cfg (goodCheck s'.publicIp s'.localIp) s' = s'.localIp := by
        unfold newLocal goodCheck
        cases cfg.router with
        | true =>
            show (if s'.localIp ≠ "" then s'.localIp else s'.localIp) = s'.localIp
            split <;> rfl
        | false =>
            show (if s'.localIp ≠ "" then s'.localIp else s'.localIp) = s'.localIp
            split <;> rfl
      rw [hfound] at hpublic'
      rcases hpublic' with hpublic' | ⟨-, hne⟩
      · rw [hrecorded', hrecorded, hpublic', hlocalIp, hs]
        exact fun h => hloses (PyStr.ofString_inj.mp h).symm
      · exact absurd rfl hne
  | false =>
      rw [hlocal, if_neg Bool.false_ne_true] at hloses
      push Not at hloses
      obtain ⟨ip, hfetch, hnew, hlost⟩ := hloses
      rcases checks_remote hlocal hfirst with ⟨ip', hfetch', -, hpublic, hrecorded⟩ | ⟨hold, -, -⟩
      · obtain rfl : ip = ip' := Except.ok.inj (hfetch.symm.trans hfetch')
        rw [if_neg hlost] at hrecorded
        rcases checks_remote hlocal hsecond with ⟨ip', hfetch'', hnew', -, -⟩ |
          ⟨-, hpublic', hrecorded'⟩
        · exact absurd (Except.ok.inj hfetch'').symm hnew'
        · rw [hpublic', hrecorded', hpublic, hrecorded, hs]
          exact fun h => hnew (PyStr.ofString_inj.mp h).symm
      · exact absurd (hold ip hfetch) hnew

/-- **The backend's address is current in every run without a lost address**, and from each
state of such a run a check that loses one can be followed by a good one that leaves the
address stale: the watcher compares with what it has already stored, so nothing is sent
again. -/
theorem address_current_when_reported {s₀ s : WatcherState} (h₀ : s₀.Current)
    (h : WatcherState.Reaches cfg client decentoragePort (KeepsAddress cfg) s₀ s) :
    s.Current ∧ ∀ c, ¬ KeepsAddress cfg s c →
      ∃ s' c' s'', s.Checks cfg client decentoragePort c s' ∧ c'.Good ∧
        s'.Checks cfg client decentoragePort c' s'' ∧ ¬ s''.Current := by
  have hcurrent : s.Current := by
    induction h with
    | refl => exact h₀
    | tail _ hstep ih =>
        obtain ⟨c, hkeeps, hchecks⟩ := hstep
        exact current_of_checks ih hkeeps hchecks
  exact ⟨hcurrent, fun c hloses => stale_after_lost _ _ _ c hcurrent hloses⟩

/-- A node that is not local, with the address the backend has. -/
def remoteState : WatcherState := ⟨"198.51.100.1", "192.168.0.2", "198.51.100.1"⟩

/-- A run with one check, which finds a new address and reports it. -/
theorem address_current_after_report :
    ∃ s, WatcherState.Reaches { isLocal := false } {} 50000 (KeepsAddress { isLocal := false })
      remoteState s ∧ s.publicIp = "198.51.100.2" ∧ s.Current := by
  obtain ⟨s, hchecks⟩ := exists_checks { isLocal := false } {} 50000
    (goodCheck "198.51.100.2" "192.168.0.2") remoteState
  have hkeeps : KeepsAddress { isLocal := false } remoteState
      (goodCheck "198.51.100.2" "192.168.0.2") :=
    fun _ _ _ => (goodCheck_good "198.51.100.2" "192.168.0.2").2.2
  have hrun := Relation.ReflTransGen.single (r := fun s s' => ∃ c, KeepsAddress
    { isLocal := false } s c ∧ s.Checks { isLocal := false } {} 50000 c s') ⟨_, hkeeps, hchecks⟩
  refine ⟨s, hrun, ?_, (address_current_when_reported (show remoteState.Current from rfl) hrun).1⟩
  rcases checks_remote rfl hchecks with ⟨ip, hfetch, -, hpublic, -⟩ | ⟨hold, -, -⟩
  · rw [hpublic]
    exact (Except.ok.inj hfetch).symm
  · exact absurd (hold _ rfl) (by decide)

/-- **A failed report is not sent again.**  The network is down when the new address is
reported, and the next check, with everything up, leaves the old one with the backend. -/
theorem lost_report_stays_lost :
    ¬ ∀ s s' c, WatcherState.Reaches { isLocal := false } {} 50000 (fun _ _ => True) remoteState s →
      c.Good → s.Checks { isLocal := false } {} 50000 c s' → s'.Current := by
  intro hall
  obtain ⟨s', c', s'', hfirst, hgood, hsecond, hstale⟩ := stale_after_lost
    { isLocal := false } {} 50000
    { fetch := .ok "198.51.100.2", myIp := some "192.168.0.2", update := .error .requestError }
    (show remoteState.Current from rfl) (fun hkeeps => by
      obtain ⟨_, h, -⟩ := hkeeps "198.51.100.2" rfl (by decide)
      exact absurd h (by simp))
  exact hstale (hall s' s'' c' (.single ⟨_, trivial, hfirst⟩) hgood hsecond)
