/-
# The configuration file over several starts

`setup_first_run` and `check_once` are what writes the file.  A start finds it or makes it, and
later starts read what is there.

* `NodeBootstrapper.firstRun` : the whole of `setup_first_run`, with the directories and the
  public address;
* `ConfigDisk`, `ConfigDisk.Permits` : the file with the last completed write, and that the
  next start can read it;
* `bootSetting`, `watchSetting` : the calls under every outcome of what they call;
* `spec_firstRun`, `spec_checkOnce` : one call;
* `config_permits_next_start` : any number of calls, when no write is disturbed once the file
  is open;
* `failed_first_run` : a first run without an address leaves an empty file behind.

Each call begins with any attributes of `NodeConfig`, so that the process may have been
restarted before it.
-/
import StorageNode.ConfigFile
import StorageNode.NetworkWatcher
import StorageNode.PortScanner

/-! ## The first run -/

/-- The operations of `setup_first_run`. -/
inductive BootOp
  /-- `initialize_directories` -/
  | initializeDirectories
  | scan (o : ScanOp)
  /-- `resolver.fetch_public_ip()` -/
  | fetchPublicIp
  | setPublicIp (ip : String)

@[reducible] def BootOp.Res : BootOp → Type
  | .scan o => o.Res
  | .fetchPublicIp => String
  | _ => Unit

/-- Programs of a start. -/
abbrev Boot (α : Type) : Type := Prog BootOp BootOp.Res Exn α

/-- Call an operation. -/
abbrev bootOp (o : BootOp) : Boot o.Res := Prog.perform o

/-- A choice of ports, within a start. -/
def Scan.boot {α : Type} (p : Scan α) : Boot α := p.inject BootOp.scan fun _ r => r

namespace NodeBootstrapper

/-- `setup_first_run`. -/
def firstRun (cfg : Config) (startingPort : ℤ) (fuel : ℕ) : Boot Unit := do
  bootOp .initializeDirectories
  (NodeBootstrapper.setupFirstRun cfg startingPort fuel).boot
  -- a public address that cannot be fetched is only logged
  if cfg.isLocal then pure ()
  else
    (do
      let ip ← bootOp .fetchPublicIp
      bootOp (.setPublicIp ip)).tryExcept fun _ => pure ()

end NodeBootstrapper

/-! ## The file and its history -/

/-- The configuration file, and the address and the port of the last write that was
completed. -/
structure ConfigDisk where
  file : Option Text := none
  written : Option (Text × ℤ) := none
  deriving DecidableEq

namespace ConfigDisk

/-- **The file permits the next start**: it is absent, or `read_config` finds in it what was
written last. -/
def Permits (d : ConfigDisk) : Prop :=
  d.file = none ∨
    ∃ last, d.written = some last ∧ ConfigFileManager.readConfig d.file = .ok last

/-- A call of `write_config`. -/
def Writes (localIp : Option Text) (port : ℤ) (f : WriteFaults) (d : ConfigDisk)
    (r : Except Exn Unit) (d' : ConfigDisk) : Prop :=
  WritesConfig localIp port f d.file r d'.file ∧
    d'.written = match r with
      | .ok _ => localIp.map fun ip => (ip, port)
      | .error _ => d.written

variable {d d' : ConfigDisk} {localIp : Option Text} {port : ℤ} {f : WriteFaults}
  {r : Except Exn Unit}

/-- **One write** that is not disturbed. -/
theorem permits_writes (hd : d.Permits) (hintact : f.Intact localIp)
    (hspace : ∀ ip, localIp = some ip → NoSpace ip) (h : d.Writes localIp port f r d') :
    d'.Permits := by
  obtain ⟨hwrites, hwritten⟩ := h
  rcases writesConfig_intact hintact hwrites with ⟨⟨e, rfl⟩, hfile⟩ | ⟨ip, rfl, rfl, hfile⟩
  · unfold Permits
    rw [hfile, hwritten]
    exact hd
  · refine Or.inr ⟨(ip, port), hwritten, ?_⟩
    rw [hfile]
    exact readConfig_configText (hspace ip rfl) port

/-- **A write without an address** that gets as far as opening the file. -/
theorem not_permits_writes_none (hopen : f.openFails = none) (h : d.Writes none port f r d') :
    ¬ d'.Permits := by
  obtain ⟨-, hfile⟩ := writesConfig_none hopen h.1
  rintro (hnone | ⟨last, -, hread⟩)
  · rw [hfile] at hnone
    cases hnone
  · rw [hfile] at hread
    cases hread

end ConfigDisk

/-! ## One call -/

/-- The address the router gives has no whitespace. -/
def AnswersAddress (r : Except Exn (Option String)) : Prop :=
  ∀ ip, r = .ok (some ip) → NoSpace ip.toList

/-- A start: nothing is known of an operation but what it does to the file, and `meets` limits
the faults of a write. -/
abbrev bootSetting (meets : Option Text → WriteFaults → Prop) :
    Setting BootOp BootOp.Res Exn ConfigDisk where
  exec
    | .scan .configExists, d, r, d' => d' = d ∧ ∀ b, r = .ok b → b = d.file.isSome
    | .scan .getMyIp, d, r, d' => d' = d ∧ AnswersAddress r
    | .scan (.writeConfig localIp port), d, r, d' =>
        ∃ f, meets (localIp.map String.toList) f ∧
          d.Writes (localIp.map String.toList) port f r d'
    | _, d, _, d' => d' = d
  env _ _ := False
  guar _ _ := True
  inv _ := True

/-- The watcher's part of the process, with the file. -/
structure WatchedConfig where
  disk : ConfigDisk
  localIp : String

/-- A check, in the same way. -/
abbrev watchSetting (meets : Option Text → WriteFaults → Prop) (decentoragePort : ℤ) :
    Setting WatcherOp WatcherOp.Res Exn WatchedConfig where
  exec
    | .getMyIp, w, r, w' => w' = w ∧ AnswersAddress r
    | .localIp, w, r, w' => w' = w ∧ r = .ok w.localIp
    | .setLocalIp ip, w, r, w' => w' = { w with localIp := ip } ∧ r = .ok ()
    | .writeConfig, w, r, w' =>
        ∃ f, meets (some w.localIp.toList) f ∧
          w.disk.Writes (some w.localIp.toList) decentoragePort f r w'.disk ∧
          w'.localIp = w.localIp
    | _, w, _, w' => w' = w
  env _ _ := False
  guar _ _ := True
  inv _ := True

/-- No fault reaches an open file. -/
abbrev undisturbed (localIp : Option Text) (f : WriteFaults) : Prop := f.Intact localIp

section Boot

variable {meets : Option Text → WriteFaults → Prop}

theorem settled_boot (A : ConfigDisk → Prop) : (bootSetting meets).Settled A :=
  ⟨fun _ _ _ h => h.elim, fun _ _ => trivial⟩

/-- An operation that leaves the file alone. -/
theorem spec_bootOp {o : BootOp} {A : ConfigDisk → Prop} {B : o.Res → ConfigDisk → Prop}
    (hfile : ∀ d r d', (bootSetting meets).exec o d r d' → d' = d)
    (hB : ∀ a d, A d → (bootSetting meets).exec o d (.ok a) d → B a d) :
    (bootSetting meets).Spec A (bootOp o) B A := by
  refine Setting.spec_perform (settled_boot _) (fun _ => settled_boot _) (settled_boot _) ?_
  intro d r d' hd hexec
  obtain rfl := hfile d r d' hexec
  refine ⟨trivial, ?_⟩
  cases r with
  | ok a => exact hB a d' hd hexec
  | error e => exact hd

end Boot

section FirstRun

variable {cfg : Config}

/-- The scanner's part of a start. -/
abbrev scanPart : Setting ScanOp ScanOp.Res Exn ConfigDisk :=
  (bootSetting undisturbed).within BootOp.scan fun _ r => r

theorem settled_scanPart (A : ConfigDisk → Prop) : scanPart.Settled A :=
  ⟨fun _ _ _ h => h.elim, fun _ _ => trivial⟩

/-- An operation of the scanner that leaves the file alone. -/
theorem spec_scanPart {o : ScanOp} {A : ConfigDisk → Prop} {B : o.Res → ConfigDisk → Prop}
    (hfile : ∀ d r d', (bootSetting undisturbed).exec (.scan o) d r d' → d' = d)
    (hB : ∀ a d, A d → (bootSetting undisturbed).exec (.scan o) d (.ok a) d → B a d) :
    scanPart.Spec A (scanOp o) B A := by
  refine Setting.spec_perform (settled_scanPart _) (fun _ => settled_scanPart _)
    (settled_scanPart _) ?_
  rintro d r d' hd ⟨r', rfl, hexec⟩
  obtain rfl := hfile d r d' hexec
  refine ⟨trivial, ?_⟩
  cases r with
  | ok a => exact hB a d' hd hexec
  | error e => exact hd

/-- Every operation but the write. -/
def ScanOp.readsOnly : ScanOp → Prop
  | .writeConfig _ _ => False
  | _ => True

theorem exec_readsOnly {o : ScanOp} (ho : o.readsOnly) {d d' : ConfigDisk}
    {r : Except Exn (BootOp.scan o).Res}
    (h : (bootSetting undisturbed).exec (.scan o) d r d') : d' = d := by
  cases o with
  | writeConfig localIp port => exact ho.elim
  | configExists => exact h.1
  | getMyIp => exact h.1
  | _ => exact h

theorem only_checkZmqBind (p : ℤ) : (PortScanner.checkZmqBind p).Only ScanOp.readsOnly := by
  refine Prog.only_tryExcept (Prog.only_bind (Prog.only_perform trivial) fun _ => trivial) fun e => ?_
  split <;> trivial

theorem only_findAvailablePort (startingPort : ℤ) (fuel : ℕ) :
    (PortScanner.findAvailablePort cfg startingPort true fuel).Only ScanOp.readsOnly := by
  have hscan : ∀ fuel candidate,
      (PortScanner.scanLoop cfg true fuel candidate).Only ScanOp.readsOnly := by
    intro fuel
    induction fuel with
    | zero => exact fun _ => trivial
    | succ fuel ih =>
        intro candidate
        refine Prog.only_bind (Prog.only_bind (only_checkZmqBind candidate) fun occupied => ?_)
          fun inUse => ?_
        · split
          · exact Prog.only_bind (Prog.only_perform trivial) fun _ => trivial
          · trivial
        · split
          · exact ih _
          · exact Prog.only_bind (Prog.only_perform trivial) fun _ => trivial
  refine Prog.only_bind (hscan fuel startingPort) fun candidate => ?_
  refine Prog.only_bind ?_ fun _ => trivial
  split
  · exact Prog.only_bind (Prog.only_perform trivial) fun _ => trivial
  · trivial

/-- An address without whitespace, if there is one. -/
def Spaceless (localIp : Option String) (d : ConfigDisk) : Prop :=
  d.Permits ∧ ∀ ip, localIp = some ip → NoSpace ip.toList

theorem spec_reads {o : ScanOp} {A : ConfigDisk → Prop} (ho : o.readsOnly) :
    scanPart.Spec A (scanOp o) (fun _ => A) A :=
  spec_scanPart (fun _ _ _ h => exec_readsOnly ho h) fun _ _ hd _ => hd

/-- Once there is an address to write. -/
theorem spec_writeFirst (startingPort : ℤ) (fuel : ℕ) (localIp : Option String) :
    scanPart.Spec (Spaceless localIp)
      (do
        let port ← PortScanner.findAvailablePort cfg startingPort true fuel
        scanOp (.setDecentoragePort port)
        scanOp (.writeConfig localIp port))
      (fun _ => ConfigDisk.Permits) ConfigDisk.Permits := by
  have hkept : scanPart.Spec (Spaceless localIp)
      (PortScanner.findAvailablePort cfg startingPort true fuel) (fun _ => Spaceless localIp)
      (Spaceless localIp) := by
    refine Setting.spec_kept (settled_scanPart _) ?_ (only_findAvailablePort startingPort fuel)
    rintro o d r d' ho hd ⟨r', hr, hexec⟩
    rw [exec_readsOnly ho hexec]
    exact ⟨trivial, hd⟩
  refine Setting.spec_bind (Setting.spec_mono (fun _ hd => hd) (fun _ _ hd => hd)
    (fun _ hd => hd.1) hkept) fun port => ?_
  refine Setting.spec_bind (Setting.spec_mono (fun _ hd => hd) (fun _ _ hd => hd)
    (fun _ hd => hd.1) (spec_reads trivial)) fun _ => ?_
  refine Setting.spec_perform (settled_scanPart _) (fun _ => settled_scanPart _)
    (settled_scanPart _) ?_
  rintro d r d' ⟨hd, hspace⟩ ⟨r', rfl, f, hintact, hwrites⟩
  have hpermits : d'.Permits := by
    refine ConfigDisk.permits_writes hd hintact ?_ hwrites
    intro ip hip
    obtain ⟨ip', hip', rfl⟩ := Option.map_eq_some_iff.mp hip
    exact hspace ip' hip'
  refine ⟨trivial, ?_⟩
  cases r with
  | ok a => exact hpermits
  | error e => exact hpermits

/-- **The file of a start** is left alone or completed. -/
theorem spec_setupFirstRun (startingPort : ℤ) (fuel : ℕ) :
    scanPart.Spec ConfigDisk.Permits (NodeBootstrapper.setupFirstRun cfg startingPort fuel)
      (fun _ => ConfigDisk.Permits) ConfigDisk.Permits := by
  refine Setting.spec_bind (spec_reads trivial) fun found => ?_
  split
  · exact Setting.spec_ret (settled_scanPart _) fun _ hd => hd
  · show scanPart.Spec _ (if cfg.router then _ else _ : Scan Unit) _ _
    split
    · have haddress : scanPart.Spec ConfigDisk.Permits (scanOp .getMyIp) Spaceless
          ConfigDisk.Permits := by
        refine spec_scanPart (fun _ _ _ h => h.1) fun localIp d hd h => ⟨hd, fun ip hip => ?_⟩
        exact h.2 ip (by rw [hip])
      exact Setting.spec_bind haddress fun localIp => spec_writeFirst startingPort fuel localIp
    · have hplain : NoSpace "127.0.0.1".toList := by decide
      refine Setting.spec_mono (fun d hd => ⟨hd, ?_⟩) (fun _ _ hd => hd) (fun _ hd => hd)
        (spec_writeFirst startingPort fuel (some "127.0.0.1"))
      rintro ip ⟨⟩
      exact hplain

/-- **One start.** -/
theorem spec_firstRun (startingPort : ℤ) (fuel : ℕ) :
    (bootSetting undisturbed).Spec ConfigDisk.Permits
      (NodeBootstrapper.firstRun cfg startingPort fuel) (fun _ => ConfigDisk.Permits)
      ConfigDisk.Permits := by
  refine Setting.spec_bind (spec_bootOp (fun _ _ _ h => h) fun _ _ hd _ => hd) fun _ => ?_
  refine Setting.spec_bind (Setting.spec_inject (spec_setupFirstRun startingPort fuel)) fun _ => ?_
  split
  · exact Setting.spec_ret (settled_boot _) fun _ hd => hd
  · refine Setting.spec_tryExcept (E := ConfigDisk.Permits) ?_ fun e =>
      Setting.spec_ret (settled_boot _) fun _ hd => hd
    refine Setting.spec_bind (spec_bootOp (fun _ _ _ h => h) fun _ _ hd _ => hd) fun ip => ?_
    exact spec_bootOp (fun _ _ _ h => h) fun _ _ hd _ => hd

end FirstRun

section Watch

variable {cfg : Config} {client : CoordinationClient} {decentoragePort : ℤ}

/-- A check in which no write is disturbed. -/
abbrev watching (decentoragePort : ℤ) : Setting WatcherOp WatcherOp.Res Exn WatchedConfig :=
  watchSetting undisturbed decentoragePort

theorem settled_watching (A : WatchedConfig → Prop) : (watching decentoragePort).Settled A :=
  ⟨fun _ _ _ h => h.elim, fun _ _ => trivial⟩

/-- Every operation that changes neither the file nor the address. -/
def WatcherOp.readsOnly : WatcherOp → Prop
  | .setLocalIp _ => False
  | .writeConfig => False
  | _ => True

theorem watching_readsOnly {o : WatcherOp} (ho : o.readsOnly) {w w' : WatchedConfig}
    {r : Except Exn o.Res} (h : (watching decentoragePort).exec o w r w') : w' = w := by
  cases o with
  | setLocalIp ip => exact ho.elim
  | writeConfig => exact ho.elim
  | getMyIp => exact h.1
  | localIp => exact h.1
  | _ => exact h

/-- A program that changes neither keeps what is known. -/
theorem spec_watchOnly {α : Type} {p : Watcher α} {A : WatchedConfig → Prop}
    (h : p.Only WatcherOp.readsOnly) : (watching decentoragePort).Spec A p (fun _ => A) A := by
  refine Setting.spec_kept (settled_watching _) ?_ h
  intro o w r w' ho hw hexec
  rw [watching_readsOnly ho hexec]
  exact ⟨trivial, hw⟩

theorem only_checkPublicIp :
    (NetworkWatcher.checkPublicIp client decentoragePort).Only WatcherOp.readsOnly := by
  refine Prog.only_tryExcept ?_ fun _ => trivial
  refine Prog.only_bind (Prog.only_perform trivial) fun currentPublic => ?_
  refine Prog.only_bind (Prog.only_perform trivial) fun publicIp => ?_
  split
  · refine Prog.only_bind (Prog.only_perform trivial) fun _ => ?_
    refine Prog.only_bind (Prog.only_perform trivial) fun ip => ?_
    refine Prog.only_inject (Prog.only_bind ?_ fun _ => trivial)
    refine Prog.only_tryExcept (Prog.only_bind (Prog.only_perform trivial) fun _ => trivial) fun e => ?_
    split <;> trivial
  · trivial

/-- The mappings of the handler. -/
theorem only_mappings (newIp : String) :
    (if !cfg.isLocal && cfg.router then do
      let _ ← watcherOp (.forwardPort
        { port := .int decentoragePort, lanip := some newIp, disable := false })
      let active ← watcherOp .listAll
      let conns ← Prog.ofExcept (pyIter active)
      NetworkChangeHandler.forwardAll newIp conns
    else pure ()).Only WatcherOp.readsOnly := by
  have hforward : ∀ conns,
      (NetworkChangeHandler.forwardAll newIp conns).Only WatcherOp.readsOnly := by
    intro conns
    induction conns with
    | nil => trivial
    | cons conn rest ih =>
        refine Prog.only_ofExcept_bind fun port _ => ?_
        exact Prog.only_bind (Prog.only_perform trivial) fun _ => ih
  split
  · refine Prog.only_bind (Prog.only_perform trivial) fun _ => ?_
    refine Prog.only_bind (Prog.only_perform trivial) fun active => ?_
    exact Prog.only_ofExcept_bind fun conns _ => hforward conns
  · trivial

/-- The file as the watcher has it. -/
def WatchedConfig.Permits (w : WatchedConfig) : Prop := w.disk.Permits

/-- **A new address** is stored and written. -/
theorem spec_storeAddress {ip : String} (hspace : NoSpace ip.toList) :
    (watching decentoragePort).Spec WatchedConfig.Permits
      (do
        NetworkChangeHandler.onLocalIpChanged cfg decentoragePort ip
        watcherOp .writeConfig)
      (fun _ => WatchedConfig.Permits) WatchedConfig.Permits := by
  refine Setting.spec_bind (B := fun _ w => w.Permits ∧ w.localIp = ip) ?_ fun _ => ?_
  · refine Setting.spec_bind (spec_watchOnly (only_mappings ip)) fun _ => ?_
    refine Setting.spec_perform (settled_watching _) (fun _ => settled_watching _)
      (settled_watching _) ?_
    rintro w r w' hw ⟨rfl, rfl⟩
    exact ⟨trivial, hw, rfl⟩
  · refine Setting.spec_perform (settled_watching _) (fun _ => settled_watching _)
      (settled_watching _) ?_
    rintro w r w' ⟨hw, haddress⟩ ⟨f, hintact, hwrites, -⟩
    have hpermits : w'.Permits := by
      refine ConfigDisk.permits_writes hw hintact ?_ hwrites
      rintro _ ⟨⟩
      rw [haddress]
      exact hspace
    refine ⟨trivial, ?_⟩
    cases r with
    | ok a => exact hpermits
    | error e => exact hpermits

/-- What is known of the address a check finds: it is the router's, or no change. -/
def Found (current : Option String) (w : WatchedConfig) : Prop :=
  w.Permits ∧ ∀ ip, current = some ip → NoSpace ip.toList ∨ ip = w.localIp

theorem spec_currentLocal :
    (watching decentoragePort).Spec WatchedConfig.Permits (NetworkWatcher.currentLocal cfg) Found
      WatchedConfig.Permits := by
  unfold NetworkWatcher.currentLocal
  split
  · refine Setting.spec_perform (settled_watching _) (fun _ => settled_watching _)
      (settled_watching _) ?_
    rintro w r w' hw ⟨rfl, haddress⟩
    refine ⟨trivial, ?_⟩
    cases r with
    | ok current => exact ⟨hw, fun ip hip => Or.inl (haddress ip (by rw [hip]))⟩
    | error e => exact hw
  · refine Setting.spec_bind (B := fun ip w => w.Permits ∧ ip = w.localIp) ?_ fun ip =>
      Setting.spec_ret (settled_watching _) fun w hw => ⟨hw.1, ?_⟩
    · refine Setting.spec_perform (settled_watching _) (fun _ => settled_watching _)
        (settled_watching _) ?_
      rintro w r w' hw ⟨rfl, rfl⟩
      exact ⟨trivial, hw, rfl⟩
    · rintro _ ⟨⟩
      exact Or.inr hw.2

/-- **One check.** -/
theorem spec_checkOnce :
    (watching decentoragePort).Spec WatchedConfig.Permits
      (NetworkWatcher.checkOnce cfg client decentoragePort) (fun _ => WatchedConfig.Permits)
      WatchedConfig.Permits := by
  refine Setting.spec_bind (B := fun _ => WatchedConfig.Permits) ?_ fun _ => ?_
  · split
    · exact Setting.spec_ret (settled_watching _) fun _ hw => hw
    · exact spec_watchOnly only_checkPublicIp
  refine Setting.spec_bind (B := fun _ => WatchedConfig.Permits) ?_ fun _ => ?_
  · refine Setting.spec_bind spec_currentLocal fun current => ?_
    refine Setting.spec_bind (B := fun localIp w => Found current w ∧ localIp = w.localIp) ?_
      fun localIp => ?_
    · refine Setting.spec_perform (settled_watching _) (fun _ => settled_watching _)
        (settled_watching _) ?_
      rintro w r w' hw ⟨rfl, rfl⟩
      exact ⟨trivial, hw, rfl⟩
    cases current with
    | none => exact Setting.spec_ret (settled_watching _) fun w hw => hw.1.1
    | some ip =>
        show (watching decentoragePort).Spec _ (if ip ≠ "" ∧ ip ≠ localIp then _ else _ : Watcher Unit)
          _ _
        split
        · next hnew =>
            intro w hw
            have hspace : NoSpace ip.toList :=
              (hw.1.2 ip rfl).resolve_right fun hsame => hnew.2 (hsame.trans hw.2.symm)
            exact spec_storeAddress hspace w hw.1.1
        · exact Setting.spec_ret (settled_watching _) fun w hw => hw.1.1
  · split
    · exact spec_watchOnly (Prog.only_bind (Prog.only_perform trivial) fun _ =>
        Prog.only_perform trivial)
    · exact Setting.spec_ret (settled_watching _) fun _ hw => hw

end Watch

/-! ## Any number of calls -/

/-- A call, with the attributes of `NodeConfig` it begins with. -/
inductive ConfigCall
  | setupFirstRun (cfg : Config) (startingPort : ℤ) (fuel : ℕ)
  | checkOnce (cfg : Config) (client : CoordinationClient) (decentoragePort : ℤ)
      (localIp : String)

/-- `d'` is the file after the call, whether it returns or raises. -/
def ConfigCall.Leaves (meets : Option Text → WriteFaults → Prop) :
    ConfigCall → ConfigDisk → ConfigDisk → Prop
  | .setupFirstRun cfg startingPort fuel, d, d' =>
      ∃ r, (bootSetting meets).toMachine.Reaches
        (NodeBootstrapper.firstRun cfg startingPort fuel, d) (Prog.ofExcept r, d')
  | .checkOnce cfg client decentoragePort localIp, d, d' =>
      ∃ r w', (watchSetting meets decentoragePort).toMachine.Reaches
        (NetworkWatcher.checkOnce cfg client decentoragePort, ⟨d, localIp⟩) (Prog.ofExcept r, w') ∧
        w'.disk = d'

/-- The files after any number of calls, from none at all. -/
def ConfigDisk.Reached (meets : Option Text → WriteFaults → Prop) (d : ConfigDisk) : Prop :=
  Relation.ReflTransGen (fun d d' => ∃ c : ConfigCall, c.Leaves meets d d') {} d

theorem permits_leaves {c : ConfigCall} {d d' : ConfigDisk} (hd : d.Permits)
    (h : c.Leaves undisturbed d d') : d'.Permits := by
  cases c with
  | setupFirstRun cfg startingPort fuel =>
      obtain ⟨r, hrun⟩ := h
      have hspec : (bootSetting undisturbed).wp (NodeBootstrapper.firstRun cfg startingPort fuel)
          _ d := spec_firstRun startingPort fuel d hd
      cases r with
      | ok a => exact Setting.wp_returns hspec hrun
      | error e => exact Setting.wp_raises hspec hrun
  | checkOnce cfg client decentoragePort localIp =>
      obtain ⟨r, w', hrun, rfl⟩ := h
      have hspec : (watching decentoragePort).wp
          (NetworkWatcher.checkOnce cfg client decentoragePort) _ ⟨d, localIp⟩ :=
        spec_checkOnce ⟨d, localIp⟩ hd
      cases r with
      | ok a => exact Setting.wp_returns hspec hrun
      | error e => exact Setting.wp_raises hspec hrun

/-- **The config file always permits the next start**, in every run of starts and checks in
which a write that gets the file open has an address and is not disturbed any more. -/
theorem config_permits_next_start {d : ConfigDisk} (h : d.Reached undisturbed) : d.Permits := by
  induction h with
  | refl => exact Or.inl rfl
  | tail _ hcall ih =>
      obtain ⟨c, hcall⟩ := hcall
      exact permits_leaves ih hcall

/-! ## A first start -/

/-- A write on which nothing fails. -/
def ConfigDisk.writeAlone (localIp : Option Text) (port : ℤ) (d : ConfigDisk) :
    Option (Except Exn Unit × ConfigDisk) :=
  match (ConfigFileManager.writeConfig localIp port).eval (ConfigHandle.exec {})
      { file := d.file } with
  | some (r, h) =>
      some (r, { file := h.file
                 written := match r with
                            | .ok _ => localIp.map fun ip => (ip, port)
                            | .error _ => d.written })
  | none => none

theorem ConfigDisk.writes_writeAlone {localIp : Option Text} {port : ℤ} {d d' : ConfigDisk}
    {r : Except Exn Unit} (h : d.writeAlone localIp port = some (r, d')) :
    d.Writes localIp port {} r d' := by
  unfold writeAlone at h
  split at h
  · next r' handle heval =>
      cases h
      exact ⟨⟨handle.writes, heval⟩, rfl⟩
  · cases h

/-- A first start on which nothing fails and the router gives this address. -/
def startAlone (myIp : Option String) (o : BootOp) (d : ConfigDisk) :
    Option (Except Exn o.Res × ConfigDisk) :=
  match o with
  | .initializeDirectories => some (.ok (), d)
  | .scan .configExists => some (.ok d.file.isSome, d)
  | .scan .getMyIp => some (.ok myIp, d)
  | .scan (.probeBind _) => some (.ok (), d)
  | .scan (.setDecentoragePort _) => some (.ok (), d)
  | .scan (.writeConfig localIp port) =>
      if localIp = myIp then d.writeAlone (localIp.map String.toList) port else none
  | _ => none

theorem exec_startAlone {meets : Option Text → WriteFaults → Prop} {myIp : Option String}
    (hspace : ∀ ip, myIp = some ip → NoSpace ip.toList)
    (hmeets : meets (myIp.map String.toList) {}) {o : BootOp} {d d' : ConfigDisk}
    {r : Except Exn o.Res} (h : startAlone myIp o d = some (r, d')) :
    (bootSetting meets).exec o d r d' := by
  cases o with
  | initializeDirectories =>
      cases h
      rfl
  | fetchPublicIp => cases h
  | setPublicIp ip => cases h
  | scan o =>
      cases o with
      | configExists =>
          cases h
          refine ⟨rfl, ?_⟩
          rintro _ ⟨⟩
          rfl
      | getMyIp =>
          cases h
          refine ⟨rfl, fun ip hip => hspace ip ?_⟩
          exact Except.ok.inj hip
      | probeBind p =>
          cases h
          rfl
      | setDecentoragePort p =>
          cases h
          rfl
      | writeConfig localIp port =>
          simp only [startAlone] at h
          split at h
          · next hsame =>
              subst hsame
              exact ⟨{}, hmeets, ConfigDisk.writes_writeAlone h⟩
          · cases h
      | _ => cases h

/-- The file after a first start on the local port 50000. -/
theorem reached_startAlone {meets : Option Text → WriteFaults → Prop} {myIp : Option String}
    {r : Except Exn Unit} {d : ConfigDisk}
    (hspace : ∀ ip, myIp = some ip → NoSpace ip.toList)
    (hmeets : meets (myIp.map String.toList) {})
    (h : (NodeBootstrapper.firstRun {} 50000 1).eval (startAlone myIp) {} = some (r, d)) :
    d.Reached meets :=
  .single ⟨.setupFirstRun {} 50000 1, r, Machine.reaches_of_eval
    (fun _ _ _ _ hexec => exec_startAlone hspace hmeets hexec) h⟩

/-- A check on which nothing fails and the router gives this address. -/
def checkAlone (decentoragePort : ℤ) (myIp : String) (o : WatcherOp) (w : WatchedConfig) :
    Option (Except Exn o.Res × WatchedConfig) :=
  match o with
  | .getMyIp => some (.ok (some myIp), w)
  | .localIp => some (.ok w.localIp, w)
  | .setLocalIp ip => some (.ok (), { w with localIp := ip })
  | .setPublicIp _ => some (.ok (), w)
  | .writeConfig =>
      (w.disk.writeAlone (some w.localIp.toList) decentoragePort).map fun a =>
        (a.1, { w with disk := a.2 })
  | _ => none

theorem exec_checkAlone {decentoragePort : ℤ} {myIp : String} (hspace : NoSpace myIp.toList)
    {o : WatcherOp} {w w' : WatchedConfig} {r : Except Exn o.Res}
    (h : checkAlone decentoragePort myIp o w = some (r, w')) :
    (watching decentoragePort).exec o w r w' := by
  cases o with
  | getMyIp =>
      cases h
      refine ⟨rfl, ?_⟩
      rintro _ ⟨⟩
      exact hspace
  | localIp =>
      cases h
      exact ⟨rfl, rfl⟩
  | setLocalIp ip =>
      cases h
      exact ⟨rfl, rfl⟩
  | setPublicIp ip =>
      cases h
      rfl
  | writeConfig =>
      simp only [checkAlone, Option.map_eq_some_iff] at h
      obtain ⟨⟨r', d⟩, hwrite, heq⟩ := h
      cases heq
      refine ⟨{}, Or.inr ⟨?_, fun _ => rfl, rfl⟩, ConfigDisk.writes_writeAlone hwrite, rfl⟩
      simp
  | _ => cases h

/-- The theorem at a first start that finds an address, and a check that finds another one and
writes the file anew. -/
theorem permits_new_address :
    ConfigDisk.Permits { file := some "10.0.0.7\n50000".toList
                         written := some ("10.0.0.7".toList, 50000) } := by
  have hstart : ConfigDisk.Reached undisturbed
      { file := some "192.168.1.5\n50000".toList
        written := some ("192.168.1.5".toList, 50000) } :=
    @reached_startAlone _ (some "192.168.1.5") (.ok ()) _
      (by
        rintro _ ⟨⟩
        decide)
      (Or.inr ⟨by decide, fun _ => rfl, rfl⟩) rfl
  have hcheck : (ConfigCall.checkOnce {} {} 50000 "192.168.1.5").Leaves undisturbed
      { file := some "192.168.1.5\n50000".toList
        written := some ("192.168.1.5".toList, 50000) }
      { file := some "10.0.0.7\n50000".toList
        written := some ("10.0.0.7".toList, 50000) } :=
    ⟨.ok (), ⟨_, "10.0.0.7"⟩, Machine.reaches_of_eval
      (fun _ _ _ _ hexec => @exec_checkAlone 50000 "10.0.0.7" (by decide) _ _ _ _ hexec) rfl, rfl⟩
  exact config_permits_next_start (hstart.tail ⟨_, hcheck⟩)

/-- **A first start without an address**: the file is emptied before the address turns out to
be missing, and every later start finds it. -/
theorem failed_first_run :
    ConfigDisk.Reached (fun _ _ => True) { file := some [] } ∧
      ConfigFileManager.readConfig (some []) = .error .indexError ∧
      ¬ ConfigDisk.Permits { file := some [] } := by
  refine ⟨@reached_startAlone _ none (.error .typeError) _ (by rintro _ ⟨⟩) trivial rfl, rfl, ?_⟩
  rintro (hnone | ⟨last, hwritten, -⟩)
  · cases hnone
  · cases hwritten
