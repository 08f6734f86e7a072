/-
# Which ports the node gives away

The node together with its port scanner: the threads that dispatch requests, each inside a
scan of its own when it looks for a port, and the choice of the command port at a start,
before the recorded transfers are resumed.

* `dispatch_allocates` : a request is registered once, directly after the scan that found
  its port;
* `PortState`, `PortEvent`, `PortState.next` : the node and its scans;
* `PortState.PortsDistinct` : the property;
* `PortState.testsSound` : no test of a port finds one free that is already taken.

A kill inside a ledger call leaves the file as a call that fails at that point does.  The
empty ledger that the first start writes is read like no ledger file.
-/
import StorageNode.EventRun
import StorageNode.NodeRun
import StorageNode.PortScanner

open RequestDispatcher ConnectionLedger

/-! ## Where a request is registered -/

/-- Neither a scan nor a registration. -/
def allocatesNothing : DispatchOp → Prop
  | .findAvailablePort => False
  | .node (.ledgerRegister _) => False
  | _ => True

theorem only_startTransfer_allocates (cfg : Config) (fuel : ℕ) (request : Dict) (isNew : Bool) :
    (startTransfer cfg fuel request isNew).Only allocatesNothing := by
  refine Prog.only_mono ?_ (only_startTransfer cfg fuel request isNew)
  intro o ho
  cases o with
  | node o =>
      cases o with
      | ledgerRegister entry => exact ho
      | _ => trivial
  | findAvailablePort => exact ho
  | _ => trivial

/-- What follows a registration. -/
def afterRegister (cfg : Config) (fuel : ℕ) (request : Dict) (connected : Bool) (p : ℤ) :
    Dispatch Unit := do
  (if connected then dispatchOp (.sendReply (toString p)) else pure ())
  startTransfer cfg fuel (Dict.set "port" (.int p) request) true

theorem only_afterRegister (cfg : Config) (fuel : ℕ) (request : Dict) (connected : Bool) (p : ℤ) :
    (afterRegister cfg fuel request connected p).Only allocatesNothing := by
  refine Prog.only_bind ?_ fun _ => only_startTransfer_allocates cfg fuel _ true
  split
  · exact Prog.only_perform trivial
  · trivial

/-- Between the scan and the end of a request with port 0. -/
def afterScan (cfg : Config) (fuel : ℕ) (request : Dict) (connected : Bool) :
    Except Exn ℤ → Dispatch Unit
  | .ok p => .call (.node (.ledgerRegister (Dict.set "port" (.int p) request))) fun
      | .ok _ => afterRegister cfg fuel request connected p
      | .error e => .raise e
  | .error e => .raise e

/-- **`dispatch` either allocates nothing, or starts with a scan and registers what it
found.** -/
theorem dispatch_allocates (cfg : Config) (hexdigest : Bytes → String) (fuel : ℕ)
    (request : Dict) (connected : Bool) :
    (dispatch cfg hexdigest fuel request connected).Only allocatesNothing ∨
      dispatch cfg hexdigest fuel request connected =
        .call .findAvailablePort (afterScan cfg fuel request connected) := by
  have hreply : ∀ text, (if connected then dispatchOp (.sendReply text)
      else (pure () : Dispatch Unit)).Only allocatesNothing := by
    intro text
    split
    · exact Prog.only_perform trivial
    · trivial
  unfold dispatch
  cases htype : request.getItem "type" with
  | error e => exact Or.inl trivial
  | ok type =>
      simp only [Prog.ofExcept, Prog.bind_eq, Prog.bind]
      split
      · refine Or.inl (Prog.only_ofExcept_bind fun fragmentId _ => ?_)
        refine Prog.only_ofExcept_bind fun salt _ => ?_
        refine Prog.only_bind ?_ fun digest => hreply digest
        refine Prog.only_ofExcept_bind fun filePath _ => ?_
        refine Prog.only_bind (Prog.only_perform trivial) fun fh => ?_
        refine Prog.only_bind ?_ fun content => ?_
        · exact Prog.only_tryFinally (Prog.only_perform trivial) (Prog.only_perform trivial)
        · exact Prog.only_ofExcept_bind fun encoded _ => trivial
      · cases hport : request.getItem "port" with
        | error e => exact Or.inl trivial
        | ok port =>
            simp only [Prog.bind]
            split
            · refine Or.inr ?_
              simp only [allocateTransferPort, dispatchOp, Prog.perform, Prog.bind_eq, Prog.bind]
              congr 1
              funext r
              cases r with
              | error e => rfl
              | ok p =>
                  simp only [afterScan, afterRegister, Prog.bind]
                  congr 1
                  funext r
                  cases r with
                  | error e => rfl
                  | ok b =>
                      cases connected with
                      | false => rfl
                      | true =>
                          show Prog.call (DispatchOp.sendReply (toString p)) _ =
                            Prog.call (DispatchOp.sendReply (toString p)) _
                          congr 1
                          funext r
                          cases r <;> rfl
            · exact Or.inl (only_startTransfer_allocates cfg fuel request false)

/-- **Where a thread stands**: before its scan, between the scan and the registration, or
where nothing is allocated any more. -/
theorem dispatch_stage {cfg : Config} {hexdigest : Bytes → String} {fuel : ℕ} {request : Dict}
    {connected : Bool} {log : List (Prog.Event DispatchOp DispatchOp.Res Exn)} {p' : Dispatch Unit}
    (h : (dispatch cfg hexdigest fuel request connected).Runs log p') :
    (log = [] ∧ ∃ k, p' = .call .findAvailablePort k) ∨
      (∃ p k, log = [⟨.findAvailablePort, .ok p⟩] ∧
        p' = .call (.node (.ledgerRegister (Dict.set "port" (.int p) request))) k) ∨
      (p'.Only allocatesNothing ∧ ∀ p, log ≠ [⟨.findAvailablePort, .ok p⟩]) := by
  rcases dispatch_allocates cfg hexdigest fuel request connected with honly | hscan
  · obtain ⟨hp', hlog⟩ := Prog.only_runs honly h
    refine Or.inr (Or.inr ⟨hp', ?_⟩)
    rintro p rfl
    exact hlog _ List.mem_cons_self
  · rw [hscan] at h
    rcases h.call_cases with ⟨rfl, rfl⟩ | ⟨r, t, rfl, hrest⟩
    · exact Or.inl ⟨rfl, _, rfl⟩
    · cases r with
      | error e =>
          have hraise : (afterScan cfg fuel request connected (.error e)).Only allocatesNothing :=
            trivial
          refine Or.inr (Or.inr ⟨(Prog.only_runs hraise hrest).1, fun p hp => ?_⟩)
          simp at hp
      | ok p =>
          rcases Prog.Runs.call_cases hrest with ⟨rfl, rfl⟩ | ⟨r, t', rfl, hend⟩
          · exact Or.inr (Or.inl ⟨p, _, rfl, rfl⟩)
          · refine Or.inr (Or.inr ⟨?_, fun q hq => by simp at hq⟩)
            cases r with
            | error e =>
                have hraise : (Prog.raise e : Dispatch Unit).Only allocatesNothing := trivial
                exact (Prog.only_runs hraise hend).1
            | ok b => exact (Prog.only_runs (only_afterRegister cfg fuel request connected p) hend).1

/-! ## The node and its scans -/

/-- How the operations of a scan turn out. -/
abbrev ScanAnswer : Type := (o : ScanOp) → Except Exn o.Res

/-- The node, the attribute `decentorage_port`, the port in `config.txt` (`none` without
the file, `some none` when it cannot be read), what is left of the start and of the scans
of the threads; and, as history, what the tests of each have said. -/
structure PortState where
  node : NodeState
  decentoragePort : ℤ := 0
  configFile : Option (Option ℤ) := none
  startup : Option (Scan Unit) := none
  startTests : Tests := {}
  scans : ℕ → Option (Scan ℤ) := fun _ => none
  tests : ℕ → Tests := fun _ => {}

/-- What happens next: the process is started, takes a step of `initialize`, begins or
takes a step of the scan of a thread, takes another step, or is killed. -/
inductive PortEvent
  | boot (fuel : ℕ)
  | startup (answer : ScanAnswer)
  | scanStart (i fuel : ℕ)
  | scan (i : ℕ) (answer : ScanAnswer)
  | node (ev : NodeEvent)
  | kill

/-- `find_available_port` answers the thread. -/
def scanned (r : Except Exn ℤ) : NodeChoice where
  answer
    | .findAvailablePort => r
    | o => plainAnswer o

/-- The port that a scan has found. -/
def found : Prog.Event DispatchOp DispatchOp.Res Exn → Option ℤ
  | ⟨.findAvailablePort, .ok p⟩ => some p
  | _ => none

/-- The port that the thread was given. -/
def NodeThread.given (t : NodeThread) : Option ℤ := t.log.head?.bind found

/-- The thread has not come to its end. -/
def NodeThread.running (t : NodeThread) : Bool :=
  match t.prog with
  | .call _ _ => true
  | _ => false

/-- The thread is about to look for a port. -/
def NodeThread.seeks (t : NodeThread) : Bool :=
  match t.prog with
  | .call .findAvailablePort _ => true
  | _ => false

/-- `entry["port"]` of a ledger entry. -/
def entryPort : Json → Option Json
  | .obj entry => Dict.get? "port" entry
  | _ => none

/-- A ledger entry records the port. -/
def recorded (file : Option (List Char)) (p : ℤ) : Bool :=
  match readFile file with
  | .ok (.arr entries) => entries.any fun e => entryPort e == some (.int p)
  | _ => false

namespace PortState

variable (cfg : Config) (hexdigest : Bytes → String) (startingPort : ℤ)

/-- An operation of a scan or of the start. -/
def exec (s : PortState) (answer : ScanAnswer) :
    (o : ScanOp) → Option (Except Exn o.Res × PortState)
  | .decentoragePort => some (.ok s.decentoragePort, s)
  | .setDecentoragePort p => some (.ok (), { s with decentoragePort := p })
  | .configExists => some (.ok s.configFile.isSome, s)
  | .readConfig =>
      match s.configFile, answer .readConfig with
      | some (some p), _ => some (.ok p, s)
      | _, .error e => some (.error e, s)
      | _, .ok _ => none
  | .writeConfig localIp p =>
      match answer (.writeConfig localIp p), localIp with
      | .ok (), some _ => some (.ok (), { s with configFile := some (some p) })
      | .ok (), none => some (.error .typeError, { s with configFile := some none })
      | .error e, _ => some (.error e, { s with configFile := some none })
  | o => if o.possible (answer o) then some (answer o, s) else none

/-- A step of the node itself. -/
def nodeStep (s : PortState) (ev : NodeEvent) : Option PortState :=
  (s.node.next cfg hexdigest ev).map fun node => { s with node := node }

/-- The thread looks for a port. -/
def seeks (s : PortState) (i : ℕ) : Bool := s.node.threads[i]?.any NodeThread.seeks

/-- **One event.**  A start whose `initialize` has raised an exception can only end. -/
def next (s : PortState) : PortEvent → Option PortState
  | .boot fuel =>
      if s.node.up || s.startup.isSome then none
      else some { s with decentoragePort := 0
                         startup := some (StorageNode.initializePorts cfg startingPort fuel)
                         startTests := {} }
  | .startup answer =>
      match s.startup with
      | some (.call o k) => (s.exec answer o).map fun rs =>
          { rs.2 with startup := some (k rs.1), startTests := s.startTests.after cfg o rs.1 }
      | some (.ret _) => ({ s with startup := none } : PortState).nodeStep cfg hexdigest .start
      | _ => none
  | .scanStart i fuel =>
      if s.seeks i && (s.scans i).isNone then
        let scan := PortScanner.findAvailablePort cfg startingPort false fuel
        some { s with scans := Function.update s.scans i (some scan)
                      tests := Function.update s.tests i {} }
      else none
  | .scan i answer =>
      let done : PortState := { s with scans := Function.update s.scans i none
                                       tests := Function.update s.tests i {} }
      if s.seeks i then
        match s.scans i with
        | some (.call o k) => (s.exec answer o).map fun rs =>
            { rs.2 with scans := Function.update s.scans i (some (k rs.1))
                        tests := Function.update s.tests i ((s.tests i).after cfg o rs.1) }
        | some (.ret p) => done.nodeStep cfg hexdigest (.thread i (scanned (.ok p)))
        | some (.raise e) => done.nodeStep cfg hexdigest (.thread i (scanned (.error e)))
        | _ => none
      else none
  | .node (.thread i c) => if s.seeks i then none else s.nodeStep cfg hexdigest (.thread i c)
  | .node (.resume fuel) => s.nodeStep cfg hexdigest (.resume fuel)
  | .node (.accept raw fuel) => s.nodeStep cfg hexdigest (.accept raw fuel)
  | .node _ => none
  | .kill =>
      let off : PortState :=
        { s with decentoragePort := 0, startup := none, startTests := {}, scans := fun _ => none
                 tests := fun _ => {} }
      if s.startup.isSome then some off else off.nodeStep cfg hexdigest .kill

/-- A new installation: neither a configuration nor a ledger. -/
def fresh : PortState := { node := { ledger := none } }

/-! ## Which ports are taken -/

/-- **The ports of all ledger entries and `decentorage_port` are pairwise distinct.** -/
def PortsDistinct (s : PortState) : Prop :=
  ∃ (entries : List Json) (ports : List ℤ), nextRead s.node.ledger = some (.ok (.arr entries)) ∧
    entries.map entryPort = ports.map (fun p => some (.int p)) ∧
    (s.decentoragePort :: ports).Nodup

/-- No two running transfers were told the same port. -/
def TransfersDistinct (s : PortState) : Prop :=
  ∀ (i j : ℕ) (ti tj : NodeThread) (p : ℤ), i ≠ j → s.node.threads[i]? = some ti → s.node.threads[j]? = some tj →
    ti.running = true → tj.running = true → ti.given = some p → tj.given ≠ some p

/-- Another running transfer was given the port. -/
def heldByOther (s : PortState) (i : ℕ) (p : ℤ) : Bool :=
  s.node.threads.zipIdx.any fun tj => tj.2 != i && tj.1.running && tj.1.given == some p

/-- Another scan has found the port free. -/
def foundByOther (s : PortState) (i : ℕ) (p : ℤ) : Bool :=
  (List.range s.node.threads.length).any fun j => j != i && (s.tests j).free == some p

/-- The port is recorded, is the command port, or belongs to another transfer or scan. -/
def taken (s : PortState) (i : ℕ) (p : ℤ) : Bool :=
  recorded s.node.ledger p || p == s.decentoragePort || s.heldByOther i p || s.foundByOther i p

/-- The port that `read_config` reads. -/
def configPort (s : PortState) : ScanOp → Option ℤ
  | .readConfig => s.configFile.join
  | _ => none

/-- **The tests are sound**: a port that an answer finds free is not taken before it, and the
ledger records neither a port that the search for the command port finds free nor the one that
is read from `config.txt`. -/
def testsSound (s : PortState) : PortEvent → Bool
  | .scan i answer =>
      match s.scans i with
      | some (.call o _) => ((s.tests i).finds cfg o (answer o)).all fun p => !s.taken i p
      | _ => true
  | .startup answer =>
      match s.startup with
      | some (.call o _) =>
          (s.startTests.finds cfg o (answer o)).all (fun p => !recorded s.node.ledger p) &&
            (s.configPort o).all fun p => !recorded s.node.ledger p
      | _ => true
  | _ => true

end PortState

/-! ## The ports in the ledger -/

/-- The ports that the entries in the file record. -/
def LedgerPorts (file : Option (List Char)) (ports : List ℤ) : Prop :=
  ∃ entries, readFile file = .ok (.arr entries) ∧
    entries.map entryPort = ports.map fun p => some (.int p)

theorem recorded_iff {file : Option (List Char)} {ports : List ℤ} (h : LedgerPorts file ports)
    (p : ℤ) : recorded file p = true ↔ p ∈ ports := by
  obtain ⟨entries, hread, hports⟩ := h
  have hany : (entries.any fun e => entryPort e == some (.int p)) =
      (entries.map entryPort).any (· == some (.int p)) := by
    rw [List.any_map]
    rfl
  have hint : ∀ q : ℤ, (some (Json.int q) == some (Json.int p)) = decide (q = p) := fun _ => rfl
  simp only [recorded, hread, hany, hports, List.any_map, List.any_eq_true, Function.comp_apply,
    hint, decide_eq_true_eq, exists_eq_right]

theorem entryPort_set (request : Dict) (p : ℤ) :
    entryPort (.obj (Dict.set "port" (.int p) request)) = some (.int p) := by
  rw [entryPort, Dict.get?_set_self]

/-- The ports after a call: some of those before, or one more when it registers one. -/
theorem LedgerPorts.runUpdate {file : Option (List Char)} {ports : List ℤ}
    (h : LedgerPorts file ports) {u : LedgerUpdate} {p : ℤ}
    (hu : ∀ entry, u = .register entry →
      (Json.obj entry).WF ∧ entryPort (.obj entry) = some (.int p))
    {cs : List Choice} {r : Except Exn Bool} {w : LedgerWorld Unit}
    (hrun : runUpdate u file cs = some (r, w)) :
    ∃ ports', LedgerPorts w.file ports' ∧
      (ports'.Sublist ports ∨ ((∃ entry, u = .register entry) ∧ ports' = ports ++ [p])) := by
  obtain ⟨entries, hread, hports⟩ := h
  obtain ⟨entries', hread', hentries⟩ := readFile_runUpdate (fun e he => (hu e he).1) hread hrun
  rcases hentries with rfl | hafter | rfl
  · exact ⟨ports, ⟨entries', hread', hports⟩, Or.inl (List.Sublist.refl ports)⟩
  · cases u with
    | register entry =>
        obtain rfl := Option.some.inj hafter
        refine ⟨ports ++ [p], ⟨_, hread', ?_⟩, Or.inr ⟨⟨entry, rfl⟩, rfl⟩⟩
        rw [List.map_append, List.map_append, hports, List.map_singleton, (hu entry rfl).2,
          List.map_singleton]
    | unregister entry =>
        have hsub := (pyRemove_sublist hafter).1.map entryPort
        rw [hports, List.sublist_map_iff] at hsub
        obtain ⟨ports', hports', heq⟩ := hsub
        exact ⟨ports', ⟨entries', hread', heq⟩, Or.inl hports'⟩
  · exact ⟨[], ⟨[], hread', rfl⟩, Or.inl (List.nil_sublist ports)⟩

/-! ## The threads -/

theorem running_of_call {t : NodeThread} {o : DispatchOp} {k : Except Exn o.Res → Dispatch Unit}
    (h : t.prog = .call o k) : t.running = true := by
  rw [NodeThread.running, h]

/-- A thread that goes on was given what it had been given before. -/
theorem given_step {t : NodeThread} {o : DispatchOp} (ho : o ≠ .findAvailablePort)
    (r : Except Exn o.Res) (rest : Dispatch Unit) : (t.step o r rest).given = t.given := by
  unfold NodeThread.given NodeThread.step
  cases t.log with
  | cons e log => rfl
  | nil =>
      cases o with
      | findAvailablePort => exact absurd rfl ho
      | _ => rfl

theorem log_step_ne {t : NodeThread} {o : DispatchOp} (ho : o ≠ .findAvailablePort)
    (r : Except Exn o.Res) (rest : Dispatch Unit) (p : ℤ) :
    (t.step o r rest).log ≠ [⟨.findAvailablePort, .ok p⟩] := by
  intro h
  obtain ⟨-, heq⟩ := List.append_eq_singleton_iff.mp h |>.resolve_right (by simp)
  simp only [List.cons.injEq, Sigma.mk.injEq, and_true] at heq
  exact ho heq.1

theorem given_of_log {t : NodeThread} {p : ℤ} (h : t.log = [⟨.findAvailablePort, .ok p⟩]) :
    t.given = some p := by
  rw [NodeThread.given, h]
  rfl
