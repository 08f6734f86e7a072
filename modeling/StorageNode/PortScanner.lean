/-
# Choosing ports (`PortScanner`, `NodeBootstrapper`)

How the node finds a free port for a transfer and its own command port, as programs over
the calls that leave the process: the probing bind, the router, the random generator, the
configuration file and the attribute `decentorage_port`.

* `ScanOp`, `Scan` : the operations, and the programs over them;
* `PortScanner.checkZmqBind`, `isPortInUse`, `findAvailablePort` : the scanner;
* `NodeBootstrapper.setupFirstRun`, `verifyPrimaryPort`, `StorageNode.initializePorts` : what a
  start of the node does with ports;
* `Tests` : what the tests of a scan have said of its candidate;
* `spec_findAvailablePort` : a port for a transfer lies between 50100 and 60000, and the tests
  have found it free;
* `spec_initializePorts` : the start assigns ports that were found free or read.
-/
import StorageNode.NodeOps
import StorageNode.ProgLog

/-- The operations. -/
inductive ScanOp
  /-- `sock.bind(f"tcp://127.0.0.1:{port_number}")`; the socket is closed at once -/
  | probeBind (port : ℤ)
  /-- `RouterPortManager.is_port_open` -/
  | isPortOpen (port : ℤ)
  /-- `RouterPortManager.forward_port(port, port, disable=False, ...)` -/
  | forwardPort (port : ℤ)
  /-- `random.randint(lo, hi)` -/
  | randint (lo hi : ℤ)
  /-- `RouterPortManager.get_my_ip` -/
  | getMyIp
  /-- `config.decentorage_port` -/
  | decentoragePort
  /-- `config.decentorage_port = port` -/
  | setDecentoragePort (port : ℤ)
  /-- `config_path.exists()` -/
  | configExists
  /-- `write_config`; a `local_ip` that is `None` is a `TypeError` -/
  | writeConfig (localIp : Option String) (port : ℤ)
  /-- the port that `read_config` finds -/
  | readConfig

/-- What an operation answers with. -/
@[reducible] def ScanOp.Res : ScanOp → Type
  | .isPortOpen _ => Bool
  | .forwardPort _ => Bool
  | .randint _ _ => ℤ
  | .getMyIp => Option String
  | .decentoragePort => ℤ
  | .configExists => Bool
  | .readConfig => ℤ
  | _ => Unit

/-- Programs that choose ports. -/
abbrev Scan (α : Type) : Type := Prog ScanOp ScanOp.Res Exn α

/-- Call an operation. -/
abbrev scanOp (o : ScanOp) : Scan o.Res := Prog.perform o

/-- The router is asked: the node is neither local nor hosted, and has one. -/
def Config.asksRouter (cfg : Config) : Bool := !cfg.isLocal && !cfg.hosted && cfg.router

namespace PortScanner

/-- `check_zmq_bind`: whether the port is occupied. -/
def checkZmqBind (portNumber : ℤ) : Scan Bool :=
  (do
    scanOp (.probeBind portNumber)
    pure false).tryExcept fun e => if e = Exn.zmqError then pure true else Prog.raise e

/-- `is_port_in_use`.  The router is asked even when the bind has failed. -/
def isPortInUse (cfg : Config) (portNumber : ℤ) : Scan Bool := do
  let zmqOccupied ← checkZmqBind portNumber
  if cfg.asksRouter then
    let routerOccupied ← scanOp (.isPortOpen portNumber)
    pure (zmqOccupied || routerOccupied)
  else pure zmqOccupied

/-- The `while True` of `find_available_port`. -/
def scanLoop (cfg : Config) (isPrimary : Bool) : ℕ → ℤ → Scan ℤ
  | 0, _ => .hang
  | fuel + 1, candidate =>
      if isPrimary then do
        let inUse ← isPortInUse cfg candidate
        if inUse then scanLoop cfg isPrimary fuel (candidate + 1)
        else do
          -- the primary port is stored by the search itself
          scanOp (.setDecentoragePort candidate)
          pure candidate
      else do
        -- the candidate of the round before is not used
        let candidate ← scanOp (.randint 50100 60000)
        let inUse ← isPortInUse cfg candidate
        if inUse then scanLoop cfg isPrimary fuel candidate else pure candidate

/-- `find_available_port`. -/
def findAvailablePort (cfg : Config) (startingPort : ℤ) (isPrimary : Bool) (fuel : ℕ) :
    Scan ℤ := do
  let candidate ← scanLoop cfg isPrimary fuel startingPort
  (if cfg.asksRouter then do
    -- whether the router has opened the port is not looked at
    let _ ← scanOp (.forwardPort candidate)
    pure ()
  else pure ())
  pure candidate

end PortScanner

namespace NodeBootstrapper

/-- The configuration that `setup_first_run` writes when there is none. -/
def setupFirstRun (cfg : Config) (startingPort : ℤ) (fuel : ℕ) : Scan Unit := do
  let found ← scanOp .configExists
  if found then pure ()
  else do
    let localIp ← if cfg.router then scanOp .getMyIp else pure (some "127.0.0.1")
    -- the search has stored the port already
    let port ← PortScanner.findAvailablePort cfg startingPort true fuel
    scanOp (.setDecentoragePort port)
    scanOp (.writeConfig localIp port)

/-- `verify_primary_port`. -/
def verifyPrimaryPort (cfg : Config) (startingPort : ℤ) (fuel : ℕ) : Scan Unit := do
  let port ← scanOp .decentoragePort
  let occupied ← PortScanner.checkZmqBind port
  -- another port is searched for, and the search forwards it
  if occupied then do
    let _ ← PortScanner.findAvailablePort cfg startingPort true fuel
    pure ()
  else if cfg.asksRouter then do
    let _ ← scanOp (.forwardPort port)
    pure ()
  else pure ()

end NodeBootstrapper

namespace StorageNode

/-- `initialize` up to the recovery of the recorded transfers, as far as it touches ports. -/
def initializePorts (cfg : Config) (startingPort : ℤ) (fuel : ℕ) : Scan Unit := do
  NodeBootstrapper.setupFirstRun cfg startingPort fuel
  let port ← scanOp .readConfig
  scanOp (.setDecentoragePort port)
  NodeBootstrapper.verifyPrimaryPort cfg startingPort fuel

end StorageNode

/-! ## The ports a scan can find -/

/-- The generator answers within the range it is given; nothing is known of the rest. -/
def ScanOp.possible : (o : ScanOp) → Except Exn o.Res → Bool
  | .randint lo hi, .ok n => decide (lo ≤ n ∧ n ≤ hi)
  | .randint _ _, .error _ => false
  | _, _ => true

/-- A port for a transfer. -/
def TransferPort (p : ℤ) : Prop := 50100 ≤ p ∧ p ≤ 60000

/-! ## What the tests of a scan say -/

/-- What the tests have said of the last candidate: its bind succeeded, and it is free. -/
structure Tests where
  bindable : Option ℤ := none
  free : Option ℤ := none
  deriving DecidableEq

/-- **The port that an answer finds free**: its bind succeeds and, where the router is asked,
the router does not have it open either. -/
def Tests.finds (cfg : Config) (g : Tests) : (o : ScanOp) → Except Exn o.Res → Option ℤ
  | .probeBind p, .ok _ => if cfg.asksRouter then none else some p
  | .isPortOpen p, .ok false => if g.bindable = some p then some p else none
  | _, _ => none

/-- The tests after an answer. -/
def Tests.after (cfg : Config) (g : Tests) : (o : ScanOp) → Except Exn o.Res → Tests
  | .probeBind p, .ok a => { bindable := some p, free := g.finds cfg (.probeBind p) (.ok a) }
  | .isPortOpen p, .ok open? =>
      { bindable := g.bindable, free := g.finds cfg (.isPortOpen p) (.ok open?) }
  | .probeBind _, .error _ => {}
  | .isPortOpen _, .error _ => {}
  | .randint _ _, _ => {}
  | _, _ => g

/-- What is free was free before, or has just been found. -/
theorem Tests.free_after {cfg : Config} {g : Tests} {o : ScanOp} {r : Except Exn o.Res} {p : ℤ}
    (h : (g.after cfg o r).free = some p) : g.free = some p ∨ g.finds cfg o r = some p := by
  cases o with
  | probeBind q =>
      cases r with
      | ok a => exact Or.inr h
      | error e => exact absurd h (by simp [Tests.after])
  | isPortOpen q =>
      cases r with
      | ok a => exact Or.inr h
      | error e => exact absurd h (by simp [Tests.after])
  | randint lo hi => exact absurd h (by simp [Tests.after])
  | _ => exact Or.inl h

/-- The port that `read_config` answers with. -/
def ScanOp.reads : (o : ScanOp) → Except Exn o.Res → Option ℤ
  | .readConfig, .ok p => some p
  | _, _ => none

/-- `decentorage_port` after an operation. -/
def ScanOp.assigned (d : ℤ) : ScanOp → ℤ
  | .setDecentoragePort p => p
  | _ => d

namespace PortScanner

/-- **A scan and its tests**, with `decentorage_port`: the ports that the tests find and that
`read_config` answers with are in `Fresh`, and so is `decentorage_port`; otherwise an operation
may answer anything. -/
abbrev scanSetting (cfg : Config) (Fresh : ℤ → Prop) :
    Setting ScanOp ScanOp.Res Exn (Tests × ℤ) where
  exec o w r w' := o.possible r = true ∧ w' = (w.1.after cfg o r, o.assigned w.2) ∧
    (∀ p, w.1.finds cfg o r = some p → Fresh p) ∧ ∀ p, o.reads r = some p → Fresh p
  env _ _ := False
  guar _ _ := True
  inv w := Fresh w.2

section Specs

variable {cfg : Config} {Fresh : ℤ → Prop}

theorem settled_scan {A : Tests × ℤ → Prop} (hA : ∀ w, A w → Fresh w.2) :
    (scanSetting cfg Fresh).Settled A :=
  ⟨fun _ _ _ h => h.elim, hA⟩

/-- The specifications of this section hold wherever `decentorage_port` is in `Fresh`. -/
abbrev Sound (Fresh : ℤ → Prop) (w : Tests × ℤ) : Prop := Fresh w.2

/-- One operation. -/
theorem spec_scanOp {o : ScanOp} {A : Tests × ℤ → Prop} {B : o.Res → Tests × ℤ → Prop}
    (hA : ∀ w, A w → Fresh w.2) (hB : ∀ a w, B a w → Fresh w.2)
    (hassigned : ∀ w, A w → Fresh (o.assigned w.2))
    (h : ∀ w a, A w → o.possible (.ok a) = true →
      (∀ p, w.1.finds cfg o (.ok a) = some p → Fresh p) → (∀ p, o.reads (.ok a) = some p → Fresh p) →
      B a (w.1.after cfg o (.ok a), o.assigned w.2)) :
    (scanSetting cfg Fresh).Spec A (scanOp o) B (Sound Fresh) := by
  refine Setting.spec_perform (settled_scan hA) (fun a => settled_scan (hB a))
    (settled_scan fun _ h => h) ?_
  rintro w r w' hw ⟨hpossible, rfl, hfinds, hreads⟩
  refine ⟨trivial, ?_⟩
  cases r with
  | ok a => exact h w a hw hpossible hfinds hreads
  | error e => exact hassigned w hw

/-- An operation whose answer does not matter. -/
theorem spec_any {o : ScanOp} (ho : ∀ d, o.assigned d = d) :
    (scanSetting cfg Fresh).Spec (Sound Fresh) (scanOp o) (fun _ => Sound Fresh) (Sound Fresh) := by
  refine spec_scanOp (fun _ h => h) (fun _ _ h => h) ?_ fun w a hw _ _ _ => ?_
  · intro w hw
    rw [ho]
    exact hw
  · show Fresh (o.assigned w.2)
    rw [ho]
    exact hw

/-- **`check_zmq_bind`** finds a port unoccupied by a bind that succeeds. -/
theorem spec_checkZmqBind (portNumber : ℤ) :
    (scanSetting cfg Fresh).Spec (Sound Fresh) (checkZmqBind portNumber)
      (fun occupied w => Sound Fresh w ∧ (occupied = false → w.1.bindable = some portNumber ∧
        (cfg.asksRouter = false → w.1.free = some portNumber ∧ Fresh portNumber)))
      (Sound Fresh) := by
  refine Setting.spec_tryExcept (E := Sound Fresh) ?_ fun e => ?_
  · refine Setting.spec_bind (B := fun _ w => Sound Fresh w ∧ w.1.bindable = some portNumber ∧
      (cfg.asksRouter = false → w.1.free = some portNumber ∧ Fresh portNumber)) ?_ fun _ =>
      Setting.spec_ret (settled_scan fun _ h => h.1) fun _ h => ⟨h.1, fun _ => h.2⟩
    refine spec_scanOp (fun _ h => h) (fun _ _ h => h.1) (fun _ h => h) ?_
    intro w a hw _ hfinds _
    refine ⟨hw, rfl, fun hasks => ?_⟩
    have hfound : w.1.finds cfg (.probeBind portNumber) (.ok a) = some portNumber := by
      simp [Tests.finds, hasks]
    exact ⟨hfound, hfinds portNumber hfound⟩
  · split
    · exact Setting.spec_ret (settled_scan fun _ h => h) fun _ h =>
        ⟨h, fun hfalse => absurd hfalse (by decide)⟩
    · exact Setting.spec_raise (settled_scan fun _ h => h) fun _ h => h

/-- **`is_port_in_use`** answers `False` for a port that the tests have found free. -/
theorem spec_isPortInUse (portNumber : ℤ) :
    (scanSetting cfg Fresh).Spec (Sound Fresh) (isPortInUse cfg portNumber)
      (fun inUse w => Sound Fresh w ∧
        (inUse = false → w.1.free = some portNumber ∧ Fresh portNumber)) (Sound Fresh) := by
  refine Setting.spec_bind (spec_checkZmqBind portNumber) fun occupied => ?_
  split
  · refine Setting.spec_bind (B := fun open? w => Sound Fresh w ∧ (occupied = false →
      open? = false → w.1.free = some portNumber ∧ Fresh portNumber)) ?_ fun open? => ?_
    · refine spec_scanOp (fun _ h => h.1) (fun _ _ h => h.1) (fun _ h => h.1) ?_
      rintro w open? ⟨hw, hfree⟩ _ hfinds _
      refine ⟨hw, fun hoccupied hopen => ?_⟩
      subst hopen
      have hfound : w.1.finds cfg (.isPortOpen portNumber) (.ok false) = some portNumber := by
        simp [Tests.finds, (hfree hoccupied).1]
      exact ⟨hfound, hfinds portNumber hfound⟩
    · refine Setting.spec_ret (settled_scan fun _ h => h.1) fun w hw => ⟨hw.1, fun hor => ?_⟩
      rw [Bool.or_eq_false_iff] at hor
      exact hw.2 hor.1 hor.2
  · next hasks =>
      refine Setting.spec_ret (settled_scan fun _ h => h.1) fun w hw => ⟨hw.1, fun hoccupied => ?_⟩
      exact (hw.2 hoccupied).2 (by simpa using hasks)

/-- The loop of a scan for a transfer. -/
theorem spec_scanLoop (fuel : ℕ) (candidate : ℤ) :
    (scanSetting cfg Fresh).Spec (Sound Fresh) (scanLoop cfg false fuel candidate)
      (fun p w => Sound Fresh w ∧ TransferPort p ∧ w.1.free = some p) (Sound Fresh) := by
  induction fuel generalizing candidate with
  | zero => exact Setting.spec_hang (settled_scan fun _ h => h)
  | succ fuel ih =>
      refine Setting.spec_bind (B := fun p w => TransferPort p ∧ Sound Fresh w) ?_ fun p =>
        Setting.spec_pure fun hp => ?_
      · refine spec_scanOp (fun _ h => h) (fun _ _ h => h.2) (fun _ h => h) ?_
        exact fun w p hw hpossible _ _ =>
          ⟨of_decide_eq_true (p := 50100 ≤ p ∧ p ≤ 60000) hpossible, hw⟩
      · refine Setting.spec_bind (spec_isPortInUse p) fun inUse => ?_
        cases inUse with
        | true => exact Setting.spec_mono (fun _ h => h.1) (fun _ _ h => h) (fun _ h => h) (ih p)
        | false =>
            exact Setting.spec_ret (settled_scan fun _ h => h.1) fun w hw =>
              ⟨hw.1, hp, (hw.2 rfl).1⟩

/-- **A port for a transfer** lies in the range the candidates are drawn from, and the tests
have found it free. -/
theorem spec_findAvailablePort (startingPort : ℤ) (fuel : ℕ) :
    (scanSetting cfg Fresh).Spec (Sound Fresh) (findAvailablePort cfg startingPort false fuel)
      (fun p w => TransferPort p ∧ w.1.free = some p) (Sound Fresh) := by
  refine Setting.spec_bind (spec_scanLoop fuel startingPort) fun p => ?_
  have hsettled : (scanSetting cfg Fresh).Settled
      (fun w => Sound Fresh w ∧ TransferPort p ∧ w.1.free = some p) := settled_scan fun _ h => h.1
  refine Setting.spec_bind (B := fun _ w => Sound Fresh w ∧ TransferPort p ∧ w.1.free = some p) ?_
    fun _ => Setting.spec_ret hsettled fun _ h => h.2
  split
  · refine Setting.spec_bind (B := fun _ w => Sound Fresh w ∧ TransferPort p ∧
      w.1.free = some p) ?_ fun _ => Setting.spec_ret hsettled fun _ h => h
    exact spec_scanOp (fun _ h => h.1) (fun _ _ h => h.1) (fun _ h => h.1)
      fun w a hw _ _ _ => hw
  · exact Setting.spec_ret hsettled fun _ h => h

/-- The loop of the search for the command port stores a port that the tests found free. -/
theorem spec_scanLoop_primary (fuel : ℕ) (candidate : ℤ) :
    (scanSetting cfg Fresh).Spec (Sound Fresh) (scanLoop cfg true fuel candidate)
      (fun p w => Fresh p ∧ Sound Fresh w) (Sound Fresh) := by
  induction fuel generalizing candidate with
  | zero => exact Setting.spec_hang (settled_scan fun _ h => h)
  | succ fuel ih =>
      refine Setting.spec_bind (spec_isPortInUse candidate) fun inUse => ?_
      cases inUse with
      | true =>
          exact Setting.spec_mono (fun _ h => h.1) (fun _ _ h => h) (fun _ h => h)
            (ih (candidate + 1))
      | false =>
          refine Setting.spec_bind (B := fun _ w => Fresh candidate ∧ Sound Fresh w) ?_ fun _ =>
            Setting.spec_ret (settled_scan fun _ h => h.2) fun _ h => h
          exact spec_scanOp (fun _ h => h.1) (fun _ _ h => h.2) (fun _ h => (h.2 rfl).2)
            fun w a hw _ _ _ => ⟨(hw.2 rfl).2, (hw.2 rfl).2⟩

theorem spec_findAvailablePort_primary (startingPort : ℤ) (fuel : ℕ) :
    (scanSetting cfg Fresh).Spec (Sound Fresh) (findAvailablePort cfg startingPort true fuel)
      (fun p w => Fresh p ∧ Sound Fresh w) (Sound Fresh) := by
  refine Setting.spec_bind (spec_scanLoop_primary fuel startingPort) fun p =>
    Setting.spec_pure fun hp => ?_
  refine Setting.spec_bind (B := fun _ => Sound Fresh) ?_ fun _ =>
    Setting.spec_ret (settled_scan fun _ h => h) fun _ h => ⟨hp, h⟩
  split
  · exact Setting.spec_bind (spec_any fun _ => rfl) fun _ =>
      Setting.spec_ret (settled_scan fun _ h => h) fun _ h => h
  · exact Setting.spec_ret (settled_scan fun _ h => h) fun _ h => h

/-- An assignment of `decentorage_port`. -/
theorem spec_setDecentoragePort {p : ℤ} (hp : Fresh p) :
    (scanSetting cfg Fresh).Spec (Sound Fresh) (scanOp (.setDecentoragePort p))
      (fun _ => Sound Fresh) (Sound Fresh) :=
  spec_scanOp (fun _ h => h) (fun _ _ h => h) (fun _ _ => hp) fun _ _ _ _ _ _ => hp

theorem spec_setupFirstRun (startingPort : ℤ) (fuel : ℕ) :
    (scanSetting cfg Fresh).Spec (Sound Fresh) (NodeBootstrapper.setupFirstRun cfg startingPort fuel)
      (fun _ => Sound Fresh) (Sound Fresh) := by
  have hret : ∀ {α : Type} (a : α), (scanSetting cfg Fresh).Spec (Sound Fresh) (.ret a)
      (fun _ => Sound Fresh) (Sound Fresh) :=
    fun a => Setting.spec_ret (settled_scan fun _ h => h) fun _ h => h
  -- the search and what becomes of its port
  have hsearch : ∀ localIp, (scanSetting cfg Fresh).Spec (Sound Fresh)
      (do
        let port ← findAvailablePort cfg startingPort true fuel
        scanOp (.setDecentoragePort port)
        scanOp (.writeConfig localIp port))
      (fun _ => Sound Fresh) (Sound Fresh) := by
    intro localIp
    refine Setting.spec_bind (spec_findAvailablePort_primary startingPort fuel) fun p =>
      Setting.spec_pure fun hp => ?_
    exact Setting.spec_bind (spec_setDecentoragePort hp) fun _ => spec_any fun _ => rfl
  refine Setting.spec_bind (spec_any fun _ => rfl) fun found => ?_
  split
  · exact hret ()
  · split
    · exact Setting.spec_bind (spec_any fun _ => rfl) hsearch
    · exact Setting.spec_bind (hret _) hsearch

theorem spec_verifyPrimaryPort (startingPort : ℤ) (fuel : ℕ) :
    (scanSetting cfg Fresh).Spec (Sound Fresh)
      (NodeBootstrapper.verifyPrimaryPort cfg startingPort fuel)
      (fun _ => Sound Fresh) (Sound Fresh) := by
  refine Setting.spec_bind (spec_any fun _ => rfl) fun port => ?_
  refine Setting.spec_bind (spec_checkZmqBind port) fun occupied => ?_
  refine Setting.spec_mono (fun _ h => h.1) (fun _ _ h => h) (fun _ h => h) ?_
  split
  · exact Setting.spec_bind (spec_findAvailablePort_primary startingPort fuel) fun _ =>
      Setting.spec_ret (settled_scan fun _ h => h.2) fun _ h => h.2
  · split
    · exact Setting.spec_bind (spec_any fun _ => rfl) fun _ =>
        Setting.spec_ret (settled_scan fun _ h => h) fun _ h => h
    · exact Setting.spec_ret (settled_scan fun _ h => h) fun _ h => h

/-- **The start** assigns only ports that the tests found free or that `read_config` read. -/
theorem spec_initializePorts (startingPort : ℤ) (fuel : ℕ) :
    (scanSetting cfg Fresh).Spec (Sound Fresh) (StorageNode.initializePorts cfg startingPort fuel)
      (fun _ => Sound Fresh) (Sound Fresh) := by
  refine Setting.spec_bind (spec_setupFirstRun startingPort fuel) fun _ => ?_
  refine Setting.spec_bind (B := fun p w => Fresh p ∧ Sound Fresh w) ?_ fun p =>
    Setting.spec_pure fun hp => ?_
  · exact spec_scanOp (fun _ h => h) (fun _ _ h => h.2) (fun _ h => h)
      fun w p hw _ _ hreads => ⟨hreads p rfl, hw⟩
  · exact Setting.spec_bind (spec_setDecentoragePort hp) fun _ =>
      spec_verifyPrimaryPort startingPort fuel

end Specs

end PortScanner
