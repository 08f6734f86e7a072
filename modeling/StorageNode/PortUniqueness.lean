/-
# No port twice

The invariant behind `PortState.PortsDistinct`: the ports in the ledger, the ports of the
transfers that are not registered yet, and the command port are pairwise distinct.

* `ScanOk` : a scan for a transfer asks the outside only, and ends with a port in its range
  that its tests have found free;
* `PortState.Vacant` : what a scan has found free stays so until it ends;
* `PortInv`, `PortInv.next` : the invariant, kept by every event whose tests are sound;
* `ports_distinct_when_tests_sound`, `same_port_twice` : the property, and a run that lacks it.
-/
import StorageNode.PortAllocation

open RequestDispatcher ConnectionLedger

/-! ## Scans of transfers -/

/-- An operation that changes nothing in the node. -/
def ScanOp.external : ScanOp → Prop
  | .probeBind _ => True
  | .isPortOpen _ => True
  | .forwardPort _ => True
  | .randint _ _ => True
  | .getMyIp => True
  | _ => False

namespace PortScanner

theorem only_checkZmqBind (p : ℤ) : (checkZmqBind p).Only ScanOp.external := by
  apply Prog.only_tryExcept
  · exact Prog.only_bind (Prog.only_perform trivial) fun _ => trivial
  · intro e
    split <;> trivial

theorem only_isPortInUse (cfg : Config) (p : ℤ) : (isPortInUse cfg p).Only ScanOp.external := by
  refine Prog.only_bind (only_checkZmqBind p) fun zmqOccupied => ?_
  split
  · exact Prog.only_bind (Prog.only_perform trivial) fun _ => trivial
  · trivial

theorem only_scanLoop (cfg : Config) (fuel : ℕ) (candidate : ℤ) :
    (scanLoop cfg false fuel candidate).Only ScanOp.external := by
  induction fuel generalizing candidate with
  | zero => trivial
  | succ fuel ih =>
      refine Prog.only_bind (Prog.only_perform trivial) fun p => ?_
      refine Prog.only_bind (only_isPortInUse cfg p) fun inUse => ?_
      split
      · exact ih p
      · trivial

theorem only_findAvailablePort (cfg : Config) (startingPort : ℤ) (fuel : ℕ) :
    (findAvailablePort cfg startingPort false fuel).Only ScanOp.external := by
  refine Prog.only_bind (only_scanLoop cfg fuel startingPort) fun p => ?_
  refine Prog.only_bind ?_ fun _ => trivial
  split
  · exact Prog.only_bind (Prog.only_perform trivial) fun _ => trivial
  · trivial

end PortScanner

/-- **A scan for a transfer**: it changes nothing, and what it ends with is a port for one that
the tests have found free. -/
structure ScanOk (cfg : Config) (g : Tests) (scan : Scan ℤ) : Prop where
  only : scan.Only ScanOp.external
  found : (PortScanner.scanSetting cfg fun _ => True).wp scan
    (Setting.post (fun p w => TransferPort p ∧ w.1.free = some p) fun _ => True) (g, 0)

theorem scanOk_start (cfg : Config) (startingPort : ℤ) (fuel : ℕ) :
    ScanOk cfg {} (PortScanner.findAvailablePort cfg startingPort false fuel) := by
  refine ⟨PortScanner.only_findAvailablePort cfg startingPort fuel, ?_⟩
  exact Setting.spec_mono (fun _ h => h) (fun _ _ h => h) (fun _ _ => trivial)
    (PortScanner.spec_findAvailablePort startingPort fuel) _ trivial

theorem PortState.exec_external {s s' : PortState} {answer : ScanAnswer} {o : ScanOp}
    {r : Except Exn o.Res} (ho : o.external) (h : s.exec answer o = some (r, s')) :
    s' = s ∧ r = answer o ∧ o.possible r = true := by
  have hplain : (if o.possible (answer o) then some (answer o, s) else none) = some (r, s') →
      s' = s ∧ r = answer o ∧ o.possible r = true := by
    intro hif
    simp only [Option.ite_none_right_eq_some, Option.some.injEq, Prod.mk.injEq] at hif
    obtain ⟨hpossible, rfl, rfl⟩ := hif
    exact ⟨rfl, rfl, hpossible⟩
  cases o with
  | probeBind p => exact hplain h
  | isPortOpen p => exact hplain h
  | forwardPort p => exact hplain h
  | randint lo hi => exact hplain h
  | getMyIp => exact hplain h
  | _ => exact ho.elim

theorem ScanOp.assigned_external {o : ScanOp} (ho : o.external) (d : ℤ) : o.assigned d = d := by
  cases o <;> first | rfl | exact ho.elim

theorem ScanOk.step {cfg : Config} {g : Tests} {s s' : PortState} {answer : ScanAnswer} {o : ScanOp}
    {k : Except Exn o.Res → Scan ℤ} {r : Except Exn o.Res} (hk : ScanOk cfg g (.call o k))
    (h : s.exec answer o = some (r, s')) :
    s' = s ∧ r = answer o ∧ ScanOk cfg (g.after cfg o r) (k r) := by
  obtain ⟨⟨ho, honly⟩, hfound⟩ := hk
  obtain ⟨hs, hr, hpossible⟩ := PortState.exec_external ho h
  refine ⟨hs, hr, honly r, ?_⟩
  have hexec : (PortScanner.scanSetting cfg fun _ => True).exec o (g, 0) r (g.after cfg o r, 0) :=
    ⟨hpossible, by rw [ScanOp.assigned_external ho], fun _ _ => trivial, fun _ _ => trivial⟩
  exact (Setting.wp_call hfound hexec).2

/-- What a scan ends with. -/
theorem ScanOk.ends {cfg : Config} {g : Tests} {p : ℤ} (h : ScanOk cfg g (.ret p)) :
    TransferPort p ∧ g.free = some p :=
  (h.found _ .refl).2

/-- **Nobody else has the port**: the ledger does not record it, it is not the command port, no
other running transfer was given it, and no other scan has found it free. -/
structure PortState.Vacant (s : PortState) (i : ℕ) (p : ℤ) : Prop where
  unrecorded : recorded s.node.ledger p = false
  command : p ≠ s.decentoragePort
  held : ∀ (j : ℕ) tj, j ≠ i → s.node.threads[j]? = some tj → tj.running = true →
    tj.given ≠ some p
  found : ∀ j, j ≠ i → (s.tests j).free ≠ some p

/-- What a list with one element replaced holds. -/
theorem getElem?_set_cases {α : Type} {l : List α} {i j : ℕ} {a b c : α} (hi : l[i]? = some a)
    (hj : (l.set i b)[j]? = some c) : (j = i ∧ c = b) ∨ (j ≠ i ∧ l[j]? = some c) := by
  by_cases hji : j = i
  · subst hji
    rw [List.getElem?_set_self (List.getElem?_eq_some_iff.mp hi).1, Option.some.injEq] at hj
    exact Or.inl ⟨rfl, hj.symm⟩
  · rw [List.getElem?_set_ne (Ne.symm hji)] at hj
    exact Or.inr ⟨hji, hj⟩

/-- **A thread goes on**: `t'` takes the place of `t`.  What it was given is held by no other
thread and no scan, and what the ledger records now is not waiting to be registered. -/
structure PortState.GoesOn (s s' : PortState) (i : ℕ) (t t' : NodeThread) : Prop where
  before : s.node.threads[i]? = some t
  threads : s'.node.threads = s.node.threads.set i t'
  up : s'.node.up = s.node.up
  pending : s'.node.pending = s.node.pending
  port : s'.decentoragePort = s.decentoragePort
  startup : s'.startup = s.startup
  scans : ∀ j scan, s'.scans j = some scan →
    j ≠ i ∧ s.scans j = some scan ∧ s'.tests j = s.tests j
  free : ∀ j p, (s'.tests j).free = some p → j ≠ i ∧ (s.tests j).free = some p
  ledger : ∃ ports, LedgerPorts s'.node.ledger ports ∧ ports.Nodup ∧
    ∀ p ∈ ports, TransferPort p ∧ p ≠ s.decentoragePort ∧
      t'.log ≠ [⟨.findAvailablePort, .ok p⟩] ∧
      (∀ j tj, j ≠ i → s.node.threads[j]? = some tj → tj.log ≠ [⟨.findAvailablePort, .ok p⟩]) ∧
      (recorded s.node.ledger p = true ∨ t.running = true ∧ t.given = some p)
  given : ∀ p, t'.running = true → t'.given = some p →
    TransferPort p ∧ p ≠ s.decentoragePort ∧
      (∀ j tj, j ≠ i → s.node.threads[j]? = some tj → tj.running = true → tj.given ≠ some p) ∧
      ∀ j, j ≠ i → (s.tests j).free ≠ some p

namespace PortState.GoesOn

variable {s s' : PortState} {i : ℕ} {t t' : NodeThread}

theorem get (hs : s.GoesOn s' i t t') {j : ℕ} {t₁ : NodeThread}
    (hj : s'.node.threads[j]? = some t₁) :
    (j = i ∧ t₁ = t') ∨ (j ≠ i ∧ s.node.threads[j]? = some t₁) := by
  rw [hs.threads] at hj
  exact getElem?_set_cases hs.before hj

theorem mem (hs : s.GoesOn s' i t t') {t₁ : NodeThread} (h₁ : t₁ ∈ s'.node.threads) :
    t₁ = t' ∨ ∃ j, j ≠ i ∧ s.node.threads[j]? = some t₁ := by
  obtain ⟨j, hj⟩ := List.mem_iff_getElem?.mp h₁
  rcases hs.get hj with ⟨-, heq⟩ | hj
  · exact Or.inl heq
  · exact Or.inr ⟨j, hj⟩

/-- The other threads look for a port as before. -/
theorem seeks (hs : s.GoesOn s' i t t') {j : ℕ} (hji : j ≠ i) : s'.seeks j = s.seeks j := by
  rw [PortState.seeks, hs.threads, List.getElem?_set_ne (Ne.symm hji)]
  rfl

/-- No two transfers were told the same port. -/
theorem distinct (hs : s.GoesOn s' i t t') (h : s.TransfersDistinct) : s'.TransfersDistinct := by
  intro j₁ j₂ t₁ t₂ p hne h₁ h₂ hrun₁ hrun₂ hp₁ hp₂
  rcases hs.get h₁ with ⟨rfl, rfl⟩ | ⟨hji₁, h₁⟩
  · rcases hs.get h₂ with ⟨rfl, -⟩ | ⟨hji₂, h₂⟩
    · exact hne rfl
    · exact (hs.given p hrun₁ hp₁).2.2.1 j₂ t₂ hji₂ h₂ hrun₂ hp₂
  · rcases hs.get h₂ with ⟨rfl, rfl⟩ | ⟨-, h₂⟩
    · exact (hs.given p hrun₂ hp₂).2.2.1 j₁ t₁ hji₁ h₁ hrun₁ hp₁
    · exact h j₁ j₂ t₁ t₂ p hne h₁ h₂ hrun₁ hrun₂ hp₁ hp₂

/-- **What another scan has found free** stays so. -/
theorem vacant (hs : s.GoesOn s' i t t') {j : ℕ} {p : ℤ} (hji : j ≠ i)
    (hp : (s'.tests j).free = some p) (h : s.Vacant j p) : s'.Vacant j p := by
  refine ⟨?_, ?_, fun k tk hkj hk hrun hgiven => ?_, fun k hkj hfree => ?_⟩
  · -- what is recorded now was recorded before, or had been given to the thread
    obtain ⟨ports, hports, -, hall⟩ := hs.ledger
    cases hnew : recorded s'.node.ledger p with
    | false => rfl
    | true =>
        rcases (hall p ((recorded_iff hports p).mp hnew)).2.2.2.2 with hold | ⟨hrun, hgiven⟩
        · rw [h.unrecorded] at hold
          exact absurd hold Bool.false_ne_true
        · exact absurd hgiven (h.held i t (Ne.symm hji) hs.before hrun)
  · rw [hs.port]
    exact h.command
  · rcases hs.get hk with ⟨rfl, rfl⟩ | ⟨-, hk⟩
    · exact (hs.given p hrun hgiven).2.2.2 j hji (hs.free j p hp).2
    · exact h.held k tk hkj hk hrun hgiven
  · exact h.found k hkj (hs.free k p hfree).2

end PortState.GoesOn

/-! ## The invariant -/

/-- What is left of the start assigns no port that the ledger records. -/
def Starting (cfg : Config) (s : PortState) (prog : Scan Unit) : Prop :=
  (PortScanner.scanSetting cfg fun p => recorded s.node.ledger p = false).wp prog
    (fun _ _ => True) (s.startTests, s.decentoragePort)

/-- **No port is there twice**, in the ledger, among the transfers that run and as the
command port. -/
structure PortInv (cfg : Config) (hexdigest : Bytes → String) (s : PortState) : Prop where
  ledger : ∃ ports, LedgerPorts s.node.ledger ports ∧ ports.Nodup ∧
    ∀ p ∈ ports, TransferPort p ∧ p ≠ s.decentoragePort ∧
      ∀ t ∈ s.node.threads, t.log ≠ [⟨.findAvailablePort, .ok p⟩]
  given : ∀ t ∈ s.node.threads, ∀ p, t.running = true → t.given = some p →
    TransferPort p ∧ p ≠ s.decentoragePort
  distinct : s.TransfersDistinct
  runs : ∀ t ∈ s.node.threads, ∃ fuel,
    (dispatch cfg hexdigest fuel t.request !t.recovered).Runs t.log t.prog
  requests : ∀ t ∈ s.node.threads, (Json.obj t.request).WF
  pending : ∀ v ∈ s.node.pending, v.WF
  off : s.node.up = false → s.node.threads = [] ∧ s.node.pending = []
  starting : ∀ prog, s.startup = some prog → s.node.up = false ∧ Starting cfg s prog
  scans : ∀ i scan, s.scans i = some scan → s.seeks i = true ∧ ScanOk cfg (s.tests i) scan
  free : ∀ i p, (s.tests i).free = some p → s.seeks i = true ∧ s.Vacant i p

namespace PortInv

variable {cfg : Config} {hexdigest : Bytes → String} {startingPort : ℤ} {s s' : PortState}

/-- The property, from the invariant. -/
theorem portsDistinct (h : PortInv cfg hexdigest s) : s.PortsDistinct := by
  obtain ⟨ports, ⟨entries, hread, hports⟩, hnodup, hp⟩ := h.ledger
  refine ⟨entries, ports, nextRead_eq_iff.mpr hread, hports, ?_⟩
  rw [List.nodup_cons]
  exact ⟨fun hmem => (hp _ hmem).2.1 rfl, hnodup⟩

/-- A new installation. -/
theorem fresh : PortInv cfg hexdigest PortState.fresh where
  ledger := ⟨[], ⟨[], rfl, rfl⟩, List.nodup_nil, fun p hp => absurd hp List.not_mem_nil⟩
  given t ht := absurd ht List.not_mem_nil
  distinct i j ti tj p _ hi := by simp [PortState.fresh] at hi
  runs t ht := absurd ht List.not_mem_nil
  requests t ht := absurd ht List.not_mem_nil
  pending v hv := absurd hv List.not_mem_nil
  off _ := ⟨rfl, rfl⟩
  starting prog h := by simp [PortState.fresh] at h
  scans i scan h := by simp [PortState.fresh] at h
  free i p h := by simp [PortState.fresh] at h

/-- A thread that looks for a port is there. -/
theorem exists_of_seeks {i : ℕ} (h : s.seeks i = true) : ∃ t, s.node.threads[i]? = some t := by
  unfold PortState.seeks at h
  cases ht : s.node.threads[i]? with
  | none => simp [ht] at h
  | some t => exact ⟨t, rfl⟩

/-- Without threads nothing is scanned. -/
theorem idle (h : PortInv cfg hexdigest s) (hnil : s.node.threads = []) (i : ℕ) :
    s.scans i = none ∧ (s.tests i).free = none := by
  have hnot : s.seeks i ≠ true := by
    intro hseeks
    obtain ⟨t, ht⟩ := exists_of_seeks hseeks
    rw [hnil] at ht
    exact absurd ht (by simp)
  constructor
  · cases hs : s.scans i with
    | none => rfl
    | some scan => exact absurd (h.scans i scan hs).1 hnot
  · cases hf : (s.tests i).free with
    | none => rfl
    | some p => exact absurd (h.free i p hf).1 hnot

/-- A port that is not taken is vacant. -/
theorem vacant_of_taken (h : PortInv cfg hexdigest s) {i : ℕ} {p : ℤ}
    (hp : s.taken i p = false) : s.Vacant i p := by
  simp only [PortState.taken, Bool.or_eq_false_iff, beq_eq_false_iff_ne, ne_eq] at hp
  obtain ⟨⟨⟨hrecorded, hcommand⟩, hheld⟩, hfound⟩ := hp
  refine ⟨hrecorded, hcommand, fun j tj hji hj hrun hgiven => ?_, fun j hji hfree => ?_⟩
  · have hmem : (tj, j) ∈ s.node.threads.zipIdx := List.mk_mem_zipIdx_iff_getElem?.mpr hj
    have hnot := List.any_eq_false.mp hheld _ hmem
    simp [hji, hrun, hgiven] at hnot
  · obtain ⟨tj, hj⟩ := exists_of_seeks (h.free j p hfree).1
    have hmem : j ∈ List.range s.node.threads.length :=
      List.mem_range.mpr (List.getElem?_eq_some_iff.mp hj).1
    have hnot := List.any_eq_false.mp hfound j hmem
    simp [hji, hfree] at hnot

/-- **A thread goes on.** -/
theorem set (h : PortInv cfg hexdigest s) {i : ℕ} {t t' : NodeThread} (hs : s.GoesOn s' i t t')
    (hrequest : t'.request = t.request) (hruns : ∃ fuel,
      (dispatch cfg hexdigest fuel t'.request !t'.recovered).Runs t'.log t'.prog) :
    PortInv cfg hexdigest s' := by
  have hmem : t ∈ s.node.threads := List.mem_of_getElem? hs.before
  refine ⟨?_, ?_, hs.distinct h.distinct, ?_, ?_, ?_, ?_, ?_, ?_, ?_⟩
  · obtain ⟨ports, hports, hnodup, hp⟩ := hs.ledger
    refine ⟨ports, hports, hnodup, fun p hin => ?_⟩
    obtain ⟨hrange, hne, hlog, hother, -⟩ := hp p hin
    refine ⟨hrange, by rw [hs.port]; exact hne, fun t₁ h₁ => ?_⟩
    rcases hs.mem h₁ with rfl | ⟨j, hji, hj⟩
    · exact hlog
    · exact hother j t₁ hji hj
  · intro t₁ h₁ p hrun hp
    rw [hs.port]
    rcases hs.mem h₁ with rfl | ⟨j, -, hj⟩
    · exact ⟨(hs.given p hrun hp).1, (hs.given p hrun hp).2.1⟩
    · exact h.given t₁ (List.mem_of_getElem? hj) p hrun hp
  · intro t₁ h₁
    rcases hs.mem h₁ with rfl | ⟨j, -, hj⟩
    · exact hruns
    · exact h.runs t₁ (List.mem_of_getElem? hj)
  · intro t₁ h₁
    rcases hs.mem h₁ with rfl | ⟨j, -, hj⟩
    · rw [hrequest]
      exact h.requests t hmem
    · exact h.requests t₁ (List.mem_of_getElem? hj)
  · rw [hs.pending]
    exact h.pending
  · intro hoff
    rw [hs.up] at hoff
    rw [(h.off hoff).1] at hmem
    exact absurd hmem List.not_mem_nil
  · intro prog hprog
    rw [hs.startup] at hprog
    rw [(h.off (h.starting prog hprog).1).1] at hmem
    exact absurd hmem List.not_mem_nil
  · intro j scan hscan
    obtain ⟨hji, hscan, htests⟩ := hs.scans j scan hscan
    rw [hs.seeks hji, htests]
    exact h.scans j scan hscan
  · intro j p hp
    obtain ⟨hji, hfree⟩ := hs.free j p hp
    obtain ⟨hj, hvacant⟩ := h.free j p hfree
    exact ⟨(hs.seeks hji).trans hj, hs.vacant hji hp hvacant⟩

/-- Where a thread that goes on stands. -/
theorem stage (h : PortInv cfg hexdigest s) {t : NodeThread} (ht : t ∈ s.node.threads)
    {o : DispatchOp} {k : Except Exn o.Res → Dispatch Unit} (hp : t.prog = .call o k) :
    (o = .findAvailablePort ∧ t.log = []) ∨
      (∃ p, t.log = [⟨.findAvailablePort, .ok p⟩] ∧
        o = .node (.ledgerRegister (Dict.set "port" (.int p) t.request))) ∨
      allocatesNothing o := by
  obtain ⟨fuel, hruns⟩ := h.runs t ht
  rw [hp] at hruns
  rcases dispatch_stage hruns with ⟨hlog, k', hk⟩ | ⟨p, k', hlog, hk⟩ | ⟨honly, -⟩
  · injection hk with ho
    exact Or.inl ⟨ho, hlog⟩
  · injection hk with ho
    exact Or.inr (Or.inl ⟨p, hlog, ho⟩)
  · exact Or.inr (Or.inr honly.1)

/-- What a thread that is not looking for a port does to the ledger. -/
theorem ledger_step (h : PortInv cfg hexdigest s) {t : NodeThread} (ht : t ∈ s.node.threads)
    {o : DispatchOp} {k : Except Exn o.Res → Dispatch Unit} (hp : t.prog = .call o k)
    {c : NodeChoice} {r : Except Exn o.Res} {s₁ : NodeState}
    (hperform : s.node.perform c o = some (r, s₁)) {ports : List ℤ}
    (hports : LedgerPorts s.node.ledger ports) :
    ∃ ports', LedgerPorts s₁.ledger ports' ∧ (ports'.Sublist ports ∨
      ∃ p, t.log = [⟨.findAvailablePort, .ok p⟩] ∧ ports' = ports ++ [p]) := by
  rcases NodeState.perform_cases hperform with
    ⟨entry, b, w, rfl, -, hrun, rfl⟩ | ⟨entry, b, w, rfl, -, hrun, rfl⟩ | ⟨-, -, -, rfl⟩
  · rcases h.stage ht hp with ⟨ho, -⟩ | ⟨p, hlog, ho⟩ | hnothing
    · exact absurd ho (by simp)
    · -- the thread registers what its scan has found
      simp only [DispatchOp.node.injEq, NodeOp.ledgerRegister.injEq] at ho
      have hwf : (Json.obj entry).WF := by
        rw [ho]
        exact set_wf (PyStr.joined_ofString _) trivial (h.requests t ht)
      have hentry : entryPort (.obj entry) = some (.int p) := by
        rw [ho]
        exact entryPort_set t.request p
      obtain ⟨ports', hports', hcases⟩ := hports.runUpdate (p := p)
        (fun e he => by cases he; exact ⟨hwf, hentry⟩) hrun
      refine ⟨ports', hports', ?_⟩
      rcases hcases with hsub | ⟨-, heq⟩
      · exact Or.inl hsub
      · exact Or.inr ⟨p, hlog, heq⟩
    · exact hnothing.elim
  · obtain ⟨ports', hports', hcases⟩ := hports.runUpdate (p := 0)
      (fun e he => by simp at he) hrun
    refine ⟨ports', hports', ?_⟩
    rcases hcases with hsub | ⟨⟨e, he⟩, -⟩
    · exact Or.inl hsub
    · exact absurd he (by simp)
  · exact ⟨ports, hports, Or.inl (List.Sublist.refl ports)⟩

/-- **A step of a thread** that is not looking for a port. -/
theorem thread (h : PortInv cfg hexdigest s) {i : ℕ} {c : NodeChoice} {node' : NodeState}
    (hseeks : s.seeks i = false) (hnext : s.node.next cfg hexdigest (.thread i c) = some node') :
    PortInv cfg hexdigest { s with node := node' } := by
  obtain ⟨t, o, k, r, s₁, ht, hp, hperform, rfl⟩ := NodeState.next_thread hnext
  have hmem : t ∈ s.node.threads := List.mem_of_getElem? ht
  have hrunning : t.running = true := running_of_call hp
  have ho : o ≠ .findAvailablePort := by
    rintro rfl
    rw [PortState.seeks, ht, Option.any_some, NodeThread.seeks, hp] at hseeks
    exact absurd hseeks (by simp)
  obtain ⟨hup, hpending, -, -⟩ := NodeState.perform_frame hperform
  obtain ⟨ports, hports, hnodup, hall⟩ := h.ledger
  obtain ⟨ports', hports', hcases⟩ := h.ledger_step hmem hp hperform hports
  have hruns : ∃ fuel, (dispatch cfg hexdigest fuel t.request !t.recovered).Runs
      (t.log ++ [⟨o, r⟩]) (k r) := by
    obtain ⟨fuel, hruns⟩ := h.runs t hmem
    rw [hp] at hruns
    exact ⟨fuel, hruns.snoc r⟩
  -- a thread that is not looking for a port has no scan
  have hother : ∀ j, s.seeks j = true → j ≠ i := by
    rintro j hj rfl
    rw [hseeks] at hj
    exact absurd hj Bool.false_ne_true
  refine h.set ⟨ht, rfl, hup, hpending, rfl, rfl,
    fun j scan hscan => ⟨hother j (h.scans j scan hscan).1, hscan, rfl⟩,
    fun j p hp => ⟨hother j (h.free j p hp).1, hp⟩, ?_, ?_⟩ rfl hruns
  · rcases hcases with hsub | ⟨p, hlog, rfl⟩
    · refine ⟨ports', hports', hnodup.sublist hsub, fun p hp' => ?_⟩
      obtain ⟨hrange, hne, hwaits⟩ := hall p (hsub.subset hp')
      exact ⟨hrange, hne, log_step_ne ho r (k r) p,
        fun j tj _ hj => hwaits tj (List.mem_of_getElem? hj),
        Or.inl ((recorded_iff hports p).mpr (hsub.subset hp'))⟩
    · have hgiven : t.given = some p := given_of_log hlog
      obtain ⟨hrange, hne⟩ := h.given t hmem p hrunning hgiven
      have hnew : p ∉ ports := fun hin => (hall p hin).2.2 t hmem hlog
      refine ⟨ports ++ [p], hports', ?_, fun q hq => ?_⟩
      · rw [List.nodup_append]
        refine ⟨hnodup, List.nodup_singleton p, ?_⟩
        intro a ha b hb hab
        rw [List.mem_singleton] at hb
        rw [hab, hb] at ha
        exact hnew ha
      · rcases List.mem_append.mp hq with hq | hq
        · obtain ⟨hrange', hne', hwaits⟩ := hall q hq
          exact ⟨hrange', hne', log_step_ne ho r (k r) q,
            fun j tj _ hj => hwaits tj (List.mem_of_getElem? hj),
            Or.inl ((recorded_iff hports q).mpr hq)⟩
        · rw [List.mem_singleton] at hq
          subst hq
          refine ⟨hrange, hne, log_step_ne ho r (k r) q, fun j tj hji hj hlogj => ?_,
            Or.inr ⟨hrunning, hgiven⟩⟩
          -- another thread about to register the port would have been given it as well
          have hmemj : tj ∈ s.node.threads := List.mem_of_getElem? hj
          obtain ⟨fuel, hrunsj⟩ := h.runs tj hmemj
          have hrunj : tj.running = true := by
            rcases dispatch_stage hrunsj with ⟨hnil, -⟩ | ⟨p', k', -, hk⟩ | ⟨-, hnot⟩
            · rw [hnil] at hlogj
              exact absurd hlogj (by simp)
            · exact running_of_call hk
            · exact absurd hlogj (hnot q)
          exact h.distinct i j t tj q (Ne.symm hji) ht hj hrunning hrunj hgiven (given_of_log hlogj)
  · intro p hrun hp'
    rw [given_step ho] at hp'
    obtain ⟨hrange, hne⟩ := h.given t hmem p hrunning hp'
    exact ⟨hrange, hne, fun j tj hji hj hrunj =>
      h.distinct i j t tj p (Ne.symm hji) ht hj hrunning hrunj hp', fun j hji hfree =>
      (h.free j p hfree).2.held i t (Ne.symm hji) ht hrunning hp'⟩

/-- **A scan ends**, with a port that nobody else has or with an exception. -/
theorem give (h : PortInv cfg hexdigest s) {i : ℕ} {r : Except Exn ℤ} {node' : NodeState}
    (hseeks : s.seeks i = true)
    (hfree : ∀ p, r = .ok p → TransferPort p ∧ s.Vacant i p)
    (hnext : s.node.next cfg hexdigest (.thread i (scanned r)) = some node') :
    PortInv cfg hexdigest { s with node := node', scans := Function.update s.scans i none
                                   tests := Function.update s.tests i {} } := by
  obtain ⟨t, o, k, r', s₁, ht, hp, hperform, rfl⟩ := NodeState.next_thread hnext
  have hmem : t ∈ s.node.threads := List.mem_of_getElem? ht
  have ho : o = .findAvailablePort := by
    rw [PortState.seeks, ht, Option.any_some, NodeThread.seeks, hp] at hseeks
    cases o with
    | findAvailablePort => rfl
    | _ => exact absurd hseeks Bool.false_ne_true
  subst ho
  obtain ⟨rfl, rfl⟩ : r = r' ∧ s.node = s₁ := by
    have heq := Option.some.inj hperform
    exact ⟨congrArg Prod.fst heq, congrArg Prod.snd heq⟩
  have hlog : t.log = [] := by
    rcases h.stage hmem hp with ⟨-, hlog⟩ | ⟨p, -, ho⟩ | hnothing
    · exact hlog
    · exact absurd ho (by simp)
    · exact hnothing.elim
  have hnew : (t.step .findAvailablePort r (k r)).log = [⟨.findAvailablePort, r⟩] := by
    show t.log ++ [⟨.findAvailablePort, r⟩] = _
    rw [hlog, List.nil_append]
  have hgiven : ∀ p, (t.step .findAvailablePort r (k r)).given = some p → r = .ok p := by
    intro p hgiven
    rw [NodeThread.given, hnew] at hgiven
    cases r with
    | error e => exact absurd hgiven (by simp [found])
    | ok q =>
        obtain rfl : q = p := Option.some.inj hgiven
        rfl
  have hruns : ∃ fuel, (dispatch cfg hexdigest fuel t.request !t.recovered).Runs
      (t.log ++ [⟨.findAvailablePort, r⟩]) (k r) := by
    obtain ⟨fuel, hruns⟩ := h.runs t hmem
    rw [hp] at hruns
    exact ⟨fuel, hruns.snoc r⟩
  obtain ⟨ports, hports, hnodup, hall⟩ := h.ledger
  refine h.set ⟨ht, rfl, rfl, rfl, rfl, rfl, fun j scan hscan => ?_, fun j p hp => ?_, ?_, ?_⟩ rfl
    hruns
  · have hji : j ≠ i := by
      rintro rfl
      simp at hscan
    exact ⟨hji, by simpa [Function.update_of_ne hji] using hscan, Function.update_of_ne hji ..⟩
  · have hji : j ≠ i := by
      rintro rfl
      simp at hp
    exact ⟨hji, by simpa [Function.update_of_ne hji] using hp⟩
  · refine ⟨ports, hports, hnodup, fun p hin => ?_⟩
    obtain ⟨hrange, hne, hother⟩ := hall p hin
    refine ⟨hrange, hne, fun heq => ?_, fun j tj _ hj => hother tj (List.mem_of_getElem? hj),
      Or.inl ((recorded_iff hports p).mpr hin)⟩
    have hrecorded := (hfree p (hgiven p (given_of_log heq))).2.unrecorded
    rw [(recorded_iff hports p).mpr hin] at hrecorded
    exact absurd hrecorded (by decide)
  · intro p _ hp'
    obtain ⟨hrange, hvacant⟩ := hfree p (hgiven p hp')
    exact ⟨hrange, hvacant.command, hvacant.held, hvacant.found⟩

/-- **A thread starts.** -/
theorem append (h : PortInv cfg hexdigest s) {t : NodeThread} (hlog : t.log = [])
    (hup : s'.node.up = s.node.up) (hon : s.node.up = true)
    (hthreads : s'.node.threads = s.node.threads ++ [t]) (hledger : s'.node.ledger = s.node.ledger)
    (hport : s'.decentoragePort = s.decentoragePort) (hstartup : s'.startup = s.startup)
    (hscans : s'.scans = s.scans) (htests : s'.tests = s.tests)
    (hpending : ∀ v ∈ s'.node.pending, v.WF) (hrequest : (Json.obj t.request).WF) (hruns : ∃ fuel,
      (dispatch cfg hexdigest fuel t.request !t.recovered).Runs t.log t.prog) :
    PortInv cfg hexdigest s' := by
  have hnone : t.given = none := by
    rw [NodeThread.given, hlog]
    rfl
  have hmem : ∀ t₁ ∈ s'.node.threads, t₁ ∈ s.node.threads ∨ t₁ = t := by
    intro t₁ h₁
    rw [hthreads] at h₁
    rcases List.mem_append.mp h₁ with h₁ | h₁
    · exact Or.inl h₁
    · exact Or.inr (List.mem_singleton.mp h₁)
  have hget : ∀ (j : ℕ) t₁ p, s'.node.threads[j]? = some t₁ → t₁.given = some p →
      s.node.threads[j]? = some t₁ := by
    intro j t₁ p hj hp
    rw [hthreads] at hj
    rcases Nat.lt_or_ge j s.node.threads.length with hlt | hge
    · rwa [List.getElem?_append_left hlt] at hj
    · rw [List.getElem?_append_right hge] at hj
      obtain rfl := List.mem_singleton.mp (List.mem_of_getElem? hj)
      rw [hnone] at hp
      exact absurd hp (by simp)
  have hseeks : ∀ j, s.seeks j = true → s'.seeks j = true := by
    intro j hj
    obtain ⟨tj, htj⟩ := exists_of_seeks hj
    unfold PortState.seeks at hj ⊢
    rwa [hthreads, List.getElem?_append_left (List.getElem?_eq_some_iff.mp htj).1]
  refine ⟨?_, ?_, ?_, ?_, ?_, hpending, ?_, ?_, ?_, ?_⟩
  · obtain ⟨ports, hports, hnodup, hall⟩ := h.ledger
    refine ⟨ports, by rw [hledger]; exact hports, hnodup, fun p hin => ?_⟩
    obtain ⟨hrange, hne, hother⟩ := hall p hin
    refine ⟨hrange, by rw [hport]; exact hne, fun t₁ h₁ => ?_⟩
    rcases hmem t₁ h₁ with h₁ | rfl
    · exact hother t₁ h₁
    · rw [hlog]
      exact (List.cons_ne_nil _ _).symm
  · intro t₁ h₁ p hrun hp
    rw [hport]
    rcases hmem t₁ h₁ with h₁ | rfl
    · exact h.given t₁ h₁ p hrun hp
    · rw [hnone] at hp
      exact absurd hp (by simp)
  · intro j₁ j₂ t₁ t₂ p hne h₁ h₂ hrun₁ hrun₂ hp₁ hp₂
    exact h.distinct j₁ j₂ t₁ t₂ p hne (hget j₁ t₁ p h₁ hp₁) (hget j₂ t₂ p h₂ hp₂) hrun₁ hrun₂ hp₁ hp₂
  · intro t₁ h₁
    rcases hmem t₁ h₁ with h₁ | rfl
    · exact h.runs t₁ h₁
    · exact hruns
  · intro t₁ h₁
    rcases hmem t₁ h₁ with h₁ | rfl
    · exact h.requests t₁ h₁
    · exact hrequest
  · intro hoff
    rw [hup, hon] at hoff
    exact absurd hoff (by decide)
  · intro prog hprog
    rw [hstartup] at hprog
    have hoff := (h.starting prog hprog).1
    rw [hon] at hoff
    exact absurd hoff (by decide)
  · intro j scan hscan
    rw [hscans] at hscan
    rw [htests]
    exact ⟨hseeks j (h.scans j scan hscan).1, (h.scans j scan hscan).2⟩
  · intro j p hp
    rw [htests] at hp
    obtain ⟨hj, hvacant⟩ := h.free j p hp
    refine ⟨hseeks j hj, by rw [hledger]; exact hvacant.unrecorded,
      by rw [hport]; exact hvacant.command, fun k tk hkj hk hrun hgiven => ?_,
      by rw [htests]; exact hvacant.found⟩
    exact hvacant.held k tk hkj (hget k tk p hk hgiven) hrun hgiven

/-- **The threads are gone**, or have not been started yet. -/
theorem clear (h : PortInv cfg hexdigest s) (hthreads : s'.node.threads = [])
    (hledger : s'.node.ledger = s.node.ledger)
    (hport : ∀ ports, LedgerPorts s.node.ledger ports →
      (∀ p ∈ ports, TransferPort p ∧ p ≠ s.decentoragePort) → s'.decentoragePort ∉ ports)
    (hpending : ∀ v ∈ s'.node.pending, v.WF)
    (hoff : s'.node.up = false → s'.node.pending = [])
    (hstart : ∀ prog, s'.startup = some prog → s'.node.up = false ∧ Starting cfg s' prog)
    (hscans : ∀ i, s'.scans i = none ∧ (s'.tests i).free = none) : PortInv cfg hexdigest s' := by
  obtain ⟨ports, hports, hnodup, hall⟩ := h.ledger
  have hnot : s'.decentoragePort ∉ ports :=
    hport ports hports fun p hp => ⟨(hall p hp).1, (hall p hp).2.1⟩
  have hnone : ∀ t, t ∉ s'.node.threads := by
    intro t ht
    rw [hthreads] at ht
    exact absurd ht List.not_mem_nil
  refine ⟨⟨ports, by rw [hledger]; exact hports, hnodup, fun p hp => ?_⟩,
    fun t ht => absurd ht (hnone t), fun i j ti tj p _ hi => ?_, fun t ht => absurd ht (hnone t),
    fun t ht => absurd ht (hnone t), hpending, fun hup => ⟨hthreads, hoff hup⟩, hstart,
    fun i scan hscan => ?_, fun i p hp => ?_⟩
  · refine ⟨(hall p hp).1, ?_, fun t ht => absurd ht (hnone t)⟩
    rintro rfl
    exact hnot hp
  · exact absurd (List.mem_of_getElem? hi) (hnone ti)
  · rw [(hscans i).1] at hscan
    exact absurd hscan (by simp)
  · rw [(hscans i).2] at hp
    exact absurd hp (by simp)

/-- 0 is no port for a transfer. -/
theorem zero_notMem {ports : List ℤ} (hall : ∀ p ∈ ports, TransferPort p ∧ p ≠ s.decentoragePort) :
    (0 : ℤ) ∉ ports := by
  intro hmem
  obtain ⟨⟨hlo, -⟩, -⟩ := hall 0 hmem
  omega

/-- The ledger does not record 0. -/
theorem recorded_zero (h : PortInv cfg hexdigest s) : recorded s.node.ledger 0 = false := by
  obtain ⟨ports, hports, -, hall⟩ := h.ledger
  rw [← Bool.not_eq_true, recorded_iff hports]
  exact zero_notMem fun p hp => ⟨(hall p hp).1, (hall p hp).2.1⟩

variable (cfg) in
/-- **An operation of the start or of a scan**: what it leaves alone, and that its tests say what
is answered. -/
theorem exec_spec {answer : ScanAnswer} {o : ScanOp} {r : Except Exn o.Res}
    (h : s.exec answer o = some (r, s')) :
    (s'.node = s.node ∧ s'.scans = s.scans ∧ s'.tests = s.tests ∧
      s'.decentoragePort = o.assigned s.decentoragePort) ∧ o.possible r = true ∧
      (∀ p, s.startTests.finds cfg o r = some p →
        s.startTests.finds cfg o (answer o) = some p) ∧
      ∀ p, o.reads r = some p → s.configPort o = some p := by
  have hnone : ∀ {p : ℤ} {c : Prop}, (none : Option ℤ) = some p → c := fun hp => by cases hp
  have hexternal : o.external → (s' = s ∧ r = answer o) ∧ o.possible r = true := by
    intro ho
    obtain ⟨hs, hr, hpossible⟩ := PortState.exec_external ho h
    exact ⟨⟨hs, hr⟩, hpossible⟩
  cases o with
  | decentoragePort =>
      obtain ⟨-, rfl⟩ := h
      exact ⟨⟨rfl, rfl, rfl, rfl⟩, rfl, fun p hp => hnone hp, fun p hp => hnone hp⟩
  | setDecentoragePort p =>
      obtain ⟨-, rfl⟩ := h
      exact ⟨⟨rfl, rfl, rfl, rfl⟩, rfl, fun p hp => hnone hp, fun p hp => hnone hp⟩
  | configExists =>
      obtain ⟨-, rfl⟩ := h
      exact ⟨⟨rfl, rfl, rfl, rfl⟩, rfl, fun p hp => hnone hp, fun p hp => hnone hp⟩
  | readConfig =>
      simp only [PortState.exec] at h
      split at h
      · next q hfile =>
          obtain ⟨rfl, rfl⟩ := Prod.mk.inj (Option.some.inj h)
          refine ⟨⟨rfl, rfl, rfl, rfl⟩, rfl, fun p hp => hnone hp, fun p hp => ?_⟩
          rw [PortState.configPort, hfile]
          exact hp
      · obtain ⟨rfl, rfl⟩ := Prod.mk.inj (Option.some.inj h)
        exact ⟨⟨rfl, rfl, rfl, rfl⟩, rfl, fun p hp => hnone hp, fun p hp => hnone hp⟩
      · exact absurd h (by simp)
  | writeConfig localIp q =>
      simp only [PortState.exec] at h
      split at h <;> obtain ⟨-, rfl⟩ := h <;>
        exact ⟨⟨rfl, rfl, rfl, rfl⟩, rfl, fun p hp => hnone hp, fun p hp => hnone hp⟩
  | _ =>
      obtain ⟨⟨rfl, rfl⟩, hpossible⟩ := hexternal trivial
      exact ⟨⟨rfl, rfl, rfl, rfl⟩, hpossible, fun _ hp => hp, fun p hp => hnone hp⟩

theorem pending_wf {file : Option (List Char)} : ∀ v ∈ resumePending file, v.WF := by
  unfold resumePending
  split
  · next entries hread => exact readFile_wf hread
  · exact fun v hv => absurd hv List.not_mem_nil

/-- **A step of the start.** -/
theorem startup (h : PortInv cfg hexdigest s) {answer : ScanAnswer}
    (hsound : s.testsSound cfg (.startup answer) = true)
    (hnext : s.next cfg hexdigest startingPort (.startup answer) = some s') :
    PortInv cfg hexdigest s' := by
  simp only [PortState.next] at hnext
  split at hnext
  · next o k hs =>
      obtain ⟨⟨r, s₁⟩, hexec, rfl⟩ := Option.map_eq_some_iff.mp hnext
      obtain ⟨hup, hstarting⟩ := h.starting _ hs
      obtain ⟨hthreads, hpending⟩ := h.off hup
      obtain ⟨⟨hnode, hscans, htests, hport⟩, hpossible, hfinds, hreads⟩ := exec_spec cfg hexec
      simp only [PortState.testsSound, hs, Bool.and_eq_true, Option.all_eq_true,
        Bool.not_eq_true'] at hsound
      -- the ledger is as it was, and the rest of the start is sound for it
      have hrest : Starting cfg
          { s₁ with startup := some (k r), startTests := s.startTests.after cfg o r } (k r) := by
        unfold Starting at hstarting ⊢
        simp only [hnode, hport]
        refine (Setting.wp_call hstarting ?_).2
        exact ⟨hpossible, rfl, fun p hp => hsound.1 p (hfinds p hp),
          fun p hp => hsound.2 p (hreads p hp)⟩
      have hcommand : recorded s.node.ledger s₁.decentoragePort = false := by
        have hinv := Setting.wp_inv hrest
        simpa [hnode] using hinv
      refine h.clear ?_ ?_ ?_ ?_ ?_ ?_ ?_
      · exact (congrArg NodeState.threads hnode).trans hthreads
      · exact congrArg NodeState.ledger hnode
      · intro ports hports _ hmem
        have hmem : s₁.decentoragePort ∈ ports := hmem
        rw [← recorded_iff hports, hcommand] at hmem
        exact absurd hmem Bool.false_ne_true
      · show ∀ v ∈ s₁.node.pending, v.WF
        rw [hnode]
        exact h.pending
      · intro _
        exact (congrArg NodeState.pending hnode).trans hpending
      · intro prog hprog
        obtain rfl := Option.some.inj hprog
        exact ⟨(congrArg NodeState.up hnode).trans hup, hrest⟩
      · intro i
        show s₁.scans i = none ∧ (s₁.tests i).free = none
        rw [hscans, htests]
        exact h.idle hthreads i
  · next hs =>
      obtain ⟨node', hnode, rfl⟩ := Option.map_eq_some_iff.mp hnext
      obtain ⟨hthreads, -⟩ := h.off (h.starting _ hs).1
      obtain ⟨-, rfl⟩ := NodeState.next_start hnode
      refine h.clear rfl rfl ?_ pending_wf ?_ ?_ (h.idle hthreads)
      · exact fun ports _ hall hmem => (hall _ hmem).2 rfl
      · exact fun hup => absurd hup.symm Bool.false_ne_true
      · exact fun prog hprog => absurd hprog (by simp)
  · exact absurd hnext (by simp)

/-- **A scan goes on**, or begins: what its tests have found free is vacant. -/
theorem rescan (h : PortInv cfg hexdigest s) {i : ℕ} {scan : Scan ℤ} {g : Tests}
    (hseeks : s.seeks i = true) (hscan : ScanOk cfg g scan)
    (hfree : ∀ p, g.free = some p → s.Vacant i p) :
    PortInv cfg hexdigest { s with scans := Function.update s.scans i (some scan)
                                   tests := Function.update s.tests i g } := by
  refine { h with scans := fun j scan' hscan' => ?_, free := fun j p hp => ?_ }
  · by_cases hji : j = i
    · subst hji
      simp only [Function.update_self, Option.some.injEq] at hscan' ⊢
      subst hscan'
      exact ⟨hseeks, hscan⟩
    · simp only [Function.update_of_ne hji] at hscan' ⊢
      exact h.scans j scan' hscan'
  · by_cases hji : j = i
    · subst hji
      simp only [Function.update_self] at hp
      obtain ⟨hrecorded, hcommand, hheld, hfound⟩ := hfree p hp
      refine ⟨hseeks, hrecorded, hcommand, hheld, fun k hkj => ?_⟩
      simp only [Function.update_of_ne hkj]
      exact hfound k hkj
    · simp only [Function.update_of_ne hji] at hp
      obtain ⟨hj, hrecorded, hcommand, hheld, hfound⟩ := h.free j p hp
      refine ⟨hj, hrecorded, hcommand, hheld, fun k hkj => ?_⟩
      by_cases hki : k = i
      · subst hki
        simp only [Function.update_self]
        exact fun hk => (hfree p hk).found j hji hp
      · simp only [Function.update_of_ne hki]
        exact hfound k hkj

/-- **A step of a scan.** -/
theorem scan (h : PortInv cfg hexdigest s) {i : ℕ} {answer : ScanAnswer}
    (hsound : s.testsSound cfg (.scan i answer) = true)
    (hnext : s.next cfg hexdigest startingPort (.scan i answer) = some s') :
    PortInv cfg hexdigest s' := by
  simp only [PortState.next, Option.ite_none_right_eq_some] at hnext
  obtain ⟨hseeks, hnext⟩ := hnext
  split at hnext
  · next o k hs =>
      obtain ⟨⟨r, s₁⟩, hexec, rfl⟩ := Option.map_eq_some_iff.mp hnext
      obtain ⟨rfl, rfl, hk⟩ := (h.scans i _ hs).2.step hexec
      simp only [PortState.testsSound, hs, Option.all_eq_true, Bool.not_eq_true'] at hsound
      refine h.rescan hseeks hk fun p hp => ?_
      rcases Tests.free_after hp with hold | hnew
      · exact (h.free i p hold).2
      · exact h.vacant_of_taken (hsound p hnew)
  · next p hs =>
      obtain ⟨node', hnode, rfl⟩ := Option.map_eq_some_iff.mp hnext
      obtain ⟨hrange, hfree⟩ := (h.scans i _ hs).2.ends
      refine h.give hseeks ?_ hnode
      intro q hq
      obtain rfl := Except.ok.inj hq
      exact ⟨hrange, (h.free i p hfree).2⟩
  · obtain ⟨node', hnode, rfl⟩ := Option.map_eq_some_iff.mp hnext
    exact h.give hseeks (fun p hp => absurd hp (by simp)) hnode
  · exact absurd hnext (by simp)

/-- **Every event whose tests are sound keeps the invariant.** -/
theorem next (h : PortInv cfg hexdigest s) {ev : PortEvent} (hsound : s.testsSound cfg ev = true)
    (hnext : s.next cfg hexdigest startingPort ev = some s') : PortInv cfg hexdigest s' := by
  cases ev with
  | boot fuel =>
      simp only [PortState.next, Option.ite_none_left_eq_some, Option.some.injEq,
        Bool.not_eq_true, Bool.or_eq_false_iff] at hnext
      obtain ⟨⟨hup, -⟩, rfl⟩ := hnext
      obtain ⟨hthreads, hpending⟩ := h.off hup
      refine h.clear hthreads rfl (fun ports _ hall => zero_notMem hall) h.pending
        (fun _ => hpending) (fun prog hprog => ?_) (h.idle hthreads)
      obtain rfl := Option.some.inj hprog
      exact ⟨hup, Setting.wp_mono (fun _ _ _ => trivial)
        (PortScanner.spec_initializePorts startingPort fuel _ h.recorded_zero)⟩
  | startup answer => exact h.startup hsound hnext
  | scanStart i fuel =>
      simp only [PortState.next, Option.ite_none_right_eq_some, Option.some.injEq] at hnext
      obtain ⟨hseeks, rfl⟩ := hnext
      rw [Bool.and_eq_true] at hseeks
      exact h.rescan hseeks.1 (scanOk_start cfg startingPort fuel) fun p hp => by simp at hp
  | scan i answer => exact h.scan hsound hnext
  | node ev =>
      cases ev with
      | thread i c =>
          simp only [PortState.next, Option.ite_none_left_eq_some] at hnext
          obtain ⟨hseeks, hnext⟩ := hnext
          obtain ⟨node', hnode, rfl⟩ := Option.map_eq_some_iff.mp hnext
          exact h.thread (by simpa using hseeks) hnode
      | resume fuel =>
          obtain ⟨node', hnode, rfl⟩ := Option.map_eq_some_iff.mp hnext
          have hon : s.node.pending ≠ [] → s.node.up = true := by
            intro hne
            cases hup : s.node.up with
            | true => rfl
            | false => exact absurd (h.off hup).2 hne
          rcases NodeState.next_resume hnode with ⟨entry, rest, hp, rfl⟩ | ⟨v, rest, hp, -, rfl⟩
          · have hwf : ∀ v ∈ Json.obj entry :: rest, v.WF := hp ▸ h.pending
            exact h.append (t := NodeState.spawn cfg hexdigest true entry fuel) rfl rfl
              (hon (by rw [hp]; exact List.cons_ne_nil _ _)) rfl rfl rfl rfl rfl rfl
              (fun v hv => hwf v (List.mem_cons_of_mem _ hv)) (hwf _ List.mem_cons_self)
              ⟨fuel, .nil⟩
          · refine { h with pending := ?_, off := ?_, free := fun i p hp => ?_ }
            · exact fun v hv => absurd hv List.not_mem_nil
            · exact fun hup => ⟨(h.off hup).1, rfl⟩
            · obtain ⟨hseeks, hrecorded, hcommand, hheld, hfound⟩ := h.free i p hp
              exact ⟨hseeks, hrecorded, hcommand, hheld, hfound⟩
      | accept raw fuel =>
          obtain ⟨node', hnode, rfl⟩ := Option.map_eq_some_iff.mp hnext
          obtain ⟨hup, -, request, hload, rfl⟩ := NodeState.next_accept hnode
          exact h.append (t := NodeState.spawn cfg hexdigest false request fuel) rfl rfl hup rfl
            rfl rfl rfl rfl rfl h.pending (jsonLoads_wf hload) ⟨fuel, .nil⟩
      | start => exact absurd hnext (by simp [PortState.next])
      | kill => exact absurd hnext (by simp [PortState.next])
  | kill =>
      simp only [PortState.next] at hnext
      split at hnext
      · next hstart =>
          obtain rfl := Option.some.inj hnext
          obtain ⟨prog, hprog⟩ := Option.isSome_iff_exists.mp hstart
          obtain ⟨hthreads, hpending⟩ := h.off (h.starting prog hprog).1
          exact h.clear hthreads rfl (fun ports _ hall => zero_notMem hall) h.pending
            (fun _ => hpending) (fun prog hprog => absurd hprog (by simp)) fun _ => ⟨rfl, rfl⟩
      · obtain ⟨node', hnode, rfl⟩ := Option.map_eq_some_iff.mp hnext
        obtain ⟨-, rfl⟩ := NodeState.next_kill hnode
        exact h.clear rfl rfl (fun ports _ hall => zero_notMem hall)
          (fun v hv => absurd hv List.not_mem_nil) (fun _ => rfl)
          (fun prog hprog => absurd hprog (by simp)) fun _ => ⟨rfl, rfl⟩

end PortInv

/-! ## The property -/

/-- **Port uniqueness.**  In every run whose tests are sound, that is, a scan finds no port free
that the ledger records, that is the command port, that another running transfer was given or
that another scan has found free, and the search for the command port and `config.txt` name
none that the ledger records, the ports of all ledger entries and `decentorage_port` are
pairwise distinct, and no two running transfers were told the same port. -/
theorem ports_distinct_when_tests_sound (cfg : Config) (hexdigest : Bytes → String)
    (startingPort : ℤ) {s : PortState}
    (hrun : EventRun.Reaches (PortState.next cfg hexdigest startingPort)
      (fun s ev => s.testsSound cfg ev = true) PortState.fresh s) :
    s.PortsDistinct ∧ s.TransfersDistinct := by
  have h : PortInv cfg hexdigest s :=
    hrun.invariant .fresh fun s₁ ev s₂ h₁ hsound hnext => h₁.next hsound hnext
  exact ⟨h.portsDistinct, h.distinct⟩

/-- Every bind succeeds, and the generator draws `p`. -/
def drawing (p : ℤ) : ScanAnswer
  | .probeBind _ => .ok ()
  | .isPortOpen _ => .ok false
  | .forwardPort _ => .ok true
  | .randint _ _ => .ok p
  | .getMyIp => .ok (some "192.168.1.2")
  | .decentoragePort => .ok (0 : ℤ)
  | .setDecentoragePort _ => .ok ()
  | .configExists => .ok false
  | .writeConfig _ _ => .ok ()
  | .readConfig => .ok (0 : ℤ)

/-- A client's request for the upload of a shard. -/
def uploadOf (id : PyStr) : Dict :=
  [("type", .str "upload"), ("shard_id", .str id), ("port", .int 0)]

/-- The node starts and accepts two uploads.  Both threads draw a candidate and probe it
before either goes on; then both register. -/
def twoScans (p q : ℤ) : List PortEvent :=
  .boot 3 :: List.replicate 11 (.startup (drawing 0)) ++
    [.node (.accept (Json.obj (uploadOf "a")).text 5),
      .node (.accept (Json.obj (uploadOf "b")).text 5),
      .scanStart 0 1, .scan 0 (drawing p), .scan 0 (drawing p),
      .scanStart 1 1, .scan 1 (drawing q), .scan 1 (drawing q),
      .scan 0 (drawing p), .scan 1 (drawing q),
      .node (.thread 0 { answer := plainAnswer, ledger := List.replicate 74 {} }),
      .node (.thread 1 { answer := plainAnswer, ledger := List.replicate 128 {} })]

/-- The ledger has two entries, with these ports. -/
def recordsTwo (p q : ℤ) (s : PortState) : Bool :=
  match readFile s.node.ledger with
  | .ok (.arr [a, b]) => entryPort a == some (.int p) && entryPort b == some (.int q)
  | _ => false

/-- The theorem at a run in which the two candidates differ. -/
theorem ports_distinct_two_uploads :
    ∃ s, EventRun.Reaches (PortState.next {} (fun _ => "") 50000)
      (fun s ev => s.testsSound {} ev = true) PortState.fresh s ∧
      recordsTwo 50100 50101 s = true ∧ s.PortsDistinct ∧ s.TransfersDistinct := by
  obtain ⟨s, hrun, hs⟩ := EventRun.exists_of_run (fun _ _ h => h) (recordsTwo 50100 50101)
    (show (EventRun.run (PortState.next {} (fun _ => "") 50000) (PortState.testsSound {})
      PortState.fresh (twoScans 50100 50101)).any (recordsTwo 50100 50101) = true by decide +kernel)
  exact ⟨s, hrun, hs, ports_distinct_when_tests_sound {} (fun _ => "") 50000 hrun⟩

/-- **Two uploads with one port.**  Neither of the two threads has bound the port when the
other one tests it, and nothing else is consulted. -/
theorem same_port_twice :
    ¬ ∀ s, EventRun.Reaches (PortState.next {} (fun _ => "") 50000) (fun _ _ => True)
      PortState.fresh s → s.PortsDistinct := by
  intro h
  have hany : ∀ (s : PortState) (ev : PortEvent), (fun _ _ => true) s ev = true → True :=
    fun _ _ _ => trivial
  obtain ⟨s, hrun, hs⟩ := EventRun.exists_of_run hany (recordsTwo 50100 50100)
    (show (EventRun.run (PortState.next {} (fun _ => "") 50000) (fun _ _ => true)
      PortState.fresh (twoScans 50100 50100)).any (recordsTwo 50100 50100) = true by decide +kernel)
  obtain ⟨entries, ports, hread, hports, hnodup⟩ := h s hrun
  rw [nextRead_eq_iff] at hread
  unfold recordsTwo at hs
  rw [hread] at hs
  split at hs
  · next a b heq =>
      obtain rfl := Json.arr.inj (Except.ok.inj heq)
      rw [Bool.and_eq_true] at hs
      have hlength : ports.length = 2 := by
        simpa using (congrArg List.length hports).symm
      obtain ⟨x, y, rfl⟩ := List.length_eq_two.mp hlength
      simp only [List.map_cons, List.map_nil, List.cons.injEq, and_true] at hports
      obtain ⟨ha, hb⟩ := hports
      rw [ha, hb] at hs
      obtain rfl : x = 50100 := of_decide_eq_true hs.1
      obtain rfl : y = 50100 := of_decide_eq_true hs.2
      exact absurd hnodup (by simp)
  · exact absurd hs Bool.false_ne_true
