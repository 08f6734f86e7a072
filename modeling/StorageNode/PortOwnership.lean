/-
# Whose port a transfer touches

A transfer binds its socket to the port in its request and deletes the mapping of that
port.  `dispatch` writes a fresh port there only when it finds 0, so a client that names
another port decides what is bound and deleted.

* `Touches` : an event that binds a port or deletes its mapping;
* `OwnPort` : the port was allocated to the transfer, or its request carried it;
* `spec_dispatch_ports` : what `dispatch` touches, from the log of its thread;
* `transfers_touch_own_ports` : in every run, from the ledger or from the network;
* `foreign_port_touched` : a client's request binds a port nobody allocated and deletes its
  mapping.
-/
import StorageNode.NodeRun

open RequestDispatcher

/-- The log of a thread. -/
abbrev DispatchLog : Type := List (Prog.Event DispatchOp DispatchOp.Res Exn)

/-- The event binds `port`, or asks the router to delete its mapping. -/
def Touches (e : Prog.Event DispatchOp DispatchOp.Res Exn) (port : Json) : Prop :=
  (∃ address, e.1 = .node (.bindSocket address port)) ∨
    ∃ mapping, e.1 = .node (.forwardPort mapping) ∧ mapping.port = port ∧ mapping.disable = true

/-- `find_available_port` has returned the port to this thread. -/
def Allocated (log : DispatchLog) (port : Json) : Prop :=
  ∃ p : ℤ, ⟨.findAvailablePort, .ok p⟩ ∈ log ∧ port = .int p

/-- The request carries the port, and it is not equal to 0. -/
def Carried (request : Dict) (port : Json) : Prop :=
  request.getItem "port" = .ok port ∧ (port == .int 0) = false

/-- **The port belongs to the transfer.** -/
def OwnPort (request : Dict) (log : DispatchLog) (port : Json) : Prop :=
  Allocated log port ∨ Carried request port

/-- Every port the log touches belongs to the transfer. -/
def OwnPorts (request : Dict) (log : DispatchLog) : Prop :=
  ∀ e ∈ log, ∀ port, Touches e port → OwnPort request log port

theorem Allocated.append {log : DispatchLog} {port : Json} (h : Allocated log port)
    (e : Prog.Event DispatchOp DispatchOp.Res Exn) : Allocated (log ++ [e]) port := by
  obtain ⟨p, hp, rfl⟩ := h
  exact ⟨p, List.mem_append_left _ hp, rfl⟩

/-- A further event that touches own ports only. -/
theorem OwnPorts.append {request : Dict} {log : DispatchLog}
    {e : Prog.Event DispatchOp DispatchOp.Res Exn} (h : OwnPorts request log)
    (he : ∀ port, Touches e port → OwnPort request log port) :
    OwnPorts request (log ++ [e]) := by
  have hown : ∀ port, OwnPort request log port → OwnPort request (log ++ [e]) port := by
    rintro port (hport | hport)
    · exact Or.inl (hport.append e)
    · exact Or.inr hport
  intro e' he' port htouch
  rcases List.mem_append.mp he' with he' | he'
  · exact hown port (h e' he' port htouch)
  · rw [List.mem_singleton.mp he'] at htouch
    exact hown port (he port htouch)

/-- Operations that touch no port. -/
def touchesNothing : DispatchOp → Bool
  | .node (.bindSocket _ _) => false
  | .node (.forwardPort _) => false
  | _ => true

theorem not_touches {o : DispatchOp} (ho : touchesNothing o = true) (r : Except Exn o.Res)
    (port : Json) : ¬ Touches ⟨o, r⟩ port := by
  rintro (⟨address, rfl⟩ | ⟨mapping, rfl, -⟩)
  · exact absurd ho (by simp [touchesNothing])
  · exact absurd ho (by simp [touchesNothing])

/-- The setting of a thread whose log is to touch own ports only. -/
abbrev portSetting (request : Dict) :
    Setting DispatchOp DispatchOp.Res Exn DispatchLog :=
  Setting.logging (fun _ => True) (OwnPorts request)

/-- An operation that touches nothing. -/
theorem spec_untouched {request : Dict} {o : DispatchOp} (ho : touchesNothing o = true)
    {A : DispatchLog → Prop} (hA : ∀ log, A log → OwnPorts request log)
    (happ : ∀ log e, A log → OwnPorts request (log ++ [e]) → A (log ++ [e])) :
    (portSetting request).Spec A (dispatchOp o) (fun _ => A) A :=
  Setting.spec_log hA (fun _ => hA) hA
    (fun log _ h _ => happ log _ h ((hA log h).append fun port ht => absurd ht (not_touches ho _ port)))
    fun log _ h _ => happ log _ h ((hA log h).append fun port ht => absurd ht (not_touches ho _ port))

/-- A transfer touches the port of its request. -/
theorem spec_startTransfer_ports (cfg : Config) (fuel : ℕ) {request request' : Dict}
    (isNew : Bool) {A : DispatchLog → Prop} (hA : ∀ log, A log → OwnPorts request log)
    (happ : ∀ log e, A log → OwnPorts request (log ++ [e]) → A (log ++ [e]))
    (hport : ∀ log port, A log → request'.getItem "port" = .ok port → OwnPort request log port) :
    (portSetting request).Spec A (startTransfer cfg fuel request' isNew) (fun _ => A) A := by
  refine Setting.spec_only (only_startTransfer cfg fuel request' isNew) hA ?_
  intro log o r hlog ho
  refine happ log _ hlog ((hA log hlog).append ?_)
  rintro port (⟨address, rfl⟩ | ⟨mapping, rfl, rfl, -⟩)
  · exact hport log port hlog ho.2
  · exact hport log mapping.port hlog ho.1

section Dispatch

variable {request : Dict}

theorem settled_ports {A : DispatchLog → Prop} (hA : ∀ log, A log → OwnPorts request log) :
    (portSetting request).Settled A :=
  Setting.settled_logging hA

theorem spec_op_ports {o : DispatchOp} (ho : touchesNothing o = true) :
    (portSetting request).Spec (OwnPorts request) (dispatchOp o) (fun _ => OwnPorts request)
      (OwnPorts request) :=
  spec_untouched ho (fun _ h => h) fun _ _ _ h => h

theorem spec_reply_ports {A : DispatchLog → Prop} (connected : Bool) (text : String)
    (hA : ∀ log, A log → OwnPorts request log)
    (happ : ∀ log e, A log → OwnPorts request (log ++ [e]) → A (log ++ [e])) :
    (portSetting request).Spec A
      (if connected then dispatchOp (.sendReply text) else pure ()) (fun _ => A) A := by
  split
  · exact spec_untouched rfl hA happ
  · exact Setting.spec_ret (settled_ports hA) fun _ h => h

/-- An audit reads the shard and touches no port. -/
theorem spec_computeSaltedHash_ports (cfg : Config) (hexdigest : Bytes → String)
    (fragmentId salt : Json) :
    (portSetting request).Spec (OwnPorts request)
      (IntegrityVerifier.computeSaltedHash cfg hexdigest fragmentId salt)
      (fun _ => OwnPorts request) (OwnPorts request) := by
  have hsettled : (portSetting request).Settled (OwnPorts request) :=
    settled_ports fun _ h => h
  refine Setting.spec_ofExcept_bind hsettled (fun _ _ _ h => h) fun filePath _ => ?_
  refine Setting.spec_bind (spec_op_ports rfl) fun fh => ?_
  refine Setting.spec_bind (B := fun _ => OwnPorts request) ?_ fun content => ?_
  · exact Setting.spec_tryFinally (fun _ => hsettled) hsettled (spec_op_ports rfl)
      (fun _ => spec_op_ports rfl) (spec_op_ports rfl)
  · exact Setting.spec_ofExcept_bind hsettled (fun _ _ _ h => h) fun encoded _ =>
      Setting.spec_ret hsettled fun _ h => h

/-- The changed request carries the port that was allocated. -/
theorem spec_allocate_ports (connected : Bool) :
    (portSetting request).Spec (OwnPorts request) (allocateTransferPort request connected)
      (fun request' log => OwnPorts request log ∧
        ∀ port, request'.getItem "port" = .ok port → Allocated log port)
      (OwnPorts request) := by
  -- once the port is in the log it stays there
  have happ : ∀ (p : ℤ) log e, (OwnPorts request log ∧ Allocated log (.int p)) →
      OwnPorts request (log ++ [e]) →
      OwnPorts request (log ++ [e]) ∧ Allocated (log ++ [e]) (.int p) :=
    fun p log e h h' => ⟨h', h.2.append e⟩
  have hfind : (portSetting request).Spec (OwnPorts request) (dispatchOp .findAvailablePort)
      (fun p log => OwnPorts request log ∧ Allocated log (.int p)) (OwnPorts request) := by
    refine Setting.spec_log (fun _ h => h) (fun _ _ h => h.1) (fun _ h => h) ?_ ?_
    · intro log p h _
      refine ⟨h.append fun port ht => absurd ht (not_touches rfl _ port), p, ?_, rfl⟩
      simp
    · exact fun log e h _ => h.append fun port ht => absurd ht (not_touches rfl _ port)
  have hforget : ∀ (p : ℤ) {q : Dispatch Unit}, (portSetting request).Spec
      (fun log => OwnPorts request log ∧ Allocated log (.int p)) q
      (fun _ log => OwnPorts request log ∧ Allocated log (.int p))
      (fun log => OwnPorts request log ∧ Allocated log (.int p)) →
      (portSetting request).Spec (fun log => OwnPorts request log ∧ Allocated log (.int p)) q
        (fun _ log => OwnPorts request log ∧ Allocated log (.int p)) (OwnPorts request) :=
    fun p _ h => Setting.spec_mono (fun _ h => h) (fun _ _ h => h) (fun _ h => h.1) h
  refine Setting.spec_bind hfind fun p => ?_
  refine Setting.spec_bind (B := fun _ log => OwnPorts request log ∧ Allocated log (.int p))
    ?_ fun registered => ?_
  · exact Setting.spec_mono (fun _ h => h) (fun _ _ h => h) (fun _ h => h.1)
      (spec_untouched rfl (fun _ h => h.1) (happ p))
  refine Setting.spec_bind (hforget p (spec_reply_ports connected _ (fun _ h => h.1) (happ p)))
    fun _ => ?_
  refine Setting.spec_ret (settled_ports fun _ h => h.1) ?_
  intro log h
  refine ⟨h.1, fun port hp => ?_⟩
  rw [Dict.getItem, Dict.get?_set_self] at hp
  obtain rfl := Except.ok.inj hp
  exact h.2

/-- **What `dispatch` touches**: the port it was given, or the port it has allocated. -/
theorem spec_dispatch_ports (cfg : Config) (hexdigest : Bytes → String) (fuel : ℕ)
    (request : Dict) (connected : Bool) :
    (portSetting request).Spec (OwnPorts request)
      (dispatch cfg hexdigest fuel request connected) (fun _ => OwnPorts request)
      (OwnPorts request) := by
  have hsettled : (portSetting request).Settled (OwnPorts request) :=
    settled_ports fun _ h => h
  refine Setting.spec_ofExcept_bind hsettled (fun _ _ _ h => h) fun type _ => ?_
  split
  · refine Setting.spec_ofExcept_bind hsettled (fun _ _ _ h => h) fun fragmentId _ => ?_
    refine Setting.spec_ofExcept_bind hsettled (fun _ _ _ h => h) fun salt _ => ?_
    exact Setting.spec_bind (spec_computeSaltedHash_ports cfg hexdigest fragmentId salt)
      fun digest => spec_reply_ports connected digest (fun _ h => h) fun _ _ _ h => h
  · refine Setting.spec_ofExcept_bind hsettled (fun _ _ _ h => h) fun port hport => ?_
    split
    · refine Setting.spec_bind (spec_allocate_ports connected) fun request' => ?_
      refine Setting.spec_mono (fun _ h => h) (fun _ _ h => h.1) (fun _ h => h.1)
        (spec_startTransfer_ports cfg fuel true (fun _ h => h.1) ?_ ?_)
      · exact fun log e h h' => ⟨h', fun port hp => (h.2 port hp).append e⟩
      · exact fun log port h hp => Or.inl (h.2 port hp)
    · next hzero =>
        refine spec_startTransfer_ports cfg fuel false (fun _ h => h) (fun _ _ _ h => h) ?_
        intro log port' _ hp
        obtain rfl := Except.ok.inj (hport.symm.trans hp)
        exact Or.inr ⟨hport, by simpa using hzero⟩

end Dispatch

/-- Every event is possible. -/
def anyEvent : NodeState → NodeEvent → Prop := fun _ _ => True

/-- The node before its first start. -/
def NodeState.initial (ledger : Option (List Char)) : NodeState := { ledger := ledger }

/-- **Whose port a transfer touches.**  In every run, whatever requests arrive and whatever
the ledger held, each bind made by a transfer and each mapping deletion it requests is for a
port that `find_available_port` returned for that very transfer, or that the recovered
ledger entry records, or, for a request from the network, that the request names and that
is not equal to 0. -/
theorem transfers_touch_own_ports (cfg : Config) (hexdigest : Bytes → String)
    (ledger : Option (List Char)) {s : NodeState}
    (hrun : NodeState.Reaches cfg hexdigest anyEvent (NodeState.initial ledger) s) :
    ∀ t ∈ s.threads, ∀ e ∈ t.log, ∀ port, Touches e port →
      Allocated t.log port ∨
        (t.recovered = true ∧ .obj t.request ∈ s.resumed ∧ t.request.getItem "port" = .ok port) ∨
        (t.recovered = false ∧ Carried t.request port) := by
  intro t ht e he port htouch
  obtain ⟨fuel, hruns⟩ := NodeState.runs_of_reaches hrun rfl t ht
  have hstart : OwnPorts t.request [] := fun e he => absurd he List.not_mem_nil
  have hown : OwnPorts t.request t.log := Setting.wp_inv (Setting.wp_runs
    (spec_dispatch_ports cfg hexdigest fuel t.request (!t.recovered) [] hstart) hruns
    fun _ _ => trivial)
  rcases hown e he port htouch with hport | hport
  · exact Or.inl hport
  · cases hrec : t.recovered with
    | true =>
        have hresumed := (NodeState.resumed_of_reaches hrun rfl rfl).2 t ht hrec
        exact Or.inr (Or.inl ⟨rfl, hresumed, hport.1⟩)
    | false => exact Or.inr (Or.inr ⟨rfl, hport⟩)

/-- A client's request for port 50200, which the node has allocated to no transfer. -/
def foreignRequest : Dict :=
  [("type", .str "upload"), ("shard_id", .str "s"), ("port", .int 50200)]

/-- The node starts, accepts the request and serves it up to the deletion of the mapping. -/
def foreignRun : List NodeEvent :=
  [.start, .accept (Json.obj foreignRequest).text 5] ++
    List.replicate 15 (.thread 0 { answer := plainAnswer })

/-- The event asks the router to delete the mapping of port 50200. -/
def deletesForeign (e : Prog.Event DispatchOp DispatchOp.Res Exn) : Bool :=
  match e.1 with
  | .node (.forwardPort { port := .int n, disable := true, .. }) => n == 50200
  | _ => false

theorem touches_of_deletesForeign {e : Prog.Event DispatchOp DispatchOp.Res Exn}
    (h : deletesForeign e = true) : Touches e (.int 50200) := by
  unfold deletesForeign at h
  split at h
  · next n lanip he =>
      rw [beq_iff_eq] at h
      exact Or.inr ⟨_, he, by rw [h], rfl⟩
  · exact absurd h Bool.false_ne_true

/-- The event allocates a port. -/
def isAllocation (e : Prog.Event DispatchOp DispatchOp.Res Exn) : Bool :=
  match e.1 with
  | .findAvailablePort => true
  | _ => false

/-- Such a run, with one thread that has deleted the mapping of port 50200 and to which no
port was allocated. -/
theorem foreignRun_deletes :
    ∃ s, NodeState.Reaches { isLocal := false } (fun _ => "") anyEvent (NodeState.initial none) s ∧
      s.resumed = [] ∧ ∃ t ∈ s.threads, (∃ e ∈ t.log, deletesForeign e = true) ∧
        ∀ p : ℤ, ⟨.findAvailablePort, .ok p⟩ ∉ t.log := by
  obtain ⟨s, hrun, hs⟩ := NodeState.exists_of_run { isLocal := false } (fun _ => "")
    (NodeState.allMeet_of_forall (show ∀ s ev, anyEvent s ev from fun _ _ => trivial)
      (NodeState.initial none) foreignRun)
    (fun s => s.resumed.isEmpty && s.threads.any fun t => t.log.any deletesForeign &&
      t.log.all fun e => !isAllocation e) (by decide +kernel)
  simp only [Bool.and_eq_true, List.isEmpty_iff, List.any_eq_true, List.all_eq_true] at hs
  obtain ⟨hresumed, t, ht, ⟨e, he, hdel⟩, hnone⟩ := hs
  refine ⟨s, hrun, hresumed, t, ht, ⟨e, he, hdel⟩, fun p hp => ?_⟩
  exact absurd (hnone _ hp) Bool.false_ne_true

/-- The theorem at that run. -/
theorem transfers_touch_own_ports_foreign :
    ∃ s, NodeState.Reaches { isLocal := false } (fun _ => "") anyEvent (NodeState.initial none) s ∧
      ∃ t ∈ s.threads, Carried t.request (.int 50200) := by
  obtain ⟨s, hrun, hresumed, t, ht, ⟨e, he, hdel⟩, hnone⟩ := foreignRun_deletes
  refine ⟨s, hrun, t, ht, ?_⟩
  rcases transfers_touch_own_ports _ _ none hrun t ht e he _ (touches_of_deletesForeign hdel)
    with ⟨p, hp, -⟩ | ⟨-, hmem, -⟩ | ⟨-, hport⟩
  · exact absurd hp (hnone p)
  · rw [hresumed] at hmem
    exact absurd hmem List.not_mem_nil
  · exact hport

/-- **A port nobody allocated.**  A client's request makes the node delete the mapping of
port 50200, which `find_available_port` never returned and no ledger entry records. -/
theorem foreign_port_touched :
    ¬ ∀ s, NodeState.Reaches { isLocal := false } (fun _ => "") anyEvent
        (NodeState.initial none) s →
      ∀ t ∈ s.threads, ∀ e ∈ t.log, ∀ port, Touches e port →
        Allocated t.log port ∨
          ∃ entry : Dict, .obj entry ∈ s.resumed ∧ entry.getItem "port" = .ok port := by
  intro h
  obtain ⟨s, hrun, hresumed, t, ht, ⟨e, he, hdel⟩, hnone⟩ := foreignRun_deletes
  rcases h s hrun t ht e he _ (touches_of_deletesForeign hdel) with ⟨p, hp, -⟩ | ⟨entry, hmem, -⟩
  · exact absurd hp (hnone p)
  · rw [hresumed] at hmem
    exact absurd hmem List.not_mem_nil
