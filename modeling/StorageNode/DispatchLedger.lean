/-
# What one dispatch does to the ledger

A request without a port is registered once, with the port it is given, and unregistered at
most once after that; a request with a port is not registered, and unregistered at most once.
A transfer that ends without an exception has unregistered its request.

* `registersOf`, `unregistersOf` : the ledger calls in a log;
* `Waiting`, `Released` : before and after the call of `unregister`;
* `spec_receiveData`, `spec_sendData` : both transfers unregister at their end;
* `NewLog`, `spec_dispatch_new` : a request without a port;
* `RecoveredLog`, `spec_dispatch_recovered` : a request with a port.
-/
import StorageNode.PortOwnership

open RequestDispatcher

/-- The entry a call of `register` is about. -/
def registered? : DispatchOp → Option Dict
  | .node (.ledgerRegister entry) => some entry
  | _ => none

/-- The entry a call of `unregister` is about. -/
def unregistered? : DispatchOp → Option Dict
  | .node (.ledgerUnregister entry) => some entry
  | _ => none

/-- The calls of `register` in a log. -/
def registersOf (log : DispatchLog) : List Dict := log.filterMap fun e => registered? e.1

/-- The calls of `unregister` in a log. -/
def unregistersOf (log : DispatchLog) : List Dict := log.filterMap fun e => unregistered? e.1

section Logs

variable {log : DispatchLog} {e : Prog.Event DispatchOp DispatchOp.Res Exn}

theorem registersOf_append :
    registersOf (log ++ [e]) = registersOf log ++ (registered? e.1).toList := by
  rw [registersOf, List.filterMap_append]
  cases h : registered? e.1 with
  | none => simp [registersOf, h]
  | some entry => simp [registersOf, h]

theorem unregistersOf_append :
    unregistersOf (log ++ [e]) = unregistersOf log ++ (unregistered? e.1).toList := by
  rw [unregistersOf, List.filterMap_append]
  cases h : unregistered? e.1 with
  | none => simp [unregistersOf, h]
  | some entry => simp [unregistersOf, h]

end Logs

/-- The request has not been unregistered. -/
def Waiting (regs : List Dict) (log : DispatchLog) : Prop :=
  registersOf log = regs ∧ unregistersOf log = []

/-- The request has been unregistered, once. -/
def Released (regs : List Dict) (request : Dict) (log : DispatchLog) : Prop :=
  registersOf log = regs ∧ unregistersOf log = [request]

/-- An upload or a download. -/
def IsTransfer (request : Dict) : Prop :=
  request.getItem "type" = .ok (.str "upload") ∨ request.getItem "type" = .ok (.str "download")

/-- The shard of a download was not there. -/
def ShardMissing (log : DispatchLog) : Prop := ∃ path, ⟨.node (.isFile path), .ok false⟩ ∈ log

/-- `find_available_port` does not return 0. -/
def NonzeroPort (e : Prog.Event DispatchOp DispatchOp.Res Exn) : Prop :=
  ∀ p : ℤ, e = ⟨.findAvailablePort, .ok p⟩ → p ≠ 0

section Transfers

variable {J : DispatchLog → Prop} {regs : List Dict} {cfg : Config} {request : Dict}

/-- The setting of a thread, and that of its transfer. -/
abbrev threadSetting (J : DispatchLog → Prop) : Setting DispatchOp DispatchOp.Res Exn DispatchLog :=
  Setting.logging NonzeroPort J

abbrev transferSetting (J : DispatchLog → Prop) : Setting NodeOp NodeOp.Res Exn DispatchLog :=
  (threadSetting J).within DispatchOp.node fun _ r => r

theorem settled_transfer {A : DispatchLog → Prop} (hA : ∀ log, A log → J log) :
    (transferSetting J).Settled A :=
  ⟨fun _ _ _ h => h.elim, hA⟩

/-- Another operation. -/
theorem waiting_append {log : DispatchLog} {e : Prog.Event DispatchOp DispatchOp.Res Exn}
    (h : Waiting regs log) (hr : registered? e.1 = none) (hu : unregistered? e.1 = none) :
    Waiting regs (log ++ [e]) := by
  refine ⟨?_, ?_⟩
  · rw [registersOf_append, hr, h.1]
    exact List.append_nil regs
  · rw [unregistersOf_append, hu, h.2]
    rfl

/-- The operations of a transfer before `unregister`. -/
theorem bodyOp_none {o : NodeOp} (h : BodyOp cfg request o) :
    registered? (.node o) = none ∧ unregistered? (.node o) = none := by
  cases o with
  | ledgerRegister entry => exact h.elim
  | ledgerUnregister entry => exact h.elim
  | _ => exact ⟨rfl, rfl⟩

/-- What a transfer does before `unregister`. -/
theorem spec_body_bind (cfg : Config) {α β : Type} {p : Node α} {f : α → Node β}
    {B : β → DispatchLog → Prop} (hwaiting : ∀ log, Waiting regs log → J log) (hp : p.Only (BodyOp cfg request))
    (hf : ∀ a, (transferSetting J).Spec (Waiting regs) (f a) B
      fun log => Waiting regs log ∨ Released regs request log) :
    (transferSetting J).Spec (Waiting regs) (p.bind f) B
      fun log => Waiting regs log ∨ Released regs request log := by
  have hkept : (transferSetting J).Spec (Waiting regs) p (fun _ => Waiting regs) (Waiting regs) := by
    refine Setting.spec_kept (settled_transfer hwaiting) ?_ hp
    rintro o log r log' ho hlog ⟨r', rfl, rfl, -⟩
    obtain ⟨hr, hu⟩ := bodyOp_none ho
    exact ⟨trivial, waiting_append hlog hr hu⟩
  refine Setting.spec_bind (B := fun _ => Waiting regs) ?_ hf
  exact Setting.spec_mono (fun _ h => h) (fun _ _ h => h) (fun _ h => Or.inl h) hkept

/-- The last statement of both transfers. -/
theorem spec_unregister_last (hwaiting : ∀ log, Waiting regs log → J log)
    (hreleased : ∀ log, Released regs request log → J log) :
    (transferSetting J).Spec (Waiting regs)
      ((op (.ledgerUnregister request)).bind fun _ => .ret ()) (fun _ => Released regs request)
      (Released regs request) := by
  have hend : ∀ log r, Waiting regs log →
      Released regs request (log ++ [⟨.node (.ledgerUnregister request), r⟩]) := by
    intro log r h
    refine ⟨?_, ?_⟩
    · rw [registersOf_append, h.1]
      exact List.append_nil regs
    · rw [unregistersOf_append, h.2]
      rfl
  refine Setting.spec_bind (B := fun _ => Released regs request) ?_ fun _ => ?_
  · refine Setting.spec_perform (settled_transfer hwaiting) (fun _ => settled_transfer hreleased)
      (settled_transfer hreleased) ?_
    rintro log r log' hlog ⟨_, rfl, rfl, -⟩
    refine ⟨trivial, ?_⟩
    cases r with
    | ok b => exact hend log _ hlog
    | error e => exact hend log _ hlog
  · exact Setting.spec_ret (settled_transfer hreleased) fun _ h => h

/-- **`receive_data`** unregisters its request at its end. -/
theorem spec_receiveData (fuel : ℕ) (hwaiting : ∀ log, Waiting regs log → J log)
    (hreleased : ∀ log, Released regs request log → J log) :
    (transferSetting J).Spec (Waiting regs) (FragmentReceiver.receiveData cfg fuel request)
      (fun _ => Released regs request) fun log => Waiting regs log ∨ Released regs request log := by
  have hsettled := settled_transfer hwaiting
  refine spec_body_bind cfg hwaiting (Prog.only_perform trivial) fun present => ?_
  refine spec_body_bind cfg hwaiting ?_ fun _ => ?_
  · split
    · trivial
    · exact Prog.only_perform trivial
  refine Setting.spec_ofExcept_bind hsettled (fun _ _ _ h => Or.inl h) fun shardId hid => ?_
  refine Setting.spec_ofExcept_bind hsettled (fun _ _ _ h => Or.inl h) fun shardPath hjoin => ?_
  have hpath := ownPath_of_join hid hjoin
  refine Setting.spec_ofExcept_bind hsettled (fun _ _ _ h => Or.inl h) fun port hport => ?_
  refine spec_body_bind cfg hwaiting (only_openSocket hport) fun _ => ?_
  refine spec_body_bind cfg hwaiting only_emitStartSignal fun _ => ?_
  refine spec_body_bind cfg hwaiting (only_openShardFile hpath) fun fh => ?_
  refine spec_body_bind cfg hwaiting (only_configureTimeouts _ _) fun _ => ?_
  refine spec_body_bind cfg hwaiting (only_receivePasses fuel fh hport hpath) fun r => ?_
  obtain ⟨completed, fh'⟩ := r
  refine spec_body_bind cfg hwaiting (Prog.only_perform trivial) fun _ => ?_
  refine spec_body_bind cfg hwaiting only_close fun _ => ?_
  refine spec_body_bind cfg hwaiting ?_ fun _ => ?_
  · split
    · exact Prog.only_perform trivial
    · trivial
  refine spec_body_bind cfg hwaiting (only_closeRouterPort hport) fun _ => ?_
  exact Setting.spec_mono (fun _ h => h) (fun _ _ h => h) (fun _ h => Or.inr h)
    (spec_unregister_last hwaiting hreleased)

/-- **`send_data`** does so as well, unless the shard is missing. -/
theorem spec_sendData (fuel : ℕ) (isNew : Bool) (hwaiting : ∀ log, Waiting regs log → J log)
    (hreleased : ∀ log, Released regs request log → J log) :
    (transferSetting J).Spec (Waiting regs) (FragmentSender.sendData cfg fuel request isNew)
      (fun _ log => Released regs request log ∨ Waiting regs log ∧ ShardMissing log)
      fun log => Waiting regs log ∨ Released regs request log := by
  have hsettled := settled_transfer hwaiting
  refine Setting.spec_ofExcept_bind hsettled (fun _ _ _ h => Or.inl h) fun shardId hid => ?_
  refine Setting.spec_ofExcept_bind hsettled (fun _ _ _ h => Or.inl h) fun shardPath hjoin => ?_
  have hpath := ownPath_of_join hid hjoin
  refine Setting.spec_bind (B := fun found log => Waiting regs log ∧ (found = false → ShardMissing log))
    ?_ fun found => ?_
  · refine Setting.spec_perform hsettled (fun _ => settled_transfer fun log h => hwaiting log h.1)
      (settled_transfer fun log h => ?_) ?_
    · exact h.elim (hwaiting log) (hreleased log)
    · rintro log r log' hlog ⟨_, rfl, rfl, -⟩
      have hnext : Waiting regs (log ++ [⟨.node (.isFile shardPath), r⟩]) :=
        waiting_append hlog rfl rfl
      refine ⟨trivial, ?_⟩
      cases r with
      | error e => exact Or.inl hnext
      | ok found =>
          refine ⟨hnext, ?_⟩
          rintro rfl
          exact ⟨shardPath, List.mem_append_right _ List.mem_cons_self⟩
  cases found with
  | false =>
      refine Setting.spec_ret (settled_transfer fun log h => hwaiting log h.1) ?_
      exact fun log h => Or.inr ⟨h.1, h.2 rfl⟩
  | true =>
      refine Setting.spec_mono (A := Waiting regs) (fun _ h => h.1) (fun _ _ h => h) (fun _ h => h) ?_
      refine Setting.spec_ofExcept_bind hsettled (fun _ _ _ h => Or.inl h) fun port hport => ?_
      refine spec_body_bind cfg hwaiting (only_openSocket hport) fun _ => ?_
      refine spec_body_bind cfg hwaiting only_emitStartSignal fun _ => ?_
      refine spec_body_bind cfg hwaiting (Prog.only_perform hpath) fun fh => ?_
      refine spec_body_bind cfg hwaiting ?_ fun _ => ?_
      · split
        · trivial
        · exact only_negotiateResumePoint fh
      refine spec_body_bind cfg hwaiting (only_configureTimeouts _ _) fun _ => ?_
      refine spec_body_bind cfg hwaiting (only_transmitPasses fuel fh hport) fun _ => ?_
      refine spec_body_bind cfg hwaiting (Prog.only_perform trivial) fun _ => ?_
      refine spec_body_bind cfg hwaiting only_close fun _ => ?_
      refine spec_body_bind cfg hwaiting (only_closeRouterPort hport) fun _ => ?_
      exact Setting.spec_mono (fun _ h => h) (fun _ _ h => Or.inl h) (fun _ h => Or.inr h)
        (spec_unregister_last hwaiting hreleased)

theorem startTransfer_upload (fuel : ℕ) (isNew : Bool)
    (htype : request.getItem "type" = .ok (.str "upload")) :
    startTransfer cfg fuel request isNew = (FragmentReceiver.receiveData cfg fuel request).run := by
  have hupload : (Json.str "upload" == .str "upload") = true := by decide
  simp only [startTransfer, htype, Prog.bind_eq, Prog.ofExcept, Prog.bind, if_pos hupload]

theorem startTransfer_download (fuel : ℕ) (isNew : Bool)
    (htype : request.getItem "type" = .ok (.str "download")) :
    startTransfer cfg fuel request isNew =
      (FragmentSender.sendData cfg fuel request isNew).run := by
  have hupload : ¬ (Json.str "download" == .str "upload") = true := by decide
  have hdownload : (Json.str "download" == .str "download") = true := by decide
  simp only [startTransfer, htype, Prog.bind_eq, Prog.ofExcept, Prog.bind, if_neg hupload,
    if_pos hdownload]

/-- **The end of `dispatch`.** -/
theorem spec_startTransfer (cfg : Config) (fuel : ℕ) (isNew : Bool) (htransfer : IsTransfer request)
    (hwaiting : ∀ log, Waiting regs log → J log)
    (hreleased : ∀ log, Released regs request log → J log) :
    (threadSetting J).Spec (Waiting regs) (startTransfer cfg fuel request isNew)
      (fun _ log => Released regs request log ∨
        request.getItem "type" = .ok (.str "download") ∧ ShardMissing log)
      fun log => Waiting regs log ∨ Released regs request log := by
  rcases htransfer with htype | htype
  · rw [startTransfer_upload fuel isNew htype]
    exact Setting.spec_mono (fun _ h => h) (fun _ _ h => Or.inl h) (fun _ h => h)
      (Setting.spec_inject (spec_receiveData fuel hwaiting hreleased))
  · rw [startTransfer_download fuel isNew htype]
    refine Setting.spec_mono (fun _ h => h) (fun _ _ h => ?_) (fun _ h => h)
      (Setting.spec_inject (spec_sendData fuel isNew hwaiting hreleased))
    exact h.imp id fun h => ⟨htype, h.2⟩

end Transfers

/-! ## A request with a port -/

section Recovered

variable {cfg : Config} {hexdigest : Bytes → String} {request : Dict} {port : Json}

/-- The log of a request with a port. -/
def RecoveredLog (request : Dict) (log : DispatchLog) : Prop :=
  Waiting [] log ∨ Released [] request log

/-- `dispatch` of an upload or a download. -/
theorem dispatch_transfer (fuel : ℕ) (connected : Bool) (htransfer : IsTransfer request)
    (hport : request.getItem "port" = .ok port) :
    dispatch cfg hexdigest fuel request connected =
      if port == .int 0 then
        (allocateTransferPort request connected).bind fun request =>
          startTransfer cfg fuel request true
      else startTransfer cfg fuel request false := by
  have haudit : ∀ type, request.getItem "type" = .ok type → (type == .str "audit") = false := by
    intro type h
    rcases htransfer with htype | htype
    · rw [htype, Except.ok.injEq] at h
      rw [← h]
      decide
    · rw [htype, Except.ok.injEq] at h
      rw [← h]
      decide
  obtain ⟨type, htype⟩ : ∃ type, request.getItem "type" = .ok type :=
    htransfer.elim (fun h => ⟨_, h⟩) fun h => ⟨_, h⟩
  simp only [dispatch, htype, haudit type htype, hport, Prog.bind_eq, Prog.ofExcept, Prog.bind,
    Bool.false_eq_true, if_false]

/-- **A request with a port** is not registered, and unregistered once. -/
theorem spec_dispatch_recovered (fuel : ℕ) (connected : Bool) (htransfer : IsTransfer request)
    (hport : request.getItem "port" = .ok port) (hne : (port == .int 0) = false) :
    (threadSetting (RecoveredLog request)).Spec (Waiting [])
      (dispatch cfg hexdigest fuel request connected)
      (fun _ log => Released [] request log ∨
        request.getItem "type" = .ok (.str "download") ∧ ShardMissing log)
      (RecoveredLog request) := by
  rw [dispatch_transfer fuel connected htransfer hport, hne]
  exact spec_startTransfer cfg fuel false htransfer (fun _ h => Or.inl h) fun _ h => Or.inr h

end Recovered

/-! ## A request without a port -/

section New

variable {cfg : Config} {hexdigest : Bytes → String} {request : Dict} {port : Json}

/-- The request with the port it is given. -/
def withPort (p : ℤ) (request : Dict) : Dict := Dict.set "port" (.int p) request

/-- The log of a request without a port: the port it is given is not 0. -/
def NewLog (request : Dict) (log : DispatchLog) : Prop :=
  Waiting [] log ∨ ∃ p : ℤ, p ≠ 0 ∧
    (Waiting [withPort p request] log ∨ Released [withPort p request] (withPort p request) log)

theorem getItem_withPort {p : ℤ} {key : PyStr} (h : key ≠ "port") :
    (withPort p request).getItem key = request.getItem key := by
  unfold withPort Dict.getItem
  rw [Dict.get?_set_of_ne h]

theorem isTransfer_withPort (p : ℤ) (h : IsTransfer request) : IsTransfer (withPort p request) := by
  rw [IsTransfer, getItem_withPort (by decide)]
  exact h

/-- **A request without a port** is registered once, with the port it is given, and then
unregistered once. -/
theorem spec_dispatch_new (fuel : ℕ) (connected : Bool) (htransfer : IsTransfer request)
    (hport : request.getItem "port" = .ok port) (hzero : (port == .int 0) = true) :
    (threadSetting (NewLog request)).Spec (Waiting [])
      (dispatch cfg hexdigest fuel request connected)
      (fun _ log => (∃ p : ℤ, Released [withPort p request] (withPort p request) log) ∨
        request.getItem "type" = .ok (.str "download") ∧ ShardMissing log)
      (NewLog request) := by
  have hsettled : ∀ {A : DispatchLog → Prop}, (∀ log, A log → NewLog request log) →
      (threadSetting (NewLog request)).Settled A := fun h => Setting.settled_logging h
  have hself : ∀ log, NewLog request log → NewLog request log := fun _ h => h
  have hempty : ∀ log, Waiting [] log → NewLog request log := fun _ h => Or.inl h
  have hwait : ∀ (p : ℤ), p ≠ 0 → ∀ log, Waiting [withPort p request] log → NewLog request log :=
    fun p hp _ h => Or.inr ⟨p, hp, Or.inl h⟩
  have hrel : ∀ (p : ℤ), p ≠ 0 → ∀ log,
      Released [withPort p request] (withPort p request) log → NewLog request log :=
    fun p hp _ h => Or.inr ⟨p, hp, Or.inr h⟩
  rw [dispatch_transfer fuel connected htransfer hport, if_pos hzero]
  refine Setting.spec_bind (B := fun request' log => ∃ p : ℤ, p ≠ 0 ∧ request' = withPort p request ∧
    Waiting [withPort p request] log) ?_ fun request' => ?_
  · refine Setting.spec_bind (B := fun p log => p ≠ 0 ∧ Waiting [] log) ?_ fun p => ?_
    · refine Setting.spec_log hempty (fun _ _ h => hempty _ h.2) hself ?_ ?_
      · exact fun log p h hp => ⟨hp p rfl, waiting_append h rfl rfl⟩
      · exact fun log e h _ => hempty _ (waiting_append h rfl rfl)
    refine Setting.spec_pure fun hp => ?_
    refine Setting.spec_bind (B := fun _ => Waiting [withPort p request]) ?_ fun registered => ?_
    · have happ : ∀ log r, Waiting [] log → Waiting [withPort p request]
          (log ++ [⟨.node (.ledgerRegister (withPort p request)), r⟩]) := by
        intro log r h
        refine ⟨?_, ?_⟩
        · rw [registersOf_append, h.1]
          rfl
        · rw [unregistersOf_append, h.2]
          rfl
      exact Setting.spec_log hempty (fun _ => hwait p hp) hself (fun log _ h _ => happ log _ h)
        fun log _ h _ => hwait p hp _ (happ log _ h)
    refine Setting.spec_bind (B := fun _ => Waiting [withPort p request]) ?_ fun _ => ?_
    · split
      · exact Setting.spec_log (hwait p hp) (fun _ => hwait p hp) hself
          (fun log _ h _ => waiting_append h rfl rfl)
          fun log _ h _ => hwait p hp _ (waiting_append h rfl rfl)
      · exact Setting.spec_ret (hsettled (hwait p hp)) fun _ h => h
    exact Setting.spec_ret (hsettled (hwait p hp)) fun _ h => ⟨p, hp, rfl, h⟩
  · refine Setting.spec_exists fun p => ?_
    refine Setting.spec_pure fun hp => Setting.spec_pure fun heq => ?_
    subst heq
    refine Setting.spec_mono (fun _ h => h) ?_ ?_
      (spec_startTransfer cfg fuel true (isTransfer_withPort p htransfer) (hwait p hp) (hrel p hp))
    · rintro _ log (h | ⟨hdown, h⟩)
      · exact Or.inl ⟨p, h⟩
      · rw [getItem_withPort (by decide)] at hdown
        exact Or.inr ⟨hdown, h⟩
    · exact fun log h => h.elim (hwait p hp log) (hrel p hp log)

end New

/-! ## The next call -/

section NextCall

variable {request entry : Dict} {log : DispatchLog} {r : Except Exn Bool}

theorem registersOf_register : registersOf (log ++ [⟨.node (.ledgerRegister entry), r⟩]) =
    registersOf log ++ [entry] :=
  registersOf_append

theorem unregistersOf_unregister : unregistersOf (log ++ [⟨.node (.ledgerUnregister entry), r⟩]) =
    unregistersOf log ++ [entry] :=
  unregistersOf_append

/-- A request with a port is not registered. -/
theorem RecoveredLog.registers (h : RecoveredLog request log) : registersOf log = [] :=
  h.elim And.left And.left

/-- It is unregistered when it has not been before. -/
theorem RecoveredLog.unregister
    (h : RecoveredLog request (log ++ [⟨.node (.ledgerUnregister entry), r⟩])) :
    entry = request ∧ unregistersOf log = [] := by
  rcases h with ⟨-, h⟩ | ⟨-, h⟩
  · rw [unregistersOf_unregister] at h
    exact absurd h (List.append_ne_nil_of_right_ne_nil _ (List.cons_ne_nil _ _))
  · rw [unregistersOf_unregister] at h
    obtain ⟨hnil, heq⟩ := List.append_singleton_inj.mp (h.trans (List.nil_append _).symm)
    exact ⟨heq, hnil⟩

/-- A request without a port is registered when neither call has been made. -/
theorem NewLog.register (h : NewLog request log)
    (h' : NewLog request (log ++ [⟨.node (.ledgerRegister entry), r⟩])) :
    Waiting [] log ∧ ∃ p : ℤ, p ≠ 0 ∧ entry = withPort p request := by
  obtain ⟨p, hp, hregs⟩ : ∃ p : ℤ, p ≠ 0 ∧
      registersOf (log ++ [⟨.node (.ledgerRegister entry), r⟩]) = [withPort p request] := by
    rcases h' with ⟨h', -⟩ | ⟨p, hp, h' | h'⟩
    · rw [registersOf_register] at h'
      exact absurd h' (List.append_ne_nil_of_right_ne_nil _ (List.cons_ne_nil _ _))
    · exact ⟨p, hp, h'.1⟩
    · exact ⟨p, hp, h'.1⟩
  rw [registersOf_register] at hregs
  obtain ⟨hnil, heq⟩ := List.append_singleton_inj.mp (hregs.trans (List.nil_append _).symm)
  refine ⟨?_, p, hp, heq⟩
  rcases h with h | ⟨q, -, h | h⟩
  · exact h
  · exact absurd (hnil.symm.trans h.1) (List.cons_ne_nil _ _).symm
  · exact absurd (hnil.symm.trans h.1) (List.cons_ne_nil _ _).symm

/-- It is unregistered when it has been registered and not unregistered. -/
theorem NewLog.unregister
    (h : NewLog request (log ++ [⟨.node (.ledgerUnregister entry), r⟩])) :
    Waiting [entry] log ∧ ∃ p : ℤ, p ≠ 0 ∧ entry = withPort p request := by
  have hne : unregistersOf (log ++ [⟨.node (.ledgerUnregister entry), r⟩]) ≠ [] := by
    rw [unregistersOf_unregister]
    exact List.append_ne_nil_of_right_ne_nil _ (List.cons_ne_nil _ _)
  have hregs : registersOf (log ++ [⟨.node (.ledgerUnregister entry), r⟩]) = registersOf log := by
    rw [registersOf_append]
    exact List.append_nil _
  rcases h with h | ⟨p, hp, h | ⟨hreg, hunreg⟩⟩
  · exact absurd h.2 hne
  · exact absurd h.2 hne
  · rw [unregistersOf_unregister] at hunreg
    obtain ⟨hnil, rfl⟩ := List.append_singleton_inj.mp (hunreg.trans (List.nil_append _).symm)
    exact ⟨⟨hregs.symm.trans hreg, hnil⟩, p, hp, rfl⟩

end NextCall
