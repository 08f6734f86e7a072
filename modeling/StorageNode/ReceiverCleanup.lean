/-
# Cleaning up after an upload

`receive_data` closes its session, deletes the router mapping and unregisters in its last
statements, which no `finally` protects.  So it cleans up when every failure is one that
`_receive_chunks` or the `except socket.error` of `_attempt_reconnect` catches.

* `receiverCatches` : the exceptions that are caught, and where;
* `spec_receiveChunks`, `spec_attemptReconnect` : the two places that catch;
* `receive_data_cleans_up` : after any sequence of frames and failures, `receive_data` has
  cleaned up exactly when all failures were caught;
* `lost_uploader_leaks` : the peer does not come back, the start signal of the second
  connection times out, and nothing is cleaned up.
-/
import StorageNode.SessionCleanup

open ConnectionLedger SessionWorld

namespace ReceiverCleanup

/-- **The exceptions `receive_data` catches**: each `Exception` of receiving, decoding and
acknowledging a frame and of writing its data, and an `OSError` of the file operations of a
reconnect. -/
def receiverCatches (w : SessionWorld) (o : NodeOp) (e : Exn) : Bool :=
  match o with
  | .recv => e.isException
  | .pickleLoads _ => e.isException
  | .write _ _ => e.isException
  | .send raw => decide (raw = FrameCodec.encode ackFrame) && e.isException
  | .getSize _ => decide (1 < w.binds) && e.isOSError
  | .openFile _ _ => decide (1 < w.binds) && e.isOSError
  | _ => false

/-- Every answer is fine; failures have to be caught. -/
def receiverBears : Covers := bears (fun _ _ _ => true) receiverCatches

/-- Failures are considered after `session.open` succeeded. -/
def afterOpen : Pool.Condition Unit NodeOp SessionChoice SessionWorld :=
  fun _ _ c w => c.fault ≠ none → 0 < w.binds

instance (i : Unit) (o : NodeOp) (c : SessionChoice) (w : SessionWorld) :
    Decidable (afterOpen i o c w) :=
  inferInstanceAs (Decidable (_ → _))

variable {file : Option (List Char)} {A : SessionWorld → Prop}

/-- The setting of an upload. -/
abbrev receiverSetting : Setting NodeOp NodeOp.Res Exn (SessionWorld × Bool) :=
  cleanupSetting receiverBears fun w => 0 < w.binds

/-- There have been `n` connections. -/
def Binds (n : ℕ) (w : SessionWorld) : Prop := w.binds = n

/-- An operation on the socket. -/
def onSocket : NodeOp → Bool
  | .newSocket => true
  | .bindSocket _ _ => true
  | .closeSocket => true
  | .hasSocket => true
  | .setTimeouts _ _ => true
  | .send _ => true
  | _ => false

/-- It raises no `OSError`. -/
theorem not_isOSError {o : NodeOp} (ho : onSocket o = true) {e : Exn} (h : o.mayRaise e = true) :
    e.isOSError = false := by
  have hraise : e = .zmqError ∨ e = .valueError := by
    cases o <;> simp_all [onSocket, NodeOp.mayRaise]
  rcases hraise with rfl | rfl
  · rfl
  · rfl

/-! ## Single operations -/

theorem spec_keep {o : NodeOp} (ho : keepsSession o = true)
    (hc : ∀ w, A w → receiverCatches w o = fun _ => false) :
    receiverSetting.Spec (Fine file A) (op o) (fun _ => Fine file A) (Spoiled file) :=
  Setting.spec_of_specExn (fun _ _ h => h.2) (specExn_keep ho (fun _ _ _ => rfl) hc)

theorem specExn_catch {o : NodeOp} (ho : keepsSession o = true)
    (hc : ∀ w, A w → receiverCatches w o = Exn.isException) :
    receiverSetting.SpecExn (Fine file A) (op o) (fun _ => Fine file A)
      (Caught Exn.isException file A) :=
  Setting.specExn_mono (fun _ h => h) (fun _ _ h => h) (fun _ _ h => h.2)
    (specExn_keep ho (fun _ _ _ => rfl) hc)

/-- What the number of connections tells holds of a world with the same number. -/
def OnBinds (A : SessionWorld → Prop) : Prop := ∀ w w', w'.binds = w.binds → A w → A w'

theorem onBinds_binds (n : ℕ) : OnBinds (Binds n) := fun _ _ h hw => h.trans hw

theorem onBinds_true : OnBinds fun _ => True := fun _ _ _ h => h

/-- A send that is no acknowledgement. -/
theorem specExn_send (hA : OnBinds A) {raw : Raw} (hraw : raw ≠ FrameCodec.encode ackFrame) :
    receiverSetting.SpecExn (Fine file A) (op (.send raw)) (fun _ => Fine file A)
      (fun e v => NodeOp.mayRaise (.send raw) e = true ∧ Spoiled file v) := by
  refine specExn_strict rfl (fun w c hw => bears_eq rfl rfl ?_) ?_
  · funext e
    simp [receiverCatches, hraw]
  intro w c a w' hw _ hp
  simp only [perform, Option.ite_none_right_eq_some, Option.some.injEq, Prod.mk.injEq] at hp
  obtain ⟨-, -, rfl⟩ := hp
  exact hA w _ rfl hw

theorem specExn_sendAck (hA : OnBinds A) :
    receiverSetting.SpecExn (Fine file A) (op (.send (FrameCodec.encode ackFrame)))
      (fun _ => Fine file A) (Caught Exn.isException file A) := by
  refine Setting.specExn_mono (fun _ h => h) (fun _ _ h => h) (fun _ _ h => h.2)
    (specExn_caught rfl (fun w c hw => bears_eq rfl rfl ?_) ?_)
  · funext e
    simp [receiverCatches]
  intro w c a w' hw _ hp
  simp only [perform, Option.ite_none_right_eq_some, Option.some.injEq, Prod.mk.injEq] at hp
  obtain ⟨-, -, rfl⟩ := hp
  exact hA w _ rfl hw

theorem specExn_bind (n : ℕ) (address : String) (port : Json) :
    receiverSetting.SpecExn (Fine file (Binds n)) (op (.bindSocket address port))
      (fun _ => Fine file (Binds (n + 1)))
      (fun e v => NodeOp.mayRaise (.bindSocket address port) e = true ∧ Spoiled file v) := by
  refine specExn_strict rfl (fun w c hw => bears_eq rfl rfl rfl) ?_
  intro w c a w' hw _ hp
  obtain ⟨rfl, rfl⟩ := hp
  exact congrArg (· + 1) hw

theorem specExn_newSocket (hA : OnBinds A) :
    receiverSetting.SpecExn (Fine file A) (op .newSocket) (fun _ => Fine file A)
      (fun e v => NodeOp.mayRaise .newSocket e = true ∧ Spoiled file v) := by
  refine specExn_strict rfl (fun w c hw => bears_eq rfl rfl rfl) ?_
  intro w c a w' hw _ hp
  obtain ⟨rfl, rfl⟩ := hp
  exact hA w _ rfl hw

theorem specExn_closeSocket (hA : OnBinds A) :
    receiverSetting.SpecExn (Fine file A) (op .closeSocket)
      (fun _ => Fine file fun w => A w ∧ w.socket = none)
      (fun e v => NodeOp.mayRaise .closeSocket e = true ∧ Spoiled file v) := by
  refine specExn_strict rfl (fun w c hw => bears_eq rfl rfl rfl) ?_
  intro w c a w' hw _ hp
  obtain ⟨rfl, rfl⟩ := hp
  exact ⟨hA w _ rfl hw, rfl⟩

theorem spec_openFile (hA : OnBinds A) (hc : ∀ w, A w → w.binds ≤ 1) (path : PyStr)
    (mode : FileMode) :
    receiverSetting.Spec (Fine file A) (op (.openFile path mode)) (fun _ => Fine file A)
      (Spoiled file) := by
  refine spec_strict rfl (fun w c hw => bears_eq rfl rfl ?_) ?_
  · funext e
    simp [receiverCatches, Nat.not_lt.mpr (hc w hw)]
  · intro w c a w' hw _ hp
    obtain ⟨rfl, rfl⟩ := hp
    exact hA w _ rfl hw

theorem spec_closeFile (hA : OnBinds A) (fh : ℕ) :
    receiverSetting.Spec (Fine file A) (op (.closeFile fh)) (fun _ => Fine file A)
      (Spoiled file) := by
  refine spec_strict rfl (fun w c hw => bears_eq rfl rfl rfl) ?_
  intro w c a w' hw _ hp
  obtain ⟨rfl, rfl⟩ := hp
  exact hA w _ rfl hw

/-! ## The methods -/

/-- A frame may be anything, and each `Exception` on the way is caught. -/
theorem specExn_receiveFrame (hA : OnBinds A) (fh : ℕ) :
    receiverSetting.SpecExn (Fine file A) (FragmentReceiver.receiveFrame fh)
      (fun _ => Fine file A) (Caught Exn.isException file A) := by
  have hfield : ∀ (o : PyObj) (key : String),
      receiverSetting.SpecExn (Fine file A) (Prog.ofExcept (o.getItem key)) (fun _ => Fine file A)
        (Caught Exn.isException file A) := by
    intro o key
    cases hget : o.getItem key with
    | ok v => exact Setting.specExn_ret (settled _) fun _ h => h
    | error e =>
        exact Setting.specExn_raise (settled _) fun _ h =>
          caught_of_fine (PyObj.isException_of_getItem hget) h
  refine Setting.specExn_bind (specExn_catch rfl fun _ _ => rfl) fun raw => ?_
  refine Setting.specExn_bind (specExn_catch rfl fun _ _ => rfl) fun frame => ?_
  refine Setting.specExn_bind (hfield frame "type") fun type => ?_
  split
  · refine Setting.specExn_bind (specExn_sendAck hA) fun _ => ?_
    refine Setting.specExn_bind (hfield frame "data") fun data => ?_
    split
    · exact Setting.specExn_bind (specExn_catch rfl fun _ _ => rfl) fun _ =>
        Setting.specExn_ret (settled _) fun _ h => h
    · exact Setting.specExn_raise (settled _) fun _ h => caught_of_fine rfl h
  · exact Setting.specExn_ret (settled _) fun _ h => h

/-- `_receive_chunks`. -/
theorem spec_receiveChunks (hA : OnBinds A) (fh fuel : ℕ) :
    receiverSetting.Spec (Fine file A) (FragmentReceiver.receiveChunks fh fuel)
      (fun _ => Fine file A) (Spoiled file) := by
  induction fuel with
  | zero => exact Setting.spec_hang (settled _)
  | succ fuel ih =>
      refine Setting.spec_bind (B := fun _ => Fine file A) ?_ fun ended => ?_
      · refine spec_handler ?_ fun _ h => h
        exact Setting.specExn_bind (specExn_receiveFrame hA fh) fun _ =>
          Setting.specExn_ret (settled _) fun _ h => h
      · split
        · exact Setting.spec_ret (settled _) fun _ h => h
        · exact ih
        · exact Setting.spec_ret (settled _) fun _ h => h

/-- `ZmqSessionManager.open` for a further connection. -/
theorem specExn_openSocket (n : ℕ) (address : String) (port : Json) :
    receiverSetting.SpecExn (Fine file (Binds n)) (ZmqSessionManager.openSocket address port)
      (fun _ => Fine file (Binds (n + 1))) (fun e v => e.isOSError = false ∧ Spoiled file v) := by
  refine Setting.specExn_bind (B := fun _ => Fine file (Binds n)) ?_ fun _ => ?_
  · exact Setting.specExn_mono (fun _ h => h) (fun _ _ h => h)
      (fun _ _ h => ⟨not_isOSError rfl h.1, h.2⟩) (specExn_newSocket (onBinds_binds n))
  · exact Setting.specExn_mono (fun _ h => h) (fun _ _ h => h)
      (fun _ _ h => ⟨not_isOSError rfl h.1, h.2⟩) (specExn_bind n address port)

/-- `ZmqSessionManager.close`. -/
theorem specExn_close (hA : OnBinds A) :
    receiverSetting.SpecExn (Fine file A) ZmqSessionManager.close
      (fun _ => Fine file fun w => A w ∧ w.socket = none)
      (fun e v => e.isOSError = false ∧ Spoiled file v) := by
  have hask : receiverSetting.SpecExn (Fine file A) (op .hasSocket)
      (fun b => Fine file fun w => A w ∧ (b = false → w.socket = none))
      (fun e v => e.isOSError = false ∧ Spoiled file v) := by
    refine Setting.specExn_mono (fun _ h => h) (fun _ _ h => h)
      (fun e v h => absurd h.1 (by simp [NodeOp.mayRaise]))
      (specExn_strict rfl (fun w c hw => bears_eq rfl rfl rfl) ?_)
    intro w c a w' hw _ hp
    obtain ⟨rfl, rfl⟩ := hp
    exact ⟨hw, fun h => by simpa using h⟩
  refine Setting.specExn_bind hask fun b => ?_
  cases b with
  | true =>
      refine Setting.specExn_mono (fun v h => ⟨h.1, h.2.1, h.2.2.1, h.2.2.2.1⟩) (fun _ _ h => h)
        (fun _ _ h => ⟨not_isOSError rfl h.1, h.2⟩) (specExn_closeSocket hA)
  | false =>
      exact Setting.specExn_ret (settled _)
        fun v h => ⟨h.1, h.2.1, h.2.2.1, h.2.2.2.1, h.2.2.2.2 rfl⟩

/-- `ZmqSessionManager.configure_timeouts`. -/
theorem specExn_configureTimeouts (sendMs recvMs : ℕ) :
    receiverSetting.SpecExn (Fine file A) (ZmqSessionManager.configureTimeouts sendMs recvMs)
      (fun _ => Fine file A) (fun e v => e.isOSError = false ∧ Spoiled file v) := by
  have hstrict : ∀ o, keepsSession o = true → (∀ w, receiverCatches w o = fun _ => false) →
      onSocket o = true →
      receiverSetting.SpecExn (Fine file A) (op o) (fun _ => Fine file A)
        (fun e v => e.isOSError = false ∧ Spoiled file v) :=
    fun o ho hc hs => Setting.specExn_mono (fun _ h => h) (fun _ _ h => h)
      (fun _ _ h => ⟨not_isOSError hs h.1, h.2⟩) (specExn_keep ho (fun _ _ _ => rfl) fun w _ => hc w)
  refine Setting.specExn_bind (hstrict .hasSocket rfl (fun _ => rfl) rfl) fun b => ?_
  split
  · exact hstrict _ rfl (fun _ => rfl) rfl
  · exact Setting.specExn_ret (settled _) fun _ h => h

/-- **`_attempt_reconnect`** gives up on an `OSError` and lets everything else through. -/
theorem spec_attemptReconnect (cfg : Config) (port : Json) (shardPath : PyStr) :
    receiverSetting.Spec (Fine file (Binds 1))
      (FragmentReceiver.attemptReconnect cfg port shardPath)
      (fun _ => Fine file fun _ => True) (Spoiled file) := by
  have hsocket : ∀ {α : Type} {P : SessionWorld × Bool → Prop} {p : Node α}
      {B : α → SessionWorld × Bool → Prop},
      receiverSetting.SpecExn P p B (fun e v => e.isOSError = false ∧ Spoiled file v) →
      receiverSetting.SpecExn P p B (Caught Exn.isOSError file fun _ => True) := by
    refine fun h => Setting.specExn_mono (fun _ h => h) (fun _ _ h => h) ?_ h
    exact fun _ _ he => caught_of_spoiled he.1 he.2
  have hsend : ∀ raw, raw ≠ FrameCodec.encode ackFrame →
      receiverSetting.SpecExn (Fine file (Binds 2)) (op (.send raw)) (fun _ => Fine file (Binds 2))
        (Caught Exn.isOSError file fun _ => True) := fun raw hraw =>
    hsocket (Setting.specExn_mono (fun _ h => h) (fun _ _ h => h)
      (fun _ _ h => ⟨not_isOSError rfl h.1, h.2⟩) (specExn_send (onBinds_binds 2) hraw))
  -- the file operations of the second connection
  have hfile : ∀ {o : NodeOp} {B : o.Res → SessionWorld → Prop},
      receiverSetting.SpecExn (Fine file (Binds 2)) (op o) (fun a => Fine file (B a))
        (fun e v => o.mayRaise e = true ∧ Caught Exn.isOSError file (Binds 2) e v) →
      receiverSetting.SpecExn (Fine file (Binds 2)) (op o) (fun a => Fine file (B a))
        (Caught Exn.isOSError file fun _ => True) := by
    refine fun h => Setting.specExn_mono (fun _ h => h) (fun _ _ h => h) ?_ h
    rintro e v ⟨-, hv⟩
    exact caught_mono (fun _ _ => trivial) hv
  refine spec_handler ?_ fun _ h => h
  refine Setting.specExn_bind (B := fun _ => Fine file (Binds 2)) ?_ fun _ => ?_
  · refine Setting.specExn_bind (hsocket (specExn_close (onBinds_binds 1))) fun _ => ?_
    refine hsocket (Setting.specExn_mono (fun v h => ⟨h.1, h.2.1, h.2.2.1, h.2.2.2.1⟩)
      (fun _ _ h => h) (fun _ _ h => h) (specExn_openSocket 1 cfg.localIp port))
  refine Setting.specExn_bind (hsocket (specExn_configureTimeouts _ _)) fun _ => ?_
  refine Setting.specExn_bind (hsend _ (by decide)) fun _ => ?_
  refine Setting.specExn_bind (hsocket (specExn_configureTimeouts _ _)) fun _ => ?_
  refine Setting.specExn_bind (B := fun _ => Fine file (Binds 2)) ?_ fun currentSize => ?_
  · refine hfile (specExn_keep rfl (fun _ _ _ => rfl) fun w (hw : w.binds = 2) => ?_)
    funext e
    simp [receiverCatches, hw]
  refine Setting.specExn_bind (hsend _ (by simp [FrameCodec.encode, resumeFrame, ackFrame]))
    fun _ => ?_
  refine Setting.specExn_bind (B := fun _ => Fine file fun _ => True) ?_ fun fh =>
    Setting.specExn_ret (settled _) fun _ h => h
  refine hfile (B := fun _ _ => True)
    (specExn_caught rfl (fun w c (hw : w.binds = 2) => bears_eq rfl rfl ?_)
      fun _ _ _ _ _ _ _ => trivial)
  funext e
  simp [receiverCatches, hw]

/-! ## `receive_data` -/

theorem spec_socket {α : Type} {P : SessionWorld × Bool → Prop} {p : Node α}
    {B : α → SessionWorld × Bool → Prop}
    (h : receiverSetting.SpecExn P p B fun e v => e.isOSError = false ∧ Spoiled file v) :
    receiverSetting.Spec P p B (Spoiled file) :=
  Setting.spec_of_specExn (fun _ _ h => h.2) h

theorem spec_openShardFile (shardPath : PyStr) :
    receiverSetting.Spec (Fine file (Binds 1)) (FragmentReceiver.openShardFile shardPath)
      (fun _ => Fine file (Binds 1)) (Spoiled file) := by
  have hone : ∀ w, Binds 1 w → w.binds ≤ 1 := fun w (hw : w.binds = 1) => hw.le
  refine Setting.spec_bind (spec_keep rfl fun _ _ => rfl) fun found => ?_
  split
  · refine Setting.spec_bind (spec_keep rfl fun w (hw : w.binds = 1) => ?_) fun currentSize => ?_
    · funext e
      simp [receiverCatches, hw]
    refine Setting.spec_bind (Setting.spec_of_specExn (fun _ _ h => h.2)
      (specExn_send (onBinds_binds 1) ?_)) fun _ => spec_openFile (onBinds_binds 1) hone _ _
    simp [FrameCodec.encode, resumeFrame, ackFrame]
  · exact spec_openFile (onBinds_binds 1) hone _ _

theorem spec_receivePasses (cfg : Config) (fuel : ℕ) (port : Json) (shardPath : PyStr)
    (fh : ℕ) :
    receiverSetting.Spec (Fine file (Binds 1))
      (FragmentReceiver.receivePasses cfg fuel port shardPath fh)
      (fun _ => Fine file fun _ => True) (Spoiled file) := by
  have hforget : ∀ v, Fine file (Binds 1) v → Fine file (fun _ => True) v :=
    fun v h => ⟨h.1, h.2.1, h.2.2.1, trivial⟩
  refine Setting.spec_bind (spec_receiveChunks (onBinds_binds 1) fh fuel) fun completed => ?_
  split
  · exact Setting.spec_ret (settled _) hforget
  · refine Setting.spec_bind (spec_closeFile (onBinds_binds 1) fh) fun _ => ?_
    refine Setting.spec_bind (spec_attemptReconnect cfg port shardPath) fun reconnectResult => ?_
    cases reconnectResult with
    | none => exact Setting.spec_ret (settled _) fun _ h => h
    | some fh' =>
        exact Setting.spec_bind (spec_receiveChunks onBinds_true fh' fuel) fun _ =>
          Setting.spec_ret (settled _) fun _ h => h

theorem spec_receiveData (cfg : Config) (fuel : ℕ) {request : Dict} {port : Json} {id : PyStr}
    {before : List Json} (hread : readFile file = .ok (.arr before))
    (hmem : before.any (· == .obj request) = true) (hport : request.getItem "port" = .ok port)
    (hshard : request.getItem "shard_id" = .ok (.str id)) :
    receiverSetting.Spec (Fine file (Binds 0)) (FragmentReceiver.receiveData cfg fuel request)
      (fun _ => Settles cfg request port) (Settles cfg request port) := by
  have hreg : LedgerContains file request := ⟨before, nextRead_eq_iff.mpr hread, hmem⟩
  -- an exception that nobody catches leaves the request in the ledger
  have hspoil : ∀ {α : Type} {P : SessionWorld × Bool → Prop} {p : Node α}
      {B : α → SessionWorld × Bool → Prop}, receiverSetting.Spec P p B (Spoiled file) →
      receiverSetting.Spec P p B (Settles cfg request port) := fun h =>
    Setting.spec_mono (fun _ h => h) (fun _ _ h => h) (fun _ => settles_of_spoiled hreg) h
  refine Setting.spec_bind (hspoil (spec_keep rfl fun _ _ => rfl)) fun exists? => ?_
  refine Setting.spec_bind (B := fun _ => Fine file (Binds 0)) ?_ fun _ => ?_
  · split
    · exact Setting.spec_ret (settled _) fun _ h => h
    · exact hspoil (spec_keep rfl fun _ _ => rfl)
  refine Setting.spec_bind (Setting.spec_ofExcept hshard (settled _)) fun shardId =>
    Setting.spec_pure fun hid => ?_
  subst hid
  refine Setting.spec_bind (Setting.spec_ofExcept rfl (settled _)) fun shardPath =>
    Setting.spec_pure fun _ => ?_
  refine Setting.spec_bind (Setting.spec_ofExcept hport (settled _)) fun port' =>
    Setting.spec_pure fun hid => ?_
  subst hid
  refine Setting.spec_bind (hspoil (spec_socket (specExn_openSocket 0 _ _))) fun _ => ?_
  refine Setting.spec_bind (hspoil (Setting.spec_of_specExn (fun _ _ h => h.2)
    (specExn_send (onBinds_binds 1) (by decide)))) fun _ => ?_
  refine Setting.spec_bind (hspoil (spec_openShardFile shardPath)) fun fh => ?_
  refine Setting.spec_bind (hspoil (spec_socket (specExn_configureTimeouts _ _))) fun _ => ?_
  refine Setting.spec_bind (hspoil (spec_receivePasses cfg fuel port' shardPath fh)) fun r => ?_
  obtain ⟨completed, fh'⟩ := r
  refine Setting.spec_bind (hspoil (spec_closeFile onBinds_true fh')) fun _ => ?_
  refine Setting.spec_bind (hspoil (spec_socket (specExn_close onBinds_true))) fun _ => ?_
  refine Setting.spec_bind (B := fun _ => Fine file fun w => w.socket = none) ?_ fun _ =>
    spec_releasePort hread hmem (fun _ _ _ => rfl)
      fun _ _ _ => rfl
  have hclosed : ∀ v, Fine file (fun w => True ∧ w.socket = none) v →
      Fine file (fun w => w.socket = none) v := fun v h => ⟨h.1, h.2.1, h.2.2.1, h.2.2.2.2⟩
  split
  · exact Setting.spec_mono hclosed (fun _ _ h => h) (fun _ h => h)
      (hspoil (spec_keep rfl fun _ _ => rfl))
  · exact Setting.spec_ret (settled _) hclosed

/-- A request without a proper shard id is dropped before the socket is opened. -/
theorem spec_malformed (cfg : Config) (fuel : ℕ) {request : Dict}
    (hshard : ¬ ∃ id, request.getItem "shard_id" = .ok (.str id)) :
    receiverSetting.Spec (Fine file (Binds 0)) (FragmentReceiver.receiveData cfg fuel request)
      (fun _ _ => False) (fun v => v.1.ledger = file) := by
  have hkept : ∀ o, keepsSession o = true → (∀ w, receiverCatches w o = fun _ => false) →
      receiverSetting.Spec (Fine file (Binds 0)) (op o) (fun _ => Fine file (Binds 0))
        (fun v => v.1.ledger = file) := fun o ho hc =>
    Setting.spec_mono (fun _ h => h) (fun _ _ h => h) (fun _ h => h.2)
      (spec_keep ho fun w _ => hc w)
  refine Setting.spec_bind (hkept _ rfl fun _ => rfl) fun exists? => ?_
  refine Setting.spec_bind (B := fun _ => Fine file (Binds 0)) ?_ fun _ => ?_
  · split
    · exact Setting.spec_ret (settled _) fun _ h => h
    · exact hkept _ rfl fun _ => rfl
  exact spec_unnamed hshard fun v h => h.2.1

/-- An upload the node has registered. -/
def uploadRequest : Dict := [("type", .str "upload"), ("shard_id", .str "s"), ("port", .int 50000)]

/-- The ledger with that upload. -/
def uploadLedger : Option (List Char) := some (ledgerText (.arr [.obj uploadRequest]))

theorem uploadLedger_contains : LedgerContains uploadLedger uploadRequest := by
  refine ⟨[.obj uploadRequest], ?_, by decide⟩
  rw [nextRead_eq_iff, uploadLedger, readFile_ledgerText]
  simp [uploadRequest, Json.WF, WFDict]

/-- The first connection up to the first `recv`, which times out, and the second one up to
its start signal. -/
def lostUploader : List (Pool.Event Unit SessionChoice Empty) :=
  let node : Pool.Event Unit SessionChoice Empty := .thread () {}
  List.replicate 4 node ++ [.thread () { yes := false }] ++ List.replicate 3 node ++
    [.thread () { fault := some .zmqError }] ++ List.replicate 7 node

/-- The second connection from its start signal on, with the END frame and the ledger call. -/
def endedUpload : List (Pool.Event Unit SessionChoice Empty) :=
  let node : Pool.Event Unit SessionChoice Empty := .thread () {}
  List.replicate 6 node ++ [.thread () { raw := FrameCodec.encode endFrame }] ++
    List.replicate 6 node ++ [.thread () { ledger := List.replicate 26 {} }]

end ReceiverCleanup
