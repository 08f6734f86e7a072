/-
# Cleaning up after a download

`send_data` cleans up in its last statements, as `receive_data` does; here
`_transmit_chunks` and `_attempt_reconnect` catch every `Exception`, but a missing shard
returns early and the first connection up to its first chunk is not protected.

* `senderGuards`, `senderCatches`, `senderAccepts` : the operations inside a `try`, the
  exceptions that are caught, and the answers that do not end the transfer;
* `spec_transmitLoop`, `spec_attemptReconnect` : the two places that catch;
* `send_data_cleans_up` : for any shard file, frames and failures, `send_data` has cleaned up
  exactly when the shard was there, the first resume frame was proper and all failures were
  caught;
* `missing_shard_leaks` : a request for a shard that is not stored stays in the ledger.
-/
import StorageNode.SessionCleanup

open ConnectionLedger SessionWorld

namespace SenderCleanup

/-- A data frame has been sent on the current connection. -/
def dataSent (w : SessionWorld) : Bool := w.sent.any fun raw => raw.type? = some (.str "data")

/-- **The operations inside an `except Exception`**: those of a second connection, and on any
connection a data frame, the answer to it and the next chunk; of closing a socket, only the
one of a reconnect, when the file is still open. -/
def senderGuards (w : SessionWorld) : NodeOp → Bool
  | .newSocket => decide (0 < w.binds)
  | .bindSocket _ _ => decide (0 < w.binds)
  | .closeSocket => w.fileOpen
  | .setTimeouts _ _ => decide (1 < w.binds)
  | .send raw =>
      if raw.type? = some (.str "start") then decide (1 < w.binds)
      else decide (raw.type? = some (.str "data"))
  | .recv => decide (1 < w.binds) || dataSent w
  | .pickleLoads _ => decide (1 < w.binds) || dataSent w
  | .seek _ _ => decide (1 < w.binds)
  | .read _ _ => dataSent w
  | _ => false

/-- **The exceptions `send_data` catches.** -/
def senderCatches (w : SessionWorld) (o : NodeOp) (e : Exn) : Bool :=
  senderGuards w o && e.isException

/-- The frame has an offset in its `data` field. -/
def accepted (frame : PyObj) : Bool :=
  match frame.getItem "data" with
  | .ok data => data.offset.isOk
  | .error _ => false

/-- **The answers that do not end `send_data`**: the shard file is there, and a frame read on
the first connection before any chunk was sent has an offset in its `data` field. -/
def senderAccepts (w : SessionWorld) (o : NodeOp) (c : SessionChoice) : Bool :=
  match o with
  | .isFile _ => c.yes
  | .pickleLoads (.pickled frame) =>
      decide (1 < w.binds) || dataSent w || accepted frame
  | _ => true

def senderBears : Covers := bears senderAccepts senderCatches

theorem senderCatches_guarded {w : SessionWorld} {o : NodeOp} (h : senderGuards w o = true) :
    senderCatches w o = Exn.isException := by
  funext e
  rw [senderCatches, h, Bool.true_and]

theorem senderCatches_unguarded {w : SessionWorld} {o : NodeOp} (h : senderGuards w o = false) :
    senderCatches w o = fun _ => false := by
  funext e
  rw [senderCatches, h, Bool.false_and]

variable {file : Option (List Char)} {A : SessionWorld → Prop}

/-- The setting of a download. -/
abbrev senderSetting : Setting NodeOp NodeOp.Res Exn (SessionWorld × Bool) :=
  cleanupSetting senderBears fun _ => True

/-- `n` connections so far, and the shard file open or not. -/
def Conn (n : ℕ) (f : Bool) (w : SessionWorld) : Prop := w.binds = n ∧ w.fileOpen = f

/-- As `Conn`, and no chunk has been sent on the current connection. -/
def Fresh (n : ℕ) (f : Bool) (w : SessionWorld) : Prop :=
  w.binds = n ∧ w.fileOpen = f ∧ dataSent w = false

/-- As `Conn`, and a chunk has been sent on the current connection. -/
def Sent (n : ℕ) (w : SessionWorld) : Prop :=
  w.binds = n ∧ w.fileOpen = true ∧ dataSent w = true

theorem Fresh.conn {n : ℕ} {f : Bool} {w : SessionWorld} (h : Fresh n f w) : Conn n f w :=
  ⟨h.1, h.2.1⟩

theorem Sent.conn {n : ℕ} {w : SessionWorld} (h : Sent n w) : Conn n true w := ⟨h.1, h.2.1⟩

theorem fine_mono {B : SessionWorld → Prop} (h : ∀ w, A w → B w) {v : SessionWorld × Bool}
    (hv : Fine file A v) : Fine file B v :=
  ⟨hv.1, hv.2.1, hv.2.2.1, h v.1 hv.2.2.2⟩

/-! ## Single operations -/

theorem spec_keep {o : NodeOp} (ho : keepsSession o = true)
    (ha : ∀ w c, A w → senderAccepts w o c = true) (hg : ∀ w, A w → senderGuards w o = false) :
    senderSetting.Spec (Fine file A) (op o) (fun _ => Fine file A) (Spoiled file) :=
  Setting.spec_of_specExn (fun _ _ h => h.2)
    (specExn_keep ho ha fun w hw => senderCatches_unguarded (hg w hw))

theorem specExn_catch {o : NodeOp} (ho : keepsSession o = true)
    (ha : ∀ w c, A w → senderAccepts w o c = true) (hg : ∀ w, A w → senderGuards w o = true) :
    senderSetting.SpecExn (Fine file A) (op o) (fun _ => Fine file A)
      (Caught Exn.isException file A) :=
  Setting.specExn_mono (fun _ h => h) (fun _ _ h => h) (fun _ _ h => h.2)
    (specExn_keep ho ha fun w hw => senderCatches_guarded (hg w hw))

/-- An operation inside a `try` that changes the session. -/
theorem specExn_guarded {o : NodeOp} (ho : inSession o = true)
    {B : o.Res → SessionWorld → Prop} (ha : ∀ w c, A w → senderAccepts w o c = true)
    (hg : ∀ w, A w → senderGuards w o = true)
    (hB : ∀ w c a w', A w → c.fault = none → w.perform c o = some (.ok a, w') → B a w') :
    senderSetting.SpecExn (Fine file A) (op o) (fun a => Fine file (B a))
      (Caught Exn.isException file A) :=
  Setting.specExn_mono (fun _ h => h) (fun _ _ h => h) (fun _ _ h => h.2)
    (specExn_caught ho (fun w c hw => bears_eq ho (ha w c hw) (senderCatches_guarded (hg w hw))) hB)

/-- One outside every `try`. -/
theorem spec_unguarded {o : NodeOp} (ho : inSession o = true)
    {B : o.Res → SessionWorld → Prop} (ha : ∀ w c, A w → senderAccepts w o c = true)
    (hg : ∀ w, A w → senderGuards w o = false)
    (hB : ∀ w c a w', A w → c.fault = none → w.perform c o = some (.ok a, w') → B a w') :
    senderSetting.Spec (Fine file A) (op o) (fun a => Fine file (B a)) (Spoiled file) :=
  spec_strict ho (fun w c hw => bears_eq ho (ha w c hw) (senderCatches_unguarded (hg w hw))) hB

/-- Asking for the socket does not fail. -/
theorem specExn_hasSocket {E : Exn → SessionWorld × Bool → Prop} :
    senderSetting.SpecExn (Fine file A) (op .hasSocket)
      (fun b => Fine file fun w => A w ∧ (b = false → w.socket = none)) E := by
  refine Setting.specExn_mono (fun _ h => h) (fun _ _ h => h)
    (fun e w h => absurd h.1 (by simp [NodeOp.mayRaise]))
    (specExn_caught rfl (fun w c hw => bears_eq rfl rfl (senderCatches_unguarded rfl)) ?_)
  intro w c a w' hw _ hp
  obtain ⟨rfl, rfl⟩ := hp
  exact ⟨hw, fun h => by simpa using h⟩

theorem spec_hasSocket {E : SessionWorld × Bool → Prop} :
    senderSetting.Spec (Fine file A) (op .hasSocket)
      (fun b => Fine file fun w => A w ∧ (b = false → w.socket = none)) E :=
  Setting.spec_of_specExn (fun _ _ h => h) (specExn_hasSocket (E := fun _ => E))

/-- `if self._socket: ...`, when both branches lead to the same place. -/
theorem specExn_ifSocket {p q : Node Unit} {B : Unit → SessionWorld × Bool → Prop}
    {E : Exn → SessionWorld × Bool → Prop} (hp : senderSetting.SpecExn (Fine file A) p B E)
    (hq : senderSetting.SpecExn (Fine file A) q B E) :
    senderSetting.SpecExn (Fine file A) (op .hasSocket >>= fun b => if b then p else q) B E := by
  refine Setting.specExn_bind (B := fun _ => Fine file A) ?_ fun b => ?_
  · exact Setting.specExn_mono (fun _ h => h) (fun _ _ => fine_mono fun _ => And.left)
      (fun _ _ h => h) specExn_hasSocket
  · cases b with
    | true => exact hp
    | false => exact hq

theorem spec_ifSocket {p q : Node Unit} {B : Unit → SessionWorld × Bool → Prop}
    {E : SessionWorld × Bool → Prop} (hp : senderSetting.Spec (Fine file A) p B E)
    (hq : senderSetting.Spec (Fine file A) q B E) :
    senderSetting.Spec (Fine file A) (op .hasSocket >>= fun b => if b then p else q) B E :=
  Setting.spec_of_specExn (fun _ _ h => h)
    (specExn_ifSocket (Setting.specExn_of_spec hp) (Setting.specExn_of_spec hq))

/-- A chunk is sent; the failure of it is caught. -/
theorem specExn_sendChunk (n : ℕ) (chunk : Bytes) :
    senderSetting.SpecExn (Fine file (Conn n true))
      (op (.send (FrameCodec.encode (dataFrame chunk)))) (fun _ => Fine file (Sent n))
      (Caught Exn.isException file (Conn n true)) := by
  have htype : (FrameCodec.encode (dataFrame chunk)).type? = some (.str "data") := rfl
  refine specExn_guarded rfl (fun _ _ _ => rfl) (fun w hw => by simp [senderGuards, htype]) ?_
  intro w c a w' hw _ hp
  simp only [perform, Option.ite_none_right_eq_some, Option.some.injEq, Prod.mk.injEq] at hp
  obtain ⟨-, -, rfl⟩ := hp
  refine ⟨hw.1, hw.2, ?_⟩
  simp [dataSent, htype]

/-- The body of the loop of `_transmit_chunks`: the answer may be anything, and each
`Exception` is caught. -/
theorem specExn_transmitChunk (cfg : Config) (n fh : ℕ) (chunk : Bytes) :
    senderSetting.SpecExn (Fine file (Conn n true)) (FragmentSender.transmitChunk cfg fh chunk)
      (fun _ => Fine file (Conn n true)) (Caught Exn.isException file (Conn n true)) := by
  have hsent : ∀ o, keepsSession o = true → (∀ w c, Sent n w → senderAccepts w o c = true) →
      (∀ w, Sent n w → senderGuards w o = true) →
      senderSetting.SpecExn (Fine file (Sent n)) (op o) (fun _ => Fine file (Sent n))
        (Caught Exn.isException file (Conn n true)) := fun o ho ha hg =>
    Setting.specExn_mono (fun _ h => h) (fun _ _ h => h)
      (fun _ _ => caught_mono fun _ => Sent.conn) (specExn_catch ho ha hg)
  refine Setting.specExn_bind (specExn_sendChunk n chunk) fun _ => ?_
  refine Setting.specExn_bind (hsent .recv rfl (fun _ _ _ => rfl) fun w hw => ?_) fun ackRaw => ?_
  · simp [senderGuards, hw.2.2]
  refine Setting.specExn_bind (hsent (.pickleLoads ackRaw) rfl (fun w c hw => ?_) fun w hw => ?_)
    fun _ => ?_
  · cases ackRaw with
    | garbage => rfl
    | pickled frame => simp [senderAccepts, hw.2.2]
  · simp [senderGuards, hw.2.2]
  refine Setting.specExn_mono (fun _ h => h) (fun _ _ => fine_mono fun _ => Sent.conn)
    (fun _ _ h => h) (hsent (.read fh cfg.chunkSize) rfl (fun _ _ _ => rfl) fun w hw => ?_)
  exact hw.2.2

theorem spec_transmitLoop (cfg : Config) (n fh fuel : ℕ) (chunk : Bytes) :
    senderSetting.Spec (Fine file (Conn n true)) (FragmentSender.transmitLoop cfg fh fuel chunk)
      (fun _ => Fine file (Conn n true)) (Spoiled file) := by
  induction fuel generalizing chunk with
  | zero => exact Setting.spec_hang (settled _)
  | succ fuel ih =>
      rw [FragmentSender.transmitLoop]
      split
      · exact Setting.spec_ret (settled _) fun _ h => h
      · refine Setting.spec_bind (B := fun _ => Fine file (Conn n true)) ?_ fun next => ?_
        · refine spec_handler ?_ fun _ h => h
          exact Setting.specExn_bind (specExn_transmitChunk cfg n fh chunk) fun _ =>
            Setting.specExn_ret (settled _) fun _ h => h
        · cases next with
          | none => exact Setting.spec_ret (settled _) fun _ h => h
          | some chunk' => exact ih chunk'

/-- `_transmit_chunks`: the first read is outside the `try`. -/
theorem spec_transmitChunks (cfg : Config) (n fuel fh : ℕ) :
    senderSetting.Spec (Fine file (Fresh n true)) (FragmentSender.transmitChunks cfg fuel fh)
      (fun _ => Fine file (Conn n true)) (Spoiled file) := by
  refine Setting.spec_bind (spec_keep rfl (fun _ _ _ => rfl) fun w hw => hw.2.2) fun chunk => ?_
  exact Setting.spec_mono (fun _ => fine_mono fun _ => Fresh.conn) (fun _ _ h => h) (fun _ h => h)
    (spec_transmitLoop cfg n fh fuel chunk)

/-! ## The second connection -/

/-- The file is still open; nothing is known of the connections. -/
def FileOpen (w : SessionWorld) : Prop := w.fileOpen = true

theorem Conn.fileOpen {n : ℕ} {w : SessionWorld} (h : Conn n true w) : FileOpen w := h.2

theorem Fresh.fileOpen {n : ℕ} {w : SessionWorld} (h : Fresh n true w) : FileOpen w := h.2.1

/-- A failure that is caught while the file is open. -/
theorem specExn_open {α : Type} {p : Node α} {B : α → SessionWorld × Bool → Prop}
    (hA : ∀ w, A w → FileOpen w)
    (h : senderSetting.SpecExn (Fine file A) p B (Caught Exn.isException file A)) :
    senderSetting.SpecExn (Fine file A) p B (Caught Exn.isException file FileOpen) :=
  Setting.specExn_mono (fun _ h => h) (fun _ _ h => h) (fun _ _ => caught_mono hA) h

theorem specExn_reset (address : String) (port : Json) :
    senderSetting.SpecExn (Fine file (Conn 1 true)) (ZmqSessionManager.reset address port)
      (fun _ => Fine file (Fresh 2 true)) (Caught Exn.isException file FileOpen) := by
  have hbound : ∀ w, Conn 1 true w → decide (0 < w.binds) = true := by
    intro w hw
    simp [hw.1]
  refine Setting.specExn_bind (B := fun _ => Fine file (Conn 1 true)) ?_ fun _ => ?_
  · refine specExn_ifSocket ?_ (Setting.specExn_ret (settled _) fun _ h => h)
    refine specExn_open (fun _ h => h.2)
      (specExn_guarded rfl (fun _ _ _ => rfl) (fun w hw => hw.2) ?_)
    intro w c a w' hw _ hp
    obtain ⟨rfl, rfl⟩ := hp
    exact hw
  refine Setting.specExn_bind (B := fun _ => Fine file (Conn 1 true)) ?_ fun _ => ?_
  · refine specExn_open (fun _ h => h.2) (specExn_guarded rfl (fun _ _ _ => rfl) hbound ?_)
    intro w c a w' hw _ hp
    obtain ⟨rfl, rfl⟩ := hp
    exact hw
  · refine specExn_open (fun _ h => h.2) (specExn_guarded rfl (fun _ _ _ => rfl) hbound ?_)
    intro w c a w' hw _ hp
    obtain ⟨rfl, rfl⟩ := hp
    exact ⟨congrArg (· + 1) hw.1, hw.2, rfl⟩

/-- On the second connection such an operation is caught. -/
theorem specExn_second {o : NodeOp} (ho : keepsSession o = true)
    (ha : ∀ w c, Fresh 2 true w → senderAccepts w o c = true)
    (hg : ∀ w, Fresh 2 true w → senderGuards w o = true) :
    senderSetting.SpecExn (Fine file (Fresh 2 true)) (op o) (fun _ => Fine file (Fresh 2 true))
      (Caught Exn.isException file FileOpen) :=
  specExn_open (fun _ => Fresh.fileOpen) (specExn_catch ho ha hg)

theorem specExn_startSecond :
    senderSetting.SpecExn (Fine file (Fresh 2 true)) emitStartSignal
      (fun _ => Fine file (Fresh 2 true)) (Caught Exn.isException file FileOpen) := by
  have htype : (FrameCodec.encode startFrame).type? = some (.str "start") := rfl
  refine specExn_open (fun _ => Fresh.fileOpen)
    (specExn_guarded rfl (fun _ _ _ => rfl) (fun w hw => ?_) ?_)
  · simp [senderGuards, htype, hw.1]
  · intro w c a w' hw _ hp
    simp only [perform, Option.ite_none_right_eq_some, Option.some.injEq, Prod.mk.injEq] at hp
    obtain ⟨-, -, rfl⟩ := hp
    refine ⟨hw.1, hw.2.1, ?_⟩
    simpa [dataSent, htype] using hw.2.2

/-- A computation that may raise an `Exception`. -/
theorem specExn_ofExcept {α : Type} {x : Except Exn α} (hA : ∀ w, A w → FileOpen w)
    (hx : ∀ e, x = .error e → e.isException = true) :
    senderSetting.SpecExn (Fine file A) (Prog.ofExcept x) (fun _ => Fine file A)
      (Caught Exn.isException file FileOpen) := by
  cases x with
  | ok a => exact Setting.specExn_ret (settled _) fun _ h => h
  | error e =>
      exact Setting.specExn_raise (settled _) fun _ h => caught_of_fine (hx e rfl) (fine_mono hA h)

theorem specExn_negotiateSecond (fh : ℕ) :
    senderSetting.SpecExn (Fine file (Fresh 2 true)) (FragmentSender.negotiateResumePoint fh)
      (fun _ => Fine file (Fresh 2 true)) (Caught Exn.isException file FileOpen) := by
  have htwo : ∀ w, Fresh 2 true w → decide (1 < w.binds) = true := by
    intro w hw
    simp [hw.1]
  refine Setting.specExn_bind (specExn_second rfl (fun _ _ _ => rfl) fun w hw => ?_) fun raw => ?_
  · simp [senderGuards, htwo w hw]
  refine Setting.specExn_bind (specExn_second rfl (fun w c hw => ?_) fun w hw => ?_) fun frame => ?_
  · cases raw with
    | garbage => rfl
    | pickled frame => simp [senderAccepts, htwo w hw]
  · simp [senderGuards, htwo w hw]
  refine Setting.specExn_bind (specExn_ofExcept (fun _ => Fresh.fileOpen)
    fun e => PyObj.isException_of_getItem) fun data => ?_
  refine Setting.specExn_bind (specExn_ofExcept (fun _ => Fresh.fileOpen)
    fun e => FrameField.isException_of_offset) fun offset => ?_
  exact specExn_second rfl (fun _ _ _ => rfl) fun w hw => htwo w hw

/-- **`_attempt_reconnect`** catches every `Exception`. -/
theorem spec_attemptReconnect (cfg : Config) (port : Json) (fh : ℕ) :
    senderSetting.Spec (Fine file (Conn 1 true)) (FragmentSender.attemptReconnect cfg port fh)
      (fun b => Fine file fun w => if b = true then Fresh 2 true w else FileOpen w)
      (Spoiled file) := by
  have htimeouts : ∀ m n : ℕ, senderSetting.SpecExn (Fine file (Fresh 2 true))
      (ZmqSessionManager.configureTimeouts m n) (fun _ => Fine file (Fresh 2 true))
      (Caught Exn.isException file FileOpen) := by
    intro m n
    refine specExn_ifSocket (specExn_second rfl (fun _ _ _ => rfl) fun w hw => ?_)
      (Setting.specExn_ret (settled _) fun _ h => h)
    simp [senderGuards, hw.1]
  refine spec_handler (A := FileOpen) ?_ fun _ h => h
  refine Setting.specExn_bind (specExn_reset _ _) fun _ => ?_
  refine Setting.specExn_bind (htimeouts _ _) fun _ => ?_
  refine Setting.specExn_bind specExn_startSecond fun _ => ?_
  refine Setting.specExn_bind (specExn_negotiateSecond fh) fun _ => ?_
  exact Setting.specExn_bind (htimeouts _ _) fun _ => Setting.specExn_ret (settled _) fun _ h => h

/-! ## Both passes -/

theorem spec_transmitPasses (cfg : Config) (fuel : ℕ) (port : Json) (fh : ℕ) :
    senderSetting.Spec (Fine file (Fresh 1 true))
      (FragmentSender.transmitPasses cfg fuel port fh) (fun _ => Fine file FileOpen)
      (Spoiled file) := by
  have hopen : ∀ n v, Fine file (Conn n true) v → Fine file FileOpen v :=
    fun n v => fine_mono fun _ => Conn.fileOpen
  have hend : ∀ completed : Bool, senderSetting.Spec (Fine file FileOpen)
      (if completed then
        op .hasSocket >>= fun b =>
          if b then op (.send (FrameCodec.encode endFrame)) else pure ()
      else pure ()) (fun _ => Fine file FileOpen) (Spoiled file) := by
    intro completed
    split
    · refine spec_ifSocket ?_ (Setting.spec_ret (settled _) fun _ h => h)
      -- the END frame is sent outside every `try`
      refine spec_unguarded rfl (fun _ _ _ => rfl) (fun _ _ => rfl) ?_
      intro w c a w' hw _ hp
      simp only [perform, Option.ite_none_right_eq_some, Option.some.injEq, Prod.mk.injEq] at hp
      obtain ⟨-, -, rfl⟩ := hp
      exact hw
    · exact Setting.spec_ret (settled _) fun _ h => h
  refine Setting.spec_bind (spec_transmitChunks cfg 1 fuel fh) fun completed => ?_
  cases completed with
  | true => exact Setting.spec_mono (hopen 1) (fun _ _ h => h) (fun _ h => h) (hend true)
  | false =>
      refine Setting.spec_bind (spec_attemptReconnect cfg port fh) fun connected => ?_
      cases connected with
      | true =>
          refine Setting.spec_bind (spec_transmitChunks cfg 2 fuel fh) fun completed => ?_
          exact Setting.spec_mono (hopen 2) (fun _ _ h => h) (fun _ h => h) (hend completed)
      | false => exact hend false

/-! ## `send_data` -/

/-- An operation of the first connection before any chunk was sent. -/
theorem spec_first {o : NodeOp} (ho : keepsSession o = true) {f : Bool}
    (ha : ∀ w c, Fresh 1 f w → senderAccepts w o c = true)
    (hg : ∀ w, Fresh 1 f w → senderGuards w o = false) :
    senderSetting.Spec (Fine file (Fresh 1 f)) (op o) (fun _ => Fine file (Fresh 1 f))
      (Spoiled file) :=
  spec_keep ho ha hg

theorem spec_openFirst (address : String) (port : Json) :
    senderSetting.Spec (Fine file (Fresh 0 false)) (ZmqSessionManager.openSocket address port)
      (fun _ => Fine file (Fresh 1 false)) (Spoiled file) := by
  have hnot : ∀ w, Fresh 0 false w → decide (0 < w.binds) = false := by
    intro w hw
    simp [hw.1]
  refine Setting.spec_bind (B := fun _ => Fine file (Fresh 0 false)) ?_ fun _ => ?_
  · refine spec_unguarded rfl (fun _ _ _ => rfl) hnot ?_
    intro w c a w' hw _ hp
    obtain ⟨rfl, rfl⟩ := hp
    exact ⟨hw.1, hw.2.1, rfl⟩
  · refine spec_unguarded rfl (fun _ _ _ => rfl) hnot ?_
    intro w c a w' hw _ hp
    obtain ⟨rfl, rfl⟩ := hp
    exact ⟨congrArg (· + 1) hw.1, hw.2.1, rfl⟩

theorem spec_startFirst :
    senderSetting.Spec (Fine file (Fresh 1 false)) emitStartSignal
      (fun _ => Fine file (Fresh 1 false)) (Spoiled file) := by
  have htype : (FrameCodec.encode startFrame).type? = some (.str "start") := rfl
  refine spec_unguarded rfl (fun _ _ _ => rfl) (fun w hw => ?_) ?_
  · simp [senderGuards, htype, hw.1]
  · intro w c a w' hw _ hp
    simp only [perform, Option.ite_none_right_eq_some, Option.some.injEq, Prod.mk.injEq] at hp
    obtain ⟨-, -, rfl⟩ := hp
    refine ⟨hw.1, hw.2.1, ?_⟩
    simpa [dataSent, htype] using hw.2.2

/-- A frame read on the first connection: it has an offset in its `data` field, or the
record is spoiled. -/
theorem spec_loadsFirst (raw : Raw) :
    senderSetting.Spec (Fine file (Fresh 1 true)) (op (.pickleLoads raw))
      (fun frame v => if accepted frame = true then Fine file (Fresh 1 true) v
        else Spoiled file v) (Spoiled file) := by
  have hguards : ∀ w, Fresh 1 true w → senderGuards w (.pickleLoads raw) = false := by
    intro w hw
    simp [senderGuards, hw.1, hw.2.2]
  refine Setting.spec_of_specExn (fun _ _ h => h)
    (specExn_op (E := fun _ => Spoiled file) rfl ?_ ?_)
  · intro w c frame w' hw hf hp hl hfw
    obtain rfl : w' = w := perform_keeps rfl hp
    cases raw with
    | garbage => exact absurd hp (by simp [perform])
    | pickled frame' =>
        obtain rfl : frame' = frame := by simpa [perform] using hp
        have hcovers : senderBears (.pickleLoads (.pickled frame')) c w' = accepted frame' := by
          show (senderAccepts w' _ c && c.fault.all _) = _
          rw [hf, Option.all_none, Bool.and_true, senderAccepts, hw.1, hw.2.2]
          rfl
        split
        · next hoffset => exact ⟨hcovers.trans hoffset, hl, hfw, hw⟩
        · next hoffset => exact ⟨hcovers.trans (Bool.eq_false_iff.mpr hoffset), hl⟩
  · intro w c e hw hf _ _ hl _
    refine ⟨?_, hl⟩
    show (senderAccepts w _ c && c.fault.all _) = _
    rw [senderCatches_unguarded (hguards w hw), hf, Option.all_some, Bool.and_false]

/-- **The first negotiation** is outside every `try`. -/
theorem spec_negotiateFirst (fh : ℕ) :
    senderSetting.Spec (Fine file (Fresh 1 true)) (FragmentSender.negotiateResumePoint fh)
      (fun _ => Fine file (Fresh 1 true)) (Spoiled file) := by
  refine Setting.spec_bind (spec_first rfl (fun _ _ _ => rfl) fun w hw => ?_) fun raw => ?_
  · simp [senderGuards, hw.1, hw.2.2]
  refine Setting.spec_bind (spec_loadsFirst raw) fun frame => ?_
  -- whether the frame has an offset
  cases hdata : frame.getItem "data" with
  | error e =>
      have hnot : accepted frame = false := by rw [accepted, hdata]
      rw [hnot]
      exact Setting.spec_raise (settled _) fun _ h => h
  | ok data =>
      cases hoffset : data.offset with
      | error e =>
          have hnot : accepted frame = false := by
            rw [accepted, hdata]
            simp only [hoffset]
            rfl
          rw [hnot]
          refine Setting.spec_bind (Setting.spec_ofExcept rfl (settled _)) fun data' =>
            Setting.spec_pure fun hd => ?_
          subst hd
          rw [hoffset]
          exact Setting.spec_raise (settled _) fun _ h => h
      | ok offset =>
          have hyes : accepted frame = true := by
            rw [accepted, hdata]
            simp only [hoffset]
            rfl
          rw [hyes]
          refine Setting.spec_bind (Setting.spec_ofExcept rfl (settled _)) fun data' =>
            Setting.spec_pure fun hd => ?_
          subst hd
          refine Setting.spec_bind (Setting.spec_ofExcept hoffset (settled _)) fun offset' =>
            Setting.spec_pure fun _ => ?_
          exact spec_first rfl (fun _ _ _ => rfl) fun w hw => by simp [senderGuards, hw.1]

/-- The shard file is there, or the record is spoiled. -/
theorem spec_isFile (path : PyStr) :
    senderSetting.Spec (Fine file (Fresh 0 false)) (op (.isFile path))
      (fun b v => if b = true then Fine file (Fresh 0 false) v else Spoiled file v)
      (Spoiled file) := by
  refine Setting.spec_of_specExn (fun _ _ h => h)
    (specExn_op (E := fun _ => Spoiled file) rfl ?_ ?_)
  · intro w c b w' hw hf hp hl hfw
    obtain ⟨rfl, rfl⟩ : c.yes = b ∧ w = w' := by simpa [perform] using hp
    have hcovers : senderBears (.isFile path) c w =
        (c.yes && c.fault.all (senderCatches w (.isFile path))) := rfl
    cases hy : c.yes with
    | true => exact ⟨by rw [hcovers, hy, hf]; rfl, hl, hfw, hw⟩
    | false => exact ⟨by rw [hcovers, hy]; rfl, hl⟩
  · intro w c e _ _ _ hm _ _
    exact absurd hm (by simp [NodeOp.mayRaise])

theorem spec_openFile (path : PyStr) :
    senderSetting.Spec (Fine file (Fresh 1 false)) (op (.openFile path .rb))
      (fun _ => Fine file (Fresh 1 true)) (Spoiled file) := by
  refine spec_unguarded rfl (fun _ _ _ => rfl) (fun _ _ => rfl) ?_
  intro w c a w' hw _ hp
  obtain ⟨rfl, rfl⟩ := hp
  exact ⟨hw.1, rfl, hw.2.2⟩

theorem spec_closeFile (fh : ℕ) :
    senderSetting.Spec (Fine file FileOpen) (op (.closeFile fh))
      (fun _ => Fine file fun w => w.fileOpen = false) (Spoiled file) := by
  refine spec_unguarded rfl (fun _ _ _ => rfl) (fun _ _ => rfl) ?_
  intro w c a w' hw _ hp
  obtain ⟨rfl, rfl⟩ := hp
  rfl

/-- `ZmqSessionManager.close` at the end, when no `try` protects it. -/
theorem spec_close :
    senderSetting.Spec (Fine file fun w => w.fileOpen = false) ZmqSessionManager.close
      (fun _ => Fine file fun w => w.socket = none) (Spoiled file) := by
  refine Setting.spec_bind spec_hasSocket fun b => ?_
  cases b with
  | true =>
      refine spec_unguarded rfl (fun _ _ _ => rfl) (fun _ hw => hw.1) ?_
      intro w c a w' hw _ hp
      obtain ⟨rfl, rfl⟩ := hp
      rfl
  | false => exact Setting.spec_ret (settled _) fun _ => fine_mono fun _ hw => hw.2 rfl

theorem spec_sendData (cfg : Config) (fuel : ℕ) {request : Dict} {port : Json} {id : PyStr}
    (isNewTransfer : Bool) {before : List Json} (hread : readFile file = .ok (.arr before))
    (hmem : before.any (· == .obj request) = true) (hport : request.getItem "port" = .ok port)
    (hshard : request.getItem "shard_id" = .ok (.str id)) :
    senderSetting.Spec (Fine file (Fresh 0 false))
      (FragmentSender.sendData cfg fuel request isNewTransfer)
      (fun _ => Settles cfg request port) (Settles cfg request port) := by
  have hreg : LedgerContains file request := ⟨before, nextRead_eq_iff.mpr hread, hmem⟩
  -- an exception that nobody catches leaves the request in the ledger
  have hspoil : ∀ {α : Type} {P : SessionWorld × Bool → Prop} {p : Node α}
      {B : α → SessionWorld × Bool → Prop}, senderSetting.Spec P p B (Spoiled file) →
      senderSetting.Spec P p B (Settles cfg request port) := fun h =>
    Setting.spec_mono (fun _ h => h) (fun _ _ h => h) (fun _ => settles_of_spoiled hreg) h
  refine Setting.spec_bind (Setting.spec_ofExcept hshard (settled _)) fun shardId =>
    Setting.spec_pure fun hid => ?_
  subst hid
  refine Setting.spec_bind (Setting.spec_ofExcept rfl (settled _)) fun shardPath =>
    Setting.spec_pure fun _ => ?_
  refine Setting.spec_bind (hspoil (spec_isFile shardPath)) fun found => ?_
  cases found with
  | false => exact Setting.spec_ret (settled _) fun v hv => settles_of_spoiled hreg hv
  | true =>
      refine Setting.spec_bind (Setting.spec_ofExcept hport (settled _)) fun port' =>
        Setting.spec_pure fun hid => ?_
      subst hid
      refine Setting.spec_bind (hspoil (spec_openFirst _ _)) fun _ => ?_
      refine Setting.spec_bind (hspoil spec_startFirst) fun _ => ?_
      refine Setting.spec_bind (hspoil (spec_openFile shardPath)) fun fh => ?_
      refine Setting.spec_bind (B := fun _ => Fine file (Fresh 1 true)) ?_ fun _ => ?_
      · split
        · exact Setting.spec_ret (settled _) fun _ h => h
        · exact hspoil (spec_negotiateFirst fh)
      refine Setting.spec_bind (B := fun _ => Fine file (Fresh 1 true)) ?_ fun _ => ?_
      · refine hspoil (spec_ifSocket (spec_first rfl (fun _ _ _ => rfl) fun w hw => ?_)
          (Setting.spec_ret (settled _) fun _ h => h))
        simp [senderGuards, hw.1]
      refine Setting.spec_bind (hspoil (spec_transmitPasses cfg fuel port' fh)) fun _ => ?_
      refine Setting.spec_bind (hspoil (spec_closeFile fh)) fun _ => ?_
      refine Setting.spec_bind (hspoil spec_close) fun _ => ?_
      exact spec_releasePort hread hmem
        (fun _ _ _ => rfl)
        fun _ _ _ => rfl

/-- A request without a proper shard id is dropped before anything is done. -/
theorem spec_malformed (cfg : Config) (fuel : ℕ) {request : Dict} (isNewTransfer : Bool)
    (hshard : ¬ ∃ id, request.getItem "shard_id" = .ok (.str id)) :
    senderSetting.Spec (Fine file (Fresh 0 false))
      (FragmentSender.sendData cfg fuel request isNewTransfer)
      (fun _ _ => False) (fun v => v.1.ledger = file) := by
  exact spec_unnamed hshard fun v h => h.2.1

/-- A download the node has registered. -/
def downloadRequest : Dict :=
  [("type", .str "download"), ("shard_id", .str "s"), ("port", .int 50000)]

/-- The ledger with that download. -/
def downloadLedger : Option (List Char) := some (ledgerText (.arr [.obj downloadRequest]))

theorem downloadLedger_contains : LedgerContains downloadLedger downloadRequest := by
  refine ⟨[.obj downloadRequest], ?_, by decide⟩
  rw [nextRead_eq_iff, downloadLedger, readFile_ledgerText]
  simp [downloadRequest, Json.WF, WFDict]

/-- The first connection up to the `recv` that times out, the second one from the end of the
file, and the ledger call. -/
def silentDownloader : List (Pool.Event Unit SessionChoice Empty) :=
  let node : Pool.Event Unit SessionChoice Empty := .thread () {}
  List.replicate 7 node ++ [.thread () { bytes := [1] }, node] ++
    [.thread () { fault := some .zmqError }] ++ List.replicate 7 node ++
    [.thread () { raw := FrameCodec.encode (resumeFrame 1) }] ++ List.replicate 11 node ++
    [.thread () { ledger := List.replicate 26 {} }]

end SenderCleanup
