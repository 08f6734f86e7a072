/-
# `FragmentReceiver.receive_data` against conforming uploaders

The methods of the receiver, one specification each, from the opening of the socket to the
call of `done_uploading`.

* `spec_receiveFrame` : one frame keeps the agreement with the uploader or ends the pass;
* `spec_attemptReconnect` : the second connection starts at the size of the closed file;
* `spec_receiveData` : `receive_data` keeps the file a beginning of `F`, and calls
  `done_uploading` with the whole of `F` in the closed file;
* `upload_integrity` : the same along every run of one transfer.
-/
import StorageNode.UploadReceive

open Transfer

namespace Upload

section Methods

variable {ι : Type} [DecidableEq ι] {F : Bytes} {path : PyStr} {shardId : Json} {i : ι}
  {alone : Prop}

/-! ## The session -/

theorem steady_fresh0 : Steady F path alone (fun t _ => Fresh0 F t) := steady_link fresh0_move

theorem filesOnly_allClosed : FilesOnly (fun t _ => AllClosed t) := by
  intro t t' d hfiles h j
  have hj := h j
  unfold file? at hj ⊢
  rw [hfiles]
  exact hj

theorem filesOnly_sized (s : ℕ) : FilesOnly (Sized path alone s) := fun _ _ _ _ h => h

theorem FilesOnly.and {A B : Transfer → Disk → Prop} (hA : FilesOnly A) (hB : FilesOnly B) :
    FilesOnly (fun t d => A t d ∧ B t d) :=
  fun t t' d hfiles h => ⟨hA t t' d hfiles h.1, hB t t' d hfiles h.2⟩

theorem filesOnly_const (c : Prop) : FilesOnly (fun _ _ => c) := fun _ _ _ _ h => h

/-- `ZmqSessionManager.open`. -/
theorem spec_openSocket {A : Transfer → Disk → Prop} (hA : Steady F path alone A)
    (hf : FilesOnly A) (address : String) (port : Json) :
    Spec F path shardId i alone A (ZmqSessionManager.openSocket address port)
      (fun _ t d => Fresh0 F t ∧ A t d) A := by
  refine spec_bind (spec_onLink_files rfl hA hf) fun _ => ?_
  refine spec_onLink rfl hA (fun _ => steady_fresh0.and hA) hA (fun _ _ h => h) ?_
  intro t d r t' ht hl
  obtain ⟨rfl, hfresh⟩ := fresh0_of_bind (F := F) hl
  exact ⟨hfresh, hf t t' d (performLink_files hl) ht⟩

/-- `ZmqSessionManager.close`. -/
theorem spec_close {A : Transfer → Disk → Prop} (hA : Steady F path alone A)
    (hf : FilesOnly A) :
    Spec F path shardId i alone A ZmqSessionManager.close (fun _ => A) A := by
  refine spec_bind (spec_onLink_files rfl hA hf) fun open? => ?_
  split
  · exact spec_onLink_files rfl hA hf
  · exact spec_ret hA fun _ _ h => h

/-- `ZmqSessionManager.reset`. -/
theorem spec_reset {A : Transfer → Disk → Prop} (hA : Steady F path alone A)
    (hf : FilesOnly A) (address : String) (port : Json) :
    Spec F path shardId i alone A (ZmqSessionManager.reset address port)
      (fun _ t d => Fresh0 F t ∧ A t d) A :=
  spec_bind (spec_close hA hf) fun _ => spec_openSocket hA hf address port

/-- `ZmqSessionManager.configure_timeouts`. -/
theorem spec_configureTimeouts {A : Transfer → Disk → Prop} (hA : Steady F path alone A)
    (sendMs recvMs : ℕ) :
    Spec F path shardId i alone A (ZmqSessionManager.configureTimeouts sendMs recvMs)
      (fun _ => A) A := by
  refine spec_bind (spec_quiet rfl (fun _ _ _ => performLink_hasSocket) hA) fun open? => ?_
  split
  · exact spec_quiet rfl (fun _ _ _ => performLink_setTimeouts) hA
  · exact spec_ret hA fun _ _ h => h

/-- `_emit_start_signal`. -/
theorem spec_emitStartSignal {A : Transfer → Disk → Prop} (hA : Steady F path alone A)
    (hf : FilesOnly A) :
    Spec F path shardId i alone (fun t d => Fresh0 F t ∧ A t d) emitStartSignal
      (fun _ t d => Fresh0 F t ∧ A t d) A := by
  refine spec_onLink rfl (steady_fresh0.and hA) (fun _ => steady_fresh0.and hA) hA
    (fun _ _ h => h.2) ?_
  intro t d r t' ht hl
  have hA' : A t' d := hf t t' d (performLink_files hl) ht.2
  cases r with
  | ok a => exact ⟨fresh0_send_start ht.1 hl, hA'⟩
  | error e => exact hA'

/-- `_send_resume_offset`. -/
theorem spec_sendResumeOffset {A : Transfer → Disk → Prop} (hA : Steady F path alone A)
    (hf : FilesOnly A) (s : ℕ) :
    Spec F path shardId i alone (fun t d => Fresh0 F t ∧ A t d)
      (FragmentReceiver.sendResumeOffset s)
      (fun _ t d => Sync F s t ∧ t.base = s ∧ A t d) A := by
  refine spec_onLink rfl (steady_fresh0.and hA)
    (fun _ => (steady_link sync_move).and ((steady_base s).and hA)) hA (fun _ _ h => h.2) ?_
  intro t d r t' ht hl
  have hA' : A t' d := hf t t' d (performLink_files hl) ht.2
  obtain ⟨hsync, hbase, -⟩ := sync_send_resume ht.1 hl
  cases r with
  | ok a => exact ⟨hsync, hbase, hA'⟩
  | error e => exact hA'

/-! ## `_open_shard_file` and `_attempt_reconnect` -/

/-- Reading the size of the closed file, announcing it and opening the file there. -/
theorem spec_resumeAt {α : Type} (g : ℕ → Node α) {B : α → Transfer → Disk → Prop}
    (hg : ∀ fh, Spec F path shardId i alone
      (fun t d => ∃ k, Sync F k t ∧ Writing F path alone fh k t d) (g fh) B
      (fun t _ => AllClosed t)) :
    Spec F path shardId i alone (fun t _ => Fresh0 F t ∧ AllClosed t)
      ((op (.getSize path)).bind fun s =>
        (FragmentReceiver.sendResumeOffset s).bind fun _ => (op (.openFile path .ab)).bind g)
      B (fun t _ => AllClosed t) := by
  have hA : Steady F path alone (fun t _ => Fresh0 F t ∧ AllClosed t) :=
    steady_fresh0.and steady_allClosed
  refine spec_bind (spec_mono (fun _ _ h => h) (fun _ _ _ h => h) (fun _ _ h => h.2)
    (spec_getSize hA)) fun s => spec_pure fun hs => ?_
  have hpre : ∀ t d, (Sized path alone s t d ∧ Fresh0 F t ∧ AllClosed t) →
      Fresh0 F t ∧ AllClosed t ∧ Sized path alone s t d :=
    fun t d h => ⟨h.2.1, h.2.2, h.1⟩
  refine spec_bind (spec_mono hpre (fun _ _ _ h => h) (fun _ _ h => h.1)
    (spec_sendResumeOffset (steady_allClosed.and (steady_sized s))
      (filesOnly_allClosed.and (filesOnly_sized s)) s)) fun _ => ?_
  refine spec_bind (spec_openFile_ab s hs) fun fh => ?_
  exact spec_mono (fun t d h => ⟨s, h⟩) (fun _ _ _ h => h) (fun _ _ h => h) (hg fh)

/-- **`_open_shard_file`** opens the file where the uploader will start. -/
theorem spec_openShardFile :
    Spec F path shardId i alone (fun t _ => Fresh0 F t ∧ AllClosed t)
      (FragmentReceiver.openShardFile path)
      (fun fh t d => ∃ k, Sync F k t ∧ Writing F path alone fh k t d) (fun _ _ => True) := by
  have hA : Steady F path alone (fun t _ => Fresh0 F t ∧ AllClosed t) :=
    steady_fresh0.and steady_allClosed
  refine spec_bind (spec_mono (fun _ _ h => h) (fun _ _ _ h => h) (fun _ _ _ => trivial)
    (spec_isFile hA)) fun found => ?_
  cases found with
  | true =>
      have hret : ∀ fh, Spec F path shardId i alone
          (fun t d => ∃ k, Sync F k t ∧ Writing F path alone fh k t d) (.ret fh)
          (fun fh t d => ∃ k, Sync F k t ∧ Writing F path alone fh k t d)
          (fun t _ => AllClosed t) := fun fh =>
        spec_ret (Steady.exists fun k => (steady_link sync_move).and (steady_writing fh k))
          fun _ _ h => h
      have h : Spec F path shardId i alone (fun t _ => Fresh0 F t ∧ AllClosed t) _ _ _ :=
        spec_resumeAt Prog.ret hret
      simp only [Prog.bind_ret] at h
      exact spec_mono (fun _ _ h => h.1) (fun _ _ _ h => h) (fun _ _ _ => trivial) h
  | false =>
      refine spec_mono ?_ (fun _ _ _ h => ⟨0, h⟩) (fun _ _ _ => trivial) spec_openFile_wb
      intro t d h
      exact ⟨⟨h.1.1.1, h.1.1.2.2, h.1.2⟩, h.2⟩

/-- **`_attempt_reconnect`**: a new handle at the end of the closed file, or none. -/
theorem spec_attemptReconnect (cfg : Config) (port : Json) :
    Spec F path shardId i alone (fun t _ => AllClosed t)
      (FragmentReceiver.attemptReconnect cfg port path)
      (fun r t d => match r with
        | some fh => ∃ k, Sync F k t ∧ Writing F path alone fh k t d
        | none => AllClosed t)
      (fun _ _ => True) := by
  have hclosed : Steady F path alone (fun t _ => AllClosed t) := steady_allClosed
  have hfresh : Steady F path alone (fun t _ => Fresh0 F t ∧ AllClosed t) :=
    steady_fresh0.and steady_allClosed
  refine spec_tryExcept (E := fun t _ => AllClosed t) ?_ fun e => ?_
  · refine spec_bind (spec_reset hclosed filesOnly_allClosed _ _) fun _ => ?_
    refine spec_bind (spec_mono (fun _ _ h => h) (fun _ _ _ h => h) (fun _ _ h => h.2)
      (spec_configureTimeouts hfresh _ _)) fun _ => ?_
    refine spec_bind (spec_emitStartSignal hclosed filesOnly_allClosed) fun _ => ?_
    refine spec_bind (spec_mono (fun _ _ h => h) (fun _ _ _ h => h) (fun _ _ h => h.2)
      (spec_configureTimeouts hfresh _ _)) fun _ => ?_
    exact spec_resumeAt _ fun fh =>
      spec_ret (Steady.exists fun k => (steady_link sync_move).and (steady_writing fh k))
        fun _ _ h => h
  · split
    · exact spec_ret hclosed fun _ _ h => h
    · exact spec_raise hclosed fun _ _ _ => trivial

/-! ## `_receive_chunks` -/

theorem steady_got (k : ℕ) (c : Bytes) : Steady F path alone (fun t _ => Got F k c t) :=
  steady_link got_move

/-- The frame taken from the connection: the slice at `k`, or END when all is taken. -/
theorem spec_recv (fh k : ℕ) :
    Spec F path shardId i alone (fun t d => Sync F k t ∧ Writing F path alone fh k t d)
      (op .recv)
      (fun raw t d =>
        (∃ c, raw = FrameCodec.encode (dataFrame c) ∧ Got F k c t ∧
          Writing F path alone fh k t d) ∨
        (raw = FrameCodec.encode endFrame ∧ k = F.length ∧ Writing F path alone fh k t d))
      (fun t d => ∃ k', Writing F path alone fh k' t d) := by
  have hw : Steady F path alone (Writing F path alone fh k) := steady_writing fh k
  refine spec_onLink rfl ((steady_link sync_move).and hw) (fun raw => ?_)
    (Steady.exists fun k' => steady_writing fh k') (fun t d h => ⟨k, h.2⟩) ?_
  · exact (Steady.exists fun c => (steady_const _).and ((steady_got k c).and hw)).or
      ((steady_const _).and ((steady_const _).and hw))
  · intro t d r t' ht hl
    have hw' : Writing F path alone fh k t' d := by
      obtain ⟨raw, rest, -, -, rfl⟩ := performLink_recv hl
      exact ht.2.frame rfl rfl
    rcases sync_recv ht.1 hl with ⟨c, rfl, hgot⟩ | ⟨rfl, hk⟩
    · exact Or.inl ⟨c, rfl, hgot, hw'⟩
    · exact Or.inr ⟨rfl, hk, hw'⟩

/-- `FrameCodec.decode` of a frame. -/
theorem spec_pickleLoads {A : Transfer → Disk → Prop} (hA : Steady F path alone A) (o : PyObj) :
    Spec F path shardId i alone A (op (.pickleLoads (FrameCodec.encode o)))
      (fun o' t d => o' = o ∧ A t d) A := by
  refine spec_look hA (fun _ => (steady_const _).and hA) hA fun w c r w' _ hw hexec => ?_
  refine ⟨UploadWorld.exec_outside rfl hexec, ?_⟩
  rcases UploadWorld.exec_cases hexec with ⟨e, -, -, rfl, -⟩ | ⟨-, hp⟩
  · exact hw
  · simp only [UploadWorld.perform, NodeOp.answerOnly, FrameCodec.encode, Option.some.injEq,
      Prod.mk.injEq] at hp
    obtain ⟨rfl, -⟩ := hp
    exact ⟨rfl, hw⟩

/-- The ACK of a slice. -/
theorem spec_sendAck (fh k : ℕ) (c : Bytes) :
    Spec F path shardId i alone (fun t d => Got F k c t ∧ Writing F path alone fh k t d)
      (op (.send (FrameCodec.encode ackFrame)))
      (fun _ t d => Sync F (k + c.length) t ∧ Writing F path alone fh k t d)
      (fun t d => ∃ k', Writing F path alone fh k' t d) := by
  refine spec_onLink rfl ((steady_got k c).and (steady_writing fh k))
    (fun _ => (steady_link sync_move).and (steady_writing fh k))
    (Steady.exists fun k' => steady_writing fh k') (fun t d h => ⟨k, h.2⟩) ?_
  intro t d r t' ht hl
  obtain ⟨hsync, hbase, hfiles⟩ := got_send_ack ht.1 hl
  have hw' : Writing F path alone fh k t' d := ht.2.frame hfiles hbase
  cases r with
  | ok a => exact ⟨hsync, hw'⟩
  | error e => exact ⟨k, hw'⟩

/-- **One frame.**  The next slice is written and the agreement goes on, END finds
everything taken, and a failure leaves a handle that holds a stretch of `F`. -/
theorem spec_receiveFrame (fh k : ℕ) :
    Spec F path shardId i alone (fun t d => Sync F k t ∧ Writing F path alone fh k t d)
      (FragmentReceiver.receiveFrame fh)
      (fun ended t d => match ended with
        | true => Writing F path alone fh F.length t d
        | false => ∃ k', Sync F k' t ∧ Writing F path alone fh k' t d)
      (fun t d => ∃ k', Writing F path alone fh k' t d) := by
  have hw : Steady F path alone (Writing F path alone fh k) := steady_writing fh k
  refine spec_bind (spec_recv fh k) fun raw => spec_or (spec_exists fun c => ?_) ?_
  · -- a slice
    refine spec_pure fun hraw => ?_
    subst hraw
    have hgot : Steady F path alone (fun t d => Got F k c t ∧ Writing F path alone fh k t d) :=
      (steady_got k c).and hw
    refine spec_bind (spec_mono (fun _ _ h => h) (fun _ _ _ h => h) (fun t d h => ⟨k, h.2⟩)
      (spec_pickleLoads hgot (dataFrame c))) fun o => spec_pure fun ho => ?_
    subst ho
    have htype : (dataFrame c).getItem "type" = .ok (.str "data") := rfl
    have hdata : (dataFrame c).getItem "data" = .ok (.bytes c) := rfl
    simp only [htype, hdata, Prog.ofExcept, Prog.bind_eq, Prog.ret_bind, if_true]
    by_cases hc : ∃ len, c = slice F k len ∧ k + len ≤ F.length
    · refine spec_bind (spec_sendAck fh k c) fun _ => ?_
      refine spec_bind (spec_write fh k c hc) fun _ => ?_
      refine spec_ret ((steady_link sync_move).and (steady_writing fh _)) fun t d h => ?_
      exact ⟨_, h⟩
    · intro w h
      obtain ⟨len, -, hle, hslice, -⟩ := h.2.1
      exact absurd ⟨len, hslice, hle⟩ hc
  · -- END
    refine spec_pure fun hraw => ?_
    subst hraw
    refine spec_pure fun hk => ?_
    subst hk
    refine spec_bind (spec_mono (fun _ _ h => h) (fun _ _ _ h => h) (fun t d h => ⟨_, h⟩)
      (spec_pickleLoads hw endFrame)) fun o => spec_pure fun ho => ?_
    subst ho
    have htype : endFrame.getItem "type" = .ok (.str "END") := rfl
    have hne : FrameField.str "END" ≠ FrameField.str "data" := by decide
    simp only [htype, Prog.ofExcept, Prog.bind_eq, Prog.ret_bind, if_neg hne]
    exact spec_ret hw fun _ _ h => h

variable (F path alone) in
/-- What one round of a pass leaves. -/
def Received (fh : ℕ) (ended : Option Bool) (t : Transfer) (d : Disk) : Prop :=
  match ended with
  | some true => Writing F path alone fh F.length t d
  | some false => ∃ k, Sync F k t ∧ Writing F path alone fh k t d
  | none => ∃ k, Writing F path alone fh k t d

/-- **A receive pass** ends with everything taken or with a handle that holds a stretch
of `F`. -/
theorem spec_receiveChunks (fh fuel : ℕ) :
    Spec F path shardId i alone
      (fun t d => ∃ k, Sync F k t ∧ Writing F path alone fh k t d)
      (FragmentReceiver.receiveChunks fh fuel)
      (fun completed t d => match completed with
        | true => Writing F path alone fh F.length t d
        | false => ∃ k, Writing F path alone fh k t d)
      (fun t d => ∃ k, Writing F path alone fh k t d) := by
  have hsync : Steady F path alone (fun t d => ∃ k, Sync F k t ∧ Writing F path alone fh k t d) :=
    Steady.exists fun k => (steady_link sync_move).and (steady_writing fh k)
  have hsome : Steady F path alone (fun t d => ∃ k, Writing F path alone fh k t d) :=
    Steady.exists fun k => steady_writing fh k
  induction fuel with
  | zero => exact spec_hang hsync
  | succ fuel ih =>
      refine spec_bind (B := Received F path alone fh) ?_ fun ended => ?_
      · refine spec_tryExcept (E := fun t d => ∃ k, Writing F path alone fh k t d) ?_ fun e => ?_
        · refine spec_bind (spec_exists fun k => spec_receiveFrame fh k) fun ended => ?_
          cases ended with
          | true => exact spec_ret (steady_writing fh _) fun _ _ h => h
          | false => exact spec_ret hsync fun _ _ h => h
        · split
          · exact spec_ret hsome fun _ _ h => h
          · exact spec_raise hsome fun _ _ h => h
      · cases ended with
        | none => exact spec_ret hsome fun _ _ h => h
        | some ended =>
            cases ended with
            | true => exact spec_ret (steady_writing fh _) fun _ _ h => h
            | false => exact ih

/-! ## `receive_data` -/

variable (F path alone) in
/-- What the two passes leave: everything taken, or a handle that holds a stretch of `F`,
or none at all. -/
def Passed (completed : Bool) (fh : ℕ) (t : Transfer) (d : Disk) : Prop :=
  match completed with
  | true => Writing F path alone fh F.length t d
  | false => (∃ k, Writing F path alone fh k t d) ∨ AllClosed t

/-- The two receive passes. -/
theorem spec_receivePasses (cfg : Config) (fuel : ℕ) (port : Json) (fh : ℕ) :
    Spec F path shardId i alone
      (fun t d => ∃ k, Sync F k t ∧ Writing F path alone fh k t d)
      (FragmentReceiver.receivePasses cfg fuel port path fh)
      (fun r t d => Passed F path alone r.1 r.2 t d) (fun _ _ => True) := by
  refine spec_bind (spec_mono (fun _ _ h => h) (fun _ _ _ h => h) (fun _ _ _ => trivial)
    (spec_receiveChunks fh fuel)) fun completed => ?_
  cases completed with
  | true =>
      simp only [if_true]
      exact spec_ret (steady_writing fh _) fun _ _ h => h
  | false =>
      simp only [Bool.false_eq_true, if_false]
      refine spec_exists fun k => ?_
      refine spec_bind (spec_closeFile fh k) fun _ => ?_
      refine spec_bind (spec_mono (fun _ _ h => h.1) (fun _ _ _ h => h) (fun _ _ h => h)
        (spec_attemptReconnect cfg port)) fun reconnected => ?_
      cases reconnected with
      | none => exact spec_ret steady_allClosed fun _ _ h => Or.inr h
      | some fh' =>
          refine spec_bind (spec_mono (fun _ _ h => h) (fun _ _ _ h => h) (fun _ _ _ => trivial)
            (spec_receiveChunks fh' fuel)) fun completed => ?_
          cases completed with
          | true => exact spec_ret (steady_writing fh' _) fun _ _ h => h
          | false =>
              exact spec_ret (Steady.exists fun k => steady_writing fh' k) fun _ _ h => Or.inl h

/-- The closing of the file after the passes. -/
theorem spec_closePassed (completed : Bool) (fh : ℕ) :
    Spec F path shardId i alone (Passed F path alone completed fh) (op (.closeFile fh))
      (fun _ t d => completed = true → AllClosed t ∧ Sized path alone F.length t d)
      (fun _ _ => True) := by
  cases completed with
  | true =>
      exact spec_mono (fun _ _ h => h) (fun _ _ _ h _ => h) (fun _ _ h => h)
        (spec_closeFile fh F.length)
  | false =>
      have hno : ∀ {p : Prop}, false = true → p := fun h => absurd h (by simp)
      refine spec_or (spec_exists fun k => ?_) ?_
      · exact spec_mono (fun _ _ h => h) (fun _ _ _ _ => hno) (fun _ _ h => h)
          (spec_closeFile fh k)
      · exact spec_mono (fun _ _ h => h) (fun _ _ _ _ => hno) (fun _ _ h => h)
          (spec_closeFile_closed fh)

theorem spec_any_outside {o : NodeOp} (ho : o.outside = true) :
    Spec F path shardId i alone (fun _ _ => True) (op o) (fun _ _ _ => True) (fun _ _ => True) :=
  spec_outside ho (steady_const True)

/-- `_close_router_port`. -/
theorem spec_closeRouterPort (cfg : Config) (port : Json) :
    Spec F path shardId i alone (fun _ _ => True) (closeRouterPort cfg port)
      (fun _ _ _ => True) (fun _ _ => True) := by
  unfold closeRouterPort
  split
  · refine spec_bind (spec_any_outside rfl) fun _ => ?_
    exact spec_ret (steady_const True) fun _ _ _ => trivial
  · exact spec_ret (steady_const True) fun _ _ _ => trivial

/-- A computation outside the world, seen from any steady assertion. -/
theorem spec_ofExcept {α : Type} {A : Transfer → Disk → Prop} (hA : Steady F path alone A)
    (x : Except Exn α) :
    Spec F path shardId i alone A (Prog.ofExcept x : Node α)
      (fun a t d => x = .ok a ∧ A t d) (fun _ _ => True) := by
  cases x with
  | ok a => exact spec_ret hA fun _ _ h => ⟨rfl, h⟩
  | error e => exact spec_raise hA fun _ _ _ => trivial

/-- What an exception leaves is of no interest outside the methods. -/
theorem spec_any {α : Type} {A E : Transfer → Disk → Prop} {B : α → Transfer → Disk → Prop}
    {p : Node α} (h : Spec F path shardId i alone A p B E) :
    Spec F path shardId i alone A p B (fun _ _ => True) :=
  spec_mono (fun _ _ h => h) (fun _ _ _ h => h) (fun _ _ _ => trivial) h

/-- **`receive_data`** from no open handle: whatever happens, the shard file stays a
beginning of `F`, and `done_uploading` is called with all of `F` in the closed file. -/
theorem spec_receiveData (cfg : Config) (fuel : ℕ) (request : Dict)
    (hshard : request.getItem "shard_id" = .ok shardId)
    (hpath : joinPath cfg.dataDirectory shardId = .ok path) :
    Spec F path shardId i alone (fun t _ => AllClosed t)
      (FragmentReceiver.receiveData cfg fuel request) (fun _ _ _ => True) (fun _ _ => True) := by
  have hclosed : Steady F path alone (fun t _ => AllClosed t) := steady_allClosed
  -- after the closing of the file nothing is left to keep but the call of `done_uploading`
  have hrest : ∀ port : Json, Spec F path shardId i alone (fun _ _ => True)
      ((closeRouterPort cfg port).bind fun _ =>
        (op (.ledgerUnregister request)).bind fun _ => .ret ())
      (fun _ _ _ => True) (fun _ _ => True) := by
    intro port
    refine spec_bind (spec_closeRouterPort cfg port) fun _ => ?_
    refine spec_bind (spec_any_outside rfl) fun _ => ?_
    exact spec_ret (steady_const True) fun _ _ _ => trivial
  refine spec_bind (spec_any (spec_outside rfl hclosed)) fun present => ?_
  refine spec_bind (B := fun _ t _ => AllClosed t) ?_ fun _ => ?_
  · split
    · exact spec_ret hclosed fun _ _ h => h
    · exact spec_any (spec_outside rfl hclosed)
  refine spec_bind (spec_ofExcept hclosed _) fun shardId' => spec_pure fun hid => ?_
  obtain rfl := Except.ok.inj (hshard.symm.trans hid)
  refine spec_bind (spec_ofExcept hclosed _) fun shardPath => spec_pure fun hp => ?_
  obtain rfl := Except.ok.inj (hpath.symm.trans hp)
  refine spec_bind (spec_ofExcept hclosed _) fun port => spec_pure fun _ => ?_
  refine spec_bind (spec_any (spec_openSocket hclosed filesOnly_allClosed _ _))
    fun _ => ?_
  refine spec_bind (spec_any (spec_emitStartSignal hclosed filesOnly_allClosed))
    fun _ => ?_
  refine spec_bind spec_openShardFile fun fh => ?_
  refine spec_bind (spec_mono (fun _ _ h => h) (fun _ _ _ h => h) (fun _ _ _ => trivial)
    (spec_configureTimeouts
      (Steady.exists fun k => (steady_link sync_move).and (steady_writing fh k)) _ _))
    fun _ => ?_
  refine spec_bind (spec_receivePasses cfg fuel port fh) fun r => ?_
  obtain ⟨completed, fh'⟩ := r
  refine spec_bind (spec_closePassed completed fh') fun _ => ?_
  cases hdone : completed && cfg.backend with
  | false =>
      refine spec_bind (spec_mono (fun _ _ _ => trivial) (fun _ _ _ h => h) (fun _ _ h => h)
        (spec_close (steady_const True) (filesOnly_const True))) fun _ => ?_
      exact hrest port
  | true =>
      have hcompleted : completed = true := (Bool.and_eq_true_iff.mp hdone).1
      refine spec_bind (spec_mono (fun _ _ h => h hcompleted) (fun _ _ _ h => h)
        (fun _ _ _ => trivial)
        (spec_close (steady_allClosed.and (steady_sized _))
          (filesOnly_allClosed.and (filesOnly_sized _)))) fun _ => ?_
      refine spec_bind spec_doneUploading fun _ => ?_
      exact hrest port

end Methods

/-! ## Runs of one transfer -/

/-- **Upload integrity across disconnects.**  One upload of `F` to an absent file or to one
that holds a beginning of `F`, with a fault at any operation: in every configuration of
every run the file is a beginning of `F`, and each call of `done_uploading` was about this
shard and found exactly `F` in the closed file. -/
theorem upload_integrity (F : Bytes) (cfg : Config) (fuel : ℕ) (request : Dict)
    (shardId : PyStr) (d : Disk) (hshard : request.getItem "shard_id" = .ok (.str shardId))
    (hfile : ∀ b, d.content (osPathJoin cfg.dataDirectory shardId) = some b → b <+: F)
    {s : Pool.Conf Unit NodeOp NodeOp.Res Exn (UploadWorld Unit) Unit}
    (hrun : (UploadWorld.uploads F (osPathJoin cfg.dataDirectory shardId)).Reaches Pool.always
      (fun _ => FragmentReceiver.receiveData cfg fuel request, UploadWorld.start d) s) :
    (∀ b, s.2.disk.content (osPathJoin cfg.dataDirectory shardId) = some b → b <+: F) ∧
      ∀ call ∈ s.2.done,
        call.shardId = .str shardId ∧ call.content = some F ∧ call.closed = true := by
  have hspec : Spec F (osPathJoin cfg.dataDirectory shardId) (.str shardId) () True
      (fun t _ => AllClosed t) (FragmentReceiver.receiveData cfg fuel request) (fun _ _ _ => True)
      (fun _ _ => True) := spec_receiveData cfg fuel request hshard rfl
  have hstart : ∀ i : Unit, (uploadSetting F (osPathJoin cfg.dataDirectory shardId)
      (.str shardId) i True).wp (FragmentReceiver.receiveData cfg fuel request)
      (Setting.post
        (fun _ => Here F (osPathJoin cfg.dataDirectory shardId) (.str shardId) i fun _ _ => True)
        (Here F (osPathJoin cfg.dataDirectory shardId) (.str shardId) i fun _ _ => True))
      (UploadWorld.start d) :=
    fun _ => hspec _ ⟨⟨hfile, by simp [UploadWorld.start]⟩, fun j => by simp [UploadWorld.start, file?]⟩
  have hwp := Pool.wp_reaches _ _
    (fun i => uploadSetting F (osPathJoin cfg.dataDirectory shardId) (.str shardId) i True)
    (fun i o c w r w' _ he => ⟨c, he, Or.inl trivial⟩)
    (fun i j w w' hj _ => absurd (Subsingleton.elim j i) hj)
    (fun i e w w' he => Or.inl ⟨e.1, e.2, he⟩) hrun hstart
  exact Setting.wp_inv (hwp ())

/-- A request for an upload of the shard `s`. -/
def sampleRequest : Dict := [("type", .str "upload"), ("shard_id", .str "s"), ("port", .int 50000)]

/-- The upload of two bytes, one slice each; the connection breaks after the first. -/
def interruptedUpload : List (Pool.Event Unit Choice (Unit × UploaderMove)) :=
  let node : Pool.Event Unit Choice (Unit × UploaderMove) := .thread () {}
  let peer (m : UploaderMove) : Pool.Event Unit Choice (Unit × UploaderMove) := .env ((), m)
  List.replicate 8 node ++ [peer .take, peer .start, peer (.slice 1)] ++ List.replicate 4 node ++
    [peer .take, peer (.slice 1), .thread () { fault := some .zmqError }] ++
    List.replicate 13 node ++ [peer .take, peer .take, peer (.slice 1)] ++
    List.replicate 4 node ++ [peer .take, peer .finish] ++ List.replicate 7 node

theorem upload_integrity_interrupted :
    ∃ s : Pool.Conf Unit NodeOp NodeOp.Res Exn (UploadWorld Unit) Unit,
      (UploadWorld.uploads [1, 2] (osPathJoin "Data" "s")).Reaches Pool.always
        (fun _ => FragmentReceiver.receiveData {} 5 sampleRequest, UploadWorld.start .empty) s ∧
      s.2.done.length = 1 ∧
      ∀ call ∈ s.2.done,
        call.shardId = .str "s" ∧ call.content = some [1, 2] ∧ call.closed = true := by
  obtain ⟨s, hrun, hlen⟩ := Pool.exists_of_run
    (UploadWorld.uploads [1, 2] (osPathJoin "Data" "s")) Pool.always
    (fun _ => FragmentReceiver.receiveData {} 5 sampleRequest, UploadWorld.start .empty)
    interruptedUpload (fun s => s.2.done.length == 1) (by decide +kernel)
  have hfile : ∀ b, Disk.empty.content (osPathJoin "Data" "s") = some b → b <+: [1, 2] := by
    have hnone : Disk.empty.content (osPathJoin "Data" "s") = none := by decide
    intro b hb
    rw [hnone] at hb
    exact absurd hb (by simp)
  exact ⟨s, hrun, by simpa using hlen,
    (upload_integrity [1, 2] {} 5 sampleRequest "s" .empty rfl hfile hrun).2⟩

end Upload
