/-
# What the second receive pass stores

`receive_data` takes no frame between the disconnect and the second pass, and after END it
appends nothing more.  So the run with late frames is a run without them until the node
takes one; when no data frame outlives a connection, that one is an END frame.

* `Opens`, `Second`, `Closing` : where `receive_data` stands, read off the program;
* `opens_receiveData` : it opens one file, closes it, and takes frames of the second
  connection afterwards;
* `LateInv` : the invariant;
* `second_pass_stores_fresh_frames` : what is appended was sent on the current connection,
  and the file is always a beginning of `F`;
* `late_frame_stored` : a run in which a frame of the first connection is stored twice.
-/
import StorageNode.LateFrames

open Prog

namespace Late

/-! ## Where the program stands -/

/-- The program takes no frame, appends nothing and opens nothing any more. -/
def Closing {α : Type} : Node α → Prop
  | .call (.pickleLoads (.pickled o)) k => Closing (k (.ok o)) ∧ ∀ e, Closing (k (.error e))
  | .call .recv _ => False
  | .call (.write _ _) _ => False
  | .call (.openFile _ _) _ => False
  | .call _ k => ∀ r, Closing (k r)
  | _ => True

/-- No socket is bound any more. -/
def bindsNothing : NodeOp → Prop
  | .bindSocket _ _ => False
  | _ => True

/-- The file is closed.  The next frame may be an END frame of the first connection, which
ends the program, as a failure does; after another one no socket is bound any more. -/
def Second {α : Type} : Node α → Prop
  | .call .recv k =>
      Closing (k (.ok (FrameCodec.encode endFrame))) ∧ (∀ e, Closing (k (.error e))) ∧
        ∀ raw, (k (.ok raw)).Only bindsNothing
  | .call (.write _ _) _ => False
  | .call _ k => ∀ r, Second (k r)
  | _ => True

/-- The first connection: `fh` is the handle that has been opened, if any, and the program
closes it before it does anything else with files or closes the socket. -/
def Opens {α : Type} : Option ℕ → Node α → Prop
  | fh, .call (.openFile _ _) k =>
      fh = none ∧ (∀ n, Opens (some n) (k (.ok n))) ∧ ∀ e, Opens none (k (.error e))
  | fh, .call (.closeFile n) k => fh = some n ∧ ∀ r, Second (k r)
  | _, .call .closeSocket _ => False
  | fh, .call _ k => ∀ r, Opens fh (k r)
  | _, _ => True

/-- The operations between the passes: no frame is taken and nothing is appended. -/
def settled : NodeOp → Prop
  | .recv => False
  | .write _ _ => False
  | _ => True

/-- The operations after the passes. -/
def final : NodeOp → Prop
  | .recv => False
  | .write _ _ => False
  | .openFile _ _ => False
  | .pickleLoads _ => False
  | .bindSocket _ _ => False
  | _ => True

/-- The operations that leave the handles and the socket of the first connection alone. -/
def keepsFile : NodeOp → Prop
  | .openFile _ _ => False
  | .closeFile _ => False
  | .closeSocket => False
  | _ => True

section Rules

variable {α β : Type} {p : Node α} {f : α → Node β}

theorem closing_of_only (h : p.Only final) : Closing p := by
  induction p with
  | ret a => trivial
  | raise e => trivial
  | hang => trivial
  | call o k ih =>
      obtain ⟨ho, hk⟩ := h
      cases o <;> first | exact ho.elim | exact fun r => ih r (hk r)

theorem second_bind (hp : p.Only settled) (hf : ∀ a, Second (f a)) : Second (p.bind f) := by
  induction p with
  | ret a => exact hf a
  | raise e => trivial
  | hang => trivial
  | call o k ih =>
      obtain ⟨ho, hk⟩ := hp
      cases o <;> first | exact ho.elim | exact fun r => ih r (hk r)

theorem second_of_only (h : p.Only settled) : Second p := by
  have hret : ∀ a : α, Second (.ret a : Node α) := fun _ => trivial
  have hbind := second_bind h hret
  rwa [Prog.bind_ret] at hbind

theorem opens_bind {fh : Option ℕ} (hp : p.Only keepsFile) (hf : ∀ a, Opens fh (f a)) :
    Opens fh (p.bind f) := by
  induction p with
  | ret a => exact hf a
  | raise e => trivial
  | hang => trivial
  | call o k ih =>
      obtain ⟨ho, hk⟩ := hp
      cases o <;> first | exact ho.elim | exact fun r => ih r (hk r)

theorem opens_ofExcept_bind {fh : Option ℕ} {x : Except Exn α}
    (hf : ∀ a, Opens fh (f a)) : Opens fh ((Prog.ofExcept x).bind f) := by
  cases x with
  | error e => trivial
  | ok a => exact hf a

theorem opens_openFile_bind {path : PyStr} {mode : FileMode} {g : ℕ → Node β}
    (hg : ∀ n, Opens (some n) (g n)) : Opens none ((op (.openFile path mode)).bind g) :=
  ⟨rfl, hg, fun _ => trivial⟩

theorem opens_closeFile_bind {n : ℕ} {g : Unit → Node β} (hg : Second (g ())) :
    Opens (some n) ((op (.closeFile n)).bind g) := by
  refine ⟨rfl, fun r => ?_⟩
  cases r with
  | error e => trivial
  | ok a => exact hg

end Rules

/-! ## `receive_data` -/

/-- What follows the passes: the file is closed, and then nothing but `final` operations. -/
def Tail (tail : Bool × ℕ → Node Unit) : Prop :=
  ∀ r, ∃ rest : Unit → Node Unit, tail r = (op (.closeFile r.2)).bind rest ∧
    ∀ u, (rest u).Only final

theorem Tail.only {tail : Bool × ℕ → Node Unit} (h : Tail tail) (r : Bool × ℕ) :
    (tail r).Only final := by
  obtain ⟨rest, heq, hrest⟩ := h r
  rw [heq]
  exact only_bind (only_perform trivial) hrest

theorem only_attemptReconnect_settled (cfg : Config) (port : Json) (path : PyStr) :
    (FragmentReceiver.attemptReconnect cfg port path).Only settled := by
  have hclose : ZmqSessionManager.close.Only settled := by
    refine only_bind (only_perform trivial) fun b => ?_
    split
    · exact only_perform trivial
    · trivial
  have hopen : (ZmqSessionManager.openSocket cfg.localIp port).Only settled :=
    only_bind (only_perform trivial) fun _ => only_perform trivial
  have htimeouts : ∀ a b, (ZmqSessionManager.configureTimeouts a b).Only settled := by
    intro a b
    refine only_bind (only_perform trivial) fun b => ?_
    split
    · exact only_perform trivial
    · trivial
  apply only_tryExcept
  · refine only_bind (only_bind hclose fun _ => hopen) fun _ => ?_
    refine only_bind (htimeouts _ _) fun _ => ?_
    refine only_bind (only_perform trivial) fun _ => ?_
    refine only_bind (htimeouts _ _) fun _ => ?_
    refine only_bind (only_perform trivial) fun currentSize => ?_
    refine only_bind (only_perform trivial) fun _ => ?_
    exact only_bind (only_perform trivial) fun _ => trivial
  · intro e
    split <;> trivial

/-- **The second pass.** -/
theorem second_receiveChunks (fh fuel : ℕ) {rest : Bool → Node Unit}
    (hrest : ∀ b, (rest b).Only final) :
    Second ((FragmentReceiver.receiveChunks fh fuel).bind rest) := by
  cases fuel with
  | zero => trivial
  | succ fuel =>
      have hbinds : ((FragmentReceiver.receiveChunks fh (fuel + 1)).bind rest).Only
          bindsNothing := by
        refine only_bind (only_mono ?_ (only_receivePass fh (fuel + 1))) fun b =>
          only_mono ?_ (hrest b)
        · intro o ho
          cases o <;> first | exact ho.elim | trivial
        · intro o ho
          cases o <;> first | exact ho.elim | trivial
      -- a frame that fails ends the pass
      have hgiven : ∀ f : Option Bool → Node Bool, f none = pure false → ∀ e : Exn,
          Closing (((if e.isException then pure none else
            Prog.raise e : Node (Option Bool)).bind f).bind rest) := by
        intro f hf e
        split
        · show Closing ((f none).bind rest)
          rw [hf]
          exact closing_of_only (hrest false)
        · trivial
      refine ⟨⟨?_, fun e => ?_⟩, fun e => ?_, fun raw => hbinds.2 (.ok raw)⟩
      · exact closing_of_only (hrest true)
      · exact hgiven _ rfl e
      · exact hgiven _ rfl e

theorem opens_receivePasses (cfg : Config) (fuel fh : ℕ) (port : Json) (path : PyStr)
    {tail : Bool × ℕ → Node Unit} (htail : Tail tail) :
    Opens (some fh) ((FragmentReceiver.receivePasses cfg fuel port path fh).bind tail) := by
  have hfinal : ∀ r, (tail r).Only settled := by
    intro r
    refine only_mono ?_ (htail.only r)
    intro o ho
    cases o <;> first | exact ho.elim | trivial
  rw [FragmentReceiver.receivePasses, Prog.bind_eq, Prog.bind_assoc]
  refine opens_bind (only_mono ?_ (only_receivePass fh fuel)) fun completed => ?_
  · intro o ho
    cases o <;> first | exact ho.elim | trivial
  · cases completed with
    | true =>
        obtain ⟨rest, heq, hrest⟩ := htail (true, fh)
        show Opens (some fh) (tail (true, fh))
        rw [heq]
        refine opens_closeFile_bind (second_of_only (only_mono ?_ (hrest ())))
        intro o ho
        cases o <;> first | exact ho.elim | trivial
    | false =>
        simp only [Bool.false_eq_true, if_false, Prog.bind_eq]
        rw [Prog.bind_assoc]
        refine opens_closeFile_bind ?_
        rw [Prog.bind_assoc]
        refine second_bind (only_attemptReconnect_settled cfg port path) fun result => ?_
        cases result with
        | none => exact second_of_only (hfinal (false, fh))
        | some fh' =>
            rw [Prog.bind_assoc]
            exact second_receiveChunks fh' fuel fun b => htail.only (b, fh')

theorem opens_openShardFile {β : Type} {path : PyStr} {f : ℕ → Node β}
    (hf : ∀ n, Opens (some n) (f n)) :
    Opens none ((FragmentReceiver.openShardFile path).bind f) := by
  rw [FragmentReceiver.openShardFile, Prog.bind_eq, Prog.bind_assoc]
  refine opens_bind (only_perform trivial) fun found => ?_
  cases found with
  | true =>
      simp only [if_true, Prog.bind_eq]
      rw [Prog.bind_assoc]
      refine opens_bind (only_perform trivial) fun size => ?_
      rw [Prog.bind_assoc]
      exact opens_bind (only_perform trivial) fun _ => opens_openFile_bind hf
  | false => exact opens_openFile_bind hf

/-- **`receive_data`** takes frames of a second connection with its file closed. -/
theorem opens_receiveData (cfg : Config) (fuel : ℕ) (request : Dict) :
    Opens none (FragmentReceiver.receiveData cfg fuel request) := by
  refine opens_bind (only_perform trivial) fun present => ?_
  refine opens_bind ?_ fun _ => ?_
  · split
    · trivial
    · exact only_perform trivial
  refine opens_ofExcept_bind fun shardId => ?_
  refine opens_ofExcept_bind fun shardPath => ?_
  refine opens_ofExcept_bind fun port => ?_
  refine opens_bind (only_bind (only_perform trivial) fun _ => only_perform trivial) fun _ => ?_
  refine opens_bind (only_perform trivial) fun _ => ?_
  refine opens_openShardFile fun fh => ?_
  refine opens_bind ?_ fun _ => ?_
  · refine only_bind (only_perform trivial) fun b => ?_
    split
    · exact only_perform trivial
    · trivial
  refine opens_receivePasses cfg fuel fh port shardPath fun r => ?_
  obtain ⟨completed, fh'⟩ := r
  refine ⟨_, rfl, fun _ => ?_⟩
  refine only_bind (only_bind (only_perform trivial) fun b => ?_) fun _ => ?_
  · split
    · exact only_perform trivial
    · trivial
  refine only_bind ?_ fun _ => only_bind ?_ fun _ => only_bind (only_perform trivial) fun _ => ?_
  · split
    · exact only_perform trivial
    · trivial
  · unfold closeRouterPort
    split
    · exact only_bind (only_perform trivial) fun _ => trivial
    · trivial
  · trivial

/-! ## The handles -/

/-- No handle has anything buffered. -/
def NoBuffer (w : UploadWorld Unit) : Prop := ∀ j f, (w.transfer ()).file? j = some f → f.buf = []

/-- The handle of the first connection is the only one, if it has been opened. -/
def Handles (fh : Option ℕ) (w : UploadWorld Unit) : Prop :=
  match fh with
  | none => (w.transfer ()).files = []
  | some n => n = 0 ∧ (w.transfer ()).files.length = 1

theorem handles_of_files {fh : Option ℕ} {w w' : UploadWorld Unit}
    (h : (w'.transfer ()).files = (w.transfer ()).files) (hw : Handles fh w) : Handles fh w' := by
  unfold Handles at hw ⊢
  rwa [h]

theorem noBuffer_of_files {w w' : UploadWorld Unit}
    (h : (w'.transfer ()).files = (w.transfer ()).files) (hw : NoBuffer w) : NoBuffer w' := by
  intro j f hj
  refine hw j f ?_
  unfold Transfer.file? at hj ⊢
  rwa [h] at hj

/-- A write or a close replaces at most one handle. -/
theorem afterFile_files (w : UploadWorld Unit) (c : Choice) (o : NodeOp) :
    ((w.afterFile () c o).transfer ()).files.length = (w.transfer ()).files.length := by
  cases o with
  | write fh b =>
      simp only [UploadWorld.afterFile]
      split <;> simp [UploadWorld.putFile, UploadWorld.setTransfer]
  | closeFile fh =>
      simp only [UploadWorld.afterFile]
      split <;> simp [UploadWorld.dropFile, UploadWorld.setTransfer]
  | _ => rfl

/-- A handle that has just been opened has nothing buffered. -/
theorem openFile_buf {d d' : Disk} {p : PyStr} {m : FileMode} {f : OpenFile}
    (h : d.openFile p m = some (d', f)) : f.buf = [] := by
  unfold Disk.openFile at h
  split at h
  · cases m <;> (obtain ⟨-, rfl⟩ := by simpa using h) <;> rfl
  · cases m with
    | rb => exact absurd h (by simp)
    | _ => (obtain ⟨-, rfl⟩ := by simpa using h); rfl

/-- With nothing buffered a close changes no file. -/
theorem noBuffer_afterFile {w : UploadWorld Unit} (c : Choice) {o : NodeOp}
    (ho : ∀ fh b, o ≠ .write fh b) (hw : NoBuffer w) :
    NoBuffer (w.afterFile () c o) ∧ (w.afterFile () c o).disk = w.disk := by
  cases o with
  | write fh b => exact absurd rfl (ho fh b)
  | closeFile fh =>
      cases hf : (w.transfer ()).file? fh with
      | none =>
          rw [Upload.afterFile_closeFile_of_closed hf]
          exact ⟨hw, rfl⟩
      | some f =>
          rw [Upload.afterFile_closeFile hf]
          refine ⟨fun j g hj => ?_, ?_⟩
          · simp only [UploadWorld.dropFile, UploadWorld.setTransfer_self] at hj
            by_cases hjfh : j = fh
            · subst hjfh
              rw [Upload.file?_set hf] at hj
              exact absurd hj (by simp)
            · rw [Upload.file?_set_of_ne _ hjfh] at hj
              exact hw j g hj
          · show (f.flush (c.closing f) w.disk).1 = w.disk
            rw [OpenFile.flush_nil (by rw [hw fh f hf, List.take_nil])]
  | _ => exact ⟨hw, rfl⟩

/-- **Besides opening a file**, only a write or a close acts on the handles and the disk. -/
theorem exec_files {path : PyStr} {o : NodeOp} {c : Choice} {w w' : UploadWorld Unit}
    {r : Except Exn o.Res} (ho : ∀ p m, o ≠ .openFile p m)
    (h : w.exec path () o c = some (r, w')) :
    w'.disk = (w.afterFile () c o).disk ∧
      (w'.transfer ()).files = ((w.afterFile () c o).transfer ()).files := by
  have hlink : o.onLink = true → w'.disk = w.disk ∧
      (w'.transfer ()).files = (w.transfer ()).files := by
    intro hon
    rcases UploadWorld.exec_onLink hon h with ⟨e, -, rfl⟩ | ⟨t, ht, rfl⟩
    · exact ⟨rfl, rfl⟩
    · rw [UploadWorld.setTransfer_self]
      exact ⟨rfl, Upload.performLink_files ht⟩
  have hout : o.outside = true → w' = w := fun hoff => UploadWorld.exec_outside hoff h
  -- reading is no operation of an upload
  have hnone : w.perform path () o c = none → w' = w.afterFault path () c o := by
    intro hp
    rcases UploadWorld.exec_cases h with ⟨e, -, -, -, hw⟩ | ⟨-, hq⟩
    · exact hw
    · exact absurd (hp.symm.trans hq) (by simp)
  cases o with
  | openFile p m => exact absurd rfl (ho p m)
  | write fh b => rw [(UploadWorld.exec_write h).1]; exact ⟨rfl, rfl⟩
  | closeFile fh => rw [(UploadWorld.exec_closeFile h).1]; exact ⟨rfl, rfl⟩
  | isFile p => rw [(UploadWorld.exec_isFile h).2]; exact ⟨rfl, rfl⟩
  | getSize p => rw [(UploadWorld.exec_getSize h).1]; exact ⟨rfl, rfl⟩
  | doneUploading s => rw [UploadWorld.exec_doneUploading h]; exact ⟨rfl, rfl⟩
  | read fh n => rw [hnone rfl]; exact ⟨rfl, rfl⟩
  | seek fh n => rw [hnone rfl]; exact ⟨rfl, rfl⟩
  | _ => first | exact hlink rfl | (rw [hout rfl]; exact ⟨rfl, rfl⟩)

/-! ## The invariant -/

section Invariant

variable {F : Bytes} {path : PyStr} {shardId : Json} {w w' : LateWorld} {o : NodeOp} {c : Choice}
  {u : UploadWorld Unit} {r : Except Exn o.Res}

theorem after_files (w : LateWorld) (o : NodeOp) (c : Choice) (u : UploadWorld Unit) :
    (w.after o c u).upload.disk = u.disk ∧
      ((w.after o c u).upload.transfer ()).files = (u.transfer ()).files := by
  unfold LateWorld.after
  split
  · exact ⟨rfl, rfl⟩
  · exact ⟨rfl, rfl⟩
  · exact ⟨rfl, by rw [UploadWorld.transfer_withInbox]; rfl⟩
  · exact ⟨rfl, rfl⟩
  · exact ⟨rfl, rfl⟩
  · exact ⟨rfl, rfl⟩

/-- What is appended is marked with the frame taken last. -/
theorem after_appends (w : LateWorld) (o : NodeOp) (c : Choice) (u : UploadWorld Unit) :
    (w.after o c u).appends = w.appends ∨
      (∃ fh b, o = .write fh b) ∧ ∃ b, (w.after o c u).appends = w.appends ++ [(b, w.last)] := by
  unfold LateWorld.after
  split
  · exact Or.inl rfl
  · exact Or.inl rfl
  · exact Or.inl rfl
  · exact Or.inl rfl
  · exact Or.inr ⟨⟨_, _, rfl⟩, _, rfl⟩
  · exact Or.inl rfl

theorem after_last (hlate : ¬ w.TakesLate o c) (hlast : w.last = false) (u : UploadWorld Unit) :
    (w.after o c u).last = false := by
  unfold LateWorld.after
  split
  · exact hlast
  · exact hlast
  · exact hlast
  · next hf =>
      have hstale : ¬ 0 < w.stale := fun hpos => hlate ⟨rfl, hf, hpos⟩
      exact decide_eq_false hstale
  · exact hlast
  · exact hlast

/-- Without frames that outlive a connection there are no late ones. -/
theorem after_stale (hstale : w.stale = 0) (hbind : w.outbound = [] ∨ bindsNothing o)
    (u : UploadWorld Unit) : (w.after o c u).stale = 0 := by
  unfold LateWorld.after
  split
  · rfl
  · rfl
  · next hf =>
      show w.outbound.length = 0
      rw [hbind.resolve_right fun h => h, List.length_nil]
  · show w.stale - 1 = 0
    omega
  · exact hstale
  · exact hstale

theorem after_outbound (hout : w.outbound = []) (hclose : o ≠ .closeSocket)
    (u : UploadWorld Unit) : (w.after o c u).outbound = [] := by
  unfold LateWorld.after
  split
  · exact hout
  · exact absurd rfl hclose
  · rfl
  · exact hout
  · exact hout
  · exact hout

/-- **How far the node is**: the first connection; its file closed, before it has taken a
frame of the second one; after that, when no frame of the first one is left. -/
inductive Place (p : Node Unit) (w : LateWorld) : Prop
  | first (fh : Option ℕ) (opens : Opens fh p) (handles : Handles fh w.upload)
      (stale : w.stale = 0) (outbound : w.outbound = [])
  | second (second : Second p) (noBuffer : NoBuffer w.upload)
  | third (only : p.Only bindsNothing) (stale : w.stale = 0)

/-- The node takes nothing more and the file stays as it is. -/
def Ended (p : Node Unit) (w : LateWorld) : Prop := Closing p ∧ NoBuffer w.upload

theorem handles_noBuffer {n : ℕ} (h : Handles (some n) u)
    (hclosed : (u.transfer ()).file? n = none) : NoBuffer u := by
  obtain ⟨rfl, hlen⟩ := h
  intro j f hj
  cases j with
  | zero => exact absurd (hclosed.symm.trans hj) (by simp)
  | succ j =>
      rw [Transfer.file?, List.getElem?_eq_none (by omega)] at hj
      exact absurd hj (by simp)

/-- A closed handle is closed. -/
theorem afterFile_closed (w : UploadWorld Unit) (c : Choice) (fh : ℕ) :
    ((w.afterFile () c (.closeFile fh)).transfer ()).file? fh = none := by
  cases hf : (w.transfer ()).file? fh with
  | none =>
      rw [Upload.afterFile_closeFile_of_closed hf]
      exact hf
  | some f =>
      rw [Upload.afterFile_closeFile hf, UploadWorld.dropFile, UploadWorld.setTransfer_self]
      exact Upload.file?_set hf none

/-- **One operation on the first connection.** -/
theorem first_exec {fh : Option ℕ} {k : Except Exn o.Res → Node Unit}
    (hopens : Opens fh (.call o k)) (hhandles : Handles fh w.upload) (hstale : w.stale = 0)
    (hout : w.outbound = []) (hu : w.upload.exec path () o c = some (r, u)) :
    Place (k r) (w.after o c u) := by
  have hstale' : (w.after o c u).stale = 0 := after_stale hstale (Or.inl hout) u
  have hlen : ∀ {n : ℕ}, Handles (some n) w.upload → (∀ p m, o ≠ .openFile p m) →
      Handles (some n) (w.after o c u).upload := by
    intro n h ho
    refine ⟨h.1, ?_⟩
    rw [(after_files w o c u).2, (exec_files ho hu).2, afterFile_files]
    exact h.2
  -- an operation that is neither an open nor a close keeps the handles
  have hkeep : (∀ p m, o ≠ .openFile p m) → Handles fh (w.after o c u).upload := by
    intro ho
    cases fh with
    | some n => exact hlen hhandles ho
    | none =>
        have hnil : (w.upload.transfer ()).files = [] := hhandles
        show ((w.after o c u).upload.transfer ()).files = []
        rw [(after_files w o c u).2, (exec_files ho hu).2, ← List.length_eq_zero_iff,
          afterFile_files, hnil, List.length_nil]
  have hrest : (∀ p m, o ≠ .openFile p m) → o ≠ .closeSocket → Opens fh (k r) →
      Place (k r) (w.after o c u) := fun ho hclose h =>
    .first fh h (hkeep ho) hstale' (after_outbound hout hclose u)
  cases o with
  | openFile p m =>
      obtain ⟨rfl, hok, herr⟩ := hopens
      have hnil : (w.upload.transfer ()).files = [] := hhandles
      rcases UploadWorld.exec_openFile hu with ⟨⟨e, rfl⟩, rfl⟩ | ⟨d, f, -, rfl, rfl⟩
      · exact .first none (herr e) hhandles hstale' hout
      · refine .first (some _) (hok _) ⟨?_, ?_⟩ hstale' (after_outbound hout (by simp) _)
        · rw [hnil, List.length_nil]
        · rw [(after_files w _ c _).2, UploadWorld.setTransfer_self]
          simp [hnil]
  | closeFile n =>
      obtain ⟨rfl, hsecond⟩ := hopens
      refine .second (hsecond r) (handles_noBuffer (hkeep (by simp)) ?_)
      rw [(UploadWorld.exec_closeFile hu).1]
      have hfiles := (after_files w (.closeFile n) c (w.upload.afterFile () c (.closeFile n))).2
      rw [Transfer.file?, hfiles]
      exact afterFile_closed w.upload c n
  | closeSocket => exact absurd hopens (by simp [Opens])
  | _ => exact hrest (by simp) (by simp) (hopens r)

/-- An operation that writes nothing leaves nothing buffered. -/
theorem noBuffer_exec (hwrite : ∀ fh b, o ≠ .write fh b) (hbuf : NoBuffer w.upload)
    (hu : w.upload.exec path () o c = some (r, u)) :
    NoBuffer (w.after o c u).upload ∧
      ((∀ p m, o ≠ .openFile p m) → (w.after o c u).upload.disk = w.upload.disk) := by
  have hafter := noBuffer_afterFile c hwrite hbuf
  have hother : (∀ p m, o ≠ .openFile p m) → NoBuffer u ∧ u.disk = w.upload.disk := by
    intro ho
    obtain ⟨hdisk, hfiles⟩ := exec_files ho hu
    exact ⟨noBuffer_of_files hfiles hafter.1, hdisk.trans hafter.2⟩
  have hu' : NoBuffer u := by
    cases o with
    | openFile p m =>
        rcases UploadWorld.exec_openFile hu with ⟨-, rfl⟩ | ⟨d, f, hopen, -, rfl⟩
        · exact hbuf
        · intro j g hj
          rw [UploadWorld.setTransfer_self] at hj
          by_cases hlen : j = (w.upload.transfer ()).files.length
          · subst hlen
            obtain rfl := Option.some.inj ((Upload.file?_append (w.upload.transfer ()) f).symm.trans hj)
            exact openFile_buf hopen
          · rw [Upload.file?_append_of_ne _ f hlen] at hj
            exact hbuf j g hj
    | _ => exact (hother (by simp)).1
  obtain ⟨hdisk, hfiles⟩ := after_files w o c u
  exact ⟨noBuffer_of_files hfiles hu', fun ho => hdisk.trans (hother ho).2⟩

/-- **One operation on the second connection**: the next frame may be a late END frame. -/
theorem second_exec {k : Except Exn o.Res → Node Unit} (hsound : w.Sound)
    (hsecond : Second (.call o k)) (hbuf : NoBuffer w.upload)
    (hu : w.upload.exec path () o c = some (r, u)) :
    (¬ w.TakesLate o c ∧ Place (k r) (w.after o c u)) ∨
      (Ended (k r) (w.after o c u) ∧ (w.after o c u).upload.disk = w.upload.disk) := by
  have hnot : o ≠ .recv → ¬ w.TakesLate o c := fun hne h => hne h.1
  have hstays : (∀ fh b, o ≠ .write fh b) → o ≠ .recv → Second (k r) →
      (¬ w.TakesLate o c ∧ Place (k r) (w.after o c u)) := fun hwrite hrecv h =>
    ⟨hnot hrecv, .second h (noBuffer_exec hwrite hbuf hu).1⟩
  cases o with
  | recv =>
      obtain ⟨hend, herr, hnext⟩ := hsecond
      obtain ⟨hbuf', hdisk⟩ := noBuffer_exec (o := .recv) (by simp) hbuf hu
      have hdisk := hdisk (by simp)
      cases hf : c.fault with
      | some e =>
          rcases UploadWorld.exec_cases hu with ⟨e', -, -, rfl, -⟩ | ⟨hnone, -⟩
          · exact Or.inr ⟨⟨herr e', hbuf'⟩, hdisk⟩
          · exact absurd (hnone.symm.trans hf) (by simp)
      | none =>
          obtain ⟨raw, rest, hq, rfl, rfl⟩ := UploadWorld.exec_recv hf hu
          cases hstale : w.stale with
          | zero =>
              refine Or.inl ⟨fun h => ?_, .third (hnext raw) ?_⟩
              · have hpos := h.2.2
                omega
              · exact after_stale (o := .recv) hstale (Or.inr trivial) _
          | succ n =>
              have hraw : raw = FrameCodec.encode endFrame := by
                refine hsound.late raw ?_
                rw [hq, hstale]
                exact List.mem_cons_self
              subst hraw
              exact Or.inr ⟨⟨hend, hbuf'⟩, hdisk⟩
  | write fh b => exact absurd hsecond (by simp [Second])
  | _ => exact Or.inl (hstays (by simp) (by simp) (hsecond r))

/-- **One operation after the last frame.** -/
theorem ended_exec {k : Except Exn o.Res → Node Unit} (h : Ended (.call o k) w)
    (hu : w.upload.exec path () o c = some (r, u)) :
    Ended (k r) (w.after o c u) ∧ (w.after o c u).upload.disk = w.upload.disk ∧
      (w.after o c u).appends = w.appends := by
  obtain ⟨hclosing, hbuf⟩ := h
  have hstays : (∀ fh b, o ≠ .write fh b) → (∀ p m, o ≠ .openFile p m) → Closing (k r) →
      Ended (k r) (w.after o c u) ∧ (w.after o c u).upload.disk = w.upload.disk ∧
        (w.after o c u).appends = w.appends := by
    intro hwrite hopen hnext
    obtain ⟨hbuf', hdisk⟩ := noBuffer_exec hwrite hbuf hu
    refine ⟨⟨hnext, hbuf'⟩, hdisk hopen, ?_⟩
    exact (after_appends w o c u).resolve_right fun h => h.1.elim fun fh h => h.elim (hwrite fh)
  cases o with
  | recv => exact absurd hclosing (by simp [Closing])
  | write fh b => exact absurd hclosing (by simp [Closing])
  | openFile p m => exact absurd hclosing (by simp [Closing])
  | pickleLoads raw =>
      refine hstays (by simp) (by simp) ?_
      cases raw with
      | pickled o =>
          obtain ⟨hok, herr⟩ := hclosing
          rcases UploadWorld.exec_cases hu with ⟨e, -, -, rfl, -⟩ | ⟨-, hp⟩
          · exact herr e
          · simp only [UploadWorld.perform, NodeOp.answerOnly, Option.some.injEq,
              Prod.mk.injEq] at hp
            obtain ⟨rfl, -⟩ := hp
            exact hok
      | _ => exact hclosing r
  | _ => exact hstays (by simp) (by simp) (hclosing r)

variable (F path shardId) in
/-- The program, seen without the frames that outlived a connection. -/
def Follows (p : Node Unit) (w : LateWorld) : Prop :=
  (Upload.uploadSetting F path shardId () True).wp p (fun _ _ => True) w.current

variable (F path) in
/-- The shard file is a beginning of `F`. -/
def Keeps (w : LateWorld) : Prop := ∀ b, w.upload.disk.content path = some b → b <+: F

theorem keeps_of_follows {p : Node Unit} (h : Follows F path shardId p w) : Keeps F path w :=
  (Setting.wp_inv h).1

variable (F path shardId) in
/-- Until the node takes a late frame it runs as if there were none; then it has ended. -/
inductive Stage (p : Node Unit) (w : LateWorld) : Prop
  | running (last : w.last = false) (follows : Follows F path shardId p w) (place : Place p w)
  | ended (ended : Ended p w) (keeps : Keeps F path w)

variable (F path shardId) in
/-- **The invariant.** -/
structure LateInv (p : Node Unit) (w : LateWorld) : Prop where
  sound : w.Sound
  fresh : ∀ a ∈ w.appends, a.2 = false
  stage : Stage F path shardId p w

theorem LateInv.keeps {p : Node Unit} (h : LateInv F path shardId p w) : Keeps F path w := by
  cases h.stage with
  | running last follows place => exact keeps_of_follows follows
  | ended ended keeps => exact keeps

/-- **The node's operations keep it.** -/
theorem LateInv.exec {k : Except Exn o.Res → Node Unit} (h : LateInv F path shardId (.call o k) w)
    (hmeets : LateWorld.NothingLate () o c w) (he : w.exec path o c = some (r, w')) :
    LateInv F path shardId (k r) w' := by
  obtain ⟨⟨r', u⟩, hu, heq⟩ := Option.map_eq_some_iff.mp he
  simp only [Prod.mk.injEq] at heq
  obtain ⟨rfl, rfl⟩ := heq
  have hsound : (w.after o c u).Sound := h.sound.exec hmeets he
  cases h.stage with
  | ended hended hkeeps =>
      obtain ⟨hended', hdisk, happends⟩ := ended_exec hended hu
      refine ⟨hsound, happends ▸ h.fresh, .ended hended' ?_⟩
      unfold Keeps at hkeeps ⊢
      rwa [hdisk]
  | running hlast hfollows hplace =>
      have hfresh : ∀ a ∈ (w.after o c u).appends, a.2 = false := by
        rcases after_appends w o c u with happends | ⟨-, b, happends⟩
        · exact happends ▸ h.fresh
        · intro a ha
          rw [happends] at ha
          rcases List.mem_append.mp ha with ha | ha
          · exact h.fresh a ha
          · rw [List.mem_singleton.mp ha]
            exact hlast
      have hgoes : ¬ w.TakesLate o c → Place (k r') (w.after o c u) →
          Stage F path shardId (k r') (w.after o c u) := by
        intro hlate hplace'
        have hcurrent := LateWorld.exec_current hlate he
        exact .running (after_last hlate hlast u)
          (Setting.wp_call hfollows ⟨c, hcurrent, Or.inl trivial⟩).2 hplace'
      refine ⟨hsound, hfresh, ?_⟩
      cases hplace with
      | first fh hopens hhandles hstale hout =>
          refine hgoes (fun hlate => ?_) (first_exec hopens hhandles hstale hout hu)
          have hpos := hlate.2.2
          omega
      | second hsecond hbuf =>
          rcases second_exec h.sound hsecond hbuf hu with ⟨hlate, hplace'⟩ | ⟨hended, hdisk⟩
          · exact hgoes hlate hplace'
          · refine .ended hended ?_
            have hkeeps := keeps_of_follows hfollows
            unfold Keeps at hkeeps ⊢
            rwa [hdisk]
      | third honly hstale =>
          refine hgoes (fun hlate => ?_) (.third (honly.2 r') (after_stale hstale (Or.inr ?_) u))
          · have hpos := hlate.2.2
            omega
          · exact honly.1

/-- **So do the uploader's moves.** -/
theorem LateInv.peerMove {p : Node Unit} {m : UploaderMove} (h : LateInv F path shardId p w)
    (he : w.peerMove F m = some w') : LateInv F path shardId p w' := by
  obtain ⟨hsound, hcurrent, hstale, hout, hlast, happends, hdisk, hfiles⟩ := h.sound.peerMove he
  refine ⟨hsound, happends ▸ h.fresh, ?_⟩
  cases h.stage with
  | running last follows place =>
      refine .running (hlast.trans last)
        (Setting.wp_drift follows (.single (Or.inl ⟨(), m, hcurrent⟩))) ?_
      cases place with
      | first fh opens handles stale outbound =>
          exact .first fh opens (handles_of_files hfiles handles) (hstale.trans stale)
            (hout.trans outbound)
      | second second noBuffer => exact .second second (noBuffer_of_files hfiles noBuffer)
      | third only stale => exact .third only (hstale.trans stale)
  | ended ended keeps =>
      refine .ended ⟨ended.1, noBuffer_of_files hfiles ended.2⟩ ?_
      unfold Keeps at keeps ⊢
      rwa [hdisk]

end Invariant

/-! ## Runs -/

open LateWorld

/-- **No frame from before a disconnect is stored after it**, in every run in which no data
frame outlives a connection: all that is appended was sent on the current connection, after
its resume frame, and the shard file is always a beginning of `F`. -/
theorem second_pass_stores_fresh_frames (F : Bytes) (cfg : Config) (fuel : ℕ) (request : Dict)
    (shardId : PyStr) (d : Disk) (hshard : request.getItem "shard_id" = .ok (.str shardId))
    (hfile : ∀ b, d.content (osPathJoin cfg.dataDirectory shardId) = some b → b <+: F)
    {s : Pool.Conf Unit NodeOp NodeOp.Res Exn LateWorld Unit}
    (hrun : (lateUpload F (osPathJoin cfg.dataDirectory shardId)).Reaches NothingLate
      (fun _ => FragmentReceiver.receiveData cfg fuel request, start d) s) :
    (∀ a ∈ s.2.appends, a.2 = false) ∧
      ∀ b, s.2.upload.disk.content (osPathJoin cfg.dataDirectory shardId) = some b → b <+: F := by
  have hspec : Upload.Spec F (osPathJoin cfg.dataDirectory shardId) (.str shardId) () True
      (fun t _ => Upload.AllClosed t) (FragmentReceiver.receiveData cfg fuel request)
      (fun _ _ _ => True) (fun _ _ => True) := Upload.spec_receiveData cfg fuel request hshard rfl
  have hstart : LateInv F (osPathJoin cfg.dataDirectory shardId) (.str shardId)
      (FragmentReceiver.receiveData cfg fuel request) (start d) := by
    refine ⟨⟨Nat.zero_le _, fun _ => rfl, ?_, ?_, ?_⟩, ?_, .running rfl ?_ ?_⟩
    · exact fun raw hraw => absurd hraw List.not_mem_nil
    · exact fun raw hraw => absurd hraw List.not_mem_nil
    · exact fun raw hraw => absurd hraw (by simp [start])
    · exact fun a ha => absurd ha List.not_mem_nil
    · refine Setting.wp_mono (fun _ _ _ => trivial) (hspec _ ⟨⟨hfile, ?_⟩, fun j => ?_⟩)
      · exact fun call hcall => absurd hcall List.not_mem_nil
      · simp [current, start, UploadWorld.start, Transfer.file?, Transfer.withInbox]
    · exact .first none (opens_receiveData cfg fuel request) rfl rfl rfl
  have hinv : LateInv F (osPathJoin cfg.dataDirectory shardId) (.str shardId) (s.1 ()) s.2 := by
    induction hrun with
    | refl => exact hstart
    | tail _ hstep ih =>
        cases hstep with
        | @call ps w w' i o k c r hp hmeets he =>
            have hcall : LateInv F (osPathJoin cfg.dataDirectory shardId) (.str shardId) (ps i) w :=
              ih
            rw [hp] at hcall
            have hnext := hcall.exec hmeets he
            show LateInv F _ _ (Function.update ps i (k r) i) w'
            rwa [Function.update_self]
        | env he => exact ih.peerMove he
  exact ⟨hinv.fresh, hinv.keeps⟩

/-- The upload of `[1, 2]`, one slice each: the connection breaks while the first slice has
been stored and the second is on the way, of which the last `keep` frames outlive it; then
the uploader sends its slice again for the resume frame. -/
def brokenUpload (keep : ℕ) (rest : List (Pool.Event Unit Choice UploaderMove)) :
    List (Pool.Event Unit Choice UploaderMove) :=
  let node : Pool.Event Unit Choice UploaderMove := .thread () {}
  let peer : UploaderMove → Pool.Event Unit Choice UploaderMove := .env
  List.replicate 8 node ++ [peer .take, peer .start, peer (.slice 1)] ++ List.replicate 4 node ++
    [peer .take, peer (.slice 1), .thread () { fault := some .zmqError }, node, node,
      .thread () { keep := keep }] ++
    List.replicate 10 node ++ [peer .take, peer .take, peer (.slice 1)] ++ rest

/-- No frame outlives the connection, and the second slice is stored once. -/
theorem second_pass_stores_fresh_frames_run :
    ∃ s : Pool.Conf Unit NodeOp NodeOp.Res Exn LateWorld Unit,
      (lateUpload [1, 2] (osPathJoin "Data" "s")).Reaches NothingLate
        (fun _ => FragmentReceiver.receiveData {} 5 Upload.sampleRequest, start .empty) s ∧
      s.2.appends.length = 2 ∧ ∀ a ∈ s.2.appends, a.2 = false := by
  obtain ⟨s, hrun, hlen⟩ := Pool.exists_of_run (lateUpload [1, 2] (osPathJoin "Data" "s"))
    NothingLate (fun _ => FragmentReceiver.receiveData {} 5 Upload.sampleRequest, start .empty)
    (brokenUpload 0 (List.replicate 4 (.thread () {})))
    (fun s => s.2.appends.length == 2) (by decide +kernel)
  have hfile : ∀ b, Disk.empty.content (osPathJoin "Data" "s") = some b → b <+: [1, 2] := by
    have hnone : Disk.empty.content (osPathJoin "Data" "s") = none := by decide
    intro b hb
    rw [hnone] at hb
    exact absurd hb (by simp)
  exact ⟨s, hrun, by simpa using hlen,
    (second_pass_stores_fresh_frames [1, 2] {} 5 Upload.sampleRequest "s" .empty rfl hfile hrun).1⟩

/-- The second slice outlives the connection, and the node stores it twice: as the frame of
the old connection, and as the frame that the resume offset asks for. -/
theorem late_frame_stored :
    ∃ s : Pool.Conf Unit NodeOp NodeOp.Res Exn LateWorld Unit,
      (lateUpload [1, 2] (osPathJoin "Data" "s")).Reaches Pool.always
        (fun _ => FragmentReceiver.receiveData {} 5 Upload.sampleRequest, start .empty) s ∧
      ([2], true) ∈ s.2.appends ∧
      s.2.upload.disk.content (osPathJoin "Data" "s") = some [1, 2, 2] := by
  obtain ⟨s, hrun, hs⟩ := Pool.exists_of_run (lateUpload [1, 2] (osPathJoin "Data" "s"))
    Pool.always (fun _ => FragmentReceiver.receiveData {} 5 Upload.sampleRequest, start .empty)
    (brokenUpload 1 (List.replicate 8 (.thread () {}) ++
      [.thread () { fault := some .zmqError }, .thread () {}]))
    (fun s => decide (([2], true) ∈ s.2.appends ∧
      s.2.upload.disk.content (osPathJoin "Data" "s") = some [1, 2, 2])) (by decide +kernel)
  exact ⟨s, hrun, of_decide_eq_true hs⟩

end Late
