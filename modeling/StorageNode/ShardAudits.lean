/-
# Audits of a shard that is being uploaded

An audit reads the shard file at some moment of an upload of `F` and sends its client the
salted hash of what it found there.

* `AuditedShard` : the upload, the handles and replies of the audits, and what their reads
  found;
* `AuditedShard.auditing` : the threads of the upload and of the audits, and the uploader;
* `audited_wp` : each thread in its own setting, along every run;
* `audits_answer_for_the_file` : a reply is the hash of what the file held at a read.

Every operation may fail; a read-only handle is given up by its close in any case.
-/
import StorageNode.RequestDispatcher
import StorageNode.ShardSharing

/-- A read of an audit: what the shard file held, and whether `done_uploading` had been
called. -/
structure AuditRead where
  content : Bytes
  uploaded : Bool
  deriving DecidableEq

/-- The upload with the disk, the handles each audit opened (`none` once closed), the
replies that reached its client, and the history of its reads. -/
structure AuditedShard where
  upload : UploadWorld Unit
  files : ℕ → List (Option OpenFile)
  replies : ℕ → List String
  reads : ℕ → List AuditRead

/-- The exceptions of the operations of an audit. -/
def DispatchOp.mayRaise : DispatchOp → Exn → Bool
  | .node o, e => o.mayRaise e
  | .findAvailablePort, _ => false
  | .readAll _, e => e.isOSError
  | .sendReply _, e => e.isOSError

namespace AuditedShard

/-- The handle `fh` of audit `j`, when it is open. -/
def file? (j fh : ℕ) (w : AuditedShard) : Option OpenFile := ((w.files j)[fh]?).join

/-- Audit `j` gives the handle `fh` up. -/
def drop (j fh : ℕ) (w : AuditedShard) : AuditedShard :=
  { w with files := Function.update w.files j ((w.files j).set fh none) }

/-- What the file holds now, as a read records it. -/
def now (path : PyStr) (w : AuditedShard) : AuditRead :=
  { content := w.upload.disk.held path, uploaded := !w.upload.done.isEmpty }

/-- What a failing operation of audit `j` does. -/
def afterFault (j : ℕ) (w : AuditedShard) : DispatchOp → AuditedShard
  | .node (.closeFile fh) => w.drop j fh
  | _ => w

/-- The operations of audit `j` that succeed. -/
def perform (path : PyStr) (j : ℕ) (w : AuditedShard) :
    (o : DispatchOp) → Option (Except Exn o.Res × AuditedShard)
  | .node (.openFile p m) =>
      (w.upload.disk.openFile p m).map fun (d, f) =>
        (.ok (w.files j).length,
          { w with upload := { w.upload with disk := d },
                   files := Function.update w.files j (w.files j ++ [some f]) })
  | .readAll fh =>
      -- up to the end of the file as it is now
      (w.file? j fh).map fun f =>
        (.ok (f.read (w.upload.disk.data f.inode).length w.upload.disk).1,
          { w with reads := Function.update w.reads j (w.reads j ++ [w.now path]) })
  | .node (.closeFile fh) => some (.ok (), w.drop j fh)
  | .sendReply text =>
      some (.ok (), { w with replies := Function.update w.replies j (w.replies j ++ [text]) })
  | _ => none

/-- The operations of the upload, for `none`, and of the audits. -/
def exec (path : PyStr) (i : Option ℕ) (o : DispatchOp) (c : Choice) (w : AuditedShard) :
    Option (Except Exn o.Res × AuditedShard) :=
  match i with
  | none =>
      match o with
      | .node o => (w.upload.exec path () o c).map fun ru => (ru.1, { w with upload := ru.2 })
      | _ => none
  | some j =>
      match c.fault with
      | some e => if o.mayRaise e then some (.error e, w.afterFault j o) else none
      | none => w.perform path j o

/-- **The upload of `F` and the audits**, at the shard file `path`. -/
def auditing (F : Bytes) (path : PyStr) :
    Pool (Option ℕ) DispatchOp DispatchOp.Res Exn Choice UploaderMove AuditedShard where
  exec i o c w := w.exec path i o c
  env m w := (w.upload.peerMove F () m).map fun u => { w with upload := u }

/-- The programs: the transfer, and for each audit its request with the client's
connection. -/
def programs (cfg : Config) (hexdigest : Bytes → String) (fuel : ℕ) (upload : Dict)
    (audit : ℕ → Dict) : Option ℕ → Dispatch Unit
  | none => (FragmentReceiver.receiveData cfg fuel upload).run
  | some j => RequestDispatcher.dispatch cfg hexdigest fuel (audit j) true

/-- The world in which they start. -/
def start (d : Disk) : AuditedShard :=
  { upload := UploadWorld.start d, files := fun _ => [], replies := fun _ => [],
    reads := fun _ => [] }

/-- What one operation of an audit can do. -/
theorem exec_audit {path : PyStr} {j : ℕ} {o : DispatchOp} {c : Choice} {w w' : AuditedShard}
    {r : Except Exn o.Res} (h : w.exec path (some j) o c = some (r, w')) :
    ((∃ e, r = .error e) ∧ w' = w.afterFault j o) ∨ w.perform path j o = some (r, w') := by
  unfold exec at h
  cases hf : c.fault with
  | none =>
      rw [hf] at h
      exact Or.inr h
  | some e =>
      simp only [hf] at h
      rw [Option.ite_none_right_eq_some] at h
      simp only [Option.some.injEq, Prod.mk.injEq] at h
      exact Or.inl ⟨⟨e, h.2.1.symm⟩, h.2.2.symm⟩

end AuditedShard

namespace Audit

open Setting Upload AuditedShard
open Download (held_startsFile held_of_done held_grows held_of_lookup)

/-! ## The settings -/

section Settings

variable (F : Bytes) (path : PyStr) (shardId : Json) (hexdigest : Bytes → String)
  (salt : ℕ → PyStr)

/-- The reply is the hash of the salt's bytes behind the content. -/
def SaltedHash (hexdigest : Bytes → String) (salt : PyStr) (content : Bytes)
    (reply : String) : Prop :=
  ∃ encoded, salt.encode? = some encoded ∧ reply = hexdigest (content ++ encoded)

/-- **The replies of audit `j`**: one at most, the salted hash of what a read of it found. -/
def Answered (j : ℕ) (w : AuditedShard) : Prop :=
  (w.replies j).length ≤ 1 ∧ ∀ reply ∈ w.replies j, ∃ read ∈ w.reads j,
    SaltedHash hexdigest (salt j) read.content reply

/-- The upload and its setting, in the larger world. -/
def uploadPart : Setting NodeOp NodeOp.Res Exn AuditedShard :=
  (uploadSetting F path shardId () True).along (fun w => w.upload)
    fun w w' => w'.files = w.files ∧ w'.replies = w.replies ∧ w'.reads = w.reads

/-- **The setting of each thread.**  The upload leaves the audits alone; an audit leaves the
upload, the disk and the other audits alone. -/
def auditedSetting : Option ℕ → Setting DispatchOp DispatchOp.Res Exn AuditedShard
  | none =>
      { exec := fun o => match o with
          | .node o => (uploadPart F path shardId).exec o
          | _ => fun _ _ _ => False
        env := (uploadPart F path shardId).env
        guar := (uploadPart F path shardId).guar
        inv := (uploadPart F path shardId).inv }
  | some j =>
      { exec := fun o w r w' => ∃ c, w.exec path (some j) o c = some (r, w')
        env := fun w w' => w'.files j = w.files j ∧ w'.replies j = w.replies j ∧
          w'.reads j = w.reads j ∧ DiskGrows path w.upload.disk w'.upload.disk
        guar := fun w w' => w'.upload = w.upload ∧ ∀ k, k ≠ j →
          w'.files k = w.files k ∧ w'.replies k = w.replies k ∧ w'.reads k = w.reads k
        inv := Answered hexdigest salt j }

end Settings

section Audits

variable {F : Bytes} {path : PyStr} {shardId : Json} {hexdigest : Bytes → String}
  {salt : ℕ → PyStr}

/-- What a thread does is something the others expect. -/
theorem audited_guar (i j : Option ℕ) (w w' : AuditedShard) (hj : j ≠ i)
    (hg : (auditedSetting F path shardId hexdigest salt i).guar w w') :
    (auditedSetting F path shardId hexdigest salt j).env w w' := by
  cases i with
  | none =>
      cases j with
      | none => exact absurd rfl hj
      | some j =>
          obtain ⟨⟨-, -, hgrow⟩, hfiles, hreplies, hreads⟩ := hg
          exact ⟨congrFun hfiles j, congrFun hreplies j, congrFun hreads j, hgrow⟩
  | some i =>
      obtain ⟨hupload, hothers⟩ := hg
      cases j with
      | none => exact drift_of_eq hupload
      | some j =>
          obtain ⟨hfiles, hreplies, hreads⟩ := hothers j fun h => hj (congrArg some h)
          refine ⟨hfiles, hreplies, hreads, ?_⟩
          rw [hupload]
          exact DiskGrows.refl _ _

/-- So is what the uploader does. -/
theorem audited_env (i : Option ℕ) (m : UploaderMove) (w w' : AuditedShard)
    (h : (auditing F path).env m w = some w') :
    (auditedSetting F path shardId hexdigest salt i).env w w' := by
  obtain ⟨u, hu, rfl⟩ := Option.map_eq_some_iff.mp h
  cases i with
  | none => exact .single (Or.inl ⟨(), m, hu⟩)
  | some j =>
      obtain ⟨t, -, rfl⟩ := Option.map_eq_some_iff.mp hu
      exact ⟨rfl, rfl, rfl, DiskGrows.refl _ _⟩

/-- The operations of the threads are those of their settings. -/
theorem audited_exec (i : Option ℕ) (o : DispatchOp) (c : Choice) (w : AuditedShard)
    (r : Except Exn o.Res) (w' : AuditedShard) (h : w.exec path i o c = some (r, w')) :
    (auditedSetting F path shardId hexdigest salt i).exec o w r w' := by
  cases i with
  | some j => exact ⟨c, h⟩
  | none =>
      cases o with
      | node o =>
          obtain ⟨⟨r', u⟩, hu, heq⟩ := Option.map_eq_some_iff.mp h
          simp only [Prod.mk.injEq] at heq
          obtain ⟨rfl, rfl⟩ := heq
          exact ⟨⟨c, hu, Or.inl trivial⟩, rfl, rfl, rfl⟩
      | _ => exact absurd h (by simp [AuditedShard.exec])

/-! ## One audit -/

/-- The setting of audit `j`. -/
abbrev auditSetting (F : Bytes) (path : PyStr) (shardId : Json) (hexdigest : Bytes → String)
    (salt : ℕ → PyStr) (j : ℕ) : Setting DispatchOp DispatchOp.Res Exn AuditedShard :=
  auditedSetting F path shardId hexdigest salt (some j)

/-- The handles of audit `j` are `files`, and it has not replied. -/
def Silent (j : ℕ) (files : List (Option OpenFile)) (w : AuditedShard) : Prop :=
  w.files j = files ∧ w.replies j = []

/-- The handle reads the shard file from its beginning. -/
def Opened (path : PyStr) (j : ℕ) (w : AuditedShard) : Prop :=
  ∃ ino, Silent j [some { inode := ino, mode := .rb, pos := 0, buf := [] }] w ∧
    w.upload.disk.lookup path = some ino

/-- A read of audit `j` found `b`. -/
def HasRead (j : ℕ) (b : Bytes) (w : AuditedShard) : Prop := ∃ read ∈ w.reads j, read.content = b

/-- What is left of an audit that has ended. -/
def Over (hexdigest : Bytes → String) (salt : ℕ → PyStr) (j : ℕ) (w : AuditedShard) : Prop :=
  Answered hexdigest salt j w ∧ ∀ fh, w.file? j fh = none

theorem Silent.answered {j : ℕ} {files : List (Option OpenFile)} {w : AuditedShard}
    (h : Silent j files w) : Answered hexdigest salt j w := by
  unfold Answered
  rw [h.2]
  exact ⟨by simp, fun reply hr => absurd hr List.not_mem_nil⟩

theorem Silent.over {j : ℕ} {files : List (Option OpenFile)} {w : AuditedShard}
    (h : Silent j files w) (hfiles : ∀ f ∈ files, f = none) : Over hexdigest salt j w := by
  refine ⟨h.answered, fun fh => ?_⟩
  unfold file?
  rw [h.1]
  cases hg : files[fh]? with
  | none => rfl
  | some f => exact hfiles f (List.mem_of_getElem? hg)

/-- The others leave what an audit knows of itself alone. -/
theorem settled_audit {j : ℕ} {A : AuditedShard → Prop}
    (hsafe : ∀ w, A w → Answered hexdigest salt j w)
    (hstable : ∀ w w' : AuditedShard, A w → w'.files j = w.files j → w'.replies j = w.replies j →
      w'.reads j = w.reads j → DiskGrows path w.upload.disk w'.upload.disk → A w') :
    (auditSetting F path shardId hexdigest salt j).Settled A :=
  ⟨fun w w' ha ⟨hf, hr, hreads, hg⟩ => hstable w w' ha hf hr hreads hg, hsafe⟩

theorem settled_silent (j : ℕ) (files : List (Option OpenFile)) :
    (auditSetting F path shardId hexdigest salt j).Settled (Silent j files) := by
  refine settled_audit (fun _ h => h.answered) ?_
  rintro w w' ⟨hfiles, hreplies⟩ hf hr - -
  exact ⟨hf.trans hfiles, hr.trans hreplies⟩

theorem settled_opened (j : ℕ) :
    (auditSetting F path shardId hexdigest salt j).Settled (Opened path j) := by
  refine settled_audit (fun _ ⟨_, h, _⟩ => h.answered) ?_
  rintro w w' ⟨ino, ⟨hfiles, hreplies⟩, hlookup⟩ hf hr - hg
  exact ⟨ino, ⟨hf.trans hfiles, hr.trans hreplies⟩, (hg ino hlookup).1⟩

theorem settled_read (j : ℕ) (files : List (Option OpenFile)) (b : Bytes) :
    (auditSetting F path shardId hexdigest salt j).Settled
      (fun w => Silent j files w ∧ HasRead j b w) := by
  refine settled_audit (fun _ h => h.1.answered) ?_
  rintro w w' ⟨⟨hfiles, hreplies⟩, hread⟩ hf hr hreads -
  refine ⟨⟨hf.trans hfiles, hr.trans hreplies⟩, ?_⟩
  unfold HasRead
  rw [hreads]
  exact hread

theorem settled_hasRead (j : ℕ) (b : Bytes) :
    (auditSetting F path shardId hexdigest salt j).Settled
      (fun w => (∃ f, Silent j [some f] w) ∧ HasRead j b w) := by
  constructor
  · rintro w w' ⟨⟨f, hf⟩, hread⟩ he
    have h := (settled_read j [some f] b).stable w w' ⟨hf, hread⟩ he
    exact ⟨⟨f, h.1⟩, h.2⟩
  · rintro w ⟨⟨_, hf⟩, -⟩
    exact hf.answered

theorem settled_over (j : ℕ) :
    (auditSetting F path shardId hexdigest salt j).Settled (Over hexdigest salt j) := by
  refine settled_audit (fun _ h => h.1) ?_
  rintro w w' ⟨hanswered, hfiles⟩ hf hr hreads -
  refine ⟨?_, fun fh => ?_⟩
  · unfold Answered
    rw [hr, hreads]
    exact hanswered
  · unfold file?
    rw [hf]
    exact hfiles fh

/-- An operation of an audit leaves the upload and the other audits alone. -/
def Frame (j : ℕ) (w w' : AuditedShard) : Prop :=
  w'.upload = w.upload ∧ ∀ k, k ≠ j →
    w'.files k = w.files k ∧ w'.replies k = w.replies k ∧ w'.reads k = w.reads k

theorem frame_drop (j fh : ℕ) (w : AuditedShard) : Frame j w (w.drop j fh) :=
  ⟨rfl, fun _ hk => ⟨Function.update_of_ne hk .., rfl, rfl⟩⟩

theorem frame_refl (j : ℕ) (w : AuditedShard) : Frame j w w := ⟨rfl, fun _ _ => ⟨rfl, rfl, rfl⟩⟩

/-- Opening a file for reading. -/
theorem openFile_rb_iff {d d' : Disk} {p : PyStr} {f : OpenFile} :
    d.openFile p .rb = some (d', f) ↔
      ∃ ino, d.lookup p = some ino ∧ d' = d ∧
        f = { inode := ino, mode := .rb, pos := 0, buf := [] } := by
  constructor
  · intro h
    cases hl : d.lookup p with
    | none =>
        unfold Disk.openFile at h
        split at h
        · next i hi => rw [hl] at hi; exact absurd hi (by simp)
        · exact absurd h (by simp)
    | some ino =>
        rw [Disk.openFile_rb hl, Option.some.injEq, Prod.mk.injEq] at h
        exact ⟨ino, rfl, h.1.symm, h.2.symm⟩
  · rintro ⟨ino, hl, rfl, rfl⟩
    exact Disk.openFile_rb hl

theorem spec_openFile (j : ℕ) :
    (auditSetting F path shardId hexdigest salt j).Spec (Silent j [])
      (dispatchOp (.node (.openFile path .rb)))
      (fun fh w => fh = 0 ∧ Opened path j w) (Over hexdigest salt j) := by
  have hsettled : ∀ fh, (auditSetting F path shardId hexdigest salt j).Settled
      (fun w => fh = 0 ∧ Opened path j w) :=
    fun fh => ⟨fun w w' h he => ⟨h.1, (settled_opened j).stable w w' h.2 he⟩,
      fun w h => (settled_opened j).safe w h.2⟩
  refine spec_perform (settled_silent j []) hsettled (settled_over j) ?_
  rintro w r w' hsilent ⟨c, he⟩
  rcases exec_audit he with ⟨⟨e, rfl⟩, rfl⟩ | hp
  · exact ⟨frame_refl j _, hsilent.over (by simp)⟩
  · simp only [AuditedShard.perform, Option.map_eq_some_iff, Prod.mk.injEq] at hp
    obtain ⟨⟨d, f⟩, hopen, rfl, rfl⟩ := hp
    obtain ⟨ino, hlookup, rfl, rfl⟩ := openFile_rb_iff.mp hopen
    refine ⟨⟨rfl, fun k hk => ⟨Function.update_of_ne hk .., rfl, rfl⟩⟩, ?_, ino, ⟨?_, hsilent.2⟩,
      hlookup⟩
    · rw [hsilent.1]
      rfl
    · show Function.update w.files j _ j = _
      rw [Function.update_self, hsilent.1]
      rfl

/-- **The read** finds what the file holds, and that is what the history records. -/
theorem spec_readAll (j : ℕ) :
    (auditSetting F path shardId hexdigest salt j).Spec (Opened path j)
      (dispatchOp (.readAll 0))
      (fun b w => (∃ f, Silent j [some f] w) ∧ HasRead j b w)
      (fun w => ∃ f, Silent j [some f] w) := by
  refine spec_perform (settled_opened j) (settled_hasRead j)
    (Settled.exists fun f => settled_silent j [some f]) ?_
  rintro w r w' ⟨ino, hsilent, hlookup⟩ ⟨c, he⟩
  rcases exec_audit he with ⟨⟨e, rfl⟩, rfl⟩ | hp
  · exact ⟨frame_refl j _, _, hsilent⟩
  · simp only [AuditedShard.perform, file?, hsilent.1, Option.map_eq_some_iff, Prod.mk.injEq] at hp
    obtain ⟨f, hf, rfl, rfl⟩ := hp
    obtain rfl : _ = f := Option.some.inj hf
    refine ⟨⟨rfl, fun k hk => ⟨rfl, rfl, Function.update_of_ne hk ..⟩⟩, ⟨_, hsilent⟩, w.now path, ?_, ?_⟩
    · show w.now path ∈ Function.update w.reads j _ j
      rw [Function.update_self]
      exact List.mem_append_right _ List.mem_cons_self
    · show w.upload.disk.held path = _
      rw [held_of_lookup hlookup]
      simp [OpenFile.read]

/-- The close gives the handle up, also when it fails. -/
theorem spec_closeFile {j : ℕ} {A B : AuditedShard → Prop}
    (hA : (auditSetting F path shardId hexdigest salt j).Settled A)
    (hB : (auditSetting F path shardId hexdigest salt j).Settled B)
    (hdrop : ∀ w, A w → B (w.drop j 0)) (hover : ∀ w, B w → Over hexdigest salt j w) :
    (auditSetting F path shardId hexdigest salt j).Spec A (dispatchOp (.node (.closeFile 0)))
      (fun _ => B) (Over hexdigest salt j) := by
  refine spec_perform hA (fun _ => hB) (settled_over j) ?_
  rintro w r w' ha ⟨c, he⟩
  rcases exec_audit he with ⟨⟨e, rfl⟩, rfl⟩ | hp
  · exact ⟨frame_drop j 0 w, hover _ (hdrop w ha)⟩
  · simp only [AuditedShard.perform, Option.some.injEq, Prod.mk.injEq] at hp
    obtain ⟨rfl, rfl⟩ := hp
    exact ⟨frame_drop j 0 w, hdrop w ha⟩

theorem silent_drop {j : ℕ} {f : Option OpenFile} {w : AuditedShard} (h : Silent j [f] w) :
    Silent j [none] (w.drop j 0) := by
  refine ⟨?_, h.2⟩
  show Function.update w.files j _ j = _
  rw [Function.update_self, h.1]
  rfl

theorem spec_sendReply (j : ℕ) {b : Bytes} {digest : String}
    (hdigest : SaltedHash hexdigest (salt j) b digest) :
    (auditSetting F path shardId hexdigest salt j).Spec
      (fun w => Silent j [none] w ∧ HasRead j b w) (dispatchOp (.sendReply digest))
      (fun _ => Over hexdigest salt j) (Over hexdigest salt j) := by
  refine spec_perform (settled_read j _ b) (fun _ => settled_over j) (settled_over j) ?_
  rintro w r w' ⟨hsilent, read, hread, hb⟩ ⟨c, he⟩
  rcases exec_audit he with ⟨⟨e, rfl⟩, rfl⟩ | hp
  · exact ⟨frame_refl j _, hsilent.over (by simp)⟩
  · simp only [AuditedShard.perform, Option.some.injEq, Prod.mk.injEq] at hp
    obtain ⟨rfl, rfl⟩ := hp
    refine ⟨⟨rfl, fun k hk => ⟨rfl, Function.update_of_ne hk .., rfl⟩⟩, ?_, ?_⟩
    · refine ⟨?_, ?_⟩
      · show (Function.update w.replies j _ j).length ≤ 1
        rw [Function.update_self, hsilent.2]
        exact le_rfl
      · intro reply hreply
        have hreply : reply ∈ Function.update w.replies j _ j := hreply
        rw [Function.update_self, hsilent.2, List.nil_append, List.mem_singleton] at hreply
        refine ⟨read, hread, ?_⟩
        rw [hreply, hb]
        exact hdigest
    · have hover : Over hexdigest salt j w := hsilent.over (by simp)
      exact hover.2

/-- `compute_salted_hash` reads the shard file once and gives the handle up. -/
theorem spec_computeSaltedHash (j : ℕ) (cfg : Config)
    (hpath : joinPath cfg.dataDirectory shardId = .ok path) :
    (auditSetting F path shardId hexdigest salt j).Spec (Silent j [])
      (IntegrityVerifier.computeSaltedHash cfg hexdigest shardId (.str (salt j)))
      (fun digest w => ∃ b, SaltedHash hexdigest (salt j) b digest ∧
        Silent j [none] w ∧ HasRead j b w) (Over hexdigest salt j) := by
  unfold IntegrityVerifier.computeSaltedHash
  simp only [hpath, Prog.ofExcept, Prog.bind_eq, Prog.ret_bind]
  refine spec_bind (spec_openFile j) fun fh => spec_pure fun hfh => ?_
  subst hfh
  refine spec_bind (B := fun b w => Silent j [none] w ∧ HasRead j b w)
    (spec_tryFinally (settled_read j [none]) (settled_over j) (spec_readAll j) (fun b => ?_) ?_)
    fun b => ?_
  · refine spec_closeFile (settled_hasRead j b) (settled_read j [none] b) ?_
      fun w h => h.1.over (by simp)
    rintro w ⟨⟨f, hf⟩, hread⟩
    exact ⟨silent_drop hf, hread⟩
  · refine spec_closeFile (Settled.exists fun f => settled_silent j [some f]) (settled_over j) ?_
      fun _ h => h
    rintro w ⟨f, hf⟩
    exact (silent_drop hf).over (by simp)
  · rw [IntegrityVerifier.encodeSalt]
    cases hencode : (salt j).encode? with
    | none =>
        exact spec_raise (settled_read j [none] b) fun w hw => hw.1.over (by simp)
    | some encoded =>
        exact spec_ret (settled_read j [none] b) fun w hw => ⟨b, ⟨encoded, hencode, rfl⟩, hw⟩

/-- **One audit**: it reads the shard file once, gives the handle up and replies. -/
theorem spec_dispatch_audit (j : ℕ) (cfg : Config) (fuel : ℕ) (audit : Dict)
    (htype : audit.getItem "type" = .ok (.str "audit"))
    (hshard : audit.getItem "shard_id" = .ok shardId)
    (hsalt : audit.getItem "salt" = .ok (.str (salt j)))
    (hpath : joinPath cfg.dataDirectory shardId = .ok path) :
    (auditSetting F path shardId hexdigest salt j).Spec (Silent j [])
      (RequestDispatcher.dispatch cfg hexdigest fuel audit true)
      (fun _ => Over hexdigest salt j) (Over hexdigest salt j) := by
  unfold RequestDispatcher.dispatch
  simp only [htype, hshard, hsalt, Prog.ofExcept, Prog.bind_eq, Prog.ret_bind, if_true]
  refine spec_bind (spec_computeSaltedHash j cfg hpath) fun digest => spec_exists fun b =>
    spec_pure fun hdigest => ?_
  exact spec_sendReply j hdigest

/-- **Each thread in its own setting**, along every run. -/
theorem audited_wp {cfg : Config} {fuel : ℕ} {upload : Dict} {audit : ℕ → Dict}
    (hupload : upload.getItem "shard_id" = .ok shardId)
    (htype : ∀ j, (audit j).getItem "type" = .ok (.str "audit"))
    (hshard : ∀ j, (audit j).getItem "shard_id" = .ok shardId)
    (hsalt : ∀ j, (audit j).getItem "salt" = .ok (.str (salt j)))
    (hpath : joinPath cfg.dataDirectory shardId = .ok path) {d : Disk}
    (hfile : ∀ b, d.content path = some b → b <+: F)
    {s : Pool.Conf (Option ℕ) DispatchOp DispatchOp.Res Exn AuditedShard Unit}
    (hrun : (auditing F path).Reaches Pool.always
      (programs cfg hexdigest fuel upload audit, AuditedShard.start d) s) (i : Option ℕ) :
    (auditedSetting F path shardId hexdigest salt i).wp (s.1 i)
      (fun _ w => ∀ j, i = some j → Over hexdigest salt j w) s.2 := by
  refine Pool.wp_reaches (Q := fun i _ w => ∀ j, i = some j → Over hexdigest salt j w) _ _
    (auditedSetting F path shardId hexdigest salt)
    (fun i o c w r w' _ h => audited_exec i o c w r w' h) audited_guar audited_env hrun
    (fun i => ?_) i
  cases i with
  | none =>
      have hspec : Upload.Spec F path shardId () True (fun t _ => AllClosed t)
          (FragmentReceiver.receiveData cfg fuel upload) (fun _ _ _ => True) (fun _ _ => True) :=
        spec_receiveData cfg fuel upload hupload hpath
      have hwp : (uploadPart F path shardId).wp (FragmentReceiver.receiveData cfg fuel upload)
          (fun _ _ => True) (AuditedShard.start d) := by
        refine wp_mono (fun _ _ _ => trivial) (wp_along (hspec _ ⟨⟨hfile, ?_⟩, fun j => ?_⟩))
        · exact fun call hcall => absurd hcall List.not_mem_nil
        · simp [AuditedShard.start, UploadWorld.start, Transfer.file?]
      have hrun : (auditedSetting F path shardId hexdigest salt none).wp
          (FragmentReceiver.receiveData cfg fuel upload).run (fun _ _ => True)
          (AuditedShard.start d) :=
        wp_inject (S := auditedSetting F path shardId hexdigest salt none)
          (T := uploadPart F path shardId) (f := DispatchOp.node) (g := fun _ r => r)
          (fun _ _ _ _ h => h) (fun _ _ h => h) (fun _ _ h => h) (fun _ h => h) hwp
      exact wp_mono (fun _ _ _ j hj => absurd hj (by simp)) hrun
  | some j =>
      refine wp_mono (fun r w hr j' hj' => ?_) (spec_dispatch_audit (F := F) j cfg fuel (audit j)
        (htype j) (hshard j) (hsalt j) hpath _ ⟨rfl, rfl⟩)
      obtain rfl := Option.some.inj hj'
      cases r with
      | ok a => exact hr
      | error e => exact hr

/-! ## What the reads found -/

variable (F path) in
/-- **The invariant.**  After `done_uploading` the file holds all of `F`; a read found a
beginning of `F`, and all of it after `done_uploading`. -/
structure Told (w : AuditedShard) : Prop where
  whole : w.upload.done ≠ [] → w.upload.disk.held path = F
  reads : ∀ j, ∀ read ∈ w.reads j, read.content <+: F ∧ (read.uploaded = true → read.content = F)

/-- The operations of the upload keep it. -/
theorem Told.upload {o : NodeOp} {c : Choice} {w : AuditedShard} {u : UploadWorld Unit}
    {r : Except Exn o.Res} (h : Told F path w) (hu : w.upload.exec path () o c = some (r, u))
    (hgood : Good F path shardId u) (hgrow : DiskGrows path w.upload.disk u.disk) :
    Told F path { w with upload := u } := by
  refine ⟨fun hdone => ?_, h.reads⟩
  by_cases ho : ∃ id, o = .doneUploading id
  · obtain ⟨id, rfl⟩ := ho
    exact held_of_done hu hgood
  · have hsame := UploadWorld.exec_done (fun id hid => ho ⟨id, hid⟩) hu
    have hdone : u.done ≠ [] := hdone
    have hwhole := h.whole (hsame ▸ hdone)
    refine (held_startsFile hgood).eq_of_length_le ?_
    rw [← hwhole]
    exact (held_grows hgrow).length_le

/-- A read of the file as it is now. -/
theorem Told.now {w : AuditedShard} (h : Told F path w) (hgood : Good F path shardId w.upload) :
    (w.now path).content <+: F ∧ ((w.now path).uploaded = true → (w.now path).content = F) := by
  refine ⟨held_startsFile hgood, fun hup => h.whole fun hnil => ?_⟩
  have hup : (!w.upload.done.isEmpty) = true := hup
  rw [hnil] at hup
  exact absurd hup (by simp)

/-- An operation of an audit adds at most a read of the file as it is. -/
theorem exec_reads {j : ℕ} {o : DispatchOp} {c : Choice} {w w' : AuditedShard}
    {r : Except Exn o.Res} (he : w.exec path (some j) o c = some (r, w')) :
    w'.reads = w.reads ∨
      w'.reads = Function.update w.reads j (w.reads j ++ [w.now path]) := by
  rcases exec_audit he with ⟨-, rfl⟩ | hp
  · refine Or.inl ?_
    cases o with
    | node o => cases o <;> rfl
    | _ => rfl
  · cases o with
    | findAvailablePort => exact absurd hp (by simp [AuditedShard.perform])
    | readAll fh =>
        simp only [AuditedShard.perform, Option.map_eq_some_iff, Prod.mk.injEq] at hp
        obtain ⟨f, -, -, rfl⟩ := hp
        exact Or.inr rfl
    | sendReply text =>
        simp only [AuditedShard.perform, Option.some.injEq, Prod.mk.injEq] at hp
        obtain ⟨-, rfl⟩ := hp
        exact Or.inl rfl
    | node o =>
        refine Or.inl ?_
        cases o with
        | openFile p m =>
            simp only [AuditedShard.perform, Option.map_eq_some_iff, Prod.mk.injEq] at hp
            obtain ⟨df, -, -, rfl⟩ := hp
            rfl
        | closeFile fh =>
            simp only [AuditedShard.perform, Option.some.injEq, Prod.mk.injEq] at hp
            obtain ⟨-, rfl⟩ := hp
            rfl
        | _ => exact absurd hp (by simp [AuditedShard.perform])

/-- The operations of an audit keep it. -/
theorem Told.audit {j : ℕ} {o : DispatchOp} {c : Choice} {w w' : AuditedShard}
    {r : Except Exn o.Res} (h : Told F path w) (he : w.exec path (some j) o c = some (r, w'))
    (hupload : w'.upload = w.upload) (hgood : Good F path shardId w.upload) : Told F path w' := by
  refine ⟨?_, fun k read hread => ?_⟩
  · rw [hupload]
    exact h.whole
  rcases exec_reads he with hreads | hreads
  · rw [hreads] at hread
    exact h.reads k read hread
  · rw [hreads] at hread
    by_cases hk : k = j
    · subst hk
      rw [Function.update_self] at hread
      rcases List.mem_append.mp hread with hread | hread
      · exact h.reads k read hread
      · rw [List.mem_singleton.mp hread]
        exact h.now hgood
    · rw [Function.update_of_ne hk] at hread
      exact h.reads k read hread

/-- **The invariant along every run.** -/
theorem told_reaches {cfg : Config} {fuel : ℕ} {upload : Dict} {audit : ℕ → Dict}
    (hupload : upload.getItem "shard_id" = .ok shardId)
    (htype : ∀ j, (audit j).getItem "type" = .ok (.str "audit"))
    (hshard : ∀ j, (audit j).getItem "shard_id" = .ok shardId)
    (hsalt : ∀ j, (audit j).getItem "salt" = .ok (.str (salt j)))
    (hpath : joinPath cfg.dataDirectory shardId = .ok path) {d : Disk}
    (hfile : ∀ b, d.content path = some b → b <+: F)
    {s : Pool.Conf (Option ℕ) DispatchOp DispatchOp.Res Exn AuditedShard Unit}
    (hrun : (auditing F path).Reaches Pool.always
      (programs cfg hexdigest fuel upload audit, AuditedShard.start d) s) : Told F path s.2 := by
  induction hrun with
  | refl => exact ⟨fun hdone => absurd rfl hdone, fun j read hread => absurd hread List.not_mem_nil⟩
  | tail hprev hstep ih =>
      have hwp := audited_wp hupload htype hshard hsalt hpath hfile hprev
      cases hstep with
      | env hm =>
          obtain ⟨u, hu, rfl⟩ := Option.map_eq_some_iff.mp hm
          obtain ⟨t, -, rfl⟩ := Option.map_eq_some_iff.mp hu
          exact ⟨ih.whole, ih.reads⟩
      | @call ps w w' i o k c r hp hmeets he =>
          have hcall := hwp i
          rw [show (ps, w).1 i = .call o k from hp] at hcall
          have hguar := (wp_call hcall (audited_exec i o c w r w' he)).1
          cases i with
          | some j => exact ih.audit he hguar.1 (wp_inv (hwp none))
          | none =>
              cases o with
              | node o =>
                  obtain ⟨⟨r', u⟩, hu, heq⟩ := Option.map_eq_some_iff.mp he
                  simp only [Prod.mk.injEq] at heq
                  obtain ⟨rfl, rfl⟩ := heq
                  exact ih.upload hu hguar.1.2.1 hguar.1.2.2
              | _ => exact absurd he (by simp [auditing, AuditedShard.exec])

end Audits

/-- **An audit answers for the file as it was.**  Next to an upload of `F`, with a fault at
any operation and from any beginning of `F`, and any number of other audits: an audit sends
at most one reply, the hash of its salt behind what the file held at a read.  That is a
beginning of `F`, and all of `F` if `done_uploading` had been called by then.  However the
audit ends, it has no file open. -/
theorem audits_answer_for_the_file (F : Bytes) (cfg : Config) (hexdigest : Bytes → String)
    (fuel : ℕ) (upload : Dict) (audit : ℕ → Dict) (shardId : PyStr) (salt : ℕ → PyStr) (d : Disk)
    (hupload : upload.getItem "shard_id" = .ok (.str shardId))
    (htype : ∀ j, (audit j).getItem "type" = .ok (.str "audit"))
    (hshard : ∀ j, (audit j).getItem "shard_id" = .ok (.str shardId))
    (hsalt : ∀ j, (audit j).getItem "salt" = .ok (.str (salt j)))
    (hfile : ∀ b, d.content (osPathJoin cfg.dataDirectory shardId) = some b → b <+: F)
    {s : Pool.Conf (Option ℕ) DispatchOp DispatchOp.Res Exn AuditedShard Unit}
    (hrun : (auditing F (osPathJoin cfg.dataDirectory shardId)).Reaches Pool.always
      (programs cfg hexdigest fuel upload audit, AuditedShard.start d) s) (j : ℕ) :
    (s.2.replies j).length ≤ 1 ∧
      (∀ reply ∈ s.2.replies j, ∃ read ∈ s.2.reads j,
        SaltedHash hexdigest (salt j) read.content reply ∧ read.content <+: F ∧
          (read.uploaded = true → read.content = F)) ∧
      ((s.1 (some j)).ended = true → ∀ fh, s.2.file? j fh = none) := by
  have htold := told_reaches hupload htype hshard hsalt rfl hfile hrun
  have hwp := audited_wp (F := F) hupload htype hshard hsalt rfl hfile hrun (some j)
  obtain ⟨hlength, hreplies⟩ := wp_inv hwp
  refine ⟨hlength, fun reply hreply => ?_, fun hended => ?_⟩
  · obtain ⟨read, hread, heq⟩ := hreplies reply hreply
    exact ⟨read, hread, heq, htold.reads j read hread⟩
  · cases hp : s.1 (some j) with
    | ret a =>
        rw [hp] at hwp
        exact ((hwp _ .refl).2 j rfl).2
    | raise e =>
        rw [hp] at hwp
        exact ((hwp _ .refl).2 j rfl).2
    | call o k =>
        rw [hp] at hended
        exact absurd hended (by simp [Prog.ended])
    | hang =>
        rw [hp] at hended
        exact absurd hended (by simp [Prog.ended])

/-- The request of every audit. -/
def sampleAudit (_ : ℕ) : Dict := [("type", .str "audit"), ("shard_id", .str "s"), ("salt", .str "")]

/-- An event of a run. -/
abbrev AuditingEvent := Pool.Event (Option ℕ) Choice UploaderMove

theorem no_shard_before : Disk.empty.lookup (osPathJoin "Data" "s") = none := rfl

/-- The shard file with the first of two bytes, from an earlier upload. -/
def startedDisk : Disk := (Disk.empty.create (osPathJoin "Data" "s") no_shard_before).setData 0 [1]

/-- The next upload of the two bytes, up to the second one, which is in the buffer of the file,
and an audit. -/
def auditedFirstByte : List AuditingEvent :=
  let node : AuditingEvent := .thread none {}
  List.replicate 10 node ++ [.env .take, .env .take, .env (.slice 1)] ++ List.replicate 4 node ++
    List.replicate 4 (.thread (some 0) {})

/-- An audit of a shard of which one byte is there, with the bytes themselves for a hash. -/
theorem audits_answer_for_the_first_byte :
    ∃ s : Pool.Conf (Option ℕ) DispatchOp DispatchOp.Res Exn AuditedShard Unit,
      (auditing [1, 2] (osPathJoin "Data" "s")).Reaches Pool.always
        (programs { chunkSize := 2 } (fun b => toString b) 5 Upload.sampleRequest sampleAudit,
          AuditedShard.start startedDisk) s ∧
      s.2.replies 0 = ["[1]"] ∧
      ∀ reply ∈ s.2.replies 0, ∃ read ∈ s.2.reads 0,
        SaltedHash (fun b => toString b) ("" : PyStr) read.content reply ∧
          read.content <+: [1, 2] ∧ (read.uploaded = true → read.content = [1, 2]) := by
  obtain ⟨s, hrun, hreplies⟩ := Pool.exists_of_run (auditing [1, 2] (osPathJoin "Data" "s"))
    Pool.always
    (programs { chunkSize := 2 } (fun b => toString b) 5 Upload.sampleRequest sampleAudit,
      AuditedShard.start startedDisk)
    auditedFirstByte (fun s => decide (s.2.replies 0 = ["[1]"])) (by decide +kernel)
  have hfile : ∀ b, startedDisk.content (osPathJoin "Data" "s") = some b → b <+: [1, 2] := by
    have hsome : startedDisk.content (osPathJoin "Data" "s") = some [1] := by decide
    intro b hb
    rw [hsome] at hb
    cases hb
    decide
  exact ⟨s, hrun, of_decide_eq_true hreplies,
    (audits_answer_for_the_file [1, 2] { chunkSize := 2 } (fun b => toString b) 5
      Upload.sampleRequest sampleAudit "s" (fun _ => "") startedDisk rfl (fun _ => rfl) (fun _ => rfl)
      (fun _ => rfl) hfile hrun 0).2.1⟩

end Audit
