/-
# Uploads against conforming uploaders

The surroundings of `FragmentReceiver.receive_data`: a disk, and for each transfer its
connection, the handles it opened and the uploader at the other end.

* `Uploader` : where the peer stands on the current connection;
* `Transfer.move` : what a conforming uploader of the content `F` may do;
* `UploadWorld.exec` : what the node's operations do, with a fault at any of them;
* `UploadWorld.UpToDate` : the operations that act on what the transfer saw of the shard
  file while it still holds.

An uploader starts at the offset of the resume frame if the node sends one on the
connection and at 0 otherwise; so it may also start before the node has decided, and
then the node sends no resume frame on that connection (`Transfer.sendConforms`).
-/
import StorageNode.Link
import StorageNode.ThreadPool

/-- The uploader on the current connection: it has not started; its next slice starts at
`off`; it waits for the ACK of `len` bytes sent from `off`; it has sent END. -/
inductive Uploader
  | idle
  | ready (off : ℕ)
  | awaiting (off len : ℕ)
  | ended
  deriving DecidableEq

/-- The uploader handles a frame of the node. -/
def Uploader.receive (raw : Raw) : Uploader → Uploader
  | .idle =>
      if raw.type? = some (.str "resume") then
        match raw.data? with
        | some (.int k) => .ready k.toNat
        | _ => .idle
      else .idle
  | .awaiting off len =>
      if raw.type? = some (.str "ACK") then .ready (off + len) else .awaiting off len
  | p => p

/-- One upload transfer: its connection, the peer, whether the node sent a resume frame
on the connection and with which offset, and the handles opened so far (`none` once
closed). -/
structure Transfer where
  link : Link := {}
  peer : Uploader := .idle
  resumed : Bool := false
  base : ℕ := 0
  files : List (Option OpenFile) := []

/-- The moves of an uploader. -/
inductive UploaderMove
  | take
  | start
  | slice (len : ℕ)
  | finish
  deriving DecidableEq

namespace Transfer

/-- The handle `fh`, when it is open. -/
def file? (t : Transfer) (fh : ℕ) : Option OpenFile := (t.files[fh]?).join

/-- The `len` bytes of `F` from `off` on. -/
def slice (F : Bytes) (off len : ℕ) : Bytes := (F.drop off).take len

/-- The uploader queues a frame for the node. -/
def pushToNode (t : Transfer) (frame : PyObj) (peer : Uploader) : Transfer :=
  { t with link := { t.link with toNode := t.link.toNode ++ [FrameCodec.encode frame] }, peer := peer }

/-- **The conforming uploader of `F`.**  It handles the next frame of the node; it starts
at 0 on a connection without a resume frame; it sends a non-empty slice and waits for its
ACK; it sends END once everything up to `|F|` is ACKed. -/
def move (F : Bytes) (m : UploaderMove) (t : Transfer) : Option Transfer :=
  match m, t.peer with
  -- a frame of the node is handled at any time
  | .take, _ =>
      match t.link.toPeer with
      | raw :: rest =>
          some { t with link := { t.link with toPeer := rest }, peer := t.peer.receive raw }
      | [] => none
  | .start, .idle =>
      if t.link.bound = some true ∧ t.resumed = false then some { t with peer := .ready 0 } else none
  | .slice len, .ready off =>
      if 0 < len ∧ off + len ≤ F.length then
        some (t.pushToNode (dataFrame (slice F off len)) (.awaiting off len))
      else none
  | .finish, .ready off =>
      if off = F.length then some (t.pushToNode endFrame .ended) else none
  | _, _ => none

/-- An uploader that started without a resume frame is one the node sends none. -/
def sendConforms (t : Transfer) (raw : Raw) : Prop :=
  raw.type? = some (.str "resume") → t.peer = .idle

instance (t : Transfer) (raw : Raw) : Decidable (t.sendConforms raw) :=
  inferInstanceAs (Decidable (_ → _))

/-- The socket operations, with what they mean for the uploader: a new or closed socket
leaves it without a connection, and a resume frame is noted. -/
def performLink (t : Transfer) (o : NodeOp) : Option (Except Exn o.Res × Transfer) :=
  match t.link.perform o with
  | none => none
  | some (r, l) =>
      match o with
      | .newSocket => some (r, { t with link := l, peer := .idle, resumed := false, base := 0 })
      | .bindSocket _ _ => some (r, { t with link := l, peer := .idle, resumed := false, base := 0 })
      | .closeSocket => some (r, { t with link := l, peer := .idle, resumed := false, base := 0 })
      -- a resume frame tells the uploader where this connection starts
      | .send raw =>
          if t.sendConforms raw then
            match raw.type?, raw.data? with
            | some (.str "resume"), some (.int k) =>
                some (r, { t with link := l, resumed := true, base := k.toNat })
            | _, _ => some (r, { t with link := l })
          else none
      | _ => some (r, { t with link := l })

end Transfer

/-- One call of `done_uploading`: the transfer that made it, its argument, what the shard
file held at that moment and whether the transfer had closed all its handles. -/
structure DoneCall (ι : Type) where
  transfer : ι
  shardId : Json
  content : Option Bytes
  closed : Bool

/-- The disk, the transfers, and the calls of `done_uploading` so far. -/
structure UploadWorld (ι : Type) where
  disk : Disk
  transfer : ι → Transfer
  done : List (DoneCall ι)

namespace UploadWorld

variable {ι : Type} [DecidableEq ι]

/-- Transfer `i` is now `t`. -/
def setTransfer (w : UploadWorld ι) (i : ι) (t : Transfer) : UploadWorld ι :=
  { w with transfer := Function.update w.transfer i t }

/-- The handle `fh` of transfer `i` is replaced, and `n` bytes of its buffer reach the
disk. -/
def putFile (w : UploadWorld ι) (i : ι) (fh : ℕ) (f : OpenFile) (n : ℕ) : UploadWorld ι :=
  let t := w.transfer i
  { w with disk := (f.flush n w.disk).1 }.setTransfer i
    { t with files := t.files.set fh (some (f.flush n w.disk).2) }

/-- The handle `fh` of transfer `i` is closed, and `n` bytes of its buffer reach the
disk. -/
def dropFile (w : UploadWorld ι) (i : ι) (fh : ℕ) (f : OpenFile) (n : ℕ) : UploadWorld ι :=
  let t := w.transfer i
  { w with disk := (f.flush n w.disk).1 }.setTransfer i { t with files := t.files.set fh none }

/-- A write takes in (part of) its chunk and lets the first `c.flush` buffered bytes reach
the disk; a close flushes the buffer. -/
def afterFile (w : UploadWorld ι) (i : ι) (c : Choice) : NodeOp → UploadWorld ι
  | .write fh b =>
      match (w.transfer i).file? fh with
      | some f => w.putFile i fh (f.write (c.taken b)) c.flush
      | none => w
  | .closeFile fh =>
      match (w.transfer i).file? fh with
      | some f => w.dropFile i fh f (c.closing f)
      | none => w
  | _ => w

/-- The file operations that succeed. -/
def performFile (w : UploadWorld ι) (i : ι) (c : Choice) :
    (o : NodeOp) → Option (Except Exn o.Res × UploadWorld ι)
  | .isFile p => some (.ok (w.disk.lookup p).isSome, w)
  -- the size on the disk: what is in a buffer does not count
  | .getSize p => (w.disk.content p).map fun b => (.ok b.length, w)
  | .openFile p m =>
      (w.disk.openFile p m).map fun (d, f) =>
        (.ok (w.transfer i).files.length,
          { w with disk := d }.setTransfer i
            { w.transfer i with files := (w.transfer i).files ++ [some f] })
  | .write fh b => some (.ok (), w.afterFile i c (.write fh b))
  | .closeFile fh => some (.ok (), w.afterFile i c (.closeFile fh))
  | _ => none

/-- `done_uploading` is called; `path` is the shard file that the call is about. -/
def report (w : UploadWorld ι) (path : PyStr) (i : ι) (shardId : Json) : UploadWorld ι :=
  { w with
    done :=
      { transfer := i, shardId := shardId, content := w.disk.content path,
        closed := (w.transfer i).files.all Option.isNone } :: w.done }

/-- The operations that succeed. -/
def perform (path : PyStr) (i : ι) (o : NodeOp) (c : Choice) (w : UploadWorld ι) :
    Option (Except Exn o.Res × UploadWorld ι) :=
  match o.answerOnly c with
  | some r => some (r, w)
  | none =>
      match (w.transfer i).performLink o with
      | some (r, t) => some (r, w.setTransfer i t)
      | none =>
          match o with
          | .doneUploading shardId => some (.ok (), w.report path i shardId)
          | o => w.performFile i c o

/-- What an operation that fails leaves behind: a write or close may still have moved bytes,
and `done_uploading` was called. -/
def afterFault (w : UploadWorld ι) (path : PyStr) (i : ι) (c : Choice) : NodeOp → UploadWorld ι
  | .doneUploading shardId => w.report path i shardId
  | o => w.afterFile i c o

/-- **The operations of transfer `i`**, each with the faults it documents. -/
def exec (path : PyStr) (i : ι) (o : NodeOp) (c : Choice) (w : UploadWorld ι) :
    Option (Except Exn o.Res × UploadWorld ι) :=
  match c.fault with
  | some e => if o.mayRaise e then some (.error e, w.afterFault path i c o) else none
  | none => w.perform path i o c

/-- The uploader of transfer `i` moves. -/
def peerMove (F : Bytes) (i : ι) (m : UploaderMove) (w : UploadWorld ι) : Option (UploadWorld ι) :=
  ((w.transfer i).move F m).map (w.setTransfer i)

/-- The bytes a flush moves continue the file, or there are none. -/
def FlushUpToDate (w : UploadWorld ι) (i : ι) (f : OpenFile) (n : ℕ) : Prop :=
  f.buf.take n ≠ [] → (w.disk.data f.inode).length = (w.transfer i).base + f.pos

/-- **What the transfer saw of the shard file still holds when it acts on it.**  It opens
the file in mode `wb`, after finding none, only while there is none; and bytes reach the
file only while the file is as long as the offset they belong to, counted from the size
the transfer read (or 0). -/
def UpToDate (w : UploadWorld ι) (i : ι) (c : Choice) : NodeOp → Prop
  | .openFile p .wb => w.disk.lookup p = none
  | .write fh b =>
      ∀ f ∈ (w.transfer i).file? fh, w.FlushUpToDate i (f.write (c.taken b)) c.flush
  | .closeFile fh => ∀ f ∈ (w.transfer i).file? fh, w.FlushUpToDate i f (c.closing f)
  | _ => True

instance (w : UploadWorld ι) (i : ι) (f : OpenFile) (n : ℕ) :
    Decidable (w.FlushUpToDate i f n) :=
  inferInstanceAs (Decidable (_ → _))

instance (w : UploadWorld ι) (i : ι) (c : Choice) (o : NodeOp) : Decidable (w.UpToDate i c o) := by
  cases o with
  | openFile p m =>
      cases m with
      | wb => exact inferInstanceAs (Decidable (w.disk.lookup p = none))
      | _ => exact inferInstanceAs (Decidable True)
  | write fh b => exact inferInstanceAs (Decidable (∀ f ∈ (w.transfer i).file? fh, _))
  | closeFile fh => exact inferInstanceAs (Decidable (∀ f ∈ (w.transfer i).file? fh, _))
  | _ => exact inferInstanceAs (Decidable True)

/-- What one operation can do: fail with a documented exception, or succeed. -/
theorem exec_cases {path : PyStr} {i : ι} {o : NodeOp} {c : Choice} {w w' : UploadWorld ι}
    {r : Except Exn o.Res} (h : w.exec path i o c = some (r, w')) :
    (∃ e, c.fault = some e ∧ o.mayRaise e = true ∧ r = .error e ∧ w' = w.afterFault path i c o) ∨
      (c.fault = none ∧ w.perform path i o c = some (r, w')) := by
  unfold exec at h
  cases hf : c.fault with
  | none =>
      rw [hf] at h
      exact Or.inr ⟨rfl, h⟩
  | some e =>
      rw [hf] at h
      by_cases hm : o.mayRaise e = true
      · simp only [hm, if_true, Option.some.injEq, Prod.mk.injEq] at h
        exact Or.inl ⟨e, rfl, hm, h.1.symm, h.2.symm⟩
      · simp [hm] at h

/-- A socket operation fails and changes nothing, or acts on the transfer's connection. -/
theorem exec_onLink {path : PyStr} {i : ι} {o : NodeOp} {c : Choice} {w w' : UploadWorld ι}
    {r : Except Exn o.Res} (ho : o.onLink = true) (h : w.exec path i o c = some (r, w')) :
    (∃ e, r = .error e ∧ w' = w) ∨
      ∃ t, (w.transfer i).performLink o = some (r, t) ∧ w' = w.setTransfer i t := by
  rcases exec_cases h with ⟨e, -, -, rfl, rfl⟩ | ⟨-, hp⟩
  · refine Or.inl ⟨e, rfl, ?_⟩
    cases o <;> first | rfl | simp [NodeOp.onLink] at ho
  · refine Or.inr ?_
    cases hl : (w.transfer i).performLink o with
    | none =>
        cases o <;>
          simp [NodeOp.onLink, perform, NodeOp.answerOnly, hl, performFile] at ho hp
    | some rt =>
        obtain ⟨r', t⟩ := rt
        refine ⟨t, ?_⟩
        cases o <;> simp [NodeOp.onLink] at ho <;>
          simp only [perform, NodeOp.answerOnly, hl, Option.some.injEq, Prod.mk.injEq] at hp <;>
          exact ⟨by rw [hp.1], hp.2.symm⟩

/-- Such an operation leaves the world alone. -/
theorem exec_outside {path : PyStr} {i : ι} {o : NodeOp} {c : Choice} {w w' : UploadWorld ι}
    {r : Except Exn o.Res} (ho : o.outside = true) (h : w.exec path i o c = some (r, w')) :
    w' = w := by
  rcases exec_cases h with ⟨e, -, -, -, rfl⟩ | ⟨-, hp⟩
  · cases o <;> first | rfl | simp [NodeOp.outside] at ho
  · cases ha : o.answerOnly c with
    | some r' =>
        simp only [perform, ha, Option.some.injEq, Prod.mk.injEq] at hp
        exact hp.2.symm
    | none =>
        cases o <;> simp [NodeOp.outside] at ho <;>
          simp [perform, ha, Transfer.performLink, Link.perform, performFile] at hp

/-! ## The system -/

/-- **The uploads of `F` to the shard file `path`**: a thread for each transfer, and its
uploader. -/
def uploads (F : Bytes) (path : PyStr) :
    Pool ι NodeOp NodeOp.Res Exn Choice (ι × UploaderMove) (UploadWorld ι) where
  exec i o c w := w.exec path i o c
  env e w := w.peerMove F e.1 e.2

/-- The world in which the transfers start. -/
def start (d : Disk) : UploadWorld ι := { disk := d, transfer := fun _ => {}, done := [] }

/-- `UpToDate`, as a condition on the operations of a run. -/
def upToDate : Pool.Condition ι NodeOp Choice (UploadWorld ι) := fun i o c w => w.UpToDate i c o

instance (i : ι) (o : NodeOp) (c : Choice) (w : UploadWorld ι) : Decidable (upToDate i o c w) :=
  inferInstanceAs (Decidable (w.UpToDate i c o))

/-! ## What each operation can do -/

theorem exec_isFile {path p : PyStr} {i : ι} {c : Choice} {w w' : UploadWorld ι}
    {r : Except Exn Bool} (h : w.exec path i (.isFile p) c = some (r, w')) :
    r = .ok (w.disk.lookup p).isSome ∧ w' = w := by
  rcases exec_cases h with ⟨e, -, hm, -, -⟩ | ⟨-, hp⟩
  · simp [NodeOp.mayRaise] at hm
  · simp only [perform, NodeOp.answerOnly, Transfer.performLink, Link.perform, performFile,
      Option.some.injEq, Prod.mk.injEq] at hp
    exact ⟨hp.1.symm, hp.2.symm⟩

theorem exec_getSize {path p : PyStr} {i : ι} {c : Choice} {w w' : UploadWorld ι}
    {r : Except Exn ℕ} (h : w.exec path i (.getSize p) c = some (r, w')) :
    w' = w ∧ ((∃ e, r = .error e) ∨ ∃ b, w.disk.content p = some b ∧ r = .ok b.length) := by
  rcases exec_cases h with ⟨e, -, -, rfl, rfl⟩ | ⟨-, hp⟩
  · exact ⟨rfl, Or.inl ⟨e, rfl⟩⟩
  · simp only [perform, NodeOp.answerOnly, Transfer.performLink, Link.perform, performFile,
      Option.map_eq_some_iff, Prod.mk.injEq] at hp
    obtain ⟨b, hb, rfl, rfl⟩ := hp
    exact ⟨rfl, Or.inr ⟨b, hb, rfl⟩⟩

theorem exec_openFile {path p : PyStr} {m : FileMode} {i : ι} {c : Choice}
    {w w' : UploadWorld ι} {r : Except Exn ℕ}
    (h : w.exec path i (.openFile p m) c = some (r, w')) :
    ((∃ e, r = .error e) ∧ w' = w) ∨
      ∃ d f, w.disk.openFile p m = some (d, f) ∧ r = .ok (w.transfer i).files.length ∧
        w' = { w with disk := d }.setTransfer i
          { w.transfer i with files := (w.transfer i).files ++ [some f] } := by
  rcases exec_cases h with ⟨e, -, -, rfl, rfl⟩ | ⟨-, hp⟩
  · exact Or.inl ⟨⟨e, rfl⟩, rfl⟩
  · simp only [perform, NodeOp.answerOnly, Transfer.performLink, Link.perform, performFile,
      Option.map_eq_some_iff, Prod.mk.injEq] at hp
    obtain ⟨⟨d, f⟩, ho, rfl, rfl⟩ := hp
    exact Or.inr ⟨d, f, ho, rfl, rfl⟩

/-- A write that fails still moves what the choice says it moves. -/
theorem exec_write {path : PyStr} {fh : ℕ} {b : Bytes} {i : ι} {c : Choice}
    {w w' : UploadWorld ι} {r : Except Exn Unit}
    (h : w.exec path i (.write fh b) c = some (r, w')) :
    w' = w.afterFile i c (.write fh b) ∧
      ((∃ e, r = .error e) ∨ (r = .ok () ∧ c.taken b = b)) := by
  rcases exec_cases h with ⟨e, -, -, rfl, rfl⟩ | ⟨hf, hp⟩
  · exact ⟨rfl, Or.inl ⟨e, rfl⟩⟩
  · simp only [perform, NodeOp.answerOnly, Transfer.performLink, Link.perform, performFile,
      Option.some.injEq, Prod.mk.injEq] at hp
    exact ⟨hp.2.symm, Or.inr ⟨hp.1.symm, by rw [Choice.taken, hf]⟩⟩

theorem exec_closeFile {path : PyStr} {fh : ℕ} {i : ι} {c : Choice} {w w' : UploadWorld ι}
    {r : Except Exn Unit} (h : w.exec path i (.closeFile fh) c = some (r, w')) :
    w' = w.afterFile i c (.closeFile fh) ∧ ((∃ e, r = .error e) ∨ (r = .ok () ∧ c.fault = none)) := by
  rcases exec_cases h with ⟨e, -, -, rfl, rfl⟩ | ⟨hf, hp⟩
  · exact ⟨rfl, Or.inl ⟨e, rfl⟩⟩
  · simp only [perform, NodeOp.answerOnly, Transfer.performLink, Link.perform, performFile,
      Option.some.injEq, Prod.mk.injEq] at hp
    exact ⟨hp.2.symm, Or.inr ⟨hp.1.symm, hf⟩⟩

theorem exec_doneUploading {path : PyStr} {shardId : Json} {i : ι} {c : Choice}
    {w w' : UploadWorld ι} {r : Except Exn Unit}
    (h : w.exec path i (.doneUploading shardId) c = some (r, w')) : w' = w.report path i shardId := by
  rcases exec_cases h with ⟨e, -, -, -, rfl⟩ | ⟨-, hp⟩
  · rfl
  · simp only [perform, NodeOp.answerOnly, Transfer.performLink, Link.perform,
      Option.some.injEq, Prod.mk.injEq] at hp
    exact hp.2.symm

theorem afterFile_done (w : UploadWorld ι) (i : ι) (c : Choice) (o : NodeOp) :
    (w.afterFile i c o).done = w.done := by
  cases o with
  | write fh b =>
      simp only [afterFile]
      split <;> rfl
  | closeFile fh =>
      simp only [afterFile]
      split <;> rfl
  | _ => rfl

theorem afterFault_of_ne {path : PyStr} {i : ι} {o : NodeOp} (ho : ∀ id, o ≠ .doneUploading id)
    (c : Choice) (w : UploadWorld ι) : w.afterFault path i c o = w.afterFile i c o := by
  cases o with
  | doneUploading id => exact absurd rfl (ho id)
  | _ => rfl

/-- Only `done_uploading` adds a call. -/
theorem exec_done {path : PyStr} {i : ι} {o : NodeOp} {c : Choice}
    {w w' : UploadWorld ι} {r : Except Exn o.Res}
    (ho : ∀ id, o ≠ .doneUploading id) (h : w.exec path i o c = some (r, w')) :
    w'.done = w.done := by
  rcases exec_cases h with ⟨e, -, -, -, rfl⟩ | ⟨-, hp⟩
  · rw [afterFault_of_ne ho]
    exact afterFile_done w i c o
  · unfold perform at hp
    split at hp
    · obtain ⟨-, rfl⟩ := by simpa using hp
      rfl
    · split at hp
      · obtain ⟨-, rfl⟩ := by simpa using hp
        rfl
      · split at hp
        · exact absurd rfl (ho _)
        · cases o with
          | isFile p =>
              obtain ⟨-, rfl⟩ := by simpa [performFile] using hp
              rfl
          | getSize p =>
              obtain ⟨b, -, -, rfl⟩ := by simpa [performFile] using hp
              rfl
          | openFile p m =>
              obtain ⟨d, f, -, -, rfl⟩ := by simpa [performFile] using hp
              rfl
          | write fh b =>
              obtain ⟨-, rfl⟩ := by simpa [performFile] using hp
              exact afterFile_done w i c _
          | closeFile fh =>
              obtain ⟨-, rfl⟩ := by simpa [performFile] using hp
              exact afterFile_done w i c _
          | _ => exact absurd hp (by simp [performFile])

@[simp] theorem setTransfer_self (w : UploadWorld ι) (i : ι) (t : Transfer) :
    (w.setTransfer i t).transfer i = t :=
  Function.update_self ..

theorem setTransfer_of_ne (w : UploadWorld ι) {i j : ι} (h : j ≠ i) (t : Transfer) :
    (w.setTransfer i t).transfer j = w.transfer j :=
  Function.update_of_ne h ..

end UploadWorld
