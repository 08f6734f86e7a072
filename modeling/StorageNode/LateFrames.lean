/-
# Frames from before a disconnect

An upload whose uploader keeps what it has queued when the connection breaks, as the
outbound queue of a connecting socket does: the frames that were not lost arrive, in
order, on the connection that `_attempt_reconnect` opens.

* `LateWorld` : an upload world with the frames that outlive a connection, and the number
  of frames in flight that the uploader sent before it processed the resume frame;
* `LateWorld.exec`, `peerMove`, `lateUpload` : the operations, the uploader, the system;
* `LateWorld.NothingLate` : no data frame outlives the connection;
* `LateWorld.current` : the same world without those frames, with `exec_current` and
  `peerMove_current`: until the node takes one of them, the run is a run of `uploads`.
-/
import StorageNode.UploadIntegrity
import StorageNode.RequestDispatcher

/-- The upload, the frames that outlived the last connection, and how many of the frames on
the way to the node the uploader sent before it processed the resume frame of the current
one.  The last two fields are history: whether the frame taken last was one of them, and
what has been appended, with the same mark. -/
structure LateWorld where
  upload : UploadWorld Unit
  outbound : List Raw := []
  stale : ℕ := 0
  last : Bool := false
  appends : List (Bytes × Bool) := []

/-- The operations that take frames on their way to the node, or lose them. -/
def NodeOp.onInbox : NodeOp → Bool
  | .newSocket => true
  | .bindSocket _ _ => true
  | .closeSocket => true
  | .recv => true
  | _ => false

/-- Other frames are on the way to the node. -/
def Transfer.withInbox (q : List Raw) (t : Transfer) : Transfer :=
  { t with link := { t.link with toNode := q } }

namespace UploadWorld

/-- The frames on the way to the node. -/
def inbox (w : UploadWorld Unit) : List Raw := (w.transfer ()).link.toNode

/-- Other frames are on the way to the node. -/
def withInbox (q : List Raw) (w : UploadWorld Unit) : UploadWorld Unit :=
  w.setTransfer () ((w.transfer ()).withInbox q)

end UploadWorld

namespace LateWorld

/-- What an operation does besides.  The socket that is closed loses all but the last
`c.keep` frames on the way to the node; these arrive when the next one is bound. -/
def after (o : NodeOp) (c : Choice) (w : LateWorld) (u : UploadWorld Unit) : LateWorld :=
  match o, c.fault with
  | .newSocket, none => { w with upload := u, stale := 0 }
  -- `LINGER` or not: any number of the newest frames may survive
  | .closeSocket, none =>
      { w with upload := u
               outbound := w.upload.inbox.drop (w.upload.inbox.length - c.keep)
               stale := 0 }
  | .bindSocket _ _, none =>
      { w with upload := u.withInbox w.outbound, outbound := [], stale := w.outbound.length }
  | .recv, none => { w with upload := u, stale := w.stale - 1, last := decide (0 < w.stale) }
  | .write _ b, _ => { w with upload := u, appends := w.appends ++ [(c.taken b, w.last)] }
  | _, _ => { w with upload := u }

/-- The operations of the upload. -/
def exec (path : PyStr) (o : NodeOp) (c : Choice) (w : LateWorld) :
    Option (Except Exn o.Res × LateWorld) :=
  (w.upload.exec path () o c).map fun rw => (rw.1, w.after o c rw.2)

/-- The uploader moves; once it has processed the resume frame of a connection, everything
that is still on the way is from before. -/
def peerMove (F : Bytes) (m : UploaderMove) (w : LateWorld) : Option LateWorld :=
  (w.upload.peerMove F () m).map fun u =>
    { w with
      upload := u
      -- the frames before the resume frame was processed count as old
      stale := if m = .take ∧ (w.upload.transfer ()).peer = .idle ∧ (u.transfer ()).peer ≠ .idle
        then u.inbox.length else w.stale }

/-- **The upload of `F`** with an uploader whose frames may outlive a connection. -/
def lateUpload (F : Bytes) (path : PyStr) :
    Pool Unit NodeOp NodeOp.Res Exn Choice UploaderMove LateWorld where
  exec _ o c w := w.exec path o c
  env m w := w.peerMove F m

/-- The world in which the transfer starts. -/
def start (d : Disk) : LateWorld := { upload := UploadWorld.start d }

/-- **No data frame outlives the connection**: when a socket is bound, none of the frames
that are still to arrive from the last connection carries data. -/
def NothingLate (_ : Unit) (o : NodeOp) (_ : Choice) (w : LateWorld) : Prop :=
  match o with
  | .bindSocket _ _ => ∀ raw ∈ w.outbound, raw.type? ≠ some (.str "data")
  | _ => True

/-- The operation binds the socket. -/
def isBind : NodeOp → Bool
  | .bindSocket _ _ => true
  | _ => false

theorem nothingLate_iff {i : Unit} {o : NodeOp} {c : Choice} {w : LateWorld} :
    (isBind o = true → ∀ raw ∈ w.outbound, raw.type? ≠ some (.str "data")) ↔
      NothingLate i o c w := by
  cases o with
  | bindSocket a p => exact ⟨fun h => h rfl, fun h _ => h⟩
  | _ => exact ⟨fun _ => trivial, fun _ h => absurd h Bool.false_ne_true⟩

instance (i : Unit) (o : NodeOp) (c : Choice) (w : LateWorld) : Decidable (NothingLate i o c w) :=
  decidable_of_iff _ nothingLate_iff

end LateWorld

/-! ## The world without the late frames -/

/-- A socket operation that does not take frames on the way to the node does not depend on
them. -/
theorem Transfer.performLink_withInbox {o : NodeOp} {t t' : Transfer} {r : Except Exn o.Res}
    (q : List Raw) (ho : o.onInbox = false) (h : t.performLink o = some (r, t')) :
    (t.withInbox q).performLink o = some (r, t'.withInbox q) ∧
      t'.link.toNode = t.link.toNode ∧ t'.peer = t.peer := by
  cases o with
  | newSocket => exact absurd ho (by simp [NodeOp.onInbox])
  | bindSocket a p => exact absurd ho (by simp [NodeOp.onInbox])
  | closeSocket => exact absurd ho (by simp [NodeOp.onInbox])
  | recv => exact absurd ho (by simp [NodeOp.onInbox])
  | hasSocket =>
      obtain ⟨rfl, rfl⟩ := by simpa [performLink, Link.perform] using h
      exact ⟨rfl, rfl, rfl⟩
  | setTimeouts a b =>
      obtain ⟨rfl, rfl⟩ := by simpa [performLink, Link.perform] using h
      exact ⟨rfl, rfl, rfl⟩
  | send raw =>
      have hconf : (t.withInbox q).sendConforms raw ↔ t.sendConforms raw := Iff.rfl
      by_cases hb : t.link.bound = some true
      · by_cases hc : t.sendConforms raw
        · have hb' : (t.withInbox q).link.bound = some true := hb
          simp only [performLink, Link.perform, hb, hb', hconf, hc, if_true] at h ⊢
          split at h <;>
            · obtain ⟨rfl, rfl⟩ := by simpa using h
              simp_all [withInbox]
        · simp [performLink, Link.perform, hb, hc] at h
      · simp [performLink, Link.perform, hb] at h
  | _ => simp [performLink, Link.perform] at h

/-- The uploader sends behind what is on the way. -/
theorem Transfer.move_withInbox {F : Bytes} {m : UploaderMove} {t t' : Transfer} (q : List Raw)
    (h : t.move F m = some t') :
    ∃ new, t'.link.toNode = t.link.toNode ++ new ∧
      (t.withInbox q).move F m = some (t'.withInbox (q ++ new)) := by
  cases m with
  | take =>
      cases hq : t.link.toPeer with
      | nil => simp [move, hq] at h
      | cons raw rest =>
          obtain rfl := by simpa [move, hq] using h
          exact ⟨[], (List.append_nil _).symm, by simp [move, hq, withInbox]⟩
  | start =>
      cases hp : t.peer with
      | idle =>
          simp only [move, hp, Option.ite_none_right_eq_some, Option.some.injEq] at h
          obtain ⟨hif, rfl⟩ := h
          exact ⟨[], (List.append_nil _).symm, by simp [move, hp, hif, withInbox]⟩
      | _ => simp [move, hp] at h
  | slice len =>
      cases hp : t.peer with
      | ready off =>
          simp only [move, hp, Option.ite_none_right_eq_some, Option.some.injEq] at h
          obtain ⟨hif, rfl⟩ := h
          exact ⟨_, rfl, by simp [move, hp, hif, withInbox, pushToNode]⟩
      | _ => simp [move, hp] at h
  | finish =>
      cases hp : t.peer with
      | ready off =>
          simp only [move, hp, Option.ite_none_right_eq_some, Option.some.injEq] at h
          obtain ⟨hif, rfl⟩ := h
          exact ⟨_, rfl, by simp [move, hp, hif, withInbox, pushToNode]⟩
      | _ => simp [move, hp] at h

namespace UploadWorld

theorem withInbox_self (w : UploadWorld Unit) : w.withInbox w.inbox = w := by
  have h : (w.transfer ()).withInbox w.inbox = w.transfer () := rfl
  rw [withInbox, h, setTransfer, Function.update_eq_self]

@[simp] theorem transfer_withInbox (q : List Raw) (w : UploadWorld Unit) :
    (w.withInbox q).transfer () = (w.transfer ()).withInbox q :=
  setTransfer_self w () _

@[simp] theorem inbox_withInbox (q : List Raw) (w : UploadWorld Unit) :
    (w.withInbox q).inbox = q := by
  rw [inbox, transfer_withInbox]
  rfl

/-- A change of the transfer, seen with other frames on the way. -/
theorem withInbox_setTransfer (q : List Raw) (w : UploadWorld Unit) (t : Transfer) :
    (w.setTransfer () t).withInbox q = (w.withInbox q).setTransfer () (t.withInbox q) := by
  simp [withInbox, setTransfer]

/-- The frames on the way to the node and the uploader are the same. -/
def SameEnd (w w' : UploadWorld Unit) : Prop :=
  w'.inbox = w.inbox ∧ (w'.transfer ()).peer = (w.transfer ()).peer

/-- What a write and a close do has nothing to do with the frames in flight. -/
theorem afterFile_withInbox (q : List Raw) (w : UploadWorld Unit) (c : Choice) (o : NodeOp) :
    (w.withInbox q).afterFile () c o = (w.afterFile () c o).withInbox q ∧
      w.SameEnd (w.afterFile () c o) := by
  have hfile : ∀ fh, ((w.withInbox q).transfer ()).file? fh = (w.transfer ()).file? fh := by
    intro fh
    rw [transfer_withInbox]
    rfl
  cases o with
  | write fh b =>
      simp only [afterFile, hfile]
      cases (w.transfer ()).file? fh with
      | none => exact ⟨rfl, rfl, rfl⟩
      | some f => simp [putFile, withInbox, SameEnd, inbox, setTransfer, Transfer.withInbox]
  | closeFile fh =>
      simp only [afterFile, hfile]
      cases (w.transfer ()).file? fh with
      | none => exact ⟨rfl, rfl, rfl⟩
      | some f => simp [dropFile, withInbox, SameEnd, inbox, setTransfer, Transfer.withInbox]
  | _ => exact ⟨rfl, rfl, rfl⟩

theorem afterFault_withInbox (q : List Raw) (w : UploadWorld Unit) (path : PyStr) (c : Choice)
    (o : NodeOp) :
    (w.withInbox q).afterFault path () c o = (w.afterFault path () c o).withInbox q ∧
      w.SameEnd (w.afterFault path () c o) := by
  by_cases hdone : ∃ id, o = .doneUploading id
  · obtain ⟨id, rfl⟩ := hdone
    refine ⟨?_, rfl, rfl⟩
    simp [afterFault, report, withInbox, setTransfer, Disk.content, Transfer.withInbox]
  · rw [afterFault_of_ne fun id hid => hdone ⟨id, hid⟩,
      afterFault_of_ne fun id hid => hdone ⟨id, hid⟩]
    exact afterFile_withInbox q w c o

/-- The operations on files do not depend on them either. -/
theorem performFile_withInbox {o : NodeOp} {c : Choice} {w w' : UploadWorld Unit}
    {r : Except Exn o.Res} (q : List Raw) (h : w.performFile () c o = some (r, w')) :
    (w.withInbox q).performFile () c o = some (r, w'.withInbox q) ∧ w.SameEnd w' := by
  cases o with
  | isFile p =>
      obtain ⟨rfl, rfl⟩ := by simpa [performFile] using h
      exact ⟨rfl, rfl, rfl⟩
  | getSize p =>
      simp only [performFile, Option.map_eq_some_iff, Prod.mk.injEq] at h
      obtain ⟨b, hb, rfl, rfl⟩ := h
      refine ⟨?_, rfl, rfl⟩
      show ((w.disk.content p).map _ : Option _) = _
      rw [hb, Option.map_some]
  | openFile p m =>
      simp only [performFile, Option.map_eq_some_iff, Prod.mk.injEq] at h
      obtain ⟨⟨d, f⟩, hopen, rfl, rfl⟩ := h
      refine ⟨?_, by simp [inbox], by simp⟩
      show ((w.disk.openFile p m).map _ : Option _) = _
      rw [hopen, Option.map_some]
      simp [withInbox, setTransfer, Transfer.withInbox]
  | write fh b =>
      obtain ⟨rfl, rfl⟩ := by simpa [performFile] using h
      obtain ⟨heq, hin⟩ := afterFile_withInbox q w c (.write fh b)
      exact ⟨by rw [← heq]; rfl, hin⟩
  | closeFile fh =>
      obtain ⟨rfl, rfl⟩ := by simpa [performFile] using h
      obtain ⟨heq, hin⟩ := afterFile_withInbox q w c (.closeFile fh)
      exact ⟨by rw [← heq]; rfl, hin⟩
  | _ => exact absurd h (by simp [performFile])

/-- **An operation that does not take frames on the way to the node**, or that fails, does
not depend on them. -/
theorem exec_withInbox {path : PyStr} {o : NodeOp} {c : Choice} {w w' : UploadWorld Unit}
    {r : Except Exn o.Res} (q : List Raw) (ho : o.onInbox = false ∨ c.fault ≠ none)
    (h : w.exec path () o c = some (r, w')) :
    (w.withInbox q).exec path () o c = some (r, w'.withInbox q) ∧ w.SameEnd w' := by
  unfold exec at h ⊢
  cases hf : c.fault with
  | some e =>
      simp only [hf, Option.ite_none_right_eq_some, Option.some.injEq, Prod.mk.injEq] at h ⊢
      obtain ⟨hm, rfl, rfl⟩ := h
      obtain ⟨heq, hin⟩ := afterFault_withInbox q w path c o
      exact ⟨⟨hm, rfl, heq⟩, hin⟩
  | none =>
      simp only [hf] at h ⊢
      have hin : o.onInbox = false := ho.resolve_right fun hne => hne hf
      unfold perform at h ⊢
      cases ha : o.answerOnly c with
      | some r' =>
          simp only [ha, Option.some.injEq, Prod.mk.injEq] at h ⊢
          obtain ⟨rfl, rfl⟩ := h
          exact ⟨⟨rfl, rfl⟩, rfl, rfl⟩
      | none =>
          simp only [ha, transfer_withInbox] at h ⊢
          cases hl : (w.transfer ()).performLink o with
          | some rt =>
              obtain ⟨r', t⟩ := rt
              obtain ⟨hl', hnode, hpeer⟩ := Transfer.performLink_withInbox q hin hl
              simp only [hl, hl', Option.some.injEq, Prod.mk.injEq] at h ⊢
              obtain ⟨rfl, rfl⟩ := h
              refine ⟨⟨rfl, (withInbox_setTransfer q w t).symm⟩, ?_, ?_⟩
              · rw [inbox, setTransfer_self, hnode]
                rfl
              · rw [setTransfer_self, hpeer]
          | none =>
              have hl' : ((w.transfer ()).withInbox q).performLink o = none := by
                cases hq : ((w.transfer ()).withInbox q).performLink o with
                | none => rfl
                | some rt =>
                    have hback := (Transfer.performLink_withInbox w.inbox hin hq).1
                    exact absurd (hl.symm.trans hback) (by simp)
              simp only [hl, hl'] at h ⊢
              cases o with
              | doneUploading id =>
                  simp only [Option.some.injEq, Prod.mk.injEq] at h ⊢
                  obtain ⟨rfl, rfl⟩ := h
                  refine ⟨⟨rfl, ?_⟩, rfl, rfl⟩
                  simp [report, withInbox, setTransfer, Disk.content, Transfer.withInbox]
              | _ => exact performFile_withInbox q h

/-- The uploader sends behind the frames on the way. -/
theorem peerMove_withInbox {F : Bytes} {m : UploaderMove} {w w' : UploadWorld Unit}
    (q : List Raw) (h : w.peerMove F () m = some w') :
    ∃ new, w'.inbox = w.inbox ++ new ∧
      (w.withInbox q).peerMove F () m = some (w'.withInbox (q ++ new)) := by
  obtain ⟨t', hmove, rfl⟩ := Option.map_eq_some_iff.mp h
  obtain ⟨new, hnode, hmove'⟩ := Transfer.move_withInbox q hmove
  refine ⟨new, by rw [inbox, setTransfer_self, hnode]; rfl, ?_⟩
  rw [peerMove, transfer_withInbox, hmove', Option.map_some, withInbox_setTransfer]
  simp [withInbox, setTransfer]

end UploadWorld

namespace UploadWorld

theorem withInbox_twice (p q : List Raw) (w : UploadWorld Unit) :
    (w.withInbox p).withInbox q = w.withInbox q := by
  simp [withInbox, setTransfer, Transfer.withInbox]

/-- A new, bound or closed socket has no frames on the way, whatever was there before. -/
theorem exec_reset {path : PyStr} {o : NodeOp} {c : Choice} {w w' : UploadWorld Unit}
    {r : Except Exn o.Res} (q : List Raw) (ho : o.onInbox = true) (hrecv : o ≠ .recv)
    (hf : c.fault = none) (h : w.exec path () o c = some (r, w')) :
    (w.withInbox q).exec path () o c = some (r, w') ∧ w'.inbox = [] ∧
      (w'.transfer ()).peer = .idle ∧ w'.disk = w.disk ∧
      (w'.transfer ()).files = (w.transfer ()).files := by
  cases o with
  | newSocket =>
      obtain ⟨rfl, rfl⟩ := by simpa [exec, hf, perform, NodeOp.answerOnly, Transfer.performLink,
        Link.perform] using h
      refine ⟨?_, by simp [inbox], by simp, rfl, by simp⟩
      simp [exec, hf, perform, NodeOp.answerOnly, Transfer.performLink, Link.perform, withInbox,
        setTransfer, Transfer.withInbox]
  | bindSocket a p =>
      obtain ⟨rfl, rfl⟩ := by simpa [exec, hf, perform, NodeOp.answerOnly, Transfer.performLink,
        Link.perform] using h
      refine ⟨?_, by simp [inbox], by simp, rfl, by simp⟩
      simp [exec, hf, perform, NodeOp.answerOnly, Transfer.performLink, Link.perform, withInbox,
        setTransfer, Transfer.withInbox]
  | closeSocket =>
      obtain ⟨rfl, rfl⟩ := by simpa [exec, hf, perform, NodeOp.answerOnly, Transfer.performLink,
        Link.perform] using h
      refine ⟨?_, by simp [inbox], by simp, rfl, by simp⟩
      simp [exec, hf, perform, NodeOp.answerOnly, Transfer.performLink, Link.perform, withInbox,
        setTransfer, Transfer.withInbox]
  | recv => exact absurd rfl hrecv
  | _ => exact absurd ho (by simp [NodeOp.onInbox])

/-- The node takes the first frame on the way. -/
theorem exec_recv {path : PyStr} {c : Choice} {w w' : UploadWorld Unit} {r : Except Exn Raw}
    (hf : c.fault = none) (h : w.exec path () .recv c = some (r, w')) :
    ∃ raw rest, w.inbox = raw :: rest ∧ r = .ok raw ∧ w' = w.withInbox rest := by
  unfold exec at h
  simp only [hf, perform, NodeOp.answerOnly] at h
  cases hl : (w.transfer ()).performLink .recv with
  | none =>
      rw [hl] at h
      exact absurd h (by simp [performFile])
  | some rt =>
      obtain ⟨r', t⟩ := rt
      obtain ⟨raw, rest, hq, rfl, rfl⟩ := Upload.performLink_recv hl
      rw [hl] at h
      simp only [Option.some.injEq, Prod.mk.injEq] at h
      obtain ⟨rfl, rfl⟩ := h
      exact ⟨raw, rest, hq, rfl, rfl⟩

end UploadWorld

/-- A frame of a conforming uploader. -/
def Raw.Uploaded (raw : Raw) : Prop :=
  raw.type? = some (.str "data") ∨ raw = FrameCodec.encode endFrame

namespace LateWorld

/-- The frames that the uploader sent on the current connection are the only ones on the
way. -/
def current (w : LateWorld) : UploadWorld Unit :=
  w.upload.withInbox (w.upload.inbox.drop w.stale)

/-- **What is on the way**: an idle uploader has sent nothing on this connection, and the
frames of an earlier one are END frames. -/
structure Sound (w : LateWorld) : Prop where
  le : w.stale ≤ w.upload.inbox.length
  idle : (w.upload.transfer ()).peer = .idle → w.upload.inbox.length = w.stale
  frames : ∀ raw ∈ w.upload.inbox, raw.Uploaded
  queued : ∀ raw ∈ w.outbound, raw.Uploaded
  late : ∀ raw ∈ w.upload.inbox.take w.stale, raw = FrameCodec.encode endFrame

/-- The node takes a frame of an earlier connection. -/
def TakesLate (w : LateWorld) (o : NodeOp) (c : Choice) : Prop :=
  o = .recv ∧ c.fault = none ∧ 0 < w.stale

theorem after_upload {o : NodeOp} {c : Choice} (ho : o.onInbox = false ∨ c.fault ≠ none)
    (w : LateWorld) (u : UploadWorld Unit) :
    (w.after o c u).upload = u ∧ (w.after o c u).stale = w.stale ∧
      (w.after o c u).outbound = w.outbound ∧ (w.after o c u).last = w.last := by
  unfold after
  split
  · next hf => exact absurd hf (ho.resolve_left (by simp [NodeOp.onInbox]))
  · next hf => exact absurd hf (ho.resolve_left (by simp [NodeOp.onInbox]))
  · next hf => exact absurd hf (ho.resolve_left (by simp [NodeOp.onInbox]))
  · next hf => exact absurd hf (ho.resolve_left (by simp [NodeOp.onInbox]))
  · exact ⟨rfl, rfl, rfl, rfl⟩
  · exact ⟨rfl, rfl, rfl, rfl⟩

/-- **Until it takes a late frame**, the node cannot tell the two worlds apart. -/
theorem exec_current {path : PyStr} {o : NodeOp} {c : Choice} {w w' : LateWorld}
    {r : Except Exn o.Res} (hlate : ¬ w.TakesLate o c) (h : w.exec path o c = some (r, w')) :
    w.current.exec path () o c = some (r, w'.current) := by
  obtain ⟨⟨r', u⟩, hu, heq⟩ := Option.map_eq_some_iff.mp h
  simp only [Prod.mk.injEq] at heq
  obtain ⟨rfl, rfl⟩ := heq
  by_cases ho : o.onInbox = false ∨ c.fault ≠ none
  · obtain ⟨hupload, hstale, -, -⟩ := after_upload ho w u
    obtain ⟨hexec, hin, -⟩ := UploadWorld.exec_withInbox (w.upload.inbox.drop w.stale) ho hu
    rw [current, current, hupload, hstale, hin]
    exact hexec
  · obtain ⟨hin, hf⟩ := not_or.mp ho
    rw [Bool.not_eq_false] at hin
    have hf : c.fault = none := not_not.mp hf
    by_cases hrecv : o = .recv
    · subst hrecv
      have hstale : w.stale = 0 := by
        by_contra hne
        exact hlate ⟨rfl, hf, Nat.pos_of_ne_zero hne⟩
      have hw : w.current = w.upload := by
        rw [current, hstale, List.drop_zero, UploadWorld.withInbox_self]
      rw [hw, hu]
      simp only [current, after, hf, hstale, Nat.zero_sub, List.drop_zero,
        UploadWorld.withInbox_self]
    · obtain ⟨hexec, hnil, -, -, -⟩ :=
        UploadWorld.exec_reset (w.upload.inbox.drop w.stale) hin hrecv hf hu
      have hself : u.withInbox [] = u := by
        rw [← hnil, UploadWorld.withInbox_self]
      rw [current, hexec]
      cases o with
      | newSocket => simp only [current, after, hf, hnil, List.drop_nil, hself]
      | closeSocket => simp only [current, after, hf, hnil, List.drop_nil, hself]
      | bindSocket a p =>
          simp only [current, after, hf, UploadWorld.inbox_withInbox, List.drop_length,
            UploadWorld.withInbox_twice, hself]
      | recv => exact absurd rfl hrecv
      | _ => exact absurd hin (by simp [NodeOp.onInbox])

theorem Sound.inbox {w w' : LateWorld} (hw : w.Sound) (hend : w.upload.SameEnd w'.upload)
    (hstale : w'.stale = w.stale) (hout : w'.outbound = w.outbound) : w'.Sound where
  le := by rw [hend.1, hstale]; exact hw.le
  idle := by rw [hend.1, hend.2, hstale]; exact hw.idle
  frames := by rw [hend.1]; exact hw.frames
  queued := by rw [hout]; exact hw.queued
  late := by rw [hend.1, hstale]; exact hw.late

/-- **The operations keep it**, as long as no data frame outlives its connection. -/
theorem Sound.exec {path : PyStr} {o : NodeOp} {c : Choice} {w w' : LateWorld}
    {r : Except Exn o.Res} (hw : w.Sound) (hmeets : NothingLate () o c w)
    (h : w.exec path o c = some (r, w')) : w'.Sound := by
  obtain ⟨⟨r', u⟩, hu, heq⟩ := Option.map_eq_some_iff.mp h
  simp only [Prod.mk.injEq] at heq
  obtain ⟨rfl, rfl⟩ := heq
  by_cases ho : o.onInbox = false ∨ c.fault ≠ none
  · obtain ⟨hupload, hstale, hout, -⟩ := after_upload ho w u
    obtain ⟨-, hend⟩ := UploadWorld.exec_withInbox [] ho hu
    exact hw.inbox (hupload.symm ▸ hend) hstale hout
  · obtain ⟨hin, hf⟩ := not_or.mp ho
    rw [Bool.not_eq_false] at hin
    have hf : c.fault = none := not_not.mp hf
    by_cases hrecv : o = .recv
    · subst hrecv
      obtain ⟨raw, rest, hq, -, rfl⟩ := UploadWorld.exec_recv hf hu
      simp only [after, hf]
      refine ⟨?_, ?_, ?_, hw.queued, ?_⟩
      · have hle := hw.le
        rw [hq, List.length_cons] at hle
        show w.stale - 1 ≤ _
        rw [UploadWorld.inbox_withInbox]
        omega
      · intro hidle
        rw [UploadWorld.transfer_withInbox] at hidle
        have hlen := hw.idle hidle
        rw [hq, List.length_cons] at hlen
        show _ = w.stale - 1
        rw [UploadWorld.inbox_withInbox]
        omega
      · intro raw' hraw'
        rw [UploadWorld.inbox_withInbox] at hraw'
        exact hw.frames raw' (by rw [hq]; exact List.mem_cons_of_mem _ hraw')
      · intro raw' hraw'
        rw [UploadWorld.inbox_withInbox] at hraw'
        have hlate := hw.late raw'
        rw [hq] at hlate
        cases hs : w.stale with
        | zero =>
            simp only [hs, Nat.zero_sub, List.take_zero] at hraw'
            exact absurd hraw' List.not_mem_nil
        | succ n =>
            simp only [hs, Nat.succ_sub_one] at hraw'
            rw [hs, List.take_succ_cons] at hlate
            exact hlate (List.mem_cons_of_mem _ hraw')
    · obtain ⟨-, hnil, hidle, -, -⟩ := UploadWorld.exec_reset [] hin hrecv hf hu
      cases o with
      | newSocket =>
          simp only [after, hf]
          refine ⟨Nat.zero_le _, fun _ => by rw [hnil]; rfl, ?_, hw.queued, ?_⟩
          · intro raw hraw
            rw [hnil] at hraw
            exact absurd hraw List.not_mem_nil
          · intro raw hraw
            exact absurd hraw (by simp)
      | closeSocket =>
          simp only [after, hf]
          refine ⟨Nat.zero_le _, fun _ => by rw [hnil]; rfl, ?_, ?_, ?_⟩
          · intro raw hraw
            rw [hnil] at hraw
            exact absurd hraw List.not_mem_nil
          · exact fun raw hraw => hw.frames raw (List.mem_of_mem_drop hraw)
          · intro raw hraw
            exact absurd hraw (by simp)
      | bindSocket a p =>
          simp only [after, hf]
          refine ⟨?_, fun _ => ?_, ?_, fun raw hraw => absurd hraw List.not_mem_nil, ?_⟩
          · rw [UploadWorld.inbox_withInbox]
          · rw [UploadWorld.inbox_withInbox]
          · rw [UploadWorld.inbox_withInbox]
            exact hw.queued
          · intro raw hraw
            rw [UploadWorld.inbox_withInbox, List.take_length] at hraw
            exact (hw.queued raw hraw).resolve_left (hmeets raw hraw)
      | recv => exact absurd rfl hrecv
      | _ => exact absurd hin (by simp [NodeOp.onInbox])

/-- The frames a conforming uploader sends. -/
theorem move_uploaded {F : Bytes} {m : UploaderMove} {t t' : Transfer} (h : t.move F m = some t')
    (hframes : ∀ raw ∈ t.link.toNode, raw.Uploaded) : ∀ raw ∈ t'.link.toNode, raw.Uploaded := by
  have hpush : ∀ (frame : PyObj) (peer : Uploader), (FrameCodec.encode frame).Uploaded →
      ∀ raw ∈ (t.pushToNode frame peer).link.toNode, raw.Uploaded := by
    intro frame peer hframe raw hraw
    rcases List.mem_append.mp hraw with hraw | hraw
    · exact hframes raw hraw
    · rw [List.mem_singleton.mp hraw]
      exact hframe
  rcases Upload.move_cases h with ⟨raw, rest, -, rfl⟩ | ⟨-, -, rfl⟩ | ⟨off, len, -, -, -, rfl⟩ |
    ⟨-, rfl⟩
  · exact hframes
  · exact hframes
  · exact hpush _ _ (Or.inl rfl)
  · exact hpush _ _ (Or.inr rfl)

/-- An uploader that is idle was idle before, and has just taken a frame. -/
theorem idle_of_move {F : Bytes} {m : UploaderMove} {t t' : Transfer} (h : t.move F m = some t')
    (hidle : t'.peer = .idle) : t.peer = .idle ∧ t'.link.toNode = t.link.toNode := by
  rcases Upload.move_cases h with ⟨raw, rest, -, rfl⟩ | ⟨-, -, rfl⟩ | ⟨off, len, -, -, -, rfl⟩ |
    ⟨-, rfl⟩
  · refine ⟨?_, rfl⟩
    have hreceive : t.peer.receive raw = .idle := hidle
    cases hp : t.peer with
    | idle => rfl
    | awaiting off len =>
        rw [hp] at hreceive
        simp only [Uploader.receive] at hreceive
        split at hreceive <;> exact absurd hreceive (by simp)
    | _ =>
        rw [hp] at hreceive
        exact absurd hreceive (by simp [Uploader.receive])
  · exact absurd hidle (by simp)
  · exact absurd hidle (by simp [Transfer.pushToNode])
  · exact absurd hidle (by simp [Transfer.pushToNode])

/-- **The uploader cannot tell them apart** either. -/
theorem Sound.peerMove {F : Bytes} {m : UploaderMove} {w w' : LateWorld} (hw : w.Sound)
    (h : w.peerMove F m = some w') :
    w'.Sound ∧ w.current.peerMove F () m = some w'.current ∧ w'.stale = w.stale ∧
      w'.outbound = w.outbound ∧ w'.last = w.last ∧ w'.appends = w.appends ∧
      w'.upload.disk = w.upload.disk ∧
      (w'.upload.transfer ()).files = (w.upload.transfer ()).files := by
  obtain ⟨u, hu, rfl⟩ := Option.map_eq_some_iff.mp h
  obtain ⟨new, hin, hmove'⟩ := UploadWorld.peerMove_withInbox (w.upload.inbox.drop w.stale) hu
  obtain ⟨t', hmove, rfl⟩ := Option.map_eq_some_iff.mp hu
  -- the resume frame is processed by an uploader that has sent nothing on this connection
  have hstale : (if m = .take ∧ (w.upload.transfer ()).peer = .idle ∧
      ((w.upload.setTransfer () t').transfer ()).peer ≠ .idle
      then (w.upload.setTransfer () t').inbox.length else w.stale) = w.stale := by
    split
    · next hcase =>
        obtain ⟨rfl, hidle, -⟩ := hcase
        have hsame : t'.link.toNode = (w.upload.transfer ()).link.toNode := by
          simp only [Transfer.move] at hmove
          split at hmove
          · obtain rfl := Option.some.inj hmove
            rfl
          · exact absurd hmove (by simp)
        rw [UploadWorld.inbox, UploadWorld.setTransfer_self, hsame]
        exact hw.idle hidle
    · rfl
  have hle : w.stale ≤ w.upload.inbox.length := hw.le
  simp only [hstale]
  refine ⟨⟨?_, ?_, ?_, hw.queued, ?_⟩, ?_, trivial, trivial, trivial, trivial, rfl, ?_⟩
  · show w.stale ≤ _
    rw [hin, List.length_append]
    omega
  · intro hidle
    rw [UploadWorld.setTransfer_self] at hidle
    obtain ⟨hpeer, hsame⟩ := idle_of_move hmove hidle
    rw [UploadWorld.inbox, UploadWorld.setTransfer_self, hsame]
    exact hw.idle hpeer
  · rw [UploadWorld.inbox, UploadWorld.setTransfer_self]
    exact move_uploaded hmove hw.frames
  · rw [hin, List.take_append_of_le_length hle]
    exact hw.late
  · rw [current, current, hmove', hin, List.drop_append_of_le_length hle]
  · rw [UploadWorld.setTransfer_self]
    exact (Upload.move_frame hmove).1

end LateWorld
