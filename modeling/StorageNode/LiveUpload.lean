/-
# Uploads that come to an end

The surroundings of one upload as far as its completion rests on them.  The uploader is
conforming and keeps going: it is never silent for ever when it is its turn.  It starts at
0 by itself only for a shard the node does not hold yet and on the first connection; on
any other it waits for the resume frame.  The connection may break once, at any operation
of a receive pass, and shows as an `Exception`; every other operation succeeds.

* `LiveUpload` : the world of such an upload;
* `NodeOp.inPass` : the operations at which a lost connection shows;
* `LiveUpload.wf_env` : the uploader's moves come to an end;
* `total_onLink`, `total_file`, `total_outside` : the rules of the node's operations.
-/
import StorageNode.UploadIntegrity
import StorageNode.TotalCorrectness

open Transfer

/-- An upload, whether its connection can still break, and whether the uploader may start
by itself. -/
structure LiveUpload where
  upload : UploadWorld Unit
  spare : Bool
  first : Bool

/-- What changes slowly in an upload: whether the connection can still break, whether the
uploader may start by itself, and the shards reported by `done_uploading`, latest first. -/
@[ext] structure Stage where
  spare : Bool
  first : Bool
  reported : List Json

/-- The operations inside the `try` of `_receive_chunks`. -/
def NodeOp.inPass : NodeOp → Bool
  | .recv => true
  | .pickleLoads _ => true
  | .send raw => raw = FrameCodec.encode ackFrame
  | .write _ _ => true
  | _ => false

/-- The operations on the shard file. -/
def NodeOp.onFile : NodeOp → Bool
  | .isFile _ => true
  | .getSize _ => true
  | .openFile _ _ => true
  | .write _ _ => true
  | .closeFile _ => true
  | _ => false

/-- How far an uploader is from waiting for the node. -/
def Uploader.rank : Uploader → ℕ
  | .idle => 2
  | .ready _ => 1
  | _ => 0

namespace Stage

/-- An uploader whose connection was closed waits for the resume frame of the next. -/
def closed (σ : Stage) : Stage := { σ with first := false }

def after (σ : Stage) : NodeOp → Stage
  | .closeSocket => σ.closed
  | .doneUploading shardId => { σ with reported := shardId :: σ.reported }
  | _ => σ

/-- The connection has broken. -/
def broken (σ : Stage) : Stage := { σ with spare := false }

end Stage

namespace LiveUpload

/-- The stage of an upload. -/
def stage (v : LiveUpload) : Stage where
  spare := v.spare
  first := v.first
  reported := v.upload.done.map DoneCall.shardId

/-- The operations, of which those of a receive pass may fail, once. -/
def exec (path : PyStr) (o : NodeOp) (c : Choice) (v : LiveUpload) :
    Option (Except Exn o.Res × LiveUpload) :=
  (v.upload.exec path () o c).bind fun ru =>
    match c.fault with
    | none => some (ru.1, { upload := ru.2, spare := v.spare, first := (v.stage.after o).first })
    | some e =>
        if o.inPass ∧ v.spare ∧ e.isException then some (ru.1, { upload := ru.2, spare := false, first := v.first })
        else none

/-- The uploader moves; it starts by itself only when it may. -/
def peerMove (F : Bytes) (m : UploaderMove) (v : LiveUpload) : Option LiveUpload :=
  if m = .start → v.first then
    (v.upload.peerMove F () m).map fun u => { v with upload := u }
  else none

/-- The upload of `F` to the shard file `path`. -/
def machine (F : Bytes) (path : PyStr) : Machine NodeOp NodeOp.Res Exn LiveUpload where
  exec o v r v' := ∃ c, v.exec path o c = some (r, v')
  env v v' := ∃ m, v.peerMove F m = some v'

/-- The upload before its first operation. -/
def start (path : PyStr) (spare : Bool) (d : Disk) : LiveUpload where
  upload := .start d
  spare := spare
  first := (d.lookup path).isNone

/-! ## The uploader's moves come to an end -/

/-- A frame taken counts for more than the move it allows. -/
def measure (t : Transfer) : ℕ := 3 * t.link.toPeer.length + t.peer.rank

theorem rank_le (p : Uploader) : p.rank ≤ 2 := by
  cases p <;> simp [Uploader.rank]

/-- A frame brings the uploader at most one move. -/
theorem rank_receive (raw : Raw) (p : Uploader) : (p.receive raw).rank ≤ p.rank + 1 := by
  cases p with
  | idle =>
      have h := rank_le (Uploader.idle.receive raw)
      simp only [Uploader.rank] at h ⊢
      omega
  | awaiting off len =>
      simp only [Uploader.receive]
      split <;> simp only [Uploader.rank] <;> omega
  | _ => simp [Uploader.receive]

/-- Every move of an uploader lowers the measure. -/
theorem measure_move {F : Bytes} {m : UploaderMove} {t t' : Transfer} (h : t.move F m = some t') :
    measure t' < measure t := by
  rcases Upload.move_cases h with ⟨raw, rest, hq, rfl⟩ | ⟨hp, -, rfl⟩ | ⟨off, len, hp, -, -, rfl⟩ |
    ⟨hp, rfl⟩
  · have hrank := rank_receive raw t.peer
    simp only [measure, hq, List.length_cons]
    omega
  · simp only [measure, hp, Uploader.rank]
    omega
  · simp only [measure, pushToNode, hp, Uploader.rank]
    omega
  · simp only [measure, pushToNode, hp, Uploader.rank]
    omega

/-- What a move of the uploader is. -/
theorem peerMove_cases {F : Bytes} {m : UploaderMove} {v v' : LiveUpload}
    (h : v.peerMove F m = some v') :
    (m = .start → v.first = true) ∧
      ∃ t, (v.upload.transfer ()).move F m = some t ∧
        v' = { v with upload := v.upload.setTransfer () t } := by
  unfold peerMove at h
  rw [Option.ite_none_right_eq_some] at h
  obtain ⟨hm, h⟩ := h
  obtain ⟨u, hu, rfl⟩ := Option.map_eq_some_iff.mp h
  obtain ⟨t, ht, rfl⟩ := Option.map_eq_some_iff.mp hu
  exact ⟨hm, t, ht, rfl⟩

/-- **The uploader's moves come to an end.** -/
theorem wf_env (F : Bytes) (path : PyStr) :
    WellFounded fun v' v => (machine F path).env v v' := by
  refine Subrelation.wf ?_ (InvImage.wf (fun v : LiveUpload => measure (v.upload.transfer ()))
    Nat.lt_wfRel.wf)
  rintro v' v ⟨m, hm⟩
  obtain ⟨-, t, ht, rfl⟩ := peerMove_cases hm
  show measure ((v.upload.setTransfer () t).transfer ()) < measure (v.upload.transfer ())
  rw [UploadWorld.setTransfer_self]
  exact measure_move ht

/-! ## What an operation can do -/

/-- A socket operation answers. -/
theorem link_perform_ok {o : NodeOp} {l l' : Link} {r : Except Exn o.Res}
    (h : l.perform o = some (r, l')) : ∃ a, r = .ok a := by
  cases o with
  | newSocket => exact ⟨(), (Prod.mk.inj (Option.some.inj h)).1.symm⟩
  | bindSocket address port => exact ⟨(), (Prod.mk.inj (Option.some.inj h)).1.symm⟩
  | closeSocket => exact ⟨(), (Prod.mk.inj (Option.some.inj h)).1.symm⟩
  | hasSocket => exact ⟨_, (Prod.mk.inj (Option.some.inj h)).1.symm⟩
  | setTimeouts m n => exact ⟨(), (Prod.mk.inj (Option.some.inj h)).1.symm⟩
  | send raw =>
      simp only [Link.perform, Option.ite_none_right_eq_some, Option.some.injEq,
        Prod.mk.injEq] at h
      exact ⟨(), h.2.1.symm⟩
  | recv =>
      simp only [Link.perform] at h
      split at h
      · exact ⟨_, (Prod.mk.inj (Option.some.inj h)).1.symm⟩
      · exact absurd h (by simp)
  | _ => exact absurd h (by simp [Link.perform])

theorem performLink_ok {o : NodeOp} {t t' : Transfer} {r : Except Exn o.Res}
    (h : t.performLink o = some (r, t')) : ∃ a, r = .ok a := by
  unfold performLink at h
  split at h
  · exact absurd h (by simp)
  · next r' l hl =>
      obtain ⟨a, rfl⟩ := link_perform_ok hl
      cases o with
      | send raw =>
          obtain ⟨-, h⟩ := Option.ite_none_right_eq_some.mp h
          split at h <;> exact ⟨a, (Prod.mk.inj (Option.some.inj h)).1.symm⟩
      | _ => exact ⟨a, (Prod.mk.inj (Option.some.inj h)).1.symm⟩

/-- An operation without a fault answers. -/
theorem perform_ok {path : PyStr} {o : NodeOp} {c : Choice} {w w' : UploadWorld Unit}
    {r : Except Exn o.Res} (h : w.perform path () o c = some (r, w')) : ∃ a, r = .ok a := by
  unfold UploadWorld.perform at h
  split at h
  · next r' ha =>
      simp only [Option.some.injEq, Prod.mk.injEq] at h
      obtain ⟨rfl, -⟩ := h
      unfold NodeOp.answerOnly at ha
      split at ha <;> first | exact ⟨_, (Option.some.inj ha).symm⟩ | simp at ha
  · split at h
    · next r' t hl =>
        simp only [Option.some.injEq, Prod.mk.injEq] at h
        obtain ⟨rfl, -⟩ := h
        exact performLink_ok hl
    · cases o with
      | doneUploading id =>
          simp only [Option.some.injEq, Prod.mk.injEq] at h
          exact ⟨(), h.1.symm⟩
      | isFile p =>
          simp only [UploadWorld.performFile, Option.some.injEq, Prod.mk.injEq] at h
          exact ⟨_, h.1.symm⟩
      | getSize p =>
          obtain ⟨b, -, h⟩ := Option.map_eq_some_iff.mp h
          exact ⟨_, (Prod.mk.injEq .. ▸ h).1.symm⟩
      | openFile p m =>
          obtain ⟨b, -, h⟩ := Option.map_eq_some_iff.mp h
          exact ⟨_, (Prod.mk.injEq .. ▸ h).1.symm⟩
      | write fh b =>
          simp only [UploadWorld.performFile, Option.some.injEq, Prod.mk.injEq] at h
          exact ⟨(), h.1.symm⟩
      | closeFile fh =>
          simp only [UploadWorld.performFile, Option.some.injEq, Prod.mk.injEq] at h
          exact ⟨(), h.1.symm⟩
      | _ => exact absurd h (by simp [UploadWorld.performFile])

/-- Only `done_uploading` reports a shard, and only the closing of the socket changes what
the uploader waits for. -/
theorem stage_after {path : PyStr} {o : NodeOp} {c : Choice} {v v' : LiveUpload}
    {r : Except Exn o.Res} (h : v.upload.exec path () o c = some (r, v'.upload))
    (hspare : v'.spare = v.spare) (hfirst : v'.first = (v.stage.after o).first) :
    v'.stage = v.stage.after o := by
  by_cases hdone : ∃ id, o = .doneUploading id
  · obtain ⟨id, rfl⟩ := hdone
    have hu := UploadWorld.exec_doneUploading h
    simp only [stage, hu, UploadWorld.report, hspare, hfirst, Stage.after, List.map_cons]
  · have hsame := UploadWorld.exec_done (fun id ho => hdone ⟨id, ho⟩) h
    have hreported : (v.stage.after o).reported = v.stage.reported := by
      cases o <;> first | rfl | exact absurd ⟨_, rfl⟩ hdone
    have hspare' : (v.stage.after o).spare = v.spare := by
      cases o <;> rfl
    exact Stage.ext (hspare.trans hspare'.symm) hfirst
      ((congrArg (List.map DoneCall.shardId) hsame).trans hreported.symm)

/-- **What an operation can do**: it answers, or it is one of a receive pass and the
connection breaks. -/
theorem exec_cases {path : PyStr} {o : NodeOp} {c : Choice} {v v' : LiveUpload}
    {r : Except Exn o.Res} (h : v.exec path o c = some (r, v')) :
    v.upload.exec path () o c = some (r, v'.upload) ∧
      ((∃ a, r = .ok a ∧ v'.stage = v.stage.after o) ∨
        (∃ e, r = .error e ∧ e.isException = true) ∧ o.inPass = true ∧
          v.stage.spare = true ∧ v'.stage = v.stage.broken) := by
  obtain ⟨⟨r', u⟩, hu, h⟩ := Option.bind_eq_some_iff.mp h
  cases hf : c.fault with
  | none =>
      simp only [hf, Option.some.injEq, Prod.mk.injEq] at h
      obtain ⟨rfl, rfl⟩ := h
      rcases UploadWorld.exec_cases hu with ⟨e, he, -⟩ | ⟨-, hp⟩
      · rw [hf] at he
        exact absurd he (by simp)
      · obtain ⟨a, rfl⟩ := perform_ok hp
        exact ⟨hu, Or.inl ⟨a, rfl, stage_after hu rfl rfl⟩⟩
  | some e =>
      simp only [hf, Option.ite_none_right_eq_some, Option.some.injEq, Prod.mk.injEq] at h
      obtain ⟨⟨hpass, hspare, hexn⟩, rfl, rfl⟩ := h
      rcases UploadWorld.exec_cases hu with ⟨e', hf', -, rfl, -⟩ | ⟨hf', -⟩
      · obtain rfl : e = e' := Option.some.inj (hf.symm.trans hf')
        refine ⟨hu, Or.inr ⟨⟨e, rfl, hexn⟩, hpass, hspare, ?_⟩⟩
        have hno : ∀ id, o ≠ .doneUploading id := by
          rintro id rfl
          exact absurd hpass (by simp [NodeOp.inPass])
        simp only [stage, Stage.broken, UploadWorld.exec_done hno hu]
      · rw [hf] at hf'
        exact absurd hf' (by simp)

/-- What fails raises an `Exception`. -/
theorem isException_of_exec {F : Bytes} {path : PyStr} {o : NodeOp} {v v' : LiveUpload} {e : Exn}
    (h : (machine F path).exec o v (.error e) v') : e.isException = true := by
  obtain ⟨c, hc⟩ := h
  rcases (exec_cases hc).2 with ⟨a, ha, -⟩ | ⟨⟨e', he, hexn⟩, -⟩
  · cases ha
  · cases he
    exact hexn

/-- An operation that can succeed can take place. -/
theorem can_of_perform {F : Bytes} {path : PyStr} {o : NodeOp} {v : LiveUpload}
    {r : Except Exn o.Res} {u : UploadWorld Unit}
    (h : v.upload.perform path () o {} = some (r, u)) : (machine F path).Can o v := by
  refine ⟨r, { upload := u, spare := v.spare, first := (v.stage.after o).first }, {}, ?_⟩
  simp only [exec, UploadWorld.exec, h, Option.bind_some]

/-! ## Assertions -/

/-- An assertion that the moves open to the uploader cannot break. -/
def Kept (F : Bytes) (first : Bool) (A : Transfer → Disk → Prop) : Prop :=
  ∀ t t' m d, (m = .start → first = true) → A t d → t.move F m = some t' → A t' d

/-- An assertion about the connection and the uploader only. -/
def LinkOnly (L : Transfer → Prop) : Prop :=
  ∀ t t', t'.link = t.link → t'.peer = t.peer → t'.resumed = t.resumed → t'.base = t.base →
    L t → L t'

/-- At the stage `σ`, in a good world, `A` holds of the transfer and the disk. -/
def At (F : Bytes) (path : PyStr) (shardId : Json) (σ : Stage) (A : Transfer → Disk → Prop)
    (v : LiveUpload) : Prop :=
  Upload.Here F path shardId () A v.upload ∧ v.stage = σ

section Rules

variable {F : Bytes} {path : PyStr} {shardId : Json} {σ : Stage} {first : Bool}
  {A A' B E : Transfer → Disk → Prop} {L : Transfer → Prop}

theorem kept_of_steady (h : Upload.Steady F path True A) : Kept F first A :=
  fun t t' m d _ ha hm => h.move t t' m d ha hm

theorem kept_link (h : ∀ t t' m, (m = .start → first = true) → L t → t.move F m = some t' → L t') :
    Kept F first (fun t _ => L t) :=
  fun t t' m _ hs hl hm => h t t' m hs hl hm

theorem Kept.and (hA : Kept F first A) (hB : Kept F first B) :
    Kept F first (fun t d => A t d ∧ B t d) :=
  fun t t' m d hs h hm => ⟨hA t t' m d hs h.1 hm, hB t t' m d hs h.2 hm⟩

theorem Kept.or (hA : Kept F first A) (hB : Kept F first B) :
    Kept F first (fun t d => A t d ∨ B t d) :=
  fun t t' m d hs h hm => h.imp (hA t t' m d hs · hm) (hB t t' m d hs · hm)

theorem Kept.exists {κ : Type} {A : κ → Transfer → Disk → Prop} (hA : ∀ x, Kept F first (A x)) :
    Kept F first (fun t d => ∃ x, A x t d) :=
  fun t t' m d hs ⟨x, h⟩ hm => ⟨x, hA x t t' m d hs h hm⟩

theorem kept_const (c : Prop) : Kept F first (fun _ _ => c) := fun _ _ _ _ _ h _ => h

theorem stable_at (hA : Kept F σ.first A) :
    (machine F path).Stable (At F path shardId σ A) := by
  rintro v v' ⟨⟨hgood, ha⟩, hσ⟩ ⟨m, hm⟩
  obtain ⟨hs, t, ht, rfl⟩ := peerMove_cases hm
  refine ⟨⟨hgood, ?_⟩, hσ⟩
  show A ((v.upload.setTransfer () t).transfer ()) v.upload.disk
  rw [UploadWorld.setTransfer_self]
  have hfirst : v.first = σ.first := congrArg Stage.first hσ
  rw [hfirst] at hs
  exact hA _ _ m _ hs ha ht

theorem at_mono (h : ∀ t d, A t d → A' t d) {v : LiveUpload} (hv : At F path shardId σ A v) :
    At F path shardId σ A' v :=
  ⟨⟨hv.1.1, h _ _ hv.1.2⟩, hv.2⟩

section Pure

variable {α : Type} {p : Node α} {B : α → LiveUpload → Prop} {E : LiveUpload → Prop}

/-- A fact about neither the transfer nor the disk may be used in the proof. -/
theorem total_pure {c : Prop} (h : c → (machine F path).Total (At F path shardId σ A) p B E) :
    (machine F path).Total (At F path shardId σ (fun t d => c ∧ A t d)) p B E :=
  fun v hv => h hv.1.2.1 v ⟨⟨hv.1.1, hv.1.2.2⟩, hv.2⟩

theorem total_exists {κ : Type} {A : κ → Transfer → Disk → Prop}
    (h : ∀ x, (machine F path).Total (At F path shardId σ (A x)) p B E) :
    (machine F path).Total (At F path shardId σ (fun t d => ∃ x, A x t d)) p B E :=
  fun v hv => hv.1.2.elim fun x hx => h x v ⟨⟨hv.1.1, hx⟩, hv.2⟩

theorem total_or (h : (machine F path).Total (At F path shardId σ A) p B E)
    (h' : (machine F path).Total (At F path shardId σ A') p B E) :
    (machine F path).Total (At F path shardId σ (fun t d => A t d ∨ A' t d)) p B E :=
  fun v hv => hv.1.2.elim (fun ha => h v ⟨⟨hv.1.1, ha⟩, hv.2⟩) fun ha => h' v ⟨⟨hv.1.1, ha⟩, hv.2⟩

theorem total_pre {P : Transfer → Disk → Prop} (hA : ∀ t d, A t d → P t d)
    (h : (machine F path).Total (At F path shardId σ P) p B E) :
    (machine F path).Total (At F path shardId σ A) p B E :=
  fun v hv => h v (at_mono hA hv)

end Pure

/-- The uploader can move. -/
theorem moves_of_move {v : LiveUpload} {m : UploaderMove} {t : Transfer}
    (hs : m = .start → v.first = true) (hm : (v.upload.transfer ()).move F m = some t) :
    (machine F path).Moves v := by
  refine ⟨{ v with upload := v.upload.setTransfer () t }, m, ?_⟩
  simp only [peerMove, if_pos hs, UploadWorld.peerMove, hm, Option.map_some]

/-- **The rule of one operation.** -/
theorem total_op {o : NodeOp} {B : o.Res → Transfer → Disk → Prop} (hA : Kept F σ.first A)
    (hB : ∀ a, Kept F (σ.after o).first (B a)) (hE : Kept F σ.first E)
    (hcan : ∀ v, At F path shardId σ A v → (machine F path).Can o v ∨ (machine F path).Moves v)
    (h : ∀ w c r w', Upload.Good F path shardId w → A (w.transfer ()) w.disk →
      w.exec path () o c = some (r, w') → (o.inPass = false → ∃ a, r = .ok a) →
      Upload.Good F path shardId w' ∧ Upload.post B E r (w'.transfer ()) w'.disk) :
    (machine F path).Total (At F path shardId σ A) (op o)
      (fun a => At F path shardId (σ.after o) (B a))
      (fun v => (o.inPass = true ∧ σ.spare = true) ∧ At F path shardId σ.broken E v) := by
  refine Machine.total_perform (stable_at hA) (fun a => stable_at (hB a)) ?_ hcan ?_
  · intro v v' hv henv
    exact ⟨hv.1, stable_at (σ := σ.broken) hE v v' hv.2 henv⟩
  · rintro v r v' ⟨⟨hgood, ha⟩, hσ⟩ ⟨c, he⟩
    obtain ⟨hu, ⟨a, rfl, hσ'⟩ | ⟨⟨e, rfl, -⟩, hpass, hspare, hσ'⟩⟩ := exec_cases he
    · obtain ⟨hgood', hpost⟩ := h _ c _ _ hgood ha hu fun _ => ⟨a, rfl⟩
      exact ⟨⟨hgood', hpost⟩, by rw [hσ', hσ]⟩
    · have hno : o.inPass = false → ∃ a, (.error e : Except Exn o.Res) = .ok a := by
        intro hpass'
        rw [hpass] at hpass'
        exact absurd hpass' (by simp)
      obtain ⟨hgood', hpost⟩ := h _ c _ _ hgood ha hu hno
      exact ⟨⟨hpass, hσ ▸ hspare⟩, ⟨hgood', hpost⟩, by rw [hσ', hσ]⟩

/-- What does not raise may be followed by anything. -/
theorem total_safe {α : Type} {A E : LiveUpload → Prop} {B : α → LiveUpload → Prop} {p : Node α}
    (h : (machine F path).Total A p B fun _ => False) : (machine F path).Total A p B E :=
  Machine.total_mono (fun _ hv => hv) (fun _ _ hv => hv) (fun _ hv => hv.elim) h

/-- The rule of an operation outside the passes: it does not fail. -/
theorem total_sure {o : NodeOp} {B : o.Res → Transfer → Disk → Prop} (hpass : o.inPass = false)
    (hA : Kept F σ.first A) (hB : ∀ a, Kept F (σ.after o).first (B a))
    (hcan : ∀ v, At F path shardId σ A v → (machine F path).Can o v)
    (h : ∀ w c a w', Upload.Good F path shardId w → A (w.transfer ()) w.disk →
      w.exec path () o c = some (.ok a, w') →
      Upload.Good F path shardId w' ∧ B a (w'.transfer ()) w'.disk) :
    (machine F path).Total (At F path shardId σ A) (op o)
      (fun a => At F path shardId (σ.after o) (B a)) (fun _ => False) := by
  refine Machine.total_mono (fun _ hv => hv) (fun _ _ hv => hv) ?_
    (total_op (E := fun _ _ => False) hA hB (kept_const _) (fun v hv => Or.inl (hcan v hv)) ?_)
  · rintro v ⟨-, hv⟩
    exact hv.1.2
  · intro w c r w' hgood ha he hok
    obtain ⟨a, rfl⟩ := hok hpass
    exact h w c a w' hgood ha he

theorem answerOnly_isSome {o : NodeOp} (ho : o.outside = true) (hpass : o.inPass = false) :
    ∃ r, o.answerOnly {} = some r := by
  cases o <;> first | exact ⟨_, rfl⟩ | simp [NodeOp.outside, NodeOp.inPass] at ho hpass

/-- An operation that leaves the world alone. -/
theorem total_outside {o : NodeOp} (ho : o.outside = true) (hpass : o.inPass = false)
    (hA : Kept F σ.first A) :
    (machine F path).Total (At F path shardId σ A) (op o) (fun _ => At F path shardId σ A)
      (fun _ => False) := by
  have hafter : σ.after o = σ := by
    cases o <;> first | rfl | simp [NodeOp.outside] at ho
  have h : (machine F path).Total (At F path shardId σ A) (op o)
      (fun _ => At F path shardId (σ.after o) A) (fun _ => False) := by
    refine total_sure hpass hA (fun _ => hafter.symm ▸ hA) (fun v _ => ?_) ?_
    · obtain ⟨r, hr⟩ := answerOnly_isSome ho hpass
      refine @can_of_perform F path o v r v.upload ?_
      simp only [UploadWorld.perform, hr]
    · intro w c a w' hgood ha he
      obtain rfl := UploadWorld.exec_outside ho he
      exact ⟨hgood, ha⟩
  rwa [hafter] at h

/-- A frame that arrived is unpickled, unless the pass breaks off here. -/
theorem total_pickleLoads (hA : Kept F σ.first A) (frame : PyObj) :
    (machine F path).Total (At F path shardId σ A) (op (.pickleLoads (FrameCodec.encode frame)))
      (fun obj v => obj = frame ∧ At F path shardId σ A v)
      (fun v => σ.spare = true ∧ At F path shardId σ.broken A v) := by
  refine Machine.total_mono (fun _ hv => hv) ?_ (fun v hv => ⟨hv.1.2, hv.2⟩)
    (total_op (o := .pickleLoads (FrameCodec.encode frame))
      (B := fun obj t d => obj = frame ∧ A t d) hA (fun a => (kept_const _).and hA) hA ?_ ?_)
  · rintro obj v ⟨⟨hgood, hobj, ha⟩, hσ⟩
    exact ⟨hobj, ⟨hgood, ha⟩, hσ⟩
  · exact fun v _ => Or.inl (can_of_perform rfl)
  · intro w c r w' hgood ha he _
    rcases UploadWorld.exec_cases he with ⟨e, -, -, rfl, rfl⟩ | ⟨-, hp⟩
    · exact ⟨hgood, ha⟩
    · simp only [UploadWorld.perform, NodeOp.answerOnly, FrameCodec.encode, Option.some.injEq,
        Prod.mk.injEq] at hp
      obtain ⟨rfl, rfl⟩ := hp
      exact ⟨hgood, rfl, ha⟩

/-- A socket operation that can take place at once. -/
theorem can_of_performLink {o : NodeOp} (ho : o.onLink = true) {v : LiveUpload}
    {r : Except Exn o.Res} {t : Transfer}
    (h : (v.upload.transfer ()).performLink o = some (r, t)) : (machine F path).Can o v := by
  have hanswer : o.answerOnly {} = none := by
    cases o <;> first | rfl | simp [NodeOp.onLink] at ho
  refine @can_of_perform F path o v r (v.upload.setTransfer () t) ?_
  simp only [UploadWorld.perform, hanswer, h]

/-- **A socket operation outside the passes.** -/
theorem total_onLink {o : NodeOp} {B : o.Res → Transfer → Disk → Prop} (ho : o.onLink = true)
    (hpass : o.inPass = false) (hA : Kept F σ.first A)
    (hB : ∀ a, Kept F (σ.after o).first (B a))
    (hcan : ∀ t d, A t d → ∃ r t', t.performLink o = some (r, t'))
    (h : ∀ t d a t', A t d → t.performLink o = some (.ok a, t') → B a t' d) :
    (machine F path).Total (At F path shardId σ A) (op o)
      (fun a => At F path shardId (σ.after o) (B a)) (fun _ => False) := by
  refine total_sure hpass hA hB ?_ ?_
  · intro v hv
    obtain ⟨r, t, hl⟩ := hcan _ _ hv.1.2
    exact can_of_performLink ho hl
  · intro w c a w' hgood ha he
    rcases UploadWorld.exec_onLink ho he with ⟨e, hr, -⟩ | ⟨t, hl, rfl⟩
    · exact absurd hr (by simp)
    · refine ⟨hgood, ?_⟩
      rw [UploadWorld.setTransfer_self]
      exact h _ _ _ _ ha hl

/-- **A socket operation of a receive pass**: while it waits the uploader can move; where it
fails the connection is as before. -/
theorem total_inPass {o : NodeOp} {B : o.Res → Transfer → Disk → Prop} (ho : o.onLink = true)
    (hA : Kept F σ.first A) (hB : ∀ a, Kept F (σ.after o).first (B a)) (hE : Kept F σ.first E)
    (hcan : ∀ t d, A t d → (∃ r t', t.performLink o = some (r, t')) ∨
      ∃ m t', (m = .start → σ.first = true) ∧ t.move F m = some t')
    (herr : ∀ t d, A t d → E t d)
    (h : ∀ t d a t', A t d → t.performLink o = some (.ok a, t') → B a t' d) :
    (machine F path).Total (At F path shardId σ A) (op o)
      (fun a => At F path shardId (σ.after o) (B a))
      (fun v => σ.spare = true ∧ At F path shardId σ.broken E v) := by
  refine Machine.total_mono (fun _ hv => hv) (fun _ _ hv => hv) (fun v hv => ⟨hv.1.2, hv.2⟩)
    (total_op hA hB hE ?_ ?_)
  · intro v hv
    rcases hcan _ _ hv.1.2 with ⟨r, t, hl⟩ | ⟨m, t, hs, hm⟩
    · exact Or.inl (can_of_performLink ho hl)
    · exact Or.inr (moves_of_move (fun h => (congrArg Stage.first hv.2).trans (hs h)) hm)
  · intro w c r w' hgood ha he _
    rcases UploadWorld.exec_onLink ho he with ⟨e, rfl, rfl⟩ | ⟨t, hl, rfl⟩
    · exact ⟨hgood, herr _ _ ha⟩
    · obtain ⟨a, rfl⟩ := performLink_ok hl
      refine ⟨hgood, ?_⟩
      rw [UploadWorld.setTransfer_self]
      exact h _ _ _ _ ha hl

/-- A file operation leaves the connection alone. -/
theorem link_of_onFile {o : NodeOp} {c : Choice} {w w' : UploadWorld Unit} {r : Except Exn o.Res}
    (ho : o.onFile = true) (h : w.exec path () o c = some (r, w')) :
    (w'.transfer ()).link = (w.transfer ()).link ∧ (w'.transfer ()).peer = (w.transfer ()).peer ∧
      (w'.transfer ()).resumed = (w.transfer ()).resumed ∧
      (w'.transfer ()).base = (w.transfer ()).base := by
  have hafter : ∀ o, (((w.afterFile () c o).transfer ()).link = (w.transfer ()).link ∧
      ((w.afterFile () c o).transfer ()).peer = (w.transfer ()).peer ∧
      ((w.afterFile () c o).transfer ()).resumed = (w.transfer ()).resumed ∧
      ((w.afterFile () c o).transfer ()).base = (w.transfer ()).base) := by
    intro o
    unfold UploadWorld.afterFile
    split
    · split
      · unfold UploadWorld.putFile
        rw [UploadWorld.setTransfer_self]
        exact ⟨rfl, rfl, rfl, rfl⟩
      · exact ⟨rfl, rfl, rfl, rfl⟩
    · split
      · unfold UploadWorld.dropFile
        rw [UploadWorld.setTransfer_self]
        exact ⟨rfl, rfl, rfl, rfl⟩
      · exact ⟨rfl, rfl, rfl, rfl⟩
    · exact ⟨rfl, rfl, rfl, rfl⟩
  cases o with
  | isFile p =>
      obtain ⟨-, rfl⟩ := UploadWorld.exec_isFile h
      exact ⟨rfl, rfl, rfl, rfl⟩
  | getSize p =>
      obtain ⟨rfl, -⟩ := UploadWorld.exec_getSize h
      exact ⟨rfl, rfl, rfl, rfl⟩
  | openFile p m =>
      rcases UploadWorld.exec_openFile h with ⟨-, rfl⟩ | ⟨d, f, -, -, rfl⟩
      · exact ⟨rfl, rfl, rfl, rfl⟩
      · rw [UploadWorld.setTransfer_self]
        exact ⟨rfl, rfl, rfl, rfl⟩
  | write fh b =>
      obtain ⟨rfl, -⟩ := UploadWorld.exec_write h
      exact hafter _
  | closeFile fh =>
      obtain ⟨rfl, -⟩ := UploadWorld.exec_closeFile h
      exact hafter _
  | _ => exact absurd ho (by simp [NodeOp.onFile])

theorem after_onFile {o : NodeOp} (ho : o.onFile = true) : σ.after o = σ := by
  cases o <;> first | rfl | simp [NodeOp.onFile] at ho

/-- What a partial specification of a file operation says about one call, and what the call
leaves of the connection. -/
theorem exec_onFile {o : NodeOp} {B : o.Res → Transfer → Disk → Prop} (ho : o.onFile = true)
    (hspec : Upload.Spec F path shardId () True A (op o) B E) (hL : LinkOnly L) {c : Choice}
    {w w' : UploadWorld Unit} {r : Except Exn o.Res} (hgood : Upload.Good F path shardId w)
    (ha : A (w.transfer ()) w.disk) (hl : L (w.transfer ()))
    (he : w.exec path () o c = some (r, w')) :
    Upload.Good F path shardId w' ∧
      Upload.post (fun a t d => B a t d ∧ L t) (fun t d => E t d ∧ L t) r (w'.transfer ())
        w'.disk := by
  obtain ⟨hlink, hpeer, hresumed, hbase⟩ := link_of_onFile ho he
  have hl' : L (w'.transfer ()) := hL _ _ hlink hpeer hresumed hbase hl
  have hpost := Setting.spec_exec hspec ⟨hgood, ha⟩ ⟨c, he, Or.inl trivial⟩
  cases r with
  | ok a => exact ⟨hpost.1, hpost.2, hl'⟩
  | error e => exact ⟨hpost.1, hpost.2, hl'⟩

/-- **A file operation outside the passes**, from its partial specification. -/
theorem total_onFile {o : NodeOp} {B : o.Res → Transfer → Disk → Prop} (ho : o.onFile = true)
    (hpass : o.inPass = false) (hspec : Upload.Spec F path shardId () True A (op o) B E)
    (hL : LinkOnly L) (hA : Kept F σ.first A) (hB : ∀ a, Kept F σ.first (B a))
    (hkept : Kept F σ.first (fun t _ => L t))
    (hcan : ∀ w, Upload.Good F path shardId w → A (w.transfer ()) w.disk →
      ∃ r w', w.perform path () o {} = some (r, w')) :
    (machine F path).Total (At F path shardId σ (fun t d => A t d ∧ L t)) (op o)
      (fun a => At F path shardId σ (fun t d => B a t d ∧ L t)) (fun _ => False) := by
  have h : (machine F path).Total (At F path shardId σ (fun t d => A t d ∧ L t)) (op o)
      (fun a => At F path shardId (σ.after o) (fun t d => B a t d ∧ L t)) (fun _ => False) := by
    refine total_sure hpass (hA.and hkept) (fun a => ?_) ?_ ?_
    · rw [after_onFile ho]
      exact (hB a).and hkept
    · intro v hv
      obtain ⟨r, w', hp⟩ := hcan _ hv.1.1 hv.1.2.1
      exact can_of_perform hp
    · intro w c a w' hgood ha he
      exact exec_onFile ho hspec hL hgood ha.1 ha.2 he
  rwa [after_onFile ho] at h

/-- **The write of a receive pass**, from its partial specification. -/
theorem total_write {fh : ℕ} {b : Bytes} {B : Transfer → Disk → Prop}
    (hspec : Upload.Spec F path shardId () True A (op (.write fh b)) (fun _ => B) E)
    (hL : LinkOnly L) (hA : Kept F σ.first A) (hB : Kept F σ.first B) (hE : Kept F σ.first E)
    (hkept : Kept F σ.first (fun t _ => L t)) :
    (machine F path).Total (At F path shardId σ (fun t d => A t d ∧ L t)) (op (.write fh b))
      (fun _ => At F path shardId σ (fun t d => B t d ∧ L t))
      (fun v => σ.spare = true ∧ At F path shardId σ.broken (fun t d => E t d ∧ L t) v) := by
  refine Machine.total_mono (fun _ hv => hv) (fun _ _ hv => hv) (fun v hv => ⟨hv.1.2, hv.2⟩)
    (total_op (o := .write fh b) (hA.and hkept) (fun _ => hB.and hkept) (hE.and hkept) ?_ ?_)
  · exact fun v _ => Or.inl (can_of_perform rfl)
  · intro w c r w' hgood ha he _
    exact exec_onFile rfl hspec hL hgood ha.1 ha.2 he

/-- The size of a file that is there can be read. -/
theorem perform_getSize {p : PyStr} {ino : ℕ} {w : UploadWorld Unit}
    (h : w.disk.lookup p = some ino) :
    ∃ r w', w.perform path () (.getSize p) {} = some (r, w') := by
  refine ⟨.ok (w.disk.data ino).length, w, ?_⟩
  simp [UploadWorld.perform, NodeOp.answerOnly, performLink, Link.perform,
    UploadWorld.performFile, Disk.content, h]

/-- A file that can be opened is opened. -/
theorem perform_openFile {p : PyStr} {m : FileMode} {w : UploadWorld Unit} {d : Disk}
    {f : OpenFile} (h : w.disk.openFile p m = some (d, f)) :
    ∃ r w', w.perform path () (.openFile p m) {} = some (r, w') := by
  simp [UploadWorld.perform, NodeOp.answerOnly, performLink, Link.perform,
    UploadWorld.performFile, h]

end Rules

end LiveUpload
