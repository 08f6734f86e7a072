/-
# The operations of one upload transfer

One transfer of the content `F` into the shard file `path`, alone or among other transfers
of the same shard: what its operations keep, each against conforming uploaders.

* `WritingFile` : a handle that continues the file at offset `base + pos`, with the next
  stretch of `F` in its buffer;
* `uploadSetting` : the setting of one transfer; when it is `alone` nobody else touches
  the file, otherwise its operations are taken to be `UpToDate`;
* `Spec` : what a program leads to, from an assertion about the transfer and the disk;
* `spec_write`, `spec_closeFile`, `spec_doneUploading` : the file operations, one
  specification each.
-/
import StorageNode.ChunkTransfer
import StorageNode.UploadProtocol
import StorageNode.RelyGuarantee

open Transfer

namespace Upload

/-! ## The shard file -/

/-- What every configuration of a run satisfies: the shard file is a beginning of `F`, and
each call of `done_uploading` found all of `F` in the closed file. -/
def Good {ι : Type} (F : Bytes) (path : PyStr) (shardId : Json) (w : UploadWorld ι) : Prop :=
  (∀ b, w.disk.content path = some b → b <+: F) ∧
    ∀ call ∈ w.done, call.shardId = shardId ∧ call.content = some F ∧ call.closed = true

/-- The shard file keeps its inode and only gets longer. -/
def DiskGrows (path : PyStr) (d d' : Disk) : Prop :=
  ∀ ino, d.lookup path = some ino → d'.lookup path = some ino ∧ d.data ino <+: d'.data ino

theorem DiskGrows.refl (path : PyStr) (d : Disk) : DiskGrows path d d :=
  fun _ h => ⟨h, List.prefix_rfl⟩

/-- **A handle that continues the file.**  What it flushed and buffered on this connection
is the stretch of `F` from `base` to `k`, and the file reaches at least to the flushed
part; when the transfer is alone it ends there. -/
structure WritingFile (F : Bytes) (path : PyStr) (alone : Prop) (base k : ℕ) (d : Disk)
    (f : OpenFile) : Prop where
  mode : f.mode ≠ .rb
  named : d.lookup path = some f.inode
  atStart : f.mode = .wb → base = 0
  upto : base + f.pos + f.buf.length = k
  le : k ≤ F.length
  buf : f.buf = slice F (base + f.pos) f.buf.length
  reach : base + f.pos ≤ (d.data f.inode).length
  exact : alone → (d.data f.inode).length = base + f.pos

/-- Handle `fh` is the only open one, and it has taken `F` up to `k`. -/
def Writing (F : Bytes) (path : PyStr) (alone : Prop) (fh k : ℕ) (t : Transfer) (d : Disk) :
    Prop :=
  (∃ f, t.file? fh = some f ∧ WritingFile F path alone t.base k d f) ∧
    ∀ j, j ≠ fh → t.file? j = none

/-- The shard file holds at least `s` bytes, and exactly `s` when the transfer is alone. -/
def Sized (path : PyStr) (alone : Prop) (s : ℕ) (_ : Transfer) (d : Disk) : Prop :=
  ∃ ino, d.lookup path = some ino ∧ s ≤ (d.data ino).length ∧
    (alone → (d.data ino).length = s)

/-- The transfer has no open handle. -/
def AllClosed (t : Transfer) : Prop := ∀ j, t.file? j = none

/-- A file that is a beginning of `F` is the one of its length. -/
theorem eq_take_of_prefix {F b : Bytes} (h : b <+: F) : b = F.take b.length :=
  (List.prefix_iff_eq_take.mp h)

/-- More bytes go to the handle's buffer. -/
theorem WritingFile.write {F : Bytes} {path : PyStr} {alone : Prop} {base k n : ℕ} {d : Disk}
    {f : OpenFile} (h : WritingFile F path alone base k d f) (hn : k + n ≤ F.length) :
    WritingFile F path alone base (k + n) d (f.write (slice F k n)) := by
  have hlen : (f.buf ++ slice F k n).length = f.buf.length + n := by
    rw [List.length_append, length_slice hn]
  refine { h with upto := ?_, le := hn, buf := ?_ }
  · show base + f.pos + (f.buf ++ slice F k n).length = k + n
    have hu := h.upto
    omega
  · show f.buf ++ slice F k n = slice F (base + f.pos) (f.buf ++ slice F k n).length
    have hk : base + f.pos + f.buf.length = k := h.upto
    have hb : f.buf ++ slice F k n = slice F (base + f.pos) f.buf.length ++ slice F k n := by
      rw [← h.buf]
    rw [hlen, hb, ← hk, slice_append]

/-- **A flush that is up to date** extends the file by the next stretch of `F`. -/
theorem WritingFile.flush {F : Bytes} {path : PyStr} {alone : Prop} {base k n : ℕ} {d : Disk}
    {f : OpenFile} (h : WritingFile F path alone base k d f)
    (hgood : ∀ b, d.content path = some b → b <+: F)
    (hup : f.buf.take n ≠ [] → (d.data f.inode).length = base + f.pos) :
    WritingFile F path alone base k (f.flush n d).1 (f.flush n d).2 ∧
      (∀ b, (f.flush n d).1.content path = some b → b <+: F) ∧
      DiskGrows path d (f.flush n d).1 := by
  by_cases hnil : f.buf.take n = []
  · rw [OpenFile.flush_nil hnil]
    exact ⟨h, hgood, DiskGrows.refl _ _⟩
  · have hlen : (d.data f.inode).length = base + f.pos := hup hnil
    have hdata : (f.flush n d).1.data f.inode = d.data f.inode ++ f.buf.take n := by
      refine OpenFile.data_flush_of_append h.mode fun hwb => ?_
      rw [hlen, h.atStart hwb, Nat.zero_add]
    have hnamed : (f.flush n d).1.lookup path = some f.inode := h.named
    set m := (f.buf.take n).length with hm
    have hmle : m ≤ f.buf.length := by
      rw [hm, List.length_take]
      exact Nat.min_le_right _ _
    have htake : f.buf.take n = slice F (base + f.pos) m := by
      have h1 : f.buf.take n = f.buf.take m := by
        rw [hm, List.length_take, ← List.take_take, List.take_length]
      rw [h1, h.buf, take_slice, Nat.min_eq_left hmle]
    have hdrop : f.buf.drop n = slice F (base + f.pos + m) (f.buf.length - m) := by
      have h1 : f.buf.drop n = f.buf.drop m := by
        rw [hm, List.length_take]
        rcases Nat.le_total n f.buf.length with h | h
        · rw [Nat.min_eq_left h]
        · rw [Nat.min_eq_right h, List.drop_eq_nil_of_le h, List.drop_length]
      rw [h1, h.buf, drop_slice, ← h.buf]
    have hfile : d.data f.inode = F.take (base + f.pos) := by
      have := eq_take_of_prefix (hgood _ (Disk.content_of_lookup h.named))
      rwa [hlen] at this
    have hnew : (f.flush n d).1.data f.inode = F.take (base + f.pos + m) := by
      rw [hdata, hfile, htake, take_append_slice]
    have hupto := h.upto
    have hle := h.le
    have hnewlen : ((f.flush n d).1.data f.inode).length = base + f.pos + m := by
      rw [hnew, List.length_take]
      omega
    refine ⟨{ mode := h.mode, named := hnamed, atStart := h.atStart, upto := ?_, le := h.le,
              buf := ?_, reach := ?_, exact := ?_ }, ?_, ?_⟩
    · show base + (f.pos + m) + (f.buf.drop n).length = k
      rw [hdrop, length_slice (by omega)]
      omega
    · show f.buf.drop n = slice F (base + (f.pos + m)) (f.buf.drop n).length
      rw [hdrop, length_slice (by omega), Nat.add_assoc]
    · show base + (f.pos + m) ≤ ((f.flush n d).1.data f.inode).length
      omega
    · intro _
      show ((f.flush n d).1.data f.inode).length = base + (f.pos + m)
      omega
    · intro b hb
      rw [Disk.content_of_lookup hnamed, Option.some.injEq] at hb
      rw [← hb, hnew]
      exact List.take_prefix _ _
    · intro ino hino
      have hino' : ino = f.inode := by
        rw [h.named, Option.some.injEq] at hino
        exact hino.symm
      subst hino'
      exact ⟨hnamed, hdata ▸ List.prefix_append _ _⟩

/-! ## The setting -/

section Setting

variable {ι : Type} [DecidableEq ι] (F : Bytes) (path : PyStr) (shardId : Json) (i : ι)
  (alone : Prop)

/-- **The setting of transfer `i`.**  Any uploader may move; when the transfer is not
alone, others may extend the shard file, and the transfer's own operations are up to
date. -/
def uploadSetting : Setting NodeOp NodeOp.Res Exn (UploadWorld ι) where
  exec o w r w' := ∃ c, w.exec path i o c = some (r, w') ∧ (alone ∨ w.UpToDate i c o)
  env w w' := (∃ j m, w.peerMove F j m = some w') ∨
    (¬ alone ∧ w'.transfer i = w.transfer i ∧ Good F path shardId w' ∧
      DiskGrows path w.disk w'.disk)
  guar w w' := (∀ j, j ≠ i → w'.transfer j = w.transfer j) ∧ Good F path shardId w' ∧
    DiskGrows path w.disk w'.disk
  inv w := Good F path shardId w

/-- An assertion about the transfer and the disk that neither the uploader's moves nor a
growing file can break. -/
structure Steady (A : Transfer → Disk → Prop) : Prop where
  move : ∀ t t' m d, A t d → t.move F m = some t' → A t' d
  grow : ¬ alone → ∀ t d d', A t d → DiskGrows path d d' → A t d'

/-- `A` holds of transfer `i`, in a good world. -/
def Here (A : Transfer → Disk → Prop) (w : UploadWorld ι) : Prop :=
  Good F path shardId w ∧ A (w.transfer i) w.disk

variable {F path shardId i alone}

theorem settled_here {A : Transfer → Disk → Prop} (hA : Steady F path alone A) :
    (uploadSetting F path shardId i alone).Settled (Here F path shardId i A) where
  stable := by
    rintro w w' ⟨hgood, h⟩ (⟨j, m, hm⟩ | ⟨hne, ht, hgood', hgrow⟩)
    · unfold UploadWorld.peerMove at hm
      obtain ⟨t', ht', rfl⟩ := Option.map_eq_some_iff.mp hm
      refine ⟨hgood, ?_⟩
      by_cases hij : i = j
      · subst hij
        rw [UploadWorld.setTransfer_self]
        exact hA.move _ _ m _ h ht'
      · rw [UploadWorld.setTransfer_of_ne w hij]
        exact h
    · refine ⟨hgood', ?_⟩
      rw [ht]
      exact hA.grow hne _ _ _ h hgrow
  safe := fun w h => h.1

theorem Steady.and {A B : Transfer → Disk → Prop} (hA : Steady F path alone A)
    (hB : Steady F path alone B) : Steady F path alone (fun t d => A t d ∧ B t d) where
  move := fun t t' m d h hm => ⟨hA.move t t' m d h.1 hm, hB.move t t' m d h.2 hm⟩
  grow := fun hne t d d' h hg => ⟨hA.grow hne t d d' h.1 hg, hB.grow hne t d d' h.2 hg⟩

theorem Steady.or {A B : Transfer → Disk → Prop} (hA : Steady F path alone A)
    (hB : Steady F path alone B) : Steady F path alone (fun t d => A t d ∨ B t d) where
  move := fun t t' m d h hm => h.imp (hA.move t t' m d · hm) (hB.move t t' m d · hm)
  grow := fun hne t d d' h hg => h.imp (hA.grow hne t d d' · hg) (hB.grow hne t d d' · hg)

theorem Steady.exists {κ : Type} {A : κ → Transfer → Disk → Prop}
    (hA : ∀ x, Steady F path alone (A x)) : Steady F path alone (fun t d => ∃ x, A x t d) where
  move := fun t t' m d ⟨x, h⟩ hm => ⟨x, (hA x).move t t' m d h hm⟩
  grow := fun hne t d d' ⟨x, h⟩ hg => ⟨x, (hA x).grow hne t d d' h hg⟩

theorem steady_const (c : Prop) : Steady F path alone (fun _ _ => c) where
  move := fun _ _ _ _ h _ => h
  grow := fun _ _ _ _ h _ => h

theorem steady_link {L : Transfer → Prop} (hL : MoveStable F L) :
    Steady F path alone (fun t _ => L t) where
  move := fun t t' m _ h hm => hL t t' m h hm
  grow := fun _ _ _ _ h _ => h

theorem steady_base (k : ℕ) : Steady F path alone (fun t _ => t.base = k) :=
  steady_link fun _ _ _ h hm => (move_frame hm).2.1.trans h

theorem file?_move {m : UploaderMove} {t t' : Transfer} (hm : t.move F m = some t') (j : ℕ) :
    t'.file? j = t.file? j := by
  unfold file?
  rw [(move_frame hm).1]

theorem steady_allClosed : Steady F path alone (fun t _ => AllClosed t) :=
  steady_link fun _ _ _ h hm j => (file?_move hm j).trans (h j)

theorem steady_sized (s : ℕ) : Steady F path alone (Sized path alone s) where
  move := fun _ _ _ _ h _ => h
  grow := by
    rintro hne t d d' ⟨ino, hl, hs, -⟩ hg
    obtain ⟨hl', hpre⟩ := hg ino hl
    exact ⟨ino, hl', hs.trans hpre.length_le, fun h => absurd h hne⟩

/-- What a transfer is writing depends on its handles and its offset only. -/
theorem Writing.frame {fh k : ℕ} {t t' : Transfer} {d : Disk}
    (h : Writing F path alone fh k t d) (hfiles : t'.files = t.files) (hbase : t'.base = t.base) :
    Writing F path alone fh k t' d := by
  have hfile : ∀ j, t'.file? j = t.file? j := by
    intro j
    unfold file?
    rw [hfiles]
  obtain ⟨⟨f, hf, hw⟩, hothers⟩ := h
  rw [← hbase] at hw
  exact ⟨⟨f, (hfile fh).trans hf, hw⟩, fun j hj => (hfile j).trans (hothers j hj)⟩

theorem steady_writing (fh k : ℕ) : Steady F path alone (Writing F path alone fh k) where
  move := fun _ _ _ _ h hm => h.frame (move_frame hm).1 (move_frame hm).2.1
  grow := by
    rintro hne t d d' ⟨⟨f, hf, hw⟩, hothers⟩ hg
    obtain ⟨hl', hpre⟩ := hg f.inode hw.named
    exact ⟨⟨f, hf, { hw with
      named := hl'
      reach := hw.reach.trans hpre.length_le
      exact := fun h => absurd h hne }⟩, hothers⟩

theorem steady_exists_file : Steady F path alone (fun _ d => ∃ ino, d.lookup path = some ino) where
  move := fun _ _ _ _ h _ => h
  grow := fun _ _ _ _ ⟨ino, h⟩ hg => ⟨ino, (hg ino h).1⟩

theorem steady_noFile : Steady F path alone (fun _ d => alone → d.lookup path = none) where
  move := fun _ _ _ _ h _ => h
  grow := fun hne _ _ _ _ _ h => absurd h hne

/-! ## Specifications -/

variable (F path shardId i alone) in
/-- From `A`, the program `p` returns `a` in `B a` or raises in `E`. -/
def Spec {α : Type} (A : Transfer → Disk → Prop) (p : Node α) (B : α → Transfer → Disk → Prop)
    (E : Transfer → Disk → Prop) : Prop :=
  (uploadSetting F path shardId i alone).Spec (Here F path shardId i A) p
    (fun a => Here F path shardId i (B a)) (Here F path shardId i E)

section Rules

variable {α β : Type} {A A' E E' : Transfer → Disk → Prop} {B B' : α → Transfer → Disk → Prop}
  {C : β → Transfer → Disk → Prop}

theorem spec_ret {a : α} (hA : Steady F path alone A) (h : ∀ t d, A t d → B a t d) :
    Spec F path shardId i alone A (.ret a) B E :=
  Setting.spec_ret (settled_here hA) fun _ hw => ⟨hw.1, h _ _ hw.2⟩

theorem spec_raise {e : Exn} (hA : Steady F path alone A) (h : ∀ t d, A t d → E t d) :
    Spec F path shardId i alone A (.raise e : Node α) B E :=
  Setting.spec_raise (settled_here hA) fun _ hw => ⟨hw.1, h _ _ hw.2⟩

theorem spec_hang (hA : Steady F path alone A) :
    Spec F path shardId i alone A (.hang : Node α) B E :=
  Setting.spec_hang (settled_here hA)

theorem spec_bind {p : Node α} {f : α → Node β} (h : Spec F path shardId i alone A p B E)
    (hf : ∀ a, Spec F path shardId i alone (B a) (f a) C E) :
    Spec F path shardId i alone A (p.bind f) C E :=
  Setting.spec_bind h hf

theorem spec_tryExcept {p : Node α} {g : Exn → Node α}
    (h : Spec F path shardId i alone A p B E)
    (hg : ∀ e, Spec F path shardId i alone E (g e) B E') :
    Spec F path shardId i alone A (p.tryExcept g) B E' :=
  Setting.spec_tryExcept h hg

theorem spec_mono {p : Node α} (hA : ∀ t d, A' t d → A t d) (hB : ∀ a t d, B a t d → B' a t d)
    (hE : ∀ t d, E t d → E' t d) (h : Spec F path shardId i alone A p B E) :
    Spec F path shardId i alone A' p B' E' :=
  Setting.spec_mono (fun _ hw => ⟨hw.1, hA _ _ hw.2⟩) (fun a _ hw => ⟨hw.1, hB a _ _ hw.2⟩)
    (fun _ hw => ⟨hw.1, hE _ _ hw.2⟩) h

/-- A case distinction on what is known before. -/
theorem spec_or {p : Node α} (h : Spec F path shardId i alone A p B E)
    (h' : Spec F path shardId i alone A' p B E) :
    Spec F path shardId i alone (fun t d => A t d ∨ A' t d) p B E :=
  Setting.spec_mono (fun _ hw => hw.2.imp (⟨hw.1, ·⟩) (⟨hw.1, ·⟩)) (fun _ _ hw => hw)
    (fun _ hw => hw) (Setting.spec_or h h')

theorem spec_exists {κ : Type} {P : κ → Transfer → Disk → Prop} {p : Node α}
    (h : ∀ x, Spec F path shardId i alone (P x) p B E) :
    Spec F path shardId i alone (fun t d => ∃ x, P x t d) p B E :=
  Setting.spec_mono (fun _ hw => hw.2.imp fun _ hx => ⟨hw.1, hx⟩) (fun _ _ hw => hw)
    (fun _ hw => hw) (Setting.spec_exists h)

/-- A fact about neither the transfer nor the disk may be used in the proof. -/
theorem spec_pure {c : Prop} {p : Node α} (h : c → Spec F path shardId i alone A p B E) :
    Spec F path shardId i alone (fun t d => c ∧ A t d) p B E :=
  Setting.spec_mono (fun _ hw => ⟨hw.2.1, hw.1, hw.2.2⟩) (fun _ _ hw => hw) (fun _ hw => hw)
    (Setting.spec_pure h)

/-- What is known after an operation that answered `r`. -/
def post (B : α → Transfer → Disk → Prop) (E : Transfer → Disk → Prop) :
    Except Exn α → Transfer → Disk → Prop
  | .ok a => B a
  | .error _ => E

/-- The rule of one operation. -/
theorem spec_op {o : NodeOp} {B : o.Res → Transfer → Disk → Prop}
    (hA : Steady F path alone A) (hB : ∀ a, Steady F path alone (B a))
    (hE : Steady F path alone E)
    (h : ∀ w c r w', Good F path shardId w → A (w.transfer i) w.disk →
      w.exec path i o c = some (r, w') → (alone ∨ w.UpToDate i c o) →
      (∀ j, j ≠ i → w'.transfer j = w.transfer j) ∧ Good F path shardId w' ∧
        DiskGrows path w.disk w'.disk ∧ post B E r (w'.transfer i) w'.disk) :
    Spec F path shardId i alone A (op o) B E := by
  refine Setting.spec_perform (settled_here hA) (fun a => settled_here (hB a))
    (settled_here hE) ?_
  rintro w r w' ⟨hg, hw⟩ ⟨c, hexec, hup⟩
  obtain ⟨hothers, hgood, hgrow, hpost⟩ := h w c r w' hg hw hexec hup
  refine ⟨⟨hothers, hgood, hgrow⟩, ?_⟩
  cases r with
  | ok a => exact ⟨hgood, hpost⟩
  | error e => exact ⟨hgood, hpost⟩

/-- An operation that leaves the world alone. -/
theorem spec_look {o : NodeOp} {B : o.Res → Transfer → Disk → Prop}
    (hA : Steady F path alone A) (hB : ∀ a, Steady F path alone (B a))
    (hE : Steady F path alone E)
    (h : ∀ w c r w', Good F path shardId w → A (w.transfer i) w.disk →
      w.exec path i o c = some (r, w') → w' = w ∧ post B E r (w.transfer i) w.disk) :
    Spec F path shardId i alone A (op o) B E := by
  refine spec_op hA hB hE fun w c r w' hg hw hexec _ => ?_
  obtain ⟨rfl, hpost⟩ := h w c r w' hg hw hexec
  exact ⟨fun _ _ => rfl, hg, DiskGrows.refl _ _, hpost⟩

end Rules

/-! ## Single operations -/

/-- An assertion about the handles and the disk only. -/
def FilesOnly (A : Transfer → Disk → Prop) : Prop :=
  ∀ t t' d, t'.files = t.files → A t d → A t' d

theorem good_setTransfer {w : UploadWorld ι} (t : Transfer) (h : Good F path shardId w) :
    Good F path shardId (w.setTransfer i t) := h

theorem spec_outside {o : NodeOp} {A : Transfer → Disk → Prop} (ho : o.outside = true)
    (hA : Steady F path alone A) : Spec F path shardId i alone A (op o) (fun _ => A) A := by
  refine spec_look hA (fun _ => hA) hA fun w c r w' _ hw hexec => ?_
  refine ⟨UploadWorld.exec_outside ho hexec, ?_⟩
  cases r with
  | ok a => exact hw
  | error e => exact hw

/-- A socket operation: it fails and changes nothing, or leads from `A` to `B`. -/
theorem spec_onLink {o : NodeOp} {A E : Transfer → Disk → Prop}
    {B : o.Res → Transfer → Disk → Prop} (ho : o.onLink = true) (hA : Steady F path alone A)
    (hB : ∀ a, Steady F path alone (B a)) (hE : Steady F path alone E)
    (herr : ∀ t d, A t d → E t d)
    (h : ∀ t d r t', A t d → t.performLink o = some (r, t') → post B E r t' d) :
    Spec F path shardId i alone A (op o) B E := by
  refine spec_op hA hB hE fun w c r w' hg hw hexec _ => ?_
  rcases UploadWorld.exec_onLink ho hexec with ⟨e, rfl, rfl⟩ | ⟨t, hl, rfl⟩
  · exact ⟨fun _ _ => rfl, hg, DiskGrows.refl _ _, herr _ _ hw⟩
  · refine ⟨fun j hj => UploadWorld.setTransfer_of_ne w hj t, good_setTransfer t hg,
      DiskGrows.refl _ _, ?_⟩
    rw [UploadWorld.setTransfer_self]
    exact h _ _ _ _ hw hl

/-- A socket operation that is not a send keeps the handles. -/
theorem performLink_files {o : NodeOp} {t t' : Transfer} {r : Except Exn o.Res}
    (h : t.performLink o = some (r, t')) : t'.files = t.files := by
  cases o with
  | send raw => exact (performLink_send h).2.2.2.1
  | recv =>
      simp only [performLink, Link.perform] at h
      cases hq : t.link.toNode with
      | nil => simp [hq] at h
      | cons raw rest =>
          simp only [hq, Option.some.injEq, Prod.mk.injEq] at h
          rw [← h.2]
  | _ =>
      simp [performLink, Link.perform] at h
      try rw [← h.2]

/-- A socket operation, seen from the handles and the disk. -/
theorem spec_onLink_files {o : NodeOp} {A : Transfer → Disk → Prop} (ho : o.onLink = true)
    (hA : Steady F path alone A) (hf : FilesOnly A) :
    Spec F path shardId i alone A (op o) (fun _ => A) A := by
  refine spec_onLink ho hA (fun _ => hA) hA (fun _ _ h => h) fun t d r t' ht hl => ?_
  have h' : A t' d := hf t t' d (performLink_files hl) ht
  cases r with
  | ok a => exact h'
  | error e => exact h'

/-- `hasSocket` and `setTimeouts` change nothing at all. -/
theorem spec_quiet {o : NodeOp} {A : Transfer → Disk → Prop}
    (ho : o.onLink = true)
    (hsame : ∀ (t t' : Transfer) (r : Except Exn o.Res), t.performLink o = some (r, t') → t' = t)
    (hA : Steady F path alone A) : Spec F path shardId i alone A (op o) (fun _ => A) A := by
  refine spec_onLink ho hA (fun _ => hA) hA (fun _ _ h => h) fun t d r t' ht hl => ?_
  obtain rfl := hsame t t' r hl
  cases r with
  | ok a => exact ht
  | error e => exact ht

theorem performLink_hasSocket {t t' : Transfer} {r : Except Exn Bool}
    (h : t.performLink .hasSocket = some (r, t')) : t' = t := by
  simp only [performLink, Link.perform, Option.some.injEq, Prod.mk.injEq] at h
  exact h.2.symm

theorem performLink_setTimeouts {t t' : Transfer} {m n : ℕ} {r : Except Exn Unit}
    (h : t.performLink (.setTimeouts m n) = some (r, t')) : t' = t := by
  simp only [performLink, Link.perform, Option.some.injEq, Prod.mk.injEq] at h
  exact h.2.symm

/-! ## File operations -/

/-- What `os.path.isfile` answered: a file that is there stays; while the transfer is
alone, one that is not there does not appear. -/
def Found (path : PyStr) (alone : Prop) (found : Bool) (_ : Transfer) (d : Disk) : Prop :=
  match found with
  | true => ∃ ino, d.lookup path = some ino
  | false => alone → d.lookup path = none

theorem steady_found (found : Bool) : Steady F path alone (Found path alone found) := by
  cases found with
  | true => exact steady_exists_file
  | false => exact steady_noFile

omit [DecidableEq ι] in
/-- A shard file in a good world is no longer than `F`. -/
theorem length_le_of_good {w : UploadWorld ι} {b : Bytes} (h : Good F path shardId w)
    (hb : w.disk.content path = some b) : b.length ≤ F.length :=
  (h.1 b hb).length_le

theorem spec_isFile {A : Transfer → Disk → Prop} (hA : Steady F path alone A) :
    Spec F path shardId i alone A (op (.isFile path))
      (fun found t d => A t d ∧ Found path alone found t d) A := by
  refine spec_look hA (fun found => hA.and (steady_found found)) hA fun w c r w' _ hw hexec => ?_
  obtain ⟨rfl, rfl⟩ := UploadWorld.exec_isFile hexec
  refine ⟨rfl, hw, ?_⟩
  cases hl : w'.disk.lookup path with
  | none => exact fun _ => hl
  | some ino => exact ⟨ino, hl⟩

theorem spec_getSize {A : Transfer → Disk → Prop} (hA : Steady F path alone A) :
    Spec F path shardId i alone A (op (.getSize path))
      (fun s t d => s ≤ F.length ∧ Sized path alone s t d ∧ A t d) A := by
  refine spec_look hA (fun s => (steady_const _).and ((steady_sized s).and hA)) hA
    fun w c r w' hg hw hexec => ?_
  obtain ⟨rfl, ⟨e, rfl⟩ | ⟨b, hb, rfl⟩⟩ := UploadWorld.exec_getSize hexec
  · exact ⟨rfl, hw⟩
  · refine ⟨rfl, length_le_of_good hg hb, ?_, hw⟩
    obtain ⟨ino, hl, rfl⟩ := Option.map_eq_some_iff.mp hb
    exact ⟨ino, hl, Nat.le_refl _, fun _ => rfl⟩

/-- A handle that was just opened, and the others. -/
theorem file?_append (t : Transfer) (f : OpenFile) :
    ({ t with files := t.files ++ [some f] } : Transfer).file? t.files.length = some f := by
  simp [file?]

theorem file?_append_of_ne (t : Transfer) (f : OpenFile) {j : ℕ} (hj : j ≠ t.files.length) :
    ({ t with files := t.files ++ [some f] } : Transfer).file? j = t.file? j := by
  unfold file?
  by_cases hlt : j < t.files.length
  · simp only [List.getElem?_append_left hlt]
  · have hle : t.files.length + 1 ≤ j := by omega
    rw [List.getElem?_eq_none (by simpa using hle), List.getElem?_eq_none (by omega)]

/-- The handle opened by a transfer that had none continues the file from `s`. -/
theorem writing_of_open {t : Transfer} {d : Disk} {f : OpenFile} {s : ℕ} (hb : t.base = s)
    (hc : AllClosed t) (h : WritingFile F path alone s s d f) :
    Writing F path alone t.files.length s { t with files := t.files ++ [some f] } d := by
  subst hb
  exact ⟨⟨f, file?_append t f, h⟩, fun j hj => (file?_append_of_ne t f hj).trans (hc j)⟩

/-- `open(path, "ab")` of a file whose size was read. -/
theorem spec_openFile_ab (s : ℕ) (hs : s ≤ F.length) :
    Spec F path shardId i alone
      (fun t d => Sync F s t ∧ t.base = s ∧ AllClosed t ∧ Sized path alone s t d)
      (op (.openFile path .ab))
      (fun fh t d => Sync F s t ∧ Writing F path alone fh s t d) (fun t _ => AllClosed t) := by
  have hA : Steady F path alone
      (fun t d => Sync F s t ∧ t.base = s ∧ AllClosed t ∧ Sized path alone s t d) :=
    (steady_link sync_move).and ((steady_base s).and (steady_allClosed.and (steady_sized s)))
  refine spec_op hA (fun fh => (steady_link sync_move).and (steady_writing fh s))
    steady_allClosed fun w c r w' hg hw hexec _ => ?_
  obtain ⟨hsync, hbase, hclosed, ino, hl, hle, hexact⟩ := hw
  rcases UploadWorld.exec_openFile hexec with ⟨⟨e, rfl⟩, rfl⟩ | ⟨d, f, ho, rfl, rfl⟩
  · exact ⟨fun _ _ => rfl, hg, DiskGrows.refl _ _, hclosed⟩
  · rw [Disk.openFile_ab hl, Option.some.injEq, Prod.mk.injEq] at ho
    obtain ⟨rfl, rfl⟩ := ho
    refine ⟨fun j hj => UploadWorld.setTransfer_of_ne _ hj _, hg, DiskGrows.refl _ _, ?_⟩
    rw [UploadWorld.setTransfer_self]
    refine ⟨hsync, writing_of_open hbase hclosed
      { mode := by simp, named := hl, atStart := by simp, upto := by simp, le := hs,
        buf := by simp [slice], reach := ?_, exact := ?_ }⟩
    · show s + 0 ≤ (w.disk.data ino).length
      omega
    · intro ha
      have hlen := hexact ha
      show (w.disk.data ino).length = s + 0
      omega

/-- `open(path, "wb")` after no file was found. -/
theorem spec_openFile_wb :
    Spec F path shardId i alone
      (fun t d => (Sync F 0 t ∧ t.base = 0 ∧ AllClosed t) ∧ Found path alone false t d)
      (op (.openFile path .wb))
      (fun fh t d => Sync F 0 t ∧ Writing F path alone fh 0 t d) (fun _ _ => True) := by
  have hA : Steady F path alone
      (fun t d => (Sync F 0 t ∧ t.base = 0 ∧ AllClosed t) ∧ Found path alone false t d) :=
    ((steady_link sync_move).and ((steady_base 0).and steady_allClosed)).and (steady_found false)
  refine spec_op hA (fun fh => (steady_link sync_move).and (steady_writing fh 0))
    (steady_const True) fun w c r w' hg hw hexec hup => ?_
  obtain ⟨⟨hsync, hbase, hclosed⟩, hfound⟩ := hw
  rcases UploadWorld.exec_openFile hexec with ⟨⟨e, rfl⟩, rfl⟩ | ⟨d, f, ho, rfl, rfl⟩
  · exact ⟨fun _ _ => rfl, hg, DiskGrows.refl _ _, trivial⟩
  · have hnone : w.disk.lookup path = none := by
      rcases hup with ha | hup
      · exact hfound ha
      · exact hup
    rw [Disk.openFile_wb_create hnone, Option.some.injEq, Prod.mk.injEq] at ho
    obtain ⟨rfl, rfl⟩ := ho
    have hdata : (w.disk.create path hnone).data w.disk.next = [] := Function.update_self ..
    refine ⟨fun j hj => UploadWorld.setTransfer_of_ne _ hj _, ⟨?_, hg.2⟩, ?_, ?_⟩
    · intro b hb
      have hb' : (w.disk.create path hnone).content path = some b := hb
      rw [Disk.content_create_self, Option.some.injEq] at hb'
      rw [← hb']
      exact List.nil_prefix
    · intro ino hl
      rw [hnone] at hl
      exact absurd hl (by simp)
    · rw [UploadWorld.setTransfer_self]
      refine ⟨hsync, writing_of_open hbase hclosed
        { mode := by simp, named := Disk.lookup_create_self _ _ hnone, atStart := fun _ => rfl,
          upto := by simp, le := Nat.zero_le _, buf := by simp [slice], reach := Nat.zero_le _,
          exact := ?_ }⟩
      intro _
      show ((w.disk.create path hnone).data w.disk.next).length = 0 + 0
      rw [hdata]
      rfl

/-- What a write or a close does to the handle it acts on. -/
theorem afterFile_write {w : UploadWorld ι} {fh : ℕ} {f : OpenFile} {b : Bytes} {c : Choice}
    (hf : (w.transfer i).file? fh = some f) :
    w.afterFile i c (.write fh b) = w.putFile i fh (f.write (c.taken b)) c.flush := by
  simp only [UploadWorld.afterFile, hf]

theorem afterFile_closeFile {w : UploadWorld ι} {fh : ℕ} {f : OpenFile} {c : Choice}
    (hf : (w.transfer i).file? fh = some f) :
    w.afterFile i c (.closeFile fh) = w.dropFile i fh f (c.closing f) := by
  simp only [UploadWorld.afterFile, hf]

theorem afterFile_closeFile_of_closed {w : UploadWorld ι} {fh : ℕ} {c : Choice}
    (hf : (w.transfer i).file? fh = none) : w.afterFile i c (.closeFile fh) = w := by
  simp only [UploadWorld.afterFile, hf]

/-- Replacing a handle. -/
theorem file?_set {t : Transfer} {fh : ℕ} {f : OpenFile} (hf : t.file? fh = some f)
    (x : Option OpenFile) : ({ t with files := t.files.set fh x } : Transfer).file? fh = x := by
  have hlt : fh < t.files.length := by
    by_contra hge
    rw [file?, List.getElem?_eq_none (by omega)] at hf
    simp at hf
  simp [file?, hlt]

theorem file?_set_of_ne (t : Transfer) {fh j : ℕ} (hj : j ≠ fh) (x : Option OpenFile) :
    ({ t with files := t.files.set fh x } : Transfer).file? j = t.file? j := by
  simp [file?, List.getElem?_set_ne hj.symm]

/-- **Writing the slice that comes next.**  A write that fails still leaves the handle with
a stretch of `F`. -/
theorem spec_write (fh k : ℕ) (c : Bytes) (hc : ∃ len, c = slice F k len ∧ k + len ≤ F.length) :
    Spec F path shardId i alone
      (fun t d => Sync F (k + c.length) t ∧ Writing F path alone fh k t d)
      (op (.write fh c))
      (fun _ t d => Sync F (k + c.length) t ∧ Writing F path alone fh (k + c.length) t d)
      (fun t d => ∃ k', Writing F path alone fh k' t d) := by
  refine spec_op ((steady_link sync_move).and (steady_writing fh k))
    (fun _ => (steady_link sync_move).and (steady_writing fh _))
    (Steady.exists fun k' => steady_writing fh k') fun w ch r w' hg hw hexec hup => ?_
  obtain ⟨hsync, ⟨f, hf, hwf⟩, hothers⟩ := hw
  obtain ⟨len, rfl, hle⟩ := hc
  obtain ⟨rfl, hr⟩ := UploadWorld.exec_write hexec
  rw [afterFile_write hf]
  -- the part of the slice the handle takes in is itself the next stretch of `F`
  have htaken : ∃ n, ch.taken (slice F k len) = slice F k n ∧ k + n ≤ F.length := by
    unfold Choice.taken
    split
    · exact ⟨len, rfl, hle⟩
    · refine ⟨min ch.keep len, take_slice F k len ch.keep, ?_⟩
      have := Nat.min_le_right ch.keep len
      omega
  obtain ⟨n, hn, hnle⟩ := htaken
  have hwf' := hwf.write hnle
  rw [← hn] at hwf'
  have hflush : (f.write (ch.taken (slice F k len))).buf.take ch.flush ≠ [] →
      (w.disk.data f.inode).length = (w.transfer i).base + f.pos := by
    intro hne
    rcases hup with ha | hup
    · exact hwf.exact ha
    · exact hup f hf hne
  obtain ⟨hwf'', hgood, hgrow⟩ := hwf'.flush hg.1 hflush
  refine ⟨fun j hj => UploadWorld.setTransfer_of_ne _ hj _, ⟨hgood, hg.2⟩, hgrow, ?_⟩
  have hwriting : Writing F path alone fh (k + n)
      ((w.putFile i fh (f.write (ch.taken (slice F k len))) ch.flush).transfer i)
      (w.putFile i fh (f.write (ch.taken (slice F k len))) ch.flush).disk := by
    unfold UploadWorld.putFile
    rw [UploadWorld.setTransfer_self]
    exact ⟨⟨_, file?_set hf _, hwf''⟩, fun j hj => (file?_set_of_ne _ hj _).trans (hothers j hj)⟩
  rcases hr with ⟨e, rfl⟩ | ⟨rfl, hall⟩
  · exact ⟨_, hwriting⟩
  · have hlen : k + n = k + (slice F k len).length := by
      rw [← hall, hn, length_slice hnle]
    rw [← hlen]
    refine ⟨?_, hwriting⟩
    unfold UploadWorld.putFile
    rw [UploadWorld.setTransfer_self]
    rw [← hlen] at hsync
    exact hsync

/-- Closing the handle flushes it: the file then holds what the transfer took. -/
theorem spec_closeFile (fh k : ℕ) :
    Spec F path shardId i alone (Writing F path alone fh k) (op (.closeFile fh))
      (fun _ t d => AllClosed t ∧ Sized path alone k t d) (fun _ _ => True) := by
  refine spec_op (steady_writing fh k) (fun _ => steady_allClosed.and (steady_sized k))
    (steady_const True) fun w ch r w' hg hw hexec hup => ?_
  obtain ⟨⟨f, hf, hwf⟩, hothers⟩ := hw
  obtain ⟨rfl, hr⟩ := UploadWorld.exec_closeFile hexec
  rw [afterFile_closeFile hf]
  have hflush : f.buf.take (ch.closing f) ≠ [] →
      (w.disk.data f.inode).length = (w.transfer i).base + f.pos := by
    intro hne
    rcases hup with ha | hup
    · exact hwf.exact ha
    · exact hup f hf hne
  obtain ⟨hwf', hgood, hgrow⟩ := hwf.flush hg.1 hflush
  refine ⟨fun j hj => UploadWorld.setTransfer_of_ne _ hj _, ⟨hgood, hg.2⟩, hgrow, ?_⟩
  rcases hr with ⟨e, rfl⟩ | ⟨rfl, hfault⟩
  · trivial
  · have hclosing : ch.closing f = f.buf.length := by
      rw [Choice.closing, hfault]
    have hpos : (w.transfer i).base + (f.pos + f.buf.length) = k := by
      rw [← Nat.add_assoc]
      exact hwf.upto
    have hreach := hwf'.reach
    have hexact := hwf'.exact
    rw [hclosing] at hreach hexact ⊢
    have htake : f.buf.take f.buf.length = f.buf := List.take_length
    refine ⟨fun j => ?_, f.inode, hwf'.named, ?_, fun ha => ?_⟩
    · unfold UploadWorld.dropFile
      rw [UploadWorld.setTransfer_self]
      by_cases hj : j = fh
      · subst hj
        exact file?_set hf none
      · exact (file?_set_of_ne _ hj _).trans (hothers j hj)
    · have h : (w.transfer i).base + (f.pos + (f.buf.take f.buf.length).length) ≤
          ((f.flush f.buf.length w.disk).1.data f.inode).length := hreach
      rw [htake, hpos] at h
      exact h
    · have h : ((f.flush f.buf.length w.disk).1.data f.inode).length =
          (w.transfer i).base + (f.pos + (f.buf.take f.buf.length).length) := hexact ha
      rw [htake, hpos] at h
      exact h

/-- Closing a closed handle does nothing. -/
theorem spec_closeFile_closed (fh : ℕ) :
    Spec F path shardId i alone (fun t _ => AllClosed t) (op (.closeFile fh))
      (fun _ t _ => AllClosed t) (fun _ _ => True) := by
  refine spec_look steady_allClosed (fun _ => steady_allClosed) (steady_const True)
    fun w ch r w' _ hw hexec => ?_
  obtain ⟨rfl, hr⟩ := UploadWorld.exec_closeFile hexec
  refine ⟨afterFile_closeFile_of_closed (hw fh), ?_⟩
  rcases hr with ⟨e, rfl⟩ | ⟨rfl, -⟩
  · trivial
  · exact hw

/-- **`done_uploading` with the whole content in the closed file.** -/
theorem spec_doneUploading :
    Spec F path shardId i alone (fun t d => AllClosed t ∧ Sized path alone F.length t d)
      (op (.doneUploading shardId)) (fun _ _ _ => True) (fun _ _ => True) := by
  refine spec_op (steady_allClosed.and (steady_sized _)) (fun _ => steady_const True)
    (steady_const True) fun w ch r w' hg hw hexec _ => ?_
  obtain ⟨hclosed, ino, hl, hle, -⟩ := hw
  obtain rfl := UploadWorld.exec_doneUploading hexec
  refine ⟨fun _ _ => rfl, ⟨hg.1, ?_⟩, DiskGrows.refl _ _, by cases r <;> trivial⟩
  intro call hcall
  rcases List.mem_cons.mp hcall with rfl | hcall
  · refine ⟨rfl, ?_, ?_⟩
    · show w.disk.content path = some F
      have hcontent := Disk.content_of_lookup hl
      have hprefix := hg.1 _ hcontent
      rw [hcontent, hprefix.eq_of_length_le hle]
    · show (w.transfer i).files.all Option.isNone = true
      rw [List.all_eq_true]
      intro x hx
      obtain ⟨j, hj, rfl⟩ := List.getElem_of_mem hx
      have hnone := hclosed j
      rw [file?, List.getElem?_eq_getElem hj, Option.join_some] at hnone
      rw [hnone]
      rfl
  · exact hg.2 call hcall

end Setting

end Upload
