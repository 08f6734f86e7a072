/-
# The files an upload touches

Uploads of several shards share the disk.  A transfer opens only the file of its own shard,
and no name but that one ever leads to the inodes of its handles.

* `UploadWorld.OwnHandle`, `UploadWorld.Owns` : the handles of a transfer are handles of its
  own file;
* `UploadWorld.Touches` : what an operation leaves alone;
* `UploadWorld.exec_touches` : one operation of a transfer touches nothing but its own file
  and its own handles;
* `UploadWorld.callsOf` : the world without the calls of the other transfers, in which the
  operations of the transfer turn out the same.
-/
import StorageNode.UploadReceive

open Transfer

theorem Disk.SameFile.grows {q : PyStr} {d d' : Disk} (h : Disk.SameFile q d d') :
    Upload.DiskGrows q d d' := by
  intro ino hino
  refine ⟨h.1.trans hino, ?_⟩
  rw [h.2 ino hino]

namespace UploadWorld

/-- A handle of the file `path`: no other name leads to its inode. -/
def OwnHandle (path : PyStr) (d : Disk) (f : OpenFile) : Prop :=
  f.inode < d.next ∧ ∀ q, d.lookup q = some f.inode → q = path

theorem OwnHandle.keeps {path : PyStr} {d d' : Disk} {f : OpenFile} (h : OwnHandle path d f)
    (hd : d.Keeps d') : OwnHandle path d' f :=
  ⟨h.1.trans_le hd.1, fun q hq => h.2 q (hd.2 q _ h.1 hq)⟩

theorem OwnHandle.inode {path : PyStr} {d : Disk} {f g : OpenFile} (h : OwnHandle path d f)
    (hg : g.inode = f.inode) : OwnHandle path d g := by
  unfold OwnHandle
  rw [hg]
  exact h

variable {ι : Type}

/-- The handles of transfer `i` are handles of `path`. -/
def Owns (path : PyStr) (i : ι) (w : UploadWorld ι) : Prop :=
  ∀ fh f, (w.transfer i).file? fh = some f → OwnHandle path w.disk f

/-- Transfer `i` has touched nothing but its own file and handles. -/
structure Touches (path : PyStr) (i : ι) (w w' : UploadWorld ι) : Prop where
  others : ∀ j, j ≠ i → w'.transfer j = w.transfer j
  keeps : w.disk.Keeps w'.disk
  same : ∀ q, q ≠ path → Disk.SameFile q w.disk w'.disk
  owns : w'.Owns path i

variable {path p : PyStr} {i : ι} {w w' : UploadWorld ι}

/-- Nothing happened to the disk and the handles. -/
theorem touches_of_files (howns : w.Owns path i) (hdisk : w'.disk = w.disk)
    (hothers : ∀ j, j ≠ i → w'.transfer j = w.transfer j)
    (hfiles : (w'.transfer i).files = (w.transfer i).files) : Touches path i w w' := by
  refine ⟨hothers, hdisk ▸ Disk.Keeps.refl _, fun q _ => hdisk ▸ Disk.SameFile.refl q _, ?_⟩
  intro fh f hf
  rw [hdisk]
  refine howns fh f ?_
  unfold file? at hf ⊢
  rwa [hfiles] at hf

variable [DecidableEq ι]

/-- Some of a handle's bytes reach the disk, and the handle is replaced or closed. -/
theorem touches_flush (howns : w.Owns path i) {fh n : ℕ} {f g : OpenFile}
    (hf : (w.transfer i).file? fh = some f) (hg : g.inode = f.inode) {x : Option OpenFile}
    (hx : ∀ f' ∈ x, f'.inode = f.inode) :
    Touches path i w ({ w with disk := (g.flush n w.disk).1 }.setTransfer i
      { w.transfer i with files := (w.transfer i).files.set fh x }) := by
  have hown : OwnHandle path w.disk f := howns fh f hf
  have hkeeps : w.disk.Keeps (g.flush n w.disk).1 := Disk.keeps_setData _ _ _
  refine ⟨fun j hj => setTransfer_of_ne _ hj _, hkeeps, fun q hq => ?_, ?_⟩
  · refine Disk.sameFile_setData (fun hlookup => hq (hown.2 q ?_)) _
    rw [hlookup, hg]
  · intro fh' f' hf'
    rw [setTransfer_self] at hf'
    by_cases hfh : fh' = fh
    · subst hfh
      rw [Upload.file?_set hf] at hf'
      exact (hown.inode (hx f' hf')).keeps hkeeps
    · rw [Upload.file?_set_of_ne _ hfh] at hf'
      exact (howns fh' f' hf').keeps hkeeps

/-- A write or a close, whether it fails or not. -/
theorem touches_afterFile (howns : w.Owns path i) (c : Choice) (o : NodeOp) :
    Touches path i w (w.afterFile i c o) := by
  have hsame : Touches path i w w := touches_of_files howns rfl (fun _ _ => rfl) rfl
  cases o with
  | write fh b =>
      simp only [afterFile]
      split
      · next f hf =>
          refine touches_flush (g := f.write (c.taken b)) howns hf rfl fun f' hf' => ?_
          rw [← Option.some.inj hf']
          rfl
      · exact hsame
  | closeFile fh =>
      simp only [afterFile]
      split
      · next f hf => exact touches_flush howns hf rfl fun f' hf' => absurd hf' (by simp)
      · exact hsame
  | _ => exact hsame

/-- A new handle of the own file. -/
theorem touches_openFile (howns : w.Owns path i) {m : FileMode} {d : Disk} {f : OpenFile}
    (ho : w.disk.openFile path m = some (d, f)) :
    Touches path i w ({ w with disk := d }.setTransfer i
      { w.transfer i with files := (w.transfer i).files ++ [some f] }) := by
  obtain ⟨hkeeps, hsame, hown⟩ : w.disk.Keeps d ∧ (∀ q, q ≠ path → Disk.SameFile q w.disk d) ∧
      OwnHandle path d f := by
    unfold Disk.openFile at ho
    split at ho
    · next ino hino =>
        have hnamed : OwnHandle path w.disk { inode := ino, mode := m, pos := 0, buf := [] } :=
          ⟨w.disk.lookup_lt_next hino, fun q hq => w.disk.lookup_injective hq hino⟩
        split at ho
        · simp only [Option.some.injEq, Prod.mk.injEq] at ho
          obtain ⟨rfl, rfl⟩ := ho
          refine ⟨Disk.keeps_setData _ _ _, fun q hq => ?_, hnamed.keeps (Disk.keeps_setData _ _ _)⟩
          exact Disk.sameFile_setData (fun hlookup => hq (w.disk.lookup_injective hlookup hino)) _
        · simp only [Option.some.injEq, Prod.mk.injEq] at ho
          obtain ⟨rfl, rfl⟩ := ho
          exact ⟨Disk.Keeps.refl _, fun q _ => Disk.SameFile.refl q _, hnamed⟩
    · next hnone =>
        split at ho
        · exact absurd ho (by simp)
        · simp only [Option.some.injEq, Prod.mk.injEq] at ho
          obtain ⟨rfl, rfl⟩ := ho
          refine ⟨Disk.keeps_create hnone, fun q hq => Disk.sameFile_create hnone hq,
            Nat.lt_succ_self _, fun q hq => ?_⟩
          exact (w.disk.create path hnone).lookup_injective hq
            (Disk.lookup_create_self _ _ hnone)
  refine ⟨fun j hj => setTransfer_of_ne _ hj _, hkeeps, hsame, fun fh f' hf' => ?_⟩
  rw [setTransfer_self] at hf'
  by_cases hfh : fh = (w.transfer i).files.length
  · subst hfh
    rw [Upload.file?_append, Option.some.injEq] at hf'
    exact hf' ▸ hown
  · rw [Upload.file?_append_of_ne _ _ hfh] at hf'
    exact (howns fh f' hf').keeps hkeeps

/-- **One operation** of a transfer that opens only its own file. -/
theorem exec_touches {o : NodeOp} {c : Choice} {r : Except Exn o.Res} (howns : w.Owns path i)
    (ho : ∀ q m, o = .openFile q m → q = path) (h : w.exec p i o c = some (r, w')) :
    Touches path i w w' := by
  have hsame : Touches path i w w := touches_of_files howns rfl (fun _ _ => rfl) rfl
  rcases exec_cases h with ⟨e, -, -, -, rfl⟩ | ⟨-, hp⟩
  · by_cases hdone : ∃ id, o = .doneUploading id
    · obtain ⟨id, rfl⟩ := hdone
      exact touches_of_files howns rfl (fun _ _ => rfl) rfl
    · rw [afterFault_of_ne fun id hid => hdone ⟨id, hid⟩]
      exact touches_afterFile howns c o
  unfold perform at hp
  split at hp
  · simp only [Option.some.injEq, Prod.mk.injEq] at hp
    exact hp.2 ▸ hsame
  · split at hp
    · next r' t hl =>
        simp only [Option.some.injEq, Prod.mk.injEq] at hp
        rw [← hp.2]
        refine touches_of_files howns rfl (fun j hj => setTransfer_of_ne _ hj _) ?_
        rw [setTransfer_self]
        exact Upload.performLink_files hl
    · split at hp
      · simp only [Option.some.injEq, Prod.mk.injEq] at hp
        rw [← hp.2]
        exact touches_of_files howns rfl (fun _ _ => rfl) rfl
      · cases o with
        | isFile q =>
            simp only [performFile, Option.some.injEq, Prod.mk.injEq] at hp
            exact hp.2 ▸ hsame
        | getSize q =>
            obtain ⟨b, -, hb⟩ := Option.map_eq_some_iff.mp hp
            exact (Prod.mk.inj hb).2 ▸ hsame
        | openFile q m =>
            obtain rfl := ho q m rfl
            obtain ⟨df, hdf, hw⟩ := Option.map_eq_some_iff.mp hp
            rw [← (Prod.mk.inj hw).2]
            exact touches_openFile howns hdf
        | write fh b =>
            simp only [performFile, Option.some.injEq, Prod.mk.injEq] at hp
            exact hp.2 ▸ touches_afterFile howns c _
        | closeFile fh =>
            simp only [performFile, Option.some.injEq, Prod.mk.injEq] at hp
            exact hp.2 ▸ touches_afterFile howns c _
        | _ => exact absurd hp (by simp [performFile])

/-! ## The calls of one transfer -/

/-- The world with the calls of transfer `i` alone. -/
def callsOf (w : UploadWorld ι) (i : ι) : UploadWorld ι :=
  { w with done := w.done.filter fun call => decide (call.transfer = i) }

@[simp] theorem transfer_callsOf (w : UploadWorld ι) (i : ι) :
    (w.callsOf i).transfer = w.transfer := rfl

theorem afterFile_callsOf (w : UploadWorld ι) (i : ι) (c : Choice) (o : NodeOp) :
    (w.callsOf i).afterFile i c o = (w.afterFile i c o).callsOf i := by
  cases o with
  | write fh b =>
      simp only [afterFile, transfer_callsOf]
      cases (w.transfer i).file? fh <;> rfl
  | closeFile fh =>
      simp only [afterFile, transfer_callsOf]
      cases (w.transfer i).file? fh <;> rfl
  | _ => rfl

theorem performFile_callsOf {o : NodeOp} {c : Choice} {r : Except Exn o.Res}
    (h : w.performFile i c o = some (r, w')) :
    (w.callsOf i).performFile i c o = some (r, w'.callsOf i) := by
  cases o with
  | isFile q =>
      simp only [performFile, Option.some.injEq, Prod.mk.injEq] at h
      rw [← h.1, ← h.2]
      rfl
  | getSize q =>
      obtain ⟨b, hb, hw⟩ := Option.map_eq_some_iff.mp h
      rw [← (Prod.mk.inj hw).1, ← (Prod.mk.inj hw).2]
      exact Option.map_eq_some_iff.mpr ⟨b, hb, rfl⟩
  | openFile q m =>
      obtain ⟨df, hdf, hw⟩ := Option.map_eq_some_iff.mp h
      rw [← (Prod.mk.inj hw).1, ← (Prod.mk.inj hw).2]
      exact Option.map_eq_some_iff.mpr ⟨df, hdf, rfl⟩
  | write fh b =>
      simp only [performFile, Option.some.injEq, Prod.mk.injEq] at h
      rw [← h.1, ← h.2, ← afterFile_callsOf]
      rfl
  | closeFile fh =>
      simp only [performFile, Option.some.injEq, Prod.mk.injEq] at h
      rw [← h.1, ← h.2, ← afterFile_callsOf]
      rfl
  | _ => exact absurd h (by simp [performFile])

theorem perform_callsOf {o : NodeOp} {c : Choice} {r : Except Exn o.Res}
    (h : w.perform p i o c = some (r, w')) :
    (w.callsOf i).perform p i o c = some (r, w'.callsOf i) := by
  unfold perform at h ⊢
  split at h
  · simp only [Option.some.injEq, Prod.mk.injEq] at h
    rw [← h.1, ← h.2]
  · rw [transfer_callsOf]
    split at h
    · next r' t hl =>
        simp only [Option.some.injEq, Prod.mk.injEq] at h
        rw [← h.1, ← h.2]
        rfl
    · next hl =>
        split at h
        · simp only [Option.some.injEq, Prod.mk.injEq] at h
          rw [← h.1, ← h.2]
          simp [report, callsOf]
        · cases o <;> exact performFile_callsOf h

theorem afterFault_callsOf (w : UploadWorld ι) (p : PyStr) (i : ι) (c : Choice) (o : NodeOp) :
    (w.callsOf i).afterFault p i c o = (w.afterFault p i c o).callsOf i := by
  by_cases hdone : ∃ id, o = .doneUploading id
  · obtain ⟨id, rfl⟩ := hdone
    simp [afterFault, report, callsOf]
  · rw [afterFault_of_ne fun id hid => hdone ⟨id, hid⟩,
      afterFault_of_ne fun id hid => hdone ⟨id, hid⟩, afterFile_callsOf]

/-- An operation of the transfer turns out as it does without the calls of the others. -/
theorem exec_callsOf {o : NodeOp} {c : Choice} {r : Except Exn o.Res}
    (h : w.exec p i o c = some (r, w')) : (w.callsOf i).exec p i o c = some (r, w'.callsOf i) := by
  rcases exec_cases h with ⟨e, hfault, hmay, rfl, rfl⟩ | ⟨hfault, hp⟩
  · simp only [exec, hfault, hmay, if_true, afterFault_callsOf]
  · simp only [exec, hfault]
    exact perform_callsOf hp

/-- The calls of another transfer stay. -/
theorem exec_callsOf_of_ne {o : NodeOp} {c : Choice} {r : Except Exn o.Res} {j : ι} (hj : j ≠ i)
    (h : w.exec p i o c = some (r, w')) : (w'.callsOf j).done = (w.callsOf j).done := by
  by_cases ho : ∃ id, o = .doneUploading id
  · obtain ⟨id, rfl⟩ := ho
    obtain rfl := exec_doneUploading h
    simp [report, callsOf, hj.symm]
  · have hsame : w'.done = w.done := exec_done (fun id hid => ho ⟨id, hid⟩) h
    show w'.done.filter _ = w.done.filter _
    rw [hsame]

end UploadWorld
