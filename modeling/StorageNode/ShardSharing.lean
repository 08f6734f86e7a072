/-
# An upload and the downloads of its shard

One upload of `F` and any number of fresh downloads of the same shard share the data
directory.  The sender takes the end of the file for the end of the shard, so END is about
the file as it was when a read found its end.

* `SharedShard` : the upload, the downloads, and what their reads found at the end;
* `SharedShard.sharing` : the threads of the transfers, the uploader and the downloaders;
* `shared_wp` : each transfer in its own setting, along every run;
* `end_means_end_of_file` : a download that has received END delivered what the file held
  when one of its reads found the end;
* `partial_shard_ends` : a download of a shard whose upload is still running.
-/
import StorageNode.UploadIntegrity
import StorageNode.DownloadIntegrity

/-- A read that found the end of the shard file: what the file held, and whether
`done_uploading` had been called. -/
structure EndRead where
  content : Bytes
  uploaded : Bool
  deriving DecidableEq

/-- The upload with the disk, the downloads, whose own disks are of no account, and the
history of the reads that found the end of the file. -/
structure SharedShard where
  upload : UploadWorld Unit
  down : ℕ → DownloadWorld
  ends : ℕ → List EndRead

namespace SharedShard

/-- The surroundings of download `j`. -/
def download (j : ℕ) (w : SharedShard) : DownloadWorld := { w.down j with disk := w.upload.disk }

/-- The surroundings of download `j` are now `d`. -/
def setDownload (j : ℕ) (d : DownloadWorld) (w : SharedShard) : SharedShard :=
  { w with upload := { w.upload with disk := d.disk }, down := Function.update w.down j d }

/-- The history after an operation of download `j`. -/
def record (path : PyStr) (j : ℕ) (o : NodeOp) (c : Choice) (w : SharedShard) : ℕ → List EndRead :=
  if (w.download j).findsEnd o c then
    Function.update w.ends j
      (w.ends j ++ [{ content := w.upload.disk.held path, uploaded := !w.upload.done.isEmpty }])
  else w.ends

/-- The operations of the upload, for `none`, and of the downloads. -/
def exec (path : PyStr) (i : Option ℕ) (o : NodeOp) (c : Choice) (w : SharedShard) :
    Option (Except Exn o.Res × SharedShard) :=
  match i with
  | none => (w.upload.exec path () o c).map fun ru => (ru.1, { w with upload := ru.2 })
  | some j =>
      ((w.download j).exec o c).map fun rd =>
        (rd.1, { w.setDownload j rd.2 with ends := w.record path j o c })

/-- The uploader moves, or the downloader of download `j` does. -/
def move (F : Bytes) (m : UploaderMove ⊕ (ℕ × DownloaderMove)) (w : SharedShard) :
    Option SharedShard :=
  match m with
  | .inl m => (w.upload.peerMove F () m).map fun u => { w with upload := u }
  | .inr (j, m) => ((w.download j).move m).map fun d => w.setDownload j d

/-- **The upload of `F` and the downloads**, at the shard file `path`. -/
def sharing (F : Bytes) (path : PyStr) :
    Pool (Option ℕ) NodeOp NodeOp.Res Exn Choice (UploaderMove ⊕ (ℕ × DownloaderMove))
      SharedShard where
  exec i o c w := w.exec path i o c
  env m w := w.move F m

/-- The programs of the transfers. -/
def programs (cfg : Config) (fuel : ℕ) (upload : Dict) (download : ℕ → Dict) :
    Option ℕ → Node Unit
  | none => FragmentReceiver.receiveData cfg fuel upload
  | some j => FragmentSender.sendData cfg fuel (download j) true

/-- The world in which they start. -/
def start (d : Disk) : SharedShard :=
  { upload := UploadWorld.start d, down := fun _ => DownloadWorld.start d [] true,
    ends := fun _ => [] }

@[simp] theorem download_setDownload (j : ℕ) (d : DownloadWorld) (w : SharedShard) :
    (w.setDownload j d).download j = d := by
  simp [setDownload, download]

/-- The history only gets longer. -/
theorem mem_record {path : PyStr} {j k : ℕ} {o : NodeOp} {c : Choice} {w : SharedShard}
    {e : EndRead} (h : e ∈ w.ends k) : e ∈ w.record path j o c k := by
  unfold record
  split
  · by_cases hk : k = j
    · subst hk
      rw [Function.update_self]
      exact List.mem_append_left _ h
    · rw [Function.update_of_ne hk]
      exact h
  · exact h

theorem mem_record_self {path : PyStr} {j : ℕ} {o : NodeOp} {c : Choice} {w : SharedShard}
    (h : (w.download j).findsEnd o c = true) :
    { content := w.upload.disk.held path, uploaded := !w.upload.done.isEmpty } ∈
      w.record path j o c j := by
  rw [record, if_pos h, Function.update_self]
  exact List.mem_append_right _ List.mem_cons_self

end SharedShard

namespace Download

open Setting Upload SharedShard

section Sharing

variable {F : Bytes} {path : PyStr} {shardId : Json} {P : ℕ → Bytes → Prop}

/-! ## The settings of the transfers -/

variable (F path shardId P) in
/-- **The setting of each transfer.**  The upload leaves the downloads alone; a download
leaves the upload, the disk and the other downloads alone. -/
def sharedSetting : Option ℕ → Setting NodeOp NodeOp.Res Exn SharedShard
  | none =>
      (uploadSetting F path shardId () True).along (fun w => w.upload)
        fun w w' => w'.down = w.down
  | some j =>
      (servingSetting path (fun _ => True) (P j)).along (fun w => w.download j)
        fun w w' => w'.upload.transfer = w.upload.transfer ∧ w'.upload.done = w.upload.done ∧
          ∀ k, k ≠ j → w'.down k = w.down k

theorem download_of_frame {j k : ℕ} {w w' : SharedShard} (hdown : w'.down k = w.down k)
    (hdisk : (w'.download j).disk = (w.download j).disk) : w'.download k = w.download k := by
  have hdisk : w'.upload.disk = w.upload.disk := hdisk
  rw [download, download, hdown, hdisk]

/-- What a transfer does is something the others expect. -/
theorem shared_guar (i j : Option ℕ) (w w' : SharedShard) (hj : j ≠ i)
    (hg : (sharedSetting F path shardId P i).guar w w') :
    (sharedSetting F path shardId P j).env w w' := by
  cases i with
  | none =>
      cases j with
      | none => exact absurd rfl hj
      | some j =>
          obtain ⟨⟨-, -, hgrow⟩, hdown⟩ := hg
          refine .single (Or.inr ⟨w'.upload.disk, ?_, hgrow, fun h => h⟩)
          show w'.download j = { w.download j with disk := w'.upload.disk }
          rw [download, download, hdown]
  | some i =>
      obtain ⟨hdisk, htransfer, hdone, hdown⟩ := hg
      cases j with
      | none =>
          have hdisk : w'.upload.disk = w.upload.disk := hdisk
          have hupload : w'.upload = w.upload := by
            cases hu : w'.upload
            cases hv : w.upload
            simp_all
          exact drift_of_eq hupload
      | some j =>
          have hsame : w'.download j = w.download j :=
            download_of_frame (hdown j fun h => hj (congrArg some h)) hdisk
          exact drift_of_eq hsame

/-- So is what the uploader and the downloaders do. -/
theorem shared_env (i : Option ℕ) (m : UploaderMove ⊕ (ℕ × DownloaderMove)) (w w' : SharedShard)
    (h : w.move F m = some w') : (sharedSetting F path shardId P i).env w w' := by
  cases m with
  | inl m =>
      obtain ⟨u, hu, rfl⟩ := Option.map_eq_some_iff.mp h
      cases i with
      | none => exact .single (Or.inl ⟨(), m, hu⟩)
      | some j =>
          have hdisk : u.disk = w.upload.disk := by
            obtain ⟨t, -, rfl⟩ := Option.map_eq_some_iff.mp hu
            rfl
          have hsame : ({ w with upload := u } : SharedShard).download j = w.download j := by
            show ({ w.down j with disk := u.disk } : DownloadWorld) = _
            rw [hdisk, download]
          exact drift_of_eq hsame
  | inr jm =>
      obtain ⟨j, m⟩ := jm
      obtain ⟨d, hd, rfl⟩ := Option.map_eq_some_iff.mp h
      have hdisk : d.disk = w.upload.disk := (DownloadWorld.move_frame hd).1
      cases i with
      | none =>
          have hsame : (w.setDownload j d).upload = w.upload := by
            rw [setDownload, hdisk]
          exact drift_of_eq hsame
      | some k =>
          by_cases hk : k = j
          · subst hk
            show Setting.Drift _ (w.download k) ((w.setDownload k d).download k)
            rw [download_setDownload]
            exact .single (Or.inl ⟨m, hd⟩)
          · have hsame : (w.setDownload j d).download k = w.download k := by
              simp [setDownload, download, Function.update_of_ne hk, hdisk]
            exact drift_of_eq hsame

/-- The operations of the transfers are those of their settings, when `P` holds of the
contents that the reads of the downloads find the end of. -/
theorem shared_exec {meets : Pool.Condition (Option ℕ) NodeOp Choice SharedShard}
    (hP : ∀ j o c w r w', meets (some j) o c w → w.exec path (some j) o c = some (r, w') →
      (w.download j).findsEnd o c = true → P j (w.upload.disk.held path))
    (i : Option ℕ) (o : NodeOp) (c : Choice) (w : SharedShard) (r : Except Exn o.Res)
    (w' : SharedShard) (hmeets : meets i o c w) (h : w.exec path i o c = some (r, w')) :
    (sharedSetting F path shardId P i).exec o w r w' := by
  cases i with
  | none =>
      obtain ⟨⟨r', u⟩, hu, heq⟩ := Option.map_eq_some_iff.mp h
      simp only [Prod.mk.injEq] at heq
      obtain ⟨rfl, rfl⟩ := heq
      exact ⟨⟨c, hu, Or.inl trivial⟩, rfl⟩
  | some j =>
      have hends := hP j o c w r w' hmeets h
      obtain ⟨⟨r', d⟩, hd, heq⟩ := Option.map_eq_some_iff.mp h
      simp only [Prod.mk.injEq] at heq
      obtain ⟨rfl, rfl⟩ := heq
      refine ⟨⟨c, ?_, fun _ => hends⟩, rfl, rfl, fun k hk => Function.update_of_ne hk _ _⟩
      have hself := download_setDownload j d w
      show (w.download j).exec o c = some (r', (w.setDownload j d).download j)
      rw [hself]
      exact hd

/-- **Each transfer in its own setting**, along every run. -/
theorem shared_wp {meets : Pool.Condition (Option ℕ) NodeOp Choice SharedShard}
    (hP : ∀ j o c w r w', meets (some j) o c w → w.exec path (some j) o c = some (r, w') →
      (w.download j).findsEnd o c = true → P j (w.upload.disk.held path))
    {cfg : Config} (hchunk : 0 < cfg.chunkSize) {fuel : ℕ} {upload : Dict} {download : ℕ → Dict}
    (hupload : upload.getItem "shard_id" = .ok shardId)
    (hdownload : ∀ j, (download j).getItem "shard_id" = .ok shardId)
    (hpath : joinPath cfg.dataDirectory shardId = .ok path) {d : Disk}
    (hfile : ∀ b, d.content path = some b → b <+: F)
    {s : Pool.Conf (Option ℕ) NodeOp NodeOp.Res Exn SharedShard Unit}
    (hrun : (sharing F path).Reaches meets (programs cfg fuel upload download, SharedShard.start d) s)
    (i : Option ℕ) : (sharedSetting F path shardId P i).wp (s.1 i) (fun _ _ => True) s.2 := by
  refine Pool.wp_reaches (Q := fun _ _ _ => True) _ _ (sharedSetting F path shardId P)
    (shared_exec hP) shared_guar shared_env hrun (fun i => ?_) i
  cases i with
  | none =>
      have hspec : Upload.Spec F path shardId () True (fun t _ => AllClosed t)
          (FragmentReceiver.receiveData cfg fuel upload) (fun _ _ _ => True) (fun _ _ => True) :=
        spec_receiveData cfg fuel upload hupload hpath
      refine wp_mono (fun _ _ _ => trivial) (wp_along (hspec _ ⟨⟨hfile, ?_⟩, fun j => ?_⟩))
      · exact fun call hcall => absurd hcall List.not_mem_nil
      · simp [SharedShard.start, UploadWorld.start, Transfer.file?]
  | some j =>
      have hspec := spec_sendData (K := fun _ => True) (P := P j) cfg hchunk fuel (download j) true
        shardId (hdownload j) hpath (fun _ => rfl)
      refine wp_mono (fun _ _ _ => trivial) (wp_along (hspec _ ⟨trivial, ⟨⟨?_, rfl⟩, rfl⟩, trivial⟩))
      exact ⟨rfl, Nat.zero_le _, rfl⟩

/-! ## What the reads found -/

variable (F path) in
/-- **The invariant.**  After `done_uploading` the file holds all of `F`; a read that found
the end did so in a beginning of `F`, and in all of it after `done_uploading`. -/
structure Told (w : SharedShard) : Prop where
  whole : w.upload.done ≠ [] → w.upload.disk.held path = F
  ends : ∀ j, ∀ e ∈ w.ends j, e.content <+: F ∧ (e.uploaded = true → e.content = F)

theorem held_startsFile {w : UploadWorld Unit} (h : Good F path shardId w) :
    w.disk.held path <+: F := by
  cases hc : w.disk.content path with
  | none =>
      rw [Disk.held, hc]
      exact List.nil_prefix
  | some b =>
      rw [Disk.held, hc]
      exact h.1 b hc

theorem held_of_done {w : UploadWorld Unit} {id : Json} {c : Choice} {w' : UploadWorld Unit}
    {r : Except Exn Unit} (h : w.exec path () (.doneUploading id) c = some (r, w'))
    (hgood : Good F path shardId w') : w'.disk.held path = F := by
  obtain rfl := UploadWorld.exec_doneUploading h
  have hcall : w.disk.content path = some F := (hgood.2 _ List.mem_cons_self).2.1
  show (w.disk.content path).getD [] = F
  rw [hcall]
  rfl

/-- The operations of the upload keep it. -/
theorem Told.upload {o : NodeOp} {c : Choice} {w : SharedShard} {u : UploadWorld Unit}
    {r : Except Exn o.Res} (h : Told F path w) (hu : w.upload.exec path () o c = some (r, u))
    (hgood : Good F path shardId u) (hgrow : DiskGrows path w.upload.disk u.disk) :
    Told F path { w with upload := u } := by
  refine ⟨fun hdone => ?_, h.ends⟩
  by_cases ho : ∃ id, o = .doneUploading id
  · obtain ⟨id, rfl⟩ := ho
    exact held_of_done hu hgood
  · have hsame := UploadWorld.exec_done (fun id hid => ho ⟨id, hid⟩) hu
    have hdone : u.done ≠ [] := hdone
    have hwhole := h.whole (hsame ▸ hdone)
    refine (held_startsFile hgood).eq_of_length_le ?_
    rw [← hwhole]
    exact (held_grows hgrow).length_le

/-- The operations of a download keep it. -/
theorem Told.download {j : ℕ} {o : NodeOp} {c : Choice} {w : SharedShard} {d : DownloadWorld}
    (h : Told F path w) (hdisk : d.disk = w.upload.disk) (hgood : Good F path shardId w.upload) :
    Told F path { w.setDownload j d with ends := w.record path j o c } := by
  refine ⟨fun hdone => ?_, fun k e he => ?_⟩
  · show d.disk.held path = F
    rw [hdisk]
    exact h.whole hdone
  · have he : e ∈ w.record path j o c k := he
    unfold SharedShard.record at he
    split at he
    · by_cases hk : k = j
      · subst hk
        rw [Function.update_self] at he
        rcases List.mem_append.mp he with he | he
        · exact h.ends k e he
        · rw [List.mem_singleton.mp he]
          refine ⟨held_startsFile hgood, fun hup => h.whole fun hnil => ?_⟩
          rw [hnil] at hup
          exact absurd hup (by simp)
      · rw [Function.update_of_ne hk] at he
        exact h.ends k e he
    · exact h.ends k e he

/-- The moves of the peers keep it. -/
theorem Told.move {m : UploaderMove ⊕ (ℕ × DownloaderMove)} {w w' : SharedShard}
    (h : Told F path w) (hm : w.move F m = some w') : Told F path w' := by
  cases m with
  | inl m =>
      obtain ⟨u, hu, rfl⟩ := Option.map_eq_some_iff.mp hm
      obtain ⟨t, -, rfl⟩ := Option.map_eq_some_iff.mp hu
      exact ⟨h.whole, h.ends⟩
  | inr jm =>
      obtain ⟨j, m⟩ := jm
      obtain ⟨d, hd, rfl⟩ := Option.map_eq_some_iff.mp hm
      refine ⟨fun hdone => ?_, h.ends⟩
      show d.disk.held path = F
      rw [(DownloadWorld.move_frame hd).1]
      exact h.whole hdone

/-- The reads recorded so far. -/
def history (w : SharedShard) (j : ℕ) : Set EndRead := {e | e ∈ w.ends j}

theorem history_exec {i : Option ℕ} {o : NodeOp} {c : Choice} {w w' : SharedShard}
    {r : Except Exn o.Res} (h : w.exec path i o c = some (r, w')) : history w ≤ history w' := by
  cases i with
  | none =>
      obtain ⟨⟨r', u⟩, hu, heq⟩ := Option.map_eq_some_iff.mp h
      simp only [Prod.mk.injEq] at heq
      obtain ⟨rfl, rfl⟩ := heq
      exact le_rfl
  | some j =>
      obtain ⟨⟨r', d⟩, hd, heq⟩ := Option.map_eq_some_iff.mp h
      simp only [Prod.mk.injEq] at heq
      obtain ⟨rfl, rfl⟩ := heq
      exact fun k e he => mem_record he

theorem history_move {m : UploaderMove ⊕ (ℕ × DownloaderMove)} {w w' : SharedShard}
    (h : w.move F m = some w') : history w ≤ history w' := by
  cases m with
  | inl m =>
      obtain ⟨u, -, rfl⟩ := Option.map_eq_some_iff.mp h
      exact le_rfl
  | inr jm =>
      obtain ⟨d, -, rfl⟩ := Option.map_eq_some_iff.mp h
      exact le_rfl

/-- A read that finds the end is recorded. -/
theorem exec_records {j : ℕ} {o : NodeOp} {c : Choice} {w w' : SharedShard}
    {r : Except Exn o.Res} (h : w.exec path (some j) o c = some (r, w'))
    (hfinds : (w.download j).findsEnd o c = true) :
    { content := w.upload.disk.held path, uploaded := !w.upload.done.isEmpty } ∈ w'.ends j := by
  obtain ⟨⟨r', d⟩, hd, heq⟩ := Option.map_eq_some_iff.mp h
  simp only [Prod.mk.injEq] at heq
  obtain ⟨rfl, rfl⟩ := heq
  exact mem_record_self hfinds

/-- **The invariant along every run.** -/
theorem told_reaches {cfg : Config} (hchunk : 0 < cfg.chunkSize) {fuel : ℕ} {upload : Dict}
    {download : ℕ → Dict} (hupload : upload.getItem "shard_id" = .ok shardId)
    (hdownload : ∀ j, (download j).getItem "shard_id" = .ok shardId)
    (hpath : joinPath cfg.dataDirectory shardId = .ok path) {d : Disk}
    (hfile : ∀ b, d.content path = some b → b <+: F)
    {s : Pool.Conf (Option ℕ) NodeOp NodeOp.Res Exn SharedShard Unit}
    (hrun : (sharing F path).Reaches Pool.always
      (programs cfg fuel upload download, SharedShard.start d) s) : Told F path s.2 := by
  induction hrun with
  | refl =>
      refine ⟨fun hdone => absurd rfl hdone, fun j e he => ?_⟩
      exact absurd he List.not_mem_nil
  | tail hprev hstep ih =>
      have hwp := shared_wp (P := fun _ _ => True) (fun _ _ _ _ _ _ _ _ _ => trivial) hchunk
        hupload hdownload hpath hfile hprev
      cases hstep with
      | env hm => exact ih.move hm
      | @call ps w w' i o k c r hp hmeets he =>
          have hcall := hwp i
          rw [show (ps, w).1 i = .call o k from hp] at hcall
          have hexec : (sharedSetting F path shardId (fun _ _ => True) i).exec o w r w' :=
            shared_exec (fun _ _ _ _ _ _ _ _ _ => trivial) i o c w r w' hmeets he
          have hguar := (wp_call hcall hexec).1
          cases i with
          | none =>
              obtain ⟨⟨r', u⟩, hu, heq⟩ := Option.map_eq_some_iff.mp he
              simp only [Prod.mk.injEq] at heq
              obtain ⟨rfl, rfl⟩ := heq
              exact ih.upload hu hguar.1.2.1 hguar.1.2.2
          | some j =>
              obtain ⟨⟨r', d⟩, hd, heq⟩ := Option.map_eq_some_iff.mp he
              simp only [Prod.mk.injEq] at heq
              obtain ⟨rfl, rfl⟩ := heq
              exact ih.download hguar.1 (wp_inv (hwp none))

end Sharing

/-! ## Runs -/

/-- **END means the end of the file.**  One upload of `F`, with a fault at any operation and
from any beginning of `F` that an earlier one left, next to any number of fresh downloads of
the shard: a download that has received END delivered exactly what the file held when one of
its reads found the end.  That is a beginning of `F`, and `F` itself if `done_uploading` had
been called by then. -/
theorem end_means_end_of_file (F : Bytes) (cfg : Config) (hchunk : 0 < cfg.chunkSize) (fuel : ℕ)
    (upload : Dict) (download : ℕ → Dict) (shardId : PyStr) (d : Disk)
    (hupload : upload.getItem "shard_id" = .ok (.str shardId))
    (hdownload : ∀ j, (download j).getItem "shard_id" = .ok (.str shardId))
    (hfile : ∀ b, d.content (osPathJoin cfg.dataDirectory shardId) = some b → b <+: F)
    {s : Pool.Conf (Option ℕ) NodeOp NodeOp.Res Exn SharedShard Unit}
    (hrun : (sharing F (osPathJoin cfg.dataDirectory shardId)).Reaches Pool.always
      (programs cfg fuel upload download, SharedShard.start d) s) (j : ℕ)
    (hended : (s.2.down j).peer.ended = true) :
    ∃ e ∈ s.2.ends j, (s.2.down j).peer.buf = e.content ∧ e.content <+: F ∧
      (e.uploaded = true → e.content = F) := by
  have htold : Told F (osPathJoin cfg.dataDirectory shardId) s.2 :=
    told_reaches hchunk hupload hdownload rfl hfile hrun
  -- what the steps recorded is still in the history at the end
  have hupto := Pool.reaches_upto _ _ (fun _ _ _ _ _ _ he => history_exec he)
    (fun _ _ _ he => history_move he) hrun
  have hwp := shared_wp (P := fun j b => ∃ e ∈ s.2.ends j, e.content = b)
    (fun j o c w r w' hmeets he hfinds =>
      ⟨_, hmeets.2 r w' he j (exec_records he hfinds), rfl⟩)
    hchunk hupload hdownload rfl hfile hupto (some j)
  obtain ⟨-, -, hend⟩ := wp_inv hwp
  obtain ⟨e, he, hbuf⟩ := hend hended
  exact ⟨e, he, hbuf.symm, htold.ends j e he⟩

/-- The request of every download. -/
def sampleDownload (_ : ℕ) : Dict := sampleRequest

/-- An event of a run. -/
abbrev SharingEvent := Pool.Event (Option ℕ) Choice (UploaderMove ⊕ (ℕ × DownloaderMove))

/-- The upload of two bytes up to the first one, which is in the buffer of the file. -/
def firstByte : List SharingEvent :=
  let node : SharingEvent := .thread none {}
  let peer (m : UploaderMove) : SharingEvent := .env (.inl m)
  List.replicate 8 node ++ [peer .take, peer .start, peer (.slice 1)] ++ List.replicate 4 node

/-- The rest of the upload, with the call of `done_uploading`. -/
def secondByte : List SharingEvent :=
  let node : SharingEvent := .thread none {}
  let peer (m : UploaderMove) : SharingEvent := .env (.inl m)
  [peer .take, peer (.slice 1)] ++ List.replicate 4 node ++ [peer .take, peer .finish] ++
    List.replicate 6 node

/-- A download of one chunk, up to END. -/
def wholeDownload : List SharingEvent :=
  let node : SharingEvent := .thread (some 0) {}
  let peer (m : DownloaderMove) : SharingEvent := .env (.inr (0, m))
  List.replicate 9 node ++ [peer .take, peer .take, peer .answer] ++ List.replicate 5 node ++
    [peer .take]

/-- A download of an empty file, up to END. -/
def emptyDownload : List SharingEvent :=
  let peer (m : DownloaderMove) : SharingEvent := .env (.inr (0, m))
  List.replicate 10 (.thread (some 0) {}) ++ [peer .take, peer .take]

/-- The download after the upload. -/
theorem end_means_end_of_file_uploaded :
    ∃ s : Pool.Conf (Option ℕ) NodeOp NodeOp.Res Exn SharedShard Unit,
      (sharing [1, 2] (osPathJoin "Data" "s")).Reaches Pool.always
        (programs { chunkSize := 2 } 5 Upload.sampleRequest sampleDownload,
          SharedShard.start .empty) s ∧
      (s.2.down 0).peer.ended = true ∧
      ∃ e ∈ s.2.ends 0, (s.2.down 0).peer.buf = e.content ∧ e.content <+: [1, 2] ∧
        (e.uploaded = true → e.content = [1, 2]) := by
  obtain ⟨s, hrun, hended⟩ := Pool.exists_of_run (sharing [1, 2] (osPathJoin "Data" "s"))
    Pool.always
    (programs { chunkSize := 2 } 5 Upload.sampleRequest sampleDownload, SharedShard.start .empty)
    (firstByte ++ secondByte ++ wholeDownload) (fun s => (s.2.down 0).peer.ended)
    (by decide +kernel)
  have hfile : ∀ b, Disk.empty.content (osPathJoin "Data" "s") = some b → b <+: [1, 2] := by
    have hnone : Disk.empty.content (osPathJoin "Data" "s") = none := by decide
    intro b hb
    rw [hnone] at hb
    exact absurd hb (by simp)
  exact ⟨s, hrun, hended,
    end_means_end_of_file [1, 2] { chunkSize := 2 } (by decide) 5 Upload.sampleRequest
      sampleDownload "s" .empty rfl (fun _ => rfl) hfile hrun 0 hended⟩

/-- **A download of a shard whose upload is running.**  The first of two bytes is still in the
buffer, the sender finds the end of an empty file and sends END: the downloader has nothing,
and `done_uploading` has not been called. -/
theorem partial_shard_ends :
    ¬ ∀ s : Pool.Conf (Option ℕ) NodeOp NodeOp.Res Exn SharedShard Unit,
      (sharing [1, 2] (osPathJoin "Data" "s")).Reaches Pool.always
        (programs { chunkSize := 2 } 5 Upload.sampleRequest sampleDownload,
          SharedShard.start .empty) s →
      ∀ j, (s.2.down j).peer.ended = true →
        (s.2.down j).peer.buf = [1, 2] ∧ s.2.upload.done ≠ [] := by
  intro h
  obtain ⟨s, hrun, hs⟩ := Pool.exists_of_run (sharing [1, 2] (osPathJoin "Data" "s"))
    Pool.always
    (programs { chunkSize := 2 } 5 Upload.sampleRequest sampleDownload, SharedShard.start .empty)
    (firstByte ++ emptyDownload)
    (fun s => (s.2.down 0).peer.ended && decide ((s.2.down 0).peer.buf = []))
    (by decide +kernel)
  rw [Bool.and_eq_true, decide_eq_true_iff] at hs
  obtain ⟨hended, hbuf⟩ := hs
  have hwhole := (h s hrun 0 hended).1
  rw [hbuf] at hwhole
  exact absurd hwhole (by decide)

end Download
