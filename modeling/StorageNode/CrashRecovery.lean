/-
# Transfers of a node that crashes

A crash ends the process at any operation of a transfer.  The disk stays, and so does what
the peer has got; the handles go, with what they had not written, and so does the connection.
`resume_pending` then serves the recorded request again, from the beginning of the method.
It may do so in vain: in some lives any operation may fail, as often as it likes.

* `LiveUpload.Faulty`, `LiveDownload.Faulty` : what a life with any faults leaves behind;
* `LiveUpload.crash`, `LiveDownload.crash` : the end of one life, faulty lives, and the start of
  the next;
* `LiveUpload.begins_of_crash`, `LiveDownload.begins_of_crash` : the next life begins like a
  first one;
* `upload_survives_crashes`, `download_survives_crashes` : the transfer completes all the
  same, however often the process was ended;
* `stored_shard_returns` : a download after an upload.
-/
import StorageNode.DownloadCompletion
import StorageNode.Restart
import StorageNode.UploadCompletion

/-! ## Uploads -/

namespace LiveUpload

variable {F : Bytes} {path : PyStr} {cfg : Config} {fuel : ℕ} {request : Dict}

/-- A life of the upload in which any operation may fail, up to any moment: the disk before
and after. -/
def Faulty (F : Bytes) (path : PyStr) (cfg : Config) (fuel : ℕ) (request : Dict)
    (d d' : Disk) : Prop :=
  ∃ s : Pool.Conf Unit NodeOp NodeOp.Res Exn (UploadWorld Unit) Unit,
    (UploadWorld.uploads F path).Reaches Pool.always
      (fun _ => FragmentReceiver.receiveData cfg fuel request, UploadWorld.start d) s ∧
    d' = s.2.disk

/-- A crash of the node during the upload of `request`, and the start of the next life that is
not faulty; its connection may break again. -/
def crash (F : Bytes) (path : PyStr) (cfg : Config) (fuel : ℕ) (request : Dict)
    (c c' : Node Unit × LiveUpload) : Prop :=
  ∃ d spare, Relation.ReflTransGen (Faulty F path cfg fuel request) c.2.upload.disk d ∧
    c' = (FragmentReceiver.receiveData cfg fuel request, start path spare d)

/-- What a life of the upload can begin with: a shard file that holds a beginning of `F`, or
none. -/
def Begins (F : Bytes) (path : PyStr) (cfg : Config) (fuel : ℕ) (request : Dict)
    (c : Node Unit × LiveUpload) : Prop :=
  ∃ spare d, (∀ b, d.content path = some b → b <+: F) ∧
    c = (FragmentReceiver.receiveData cfg fuel request, start path spare d)

/-- The upload is over: all of `F` is in the file, the shard is reported, and the socket and
every file are closed. -/
def Completed (F : Bytes) (path : PyStr) (cfg : Config) (shardId : PyStr)
    (c : Node Unit × LiveUpload) : Prop :=
  c.1 = .ret () ∧ c.2.upload.disk.content path = some F ∧
    c.2.upload.done.map DoneCall.shardId = (if cfg.backend then [.str shardId] else []) ∧
    (c.2.upload.transfer ()).link = {} ∧ ∀ fh, (c.2.upload.transfer ()).file? fh = none

/-- The steps of a live upload are steps of an upload. -/
theorem upload_exec {o : NodeOp} {v v' : LiveUpload} {r : Except Exn o.Res}
    (h : (machine F path).exec o v r v') :
    ∃ c, v.upload.exec path () o c = some (r, v'.upload) := by
  obtain ⟨c, hc⟩ := h
  exact ⟨c, (exec_cases hc).1⟩

theorem upload_env {v v' : LiveUpload} (h : (machine F path).env v v') :
    ∃ m, v.upload.peerMove F () m = some v'.upload := by
  obtain ⟨m, hm⟩ := h
  obtain ⟨-, t, ht, rfl⟩ := peerMove_cases hm
  exact ⟨m, by rw [UploadWorld.peerMove, ht, Option.map_some]⟩

variable {shardId : PyStr}

variable (fuel) in
/-- The specification of the method, at the start of any life. -/
theorem wp_receiveData (hshard : request.getItem "shard_id" = .ok (.str shardId))
    (hpath : path = osPathJoin cfg.dataDirectory shardId) {d : Disk}
    (hfile : ∀ b, d.content path = some b → b <+: F) :
    (Upload.uploadSetting F path (.str shardId) () True).wp
      (FragmentReceiver.receiveData cfg fuel request)
      (Setting.post (fun _ => Upload.Here F path (.str shardId) () fun _ _ => True)
        (Upload.Here F path (.str shardId) () fun _ _ => True)) (UploadWorld.start d) := by
  subst hpath
  refine Upload.spec_receiveData cfg fuel request hshard rfl _ ⟨⟨hfile, ?_⟩, fun j => ?_⟩
  · simp [UploadWorld.start]
  · simp [UploadWorld.start, Transfer.file?]

/-- A faulty life leaves a beginning of `F`. -/
theorem prefix_of_faulty (hshard : request.getItem "shard_id" = .ok (.str shardId))
    (hpath : path = osPathJoin cfg.dataDirectory shardId) {d d' : Disk}
    (hfile : ∀ b, d.content path = some b → b <+: F) (h : Faulty F path cfg fuel request d d') :
    ∀ b, d'.content path = some b → b <+: F := by
  obtain ⟨s, hrun, rfl⟩ := h
  have hwp := Pool.wp_reaches _ _ (fun i => Upload.uploadSetting F path (.str shardId) i True)
    (fun i o c w r w' _ he => ⟨c, he, Or.inl trivial⟩)
    (fun i j w w' hj _ => absurd (Subsingleton.elim j i) hj)
    (fun i e w w' he => Or.inl ⟨e.1, e.2, he⟩) hrun fun _ => wp_receiveData fuel hshard hpath hfile
  exact (Setting.wp_inv (hwp ())).1

/-- **Wherever a life is ended, the next can begin.** -/
theorem begins_of_crash (hshard : request.getItem "shard_id" = .ok (.str shardId))
    (hpath : path = osPathJoin cfg.dataDirectory shardId) {c₀ c c' : Node Unit × LiveUpload}
    (h₀ : Begins F path cfg fuel request c₀)
    (hr : Relation.ReflTransGen (machine F path).Step c₀ c)
    (hcrash : crash F path cfg fuel request c c') : Begins F path cfg fuel request c' := by
  obtain ⟨spare₀, d₀, hfile, rfl⟩ := h₀
  obtain ⟨d, spare, hfaulty, rfl⟩ := hcrash
  have hwp := Setting.wp_run (M := machine F path) LiveUpload.upload
    (fun o v r v' he => ?_) (fun v v' he => ?_)
    (wp_receiveData fuel hshard hpath hfile) (v := start path spare₀ d₀) hr
  · have hcut : ∀ b, c.2.upload.disk.content path = some b → b <+: F := (Setting.wp_inv hwp).1
    refine ⟨spare, d, ?_, rfl⟩
    clear hwp hr
    induction hfaulty with
    | refl => exact hcut
    | tail _ hlife ih => exact prefix_of_faulty hshard hpath ih hlife
  · obtain ⟨x, hx⟩ := upload_exec he
    exact ⟨x, hx, Or.inl trivial⟩
  · obtain ⟨m, hm⟩ := upload_env he
    exact Or.inl ⟨(), m, hm⟩

/-- An upload to an absent shard, or to one that was begun, by a node that crashes. -/
theorem inevitably_completed {port : Json} (hfuel : F.length < fuel)
    (hshard : request.getItem "shard_id" = .ok (.str shardId))
    (hport : request.getItem "port" = .ok port)
    (hpath : path = osPathJoin cfg.dataDirectory shardId) (crashes : ℕ)
    {c : Node Unit × LiveUpload} (hc : Begins F path cfg fuel request c) :
    Inevitably (Restarting (machine F path).Step (crash F path cfg fuel request))
      (fun c => Completed F path cfg shardId c.2) (crashes, c) := by
  refine inevitably_restarting (I := Begins F path cfg fuel request) ?_ ?_ crashes hc
  · rintro s ⟨spare, d, hfile, rfl⟩
    subst hpath
    exact upload_completes F cfg fuel request shardId port d spare hfuel hshard hport hfile
  · exact fun s₀ s s' h₀ hr hcrash => begins_of_crash hshard hpath h₀ hr hcrash

/-- **Uploads survive crashes.**  An upload of `F` to an absent shard or to one that holds a
beginning of `F`, by an uploader that keeps going; the process is ended any number of times, at
any moment, and started again, at last in lives in which the connection breaks at most once, at
an operation of a receive pass, and nothing else fails, no bind and no start signal either:
however all of this is ordered, the upload completes. -/
theorem upload_survives_crashes (F : Bytes) (cfg : Config) (fuel : ℕ) (request : Dict)
    (shardId : PyStr) (port : Json) (d : Disk) (spare : Bool) (crashes : ℕ)
    (hfuel : F.length < fuel) (hshard : request.getItem "shard_id" = .ok (.str shardId))
    (hport : request.getItem "port" = .ok port)
    (hfile : ∀ b, d.content (osPathJoin cfg.dataDirectory shardId) = some b → b <+: F) :
    Inevitably (Restarting (machine F (osPathJoin cfg.dataDirectory shardId)).Step
        (crash F (osPathJoin cfg.dataDirectory shardId) cfg fuel request))
      (fun c => Completed F (osPathJoin cfg.dataDirectory shardId) cfg shardId c.2)
      (crashes, FragmentReceiver.receiveData cfg fuel request,
        start (osPathJoin cfg.dataDirectory shardId) spare d) :=
  inevitably_completed hfuel hshard hport rfl crashes ⟨spare, d, hfile, rfl⟩

/-- The upload of two bytes to an empty disk, by a node that crashes up to five times. -/
theorem upload_survives_crashes_fresh :
    Inevitably (Restarting (machine [1, 2] (osPathJoin "Data" "s")).Step
        (crash [1, 2] (osPathJoin "Data" "s") {} 3 Upload.sampleRequest))
      (fun c => Completed [1, 2] (osPathJoin "Data" "s") {} "s" c.2)
      (5, FragmentReceiver.receiveData {} 3 Upload.sampleRequest,
        start (osPathJoin "Data" "s") true .empty) := by
  refine upload_survives_crashes [1, 2] {} 3 Upload.sampleRequest "s" (.int 50000) .empty true 5
    (by decide) rfl rfl fun b hb => ?_
  have hnone : Disk.empty.content (osPathJoin "Data" "s") = none := by decide
  rw [hnone] at hb
  exact absurd hb (by simp)

end LiveUpload

/-! ## Downloads -/

namespace LiveDownload

variable {F : Bytes} {d : Disk} {cfg : Config} {fuel : ℕ} {request : Dict}

/-- A life of the download in which any operation may fail, up to any moment: the disk and
the downloader's bytes before and after.  It is not of a new transfer. -/
def Faulty (cfg : Config) (fuel : ℕ) (request : Dict) (x x' : Disk × Bytes) : Prop :=
  ∃ s : Pool.Conf Unit NodeOp NodeOp.Res Exn DownloadWorld Unit,
    DownloadWorld.downloads.Reaches Pool.always
      (fun _ => FragmentSender.sendData cfg fuel request false, .start x.1 x.2 false) s ∧
    x' = (s.2.disk, s.2.peer.buf)

/-- A crash of the node during the download of `request`, and the start of the next life that
is not faulty: the downloader keeps what it has. -/
def crash (cfg : Config) (fuel : ℕ) (request : Dict) (c c' : Node Unit × LiveDownload) : Prop :=
  ∃ x spare, Relation.ReflTransGen (Faulty cfg fuel request)
      (c.2.download.disk, c.2.download.peer.buf) x ∧
    c' = (FragmentSender.sendData cfg fuel request false, start x.1 x.2 false spare)

/-- What a life of the download can begin with: the disk as it was, and a downloader that
holds a beginning of `F`, nothing when the transfer is new. -/
def Begins (F : Bytes) (d : Disk) (cfg : Config) (fuel : ℕ) (request : Dict)
    (c : Node Unit × LiveDownload) : Prop :=
  ∃ isNewTransfer D spare, D <+: F ∧ (isNewTransfer = true → D = []) ∧
    c = (FragmentSender.sendData cfg fuel request isNewTransfer, start d D isNewTransfer spare)

/-- The download is over: the downloader holds `F`, the disk is as it was, and the socket and
the file are closed. -/
def Completed (F : Bytes) (d : Disk) (c : Node Unit × LiveDownload) : Prop :=
  c.1 = .ret () ∧ c.2.download.peer.buf = F ∧ c.2.download.disk = d ∧
    c.2.download.link = {} ∧ ∀ fh, c.2.download.file? fh = none

/-- The steps of a live download are steps of a download. -/
theorem download_exec {o : NodeOp} {x : Choice} {v v' : LiveDownload} {r : Except Exn o.Res}
    (h : v.exec o x = some (r, v')) : v.download.exec o x = some (r, v'.download) := by
  obtain ⟨⟨r', w⟩, hexec, h⟩ := Option.bind_eq_some_iff.mp h
  cases hf : x.fault with
  | none =>
      simp only [hf, Option.some.injEq, Prod.mk.injEq] at h
      obtain ⟨rfl, rfl⟩ := h
      exact hexec
  | some e =>
      simp only [hf, Option.ite_none_right_eq_some, Option.some.injEq, Prod.mk.injEq] at h
      obtain ⟨-, rfl, rfl⟩ := h
      exact hexec

variable {shardId : PyStr}

variable (fuel) in
/-- The specification of the method, at the start of any life; the node only reads, so the disk
is `d` all along. -/
theorem wp_sendData (hchunk : 0 < cfg.chunkSize)
    (hshard : request.getItem "shard_id" = .ok (.str shardId))
    (hfile : d.content (osPathJoin cfg.dataDirectory shardId) = some F) {D : Bytes} (hbuf : D <+: F)
    (isNewTransfer : Bool) (hnew : isNewTransfer = true → D = []) :
    ∃ Q, (Download.servingSetting (osPathJoin cfg.dataDirectory shardId) (fun d' => d' = d)
      fun _ => True).wp (FragmentSender.sendData cfg fuel request isNewTransfer) Q
        (.start d D isNewTransfer) := by
  have hheld : d.held (osPathJoin cfg.dataDirectory shardId) = F := by
    rw [Disk.held, hfile]
    rfl
  have hoff : Download.Off F D.length (DownloadWorld.start d D isNewTransfer) :=
    ⟨⟨List.prefix_iff_eq_take.mp hbuf, hbuf.length_le, rfl⟩, rfl⟩
  have hzero : isNewTransfer = true → D.length = 0 := fun h => by rw [hnew h, List.length_nil]
  exact ⟨_, Download.spec_sendData (K := fun d' => d' = d) (P := fun _ => True) cfg hchunk fuel
    request isNewTransfer (.str shardId) hshard rfl hzero _ ⟨rfl, ⟨hheld.symm ▸ hoff, rfl⟩, trivial⟩⟩

/-- What the setting says of the disk and the downloader. -/
theorem held_of_inv (hfile : d.content (osPathJoin cfg.dataDirectory shardId) = some F)
    {w : DownloadWorld} (hw : (Download.servingSetting (osPathJoin cfg.dataDirectory shardId)
      (fun d' => d' = d) fun _ => True).inv w) : w.disk = d ∧ w.peer.buf <+: F := by
  obtain ⟨hdisk, hprefix, -⟩ := hw
  rw [hdisk, Disk.held, hfile] at hprefix
  exact ⟨hdisk, hprefix⟩

/-- A faulty life leaves the disk and a beginning of `F`. -/
theorem prefix_of_faulty (hchunk : 0 < cfg.chunkSize)
    (hshard : request.getItem "shard_id" = .ok (.str shardId))
    (hfile : d.content (osPathJoin cfg.dataDirectory shardId) = some F) {x x' : Disk × Bytes}
    (hx : x.1 = d ∧ x.2 <+: F) (h : Faulty cfg fuel request x x') : x'.1 = d ∧ x'.2 <+: F := by
  obtain ⟨rfl, hbuf⟩ := hx
  obtain ⟨s, hrun, rfl⟩ := h
  obtain ⟨Q, hstart⟩ := wp_sendData fuel hchunk hshard hfile hbuf false (by simp)
  have hwp := Pool.wp_reaches DownloadWorld.downloads _ (fun _ => Download.servingSetting _ _ _)
    (fun _ o c w r w' _ he => ⟨c, he, fun _ _ => trivial⟩)
    (fun i j _ _ hij _ => absurd (Subsingleton.elim j i) hij)
    (fun _ m w w' he => Or.inl ⟨m, he⟩) hrun (fun _ => hstart)
  exact held_of_inv hfile (Setting.wp_inv (hwp ()))

/-- **Wherever a life is ended, the next can begin.** -/
theorem begins_of_crash (hchunk : 0 < cfg.chunkSize)
    (hshard : request.getItem "shard_id" = .ok (.str shardId))
    (hfile : d.content (osPathJoin cfg.dataDirectory shardId) = some F)
    {c₀ c c' : Node Unit × LiveDownload} (h₀ : Begins F d cfg fuel request c₀)
    (hr : Relation.ReflTransGen machine.Step c₀ c) (hcrash : crash cfg fuel request c c') :
    Begins F d cfg fuel request c' := by
  obtain ⟨isNewTransfer, D, spare₀, hbuf, hnew, rfl⟩ := h₀
  obtain ⟨x, spare, hfaulty, rfl⟩ := hcrash
  obtain ⟨Q, hstart⟩ := wp_sendData fuel hchunk hshard hfile hbuf isNewTransfer hnew
  have hwp := Setting.wp_run (M := machine) LiveDownload.download
    (fun o v r v' he => ?_) (fun v v' he => ?_) hstart (v := start d D isNewTransfer spare₀) hr
  · have hcut : c.2.download.disk = d ∧ c.2.download.peer.buf <+: F :=
      held_of_inv hfile (Setting.wp_inv hwp)
    have hx : x.1 = d ∧ x.2 <+: F := by
      clear hwp hr
      induction hfaulty with
      | refl => exact hcut
      | tail _ hlife ih => exact prefix_of_faulty hchunk hshard hfile ih hlife
    exact ⟨false, x.2, spare, hx.2, by simp, by rw [hx.1]⟩
  · obtain ⟨y, hy⟩ := he
    exact ⟨y, download_exec hy, fun _ _ => trivial⟩
  · obtain ⟨m, w, hm, rfl⟩ := env_cases he
    exact Or.inl ⟨m, hm⟩

/-- A download, of a new transfer or of one that was begun, by a node that crashes. -/
theorem inevitably_completed (hchunk : 0 < cfg.chunkSize) {port : Json}
    (hfuel : F.length < fuel) (hshard : request.getItem "shard_id" = .ok (.str shardId))
    (hport : request.getItem "port" = .ok port)
    (hfile : d.content (osPathJoin cfg.dataDirectory shardId) = some F) (crashes : ℕ)
    {c : Node Unit × LiveDownload} (hc : Begins F d cfg fuel request c) :
    Inevitably (Restarting machine.Step (crash cfg fuel request)) (fun c => Completed F d c.2)
      (crashes, c) := by
  refine inevitably_restarting (I := Begins F d cfg fuel request) ?_ ?_ crashes hc
  · rintro s ⟨isNewTransfer, D, spare, hbuf, hnew, rfl⟩
    exact download_completes F D cfg hchunk fuel request shardId port isNewTransfer d spare hfuel
      hshard hport hfile hbuf hnew
  · exact fun s₀ s s' h₀ hr hcrash => begins_of_crash hchunk hshard hfile h₀ hr hcrash

/-- **Downloads survive crashes.**  A download of a shard file that holds `F`, by a downloader
that keeps going; the process is ended any number of times, at any moment, and started again,
at last in lives in which the connection breaks at most once, at an operation of a transmit pass
after the node began to send, and nothing else fails, neither a bind nor a start signal nor the
resume frame: however all of this is ordered, the downloader gets `F`. -/
theorem download_survives_crashes (F D : Bytes) (cfg : Config) (hchunk : 0 < cfg.chunkSize)
    (fuel : ℕ) (request : Dict) (shardId : PyStr) (port : Json) (isNewTransfer : Bool) (d : Disk)
    (spare : Bool) (crashes : ℕ) (hfuel : F.length < fuel)
    (hshard : request.getItem "shard_id" = .ok (.str shardId))
    (hport : request.getItem "port" = .ok port)
    (hfile : d.content (osPathJoin cfg.dataDirectory shardId) = some F) (hbuf : D <+: F)
    (hnew : isNewTransfer = true → D = []) :
    Inevitably (Restarting machine.Step (crash cfg fuel request)) (fun c => Completed F d c.2)
      (crashes, FragmentSender.sendData cfg fuel request isNewTransfer,
        start d D isNewTransfer spare) :=
  inevitably_completed hchunk hfuel hshard hport hfile crashes
    ⟨isNewTransfer, D, spare, hbuf, hnew, rfl⟩

/-- A shard of three bytes, sent by a node that crashes up to five times. -/
theorem download_survives_crashes_new :
    Inevitably (Restarting machine.Step (crash {} 4 Download.sampleRequest))
      (fun c => Completed [1, 2, 3] Download.sampleDisk c.2)
      (5, FragmentSender.sendData {} 4 Download.sampleRequest true,
        start Download.sampleDisk [] true true) :=
  download_survives_crashes [1, 2, 3] [] {} (by decide) 4 Download.sampleRequest "s" (.int 50000)
    true Download.sampleDisk true 5 (by decide) rfl rfl (by decide) (by decide) (fun _ => rfl)

end LiveDownload

/-! ## A shard and back -/

/-- **What was stored comes back.**  An upload of `F` to an absent shard or to one that holds a
beginning of `F`, by an uploader that keeps going, comes to its end, and then a download of the
same shard by a new downloader that keeps going, from the disk that is left, gives `F` to it.
During either the node may crash any number of times; between the crashes there may be lives in
which any operation fails, and in the last ones the connection breaks at most once, at an
operation of a pass, and nothing else fails. -/
theorem stored_shard_returns (F : Bytes) (cfg : Config) (hchunk : 0 < cfg.chunkSize) (fuel : ℕ)
    (up down : Dict) (shardId : PyStr) (upPort downPort : Json) (d : Disk) (spare spare' : Bool)
    (crashes crashes' : ℕ) (hfuel : F.length < fuel)
    (hup : up.getItem "shard_id" = .ok (.str shardId)) (hupPort : up.getItem "port" = .ok upPort)
    (hdown : down.getItem "shard_id" = .ok (.str shardId))
    (hdownPort : down.getItem "port" = .ok downPort)
    (hfile : ∀ b, d.content (osPathJoin cfg.dataDirectory shardId) = some b → b <+: F) :
    Inevitably (Restarting (LiveUpload.machine F (osPathJoin cfg.dataDirectory shardId)).Step
        (LiveUpload.crash F (osPathJoin cfg.dataDirectory shardId) cfg fuel up))
      (fun c => c.2.1 = .ret () ∧
        Inevitably (Restarting LiveDownload.machine.Step (LiveDownload.crash cfg fuel down))
          (fun c' => c'.2.1 = .ret () ∧ c'.2.2.download.peer.buf = F)
          (crashes', FragmentSender.sendData cfg fuel down true,
            LiveDownload.start c.2.2.upload.disk [] true spare'))
      (crashes, FragmentReceiver.receiveData cfg fuel up,
        LiveUpload.start (osPathJoin cfg.dataDirectory shardId) spare d) := by
  refine (LiveUpload.inevitably_completed hfuel hup hupPort rfl crashes
    ⟨spare, d, hfile, rfl⟩).mono fun c _ hc => ⟨hc.1, ?_⟩
  refine (LiveDownload.inevitably_completed hchunk hfuel hdown hdownPort hc.2.1 crashes'
    ⟨true, [], spare', List.nil_prefix, fun _ => rfl, rfl⟩).mono fun c' _ hc' => ?_
  exact ⟨hc'.1, hc'.2.1⟩

/-- Two bytes, to an empty disk and back. -/
theorem stored_shard_returns_two_bytes :
    Inevitably (Restarting (LiveUpload.machine [1, 2] (osPathJoin "Data" "s")).Step
        (LiveUpload.crash [1, 2] (osPathJoin "Data" "s") {} 3 Upload.sampleRequest))
      (fun c => c.2.1 = .ret () ∧
        Inevitably (Restarting LiveDownload.machine.Step
            (LiveDownload.crash {} 3 Download.sampleRequest))
          (fun c' => c'.2.1 = .ret () ∧ c'.2.2.download.peer.buf = [1, 2])
          (1, FragmentSender.sendData {} 3 Download.sampleRequest true,
            LiveDownload.start c.2.2.upload.disk [] true true))
      (2, FragmentReceiver.receiveData {} 3 Upload.sampleRequest,
        LiveUpload.start (osPathJoin "Data" "s") true .empty) := by
  refine stored_shard_returns [1, 2] {} (by decide) 3 Upload.sampleRequest Download.sampleRequest
    "s" (.int 50000) (.int 50000) .empty true true 2 1 (by decide) rfl rfl rfl rfl fun b hb => ?_
  have hnone : Disk.empty.content (osPathJoin "Data" "s") = none := by decide
  rw [hnone] at hb
  exact absurd hb (by simp)
