/-
# Downloads of a stored shard

`FragmentSender.send_data` against a conforming downloader, from a shard file that stays as
it is.

* `download_integrity` : along every run the downloader holds a beginning of `F`, and all of
  it once it has received END.
-/
import StorageNode.DownloadServing

namespace Download

/-! ## Runs of a download -/

/-- **Download integrity across disconnects.**  A shard file that holds `F`, any positive
chunk size, a downloader that holds a beginning of `F` (nothing, when the transfer is new),
and a fault at any operation: in every configuration of every run the downloader holds a
beginning of `F`, and `F` itself once it has received END. -/
theorem download_integrity (F D : Bytes) (cfg : Config) (hchunk : 0 < cfg.chunkSize) (fuel : ℕ)
    (request : Dict) (shardId : PyStr) (isNewTransfer : Bool) (d : Disk)
    (hshard : request.getItem "shard_id" = .ok (.str shardId))
    (hfile : d.content (osPathJoin cfg.dataDirectory shardId) = some F) (hbuf : D <+: F)
    (hnew : isNewTransfer = true → D = [])
    {s : Pool.Conf Unit NodeOp NodeOp.Res Exn DownloadWorld Unit}
    (hrun : DownloadWorld.downloads.Reaches Pool.always
      (fun _ => FragmentSender.sendData cfg fuel request isNewTransfer,
        DownloadWorld.start d D isNewTransfer) s) :
    s.2.peer.buf <+: F ∧ (s.2.peer.ended = true → s.2.peer.buf = F) := by
  have hheld : d.held (osPathJoin cfg.dataDirectory shardId) = F := by
    rw [Disk.held, hfile]
    rfl
  have hoff : Off F D.length (DownloadWorld.start d D isNewTransfer) :=
    ⟨⟨List.prefix_iff_eq_take.mp hbuf, hbuf.length_le, rfl⟩, rfl⟩
  have hzero : isNewTransfer = true → D.length = 0 := fun h => by rw [hnew h, List.length_nil]
  have hspec := spec_sendData (K := fun d => d.held (osPathJoin cfg.dataDirectory shardId) = F)
    (P := fun b => b = F) cfg hchunk fuel request isNewTransfer (.str shardId) hshard rfl hzero
  -- the file holds `F` throughout, so this is what a read that finds its end has delivered
  have hwp := Pool.wp_reaches DownloadWorld.downloads _
    (fun _ => servingSetting (osPathJoin cfg.dataDirectory shardId)
      (fun d => d.held (osPathJoin cfg.dataDirectory shardId) = F) fun b => b = F)
    (fun _ o c w r w' _ he => ⟨c, he, fun hk _ => hk⟩)
    (fun i j _ _ hij _ => absurd (Subsingleton.elim j i) hij)
    (fun _ m w w' he => Or.inl ⟨m, he⟩) hrun
    (fun _ => hspec _ ⟨hheld, ⟨hheld ▸ hoff, rfl⟩, trivial⟩)
  obtain ⟨hk, hprefix, hend⟩ := Setting.wp_inv (hwp ())
  exact ⟨hk ▸ hprefix, hend⟩

/-- A request for a download of the shard `s`. -/
def sampleRequest : Dict :=
  [("type", .str "download"), ("shard_id", .str "s"), ("port", .int 50000)]

/-- A shard of three bytes. -/
def sampleDisk : Disk := (Disk.empty.create (osPathJoin "Data" "s") rfl).setData 0 [1, 2, 3]

/-- The download of three bytes in chunks of two; the connection breaks after the
downloader got the first chunk and before the node got the ACK. -/
def interruptedDownload : List (Pool.Event Unit Choice DownloaderMove) :=
  let node : Pool.Event Unit Choice DownloaderMove := .thread () {}
  let peer : DownloaderMove → Pool.Event Unit Choice DownloaderMove := .env
  List.replicate 9 node ++ [peer .take, peer .take, .thread () { fault := some .zmqError }] ++
    List.replicate 7 node ++ [peer .take, peer .answer] ++ List.replicate 7 node ++
    [peer .take, peer .answer] ++ List.replicate 5 node ++ [peer .take]

theorem download_integrity_interrupted :
    ∃ s : Pool.Conf Unit NodeOp NodeOp.Res Exn DownloadWorld Unit,
      DownloadWorld.downloads.Reaches Pool.always
        (fun _ => FragmentSender.sendData { chunkSize := 2 } 5 sampleRequest true,
          DownloadWorld.start sampleDisk [] true) s ∧
      s.2.peer.ended = true ∧
      (s.2.peer.buf <+: [1, 2, 3] ∧ (s.2.peer.ended = true → s.2.peer.buf = [1, 2, 3])) := by
  obtain ⟨s, hrun, hend⟩ := Pool.exists_of_run DownloadWorld.downloads Pool.always
    (fun _ => FragmentSender.sendData { chunkSize := 2 } 5 sampleRequest true,
      DownloadWorld.start sampleDisk [] true)
    interruptedDownload (fun s => s.2.peer.ended) (by decide +kernel)
  exact ⟨s, hrun, hend,
    download_integrity [1, 2, 3] [] { chunkSize := 2 } (by decide) 5 sampleRequest "s" true
      sampleDisk rfl (by decide) List.nil_prefix (fun _ => rfl) hrun⟩

end Download
