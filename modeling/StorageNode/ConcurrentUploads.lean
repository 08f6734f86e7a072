/-
# Several uploads of one shard at once

Any number of transfers of one shard, each a thread of its own with a conforming uploader
of the same content `F`.  The receiver takes no lock on the shard file: it looks whether
the file exists, reads its size, opens it and appends, and another transfer may come in
between.

* `overlapping_uploads_corrupt` : two retries that both resume at the same offset append
  the same bytes twice, and both report the shard as done;
* `concurrent_uploads` : in a run in which no transfer acts on an outdated observation of
  the file (`UploadWorld.UpToDate`), the file stays a beginning of `F` and is complete
  whenever `done_uploading` is called.
-/
import StorageNode.UploadIntegrity

open Transfer

namespace Upload

variable {ι : Type} [DecidableEq ι]

/-- What one transfer guarantees is what the setting of every other one expects. -/
theorem uploadSetting_compatible {F : Bytes} {path : PyStr} {shardId : Json} {i j : ι}
    (hij : j ≠ i) {w w' : UploadWorld ι}
    (h : (uploadSetting F path shardId i False).guar w w') :
    (uploadSetting F path shardId j False).env w w' := by
  obtain ⟨hothers, hgood, hgrow⟩ := h
  exact Or.inr ⟨not_false, hothers j hij, hgood, hgrow⟩

/-- **Uploads of one shard, next to each other.**  In every run in which a transfer opens
the file in mode `wb` only while there is none, and moves bytes into it only while the file
ends where these bytes belong, the file is a beginning of `F` and each call of
`done_uploading` found exactly `F` in it. -/
theorem concurrent_uploads (F : Bytes) (cfg : Config) (fuel : ι → ℕ) (request : ι → Dict)
    (shardId : PyStr) (d : Disk)
    (hshard : ∀ i, (request i).getItem "shard_id" = .ok (.str shardId))
    (hfile : ∀ b, d.content (osPathJoin cfg.dataDirectory shardId) = some b → b <+: F)
    {s : Pool.Conf ι NodeOp NodeOp.Res Exn (UploadWorld ι) Unit}
    (hrun : (UploadWorld.uploads F (osPathJoin cfg.dataDirectory shardId)).Reaches
      UploadWorld.upToDate
      (fun i => FragmentReceiver.receiveData cfg (fuel i) (request i), UploadWorld.start d) s) :
    (∀ b, s.2.disk.content (osPathJoin cfg.dataDirectory shardId) = some b → b <+: F) ∧
      ∀ call ∈ s.2.done,
        call.shardId = .str shardId ∧ call.content = some F ∧ call.closed = true := by
  set path := osPathJoin cfg.dataDirectory shardId with hpath
  have hgood : Good F path (.str shardId) (UploadWorld.start d : UploadWorld ι) :=
    ⟨hfile, by simp [UploadWorld.start]⟩
  have hstart : ∀ i : ι, (uploadSetting F path (.str shardId) i False).wp
      (FragmentReceiver.receiveData cfg (fuel i) (request i))
      (Setting.post (fun _ => Here F path (.str shardId) i fun _ _ => True)
        (Here F path (.str shardId) i fun _ _ => True))
      (UploadWorld.start d) := by
    intro i
    have hspec : Spec F path (.str shardId) i False (fun t _ => AllClosed t)
        (FragmentReceiver.receiveData cfg (fuel i) (request i)) (fun _ _ _ => True)
        (fun _ _ => True) := spec_receiveData cfg (fuel i) (request i) (hshard i) rfl
    exact hspec _ ⟨hgood, fun j => by simp [UploadWorld.start, file?]⟩
  have hwp := Pool.wp_reaches _ _ (fun i => uploadSetting F path (.str shardId) i False)
    (fun i o c w r w' hup he => ⟨c, he, Or.inr hup⟩)
    (fun i j w w' hij => uploadSetting_compatible hij)
    (fun i e w w' he => Or.inl ⟨e.1, e.2, he⟩) hrun hstart
  rcases isEmpty_or_nonempty ι with hempty | ⟨⟨i⟩⟩
  · -- without transfers nothing ever happens
    rw [Pool.eq_of_isEmpty _ _ hrun]
    exact hgood
  · exact Setting.wp_inv (hwp i)

/-- The events of one retry that finds a file of one byte and resumes there: up to the
opening of the file, then the second byte and the answer to it. -/
def resumedSlice (i : Bool) : List (Pool.Event Bool Choice (Bool × UploaderMove)) :=
  let node : Pool.Event Bool Choice (Bool × UploaderMove) := .thread i {}
  let peer (m : UploaderMove) : Pool.Event Bool Choice (Bool × UploaderMove) := .env (i, m)
  List.replicate 10 node ++ [peer .take, peer .take, peer (.slice 1)] ++ List.replicate 4 node ++
    [peer .take, peer .finish]

/-- The last operations of a retry. -/
def closingSteps (i : Bool) : List (Pool.Event Bool Choice (Bool × UploaderMove)) :=
  List.replicate 7 (.thread i {})

/-- A retry that finds the file complete, up to the END frame. -/
def emptyRetry (i : Bool) : List (Pool.Event Bool Choice (Bool × UploaderMove)) :=
  let node : Pool.Event Bool Choice (Bool × UploaderMove) := .thread i {}
  let peer (m : UploaderMove) : Pool.Event Bool Choice (Bool × UploaderMove) := .env (i, m)
  List.replicate 10 node ++ [peer .take, peer .take, peer .finish]

theorem no_shard_yet : Disk.empty.lookup (osPathJoin "Data" "s") = none := rfl

/-- An interrupted upload left the first of two bytes. -/
def interruptedDisk : Disk :=
  (Disk.empty.create (osPathJoin "Data" "s") no_shard_yet).setData 0 [1]

/-- **Two retries of one interrupted upload** both read the size 1 and append the second
byte.  The file then holds it twice, and `done_uploading` is called for it: neither is the
file always a beginning of `F`, nor is it `F` at every call. -/
theorem overlapping_uploads_corrupt :
    (¬ ∀ s : Pool.Conf Bool NodeOp NodeOp.Res Exn (UploadWorld Bool) Unit,
      (UploadWorld.uploads [1, 2] (osPathJoin "Data" "s")).Reaches Pool.always
        (fun _ => FragmentReceiver.receiveData {} 5 sampleRequest,
          UploadWorld.start interruptedDisk) s →
      ∀ b, s.2.disk.content (osPathJoin "Data" "s") = some b → b <+: [1, 2]) ∧
    ¬ ∀ s : Pool.Conf Bool NodeOp NodeOp.Res Exn (UploadWorld Bool) Unit,
      (UploadWorld.uploads [1, 2] (osPathJoin "Data" "s")).Reaches Pool.always
        (fun _ => FragmentReceiver.receiveData {} 5 sampleRequest,
          UploadWorld.start interruptedDisk) s →
      ∀ call ∈ s.2.done, call.content = some [1, 2] := by
  obtain ⟨s, hrun, hs⟩ := Pool.exists_of_run
    (UploadWorld.uploads [1, 2] (osPathJoin "Data" "s")) Pool.always
    (fun _ => FragmentReceiver.receiveData {} 5 sampleRequest,
      UploadWorld.start interruptedDisk)
    (resumedSlice false ++ resumedSlice true ++ closingSteps false ++ closingSteps true)
    (fun s => decide (s.2.disk.content (osPathJoin "Data" "s") = some [1, 2, 2]) &&
      s.2.done.any fun call => decide (call.content = some [1, 2, 2])) (by decide +kernel)
  rw [Bool.and_eq_true, decide_eq_true_iff, List.any_eq_true] at hs
  obtain ⟨hfile, call, hmem, hcall⟩ := hs
  constructor
  · intro h
    have hprefix := h s hrun _ hfile
    exact absurd hprefix.length_le (by decide)
  · intro h
    have hcontent := h s hrun call hmem
    rw [of_decide_eq_true hcall] at hcontent
    exact absurd hcontent (by decide)

/-- One retry completes the file; the other then finds it complete. -/
theorem concurrent_uploads_retry :
    ∃ s : Pool.Conf Bool NodeOp NodeOp.Res Exn (UploadWorld Bool) Unit,
      (UploadWorld.uploads [1, 2] (osPathJoin "Data" "s")).Reaches UploadWorld.upToDate
        (fun _ => FragmentReceiver.receiveData {} 5 sampleRequest,
          UploadWorld.start interruptedDisk) s ∧
      s.2.done.length = 2 ∧
      ∀ call ∈ s.2.done,
        call.shardId = .str "s" ∧ call.content = some [1, 2] ∧ call.closed = true := by
  obtain ⟨s, hrun, hlen⟩ := Pool.exists_of_run
    (UploadWorld.uploads [1, 2] (osPathJoin "Data" "s")) UploadWorld.upToDate
    (fun _ => FragmentReceiver.receiveData {} 5 sampleRequest,
      UploadWorld.start interruptedDisk)
    (resumedSlice false ++ closingSteps false ++ emptyRetry true ++ closingSteps true)
    (fun s => s.2.done.length == 2) (by decide +kernel)
  have hfile : ∀ b, interruptedDisk.content (osPathJoin "Data" "s") = some b → b <+: [1, 2] := by
    have hone : interruptedDisk.content (osPathJoin "Data" "s") = some [1] := by decide
    intro b hb
    rw [hone, Option.some.injEq] at hb
    rw [← hb]
    exact ⟨[2], rfl⟩
  exact ⟨s, hrun, by simpa using hlen,
    (concurrent_uploads [1, 2] {} (fun _ => 5) (fun _ => sampleRequest) "s" interruptedDisk
      (fun _ => rfl) hfile hrun).2⟩

end Upload
