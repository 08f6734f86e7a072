/-
# Downloads by a conforming downloader

The surroundings of `FragmentSender.send_data`: the disk, the connection, the handles the
node opened and the downloader at the other end.

* `Downloader` : what the peer has received, and the answer it owes;
* `DownloadWorld.move` : what a conforming downloader may do;
* `DownloadWorld.exec` : what the node's operations do, with a fault at any of them.

A downloader answers the start frame with the length of its buffer on every connection but
the first of a fresh transfer.  It may receive a frame and answer later.
-/
import StorageNode.Link
import StorageNode.ThreadPool

/-- The downloader: the bytes it received, whether it received END, whether it answers the
start frame of this connection, and the answer it has not sent yet. -/
structure Downloader where
  buf : Bytes
  ended : Bool := false
  resumes : Bool := false
  owes : Option PyObj := none

/-- The downloader handles a frame of the node. -/
def Downloader.receive (raw : Raw) (p : Downloader) : Downloader :=
  if raw.type? = some (.str "start") then
    if p.resumes then { p with owes := some (resumeFrame p.buf.length) } else p
  else if raw.type? = some (.str "data") then
    -- the bytes are appended wherever they are from
    match raw.data? with
    | some (.bytes b) => { p with buf := p.buf ++ b, owes := some ackFrame }
    | _ => p
  else if raw.type? = some (.str "END") then { p with ended := true }
  else p

/-- The moves of a downloader. -/
inductive DownloaderMove
  | take
  | answer
  deriving DecidableEq

/-- The disk, the connection, the downloader, whether the next connection is the first of a
fresh transfer, and the handles opened so far (`none` once closed). -/
structure DownloadWorld where
  disk : Disk
  link : Link := {}
  peer : Downloader
  fresh : Bool
  files : List (Option OpenFile) := []

namespace DownloadWorld

/-- The handle `fh`, when it is open. -/
def file? (w : DownloadWorld) (fh : ℕ) : Option OpenFile := (w.files[fh]?).join

/-- **The conforming downloader.**  It handles the next frame once it has answered the last,
and sends the answer it owes. -/
def move (m : DownloaderMove) (w : DownloadWorld) : Option DownloadWorld :=
  match m, w.peer.owes, w.link.toPeer with
  | .take, none, raw :: rest =>
      some { w with link := { w.link with toPeer := rest }, peer := w.peer.receive raw }
  | .answer, some o, _ =>
      some { w with link := { w.link with toNode := w.link.toNode ++ [FrameCodec.encode o] },
                    peer := { w.peer with owes := none } }
  | _, _, _ => none

/-- The socket operations, with what they mean for the downloader: a new or closed socket
leaves it without a connection, and on a bound one it waits for the start frame. -/
def performLink (w : DownloadWorld) (o : NodeOp) : Option (Except Exn o.Res × DownloadWorld) :=
  match w.link.perform o with
  | none => none
  | some (r, l) =>
      match o with
      | .newSocket => some (r, { w with link := l, peer := { w.peer with owes := none } })
      -- only the first connection of a fresh transfer is not asked for an offset
      | .bindSocket _ _ =>
          some (r, { w with link := l, fresh := false,
                            peer := { w.peer with owes := none, resumes := !w.fresh } })
      | .closeSocket => some (r, { w with link := l, peer := { w.peer with owes := none } })
      | _ => some (r, { w with link := l })

/-- The file operations that succeed. -/
def performFile (w : DownloadWorld) : (o : NodeOp) → Option (Except Exn o.Res × DownloadWorld)
  | .isFile p => some (.ok (w.disk.lookup p).isSome, w)
  | .openFile p m =>
      (w.disk.openFile p m).map fun (d, f) =>
        (.ok w.files.length, { w with disk := d, files := w.files ++ [some f] })
  | .read fh n =>
      (w.file? fh).map fun f =>
        (.ok (f.read n w.disk).1, { w with files := w.files.set fh (some (f.read n w.disk).2) })
  | .seek fh offset =>
      match w.file? fh with
      | some f =>
          -- a negative offset is a `ValueError`, one of the faults
          if 0 ≤ offset then
            some (.ok (), { w with files := w.files.set fh (some (f.seek offset.toNat)) })
          else none
      | none => none
  | .closeFile fh => some (.ok (), { w with files := w.files.set fh none })
  | _ => none

/-- The operations that succeed. -/
def perform (o : NodeOp) (c : Choice) (w : DownloadWorld) :
    Option (Except Exn o.Res × DownloadWorld) :=
  match o.answerOnly c with
  | some r => some (r, w)
  | none =>
      match w.performLink o with
      | some s => some s
      | none => w.performFile o

/-- **The node's operations**, each with the faults it documents; one that fails changes
nothing. -/
def exec (o : NodeOp) (c : Choice) (w : DownloadWorld) :
    Option (Except Exn o.Res × DownloadWorld) :=
  match c.fault with
  | some e => if o.mayRaise e then some (.error e, w) else none
  | none => w.perform o c

/-- **A download**: the thread of the transfer, and the downloader. -/
def downloads : Pool Unit NodeOp NodeOp.Res Exn Choice DownloaderMove DownloadWorld where
  exec _ o c w := w.exec o c
  env m w := w.move m

/-- The world in which a transfer starts, with a downloader that holds `buf`. -/
def start (d : Disk) (buf : Bytes) (fresh : Bool) : DownloadWorld :=
  { disk := d, peer := { buf := buf }, fresh := fresh }

/-! ## What each operation can do -/

/-- What one operation can do: fail with a documented exception, or succeed. -/
theorem exec_cases {o : NodeOp} {c : Choice} {w w' : DownloadWorld} {r : Except Exn o.Res}
    (h : w.exec o c = some (r, w')) :
    (∃ e, r = .error e ∧ o.mayRaise e = true ∧ w' = w) ∨ w.perform o c = some (r, w') := by
  unfold exec at h
  cases hf : c.fault with
  | none =>
      rw [hf] at h
      exact Or.inr h
  | some e =>
      rw [hf] at h
      by_cases hm : o.mayRaise e = true
      · simp only [hm, if_true, Option.some.injEq, Prod.mk.injEq] at h
        exact Or.inl ⟨e, h.1.symm, hm, h.2.symm⟩
      · simp [hm] at h

/-- A socket operation fails and changes nothing, or acts on the connection. -/
theorem exec_onLink {o : NodeOp} {c : Choice} {w w' : DownloadWorld} {r : Except Exn o.Res}
    (ho : o.onLink = true) (h : w.exec o c = some (r, w')) :
    (∃ e, r = .error e ∧ w' = w) ∨ w.performLink o = some (r, w') := by
  rcases exec_cases h with ⟨e, rfl, -, rfl⟩ | hp
  · exact Or.inl ⟨e, rfl, rfl⟩
  · refine Or.inr ?_
    cases hl : w.performLink o with
    | none => cases o <;> simp [NodeOp.onLink, perform, NodeOp.answerOnly, hl, performFile] at ho hp
    | some rw =>
        cases o <;> simp [NodeOp.onLink] at ho <;>
          simpa only [perform, NodeOp.answerOnly, hl] using hp

/-- Such an operation leaves the world alone. -/
theorem exec_outside {o : NodeOp} {c : Choice} {w w' : DownloadWorld} {r : Except Exn o.Res}
    (ho : o.outside = true) (h : w.exec o c = some (r, w')) : w' = w := by
  rcases exec_cases h with ⟨e, -, -, rfl⟩ | hp
  · rfl
  · cases ha : o.answerOnly c with
    | some r' =>
        simp only [perform, ha, Option.some.injEq, Prod.mk.injEq] at hp
        exact hp.2.symm
    | none =>
        cases o <;> simp [NodeOp.outside] at ho <;>
          simp [perform, ha, performLink, Link.perform, performFile] at hp

theorem exec_openFile {p : PyStr} {m : FileMode} {c : Choice} {w w' : DownloadWorld}
    {r : Except Exn ℕ} (h : w.exec (.openFile p m) c = some (r, w')) :
    (∃ e, r = .error e ∧ w' = w) ∨
      ∃ d f, w.disk.openFile p m = some (d, f) ∧ r = .ok w.files.length ∧
        w' = { w with disk := d, files := w.files ++ [some f] } := by
  rcases exec_cases h with ⟨e, rfl, -, rfl⟩ | hp
  · exact Or.inl ⟨e, rfl, rfl⟩
  · simp only [perform, NodeOp.answerOnly, performLink, Link.perform, performFile,
      Option.map_eq_some_iff, Prod.mk.injEq] at hp
    obtain ⟨⟨d, f⟩, ho, rfl, rfl⟩ := hp
    exact Or.inr ⟨d, f, ho, rfl, rfl⟩

theorem exec_seek {fh : ℕ} {offset : ℤ} {c : Choice} {w w' : DownloadWorld}
    {r : Except Exn Unit} (h : w.exec (.seek fh offset) c = some (r, w')) :
    (∃ e, r = .error e ∧ w' = w) ∨
      ∃ f, w.file? fh = some f ∧ r = .ok () ∧
        w' = { w with files := w.files.set fh (some (f.seek offset.toNat)) } := by
  rcases exec_cases h with ⟨e, rfl, -, rfl⟩ | hp
  · exact Or.inl ⟨e, rfl, rfl⟩
  · simp only [perform, NodeOp.answerOnly, performLink, Link.perform, performFile] at hp
    split at hp
    · next f hf =>
        rw [Option.ite_none_right_eq_some] at hp
        simp only [Option.some.injEq, Prod.mk.injEq] at hp
        exact Or.inr ⟨f, hf, hp.2.1.symm, hp.2.2.symm⟩
    · exact absurd hp (by simp)

theorem exec_closeFile {fh : ℕ} {c : Choice} {w w' : DownloadWorld} {r : Except Exn Unit}
    (h : w.exec (.closeFile fh) c = some (r, w')) :
    w' = w ∨ w' = { w with files := w.files.set fh none } := by
  rcases exec_cases h with ⟨e, -, -, rfl⟩ | hp
  · exact Or.inl rfl
  · simp only [perform, NodeOp.answerOnly, performLink, Link.perform, performFile,
      Option.some.injEq, Prod.mk.injEq] at hp
    exact Or.inr hp.2.symm

/-- What a downloader can do. -/
theorem move_cases {m : DownloaderMove} {w w' : DownloadWorld} (h : w.move m = some w') :
    (∃ raw rest, w.peer.owes = none ∧ w.link.toPeer = raw :: rest ∧
        w' = { w with link := { w.link with toPeer := rest }, peer := w.peer.receive raw }) ∨
      ∃ o, w.peer.owes = some o ∧
        w' = { w with link := { w.link with toNode := w.link.toNode ++ [FrameCodec.encode o] },
                      peer := { w.peer with owes := none } } := by
  unfold move at h
  split at h
  · next raw rest howes hq => exact Or.inl ⟨raw, rest, howes, hq, (Option.some.inj h).symm⟩
  · next o howes => exact Or.inr ⟨o, howes, (Option.some.inj h).symm⟩
  · exact absurd h (by simp)

/-- A move touches only the peer and the frames in flight. -/
theorem move_frame {m : DownloaderMove} {w w' : DownloadWorld} (h : w.move m = some w') :
    w'.disk = w.disk ∧ w'.files = w.files ∧ w'.fresh = w.fresh := by
  rcases move_cases h with ⟨raw, rest, -, -, rfl⟩ | ⟨o, -, rfl⟩
  · exact ⟨rfl, rfl, rfl⟩
  · exact ⟨rfl, rfl, rfl⟩

end DownloadWorld
