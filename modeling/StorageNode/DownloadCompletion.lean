/-
# Every download completes

`FragmentSender.send_data` against a downloader that keeps going, over a connection that may
break once while data is sent: the node is never stuck, and ends with the whole shard in the
downloader's hands and its socket and file closed.

* `Linked` : a shape of the connection, on a bound socket;
* `Reads` : the one open handle, and where it stands;
* `total_transmitLoop` : a pass ends within `|F| + 1` rounds;
* `download_completes` : every run of `send_data` comes to its end.
-/
import StorageNode.LiveDownload

open DownloadWorld
open Transfer (slice)

namespace LiveDownload

open Download (Holds Off Bound Asked Ahead Level Sent Final Early)

/-! ## The connection -/

/-- A shape of the connection, on a bound socket that is not the first one to come. -/
def Linked (L : DownloadWorld → Prop) (w : DownloadWorld) : Prop :=
  L w ∧ w.link.bound = some true ∧ w.fresh = false

section Connection

variable {F : Bytes} {L : DownloadWorld → Prop} {w w' : DownloadWorld}

theorem link_bound_move {m : DownloaderMove} (h : w.move m = some w') :
    w'.link.bound = w.link.bound := by
  rcases move_cases h with ⟨raw, rest, -, -, rfl⟩ | ⟨o, -, rfl⟩ <;> rfl

theorem Kept.linked (hL : Kept L) : Kept (Linked L) := by
  rintro w w' m ⟨hl, hb, hf⟩ hm
  exact ⟨hL w w' m hl hm, (link_bound_move hm).trans hb, (move_frame hm).2.2.trans hf⟩

theorem OnPeer.linked (hL : OnPeer L) : OnPeer (Linked L) := by
  rintro w w' hlink hpeer hfresh ⟨hl, hb, hf⟩
  exact ⟨hL w w' hlink hpeer hfresh hl, hlink ▸ hb, hfresh.trans hf⟩

theorem linked_mono {L' : DownloadWorld → Prop} (h : ∀ w, L w → L' w) (hw : Linked L w) :
    Linked L' w :=
  ⟨h w hw.1, hw.2⟩

theorem kept_off (d : ℕ) : Kept (Off F d) := fun _ _ _ h hm => Download.off_move h hm

theorem kept_bound (d : ℕ) (r : Bool) : Kept (Bound F d r) :=
  fun _ _ _ h hm => Download.bound_move h hm

theorem kept_asked (d : ℕ) : Kept (Asked F d) := fun _ _ _ h hm => Download.asked_move h hm

theorem kept_level (d : ℕ) : Kept (Level F d) := fun _ _ _ h hm => Download.level_move h hm

theorem kept_sent (d n : ℕ) : Kept (Sent F d n) := fun _ _ _ h hm => Download.sent_move h hm

theorem kept_early : Kept (Early F) := fun _ _ _ h hm => Download.early_move h hm

theorem kept_final : Kept (Final F) := fun _ _ _ h hm => Download.final_move h hm

theorem onPeer_asked (d : ℕ) : OnPeer (Asked F d) := by
  rintro w w' hlink hpeer - h
  unfold Asked
  rw [hlink, hpeer]
  exact h

theorem onPeer_level (d : ℕ) : OnPeer (Level F d) := by
  rintro w w' hlink hpeer - h
  unfold Level Ahead
  rw [hlink, hpeer]
  exact h

/-- The downloader answers the start frame. -/
theorem asked_can {d : ℕ} (h : Asked F d w) :
    (∃ r w', w.performLink .recv = some (r, w')) ∨ ∃ m w', w.move m = some w' := by
  obtain ⟨-, -, ⟨hq, howes, -⟩ | ⟨-, howes, -⟩ | ⟨-, -, hn⟩⟩ := h
  · exact Or.inr ⟨.take, _, by simp only [move, howes, hq]; rfl⟩
  · exact Or.inr ⟨.answer, _, by simp only [move, howes]; rfl⟩
  · exact Or.inl ⟨_, _, by simp only [performLink, Link.perform, hn]; rfl⟩

/-- The downloader acknowledges the slice. -/
theorem sent_can {d n : ℕ} (h : Sent F d n w) :
    (∃ r w', w.performLink .recv = some (r, w')) ∨ ∃ m w', w.move m = some w' := by
  obtain ⟨-, ⟨-, howes, -, q, -, hq⟩ | ⟨-, -, ⟨howes, -⟩ | ⟨-, hn⟩⟩⟩ := h
  · cases hto : w.link.toPeer with
    | nil => simp [hto] at hq
    | cons raw rest => exact Or.inr ⟨.take, _, by simp only [move, howes, hto]; rfl⟩
  · exact Or.inr ⟨.answer, _, by simp only [move, howes]; rfl⟩
  · exact Or.inl ⟨_, _, by simp only [performLink, Link.perform, hn]; rfl⟩

/-- A frame can be sent on a bound socket. -/
theorem send_can {raw : Raw} (hb : w.link.bound = some true) :
    ∃ r w', w.performLink (.send raw) = some (r, w') := by
  simp only [performLink, Link.perform, hb, if_true]
  exact ⟨_, _, rfl⟩

/-- Sending and receiving keep the socket. -/
theorem linked_of_send {L' : DownloadWorld → Prop} {raw : Raw} {r : Except Exn Unit}
    (hw : Linked L w) (h : w.performLink (.send raw) = some (r, w')) (hl : L' w') :
    Linked L' w' := by
  rw [Download.performLink_send h] at hl ⊢
  exact ⟨hl, hw.2⟩

theorem linked_of_recv {L' : DownloadWorld → Prop} {r : Except Exn Raw} (hw : Linked L w)
    (h : w.performLink .recv = some (r, w')) (hl : L' w') : Linked L' w' := by
  obtain ⟨raw, rest, -, -, rfl⟩ := Download.performLink_recv h
  exact ⟨hl, hw.2⟩

end Connection

/-! ## The session -/

section Session

variable {F : Bytes} {σ : Phase} {A L : DownloadWorld → Prop}

/-- From `A` in the phase `σ`, the program returns in `B` in the same phase. -/
def Returns {α : Type} (σ : Phase) (A : DownloadWorld → Prop) (p : Node α)
    (B : α → DownloadWorld → Prop) : Prop :=
  machine.Total (At σ A) p (fun a => At σ (B a)) (fun _ => False)

/-- `ZmqSessionManager.open`, with a downloader that holds `d` bytes. -/
theorem total_openSocket (hA : OnDisk A) (d : ℕ) (fresh : Bool) (address : String) (port : Json) :
    Returns σ (fun w => (Off F d w ∧ w.fresh = fresh) ∧ A w)
      (ZmqSessionManager.openSocket address port)
      (fun _ w => Linked (Bound F d (!fresh)) w ∧ A w) := by
  have hbefore : Kept (fun w => Off F d w ∧ w.fresh = fresh) :=
    fun w w' m h hm => ⟨kept_off d w w' m h.1 hm, (move_frame hm).2.2.trans h.2⟩
  refine Machine.total_bind (total_session (o := .newSocket) rfl rfl rfl hbefore
    (fun _ => hbefore) hA (fun _ _ => ⟨_, _, rfl⟩) ?_) fun _ =>
    total_session (o := .bindSocket address port) rfl rfl rfl hbefore
      (fun _ => (kept_bound d _).linked) hA (fun _ _ => ⟨_, _, rfl⟩) ?_
  · exact fun w a w' hw hl => ⟨Download.off_of_holds_fresh (Or.inl rfl) hw.1.1 hl,
      (Download.performLink_fresh (Or.inl rfl) hl).2.2.trans hw.2⟩
  · intro w a w' hw hl
    obtain ⟨hbound, hfresh⟩ := Download.bound_of_off hw.1 hl
    rw [hw.2] at hbound
    refine ⟨hbound, ?_, hfresh⟩
    simp only [performLink, Link.perform, Option.some.injEq, Prod.mk.injEq] at hl
    rw [← hl.2]

/-- A closed session: the downloader can do nothing. -/
def Shut (L : DownloadWorld → Prop) (w : DownloadWorld) : Prop :=
  L w ∧ w.link = {} ∧ w.peer.owes = none ∧ w.fresh = false

theorem kept_shut : Kept (Shut L) := by
  rintro w w' m ⟨-, hlink, howes, -⟩ hm
  rcases move_cases hm with ⟨raw, rest, -, hq, -⟩ | ⟨o, howes', -⟩
  · rw [hlink] at hq
    exact absurd hq (by simp)
  · rw [howes] at howes'
    exact absurd howes' (by simp)

/-- `ZmqSessionManager.close` of an open session. -/
theorem total_close (hL : Kept L) (hA : OnDisk A) {B : DownloadWorld → Prop}
    (h : ∀ w a w', L w → w.performLink .closeSocket = some (.ok a, w') → B w') :
    Returns σ (fun w => Linked L w ∧ A w) ZmqSessionManager.close
      (fun _ w => Shut B w ∧ A w) := by
  refine Machine.total_bind (total_session (o := .hasSocket) (B := fun b w => b = true ∧ Linked L w)
    rfl rfl rfl hL.linked (fun _ => (kept_const _).and hL.linked) hA
    (fun _ _ => ⟨_, _, rfl⟩) ?_) fun b => total_pre (P := fun w => b = true ∧ Linked L w ∧ A w)
      (fun w hw => ⟨hw.1.1, hw.1.2, hw.2⟩) (total_pure fun hb => ?_)
  · intro w b w' hw hl
    simp only [performLink, Link.perform, Option.some.injEq, Prod.mk.injEq, Except.ok.injEq] at hl
    obtain ⟨rfl, rfl⟩ := hl
    exact ⟨by rw [hw.2.1]; rfl, hw⟩
  · subst hb
    simp only [if_true]
    refine total_session (o := .closeSocket) rfl rfl rfl hL.linked (fun _ => kept_shut) hA
      (fun _ _ => ⟨_, _, rfl⟩) ?_
    intro w a w' hw hl
    obtain ⟨hpeer, -, hfresh⟩ := Download.performLink_fresh (Or.inr rfl) hl
    refine ⟨h w a w' hw.1 hl, ?_, by rw [hpeer], hfresh.trans hw.2.2⟩
    simp only [performLink, Link.perform, Option.some.injEq, Prod.mk.injEq] at hl
    rw [← hl.2]

/-- `ZmqSessionManager.configure_timeouts`. -/
theorem total_configureTimeouts (hL : Kept L) (hA : OnDisk A) (sendMs recvMs : ℕ) :
    Returns σ (fun w => L w ∧ A w) (ZmqSessionManager.configureTimeouts sendMs recvMs)
      (fun _ w => L w ∧ A w) := by
  have hsame : ∀ {o : NodeOp} {w w' : DownloadWorld} {r : Except Exn o.Res}, o = .hasSocket ∨
      (∃ m n, o = .setTimeouts m n) → w.performLink o = some (r, w') → w' = w := by
    rintro o w w' r (rfl | ⟨m, n, rfl⟩) hl
    all_goals
      simp only [performLink, Link.perform, Option.some.injEq, Prod.mk.injEq] at hl
      exact hl.2.symm
  refine Machine.total_bind (total_session (o := .hasSocket) rfl rfl rfl hL (fun _ => hL) hA
    (fun _ _ => ⟨_, _, rfl⟩) fun w a w' hw hl => hsame (Or.inl rfl) hl ▸ hw) fun b => ?_
  split
  · exact total_session (o := .setTimeouts sendMs recvMs) rfl rfl rfl hL (fun _ => hL) hA
      (fun _ _ => ⟨_, _, rfl⟩) fun w a w' hw hl => hsame (Or.inr ⟨_, _, rfl⟩) hl ▸ hw
  · exact Machine.total_ret (stable_at (hL.and hA.kept)) fun _ hv => hv

/-- `ZmqSessionManager.reset`, to reconnect a downloader. -/
theorem total_reset (hA : OnDisk A) (address : String) (port : Json) :
    Returns σ (fun w => Linked (Early F) w ∧ A w) (ZmqSessionManager.reset address port)
      (fun _ w => (∃ d, Linked (Bound F d true) w) ∧ A w) := by
  refine Machine.total_bind (total_close kept_early hA
    (B := fun w => ∃ d, Off F d w) fun w a w' hw hl => Download.off_of_early_fresh (Or.inr rfl) hw hl) fun _ => ?_
  refine total_pre (P := fun w => ∃ d, (Off F d w ∧ w.fresh = false) ∧ A w) ?_
    (total_exists fun d => ?_)
  · rintro w ⟨⟨⟨d, hoff⟩, -, -, hfresh⟩, ha⟩
    exact ⟨d, ⟨hoff, hfresh⟩, ha⟩
  · exact Machine.total_mono (fun _ hv => hv)
      (fun _ v hv => at_mono (fun w h => ⟨⟨d, h.1⟩, h.2⟩) hv) (fun _ hv => hv)
      (total_openSocket hA d false address port)

/-- `_emit_start_signal`. -/
theorem total_emitStartSignal {L' : DownloadWorld → Prop} (hL : Kept L) (hL' : Kept L')
    (hA : OnDisk A)
    (h : ∀ w w', L w →
      w.performLink (.send (FrameCodec.encode startFrame)) = some (.ok (), w') → L' w') :
    Returns σ (fun w => Linked L w ∧ A w) emitStartSignal (fun _ w => Linked L' w ∧ A w) := by
  refine total_session (o := .send (FrameCodec.encode startFrame)) rfl (by decide) rfl hL.linked
    (fun _ => hL'.linked) hA (fun w hw => send_can hw.2.1) ?_
  exact fun w a w' hw hl => linked_of_send hw hl (h w w' hw.1 hl)

end Session

/-! ## The shard file -/

section File

variable {F : Bytes} {d₀ : Disk} {path : PyStr} {ino : ℕ} {σ : Phase}
  {L : DownloadWorld → Prop}

/-- The disk is as it was, and no file has been opened. -/
def Unopened (d₀ : Disk) (w : DownloadWorld) : Prop := w.disk = d₀ ∧ w.files = []

/-- The disk is as it was, and the one handle `fh` reads the file `ino` from `p` on. -/
def Reads (d₀ : Disk) (ino fh p : ℕ) (w : DownloadWorld) : Prop :=
  w.disk = d₀ ∧ fh = 0 ∧ ∃ f, w.files = [some f] ∧ f.inode = ino ∧ f.pos = p

/-- The one handle is open. -/
def Opened (d₀ : Disk) (ino fh : ℕ) (w : DownloadWorld) : Prop := ∃ p, Reads d₀ ino fh p w

/-- The one handle is closed. -/
def Closed (d₀ : Disk) (w : DownloadWorld) : Prop := w.disk = d₀ ∧ w.files = [none]

theorem onDisk_unopened : OnDisk (Unopened d₀) :=
  fun _ _ hdisk hfiles h => ⟨hdisk.trans h.1, hfiles.trans h.2⟩

theorem onDisk_reads (fh p : ℕ) : OnDisk (Reads d₀ ino fh p) := by
  rintro w w' hdisk hfiles ⟨hd, hfh, f, hf, h⟩
  exact ⟨hdisk.trans hd, hfh, f, hfiles.trans hf, h⟩

theorem onDisk_opened (fh : ℕ) : OnDisk (Opened d₀ ino fh) :=
  fun w w' hdisk hfiles ⟨p, h⟩ => ⟨p, onDisk_reads fh p w w' hdisk hfiles h⟩

theorem onDisk_closed : OnDisk (Closed d₀) :=
  fun _ _ hdisk hfiles h => ⟨hdisk.trans h.1, hfiles.trans h.2⟩

/-- The open handle. -/
theorem file?_of_reads {fh p : ℕ} {w : DownloadWorld} (h : Reads d₀ ino fh p w) :
    ∃ f, w.file? fh = some f ∧ f.inode = ino ∧ f.pos = p ∧ ∀ x, w.files.set fh x = [x] := by
  obtain ⟨-, rfl, f, hf, hino, hpos⟩ := h
  exact ⟨f, by simp [file?, hf], hino, hpos, fun x => by simp [hf]⟩

/-- `open(path, "rb")`. -/
theorem total_openFile (hlookup : d₀.lookup path = some ino) (hL : Kept L) (hlocal : OnPeer L) :
    Returns σ (fun w => L w ∧ Unopened d₀ w) (op (.openFile path .rb))
      (fun fh w => L w ∧ Reads d₀ ino fh 0 w) := by
  refine total_sure (by simp [Phase.mayFail, NodeOp.sendsData, NodeOp.inTransmit])
    (total_onFile (o := .openFile path .rb) rfl hL hlocal onDisk_unopened
      (fun fh => onDisk_reads fh 0) ?_ ?_)
  · rintro w ⟨rfl, -⟩
    simp only [performFile, Disk.openFile_rb hlookup, Option.map_some]
    exact ⟨_, _, rfl⟩
  · rintro w fh w' ⟨rfl, hfiles⟩ hp
    simp only [performFile, Disk.openFile_rb hlookup, Option.map_some, Option.some.injEq,
      Prod.mk.injEq, Except.ok.injEq, hfiles] at hp
    obtain ⟨rfl, rfl⟩ := hp
    exact ⟨rfl, rfl, _, rfl, rfl, rfl⟩

/-- `fh.seek(d, 0)`. -/
theorem total_seek (hL : Kept L) (hlocal : OnPeer L) (fh d : ℕ) :
    Returns σ (fun w => L w ∧ Opened d₀ ino fh w) (op (.seek fh d))
      (fun _ w => L w ∧ Reads d₀ ino fh d w) := by
  refine total_sure (by simp [Phase.mayFail, NodeOp.sendsData, NodeOp.inTransmit])
    (total_onFile (o := .seek fh d) rfl hL hlocal (onDisk_opened fh)
      (fun _ => onDisk_reads fh d) ?_ ?_)
  · rintro w ⟨p, h⟩
    obtain ⟨f, hf, -⟩ := file?_of_reads h
    simp only [performFile, hf, if_pos (Int.natCast_nonneg d)]
    exact ⟨_, _, rfl⟩
  · rintro w a w' ⟨p, h⟩ hp
    obtain ⟨f, hf, hino, hpos, hset⟩ := file?_of_reads h
    simp only [performFile, hf, if_pos (Int.natCast_nonneg d), hset, Option.some.injEq,
      Prod.mk.injEq] at hp
    obtain ⟨-, rfl⟩ := hp
    exact ⟨h.1, h.2.1, _, rfl, hino, Int.toNat_natCast d⟩

/-- `fh.close()`. -/
theorem total_closeFile (hL : Kept L) (hlocal : OnPeer L) (fh : ℕ) :
    Returns σ (fun w => L w ∧ Opened d₀ ino fh w) (op (.closeFile fh))
      (fun _ w => L w ∧ Closed d₀ w) := by
  refine total_sure (by simp [Phase.mayFail, NodeOp.sendsData, NodeOp.inTransmit])
    (total_onFile (o := .closeFile fh) rfl hL hlocal (onDisk_opened fh) (fun _ => onDisk_closed)
      (fun _ _ => ⟨_, _, rfl⟩) ?_)
  rintro w a w' ⟨p, h⟩ hp
  obtain ⟨f, -, -, -, hset⟩ := file?_of_reads h
  simp only [performFile, hset, Option.some.injEq, Prod.mk.injEq] at hp
  obtain ⟨-, rfl⟩ := hp
  exact ⟨h.1, rfl⟩

/-- The chunk in hand: the stretch of `F` at `p`, and empty only at the end. -/
def Chunk (F chunk : Bytes) (p : ℕ) : Prop :=
  chunk = slice F p chunk.length ∧ p + chunk.length ≤ F.length ∧ (chunk = [] → p = F.length)

/-- `fh.read(n)` at the offset where both ends stand. -/
theorem total_read (hF : d₀.data ino = F) {n : ℕ} (hn : 0 < n) (fh : ℕ) {p : ℕ}
    (hp : p ≤ F.length) (hL : Kept L) (hlocal : OnPeer L) :
    machine.Total (At σ (fun w => L w ∧ Reads d₀ ino fh p w)) (op (.read fh n))
      (fun chunk => At σ (fun w => L w ∧ Chunk F chunk p ∧ Reads d₀ ino fh (p + chunk.length) w))
      (Broken σ (.read fh n) fun w => L w ∧ Reads d₀ ino fh p w) := by
  refine total_onFile (o := .read fh n) rfl hL hlocal (onDisk_reads fh p)
    (B := fun chunk w => Chunk F chunk p ∧ Reads d₀ ino fh (p + chunk.length) w) (fun chunk => ?_)
    ?_ ?_
  · exact fun w w' hdisk hfiles h => ⟨h.1, onDisk_reads fh _ w w' hdisk hfiles h.2⟩
  · intro w h
    obtain ⟨f, hf, -⟩ := file?_of_reads h
    simp only [performFile, hf, Option.map_some]
    exact ⟨_, _, rfl⟩
  · intro w chunk w' h hr
    obtain ⟨f, hf, hino, hpos, hset⟩ := file?_of_reads h
    simp only [performFile, hf, hset, Option.map_some, Option.some.injEq, Prod.mk.injEq,
      Except.ok.injEq] at hr
    obtain ⟨hchunk, rfl⟩ := hr
    have hslice : chunk = slice F p n := by
      rw [← hchunk, OpenFile.read, h.1, hino, hF, hpos]
      rfl
    obtain ⟨hown, hle, hend⟩ := Download.slice_facts (n := n) hp
    rw [hslice]
    refine ⟨⟨hown, hle, hend hn⟩, h.1, h.2.1, _, rfl, hino, ?_⟩
    show f.pos + (f.read n w.disk).1.length = p + (slice F p n).length
    rw [hchunk, hslice, hpos]

/-! ## The negotiation -/

/-- Both ends stand at the same offset of `F`. -/
def LevelAt (F : Bytes) (d₀ : Disk) (ino fh : ℕ) (w : DownloadWorld) : Prop :=
  ∃ p, p ≤ F.length ∧ Linked (Level F p) w ∧ Reads d₀ ino fh p w

theorem kept_levelAt (fh : ℕ) : Kept (LevelAt F d₀ ino fh) :=
  Kept.exists fun p => (kept_const _).and ((kept_level p).linked.and (onDisk_reads fh p).kept)

/-- **`_negotiate_resume_point`** puts the cursor where the downloader stands. -/
theorem total_negotiateResumePoint (hsafe : (σ.spare && σ.sending) = false) (fh d : ℕ) :
    Returns σ (fun w => Linked (Asked F d) w ∧ Opened d₀ ino fh w)
      (FragmentSender.negotiateResumePoint fh) (fun _ => LevelAt F d₀ ino fh) := by
  have hmay : ∀ o : NodeOp, o.sendsData = false → σ.mayFail o = false := by
    intro o ho
    rw [Phase.mayFail, ho, Bool.false_or, ← Bool.and_assoc, hsafe, Bool.false_and]
  refine Machine.total_bind (total_sure (hmay .recv rfl) (total_onLink (o := .recv)
    (B := fun raw w => raw = FrameCodec.encode (resumeFrame d) ∧ Linked (Level F d) w) rfl
    (kept_asked d).linked (fun raw => (kept_const _).and (kept_level d).linked) (onDisk_opened fh)
    (fun w hw => asked_can hw.1) ?_)) fun raw => ?_
  · intro w raw w' hw hl
    obtain ⟨hraw, hlevel⟩ := Download.level_of_asked hw.1 hl
    exact ⟨Except.ok.inj hraw, linked_of_recv hw hl hlevel⟩
  · refine total_pre (P := fun w => raw = FrameCodec.encode (resumeFrame d) ∧
      Linked (Level F d) w ∧ Opened d₀ ino fh w) (fun w h => ⟨h.1.1, h.1.2, h.2⟩)
      (total_pure fun hraw => ?_)
    subst hraw
    refine Machine.total_bind (total_sure (hmay _ rfl) (total_pickleLoads
      ((kept_level d).linked.and (onDisk_opened fh).kept) (resumeFrame d))) fun obj =>
      Machine.total_pure fun hobj => ?_
    subst hobj
    have hdata : (resumeFrame d).getItem "data" = .ok (.int d) := rfl
    simp only [hdata, Prog.ofExcept, Prog.bind_eq, Prog.ret_bind]
    exact Machine.total_mono (fun _ hv => hv)
      (fun _ v hv => at_mono (fun w h => ⟨d, h.1.1.1.le, h⟩) hv) (fun _ hv => hv)
      (total_seek (kept_level d).linked (onPeer_level d).linked fh d)

/-- **`_attempt_reconnect`** succeeds. -/
theorem total_attemptReconnect (hspare : σ.spare = false) (cfg : Config) (port : Json) (fh : ℕ) :
    machine.Total (At σ fun w => Linked (Early F) w ∧ Opened d₀ ino fh w)
      (FragmentSender.attemptReconnect cfg port fh)
      (fun reconnected v => reconnected = true ∧ At σ (LevelAt F d₀ ino fh) v)
      (fun _ => False) := by
  have hbound : Kept (fun w => ∃ d, Linked (Bound F d true) w) :=
    Kept.exists fun d => (kept_bound d true).linked
  refine Machine.total_tryExcept (E := fun _ => False) ?_ fun e v hv => hv.elim
  refine Machine.total_bind (total_reset (onDisk_opened fh) _ _) fun _ => ?_
  refine Machine.total_bind (total_configureTimeouts hbound (onDisk_opened fh) _ _) fun _ => ?_
  refine total_pre (P := fun w => ∃ d, Linked (Bound F d true) w ∧ Opened d₀ ino fh w)
    (fun w h => h.1.imp fun d hd => ⟨hd, h.2⟩) (total_exists fun d => ?_)
  refine Machine.total_bind (total_emitStartSignal (kept_bound d true) (kept_asked d)
    (onDisk_opened fh) fun w w' hw hl => Download.asked_of_bound hw hl) fun _ => ?_
  refine Machine.total_bind (total_negotiateResumePoint (by rw [hspare]; rfl) fh d) fun _ => ?_
  refine Machine.total_bind (total_pre (P := fun w => LevelAt F d₀ ino fh w ∧ True)
    (fun w h => ⟨h, trivial⟩) (total_configureTimeouts (kept_levelAt fh)
      (fun _ _ _ _ h => h) _ _)) fun _ => ?_
  exact Machine.total_ret (stable_at ((kept_levelAt fh).and (kept_const True)))
    fun v hv => ⟨rfl, at_mono (fun w h => h.1) hv⟩

/-! ## The passes -/

variable (F d₀ ino) in
/-- The chunk in hand, at `p`, with the cursor behind it. -/
def Chunked (fh : ℕ) (chunk : Bytes) (p : ℕ) (w : DownloadWorld) : Prop :=
  Linked (Level F p) w ∧ Chunk F chunk p ∧ Reads d₀ ino fh (p + chunk.length) w

theorem kept_chunked (fh : ℕ) (chunk : Bytes) (p : ℕ) : Kept (Chunked F d₀ ino fh chunk p) :=
  (kept_level p).linked.and ((kept_const _).and (onDisk_reads fh _).kept)

variable (F d₀ ino) in
/-- The connection broke, and cannot break again. -/
def Interrupted (spare : Bool) (fh : ℕ) (v : LiveDownload) : Prop :=
  spare = true ∧ ∃ σ : Phase, σ.spare = false ∧
    At σ (fun w => Linked (Early F) w ∧ Opened d₀ ino fh w) v

theorem stable_interrupted (spare : Bool) (fh : ℕ) :
    machine.Stable (Interrupted F d₀ ino spare fh) := by
  rintro v v' ⟨hspare, σ, hσ, hv⟩ henv
  exact ⟨hspare, σ, hσ, stable_at (kept_early.linked.and (onDisk_opened fh).kept) v v' hv henv⟩

theorem interrupted_of_broken {o : NodeOp} {A : DownloadWorld → Prop} {fh : ℕ} {v : LiveDownload}
    (h : ∀ w, A w → Linked (Early F) w ∧ Opened d₀ ino fh w) (hv : Broken σ o A v) :
    Interrupted F d₀ ino σ.spare fh v :=
  ⟨(Bool.and_eq_true_iff.mp hv.1).1, σ.broken, rfl, at_mono h hv.2⟩

/-- **One chunk**: sent, acknowledged, and the next one read. -/
theorem total_transmitChunk (hF : d₀.data ino = F) (cfg : Config) (hchunk : 0 < cfg.chunkSize)
    (fh p : ℕ) (chunk : Bytes) :
    machine.Total (At σ (Chunked F d₀ ino fh chunk p)) (FragmentSender.transmitChunk cfg fh chunk)
      (fun next v => ∃ σ' : Phase, σ'.spare = σ.spare ∧
        At σ' (Chunked F d₀ ino fh next (p + chunk.length)) v)
      (Interrupted F d₀ ino σ.spare fh) := by
  refine total_pre (P := fun w => Chunk F chunk p ∧ Linked (Level F p) w ∧
    Reads d₀ ino fh (p + chunk.length) w) (fun w h => ⟨h.2.1, h.1, h.2.2⟩) (total_pure fun hc => ?_)
  obtain ⟨hslice, hle, -⟩ := hc
  have hreads : OnDisk (Reads d₀ ino fh (p + chunk.length)) := onDisk_reads fh _
  refine Machine.total_bind (Machine.total_mono (fun _ hv => hv) (fun _ _ hv => hv)
    (fun v hv => interrupted_of_broken (fun w h => ⟨linked_mono (fun _ h => h.early) h.1, _, h.2⟩) hv)
    (total_onLink (o := .send (FrameCodec.encode (dataFrame chunk)))
      (B := fun _ => Linked (Sent F p chunk.length)) rfl (kept_level p).linked
      (fun _ => (kept_sent p _).linked) hreads (fun w hw => Or.inl (send_can hw.2.1)) ?_)) fun _ => ?_
  · intro w a w' hw hl
    refine linked_of_send hw hl ?_
    rw [hslice] at hl
    exact Download.sent_of_level hw.1 hle hl
  -- from now on the connection may break at any operation
  generalize hσ' : σ.after (.send (FrameCodec.encode (dataFrame chunk))) = σ'
  have hspare : σ'.spare = σ.spare := by
    rw [← hσ', Phase.after]
    split <;> rfl
  rw [← hspare]
  refine Machine.total_bind (Machine.total_mono (fun _ hv => hv) (fun _ _ hv => hv)
    (fun v hv => interrupted_of_broken (fun w h => ⟨linked_mono (fun _ h => h.early) h.1, _, h.2⟩) hv)
    (total_onLink (o := .recv) (B := fun raw w => raw = FrameCodec.encode ackFrame ∧
      Linked (Level F (p + chunk.length)) w) rfl (kept_sent p _).linked
      (fun _ => (kept_const _).and (kept_level _).linked) hreads (fun w hw => sent_can hw.1) ?_))
    fun raw => ?_
  · intro w raw w' hw hl
    obtain ⟨hraw, hlevel⟩ := Download.level_of_sent hw.1 hl
    exact ⟨Except.ok.inj hraw, linked_of_recv hw hl hlevel⟩
  refine total_pre (P := fun w => raw = FrameCodec.encode ackFrame ∧
    Linked (Level F (p + chunk.length)) w ∧ Reads d₀ ino fh (p + chunk.length) w)
    (fun w h => ⟨h.1.1, h.1.2, h.2⟩) (total_pure fun hraw => ?_)
  subst hraw
  refine Machine.total_bind (Machine.total_mono (fun _ hv => hv) (fun _ _ hv => hv)
    (fun v hv => interrupted_of_broken (fun w h => ⟨linked_mono (fun _ h => h.early) h.1, _, h.2⟩) hv)
    (total_pickleLoads ((kept_level _).linked.and hreads.kept) ackFrame)) fun obj =>
    Machine.total_pure fun _ => ?_
  exact Machine.total_mono (fun _ hv => hv) (fun next v hv => ⟨σ', rfl, hv⟩)
    (fun v hv => interrupted_of_broken (fun w h => ⟨linked_mono (fun _ h => h.early) h.1, _, h.2⟩) hv)
    (total_read hF hchunk fh hle (kept_level _).linked (onPeer_level _).linked)

/-- One chunk of a pass raises only `Exception`s when its operations do. -/
theorem raises_transmitChunk (cfg : Config) (fh : ℕ) (chunk : Bytes) :
    (FragmentSender.transmitChunk cfg fh chunk).Raises fun e => e.isException = true := by
  refine Prog.raises_bind (Prog.raises_perform _) fun _ => ?_
  refine Prog.raises_bind (Prog.raises_perform _) fun raw => ?_
  refine Prog.raises_bind (Prog.raises_perform _) fun obj => ?_
  exact Prog.raises_perform _

variable (F d₀ ino) in
/-- What a pass leaves: both ends at the end, or a connection that broke. -/
def Passed (spare : Bool) (fh : ℕ) (completed : Bool) (v : LiveDownload) : Prop :=
  match completed with
  | true => ∃ σ, At σ (fun w => Linked (Level F F.length) w ∧ Opened d₀ ino fh w) v
  | false => Interrupted F d₀ ino spare fh v

variable (F d₀ ino) in
/-- What one round of a pass that stood at `p` leaves. -/
def Round (spare : Bool) (fh p : ℕ) (next : Option Bytes) (v : LiveDownload) : Prop :=
  match next with
  | some chunk => ∃ q σ, (p < q ∧ σ.spare = spare) ∧ At σ (Chunked F d₀ ino fh chunk q) v
  | none => Interrupted F d₀ ino spare fh v

/-- **A pass ends**: every chunk takes both ends further, so that `|F| + 1` rounds are
enough. -/
theorem total_transmitLoop (hF : d₀.data ino = F) (cfg : Config) (hchunk : 0 < cfg.chunkSize)
    (fh : ℕ) {fuel p : ℕ} (hfuel : F.length < p + fuel) (chunk : Bytes) :
    machine.Total (At σ (Chunked F d₀ ino fh chunk p))
      (FragmentSender.transmitLoop cfg fh fuel chunk) (Passed F d₀ ino σ.spare fh)
      (fun _ => False) := by
  induction fuel generalizing p chunk σ with
  | zero =>
      intro v hv
      have hle := hv.1.2.1.2.1
      omega
  | succ fuel ih =>
      unfold FragmentSender.transmitLoop
      split
      · next hnil =>
          subst hnil
          refine Machine.total_ret (stable_at (kept_chunked fh [] p)) fun v hv => ⟨σ, ?_⟩
          refine at_mono (fun w h => ?_) hv
          obtain ⟨hl, ⟨-, -, hend⟩, hr⟩ := h
          rw [← hend rfl]
          exact ⟨hl, _, hr⟩
      · next hne =>
          refine Machine.total_bind (B := Round F d₀ ino σ.spare fh p) ?_ fun next => ?_
          · refine Machine.total_tryExcept_raises (fun _ _ _ _ => isException_of_exec)
              (Prog.raises_bind (raises_transmitChunk cfg fh chunk) fun _ => trivial)
              (Machine.total_bind (total_transmitChunk hF cfg hchunk fh p chunk)
                fun next => ?_) fun e he => ?_
            · refine Machine.total_exists fun σ' => Machine.total_pure fun hσ' => ?_
              refine Machine.total_ret (stable_at (kept_chunked fh next _)) fun v hv => ?_
              have hpos : 0 < chunk.length := List.length_pos_iff.mpr hne
              exact ⟨p + chunk.length, σ', ⟨by omega, hσ'⟩, hv⟩
            · rw [if_pos he]
              exact Machine.total_ret (stable_interrupted _ fh) fun _ hv => hv
          · cases next with
            | none => exact Machine.total_ret (stable_interrupted _ fh) fun _ hv => hv
            | some chunk' =>
                refine Machine.total_exists fun q => Machine.total_exists fun σ' =>
                  Machine.total_pure fun h => ?_
                rw [← h.2]
                exact ih (by omega) chunk'

/-- `_transmit_chunks`. -/
theorem total_transmitChunks (hF : d₀.data ino = F) (cfg : Config) (hchunk : 0 < cfg.chunkSize)
    {fuel : ℕ} (hfuel : F.length < fuel) (hsafe : (σ.spare && σ.sending) = false) (fh : ℕ) :
    machine.Total (At σ (LevelAt F d₀ ino fh)) (FragmentSender.transmitChunks cfg fuel fh)
      (Passed F d₀ ino σ.spare fh) (fun _ => False) := by
  refine total_exists fun p => total_pure fun hp => ?_
  refine Machine.total_bind (total_sure (by simp [Phase.mayFail, NodeOp.sendsData, hsafe,
    NodeOp.inTransmit]) (total_read hF hchunk fh hp (kept_level p).linked (onPeer_level p).linked))
    fun chunk => ?_
  exact total_transmitLoop hF cfg hchunk fh (by omega) chunk

/-! ## `send_data` -/

variable (F d₀ ino) in
/-- Everything is delivered and END is sent. -/
def Delivered (fh : ℕ) (v : LiveDownload) : Prop :=
  ∃ σ, At σ (fun w => Linked (Final F) w ∧ Opened d₀ ino fh w) v

/-- The END frame. -/
theorem total_sendEnd (spare : Bool) (fh : ℕ) :
    machine.Total (Passed F d₀ ino spare fh true)
      (do
        if ← op .hasSocket then op (.send (FrameCodec.encode endFrame)) else pure ())
      (fun _ => Delivered F d₀ ino fh) (fun _ => False) := by
  refine Machine.total_exists fun σ' => ?_
  have hlevel : Kept (Linked (Level F F.length)) := (kept_level _).linked
  refine Machine.total_bind (total_session (o := .hasSocket)
    (B := fun b w => b = true ∧ Linked (Level F F.length) w) rfl rfl rfl hlevel
    (fun _ => (kept_const _).and hlevel) (onDisk_opened fh) (fun _ _ => ⟨_, _, rfl⟩) ?_) fun b =>
    total_pre (P := fun w => b = true ∧ Linked (Level F F.length) w ∧ Opened d₀ ino fh w)
      (fun w h => ⟨h.1.1, h.1.2, h.2⟩) (total_pure fun hb => ?_)
  · intro w b w' hw hl
    simp only [performLink, Link.perform, Option.some.injEq, Prod.mk.injEq, Except.ok.injEq] at hl
    obtain ⟨rfl, rfl⟩ := hl
    exact ⟨by rw [hw.2.1]; rfl, hw⟩
  · subst hb
    simp only [if_true]
    refine Machine.total_mono (fun _ hv => hv) (fun _ v hv => ⟨σ', hv⟩) (fun _ hv => hv)
      (total_session (o := .send (FrameCodec.encode endFrame)) rfl (by decide) rfl hlevel
        (fun _ => kept_final.linked) (onDisk_opened fh) (fun w hw => send_can hw.2.1) ?_)
    exact fun w a w' hw hl => linked_of_send hw hl (Download.final_of_level hw.1 hl)

/-- **The two passes deliver everything**, whether the first breaks off or not. -/
theorem total_transmitPasses (hF : d₀.data ino = F) (cfg : Config) (hchunk : 0 < cfg.chunkSize)
    {fuel : ℕ} (hfuel : F.length < fuel) (hsending : σ.sending = false) (port : Json) (fh : ℕ) :
    machine.Total (At σ (LevelAt F d₀ ino fh)) (FragmentSender.transmitPasses cfg fuel port fh)
      (fun _ => Delivered F d₀ ino fh) (fun _ => False) := by
  refine Machine.total_bind (total_transmitChunks hF cfg hchunk hfuel
    (by rw [hsending, Bool.and_false]) fh) fun completed => ?_
  cases completed with
  | true => exact total_sendEnd σ.spare fh
  | false =>
      refine Machine.total_pure fun _ => Machine.total_exists fun σ' => Machine.total_pure fun hσ' =>
        ?_
      refine Machine.total_bind (total_attemptReconnect hσ' cfg port fh) fun reconnected =>
        Machine.total_pure fun hr => ?_
      subst hr
      refine Machine.total_bind (total_transmitChunks hF cfg hchunk hfuel (by rw [hσ']; rfl) fh)
        fun completed => ?_
      cases completed with
      | true => exact total_sendEnd σ'.spare fh
      | false =>
          intro v hv
          have hspare := hv.1
          rw [hσ'] at hspare
          exact absurd hspare (by simp)

theorem onPeer_final : OnPeer (Final F) := by
  rintro w w' hlink hpeer - h
  unfold Final
  rw [hlink, hpeer]
  exact h

variable (F d₀) in
/-- How `send_data` ends: the downloader has everything, and nothing is left open. -/
def Finished (v : LiveDownload) : Prop := ∃ σ, At σ (fun w => Shut (Final F) w ∧ Closed d₀ w) v

/-- What `send_data` does after the passes. -/
theorem total_sendCleanup (cfg : Config) (request : Dict) (port : Json) (fh : ℕ) :
    machine.Total (Delivered F d₀ ino fh)
      (do
        op (.closeFile fh)
        ZmqSessionManager.close
        closeRouterPort cfg port
        let _ ← op (.ledgerUnregister request)
        pure ())
      (fun _ => Finished F d₀) (fun _ => False) := by
  refine Machine.total_exists fun σ' => ?_
  have hshut : Kept (fun w => Shut (Final F) w ∧ Closed d₀ w) := kept_shut.and onDisk_closed.kept
  refine Machine.total_bind (total_closeFile kept_final.linked onPeer_final.linked fh) fun _ => ?_
  refine Machine.total_bind (total_close kept_final onDisk_closed (B := Final F) ?_) fun _ => ?_
  · intro w a w' hw hl
    obtain ⟨hpeer, hq, -⟩ := Download.performLink_fresh (Or.inr rfl) hl
    exact ⟨by rw [hpeer]; exact hw.1, by rw [hq]; simp⟩
  refine Machine.total_bind (B := fun _ => At σ' fun w => Shut (Final F) w ∧ Closed d₀ w) ?_
    fun _ => ?_
  · unfold closeRouterPort
    split
    · refine Machine.total_bind (total_outside rfl rfl hshut) fun _ => ?_
      exact Machine.total_ret (stable_at hshut) fun _ hv => hv
    · exact Machine.total_ret (stable_at hshut) fun _ hv => hv
  · refine Machine.total_bind (total_outside rfl rfl hshut) fun _ => ?_
    exact Machine.total_ret (stable_at hshut) fun v hv => ⟨σ', hv⟩

/-- **`send_data`** delivers the whole shard. -/
theorem total_sendData (hlookup : d₀.lookup path = some ino) (hF : d₀.data ino = F) (cfg : Config)
    (hchunk : 0 < cfg.chunkSize) {fuel : ℕ} (hfuel : F.length < fuel)
    (hsending : σ.sending = false) (request : Dict) (isNewTransfer : Bool) {shardId port : Json}
    {d : ℕ} (hshard : request.getItem "shard_id" = .ok shardId)
    (hpath : joinPath cfg.dataDirectory shardId = .ok path)
    (hport : request.getItem "port" = .ok port) (hnew : isNewTransfer = true → d = 0) :
    machine.Total (At σ fun w => (Off F d w ∧ w.fresh = isNewTransfer) ∧ Unopened d₀ w)
      (FragmentSender.sendData cfg fuel request isNewTransfer) (fun _ => Finished F d₀)
      (fun _ => False) := by
  have hrest : ∀ fh : ℕ, machine.Total (At σ (LevelAt F d₀ ino fh))
      (do
        ZmqSessionManager.configureTimeouts cfg.chunkTimeout cfg.chunkTimeout
        FragmentSender.transmitPasses cfg fuel port fh
        op (.closeFile fh)
        ZmqSessionManager.close
        closeRouterPort cfg port
        let _ ← op (.ledgerUnregister request)
        pure ())
      (fun _ => Finished F d₀) (fun _ => False) := by
    intro fh
    refine Machine.total_bind (total_pre (P := fun w => LevelAt F d₀ ino fh w ∧ True)
      (fun w h => ⟨h, trivial⟩) (total_configureTimeouts (kept_levelAt fh)
        (fun _ _ _ _ h => h) _ _)) fun _ => ?_
    refine Machine.total_bind (total_pre (fun w h => h.1)
      (total_transmitPasses hF cfg hchunk hfuel hsending port fh)) fun _ => ?_
    exact total_sendCleanup cfg request port fh
  have hbefore : Kept (fun w => Off F d w ∧ w.fresh = isNewTransfer) :=
    fun w w' m h hm => ⟨kept_off d w w' m h.1 hm, (move_frame hm).2.2.trans h.2⟩
  unfold FragmentSender.sendData
  simp only [hshard, hpath, hport, Prog.ofExcept, Prog.bind_eq, Prog.ret_bind]
  refine Machine.total_bind (total_sure (by simp [Phase.mayFail, NodeOp.sendsData,
    NodeOp.inTransmit]) (total_onFile (o := .isFile path)
      (B := fun found w => found = true ∧ Unopened d₀ w) rfl hbefore ?_ onDisk_unopened
      (fun found w w' hd hf h => ⟨h.1, onDisk_unopened w w' hd hf h.2⟩) (fun w _ => ⟨_, _, rfl⟩) ?_))
    fun found => total_pre (P := fun w => found = true ∧ (Off F d w ∧ w.fresh = isNewTransfer) ∧
      Unopened d₀ w) (fun w h => ⟨h.2.1, h.1, h.2.2⟩) (total_pure fun hfound => ?_)
  · rintro w w' hlink hpeer hfresh h
    unfold Off
    rw [hlink, hpeer, hfresh]
    exact h
  · rintro w found w' h hp
    simp only [performFile, h.1, hlookup, Option.some.injEq, Prod.mk.injEq, Except.ok.injEq] at hp
    obtain ⟨rfl, rfl⟩ := hp
    exact ⟨rfl, h⟩
  subst hfound
  rw [if_pos rfl]
  refine Machine.total_bind (total_openSocket onDisk_unopened d isNewTransfer _ _) fun _ => ?_
  cases isNewTransfer with
  | true =>
      obtain rfl := hnew rfl
      refine Machine.total_bind (total_emitStartSignal (kept_bound 0 false) (kept_level 0)
        onDisk_unopened fun w w' hw hl => Download.level_of_bound hw hl) fun _ => ?_
      refine Machine.total_bind (total_openFile hlookup (kept_level 0).linked
        (onPeer_level 0).linked) fun fh => ?_
      exact total_pre (fun w h => ⟨0, Nat.zero_le _, h⟩) (hrest fh)
  | false =>
      refine Machine.total_bind (total_emitStartSignal (kept_bound d true) (kept_asked d)
        onDisk_unopened fun w w' hw hl => Download.asked_of_bound hw hl) fun _ => ?_
      refine Machine.total_bind (total_openFile hlookup (kept_asked d).linked
        (onPeer_asked d).linked) fun fh => ?_
      refine Machine.total_bind (total_pre (fun w h => ⟨h.1, 0, h.2⟩)
        (total_negotiateResumePoint (by rw [hsending, Bool.and_false]) fh d)) fun _ => ?_
      exact hrest fh

end File

/-- **Every download completes.**  A download of a shard file that holds `F`, by a downloader
that keeps going and holds a beginning of `F` (nothing, when the transfer is new), over a
connection that breaks at most once, after the node began to send: however the operations
and the downloader's moves are ordered, `send_data` returns, with `F` in the downloader's
hands, the disk as it was, and the socket and the file closed. -/
theorem download_completes (F D : Bytes) (cfg : Config) (hchunk : 0 < cfg.chunkSize) (fuel : ℕ)
    (request : Dict) (shardId : PyStr) (port : Json) (isNewTransfer : Bool) (d : Disk)
    (spare : Bool) (hfuel : F.length < fuel)
    (hshard : request.getItem "shard_id" = .ok (.str shardId))
    (hport : request.getItem "port" = .ok port)
    (hfile : d.content (osPathJoin cfg.dataDirectory shardId) = some F) (hbuf : D <+: F)
    (hnew : isNewTransfer = true → D = []) :
    Inevitably machine.Step
      (fun s => s.1 = .ret () ∧ s.2.download.peer.buf = F ∧ s.2.download.disk = d ∧
        s.2.download.link = {} ∧ ∀ fh, s.2.download.file? fh = none)
      (FragmentSender.sendData cfg fuel request isNewTransfer, start d D isNewTransfer spare) := by
  obtain ⟨ino, hlookup, hF⟩ := Option.map_eq_some_iff.mp hfile
  have hoff : Off F D.length (DownloadWorld.start d D isNewTransfer) :=
    ⟨⟨List.prefix_iff_eq_take.mp hbuf, hbuf.length_le, rfl⟩, rfl⟩
  have hzero : isNewTransfer = true → D.length = 0 := fun h => by rw [hnew h, List.length_nil]
  refine (Machine.total_inevitable wf_env (total_sendData (σ := { spare := spare, sending := false })
    hlookup hF cfg hchunk hfuel rfl request isNewTransfer hshard rfl hport hzero)
    ⟨⟨⟨hoff, rfl⟩, rfl, rfl⟩, rfl⟩).mono ?_
  rintro ⟨p, v⟩ - ⟨r, rfl, hr⟩
  cases r with
  | error e => exact hr.elim
  | ok a =>
      obtain ⟨σ, ⟨⟨hfinal, hlink, -⟩, hdisk, hfiles⟩, -⟩ := hr
      refine ⟨rfl, hfinal.1, hdisk, hlink, fun fh => ?_⟩
      unfold file?
      rw [hfiles]
      cases fh <;> rfl

end LiveDownload
