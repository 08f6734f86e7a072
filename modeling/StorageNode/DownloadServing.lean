/-
# `FragmentSender.send_data` over a shard file that may grow

The methods of the sender, one specification each, from the opening of the socket to the
END frame.  The sender's position is the cursor of its file handle; the downloader's is the
length of its buffer, and the two are brought together by the negotiation.  The file may get
longer at any moment, so the shapes of the connection are about what it holds now.

* `servingSetting` : the file grows, the downloader moves; the contents at which a read of
  the sender may find the end of the file satisfy `P`;
* `Shape` : what the moves and longer contents keep;
* `Chunked` : the loop invariant of `_transmit_chunks`: both ends stand at `p`, and the
  chunk just read is the stretch of the file at `p`;
* `spec_sendData` : the downloader holds a beginning of the file, and after END what the file
  held when a read found its end.
-/
import StorageNode.ChunkTransfer
import StorageNode.DownloadProtocol
import StorageNode.UploadReceive

open Transfer (slice)
open DownloadWorld Setting
open Upload (DiskGrows)

/-- What the file at `path` holds; nothing, when there is none. -/
def Disk.held (path : PyStr) (d : Disk) : Bytes := (d.content path).getD []

/-- The operation is a read that finds the end of the file. -/
def DownloadWorld.findsEnd (o : NodeOp) (c : Choice) (w : DownloadWorld) : Bool :=
  match o, c.fault with
  | .read fh n, none => (w.file? fh).any fun f => (f.read n w.disk).1.isEmpty
  | _, _ => false

namespace Download

/-! ## The setting -/

theorem held_of_lookup {path : PyStr} {d : Disk} {ino : ℕ} (h : d.lookup path = some ino) :
    d.held path = d.data ino := by
  rw [Disk.held, Disk.content, h]
  rfl

/-- A file that grows holds what it held. -/
theorem held_grows {path : PyStr} {d d' : Disk} (h : DiskGrows path d d') :
    d.held path <+: d'.held path := by
  cases hl : d.lookup path with
  | none =>
      rw [Disk.held, Disk.content, hl]
      exact List.nil_prefix
  | some ino =>
      obtain ⟨hl', hdata⟩ := h ino hl
      rw [held_of_lookup hl, held_of_lookup hl']
      exact hdata

/-- **The setting of a download** from a file that may grow, on a disk of which `K` is
known: the downloader holds a beginning of the file, and after END something with the
property `P` of the contents at which a read of the node found the end. -/
def servingSetting (path : PyStr) (K : Disk → Prop) (P : Bytes → Prop) :
    Setting NodeOp NodeOp.Res Exn DownloadWorld where
  exec o w r w' := ∃ c, w.exec o c = some (r, w') ∧
    (K w.disk → w.findsEnd o c = true → P (w.disk.held path))
  env w w' := (∃ m, w.move m = some w') ∨
    ∃ d, w' = { w with disk := d } ∧ DiskGrows path w.disk d ∧ (K w.disk → K d)
  guar w w' := w'.disk = w.disk
  inv w := K w.disk ∧ w.peer.buf <+: w.disk.held path ∧ (w.peer.ended = true → P w.peer.buf)

variable {path : PyStr} {K : Disk → Prop} {P : Bytes → Prop} {d : ℕ}

/-- **A shape of the connection**, relative to the contents of the file: the downloader's
moves keep it, longer contents keep it, and it does not depend on the disk. -/
structure Shape (P : Bytes → Prop) (L : Bytes → DownloadWorld → Prop) : Prop where
  move : ∀ F w w' m, L F w → w.move m = some w' → L F w'
  mono : ∀ F G w, L F w → F <+: G → L G w
  disk : ∀ F (w : DownloadWorld) d, L F w → L F { w with disk := d }
  safe : ∀ F w, L F w → w.peer.buf <+: F ∧ (w.peer.ended = true → P w.peer.buf)

variable (path) in
/-- A fact about the disk, the handles, and the first connection being over: a growing file
keeps it. -/
def OnFiles (A : DownloadWorld → Prop) : Prop :=
  ∀ w w' : DownloadWorld, DiskGrows path w.disk w'.disk → w'.files = w.files →
    (w.fresh = false → w'.fresh = false) → A w → A w'

variable (path K) in
/-- The shape `L` of the connection, for what the file holds now, and the fact `A`. -/
def Here (L : Bytes → DownloadWorld → Prop) (A : DownloadWorld → Prop) (w : DownloadWorld) : Prop :=
  K w.disk ∧ L (w.disk.held path) w ∧ A w

/-! ## Shapes -/

theorem Shape.exists {κ : Type} {L : κ → Bytes → DownloadWorld → Prop} (h : ∀ x, Shape P (L x)) :
    Shape P (fun F w => ∃ x, L x F w) where
  move := fun F w w' m ⟨x, hx⟩ hm => ⟨x, (h x).move F w w' m hx hm⟩
  mono := fun F G w ⟨x, hx⟩ hG => ⟨x, (h x).mono F G w hx hG⟩
  disk := fun F w d ⟨x, hx⟩ => ⟨x, (h x).disk F w d hx⟩
  safe := fun F w ⟨x, hx⟩ => (h x).safe F w hx

/-- A fact that the contents and the moves leave alone. -/
theorem Shape.and_const {L : Bytes → DownloadWorld → Prop} (h : Shape P L) (c : Prop) :
    Shape P (fun F w => c ∧ L F w) where
  move := fun F w w' m ⟨hc, hl⟩ hm => ⟨hc, h.move F w w' m hl hm⟩
  mono := fun F G w ⟨hc, hl⟩ hG => ⟨hc, h.mono F G w hl hG⟩
  disk := fun F w d ⟨hc, hl⟩ => ⟨hc, h.disk F w d hl⟩
  safe := fun F w hl => h.safe F w hl.2

theorem Holds.safe {F : Bytes} {w : DownloadWorld} (h : Holds F d w.peer) :
    w.peer.buf <+: F ∧ (w.peer.ended = true → P w.peer.buf) := by
  refine ⟨h.intact.1, fun hend => ?_⟩
  rw [h.running] at hend
  exact absurd hend (by simp)

theorem shape_off (d : ℕ) : Shape P (fun F w => Off F d w) where
  move := fun _ _ _ _ h hm => off_move h hm
  mono := fun _ _ _ h hG => h.mono hG
  disk := fun _ _ _ h => h
  safe := fun _ _ h => h.1.safe

theorem shape_bound (d : ℕ) (r : Bool) : Shape P (fun F w => Bound F d r w) where
  move := fun _ _ _ _ h hm => bound_move h hm
  mono := fun _ _ _ h hG => h.mono hG
  disk := fun _ _ _ h => h
  safe := fun _ _ h => h.1.safe

theorem shape_asked (d : ℕ) : Shape P (fun F w => Asked F d w) where
  move := fun _ _ _ _ h hm => asked_move h hm
  mono := fun _ _ _ h hG => h.mono hG
  disk := fun _ _ _ h => h
  safe := fun _ _ h => h.1.safe

theorem shape_level (d : ℕ) : Shape P (fun F w => Level F d w) where
  move := fun _ _ _ _ h hm => level_move h hm
  mono := fun _ _ _ h hG => h.mono hG
  disk := fun _ _ _ h => h
  safe := fun _ _ h => h.1.safe

theorem shape_sent (d n : ℕ) : Shape P (fun F w => Sent F d n w) where
  move := fun _ _ _ _ h hm => sent_move h hm
  mono := fun _ _ _ h hG => h.mono hG
  disk := fun _ _ _ h => h
  safe := fun _ _ h => h.holds.elim fun _ h => h.safe

theorem shape_early : Shape P Early where
  move := fun _ _ _ _ h hm => early_move h hm
  mono := fun _ _ _ h hG => h.mono hG
  disk := fun _ _ _ h => h
  safe := fun _ _ h => h.holds.elim fun _ h => h.safe

variable (P) in
/-- Both ends stand at the end of contents with the property `P`. -/
def AtEnd (F : Bytes) (w : DownloadWorld) : Prop := ∃ G, P G ∧ G <+: F ∧ Level G G.length w

variable (P) in
/-- Anything that can be left of a connection: before END, or with the whole of contents with
the property `P`. -/
def Left (F : Bytes) (w : DownloadWorld) : Prop := Early F w ∨ ∃ G, P G ∧ G <+: F ∧ Late G w

theorem AtEnd.early {F : Bytes} {w : DownloadWorld} (h : AtEnd P F w) : Early F w := by
  obtain ⟨G, -, hG, hl⟩ := h
  exact (hl.mono hG).early

theorem shape_atEnd : Shape P (AtEnd P) where
  move := fun _ _ _ _ ⟨G, hP, hG, hl⟩ hm => ⟨G, hP, hG, level_move hl hm⟩
  mono := fun _ _ _ ⟨G, hP, hG, hl⟩ hF => ⟨G, hP, hG.trans hF, hl⟩
  disk := fun _ _ _ h => h
  safe := fun _ _ h => shape_early.safe _ _ h.early

theorem shape_left : Shape P (Left P) where
  move := by
    rintro F w w' m (h | ⟨G, hP, hG, hl⟩) hm
    · exact Or.inl (early_move h hm)
    · exact Or.inr ⟨G, hP, hG, late_move hl hm⟩
  mono := by
    rintro F G w (h | ⟨H, hP, hH, hl⟩) hG
    · exact Or.inl (h.mono hG)
    · exact Or.inr ⟨H, hP, hH.trans hG, hl⟩
  disk := fun _ _ _ h => h
  safe := by
    rintro F w (h | ⟨G, hP, hG, h | h⟩)
    · exact shape_early.safe F w h
    · exact shape_early.safe F w (h.mono hG)
    · rw [h.1]
      exact ⟨hG, fun _ => hP⟩

/-! ## Assertions -/

theorem settled_here {L : Bytes → DownloadWorld → Prop} {A : DownloadWorld → Prop}
    (hL : Shape P L) (hA : OnFiles path A) :
    (servingSetting path K P).Settled (Here path K L A) where
  stable := by
    rintro w w' ⟨hk, hl, ha⟩ (⟨m, hm⟩ | ⟨d, rfl, hgrow, hkd⟩)
    · obtain ⟨hdisk, hfiles, hfresh⟩ := move_frame hm
      refine ⟨by rw [hdisk]; exact hk, ?_, ?_⟩
      · rw [hdisk]
        exact hL.move _ _ _ _ hl hm
      · exact hA w w' (by rw [hdisk]; exact DiskGrows.refl _ _) hfiles (hfresh.trans ·) ha
    · exact ⟨hkd hk, hL.disk _ _ _ (hL.mono _ _ _ hl (held_grows hgrow)),
        hA w _ hgrow rfl (fun h => h) ha⟩
  safe := fun w h => ⟨h.1, hL.safe _ _ h.2.1⟩

/-- The handle `fh` reads the shard file and stands at `p`. -/
def Reading (path : PyStr) (fh p : ℕ) (w : DownloadWorld) : Prop :=
  w.fresh = false ∧ ∃ f, w.file? fh = some f ∧ w.disk.lookup path = some f.inode ∧ f.pos = p

/-- The handle `fh` reads the shard file. -/
def Opened (path : PyStr) (fh : ℕ) (w : DownloadWorld) : Prop := ∃ p, Reading path fh p w

/-- There is a shard file. -/
def Present (path : PyStr) (w : DownloadWorld) : Prop := ∃ ino, w.disk.lookup path = some ino

/-- There is a shard file, and the first connection is open. -/
def Stored (path : PyStr) (w : DownloadWorld) : Prop := w.fresh = false ∧ Present path w

theorem onFiles_true : OnFiles path (fun _ => True) := fun _ _ _ _ _ _ => trivial

theorem onFiles_reading (fh p : ℕ) : OnFiles path (Reading path fh p) := by
  rintro w w' hgrow hfiles hfresh ⟨hw, f, hf, hlookup, hpos⟩
  refine ⟨hfresh hw, f, ?_, (hgrow _ hlookup).1, hpos⟩
  unfold file? at hf ⊢
  rw [hfiles]
  exact hf

theorem onFiles_opened (fh : ℕ) : OnFiles path (Opened path fh) :=
  fun w w' hgrow hfiles hfresh ⟨p, h⟩ => ⟨p, onFiles_reading fh p w w' hgrow hfiles hfresh h⟩

theorem onFiles_present : OnFiles path (Present path) :=
  fun _ _ hgrow _ _ ⟨ino, h⟩ => ⟨ino, (hgrow ino h).1⟩

theorem onFiles_stored : OnFiles path (Stored path) :=
  fun w w' hgrow hfiles hfresh h => ⟨hfresh h.1, onFiles_present w w' hgrow hfiles hfresh h.2⟩

variable (path K) in
/-- Both ends stand at some offset, and the node reads on from there. -/
def LevelReading (fh : ℕ) (w : DownloadWorld) : Prop :=
  ∃ d, Here path K (fun F w => Level F d w) (Reading path fh d) w

theorem settled_levelReading (fh : ℕ) :
    (servingSetting path K P).Settled (LevelReading path K fh) :=
  Settled.exists fun d => settled_here (shape_level d) (onFiles_reading fh d)

theorem settled_early (A : DownloadWorld → Prop) (hA : OnFiles path A) :
    (servingSetting path K P).Settled (Here path K Early A) :=
  settled_here shape_early hA

theorem settled_left : (servingSetting path K P).Settled (Here path K (Left P) fun _ => True) :=
  settled_here shape_left onFiles_true

/-- What is left of a connection before END. -/
theorem left_of_early {A : DownloadWorld → Prop} {w : DownloadWorld} (h : Here path K Early A w) :
    Here path K (Left P) (fun _ => True) w :=
  ⟨h.1, Or.inl h.2.1, trivial⟩

/-! ## Single operations -/

/-- A socket operation keeps the first connection over. -/
theorem performLink_fresh_false {o : NodeOp} {w w' : DownloadWorld} {r : Except Exn o.Res}
    (h : w.performLink o = some (r, w')) : w.fresh = false → w'.fresh = false := by
  intro hw
  unfold performLink at h
  cases hl : w.link.perform o with
  | none =>
      rw [hl] at h
      exact absurd h (by simp)
  | some rl =>
      rw [hl] at h
      cases o <;>
        (simp only [Option.some.injEq, Prod.mk.injEq] at h
         obtain ⟨-, rfl⟩ := h
         first | exact hw | rfl)

/-- A socket operation: it fails and changes nothing, or leads from `L` to `B`. -/
theorem spec_onLink {o : NodeOp} {L E : Bytes → DownloadWorld → Prop}
    {A : DownloadWorld → Prop} {B : o.Res → Bytes → DownloadWorld → Prop} (ho : o.onLink = true)
    (hL : Shape P L) (hB : ∀ a, Shape P (B a)) (hE : Shape P E) (hA : OnFiles path A)
    (herr : ∀ F w, L F w → E F w)
    (h : ∀ F w r w', L F w → w.performLink o = some (r, w') →
      post (fun a w => B a F w) (E F) r w') :
    (servingSetting path K P).Spec (Here path K L A) (op o) (fun a => Here path K (B a) A)
      (Here path K E A) := by
  refine spec_perform (settled_here hL hA) (fun a => settled_here (hB a) hA) (settled_here hE hA) ?_
  rintro w r w' ⟨hk, hl, ha⟩ ⟨c, hexec, -⟩
  rcases exec_onLink ho hexec with ⟨e, rfl, rfl⟩ | hp
  · exact ⟨rfl, hk, herr _ _ hl, ha⟩
  · obtain ⟨hdisk, hfiles⟩ := performLink_frame hp
    have ha' : A w' :=
      hA w w' (by rw [hdisk]; exact DiskGrows.refl _ _) hfiles (performLink_fresh_false hp) ha
    have hpost := h _ w r w' hl hp
    refine ⟨hdisk, ?_⟩
    cases r with
    | ok a => exact ⟨by rw [hdisk]; exact hk, by rw [hdisk]; exact hpost, ha'⟩
    | error e => exact ⟨by rw [hdisk]; exact hk, by rw [hdisk]; exact hpost, ha'⟩

/-- An operation that changes nothing keeps any assertion. -/
theorem spec_same {o : NodeOp} {A : DownloadWorld → Prop}
    (hA : (servingSetting path K P).Settled A)
    (hsame : ∀ (w : DownloadWorld) c r w', w.exec o c = some (r, w') → w' = w) :
    (servingSetting path K P).Spec A (op o) (fun _ => A) A := by
  refine spec_perform hA (fun _ => hA) hA ?_
  rintro w r w' hw ⟨c, hexec, -⟩
  obtain rfl := hsame w c r w' hexec
  refine ⟨rfl, ?_⟩
  cases r with
  | ok a => exact hw
  | error e => exact hw

theorem exec_hasSocket {w w' : DownloadWorld} {c : Choice} {r : Except Exn Bool}
    (h : w.exec .hasSocket c = some (r, w')) : w' = w := by
  rcases exec_onLink rfl h with ⟨e, -, rfl⟩ | hp
  · rfl
  · simp only [performLink, Link.perform, Option.some.injEq, Prod.mk.injEq] at hp
    exact hp.2.symm

theorem exec_setTimeouts {w w' : DownloadWorld} {m n : ℕ} {c : Choice} {r : Except Exn Unit}
    (h : w.exec (.setTimeouts m n) c = some (r, w')) : w' = w := by
  rcases exec_onLink rfl h with ⟨e, -, rfl⟩ | hp
  · rfl
  · simp only [performLink, Link.perform, Option.some.injEq, Prod.mk.injEq] at hp
    exact hp.2.symm

/-- `FrameCodec.decode` of a frame. -/
theorem spec_pickleLoads {A : DownloadWorld → Prop} (hA : (servingSetting path K P).Settled A)
    (o : PyObj) :
    (servingSetting path K P).Spec A (op (.pickleLoads (FrameCodec.encode o)))
      (fun o' w => o' = o ∧ A w) A := by
  refine spec_perform hA (fun o' => ?_) hA ?_
  · refine ⟨fun w w' h hs => ⟨h.1, hA.stable w w' h.2 hs⟩, fun w h => hA.safe w h.2⟩
  · rintro w r w' hw ⟨c, hexec, -⟩
    rcases exec_cases hexec with ⟨e, rfl, -, rfl⟩ | hp
    · exact ⟨rfl, hw⟩
    · simp only [perform, NodeOp.answerOnly, FrameCodec.encode, Option.some.injEq,
        Prod.mk.injEq] at hp
      obtain ⟨rfl, rfl⟩ := hp
      exact ⟨rfl, rfl, hw⟩

/-- `os.path.isfile` of the shard. -/
theorem spec_isFile {L : Bytes → DownloadWorld → Prop} (hL : Shape P L) :
    (servingSetting path K P).Spec (Here path K L fun _ => True) (op (.isFile path))
      (fun found => Here path K L fun w => found = true → Present path w)
      (Here path K L fun _ => True) := by
  have hfound : ∀ found : Bool, OnFiles path (fun w => found = true → Present path w) :=
    fun found w w' hgrow hfiles hfresh h hf => onFiles_present w w' hgrow hfiles hfresh (h hf)
  refine spec_perform (settled_here hL onFiles_true) (fun found => settled_here hL (hfound found))
    (settled_here hL onFiles_true) ?_
  rintro w r w' ⟨hk, hl, -⟩ ⟨c, hexec, -⟩
  rcases exec_cases hexec with ⟨e, rfl, -, rfl⟩ | hp
  · exact ⟨rfl, hk, hl, trivial⟩
  · simp only [perform, NodeOp.answerOnly, performLink, Link.perform, performFile,
      Option.some.injEq, Prod.mk.injEq] at hp
    obtain ⟨rfl, rfl⟩ := hp
    exact ⟨rfl, hk, hl, fun h => Option.isSome_iff_exists.mp h⟩

/-- A handle that is replaced. -/
theorem file?_set {w : DownloadWorld} {fh : ℕ} {f : OpenFile} (hf : w.file? fh = some f)
    (x : Option OpenFile) :
    ({ w with files := w.files.set fh x } : DownloadWorld).file? fh = x := by
  have hlt : fh < w.files.length := by
    by_contra hge
    rw [file?, List.getElem?_eq_none (by omega)] at hf
    simp at hf
  simp [file?, hlt]

/-! ## Reading the shard file -/

variable (P) in
/-- **The loop invariant.**  Both ends stand at `p`, and the chunk in hand is the stretch of
the file at `p`; an empty one was read at its end. -/
def Chunk (chunk : Bytes) (p : ℕ) (F : Bytes) (w : DownloadWorld) : Prop :=
  Level F p w ∧ chunk = slice F p chunk.length ∧ p + chunk.length ≤ F.length ∧
    (chunk = [] → AtEnd P F w)

theorem shape_chunk (chunk : Bytes) (p : ℕ) : Shape P (Chunk P chunk p) where
  move := fun F w w' m h hm =>
    ⟨level_move h.1 hm, h.2.1, h.2.2.1, fun hc => shape_atEnd.move F w w' m (h.2.2.2 hc) hm⟩
  mono := by
    rintro F G w ⟨hl, hc, hle, hend⟩ hG
    refine ⟨hl.mono hG, ?_, hle.trans hG.length_le, fun h => shape_atEnd.mono F G w (hend h) hG⟩
    rw [slice_of_start hG hle]
    exact hc
  disk := fun _ _ _ h => h
  safe := fun F w h => (shape_level p).safe F w h.1

variable (path K P) in
/-- The chunk in hand, with the cursor behind it. -/
def Chunked (fh : ℕ) (chunk : Bytes) (w : DownloadWorld) : Prop :=
  ∃ p, Here path K (Chunk P chunk p) (Reading path fh (p + chunk.length)) w

theorem settled_chunked (fh : ℕ) (chunk : Bytes) :
    (servingSetting path K P).Settled (Chunked path K P fh chunk) :=
  Settled.exists fun p => settled_here (shape_chunk chunk p) (onFiles_reading fh _)

/-- The chunk read at `p`: its length, and what an empty one means. -/
theorem slice_facts {F : Bytes} {p n : ℕ} (hp : p ≤ F.length) :
    slice F p n = slice F p (slice F p n).length ∧ p + (slice F p n).length ≤ F.length ∧
      (0 < n → slice F p n = [] → p = F.length) := by
  have hlen : (slice F p n).length = min n (F.length - p) := by
    rw [slice, List.length_take, List.length_drop]
  refine ⟨?_, by omega, fun hn hnil => ?_⟩
  · rw [hlen, slice, slice, ← List.length_drop, ← List.take_take, List.take_length]
  · rw [hnil, List.length_nil] at hlen
    omega

/-- `fh.read(n)` at the offset where both ends stand. -/
theorem spec_read (fh p : ℕ) {n : ℕ} (hn : 0 < n) :
    (servingSetting path K P).Spec
      (Here path K (fun F w => Level F p w) (Reading path fh p)) (op (.read fh n))
      (Chunked path K P fh) (Here path K Early (Opened path fh)) := by
  refine spec_perform (settled_here (shape_level p) (onFiles_reading fh p)) (settled_chunked fh)
    (settled_early _ (onFiles_opened fh)) ?_
  rintro w r w' ⟨hk, hl, hfresh, f, hf, hlookup, hpos⟩ ⟨c, hexec, hend⟩
  have hheld : w.disk.held path = w.disk.data f.inode := held_of_lookup hlookup
  unfold exec at hexec
  cases hfault : c.fault with
  | some e =>
      simp only [hfault, Option.ite_none_right_eq_some, Option.some.injEq, Prod.mk.injEq] at hexec
      obtain ⟨-, rfl, rfl⟩ := hexec
      exact ⟨rfl, hk, hl.early, p, hfresh, f, hf, hlookup, hpos⟩
  | none =>
    simp only [hfault, perform, NodeOp.answerOnly, performLink, Link.perform, performFile,
      Option.map_eq_some_iff, Prod.mk.injEq] at hexec
    obtain ⟨f', hf', rfl, rfl⟩ := hexec
    rw [hf, Option.some.injEq] at hf'
    subst hf'
    have hread : (f.read n w.disk).1 = slice (w.disk.held path) p n := by
      rw [OpenFile.read, hheld, hpos]
      rfl
    refine ⟨rfl, p, hk, ⟨hl, ?_, ?_, fun hnil => ?_⟩, hfresh, (f.read n w.disk).2, file?_set hf _,
      hlookup, ?_⟩
    · rw [hread]
      exact (slice_facts hl.1.le).1
    · rw [hread]
      exact (slice_facts hl.1.le).2.1
    · -- the read found the end of the file
      have hfinds : w.findsEnd (.read fh n) c = true := by
        simp only [findsEnd, hfault, hf, Option.any_some, List.isEmpty_iff]
        exact hnil
      have hp : p = (w.disk.held path).length := (slice_facts hl.1.le).2.2 hn (hread ▸ hnil)
      refine ⟨w.disk.held path, hend hk hfinds, List.prefix_rfl, ?_⟩
      rw [← hp]
      exact hl
    · show f.pos + ((f.read n w.disk).1).length = p + ((f.read n w.disk).1).length
      rw [hpos]

/-- `fh.seek(d, 0)`. -/
theorem spec_seek (fh d : ℕ) :
    (servingSetting path K P).Spec
      (Here path K (fun F w => Level F d w) (Opened path fh)) (op (.seek fh d))
      (fun _ => LevelReading path K fh) (Here path K Early (Opened path fh)) := by
  refine spec_perform (settled_here (shape_level d) (onFiles_opened fh))
    (fun _ => settled_levelReading fh) (settled_early _ (onFiles_opened fh)) ?_
  rintro w r w' ⟨hk, hl, p, hfresh, f, hf, hlookup, hpos⟩ ⟨c, hexec, -⟩
  rcases exec_seek hexec with ⟨e, rfl, rfl⟩ | ⟨f', hf', rfl, rfl⟩
  · exact ⟨rfl, hk, hl.early, p, hfresh, f, hf, hlookup, hpos⟩
  · rw [hf, Option.some.injEq] at hf'
    subst hf'
    exact ⟨rfl, d, hk, hl, hfresh, _, file?_set hf _, hlookup, Int.toNat_natCast d⟩

/-- `open(path, "rb")`. -/
theorem spec_openFile {L : Bytes → DownloadWorld → Prop} (hL : Shape P L)
    (hleft : ∀ F w, L F w → Left P F w)
    (hlocal : ∀ F (w : DownloadWorld) files, L F w → L F { w with files := files }) :
    (servingSetting path K P).Spec (Here path K L (Stored path)) (op (.openFile path .rb))
      (fun fh => Here path K L (Reading path fh 0)) (Here path K (Left P) fun _ => True) := by
  refine spec_perform (settled_here hL onFiles_stored)
    (fun fh => settled_here hL (onFiles_reading fh 0)) settled_left ?_
  rintro w r w' ⟨hk, hl, hfresh, ino, hlookup⟩ ⟨c, hexec, -⟩
  rcases exec_openFile hexec with ⟨e, rfl, rfl⟩ | ⟨disk, f, ho, rfl, rfl⟩
  · exact ⟨rfl, hk, hleft _ _ hl, trivial⟩
  · have hopen : w.disk.openFile path .rb =
        some (w.disk, { inode := ino, mode := .rb, pos := 0, buf := [] }) := by
      unfold Disk.openFile
      split
      · next i hi =>
          rw [hlookup, Option.some.injEq] at hi
          rw [hi]
      · next hi =>
          rw [hlookup] at hi
          exact absurd hi (by simp)
    rw [hopen, Option.some.injEq, Prod.mk.injEq] at ho
    obtain ⟨rfl, rfl⟩ := ho
    exact ⟨rfl, hk, hlocal _ w _ hl, hfresh, { inode := ino, mode := .rb, pos := 0, buf := [] },
      by simp [file?], hlookup, rfl⟩

/-! ## The session -/

theorem spec_hasSocket {A : DownloadWorld → Prop} (hA : (servingSetting path K P).Settled A) :
    (servingSetting path K P).Spec A (op .hasSocket) (fun _ => A) A :=
  spec_same hA fun _ _ _ _ => exec_hasSocket

/-- `ZmqSessionManager.configure_timeouts`. -/
theorem spec_configureTimeouts {A : DownloadWorld → Prop}
    (hA : (servingSetting path K P).Settled A) (sendMs recvMs : ℕ) :
    (servingSetting path K P).Spec A (ZmqSessionManager.configureTimeouts sendMs recvMs)
      (fun _ => A) A := by
  refine spec_bind (spec_hasSocket hA) fun open? => ?_
  split
  · exact spec_same hA fun _ _ _ _ => exec_setTimeouts
  · exact spec_ret hA fun _ h => h

/-- A new or a closed socket, before END. -/
theorem spec_freshSocket {o : NodeOp} {A : DownloadWorld → Prop} (hA : OnFiles path A)
    (honlink : o.onLink = true) (ho : o = .newSocket ∨ o = .closeSocket) :
    (servingSetting path K P).Spec (Here path K Early A) (op o)
      (fun _ => Here path K (fun F w => ∃ d, Off F d w) A) (Here path K Early A) := by
  refine spec_onLink honlink shape_early (fun _ => Shape.exists shape_off) shape_early hA
    (fun _ _ h => h) fun F w r w' hw hp => ?_
  have hoff := off_of_early_fresh ho hw hp
  cases r with
  | ok a => exact hoff
  | error e => exact hoff.elim fun _ h => h.early

/-- Binding a socket in the middle of a transfer. -/
theorem spec_bindSocket (fh : ℕ) (address : String) (port : Json) :
    (servingSetting path K P).Spec (Here path K (fun F w => ∃ d, Off F d w) (Opened path fh))
      (op (.bindSocket address port))
      (fun _ => Here path K (fun F w => ∃ d, Bound F d true w) (Opened path fh))
      (Here path K Early (Opened path fh)) := by
  refine spec_perform (settled_here (Shape.exists shape_off) (onFiles_opened fh))
    (fun _ => settled_here (Shape.exists fun d => shape_bound d true) (onFiles_opened fh))
    (settled_early _ (onFiles_opened fh)) ?_
  rintro w r w' ⟨hk, ⟨d, hoff⟩, hopened⟩ ⟨c, hexec, -⟩
  rcases exec_onLink rfl hexec with ⟨e, rfl, rfl⟩ | hp
  · exact ⟨rfl, hk, hoff.early, hopened⟩
  · obtain ⟨p, hfresh, -⟩ := id hopened
    obtain ⟨hbound, -⟩ := bound_of_off hoff hp
    rw [hfresh] at hbound
    obtain ⟨hdisk, hfiles⟩ := performLink_frame hp
    have hopened' : Opened path fh w' :=
      onFiles_opened fh w w' (by rw [hdisk]; exact DiskGrows.refl _ _) hfiles
        (performLink_fresh_false hp) hopened
    refine ⟨hdisk, ?_⟩
    cases r with
    | ok a => exact ⟨by rw [hdisk]; exact hk, ⟨d, by rw [hdisk]; exact hbound⟩, hopened'⟩
    | error e => exact ⟨by rw [hdisk]; exact hk, by rw [hdisk]; exact hbound.early, hopened'⟩

/-- `ZmqSessionManager.reset`, in the middle of a transfer. -/
theorem spec_reset (fh : ℕ) (address : String) (port : Json) :
    (servingSetting path K P).Spec (Here path K Early (Opened path fh))
      (ZmqSessionManager.reset address port)
      (fun _ => Here path K (fun F w => ∃ d, Bound F d true w) (Opened path fh))
      (Here path K Early (Opened path fh)) := by
  have hearly : (servingSetting path K P).Settled (Here path K Early (Opened path fh)) :=
    settled_early _ (onFiles_opened fh)
  refine spec_bind (B := fun _ => Here path K Early (Opened path fh)) ?_ fun _ => ?_
  · refine spec_bind (spec_hasSocket hearly) fun open? => ?_
    split
    · refine spec_mono (fun _ h => h) (fun _ w h => ⟨h.1, ?_, h.2.2⟩) (fun _ h => h)
        (spec_freshSocket (onFiles_opened fh) rfl (Or.inr rfl))
      exact h.2.1.elim fun _ h => h.early
    · exact spec_ret hearly fun _ h => h
  · refine spec_bind (spec_freshSocket (onFiles_opened fh) rfl (Or.inl rfl)) fun _ => ?_
    exact spec_bindSocket fh address port

/-- `_emit_start_signal` on a connection whose downloader answers it. -/
theorem spec_emitStartSignal {A : DownloadWorld → Prop} (hA : OnFiles path A) :
    (servingSetting path K P).Spec (Here path K (fun F w => ∃ d, Bound F d true w) A)
      emitStartSignal (fun _ => Here path K (fun F w => ∃ d, Asked F d w) A)
      (Here path K Early A) := by
  refine spec_onLink rfl (Shape.exists fun d => shape_bound d true)
    (fun _ => Shape.exists shape_asked) shape_early hA
    (fun _ _ h => h.elim fun _ h => h.early) ?_
  rintro F w r w' ⟨d, hw⟩ hp
  have hasked := asked_of_bound hw hp
  cases r with
  | ok a => exact ⟨d, hasked⟩
  | error e => exact hasked.early

/-- `_emit_start_signal` on the first connection of a fresh transfer. -/
theorem spec_emitFirstStart {A : DownloadWorld → Prop} (hA : OnFiles path A) (d : ℕ) :
    (servingSetting path K P).Spec (Here path K (fun F w => Bound F d false w) A)
      emitStartSignal (fun _ => Here path K (fun F w => Level F d w) A) (Here path K Early A) := by
  refine spec_onLink rfl (shape_bound d false) (fun _ => shape_level d) shape_early hA
    (fun _ _ h => h.early) fun F w r w' hw hp => ?_
  have hlevel := level_of_bound hw hp
  cases r with
  | ok a => exact hlevel
  | error e => exact hlevel.early

/-! ## `_negotiate_resume_point` and `_attempt_reconnect` -/

/-- **The negotiation** brings the cursor to the downloader's length. -/
theorem spec_negotiateResumePoint (fh : ℕ) :
    (servingSetting path K P).Spec (Here path K (fun F w => ∃ d, Asked F d w) (Opened path fh))
      (FragmentSender.negotiateResumePoint fh) (fun _ => LevelReading path K fh)
      (Here path K Early (Opened path fh)) := by
  refine spec_mono (A := fun w => ∃ d, Here path K (fun F w => Asked F d w) (Opened path fh) w)
    (fun w ⟨hk, ⟨d, ha⟩, h⟩ => ⟨d, hk, ha, h⟩) (fun _ _ h => h) (fun _ h => h)
    (spec_exists fun d => ?_)
  refine spec_bind (B := fun raw => Here path K
    (fun F w => raw = FrameCodec.encode (resumeFrame d) ∧ Level F d w) (Opened path fh)) ?_
    fun raw => ?_
  · refine spec_onLink rfl (shape_asked d) (fun raw => (shape_level d).and_const _) shape_early
      (onFiles_opened fh) (fun _ _ h => h.early) fun F w r w' hw hp => ?_
    obtain ⟨rfl, hlevel⟩ := level_of_asked hw hp
    exact ⟨rfl, hlevel⟩
  · refine spec_mono (A := fun w => raw = FrameCodec.encode (resumeFrame d) ∧
      Here path K (fun F w => Level F d w) (Opened path fh) w)
      (fun w h => ⟨h.2.1.1, h.1, h.2.1.2, h.2.2⟩) (fun _ _ h => h) (fun _ h => h)
      (spec_pure fun hraw => ?_)
    subst hraw
    have hlevel : (servingSetting path K P).Settled
        (Here path K (fun F w => Level F d w) (Opened path fh)) :=
      settled_here (shape_level d) (onFiles_opened fh)
    refine spec_bind (spec_mono (fun _ h => h) (fun _ _ h => h)
      (fun _ h => ⟨h.1, h.2.1.early, h.2.2⟩)
      (spec_pickleLoads hlevel (resumeFrame d))) fun o => spec_pure fun ho => ?_
    subst ho
    have hdata : (resumeFrame d).getItem "data" = .ok (.int d) := rfl
    simp only [hdata, Prog.ofExcept, Prog.bind_eq, Prog.ret_bind]
    exact spec_seek fh d

theorem LevelReading.early {fh : ℕ} {w : DownloadWorld} (h : LevelReading path K fh w) :
    Here path K Early (Opened path fh) w := by
  obtain ⟨d, hk, hl, hr⟩ := h
  exact ⟨hk, hl.early, d, hr⟩

/-- An `except Exception` that gives up with `a`: what no `Exception` is goes on. -/
theorem spec_giveUp {α : Type} {B : α → DownloadWorld → Prop} (fh : ℕ) (a : α) (e : Exn)
    (h : ∀ w, Here path K Early (Opened path fh) w → B a w) :
    (servingSetting path K P).Spec (Here path K Early (Opened path fh))
      (if e.isException then pure a else Prog.raise e) B (Here path K Early (Opened path fh)) := by
  split
  · exact spec_ret (settled_early _ (onFiles_opened fh)) h
  · exact spec_raise (settled_early _ (onFiles_opened fh)) fun _ h => h

/-- **`_attempt_reconnect`**: afterwards both ends stand level or the transfer is given up. -/
theorem spec_attemptReconnect (cfg : Config) (port : Json) (fh : ℕ) :
    (servingSetting path K P).Spec (Here path K Early (Opened path fh))
      (FragmentSender.attemptReconnect cfg port fh)
      (fun reconnected w => match reconnected with
        | true => LevelReading path K fh w
        | false => Here path K Early (Opened path fh) w)
      (Here path K Early (Opened path fh)) := by
  have hbound : (servingSetting path K P).Settled
      (Here path K (fun F w => ∃ d, Bound F d true w) (Opened path fh)) :=
    settled_here (Shape.exists fun d => shape_bound d true) (onFiles_opened fh)
  refine spec_tryExcept (E := Here path K Early (Opened path fh)) ?_ fun e => ?_
  · refine spec_bind (spec_reset fh _ _) fun _ => ?_
    refine spec_bind (spec_mono (fun _ h => h) (fun _ _ h => h)
      (fun _ h => ⟨h.1, h.2.1.elim fun _ h => h.early, h.2.2⟩)
      (spec_configureTimeouts hbound _ _)) fun _ => ?_
    refine spec_bind (spec_emitStartSignal (onFiles_opened fh)) fun _ => ?_
    refine spec_bind (spec_negotiateResumePoint fh) fun _ => ?_
    refine spec_bind (spec_mono (fun _ h => h) (fun _ _ h => h) (fun _ h => h.early)
      (spec_configureTimeouts (settled_levelReading fh) _ _)) fun _ => ?_
    exact spec_ret (settled_levelReading fh) fun _ h => h
  · exact spec_giveUp fh false e fun _ h => h

/-! ## `_transmit_chunks` -/

theorem Chunked.early {fh : ℕ} {chunk : Bytes} {w : DownloadWorld}
    (h : Chunked path K P fh chunk w) : Here path K Early (Opened path fh) w := by
  obtain ⟨p, hk, hl, hr⟩ := h
  exact ⟨hk, hl.1.early, _, hr⟩

/-- **One chunk**: sent, answered, and the next one read. -/
theorem spec_transmitChunk (cfg : Config) (hchunk : 0 < cfg.chunkSize) (fh : ℕ) (chunk : Bytes) :
    (servingSetting path K P).Spec (Chunked path K P fh chunk)
      (FragmentSender.transmitChunk cfg fh chunk) (Chunked path K P fh)
      (Here path K Early (Opened path fh)) := by
  refine spec_exists fun p => ?_
  have hreading : OnFiles path (Reading path fh (p + chunk.length)) := onFiles_reading fh _
  have hopened : ∀ {L : Bytes → DownloadWorld → Prop} w, Here path K L
      (Reading path fh (p + chunk.length)) w → (∀ F w, L F w → Early F w) →
      Here path K Early (Opened path fh) w :=
    fun w h hearly => ⟨h.1, hearly _ _ h.2.1, _, h.2.2⟩
  refine spec_bind (B := fun _ => Here path K (fun F w => Sent F p chunk.length w)
    (Reading path fh (p + chunk.length))) ?_ fun _ => ?_
  · refine spec_mono (fun _ h => h) (fun _ _ h => h) (fun w h => hopened w h fun _ _ h => h)
      (spec_onLink (E := Early) rfl (shape_chunk chunk p) (fun _ => shape_sent p chunk.length)
        shape_early hreading (fun _ _ h => h.1.early) ?_)
    rintro F w r w' ⟨hlevel, hslice, hle, -⟩ hperform
    rw [hslice] at hperform
    have hsent := sent_of_level hlevel hle hperform
    cases r with
    | ok a => exact hsent
    | error e => exact hsent.early
  · refine spec_bind (B := fun raw => Here path K
      (fun F w => raw = FrameCodec.encode ackFrame ∧ Level F (p + chunk.length) w)
      (Reading path fh (p + chunk.length))) ?_ fun raw => ?_
    · refine spec_mono (fun _ h => h) (fun _ _ h => h) (fun w h => hopened w h fun _ _ h => h)
        (spec_onLink (E := Early) rfl (shape_sent p chunk.length)
          (fun raw => (shape_level (p + chunk.length)).and_const _) shape_early hreading
          (fun _ _ h => h.early) fun F w r w' hw hperform => ?_)
      obtain ⟨rfl, hlevel⟩ := level_of_sent hw hperform
      exact ⟨rfl, hlevel⟩
    · refine spec_mono (A := fun w => raw = FrameCodec.encode ackFrame ∧
        Here path K (fun F w => Level F (p + chunk.length) w)
          (Reading path fh (p + chunk.length)) w)
        (fun w h => ⟨h.2.1.1, h.1, h.2.1.2, h.2.2⟩) (fun _ _ h => h) (fun _ h => h)
        (spec_pure fun hraw => ?_)
      subst hraw
      refine spec_bind (spec_mono (fun _ h => h) (fun _ _ h => h)
        (fun w h => hopened w h fun _ _ h => h.early)
        (spec_pickleLoads (settled_here (shape_level _) hreading) ackFrame)) fun o =>
        spec_pure fun ho => ?_
      exact spec_read fh _ hchunk

variable (path K P) in
/-- The outcome of a transmit pass: both ends at the end of what the file held, or a broken
connection. -/
def Passed (fh : ℕ) (completed : Bool) (w : DownloadWorld) : Prop :=
  match completed with
  | true => Here path K (AtEnd P) (fun _ => True) w
  | false => Here path K Early (Opened path fh) w

variable (path K P) in
/-- What one round of a pass leaves: the next chunk in hand, or a broken connection. -/
def Transmitted (fh : ℕ) (next : Option Bytes) (w : DownloadWorld) : Prop :=
  match next with
  | some chunk => Chunked path K P fh chunk w
  | none => Here path K Early (Opened path fh) w

/-- **The loop of `_transmit_chunks`** ends with both ends at the end of what the file held, or
with a broken connection. -/
theorem spec_transmitLoop (cfg : Config) (hchunk : 0 < cfg.chunkSize) (fh fuel : ℕ)
    (chunk : Bytes) :
    (servingSetting path K P).Spec (Chunked path K P fh chunk)
      (FragmentSender.transmitLoop cfg fh fuel chunk) (Passed path K P fh)
      (Here path K Early (Opened path fh)) := by
  induction fuel generalizing chunk with
  | zero => exact spec_hang (settled_chunked fh chunk)
  | succ fuel ih =>
      unfold FragmentSender.transmitLoop
      split
      · next hnil =>
          subst hnil
          refine spec_ret (settled_chunked fh []) ?_
          rintro w ⟨p, hk, hc, -⟩
          exact ⟨hk, hc.2.2.2 rfl, trivial⟩
      · refine spec_bind (B := Transmitted path K P fh) ?_ fun next => ?_
        · refine spec_tryExcept (E := Here path K Early (Opened path fh)) ?_ fun e => ?_
          · refine spec_bind (spec_transmitChunk cfg hchunk fh chunk) fun chunk' => ?_
            exact spec_ret (settled_chunked fh chunk') fun _ h => h
          · exact spec_giveUp fh none e fun _ h => h
        · cases next with
          | some chunk' => exact ih chunk'
          | none => exact spec_ret (settled_early _ (onFiles_opened fh)) fun _ h => h

/-- `_transmit_chunks`. -/
theorem spec_transmitChunks (cfg : Config) (hchunk : 0 < cfg.chunkSize) (fh fuel : ℕ) :
    (servingSetting path K P).Spec (LevelReading path K fh)
      (FragmentSender.transmitChunks cfg fuel fh) (Passed path K P fh)
      (Here path K Early (Opened path fh)) := by
  refine spec_bind (spec_exists fun d => spec_read fh d hchunk) fun chunk => ?_
  exact spec_transmitLoop cfg hchunk fh fuel chunk

/-! ## `send_data` -/

/-- What follows the two passes: the END frame, when both ends stand at the end. -/
theorem spec_sendEnd (fh : ℕ) (completed : Bool) :
    (servingSetting path K P).Spec (Passed path K P fh completed)
      (if completed then do
        if ← op .hasSocket then op (.send (FrameCodec.encode endFrame)) else pure ()
      else pure ())
      (fun _ => Here path K (Left P) fun _ => True) (Here path K (Left P) fun _ => True) := by
  cases completed with
  | true =>
      have hend : (servingSetting path K P).Settled (Here path K (AtEnd P) fun _ => True) :=
        settled_here shape_atEnd onFiles_true
      have hleft : ∀ w, Here path K (AtEnd P) (fun _ => True) w →
          Here path K (Left P) (fun _ => True) w := fun w h => ⟨h.1, Or.inl h.2.1.early, trivial⟩
      refine spec_bind (spec_mono (fun _ h => h) (fun _ _ h => h) hleft (spec_hasSocket hend))
        fun open? => ?_
      split
      · refine spec_onLink rfl shape_atEnd (fun _ => shape_left) shape_left onFiles_true
          (fun _ _ h => Or.inl h.early) ?_
        rintro F w r w' ⟨G, hP, hG, hw⟩ hp
        have hfinal := final_of_level hw hp
        cases r with
        | ok a => exact Or.inr ⟨G, hP, hG, Or.inr hfinal⟩
        | error e => exact Or.inr ⟨G, hP, hG, Or.inr hfinal⟩
      · exact spec_ret hend hleft
  | false => exact spec_ret (settled_early _ (onFiles_opened fh)) fun _ h => left_of_early h

/-- The two transmit passes and the END frame. -/
theorem spec_transmitPasses (cfg : Config) (hchunk : 0 < cfg.chunkSize) (fuel : ℕ) (port : Json)
    (fh : ℕ) :
    (servingSetting path K P).Spec (LevelReading path K fh)
      (FragmentSender.transmitPasses cfg fuel port fh)
      (fun _ => Here path K (Left P) fun _ => True) (Here path K (Left P) fun _ => True) := by
  have htransmit : (servingSetting path K P).Spec (LevelReading path K fh)
      (FragmentSender.transmitChunks cfg fuel fh) (Passed path K P fh)
      (Here path K (Left P) fun _ => True) :=
    spec_mono (fun _ h => h) (fun _ _ h => h) (fun _ h => left_of_early h)
      (spec_transmitChunks cfg hchunk fh fuel)
  refine spec_bind htransmit fun completed => ?_
  cases completed with
  | true => exact spec_sendEnd fh true
  | false =>
      refine spec_bind (spec_mono (fun _ h => h) (fun _ _ h => h) (fun _ h => left_of_early h)
        (spec_attemptReconnect cfg port fh)) fun reconnected => ?_
      cases reconnected with
      | true => exact spec_bind htransmit fun completed => spec_sendEnd fh completed
      | false => exact spec_sendEnd fh false

theorem spec_left_outside {o : NodeOp} (ho : o.outside = true) :
    (servingSetting path K P).Spec (Here path K (Left P) fun _ => True) (op o)
      (fun _ => Here path K (Left P) fun _ => True) (Here path K (Left P) fun _ => True) :=
  spec_same settled_left fun _ _ _ _ h => exec_outside ho h

/-- A closed socket leaves what the downloader holds. -/
theorem left_of_fresh {o : NodeOp} {F : Bytes} {w w' : DownloadWorld} {r : Except Exn o.Res}
    (ho : o = .newSocket ∨ o = .closeSocket) (hw : Left P F w)
    (h : w.performLink o = some (r, w')) : Left P F w' := by
  rcases hw with hw | ⟨G, hP, hG, hw⟩
  · exact Or.inl ((off_of_early_fresh ho hw h).elim fun _ h => h.early)
  · exact Or.inr ⟨G, hP, hG, late_of_fresh ho hw h⟩

/-- What `send_data` does after the passes keeps what the downloader holds. -/
theorem spec_sendCleanup (cfg : Config) (request : Dict) (port : Json) (fh : ℕ) :
    (servingSetting path K P).Spec (Here path K (Left P) fun _ => True)
      (do
        op (.closeFile fh)
        ZmqSessionManager.close
        closeRouterPort cfg port
        let _ ← op (.ledgerUnregister request)
        pure ())
      (fun _ => Here path K (Left P) fun _ => True) (Here path K (Left P) fun _ => True) := by
  have hleft : (servingSetting path K P).Settled (Here path K (Left P) fun _ => True) :=
    settled_left
  refine spec_bind (B := fun _ => Here path K (Left P) fun _ => True) ?_ fun _ => ?_
  · refine spec_perform hleft (fun _ => hleft) hleft ?_
    rintro w r w' hw ⟨c, hexec, -⟩
    rcases exec_closeFile hexec with rfl | rfl
    · cases r with
      | ok a => exact ⟨rfl, hw⟩
      | error e => exact ⟨rfl, hw⟩
    · cases r with
      | ok a => exact ⟨rfl, hw⟩
      | error e => exact ⟨rfl, hw⟩
  · refine spec_bind (B := fun _ => Here path K (Left P) fun _ => True) ?_ fun _ => ?_
    · refine spec_bind (spec_hasSocket hleft) fun open? => ?_
      split
      · refine spec_onLink rfl shape_left (fun _ => shape_left) shape_left onFiles_true
          (fun _ _ h => h) fun F w r w' hw hp => ?_
        have hw' := left_of_fresh (Or.inr rfl) hw hp
        cases r with
        | ok a => exact hw'
        | error e => exact hw'
      · exact spec_ret hleft fun _ h => h
    · refine spec_bind (B := fun _ => Here path K (Left P) fun _ => True) ?_ fun _ => ?_
      · unfold closeRouterPort
        split
        · refine spec_bind (spec_left_outside rfl) fun _ => ?_
          exact spec_ret hleft fun _ h => h
        · exact spec_ret hleft fun _ h => h
      · refine spec_bind (spec_left_outside rfl) fun _ => ?_
        exact spec_ret hleft fun _ h => h

/-- Before the first connection of a transfer, which is new or not. -/
def Before (d : ℕ) (fresh : Bool) (F : Bytes) (w : DownloadWorld) : Prop :=
  Off F d w ∧ w.fresh = fresh

theorem shape_before (d : ℕ) (fresh : Bool) : Shape P (Before d fresh) where
  move := fun _ _ _ _ h hm => ⟨off_move h.1 hm, (move_frame hm).2.2.trans h.2⟩
  mono := fun _ _ _ h hG => ⟨h.1.mono hG, h.2⟩
  disk := fun _ _ _ h => h
  safe := fun _ _ h => h.1.1.safe

theorem left_of_before {fresh : Bool} {A : DownloadWorld → Prop} {w : DownloadWorld}
    (h : Here path K (Before d fresh) A w) : Here path K (Left P) (fun _ => True) w :=
  ⟨h.1, Or.inl h.2.1.1.early, trivial⟩

/-- `ZmqSessionManager.open`, for the first connection. -/
theorem spec_openSocket (d : ℕ) (fresh : Bool) (address : String) (port : Json) :
    (servingSetting path K P).Spec (Here path K (Before d fresh) (Present path))
      (ZmqSessionManager.openSocket address port)
      (fun _ => Here path K (fun F w => Bound F d (!fresh) w) (Stored path))
      (Here path K (Left P) fun _ => True) := by
  refine spec_bind (spec_mono (fun _ h => h) (fun _ _ h => h) (fun _ h => left_of_before h)
    (spec_onLink rfl (shape_before d fresh) (fun _ => shape_before d fresh) (shape_before d fresh)
      onFiles_present (fun _ _ h => h) fun F w r w' hw hp => ?_)) fun _ => ?_
  · have hoff : Off F d w' := off_of_holds_fresh (Or.inl rfl) hw.1.1 hp
    have hfresh : w'.fresh = fresh := (performLink_fresh (Or.inl rfl) hp).2.2.trans hw.2
    cases r with
    | ok a => exact ⟨hoff, hfresh⟩
    | error e => exact ⟨hoff, hfresh⟩
  · refine spec_perform (settled_here (shape_before d fresh) onFiles_present)
      (fun _ => settled_here (shape_bound d (!fresh)) onFiles_stored) settled_left ?_
    rintro w r w' ⟨hk, ⟨hoff, hfresh⟩, hpresent⟩ ⟨c, hexec, -⟩
    rcases exec_onLink rfl hexec with ⟨e, rfl, rfl⟩ | hp
    · exact ⟨rfl, hk, Or.inl hoff.early, trivial⟩
    · obtain ⟨hbound, hfresh'⟩ := bound_of_off hoff hp
      rw [hfresh] at hbound
      obtain ⟨hdisk, hfiles⟩ := performLink_frame hp
      have hpresent' : Present path w' :=
        onFiles_present w w' (by rw [hdisk]; exact DiskGrows.refl _ _) hfiles
          (performLink_fresh_false hp) hpresent
      refine ⟨hdisk, ?_⟩
      cases r with
      | ok a => exact ⟨by rw [hdisk]; exact hk, by rw [hdisk]; exact hbound, hfresh', hpresent'⟩
      | error e =>
          exact ⟨by rw [hdisk]; exact hk, Or.inl (by rw [hdisk]; exact hbound.early), trivial⟩

/-- **`send_data`** to a downloader that holds the first `d` bytes of the file, none of them
when the transfer is new. -/
theorem spec_sendData (cfg : Config) (hchunk : 0 < cfg.chunkSize) (fuel : ℕ) (request : Dict)
    (isNewTransfer : Bool) (shardId : Json) (hshard : request.getItem "shard_id" = .ok shardId)
    (hpath : joinPath cfg.dataDirectory shardId = .ok path) (hnew : isNewTransfer = true → d = 0) :
    (servingSetting path K P).Spec (Here path K (Before d isNewTransfer) fun _ => True)
      (FragmentSender.sendData cfg fuel request isNewTransfer)
      (fun _ => Here path K (Left P) fun _ => True) (Here path K (Left P) fun _ => True) := by
  -- once both ends stand level
  have hrest : ∀ (fh : ℕ) (port : Json), (servingSetting path K P).Spec (LevelReading path K fh)
      (do
        ZmqSessionManager.configureTimeouts cfg.chunkTimeout cfg.chunkTimeout
        FragmentSender.transmitPasses cfg fuel port fh
        op (.closeFile fh)
        ZmqSessionManager.close
        closeRouterPort cfg port
        let _ ← op (.ledgerUnregister request)
        pure ())
      (fun _ => Here path K (Left P) fun _ => True) (Here path K (Left P) fun _ => True) := by
    intro fh port
    refine spec_bind (spec_mono (fun _ h => h) (fun _ _ h => h)
      (fun _ h => left_of_early h.early)
      (spec_configureTimeouts (settled_levelReading fh) _ _)) fun _ => ?_
    refine spec_bind (spec_transmitPasses cfg hchunk fuel port fh) fun _ => ?_
    exact spec_sendCleanup cfg request port fh
  unfold FragmentSender.sendData
  simp only [hshard, hpath, Prog.ofExcept, Prog.bind_eq, Prog.ret_bind]
  refine spec_bind (spec_mono (fun _ h => h) (fun _ _ h => h) (fun _ h => left_of_before h)
    (spec_isFile (shape_before d isNewTransfer))) fun found => ?_
  have hfound : OnFiles path (fun w => found = true → Present path w) :=
    fun w w' hgrow hfiles hfresh h hf => onFiles_present w w' hgrow hfiles hfresh (h hf)
  have hstart := settled_here (K := K) (P := P) (shape_before d isNewTransfer) hfound
  cases found with
  | true =>
    rw [if_pos rfl]
    cases request.getItem "port" with
    | error e => exact spec_raise hstart fun _ h => left_of_before h
    | ok port =>
        rw [Prog.ret_bind]
        refine spec_bind (spec_mono (fun w h => ⟨h.1, h.2.1, h.2.2 rfl⟩) (fun _ _ h => h)
          (fun _ h => h) (spec_openSocket d isNewTransfer _ port)) fun _ => ?_
        cases isNewTransfer with
        | true =>
            obtain rfl := hnew rfl
            refine spec_bind (spec_mono (fun _ h => h) (fun _ _ h => h)
              (fun _ h => left_of_early h) (spec_emitFirstStart onFiles_stored 0)) fun _ => ?_
            refine spec_bind (spec_openFile (shape_level 0) (fun _ _ h => Or.inl h.early)
              fun _ _ _ h => h) fun fh => ?_
            exact spec_mono (fun w h => ⟨0, h⟩) (fun _ _ h => h) (fun _ h => h) (hrest fh port)
        | false =>
            refine spec_bind (spec_mono (fun w h => ⟨h.1, ⟨d, h.2.1⟩, h.2.2⟩) (fun _ _ h => h)
              (fun _ h => left_of_early h) (spec_emitStartSignal onFiles_stored)) fun _ => ?_
            refine spec_bind (spec_openFile (Shape.exists shape_asked)
              (fun _ _ h => Or.inl (h.elim fun _ h => h.early)) fun _ _ _ h => h) fun fh => ?_
            refine spec_bind (spec_mono (fun w h => ⟨h.1, h.2.1, 0, h.2.2⟩) (fun _ _ h => h)
              (fun _ h => left_of_early h) (spec_negotiateResumePoint fh)) fun _ => ?_
            exact hrest fh port
  | false => exact spec_ret hstart fun _ h => left_of_before h

end Download
