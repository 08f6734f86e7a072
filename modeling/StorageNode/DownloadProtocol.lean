/-
# What the two ends of a download connection know

The shapes a download passes through, seen from what the downloader holds: always the
beginning of `F` up to some offset.  Each is kept by the downloader's moves, and the node's
socket operations lead from one to the next.

* `Asked` : the start frame asks for the downloader's length;
* `Level` : node and downloader stand at the same offset;
* `Sent` : one slice is on its way, or the ACK for it;
* `Early`, `Late` : what is left of these after a failure, before and after END.
-/
import StorageNode.DownloadWorld
import StorageNode.UploadProtocol
import StorageNode.RelyGuarantee

open Transfer (slice)
open DownloadWorld

namespace Download

variable {F : Bytes} {d : ℕ} {w w' : DownloadWorld}

/-! ## The shapes -/

/-- The downloader holds the first `d` bytes of `F` and has not seen END. -/
structure Holds (F : Bytes) (d : ℕ) (p : Downloader) : Prop where
  buf : p.buf = F.take d
  le : d ≤ F.length
  running : p.ended = false

/-- Nothing is on its way to the downloader. -/
def Off (F : Bytes) (d : ℕ) (w : DownloadWorld) : Prop := Holds F d w.peer ∧ w.link.toPeer = []

/-- A bound socket before the start frame. -/
def Bound (F : Bytes) (d : ℕ) (resumes : Bool) (w : DownloadWorld) : Prop :=
  Holds F d w.peer ∧ w.peer.resumes = resumes ∧ w.peer.owes = none ∧ w.link.toNode = [] ∧
    w.link.toPeer = []

/-- The start frame asks for the downloader's length, which is `d`: it is on its way, the
downloader owes the answer, or the answer is on its way. -/
def Asked (F : Bytes) (d : ℕ) (w : DownloadWorld) : Prop :=
  Holds F d w.peer ∧ w.peer.resumes = true ∧
    ((w.link.toPeer = [FrameCodec.encode startFrame] ∧ w.peer.owes = none ∧ w.link.toNode = []) ∨
      (w.link.toPeer = [] ∧ w.peer.owes = some (resumeFrame d) ∧ w.link.toNode = []) ∨
      (w.link.toPeer = [] ∧ w.peer.owes = none ∧
        w.link.toNode = [FrameCodec.encode (resumeFrame d)]))

/-- What may be in front of a slice: on the first connection of a fresh transfer, the start
frame, which the downloader does not answer. -/
def Ahead (w : DownloadWorld) (q : List Raw) : Prop :=
  q = [] ∨ (q = [FrameCodec.encode startFrame] ∧ w.peer.resumes = false)

/-- Node and downloader both stand at `p`. -/
def Level (F : Bytes) (p : ℕ) (w : DownloadWorld) : Prop :=
  Holds F p w.peer ∧ w.peer.owes = none ∧ w.link.toNode = [] ∧ Ahead w w.link.toPeer

/-- The slice of `n` bytes at `p` is on its way, or the downloader has it and owes the ACK,
or the ACK is on its way. -/
def Sent (F : Bytes) (p n : ℕ) (w : DownloadWorld) : Prop :=
  p + n ≤ F.length ∧
    ((Holds F p w.peer ∧ w.peer.owes = none ∧ w.link.toNode = [] ∧
        ∃ q, Ahead w q ∧ w.link.toPeer = q ++ [FrameCodec.encode (dataFrame (slice F p n))]) ∨
      (Holds F (p + n) w.peer ∧ w.link.toPeer = [] ∧
        ((w.peer.owes = some ackFrame ∧ w.link.toNode = []) ∨
          (w.peer.owes = none ∧ w.link.toNode = [FrameCodec.encode ackFrame]))))

/-- The downloader holds `F`, and only start and END frames are on their way to it. -/
def Final (F : Bytes) (w : DownloadWorld) : Prop :=
  w.peer.buf = F ∧
    ∀ raw ∈ w.link.toPeer, raw = FrameCodec.encode startFrame ∨ raw = FrameCodec.encode endFrame

/-- Anything that can be left of a connection before END. -/
def Early (F : Bytes) (w : DownloadWorld) : Prop :=
  ∃ d, Off F d w ∨ Asked F d w ∨ Level F d w ∨ ∃ n, Sent F d n w

/-- Anything that can be left of a connection. -/
def Late (F : Bytes) (w : DownloadWorld) : Prop := Early F w ∨ Final F w

/-- **Integrity.**  The downloader holds a beginning of `F`, and all of it once it has seen
END. -/
def Intact (F : Bytes) (w : DownloadWorld) : Prop :=
  w.peer.buf <+: F ∧ (w.peer.ended = true → w.peer.buf = F)

theorem Holds.intact (h : Holds F d w.peer) : Intact F w := by
  refine ⟨?_, fun hend => ?_⟩
  · rw [h.buf]
    exact List.take_prefix _ _
  · rw [h.running] at hend
    exact absurd hend (by simp)

theorem Sent.holds {p n : ℕ} (h : Sent F p n w) : ∃ d, Holds F d w.peer := by
  rcases h.2 with ⟨h, -⟩ | ⟨h, -⟩
  · exact ⟨_, h⟩
  · exact ⟨_, h⟩

theorem Early.holds (h : Early F w) : ∃ d, Holds F d w.peer := by
  obtain ⟨d, h | h | h | ⟨n, h⟩⟩ := h
  · exact ⟨d, h.1⟩
  · exact ⟨d, h.1⟩
  · exact ⟨d, h.1⟩
  · exact h.holds

theorem Late.intact (h : Late F w) : Intact F w := by
  rcases h with h | h
  · obtain ⟨d, h⟩ := h.holds
    exact h.intact
  · exact ⟨h.1 ▸ List.prefix_rfl, fun _ => h.1⟩

theorem Asked.early (h : Asked F d w) : Early F w := ⟨d, Or.inr (Or.inl h)⟩

theorem Level.early (h : Level F d w) : Early F w := ⟨d, Or.inr (Or.inr (Or.inl h))⟩

theorem Sent.early {n : ℕ} (h : Sent F d n w) : Early F w := ⟨d, Or.inr (Or.inr (Or.inr ⟨n, h⟩))⟩

theorem Off.early (h : Off F d w) : Early F w := ⟨d, Or.inl h⟩

theorem Bound.early {r : Bool} (h : Bound F d r w) : Early F w := Off.early ⟨h.1, h.2.2.2.2⟩

/-! ## Longer contents -/

/-- A stretch of the beginning of `G`. -/
theorem slice_of_start {G : Bytes} (h : F <+: G) {p n : ℕ} (hp : p + n ≤ F.length) :
    slice G p n = slice F p n := by
  obtain ⟨rest, rfl⟩ := h
  have hle : p ≤ F.length := by omega
  rw [slice, slice, List.drop_append_of_le_length hle, List.take_append_of_le_length]
  rw [List.length_drop]
  omega

theorem Holds.mono {G : Bytes} {p : Downloader} (h : Holds F d p) (hG : F <+: G) :
    Holds G d p := by
  refine ⟨?_, h.le.trans hG.length_le, h.running⟩
  obtain ⟨rest, rfl⟩ := hG
  rw [h.buf, List.take_append_of_le_length h.le]

theorem Off.mono {G : Bytes} (h : Off F d w) (hG : F <+: G) : Off G d w := ⟨h.1.mono hG, h.2⟩

theorem Bound.mono {G : Bytes} {r : Bool} (h : Bound F d r w) (hG : F <+: G) : Bound G d r w :=
  ⟨h.1.mono hG, h.2⟩

theorem Asked.mono {G : Bytes} (h : Asked F d w) (hG : F <+: G) : Asked G d w :=
  ⟨h.1.mono hG, h.2⟩

theorem Level.mono {G : Bytes} (h : Level F d w) (hG : F <+: G) : Level G d w :=
  ⟨h.1.mono hG, h.2⟩

theorem Sent.mono {G : Bytes} {n : ℕ} (h : Sent F d n w) (hG : F <+: G) : Sent G d n w := by
  obtain ⟨hle, hcase⟩ := h
  refine ⟨hle.trans hG.length_le, ?_⟩
  rcases hcase with ⟨hh, howes, hn, q, hahead, hq⟩ | ⟨hh, hrest⟩
  · refine Or.inl ⟨hh.mono hG, howes, hn, q, hahead, ?_⟩
    rw [slice_of_start hG hle]
    exact hq
  · exact Or.inr ⟨hh.mono hG, hrest⟩

theorem Early.mono {G : Bytes} (h : Early F w) (hG : F <+: G) : Early G w := by
  obtain ⟨d, h | h | h | ⟨n, h⟩⟩ := h
  · exact (h.mono hG).early
  · exact (h.mono hG).early
  · exact (h.mono hG).early
  · exact (h.mono hG).early

/-! ## The downloader's moves -/

@[simp] theorem receive_start_of_resumes {p : Downloader} (h : p.resumes = true) :
    p.receive (FrameCodec.encode startFrame) =
      { p with owes := some (resumeFrame p.buf.length) } := by
  have ht : (FrameCodec.encode startFrame).type? = some (.str "start") := rfl
  rw [Downloader.receive, if_pos ht, if_pos h]

@[simp] theorem receive_start_of_fresh {p : Downloader} (h : p.resumes = false) :
    p.receive (FrameCodec.encode startFrame) = p := by
  have ht : (FrameCodec.encode startFrame).type? = some (.str "start") := rfl
  rw [Downloader.receive, if_pos ht, if_neg (by simp [h])]

@[simp] theorem receive_data (p : Downloader) (b : Bytes) :
    p.receive (FrameCodec.encode (dataFrame b)) =
      { p with buf := p.buf ++ b, owes := some ackFrame } := rfl

@[simp] theorem receive_end (p : Downloader) :
    p.receive (FrameCodec.encode endFrame) = { p with ended := true } := rfl

theorem off_move {m : DownloaderMove} (h : Off F d w) (hm : w.move m = some w') :
    Off F d w' := by
  obtain ⟨hh, hq⟩ := h
  rcases move_cases hm with ⟨raw, rest, -, hq', -⟩ | ⟨o, -, rfl⟩
  · rw [hq] at hq'
    exact absurd hq' (by simp)
  · exact ⟨⟨hh.buf, hh.le, hh.running⟩, hq⟩

theorem bound_move {m : DownloaderMove} {r : Bool} (h : Bound F d r w)
    (hm : w.move m = some w') : Bound F d r w' := by
  obtain ⟨-, -, howes, -, hq⟩ := h
  rcases move_cases hm with ⟨raw, rest, -, hq', -⟩ | ⟨o, howes', -⟩
  · rw [hq] at hq'
    exact absurd hq' (by simp)
  · rw [howes] at howes'
    exact absurd howes' (by simp)

theorem asked_move {m : DownloaderMove} (h : Asked F d w) (hm : w.move m = some w') :
    Asked F d w' := by
  obtain ⟨hh, hres, hcase⟩ := h
  have hlen : w.peer.buf.length = d := by
    rw [hh.buf, List.length_take]
    exact Nat.min_eq_left hh.le
  rcases move_cases hm with ⟨raw, rest, howes, hq, rfl⟩ | ⟨o, howes, rfl⟩
  · -- it takes the start frame
    rcases hcase with ⟨hq', -, hn⟩ | ⟨hq', -⟩ | ⟨hq', -⟩
    · rw [hq, List.cons.injEq] at hq'
      obtain ⟨rfl, rfl⟩ := hq'
      rw [receive_start_of_resumes hres]
      refine ⟨⟨hh.buf, hh.le, hh.running⟩, hres, Or.inr (Or.inl ⟨rfl, ?_, hn⟩)⟩
      show some (resumeFrame w.peer.buf.length) = some (resumeFrame d)
      rw [hlen]
    all_goals
      rw [hq] at hq'
      exact absurd hq' (by simp)
  · -- it answers
    rcases hcase with ⟨-, howes', -⟩ | ⟨hq, howes', hn⟩ | ⟨-, howes', -⟩
    · rw [howes] at howes'
      exact absurd howes' (by simp)
    · rw [howes, Option.some.injEq] at howes'
      subst howes'
      refine ⟨⟨hh.buf, hh.le, hh.running⟩, hres, Or.inr (Or.inr ⟨hq, rfl, ?_⟩)⟩
      show w.link.toNode ++ _ = _
      rw [hn, List.nil_append]
    · rw [howes] at howes'
      exact absurd howes' (by simp)

theorem level_move {m : DownloaderMove} (h : Level F d w) (hm : w.move m = some w') :
    Level F d w' := by
  obtain ⟨hh, howes, hn, hq⟩ := h
  rcases move_cases hm with ⟨raw, rest, -, hq', rfl⟩ | ⟨o, howes', -⟩
  · rcases hq with hq | ⟨hq, hres⟩
    · rw [hq] at hq'
      exact absurd hq' (by simp)
    · rw [hq', List.cons.injEq] at hq
      obtain ⟨rfl, rfl⟩ := hq
      rw [receive_start_of_fresh hres]
      exact ⟨⟨hh.buf, hh.le, hh.running⟩, howes, hn, Or.inl rfl⟩
  · rw [howes] at howes'
    exact absurd howes' (by simp)

theorem sent_move {m : DownloaderMove} {n : ℕ} (h : Sent F d n w) (hm : w.move m = some w') :
    Sent F d n w' := by
  obtain ⟨hle, hcase⟩ := h
  refine ⟨hle, ?_⟩
  rcases move_cases hm with ⟨raw, rest, howes, hq, rfl⟩ | ⟨o, howes, rfl⟩
  · rcases hcase with ⟨hh, -, hn, q, hahead, hq'⟩ | ⟨hh, hq', -⟩
    · rcases hahead with rfl | ⟨rfl, hres⟩
      · -- it takes the slice
        rw [hq, List.nil_append, List.cons.injEq] at hq'
        obtain ⟨rfl, rfl⟩ := hq'
        rw [receive_data]
        refine Or.inr ⟨⟨?_, hle, hh.running⟩, rfl, Or.inl ⟨rfl, hn⟩⟩
        show w.peer.buf ++ slice F d n = F.take (d + n)
        rw [hh.buf, Upload.take_append_slice]
      · -- it takes the start frame of the first connection
        rw [hq, List.singleton_append, List.cons.injEq] at hq'
        obtain ⟨rfl, rfl⟩ := hq'
        rw [receive_start_of_fresh hres]
        exact Or.inl ⟨⟨hh.buf, hh.le, hh.running⟩, howes, hn, [], Or.inl rfl, rfl⟩
    · rw [hq] at hq'
      exact absurd hq' (by simp)
  · rcases hcase with ⟨-, howes', -⟩ | ⟨hh, hq, ⟨howes', hn⟩ | ⟨howes', -⟩⟩
    · rw [howes] at howes'
      exact absurd howes' (by simp)
    · rw [howes, Option.some.injEq] at howes'
      subst howes'
      refine Or.inr ⟨⟨hh.buf, hh.le, hh.running⟩, hq, Or.inr ⟨rfl, ?_⟩⟩
      show w.link.toNode ++ _ = _
      rw [hn, List.nil_append]
    · rw [howes] at howes'
      exact absurd howes' (by simp)

theorem final_move {m : DownloaderMove} (h : Final F w) (hm : w.move m = some w') :
    Final F w' := by
  obtain ⟨hbuf, hframes⟩ := h
  rcases move_cases hm with ⟨raw, rest, -, hq, rfl⟩ | ⟨o, -, rfl⟩
  · rw [hq] at hframes
    refine ⟨?_, fun raw' h' => hframes raw' (List.mem_cons_of_mem _ h')⟩
    rcases hframes raw List.mem_cons_self with rfl | rfl
    · cases hres : w.peer.resumes with
      | true =>
          rw [receive_start_of_resumes hres]
          exact hbuf
      | false =>
          rw [receive_start_of_fresh hres]
          exact hbuf
    · rw [receive_end]
      exact hbuf
  · exact ⟨hbuf, hframes⟩

theorem early_move {m : DownloaderMove} (h : Early F w) (hm : w.move m = some w') :
    Early F w' := by
  obtain ⟨d, h | h | h | ⟨n, h⟩⟩ := h
  · exact (off_move h hm).early
  · exact (asked_move h hm).early
  · exact (level_move h hm).early
  · exact (sent_move h hm).early

theorem late_move {m : DownloaderMove} (h : Late F w) (hm : w.move m = some w') :
    Late F w' :=
  h.imp (early_move · hm) (final_move · hm)

/-! ## The node's side of the connection -/

/-- A socket operation keeps the disk and the handles. -/
theorem performLink_frame {o : NodeOp} {r : Except Exn o.Res}
    (h : w.performLink o = some (r, w')) : w'.disk = w.disk ∧ w'.files = w.files := by
  unfold performLink at h
  cases hl : w.link.perform o with
  | none =>
      rw [hl] at h
      exact absurd h (by simp)
  | some rl =>
      rw [hl] at h
      cases o <;>
        (simp only [Option.some.injEq, Prod.mk.injEq] at h
         obtain ⟨-, rfl⟩ := h
         exact ⟨rfl, rfl⟩)

/-- The frames in flight are lost with the socket. -/
theorem performLink_fresh {o : NodeOp} {r : Except Exn o.Res}
    (ho : o = .newSocket ∨ o = .closeSocket) (h : w.performLink o = some (r, w')) :
    w'.peer = { w.peer with owes := none } ∧ w'.link.toPeer = [] ∧ w'.fresh = w.fresh := by
  rcases ho with rfl | rfl
  all_goals
    simp only [performLink, Link.perform, Option.some.injEq, Prod.mk.injEq] at h
    obtain ⟨-, rfl⟩ := h
    exact ⟨rfl, rfl, rfl⟩

theorem off_of_holds_fresh {o : NodeOp} {r : Except Exn o.Res}
    (ho : o = .newSocket ∨ o = .closeSocket) (hw : Holds F d w.peer)
    (h : w.performLink o = some (r, w')) : Off F d w' := by
  obtain ⟨hpeer, hq, -⟩ := performLink_fresh ho h
  exact ⟨⟨by rw [hpeer]; exact hw.buf, hw.le, by rw [hpeer]; exact hw.running⟩, hq⟩

theorem off_of_early_fresh {o : NodeOp} {r : Except Exn o.Res}
    (ho : o = .newSocket ∨ o = .closeSocket) (hw : Early F w)
    (h : w.performLink o = some (r, w')) : ∃ d, Off F d w' :=
  hw.holds.imp fun _ hh => off_of_holds_fresh ho hh h

theorem late_of_fresh {o : NodeOp} {r : Except Exn o.Res}
    (ho : o = .newSocket ∨ o = .closeSocket) (hw : Late F w)
    (h : w.performLink o = some (r, w')) : Late F w' := by
  rcases hw with hw | hw
  · obtain ⟨d, hoff⟩ := off_of_early_fresh ho hw h
    exact Or.inl hoff.early
  · obtain ⟨hpeer, hq, -⟩ := performLink_fresh ho h
    refine Or.inr ⟨by rw [hpeer]; exact hw.1, ?_⟩
    rw [hq]
    simp

/-- Binding a socket. -/
theorem bound_of_off {address : String} {port : Json} {r : Except Exn Unit} (hw : Off F d w)
    (h : w.performLink (.bindSocket address port) = some (r, w')) :
    Bound F d (!w.fresh) w' ∧ w'.fresh = false := by
  simp only [performLink, Link.perform, Option.some.injEq, Prod.mk.injEq] at h
  obtain ⟨-, rfl⟩ := h
  exact ⟨⟨⟨hw.1.buf, hw.1.le, hw.1.running⟩, rfl, rfl, rfl, rfl⟩, rfl⟩

/-- What a send that goes through leaves behind. -/
theorem performLink_send {raw : Raw} {r : Except Exn Unit}
    (h : w.performLink (.send raw) = some (r, w')) :
    w' = { w with link := { w.link with toPeer := w.link.toPeer ++ [raw] } } := by
  by_cases hb : w.link.bound = some true
  · simp only [performLink, Link.perform, hb, if_true, Option.some.injEq, Prod.mk.injEq] at h
    rw [← h.2]
    simp [hb]
  · simp only [performLink, Link.perform, hb, if_false] at h
    exact absurd h (by simp)

theorem asked_of_bound {r : Except Exn Unit} (hw : Bound F d true w)
    (h : w.performLink (.send (FrameCodec.encode startFrame)) = some (r, w')) :
    Asked F d w' := by
  obtain ⟨hh, hres, howes, hn, hq⟩ := hw
  rw [performLink_send h]
  refine ⟨⟨hh.buf, hh.le, hh.running⟩, hres, Or.inl ⟨?_, howes, hn⟩⟩
  show w.link.toPeer ++ _ = _
  rw [hq, List.nil_append]

theorem level_of_bound {r : Except Exn Unit} (hw : Bound F d false w)
    (h : w.performLink (.send (FrameCodec.encode startFrame)) = some (r, w')) :
    Level F d w' := by
  obtain ⟨hh, hres, howes, hn, hq⟩ := hw
  rw [performLink_send h]
  refine ⟨⟨hh.buf, hh.le, hh.running⟩, howes, hn, Or.inr ⟨?_, hres⟩⟩
  show w.link.toPeer ++ _ = _
  rw [hq, List.nil_append]

/-- Sending the slice at the offset where both stand. -/
theorem sent_of_level {n : ℕ} {r : Except Exn Unit} (hw : Level F d w) (hn : d + n ≤ F.length)
    (h : w.performLink (.send (FrameCodec.encode (dataFrame (slice F d n)))) = some (r, w')) :
    Sent F d n w' := by
  obtain ⟨hh, howes, htoNode, hq⟩ := hw
  rw [performLink_send h]
  exact ⟨hn, Or.inl ⟨⟨hh.buf, hh.le, hh.running⟩, howes, htoNode, _, hq, rfl⟩⟩

/-- Sending END when both stand at the end. -/
theorem final_of_level {r : Except Exn Unit} (hw : Level F F.length w)
    (h : w.performLink (.send (FrameCodec.encode endFrame)) = some (r, w')) : Final F w' := by
  obtain ⟨hh, -, -, hq⟩ := hw
  rw [performLink_send h]
  refine ⟨?_, fun raw hraw => ?_⟩
  · show w.peer.buf = F
    rw [hh.buf, List.take_length]
  · have hraw' : raw ∈ w.link.toPeer ++ [FrameCodec.encode endFrame] := hraw
    rcases List.mem_append.mp hraw' with hraw' | hraw'
    · rcases hq with hq | ⟨hq, -⟩
      · rw [hq] at hraw'
        exact absurd hraw' (by simp)
      · rw [hq] at hraw'
        exact Or.inl (List.mem_singleton.mp hraw')
    · exact Or.inr (List.mem_singleton.mp hraw')

/-- A frame taken from the connection. -/
theorem performLink_recv {r : Except Exn Raw} (h : w.performLink .recv = some (r, w')) :
    ∃ raw rest, w.link.toNode = raw :: rest ∧ r = .ok raw ∧
      w' = { w with link := { w.link with toNode := rest } } := by
  simp only [performLink, Link.perform] at h
  cases hq : w.link.toNode with
  | nil =>
      rw [hq] at h
      exact absurd h (by simp)
  | cons raw rest =>
      rw [hq] at h
      simp only [Option.some.injEq, Prod.mk.injEq] at h
      exact ⟨raw, rest, rfl, h.1.symm, h.2.symm⟩

/-- The answer to the start frame is the downloader's length. -/
theorem level_of_asked {r : Except Exn Raw} (hw : Asked F d w)
    (h : w.performLink .recv = some (r, w')) :
    r = .ok (FrameCodec.encode (resumeFrame d)) ∧ Level F d w' := by
  obtain ⟨raw, rest, hn, rfl, rfl⟩ := performLink_recv h
  obtain ⟨hh, -, ⟨-, -, hn'⟩ | ⟨-, -, hn'⟩ | ⟨hq, howes, hn'⟩⟩ := hw
  · rw [hn] at hn'
    exact absurd hn' (by simp)
  · rw [hn] at hn'
    exact absurd hn' (by simp)
  · rw [hn, List.cons.injEq] at hn'
    obtain ⟨rfl, rfl⟩ := hn'
    exact ⟨rfl, ⟨hh.buf, hh.le, hh.running⟩, howes, rfl, Or.inl hq⟩

/-- The ACK brings both to the end of the slice. -/
theorem level_of_sent {n : ℕ} {r : Except Exn Raw} (hw : Sent F d n w)
    (h : w.performLink .recv = some (r, w')) :
    r = .ok (FrameCodec.encode ackFrame) ∧ Level F (d + n) w' := by
  obtain ⟨raw, rest, hn, rfl, rfl⟩ := performLink_recv h
  obtain ⟨-, ⟨-, -, hn', -⟩ | ⟨hh, hq, ⟨-, hn'⟩ | ⟨howes, hn'⟩⟩⟩ := hw
  · rw [hn] at hn'
    exact absurd hn' (by simp)
  · rw [hn] at hn'
    exact absurd hn' (by simp)
  · rw [hn, List.cons.injEq] at hn'
    obtain ⟨rfl, rfl⟩ := hn'
    exact ⟨rfl, ⟨hh.buf, hh.le, hh.running⟩, howes, rfl, Or.inl hq⟩

end Download
