/-
# What the two ends of an upload connection know

The agreement between the node and a conforming uploader, the uploader's moves, which
cannot break it, and the node's socket operations, which carry it on.

* `Sync F k` : node and uploader agree that `k` bytes of `F` are accepted on this
  connection, whatever is in flight;
* `Got F k c` : the node took the slice `c` and has not answered it;
* `Fresh0 F` : the connection before the node has decided about a resume frame;
* `sync_move` : the uploader's moves keep the agreement.
-/
import StorageNode.UploadWorld

open Transfer

namespace Upload

/-! ## Stretches of the content -/

theorem length_slice {F : Bytes} {off len : ℕ} (h : off + len ≤ F.length) :
    (slice F off len).length = len := by
  rw [slice, List.length_take, List.length_drop]
  omega

/-- Two stretches that follow each other. -/
theorem slice_append (F : Bytes) (off m n : ℕ) :
    slice F off m ++ slice F (off + m) n = slice F off (m + n) := by
  rw [slice, slice, slice, ← List.drop_drop, List.take_add]

theorem take_slice (F : Bytes) (off m n : ℕ) :
    (slice F off m).take n = slice F off (min n m) := by
  rw [slice, slice, List.take_take]

theorem drop_slice (F : Bytes) (off m n : ℕ) :
    (slice F off m).drop n = slice F (off + n) (m - n) := by
  rw [slice, slice, List.drop_take, List.drop_drop]

/-- A beginning of the content, continued by the next stretch. -/
theorem take_append_slice (F : Bytes) (off len : ℕ) :
    F.take off ++ slice F off len = F.take (off + len) := by
  rw [slice, List.take_add]

/-! ## Frames in flight -/

/-- Only start frames are on the way to the uploader. -/
def Quiet (q : List Raw) : Prop := ∀ r ∈ q, r = FrameCodec.encode startFrame

theorem quiet_nil : Quiet [] := by simp [Quiet]

theorem quiet_append_start {q : List Raw} (h : Quiet q) :
    Quiet (q ++ [FrameCodec.encode startFrame]) := by
  intro r hr
  rcases List.mem_append.mp hr with hr | hr
  · exact h r hr
  · exact List.mem_singleton.mp hr

/-- **Node and uploader agree on `k` accepted bytes.**  An idle uploader will start at `k`;
a ready one sends from `k`; a waiting one has either its slice or the ACK in flight; one
that ended had everything ACKed. -/
def Sync (F : Bytes) (k : ℕ) (t : Transfer) : Prop :=
  match t.peer with
  | .idle =>
      t.link.toNode = [] ∧
        ((t.resumed = false ∧ k = 0 ∧ Quiet t.link.toPeer) ∨
          (t.resumed = true ∧
            ∃ q, Quiet q ∧ t.link.toPeer = q ++ [FrameCodec.encode (resumeFrame k)]))
  | .ready off => off = k ∧ t.link.toNode = [] ∧ Quiet t.link.toPeer
  | .awaiting off len =>
      0 < len ∧
        ((off = k ∧ off + len ≤ F.length ∧ Quiet t.link.toPeer ∧
            t.link.toNode = [FrameCodec.encode (dataFrame (slice F off len))]) ∨
          (off + len = k ∧ t.link.toNode = [] ∧
            ∃ q, Quiet q ∧ t.link.toPeer = q ++ [FrameCodec.encode ackFrame]))
  | .ended => k = F.length ∧ (t.link.toNode = [] ∨ t.link.toNode = [FrameCodec.encode endFrame])

/-- The node took the slice `c` from the connection and has not answered it. -/
def Got (F : Bytes) (k : ℕ) (c : Bytes) (t : Transfer) : Prop :=
  ∃ len, 0 < len ∧ k + len ≤ F.length ∧ c = slice F k len ∧ t.peer = .awaiting k len ∧
    t.link.toNode = [] ∧ Quiet t.link.toPeer

/-- Before the node has decided about a resume frame. -/
def Fresh0 (F : Bytes) (t : Transfer) : Prop := Sync F 0 t ∧ t.resumed = false ∧ t.base = 0

/-- What holds of the connection is kept by the uploader's moves. -/
def MoveStable (F : Bytes) (L : Transfer → Prop) : Prop :=
  ∀ t t' m, L t → t.move F m = some t' → L t'

@[simp] theorem receive_start (p : Uploader) : p.receive (FrameCodec.encode startFrame) = p := by
  cases p <;> rfl

@[simp] theorem receive_resume (k : ℕ) :
    Uploader.idle.receive (FrameCodec.encode (resumeFrame k)) = .ready k := rfl

@[simp] theorem receive_ack (off len : ℕ) :
    (Uploader.awaiting off len).receive (FrameCodec.encode ackFrame) = .ready (off + len) := rfl

/-- What a conforming uploader can do. -/
theorem move_cases {F : Bytes} {m : UploaderMove} {t t' : Transfer} (h : t.move F m = some t') :
    (∃ raw rest, t.link.toPeer = raw :: rest ∧
        t' = { t with link := { t.link with toPeer := rest }, peer := t.peer.receive raw }) ∨
      (t.peer = .idle ∧ t.resumed = false ∧ t' = { t with peer := .ready 0 }) ∨
      (∃ off len, t.peer = .ready off ∧ 0 < len ∧ off + len ≤ F.length ∧
        t' = t.pushToNode (dataFrame (slice F off len)) (.awaiting off len)) ∨
      (t.peer = .ready F.length ∧ t' = t.pushToNode endFrame .ended) := by
  unfold Transfer.move at h
  split at h
  · next heq =>
      split at h
      · next raw rest hq =>
          exact Or.inl ⟨raw, rest, hq, (Option.some.inj h).symm⟩
      · simp at h
  · next heq =>
      rw [Option.ite_none_right_eq_some] at h
      exact Or.inr (Or.inl ⟨heq, h.1.2, (Option.some.inj h.2).symm⟩)
  · next len off heq =>
      rw [Option.ite_none_right_eq_some] at h
      exact Or.inr (Or.inr (Or.inl ⟨off, len, heq, h.1.1, h.1.2, (Option.some.inj h.2).symm⟩))
  · next off heq =>
      rw [Option.ite_none_right_eq_some] at h
      obtain ⟨rfl, h⟩ := h
      exact Or.inr (Or.inr (Or.inr ⟨heq, (Option.some.inj h).symm⟩))
  · simp at h

/-- A move touches only the peer and the frames in flight. -/
theorem move_frame {F : Bytes} {m : UploaderMove} {t t' : Transfer} (h : t.move F m = some t') :
    t'.files = t.files ∧ t'.base = t.base ∧ t'.resumed = t.resumed := by
  rcases move_cases h with ⟨raw, rest, -, rfl⟩ | ⟨-, -, rfl⟩ | ⟨off, len, -, -, -, rfl⟩ | ⟨-, rfl⟩ <;>
    exact ⟨rfl, rfl, rfl⟩

/-- The next frame of a quiet queue is a start frame. -/
theorem Quiet.head {raw : Raw} {rest : List Raw} (h : Quiet (raw :: rest)) :
    raw = FrameCodec.encode startFrame ∧ Quiet rest :=
  ⟨h raw List.mem_cons_self, fun r hr => h r (List.mem_cons_of_mem _ hr)⟩

/-- The next frame of a quiet queue with one more frame behind it. -/
theorem Quiet.head_append {q rest : List Raw} {raw last : Raw} (h : Quiet q)
    (hq : q ++ [last] = raw :: rest) :
    (raw = last ∧ rest = []) ∨
      (raw = FrameCodec.encode startFrame ∧ ∃ q', Quiet q' ∧ rest = q' ++ [last]) := by
  cases q with
  | nil =>
      simp only [List.nil_append, List.cons.injEq] at hq
      exact Or.inl ⟨hq.1.symm, hq.2.symm⟩
  | cons r q' =>
      simp only [List.cons_append, List.cons.injEq] at hq
      obtain ⟨rfl, rfl⟩ := hq
      exact Or.inr ⟨h.head.1, q', h.head.2, rfl⟩

/-- **The uploader's moves keep the agreement.** -/
theorem sync_move {F : Bytes} {k : ℕ} : MoveStable F (Sync F k) := by
  intro t t' m h hm
  rcases move_cases hm with ⟨raw, rest, hq, rfl⟩ | ⟨hp, hr, rfl⟩ | ⟨off, len, hp, hlen, hle, rfl⟩ |
    ⟨hp, rfl⟩
  · -- the uploader takes a frame
    cases hp : t.peer with
    | idle =>
        simp only [Sync, hp] at h
        obtain ⟨hn, ⟨hres, hk, hquiet⟩ | ⟨hres, q, hquiet, hto⟩⟩ := h
        · rw [hq] at hquiet
          obtain ⟨rfl, hrest⟩ := hquiet.head
          simp only [Sync, receive_start]
          exact ⟨hn, Or.inl ⟨hres, hk, hrest⟩⟩
        · rw [hq] at hto
          rcases hquiet.head_append hto.symm with ⟨rfl, rfl⟩ | ⟨rfl, q', hq', rfl⟩
          · simp only [Sync, receive_resume]
            exact ⟨trivial, hn, quiet_nil⟩
          · simp only [Sync, receive_start]
            exact ⟨hn, Or.inr ⟨hres, q', hq', rfl⟩⟩
    | ready off =>
        simp only [Sync, hp] at h
        rw [hq] at h
        obtain ⟨rfl, hrest⟩ := h.2.2.head
        simp only [Sync, receive_start]
        exact ⟨h.1, h.2.1, hrest⟩
    | awaiting off len =>
        simp only [Sync, hp] at h
        obtain ⟨hlen, ⟨hoff, hle, hquiet, hn⟩ | ⟨hoff, hn, q, hquiet, hto⟩⟩ := h
        · rw [hq] at hquiet
          obtain ⟨rfl, hrest⟩ := hquiet.head
          simp only [Sync, receive_start]
          exact ⟨hlen, Or.inl ⟨hoff, hle, hrest, hn⟩⟩
        · rw [hq] at hto
          rcases hquiet.head_append hto.symm with ⟨rfl, rfl⟩ | ⟨rfl, q', hq', rfl⟩
          · simp only [Sync, receive_ack]
            exact ⟨hoff, hn, quiet_nil⟩
          · simp only [Sync, receive_start]
            exact ⟨hlen, Or.inr ⟨hoff, hn, q', hq', rfl⟩⟩
    | ended =>
        simp only [Sync, hp] at h
        exact h
  · -- it starts at 0
    simp only [Sync, hp] at h
    obtain ⟨hn, ⟨-, rfl, hquiet⟩ | ⟨hres, -⟩⟩ := h
    · exact ⟨rfl, hn, hquiet⟩
    · rw [hr] at hres
      exact absurd hres (by simp)
  · -- it sends a slice
    simp only [Sync, hp] at h
    obtain ⟨rfl, hn, hquiet⟩ := h
    exact ⟨hlen, Or.inl ⟨rfl, hle, hquiet, by simp [pushToNode, hn]⟩⟩
  · -- it sends END
    simp only [Sync, hp] at h
    obtain ⟨hk, hn, hquiet⟩ := h
    exact ⟨hk.symm, Or.inr (by simp [pushToNode, hn])⟩

theorem got_move {F : Bytes} {k : ℕ} {c : Bytes} : MoveStable F (Got F k c) := by
  intro t t' m h hm
  obtain ⟨len, hlen, hle, hc, hp, hn, hquiet⟩ := h
  rcases move_cases hm with ⟨raw, rest, hq, rfl⟩ | ⟨hp', -, -⟩ | ⟨off', len', hp', -, -, -⟩ | ⟨hp', -⟩
  · rw [hq] at hquiet
    obtain ⟨rfl, hrest⟩ := hquiet.head
    exact ⟨len, hlen, hle, hc, by simp [hp], hn, hrest⟩
  all_goals
    rw [hp] at hp'
    simp at hp'

theorem fresh0_move {F : Bytes} : MoveStable F (Fresh0 F) := by
  intro t t' m h hm
  obtain ⟨-, hbase, hres⟩ := move_frame hm
  exact ⟨sync_move t t' m h.1 hm, hres.trans h.2.1, hbase.trans h.2.2⟩

/-! ## The node's side of the connection -/

/-- A freshly bound socket: nothing is in flight and nothing is accepted. -/
theorem fresh0_of_bind {F : Bytes} {t t' : Transfer} {address : String} {port : Json}
    {r : Except Exn Unit} (h : t.performLink (.bindSocket address port) = some (r, t')) :
    r = .ok () ∧ Fresh0 F t' := by
  simp only [performLink, Link.perform, Option.some.injEq, Prod.mk.injEq] at h
  obtain ⟨rfl, rfl⟩ := h
  exact ⟨rfl, ⟨rfl, Or.inl ⟨rfl, rfl, quiet_nil⟩⟩, rfl, rfl⟩

/-- What a send that goes through leaves behind. -/
theorem performLink_send {t t' : Transfer} {raw : Raw} {r : Except Exn Unit}
    (h : t.performLink (.send raw) = some (r, t')) :
    t.sendConforms raw ∧ t'.link = { t.link with toPeer := t.link.toPeer ++ [raw] } ∧
      t'.peer = t.peer ∧ t'.files = t.files ∧
      ((raw.type? ≠ some (.str "resume") → t'.resumed = t.resumed ∧ t'.base = t.base) ∧
        ∀ k : ℕ, raw = FrameCodec.encode (resumeFrame k) → t'.resumed = true ∧ t'.base = k) := by
  by_cases hb : t.link.bound = some true
  · by_cases hconf : t.sendConforms raw
    · simp only [performLink, Link.perform, hb, if_true, hconf] at h
      split at h
      · next k htype hdata =>
          simp only [Option.some.injEq, Prod.mk.injEq] at h
          obtain ⟨rfl, rfl⟩ := h
          refine ⟨hconf, by simp [hb], rfl, rfl, fun hne => absurd htype hne, ?_⟩
          rintro k' rfl
          have hk : (k' : ℤ) = k := by
            have : some (FrameField.int k') = some (FrameField.int k) := hdata
            simpa using this
          exact ⟨rfl, by rw [← hk, Int.toNat_natCast]⟩
      · next hno =>
          simp only [Option.some.injEq, Prod.mk.injEq] at h
          obtain ⟨rfl, rfl⟩ := h
          refine ⟨hconf, by simp [hb], rfl, rfl, fun _ => ⟨rfl, rfl⟩, ?_⟩
          rintro k' rfl
          exact absurd rfl (hno k' rfl)
    · simp only [performLink, Link.perform, hb, if_true, hconf, if_false] at h
      exact absurd h (by simp)
  · simp only [performLink, Link.perform, hb, if_false] at h
    exact absurd h (by simp)

/-- Sending the start frame of a connection. -/
theorem fresh0_send_start {F : Bytes} {t t' : Transfer} {r : Except Exn Unit}
    (hf : Fresh0 F t) (h : t.performLink (.send (FrameCodec.encode startFrame)) = some (r, t')) :
    Fresh0 F t' := by
  obtain ⟨-, hlink, hpeer, -, hres, -⟩ := performLink_send h
  obtain ⟨hres, hbase⟩ := hres (by decide)
  obtain ⟨hs, hr, hb⟩ := hf
  refine ⟨?_, hres.trans hr, hbase.trans hb⟩
  have hn : t'.link.toNode = t.link.toNode := by rw [hlink]
  have hto : t'.link.toPeer = t.link.toPeer ++ [FrameCodec.encode startFrame] := by rw [hlink]
  cases hp : t.peer with
  | idle =>
      simp only [Sync, hp] at hs
      simp only [Sync, hpeer, hp, hn, hto, hres]
      obtain ⟨hn', ⟨-, -, hquiet⟩ | ⟨hr', -⟩⟩ := hs
      · exact ⟨hn', Or.inl ⟨hr, trivial, quiet_append_start hquiet⟩⟩
      · rw [hr] at hr'
        exact absurd hr' (by simp)
  | ready off =>
      simp only [Sync, hp] at hs
      simp only [Sync, hpeer, hp, hn, hto]
      exact ⟨hs.1, hs.2.1, quiet_append_start hs.2.2⟩
  | awaiting off len =>
      simp only [Sync, hp] at hs
      simp only [Sync, hpeer, hp, hn, hto]
      obtain ⟨hlen, ⟨hoff, hle, hquiet, hn'⟩ | ⟨hoff, -⟩⟩ := hs
      · exact ⟨hlen, Or.inl ⟨hoff, hle, quiet_append_start hquiet, hn'⟩⟩
      · omega
  | ended =>
      simp only [Sync, hp] at hs
      simp only [Sync, hpeer, hp, hn]
      exact hs

/-- Sending the resume frame: a conforming uploader has not started. -/
theorem sync_send_resume {F : Bytes} {t t' : Transfer} {k : ℕ} {r : Except Exn Unit}
    (hf : Fresh0 F t)
    (h : t.performLink (.send (FrameCodec.encode (resumeFrame k))) = some (r, t')) :
    Sync F k t' ∧ t'.base = k ∧ t'.files = t.files := by
  obtain ⟨hconf, hlink, hpeer, hfiles, -, hres⟩ := performLink_send h
  obtain ⟨hres, hbase⟩ := hres k rfl
  have hidle : t.peer = .idle := hconf rfl
  obtain ⟨hs, hr, -⟩ := hf
  simp only [Sync, hidle] at hs
  obtain ⟨hn, ⟨-, -, hquiet⟩ | ⟨hr', -⟩⟩ := hs
  · refine ⟨?_, hbase, hfiles⟩
    simp only [Sync, hpeer, hidle, hlink]
    exact ⟨hn, Or.inr ⟨hres, _, hquiet, rfl⟩⟩
  · rw [hr] at hr'
    exact absurd hr' (by simp)

/-- A frame taken from the connection. -/
theorem performLink_recv {t t' : Transfer} {r : Except Exn Raw}
    (h : t.performLink .recv = some (r, t')) :
    ∃ raw rest, t.link.toNode = raw :: rest ∧ r = .ok raw ∧
      t' = { t with link := { t.link with toNode := rest } } := by
  simp only [performLink, Link.perform] at h
  cases hq : t.link.toNode with
  | nil =>
      rw [hq] at h
      exact absurd h (by simp)
  | cons raw rest =>
      rw [hq] at h
      simp only [Option.some.injEq, Prod.mk.injEq] at h
      exact ⟨raw, rest, rfl, h.1.symm, h.2.symm⟩

/-- The frame the node takes from the connection: the slice at `k`, or END when
everything is accepted. -/
theorem sync_recv {F : Bytes} {k : ℕ} {t t' : Transfer} {r : Except Exn Raw}
    (hs : Sync F k t) (h : t.performLink .recv = some (r, t')) :
    (∃ c, r = .ok (FrameCodec.encode (dataFrame c)) ∧ Got F k c t') ∨
      (r = .ok (FrameCodec.encode endFrame) ∧ k = F.length) := by
  obtain ⟨raw, rest, hq, rfl, rfl⟩ := performLink_recv h
  cases hp : t.peer with
  | idle => simp [Sync, hp, hq] at hs
  | ready off => simp [Sync, hp, hq] at hs
  | awaiting off len =>
      simp only [Sync, hp, hq] at hs
      obtain ⟨hlen, ⟨rfl, hle, hquiet, hn⟩ | ⟨-, hn, -⟩⟩ := hs
      · simp only [List.cons.injEq] at hn
        obtain ⟨rfl, rfl⟩ := hn
        exact Or.inl ⟨_, rfl, len, hlen, hle, rfl, rfl, rfl, hquiet⟩
      · exact absurd hn (by simp)
  | ended =>
      simp only [Sync, hp, hq] at hs
      obtain ⟨hk, hn | hn⟩ := hs
      · exact absurd hn (by simp)
      · simp only [List.cons.injEq] at hn
        exact Or.inr ⟨by rw [hn.1], hk⟩

/-- Sending the ACK of a slice. -/
theorem got_send_ack {F : Bytes} {k : ℕ} {c : Bytes} {t t' : Transfer} {r : Except Exn Unit}
    (hg : Got F k c t) (h : t.performLink (.send (FrameCodec.encode ackFrame)) = some (r, t')) :
    Sync F (k + c.length) t' ∧ t'.base = t.base ∧ t'.files = t.files := by
  obtain ⟨-, hlink, hpeer, hfiles, hres, -⟩ := performLink_send h
  obtain ⟨-, hbase⟩ := hres (by decide)
  obtain ⟨len, hlen, hle, rfl, hp, hn, hquiet⟩ := hg
  have hclen : (slice F k len).length = len := length_slice hle
  refine ⟨?_, hbase, hfiles⟩
  simp only [Sync, hpeer, hp, hlink, hclen]
  exact ⟨hlen, Or.inr ⟨trivial, hn, _, hquiet, rfl⟩⟩

end Upload
