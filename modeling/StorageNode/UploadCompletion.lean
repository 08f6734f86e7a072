/-
# Every upload completes

`FragmentReceiver.receive_data` against an uploader that keeps going, over a connection
that may break once: the node is never stuck, and ends with the whole shard on the disk,
reported once, and with its socket and files closed.

* `Starting`, `Passing` : a connection on which the next move is always possible, before
  and after node and uploader agree on an offset;
* `passing_can` : in a receive pass a frame has arrived, or the uploader can move;
* `total_receiveChunks` : a pass ends within `|F| + 1` frames;
* `upload_completes` : every run of `receive_data` comes to its end.
-/
import StorageNode.LiveUpload

open Transfer

namespace LiveUpload

open Upload (Sync Got Fresh0 Quiet Writing AllClosed Sized Found FilesOnly)

/-! ## A connection that keeps going -/

/-- The socket is bound, an END that was sent is still to be taken, and an idle uploader
was told where to start or may start by itself. -/
structure Lively (first : Bool) (t : Transfer) : Prop where
  bound : t.link.bound = some true
  ended : t.peer = .ended → t.link.toNode = [FrameCodec.encode endFrame]
  told : t.peer = .idle → t.resumed = true ∨ first = true

/-- Node and uploader agree on `k` bytes, on a connection that keeps going. -/
structure Passing (F : Bytes) (first : Bool) (k : ℕ) (t : Transfer) : Prop extends
    Lively first t where
  sync : Sync F k t

/-- A connection on which the node has not said where to start; an uploader that waits to
be told is idle. -/
structure Starting (F : Bytes) (first : Bool) (t : Transfer) : Prop where
  fresh : Fresh0 F t
  bound : t.link.bound = some true
  ended : t.peer = .ended → t.link.toNode = [FrameCodec.encode endFrame]
  waits : first = false → t.peer = .idle

theorem bound_move {F : Bytes} {m : UploaderMove} {t t' : Transfer} (h : t.move F m = some t') :
    t'.link.bound = t.link.bound := by
  rcases Upload.move_cases h with ⟨raw, rest, -, rfl⟩ | ⟨-, -, rfl⟩ | ⟨off, len, -, -, -, rfl⟩ |
    ⟨-, rfl⟩ <;> rfl

/-- An uploader that takes a frame has ended only if it had before. -/
theorem receive_ended {raw : Raw} {p : Uploader} (h : p.receive raw = .ended) : p = .ended := by
  cases p with
  | idle =>
      simp only [Uploader.receive] at h
      split at h
      · split at h <;> simp at h
      · simp at h
  | awaiting off len =>
      simp only [Uploader.receive] at h
      split at h <;> simp at h
  | ready off => exact h
  | ended => rfl

theorem receive_idle {raw : Raw} {p : Uploader} (h : p.receive raw = .idle) : p = .idle := by
  cases p with
  | idle => rfl
  | awaiting off len =>
      simp only [Uploader.receive] at h
      split at h <;> simp at h
  | ready off => exact h
  | ended => exact h

/-- The END of an uploader is not lost. -/
theorem ended_move {F : Bytes} {k : ℕ} {m : UploaderMove} {t t' : Transfer} (hs : Sync F k t)
    (h : t.peer = .ended → t.link.toNode = [FrameCodec.encode endFrame])
    (hm : t.move F m = some t') :
    t'.peer = .ended → t'.link.toNode = [FrameCodec.encode endFrame] := by
  intro hp'
  rcases Upload.move_cases hm with ⟨raw, rest, -, rfl⟩ | ⟨-, -, rfl⟩ | ⟨off, len, -, -, -, rfl⟩ |
    ⟨hp, rfl⟩
  · exact h (receive_ended hp')
  · exact absurd hp' (by simp)
  · exact absurd hp' (by simp [pushToNode])
  · simp only [Sync, hp] at hs
    simp only [pushToNode, hs.2.1, List.nil_append]

theorem kept_passing {F : Bytes} {first : Bool} (k : ℕ) :
    Kept F first (fun t _ => Passing F first k t) := by
  refine kept_link fun t t' m hs h hm => ?_
  refine { sync := Upload.sync_move t t' m h.sync hm, bound := (bound_move hm).trans h.bound,
           ended := ended_move h.sync h.ended hm, told := fun hp' => ?_ }
  have hresumed := (Upload.move_frame hm).2.2
  rw [hresumed]
  rcases Upload.move_cases hm with ⟨raw, rest, -, rfl⟩ | ⟨-, -, rfl⟩ | ⟨off, len, -, -, -, rfl⟩ |
    ⟨-, rfl⟩
  · exact h.told (receive_idle hp')
  all_goals exact absurd hp' (by simp [pushToNode])

theorem kept_starting {F : Bytes} {first : Bool} :
    Kept F first (fun t _ => Starting F first t) := by
  refine kept_link fun t t' m hs h hm => ?_
  refine { fresh := Upload.fresh0_move t t' m h.fresh hm, bound := (bound_move hm).trans h.bound,
           ended := ended_move h.fresh.1 h.ended hm, waits := fun hfirst => ?_ }
  have hidle := h.waits hfirst
  have hfresh := h.fresh
  cases m with
  | start =>
      rw [hs rfl] at hfirst
      exact absurd hfirst (by simp)
  | slice len => simp [Transfer.move, hidle] at hm
  | finish => simp [Transfer.move, hidle] at hm
  | take =>
      -- only start frames are on the way to it
      have hquiet : Quiet t.link.toPeer := by
        have hs' := hfresh.1
        simp only [Sync, hidle] at hs'
        obtain ⟨-, ⟨-, -, hquiet⟩ | ⟨hr, -⟩⟩ := hs'
        · exact hquiet
        · rw [hfresh.2.1] at hr
          exact absurd hr (by simp)
      simp only [Transfer.move] at hm
      split at hm
      · next raw rest hq =>
          rw [hq] at hquiet
          obtain ⟨rfl, -⟩ := hquiet.head
          cases hm
          simp only [hidle, Upload.receive_start]
      · exact absurd hm (by simp)

theorem linkOnly_passing {F : Bytes} {first : Bool} (k : ℕ) : LinkOnly (Passing F first k) := by
  rintro t t' hlink hpeer hresumed - h
  refine ⟨⟨?_, ?_, ?_⟩, ?_⟩
  rotate_left 3
  · unfold Sync
    rw [hlink, hpeer, hresumed]
    exact h.sync
  · rw [hlink]
    exact h.bound
  · rw [hlink, hpeer]
    exact h.ended
  · rw [hpeer, hresumed]
    exact h.told

theorem linkOnly_starting {F : Bytes} {first : Bool} : LinkOnly (Starting F first) := by
  rintro t t' hlink hpeer hresumed hbase ⟨⟨hsync, hr, hb⟩, hbound, hended, hwaits⟩
  refine ⟨⟨?_, hresumed.trans hr, hbase.trans hb⟩, ?_, ?_, ?_⟩
  · unfold Sync
    rw [hlink, hpeer, hresumed]
    exact hsync
  · rw [hlink]
    exact hbound
  · rw [hlink, hpeer]
    exact hended
  · rw [hpeer]
    exact hwaits

/-- **In a receive pass a frame has arrived, or the uploader can move.** -/
theorem passing_can {F : Bytes} {first : Bool} {k : ℕ} {t : Transfer} (h : Passing F first k t)
    (hk : k ≤ F.length) :
    (∃ r t', t.performLink .recv = some (r, t')) ∨
      ∃ m t', (m = .start → first = true) ∧ t.move F m = some t' := by
  -- a frame on its way to the uploader can be taken
  have htake : ∀ raw rest, t.link.toPeer = raw :: rest →
      ∃ m t', (m = UploaderMove.start → first = true) ∧ t.move F m = some t' := by
    intro raw rest hq
    exact ⟨.take, _, fun hs => absurd hs (by simp), by simp only [Transfer.move, hq]; rfl⟩
  have hrecv : ∀ raw rest, t.link.toNode = raw :: rest →
      ∃ r t', t.performLink .recv = some (r, t') := by
    intro raw rest hq
    simp only [performLink, Link.perform, hq]
    exact ⟨_, _, rfl⟩
  have hs := h.sync
  cases hp : t.peer with
  | idle =>
      simp only [Sync, hp] at hs
      obtain ⟨-, ⟨hresumed, -⟩ | ⟨-, q, -, hto⟩⟩ := hs
      · rcases h.told hp with hr | hfirst
        · rw [hresumed] at hr
          exact absurd hr (by simp)
        · refine Or.inr ⟨.start, { t with peer := .ready 0 }, fun _ => hfirst, ?_⟩
          simp only [Transfer.move, hp]
          rw [if_pos ⟨h.bound, hresumed⟩]
      · cases hq : t.link.toPeer with
        | nil => simp [hq] at hto
        | cons raw rest => exact Or.inr (htake raw rest hq)
  | ready off =>
      simp only [Sync, hp] at hs
      obtain ⟨rfl, -⟩ := hs
      by_cases hend : off = F.length
      · refine Or.inr ⟨.finish, t.pushToNode endFrame .ended, fun hs => absurd hs (by simp), ?_⟩
        simp only [Transfer.move, hp]
        rw [if_pos hend]
      · refine Or.inr ⟨.slice 1, t.pushToNode (dataFrame (slice F off 1)) (.awaiting off 1),
          fun hs => absurd hs (by simp), ?_⟩
        simp only [Transfer.move, hp]
        rw [if_pos ⟨Nat.one_pos, by omega⟩]
  | awaiting off len =>
      simp only [Sync, hp] at hs
      obtain ⟨-, ⟨-, -, -, hn⟩ | ⟨-, -, q, -, hto⟩⟩ := hs
      · exact Or.inl (hrecv _ _ hn)
      · cases hq : t.link.toPeer with
        | nil => simp [hq] at hto
        | cons raw rest => exact Or.inr (htake raw rest hq)
  | ended => exact Or.inl (hrecv _ _ (h.ended hp))

/-- A frame can be sent on a bound socket. -/
theorem send_can {t : Transfer} {raw : Raw} (hb : t.link.bound = some true)
    (hc : t.sendConforms raw) : ∃ r t', t.performLink (.send raw) = some (r, t') := by
  simp only [performLink, Link.perform, hb, if_true, hc]
  split <;> exact ⟨_, _, rfl⟩

theorem bound_of_send {t t' : Transfer} {raw : Raw} {r : Except Exn Unit}
    (hb : t.link.bound = some true) (h : t.performLink (.send raw) = some (r, t')) :
    t'.link.bound = some true := by
  rw [(Upload.performLink_send h).2.1]
  exact hb

/-- The start frame changes nothing the uploader acts on. -/
theorem starting_send_start {F : Bytes} {first : Bool} {t t' : Transfer} {r : Except Exn Unit}
    (hs : Starting F first t)
    (h : t.performLink (.send (FrameCodec.encode startFrame)) = some (r, t')) :
    Starting F first t' := by
  obtain ⟨-, hlink, hpeer, -⟩ := Upload.performLink_send h
  refine { fresh := Upload.fresh0_send_start hs.fresh h, bound := bound_of_send hs.bound h,
           ended := ?_, waits := ?_ }
  · rw [hpeer, hlink]
    exact hs.ended
  · rw [hpeer]
    exact hs.waits

/-- **The resume frame** tells a waiting uploader where to start. -/
theorem passing_send_resume {F : Bytes} {t t' : Transfer} {k : ℕ} {r : Except Exn Unit}
    (hs : Starting F false t)
    (h : t.performLink (.send (FrameCodec.encode (resumeFrame k))) = some (r, t')) :
    Passing F false k t' := by
  obtain ⟨-, -, hpeer, -, -, hresumed⟩ := Upload.performLink_send h
  have hidle : t'.peer = .idle := hpeer.trans (hs.waits rfl)
  refine { sync := (Upload.sync_send_resume hs.fresh h).1, bound := bound_of_send hs.bound h,
           ended := ?_, told := fun _ => Or.inl (hresumed k rfl).1 }
  intro hended
  rw [hidle] at hended
  exact absurd hended (by simp)

/-- Without a resume frame the uploader starts by itself. -/
theorem passing_of_starting {F : Bytes} {t : Transfer} (hs : Starting F true t) :
    Passing F true 0 t where
  sync := hs.fresh.1
  bound := hs.bound
  ended := hs.ended
  told := fun _ => Or.inr rfl

/-- The ACK of a slice lets the uploader go on. -/
theorem passing_send_ack {F : Bytes} {first : Bool} {k : ℕ} {c : Bytes} {t t' : Transfer}
    {r : Except Exn Unit} (hg : Got F k c t) (hb : t.link.bound = some true)
    (h : t.performLink (.send (FrameCodec.encode ackFrame)) = some (r, t')) :
    Passing F first (k + c.length) t' := by
  obtain ⟨-, -, hpeer, -⟩ := Upload.performLink_send h
  obtain ⟨len, -, -, -, hp, -⟩ := id hg
  have hwaits : t'.peer = .awaiting k len := hpeer.trans hp
  refine { sync := (Upload.got_send_ack hg h).1, bound := bound_of_send hb h, ended := ?_,
           told := ?_ }
  all_goals
    intro hp'
    rw [hwaits] at hp'
    exact absurd hp' (by simp)

/-! ## The session -/

section Methods

variable {F : Bytes} {path : PyStr} {shardId : Json} {σ : Stage} {A : Transfer → Disk → Prop}

/-- From `A` at the stage `σ`, the program returns `a` in `B a` at the stage `σ'`. -/
def Returns {α : Type} (F : Bytes) (path : PyStr) (shardId : Json) (σ : Stage)
    (A : Transfer → Disk → Prop) (p : Node α) (σ' : Stage) (B : α → Transfer → Disk → Prop) :
    Prop :=
  (machine F path).Total (At F path shardId σ A) p (fun a => At F path shardId σ' (B a))
    (fun _ => False)

/-- `ZmqSessionManager.open`. -/
theorem total_openSocket (hA : Kept F σ.first A) (hf : FilesOnly A) (address : String)
    (port : Json) :
    Returns F path shardId σ A (ZmqSessionManager.openSocket address port) σ
      (fun _ t d => Starting F σ.first t ∧ A t d) := by
  refine Machine.total_bind (B := fun _ => At F path shardId σ A) ?_ fun _ => ?_
  · refine total_onLink (o := .newSocket) rfl rfl hA (fun _ => hA) (fun _ _ _ => ⟨_, _, rfl⟩) ?_
    exact fun t d a t' ha hl => hf t t' d (Upload.performLink_files hl) ha
  · refine total_onLink (o := .bindSocket address port) rfl rfl hA (fun _ => kept_starting.and hA)
      (fun _ _ _ => ⟨_, _, rfl⟩) ?_
    intro t d a t' ha hl
    refine ⟨?_, hf t t' d (Upload.performLink_files hl) ha⟩
    have hfresh : Fresh0 F t' := (Upload.fresh0_of_bind hl).2
    simp only [performLink, Link.perform, Option.some.injEq, Prod.mk.injEq] at hl
    obtain ⟨-, rfl⟩ := hl
    exact { fresh := hfresh, bound := rfl, ended := fun h => absurd h (by simp),
            waits := fun _ => rfl }

/-- A connection with a socket. -/
def Bound (t : Transfer) : Prop := t.link.bound = some true

theorem kept_bound {first : Bool} : Kept F first (fun t _ => Bound t) :=
  kept_link fun _ _ _ _ h hm => (bound_move hm).trans h

/-- No connection: the uploader can do nothing. -/
def Shut (t : Transfer) : Prop := t.link = {} ∧ t.peer = .idle

theorem kept_shut {first : Bool} : Kept F first (fun t _ => Shut t) := by
  refine kept_link fun t t' m _ h hm => ?_
  obtain ⟨hlink, hpeer⟩ := h
  cases m <;> simp [Transfer.move, hlink, hpeer] at hm

/-- `ZmqSessionManager.close` of an open session. -/
theorem total_close (hA : ∀ first, Kept F first A) (hf : FilesOnly A) :
    Returns F path shardId σ (fun t d => Bound t ∧ A t d) ZmqSessionManager.close σ.closed
      (fun _ t d => Shut t ∧ A t d) := by
  have hA' : Kept F σ.first (fun t d => Bound t ∧ A t d) := kept_bound.and (hA _)
  have hhas : Returns F path shardId σ (fun t d => Bound t ∧ A t d) (op .hasSocket) σ
      (fun b t d => b = true ∧ Bound t ∧ A t d) := by
    refine total_onLink rfl rfl hA' (fun _ => (kept_const _).and hA')
      (fun _ _ _ => ⟨_, _, rfl⟩) ?_
    intro t d b t' ha hl
    simp only [performLink, Link.perform, Option.some.injEq, Prod.mk.injEq, Except.ok.injEq] at hl
    obtain ⟨rfl, rfl⟩ := hl
    exact ⟨by rw [ha.1]; rfl, ha⟩
  · refine Machine.total_bind hhas fun b => total_pure fun hb => ?_
    subst hb
    simp only [if_true]
    refine total_onLink (o := .closeSocket) rfl rfl hA' (fun _ => kept_shut.and (hA _))
      (fun _ _ _ => ⟨_, _, rfl⟩) ?_
    intro t d a t' ha hl
    refine ⟨?_, hf t t' d (Upload.performLink_files hl) ha.2⟩
    simp only [performLink, Link.perform, Option.some.injEq, Prod.mk.injEq] at hl
    obtain ⟨-, rfl⟩ := hl
    exact ⟨rfl, rfl⟩

/-- `ZmqSessionManager.reset`. -/
theorem total_reset (hA : ∀ first, Kept F first A) (hf : FilesOnly A) (address : String)
    (port : Json) :
    Returns F path shardId σ (fun t d => Bound t ∧ A t d) (ZmqSessionManager.reset address port)
      σ.closed (fun _ t d => Starting F false t ∧ A t d) :=
  Machine.total_bind (total_close hA hf) fun _ =>
    total_pre (fun _ _ h => h.2) (total_openSocket (σ := σ.closed) (hA _) hf address port)

/-- `ZmqSessionManager.configure_timeouts`. -/
theorem total_configureTimeouts (hA : Kept F σ.first A) (sendMs recvMs : ℕ) :
    Returns F path shardId σ A (ZmqSessionManager.configureTimeouts sendMs recvMs) σ
      (fun _ => A) := by
  refine Machine.total_bind (B := fun _ => At F path shardId σ A) ?_ fun b => ?_
  · refine total_onLink (o := .hasSocket) rfl rfl hA (fun _ => hA) (fun _ _ _ => ⟨_, _, rfl⟩) ?_
    intro t d b t' ha hl
    obtain rfl := Upload.performLink_hasSocket hl
    exact ha
  · split
    · refine total_onLink (o := .setTimeouts sendMs recvMs) rfl rfl hA (fun _ => hA)
        (fun _ _ _ => ⟨_, _, rfl⟩) ?_
      intro t d a t' ha hl
      obtain rfl := Upload.performLink_setTimeouts hl
      exact ha
    · exact Machine.total_ret (stable_at hA) fun _ hv => hv

/-- `_emit_start_signal`. -/
theorem total_emitStartSignal (hA : Kept F σ.first A) (hf : FilesOnly A) :
    Returns F path shardId σ (fun t d => Starting F σ.first t ∧ A t d) emitStartSignal σ
      (fun _ t d => Starting F σ.first t ∧ A t d) := by
  have hA' : Kept F σ.first (fun t d => Starting F σ.first t ∧ A t d) := kept_starting.and hA
  refine total_onLink (o := .send (FrameCodec.encode startFrame)) rfl (by decide) hA'
    (fun _ => hA') ?_ ?_
  · exact fun t d ha => send_can ha.1.bound fun h => absurd h (by decide)
  · exact fun t d a t' ha hl =>
      ⟨starting_send_start ha.1 hl, hf t t' d (Upload.performLink_files hl) ha.2⟩

/-- `_send_resume_offset`, to an uploader that waits for it. -/
theorem total_sendResumeOffset (hfirst : σ.first = false) (hA : Kept F σ.first A)
    (hf : FilesOnly A) (k : ℕ) :
    Returns F path shardId σ (fun t d => Starting F false t ∧ A t d)
      (FragmentReceiver.sendResumeOffset k) σ
      (fun _ t d => Passing F false k t ∧ t.base = k ∧ A t d) := by
  have hbase : Kept F σ.first (fun t _ => t.base = k) :=
    kept_link fun _ _ _ _ h hm => (Upload.move_frame hm).2.1.trans h
  have hstarting : Kept F σ.first (fun t _ => Starting F false t) := by
    rw [hfirst]
    exact kept_starting
  have hpassing : Kept F σ.first (fun t _ => Passing F false k t) := by
    rw [hfirst]
    exact kept_passing k
  refine total_onLink (o := .send (FrameCodec.encode (resumeFrame k))) rfl rfl
    (hstarting.and hA) (fun _ => hpassing.and (hbase.and hA)) ?_ ?_
  · exact fun t d ha => send_can ha.1.bound fun _ => ha.1.waits rfl
  · exact fun t d a t' ha hl => ⟨passing_send_resume ha.1 hl,
      (Upload.sync_send_resume ha.1.fresh hl).2.1, hf t t' d (Upload.performLink_files hl) ha.2⟩

/-! ## Opening the shard file -/

variable (F path) in
/-- The node and the uploader agree on what is in the file and in the handle `fh`. -/
def Receiving (first : Bool) (fh k : ℕ) (t : Transfer) (d : Disk) : Prop :=
  Passing F first k t ∧ Writing F path True fh k t d

theorem kept_writing {path : PyStr} {first : Bool} (fh k : ℕ) :
    Kept F first (Writing F path True fh k) :=
  kept_of_steady (Upload.steady_writing fh k)

theorem kept_receiving {path : PyStr} {first : Bool} (fh k : ℕ) :
    Kept F first (Receiving F path first fh k) :=
  (kept_passing k).and (kept_writing fh k)

variable (path shardId) in
/-- Reading the size of the closed file, announcing it and opening the file there. -/
theorem total_resumeAt {α : Type} (hfirst : σ.first = false) (g : ℕ → Node α)
    {B : α → LiveUpload → Prop} {E : LiveUpload → Prop}
    (hg : ∀ fh k, (machine F path).Total (At F path shardId σ (Receiving F path false fh k)) (g fh)
      B E) :
    (machine F path).Total
      (At F path shardId σ (fun t d => (AllClosed t ∧ ∃ ino, d.lookup path = some ino) ∧
        Starting F false t))
      ((op (.getSize path)).bind fun s =>
        (FragmentReceiver.sendResumeOffset s).bind fun _ => (op (.openFile path .ab)).bind g)
      B E := by
  have hclosed : Upload.Steady F path True
      (fun t d => AllClosed t ∧ ∃ ino, d.lookup path = some ino) :=
    Upload.steady_allClosed.and Upload.steady_exists_file
  have hsized : ∀ s, Upload.Steady F path True (fun t d => AllClosed t ∧ Sized path True s t d) :=
    fun s => Upload.steady_allClosed.and (Upload.steady_sized s)
  have hstarting : Kept F σ.first (fun t _ => Starting F false t) := by
    rw [hfirst]
    exact kept_starting
  have hpassing : ∀ s, Kept F σ.first (fun t _ => Passing F false s t) := by
    intro s
    rw [hfirst]
    exact kept_passing s
  refine Machine.total_bind (total_safe (total_onFile rfl rfl
    (Upload.spec_getSize hclosed) linkOnly_starting
    (kept_of_steady hclosed) (fun s => kept_of_steady ((Upload.steady_const _).and
      ((Upload.steady_sized s).and hclosed))) hstarting ?_)) fun s => ?_
  · rintro w - ⟨-, ino, hl⟩
    exact perform_getSize hl
  refine total_pre (P := fun t d => s ≤ F.length ∧ Starting F false t ∧ AllClosed t ∧
    Sized path True s t d) (fun t d h => ⟨h.1.1, h.2, h.1.2.2.1, h.1.2.1⟩) (total_pure fun hs => ?_)
  refine Machine.total_bind (total_safe (total_sendResumeOffset hfirst
    (kept_of_steady (hsized s))
    (Upload.filesOnly_allClosed.and (Upload.filesOnly_sized s)) s)) fun _ => ?_
  refine total_pre (P := fun t d => (Sync F s t ∧ t.base = s ∧ AllClosed t ∧
    Sized path True s t d) ∧ Passing F false s t)
    (fun t d h => ⟨⟨h.1.sync, h.2.1, h.2.2.1, h.2.2.2⟩, h.1⟩) ?_
  refine Machine.total_bind (total_safe (total_onFile rfl rfl
    (Upload.spec_openFile_ab s hs) (linkOnly_passing s)
    (kept_of_steady ((Upload.steady_link Upload.sync_move).and
      ((Upload.steady_base s).and (hsized s))))
    (fun fh => kept_of_steady ((Upload.steady_link Upload.sync_move).and
      (Upload.steady_writing fh s))) (hpassing s) ?_)) fun fh => ?_
  · rintro w - ⟨-, -, -, ino, hl, -⟩
    exact perform_openFile (Disk.openFile_ab hl)
  · exact total_pre (fun t d h => ⟨h.2, h.1.2⟩) (hg fh s)

/-- `os.path.isfile` gives one answer. -/
theorem found_unique {found found' : Bool} {t : Transfer} {d : Disk}
    (h : Found path True found t d) (h' : Found path True found' t d) : found = found' := by
  have hno : Found path True true t d → Found path True false t d → False := by
    rintro ⟨ino, hl⟩ hnone
    rw [hnone trivial] at hl
    exact absurd hl (by simp)
  cases found <;> cases found'
  · rfl
  · exact (hno h' h).elim
  · exact (hno h h').elim
  · rfl

/-- **`_open_shard_file`**: behind what the file holds, or from the start of a new one. -/
theorem total_openShardFile :
    Returns F path shardId σ
      (fun t d => Starting F σ.first t ∧ AllClosed t ∧ Found path True (!σ.first) t d)
      (FragmentReceiver.openShardFile path) σ
      (fun fh t d => ∃ k, Receiving F path σ.first fh k t d) := by
  have hA : Upload.Steady F path True
      (fun t d => AllClosed t ∧ Found path True (!σ.first) t d) :=
    Upload.steady_allClosed.and (Upload.steady_found _)
  have hall : ∀ fh, Kept F σ.first (fun t d => ∃ k, Receiving F path σ.first fh k t d) :=
    fun fh => Kept.exists fun k => kept_receiving fh k
  refine total_pre (P := fun t d => (AllClosed t ∧ Found path True (!σ.first) t d) ∧
    Starting F σ.first t) (fun t d h => ⟨h.2, h.1⟩) ?_
  refine Machine.total_bind (total_onFile rfl rfl (Upload.spec_isFile hA) linkOnly_starting
    (kept_of_steady hA) (fun found => kept_of_steady (hA.and (Upload.steady_found found)))
    kept_starting (fun w _ _ => ⟨_, _, rfl⟩)) fun found => ?_
  refine total_pre (P := fun t d => found = !σ.first ∧ (AllClosed t ∧ Found path True found t d) ∧
    Starting F σ.first t)
    (fun t d h => ⟨found_unique h.1.2 h.1.1.2, ⟨h.1.1.1, h.1.2⟩, h.2⟩) (total_pure fun hfound => ?_)
  subst hfound
  cases hfirst : σ.first with
  | false =>
      have hret := total_resumeAt path shardId (E := fun _ => False) hfirst
        Prog.ret fun fh k => Machine.total_ret (stable_at (hfirst ▸ kept_receiving fh k))
          fun v hv => at_mono (fun t d h => (⟨k, h⟩ : ∃ k, Receiving F path false fh k t d)) hv
      simp only [Prog.bind_ret] at hret
      exact hret
  | true =>
      refine total_pre (P := fun t d => ((Sync F 0 t ∧ t.base = 0 ∧ AllClosed t) ∧
        Found path True false t d) ∧ Passing F true 0 t)
        (fun t d h => ⟨⟨⟨h.2.fresh.1, h.2.fresh.2.2, h.1.1⟩, h.1.2⟩, passing_of_starting h.2⟩) ?_
      have hbefore : Upload.Steady F path True (fun t d => (Sync F 0 t ∧ t.base = 0 ∧ AllClosed t) ∧
          Found path True false t d) :=
        ((Upload.steady_link Upload.sync_move).and ((Upload.steady_base 0).and
          Upload.steady_allClosed)).and (Upload.steady_found false)
      have hpassing : Kept F σ.first (fun t _ => Passing F true 0 t) := by
        rw [hfirst]
        exact kept_passing 0
      refine Machine.total_mono (fun _ hv => hv)
        (fun fh v hv => at_mono (fun t d h => ⟨0, h.2, h.1.2⟩) hv) (fun _ hv => hv)
        (total_onFile rfl rfl Upload.spec_openFile_wb (linkOnly_passing 0)
          (kept_of_steady hbefore)
          (fun fh => kept_of_steady ((Upload.steady_link Upload.sync_move).and
            (Upload.steady_writing fh 0))) hpassing ?_)
      rintro w - ⟨-, hnone⟩
      exact perform_openFile (Disk.openFile_wb_create (hnone trivial))

/-! ## Receiving -/

variable (F) in
/-- The node took the slice `c` and has not answered it, on a bound socket. -/
def Taken (k : ℕ) (c : Bytes) (t : Transfer) : Prop := Got F k c t ∧ Bound t

theorem kept_taken {first : Bool} (k : ℕ) (c : Bytes) : Kept F first (fun t _ => Taken F k c t) :=
  kept_link fun t t' m _ h hm => ⟨Upload.got_move t t' m h.1 hm, (bound_move hm).trans h.2⟩

variable (F path) in
/-- What a pass leaves that breaks off: a bound socket, and a stretch of `F` in the handle. -/
def Stopped (fh : ℕ) (t : Transfer) (d : Disk) : Prop :=
  ∃ k, Bound t ∧ Writing F path True fh k t d

theorem kept_stopped {first : Bool} (fh : ℕ) : Kept F first (Stopped F path fh) :=
  Kept.exists fun k => kept_bound.and (kept_writing fh k)

variable (F path) in
/-- What one frame leads to: END when all is taken, or more bytes than before. -/
def Handled (first : Bool) (fh k : ℕ) (ended : Bool) (t : Transfer) (d : Disk) : Prop :=
  match ended with
  | true => Bound t ∧ Writing F path True fh F.length t d
  | false => ∃ k', k < k' ∧ Receiving F path first fh k' t d

theorem kept_handled {first : Bool} (fh k : ℕ) (ended : Bool) :
    Kept F first (Handled F path first fh k ended) := by
  cases ended with
  | true => exact kept_bound.and (kept_writing fh _)
  | false => exact Kept.exists fun k' => (kept_const _).and (kept_receiving fh k')

/-- The frame taken from the connection: a slice, or END when all is taken. -/
theorem total_recv (fh k : ℕ) :
    (machine F path).Total (At F path shardId σ (Receiving F path σ.first fh k)) (op .recv)
      (fun raw => At F path shardId σ (fun t d =>
        (∃ c, raw = FrameCodec.encode (dataFrame c) ∧ Taken F k c t ∧
          Writing F path True fh k t d) ∨
        (raw = FrameCodec.encode endFrame ∧ k = F.length ∧ Bound t ∧
          Writing F path True fh k t d)))
      (fun v => σ.spare = true ∧ At F path shardId σ.broken (Stopped F path fh) v) := by
  refine total_inPass (o := .recv) rfl (kept_receiving fh k) (fun raw => ?_) (kept_stopped fh)
    (fun t d h => ?_) (fun t d h => ⟨k, h.1.bound, h.2⟩) ?_
  · exact (Kept.exists fun c => (kept_const _).and ((kept_taken k c).and (kept_writing fh k))).or
      ((kept_const _).and ((kept_const _).and (kept_bound.and (kept_writing fh k))))
  · obtain ⟨f, -, hf⟩ := h.2.1
    exact passing_can h.1 hf.le
  · intro t d raw t' h hl
    have hbound : Bound t' ∧ Writing F path True fh k t' d := by
      obtain ⟨raw, rest, -, -, rfl⟩ := Upload.performLink_recv hl
      exact ⟨h.1.bound, h.2.frame rfl rfl⟩
    rcases Upload.sync_recv h.1.sync hl with ⟨c, hr, hgot⟩ | ⟨hr, hk⟩
    · exact Or.inl ⟨c, Except.ok.inj hr, ⟨hgot, hbound.1⟩, hbound.2⟩
    · exact Or.inr ⟨Except.ok.inj hr, hk, hbound⟩

/-- The ACK of a slice, which is sent before the slice is written. -/
theorem total_sendAck (fh k : ℕ) (c : Bytes) :
    (machine F path).Total
      (At F path shardId σ (fun t d => Taken F k c t ∧ Writing F path True fh k t d))
      (op (.send (FrameCodec.encode ackFrame)))
      (fun _ => At F path shardId σ (fun t d =>
        (0 < c.length ∧ ∃ len, c = slice F k len ∧ k + len ≤ F.length) ∧
          Passing F σ.first (k + c.length) t ∧ Writing F path True fh k t d))
      (fun v => σ.spare = true ∧ At F path shardId σ.broken (Stopped F path fh) v) := by
  refine total_inPass (o := .send (FrameCodec.encode ackFrame)) rfl
    ((kept_taken k c).and (kept_writing fh k))
    (fun _ => (kept_const _).and ((kept_passing _).and (kept_writing fh k))) (kept_stopped fh)
    (fun t d h => ?_) (fun t d h => ⟨k, h.1.2, h.2⟩) ?_
  · exact Or.inl (send_can h.1.2 fun h => absurd h (by decide))
  · intro t d a t' h hl
    obtain ⟨len, hpos, hle, hc, -⟩ := h.1.1
    obtain ⟨-, hbase, hfiles⟩ := Upload.got_send_ack h.1.1 hl
    refine ⟨⟨?_, len, hc, hle⟩, passing_send_ack h.1.1 h.1.2 hl, h.2.frame hfiles hbase⟩
    rw [hc, Upload.length_slice hle]
    exact hpos

/-- The write of an acknowledged slice. -/
theorem total_writeSlice (fh k : ℕ) (c : Bytes)
    (hc : ∃ len, c = slice F k len ∧ k + len ≤ F.length) :
    (machine F path).Total
      (At F path shardId σ (fun t d =>
        Passing F σ.first (k + c.length) t ∧ Writing F path True fh k t d))
      (op (.write fh c))
      (fun _ => At F path shardId σ (Receiving F path σ.first fh (k + c.length)))
      (fun v => σ.spare = true ∧ At F path shardId σ.broken (Stopped F path fh) v) := by
  have hsync : ∀ k', Kept F σ.first (fun t d => Sync F (k + c.length) t ∧
      Writing F path True fh k' t d) :=
    fun k' => kept_of_steady ((Upload.steady_link Upload.sync_move).and
      (Upload.steady_writing fh k'))
  refine total_pre (P := fun t d => (Sync F (k + c.length) t ∧ Writing F path True fh k t d) ∧
    Passing F σ.first (k + c.length) t) (fun t d h => ⟨⟨h.1.sync, h.2⟩, h.1⟩) ?_
  refine Machine.total_mono (fun _ hv => hv)
    (fun _ v hv => at_mono (fun t d h => ⟨h.2, h.1.2⟩) hv)
    (fun v hv => ⟨hv.1, at_mono (fun t d h => ?_) hv.2⟩)
    (total_write (Upload.spec_write fh k c hc) (linkOnly_passing _) (hsync k) (hsync _)
      (Kept.exists fun k' => kept_writing fh k') (kept_passing _))
  obtain ⟨⟨k', hw⟩, hp⟩ := h
  exact ⟨k', hp.bound, hw⟩

/-- **One frame** is END when all is taken, or a slice that is acknowledged and written; or
the pass breaks off. -/
theorem total_receiveFrame (fh k : ℕ) :
    (machine F path).Total (At F path shardId σ (Receiving F path σ.first fh k))
      (FragmentReceiver.receiveFrame fh)
      (fun ended => At F path shardId σ (Handled F path σ.first fh k ended))
      (fun v => σ.spare = true ∧ At F path shardId σ.broken (Stopped F path fh) v) := by
  have hw : Kept F σ.first (fun t d => Bound t ∧ Writing F path True fh k t d) :=
    kept_bound.and (kept_writing fh k)
  have hbreak : ∀ v, (σ.spare = true ∧ At F path shardId σ.broken
      (fun t d => Bound t ∧ Writing F path True fh k t d) v) →
      σ.spare = true ∧ At F path shardId σ.broken (Stopped F path fh) v :=
    fun v hv => ⟨hv.1, at_mono (fun t d h => ⟨k, h⟩) hv.2⟩
  refine Machine.total_bind (total_recv fh k) fun raw =>
    total_or (total_exists fun c => total_pure fun hraw => ?_) (total_pure fun hraw => ?_)
  · -- a slice
    subst hraw
    have htaken : Kept F σ.first (fun t d => Taken F k c t ∧ Writing F path True fh k t d) :=
      (kept_taken k c).and (kept_writing fh k)
    refine Machine.total_bind (Machine.total_mono (fun _ hv => hv) (fun _ _ hv => hv)
      (fun v hv => ⟨hv.1, at_mono (fun t d h => ⟨k, h.1.2, h.2⟩) hv.2⟩)
      (total_pickleLoads htaken (dataFrame c))) fun obj => Machine.total_pure fun hobj => ?_
    subst hobj
    have htype : (dataFrame c).getItem "type" = .ok (.str "data") := rfl
    have hdata : (dataFrame c).getItem "data" = .ok (.bytes c) := rfl
    simp only [htype, hdata, Prog.ofExcept, Prog.bind_eq, Prog.ret_bind, if_true]
    refine Machine.total_bind (total_sendAck fh k c) fun _ => total_pure fun hc => ?_
    refine Machine.total_bind (total_writeSlice fh k c hc.2) fun _ => ?_
    refine Machine.total_ret (stable_at (kept_receiving fh _)) fun v hv => ?_
    exact at_mono (fun t d h => ⟨k + c.length, by have := hc.1; omega, h⟩) hv
  · -- END
    subst hraw
    refine total_pure fun hk => ?_
    subst hk
    refine Machine.total_bind (Machine.total_mono (fun _ hv => hv) (fun _ _ hv => hv) hbreak
      (total_pickleLoads hw endFrame)) fun obj => Machine.total_pure fun hobj => ?_
    subst hobj
    have htype : endFrame.getItem "type" = .ok (.str "END") := rfl
    have hne : FrameField.str "END" ≠ FrameField.str "data" := by decide
    simp only [htype, Prog.ofExcept, Prog.bind_eq, Prog.ret_bind, if_neg hne]
    exact Machine.total_ret (stable_at hw) fun _ hv => hv

theorem le_of_writing {fh k : ℕ} {t : Transfer} {d : Disk} (h : Writing F path True fh k t d) :
    k ≤ F.length := by
  obtain ⟨⟨f, -, hf⟩, -⟩ := h
  exact hf.le

/-- One frame raises only `Exception`s when its operations do. -/
theorem raises_receiveFrame (fh : ℕ) :
    (FragmentReceiver.receiveFrame fh).Raises fun e => e.isException = true := by
  refine Prog.raises_bind (Prog.raises_perform _) fun raw => ?_
  refine Prog.raises_bind (Prog.raises_perform _) fun frame => ?_
  refine Prog.raises_bind (Prog.raises_ofExcept fun e he => PyObj.isException_of_getItem he)
    fun type => ?_
  split
  · refine Prog.raises_bind (Prog.raises_perform _) fun _ => ?_
    refine Prog.raises_bind (Prog.raises_ofExcept fun e he => PyObj.isException_of_getItem he)
      fun data => ?_
    cases data with
    | bytes b => exact Prog.raises_bind (Prog.raises_perform _) fun _ => trivial
    | _ => exact rfl
  · exact trivial

variable (F path shardId σ) in
/-- What a pass leaves: everything taken, or a pass that broke off. -/
def Passed (fh : ℕ) (completed : Bool) (v : LiveUpload) : Prop :=
  match completed with
  | true => At F path shardId σ (fun t d => Bound t ∧ Writing F path True fh F.length t d) v
  | false => σ.spare = true ∧ At F path shardId σ.broken (Stopped F path fh) v

theorem stable_passed (fh : ℕ) (completed : Bool) :
    (machine F path).Stable (Passed F path shardId σ fh completed) := by
  cases completed with
  | true => exact stable_at (kept_bound.and (kept_writing fh _))
  | false =>
      exact fun v v' hv henv => ⟨hv.1, stable_at (σ := σ.broken) (kept_stopped fh) v v' hv.2 henv⟩

variable (F path shardId σ) in
/-- What one round of a pass leaves. -/
def Round (fh k : ℕ) (ended : Option Bool) (v : LiveUpload) : Prop :=
  match ended with
  | some ended => At F path shardId σ (Handled F path σ.first fh k ended) v
  | none => Passed F path shardId σ fh false v

/-- **A receive pass ends**: every frame takes the node further, so that `|F| + 1` frames are
enough; it ends with everything taken, or it is the one that breaks off. -/
theorem total_receiveChunks (fh : ℕ) {fuel k : ℕ} (hfuel : F.length < k + fuel)
    (hk : k ≤ F.length) :
    (machine F path).Total (At F path shardId σ (Receiving F path σ.first fh k))
      (FragmentReceiver.receiveChunks fh fuel) (Passed F path shardId σ fh) (fun _ => False) := by
  induction fuel generalizing k with
  | zero => omega
  | succ fuel ih =>
      refine Machine.total_bind (B := Round F path shardId σ fh k) ?_ fun ended => ?_
      · refine Machine.total_tryExcept_raises (fun _ _ _ _ => isException_of_exec)
          (Prog.raises_bind (raises_receiveFrame fh) fun _ => trivial)
          (Machine.total_bind (total_receiveFrame fh k) fun ended => ?_) fun e he => ?_
        · exact Machine.total_ret (stable_at (kept_handled fh k ended)) fun _ hv => hv
        · rw [if_pos he]
          exact Machine.total_ret (stable_passed fh false) fun _ hv => hv
      · cases ended with
        | none => exact Machine.total_ret (stable_passed fh false) fun _ hv => hv
        | some ended =>
            cases ended with
            | true => exact Machine.total_ret (stable_passed fh true) fun _ hv => hv
            | false =>
                refine total_exists fun k' => total_pre (P := fun t d =>
                  (k < k' ∧ k' ≤ F.length) ∧ Receiving F path σ.first fh k' t d)
                  (fun t d h => ⟨⟨h.1, le_of_writing h.2.2⟩, h.2⟩) (total_pure fun hk' => ?_)
                exact ih (by omega) hk'.2

/-! ## Reconnecting -/

theorem linkOnly_bound : LinkOnly Bound := by
  rintro t t' hlink - - - h
  unfold Bound
  rw [hlink]
  exact h

/-- Closing the handle: the file holds what the node took. -/
theorem total_closeFile (fh k : ℕ) :
    Returns F path shardId σ (fun t d => Bound t ∧ Writing F path True fh k t d)
      (op (.closeFile fh)) σ
      (fun _ t d => Bound t ∧ AllClosed t ∧ Sized path True k t d) := by
  refine total_pre (P := fun t d => Writing F path True fh k t d ∧ Bound t)
    (fun t d h => ⟨h.2, h.1⟩) ?_
  refine Machine.total_mono (fun _ hv => hv)
    (fun _ v hv => at_mono (fun t d h => ⟨h.2, h.1⟩) hv) (fun _ hv => hv)
    (total_onFile rfl rfl (Upload.spec_closeFile fh k) linkOnly_bound (kept_writing fh k)
      (fun _ => kept_of_steady (Upload.steady_allClosed.and (Upload.steady_sized k)))
      kept_bound fun w _ _ => ⟨_, _, rfl⟩)

theorem exists_of_sized {k : ℕ} {t : Transfer} {d : Disk} (h : Sized path True k t d) :
    ∃ ino, d.lookup path = some ino := by
  obtain ⟨ino, hl, -⟩ := h
  exact ⟨ino, hl⟩

/-- **`_attempt_reconnect`** succeeds: the uploader is told the size of the closed file. -/
theorem total_attemptReconnect (cfg : Config) (port : Json) :
    (machine F path).Total
      (At F path shardId σ (fun t d => Bound t ∧ AllClosed t ∧ ∃ ino, d.lookup path = some ino))
      (FragmentReceiver.attemptReconnect cfg port path)
      (fun r v => ∃ fh, r = some fh ∧
        At F path shardId σ.closed (fun t d => ∃ k, Receiving F path false fh k t d) v)
      (fun _ => False) := by
  have hclosed : ∀ first, Kept F first
      (fun t d => AllClosed t ∧ ∃ ino, d.lookup path = some ino) :=
    fun _ => kept_of_steady (Upload.steady_allClosed.and Upload.steady_exists_file)
  have hfiles : FilesOnly (fun t d => AllClosed t ∧ ∃ ino, d.lookup path = some ino) :=
    Upload.filesOnly_allClosed.and fun _ _ _ _ h => h
  have hstarted : Kept F σ.closed.first (fun t d => Starting F false t ∧ AllClosed t ∧
      ∃ ino, d.lookup path = some ino) := kept_starting.and (hclosed _)
  refine Machine.total_tryExcept (E := fun _ => False) ?_ fun e v hv => hv.elim
  refine Machine.total_bind (total_reset hclosed hfiles _ _) fun _ => ?_
  refine Machine.total_bind (total_configureTimeouts hstarted _ _) fun _ => ?_
  refine Machine.total_bind (total_emitStartSignal (σ := σ.closed) (hclosed _) hfiles) fun _ => ?_
  refine Machine.total_bind (total_configureTimeouts hstarted _ _) fun _ => ?_
  refine total_pre (fun t d h => ⟨h.2, h.1⟩) (total_resumeAt path shardId (σ := σ.closed) rfl _ fun fh k => ?_)
  refine Machine.total_ret (stable_at (kept_receiving fh k)) fun v hv => ⟨fh, rfl, ?_⟩
  exact at_mono (fun t d h => ⟨k, h⟩) hv

/-- **The two passes take everything**, whether the first breaks off or not. -/
theorem total_receivePasses (cfg : Config) {fuel : ℕ} (hfuel : F.length < fuel) (port : Json)
    (fh : ℕ) :
    (machine F path).Total
      (At F path shardId σ (fun t d => ∃ k, Receiving F path σ.first fh k t d))
      (FragmentReceiver.receivePasses cfg fuel port path fh)
      (fun r v => r.1 = true ∧ ∃ σ', σ'.reported = σ.reported ∧
        At F path shardId σ' (fun t d => Bound t ∧ Writing F path True r.2 F.length t d) v)
      (fun _ => False) := by
  -- a pass that starts when `k` bytes are taken
  have hpass : ∀ (σ' : Stage) (fh' : ℕ), (machine F path).Total
      (At F path shardId σ' (fun t d => ∃ k, Receiving F path σ'.first fh' k t d))
      (FragmentReceiver.receiveChunks fh' fuel) (Passed F path shardId σ' fh')
      (fun _ => False) := by
    intro σ' fh'
    refine total_exists fun k => total_pre (P := fun t d => k ≤ F.length ∧
      Receiving F path σ'.first fh' k t d) (fun t d h => ⟨le_of_writing h.2, h⟩)
      (total_pure fun hk => ?_)
    exact total_receiveChunks fh' (by omega) hk
  have hend : ∀ (σ' : Stage) (fh' : ℕ), (machine F path).Stable
      (At F path shardId σ' (fun t d => Bound t ∧ Writing F path True fh' F.length t d)) :=
    fun σ' fh' => stable_at (kept_bound.and (kept_writing fh' _))
  refine Machine.total_bind (hpass σ fh) fun completed => ?_
  cases completed with
  | true =>
      simp only [if_true]
      exact Machine.total_ret (hend σ fh) fun v hv => ⟨rfl, σ, rfl, hv⟩
  | false =>
      simp only [Bool.false_eq_true, if_false]
      refine Machine.total_pure fun _ => total_exists fun k => ?_
      refine Machine.total_bind (total_closeFile (σ := σ.broken) fh k) fun _ => ?_
      refine Machine.total_bind (total_pre (fun t d h => ⟨h.1, h.2.1, exists_of_sized h.2.2⟩)
        (total_attemptReconnect cfg port)) fun r => Machine.total_exists fun fh' =>
          Machine.total_pure fun hr => ?_
      subst hr
      refine Machine.total_bind (hpass σ.broken.closed fh') fun completed => ?_
      cases completed with
      | true =>
          exact Machine.total_ret (hend σ.broken.closed fh') fun v hv =>
            ⟨rfl, σ.broken.closed, rfl, hv⟩
      | false => exact fun v hv => absurd hv.1 (by simp [Stage.broken, Stage.closed])

/-! ## `receive_data` -/

/-- Nothing is left open, and the file holds the whole content. -/
def Complete (F : Bytes) (path : PyStr) (t : Transfer) (d : Disk) : Prop :=
  Shut t ∧ AllClosed t ∧ Sized path True F.length t d

theorem kept_complete {first : Bool} : Kept F first (Complete F path) :=
  kept_shut.and (kept_of_steady (Upload.steady_allClosed.and (Upload.steady_sized _)))

/-- `done_uploading`. -/
theorem total_doneUploading :
    Returns F path shardId σ (Complete F path) (op (.doneUploading shardId))
      { σ with reported := shardId :: σ.reported } (fun _ => Complete F path) := by
  refine total_sure (o := .doneUploading shardId) rfl kept_complete (fun _ => kept_complete)
    (fun v _ => can_of_perform rfl) ?_
  intro w c a w' hgood h he
  have hgood' := (Setting.spec_exec (S := Upload.uploadSetting F path shardId () True)
    Upload.spec_doneUploading ⟨hgood, h.2⟩ ⟨c, he, Or.inl trivial⟩).1
  obtain rfl := UploadWorld.exec_doneUploading he
  exact ⟨hgood', h⟩

/-- `_close_router_port`. -/
theorem total_closeRouterPort (hA : Kept F σ.first A) (cfg : Config) (port : Json) :
    Returns F path shardId σ A (closeRouterPort cfg port) σ (fun _ => A) := by
  unfold closeRouterPort
  split
  · refine Machine.total_bind (total_outside rfl rfl hA) fun _ => ?_
    exact Machine.total_ret (stable_at hA) fun _ hv => hv
  · exact Machine.total_ret (stable_at hA) fun _ hv => hv

variable (F path shardId) in
/-- How `receive_data` ends: complete, and reported. -/
def Finished (reported : List Json) (v : LiveUpload) : Prop :=
  ∃ σ, σ.reported = reported ∧ At F path shardId σ (Complete F path) v

/-- **`receive_data`** takes the whole shard. -/
theorem total_receiveData (cfg : Config) {fuel : ℕ} (hfuel : F.length < fuel) (request : Dict)
    {port : Json} (hshard : request.getItem "shard_id" = .ok shardId)
    (hpath : joinPath cfg.dataDirectory shardId = .ok path)
    (hport : request.getItem "port" = .ok port) :
    (machine F path).Total
      (At F path shardId σ (fun t d => AllClosed t ∧ Found path True (!σ.first) t d))
      (FragmentReceiver.receiveData cfg fuel request)
      (fun _ => Finished F path shardId
        (if cfg.backend then shardId :: σ.reported else σ.reported)) (fun _ => False) := by
  have hbefore : ∀ first, Kept F first
      (fun t d => AllClosed t ∧ Found path True (!σ.first) t d) :=
    fun _ => kept_of_steady (Upload.steady_allClosed.and (Upload.steady_found _))
  have hfiles : FilesOnly (fun t d => AllClosed t ∧ Found path True (!σ.first) t d) :=
    Upload.filesOnly_allClosed.and fun _ _ _ _ h => h
  refine Machine.total_bind (total_outside rfl rfl (hbefore _)) fun present => ?_
  refine Machine.total_bind (B := fun _ => At F path shardId σ
    (fun t d => AllClosed t ∧ Found path True (!σ.first) t d)) ?_ fun _ => ?_
  · split
    · exact Machine.total_ret (stable_at (hbefore _)) fun _ hv => hv
    · exact total_outside rfl rfl (hbefore _)
  simp only [hshard, hpath, hport, Prog.ofExcept, Prog.bind_eq, Prog.ret_bind]
  refine Machine.total_bind (total_openSocket (hbefore _) hfiles _ _) fun _ => ?_
  refine Machine.total_bind (total_emitStartSignal (hbefore _) hfiles) fun _ => ?_
  refine Machine.total_bind total_openShardFile fun fh => ?_
  refine Machine.total_bind (total_configureTimeouts
    (Kept.exists fun k => kept_receiving fh k) _ _) fun _ => ?_
  refine Machine.total_bind (total_receivePasses cfg hfuel port fh) fun r =>
    Machine.total_pure fun hr => Machine.total_exists fun σ' => Machine.total_pure fun hσ' => ?_
  obtain ⟨completed, fh'⟩ := r
  obtain rfl : completed = true := hr
  rw [← hσ']
  refine Machine.total_bind (total_closeFile fh' _) fun _ => ?_
  refine Machine.total_bind (total_close
    (fun _ => kept_of_steady (Upload.steady_allClosed.and (Upload.steady_sized _)))
    (Upload.filesOnly_allClosed.and (Upload.filesOnly_sized _))) fun _ => ?_
  have hrest : ∀ σ₁ : Stage, (machine F path).Total (At F path shardId σ₁ (Complete F path))
      ((closeRouterPort cfg port).bind fun _ =>
        (op (.ledgerUnregister request)).bind fun _ => .ret ())
      (fun _ => Finished F path shardId σ₁.reported) (fun _ => False) := by
    intro σ₁
    refine Machine.total_bind (total_closeRouterPort kept_complete cfg port) fun _ => ?_
    refine Machine.total_bind (total_outside rfl rfl kept_complete) fun _ => ?_
    exact Machine.total_ret (stable_at kept_complete) fun v hv => ⟨σ₁, rfl, hv⟩
  cases hbackend : cfg.backend with
  | false =>
      simp only [Bool.and_false, Bool.false_eq_true, if_false]
      exact hrest σ'.closed
  | true =>
      simp only [Bool.and_true, if_true]
      exact Machine.total_bind (total_doneUploading (σ := σ'.closed)) fun _ => hrest _

end Methods

/-- **Every upload completes.**  An upload of `F` to an absent shard or to one that holds a
beginning of `F`, by an uploader that keeps going, over a connection that breaks at most
once, at any operation of a receive pass: however the operations and the uploader's moves
are ordered, `receive_data` returns, with all of `F` in the file, the shard reported once
when there is a backend, and the socket and every file closed. -/
theorem upload_completes (F : Bytes) (cfg : Config) (fuel : ℕ) (request : Dict) (shardId : PyStr)
    (port : Json) (d : Disk) (spare : Bool) (hfuel : F.length < fuel)
    (hshard : request.getItem "shard_id" = .ok (.str shardId))
    (hport : request.getItem "port" = .ok port)
    (hfile : ∀ b, d.content (osPathJoin cfg.dataDirectory shardId) = some b → b <+: F) :
    Inevitably (machine F (osPathJoin cfg.dataDirectory shardId)).Step
      (fun s => s.1 = .ret () ∧
        s.2.upload.disk.content (osPathJoin cfg.dataDirectory shardId) = some F ∧
        s.2.upload.done.map DoneCall.shardId = (if cfg.backend then [.str shardId] else []) ∧
        (s.2.upload.transfer ()).link = {} ∧ ∀ fh, (s.2.upload.transfer ()).file? fh = none)
      (FragmentReceiver.receiveData cfg fuel request,
        start (osPathJoin cfg.dataDirectory shardId) spare d) := by
  have hstart : At F (osPathJoin cfg.dataDirectory shardId) (.str shardId)
      (start (osPathJoin cfg.dataDirectory shardId) spare d).stage
      (fun t d' => AllClosed t ∧ Found (osPathJoin cfg.dataDirectory shardId) True
        (!(d.lookup (osPathJoin cfg.dataDirectory shardId)).isNone) t d')
      (start (osPathJoin cfg.dataDirectory shardId) spare d) := by
    refine ⟨⟨⟨hfile, by simp [start, UploadWorld.start]⟩, fun j => ?_, ?_⟩, rfl⟩
    · simp [start, UploadWorld.start, file?]
    · cases hl : d.lookup (osPathJoin cfg.dataDirectory shardId) with
      | none => exact fun _ => hl
      | some ino => exact ⟨ino, hl⟩
  refine (Machine.total_inevitable (wf_env F _)
    (total_receiveData cfg hfuel request hshard rfl hport) hstart).mono ?_
  rintro ⟨p, v⟩ - ⟨r, rfl, hr⟩
  cases r with
  | error e => exact hr.elim
  | ok a =>
      obtain ⟨σ, hσ, ⟨hgood, hshut, hclosed, ino, hl, hle, -⟩, hstage⟩ := hr
      have hcontent := Disk.content_of_lookup hl
      refine ⟨rfl, ?_, ?_, hshut.1, hclosed⟩
      · rw [hcontent, (hgood.1 _ hcontent).eq_of_length_le hle]
      · have hreported : v.stage.reported = σ.reported := congrArg Stage.reported hstage
        rw [hσ] at hreported
        exact hreported

end LiveUpload
