/-
# Downloads that come to an end

The surroundings of one download as far as its completion rests on them: a shard file that
stays as it is, and a downloader that keeps going.  The connection may break once, at any
operation of a transmit pass after the first data frame; every other operation succeeds.
A break shows as an `Exception`.

* `LiveDownload` : the world of such a download;
* `Phase.mayFail` : the operations at which a lost connection shows;
* `LiveDownload.wf_env` : the downloader's moves come to an end;
* `total_op`, `total_onLink`, `total_onFile` : the rules of the node's operations.
-/
import StorageNode.DownloadIntegrity
import StorageNode.TotalCorrectness
import StorageNode.LiveUpload

open DownloadWorld

/-- A download, whether its connection can still break, and whether the node has sent a data
frame. -/
structure LiveDownload where
  download : DownloadWorld
  spare : Bool
  sending : Bool := false

/-- What changes slowly in a download: whether the connection can still break, and whether
the node has sent a data frame. -/
structure Phase where
  spare : Bool
  sending : Bool

/-- The sending of a data frame. -/
def NodeOp.sendsData : NodeOp → Bool
  | .send raw => raw.type? = some (.str "data")
  | _ => false

/-- The other operations inside the `try` of `_transmit_chunks`. -/
def NodeOp.inTransmit : NodeOp → Bool
  | .recv => true
  | .pickleLoads _ => true
  | .read _ _ => true
  | _ => false

/-- The operations on the shard file. -/
def NodeOp.readsFile : NodeOp → Bool
  | .isFile _ => true
  | .openFile _ _ => true
  | .read _ _ => true
  | .seek _ _ => true
  | .closeFile _ => true
  | _ => false

namespace Phase

/-- A data frame starts the transmission. -/
def after (σ : Phase) (o : NodeOp) : Phase := if o.sendsData then { σ with sending := true } else σ

/-- The connection has broken. -/
def broken (σ : Phase) : Phase := { σ with spare := false }

/-- The connection may break at the operation. -/
def mayFail (σ : Phase) (o : NodeOp) : Bool :=
  σ.spare && (o.sendsData || (σ.sending && o.inTransmit))

end Phase

namespace LiveDownload

/-- The phase of a download. -/
def phase (v : LiveDownload) : Phase := { spare := v.spare, sending := v.sending }

/-- A download in a phase. -/
def inPhase (w : DownloadWorld) (σ : Phase) : LiveDownload :=
  { download := w, spare := σ.spare, sending := σ.sending }

/-- The operations, of which those of a transmit pass may fail, once. -/
def exec (o : NodeOp) (c : Choice) (v : LiveDownload) :
    Option (Except Exn o.Res × LiveDownload) :=
  (v.download.exec o c).bind fun rw =>
    match c.fault with
    | none => some (rw.1, inPhase rw.2 (v.phase.after o))
    | some e =>
        if v.phase.mayFail o ∧ e.isException then some (rw.1, inPhase rw.2 v.phase.broken)
        else none

/-- The download of a shard file. -/
def machine : Machine NodeOp NodeOp.Res Exn LiveDownload where
  exec o v r v' := ∃ c, v.exec o c = some (r, v')
  env v v' := ∃ m, (v.download.move m).map (fun w => { v with download := w }) = some v'

/-- The download before its first operation. -/
def start (d : Disk) (buf : Bytes) (fresh spare : Bool) : LiveDownload where
  download := .start d buf fresh
  spare := spare

/-! ## The downloader's moves come to an end -/

/-- A frame taken counts for more than the answer it leads to. -/
def measure (w : DownloadWorld) : ℕ :=
  2 * w.link.toPeer.length + (if w.peer.owes.isSome then 1 else 0)

theorem measure_move {m : DownloaderMove} {w w' : DownloadWorld} (h : w.move m = some w') :
    measure w' < measure w := by
  rcases move_cases h with ⟨raw, rest, howes, hq, rfl⟩ | ⟨o, howes, rfl⟩
  · have hle : (if (w.peer.receive raw).owes.isSome then 1 else 0) ≤ 1 := by
      split <;> omega
    simp only [measure, hq, List.length_cons]
    omega
  · simp only [measure, howes, Option.isSome_some, Option.isSome_none, if_true,
      Bool.false_eq_true, if_false]
    omega

/-- What a move of the downloader is. -/
theorem env_cases {v v' : LiveDownload} (h : machine.env v v') :
    ∃ m w, v.download.move m = some w ∧ v' = { v with download := w } := by
  obtain ⟨m, hm⟩ := h
  obtain ⟨w, hw, rfl⟩ := Option.map_eq_some_iff.mp hm
  exact ⟨m, w, hw, rfl⟩

/-- **The downloader's moves come to an end.** -/
theorem wf_env : WellFounded fun v' v => machine.env v v' := by
  refine Subrelation.wf ?_ (InvImage.wf (fun v : LiveDownload => measure v.download)
    Nat.lt_wfRel.wf)
  intro v' v henv
  obtain ⟨m, w, hw, rfl⟩ := env_cases henv
  exact measure_move hw

/-! ## What an operation can do -/

theorem performLink_ok {o : NodeOp} {w w' : DownloadWorld} {r : Except Exn o.Res}
    (h : w.performLink o = some (r, w')) : ∃ a, r = .ok a := by
  unfold performLink at h
  split at h
  · exact absurd h (by simp)
  · next r' l hl =>
      obtain ⟨a, rfl⟩ := LiveUpload.link_perform_ok hl
      cases o <;> exact ⟨a, (Prod.mk.inj (Option.some.inj h)).1.symm⟩

/-- An operation without a fault answers. -/
theorem perform_ok {o : NodeOp} {c : Choice} {w w' : DownloadWorld} {r : Except Exn o.Res}
    (h : w.perform o c = some (r, w')) : ∃ a, r = .ok a := by
  unfold perform at h
  split at h
  · next r' ha =>
      simp only [Option.some.injEq, Prod.mk.injEq] at h
      obtain ⟨rfl, -⟩ := h
      unfold NodeOp.answerOnly at ha
      split at ha <;> first | exact ⟨_, (Option.some.inj ha).symm⟩ | simp at ha
  · split at h
    · next s hl =>
        cases h
        exact performLink_ok hl
    · cases o with
      | isFile p => exact ⟨_, (Prod.mk.inj (Option.some.inj h)).1.symm⟩
      | openFile p m =>
          obtain ⟨df, -, h⟩ := Option.map_eq_some_iff.mp h
          exact ⟨_, (Prod.mk.inj h).1.symm⟩
      | read fh n =>
          obtain ⟨f, -, h⟩ := Option.map_eq_some_iff.mp h
          exact ⟨_, (Prod.mk.inj h).1.symm⟩
      | seek fh offset =>
          simp only [performFile] at h
          split at h
          · rw [Option.ite_none_right_eq_some] at h
            exact ⟨(), (Prod.mk.inj (Option.some.inj h.2)).1.symm⟩
          · exact absurd h (by simp)
      | closeFile fh => exact ⟨(), (Prod.mk.inj (Option.some.inj h)).1.symm⟩
      | _ => exact absurd h (by simp [performFile])

/-- **What an operation can do**: it answers, or the connection breaks and nothing else
changes. -/
theorem exec_cases {o : NodeOp} {c : Choice} {v v' : LiveDownload} {r : Except Exn o.Res}
    (h : v.exec o c = some (r, v')) :
    (∃ a, r = .ok a ∧ v.download.exec o c = some (.ok a, v'.download) ∧
        v'.phase = v.phase.after o) ∨
      ((∃ e, r = .error e ∧ e.isException = true) ∧ v'.download = v.download ∧
        v.phase.mayFail o = true ∧ v'.phase = v.phase.broken) := by
  obtain ⟨⟨r', w⟩, hexec, h⟩ := Option.bind_eq_some_iff.mp h
  have hw := hexec
  unfold DownloadWorld.exec at hw
  cases hf : c.fault with
  | none =>
      simp only [hf, Option.some.injEq, Prod.mk.injEq] at h hw
      obtain ⟨rfl, rfl⟩ := h
      obtain ⟨a, rfl⟩ := perform_ok hw
      exact Or.inl ⟨a, rfl, hexec, rfl⟩
  | some e =>
      simp only [hf, Option.ite_none_right_eq_some, Option.some.injEq, Prod.mk.injEq] at h hw
      obtain ⟨⟨hmay, he⟩, rfl, rfl⟩ := h
      obtain ⟨-, rfl, rfl⟩ := hw
      exact Or.inr ⟨⟨e, rfl, he⟩, rfl, hmay, rfl⟩

/-- What fails raises an `Exception`. -/
theorem isException_of_exec {o : NodeOp} {v v' : LiveDownload} {e : Exn}
    (h : machine.exec o v (.error e) v') : e.isException = true := by
  obtain ⟨c, hc⟩ := h
  rcases exec_cases hc with ⟨a, ha, -⟩ | ⟨⟨e', he, hexn⟩, -⟩
  · cases ha
  · cases he
    exact hexn

/-- An operation that can succeed can take place. -/
theorem can_of_perform {o : NodeOp} {v : LiveDownload} {r : Except Exn o.Res} {w : DownloadWorld}
    (h : v.download.perform o {} = some (r, w)) : machine.Can o v :=
  ⟨r, inPhase w (v.phase.after o), {}, by simp only [exec, DownloadWorld.exec, h, Option.bind_some]⟩

/-! ## Assertions -/

/-- An assertion that the downloader's moves cannot break. -/
def Kept (A : DownloadWorld → Prop) : Prop := ∀ w w' m, A w → w.move m = some w' → A w'

/-- In the phase `σ`, `A` holds of the download. -/
def At (σ : Phase) (A : DownloadWorld → Prop) (v : LiveDownload) : Prop :=
  A v.download ∧ v.phase = σ

/-- An assertion about the disk and the handles only. -/
def OnDisk (A : DownloadWorld → Prop) : Prop :=
  ∀ w w' : DownloadWorld, w'.disk = w.disk → w'.files = w.files → A w → A w'

/-- An assertion about the connections and the downloader only. -/
def OnPeer (L : DownloadWorld → Prop) : Prop :=
  ∀ w w' : DownloadWorld, w'.link = w.link → w'.peer = w.peer → w'.fresh = w.fresh → L w → L w'

section Rules

variable {σ : Phase} {A A' L : DownloadWorld → Prop} {α : Type} {p : Node α}
  {C : α → LiveDownload → Prop} {E : LiveDownload → Prop}

theorem OnDisk.kept (hA : OnDisk A) : Kept A :=
  fun w w' _ h hm => hA w w' (move_frame hm).1 (move_frame hm).2.1 h

theorem Kept.and (hA : Kept A) (hL : Kept L) : Kept (fun w => A w ∧ L w) :=
  fun w w' m h hm => ⟨hA w w' m h.1 hm, hL w w' m h.2 hm⟩

theorem Kept.exists {κ : Type} {A : κ → DownloadWorld → Prop} (hA : ∀ x, Kept (A x)) :
    Kept (fun w => ∃ x, A x w) :=
  fun w w' m ⟨x, h⟩ hm => ⟨x, hA x w w' m h hm⟩

theorem kept_const (c : Prop) : Kept (fun _ => c) := fun _ _ _ h _ => h

theorem stable_at (hA : Kept A) : machine.Stable (At σ A) := by
  rintro v v' ⟨ha, hσ⟩ henv
  obtain ⟨m, w, hw, rfl⟩ := env_cases henv
  exact ⟨hA _ _ m ha hw, hσ⟩

theorem at_mono (h : ∀ w, A w → A' w) {v : LiveDownload} (hv : At σ A v) : At σ A' v :=
  ⟨h _ hv.1, hv.2⟩

theorem total_pre {P : DownloadWorld → Prop} (hA : ∀ w, A w → P w)
    (h : machine.Total (At σ P) p C E) : machine.Total (At σ A) p C E :=
  fun v hv => h v (at_mono hA hv)

theorem total_pure {c : Prop} (h : c → machine.Total (At σ A) p C E) :
    machine.Total (At σ (fun w => c ∧ A w)) p C E :=
  fun v hv => h hv.1.1 v ⟨hv.1.2, hv.2⟩

theorem total_exists {κ : Type} {A : κ → DownloadWorld → Prop}
    (h : ∀ x, machine.Total (At σ (A x)) p C E) :
    machine.Total (At σ (fun w => ∃ x, A x w)) p C E :=
  fun v hv => hv.1.elim fun x hx => h x v ⟨hx, hv.2⟩

/-- The downloader can move. -/
theorem moves_of_move {v : LiveDownload} {m : DownloaderMove} {w : DownloadWorld}
    (hm : v.download.move m = some w) : machine.Moves v :=
  ⟨{ v with download := w }, m, by rw [hm]; rfl⟩

/-- What is left when the connection breaks. -/
def Broken (σ : Phase) (o : NodeOp) (A : DownloadWorld → Prop) (v : LiveDownload) : Prop :=
  σ.mayFail o = true ∧ At σ.broken A v

/-- **The rule of one operation.** -/
theorem total_op {o : NodeOp} {B : o.Res → DownloadWorld → Prop} (hA : Kept A)
    (hB : ∀ a, Kept (B a)) (hcan : ∀ w, A w → (∃ r w', w.perform o {} = some (r, w')) ∨
      ∃ m w', w.move m = some w')
    (h : ∀ w c a w', A w → w.exec o c = some (.ok a, w') → B a w') :
    machine.Total (At σ A) (op o) (fun a => At (σ.after o) (B a)) (Broken σ o A) := by
  refine Machine.total_perform (stable_at hA) (fun a => stable_at (hB a)) ?_ ?_ ?_
  · exact fun v v' hv henv => ⟨hv.1, stable_at (σ := σ.broken) hA v v' hv.2 henv⟩
  · rintro v ⟨ha, -⟩
    rcases hcan _ ha with ⟨r, w', hp⟩ | ⟨m, w', hm⟩
    · exact Or.inl (can_of_perform hp)
    · exact Or.inr (moves_of_move hm)
  · rintro v r v' ⟨ha, hσ⟩ ⟨c, he⟩
    rcases exec_cases he with ⟨a, rfl, hp, hσ'⟩ | ⟨⟨e, rfl, -⟩, hsame, hmay, hσ'⟩
    · exact ⟨h _ c a _ ha hp, by rw [hσ', hσ]⟩
    · exact ⟨hσ ▸ hmay, hsame.symm ▸ ha, by rw [hσ', hσ]⟩

/-- What cannot break raises nothing. -/
theorem total_sure {o : NodeOp} {B : o.Res → LiveDownload → Prop} (hmay : σ.mayFail o = false)
    (h : machine.Total (At σ A) (op o) B (Broken σ o A)) :
    machine.Total (At σ A) (op o) B E :=
  Machine.total_mono (fun _ hv => hv) (fun _ _ hv => hv)
    (fun _ hv => absurd hv.1 (by simp [hmay])) h

/-- An operation that leaves the world alone. -/
theorem total_outside {o : NodeOp} (ho : o.outside = true) (hpass : o.inPass = false)
    (hA : Kept A) : machine.Total (At σ A) (op o) (fun _ => At σ A) E := by
  have hsends : o.sendsData = false := by
    cases o <;> first | rfl | simp [NodeOp.outside] at ho
  have htransmit : o.inTransmit = false := by
    cases o <;> first | rfl | simp [NodeOp.outside, NodeOp.inPass] at ho hpass
  have hafter : σ.after o = σ := by simp [Phase.after, hsends]
  have h : machine.Total (At σ A) (op o) (fun _ => At (σ.after o) A) (Broken σ o A) := by
    refine total_op hA (fun _ => hA) (fun w _ => Or.inl ?_) ?_
    · obtain ⟨r, hr⟩ := LiveUpload.answerOnly_isSome ho hpass
      exact ⟨r, w, by simp only [perform, hr]⟩
    · intro w c a w' ha he
      obtain rfl := exec_outside ho he
      exact ha
  rw [hafter] at h
  exact total_sure (by simp [Phase.mayFail, hsends, htransmit]) h

/-- **A socket operation**: it leads from `L` to `B`, unless the connection breaks. -/
theorem total_onLink {o : NodeOp} {B : o.Res → DownloadWorld → Prop} (ho : o.onLink = true)
    (hL : Kept L) (hB : ∀ a, Kept (B a)) (hA : OnDisk A)
    (hcan : ∀ w, L w → (∃ r w', w.performLink o = some (r, w')) ∨ ∃ m w', w.move m = some w')
    (h : ∀ w a w', L w → w.performLink o = some (.ok a, w') → B a w') :
    machine.Total (At σ (fun w => L w ∧ A w)) (op o)
      (fun a => At (σ.after o) (fun w => B a w ∧ A w)) (Broken σ o fun w => L w ∧ A w) := by
  have hanswer : o.answerOnly {} = none := by
    cases o <;> first | rfl | simp [NodeOp.onLink] at ho
  refine total_op (hL.and hA.kept) (fun a => (hB a).and hA.kept) (fun w hw => ?_) ?_
  · refine (hcan w hw.1).imp_left ?_
    rintro ⟨r, w', hl⟩
    exact ⟨r, w', by simp only [perform, hanswer, hl]⟩
  · intro w c a w' hw he
    rcases exec_onLink ho he with ⟨e, hr, -⟩ | hl
    · exact absurd hr (by simp)
    · obtain ⟨hdisk, hfiles⟩ := Download.performLink_frame hl
      exact ⟨h w a w' hw.1 hl, hA w w' hdisk hfiles hw.2⟩

/-- A socket operation at which the connection does not break. -/
theorem total_session {o : NodeOp} {B : o.Res → DownloadWorld → Prop} (ho : o.onLink = true)
    (hsends : o.sendsData = false) (htransmit : o.inTransmit = false) (hL : Kept L)
    (hB : ∀ a, Kept (B a)) (hA : OnDisk A) (hcan : ∀ w, L w → ∃ r w', w.performLink o = some (r, w'))
    (h : ∀ w a w', L w → w.performLink o = some (.ok a, w') → B a w') :
    machine.Total (At σ (fun w => L w ∧ A w)) (op o) (fun a => At σ (fun w => B a w ∧ A w)) E := by
  have hop := total_onLink (σ := σ) ho hL hB hA (fun w hw => Or.inl (hcan w hw)) h
  have hafter : σ.after o = σ := by simp [Phase.after, hsends]
  rw [hafter] at hop
  exact total_sure (by simp [Phase.mayFail, hsends, htransmit]) hop

theorem perform_of_readsFile {o : NodeOp} (ho : o.readsFile = true) (c : Choice)
    (w : DownloadWorld) : w.perform o c = w.performFile o := by
  cases o <;> first | rfl | exact absurd ho (by simp [NodeOp.readsFile])

/-- A file operation leaves the connection and the downloader alone. -/
theorem performFile_frame {o : NodeOp} {w w' : DownloadWorld} {r : Except Exn o.Res}
    (h : w.performFile o = some (r, w')) :
    w'.link = w.link ∧ w'.peer = w.peer ∧ w'.fresh = w.fresh := by
  unfold performFile at h
  split at h
  · cases h
    exact ⟨rfl, rfl, rfl⟩
  · obtain ⟨df, -, h⟩ := Option.map_eq_some_iff.mp h
    cases h
    exact ⟨rfl, rfl, rfl⟩
  · obtain ⟨f, -, h⟩ := Option.map_eq_some_iff.mp h
    cases h
    exact ⟨rfl, rfl, rfl⟩
  · split at h
    · rw [Option.ite_none_right_eq_some] at h
      cases h.2
      exact ⟨rfl, rfl, rfl⟩
    · exact absurd h (by simp)
  · cases h
    exact ⟨rfl, rfl, rfl⟩
  · exact absurd h (by simp)

/-- **A file operation**: it leads from `A` to `B`, and leaves the connection alone. -/
theorem total_onFile {o : NodeOp} {B : o.Res → DownloadWorld → Prop} (ho : o.readsFile = true)
    (hL : Kept L) (hlocal : OnPeer L) (hA : OnDisk A) (hB : ∀ a, OnDisk (B a))
    (hcan : ∀ w, A w → ∃ r w', w.performFile o = some (r, w'))
    (h : ∀ w a w', A w → w.performFile o = some (.ok a, w') → B a w') :
    machine.Total (At σ (fun w => L w ∧ A w)) (op o)
      (fun a => At σ (fun w => L w ∧ B a w)) (Broken σ o fun w => L w ∧ A w) := by
  have hafter : σ.after o = σ := by
    cases o <;> first | rfl | exact absurd ho (by simp [NodeOp.readsFile])
  have hop : machine.Total (At σ (fun w => L w ∧ A w)) (op o)
      (fun a => At (σ.after o) (fun w => L w ∧ B a w)) (Broken σ o fun w => L w ∧ A w) := by
    refine total_op (hL.and hA.kept) (fun a => hL.and (hB a).kept) (fun w hw => Or.inl ?_) ?_
    · obtain ⟨r, w', hp⟩ := hcan w hw.2
      exact ⟨r, w', (perform_of_readsFile ho {} w).trans hp⟩
    · intro w c a w' hw he
      rcases DownloadWorld.exec_cases he with ⟨e, hr, -⟩ | hp
      · exact absurd hr (by simp)
      · rw [perform_of_readsFile ho] at hp
        obtain ⟨hlink, hpeer, hfresh⟩ := performFile_frame hp
        exact ⟨hlocal w w' hlink hpeer hfresh hw.1, h w a w' hw.2 hp⟩
  rwa [hafter] at hop

/-- A frame that arrived is unpickled, unless the connection breaks here. -/
theorem total_pickleLoads (hA : Kept A) (frame : PyObj) :
    machine.Total (At σ A) (op (.pickleLoads (FrameCodec.encode frame)))
      (fun obj v => obj = frame ∧ At σ A v)
      (Broken σ (.pickleLoads (FrameCodec.encode frame)) A) := by
  refine Machine.total_mono (fun _ hv => hv) ?_ (fun _ hv => hv)
    (total_op (o := .pickleLoads (FrameCodec.encode frame))
      (B := fun obj w => obj = frame ∧ A w) hA (fun obj => (kept_const _).and hA)
      (fun w _ => Or.inl ⟨_, w, rfl⟩) ?_)
  · rintro obj v ⟨⟨hobj, ha⟩, hσ⟩
    exact ⟨hobj, ha, hσ⟩
  · intro w c obj w' ha he
    rcases DownloadWorld.exec_cases he with ⟨e, hr, -⟩ | hp
    · exact absurd hr (by simp)
    · cases hp
      exact ⟨rfl, ha⟩

end Rules

end LiveDownload
