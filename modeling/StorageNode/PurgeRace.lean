/-
# Uploads next to the contract enforcer

The threads that share the data directory: any number of upload transfers, each with its
uploader, and the enforcer with its cycles.  Nothing keeps them apart: the enforcer lists
the directory, asks for the contracts and unlinks, and an upload may be anywhere in between.

* `SharedDirectory`, `DirectoryState`, `SharedDirectory.next` : the system;
* `DirectoryState.Spared` : no upload that is running loses its file, and `done_uploading`
  finds all of the content in it;
* `SharedDirectory.KeepsApart` : when an event keeps the enforcer away from the uploads;
* `purge_destroys_upload` : nothing in the code does that;
* `purge_spares_uploads` : in a run whose events all do, every upload is spared.
-/
import StorageNode.PurgeCycle
import StorageNode.RequestDispatcher
import StorageNode.UploadIntegrity
import StorageNode.OwnFiles
import StorageNode.EventRun

open Transfer

/-! ## The system -/

/-- A name in a directory. -/
def IsName (name : PyStr) : Prop := name ≠ [] ∧ CodePoint.char '/' ∉ name

instance (name : PyStr) : Decidable (IsName name) := inferInstanceAs (Decidable (_ ∧ _))

/-- **What `os.listdir` gives**: every file of the directory, and each name once.  The names
of no file are those of subdirectories. -/
def Disk.Lists (d : Disk) (dir : PyStr) (listed : List PyStr) : Prop :=
  listed.Nodup ∧ (∀ name ∈ listed, IsName name) ∧
    ∀ name, IsName name → (d.lookup (osPathJoin dir name)).isSome → name ∈ listed

/-- A path ends with the name it was joined from. -/
theorem suffix_osPathJoin (dir name : PyStr) : name <:+ osPathJoin dir name := by
  unfold osPathJoin
  split
  · exact List.suffix_rfl
  · split
    · exact List.suffix_append _ _
    · exact List.suffix_append _ _

/-- A listing is checked file by file. -/
theorem lists_iff (d : Disk) (dir : PyStr) (listed : List PyStr) :
    d.Lists dir listed ↔ listed.Nodup ∧ (∀ name ∈ listed, IsName name) ∧
      ∀ path ∈ d.dir.map Prod.fst, ∀ name ∈ path.tails,
        IsName name → osPathJoin dir name = path → name ∈ listed := by
  refine and_congr_right fun _ => and_congr_right fun _ => ?_
  constructor
  · intro h path hpath name _ hname hjoin
    refine h _ hname (Option.isSome_iff_ne_none.mpr ?_)
    rw [hjoin]
    exact fun hnone => (d.lookup_eq_none_iff path).mp hnone hpath
  · intro h name hname hsome
    have hpath : osPathJoin dir name ∈ d.dir.map Prod.fst := by
      by_contra hnot
      rw [(d.lookup_eq_none_iff _).mpr hnot] at hsome
      exact absurd hsome (by simp)
    exact h _ hpath name ((List.mem_tails _ _).mpr (suffix_osPathJoin dir name)) hname rfl

instance (d : Disk) (dir : PyStr) (listed : List PyStr) : Decidable (d.Lists dir listed) :=
  decidable_of_iff _ (lists_iff d dir listed).symm

/-- **The threads of one data directory.**  Transfer `i` is an upload of `shard i`, all
uploaders of one path have the same content for it, and a shard file that is there from
earlier is a beginning of that; `confirmed` are the shards `done_uploading` was called for
before. -/
structure SharedDirectory (ι : Type) where
  cfg : Config
  client : CoordinationClient
  rounds : ℕ
  fuel : ι → ℕ
  request : ι → Dict
  shard : ι → PyStr
  content : PyStr → Bytes
  disk : Disk
  confirmed : List PyStr
  named : ∀ i, (request i).getItem "shard_id" = .ok (.str (shard i))
  stored : ∀ i b, disk.content (osPathJoin cfg.dataDirectory (shard i)) = some b →
    b <+: content (osPathJoin cfg.dataDirectory (shard i))

/-- What is left of each thread, which uploads have begun, the local variables of the cycle
that is going on, and the world of the uploads. -/
structure DirectoryState (ι : Type) where
  world : UploadWorld ι
  upload : ι → Node Unit
  begun : ι → Bool
  enforcer : Enforcer Unit
  cycle : ContractEnforcer.Cycle

/-- How an operation of the enforcer turns out. -/
inductive EnforcerAnswer
  | names (listed : List PyStr)
  | unlinked
  | response (r : Response)
  | fails (e : Exn)

/-- An upload begins, an upload or the enforcer takes its next step, an uploader moves. -/
inductive DirectoryEvent (ι : Type)
  | begin (i : ι)
  | upload (i : ι) (c : Choice)
  | uploader (i : ι) (m : UploaderMove)
  | enforcer (answer : EnforcerAnswer)

namespace DirectoryState

variable {ι : Type}

/-- The upload has begun, and `receive_data` has neither returned nor raised. -/
def Running (s : DirectoryState ι) (i : ι) : Prop :=
  s.begun i = true ∧ (s.upload i).ended = false

instance (s : DirectoryState ι) (i : ι) : Decidable (s.Running i) :=
  inferInstanceAs (Decidable (_ ∧ _))

/-- The enforcer is still at work and its cycle is going to unlink the path. -/
def Dooms (s : DirectoryState ι) (dir path : PyStr) : Prop :=
  s.enforcer.ended = false ∧ s.cycle.Dooms dir path

instance (s : DirectoryState ι) (dir path : PyStr) : Decidable (s.Dooms dir path) :=
  inferInstanceAs (Decidable (_ ∧ _))

end DirectoryState

namespace SharedDirectory

variable {ι : Type} [DecidableEq ι] (S : SharedDirectory ι)

/-- The file of transfer `i`. -/
def path (i : ι) : PyStr := osPathJoin S.cfg.dataDirectory (S.shard i)

/-- Nothing has begun. -/
def start : DirectoryState ι where
  world := .start S.disk
  upload i := FragmentReceiver.receiveData S.cfg (S.fuel i) (S.request i)
  begun _ := false
  enforcer := ContractEnforcer.runForever S.cfg.dataDirectory S.client S.rounds
  cycle := {}

/-- `done_uploading` was called for the shard. -/
def Confirmed (s : DirectoryState ι) (fragment : PyStr) : Prop :=
  fragment ∈ S.confirmed ∨ s.world.done.any (fun call => call.shardId == .str fragment) = true

/-- **The backend lists a shard only after `done_uploading` was called for it**, as the mock
does. -/
def ListsConfirmed (s : DirectoryState ι) (r : Response) : Prop :=
  ∀ result ∈ (contractsOf (.ok r)).toOption, ∀ fragment ∈ s.cycle.stored,
    pyIn fragment result.shardIds = .ok true → S.Confirmed s fragment

instance (s : DirectoryState ι) (fragment : PyStr) : Decidable (S.Confirmed s fragment) :=
  inferInstanceAs (Decidable (_ ∨ _))

instance (s : DirectoryState ι) (r : Response) : Decidable (S.ListsConfirmed s r) :=
  inferInstanceAs (Decidable (∀ _ ∈ _, _))

/-- The operations of the enforcer, on the directory the uploads write to. -/
def answer (s : DirectoryState ι) : (o : EnforcerOp) → EnforcerAnswer →
    Option (Except Exn o.Res × Disk)
  | .listDir dir, .names listed =>
      if s.world.disk.Lists dir listed then some (.ok listed, s.world.disk) else none
  | .listDir dir, .fails e =>
      if e.isOSError ∧ (e = .fileNotFound → s.world.disk.Lists dir []) then
        some (.error e, s.world.disk)
      else none
  | .unlink path, .unlinked =>
      if (s.world.disk.lookup path).isSome then some (.ok (), s.world.disk.unlink path) else none
  | .unlink _, .fails e => if e.isOSError then some (.error e, s.world.disk) else none
  | .http (.request method _ _ _), .response r =>
      if method = .get → S.ListsConfirmed s r then some (.ok r, s.world.disk) else none
  | .http _, .fails e =>
      if e = .requestError ∨ e = .invalidUrl then some (.error e, s.world.disk) else none
  | _, _ => none

/-- The state after an event, when it can happen. -/
def next (s : DirectoryState ι) : DirectoryEvent ι → Option (DirectoryState ι)
  | .begin i =>
      if s.begun i = true then none else some { s with begun := Function.update s.begun i true }
  | .upload i c =>
      if s.begun i = true then
        match s.upload i with
        | .call o k =>
            (s.world.exec (S.path i) i o c).map fun rw =>
              { s with world := rw.2, upload := Function.update s.upload i (k rw.1) }
        | _ => none
      else none
  | .uploader i m =>
      (s.world.peerMove (S.content (S.path i)) i m).map fun w => { s with world := w }
  | .enforcer a =>
      match s.enforcer with
      | .call o k =>
          (S.answer s o a).map fun rd =>
            { s with
              world := { s.world with disk := rd.2 }
              enforcer := k rd.1
              cycle := s.cycle.after S.cfg.dataDirectory o rd.1 }
      | _ => none

/-! ## What the uploads need -/

/-- **No upload is destroyed**: the enforcer is not about to unlink the file of an upload
that is running, and each call of `done_uploading` found the whole content in the file of
its shard. -/
def Spared (s : DirectoryState ι) : Prop :=
  (∀ path, s.enforcer.nextOp = some (.unlink path) → ∀ i, s.Running i → S.path i ≠ path) ∧
    ∀ call ∈ s.world.done, call.shardId = .str (S.shard call.transfer) ∧
      call.content = some (S.content (S.path call.transfer)) ∧ call.closed = true

/-- **The event keeps the enforcer away from the uploads.**  No upload begins of a fragment
the cycle is going to unlink; when the contracts are given, no upload is running of a listed
fragment they leave out; and two uploads of one shard do not act on what they saw of the
file before (`UpToDate`). -/
def KeepsApart (s : DirectoryState ι) : DirectoryEvent ι → Prop
  | .begin i => ¬ s.Dooms S.cfg.dataDirectory (S.path i)
  | .upload i c => ∀ o ∈ (s.upload i).nextOp, s.world.UpToDate i c o
  | .uploader _ _ => True
  | .enforcer (.response r) => ∀ o ∈ s.enforcer.nextOp, ContractEnforcer.isQuery o = true →
      ∀ i, s.Running i →
        ¬ { s.cycle with result := (contractsOf (.ok r)).toOption : ContractEnforcer.Cycle }.Dooms
          S.cfg.dataDirectory (S.path i)
  | .enforcer _ => True

instance [Fintype ι] (s : DirectoryState ι) (ev : DirectoryEvent ι) :
    Decidable (S.KeepsApart s ev) := by
  cases ev with
  | begin i => exact inferInstanceAs (Decidable (¬ _))
  | upload i c => exact inferInstanceAs (Decidable (∀ _ ∈ _, _))
  | uploader i m => exact inferInstanceAs (Decidable True)
  | enforcer a =>
      cases a with
      | response r => exact inferInstanceAs (Decidable (∀ _ ∈ _, _))
      | _ => exact inferInstanceAs (Decidable True)

/-! ## The invariant -/

/-- The setting of upload `i`, next to others. -/
abbrev setting (i : ι) : Setting NodeOp NodeOp.Res Exn (UploadWorld ι) :=
  Upload.uploadSetting (S.content (S.path i)) (S.path i) (.str (S.shard i)) i False

/-- The file of upload `i` and its own calls. -/
def GoodFor (i : ι) (w : UploadWorld ι) : Prop :=
  Upload.Good (S.content (S.path i)) (S.path i) (.str (S.shard i)) (w.callsOf i)

/-- **The invariant.**  Every shard file is a beginning of its content and no transfer has
handles of another's file; an upload that runs still has its precondition, and the enforcer
unlinks only what its cycle dooms, which is the file of no upload that runs. -/
structure Safe (s : DirectoryState ι) : Prop where
  good : ∀ i, S.GoodFor i s.world
  owns : ∀ i, s.world.Owns (S.path i) i
  opens : ∀ i, (s.upload i).Only (OwnOp S.cfg (S.request i))
  waiting : ∀ i, s.begun i = false →
    s.upload i = FragmentReceiver.receiveData S.cfg (S.fuel i) (S.request i) ∧
      Upload.AllClosed (s.world.transfer i)
  going : ∀ i, s.Running i → (S.setting i).wp (s.upload i) (fun _ _ => True) (s.world.callsOf i)
  follows : ContractEnforcer.Follows S.cfg.dataDirectory s.enforcer s.cycle
  apart : ∀ i, s.Running i → ¬ s.Dooms S.cfg.dataDirectory (S.path i)

variable {S} {s s' : DirectoryState ι}

omit [DecidableEq ι] in
/-- A path of the request is the path of the transfer. -/
theorem eq_path_of_own {i : ι} {q : PyStr} (h : OwnPath S.cfg (S.request i) q) : q = S.path i := by
  obtain ⟨id, hid, rfl⟩ := h
  rw [S.named i, Except.ok.injEq, Json.str.injEq] at hid
  rw [path, hid]

/-- In a safe state every upload is spared. -/
theorem Safe.spared (h : S.Safe s) : S.Spared s := by
  constructor
  · rintro q hnext i hrunning rfl
    have hfollows := h.follows
    have hdooms := h.apart i hrunning
    unfold DirectoryState.Dooms at hdooms
    cases henforcer : s.enforcer with
    | call o k =>
        rw [henforcer] at hnext hfollows hdooms
        exact hdooms ⟨rfl, hfollows.1 _ (Option.some.inj hnext)⟩
    | ret u => exact absurd hnext (by simp [henforcer, Prog.nextOp])
    | raise e => exact absurd hnext (by simp [henforcer, Prog.nextOp])
    | hang => exact absurd hnext (by simp [henforcer, Prog.nextOp])
  · intro call hcall
    refine (h.good call.transfer).2 call (List.mem_filter.mpr ⟨hcall, ?_⟩)
    exact decide_eq_true rfl

theorem safe_start (S : SharedDirectory ι) : S.Safe S.start where
  good i := by
    refine ⟨S.stored i, fun call hcall => ?_⟩
    exact absurd hcall List.not_mem_nil
  owns i fh f hf := absurd hf (by simp [start, UploadWorld.start, file?])
  opens i := only_receiveData S.cfg (S.fuel i) (S.request i)
  waiting i _ := ⟨rfl, fun j => by simp [start, UploadWorld.start, file?]⟩
  going i h := absurd h.1 (by simp [start])
  follows := ContractEnforcer.follows_runForever _ _ _ _
  apart i h := absurd h.1 (by simp [start])

/-! ### An upload begins -/

theorem safe_begin {i : ι} (h : S.Safe s) (hbegun : s.begun i = false)
    (hkeeps : ¬ s.Dooms S.cfg.dataDirectory (S.path i)) :
    S.Safe { s with begun := Function.update s.begun i true } := by
  -- an upload that runs afterwards ran before, or is the one that has begun
  have hrunning : ∀ j, ({ s with begun := Function.update s.begun i true } :
      DirectoryState ι).Running j → j = i ∨ s.Running j := by
    rintro j ⟨(hj : Function.update s.begun i true j = true), hended⟩
    by_cases hji : j = i
    · exact Or.inl hji
    · refine Or.inr ⟨?_, hended⟩
      rwa [Function.update_of_ne hji] at hj
  refine { h with waiting := fun j hj => ?_, going := fun j hj => ?_, apart := fun j hj => ?_ }
  · have hj : Function.update s.begun i true j = false := hj
    have hji : j ≠ i := by
      rintro rfl
      rw [Function.update_self] at hj
      exact absurd hj (by simp)
    rw [Function.update_of_ne hji] at hj
    exact h.waiting j hj
  · rcases hrunning j hj with rfl | hj
    · obtain ⟨hprogram, hclosed⟩ := h.waiting j hbegun
      have hspec : Upload.Spec (S.content (S.path j)) (S.path j) (.str (S.shard j)) j False
          (fun t _ => Upload.AllClosed t)
          (FragmentReceiver.receiveData S.cfg (S.fuel j) (S.request j)) (fun _ _ _ => True)
          (fun _ _ => True) :=
        Upload.spec_receiveData S.cfg (S.fuel j) (S.request j) (S.named j) rfl
      have hwp := hspec (s.world.callsOf j) ⟨h.good j, hclosed⟩
      rw [hprogram]
      exact Setting.wp_mono (fun _ _ _ => trivial) hwp
    · exact h.going j hj
  · rcases hrunning j hj with rfl | hj
    · exact hkeeps
    · exact h.apart j hj

/-! ### An upload takes a step -/

/-- What the surroundings of upload `j` see of a change that leaves its transfer and its
calls alone. -/
theorem env_of_kept {w w' : UploadWorld ι} {j : ι} (htransfer : w'.transfer j = w.transfer j)
    (hgood : S.GoodFor j w') (hgrow : Upload.DiskGrows (S.path j) w.disk w'.disk) :
    (S.setting j).env (w.callsOf j) (w'.callsOf j) :=
  Or.inr ⟨not_false, htransfer, hgood, hgrow⟩

/-- The file is a beginning of its content, and the calls are the same as before. -/
theorem goodFor_of_file {w w' : UploadWorld ι} {j : ι} (h : S.GoodFor j w)
    (hdone : (w'.callsOf j).done = (w.callsOf j).done)
    (hfile : ∀ b, w'.disk.content (S.path j) = some b → b <+: S.content (S.path j)) :
    S.GoodFor j w' := by
  refine ⟨hfile, ?_⟩
  rw [hdone]
  exact h.2

/-- **A step of upload `i`**: its own precondition goes on, and the others see their files
unchanged or, where two uploads share one, longer. -/
theorem safe_upload {i : ι} {c : Choice} {o : NodeOp} {k : Except Exn o.Res → Node Unit}
    {r : Except Exn o.Res} {w' : UploadWorld ι} (h : S.Safe s) (hbegun : s.begun i = true)
    (hupload : s.upload i = .call o k) (hkeeps : s.world.UpToDate i c o)
    (hexec : s.world.exec (S.path i) i o c = some (r, w')) :
    S.Safe { s with world := w', upload := Function.update s.upload i (k r) } := by
  have hrunning : s.Running i := ⟨hbegun, by rw [hupload]; rfl⟩
  have hopens := h.opens i
  rw [hupload] at hopens
  have hwp := h.going i hrunning
  rw [hupload] at hwp
  obtain ⟨⟨-, hgood, hgrow⟩, hrest⟩ :=
    Setting.wp_call hwp ⟨c, UploadWorld.exec_callsOf hexec, Or.inr hkeeps⟩
  have htouches : UploadWorld.Touches (S.path i) i s.world w' := by
    refine UploadWorld.exec_touches (h.owns i) (fun q m ho => ?_) hexec
    subst ho
    exact eq_path_of_own hopens.1
  -- the files of the others
  have hfiles : ∀ j, (∀ b, w'.disk.content (S.path j) = some b → b <+: S.content (S.path j)) ∧
      Upload.DiskGrows (S.path j) s.world.disk w'.disk := by
    intro j
    by_cases hpath : S.path j = S.path i
    · rw [hpath]
      exact ⟨hgood.1, hgrow⟩
    · have hsame := htouches.same (S.path j) hpath
      refine ⟨fun b hb => ?_, hsame.grows⟩
      rw [hsame.content] at hb
      exact (h.good j).1 b hb
  have hgoodFor : ∀ j, S.GoodFor j w' := by
    intro j
    by_cases hji : j = i
    · subst hji
      exact hgood
    · exact goodFor_of_file (h.good j) (UploadWorld.exec_callsOf_of_ne hji hexec) (hfiles j).1
  have hrunning' : ∀ j, ({ s with world := w', upload := Function.update s.upload i (k r) } :
      DirectoryState ι).Running j → s.Running j := by
    rintro j ⟨hj, (hended : (Function.update s.upload i (k r) j).ended = false)⟩
    by_cases hji : j = i
    · exact hji ▸ hrunning
    · refine ⟨hj, ?_⟩
      rwa [Function.update_of_ne hji] at hended
  refine { h with
    good := hgoodFor, owns := fun j => ?_, opens := fun j => ?_, waiting := fun j hj => ?_,
    going := fun j hj => ?_, apart := fun j hj => h.apart j (hrunning' j hj) }
  · by_cases hji : j = i
    · subst hji
      exact htouches.owns
    · intro fh f hf
      rw [htouches.others j hji] at hf
      exact (h.owns j fh f hf).keeps htouches.keeps
  · show (Function.update s.upload i (k r) j).Only _
    by_cases hji : j = i
    · subst hji
      rw [Function.update_self]
      exact hopens.2 r
    · rw [Function.update_of_ne hji]
      exact h.opens j
  · have hji : j ≠ i := by
      rintro rfl
      exact absurd (hbegun.symm.trans hj) (by simp)
    show Function.update s.upload i (k r) j = _ ∧ Upload.AllClosed (w'.transfer j)
    rw [Function.update_of_ne hji, htouches.others j hji]
    exact h.waiting j hj
  · show (S.setting j).wp (Function.update s.upload i (k r) j) _ (w'.callsOf j)
    by_cases hji : j = i
    · subst hji
      rw [Function.update_self]
      exact hrest
    · rw [Function.update_of_ne hji]
      refine Setting.wp_drift (h.going j (hrunning' j hj)) (.single ?_)
      exact env_of_kept (htouches.others j hji) (hgoodFor j) (hfiles j).2

/-! ### An uploader moves -/

theorem safe_uploader {i : ι} {m : UploaderMove} {w' : UploadWorld ι} (h : S.Safe s)
    (hmove : s.world.peerMove (S.content (S.path i)) i m = some w') :
    S.Safe { s with world := w' } := by
  obtain ⟨t, ht, rfl⟩ := Option.map_eq_some_iff.mp hmove
  have hfile : ∀ j fh, ((s.world.setTransfer i t).transfer j).file? fh =
      (s.world.transfer j).file? fh := by
    intro j fh
    by_cases hji : j = i
    · subst hji
      rw [UploadWorld.setTransfer_self]
      exact Upload.file?_move ht fh
    · rw [UploadWorld.setTransfer_of_ne _ hji]
  refine { h with
    owns := fun j fh f hf => ?_, waiting := fun j hj => ?_, going := fun j hj => ?_ }
  · rw [hfile] at hf
    exact h.owns j fh f hf
  · exact ⟨(h.waiting j hj).1, fun fh => (hfile j fh).trans ((h.waiting j hj).2 fh)⟩
  · refine Setting.wp_drift (h.going j hj) (.single ?_)
    by_cases hji : j = i
    · subst hji
      exact Or.inl ⟨j, m, Option.map_eq_some_iff.mpr ⟨t, ht, rfl⟩⟩
    · exact env_of_kept (UploadWorld.setTransfer_of_ne _ hji t) (h.good j)
        (Upload.DiskGrows.refl _ _)

/-! ### The enforcer takes a step -/

omit [DecidableEq ι] in
/-- The enforcer changes the directory only by unlinking. -/
theorem answer_disk {o : EnforcerOp} {a : EnforcerAnswer} {r : Except Exn o.Res} {d : Disk}
    (h : S.answer s o a = some (r, d)) :
    d = s.world.disk ∨ ∃ q, o = .unlink q ∧ d = s.world.disk.unlink q := by
  cases o with
  | listDir dir =>
      left
      cases a <;> simp [answer] at h <;> exact h.2.2.symm
  | unlink q =>
      cases a <;> simp [answer] at h
      · exact Or.inr ⟨q, rfl, h.2.2.symm⟩
      · exact Or.inl h.2.2.symm
  | http o =>
      left
      obtain ⟨method, url, json, headers⟩ := o
      cases a <;> simp [answer] at h <;> exact h.2.2.symm

omit [DecidableEq ι] in
/-- A query that fails dooms nothing. -/
theorem not_dooms_of_fails {dir q : PyStr} {cycle : ContractEnforcer.Cycle} (e : Exn) :
    ¬ { cycle with result := (contractsOf (.error e)).toOption : ContractEnforcer.Cycle }.Dooms
      dir q := by
  rintro ⟨result, hresult, fragment, -, -, hexpired⟩
  simp only [contractsOf] at hresult
  split at hresult
  · obtain rfl : (⟨.arr [], false⟩ : ContractQueryResult) = result := by
      simpa [Except.toOption] using hresult
    exact absurd hexpired (by simp [ContractEnforcer.isExpired])
  · exact absurd hresult (by simp [Except.toOption])

omit [DecidableEq ι] in
/-- A step that keeps the enforcer away from an upload dooms no file of it. -/
theorem not_dooms_after {o : EnforcerOp} {k : Except Exn o.Res → Enforcer Unit}
    {a : EnforcerAnswer} {r : Except Exn o.Res} {d : Disk} {i : ι} (hrunning : s.Running i)
    (henforcer : s.enforcer = .call o k) (hkeeps : S.KeepsApart s (.enforcer a))
    (hanswer : S.answer s o a = some (r, d))
    (h : ¬ s.cycle.Dooms S.cfg.dataDirectory (S.path i)) :
    ¬ (s.cycle.after S.cfg.dataDirectory o r).Dooms S.cfg.dataDirectory (S.path i) := by
  cases o with
  | listDir dir =>
      refine ContractEnforcer.Cycle.not_dooms_of_none ?_
      cases r <;> rfl
  | unlink q =>
      exact fun hdooms => h (ContractEnforcer.Cycle.Dooms.mono
        (ContractEnforcer.behind_subset _ _ _) hdooms)
  | http o =>
      obtain ⟨method, url, json, headers⟩ := o
      cases method with
      | get =>
          cases a with
          | response response =>
              simp only [answer, Option.ite_none_right_eq_some, Option.some.injEq,
                Prod.mk.injEq] at hanswer
              rw [← hanswer.2.1]
              refine hkeeps (.http (.request .get url json headers)) ?_ rfl i hrunning
              rw [henforcer]
              rfl
          | fails e =>
              simp only [answer, Option.ite_none_right_eq_some, Option.some.injEq,
                Prod.mk.injEq] at hanswer
              rw [← hanswer.2.1]
              exact not_dooms_of_fails e
          | names listed => exact absurd hanswer (by simp [answer])
          | unlinked => exact absurd hanswer (by simp [answer])
      | post => exact h
      | patch => exact h

/-- **A step of the enforcer.**  What it unlinks is the file of no upload that runs. -/
theorem safe_enforcer {o : EnforcerOp} {k : Except Exn o.Res → Enforcer Unit}
    {a : EnforcerAnswer} {r : Except Exn o.Res} {d : Disk} (h : S.Safe s)
    (henforcer : s.enforcer = .call o k) (hkeeps : S.KeepsApart s (.enforcer a))
    (hanswer : S.answer s o a = some (r, d)) :
    S.Safe { s with
      world := { s.world with disk := d }
      enforcer := k r
      cycle := s.cycle.after S.cfg.dataDirectory o r } := by
  have hfollows := h.follows
  rw [henforcer] at hfollows
  obtain ⟨hdoomed, hrest⟩ := hfollows
  have happart : ∀ j, s.Running j → ¬ s.cycle.Dooms S.cfg.dataDirectory (S.path j) := by
    intro j hj hdooms
    refine h.apart j hj ⟨?_, hdooms⟩
    rw [henforcer]
    rfl
  -- every shard file is untouched, or it is unlinked and no upload of it runs
  obtain ⟨hdisk, hfile⟩ : s.world.disk.Keeps d ∧
      ∀ j, Disk.SameFile (S.path j) s.world.disk d ∨
        (d.content (S.path j) = none ∧ ¬ s.Running j) := by
    rcases answer_disk hanswer with rfl | ⟨q, rfl, rfl⟩
    · exact ⟨Disk.Keeps.refl _, fun j => Or.inl (Disk.SameFile.refl _ _)⟩
    · refine ⟨Disk.keeps_unlink _ q, fun j => ?_⟩
      by_cases hq : S.path j = q
      · subst hq
        refine Or.inr ⟨?_, fun hj => happart j hj (hdoomed _ rfl)⟩
        rw [Disk.content, Disk.lookup_unlink_self]
        rfl
      · exact Or.inl (Disk.sameFile_unlink _ hq)
  have hgood : ∀ j, S.GoodFor j { s.world with disk := d } := by
    intro j
    refine goodFor_of_file (h.good j) rfl fun b hb => ?_
    rcases hfile j with hsame | ⟨hnone, -⟩
    · exact (h.good j).1 b (hsame.content.symm.trans hb)
    · exact absurd (hnone.symm.trans hb) (by simp)
  refine { h with
    good := hgood, owns := fun j fh f hf => (h.owns j fh f hf).keeps hdisk,
    going := fun j hj => ?_, follows := hrest r, apart := fun j hj hdooms => ?_ }
  · have hrunning : s.Running j := hj
    refine Setting.wp_drift (h.going j hrunning) (.single ?_)
    rcases hfile j with hsame | ⟨-, hnot⟩
    · exact env_of_kept rfl (hgood j) hsame.grows
    · exact absurd hrunning hnot
  · have hrunning : s.Running j := hj
    exact not_dooms_after hrunning henforcer hkeeps hanswer (happart j hrunning) hdooms.2

/-! ## Runs -/

/-- Every event that keeps the enforcer away from the uploads keeps the invariant. -/
theorem safe_next {ev : DirectoryEvent ι} (h : S.Safe s) (hkeeps : S.KeepsApart s ev)
    (hnext : S.next s ev = some s') : S.Safe s' := by
  cases ev with
  | begin i =>
      simp only [next, Option.ite_none_left_eq_some, Option.some.injEq] at hnext
      obtain ⟨hbegun, rfl⟩ := hnext
      exact safe_begin h (by simpa using hbegun) hkeeps
  | upload i c =>
      simp only [next, Option.ite_none_right_eq_some] at hnext
      obtain ⟨hbegun, hnext⟩ := hnext
      split at hnext
      · next o k hupload =>
          obtain ⟨rw, hexec, rfl⟩ := Option.map_eq_some_iff.mp hnext
          have hmem : o ∈ (s.upload i).nextOp := by
            rw [hupload]
            rfl
          exact safe_upload h hbegun hupload (hkeeps o hmem) hexec
      · exact absurd hnext (by simp)
  | uploader i m =>
      obtain ⟨w, hmove, rfl⟩ := Option.map_eq_some_iff.mp hnext
      exact safe_uploader h hmove
  | enforcer a =>
      simp only [next] at hnext
      split at hnext
      · next o k henforcer =>
          obtain ⟨rd, hanswer, rfl⟩ := Option.map_eq_some_iff.mp hnext
          exact safe_enforcer h henforcer hkeeps hanswer
      · exact absurd hnext (by simp)

/-! ## One upload, and an expired fragment -/

theorem no_old_yet : Disk.empty.lookup (osPathJoin "Data" "old") = none := rfl

/-- The directory with one file. -/
def oldDisk : Disk := (Disk.empty.create (osPathJoin "Data" "old") no_old_yet).setData 0 [7]

/-- One upload of the two bytes of the shard `s`, into a directory with an old fragment. -/
def oneUpload : SharedDirectory Unit where
  cfg := {}
  client := {}
  rounds := 2
  fuel _ := 5
  request _ := Upload.sampleRequest
  shard _ := "s"
  content _ := [1, 2]
  disk := oldDisk
  confirmed := ["old"]
  named _ := rfl
  stored _ b h :=
    absurd ((show oldDisk.content (osPathJoin "Data" "s") = none by decide).symm.trans h) (by simp)

/-- The contracts are those of the shards. -/
def contracts (shards : List PyStr) : Response :=
  ⟨200, some (.obj [("shards", .arr (shards.map Json.str))])⟩

/-- The upload begins, opens its file and receives the first byte. -/
def firstSlice : List (DirectoryEvent Unit) :=
  .begin () :: List.replicate 8 (.upload () {}) ++
    [.uploader () .take, .uploader () .start, .uploader () (.slice 1)] ++
    List.replicate 4 (.upload () {})

/-- The second byte, the END frame and `done_uploading`. -/
def secondSlice : List (DirectoryEvent Unit) :=
  [.uploader () .take, .uploader () (.slice 1)] ++ List.replicate 4 (.upload () {}) ++
    [.uploader () .take, .uploader () .finish] ++ List.replicate 7 (.upload () {})

/-- The directory is listed, and there are no contracts. -/
def listsWithoutContracts (listed : List PyStr) : List (DirectoryEvent Unit) :=
  [.enforcer (.names listed), .enforcer (.response (contracts []))]

/-- The file of the upload that runs is unlinked next. -/
def aboutToUnlink (s : DirectoryState Unit) : Bool :=
  decide (s.Running ()) &&
    match s.enforcer.nextOp with
    | some (.unlink q) => q == oneUpload.path ()
    | _ => false

/-- `done_uploading` was called without a file. -/
def doneWithoutFile (s : DirectoryState Unit) : Bool :=
  s.world.done.any fun call => call.content == none

/-- **The enforcer unlinks the file of an upload that runs.**  The shard has no contract yet,
since `done_uploading` comes at the end of the upload; its file is listed, and unlinked
between two slices.  The transfer writes on through its handle, and `done_uploading` is
called when there is no file. -/
theorem purge_destroys_upload :
    (¬ ∀ s : DirectoryState Unit,
      EventRun.Reaches oneUpload.next (fun _ _ => True) oneUpload.start s →
      ∀ path, s.enforcer.nextOp = some (.unlink path) →
        ∀ i, s.Running i → oneUpload.path i ≠ path) ∧
    ¬ ∀ s : DirectoryState Unit,
      EventRun.Reaches oneUpload.next (fun _ _ => True) oneUpload.start s →
      ∀ call ∈ s.world.done,
        call.content = some (oneUpload.content (oneUpload.path call.transfer)) := by
  have hany : ∀ (s : DirectoryState Unit) (ev : DirectoryEvent Unit),
      (fun _ _ => true) s ev = true → True := fun _ _ _ => trivial
  constructor
  · intro h
    obtain ⟨s, hrun, hs⟩ := EventRun.exists_of_run hany aboutToUnlink
      (show (EventRun.run oneUpload.next (fun _ _ => true) oneUpload.start
        (firstSlice ++ listsWithoutContracts ["s", "old"])).any aboutToUnlink = true by
          decide +kernel)
    unfold aboutToUnlink at hs
    rw [Bool.and_eq_true, decide_eq_true_iff] at hs
    obtain ⟨hrunning, hs⟩ := hs
    split at hs
    · next q hnext =>
        exact h s hrun q hnext () hrunning (eq_of_beq hs).symm
    · exact absurd hs Bool.false_ne_true
  · intro h
    obtain ⟨s, hrun, hs⟩ := EventRun.exists_of_run hany doneWithoutFile
      (show (EventRun.run oneUpload.next (fun _ _ => true) oneUpload.start
        (firstSlice ++ listsWithoutContracts ["s", "old"] ++ [.enforcer .unlinked] ++
          secondSlice)).any doneWithoutFile = true by decide +kernel)
    obtain ⟨call, hcall, hnone⟩ := List.any_eq_true.mp hs
    have hcontent := h s hrun call hcall
    rw [eq_of_beq hnone] at hcontent
    exact absurd hcontent (by simp)

/-- **The purge next to uploads.**  In every run in which no upload begins of a fragment the
cycle is going to unlink, no upload runs of a listed fragment that the contracts leave out
when they are given, and uploads of one shard do not act on outdated observations of the
file: the enforcer is never about to unlink the file of an upload that runs, and each call
of `done_uploading` found the whole content in the file of its shard. -/
theorem purge_spares_uploads (S : SharedDirectory ι) {s : DirectoryState ι}
    (hrun : EventRun.Reaches S.next S.KeepsApart S.start s) : S.Spared s := by
  refine Safe.spared (hrun.invariant (safe_start S) ?_)
  exact fun s ev s' h hkeeps hnext => safe_next h hkeeps hnext

/-- The cycle begins before the upload and unlinks only the old fragment; the next one comes
when the upload is over. -/
def purgeAround : List (DirectoryEvent Unit) :=
  listsWithoutContracts ["old"] ++ firstSlice ++ [.enforcer .unlinked] ++ secondSlice ++
    [.enforcer (.names ["s"]), .enforcer (.response (contracts ["s"])),
      .enforcer (.response ⟨201, none⟩)]

/-- The old fragment is gone and the upload is done. -/
def purgedOld (s : DirectoryState Unit) : Bool :=
  s.world.disk.content (osPathJoin "Data" "old") == none &&
    s.world.disk.content (osPathJoin "Data" "s") == some [1, 2] && s.world.done.length == 1

theorem purge_spares_upload_between_cycles :
    ∃ s, EventRun.Reaches oneUpload.next oneUpload.KeepsApart oneUpload.start s ∧
      purgedOld s = true ∧ oneUpload.Spared s := by
  obtain ⟨s, hrun, hs⟩ := EventRun.exists_of_run
    (fun s ev h => of_decide_eq_true (p := oneUpload.KeepsApart s ev) h) purgedOld
    (show (EventRun.run oneUpload.next (fun s ev => decide (oneUpload.KeepsApart s ev))
      oneUpload.start purgeAround).any purgedOld = true by decide +kernel)
  exact ⟨s, hrun, hs, purge_spares_uploads oneUpload hrun⟩

end SharedDirectory
