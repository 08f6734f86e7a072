/-
# The ledger gets every call answered

Finitely many threads call `register`, `unregister` and `list_all`.  Whatever the order of
their operations and whichever file operations fail, every call comes to its end and the
semaphore is free again.

* `FileUse`, `fileUse` : the file is read when it is there, and a handle that was opened
  for writing is closed;
* `Answers` : `register` and `unregister` answer `True` or `False`, `list_all` may raise;
* `can_step` : the thread that holds the semaphore can go on, and one of the others can
  when nobody holds it;
* `ledger_answers_every_call` : every run comes to an end with all calls answered.
-/
import StorageNode.Discipline
import StorageNode.Inevitable
import StorageNode.LedgerLinearizability

open ConnectionLedger Discipline

namespace LedgerProgress

/-! ## How a call uses the file -/

/-- What a thread knows: the file is there; the thread has a handle it writes through. -/
structure FileUse where
  known : Bool
  writing : Bool

/-- Only a file that is there is read. -/
def fileUse : Discipline LedgerOp LedgerOp.Res Exn FileUse where
  allows u
    | .read => u.known = true
    | _ => True
  gives
    | _, .ok _ => True
    | .openRead, .error e => e = .osError ∨ e = .fileNotFound
    | o, .error e => o.mayRaise e = true
  next u
    | .openRead, .ok _ => { u with known := true }
    | .openWrite, .ok _ => { known := true, writing := true }
    -- also a close that fails gives the handle up
    | .closeWrite, _ => { u with writing := false }
    | _, _ => u

/-- The thread has no handle it writes through. -/
def NoHandle {α : Type} (_ : α) (u : FileUse) : Prop := u.writing = false

theorem obeys_op {o : LedgerOp} {u : FileUse} {Q : o.Res → FileUse → Prop}
    {E : Exn → FileUse → Prop} (ho : fileUse.allows u o)
    (hQ : ∀ a, Q a (fileUse.next u o (.ok a))) (hE : ∀ e, E e (fileUse.next u o (.error e))) :
    fileUse.Obeys Q E (ledgerOp o) u :=
  obeys_perform ho (fun a _ => hQ a) fun e _ => hE e

theorem obeys_readEntries {u : FileUse} (hu : u.writing = false) :
    fileUse.Obeys NoHandle NoHandle readEntries u := by
  refine obeys_tryExcept (E := NoHandle) ?_ fun e u' hu' => ?_
  · refine obeys_bind (Q := fun _ u' => u'.known = true ∧ u'.writing = false)
      (obeys_op trivial (fun _ => ⟨rfl, hu⟩) fun _ => hu) fun _ u' hu' => ?_
    refine obeys_bind (Q := NoHandle) (obeys_tryFinally (Q := NoHandle) (E := NoHandle) ?_ ?_ ?_)
      fun data u'' hu'' => obeys_ofExcept (fun _ _ => hu'') fun _ _ => hu''
    · refine obeys_bind (Q := NoHandle) (obeys_op hu'.1 (fun _ => hu'.2) fun _ => hu'.2)
        fun text u'' hu'' => ?_
      cases jsonLoads text with
      | none => exact hu''
      | some data => exact hu''
    · exact fun _ _ h => obeys_op trivial (fun _ => h) fun _ => h
    · exact fun _ _ h => obeys_op trivial (fun _ => h) fun _ => h
  · by_cases he : e = Exn.fileNotFound ∨ e = Exn.jsonDecode
    · simp only [he, if_true]
      exact hu'
    · simp only [he, if_false]
      exact hu'

theorem obeys_writePieces (text : List Char) (u : FileUse) :
    fileUse.Obeys (fun _ _ => True) (fun _ _ => True) (writePieces text) u := by
  induction text generalizing u with
  | nil => trivial
  | cons c text ih =>
      exact obeys_bind (Q := fun _ _ => True) (obeys_op trivial (fun _ => trivial) fun _ => trivial)
        fun _ u' _ => ih u'

theorem obeys_writeEntries (entries : Json) {u : FileUse} (hu : u.writing = false) :
    fileUse.Obeys NoHandle NoHandle (writeEntries entries) u := by
  refine obeys_bind (Q := fun _ _ => True) (obeys_op trivial (fun _ => trivial) fun _ => hu)
    fun _ u' _ => ?_
  refine obeys_tryFinally (obeys_writePieces _ u') ?_ ?_
  · exact fun _ _ _ => obeys_op trivial (fun _ => rfl) fun _ => rfl
  · exact fun _ _ _ => obeys_op trivial (fun _ => rfl) fun _ => rfl

/-- No exception leaves `register` and `unregister` once they have the semaphore. -/
theorem obeys_changeEntries (change : Json → Except Exn Json) {u : FileUse}
    (hu : u.writing = false) :
    fileUse.Obeys NoHandle (fun _ _ => False) (changeEntries change) u := by
  refine obeys_tryExcept (E := NoHandle) ?_ fun _ _ h => h
  refine obeys_bind (Q := NoHandle) (obeys_readEntries hu) fun entries u₁ h₁ => ?_
  refine obeys_bind (Q := NoHandle) (obeys_ofExcept (fun _ _ => h₁) fun _ _ => h₁)
    fun entries' u₂ h₂ => ?_
  exact obeys_bind (Q := NoHandle) (obeys_writeEntries entries' h₂) fun _ _ h => h

/-- `acquire`, and `release` in the `finally`: neither taking nor giving back the semaphore
raises. -/
theorem obeys_locked {α : Type} {p : Ledger α} {R : Exn → Prop} {u : FileUse}
    (hu : u.writing = false) (h : ∀ u, u.writing = false →
      fileUse.Obeys NoHandle (fun e u' => R e ∧ u'.writing = false) p u) :
    fileUse.Obeys NoHandle (fun e u' => R e ∧ u'.writing = false)
      ((ledgerOp .acquire).bind fun _ => p.tryFinally (ledgerOp .release)) u := by
  refine obeys_bind (Q := NoHandle) (obeys_perform trivial (fun _ _ => hu) fun _ he => ?_)
    fun _ u' hu' => obeys_tryFinally (h u' hu') ?_ ?_
  · exact absurd he (by simp [fileUse, LedgerOp.mayRaise])
  · exact fun _ _ h => obeys_perform trivial (fun _ _ => h) fun _ he =>
      absurd he (by simp [fileUse, LedgerOp.mayRaise])
  · exact fun _ _ h => obeys_perform trivial (fun _ _ => h) fun _ he =>
      absurd he (by simp [fileUse, LedgerOp.mayRaise])

theorem obeys_update (change : Json → Except Exn Json) {u : FileUse} (hu : u.writing = false) :
    fileUse.Obeys NoHandle (fun _ _ => False) (update change) u :=
  obeys_mono (obeys_locked (R := fun _ => False) hu fun _ hu' =>
    obeys_mono (obeys_changeEntries change hu') (fun _ _ h => h) fun _ _ h => h.elim)
    (fun _ _ h => h) fun _ _ h => h.1

/-! ## What a call answers -/

/-- `register` and `unregister` answer `True` or `False`; only `list_all` may raise. -/
def Answers : LedgerCall → Except Exn LedgerReply → Prop
  | .listAll, reply => (∃ v, reply = .ok (.entries v)) ∨ ∃ e, reply = .error e
  | _, reply => ∃ b, reply = .ok (.bool b)

theorem obeys_run (call : LedgerCall) {u : FileUse} (hu : u.writing = false) :
    fileUse.Obeys (fun a u' => Answers call (.ok a) ∧ u'.writing = false)
      (fun e u' => Answers call (.error e) ∧ u'.writing = false) call.run u := by
  have hchange : ∀ change, fileUse.Obeys NoHandle
      (fun e u' => Answers call (.error e) ∧ u'.writing = false) (update change) u :=
    fun change => obeys_mono (obeys_update change hu) (fun _ _ h => h) fun _ _ h => h.elim
  cases call with
  | register entry => exact obeys_bind (hchange _) fun b u' hu' => ⟨⟨b, rfl⟩, hu'⟩
  | unregister entry => exact obeys_bind (hchange _) fun b u' hu' => ⟨⟨b, rfl⟩, hu'⟩
  | listAll =>
      refine obeys_bind (Q := NoHandle) (obeys_locked hu fun u' hu' => ?_)
        fun v u' hu' => ⟨Or.inl ⟨v, rfl⟩, hu'⟩
      exact obeys_mono (obeys_readEntries hu') (fun _ _ h => h)
        fun e _ h => ⟨Or.inr ⟨e, rfl⟩, h⟩

/-- A thread gets an answer to each of its calls, in their order. -/
theorem obeys_runCalls (calls : List LedgerCall) (done : List LedgerCall)
    {replies : List (Except Exn LedgerReply)} (h : List.Forall₂ Answers done replies)
    {u : FileUse} (hu : u.writing = false) :
    fileUse.Obeys (fun replies' u' => List.Forall₂ Answers (done ++ calls) replies' ∧
      u'.writing = false) (fun _ _ => False) (runCalls calls replies) u := by
  induction calls generalizing done replies u with
  | nil => exact ⟨by simpa using h, hu⟩
  | cons call calls ih =>
      refine obeys_bind (Q := fun reply u' => Answers call reply ∧ u'.writing = false) ?_
        fun reply u' hu' => ?_
      · exact obeys_tryExcept (obeys_bind (obeys_run call hu) fun _ _ h => h) fun _ _ h => h
      · have hdone : List.Forall₂ Answers (done ++ [call]) (replies ++ [reply]) :=
          List.rel_append h (.cons hu'.1 .nil)
        simpa using ih (done ++ [call]) hdone hu'.2

/-! ## No thread is stuck -/

section Progress

variable {ι : Type} [DecidableEq ι]

/-- The file and the thread's handle are as the thread has used them. -/
def Agrees (i : ι) (u : FileUse) (w : LedgerWorld ι) : Prop :=
  (u.known = true → w.file.isSome) ∧ (u.writing = false → w.out i = none)

/-- What a failed write or close leaves behind. -/
theorem agrees_afterFile {i j : ι} (c : Choice) (o : LedgerOp) {u : FileUse} {w : LedgerWorld ι}
    (h : Agrees j u w) : Agrees j u (w.afterFile i c o) := by
  obtain ⟨hknown, hhandle⟩ := h
  have hfile : (w.afterFile i c o).file.isSome = w.file.isSome := by
    cases o with
    | write piece => simp only [LedgerWorld.afterFile]; split <;> simp [LedgerWorld.flush]
    | closeWrite => simp only [LedgerWorld.afterFile]; split <;> simp [LedgerWorld.flush]
    | _ => rfl
  refine ⟨fun hk => hfile ▸ hknown hk, fun hw => ?_⟩
  have hj := hhandle hw
  cases o with
  | write piece =>
      simp only [LedgerWorld.afterFile]
      split
      · next h' hi =>
          have hij : j ≠ i := by
            rintro rfl
            rw [hj] at hi
            exact absurd hi (by simp)
          simp only [Function.update_of_ne hij, hj]
      · exact hj
  | closeWrite =>
      simp only [LedgerWorld.afterFile]
      split
      · by_cases hij : j = i
        · simp [hij]
        · simp only [Function.update_of_ne hij, hj]
      · exact hj
  | _ => exact hj

/-- A close leaves the thread without a handle. -/
theorem out_afterFile_close (i : ι) (c : Choice) (w : LedgerWorld ι) :
    (w.afterFile i c .closeWrite).out i = none := by
  simp only [LedgerWorld.afterFile]
  split
  · simp
  · next h => exact h

/-- The operations of a thread do what its use of the file says. -/
theorem agrees_own {i : ι} {o : LedgerOp} {c : Choice} {u : FileUse} {w w' : LedgerWorld ι}
    {r : Except Exn o.Res} (h : Agrees i u w) (he : w.exec i o c = some (r, w')) :
    fileUse.gives o r ∧ Agrees i (fileUse.next u o r) w' := by
  rcases LedgerWorld.exec_cases he with ⟨e, -, hm, rfl, rfl⟩ | ⟨-, hp⟩
  · have h' : Agrees i u (w.afterFile i c o) := agrees_afterFile c o h
    cases o with
    | openRead => exact ⟨Or.inl (by simpa [LedgerOp.mayRaise] using hm), h'⟩
    | closeWrite => exact ⟨hm, h'.1, fun _ => out_afterFile_close i c w⟩
    | _ => exact ⟨hm, h'⟩
  · cases o with
    | openRead =>
        obtain ⟨rfl, ⟨-, rfl⟩ | ⟨hfile, rfl⟩ | ⟨-, rfl⟩⟩ := exec_openRead he
        · exact ⟨Or.inl rfl, h⟩
        · exact ⟨trivial, fun _ => hfile, h.2⟩
        · exact ⟨Or.inr rfl, h⟩
    | read =>
        simp only [LedgerWorld.perform, Option.map_eq_some_iff, Prod.mk.injEq] at hp
        obtain ⟨text, -, rfl, rfl⟩ := hp
        exact ⟨trivial, h⟩
    | acquire =>
        obtain ⟨-, rfl, rfl⟩ := exec_acquire he
        exact ⟨trivial, h⟩
    | release =>
        obtain ⟨rfl, rfl⟩ := exec_release he
        exact ⟨trivial, h⟩
    | closeRead => obtain ⟨rfl, rfl⟩ := hp; exact ⟨trivial, h⟩
    | openWrite =>
        obtain ⟨rfl, rfl⟩ := hp
        exact ⟨trivial, fun _ => rfl, fun hw => absurd hw (by simp [fileUse])⟩
    | write piece =>
        obtain ⟨rfl, rfl⟩ := hp
        exact ⟨trivial, agrees_afterFile c (.write piece) h⟩
    | closeWrite =>
        obtain ⟨rfl, rfl⟩ := hp
        have h' := agrees_afterFile (i := i) c .closeWrite h
        exact ⟨trivial, h'.1, fun _ => out_afterFile_close i c w⟩

theorem agrees_other {i j : ι} {o : LedgerOp} {c : Choice} {u : FileUse} {w w' : LedgerWorld ι}
    {r : Except Exn o.Res} (hij : j ≠ i) (h : Agrees j u w) (he : w.exec i o c = some (r, w')) :
    Agrees j u w' := by
  rcases LedgerWorld.exec_cases he with ⟨e, -, -, -, rfl⟩ | ⟨-, hp⟩
  · exact agrees_afterFile c o h
  · cases o with
    | openRead =>
        obtain ⟨rfl, -⟩ := exec_openRead he
        exact h
    | read =>
        obtain ⟨rfl, -⟩ := exec_read he
        exact h
    | acquire =>
        obtain ⟨-, -, rfl⟩ := exec_acquire he
        exact h
    | release =>
        obtain ⟨-, rfl⟩ := exec_release he
        exact h
    | closeRead => obtain ⟨-, rfl⟩ := hp; exact h
    | openWrite =>
        obtain ⟨-, rfl⟩ := hp
        refine ⟨fun _ => rfl, fun hw => ?_⟩
        show Function.update w.out i (some {}) j = none
        rw [Function.update_of_ne hij]
        exact h.2 hw
    | write piece => obtain ⟨-, rfl⟩ := hp; exact agrees_afterFile c (.write piece) h
    | closeWrite => obtain ⟨-, rfl⟩ := hp; exact agrees_afterFile c .closeWrite h

/-- The thread that holds the semaphore can make its next operation. -/
theorem exec_inside {i : ι} {o : LedgerOp} {u : FileUse} {w : LedgerWorld ι}
    (ho : o ≠ .acquire) (hallows : fileUse.allows u o) (h : Agrees i u w) :
    ∃ r w', w.exec i o {} = some (r, w') := by
  cases o with
  | acquire => exact absurd rfl ho
  | read =>
      obtain ⟨text, htext⟩ := Option.isSome_iff_exists.mp (h.1 hallows)
      exact ⟨_, _, by simp only [LedgerWorld.exec, LedgerWorld.perform, htext, Option.map_some]; rfl⟩
  | openRead =>
      cases hfile : w.file with
      | none => exact ⟨_, _, by simp only [LedgerWorld.exec, LedgerWorld.perform, hfile]; rfl⟩
      | some text => exact ⟨_, _, by simp only [LedgerWorld.exec, LedgerWorld.perform, hfile]; rfl⟩
  | _ => exact ⟨_, _, rfl⟩

variable {calls : ι → List LedgerCall}

/-- Every thread is on its way to an answer for each of its calls. -/
def Underway (calls : ι → List LedgerCall)
    (s : Pool.Conf ι LedgerOp LedgerOp.Res Exn (LedgerWorld ι) (List (Except Exn LedgerReply))) :
    Prop :=
  ∀ i, ∃ u, fileUse.Obeys (fun replies u' => List.Forall₂ Answers (calls i) replies ∧
    u'.writing = false) (fun _ _ => False) (s.1 i) u ∧ Agrees i u s.2

theorem underway_of_reaches {meets : Pool.Condition ι LedgerOp Choice (LedgerWorld ι)}
    {s s' : Pool.Conf ι LedgerOp LedgerOp.Res Exn (LedgerWorld ι) (List (Except Exn LedgerReply))}
    (h : Underway calls s) (hr : LedgerWorld.ledger.Reaches meets s s') : Underway calls s' := by
  refine obeys_reaches fileUse ?_ ?_ ?_ h hr
  · exact fun i o c u w r w' _ hagrees he => agrees_own hagrees he
  · exact fun i j o c u w r w' hij hagrees he => agrees_other hij hagrees he
  · exact fun e => e.elim

/-- All threads have an answer to each of their calls, nobody holds the semaphore, and no
handle is open. -/
def AllAnswered (calls : ι → List LedgerCall)
    (s : Pool.Conf ι LedgerOp LedgerOp.Res Exn (LedgerWorld ι) (List (Except Exn LedgerReply))) :
    Prop :=
  (∀ i, ∃ replies, s.1 i = .ret replies ∧ List.Forall₂ Answers (calls i) replies) ∧
    s.2.sem = 1 ∧ s.2.holder = none ∧ ∀ i, s.2.out i = none

/-- **Some thread can go on**: the one that holds the semaphore, or any thread with a call
to make when nobody holds it. -/
theorem can_step {faults : Pool.Condition ι LedgerOp Choice (LedgerWorld ι)}
    (hfaults : ∀ i o c w, c.fault = none → faults i o c w)
    {s : Pool.Conf ι LedgerOp LedgerOp.Res Exn (LedgerWorld ι) (List (Except Exn LedgerReply))}
    (hlocked : Locked s) (h : Underway calls s) :
    AllAnswered calls s ∨ ∃ s', LedgerWorld.ledger.Step faults s s' := by
  obtain ⟨ps, w⟩ := s
  obtain ⟨hbal, hsem⟩ := hlocked
  cases hholder : w.holder with
  | some i =>
      right
      obtain ⟨u, hobeys, hagrees⟩ := h i
      have hi : LockBalanced (ps i) true := by simpa [hholder] using hbal i
      cases hp : ps i with
      | ret a => rw [hp] at hi; exact absurd hi (by simp [LockBalanced])
      | raise e => rw [hp] at hi; exact absurd hi (by simp [LockBalanced])
      | hang => simp only [hp] at hobeys; exact hobeys.elim
      | call o k =>
          simp only [hp] at hobeys
          have ho : o ≠ .acquire := by
            rintro rfl
            rw [hp] at hi
            exact absurd hi.1 (by simp)
          obtain ⟨r, w', he⟩ := exec_inside ho hobeys.1 hagrees
          exact ⟨_, .call hp (hfaults i o {} w rfl) he⟩
  | none =>
      by_cases hall : ∀ i, ∃ replies, ps i = .ret replies
      · left
        refine ⟨fun i => ?_, by simpa [hholder] using hsem, hholder, fun i => ?_⟩
        · obtain ⟨replies, hp⟩ := hall i
          obtain ⟨u, hobeys, -⟩ := h i
          simp only [hp] at hobeys
          exact ⟨replies, hp, hobeys.1⟩
        · obtain ⟨replies, hp⟩ := hall i
          obtain ⟨u, hobeys, hagrees⟩ := h i
          simp only [hp] at hobeys
          exact hagrees.2 hobeys.2
      · right
        obtain ⟨i, hi⟩ := not_forall.mp hall
        obtain ⟨u, hobeys, hagrees⟩ := h i
        have hbal' : LockBalanced (ps i) false := by simpa [hholder] using hbal i
        cases hp : ps i with
        | ret a => exact absurd ⟨a, hp⟩ hi
        | raise e => simp only [hp] at hobeys; exact hobeys.elim
        | hang => simp only [hp] at hobeys; exact hobeys.elim
        | call o k =>
            -- between two calls a thread can only take the semaphore
            rw [hp] at hbal'
            cases o with
            | acquire =>
                have hpos : w.sem = 1 := by simpa [hholder] using hsem
                exact ⟨_, .call hp (hfaults i .acquire {} w rfl)
                  (by simp only [LedgerWorld.ledger, LedgerWorld.exec, LedgerWorld.perform, hpos,
                    Nat.one_pos, if_true]; rfl)⟩
            | _ => exact absurd hbal'.1 (by simp)

/-- **Every call is answered.**  Finitely many threads make any calls on any ledger file,
in any order and with any failing file operations: no run is stuck or goes on for ever, and
at its end each call has its answer, the semaphore is free and no handle is open.
`register` and `unregister` answer `True` or `False` and never raise. -/
theorem ledger_answers_every_call [Fintype ι] (calls : ι → List LedgerCall)
    (file : Option (List Char)) (faults : Pool.Condition ι LedgerOp Choice (LedgerWorld ι))
    (hfaults : ∀ i o c w, c.fault = none → faults i o c w) :
    Inevitably (LedgerWorld.ledger.Step faults) (AllAnswered calls)
      (fun i => runCalls (calls i) [], LedgerWorld.start file) := by
  refine inevitably_of_progress (LedgerWorld.ledger.wf_step faults ⟨fun w => ⟨w, ?_⟩⟩) ?_
  · rintro w' ⟨e, -⟩
    exact e.elim
  · intro s hr
    refine can_step hfaults (locked_of_reaches ⟨fun i => ?_, rfl⟩ hr) (underway_of_reaches ?_ hr)
    · exact balanced_runCalls _ _
    · intro i
      refine ⟨⟨false, false⟩, ?_, fun h => absurd h (by simp), fun _ => rfl⟩
      exact obeys_runCalls (calls i) [] .nil rfl

end Progress

/-- Two threads use a ledger whose file is gone, and any operation may fail. -/
theorem ledger_answers_two_threads :
    Inevitably ((LedgerWorld.ledger (ι := Bool)).Step Pool.always) (AllAnswered sampleCalls)
      (fun i => runCalls (sampleCalls i) [], LedgerWorld.start none) :=
  ledger_answers_every_call sampleCalls none Pool.always fun _ _ _ _ _ => trivial

end LedgerProgress
