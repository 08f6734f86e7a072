/-
# Linearizability of the ledger

Any number of threads call `register`, `unregister` and `list_all`, each a list of calls
one after another.  Between `acquire` and `release` a call has the file to itself, so the
calls take effect in the order of their `release`s.

* `LedgerCall.spec` : the calls on an abstract list;
* `SequentialLedger`, `SequentialLedger.run` : the calls executed one at a time in a given order;
* `LockBalanced`, `locked_of_reaches` : every call gives the semaphore back, however it ends;
* `spec_runCalls` : what a thread has got back is what the sequential execution gave it;
* `ledger_linearizable` : every run of all threads is a sequential one.
-/
import StorageNode.LedgerAtomicity

open ConnectionLedger

/-- A call of one of the methods. -/
inductive LedgerCall
  | register (entry : Dict)
  | unregister (entry : Dict)
  | listAll

/-- What a call returns. -/
inductive LedgerReply
  | bool (b : Bool)
  | entries (v : Json)

namespace LedgerCall

/-- The method. -/
def run : LedgerCall → Ledger LedgerReply
  | register entry => (ConnectionLedger.register entry).bind fun b => .ret (.bool b)
  | unregister entry => (ConnectionLedger.unregister entry).bind fun b => .ret (.bool b)
  | listAll => ConnectionLedger.listAll.bind fun v => .ret (.entries v)

/-- **The call on an abstract list**: `register` appends, `unregister` removes the first
equal entry and returns `False` when there is none, `list_all` returns the list. -/
def spec : LedgerCall → List Json → LedgerReply × List Json
  | register entry, xs => (.bool true, xs ++ [.obj entry])
  | unregister entry, xs =>
      match pyRemove (.obj entry) xs with
      | some ys => (.bool true, ys)
      | none => (.bool false, xs)
  | listAll, xs => (.entries (.arr xs), xs)

/-- The entry of the call is a dictionary. -/
def WF : LedgerCall → Prop
  | register entry => (Json.obj entry).WF
  | unregister entry => (Json.obj entry).WF
  | listAll => True

end LedgerCall

/-- A thread that makes its calls one after another and keeps what each one gave. -/
def runCalls : List LedgerCall → List (Except Exn LedgerReply) →
    Ledger (List (Except Exn LedgerReply))
  | [], replies => pure replies
  | call :: calls, replies => do
      let reply ← (call.run.bind fun a => .ret (.ok a)).tryExcept fun e => pure (.error e)
      runCalls calls (replies ++ [reply])

/-! ## Sequential executions -/

/-- The list, the calls each thread has still to make and the replies it has got. -/
structure SequentialLedger (ι : Type) where
  entries : List Json
  calls : ι → List LedgerCall
  replies : ι → List (Except Exn LedgerReply)

namespace SequentialLedger

variable {ι : Type} [DecidableEq ι]

/-- Thread `i` makes its next call. -/
def step (i : ι) (σ : SequentialLedger ι) : Option (SequentialLedger ι) :=
  match σ.calls i with
  | [] => none
  | call :: calls =>
      some { entries := (call.spec σ.entries).2,
             calls := Function.update σ.calls i calls,
             replies := Function.update σ.replies i
               (σ.replies i ++ [.ok (call.spec σ.entries).1]) }

/-- The calls in a given order of the threads. -/
def run : List ι → SequentialLedger ι → Option (SequentialLedger ι)
  | [], σ => some σ
  | i :: order, σ =>
      match σ.step i with
      | some σ' => run order σ'
      | none => none

theorem run_append_singleton (order : List ι) (i : ι) (σ : SequentialLedger ι) :
    run (order ++ [i]) σ = (run order σ).bind (step i) := by
  induction order generalizing σ with
  | nil =>
      simp only [List.nil_append, run, Option.bind_some]
      cases σ.step i <;> rfl
  | cons j order ih =>
      simp only [List.cons_append, run]
      cases σ.step j with
      | none => rfl
      | some σ' => exact ih σ'

/-- A step of one thread leaves the others alone. -/
theorem step_of_ne {i j : ι} (hij : i ≠ j) {σ σ' : SequentialLedger ι} (h : σ.step j = some σ') :
    σ'.calls i = σ.calls i ∧ σ'.replies i = σ.replies i := by
  unfold step at h
  split at h
  · exact absurd h (by simp)
  · obtain rfl := Option.some.inj h
    exact ⟨Function.update_of_ne hij .., Function.update_of_ne hij ..⟩

end SequentialLedger

/-! ## The semaphore -/

section Semaphore

variable {α β : Type}

/-- **Balanced use of the semaphore.**  The program holds it or not; it takes it only when
it does not hold it, works on the file and releases it only when it does, and ends without
it. -/
def LockBalanced : Ledger α → Bool → Prop
  | .ret _, held => held = false
  | .raise _, held => held = false
  | .hang, _ => True
  | .call .acquire k, held => held = false ∧ LockBalanced (k (.ok ())) true
  | .call .release k, held => held = true ∧ ∀ r, LockBalanced (k r) false
  | .call _ k, held => held = true ∧ ∀ r, LockBalanced (k r) true

/-- A program that only works on the file. -/
def Inside : Ledger α → Prop
  | .ret _ => True
  | .raise _ => True
  | .hang => True
  | .call o k => onFile o = true ∧ ∀ r, Inside (k r)

theorem balanced_onFile {o : LedgerOp} (ho : onFile o = true)
    {k : Except Exn o.Res → Ledger α} {held : Bool} :
    LockBalanced (.call o k) held ↔ held = true ∧ ∀ r, LockBalanced (k r) true := by
  cases o with
  | acquire => exact absurd ho (by decide)
  | release => exact absurd ho (by decide)
  | _ => exact Iff.rfl

theorem Inside.bind {p : Ledger α} {f : α → Ledger β} (hp : Inside p) (hf : ∀ a, Inside (f a)) :
    Inside (p.bind f) := by
  induction p with
  | ret a => exact hf a
  | raise e => trivial
  | hang => trivial
  | call o k ih => exact ⟨hp.1, fun r => ih r (hp.2 r)⟩

theorem Inside.tryExcept {p : Ledger α} {g : Exn → Ledger α} (hp : Inside p)
    (hg : ∀ e, Inside (g e)) : Inside (p.tryExcept g) := by
  induction p with
  | ret a => trivial
  | raise e => exact hg e
  | hang => trivial
  | call o k ih => exact ⟨hp.1, fun r => ih r (hp.2 r)⟩

theorem Inside.tryFinally {p : Ledger α} {c : Ledger Unit} (hp : Inside p) (hc : Inside c) :
    Inside (p.tryFinally c) := by
  induction p with
  | ret a => exact hc.bind fun _ => trivial
  | raise e => exact hc.bind fun _ => trivial
  | hang => trivial
  | call o k ih => exact ⟨hp.1, fun r => ih r (hp.2 r)⟩

theorem inside_op {o : LedgerOp} (ho : onFile o = true) : Inside (ledgerOp o) := by
  refine ⟨ho, ?_⟩
  rintro (e | a)
  · trivial
  · trivial

theorem inside_ofExcept (x : Except Exn α) : Inside (Prog.ofExcept x) := by
  cases x <;> trivial

theorem inside_writePieces (text : List Char) : Inside (writePieces text) := by
  induction text with
  | nil => trivial
  | cons c r ih => exact (inside_op rfl).bind fun _ => ih

theorem inside_readEntries : Inside readEntries := by
  have hload : Inside jsonLoad := by
    refine (inside_op rfl).bind fun text => ?_
    split <;> trivial
  refine Inside.tryExcept ((inside_op rfl).bind fun _ =>
    (hload.tryFinally (inside_op rfl)).bind fun data => inside_ofExcept _) fun e => ?_
  split <;> trivial

theorem inside_changeEntries (change : Json → Except Exn Json) : Inside (changeEntries change) := by
  refine Inside.tryExcept (inside_readEntries.bind fun entries =>
    (inside_ofExcept _).bind fun entries' => Inside.bind ?_ fun _ => trivial) fun _ => trivial
  exact (inside_op rfl).bind fun _ => (inside_writePieces _).tryFinally (inside_op rfl)

/-- `finally: semaphore.release()` gives the semaphore back, however the body ends. -/
theorem Inside.balanced {p : Ledger α} (hp : Inside p) :
    LockBalanced (p.tryFinally (ledgerOp .release)) true := by
  induction p with
  | ret a =>
      refine ⟨rfl, ?_⟩
      rintro (e | a) <;> exact rfl
  | raise e =>
      refine ⟨rfl, ?_⟩
      rintro (e | a) <;> exact rfl
  | hang => trivial
  | call o k ih => exact (balanced_onFile hp.1).mpr ⟨rfl, fun r => ih r (hp.2 r)⟩

theorem LockBalanced.bind {p : Ledger α} {f : α → Ledger β} {held : Bool} (hp : LockBalanced p held)
    (hf : ∀ a, LockBalanced (f a) false) : LockBalanced (p.bind f) held := by
  induction p generalizing held with
  | ret a =>
      obtain rfl : held = false := hp
      exact hf a
  | raise e => exact hp
  | hang => trivial
  | call o k ih =>
      cases o with
      | acquire => exact ⟨hp.1, ih _ hp.2⟩
      | release => exact ⟨hp.1, fun r => ih r (hp.2 r)⟩
      | _ => exact ⟨hp.1, fun r => ih r (hp.2 r)⟩

theorem LockBalanced.tryExcept {p : Ledger α} {g : Exn → Ledger α} {held : Bool}
    (hp : LockBalanced p held) (hg : ∀ e, LockBalanced (g e) false) :
    LockBalanced (p.tryExcept g) held := by
  induction p generalizing held with
  | ret a => exact hp
  | raise e =>
      obtain rfl : held = false := hp
      exact hg e
  | hang => trivial
  | call o k ih =>
      cases o with
      | acquire => exact ⟨hp.1, ih _ hp.2⟩
      | release => exact ⟨hp.1, fun r => ih r (hp.2 r)⟩
      | _ => exact ⟨hp.1, fun r => ih r (hp.2 r)⟩

theorem balanced_call (call : LedgerCall) : LockBalanced call.run false := by
  cases call with
  | register entry =>
      exact LockBalanced.bind (p := update _) ⟨rfl, (inside_changeEntries _).balanced⟩ fun _ => rfl
  | unregister entry =>
      exact LockBalanced.bind (p := update _) ⟨rfl, (inside_changeEntries _).balanced⟩ fun _ => rfl
  | listAll =>
      exact LockBalanced.bind (p := listAll) ⟨rfl, inside_readEntries.balanced⟩ fun _ => rfl

theorem balanced_runCalls (calls : List LedgerCall) (replies : List (Except Exn LedgerReply)) :
    LockBalanced (runCalls calls replies) false := by
  induction calls generalizing replies with
  | nil => exact rfl
  | cons call calls ih =>
      refine LockBalanced.bind (LockBalanced.tryExcept ((balanced_call call).bind fun _ => ?_)
        fun _ => ?_) fun _ => ih _
      · exact rfl
      · exact rfl

/-- The thread is between two calls, or has ended. -/
def Outside : Ledger α → Prop
  | .ret _ => True
  | .raise _ => True
  | .call .acquire _ => True
  | _ => False

theorem LockBalanced.not_held {p : Ledger α} {held : Bool} (h : LockBalanced p held) (ho : Outside p) :
    held = false := by
  cases p with
  | ret a => exact h
  | raise e => exact h
  | hang => exact ho.elim
  | call o k =>
      cases o with
      | acquire => exact h.1
      | _ => exact ho.elim

variable {ι : Type} [DecidableEq ι]

/-- At most one thread holds the semaphore, and every thread uses it in a balanced way. -/
def Locked (s : Pool.Conf ι LedgerOp LedgerOp.Res Exn (LedgerWorld ι) α) : Prop :=
  (∀ i, LockBalanced (s.1 i) (decide (s.2.holder = some i))) ∧
    s.2.sem = if s.2.holder = none then 1 else 0

theorem locked_step {meets : Pool.Condition ι LedgerOp Choice (LedgerWorld ι)}
    {s s' : Pool.Conf ι LedgerOp LedgerOp.Res Exn (LedgerWorld ι) α} (h : Locked s)
    (hs : LedgerWorld.ledger.Step meets s s') : Locked s' := by
  cases hs with
  | @env ps w w' e he => exact e.elim
  | @call ps w w' i o k c r hp _ he =>
      obtain ⟨hbal, hsem⟩ := h
      have hi : LockBalanced (.call o k) (decide (w.holder = some i)) := hp ▸ hbal i
      -- what is left of thread `i` is balanced, and nothing changed for the others
      suffices h : LockBalanced (k r) (decide (w'.holder = some i)) ∧
          (∀ j, j ≠ i → (w'.holder = some j ↔ w.holder = some j)) ∧
          w'.sem = if w'.holder = none then 1 else 0 by
        refine ⟨fun j => ?_, h.2.2⟩
        by_cases hj : j = i
        · subst hj
          simpa only [Function.update_self] using h.1
        · have hsame : decide (w'.holder = some j) = decide (w.holder = some j) := by
            simp only [h.2.1 j hj]
          simp only [Function.update_of_ne hj, hsame]
          exact hbal j
      cases ho : onFile o with
      | true =>
          obtain ⟨hheld, hk⟩ := (balanced_onFile ho).mp hi
          obtain ⟨hholder, hsem', -⟩ := exec_onFile ho he
          rw [hholder, hsem', hheld]
          exact ⟨hk r, fun _ _ => Iff.rfl, hsem⟩
      | false =>
          cases o with
          | acquire =>
              obtain ⟨hpos, rfl, rfl⟩ := exec_acquire he
              have hfree : w.holder = none := by
                by_contra hne
                change w.sem = _ at hsem
                rw [if_neg hne] at hsem
                omega
              change w.sem = _ at hsem
              rw [if_pos hfree] at hsem
              refine ⟨by simpa using hi.2, fun j hj => ?_, ?_⟩
              · simp [hfree, Ne.symm hj]
              · simp [hsem]
          | release =>
              obtain ⟨rfl, rfl⟩ := exec_release he
              have hheld : w.holder = some i := of_decide_eq_true hi.1
              change w.sem = _ at hsem
              refine ⟨by simpa using hi.2 _, fun j hj => ?_, ?_⟩
              · simp [hheld, Ne.symm hj]
              · simp [hsem, hheld]
          | _ => exact absurd ho (by simp [onFile])

theorem locked_of_reaches {meets : Pool.Condition ι LedgerOp Choice (LedgerWorld ι)}
    {s s' : Pool.Conf ι LedgerOp LedgerOp.Res Exn (LedgerWorld ι) α} (h : Locked s)
    (hr : LedgerWorld.ledger.Reaches meets s s') : Locked s' := by
  induction hr with
  | refl => exact h
  | tail _ hs ih => exact locked_step ih hs

end Semaphore

/-! ## The calls take effect in the order of the releases -/

section Effect

variable {ι : Type} [DecidableEq ι] (σ₀ : SequentialLedger ι)

/-- **The invariant.**  The served threads have made their calls one at a time, and the
file of a free ledger holds the list this gives. -/
def Served (w : LedgerWorld ι) : Prop :=
  ∃ σ, SequentialLedger.run w.served σ₀ = some σ ∧ (∀ x ∈ σ.entries, x.WF) ∧
    (w.holder = none → w.sem = 1 ∧ readFile w.file = .ok (.arr σ.entries)) ∧
    (w.holder ≠ none → w.sem = 0)

/-- Thread `i` does not hold the semaphore; in the sequential execution it has still to
make `calls` and has got `replies`. -/
def At (i : ι) (calls : List LedgerCall) (replies : List (Except Exn LedgerReply))
    (w : LedgerWorld ι) : Prop :=
  Served σ₀ w ∧ w.holder ≠ some i ∧
    ∀ σ, SequentialLedger.run w.served σ₀ = some σ → σ.calls i = calls ∧ σ.replies i = replies

variable {σ₀} {i : ι} {calls : List LedgerCall} {replies : List (Except Exn LedgerReply)}

theorem settled_at (faulty : Prop) :
    (ledgerSetting i faulty (Served σ₀)).Settled (At σ₀ i calls replies) where
  stable := by
    rintro w w' ⟨-, hholder, hat⟩ ⟨j, hj, hserved', -, hkeep, horder⟩
    refine ⟨hserved', fun h => hholder (hkeep i hj.symm h), fun σ' hσ' => ?_⟩
    rcases horder with h | h
    · rw [h] at hσ'
      exact hat σ' hσ'
    · -- another thread was served
      rw [h, SequentialLedger.run_append_singleton] at hσ'
      obtain ⟨σ, hσ, hstep⟩ := Option.bind_eq_some_iff.mp hσ'
      obtain ⟨hcalls, hreplies⟩ := SequentialLedger.step_of_ne hj.symm hstep
      obtain ⟨hc, hr⟩ := hat σ hσ
      exact ⟨hcalls.trans hc, hreplies.trans hr⟩
  safe := fun w h => h.1

/-- Thread `i` took the semaphore when the sequential execution had come to `σ`. -/
def Entered (σ₀ : SequentialLedger ι) (i : ι) (calls : List LedgerCall)
    (replies : List (Except Exn LedgerReply)) (σ : SequentialLedger ι) (l : List ι)
    (file : Option (List Char)) : Prop :=
  SequentialLedger.run l σ₀ = some σ ∧ (∀ x ∈ σ.entries, x.WF) ∧ σ.calls i = calls ∧
    σ.replies i = replies ∧ readFile file = .ok (.arr σ.entries)

theorem safe_of_entered {σ : SequentialLedger ι} {l : List ι} {file : Option (List Char)}
    (h : Entered σ₀ i calls replies σ l file) (A : LedgerWorld ι → Prop) :
    Safe (Served σ₀) i l A := by
  rintro w ⟨hholder, hsem, hserved, -⟩
  refine ⟨σ, hserved ▸ h.1, h.2.1, fun hn => ?_, fun _ => hsem⟩
  rw [hholder] at hn
  exact absurd hn (by simp)

theorem settled_entered (faulty : Prop) :
    (ledgerSetting i faulty (Served σ₀)).Settled (fun w => ∃ σ l file e,
      Entered σ₀ i calls replies σ l file ∧ Own i l (Unchanged file e) w) where
  stable := by
    rintro w w' ⟨σ, l, file, e, hent, hown⟩ henv
    rw [env_of_holder i faulty hown.1 henv]
    exact ⟨σ, l, file, e, hent, hown⟩
  safe := fun w ⟨_, _, _, _, hent, hown⟩ => safe_of_entered hent _ w hown

theorem settled_false (faulty : Prop) :
    (ledgerSetting i faulty (Served σ₀)).Settled (fun _ => False) :=
  ⟨fun _ _ h => h.elim, fun _ h => h.elim⟩

/-- The semaphore is free, so the file holds the list of the sequential execution. -/
theorem spec_acquire (faulty : Prop) :
    (ledgerSetting i faulty (Served σ₀)).Spec (At σ₀ i calls replies) (ledgerOp .acquire)
      (fun _ w => ∃ σ l file e,
        Entered σ₀ i calls replies σ l file ∧ Own i l (Unchanged file e) w)
      (fun _ => False) := by
  refine Setting.spec_perform (settled_at faulty) (fun _ => settled_entered faulty)
    (settled_false faulty) ?_
  rintro w r w' ⟨⟨σ, hrun, hwf, hfree, hheld⟩, -, hat⟩ ⟨c, he, -⟩
  obtain ⟨hpos, rfl, rfl⟩ := exec_acquire he
  have hholder : w.holder = none := by
    by_contra h
    have := hheld h
    omega
  obtain ⟨hsem, hread⟩ := hfree hholder
  obtain ⟨hcalls, hreplies⟩ := hat σ hrun
  have hent : Entered σ₀ i calls replies σ w.served w.file :=
    ⟨hrun, hwf, hcalls, hreplies, hread⟩
  have hown : Own i w.served (Unchanged w.file w.emptied)
      { w with sem := w.sem - 1, holder := some i } := by
    refine ⟨rfl, ?_, rfl, rfl, rfl⟩
    show w.sem - 1 = 0
    omega
  refine ⟨⟨safe_of_entered hent _ _ hown, fun j _ h => ?_, fun j hj h => ?_, Or.inl rfl⟩,
    σ, w.served, w.file, w.emptied, hent, hown⟩
  · rw [hholder] at h
    exact absurd h (by simp)
  · exact absurd (Option.some.inj h).symm hj

/-- A call keeps the entries well formed. -/
theorem LedgerCall.spec_wf {call : LedgerCall} (hcall : call.WF) {xs : List Json}
    (hxs : ∀ x ∈ xs, x.WF) : ∀ x ∈ (call.spec xs).2, x.WF := by
  cases call with
  | register entry =>
      refine LedgerUpdate.after_wf (u := .register entry) ?_ hxs rfl
      intro e he
      cases he
      exact hcall
  | unregister entry =>
      simp only [LedgerCall.spec]
      cases h : pyRemove (Json.obj entry) xs with
      | none => exact hxs
      | some ys =>
          exact LedgerUpdate.after_wf (u := .unregister entry) (fun _ he => by simp at he) hxs h
  | listAll => exact hxs

/-- **The call takes effect when the semaphore is released.** -/
theorem spec_release (faulty : Prop) {call : LedgerCall} (hcall : call.WF)
    {σ : SequentialLedger ι} {l : List ι} {file : Option (List Char)}
    (hent : Entered σ₀ i (call :: calls) replies σ l file) {A : LedgerWorld ι → Prop}
    (hA : ∀ w, A w → readFile w.file = .ok (.arr (call.spec σ.entries).2)) :
    (ledgerSetting i faulty (Served σ₀)).Spec (Own i l A) (ledgerOp .release)
      (fun _ => At σ₀ i calls (replies ++ [.ok (call.spec σ.entries).1])) (fun _ => False) := by
  refine Setting.spec_perform (settled_own (safe_of_entered hent A)) (fun _ => settled_at faulty)
    (settled_false faulty) ?_
  rintro w r w' ⟨hholder, hsem, hserved, hw⟩ ⟨c, he, -⟩
  obtain ⟨rfl, rfl⟩ := exec_release he
  obtain ⟨hrun, hwf, hcalls, hreplies, -⟩ := hent
  set σ' : SequentialLedger ι :=
    { entries := (call.spec σ.entries).2,
      calls := Function.update σ.calls i calls,
      replies := Function.update σ.replies i
        (σ.replies i ++ [.ok (call.spec σ.entries).1]) } with hσ'
  have hrun' : SequentialLedger.run (w.served ++ [i]) σ₀ = some σ' := by
    rw [SequentialLedger.run_append_singleton, hserved, hrun, Option.bind_some,
      SequentialLedger.step, hcalls]
  have hserved' : Served σ₀
      { w with sem := w.sem + 1, holder := none, served := w.served ++ [i] } := by
    refine ⟨σ', hrun', LedgerCall.spec_wf hcall hwf, fun _ => ⟨?_, hA w hw⟩, fun h => absurd rfl h⟩
    show w.sem + 1 = 1
    omega
  refine ⟨⟨hserved', fun j hj h => ?_, fun j _ h => ?_, Or.inr rfl⟩, hserved', by simp, ?_⟩
  · rw [hholder] at h
    exact absurd (Option.some.inj h).symm hj
  · exact absurd h (by simp)
  · intro σ'' h
    obtain rfl := Option.some.inj (hrun'.symm.trans h)
    refine ⟨Function.update_self .., ?_⟩
    show Function.update σ.replies i _ i = _
    rw [Function.update_self, hreplies]

/-- The call that changes the ledger. -/
def LedgerUpdate.call : LedgerUpdate → LedgerCall
  | .register entry => .register entry
  | .unregister entry => .unregister entry

omit [DecidableEq ι] in
/-- Without faults `register` and `unregister` leave and return what they should. -/
theorem changed_spec {u : LedgerUpdate} {file : Option (List Char)} {xs : List Json} {e : Bool}
    (hread : readFile file = .ok (.arr xs)) (hwf : ∀ x ∈ xs, x.WF) (hu : u.call.WF)
    {w : LedgerWorld ι} {b : Bool} (h : Changed False u.change file e w b) :
    u.call.spec xs = (.bool b, (u.call.spec xs).2) ∧
      readFile w.file = .ok (.arr (u.call.spec xs).2) := by
  have hafter : u.call.spec xs =
      match u.after xs with
      | some ys => (.bool true, ys)
      | none => (.bool false, xs) := by
    cases u <;> rfl
  have hwf' := LedgerCall.spec_wf hu hwf
  cases b with
  | true =>
      obtain ⟨v, ⟨v₀, hv₀, hv⟩, -, hfile⟩ := h
      obtain rfl := Except.ok.inj (hread.symm.trans hv₀)
      rw [LedgerUpdate.change_arr] at hv
      cases ha : u.after xs with
      | none =>
          rw [ha] at hv
          exact absurd hv (by simp)
      | some ys =>
          rw [ha] at hv hafter
          obtain rfl := Except.ok.inj hv
          rw [hafter] at hwf'
          rw [hafter, hfile]
          exact ⟨rfl, readFile_ledgerText hwf'⟩
  | false =>
      obtain ⟨⟨hfile, -⟩, h⟩ | ⟨hf, -⟩ := h
      · cases ha : u.after xs with
        | none =>
            rw [ha] at hafter
            rw [hafter, hfile]
            exact ⟨rfl, hread⟩
        | some ys =>
            have hrep : Replaces u.change file (.arr ys) := by
              refine ⟨.arr xs, hread, ?_⟩
              rw [LedgerUpdate.change_arr, ha]
            rcases h with h | h
            · exact h.elim
            · exact absurd hrep (h _)
      · exact hf.elim

theorem spec_update {u : LedgerUpdate} (hu : u.call.WF) :
    (ledgerSetting i False (Served σ₀)).Spec (At σ₀ i (u.call :: calls) replies)
      (u.run.bind fun b => .ret (.bool b))
      (fun a => At σ₀ i calls (replies ++ [.ok a])) (fun _ => False) := by
  refine Setting.spec_bind (B := fun b => At σ₀ i calls (replies ++ [.ok (.bool b)])) ?_
    fun b => Setting.spec_ret (settled_at _) fun _ h => h
  rw [LedgerUpdate.run_eq]
  refine Setting.spec_bind (spec_acquire False) fun _ => ?_
  rintro w ⟨σ, l, file, e, hent, hown⟩
  have hbody : (ledgerSetting i False (Served σ₀)).Spec (Own i l (Unchanged file e))
      (changeEntries u.change) _ _ :=
    spec_changeEntries u.change (safe_of_entered hent _) fun _ _ => safe_of_entered hent _
  refine Setting.spec_tryFinally (fun _ => settled_at _) (settled_false _) hbody (fun b => ?_)
    (fun _ h => h.elim) w hown
  -- the reply the body computed is the one of the sequential execution
  by_cases hb : (u.call.spec σ.entries).1 = .bool b
  · rw [← hb]
    refine spec_release False hu hent fun w h => ?_
    exact (changed_spec hent.2.2.2.2 hent.2.1 hu h).2
  · rintro w ⟨-, -, -, h⟩
    have := (changed_spec hent.2.2.2.2 hent.2.1 hu h).1
    rw [this] at hb
    exact absurd rfl hb

theorem spec_call {call : LedgerCall} (hcall : call.WF) :
    (ledgerSetting i False (Served σ₀)).Spec (At σ₀ i (call :: calls) replies) call.run
      (fun a => At σ₀ i calls (replies ++ [.ok a])) (fun _ => False) := by
  cases call with
  | register entry => exact spec_update (u := .register entry) hcall
  | unregister entry => exact spec_update (u := .unregister entry) hcall
  | listAll =>
      refine Setting.spec_bind (B := fun v => At σ₀ i calls (replies ++ [.ok (.entries v)])) ?_
        fun v => Setting.spec_ret (settled_at _) fun _ h => h
      refine Setting.spec_bind (spec_acquire False) fun _ => ?_
      rintro w ⟨σ, l, file, e, hent, hown⟩
      have hread : (ledgerSetting i False (Served σ₀)).Triple (Own i l (Unchanged file e))
          readEntries _ := triple_looks (safe_of_entered hent _) (fun w h => h.1)
        (looks_readEntries False file)
      refine Setting.triple_tryFinally _ hread (fun v => ?_) (fun x => ?_) w hown
      · by_cases hv : v = .arr σ.entries
        · subst hv
          refine Setting.spec_bind (B := fun _ => At σ₀ i calls
            (replies ++ [.ok (.entries (.arr σ.entries))])) ?_
            fun _ => Setting.spec_ret (settled_at _) fun _ h => h
          have hentries : LedgerReply.entries (.arr σ.entries) =
              (LedgerCall.listAll.spec σ.entries).1 := rfl
          rw [hentries]
          refine spec_release False hcall hent fun w h => ?_
          rw [h.1.1]
          exact hent.2.2.2.2
        · rintro w ⟨-, -, -, -, h⟩
          have h' : readFile file = .ok v := h
          exact absurd (Except.ok.inj (h'.symm.trans hent.2.2.2.2)) hv
      · rintro w ⟨-, -, -, -, h⟩
        have h' : False ∨ readFile file = .error x := h
        rw [hent.2.2.2.2] at h'
        simp at h'

theorem spec_runCalls (calls : List LedgerCall) (hcalls : ∀ call ∈ calls, call.WF)
    (replies : List (Except Exn LedgerReply)) :
    (ledgerSetting i False (Served σ₀)).Spec (At σ₀ i calls replies) (runCalls calls replies)
      (fun replies' => At σ₀ i [] replies') (fun _ => False) := by
  induction calls generalizing replies with
  | nil => exact Setting.spec_ret (settled_at _) fun _ h => h
  | cons call calls ih =>
      refine Setting.spec_bind (B := fun reply => At σ₀ i calls (replies ++ [reply])) ?_
        fun reply => ih (fun c hc => hcalls c (List.mem_cons_of_mem _ hc)) _
      refine Setting.spec_tryExcept (E := fun _ => False) ?_ fun e =>
        Setting.spec_ret ⟨fun _ _ h => h.elim, fun _ h => h.elim⟩ fun _ h => h.elim
      exact Setting.spec_bind (spec_call (hcalls call List.mem_cons_self)) fun a =>
        Setting.spec_ret (settled_at _) fun _ h => h

end Effect

namespace ConnectionLedger

variable {ι : Type} [DecidableEq ι]

/-- No file operation fails. -/
def noFault : Pool.Condition ι LedgerOp Choice (LedgerWorld ι) := fun _ _ c _ => c.fault = none

instance (i : ι) (o : LedgerOp) (c : Choice) (w : LedgerWorld ι) : Decidable (noFault i o c w) :=
  inferInstanceAs (Decidable (c.fault = none))

/-- **The ledger is linearizable.**  When all threads have made their calls, and no file
operation failed, the replies and the file are those of the calls made one at a time in
some order.  In every run, also with failing file operations, a thread that is between two
calls or has ended does not hold the semaphore, and a semaphore nobody holds is free. -/
theorem ledger_linearizable (calls : ι → List LedgerCall) (hwf : ∀ i, ∀ call ∈ calls i, call.WF)
    (file : Option (List Char)) (xs : List Json)
    (hread : nextRead file = some (.ok (.arr xs))) :
    (∀ (s : Pool.Conf ι LedgerOp LedgerOp.Res Exn (LedgerWorld ι) (List (Except Exn LedgerReply)))
        (replies : ι → List (Except Exn LedgerReply)),
      LedgerWorld.ledger.Reaches noFault
        (fun i => runCalls (calls i) [], LedgerWorld.start file) s →
      (∀ i, s.1 i = .ret (replies i)) →
      ∃ order ys, SequentialLedger.run order ⟨xs, calls, fun _ => []⟩ =
          some ⟨ys, fun _ => [], replies⟩ ∧
        nextRead s.2.file = some (.ok (.arr ys))) ∧
    ∀ s : Pool.Conf ι LedgerOp LedgerOp.Res Exn (LedgerWorld ι) (List (Except Exn LedgerReply)),
      LedgerWorld.ledger.Reaches Pool.always
        (fun i => runCalls (calls i) [], LedgerWorld.start file) s →
      (∀ i, Outside (s.1 i) → s.2.holder ≠ some i) ∧
        s.2.sem = if s.2.holder = none then 1 else 0 := by
  rw [nextRead_eq_iff] at hread
  constructor
  · intro s replies hrun hend
    set σ₀ : SequentialLedger ι := ⟨xs, calls, fun _ => []⟩ with hσ₀
    have hstart : Served σ₀ (LedgerWorld.start file : LedgerWorld ι) :=
      ⟨σ₀, rfl, readFile_wf hread, fun _ => ⟨rfl, hread⟩, fun h => absurd rfl h⟩
    have hwp := Pool.wp_reaches _ _ (fun i => ledgerSetting i False (Served σ₀))
      (fun i o c w r w' hc he => ⟨c, he, fun h => h hc⟩) (fun i j w w' hij h => ⟨i, hij.symm, h⟩)
      (fun _ e => e.elim) hrun
      (Q := fun i => Setting.post (fun replies => At σ₀ i [] replies) fun _ => False)
      (fun i => spec_runCalls (calls i) (hwf i) [] _ ⟨hstart, by simp [LedgerWorld.start], by
        rintro σ hσ
        obtain rfl := Option.some.inj hσ
        exact ⟨rfl, rfl⟩⟩)
    have hat : ∀ i, At σ₀ i [] (replies i) s.2 := by
      intro i
      have h := hwp i
      rw [hend i] at h
      exact (h _ .refl).2
    have hserved : Served σ₀ s.2 := by
      rcases isEmpty_or_nonempty ι with hempty | ⟨⟨i⟩⟩
      · rw [Pool.eq_of_isEmpty _ _ hrun]
        exact hstart
      · exact (hat i).1
    have hfree : s.2.holder = none := by
      cases hh : s.2.holder with
      | none => rfl
      | some i => exact absurd hh (hat i).2.1
    obtain ⟨σ, hσ, -, hfile, -⟩ := hserved
    refine ⟨s.2.served, σ.entries, ?_, ?_⟩
    · rw [hσ]
      have hcalls : σ.calls = fun _ => [] := funext fun i => ((hat i).2.2 σ hσ).1
      have hreplies : σ.replies = replies := funext fun i => ((hat i).2.2 σ hσ).2
      rw [← hcalls, ← hreplies]
    · rw [nextRead_eq_iff]
      exact (hfile hfree).2
  · intro s hrun
    have hlocked : Locked s := by
      refine locked_of_reaches ⟨fun i => ?_, rfl⟩ hrun
      exact balanced_runCalls _ _
    exact ⟨fun i ho hheld => absurd ((hlocked.1 i).not_held ho) (by simp [hheld]), hlocked.2⟩

/-- One thread registers an entry while another lists them. -/
def sampleCalls : Bool → List LedgerCall
  | false => [.register sampleEntry]
  | true => [.listAll]

theorem ledger_linearizable_two :
    ∃ (s : Pool.Conf Bool LedgerOp LedgerOp.Res Exn (LedgerWorld Bool)
        (List (Except Exn LedgerReply))) (replies : Bool → List (Except Exn LedgerReply)),
      LedgerWorld.ledger.Reaches noFault
        (fun i => runCalls (sampleCalls i) [],
          LedgerWorld.start (some (ledgerText (.arr sampleLedger)))) s ∧
      ∃ order ys, SequentialLedger.run order ⟨sampleLedger, sampleCalls, fun _ => []⟩ =
          some ⟨ys, fun _ => [], replies⟩ ∧
        nextRead s.2.file = some (.ok (.arr ys)) := by
  have hread : nextRead (some (ledgerText (.arr sampleLedger))) =
      some (.ok (.arr sampleLedger)) := by
    rw [nextRead_eq, readFile_ledgerText]
    simp [sampleLedger, Json.WF, WFDict]
  have hwf : ∀ i, ∀ call ∈ sampleCalls i, call.WF := by
    intro i call hcall
    cases i with
    | false =>
        obtain rfl := List.mem_singleton.mp hcall
        simp [LedgerCall.WF, sampleEntry, Json.WF, WFDict]
    | true =>
        obtain rfl := List.mem_singleton.mp hcall
        trivial
  obtain ⟨s, hrun, hs⟩ := Pool.exists_of_run LedgerWorld.ledger noFault
    (fun i => runCalls (sampleCalls i) [],
      LedgerWorld.start (some (ledgerText (.arr sampleLedger))))
    (List.replicate 5 (.thread true {}) ++ List.replicate 62 (.thread false {}))
    (fun s => (s.1 false).returns (fun _ => true) && (s.1 true).returns fun _ => true)
    (by decide +kernel)
  rw [Bool.and_eq_true] at hs
  obtain ⟨r, hr, -⟩ := Prog.eq_ret_of_returns hs.1
  obtain ⟨r', hr', -⟩ := Prog.eq_ret_of_returns hs.2
  refine ⟨s, fun i => if i then r' else r, hrun, ?_⟩
  refine (ledger_linearizable sampleCalls hwf _ _ hread).1 s _ hrun fun i => ?_
  cases i with
  | false => exact hr
  | true => exact hr'

end ConnectionLedger
