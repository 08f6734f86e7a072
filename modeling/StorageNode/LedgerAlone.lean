/-
# A ledger call that nobody disturbs

`register` and `unregister` as single steps: the call runs from its `acquire` to its
`release` on the file it finds, with the faults its choices name.

* `runUpdate` : the outcome and the file afterwards;
* `runUpdate_crash`, `readFile_runUpdate` : what a call leaves, whatever fails in it;
* `runUpdate_faultless` : without faults the call does what it is for;
* `exists_runUpdate` : and such a call always comes to its end.
-/
import StorageNode.LedgerAtomicity

open ConnectionLedger

/-- One step of a ledger call, resolved by the next choice. -/
def ledgerStep (o : LedgerOp) (v : LedgerWorld Unit × List Choice) :
    Option (Except Exn o.Res × (LedgerWorld Unit × List Choice)) :=
  match v.2 with
  | c :: cs => (v.1.exec () o c).map fun rw => (rw.1, (rw.2, cs))
  | [] => none

/-- A call of `register` or `unregister`, step by step. -/
def runUpdate (u : LedgerUpdate) (file : Option (List Char)) (cs : List Choice) :
    Option (Except Exn Bool × LedgerWorld Unit) :=
  match u.run.eval ledgerStep (LedgerWorld.start file, cs) with
  | some (r, (w, [])) => some (r, w)
  | _ => none

theorem runUpdate_eval {u : LedgerUpdate} {file : Option (List Char)} {cs : List Choice}
    {r : Except Exn Bool} {w : LedgerWorld Unit} (h : runUpdate u file cs = some (r, w)) :
    u.run.eval ledgerStep (LedgerWorld.start file, cs) = some (r, (w, [])) := by
  unfold runUpdate at h
  split at h
  · next r' w' he =>
      obtain ⟨rfl, rfl⟩ : r' = r ∧ w' = w := by simpa using h
      exact he
  · exact absurd h (by simp)

/-- No operation of the call fails. -/
def Faultless (cs : List Choice) : Prop := ∀ c ∈ cs, c.fault = none

/-! ## What a call leaves -/

/-- How the call leaves the file, whatever fails. -/
theorem runUpdate_crash {u : LedgerUpdate} {file : Option (List Char)} {before : List Json}
    (hread : readFile file = .ok (.arr before)) {cs : List Choice} {r : Except Exn Bool}
    {w : LedgerWorld Unit} (h : runUpdate u file cs = some (r, w)) : u.Crash before file w := by
  have hstep : ∀ o (v : LedgerWorld Unit × List Choice) x v', ledgerStep o v = some (x, v') →
      (ledgerSetting () True (u.Crash before file)).exec o v.1 x v'.1 := by
    rintro o ⟨v, cs⟩ x v' hs
    cases cs with
    | nil => exact absurd hs (by simp [ledgerStep])
    | cons c cs =>
        obtain ⟨⟨x', v₁⟩, hx, heq⟩ := Option.map_eq_some_iff.mp hs
        simp only [Prod.mk.injEq] at heq
        obtain ⟨rfl, rfl⟩ := heq
        exact ⟨c, hx, fun _ => trivial⟩
  have hspec := LedgerUpdate.spec_run (u := u) hread (LedgerWorld.start file) ⟨rfl, rfl, rfl, rfl⟩
  have hpost := Setting.wp_eval Prod.fst hstep hspec (runUpdate_eval h)
  cases r with
  | ok b => exact hpost
  | error e => exact hpost

/-- **What is read afterwards**: the list before the call, the list after it, or the empty
list. -/
theorem readFile_runUpdate {u : LedgerUpdate}
    (hwf : ∀ entry, u = .register entry → (Json.obj entry).WF)
    {file : Option (List Char)} {before : List Json} (hread : readFile file = .ok (.arr before))
    {cs : List Choice} {r : Except Exn Bool} {w : LedgerWorld Unit}
    (h : runUpdate u file cs = some (r, w)) :
    ∃ entries, readFile w.file = .ok (.arr entries) ∧
      (entries = before ∨ u.after before = some entries ∨ entries = []) := by
  rcases runUpdate_crash hread h with ⟨hfile, -⟩ | ⟨entries, hafter, -, p, q, htext, hfile⟩
  · exact ⟨before, by rw [hfile, hread], Or.inl rfl⟩
  · have hwf' := LedgerUpdate.after_wf hwf (readFile_wf hread) hafter
    cases q with
    | nil =>
        rw [List.append_nil] at htext
        refine ⟨entries, ?_, Or.inr (Or.inl hafter)⟩
        rw [hfile, ← htext, readFile_ledgerText hwf']
    | cons c q =>
        refine ⟨[], ?_, Or.inr (Or.inr rfl)⟩
        rw [hfile, readFile_of_append hwf' (List.cons_ne_nil c q) htext]

/-! ## What a call without faults does -/

/-- What the call leaves when the file held the list `before`. -/
def LedgerUpdate.Done (u : LedgerUpdate) (file : Option (List Char)) (before : List Json)
    (r : Except Exn Bool) (w : LedgerWorld Unit) : Prop :=
  match u.after before with
  | some entries => r = .ok true ∧ w.file = some (ledgerText (.arr entries))
  | none => r = .ok false ∧ w.file = file

/-- The semaphore and the list, as one call sees them. -/
theorem LedgerUpdate.spec_faultless {u : LedgerUpdate} {file : Option (List Char)}
    {before : List Json} (hread : readFile file = .ok (.arr before)) :
    (ledgerSetting () False fun _ => True).Triple
      (fun w => w.sem = 1 ∧ w.served = [] ∧ Unchanged file false w) u.run
      (fun r w => u.Done file before r w) := by
  have hsafe : ∀ A : LedgerWorld Unit → Prop, Safe (fun _ => True) () [] A := fun _ _ _ => trivial
  have hsettled : ∀ P : LedgerWorld Unit → Prop,
      (ledgerSetting () False fun _ => True).Settled P :=
    fun P => ⟨fun w w' _ ⟨j, hj, _⟩ => absurd rfl hj, fun _ _ => trivial⟩
  -- what the call returns fits the list
  have hdone : ∀ w b, Changed False u.change file false w b → u.Done file before (.ok b) w := by
    intro w b h
    have hreplaces : ∀ v, Replaces u.change file v ↔
        ∃ entries, u.after before = some entries ∧ v = .arr entries := by
      intro v
      unfold Replaces
      constructor
      · rintro ⟨x, hx, hv⟩
        obtain rfl := Except.ok.inj (hread.symm.trans hx)
        rw [LedgerUpdate.change_arr] at hv
        cases ha : u.after before with
        | none =>
            rw [ha] at hv
            exact absurd hv (by simp)
        | some entries =>
            rw [ha] at hv
            exact ⟨entries, rfl, (Except.ok.inj hv).symm⟩
      · rintro ⟨entries, ha, rfl⟩
        refine ⟨_, hread, ?_⟩
        rw [LedgerUpdate.change_arr, ha]
    unfold LedgerUpdate.Done
    cases b with
    | true =>
        obtain ⟨v, hv, hw⟩ := h
        obtain ⟨entries, ha, rfl⟩ := (hreplaces v).mp hv
        rw [ha]
        exact ⟨rfl, hw.2⟩
    | false =>
        rcases h with ⟨hw, hnone⟩ | ⟨hfalse, -⟩
        · cases ha : u.after before with
          | none => exact ⟨rfl, hw.1⟩
          | some entries =>
              exact absurd ((hreplaces _).mpr ⟨entries, ha, rfl⟩) (hnone.resolve_left id _)
        · exact hfalse.elim
  have hspec : (ledgerSetting () False fun _ => True).Spec
      (fun w => w.sem = 1 ∧ w.served = [] ∧ Unchanged file false w) u.run
      (fun b w => u.Done file before (.ok b) w) (fun _ => False) := by
    rw [LedgerUpdate.run_eq]
    refine Setting.spec_bind (B := fun _ => Own () [] (Unchanged file false)) ?_ fun _ => ?_
    · refine Setting.spec_perform (hsettled _) (fun _ => hsettled _) (hsettled _) ?_
      rintro w r w' ⟨hsem, hserved, hw⟩ ⟨c, he, -⟩
      obtain ⟨-, rfl, rfl⟩ := exec_acquire he
      refine ⟨⟨trivial, fun j hj => absurd rfl hj, fun j hj => absurd rfl hj, Or.inl rfl⟩,
        rfl, ?_, hserved, hw⟩
      show w.sem - 1 = 0
      omega
    · refine Setting.spec_tryFinally (E := fun _ => False) (fun _ => hsettled _) (hsettled _)
        (spec_changeEntries u.change (hsafe _) fun _ _ => hsafe _) (fun b => ?_) ?_
      · refine Setting.spec_perform (hsettled _) (fun _ => hsettled _) (hsettled _) ?_
        rintro w r w' ⟨-, -, hserved, hw⟩ ⟨c, he, -⟩
        obtain ⟨rfl, rfl⟩ := exec_release he
        refine ⟨⟨trivial, fun j hj => absurd rfl hj, fun j hj => absurd rfl hj, Or.inr rfl⟩, ?_⟩
        exact hdone w b hw
      · exact fun _ h => h.elim
  refine Setting.triple_mono (fun _ h => h) ?_ hspec
  rintro (e | b) w h
  · exact h.elim
  · exact h

/-- **Without faults** `register` appends and `unregister` removes, and both say so. -/
theorem runUpdate_faultless {u : LedgerUpdate} {file : Option (List Char)} {before : List Json}
    (hread : readFile file = .ok (.arr before)) {cs : List Choice} (hcs : Faultless cs)
    {r : Except Exn Bool} {w : LedgerWorld Unit} (h : runUpdate u file cs = some (r, w)) :
    u.Done file before r w := by
  have heval := runUpdate_eval h
  -- the choices that are left are without faults as well
  have hwp := LedgerUpdate.spec_faultless (u := u) hread (LedgerWorld.start file)
    ⟨rfl, rfl, rfl, rfl⟩
  have hsub : ∀ {α : Type} (p : Ledger α) {Q : Except Exn α → LedgerWorld Unit → Prop}
      {v v' : LedgerWorld Unit × List Choice} {x : Except Exn α}, Faultless v.2 →
      (ledgerSetting () False fun _ => True).wp p Q v.1 → p.eval ledgerStep v = some (x, v') →
      Q x v'.1 := by
    intro α p Q
    induction p with
    | ret a =>
        rintro v v' x - hp he
        obtain ⟨rfl, rfl⟩ := he
        exact (hp _ .refl).2
    | raise e =>
        rintro v v' x - hp he
        obtain ⟨rfl, rfl⟩ := he
        exact (hp _ .refl).2
    | hang =>
        rintro v v' x - hp he
        exact absurd he (by simp [Prog.eval])
    | call o k ih =>
        rintro ⟨v, cs⟩ v' x hf hp he
        rw [Prog.eval] at he
        cases cs with
        | nil => exact absurd he (by simp [ledgerStep])
        | cons c cs =>
            simp only [ledgerStep] at he
            cases hx : v.exec () o c with
            | none =>
                rw [hx] at he
                exact absurd he (by simp)
            | some rw' =>
                rw [hx] at he
                have hstep : (ledgerSetting () False fun _ => True).exec o v rw'.1 rw'.2 :=
                  ⟨c, hx, fun hc => absurd (hf c List.mem_cons_self) hc⟩
                exact ih rw'.1 (fun c' hc' => hf c' (List.mem_cons_of_mem _ hc'))
                  (Setting.wp_call hp hstep).2 he
  exact hsub u.run hcs hwp heval

/-! ## A call without faults comes to its end -/

/-- Every operation succeeds. -/
def plainStep (o : LedgerOp) (w : LedgerWorld Unit) :
    Option (Except Exn o.Res × LedgerWorld Unit) :=
  w.exec () o {}

/-- A run in which every operation succeeds is one with plain choices. -/
theorem eval_plain {α : Type} {p : Ledger α} {w w' : LedgerWorld Unit} {r : Except Exn α}
    (h : p.eval plainStep w = some (r, w')) :
    ∃ n, p.eval ledgerStep (w, List.replicate n {}) = some (r, (w', [])) := by
  induction p generalizing w with
  | ret a =>
      obtain ⟨rfl, rfl⟩ := h
      exact ⟨0, rfl⟩
  | raise e =>
      obtain ⟨rfl, rfl⟩ := h
      exact ⟨0, rfl⟩
  | hang => exact absurd h (by simp [Prog.eval])
  | call o k ih =>
      rw [Prog.eval] at h
      cases hx : plainStep o w with
      | none =>
          rw [hx] at h
          exact absurd h (by simp)
      | some rw' =>
          rw [hx] at h
          obtain ⟨n, hn⟩ := ih rw'.1 h
          refine ⟨n + 1, ?_⟩
          have hstep : ledgerStep o (w, List.replicate (n + 1) {}) =
              some (rw'.1, (rw'.2, List.replicate n {})) := by
            simp only [ledgerStep, List.replicate_succ]
            rw [show w.exec () o {} = plainStep o w from rfl, hx]
            rfl
          rw [Prog.eval, hstep]
          exact hn

/-- With every operation succeeding the program comes to its end. -/
def Ends {α : Type} (p : Ledger α) (w : LedgerWorld Unit) : Prop :=
  ∃ r w', p.eval plainStep w = some (r, w')

section Ends

variable {α β : Type} {p : Ledger α} {w : LedgerWorld Unit}

theorem ends_bind {f : α → Ledger β} (hp : Ends p w) (hf : ∀ a w', Ends (f a) w') :
    Ends (p.bind f) w := by
  obtain ⟨r, w', hr⟩ := hp
  unfold Ends
  rw [Prog.eval_bind, hr]
  cases r with
  | ok a => exact hf a w'
  | error e => exact ⟨.error e, w', rfl⟩

theorem ends_tryExcept {g : Exn → Ledger α} (hp : Ends p w) (hg : ∀ e w', Ends (g e) w') :
    Ends (p.tryExcept g) w := by
  obtain ⟨r, w', hr⟩ := hp
  unfold Ends
  rw [Prog.eval_tryExcept, hr]
  cases r with
  | ok a => exact ⟨.ok a, w', rfl⟩
  | error e => exact hg e w'

theorem ends_tryFinally {c : Ledger Unit} (hp : Ends p w) (hc : ∀ w', Ends c w') :
    Ends (p.tryFinally c) w := by
  obtain ⟨r, w', hr⟩ := hp
  unfold Ends
  rw [Prog.eval_tryFinally, hr]
  cases r with
  | ok a => exact ends_bind (hc w') fun _ w'' => ⟨.ok a, w'', rfl⟩
  | error e => exact ends_bind (hc w') fun _ w'' => ⟨.error e, w'', rfl⟩

theorem ends_op {o : LedgerOp} (h : ∃ r w', plainStep o w = some (r, w')) :
    Ends (ledgerOp o) w := by
  obtain ⟨r, w', hr⟩ := h
  exact ⟨r, w', by rw [Prog.eval_perform, hr]⟩

theorem ends_ret (a : α) : Ends (.ret a) w := ⟨.ok a, w, rfl⟩

end Ends

theorem ends_writePieces (text : List Char) (w : LedgerWorld Unit) : Ends (writePieces text) w := by
  induction text generalizing w with
  | nil => exact ends_ret ()
  | cons c r ih => exact ends_bind (ends_op ⟨_, _, rfl⟩) fun _ w' => ih w'

/-- `_read_entries` gives what is in the file. -/
theorem eval_readEntries_plain (w : LedgerWorld Unit) :
    readEntries.eval plainStep w = some (readFile w.file, w) := by
  simp only [readEntries, Prog.eval_tryExcept, Prog.bind_eq, Prog.eval_bind,
    Prog.eval_tryFinally, jsonLoad, Prog.eval_perform, plainStep, LedgerWorld.exec,
    LedgerWorld.perform]
  cases hfile : w.file with
  | none => simp [Prog.eval, readFile]
  | some text =>
      cases hload : jsonLoads text with
      | none => simp [Prog.eval, readFile, hfile, hload]
      | some data =>
          cases data with
          | obj d => simp [Prog.eval, connections, Prog.ofExcept, readFile, hfile, hload]
          | _ => simp [Prog.eval, connections, Prog.ofExcept, readFile, hfile, hload]

theorem ends_writeEntries (entries : Json) (w : LedgerWorld Unit) :
    Ends (writeEntries entries) w := by
  refine ends_bind (ends_op ⟨_, _, rfl⟩) fun _ w' => ?_
  exact ends_tryFinally (ends_writePieces _ w') fun w'' => ends_op ⟨_, _, rfl⟩

/-- **A call without faults comes to its end.** -/
theorem exists_runUpdate (u : LedgerUpdate) (file : Option (List Char)) :
    ∃ n r w, runUpdate u file (List.replicate n {}) = some (r, w) := by
  have hends : Ends u.run (LedgerWorld.start file) := by
    rw [LedgerUpdate.run_eq]
    refine ends_bind (ends_op ⟨_, _, rfl⟩) fun _ w => ?_
    refine ends_tryFinally (ends_tryExcept ?_ fun _ w' => ends_ret false) fun w' =>
      ends_op ⟨_, _, rfl⟩
    refine ends_bind ⟨_, _, eval_readEntries_plain w⟩ fun entries w' => ?_
    refine ends_bind ?_ fun entries' w'' =>
      ends_bind (ends_writeEntries entries' w'') fun _ _ => ends_ret true
    cases u.change entries with
    | error e => exact ⟨.error e, w', rfl⟩
    | ok entries' => exact ends_ret entries'
  obtain ⟨r, w, hr⟩ := hends
  obtain ⟨n, hn⟩ := eval_plain hr
  refine ⟨n, r, w, ?_⟩
  unfold runUpdate
  rw [hn]
