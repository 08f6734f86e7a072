/-
# Ledger calls under the semaphore

One thread's call while it holds the semaphore: nobody else moves, so the file is the
thread's own.

* `ledgerSetting` : the setting of one thread, with or without failing file operations,
  for any invariant `J` of the ledger;
* `Own` : the thread holds the semaphore;
* `triple_readEntries` : a value that `_read_entries` returns is the one in the file;
* `spec_writeEntries` : the file goes through the beginnings of the new text;
* `spec_change` : what `register` and `unregister` do between `acquire` and `release`.
-/
import StorageNode.ConnectionLedger

namespace ConnectionLedger

variable {ι : Type} [DecidableEq ι]

/-! ## What each operation can do -/

/-- The operations on the ledger file. -/
def onFile : LedgerOp → Bool
  | .acquire => false
  | .release => false
  | _ => true

/-- The operations on the file leave the semaphore and its history alone. -/
theorem exec_onFile {i : ι} {o : LedgerOp} {c : Choice} {w w' : LedgerWorld ι}
    {r : Except Exn o.Res} (ho : onFile o = true) (h : w.exec i o c = some (r, w')) :
    w'.holder = w.holder ∧ w'.sem = w.sem ∧ w'.served = w.served := by
  have hafter : ∀ o' : LedgerOp, (w.afterFile i c o').holder = w.holder ∧
      (w.afterFile i c o').sem = w.sem ∧ (w.afterFile i c o').served = w.served := by
    intro o'
    cases o' with
    | write piece =>
        simp only [LedgerWorld.afterFile]
        split <;> exact ⟨rfl, rfl, rfl⟩
    | closeWrite =>
        simp only [LedgerWorld.afterFile]
        split <;> exact ⟨rfl, rfl, rfl⟩
    | _ => exact ⟨rfl, rfl, rfl⟩
  rcases LedgerWorld.exec_cases h with ⟨e, -, -, -, rfl⟩ | ⟨-, hp⟩
  · exact hafter o
  · cases o with
    | acquire => exact absurd ho (by decide)
    | release => exact absurd ho (by decide)
    | openRead =>
        simp only [LedgerWorld.perform] at hp
        split at hp <;> obtain ⟨-, rfl⟩ := hp <;> exact ⟨rfl, rfl, rfl⟩
    | read =>
        simp only [LedgerWorld.perform, Option.map_eq_some_iff, Prod.mk.injEq] at hp
        obtain ⟨t, -, -, rfl⟩ := hp
        exact ⟨rfl, rfl, rfl⟩
    | closeRead => obtain ⟨-, rfl⟩ := hp; exact ⟨rfl, rfl, rfl⟩
    | openWrite => obtain ⟨-, rfl⟩ := hp; exact ⟨rfl, rfl, rfl⟩
    | write piece => obtain ⟨-, rfl⟩ := hp; exact hafter (.write piece)
    | closeWrite => obtain ⟨-, rfl⟩ := hp; exact hafter .closeWrite

/-- `acquire` waits for the semaphore. -/
theorem exec_acquire {i : ι} {c : Choice} {w w' : LedgerWorld ι} {r : Except Exn Unit}
    (h : w.exec i .acquire c = some (r, w')) :
    0 < w.sem ∧ r = .ok () ∧ w' = { w with sem := w.sem - 1, holder := some i } := by
  rcases LedgerWorld.exec_cases h with ⟨e, -, hm, -, -⟩ | ⟨-, hp⟩
  · simp [LedgerOp.mayRaise] at hm
  · simp only [LedgerWorld.perform, Option.ite_none_right_eq_some, Option.some.injEq,
      Prod.mk.injEq] at hp
    exact ⟨hp.1, hp.2.1.symm, hp.2.2.symm⟩

theorem exec_release {i : ι} {c : Choice} {w w' : LedgerWorld ι} {r : Except Exn Unit}
    (h : w.exec i .release c = some (r, w')) :
    r = .ok () ∧
      w' = { w with sem := w.sem + 1, holder := none, served := w.served ++ [i] } := by
  rcases LedgerWorld.exec_cases h with ⟨e, -, hm, -, -⟩ | ⟨-, hp⟩
  · simp [LedgerOp.mayRaise] at hm
  · simp only [LedgerWorld.perform, Option.some.injEq, Prod.mk.injEq] at hp
    exact ⟨hp.1.symm, hp.2.symm⟩

theorem exec_openRead {i : ι} {c : Choice} {w w' : LedgerWorld ι} {r : Except Exn Unit}
    (h : w.exec i .openRead c = some (r, w')) :
    w' = w ∧ ((c.fault ≠ none ∧ r = .error .osError) ∨ (w.file.isSome ∧ r = .ok ()) ∨
      (w.file = none ∧ r = .error .fileNotFound)) := by
  rcases LedgerWorld.exec_cases h with ⟨e, hf, hm, rfl, rfl⟩ | ⟨-, hp⟩
  · have he : e = .osError := by simpa [LedgerOp.mayRaise] using hm
    exact ⟨rfl, Or.inl ⟨by simp [hf], by rw [he]⟩⟩
  · simp only [LedgerWorld.perform] at hp
    split at hp
    · next text hfile =>
        obtain ⟨rfl, rfl⟩ := hp
        exact ⟨rfl, Or.inr (Or.inl ⟨by simp [hfile], rfl⟩)⟩
    · next hfile =>
        obtain ⟨rfl, rfl⟩ := hp
        exact ⟨rfl, Or.inr (Or.inr ⟨hfile, rfl⟩)⟩

theorem exec_read {i : ι} {c : Choice} {w w' : LedgerWorld ι} {r : Except Exn (List Char)}
    (h : w.exec i .read c = some (r, w')) :
    w' = w ∧ ((c.fault ≠ none ∧ ∃ e, (e = .osError ∨ e = .valueError) ∧ r = .error e) ∨
      ∃ text, w.file = some text ∧ r = .ok text) := by
  rcases LedgerWorld.exec_cases h with ⟨e, hf, hm, rfl, rfl⟩ | ⟨-, hp⟩
  · have he : e = .osError ∨ e = .valueError := by simpa [LedgerOp.mayRaise] using hm
    exact ⟨rfl, Or.inl ⟨by simp [hf], e, he, rfl⟩⟩
  · simp only [LedgerWorld.perform, Option.map_eq_some_iff, Prod.mk.injEq] at hp
    obtain ⟨text, hfile, rfl, rfl⟩ := hp
    exact ⟨rfl, Or.inr ⟨text, hfile, rfl⟩⟩

theorem exec_closeRead {i : ι} {c : Choice} {w w' : LedgerWorld ι} {r : Except Exn Unit}
    (h : w.exec i .closeRead c = some (r, w')) :
    w' = w ∧ ((c.fault ≠ none ∧ r = .error .osError) ∨ r = .ok ()) := by
  rcases LedgerWorld.exec_cases h with ⟨e, hf, hm, rfl, rfl⟩ | ⟨-, hp⟩
  · have he : e = .osError := by simpa [LedgerOp.mayRaise] using hm
    exact ⟨rfl, Or.inl ⟨by simp [hf], by rw [he]⟩⟩
  · obtain ⟨rfl, rfl⟩ := hp
    exact ⟨rfl, Or.inr rfl⟩

/-- A failing `open(..., "w")` leaves the file alone. -/
theorem exec_openWrite {i : ι} {c : Choice} {w w' : LedgerWorld ι} {r : Except Exn Unit}
    (h : w.exec i .openWrite c = some (r, w')) :
    (c.fault ≠ none ∧ (∃ e, r = .error e) ∧ w' = w) ∨
      (r = .ok () ∧
        w' = { w with file := some [], out := Function.update w.out i (some {}),
                      emptied := true }) := by
  rcases LedgerWorld.exec_cases h with ⟨e, hf, -, rfl, rfl⟩ | ⟨-, hp⟩
  · exact Or.inl ⟨by simp [hf], ⟨e, rfl⟩, rfl⟩
  · obtain ⟨rfl, rfl⟩ := hp
    exact Or.inr ⟨rfl, rfl⟩

theorem exec_write {i : ι} {piece : List Char} {c : Choice} {w w' : LedgerWorld ι}
    {r : Except Exn Unit} (h : w.exec i (.write piece) c = some (r, w')) :
    w' = w.afterFile i c (.write piece) ∧
      ((c.fault ≠ none ∧ ∃ e, r = .error e) ∨ (c.taken piece = piece ∧ r = .ok ())) := by
  rcases LedgerWorld.exec_cases h with ⟨e, hf, -, rfl, rfl⟩ | ⟨hf, hp⟩
  · exact ⟨rfl, Or.inl ⟨by simp [hf], e, rfl⟩⟩
  · obtain ⟨rfl, rfl⟩ := hp
    exact ⟨rfl, Or.inr ⟨by rw [Choice.taken, hf], rfl⟩⟩

theorem exec_closeWrite {i : ι} {c : Choice} {w w' : LedgerWorld ι} {r : Except Exn Unit}
    (h : w.exec i .closeWrite c = some (r, w')) :
    w' = w.afterFile i c .closeWrite ∧
      ((c.fault ≠ none ∧ ∃ e, r = .error e) ∨ (c.fault = none ∧ r = .ok ())) := by
  rcases LedgerWorld.exec_cases h with ⟨e, hf, -, rfl, rfl⟩ | ⟨hf, hp⟩
  · exact ⟨rfl, Or.inl ⟨by simp [hf], e, rfl⟩⟩
  · obtain ⟨rfl, rfl⟩ := hp
    exact ⟨rfl, Or.inr ⟨hf, rfl⟩⟩

/-! ## The setting -/

section Setting

variable (i : ι) (faulty : Prop) (J : LedgerWorld ι → Prop)

/-- **The setting of thread `i`.**  Nobody moves while another thread holds the semaphore,
and a thread is served when it releases it.  File operations fail only when the setting is
`faulty`. -/
def ledgerSetting : Setting LedgerOp LedgerOp.Res Exn (LedgerWorld ι) where
  exec o w r w' := ∃ c, w.exec i o c = some (r, w') ∧ (c.fault ≠ none → faulty)
  guar := Moves i
  env w w' := ∃ j, j ≠ i ∧ Moves j w w'
  inv := J
where
  /-- What thread `i` may do to the world. -/
  Moves (i : ι) (w w' : LedgerWorld ι) : Prop :=
    J w' ∧ (∀ j, j ≠ i → w.holder = some j → w' = w) ∧
      (∀ j, j ≠ i → w'.holder = some j → w.holder = some j) ∧
      (w'.served = w.served ∨ w'.served = w.served ++ [i])

variable {J} in
/-- Others move only while thread `i` does not hold the semaphore. -/
theorem env_of_holder {w w' : LedgerWorld ι} (h : w.holder = some i)
    (henv : (ledgerSetting i faulty J).env w w') : w' = w := by
  obtain ⟨j, hj, -, hstay, -⟩ := henv
  exact hstay i hj.symm h

end Setting

section Calls

variable {i : ι} {faulty : Prop} {J : LedgerWorld ι → Prop} {l : List ι}

/-- Thread `i` holds the semaphore; `l` have been served. -/
def Own (i : ι) (l : List ι) (A : LedgerWorld ι → Prop) (w : LedgerWorld ι) : Prop :=
  w.holder = some i ∧ w.sem = 0 ∧ w.served = l ∧ A w

/-- `A` implies the invariant while thread `i` holds the semaphore. -/
def Safe (J : LedgerWorld ι → Prop) (i : ι) (l : List ι) (A : LedgerWorld ι → Prop) : Prop :=
  ∀ w, Own i l A w → J w

theorem settled_own {A : LedgerWorld ι → Prop} (hA : Safe J i l A) :
    (ledgerSetting i faulty J).Settled (Own i l A) where
  stable := by
    intro w w' h henv
    rw [env_of_holder i faulty h.1 henv]
    exact h
  safe := hA

/-- An operation on the file. -/
theorem triple_onFile {o : LedgerOp} (ho : onFile o = true) {A : LedgerWorld ι → Prop}
    {R : Except Exn o.Res → LedgerWorld ι → Prop} (hA : Safe J i l A) (hR : ∀ r, Safe J i l (R r))
    (h : ∀ w c r w', A w → (c.fault ≠ none → faulty) → w.exec i o c = some (r, w') → R r w') :
    (ledgerSetting i faulty J).Triple (Own i l A) (ledgerOp o) (fun r => Own i l (R r)) := by
  refine Setting.triple_perform (settled_own hA) (fun r => settled_own (hR r)) ?_
  rintro w r w' ⟨hholder, hsem, hserved, hw⟩ ⟨c, he, hc⟩
  obtain ⟨hholder', hsem', hserved'⟩ := exec_onFile ho he
  have hr : R r w' := h w c r w' hw hc he
  rw [← hholder'] at hholder
  rw [← hsem'] at hsem
  have hown : Own i l (R r) w' := ⟨hholder, hsem, hserved'.trans hserved, hr⟩
  refine ⟨⟨hR r w' hown, ?_, ?_, Or.inl hserved'⟩, hown⟩
  · intro j hj hj'
    rw [← hholder', hholder, Option.some.injEq] at hj'
    exact absurd hj'.symm hj
  · intro j hj hj'
    rw [hholder, Option.some.injEq] at hj'
    exact absurd hj'.symm hj

/-! ## Reading -/

/-- How an operation that only looks at the file can turn out. -/
def Answers (faulty : Prop) (file : Option (List Char)) :
    (o : LedgerOp) → Except Exn o.Res → Prop
  | .openRead, r => (faulty ∧ r = .error .osError) ∨ (file.isSome ∧ r = .ok ()) ∨
      (file = none ∧ r = .error .fileNotFound)
  | .read, r => (faulty ∧ ∃ e, (e = .osError ∨ e = .valueError) ∧ r = .error e) ∨
      ∃ text, file = some text ∧ r = .ok text
  | .closeRead, r => (faulty ∧ r = .error .osError) ∨ r = .ok ()
  | _, _ => True

/-- A program that only looks at the file, and ends in `Q`. -/
def Looks (faulty : Prop) (file : Option (List Char)) {α : Type} :
    Ledger α → (Except Exn α → Prop) → Prop
  | .ret a, Q => Q (.ok a)
  | .raise e, Q => Q (.error e)
  | .hang, _ => True
  | .call o k, Q => (o = .openRead ∨ o = .read ∨ o = .closeRead) ∧
      ∀ r, Answers faulty file o r → Looks faulty file (k r) Q

/-- An operation that looks at the file changes nothing. -/
theorem exec_look {o : LedgerOp} {c : Choice} {w w' : LedgerWorld ι} {r : Except Exn o.Res}
    (ho : o = .openRead ∨ o = .read ∨ o = .closeRead) (hc : c.fault ≠ none → faulty)
    (h : w.exec i o c = some (r, w')) : w' = w ∧ Answers faulty w.file o r := by
  rcases ho with rfl | rfl | rfl
  · obtain ⟨hw, ⟨hf, hr⟩ | hr⟩ := exec_openRead h
    · exact ⟨hw, Or.inl ⟨hc hf, hr⟩⟩
    · exact ⟨hw, Or.inr hr⟩
  · obtain ⟨hw, ⟨hf, hr⟩ | hr⟩ := exec_read h
    · exact ⟨hw, Or.inl ⟨hc hf, hr⟩⟩
    · exact ⟨hw, Or.inr hr⟩
  · obtain ⟨hw, ⟨hf, hr⟩ | hr⟩ := exec_closeRead h
    · exact ⟨hw, Or.inl ⟨hc hf, hr⟩⟩
    · exact ⟨hw, Or.inr hr⟩

/-- The holder of the semaphore may look at the file undisturbed. -/
theorem triple_looks {α : Type} {file : Option (List Char)} {A : LedgerWorld ι → Prop}
    (hA : Safe J i l A) (hfile : ∀ w, A w → w.file = file) {p : Ledger α}
    {Q : Except Exn α → Prop} (h : Looks faulty file p Q) :
    (ledgerSetting i faulty J).Triple (Own i l A) p (fun r => Own i l fun w => A w ∧ Q r) := by
  induction p with
  | ret a =>
      refine Setting.triple_ret (settled_own hA) ?_
      rintro w ⟨h₁, h₂, h₃, h₄⟩
      exact ⟨h₁, h₂, h₃, h₄, h⟩
  | raise e =>
      refine Setting.triple_raise (settled_own hA) ?_
      rintro w ⟨h₁, h₂, h₃, h₄⟩
      exact ⟨h₁, h₂, h₃, h₄, h⟩
  | hang => exact Setting.triple_hang (settled_own hA)
  | call o k ih =>
      obtain ⟨ho, hk⟩ := h
      have hon : onFile o = true := by
        rcases ho with rfl | rfl | rfl <;> rfl
      -- the operation leaves `A` as it was, and its answer is one the file gives
      have hop : (ledgerSetting i faulty J).Triple (Own i l A) (ledgerOp o)
          (fun r => Own i l fun w => A w ∧ Answers faulty file o r) := by
        refine triple_onFile hon hA (fun _ w h => hA w ⟨h.1, h.2.1, h.2.2.1, h.2.2.2.1⟩) ?_
        intro w c r w' haw hc he
        obtain ⟨rfl, hr⟩ := exec_look ho hc he
        exact ⟨haw, hfile _ haw ▸ hr⟩
      intro w hw w' hd
      obtain ⟨hinv, hstep⟩ := hop w hw w' hd
      refine ⟨hinv, fun r w'' he => ?_⟩
      obtain ⟨hg, hend⟩ := hstep r w'' he
      have hown : Own i l (fun w => A w ∧ Answers faulty file o r) w'' := by
        cases r with
        | ok a => exact (hend w'' .refl).2
        | error e => exact (hend w'' .refl).2
      obtain ⟨h₁, h₂, h₃, h₄, hr⟩ := hown
      exact ⟨hg, ih r (hk r hr) w'' ⟨h₁, h₂, h₃, h₄⟩⟩

/-- What reading the file gave: the value in it, or an exception. -/
def Outcome (faulty : Prop) (file : Option (List Char)) : Except Exn Json → Prop
  | .ok v => readFile file = .ok v
  | .error e => faulty ∨ readFile file = .error e

/-- **`_read_entries`** returns only what is in the file, and raises only what the file or
a fault makes it raise. -/
theorem looks_readEntries (faulty : Prop) (file : Option (List Char)) :
    Looks faulty file readEntries (Outcome faulty file) := by
  refine ⟨Or.inl rfl, ?_⟩
  rintro r (⟨hf, rfl⟩ | ⟨hsome, rfl⟩ | ⟨rfl, rfl⟩)
  · exact Or.inl hf
  · obtain ⟨text, rfl⟩ := Option.isSome_iff_exists.mp hsome
    refine ⟨Or.inr (Or.inl rfl), ?_⟩
    rintro r (⟨hf, e, rfl | rfl, rfl⟩ | ⟨text', htext, rfl⟩)
    · -- the read failed, and so may the close
      refine ⟨Or.inr (Or.inr rfl), ?_⟩
      rintro r (⟨-, rfl⟩ | rfl) <;> exact Or.inl hf
    · refine ⟨Or.inr (Or.inr rfl), ?_⟩
      rintro r (⟨-, rfl⟩ | rfl) <;> exact Or.inl hf
    · obtain rfl := Option.some.inj htext
      cases hload : jsonLoads text with
      | none =>
          simp only [Prog.ret_bind, hload]
          refine ⟨Or.inr (Or.inr rfl), ?_⟩
          rintro r (⟨hf, rfl⟩ | rfl)
          · exact Or.inl hf
          · show readFile (some text) = .ok (.arr [])
            simp only [readFile, hload]
      | some data =>
          simp only [Prog.ret_bind, hload]
          refine ⟨Or.inr (Or.inr rfl), ?_⟩
          rintro r (⟨hf, rfl⟩ | rfl)
          · exact Or.inl hf
          · have hread : readFile (some text) = connections data := by
              simp only [readFile, hload]
            cases data with
            | obj d => exact hread
            | _ => exact Or.inr hread
  · rfl

/-! ## Writing -/

/-- The file has been emptied and holds a beginning of the new text. -/
def Partly (text : List Char) (w : LedgerWorld ι) : Prop :=
  w.emptied = true ∧ ∃ p q, text = p ++ q ∧ w.file = some p

/-- The file holds the new text. -/
def Written (text : List Char) (w : LedgerWorld ι) : Prop :=
  w.emptied = true ∧ w.file = some text

/-- The handle of thread `i` continues the file, and `rest` is still to be written. -/
def Writing (i : ι) (text rest : List Char) (w : LedgerWorld ι) : Prop :=
  w.emptied = true ∧ ∃ h p, w.out i = some h ∧ w.file = some p ∧ h.pos = p.length ∧
    text = p ++ (h.buf ++ rest)

omit [DecidableEq ι] in
theorem Written.partly {text : List Char} {w : LedgerWorld ι} (h : Written text w) :
    Partly text w :=
  ⟨h.1, text, [], (List.append_nil text).symm, h.2⟩

omit [DecidableEq ι] in
theorem Writing.partly {text rest : List Char} {w : LedgerWorld ι} (h : Writing i text rest w) :
    Partly text w := by
  obtain ⟨hemptied, h, p, -, hfile, -, htext⟩ := h
  exact ⟨hemptied, p, h.buf ++ rest, htext, hfile⟩

theorem overwrite_length (text old : List Char) :
    LedgerWorld.overwrite old.length text old = old ++ text := by
  unfold LedgerWorld.overwrite
  split
  · next h => rw [h, List.append_nil]
  · rw [List.take_length, Nat.sub_self, List.replicate_zero, List.append_nil,
      List.drop_eq_nil_of_le (Nat.le_add_right _ _), List.append_nil]

/-- A write takes in a beginning of its piece. -/
theorem Writing.write {text piece rest : List Char} {c : Choice} {w : LedgerWorld ι}
    (h : Writing i text (piece ++ rest) w) :
    ∃ q, piece = c.taken piece ++ q ∧
      Writing i text (q ++ rest) (w.afterFile i c (.write piece)) := by
  obtain ⟨hemptied, h, p, hout, hfile, hpos, htext⟩ := h
  obtain ⟨q, hq⟩ : ∃ q, piece = c.taken piece ++ q := by
    unfold Choice.taken
    split
    · exact ⟨[], (List.append_nil piece).symm⟩
    · exact ⟨piece.drop c.keep, (List.take_append_drop _ _).symm⟩
  refine ⟨q, hq, ?_⟩
  simp only [LedgerWorld.afterFile, hout]
  refine ⟨hemptied, _, p ++ (h.buf ++ c.taken piece).take c.flush, Function.update_self .., ?_,
    ?_, ?_⟩
  · show w.file.map _ = _
    rw [hfile, Option.map_some, hpos, overwrite_length]
  · rw [List.length_append, hpos]
  · show text = _ ++ ((h.buf ++ c.taken piece).drop c.flush ++ (q ++ rest))
    rw [List.append_assoc, ← List.append_assoc (List.take _ _), List.take_append_drop, htext]
    conv_lhs => rw [hq]
    simp only [List.append_assoc]

/-- A close flushes a beginning of the buffer, and all of it when it succeeds. -/
theorem Writing.close {text rest : List Char} {c : Choice} {w : LedgerWorld ι}
    (h : Writing i text rest w) :
    Partly text (w.afterFile i c .closeWrite) ∧
      (rest = [] → c.fault = none → Written text (w.afterFile i c .closeWrite)) := by
  obtain ⟨hemptied, h, p, hout, hfile, hpos, htext⟩ := h
  simp only [LedgerWorld.afterFile, hout]
  set n := if c.fault = none then h.buf.length else c.flush with hn
  have hfile' : w.file.map (LedgerWorld.overwrite h.pos (h.buf.take n)) =
      some (p ++ h.buf.take n) := by
    rw [hfile, Option.map_some, hpos, overwrite_length]
  refine ⟨⟨hemptied, _, h.buf.drop n ++ rest, ?_, hfile'⟩, ?_⟩
  · rw [List.append_assoc, ← List.append_assoc (List.take _ _), List.take_append_drop, htext]
  · intro hrest hc
    refine ⟨hemptied, ?_⟩
    have htake : h.buf.take n = h.buf := by rw [hn, if_pos hc, List.take_length]
    show w.file.map _ = _
    rw [hfile', htake, htext, hrest, List.append_nil]

theorem spec_writePieces {text : List Char} (hJ : Safe J i l (Partly text)) (rest : List Char) :
    (ledgerSetting i faulty J).Spec (Own i l (Writing i text rest)) (writePieces rest)
      (fun _ => Own i l (Writing i text []))
      (Own i l fun w => faulty ∧ ∃ q, Writing i text q w) := by
  have hsafe : ∀ rest, Safe J i l (Writing i text rest) :=
    fun rest w ⟨h₁, h₂, h₃, h⟩ => hJ w ⟨h₁, h₂, h₃, h.partly⟩
  have hsafeE : Safe J i l (fun w => faulty ∧ ∃ q, Writing i text q w) :=
    fun w ⟨h₁, h₂, h₃, _, q, h⟩ => hJ w ⟨h₁, h₂, h₃, h.partly⟩
  induction rest with
  | nil => exact Setting.spec_ret (settled_own (hsafe _)) fun _ h => h
  | cons x rest ih =>
      refine Setting.spec_bind (B := fun _ => Own i l (Writing i text rest)) ?_ fun _ => ih
      refine Setting.triple_mono (fun _ h => h) ?_ (triple_onFile (o := .write [x]) rfl
        (R := Setting.post (fun _ => Writing i text rest)
          (fun w => faulty ∧ ∃ q, Writing i text q w)) (hsafe _) ?_ ?_)
      · rintro (e | a) w h <;> exact h
      · rintro (e | a)
        · exact hsafeE
        · exact hsafe _
      · intro w c r w' hw hc he
        have hw' : Writing i text ([x] ++ rest) w := hw
        obtain ⟨q, hpiece, hq⟩ := Writing.write (c := c) hw'
        obtain ⟨rfl, ⟨hf, e, rfl⟩ | ⟨htaken, rfl⟩⟩ := exec_write he
        · exact ⟨hc hf, _, hq⟩
        · rw [htaken] at hpiece
          rwa [List.append_right_eq_self.mp hpiece.symm] at hq

/-- **`_write_entries`** empties the file and writes the new text.  When it fails the file
is as before or holds a beginning of the new text. -/
theorem spec_writeEntries {A : LedgerWorld ι → Prop} (hA : Safe J i l A) (entries : Json)
    (hJ : Safe J i l (Partly (ledgerText entries))) :
    (ledgerSetting i faulty J).Spec (Own i l A) (writeEntries entries)
      (fun _ => Own i l (Written (ledgerText entries)))
      (Own i l fun w => faulty ∧ (A w ∨ Partly (ledgerText entries) w)) := by
  set text := ledgerText entries with htext
  have hWriting : ∀ rest, Safe J i l (Writing i text rest) :=
    fun rest w ⟨h₁, h₂, h₃, h⟩ => hJ w ⟨h₁, h₂, h₃, h.partly⟩
  have hWritten : Safe J i l (Written text) := fun w ⟨h₁, h₂, h₃, h⟩ => hJ w ⟨h₁, h₂, h₃, h.partly⟩
  have hE : Safe J i l (fun w => faulty ∧ (A w ∨ Partly text w)) := by
    rintro w ⟨h₁, h₂, h₃, -, h | h⟩
    · exact hA w ⟨h₁, h₂, h₃, h⟩
    · exact hJ w ⟨h₁, h₂, h₃, h⟩
  have hclose : ∀ rest, (ledgerSetting i faulty J).Spec (Own i l (Writing i text rest))
      (ledgerOp .closeWrite) (fun _ => Own i l fun w => Partly text w ∧ (rest = [] → Written text w))
      (Own i l fun w => faulty ∧ (A w ∨ Partly text w)) := by
    intro rest
    refine Setting.triple_mono (fun _ h => h) ?_ (triple_onFile (o := .closeWrite) rfl
      (R := Setting.post (fun _ w => Partly text w ∧ (rest = [] → Written text w))
        (fun w => faulty ∧ (A w ∨ Partly text w))) (hWriting rest) ?_ ?_)
    · rintro (e | a) w h <;> exact h
    · rintro (e | a)
      · exact hE
      · exact fun w ⟨h₁, h₂, h₃, h⟩ => hJ w ⟨h₁, h₂, h₃, h.1⟩
    · intro w c r w' hw hc he
      obtain ⟨rfl, ⟨hf, e, rfl⟩ | ⟨hf, rfl⟩⟩ := exec_closeWrite he
      · exact ⟨hc hf, Or.inr (Writing.close hw).1⟩
      · exact ⟨(Writing.close hw).1, fun hrest => (Writing.close hw).2 hrest hf⟩
  refine Setting.spec_bind (B := fun _ => Own i l (Writing i text text)) ?_ fun _ => ?_
  · refine Setting.triple_mono (fun _ h => h) ?_ (triple_onFile (o := .openWrite) rfl
      (R := Setting.post (fun _ => Writing i text text)
        (fun w => faulty ∧ (A w ∨ Partly text w))) hA ?_ ?_)
    · rintro (e | a) w h <;> exact h
    · rintro (e | a)
      · exact hE
      · exact hWriting _
    · intro w c r w' hw hc he
      obtain ⟨hf, ⟨e, rfl⟩, rfl⟩ | ⟨rfl, rfl⟩ := exec_openWrite he
      · exact ⟨hc hf, Or.inl hw⟩
      · exact ⟨rfl, {}, [], Function.update_self .., rfl, rfl, rfl⟩
  · refine Setting.spec_tryFinally (fun _ => settled_own hWritten) (settled_own hE)
      (spec_writePieces hJ text) (fun _ => ?_) ?_
    · refine Setting.spec_mono (fun _ h => h) ?_ (fun _ h => h) (hclose [])
      rintro _ w ⟨h₁, h₂, h₃, -, h⟩
      exact ⟨h₁, h₂, h₃, h rfl⟩
    · -- the text was cut short: the close does not make it whole
      rintro w ⟨h₁, h₂, h₃, hf, q, hw⟩
      refine Setting.wp_mono ?_ (hclose q w ⟨h₁, h₂, h₃, hw⟩)
      rintro (e | a) w' h
      · exact h
      · exact ⟨h.1, h.2.1, h.2.2.1, hf, Or.inr h.2.2.2.1⟩

/-! ## The call between `acquire` and `release` -/

/-- The file is still `file`, and `e` tells whether it was emptied before. -/
def Unchanged (file : Option (List Char)) (e : Bool) (w : LedgerWorld ι) : Prop :=
  w.file = file ∧ w.emptied = e

/-- The list `entries` of the file would be replaced by `entries'`. -/
def Replaces (change : Json → Except Exn Json) (file : Option (List Char)) (entries' : Json) :
    Prop :=
  ∃ entries, readFile file = .ok entries ∧ change entries = .ok entries'

/-- How `register` and `unregister` leave the file: changed when they return `True`; when
they return `False` as it was, or emptied and partly rewritten. -/
def Changed (faulty : Prop) (change : Json → Except Exn Json) (file : Option (List Char))
    (e : Bool) (w : LedgerWorld ι) : Bool → Prop
  | true => ∃ entries', Replaces change file entries' ∧ Written (ledgerText entries') w
  | false => (Unchanged file e w ∧ (faulty ∨ ∀ entries', ¬ Replaces change file entries')) ∨
      (faulty ∧ ∃ entries', Replaces change file entries' ∧ Partly (ledgerText entries') w)

theorem spec_changeEntries {file : Option (List Char)} {e : Bool}
    (change : Json → Except Exn Json) (hA : Safe J i l (Unchanged file e))
    (hJ : ∀ entries', Replaces change file entries' → Safe J i l (Partly (ledgerText entries'))) :
    (ledgerSetting i faulty J).Spec (Own i l (Unchanged file e)) (changeEntries change)
      (fun b => Own i l fun w => Changed faulty change file e w b) (fun _ => False) := by
  have hsafe : ∀ b, Safe J i l (fun w => Changed faulty change file e w b) := by
    rintro (_ | _) w ⟨h₁, h₂, h₃, h⟩
    · rcases h with ⟨h, -⟩ | ⟨-, v, hv, h⟩
      · exact hA w ⟨h₁, h₂, h₃, h⟩
      · exact hJ v hv w ⟨h₁, h₂, h₃, h⟩
    · obtain ⟨v, hv, h⟩ := h
      exact hJ v hv w ⟨h₁, h₂, h₃, h.partly⟩
  -- an exception anywhere in the body ends as `False` does
  refine Setting.spec_tryExcept (E := Own i l fun w => Changed faulty change file e w false) ?_
    (fun _ => Setting.spec_ret (settled_own (hsafe false)) fun _ h => h)
  have hread := triple_looks (l := l) hA (fun w h => h.1) (looks_readEntries faulty file)
  refine Setting.triple_bind _ hread (fun entries => ?_) ?_
  · cases hc : change entries with
    | error x =>
        refine Setting.triple_raise (settled_own fun w ⟨h₁, h₂, h₃, h⟩ => hA w ⟨h₁, h₂, h₃, h.1⟩) ?_
        rintro w ⟨h₁, h₂, h₃, hun, hout⟩
        refine ⟨h₁, h₂, h₃, Or.inl ⟨hun, Or.inr ?_⟩⟩
        rintro entries' ⟨v, hv, hv'⟩
        have hread : readFile file = .ok entries := hout
        obtain rfl := Except.ok.inj (hread.symm.trans hv)
        rw [hc] at hv'
        exact absurd hv' (by simp)
    | ok entries' =>
        rintro w ⟨h₁, h₂, h₃, hun, hout⟩
        have hrep : Replaces change file entries' := ⟨entries, hout, hc⟩
        have hwrite : (ledgerSetting i faulty J).Spec (Own i l (Unchanged file e))
            (writeEntries entries') _ _ := spec_writeEntries hA entries' (hJ _ hrep)
        have hspec : (ledgerSetting i faulty J).Spec (Own i l (Unchanged file e))
            ((writeEntries entries').bind fun _ => Prog.ret true)
            (fun b => Own i l fun w => Changed faulty change file e w b)
            (Own i l fun w => Changed faulty change file e w false) := by
          refine Setting.spec_bind
            (B := fun _ => Own i l fun w => Changed faulty change file e w true) ?_
            fun _ => Setting.spec_ret (settled_own (hsafe true)) fun _ h => h
          refine Setting.spec_mono (fun _ h => h) ?_ ?_ hwrite
          · rintro _ w ⟨h₁, h₂, h₃, h⟩
            exact ⟨h₁, h₂, h₃, entries', hrep, h⟩
          · rintro w ⟨h₁, h₂, h₃, hf, h | h⟩
            · exact ⟨h₁, h₂, h₃, Or.inl ⟨h, Or.inl hf⟩⟩
            · exact ⟨h₁, h₂, h₃, Or.inr ⟨hf, entries', hrep, h⟩⟩
        exact hspec w ⟨h₁, h₂, h₃, hun⟩
  · rintro x w ⟨h₁, h₂, h₃, hun, hf | hread⟩
    · exact ⟨h₁, h₂, h₃, Or.inl ⟨hun, Or.inl hf⟩⟩
    · refine ⟨h₁, h₂, h₃, Or.inl ⟨hun, Or.inr ?_⟩⟩
      rintro entries' ⟨v, hv, -⟩
      rw [hread] at hv
      exact absurd hv (by simp)

end Calls

end ConnectionLedger
