/-
# What a kill or a fault leaves of the ledger

`_write_entries` empties the ledger file and then writes it anew, and `_read_entries`
takes an unreadable file for an empty ledger.  So the list is lost while the file is being
rewritten.

* `LedgerUpdate` : a call of `register` or `unregister`, with the list it is to leave
  behind;
* `LedgerUpdate.Torn` : the file has been emptied and does not hold the whole new text yet;
* `torn_register_loses_entries` : a kill in that window loses every entry;
* `ledger_atomicity` : that window is exactly where the list before and the list after the
  call are both lost, and a call that returns `False` leaves the list alone exactly when it
  failed before the window.
-/
import StorageNode.LedgerCalls

open ConnectionLedger

/-- A call that changes the ledger. -/
inductive LedgerUpdate
  | register (entry : Dict)
  | unregister (entry : Dict)

namespace LedgerUpdate

def entry : LedgerUpdate → Dict
  | register entry => entry
  | unregister entry => entry

/-- The method. -/
def run : LedgerUpdate → Ledger Bool
  | register entry => ConnectionLedger.register entry
  | unregister entry => ConnectionLedger.unregister entry

/-- The list the completed call leaves; `none` when it has nothing to remove. -/
def after (before : List Json) : LedgerUpdate → Option (List Json)
  | register entry => some (before ++ [.obj entry])
  | unregister entry => pyRemove (.obj entry) before

/-- What the method does to the value it read. -/
def change : LedgerUpdate → Json → Except Exn Json
  | register entry => append entry
  | unregister entry => remove entry

theorem run_eq (u : LedgerUpdate) : u.run = update u.change := by
  cases u <;> rfl

theorem change_arr (u : LedgerUpdate) (before : List Json) :
    u.change (.arr before) =
      match u.after before with
      | some entries => .ok (.arr entries)
      | none => .error .valueError := by
  cases u with
  | register entry => rfl
  | unregister entry => rfl

/-- **The file has been emptied and does not hold the whole new text yet.** -/
def Torn {ι : Type} (u : LedgerUpdate) (before : List Json) (w : LedgerWorld ι) : Prop :=
  w.emptied = true ∧
    ∀ entries, u.after before = some entries → w.file ≠ some (ledgerText (.arr entries))

/-- What the file goes through: unchanged, or emptied and partly rewritten. -/
def Crash {ι : Type} (u : LedgerUpdate) (before : List Json) (file : Option (List Char))
    (w : LedgerWorld ι) : Prop :=
  Unchanged file false w ∨
    ∃ entries, u.after before = some entries ∧ Partly (ledgerText (.arr entries)) w

end LedgerUpdate

theorem pyRemove_isSome {α : Type} [BEq α] {x : α} {xs : List α}
    (h : xs.any (· == x) = true) : ∃ ys, pyRemove x xs = some ys := by
  induction xs with
  | nil => exact absurd h (by simp)
  | cons y r ih =>
      rw [pyRemove]
      split
      · exact ⟨r, rfl⟩
      · next hy =>
          rw [List.any_cons, Bool.or_eq_true] at h
          obtain ⟨ys, hys⟩ := ih (h.resolve_left hy)
          exact ⟨y :: ys, by rw [hys, Option.map_some]⟩

theorem pyRemove_sublist {α : Type} [BEq α] {x : α} {xs ys : List α}
    (h : pyRemove x xs = some ys) : ys.Sublist xs ∧ ys.length + 1 = xs.length := by
  induction xs generalizing ys with
  | nil => exact absurd h (by simp [pyRemove])
  | cons y r ih =>
      rw [pyRemove] at h
      split at h
      · obtain rfl := Option.some.inj h
        exact ⟨List.sublist_cons_self _ _, rfl⟩
      · obtain ⟨zs, hzs, rfl⟩ := Option.map_eq_some_iff.mp h
        obtain ⟨hsub, hlen⟩ := ih hzs
        exact ⟨hsub.cons_cons _, by rw [List.length_cons, hlen, List.length_cons]⟩

namespace LedgerUpdate

/-- The new list is well formed when what is registered is. -/
theorem after_wf {u : LedgerUpdate} {before entries : List Json}
    (hwf : ∀ entry, u = .register entry → (Json.obj entry).WF) (hbefore : ∀ x ∈ before, x.WF)
    (h : u.after before = some entries) : ∀ x ∈ entries, x.WF := by
  cases u with
  | register entry =>
      obtain rfl := Option.some.inj h
      intro x hx
      rcases List.mem_append.mp hx with hx | hx
      · exact hbefore x hx
      · rw [List.mem_singleton.mp hx]
        exact hwf entry rfl
  | unregister entry => exact fun x hx => hbefore x ((pyRemove_sublist h).1.subset hx)

/-- The new list is never the old one. -/
theorem after_ne {u : LedgerUpdate} {before entries : List Json}
    (h : u.after before = some entries) : entries ≠ before := by
  rintro rfl
  cases u with
  | register entry =>
      have hlen := congrArg List.length (Option.some.inj h)
      rw [List.length_append, List.length_singleton] at hlen
      omega
  | unregister entry =>
      obtain ⟨-, hlen⟩ := pyRemove_sublist h
      omega

/-- **A call takes the file through nothing else**, whatever fails. -/
theorem spec_run {u : LedgerUpdate} {file : Option (List Char)} {before : List Json}
    (hread : readFile file = .ok (.arr before)) :
    (ledgerSetting () True (u.Crash before file)).Spec
      (fun w => w.sem = 1 ∧ w.served = [] ∧ Unchanged file false w) u.run
      (fun _ => u.Crash before file) (u.Crash before file) := by
  set J : LedgerWorld Unit → Prop := u.Crash before file with hJ
  have hreplaces : ∀ entries', Replaces u.change file entries' →
      ∃ entries, u.after before = some entries ∧ entries' = .arr entries := by
    rintro entries' ⟨v, hv, hchange⟩
    obtain rfl := Except.ok.inj (hread.symm.trans hv)
    rw [change_arr] at hchange
    cases ha : u.after before with
    | none =>
        rw [ha] at hchange
        exact absurd hchange (by simp)
    | some entries =>
        rw [ha] at hchange
        exact ⟨entries, rfl, (Except.ok.inj hchange).symm⟩
  have hA : Safe J () [] (Unchanged file false) := fun w h => Or.inl h.2.2.2
  have hP : ∀ entries', Replaces u.change file entries' →
      Safe J () [] (Partly (ledgerText entries')) := by
    rintro entries' h w ⟨-, -, -, hw⟩
    obtain ⟨entries, ha, rfl⟩ := hreplaces entries' h
    exact Or.inr ⟨entries, ha, hw⟩
  have hsettled : (ledgerSetting () True J).Settled J :=
    ⟨fun w w' _ ⟨j, hj, _⟩ => absurd rfl hj, fun _ h => h⟩
  have hchanged : ∀ w b, Changed True u.change file false w b → J w := by
    rintro w (_ | _) h
    · rcases h with ⟨h, -⟩ | ⟨-, v, hv, h⟩
      · exact Or.inl h
      · obtain ⟨entries, ha, rfl⟩ := hreplaces v hv
        exact Or.inr ⟨entries, ha, h⟩
    · obtain ⟨v, hv, h⟩ := h
      obtain ⟨entries, ha, rfl⟩ := hreplaces v hv
      exact Or.inr ⟨entries, ha, h.partly⟩
  have hrelease : (ledgerSetting () True J).Spec (Own () [] J) (ledgerOp .release)
      (fun _ => J) J := by
    refine Setting.spec_perform (settled_own fun _ h => h.2.2.2) (fun _ => hsettled) hsettled ?_
    rintro w r w' ⟨-, -, -, hw⟩ ⟨c, he, -⟩
    obtain ⟨rfl, rfl⟩ := exec_release he
    exact ⟨⟨hw, fun j hj => absurd rfl hj, fun j hj => absurd rfl hj, Or.inr rfl⟩, hw⟩
  rw [run_eq]
  refine Setting.spec_bind (B := fun _ => Own () [] (Unchanged file false)) ?_ fun _ => ?_
  · refine Setting.spec_perform
      ⟨fun w w' _ ⟨j, hj, _⟩ => absurd rfl hj, fun _ h => Or.inl h.2.2⟩
      (fun _ => settled_own hA) hsettled ?_
    rintro w r w' ⟨hsem, hserved, hw⟩ ⟨c, he, -⟩
    obtain ⟨-, rfl, rfl⟩ := exec_acquire he
    refine ⟨⟨Or.inl hw, fun j hj => absurd rfl hj, fun j hj => absurd rfl hj, Or.inl rfl⟩,
      rfl, ?_, hserved, hw⟩
    show w.sem - 1 = 0
    omega
  · refine Setting.spec_tryFinally (fun _ => hsettled) hsettled
      (spec_changeEntries u.change hA hP) (fun b => ?_) ?_
    · refine Setting.spec_mono ?_ (fun _ _ h => h) (fun _ h => h) hrelease
      rintro w ⟨h₁, h₂, h₃, h⟩
      exact ⟨h₁, h₂, h₃, hchanged w b h⟩
    · exact fun _ h => h.elim

theorem crash_of_reaches {u : LedgerUpdate} {file : Option (List Char)} {before : List Json}
    (hread : readFile file = .ok (.arr before))
    {s : Pool.Conf Unit LedgerOp LedgerOp.Res Exn (LedgerWorld Unit) Bool}
    (hrun : LedgerWorld.ledger.Reaches Pool.always (fun _ => u.run, LedgerWorld.start file) s) :
    u.Crash before file s.2 := by
  have hwp := Pool.wp_reaches _ _ (fun _ : Unit => ledgerSetting () True (u.Crash before file))
    (fun _ o c w r w' _ he => ⟨c, he, fun _ => trivial⟩) (fun _ _ _ _ hij => absurd rfl hij)
    (fun _ e => e.elim) hrun fun _ => spec_run hread _ ⟨rfl, rfl, rfl, rfl⟩
  exact Setting.wp_inv (hwp ())

end LedgerUpdate

namespace ConnectionLedger

/-- What `_read_entries` finds in an unchanged file. -/
theorem nextRead_eq_iff {file : Option (List Char)} {xs : List Json} :
    nextRead file = some (.ok (.arr xs)) ↔ readFile file = .ok (.arr xs) := by
  rw [nextRead_eq, Option.some.injEq]

/-- **What a kill or a fault leaves of the ledger.**  At every point of a call, the next
read gives the list before or the list after it exactly when the file is not torn, or one
of the two lists is empty.  After a call that returned `False` the list is the one before
exactly when the file was not emptied, or the list was empty and the new text is not
complete. -/
theorem ledger_atomicity (u : LedgerUpdate) (hwf : (Json.obj u.entry).WF)
    (file : Option (List Char)) (before : List Json)
    (hread : nextRead file = some (.ok (.arr before)))
    {s : Pool.Conf Unit LedgerOp LedgerOp.Res Exn (LedgerWorld Unit) Bool}
    (hrun : LedgerWorld.ledger.Reaches Pool.always (fun _ => u.run, LedgerWorld.start file) s) :
    ((nextRead s.2.file = some (.ok (.arr before)) ∨
        ∃ entries, u.after before = some entries ∧
          nextRead s.2.file = some (.ok (.arr entries))) ↔
      (u.Torn before s.2 → before = [] ∨ u.after before = some [])) ∧
    (s.1 () = .ret false →
      (nextRead s.2.file = some (.ok (.arr before)) ↔
        s.2.emptied = false ∨ (u.Torn before s.2 ∧ before = []))) := by
  simp only [nextRead_eq_iff] at hread ⊢
  have hbefore : ∀ x ∈ before, x.WF := readFile_wf hread
  rcases u.crash_of_reaches hread hrun with ⟨hfile, hemptied⟩ |
    ⟨entries, hafter, hemptied, p, q, htext, hfile⟩
  · -- the file is as it was
    have hnot : ¬ u.Torn before s.2 := fun h => absurd (h.1.symm.trans hemptied) (by decide)
    rw [hfile]
    constructor
    · exact ⟨fun _ h => absurd h hnot, fun _ => Or.inl hread⟩
    · exact fun _ => ⟨fun _ => Or.inl hemptied, fun _ => hread⟩
  · have hwf' : ∀ x ∈ entries, x.WF :=
      LedgerUpdate.after_wf (by rintro entry rfl; exact hwf) hbefore hafter
    have hne : entries ≠ before := LedgerUpdate.after_ne hafter
    have hnotFalse : s.2.emptied ≠ false := by
      rw [hemptied]
      decide
    rw [hafter]
    cases q with
    | nil =>
        -- the new text is complete
        rw [List.append_nil] at htext
        subst htext
        have hnot : ¬ u.Torn before s.2 := fun h => h.2 entries hafter hfile
        have hnew : readFile s.2.file = .ok (.arr entries) := by
          rw [hfile]
          exact readFile_ledgerText hwf'
        constructor
        · exact ⟨fun _ h => absurd h hnot, fun _ => Or.inr ⟨entries, rfl, hnew⟩⟩
        · refine fun _ => ⟨fun h => ?_, fun h => ?_⟩
          · have heq := hnew.symm.trans h
            simp only [Except.ok.injEq, Json.arr.injEq] at heq
            exact absurd heq hne
          · rcases h with h | ⟨h, -⟩
            · exact absurd h hnotFalse
            · exact absurd h hnot
    | cons c q =>
        -- the text is cut short, and read as the empty list
        have htorn : u.Torn before s.2 := by
          refine ⟨hemptied, fun entries' h' hfile' => ?_⟩
          rw [hafter, Option.some.injEq] at h'
          rw [hfile, Option.some.injEq, ← h', htext] at hfile'
          have hlen := congrArg List.length hfile'
          rw [List.length_append, List.length_cons] at hlen
          omega
        have hempty : readFile s.2.file = .ok (.arr []) := by
          rw [hfile]
          exact readFile_of_append hwf' (List.cons_ne_nil c q) htext
        have hiff : ∀ xs : List Json, readFile s.2.file = .ok (.arr xs) ↔ xs = [] := by
          intro xs
          rw [hempty]
          simp only [Except.ok.injEq, Json.arr.injEq]
          exact eq_comm
        constructor
        · rw [hiff]
          constructor
          · rintro (h | ⟨xs, hxs, h⟩) -
            · exact Or.inl h
            · rw [Option.some.injEq] at hxs
              rw [hiff] at h
              exact Or.inr (by rw [hxs, h])
          · intro h
            rcases h htorn with h | h
            · exact Or.inl h
            · refine Or.inr ⟨[], h, ?_⟩
              rw [hiff]
        · intro _
          rw [hiff]
          constructor
          · exact fun h => Or.inr ⟨htorn, h⟩
          · rintro (h | ⟨-, h⟩)
            · exact absurd h hnotFalse
            · exact h

/-- A ledger with one entry. -/
def sampleLedger : List Json := [.obj [("shard_id", .str "a")]]

/-- The entry that is registered. -/
def sampleEntry : Dict := [("shard_id", .str "b")]

/-- A `register` whose `open(..., "w")` fails returns `False` and keeps the list. -/
theorem ledger_atomicity_open_fails :
    ∃ s : Pool.Conf Unit LedgerOp LedgerOp.Res Exn (LedgerWorld Unit) Bool,
      LedgerWorld.ledger.Reaches Pool.always
        (fun _ => (LedgerUpdate.register sampleEntry).run,
          LedgerWorld.start (some (ledgerText (.arr sampleLedger)))) s ∧
      s.1 () = .ret false ∧ nextRead s.2.file = some (.ok (.arr sampleLedger)) := by
  obtain ⟨s, hrun, hs⟩ := Pool.exists_of_run LedgerWorld.ledger Pool.always
    (fun _ : Unit => (LedgerUpdate.register sampleEntry).run,
      LedgerWorld.start (some (ledgerText (.arr sampleLedger))))
    (List.replicate 4 (.thread () {}) ++
      [.thread () { fault := some .osError }, .thread () {}])
    (fun s => s.2.emptied == false && (s.1 ()).returns (· == false)) (by decide +kernel)
  rw [Bool.and_eq_true, beq_iff_eq] at hs
  obtain ⟨b, hend, hb⟩ := Prog.eq_ret_of_returns hs.2
  rw [beq_iff_eq] at hb
  subst hb
  have hread : nextRead (some (ledgerText (.arr sampleLedger))) =
      some (.ok (.arr sampleLedger)) := by
    rw [nextRead_eq, readFile_ledgerText]
    simp [sampleLedger, Json.WF, WFDict]
  exact ⟨s, hrun, hend, ((ledger_atomicity (.register sampleEntry)
    (by simp [LedgerUpdate.entry, sampleEntry, Json.WF, WFDict]) _ _ hread hrun).2 hend).mpr
      (Or.inl hs.1)⟩

/-- The events of `register` up to the opening of the file for writing. -/
def untilEmptied : List (Pool.Event Unit Choice Empty) := List.replicate 5 (.thread () {})

/-- **A kill after `open(..., "w")`** leaves an empty file, and the ledger is read as the
empty list; a write that fails there makes `register` return `False` with the list lost. -/
theorem torn_register_loses_entries :
    (¬ ∀ s : Pool.Conf Unit LedgerOp LedgerOp.Res Exn (LedgerWorld Unit) Bool,
      LedgerWorld.ledger.Reaches Pool.always
        (fun _ => (LedgerUpdate.register sampleEntry).run,
          LedgerWorld.start (some (ledgerText (.arr sampleLedger)))) s →
      nextRead s.2.file = some (.ok (.arr sampleLedger)) ∨
        nextRead s.2.file = some (.ok (.arr (sampleLedger ++ [.obj sampleEntry])))) ∧
    ¬ ∀ s : Pool.Conf Unit LedgerOp LedgerOp.Res Exn (LedgerWorld Unit) Bool,
      LedgerWorld.ledger.Reaches Pool.always
        (fun _ => (LedgerUpdate.register sampleEntry).run,
          LedgerWorld.start (some (ledgerText (.arr sampleLedger)))) s →
      s.1 () = .ret false → nextRead s.2.file = some (.ok (.arr sampleLedger)) := by
  have hempty : nextRead (some []) = some (.ok (.arr [])) := rfl
  constructor
  · intro h
    obtain ⟨s, hrun, hs⟩ := Pool.exists_of_run LedgerWorld.ledger Pool.always
      (fun _ : Unit => (LedgerUpdate.register sampleEntry).run,
        LedgerWorld.start (some (ledgerText (.arr sampleLedger))))
      untilEmptied (fun s => decide (s.2.file = some [])) (by decide +kernel)
    have hread := h s hrun
    rw [of_decide_eq_true hs, hempty] at hread
    simp [sampleLedger] at hread
  · intro h
    obtain ⟨s, hrun, hs⟩ := Pool.exists_of_run LedgerWorld.ledger Pool.always
      (fun _ : Unit => (LedgerUpdate.register sampleEntry).run,
        LedgerWorld.start (some (ledgerText (.arr sampleLedger))))
      (untilEmptied ++ [.thread () { fault := some .osError }] ++
        List.replicate 2 (.thread () {}))
      (fun s => decide (s.2.file = some []) && (s.1 ()).returns (· == false)) (by decide +kernel)
    rw [Bool.and_eq_true, decide_eq_true_iff] at hs
    obtain ⟨b, hend, hb⟩ := Prog.eq_ret_of_returns hs.2
    rw [beq_iff_eq] at hb
    subst hb
    have hread := h s hrun hend
    rw [hs.1, hempty] at hread
    simp [sampleLedger] at hread

end ConnectionLedger
