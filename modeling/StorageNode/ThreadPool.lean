/-
# Threads over one world

Several programs that share a world, one operation at a time in any order, next to
surroundings that move by themselves.  How an operation turns out is resolved by a
choice, so a run is given by a list of events and can be computed.

* `Pool.Step`, `Pool.Reaches` : the runs, those whose operations all meet a condition on
  the state before them;
* `Pool.run` : the run along a list of events, with `run_reaches`;
* `Pool.reaches_upto` : what the steps of a run add to a history is in it at the end;
* `Pool.tracked` : the same runs, with a record of whether a condition was met so far;
* `Pool.wp_reaches` : the parallel rule: when the guarantee of each thread is something
  the others' settings expect, all weakest preconditions are carried along every run.
-/
import StorageNode.RelyGuarantee

/-- Threads `ι` over the worlds `W`: how the operation `o` of a thread turns out under
the choice `c`, and the moves `E` of the surroundings. -/
structure Pool (ι Op : Type) (Res : Op → Type) (Exn C E W : Type) where
  exec : ι → (o : Op) → C → W → Option (Except Exn (Res o) × W)
  env : E → W → Option W

namespace Pool

variable {ι Op : Type} {Res : Op → Type} {Exn C E W α : Type} [DecidableEq ι]

/-- What is left of each thread, and the world. -/
abbrev Conf (ι Op : Type) (Res : Op → Type) (Exn W α : Type) : Type :=
  (ι → Prog Op Res Exn α) × W

/-- A condition on an operation and the state before it. -/
abbrev Condition (ι Op C W : Type) : Type := ι → Op → C → W → Prop

/-- The condition every operation meets. -/
def always : Condition ι Op C W := fun _ _ _ _ => True

instance (i : ι) (o : Op) (c : C) (w : W) : Decidable (always i o c w) :=
  inferInstanceAs (Decidable True)

variable (P : Pool ι Op Res Exn C E W)

/-- One step: the next operation of a thread, which meets the condition, or a move of the
surroundings. -/
inductive Step (meets : Condition ι Op C W) :
    Conf ι Op Res Exn W α → Conf ι Op Res Exn W α → Prop
  | call {ps : ι → Prog Op Res Exn α} {w w' : W} {i : ι} {o : Op}
      {k : Except Exn (Res o) → Prog Op Res Exn α} {c : C} {r : Except Exn (Res o)} :
      ps i = .call o k → meets i o c w → P.exec i o c w = some (r, w') →
      Step meets (ps, w) (Function.update ps i (k r), w')
  | env {ps : ι → Prog Op Res Exn α} {w w' : W} {e : E} :
      P.env e w = some w' → Step meets (ps, w) (ps, w')

/-- The configurations of the runs whose operations all meet the condition. -/
def Reaches (meets : Condition ι Op C W) :
    Conf ι Op Res Exn W α → Conf ι Op Res Exn W α → Prop :=
  Relation.ReflTransGen (P.Step meets)

/-! ## Runs that can be computed -/

/-- An event of a run. -/
inductive Event (ι C E : Type)
  | thread (i : ι) (c : C)
  | env (e : E)

variable (meets : Condition ι Op C W) [∀ i o c w, Decidable (meets i o c w)]

/-- The configuration after one event, when the event can happen. -/
def next (s : Conf ι Op Res Exn W α) : Event ι C E → Option (Conf ι Op Res Exn W α)
  | .thread i c =>
      match s.1 i with
      | .call o k =>
          if meets i o c s.2 then
            (P.exec i o c s.2).map fun rw => (Function.update s.1 i (k rw.1), rw.2)
          else none
      | _ => none
  | .env e => (P.env e s.2).map fun w => (s.1, w)

/-- The configuration after a list of events. -/
def run : Conf ι Op Res Exn W α → List (Event ι C E) → Option (Conf ι Op Res Exn W α)
  | s, [] => some s
  | s, ev :: evs =>
      match P.next meets s ev with
      | some s' => run s' evs
      | none => none

theorem next_step {s s' : Conf ι Op Res Exn W α} {ev : Event ι C E}
    (h : P.next meets s ev = some s') : P.Step meets s s' := by
  obtain ⟨ps, w⟩ := s
  cases ev with
  | thread i c =>
      simp only [next] at h
      split at h
      · next o k hp =>
          rw [Option.ite_none_right_eq_some] at h
          obtain ⟨hmeets, h⟩ := h
          obtain ⟨⟨r, w'⟩, he, rfl⟩ := Option.map_eq_some_iff.mp h
          exact .call hp hmeets he
      · exact absurd h (by simp)
  | env e =>
      obtain ⟨w', he, rfl⟩ := Option.map_eq_some_iff.mp h
      exact .env he

/-- A computed run is a run. -/
theorem run_reaches {s s' : Conf ι Op Res Exn W α} {evs : List (Event ι C E)}
    (h : P.run meets s evs = some s') : P.Reaches meets s s' := by
  induction evs generalizing s with
  | nil =>
      rw [run, Option.some.injEq] at h
      exact h ▸ .refl
  | cons ev evs ih =>
      rw [run] at h
      cases hn : P.next meets s ev with
      | none =>
          rw [hn] at h
          exact absurd h (by simp)
      | some s₁ =>
          rw [hn] at h
          exact .head (P.next_step meets hn) (ih h)

/-- A computed run whose last configuration passes a test. -/
theorem exists_of_run (s : Conf ι Op Res Exn W α) (evs : List (Event ι C E))
    (p : Conf ι Op Res Exn W α → Bool) (h : (P.run meets s evs).any p = true) :
    ∃ s', P.Reaches meets s s' ∧ p s' = true := by
  cases hr : P.run meets s evs with
  | none =>
      rw [hr] at h
      exact absurd h (by simp)
  | some s' =>
      rw [hr] at h
      exact ⟨s', P.run_reaches meets hr, h⟩

omit [∀ i o c w, Decidable (meets i o c w)] in
/-- Without threads and without surroundings nothing happens. -/
theorem eq_of_isEmpty [IsEmpty ι] [IsEmpty E] {s s' : Conf ι Op Res Exn W α}
    (h : P.Reaches meets s s') : s' = s := by
  induction h with
  | refl => rfl
  | tail _ hs _ =>
      cases hs with
      | @call ps w w' i => exact isEmptyElim i
      | @env ps w w' e => exact isEmptyElim e

/-! ## Histories -/

section History

variable {H : Type} [Preorder H] {hist : W → H} {s s' : Conf ι Op Res Exn W α}

omit [∀ i o c w, Decidable (meets i o c w)]

/-- What every step adds to is added to along a run. -/
theorem history_le
    (hexec : ∀ i o c w r w', P.exec i o c w = some (r, w') → hist w ≤ hist w')
    (henv : ∀ e w w', P.env e w = some w' → hist w ≤ hist w') (h : P.Reaches meets s s') :
    hist s.2 ≤ hist s'.2 := by
  induction h with
  | refl => exact le_rfl
  | tail _ hs ih =>
      refine ih.trans ?_
      cases hs with
      | call _ _ he => exact hexec _ _ _ _ _ _ he
      | env he => exact henv _ _ _ he

/-- **What a step adds to the history** can still be read off at the end of the run. -/
theorem reaches_upto
    (hexec : ∀ i o c w r w', P.exec i o c w = some (r, w') → hist w ≤ hist w')
    (henv : ∀ e w w', P.env e w = some w' → hist w ≤ hist w') (h : P.Reaches meets s s') :
    P.Reaches (fun i o c w => meets i o c w ∧
      ∀ r w', P.exec i o c w = some (r, w') → hist w' ≤ hist s'.2) s s' := by
  induction h using Relation.ReflTransGen.head_induction_on with
  | refl => exact .refl
  | head hs hr ih =>
      refine .head ?_ ih
      have hle := history_le P meets hexec henv hr
      cases hs with
      | call hp hmeets he =>
          refine .call hp ⟨hmeets, fun r w' he' => ?_⟩ he
          rw [he, Option.some.injEq, Prod.mk.injEq] at he'
          obtain ⟨-, rfl⟩ := he'
          exact hle
      | env he => exact .env he

end History

/-! ## Keeping track of a condition -/

/-- The pool that also records whether every operation so far met a condition. -/
def tracked (P : Pool ι Op Res Exn C E W) (covers : ι → Op → C → W → Bool) :
    Pool ι Op Res Exn C E (W × Bool) where
  exec i o c w := (P.exec i o c w.1).map fun rw => (rw.1, (rw.2, w.2 && covers i o c w.1))
  env e w := (P.env e w.1).map fun w' => (w', w.2)

omit [DecidableEq ι] in
theorem exec_tracked {P : Pool ι Op Res Exn C E W} {covers : ι → Op → C → W → Bool} {i : ι}
    {o : Op} {c : C} {w w' : W × Bool} {r : Except Exn (Res o)}
    (h : (P.tracked covers).exec i o c w = some (r, w')) :
    P.exec i o c w.1 = some (r, w'.1) ∧ w'.2 = (w.2 && covers i o c w.1) := by
  obtain ⟨⟨r', w₁⟩, he, heq⟩ := Option.map_eq_some_iff.mp h
  simp only [Prod.mk.injEq] at heq
  obtain ⟨rfl, rfl⟩ := heq
  exact ⟨he, rfl⟩

/-! ## The parallel rule -/

omit [∀ i o c w, Decidable (meets i o c w)] in
/-- **Parallel composition.**  Each thread has a setting of its own.  What one thread does
under its guarantee is a move of the surroundings for every other thread. -/
theorem wp_reaches (S : ι → Setting Op Res Exn W)
    (hexec : ∀ i o c w r w', meets i o c w → P.exec i o c w = some (r, w') →
      (S i).exec o w r w')
    (hguar : ∀ i j w w', j ≠ i → (S i).guar w w' → (S j).env w w')
    (henv : ∀ i e w w', P.env e w = some w' → (S i).env w w')
    {Q : ι → Except Exn α → W → Prop} {s s' : Conf ι Op Res Exn W α}
    (hr : P.Reaches meets s s') (h : ∀ i, (S i).wp (s.1 i) (Q i) s.2) :
    ∀ i, (S i).wp (s'.1 i) (Q i) s'.2 := by
  induction hr with
  | refl => exact h
  | tail _ hs ih =>
      cases hs with
      | @call ps w w' i o k c r hp hmeets he =>
          intro j
          have hcall : (S i).wp (ps i) (Q i) w := ih i
          rw [hp] at hcall
          obtain ⟨hg, hk⟩ := Setting.wp_call hcall (hexec i o c w r w' hmeets he)
          by_cases hj : j = i
          · subst hj
            simpa only [Function.update_self] using hk
          · simp only [Function.update_of_ne hj]
            exact Setting.wp_drift (ih j) (.single (hguar i j w w' hj hg))
      | env he =>
          intro j
          exact Setting.wp_drift (ih j) (.single (henv j _ _ _ he))

end Pool
