/-
# What every run comes to

A state is bound for a goal when every run from it, however its choices are resolved,
meets the goal after finitely many steps and is never stuck before.

* `Inevitably` : every run from a state comes to the goal;
* `inevitably_of_progress` : steps that come to an end, and a step from every state on
  the way that has not met the goal;
* `Prog.wf_child` : the operations of a program come to an end;
* `Machine.wf_step`, `Pool.wf_step` : so do the steps of a program, and of finitely many
  threads, when the moves of their surroundings do.
-/
import StorageNode.ThreadPool

/-! ## Inevitability -/

/-- **Every run from the state comes to the goal**: the goal is met now, or some step can
be made and every step leads to such a state. -/
inductive Inevitably {σ : Type} (step : σ → σ → Prop) (goal : σ → Prop) : σ → Prop
  | now {s : σ} : goal s → Inevitably step goal s
  | later {s : σ} : (∃ s', step s s') → (∀ s', step s s' → Inevitably step goal s') →
      Inevitably step goal s

section Inevitably

variable {σ : Type} {step : σ → σ → Prop} {goal goal' : σ → Prop} {s : σ}

/-- Runs that come to the goal go on to what is inevitable from there. -/
theorem Inevitably.trans (h : Inevitably step goal s)
    (h' : ∀ s', Relation.ReflTransGen step s s' → goal s' → Inevitably step goal' s') :
    Inevitably step goal' s := by
  induction h with
  | now hg => exact h' _ .refl hg
  | later hcan _ ih =>
      exact .later hcan fun s₁ hs => ih s₁ hs fun s' hr hg => h' s' (.head hs hr) hg

theorem Inevitably.mono (h : Inevitably step goal s)
    (hgoal : ∀ s', Relation.ReflTransGen step s s' → goal s' → goal' s') :
    Inevitably step goal' s :=
  h.trans fun s' hr hg => .now (hgoal s' hr hg)

/-- **Progress.**  When steps come to an end and no run is stuck before the goal, the goal
is inevitable. -/
theorem inevitably_of_progress (hwf : WellFounded fun s' s => step s s')
    (hcan : ∀ s', Relation.ReflTransGen step s s' → goal s' ∨ ∃ s'', step s' s'') :
    Inevitably step goal s := by
  induction s using hwf.induction with
  | _ s ih =>
      rcases hcan s .refl with hg | hstep
      · exact .now hg
      · exact .later hstep fun s₁ hs => ih s₁ hs fun s' hr => hcan s' (.head hs hr)

end Inevitably

/-! ## Programs come to an end -/

namespace Prog

variable {Op : Type} {Res : Op → Type} {Exn α : Type}

/-- What is left of a program after its next operation. -/
def Child (q p : Prog Op Res Exn α) : Prop := ∃ o k r, p = .call o k ∧ q = k r

/-- The operations of a program come to an end. -/
theorem wf_child : WellFounded (@Child Op Res Exn α) := by
  refine ⟨fun p => ?_⟩
  induction p with
  | call o k ih =>
      refine .intro _ ?_
      rintro q ⟨o', k', r, heq, rfl⟩
      cases heq
      exact ih r
  | _ =>
      refine .intro _ ?_
      rintro q ⟨o, k, r, heq, -⟩
      cases heq

end Prog

/-- **The steps of a program come to an end** when the moves of its surroundings do. -/
theorem Machine.wf_step {Op : Type} {Res : Op → Type} {Exn W α : Type}
    (M : Machine Op Res Exn W) (henv : WellFounded fun w' w => M.env w w') :
    WellFounded fun c' c : Prog Op Res Exn α × W => M.Step c c' := by
  refine Subrelation.wf ?_ (Prog.wf_child.prod_lex henv)
  rintro c' c hs
  cases hs with
  | call he => exact .left _ _ ⟨_, _, _, rfl, rfl⟩
  | env he => exact .right _ he

/-! ## Threads come to an end -/

namespace Pool

variable {ι Op : Type} {Res : Op → Type} {Exn C E W α : Type} [DecidableEq ι] [Fintype ι]

/-- Some thread has made its next operation, and the others none. -/
def Advanced (qs ps : ι → Prog Op Res Exn α) : Prop :=
  ∃ i q, Prog.Child q (ps i) ∧ qs = Function.update ps i q

/-- The operations of finitely many threads come to an end. -/
theorem wf_advanced : WellFounded (@Advanced ι Op Res Exn α _) := by
  have hcut := (@Prog.wf_child Op Res Exn α).cutExpand
  refine Subrelation.wf ?_ (InvImage.wf (fun ps : ι → Prog Op Res Exn α =>
    Finset.univ.val.map ps) hcut)
  rintro qs ps ⟨i, q, hchild, rfl⟩
  -- the thread's program is cut off and what is left of it put in its place
  have hi : i ∈ (Finset.univ : Finset ι).val := Finset.mem_univ i
  have hrest : ∀ j ∈ (Finset.univ : Finset ι).val.erase i, Function.update ps i q j = ps j := by
    intro j hj
    refine Function.update_of_ne ?_ _ _
    rintro rfl
    exact (Multiset.Nodup.mem_erase_iff Finset.univ.nodup).mp hj |>.1 rfl
  show Relation.CutExpand Prog.Child (Finset.univ.val.map (Function.update ps i q))
    (Finset.univ.val.map ps)
  rw [← Multiset.cons_erase hi, Multiset.map_cons, Multiset.map_cons, Multiset.map_congr rfl hrest,
    Function.update_self, ← Multiset.singleton_add, ← Multiset.singleton_add]
  exact Relation.cutExpand_single_add hchild _

/-- **The steps of finitely many threads come to an end** when the moves of their
surroundings do. -/
theorem wf_step (P : Pool ι Op Res Exn C E W) (meets : Condition ι Op C W)
    (henv : WellFounded fun w' w => ∃ e, P.env e w = some w') :
    WellFounded fun s' s : Conf ι Op Res Exn W α => P.Step meets s s' := by
  refine Subrelation.wf ?_ (wf_advanced.prod_lex henv)
  rintro s' s hs
  cases hs with
  | call hp hmeets he => exact .left _ _ ⟨_, _, ⟨_, _, _, hp, rfl⟩, rfl⟩
  | env he => exact .right _ ⟨_, he⟩

end Pool
