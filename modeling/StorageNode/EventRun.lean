/-
# Runs of a system of events

A system that takes one event after the other; an event that is not possible in a state has
no successor.

* `Reaches` : the states of the runs whose events all meet a condition;
* `Reaches.invariant` : what every such event keeps holds in every such state;
* `run`, `exists_of_run` : runs that are computed.
-/
import Mathlib.Logic.Relation

namespace EventRun

variable {σ ε : Type} (next : σ → ε → Option σ)

/-- The states of the runs whose events all meet the condition. -/
def Reaches (meets : σ → ε → Prop) : σ → σ → Prop :=
  Relation.ReflTransGen fun s s' => ∃ ev, meets s ev ∧ next s ev = some s'

/-- The state after a list of events that all pass a test. -/
def run (test : σ → ε → Bool) : σ → List ε → Option σ
  | s, [] => some s
  | s, ev :: evs => if test s ev then (next s ev).bind fun s' => run test s' evs else none

variable {next} {meets : σ → ε → Prop}

/-- **What every event keeps.** -/
theorem Reaches.invariant {Inv : σ → Prop} {s s' : σ} (h : Reaches next meets s s') (hs : Inv s)
    (hstep : ∀ s ev s', Inv s → meets s ev → next s ev = some s' → Inv s') : Inv s' := by
  induction h with
  | refl => exact hs
  | tail _ hev ih =>
      obtain ⟨ev, hmeets, hnext⟩ := hev
      exact hstep _ ev _ ih hmeets hnext

/-- A computed run is a run. -/
theorem reaches_of_run {test : σ → ε → Bool} (htest : ∀ s ev, test s ev = true → meets s ev)
    {s s' : σ} {evs : List ε} (h : run next test s evs = some s') : Reaches next meets s s' := by
  induction evs generalizing s with
  | nil =>
      rw [run, Option.some.injEq] at h
      exact h ▸ .refl
  | cons ev evs ih =>
      rw [run, Option.ite_none_right_eq_some] at h
      obtain ⟨hpass, h⟩ := h
      obtain ⟨s₁, hnext, hrun⟩ := Option.bind_eq_some_iff.mp h
      exact .head ⟨ev, htest s ev hpass, hnext⟩ (ih hrun)

/-- A computed run whose last state passes a test. -/
theorem exists_of_run {test : σ → ε → Bool} (htest : ∀ s ev, test s ev = true → meets s ev)
    {s : σ} {evs : List ε} (p : σ → Bool) (h : (run next test s evs).any p = true) :
    ∃ s', Reaches next meets s s' ∧ p s' = true := by
  cases hr : run next test s evs with
  | none =>
      rw [hr] at h
      exact absurd h (by simp)
  | some s' =>
      rw [hr] at h
      exact ⟨s', reaches_of_run htest hr, h⟩

end EventRun
