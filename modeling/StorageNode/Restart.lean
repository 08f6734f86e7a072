/-
# Processes that crash and are started again

A crash ends a life of a process and leaves something behind, from which the next life
begins.  When every life that is left alone comes to its goal, and every crash leaves what a
life can begin with, then so does any number of lives, each cut short anywhere.

* `Restarting` : steps and crashes, of which finitely many are left;
* `inevitably_restarting` : a goal that every life comes to is inevitable;
* `Setting.wp_run` : what a specification says along a run of a machine that does more.
-/
import StorageNode.TotalCorrectness

section Restarting

variable {σ : Type} {step crash : σ → σ → Prop}

/-- A step, or a crash while there are crashes left. -/
inductive Restarting (step crash : σ → σ → Prop) : ℕ × σ → ℕ × σ → Prop
  | step {n : ℕ} {s s' : σ} : step s s' → Restarting step crash (n, s) (n, s')
  | crash {n : ℕ} {s s' : σ} : crash s s' → Restarting step crash (n + 1, s) (n, s')

/-- **Restarts.**  `I` : what a life can begin with. -/
theorem inevitably_restarting {goal I : σ → Prop}
    (hlife : ∀ s, I s → Inevitably step goal s)
    (hcrash : ∀ s₀ s s', I s₀ → Relation.ReflTransGen step s₀ s → crash s s' → I s')
    (n : ℕ) {s : σ} (hs : I s) :
    Inevitably (Restarting step crash) (fun c => goal c.2) (n, s) := by
  induction n generalizing s with
  | zero =>
      have hrest : Inevitably step goal s := hlife s hs
      clear hs
      induction hrest with
      | now hg => exact .now hg
      | later hcan _ ih =>
          obtain ⟨s₁, hs₁⟩ := hcan
          refine .later ⟨_, .step hs₁⟩ fun c hc => ?_
          cases hc with
          | step h => exact ih _ h
  | succ n ihn =>
      -- along the life it is known where it began, for the crash that may end it
      have hrest : ∀ s₁, Inevitably step goal s₁ → Relation.ReflTransGen step s s₁ →
          Inevitably (Restarting step crash) (fun c => goal c.2) (n + 1, s₁) := by
        intro s₁ h
        induction h with
        | now hg => exact fun _ => .now hg
        | later hcan _ ih =>
            intro hreach
            obtain ⟨s₂, hs₂⟩ := hcan
            refine .later ⟨_, .step hs₂⟩ fun c hc => ?_
            cases hc with
            | step h => exact ih _ h (hreach.tail h)
            | crash h => exact ihn (hcrash s _ _ hs hreach h)
      exact hrest s (hlife s hs) .refl

end Restarting

namespace Setting

variable {Op : Type} {Res : Op → Type} {Exn α V W : Type} {M : Machine Op Res Exn V}
  {S : Setting Op Res Exn W}

/-- A weakest precondition is carried along the runs of a machine whose steps, seen through
`π`, are moves of the setting. -/
theorem wp_run (π : V → W) (hexec : ∀ o v r v', M.exec o v r v' → S.exec o (π v) r (π v'))
    (henv : ∀ v v', M.env v v' → S.env (π v) (π v')) {p : Prog Op Res Exn α}
    {Q : Except Exn α → W → Prop} {v : V} {c : Prog Op Res Exn α × V} (h : S.wp p Q (π v))
    (hr : M.Reaches (p, v) c) : S.wp c.1 Q (π c.2) := by
  induction hr with
  | refl => exact h
  | tail _ hs ih =>
      cases hs with
      | call he => exact (wp_call ih (hexec _ _ _ _ he)).2
      | env he => exact wp_drift ih (.single (henv _ _ he))

end Setting
