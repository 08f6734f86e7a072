/-
# What a program does

The operations a program can call and the log of those it has called, whatever the
answers are.  Nothing here names a world: the answers are part of the log.

* `Prog.inject`, `Prog.embed` : a program over some of the operations, as one over all of
  them, and under other exceptions;
* `Prog.Only` : every operation a program can ever call satisfies a condition;
* `Prog.Total` : a program that comes to its end;
* `Prog.Event`, `Prog.Runs` : the log of a program, and what is left of it after a log;
* `Setting.within`, `spec_inject`, `wp_inject` : what is proved of a program in the larger
  one;
* `Setting.logging` : the setting whose world is the log, with `wp_runs`;
* `spec_log`, `spec_only` : the rules of one operation and of a program that only calls
  operations an assertion does not mind.
-/
import StorageNode.ThreadPool

namespace Prog

variable {Op Op' : Type} {Res : Op → Type} {Res' : Op' → Type} {Exn : Type} {α β : Type}

/-- A program over the operations `f o`, whose answers are translated by `g`. -/
def inject (f : Op → Op') (g : (o : Op) → Except Exn (Res' (f o)) → Except Exn (Res o)) :
    Prog Op Res Exn α → Prog Op' Res' Exn α
  | ret a => ret a
  | raise e => raise e
  | call o k => call (f o) fun r => (k (g o r)).inject f g
  | hang => hang

/-- A program over the operations `f o` and under other exceptions: `h` renames its own, and
`g` hands an answer on to it, or an exception it knows nothing of to the program around. -/
def embed {Exn' : Type} (f : Op → Op') (h : Exn → Exn')
    (g : (o : Op) → Except Exn' (Res' (f o)) → Except Exn' (Except Exn (Res o))) :
    Prog Op Res Exn α → Prog Op' Res' Exn' α
  | ret a => ret a
  | raise e => raise (h e)
  | call o k => call (f o) fun r =>
      match g o r with
      | .ok r => (k r).embed f h g
      | .error e => raise e
  | hang => hang

/-! ## The operations a program can call -/

/-- Every operation the program can call satisfies `P`. -/
def Only (P : Op → Prop) : Prog Op Res Exn α → Prop
  | ret _ => True
  | raise _ => True
  | call o k => P o ∧ ∀ r, (k r).Only P
  | hang => True

variable {P : Op → Prop}

theorem only_perform {o : Op} (h : P o) : (perform o : Prog Op Res Exn (Res o)).Only P := by
  refine ⟨h, fun r => ?_⟩
  cases r <;> trivial

theorem only_bind {p : Prog Op Res Exn α} {f : α → Prog Op Res Exn β} (h : p.Only P)
    (hf : ∀ a, (f a).Only P) : (p.bind f).Only P := by
  induction p with
  | ret a => exact hf a
  | raise e => trivial
  | call o k ih => exact ⟨h.1, fun r => ih r (h.2 r)⟩
  | hang => trivial

theorem only_tryExcept {p : Prog Op Res Exn α} {g : Exn → Prog Op Res Exn α} (h : p.Only P)
    (hg : ∀ e, (g e).Only P) : (p.tryExcept g).Only P := by
  induction p with
  | ret a => trivial
  | raise e => exact hg e
  | call o k ih => exact ⟨h.1, fun r => ih r (h.2 r)⟩
  | hang => trivial

theorem only_tryFinally {p : Prog Op Res Exn α} {c : Prog Op Res Exn Unit} (h : p.Only P)
    (hc : c.Only P) : (p.tryFinally c).Only P := by
  induction p with
  | ret a => exact only_bind hc fun _ => trivial
  | raise e => exact only_bind hc fun _ => trivial
  | call o k ih => exact ⟨h.1, fun r => ih r (h.2 r)⟩
  | hang => trivial

/-- After a pure computation its value is known. -/
theorem only_ofExcept_bind {x : Except Exn α} {f : α → Prog Op Res Exn β}
    (hf : ∀ a, x = .ok a → (f a).Only P) : ((ofExcept x).bind f).Only P := by
  cases x with
  | error e => trivial
  | ok a => exact hf a rfl

theorem only_mono {P' : Op → Prop} (hP : ∀ o, P o → P' o) {p : Prog Op Res Exn α}
    (h : p.Only P) : p.Only P' := by
  induction p with
  | ret a => trivial
  | raise e => trivial
  | call o k ih => exact ⟨hP o h.1, fun r => ih r (h.2 r)⟩
  | hang => trivial

theorem only_inject {f : Op → Op'}
    {g : (o : Op) → Except Exn (Res' (f o)) → Except Exn (Res o)} {P' : Op' → Prop}
    {p : Prog Op Res Exn α} (h : p.Only fun o => P' (f o)) : (p.inject f g).Only P' := by
  induction p with
  | ret a => trivial
  | raise e => trivial
  | call o k ih => exact ⟨h.1, fun r => ih (g o r) (h.2 (g o r))⟩
  | hang => trivial

theorem only_embed {Exn' : Type} {f : Op → Op'} {h : Exn → Exn'}
    {g : (o : Op) → Except Exn' (Res' (f o)) → Except Exn' (Except Exn (Res o))}
    {P' : Op' → Prop} {p : Prog Op Res Exn α} (hp : p.Only fun o => P' (f o)) :
    (p.embed f h g).Only P' := by
  induction p with
  | ret a => trivial
  | raise e => trivial
  | call o k ih =>
      rw [embed]
      refine ⟨hp.1, fun r => ?_⟩
      beta_reduce
      split
      · next r' _ => exact ih r' (hp.2 r')
      · trivial
  | hang => trivial

/-! ## Programs that come to their end -/

/-- The program does not run out of fuel. -/
def Total : Prog Op Res Exn α → Prop
  | ret _ => True
  | raise _ => True
  | call _ k => ∀ r, (k r).Total
  | hang => False

theorem total_perform (o : Op) : (perform o : Prog Op Res Exn (Res o)).Total := by
  intro r
  cases r <;> trivial

theorem total_bind {p : Prog Op Res Exn α} {f : α → Prog Op Res Exn β} (h : p.Total)
    (hf : ∀ a, (f a).Total) : (p.bind f).Total := by
  induction p with
  | ret a => exact hf a
  | raise e => trivial
  | call o k ih => exact fun r => ih r (h r)
  | hang => exact h.elim

theorem total_tryExcept {p : Prog Op Res Exn α} {g : Exn → Prog Op Res Exn α} (h : p.Total)
    (hg : ∀ e, (g e).Total) : (p.tryExcept g).Total := by
  induction p with
  | ret a => trivial
  | raise e => exact hg e
  | call o k ih => exact fun r => ih r (h r)
  | hang => exact h.elim

theorem total_ofExcept (x : Except Exn α) : (ofExcept x : Prog Op Res Exn α).Total := by
  cases x <;> trivial

theorem total_inject {f : Op → Op'} {g : (o : Op) → Except Exn (Res' (f o)) → Except Exn (Res o)}
    {p : Prog Op Res Exn α} (h : p.Total) : (p.inject f g).Total := by
  induction p with
  | ret a => trivial
  | raise e => trivial
  | call o k ih => exact fun r => ih (g o r) (h (g o r))
  | hang => exact h.elim

/-- When every operation turns out somehow, such a program comes to its end. -/
theorem exists_eval {W : Type} {f : (o : Op) → W → Option (Except Exn (Res o) × W)}
    (hf : ∀ o w, ∃ r w', f o w = some (r, w')) {p : Prog Op Res Exn α} (hp : p.Total) (w : W) :
    ∃ r w', p.eval f w = some (r, w') := by
  induction p generalizing w with
  | ret a => exact ⟨.ok a, w, rfl⟩
  | raise e => exact ⟨.error e, w, rfl⟩
  | hang => exact hp.elim
  | call o k ih =>
      obtain ⟨r, w', h⟩ := hf o w
      rw [eval, h]
      exact ih r (hp r) w'

/-! ## Logs -/

/-- An operation and how it turned out. -/
abbrev Event (Op : Type) (Res : Op → Type) (Exn : Type) : Type :=
  (o : Op) × Except Exn (Res o)

/-- `p` is `p'` after the events `t`. -/
inductive Runs (p : Prog Op Res Exn α) :
    List (Event Op Res Exn) → Prog Op Res Exn α → Prop
  | nil : Runs p [] p
  | snoc {t : List (Event Op Res Exn)} {o : Op} {k : Except Exn (Res o) → Prog Op Res Exn α}
      (h : Runs p t (.call o k)) (r : Except Exn (Res o)) : Runs p (t ++ [⟨o, r⟩]) (k r)

/-- The first event of a log. -/
theorem Runs.call_cases {o : Op} {k : Except Exn (Res o) → Prog Op Res Exn α}
    {p' : Prog Op Res Exn α} {t : List (Event Op Res Exn)} (h : Runs (.call o k) t p') :
    (t = [] ∧ p' = .call o k) ∨ ∃ r t', t = ⟨o, r⟩ :: t' ∧ Runs (k r) t' p' := by
  induction h with
  | nil => exact Or.inl ⟨rfl, rfl⟩
  | @snoc t o' k' h r ih =>
      refine Or.inr ?_
      rcases ih with ⟨rfl, heq⟩ | ⟨r₁, t', rfl, h'⟩
      · cases heq
        exact ⟨r, [], rfl, .nil⟩
      · exact ⟨r₁, t' ++ [⟨o', r⟩], rfl, h'.snoc r⟩

/-- Every operation in the log of a program is one it can call. -/
theorem only_runs {p p' : Prog Op Res Exn α} {t : List (Event Op Res Exn)} (hp : p.Only P)
    (h : Runs p t p') : p'.Only P ∧ ∀ e ∈ t, P e.1 := by
  induction h with
  | nil => exact ⟨hp, fun e he => absurd he List.not_mem_nil⟩
  | snoc _ r ih =>
      obtain ⟨⟨ho, hk⟩, ht⟩ := ih
      refine ⟨hk r, fun e he => ?_⟩
      rcases List.mem_append.mp he with he | he
      · exact ht e he
      · rw [List.mem_singleton.mp he]
        exact ho

/-- What the operations a program calls keep, it keeps. -/
theorem only_inv {W : Type} {f : (o : Op) → W → Option (Except Exn (Res o) × W)} {I : W → Prop}
    (hf : ∀ o w r w', P o → I w → f o w = some (r, w') → I w') {p : Prog Op Res Exn α}
    (hp : p.Only P) {w w' : W} {r : Except Exn α} (hw : I w) (h : p.eval f w = some (r, w')) :
    I w' := by
  induction p generalizing w with
  | ret a =>
      obtain ⟨-, rfl⟩ := h
      exact hw
  | raise e =>
      obtain ⟨-, rfl⟩ := h
      exact hw
  | hang => exact absurd h (by simp [eval])
  | call o k ih =>
      rw [eval] at h
      cases hx : f o w with
      | none =>
          rw [hx] at h
          exact absurd h (by simp)
      | some rw' =>
          rw [hx] at h
          exact ih rw'.1 (hp.2 rw'.1) (hf o w rw'.1 rw'.2 hp.1 hw hx) h

/-- A program that only calls operations that leave something alone leaves it alone. -/
theorem only_eval {W V : Type} {f : (o : Op) → W → Option (Except Exn (Res o) × W)} (π : W → V)
    (hf : ∀ o w r w', P o → f o w = some (r, w') → π w' = π w) {p : Prog Op Res Exn α}
    (hp : p.Only P) {w w' : W} {r : Except Exn α} (h : p.eval f w = some (r, w')) :
    π w' = π w :=
  only_inv (I := fun v => π v = π w) (fun o v r v' ho hv hx => (hf o v r v' ho hx).trans hv) hp rfl h

end Prog

namespace Setting

variable {Op : Type} {Res : Op → Type} {Exn : Type} {α β : Type}

/-- A pure computation: its value is known afterwards, and so is its failure. -/
theorem spec_ofExcept_bind {W : Type} {S : Setting Op Res Exn W} {A E : W → Prop}
    {x : Except Exn α} {f : α → Prog Op Res Exn β} {C : β → W → Prop} (hA : S.Settled A)
    (herr : ∀ e, x = .error e → ∀ w, A w → E w) (hok : ∀ a, x = .ok a → S.Spec A (f a) C E) :
    S.Spec A ((Prog.ofExcept x).bind f) C E := by
  cases x with
  | error e => exact spec_raise hA (herr e rfl)
  | ok a => exact hok a rfl

/-- A program that only calls operations that keep an assertion keeps it. -/
theorem spec_kept {W : Type} {S : Setting Op Res Exn W} {P : Op → Prop} {A : W → Prop}
    (hA : S.Settled A)
    (hkept : ∀ o w r w', P o → A w → S.exec o w r w' → S.guar w w' ∧ A w')
    {p : Prog Op Res Exn α} (h : p.Only P) : S.Spec A p (fun _ => A) A := by
  induction p with
  | ret a => exact spec_ret hA fun _ hw => hw
  | raise e => exact spec_raise hA fun _ hw => hw
  | hang => exact spec_hang hA
  | call o k ih =>
      intro w hw w' hd
      have hw' : A w' := hA.drift hw hd
      refine ⟨hA.safe w' hw', fun r w'' he => ?_⟩
      obtain ⟨hg, hw''⟩ := hkept o w' r w'' h.1 hw' he
      exact ⟨hg, ih r (h.2 r) w'' hw''⟩

section Inject

variable {Op' : Type} {Res' : Op' → Type} {W : Type}

/-- The setting of a program whose operations are some of those of a larger one. -/
def within (S : Setting Op' Res' Exn W) (f : Op → Op')
    (g : (o : Op) → Except Exn (Res' (f o)) → Except Exn (Res o)) : Setting Op Res Exn W where
  exec o w r w' := ∃ r', r = g o r' ∧ S.exec (f o) w r' w'
  env := S.env
  guar := S.guar
  inv := S.inv

/-- What is proved of the program there holds of it here. -/
theorem spec_inject {S : Setting Op' Res' Exn W} {f : Op → Op'}
    {g : (o : Op) → Except Exn (Res' (f o)) → Except Exn (Res o)} {p : Prog Op Res Exn α}
    {A E : W → Prop} {B : α → W → Prop} (h : (S.within f g).Spec A p B E) :
    S.Spec A (p.inject f g) B E := by
  intro w hw
  have hp := h w hw
  clear h hw
  induction p generalizing w with
  | ret a => exact hp
  | raise e => exact hp
  | hang => exact hp
  | call o k ih =>
      intro w' hd
      obtain ⟨hinv, hk⟩ := hp w' hd
      refine ⟨hinv, fun r w'' he => ?_⟩
      obtain ⟨hg, hw⟩ := hk (g o r) w'' ⟨r, rfl, he⟩
      exact ⟨hg, ih (g o r) w'' hw⟩

/-- The same for a setting that describes the smaller program on its own. -/
theorem wp_inject {S : Setting Op' Res' Exn W} {T : Setting Op Res Exn W} {f : Op → Op'}
    {g : (o : Op) → Except Exn (Res' (f o)) → Except Exn (Res o)}
    (hexec : ∀ o w r w', S.exec (f o) w r w' → T.exec o w (g o r) w')
    (henv : ∀ w w', S.env w w' → T.env w w') (hguar : ∀ w w', T.guar w w' → S.guar w w')
    (hinv : ∀ w, T.inv w → S.inv w) {p : Prog Op Res Exn α} {Q : Except Exn α → W → Prop}
    {w : W} (h : T.wp p Q w) : S.wp (p.inject f g) Q w := by
  have hdrift : ∀ w w', S.Drift w w' → T.Drift w w' :=
    fun _ _ hd => Relation.ReflTransGen.mono henv _ _ hd
  induction p generalizing w with
  | ret a => exact fun w' hd => ⟨hinv _ (h w' (hdrift _ _ hd)).1, (h w' (hdrift _ _ hd)).2⟩
  | raise e => exact fun w' hd => ⟨hinv _ (h w' (hdrift _ _ hd)).1, (h w' (hdrift _ _ hd)).2⟩
  | hang => exact fun w' hd => hinv _ (h w' (hdrift _ _ hd))
  | call o k ih =>
      intro w' hd
      obtain ⟨hw, hk⟩ := h w' (hdrift _ _ hd)
      refine ⟨hinv _ hw, fun r w'' he => ?_⟩
      obtain ⟨hg, hw''⟩ := hk (g o r) w'' (hexec o w' r w'' he)
      exact ⟨hguar _ _ hg, ih (g o r) hw''⟩

end Inject

/-- **The setting whose world is the log.**  Only events that meet the condition occur, and
the log satisfies `J` at every moment. -/
def logging (meets : Prog.Event Op Res Exn → Prop) (J : List (Prog.Event Op Res Exn) → Prop) :
    Setting Op Res Exn (List (Prog.Event Op Res Exn)) where
  exec o t r t' := t' = t ++ [⟨o, r⟩] ∧ meets ⟨o, r⟩
  env _ _ := False
  guar _ _ := True
  inv := J

variable {meets : Prog.Event Op Res Exn → Prop} {J A E : List (Prog.Event Op Res Exn) → Prop}

theorem settled_logging (hA : ∀ t, A t → J t) : (logging meets J).Settled A :=
  ⟨fun _ _ _ h => h.elim, hA⟩

/-- A weakest precondition is carried along the log. -/
theorem wp_runs {p p' : Prog Op Res Exn α} {t : List (Prog.Event Op Res Exn)}
    {Q : Except Exn α → List (Prog.Event Op Res Exn) → Prop} (hp : (logging meets J).wp p Q [])
    (h : p.Runs t p') (ht : ∀ e ∈ t, meets e) : (logging meets J).wp p' Q t := by
  induction h with
  | nil => exact hp
  | @snoc t o k _ r ih =>
      have hwp := ih fun e he => ht e (List.mem_append_left _ he)
      exact (wp_call hwp ⟨rfl, ht _ (by simp)⟩).2

/-- The rule of one operation. -/
theorem spec_log {o : Op} {B : Res o → List (Prog.Event Op Res Exn) → Prop}
    (hA : ∀ t, A t → J t) (hB : ∀ a t, B a t → J t) (hE : ∀ t, E t → J t)
    (hok : ∀ t a, A t → meets ⟨o, .ok a⟩ → B a (t ++ [⟨o, .ok a⟩]))
    (herr : ∀ t e, A t → meets ⟨o, .error e⟩ → E (t ++ [⟨o, .error e⟩])) :
    (logging meets J).Spec A (.perform o) B E := by
  refine spec_perform (settled_logging hA) (fun a => settled_logging (hB a))
    (settled_logging hE) ?_
  rintro t r t' ht ⟨rfl, hr⟩
  refine ⟨trivial, ?_⟩
  cases r with
  | ok a => exact hok t a ht hr
  | error e => exact herr t e ht hr

/-- A program that only calls operations the assertion does not mind. -/
theorem spec_only {P : Op → Prop} {p : Prog Op Res Exn α} (h : p.Only P)
    (hJ : ∀ t, A t → J t) (hA : ∀ t o r, A t → P o → A (t ++ [⟨o, r⟩])) :
    (logging meets J).Spec A p (fun _ => A) A := by
  refine spec_kept (settled_logging hJ) ?_ h
  rintro o t r t' ho ht ⟨rfl, -⟩
  exact ⟨trivial, hA t o r ht ho⟩

end Setting
