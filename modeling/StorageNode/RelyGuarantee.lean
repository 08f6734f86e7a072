/-
# Rely-guarantee reasoning for program trees

The weakest-precondition calculus the later modules use.  A `Setting` is a machine
together with the invariant every configuration of a run has to satisfy and the
guarantee each operation of the program owes its surroundings.

* `Setting.wp` : the weakest precondition, by recursion on the tree and closed
  under the moves of the surroundings;
* `Setting.Triple` : `{P} p {Q}`, with one rule for each constructor;
* `Setting.Spec` : triples with a postcondition for returns and one for exceptions;
* `Setting.along` : the same program in a larger world;
* `wp_sound` : a precondition of `p` is carried along every run of `p`.
-/
import StorageNode.Prog

/-- A machine, the guarantee of the program's own operations and the invariant of
its runs. -/
structure Setting (Op : Type) (Res : Op → Type) (Exn : Type) (W : Type)
    extends Machine Op Res Exn W where
  guar : W → W → Prop
  inv : W → Prop

namespace Setting

variable {Op : Type} {Res : Op → Type} {Exn W : Type} {α β : Type}
variable (S : Setting Op Res Exn W)

/-- What the surroundings may do before the program's next step. -/
def Drift : W → W → Prop := Relation.ReflTransGen S.env

/-- **Weakest precondition.**  From `w`, whatever the surroundings do, the invariant
holds, each operation keeps the guarantee, and a program that ends does so in `Q`. -/
def wp : Prog Op Res Exn α → (Except Exn α → W → Prop) → W → Prop
  | .ret a, Q, w => ∀ w', S.Drift w w' → S.inv w' ∧ Q (.ok a) w'
  | .raise e, Q, w => ∀ w', S.Drift w w' → S.inv w' ∧ Q (.error e) w'
  | .hang, _, w => ∀ w', S.Drift w w' → S.inv w'
  | .call o k, Q, w => ∀ w', S.Drift w w' →
      S.inv w' ∧ ∀ r w'', S.exec o w' r w'' → S.guar w' w'' ∧ wp (k r) Q w''

/-- `{P} p {Q}`. -/
def Triple (P : W → Prop) (p : Prog Op Res Exn α) (Q : Except Exn α → W → Prop) : Prop :=
  ∀ w, P w → S.wp p Q w

/-- An assertion the surroundings cannot break and that implies the invariant. -/
structure Settled (P : W → Prop) : Prop where
  stable : ∀ w w', P w → S.env w w' → P w'
  safe : ∀ w, P w → S.inv w

variable {S}

theorem Settled.drift {P : W → Prop} (hP : S.Settled P) {w w' : W} (h : P w)
    (hd : S.Drift w w') : P w' := by
  induction hd with
  | refl => exact h
  | tail _ hstep ih => exact hP.stable _ _ ih hstep

theorem Settled.exists {ι : Type} {P : ι → W → Prop} (hP : ∀ i, S.Settled (P i)) :
    S.Settled (fun w => ∃ i, P i w) where
  stable := fun _ _ ⟨i, h⟩ hstep => ⟨i, (hP i).stable _ _ h hstep⟩
  safe := fun w ⟨i, h⟩ => (hP i).safe w h

/-- Surroundings that do nothing. -/
theorem drift_of_eq {w w' : W} (h : w' = w) : S.Drift w w' := by
  rw [h]
  exact .refl

/-! ## Closure properties of the weakest precondition -/

/-- The surroundings cannot break a weakest precondition. -/
theorem wp_drift {p : Prog Op Res Exn α} {Q : Except Exn α → W → Prop} {w w' : W}
    (h : S.wp p Q w) (hd : S.Drift w w') : S.wp p Q w' := by
  cases p with
  | ret a => exact fun w'' hd' => h w'' (hd.trans hd')
  | raise e => exact fun w'' hd' => h w'' (hd.trans hd')
  | call o k => exact fun w'' hd' => h w'' (hd.trans hd')
  | hang => exact fun w'' hd' => h w'' (hd.trans hd')

/-- A weakest precondition implies the invariant. -/
theorem wp_inv {p : Prog Op Res Exn α} {Q : Except Exn α → W → Prop} {w : W}
    (h : S.wp p Q w) : S.inv w := by
  cases p with
  | ret a => exact (h w .refl).1
  | raise e => exact (h w .refl).1
  | call o k => exact (h w .refl).1
  | hang => exact h w .refl

/-- The program's next operation keeps the guarantee and the rest of the tree its
precondition. -/
theorem wp_call {o : Op} {k : Except Exn (Res o) → Prog Op Res Exn α}
    {Q : Except Exn α → W → Prop} {w w' : W} {r : Except Exn (Res o)}
    (h : S.wp (.call o k) Q w) (he : S.exec o w r w') : S.guar w w' ∧ S.wp (k r) Q w' :=
  (h w .refl).2 r w' he

theorem wp_mono {p : Prog Op Res Exn α} {Q Q' : Except Exn α → W → Prop}
    (hQ : ∀ r w, Q r w → Q' r w) {w : W} (h : S.wp p Q w) : S.wp p Q' w := by
  induction p generalizing w with
  | ret a => exact fun w' hd => ⟨(h w' hd).1, hQ _ _ (h w' hd).2⟩
  | raise e => exact fun w' hd => ⟨(h w' hd).1, hQ _ _ (h w' hd).2⟩
  | call o k ih =>
      intro w' hd
      obtain ⟨hinv, hk⟩ := h w' hd
      refine ⟨hinv, fun r w'' he => ?_⟩
      obtain ⟨hg, hw⟩ := hk r w'' he
      exact ⟨hg, ih r hw⟩
  | hang => exact h

theorem wp_bind {p : Prog Op Res Exn α} {f : α → Prog Op Res Exn β}
    {R : Except Exn α → W → Prop} {Q : Except Exn β → W → Prop} {w : W}
    (h : S.wp p R w) (hf : ∀ a w', R (.ok a) w' → S.wp (f a) Q w')
    (he : ∀ e w', R (.error e) w' → Q (.error e) w') : S.wp (p.bind f) Q w := by
  induction p generalizing w with
  | ret a => exact hf a w (h w .refl).2
  | raise e => exact fun w' hd => ⟨(h w' hd).1, he e w' (h w' hd).2⟩
  | call o k ih =>
      intro w' hd
      obtain ⟨hinv, hk⟩ := h w' hd
      refine ⟨hinv, fun r w'' hexec => ?_⟩
      obtain ⟨hg, hw⟩ := hk r w'' hexec
      exact ⟨hg, ih r hw⟩
  | hang => exact h

theorem wp_tryExcept {p : Prog Op Res Exn α} {g : Exn → Prog Op Res Exn α}
    {R Q : Except Exn α → W → Prop} {w : W} (h : S.wp p R w)
    (hok : ∀ a w', R (.ok a) w' → Q (.ok a) w')
    (hg : ∀ e w', R (.error e) w' → S.wp (g e) Q w') : S.wp (p.tryExcept g) Q w := by
  induction p generalizing w with
  | ret a => exact fun w' hd => ⟨(h w' hd).1, hok a w' (h w' hd).2⟩
  | raise e => exact hg e w (h w .refl).2
  | call o k ih =>
      intro w' hd
      obtain ⟨hinv, hk⟩ := h w' hd
      refine ⟨hinv, fun r w'' hexec => ?_⟩
      obtain ⟨hgu, hw⟩ := hk r w'' hexec
      exact ⟨hgu, ih r hw⟩
  | hang => exact h

theorem wp_tryFinally {p : Prog Op Res Exn α} {c : Prog Op Res Exn Unit}
    {R Q : Except Exn α → W → Prop} {w : W} (h : S.wp p R w)
    (hok : ∀ a w', R (.ok a) w' → S.wp (c.bind fun _ => .ret a) Q w')
    (herr : ∀ e w', R (.error e) w' → S.wp (c.bind fun _ => .raise e) Q w') :
    S.wp (p.tryFinally c) Q w := by
  induction p generalizing w with
  | ret a => exact hok a w (h w .refl).2
  | raise e => exact herr e w (h w .refl).2
  | call o k ih =>
      intro w' hd
      obtain ⟨hinv, hk⟩ := h w' hd
      refine ⟨hinv, fun r w'' hexec => ?_⟩
      obtain ⟨hgu, hw⟩ := hk r w'' hexec
      exact ⟨hgu, ih r hw⟩
  | hang => exact h

/-! ## Proof rules -/

theorem triple_mono {P P' : W → Prop} {p : Prog Op Res Exn α} {Q Q' : Except Exn α → W → Prop}
    (hP : ∀ w, P' w → P w) (hQ : ∀ r w, Q r w → Q' r w) (h : S.Triple P p Q) :
    S.Triple P' p Q' :=
  fun w hw => wp_mono hQ (h w (hP w hw))

theorem triple_ret {P : W → Prop} {a : α} {Q : Except Exn α → W → Prop} (hP : S.Settled P)
    (h : ∀ w, P w → Q (.ok a) w) : S.Triple P (.ret a) Q :=
  fun _ hw w' hd => ⟨hP.safe w' (hP.drift hw hd), h w' (hP.drift hw hd)⟩

theorem triple_raise {P : W → Prop} {e : Exn} {Q : Except Exn α → W → Prop} (hP : S.Settled P)
    (h : ∀ w, P w → Q (.error e) w) : S.Triple P (.raise e) Q :=
  fun _ hw w' hd => ⟨hP.safe w' (hP.drift hw hd), h w' (hP.drift hw hd)⟩

theorem triple_hang {P : W → Prop} {Q : Except Exn α → W → Prop} (hP : S.Settled P) :
    S.Triple P .hang Q :=
  fun _ hw w' hd => hP.safe w' (hP.drift hw hd)

/-- The rule of one operation. -/
theorem triple_perform {P : W → Prop} {o : Op} {Q : Except Exn (Res o) → W → Prop}
    (hP : S.Settled P) (hQ : ∀ r, S.Settled (Q r))
    (h : ∀ w r w', P w → S.exec o w r w' → S.guar w w' ∧ Q r w') :
    S.Triple P (.perform o) Q := by
  intro w hw w' hd
  have hw' : P w' := hP.drift hw hd
  refine ⟨hP.safe w' hw', fun r w'' he => ?_⟩
  obtain ⟨hg, hq⟩ := h w' r w'' hw' he
  refine ⟨hg, ?_⟩
  cases r with
  | ok a => exact triple_ret (hQ (.ok a)) (fun _ h => h) w'' hq
  | error e => exact triple_raise (hQ (.error e)) (fun _ h => h) w'' hq

theorem triple_bind {P : W → Prop} {p : Prog Op Res Exn α} {f : α → Prog Op Res Exn β}
    {Q : Except Exn β → W → Prop} (R : Except Exn α → W → Prop) (h : S.Triple P p R)
    (hf : ∀ a, S.Triple (R (.ok a)) (f a) Q)
    (he : ∀ e w, R (.error e) w → Q (.error e) w) : S.Triple P (p.bind f) Q :=
  fun w hw => wp_bind (h w hw) hf he

theorem triple_tryFinally {P : W → Prop} {p : Prog Op Res Exn α} {c : Prog Op Res Exn Unit}
    {Q : Except Exn α → W → Prop} (R : Except Exn α → W → Prop) (h : S.Triple P p R)
    (hok : ∀ a, S.Triple (R (.ok a)) (c.bind fun _ => .ret a) Q)
    (herr : ∀ e, S.Triple (R (.error e)) (c.bind fun _ => .raise e) Q) :
    S.Triple P (p.tryFinally c) Q :=
  fun w hw => wp_tryFinally (h w hw) hok herr

theorem triple_tryExcept {P : W → Prop} {p : Prog Op Res Exn α} {g : Exn → Prog Op Res Exn α}
    {Q : Except Exn α → W → Prop} (R : Except Exn α → W → Prop) (h : S.Triple P p R)
    (hok : ∀ a w, R (.ok a) w → Q (.ok a) w)
    (hg : ∀ e, S.Triple (R (.error e)) (g e) Q) : S.Triple P (p.tryExcept g) Q :=
  fun w hw => wp_tryExcept (h w hw) hok hg

/-! ## Specifications

A postcondition in two parts: what holds when a program returned, and what holds when it
raised. -/

/-- `B a` after a return of `a`, `E` after an exception. -/
def post (B : α → W → Prop) (E : W → Prop) : Except Exn α → W → Prop
  | .ok a => B a
  | .error _ => E

theorem settled_post {B : α → W → Prop} {E : W → Prop} (hB : ∀ a, S.Settled (B a))
    (hE : S.Settled E) (r : Except Exn α) : S.Settled (post B E r) := by
  cases r with
  | ok a => exact hB a
  | error e => exact hE

variable (S) in
/-- From `A`, the program `p` returns `a` in `B a` or raises in `E`. -/
def Spec (A : W → Prop) (p : Prog Op Res Exn α) (B : α → W → Prop) (E : W → Prop) : Prop :=
  S.Triple A p (post B E)

section Spec

variable {A A' E E' : W → Prop} {B B' : α → W → Prop} {C : β → W → Prop}

theorem spec_ret {a : α} (hA : S.Settled A) (h : ∀ w, A w → B a w) : S.Spec A (.ret a) B E :=
  triple_ret hA h

theorem spec_raise {e : Exn} (hA : S.Settled A) (h : ∀ w, A w → E w) :
    S.Spec A (.raise e : Prog Op Res Exn α) B E :=
  triple_raise hA h

theorem spec_hang (hA : S.Settled A) : S.Spec A (.hang : Prog Op Res Exn α) B E :=
  triple_hang hA

theorem spec_bind {p : Prog Op Res Exn α} {f : α → Prog Op Res Exn β} (h : S.Spec A p B E)
    (hf : ∀ a, S.Spec (B a) (f a) C E) : S.Spec A (p.bind f) C E :=
  triple_bind _ h hf fun _ _ he => he

theorem spec_tryExcept {p : Prog Op Res Exn α} {g : Exn → Prog Op Res Exn α}
    (h : S.Spec A p B E) (hg : ∀ e, S.Spec E (g e) B E') : S.Spec A (p.tryExcept g) B E' :=
  triple_tryExcept _ h (fun _ _ ha => ha) hg

theorem spec_tryFinally {p : Prog Op Res Exn α} {c : Prog Op Res Exn Unit}
    (hB : ∀ a, S.Settled (B' a)) (hE : S.Settled E') (h : S.Spec A p B E)
    (hok : ∀ a, S.Spec (B a) c (fun _ => B' a) E') (herr : S.Spec E c (fun _ => E') E') :
    S.Spec A (p.tryFinally c) B' E' :=
  triple_tryFinally _ h (fun a => spec_bind (hok a) fun _ => spec_ret (hB a) fun _ hw => hw)
    fun _ => spec_bind herr fun _ => spec_raise hE fun _ hw => hw

theorem spec_mono {p : Prog Op Res Exn α} (hA : ∀ w, A' w → A w) (hB : ∀ a w, B a w → B' a w)
    (hE : ∀ w, E w → E' w) (h : S.Spec A p B E) : S.Spec A' p B' E' := by
  refine triple_mono hA ?_ h
  rintro (e | a) w hw
  · exact hE w hw
  · exact hB a w hw

/-- A case distinction on what is known before. -/
theorem spec_or {p : Prog Op Res Exn α} (h : S.Spec A p B E) (h' : S.Spec A' p B E) :
    S.Spec (fun w => A w ∨ A' w) p B E :=
  fun w hw => hw.elim (h w) (h' w)

theorem spec_exists {κ : Type} {P : κ → W → Prop} {p : Prog Op Res Exn α}
    (h : ∀ x, S.Spec (P x) p B E) : S.Spec (fun w => ∃ x, P x w) p B E :=
  fun w hw => hw.elim fun x hx => h x w hx

/-- A fact about no world may be used in the proof. -/
theorem spec_pure {c : Prop} {p : Prog Op Res Exn α} (h : c → S.Spec A p B E) :
    S.Spec (fun w => c ∧ A w) p B E :=
  fun w hw => h hw.1 w hw.2

/-- A computation whose value is known. -/
theorem spec_ofExcept {x : Except Exn α} {a : α} (hx : x = .ok a) (hA : S.Settled A) :
    S.Spec A (Prog.ofExcept x) (fun b w => b = a ∧ A w) E := by
  subst hx
  exact spec_ret hA fun w hw => ⟨rfl, hw⟩

/-- The rule of one operation. -/
theorem spec_perform {o : Op} {B : Res o → W → Prop} (hA : S.Settled A)
    (hB : ∀ a, S.Settled (B a)) (hE : S.Settled E)
    (h : ∀ w r w', A w → S.exec o w r w' → S.guar w w' ∧ post B E r w') :
    S.Spec A (.perform o) B E :=
  triple_perform hA (settled_post hB hE) h

end Spec

/-! ## Specifications that tell exceptions apart -/

/-- `B a` after a return of `a`, `E e` after an exception `e`. -/
def postExn (B : α → W → Prop) (E : Exn → W → Prop) : Except Exn α → W → Prop
  | .ok a => B a
  | .error e => E e

variable (S) in
/-- From `A`, the program `p` returns `a` in `B a` or raises `e` in `E e`. -/
def SpecExn (A : W → Prop) (p : Prog Op Res Exn α) (B : α → W → Prop) (E : Exn → W → Prop) :
    Prop :=
  S.Triple A p (postExn B E)

section SpecExn

variable {A : W → Prop} {B : α → W → Prop} {C : β → W → Prop} {E : Exn → W → Prop}
  {E' : W → Prop}

theorem specExn_ret {a : α} (hA : S.Settled A) (h : ∀ w, A w → B a w) :
    S.SpecExn A (.ret a) B E :=
  triple_ret hA h

theorem specExn_raise {e : Exn} (hA : S.Settled A) (h : ∀ w, A w → E e w) :
    S.SpecExn A (.raise e) B E :=
  triple_raise hA h

theorem specExn_bind {p : Prog Op Res Exn α} {f : α → Prog Op Res Exn β}
    (h : S.SpecExn A p B E) (hf : ∀ a, S.SpecExn (B a) (f a) C E) :
    S.SpecExn A (p.bind f) C E :=
  triple_bind _ h hf fun _ _ he => he

theorem specExn_mono {A' : W → Prop} {B' : α → W → Prop} {E₁ : Exn → W → Prop}
    {p : Prog Op Res Exn α} (hA : ∀ w, A' w → A w) (hB : ∀ a w, B a w → B' a w)
    (hE : ∀ e w, E e w → E₁ e w) (h : S.SpecExn A p B E) : S.SpecExn A' p B' E₁ := by
  refine triple_mono hA ?_ h
  rintro (e | a) w hw
  · exact hE e w hw
  · exact hB a w hw

/-- Forget which exception it was. -/
theorem specExn_of_spec {p : Prog Op Res Exn α} (h : S.Spec A p B E') :
    S.SpecExn A p B fun _ => E' := by
  refine triple_mono (fun _ hw => hw) ?_ h
  rintro (e | a) w hw
  · exact hw
  · exact hw

theorem spec_of_specExn {p : Prog Op Res Exn α} (hE : ∀ e w, E e w → E' w)
    (h : S.SpecExn A p B E) : S.Spec A p B E' := by
  refine triple_mono (fun _ hw => hw) ?_ h
  rintro (e | a) w hw
  · exact hE e w hw
  · exact hw

/-- A handler may look at the exception. -/
theorem spec_tryExcept_exn {p : Prog Op Res Exn α} {g : Exn → Prog Op Res Exn α}
    (h : S.SpecExn A p B E) (hg : ∀ e, S.Spec (E e) (g e) B E') :
    S.Spec A (p.tryExcept g) B E' :=
  triple_tryExcept _ h (fun _ _ ha => ha) hg

end SpecExn

/-! ## Programs that run alone -/

/-- The outcome of a program that runs alone satisfies its postcondition. -/
theorem wp_eval {V : Type} {f : (o : Op) → V → Option (Except Exn (Res o) × V)} (π : V → W)
    (hf : ∀ o v r v', f o v = some (r, v') → S.exec o (π v) r (π v'))
    {p : Prog Op Res Exn α} {Q : Except Exn α → W → Prop} {v v' : V} {r : Except Exn α}
    (h : S.wp p Q (π v)) (hr : p.eval f v = some (r, v')) : Q r (π v') := by
  induction p generalizing v with
  | ret a =>
      obtain ⟨rfl, rfl⟩ := hr
      exact (h _ .refl).2
  | raise e =>
      obtain ⟨rfl, rfl⟩ := hr
      exact (h _ .refl).2
  | hang => exact absurd hr (by simp [Prog.eval])
  | call o k ih =>
      rw [Prog.eval] at hr
      cases he : f o v with
      | none =>
          rw [he] at hr
          exact absurd hr (by simp)
      | some rv =>
          rw [he] at hr
          exact ih rv.1 (wp_call h (hf o v rv.1 rv.2 he)).2 hr

/-! ## A world that is part of a larger one -/

section Along

variable {V : Type} (T : Setting Op Res Exn V) (π : W → V) (frame : W → W → Prop)

/-- The setting of a program whose world is the part `π` of a larger one, of which it leaves
the rest to `frame`. -/
def along : Setting Op Res Exn W where
  exec o w r w' := T.exec o (π w) r (π w') ∧ frame w w'
  env w w' := T.Drift (π w) (π w')
  guar w w' := T.guar (π w) (π w') ∧ frame w w'
  inv w := T.inv (π w)

variable {T π frame}

theorem drift_along {w w' : W} (h : (T.along π frame).Drift w w') : T.Drift (π w) (π w') := by
  induction h with
  | refl => exact .refl
  | tail _ hstep ih => exact ih.trans hstep

/-- What is true in the small world is true in the large one. -/
theorem wp_along {p : Prog Op Res Exn α} {Q : Except Exn α → V → Prop} {w : W}
    (h : T.wp p Q (π w)) : (T.along π frame).wp p (fun r w => Q r (π w)) w := by
  induction p generalizing w with
  | ret a => exact fun w' hd => h (π w') (drift_along hd)
  | raise e => exact fun w' hd => h (π w') (drift_along hd)
  | hang => exact fun w' hd => h (π w') (drift_along hd)
  | call o k ih =>
      intro w' hd
      obtain ⟨hinv, hk⟩ := h (π w') (drift_along hd)
      refine ⟨hinv, fun r w'' he => ?_⟩
      obtain ⟨hg, hw⟩ := hk r (π w'') he.1
      exact ⟨⟨hg, he.2⟩, ih r hw⟩

end Along

/-! ## Soundness -/

/-- A step of the run keeps the weakest precondition. -/
theorem wp_step {p p' : Prog Op Res Exn α} {Q : Except Exn α → W → Prop} {w w' : W}
    (h : S.wp p Q w) (hs : S.toMachine.Step (p, w) (p', w')) : S.wp p' Q w' := by
  cases hs with
  | call he => exact (wp_call h he).2
  | env he => exact wp_drift h (.single he)

/-- **Soundness.**  A weakest precondition is carried along every run. -/
theorem wp_sound {p : Prog Op Res Exn α} {Q : Except Exn α → W → Prop} {w : W}
    {c : Prog Op Res Exn α × W} (h : S.wp p Q w) (hr : S.toMachine.Reaches (p, w) c) :
    S.wp c.1 Q c.2 := by
  induction hr with
  | refl => exact h
  | tail _ hs ih => exact wp_step ih hs

/-- A run that returns does so in the postcondition. -/
theorem wp_returns {p : Prog Op Res Exn α} {Q : Except Exn α → W → Prop} {w w' : W} {a : α}
    (h : S.wp p Q w) (hr : S.toMachine.Reaches (p, w) (.ret a, w')) : Q (.ok a) w' :=
  (wp_sound h hr w' .refl).2

/-- A run that raises does so in the postcondition. -/
theorem wp_raises {p : Prog Op Res Exn α} {Q : Except Exn α → W → Prop} {w w' : W} {e : Exn}
    (h : S.wp p Q w) (hr : S.toMachine.Reaches (p, w) (.raise e, w')) : Q (.error e) w' :=
  (wp_sound h hr w' .refl).2

end Setting
