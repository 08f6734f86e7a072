/-
# Total correctness of program trees

Weakest preconditions that also ask for progress: before each operation the program, or
its surroundings, can make a step, and a program without fuel is no longer allowed.  With
surroundings whose moves come to an end such a program inevitably ends.

* `Prog.Raises` : the program ends with no other exceptions than those of a kind;
* `Machine.twp` : the total weakest precondition;
* `Machine.Total` : from `A`, the program ends, returns in `B` or raises in `E`; one rule
  for each constructor;
* `Machine.total_inevitable` : from `A`, every run comes to such an end;
* `Setting.spec_exec` : what a partial specification of an operation says about one call.
-/
import StorageNode.Inevitable

namespace Prog

variable {Op : Type} {Res : Op → Type} {Exn α β : Type} {C : Exn → Prop}

/-- When the operations raise only exceptions in `C`, so does the program. -/
def Raises (C : Exn → Prop) : Prog Op Res Exn α → Prop
  | ret _ => True
  | raise e => C e
  | call _ k => (∀ a, Raises C (k (.ok a))) ∧ ∀ e, C e → Raises C (k (.error e))
  | hang => True

theorem raises_perform (o : Op) : Raises C (perform o : Prog Op Res Exn (Res o)) :=
  ⟨fun _ => trivial, fun _ he => he⟩

theorem raises_ofExcept {x : Except Exn α} (h : ∀ e, x = .error e → C e) :
    Raises C (ofExcept x : Prog Op Res Exn α) := by
  cases x with
  | ok a => exact trivial
  | error e => exact h e rfl

theorem raises_bind {p : Prog Op Res Exn α} {f : α → Prog Op Res Exn β} (hp : p.Raises C)
    (hf : ∀ a, (f a).Raises C) : (p.bind f).Raises C := by
  induction p with
  | ret a => exact hf a
  | raise e => exact hp
  | call o k ih => exact ⟨fun a => ih _ (hp.1 a), fun e he => ih _ (hp.2 e he)⟩
  | hang => exact trivial

end Prog

namespace Machine

variable {Op : Type} {Res : Op → Type} {Exn W α β : Type} (M : Machine Op Res Exn W)

/-- The operation can take place. -/
def Can (o : Op) (w : W) : Prop := ∃ r w', M.exec o w r w'

/-- The surroundings can move. -/
def Moves (w : W) : Prop := ∃ w', M.env w w'

/-- An assertion the surroundings cannot break. -/
def Stable (P : W → Prop) : Prop := ∀ w w', P w → M.env w w' → P w'

/-- **Total weakest precondition.**  From `w`, whatever the surroundings do, there is a
next step until the program has ended, and it ends in `Q`. -/
def twp : Prog Op Res Exn α → (Except Exn α → W → Prop) → W → Prop
  | .ret a, Q, w => ∀ w', Relation.ReflTransGen M.env w w' → Q (.ok a) w'
  | .raise e, Q, w => ∀ w', Relation.ReflTransGen M.env w w' → Q (.error e) w'
  | .hang, _, _ => False
  | .call o k, Q, w => ∀ w', Relation.ReflTransGen M.env w w' →
      (M.Can o w' ∨ M.Moves w') ∧ ∀ r w'', M.exec o w' r w'' → twp (k r) Q w''

variable {M}

theorem Stable.drift {P : W → Prop} (hP : M.Stable P) {w w' : W} (h : P w)
    (hd : Relation.ReflTransGen M.env w w') : P w' := by
  induction hd with
  | refl => exact h
  | tail _ hstep ih => exact hP _ _ ih hstep

theorem Stable.exists {κ : Type} {P : κ → W → Prop} (hP : ∀ x, M.Stable (P x)) :
    M.Stable (fun w => ∃ x, P x w) :=
  fun w w' ⟨x, h⟩ hstep => ⟨x, hP x w w' h hstep⟩

/-! ## Closure properties -/

/-- The surroundings cannot break a total weakest precondition. -/
theorem twp_drift {p : Prog Op Res Exn α} {Q : Except Exn α → W → Prop} {w w' : W}
    (h : M.twp p Q w) (hd : Relation.ReflTransGen M.env w w') : M.twp p Q w' := by
  cases p with
  | ret a => exact fun w'' hd' => h w'' (hd.trans hd')
  | raise e => exact fun w'' hd' => h w'' (hd.trans hd')
  | call o k => exact fun w'' hd' => h w'' (hd.trans hd')
  | hang => exact h

theorem twp_mono {p : Prog Op Res Exn α} {Q Q' : Except Exn α → W → Prop}
    (hQ : ∀ r w, Q r w → Q' r w) {w : W} (h : M.twp p Q w) : M.twp p Q' w := by
  induction p generalizing w with
  | ret a => exact fun w' hd => hQ _ _ (h w' hd)
  | raise e => exact fun w' hd => hQ _ _ (h w' hd)
  | call o k ih =>
      intro w' hd
      obtain ⟨hcan, hk⟩ := h w' hd
      exact ⟨hcan, fun r w'' he => ih r (hk r w'' he)⟩
  | hang => exact h

theorem twp_bind {p : Prog Op Res Exn α} {f : α → Prog Op Res Exn β}
    {R : Except Exn α → W → Prop} {Q : Except Exn β → W → Prop} {w : W}
    (h : M.twp p R w) (hf : ∀ a w', R (.ok a) w' → M.twp (f a) Q w')
    (he : ∀ e w', R (.error e) w' → Q (.error e) w') : M.twp (p.bind f) Q w := by
  induction p generalizing w with
  | ret a => exact hf a w (h w .refl)
  | raise e => exact fun w' hd => he e w' (h w' hd)
  | call o k ih =>
      intro w' hd
      obtain ⟨hcan, hk⟩ := h w' hd
      exact ⟨hcan, fun r w'' hexec => ih r (hk r w'' hexec)⟩
  | hang => exact h

theorem twp_tryExcept {p : Prog Op Res Exn α} {g : Exn → Prog Op Res Exn α}
    {R Q : Except Exn α → W → Prop} {w : W} (h : M.twp p R w)
    (hok : ∀ a w', R (.ok a) w' → Q (.ok a) w')
    (hg : ∀ e w', R (.error e) w' → M.twp (g e) Q w') : M.twp (p.tryExcept g) Q w := by
  induction p generalizing w with
  | ret a => exact fun w' hd => hok a w' (h w' hd)
  | raise e => exact hg e w (h w .refl)
  | call o k ih =>
      intro w' hd
      obtain ⟨hcan, hk⟩ := h w' hd
      exact ⟨hcan, fun r w'' hexec => ih r (hk r w'' hexec)⟩
  | hang => exact h

/-- A program that raises only exceptions in `C` ends with no other. -/
theorem twp_raises {C : Exn → Prop} (hexec : ∀ o w e w', M.exec o w (.error e) w' → C e)
    {p : Prog Op Res Exn α} {Q : Except Exn α → W → Prop} {w : W} (hp : p.Raises C)
    (h : M.twp p Q w) : M.twp p (fun r w' => Q r w' ∧ ∀ e, r = .error e → C e) w := by
  induction p generalizing w with
  | ret a => exact fun w' hd => ⟨h w' hd, fun e he => by cases he⟩
  | raise e => exact fun w' hd => ⟨h w' hd, fun e' he => by cases he; exact hp⟩
  | call o k ih =>
      intro w' hd
      obtain ⟨hcan, hk⟩ := h w' hd
      refine ⟨hcan, fun r w'' he => ih r ?_ (hk r w'' he)⟩
      cases r with
      | ok a => exact hp.1 a
      | error e => exact hp.2 e (hexec o w' e w'' he)
  | hang => exact h

/-! ## Total specifications -/

variable (M) in
/-- **From `A`, the program `p` ends**: it returns `a` in `B a` or raises in `E`. -/
def Total (A : W → Prop) (p : Prog Op Res Exn α) (B : α → W → Prop) (E : W → Prop) : Prop :=
  ∀ w, A w → M.twp p (Setting.post B E) w

section Total

variable {A A' E E' : W → Prop} {B B' : α → W → Prop} {C : β → W → Prop}

theorem total_ret {a : α} (hA : M.Stable A) (h : ∀ w, A w → B a w) : M.Total A (.ret a) B E :=
  fun _ hw w' hd => h w' (hA.drift hw hd)

theorem total_raise {e : Exn} (hA : M.Stable A) (h : ∀ w, A w → E w) :
    M.Total A (.raise e : Prog Op Res Exn α) B E :=
  fun _ hw w' hd => h w' (hA.drift hw hd)

theorem total_bind {p : Prog Op Res Exn α} {f : α → Prog Op Res Exn β} (h : M.Total A p B E)
    (hf : ∀ a, M.Total (B a) (f a) C E) : M.Total A (p.bind f) C E :=
  fun w hw => twp_bind (h w hw) (fun a w' => hf a w') fun _ _ he => he

theorem total_tryExcept {p : Prog Op Res Exn α} {g : Exn → Prog Op Res Exn α}
    (h : M.Total A p B E) (hg : ∀ e, M.Total E (g e) B E') : M.Total A (p.tryExcept g) B E' :=
  fun w hw => twp_tryExcept (h w hw) (fun _ _ ha => ha) fun e w' => hg e w'

/-- The handler sees no other exceptions than those the body raises. -/
theorem total_tryExcept_raises {C : Exn → Prop}
    (hexec : ∀ o w e w', M.exec o w (.error e) w' → C e) {p : Prog Op Res Exn α}
    {g : Exn → Prog Op Res Exn α} (hp : p.Raises C) (h : M.Total A p B E)
    (hg : ∀ e, C e → M.Total E (g e) B E') : M.Total A (p.tryExcept g) B E' :=
  fun w hw => twp_tryExcept (twp_raises hexec hp (h w hw)) (fun _ _ ha => ha.1)
    fun e w' he => hg e (he.2 e rfl) w' he.1

theorem total_mono {p : Prog Op Res Exn α} (hA : ∀ w, A' w → A w) (hB : ∀ a w, B a w → B' a w)
    (hE : ∀ w, E w → E' w) (h : M.Total A p B E) : M.Total A' p B' E' := by
  intro w hw
  refine twp_mono ?_ (h w (hA w hw))
  rintro (e | a) w' hw'
  · exact hE w' hw'
  · exact hB a w' hw'

theorem total_exists {κ : Type} {P : κ → W → Prop} {p : Prog Op Res Exn α}
    (h : ∀ x, M.Total (P x) p B E) : M.Total (fun w => ∃ x, P x w) p B E :=
  fun w hw => hw.elim fun x hx => h x w hx

/-- A fact about no world may be used in the proof. -/
theorem total_pure {c : Prop} {p : Prog Op Res Exn α} (h : c → M.Total A p B E) :
    M.Total (fun w => c ∧ A w) p B E :=
  fun w hw => h hw.1 w hw.2

/-- **The rule of one operation**: the operation can take place, or the surroundings can
move. -/
theorem total_perform {o : Op} {B : Res o → W → Prop} (hA : M.Stable A)
    (hB : ∀ a, M.Stable (B a)) (hE : M.Stable E) (hcan : ∀ w, A w → M.Can o w ∨ M.Moves w)
    (h : ∀ w r w', A w → M.exec o w r w' → Setting.post B E r w') :
    M.Total A (.perform o) B E := by
  intro w hw w' hd
  have hw' : A w' := hA.drift hw hd
  refine ⟨hcan w' hw', fun r w'' he => ?_⟩
  have hq := h w' r w'' hw' he
  cases r with
  | ok a => exact total_ret (hB a) (fun _ h => h) w'' hq
  | error e => exact total_raise hE (fun _ h => h) w'' hq

end Total

/-! ## Soundness -/

/-- The program has ended, in `Q`. -/
def EndedIn (Q : Except Exn α → W → Prop) (c : Prog Op Res Exn α × W) : Prop :=
  ∃ r, c.1 = Prog.ofExcept r ∧ Q r c.2

/-- A step keeps the total weakest precondition. -/
theorem twp_step {Q : Except Exn α → W → Prop} {c c' : Prog Op Res Exn α × W}
    (h : M.twp c.1 Q c.2) (hs : M.Step c c') : M.twp c'.1 Q c'.2 := by
  cases hs with
  | call he => exact (h _ .refl).2 _ _ he
  | env he => exact twp_drift h (.single he)

/-- A program with a total weakest precondition has ended or can make a step. -/
theorem twp_progress {Q : Except Exn α → W → Prop} {c : Prog Op Res Exn α × W}
    (h : M.twp c.1 Q c.2) : EndedIn Q c ∨ ∃ c', M.Step c c' := by
  obtain ⟨p, w⟩ := c
  cases p with
  | ret a => exact Or.inl ⟨.ok a, rfl, h w .refl⟩
  | raise e => exact Or.inl ⟨.error e, rfl, h w .refl⟩
  | hang => exact h.elim
  | call o k =>
      rcases (h w .refl).1 with ⟨r, w', he⟩ | ⟨w', he⟩
      · exact Or.inr ⟨_, .call he⟩
      · exact Or.inr ⟨_, .env he⟩

/-- **Soundness.**  With surroundings whose moves come to an end, every run from `A` comes
to a return in `B` or an exception in `E`. -/
theorem total_inevitable {A E : W → Prop} {B : α → W → Prop} {p : Prog Op Res Exn α}
    (henv : WellFounded fun w' w => M.env w w') (h : M.Total A p B E) {w : W} (hw : A w) :
    Inevitably M.Step (EndedIn (Setting.post B E)) (p, w) := by
  refine inevitably_of_progress (M.wf_step henv) fun c hr => ?_
  have hc : M.twp c.1 (Setting.post B E) c.2 := by
    induction hr with
    | refl => exact h w hw
    | tail _ hs ih => exact twp_step ih hs
  exact twp_progress hc

end Machine

namespace Setting

variable {Op : Type} {Res : Op → Type} {Exn W : Type} {S : Setting Op Res Exn W}

/-- What a partial specification of an operation says about one call. -/
theorem spec_exec {A E : W → Prop} {o : Op} {B : Res o → W → Prop} {w w' : W}
    {r : Except Exn (Res o)} (h : S.Spec A (.perform o) B E) (hw : A w)
    (he : S.exec o w r w') : post B E r w' := by
  have hk := (wp_call (h w hw) he).2
  cases r with
  | ok a => exact (hk w' .refl).2
  | error e => exact (hk w' .refl).2

end Setting
