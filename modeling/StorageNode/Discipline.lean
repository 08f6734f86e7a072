/-
# Programs that keep to a discipline

What a program may call depends on what it has called so far: a file is read while it is
open, a lock is given back while it is held.  A discipline is an automaton that says so.

* `Discipline`, `Discipline.Obeys` : the automaton, and the programs that keep to it and
  say what holds when they return and when they raise;
* `obeys_bind`, `obeys_tryExcept`, `obeys_tryFinally` : the rules;
* `Discipline.obeys_reaches` : threads that keep to a discipline still do so after any run,
  and the world agrees with where each of them stands.
-/
import StorageNode.ThreadPool

/-- Which operations a program may call, what an operation may answer, and where each
answer takes the program. -/
structure Discipline (Op : Type) (Res : Op → Type) (Exn S : Type) where
  allows : S → Op → Prop
  gives : (o : Op) → Except Exn (Res o) → Prop
  next : S → (o : Op) → Except Exn (Res o) → S

namespace Discipline

variable {Op : Type} {Res : Op → Type} {Exn S α β : Type} (D : Discipline Op Res Exn S)

/-- **The program keeps to the discipline**, whichever answers the operations give: it
calls what is allowed, meets `Q` when it returns and `E` when it raises, and is never out
of fuel. -/
def Obeys (Q : α → S → Prop) (E : Exn → S → Prop) : Prog Op Res Exn α → S → Prop
  | .ret a, s => Q a s
  | .raise e, s => E e s
  | .hang, _ => False
  | .call o k, s => D.allows s o ∧ ∀ r, D.gives o r → Obeys Q E (k r) (D.next s o r)

section Rules

variable {D} {Q : α → S → Prop} {E : Exn → S → Prop} {p : Prog Op Res Exn α} {s : S}

theorem obeys_mono {Q' : α → S → Prop} {E' : Exn → S → Prop} (h : D.Obeys Q E p s)
    (hQ : ∀ a s, Q a s → Q' a s) (hE : ∀ e s, E e s → E' e s) : D.Obeys Q' E' p s := by
  induction p generalizing s with
  | ret a => exact hQ a s h
  | raise e => exact hE e s h
  | hang => exact h
  | call o k ih => exact ⟨h.1, fun r hr => ih r (h.2 r hr)⟩

theorem obeys_bind {Q' : β → S → Prop} {f : α → Prog Op Res Exn β} (h : D.Obeys Q E p s)
    (hf : ∀ a s, Q a s → D.Obeys Q' E (f a) s) : D.Obeys Q' E (p.bind f) s := by
  induction p generalizing s with
  | ret a => exact hf a s h
  | raise e => exact h
  | hang => exact h
  | call o k ih => exact ⟨h.1, fun r hr => ih r (h.2 r hr)⟩

theorem obeys_tryExcept {E' : Exn → S → Prop} {g : Exn → Prog Op Res Exn α}
    (h : D.Obeys Q E p s) (hg : ∀ e s, E e s → D.Obeys Q E' (g e) s) :
    D.Obeys Q E' (p.tryExcept g) s := by
  induction p generalizing s with
  | ret a => exact h
  | raise e => exact hg e s h
  | hang => exact h
  | call o k ih => exact ⟨h.1, fun r hr => ih r (h.2 r hr)⟩

theorem obeys_tryFinally {Q' : α → S → Prop} {E' : Exn → S → Prop} {c : Prog Op Res Exn Unit}
    (h : D.Obeys Q E p s) (hQ : ∀ a s, Q a s → D.Obeys (fun _ => Q' a) E' c s)
    (hE : ∀ e s, E e s → D.Obeys (fun _ => E' e) E' c s) :
    D.Obeys Q' E' (p.tryFinally c) s := by
  induction p generalizing s with
  | ret a => exact obeys_bind (hQ a s h) fun _ _ h => h
  | raise e => exact obeys_bind (hE e s h) fun _ _ h => h
  | hang => exact h
  | call o k ih => exact ⟨h.1, fun r hr => ih r (h.2 r hr)⟩

theorem obeys_perform {o : Op} {Q : Res o → S → Prop} (ho : D.allows s o)
    (hQ : ∀ a, D.gives o (.ok a) → Q a (D.next s o (.ok a)))
    (hE : ∀ e, D.gives o (.error e) → E e (D.next s o (.error e))) :
    D.Obeys Q E (Prog.perform o) s := by
  refine ⟨ho, ?_⟩
  rintro (e | a) hr
  · exact hE e hr
  · exact hQ a hr

theorem obeys_ofExcept {x : Except Exn α} (hQ : ∀ a, x = .ok a → Q a s)
    (hE : ∀ e, x = .error e → E e s) : D.Obeys Q E (Prog.ofExcept x) s := by
  cases x with
  | ok a => exact hQ a rfl
  | error e => exact hE e rfl

end Rules

/-- **Threads keep to their discipline along every run**, and the world `Agrees` with where
each of them stands when its own allowed operations and those of the others see to that. -/
theorem obeys_reaches {ι C V W : Type} [DecidableEq ι] {P : Pool ι Op Res Exn C V W}
    {meets : Pool.Condition ι Op C W} {Agrees : ι → S → W → Prop}
    (hown : ∀ i o c s w r w', D.allows s o → Agrees i s w → P.exec i o c w = some (r, w') →
      D.gives o r ∧ Agrees i (D.next s o r) w')
    (hother : ∀ i j o c s w r w', j ≠ i → Agrees j s w → P.exec i o c w = some (r, w') →
      Agrees j s w')
    (henv : ∀ e j s w w', Agrees j s w → P.env e w = some w' → Agrees j s w')
    {Q : ι → α → S → Prop} {E : ι → Exn → S → Prop} {x x' : Pool.Conf ι Op Res Exn W α}
    (h : ∀ i, ∃ s, D.Obeys (Q i) (E i) (x.1 i) s ∧ Agrees i s x.2)
    (hr : P.Reaches meets x x') :
    ∀ i, ∃ s, D.Obeys (Q i) (E i) (x'.1 i) s ∧ Agrees i s x'.2 := by
  induction hr with
  | refl => exact h
  | tail _ hs ih =>
      intro j
      obtain ⟨s, hobeys, hagrees⟩ := ih j
      cases hs with
      | @call ps w w' i o k c r hp _ he =>
          by_cases hj : j = i
          · subst hj
            have hcall : D.Obeys (Q j) (E j) (.call o k) s := hp ▸ hobeys
            obtain ⟨hgives, hagrees'⟩ := hown j o c s w r w' hcall.1 hagrees he
            exact ⟨D.next s o r, by simpa only [Function.update_self] using hcall.2 r hgives,
              hagrees'⟩
          · exact ⟨s, by simpa only [Function.update_of_ne hj] using hobeys,
              hother i j o c s w r w' hj hagrees he⟩
      | env he => exact ⟨s, hobeys, henv _ j s _ _ hagrees he⟩

end Discipline
