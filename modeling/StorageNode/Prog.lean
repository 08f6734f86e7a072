/-
# Program trees

A sequential program with effects and exceptions, as a finite tree: it returns,
it raises, or it calls an operation and goes on with the outcome.  The tree names
no world: an interpretation of the operations (`Machine`) is chosen by each
development that runs it, so one program text can be run against a conforming
peer, against an arbitrary one, or next to other threads.

* `Prog.bind`, `Prog.tryExcept`, `Prog.tryFinally` : sequencing and handlers;
* `Prog.eval` : the outcome of a program that runs alone;
* `Machine`, `Machine.Step`, `Machine.Reaches` : small steps of one program and
  its surroundings.

A loop of the source is a recursion on a fuel argument; a program without fuel is
`Prog.hang`, which never takes a step, so the runs with fuel `n` are the runs of
the loop with at most `n` rounds.
-/
import Mathlib

/-- A program over the operations `Op`, where `o : Op` answers with a value of
type `Res o` or raises an exception of type `Exn`. -/
inductive Prog (Op : Type) (Res : Op → Type) (Exn : Type) (α : Type) : Type
  | ret (a : α)
  | raise (e : Exn)
  | call (o : Op) (k : Except Exn (Res o) → Prog Op Res Exn α)
  | hang

namespace Prog

variable {Op : Type} {Res : Op → Type} {Exn : Type} {α β γ : Type}

/-- Run `p`, then `f` on its value.  An exception of `p` skips `f`. -/
def bind : Prog Op Res Exn α → (α → Prog Op Res Exn β) → Prog Op Res Exn β
  | ret a, f => f a
  | raise e, _ => raise e
  | call o k, f => call o (fun r => (k r).bind f)
  | hang, _ => hang

instance : Monad (Prog Op Res Exn) where
  pure := ret
  bind := bind

/-- Call one operation and return its answer. -/
def perform (o : Op) : Prog Op Res Exn (Res o) :=
  call o (fun
    | .ok a => ret a
    | .error e => raise e)

/-- `try: p except ...: h`.  A handler that does not name the exception raises
it again. -/
def tryExcept : Prog Op Res Exn α → (Exn → Prog Op Res Exn α) → Prog Op Res Exn α
  | ret a, _ => ret a
  | raise e, h => h e
  | call o k, h => call o (fun r => (k r).tryExcept h)
  | hang, _ => hang

/-- `try: p finally: c`.  The outcome is that of `p` unless `c` raises. -/
def tryFinally : Prog Op Res Exn α → Prog Op Res Exn Unit → Prog Op Res Exn α
  | ret a, c => c.bind (fun _ => ret a)
  | raise e, c => c.bind (fun _ => raise e)
  | call o k, c => call o (fun r => (k r).tryFinally c)
  | hang, _ => hang

/-- A pure computation that may raise. -/
def ofExcept : Except Exn α → Prog Op Res Exn α
  | .ok a => ret a
  | .error e => raise e

@[simp] theorem pure_eq (a : α) : (pure a : Prog Op Res Exn α) = ret a := rfl

@[simp] theorem bind_eq (p : Prog Op Res Exn α) (f : α → Prog Op Res Exn β) :
    (p >>= f) = p.bind f := rfl

@[simp] theorem ret_bind (a : α) (f : α → Prog Op Res Exn β) : (ret a).bind f = f a := rfl

@[simp] theorem raise_bind (e : Exn) (f : α → Prog Op Res Exn β) :
    (raise e : Prog Op Res Exn α).bind f = raise e := rfl

theorem bind_ret (p : Prog Op Res Exn α) : p.bind ret = p := by
  induction p with
  | ret a => rfl
  | raise e => rfl
  | call o k ih => exact congrArg (call o) (funext ih)
  | hang => rfl

theorem bind_assoc (p : Prog Op Res Exn α) (f : α → Prog Op Res Exn β)
    (g : β → Prog Op Res Exn γ) : (p.bind f).bind g = p.bind (fun a => (f a).bind g) := by
  induction p with
  | ret a => rfl
  | raise e => rfl
  | call o k ih => exact congrArg (call o) (funext ih)
  | hang => rfl

end Prog

/-! ## Runs of one program alone -/

namespace Prog

variable {Op : Type} {Res : Op → Type} {Exn W : Type} {α β : Type}

/-- The program has returned a value that passes a test. -/
def returns (p : Prog Op Res Exn α) (test : α → Bool) : Bool :=
  match p with
  | ret a => test a
  | _ => false

/-- The program has returned or raised. -/
def ended : Prog Op Res Exn α → Bool
  | ret _ => true
  | raise _ => true
  | _ => false

/-- The operation the program calls next. -/
def nextOp : Prog Op Res Exn α → Option Op
  | call o _ => some o
  | _ => none

theorem eq_ret_of_returns {p : Prog Op Res Exn α} {test : α → Bool}
    (h : p.returns test = true) : ∃ a, p = ret a ∧ test a = true := by
  cases p with
  | ret a => exact ⟨a, rfl, h⟩
  | raise e => exact absurd h Bool.false_ne_true
  | call o k => exact absurd h Bool.false_ne_true
  | hang => exact absurd h Bool.false_ne_true

/-- Run a program with nothing beside it; `f` says how each operation turns out.  There is
no result when an operation blocks or the fuel is used up. -/
def eval (f : (o : Op) → W → Option (Except Exn (Res o) × W)) :
    Prog Op Res Exn α → W → Option (Except Exn α × W)
  | ret a, w => some (.ok a, w)
  | raise e, w => some (.error e, w)
  | call o k, w =>
      match f o w with
      | some (r, w') => (k r).eval f w'
      | none => none
  | hang, _ => none

variable {f : (o : Op) → W → Option (Except Exn (Res o) × W)}

theorem eval_perform (o : Op) (w : W) :
    (perform o : Prog Op Res Exn (Res o)).eval f w = f o w := by
  simp only [perform, eval]
  cases h : f o w with
  | none => rfl
  | some rw =>
      obtain ⟨r, w'⟩ := rw
      cases r <;> rfl

theorem eval_bind (p : Prog Op Res Exn α) (g : α → Prog Op Res Exn β) (w : W) :
    (p.bind g).eval f w =
      match p.eval f w with
      | some (.ok a, w') => (g a).eval f w'
      | some (.error e, w') => some (.error e, w')
      | none => none := by
  induction p generalizing w with
  | ret a => rfl
  | raise e => rfl
  | call o k ih =>
      simp only [bind, eval]
      cases f o w with
      | none => rfl
      | some rw => exact ih rw.1 rw.2
  | hang => rfl

theorem eval_tryExcept (p : Prog Op Res Exn α) (g : Exn → Prog Op Res Exn α) (w : W) :
    (p.tryExcept g).eval f w =
      match p.eval f w with
      | some (.ok a, w') => some (.ok a, w')
      | some (.error e, w') => (g e).eval f w'
      | none => none := by
  induction p generalizing w with
  | ret a => rfl
  | raise e => rfl
  | call o k ih =>
      simp only [tryExcept, eval]
      cases f o w with
      | none => rfl
      | some rw => exact ih rw.1 rw.2
  | hang => rfl

theorem eval_tryFinally (p : Prog Op Res Exn α) (c : Prog Op Res Exn Unit) (w : W) :
    (p.tryFinally c).eval f w =
      match p.eval f w with
      | some (.ok a, w') => (c.bind fun _ => ret a).eval f w'
      | some (.error e, w') => (c.bind fun _ => raise e).eval f w'
      | none => none := by
  induction p generalizing w with
  | ret a => rfl
  | raise e => rfl
  | call o k ih =>
      simp only [tryFinally, eval]
      cases f o w with
      | none => rfl
      | some rw => exact ih rw.1 rw.2
  | hang => rfl

end Prog

/-! ## Runs -/

/-- An interpretation of the operations over the worlds `W`: what an operation may
answer and do, and what the surroundings of the program may do by themselves. -/
structure Machine (Op : Type) (Res : Op → Type) (Exn : Type) (W : Type) where
  exec : (o : Op) → W → Except Exn (Res o) → W → Prop
  env : W → W → Prop

namespace Machine

variable {Op : Type} {Res : Op → Type} {Exn W α : Type}

/-- One step: the program's next operation takes place, or the surroundings move. -/
inductive Step (M : Machine Op Res Exn W) :
    Prog Op Res Exn α × W → Prog Op Res Exn α × W → Prop
  | call {o : Op} {k : Except Exn (Res o) → Prog Op Res Exn α} {w w' : W}
      {r : Except Exn (Res o)} : M.exec o w r w' → Step M (.call o k, w) (k r, w')
  | env {p : Prog Op Res Exn α} {w w' : W} : M.env w w' → Step M (p, w) (p, w')

/-- The configurations a run of `p` from `w` passes through. -/
def Reaches (M : Machine Op Res Exn W) : Prog Op Res Exn α × W → Prog Op Res Exn α × W → Prop :=
  Relation.ReflTransGen M.Step

/-- A program that runs alone runs. -/
theorem reaches_of_eval {M : Machine Op Res Exn W}
    {f : (o : Op) → W → Option (Except Exn (Res o) × W)}
    (hf : ∀ o w r w', f o w = some (r, w') → M.exec o w r w') {p : Prog Op Res Exn α} {w w' : W}
    {r : Except Exn α} (h : p.eval f w = some (r, w')) :
    M.Reaches (p, w) (Prog.ofExcept r, w') := by
  induction p generalizing w with
  | ret a =>
      cases h
      exact .refl
  | raise e =>
      cases h
      exact .refl
  | hang => cases h
  | call o k ih =>
      rw [Prog.eval] at h
      cases ho : f o w with
      | none =>
          rw [ho] at h
          cases h
      | some rw =>
          rw [ho] at h
          exact .head (.call (hf o w rw.1 rw.2 ho)) (ih rw.1 h)

end Machine
