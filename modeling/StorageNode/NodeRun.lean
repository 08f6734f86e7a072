/-
# Lives of the node

A node that is started, serves requests, is killed and started again.  Every request has a
thread of its own that runs `dispatch`; at a start the recorded transfers are resumed
before the listener accepts requests (`StorageNode.initialize`, then `run`).

* `resumePending` : the entries `SessionRecovery.resume_pending` goes through;
* `NodeThread`, `NodeState`, `NodeState.next` : the state and one event of a run;
* `NodeState.Reaches` : the states of the runs whose events all meet a condition;
* `runs_of_reaches` : every thread has come where its log leads.

The answers to all operations but the ledger's are arbitrary.
-/
import StorageNode.RequestDispatcher
import StorageNode.LedgerAlone

open ConnectionLedger

/-- `data.get("connections", [])` of `resume_pending`; an unreadable file is an exception,
which is caught. -/
def resumePending (file : Option (List Char)) : List Json :=
  match readFile file with
  | .ok (.arr entries) => entries
  | _ => []

/-- How an operation turns out, and the steps of a ledger call. -/
structure NodeChoice where
  answer : (o : DispatchOp) → Except Exn o.Res
  ledger : List Choice := []

/-- A thread that dispatches a request: a recovered one or one of a client. -/
structure NodeThread where
  recovered : Bool
  request : Dict
  prog : Dispatch Unit
  log : List (Prog.Event DispatchOp DispatchOp.Res Exn) := []

/-- The thread after one of its operations. -/
def NodeThread.step (t : NodeThread) (o : DispatchOp) (r : Except Exn o.Res)
    (rest : Dispatch Unit) : NodeThread :=
  { t with prog := rest, log := t.log ++ [⟨o, r⟩] }

section Step

variable {t : NodeThread} {o : DispatchOp} {r : Except Exn o.Res} {rest : Dispatch Unit}

@[simp] theorem NodeThread.step_recovered : (t.step o r rest).recovered = t.recovered := rfl

@[simp] theorem NodeThread.step_request : (t.step o r rest).request = t.request := rfl

@[simp] theorem NodeThread.step_log : (t.step o r rest).log = t.log ++ [⟨o, r⟩] := rfl

end Step

/-- The process (`up` when it is running), the ledger file, the entries that are still to be
resumed and the threads.  The last three fields are history: the entries found at the last
start, and the calls of `register` and `unregister`, with what the latter returned. -/
structure NodeState where
  up : Bool := false
  ledger : Option (List Char)
  pending : List Json := []
  threads : List NodeThread := []
  resumed : List Json := []
  registered : List Dict := []
  unregistered : List (Dict × Except Exn Bool) := []

/-- What happens next: the process is started, resumes a transfer, accepts a request,
makes a step in one of its threads, or is killed. -/
inductive NodeEvent
  | start
  | resume (fuel : ℕ)
  | accept (raw : List Char) (fuel : ℕ)
  | thread (i : ℕ) (c : NodeChoice)
  | kill

namespace NodeState

variable (cfg : Config) (hexdigest : Bytes → String)

/-- A call of the ledger; the other operations are answered by the choice. -/
def perform (s : NodeState) (c : NodeChoice) :
    (o : DispatchOp) → Option (Except Exn o.Res × NodeState)
  | .node (.ledgerRegister entry) =>
      (runUpdate (.register entry) s.ledger c.ledger).map fun rw =>
        (rw.1, { s with ledger := rw.2.file, registered := s.registered ++ [entry] })
  | .node (.ledgerUnregister entry) =>
      (runUpdate (.unregister entry) s.ledger c.ledger).map fun rw =>
        (rw.1, { s with ledger := rw.2.file, unregistered := s.unregistered ++ [(entry, rw.1)] })
  -- nothing is assumed of sockets, files, the router and the backend
  | o => some (c.answer o, s)

/-- The thread that starts with a request. -/
def spawn (recovered : Bool) (request : Dict) (fuel : ℕ) : NodeThread :=
  { recovered := recovered
    request := request
    prog := RequestDispatcher.dispatch cfg hexdigest fuel request !recovered }

/-- **One event.** -/
def next (s : NodeState) : NodeEvent → Option NodeState
  | .start =>
      if s.up then none
      else
        -- `resume_pending` reads the ledger once, before any thread has started
        let entries := resumePending s.ledger
        some { s with up := true, pending := entries, resumed := entries, threads := [] }
  | .resume fuel =>
      match s.pending with
      -- `dict(entry)`; what is not a dictionary ends the loop with an exception
      | .obj entry :: rest =>
          some { s with pending := rest, threads := s.threads ++ [spawn cfg hexdigest true entry fuel] }
      | _ :: _ => some { s with pending := [] }
      | [] => none
  | .accept raw fuel =>
      -- the listener runs after `initialize`; text that is no dictionary starts no thread
      if s.up && s.pending.isEmpty then
        match jsonLoads raw with
        | some (.obj request) =>
            some { s with threads := s.threads ++ [spawn cfg hexdigest false request fuel] }
        | _ => none
      else none
  | .thread i c =>
      match s.threads[i]? with
      | some t =>
          match t.prog with
          | .call o k =>
              (s.perform c o).map fun rs =>
                { rs.2 with threads := s.threads.set i (t.step o rs.1 (k rs.1)) }
          | _ => none
      | none => none
  -- the ledger file is all that survives
  | .kill => if s.up then some { s with up := false, pending := [], threads := [] } else none

/-- The states of the runs whose events all meet the condition. -/
def Reaches (meets : NodeState → NodeEvent → Prop) : NodeState → NodeState → Prop :=
  Relation.ReflTransGen fun s s' => ∃ ev, meets s ev ∧ s.next cfg hexdigest ev = some s'

/-- The state after a list of events. -/
def run : NodeState → List NodeEvent → Option NodeState
  | s, [] => some s
  | s, ev :: evs =>
      match s.next cfg hexdigest ev with
      | some s' => run s' evs
      | none => none

/-- What is needed to run a list of events under a condition. -/
def AllMeet (meets : NodeState → NodeEvent → Prop) : NodeState → List NodeEvent → Prop
  | _, [] => True
  | s, ev :: evs => meets s ev ∧ ∀ s', s.next cfg hexdigest ev = some s' → AllMeet meets s' evs

variable {cfg hexdigest}

/-- A computed run is a run. -/
theorem reaches_of_run {meets : NodeState → NodeEvent → Prop} {s s' : NodeState}
    {evs : List NodeEvent} (hmeets : AllMeet cfg hexdigest meets s evs)
    (h : s.run cfg hexdigest evs = some s') : Reaches cfg hexdigest meets s s' := by
  induction evs generalizing s with
  | nil =>
      rw [run, Option.some.injEq] at h
      exact h ▸ .refl
  | cons ev evs ih =>
      rw [run] at h
      cases hn : s.next cfg hexdigest ev with
      | none =>
          rw [hn] at h
          exact absurd h (by simp)
      | some s₁ =>
          rw [hn] at h
          exact .head ⟨ev, hmeets.1, hn⟩ (ih (hmeets.2 s₁ hn) h)

/-- A computed run whose last state passes a test. -/
theorem exists_of_run (cfg : Config) (hexdigest : Bytes → String)
    {meets : NodeState → NodeEvent → Prop} {s : NodeState} {evs : List NodeEvent}
    (hmeets : AllMeet cfg hexdigest meets s evs) (p : NodeState → Bool)
    (h : (s.run cfg hexdigest evs).any p = true) :
    ∃ s', Reaches cfg hexdigest meets s s' ∧ p s' = true := by
  cases hr : s.run cfg hexdigest evs with
  | none =>
      rw [hr] at h
      exact absurd h (by simp)
  | some s' =>
      rw [hr] at h
      exact ⟨s', reaches_of_run hmeets hr, h⟩

/-- A test of every event of a computed run. -/
def allTest (cfg : Config) (hexdigest : Bytes → String) (test : NodeState → NodeEvent → Bool) :
    NodeState → List NodeEvent → Bool
  | _, [] => true
  | s, ev :: evs => test s ev && (s.next cfg hexdigest ev).all (allTest cfg hexdigest test · evs)

/-- The condition holds of the events that pass a test for it. -/
theorem allMeet_of_test {meets : NodeState → NodeEvent → Prop}
    {test : NodeState → NodeEvent → Bool} (htest : ∀ s ev, test s ev = true → meets s ev)
    {s : NodeState} {evs : List NodeEvent} (h : allTest cfg hexdigest test s evs = true) :
    AllMeet cfg hexdigest meets s evs := by
  induction evs generalizing s with
  | nil => trivial
  | cons ev evs ih =>
      rw [allTest, Bool.and_eq_true] at h
      refine ⟨htest s ev h.1, fun s' hs' => ih ?_⟩
      have hall := h.2
      rw [hs', Option.all_some] at hall
      exact hall

/-- Without a condition every list of events is admitted. -/
theorem allMeet_of_forall {meets : NodeState → NodeEvent → Prop} (h : ∀ s ev, meets s ev)
    (s : NodeState) (evs : List NodeEvent) : AllMeet cfg hexdigest meets s evs := by
  induction evs generalizing s with
  | nil => trivial
  | cons ev evs ih => exact ⟨h s ev, fun s' _ => ih s'⟩

/-- The operations of other modules leave the ledger alone. -/
theorem perform_cases {s s' : NodeState} {c : NodeChoice} {o : DispatchOp} {r : Except Exn o.Res}
    (h : s.perform c o = some (r, s')) :
    (∃ entry b w, o = .node (.ledgerRegister entry) ∧ HEq r b ∧
        runUpdate (.register entry) s.ledger c.ledger = some (b, w) ∧
        s' = { s with ledger := w.file, registered := s.registered ++ [entry] }) ∨
      (∃ entry b w, o = .node (.ledgerUnregister entry) ∧ HEq r b ∧
        runUpdate (.unregister entry) s.ledger c.ledger = some (b, w) ∧
        s' = { s with ledger := w.file, unregistered := s.unregistered ++ [(entry, b)] }) ∨
      ((∀ entry, o ≠ .node (.ledgerRegister entry)) ∧
        (∀ entry, o ≠ .node (.ledgerUnregister entry)) ∧ r = c.answer o ∧ s' = s) := by
  have hother : ∀ {o : DispatchOp} {r : Except Exn o.Res}, some (c.answer o, s) = some (r, s') →
      r = c.answer o ∧ s' = s := by
    intro o r h
    simp only [Option.some.injEq, Prod.mk.injEq] at h
    exact ⟨h.1.symm, h.2.symm⟩
  cases o with
  | node o =>
      cases o with
      | ledgerRegister entry =>
          obtain ⟨⟨b, w⟩, hrun, heq⟩ := Option.map_eq_some_iff.mp h
          simp only [Prod.mk.injEq] at heq
          obtain ⟨rfl, rfl⟩ := heq
          exact Or.inl ⟨entry, b, w, rfl, HEq.rfl, hrun, rfl⟩
      | ledgerUnregister entry =>
          obtain ⟨⟨b, w⟩, hrun, heq⟩ := Option.map_eq_some_iff.mp h
          simp only [Prod.mk.injEq] at heq
          obtain ⟨rfl, rfl⟩ := heq
          exact Or.inr (Or.inl ⟨entry, b, w, rfl, HEq.rfl, hrun, rfl⟩)
      | _ => exact Or.inr (Or.inr ⟨by simp, by simp, hother h⟩)
  | _ => exact Or.inr (Or.inr ⟨by simp, by simp, hother h⟩)

/-- What a step of a thread does. -/
theorem next_thread {s s' : NodeState} {i : ℕ} {c : NodeChoice}
    (h : s.next cfg hexdigest (.thread i c) = some s') :
    ∃ (t : NodeThread) (o : DispatchOp) (k : Except Exn o.Res → Dispatch Unit)
      (r : Except Exn o.Res) (s₁ : NodeState),
      s.threads[i]? = some t ∧ t.prog = .call o k ∧ s.perform c o = some (r, s₁) ∧
        s' = { s₁ with threads := s.threads.set i (t.step o r (k r)) } := by
  simp only [next] at h
  split at h
  · next t ht =>
      split at h
      · next o k hp =>
          obtain ⟨⟨r, s₁⟩, hperform, rfl⟩ := Option.map_eq_some_iff.mp h
          exact ⟨t, o, k, r, s₁, ht, hp, hperform, rfl⟩
      · exact absurd h (by simp)
  · exact absurd h (by simp)

/-- What the other events do. -/
theorem next_start {s s' : NodeState} (h : s.next cfg hexdigest .start = some s') :
    s.up = false ∧ s' = { s with up := true, pending := resumePending s.ledger,
                                 resumed := resumePending s.ledger, threads := [] } := by
  simp only [next, Option.ite_none_left_eq_some, Option.some.injEq, Bool.not_eq_true] at h
  exact ⟨h.1, h.2.symm⟩

theorem next_resume {s s' : NodeState} {fuel : ℕ}
    (h : s.next cfg hexdigest (.resume fuel) = some s') :
    (∃ entry rest, s.pending = .obj entry :: rest ∧
        s' = { s with pending := rest
                      threads := s.threads ++ [spawn cfg hexdigest true entry fuel] }) ∨
      (∃ v rest, s.pending = v :: rest ∧ (∀ entry, v ≠ .obj entry) ∧
        s' = { s with pending := [] }) := by
  simp only [next] at h
  split at h
  · next entry rest hp => exact Or.inl ⟨entry, rest, hp, (Option.some.inj h).symm⟩
  · next v rest hv hp => exact Or.inr ⟨v, rest, hp, hv, (Option.some.inj h).symm⟩
  · exact absurd h (by simp)

theorem next_accept {s s' : NodeState} {raw : List Char} {fuel : ℕ}
    (h : s.next cfg hexdigest (.accept raw fuel) = some s') :
    s.up = true ∧ s.pending = [] ∧ ∃ request, jsonLoads raw = some (.obj request) ∧
      s' = { s with threads := s.threads ++ [spawn cfg hexdigest false request fuel] } := by
  simp only [next, Option.ite_none_right_eq_some, Bool.and_eq_true, List.isEmpty_iff] at h
  obtain ⟨⟨hup, hpending⟩, h⟩ := h
  split at h
  · next request hload => exact ⟨hup, hpending, request, hload, (Option.some.inj h).symm⟩
  · exact absurd h (by simp)

theorem next_kill {s s' : NodeState} (h : s.next cfg hexdigest .kill = some s') :
    s.up = true ∧ s' = { s with up := false, pending := [], threads := [] } := by
  simp only [next, Option.ite_none_right_eq_some, Option.some.injEq] at h
  exact ⟨h.1, h.2.symm⟩

/-- A ledger call touches neither the threads nor what has been resumed. -/
theorem perform_frame {s s' : NodeState} {c : NodeChoice} {o : DispatchOp} {r : Except Exn o.Res}
    (h : s.perform c o = some (r, s')) :
    s'.up = s.up ∧ s'.pending = s.pending ∧ s'.threads = s.threads ∧ s'.resumed = s.resumed := by
  rcases perform_cases h with ⟨entry, b, w, -, -, -, hs⟩ | ⟨entry, b, w, -, -, -, hs⟩ | ⟨-, -, -, rfl⟩
  · rw [hs]
    exact ⟨rfl, rfl, rfl, rfl⟩
  · rw [hs]
    exact ⟨rfl, rfl, rfl, rfl⟩
  · exact ⟨rfl, rfl, rfl, rfl⟩

/-! ## What holds of every thread -/

/-- **A property of the threads** that holds when they start and that their steps keep. -/
theorem forall_threads {meets : NodeState → NodeEvent → Prop} {P : NodeThread → Prop}
    (hresume : ∀ entry fuel, P (spawn cfg hexdigest true entry fuel))
    (haccept : ∀ s raw request fuel, meets s (.accept raw fuel) →
      jsonLoads raw = some (.obj request) → P (spawn cfg hexdigest false request fuel))
    (hstep : ∀ s s₁ i c t o k r, meets s (.thread i c) → s.threads[i]? = some t → P t →
      t.prog = .call o k → s.perform c o = some (r, s₁) →
      P (t.step o r (k r)))
    {s s' : NodeState} (h : Reaches cfg hexdigest meets s s') (hs : s.threads = []) :
    ∀ t ∈ s'.threads, P t := by
  induction h with
  | refl =>
      rw [hs]
      exact fun t ht => absurd ht List.not_mem_nil
  | @tail s₁ s₂ _ hev ih =>
      obtain ⟨ev, hmeets, hnext⟩ := hev
      cases ev with
      | start =>
          obtain ⟨-, rfl⟩ := next_start hnext
          exact fun t ht => absurd ht List.not_mem_nil
      | resume fuel =>
          rcases next_resume hnext with ⟨entry, rest, -, rfl⟩ | ⟨v, rest, -, -, rfl⟩
          · intro t ht
            rcases List.mem_append.mp ht with ht | ht
            · exact ih t ht
            · rw [List.mem_singleton.mp ht]
              exact hresume entry fuel
          · exact ih
      | accept raw fuel =>
          obtain ⟨-, -, request, hload, rfl⟩ := next_accept hnext
          intro t ht
          rcases List.mem_append.mp ht with ht | ht
          · exact ih t ht
          · rw [List.mem_singleton.mp ht]
            exact haccept s₁ raw request fuel hmeets hload
      | thread i c =>
          obtain ⟨t, o, k, r, s₃, ht, hp, hperform, rfl⟩ := next_thread hnext
          intro t' ht'
          rcases List.mem_or_eq_of_mem_set ht' with ht' | rfl
          · exact ih t' ht'
          · exact hstep s₁ s₃ i c t o k r hmeets ht (ih t (List.mem_of_getElem? ht)) hp hperform
      | kill =>
          obtain ⟨-, rfl⟩ := next_kill hnext
          exact fun t ht => absurd ht List.not_mem_nil

/-- Every thread has come where its log leads. -/
theorem runs_of_reaches {meets : NodeState → NodeEvent → Prop} {s s' : NodeState}
    (h : Reaches cfg hexdigest meets s s') (hs : s.threads = []) :
    ∀ t ∈ s'.threads, ∃ fuel,
      (RequestDispatcher.dispatch cfg hexdigest fuel t.request !t.recovered).Runs t.log t.prog := by
  refine forall_threads (fun entry fuel => ⟨fuel, .nil⟩) (fun _ _ request fuel _ _ => ⟨fuel, .nil⟩)
    ?_ h hs
  rintro s s₁ i c t o k r - - ⟨fuel, hruns⟩ hp -
  rw [hp] at hruns
  exact ⟨fuel, hruns.snoc r⟩

/-- What is resumed has been found in the ledger at the last start. -/
theorem resumed_of_reaches {meets : NodeState → NodeEvent → Prop} {s s' : NodeState}
    (h : Reaches cfg hexdigest meets s s') (hs : s.threads = []) (hp : s.pending = []) :
    (∀ v ∈ s'.pending, v ∈ s'.resumed) ∧
      ∀ t ∈ s'.threads, t.recovered = true → .obj t.request ∈ s'.resumed := by
  induction h with
  | refl =>
      rw [hs, hp]
      exact ⟨fun v hv => absurd hv List.not_mem_nil, fun t ht => absurd ht List.not_mem_nil⟩
  | @tail s₁ s₂ _ hev ih =>
      obtain ⟨ev, -, hnext⟩ := hev
      obtain ⟨ihp, iht⟩ := ih
      cases ev with
      | start =>
          obtain ⟨-, rfl⟩ := next_start hnext
          exact ⟨fun v hv => hv, fun t ht => absurd ht List.not_mem_nil⟩
      | resume fuel =>
          rcases next_resume hnext with ⟨entry, rest, hpending, rfl⟩ | ⟨v, rest, -, -, rfl⟩
          · rw [hpending] at ihp
            refine ⟨fun v hv => ihp v (List.mem_cons_of_mem _ hv), fun t ht hrec => ?_⟩
            rcases List.mem_append.mp ht with ht | ht
            · exact iht t ht hrec
            · rw [List.mem_singleton.mp ht]
              exact ihp _ List.mem_cons_self
          · exact ⟨fun v hv => absurd hv List.not_mem_nil, iht⟩
      | accept raw fuel =>
          obtain ⟨-, -, request, -, rfl⟩ := next_accept hnext
          refine ⟨ihp, fun t ht hrec => ?_⟩
          rcases List.mem_append.mp ht with ht | ht
          · exact iht t ht hrec
          · rw [List.mem_singleton.mp ht] at hrec
            exact absurd hrec (by simp [spawn])
      | thread i c =>
          obtain ⟨t, o, k, r, s₃, ht, -, hperform, rfl⟩ := next_thread hnext
          obtain ⟨-, hpending, -, hresumed⟩ := perform_frame hperform
          refine ⟨?_, fun t' ht' hrec => ?_⟩
          · show ∀ v ∈ s₃.pending, v ∈ s₃.resumed
            rw [hpending, hresumed]
            exact ihp
          · show _ ∈ s₃.resumed
            rw [hresumed]
            rcases List.mem_or_eq_of_mem_set ht' with ht' | rfl
            · exact iht t' ht' hrec
            · exact iht t (List.mem_of_getElem? ht) hrec
      | kill =>
          obtain ⟨-, rfl⟩ := next_kill hnext
          exact ⟨fun v hv => absurd hv List.not_mem_nil, fun t ht => absurd ht List.not_mem_nil⟩

end NodeState
