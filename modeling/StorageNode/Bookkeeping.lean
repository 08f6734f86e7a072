/-
# The ledger over crashes and restarts

The node is started, accepts uploads and downloads without a port, is killed between two
operations and started again.  The ledger is, as a multiset, what has been registered and not
yet unregistered, and while the node is up it is what its threads and the resumption still
hold.

* `Orderly` : the events of such a run;
* `Recordable` : the entries of its ledger;
* `held` : the entry a thread has in the ledger;
* `thread_log` : the ledger calls in the log of a thread;
* `LedgerBalanced`, `Consistent` : the invariant, with one lemma for each event;
* `Bookkept`, `ledger_bookkeeping` : what holds in every state;
* `resumedRun` : a transfer that is registered, resumed after a kill and unregistered.
-/
import StorageNode.DispatchLedger
import StorageNode.JsonEquality

open ConnectionLedger RequestDispatcher

/-- **The events of a run.**  Uploads and downloads arrive without a port and the shards of
downloads are there; the ledger's operations succeed, and `find_available_port` does not
return 0. -/
def Orderly (s : NodeState) : NodeEvent → Prop
  | .accept raw _ => ∀ request : Dict, jsonLoads raw = some (.obj request) → IsTransfer request ∧
      ∃ port, request.getItem "port" = .ok port ∧ (port == .int 0) = true
  | .thread i c => Faultless c.ledger ∧ c.answer .findAvailablePort ≠ .ok (0 : ℤ) ∧
      ∀ t o k, s.threads[i]? = some t → t.prog = .call o k →
        t.request.getItem "type" = .ok (.str "download") →
          ∀ path, c.answer (.node (.isFile path)) ≠ .ok false
  | _ => True

/-! ## Entries -/

/-- **An entry of the ledger**: a transfer with a port. -/
structure Recordable (entry : Dict) : Prop where
  wf : (Json.obj entry).WF
  transfer : IsTransfer entry
  port : ∃ p : ℤ, p ≠ 0 ∧ entry.getItem "port" = .ok (.int p)

theorem recordable_withPort {request : Dict} {p : ℤ} (hwf : (Json.obj request).WF)
    (htransfer : IsTransfer request) (hp : p ≠ 0) : Recordable (withPort p request) := by
  refine ⟨set_wf (PyStr.joined_ofString _) trivial hwf, isTransfer_withPort p htransfer, p, hp, ?_⟩
  rw [withPort, Dict.getItem, Dict.get?_set_self]

/-! ## Threads -/

/-- **The entry a thread has in the ledger**: a recovered thread its request, another what it
has registered, until `unregister` is called. -/
def held (t : NodeThread) : List Json :=
  if (unregistersOf t.log).isEmpty then
    if t.recovered then [.obj t.request] else (registersOf t.log).map .obj
  else []

/-- What is known of a thread in an orderly run. -/
structure Sound (t : NodeThread) : Prop where
  nonzero : ∀ e ∈ t.log, NonzeroPort e
  present : t.request.getItem "type" = .ok (.str "download") → ¬ ShardMissing t.log
  client : t.recovered = false → (Json.obj t.request).WF ∧ IsTransfer t.request ∧
    ∃ port, t.request.getItem "port" = .ok port ∧ (port == .int 0) = true

section Threads

variable {cfg : Config} {hexdigest : Bytes → String} {ledger : Option (List Char)} {s : NodeState}

theorem sound_of_reaches (hrun : NodeState.Reaches cfg hexdigest Orderly (NodeState.initial ledger) s) :
    ∀ t ∈ s.threads, Sound t := by
  have hstart : ∀ {t : NodeThread}, t.log = [] → (t.recovered = false → (Json.obj t.request).WF ∧
      IsTransfer t.request ∧ ∃ port, t.request.getItem "port" = .ok port ∧ (port == .int 0) = true) →
      Sound t := by
    intro t hlog hclient
    refine ⟨?_, ?_, hclient⟩
    · rw [hlog]
      exact fun e he => absurd he List.not_mem_nil
    · rw [hlog]
      rintro - ⟨path, h⟩
      exact absurd h List.not_mem_nil
  refine NodeState.forall_threads
    (fun entry fuel => hstart rfl fun h => absurd h (by simp [NodeState.spawn])) ?_ ?_ hrun rfl
  · intro s raw request fuel hmeets hload
    refine hstart rfl fun _ => ?_
    obtain ⟨htransfer, hport⟩ := hmeets request hload
    exact ⟨jsonLoads_wf hload, htransfer, hport⟩
  · rintro s s₁ i c t o k r ⟨-, hport, hops⟩ ht hsound hprog hperform
    have hpresent := hops t o k ht hprog
    -- what is answered outside the ledger is up to the choice
    have hanswer : registered? o = none → unregistered? o = none → r = c.answer o := by
      intro hr hu
      rcases NodeState.perform_cases hperform with ⟨entry, b, w, rfl, -⟩ | ⟨entry, b, w, rfl, -⟩ | h
      · exact absurd hr (by simp [registered?])
      · exact absurd hu (by simp [unregistered?])
      · exact h.2.2.1
    refine ⟨?_, ?_, hsound.client⟩
    · intro e he p hep
      rcases List.mem_append.mp he with he | he
      · exact hsound.nonzero e he p hep
      · rw [List.mem_singleton] at he
        rw [he] at hep
        cases hep
        rw [← hanswer rfl rfl] at hport
        rintro rfl
        exact hport rfl
    · rintro hdown ⟨path, hmem⟩
      rcases List.mem_append.mp hmem with hmem | hmem
      · exact hsound.present hdown ⟨path, hmem⟩
      · have heq := List.mem_singleton.mp hmem
        cases heq
        exact hpresent hdown path (hanswer rfl rfl).symm

/-- **The ledger calls of a thread**, and what they are when it has ended. -/
theorem thread_log (hrun : NodeState.Reaches cfg hexdigest Orderly (NodeState.initial ledger) s)
    {t : NodeThread} (ht : t ∈ s.threads) :
    (t.recovered = true → Recordable t.request → RecoveredLog t.request t.log ∧
      (t.prog = .ret () → Released [] t.request t.log)) ∧
      (t.recovered = false → NewLog t.request t.log ∧
        (t.prog = .ret () → ∃ p : ℤ, Released [withPort p t.request] (withPort p t.request) t.log)) := by
  obtain ⟨fuel, hruns⟩ := NodeState.runs_of_reaches hrun rfl t ht
  have hsound := sound_of_reaches hrun t ht
  have hstart : Waiting [] [] := ⟨rfl, rfl⟩
  constructor
  · intro hrec hentry
    obtain ⟨p, hp, hport⟩ := hentry.port
    have hne : (Json.int p == .int 0) = false := by
      rw [beq_eq_pyEq, Json.pyEq, decide_eq_false_iff_not]
      exact hp
    have hwp := Setting.wp_runs (spec_dispatch_recovered fuel (!t.recovered) hentry.transfer hport
      hne [] hstart) hruns hsound.nonzero
    refine ⟨Setting.wp_inv hwp, fun hend => ?_⟩
    rw [hend] at hwp
    rcases (hwp _ .refl).2 with h | ⟨hdown, h⟩
    · exact h
    · exact absurd h (hsound.present hdown)
  · intro hrec
    obtain ⟨-, htransfer, port, hport, hzero⟩ := hsound.client hrec
    have hwp := Setting.wp_runs (spec_dispatch_new fuel (!t.recovered) htransfer hport hzero [] hstart)
      hruns hsound.nonzero
    refine ⟨Setting.wp_inv hwp, fun hend => ?_⟩
    rw [hend] at hwp
    rcases (hwp _ .refl).2 with h | ⟨hdown, h⟩
    · exact h
    · exact absurd h (hsound.present hdown)

end Threads

/-! ## The ledger calls -/

section Calls

variable {file : Option (List Char)} {xs : List Json} {entry : Dict} {cs : List Choice}
  {r : Except Exn Bool} {w : LedgerWorld Unit}

/-- `register` appends the entry. -/
theorem register_faultless (hread : readFile file = .ok (.arr xs)) (hcs : Faultless cs)
    (hwf : (Json.obj entry).WF) (h : runUpdate (.register entry) file cs = some (r, w)) :
    r = .ok true ∧ readFile w.file = .ok (.arr (xs ++ [.obj entry])) := by
  have hdone := runUpdate_faultless hread hcs h
  have hafter : (LedgerUpdate.register entry).after xs = some (xs ++ [.obj entry]) := rfl
  rw [LedgerUpdate.Done, hafter] at hdone
  refine ⟨hdone.1, ?_⟩
  rw [hdone.2]
  refine readFile_ledgerText ?_
  intro x hx
  rcases List.mem_append.mp hx with hx | hx
  · exact readFile_wf hread x hx
  · rw [List.mem_singleton.mp hx]
    exact hwf

/-- `unregister` removes an entry that is in the list. -/
theorem unregister_faultless (hread : readFile file = .ok (.arr xs)) (hcs : Faultless cs)
    (hmem : 0 < copies (.obj entry) xs) (h : runUpdate (.unregister entry) file cs = some (r, w)) :
    r = .ok true ∧ ∃ ys, pyRemove (.obj entry) xs = some ys ∧ readFile w.file = .ok (.arr ys) := by
  have hany : xs.any (· == .obj entry) = true := by
    obtain ⟨x, hx, heq⟩ := List.countP_pos_iff.mp hmem
    exact List.any_eq_true.mpr ⟨x, hx, heq⟩
  obtain ⟨ys, hys⟩ := pyRemove_isSome hany
  have hdone := runUpdate_faultless hread hcs h
  have hafter : (LedgerUpdate.unregister entry).after xs = some ys := hys
  rw [LedgerUpdate.Done, hafter] at hdone
  refine ⟨hdone.1, ys, hys, ?_⟩
  rw [hdone.2]
  exact readFile_ledgerText fun x hx => readFile_wf hread x ((pyRemove_sublist hys).1.subset hx)

end Calls

/-! ## Lists of threads -/

section Lists

variable {l : List NodeThread} {i : ℕ} {t t' : NodeThread} {z : Json}

theorem copies_set (f : NodeThread → List Json) (t' : NodeThread) (h : l[i]? = some t) :
    copies z ((l.set i t').flatMap f) + copies z (f t) =
      copies z (l.flatMap f) + copies z (f t') := by
  induction l generalizing i with
  | nil => exact absurd h (by simp)
  | cons a l ih =>
      cases i with
      | zero =>
          rw [List.getElem?_cons_zero, Option.some.injEq] at h
          subst h
          rw [List.set_cons_zero, List.flatMap_cons, List.flatMap_cons, copies_append, copies_append]
          omega
      | succ i =>
          rw [List.getElem?_cons_succ] at h
          rw [List.set_cons_succ, List.flatMap_cons, List.flatMap_cons, copies_append, copies_append]
          have := ih h
          omega

theorem copies_held (h : t ∈ l) : copies z (held t) ≤ copies z (l.flatMap held) := by
  rw [List.flatMap]
  exact (List.sublist_flatten_of_mem (List.mem_map_of_mem h)).countP_le

theorem filterMap_set {β : Type} {f : NodeThread → Option β} (h : l[i]? = some t) (hf : f t' = f t) :
    (l.set i t').filterMap f = l.filterMap f := by
  induction l generalizing i with
  | nil => rfl
  | cons a l ih =>
      cases i with
      | zero =>
          rw [List.getElem?_cons_zero, Option.some.injEq] at h
          subst h
          rw [List.set_cons_zero, List.filterMap_cons, List.filterMap_cons, hf]
      | succ i =>
          rw [List.getElem?_cons_succ] at h
          rw [List.set_cons_succ, List.filterMap_cons, List.filterMap_cons, ih h]

end Lists

/-! ## The invariant -/

/-- The entries that `unregister` was called for. -/
def entriesOf (calls : List (Dict × Except Exn Bool)) : List Json := calls.map fun u => .obj u.1

theorem entriesOf_append {calls : List (Dict × Except Exn Bool)} {entry : Dict}
    {r : Except Exn Bool} : entriesOf (calls ++ [(entry, r)]) = entriesOf calls ++ [.obj entry] :=
  List.map_append

/-- What a recovered thread was started with. -/
def recoveredEntry (t : NodeThread) : Option Json :=
  if t.recovered then some (.obj t.request) else none

/-- **The ledger is what is registered and not unregistered**, and while the node is up what
the threads hold and what is still to be resumed. -/
structure LedgerBalanced (s : NodeState) (xs : List Json) : Prop where
  read : readFile s.ledger = .ok (.arr xs)
  entries : ∀ x ∈ xs, ∃ entry, x = .obj entry ∧ Recordable entry
  balanced : ∀ z, copies z xs + copies z (entriesOf s.unregistered) =
    copies z (s.registered.map .obj)
  running : s.up = true → ∀ z, copies z xs = copies z (s.threads.flatMap held ++ s.pending)

/-- The invariant. -/
structure Consistent (s : NodeState) : Prop where
  ledger : ∃ xs, LedgerBalanced s xs
  removed : ∀ u ∈ s.unregistered, u.2 = .ok true
  pending : ∀ x ∈ s.pending, ∃ entry, x = .obj entry ∧ Recordable entry
  recovered : ∀ t ∈ s.threads, t.recovered = true → Recordable t.request
  resumed : s.up = true → s.threads.filterMap recoveredEntry ++ s.pending = s.resumed
  down : s.up = false → s.threads = [] ∧ s.pending = []

section Events

variable {cfg : Config} {hexdigest : Bytes → String} {ledger : Option (List Char)}
  {s s' : NodeState}

theorem consistent_initial (h : nextRead ledger = some (.ok (.arr []))) :
    Consistent (NodeState.initial ledger) := by
  rw [nextRead_eq, Option.some.injEq] at h
  have hnone : ∀ x ∈ ([] : List Json), ∃ entry, x = .obj entry ∧ Recordable entry := fun x hx =>
    absurd hx List.not_mem_nil
  exact ⟨⟨[], h, hnone, fun _ => rfl, fun h => absurd h (by simp [NodeState.initial])⟩,
    fun u hu => absurd hu List.not_mem_nil, hnone, fun t ht => absurd ht List.not_mem_nil,
    fun h => absurd h (by simp [NodeState.initial]), fun _ => ⟨rfl, rfl⟩⟩

/-- A start reads the whole ledger. -/
theorem consistent_start (h : Consistent s) (hnext : s.next cfg hexdigest .start = some s') :
    Consistent s' := by
  obtain ⟨-, rfl⟩ := NodeState.next_start hnext
  obtain ⟨xs, hxs⟩ := h.ledger
  have hpending : resumePending s.ledger = xs := by
    rw [resumePending, hxs.read]
  refine ⟨⟨xs, hxs.read, hxs.entries, hxs.balanced, fun _ z => ?_⟩, h.removed, ?_,
    fun t ht => absurd ht List.not_mem_nil, fun _ => rfl, fun hup => absurd hup (by simp)⟩
  · show copies z xs = copies z ([] ++ resumePending s.ledger)
    rw [hpending, List.nil_append]
  · show ∀ x ∈ resumePending s.ledger, _
    rw [hpending]
    exact hxs.entries

/-- One pending entry becomes one thread. -/
theorem consistent_resume {fuel : ℕ} (h : Consistent s)
    (hnext : s.next cfg hexdigest (.resume fuel) = some s') : Consistent s' := by
  obtain ⟨xs, hxs⟩ := h.ledger
  rcases NodeState.next_resume hnext with ⟨entry, rest, hpending, rfl⟩ | ⟨v, rest, hpending, hv, -⟩
  · have hpend := h.pending
    rw [hpending, List.forall_mem_cons] at hpend
    obtain ⟨⟨entry', heq, hentry⟩, hrest⟩ := hpend
    obtain rfl := Json.obj.inj heq
    refine ⟨⟨xs, hxs.read, hxs.entries, hxs.balanced, fun hup z => ?_⟩, h.removed, hrest, ?_,
      fun hup => ?_, fun hup => ?_⟩
    · have hrun := hxs.running hup z
      rw [hpending] at hrun
      rw [hrun, List.flatMap_append, List.append_assoc]
      rfl
    · intro t ht hrec
      rcases List.mem_append.mp ht with ht | ht
      · exact h.recovered t ht hrec
      · rw [List.mem_singleton.mp ht]
        exact hentry
    · have hres := h.resumed hup
      rw [hpending] at hres
      rw [← hres]
      show (s.threads ++ [_]).filterMap recoveredEntry ++ rest = _
      rw [List.filterMap_append, List.append_assoc]
      rfl
    · have hdown := (h.down hup).2
      rw [hpending] at hdown
      exact absurd hdown (List.cons_ne_nil _ _)
  · have hmem : v ∈ s.pending := by
      rw [hpending]
      exact List.mem_cons_self
    obtain ⟨entry, heq, -⟩ := h.pending v hmem
    exact absurd heq (hv entry)

/-- A thread of a client holds nothing at first. -/
theorem consistent_accept {raw : List Char} {fuel : ℕ} (h : Consistent s)
    (hnext : s.next cfg hexdigest (.accept raw fuel) = some s') : Consistent s' := by
  obtain ⟨xs, hxs⟩ := h.ledger
  obtain ⟨hup, hpending, request, -, rfl⟩ := NodeState.next_accept hnext
  refine ⟨⟨xs, hxs.read, hxs.entries, hxs.balanced, fun _ z => ?_⟩, h.removed, h.pending, ?_,
    fun _ => ?_, fun hdown => ?_⟩
  · have hrun := hxs.running hup z
    rw [hrun, List.flatMap_append, List.append_assoc]
    rfl
  · intro t ht hrec
    rcases List.mem_append.mp ht with ht | ht
    · exact h.recovered t ht hrec
    · rw [List.mem_singleton.mp ht] at hrec
      exact absurd hrec (by simp [NodeState.spawn])
  · rw [← h.resumed hup]
    show (s.threads ++ [_]).filterMap recoveredEntry ++ s.pending = _
    rw [List.filterMap_append, List.append_assoc]
    rfl
  · rw [hup] at hdown
    cases hdown

/-- The ledger outlives the process. -/
theorem consistent_kill (h : Consistent s) (hnext : s.next cfg hexdigest .kill = some s') :
    Consistent s' := by
  obtain ⟨xs, hxs⟩ := h.ledger
  obtain ⟨-, rfl⟩ := NodeState.next_kill hnext
  exact ⟨⟨xs, hxs.read, hxs.entries, hxs.balanced, fun hup => absurd hup (by simp)⟩, h.removed,
    fun x hx => absurd hx List.not_mem_nil, fun t ht => absurd ht List.not_mem_nil,
    fun hup => absurd hup (by simp), fun _ => ⟨rfl, rfl⟩⟩

end Events

/-! ## A step of a thread -/

section Holding

variable {t : NodeThread} {o : DispatchOp} {r : Except Exn o.Res} {rest : Dispatch Unit}
  {entry : Dict}

theorem held_new (hrec : t.recovered = false) {regs : List Dict} (h : Waiting regs t.log) :
    held t = regs.map .obj := by
  rw [held, h.1, h.2, hrec]
  rfl

theorem held_recovered (hrec : t.recovered = true) (h : unregistersOf t.log = []) :
    held t = [.obj t.request] := by
  rw [held, h, hrec]
  rfl

theorem held_unregistered {r : Except Exn Bool} :
    held (t.step (.node (.ledgerUnregister entry)) r rest) = [] := by
  have hne : ¬ (unregistersOf t.log ++ [entry]).isEmpty = true := by simp
  rw [held, NodeThread.step_log, unregistersOf_unregister, if_neg hne]

theorem held_other (hr : registered? o = none) (hu : unregistered? o = none) :
    held (t.step o r rest) = held t := by
  have hregs : registersOf (t.log ++ [⟨o, r⟩]) = registersOf t.log := by
    rw [registersOf_append, hr]
    exact List.append_nil _
  have hunregs : unregistersOf (t.log ++ [⟨o, r⟩]) = unregistersOf t.log := by
    rw [unregistersOf_append, hu]
    exact List.append_nil _
  rw [held, held, NodeThread.step_log, hregs, hunregs, NodeThread.step_recovered,
    NodeThread.step_request]

end Holding

section Step

variable {cfg : Config} {hexdigest : Bytes → String} {ledger : Option (List Char)}
  {s s' : NodeState} {t : NodeThread} {rest : Dispatch Unit} {entry : Dict} {r : Except Exn Bool}

/-- A thread that registers is one of a client that holds nothing. -/
theorem thread_register (hrun : NodeState.Reaches cfg hexdigest Orderly (NodeState.initial ledger) s)
    (hrun' : NodeState.Reaches cfg hexdigest Orderly (NodeState.initial ledger) s')
    (hentries : ∀ t ∈ s.threads, t.recovered = true → Recordable t.request) (ht : t ∈ s.threads)
    (ht' : t.step (.node (.ledgerRegister entry)) r rest ∈ s'.threads) :
    Recordable entry ∧ held t = [] ∧
      held (t.step (.node (.ledgerRegister entry)) r rest) = [.obj entry] := by
  have hlog := thread_log hrun ht
  have hlog' := thread_log hrun' ht'
  simp only [NodeThread.step_recovered, NodeThread.step_request, NodeThread.step_log] at hlog'
  cases hrec : t.recovered with
  | true =>
      have hregs := ((hlog'.1 hrec (hentries t ht hrec)).1).registers
      rw [registersOf_register] at hregs
      exact absurd hregs (List.append_ne_nil_of_right_ne_nil _ (List.cons_ne_nil _ _))
  | false =>
      obtain ⟨hwait, p, hp, rfl⟩ := (hlog.2 hrec).1.register (hlog'.2 hrec).1
      have hsound := sound_of_reaches hrun' _ ht'
      have hregs : registersOf (t.log ++ [⟨.node (.ledgerRegister (withPort p t.request)), r⟩]) =
          [withPort p t.request] := by
        rw [registersOf_register, hwait.1]
        rfl
      obtain ⟨hwf, htransfer, -⟩ := hsound.client hrec
      refine ⟨recordable_withPort hwf htransfer hp, held_new hrec hwait, ?_⟩
      have hwait' : Waiting [withPort p t.request]
          (t.log ++ [⟨.node (.ledgerRegister (withPort p t.request)), r⟩]) := by
        refine ⟨hregs, ?_⟩
        rw [unregistersOf_append, hwait.2]
        rfl
      exact held_new (t := t.step (.node (.ledgerRegister _)) r rest) hrec hwait'

/-- A thread that unregisters holds that entry. -/
theorem thread_unregister
    (hrun : NodeState.Reaches cfg hexdigest Orderly (NodeState.initial ledger) s)
    (hrun' : NodeState.Reaches cfg hexdigest Orderly (NodeState.initial ledger) s')
    (hentries : ∀ t ∈ s.threads, t.recovered = true → Recordable t.request) (ht : t ∈ s.threads)
    (ht' : t.step (.node (.ledgerUnregister entry)) r rest ∈ s'.threads) :
    Recordable entry ∧ held t = [.obj entry] := by
  have hlog' := thread_log hrun' ht'
  simp only [NodeThread.step_recovered, NodeThread.step_request, NodeThread.step_log] at hlog'
  cases hrec : t.recovered with
  | true =>
      obtain ⟨rfl, hnil⟩ := ((hlog'.1 hrec (hentries t ht hrec)).1).unregister
      exact ⟨hentries t ht hrec, held_recovered hrec hnil⟩
  | false =>
      obtain ⟨hwait, p, hp, rfl⟩ := (hlog'.2 hrec).1.unregister
      have hsound := sound_of_reaches hrun t ht
      obtain ⟨hwf, htransfer, -⟩ := hsound.client hrec
      exact ⟨recordable_withPort hwf htransfer hp, held_new hrec hwait⟩

theorem Consistent.up_of_mem (h : Consistent s) (ht : t ∈ s.threads) : s.up = true := by
  cases hup : s.up with
  | true => rfl
  | false =>
      rw [(h.down hup).1] at ht
      exact absurd ht List.not_mem_nil

/-- What the threads hold after a step of one of them. -/
theorem LedgerBalanced.running_set {xs : List Json} {i : ℕ} (hxs : LedgerBalanced s xs)
    (hup : s.up = true) (ht : s.threads[i]? = some t) (t' : NodeThread) (z : Json) :
    copies z ((s.threads.set i t').flatMap held ++ s.pending) + copies z (held t) =
      copies z xs + copies z (held t') := by
  have hset := copies_set (z := z) held t' ht
  have hold := hxs.running hup z
  rw [copies_append] at hold ⊢
  omega

/-- What an entry that a thread holds leaves when it is removed. -/
theorem LedgerBalanced.unregister {xs : List Json} {cs : List Choice} {w : LedgerWorld Unit}
    (hxs : LedgerBalanced s xs) (hup : s.up = true) (ht : t ∈ s.threads)
    (hheld : held t = [.obj entry]) (hentry : Recordable entry) (hcs : Faultless cs)
    (hcall : runUpdate (.unregister entry) s.ledger cs = some (r, w)) :
    r = .ok true ∧ ∃ ys, readFile w.file = .ok (.arr ys) ∧ ys.Sublist xs ∧
      ∀ z, copies z ys + (if Json.obj entry == z then 1 else 0) = copies z xs := by
  have hin : 0 < copies (.obj entry) xs := by
    have hself : (Json.obj entry == .obj entry) = true := Json.pyEq_refl hentry.wf
    have hone : 0 < copies (.obj entry) (held t) := by
      rw [hheld, copies_cons, if_pos hself]
      omega
    have hle := copies_held (z := .obj entry) ht
    rw [hxs.running hup, copies_append]
    omega
  obtain ⟨hr, ys, hys, hread⟩ := unregister_faultless hxs.read hcs hin hcall
  exact ⟨hr, ys, hread, (pyRemove_sublist hys).1,
    fun z => copies_remove hentry.wf (readFile_wf hxs.read) hys⟩

/-- **A step of a thread**: `register` appends what the thread then holds, `unregister` takes
out one copy of what it held, and the other operations change neither. -/
theorem consistent_thread {i : ℕ} {c : NodeChoice}
    (hrun : NodeState.Reaches cfg hexdigest Orderly (NodeState.initial ledger) s)
    (hrun' : NodeState.Reaches cfg hexdigest Orderly (NodeState.initial ledger) s')
    (h : Consistent s) (hmeets : Orderly s (.thread i c))
    (hnext : s.next cfg hexdigest (.thread i c) = some s') : Consistent s' := by
  obtain ⟨xs, hxs⟩ := h.ledger
  obtain ⟨t, o, k, r, s₁, ht, hprog, hperform, rfl⟩ := NodeState.next_thread hnext
  have hmem := List.mem_of_getElem? ht
  have hmem' : t.step o r (k r) ∈ s.threads.set i (t.step o r (k r)) :=
    List.mem_set (List.getElem?_eq_some_iff.mp ht).1 _
  have hup := h.up_of_mem hmem
  have hstill : ¬ s.up = false := by
    rw [hup]
    decide
  -- the threads are the same but for their logs
  have hrec : ∀ t' ∈ s.threads.set i (t.step o r (k r)), t'.recovered = true →
      Recordable t'.request := by
    intro t' ht'
    rcases List.mem_or_eq_of_mem_set ht' with ht' | rfl
    · exact h.recovered t' ht'
    · exact h.recovered t hmem
  have hresumed : (s.threads.set i (t.step o r (k r))).filterMap recoveredEntry ++ s.pending =
      s.resumed := by
    have hsame : recoveredEntry (t.step o r (k r)) = recoveredEntry t := rfl
    rw [filterMap_set ht hsame]
    exact h.resumed hup
  have hrunning := fun z => hxs.running_set hup ht (t.step o r (k r)) z
  rcases NodeState.perform_cases hperform with ⟨entry, b, w, rfl, -, hcall, rfl⟩ |
    ⟨entry, b, w, rfl, -, hcall, rfl⟩ | ⟨hreg, hunreg, -, rfl⟩
  · obtain ⟨hentry, hheld, hheld'⟩ := thread_register hrun hrun' h.recovered hmem hmem'
    obtain ⟨rfl, hread⟩ := register_faultless hxs.read hmeets.1 hentry.wf hcall
    refine ⟨⟨xs ++ [.obj entry], hread, ?_, fun z => ?_, fun _ z => ?_⟩, h.removed, h.pending, hrec,
      fun _ => hresumed, fun hdown => absurd hdown hstill⟩
    · intro x hx
      rcases List.mem_append.mp hx with hx | hx
      · exact hxs.entries x hx
      · exact ⟨entry, List.mem_singleton.mp hx, hentry⟩
    · have hold := hxs.balanced z
      show copies z _ + copies z (entriesOf s.unregistered) =
        copies z ((s.registered ++ [entry]).map .obj)
      rw [List.map_append, copies_append, copies_append, ← hold, List.map_singleton]
      omega
    · have hthread := hrunning z
      rw [hheld, hheld', copies_nil, ← copies_append] at hthread
      exact hthread.symm
  · obtain ⟨hentry, hheld⟩ := thread_unregister hrun hrun' h.recovered hmem hmem'
    obtain ⟨rfl, ys, hread, hsub, hremove⟩ :=
      hxs.unregister hup hmem hheld hentry hmeets.1 hcall
    refine ⟨⟨ys, hread, fun x hx => hxs.entries x (hsub.subset hx), fun z => ?_, fun _ z => ?_⟩,
      ?_, h.pending, hrec, fun _ => hresumed, fun hdown => absurd hdown hstill⟩
    · have hold := hxs.balanced z
      have hone := hremove z
      show copies z ys + copies z (entriesOf (s.unregistered ++ [(entry, Except.ok true)])) =
        copies z (s.registered.map .obj)
      rw [entriesOf_append, copies_append, copies_cons, copies_nil]
      omega
    · have hthread := hrunning z
      have hone := hremove z
      rw [hheld, held_unregistered, copies_cons, copies_nil] at hthread
      show copies z ys = copies z
        ((s.threads.set i (t.step (.node (.ledgerUnregister entry)) r (k r))).flatMap held ++ s.pending)
      omega
    · intro u hu
      rcases List.mem_append.mp hu with hu | hu
      · exact h.removed u hu
      · rw [List.mem_singleton.mp hu]
  · have hheld : held (t.step o r (k r)) = held t := by
      refine held_other ?_ ?_
      · cases o with
        | node o =>
            cases o with
            | ledgerRegister entry => exact absurd rfl (hreg entry)
            | _ => rfl
        | _ => rfl
      · cases o with
        | node o =>
            cases o with
            | ledgerUnregister entry => exact absurd rfl (hunreg entry)
            | _ => rfl
        | _ => rfl
    refine ⟨⟨xs, hxs.read, hxs.entries, hxs.balanced, fun _ z => ?_⟩, h.removed, h.pending, hrec,
      fun _ => hresumed, fun hdown => absurd hdown hstill⟩
    have hthread := hrunning z
    rw [hheld] at hthread
    exact (Nat.add_right_cancel hthread).symm

end Step

/-! ## Every run -/

section Runs

variable {cfg : Config} {hexdigest : Bytes → String} {ledger : Option (List Char)}
  {s s' : NodeState}

/-- **The invariant holds in every state.** -/
theorem consistent_of_reaches (hledger : nextRead ledger = some (.ok (.arr [])))
    (hrun : NodeState.Reaches cfg hexdigest Orderly (NodeState.initial ledger) s) :
    Consistent s := by
  induction hrun with
  | refl => exact consistent_initial hledger
  | @tail s₁ s₂ hrun hev ih =>
      have hrun' : NodeState.Reaches cfg hexdigest Orderly (NodeState.initial ledger) s₂ :=
        .tail hrun hev
      obtain ⟨ev, hmeets, hnext⟩ := hev
      cases ev with
      | start => exact consistent_start ih hnext
      | resume fuel => exact consistent_resume ih hnext
      | accept raw fuel => exact consistent_accept ih hnext
      | thread i c => exact consistent_thread hrun hrun' ih hmeets hnext
      | kill => exact consistent_kill ih hnext

/-- **A recovered thread** serves its entry: it does not register it, is given no other port
and touches the recorded one only. -/
structure ServesEntry (t : NodeThread) : Prop where
  unregistered : registersOf t.log = []
  unallocated : ∀ r, ⟨.findAvailablePort, r⟩ ∉ t.log
  port : ∃ p : ℤ, p ≠ 0 ∧ t.request.getItem "port" = .ok (.int p) ∧
    ∀ e ∈ t.log, ∀ port, Touches e port → port = .int p

theorem servesEntry_of_reaches
    (hrun : NodeState.Reaches cfg hexdigest Orderly (NodeState.initial ledger) s)
    {t : NodeThread} (ht : t ∈ s.threads) (hrec : t.recovered = true)
    (hentry : Recordable t.request) : ServesEntry t := by
  obtain ⟨p, hp, hport⟩ := hentry.port
  obtain ⟨fuel, hruns⟩ := NodeState.runs_of_reaches hrun rfl t ht
  have hne : (Json.int p == .int 0) = false := by
    rw [beq_eq_pyEq, Json.pyEq, decide_eq_false_iff_not]
    exact hp
  rw [dispatch_transfer fuel (!t.recovered) hentry.transfer hport, hne] at hruns
  have hown := (Prog.only_runs (only_startTransfer cfg fuel t.request false) hruns).2
  refine ⟨((thread_log hrun ht).1 hrec hentry).1.registers, fun r hr => hown _ hr, p, hp, hport, ?_⟩
  rintro e he port (⟨address, htouch⟩ | ⟨mapping, htouch, rfl, -⟩)
  · have hop := hown e he
    rw [htouch] at hop
    exact Except.ok.inj (hop.2.symm.trans hport)
  · have hop := hown e he
    rw [htouch] at hop
    exact Except.ok.inj (hop.1.symm.trans hport)

/-- **`unregister` removes one copy**: it returns `True` and takes out one entry that is
equal to its argument. -/
def RemovesOne (s s' : NodeState) (entry : Dict) : Prop :=
  s'.unregistered = s.unregistered ++ [(entry, .ok true)] ∧
    ∃ xs ys, nextRead s.ledger = some (.ok (.arr xs)) ∧
      nextRead s'.ledger = some (.ok (.arr ys)) ∧
      ∀ z, copies z ys + (if Json.obj entry == z then 1 else 0) = copies z xs

theorem removesOne {i : ℕ} {c : NodeChoice} {t : NodeThread} {entry : Dict}
    {k : Except Exn Bool → Dispatch Unit}
    (hledger : nextRead ledger = some (.ok (.arr [])))
    (hrun : NodeState.Reaches cfg hexdigest Orderly (NodeState.initial ledger) s)
    (hmeets : Orderly s (.thread i c)) (hnext : s.next cfg hexdigest (.thread i c) = some s')
    (ht : s.threads[i]? = some t) (hprog : t.prog = .call (.node (.ledgerUnregister entry)) k) :
    RemovesOne s s' entry := by
  have h := consistent_of_reaches hledger hrun
  obtain ⟨xs, hxs⟩ := h.ledger
  have hrun' : NodeState.Reaches cfg hexdigest Orderly (NodeState.initial ledger) s' :=
    .tail hrun ⟨_, hmeets, hnext⟩
  obtain ⟨t', o, k', r, s₁, ht', hprog', hperform, rfl⟩ := NodeState.next_thread hnext
  obtain rfl := Option.some.inj (ht.symm.trans ht')
  rw [hprog] at hprog'
  cases hprog'
  obtain ⟨⟨b, w⟩, hcall, heq⟩ := Option.map_eq_some_iff.mp hperform
  simp only [Prod.mk.injEq] at heq
  obtain ⟨rfl, rfl⟩ := heq
  have hmem := List.mem_of_getElem? ht
  have hmem' := List.mem_set (List.getElem?_eq_some_iff.mp ht).1
    (t.step (.node (.ledgerUnregister entry)) b (k b))
  obtain ⟨hentry, hheld⟩ := thread_unregister hrun hrun' h.recovered hmem hmem'
  obtain ⟨rfl, ys, hread, -, hremove⟩ :=
    hxs.unregister (h.up_of_mem hmem) hmem hheld hentry hmeets.1 hcall
  exact ⟨rfl, xs, ys, nextRead_eq_iff.mpr hxs.read, nextRead_eq_iff.mpr hread, hremove⟩

/-- **The bookkeeping of a state.** -/
structure Bookkept (cfg : Config) (hexdigest : Bytes → String) (s : NodeState) : Prop where
  ledger : ∃ xs, nextRead s.ledger = some (.ok (.arr xs)) ∧
    ∀ z, copies z xs + copies z (entriesOf s.unregistered) = copies z (s.registered.map .obj)
  restart : ∀ s', s.next cfg hexdigest .start = some s' →
    nextRead s.ledger = some (.ok (.arr s'.resumed))
  dispatchable : ∀ x ∈ s.pending, ∃ entry, x = .obj entry
  dispatched : s.up = true → s.threads.filterMap recoveredEntry ++ s.pending = s.resumed
  recovered : ∀ t ∈ s.threads, t.recovered = true → ServesEntry t
  unregister : ∀ i c s' t entry k, Orderly s (.thread i c) →
    s.next cfg hexdigest (.thread i c) = some s' → s.threads[i]? = some t →
    t.prog = .call (.node (.ledgerUnregister entry)) k → RemovesOne s s' entry
  ended : ∀ t ∈ s.threads, t.prog = .ret () → ∃ entry, unregistersOf t.log = [entry] ∧
    (if t.recovered then entry = t.request else registersOf t.log = [entry])

/-- **Exactly-once bookkeeping.**  In every state of a run that starts with an empty ledger,
the ledger is, as a multiset up to `==`, what has been registered and not unregistered; a
start finds all of it, and each entry found is dispatched in one thread, which does not
register it again and uses the recorded port; `unregister` returns `True` and removes one
copy, and a transfer that has returned has unregistered its entry once. -/
theorem ledger_bookkeeping (cfg : Config) (hexdigest : Bytes → String)
    (ledger : Option (List Char)) (hledger : nextRead ledger = some (.ok (.arr [])))
    {s : NodeState}
    (hrun : NodeState.Reaches cfg hexdigest Orderly (NodeState.initial ledger) s) :
    Bookkept cfg hexdigest s := by
  have h := consistent_of_reaches hledger hrun
  obtain ⟨xs, hxs⟩ := h.ledger
  refine ⟨⟨xs, nextRead_eq_iff.mpr hxs.read, hxs.balanced⟩, ?_, ?_, h.resumed, ?_, ?_, ?_⟩
  · intro s' hnext
    obtain ⟨-, rfl⟩ := NodeState.next_start hnext
    have hresumed : resumePending s.ledger = xs := by
      rw [resumePending, hxs.read]
    show nextRead s.ledger = some (.ok (.arr (resumePending s.ledger)))
    rw [hresumed]
    exact nextRead_eq_iff.mpr hxs.read
  · intro x hx
    obtain ⟨entry, heq, -⟩ := h.pending x hx
    exact ⟨entry, heq⟩
  · exact fun t ht hrec => servesEntry_of_reaches hrun ht hrec (h.recovered t ht hrec)
  · exact fun i c s' t entry k hmeets hnext ht hprog =>
      removesOne hledger hrun hmeets hnext ht hprog
  · intro t ht hend
    have hlog := thread_log hrun ht
    cases hrec : t.recovered with
    | true =>
        have hreleased := (hlog.1 hrec (h.recovered t ht hrec)).2 hend
        exact ⟨t.request, hreleased.2, rfl⟩
    | false =>
        obtain ⟨p, hreleased⟩ := (hlog.2 hrec).2 hend
        exact ⟨withPort p t.request, hreleased.2, hreleased.1⟩

end Runs

/-! ## A transfer that is resumed -/

/-- An upload without a port. -/
def newUpload : Dict := [("type", .str "upload"), ("shard_id", .str "s"), ("port", .int 0)]

/-- Every operation succeeds; the ledger call makes `n` steps. -/
def quietChoice (n : ℕ) : NodeChoice := { answer := plainAnswer, ledger := List.replicate n {} }

/-- The upload is accepted and registered when the node is killed; it is resumed and runs to
its end. -/
def resumedRun : List NodeEvent :=
  [.start, .accept (Json.obj newUpload).text 5, .thread 0 (quietChoice 0),
    .thread 0 (quietChoice 74), .kill, .start, .resume 5] ++
    List.replicate 16 (.thread 0 (quietChoice 26))

def isUpload (request : Dict) : Bool :=
  match request.getItem "type" with
  | .ok (.str type) => type == "upload"
  | _ => false

def portZero (request : Dict) : Bool :=
  match request.getItem "port" with
  | .ok port => port == .int 0
  | .error _ => false

/-- `Orderly` for runs of uploads, evaluated. -/
def orderlyTest (s : NodeState) : NodeEvent → Bool
  | .accept raw _ =>
      match jsonLoads raw with
      | some (.obj request) => isUpload request && portZero request
      | _ => true
  | .thread _ c =>
      (c.ledger.all fun c => c.fault.isNone) &&
        (match c.answer .findAvailablePort with
          | .ok p => decide (p ≠ (0 : ℤ))
          | .error _ => true) &&
        s.threads.all fun t => isUpload t.request
  | _ => true

theorem upload_of_isUpload {request : Dict} (h : isUpload request = true) :
    request.getItem "type" = .ok (.str "upload") := by
  unfold isUpload at h
  split at h
  · next type htype =>
      rw [beq_iff_eq] at h
      rw [htype, h]
  · cases h

theorem portZero_iff {request : Dict} (h : portZero request = true) :
    ∃ port, request.getItem "port" = .ok port ∧ (port == .int 0) = true := by
  unfold portZero at h
  split at h
  · next port hport => exact ⟨port, hport, h⟩
  · cases h

theorem orderly_of_test (s : NodeState) (ev : NodeEvent) (h : orderlyTest s ev = true) :
    Orderly s ev := by
  cases ev with
  | accept raw fuel =>
      intro request hload
      simp only [orderlyTest, hload, Bool.and_eq_true] at h
      exact ⟨Or.inl (upload_of_isUpload h.1), portZero_iff h.2⟩
  | thread i c =>
      simp only [orderlyTest, Bool.and_eq_true, List.all_eq_true, Option.isNone_iff_eq_none] at h
      obtain ⟨⟨hfault, hport⟩, hthreads⟩ := h
      refine ⟨hfault, ?_, fun t o k ht hprog => ?_⟩
      · intro hzero
        rw [hzero] at hport
        exact absurd hport (by decide)
      · intro hdown
        have hupload := hthreads t (List.mem_of_getElem? ht)
        rw [upload_of_isUpload hupload] at hdown
        exact absurd hdown (by simp)
  | _ => trivial

/-- The theorem at that run. -/
theorem ledger_bookkeeping_resumed :
    ∃ s, NodeState.Reaches { isLocal := false } (fun _ => "") Orderly (NodeState.initial none) s ∧
      (s.resumed.length = 1 ∧ s.unregistered.length = 1) ∧
      Bookkept { isLocal := false } (fun _ => "") s := by
  have hledger : nextRead none = some (.ok (.arr [])) := by
    rw [nextRead_eq]
    rfl
  obtain ⟨s, hrun, hs⟩ := NodeState.exists_of_run { isLocal := false } (fun _ => "")
    (show NodeState.AllMeet _ _ Orderly (NodeState.initial none) resumedRun from
      NodeState.allMeet_of_test orderly_of_test (by decide +kernel))
    (fun s => decide (s.resumed.length = 1 ∧ s.unregistered.length = 1)) (by decide +kernel)
  exact ⟨s, hrun, of_decide_eq_true hs, ledger_bookkeeping _ _ none hledger hrun⟩
