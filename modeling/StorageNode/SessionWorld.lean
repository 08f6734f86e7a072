/-
# Transfers in arbitrary surroundings

One transfer of the node next to a peer, a disk and a router of which nothing is known:
every answer is possible, and every operation may fail with the exceptions it documents.
What is kept is what the transfer has to clean up.

* `SessionChoice`, `SessionWorld` : how one operation turns out, and the socket, the calls
  of the router and the ledger file;
* `runUnregister` : `ledger.unregister`, with its own faults;
* `Clean` : the session is closed, the ledger does not contain the request, and the
  router was asked to delete the mapping;
* `unregisterCovers`, `unregisterCovers_iff` : the faults of `unregister` after which the
  ledger does not contain the request any more.
-/
import StorageNode.ChunkTransfer
import StorageNode.LedgerAlone

open ConnectionLedger

/-- How the surroundings resolve one operation: the exception it raises, if any, what it
answers otherwise, and how the steps of a ledger call turn out. -/
structure SessionChoice where
  fault : Option Exn := none
  yes : Bool := true
  number : ℕ := 0
  bytes : Bytes := []
  raw : Raw := .garbage
  ledger : List Choice := []

/-- The socket of the session (`none` before `open` and after `close`, and whether it is
bound), the frames sent on it, whether the shard file is open, and the ledger file.  The
number of successful `bind`s and the calls of the router are history. -/
structure SessionWorld where
  socket : Option Bool := none
  sent : List Raw := []
  fileOpen : Bool := false
  binds : ℕ := 0
  forwarded : List PortMapping := []
  ledger : Option (List Char)

/-- `ledger.unregister(entry)` on a ledger file, with nobody else at the semaphore. -/
def runUnregister (entry : Dict) (file : Option (List Char)) (cs : List Choice) :
    Option (Except Exn Bool × LedgerWorld Unit) :=
  runUpdate (.unregister entry) file cs

namespace SessionWorld

/-- The operations that do not fail. -/
def perform (c : SessionChoice) (w : SessionWorld) :
    (o : NodeOp) → Option (Except Exn o.Res × SessionWorld)
  | .newSocket => some (.ok (), { w with socket := some false, sent := [] })
  | .bindSocket _ _ =>
      some (.ok (), { w with socket := some true, sent := [], binds := w.binds + 1 })
  | .closeSocket => some (.ok (), { w with socket := none, sent := [] })
  | .hasSocket => some (.ok w.socket.isSome, w)
  | .setTimeouts _ _ => some (.ok (), w)
  | .send raw =>
      if w.socket = some true then some (.ok (), { w with sent := w.sent ++ [raw] }) else none
  | .recv => if w.socket = some true then some (.ok c.raw, w) else none
  | .pickleLoads (.pickled o) => some (.ok o, w)
  -- what is no pickle raises, by a fault
  | .pickleLoads .garbage => none
  | .isDir _ => some (.ok c.yes, w)
  | .makeDirs _ => some (.ok (), w)
  | .isFile _ => some (.ok c.yes, w)
  | .getSize _ => some (.ok c.number, w)
  | .openFile _ _ => some (.ok c.number, { w with fileOpen := true })
  | .read _ _ => some (.ok c.bytes, w)
  -- a negative offset raises, by a fault
  | .seek _ offset => if 0 ≤ offset then some (.ok (), w) else none
  | .write _ _ => some (.ok (), w)
  | .closeFile _ => some (.ok (), { w with fileOpen := false })
  | .forwardPort mapping => some (.ok c.yes, { w with forwarded := mapping :: w.forwarded })
  | .doneUploading _ => some (.ok (), w)
  -- a transfer does not register
  | .ledgerRegister _ => none
  | .ledgerUnregister entry =>
      (runUnregister entry w.ledger c.ledger).map fun rl => (rl.1, { w with ledger := rl.2.file })

/-- A call of the router that fails has been made. -/
def afterFault (w : SessionWorld) : NodeOp → SessionWorld
  | .forwardPort mapping => { w with forwarded := mapping :: w.forwarded }
  | _ => w

/-- **The node's operations**, each with the faults it documents. -/
def exec (o : NodeOp) (c : SessionChoice) (w : SessionWorld) :
    Option (Except Exn o.Res × SessionWorld) :=
  match c.fault with
  | some e => if o.mayRaise e then some (.error e, w.afterFault o) else none
  | none => w.perform c o

/-- **One transfer in arbitrary surroundings.** -/
def session : Pool Unit NodeOp NodeOp.Res Exn SessionChoice Empty SessionWorld where
  exec _ o c w := w.exec o c
  env e _ := e.elim

/-- The world in which a transfer starts. -/
def start (ledger : Option (List Char)) : SessionWorld := { ledger := ledger }

theorem exec_cases {o : NodeOp} {c : SessionChoice} {w w' : SessionWorld} {r : Except Exn o.Res}
    (h : w.exec o c = some (r, w')) :
    (∃ e, c.fault = some e ∧ o.mayRaise e = true ∧ r = .error e ∧ w' = w.afterFault o) ∨
      (c.fault = none ∧ w.perform c o = some (r, w')) := by
  unfold exec at h
  cases hf : c.fault with
  | none =>
      rw [hf] at h
      exact Or.inr ⟨rfl, h⟩
  | some e =>
      rw [hf] at h
      by_cases hm : o.mayRaise e = true
      · simp only [hm, if_true, Option.some.injEq, Prod.mk.injEq] at h
        exact Or.inl ⟨e, rfl, hm, h.1.symm, h.2.symm⟩
      · simp [hm] at h

end SessionWorld

/-! ## What has to be cleaned up -/

/-- The ledger contains an entry equal to the request. -/
def LedgerContains (file : Option (List Char)) (request : Dict) : Prop :=
  ∃ xs : List Json, nextRead file = some (.ok (.arr xs)) ∧ xs.any (· == .obj request) = true

/-- **The transfer has cleaned up after itself.** -/
structure Clean (cfg : Config) (request : Dict) (port : Json) (w : SessionWorld) : Prop where
  closed : w.socket = none
  unregistered : ¬ LedgerContains w.ledger request
  unmapped : cfg.isLocal = false → cfg.hosted = false →
    ∃ mapping ∈ w.forwarded, mapping.port = port ∧ mapping.disable = true

/-! ## The ledger call -/

/-- **After these faults of `unregister` the ledger does not contain the entry**: it came
as far as to open the file for writing, and the entry was in the list only once or the new
text was cut short. -/
def unregisterCovers (entry : Dict) (file : Option (List Char)) (cs : List Choice) : Bool :=
  match runUnregister entry file cs, readFile file with
  | some (_, w), .ok (.arr before) =>
      w.emptied && (before.countP (· == .obj entry) ≤ 1 ||
        decide (w.file ≠ (pyRemove (.obj entry) before).map fun ys => ledgerText (.arr ys)))
  | _, _ => false

theorem pyRemove_countP {α : Type} [BEq α] {x : α} {xs ys : List α}
    (h : pyRemove x xs = some ys) : ys.countP (· == x) + 1 = xs.countP (· == x) := by
  induction xs generalizing ys with
  | nil => exact absurd h (by simp [pyRemove])
  | cons y r ih =>
      rw [pyRemove] at h
      rw [List.countP_cons]
      split at h
      · next hy =>
          obtain rfl := Option.some.inj h
          rw [if_pos hy]
      · next hy =>
          obtain ⟨zs, hzs, rfl⟩ := Option.map_eq_some_iff.mp h
          rw [if_neg hy, List.countP_cons, if_neg hy]
          exact ih hzs

/-- **The ledger afterwards.** -/
theorem unregisterCovers_iff {entry : Dict} {file : Option (List Char)} {before : List Json}
    (hread : readFile file = .ok (.arr before)) (hmem : before.any (· == .obj entry) = true)
    {cs : List Choice} {r : Except Exn Bool} {w : LedgerWorld Unit}
    (h : runUnregister entry file cs = some (r, w)) :
    unregisterCovers entry file cs = true ↔ ¬ LedgerContains w.file entry := by
  obtain ⟨ys, hys⟩ := pyRemove_isSome hmem
  have hcount := pyRemove_countP hys
  have hcontains : ∀ xs, readFile w.file = .ok (.arr xs) →
      (LedgerContains w.file entry ↔ 0 < xs.countP (· == Json.obj entry)) := by
    intro xs hxs
    rw [List.countP_pos_iff]
    constructor
    · rintro ⟨zs, hzs, hany⟩
      rw [nextRead_eq_iff, hxs] at hzs
      obtain rfl : xs = zs := by simpa using hzs
      simpa using hany
    · intro hany
      exact ⟨xs, nextRead_eq_iff.mpr hxs, by simpa using hany⟩
  have hcovers : unregisterCovers entry file cs = true ↔ w.emptied = true ∧
      (before.countP (· == .obj entry) ≤ 1 ∨ w.file ≠ some (ledgerText (.arr ys))) := by
    simp only [unregisterCovers, h, hread, hys, Option.map_some, Bool.and_eq_true, Bool.or_eq_true,
      decide_eq_true_eq]
  rw [hcovers]
  rcases runUpdate_crash hread h with ⟨hfile, hemptied⟩ | ⟨zs, hzs, hemptied, p, q, htext, hfile⟩
  · have hpos : 0 < before.countP (· == .obj entry) := by omega
    have hhas := (hcontains before (by rw [hfile, hread])).mpr hpos
    simp [hemptied, hhas]
  · obtain rfl : ys = zs := Option.some.inj (hys.symm.trans hzs)
    have hwf : ∀ x ∈ ys, x.WF := fun x hx => readFile_wf hread x ((pyRemove_sublist hys).1.subset hx)
    cases q with
    | nil =>
        rw [List.append_nil] at htext
        subst htext
        rw [hcontains ys (by rw [hfile, readFile_ledgerText hwf])]
        simp only [hemptied, hfile, ne_eq, not_true_eq_false, or_false, true_and]
        omega
    | cons c q =>
        rw [hcontains [] (by rw [hfile, readFile_of_append hwf (List.cons_ne_nil c q) htext])]
        have hne : w.file ≠ some (ledgerText (.arr ys)) := by
          intro heq
          rw [hfile, Option.some.injEq, htext] at heq
          have hlen := congrArg List.length heq
          rw [List.length_append, List.length_cons] at hlen
          omega
        simp [hemptied, hne]
