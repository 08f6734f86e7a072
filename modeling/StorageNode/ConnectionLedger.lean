/-
# The connection ledger (`connection_ledger.py`)

The methods of `ConnectionLedger`, step by step, and the file they work on.

* `LedgerOp` : the semaphore of `NodeConfig` and the operations on the ledger file;
* `ConnectionLedger.readEntries`, `register`, `unregister`, `listAll` : the methods as
  programs over them; `json.dump` writes its text in pieces, here one character each,
  which is the finest division there is;
* `LedgerWorld` : the semaphore, the file and the handles it is being written through;
* `nextRead` : what `_read_entries` gives in a process of its own;
* `ledger` : any number of threads with one `NodeConfig`.

`open(..., "w")` empties the file at once; what is written stays in the buffer of the
handle until it is flushed, and is lost when the process is killed.
-/
import StorageNode.JsonPrefix
import StorageNode.Link
import StorageNode.ThreadPool

/-- The operations. -/
inductive LedgerOp
  | acquire
  | release
  | openRead
  | read
  | closeRead
  | openWrite
  | write (piece : List Char)
  | closeWrite

/-- What an operation answers with. -/
@[reducible] def LedgerOp.Res : LedgerOp → Type
  | .read => List Char
  | _ => Unit

/-- The exceptions an operation may raise; `open` raises `FileNotFoundError` when there is
no file, and reading text may raise `UnicodeDecodeError`, a `ValueError`. -/
def LedgerOp.mayRaise : LedgerOp → Exn → Bool
  | .acquire, _ => false
  | .release, _ => false
  | .read, e => e = .osError || e = .valueError
  | _, e => e = .osError

/-- Programs of the ledger. -/
abbrev Ledger (α : Type) : Type := Prog LedgerOp LedgerOp.Res Exn α

/-- Call an operation. -/
abbrev ledgerOp (o : LedgerOp) : Ledger o.Res := Prog.perform o

namespace ConnectionLedger

/-- `json.load(fh)`. -/
def jsonLoad : Ledger Json := do
  let text ← ledgerOp .read
  match jsonLoads text with
  | some data => pure data
  | none => Prog.raise .jsonDecode

/-- `data.get("connections", [])`. -/
def connections : Json → Except Exn Json
  | .obj data => .ok ((Dict.get? "connections" data).getD (.arr []))
  | _ => .error .attributeError

/-- `_read_entries`. -/
def readEntries : Ledger Json :=
  (do
    ledgerOp .openRead
    let data ← jsonLoad.tryFinally (ledgerOp .closeRead)
    -- a file that is no JSON is taken for an empty ledger, like no file at all
    Prog.ofExcept (connections data)).tryExcept fun e =>
      if e = Exn.fileNotFound ∨ e = Exn.jsonDecode then pure (.arr []) else Prog.raise e

/-- The text `json.dump({"connections": entries}, fh)` writes. -/
def ledgerText (entries : Json) : List Char := (Json.obj [("connections", entries)]).text

/-- `json.dump`, piece by piece. -/
def writePieces : List Char → Ledger Unit
  | [] => pure ()
  | c :: r => do
      ledgerOp (.write [c])
      writePieces r

/-- `_write_entries`. -/
def writeEntries (entries : Json) : Ledger Unit := do
  -- mode `w` empties the file before anything is written
  ledgerOp .openWrite
  (writePieces (ledgerText entries)).tryFinally (ledgerOp .closeWrite)

/-- `entries.append(entry)`. -/
def append (entry : Dict) : Json → Except Exn Json
  | .arr entries => .ok (.arr (entries ++ [.obj entry]))
  | _ => .error .attributeError

/-- `entries.remove(entry)`. -/
def remove (entry : Dict) : Json → Except Exn Json
  | .arr entries =>
      match pyRemove (.obj entry) entries with
      | some entries' => .ok (.arr entries')
      -- `list.remove` of what is not there
      | none => .error .valueError
  | _ => .error .attributeError

/-- What `register` and `unregister` try: read, change and write; an exception means
`False`. -/
def changeEntries (change : Json → Except Exn Json) : Ledger Bool :=
  (do
    let entries ← readEntries
    let entries' ← Prog.ofExcept (change entries)
    writeEntries entries'
    pure true).tryExcept fun _ => pure false

/-- What `register` and `unregister` share. -/
def update (change : Json → Except Exn Json) : Ledger Bool := do
  ledgerOp .acquire
  (changeEntries change).tryFinally (ledgerOp .release)

def register (entry : Dict) : Ledger Bool := update (append entry)

def unregister (entry : Dict) : Ledger Bool := update (remove entry)

def listAll : Ledger Json := do
  ledgerOp .acquire
  readEntries.tryFinally (ledgerOp .release)

end ConnectionLedger

/-! ## The ledger file -/

/-- A handle the file is written through: the characters flushed so far and those still in
the buffer. -/
structure TextHandle where
  pos : ℕ := 0
  buf : List Char := []

/-- The semaphore, the ledger file (`none` when there is none) and the handle each thread
writes through.  The last three fields are history: the thread that holds the semaphore,
the threads in the order in which they released it, and whether the file has been opened
for writing. -/
structure LedgerWorld (ι : Type) where
  sem : ℕ := 1
  file : Option (List Char)
  out : ι → Option TextHandle := fun _ => none
  holder : Option ι := none
  served : List ι := []
  emptied : Bool := false

namespace LedgerWorld

variable {ι : Type} [DecidableEq ι]

/-- `old` with `text` at `pos`; a gap is filled with NUL characters. -/
def overwrite (pos : ℕ) (text old : List Char) : List Char :=
  if text = [] then old
  else old.take pos ++ List.replicate (pos - old.length) '\x00' ++ text ++
    old.drop (pos + text.length)

/-- `n` characters of the buffer of `h` reach the file. -/
def flush (w : LedgerWorld ι) (h : TextHandle) (n : ℕ) : LedgerWorld ι :=
  { w with file := w.file.map (overwrite h.pos (h.buf.take n)) }

/-- What a write and a close do to the file and the handle, also when they fail. -/
def afterFile (w : LedgerWorld ι) (i : ι) (c : Choice) : LedgerOp → LedgerWorld ι
  | .write piece =>
      match w.out i with
      | some h =>
          let h' : TextHandle := { h with buf := h.buf ++ c.taken piece }
          { w.flush h' c.flush with
            out := Function.update w.out i
              (some { pos := h'.pos + (h'.buf.take c.flush).length, buf := h'.buf.drop c.flush }) }
      | none => w
  | .closeWrite =>
      match w.out i with
      | some h =>
          -- a close that fails has flushed only a part of the buffer
          { w.flush h (if c.fault = none then h.buf.length else c.flush) with
            out := Function.update w.out i none }
      | none => w
  | _ => w

/-- The operations that succeed, and the `FileNotFoundError`. -/
def perform (i : ι) (c : Choice) (w : LedgerWorld ι) :
    (o : LedgerOp) → Option (Except Exn o.Res × LedgerWorld ι)
  -- `acquire` waits while another thread is inside
  | .acquire =>
      if 0 < w.sem then some (.ok (), { w with sem := w.sem - 1, holder := some i }) else none
  | .release =>
      some (.ok (), { w with sem := w.sem + 1, holder := none, served := w.served ++ [i] })
  | .openRead =>
      match w.file with
      | some _ => some (.ok (), w)
      | none => some (.error .fileNotFound, w)
  | .read => w.file.map fun text => (.ok text, w)
  | .closeRead => some (.ok (), w)
  -- the handle starts at 0 of a file that is now empty
  | .openWrite =>
      some (.ok (),
        { w with file := some [], out := Function.update w.out i (some {}), emptied := true })
  | .write piece => some (.ok (), w.afterFile i c (.write piece))
  | .closeWrite => some (.ok (), w.afterFile i c .closeWrite)

/-- **The operations of thread `i`**, each with the faults it documents. -/
def exec (i : ι) (o : LedgerOp) (c : Choice) (w : LedgerWorld ι) :
    Option (Except Exn o.Res × LedgerWorld ι) :=
  match c.fault with
  | some e => if o.mayRaise e then some (.error e, w.afterFile i c o) else none
  | none => w.perform i c o

/-- What one operation can do: fail with a documented exception, or take place. -/
theorem exec_cases {i : ι} {o : LedgerOp} {c : Choice} {w w' : LedgerWorld ι}
    {r : Except Exn o.Res} (h : w.exec i o c = some (r, w')) :
    (∃ e, c.fault = some e ∧ o.mayRaise e = true ∧ r = .error e ∧ w' = w.afterFile i c o) ∨
      (c.fault = none ∧ w.perform i c o = some (r, w')) := by
  unfold exec at h
  cases hf : c.fault with
  | none =>
      rw [hf] at h
      exact Or.inr ⟨rfl, h⟩
  | some e =>
      rw [hf] at h
      by_cases hm : o.mayRaise e = true
      · simp only [hm, if_true, Option.some.injEq, Prod.mk.injEq] at h
        exact Or.inl ⟨e, rfl, hm, h.1.symm, h.2.symm⟩
      · simp [hm] at h

/-- The semaphore is free and nobody has touched the file. -/
def start (file : Option (List Char)) : LedgerWorld ι := { file := file }

/-- **Threads with one ledger**, and nothing else that touches the file. -/
def ledger : Pool ι LedgerOp LedgerOp.Res Exn Choice Empty (LedgerWorld ι) where
  exec i o c w := w.exec i o c
  env e _ := e.elim

end LedgerWorld

/-! ## What is read -/

namespace ConnectionLedger

/-- What `_read_entries` finds in a file. -/
def readFile : Option (List Char) → Except Exn Json
  | none => .ok (.arr [])
  | some text =>
      match jsonLoads text with
      | some data => connections data
      | none => .ok (.arr [])

/-- **The next `_read_entries`**: what the method gives in a process of its own whose file
operations succeed. -/
def nextRead (file : Option (List Char)) : Option (Except Exn Json) :=
  (readEntries.eval (fun o w => w.exec () o {}) (LedgerWorld.start file)).map Prod.fst

theorem nextRead_eq (file : Option (List Char)) : nextRead file = some (readFile file) := by
  cases file with
  | none => rfl
  | some text =>
      simp only [nextRead, readEntries, Prog.eval_tryExcept, Prog.bind_eq, Prog.eval_bind,
        Prog.eval_tryFinally, jsonLoad, Prog.eval_perform, LedgerWorld.exec, LedgerWorld.perform,
        Option.map_some, readFile, LedgerWorld.start]
      cases hload : jsonLoads text with
      | none => simp [Prog.eval]
      | some data =>
          cases data with
          | obj d => simp [Prog.eval, connections, Prog.ofExcept]
          | _ => simp [Prog.eval, connections, Prog.ofExcept]

/-- The text of well-formed entries is read back. -/
theorem readFile_ledgerText {xs : List Json} (h : ∀ x ∈ xs, x.WF) :
    readFile (some (ledgerText (.arr xs))) = .ok (.arr xs) := by
  have hwf : (Json.obj [("connections", .arr xs)]).WF :=
    ⟨by simp, ⟨PyStr.joined_ofString _, wfList_iff.mpr h⟩, trivial⟩
  have hload := jsonLoads_text hwf
  simp only [readFile, ledgerText, hload]
  rfl

/-- A text cut short is read as the empty list. -/
theorem readFile_of_append {xs : List Json} (h : ∀ x ∈ xs, x.WF) {p q : List Char}
    (hq : q ≠ []) (htext : ledgerText (.arr xs) = p ++ q) :
    readFile (some p) = .ok (.arr []) := by
  have hwf : (Json.obj [("connections", .arr xs)]).WF :=
    ⟨by simp, ⟨PyStr.joined_ofString _, wfList_iff.mpr h⟩, trivial⟩
  have hload := jsonLoads_of_append hwf hq htext
  simp only [readFile, hload]

/-- What is read is well formed. -/
theorem readFile_wf {file : Option (List Char)} {xs : List Json}
    (h : readFile file = .ok (.arr xs)) : ∀ x ∈ xs, x.WF := by
  cases file with
  | none =>
      obtain rfl : [] = xs := by simpa [readFile] using h
      exact fun x hx => absurd hx List.not_mem_nil
  | some text =>
      cases hload : jsonLoads text with
      | none =>
          simp only [readFile, hload, Except.ok.injEq, Json.arr.injEq] at h
          rw [← h]
          exact fun x hx => absurd hx List.not_mem_nil
      | some data =>
          simp only [readFile, hload] at h
          have hwf := jsonLoads_wf hload
          cases data with
          | obj d =>
              have hv : (Dict.get? "connections" d).getD (.arr []) = .arr xs := Except.ok.inj h
              cases hget : Dict.get? "connections" d with
              | none =>
                  rw [hget] at hv
                  obtain rfl : [] = xs := Json.arr.inj hv
                  exact fun x hx => absurd hx List.not_mem_nil
              | some v =>
                  rw [hget] at hv
                  obtain rfl : v = .arr xs := hv
                  exact wfList_iff.mp (wfDict_iff.mp hwf.2 _ (Dict.mem_of_get? hget)).2
          | _ => exact absurd h (by simp [connections])

end ConnectionLedger
