/-
# A directory of files with buffered handles

The part of a POSIX file system a program sees through Python's `open`: a directory
maps names to inodes, a handle keeps its inode even when the name is unlinked, and
what is written through a handle stays in its buffer until it is flushed.

* `Disk` : the directory and the inodes' bytes; `Disk.content` is what a reader of a
  name finds;
* `Disk.Keeps`, `Disk.SameFile` : inodes in use get no new names, one file is untouched;
* `OpenFile` : a handle with its mode, its position and its write buffer;
* `OpenFile.flush` : the first bytes of the buffer reach the inode, at the end of
  the file in mode `ab` and at the handle's own position in mode `wb`;
* `OpenFile.data_flush_of_append` : a flush at the end of the file appends.
-/
import StorageNode.PyStr

/-- The bytes of a file or of a message. -/
abbrev Bytes := List UInt8

/-- The modes of `open` that binary files are opened with. -/
inductive FileMode
  | rb
  | wb
  | ab
  deriving DecidableEq

/-- A directory of files.  Names and inodes are listed once, and the inodes in use
are below `next`. -/
structure Disk where
  dir : List (PyStr × ℕ)
  data : ℕ → Bytes
  next : ℕ
  names : (dir.map Prod.fst).Nodup
  inodes : (dir.map Prod.snd).Nodup
  below : ∀ i ∈ dir.map Prod.snd, i < next

namespace Disk

/-- The directory without files. -/
def empty : Disk where
  dir := []
  data := fun _ => []
  next := 0
  names := List.nodup_nil
  inodes := List.nodup_nil
  below := by simp

/-- The inode a name stands for. -/
def lookup (d : Disk) (p : PyStr) : Option ℕ := d.dir.lookup p

/-- What a reader of the name `p` finds. -/
def content (d : Disk) (p : PyStr) : Option Bytes := (d.lookup p).map d.data

/-- The inode `i` now holds `b`. -/
def setData (d : Disk) (i : ℕ) (b : Bytes) : Disk := { d with data := Function.update d.data i b }

theorem lookup_eq_some_iff (d : Disk) (p : PyStr) (i : ℕ) :
    d.lookup p = some i ↔ (p, i) ∈ d.dir := by
  have h := d.names
  unfold lookup
  generalize d.dir = l at h ⊢
  induction l with
  | nil => simp
  | cons e r ih =>
      obtain ⟨q, j⟩ := e
      simp only [List.map_cons, List.nodup_cons, List.mem_map, not_exists, not_and] at h
      by_cases hpq : p = q
      · subst hpq
        have hnot : (p, i) ∉ r := fun hm => h.1 (p, i) hm rfl
        simp [List.lookup, hnot, eq_comm]
      · have hbeq : (p == q) = false := by simpa using hpq
        simp [List.lookup, hbeq, ih h.2, hpq]

theorem lookup_eq_none_iff (d : Disk) (p : PyStr) :
    d.lookup p = none ↔ p ∉ d.dir.map Prod.fst := by
  constructor
  · intro h hmem
    obtain ⟨⟨q, i⟩, hm, rfl⟩ := List.mem_map.mp hmem
    rw [(d.lookup_eq_some_iff q i).mpr hm] at h
    exact absurd h (by simp)
  · intro h
    cases hl : d.lookup p with
    | none => rfl
    | some i =>
        have hm := (d.lookup_eq_some_iff p i).mp hl
        exact absurd (List.mem_map_of_mem (f := Prod.fst) hm) h

/-- An inode in use is below `next`. -/
theorem lookup_lt_next (d : Disk) {p : PyStr} {i : ℕ} (h : d.lookup p = some i) :
    i < d.next :=
  d.below i (List.mem_map_of_mem (f := Prod.snd) ((d.lookup_eq_some_iff p i).mp h))

/-- Two names never share an inode. -/
theorem lookup_injective (d : Disk) {p q : PyStr} {i : ℕ} (hp : d.lookup p = some i)
    (hq : d.lookup q = some i) : p = q := by
  have hp' := (d.lookup_eq_some_iff p i).mp hp
  have hq' := (d.lookup_eq_some_iff q i).mp hq
  have h := List.inj_on_of_nodup_map d.inodes hp' hq' rfl
  exact congrArg Prod.fst h

/-- `open(p, "wb")` and `open(p, "ab")` of a name that does not exist. -/
def create (d : Disk) (p : PyStr) (h : d.lookup p = none) : Disk where
  dir := (p, d.next) :: d.dir
  data := Function.update d.data d.next []
  next := d.next + 1
  names := by
    rw [List.map_cons, List.nodup_cons]
    exact ⟨(d.lookup_eq_none_iff p).mp h, d.names⟩
  inodes := by
    rw [List.map_cons, List.nodup_cons]
    exact ⟨fun hm => lt_irrefl _ (d.below _ hm), d.inodes⟩
  below := by
    intro i hi
    rw [List.map_cons, List.mem_cons] at hi
    rcases hi with rfl | hi
    · exact Nat.lt_succ_self _
    · exact Nat.lt_succ_of_lt (d.below i hi)

/-- `os.unlink(p)`: the name goes, the inode stays with the handles that have it. -/
def unlink (d : Disk) (p : PyStr) : Disk where
  dir := d.dir.filter (fun e => e.1 ≠ p)
  data := d.data
  next := d.next
  names := d.names.sublist (List.filter_sublist.map _)
  inodes := d.inodes.sublist (List.filter_sublist.map _)
  below := fun i hi => d.below i ((List.filter_sublist.map _).subset hi)

theorem setData_data (d : Disk) (i : ℕ) : d.setData i (d.data i) = d := by
  rw [setData, Function.update_eq_self]

@[simp] theorem lookup_setData (d : Disk) (i : ℕ) (b : Bytes) (p : PyStr) :
    (d.setData i b).lookup p = d.lookup p := rfl

@[simp] theorem data_setData_self (d : Disk) (i : ℕ) (b : Bytes) : (d.setData i b).data i = b :=
  Function.update_self ..

theorem data_setData_of_ne (d : Disk) {i j : ℕ} (h : j ≠ i) (b : Bytes) :
    (d.setData i b).data j = d.data j :=
  Function.update_of_ne h ..

theorem content_of_lookup {d : Disk} {p : PyStr} {i : ℕ} (h : d.lookup p = some i) :
    d.content p = some (d.data i) := by
  rw [content, h, Option.map_some]

theorem lookup_create_self (d : Disk) (p : PyStr) (h : d.lookup p = none) :
    (d.create p h).lookup p = some d.next := by
  simp [create, lookup]

theorem lookup_create_of_ne (d : Disk) {p q : PyStr} (h : d.lookup p = none) (hq : q ≠ p) :
    (d.create p h).lookup q = d.lookup q := by
  have hbeq : (q == p) = false := by simpa using hq
  simp [create, lookup, List.lookup, hbeq]

theorem content_create_self (d : Disk) (p : PyStr) (h : d.lookup p = none) :
    (d.create p h).content p = some [] := by
  rw [content_of_lookup (d.lookup_create_self p h)]
  exact congrArg some (Function.update_self ..)

theorem lookup_unlink_self (d : Disk) (p : PyStr) : (d.unlink p).lookup p = none := by
  rw [lookup_eq_none_iff]
  simp [unlink]

theorem lookup_unlink_of_ne (d : Disk) {p q : PyStr} (hq : q ≠ p) :
    (d.unlink p).lookup q = d.lookup q := by
  ext i
  rw [lookup_eq_some_iff, lookup_eq_some_iff]
  simp [unlink, hq]

end Disk

/-! ## What a change of the directory keeps -/

namespace Disk

/-- No inode in use gets a new name. -/
def Keeps (d d' : Disk) : Prop :=
  d.next ≤ d'.next ∧ ∀ q ino, ino < d.next → d'.lookup q = some ino → d.lookup q = some ino

/-- The file `q` is untouched. -/
def SameFile (q : PyStr) (d d' : Disk) : Prop :=
  d'.lookup q = d.lookup q ∧ ∀ ino, d.lookup q = some ino → d'.data ino = d.data ino

theorem Keeps.refl (d : Disk) : d.Keeps d := ⟨le_rfl, fun _ _ _ h => h⟩

theorem SameFile.refl (q : PyStr) (d : Disk) : SameFile q d d := ⟨rfl, fun _ _ => rfl⟩

theorem SameFile.content {q : PyStr} {d d' : Disk} (h : SameFile q d d') :
    d'.content q = d.content q := by
  obtain ⟨hlookup, hdata⟩ := h
  unfold Disk.content
  rw [hlookup]
  cases hino : d.lookup q with
  | none => rfl
  | some ino => rw [Option.map_some, Option.map_some, hdata ino hino]

theorem keeps_setData (d : Disk) (ino : ℕ) (b : Bytes) : d.Keeps (d.setData ino b) :=
  ⟨le_rfl, fun _ _ _ h => h⟩

theorem sameFile_setData {q : PyStr} {d : Disk} {ino : ℕ} (h : d.lookup q ≠ some ino)
    (b : Bytes) : SameFile q d (d.setData ino b) := by
  refine ⟨rfl, fun j hj => ?_⟩
  have hne : j ≠ ino := fun hji => h (hji ▸ hj)
  exact data_setData_of_ne d hne b

theorem keeps_create {d : Disk} {p : PyStr} (h : d.lookup p = none) : d.Keeps (d.create p h) := by
  refine ⟨Nat.le_succ _, fun q ino hlt hq => ?_⟩
  by_cases hqp : q = p
  · subst hqp
    rw [lookup_create_self, Option.some.injEq] at hq
    omega
  · rwa [lookup_create_of_ne d h hqp] at hq

theorem sameFile_create {p q : PyStr} {d : Disk} (h : d.lookup p = none) (hq : q ≠ p) :
    SameFile q d (d.create p h) := by
  refine ⟨lookup_create_of_ne d h hq, fun ino hino => ?_⟩
  exact Function.update_of_ne (d.lookup_lt_next hino).ne _ _

theorem keeps_unlink (d : Disk) (p : PyStr) : d.Keeps (d.unlink p) := by
  refine ⟨le_rfl, fun q ino _ hq => ?_⟩
  by_cases hqp : q = p
  · rw [hqp, lookup_unlink_self] at hq
    exact absurd hq (by simp)
  · rwa [lookup_unlink_of_ne d hqp] at hq

theorem sameFile_unlink (d : Disk) {p q : PyStr} (hq : q ≠ p) : SameFile q d (d.unlink p) :=
  ⟨lookup_unlink_of_ne d hq, fun _ _ => rfl⟩

end Disk

/-! ## Handles -/

/-- An open file: `pos` counts the bytes read or flushed through the handle, or is
the offset of the last seek. -/
structure OpenFile where
  inode : ℕ
  mode : FileMode
  pos : ℕ
  buf : Bytes

/-- `old` with `b` written at `pos`; a gap is filled with zeros, and writing nothing
changes nothing. -/
def writeAt (pos : ℕ) (b old : Bytes) : Bytes :=
  if b = [] then old
  else old.take pos ++ List.replicate (pos - old.length) 0 ++ b ++ old.drop (pos + b.length)

/-- Where the system puts `b`, given the mode the handle was opened in. -/
def FileMode.place (m : FileMode) (pos : ℕ) (b old : Bytes) : Bytes :=
  match m with
  | .rb => old
  | .wb => writeAt pos b old
  | .ab => old ++ b

theorem writeAt_length (b old : Bytes) : writeAt old.length b old = old ++ b := by
  unfold writeAt
  split
  · next h => rw [h, List.append_nil]
  · rw [List.take_length, Nat.sub_self, List.replicate_zero, List.append_nil,
      List.drop_eq_nil_of_le (Nat.le_add_right _ _), List.append_nil]

theorem place_nil (m : FileMode) (pos : ℕ) (old : Bytes) : m.place pos [] old = old := by
  cases m with
  | rb => rfl
  | wb => rfl
  | ab => exact List.append_nil old

/-- A handle whose position is the file's length appends in both writing modes. -/
theorem place_of_append {m : FileMode} (hm : m ≠ .rb) {pos : ℕ} {b old : Bytes}
    (hpos : m = .wb → pos = old.length) : m.place pos b old = old ++ b := by
  cases m with
  | rb => exact absurd rfl hm
  | wb => rw [FileMode.place, hpos rfl, writeAt_length]
  | ab => rfl

namespace OpenFile

/-- `fh.write(b)`: the bytes go to the buffer. -/
def write (f : OpenFile) (b : Bytes) : OpenFile := { f with buf := f.buf ++ b }

/-- The first `n` bytes of the buffer reach the file. -/
def flush (f : OpenFile) (n : ℕ) (d : Disk) : Disk × OpenFile :=
  (d.setData f.inode (f.mode.place f.pos (f.buf.take n) (d.data f.inode)),
    { f with pos := f.pos + (f.buf.take n).length, buf := f.buf.drop n })

/-- `fh.read(n)`: at most `n` bytes from the handle's position on. -/
def read (f : OpenFile) (n : ℕ) (d : Disk) : Bytes × OpenFile :=
  let b := ((d.data f.inode).drop f.pos).take n
  (b, { f with pos := f.pos + b.length })

/-- `fh.seek(off, 0)`. -/
def seek (f : OpenFile) (off : ℕ) : OpenFile := { f with pos := off }

end OpenFile

/-- `open(p, mode)`: reading a name that does not exist fails; `wb` empties a file
that exists; both writing modes create one that does not. -/
def Disk.openFile (d : Disk) (p : PyStr) (m : FileMode) : Option (Disk × OpenFile) :=
  match h : d.lookup p with
  | some i =>
      match m with
      | .wb => some (d.setData i [], { inode := i, mode := m, pos := 0, buf := [] })
      | _ => some (d, { inode := i, mode := m, pos := 0, buf := [] })
  | none =>
      match m with
      | .rb => none
      | _ => some (d.create p h, { inode := d.next, mode := m, pos := 0, buf := [] })

theorem Disk.openFile_ab {d : Disk} {p : PyStr} {i : ℕ} (h : d.lookup p = some i) :
    d.openFile p .ab = some (d, { inode := i, mode := .ab, pos := 0, buf := [] }) := by
  unfold Disk.openFile
  split
  · next j hj =>
      rw [h, Option.some.injEq] at hj
      rw [hj]
  · next hn => rw [h] at hn; exact absurd hn (by simp)

theorem Disk.openFile_rb {d : Disk} {p : PyStr} {i : ℕ} (h : d.lookup p = some i) :
    d.openFile p .rb = some (d, { inode := i, mode := .rb, pos := 0, buf := [] }) := by
  unfold Disk.openFile
  split
  · next j hj =>
      rw [h, Option.some.injEq] at hj
      rw [hj]
  · next hn => rw [h] at hn; exact absurd hn (by simp)

theorem Disk.openFile_wb_create {d : Disk} {p : PyStr} (h : d.lookup p = none) :
    d.openFile p .wb =
      some (d.create p h, { inode := d.next, mode := .wb, pos := 0, buf := [] }) := by
  unfold Disk.openFile
  split
  · next j hj => rw [h] at hj; exact absurd hj (by simp)
  · rfl

namespace OpenFile

/-- A flush of nothing changes neither the disk nor the handle. -/
theorem flush_nil {f : OpenFile} {n : ℕ} (h : f.buf.take n = []) (d : Disk) :
    f.flush n d = (d, f) := by
  have hbuf : f.buf.drop n = f.buf := by
    conv_rhs => rw [← List.take_append_drop n f.buf, h, List.nil_append]
  rw [flush, h, place_nil, Disk.setData_data, List.length_nil, hbuf, Nat.add_zero]

/-- **A flush that appends.**  When the handle's position is the file's length (or the
mode is `ab`), the flushed bytes come right after what the file held. -/
theorem data_flush_of_append {f : OpenFile} {d : Disk} {n : ℕ} (hm : f.mode ≠ .rb)
    (hpos : f.mode = .wb → f.pos = (d.data f.inode).length) :
    (f.flush n d).1.data f.inode = d.data f.inode ++ f.buf.take n := by
  rw [flush, Disk.data_setData_self, place_of_append hm hpos]

end OpenFile
