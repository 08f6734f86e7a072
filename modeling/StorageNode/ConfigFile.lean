/-
# The configuration file (`ConfigFileManager`)

Two lines: the local address and the primary port.

* `isSpace`, `strip`, `readLines`, `pyInt` : the text functions of Python that are used;
* `ConfigFileManager.readConfig`, `writeConfig` : the methods;
* `readConfig_configText` : what is written is read back;
* `WriteFaults`, `ConfigHandle` : how one `write_config` can go wrong, and what it leaves;
* `writesConfig_intact`, `writesConfig_none` : a write that is not disturbed, and one that has
  no address to write.

`open(..., "w")` empties the file; `int` takes ASCII digits.
-/
import StorageNode.NodeOps
import StorageNode.RouterGateway

/-! ## Texts -/

/-- `c.isspace()`. -/
def isSpace (c : Char) : Bool :=
  let n := c.toNat
  (9 ≤ n && n ≤ 13) || (28 ≤ n && n ≤ 32) || n == 0x85 || n == 0xA0 || n == 0x1680 ||
    (0x2000 ≤ n && n ≤ 0x200A) || n == 0x2028 || n == 0x2029 || n == 0x202F || n == 0x205F ||
    n == 0x3000

/-- `s.strip()`. -/
def strip (s : Text) : Text := (s.dropWhile isSpace).rdropWhile isSpace

/-- What reading a file in text mode makes of its line ends. -/
def universalNewlines : Text → Text
  | [] => []
  | '\r' :: '\n' :: rest => '\n' :: universalNewlines rest
  | c :: rest => (if c = '\r' then '\n' else c) :: universalNewlines rest

/-- `handle.readlines()`: every line keeps its end. -/
def readLines : Text → List Text
  | [] => []
  | c :: rest =>
      if c = '\n' then ['\n'] :: readLines rest
      else
        match readLines rest with
        | [] => [[c]]
        | line :: more => (c :: line) :: more

/-- The digits of an `int` literal: single underscores may stand between them. -/
def pyDigits (s : Text) : Option ℕ :=
  -- no digits, or an underscore at an end or next to another one, is a `ValueError`
  if (s.splitOn '_').all fun group => !group.isEmpty && group.all Char.isDigit then
    some (Nat.ofDigitChars 10 (s.filter (· != '_')) 0)
  else none

/-- `int(s)`; `none` for a `ValueError`. -/
def pyInt (s : Text) : Option ℤ :=
  match strip s with
  | '-' :: digits => (pyDigits digits).map fun n => -Int.ofNat n
  | '+' :: digits => (pyDigits digits).map Int.ofNat
  | digits => (pyDigits digits).map Int.ofNat

/-! ## The methods -/

/-- What `read_config` can raise on a file or without one. -/
inductive ConfigFault
  | fileNotFound
  | indexError
  | valueError
  deriving DecidableEq

/-- The operations of `write_config`. -/
inductive ConfigOp
  /-- `open(self._config_file, "w")` -/
  | openForWriting
  /-- `handle.write(text)` -/
  | write (text : Text)
  /-- the end of the `with` block -/
  | close

@[reducible] def ConfigOp.Res : ConfigOp → Type := fun _ => Unit

/-- Programs of the configuration file. -/
abbrev ConfigProg (α : Type) : Type := Prog ConfigOp ConfigOp.Res Exn α

/-- Call an operation. -/
abbrev configOp (o : ConfigOp) : ConfigProg Unit := Prog.perform o

namespace ConfigFileManager

/-- `self._config.local_ip + "\n"`. -/
def firstLine : Option Text → Except Exn Text
  | none => .error .typeError
  | some ip => .ok (ip ++ ['\n'])

/-- `write_config`. -/
def writeConfig (localIp : Option Text) (decentoragePort : ℤ) : ConfigProg Unit := do
  configOp .openForWriting
  (do
    -- evaluated after `open` has emptied the file: `None + "\n"` leaves it empty
    let line ← Prog.ofExcept (firstLine localIp)
    configOp (.write line)
    configOp (.write (intText decentoragePort))).tryFinally (configOp .close)

/-- `read_config`: the address and the port it stores. -/
def readConfig : Option Text → Except ConfigFault (Text × ℤ)
  | none => .error .fileNotFound
  | some content =>
      match readLines (universalNewlines content) with
      -- `lines[0]` or `lines[1]` is missing
      | [] => .error .indexError
      | line :: rest =>
          match rest with
          | [] => .error .indexError
          | second :: _ =>
              match pyInt second with
              | none => .error .valueError
              | some port => .ok (strip (line.filter (· != ' ')), port)

end ConfigFileManager

/-- What `write_config` writes. -/
def configText (ip : Text) (port : ℤ) : Text := ip ++ '\n' :: intText port

/-- The address contains no whitespace. -/
def NoSpace (ip : Text) : Prop := ∀ c ∈ ip, isSpace c = false

instance (ip : Text) : Decidable (NoSpace ip) :=
  decidable_of_iff (ip.all (fun c => !isSpace c) = true) (by
    simp only [NoSpace, List.all_eq_true, Bool.not_eq_true'])

/-! ## Reading back -/

section ReadBack

theorem strip_of_noSpace {s : Text} (h : NoSpace s) : strip s = s := by
  have hfront : s.dropWhile isSpace = s := by
    cases s with
    | nil => rfl
    | cons c s => exact List.dropWhile_cons_of_neg (by rw [h c List.mem_cons_self]; decide)
  rw [strip, hfront, List.rdropWhile_eq_self_iff]
  intro hne
  rw [h _ (List.getLast_mem hne)]
  decide

theorem universalNewlines_of_plain {s : Text} (h : '\r' ∉ s) : universalNewlines s = s := by
  fun_induction universalNewlines s with
  | case1 => rfl
  | case2 rest ih => exact absurd List.mem_cons_self h
  | case3 c rest _ ih =>
      rw [List.mem_cons, not_or] at h
      rw [if_neg (Ne.symm h.1), ih h.2]

/-- A first line is cut off at its end. -/
theorem readLines_line {a : Text} (h : '\n' ∉ a) (rest : Text) :
    readLines (a ++ '\n' :: rest) = (a ++ ['\n']) :: readLines rest := by
  induction a with
  | nil => rw [List.nil_append, List.nil_append, readLines, if_pos rfl]
  | cons c a ih =>
      rw [List.mem_cons, not_or] at h
      rw [List.cons_append, readLines, if_neg (Ne.symm h.1), ih h.2]
      rfl

theorem readLines_last {a : Text} (h : '\n' ∉ a) (hne : a ≠ []) : readLines a = [a] := by
  induction a with
  | nil => exact absurd rfl hne
  | cons c a ih =>
      rw [List.mem_cons, not_or] at h
      rw [readLines, if_neg (Ne.symm h.1)]
      cases a with
      | nil => rfl
      | cons d a => rw [ih h.2 (List.cons_ne_nil d a)]

/-- The digits of a number. -/
theorem pyDigits_toDigits (n : ℕ) : pyDigits (Nat.toDigits 10 n) = some n := by
  have hdigit : ∀ c ∈ Nat.toDigits 10 n, c.isDigit = true := fun c hc =>
    Nat.isDigit_of_mem_toDigits (by decide) (by decide) hc
  have hplain : '_' ∉ Nat.toDigits 10 n := fun h => absurd (hdigit _ h) (by decide)
  have hfilter : (Nat.toDigits 10 n).filter (· != '_') = Nat.toDigits 10 n := by
    rw [List.filter_eq_self]
    intro c hc
    rw [bne_iff_ne]
    rintro rfl
    exact hplain hc
  have hgroups : ((Nat.toDigits 10 n).splitOn '_').all
      (fun group => !group.isEmpty && group.all Char.isDigit) = true := by
    rw [List.splitOn_eq_singleton hplain, List.all_cons, List.all_nil, Bool.and_true,
      Bool.and_eq_true, List.all_eq_true]
    refine ⟨?_, hdigit⟩
    rw [Bool.not_eq_true', List.isEmpty_eq_false_iff]
    exact Nat.toDigits_ne_nil
  rw [pyDigits, if_pos hgroups, hfilter, Nat.ofDigitChars_ten_toDigits]

theorem isSpace_of_isDigit {c : Char} (h : c.isDigit = true) : isSpace c = false := by
  simp only [Char.isDigit, Bool.and_eq_true, decide_eq_true_eq] at h
  have hlow : 48 ≤ c.toNat := h.1
  have hhigh : c.toNat ≤ 57 := h.2
  simp only [isSpace, Bool.or_eq_false_iff, Bool.and_eq_false_iff, decide_eq_false_iff_not,
    beq_eq_false_iff_ne]
  omega

/-- The text of an integer: a sign, if it is negative, and digits. -/
theorem intText_eq (n : ℤ) : intText n =
    if n < 0 then '-' :: Nat.toDigits 10 n.natAbs else Nat.toDigits 10 n.natAbs := by
  cases n with
  | ofNat k =>
      rw [if_neg (by simp)]
      exact Nat.toList_repr
  | negSucc k =>
      rw [if_pos (Int.negSucc_lt_zero k)]
      show ("-" ++ (Nat.repr (k + 1))).toList = _
      rw [String.toList_append, Nat.toList_repr]
      rfl

theorem noSpace_intText (n : ℤ) : NoSpace (intText n) := by
  have hdigits : NoSpace (Nat.toDigits 10 n.natAbs) := fun c hc =>
    isSpace_of_isDigit (Nat.isDigit_of_mem_toDigits (by decide) (by decide) hc)
  rw [intText_eq]
  split
  · intro c hc
    rcases List.mem_cons.mp hc with rfl | hc
    · decide
    · exact hdigits c hc
  · exact hdigits

/-- **The text of an integer is read back.** -/
theorem pyInt_intText (n : ℤ) : pyInt (intText n) = some n := by
  have hdigit : ∀ c ∈ Nat.toDigits 10 n.natAbs, c.isDigit = true := fun c hc =>
    Nat.isDigit_of_mem_toDigits (by decide) (by decide) hc
  rw [pyInt, strip_of_noSpace (noSpace_intText n), intText_eq]
  by_cases hneg : n < 0
  · simp only [if_pos hneg, pyDigits_toDigits, Option.map_some, Option.some.injEq,
      Int.ofNat_eq_natCast]
    omega
  · rw [if_neg hneg]
    split
    · next digits heq => exact absurd (hdigit '-' (by rw [heq]; simp)) (by decide)
    · next digits heq => exact absurd (hdigit '+' (by rw [heq]; simp)) (by decide)
    · rw [pyDigits_toDigits, Option.map_some, Option.some.injEq, Int.ofNat_eq_natCast]
      omega

theorem not_mem_of_noSpace {s : Text} {c : Char} (h : NoSpace s) (hc : isSpace c = true) :
    c ∉ s := by
  intro hmem
  rw [h c hmem] at hc
  cases hc

/-- **What is written is read back.** -/
theorem readConfig_configText {ip : Text} (h : NoSpace ip) (port : ℤ) :
    ConfigFileManager.readConfig (some (configText ip port)) = .ok (ip, port) := by
  have hport := noSpace_intText port
  have hne : intText port ≠ [] := by
    rw [intText_eq]
    split
    · exact List.cons_ne_nil _ _
    · exact Nat.toDigits_ne_nil
  have hplain : '\r' ∉ configText ip port := by
    intro hmem
    rcases List.mem_append.mp hmem with hmem | hmem
    · exact not_mem_of_noSpace h (by decide) hmem
    · rcases List.mem_cons.mp hmem with heq | hmem
      · exact absurd heq (by decide)
      · exact not_mem_of_noSpace hport (by decide) hmem
  have hlines : readLines (universalNewlines (configText ip port)) =
      [ip ++ ['\n'], intText port] := by
    rw [universalNewlines_of_plain hplain, configText,
      readLines_line (not_mem_of_noSpace h (by decide)),
      readLines_last (not_mem_of_noSpace hport (by decide)) hne]
  have haddress : strip ((ip ++ ['\n']).filter (· != ' ')) = ip := by
    have hfilter : (ip ++ ['\n']).filter (· != ' ') = ip ++ ['\n'] := by
      rw [List.filter_eq_self]
      intro c hc
      rw [bne_iff_ne]
      rintro rfl
      rcases List.mem_append.mp hc with hc | hc
      · exact not_mem_of_noSpace h (by decide) hc
      · exact absurd (List.mem_singleton.mp hc) (by decide)
    have hfront : (ip ++ ['\n']).dropWhile isSpace = if ip = [] then [] else ip ++ ['\n'] := by
      cases ip with
      | nil => rfl
      | cons c ip =>
          rw [if_neg (List.cons_ne_nil c ip)]
          exact List.dropWhile_cons_of_neg (by rw [h c List.mem_cons_self]; decide)
    rw [hfilter, strip, hfront]
    split
    · next hnil => rw [hnil, List.rdropWhile_nil]
    · rw [List.rdropWhile_concat_pos _ _ _ (by decide), List.rdropWhile_eq_self_iff]
      intro hne
      rw [h _ (List.getLast_mem hne)]
      decide
  simp only [ConfigFileManager.readConfig, hlines, pyInt_intText, haddress]

end ReadBack

/-! ## Faults -/

/-- How one `write_config` can go wrong. -/
structure WriteFaults where
  openFails : Option Exn := none
  /-- the exception of each write, and how many characters it has taken in before -/
  writeFails : ℕ → Option (Exn × ℕ) := fun _ => none
  /-- the exception of closing the file, and how many characters the file then has -/
  closeFails : Option (Exn × ℕ) := none

/-- The file on the disk, and the number of writes so far. -/
structure ConfigHandle where
  file : Option Text
  writes : ℕ := 0

/-- One operation of `write_config`. -/
def ConfigHandle.exec (f : WriteFaults) (o : ConfigOp) (h : ConfigHandle) :
    Option (Except Exn o.Res × ConfigHandle) :=
  match o with
  | .openForWriting =>
      match f.openFails with
      | none => some (.ok (), { file := some [] })
      | some e => some (.error e, h)
  | .write text =>
      match f.writeFails h.writes with
      | none => some (.ok (), { file := h.file.map (· ++ text), writes := h.writes + 1 })
      | some (e, n) =>
          some (.error e, { file := h.file.map (· ++ text.take n), writes := h.writes + 1 })
  | .close =>
      -- what was still in the buffer is lost when closing fails
      match f.closeFails with
      | none => some (.ok (), h)
      | some (e, n) => some (.error e, { h with file := h.file.map (·.take n) })

/-- **A write that is not disturbed**: the file is not opened at all, or there is an address
to write and nothing fails until the file is closed. -/
def WriteFaults.Intact (f : WriteFaults) (localIp : Option Text) : Prop :=
  f.openFails ≠ none ∨
    (localIp ≠ none ∧ (∀ i, f.writeFails i = none) ∧ f.closeFails = none)

/-- A call of `write_config` with its outcome and the file it leaves. -/
def WritesConfig (localIp : Option Text) (port : ℤ) (f : WriteFaults) (file : Option Text)
    (r : Except Exn Unit) (file' : Option Text) : Prop :=
  ∃ n, (ConfigFileManager.writeConfig localIp port).eval (ConfigHandle.exec f) { file := file } =
    some (r, { file := file', writes := n })

section Faults

variable {f : WriteFaults} {localIp : Option Text} {port : ℤ} {file file' : Option Text}
  {r : Except Exn Unit}

/-- The file cannot be opened. -/
theorem writesConfig_unopened {e : Exn} (he : f.openFails = some e)
    (h : WritesConfig localIp port f file r file') : r = .error e ∧ file' = file := by
  obtain ⟨n, h⟩ := h
  have hopen : ConfigHandle.exec f .openForWriting { file := file } =
      some (.error e, { file := file }) := by
    simp only [ConfigHandle.exec, he]
  simp only [ConfigFileManager.writeConfig, configOp, Prog.bind_eq, Prog.eval_bind,
    Prog.eval_perform, hopen] at h
  cases h
  exact ⟨rfl, rfl⟩

/-- **Nothing fails**: the file holds the address and the port. -/
theorem writesConfig_whole {ip : Text} (hopen : f.openFails = none)
    (hwrites : ∀ i, f.writeFails i = none) (hclose : f.closeFails = none) :
    WritesConfig (some ip) port f file r file' ↔
      r = .ok () ∧ file' = some (configText ip port) := by
  have hexec : (ConfigFileManager.writeConfig (some ip) port).eval (ConfigHandle.exec f)
      { file := file } = some (.ok (), { file := some (configText ip port), writes := 2 }) := by
    simp only [ConfigFileManager.writeConfig, ConfigFileManager.firstLine, configOp, Prog.bind_eq,
      Prog.eval_bind, Prog.eval_perform, Prog.eval_tryFinally, Prog.ofExcept, Prog.ret_bind,
      ConfigHandle.exec, hopen, hwrites, hclose, Prog.eval, Option.map_some, List.nil_append,
      configText, List.append_assoc, List.singleton_append]
  rw [WritesConfig, hexec]
  constructor
  · rintro ⟨n, h⟩
    cases h
    exact ⟨rfl, rfl⟩
  · rintro ⟨rfl, rfl⟩
    exact ⟨2, rfl⟩

/-- **There is no address to write**: the file has been emptied before that is noticed. -/
theorem writesConfig_none (hopen : f.openFails = none)
    (h : WritesConfig none port f file r file') : (∃ e, r = .error e) ∧ file' = some [] := by
  obtain ⟨n, h⟩ := h
  have hexec : ∃ e, (ConfigFileManager.writeConfig none port).eval (ConfigHandle.exec f)
      { file := file } = some (.error e, { file := some [] }) := by
    cases hclose : f.closeFails with
    | none =>
        refine ⟨.typeError, ?_⟩
        simp only [ConfigFileManager.writeConfig, ConfigFileManager.firstLine, configOp,
          Prog.bind_eq, Prog.eval_bind, Prog.eval_perform, Prog.eval_tryFinally, Prog.ofExcept,
          Prog.raise_bind, ConfigHandle.exec, hopen, hclose, Prog.eval]
    | some en =>
        refine ⟨en.1, ?_⟩
        simp only [ConfigFileManager.writeConfig, ConfigFileManager.firstLine, configOp,
          Prog.bind_eq, Prog.eval_bind, Prog.eval_perform, Prog.eval_tryFinally, Prog.ofExcept,
          Prog.raise_bind, ConfigHandle.exec, hopen, hclose, Prog.eval, Option.map_some,
          List.take_nil]
  obtain ⟨e, hexec⟩ := hexec
  rw [hexec] at h
  cases h
  exact ⟨⟨e, rfl⟩, rfl⟩

/-- A write that is not disturbed leaves the file alone or completes it. -/
theorem writesConfig_intact (hintact : f.Intact localIp)
    (h : WritesConfig localIp port f file r file') :
    ((∃ e, r = .error e) ∧ file' = file) ∨
      ∃ ip, localIp = some ip ∧ r = .ok () ∧ file' = some (configText ip port) := by
  cases hopen : f.openFails with
  | some e =>
      obtain ⟨hr, hfile⟩ := writesConfig_unopened hopen h
      exact Or.inl ⟨⟨e, hr⟩, hfile⟩
  | none =>
      obtain ⟨hip, hwrites, hclose⟩ := hintact.resolve_left fun hne => hne hopen
      obtain ⟨ip, rfl⟩ := Option.ne_none_iff_exists'.mp hip
      obtain ⟨hr, hfile⟩ := (writesConfig_whole hopen hwrites hclose).mp h
      exact Or.inr ⟨ip, rfl, hr, hfile⟩

end Faults
