/-
# JSON texts

`json.dumps` and `json.loads` of the standard library, on lists of characters: the writer
with its default separators and ASCII escapes, and the reader with its grammar of
whitespace, strings, numbers, lists and dictionaries.

* `FloatText` : the decimal text of a float, with the float it stands for
  (`FloatText.value`) and the one that is written for a float (`FloatText.repr`);
* `Json.text` : what `json.dump` writes;
* `parseValue`, `jsonLoads` : what `json.load` reads; a repeated key keeps its place and
  takes the last value (`Dict.ofPairs`).

The reader's recursion takes fuel; the length of the text is always enough.
-/
import StorageNode.Json

/-! ## Writing -/

/-- The character of a hexadecimal digit. -/
def hexDigit (n : ℕ) : Char := if n < 10 then Char.ofNat (48 + n) else Char.ofNat (87 + n)

/-- `\uXXXX`. -/
def unicodeEscape (n : ℕ) : List Char :=
  ['\\', 'u', hexDigit (n / 4096 % 16), hexDigit (n / 256 % 16), hexDigit (n / 16 % 16),
    hexDigit (n % 16)]

/-- One code point inside a string: the two-character escapes, printable ASCII as it is,
and `\uXXXX` for the rest, in two halves above the basic plane. -/
def escapeChar : CodePoint → List Char
  | .char c =>
      if c = '"' then ['\\', '"']
      else if c = '\\' then ['\\', '\\']
      else if c = '\n' then ['\\', 'n']
      else if c = '\r' then ['\\', 'r']
      else if c = '\t' then ['\\', 't']
      else if c = '\x08' then ['\\', 'b']
      else if c = '\x0c' then ['\\', 'f']
      else if 32 ≤ c.toNat ∧ c.toNat ≤ 126 then [c]
      else if c.toNat < 0x10000 then unicodeEscape c.toNat
      else
        unicodeEscape (0xd800 + (c.toNat - 0x10000) / 1024) ++
          unicodeEscape (0xdc00 + (c.toNat - 0x10000) % 1024)
  | .surrogate n => unicodeEscape (0xd800 + n)

/-- The code points of a string and the closing quote. -/
def charsText : PyStr → List Char
  | [] => ['"']
  | c :: r => escapeChar c ++ charsText r

/-- The character of a decimal digit. -/
def digitChar (d : Fin 10) : Char := Char.ofNat (48 + d)

/-- The decimal digits of a number, most significant first. -/
def natDigits (n : ℕ) : List (Fin 10) := (Nat.digits 10 n).reverse.map (Fin.ofNat 10)

/-- The decimal text of a number. -/
def natText (n : ℕ) : List Char := if n = 0 then ['0'] else (natDigits n).map digitChar

/-- The sign of a negative number. -/
def signText (neg : Bool) : List Char := if neg then ['-'] else []

/-- The number a list of digits stands for. -/
def digitsValue (ds : List (Fin 10)) : ℕ := Nat.ofDigits 10 (ds.reverse.map Fin.val)

/-- The last `k` decimal digits of a number. -/
def lastDigits : ℕ → ℕ → List (Fin 10)
  | 0, _ => []
  | k + 1, n => lastDigits k (n / 10) ++ [Fin.ofNat 10 n]

theorem lastDigits_ne_nil {k : ℕ} (hk : k ≠ 0) (n : ℕ) : lastDigits k n ≠ [] := by
  cases k with
  | zero => exact absurd rfl hk
  | succ k => simp [lastDigits]

/-- The decimal text of a finite float: sign, integral part, digits after the point,
and an exponent (`true` for a minus sign).  A text without point and exponent would
be an integer. -/
structure FloatText where
  neg : Bool
  whole : ℕ
  frac : List (Fin 10)
  exp : Option (Bool × List (Fin 10))
  isFloat : frac ≠ [] ∨ exp.isSome
  expDigits : ∀ e ∈ exp, e.2 ≠ []
  deriving DecidableEq

namespace FloatText

/-- The digits without the point. -/
def coefficient (t : FloatText) : ℕ := t.whole * 10 ^ t.frac.length + digitsValue t.frac

/-- The power of ten in the numerator. -/
def up (t : FloatText) : ℕ :=
  match t.exp with
  | some (false, ds) => digitsValue ds
  | _ => 0

/-- The power of ten in the denominator. -/
def down (t : FloatText) : ℕ :=
  match t.exp with
  | some (true, ds) => t.frac.length + digitsValue ds
  | _ => t.frac.length

/-- `float(text)`: the nearest float, or an infinity. -/
def value (t : FloatText) : JsonFloat :=
  ((Binary64.nearest t.neg (t.coefficient * 10 ^ t.up * 2 ^ Binary64.places)
    (10 ^ t.down)).map JsonFloat.finite).getD (.infinity t.neg)

/-- A number without its trailing zeros, at most `k` of them, and how many these are. -/
def strip : ℕ → ℕ → ℕ × ℕ
  | 0, n => (0, n)
  | k + 1, n => if n % 10 = 0 then ((strip k (n / 10)).1 + 1, (strip k (n / 10)).2) else (0, n)

/-- `m * 10 ^ -k` without an exponent. -/
def fixed (neg : Bool) (m k : ℕ) (hk : k ≠ 0) : FloatText where
  neg := neg
  whole := m / 10 ^ k
  frac := lastDigits k m
  exp := none
  isFloat := Or.inl (lastDigits_ne_nil hk m)
  expDigits := by simp

/-- At least two digits. -/
def exponentDigits (n : ℕ) : List (Fin 10) := if n < 10 then lastDigits 2 n else natDigits n

theorem exponentDigits_ne_nil (n : ℕ) : exponentDigits n ≠ [] := by
  unfold exponentDigits
  split
  · exact lastDigits_ne_nil (by decide) n
  · next h =>
      have hn : n ≠ 0 := by omega
      simpa [natDigits] using Nat.digits_ne_nil_iff_ne_zero.mpr hn

/-- `m * 10 ^ -k * 10 ^ e`. -/
def scientific (neg : Bool) (m k : ℕ) (e : ℤ) : FloatText where
  neg := neg
  whole := m / 10 ^ k
  frac := lastDigits k m
  exp := some (decide (e < 0), exponentDigits e.natAbs)
  isFloat := Or.inr rfl
  expDigits := by
    rintro e ⟨rfl⟩
    exact exponentDigits_ne_nil _

/-- The text of `n * 10 ^ -places`: without an exponent from `1e-4` up to `1e16`. -/
def ofDecimal (neg : Bool) (n : ℕ) : FloatText :=
  let point : ℤ := (Nat.digits 10 n).length - Binary64.places
  if n = 0 ∨ -4 < point ∧ point ≤ 16 then
    -- one digit is left behind the point
    let s := strip (Binary64.places - 1) n
    fixed neg s.2 (Binary64.places - 1 - s.1 + 1) (Nat.succ_ne_zero _)
  else
    let s := strip n n
    let k := (Nat.digits 10 s.2).length - 1
    scientific neg s.2 k (s.1 + k - Binary64.places)

/-- `float.__repr__`. -/
def repr (x : Binary64) : FloatText := ofDecimal x.neg x.shortest

end FloatText

def fracText (frac : List (Fin 10)) : List Char :=
  if frac = [] then [] else '.' :: frac.map digitChar

def expText : Option (Bool × List (Fin 10)) → List Char
  | none => []
  | some (neg, ds) => 'e' :: (if neg then '-' else '+') :: ds.map digitChar

def FloatText.text (t : FloatText) : List Char :=
  signText t.neg ++ (natText t.whole ++ (fracText t.frac ++ expText t.exp))

def JsonFloat.text : JsonFloat → List Char
  | .finite x => (FloatText.repr x).text
  | .infinity neg => signText neg ++ ['I', 'n', 'f', 'i', 'n', 'i', 't', 'y']
  | .nan => ['N', 'a', 'N']

mutual

/-- What `json.dump` writes for a value. -/
def Json.text : Json → List Char
  | .null => ['n', 'u', 'l', 'l']
  | .bool true => ['t', 'r', 'u', 'e']
  | .bool false => ['f', 'a', 'l', 's', 'e']
  | .int n => signText (n < 0) ++ natText n.natAbs
  | .float x => x.text
  | .str s => '"' :: charsText s
  | .arr xs => '[' :: elementsText xs
  | .obj kvs => '{' :: membersText kvs

/-- The elements of a list and the closing bracket. -/
def elementsText : List Json → List Char
  | [] => [']']
  | [x] => x.text ++ [']']
  | x :: y :: r => x.text ++ (',' :: ' ' :: elementsText (y :: r))

/-- The entries of a dictionary and the closing brace. -/
def membersText : List (PyStr × Json) → List Char
  | [] => ['}']
  | [kv] => '"' :: (charsText kv.1 ++ (':' :: ' ' :: (kv.2.text ++ ['}'])))
  | kv :: kv' :: r =>
      '"' :: (charsText kv.1 ++
        (':' :: ' ' :: (kv.2.text ++ (',' :: ' ' :: membersText (kv' :: r)))))

end

/-! ## Reading -/

/-- `[ \t\n\r]`. -/
def isJsonSpace (c : Char) : Bool := c = ' ' || c = '\t' || c = '\n' || c = '\r'

/-- Skip whitespace. -/
def skipSpace : List Char → List Char
  | [] => []
  | c :: r => if isJsonSpace c then skipSpace r else c :: r

/-- The value of a hexadecimal digit. -/
def hexVal? (c : Char) : Option ℕ :=
  if '0' ≤ c ∧ c ≤ '9' then some (c.toNat - 48)
  else if 'a' ≤ c ∧ c ≤ 'f' then some (c.toNat - 87)
  else if 'A' ≤ c ∧ c ≤ 'F' then some (c.toNat - 55)
  else none

/-- The code unit of four hexadecimal digits. -/
def codeUnit? (a b c d : Char) : Option ℕ :=
  match hexVal? a, hexVal? b, hexVal? c, hexVal? d with
  | some a, some b, some c, some d => some (a * 4096 + b * 256 + c * 16 + d)
  | _, _, _, _ => none

/-- `chr(n)` for a code unit. -/
def codePoint (n : ℕ) : CodePoint :=
  if h : 0xd800 ≤ n ∧ n ≤ 0xdfff then .surrogate ⟨n - 0xd800, by omega⟩ else .char (Char.ofNat n)

/-- What stands after `\u`. -/
def parseUnicode : List Char → Option (CodePoint × List Char)
  | a :: b :: c :: d :: r => (codeUnit? a b c d).map fun n => (codePoint n, r)
  | _ => none

/-- What stands after a backslash. -/
def parseEscape : List Char → Option (CodePoint × List Char)
  | [] => none
  | c :: r =>
      if c = '"' then some (.char '"', r)
      else if c = '\\' then some (.char '\\', r)
      else if c = '/' then some (.char '/', r)
      else if c = 'b' then some (.char '\x08', r)
      else if c = 'f' then some (.char '\x0c', r)
      else if c = 'n' then some (.char '\n', r)
      else if c = 'r' then some (.char '\r', r)
      else if c = 't' then some (.char '\t', r)
      else if c = 'u' then parseUnicode r
      else none

/-- The code points of a string up to the closing quote, each escape by itself. -/
def parseChars : ℕ → List Char → Option (PyStr × List Char)
  | 0, _ => none
  | _ + 1, [] => none
  | n + 1, c :: r =>
      if c = '"' then some ([], r)
      else if c = '\\' then
        match parseEscape r with
        | some (c', r') => (parseChars n r').map fun s => (c' :: s.1, s.2)
        | none => none
      else if c.toNat < 32 then none
      else (parseChars n r).map fun s => (.char c :: s.1, s.2)

/-- A string up to the closing quote: two escapes that stand for one character are read as
one, and a surrogate without its other half is kept as it is. -/
def scanString (cs : List Char) : Option (PyStr × List Char) :=
  (parseChars (cs.length + 1) cs).map fun s => (PyStr.join s.1, s.2)

/-- The value of a decimal digit. -/
def digit? (c : Char) : Option (Fin 10) :=
  if h : 48 ≤ c.toNat ∧ c.toNat ≤ 57 then some ⟨c.toNat - 48, by omega⟩ else none

/-- The digits a text starts with. -/
def takeDigits : List Char → List (Fin 10) × List Char
  | [] => ([], [])
  | c :: r =>
      match digit? c with
      | some d => (d :: (takeDigits r).1, (takeDigits r).2)
      | none => ([], c :: r)

/-- `0|[1-9][0-9]*`. -/
def intPart : List Char → Option (ℕ × List Char)
  | [] => none
  | c :: r =>
      match digit? c with
      | none => none
      | some d =>
          if d = 0 then some (0, r)
          else some (digitsValue (d :: (takeDigits r).1), (takeDigits r).2)

/-- `(\.[0-9]+)?`. -/
def fracPart : List Char → List (Fin 10) × List Char
  | [] => ([], [])
  | c :: r =>
      if c = '.' ∧ (takeDigits r).1 ≠ [] then takeDigits r else ([], c :: r)

/-- `[-+]?`. -/
def expSign : List Char → Bool × List Char
  | [] => (false, [])
  | c :: r => if c = '-' then (true, r) else if c = '+' then (false, r) else (false, c :: r)

/-- `([eE][-+]?[0-9]+)?`. -/
def expPart : List Char → Option (Bool × List (Fin 10)) × List Char
  | [] => (none, [])
  | c :: r =>
      if (c = 'e' ∨ c = 'E') ∧ (takeDigits (expSign r).2).1 ≠ [] then
        (some ((expSign r).1, (takeDigits (expSign r).2).1), (takeDigits (expSign r).2).2)
      else (none, c :: r)

/-- `-?`. -/
def minusSign : List Char → Bool × List Char
  | [] => (false, [])
  | c :: r => if c = '-' then (true, r) else (false, c :: r)

/-- A number without point and exponent is an integer. -/
def numberOf (neg : Bool) (whole : ℕ) (frac : List (Fin 10))
    (exp : Option (Bool × List (Fin 10))) : Json :=
  if h : (frac ≠ [] ∨ exp.isSome) ∧ ∀ e ∈ exp, e.2 ≠ [] then
    .float (FloatText.value { neg := neg, whole := whole, frac := frac, exp := exp,
                              isFloat := h.1, expDigits := h.2 })
  else .int (if neg then -(whole : ℤ) else whole)

/-- A number. -/
def parseNumber (cs : List Char) : Option (Json × List Char) :=
  match intPart (minusSign cs).2 with
  | none => none
  | some (whole, r) =>
      some (numberOf (minusSign cs).1 whole (fracPart r).1 (expPart (fracPart r).2).1,
        (expPart (fracPart r).2).2)

/-- The rest of a text that starts with `word`. -/
def afterWord : List Char → List Char → Option (List Char)
  | [], cs => some cs
  | _ :: _, [] => none
  | c :: word, c' :: cs => if c = c' then afterWord word cs else none

/-- `null`, `true`, `false`, `NaN`, `Infinity`, `-Infinity` or a number. -/
def parseScalar : List Char → Option (Json × List Char)
  | [] => none
  | c :: r =>
      if c = 'n' then (afterWord ['u', 'l', 'l'] r).map (.null, ·)
      else if c = 't' then (afterWord ['r', 'u', 'e'] r).map (.bool true, ·)
      else if c = 'f' then (afterWord ['a', 'l', 's', 'e'] r).map (.bool false, ·)
      else if c = 'N' then (afterWord ['a', 'N'] r).map (.float .nan, ·)
      else if c = 'I' then
        (afterWord ['n', 'f', 'i', 'n', 'i', 't', 'y'] r).map (.float (.infinity false), ·)
      else if c = '-' ∧ r.head? = some 'I' then
        (afterWord ['I', 'n', 'f', 'i', 'n', 'i', 't', 'y'] r).map (.float (.infinity true), ·)
      else parseNumber (c :: r)

/-- `dict(pairs)`. -/
def Dict.ofPairs (pairs : List (PyStr × Json)) : Dict :=
  pairs.foldl (fun d kv => Dict.set kv.1 kv.2 d) []

mutual

/-- A value. -/
def parseValue : ℕ → List Char → Option (Json × List Char)
  | 0, _ => none
  | _ + 1, [] => none
  | n + 1, c :: r =>
      if c = '"' then (scanString r).map fun s => (.str s.1, s.2)
      else if c = '[' then
        if (skipSpace r).head? = some ']' then some (.arr [], (skipSpace r).tail)
        else (parseElements n (skipSpace r)).map fun s => (.arr s.1, s.2)
      else if c = '{' then
        if (skipSpace r).head? = some '}' then some (.obj [], (skipSpace r).tail)
        else (parseMembers n (skipSpace r)).map fun s => (.obj (Dict.ofPairs s.1), s.2)
      else parseScalar (c :: r)

/-- The elements of a list, from the first one to the closing bracket. -/
def parseElements : ℕ → List Char → Option (List Json × List Char)
  | 0, _ => none
  | n + 1, cs =>
      match parseValue n cs with
      | none => none
      | some (v, r) =>
          match skipSpace r with
          | [] => none
          | c :: r' =>
              if c = ']' then some ([v], r')
              else if c = ',' then (parseElements n (skipSpace r')).map fun s => (v :: s.1, s.2)
              else none

/-- The entries of a dictionary, from the first key to the closing brace. -/
def parseMembers : ℕ → List Char → Option (List (PyStr × Json) × List Char)
  | 0, _ => none
  | _ + 1, [] => none
  | n + 1, c :: cs =>
      if c = '"' then
        match scanString cs with
        | none => none
        | some (k, r) =>
            match skipSpace r with
            | [] => none
            | c :: r₁ =>
                if c = ':' then
                  match parseValue n (skipSpace r₁) with
                  | none => none
                  | some (v, r₂) =>
                      match skipSpace r₂ with
                      | [] => none
                      | c :: r₃ =>
                          if c = '}' then some ([(k, v)], r₃)
                          else if c = ',' then
                            (parseMembers n (skipSpace r₃)).map fun s =>
                              ((k, v) :: s.1, s.2)
                          else none
                else none
      else none

end

/-- `json.loads`: one value and nothing but whitespace around it. -/
def jsonLoads (cs : List Char) : Option Json :=
  match parseValue (cs.length + 1) (skipSpace cs) with
  | some (v, r) => if skipSpace r = [] then some v else none
  | none => none

/-! ## One step of the readers -/

/-- A result with its value mapped. -/
theorem map_fst_eq_some {α β : Type} {x : Option (α × List Char)} {g : α → β} {b : β}
    {r : List Char} :
    x.map (fun s => (g s.1, s.2)) = some (b, r) ↔ ∃ a, x = some (a, r) ∧ g a = b := by
  constructor
  · intro h
    obtain ⟨⟨a, r'⟩, ha, hr⟩ := Option.map_eq_some_iff.mp h
    simp only [Prod.mk.injEq] at hr
    exact ⟨a, by rw [ha, hr.2], hr.1⟩
  · rintro ⟨a, rfl, rfl⟩
    rfl

section Steps

variable {n : ℕ} {c : Char} {t r : List Char} {v : Json}

theorem parseValue_nil (n : ℕ) : parseValue n [] = none := by
  cases n with
  | zero => rw [parseValue]
  | succ n => rw [parseValue]

theorem parseValue_quote : parseValue (n + 1) ('"' :: t) = some (v, r) ↔
    ∃ s, scanString t = some (s, r) ∧ Json.str s = v := by
  rw [parseValue, if_pos rfl]
  exact map_fst_eq_some (g := Json.str)

/-- A list is empty, or its bracket is followed by elements. -/
theorem parseValue_bracket : parseValue (n + 1) ('[' :: t) = some (v, r) ↔
    skipSpace t = ']' :: r ∧ Json.arr [] = v ∨
      (skipSpace t).head? ≠ some ']' ∧
        ∃ vs, parseElements n (skipSpace t) = some (vs, r) ∧ Json.arr vs = v := by
  rw [parseValue, if_neg (by decide), if_pos rfl]
  by_cases hhead : (skipSpace t).head? = some ']'
  · obtain ⟨t', ht'⟩ := List.head?_eq_some_iff.mp hhead
    simp [ht', and_comm]
  · have hempty : skipSpace t ≠ ']' :: r := fun h => hhead (by rw [h, List.head?_cons])
    rw [if_neg hhead, map_fst_eq_some (g := Json.arr)]
    simp only [hempty, false_and, false_or, ne_eq, hhead, not_false_eq_true, true_and]

/-- A dictionary is empty, or its brace is followed by entries. -/
theorem parseValue_brace : parseValue (n + 1) ('{' :: t) = some (v, r) ↔
    skipSpace t = '}' :: r ∧ Json.obj [] = v ∨
      (skipSpace t).head? ≠ some '}' ∧
        ∃ kvs, parseMembers n (skipSpace t) = some (kvs, r) ∧ Json.obj (Dict.ofPairs kvs) = v := by
  rw [parseValue, if_neg (by decide), if_neg (by decide), if_pos rfl]
  by_cases hhead : (skipSpace t).head? = some '}'
  · obtain ⟨t', ht'⟩ := List.head?_eq_some_iff.mp hhead
    simp [ht', and_comm]
  · have hempty : skipSpace t ≠ '}' :: r := fun h => hhead (by rw [h, List.head?_cons])
    rw [if_neg hhead, map_fst_eq_some (g := fun kvs => Json.obj (Dict.ofPairs kvs))]
    simp only [hempty, false_and, false_or, ne_eq, hhead, not_false_eq_true, true_and]

theorem parseValue_scalar (hc : c ∉ ['"', '[', '{']) :
    parseValue (n + 1) (c :: t) = parseScalar (c :: t) := by
  simp only [List.mem_cons, List.not_mem_nil, or_false, not_or] at hc
  rw [parseValue, if_neg hc.1, if_neg hc.2.1, if_neg hc.2.2]

/-- The first character decides what is read. -/
theorem parseValue_cases {p : List Char} (h : parseValue (n + 1) p = some (v, r)) :
    (∃ t, p = '"' :: t) ∨ (∃ t, p = '[' :: t) ∨ (∃ t, p = '{' :: t) ∨
      ∃ c t, p = c :: t ∧ c ∉ ['"', '[', '{'] ∧ parseScalar (c :: t) = some (v, r) := by
  cases p with
  | nil =>
      rw [parseValue_nil] at h
      cases h
  | cons c t =>
      by_cases hc : c ∈ ['"', '[', '{']
      · simp only [List.mem_cons, List.not_mem_nil, or_false] at hc
        rcases hc with rfl | rfl | rfl
        · exact .inl ⟨t, rfl⟩
        · exact .inr (.inl ⟨t, rfl⟩)
        · exact .inr (.inr (.inl ⟨t, rfl⟩))
      · rw [parseValue_scalar hc] at h
        exact .inr (.inr (.inr ⟨c, t, rfl, hc, h⟩))

/-- After an element, the bracket or a comma and more elements. -/
theorem parseElements_eq_some {vs : List Json} : parseElements (n + 1) t = some (vs, r) ↔
    ∃ v r₁, parseValue n t = some (v, r₁) ∧
      (skipSpace r₁ = ']' :: r ∧ [v] = vs ∨
        ∃ r₂ vs', skipSpace r₁ = ',' :: r₂ ∧
          parseElements n (skipSpace r₂) = some (vs', r) ∧ v :: vs' = vs) := by
  rw [parseElements]
  cases parseValue n t with
  | none => simp
  | some s =>
      obtain ⟨v, r₁⟩ := s
      cases hskip : skipSpace r₁ with
      | nil => simp [hskip]
      | cons c r₂ =>
          simp only [Option.some.injEq, Prod.mk.injEq, existsAndEq, hskip, List.cons.injEq,
            true_and]
          split_ifs with hbracket hcomma
          · subst hbracket
            simp [and_comm]
          · subst hcomma
            rw [map_fst_eq_some]
            simp
          · simp [hbracket, hcomma]

/-- An entry is a key, a colon and a value; then the brace or a comma and more entries. -/
theorem parseMembers_eq_some {kvs : List (PyStr × Json)} :
    parseMembers (n + 1) t = some (kvs, r) ↔
      ∃ t' k r₁ r₂ v r₃, t = '"' :: t' ∧ scanString t' = some (k, r₁) ∧
        skipSpace r₁ = ':' :: r₂ ∧ parseValue n (skipSpace r₂) = some (v, r₃) ∧
          (skipSpace r₃ = '}' :: r ∧ [(k, v)] = kvs ∨
            ∃ r₄ kvs', skipSpace r₃ = ',' :: r₄ ∧
              parseMembers n (skipSpace r₄) = some (kvs', r) ∧
                (k, v) :: kvs' = kvs) := by
  constructor
  · intro h
    cases t with
    | nil => exact absurd h (by simp [parseMembers])
    | cons c t' =>
        rw [parseMembers] at h
        split at h
        swap
        · cases h
        next hc =>
        subst hc
        split at h
        · cases h
        next k r₁ hkey =>
        split at h
        · cases h
        next c r₂ hskip =>
        split at h
        swap
        · cases h
        next hcolon =>
        subst hcolon
        split at h
        · cases h
        next v r₃ hvalue =>
        refine ⟨t', k, r₁, r₂, v, r₃, rfl, hkey, hskip, hvalue, ?_⟩
        split at h
        · cases h
        next c r₄ hskip₃ =>
        split_ifs at h with hbrace hcomma
        · subst hbrace
          rw [Option.some.injEq, Prod.mk.injEq] at h
          exact .inl ⟨by rw [hskip₃, h.2], h.1⟩
        · subst hcomma
          obtain ⟨kvs', hkvs, hcons⟩ := map_fst_eq_some.mp h
          exact .inr ⟨r₄, kvs', hskip₃, hkvs, hcons⟩
  · rintro ⟨t', k, r₁, r₂, v, r₃, rfl, hkey, hskip, hvalue, hend⟩
    rw [parseMembers, if_pos rfl]
    rcases hend with ⟨hskip₃, rfl⟩ | ⟨r₄, kvs', hskip₃, hkvs, rfl⟩
    · simp only [hkey, hskip, hvalue, hskip₃, if_true]
    · simp only [hkey, hskip, hvalue, hskip₃, hkvs, if_true, Option.map_some]
      rfl

end Steps
