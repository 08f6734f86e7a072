/-
# What is written is read back, and no proper beginning of it is

* `jsonLoads_text` : reading the text of a well-formed value gives the value back
  (`Json.WF`: no dictionary lists a key twice, and strings are joined);
* `parseValue_append` : a value that has been read stays read when the text goes on;
* `jsonLoads_of_append` : no proper beginning of the text of a dictionary can be read;
* `jsonLoads_wf` : what is read is well formed.
-/
import StorageNode.JsonText

/-! ## Well-formed values -/

mutual

/-- No dictionary in the value lists a key twice, and no string has both halves of a
character side by side. -/
def Json.WF : Json → Prop
  | .str s => PyStr.Joined s
  | .arr xs => WFList xs
  | .obj kvs => (kvs.map Prod.fst).Nodup ∧ WFDict kvs
  | _ => True

/-- All elements are well formed. -/
def WFList : List Json → Prop
  | [] => True
  | x :: r => x.WF ∧ WFList r

/-- All keys and values are well formed. -/
def WFDict : List (PyStr × Json) → Prop
  | [] => True
  | kv :: r => (PyStr.Joined kv.1 ∧ kv.2.WF) ∧ WFDict r

end

theorem wfList_iff {xs : List Json} : WFList xs ↔ ∀ x ∈ xs, x.WF := by
  induction xs with
  | nil => simp [WFList]
  | cons x r ih => simp [WFList, ih]

theorem wfDict_iff {kvs : List (PyStr × Json)} :
    WFDict kvs ↔ ∀ kv ∈ kvs, PyStr.Joined kv.1 ∧ kv.2.WF := by
  induction kvs with
  | nil => simp [WFDict]
  | cons kv r ih => simp [WFDict, ih]

/-! ## Strings -/

theorem hexVal_hexDigit : ∀ n < 16, hexVal? (hexDigit n) = some n := by decide

/-- Four digits are read back. -/
theorem codeUnit_hexDigits {n : ℕ} (h : n < 0x10000) :
    codeUnit? (hexDigit (n / 4096 % 16)) (hexDigit (n / 256 % 16)) (hexDigit (n / 16 % 16))
      (hexDigit (n % 16)) = some n := by
  unfold codeUnit?
  rw [hexVal_hexDigit _ (by omega), hexVal_hexDigit _ (by omega), hexVal_hexDigit _ (by omega),
    hexVal_hexDigit _ (by omega)]
  simp only [Option.some.injEq]
  omega

/-- A code unit is read back. -/
theorem parseEscape_unicode {n : ℕ} (h : n < 0x10000) (r : List Char) :
    parseEscape ((unicodeEscape n).tail ++ r) = some (codePoint n, r) := by
  simp [unicodeEscape, parseEscape, parseUnicode, codeUnit_hexDigits h]

theorem codePoint_char {c : Char} (h : c.toNat < 0x10000) : codePoint c.toNat = .char c := by
  have hns := PyStr.toNat_not_surrogate c
  rw [codePoint, dif_neg (by omega), Char.ofNat_toNat]

theorem codePoint_surrogate (n : Fin 0x800) : codePoint (0xd800 + n) = .surrogate n := by
  have hn := n.isLt
  rw [codePoint, dif_pos (by omega)]
  simp

/-- An escape that is not split. -/
theorem parseChars_escape {t : List Char} {c : CodePoint} {r : List Char}
    (h : parseEscape t = some (c, r)) (n : ℕ) :
    parseChars (n + 1) ('\\' :: t) = (parseChars n r).map fun s => (c :: s.1, s.2) := by
  simp [parseChars, h]

theorem parseChars_unicodeEscape {n : ℕ} (h : n < 0x10000) (r : List Char) (k : ℕ) :
    parseChars (k + 1) (unicodeEscape n ++ r) =
      (parseChars k r).map fun s => (codePoint n :: s.1, s.2) :=
  parseChars_escape (parseEscape_unicode h r) k

/-- A character above the basic plane is written as its halves. -/
theorem escapeChar_halves {c : Char} (h : ¬ c.toNat < 0x10000) :
    escapeChar (.char c) =
      unicodeEscape (0xd800 + PyStr.highHalf c) ++ unicodeEscape (0xd800 + PyStr.lowHalf c) := by
  have hne : ∀ d : Char, d.toNat < 0x10000 → c ≠ d := by
    rintro d hd rfl
    exact h hd
  have hlo : 0xd800 + (PyStr.lowHalf c).val = 0xdc00 + (c.toNat - 0x10000) % 1024 := by
    show 0xd800 + (0x400 + (c.toNat - 0x10000) % 0x400) = _
    omega
  rw [escapeChar, if_neg (hne _ (by decide)), if_neg (hne _ (by decide)),
    if_neg (hne _ (by decide)), if_neg (hne _ (by decide)), if_neg (hne _ (by decide)),
    if_neg (hne _ (by decide)), if_neg (hne _ (by decide)), if_neg (by omega), if_neg h,
    PyStr.highHalf_val, hlo]

/-- The code points that the text of one is read as. -/
theorem parseChars_escapeChar (n : ℕ) (c : CodePoint) (r : List Char) :
    parseChars (n + (PyStr.halves c).length) (escapeChar c ++ r) =
      (parseChars n r).map fun s => (PyStr.halves c ++ s.1, s.2) := by
  cases c with
  | surrogate k =>
      have hk := k.isLt
      have h := parseChars_unicodeEscape (n := 0xd800 + k) (by omega) r n
      rw [codePoint_surrogate] at h
      exact h
  | char c =>
      by_cases hplane : c.toNat < 0x10000
      swap
      · -- two escapes
        have hlt := PyStr.toNat_lt c
        have hhi := PyStr.highHalf_val c
        have h := parseChars_unicodeEscape (n := 0xd800 + PyStr.highHalf c) (by omega)
          (unicodeEscape (0xd800 + PyStr.lowHalf c) ++ r) (n + 1)
        have hlo := (PyStr.lowHalf c).isLt
        rw [parseChars_unicodeEscape (n := 0xd800 + PyStr.lowHalf c) (by omega),
          codePoint_surrogate, codePoint_surrogate, Option.map_map] at h
        rw [escapeChar_halves hplane, List.append_assoc, PyStr.halves, if_neg hplane]
        exact h
      · rw [PyStr.halves, if_pos hplane]
        have hback : ∀ t, parseEscape t = some (.char c, r) →
            parseChars (n + 1) ('\\' :: t) =
              (parseChars n r).map fun s => (.char c :: s.1, s.2) :=
          fun t ht => parseChars_escape ht n
        show parseChars (n + 1) (escapeChar (.char c) ++ r) =
          (parseChars n r).map fun s => (.char c :: s.1, s.2)
        rw [escapeChar]
        split
        · next h => subst h; exact hback _ rfl
        split
        · next h => subst h; exact hback _ rfl
        split
        · next h => subst h; exact hback _ rfl
        split
        · next h => subst h; exact hback _ rfl
        split
        · next h => subst h; exact hback _ rfl
        split
        · next h => subst h; exact hback _ rfl
        split
        · next h => subst h; exact hback _ rfl
        split
        · next hquote hback _ _ _ _ _ hprint =>
            have hlt : ¬ c.toNat < 32 := by omega
            simp only [List.singleton_append, parseChars, if_neg hquote, if_neg hback, if_neg hlt]
        · rw [parseChars_unicodeEscape hplane, codePoint_char hplane]

theorem length_halves_le (c : CodePoint) : (PyStr.halves c).length ≤ (escapeChar c).length := by
  cases c with
  | surrogate n => simp [PyStr.halves, escapeChar, unicodeEscape]
  | char c =>
      rw [PyStr.halves]
      split
      · rw [escapeChar, List.length_singleton]
        repeat' split
        all_goals simp [unicodeEscape]
      · next hplane =>
          rw [escapeChar_halves hplane]
          simp [unicodeEscape]

theorem length_lt_charsText (s : PyStr) :
    (s.flatMap PyStr.halves).length < (charsText s).length := by
  induction s with
  | nil => simp [charsText]
  | cons c r ih =>
      have hle := length_halves_le c
      simp only [charsText, List.flatMap_cons, List.length_append]
      omega

/-- The text of a string is read as the halves of its code points. -/
theorem parseChars_charsText {n : ℕ} {s : PyStr} (hn : (s.flatMap PyStr.halves).length < n)
    (r : List Char) : parseChars n (charsText s ++ r) = some (s.flatMap PyStr.halves, r) := by
  induction s generalizing n with
  | nil =>
      obtain ⟨m, rfl⟩ : ∃ m, n = m + 1 := ⟨n - 1, by simp at hn; omega⟩
      rfl
  | cons c s ih =>
      rw [List.flatMap_cons, List.length_append] at hn
      obtain ⟨m, rfl⟩ : ∃ m, n = m + (PyStr.halves c).length :=
        ⟨n - (PyStr.halves c).length, by omega⟩
      rw [charsText, List.append_assoc, parseChars_escapeChar, ih (by omega)]
      rfl

/-- **A string** is read back. -/
theorem scanString_charsText {s : PyStr} (h : PyStr.Joined s) (r : List Char) :
    scanString (charsText s ++ r) = some (s, r) := by
  have hlen := length_lt_charsText s
  rw [scanString, parseChars_charsText (by rw [List.length_append]; omega), Option.map_some,
    PyStr.join_halves h]

/-! ## Numbers -/

/-- What follows a number: not a digit, a point or an exponent. -/
def StopsNumber (r : List Char) : Prop :=
  ∀ c ∈ r.head?, digit? c = none ∧ c ≠ '.' ∧ c ≠ 'e' ∧ c ≠ 'E'

theorem digit_digitChar : ∀ d : Fin 10, digit? (digitChar d) = some d := by decide

theorem takeDigits_of_stop {r : List Char} (h : ∀ c ∈ r.head?, digit? c = none) :
    takeDigits r = ([], r) := by
  cases r with
  | nil => rfl
  | cons c r =>
      have hc := h c rfl
      simp [takeDigits, hc]

theorem takeDigits_digits (ds : List (Fin 10)) {r : List Char}
    (h : ∀ c ∈ r.head?, digit? c = none) : takeDigits (ds.map digitChar ++ r) = (ds, r) := by
  induction ds with
  | nil => exact takeDigits_of_stop h
  | cons d ds ih => simp [takeDigits, digit_digitChar, ih]

theorem digitsValue_natDigits (n : ℕ) : digitsValue (natDigits n) = n := by
  have hmap : ((Nat.digits 10 n).map (Fin.ofNat 10)).map Fin.val = Nat.digits 10 n := by
    rw [List.map_map]
    conv_rhs => rw [← List.map_id (Nat.digits 10 n)]
    refine List.map_congr_left fun d hd => ?_
    have hlt : d < 10 := Nat.digits_lt_base (by omega) hd
    simp [Fin.ofNat, Nat.mod_eq_of_lt hlt]
  rw [digitsValue, natDigits, ← List.map_reverse, List.reverse_reverse, hmap, Nat.ofDigits_digits]

/-- The digits of a positive number, and that the first one is not zero. -/
theorem natDigits_cons {n : ℕ} (hn : n ≠ 0) : ∃ d ds, natDigits n = d :: ds ∧ d ≠ 0 := by
  have hne : Nat.digits 10 n ≠ [] := Nat.digits_ne_nil_iff_ne_zero.mpr hn
  have hlast := Nat.getLast_digit_ne_zero 10 hn
  have hlt : (Nat.digits 10 n).getLast hne < 10 :=
    Nat.digits_lt_base (by omega) (List.getLast_mem hne)
  have hrev : (Nat.digits 10 n).reverse =
      (Nat.digits 10 n).getLast hne :: (Nat.digits 10 n).dropLast.reverse := by
    conv_lhs => rw [← List.dropLast_append_getLast hne]
    simp
  refine ⟨_, _, by rw [natDigits, hrev, List.map_cons], ?_⟩
  intro hzero
  have hval := congrArg Fin.val hzero
  simp only [Fin.ofNat, Nat.mod_eq_of_lt hlt] at hval
  exact hlast hval

/-! ### Floats -/

theorem digitsValue_concat (ds : List (Fin 10)) (d : Fin 10) :
    digitsValue (ds ++ [d]) = 10 * digitsValue ds + d := by
  simp [digitsValue, Nat.ofDigits_cons, add_comm]

theorem length_lastDigits (k n : ℕ) : (lastDigits k n).length = k := by
  induction k generalizing n with
  | zero => rfl
  | succ k ih => rw [lastDigits, List.length_append, ih, List.length_singleton]

theorem digitsValue_lastDigits (k n : ℕ) : digitsValue (lastDigits k n) = n % 10 ^ k := by
  induction k generalizing n with
  | zero =>
      rw [pow_zero, Nat.mod_one]
      rfl
  | succ k ih =>
      rw [lastDigits, digitsValue_concat, ih, pow_succ', Nat.mod_mul]
      simp [Fin.ofNat, add_comm]

namespace FloatText

/-- The digits of a number, cut in two by the point. -/
theorem split_digits (m k : ℕ) :
    m / 10 ^ k * 10 ^ (lastDigits k m).length + digitsValue (lastDigits k m) = m := by
  rw [length_lastDigits, digitsValue_lastDigits, Nat.div_add_mod']

theorem strip_spec (k n : ℕ) : (strip k n).1 ≤ k ∧ (strip k n).2 * 10 ^ (strip k n).1 = n := by
  induction k generalizing n with
  | zero => simp [strip]
  | succ k ih =>
      rw [strip]
      split
      · next h =>
          obtain ⟨hle, heq⟩ := ih (n / 10)
          refine ⟨Nat.succ_le_succ hle, ?_⟩
          rw [pow_succ, ← mul_assoc, heq]
          exact Nat.div_mul_cancel (Nat.dvd_of_mod_eq_zero h)
      · simp

theorem digitsValue_exponentDigits (n : ℕ) : digitsValue (exponentDigits n) = n := by
  unfold exponentDigits
  split
  · rw [digitsValue_lastDigits]
    omega
  · exact digitsValue_natDigits n

/-- The text stands for the decimal `n`. -/
def StandsFor (t : FloatText) (n : ℕ) : Prop :=
  t.coefficient * 10 ^ t.up * 10 ^ Binary64.places = n * 10 ^ t.down

theorem standsFor_fixed (neg : Bool) {m k s : ℕ} (hk : k ≠ 0) (h : s + k = Binary64.places) :
    (fixed neg m k hk).StandsFor (m * 10 ^ s) := by
  show (m / 10 ^ k * 10 ^ (lastDigits k m).length + digitsValue (lastDigits k m)) * 10 ^ 0 *
    10 ^ Binary64.places = m * 10 ^ s * 10 ^ (lastDigits k m).length
  rw [split_digits, length_lastDigits, pow_zero, mul_one, mul_assoc, ← pow_add, h]

theorem standsFor_scientific (neg : Bool) {m k s : ℕ} {e : ℤ}
    (h : e = s + k - Binary64.places) : (scientific neg m k e).StandsFor (m * 10 ^ s) := by
  have hlength := length_lastDigits k m
  have hvalue := digitsValue_exponentDigits e.natAbs
  have hcoefficient : (scientific neg m k e).coefficient = m := split_digits m k
  by_cases he : e < 0
  · have hup : (scientific neg m k e).up = 0 := by
      simp only [up, scientific, decide_eq_true he]
    have hdown : (scientific neg m k e).down = k + e.natAbs := by
      simp only [down, scientific, decide_eq_true he, hlength, hvalue]
    rw [StandsFor, hcoefficient, hup, hdown, pow_zero, mul_one, mul_assoc, ← pow_add,
      show s + (k + e.natAbs) = Binary64.places by omega]
  · have hup : (scientific neg m k e).up = e.natAbs := by
      simp only [up, scientific, decide_eq_false he, hvalue]
    have hdown : (scientific neg m k e).down = k := by
      simp only [down, scientific, decide_eq_false he, hlength]
    rw [StandsFor, hcoefficient, hup, hdown, mul_assoc, mul_assoc, ← pow_add, ← pow_add,
      show e.natAbs + Binary64.places = s + k by omega]

theorem standsFor_ofDecimal (neg : Bool) (n : ℕ) :
    (ofDecimal neg n).StandsFor n ∧ (ofDecimal neg n).neg = neg := by
  simp only [ofDecimal]
  split
  · obtain ⟨hle, heq⟩ := strip_spec (Binary64.places - 1) n
    have hplaces : 0 < Binary64.places := by decide +kernel
    have h := standsFor_fixed neg (m := (strip (Binary64.places - 1) n).2)
      (k := Binary64.places - 1 - (strip (Binary64.places - 1) n).1 + 1)
      (s := (strip (Binary64.places - 1) n).1) (Nat.succ_ne_zero _) (by omega)
    rw [heq] at h
    exact ⟨h, rfl⟩
  · have h := standsFor_scientific neg (m := (strip n n).2)
      (k := (Nat.digits 10 (strip n n).2).length - 1) (s := (strip n n).1) rfl
    rw [(strip_spec n n).2] at h
    exact ⟨h, rfl⟩

/-- A text that stands for the shortest decimal of a float is read as the float. -/
theorem value_of_standsFor {t : FloatText} {x : Binary64} (hneg : t.neg = x.neg)
    (h : t.StandsFor x.shortest) : t.value = .finite x := by
  have hratio : t.coefficient * 10 ^ t.up * 2 ^ Binary64.places * 10 ^ Binary64.places =
      x.shortest * 2 ^ Binary64.places * 10 ^ t.down := by
    rw [mul_right_comm, h, mul_right_comm]
  have hten : ∀ k : ℕ, 0 < 10 ^ k := fun k => by positivity
  have hnearest : Binary64.nearest t.neg (t.coefficient * 10 ^ t.up * 2 ^ Binary64.places)
      (10 ^ t.down) = some x := by
    rw [Binary64.nearest_eq_of_ratio (hten _) (hten _) hratio, hneg]
    exact Binary64.ofDecimal_shortest x
  simp only [value, hnearest, Option.map_some, Option.getD_some]

/-- **What is written for a float is read as that float.** -/
theorem value_repr (x : Binary64) : (repr x).value = .finite x := by
  obtain ⟨hstands, hneg⟩ := standsFor_ofDecimal x.neg x.shortest
  exact value_of_standsFor hneg hstands

end FloatText

theorem intPart_natText (n : ℕ) {r : List Char} (h : ∀ c ∈ r.head?, digit? c = none) :
    intPart (natText n ++ r) = some (n, r) := by
  unfold natText
  split
  · next hn =>
      subst hn
      rfl
  · next hn =>
      obtain ⟨d, ds, hds, hd⟩ := natDigits_cons hn
      have hval := digitsValue_natDigits n
      rw [hds] at hval ⊢
      simp [intPart, digit_digitChar, hd, takeDigits_digits ds h, hval]

theorem fracPart_fracText (frac : List (Fin 10)) {r : List Char}
    (h : ∀ c ∈ r.head?, digit? c = none ∧ c ≠ '.') :
    fracPart (fracText frac ++ r) = (frac, r) := by
  unfold fracText
  split
  · next hnil =>
      subst hnil
      cases r with
      | nil => rfl
      | cons c r =>
          have hc := (h c rfl).2
          simp [fracPart, hc]
  · next hne =>
      have hdigits := takeDigits_digits frac fun c hc => (h c hc).1
      simp [fracPart, hdigits, hne]

theorem expPart_expText (exp : Option (Bool × List (Fin 10))) (hexp : ∀ e ∈ exp, e.2 ≠ [])
    {r : List Char} (h : StopsNumber r) : expPart (expText exp ++ r) = (exp, r) := by
  cases exp with
  | none =>
      cases r with
      | nil => rfl
      | cons c r =>
          obtain ⟨-, -, he, hE⟩ := h c rfl
          simp [expText, expPart, he, hE]
  | some e =>
      obtain ⟨neg, ds⟩ := e
      have hne : ds ≠ [] := hexp _ rfl
      have hdigits := takeDigits_digits ds fun c hc => (h c hc).1
      cases neg with
      | true => simp [expText, expPart, expSign, hdigits, hne]
      | false => simp [expText, expPart, expSign, hdigits, hne]

/-- The first character of a number: a digit. -/
theorem natText_head (n : ℕ) : ∃ d t, natText n = digitChar d :: t := by
  unfold natText
  split
  · exact ⟨0, [], rfl⟩
  · next hn =>
      obtain ⟨d, ds, hds, -⟩ := natDigits_cons hn
      rw [hds]
      exact ⟨d, ds.map digitChar, rfl⟩

theorem minus_facts (c : Char) (r : List Char) (hc : c ≠ 'I') :
    ¬ ('-' = '-' ∧ (c :: r).head? = some 'I') := fun h => hc (Option.some.inj h.2)

theorem digitChar_facts : ∀ d : Fin 10, digitChar d ≠ '-' ∧ digitChar d ≠ '"' ∧
    digitChar d ≠ '[' ∧ digitChar d ≠ '{' ∧ digitChar d ≠ 'n' ∧ digitChar d ≠ 't' ∧
    digitChar d ≠ 'f' ∧ digitChar d ≠ 'N' ∧ digitChar d ≠ 'I' := by decide

theorem minusSign_signText (neg : Bool) {t : List Char} (h : ∃ d t', t = digitChar d :: t') :
    minusSign (signText neg ++ t) = (neg, t) := by
  obtain ⟨d, t', rfl⟩ := h
  have hd := (digitChar_facts d).1
  cases neg with
  | true => rfl
  | false => simp [signText, minusSign, hd]

/-- **A number** is read back. -/
theorem parseNumber_text (neg : Bool) (whole : ℕ) (frac : List (Fin 10))
    (exp : Option (Bool × List (Fin 10))) (hexp : ∀ e ∈ exp, e.2 ≠ []) {r : List Char}
    (h : StopsNumber r) :
    parseNumber (signText neg ++ (natText whole ++ (fracText frac ++ (expText exp ++ r)))) =
      some (numberOf neg whole frac exp, r) := by
  have hexpHead : ∀ c ∈ (expText exp ++ r).head?, digit? c = none ∧ c ≠ '.' := by
    cases exp with
    | none => exact fun c hc => ⟨(h c hc).1, (h c hc).2.1⟩
    | some e =>
        obtain ⟨neg, ds⟩ := e
        intro c hc
        have he : 'e' = c := Option.some.inj hc
        subst he
        decide
  have hfracHead : ∀ c ∈ (fracText frac ++ (expText exp ++ r)).head?, digit? c = none := by
    unfold fracText
    split
    · exact fun c hc => (hexpHead c hc).1
    · intro c hc
      have hpoint : '.' = c := Option.some.inj hc
      subst hpoint
      decide
  have hhead : ∃ d t', natText whole ++ (fracText frac ++ (expText exp ++ r)) =
      digitChar d :: t' := by
    obtain ⟨d, t, ht⟩ := natText_head whole
    exact ⟨d, _, by rw [ht, List.cons_append]⟩
  rw [parseNumber, minusSign_signText neg hhead]
  simp only [intPart_natText whole hfracHead, fracPart_fracText frac hexpHead,
    expPart_expText exp hexp h]

/-- A number is neither a string nor a list nor a dictionary nor a word. -/
theorem parseValue_number (n : ℕ) (neg : Bool) {t : List Char}
    (h : ∃ d t', t = digitChar d :: t') :
    parseValue (n + 1) (signText neg ++ t) = parseNumber (signText neg ++ t) := by
  obtain ⟨d, t', rfl⟩ := h
  obtain ⟨h0, h1, h2, h3, h4, h5, h6, h7, h8⟩ := digitChar_facts d
  cases neg with
  | true =>
      have hI := minus_facts (digitChar d) t' h8
      show parseValue (n + 1) ('-' :: digitChar d :: t') = _
      rw [parseValue, if_neg (by decide), if_neg (by decide), if_neg (by decide), parseScalar,
        if_neg (by decide), if_neg (by decide), if_neg (by decide), if_neg (by decide),
        if_neg (by decide), if_neg hI]
      rfl
  | false =>
      have hminus : ¬ (digitChar d = '-' ∧ t'.head? = some 'I') := fun h => h0 h.1
      show parseValue (n + 1) (digitChar d :: t') = _
      rw [parseValue, if_neg h1, if_neg h2, if_neg h3, parseScalar, if_neg h4, if_neg h5,
        if_neg h6, if_neg h7, if_neg h8, if_neg hminus]
      rfl

/-! ## Values -/

/-- A comma or a closing bracket stops a number. -/
theorem stopsNumber_cons {c : Char} (hc : c = ',' ∨ c = ']' ∨ c = '}') (r : List Char) :
    StopsNumber (c :: r) := by
  intro c' hc'
  have hcc : c = c' := Option.some.inj hc'
  subst hcc
  rcases hc with rfl | rfl | rfl
  all_goals decide

theorem stopsNumber_nil : StopsNumber [] := by
  intro c hc
  simp at hc

/-- The first character of a text is neither whitespace nor a closing bracket. -/
theorem text_head (v : Json) :
    ∃ c t, v.text = c :: t ∧ isJsonSpace c = false ∧ c ≠ ']' ∧ c ≠ '}' := by
  have hdigit : ∀ d : Fin 10, isJsonSpace (digitChar d) = false ∧ digitChar d ≠ ']' ∧
      digitChar d ≠ '}' := by decide
  have hnumber : ∀ (neg : Bool) (t : List Char), (∃ d t', t = digitChar d :: t') →
      ∃ c t', signText neg ++ t = c :: t' ∧ isJsonSpace c = false ∧ c ≠ ']' ∧ c ≠ '}' := by
    rintro neg t ⟨d, t', rfl⟩
    cases neg with
    | true => exact ⟨'-', _, rfl, by decide, by decide, by decide⟩
    | false => exact ⟨digitChar d, t', rfl, hdigit d⟩
  cases v with
  | null => exact ⟨'n', _, by rw [Json.text], by decide, by decide, by decide⟩
  | bool b =>
      cases b with
      | true => exact ⟨'t', _, by rw [Json.text], by decide, by decide, by decide⟩
      | false => exact ⟨'f', _, by rw [Json.text], by decide, by decide, by decide⟩
  | int n =>
      rw [Json.text]
      exact hnumber _ _ (natText_head _)
  | float x =>
      rw [Json.text]
      cases x with
      | finite x =>
          obtain ⟨d, t', ht⟩ := natText_head (FloatText.repr x).whole
          exact hnumber _ _ ⟨d, _, by rw [ht, List.cons_append]⟩
      | infinity neg =>
          cases neg with
          | true => exact ⟨'-', _, rfl, by decide, by decide, by decide⟩
          | false => exact ⟨'I', _, rfl, by decide, by decide, by decide⟩
      | nan => exact ⟨'N', _, rfl, by decide, by decide, by decide⟩
  | str s => exact ⟨'"', _, by rw [Json.text], by decide, by decide, by decide⟩
  | arr xs => exact ⟨'[', _, by rw [Json.text], by decide, by decide, by decide⟩
  | obj kvs => exact ⟨'{', _, by rw [Json.text], by decide, by decide, by decide⟩

theorem skipSpace_of_not_space {c : Char} (h : isJsonSpace c = false) (r : List Char) :
    skipSpace (c :: r) = c :: r := by
  rw [skipSpace, h]
  rfl

theorem skipSpace_text (v : Json) (r : List Char) : skipSpace (v.text ++ r) = v.text ++ r := by
  obtain ⟨c, t, ht, hspace, -⟩ := text_head v
  rw [ht, List.cons_append, skipSpace_of_not_space hspace]

theorem elementsText_head (x : Json) (xs : List Json) (r : List Char) :
    ∃ c t, elementsText (x :: xs) ++ r = c :: t ∧ isJsonSpace c = false ∧ c ≠ ']' := by
  obtain ⟨c, t, ht, hspace, hbracket, -⟩ := text_head x
  refine ⟨c, ?_⟩
  cases xs with
  | nil => exact ⟨_, by rw [elementsText, ht]; rfl, hspace, hbracket⟩
  | cons y ys => exact ⟨_, by rw [elementsText, ht]; rfl, hspace, hbracket⟩

theorem membersText_head (kv : PyStr × Json) (kvs : List (PyStr × Json)) (r : List Char) :
    ∃ t, membersText (kv :: kvs) ++ r = '"' :: t := by
  cases kvs with
  | nil => exact ⟨_, by rw [membersText]; rfl⟩
  | cons kv' kvs => exact ⟨_, by rw [membersText]; rfl⟩

theorem skipSpace_elementsText (x : Json) (xs : List Json) (r : List Char) :
    skipSpace (elementsText (x :: xs) ++ r) = elementsText (x :: xs) ++ r := by
  obtain ⟨c, t, ht, hspace, -⟩ := elementsText_head x xs r
  rw [ht, skipSpace_of_not_space hspace]

theorem skipSpace_membersText (kv : PyStr × Json) (kvs : List (PyStr × Json)) (r : List Char) :
    skipSpace (membersText (kv :: kvs) ++ r) = membersText (kv :: kvs) ++ r := by
  obtain ⟨t, ht⟩ := membersText_head kv kvs r
  rw [ht, skipSpace_of_not_space (by decide)]

/-- Whitespace in front is skipped. -/
theorem skipSpace_blank (r : List Char) : skipSpace (' ' :: r) = skipSpace r := by
  rw [skipSpace, if_pos (by decide)]

/-- The value of a finite float's parts. -/
theorem numberOf_float (t : FloatText) :
    numberOf t.neg t.whole t.frac t.exp = .float t.value := by
  rw [numberOf, dif_pos ⟨t.isFloat, t.expDigits⟩]

theorem numberOf_int (n : ℤ) : numberOf (n < 0) n.natAbs [] none = .int n := by
  rw [numberOf, dif_neg (by simp)]
  by_cases h : n < 0
  · simp only [h, decide_true, if_true]
    rw [Int.ofNat_natAbs_of_nonpos (le_of_lt h), neg_neg]
  · simp only [h, decide_false, Bool.false_eq_true, if_false]
    rw [Int.natAbs_of_nonneg (not_lt.mp h)]

/-- The text of a float is read as its value. -/
theorem parseValue_floatText (n : ℕ) (t : FloatText) {r : List Char} (hr : StopsNumber r) :
    parseValue (n + 1) (t.text ++ r) = some (.float t.value, r) := by
  obtain ⟨d, t', ht'⟩ := natText_head t.whole
  have hparse := parseNumber_text t.neg t.whole t.frac t.exp t.expDigits hr
  have hdispatch := parseValue_number n t.neg
    (t := natText t.whole ++ (fracText t.frac ++ (expText t.exp ++ r)))
    ⟨d, _, by rw [ht', List.cons_append]⟩
  rw [FloatText.text]
  simp only [List.append_assoc]
  rw [hdispatch, hparse, numberOf_float]

/-- `dict` of pairs without a repeated key keeps them as they are. -/
theorem ofPairs_of_nodup {kvs : List (PyStr × Json)} (h : (kvs.map Prod.fst).Nodup) :
    Dict.ofPairs kvs = kvs := by
  have hset : ∀ (d : Dict) (k : PyStr) (v : Json), k ∉ d.map Prod.fst →
      Dict.set k v d = d ++ [(k, v)] := by
    intro d k v hk
    induction d with
    | nil => rfl
    | cons kv r ih =>
        obtain ⟨k', v'⟩ := kv
        simp only [List.map_cons, List.mem_cons, not_or] at hk
        have hne : ¬ k' = k := fun h => hk.1 h.symm
        rw [Dict.set, if_neg hne, ih hk.2, List.cons_append]
  have hfold : ∀ (kvs : List (PyStr × Json)) (d : Dict),
      ((d ++ kvs).map Prod.fst).Nodup →
      kvs.foldl (fun d kv => Dict.set kv.1 kv.2 d) d = d ++ kvs := by
    intro kvs
    induction kvs with
    | nil =>
        intro d _
        exact (List.append_nil d).symm
    | cons kv r ih =>
        intro d hd
        have hk : kv.1 ∉ d.map Prod.fst := by
          rw [List.map_append, List.map_cons, List.nodup_append] at hd
          exact fun hmem => hd.2.2 _ hmem _ List.mem_cons_self rfl
        rw [List.foldl_cons, hset d kv.1 kv.2 hk, ih _ (by simpa using hd), List.append_assoc]
        rfl
  have := hfold kvs [] (by simpa using h)
  rwa [List.nil_append] at this

mutual

/-- **A value is read back** from its text, whatever stops it. -/
theorem parseValue_text (v : Json) (hwf : v.WF) {n : ℕ} (hn : v.text.length ≤ n)
    {r : List Char} (hr : StopsNumber r) : parseValue n (v.text ++ r) = some (v, r) := by
  obtain ⟨m, rfl⟩ : ∃ m, n = m + 1 := by
    obtain ⟨c, t, ht, -⟩ := text_head v
    refine ⟨n - 1, ?_⟩
    rw [ht, List.length_cons] at hn
    omega
  match v with
  | .null => simp [Json.text, parseValue, parseScalar, afterWord]
  | .bool true => simp [Json.text, parseValue, parseScalar, afterWord]
  | .bool false => simp [Json.text, parseValue, parseScalar, afterWord]
  | .int i =>
      obtain ⟨d, t', ht'⟩ := natText_head i.natAbs
      have hparse := parseNumber_text (i < 0) i.natAbs [] none (by simp) hr
      have hdispatch := parseValue_number m (i < 0) (t := natText i.natAbs ++ r)
        ⟨d, _, by rw [ht', List.cons_append]⟩
      rw [Json.text, List.append_assoc, hdispatch]
      rw [numberOf_int] at hparse
      exact hparse
  | .float (.finite x) =>
      rw [Json.text, JsonFloat.text, parseValue_floatText m _ hr, FloatText.value_repr]
  | .float (.infinity true) =>
      simp [Json.text, JsonFloat.text, signText, parseValue, parseScalar, afterWord]
  | .float (.infinity false) =>
      simp [Json.text, JsonFloat.text, signText, parseValue, parseScalar, afterWord]
  | .float .nan => simp [Json.text, JsonFloat.text, parseValue, parseScalar, afterWord]
  | .str s =>
      rw [Json.text, List.cons_append]
      exact parseValue_quote.mpr ⟨s, scanString_charsText hwf r, rfl⟩
  | .arr [] => simp [Json.text, elementsText, parseValue, skipSpace, isJsonSpace]
  | .arr (x :: xs) =>
      rw [Json.text] at hn ⊢
      have hparse := parseElements_text x xs (by simpa [Json.WF] using hwf) (n := m)
        (by simpa using hn) r
      rw [List.cons_append]
      refine parseValue_bracket.mpr (.inr ?_)
      rw [skipSpace_elementsText]
      refine ⟨?_, x :: xs, hparse, rfl⟩
      obtain ⟨c, t, ht, -, hbracket⟩ := elementsText_head x xs r
      rw [ht, List.head?_cons, ne_eq, Option.some.injEq]
      exact hbracket
  | .obj [] => simp [Json.text, membersText, parseValue, skipSpace, isJsonSpace]
  | .obj (kv :: kvs) =>
      rw [Json.text] at hn ⊢
      rw [Json.WF] at hwf
      have hparse := parseMembers_text kv kvs hwf.2 (n := m) (by simpa using hn) r
      rw [List.cons_append]
      refine parseValue_brace.mpr (.inr ?_)
      rw [skipSpace_membersText]
      refine ⟨?_, kv :: kvs, hparse, by rw [ofPairs_of_nodup hwf.1]⟩
      obtain ⟨t, ht⟩ := membersText_head kv kvs r
      rw [ht, List.head?_cons, ne_eq, Option.some.injEq]
      decide

/-- The elements of a list are read back. -/
theorem parseElements_text (x : Json) (xs : List Json) (hwf : WFList (x :: xs)) {n : ℕ}
    (hn : (elementsText (x :: xs)).length ≤ n) (r : List Char) :
    parseElements n (elementsText (x :: xs) ++ r) = some (x :: xs, r) := by
  match xs with
  | [] =>
      rw [elementsText] at hn ⊢
      simp only [List.length_append, List.length_cons, List.length_nil] at hn
      obtain ⟨m, rfl⟩ : ∃ m, n = m + 1 := ⟨n - 1, by omega⟩
      have hparse := parseValue_text x hwf.1 (n := m) (by omega)
        (stopsNumber_cons (c := ']') (by simp) r)
      rw [List.append_assoc, List.singleton_append]
      exact parseElements_eq_some.mpr
        ⟨x, _, hparse, .inl ⟨skipSpace_of_not_space (by decide) r, rfl⟩⟩
  | y :: ys =>
      rw [elementsText] at hn ⊢
      simp only [List.length_append, List.length_cons] at hn
      obtain ⟨m, rfl⟩ : ∃ m, n = m + 1 := ⟨n - 1, by omega⟩
      have hparse := parseValue_text x hwf.1 (n := m) (by omega)
        (stopsNumber_cons (c := ',') (by simp) (' ' :: (elementsText (y :: ys) ++ r)))
      have hrest := parseElements_text y ys hwf.2 (n := m) (by omega) r
      rw [List.append_assoc, List.cons_append, List.cons_append]
      refine parseElements_eq_some.mpr ⟨x, _, hparse,
        .inr ⟨_, y :: ys, skipSpace_of_not_space (by decide) _, ?_, rfl⟩⟩
      rw [skipSpace_blank, skipSpace_elementsText]
      exact hrest

/-- The entries of a dictionary are read back. -/
theorem parseMembers_text (kv : PyStr × Json) (kvs : List (PyStr × Json))
    (hwf : WFDict (kv :: kvs)) {n : ℕ} (hn : (membersText (kv :: kvs)).length ≤ n)
    (r : List Char) :
    parseMembers n (membersText (kv :: kvs) ++ r) = some (kv :: kvs, r) := by
  obtain ⟨k, v⟩ := kv
  have hkey : ∀ s, scanString (charsText k ++ s) = some (k, s) :=
    scanString_charsText hwf.1.1
  have hcolon : ∀ s, skipSpace (':' :: s) = ':' :: s := skipSpace_of_not_space (by decide)
  have hv : ∀ s, skipSpace (' ' :: (v.text ++ s)) = v.text ++ s := by
    intro s
    rw [skipSpace_blank, skipSpace_text]
  match kvs with
  | [] =>
      rw [membersText] at hn ⊢
      simp only [List.length_append, List.length_cons, List.length_nil] at hn
      obtain ⟨m, rfl⟩ : ∃ m, n = m + 1 := ⟨n - 1, by omega⟩
      have hparse := parseValue_text v hwf.1.2 (n := m) (by omega)
        (stopsNumber_cons (c := '}') (by simp) r)
      rw [← hv] at hparse
      simp only [List.cons_append, List.append_assoc, List.nil_append]
      refine parseMembers_eq_some.mpr ⟨_, _, _, _, v, _, rfl, hkey _, hcolon _, hparse,
        .inl ⟨skipSpace_of_not_space (by decide) r, rfl⟩⟩
  | kv' :: kvs =>
      rw [membersText] at hn ⊢
      simp only [List.length_append, List.length_cons] at hn
      obtain ⟨m, rfl⟩ : ∃ m, n = m + 1 := ⟨n - 1, by omega⟩
      have hparse := parseValue_text v hwf.1.2 (n := m) (by omega)
        (stopsNumber_cons (c := ',') (by simp) (' ' :: (membersText (kv' :: kvs) ++ r)))
      have hrest := parseMembers_text kv' kvs hwf.2 (n := m) (by omega) r
      rw [← hv] at hparse
      simp only [List.cons_append, List.append_assoc]
      refine parseMembers_eq_some.mpr ⟨_, _, _, _, v, _, rfl, hkey _, hcolon _, hparse,
        .inr ⟨_, kv' :: kvs, skipSpace_of_not_space (by decide) _, ?_, rfl⟩⟩
      rw [skipSpace_blank, skipSpace_membersText]
      exact hrest

end

/-- **What is written is read back.** -/
theorem jsonLoads_text {v : Json} (hwf : v.WF) : jsonLoads v.text = some v := by
  have hskip : skipSpace v.text = v.text := by
    have h := skipSpace_text v []
    rwa [List.append_nil] at h
  have hparse := parseValue_text v hwf (n := v.text.length + 1) (by omega) stopsNumber_nil
  rw [List.append_nil] at hparse
  rw [jsonLoads, hskip, hparse]
  rfl

/-! ## What is read is well formed -/

theorem mem_keys_set (k : PyStr) (v : Json) (d : Dict) (x : PyStr) :
    x ∈ (Dict.set k v d).map Prod.fst ↔ x = k ∨ x ∈ d.map Prod.fst := by
  induction d with
  | nil => simp [Dict.set]
  | cons kv r ih =>
      obtain ⟨k', v'⟩ := kv
      rw [Dict.set]
      split
      · next hk =>
          subst hk
          simp
      · rw [List.map_cons, List.mem_cons, ih, List.map_cons, List.mem_cons]
        tauto

theorem set_wf {k : PyStr} {v : Json} {d : Dict} (hk : PyStr.Joined k) (hv : v.WF) (hd : (Json.obj d).WF) :
    (Json.obj (Dict.set k v d)).WF := by
  simp only [Json.WF] at hd ⊢
  obtain ⟨hnodup, hwf⟩ := hd
  induction d with
  | nil => exact ⟨by simp [Dict.set], ⟨hk, hv⟩, trivial⟩
  | cons kv r ih =>
      obtain ⟨k', v'⟩ := kv
      rw [List.map_cons, List.nodup_cons] at hnodup
      rw [Dict.set]
      split
      · next hk =>
          subst hk
          exact ⟨by rw [List.map_cons, List.nodup_cons]; exact hnodup, ⟨hk, hv⟩, hwf.2⟩
      · next hk =>
          obtain ⟨hnodup', hwf'⟩ := ih hnodup.2 hwf.2
          refine ⟨?_, hwf.1, hwf'⟩
          rw [List.map_cons, List.nodup_cons, mem_keys_set]
          refine ⟨?_, hnodup'⟩
          rintro (h | h)
          · exact hk h
          · exact hnodup.1 h

theorem ofPairs_wf {kvs : List (PyStr × Json)} (h : WFDict kvs) :
    (Json.obj (Dict.ofPairs kvs)).WF := by
  have hfold : ∀ (kvs : List (PyStr × Json)) (d : Dict), WFDict kvs → (Json.obj d).WF →
      (Json.obj (kvs.foldl (fun d kv => Dict.set kv.1 kv.2 d) d)).WF := by
    intro kvs
    induction kvs with
    | nil => exact fun d _ hd => hd
    | cons kv r ih => exact fun d hkvs hd => ih _ hkvs.2 (set_wf hkvs.1.1 hkvs.1.2 hd)
  exact hfold kvs [] h (by simp [Json.WF, WFDict])

theorem numberOf_wf (neg : Bool) (whole : ℕ) (frac : List (Fin 10))
    (exp : Option (Bool × List (Fin 10))) : (numberOf neg whole frac exp).WF := by
  unfold numberOf
  split
  · trivial
  · trivial

theorem parseScalar_wf {p r : List Char} {v : Json} (h : parseScalar p = some (v, r)) : v.WF := by
  have hword : ∀ (word : List Char) (x : Json) (t : List Char), x.WF →
      (afterWord word t).map (x, ·) = some (v, r) → v.WF := by
    intro word x t hx h
    obtain ⟨t', -, hxr⟩ := Option.map_eq_some_iff.mp h
    rw [Prod.mk.injEq] at hxr
    exact hxr.1 ▸ hx
  have hnumber : ∀ p, parseNumber p = some (v, r) → v.WF := by
    intro p h
    unfold parseNumber at h
    split at h
    · exact absurd h (by simp)
    · simp only [Option.some.injEq, Prod.mk.injEq] at h
      exact h.1 ▸ numberOf_wf _ _ _ _
  cases p with
  | nil => exact absurd h (by simp [parseScalar])
  | cons c t =>
      rw [parseScalar] at h
      split at h
      · exact hword _ _ _ (by simp [Json.WF]) h
      split at h
      · exact hword _ _ _ (by simp [Json.WF]) h
      split at h
      · exact hword _ _ _ (by simp [Json.WF]) h
      split at h
      · exact hword _ _ _ (by simp [Json.WF]) h
      split at h
      · exact hword _ _ _ (by simp [Json.WF]) h
      split at h
      · exact hword _ _ _ (by simp [Json.WF]) h
      · exact hnumber _ h

theorem joined_of_scanString {p r : List Char} {s : PyStr} (h : scanString p = some (s, r)) :
    PyStr.Joined s := by
  obtain ⟨t, -, rfl⟩ := map_fst_eq_some.mp h
  exact PyStr.joined_join t

/-- The induction over the fuel, all three readers at once. -/
theorem parse_wf (n : ℕ) :
    (∀ p v r, parseValue n p = some (v, r) → v.WF) ∧
    (∀ p vs r, parseElements n p = some (vs, r) → WFList vs) ∧
    ∀ p kvs r, parseMembers n p = some (kvs, r) → WFDict kvs := by
  induction n with
  | zero =>
      refine ⟨?_, ?_, ?_⟩
      · intro p v r h
        exact absurd h (by simp [parseValue])
      · intro p vs r h
        exact absurd h (by simp [parseElements])
      · intro p kvs r h
        exact absurd h (by simp [parseMembers])
  | succ n ih =>
      obtain ⟨ihValue, ihElements, ihMembers⟩ := ih
      refine ⟨?_, ?_, ?_⟩
      · intro p v r h
        obtain ⟨t, rfl⟩ | ⟨t, rfl⟩ | ⟨t, rfl⟩ | ⟨c, t, rfl, -, hscalar⟩ := parseValue_cases h
        · obtain ⟨s, hs, rfl⟩ := parseValue_quote.mp h
          exact joined_of_scanString hs
        · rcases parseValue_bracket.mp h with ⟨-, rfl⟩ | ⟨-, vs, hvs, rfl⟩
          · simp [Json.WF, WFList]
          · rw [Json.WF]
            exact ihElements _ _ _ hvs
        · rcases parseValue_brace.mp h with ⟨-, rfl⟩ | ⟨-, kvs, hkvs, rfl⟩
          · simp [Json.WF, WFDict]
          · exact ofPairs_wf (ihMembers _ _ _ hkvs)
        · exact parseScalar_wf hscalar
      · intro p vs r h
        obtain ⟨v, r₁, hv, hend⟩ := parseElements_eq_some.mp h
        rcases hend with ⟨-, rfl⟩ | ⟨r₂, vs', -, hvs, rfl⟩
        · exact ⟨ihValue _ _ _ hv, trivial⟩
        · exact ⟨ihValue _ _ _ hv, ihElements _ _ _ hvs⟩
      · intro p kvs r h
        obtain ⟨t, k, r₁, r₂, v, r₃, -, hk, -, hv, hend⟩ := parseMembers_eq_some.mp h
        have hentry := And.intro (joined_of_scanString hk) (ihValue _ _ _ hv)
        rcases hend with ⟨-, rfl⟩ | ⟨r₄, kvs', -, hkvs, rfl⟩
        · exact ⟨hentry, trivial⟩
        · exact ⟨hentry, ihMembers _ _ _ hkvs⟩

/-- **What is read is well formed.** -/
theorem jsonLoads_wf {p : List Char} {v : Json} (h : jsonLoads p = some v) : v.WF := by
  unfold jsonLoads at h
  split at h
  · next v' r hp =>
      split at h
      · rw [Option.some.injEq] at h
        exact h ▸ (parse_wf _).1 _ _ _ hp
      · exact absurd h (by simp)
  · exact absurd h (by simp)
