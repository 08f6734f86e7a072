/-
# What a beginning of a JSON text says

`json.loads` reads from the left, and what it takes for a value does not depend on what
follows.  So a text that begins like another one can be read only when it ends in the
whitespace behind the same value.

* `parseChars_local`, `parseNumber_local`, `parse_local` : the characters a parser takes, and
  that it takes them before any other rest as well;
* `jsonLoads_append_iff` : a beginning of the text of a dictionary is read exactly when
  only whitespace is missing;
* `jsonLoads_of_append` : the text `json.dumps` writes has no other beginning that can be
  read.
-/
import StorageNode.JsonRoundTrip

/-! ## Whitespace -/

theorem skipSpace_local {p r : List Char} {c : Char} (h : skipSpace p = c :: r) :
    ∃ b, p = b ++ c :: r ∧ ∀ r', skipSpace (b ++ c :: r') = c :: r' := by
  induction p with
  | nil => exact absurd h (by simp [skipSpace])
  | cons c' p ih =>
      rw [skipSpace] at h
      split at h
      · next hspace =>
          obtain ⟨b, rfl, hb⟩ := ih h
          refine ⟨c' :: b, rfl, fun r' => ?_⟩
          rw [List.cons_append, skipSpace, if_pos hspace, hb]
      · next hspace =>
          rw [List.cons.injEq] at h
          obtain ⟨rfl, rfl⟩ := h
          refine ⟨[], rfl, fun r' => ?_⟩
          rw [List.nil_append, skipSpace, if_neg hspace]

theorem skipSpace_eq_nil_iff {p : List Char} :
    skipSpace p = [] ↔ ∀ c ∈ p, isJsonSpace c = true := by
  induction p with
  | nil => simp [skipSpace]
  | cons c p ih =>
      rw [skipSpace]
      split
      · next hspace => rw [ih]; simp [hspace]
      · next hspace => simp [hspace]

theorem skipSpace_append {p r : List Char} {c : Char} (h : skipSpace p = c :: r) (q : List Char) :
    skipSpace (p ++ q) = c :: (r ++ q) := by
  obtain ⟨b, rfl, hb⟩ := skipSpace_local h
  rw [List.append_assoc, List.cons_append]
  exact hb (r ++ q)

/-- What stands before a comma or a closing bracket, whitespace apart, stops a number. -/
theorem stopsNumber_of_skipSpace {r r' : List Char} {c : Char} (h : skipSpace r = c :: r')
    (hc : c = ',' ∨ c = ']' ∨ c = '}') : StopsNumber r := by
  cases r with
  | nil => exact absurd h (by simp [skipSpace])
  | cons c' r =>
      rw [skipSpace] at h
      split at h
      · next hspace =>
          intro x hx
          have hxc : c' = x := Option.some.inj hx
          subst hxc
          simp only [isJsonSpace, Bool.or_eq_true, decide_eq_true_eq] at hspace
          rcases hspace with ((rfl | rfl) | rfl) | rfl
          all_goals decide
      · rw [List.cons.injEq] at h
        obtain ⟨rfl, rfl⟩ := h
        exact stopsNumber_cons hc _

/-! ## Strings -/

theorem parseUnicode_local {p r : List Char} {c : CodePoint} (h : parseUnicode p = some (c, r)) :
    ∃ w, p = w ++ r ∧ ∀ r', parseUnicode (w ++ r') = some (c, r') := by
  unfold parseUnicode at h
  split at h
  · next a b c' d t =>
      obtain ⟨n, hn, hnr⟩ := Option.map_eq_some_iff.mp h
      obtain ⟨rfl, rfl⟩ := Prod.mk.inj hnr
      refine ⟨[a, b, c', d], rfl, fun r' => ?_⟩
      simp only [List.cons_append, List.nil_append, parseUnicode, hn, Option.map_some]
  · exact absurd h (by simp)

theorem parseEscape_local {p r : List Char} {c : CodePoint} (h : parseEscape p = some (c, r)) :
    ∃ w, p = w ++ r ∧ ∀ r', parseEscape (w ++ r') = some (c, r') := by
  cases p with
  | nil => exact absurd h (by simp [parseEscape])
  | cons c' t =>
      by_cases hu : c' = 'u'
      · subst hu
        obtain ⟨w, rfl, hw⟩ := parseUnicode_local (show parseUnicode t = some (c, r) from h)
        exact ⟨'u' :: w, rfl, fun r' => hw r'⟩
      · -- every other escape is one character
        have hone : t = r ∧ ∀ r', parseEscape (c' :: r') = some (c, r') := by
          simp only [parseEscape, if_neg hu] at h ⊢
          split_ifs at h ⊢ <;> simp_all
        exact ⟨[c'], by rw [hone.1]; rfl, hone.2⟩

theorem parseChars_local {n : ℕ} {p r : List Char} {s : PyStr}
    (h : parseChars n p = some (s, r)) :
    ∃ w, p = w ++ r ∧ ∀ m r', w.length ≤ m → parseChars m (w ++ r') = some (s, r') := by
  induction n generalizing p s with
  | zero => exact absurd h (by simp [parseChars])
  | succ n ih =>
      cases p with
      | nil => exact absurd h (by simp [parseChars])
      | cons c t =>
          rw [parseChars] at h
          split at h
          · next hc =>
              simp only [Option.some.injEq, Prod.mk.injEq] at h
              obtain ⟨rfl, rfl⟩ := h
              refine ⟨[c], rfl, fun m r' hm => ?_⟩
              obtain ⟨k, rfl⟩ : ∃ k, m = k + 1 := Nat.exists_eq_add_of_le' hm
              rw [List.singleton_append, parseChars, if_pos hc]
          · next hc =>
              split at h
              · next hb =>
                  split at h
                  · next c' t' he =>
                      obtain ⟨s', hs, rfl⟩ := map_fst_eq_some.mp h
                      obtain ⟨w₁, rfl, hw₁⟩ := parseEscape_local he
                      obtain ⟨w₂, rfl, hw₂⟩ := ih hs
                      refine ⟨c :: (w₁ ++ w₂), by simp, fun m r' hm => ?_⟩
                      simp only [List.length_cons, List.length_append] at hm
                      obtain ⟨k, rfl⟩ : ∃ k, m = k + 1 := ⟨m - 1, by omega⟩
                      rw [List.cons_append, List.append_assoc, parseChars, if_neg hc, if_pos hb, hw₁]
                      exact map_fst_eq_some.mpr ⟨s', hw₂ k r' (by omega), rfl⟩
                  · exact absurd h (by simp)
              · next hb =>
                  split at h
                  · exact absurd h (by simp)
                  · next hlt =>
                      obtain ⟨s', hs, rfl⟩ := map_fst_eq_some.mp h
                      obtain ⟨w, rfl, hw⟩ := ih hs
                      refine ⟨c :: w, rfl, fun m r' hm => ?_⟩
                      simp only [List.length_cons] at hm
                      obtain ⟨k, rfl⟩ : ∃ k, m = k + 1 := ⟨m - 1, by omega⟩
                      rw [List.cons_append, parseChars, if_neg hc, if_neg hb, if_neg hlt]
                      exact map_fst_eq_some.mpr ⟨s', hw k r' (by omega), rfl⟩

theorem scanString_local {p r : List Char} {s : PyStr} (h : scanString p = some (s, r)) :
    ∃ w, p = w ++ r ∧ ∀ r', scanString (w ++ r') = some (s, r') := by
  obtain ⟨t, ht, rfl⟩ := map_fst_eq_some.mp h
  obtain ⟨w, rfl, hw⟩ := parseChars_local ht
  refine ⟨w, rfl, fun r' => map_fst_eq_some.mpr ⟨t, hw _ r' ?_, rfl⟩⟩
  rw [List.length_append]
  omega

/-! ## Numbers -/

/-- What follows digits: no digit. -/
def StopsDigits (r : List Char) : Prop := ∀ c ∈ r.head?, digit? c = none

theorem stopsDigits_append {w r : List Char} (hw : ∀ c ∈ w.head?, digit? c = none)
    (hr : StopsDigits r) : StopsDigits (w ++ r) := by
  cases w with
  | nil => exact hr
  | cons c w => exact hw

theorem takeDigits_local (p : List Char) :
    ∃ w, p = w ++ (takeDigits p).2 ∧
      ∀ r', StopsDigits r' → takeDigits (w ++ r') = ((takeDigits p).1, r') := by
  induction p with
  | nil => exact ⟨[], rfl, fun r' h => takeDigits_of_stop h⟩
  | cons c p ih =>
      rw [takeDigits]
      cases hd : digit? c with
      | none => exact ⟨[], rfl, fun r' h => takeDigits_of_stop h⟩
      | some d =>
          obtain ⟨w, hp, hw⟩ := ih
          refine ⟨c :: w, by rw [List.cons_append, ← hp], fun r' h => ?_⟩
          rw [List.cons_append, takeDigits, hd]
          simp only [hw r' h]

theorem intPart_local {p r : List Char} {n : ℕ} (h : intPart p = some (n, r)) :
    ∃ w, p = w ++ r ∧ ∀ r', StopsDigits r' → intPart (w ++ r') = some (n, r') := by
  cases p with
  | nil => exact absurd h (by simp [intPart])
  | cons c p =>
      rw [intPart] at h
      cases hd : digit? c with
      | none =>
          rw [hd] at h
          exact absurd h (by simp)
      | some d =>
          simp only [hd] at h
          split at h
          · next hzero =>
              simp only [Option.some.injEq, Prod.mk.injEq] at h
              obtain ⟨rfl, rfl⟩ := h
              refine ⟨[c], rfl, fun r' _ => ?_⟩
              simp only [List.singleton_append, intPart, hd, if_pos hzero]
          · next hzero =>
              simp only [Option.some.injEq, Prod.mk.injEq] at h
              obtain ⟨rfl, rfl⟩ := h
              obtain ⟨w, hp, hw⟩ := takeDigits_local p
              refine ⟨c :: w, by rw [List.cons_append, ← hp], fun r' h => ?_⟩
              simp only [List.cons_append, intPart, hd, if_neg hzero, hw r' h]

theorem fracPart_local (p : List Char) :
    ∃ w, p = w ++ (fracPart p).2 ∧ (∀ c ∈ w.head?, c = '.') ∧
      ∀ r', StopsDigits r' → (∀ c ∈ r'.head?, c ≠ '.') →
        fracPart (w ++ r') = ((fracPart p).1, r') := by
  have hnone : ∀ r', (∀ c ∈ r'.head?, c ≠ '.') → fracPart r' = ([], r') := by
    intro r' h
    cases r' with
    | nil => rfl
    | cons c r' => rw [fracPart, if_neg fun hc => h c rfl hc.1]
  cases p with
  | nil => exact ⟨[], rfl, fun c hc => absurd hc (by simp), fun r' _ h => hnone r' h⟩
  | cons c p =>
      rw [fracPart]
      split
      · next hcond =>
          obtain ⟨w, hp, hw⟩ := takeDigits_local p
          refine ⟨c :: w, by rw [List.cons_append, ← hp], fun x hx => ?_, fun r' h _ => ?_⟩
          · rw [← Option.some.inj hx]
            exact hcond.1
          · simp only [List.cons_append, fracPart, hw r' h]
            rw [if_pos hcond]
      · exact ⟨[], rfl, fun c hc => absurd hc (by simp), fun r' _ h => hnone r' h⟩

/-- The sign of an exponent that has digits. -/
theorem expSign_local {p : List Char} (h : (takeDigits (expSign p).2).1 ≠ []) :
    ∃ w, p = w ++ (takeDigits (expSign p).2).2 ∧
      ∀ r', StopsDigits r' → (expSign (w ++ r')).1 = (expSign p).1 ∧
        takeDigits (expSign (w ++ r')).2 = ((takeDigits (expSign p).2).1, r') := by
  cases p with
  | nil => exact absurd rfl h
  | cons c p =>
      obtain ⟨w, hp, hw⟩ := takeDigits_local (expSign (c :: p)).2
      by_cases hminus : c = '-'
      · have hsign : ∀ t, expSign (c :: t) = (true, t) := fun t => by rw [expSign, if_pos hminus]
        rw [hsign] at hp hw ⊢
        refine ⟨c :: w, by rw [List.cons_append, ← hp], fun r' hr => ?_⟩
        rw [List.cons_append, hsign]
        exact ⟨rfl, hw r' hr⟩
      · by_cases hplus : c = '+'
        · have hsign : ∀ t, expSign (c :: t) = (false, t) := fun t => by
            rw [expSign, if_neg hminus, if_pos hplus]
          rw [hsign] at hp hw ⊢
          refine ⟨c :: w, by rw [List.cons_append, ← hp], fun r' hr => ?_⟩
          rw [List.cons_append, hsign]
          exact ⟨rfl, hw r' hr⟩
        · have hsign : ∀ t, expSign (c :: t) = (false, c :: t) := fun t => by
            rw [expSign, if_neg hminus, if_neg hplus]
          rw [hsign] at hp hw h ⊢
          -- the first character is a digit, so it is among those taken
          cases w with
          | nil =>
              rw [List.nil_append] at hp
              have hnil := hw [] fun c hc => absurd hc (by simp)
              exact absurd (Prod.mk.inj hnil).1.symm h
          | cons c' w =>
              obtain ⟨rfl, -⟩ := List.cons.inj hp
              refine ⟨c :: w, hp, fun r' hr => ?_⟩
              rw [List.cons_append, hsign]
              exact ⟨rfl, hw r' hr⟩

theorem expPart_local (p : List Char) :
    ∃ w, p = w ++ (expPart p).2 ∧ (∀ c ∈ w.head?, c = 'e' ∨ c = 'E') ∧
      ∀ r', StopsNumber r' → expPart (w ++ r') = ((expPart p).1, r') := by
  have hnone : ∀ r', StopsNumber r' → expPart r' = (none, r') := by
    intro r' h
    cases r' with
    | nil => rfl
    | cons c r' =>
        obtain ⟨-, -, he, hE⟩ := h c rfl
        rw [expPart, if_neg fun hc => hc.1.elim he hE]
  cases p with
  | nil => exact ⟨[], rfl, fun c hc => absurd hc (by simp), hnone⟩
  | cons c p =>
      rw [expPart]
      split
      · next hcond =>
          obtain ⟨w, hp, hw⟩ := expSign_local hcond.2
          refine ⟨c :: w, by rw [List.cons_append, ← hp], fun x hx => ?_, fun r' h => ?_⟩
          · rw [← Option.some.inj hx]
            exact hcond.1
          · obtain ⟨hsign, hdigits⟩ := hw r' fun c hc => (h c hc).1
            simp only [List.cons_append, expPart, hdigits, hsign]
            rw [if_pos hcond]
      · exact ⟨[], rfl, fun c hc => absurd hc (by simp), hnone⟩

theorem parseNumber_local {p r : List Char} {v : Json} (h : parseNumber p = some (v, r)) :
    ∃ w, p = w ++ r ∧ ∀ r', StopsNumber r' → parseNumber (w ++ r') = some (v, r') := by
  unfold parseNumber at h
  split at h
  · exact absurd h (by simp)
  · next whole r₁ hint =>
      simp only [Option.some.injEq, Prod.mk.injEq] at h
      obtain ⟨rfl, rfl⟩ := h
      obtain ⟨w₁, hw₁, hint'⟩ := intPart_local hint
      obtain ⟨w₂, hw₂, hhead₂, hfrac⟩ := fracPart_local r₁
      obtain ⟨w₃, hw₃, hhead₃, hexp⟩ := expPart_local (fracPart r₁).2
      -- each part stops where the next one starts
      have hdot : ∀ r', StopsNumber r' → StopsDigits (w₃ ++ r') ∧ ∀ c ∈ (w₃ ++ r').head?, c ≠ '.' := by
        intro r' hr
        cases w₃ with
        | nil => exact ⟨fun c hc => (hr c hc).1, fun c hc => (hr c hc).2.1⟩
        | cons c w₃ =>
            rcases hhead₃ c rfl with rfl | rfl
            · exact ⟨fun c hc => by rw [← Option.some.inj hc]; decide,
                fun c hc => by rw [← Option.some.inj hc]; decide⟩
            · exact ⟨fun c hc => by rw [← Option.some.inj hc]; decide,
                fun c hc => by rw [← Option.some.inj hc]; decide⟩
      have hdigits : ∀ r', StopsNumber r' → StopsDigits (w₂ ++ (w₃ ++ r')) := by
        intro r' hr
        refine stopsDigits_append (fun c hc => ?_) (hdot r' hr).1
        rw [hhead₂ c hc]
        decide
      have hparts : ∀ r', StopsNumber r' →
          intPart (w₁ ++ (w₂ ++ (w₃ ++ r'))) = some (whole, w₂ ++ (w₃ ++ r')) ∧
          fracPart (w₂ ++ (w₃ ++ r')) = ((fracPart r₁).1, w₃ ++ r') ∧
          expPart (w₃ ++ r') = ((expPart (fracPart r₁).2).1, r') := fun r' hr =>
        ⟨hint' _ (hdigits r' hr), hfrac _ (hdot r' hr).1 (hdot r' hr).2, hexp r' hr⟩
      have hp : (minusSign p).2 = w₁ ++ (w₂ ++ (w₃ ++ (expPart (fracPart r₁).2).2)) := by
        rw [← hw₃, ← hw₂, ← hw₁]
      have hread : ∀ (b : Bool) (t r' : List Char), StopsNumber r' →
          minusSign t = (b, w₁ ++ (w₂ ++ (w₃ ++ r'))) → b = (minusSign p).1 →
          parseNumber t = some (numberOf (minusSign p).1 whole (fracPart r₁).1
            (expPart (fracPart r₁).2).1, r') := by
        intro b t r' hr hminus hb
        obtain ⟨h₁, h₂, h₃⟩ := hparts r' hr
        rw [parseNumber, hminus]
        simp only [h₁, h₂, h₃, hb]
      cases p with
      | nil => exact absurd hint (by simp [minusSign, intPart])
      | cons c p =>
          by_cases hc : c = '-'
          · have hsign : ∀ t, minusSign (c :: t) = (true, t) := fun t => by
              rw [minusSign, if_pos hc]
            rw [hsign] at hp hread
            refine ⟨c :: (w₁ ++ (w₂ ++ w₃)), ?_, fun r' hr => ?_⟩
            · simpa using hp
            · rw [hsign]
              refine hread true _ r' hr ?_ rfl
              rw [List.cons_append, hsign]
              simp
          · have hsign : ∀ t, minusSign (c :: t) = (false, c :: t) := fun t => by
              rw [minusSign, if_neg hc]
            rw [hsign] at hp hread hint
            refine ⟨w₁ ++ (w₂ ++ w₃), ?_, fun r' hr => ?_⟩
            · simpa using hp
            · rw [hsign]
              refine hread false _ r' hr ?_ rfl
              -- the number starts with the digit it started with before
              have hw : ∃ t, w₁ ++ (w₂ ++ (w₃ ++ r')) = c :: t := by
                cases w₁ with
                | nil =>
                    have hnone := hint' [] fun c hc => absurd hc (by simp)
                    exact absurd hnone (by simp [intPart])
                | cons c' w₁ =>
                    rw [List.cons_append] at hp
                    obtain ⟨rfl, -⟩ := List.cons.inj hp
                    exact ⟨_, rfl⟩
              obtain ⟨t, ht⟩ := hw
              rw [List.append_assoc, List.append_assoc, ht, hsign]

/-! ## Values -/

theorem afterWord_local {word p r : List Char} (h : afterWord word p = some r) :
    p = word ++ r ∧ ∀ r', afterWord word (word ++ r') = some r' := by
  induction word generalizing p with
  | nil =>
      rw [afterWord, Option.some.injEq] at h
      exact ⟨h, fun r' => rfl⟩
  | cons c word ih =>
      cases p with
      | nil => exact absurd h (by simp [afterWord])
      | cons c' p =>
          rw [afterWord] at h
          split at h
          · next hc =>
              obtain ⟨rfl, hword⟩ := ih h
              subst hc
              refine ⟨rfl, fun r' => ?_⟩
              rw [List.cons_append, afterWord, if_pos rfl, hword]
          · exact absurd h (by simp)

theorem parseScalar_local {p r : List Char} {v : Json} (h : parseScalar p = some (v, r)) :
    ∃ c w, p = c :: (w ++ r) ∧ ∀ r', StopsNumber r' → parseScalar (c :: (w ++ r')) = some (v, r') := by
  have hword : ∀ {word : List Char} {x : Json} {t : List Char},
      (afterWord word t).map (x, ·) = some (v, r) → t = word ++ r ∧
        ∀ r', (afterWord word (word ++ r')).map (x, ·) = some (v, r') := by
    intro word x t h
    obtain ⟨t', ht, hxr⟩ := Option.map_eq_some_iff.mp h
    obtain ⟨rfl, rfl⟩ := Prod.mk.inj hxr
    obtain ⟨hp, hread⟩ := afterWord_local ht
    exact ⟨hp, fun r' => by rw [hread, Option.map_some]⟩
  cases p with
  | nil => exact absurd h (by simp [parseScalar])
  | cons c t =>
      rw [parseScalar] at h
      split at h
      · next hc =>
          obtain ⟨rfl, hread⟩ := hword h
          refine ⟨c, _, rfl, fun r' _ => ?_⟩
          rw [parseScalar, if_pos hc, hread]
      next hn =>
      split at h
      · next hc =>
          obtain ⟨rfl, hread⟩ := hword h
          refine ⟨c, _, rfl, fun r' _ => ?_⟩
          rw [parseScalar, if_neg hn, if_pos hc, hread]
      next ht =>
      split at h
      · next hc =>
          obtain ⟨rfl, hread⟩ := hword h
          refine ⟨c, _, rfl, fun r' _ => ?_⟩
          rw [parseScalar, if_neg hn, if_neg ht, if_pos hc, hread]
      next hf =>
      split at h
      · next hc =>
          obtain ⟨rfl, hread⟩ := hword h
          refine ⟨c, _, rfl, fun r' _ => ?_⟩
          rw [parseScalar, if_neg hn, if_neg ht, if_neg hf, if_pos hc, hread]
      next hN =>
      split at h
      · next hc =>
          obtain ⟨rfl, hread⟩ := hword h
          refine ⟨c, _, rfl, fun r' _ => ?_⟩
          rw [parseScalar, if_neg hn, if_neg ht, if_neg hf, if_neg hN, if_pos hc, hread]
      next hI =>
      split at h
      · next hc =>
          obtain ⟨rfl, hread⟩ := hword h
          refine ⟨c, _, rfl, fun r' _ => ?_⟩
          rw [parseScalar, if_neg hn, if_neg ht, if_neg hf, if_neg hN, if_neg hI,
            if_pos ⟨hc.1, rfl⟩, hread]
      next hminus =>
      obtain ⟨w, hp, hread⟩ := parseNumber_local h
      cases w with
      | nil =>
          have hnone := hread [] fun c hc => absurd hc (by simp)
          exact absurd hnone (by simp [parseNumber, minusSign, intPart])
      | cons c' w =>
          obtain ⟨rfl, rfl⟩ := List.cons.inj hp
          refine ⟨c, w, rfl, fun r' hr => ?_⟩
          have hnumber := hread r' hr
          rw [List.cons_append] at hnumber
          -- a number that starts with `-I` is none
          have hinf : ¬ (c = '-' ∧ (w ++ r').head? = some 'I') := by
            rintro ⟨rfl, hhead⟩
            obtain ⟨t, ht⟩ : ∃ t, w ++ r' = 'I' :: t := by
              cases hw : w ++ r' with
              | nil => exact absurd (hw ▸ hhead) (by simp)
              | cons x t =>
                  rw [hw, List.head?_cons, Option.some.injEq] at hhead
                  exact ⟨t, by rw [hhead]⟩
            rw [ht] at hnumber
            exact absurd hnumber (by simp [parseNumber, minusSign, intPart, digit?])
          rw [parseScalar, if_neg hn, if_neg ht, if_neg hf, if_neg hN, if_neg hI, if_neg hinf, hnumber]

/-- **The readers with fuel `n` read locally.**  Elements and members end with their
bracket, so anything may follow; a value may be a number. -/
def ReadLocally (n : ℕ) : Prop :=
  (∀ p v r, parseValue n p = some (v, r) → ∃ c w, p = c :: (w ++ r) ∧
    ∀ m r', w.length < m → StopsNumber r' → parseValue m (c :: (w ++ r')) = some (v, r')) ∧
  (∀ p vs r, parseElements n p = some (vs, r) → ∃ c w, p = c :: (w ++ r) ∧
    ∀ m r', w.length < m → parseElements m (c :: (w ++ r')) = some (vs, r')) ∧
  ∀ p kvs r, parseMembers n p = some (kvs, r) → ∃ c w, p = c :: (w ++ '}' :: r) ∧
    ∀ m r', w.length + 1 < m → parseMembers m (c :: (w ++ '}' :: r')) = some (kvs, r')

section Readers

variable {n : ℕ} {p t r : List Char} {v : Json}

/-- The body of a list, up to its bracket. -/
theorem parseValue_arr_local
    (helements : ∀ p vs r, parseElements n p = some (vs, r) → ∃ c w, p = c :: (w ++ r) ∧
      ∀ m r', w.length < m → parseElements m (c :: (w ++ r')) = some (vs, r'))
    (h : parseValue (n + 1) ('[' :: t) = some (v, r)) :
    ∃ w, t = w ++ r ∧
      ∀ m r', w.length < m → parseValue m ('[' :: (w ++ r')) = some (v, r') := by
  rcases parseValue_bracket.mp h with ⟨hskip, rfl⟩ | ⟨hhead, vs, hvs, rfl⟩
  · obtain ⟨b, rfl, hb⟩ := skipSpace_local hskip
    refine ⟨b ++ [']'], by simp, fun m r' hm => ?_⟩
    obtain ⟨k, rfl⟩ : ∃ k, m = k + 1 := ⟨m - 1, by omega⟩
    rw [List.append_assoc, List.singleton_append]
    exact parseValue_bracket.mpr (.inl ⟨hb r', rfl⟩)
  · obtain ⟨c, w, hs, hw⟩ := helements _ _ _ hvs
    obtain ⟨b, rfl, hb⟩ := skipSpace_local hs
    refine ⟨b ++ c :: w, by simp, fun m r' hm => ?_⟩
    rw [List.length_append, List.length_cons] at hm
    obtain ⟨k, rfl⟩ : ∃ k, m = k + 1 := ⟨m - 1, by omega⟩
    rw [hs, List.head?_cons] at hhead
    rw [List.append_assoc, List.cons_append]
    refine parseValue_bracket.mpr (.inr ⟨?_, vs, ?_, rfl⟩)
    · rwa [hb, List.head?_cons]
    · rw [hb]
      exact hw k r' (by omega)

/-- The body of a dictionary, up to its brace. -/
theorem parseValue_obj_local
    (hmembers : ∀ p kvs r, parseMembers n p = some (kvs, r) → ∃ c w, p = c :: (w ++ '}' :: r) ∧
      ∀ m r', w.length + 1 < m → parseMembers m (c :: (w ++ '}' :: r')) = some (kvs, r'))
    (h : parseValue (n + 1) ('{' :: t) = some (v, r)) :
    ∃ w, t = w ++ '}' :: r ∧
      ∀ m r', w.length + 1 < m → parseValue m ('{' :: (w ++ '}' :: r')) = some (v, r') := by
  rcases parseValue_brace.mp h with ⟨hskip, rfl⟩ | ⟨hhead, kvs, hkvs, rfl⟩
  · obtain ⟨b, rfl, hb⟩ := skipSpace_local hskip
    refine ⟨b, rfl, fun m r' hm => ?_⟩
    obtain ⟨k, rfl⟩ : ∃ k, m = k + 1 := ⟨m - 1, by omega⟩
    exact parseValue_brace.mpr (.inl ⟨hb r', rfl⟩)
  · obtain ⟨c, w, hs, hw⟩ := hmembers _ _ _ hkvs
    obtain ⟨b, rfl, hb⟩ := skipSpace_local hs
    refine ⟨b ++ c :: w, by simp, fun m r' hm => ?_⟩
    rw [List.length_append, List.length_cons] at hm
    obtain ⟨k, rfl⟩ : ∃ k, m = k + 1 := ⟨m - 1, by omega⟩
    rw [hs, List.head?_cons] at hhead
    rw [List.append_assoc, List.cons_append]
    refine parseValue_brace.mpr (.inr ⟨?_, kvs, ?_, rfl⟩)
    · rwa [hb, List.head?_cons]
    · rw [hb]
      exact hw k r' (by omega)

theorem parseValue_local (ih : ReadLocally n) (h : parseValue (n + 1) p = some (v, r)) :
    ∃ c w, p = c :: (w ++ r) ∧
      ∀ m r', w.length < m → StopsNumber r' → parseValue m (c :: (w ++ r')) = some (v, r') := by
  obtain ⟨-, ihElements, ihMembers⟩ := ih
  obtain ⟨t, rfl⟩ | ⟨t, rfl⟩ | ⟨t, rfl⟩ | ⟨c, t, rfl, hc, hscalar⟩ := parseValue_cases h
  · obtain ⟨s, hs, rfl⟩ := parseValue_quote.mp h
    obtain ⟨w, rfl, hw⟩ := scanString_local hs
    refine ⟨'"', w, rfl, fun m r' hm _ => ?_⟩
    obtain ⟨k, rfl⟩ : ∃ k, m = k + 1 := ⟨m - 1, by omega⟩
    exact parseValue_quote.mpr ⟨s, hw r', rfl⟩
  · obtain ⟨w, rfl, hw⟩ := parseValue_arr_local ihElements h
    exact ⟨'[', w, rfl, fun m r' hm _ => hw m r' hm⟩
  · obtain ⟨w, rfl, hw⟩ := parseValue_obj_local ihMembers h
    refine ⟨'{', w ++ ['}'], by simp, fun m r' hm _ => ?_⟩
    rw [List.length_append, List.length_singleton] at hm
    rw [List.append_assoc, List.singleton_append]
    exact hw m r' hm
  · obtain ⟨x, w, hp, hw⟩ := parseScalar_local hscalar
    obtain ⟨rfl, rfl⟩ := List.cons.inj hp
    refine ⟨c, w, rfl, fun m r' hm hr => ?_⟩
    obtain ⟨k, rfl⟩ : ∃ k, m = k + 1 := ⟨m - 1, by omega⟩
    rw [parseValue_scalar hc, hw r' hr]

theorem parseElements_local {vs : List Json} (ih : ReadLocally n)
    (h : parseElements (n + 1) p = some (vs, r)) :
    ∃ c w, p = c :: (w ++ r) ∧
      ∀ m r', w.length < m → parseElements m (c :: (w ++ r')) = some (vs, r') := by
  obtain ⟨ihValue, ihElements, -⟩ := ih
  obtain ⟨v, r₁, hv, hend⟩ := parseElements_eq_some.mp h
  obtain ⟨c, w, rfl, hw⟩ := ihValue _ _ _ hv
  rcases hend with ⟨hskip, rfl⟩ | ⟨r₂, vs', hskip, hvs, rfl⟩
  · obtain ⟨b, rfl, hb⟩ := skipSpace_local hskip
    refine ⟨c, w ++ (b ++ [']']), by simp, fun m r' hm => ?_⟩
    simp only [List.length_append, List.length_singleton] at hm
    obtain ⟨k, rfl⟩ : ∃ k, m = k + 1 := ⟨m - 1, by omega⟩
    -- the whitespace and the bracket behind the value stop a number
    have hvalue := hw k (b ++ ']' :: r') (by omega) (stopsNumber_of_skipSpace (hb r') (by simp))
    rw [List.append_assoc, List.append_assoc, List.singleton_append]
    exact parseElements_eq_some.mpr ⟨v, _, hvalue, .inl ⟨hb r', rfl⟩⟩
  · obtain ⟨b, rfl, hb⟩ := skipSpace_local hskip
    obtain ⟨c₂, w₂, hs₂, hw₂⟩ := ihElements _ _ _ hvs
    obtain ⟨b₂, rfl, hb₂⟩ := skipSpace_local hs₂
    refine ⟨c, w ++ (b ++ ',' :: (b₂ ++ c₂ :: w₂)), by simp, fun m r' hm => ?_⟩
    simp only [List.length_append, List.length_cons] at hm
    obtain ⟨k, rfl⟩ : ∃ k, m = k + 1 := ⟨m - 1, by omega⟩
    have hvalue := hw k (b ++ ',' :: (b₂ ++ c₂ :: (w₂ ++ r'))) (by omega)
      (stopsNumber_of_skipSpace (hb _) (by simp))
    have hassoc : w ++ (b ++ ',' :: (b₂ ++ c₂ :: w₂)) ++ r' =
        w ++ (b ++ ',' :: (b₂ ++ c₂ :: (w₂ ++ r'))) := by simp
    rw [hassoc]
    refine parseElements_eq_some.mpr ⟨v, _, hvalue, .inr ⟨_, vs', hb _, ?_, rfl⟩⟩
    rw [hb₂]
    exact hw₂ k r' (by omega)

theorem parseMembers_local {kvs : List (PyStr × Json)} (ih : ReadLocally n)
    (h : parseMembers (n + 1) p = some (kvs, r)) :
    ∃ c w, p = c :: (w ++ '}' :: r) ∧
      ∀ m r', w.length + 1 < m → parseMembers m (c :: (w ++ '}' :: r')) = some (kvs, r') := by
  obtain ⟨ihValue, -, ihMembers⟩ := ih
  obtain ⟨t, k, r₁, r₂, v, r₃, rfl, hk, hskip₁, hv, hend⟩ := parseMembers_eq_some.mp h
  obtain ⟨w₁, rfl, hw₁⟩ := scanString_local hk
  obtain ⟨b₁, rfl, hb₁⟩ := skipSpace_local hskip₁
  obtain ⟨c₂, w₂, hs₂, hw₂⟩ := ihValue _ _ _ hv
  obtain ⟨b₂, rfl, hb₂⟩ := skipSpace_local hs₂
  rcases hend with ⟨hskip₃, rfl⟩ | ⟨r₄, kvs', hskip₃, hkvs, rfl⟩
  · obtain ⟨b₃, rfl, hb₃⟩ := skipSpace_local hskip₃
    refine ⟨'"', w₁ ++ (b₁ ++ ':' :: (b₂ ++ c₂ :: (w₂ ++ b₃))), by simp, fun m r' hm => ?_⟩
    simp only [List.length_append, List.length_cons] at hm
    obtain ⟨j, rfl⟩ : ∃ j, m = j + 1 := ⟨m - 1, by omega⟩
    have hvalue := hw₂ j (b₃ ++ '}' :: r') (by omega) (stopsNumber_of_skipSpace (hb₃ r') (by simp))
    rw [← hb₂] at hvalue
    have hassoc : w₁ ++ (b₁ ++ ':' :: (b₂ ++ c₂ :: (w₂ ++ b₃))) ++ '}' :: r' =
        w₁ ++ (b₁ ++ ':' :: (b₂ ++ c₂ :: (w₂ ++ (b₃ ++ '}' :: r')))) := by simp
    rw [hassoc]
    exact parseMembers_eq_some.mpr
      ⟨_, k, _, _, v, _, rfl, hw₁ _, hb₁ _, hvalue, .inl ⟨hb₃ r', rfl⟩⟩
  · obtain ⟨b₃, rfl, hb₃⟩ := skipSpace_local hskip₃
    obtain ⟨c₅, w₅, hs₅, hw₅⟩ := ihMembers _ _ _ hkvs
    obtain ⟨b₅, rfl, hb₅⟩ := skipSpace_local hs₅
    refine ⟨'"', w₁ ++ (b₁ ++ ':' :: (b₂ ++ c₂ :: (w₂ ++ (b₃ ++ ',' :: (b₅ ++ c₅ :: w₅))))),
      by simp, fun m r' hm => ?_⟩
    simp only [List.length_append, List.length_cons] at hm
    obtain ⟨j, rfl⟩ : ∃ j, m = j + 1 := ⟨m - 1, by omega⟩
    have hvalue := hw₂ j (b₃ ++ ',' :: (b₅ ++ c₅ :: (w₅ ++ '}' :: r'))) (by omega)
      (stopsNumber_of_skipSpace (hb₃ _) (by simp))
    rw [← hb₂] at hvalue
    have hassoc : w₁ ++ (b₁ ++ ':' :: (b₂ ++ c₂ :: (w₂ ++ (b₃ ++ ',' :: (b₅ ++ c₅ :: w₅))))) ++
        '}' :: r' = w₁ ++ (b₁ ++ ':' :: (b₂ ++ c₂ :: (w₂ ++ (b₃ ++ ',' ::
          (b₅ ++ c₅ :: (w₅ ++ '}' :: r')))))) := by simp
    rw [hassoc]
    refine parseMembers_eq_some.mpr
      ⟨_, k, _, _, v, _, rfl, hw₁ _, hb₁ _, hvalue, .inr ⟨_, kvs', hb₃ _, ?_, rfl⟩⟩
    rw [hb₅]
    exact hw₅ j r' (by omega)

end Readers

/-- The induction over the fuel, all three readers at once. -/
theorem parse_local (n : ℕ) : ReadLocally n := by
  induction n with
  | zero =>
      refine ⟨?_, ?_, ?_⟩
      · intro p v r h
        exact absurd h (by simp [parseValue])
      · intro p vs r h
        exact absurd h (by simp [parseElements])
      · intro p kvs r h
        exact absurd h (by simp [parseMembers])
  | succ n ih =>
      exact ⟨fun _ _ _ => parseValue_local ih, fun _ _ _ => parseElements_local ih,
        fun _ _ _ => parseMembers_local ih⟩

/-! ## Beginnings of a text -/

/-- A scalar is no dictionary. -/
theorem parseScalar_ne_obj {p r : List Char} {d : Dict} : parseScalar p ≠ some (.obj d, r) := by
  intro h
  have hword : ∀ {word t : List Char} {x : Json}, (∀ d, x ≠ .obj d) →
      (afterWord word t).map (x, ·) ≠ some (.obj d, r) := by
    intro word t x hx h
    obtain ⟨t', -, hxr⟩ := Option.map_eq_some_iff.mp h
    exact hx d (Prod.mk.inj hxr).1
  have hnumber : ∀ p, parseNumber p ≠ some (.obj d, r) := by
    intro p h
    unfold parseNumber at h
    split at h
    · exact absurd h (by simp)
    · simp only [Option.some.injEq, Prod.mk.injEq, numberOf] at h
      split at h <;> exact absurd h.1 (by simp)
  unfold parseScalar at h
  split at h
  · cases h
  split_ifs at h
  · exact hword (by simp) h
  · exact hword (by simp) h
  · exact hword (by simp) h
  · exact hword (by simp) h
  · exact hword (by simp) h
  · exact hword (by simp) h
  · exact hnumber _ h

/-- Only a text that starts with a brace is read as a dictionary. -/
theorem head_of_parseValue_obj {n : ℕ} {c : Char} {t r : List Char} {d : Dict}
    (h : parseValue n (c :: t) = some (.obj d, r)) : c = '{' := by
  cases n with
  | zero => exact absurd h (by simp [parseValue])
  | succ n =>
      obtain ⟨t, ht⟩ | ⟨t, ht⟩ | ⟨t, ht⟩ | ⟨c', t', -, -, hscalar⟩ := parseValue_cases h
      · rw [ht] at h
        obtain ⟨s, -, hs⟩ := parseValue_quote.mp h
        cases hs
      · rw [ht] at h
        obtain ⟨-, hv⟩ | ⟨-, vs, -, hv⟩ := parseValue_bracket.mp h
        · cases hv
        · cases hv
      · exact (List.cons.inj ht).1
      · exact absurd hscalar parseScalar_ne_obj

/-- **A dictionary in a text**: where it starts, where it ends, and that it is read there
whatever follows. -/
theorem parse_obj_local {n : ℕ} (cs : List Char) {r : List Char} {d : Dict}
    (h : parseValue n (skipSpace cs) = some (.obj d, r)) :
    ∃ b w, cs = b ++ '{' :: (w ++ '}' :: r) ∧
      (∀ r', skipSpace (b ++ '{' :: r') = '{' :: r') ∧
      ∀ m r', w.length + 1 < m → parseValue m ('{' :: (w ++ '}' :: r')) = some (.obj d, r') := by
  cases hskip : skipSpace cs with
  | nil =>
      rw [hskip] at h
      cases n with
      | zero => exact absurd h (by simp [parseValue])
      | succ n => exact absurd h (by simp [parseValue])
  | cons c t =>
      rw [hskip] at h
      obtain rfl := head_of_parseValue_obj h
      obtain ⟨b, rfl, hb⟩ := skipSpace_local hskip
      cases n with
      | zero => exact absurd h (by simp [parseValue])
      | succ n =>
          obtain ⟨w, rfl, hw⟩ := parseValue_obj_local (parse_local n).2.2 h
          exact ⟨b, w, rfl, hb, hw⟩

theorem jsonLoads_eq_some_iff {cs : List Char} {v : Json} :
    jsonLoads cs = some v ↔
      ∃ r, parseValue (cs.length + 1) (skipSpace cs) = some (v, r) ∧ skipSpace r = [] := by
  unfold jsonLoads
  constructor
  · intro h
    split at h
    · next v' r hv =>
        split at h
        · next hr => exact ⟨r, by rw [hv, Option.some.inj h], hr⟩
        · exact absurd h (by simp)
    · exact absurd h (by simp)
  · rintro ⟨r, hv, hr⟩
    simp only [hv, hr, if_true]

/-- **A beginning of the text of a dictionary** can be read exactly when only whitespace is
missing, and then it is read as that dictionary. -/
theorem jsonLoads_append_iff {p q : List Char} {d : Dict} (h : jsonLoads (p ++ q) = some (.obj d))
    (v : Json) : jsonLoads p = some v ↔ (∀ c ∈ q, isJsonSpace c = true) ∧ v = .obj d := by
  obtain ⟨r, hvalue, hr⟩ := jsonLoads_eq_some_iff.mp h
  obtain ⟨b, w, htext, hb, hw⟩ := parse_obj_local _ hvalue
  constructor
  · intro hp
    obtain ⟨r₁, hvalue₁, hr₁⟩ := jsonLoads_eq_some_iff.mp hp
    cases hskip : skipSpace p with
    | nil =>
        rw [hskip] at hvalue₁
        exact absurd hvalue₁ (by simp [parseValue])
    | cons c t =>
        -- the longer text starts with the same brace
        have hlong := skipSpace_append hskip q
        rw [hlong] at hvalue
        obtain rfl := head_of_parseValue_obj hvalue
        rw [hskip] at hvalue₁
        obtain ⟨w₁, rfl, hw₁⟩ := parseValue_obj_local (parse_local p.length).2.2 hvalue₁
        have hread := hw₁ ((p ++ q).length + 1) (r₁ ++ q) (by
          obtain ⟨b', rfl, -⟩ := skipSpace_local hskip
          simp only [List.length_append, List.length_cons]
          omega)
        rw [List.append_assoc, List.cons_append] at hvalue
        rw [hread, Option.some.injEq, Prod.mk.injEq] at hvalue
        obtain ⟨rfl, rfl⟩ := hvalue
        rw [skipSpace_eq_nil_iff] at hr
        exact ⟨fun c hc => hr c (List.mem_append_right _ hc), rfl⟩
  · rintro ⟨hq, rfl⟩
    rw [skipSpace_eq_nil_iff] at hr
    have hbrace : isJsonSpace '}' = false := by decide
    -- the closing brace belongs to the beginning
    have hsplit : ∃ r₁, p = b ++ '{' :: (w ++ '}' :: r₁) ∧ r = r₁ ++ q := by
      have htext' : p ++ q = (b ++ '{' :: w) ++ '}' :: r := by rw [htext]; simp
      rcases List.append_eq_append_iff.mp htext' with ⟨s, hs, hq'⟩ | ⟨s, hs, hq'⟩
      · have := hq '}' (by rw [hq']; simp)
        exact absurd this (by rw [hbrace]; simp)
      · cases s with
        | nil =>
            have := hq '}' (by rw [show q = '}' :: r from hq'.symm]; simp)
            exact absurd this (by rw [hbrace]; simp)
        | cons c s =>
            rw [List.cons_append, List.cons.injEq] at hq'
            obtain ⟨rfl, rfl⟩ := hq'
            exact ⟨s, by rw [hs]; simp, rfl⟩
    obtain ⟨r₁, rfl, rfl⟩ := hsplit
    refine jsonLoads_eq_some_iff.mpr ⟨r₁, ?_, ?_⟩
    · rw [hb]
      refine hw _ r₁ ?_
      simp only [List.length_append, List.length_cons]
      omega
    · rw [skipSpace_eq_nil_iff]
      exact fun c hc => hr c (List.mem_append_left _ hc)

/-- **No proper beginning of the text of a dictionary can be read.** -/
theorem jsonLoads_of_append {kvs : Dict} (hwf : (Json.obj kvs).WF) {p q : List Char}
    (hq : q ≠ []) (h : (Json.obj kvs).text = p ++ q) : jsonLoads p = none := by
  cases hp : jsonLoads p with
  | none => rfl
  | some v =>
      have hload := jsonLoads_text hwf
      have hblank := ((jsonLoads_append_iff (h ▸ hload) v).mp hp).1
      -- the text ends with its brace, which would be among what is missing
      have hparse := parseValue_text (Json.obj kvs) hwf (le_refl _) stopsNumber_nil
      rw [List.append_nil] at hparse
      obtain ⟨b, w, htext, -, -⟩ := parse_obj_local (Json.obj kvs).text (by
        have hskip := skipSpace_text (Json.obj kvs) []
        rw [List.append_nil] at hskip
        rw [hskip]
        exact hparse)
      have hlast : (p ++ q).getLast? = some '}' := by
        rw [← h, htext, show b ++ '{' :: (w ++ ['}']) = (b ++ '{' :: w) ++ ['}'] by simp]
        exact List.getLast?_concat
      rw [List.getLast?_append_of_ne_nil _ hq] at hlast
      have := hblank '}' (List.mem_of_getLast? hlast)
      exact absurd this (by decide)
