/-
# Python's `str`

A string is a sequence of code points, and a code point need not be a character: `json.loads`
reads the escape of a surrogate that stands alone.

* `CodePoint`, `PyStr` : a character or a surrogate, and sequences of them;
* `PyStr.ofString` : the strings without surrogates, and the coercion;
* `PyStr.encode?` : `s.encode()`, which a surrogate fails;
* `PyStr.Joined` : no two surrogates that together are one character.
-/
import Mathlib

/-- A code point: a Unicode scalar value, or the `n`-th surrogate. -/
inductive CodePoint
  | char (c : Char)
  | surrogate (n : Fin 0x800)
  deriving DecidableEq

/-- The UTF-8 bytes of a character; a surrogate has none. -/
def CodePoint.encode? : CodePoint → Option (List UInt8)
  | .char c => some (String.utf8EncodeChar c)
  | .surrogate _ => none

/-- A Python string. -/
abbrev PyStr : Type := List CodePoint

namespace PyStr

/-- The string of some text. -/
def ofString (s : String) : PyStr := s.toList.map .char

instance : Coe String PyStr := ⟨ofString⟩

instance : LawfulBEq PyStr := inferInstance

theorem char_injective : Function.Injective CodePoint.char := fun _ _ => CodePoint.char.inj

@[simp] theorem ofString_inj {s t : String} : ofString s = ofString t ↔ s = t := by
  rw [ofString, ofString, List.map_inj_right char_injective, String.toList_inj]

/-- `s.encode()`: UTF-8, which has no bytes for a surrogate. -/
def encode? (s : PyStr) : Option (List UInt8) := (s.mapM CodePoint.encode?).map List.flatten

/-! ## Pairs of surrogates -/

/-- The character whose halves in UTF-16 are `a` and `b`. -/
def pair? : CodePoint → CodePoint → Option CodePoint
  | .surrogate hi, .surrogate lo =>
      if hi.val < 0x400 ∧ 0x400 ≤ lo.val then
        some (.char (Char.ofNat (0x10000 + hi.val * 0x400 + (lo.val - 0x400))))
      else none
  | _, _ => none

/-- Two surrogates that stand for one character are read as that character. -/
def join : PyStr → PyStr
  | a :: b :: r =>
      match pair? a b with
      | some c => c :: join r
      | none => a :: join (b :: r)
  | s => s

/-- **No two surrogates stand for one character.** -/
def Joined (s : PyStr) : Prop := s.IsChain fun a b => pair? a b = none

/-- The first half of a character above the basic plane. -/
def highHalf (c : Char) : Fin 0x800 :=
  ⟨(c.toNat - 0x10000) / 0x400 % 0x800, Nat.mod_lt _ (by decide)⟩

/-- The second half. -/
def lowHalf (c : Char) : Fin 0x800 := ⟨0x400 + (c.toNat - 0x10000) % 0x400, by omega⟩

/-- A character above the basic plane in two surrogates. -/
def halves : CodePoint → PyStr
  | .char c =>
      if c.toNat < 0x10000 then [.char c]
      else [.surrogate (highHalf c), .surrogate (lowHalf c)]
  | .surrogate n => [.surrogate n]

theorem pair_char (c : Char) (b : CodePoint) : pair? (.char c) b = none := rfl

theorem pair_of_char (a : CodePoint) (c : Char) : pair? a (.char c) = none := by
  cases a <;> rfl

/-- A pair makes a character. -/
theorem exists_char_of_pair {a b c : CodePoint} (h : pair? a b = some c) :
    ∃ d, c = .char d := by
  unfold pair? at h
  split at h
  · split at h
    · exact ⟨_, (Option.some.inj h).symm⟩
    · cases h
  · cases h

@[simp] theorem joined_ofString (s : String) : Joined (ofString s) := by
  unfold Joined ofString
  induction s.toList with
  | nil => exact .nil
  | cons c cs ih =>
      cases cs with
      | nil => exact .singleton _
      | cons d cs => exact .cons_cons rfl ih

theorem join_cons {a : CodePoint} {s : PyStr} (h : ∀ b ∈ s.head?, pair? a b = none) :
    join (a :: s) = a :: join s := by
  cases s with
  | nil => rfl
  | cons b s => rw [join, h b rfl]

/-- A character is no surrogate. -/
theorem toNat_not_surrogate (c : Char) : c.toNat < 0xd800 ∨ 0xdfff < c.toNat := by
  have hvalid : c.toNat.isValidChar := c.valid
  rcases hvalid with h | h
  · exact Or.inl h
  · exact Or.inr h.1

theorem toNat_lt (c : Char) : c.toNat < 0x110000 := by
  have hvalid : c.toNat.isValidChar := c.valid
  rcases hvalid with h | h
  · omega
  · exact h.2

theorem highHalf_val (c : Char) : (highHalf c).val = (c.toNat - 0x10000) / 0x400 := by
  have hlt := toNat_lt c
  exact Nat.mod_eq_of_lt (by omega)

/-- The halves of a character make it. -/
theorem pair_halves {c : Char} (h : ¬ c.toNat < 0x10000) :
    pair? (.surrogate (highHalf c)) (.surrogate (lowHalf c)) = some (.char c) := by
  have hlt := toNat_lt c
  have hlo : (lowHalf c).val = 0x400 + (c.toNat - 0x10000) % 0x400 := rfl
  have hsum : 0x10000 + (highHalf c).val * 0x400 + ((lowHalf c).val - 0x400) = c.toNat := by
    rw [highHalf_val, hlo]
    omega
  rw [pair?, if_pos (by rw [highHalf_val, hlo]; omega), hsum, Char.ofNat_toNat]

/-- The first half of a character is no second half. -/
theorem pair_head_halves {a d : CodePoint} (h : pair? a d = none) :
    ∀ b ∈ (halves d).head?, pair? a b = none := by
  cases d with
  | surrogate n =>
      intro b hb
      obtain rfl : .surrogate n = b := Option.some.inj hb
      exact h
  | char c =>
      rw [halves]
      split
      · intro b hb
        obtain rfl : .char c = b := Option.some.inj hb
        exact h
      · next hc =>
          intro b hb
          obtain rfl : .surrogate _ = b := Option.some.inj hb
          have hlt := toNat_lt c
          cases a with
          | char a => rfl
          | surrogate hi =>
              rw [pair?, if_neg]
              rw [highHalf_val]
              omega

/-- **A joined string is read back** from its halves. -/
theorem join_halves {s : PyStr} (h : Joined s) : join (s.flatMap halves) = s := by
  induction s with
  | nil => rfl
  | cons c s ih =>
      have hs : join (s.flatMap halves) = s := ih h.tail
      have hnext : ∀ b ∈ (s.flatMap halves).head?, pair? c b = none := by
        cases s with
        | nil => exact fun b hb => absurd hb (by simp)
        | cons d s =>
            have hd := pair_head_halves (List.isChain_cons_cons.mp h).1
            rw [List.flatMap_cons]
            cases hh : halves d with
            | nil =>
                cases d with
                | surrogate n => exact absurd hh (by simp [halves])
                | char d =>
                    rw [halves] at hh
                    split at hh <;> exact absurd hh (by simp)
            | cons b t =>
                rw [hh] at hd
                exact hd
      rw [List.flatMap_cons]
      cases c with
      | surrogate n =>
          rw [halves, List.singleton_append, join_cons hnext, hs]
      | char c =>
          rw [halves]
          split
          · rw [List.singleton_append, join_cons hnext, hs]
          · next hc =>
              rw [List.cons_append, List.singleton_append, join, pair_halves hc]
              simp only [hs]

/-- The first code point stays, or becomes a character. -/
theorem head_join (b : CodePoint) (r : PyStr) :
    (join (b :: r)).head? = some b ∨ ∃ c, (join (b :: r)).head? = some (.char c) := by
  cases r with
  | nil => exact Or.inl rfl
  | cons d r =>
      rw [join]
      cases hp : pair? b d with
      | none => exact Or.inl rfl
      | some c =>
          obtain ⟨d, rfl⟩ := exists_char_of_pair hp
          exact Or.inr ⟨d, rfl⟩

/-- **What is read is joined.** -/
theorem joined_join (s : PyStr) : Joined (join s) := by
  have hcons : ∀ (a : CodePoint) (t : PyStr), (∀ b ∈ t.head?, pair? a b = none) → Joined t →
      Joined (a :: t) := by
    intro a t ha ht
    exact List.isChain_cons.mpr ⟨ha, ht⟩
  induction s using join.induct with
  | case1 a b r c hp ih =>
      rw [join, hp]
      obtain ⟨d, rfl⟩ := exists_char_of_pair hp
      exact hcons _ _ (fun b _ => pair_char d b) ih
  | case2 a b r hp ih =>
      rw [join, hp]
      refine hcons _ _ (fun d hd => ?_) ih
      rcases head_join b r with hb | ⟨c, hc⟩
      · rw [hb, Option.mem_some] at hd
        exact hd ▸ hp
      · rw [hc, Option.mem_some] at hd
        exact hd ▸ pair_of_char a c
  | case3 s hs =>
      rw [join]
      · cases s with
        | nil => exact .nil
        | cons a s =>
            cases s with
            | nil => exact .singleton a
            | cons b s => exact absurd rfl (hs a b s)
      · exact hs

end PyStr
