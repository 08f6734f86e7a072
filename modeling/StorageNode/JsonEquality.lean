/-
# Python's `==` on JSON values

Elements of a container are compared by identity first, so `==` is an equivalence on
well-formed values.  A list of entries is then a multiset of classes, and `list.remove` takes
one copy out of one class.

* `Json.num?` : the number a boolean, an integer or a float is compared as;
* `pyEq_number`, `pyEqList_iff`, `pyEq_obj` : what `==` asks of numbers, lists and
  dictionaries;
* `Json.pyEq_refl`, `Json.pyEq_symm`, `Json.pyEq_trans` : by induction on the size of the first value;
* `copies`, `copies_remove` : what `list.remove` does to the number of copies.
-/
import StorageNode.JsonRoundTrip

/-! ## Numbers -/

/-- The number a value is compared as. -/
def Json.num? : Json → Option PyNumber
  | .bool b => some (.ofInt (boolToInt b))
  | .int n => some (.ofInt n)
  | .float x => some x.number
  | _ => none

/-- Booleans, integers and floats. -/
def Json.isNumber : Json → Bool
  | .bool _ => true
  | .int _ => true
  | .float _ => true
  | _ => false

@[simp] theorem PyNumber.ofInt_inj {m n : ℤ} : PyNumber.ofInt m = .ofInt n ↔ m = n := by
  have hpos : (2 : ℤ) ^ 1074 ≠ 0 := by positivity
  rw [PyNumber.ofInt, PyNumber.ofInt, PyNumber.units.injEq, mul_left_inj' hpos]

/-- Numbers are equal when they are compared as the same number. -/
theorem Json.pyEq_number {a b : Json} (h : a.isNumber = true ∨ b.isNumber = true) :
    a.pyEq b = true ↔ ∃ k, a.num? = some k ∧ b.num? = some k := by
  cases a with
  | bool b₁ =>
      cases b with
      | bool b₂ => cases b₁ <;> cases b₂ <;> simp [Json.pyEq, Json.num?, boolToInt]
      | _ => simp [Json.pyEq, Json.num?, eq_comm]
  | int m => cases b <;> simp [Json.pyEq, Json.num?, eq_comm]
  | float x => cases b <;> simp [Json.pyEq, Json.num?, eq_comm]
  | _ => cases b <;> simp_all [Json.pyEq, Json.num?, Json.isNumber]

/-! ## Lists and dictionaries -/

theorem pyEqList_cons {x y : Json} {xs ys : List Json} :
    pyEqList (x :: xs) (y :: ys) = true ↔ x.pyEq y = true ∧ pyEqList xs ys = true := by
  rw [pyEqList, Bool.and_eq_true]

theorem pyEqDict_iff {a b : Dict} : pyEqDict a b = true ↔
    ∀ kv ∈ a, ∃ v, Dict.get? kv.1 b = some v ∧ kv.2.pyEq v = true := by
  induction a with
  | nil => simp [pyEqDict]
  | cons kv r ih =>
      rw [pyEqDict, Bool.and_eq_true, ih, List.forall_mem_cons]
      cases Dict.get? kv.1 b with
      | none => simp
      | some v => simp

theorem Json.pyEq_obj {a b : Dict} : (Json.obj a).pyEq (.obj b) = true ↔ a.length = b.length ∧
    ∀ kv ∈ a, ∃ v, Dict.get? kv.1 b = some v ∧ kv.2.pyEq v = true := by
  rw [Json.pyEq, Bool.and_eq_true, decide_eq_true_eq, pyEqDict_iff]

/-- A key that is listed once is found. -/
theorem Dict.get?_of_mem {d : Dict} (hnodup : (d.map Prod.fst).Nodup) {kv : PyStr × Json}
    (h : kv ∈ d) : Dict.get? kv.1 d = some kv.2 := by
  induction d with
  | nil => exact absurd h List.not_mem_nil
  | cons e r ih =>
      obtain ⟨k', v'⟩ := e
      rw [List.map_cons, List.nodup_cons] at hnodup
      rw [Dict.get?]
      rcases List.mem_cons.mp h with rfl | hr
      · rw [if_pos rfl]
      · have hne : k' ≠ kv.1 := by
          rintro rfl
          exact hnodup.1 (List.mem_map.mpr ⟨kv, hr, rfl⟩)
        rw [if_neg hne, ih hnodup.2 hr]

/-- Equal dictionaries have the same keys. -/
theorem mem_of_pyEq_obj {a b : Dict} (ha : (a.map Prod.fst).Nodup)
    (h : (Json.obj a).pyEq (.obj b) = true) {kv : PyStr × Json} (hkv : kv ∈ b) :
    ∃ v, (kv.1, v) ∈ a := by
  obtain ⟨hlen, heq⟩ := Json.pyEq_obj.mp h
  have hsub : a.map Prod.fst ⊆ b.map Prod.fst := by
    intro k hk
    obtain ⟨e, he, rfl⟩ := List.mem_map.mp hk
    obtain ⟨v, hv, -⟩ := heq e he
    exact List.mem_map.mpr ⟨(e.1, v), Dict.mem_of_get? hv, rfl⟩
  have hperm := (ha.subperm hsub).perm_of_length_le (by simp [hlen])
  obtain ⟨e, he, hk⟩ := List.mem_map.mp (hperm.mem_iff.mpr (List.mem_map_of_mem hkv))
  exact ⟨e.2, by rw [← hk]; exact he⟩

theorem sizeOf_lt_arr {xs : List Json} {x : Json} (h : x ∈ xs) : sizeOf x < sizeOf (Json.arr xs) := by
  have := List.sizeOf_lt_of_mem h
  rw [Json.arr.sizeOf_spec]
  omega

theorem sizeOf_lt_obj {d : Dict} {kv : PyStr × Json} (h : kv ∈ d) :
    sizeOf kv.2 < sizeOf (Json.obj d) := by
  have hlt := List.sizeOf_lt_of_mem h
  obtain ⟨k, v⟩ := kv
  rw [Prod.mk.sizeOf_spec] at hlt
  rw [Json.obj.sizeOf_spec]
  show sizeOf v < _
  omega

/-! ## Reflexivity, symmetry and transitivity -/

theorem Json.pyEq_refl_of_lt (n : ℕ) : ∀ {a : Json}, sizeOf a < n → a.WF → a.pyEq a = true := by
  induction n with
  | zero => exact fun h => absurd h (Nat.not_lt_zero _)
  | succ n ih =>
      intro a hsize ha
      cases a with
      | arr xs =>
          have hxs := wfList_iff.mp ha
          have hrefl : ∀ x ∈ xs, x.pyEq x = true := by
            intro x hx
            have := sizeOf_lt_arr hx
            exact ih (by omega) (hxs x hx)
          rw [Json.pyEq]
          clear ha hxs hsize
          induction xs with
          | nil => rfl
          | cons x xs ihx =>
              rw [List.forall_mem_cons] at hrefl
              exact pyEqList_cons.mpr ⟨hrefl.1, ihx hrefl.2⟩
      | obj d =>
          have hd := wfDict_iff.mp ha.2
          refine Json.pyEq_obj.mpr ⟨rfl, fun kv hkv => ?_⟩
          have := sizeOf_lt_obj hkv
          exact ⟨kv.2, Dict.get?_of_mem ha.1 hkv, ih (by omega) (hd kv hkv).2⟩
      | _ => simp [Json.pyEq]

/-- **An element equals itself**, a `nan` too. -/
theorem Json.pyEq_refl {a : Json} (ha : a.WF) : a.pyEq a = true :=
  Json.pyEq_refl_of_lt (sizeOf a + 1) (Nat.lt_succ_self _) ha

theorem pyEqList_symm {xs ys : List Json}
    (h : ∀ x ∈ xs, ∀ y ∈ ys, x.pyEq y = true → y.pyEq x = true) (heq : pyEqList xs ys = true) :
    pyEqList ys xs = true := by
  induction xs generalizing ys with
  | nil =>
      cases ys with
      | nil => rfl
      | cons y ys => exact absurd heq (by simp [pyEqList])
  | cons x xs ih =>
      cases ys with
      | nil => exact absurd heq (by simp [pyEqList])
      | cons y ys =>
          rw [pyEqList_cons] at heq ⊢
          refine ⟨h x List.mem_cons_self y List.mem_cons_self heq.1, ih ?_ heq.2⟩
          exact fun x hx y hy => h x (List.mem_cons_of_mem _ hx) y (List.mem_cons_of_mem _ hy)

theorem pyEqList_trans {xs ys zs : List Json}
    (h : ∀ x ∈ xs, ∀ y z : Json, x.pyEq y = true → y.pyEq z = true → x.pyEq z = true)
    (hxy : pyEqList xs ys = true) (hyz : pyEqList ys zs = true) : pyEqList xs zs = true := by
  induction xs generalizing ys zs with
  | nil =>
      cases ys with
      | nil => exact hyz
      | cons y ys => exact absurd hxy (by simp [pyEqList])
  | cons x xs ih =>
      cases ys with
      | nil => exact absurd hxy (by simp [pyEqList])
      | cons y ys =>
          cases zs with
          | nil => exact absurd hyz (by simp [pyEqList])
          | cons z zs =>
              rw [pyEqList_cons] at hxy hyz ⊢
              refine ⟨h x List.mem_cons_self y z hxy.1 hyz.1, ih ?_ hxy.2 hyz.2⟩
              exact fun x hx => h x (List.mem_cons_of_mem _ hx)

theorem Json.pyEq_symm_of_lt (n : ℕ) : ∀ {a b : Json}, sizeOf a < n → a.WF → b.WF →
    a.pyEq b = true → b.pyEq a = true := by
  induction n with
  | zero => exact fun h => absurd h (Nat.not_lt_zero _)
  | succ n ih =>
      intro a b hsize ha hb h
      by_cases hnum : a.isNumber = true ∨ b.isNumber = true
      · obtain ⟨k, hka, hkb⟩ := (Json.pyEq_number hnum).mp h
        exact (Json.pyEq_number hnum.symm).mpr ⟨k, hkb, hka⟩
      cases a with
      | arr xs =>
          cases b with
          | arr ys =>
              have hxs := wfList_iff.mp ha
              have hys := wfList_iff.mp hb
              refine pyEqList_symm (fun x hx y hy hxy => ?_) h
              have := sizeOf_lt_arr hx
              exact ih (by omega) (hxs x hx) (hys y hy) hxy
          | _ => exact absurd h (by simp [Json.pyEq])
      | obj a =>
          cases b with
          | obj b =>
              have hwa := wfDict_iff.mp ha.2
              have hwb := wfDict_iff.mp hb.2
              obtain ⟨hlen, heq⟩ := Json.pyEq_obj.mp h
              refine Json.pyEq_obj.mpr ⟨hlen.symm, fun kv hkv => ?_⟩
              obtain ⟨v, hv⟩ := mem_of_pyEq_obj ha.1 h hkv
              refine ⟨v, Dict.get?_of_mem ha.1 hv, ?_⟩
              obtain ⟨w, hw, hvw⟩ := heq _ hv
              rw [Dict.get?_of_mem hb.1 hkv, Option.some.injEq] at hw
              rw [← hw] at hvw
              have hlt : sizeOf v < sizeOf (Json.obj a) := sizeOf_lt_obj hv
              exact ih (by omega) (hwa _ hv).2 (hwb _ hkv).2 hvw
          | _ => exact absurd h (by simp [Json.pyEq])
      | str s =>
          cases b with
          | str t =>
              rw [Json.pyEq, decide_eq_true_eq] at h ⊢
              exact h.symm
          | _ => exact absurd h (by simp [Json.pyEq])
      | null =>
          cases b with
          | null => rfl
          | _ => exact absurd h (by simp [Json.pyEq])
      | _ => exact absurd (Or.inl rfl) hnum

/-- **`==` is symmetric** on well-formed values. -/
theorem Json.pyEq_symm {a b : Json} (ha : a.WF) (hb : b.WF) (h : a.pyEq b = true) :
    b.pyEq a = true :=
  Json.pyEq_symm_of_lt (sizeOf a + 1) (Nat.lt_succ_self _) ha hb h

theorem Json.pyEq_trans_of_lt (n : ℕ) : ∀ {a b c : Json}, sizeOf a < n →
    a.pyEq b = true → b.pyEq c = true → a.pyEq c = true := by
  induction n with
  | zero => exact fun h => absurd h (Nat.not_lt_zero _)
  | succ n ih =>
      intro a b c hsize hab hbc
      by_cases hnum : b.isNumber = true
      · obtain ⟨k, hka, hkb⟩ := (Json.pyEq_number (Or.inr hnum)).mp hab
        obtain ⟨k', hkb', hkc⟩ := (Json.pyEq_number (Or.inl hnum)).mp hbc
        rw [hkb, Option.some.injEq] at hkb'
        subst hkb'
        have hnum' : a.isNumber = true := by
          cases a <;> first | rfl | exact absurd hka (by simp [Json.num?])
        exact (Json.pyEq_number (Or.inl hnum')).mpr ⟨k, hka, hkc⟩
      cases a with
      | arr xs =>
          cases b with
          | arr ys =>
              cases c with
              | arr zs =>
                  refine pyEqList_trans (fun x hx y z hxy hyz => ?_) hab hbc
                  have := sizeOf_lt_arr hx
                  exact ih (by omega) hxy hyz
              | _ => exact absurd hbc (by simp [Json.pyEq])
          | _ => exact absurd hab (by simp [Json.pyEq])
      | obj a =>
          cases b with
          | obj b =>
              cases c with
              | obj c =>
                  obtain ⟨hlen, heq⟩ := Json.pyEq_obj.mp hab
                  obtain ⟨hlen', heq'⟩ := Json.pyEq_obj.mp hbc
                  refine Json.pyEq_obj.mpr ⟨hlen.trans hlen', fun kv hkv => ?_⟩
                  obtain ⟨v, hv, hkvv⟩ := heq kv hkv
                  obtain ⟨w, hw, hvw⟩ := heq' _ (Dict.mem_of_get? hv)
                  have := sizeOf_lt_obj hkv
                  exact ⟨w, hw, ih (by omega) hkvv hvw⟩
              | _ => exact absurd hbc (by simp [Json.pyEq])
          | _ => exact absurd hab (by simp [Json.pyEq])
      | str s =>
          cases b with
          | str t =>
              rw [Json.pyEq, decide_eq_true_eq] at hab
              rw [hab]
              exact hbc
          | _ => exact absurd hab (by simp [Json.pyEq])
      | null =>
          cases b with
          | null => exact hbc
          | _ => exact absurd hab (by simp [Json.pyEq])
      | _ => cases b <;> first | exact absurd rfl hnum | exact absurd hab (by simp [Json.pyEq])

/-- **`==` is transitive.** -/
theorem Json.pyEq_trans {a b c : Json} (hab : a.pyEq b = true) (hbc : b.pyEq c = true) :
    a.pyEq c = true :=
  Json.pyEq_trans_of_lt (sizeOf a + 1) (Nat.lt_succ_self _) hab hbc

/-! ## Copies -/

/-- How often a value is in a list, up to `==`. -/
def copies (z : Json) (xs : List Json) : ℕ := xs.countP (· == z)

section Copies

variable {x z : Json} {xs ys : List Json}

theorem copies_nil : copies z [] = 0 := rfl

theorem copies_cons : copies z (x :: xs) = copies z xs + if x == z then 1 else 0 :=
  List.countP_cons

theorem copies_append : copies z (xs ++ ys) = copies z xs + copies z ys := List.countP_append

/-- **`list.remove` takes out one copy** of each value that equals the entry, and of no
other. -/
theorem copies_remove (hx : x.WF) (hxs : ∀ y ∈ xs, y.WF) (h : pyRemove x xs = some ys) :
    copies z ys + (if x == z then 1 else 0) = copies z xs := by
  induction xs generalizing ys with
  | nil => exact absurd h (by simp [pyRemove])
  | cons y r ih =>
      rw [List.forall_mem_cons] at hxs
      rw [pyRemove] at h
      rw [copies_cons]
      split at h
      · next hy =>
          obtain rfl := Option.some.inj h
          have hclass : (x == z) = (y == z) := by
            rw [Bool.eq_iff_iff]
            exact ⟨fun hxz => Json.pyEq_trans hy hxz,
              fun hyz => Json.pyEq_trans (Json.pyEq_symm hxs.1 hx hy) hyz⟩
          rw [hclass]
      · obtain ⟨zs, hzs, rfl⟩ := Option.map_eq_some_iff.mp h
        rw [copies_cons]
        have := ih hxs.2 hzs
        omega

end Copies
