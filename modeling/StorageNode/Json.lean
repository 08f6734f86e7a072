/-
# JSON values as Python holds them

The values `json.load` builds and `json.dump` writes: requests, ledger entries and
response bodies are all of this type.

* `Json` : null, booleans, integers, floats, strings, lists and dictionaries;
* `Dict` : a dictionary in insertion order, with `Dict.get?` and `Dict.set`;
* `PyNumber` : the number that a boolean, an integer or a float is compared as;
* `Json.pyEq` : how Python compares elements (`True == 1`, `1e16 == 10 ** 16`, key order
  does not matter);
* `pyRemove` : `list.remove`, which takes out the first equal element.
-/
import StorageNode.Binary64
import StorageNode.PyStr

/-- The floats `json` reads and writes. -/
inductive JsonFloat
  | finite (x : Binary64)
  | infinity (neg : Bool)
  | nan
  deriving DecidableEq

/-- A JSON value. -/
inductive Json
  | null
  | bool (b : Bool)
  | int (n : ℤ)
  | float (x : JsonFloat)
  | str (s : PyStr)
  | arr (xs : List Json)
  | obj (kvs : List (PyStr × Json))

/-- A Python dictionary with string keys, in insertion order. -/
abbrev Dict := List (PyStr × Json)

/-! ## Dictionaries -/

/-- `d.get(k)`. -/
def Dict.get? (k : PyStr) : Dict → Option Json
  | [] => none
  | (k', v) :: r => if k' = k then some v else Dict.get? k r

/-- `d[k] = v`: the value of an existing key is replaced in place, a new key goes to
the end. -/
def Dict.set (k : PyStr) (v : Json) : Dict → Dict
  | [] => [(k, v)]
  | (k', v') :: r => if k' = k then (k, v) :: r else (k', v') :: Dict.set k v r

/-- The keys of a dictionary. -/
def Dict.keys (d : Dict) : List PyStr := d.map (·.1)

@[simp] theorem Dict.get?_nil (k : PyStr) : Dict.get? k [] = none := rfl

@[simp] theorem Dict.keys_cons (kv : PyStr × Json) (d : Dict) :
    Dict.keys (kv :: d) = kv.1 :: Dict.keys d := rfl

theorem Dict.mem_of_get? {k : PyStr} {v : Json} {d : Dict} (h : Dict.get? k d = some v) :
    (k, v) ∈ d := by
  induction d with
  | nil => exact absurd h (by simp)
  | cons kv r ih =>
      obtain ⟨k', v'⟩ := kv
      rw [Dict.get?] at h
      split at h
      · next hk =>
          obtain rfl := Option.some.inj h
          rw [hk]
          exact List.mem_cons_self
      · exact List.mem_cons_of_mem _ (ih h)

/-- A stored key is read back. -/
@[simp] theorem Dict.get?_set_self (k : PyStr) (v : Json) (d : Dict) :
    Dict.get? k (Dict.set k v d) = some v := by
  induction d with
  | nil => simp [Dict.set, Dict.get?]
  | cons kv r ih =>
      obtain ⟨k', v'⟩ := kv
      by_cases h : k' = k
      · simp [Dict.set, Dict.get?, h]
      · simp [Dict.set, Dict.get?, h, ih]

/-- Storing a key leaves the other keys alone. -/
theorem Dict.get?_set_of_ne {k k₁ : PyStr} (h : k₁ ≠ k) (v : Json) (d : Dict) :
    Dict.get? k₁ (Dict.set k v d) = Dict.get? k₁ d := by
  induction d with
  | nil => simp [Dict.set, Dict.get?, h.symm]
  | cons kv r ih =>
      obtain ⟨k', v'⟩ := kv
      by_cases hk : k' = k
      · subst hk
        simp [Dict.set, Dict.get?, h.symm]
      · by_cases hk₁ : k' = k₁
        · subst hk₁
          simp [Dict.set, Dict.get?, hk]
        · simp [Dict.set, Dict.get?, hk, hk₁, ih]

/-! ## Equality -/

/-- The number a value is compared as, in units of the smallest subnormal. -/
inductive PyNumber
  | units (n : ℤ)
  | infinity (neg : Bool)
  | nan
  deriving DecidableEq

def PyNumber.ofInt (n : ℤ) : PyNumber := .units (n * 2 ^ 1074)

/-- `int(b)`. -/
def boolToInt (b : Bool) : ℤ := if b then 1 else 0

def JsonFloat.number : JsonFloat → PyNumber
  | .finite x => .units x.units
  | .infinity neg => .infinity neg
  | .nan => .nan

mutual

/-- **Python's `x is y or x == y`**, which `in`, `list.remove` and the `==` of lists and
dictionaries ask of two elements.  `json` has one object for every `NaN` it reads, so a
`nan` is the same as itself; against a value that is no `nan` this is `==`. -/
def Json.pyEq : Json → Json → Bool
  | .null, .null => true
  | .bool a, .bool b => a = b
  | .bool a, .int n => boolToInt a = n
  | .bool a, .float x => .ofInt (boolToInt a) = x.number
  | .int m, .bool b => m = boolToInt b
  | .int m, .int n => m = n
  | .int m, .float x => .ofInt m = x.number
  | .float x, .bool b => x.number = .ofInt (boolToInt b)
  | .float x, .int n => x.number = .ofInt n
  | .float x, .float y => x.number = y.number
  | .str s, .str t => s = t
  | .arr xs, .arr ys => pyEqList xs ys
  | .obj a, .obj b => a.length = b.length && pyEqDict a b
  | _, _ => false

/-- `==` of two lists. -/
def pyEqList : List Json → List Json → Bool
  | [], [] => true
  | x :: xs, y :: ys => x.pyEq y && pyEqList xs ys
  | _, _ => false

/-- Every key of the first dictionary has an equal value in the second. -/
def pyEqDict : List (PyStr × Json) → List (PyStr × Json) → Bool
  | [], _ => true
  | kv :: r, d =>
      (match Dict.get? kv.1 d with
        | some v => kv.2.pyEq v
        | none => false) && pyEqDict r d

end

instance : BEq Json := ⟨Json.pyEq⟩

theorem beq_eq_pyEq (a b : Json) : (a == b) = a.pyEq b := rfl

/-- `xs.remove(x)`: the list without its first element equal to `x`, or `none` for the
`ValueError` of a list that has none. -/
def pyRemove {α : Type} [BEq α] (x : α) : List α → Option (List α)
  | [] => none
  | y :: ys => if y == x then some ys else (pyRemove x ys).map (y :: ·)
